import Gatehouse.Proofs.Web.Readings

/-!
# Keys — ids that are put in one after another

Ids from several places come together under their keys. An id is put over the one that is there or gives way to
it; either way the keys stand in the order in which they came up first, each once.
-/

namespace Gatehouse.Ids

/-! ## 1. Names of ids -/

/-- The name of a parameter that holds an id. -/
def NamesId (name : String) : Prop := name = "id" ∨ ∃ stem, name = stem ++ "_id"

theorem isIdName_iff {name : String} : isIdName name = true ↔ NamesId name := by
  have hend : (name.toList.drop (name.toList.length - 3) == ['_', 'i', 'd']) = true ↔ "_id".toList <:+ name.toList := by
    rw [List.suffix_iff_eq_drop, beq_iff_eq]
    exact eq_comm
  unfold isIdName NamesId
  rw [Bool.or_eq_true, beq_iff_eq, hend]
  apply or_congr_right
  constructor
  · rintro ⟨stem, hstem⟩
    refine ⟨String.ofList stem, String.toList_injective ?_⟩
    rw [String.toList_append, String.toList_ofList, hstem]
  · rintro ⟨stem, rfl⟩
    exact ⟨stem.toList, String.toList_append.symm⟩

/-! ## 2. Keys in their order -/

/-- A key in its place: where it is already, else last. -/
def addKey (keys : List String) (key : String) : List String := if key ∈ keys then keys else keys ++ [key]

theorem keys_put (ids : Ids) (key : String) (value : Value) :
    (ids.put key value).map Prod.fst = addKey (ids.map Prod.fst) key := by
  unfold addKey
  by_cases h : key ∈ ids.map Prod.fst
  · rw [if_pos h, keys_put_of_mem value h]
  · rw [if_neg h, put_of_not_mem value h, List.map_append]
    rfl

theorem has_iff_mem_keys {ids : Ids} {key : String} : ids.has key = true ↔ key ∈ ids.map Prod.fst := by
  unfold has
  rw [List.any_eq_true, List.mem_map]
  simp only [beq_iff_eq]

theorem mem_keys_iff {ids : Ids} {key : String} : key ∈ ids.map Prod.fst ↔ (ids.get? key).isSome = true := by
  rw [← has_iff_mem_keys, has_eq_isSome]

theorem keys_putNew (ids : Ids) (key : String) (value : Value) :
    (ids.putNew key value).map Prod.fst = addKey (ids.map Prod.fst) key := by
  unfold putNew addKey
  by_cases h : key ∈ ids.map Prod.fst
  · rw [if_pos (has_iff_mem_keys.2 h), if_pos h]
  · rw [if_neg fun hhas => h (has_iff_mem_keys.1 hhas), if_neg h, List.map_append]
    rfl

theorem addKey_eraseDups (front : List String) (key : String) :
    addKey front.eraseDups key = (front ++ [key]).eraseDups := by
  unfold addKey
  rw [List.eraseDups_append]
  by_cases h : key ∈ front
  · rw [if_pos (List.mem_eraseDups.2 h)]
    simp [List.removeAll, h]
  · rw [if_neg fun hmem => h (List.mem_eraseDups.1 hmem)]
    simp [List.removeAll, h, List.eraseDups_cons]

/-- However ids are put one after another, their keys stand in the order in which they came up first. -/
theorem keys_foldl {step : Ids → α → Ids} {name : α → String}
    (hstep : ∀ ids e, (step ids e).map Prod.fst = addKey (ids.map Prod.fst) (name e)) (es : List α)
    {front : List String} {ids : Ids} (h : ids.map Prod.fst = front.eraseDups) :
    (es.foldl step ids).map Prod.fst = (front ++ es.map name).eraseDups := by
  -- `front` are the keys that have come up so far, with their repetitions.
  induction es generalizing front ids with
  | nil => simpa using h
  | cons e rest ih =>
    have hnext : (step ids e).map Prod.fst = (front ++ [name e]).eraseDups := by
      rw [hstep, h, addKey_eraseDups]
    rw [List.foldl_cons, ih hnext]
    simp

/-! ## 3. Ids that give way -/

theorem isMap_putNew {ids : Ids} (h : ids.IsMap) (key : String) (value : Value) : (ids.putNew key value).IsMap := by
  unfold putNew
  by_cases hhas : ids.has key = true
  · rwa [if_pos hhas]
  · have hnew : key ∉ ids.map Prod.fst := fun hmem => hhas (has_iff_mem_keys.2 hmem)
    rw [if_neg hhas, ← put_of_not_mem value hnew]
    exact isMap_put h key value

/-- Putting ids in one after another, whichever way, leaves each key once. -/
theorem isMap_foldl {step : Ids → α → Ids} (hstep : ∀ ids e, ids.IsMap → (step ids e).IsMap) (es : List α)
    {ids : Ids} (h : ids.IsMap) : (es.foldl step ids).IsMap := by
  induction es generalizing ids with
  | nil => exact h
  | cons e rest ih => exact ih (hstep ids e h)

/-- The first entry whose key is written like this. -/
def firstOf (entries : List (Value × Value)) (key : String) : Option Value :=
  (entries.find? fun e => e.1.written == key).map Prod.snd

theorem firstOf_cons (e : Value × Value) (rest : List (Value × Value)) (key : String) :
    firstOf (e :: rest) key = (if e.1.written = key then some e.2 else none).or (firstOf rest key) := by
  unfold firstOf
  by_cases h : e.1.written = key
  · simp [h]
  · simp [h]

theorem get?_foldl_putNew (entries : List (Value × Value)) (ids : Ids) (key : String) :
    (entries.foldl (fun ids e => ids.putNew e.1.written e.2) ids).get? key =
      (ids.get? key).or (firstOf entries key) := by
  induction entries generalizing ids with
  | nil => exact (Option.or_none).symm
  | cons e rest ih =>
    -- What was there before counts, then this entry, and only then what comes later.
    rw [List.foldl_cons, ih, get?_putNew, firstOf_cons, Option.or_assoc]

end Gatehouse.Ids
