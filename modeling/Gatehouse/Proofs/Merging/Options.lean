import Gatehouse.Proofs.Deciding.Malformed
import Gatehouse.Proofs.Merging.Keys

/-!
# Options — the ids that options come to

Ids stand in options at two places: in a mapping of their own, and among the other options under names of ids.
Keys are told apart by their texts alone, so that several entries may fall together. In the mapping the last of
them counts, as in any mapping that is written down again; among the options it is the first, and only where the
mapping has nothing under that text.
-/

namespace Gatehouse

/-! ## 1. The two places -/

namespace Request

/-- The entries of the mapping of ids; there are none if it is not given. -/
def givenIds (entries : List (Value × Value)) : List (Value × Value) :=
  match option entries "ids" with
  | .dict ids => ids
  | _ => []

/-- The options that are ids themselves: those with the name of an id that does not pass for `ids` as well. -/
def idOptions (entries : List (Value × Value)) : List (Value × Value) :=
  entries.filter fun e => !Value.equals e.1 (.text "ids") && Ids.isIdName e.1.written

variable {entries : List (Value × Value)}

theorem mem_idOptions {e : Value × Value} : e ∈ idOptions entries ↔
    e ∈ entries ∧ Value.equals e.1 (.text "ids") = false ∧ Ids.NamesId e.1.written := by
  unfold idOptions
  rw [List.mem_filter, Bool.and_eq_true, Bool.not_eq_true', Ids.isIdName_iff]

/-- The ids of the mapping, in which the last of the entries under one text counts. -/
def explicitIds (entries : List (Value × Value)) : Ids :=
  (givenIds entries).foldl (fun ids e => ids.put e.1.written e.2) []

/-- All ids: those of the mapping, and behind them the options, the first under each text. -/
def mergedIds (entries : List (Value × Value)) : Ids :=
  (idOptions entries).foldl (fun ids e => ids.putNew e.1.written e.2) (explicitIds entries)

theorem coerce_eq_explicitIds (hids : IdsAreMapping entries) (hkeys : KeysHaveText entries) :
    Ids.coerce (option entries "ids") = .ok (explicitIds entries) := by
  unfold explicitIds givenIds
  obtain hnull | ⟨given, hgiven⟩ := hids
  · rw [hnull]
    rfl
  · have hnames : Ids.HaveNames given := fun e he => (hkeys.ids given hgiven e he).written?_eq
    rw [hgiven]
    exact Ids.ofEntries_eq_foldl hnames

theorem takeId_eq {e : Value × Value} (h : Value.equals e.1 (.text "ids") = false → e.1.HasText) (ids : Ids) :
    takeId ids e = .ok (if !Value.equals e.1 (.text "ids") && Ids.isIdName e.1.written
      then ids.putNew e.1.written e.2 else ids) := by
  unfold takeId
  cases hids : Value.equals e.1 (.text "ids") with
  | true => rfl
  | false =>
    have hwritten : e.1.written? = .ok e.1.written := (h hids).written?_eq
    unfold Ids.isIdKey
    rw [hwritten]
    cases hname : Ids.isIdName e.1.written with
    | true => simp [bind, Except.bind, pure, Except.pure, hname]
    | false => simp [bind, Except.bind, pure, Except.pure, hname]

theorem foldlM_takeId_eq (h : ∀ e ∈ entries, Value.equals e.1 (.text "ids") = false → e.1.HasText) (ids : Ids) :
    entries.foldlM takeId ids =
      .ok ((idOptions entries).foldl (fun ids e => ids.putNew e.1.written e.2) ids) := by
  induction entries generalizing ids with
  | nil => rfl
  | cons e rest ih =>
    have hrest := ih fun e' he' => h e' (List.mem_cons_of_mem e he')
    rw [List.foldlM_cons, bind_of_eq_ok (takeId_eq (h e List.mem_cons_self) ids), hrest]
    unfold idOptions
    rw [List.filter_cons]
    split
    · rfl
    · rfl

theorem idsOfOptions_eq_mergedIds (hids : IdsAreMapping entries) (hkeys : KeysHaveText entries) :
    idsOfOptions entries = .ok (mergedIds entries) := by
  rw [idsOfOptions_eq, bind_of_eq_ok (coerce_eq_explicitIds hids hkeys)]
  exact foldlM_takeId_eq hkeys.own (explicitIds entries)

/-! ## 2. Ids of options -/

/-- The ids that options come to. Keys stand once each, in the order in which they came up, those of the mapping
first; under a text the mapping counts, and the last of its entries, before the options, and the first of them. -/
structure Merges (entries : List (Value × Value)) (ids : Ids) : Prop where
  isMap : ids.IsMap
  order : ids.map Prod.fst = ((givenIds entries ++ idOptions entries).map fun e => e.1.written).eraseDups
  keys : ∀ key, key ∈ ids.map Prod.fst ↔
    (∃ e ∈ givenIds entries, e.1.written = key) ∨
      ∃ e ∈ entries, Value.equals e.1 (.text "ids") = false ∧ e.1.written = key ∧ Ids.NamesId key
  values : ∀ key, ids.get? key =
    (Ids.paramOf (givenIds entries) key).or (Ids.firstOf (idOptions entries) key)

theorem merges_mergedIds (entries : List (Value × Value)) : Merges entries (mergedIds entries) := by
  have horder : (mergedIds entries).map Prod.fst =
      ((givenIds entries ++ idOptions entries).map fun e => e.1.written).eraseDups := by
    -- Whether an id is put over another or gives way to it, its key comes to stand in the same place.
    have hput : ∀ (ids : Ids) (e : Value × Value),
        (ids.put e.1.written e.2).map Prod.fst = Ids.addKey (ids.map Prod.fst) e.1.written :=
      fun ids e => Ids.keys_put ids e.1.written e.2
    have hputNew : ∀ (ids : Ids) (e : Value × Value),
        (ids.putNew e.1.written e.2).map Prod.fst = Ids.addKey (ids.map Prod.fst) e.1.written :=
      fun ids e => Ids.keys_putNew ids e.1.written e.2
    rw [List.map_append]
    apply Ids.keys_foldl hputNew
    exact Ids.keys_foldl hput (givenIds entries) (List.map_nil.trans List.eraseDups_nil.symm)
  refine ⟨?_, horder, fun key => ?_, fun key => ?_⟩
  · have hexplicit : (explicitIds entries).IsMap :=
      Ids.isMap_foldl (fun ids e h => Ids.isMap_put h e.1.written e.2) _ List.nodup_nil
    exact Ids.isMap_foldl (fun ids e h => Ids.isMap_putNew h e.1.written e.2) _ hexplicit
  · rw [horder, List.mem_eraseDups, List.map_append, List.mem_append, List.mem_map, List.mem_map]
    apply or_congr_right
    constructor
    · rintro ⟨e, he, rfl⟩
      obtain ⟨hmem, hapart, hname⟩ := mem_idOptions.1 he
      exact ⟨e, hmem, hapart, rfl, hname⟩
    · rintro ⟨e, hmem, hapart, rfl, hname⟩
      exact ⟨e, mem_idOptions.2 ⟨hmem, hapart, hname⟩, rfl⟩
  · unfold mergedIds explicitIds
    rw [Ids.get?_foldl_putNew, Ids.get?_foldl_put, Ids.get?_nil, Option.or_none]

/-- Options with a mapping of ids, or none, come to a request whose ids are put together in this way, as long as
their keys can be written out; nothing else keeps them from it. -/
theorem ofOptions_merges (hids : IdsAreMapping entries) :
    (KeysHaveText entries → ∃ ids, Merges entries ids ∧ ofOptions (.dict entries) =
      .ok ⟨option entries "user", namedResource entries, option entries "action", ids⟩) ∧
    (¬ KeysHaveText entries → ∃ d, ofOptions (.dict entries) = .error (.tooDeep d)) := by
  have hdict : ofOptions (.dict entries) = ofEntries entries := rfl
  rw [hdict]
  constructor
  · intro hkeys
    refine ⟨mergedIds entries, merges_mergedIds entries, ?_⟩
    unfold ofEntries
    rw [bind_of_eq_ok (idsOfOptions_eq_mergedIds hids hkeys)]
    rfl
  · intro hkeys
    have hreads := reads_ofEntries entries
    generalize ofEntries entries = result at hreads
    cases hreads with
    | notMapping h => exact absurd hids h
    | unwritten _ _ d => exact ⟨d, rfl⟩
    | request _ h => exact absurd h hkeys

/-- Options in which keys fall together: two entries of the mapping, and two options. -/
def collidingOptions : List (Value × Value) :=
  [(.text "order_id", .int 3),
    (.text "ids", .dict [(.int 7, .text "first"), (.text "id", .null), (.text "7", .text "last")]),
    (.text "id", .int 9), (.textMember "Key" "user_id" "u", .int 1), (.text "Key.user_id", .int 2)]

example : mergedIds collidingOptions =
    [("7", .text "last"), ("id", .null), ("order_id", .int 3), ("Key.user_id", .int 1)] := by
  with_unfolding_all rfl

theorem ofOptions_merges_collidingOptions : IdsAreMapping collidingOptions ∧ KeysHaveText collidingOptions ∧
    ∃ ids, Merges collidingOptions ids ∧ ofOptions (.dict collidingOptions) = .ok ⟨.null, .null, .null, ids⟩ := by
  have hgiven : option collidingOptions "ids" =
      .dict [(.int 7, .text "first"), (.text "id", .null), (.text "7", .text "last")] := by
    with_unfolding_all rfl
  have hids : IdsAreMapping collidingOptions := .inr ⟨_, hgiven⟩
  have hkeys : KeysHaveText collidingOptions := by
    constructor
    · intro ids h e he
      cases hgiven.symm.trans h
      simp only [List.mem_cons, List.not_mem_nil, or_false] at he
      rcases he with rfl | rfl | rfl
      · exact Value.hasText_of_parts_nil rfl rfl
      · exact Value.hasText_text "id"
      · exact Value.hasText_text "7"
    · intro e he _
      simp only [collidingOptions, List.mem_cons, List.not_mem_nil, or_false] at he
      rcases he with rfl | rfl | rfl | rfl | rfl
      · exact Value.hasText_text "order_id"
      · exact Value.hasText_text "ids"
      · exact Value.hasText_text "id"
      · exact Value.hasText_of_parts_nil rfl rfl
      · exact Value.hasText_text "Key.user_id"
  refine ⟨hids, hkeys, ?_⟩
  obtain ⟨ids, hmerges, hrequest⟩ := (ofOptions_merges hids).1 hkeys
  refine ⟨ids, hmerges, hrequest.trans ?_⟩
  with_unfolding_all rfl

/-- Options of a request with a key beside them that is neither that of an id nor has a text. -/
def strayOptions : List (Value × Value) :=
  [(.text "resource", .text "products"), (.text "action", .text "show"), (Engine.buriedKey, .int 7)]

/-- A key without a text keeps options from becoming a request. -/
theorem ofOptions_strayOptions :
    IdsAreMapping strayOptions ∧ ¬ ∃ request, ofOptions (.dict strayOptions) = .ok request := by
  have hapart : ∀ s, Value.equals Engine.buriedKey (.text s) = false := fun s => Value.equals_text _ s
  have hids : IdsAreMapping strayOptions := by
    refine .inl ?_
    unfold option Value.lookup strayOptions
    rw [List.find?_cons, List.find?_cons, List.find?_cons, hapart, Value.equals_text_text, Value.equals_text_text]
    rfl
  refine ⟨hids, ?_⟩
  rintro ⟨request, hrequest⟩
  have hreads : Reads strayOptions (ofOptions (.dict strayOptions)) := reads_ofEntries strayOptions
  rw [hrequest] at hreads
  cases hreads with
  | request _ hkeys =>
    have hmem : (Engine.buriedKey, Value.int 7) ∈ strayOptions := .tail _ (.tail _ (.head _))
    obtain ⟨s, hs⟩ := hkeys.own _ hmem (hapart "ids")
    rw [Engine.written?_buriedKey] at hs
    cases hs

end Request

end Gatehouse
