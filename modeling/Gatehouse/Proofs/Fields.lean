import Gatehouse.Field
import Gatehouse.Ids

/-!
# Fields — looking up what has been given by name

Of fields under one name the last one counts. Fields are put under their names like ids under their keys, and
fields that are looked up name by name are given as they were looked up.
-/

namespace Gatehouse.Field

theorem put_eq (fields : List (String × Value)) (name : String) (v : Value) :
    put fields name v = Ids.put fields name v := by
  induction fields with
  | nil => rfl
  | cons f rest ih =>
    obtain ⟨n, w⟩ := f
    rw [put, Ids.put, ih]
    by_cases h : n = name <;> simp [h]

theorem given?_cons (f : String × Value) (rest : List (String × Value)) (name : String) :
    given? (f :: rest) name = (given? rest name).or (if f.1 = name then some f.2 else none) := by
  unfold given?
  rw [List.reverse_cons, List.find?_append]
  cases (rest.reverse.find? fun g => g.1 == name) with
  | some g => rfl
  | none =>
    by_cases h : f.1 = name
    · simp [h]
    · simp [h]

theorem given?_isSome_iff {fields : List (String × Value)} {name : String} :
    (given? fields name).isSome = true ↔ name ∈ fields.map Prod.fst := by
  unfold given?
  rw [Option.isSome_map, List.find?_isSome, List.mem_map]
  simp only [List.mem_reverse, beq_iff_eq]

theorem given?_of_not_mem {fields : List (String × Value)} {name : String} (h : name ∉ fields.map Prod.fst) :
    given? fields name = none :=
  Option.not_isSome_iff_eq_none.1 fun hgiven => h (given?_isSome_iff.1 hgiven)

/-- Where each name stands once, it does not matter from which side it is looked for. -/
theorem find?_reverse_of_nodup {entries : List (String × α)} (h : (entries.map Prod.fst).Nodup) (name : String) :
    entries.reverse.find? (fun e => e.1 == name) = entries.find? fun e => e.1 == name := by
  induction entries with
  | nil => rfl
  | cons e rest ih =>
    obtain ⟨hnew, hrest⟩ := List.nodup_cons.1 h
    rw [List.reverse_cons, List.find?_append, ih hrest, List.find?_cons, List.find?_cons]
    by_cases he : e.1 = name
    · have hnone : rest.find? (fun e => e.1 == name) = none := by
        rw [List.find?_eq_none]
        intro f hf heq
        rw [he, ← beq_iff_eq.1 heq] at hnew
        exact hnew (List.mem_map.2 ⟨f, hf, rfl⟩)
      rw [hnone, beq_iff_eq.2 he]
      rfl
    · rw [beq_eq_false_iff_ne.2 he]
      exact Option.or_none

/-- Fields that are looked up name by name are given as they were looked up. -/
theorem given?_filterMap {names : List String} (hnames : names.Nodup) (look : String → Option Value)
    {name : String} (h : name ∈ names) :
    given? (names.filterMap fun n => (look n).map fun v => (n, v)) name = look name := by
  induction names with
  | nil => exact absurd h List.not_mem_nil
  | cons n rest ih =>
    obtain ⟨hn, hrest⟩ := List.nodup_cons.1 hnames
    have hlater : name = n →
        given? (rest.filterMap fun n => (look n).map fun v => (n, v)) name = none := by
      rintro rfl
      apply given?_of_not_mem
      intro hmem
      obtain ⟨f, hf, rfl⟩ := List.mem_map.1 hmem
      obtain ⟨m, hm, hlook⟩ := List.mem_filterMap.1 hf
      obtain ⟨v, -, rfl⟩ := Option.map_eq_some_iff.1 hlook
      exact hn hm
    by_cases heq : name = n
    · subst heq
      cases hlook : look name with
      | none => simp [hlook, hlater rfl]
      | some v => simp [hlook, given?_cons, hlater rfl]
    · have hmem : name ∈ rest := (List.mem_cons.1 h).resolve_left heq
      cases hlook : look n with
      | none => simp [hlook, ih hrest hmem]
      | some v => simp [hlook, given?_cons, ih hrest hmem, Ne.symm heq]

theorem optional_congr {fields fields' : List (String × Value)} {name : String}
    (h : given? fields' name = given? fields name) (default : α) (read : Value → Reading α) :
    optional default read fields' name = optional default read fields name := by
  unfold optional
  rw [h]

end Gatehouse.Field
