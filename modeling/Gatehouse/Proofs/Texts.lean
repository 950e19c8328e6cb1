import Gatehouse.Fault

/-!
# Texts — values that can be written out

Keys, roles and names are written out before they are compared or looked up. A value that shows no others inside
it always can be; one that does may go too deep for that.
-/

namespace Gatehouse.Value

variable {v : Value}

/-! ## 1. Values with a text -/

/-- A value that has a plain form. -/
def HasText (v : Value) : Prop := ∃ s, v.written? = .ok s

theorem hasText_text (s : String) : (text s).HasText := ⟨s, written?_text s⟩

theorem written?_of_parts_nil (hparts : v.parts = []) (hweight : v.weight = 1) : v.written? = .ok v.written := by
  have hnone : v.writtenOverflow? formRoom = none := by
    unfold writtenOverflow?
    split
    · rfl
    · exact overflow?_of_parts_nil hparts (by rw [hweight]; decide)
  simp only [written?, writtenIn?, hnone]

theorem hasText_of_parts_nil (hparts : v.parts = []) (hweight : v.weight = 1) : v.HasText :=
  ⟨v.written, written?_of_parts_nil hparts hweight⟩

/-- What is inside of more lists than there is room for has no form. -/
theorem overflow?_nested {room depth : Nat} (h : room ≤ depth) : (v.nested depth).overflow? room = some .forms := by
  induction room generalizing depth with
  | zero => rw [overflow?, if_pos rfl]
  | succ room ih =>
    obtain ⟨depth, rfl⟩ := Nat.exists_eq_succ_of_ne_zero (Nat.ne_of_gt (Nat.lt_of_lt_of_le room.succ_pos h))
    have hinside := ih (Nat.le_of_succ_le_succ h)
    have hweight : (v.nested (depth + 1)).weight = 1 := rfl
    have hparts : (v.nested (depth + 1)).parts = [v.nested depth] := rfl
    rw [overflow?, if_neg (Nat.succ_ne_zero room), hweight, if_neg (by omega), hparts, List.findSome?_cons,
      Nat.add_sub_cancel, hinside]

/-- A value has a form if it has room of its own, and its parts have forms in what is left of it. -/
theorem overflow?_eq_none {room : Nat} (hweight : v.weight ≤ room)
    (hparts : ∀ part ∈ v.parts, part.overflow? (room - v.weight) = none) : v.overflow? room = none := by
  have hpos := v.weight_pos
  rw [overflow?, if_neg (by omega), if_neg (by omega)]
  exact List.findSome?_eq_none_iff.2 hparts

/-- What goes too deep does so inside of others, too. -/
theorem isSome_overflow?_of_mem_parts {part : Value} {room : Nat} (hpart : part ∈ v.parts)
    (h : (part.overflow? (room - v.weight)).isSome) : (v.overflow? room).isSome := by
  rw [overflow?]
  split
  · rfl
  · split
    · rfl
    · exact List.findSome?_isSome_iff.2 ⟨part, hpart, h⟩

theorem HasText.written?_eq (h : v.HasText) : v.written? = .ok v.written := by
  obtain ⟨s, hs⟩ := h
  unfold written? writtenIn? at hs ⊢
  cases hoverflow : v.writtenOverflow? formRoom with
  | none => rfl
  | some d =>
    rw [hoverflow] at hs
    cases hs

/-- There is no other reason for a value to have no text. -/
theorem exists_of_not_hasText (h : ¬ v.HasText) : ∃ d, v.written? = .error (.tooDeep d) := by
  unfold HasText at h
  cases hoverflow : v.writtenOverflow? formRoom with
  | some d => exact ⟨d, by simp only [written?, writtenIn?, hoverflow]⟩
  | none => exact absurd ⟨v.written, by simp only [written?, writtenIn?, hoverflow]⟩ h

/-! ## 2. Values that are texts -/

/-- A text that is not empty. -/
def IsName (v : Value) : Prop := ∃ s, v.text? = some s ∧ s ≠ ""

theorem IsName.truthy (h : v.IsName) : v.truthy = true := by
  obtain ⟨s, htext, hne⟩ := h
  have hs : (s != "") = true := bne_iff_ne.2 hne
  cases v with
  | text => cases htext; exact hs
  | action => cases htext; exact hs
  | textMember => cases htext; exact hs
  | all => rfl
  | _ => cases htext

theorem IsName.written? (h : v.IsName) : v.written? = .ok v.written := by
  obtain ⟨s, htext, -⟩ := h
  cases v with
  | text => exact written?_of_parts_nil rfl rfl
  | action => exact written?_of_parts_nil rfl rfl
  | textMember => exact written?_of_parts_nil rfl rfl
  | all => exact written?_of_parts_nil rfl rfl
  | _ => cases htext

end Gatehouse.Value
