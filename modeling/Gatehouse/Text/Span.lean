/-!
Sets of characters given by their borders: the list of code points, ascending, at which membership
changes. Every character table of the library has this form.
-/

namespace Gatehouse.Text

/-- Whether `n` lies in the set whose membership changes at each of the ascending `borders`. -/
def inSpans : (borders : List Nat) → (n : Nat) → Bool
  | [], _ => false
  | b :: borders, n => if n < b then false else !inSpans borders n

@[simp] theorem inSpans_nil (n : Nat) : inSpans [] n = false := rfl

theorem inSpans_of_lt {b n : Nat} (borders : List Nat) (h : n < b) :
    inSpans (b :: borders) n = false := by
  simp [inSpans, h]

end Gatehouse.Text
