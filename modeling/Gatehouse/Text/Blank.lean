/-!
Blank characters and the removal of blanks around a text. The set is Unicode's white space together
with the four separators U+001C to U+001F; numerals are freed of white space alone.
-/

namespace Gatehouse.Text

/-- Whether a character counts as blank. -/
def isBlank (c : Char) : Bool :=
  let n := c.toNat
  (0x9 ≤ n && n ≤ 0xd) || (0x1c ≤ n && n ≤ 0x20) || n == 0x85 || n == 0xa0 || n == 0x1680 ||
    (0x2000 ≤ n && n ≤ 0x200a) || n == 0x2028 || n == 0x2029 || n == 0x202f || n == 0x205f ||
    n == 0x3000

/-- A text without the characters at its end that satisfy `p`. -/
def dropEndWhile (p : Char → Bool) (cs : List Char) : List Char :=
  (cs.reverse.dropWhile p).reverse

def stripped (cs : List Char) : List Char :=
  dropEndWhile isBlank (cs.dropWhile isBlank)

def strip (s : String) : String :=
  String.ofList (stripped s.toList)

/-- Whether a character is white space: a blank that is none of the four separators. -/
def isSpace (c : Char) : Bool := isBlank c && !(0x1c ≤ c.toNat && c.toNat ≤ 0x1f)

def trimmed (cs : List Char) : List Char := dropEndWhile isSpace (cs.dropWhile isSpace)

theorem isBlank_of_isWhitespace {c : Char} (h : c.isWhitespace = true) : isBlank c = true := by
  simp only [Char.isWhitespace, Bool.or_eq_true, decide_eq_true_eq] at h
  rcases h with ((h | h) | h) | h <;> subst h <;> decide

theorem dropEndWhile_eq_self {p : Char → Bool} {cs : List Char} (h : ∀ c ∈ cs, p c = false) :
    dropEndWhile p cs = cs := by
  unfold dropEndWhile
  cases hr : cs.reverse with
  | nil => simpa using congrArg List.reverse hr
  | cons c rest =>
    have hc : p c = false := h c (by rw [← List.mem_reverse, hr]; exact List.mem_cons_self)
    rw [List.dropWhile_cons_of_neg (by simp [hc]), ← hr, List.reverse_reverse]

theorem stripped_eq_self {cs : List Char} (h : ∀ c ∈ cs, isBlank c = false) : stripped cs = cs := by
  have hd : cs.dropWhile isBlank = cs := by
    cases cs with
    | nil => rfl
    | cons c rest => rw [List.dropWhile_cons_of_neg (by simp [h c List.mem_cons_self])]
  rw [stripped, hd, dropEndWhile_eq_self h]

end Gatehouse.Text
