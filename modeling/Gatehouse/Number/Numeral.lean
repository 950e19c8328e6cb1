import Gatehouse.Number.Decimal
import Gatehouse.Text.Blank
import Gatehouse.Text.Pieces

/-!
Integers as people write them: white space around, a sign, zeros at the start, underscores between digits, and a
fraction that consists of zeros. A minus sign may also stand behind zeros at the start. Numerals beyond a limit of
length are not read.
-/

namespace Gatehouse.Numeral

open Binary64 (isDigit digitsValue)

inductive Refusal where
  | malformed
  | tooLong
  deriving DecidableEq, Repr

/-- The largest number of digits that is read. -/
def limit : Nat := 4300

/-! ## 1. What counts for nothing -/

/-- What follows a zero, which is given, at the start: further zeros and underscores are skipped, but the last one
of them stays when neither another digit nor a minus sign follows. -/
def afterZero? (previous : Char) : List Char → Option (List Char)
  | [] => some [previous]
  | '.' :: rest => some (previous :: '.' :: rest)
  | c :: rest =>
      if c == '0' || c == '_' then afterZero? c rest
      else if isDigit c || c == '-' then some (c :: rest)
      else none

/-- A numeral, which begins with a digit, without the zeros at its start. -/
def withoutZeros? : List Char → Option (List Char)
  | [] => none
  | '0' :: rest => afterZero? '0' rest
  | c :: rest => if isDigit c then some (c :: rest) else none

/-- A numeral without a fraction of zeros, at least one of them. -/
def withoutFraction (cs : List Char) : List Char :=
  match Text.cut '.' cs with
  | (whole, some zeros) => if !zeros.isEmpty && zeros.all (· == '0') then whole else cs
  | (_, none) => cs

/-- A text without the underscores in it; each underscore has another character on either side. -/
def ungrouped? : List Char → Option (List Char)
  | [] => some []
  | '_' :: _ => none
  | c :: '_' :: d :: rest => if d = '_' then none else (ungrouped? (d :: rest)).map (c :: ·)
  | c :: rest => (ungrouped? rest).map (c :: ·)

/-! ## 2. Reading -/

/-- Whether a text begins with a minus sign, and the text without it. -/
def splitMinus : List Char → Bool × List Char
  | '-' :: rest => (true, rest)
  | cs => (false, cs)

/-- Whether a text has a minus sign, and the text without its sign. -/
def splitSign : List Char → Bool × List Char
  | '+' :: rest => (false, rest)
  | cs => splitMinus cs

def isReduced (digits : List Char) : Bool := digits.all isDigit && (digits.head? != some '0' || digits == ['0'])

/-- The digits of a numeral without a sign in front, and whether a minus sign stands behind its zeros. -/
def digits? (cs : List Char) : Option (Bool × List Char) := do
  let (negative, digits) := splitMinus (← ungrouped? (withoutFraction (← withoutZeros? cs)))
  if digits.isEmpty || !isReduced digits then none else some (negative, digits)

/-- How many digits stand at the start of a text that needs no cleaning: no zero first, behind a minus sign or
nothing. -/
def plainLength (cs : List Char) : Nat :=
  let digits := (splitMinus cs).2
  if digits.head? == some '0' then 0 else digits.length - (digits.dropWhile isDigit).length

/-- The integer that a text spells. A numeral beyond the limit is too long if it stands at the very start of the text,
and malformed where something would have to be cleaned away before it. -/
def read (s : String) : Except Refusal Int :=
  if limit < plainLength s.toList then .error .tooLong
  else
    let (negative, cs) := splitSign (Text.trimmed s.toList)
    match digits? cs with
    | some (inner, digits) =>
        if limit < digits.length || (negative && inner) then .error .malformed
        else .ok (if negative || inner then -(digitsValue digits : Int) else digitsValue digits)
    | none => .error .malformed

/-! ## 3. Facts -/

/-- The digits that are read are digits, and there are some. -/
theorem all_isDigit_of_digits? {cs digits : List Char} {negative : Bool}
    (h : digits? cs = some (negative, digits)) : digits ≠ [] ∧ ∀ c ∈ digits, isDigit c = true := by
  unfold digits? at h
  simp only [bind, Option.bind_eq_some_iff] at h
  obtain ⟨stripped, -, ungrouped, -, h⟩ := h
  split at h
  · simp at h
  · rename_i hd
    simp only [Option.some.injEq, Prod.mk.injEq] at h
    obtain ⟨-, rfl⟩ := h
    simp only [Bool.or_eq_true, Bool.not_eq_true', isReduced, not_or, Bool.not_eq_false,
      Bool.and_eq_true, List.all_eq_true] at hd
    exact ⟨by simpa using hd.1, hd.2.1⟩

end Gatehouse.Numeral
