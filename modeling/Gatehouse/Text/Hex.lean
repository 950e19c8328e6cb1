/-!
Hexadecimal digits: of a number, in a fixed width, and of bytes, two for each. Reading the digits of bytes gives the
bytes back. Numbers that differ from run to run can be hidden.
-/

namespace Gatehouse.Text

/-! ## 1. Writing -/

/-- The digit of `n < 16`, in lower case. -/
def hexDigit (n : Nat) : Char :=
  if n < 10 then Char.ofNat (48 + n) else Char.ofNat (87 + n)

/-- The last `width` hexadecimal digits of `n`. -/
def hexDigits : (width n : Nat) → List Char
  | 0, _ => []
  | width + 1, n => hexDigits width (n / 16) ++ [hexDigit (n % 16)]

def hexOfBytes (bs : List UInt8) : List Char := bs.flatMap fun b => hexDigits 2 b.toNat

/-! ## 2. Reading -/

def hexValue? (c : Char) : Option Nat :=
  if '0' ≤ c ∧ c ≤ '9' then some (c.toNat - 48)
  else if 'a' ≤ c ∧ c ≤ 'f' then some (c.toNat - 87)
  else if 'A' ≤ c ∧ c ≤ 'F' then some (c.toNat - 55)
  else none

/-- The bytes that digits stand for, two for each; the rest is not read where there are no two digits. -/
def hexBytes : List Char → List UInt8
  | a :: b :: rest =>
      match hexValue? a, hexValue? b with
      | some high, some low => UInt8.ofNat (16 * high + low) :: hexBytes rest
      | _, _ => []
  | _ => []

/-! ## 3. Hiding -/

/-- A text in which `mark` stands for each `word` and the lower-case digits between it and a closing parenthesis, so
that texts of different runs compare. -/
def hideNumbers (word mark s : String) : String :=
  match s.splitOn word with
  | [] => s
  | first :: rest =>
      first ++ String.join (rest.map fun piece =>
        let cs := piece.toList
        let after := cs.dropWhile fun c => c.isDigit || ('a' ≤ c && c ≤ 'f')
        if after.head? == some ')' && after.length < cs.length then mark ++ String.ofList after
        else word ++ piece)

/-! ## 4. Facts -/

theorem length_hexDigits (width n : Nat) : (hexDigits width n).length = width := by
  induction width generalizing n with
  | zero => rfl
  | succ width ih => simp [hexDigits, ih]

theorem hexValue?_hexDigit {n : Nat} (h : n < 16) : hexValue? (hexDigit n) = some n := by
  have all : ∀ i : Fin 16, hexValue? (hexDigit i.val) = some i.val := by decide
  exact all ⟨n, h⟩

theorem hexBytes_hexOfBytes (bs : List UInt8) : hexBytes (hexOfBytes bs) = bs := by
  induction bs with
  | nil => rfl
  | cons b rest ih =>
    have high : b.toNat / 16 < 16 := by have := b.toNat_lt; omega
    have low : b.toNat % 16 < 16 := by omega
    have whole : 16 * (b.toNat / 16) + b.toNat % 16 = b.toNat := by omega
    have step : hexOfBytes (b :: rest) =
        hexDigit (b.toNat / 16) :: hexDigit (b.toNat % 16) :: hexOfBytes rest := by
      simp [hexOfBytes, hexDigits, Nat.mod_eq_of_lt high]
    simp [step, hexBytes, hexValue?_hexDigit high, hexValue?_hexDigit low, whole, ih]

end Gatehouse.Text
