/-!
Double-precision numbers in exact integer arithmetic: a sign, a mantissa and a power of two, the two
infinities, and NaN. A decimal is rounded to the nearest double, half to the even mantissa; numbers of either
kind, integer or double, are compared by their exact values.
-/

namespace Gatehouse

/-! ## 1. Doubles -/

/-- A double. A finite one is `mantissa * 2 ^ exponent` with `mantissa < 2 ^ 53` and
`-1074 ≤ exponent ≤ 971`, its mantissa as large as that allows. -/
inductive Binary64 where
  | finite (negative : Bool) (mantissa : Nat) (exponent : Int)
  | infinity (negative : Bool)
  | nan
  deriving DecidableEq, Repr

namespace Binary64

/-- `num / den` rounded to the nearest integer, a half to the even one. -/
def roundEven (num den : Nat) : Nat :=
  let q := num / den
  let r := num % den
  if 2 * r < den then q else if den < 2 * r then q + 1 else if q % 2 = 0 then q else q + 1

/-- Two to the power of `k`. -/
def powerOfTwo (k : Nat) : Nat := Nat.pow 2 k

/-- Ten to the power of `k`. -/
def powerOfTen (k : Nat) : Nat := Nat.pow 10 k

/-- The largest `k` with `2 ^ k ≤ num / den`, for positive `num` and `den`. -/
def log2Ratio (num den : Nat) : Int :=
  let k : Int := (num.log2 : Int) - (den.log2 : Int)
  if den * powerOfTwo k.toNat ≤ num * powerOfTwo (-k).toNat then k else k - 1

/-- The double nearest to `num / den`. -/
def ofRatio (negative : Bool) (num den : Nat) : Binary64 :=
  if num = 0 then .finite negative 0 (-1074)
  else
    let exponent : Int := max (-1074) (log2Ratio num den - 52)
    let mantissa := roundEven (num * powerOfTwo (-exponent).toNat) (den * powerOfTwo exponent.toNat)
    let (mantissa, exponent) :=
      if mantissa = powerOfTwo 53 then (powerOfTwo 52, exponent + 1) else (mantissa, exponent)
    if 971 < exponent then .infinity negative else .finite negative mantissa exponent

/-- The double nearest to `digits * 10 ^ power`. -/
def ofDecimal (negative : Bool) (digits : Nat) (power : Int) : Binary64 :=
  ofRatio negative (digits * powerOfTen power.toNat) (powerOfTen (-power).toNat)

def ratio? : Binary64 → Option (Int × Nat)
  | .finite negative mantissa exponent =>
      let magnitude : Int := ((mantissa * powerOfTwo exponent.toNat : Nat) : Int)
      some (if negative then -magnitude else magnitude, powerOfTwo (-exponent).toNat)
  | _ => none

def isZero : Binary64 → Bool
  | .finite _ mantissa _ => mantissa == 0
  | _ => false

end Binary64

/-! ## 2. Numbers of either kind -/

/-- A number as values are compared by it. -/
inductive Number where
  | int (i : Int)
  | real (x : Binary64)
  deriving DecidableEq, Repr

namespace Number

def ratio? : Number → Option (Int × Nat)
  | .int i => some (i, 1)
  | .real x => x.ratio?

/-- Equality of exact values: NaN equals nothing, `0.0` equals `-0.0`, an infinity equals itself. -/
def equals (a b : Number) : Bool :=
  match a.ratio?, b.ratio? with
  | some (n, d), some (m, e) => n * e == m * d
  | none, none =>
      match a, b with
      | .real (.infinity s), .real (.infinity t) => s == t
      | _, _ => false
  | _, _ => false

def isZero : Number → Bool
  | .int i => i == 0
  | .real x => x.isZero

/-- The integer that a number is, if it is one. -/
def whole? (n : Number) : Option Int :=
  match n.ratio? with
  | some (num, den) => if num % (den : Int) = 0 then some (num / den) else none
  | none => none

theorem equals_comm (a b : Number) : a.equals b = b.equals a := by
  unfold equals
  cases ha : a.ratio? <;> cases hb : b.ratio?
  · cases a with
    | int i => simp [ratio?] at ha
    | real x =>
      cases b with
      | int j => simp [ratio?] at hb
      | real y =>
        cases x with
        | infinity s =>
          cases y with
          | infinity t => exact BEq.comm
          | nan => rfl
          | finite => rfl
        | nan => cases y <;> rfl
        | finite => cases y <;> rfl
  · rfl
  · rfl
  · exact BEq.comm

/-- Integers are equal as numbers exactly when they are the same. -/
theorem int_equals_int (i j : Int) : (int i).equals (int j) = decide (i = j) := by
  simp [equals, ratio?, BEq.beq]

/-- NaN equals no number, itself included. -/
theorem nan_equals (a : Number) : (real .nan).equals a = false := by
  cases a with
  | int i => rfl
  | real x => cases x <;> rfl

end Number

end Gatehouse
