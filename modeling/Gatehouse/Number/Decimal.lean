import Gatehouse.Number.Binary64

/-!
Doubles as decimal text. A double is written with the fewest digits that read back as it, the nearest such
decimal among those; reading accepts a sign, digits with an optional fraction, an exponent, and the names of
the values that are not finite.
-/

namespace Gatehouse.Binary64

/-! ## 1. Shortest digits -/

/-- A positive double's surroundings on a decimal grid. The double is `4 * mantissa` units of
`2 ^ (exponent - 2)`; all decimals strictly between `low` and `high` units round to it, the two ends as well
when `ends` holds. -/
structure Surroundings where
  low : Nat
  value : Nat
  high : Nat
  ends : Bool
  exponent : Int

def surroundings (mantissa : Nat) (exponent : Int) : Surroundings where
  low := 4 * mantissa - (if mantissa = powerOfTwo 52 ∧ -1074 < exponent then 1 else 2)
  value := 4 * mantissa
  high := 4 * mantissa + 2
  ends := mantissa % 2 == 0
  exponent := exponent - 2

/-- Factors that bring `d * 10 ^ power` and `c` units to a common measure: the first for `d`, the second for
`c`. -/
def Surroundings.measure (s : Surroundings) (power : Int) : Nat × Nat :=
  (powerOfTen power.toNat * powerOfTwo (-s.exponent).toNat, powerOfTwo s.exponent.toNat * powerOfTen (-power).toNat)

/-- Whether `d * 10 ^ power` rounds to the double. -/
def Surroundings.contains (s : Surroundings) (d : Nat) (power : Int) : Bool :=
  let (forDigits, forUnits) := s.measure power
  let x := d * forDigits
  (s.low * forUnits < x && x < s.high * forUnits) ||
    (s.ends && (x == s.low * forUnits || x == s.high * forUnits))

/-- The decimal with the given power of ten that rounds to the double and is nearest to it. -/
def Surroundings.nearest? (s : Surroundings) (power : Int) : Option Nat :=
  let (forDigits, forUnits) := s.measure power
  let x := s.value * forUnits
  let below := x / forDigits
  match s.contains below power, s.contains (below + 1) power with
  | false, false => none
  | true, false => some below
  | false, true => some (below + 1)
  | true, true =>
      -- Both neighbours round to the double: the nearer one wins, and of a tie the even one.
      let middle := (2 * below + 1) * forDigits
      if 2 * x < middle then some below
      else if middle < 2 * x then some (below + 1)
      else some (if below % 2 = 0 then below else below + 1)

/-- The power of ten of the leading digit of `num / den`. -/
def log10Ratio (num den : Nat) : Int :=
  let guess : Int := (log2Ratio num den * 30103).fdiv 100000
  let reaches (k : Int) : Bool := den * powerOfTen k.toNat ≤ num * powerOfTen (-k).toNat
  if reaches (guess + 1) then guess + 1 else if reaches guess then guess else guess - 1

/-- The first grid, from coarse to fine, that holds a decimal for the double. -/
def Surroundings.firstHit (s : Surroundings) (leading : Int) : List Int → Nat × Int
  | [] => (s.value, 0)
  | places :: more =>
      match s.nearest? (leading - places) with
      | some d => (d, leading - places)
      | none => s.firstHit leading more

/-- Without its trailing zeros, at most `fuel` of them. -/
def trimZeros : (fuel : Nat) → Nat × Int → Nat × Int
  | 0, r => r
  | fuel + 1, (d, power) =>
      if d % 10 = 0 && d != 0 then trimZeros fuel (d / 10, power + 1) else (d, power)

/-- The shortest decimal `d * 10 ^ power` of the positive double `mantissa * 2 ^ exponent`. -/
def shortest (mantissa : Nat) (exponent : Int) : Nat × Int :=
  let s := surroundings mantissa exponent
  let leading := log10Ratio (mantissa * powerOfTwo exponent.toNat) (powerOfTwo (-exponent).toNat)
  trimZeros 17 (s.firstHit leading ((List.range 17).map Int.ofNat))

/-! ## 2. Writing -/

/-- A number is written out in full when its point stands after at most sixteen digits and at most three
zeros follow a leading point. -/
def writtenInFull (point : Int) : Bool := -4 < point && point ≤ 16

/-- An exponent has a sign and at least two digits. -/
def exponentText (e : Int) : String :=
  let digits := toString e.natAbs
  "e" ++ (if e < 0 then "-" else "+") ++ (if digits.length < 2 then "0" ++ digits else digits)

/-- The text of the positive decimal `digits * 10 ^ power`. -/
def decimalText (digits : Nat) (power : Int) : String :=
  let cs := (toString digits).toList
  let point : Int := cs.length + power
  let zeros (n : Int) : List Char := List.replicate n.toNat '0'
  if writtenInFull point then
    if point ≤ 0 then String.ofList ('0' :: '.' :: zeros (-point) ++ cs)
    else if (cs.length : Int) ≤ point then String.ofList (cs ++ zeros power ++ ['.', '0'])
    else String.ofList (cs.take point.toNat ++ '.' :: cs.drop point.toNat)
  else
    let mantissa := match cs with
      | [] => []
      | [c] => [c]
      | c :: more => c :: '.' :: more
    String.ofList mantissa ++ exponentText (point - 1)

def text : Binary64 → String
  | .nan => "nan"
  | .infinity negative => if negative then "-inf" else "inf"
  | .finite negative mantissa exponent =>
      let magnitude :=
        if mantissa = 0 then "0.0"
        else
          let (digits, power) := shortest mantissa exponent
          decimalText digits power
      if negative then "-" ++ magnitude else magnitude

/-! ## 3. Reading -/

def isDigit (c : Char) : Bool := '0' ≤ c && c ≤ '9'

def digitsValue (cs : List Char) : Nat :=
  cs.foldl (fun n c => 10 * n + (c.toNat - 48)) 0

/-- Digits, at least one, with a sign before them or not. -/
def signedDigits? (cs : List Char) : Option Int :=
  let (negative, cs) := match cs with
    | '-' :: rest => (true, rest)
    | '+' :: rest => (false, rest)
    | _ => (false, cs)
  if cs.isEmpty || !cs.all isDigit then none
  else some (if negative then -(digitsValue cs : Int) else digitsValue cs)

/-- The double nearest to an unsigned decimal with an optional fraction and exponent. -/
def ofDecimalText? (negative : Bool) (cs : List Char) : Option Binary64 :=
  let whole := cs.takeWhile isDigit
  let rest := cs.dropWhile isDigit
  let (fraction, rest) := match rest with
    | '.' :: more => (more.takeWhile isDigit, more.dropWhile isDigit)
    | _ => ([], rest)
  if whole.isEmpty && fraction.isEmpty then none
  else
    let build (e : Int) : Binary64 :=
      ofDecimal negative (digitsValue (whole ++ fraction)) (e - fraction.length)
    match rest with
    | [] => some (build 0)
    | 'e' :: more => (signedDigits? more).map build
    | _ => none

def ofText? (s : String) : Option Binary64 :=
  let (negative, cs) := match s.toList with
    | '-' :: rest => (true, rest)
    | cs => (false, cs)
  if cs = ['i', 'n', 'f'] then some (.infinity negative)
  else if cs = ['n', 'a', 'n'] then some .nan
  else ofDecimalText? negative cs

end Gatehouse.Binary64
