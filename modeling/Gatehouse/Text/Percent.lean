import Gatehouse.Text.Hex
import Gatehouse.Text.Utf8

/-!
Percent escapes. In every run of ASCII characters the escapes give bytes that are read as UTF-8 together
with the characters between them; characters outside ASCII stay as they are and separate the runs.
-/

namespace Gatehouse.Text

/-- The bytes of an ASCII run; a `%` that two hexadecimal digits do not follow is an ordinary character. -/
def runBytes : List Char → List Nat
  | [] => []
  | '%' :: a :: b :: rest =>
      match hexValue? a, hexValue? b with
      | some high, some low => (high * 16 + low) :: runBytes rest
      | _, _ => '%'.toNat :: runBytes (a :: b :: rest)
  | c :: rest => c.toNat :: runBytes rest

/-- Decoding with the current ASCII run kept aside, last character first. -/
def unescapeAfter (run : List Char) : List Char → List Char
  | [] => readUtf8 (runBytes run.reverse)
  | c :: rest =>
      if c.toNat < 0x80 then unescapeAfter (c :: run) rest
      else readUtf8 (runBytes run.reverse) ++ c :: unescapeAfter [] rest

def unescape (cs : List Char) : List Char := unescapeAfter [] cs

/-- A text of a form field: `+` is a space, and percent escapes are resolved after that. -/
def unescapeField (cs : List Char) : List Char :=
  unescape (cs.map fun c => if c = '+' then ' ' else c)

end Gatehouse.Text
