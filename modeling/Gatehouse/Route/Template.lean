import Gatehouse.Fault
import Gatehouse.Text.Pieces
import Gatehouse.Number.Decimal

/-!
Path templates. A template is literal characters and parameters in braces, `\x7bname\x7d` or `\x7bname:kind\x7d`; the kind
says which texts a parameter takes and what value it makes of them. Matching tries longer texts first, and a
path may end in one line break that the template does not have.
-/

namespace Gatehouse.Route

inductive Kind where
  | text
  | path
  | integer
  | decimal
  | uuid
  deriving DecidableEq, Repr

inductive Piece where
  | literal (c : Char)
  | parameter (name : String) (kind : Kind)
  deriving DecidableEq, Repr

abbrev Template := List Piece

structure Capture where
  name : String
  kind : Kind
  text : List Char
  deriving DecidableEq, Repr

/-! ## 1. Reading templates -/

def Kind.ofName? (name : String) : Option Kind :=
  if name = "str" then some .text
  else if name = "path" then some .path
  else if name = "int" then some .integer
  else if name = "float" then some .decimal
  else if name = "uuid" then some .uuid
  else none

def isNameHead (c : Char) : Bool := ('a' ≤ c && c ≤ 'z') || ('A' ≤ c && c ≤ 'Z') || c == '_'

def isNameTail (c : Char) : Bool := isNameHead c || ('0' ≤ c && c ≤ '9')

/-- A name at the start of a text, and the rest. -/
def takeName? (cs : List Char) : Option (List Char × List Char) :=
  if cs.head?.any isNameHead then some (cs.takeWhile isNameTail, cs.dropWhile isNameTail) else none

/-- A parameter at the start of a text: its name, the name of its kind, and how many characters it takes. -/
def takeParameter? : List Char → Option (String × String × Nat)
  | '\x7b' :: rest =>
      match takeName? rest with
      | some (name, '\x7d' :: _) => some (String.ofList name, "str", name.length + 2)
      | some (name, ':' :: more) =>
          match takeName? more with
          | some (kind, '\x7d' :: _) =>
              some (String.ofList name, String.ofList kind, name.length + kind.length + 3)
          | _ => none
      | _ => none
  | _ => none

/-- The parts of a template after `skip` characters that belong to the parameter before them; kinds are still
names. -/
def scan : (skip : Nat) → List Char → List (Char ⊕ (String × String))
  | _, [] => []
  | skip + 1, _ :: rest => scan skip rest
  | 0, c :: rest =>
      match takeParameter? (c :: rest) with
      | some (name, kind, length) => .inr (name, kind) :: scan (length - 1) rest
      | none => .inl c :: scan 0 rest

/-- Names that occur more than once, in alphabetical order. -/
def repeatedNames (names : List String) : List String :=
  let repeated := names.filter fun n => 1 < names.count n
  repeated.eraseDups.mergeSort (· ≤ ·)

def pieceOf : Char ⊕ (String × String) → Except Fault Piece
  | .inl c => .ok (.literal c)
  | .inr (name, kind) =>
      match Kind.ofName? kind with
      | some k => .ok (.parameter name k)
      | none => .error (.unknownConvertor kind)

def Piece.name? : Piece → Option String
  | .literal _ => none
  | .parameter name _ => some name

def Template.parse (template : String) : Except Fault Template := do
  let pieces ← (scan 0 template.toList).mapM pieceOf
  let repeated := repeatedNames (pieces.filterMap Piece.name?)
  if !repeated.isEmpty then throw (.badValue (.repeatedParameters repeated template))
  return pieces

/-! ## 2. Matching -/

/-- A way for a parameter to take a beginning of a text: how many characters it takes, and what it leaves. -/
abbrev Reading := Nat × List Char

/-- The ways to take characters that satisfy `p`, at least `least` of them, longest first; `taken` have been taken
before, and `shorter` are the ways to stop earlier. -/
def cuts (p : Char → Bool) (least taken : Nat) (shorter : List Reading) : List Char → List Reading
  | [] => if least ≤ taken then (taken, []) :: shorter else shorter
  | c :: rest =>
      let here := if least ≤ taken then (taken, c :: rest) :: shorter else shorter
      if p c then cuts p least (taken + 1) here rest else here

/-- The ways to take characters that satisfy `p`, at least `least` of them, longest first. -/
def stretches (p : Char → Bool) (least : Nat) (cs : List Char) : List Reading := cuts p least 0 [] cs

/-- The ways to take a decimal: digits, with a point and more digits or without, longest first. -/
def decimals (cs : List Char) : List Reading :=
  (stretches Binary64.isDigit 1 cs).flatMap fun (whole, rest) =>
    (match rest with
      | '.' :: more =>
          (stretches Binary64.isDigit 1 more).map fun (fraction, rest) => (whole + 1 + fraction, rest)
      | _ => []) ++ [(whole, rest)]

def isHexDigit (c : Char) : Bool :=
  ('0' ≤ c && c ≤ '9') || ('a' ≤ c && c ≤ 'f') || ('A' ≤ c && c ≤ 'F')

/-- Takes groups of hexadecimal digits, each but the first behind a dash or directly behind the one before it. -/
def takeHexGroups : (first : Bool) → (sizes : List Nat) → List Char → Option Reading
  | _, [], cs => some (0, cs)
  | first, size :: sizes, cs =>
      let (dash, cs) := match first, cs with
        | false, '-' :: rest => (1, rest)
        | _, cs => (0, cs)
      let group := cs.take size
      if group.length = size && group.all isHexDigit then
        (takeHexGroups false sizes (cs.drop size)).map fun (taken, rest) => (dash + size + taken, rest)
      else none

/-- The sizes of the groups of a UUID. -/
def uuidGroups : List Nat := [8, 4, 4, 4, 12]

/-- The ways for a parameter to take a beginning of a text, in the order in which they are tried. -/
def Kind.readings : Kind → List Char → List Reading
  | .text, cs => stretches (· ≠ '/') 1 cs
  | .path, cs => stretches (· ≠ '\n') 0 cs
  | .integer, cs => stretches Binary64.isDigit 1 cs
  | .decimal, cs => decimals cs
  | .uuid, cs => (takeHexGroups true uuidGroups cs).toList

def Template.captures : Template → List Char → Option (List Capture)
  | [], cs => if cs = [] ∨ cs = ['\n'] then some [] else none
  | .literal _ :: _, [] => none
  | .literal c :: pieces, d :: rest => if c = d then captures pieces rest else none
  | .parameter name kind :: pieces, cs =>
      (kind.readings cs).findSome? fun (taken, rest) =>
        (captures pieces rest).map (⟨name, kind, cs.take taken⟩ :: ·)

/-! ## 3. Values -/

/-- A UUID in lower case with dashes between the groups. -/
def uuidText (written : List Char) : String :=
  let cs := (written.filter (· ≠ '-')).map Char.toLower
  let part (start size : Nat) : String := String.ofList ((cs.drop start).take size)
  String.intercalate "-" [part 0 8, part 8 4, part 12 4, part 16 4, part 20 12]

/-- The longest integer that is read. -/
def digitLimit : Nat := 4300

/-- The value that a parameter makes of what it took. -/
def Capture.value (c : Capture) : Except Fault Value :=
  match c.kind with
  | .text => .ok (.text (String.ofList c.text))
  | .path => .ok (.text (String.ofList c.text))
  | .integer =>
      if digitLimit < c.text.length then .error (.badValue (.tooManyDigits c.text.length))
      else .ok (.int (Binary64.digitsValue c.text))
  | .decimal =>
      match Binary64.ofDecimalText? false c.text with
      | some x => .ok (.float x)
      | none => .error .wrongKind
  | .uuid => .ok (.uuid (uuidText c.text))

/-! ## 4. Facts -/

theorem captures_nil : Template.captures [] [] = some [] := by simp [Template.captures]

theorem eq_drop_of_mem_here {least taken n : Nat} {shorter : List Reading} {cs rest : List Char}
    (h : (n, rest) ∈ if least ≤ taken then (taken, cs) :: shorter else shorter) :
    (n, rest) ∈ shorter ∨ (taken ≤ n ∧ rest = cs.drop (n - taken)) := by
  split at h
  · rcases List.mem_cons.1 h with h | h
    · injection h with hn hrest
      subst hn hrest
      simp
    · exact Or.inl h
  · exact Or.inl h

/-- A way to take characters is one of the shorter ones given, or it leaves the text without what it takes. -/
theorem eq_drop_of_mem_cuts {p : Char → Bool} {least taken n : Nat} {shorter : List Reading}
    {cs rest : List Char} (h : (n, rest) ∈ cuts p least taken shorter cs) :
    (n, rest) ∈ shorter ∨ (taken ≤ n ∧ rest = cs.drop (n - taken)) := by
  induction cs generalizing taken shorter with
  | nil => exact eq_drop_of_mem_here h
  | cons c cs ih =>
    rw [cuts] at h
    split at h
    · rcases ih h with h | ⟨hle, hdrop⟩
      · exact eq_drop_of_mem_here h
      · refine Or.inr ⟨Nat.le_of_succ_le hle, ?_⟩
        rw [hdrop, show n - taken = n - (taken + 1) + 1 by omega, List.drop_succ_cons]
    · exact eq_drop_of_mem_here h

theorem take_append_of_mem_stretches {p : Char → Bool} {least n : Nat} {cs rest : List Char}
    (h : (n, rest) ∈ stretches p least cs) : cs.take n ++ rest = cs := by
  rcases eq_drop_of_mem_cuts h with h | ⟨-, rfl⟩
  · cases h
  · simp

theorem scan_literal {c : Char} (rest : List Char) (h : c ≠ '\x7b') :
    scan 0 (c :: rest) = .inl c :: scan 0 rest := by
  rw [scan]
  have : takeParameter? (c :: rest) = none := by
    unfold takeParameter?
    split
    · rename_i heq
      injection heq with heq _
      exact absurd heq h
    · rfl
  rw [this]

end Gatehouse.Route
