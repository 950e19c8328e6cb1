import Gatehouse.Fault

/-!
Documents that answers are sent as, in JSON: null, truth values, finite numbers, texts, lists, and objects with
textual keys. Most values have a document; a value whose kind a document does not know has none.
-/

namespace Gatehouse

inductive Document where
  | null
  | bool (b : Bool)
  | int (i : Int)
  | real (x : Binary64)
  | text (s : String)
  | list (items : List Document)
  | object (entries : List (String × Document))
  deriving Inhabited, Repr

namespace Document

/-! ## 1. Documents of values -/

/-- A double as it stands in a document: it has to be finite. -/
def finite (x : Binary64) : Except Fault Binary64 :=
  match x with
  | .finite _ _ _ => .ok x
  | _ => .error (.badValue .notFinite)

/-- The document of a value without parts: its text, or its number. -/
def ofScalar (v : Value) : Except Fault Document :=
  match v.text?, v with
  | some s, _ => .ok (.text s)
  | none, .null => .ok .null
  | none, .bool b => .ok (.bool b)
  | none, .int i => .ok (.int i)
  | none, .intMember _ _ i => .ok (.int i)
  | none, .float x => (finite x).map .real
  | none, _ => .error .wrongKind

def keyOf (key : Value) : Except Fault String := do
  match ← ofScalar key with
  | .null => return "null"
  | .bool b => return if b then "true" else "false"
  | .int i => return toString i
  | .real x => return x.text
  | .text s => return s
  | _ => throw .wrongKind

mutual

/-- The document of a value, with at most so many levels of collections. -/
def ofValueIn : (levels : Nat) → Value → Except Fault Document
  | 0, v => if v.isCollection then .error (.tooDeep .documents) else ofScalar v
  | levels + 1, .list xs => do return .list (← ofValuesIn levels xs)
  | levels + 1, .tuple xs => do return .list (← ofValuesIn levels xs)
  | levels + 1, .dict entries => do return .object (← ofEntriesIn levels entries)
  | _, v => ofScalar v

def ofValuesIn : (levels : Nat) → List Value → Except Fault (List Document)
  | _, [] => .ok []
  | levels, x :: xs => do return (← ofValueIn levels x) :: (← ofValuesIn levels xs)

def ofEntriesIn : (levels : Nat) → List (Value × Value) → Except Fault (List (String × Document))
  | _, [] => .ok []
  | levels, (k, v) :: rest => do return (← keyOf k, ← ofValueIn levels v) :: (← ofEntriesIn levels rest)

end

def ofValue (v : Value) : Except Fault Document := ofValueIn Value.formRoom v

mutual

def isWithin : (levels : Nat) → Document → Bool
  | 0, _ => false
  | levels + 1, .list items => areWithin levels items
  | levels + 1, .object entries => entriesWithin levels entries
  | _, _ => true

def areWithin : (levels : Nat) → List Document → Bool
  | _, [] => true
  | levels, x :: xs => isWithin levels x && areWithin levels xs

def entriesWithin : (levels : Nat) → List (String × Document) → Bool
  | _, [] => true
  | levels, (_, d) :: rest => isWithin levels d && entriesWithin levels rest

end

/-! ## 2. Documents as text -/

def escaped (c : Char) : List Char :=
  if c = '"' || c = '\\' then ['\\', c]
  else if c.toNat < 0x20 then '\\' :: 'u' :: Text.hexDigits 4 c.toNat
  else [c]

def quoted (s : String) : String := String.ofList ('"' :: s.toList.flatMap escaped ++ ['"'])

mutual

/-- A document as it is written, without blanks. -/
def written : Document → String
  | .null => "null"
  | .bool b => if b then "true" else "false"
  | .int i => toString i
  | .real x => x.text
  | .text s => quoted s
  | .list xs => "[" ++ String.intercalate "," (writtenAll xs) ++ "]"
  | .object entries => "\x7b" ++ String.intercalate "," (writtenEntries entries) ++ "\x7d"

def writtenAll : List Document → List String
  | [] => []
  | x :: xs => x.written :: writtenAll xs

def writtenEntries : List (String × Document) → List String
  | [] => []
  | (k, v) :: rest => (quoted k ++ ":" ++ v.written) :: writtenEntries rest

end

/-! ## 3. Facts -/

/-- Characters that need no escape are written as they are. -/
theorem flatMap_escaped_of_plain {cs : List Char}
    (h : ∀ c ∈ cs, c ≠ '"' ∧ c ≠ '\\' ∧ 0x20 ≤ c.toNat) : cs.flatMap escaped = cs := by
  induction cs with
  | nil => rfl
  | cons c rest ih =>
    obtain ⟨hquote, hslash, hcontrol⟩ := h c List.mem_cons_self
    have hc : escaped c = [c] := by simp [escaped, hquote, hslash, Nat.not_lt.2 hcontrol]
    rw [List.flatMap_cons, hc, ih fun d hd => h d (List.mem_cons_of_mem _ hd)]
    rfl

theorem ofValue_text (s : String) : ofValue (.text s) = .ok (.text s) := by
  simp [ofValue, ofValueIn, Value.formRoom, ofScalar]

end Document

end Gatehouse
