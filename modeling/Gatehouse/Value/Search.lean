import Gatehouse.Fault
import Gatehouse.Value.Equality

/-!
Looking for something in a value: going through its items up to the first one that fits, asking whether it contains a
name, and what stands under a name. What can be gone through once is used up by looking.
-/

namespace Gatehouse.Value

/-! ## 1. Items -/

/-- A value of whose items these are left. -/
def leaving (v : Value) (left : List Value) : Value :=
  match v with
  | .once _ broken => .once left broken
  | v => v

/-- Searches a value from these items on: whether one satisfies `p`, and what is left of the value. -/
def searchFrom (p : Value → Except Fault Bool) (v : Value) : (items : List Value) → Except Fault Bool × Value
  | [] => (v.finish.map fun _ => false, v.spent)
  | item :: rest =>
      match p item with
      | .ok false => searchFrom p v rest
      | answer => (answer, v.leaving rest)

/-- The items that a value yields; a text yields its characters. -/
def letters (v : Value) : Except Fault (List Value) :=
  match v.text?, v.items? with
  | some s, _ => .ok (s.toList.map fun c => .text (String.singleton c))
  | none, some items => .ok items
  | none, none => .error .wrongKind

/-! ## 2. Names -/

def occurs (word : List Char) : List Char → Bool
  | [] => word.isEmpty
  | c :: cs => word.isPrefixOf (c :: cs) || occurs word cs

/-- Whether a value contains a name, if it can contain any: a text in its characters, everything else as an item. -/
def contains (name : String) (v : Value) : Except Fault Bool × Value :=
  match v, v.text?, v.items? with
  | v, some s, _ => (.ok (occurs name.toList s.toList), v)
  | .bytes _, _, _ => (.error .wrongKind, v)
  | v, none, some items => searchFrom (fun item => .ok (equals item (.text name))) v items
  | v, none, none => (.error .wrongKind, v)

/-- What stands under a name; only in a mapping something does. -/
def under (name : String) (v : Value) : Except Fault Value :=
  match v with
  | .dict entries =>
      match lookup (.text name) entries with
      | some v => .ok v
      | none => .error .noAttribute
  | _ => .error .wrongKind

/-! ## 3. Facts -/

/-- What can be gone through again is not used up. -/
theorem spent_eq_self {v : Value} (h : ∀ items broken, v ≠ .once items broken) : v.spent = v := by
  cases v with
  | once items broken => exact absurd rfl (h items broken)
  | _ => rfl

/-- An item that fits ends the search, and the items behind it are left. -/
theorem searchFrom_of_fits {p : Value → Except Fault Bool} {v item : Value} (rest : List Value) (h : p item = .ok true) :
    searchFrom p v (item :: rest) = (.ok true, v.leaving rest) := by
  simp [searchFrom, h]

end Gatehouse.Value
