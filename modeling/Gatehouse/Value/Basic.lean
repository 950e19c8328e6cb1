import Gatehouse.Issue
import Gatehouse.Number.Decimal

/-!
Values that callers hand in: roles, object ids, option mappings, request parameters, principals. Rules compare
them, ask for their truth and show them in messages, so they keep the distinctions that those depend on: a
text, a text that is already an action, and a named member of a group whose value is a text are three things.
-/

namespace Gatehouse

inductive Value where
  | null
  | bool (b : Bool)
  | int (i : Int)
  | float (x : Binary64)
  | text (s : String)
  | bytes (bs : List UInt8)
  | list (xs : List Value)
  | tuple (xs : List Value)
  | set (xs : List Value)
  | dict (entries : List (Value × Value))
  /-- A sequence that can be gone through once; nothing is left in it afterwards. Behind its items it may break off. -/
  | once (xs : List Value) (broken : Option Break)
  /-- The sentinel for every role and every action. -/
  | all
  /-- The name of an action, in the form that rules are kept under. -/
  | action (name : String)
  /-- A member of a group of names, equal to itself only. The name of the group stands for the group: members with the
  same names are one if they are declared in the same form, even if two groups have one name. -/
  | member (group name : String) (value : Value) (form : String)
  /-- A member of a group of names that is a text as well. -/
  | textMember (group name value : String)
  /-- A member of a group of names that is an integer as well. -/
  | intMember (group name : String) (value : Int)
  | uuid (digits : String)
  /-- An object that has an identity and nothing else. Each occurrence is another object, so an object that occurs in two
  places is no value. -/
  | token (label : String)
  /-- Somebody who asks for access; without a description when giving one fails. -/
  | principal (id role : Value) (description : Option Value)
  /-- A principal of the stock kind. -/
  | account (id role login name : Value)
  /-- A request for access: who, on what, which action, with which object ids. -/
  | request (user resource action : Value) (ids : List (String × Value))
  deriving Inhabited, Repr

namespace Value

/-! ## 1. Views -/

/-- The name of a value's kind, as messages give it. -/
def kind : Value → String
  | .null => "NoneType"
  | .bool _ => "bool"
  | .int _ => "int"
  | .float _ => "float"
  | .text _ => "str"
  | .bytes _ => "bytes"
  | .list _ => "list"
  | .tuple _ => "tuple"
  | .set _ => "set"
  | .dict _ => "dict"
  | .once _ _ => "generator"
  | .all => "Wildcard"
  | .action _ => "ActionName"
  | .member group _ _ _ => group
  | .textMember group _ _ => group
  | .intMember group _ _ => group
  | .uuid _ => "UUID"
  | .token _ => "Opaque"
  | .principal _ _ _ => "User"
  | .account _ _ _ _ => "AuthenticatedUser"
  | .request _ _ _ _ => "RequestContext"

/-- The text that a value is, for those that are one. -/
def text? : Value → Option String
  | .text s => some s
  | .action s => some s
  | .textMember _ _ s => some s
  | .all => some "all"
  | _ => none

/-- A text that may be missing, as a value. -/
def ofText? : Option String → Value
  | some s => .text s
  | none => .null

/-- The number that a value is, for those that are one. -/
def number? : Value → Option Number
  | .bool b => some (.int (if b then 1 else 0))
  | .int i => some (.int i)
  | .intMember _ _ i => some (.int i)
  | .float x => some (.real x)
  | _ => none

/-- Whether a value is a member of a group of names. -/
def isMember : Value → Bool
  | .all => true
  | .member _ _ _ _ => true
  | .textMember _ _ _ => true
  | .intMember _ _ _ => true
  | _ => false

/-- A member's value; any other value itself. -/
def unwrapped : Value → Value
  | .all => .text "all"
  | .member _ _ value _ => value
  | .textMember _ _ s => .text s
  | .intMember _ _ i => .int i
  | v => v

/-- What a value yields when it is gone through, unless it cannot be. Texts can be as well, one character
after the other, but no caller does that. -/
def items? : Value → Option (List Value)
  | .bytes bs => some (bs.map fun b => .int b.toNat)
  | .list xs => some xs
  | .tuple xs => some xs
  | .set xs => some xs
  | .dict entries => some (entries.map Prod.fst)
  | .once xs _ => some xs
  | .account id role login name =>
      some [.tuple [.text "id", id], .tuple [.text "role", role],
        .tuple [.text "login", login], .tuple [.text "name", name]]
  | .request user resource act ids =>
      some [.tuple [.text "user", user], .tuple [.text "resource", resource],
        .tuple [.text "action", act],
        .tuple [.text "ids", .dict (ids.map fun (k, v) => (.text k, v))]]
  | _ => none

/-- Why going through a value fails behind its items, if it does. -/
def break? : Value → Option Break
  | .once _ broken => broken
  | _ => none

/-- What is left of a value after it has been gone through. -/
def spent : Value → Value
  | .once _ _ => .once [] none
  | v => v

/-- Whether a value is a list, a tuple or a mapping. -/
def isCollection : Value → Bool
  | .list _ => true
  | .tuple _ => true
  | .dict _ => true
  | _ => false

/-- Whether a value has a length: texts, bytes and collections. -/
def hasLength : Value → Bool
  | .bytes _ => true
  | .list _ => true
  | .tuple _ => true
  | .set _ => true
  | .dict _ => true
  | v => v.text?.isSome

/-- The values that the form of a value shows inside it. -/
def parts : Value → List Value
  | .list xs => xs
  | .tuple xs => xs
  | .set xs => xs
  | .dict entries => entries.flatMap fun (k, v) => [k, v]
  | .member _ _ value _ => [value]
  | .principal id _ _ => [id]
  | .account id role login name => [id, role, login, name]
  | .request user resource act ids => user :: resource :: act :: ids.map Prod.snd
  | _ => []

/-- The room that the form of a value takes besides those of its parts: a level of brackets takes one, an object that
gives its own form takes more. -/
def weight : Value → Nat
  | .member _ _ _ _ => 3
  | .principal _ _ _ => 3
  | .account _ _ _ _ => 5
  | .request _ _ _ _ => 5
  | _ => 1

theorem weight_pos (v : Value) : 0 < v.weight := by cases v <;> simp [weight]

/-- What the form of a value cannot be made for, in a room of this size. -/
def overflow? (room : Nat) (v : Value) : Option Depth :=
  if room = 0 then some .forms
  else if room < v.weight then some .calls
  else v.parts.findSome? (overflow? (room - v.weight))
  termination_by room
  decreasing_by exact Nat.sub_lt (by omega) (weight_pos _)

/-- The room for the form of a value: what the stack of the runtime that was measured has room for, with little on it
already. Another runtime, or a deeper call, has another room. -/
def formRoom : Nat := 970

/-- The truth of a value: empty, zero and null are false, all else is true. -/
def truthy : Value → Bool
  | .null => false
  | .bool b => b
  | .int i => i != 0
  | .intMember _ _ i => i != 0
  | .float x => !x.isZero
  | .text s => s != ""
  | .action s => s != ""
  | .textMember _ _ s => s != ""
  | .bytes bs => !bs.isEmpty
  | .list xs => !xs.isEmpty
  | .tuple xs => !xs.isEmpty
  | .set xs => !xs.isEmpty
  | .dict entries => !entries.isEmpty
  | _ => true

/-- The name that a member of a group is declared under. -/
def memberName? : Value → Option String
  | .member _ name _ _ => some name
  | .textMember _ name _ => some name
  | .intMember _ name _ => some name
  | _ => none

/-- Whether a value is a member of this name. Asked for something of its own name, a member gives itself, whatever
else it would have given. -/
def isNamed (v : Value) (name : String) : Bool := v.memberName? == some name

/-- Whether a text hides what strips it. Only the name of the member itself counts: members of a group in which another
one has this name are left out, because a member does not know the group around it. -/
def hidesStripping (v : Value) : Bool := v.text?.isSome && v.isNamed "strip"

def role? : Value → Option Value
  | .principal _ role _ => some role
  | .account _ role _ _ => some role
  | v => if v.isNamed "role" then some v else none

def id? : Value → Option Value
  | .principal id _ _ => some id
  | .account id _ _ _ => some id
  | v => if v.isNamed "id" then some v else none

/-- A value inside of `depth` lists of one item. -/
def nested (v : Value) : (depth : Nat) → Value
  | 0 => v
  | depth + 1 => .list [v.nested depth]

/-! ## 2. Facts about the views -/

@[simp] theorem text?_text (s : String) : (text s).text? = some s := rfl

@[simp] theorem spent_list (xs : List Value) : (list xs).spent = list xs := rfl

theorem items?_spent (v : Value) (xs : List Value) (h : v.items? = some xs) :
    v.spent.items? = some xs ∨ v.spent.items? = some [] := by
  cases v <;> simp_all [spent, items?]

/-- A value that shows none inside it needs only its own room. -/
theorem overflow?_of_parts_nil {v : Value} {room : Nat} (h : v.parts = []) (hroom : v.weight ≤ room) :
    v.overflow? room = none := by
  have := v.weight_pos
  rw [overflow?, if_neg (by omega), if_neg (by omega), h, List.findSome?_nil]

theorem truthy_text (s : String) : (text s).truthy = (s != "") := rfl

end Value

end Gatehouse
