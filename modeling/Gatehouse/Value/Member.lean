import Gatehouse.Number.Numeral
import Gatehouse.Text.Digit
import Gatehouse.Text.Placeholder

/-!
Declaring members of groups of names. A member may be a text or an integer as well, which is then made of the value
that it is declared with. Some names belong to the group itself.
-/

namespace Gatehouse.Value

/-- What the members of a group are besides being members. -/
inductive Mixin where
  | nothing
  | text
  | integer
  deriving DecidableEq, Repr

/-! ## 1. Names -/

/-- Whether a text stands between marks like this, none of which doubles. -/
def isBetween (mark cs : List Char) : Bool :=
  let inner := (cs.drop mark.length).take (cs.length - 2 * mark.length)
  2 * mark.length < cs.length && cs.take mark.length == mark && cs.drop (cs.length - mark.length) == mark &&
    inner.head? != some '_' && inner.getLast? != some '_'

def isReservedName (name : String) : Bool := isBetween ['_'] name.toList

/-- Whether something declared under this name in a group is no member, but only what it is declared with. -/
def isOuterName (group name : String) : Bool :=
  let mark := '_' :: group.toList ++ ['_', '_']
  let cs := name.toList
  isBetween ['_', '_'] cs ||
    (mark.length < cs.length && cs.take mark.length == mark && cs.drop (cs.length - 2) != ['_', '_'])

/-- Why a group cannot have a member of this name, if so. -/
def nameFault? (group name : String) : Option Fault :=
  if isOuterName group name then none
  else if isReservedName name then some (.badValue (.reservedName name))
  else if name == "mro" || name == "" then some (.badValue (.impossibleName name))
  else none

/-! ## 2. What members stand for -/

/-- How many digits there are, which underscores may divide, and the integer that they spell. -/
def integerOfDigits? (cs : List Char) : Option (Nat × Nat) := do
  let digits ← Numeral.ungrouped? cs
  if digits.isEmpty || !digits.all Text.isDecimal then none
  else some (digits.length, Text.valueOfDigits digits)

/-- The integer that a text spells, which `v` is in messages. -/
def integerOfText (v : Value) (cs : List Char) : Except Fault Int :=
  let (negative, digits) := Numeral.splitSign (Text.trimmed cs)
  match integerOfDigits? digits with
  | none => .error (.badValue (.notAnInteger v))
  | some (count, n) =>
      if Numeral.limit < count then .error (.badValue (.tooManyDigits count))
      else .ok (if negative then -(n : Int) else n)

def integerOf (v : Value) : Except Fault Int :=
  match v, v.text? with
  | v, some s => integerOfText v s.toList
  | .bytes bs, _ => integerOfText v (bs.map fun b => Char.ofNat b.toNat)
  | v, _ => Text.integerFor v

/-- What is made of the items that a member is declared with: of none the empty one, and of one what is made of it. A
value that is no tuple is one item. -/
def madeOf (empty : α) (make : Value → Except Fault α) (v : Value) : Except Fault α :=
  match v with
  | .tuple [] => .ok empty
  | .tuple [v] => make v
  | .tuple _ => .error .wrongKind
  | v => make v

/-- Declares a member of a group with a value; `form` is how it is declared. -/
def declare (mixin : Mixin) (group name : String) (value : Value) (form : String) : Except Fault Value := do
  if let some fault := nameFault? group name then throw fault
  if group.toList.contains '\x00' then throw (.badValue .nullInClassName)
  if isOuterName group name then return value
  match mixin with
  | .nothing => return .member group name value form
  | .text => return .textMember group name (← madeOf "" written? value)
  | .integer => return .intMember group name (← madeOf 0 integerOf value)

/-! ## 3. Facts -/

/-- A member of a common name is what it is declared as. -/
theorem declare_nothing {group name : String} (value : Value) (form : String) (hname : nameFault? group name = none)
    (hgroup : '\x00' ∉ group.toList) (houter : isOuterName group name = false) :
    declare .nothing group name value form = .ok (.member group name value form) := by
  have hnull : group.toList.contains '\x00' = false := by simpa using hgroup
  unfold declare
  rw [hname, hnull, houter]
  rfl

/-- Without anything to make it of, a text is empty. -/
theorem madeOf_nil (empty : α) (make : Value → Except Fault α) : madeOf empty make (.tuple []) = .ok empty := rfl

end Gatehouse.Value
