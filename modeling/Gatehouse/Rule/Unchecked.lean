import Gatehouse.Engine
import Gatehouse.Value.Search

/-!
Rules that something has been assigned to. The fields of a rule stay as they are, but a mapping can take the place of
all of them. They are then looked up in it whenever they are needed, else among what the rule withholds or in a spare
mapping, and one that is missing or of no use is a fault only there. No entry of a mapping can be called, so that
nobody is admitted under a condition. What can be gone through once is used up by looking.
-/

namespace Gatehouse

/-! ## 1. Fields -/

/-- A rule with a mapping in the place of its fields. -/
structure UncheckedRule where
  serial : Nat
  entries : List (Value × Value)
  /-- The name of the entry that says which names are withheld. -/
  withheld : String
  /-- Where names are looked up that are withheld. -/
  secret : Value
  /-- Where all other names are looked up that the mapping does not have. -/
  spare : Value

/-- What a rule is asked; the answer may take something of the rule away. -/
abbrev Asking (α : Type) := ExceptT Fault (StateM UncheckedRule) α

namespace UncheckedRule

def held? (r : UncheckedRule) (name : String) : Option Value := Value.lookup (.text name) r.entries

/-- Where something of a rule stands. -/
inductive Place where
  | entries
  | secret
  | spare

def read (r : UncheckedRule) (name : String) : Place → Except Fault Value
  | .entries => Value.under name (.dict r.entries)
  | .secret => Value.under name r.secret
  | .spare => Value.under name r.spare

/-- Puts something in the place of what stands there under a name. -/
def replace (r : UncheckedRule) (name : String) (v : Value) (place : Place) : UncheckedRule :=
  let placed : Value → Value
    | .dict entries => .dict (Value.put entries (.text name) v)
    | other => other
  match place with
  | .entries => { r with entries := Value.put r.entries (.text name) v }
  | .secret => { r with secret := placed r.secret }
  | .spare => { r with spare := placed r.spare }

/-- Whether a rule withholds a name. Only a mapping withholds names that it contains. -/
def withholds (name : String) : Asking Bool := fun r =>
  match r.held? r.withheld with
  | none => (.ok false, r)
  | some (.dict names) => (.ok (Value.lookup (.text name) names).isSome, r)
  | some names =>
      let (answer, left) := Value.contains name names
      (answer.bind fun found => if found then .error .wrongKind else .ok false, r.replace r.withheld left .entries)

/-- Whether a rule has something spare under a name. -/
def hasSpare (name : String) : Asking Bool := fun r =>
  if !r.spare.truthy then (.ok false, r)
  else
    let (answer, left) := Value.contains name r.spare
    (answer, { r with spare := left })

/-- Where something stands that the mapping does not have, if anywhere. -/
def placeBesides? (name : String) : Asking (Option Place) := do
  if ← withholds name then return some .secret
  if ← hasSpare name then return some .spare
  return none

def placeOf (name : String) : Asking Place := fun r =>
  match r.held? name, placeBesides? name r with
  | some _, _ => (.ok .entries, r)
  | none, (.ok (some place), r) => (.ok place, r)
  | none, (.ok none, r) => (.error .noAttribute, r)
  | none, (.error f, r) => (.error f, r)

def fieldAt (name : String) (place : Place) : Asking Value := fun r => (r.read name place, r)

def field (name : String) : Asking Value := fun r =>
  match placeOf name r with
  | (.ok place, r) => fieldAt name place r
  | (.error f, r) => (.error f, r)

/-- Whatever stands under the name of something that a rule can do hides it. -/
def able (ability : String) : Asking Unit := do
  if ((← get).held? ability).isSome then throw .wrongKind

/-! ## 2. What a rule can do -/

def isForAll : Asking Bool := do
  match ← field "roles" with
  | .all => return true
  | _ => return false

/-- Whether a rule is for all roles. One without roles may say so itself. -/
def allows : Asking Bool :=
  tryCatch isForAll fun
    | .noAttribute => do
        match ← placeBesides? "allows_all_roles" with
        | some place => return (← fieldAt "allows_all_roles" place).truthy
        | none => isForAll
    | f => throw f

/-- Goes through a rule's roles up to one that satisfies `p`: whether there is one, and all roles there are. -/
def findRole (p : Value → Except Fault Bool) : Asking (Bool × List Value) := do
  let place ← placeOf "roles"
  let roles ← fieldAt "roles" place
  match roles.letters with
  | .error f => throw f
  | .ok items =>
      let (answer, left) := Value.searchFrom p roles items
      modify fun r => r.replace "roles" left place
      return (← ExceptT.mk (pure answer), items)

/-- Whether two values are equal, unless it takes too deep a look. -/
def isSame (a b : Value) : Except Fault Bool := (Value.equals? a b).mapError .tooDeep

/-- Whether somebody with this role, or nobody, is meant. -/
def cover (user : Value) : Asking Bool := do
  able "role_matches"
  if ← allows then return true
  match user with
  | .null => return false
  | user =>
      let role ← ExceptT.mk (pure (Principal.role user))
      return (← findRole fun v => isSame v role).1

/-- The rule's condition, if something stands in its place. -/
def condition? : Asking (Option Value) := do
  match ← field "condition" with
  | .null => return none
  | v => return some v

def text : Asking String := do
  able "describe"
  let roles ← if ← allows then pure Roles.everyone
    else Roles.among <$> Prod.snd <$> findRole fun v => v.written?.map fun _ => false
  let described (condition : Option Condition) (objectId : String) : Asking String := fun r =>
    (.ok (Rule.text { serial := r.serial, roles, condition, objectId }), r)
  match ← condition? with
  | none => described none ""
  | some _ => do
      let objectId ← ExceptT.mk (pure (← field "object_id_key").written?)
      described (some (.failing .wrongKind)) objectId

/-- Asks what stands in the place of the condition about one of the ids, which always is a fault. -/
def askCondition (ids : Value) : Asking Bool := do
  discard (field "condition")
  match objectIn ids "" with
  | .error .noAttribute => throw .noAttribute
  | _ => do
      discard (field "object_id_key")
      throw .wrongKind

/-- Whether a rule, which has been traced, admits a user. -/
def decides (user ids : Value) : Asking Bool := do
  let roleIsRight ← cover user
  match ← condition? with
  | none => return roleIsRight
  | some _ => if roleIsRight then askCondition ids else return false

/-- Whether a rule admits a user, and what is left of the rule. -/
def admits (r : UncheckedRule) (user ids : Value) : Run (Except Fault Bool × UncheckedRule) := do
  match able "match" r with
  | (.error f, r) => return (.error f, r)
  | (.ok (), r) =>
      let (text, after) := text r
      let isTraced ← Run.read fun w => w.log.keeps .debug
      Run.trace .debug (text.map ("trying " ++ ·))
      return decides user ids (if isTraced then after else r)

end UncheckedRule

/-! ## 3. Assignments -/

inductive Slot where
  /-- A field, or whatever might be one. -/
  | field
  /-- All fields at once. -/
  | fields
  /-- The spare mapping. -/
  | spare
  /-- The mapping of what is withheld. -/
  | secret
  /-- The kind of the rule. -/
  | kind
  /-- What is only there to be looked at. -/
  | sealed
  /-- What is taken no account of. -/
  | ignored
  /-- A note that stands beside the fields. -/
  | note

/-- The names of the notes that a rule takes account of. -/
structure Marks where
  /-- Which names are withheld. -/
  withheld : String
  /-- What is to be called instead of assigning to a name. -/
  handlers : String
  /-- What is to be called instead of assigning to any name that has no handler. -/
  handler : String

structure AssignedRule where
  rule : Rule
  marks : Marks
  /-- Whether the entries stand in the place of the rule's fields; else they are only notes. -/
  isReplaced : Bool := false
  entries : List (Value × Value) := []
  secret : Value := .null
  spare : Value := .null

namespace AssignedRule

def held? (r : AssignedRule) (name : String) : Option Value := Value.lookup (.text name) r.entries

/-- Why nothing can be assigned to a name, if so: no entry can be called. -/
def interception? (r : AssignedRule) (name : String) : Option Fault :=
  let caught : Option Fault := (r.held? r.marks.handler).map fun _ => .wrongKind
  match r.held? r.marks.handlers with
  | none => caught
  | some (.dict handlers) =>
      match Value.lookup (.text name) handlers with
      | none => caught
      | some .null => caught
      | some _ => some .wrongKind
  | some other => some (if other.isNamed "get" then .wrongKind else .noAttribute)

def assign (r : AssignedRule) (name : String) (slot : Slot) (v : Value) : Except Fault AssignedRule :=
  match r.interception? name, slot, v with
  | some f, _, _ => .error f
  | none, .field, _ => .error (.invalid [(name, .frozen)])
  | none, .fields, .dict entries => .ok { r with isReplaced := true, entries }
  | none, .fields, _ => .error .wrongKind
  | none, .spare, spare => .ok { r with spare }
  | none, .secret, secret => .ok { r with secret }
  | none, .kind, _ => .error .wrongKind
  | none, .sealed, _ => .error .noAttribute
  | none, .ignored, _ => .ok r
  | none, .note, v => .ok { r with entries := Value.put r.entries (.text name) v }

/-- The rule without its checked fields, if a mapping has taken their place. -/
def unchecked? (r : AssignedRule) : Option UncheckedRule :=
  if r.isReplaced then
    some { serial := r.rule.serial, entries := r.entries, withheld := r.marks.withheld, secret := r.secret
           spare := r.spare }
  else none

def after (r : AssignedRule) (u : UncheckedRule) : AssignedRule :=
  { r with entries := u.entries, secret := u.secret, spare := u.spare }

/-- Whether somebody with this role, or nobody, is meant, and what is left of the rule. -/
def cover (r : AssignedRule) (user : Value) : Except Fault Bool × AssignedRule :=
  match r.unchecked? with
  | none => (r.rule.roles.cover user, r)
  | some u =>
      let (answer, u) := UncheckedRule.cover user u
      (answer, r.after u)

/-- Whether a rule admits a user, and what is left of it. A rule alone has nobody who could decide for a condition. -/
def admits (r : AssignedRule) (user ids : Value) : Run (Except Fault Bool × AssignedRule) := do
  match r.unchecked? with
  | none => return (.ok (← r.rule.admits (fun _ => throw .noAttribute) (objectIn ids) user), r)
  | some u =>
      let (answer, u) ← u.admits user ids
      return (answer, r.after u)

end AssignedRule

/-! ## 4. Facts -/

namespace UncheckedRule

theorem field_of_held {r : UncheckedRule} {name : String} {v : Value} (h : r.held? name = some v) :
    field name r = (.ok v, r) := by
  have hv : Value.under name (.dict r.entries) = .ok v := by
    have : Value.lookup (.text name) r.entries = some v := h
    simp [Value.under, this]
  simp [field, placeOf, fieldAt, read, h, hv]

end UncheckedRule

/-- No assignment to a single field changes a rule. -/
theorem AssignedRule.not_assign_field (r r' : AssignedRule) (name : String) (v : Value) :
    r.assign name .field v ≠ .ok r' := by
  unfold assign
  cases r.interception? name <;> simp

end Gatehouse
