import Gatehouse.Ids
import Gatehouse.Name
import Gatehouse.Principal

/-!
Rules: who may do something, and under which condition. A rule names roles, or every role, and may carry a
condition on the user and on one object id of the request. A grant is a declaration before it is checked; it
gives one rule per action.
-/

namespace Gatehouse

/-! ## 1. Conditions and grants -/

/-- What a grant has for a condition: none, something that can be called, or some other value. -/
inductive Guard (γ : Type) where
  | absent
  | callable (condition : γ)
  | other (v : Value)

structure Grant (γ : Type) where
  resource : Value
  actions : Value
  roles : Value
  guard : Guard γ
  objectId : Value

/-- A condition, by what it does when it is asked about a user and an object. -/
inductive Condition where
  /-- Answers or fails by looking at the two. -/
  | answer (f : Value → Value → Except Fault Value)
  /-- Declares a grant and goes on. -/
  | declare (grant : Grant Condition) (next : Condition)
  /-- Ends the time of declarations and goes on. -/
  | freeze (next : Condition)
  /-- Answers with a decision of its own on another target. -/
  | consult (target : Value)

namespace Condition

/-- Whether two values are equal, as an answer. -/
def sameness (a b : Value) : Except Fault Value :=
  match Value.equals? a b with
  | .ok same => .ok (.bool same)
  | .error depth => .error (.tooDeep depth)

def objectIs (v : Value) : Condition := .answer fun _ object => sameness object v

def roleIs (v : Value) : Condition := .answer fun user _ => do sameness (← Principal.role user) v

/-- Who owns an object: nobody if no entry is for it. -/
def ownerOf (object : Value) : (owners : List (Value × Value)) → Except Fault Value
  | [] => .ok .null
  | (o, owner) :: rest => do
      if (← sameness o object).truthy then return owner else ownerOf object rest

def ownerAmong (owners : List (Value × Value)) : Condition :=
  .answer fun user object => do sameness (← ownerOf object owners) (← Principal.id user)

def failing (fault : Fault) : Condition := .answer fun _ _ => .error fault

end Condition

/-- The roles of a rule. -/
inductive Roles where
  | everyone
  | among (roles : List Value)
  deriving Inhabited, Repr

structure Rule where
  /-- Rules are numbered in the order in which they are registered. -/
  serial : Nat
  roles : Roles
  condition : Option Condition
  /-- The key of the object id that the condition is asked about. -/
  objectId : String

/-! ## 2. Reading grants -/

namespace Roles

/-- Roles that are listed; they are looked at as a whole, which must not go too deep. -/
def listed (roles : List Value) : Except Fault Roles :=
  match (Value.tuple roles).shown? with
  | .ok _ => .ok (.among roles)
  | .error deeper => .error deeper

/-- The roles that a value gives: one role, or all that a collection yields. A wildcard stands for every role,
alone or among others. -/
def read (v : Value) : Except Fault Roles :=
  match v with
  | .null => .error (.misconfigured .noRoles)
  | .bytes _ => .ok (.among [v])
  | v => do
      if ← Name.standsForAll v then return .everyone
      match v.items? with
      | none => listed [v]
      | some items =>
          -- All roles are made before any is looked at.
          match v.break?, items with
          | some (.invalid issues), _ => throw (.invalid (Break.below "roles" issues))
          | some b, _ => throw (.ofBreak b)
          | none, [] => throw (.misconfigured .noRoles)
          | none, items => if ← items.anyM Name.standsForAll then return .everyone else listed items

/-- Whether somebody with this role, or nobody, is meant. A role that is a token or a principal covers nobody here: such
objects equal themselves only, and one object in a grant and in a user is no value. -/
def cover (roles : Roles) (user : Value) : Except Fault Bool :=
  match roles, user with
  | .everyone, _ => .ok true
  | .among _, .null => .ok false
  | .among roles, user => do
      let role ← Principal.role user
      return roles.any fun r => Value.equals r role

def text : Roles → String
  | .everyone => "all"
  | .among roles => String.intercalate "," (roles.map Value.written)

end Roles

namespace Rule

/-- The key that conditions are asked about when none is given. -/
def defaultObjectId : String := "id"

/-- The key of an object id: a text that is not empty. -/
def readObjectId (v : Value) : Except Fault String :=
  match v with
  | .null => .ok defaultObjectId
  | v =>
      match v.unwrapped.text? with
      | some s => if s = "" then .error (.misconfigured (.malformedKey v.unwrapped)) else .ok s
      | none => .error (.showing v.unwrapped (.misconfigured (.malformedKey v.unwrapped)))

/-- The condition of a rule: none, or something that can be called. -/
def readGuard : Guard Condition → Except Fault (Option Condition)
  | .absent => .ok none
  | .callable c => .ok (some c)
  | .other .null => .ok none
  | .other _ => .error (.misconfigured .conditionNotCallable)

/-- What becomes of a rule with refused roles: a bad field of another kind is found first. -/
def refuse (issues : List (String × Issue)) (guard : Guard Condition) (objectId : Value) :
    Except Fault Rule := do
  discard (readGuard guard)
  discard (readObjectId objectId)
  throw (.invalid issues)

/-- A rule under the number it would be registered with. -/
def make (serial : Nat) (roles : Value) (guard : Guard Condition) (objectId : Value) :
    Except Fault Rule :=
  match Roles.read roles with
  | .error (.invalid issues) => refuse issues guard objectId
  | .error f => .error f
  | .ok roles => do
      let condition ← readGuard guard
      let objectId ← readObjectId objectId
      return { serial, roles, condition, objectId }

/-- A rule from its fields: roles have to be given. -/
def ofFields (serial : Nat) (roles : Option Value) (guard : Guard Condition) (objectId : Value) :
    Except Fault Rule :=
  match roles with
  | some roles => make serial roles guard objectId
  | none => refuse [("roles", .missing)] guard objectId

/-- `count` rules alike, numbered from `serial` on; the roles are gone through for each of them anew. -/
def series (guard : Guard Condition) (objectId : Value) :
    (count serial : Nat) → (roles : Value) → Except Fault (List Rule)
  | 0, _, _ => .ok []
  | count + 1, serial, roles => do
      let rule ← make serial roles guard objectId
      let rest ← series guard objectId count (serial + 1) roles.spent
      return rule :: rest

def text (r : Rule) : String :=
  "rule(#" ++ toString r.serial ++ "): allow roles [" ++ r.roles.text ++ "]" ++
    match r.condition with
    | none => ""
    | some _ =>
        " (only under condition object_id will be retrieved using '" ++ r.objectId ++ "')"

end Rule

namespace Grant

/-- The actions that a value gives: one action, or all that a collection yields, repeated ones as often as they
occur. A wildcard stands for the action of every action. -/
def actionsOf (v : Value) : Except Fault (List String) :=
  match v with
  | .null => .error (.misconfigured .noActions)
  | v =>
      do
        if ← Name.standsForAll v then return [Name.everyAction]
        let names ← ((v.items?).getD [v]).mapM Name.action
        v.finish
        if names.isEmpty then throw (.misconfigured .noActions)
        return names

end Grant

/-! ## 3. Facts -/

namespace Roles

theorem cover_everyone (user : Value) : everyone.cover user = .ok true := rfl

/-- Nobody in particular is admitted by no role in particular. -/
theorem cover_among_null (roles : List Value) : (among roles).cover .null = .ok false := rfl

end Roles

namespace Rule

theorem length_series {guard : Guard Condition} {objectId : Value} {count serial : Nat}
    {roles : Value} {rules : List Rule} (h : series guard objectId count serial roles = .ok rules) :
    rules.length = count := by
  induction count generalizing serial roles rules with
  | zero =>
    simp only [series, Except.ok.injEq] at h
    simp [← h]
  | succ count ih =>
    simp only [series, bind, Except.bind] at h
    cases hm : make serial roles guard objectId with
    | error f => simp [hm] at h
    | ok rule =>
      cases hs : series guard objectId count (serial + 1) roles.spent with
      | error f => simp [hm, hs] at h
      | ok rest =>
        simp only [hm, hs, pure, Except.pure, Except.ok.injEq] at h
        simp [← h, ih hs]

end Rule

end Gatehouse
