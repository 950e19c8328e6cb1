import Gatehouse.Decision
import Gatehouse.Loading

/-!
Deciding. Somebody who is not logged in is denied at once. Otherwise a target is completed from the host, and
the rules are tried: first those of the requested resource, then those of the fallback resource, and in each
first those for every action, then those for the requested one. The first rule that admits the request grants
it; without one it is denied.
-/

namespace Gatehouse

open Trace (Level)

/-- A request that can be decided: all parts are there, and the names are in their canonical form. -/
structure Check where
  user : Value
  resource : String
  action : String
  ids : Ids

/-- How far a scan has come: a grant, or the number of rules tried in vain. -/
inductive Progress where
  | granted (decision : Decision)
  | tried (count : Nat)

/-! ## 1. Trying rules -/

namespace Condition

/-- Asks a condition about a user and an object; `decide` answers the conditions that want a decision. -/
def ask (decide : Value → Run Bool) : Condition → Value → Value → Run Value
  | .answer f, user, object => Run.ofExcept (f user object)
  | .declare grant next, user, object => do
      let home ← Run.home
      discard (Run.permit home grant)
      next.ask decide user object
  | .freeze next, user, object => do
      let home ← Run.home
      Run.freeze home
      next.ask decide user object
  | .consult target, _, _ => do return .bool (← decide target)

end Condition

namespace Rule

/-- Whether a rule admits a user; `objectOf` gives the object id under a key. The condition is asked only when
the role is right. -/
def admits (decide : Value → Run Bool) (objectOf : String → Except Fault Value) (r : Rule)
    (user : Value) : Run Bool := do
  Run.trace .debug (.ok ("trying " ++ r.text))
  let roleIsRight ← Run.ofExcept (r.roles.cover user)
  match r.condition with
  | none => return roleIsRight
  | some condition =>
      if !roleIsRight then return false
      let object ← Run.ofExcept (objectOf r.objectId)
      -- The question is counted even if the answer to it is a fault.
      Run.change fun w => { w with calls := w.calls ++ [(user, object)] }
      let answer ← condition.ask decide user object
      return answer.truthy

end Rule

/-- The object id under a key in ids that come as a value: a mapping, or nothing. -/
def objectIn (ids : Value) (key : String) : Except Fault Value :=
  if !ids.truthy then .ok .null
  else match ids with
    | .dict entries => .ok ((Value.lookup (.text key) entries).getD .null)
    | ids => .error (if ids.isNamed "get" then .wrongKind else .noAttribute)

namespace Check

/-- The object id under a key; null when the request has none. -/
def objectOf (check : Check) (key : String) : Except Fault Value :=
  .ok ((check.ids.get? key).getD .null)

end Check

namespace Engine

/-! ## 2. Making engines and scanning -/

def make (registry : Nat) (host : Option Host) (loader : Option Nat) (resolver : Option Resolver)
    (settings : Settings) (muted consulted : Bool) : Run Engine := do
  let fallback ← Run.ofExcept (Name.resource settings.fallbackResource)
  let serial ← Run.read World.nextEngine
  Run.change fun w => { w with nextEngine := serial + 1 }
  return { serial, registry, host, loader, fallback, muted, consulted
           adapter := Adapter.make resolver settings.relativeUrlRoot }

/-- The resources whose rules are tried for a resource, in order. -/
def scopes (e : Engine) (resource : String) : List String :=
  if resource = e.fallback then [resource] else [resource, e.fallback]

/-- The actions whose rules are tried for an action, in order. -/
def actionScopes (action : String) : List String :=
  if action = Name.everyAction then [Name.everyAction] else [Name.everyAction, action]

/-- The resources whose rules would be tried for any value in the place of a resource. -/
def scopesOf (e : Engine) (resource : Value) : List Value :=
  if Value.equals resource (.text e.fallback) then [resource] else [resource, .text e.fallback]

/-- The actions whose rules would be tried for any value in the place of an action. -/
def actionScopesOf (action : Value) : List Value :=
  if Value.equals action (.text Name.everyAction) then [.text Name.everyAction]
  else [.text Name.everyAction, action]

def trace (e : Engine) (level : Level) (message : Except Fault String) : Run Unit :=
  if e.muted then pure () else Run.trace level message

/-- Tries rules one after the other, `tried` of them having been tried before. -/
def tryRules (decide : Value → Run Bool) (check : Check) (scope action : String) :
    List Rule → (tried : Nat) → Run Progress
  | [], tried => return .tried tried
  | rule :: rest, tried => do
      if ← rule.admits decide check.objectOf check.user then
        return .granted
          (.granted check.resource check.action scope action rule.text (tried + 1))
      else tryRules decide check scope action rest (tried + 1)

/-- Tries the rules of a resource for each of the actions. -/
def scanActions (e : Engine) (decide : Value → Run Bool) (check : Check) (scope : String) :
    List String → (tried : Nat) → Run Progress
  | [], tried => return .tried tried
  | action :: rest, tried => do
      e.trace .debug (.ok ("current action: " ++ action))
      -- The bucket is read once: rules that conditions declare in it are not tried any more.
      let rules ← Run.read fun w => (w.registry e.registry).bucket scope action
      match ← tryRules decide check scope action rules tried with
      | .granted decision => return .granted decision
      | .tried tried => scanActions e decide check scope rest tried

/-- Tries the rules of each of the resources, which are loaded when it is their turn. -/
def scanScopes (e : Engine) (decide : Value → Run Bool) (check : Check) :
    List String → (tried : Nat) → Run Progress
  | [], tried => return .tried tried
  | scope :: rest, tried => do
      e.trace .debug (.ok ("current resource: " ++ scope))
      -- Loading comes before reading, so that the rules just loaded count.
      match e.loader with
      | some loader => Loader.ensure loader (.text scope)
      | none => pure ()
      match ← scanActions e decide check scope (actionScopes check.action) tried with
      | .granted decision => return .granted decision
      | .tried tried => scanScopes e decide check rest tried

def scan (e : Engine) (decide : Value → Run Bool) (check : Check) : Run Decision := do
  match ← scanScopes e decide check (e.scopes check.resource) 0 with
  | .granted decision => return decision
  | .tried count => return .noRule check.resource check.action count

/-! ## 3. Completing targets -/

/-- Whether a host says that somebody is logged in; without a host or a status nobody asks. -/
def isLoggedIn (host : Option Host) : Except Fault Bool :=
  match host.bind Host.login with
  | none => .ok true
  | some status => status.map Value.truthy

/-- The host of a call: its own, or the engine's. -/
def hostFor (e : Engine) (host : Option Host) : Option Host := host.or e.host

def complete (request : Request) (host : Option Host) : Except Fault Check := do
  let user ← match request.user, host with
    | .null, some host => host.user
    | user, _ => .ok user
  let resource ← match request.resource, host with
    | .null, none => .error (.misconfigured .noResource)
    | .null, some host => host.resource
    | resource, _ => .ok resource
  if request.action matches .null then throw (.misconfigured .noAction)
  let resource ← Name.resource resource
  let action ← Name.action request.action
  return { user, resource, action, ids := request.ids }

def buildCheck (e : Engine) (target : Value) (host : Option Host) : Except Fault Check := do
  let request ← e.adapter.normalize target
  complete request (e.hostFor host)

/-! ## 4. Deciding -/

/-- The line that a request is traced by, in a room of this size. -/
def requestLine (room : Nat) (check : Check) : Except Fault String := do
  let label ← Principal.labelIn room check.user
  let ids ← check.ids.toValue.writtenIn? room
  return "user " ++ label ++ " requested access to method " ++ check.resource ++ ":" ++ check.action ++
    " using ids:" ++ ids

def resultLine (d : Decision) : String :=
  if d.allowed then "returning true (access granted)" else "returning false (access denied)"

/-- Decides on a target; `decide` answers the conditions that want a decision, `room` is there for the trace. -/
def decideWith (decide : Value → Run Bool) (room : Nat) (e : Engine) (target : Value) (host : Option Host) :
    Run Decision := do
  let host := e.hostFor host
  if !(← Run.ofExcept (isLoggedIn host)) then
    e.trace .info (.ok "returning false (not logged in)")
    return .notLoggedIn
  let check ← Run.ofExcept (e.buildCheck target host)
  e.trace .info (requestLine room check)
  let decision ← e.scan decide check
  e.trace .info (.ok (resultLine decision))
  return decision

/-- How many decisions inside each other are followed: measured on one runtime, from a shallow stack. -/
def depthLimit : Nat := 194

/-- The room that each of the decisions to come needs, by the same measure; what is traced before may fill it. -/
def roomPerDecision : Nat := 5

/-- A target as it is decided on: nothing at all is an empty option mapping. -/
def orNoOptions : Value → Value
  | .null => .dict []
  | target => target

/-- Decides on a target with at most `depth` decisions inside each other. -/
def decideAt : (depth : Nat) → Engine → Value → Option Host → Run Decision
  | 0, _, _, _ => throw (.tooDeep .runs)
  | depth + 1, e, target, host =>
      decideWith
        (fun inner => do
          if !e.consulted then throw .noAttribute
          return (← decideAt depth e (orNoOptions inner) none).allowed)
        (roomPerDecision * (depth + 1)) e target host

def hostOption : Value := .text "host"

/-- Options without the one that names the host, and the host: the one it names, else the one given. -/
def splitHost (options : List (Value × Value)) (host : Option Host) :
    List (Value × Value) × Option Host :=
  match Value.lookup hostOption options with
  | some v => (options.filter fun o => !Value.equals o.1 hostOption, Host.ofValue v)
  | none => (options, host)

/-- Decides on a target, or on options given one by one; both together make no sense. -/
def decide (e : Engine) (target : Value) (options : List (Value × Value)) (host : Option Host) :
    Run Decision := do
  let (options, host) := splitHost (Value.entriesOf options) host
  match target with
  | .null => decideAt depthLimit e (.dict options) host
  | target =>
      if !options.isEmpty then throw (.misconfigured .targetAndOptions)
      decideAt depthLimit e target host

def authorize (e : Engine) (target : Value) (options : List (Value × Value)) (host : Option Host) :
    Run Bool := do
  return (← e.decide target options host).allowed

/-- The decision if it is a grant; a denial is a fault. -/
def require (e : Engine) (target : Value) (options : List (Value × Value)) (host : Option Host) :
    Run Decision := do
  let decision ← e.decide target options host
  if !decision.allowed then throw decision.refusal
  return decision

/-- What `callback` makes of the target, if the target is allowed. -/
def ifAuthorized (e : Engine) (target : Value) (callback : Value → Run α) (host : Option Host) :
    Run (Option α) := do
  if ← e.authorize target [] host then
    return some (← callback target)
  else return none

/-! ## 5. Facts -/

theorem scopes_fallback (e : Engine) : e.scopes e.fallback = [e.fallback] := by simp [scopes]

theorem actionScopes_every : actionScopes Name.everyAction = [Name.everyAction] := rfl

theorem isLoggedIn_none : isLoggedIn none = .ok true := rfl

end Engine

end Gatehouse
