import Gatehouse.Descent
import Gatehouse.Shared

/-!
Classes of request handlers. A class declares grants when it is defined, has a resource named for it, and gets
registry, resolver, loader and hooks from itself or the nearest class it is derived from. An instance is the
host of the checks it asks for. Each class has an engine of its own, which is made anew when the registry of the
class has changed.

A class may be derived from several others, among them classes that are no handlers and are only mixed in. It asks all
of them in one order, which is made when it is defined. That a class replaces a method of handlers other than a hook is
left out.
-/

namespace Gatehouse

structure Handler.Definition where
  name : String
  /-- The classes that it is derived from, as they are given. With none it can only be mixed in. -/
  bases : List Nat
  /-- A resource name other than the one made of the class name. -/
  resourceName : Option Value
  registry : Option (Option Nat)
  resolver : Option (Option Resolver)
  loader : Option (Option Nat)
  hooks : Hooks
  grants : List (Grant Condition)

namespace Handler

/-! ## 1. Resource names -/

/-- Endings of class names that say nothing about the resource. -/
def endings : List String := ["Controller", "Resource"]

/-- A class name without the first of the endings that it has, unless it consists of it. -/
def withoutEnding (name : List Char) : List Char :=
  match endings.find? fun e => e.toList.isSuffixOf name && name != e.toList with
  | some e => name.take (name.length - e.length)
  | none => name

def isCapital (c : Char) : Bool := 'A' ≤ c && c ≤ 'Z'

/-- An underscore before every capital but at the start. -/
def separated : List Char → List Char
  | [] => []
  | c :: rest => c :: rest.flatMap fun d => if isCapital d then ['_', d] else [d]

def resourceNameOf (className : String) : String :=
  Text.lower (String.ofList (separated (withoutEnding className.toList)))

/-- The resource name that a value stands for as a class name. -/
def resourceNameOfValue (v : Value) : Except Fault String :=
  if v.isNamed "endswith" then .error .wrongKind else
  match v.text?, v with
  | some s, _ => .ok (resourceNameOf s)
  | none, .bytes _ => .error .wrongKind
  | none, _ => .error .noAttribute

/-! ## 2. Descent -/

/-- A class and those it is derived from, in the order in which they are asked. -/
def line (handlers : List Handler) (h : Handler) : List Handler := h :: h.ancestors.filterMap (handlers[·]?)

def lineage (handlers : List Handler) (i : Nat) : List Handler :=
  match handlers[i]? with
  | some h => line handlers h
  | none => []

/-- What the nearest class sets. -/
def nearest (w : World) (i : Nat) (f : Handler → Option α) : Option α :=
  (lineage w.handlers i).findSome? f

/-- The first registry that is set along classes; if it is set to none or not at all, the shared one. -/
def registryAlong (w : World) (classes : List Handler) : Nat :=
  ((classes.findSome? Handler.registry).join).getD w.shared

/-- The registry of a class: the one that is set, else the shared one. -/
def registryOf (w : World) (i : Nat) : Nat := registryAlong w (lineage w.handlers i)

/-- The resolver of a class: the one that is set, else the standard routes. -/
def resolverOf (w : World) (i : Nat) : Resolver :=
  ((nearest w i Handler.resolver).join).getD (.table .standard)

def loaderOf (w : World) (i : Nat) : Option Nat := (nearest w i Handler.loader).join

/-- A base and the classes that it asks after it. A base that is not there cannot be named. -/
def orderOf (handlers : List Handler) (base : Nat) : Except Fault (List Nat) :=
  match handlers[base]? with
  | some h => .ok (base :: h.ancestors)
  | none => .error .noAttribute

/-! ## 3. Declaring -/

/-- Declares a grant for a resource of this name, unless the grant names another. -/
def permitFor (registry : Nat) (resourceName : String) (grant : Grant Condition) : Run (List Rule) :=
  Run.permit registry
    { grant with
      resource := if grant.resource.truthy then grant.resource else .text resourceName }

def permitAll (registry : Nat) (resourceName : String) : List (Grant Condition) → Run Unit
  | [] => pure ()
  | grant :: rest => do
      discard (permitFor registry resourceName grant)
      permitAll registry resourceName rest

namespace Definition

/-- The classes that a new class asks after itself. Bases that contradict each other are a kind fault. -/
def ancestorsIn (d : Definition) (handlers : List Handler) : Except Fault (List Nat) := do
  let orders ← d.bases.mapM (orderOf handlers)
  match Descent.merge (orders ++ [d.bases]) with
  | some ancestors => return ancestors
  | none => throw .wrongKind

/-- The resource name of a new class: the one that it gives itself, else that of its class name. A class that is only
mixed in gets none. -/
def nameIn (d : Definition) (guarded : Bool) : Except Fault String :=
  if guarded then Name.resource (d.resourceName.getD (.text (resourceNameOf d.name))) else .ok ""

/-- The class as it is before it has declared anything. -/
def make (d : Definition) (w : World) : Except Fault Handler := do
  if d.name.toList.contains '\x00' then throw (.badValue .nullInClassName)
  let ancestors ← d.ancestorsIn w.handlers
  let guarded := ancestors.any fun j => w.handlers[j]?.any Handler.guarded
  let resourceName ← d.nameIn guarded
  return { ancestors, guarded, resourceName, registry := d.registry, resolver := d.resolver
           loader := d.loader, hooks := d.hooks, engine := none }

/-- The grants that a class declares when it is made: those written in it, if it is a handler. -/
def grantsOf (d : Definition) (made : Handler) : List (Grant Condition) := if made.guarded then d.grants else []

end Definition

/-- Defines a class and gives its number. With a bad grant there is no class, but the grants before it have been
declared. -/
def define (d : Definition) : Run Nat := do
  let made ← Run.ofExcept (← Run.read d.make)
  let registry ← Run.read fun w => registryAlong w (line w.handlers made)
  permitAll registry made.resourceName (d.grantsOf made)
  let i ← Run.read fun w => w.handlers.length
  Run.change fun w => { w with handlers := w.handlers ++ [made] }
  return i

/-- The handler class under a number; a class that is only mixed in is none. -/
def find? (w : World) (i : Nat) : Option Handler := w.handlers[i]?.filter Handler.guarded

def get (i : Nat) : Run Handler := do
  match ← Run.read fun w => find? w i with
  | some h => return h
  | none => throw .noAttribute

def permit (i : Nat) (grant : Grant Condition) : Run (List Rule) := do
  let h ← get i
  let registry ← Run.read fun w => registryOf w i
  permitFor registry h.resourceName grant

/-- Sets the registry of a class, or sets it to none. -/
def setRegistry (i : Nat) (registry : Option Nat) : Run Unit :=
  Run.change fun w => { w with
    handlers := w.handlers.modify i fun h => { h with registry := some registry } }

/-! ## 4. Checking -/

/-- Makes an engine over a registry for a class, which keeps it. -/
def renewEngine (i registry : Nat) : Run Engine := do
  let s ← Shared.settings
  let loader ← Run.read fun w => loaderOf w i
  let resolver ← Run.read fun w => resolverOf w i
  let e ← Engine.make registry none loader (some resolver) s false false
  -- An engine whose trace cannot be set up is not kept.
  Shared.ensureTrace (some s)
  Run.change fun w => { w with
    handlers := w.handlers.modify i fun h => { h with engine := some e } }
  return e

def engineOf (i : Nat) : Run Engine := do
  let h ← get i
  let registry ← Run.read fun w => registryOf w i
  match h.engine with
  | some e => if e.registry = registry then return e else renewEngine i registry
  | none => renewEngine i registry

/-- What an instance says through a hook: its own word, else that of the nearest class. -/
def hook (w : World) (i : Nat) (own : Hooks) (f : Hooks → Option α) : Option α :=
  (f own).or (nearest w i fun h => f h.hooks)

def currentUser (w : World) (i : Nat) (own : Hooks) : Except Fault Value :=
  (hook w i own Hooks.user).getD (.ok .null)

/-- The current resource of an instance; the one of its class unless a hook says otherwise. -/
def currentResource (w : World) (i : Nat) (own : Hooks) : Except Fault Value :=
  match hook w i own Hooks.currentResource, w.handlers[i]? with
  | some say, some h => say h.resourceName
  | _, _ => .ok .null

def currentAction (w : World) (i : Nat) (own : Hooks) : Except Fault Value :=
  (hook w i own Hooks.actionName).getD (.ok .null)

def currentParams (w : World) (i : Nat) (own : Hooks) : Except Fault Value :=
  (hook w i own Hooks.params).getD (.ok (.dict []))

/-- What an instance says about the current request, by name. -/
def currentFields (w : World) (i : Nat) (own : Hooks) : Except Fault (List (String × Value)) := do
  return [("user", ← currentUser w i own), ("resource", ← currentResource w i own),
    ("action", ← currentAction w i own), ("params", ← currentParams w i own)]

def asHost (w : World) (i : Nat) (own : Hooks) : Host where
  user := currentUser w i own
  resource := currentResource w i own
  login := hook w i own Hooks.loggedIn

/-- Whether options name a host; a check through a handler has the handler for its host. -/
def nameHost (options : List (Value × Value)) : Bool :=
  (Value.lookup Engine.hostOption options).isSome

def authorizeAction (i : Nat) (own : Hooks) (target : Value) (options : List (Value × Value)) :
    Run Bool := do
  let e ← engineOf i
  if nameHost options then throw .wrongKind
  let host ← Run.read fun w => asHost w i own
  e.authorize target options (some host)

/-- The options of a check on the current request: its resource, its action, and the ids among its
parameters. -/
def currentOptions (w : World) (i : Nat) (own : Hooks) : Except Fault (List (Value × Value)) := do
  let resource ← currentResource w i own
  let action ← currentAction w i own
  let ids ← Ids.extract (← currentParams w i own)
  return [(.text "resource", resource), (.text "action", action), (.text "ids", ids.toValue)]

def authorized (i : Nat) (own : Hooks) : Run Bool := do
  let w ← Run.read id
  let options ← Run.ofExcept (currentOptions w i own)
  authorizeAction i own .null options

/-- What `callback` makes of a target that an instance may act on. -/
def ifAuthorized (i : Nat) (own : Hooks) (target : Value) (callback : Value → Run α) :
    Run (Option α) := do
  let e ← engineOf i
  let host ← Run.read fun w => asHost w i own
  e.ifAuthorized target callback (some host)

/-! ## 5. Facts -/

theorem lineage_of_some {handlers : List Handler} {i : Nat} {h : Handler} (hi : handlers[i]? = some h) :
    lineage handlers i = line handlers h := by
  unfold lineage
  rw [hi]

/-- A class that sets a registry has this registry, whatever it is derived from. -/
theorem registryOf_of_set {w : World} {i r : Nat} {h : Handler} (hi : w.handlers[i]? = some h)
    (hr : h.registry = some (some r)) : registryOf w i = r := by
  unfold registryOf registryAlong
  rw [lineage_of_some hi, line, List.findSome?_cons, hr]
  rfl

end Handler

end Gatehouse
