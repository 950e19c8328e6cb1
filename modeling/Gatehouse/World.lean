import Gatehouse.Registry
import Gatehouse.Settings
import Gatehouse.Target
import Gatehouse.Trace.Log

/-!
What decisions act on. A run is a computation that reads and changes this state and may end in a fault; what
happened before a fault stays.
-/

namespace Gatehouse

open Trace (Log Level)

/-! ## 1. The state -/

/-- What a check learns from the application around it. -/
structure Host where
  user : Except Fault Value
  resource : Except Fault Value
  /-- The login status; some hosts know of none. -/
  login : Option (Except Fault Value)

/-- The host that a value stands for: null for none, and any other value for one that knows nothing. -/
def Host.ofValue : Value → Option Host
  | .null => none
  | v =>
      let ask (name : String) : Except Fault Value :=
        .error (if v.isNamed name then .wrongKind else .noAttribute)
      some {
        user := ask "current_user"
        resource := ask "current_resource_name"
        login := if v.isNamed "is_logged_in" then some (ask "is_logged_in") else none }

/-- An engine: where it reads rules, and how it completes and resolves targets. -/
structure Engine where
  /-- Engines are numbered; no two are the same. -/
  serial : Nat
  registry : Nat
  host : Option Host
  loader : Option Nat
  adapter : Adapter
  /-- The resource scanned after the requested one. -/
  fallback : String
  /-- Whether nothing that the engine itself traces is ever written. -/
  muted : Bool
  /-- Whether conditions may ask for decisions of their own. -/
  consulted : Bool

inductive Statement where
  | permit (grant : Grant Condition)
  | bring (moduleName : String)
  | fail (fault : Fault)

structure RuleModule where
  name : String
  body : List Statement

/-- All rule modules there are, and what became of them. -/
structure Library where
  modules : List RuleModule
  /-- Modules that are running or have run to their end. -/
  imported : List String
  /-- Every start of a module, in order. -/
  started : List String

/-- Loads the rules of a resource when it is first needed. -/
inductive Loader where
  /-- Imports the module of the resource's name from a package; `seen` are the resources done with. -/
  | package (name : String) (seen : List Value)
  /-- Runs statements that are given for each resource; `asked` is every resource asked for. Stands for a loader of the
  application, which does for a resource what a rule module may do, the first time that it is asked. It cannot ask for
  decisions, and what it does depends on nothing but the resource. -/
  | script (stubs : List (String × List Statement)) (asked : List Value)

/-- What a class or an instance says about the current request, where it says anything: a value, or a fault. It says the same
whenever it is asked. -/
structure Hooks where
  user : Option (Except Fault Value)
  /-- The current resource, given the resource name of the class. -/
  currentResource : Option (String → Except Fault Value)
  actionName : Option (Except Fault Value)
  params : Option (Except Fault Value)
  loggedIn : Option (Except Fault Value)

/-- Nothing is said. -/
def Hooks.silent : Hooks := ⟨none, none, none, none, none⟩

/-- A class of request handlers, or one that they are mixed with. -/
structure Handler where
  /-- The classes that it is derived from, in the order in which they are asked after it. -/
  ancestors : List Nat
  /-- Whether it is the root of all handlers or derived from it. Other classes are only mixed in. -/
  guarded : Bool
  /-- The resource of the class; that of a class which is only mixed in has no name. -/
  resourceName : String
  /-- The registry set on the class itself, which may be set to none. -/
  registry : Option (Option Nat)
  /-- The resolver set on the class itself, which may be set to none. -/
  resolver : Option (Option Resolver)
  /-- The loader set on the class itself, which may be set to none. -/
  loader : Option (Option Nat)
  hooks : Hooks
  /-- The engine made for this very class, once it has been needed. -/
  engine : Option Engine

/-- The class that all handlers are derived from. It sets registry, resolver and loader to none and knows of no login. -/
def Handler.root : Handler where
  ancestors := []
  guarded := true
  resourceName := ""
  registry := some none
  resolver := some none
  loader := some none
  hooks := {
    user := some (.ok .null)
    currentResource := some fun name => .ok (.text name)
    actionName := some (.ok .null)
    params := some (.ok (.dict []))
    loggedIn := none }
  engine := none

structure World where
  registries : List Registry
  /-- The registry of the whole process. -/
  shared : Nat
  /-- The registry in which rule modules and conditions declare; without one they cannot. -/
  home : Option Nat
  nextRule : Nat
  nextEngine : Nat
  library : Library
  loaders : List Loader
  /-- All classes there are, by their numbers; a class comes after those that it is derived from. -/
  handlers : List Handler
  /-- The questions put to conditions: about which user and which object. -/
  calls : List (Value × Value)
  log : Log
  environment : Environment
  /-- The settings of the process, once they have been read. -/
  settings : Option Settings
  /-- The engine of the whole process, once it has been needed. -/
  engine : Option Engine
  /-- Whether the settings are those that the engine was made with, and not forgotten since. -/
  engineSettings : Bool

namespace World

def initial : World where
  registries := [.empty]
  shared := 0
  home := some 0
  nextRule := 0
  nextEngine := 0
  library := ⟨[], [], []⟩
  loaders := []
  handlers := [.root]
  calls := []
  log := .silent
  environment := .empty
  settings := none
  engine := none
  engineSettings := false

/-- The registry under a number. -/
def registry (w : World) (i : Nat) : Registry := (w.registries[i]?).getD .empty

def setRegistry (w : World) (i : Nat) (reg : Registry) : World :=
  { w with registries := w.registries.set i reg }

/-- Adds an empty registry; its number is that of the registries before. -/
def addRegistry (w : World) : Nat × World :=
  (w.registries.length, { w with registries := w.registries ++ [.empty] })

/-- Adds a loader; its number is that of the loaders before. -/
def addLoader (w : World) (loader : Loader) : Nat × World :=
  (w.loaders.length, { w with loaders := w.loaders ++ [loader] })

theorem registry_setRegistry_of_ne {w : World} {i j : Nat} (reg : Registry) (h : j ≠ i) :
    (w.setRegistry i reg).registry j = w.registry j := by
  simp [setRegistry, registry, List.getElem?_set_ne (Ne.symm h)]

theorem registry_setRegistry_self {w : World} {i : Nat} (reg : Registry)
    (h : i < w.registries.length) : (w.setRegistry i reg).registry i = reg := by
  simp [setRegistry, registry, h]

end World

/-! ## 2. Runs -/

/-- A computation on the state that may end in a fault. -/
abbrev Run (α : Type) := ExceptT Fault (StateM World) α

namespace Run

def ofExcept (r : Except Fault α) : Run α := fun w => (r, w)

def read (f : World → α) : Run α := fun w => (.ok (f w), w)

def change (f : World → World) : Run Unit := fun w => (.ok (), f w)

def trace (level : Level) (message : Except Fault String) : Run Unit :=
  change fun w => { w with log := w.log.emit level message }

def home : Run Nat := fun w =>
  match w.home with
  | some i => (.ok i, w)
  | none => (.error .noAttribute, w)

def permit (i : Nat) (grant : Grant Condition) : Run (List Rule) := fun w =>
  match (w.registry i).permit w.nextRule grant with
  | .ok (reg, rules) =>
      (.ok rules, { w.setRegistry i reg with nextRule := w.nextRule + rules.length })
  | .error f => (.error f, w)

def freeze (i : Nat) : Run Unit :=
  change fun w => w.setRegistry i (w.registry i).freeze

def clear (i : Nat) : Run Unit := fun w =>
  match (w.registry i).clear with
  | .ok reg => (.ok (), w.setRegistry i reg)
  | .error f => (.error f, w)

/-! ## 3. Equations -/

theorem pure_run (a : α) (w : World) : (pure a : Run α) w = (.ok a, w) := rfl

theorem throw_run (f : Fault) (w : World) : (throw f : Run α) w = (.error f, w) := rfl

/-- A run goes on with what the run before it gives and leaves; a fault ends it, and what happened before the
fault stays. -/
theorem bind_run (run : Run α) (next : α → Run β) (w : World) :
    (run >>= next) w = match run w with
      | (.ok a, after) => next a after
      | (.error f, after) => (.error f, after) := by
  simp only [bind, ExceptT.bind, ExceptT.mk, StateT.bind]
  cases run w with
  | mk result after => cases result <;> rfl

/-- The run that catches a fault starts from what the fault left. -/
theorem tryCatch_run (run : Run α) (handle : Fault → Run α) (w : World) :
    (tryCatch run handle) w = match run w with
      | (.ok a, after) => (.ok a, after)
      | (.error f, after) => handle f after := by
  simp only [tryCatch, tryCatchThe, MonadExceptOf.tryCatch, ExceptT.tryCatch, ExceptT.mk, bind,
    StateT.bind]
  cases run w with
  | mk result after => cases result <;> rfl

theorem ofExcept_run (r : Except Fault α) (w : World) : (ofExcept r : Run α) w = (r, w) := rfl

theorem read_run (f : World → α) (w : World) : (read f : Run α) w = (.ok (f w), w) := rfl

theorem change_run (f : World → World) (w : World) : change f w = (.ok (), f w) := rfl

theorem home_of_some {w : World} {i : Nat} (h : w.home = some i) : home w = (.ok i, w) := by
  simp [home, h]

theorem permit_of_error {i : Nat} {grant : Grant Condition} {w : World} {f : Fault}
    (h : (w.registry i).permit w.nextRule grant = .error f) : permit i grant w = (.error f, w) := by
  simp [permit, h]

theorem permit_of_ok {i : Nat} {grant : Grant Condition} {w : World} {reg : Registry}
    {rules : List Rule} (h : (w.registry i).permit w.nextRule grant = .ok (reg, rules)) :
    permit i grant w =
      (.ok rules, { w.setRegistry i reg with nextRule := w.nextRule + rules.length }) := by
  simp [permit, h]

end Run

end Gatehouse
