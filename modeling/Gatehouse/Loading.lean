import Gatehouse.World

/-!
Loading rules on demand. The module of a resource is imported when the resource is first scanned; a resource
without a module simply has no rules, and every other fault of an import is passed on. A module runs once, even
if modules import each other; one that ends in a fault counts as never imported, and what it declared stays.
-/

namespace Gatehouse

/-! ## 1. Importing modules -/

namespace Library

/-- The names from the outermost package of a dotted name down to the name itself. -/
def chainOf (name : String) : List String :=
  let parts := Text.pieces '.' name.toList
  (List.range parts.length).map fun n =>
    String.ofList (List.intercalate ['.'] (parts.take (n + 1)))

/-- The names that have to be imported for a dotted name: those below the last one that is there already. -/
def pending (lib : Library) (name : String) : List String :=
  ((chainOf name).reverse.takeWhile fun n => !lib.imported.contains n).reverse

def isPackage (lib : Library) (name : String) : Bool :=
  lib.modules.any fun m => (name.toList ++ ['.']).isPrefixOf m.name.toList

def parent? (name : String) : Option String :=
  match (chainOf name).reverse with
  | _ :: p :: _ => some p
  | _ => none

/-- The module that starts to run under a name, or why there is none. -/
def find (lib : Library) (name : String) : Except Fault RuleModule :=
  let missing := "No module named " ++ Text.quoted name
  match parent? name with
  | some p =>
      if lib.isPackage p then
        match lib.modules.find? fun m => m.name == name with
        | some m => .ok m
        | none => .error (.noModule (some name) missing)
      else .error (.noModule (some name) (missing ++ "; " ++ Text.quoted p ++ " is not a package"))
  | none =>
      match lib.modules.find? fun m => m.name == name with
      | some m => .ok m
      | none => .error (.noModule (some name) missing)

def start (lib : Library) (name : String) : Library :=
  { lib with imported := name :: lib.imported, started := lib.started ++ [name] }

def forget (lib : Library) (name : String) : Library :=
  { lib with imported := lib.imported.filter (· != name) }

end Library

namespace Statement

/-- Runs a statement, given how modules are imported. -/
def run (bring : String → Run Unit) : Statement → Run Unit
  | .permit grant => do
      let home ← Run.home
      discard (Run.permit home grant)
  | .bring name => bring name
  | .fail fault => throw fault

def runAll (bring : String → Run Unit) : List Statement → Run Unit
  | [] => pure ()
  | s :: rest => do
      s.run bring
      runAll bring rest

end Statement

namespace Library

def bringOne (bring : String → Run Unit) (name : String) : Run Unit := do
  let lib ← Run.read World.library
  if lib.imported.contains name then return
  let m ← Run.ofExcept (lib.find name)
  -- A running module counts as imported, so that modules can import each other.
  Run.change fun w => { w with library := w.library.start name }
  tryCatch (Statement.runAll bring m.body) fun fault => do
    Run.change fun w => { w with library := w.library.forget name }
    throw fault

def bringEach (bring : String → Run Unit) : List String → Run Unit
  | [] => pure ()
  | name :: rest => do
      bringOne bring name
      bringEach bring rest

/-- How many packages inside each other are imported at once: measured on one runtime, from a shallow stack. -/
def packageLimit : Nat := 240

/-- Imports a module and the packages it is in, with at most `depth` imports inside each other. -/
def bringAt : (depth : Nat) → String → Run Unit
  | 0, _ => throw (.tooDeep .calls)
  | depth + 1, name => do
      if name == "" then throw (.badValue .emptyModuleName)
      if name.toList.head? == some '.' then throw .wrongKind
      let names ← Run.read fun w => w.library.pending name
      if packageLimit < names.length then throw (.tooDeep .runs)
      bringEach (bringAt depth) names

/-- How many imports inside each other are followed, by the same measure. -/
def depthLimit : Nat := 160

def bring (name : String) : Run Unit := bringAt depthLimit name

end Library

/-! ## 2. Loading resources -/

namespace Loader

/-- The module that should declare the rules of a resource. -/
def moduleName (package : String) (resource : Value) : Except Fault String :=
  return package ++ "." ++ (← resource.written?)

/-- Whether a fault only says that a resource has no module: neither the module itself is there nor its package. -/
def isAbsence (package moduleName : String) : Fault → Bool
  | .noModule (some name) _ => name == moduleName || name == package
  | _ => false

/-- Imports the module of a resource; that there is none is no fault. -/
def bringResource (package : String) (resource : Value) : Run Unit := do
  let name ← Run.ofExcept (moduleName package resource)
  tryCatch (Library.bring name) fun fault => if isAbsence package name fault then pure () else throw fault

def stubOf (stubs : List (String × List Statement)) (resource : Value) : List Statement :=
  ((stubs.reverse.find? fun s => Value.equals resource (.text s.1)).map Prod.snd).getD []

def isAmong (resource : Value) (seen : List Value) : Bool := seen.any fun v => Value.equals v resource

/-- Loads the rules of a resource through the loader under a number. -/
def ensure (i : Nat) (resource : Value) : Run Unit := do
  match ← Run.read fun w => w.loaders[i]? with
  | none => return
  | some (.package name seen) =>
      if !resource.isKey then throw .wrongKind
      if isAmong resource seen then return
      -- Only a quiet end counts: after a fault the next need tries again.
      bringResource name resource
      Run.change fun w => { w with loaders := w.loaders.modify i fun
        | .package name seen => .package name (resource :: seen)
        | loader => loader }
  | some (.script stubs asked) =>
      Run.change fun w => { w with loaders := w.loaders.modify i fun
        | .script stubs asked => .script stubs (asked ++ [resource])
        | loader => loader }
      if !resource.isKey then throw .wrongKind
      if isAmong resource asked then return
      Statement.runAll Library.bring (stubOf stubs resource)

/-- Whether a resource has been looked up already; loaders of given statements keep no account of that. -/
def isLoaded (loader : Loader) (resource : Value) : Except Fault Bool :=
  match loader with
  | .package _ seen => if resource.isKey then .ok (isAmong resource seen) else .error .wrongKind
  | .script _ _ => .error .noAttribute

end Loader

end Gatehouse
