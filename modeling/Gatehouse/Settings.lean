import Gatehouse.Settings.Reading
import Gatehouse.Trace.Level

/-!
Settings of the authorization system. They come from values given by name and, where none is given, from what is
found. Given names are the same in any case. Arguments count more than anything else.
-/

namespace Gatehouse

structure Settings where
  /-- The resource scanned after the requested one; it holds the rules for the whole application. -/
  fallbackResource : Value
  /-- The path under which the application is mounted. -/
  relativeUrlRoot : String
  logPath : Option String
  logLevel : String
  logTag : String
  /-- The package whose modules declare the rules of the resources they are named for. -/
  lazyLoadPackage : Option String
  deriving Repr

namespace Settings

def logLevels : List String := ["DEBUG", "INFO", "WARNING", "ERROR"]

/-- Settings from fields; of several fields of one name the last one counts. -/
def ofFields (fields : List (String × Value)) : Except Fault Settings :=
  let fallbackResource := Field.optional "application" Field.text fields "fallback_resource"
  let relativeUrlRoot := Field.optional "" Field.text fields "relative_url_root"
  let logPath := Field.optional (some "log/authorization.log") Field.textOrNull fields "log_path"
  let logLevel := Field.optional "DEBUG" (Field.among logLevels) fields "log_level"
  let logTag := Field.optional "Auth |" Field.text fields "log_tag"
  let lazyLoadPackage := Field.optional none Field.textOrNull fields "lazy_load_package"
  match fallbackResource, relativeUrlRoot, logPath, logLevel, logTag, lazyLoadPackage with
  | .ok fallbackResource, .ok relativeUrlRoot, .ok logPath, .ok logLevel, .ok logTag,
      .ok lazyLoadPackage =>
      .ok { fallbackResource := .text fallbackResource, relativeUrlRoot, logPath, logLevel, logTag,
            lazyLoadPackage }
  | _, _, _, _, _, _ =>
      .error (.ofIssues (Field.issue "fallback_resource" fallbackResource ++
        Field.issue "relative_url_root" relativeUrlRoot ++ Field.issue "log_path" logPath ++
        Field.issue "log_level" logLevel ++ Field.issue "log_tag" logTag ++
        Field.issue "lazy_load_package" lazyLoadPackage))

/-- Settings from what is given by name and what is found. -/
def load (env : Environment) (how : Reading) (given : List (String × Value)) : Except Fault Settings :=
  let given := (Field.ofPairs given).map fun (name, v) => (Text.lower name, v)
  -- Of names that differ in case only the first one counts.
  ofFields (how.found env ++ given.reverse ++ how.arguments)

/-- Settings from what is given by name, options among it. -/
def ofGiven (env : Environment) (files : Trace.Files) (given : List (String × Value)) :
    Except Fault Settings := do
  load env (← Reading.ofOptions env files given) given

def toFields (s : Settings) : List (String × Value) :=
  [("fallback_resource", s.fallbackResource), ("relative_url_root", .text s.relativeUrlRoot),
    ("log_path", .ofText? s.logPath), ("log_level", .text s.logLevel), ("log_tag", .text s.logTag),
    ("lazy_load_package", .ofText? s.lazyLoadPackage)]

/-- Whether resources are looked up in a package when they are first needed. -/
def lazyLoading (s : Settings) : Bool :=
  match s.lazyLoadPackage with
  | some package => package != ""
  | none => false

def logRank (s : Settings) : Int := (Trace.Level.rankOf? s.logLevel).getD Trace.Level.defaultRank

/-- With nothing given, settings are what is found in the customary way. -/
theorem ofGiven_nil (env : Environment) (files : Trace.Files) :
    ofGiven env files [] = load env (Reading.usual env) [] := by
  simp [ofGiven, Reading.ofOptions_nil, bind, Except.bind]

end Settings

end Gatehouse
