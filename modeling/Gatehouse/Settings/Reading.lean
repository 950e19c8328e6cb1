import Gatehouse.Arguments
import Gatehouse.Environment
import Gatehouse.Field
import Gatehouse.Trace.Files
import Gatehouse.Value.Equality

/-!
Where settings are found when they are not given: in secrets, which are files in a folder, in environment variables
and in arguments. Names are the same in any case unless it is said otherwise. Options say how settings are looked
for; an option that is null is as good as none. A file of variables, which counts less than the environment, is left
out.
-/

namespace Gatehouse.Settings

def names : List String :=
  ["fallback_resource", "relative_url_root", "log_path", "log_level", "log_tag", "lazy_load_package"]

/-- How settings are looked for. -/
structure Reading where
  /-- What stands before the name of a setting in the name of its variable. -/
  mark : String
  isCaseSensitive : Bool
  /-- Whether an empty variable counts as none. -/
  skipsEmpty : Bool
  /-- The text that stands for nothing at all; anything but a text if none does. -/
  nothing : Value
  /-- The folders of secrets, with what they hold under which names. -/
  secrets : List (List (String × Trace.Node)) := []
  /-- The settings that arguments give. -/
  arguments : List (String × Value) := []

def Reading.usual (env : Environment) : Reading :=
  { mark := env.mark, isCaseSensitive := false, skipsEmpty := false, nothing := .null }

/-- A setting that is written; the text that stands for nothing gives none. -/
def ofWritten (nothing : Value) (s : String) : Value :=
  if Value.equals (.text s) nothing then .null else .text s

/-! ## 1. Variables and secrets -/

namespace Reading

/-- A name in the form that names are compared in. -/
def fold (how : Reading) (name : String) : String := if how.isCaseSensitive then name else Text.lower name

def variableName (how : Reading) (setting : String) : String := how.fold (how.mark ++ setting)

/-- The variable of a setting; of several the last one counts. -/
def variableOf? (how : Reading) (env : Environment) (setting : String) : Option String :=
  (env.entries.reverse.find? fun v =>
    how.fold v.1 == how.variableName setting && !(how.skipsEmpty && v.2 == "")).map Prod.snd

/-- The secret of a setting in a folder. A folder in the place of the file is none. -/
def secretIn? (how : Reading) (setting : String) (folder : List (String × Trace.Node)) : Option String :=
  match folder.find? fun entry => how.fold entry.1 == how.variableName setting with
  | some (_, .file written) => some (Text.strip (String.intercalate "\n" written))
  | _ => none

/-- The secret of a setting; of several the one in the last folder counts. -/
def secret? (how : Reading) (setting : String) : Option String :=
  how.secrets.reverse.findSome? (how.secretIn? setting)

/-- The settings that are found; of several under one name the last one counts. -/
def found (how : Reading) (env : Environment) : List (String × Value) :=
  (names.filterMap fun name => (how.secret? name).map fun s => (name, .text s)) ++
    names.filterMap fun name => (how.variableOf? env name).map fun s => (name, ofWritten how.nothing s)

end Reading

/-! ## 2. Options -/

def option (given : List (String × Value)) (name : String) : Value := (Field.given? given name).getD .null

/-- Whether settings are marked: unless it is asked for another target than them. -/
def isMarked (target : Value) : Bool :=
  match target with
  | .null => true
  | target => Value.equals target (.text "variable") || Value.equals target (.text "all")

/-- What stands before the names of settings in those of variables. What has a length but is no text shows as soon as
a name is made with it. -/
def markOf (env : Environment) (mark target : Value) : Except Fault String :=
  if !isMarked target then .ok ""
  else match mark, mark.text? with
    | .null, _ => .ok env.mark
    | _, some mark => .ok mark
    | _, none => .error (.unreadableSettings (.unnamedVariable "fallback_resource"))

/-- The places that a value names: one, several or none. -/
def placesOf (v : Value) : Except Fault (List Trace.Path) :=
  let placeOf (v : Value) : Except Fault Trace.Path :=
    if v.text?.isSome then .ok (Trace.Path.ofText v.written) else .error .wrongKind
  match v, v.text?, v.items? with
  | .null, _, _ => .ok []
  | v, some _, _ => do return [← placeOf v]
  | v, none, some items => do
      let places ← items.mapM placeOf
      v.finish
      return places
  | _, none, none => .error .wrongKind

/-- What the folders at these places hold; places where nothing is are left out. -/
def secretsAt (files : Trace.Files) (places : List Trace.Path) :
    Except Fault (List (List (String × Trace.Node))) := do
  let nodes ← places.filterMapM fun p =>
    match files.lookUp? p with
    | .ok node => .ok node
    | .error f => .error (.file f)
  nodes.mapM fun (here, node) =>
    match node with
    | .folder => .ok (files.entriesOf here)
    | .file _ => .error (.unreadableSettings .secretsInFile)

/-! ## 3. Arguments as options -/

/-- Whether a text may stand before the names of arguments: names joined by points. -/
def isArgumentMark (cs : List Char) : Bool :=
  let isLetter (c : Char) : Bool := c.isAlpha || c == '_' || 0x7f < c.toNat
  let letters := cs.filter (· != '.')
  cs.head? != some '.' && cs.getLast? != some '.' && letters.head?.any isLetter &&
    letters.all fun c => isLetter c || c.isDigit

/-- What stands before the names of settings in those of arguments. -/
def argumentMarkOf (v : Value) : Except Fault String :=
  match v.truthy, v.text? with
  | false, _ => .ok ""
  | true, none => .error (if v.isNamed "startswith" then .wrongKind else .noAttribute)
  | true, some mark =>
      if isArgumentMark mark.toList then .ok (mark ++ ".")
      else .error (.unreadableSettings (.malformedMark mark))

/-- The text that stands for nothing in arguments. Their help shows it, unless nothing is hidden there. -/
def argumentNothing (given : List (String × Value)) : Except Fault Value :=
  let nothing := option given "_cli_parse_none_str"
  if !nothing.truthy then
    .ok (.text (match option given "_cli_avoid_json" with
      | .bool true => "None"
      | _ => "null"))
  else if nothing.text?.isSome || (option given "_cli_hide_none_type").truthy then .ok nothing
  else .error .wrongKind

/-- The arguments that a value gives, if any; a truth value gives none or an empty sequence. -/
def argumentItems? (v : Value) : Except Fault (Option (List Value)) :=
  if Value.equals v (.bool false) then .ok none
  else match v with
    | .bool true => .ok (some [])
    | .list xs => .ok (some xs)
    | .tuple xs => .ok (some xs)
    | v => .error (.unreadableSettings (.notArguments v))

def argumentText (v : Value) : Except Fault String :=
  match v.truthy, v.text? with
  | false, _ => .ok ""
  | true, some s => .ok s
  | true, none => .error .wrongKind

/-- What a problem with arguments comes to: the end of the program, unless that is not wanted. -/
def argumentFault (ends : Bool) : Arguments.Problem → Fault
  | .help => .foreign "SystemExit" "0"
  | problem =>
      if ends then .foreign "SystemExit" "2"
      else .unreadableSettings (.malformedArguments problem.message)

/-- Whether an option holds that does so where nothing is said about it. -/
def holdsUnlessDenied : Value → Bool
  | .null => true
  | v => v.truthy

def argumentsIn (given : List (String × Value)) : Except Fault (List (String × Value)) := do
  match option given "_cli_parse_args" with
  | .null => return []
  | arguments => do
      let style : Arguments.Style := {
        mark := ← argumentMarkOf (option given "_cli_prefix")
        isCaseSensitive := (option given "_case_sensitive").truthy
        hasHyphens := (option given "_cli_kebab_case").truthy }
      let nothing ← argumentNothing given
      match ← argumentItems? arguments with
      | none => return []
      | some items =>
          let skipsUnknown := (option given "_cli_ignore_unknown_args").truthy
          match style.read names skipsUnknown (← items.mapM argumentText) with
          | .ok values => return values.map fun (name, s) => (name, ofWritten nothing s)
          | .error problem =>
              throw (argumentFault (holdsUnlessDenied (option given "_cli_exit_on_error")) problem)

/-! ## 4. All together -/

/-- The way of looking for settings that options ask for. -/
def Reading.ofOptions (env : Environment) (files : Trace.Files) (given : List (String × Value)) :
    Except Fault Reading := do
  let mark := option given "_env_prefix"
  if !(mark.hasLength || Value.equals mark .null) then throw .wrongKind
  let arguments ← argumentsIn given
  let mark ← markOf env mark (option given "_env_prefix_target")
  let secrets ← secretsAt files (← placesOf (option given "_secrets_dir"))
  return {
    mark, secrets, arguments
    isCaseSensitive := (option given "_case_sensitive").truthy
    skipsEmpty := (option given "_env_ignore_empty").truthy
    nothing := option given "_env_parse_none_str" }

/-! ## 5. Facts -/

theorem option_nil (name : String) : option [] name = .null := rfl

/-- Without options settings are looked for in the customary way. -/
theorem Reading.ofOptions_nil (env : Environment) (files : Trace.Files) :
    Reading.ofOptions env files [] = .ok (Reading.usual env) := by
  simp [Reading.ofOptions, option_nil, argumentsIn, markOf, isMarked, placesOf, secretsAt, Value.equals,
    Reading.usual, bind, Except.bind, pure, Except.pure, Value.truthy]

end Gatehouse.Settings
