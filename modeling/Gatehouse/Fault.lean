import Gatehouse.Value.Display
import Gatehouse.Url.Host

/-!
What can go wrong, by cause. A missing rule is never a fault: it is a denial. Each fault knows its message, and
the faults of the authorization system itself know their code.
-/

namespace Gatehouse

inductive Subject where
  | action
  | resource
  deriving DecidableEq, Repr

namespace Subject

def title : Subject → String
  | .action => "Action"
  | .resource => "Resource"

def word : Subject → String
  | .action => "action"
  | .resource => "resource"

end Subject

inductive Misconfiguration where
  | notAName (subject : Subject) (kind : String)
  | malformedName (subject : Subject) (value : Value)
  | idsNotAMapping (kind : String)
  | noRoles
  | malformedKey (value : Value)
  | conditionNotCallable
  | noActions
  | frozen (resource : String)
  | clearedFrozen
  | unusableTarget (kind : String)
  | noResolver
  | noResource
  | noAction
  | targetAndOptions
  | relativeTemplate (template : Value)
  /-- One that the application declares, with whatever it gives for a message. -/
  | declared (message : Value)

inductive Ambiguity where
  | notAbsolute (target : Value)
  | noRoute (path : Value)
  | incomplete (target : Value)
  /-- One that the application declares, with whatever it gives for a message. -/
  | declared (message : Value)

/-- A value of the right kind that cannot be used. -/
inductive BadValue where
  | url (fault : UrlFault)
  | repeatedParameters (names : List String) (template : String)
  | tooManyDigits (count : Nat)
  | notAPair (index length : Nat)
  | emptyModuleName
  | nullInClassName
  | nullByte
  | badVariableName
  | incompletePlaceholder
  | unknownPlaceholder (c : Char) (index : Nat)
  /-- No number, where an integer is needed. -/
  | notANumber
  /-- No number, where seconds are needed. -/
  | notATime
  | unknownLevel (level : Value)
  /-- A double that no document can hold. -/
  | notFinite
  /-- A name that a group of names needs for itself. -/
  | reservedName (name : String)
  /-- A name that no group of names can have. -/
  | impossibleName (name : String)
  /-- What an integer cannot be made of. -/
  | notAnInteger (value : Value)
  /-- One whose message has been made before. -/
  | told (message : String)

/-- A number too large for what is made of it. -/
inductive OutOfRange where
  | integer
  /-- Seconds that no clock counts. -/
  | clock
  /-- A moment beyond the last year of the calendar. -/
  | calendar
  /-- A year that cannot be written. -/
  | year
  deriving DecidableEq, Repr

/-- Why the file system refuses a log file. Everything may be read and written, and there is always room: refusals for
want of a permission or of space are left out. -/
inductive FileFault where
  | exists_
  | notADirectory
  | isADirectory
  | notFound
  | nameTooLong
  deriving DecidableEq, Repr

/-- Why settings cannot be read at all. -/
inductive SettingsFault where
  /-- A setting whose variable cannot even be named. -/
  | unnamedVariable (setting : String)
  /-- A place of secrets that is a file. -/
  | secretsInFile
  /-- Arguments that are no sequence. -/
  | notArguments (value : Value)
  /-- Something in front of the names of arguments that no name can begin with. -/
  | malformedMark (mark : String)
  /-- Arguments that say nothing. -/
  | malformedArguments (problem : String)

/-- Anything that ends an operation without a result. -/
inductive Fault where
  | misconfigured (cause : Misconfiguration)
  | ambiguous (cause : Ambiguity)
  /-- A denial that the caller wanted as a fault. -/
  | denied (resource action reason : Value)
  /-- A fault of the authorization system with a message and a code of its own. -/
  | general (message code : Value)
  | invalid (issues : List (String × Issue))
  /-- A module that is not there; the name is the one that was looked for. -/
  | noModule (name : Option String) (message : String)
  | wrongKind
  | noAttribute
  | badValue (cause : BadValue)
  | outOfRange (cause : OutOfRange)
  | unknownConvertor (name : String)
  | file (cause : FileFault)
  /-- An argument that the system refuses. -/
  | invalidArgument
  /-- A principal that cannot describe itself. -/
  | noDescription
  | tooDeep (cause : Depth)
  | unreadableSettings (cause : SettingsFault)
  /-- Whatever a condition, a rule module or a host raises on its own account. -/
  | foreign (kind message : String)

/-! ## Messages -/

namespace Misconfiguration

def message : Misconfiguration → String
  | .notAName subject kind =>
      subject.title ++ " should be a string or an enum member -- not a " ++ kind ++ "!"
  | .malformedName subject value =>
      "Malformed " ++ subject.word ++ " identifier: " ++ value.shown
  | .idsNotAMapping kind => "ids should be a mapping -- not a " ++ kind ++ "!"
  | .noRoles => "A rule needs at least one role (or ALL)"
  | .malformedKey value => "Malformed object id key: " ++ value.shown
  | .conditionNotCallable => "Rule condition must be callable"
  | .noActions => "permit() requires at least one action"
  | .frozen resource => "Cannot add rules for " ++ resource ++ ": the rule registry is frozen"
  | .clearedFrozen => "Cannot clear a frozen rule registry"
  | .unusableTarget kind => "Cannot build an authorization request from " ++ kind
  | .noResolver => "No route resolver configured for path targets"
  | .noResource => "No resource given and no host to supply the current one"
  | .noAction => "No action given for authorization check"
  | .targetAndOptions => "Pass either a target or keyword options, not both"
  | .relativeTemplate template => "Route template must start with '/': " ++ template.shown
  | .declared message => message.written

end Misconfiguration

namespace Ambiguity

def message : Ambiguity → String
  | .notAbsolute target => "Not an absolute path: " ++ target.shown
  | .noRoute path => "No route matches path " ++ path.shown
  | .incomplete target => "Path " ++ target.shown ++ " has no resource/action"
  | .declared message => message.written

end Ambiguity

namespace BadValue

def message : BadValue → String
  | .url fault => fault.message
  | .repeatedParameters names template =>
      "Duplicated param name" ++ (if 1 < names.length then "s" else "") ++ " " ++
        String.intercalate ", " names ++ " at path " ++ template
  | .tooManyDigits count =>
      "Exceeds the limit (4300 digits) for integer string conversion: value has " ++ toString count ++
        " digits; use sys.set_int_max_str_digits() to increase the limit"
  | .notAPair index length =>
      "dictionary update sequence element #" ++ toString index ++ " has length " ++ toString length ++
        "; 2 is required"
  | .emptyModuleName => "Empty module name"
  | .nullInClassName => "type name must not contain null characters"
  | .nullByte => "embedded null byte"
  | .badVariableName => "illegal environment variable name"
  | .incompletePlaceholder => "incomplete format"
  | .unknownPlaceholder c index =>
      "unsupported format character '" ++ String.singleton c ++ "' (0x" ++
        String.ofList (Nat.toDigits 16 c.toNat) ++ ") at index " ++ toString index
  | .notANumber => "cannot convert float NaN to integer"
  | .notATime => "Invalid value NaN (not a number)"
  | .unknownLevel level => "Unknown level: " ++ level.shown
  | .notFinite => "Out of range float values are not JSON compliant"
  | .reservedName name =>
      "_sunder_ names, such as " ++ Text.quoted name ++ ", are reserved for future Enum use"
  | .impossibleName name => "invalid enum member name(s) " ++ Text.quoted name
  | .notAnInteger value =>
      "invalid literal for int() with base 10: " ++ String.ofList (value.shown.toList.take 200)
  | .told message => message

end BadValue

namespace OutOfRange

def message : OutOfRange → String
  | .integer => "cannot convert float infinity to integer"
  | .clock => "timestamp out of range for platform time_t"
  | .calendar => "Value too large for defined data type"
  | .year => "signed integer is greater than maximum"

end OutOfRange

namespace FileFault

def message : FileFault → String
  | .exists_ => "File exists"
  | .notADirectory => "Not a directory"
  | .isADirectory => "Is a directory"
  | .notFound => "No such file or directory"
  | .nameTooLong => "File name too long"

end FileFault

namespace SettingsFault

def message : SettingsFault → String
  | .unnamedVariable setting =>
      "error getting value for field \"" ++ setting ++ "\" from source \"EnvSettingsSource\""
  | .secretsInFile => "secrets_dir must reference a directory, not a file"
  | .notArguments value =>
      "cli_parse_args must be a list or tuple of strings, received <" ++
        (if value.isMember then "enum" else "class") ++ " '" ++ value.kind ++ "'>"
  | .malformedMark mark => "CLI settings source prefix is invalid: " ++ mark
  | .malformedArguments problem => "error parsing CLI: " ++ problem

end SettingsFault

namespace Depth

def message (depth : Depth) : String :=
  "maximum recursion depth exceeded" ++
    match depth with
    | .runs => ""
    | .calls => " while calling a Python object"
    | .forms => " while getting the repr of an object"
    | .comparisons => " in comparison"
    | .documents => " while encoding a JSON object"

end Depth

namespace Value

/-- The plain form of a value, in a room of this size. -/
def writtenIn? (room : Nat) (v : Value) : Except Fault String :=
  match v.writtenOverflow? room with
  | some depth => .error (.tooDeep depth)
  | none => .ok v.written

/-- The plain form of a value; one that goes too deep has none. -/
def written? (v : Value) : Except Fault String := v.writtenIn? formRoom

/-- The form of a value in messages; one that goes too deep has none. -/
def shown? (v : Value) : Except Fault String :=
  match v.overflow? formRoom with
  | some depth => .error (.tooDeep depth)
  | none => .ok v.shown

@[simp] theorem written?_text (s : String) : (text s).written? = .ok s := by
  simp [written?, writtenIn?, writtenOverflow?_text, formRoom]

end Value

namespace Fault

/-- A fault whose message shows a value; if that goes too deep, this is the fault. -/
def showing (v : Value) (f : Fault) : Fault :=
  match v.shown? with
  | .ok _ => f
  | .error deeper => deeper

def ofIssues (issues : List (String × Issue)) : Fault :=
  (issues.findSome? fun
    | (_, .tooDeep depth) => some (.tooDeep depth)
    | _ => none).getD (.invalid issues)

/-- The reason of a denial for which none is given. -/
def generalReason (resource action : Value) : Except Fault Value := do
  return .text ("Access to " ++ (← resource.written?) ++ ":" ++ (← action.written?) ++ " denied")

/-- The denial of `action` on `resource`, with the reason that is given or a general one. -/
def denial (resource action reason : Value) : Fault :=
  if reason.truthy then .denied resource action reason
  else match generalReason resource action with
    | .ok reason => .denied resource action reason
    | .error deeper => deeper

/-- The text of a fault; faults that only have a kind have none. -/
def message : Fault → String
  | .misconfigured cause => cause.message
  | .ambiguous cause => cause.message
  | .denied _ _ reason => reason.written
  | .general message _ => message.written
  | .invalid _ => ""
  | .noModule _ message => message
  | .wrongKind => ""
  | .noAttribute => ""
  | .badValue cause => cause.message
  | .outOfRange cause => cause.message
  | .unknownConvertor name => "Unknown path convertor '" ++ name ++ "'"
  | .file cause => cause.message
  | .invalidArgument => "Invalid argument"
  | .noDescription => "no description"
  | .tooDeep depth => depth.message
  | .unreadableSettings cause => cause.message
  | .foreign _ message => message

/-- The message of a fault as it was given, which may be no text; all other faults have their text. -/
def messageValue : Fault → Value
  | .misconfigured (.declared message) => message
  | .ambiguous (.declared message) => message
  | .denied _ _ reason => reason
  | .general message _ => message
  | f => .text f.message

def code? : Fault → Option Value
  | .misconfigured _ => some (.text "configuration_error")
  | .ambiguous _ => some (.text "ambiguous_input")
  | .denied _ _ _ => some (.text "access_denied")
  | .general _ code => some code
  | _ => none

/-- Whether a fault is one of the authorization system's own. -/
def isOwn (f : Fault) : Bool := f.code?.isSome

def isMisconfiguration : Fault → Bool
  | .misconfigured _ => true
  | _ => false

def isAmbiguity : Fault → Bool
  | .ambiguous _ => true
  | _ => false

/-- The authorization system's own kinds of fault, which an application may make too. -/
inductive Own where
  | general
  | misconfigured
  | ambiguous
  | denied
  deriving DecidableEq, Repr

/-- The fault of an own kind with the given arguments, if that kind takes so many. -/
def Own.fault? : Own → List Value → Option Fault
  | .general, [message] => some (.general message (.text "authorization_error"))
  | .general, [message, code] => some (.general message code)
  | .misconfigured, [message] => some (.misconfigured (.declared message))
  | .ambiguous, [message] => some (.ambiguous (.declared message))
  | .denied, [resource, action] => some (denial resource action .null)
  | .denied, [resource, action, reason] => some (denial resource action reason)
  | _, _ => none

/-- The fault that a sequence ends with where an item of it cannot be made. -/
def ofBreak : Break → Fault
  | .wrongKind => .wrongKind
  | .invalid issues => .invalid issues
  | .idsNotAMapping kind => .misconfigured (.idsNotAMapping kind)
  | .badValue message => .badValue (.told message)
  | .tooLarge => .outOfRange .integer
  | .tooDeep depth => .tooDeep depth

/-- What a fault in the making of an item is to the sequence. -/
def toBreak : Fault → Break
  | .invalid issues => .invalid issues
  | .misconfigured (.idsNotAMapping kind) => .idsNotAMapping kind
  | .badValue cause => .badValue cause.message
  | .outOfRange _ => .tooLarge
  | .tooDeep depth => .tooDeep depth
  | _ => .wrongKind

/-- A sequence ends with the fault that broke it off. -/
theorem toBreak_ofBreak (b : Break) : (ofBreak b).toBreak = b := by
  cases b <;> rfl

/-- The text of a fault is the text of its message, however that was given. -/
theorem written_messageValue (f : Fault) : f.messageValue.written = f.message := by
  cases f with
  | misconfigured cause => cases cause <;> rfl
  | ambiguous cause => cases cause <;> rfl
  | _ => rfl

end Fault

/-! ## Sequences that break off -/

namespace Value

/-- What happens behind the last item of a value. -/
def finish (v : Value) : Except Fault Unit :=
  match v.break? with
  | some b => .error (.ofBreak b)
  | none => .ok ()

/-- The items up to the first one that cannot be made, and why it cannot. -/
def made : List (Except Fault Value) → List Value × Option Break
  | [] => ([], none)
  | .error f :: _ => ([], some f.toBreak)
  | .ok v :: rest => (v :: (made rest).1, (made rest).2)

/-- A sequence that can be gone through once, in which each item is made when it is its turn. -/
def onceOf (items : List (Except Fault Value)) : Value := .once (made items).1 (made items).2

theorem made_map_ok (vs : List Value) : made (vs.map .ok) = (vs, none) := by
  induction vs with
  | nil => rfl
  | cons v rest ih => simp [made, ih]

theorem finish_onceOf_map_ok (vs : List Value) : (onceOf (vs.map .ok)).finish = .ok () := by
  simp [onceOf, finish, break?, made_map_ok]

end Value

end Gatehouse
