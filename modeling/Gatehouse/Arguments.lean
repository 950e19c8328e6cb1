import Gatehouse.Text.Quoted
import Gatehouse.Text.Blank
import Gatehouse.Text.Lower
import Gatehouse.Text.Pieces
import Gatehouse.Text.Digit

/-!
Arguments that give values to names: `--name value` or `--name=value`, the last of several counting. Whatever else
stands among them is either skipped or a problem, and so is a name without a value.
-/

namespace Gatehouse.Arguments

structure Style where
  /-- What stands between the dashes and a name. -/
  mark : String
  isCaseSensitive : Bool
  /-- Whether hyphens stand for the underscores of names. -/
  hasHyphens : Bool

/-- Why arguments say nothing. -/
inductive Problem where
  /-- They ask for help. -/
  | help
  /-- They ask for help and give a value to it. -/
  | superfluous (value : String)
  | noValue (option : String)
  | unknown (arguments : List String)

namespace Problem

def message : Problem → String
  | .help => ""
  | .superfluous value => "argument -h/--help: ignored explicit argument " ++ Text.quoted value
  | .noValue option => "argument " ++ option ++ ": expected one argument"
  | .unknown arguments => "unrecognized arguments: " ++ String.intercalate " " arguments

end Problem

/-! ## 1. Single arguments -/

def Style.optionOf (style : Style) (name : String) : String :=
  "--" ++ style.mark ++
    if style.hasHyphens then String.ofList (name.toList.map fun c => if c = '_' then '-' else c) else name

inductive Kind where
  /-- An option, with what stands behind its equals sign. -/
  | option (name : String) (value : Option String)
  /-- The option that asks for help, with what stands behind its equals sign. -/
  | help (value : Option String)
  /-- The mark behind which there are no options any more. -/
  | divider
  /-- What looks like an option and is none. -/
  | unknown
  | plain
  deriving DecidableEq

/-- Whether a text is a negative number, which is no option; a line may end behind it. -/
def isNegative (cs : List Char) : Bool :=
  match if cs.getLast? == some '\n' then cs.dropLast else cs with
  | '-' :: rest =>
      match Text.cut '.' rest with
      | (whole, none) => !whole.isEmpty && whole.all Text.isDecimal
      | (whole, some fraction) =>
          whole.all Text.isDecimal && !fraction.isEmpty && fraction.all Text.isDecimal
  | _ => false

/-- What stands behind the option that asks for help, if a text begins with it. Only a sign gives it a value. -/
def help? (cs : List Char) : Option (Option String) :=
  match cs, Text.cut '=' cs with
  | _, (['-', '-', 'h', 'e', 'l', 'p'], value) => some (value.map String.ofList)
  | '-' :: 'h' :: '=' :: value, _ => some (some (String.ofList value))
  | '-' :: 'h' :: '-' :: value, _ => some (some (String.ofList ('-' :: value)))
  | '-' :: 'h' :: _, _ => some none
  | _, _ => none

/-- What an argument is; `names` are those that values are given to. -/
def Style.kindOf (style : Style) (names : List String) (argument : String) : Kind :=
  let cs := argument.toList
  let named (option : List Char) : Option String :=
    names.find? fun name => (style.optionOf name).toList == option
  if argument == "--" then .divider
  else if cs.head? != some '-' || cs.length == 1 then .plain
  else match help? cs, named cs, Text.cut '=' cs with
    | some value, _, _ => .help value
    | none, some name, _ => .option name none
    | none, none, (option, value) =>
        match value, named option with
        | some value, some name => .option name (some (String.ofList value))
        | _, _ => if isNegative cs || cs.contains ' ' then .plain else .unknown

/-- An argument as it is compared: without regard to case, the name of an option stands in small letters, and nothing
counts behind its first line. -/
def Style.folded (style : Style) (argument : String) : String :=
  let cs := argument.toList
  let ends (c : Char) : Bool := Text.isBlank c || c == '='
  match style.isCaseSensitive, cs with
  | false, '-' :: c :: _ =>
      if ends c then argument
      else Text.lower (String.ofList (cs.takeWhile fun c => !ends c)) ++
        String.ofList ((cs.dropWhile fun c => !ends c).takeWhile (· != '\n'))
  | _, _ => argument

/-! ## 2. All arguments -/

/-- The values given to names, and the arguments that are left over. -/
structure Outcome where
  values : List (String × String) := []
  rest : List String := []

/-- Reads arguments from the first one on; behind a divider there are no options. -/
def Style.readFrom (style : Style) (names : List String) : (divided : Bool) → List String → Except Problem Outcome
  | _, [] => .ok {}
  | divided, argument :: rest =>
      let left (divided : Bool) : Except Problem Outcome := do
        let outcome ← style.readFrom names divided rest
        return { outcome with rest := argument :: outcome.rest }
      if divided then left true
      else match style.kindOf names argument with
        | .divider => left true
        | .plain => left false
        | .unknown => left false
        | .help none => .error .help
        | .help (some value) => .error (.superfluous value)
        | .option name (some value) => do
            let outcome ← style.readFrom names false rest
            return { outcome with values := (name, value) :: outcome.values }
        | .option name none =>
            match rest with
            | [] => .error (.noValue (style.optionOf name))
            | value :: rest =>
                if style.kindOf names value = .plain then do
                  let outcome ← style.readFrom names false rest
                  return { outcome with values := (name, value) :: outcome.values }
                else .error (.noValue (style.optionOf name))

def Style.read (style : Style) (names : List String) (skipsUnknown : Bool) (arguments : List String) :
    Except Problem (List (String × String)) := do
  let outcome ← style.readFrom names false (arguments.map style.folded)
  if !skipsUnknown && !outcome.rest.isEmpty then throw (.unknown outcome.rest)
  return outcome.values

/-! ## 3. Facts -/

theorem read_nil (style : Style) (names : List String) (skipsUnknown : Bool) :
    style.read names skipsUnknown [] = .ok [] := by
  simp [Style.read, Style.readFrom, bind, Except.bind, pure, Except.pure]

end Gatehouse.Arguments
