import Gatehouse.Fault

/-!
Message templates. `%s` stands for the plain form of an argument, `%d` for an integer, `%%` for a percent
sign. Every argument has to be used; without arguments the template is the message.
-/

namespace Gatehouse.Text

/-- The integer that `%d` writes for a value; fractions are cut off. -/
def integerFor (v : Value) : Except Fault Int :=
  match v.number? with
  | some n =>
      match n.ratio? with
      | some (num, den) => .ok (num.tdiv den)
      | none =>
          .error (match n with
            | .real .nan => .badValue .notANumber
            | _ => .outOfRange .integer)
  | none => .error .wrongKind

def fillOne (c : Char) (index : Nat) (arg : Value) : Except Fault String :=
  if c = 's' then arg.written?
  else if c = 'd' then do return toString (← integerFor arg)
  else .error (.badValue (.unknownPlaceholder c index))

/-- Fills the placeholders from left to right; `index` counts the characters before the rest. -/
def fillFrom (strict : Bool) (index : Nat) : List Char → List Value → Except Fault (List Char)
  | [], args => if strict && !args.isEmpty then .error .wrongKind else .ok []
  | '%' :: '%' :: rest, args => do
      return '%' :: (← fillFrom strict (index + 2) rest args)
  | '%' :: c :: rest, args =>
      match args with
      | [] => .error .wrongKind
      | arg :: args => do
          let filled ← fillOne c (index + 1) arg
          return filled.toList ++ (← fillFrom strict (index + 2) rest args)
  | ['%'], _ => .error (.badValue .incompletePlaceholder)
  | c :: rest, args => do
      return c :: (← fillFrom strict (index + 1) rest args)

/-- A lone mapping with entries need not be used up. -/
def isLoneMapping : List Value → Bool
  | [.dict (_ :: _)] => true
  | _ => false

def fill (template : String) (args : List Value) : Except Fault String :=
  if args.isEmpty then .ok template
  else do return String.ofList (← fillFrom (!isLoneMapping args) 0 template.toList args)

/-- The message of whatever is given for a template, and its arguments. -/
def messageOf (template : Value) (args : List Value) : Except Fault String := do
  fill (← template.written?) args

theorem fill_nil (template : String) : fill template [] = .ok template := rfl

end Gatehouse.Text
