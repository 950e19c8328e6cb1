import Gatehouse.Fault
import Gatehouse.Number.Numeral

/-!
Fields of records, read from values with the usual leniency: bytes and group members pass for texts, numerals
and the customary words for truth values. A record is refused with all its bad fields, in their order.
-/

namespace Gatehouse.Field

abbrev Reading (α : Type) := Except Issue α

/-! ## 1. The fields given -/

/-- Puts a field under its name: over the one that is there, else last. -/
def put : List (String × Value) → String → Value → List (String × Value)
  | [], name, value => [(name, value)]
  | (n, v) :: rest, name, value =>
      if n = name then (n, value) :: rest else (n, v) :: put rest name value

/-- Fields each of which stands once: at its first place, with its last value. -/
def ofPairs (pairs : List (String × Value)) : List (String × Value) :=
  pairs.foldl (fun fields (name, v) => put fields name v) []

/-- The value given for a field; of several the last one counts. -/
def given? (fields : List (String × Value)) (name : String) : Option Value :=
  (fields.reverse.find? fun f => f.1 == name).map Prod.snd

def required (read : Value → Reading α) (fields : List (String × Value)) (name : String) : Reading α :=
  match given? fields name with
  | some v => read v
  | none => .error .missing

def optional (default : α) (read : Value → Reading α) (fields : List (String × Value))
    (name : String) : Reading α :=
  match given? fields name with
  | some v => read v
  | none => .ok default

/-- The issue with one field, under its name. -/
def issue (name : String) : Reading α → List (String × Issue)
  | .ok _ => []
  | .error i => [(name, i)]

/-! ## 2. Kinds of fields -/

def any (v : Value) : Reading Value := .ok v

/-- The text that bytes spell, if they are UTF-8. -/
def textOfBytes? (bs : List UInt8) : Option String := String.fromUTF8? ⟨bs.toArray⟩

/-- The text that a value is, or that its bytes spell; bytes that spell none have the given issue. -/
def spelled? (garbled : Issue) (v : Value) : Option (Reading String) :=
  match v with
  | .bytes bs => some ((textOfBytes? bs).elim (.error garbled) .ok)
  | v => v.text?.map .ok

def text (v : Value) : Reading String :=
  match v with
  | .member _ _ value _ =>
      match value.writtenOverflow? Value.formRoom with
      | some depth => .error (.tooDeep depth)
      | none => .ok value.written
  | .intMember _ _ i => .ok (toString i)
  | v => (spelled? .notUtf8 v).getD (.error .notText)

def textOrNull (v : Value) : Reading (Option String) :=
  match v with
  | .null => .ok none
  | v => (text v).map some

def among (texts : List String) (v : Value) : Reading String :=
  match v.text? with
  | some s => if texts.contains s then .ok s else .error .notAmong
  | none => .error .notAmong

/-- The bound of the integers of 64 bits. -/
def wordBound : Int := Binary64.powerOfTwo 63

/-- The integer that a double is: one without a fraction, between the bounds. -/
def wholeDouble (x : Binary64) : Reading Int :=
  match x.ratio? with
  | none => .error .notFinite
  | some (num, den) =>
      if num % (den : Int) ≠ 0 then .error .fraction
      else if -wordBound < num / den && num / den < wordBound then .ok (num / den)
      else .error .tooLarge

/-- The integer of 64 bits that a number is, if it is one. -/
def word? : Number → Option Int
  | .int i => if -wordBound ≤ i && i < wordBound then some i else none
  | .real x => (wholeDouble x).toOption

def wordsForTrue : List String := ["1", "on", "t", "true", "y", "yes"]

def wordsForFalse : List String := ["0", "off", "f", "false", "n", "no"]

/-- The truth value that a word stands for, in any case. -/
def boolOfWord (s : String) : Reading Bool :=
  let word := String.ofList (s.toList.map Char.toLower)
  if wordsForTrue.contains word then .ok true
  else if wordsForFalse.contains word then .ok false
  else .error .unreadableBool

/-- A truth value: itself, zero or one, or a word for it. -/
def bool (v : Value) : Reading Bool :=
  match v with
  | .bool b => .ok b
  | v =>
      match spelled? .unreadableBool v, v.number?.bind word? with
      | some word, _ => word.bind boolOfWord
      | none, some 0 => .ok false
      | none, some 1 => .ok true
      | none, some _ => .error .unreadableBool
      | none, none => .error .notBool

def integerOfText (s : String) : Reading Int :=
  match Numeral.read s with
  | .ok i => .ok i
  | .error .tooLong => .error .tooLarge
  | .error .malformed => .error .unreadableInteger

/-- An integer: itself, a double without a fraction, or its digits. A member of a group of names is taken for what
it stands for, whatever that is. -/
def integer (v : Value) : Reading Value :=
  match v with
  | .member _ _ value _ => .ok value
  | v =>
      match spelled? .unreadableInteger v, v.number? with
      | some s, _ => (s.bind integerOfText).map .int
      | none, some (.int i) => .ok (.int i)
      | none, some (.real x) => (wholeDouble x).map .int
      | none, none => .error .notInteger

/-- How a key is named in an issue; truth values are numbers there. -/
def keyName (k : Value) : String :=
  match k with
  | .bool b => if b then "1" else "0"
  | k =>
      match k.text?, k.overflow? Value.formRoom with
      | some s, _ => s
      | none, none => k.shown
      | none, some _ => "<unprintable " ++ k.kind ++ " object>"

/-- A mapping with textual keys; every other key is an issue of its own, and keys that give the same text are
one. -/
def mapping (name : String) (v : Value) : Except (List (String × Issue)) (List (String × Value)) :=
  match v with
  | .dict entries =>
      let issues := entries.filterMap fun (k, _) =>
        match text k with
        | .ok _ => none
        | .error i => some (name ++ "." ++ keyName k ++ ".[key]", i)
      if issues.isEmpty then
        .ok (ofPairs (entries.filterMap fun (k, value) => (text k).toOption.map (·, value)))
      else .error issues
  | _ => .error [(name, .notAMapping)]

theorem given?_nil (name : String) : given? [] name = none := rfl

end Gatehouse.Field
