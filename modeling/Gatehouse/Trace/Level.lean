import Gatehouse.Fault
import Gatehouse.Value.Equality

/-!
Levels of trace lines: a rank, and the name that a line shows for it.
-/

namespace Gatehouse.Trace

structure Level where
  rank : Int
  name : String
  deriving DecidableEq, Repr

namespace Level

/-- The name shown for a rank; `other` names those that have none of their own. -/
def nameOr (other : String) (rank : Int) : String :=
  if rank = 50 then "CRITICAL"
  else if rank = 40 then "ERROR"
  else if rank = 30 then "WARNING"
  else if rank = 20 then "INFO"
  else if rank = 10 then "DEBUG"
  else if rank = 0 then "NOTSET"
  else "Level " ++ other

def nameOf (rank : Int) : String := nameOr (toString rank) rank

def ofRank (rank : Int) : Level := ⟨rank, nameOf rank⟩

def debug : Level := ofRank 10

def info : Level := ofRank 20

/-- The rank that a level's name stands for, in capitals. -/
def rankOf? (name : String) : Option Int :=
  if name = "CRITICAL" || name = "FATAL" then some 50
  else if name = "ERROR" then some 40
  else if name = "WARNING" || name = "WARN" then some 30
  else if name = "INFO" then some 20
  else if name = "DEBUG" then some 10
  else if name = "NOTSET" then some 0
  else none

/-- A letter in capitals, as far as level names are written with it. -/
def capital (c : Char) : Char :=
  if c = 'ı' then 'I' else if c = 'ſ' then 'S' else c.toUpper

/-- The level that a value names: a level's name in any case, or a rank. -/
def ofValue? (v : Value) : Option Level :=
  match v.number?, v.text? with
  | some (.int rank), _ => some ⟨rank, nameOr v.written rank⟩
  | none, some s => if v.isNamed "upper" then none else (rankOf? (String.ofList (s.toList.map capital))).map ofRank
  | _, _ => none

/-- What a line shows for its level, whatever was given for one: the name of a rank, the rank of an exact name. -/
def shownFor (v : Value) : Except Fault String :=
  match v.number?.bind Number.whole?, v.text?.bind rankOf? with
  | some rank, _ => .ok (nameOr v.written rank)
  | none, some rank => .ok (toString rank)
  | none, none =>
      if !v.isKey then .error .wrongKind
      else match v with
        -- A tuple is taken for the arguments of the name; there has to be one.
        | .tuple [x] => do return "Level " ++ (← x.written?)
        | .tuple _ => .error .wrongKind
        | v => do return "Level " ++ (← v.written?)

/-- The rank that a log is set to by a value: a rank, or the exact name of a level. -/
def setting (v : Value) : Except Fault Int :=
  match v.number?, v.text? with
  | some (.int rank), _ => .ok rank
  | none, some s =>
      if v.written != s then .error .wrongKind
      else match rankOf? s with
        | some rank => .ok rank
        | none => .error (.badValue (.unknownLevel v))
  | _, _ => .error (.showing v .wrongKind)

/-- The rank from which on lines are kept when none was set. -/
def defaultRank : Int := 30

@[simp] theorem rank_debug : debug.rank = 10 := rfl

@[simp] theorem rank_info : info.rank = 20 := rfl

end Level

end Gatehouse.Trace
