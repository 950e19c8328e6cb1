import Gatehouse.Trace.Level
import Gatehouse.Trace.Files
import Gatehouse.Text.Placeholder
import Gatehouse.Number.Calendar

/-!
The trace log. Lines are kept from a level on and go to every handler that is attached: one of the library's
own, which writes tagged lines to a file or to the console, and others that only listen. Tracing is an account
of what happens and never a part of it: a line that cannot be written is lost without a word.
-/

namespace Gatehouse.Trace

inductive Destination where
  | file (path : String)
  | console
  deriving DecidableEq, Repr

inductive Handler where
  /-- The handler of this library. -/
  | own (destination : Destination) (tag : String)
  /-- Anybody else's handler; it hears every line that is kept. Such handlers are counted and not told apart. -/
  | listener
  deriving DecidableEq, Repr

def Handler.isOwn : Handler → Bool
  | .own _ _ => true
  | .listener => false

structure Log where
  /-- The level that was set. -/
  level : Option Int
  /-- The rank from which on lines are kept while no level is set. -/
  inherited : Int
  handlers : List Handler
  files : Files
  console : List String
  /-- What listeners heard. -/
  heard : List String
  /-- Seconds since 1970, for the time in tagged lines. -/
  clock : Int
  deriving Repr

namespace Log

def silent : Log where
  level := none
  inherited := Level.defaultRank
  handlers := []
  files := .empty
  console := []
  heard := []
  clock := 0

/-! ## 1. Lines -/

/-- A line as the library's handler writes it: tag, time, level and message. -/
def taggedLine (tag : String) (time : CivilTime) (level message : String) : String :=
  tag ++ " " ++ time.text ++ " " ++ level ++ " " ++ message

/-- Seconds since 1970 from the number given for them; fractions are cut off downwards. -/
def secondsOf (v : Value) : Except Fault Int :=
  match v.number? with
  | none => .error .wrongKind
  | some n =>
      match n.ratio?, n with
      | some (num, den), _ => .ok (num.fdiv den)
      | none, .real .nan => .error (.badValue .notATime)
      | none, _ => .error (.outOfRange .clock)

/-- The time of a line. Clocks count seconds in 64 bits, calendars count years from 1900 on in 32 bits, and a year
is written if it has 32 bits itself. -/
def timeOf (created : Value) : Except Fault CivilTime := do
  let fits (bits : Nat) (n : Int) : Bool :=
    -(Binary64.powerOfTwo (bits - 1) : Int) ≤ n && n < Binary64.powerOfTwo (bits - 1)
  let seconds ← secondsOf created
  let time := CivilTime.ofSeconds seconds
  if !fits 64 seconds then .error (.outOfRange .clock)
  else if !fits 32 (time.year - 1900) then .error (.outOfRange .calendar)
  else if !fits 32 time.year then .error (.outOfRange .year)
  else .ok time

/-- The rank from which on lines are kept; a level of rank zero is none. -/
def threshold (log : Log) : Int :=
  match log.level with
  | none => log.inherited
  | some rank => if rank = 0 then log.inherited else rank

def keeps (log : Log) (level : Level) : Bool := 0 < level.rank && log.threshold ≤ level.rank

def deliver (level : Level) (message : String) (log : Log) (handler : Handler) : Log :=
  match handler with
  | .own (.file path) tag =>
      let line := taggedLine tag (.ofSeconds log.clock) level.name message
      { log with files := log.files.append (Path.ofText path).place line }
  | .own .console tag =>
      let line := taggedLine tag (.ofSeconds log.clock) level.name message
      { log with console := log.console ++ [line] }
  | .listener => { log with heard := log.heard ++ [level.name ++ " " ++ message] }

/-- Writes a line, unless its level is not kept or its message could not be made. -/
def emit (log : Log) (level : Level) (message : Except Fault String) : Log :=
  if log.keeps level then
    match message with
    | .ok message => log.handlers.foldl (deliver level message) log
    | .error _ => log
  else log

/-- Writes a line at a level given by name or rank. -/
def write (log : Log) (level message : Value) (args : List Value) : Log :=
  match Level.ofValue? level with
  | some level => log.emit level (Text.messageOf message args)
  | none => log

/-! ## 2. Handlers -/

/-- Attaches the library's handler in place of the one that is there, and sets the level. The old handler is
gone even if the new one cannot be attached. -/
def configure (log : Log) (path : Option String) (level : Int) (tag : String) :
    Except Fault Unit × Log :=
  let log := { log with handlers := log.handlers.filter (!·.isOwn) }
  let attach (log : Log) (destination : Destination) : Log :=
    { log with handlers := log.handlers ++ [.own destination tag], level := some level }
  match path.filter (· != "") with
  | none => (.ok (), attach log .console)
  | some path =>
      let names := Path.ofText path
      if names.names.dropLast.any (·.toList.contains '\x00') then (.error (.badValue .nullByte), log)
      else
        -- The folders stay even if the file cannot be opened.
        let (made, files) := log.files.makeFoldersFor names
        let log := { log with files }
        match made with
        | .error f => (.error (.file f), log)
        | .ok () =>
            if path.toList.contains '\x00' then (.error (.badValue .nullByte), log)
            else
              match files.openFile names.place with
              | .error f => (.error (.file f), log)
              | .ok files => (.ok (), attach { log with files } (.file path))

/-- Attaches the library's handler unless there is one. -/
def ensure (log : Log) (path : Option String) (level : Int) (tag : String) :
    Except Fault Unit × Log :=
  if log.handlers.any Handler.isOwn then (.ok (), log) else log.configure path level tag

/-! ## 3. Facts -/

theorem emit_of_not_keeps {log : Log} {level : Level} (message : Except Fault String)
    (h : log.keeps level = false) : log.emit level message = log := by
  simp [emit, h]

theorem handlers_deliver (level : Level) (message : String) (log : Log) (handler : Handler) :
    (deliver level message log handler).handlers = log.handlers := by
  unfold deliver
  split <;> rfl

theorem level_deliver (level : Level) (message : String) (log : Log) (handler : Handler) :
    (deliver level message log handler).level = log.level := by
  unfold deliver
  split <;> rfl

/-- Lines never change the handlers. -/
theorem handlers_emit (log : Log) (level : Level) (message : Except Fault String) :
    (log.emit level message).handlers = log.handlers := by
  have fold : ∀ (hs : List Handler) (m : String) (l : Log),
      (hs.foldl (deliver level m) l).handlers = l.handlers := by
    intro hs m
    induction hs with
    | nil => intro l; rfl
    | cons h hs ih => intro l; rw [List.foldl_cons, ih, handlers_deliver]
  unfold emit
  split
  · cases message with
    | ok m => exact fold log.handlers m log
    | error f => rfl
  · rfl

theorem ensure_of_own {log : Log} {path : Option String} {level : Int} {tag : String}
    (h : log.handlers.any Handler.isOwn = true) : log.ensure path level tag = (.ok (), log) := by
  simp [ensure, h]

end Log

end Gatehouse.Trace
