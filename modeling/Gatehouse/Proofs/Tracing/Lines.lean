import Gatehouse.Trace.Log

/-!
# Lines — what a log makes of lines that are written to it

Lines come one after the other, each with its level. A log hands those that it keeps to every handler, in
their order, and changes in nothing else, so that the lines that somebody hears are those that were written, less those
below the level from which on lines are kept.
-/

namespace Gatehouse.Trace

/-- A line that decisions are traced by. -/
inductive Line where
  | info (message : String)
  | debug (message : String)
  deriving DecidableEq, Repr

namespace Line

def level : Line → Level
  | .info _ => .info
  | .debug _ => .debug

def message : Line → String
  | .info message => message
  | .debug message => message

def isInfo : Line → Bool
  | .info _ => true
  | .debug _ => false

/-- A line as a listener hears it. -/
def text (line : Line) : String := line.level.name ++ " " ++ line.message

def opensWith (words : String) (line : Line) : Bool := words.toList.isPrefixOf line.message.toList

theorem opensWith_eq (words front rest : String) {line : Line} (h : line.message = front ++ rest) :
    line.opensWith words = words.toList.isPrefixOf (front.toList ++ rest.toList) := by
  unfold opensWith
  rw [h, String.toList_append]

end Line

namespace Log

/-! ## 1. One line -/

theorem threshold_deliver (level : Level) (message : String) (log : Log) (handler : Handler) :
    (deliver level message log handler).threshold = log.threshold := by
  unfold deliver
  split <;> rfl

theorem heard_deliver (level : Level) (message : String) (log : Log) (handler : Handler) :
    (deliver level message log handler).heard =
      log.heard ++ List.replicate ([handler].count .listener) (level.name ++ " " ++ message) := by
  cases handler with
  | listener => rfl
  | own destination tag =>
    cases destination with
    | file path => exact (List.append_nil _).symm
    | console => exact (List.append_nil _).symm

theorem foldl_deliver (level : Level) (message : String) (handlers : List Handler) (log : Log) :
    (handlers.foldl (deliver level message) log).threshold = log.threshold ∧
      (handlers.foldl (deliver level message) log).heard =
        log.heard ++ List.replicate (handlers.count .listener) (level.name ++ " " ++ message) := by
  induction handlers generalizing log with
  | nil => exact ⟨rfl, (List.append_nil _).symm⟩
  | cons handler rest ih =>
    obtain ⟨hthreshold, hheard⟩ := ih (deliver level message log handler)
    rw [List.foldl_cons, hthreshold, hheard, threshold_deliver, heard_deliver, List.append_assoc,
      List.replicate_append_replicate, ← List.count_append]
    exact ⟨rfl, rfl⟩

theorem threshold_emit (log : Log) (level : Level) (message : Except Fault String) :
    (log.emit level message).threshold = log.threshold := by
  unfold emit
  split
  · cases message with
    | ok message => exact (foldl_deliver level message log.handlers log).1
    | error f => rfl
  · rfl

theorem emit_error (log : Log) (level : Level) (f : Fault) : log.emit level (.error f) = log := by
  unfold emit
  split <;> rfl

/-- Every listener hears a line that is kept. -/
theorem heard_emit {log : Log} {level : Level} (message : String) (h : log.keeps level = true) :
    (log.emit level (.ok message)).heard =
      log.heard ++ List.replicate (log.handlers.count .listener) (level.name ++ " " ++ message) := by
  unfold emit
  rw [if_pos h]
  exact (foldl_deliver level message log.handlers log).2

/-! ## 2. Lines in a row -/

/-- The log after lines, one after the other. -/
def emitAll (log : Log) (lines : List Line) : Log :=
  lines.foldl (fun log line => log.emit line.level (.ok line.message)) log

theorem emitAll_cons (log : Log) (line : Line) (lines : List Line) :
    log.emitAll (line :: lines) = (log.emit line.level (.ok line.message)).emitAll lines := rfl

theorem emitAll_append (log : Log) (lines more : List Line) :
    log.emitAll (lines ++ more) = (log.emitAll lines).emitAll more := List.foldl_append

theorem keeps_of_same {log log' : Log} (h : log'.threshold = log.threshold) (level : Level) :
    log'.keeps level = log.keeps level := by
  unfold keeps
  rw [h]

/-- Lines that are not kept might as well not have been written. -/
theorem emitAll_filter (log : Log) (lines : List Line) :
    log.emitAll lines = log.emitAll (lines.filter fun line => log.keeps line.level) := by
  induction lines generalizing log with
  | nil => rfl
  | cons line rest ih =>
    have hkeeps : ∀ l : Line, (log.emit line.level (.ok line.message)).keeps l.level = log.keeps l.level :=
      fun l => keeps_of_same (threshold_emit log line.level _) l.level
    rw [emitAll_cons, ih, List.filter_cons]
    simp only [hkeeps]
    cases h : log.keeps line.level with
    | true => rfl
    | false =>
      rw [emit_of_not_keeps _ h]
      rfl

/-- One listener hears the lines that are kept, in their order. -/
theorem heard_emitAll {log : Log} (hone : log.handlers.count .listener = 1) (lines : List Line)
    (h : ∀ line ∈ lines, log.keeps line.level = true) :
    (log.emitAll lines).heard = log.heard ++ lines.map Line.text := by
  induction lines generalizing log with
  | nil => exact (List.append_nil _).symm
  | cons line rest ih =>
    have hkept := h line List.mem_cons_self
    have hrest := @ih (log.emit line.level (.ok line.message)) (by rw [handlers_emit, hone]) fun l hl => by
      rw [keeps_of_same (threshold_emit log line.level _)]
      exact h l (List.mem_cons_of_mem line hl)
    rw [emitAll_cons, hrest, heard_emit line.message hkept, hone, List.append_assoc]
    rfl

/-! ## 3. Records -/

/-- A log has taken lines, and nothing else: to its handlers go those that it keeps, which are all of them at the
level for debugging, and at the level for information those of that level. -/
structure Records (before : Log) (lines : List Line) (after : Log) : Prop where
  written : after = before.emitAll lines
  atDebug : before.threshold = Level.debug.rank → before.handlers.count .listener = 1 →
    after.heard = before.heard ++ lines.map Line.text
  atInfo : before.threshold = Level.info.rank → after = before.emitAll (lines.filter Line.isInfo) ∧
    (before.handlers.count .listener = 1 →
      after.heard = before.heard ++ (lines.filter Line.isInfo).map Line.text)

theorem keeps_line {log : Log} (h : log.threshold = Level.info.rank) (line : Line) :
    log.keeps line.level = line.isInfo := by
  unfold keeps
  rw [h]
  cases line <;> rfl

theorem records (before : Log) (lines : List Line) : Records before lines (before.emitAll lines) := by
  refine ⟨rfl, fun hdebug hone => ?_, fun hinfo => ?_⟩
  · apply heard_emitAll hone
    intro line _
    unfold keeps
    rw [hdebug]
    cases line <;> rfl
  · have hfilter : (lines.filter fun line => before.keeps line.level) = lines.filter Line.isInfo := by
      simp only [keeps_line hinfo]
    have hwritten := emitAll_filter before lines
    rw [hfilter] at hwritten
    refine ⟨hwritten, fun hone => ?_⟩
    rw [hwritten]
    apply heard_emitAll hone
    intro line hline
    rw [keeps_line hinfo]
    exact (List.mem_filter.1 hline).2

end Log

end Gatehouse.Trace
