import Gatehouse.Engine
import Gatehouse.Proofs.Runs

/-!
# Stages — what a decision does besides trying rules

Before a rule is tried, a call is brought to a complete request, or it ends: in a fault, or because
nobody is logged in. `checkOf` is that part, without the trace. What is left is the scan, between two
trace lines, and a trace line changes nothing but the log.
-/

namespace Gatehouse

/-- The state after questions to conditions and trace lines, and nothing else. -/
def World.asking (w : World) (questions : List (Value × Value)) (log : Trace.Log) : World :=
  { w with calls := w.calls ++ questions, log }

namespace World

variable (w : World) (questions more : List (Value × Value)) (log log' : Trace.Log)

@[simp] theorem registry_asking (i : Nat) : (w.asking questions log).registry i = w.registry i := rfl

theorem asking_asking : (w.asking questions log).asking more log' =
    w.asking (questions ++ more) log' := by
  unfold asking
  rw [List.append_assoc]

theorem asking_nil : w.asking [] w.log = w := by
  unfold asking
  rw [List.append_nil]

end World

theorem Run.trace_run (level : Trace.Level) (message : Except Fault String) (w : World) :
    Run.trace level message w = (.ok (), w.asking [] (w.log.emit level message)) := by
  unfold World.asking
  rw [List.append_nil]
  rfl

namespace Engine

variable {e : Engine} {target : Value} {options : List (Value × Value)} {host : Option Host}

/-! ## 1. From a call to a complete request -/

/-- What a call is about, and the host it names: the target, or the options in its place. -/
def subjectOf (target : Value) (options : List (Value × Value)) (host : Option Host) :
    Except Fault (Value × Option Host) :=
  let (options, host) := splitHost (Value.entriesOf options) host
  match target with
  | .null => .ok (.dict options, host)
  | target =>
      if options.isEmpty then .ok (target, host) else .error (.misconfigured .targetAndOptions)

/-- The complete request that a subject comes to; none if nobody is logged in. -/
def checkFor (e : Engine) (subject : Value) (host : Option Host) : Except Fault (Option Check) := do
  if ← isLoggedIn (e.hostFor host) then
    return some (← e.buildCheck subject (e.hostFor host))
  else return none

/-- The complete request that a call comes to; none if nobody is logged in. -/
def checkOf (e : Engine) (target : Value) (options : List (Value × Value)) (host : Option Host) :
    Except Fault (Option Check) := do
  let (subject, host) ← subjectOf target options host
  e.checkFor subject host

/-- How conditions get decisions of their own. -/
def consultation (e : Engine) (depth : Nat) (inner : Value) : Run Bool := do
  if !e.consulted then throw .noAttribute
  return (← decideAt depth e (orNoOptions inner) none).allowed

theorem decide_eq_subject (e : Engine) (target : Value) (options : List (Value × Value))
    (host : Option Host) : e.decide target options host = (do
      let (subject, asked) ← Run.ofExcept (subjectOf target options host)
      decideAt depthLimit e subject asked) := by
  unfold decide subjectOf
  obtain ⟨given, named⟩ := splitHost (Value.entriesOf options) host
  -- Both sides look at the target first, and at the options only if there is one.
  cases given <;> cases target <;> rfl

theorem subjectOf_nil (target : Value) (host : Option Host) :
    subjectOf target [] host = .ok (orNoOptions target, host) := by
  cases target <;> rfl

/-- Options in the place of a target, none of which is the host, are what the call is about. -/
theorem subjectOf_null (hentries : Value.entriesOf options = options) (hhost : Value.lookup hostOption options = none) :
    subjectOf .null options host = .ok (.dict options, host) := by
  unfold subjectOf splitHost
  rw [hentries, hhost]

theorem checkOf_of_subjectOf {subject : Value} {asked : Option Host}
    (h : subjectOf target options host = .ok (subject, asked)) :
    e.checkOf target options host = e.checkFor subject asked := by
  unfold checkOf
  rw [bind_of_eq_ok h]

theorem decide_of_subjectOf {subject : Value} {asked : Option Host}
    (h : subjectOf target options host = .ok (subject, asked)) :
    e.decide target options host = decideAt depthLimit e subject asked := by
  rw [decide_eq_subject, h]
  rfl

/-- A decision in which conditions that ask for one get their answer from `answers`, whatever that run does.
Conditions are thereby as general as can be; for the engine's own answers see `decide_eq_decideBy`. -/
def decideBy (answers : Value → Run Bool) (e : Engine) (target : Value)
    (options : List (Value × Value)) (host : Option Host) : Run Decision := do
  let (subject, asked) ← Run.ofExcept (subjectOf target options host)
  decideWith answers (roomPerDecision * depthLimit) e subject asked

theorem decide_eq_decideBy (e : Engine) (target : Value) (options : List (Value × Value))
    (host : Option Host) : e.decide target options host =
      e.decideBy (e.consultation (depthLimit - 1)) target options host :=
  decide_eq_subject e target options host

/-! ## 2. Around the scan -/

/-- The log after a line of an engine; one that is muted leaves none. -/
def traced (e : Engine) (log : Trace.Log) (level : Trace.Level) (message : Except Fault String) : Trace.Log :=
  if e.muted then log else log.emit level message

theorem trace_eq (e : Engine) (level : Trace.Level) (message : Except Fault String) (w : World) :
    e.trace level message w = (.ok (), w.asking [] (e.traced w.log level message)) := by
  unfold trace traced
  cases e.muted with
  | true =>
    rw [if_pos rfl, if_pos rfl, World.asking_nil]
    rfl
  | false => exact Run.trace_run level message w

/-- A trace line changes nothing but the log. -/
theorem trace_run (e : Engine) (level : Trace.Level) (message : Except Fault String) (w : World) :
    ∃ log, e.trace level message w = (.ok (), w.asking [] log) := ⟨_, e.trace_eq level message w⟩

/-- The state in which the scan for a request begins: its line has been traced. -/
def opened (e : Engine) (room : Nat) (check : Check) (w : World) : World :=
  w.asking [] (e.traced w.log .info (requestLine room check))

/-- The log after a decision, which leaves a line of its own; a fault leaves none. -/
def closed (e : Engine) (log : Trace.Log) : Except Fault Decision → Trace.Log
  | .ok decision => e.traced log .info (.ok (resultLine decision))
  | .error _ => log

section

variable {decide : Value → Run Bool} {room : Nat} {subject : Value}

theorem decideWith_of_error {f : Fault} (h : e.checkFor subject host = .error f) (w : World) :
    decideWith decide room e subject host w = (.error f, w) := by
  unfold checkFor at h
  unfold decideWith
  -- The login status comes first; only somebody who is logged in has a request at all.
  cases hl : isLoggedIn (e.hostFor host) with
  | error f' =>
    rw [hl] at h
    cases h
    exact Run.bind_of_error (Run.ofExcept_run _ w)
  | ok logged =>
    rw [bind_of_eq_ok hl] at h
    rw [Run.bind_of_ok (Run.ofExcept_run _ w)]
    cases logged with
    | false => cases h
    | true =>
      cases hb : e.buildCheck subject (e.hostFor host) with
      | ok check =>
        simp only [hb, if_true] at h
        cases h
      | error f' =>
        simp only [hb, if_true] at h
        cases h
        exact Run.bind_of_error (Run.ofExcept_run _ w)

theorem decideWith_eq_of_none (h : e.checkFor subject host = .ok none) (w : World) :
    decideWith decide room e subject host w =
      (.ok .notLoggedIn, w.asking [] (e.traced w.log .info (.ok "returning false (not logged in)"))) := by
  unfold checkFor at h
  obtain ⟨logged, hl, h⟩ := bind_eq_ok_iff.1 h
  cases logged with
  | true =>
    obtain ⟨check, -, h⟩ := bind_eq_ok_iff.1 h
    cases h
  | false =>
    unfold decideWith
    rw [hl, Run.bind_of_ok (Run.ofExcept_run _ w)]
    exact Run.bind_of_ok (e.trace_eq .info _ w)

theorem decideWith_of_none (h : e.checkFor subject host = .ok none) (w : World) :
    ∃ log, decideWith decide room e subject host w = (.ok .notLoggedIn, w.asking [] log) :=
  ⟨_, decideWith_eq_of_none h w⟩

/-- A complete request is scanned, between two lines of the trace. -/
theorem decideWith_eq_of_check {check : Check} (h : e.checkFor subject host = .ok (some check)) {w after : World}
    {result : Except Fault Decision} (hscan : e.scan decide check (e.opened room check w) = (result, after)) :
    decideWith decide room e subject host w = (result, after.asking [] (e.closed after.log result)) := by
  unfold checkFor at h
  obtain ⟨logged, hl, h⟩ := bind_eq_ok_iff.1 h
  cases logged with
  -- Nobody who is not logged in comes to a complete request.
  | false => cases h
  | true =>
    obtain ⟨_, hb, h⟩ := bind_eq_ok_iff.1 h
    cases h
    unfold opened at hscan
    unfold decideWith
    rw [hl, hb, Run.bind_of_ok (Run.ofExcept_run _ w)]
    simp only [Bool.not_true, Bool.false_eq_true, if_false]
    rw [Run.bind_of_ok (Run.ofExcept_run _ w), Run.bind_of_ok (e.trace_eq .info (requestLine room check) w)]
    -- A fault of the scan is passed on as it is, and a decision leaves one more line in the log.
    cases result with
    | error f =>
      unfold closed
      rw [World.asking_nil]
      exact Run.bind_of_error hscan
    | ok decision =>
      rw [Run.bind_of_ok hscan]
      exact Run.bind_of_ok (e.trace_eq .info _ after)

end

/-! ## 3. Whole calls -/

theorem decide_of_error {f : Fault} (h : e.checkOf target options host = .error f) (w : World) :
    e.decide target options host w = (.error f, w) := by
  rw [decide_eq_subject]
  unfold checkOf at h
  cases hs : subjectOf target options host with
  | error f' =>
    rw [hs] at h
    cases h
    exact Run.bind_of_error (Run.ofExcept_run _ w)
  | ok out =>
    rw [bind_of_eq_ok hs] at h
    rw [Run.bind_of_ok (Run.ofExcept_run _ w)]
    exact decideWith_of_error h w

theorem decide_eq_of_none (h : e.checkOf target options host = .ok none) (w : World) :
    e.decide target options host w =
      (.ok .notLoggedIn, w.asking [] (e.traced w.log .info (.ok "returning false (not logged in)"))) := by
  unfold checkOf at h
  obtain ⟨out, hs, h⟩ := bind_eq_ok_iff.1 h
  rw [decide_eq_subject, hs, Run.bind_of_ok (Run.ofExcept_run _ w)]
  exact decideWith_eq_of_none h w

theorem decide_of_none (h : e.checkOf target options host = .ok none) (w : World) :
    ∃ log, e.decide target options host w = (.ok .notLoggedIn, w.asking [] log) :=
  ⟨_, decide_eq_of_none h w⟩

theorem decideBy_eq_of_check {check : Check} {answers : Value → Run Bool} {w after : World}
    {result : Except Fault Decision} (h : e.checkOf target options host = .ok (some check))
    (hscan : e.scan answers check (e.opened (roomPerDecision * depthLimit) check w) = (result, after)) :
    e.decideBy answers target options host w = (result, after.asking [] (e.closed after.log result)) := by
  unfold checkOf at h
  obtain ⟨out, hs, h⟩ := bind_eq_ok_iff.1 h
  unfold decideBy
  rw [hs, Run.bind_of_ok (Run.ofExcept_run _ w)]
  exact decideWith_eq_of_check h hscan

theorem decideBy_of_check {check : Check} (answers : Value → Run Bool)
    (h : e.checkOf target options host = .ok (some check)) (w : World) :
    ∃ log, ∀ result after, e.scan answers check (w.asking [] log) = (result, after) →
      ∃ log', e.decideBy answers target options host w = (result, after.asking [] log') :=
  ⟨_, fun _ _ hscan => ⟨_, decideBy_eq_of_check h hscan⟩⟩

theorem decide_of_check {check : Check} (h : e.checkOf target options host = .ok (some check))
    (w : World) :
    ∃ log, ∀ result after,
      e.scan (e.consultation (depthLimit - 1)) check (w.asking [] log) = (result, after) →
      ∃ log', e.decide target options host w = (result, after.asking [] log') := by
  rw [decide_eq_decideBy]
  exact decideBy_of_check _ h w

end Engine

end Gatehouse
