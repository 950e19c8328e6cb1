import Gatehouse.Proofs.Deciding.Parts
import Gatehouse.Proofs.Deciding.Plan
import Gatehouse.Proofs.Texts
import Gatehouse.Proofs.Tracing.Lines

/-!
# Transcript — what a decision tells of itself

A decision writes to the log from three places: around the scan, when the turn of a resource or of a bucket comes, and
when a rule is tried. Each event of its course leaves the lines that belong to it, while loading leaves none, and
neither does a condition, unless it asks for a decision. So the log is an account of the course, as far as that went.
-/

namespace Gatehouse

open Trace (Line Log)

/-! ## 1. Events and their lines -/

theorem Run.Keeps.loading_log : Run.Loading (Run.Keeps World.log) where
  toSequential := Run.Keeps.sequential World.log
  home := .home
  permit := .permit fun _ _ _ => rfl
  tryCatch := .tryCatch
  library _ := .of_same fun _ => rfl
  setLibrary _ _ := rfl
  loaders _ := .of_same fun _ => rfl
  setLoaders _ _ := rfl

namespace Condition

/-- Whether a condition asks for a decision of its own. -/
def consults : Condition → Bool
  | .answer _ => false
  | .declare _ next => next.consults
  | .freeze next => next.consults
  | .consult _ => true

theorem keeps_log_ask (answers : Value → Run Bool) (user object : Value) :
    (c : Condition) → c.consults = false → Run.Keeps World.log Value (c.ask answers user object)
  | .answer f, _ => Run.Keeps.loading_log.ofExcept (f user object)
  | .declare grant next, h => by
      unfold ask
      apply Run.Keeps.loading_log.bind .home
      intro home
      apply Run.Keeps.loading_log.bind (Run.Keeps.loading_log.discard (Run.Keeps.loading_log.permit home grant))
      exact fun _ => keeps_log_ask answers user object next h
  | .freeze next, h => by
      unfold ask
      apply Run.Keeps.loading_log.bind .home
      intro home
      have hfreeze : Run.Keeps World.log Unit (Run.freeze home) := fun _ => rfl
      exact Run.Keeps.loading_log.bind hfreeze fun _ => keeps_log_ask answers user object next h
  | .consult _, h => nomatch h

end Condition

/-- A rule whose condition asks for no decision. -/
def Rule.IsQuiet (r : Rule) : Prop := ∀ c, r.condition = some c → c.consults = false

/-- The lines that an event leaves. -/
def Event.lines : Event → List Line
  | .line message => [.debug message]
  | .load _ => []
  | .read _ _ => []
  | .attempt c => [.debug ("trying " ++ c.rule.text)]

namespace Event

variable (found : String → String → List Rule) (scope action : String)

theorem lines_ofBucket : (ofBucket found scope action).flatMap lines =
    .debug ("current action: " ++ action) :: (found scope action).map fun rule => .debug ("trying " ++ rule.text) := by
  unfold ofBucket candidates
  rw [List.flatMap_cons, List.flatMap_cons, List.map_map, List.flatMap_map, List.map_eq_flatMap]
  rfl

theorem lines_ofScope (actions : List String) : (ofScope found actions scope).flatMap lines =
    .debug ("current resource: " ++ scope) :: actions.flatMap fun action =>
      .debug ("current action: " ++ action) ::
        (found scope action).map fun rule => .debug ("trying " ++ rule.text) := by
  unfold ofScope
  rw [List.flatMap_cons, List.flatMap_cons, List.flatMap_assoc]
  simp only [lines_ofBucket]
  rfl

end Event

variable {answers : Value → Run Bool} {check : Check}

/-- Whatever comes of a rule, it has been said that it is tried. -/
theorem Rule.log_admits {r : Rule} (h : r.IsQuiet) (w : World) :
    (r.admits answers check.objectOf check.user w).2.log = w.log.emitAll [.debug ("trying " ++ r.text)] := by
  by_cases hrole : r.roles.cover check.user = .ok true → r.condition = none
  · rw [admits_of_role answers check hrole]
    rfl
  · obtain ⟨hcover, hsome⟩ := Classical.not_imp.1 hrole
    obtain ⟨c, hc⟩ := Option.ne_none_iff_exists'.1 hsome
    have hask := Run.Keeps.loading_log.bind (c.keeps_log_ask answers check.user (check.object r) (h c hc))
      fun answer => Run.Keeps.loading_log.pure answer.truthy
    rw [admits_of_condition answers check hcover hc, hask]
    rfl

namespace Engine

variable {e : Engine} {events : List Event} {ev : Event} {tried : Nat} {w : World}

theorem traced_of_not_muted (hmuted : e.muted = false) (log : Log) (level : Trace.Level)
    (message : Except Fault String) : e.traced log level message = log.emit level message := by
  unfold traced
  rw [hmuted]
  rfl

theorem keeps_log_load (e : Engine) (scope : String) : Run.Keeps World.log Unit (e.load scope) := by
  unfold load
  cases e.loader with
  | none => exact Run.Keeps.loading_log.pure ()
  | some i => exact Loader.ensure_of Run.Keeps.loading_log i (.text scope)

/-- An event leaves its own lines, even if it fails. -/
theorem log_happen (hmuted : e.muted = false) (hquiet : ∀ c, ev = .attempt c → c.rule.IsQuiet) (tried : Nat)
    (w : World) : (e.happen answers check ev tried w).2.log = w.log.emitAll ev.lines := by
  cases ev with
  | line message =>
    rw [happen_line tried (e.trace_eq .debug (.ok message) w), traced_of_not_muted hmuted]
    rfl
  | load scope =>
    rw [happen_load]
    exact e.keeps_log_load scope w
  | read scope action => rfl
  | attempt c =>
    rw [happen_attempt]
    exact Rule.log_admits (hquiet c rfl) w

/-- What comes about leaves its lines, one event after the other. -/
theorem log_follow (hmuted : e.muted = false)
    (hquiet : ∀ c, .attempt c ∈ e.reached answers check events tried w → c.rule.IsQuiet) :
    (e.follow answers check events tried w).2.log =
      w.log.emitAll ((e.reached answers check events tried w).flatMap Event.lines) := by
  induction events generalizing tried w with
  | nil => rfl
  | cons ev rest ih =>
    have hev : ∀ c, ev = .attempt c → c.rule.IsQuiet := by
      rintro c rfl
      exact hquiet c List.mem_cons_self
    have hfirst : (e.happen answers check ev tried w).2.log = _ := log_happen hmuted hev tried w
    -- If the event ends the run, its lines are all; else what follows goes on where it has left the log.
    cases hhappen : e.happen answers check ev tried w with
    | mk result mid =>
      rw [hhappen] at hfirst
      obtain ⟨n, rfl⟩ | hended := Progress.tried_or_ends result
      · rw [reached_cons_of_tried hhappen] at hquiet ⊢
        have hrest := ih fun c hc => hquiet c (List.mem_cons_of_mem ev hc)
        rw [follow_cons_of_tried hhappen, hrest, hfirst, List.flatMap_cons, Log.emitAll_append]
      · rw [reached_cons_of_ended hhappen hended, follow_cons_of_ended hhappen hended, List.flatMap_singleton]
        exact hfirst

/-! ## 2. Lines by their words -/

/-- The line of a request, if it can be made. -/
def requestLines (room : Nat) (check : Check) : List Line :=
  match requestLine room check with
  | .ok message => [.info message]
  | .error _ => []

/-- The line of a decision; a fault has none. -/
def resultLines : Except Fault Decision → List Line
  | .ok decision => [.info (resultLine decision)]
  | .error _ => []

/-- The lines of a decision with this course and this result. -/
def transcript (check : Check) (course : List Event) (result : Except Fault Decision) : List Line :=
  requestLines (roomPerDecision * depthLimit) check ++ course.flatMap Event.lines ++ resultLines result

/-- The lines of a scan that nothing ends before it has tried all that it finds. -/
def scanLines (e : Engine) (check : Check) (found : String → String → List Rule) : List Line :=
  (e.scopes check.resource).flatMap fun scope => .debug ("current resource: " ++ scope) ::
    (actionScopes check.action).flatMap fun action => .debug ("current action: " ++ action) ::
      (found scope action).map fun rule => .debug ("trying " ++ rule.text)

variable {found : String → String → List Rule} {room : Nat} {course : List Event} {result : Except Fault Decision}

theorem lines_plan (e : Engine) (check : Check) (found : String → String → List Rule) :
    (e.plan check found).flatMap Event.lines = e.scanLines check found := by
  unfold plan scanLines
  rw [List.flatMap_assoc]
  simp only [Event.lines_ofScope]

/-- A request is written with its user first. -/
theorem requestLine_eq_ok {message : String} (h : requestLine room check = .ok message) :
    ∃ rest, message = "user " ++ rest := by
  unfold requestLine at h
  obtain ⟨label, -, h⟩ := bind_eq_ok_iff.1 h
  obtain ⟨ids, -, h⟩ := bind_eq_ok_iff.1 h
  cases h
  simp only [String.append_assoc]
  exact ⟨_, rfl⟩

theorem requestLines_of_ok {label ids : String} (hlabel : Principal.labelIn room check.user = .ok label)
    (hids : check.ids.toValue.writtenIn? room = .ok ids) :
    requestLines room check = [.info ("user " ++ label ++ " requested access to method " ++ check.resource ++ ":" ++
      check.action ++ " using ids:" ++ ids)] := by
  unfold requestLines requestLine
  rw [hlabel, hids]
  rfl

/-- A line that a plan says by itself is about a resource or an action whose turn it is. -/
theorem not_opensWith_of_mem_plan {message : String} (h : .line message ∈ e.plan check found) :
    (Line.debug message).opensWith "trying " = false := by
  -- It stands at the head of what is done with a resource, or of what is done with one of its buckets.
  unfold plan at h
  obtain ⟨scope, -, h⟩ := List.mem_flatMap.1 h
  unfold Event.ofScope at h
  rcases List.mem_cons.1 h with h | h
  · cases h
    rw [Line.opensWith_eq "trying " "current resource: " scope rfl]
    rfl
  rcases List.mem_cons.1 h with h | h
  · cases h
  obtain ⟨action, -, h⟩ := List.mem_flatMap.1 h
  unfold Event.ofBucket at h
  rcases List.mem_cons.1 h with h | h
  · cases h
    rw [Line.opensWith_eq "trying " "current action: " action rfl]
    rfl
  rcases List.mem_cons.1 h with h | h
  · cases h
  obtain ⟨c, -, h⟩ := List.mem_map.1 h
  cases h

theorem countP_lines (h : ∀ message, .line message ∈ events → (Line.debug message).opensWith "trying " = false) :
    (events.flatMap Event.lines).countP (Line.opensWith "trying ") = (events.filterMap Event.attempt?).length := by
  induction events with
  | nil => rfl
  | cons ev rest ih =>
    have hrest := ih fun message hmessage => h message (List.mem_cons_of_mem ev hmessage)
    rw [List.flatMap_cons, List.countP_append, hrest]
    -- Of the four kinds of events only attempts leave such a line, and they count.
    cases ev with
    | line message =>
      have hnot := h message List.mem_cons_self
      rw [List.filterMap_cons_none rfl, Event.lines, List.countP_singleton, hnot]
      exact Nat.zero_add _
    | load scope => exact Nat.zero_add _
    | read scope action => exact Nat.zero_add _
    | attempt c =>
      have htrying : (Line.debug ("trying " ++ c.rule.text)).opensWith "trying " = true := by
        rw [Line.opensWith_eq "trying " "trying " c.rule.text rfl]
        rfl
      rw [Event.lines, List.countP_singleton, htrying]
      exact Nat.add_comm _ _

/-- Each rule that is tried has its line, and no other line begins like those. -/
theorem countP_transcript (h : course <+: e.plan check found) :
    (transcript check course result).countP (Line.opensWith "trying ") =
      (course.filterMap Event.attempt?).length := by
  have hcourse := countP_lines fun message hmessage => not_opensWith_of_mem_plan (h.subset hmessage)
  have hrequest : (requestLines (roomPerDecision * depthLimit) check).countP (Line.opensWith "trying ") = 0 := by
    unfold requestLines
    cases hline : requestLine (roomPerDecision * depthLimit) check with
    | error f => rfl
    | ok message =>
      obtain ⟨rest, rfl⟩ := requestLine_eq_ok hline
      have hnot : (Line.info ("user " ++ rest)).opensWith "trying " = false := by
        rw [Line.opensWith_eq "trying " "user " rest rfl]
        rfl
      rw [List.countP_singleton, hnot]
      rfl
  have hresult : (resultLines result).countP (Line.opensWith "trying ") = 0 := by
    cases result with
    | error f => rfl
    | ok decision =>
      have hnot : (Line.info (resultLine decision)).opensWith "trying " = false := by
        unfold resultLine
        split <;> rfl
      rw [resultLines, List.countP_singleton, hnot]
      rfl
  unfold transcript
  rw [List.countP_append, List.countP_append, hcourse, hrequest, hresult, Nat.zero_add, Nat.add_zero]

theorem resultLine_eq_iff (allowed : Bool) (decision : Decision) :
    resultLine decision = (if allowed then "returning true (access granted)" else "returning false (access denied)") ↔
      decision.allowed = allowed := by
  unfold resultLine
  cases decision.allowed <;> cases allowed <;> decide

/-- The last line says how a decision has ended, and no other line says that. -/
theorem info_mem_transcript_iff (allowed : Bool) :
    .info (if allowed then "returning true (access granted)" else "returning false (access denied)") ∈
        transcript check course result ↔
      ∃ decision, result = .ok decision ∧ decision.allowed = allowed := by
  generalize hmessage : (if allowed then "returning true (access granted)" else "returning false (access denied)") =
    message
  have hrequest : Line.info message ∉ requestLines (roomPerDecision * depthLimit) check := by
    unfold requestLines
    cases hline : requestLine (roomPerDecision * depthLimit) check with
    | error f => exact List.not_mem_nil
    | ok text =>
      -- The line of a request has another letter in front.
      obtain ⟨rest, rfl⟩ := requestLine_eq_ok hline
      intro hmem
      cases List.mem_singleton.1 hmem
      have hhead := congrArg (fun s : String => s.toList.head?) hmessage
      cases allowed <;> simp at hhead
  have hcourse : Line.info message ∉ course.flatMap Event.lines := by
    intro hmem
    obtain ⟨ev, -, hev⟩ := List.mem_flatMap.1 hmem
    cases ev with
    | line _ => cases List.mem_singleton.1 hev
    | load _ => cases hev
    | read _ _ => cases hev
    | attempt _ => cases List.mem_singleton.1 hev
  unfold transcript
  rw [List.mem_append, List.mem_append, or_iff_right hrequest, or_iff_right hcourse]
  cases result with
  | error f => exact ⟨nofun, nofun⟩
  | ok decision =>
    have hmem : Line.info message ∈ resultLines (.ok decision) ↔ resultLine decision = message := by
      rw [resultLines, List.mem_singleton, Line.info.injEq, eq_comm]
    rw [hmem, ← hmessage, resultLine_eq_iff]
    simp only [Except.ok.injEq, exists_eq_left']

/-! ## 3. The account that the lines give -/

/-- What the lines of a decision on a request tell, from the state in which its scan begins: along which events it has
gone, one after the other as they were planned, and to what end. -/
structure Transcribes (e : Engine) (answers : Value → Run Bool) (check : Check)
    (found : String → String → List Rule) (start : World) (result : Except Fault Decision) (lines : List Line) :
    Prop where
  lines_eq : lines = transcript check (e.course answers check found start) result
  request : ∀ label ids, Principal.labelIn (roomPerDecision * depthLimit) check.user = .ok label →
    check.ids.toValue.writtenIn? (roomPerDecision * depthLimit) = .ok ids →
    requestLines (roomPerDecision * depthLimit) check = [.info ("user " ++ label ++ " requested access to method " ++
      check.resource ++ ":" ++ check.action ++ " using ids:" ++ ids)]
  planned : (e.plan check found).flatMap Event.lines = e.scanLines check found
  inOrder : e.course answers check found start <+: e.plan check found
  granted : ∀ decision, result = .ok decision → decision.allowed = true → ∃ before c,
    e.course answers check found start = before ++ [.attempt c] ∧
    decision = c.grant check (before.filterMap Event.attempt?).length
  denied : ∀ decision, result = .ok decision → decision.allowed = false →
    e.course answers check found start = e.plan check found
  failed : ∀ f, result = .error f → ∃ before last n mid after,
    e.course answers check found start = before ++ [last] ∧
    e.follow answers check before 0 start = (.ok (.tried n), mid) ∧
    e.happen answers check last n mid = (.error f, after)
  granted_iff : .info "returning true (access granted)" ∈ lines ↔
    ∃ decision, result = .ok decision ∧ decision.allowed = true
  denied_iff : .info "returning false (access denied)" ∈ lines ↔
    ∃ decision, result = .ok decision ∧ decision.allowed = false
  counted : ∀ decision, result = .ok decision →
    decision.evaluatedRules = .int (lines.countP (Line.opensWith "trying "))

variable {start mid after : World} {target : Value} {options : List (Value × Value)} {host : Option Host}

/-- Without a fault, a decision comes to the rule that grants it, or to the end of its plan. -/
theorem course_of_ok {progress : Progress}
    (h : e.follow answers check (e.plan check found) 0 start = (.ok progress, after)) :
    (∃ before c, e.course answers check found start = before ++ [.attempt c] ∧
      progress = .granted (c.grant check (before.filterMap Event.attempt?).length)) ∨
    (e.course answers check found start = e.plan check found ∧
      progress = .tried ((e.plan check found).filterMap Event.attempt?).length) := by
  cases progress with
  | granted decision =>
    obtain ⟨before, c, hcourse, rfl⟩ := course_of_granted h
    exact .inl ⟨before, c, hcourse, rfl⟩
  | tried n =>
    have hn := follow_tried h
    rw [Nat.zero_add] at hn
    exact .inr ⟨(course_of_tried h).1, by rw [hn]⟩

theorem transcribes_of_follow {result : Except Fault Progress}
    (h : e.follow answers check (e.plan check found) 0 start = (result, after)) :
    e.Transcribes answers check found start (result.map (Progress.decision check))
      (transcript check (e.course answers check found start) (result.map (Progress.decision check))) where
  lines_eq := rfl
  request _ _ := requestLines_of_ok
  planned := e.lines_plan check found
  inOrder := e.course_isPrefix answers check found start
  granted := by
    intro decision hresult hallowed
    cases result with
    | error f => cases hresult
    | ok progress =>
      cases hresult
      obtain ⟨before, c, hcourse, rfl⟩ | ⟨-, rfl⟩ := course_of_ok h
      · exact ⟨before, c, hcourse, rfl⟩
      · cases hallowed
  denied := by
    intro decision hresult hallowed
    cases result with
    | error f => cases hresult
    | ok progress =>
      cases hresult
      obtain ⟨before, c, -, rfl⟩ | ⟨hcourse, -⟩ := course_of_ok h
      · cases hallowed
      · exact hcourse
  failed := by
    intro f hresult
    cases result with
    | error f' =>
      cases hresult
      obtain ⟨before, last, n, mid, hcourse, hbefore, hlast⟩ := reached_of_ended h (Progress.ends_error f)
      exact ⟨before, last, n, mid, after, hcourse, hbefore, hlast⟩
    | ok progress => cases hresult
  granted_iff := info_mem_transcript_iff true
  denied_iff := info_mem_transcript_iff false
  counted := by
    intro decision hresult
    rw [countP_transcript (e.course_isPrefix answers check found start)]
    cases result with
    | error f => cases hresult
    | ok progress =>
      cases hresult
      obtain ⟨before, c, hcourse, rfl⟩ | ⟨hcourse, rfl⟩ := course_of_ok h
      · rw [hcourse, List.filterMap_append, List.length_append]
        rfl
      · rw [hcourse]
        rfl

theorem opened_log (hmuted : e.muted = false) (room : Nat) (check : Check) (w : World) :
    (e.opened room check w).log = w.log.emitAll (requestLines room check) := by
  unfold opened requestLines
  rw [traced_of_not_muted hmuted]
  cases requestLine room check with
  | error f => exact w.log.emit_error .info f
  | ok message => rfl

theorem closed_eq (hmuted : e.muted = false) (log : Log) (result : Except Fault Decision) :
    e.closed log result = log.emitAll (resultLines result) := by
  unfold closed
  cases result with
  | error f => rfl
  | ok decision => exact traced_of_not_muted hmuted log .info _

/-- A decision tells what it does, if its lines are not muted. One that does not come to a complete request ends in
silence, and one for which nobody is logged in leaves one line. Any other leaves the line of the request, the lines of
its course and, unless it has failed, that of its result, as long as no condition asks for a decision. -/
theorem decide_transcript (hmuted : e.muted = false) (target : Value) (options : List (Value × Value))
    (host : Option Host) (w : World) :
    (∀ f, e.checkOf target options host = .error f → e.decide target options host w = (.error f, w)) ∧
    (e.checkOf target options host = .ok none → ∃ after,
      e.decide target options host w = (.ok .notLoggedIn, after) ∧
      w.log.Records [.info "returning false (not logged in)"] after.log) ∧
    ∀ check, e.checkOf target options host = .ok (some check) → ∃ found progress mid after lines,
      e.GoesAlong (e.consultation (depthLimit - 1)) check found (e.plan check found) 0
        (e.opened (roomPerDecision * depthLimit) check w) (progress, mid) ∧
      e.decide target options host w = (progress.map (Progress.decision check), after) ∧
      e.Transcribes (e.consultation (depthLimit - 1)) check found (e.opened (roomPerDecision * depthLimit) check w)
        (progress.map (Progress.decision check)) lines ∧
      ((∀ c, .attempt c ∈ e.course (e.consultation (depthLimit - 1)) check found
          (e.opened (roomPerDecision * depthLimit) check w) → c.rule.IsQuiet) →
        w.log.Records lines after.log) := by
  refine ⟨fun f h => decide_of_error h w, fun h => ?_, fun check h => ?_⟩
  · refine ⟨_, decide_eq_of_none h w, ?_⟩
    rw [traced_of_not_muted hmuted]
    exact w.log.records [.info "returning false (not logged in)"]
  · obtain ⟨found, progress, mid, halong, hdecide⟩ := decideBy_eq_goesAlong (e.consultation (depthLimit - 1)) h w
    rw [← decide_eq_decideBy] at hdecide
    refine ⟨found, progress, mid, _, _, halong, hdecide, transcribes_of_follow halong.follows, fun hquiet => ?_⟩
    -- Each of the three places goes on where the log has been left.
    have hmid := log_follow hmuted hquiet
    rw [halong.follows, opened_log hmuted, ← Log.emitAll_append] at hmid
    change w.log.Records _ (e.closed mid.log _)
    rw [closed_eq hmuted, hmid, ← Log.emitAll_append]
    exact w.log.records _

/-- A state in which one listener hears all lines. -/
def listeningWorld : World :=
  { World.initial with log := { Log.silent with level := some 10, handlers := [.listener] } }

def deskOptions : List (Value × Value) :=
  [(.text "user", .principal (.int 1) (.text "admin") (some (.text "Ann"))), (.text "resource", .text "Application"),
    (.text "action", .text "ALL"), (.text "id", .int 7)]

def deskCheck : Check where
  user := .principal (.int 1) (.text "admin") (some (.text "Ann"))
  resource := "application"
  action := "all"
  ids := [("id", .int 7)]

def deskRules : List Rule :=
  [⟨0, .among [.text "editor"], none, "id"⟩, ⟨1, .among [.text "admin"], some (.objectIs (.int 7)), "id"⟩,
    ⟨2, .everyone, none, "id"⟩]

def deskWorld : World :=
  { listeningWorld with registries := [⟨[("application", [("all", deskRules)])], false⟩] }

/-- What comes about at the desk: the third rule is not tried any more. -/
def deskCourse : List Event :=
  [.line "current resource: application", .load "application", .line "current action: all",
      .read "application" "all"] ++
    (Gatehouse.candidates "application" "all" (deskRules.take 2)).map .attempt

theorem course_desk (hfound : found "application" "all" = deskRules) :
    sample.course (sample.consultation (depthLimit - 1)) deskCheck found
      (sample.opened (roomPerDecision * depthLimit) deskCheck deskWorld) = deskCourse := by
  have hscopes : sample.scopes deskCheck.resource = ["application"] := rfl
  have hactions : actionScopes deskCheck.action = ["all"] := rfl
  unfold course plan
  rw [hscopes, List.flatMap_singleton, Event.ofScope, hactions, List.flatMap_singleton, Event.ofBucket, hfound]
  with_unfolding_all rfl

theorem isQuiet_deskCourse : ∀ c, .attempt c ∈ deskCourse → c.rule.IsQuiet := by
  intro c hc condition hcondition
  simp only [deskCourse, deskRules, Gatehouse.candidates, List.take_succ_cons, List.take_zero, List.map_cons,
    List.map_nil, List.cons_append, List.nil_append, List.mem_cons, List.not_mem_nil, or_false, reduceCtorEq, false_or,
    Event.attempt.injEq] at hc
  rcases hc with rfl | rfl
  · cases hcondition
  · cases hcondition
    rfl

theorem decide_transcript_desk : sample.muted = false ∧
    sample.checkOf .null deskOptions none = .ok (some deskCheck) ∧
    (sample.decide .null deskOptions none deskWorld).2.log.heard =
      ["INFO user Ann(id:1 role:admin) requested access to method application:all using ids:\x7b'id': 7\x7d",
        "DEBUG current resource: application", "DEBUG current action: all",
        "DEBUG trying rule(#0): allow roles [editor]",
        "DEBUG trying rule(#1): allow roles [admin] (only under condition object_id will be retrieved using 'id')",
        "INFO returning true (access granted)"] := by
  have hcheck : sample.checkOf .null deskOptions none = .ok (some deskCheck) := by with_unfolding_all rfl
  refine ⟨rfl, hcheck, ?_⟩
  obtain ⟨-, -, htranscript⟩ := decide_transcript (e := sample) rfl .null deskOptions none deskWorld
  obtain ⟨found, progress, mid, after, lines, halong, hdecide, htells, hrecords⟩ := htranscript deskCheck hcheck
  have hfound : found "application" "all" = deskRules :=
    halong.reads [.line "current resource: application", .load "application", .line "current action: all"] "application"
      "all" _ rfl 0 _ rfl
  have hlines := htells.lines_eq
  rw [course_desk hfound] at hlines hrecords
  have hheard := (hrecords isQuiet_deskCourse).atDebug rfl rfl
  have hallowed : (sample.decide .null deskOptions none deskWorld).1.map Decision.allowed = .ok true := by
    with_unfolding_all rfl
  rw [hdecide] at hallowed ⊢
  cases progress with
  | error f => cases hallowed
  | ok progress =>
    have hresult := (resultLine_eq_iff true (progress.decision deskCheck)).2 (Except.ok.inj hallowed)
    have hrequest := htells.request "Ann(id:1 role:admin)" "\x7b'id': 7\x7d" (by with_unfolding_all rfl)
      (by with_unfolding_all rfl)
    change after.log.heard = _
    rw [hheard, hlines, transcript, hrequest, Except.map, resultLines, hresult]
    with_unfolding_all rfl

/-- An id that is a number inside of so many lists. -/
def buriedIdOptions : List (Value × Value) :=
  [(.text "resource", .text "products"), (.text "action", .text "show"), (.text "id", .nested (.int 1) 3000)]

def buriedIdCheck : Check where
  user := .null
  resource := "products"
  action := "show"
  ids := [("id", .nested (.int 1) 3000)]

theorem requestLine_buriedIdCheck : ∃ f, requestLine (roomPerDecision * depthLimit) buriedIdCheck = .error f := by
  have hid : (Value.nested (.int 1) 3000).overflow? (roomPerDecision * depthLimit - 1) = some .forms :=
    Value.overflow?_nested (by decide)
  have hids : (buriedIdCheck.ids.toValue.overflow? (roomPerDecision * depthLimit)).isSome :=
    Value.isSome_overflow?_of_mem_parts (.tail _ (.head _)) (Option.isSome_of_eq_some hid)
  obtain ⟨d, hd⟩ := Option.isSome_iff_exists.1 hids
  have hdepth : buriedIdCheck.ids.toValue.writtenOverflow? (roomPerDecision * depthLimit) = some d := hd
  refine ⟨.tooDeep d, ?_⟩
  unfold requestLine Value.writtenIn?
  rw [hdepth]
  rfl

/-- The line of a request whose ids have no text is lost, although its user has one. -/
theorem decide_buriedIdOptions : sample.muted = false ∧
    sample.checkOf .null buriedIdOptions none = .ok (some buriedIdCheck) ∧
    Principal.labelIn (roomPerDecision * depthLimit) buriedIdCheck.user = .ok "none" ∧
    (sample.decide .null buriedIdOptions none listeningWorld).2.log.heard =
      ["DEBUG current resource: products", "DEBUG current action: all", "DEBUG current action: show",
        "DEBUG current resource: application", "DEBUG current action: all", "DEBUG current action: show",
        "INFO returning false (access denied)"] := by
  have hcheck : sample.checkOf .null buriedIdOptions none = .ok (some buriedIdCheck) := by with_unfolding_all rfl
  refine ⟨rfl, hcheck, rfl, ?_⟩
  obtain ⟨f, hf⟩ := requestLine_buriedIdCheck
  have hopened : sample.opened (roomPerDecision * depthLimit) buriedIdCheck listeningWorld = listeningWorld := by
    unfold opened
    rw [hf, traced_of_not_muted rfl, Log.emit_error, World.asking_nil]
  have hscan : sample.scan (sample.consultation (depthLimit - 1)) buriedIdCheck
      (sample.opened (roomPerDecision * depthLimit) buriedIdCheck listeningWorld) =
        (.ok (.noRule "products" "show" 0),
          (sample.scan (sample.consultation (depthLimit - 1)) buriedIdCheck listeningWorld).2) := by
    rw [hopened]
    with_unfolding_all rfl
  rw [decide_eq_decideBy, decideBy_eq_of_check hcheck hscan]
  with_unfolding_all rfl

end Engine

end Gatehouse
