import Gatehouse.Proofs.Deciding.Meaning
import Gatehouse.Proofs.Deciding.Plan
import Gatehouse.Proofs.Registry.Changes

/-!
# Snapshots — rules registered on the way

A condition may register rules, even copies of its own rule, while a decision tries the bucket that it is
in. What is tried in a bucket was read when its turn came, and what is registered later stands behind that,
so a decision ends, and a new rule counts only where its bucket has yet to be read.
-/

namespace Gatehouse

open World (Turn)
open Run (MovesBy)

/-! ## 1. Registering while deciding -/

namespace Engine

section

variable {P : (α : Type) → Run α → Prop} {answers : Value → Run Bool}

theorem happen_of (h : Run.Deciding P) (hanswers : ∀ v, P Bool (answers v)) (e : Engine) (check : Check)
    (ev : Event) (tried : Nat) : P Progress (e.happen answers check ev tried) := by
  cases ev with
  | line message => exact h.bind (e.trace_of h _ _) fun _ => h.pure _
  | load scope => exact h.bind (e.load_of h scope) fun _ => h.pure _
  | read scope action => exact h.pure _
  | attempt c =>
    refine h.bind (c.rule.admits_of h hanswers check.objectOf check.user) fun admitted => ?_
    cases admitted <;> exact h.pure _

theorem follow_of (h : Run.Deciding P) (hanswers : ∀ v, P Bool (answers v)) (e : Engine) (check : Check)
    (events : List Event) (tried : Nat) : P Progress (e.follow answers check events tried) := by
  induction events generalizing tried with
  | nil => exact h.pure _
  | cons ev rest ih =>
    refine h.bind (happen_of h hanswers e check ev tried) fun progress => ?_
    cases progress with
    | granted decision => exact h.pure _
    | tried n => exact ih n

end

/-- The buckets when a rule's turn comes and after its condition has been asked, beside what the decision
finds: rules that have been registered meanwhile stand behind those that are there. So they stand behind
all that is found in buckets that have been read, and are found, in their place, in those yet to be read. -/
structure RegistersBehind (e : Engine) (found : String → String → List Rule) (before later : List Event)
    (mid next : World) : Prop where
  keeps : ∀ scope action,
    (mid.registry e.registry).bucket scope action <+: (next.registry e.registry).bucket scope action
  read : ∀ scope action, .read scope action ∈ before →
    found scope action <+: (mid.registry e.registry).bucket scope action
  unread : ∀ scope action, .read scope action ∈ later →
    (next.registry e.registry).bucket scope action <+: found scope action

section

variable (e : Engine) (answers : Value → Run Bool) (check : Check) (found : String → String → List Rule)
  (start : World)

/-- Nothing fails in a decision: what is asked to load returns, the user has a role or is nobody, and each
condition that is asked returns a value. -/
structure IsUntroubled : Prop where
  loads : ∀ before scope later, e.course answers check found start = before ++ .load scope :: later →
    ∀ n mid, e.follow answers check before 0 start = (.ok (.tried n), mid) → (e.load scope mid).1 = .ok ()
  role : check.user = .null ∨ check.user.role?.isSome = true
  returns : ∀ before c later condition,
    e.course answers check found start = before ++ .attempt c :: later → c.rule.condition = some condition →
    ∀ n mid, e.follow answers check before 0 start = (.ok (.tried n), mid) → ∀ log, ∃ answer,
      (condition.ask answers check.user (check.object c.rule)
        (mid.asking [(check.user, check.object c.rule)] log)).1 = .ok answer

/-- A decision reads each of its buckets once, when its turn comes, and tries what it has read there. -/
structure ReadsEachOnce (out : Except Fault Progress × World) : Prop extends
    e.GoesAlong answers check found (e.plan check found) 0 start out where
  isPrefix : e.course answers check found start <+: e.plan check found
  reads_isPrefix : (e.course answers check found start).filterMap Event.read? <+: e.places check
  behind : ∀ before c later, e.course answers check found start = before ++ .attempt c :: later →
    .read c.scope c.action ∈ before ∧
    ∃ n mid, e.follow answers check before 0 start = (.ok (.tried n), mid) ∧
      e.RegistersBehind found before later mid (c.rule.admits answers check.objectOf check.user mid).2
  granted : ∀ decision, out.1 = .ok (.granted decision) → ∃ before c,
    e.course answers check found start = before ++ [.attempt c] ∧
    decision = c.grant check (before.filterMap Event.attempt?).length
  denied : ∀ count, out.1 = .ok (.tried count) → e.course answers check found start = e.plan check found ∧
    count = ((e.places check).map fun p => (found p.1 p.2).length).sum
  decided : e.IsUntroubled answers check found start → ∃ progress, out.1 = .ok progress

end

/-! ## 2. What a decision finds -/

variable {e : Engine} {answers : Value → Run Bool} {check : Check} {found : String → String → List Rule}
  {events before later more : List Event} {c : Candidate} {tried n : Nat} {start w mid after : World}
  {out : Except Fault Progress × World}

theorem bucket_isPrefix_of_follow (hanswers : ∀ v, MovesBy Turn Bool (answers v)) (scope action : String)
    (h : e.follow answers check events tried w = (.ok (.tried n), after)) :
    (w.registry e.registry).bucket scope action <+: (after.registry e.registry).bucket scope action := by
  have hmoves := follow_of MovesBy.deciding hanswers e check events tried w
  rw [h] at hmoves
  exact World.bucket_isPrefix_of_turns hmoves e.registry scope action

theorem registersBehind_of_course (hanswers : ∀ v, MovesBy Turn Bool (answers v))
    (hreads : e.ReadsAs answers check found (e.plan check found) 0 start)
    (h : e.course answers check found start = before ++ .attempt c :: later) :
    .read c.scope c.action ∈ before ∧
    ∃ n mid, e.follow answers check before 0 start = (.ok (.tried n), mid) ∧
      e.RegistersBehind found before later mid (c.rule.admits answers check.objectOf check.user mid).2 := by
  obtain ⟨n, mid, rest, hplan, hbefore, -⟩ := of_reached_eq h
  refine ⟨read_mem_of_plan_eq hplan, n, mid, hbefore, ?_, ?_, ?_⟩
  · intro scope action
    have hmoves := c.rule.admits_of MovesBy.deciding hanswers check.objectOf check.user mid
    exact World.bucket_isPrefix_of_turns hmoves e.registry scope action
  -- What has been read was there then, and has only been added to since.
  · intro scope action hread
    obtain ⟨front, back, rfl⟩ := List.append_of_mem hread
    obtain ⟨m, mid', hfront, hback⟩ := of_follow_append hbefore
    rw [hreads front scope action (back ++ .attempt c :: rest) (by rw [hplan, List.append_assoc,
      List.cons_append]) m mid' hfront]
    exact bucket_isPrefix_of_follow hanswers scope action hback
  -- What is yet to be read will be what is there now, and what is added till then.
  · intro scope action hread
    obtain ⟨front, back, rfl⟩ := List.append_of_mem hread
    rw [← List.cons_append, ← List.append_assoc] at h
    obtain ⟨m, mid', rest', hplan', hall, -⟩ := of_reached_eq h
    rw [hreads _ scope action rest' hplan' m mid' hall]
    obtain ⟨n', again, hagain, hattempt⟩ := of_follow_append hall
    cases hbefore.symm.trans hagain
    obtain ⟨k, next, hnext, hfront⟩ := of_follow_cons hattempt
    rw [happen_attempt] at hnext
    rw [congrArg Prod.snd hnext]
    exact bucket_isPrefix_of_follow hanswers scope action hfront

end Engine

/-! ## 3. When a decision is made -/

theorem Roles.exists_cover (roles : Roles) {user : Value}
    (huser : user = .null ∨ user.role?.isSome = true) : ∃ covered, roles.cover user = .ok covered := by
  cases roles with
  | everyone => exact ⟨true, rfl⟩
  | among roles =>
    by_cases hnull : user = .null
    · rw [hnull]
      exact ⟨false, rfl⟩
    · obtain ⟨own, hown⟩ := Option.isSome_iff_exists.1 (huser.resolve_left hnull)
      exact ⟨_, cover_among hnull hown⟩

/-- A rule settles whether it admits somebody if their role can be read and its condition, asked about them,
returns. -/
theorem Rule.exists_admits {r : Rule} {answers : Value → Run Bool} {check : Check} {w : World}
    (hcover : ∃ covered, r.roles.cover check.user = .ok covered)
    (hreturns : r.roles.cover check.user = .ok true → ∀ condition, r.condition = some condition →
      ∀ log, ∃ answer, (condition.ask answers check.user (check.object r)
        (w.asking [(check.user, check.object r)] log)).1 = .ok answer) :
    ∃ admitted, (r.admits answers check.objectOf check.user w).1 = .ok admitted := by
  by_cases hrole : r.roles.cover check.user = .ok true → r.condition = none
  · rw [admits_of_role answers check hrole]
    exact hcover
  · obtain ⟨hcovers, hsome⟩ := Classical.not_imp.1 hrole
    obtain ⟨condition, hcondition⟩ := Option.ne_none_iff_exists'.1 hsome
    obtain ⟨answer, hanswer⟩ :=
      hreturns hcovers condition hcondition (w.log.emit .debug (.ok ("trying " ++ r.text)))
    rw [admits_of_condition answers check hcovers hcondition, Run.bind_run]
    cases hask : condition.ask answers check.user (check.object r)
        (w.asking [(check.user, check.object r)] (w.log.emit .debug (.ok ("trying " ++ r.text)))) with
    | mk result after =>
      rw [hask] at hanswer
      cases hanswer
      exact ⟨answer.truthy, rfl⟩

namespace Engine

variable {e : Engine} {answers : Value → Run Bool} {check : Check} {found : String → String → List Rule}
  {start after : World} {result : Except Fault Progress} {target : Value} {options : List (Value × Value)}
  {host : Option Host}

/-- A decision is made if everything that is loaded and every rule that is tried on the way returns. -/
theorem exists_progress_of_returns
    (hloads : ∀ before scope later, e.course answers check found start = before ++ .load scope :: later →
      ∀ n mid, e.follow answers check before 0 start = (.ok (.tried n), mid) → (e.load scope mid).1 = .ok ())
    (hrules : ∀ before c later, e.course answers check found start = before ++ .attempt c :: later →
      ∀ n mid, e.follow answers check before 0 start = (.ok (.tried n), mid) →
        ∃ admitted, (c.rule.admits answers check.objectOf check.user mid).1 = .ok admitted)
    (hfollows : e.follow answers check (e.plan check found) 0 start = (result, after)) :
    ∃ progress, result = .ok progress := by
  cases result with
  | ok progress => exact ⟨progress, rfl⟩
  | error f =>
    -- A fault would be that of the last event, and none of the four kinds fails.
    obtain ⟨before, last, n, mid, hcourse, hbefore, hlast⟩ := reached_of_ended hfollows (Progress.ends_error f)
    exfalso
    cases last with
    | line message =>
      obtain ⟨log, hline⟩ := e.trace_run .debug (.ok message) mid
      rw [happen_line n hline] at hlast
      cases hlast
    | load scope =>
      have hload := hloads before scope [] hcourse n mid hbefore
      rw [happen_load, hload] at hlast
      cases hlast
    | read scope action => cases hlast
    | attempt c =>
      obtain ⟨admitted, hadmits⟩ := hrules before c [] hcourse n mid hbefore
      rw [happen_attempt, hadmits] at hlast
      cases hlast

/-- A decision in which nothing fails is made. -/
theorem IsUntroubled.exists_progress (h : e.IsUntroubled answers check found start)
    (hfollows : e.follow answers check (e.plan check found) 0 start = (result, after)) :
    ∃ progress, result = .ok progress := by
  refine exists_progress_of_returns h.loads (fun before c later hcourse n mid hbefore => ?_) hfollows
  exact Rule.exists_admits (c.rule.roles.exists_cover h.role) fun _ condition hcondition =>
    h.returns before c later condition hcourse hcondition n mid hbefore

theorem length_places_le (e : Engine) (check : Check) : (e.places check).length ≤ 4 := by
  rw [places_eq]
  unfold scopes actionScopes
  split <;> split <;> simp

/-- Whatever rules the conditions of a decision register, even copies of their own, and whatever they do
besides that leaves the rules which are there: the decision reads each of its at most four buckets once, when
its turn comes. A rule registered on the way is not tried in a bucket that has been read, and is tried, in
its place, in one that has yet to be. A denial has tried as many rules as have been read, and if nothing
fails there is a decision. -/
theorem decideBy_reads_each_once (hanswers : ∀ v, MovesBy Turn Bool (answers v))
    (hcheck : e.checkOf target options host = .ok (some check)) (w : World) :
    (e.places check).Nodup ∧ (e.places check).length ≤ 4 ∧
    ∃ found log result after log',
      e.decideBy answers target options host w =
        (result.map (Progress.decision check), after.asking [] log') ∧
      e.ReadsEachOnce answers check found (w.asking [] log) (result, after) := by
  obtain ⟨found, log, result, after, log', halong, hdecide⟩ := decideBy_goesAlong answers hcheck w
  refine ⟨nodup_places e check, length_places_le e check, found, log, result, after, log', hdecide, ?_⟩
  have hprefix := course_isPrefix e answers check found (w.asking [] log)
  refine ⟨halong, hprefix, ?_, ?_, ?_, ?_, fun h => h.exists_progress halong.follows⟩
  · rw [← reads_plan e check found]
    exact hprefix.filterMap Event.read?
  · exact fun before c later => registersBehind_of_course hanswers halong.reads
  · rintro decision rfl
    exact course_of_granted halong.follows
  · rintro count rfl
    exact course_of_tried halong.follows

/-- A grant to administrators, under a condition that asks for a decision. -/
def consulting (action : String) : Grant Condition :=
  ⟨.text "products", .text action, .text "admin", .callable (.consult .null), .null⟩

/-- Registers the rule whose condition has asked twice more, in the bucket that it is in and in the one
behind it, and answers no. -/
def copying (_ : Value) : Run Bool := do
  let home ← Run.home
  discard (Run.permit home (consulting Name.everyAction))
  discard (Run.permit home (consulting "show"))
  return false

def copyingWorld : World := (Run.permit 0 (consulting Name.everyAction) World.initial).2

theorem movesBy_copying (v : Value) : MovesBy Turn Bool (copying v) := by
  have h := MovesBy.declaring
  refine h.bind h.home fun home => ?_
  refine h.bind (h.discard (h.permit home _)) fun _ => ?_
  exact h.bind (h.discard (h.permit home _)) fun _ => h.pure false

/-- Two rules are tried, the first one and its copy in the bucket behind it; there are five in the end. -/
theorem decideBy_reads_each_once_copying :
    (∀ v, MovesBy Turn Bool (copying v)) ∧ sample.checkOf .null sampleOptions none = .ok (some sampleCheck) ∧
    (∃ found log out, sample.ReadsEachOnce copying sampleCheck found (copyingWorld.asking [] log) out ∧
      ((sample.places sampleCheck).map fun p => (found p.1 p.2).length).sum = 2) ∧
    ((sample.decideBy copying .null sampleOptions none copyingWorld).2.registry 0).size = 5 := by
  obtain ⟨-, -, found, log, result, after, log', hdecide, hreads⟩ :=
    decideBy_reads_each_once movesBy_copying checkOf_sample copyingWorld
  refine ⟨movesBy_copying, checkOf_sample, ⟨found, log, _, hreads, ?_⟩, by decide +kernel⟩
  have hdenied : ((sample.decideBy copying .null sampleOptions none copyingWorld).1.toOption.map fun d =>
      !d.allowed && Value.equals d.evaluatedRules (.int 2)) = some true := by decide +kernel
  rw [hdecide] at hdenied
  cases result with
  | error f => cases hdenied
  | ok progress =>
    cases progress with
    | granted decision =>
      obtain ⟨before, c, -, rfl⟩ := hreads.granted decision rfl
      cases hdenied
    | tried count =>
      obtain ⟨-, hcount⟩ := hreads.denied count rfl
      rw [← hcount]
      have htwo : (count : Int) = 2 := by
        simpa [Except.map, Except.toOption, Progress.decision, Decision.noRule, Value.equals_int_int] using hdenied
      omega

end Engine

end Gatehouse
