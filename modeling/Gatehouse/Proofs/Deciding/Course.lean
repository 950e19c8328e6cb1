import Mathlib.Data.List.Basic
import Gatehouse.Proofs.Deciding.Walk

/-!
# Course — going along a line of events

A scan writes lines of the trace, loads resources, reads buckets and tries rules. Here these are events in
a row, along which a run goes until one of them grants or fails, and which of them come about is a list. An
event that comes about does so in the state that all events before it have left.
-/

namespace Gatehouse

/-- One thing that a scan does. -/
inductive Event where
  | line (message : String)
  | load (scope : String)
  | read (scope action : String)
  | attempt (c : Candidate)

namespace Event

/-- The resource whose turn it is; a line of the trace is about none. -/
def scope? : Event → Option String
  | .line _ => none
  | .load scope => some scope
  | .read scope _ => some scope
  | .attempt c => some c.scope

def load? : Event → Option String
  | .load scope => some scope
  | _ => none

def read? : Event → Option (String × String)
  | .read scope action => some (scope, action)
  | _ => none

def attempt? : Event → Option Candidate
  | .attempt c => some c
  | _ => none

end Event

/-- Goes on after a run that has not come to a grant. -/
def Run.unlessGranted (run : Run Progress) (next : Nat → Run Progress) : Run Progress := do
  match ← run with
  | .granted decision => return .granted decision
  | .tried tried => next tried

namespace Engine

section

variable (e : Engine) (answers : Value → Run Bool) (check : Check)

/-- One event, `tried` rules having been tried before. -/
def happen : Event → (tried : Nat) → Run Progress
  | .line message, tried => do
      e.trace .debug (.ok message)
      return .tried tried
  | .load scope, tried => do
      e.load scope
      return .tried tried
  | .read _ _, tried => return .tried tried
  | .attempt c, tried => do
      if ← c.rule.admits answers check.objectOf check.user then return .granted (c.grant check tried)
      else return .tried (tried + 1)

/-- Goes along a line of events until one of them grants or fails. -/
def follow : List Event → (tried : Nat) → Run Progress
  | [], tried => return .tried tried
  | ev :: rest, tried => (e.happen answers check ev tried).unlessGranted (follow rest)

/-- The events that come about on the way along a line of events. -/
def reached : List Event → (tried : Nat) → World → List Event
  | [], _, _ => []
  | ev :: rest, tried, w => ev :: match e.happen answers check ev tried w with
      | (.ok (.tried tried), after) => reached rest tried after
      | _ => []

/-- Whenever the turn of a bucket comes, the registry holds in it what is said to be found there. -/
def ReadsAs (found : String → String → List Rule) (events : List Event) (tried : Nat) (w : World) :
    Prop :=
  ∀ before scope action later, events = before ++ .read scope action :: later →
    ∀ n mid, e.follow answers check before tried w = (.ok (.tried n), mid) →
      found scope action = (mid.registry e.registry).bucket scope action

/-- A run comes to this end along these events, in which every bucket is as it is found. -/
structure GoesAlong (found : String → String → List Rule) (events : List Event) (tried : Nat)
    (w : World) (out : Except Fault Progress × World) : Prop where
  follows : e.follow answers check events tried w = out
  reads : e.ReadsAs answers check found events tried w

end

end Engine

/-! ## 1. Going on -/

section

variable {run : Run Progress} {next : Nat → Run Progress} {w mid after : World} {n : Nat}
  {result : Except Fault Progress}

/-- What a run has come to leaves nothing to those that would go on. -/
def Progress.Ends (result : Except Fault Progress) : Prop := ∀ n, result ≠ .ok (.tried n)

theorem Progress.ends_error (f : Fault) : Ends (.error f) := fun _ h => nomatch h

theorem Progress.ends_granted (decision : Decision) : Ends (.ok (.granted decision)) := fun _ h => nomatch h

theorem Progress.tried_or_ends (result : Except Fault Progress) :
    (∃ n, result = .ok (.tried n)) ∨ Ends result := by
  cases result with
  | error f => exact .inr (ends_error f)
  | ok progress =>
    cases progress with
    | granted decision => exact .inr (ends_granted decision)
    | tried n => exact .inl ⟨n, rfl⟩

theorem Run.unlessGranted_of_tried (h : run w = (.ok (.tried n), mid)) :
    run.unlessGranted next w = next n mid := by
  unfold unlessGranted
  rw [bind_of_ok h]

theorem Run.unlessGranted_of_ended (h : run w = (result, after)) (hended : Progress.Ends result) :
    run.unlessGranted next w = (result, after) := by
  unfold unlessGranted
  cases result with
  | error f => exact bind_of_error h
  | ok progress =>
    cases progress with
    | granted decision => exact bind_of_ok h
    | tried n => exact absurd rfl (hended n)

end

namespace Engine

variable {e : Engine} {answers : Value → Run Bool} {check : Check} {events more before later : List Event}
  {ev : Event} {tried n : Nat} {w mid after : World} {result : Except Fault Progress}

theorem follow_cons_of_tried (h : e.happen answers check ev tried w = (.ok (.tried n), mid)) :
    e.follow answers check (ev :: events) tried w = e.follow answers check events n mid :=
  Run.unlessGranted_of_tried h

theorem follow_cons_of_ended (h : e.happen answers check ev tried w = (result, after))
    (hended : Progress.Ends result) :
    e.follow answers check (ev :: events) tried w = (result, after) :=
  Run.unlessGranted_of_ended h hended

theorem reached_cons_of_tried (h : e.happen answers check ev tried w = (.ok (.tried n), mid)) :
    e.reached answers check (ev :: events) tried w = ev :: e.reached answers check events n mid := by
  rw [reached, h]

theorem reached_cons_of_ended (h : e.happen answers check ev tried w = (result, after))
    (hended : Progress.Ends result) :
    e.reached answers check (ev :: events) tried w = [ev] := by
  rw [reached, h]
  cases result with
  | error f => rfl
  | ok progress =>
    cases progress with
    | granted decision => rfl
    | tried n => exact absurd rfl (hended n)

/-- Whoever gets along a line of events gets past its first one. -/
theorem of_follow_cons (h : e.follow answers check (ev :: events) tried w = (.ok (.tried n), after)) :
    ∃ m mid, e.happen answers check ev tried w = (.ok (.tried m), mid) ∧
      e.follow answers check events m mid = (.ok (.tried n), after) := by
  cases hev : e.happen answers check ev tried w with
  | mk result mid =>
    obtain ⟨m, rfl⟩ | hended := Progress.tried_or_ends result
    · rw [follow_cons_of_tried hev] at h
      exact ⟨m, mid, rfl, h⟩
    · rw [follow_cons_of_ended hev hended] at h
      exact absurd (congrArg Prod.fst h) (hended n)

theorem follow_append_of_tried (h : e.follow answers check events tried w = (.ok (.tried n), mid)) :
    e.follow answers check (events ++ more) tried w = e.follow answers check more n mid := by
  induction events generalizing tried w with
  | nil =>
    cases h
    rfl
  | cons ev rest ih =>
    obtain ⟨m, first, hev, hrest⟩ := of_follow_cons h
    rw [List.cons_append, follow_cons_of_tried hev, ih hrest]

theorem follow_append_of_ended (h : e.follow answers check events tried w = (result, after))
    (hended : Progress.Ends result) :
    e.follow answers check (events ++ more) tried w = (result, after) := by
  induction events generalizing tried w with
  | nil =>
    cases h
    exact absurd rfl (hended tried)
  | cons ev rest ih =>
    rw [List.cons_append]
    cases hev : e.happen answers check ev tried w with
    | mk first mid =>
      obtain ⟨m, rfl⟩ | hfirst := Progress.tried_or_ends first
      · rw [follow_cons_of_tried hev] at h ⊢
        exact ih h
      · rw [follow_cons_of_ended hev hfirst] at h ⊢
        exact h

theorem of_follow_append
    (h : e.follow answers check (events ++ more) tried w = (.ok (.tried n), after)) :
    ∃ m mid, e.follow answers check events tried w = (.ok (.tried m), mid) ∧
      e.follow answers check more m mid = (.ok (.tried n), after) := by
  cases hevents : e.follow answers check events tried w with
  | mk result mid =>
    obtain ⟨m, rfl⟩ | hended := Progress.tried_or_ends result
    · rw [follow_append_of_tried hevents] at h
      exact ⟨m, mid, rfl, h⟩
    · rw [follow_append_of_ended hevents hended] at h
      exact absurd (congrArg Prod.fst h) (hended n)

/-! ## 2. What comes about -/

theorem reached_isPrefix (e : Engine) (answers : Value → Run Bool) (check : Check) (events : List Event)
    (tried : Nat) (w : World) :
    e.reached answers check events tried w <+: events := by
  induction events generalizing tried w with
  | nil => exact List.prefix_rfl
  | cons ev rest ih =>
    cases hev : e.happen answers check ev tried w with
    | mk result mid =>
      obtain ⟨n, rfl⟩ | hended := Progress.tried_or_ends result
      · rw [reached_cons_of_tried hev]
        exact List.prefix_cons_inj ev |>.2 (ih n mid)
      · rw [reached_cons_of_ended hev hended]
        exact ⟨rest, rfl⟩

/-- A line of events that is not broken off comes about as a whole. -/
theorem reached_of_tried (h : e.follow answers check events tried w = (.ok (.tried n), after)) :
    e.reached answers check events tried w = events := by
  induction events generalizing tried w with
  | nil => rfl
  | cons ev rest ih =>
    obtain ⟨m, mid, hev, hrest⟩ := of_follow_cons h
    rw [reached_cons_of_tried hev, ih hrest]

/-- The last event that comes about is the one that ends the line. -/
theorem reached_of_ended (h : e.follow answers check events tried w = (result, after))
    (hended : Progress.Ends result) :
    ∃ before last n mid, e.reached answers check events tried w = before ++ [last] ∧
      e.follow answers check before tried w = (.ok (.tried n), mid) ∧
      e.happen answers check last n mid = (result, after) := by
  induction events generalizing tried w with
  | nil =>
    cases h
    exact absurd rfl (hended tried)
  | cons ev rest ih =>
    cases hev : e.happen answers check ev tried w with
    | mk first mid =>
      obtain ⟨m, rfl⟩ | hfirst := Progress.tried_or_ends first
      · rw [follow_cons_of_tried hev] at h
        obtain ⟨before, last, n, mid', hreached, hbefore, hlast⟩ := ih h
        refine ⟨ev :: before, last, n, mid', ?_, ?_, hlast⟩
        · rw [reached_cons_of_tried hev, hreached, List.cons_append]
        · rw [follow_cons_of_tried hev, hbefore]
      · rw [follow_cons_of_ended hev hfirst] at h
        refine ⟨[], ev, tried, w, ?_, rfl, hev.trans h⟩
        rw [reached_cons_of_ended hev hfirst, List.nil_append]

/-- Whatever comes about does so after all that is planned before it. -/
theorem of_reached_eq (h : e.reached answers check events tried w = before ++ ev :: later) :
    ∃ n mid rest, events = before ++ ev :: rest ∧
      e.follow answers check before tried w = (.ok (.tried n), mid) ∧
      e.reached answers check (ev :: rest) n mid = ev :: later := by
  induction before generalizing events tried w with
  | nil =>
    obtain ⟨rest, hrest⟩ := reached_isPrefix e answers check events tried w
    rw [h, List.nil_append] at hrest
    exact ⟨tried, w, later ++ rest, hrest.symm, rfl, by rw [← List.cons_append, hrest, h, List.nil_append]⟩
  | cons first before ih =>
    cases events with
    | nil => cases h
    | cons ev' rest =>
      cases hev : e.happen answers check ev' tried w with
      | mk result mid =>
        obtain ⟨m, rfl⟩ | hended := Progress.tried_or_ends result
        · rw [reached_cons_of_tried hev, List.cons_append, List.cons.injEq] at h
          obtain ⟨rfl, h⟩ := h
          obtain ⟨n, mid', rest', rfl, hfollow, hreached⟩ := ih h
          exact ⟨n, mid', rest', rfl, by rw [follow_cons_of_tried hev, hfollow], hreached⟩
        · rw [reached_cons_of_ended hev hended, List.cons_append, List.cons.injEq] at h
          exact absurd h.2.symm (List.append_ne_nil_of_right_ne_nil _ (List.cons_ne_nil _ _))

theorem happen_line {message : String} (tried : Nat)
    (h : e.trace .debug (.ok message) w = (.ok (), after)) :
    e.happen answers check (.line message) tried w = (.ok (.tried tried), after) :=
  Run.bind_of_ok h

theorem happen_load (e : Engine) (answers : Value → Run Bool) (check : Check) (scope : String) (tried : Nat)
    (w : World) :
    e.happen answers check (.load scope) tried w =
      ((e.load scope w).1.map fun _ => .tried tried, (e.load scope w).2) := by
  cases hload : e.load scope w with
  | mk result after =>
    cases result with
    | error f => exact Run.bind_of_error hload
    | ok _ => exact Run.bind_of_ok hload

theorem happen_attempt (e : Engine) (answers : Value → Run Bool) (check : Check) (c : Candidate) (tried : Nat)
    (w : World) :
    e.happen answers check (.attempt c) tried w =
      ((c.rule.admits answers check.objectOf check.user w).1.map fun admitted =>
          if admitted then .granted (c.grant check tried) else .tried (tried + 1),
        (c.rule.admits answers check.objectOf check.user w).2) := by
  cases hadmits : c.rule.admits answers check.objectOf check.user w with
  | mk result after =>
    cases result with
    | error f => exact Run.bind_of_error hadmits
    | ok admitted =>
      refine (Run.bind_of_ok hadmits).trans ?_
      cases admitted <;> rfl

/-- An event that does not fail counts if it is an attempt, or is the attempt that grants. -/
theorem of_happen_ok {progress : Progress}
    (h : e.happen answers check ev tried w = (.ok progress, after)) :
    progress = .tried (tried + ([ev].filterMap Event.attempt?).length) ∨
      ∃ c, ev = .attempt c ∧ progress = .granted (c.grant check tried) := by
  cases ev with
  | line message =>
    obtain ⟨_, _, -, h⟩ := Run.bind_eq_ok_iff.1 h
    cases h
    exact .inl rfl
  | load scope =>
    obtain ⟨_, _, -, h⟩ := Run.bind_eq_ok_iff.1 h
    cases h
    exact .inl rfl
  | read scope action =>
    cases h
    exact .inl rfl
  | attempt c =>
    obtain ⟨admitted, _, -, h⟩ := Run.bind_eq_ok_iff.1 h
    cases admitted with
    | true =>
      cases h
      exact .inr ⟨c, rfl, rfl⟩
    | false =>
      cases h
      exact .inl rfl

/-- The count of what has been tried is that of the attempts on the way. -/
theorem follow_tried (h : e.follow answers check events tried w = (.ok (.tried n), after)) :
    n = tried + (events.filterMap Event.attempt?).length := by
  induction events generalizing tried w with
  | nil =>
    cases h
    rfl
  | cons ev rest ih =>
    obtain ⟨m, mid, hev, hrest⟩ := of_follow_cons h
    obtain hm | ⟨c, -, hm⟩ := of_happen_ok hev
    · cases hm
      rw [ih hrest, show ev :: rest = [ev] ++ rest from rfl, List.filterMap_append, List.length_append,
        Nat.add_assoc]
    · cases hm

/-! ## 3. What is found -/

section

variable {found : String → String → List Rule}

theorem readsAs_nil : e.ReadsAs answers check found [] tried w := by
  intro before scope action later h
  exact absurd h.symm (List.append_ne_nil_of_right_ne_nil _ (List.cons_ne_nil _ _))

theorem readsAs_cons
    (hread : ∀ scope action, ev = .read scope action →
      found scope action = (w.registry e.registry).bucket scope action)
    (hrest : ∀ n mid, e.happen answers check ev tried w = (.ok (.tried n), mid) →
      e.ReadsAs answers check found events n mid) :
    e.ReadsAs answers check found (ev :: events) tried w := by
  intro before scope action later hsplit n mid hbefore
  cases before with
  | nil =>
    cases hbefore
    exact hread scope action (List.cons.inj hsplit).1
  | cons first before =>
    obtain ⟨rfl, htail⟩ := List.cons.inj hsplit
    obtain ⟨m, mid', hfirst, hbefore⟩ := of_follow_cons hbefore
    exact hrest m mid' hfirst before scope action later htail n mid hbefore

theorem ReadsAs.append (h : e.ReadsAs answers check found events tried w)
    (hmore : ∀ n mid, e.follow answers check events tried w = (.ok (.tried n), mid) →
      e.ReadsAs answers check found more n mid) :
    e.ReadsAs answers check found (events ++ more) tried w := by
  intro before scope action later hsplit n mid hbefore
  -- The bucket is read among the first events, or among those that come after all of them.
  obtain ⟨middle, rfl, rest⟩ | ⟨middle, rfl, rest⟩ := List.append_eq_append_iff.1 hsplit
  · obtain ⟨m, mid', hevents, hmiddle⟩ := of_follow_append hbefore
    exact hmore m mid' hevents middle scope action later rest n mid hmiddle
  · cases middle with
    | nil =>
      rw [List.append_nil] at hmore
      exact hmore n mid hbefore [] scope action later rest.symm n mid rfl
    | cons ev middle =>
      obtain ⟨rfl, -⟩ := List.cons.inj rest
      exact h before scope action middle rfl n mid hbefore

/-- Only what is found in the buckets that are read matters. -/
theorem ReadsAs.congr {other : String → String → List Rule}
    (h : e.ReadsAs answers check found events tried w)
    (hother : ∀ scope action, .read scope action ∈ events → other scope action = found scope action) :
    e.ReadsAs answers check other events tried w := by
  intro before scope action later hsplit n mid hbefore
  rw [hother scope action (hsplit ▸ List.mem_append_right _ List.mem_cons_self)]
  exact h before scope action later hsplit n mid hbefore

theorem readsAs_attempts (cs : List Candidate) (tried : Nat) (w : World) :
    e.ReadsAs answers check found (cs.map .attempt) tried w := by
  intro before scope action later hsplit
  have hmem : Event.read scope action ∈ cs.map Event.attempt :=
    hsplit ▸ List.mem_append_right _ List.mem_cons_self
  obtain ⟨c, -, hc⟩ := List.mem_map.1 hmem
  cases hc

variable {out : Except Fault Progress × World}

theorem GoesAlong.congr {other : String → String → List Rule}
    (h : e.GoesAlong answers check found events tried w out)
    (hother : ∀ scope action, .read scope action ∈ events → other scope action = found scope action) :
    e.GoesAlong answers check other events tried w out :=
  ⟨h.follows, h.reads.congr hother⟩

theorem GoesAlong.cons_of_tried
    (hev : e.happen answers check ev tried w = (.ok (.tried n), mid))
    (hread : ∀ scope action, ev = .read scope action →
      found scope action = (w.registry e.registry).bucket scope action)
    (h : e.GoesAlong answers check found events n mid out) :
    e.GoesAlong answers check found (ev :: events) tried w out := by
  refine ⟨(follow_cons_of_tried hev).trans h.follows, readsAs_cons hread fun m mid' hev' => ?_⟩
  rw [hev] at hev'
  cases hev'
  exact h.reads

theorem GoesAlong.cons_of_ended (hev : e.happen answers check ev tried w = (result, after))
    (hended : Progress.Ends result) (hread : ∀ scope action, ev ≠ .read scope action) :
    e.GoesAlong answers check found (ev :: events) tried w (result, after) := by
  refine ⟨follow_cons_of_ended hev hended, readsAs_cons (fun scope action h => absurd h (hread _ _)) ?_⟩
  intro n mid hev'
  rw [hev] at hev'
  exact absurd (congrArg Prod.fst hev') (hended n)

theorem GoesAlong.append {run : Run Progress} {next : Nat → Run Progress} {start : World}
    (h : e.GoesAlong answers check found events tried w (run start))
    (hmore : ∀ n mid, run start = (.ok (.tried n), mid) →
      e.GoesAlong answers check found more n mid (next n mid)) :
    e.GoesAlong answers check found (events ++ more) tried w (run.unlessGranted next start) := by
  constructor
  · cases hrun : run start with
    | mk result mid =>
      have hfollow := h.follows.trans hrun
      obtain ⟨n, rfl⟩ | hended := Progress.tried_or_ends result
      · rw [follow_append_of_tried hfollow, Run.unlessGranted_of_tried hrun]
        exact (hmore n mid hrun).follows
      · rw [follow_append_of_ended hfollow hended, Run.unlessGranted_of_ended hrun hended]
  · exact h.reads.append fun n mid hfollow => (hmore n mid (h.follows.symm.trans hfollow)).reads

end

/-- What comes later is found only if it is come to. -/
theorem exists_found {P : (String → String → List Rule) → Nat → World → Prop}
    (out : Except Fault Progress × World) (h : ∀ n mid, ∃ found, P found n mid) :
    ∃ found, ∀ n mid, out = (.ok (.tried n), mid) → P found n mid := by
  obtain ⟨result, after⟩ := out
  obtain ⟨n, rfl⟩ | hended := Progress.tried_or_ends result
  · obtain ⟨found, hfound⟩ := h n after
    refine ⟨found, fun m mid heq => ?_⟩
    cases heq
    exact hfound
  · exact ⟨fun _ _ => [], fun m mid heq => absurd (congrArg Prod.fst heq) (hended m)⟩

end Engine

end Gatehouse
