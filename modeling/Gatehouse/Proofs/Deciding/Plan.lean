import Mathlib.Algebra.GroupWithZero.Nat
import Gatehouse.Proofs.Deciding.Course

/-!
# Plan — the straight line that a decision goes along

What a scan tries depends on what it reads. Once it is known what it finds in each bucket, all it does is a
straight line of events, its plan, along which it goes until a rule grants or something fails. That holds
whatever conditions and loading do to the registry on the way, since every bucket is read once, before its
rules are tried.
-/

namespace Gatehouse

namespace Event

/-- What is done with a bucket in which these rules are found. -/
def ofBucket (found : String → String → List Rule) (scope action : String) : List Event :=
  .line ("current action: " ++ action) :: .read scope action ::
    (candidates scope action (found scope action)).map .attempt

/-- What is done with a resource. -/
def ofScope (found : String → String → List Rule) (actions : List String) (scope : String) :
    List Event :=
  .line ("current resource: " ++ scope) :: .load scope :: actions.flatMap (ofBucket found scope)

end Event

/-- All that a decision does if nothing ends it before, given what it finds in each bucket. -/
def Engine.plan (e : Engine) (check : Check) (found : String → String → List Rule) : List Event :=
  (e.scopes check.resource).flatMap (Event.ofScope found (Engine.actionScopes check.action))

namespace Event

variable {found other : String → String → List Rule} {scope action : String}

theorem ofBucket_congr (h : other scope action = found scope action) :
    ofBucket other scope action = ofBucket found scope action := by
  unfold ofBucket
  rw [h]

theorem flatMap_ofBucket_congr {actions : List String}
    (h : ∀ action ∈ actions, other scope action = found scope action) :
    actions.flatMap (ofBucket other scope) = actions.flatMap (ofBucket found scope) :=
  List.flatMap_congr fun action ha => ofBucket_congr (h action ha)

theorem ofScope_congr {actions : List String}
    (h : ∀ action ∈ actions, other scope action = found scope action) :
    ofScope other actions scope = ofScope found actions scope := by
  unfold ofScope
  rw [flatMap_ofBucket_congr h]

theorem read_mem_ofBucket {s a : String} :
    .read s a ∈ ofBucket found scope action ↔ s = scope ∧ a = action := by
  unfold ofBucket
  simp

theorem read_mem_flatMap_ofBucket {s a : String} {actions : List String} :
    .read s a ∈ actions.flatMap (ofBucket found scope) ↔ s = scope ∧ a ∈ actions := by
  simp only [List.mem_flatMap, read_mem_ofBucket]
  constructor
  · rintro ⟨action, ha, rfl, rfl⟩
    exact ⟨rfl, ha⟩
  · rintro ⟨rfl, ha⟩
    exact ⟨a, ha, rfl, rfl⟩

theorem read_mem_ofScope {s a : String} {actions : List String} :
    .read s a ∈ ofScope found actions scope ↔ s = scope ∧ a ∈ actions := by
  unfold ofScope
  rw [List.mem_cons, List.mem_cons, read_mem_flatMap_ofBucket]
  exact ⟨fun h => h.elim nofun fun h => h.elim nofun id, fun h => .inr (.inr h)⟩

end Event

/-! ## 1. A scan goes along its plan -/

namespace Engine

variable {e : Engine} {answers : Value → Run Bool} {check : Check} {tried : Nat} {w after : World}
  {scope action : String} {log : Trace.Log}

theorem tryRules_eq_follow (rules : List Rule) (tried : Nat) (w : World) :
    tryRules answers check scope action rules tried w =
      e.follow answers check ((Gatehouse.candidates scope action rules).map .attempt) tried w := by
  induction rules generalizing tried w with
  | nil => rfl
  | cons rule rest ih =>
    have hhappen := happen_attempt e answers check ⟨scope, action, rule⟩ tried w
    unfold tryRules
    cases hadmits : rule.admits answers check.objectOf check.user w with
    | mk result after =>
      rw [hadmits] at hhappen
      cases result with
      | error f => exact (Run.bind_of_error hadmits).trans (follow_cons_of_ended hhappen (Progress.ends_error f)).symm
      | ok admitted =>
        rw [Run.bind_of_ok hadmits]
        cases admitted with
        | true => exact (follow_cons_of_ended hhappen (Progress.ends_granted _)).symm
        | false => exact (ih (tried + 1) after).trans (follow_cons_of_tried hhappen).symm

theorem goesAlong_bucket {found : String → String → List Rule} (tried : Nat)
    (hline : e.trace .debug (.ok ("current action: " ++ action)) w = (.ok (), w.asking [] log))
    (hfound : found scope action = (w.registry e.registry).bucket scope action) :
    e.GoesAlong answers check found (Event.ofBucket found scope action) tried w
      (tryRules answers check scope action ((w.registry e.registry).bucket scope action) tried
        (w.asking [] log)) := by
  refine .cons_of_tried (happen_line tried hline) (fun _ _ h => by cases h) ?_
  refine .cons_of_tried rfl (fun s a h => ?_) ⟨?_, readsAs_attempts _ _ _⟩
  · cases h
    exact hfound
  · rw [← hfound]
    exact (tryRules_eq_follow _ _ _).symm

/-- The buckets of a resource are found one after the other. -/
theorem exists_goesAlong_actions (e : Engine) (answers : Value → Run Bool) (check : Check) (scope : String)
    {actions : List String} (hnodup : actions.Nodup) (tried : Nat) (w : World) :
    ∃ found, e.GoesAlong answers check found (actions.flatMap (Event.ofBucket found scope)) tried w
      (e.scanActions answers check scope actions tried w) := by
  induction actions generalizing tried w with
  | nil => exact ⟨fun _ _ => [], rfl, readsAs_nil⟩
  | cons action rest ih =>
    obtain ⟨hnew, hnodup⟩ := List.nodup_cons.1 hnodup
    obtain ⟨log, hline⟩ := e.trace_run .debug (.ok ("current action: " ++ action)) w
    have hscan : e.scanActions answers check scope (action :: rest) tried w =
        (tryRules answers check scope action ((w.registry e.registry).bucket scope action)
          tried).unlessGranted (e.scanActions answers check scope rest) (w.asking [] log) := by
      unfold scanActions
      rw [Run.bind_of_ok hline, Run.bind_of_ok (Run.read_run _ _)]
      rfl
    obtain ⟨later, hlater⟩ := exists_found _ (ih hnodup)
    -- What is found later is found under other actions.
    let found : String → String → List Rule := fun s a =>
      if a = action then (w.registry e.registry).bucket s a else later s a
    have hlate : ∀ a ∈ rest, found scope a = later scope a := fun a ha =>
      if_neg fun heq : a = action => hnew (heq ▸ ha)
    refine ⟨found, ?_⟩
    rw [hscan, List.flatMap_cons]
    refine (goesAlong_bucket tried hline (if_pos rfl)).append fun n mid htry => ?_
    rw [Event.flatMap_ofBucket_congr hlate]
    refine (hlater n mid htry).congr fun s a hread => ?_
    obtain ⟨rfl, ha⟩ := Event.read_mem_flatMap_ofBucket.1 hread
    exact hlate a ha

/-- The turn of one resource. -/
def scanScope (e : Engine) (answers : Value → Run Bool) (check : Check) (scope : String) (tried : Nat) :
    Run Progress := do
  e.trace .debug (.ok ("current resource: " ++ scope))
  e.load scope
  e.scanActions answers check scope (actionScopes check.action) tried

theorem scanScopes_eq_unlessGranted (rest : List String) (tried : Nat) :
    e.scanScopes answers check (scope :: rest) tried =
      (e.scanScope answers check scope tried).unlessGranted (e.scanScopes answers check rest) := by
  -- Sequencing is associative, so it does not matter whether the turn of a resource is one run or three.
  rw [scanScopes_cons]
  exact ((bind_assoc _ _ _).trans (congrArg _ (funext fun _ => bind_assoc _ _ _))).symm

theorem nodup_actionScopes (action : String) : (actionScopes action).Nodup := by
  unfold actionScopes
  split
  · exact List.nodup_cons.2 ⟨List.not_mem_nil, List.nodup_nil⟩
  · rename_i hne
    simp [Ne.symm hne]

theorem exists_goesAlong_scope (e : Engine) (answers : Value → Run Bool) (check : Check) (scope : String)
    (tried : Nat) (w : World) :
    ∃ found, e.GoesAlong answers check found (Event.ofScope found (actionScopes check.action) scope)
      tried w (e.scanScope answers check scope tried w) := by
  obtain ⟨log, hline⟩ := e.trace_run .debug (.ok ("current resource: " ++ scope)) w
  have hscope : e.scanScope answers check scope tried w = (e.load scope >>= fun _ =>
      e.scanActions answers check scope (actionScopes check.action) tried) (w.asking [] log) :=
    Run.bind_of_ok hline
  have hhappen := happen_load e answers check scope tried (w.asking [] log)
  rw [hscope]
  cases hload : e.load scope (w.asking [] log) with
  | mk result loaded =>
    rw [hload] at hhappen
    cases result with
    -- Nothing is read of a resource that cannot be loaded.
    | error f =>
      rw [Run.bind_of_error hload]
      exact ⟨fun _ _ => [], .cons_of_tried (happen_line tried hline) nofun
        (.cons_of_ended hhappen (Progress.ends_error f) nofun)⟩
    | ok _ =>
      obtain ⟨found, hfound⟩ := exists_goesAlong_actions e answers check scope
        (nodup_actionScopes check.action) tried loaded
      rw [Run.bind_of_ok hload]
      exact ⟨found, .cons_of_tried (happen_line tried hline) nofun (.cons_of_tried hhappen nofun hfound)⟩

/-- The buckets of all resources are found one after the other. -/
theorem exists_goesAlong_scopes (e : Engine) (answers : Value → Run Bool) (check : Check)
    {scopes : List String} (hnodup : scopes.Nodup) (tried : Nat) (w : World) :
    ∃ found, e.GoesAlong answers check found
      (scopes.flatMap (Event.ofScope found (actionScopes check.action))) tried w
      (e.scanScopes answers check scopes tried w) := by
  induction scopes generalizing tried w with
  | nil => exact ⟨fun _ _ => [], rfl, readsAs_nil⟩
  | cons scope rest ih =>
    obtain ⟨hnew, hnodup⟩ := List.nodup_cons.1 hnodup
    obtain ⟨here, hhere⟩ := exists_goesAlong_scope e answers check scope tried w
    obtain ⟨later, hlater⟩ := exists_found _ (ih hnodup)
    let found : String → String → List Rule := fun s a => if s = scope then here s a else later s a
    have hnow : ∀ a, found scope a = here scope a := fun _ => if_pos rfl
    have hlate : ∀ s ∈ rest, ∀ a, found s a = later s a := fun s hs _ =>
      if_neg fun heq : s = scope => hnew (heq ▸ hs)
    refine ⟨found, ?_⟩
    rw [scanScopes_eq_unlessGranted, List.flatMap_cons]
    refine .append ?_ fun n mid hscope => ?_
    · rw [Event.ofScope_congr fun a _ => hnow a]
      refine hhere.congr fun s a hread => ?_
      obtain ⟨rfl, -⟩ := Event.read_mem_ofScope.1 hread
      exact hnow a
    · rw [List.flatMap_congr fun s hs => Event.ofScope_congr fun a _ => hlate s hs a]
      refine (hlater n mid hscope).congr fun s a hread => ?_
      obtain ⟨t, ht, hread⟩ := List.mem_flatMap.1 hread
      obtain ⟨rfl, -⟩ := Event.read_mem_ofScope.1 hread
      exact hlate s ht a

theorem nodup_scopes (e : Engine) (resource : String) : (e.scopes resource).Nodup := by
  unfold scopes
  split
  · exact List.nodup_cons.2 ⟨List.not_mem_nil, List.nodup_nil⟩
  · rename_i hne
    simp [hne]

/-- Whatever conditions do, a decision on a complete request goes along its plan, between two lines of the
trace. -/
theorem decideWith_eq_goesAlong {subject : Value} {host : Option Host} (answers : Value → Run Bool) (room : Nat)
    (hcheck : e.checkFor subject host = .ok (some check)) (w : World) :
    ∃ found result after,
      e.GoesAlong answers check found (e.plan check found) 0 (e.opened room check w) (result, after) ∧
      decideWith answers room e subject host w = (result.map (Progress.decision check),
        after.asking [] (e.closed after.log (result.map (Progress.decision check)))) := by
  obtain ⟨found, hfound⟩ := exists_goesAlong_scopes e answers check (nodup_scopes e check.resource) 0
    (e.opened room check w)
  cases hscan : e.scanScopes answers check (e.scopes check.resource) 0 (e.opened room check w) with
  | mk result after =>
    rw [hscan] at hfound
    exact ⟨found, result, after, hfound, decideWith_eq_of_check hcheck (scan_run hscan)⟩

theorem decideWith_goesAlong {subject : Value} {host : Option Host} (answers : Value → Run Bool) (room : Nat)
    (hcheck : e.checkFor subject host = .ok (some check)) (w : World) :
    ∃ found log result after log',
      e.GoesAlong answers check found (e.plan check found) 0 (w.asking [] log) (result, after) ∧
      decideWith answers room e subject host w =
        (result.map (Progress.decision check), after.asking [] log') := by
  obtain ⟨found, result, after, halong, hdecide⟩ := decideWith_eq_goesAlong answers room hcheck w
  exact ⟨found, _, result, after, _, halong, hdecide⟩

theorem decideBy_eq_goesAlong {target : Value} {options : List (Value × Value)} {host : Option Host}
    (answers : Value → Run Bool) (hcheck : e.checkOf target options host = .ok (some check)) (w : World) :
    ∃ found result after,
      e.GoesAlong answers check found (e.plan check found) 0 (e.opened (roomPerDecision * depthLimit) check w)
        (result, after) ∧
      e.decideBy answers target options host w = (result.map (Progress.decision check),
        after.asking [] (e.closed after.log (result.map (Progress.decision check)))) := by
  unfold checkOf at hcheck
  obtain ⟨out, hsubject, hcheck⟩ := bind_eq_ok_iff.1 hcheck
  unfold decideBy
  rw [hsubject, Run.bind_of_ok (Run.ofExcept_run _ w)]
  exact decideWith_eq_goesAlong answers _ hcheck w

theorem decideBy_goesAlong {target : Value} {options : List (Value × Value)} {host : Option Host}
    (answers : Value → Run Bool) (hcheck : e.checkOf target options host = .ok (some check)) (w : World) :
    ∃ found log result after log',
      e.GoesAlong answers check found (e.plan check found) 0 (w.asking [] log) (result, after) ∧
      e.decideBy answers target options host w =
        (result.map (Progress.decision check), after.asking [] log') := by
  obtain ⟨found, result, after, halong, hdecide⟩ := decideBy_eq_goesAlong answers hcheck w
  exact ⟨found, _, result, after, _, halong, hdecide⟩

end Engine

/-! ## 2. The order of a plan -/

namespace Event

variable (found : String → String → List Rule)

theorem loads_ofBucket (scope action : String) : (ofBucket found scope action).filterMap load? = [] := by
  unfold ofBucket
  rw [List.filterMap_cons_none rfl, List.filterMap_cons_none rfl, List.filterMap_map]
  exact List.filterMap_eq_nil_iff.2 fun _ _ => rfl

theorem reads_ofBucket (scope action : String) :
    (ofBucket found scope action).filterMap read? = [(scope, action)] := by
  have hread : read? (read scope action) = some (scope, action) := rfl
  unfold ofBucket
  rw [List.filterMap_cons_none rfl, List.filterMap_cons_some hread, List.filterMap_map]
  exact congrArg _ (List.filterMap_eq_nil_iff.2 fun _ _ => rfl)

theorem attempts_ofBucket (scope action : String) :
    (ofBucket found scope action).filterMap attempt? = candidates scope action (found scope action) := by
  unfold ofBucket
  rw [List.filterMap_cons_none rfl, List.filterMap_cons_none rfl, List.filterMap_map]
  exact List.filterMap_some

theorem loads_ofScope (actions : List String) (scope : String) :
    (ofScope found actions scope).filterMap load? = [scope] := by
  have hload : load? (load scope) = some scope := rfl
  unfold ofScope
  rw [List.filterMap_cons_none rfl, List.filterMap_cons_some hload, List.filterMap_flatMap]
  exact congrArg _ (List.flatMap_eq_nil_iff.2 fun action _ => loads_ofBucket found scope action)

theorem reads_ofScope (actions : List String) (scope : String) :
    (ofScope found actions scope).filterMap read? = actions.map fun action => (scope, action) := by
  unfold ofScope
  rw [List.filterMap_cons_none rfl, List.filterMap_cons_none rfl, List.filterMap_flatMap]
  simp only [reads_ofBucket, List.map_eq_flatMap]

theorem attempts_ofScope (actions : List String) (scope : String) :
    (ofScope found actions scope).filterMap attempt? =
      actions.flatMap fun action => candidates scope action (found scope action) := by
  unfold ofScope
  rw [List.filterMap_cons_none rfl, List.filterMap_cons_none rfl, List.filterMap_flatMap]
  simp only [attempts_ofBucket]

variable {found} {ev : Event} {scope action s : String} {before later : List Event}

theorem scope?_of_mem_ofBucket (h : ev ∈ ofBucket found scope action) (hev : ev.scope? = some s) : s = scope := by
  unfold ofBucket at h
  rcases List.mem_cons.1 h with rfl | h
  · cases hev
  rcases List.mem_cons.1 h with rfl | h
  · exact (Option.some.inj hev).symm
  · obtain ⟨c, hc, rfl⟩ := List.mem_map.1 h
    obtain ⟨rule, -, rfl⟩ := List.mem_map.1 hc
    exact (Option.some.inj hev).symm

/-- Before anything else is done with a resource, it is loaded. -/
theorem of_ofScope_eq {actions : List String} (h : ofScope found actions scope = before ++ ev :: later)
    (hev : ev.scope? = some s) :
    s = scope ∧ (before ++ [ev]).filterMap load? = [scope] ∧
      (ev = .load scope ∧ before = [.line ("current resource: " ++ scope)] ∨
        ev.load? = none ∧ .load scope ∈ before) := by
  have hload : load? (load scope) = some scope := rfl
  unfold ofScope at h
  rcases before with _ | ⟨first, _ | ⟨second, before⟩⟩
  · obtain ⟨rfl, -⟩ := List.cons.inj h
    cases hev
  · obtain ⟨rfl, hload'⟩ := List.cons.inj h
    obtain ⟨rfl, -⟩ := List.cons.inj hload'
    exact ⟨(Option.some.inj hev).symm, rfl, .inl ⟨rfl, rfl⟩⟩
  · obtain ⟨rfl, hload'⟩ := List.cons.inj h
    obtain ⟨rfl, hrest⟩ := List.cons.inj hload'
    change _ = before ++ ev :: later at hrest
    have hmem : ev ∈ actions.flatMap (ofBucket found scope) := by
      rw [hrest]
      exact List.mem_append_right _ List.mem_cons_self
    obtain ⟨action, -, hbucket⟩ := List.mem_flatMap.1 hmem
    -- Nothing is loaded between the buckets of a resource.
    have hprefix : before ++ [ev] <+: actions.flatMap (ofBucket found scope) :=
      ⟨later, by rw [hrest, List.append_assoc, List.singleton_append]⟩
    have hnone : (actions.flatMap (ofBucket found scope)).filterMap load? = [] := by
      rw [List.filterMap_flatMap]
      exact List.flatMap_eq_nil_iff.2 fun action _ => loads_ofBucket found scope action
    have hloads := hprefix.filterMap load?
    rw [hnone, List.prefix_nil] at hloads
    have hother := List.filterMap_eq_nil_iff.1 hloads ev (List.mem_append_right _ List.mem_cons_self)
    refine ⟨scope?_of_mem_ofBucket hbucket hev, ?_,
      .inr ⟨hother, List.mem_cons_of_mem _ List.mem_cons_self⟩⟩
    rw [List.cons_append, List.cons_append, List.filterMap_cons_none rfl, List.filterMap_cons_some hload, hloads]

/-- Before a rule of a bucket is tried, the bucket is read. -/
theorem of_ofBucket_eq {c : Candidate} (h : ofBucket found scope action = before ++ .attempt c :: later) :
    c.scope = scope ∧ c.action = action ∧ .read scope action ∈ before := by
  unfold ofBucket at h
  rcases before with _ | ⟨first, _ | ⟨second, before⟩⟩
  · cases (List.cons.inj h).1
  · cases (List.cons.inj (List.cons.inj h).2).1
  · obtain ⟨rfl, hread⟩ := List.cons.inj h
    obtain ⟨rfl, hrest⟩ := List.cons.inj hread
    have hmem : attempt c ∈ (candidates scope action (found scope action)).map attempt := by
      rw [hrest]
      exact List.mem_append_right _ List.mem_cons_self
    obtain ⟨c', hc, heq⟩ := List.mem_map.1 hmem
    cases heq
    obtain ⟨rule, -, rfl⟩ := List.mem_map.1 hc
    exact ⟨rfl, rfl, List.mem_cons_of_mem _ List.mem_cons_self⟩

/-- Where something stands in lists in a row. -/
theorem exists_of_flatMap_eq {f : α → List β} {xs : List α} {before later : List β} {b : β}
    (h : xs.flatMap f = before ++ b :: later) :
    ∃ pre x post front back, xs = pre ++ x :: post ∧ f x = front ++ b :: back ∧
      before = pre.flatMap f ++ front := by
  induction xs generalizing before with
  | nil => exact absurd h.symm (List.append_ne_nil_of_right_ne_nil _ (List.cons_ne_nil _ _))
  | cons x xs ih =>
    rw [List.flatMap_cons] at h
    obtain ⟨middle, rfl, hrest⟩ | ⟨middle, hx, hrest⟩ := List.append_eq_append_iff.1 h
    · obtain ⟨pre, y, post, front, back, rfl, hy, rfl⟩ := ih hrest
      exact ⟨x :: pre, y, post, front, back, rfl, hy, by rw [List.flatMap_cons, List.append_assoc]⟩
    · obtain ⟨rfl, hmore⟩ | ⟨middle', rfl, -⟩ := List.append_eq_cons_iff.1 hrest.symm
      · obtain ⟨pre, y, post, front, back, rfl, hy, hfront⟩ := ih (show _ = [] ++ b :: later from hmore)
        refine ⟨x :: pre, y, post, front, back, rfl, hy, ?_⟩
        rw [List.flatMap_cons, List.append_assoc, ← hfront, hx, List.append_nil, List.append_nil]
      · exact ⟨[], x, xs, before, middle', rfl, hx, rfl⟩

end Event

namespace Engine

variable {e : Engine} {check : Check} {found : String → String → List Rule} {ev : Event} {scope : String}
  {before later : List Event}

theorem loads_plan (e : Engine) (check : Check) (found : String → String → List Rule) :
    (e.plan check found).filterMap Event.load? = e.scopes check.resource := by
  unfold plan
  rw [List.filterMap_flatMap]
  simp only [Event.loads_ofScope, List.flatMap_singleton']

theorem reads_plan (e : Engine) (check : Check) (found : String → String → List Rule) :
    (e.plan check found).filterMap Event.read? = e.places check := by
  unfold plan
  rw [List.filterMap_flatMap, places_eq]
  simp only [Event.reads_ofScope]

theorem attempts_plan (e : Engine) (check : Check) (found : String → String → List Rule) :
    (e.plan check found).filterMap Event.attempt? =
      (e.places check).flatMap fun p => Gatehouse.candidates p.1 p.2 (found p.1 p.2) := by
  unfold plan
  rw [List.filterMap_flatMap, places_eq, List.flatMap_assoc]
  simp only [Event.attempts_ofScope, List.flatMap_map]

/-- Only rules that are found are tried. -/
theorem rule_mem_found_of_mem_plan {c : Candidate} (h : .attempt c ∈ e.plan check found) :
    c.rule ∈ found c.scope c.action := by
  have hmem : c ∈ (e.plan check found).filterMap Event.attempt? := List.mem_filterMap.2 ⟨_, h, rfl⟩
  rw [attempts_plan] at hmem
  obtain ⟨place, -, hc⟩ := List.mem_flatMap.1 hmem
  obtain ⟨rule, hrule, rfl⟩ := List.mem_map.1 hc
  exact hrule

/-- What has been loaded when the turn of a resource comes: all resources before it, and the resource itself,
which is loaded before anything else is done with it. -/
theorem of_plan_eq (h : e.plan check found = before ++ ev :: later) (hev : ev.scope? = some scope) :
    ∃ pre post, e.scopes check.resource = pre ++ scope :: post ∧
      (before ++ [ev]).filterMap Event.load? = pre ++ [scope] ∧
      (ev = .load scope ∧ before = pre.flatMap (Event.ofScope found (actionScopes check.action)) ++
          [.line ("current resource: " ++ scope)] ∨
        ev.load? = none ∧ .load scope ∈ before) := by
  obtain ⟨pre, x, post, front, back, hscopes, hx, rfl⟩ := Event.exists_of_flatMap_eq h
  obtain ⟨rfl, hloads, hfirst⟩ := Event.of_ofScope_eq hx hev
  refine ⟨pre, post, hscopes, ?_, ?_⟩
  · rw [List.append_assoc, List.filterMap_append, hloads, List.filterMap_flatMap]
    simp only [Event.loads_ofScope, List.flatMap_singleton']
  · obtain ⟨rfl, rfl⟩ | ⟨hother, hmem⟩ := hfirst
    · exact .inl ⟨rfl, rfl⟩
    · exact .inr ⟨hother, List.mem_append_right _ hmem⟩

theorem read_mem_of_plan_eq {c : Candidate} (h : e.plan check found = before ++ .attempt c :: later) :
    .read c.scope c.action ∈ before := by
  obtain ⟨pre, scope, post, front, back, -, hscope, rfl⟩ := Event.exists_of_flatMap_eq h
  unfold Event.ofScope at hscope
  rcases front with _ | ⟨first, _ | ⟨second, front⟩⟩
  · cases (List.cons.inj hscope).1
  · cases (List.cons.inj (List.cons.inj hscope).2).1
  · obtain ⟨-, hload⟩ := List.cons.inj hscope
    obtain ⟨-, hbuckets⟩ := List.cons.inj hload
    obtain ⟨pre', action, post', front', back', -, hbucket, hfront⟩ := Event.exists_of_flatMap_eq hbuckets
    obtain ⟨rfl, rfl, hread⟩ := Event.of_ofBucket_eq hbucket
    rw [hfront]
    exact List.mem_append_right _ (List.mem_cons_of_mem _ (List.mem_cons_of_mem _
      (List.mem_append_right _ hread)))

/-! ## 3. What comes about of a plan -/

/-- What comes about in a decision that starts in this state. -/
def course (e : Engine) (answers : Value → Run Bool) (check : Check) (found : String → String → List Rule)
    (start : World) : List Event :=
  e.reached answers check (e.plan check found) 0 start

variable {answers : Value → Run Bool} {start after : World} {n : Nat}

theorem course_isPrefix (e : Engine) (answers : Value → Run Bool) (check : Check)
    (found : String → String → List Rule) (start : World) :
    e.course answers check found start <+: e.plan check found :=
  reached_isPrefix e answers check _ 0 start

/-- A grant is by the rule that has been tried last. -/
theorem course_of_granted {decision : Decision}
    (h : e.follow answers check (e.plan check found) 0 start = (.ok (.granted decision), after)) :
    ∃ before c, e.course answers check found start = before ++ [.attempt c] ∧
      decision = c.grant check (before.filterMap Event.attempt?).length := by
  obtain ⟨before, last, n, mid, hcourse, hbefore, hlast⟩ := reached_of_ended h (Progress.ends_granted decision)
  obtain hlast | ⟨c, rfl, hc⟩ := of_happen_ok hlast
  · cases hlast
  · cases hc
    have hn := follow_tried hbefore
    rw [Nat.zero_add] at hn
    exact ⟨before, c, hcourse, by rw [hn]⟩

/-- A denial has tried all that it has found. -/
theorem course_of_tried (h : e.follow answers check (e.plan check found) 0 start = (.ok (.tried n), after)) :
    e.course answers check found start = e.plan check found ∧
      n = ((e.places check).map fun p => (found p.1 p.2).length).sum := by
  refine ⟨reached_of_tried h, ?_⟩
  rw [follow_tried h, attempts_plan, List.length_flatMap, Nat.zero_add]
  simp only [Gatehouse.candidates, List.length_map]

end Engine

end Gatehouse
