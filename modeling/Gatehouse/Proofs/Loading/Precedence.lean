import Gatehouse.Proofs.Deciding.Plan

/-!
# Precedence — loading before reading

A decision has a resource loaded when its turn comes, before anything is read of it, and has the fallback
resource loaded only if it needs it. A load that fails ends the decision in the same fault, whatever rules
are there already.
-/

namespace Gatehouse

namespace Engine

/-- The resources that a decision asks its loader for, in order. -/
def loadsOf (events : List Event) : List String := events.filterMap Event.load?

/-- A decision that starts in this state has its resources loaded first, each at its turn. -/
structure LoadsFirst (e : Engine) (answers : Value → Run Bool) (check : Check)
    (found : String → String → List Rule) (loader : Nat) (start : World)
    (out : Except Fault Progress × World) : Prop extends
    e.GoesAlong answers check found (e.plan check found) 0 start out where
  requested : [check.resource] <+: loadsOf (e.course answers check found start)
  precedes : ∀ before ev later scope, e.course answers check found start = before ++ ev :: later →
    ev.scope? = some scope → ev = .load scope ∨ .load scope ∈ before
  /-- The fallback resource is loaded if all rules of another resource have been tried in vain. -/
  fallback : ∀ before later, e.course answers check found start = before ++ .load e.fallback :: later →
    check.resource ≠ e.fallback →
    before.filterMap Event.attempt? = (actionScopes check.action).flatMap (fun action =>
      Gatehouse.candidates check.resource action (found check.resource action)) ∧
    ∃ n mid, e.follow answers check before 0 start = (.ok (.tried n), mid)
  decided : ∀ progress, out.1 = .ok progress → loadsOf (e.course answers check found start) =
    if check.resource = e.fallback ∨ (progress.decision check).matchedResource = some check.resource
    then [check.resource] else [check.resource, e.fallback]
  /-- A fault is that of a load or of a rule, and nothing is loaded after it. -/
  failed : ∀ f, out.1 = .error f → ∃ before last n mid scope,
    e.course answers check found start = before ++ [last] ∧
    e.follow answers check before 0 start = (.ok (.tried n), mid) ∧
    (e.happen answers check last n mid).1 = .error f ∧ last.scope? = some scope ∧
    loadsOf (e.course answers check found start) =
      if scope = check.resource then [check.resource] else [check.resource, e.fallback]
  /-- Nothing of a resource that fails to load is tried, and nothing comes after it. -/
  closed : ∀ before scope later n mid f after,
    e.course answers check found start = before ++ .load scope :: later →
    e.follow answers check before 0 start = (.ok (.tried n), mid) →
    Loader.ensure loader (.text scope) mid = (.error f, after) →
    later = [] ∧ out = (.error f, after) ∧
      ∀ c, .attempt c ∈ e.course answers check found start → c.scope ≠ scope ∧ .load c.scope ∈ before

variable {e : Engine} {answers : Value → Run Bool} {check : Check} {found : String → String → List Rule}
  {ev : Event} {before later : List Event} {scope : String} {start mid after : World} {n : Nat} {f : Fault}
  {result : Except Fault Progress} {out : Except Fault Progress × World}

/-! ## 1. The order of loads -/

theorem of_scopes_eq {resource : String} {pre post : List String}
    (h : e.scopes resource = pre ++ scope :: post) :
    pre = [] ∧ scope = resource ∨ resource ≠ e.fallback ∧ pre = [resource] ∧ scope = e.fallback := by
  unfold scopes at h
  split at h
  · rcases pre with _ | ⟨first, _ | ⟨second, pre⟩⟩
    · exact .inl ⟨rfl, (List.cons.inj h).1.symm⟩
    · cases (List.cons.inj h).2
    · cases (List.cons.inj h).2
  · rename_i hne
    rcases pre with _ | ⟨first, _ | ⟨second, pre⟩⟩
    · exact .inl ⟨rfl, (List.cons.inj h).1.symm⟩
    · obtain ⟨rfl, hrest⟩ := List.cons.inj h
      exact .inr ⟨hne, rfl, (List.cons.inj hrest).1.symm⟩
    · obtain ⟨-, hrest⟩ := List.cons.inj h
      exact absurd (List.cons.inj hrest).2.symm (List.append_ne_nil_of_right_ne_nil _ (List.cons_ne_nil _ _))

/-- What has been loaded by the time of an event: the resources up to its own. -/
theorem loadsOf_until (h : e.course answers check found start = before ++ ev :: later)
    (hev : ev.scope? = some scope) :
    loadsOf (before ++ [ev]) =
        (if scope = check.resource then [check.resource] else [check.resource, e.fallback]) ∧
      (scope = check.resource ∨ check.resource ≠ e.fallback ∧ scope = e.fallback) := by
  obtain ⟨_, _, rest, hplan, -, -⟩ := of_reached_eq h
  obtain ⟨pre, post, hscopes, hloads, -⟩ := of_plan_eq hplan hev
  unfold loadsOf
  rw [hloads]
  obtain ⟨rfl, rfl⟩ | ⟨hne, rfl, rfl⟩ := of_scopes_eq hscopes
  · rw [if_pos rfl]
    exact ⟨rfl, .inl rfl⟩
  · rw [if_neg (Ne.symm hne)]
    exact ⟨rfl, .inr ⟨hne, rfl⟩⟩

/-- A resource is loaded once, before anything else is done with it. -/
theorem load_precedes (h : e.course answers check found start = before ++ ev :: later)
    (hev : ev.scope? = some scope) : ev = .load scope ∨ .load scope ∈ before := by
  obtain ⟨_, _, rest, hplan, -, -⟩ := of_reached_eq h
  obtain ⟨pre, post, -, -, ⟨hload, -⟩ | ⟨-, hmem⟩⟩ := of_plan_eq hplan hev
  · exact .inl hload
  · exact .inr hmem

theorem load_not_mem (h : e.course answers check found start = before ++ .load scope :: later) :
    .load scope ∉ before := by
  intro hmem
  obtain ⟨_, _, rest, hplan, -, -⟩ := of_reached_eq h
  have hloads := loads_plan e check found
  rw [hplan, List.filterMap_append] at hloads
  have hnodup := nodup_scopes e check.resource
  rw [← hloads, List.nodup_append] at hnodup
  have hload : Event.load? (.load scope) = some scope := rfl
  refine hnodup.2.2 scope (List.mem_filterMap.2 ⟨_, hmem, rfl⟩) scope ?_ rfl
  rw [List.filterMap_cons_some hload]
  exact List.mem_cons_self

/-- The first thing that comes about, after a line of the trace, is that the requested resource is loaded. -/
theorem requested_loadsOf (e : Engine) (answers : Value → Run Bool) (check : Check)
    (found : String → String → List Rule) (start : World) :
    [check.resource] <+: loadsOf (e.course answers check found start) := by
  have hload : Event.load? (.load check.resource) = some check.resource := rfl
  obtain ⟨log, hline⟩ := e.trace_run .debug (.ok ("current resource: " ++ check.resource)) start
  have hscopes : ∃ rest, e.scopes check.resource = check.resource :: rest := by
    unfold scopes
    split
    · exact ⟨[], rfl⟩
    · exact ⟨[e.fallback], rfl⟩
  obtain ⟨rest, hrest⟩ := hscopes
  unfold loadsOf course plan
  rw [hrest, List.flatMap_cons]
  unfold Event.ofScope
  rw [List.cons_append, List.cons_append, reached_cons_of_tried (happen_line 0 hline), reached,
    List.filterMap_cons_none rfl, List.filterMap_cons_some hload]
  exact List.prefix_append [check.resource] _

/-- The fallback resource is loaded if all rules of another resource have been tried in vain. -/
theorem tried_of_load_fallback
    (h : e.course answers check found start = before ++ .load e.fallback :: later)
    (hne : check.resource ≠ e.fallback) :
    before.filterMap Event.attempt? = (actionScopes check.action).flatMap (fun action =>
      Gatehouse.candidates check.resource action (found check.resource action)) ∧
    ∃ n mid, e.follow answers check before 0 start = (.ok (.tried n), mid) := by
  obtain ⟨n, mid, rest, hplan, hbefore, -⟩ := of_reached_eq h
  refine ⟨?_, n, mid, hbefore⟩
  obtain ⟨pre, post, hscopes, -, ⟨-, heq⟩ | ⟨hother, -⟩⟩ := of_plan_eq hplan rfl
  · obtain ⟨-, hsame⟩ | ⟨-, rfl, -⟩ := of_scopes_eq hscopes
    · exact absurd hsame.symm hne
    · rw [heq, List.filterMap_append, List.flatMap_singleton, Event.attempts_ofScope]
      exact List.append_nil _
  · cases hother

/-! ## 2. The loads of a decision -/

theorem loadsOf_of_granted {decision : Decision}
    (h : e.follow answers check (e.plan check found) 0 start = (.ok (.granted decision), after)) :
    loadsOf (e.course answers check found start) =
      if check.resource = e.fallback ∨ decision.matchedResource = some check.resource
      then [check.resource] else [check.resource, e.fallback] := by
  obtain ⟨before, c, hcourse, rfl⟩ := course_of_granted h
  obtain ⟨hloads, hscope⟩ := loadsOf_until hcourse rfl
  rw [hcourse, hloads]
  obtain hsame | ⟨hne, hfallback⟩ := hscope
  · rw [if_pos hsame, if_pos (.inr (congrArg some hsame))]
  · have hother : ¬ c.scope = check.resource := fun hsame => hne (hsame.symm.trans hfallback)
    rw [if_neg hother, if_neg]
    rintro (hsame | hmatched)
    · exact hne hsame
    · exact hother (Option.some.inj hmatched)

theorem loadsOf_of_tried (h : e.follow answers check (e.plan check found) 0 start = (.ok (.tried n), after)) :
    loadsOf (e.course answers check found start) =
      if check.resource = e.fallback then [check.resource] else [check.resource, e.fallback] := by
  obtain ⟨hcourse, -⟩ := course_of_tried h
  rw [hcourse]
  exact loads_plan e check found

theorem loadsOf_of_ok {progress : Progress}
    (h : e.follow answers check (e.plan check found) 0 start = (.ok progress, after)) :
    loadsOf (e.course answers check found start) =
      if check.resource = e.fallback ∨ (progress.decision check).matchedResource = some check.resource
      then [check.resource] else [check.resource, e.fallback] := by
  cases progress with
  | granted decision => exact loadsOf_of_granted h
  | tried count =>
    rw [loadsOf_of_tried h]
    -- A denial names no resource that matched.
    by_cases hsame : check.resource = e.fallback
    · rw [if_pos hsame, if_pos (.inl hsame)]
    · rw [if_neg hsame, if_neg fun hor => hor.elim hsame nofun]

theorem loadsOf_of_error
    (h : e.follow answers check (e.plan check found) 0 start = (.error f, after)) :
    ∃ before last n mid scope, e.course answers check found start = before ++ [last] ∧
      e.follow answers check before 0 start = (.ok (.tried n), mid) ∧
      (e.happen answers check last n mid).1 = .error f ∧ last.scope? = some scope ∧
      loadsOf (e.course answers check found start) =
        if scope = check.resource then [check.resource] else [check.resource, e.fallback] := by
  obtain ⟨before, last, n, mid, hcourse, hbefore, hlast⟩ := reached_of_ended h (Progress.ends_error f)
  have hscope : ∃ scope, last.scope? = some scope := by
    cases last with
    | line message =>
      obtain ⟨log, hline⟩ := e.trace_run .debug (.ok message) mid
      rw [happen_line n hline] at hlast
      cases hlast
    | load scope => exact ⟨scope, rfl⟩
    | read scope action => exact ⟨scope, rfl⟩
    | attempt c => exact ⟨c.scope, rfl⟩
  obtain ⟨scope, hscope⟩ := hscope
  refine ⟨before, last, n, mid, scope, hcourse, hbefore, congrArg Prod.fst hlast, hscope, ?_⟩
  rw [← (loadsOf_until hcourse hscope).1]
  exact congrArg loadsOf hcourse

/-- A resource that cannot be loaded ends the decision before any of its rules is tried. -/
theorem closed_of_load (hfollows : e.follow answers check (e.plan check found) 0 start = out)
    (h : e.course answers check found start = before ++ .load scope :: later)
    (hbefore : e.follow answers check before 0 start = (.ok (.tried n), mid))
    (hload : e.load scope mid = (.error f, after)) :
    later = [] ∧ out = (.error f, after) ∧
      ∀ c, .attempt c ∈ e.course answers check found start → c.scope ≠ scope ∧ .load c.scope ∈ before := by
  have hhappen : e.happen answers check (.load scope) n mid = (.error f, after) := by
    rw [happen_load, hload]
    rfl
  obtain ⟨n', mid', rest, hplan, hbefore', hreached⟩ := of_reached_eq h
  cases hbefore.symm.trans hbefore'
  rw [reached_cons_of_ended hhappen (Progress.ends_error f)] at hreached
  have hlater : later = [] := (List.cons.inj hreached).2.symm
  refine ⟨hlater, ?_, fun c hc => ?_⟩
  · rw [← hfollows, hplan, follow_append_of_tried hbefore]
    exact follow_cons_of_ended hhappen (Progress.ends_error f)
  · rw [h, hlater] at hc
    rcases List.mem_append.1 hc with hc | hc
    · obtain ⟨front, back, rfl⟩ := List.append_of_mem hc
      have hfront : e.course answers check found start = front ++ .attempt c :: (back ++ .load scope :: later) := by
        rw [h, List.append_assoc, List.cons_append]
      obtain hload | hmem := load_precedes hfront rfl
      · cases hload
      · have hmem := List.mem_append_left (.attempt c :: back) hmem
        exact ⟨fun hsame => load_not_mem h (hsame ▸ hmem), hmem⟩
    · cases List.mem_singleton.1 hc

/-! ## 3. The law -/

variable {target : Value} {options : List (Value × Value)} {host : Option Host} {i : Nat}

/-- A decision has the requested resource loaded first, before anything of it is read, and the fallback
resource only if it is another one and no rule of the requested resource has admitted the request. So a
decision that is made has asked its loader for the requested resource alone if that is the fallback resource
or one of its rules grants, and for both otherwise; one that ends in a fault, for those up to the resource at
which the fault occurred. If loading fails, the decision fails with the same fault, and no rule of that resource
or a later one is tried, whatever the registry holds. -/
theorem decide_loads_first (hloader : e.loader = some i)
    (hcheck : e.checkOf target options host = .ok (some check)) (w : World) :
    ∃ found log result after log',
      e.decide target options host w = (result.map (Progress.decision check), after.asking [] log') ∧
      e.LoadsFirst (e.consultation (depthLimit - 1)) check found i (w.asking [] log) (result, after) := by
  rw [decide_eq_decideBy]
  obtain ⟨found, log, result, after, log', halong, hdecide⟩ :=
    decideBy_goesAlong (e.consultation (depthLimit - 1)) hcheck w
  have hload : ∀ scope, e.load scope = Loader.ensure i (.text scope) := by
    intro scope
    unfold load
    rw [hloader]
  refine ⟨found, log, result, after, log', hdecide, halong, requested_loadsOf e _ check found _,
    fun _ _ _ _ => load_precedes, fun _ _ => tried_of_load_fallback, ?_, ?_, ?_⟩
  · rintro progress rfl
    exact loadsOf_of_ok halong.follows
  · rintro f rfl
    exact loadsOf_of_error halong.follows
  · intro before scope later n mid f failed hcourse hbefore hensure
    exact closed_of_load halong.follows hcourse hbefore ((congrFun (hload scope) mid).trans hensure)

/-- An engine with a loader, and nothing else around it. -/
def onDemand : Engine := { sample with loader := some 0 }

/-- The rules are there already, and the loader has nothing to add. -/
def stockedWorld : World := { sampleWorld with loaders := [.script [] []] }

theorem decide_loads_first_stockedWorld :
    onDemand.loader = some 0 ∧ onDemand.checkOf .null sampleOptions none = .ok (some sampleCheck) ∧
    ∃ found log result after log', onDemand.decide .null sampleOptions none stockedWorld =
        (.ok (Progress.decision sampleCheck result), after.asking [] log') ∧
      onDemand.LoadsFirst (onDemand.consultation (depthLimit - 1)) sampleCheck found 0
        (stockedWorld.asking [] log) (.ok result, after) ∧
      loadsOf (onDemand.course (onDemand.consultation (depthLimit - 1)) sampleCheck found
        (stockedWorld.asking [] log)) = ["products"] := by
  have hcheck : onDemand.checkOf .null sampleOptions none = .ok (some sampleCheck) := checkOf_sample
  have hmatched : (onDemand.decide .null sampleOptions none stockedWorld).1.toOption.map
      Decision.matchedResource = some (some "products") := by decide +kernel
  obtain ⟨found, log, result, after, log', hdecide, hloads⟩ := decide_loads_first rfl hcheck stockedWorld
  rw [hdecide] at hmatched
  cases result with
  | error f => cases hmatched
  | ok progress =>
    refine ⟨rfl, hcheck, found, log, progress, after, log', hdecide, hloads, ?_⟩
    rw [hloads.decided progress rfl, if_pos (.inr (Option.some.inj hmatched))]
    rfl

/-- There is a rule for everybody, and its condition fails. -/
def failingWorld : World :=
  { World.initial with
    registries := [⟨[("products", [("show",
      [⟨0, .everyone, some (.failing (.foreign "RuntimeError" "no answer")), "id"⟩])])], false⟩]
    loaders := [.script [] []] }

/-- A condition that fails ends the decision before the fallback resource is loaded. -/
theorem decide_failingWorld_loads :
    onDemand.scopes sampleCheck.resource = ["products", "application"] ∧
    (onDemand.decide .null sampleOptions none failingWorld).1 = .error (.foreign "RuntimeError" "no answer") ∧
    (onDemand.decide .null sampleOptions none failingWorld).2.loaders = [.script [] [.text "products"]] := by
  refine ⟨rfl, ?_, ?_⟩
  · with_unfolding_all rfl
  · with_unfolding_all rfl

end Engine

end Gatehouse
