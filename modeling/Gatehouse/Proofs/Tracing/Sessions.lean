import Gatehouse.Proofs.Deciding.Unlogged
import Gatehouse.Proofs.Tracing.Muted

/-!
# Sessions — whatever is traced, everything else is the same

A session asks one engine and its registry for one thing after the other. Some of it fails, some of it
changes the registry or the engine, and nearly all of it is traced. Two sessions that ask for the same,
but from states with any two logs, and with an engine whose lines are written or lost, get the same
answers; after each step they have the same rules and have put the same questions to conditions.
-/

namespace Gatehouse

open Run (Coupled Steady)

/-! ## 1. Steps -/

namespace Session

inductive Answer where
  | done
  | flag (holds : Bool)
  | count (n : Nat)
  | names (names : List String)
  | values (values : List Value)
  | rules (rules : List Rule)
  | check (check : Check)
  | decision (decision : Decision)
  | result (result : Option Value)

/-- What an engine and its registry can be asked for. -/
inductive Query where
  | permit (grant : Grant Condition)
  | rulesFor (resource action : Value)
  | hasResource (resource : Value)
  | resources
  | actionsFor (resource : Value)
  | size
  | freeze
  | isFrozen
  | clear
  | decide (target : Value) (options : List (Value × Value)) (host : Option Host)
  | authorize (target : Value) (options : List (Value × Value)) (host : Option Host)
  | require (target : Value) (options : List (Value × Value)) (host : Option Host)
  /-- What is done with an allowed target may be all that a condition may do. -/
  | ifAuthorized (target : Value) (deed : Condition) (host : Option Host)
  | buildCheck (target : Value) (host : Option Host)
  | isLoggedIn (host : Option Host)
  | scopesOf (resource : Value)
  | actionScopesOf (action : Value)
  | load (resource : Value)
  | isLoaded (resource : Value)

inductive Step where
  | query (q : Query)
  | setHost (host : Option Host)
  /-- Goes on with another engine over the same registry. -/
  | renew (host : Option Host) (loader : Option Loader) (resolver : Option Resolver) (settings : Settings)

/-- What is done with an allowed target: it is put to a condition, which nobody in particular asks. -/
def doing (e : Engine) (deed : Condition) (target : Value) : Run Value :=
  deed.ask (fun inner => e.authorize inner [] none) .null target

/-- What an engine's registry says. -/
def reading (e : Engine) (f : Registry → Except Fault α) : Run α := do
  Run.ofExcept (f (← Run.read fun w => w.registry e.registry))

/-- What the loader of an engine says; without one there is nothing to ask. -/
def readingLoader (e : Engine) (f : Loader → Except Fault α) : Run α := do
  match ← Run.read fun w => e.loader.bind fun i => w.loaders[i]? with
  | some loader => Run.ofExcept (f loader)
  | none => throw .noAttribute

def Query.run (e : Engine) : Query → Run Answer
  | .permit grant => do return .rules (← Run.permit e.registry grant)
  | .rulesFor resource action => do return .rules (← reading e fun r => r.rulesFor resource action)
  | .hasResource resource => do return .flag (← reading e fun r => r.hasResource resource)
  | .resources => do return .names (← reading e fun r => .ok r.resourceNames)
  | .actionsFor resource => do return .names (← reading e fun r => r.actionsFor resource)
  | .size => do return .count (← reading e fun r => .ok r.size)
  | .freeze => do
      Run.freeze e.registry
      return .done
  | .isFrozen => do return .flag (← reading e fun r => .ok r.frozen)
  | .clear => do
      Run.clear e.registry
      return .done
  | .decide target options host => do return .decision (← e.decide target options host)
  | .authorize target options host => do return .flag (← e.authorize target options host)
  | .require target options host => do return .decision (← e.require target options host)
  | .ifAuthorized target deed host => do return .result (← e.ifAuthorized target (doing e deed) host)
  | .buildCheck target host => do return .check (← Run.ofExcept (e.buildCheck target host))
  | .isLoggedIn host => do return .flag (← Run.ofExcept (Engine.isLoggedIn host))
  | .scopesOf resource => return .values (e.scopesOf resource)
  | .actionScopesOf action => return .values (Engine.actionScopesOf action)
  | .load resource => do
      match e.loader with
      | some i => Loader.ensure i resource
      | none => throw .noAttribute
      return .done
  | .isLoaded resource => do return .flag (← readingLoader e fun l => l.isLoaded resource)

def addLoader : Option Loader → Run (Option Nat)
  | some loader => do
      let i ← Run.read fun w => w.loaders.length
      Run.change fun w => { w with loaders := w.loaders ++ [loader] }
      return some i
  | none => return none

/-- The answer to a step, and the engine that the session goes on with. -/
def Step.run (e : Engine) : Step → Run (Answer × Engine)
  | .query q => do return (← q.run e, e)
  | .setHost host => return (.done, { e with host })
  | .renew host loader resolver settings => do
      let i ← addLoader loader
      let next ← Engine.make e.registry host i resolver settings e.muted e.consulted
      return (.names [next.fallback], next)

/-- What is there after a step, besides the trace: its answer, all rules, and all questions to conditions so far. -/
structure Report where
  answer : Except Fault Answer
  registries : List Registry
  questions : List (Value × Value)

/-- The reports on steps, and the engine and the state after them. A step that fails leaves the engine as it is. -/
def runAll : List Step → Engine → World → List Report × Engine × World
  | [], e, w => ([], e, w)
  | step :: rest, e, w =>
      let (result, after) := step.run e w
      let next := match result with
        | .ok (_, next) => next
        | .error _ => e
      let (reports, last) := runAll rest next after
      (⟨result.map Prod.fst, after.registries, after.calls⟩ :: reports, last)

/-! ## 2. One step -/

section

variable {Q : Tracing → Tracing → Prop}

theorem steady_reading (e : Engine) (f : Registry → Except Fault α) : Steady Q α (reading e f) := by
  apply Coupled.bind (Steady.read fun _ _ => rfl)
  intro registry
  exact Coupled.ofExcept _

theorem steady_readingLoader (e : Engine) (f : Loader → Except Fault α) : Steady Q α (readingLoader e f) := by
  apply Coupled.bind (Steady.read fun _ _ => rfl)
  intro found
  cases found with
  | some loader => exact Coupled.ofExcept _
  | none => exact Coupled.throw _

theorem steady_addLoader (loader : Option Loader) : Steady Q (Option Nat) (addLoader loader) := by
  cases loader with
  | none => exact Coupled.pure none
  | some loader =>
    apply Coupled.bind (Steady.read fun _ _ => rfl)
    intro i
    apply Coupled.bind (Steady.loading.setLoaders fun loaders => loaders ++ [loader])
    intro _
    exact Coupled.pure (some i)

theorem coupled_answer {run run' : Run α} (h : Coupled Q run run') (f : α → Answer) :
    Coupled Q (do return f (← run)) (do return f (← run')) :=
  Coupled.bind h fun a => Coupled.pure (f a)

variable (hQ : Tracing.IsBlind Q)

include hQ

theorem coupled_query (q : Query) (e : Engine) (muted : Bool) :
    Coupled Q (q.run e) (q.run (e.muting muted)) := by
  cases q with
  | permit grant => exact coupled_answer (Steady.declaring.permit e.registry grant) _
  | rulesFor resource action => exact coupled_answer (steady_reading e _) _
  | hasResource resource => exact coupled_answer (steady_reading e _) _
  | resources => exact coupled_answer (steady_reading e _) _
  | actionsFor resource => exact coupled_answer (steady_reading e _) _
  | size => exact coupled_answer (steady_reading e _) _
  | freeze => exact coupled_answer (Steady.freeze e.registry) _
  | isFrozen => exact coupled_answer (steady_reading e _) _
  | clear => exact coupled_answer (Steady.clear e.registry) _
  | decide target options host => exact coupled_answer (e.coupled_decide hQ muted target options host) _
  | authorize target options host => exact coupled_answer (e.coupled_authorize hQ muted target options host) _
  | require target options host => exact coupled_answer (e.coupled_require hQ muted target options host) _
  | ifAuthorized target deed host =>
    have hdeed : Coupled Q (doing e deed target) (doing (e.muting muted) deed target) :=
      deed.coupled_ask (fun inner => e.coupled_authorize hQ muted inner [] none) .null target
    exact coupled_answer (e.coupled_ifAuthorized hQ muted target hdeed host) _
  | buildCheck target host => exact coupled_answer (Coupled.ofExcept _) _
  | isLoggedIn host => exact coupled_answer (Coupled.ofExcept _) _
  | scopesOf resource => exact Coupled.pure _
  | actionScopesOf action => exact Coupled.pure _
  | load resource =>
    have hload : Coupled Q ((Query.load resource).run e) ((Query.load resource).run e) := by
      unfold Query.run
      cases e.loader with
      | none => exact Coupled.throw _
      | some i => exact coupled_answer (Steady.load i resource) fun _ => .done
    exact hload
  | isLoaded resource => exact coupled_answer (steady_readingLoader e _) _

/-- The engine after a step traces like the one before it, and is otherwise the same. -/
theorem coupled_step (step : Step) (e : Engine) (muted : Bool) :
    Coupled Q (do let (answer, next) ← step.run e; return (answer, next.muting muted))
      (step.run (e.muting muted)) := by
  cases step with
  | query q =>
    unfold Step.run
    rw [bind_assoc]
    exact Coupled.bind (coupled_query hQ q e muted) fun answer => Coupled.pure (answer, e.muting muted)
  | setHost host => exact Coupled.pure _
  | renew host loader resolver settings =>
    unfold Step.run
    have hsame : (e.muting muted).muted = muted := rfl
    rw [hsame, bind_assoc]
    apply Coupled.bind (steady_addLoader loader)
    intro i
    rw [Engine.make_muting _ _ _ _ _ e.muted muted, bind_assoc, bind_assoc]
    apply Coupled.bind (Steady.make _ _ _ _ _ _ _)
    intro next
    exact Coupled.pure _

end

/-! ## 3. Whole sessions -/

/-- Any two logs, in a process with one environment and the same settings. -/
def SameButLog (t t' : Tracing) : Prop := t'.environment = t.environment ∧ t'.settings = t.settings

theorem isBlind_sameButLog : Tracing.IsBlind SameButLog where
  left _ _ h := h
  right _ _ h := h

theorem tracedBy_of_sameButLog {w : World} {t : Tracing} (h : SameButLog w.tracing t) :
    w.tracedBy t = w.logging t.log := by
  obtain ⟨log, environment, settings⟩ := t
  obtain ⟨henvironment, hsettings⟩ := h
  dsimp only at henvironment hsettings
  rw [henvironment, hsettings]
  rfl

/-- One step from two states that differ in the log, with engines that may differ in whether they trace. -/
theorem step_of_logging (step : Step) (e : Engine) (muted : Bool) (w : World) (log : Trace.Log) :
    ∃ log', step.run (e.muting muted) (w.logging log) =
      ((step.run e w).1.map fun out => (out.1, out.2.muting muted), (step.run e w).2.logging log') := by
  have hsame : SameButLog w.tracing (w.logging log).tracing := ⟨rfl, rfl⟩
  obtain ⟨t, ht, hstep⟩ := coupled_step isBlind_sameButLog step e muted w _ hsame
  have hstart : w.tracedBy (w.logging log).tracing = w.logging log := rfl
  rw [hstart, Run.bind_run] at hstep
  rw [hstep]
  rw [Run.bind_run] at ht
  refine ⟨t.log, ?_⟩
  cases hrun : step.run e w with
  | mk result after =>
    rw [hrun] at ht
    cases result with
    | error f => exact congrArg (Prod.mk _) (tracedBy_of_sameButLog ht)
    | ok out => exact congrArg (Prod.mk _) (tracedBy_of_sameButLog ht)

/-- Whatever is traced, and whatever becomes of it: a session gives the same reports, and leaves the same engine and
the same state but for the log. -/
theorem runAll_of_logging (steps : List Step) (e : Engine) (muted : Bool) (w : World) (log : Trace.Log) :
    ∃ log', runAll steps (e.muting muted) (w.logging log) =
      ((runAll steps e w).1, (runAll steps e w).2.1.muting muted, (runAll steps e w).2.2.logging log') := by
  induction steps generalizing e w log with
  | nil => exact ⟨log, rfl⟩
  | cons step rest ih =>
    obtain ⟨mid, hstep⟩ := step_of_logging step e muted w log
    unfold runAll
    rw [hstep]
    cases hrun : step.run e w with
    | mk result after =>
      cases result with
      | error f =>
        obtain ⟨log', hrest⟩ := ih e after mid
        refine ⟨log', ?_⟩
        simp only [Except.map]
        rw [hrest]
        rfl
      | ok out =>
        obtain ⟨log', hrest⟩ := ih out.2 after mid
        refine ⟨log', ?_⟩
        simp only [Except.map]
        rw [hrest]
        rfl

end Session

end Gatehouse
