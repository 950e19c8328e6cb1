import Gatehouse.Proofs.Handlers.Definition
import Gatehouse.Proofs.Shared
import Gatehouse.Proofs.Tracing.Destinations
import Gatehouse.Proofs.Tracing.Sessions

/-!
# Processes — checks of a process that traces to a file or to the console

The engines of classes and the engine of the process are made when they are first needed, and the trace
is set up with them. As long as that works, it does not matter where the trace goes: classes, grants
and checks come to the same, call by call, as if all lines went to the console. If it does not work,
no engine is made, and the check for which it was to be made ends in the fault of the log file.
-/

namespace Gatehouse

open Run (Coupled Steady)
open Tracing (BothWork isBlind_bothWork)

/-! ## 1. Making engines -/

section

variable {s s' : Settings}

theorem Engine.make_of_agreeButLog (h : s.AgreeButLog s') (registry : Nat) (host : Option Host)
    (loader : Option Nat) (resolver : Option Resolver) (muted consulted : Bool) :
    make registry host loader resolver s' muted consulted =
      make registry host loader resolver s muted consulted := by
  unfold make
  rw [h.fallbackResource, h.relativeUrlRoot]

namespace Shared

theorem makeLoader_of_agreeButLog (h : s.AgreeButLog s') : makeLoader s' = makeLoader s := by
  unfold makeLoader Settings.lazyLoading
  rw [h.lazyLoadPackage]

theorem steady_makeLoader {Q : Tracing → Tracing → Prop} (s : Settings) :
    Steady Q (Option Nat) (makeLoader s) :=
  makeLoader_of Steady.sequential s fun _ => Steady.of_apart (fun _ => rfl) fun _ _ => rfl

theorem steady_engine (h : s.AgreeButLog s') : Steady (BothWork s s') Engine engine := by
  apply Coupled.bind (Steady.read fun _ _ => rfl)
  intro known
  cases known with
  | some e => exact Coupled.pure e
  | none =>
    apply coupled_settings
    apply Coupled.bind coupled_ensureTrace
    intro _
    rw [makeLoader_of_agreeButLog h]
    apply Coupled.bind (steady_makeLoader s)
    intro loader
    apply Coupled.bind (Steady.read fun _ _ => rfl)
    intro shared
    rw [Engine.make_of_agreeButLog h]
    apply Coupled.bind (Steady.make _ _ _ _ _ _ _)
    intro e
    have hkept : Steady (BothWork s s') Unit
        (Run.change fun w => { w with engine := some e, engineSettings := true }) :=
      Steady.change (fun _ => rfl) fun _ _ => rfl
    exact Coupled.bind hkept fun _ => Coupled.pure e

end Shared

/-! ## 2. Classes -/

namespace Handler

section

variable {Q : Tracing → Tracing → Prop}

theorem steady_permitAll (i : Nat) (name : String) (grants : List (Grant Condition)) :
    Steady Q Unit (permitAll i name grants) :=
  permitAll_of Steady.sequential (Steady.declaring.permit i) name grants

theorem steady_define (d : Definition) : Steady Q Nat (define d) := by
  apply Coupled.bind (Steady.read fun _ _ => rfl)
  intro result
  apply Coupled.bind (Coupled.ofExcept result)
  intro made
  apply Coupled.bind (Steady.read fun _ _ => rfl)
  intro registry
  apply Coupled.bind (steady_permitAll registry made.resourceName (d.grantsOf made))
  intro _
  apply Coupled.bind (Steady.read fun _ _ => rfl)
  intro i
  have hadded : Steady Q Unit (Run.change fun w => { w with handlers := w.handlers ++ [made] }) :=
    Steady.change (fun _ => rfl) fun _ _ => rfl
  exact Coupled.bind hadded fun _ => Coupled.pure i

theorem steady_get (i : Nat) : Steady Q Handler (get i) := by
  apply Coupled.bind (Steady.read fun _ _ => rfl)
  intro found
  cases found with
  | some h => exact Coupled.pure h
  | none => exact Coupled.throw _

theorem steady_permit (i : Nat) (grant : Grant Condition) : Steady Q (List Rule) (permit i grant) := by
  apply Coupled.bind (steady_get i)
  intro h
  exact Coupled.bind (Steady.read fun _ _ => rfl) fun registry => Steady.declaring.permit registry _

theorem steady_setRegistry (i : Nat) (registry : Option Nat) : Steady Q Unit (setRegistry i registry) :=
  Steady.change (fun _ => rfl) fun _ _ => rfl

end

variable (h : s.AgreeButLog s')

include h

theorem steady_renewEngine (i registry : Nat) : Steady (BothWork s s') Engine (renewEngine i registry) := by
  apply Shared.coupled_settings
  apply Coupled.bind (Steady.read fun _ _ => rfl)
  intro loader
  apply Coupled.bind (Steady.read fun _ _ => rfl)
  intro resolver
  rw [Engine.make_of_agreeButLog h]
  apply Coupled.bind (Steady.make _ _ _ _ _ _ _)
  intro e
  apply Coupled.bind Shared.coupled_ensureTrace
  intro _
  have hkept : Steady (BothWork s s') Unit (Run.change fun w => { w with
      handlers := w.handlers.modify i fun h => { h with engine := some e } }) :=
    Steady.change (fun _ => rfl) fun _ _ => rfl
  exact Coupled.bind hkept fun _ => Coupled.pure e

theorem steady_engineOf (i : Nat) : Steady (BothWork s s') Engine (engineOf i) := by
  apply Coupled.bind (steady_get i)
  intro handler
  apply Coupled.bind (Steady.read fun _ _ => rfl)
  intro registry
  cases handler.engine with
  | none => exact steady_renewEngine h i registry
  | some e =>
    dsimp only
    split
    · exact Coupled.pure e
    · exact steady_renewEngine h i registry

theorem steady_authorizeAction (i : Nat) (own : Hooks) (target : Value) (options : List (Value × Value)) :
    Steady (BothWork s s') Bool (authorizeAction i own target options) := by
  apply Coupled.bind (steady_engineOf h i)
  intro e
  cases nameHost options with
  | true => exact Coupled.throw _
  | false =>
    apply Coupled.bind (Steady.read fun _ _ => rfl)
    intro host
    exact e.coupled_authorize (isBlind_bothWork s s') e.muted target options (some host)

theorem steady_authorized (i : Nat) (own : Hooks) : Steady (BothWork s s') Bool (authorized i own) := by
  -- All that is read of the state are the options.
  have hread : Steady (BothWork s s') Bool (do
      let options ← Run.read fun w => currentOptions w i own
      authorizeAction i own .null (← Run.ofExcept options)) := by
    apply Coupled.bind (Steady.read fun _ _ => rfl)
    intro options
    apply Coupled.bind (Coupled.ofExcept _)
    intro options
    exact steady_authorizeAction h i own .null options
  exact hread

theorem steady_ifAuthorized (i : Nat) (own : Hooks) (target : Value) {callback : Value → Run α}
    (hcallback : Steady (BothWork s s') α (callback target)) :
    Steady (BothWork s s') (Option α) (ifAuthorized i own target callback) := by
  apply Coupled.bind (steady_engineOf h i)
  intro e
  apply Coupled.bind (Steady.read fun _ _ => rfl)
  intro host
  exact e.coupled_ifAuthorized (isBlind_bothWork s s') e.muted target hcallback (some host)

end Handler

end

/-! ## 3. Calls -/

namespace Process

open Session (Answer Query Report)

/-- What a process does with classes, registries and its own engine. -/
inductive Call where
  | define (d : Handler.Definition)
  | permit (handler : Nat) (grant : Grant Condition)
  | setRegistry (handler : Nat) (registry : Option Nat)
  | authorizeAction (handler : Nat) (own : Hooks) (target : Value) (options : List (Value × Value))
  | authorized (handler : Nat) (own : Hooks)
  /-- What is done with an allowed target may be all that a condition may do. -/
  | ifAuthorized (handler : Nat) (own : Hooks) (target : Value) (deed : Condition)
  /-- Asks the engine of the process, which is made if need be. -/
  | ask (q : Query)
  | declare (registry : Nat) (grant : Grant Condition)
  | clear (registry : Nat)
  | freeze (registry : Nat)
  | renewRegistry
  | forgetEngine
  | forgetSettings

/-- What is done with a target that an instance may act on: it is put to a condition, which nobody in particular
asks. -/
def doing (i : Nat) (own : Hooks) (deed : Condition) (target : Value) : Run Value :=
  deed.ask (fun inner => Handler.authorizeAction i own inner []) .null target

def Call.run : Call → Run Answer
  | .define d => do return .count (← Handler.define d)
  | .permit i grant => do return .rules (← Handler.permit i grant)
  | .setRegistry i registry => do
      Handler.setRegistry i registry
      return .done
  | .authorizeAction i own target options => do
      return .flag (← Handler.authorizeAction i own target options)
  | .authorized i own => do return .flag (← Handler.authorized i own)
  | .ifAuthorized i own target deed => do
      return .result (← Handler.ifAuthorized i own target (doing i own deed))
  | .ask q => do
      let e ← Shared.engine
      q.run e
  | .declare registry grant => do return .rules (← Run.permit registry grant)
  | .clear registry => do
      Run.clear registry
      return .done
  | .freeze registry => do
      Run.freeze registry
      return .done
  | .renewRegistry => do
      Shared.renewRegistry
      return .done
  | .forgetEngine => do
      Shared.forgetEngine
      return .done
  | .forgetSettings => do
      Shared.forgetSettings
      return .done

/-- The reports on calls, some of which may fail, and the state after them. -/
def runAll : List Call → World → List Report × World
  | [], w => ([], w)
  | call :: rest, w =>
      let (answer, after) := call.run w
      let (reports, last) := runAll rest after
      (⟨answer, after.registries, after.calls⟩ :: reports, last)

section

variable {s s' : Settings}

/-- Settings that have been forgotten are read again, and are the same. -/
theorem steady_forgetSettings : Steady (BothWork s s') Unit Shared.forgetSettings := by
  intro w t hboth
  have hforgotten : ∀ {r : Settings} {u : Tracing}, u.Works r → Tracing.Works r { u with settings := none } :=
    fun h => ⟨⟨h.reads, .inl rfl⟩, h.canTrace⟩
  exact ⟨{ t with settings := none }, ⟨hforgotten hboth.1, hforgotten hboth.2⟩, rfl⟩

theorem steady_run (h : s.AgreeButLog s') (call : Call) : Steady (BothWork s s') Answer call.run := by
  cases call with
  | define d => exact Session.coupled_answer (Handler.steady_define d) _
  | permit i grant => exact Session.coupled_answer (Handler.steady_permit i grant) _
  | setRegistry i registry => exact Session.coupled_answer (Handler.steady_setRegistry i registry) _
  | authorizeAction i own target options =>
    exact Session.coupled_answer (Handler.steady_authorizeAction h i own target options) _
  | authorized i own => exact Session.coupled_answer (Handler.steady_authorized h i own) _
  | ifAuthorized i own target deed =>
    have hdeed : Steady (BothWork s s') Value (doing i own deed target) :=
      deed.coupled_ask (fun inner => Handler.steady_authorizeAction h i own inner []) .null target
    exact Session.coupled_answer (Handler.steady_ifAuthorized h i own target hdeed) _
  | ask q =>
    apply Coupled.bind (Shared.steady_engine h)
    intro e
    exact Session.coupled_query (isBlind_bothWork s s') q e e.muted
  | declare i grant => exact Session.coupled_answer (Steady.declaring.permit i grant) _
  | clear i => exact Session.coupled_answer (Steady.clear i) _
  | freeze i => exact Session.coupled_answer (Steady.freeze i) _
  | renewRegistry =>
    have hrenew : Steady (BothWork s s') Unit Shared.renewRegistry :=
      Steady.change (fun _ => rfl) fun _ _ => rfl
    exact Session.coupled_answer hrenew _
  | forgetEngine =>
    have hforget : Steady (BothWork s s') Unit Shared.forgetEngine :=
      Steady.change (fun _ => rfl) fun _ _ => rfl
    exact Session.coupled_answer hforget _
  | forgetSettings => exact Session.coupled_answer steady_forgetSettings _

/-- Calls cannot tell two tracings that work from each other. -/
theorem runAll_of_bothWork (h : s.AgreeButLog s') (calls : List Call) {w : World} {t : Tracing}
    (hboth : BothWork s s' w.tracing t) :
    ∃ t', runAll calls (w.tracedBy t) = ((runAll calls w).1, (runAll calls w).2.tracedBy t') := by
  induction calls generalizing w t with
  | nil => exact ⟨t, rfl⟩
  | cons call rest ih =>
    obtain ⟨mid, hmid, hcall⟩ := steady_run h call w t hboth
    obtain ⟨t', hrest⟩ := ih hmid
    refine ⟨t', ?_⟩
    unfold runAll
    rw [hcall]
    dsimp only
    rw [hrest]
    rfl

end

/-- Where the trace goes makes no difference to calls if it can be set up there: all reports are those of a process
that traces to the console, with any files, lines and handlers, and the state afterwards is the same besides. -/
theorem runAll_of_console {s s' : Settings} {w : World} {t : Tracing} (hvalid : w.tracing.IsValid s)
    (hvalid' : t.IsValid s') (hagree : w.environment.AgreeButLog t.environment)
    (hconsole : s'.logPath.filter (· != "") = none) (hcan : w.log.CanTrace s) (calls : List Call) :
    ∃ t', runAll calls (w.tracedBy t) = ((runAll calls w).1, (runAll calls w).2.tracedBy t') := by
  have hsettings : s.AgreeButLog s' :=
    Settings.agreeButLog_of_environment hagree hvalid.reads hvalid'.reads
  have hcan' : t.log.CanTrace s' := Trace.Log.canTrace_of_console hconsole t.log
  exact runAll_of_bothWork hsettings calls ⟨⟨hvalid, hcan⟩, ⟨hvalid', hcan'⟩⟩

/-- The tracing of a process that has been told a path and nothing else. -/
def tracingTo (path : String) : Tracing where
  log := .silent
  environment := ⟨"ROLEAUTH_", [("ROLEAUTH_LOG_PATH", path)]⟩
  settings := none

def settingsTo (path : String) : Settings where
  fallbackResource := .text "application"
  relativeUrlRoot := ""
  logPath := some path
  logLevel := "DEBUG"
  logTag := "Auth |"
  lazyLoadPackage := none

theorem isValid_tracingTo_console : (tracingTo "").IsValid (settingsTo "") where
  reads := by with_unfolding_all rfl
  known := .inl rfl

/-- Everybody may show products, and somebody wants to. -/
def sampleCalls : List Call :=
  [.declare 0 ⟨.text "products", .text "show", .all, .absent, .null⟩,
    .ask (.authorize (.dict [(.text "resource", .text "products"), (.text "action", .text "show")]) [] none)]

theorem runAll_of_console_sampleCalls :
    (tracingTo "trace.log").IsValid (settingsTo "trace.log") ∧ (tracingTo "").IsValid (settingsTo "") ∧
      (tracingTo "trace.log").environment.AgreeButLog (tracingTo "").environment ∧
      (settingsTo "").logPath.filter (· != "") = none ∧
      (tracingTo "trace.log").log.CanTrace (settingsTo "trace.log") ∧
      ∃ t', runAll sampleCalls (World.initial.tracedBy (tracingTo "")) =
        ((runAll sampleCalls (World.initial.tracedBy (tracingTo "trace.log"))).1,
          (runAll sampleCalls (World.initial.tracedBy (tracingTo "trace.log"))).2.tracedBy t') := by
  have hvalid : (tracingTo "trace.log").IsValid (settingsTo "trace.log") :=
    ⟨by with_unfolding_all rfl, .inl rfl⟩
  have hvalid' : (tracingTo "").IsValid (settingsTo "") := isValid_tracingTo_console
  have hagree : (tracingTo "trace.log").environment.AgreeButLog (tracingTo "").environment := by
    decide +kernel
  have hconsole : (settingsTo "").logPath.filter (· != "") = none := by decide
  have hcan : (tracingTo "trace.log").log.CanTrace (settingsTo "trace.log") := by with_unfolding_all rfl
  refine ⟨hvalid, hvalid', hagree, hconsole, hcan, ?_⟩
  exact runAll_of_console (w := World.initial.tracedBy (tracingTo "trace.log")) hvalid hvalid' hagree
    hconsole hcan sampleCalls

/-- The working directory is a path like any other, but no file can be opened in its place: where the console would
have seen a grant, the check ends in a fault. -/
theorem runAll_tracingTo_folder :
    (tracingTo ".").IsValid (settingsTo ".") ∧ (tracingTo "").IsValid (settingsTo "") ∧
      (tracingTo ".").environment.AgreeButLog (tracingTo "").environment ∧
      (settingsTo "").logPath.filter (· != "") = none ∧
      ((runAll sampleCalls (World.initial.tracedBy (tracingTo ""))).1.map Report.answer).getLast? =
        some (.ok (.flag true)) ∧
      ((runAll sampleCalls (World.initial.tracedBy (tracingTo "."))).1.map Report.answer).getLast? =
        some (.error (.file .isADirectory)) := by
  refine ⟨⟨?_, .inl rfl⟩, isValid_tracingTo_console, ?_, ?_, ?_, ?_⟩
  · with_unfolding_all rfl
  · decide +kernel
  · decide
  · with_unfolding_all rfl
  · with_unfolding_all rfl

end Process

end Gatehouse
