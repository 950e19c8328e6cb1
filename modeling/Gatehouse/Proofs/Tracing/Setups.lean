import Gatehouse.Proofs.Tracing.Processes

/-!
# Setups — calls that set up the trace

A call attaches the library's handler for its settings, or leaves alone the one that is there. So there is never more
than one, and it writes to where the settings of its own call say. The old one is gone before the new one is tried: if
the file cannot be opened, nobody writes any more, though what was written stays.
-/

namespace Gatehouse

open Trace (Log Destination)

/-! ## 1. One call -/

namespace Shared

/-- The settings that a call is made for: those that are given, else those of the process. -/
def settingsFor : Option Settings → Run Settings
  | some s => pure s
  | none => settings

theorem log_settingsFor (given : Option Settings) (w : World) : (settingsFor given w).2.log = w.log := by
  cases given with
  | some s => rfl
  | none =>
    have hkeeps : Run.Keeps World.log Settings settings := keeps_settings fun _ _ => rfl
    exact hkeeps w

/-- How a call for the trace can end: its settings cannot be read, or a handler is attached for them. -/
inductive Traces (given : Option Settings) (w : World) : Except Fault Unit → World → Prop where
  | unread {f : Fault} {after : World} (hread : (settingsFor given w).1 = .error f) (hlog : after.log = w.log) :
      Traces given w (.error f) after
  | read {s : Settings} {result : Except Fault Unit} {after : World} (hread : (settingsFor given w).1 = .ok s)
      (hlog : w.log.Configures s.logPath s.logRank s.logTag result after.log) : Traces given w result after

theorem configureTrace_traces (given : Option Settings) (w : World) :
    Traces given w (configureTrace given w).1 (configureTrace given w).2 := by
  have hsame := log_settingsFor given w
  have hrun : configureTrace given = settingsFor given >>= fun s w =>
      ((w.log.configure s.logPath s.logRank s.logTag).1,
        { w with log := (w.log.configure s.logPath s.logRank s.logTag).2 }) := by
    cases given <;> rfl
  rw [hrun, Run.bind_run]
  cases hsettings : settingsFor given w with
  | mk result mid =>
    rw [hsettings] at hsame
    have hread : (settingsFor given w).1 = result := congrArg Prod.fst hsettings
    cases result with
    | error f => exact .unread hread hsame
    | ok s =>
      refine .read hread ?_
      rw [← hsame]
      exact mid.log.configures s.logPath s.logRank s.logTag

theorem ensureTrace_eq (given : Option Settings) (w : World) : ensureTrace given w =
    if w.log.own = [] then configureTrace given w else (.ok (), w) := by
  unfold ensureTrace
  rw [Run.bind_of_ok (Run.read_run _ w)]
  cases hown : w.log.handlers.any Trace.Handler.isOwn with
  | true =>
    have hsome : w.log.own ≠ [] := by
      intro hnone
      rw [Log.any_isOwn_eq_false_iff.2 hnone] at hown
      cases hown
    rw [if_neg hsome]
    rfl
  | false =>
    rw [if_pos (Log.any_isOwn_eq_false_iff.1 hown)]
    rfl

end Shared

/-! ## 2. Calls in a row -/

/-- A call that sets up the trace, for settings that are given or else for those of the process. -/
inductive Setup where
  | configure (given : Option Settings)
  | ensure (given : Option Settings)

namespace Setup

def run : Setup → Run Unit
  | .configure given => Shared.configureTrace given
  | .ensure given => Shared.ensureTrace given

/-- Calls in a row, each with the world that it finds; those that fail leave a world as well. -/
def steps : List Setup → World → List (Setup × World)
  | [], _ => []
  | call :: rest, w => (call, w) :: steps rest (call.run w).2

/-- What a call makes of a log to which the library's handler is attached once at most, and others besides. -/
structure IsOrderly (others : List Trace.Handler) (call : Setup) (before : World) : Prop where
  atMostOne : before.log.own.length ≤ 1 ∧ (call.run before).2.log.own.length ≤ 1
  othersStay : before.log.others = others ∧ (call.run before).2.log.others = others
  configured : ∀ given after, call = .configure given → call.run before = (.ok (), after) →
    ∃ s, (Shared.settingsFor given before).1 = .ok s ∧ after.log.TracesTo s
  ensured : ∀ given, call = .ensure given →
    (before.log.own ≠ [] → call.run before = (.ok (), before)) ∧
      (before.log.own = [] → call.run before = (Setup.configure given).run before)

theorem traces_run (given : Option Settings) {w : World} (h : w.log.own.length ≤ 1) :
    (Shared.configureTrace given w).2.log.own.length ≤ 1 ∧
      (Shared.configureTrace given w).2.log.others = w.log.others := by
  have htraces := Shared.configureTrace_traces given w
  cases hrun : Shared.configureTrace given w with
  | mk result after =>
    rw [hrun] at htraces
    cases htraces with
    | unread hread hlog =>
      rw [hlog]
      exact ⟨h, rfl⟩
    | read hread hlog =>
      refine ⟨?_, hlog.others⟩
      cases result with
      | ok u =>
        rw [hlog.own_of_ok]
        exact Nat.le_refl 1
      | error f =>
        rw [hlog.own_of_error]
        exact Nat.zero_le 1

theorem isOrderly (call : Setup) {w : World} (h : w.log.own.length ≤ 1) : IsOrderly w.log.others call w := by
  have hconfigure := fun given => traces_run given h
  cases call with
  | configure given =>
    refine ⟨⟨h, (hconfigure given).1⟩, ⟨rfl, (hconfigure given).2⟩, ?_, nofun⟩
    rintro _ after ⟨rfl⟩ hrun
    have htraces := Shared.configureTrace_traces given w
    have hrun : Shared.configureTrace given w = (.ok (), after) := hrun
    rw [hrun] at htraces
    cases htraces with
    | read hread hlog => exact ⟨_, hread, hlog.tracesTo⟩
  | ensure given =>
    have hensure : (Setup.ensure given).run w =
        if w.log.own = [] then Shared.configureTrace given w else (.ok (), w) := Shared.ensureTrace_eq given w
    refine ⟨⟨h, ?_⟩, ⟨rfl, ?_⟩, (fun _ _ hcall => nomatch hcall), ?_⟩
    · rw [hensure]
      split
      · exact (hconfigure given).1
      · exact h
    · rw [hensure]
      split
      · exact (hconfigure given).2
      · rfl
    · rintro _ ⟨rfl⟩
      rw [hensure]
      exact ⟨fun hsome => if_neg hsome, fun hnone => if_pos hnone⟩

/-- However the trace is set up, and whatever fails in it, there is one handler of the library at most, with everybody
else's as before; a call that succeeds has attached it for its own settings, unless it was to leave alone what is
there. -/
theorem isOrderly_of_mem_steps {w : World} (h : w.log.own.length ≤ 1) (calls : List Setup) :
    ∀ step ∈ steps calls w, IsOrderly w.log.others step.1 step.2 := by
  -- Induction on the calls; each finds what the one before it leaves, in the same order.
  induction calls generalizing w with
  | nil => exact fun _ hstep => absurd hstep List.not_mem_nil
  | cons call rest ih =>
    intro step hstep
    have hcall := isOrderly call h
    rcases List.mem_cons.1 hstep with rfl | hrest
    · exact hcall
    · have hlater := ih hcall.atMostOne.2 step hrest
      rwa [hcall.othersStay.2] at hlater

/-- Somebody listens, and the process has not set up a trace yet. -/
def listeningWorld : World :=
  { World.initial with log := { Log.silent with handlers := [.listener] } }

def sampleCalls : List Setup :=
  [.configure (some (Process.settingsTo "a.log")), .ensure (some (Process.settingsTo "b.log")),
    .configure (some (Process.settingsTo ".")), .ensure none, .configure (some (Process.settingsTo "c.log"))]

theorem isOrderly_sampleCalls : listeningWorld.log.own.length ≤ 1 ∧
    (∀ step ∈ steps sampleCalls listeningWorld, IsOrderly [.listener] step.1 step.2) ∧
      (steps sampleCalls listeningWorld).map (fun step => (step.1.run step.2).1) =
        [.ok (), .ok (), .error (.file .isADirectory), .ok (), .ok ()] := by
  have hone : listeningWorld.log.own.length ≤ 1 := by decide
  exact ⟨hone, isOrderly_of_mem_steps hone sampleCalls, by with_unfolding_all rfl⟩

end Setup

/-! ## 3. Failing -/

namespace Shared

/-- What a call that fails leaves of the trace. -/
structure Leaves (given : Option Settings) (before after : World) : Prop where
  level : after.log.level = before.log.level
  others : after.log.others = before.log.others
  written : ∀ d, after.log.written d = before.log.written d
  /-- Settings that cannot be read change nothing. -/
  unread : (∀ s, (settingsFor given before).1 ≠ .ok s) → after.log = before.log
  /-- For settings that can be read, the old handler has been taken off, and lines to come are lost. -/
  lost : ∀ s, (settingsFor given before).1 = .ok s → after.log.own = [] ∧
    ∀ lines d, (after.log.emitAll lines).written d = before.log.written d
  handlers_iff : after.log.handlers = before.log.handlers ↔
    before.log.own = [] ∨ ∀ s, (settingsFor given before).1 ≠ .ok s

/-- A trace that cannot be set up keeps its level and all that was written, but its handlers only if none of them was
the library's or the settings themselves could not be read. -/
theorem leaves_of_configureTrace {given : Option Settings} {w after : World} {f : Fault}
    (h : configureTrace given w = (.error f, after)) : Leaves given w after := by
  have htraces := configureTrace_traces given w
  rw [h] at htraces
  cases htraces with
  | unread hread hlog =>
    have hnone : ∀ s, (settingsFor given w).1 ≠ .ok s := fun s hs => by
      rw [hread] at hs
      cases hs
    refine ⟨by rw [hlog], by rw [hlog], fun d => by rw [hlog], fun _ => hlog, fun s hs => absurd hs (hnone s), ?_⟩
    rw [hlog]
    exact ⟨fun _ => .inr hnone, fun _ => rfl⟩
  | read hread hlog =>
    obtain ⟨hhandlers, hlevel⟩ := hlog.left_of_error
    refine ⟨hlevel, hlog.others, hlog.written, fun hnone => absurd hread (hnone _), fun s _ => ?_, ?_⟩
    · exact ⟨hlog.own_of_error, fun lines d =>
        (Log.written_emitAll_of_own_nil hlog.own_of_error lines d).trans (hlog.written d)⟩
    · rw [hhandlers]
      constructor
      · exact fun hsame => .inl (Log.own_nil_of_others hsame)
      · rintro (hown | hnone)
        · exact Log.others_of_own_nil hown
        · exact absurd hread (hnone _)

/-- A process that traces to a file. -/
def tracedWorld : World := (configureTrace (some (Process.settingsTo "a.log")) World.initial).2

/-- What a trace to the working directory leaves, in whose place no file can be opened. -/
def untracedWorld : World := (configureTrace (some (Process.settingsTo ".")) tracedWorld).2

theorem leaves_untracedWorld :
    configureTrace (some (Process.settingsTo ".")) tracedWorld = (.error (.file .isADirectory), untracedWorld) ∧
      Leaves (some (Process.settingsTo ".")) tracedWorld untracedWorld := by
  have hrun : configureTrace (some (Process.settingsTo ".")) tracedWorld =
      (.error (.file .isADirectory), untracedWorld) := Prod.ext (by with_unfolding_all rfl) rfl
  exact ⟨hrun, leaves_of_configureTrace hrun⟩

/-- The handler that wrote to the file is gone, and so is the line that it would have written. -/
theorem handlers_untracedWorld :
    configureTrace (some (Process.settingsTo ".")) tracedWorld = (.error (.file .isADirectory), untracedWorld) ∧
      tracedWorld.log.handlers = [.own (.file "a.log") "Auth |"] ∧ untracedWorld.log.handlers = [] ∧
      (tracedWorld.log.emitAll [.info "later"]).written (.file "a.log") =
        ["Auth | 1970-01-01 00:00:00 INFO later"] ∧
      (untracedWorld.log.emitAll [.info "later"]).written (.file "a.log") = [] := by
  refine ⟨Prod.ext ?_ rfl, ?_, ?_, ?_, ?_⟩
  · with_unfolding_all rfl
  · with_unfolding_all rfl
  · with_unfolding_all rfl
  · with_unfolding_all rfl
  · with_unfolding_all rfl

end Shared

end Gatehouse
