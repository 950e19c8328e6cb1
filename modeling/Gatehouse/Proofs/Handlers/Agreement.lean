import Gatehouse.Proofs.Handlers.Engines

/-!
# Agreement — the engine of the process and the registry of the process

The engine of the process is made over the shared registry and keeps the registry that it was made with. A class looks
at its registry each time and makes its engine anew if there is another; the process does not. So both read the same
rules until the shared registry is renewed while an engine is kept, and again once this engine has been forgotten.
-/

namespace Gatehouse

open Run (Keeps)

namespace Shared

/-! ## 1. Making the engine -/

/-- What the engine of the process and its registry depend on. -/
def common (w : World) : List Registry × Nat × Option Engine := (w.registries, w.shared, w.engine)

theorem common_eq_iff {w : World} {registries : List Registry} {shared : Nat} {engine : Option Engine} :
    common w = (registries, shared, engine) ↔
      w.registries = registries ∧ w.shared = shared ∧ w.engine = engine := by
  unfold common
  rw [Prod.mk.injEq, Prod.mk.injEq]

/-- The making of an engine for the process, which does not keep it yet. -/
def makeEngine : Run Engine := do
  let s ← settings
  ensureTrace (some s)
  let loader ← makeLoader s
  let shared ← Run.read World.shared
  Engine.make shared none loader (some (.table .standard)) s false false

theorem keeps_make (registry : Nat) (loader : Option Nat) (s : Settings) :
    Keeps common Engine (Engine.make registry none loader (some (.table .standard)) s false false) := by
  intro w
  obtain ⟨nextEngine, hmake⟩ :=
    Engine.make_run registry none loader (some (.table .standard)) s false false w
  rw [hmake]
  rfl

theorem keeps_makeEngine : Keeps common Engine makeEngine := by
  apply (Keeps.sequential _).bind (keeps_settings fun _ _ => rfl)
  intro s
  apply (Keeps.sequential _).bind (keeps_ensureTrace (fun _ _ => rfl) s)
  intro _
  apply (Keeps.sequential _).bind (keeps_makeLoader (fun _ _ => rfl) s)
  intro loader
  apply (Keeps.sequential _).bind (.of_same fun _ => rfl)
  intro shared
  exact keeps_make shared loader s

theorem registry_makeEngine {w after : World} {e : Engine} (h : makeEngine w = (.ok e, after)) :
    e.registry = w.shared := by
  obtain ⟨s, read, hread, h⟩ := Run.bind_eq_ok_iff.1 h
  obtain ⟨_, traced, htraced, h⟩ := Run.bind_eq_ok_iff.1 h
  obtain ⟨loader, loading, hloading, h⟩ := Run.bind_eq_ok_iff.1 h
  obtain ⟨shared, _, ⟨rfl, rfl⟩, h⟩ := Run.bind_eq_ok_iff.1 h
  have hsettings : Keeps World.shared Settings settings := keeps_settings fun _ _ => rfl
  have htrace : Keeps World.shared Unit (ensureTrace (some s)) := keeps_ensureTrace (fun _ _ => rfl) s
  have hloader : Keeps World.shared (Option Nat) (makeLoader s) := keeps_makeLoader (fun _ _ => rfl) s
  have hsame : loading.shared = w.shared := by
    calc loading.shared = (makeLoader s traced).2.shared := by rw [hloading]
      _ = (ensureTrace (some s) read).2.shared := by rw [hloader traced, htraced]
      _ = (settings w).2.shared := by rw [htrace read, hread]
      _ = w.shared := hsettings w
  cases hname : Name.resource s.fallbackResource with
  | error f =>
    rw [Engine.make_of_error _ _ _ _ _ _ _ hname] at h
    cases h
  | ok fallback =>
    rw [Engine.make_of_ok _ _ _ _ _ _ _ hname] at h
    cases h
    exact hsame

/-- What the process answers with when it is asked for its engine. -/
inductive Answers (w : World) : Except Fault Engine → World → Prop where
  | kept {e : Engine} (h : w.engine = some e) : Answers w (.ok e) w
  | made {e : Engine} {after : World} (hnone : w.engine = none) (hregistry : e.registry = w.shared)
      (hcommon : common after = (w.registries, w.shared, some e)) : Answers w (.ok e) after
  | failed {f : Fault} {after : World} (hnone : w.engine = none) (hcommon : common after = common w) :
      Answers w (.error f) after

theorem engine_answers (w : World) : Answers w (engine w).1 (engine w).2 := by
  cases hengine : w.engine with
  | some e =>
    rw [engine_of_some hengine]
    exact .kept hengine
  | none =>
    have hrun : engine w = (makeEngine >>= fun e => do
        Run.change fun w => { w with engine := some e, engineSettings := true }
        return e) w := by
      unfold engine makeEngine
      rw [Run.bind_of_ok (Run.read_run _ w), hengine]
      simp only [bind_assoc]
    have hkeeps := keeps_makeEngine w
    rw [hrun, Run.bind_run]
    cases hmake : makeEngine w with
    | mk result mid =>
      rw [hmake] at hkeeps
      cases result with
      | error f => exact .failed hengine hkeeps
      | ok e =>
        refine .made hengine (registry_makeEngine hmake) ?_
        obtain ⟨hregistries, hshared, -⟩ := common_eq_iff.1 hkeeps
        exact common_eq_iff.2 ⟨hregistries, hshared, rfl⟩

/-! ## 2. Steps -/

/-- What may be done to the registry and the engine of the process. -/
inductive Step where
  | registry
  | renewRegistry
  | engine
  | forgetEngine
  /-- Declares in the shared registry. -/
  | permit (grant : Grant Condition)

namespace Step

def leave : Step → World → World
  | .registry, w => w
  | .renewRegistry, w => (Shared.renewRegistry w).2
  | .engine, w => (Shared.engine w).2
  | .forgetEngine, w => (Shared.forgetEngine w).2
  | .permit grant, w => (Run.permit w.shared grant w).2

def leaveAll (steps : List Step) (w : World) : World := steps.foldl (fun w step => step.leave w) w

theorem leaveAll_concat (steps : List Step) (step : Step) (w : World) :
    leaveAll (steps ++ [step]) w = step.leave (leaveAll steps w) := List.foldl_concat _ w step steps

/-- What a step does, as far as the registry and the engine of the process go. -/
inductive Moves (w after : World) : Step → Prop where
  | aside {step : Step} (hstep : step ≠ .renewRegistry ∧ step ≠ .forgetEngine)
      (hregistries : after.registries.length = w.registries.length) (hshared : after.shared = w.shared)
      (hengine : after.engine = w.engine ∨
        w.engine = none ∧ ∀ e, after.engine = some e → e.registry = w.shared) :
      Moves w after step
  | renewed (hregistries : after.registries.length = w.registries.length + 1)
      (hshared : after.shared = w.registries.length) (hengine : after.engine = w.engine) :
      Moves w after .renewRegistry
  | forgotten (hregistries : after.registries.length = w.registries.length) (hshared : after.shared = w.shared)
      (hengine : after.engine = none) : Moves w after .forgetEngine

theorem moves (step : Step) (w : World) : Moves w (step.leave w) step := by
  cases step with
  | registry => exact .aside ⟨nofun, nofun⟩ rfl rfl (.inl rfl)
  | renewRegistry => exact .renewed List.length_append rfl rfl
  | forgetEngine => exact .forgotten rfl rfl rfl
  | permit grant =>
    show Moves w (Run.permit w.shared grant w).2 (.permit grant)
    cases hpermit : (w.registry w.shared).permit w.nextRule grant with
    | error f =>
      rw [Run.permit_of_error hpermit]
      exact .aside ⟨nofun, nofun⟩ rfl rfl (.inl rfl)
    | ok out =>
      rw [Run.permit_of_ok hpermit]
      exact .aside ⟨nofun, nofun⟩ List.length_set rfl (.inl rfl)
  | engine =>
    have hanswers := engine_answers w
    show Moves w (Shared.engine w).2 .engine
    cases hrun : Shared.engine w with
    | mk result after =>
      rw [hrun] at hanswers
      cases hanswers with
      | kept h => exact .aside ⟨nofun, nofun⟩ rfl rfl (.inl rfl)
      | made hnone hregistry hcommon =>
        obtain ⟨hregistries, hshared, hengine⟩ := common_eq_iff.1 hcommon
        refine .aside ⟨nofun, nofun⟩ (congrArg List.length hregistries) hshared (.inr ⟨hnone, fun e he => ?_⟩)
        cases hengine.symm.trans he
        exact hregistry
      | failed hnone hcommon =>
        obtain ⟨hregistries, hshared, hengine⟩ := common_eq_iff.1 hcommon
        exact .aside ⟨nofun, nofun⟩ (congrArg List.length hregistries) hshared (.inl hengine)

/-! ## 3. Runs -/

/-- An engine was kept when the shared registry was renewed, and it has not been forgotten since. -/
def Outlives (steps : List Step) (w : World) : Prop :=
  ∃ before later, steps = before ++ .renewRegistry :: later ∧ (leaveAll before w).engine.isSome = true ∧
    .forgetEngine ∉ later

theorem outlives_concat_iff (steps : List Step) (step : Step) (w : World) :
    Outlives (steps ++ [step]) w ↔
      step = .renewRegistry ∧ (leaveAll steps w).engine.isSome = true ∨
        step ≠ .forgetEngine ∧ Outlives steps w := by
  constructor
  · rintro ⟨before, later, hsteps, hkept, hlater⟩
    rcases List.eq_nil_or_concat later with rfl | ⟨between, last, rfl⟩
    · obtain ⟨rfl, hstep⟩ := List.append_inj' hsteps rfl
      exact .inl ⟨(List.cons.inj hstep).1, hkept⟩
    · rw [List.concat_eq_append] at hsteps hlater
      obtain ⟨rfl, hstep⟩ : steps = before ++ .renewRegistry :: between ∧ [step] = [last] :=
        List.append_inj' (hsteps.trans (by simp)) rfl
      cases hstep
      refine .inr ⟨fun hlast => hlater ?_, before, between, rfl, hkept, fun hmem => hlater ?_⟩
      · rw [hlast]
        exact List.mem_append_right between (List.mem_singleton_self _)
      · exact List.mem_append_left _ hmem
  · rintro (⟨rfl, hkept⟩ | ⟨hstep, before, later, rfl, hkept, hlater⟩)
    · exact ⟨steps, [], rfl, hkept, List.not_mem_nil⟩
    · refine ⟨before, later ++ [step], by simp, hkept, ?_⟩
      intro hmem
      rcases List.mem_append.1 hmem with hmem | hmem
      · exact hlater hmem
      · exact hstep (List.mem_singleton.1 hmem).symm

/-- Whether the engine that is kept, if there is one, reads the shared registry or an older one. -/
structure Reads (w : World) (older : Prop) : Prop where
  shared : w.shared < w.registries.length
  same : ¬ older → ∀ e, w.engine = some e → e.registry = w.shared
  below : older → ∃ e, w.engine = some e ∧ e.registry < w.shared

theorem Reads.step {w after : World} {older : Prop} {step : Step} (h : Reads w older) (hmoves : Moves w after step) :
    Reads after (step = .renewRegistry ∧ w.engine.isSome = true ∨ step ≠ .forgetEngine ∧ older) := by
  cases hmoves with
  | aside hstep hregistries hshared hengine =>
    refine ⟨by rw [hregistries, hshared]; exact h.shared, fun hnot e he => ?_, fun holder => ?_⟩
    · have hfresh : ¬ older := fun holder => hnot (.inr ⟨hstep.2, holder⟩)
      rw [hshared]
      rcases hengine with hsame | ⟨-, hmade⟩
      · exact h.same hfresh e (hsame ▸ he)
      · exact hmade e he
    · have holder : older := by
        rcases holder with ⟨hrenew, -⟩ | ⟨-, holder⟩
        · exact absurd hrenew hstep.1
        · exact holder
      obtain ⟨e, he, hbelow⟩ := h.below holder
      rcases hengine with hsame | ⟨hnone, -⟩
      · exact ⟨e, hsame.trans he, hshared ▸ hbelow⟩
      · rw [hnone] at he
        cases he
  | renewed hregistries hshared hengine =>
    refine ⟨by rw [hregistries, hshared]; exact Nat.lt_succ_self _, fun hnot e he => ?_, fun holder => ?_⟩
    · have hsome : w.engine.isSome = true := by
        rw [← hengine, he]
        rfl
      exact absurd (.inl ⟨rfl, hsome⟩) hnot
    · have hbelow : ∃ e, w.engine = some e ∧ e.registry ≤ w.shared := by
        by_cases hwas : older
        · obtain ⟨e, he, hlt⟩ := h.below hwas
          exact ⟨e, he, Nat.le_of_lt hlt⟩
        · rcases holder with ⟨-, hsome⟩ | ⟨-, holder⟩
          · obtain ⟨e, he⟩ := Option.isSome_iff_exists.1 hsome
            exact ⟨e, he, Nat.le_of_eq (h.same hwas e he)⟩
          · exact absurd holder hwas
      obtain ⟨e, he, hle⟩ := hbelow
      exact ⟨e, hengine.trans he, hshared ▸ Nat.lt_of_le_of_lt hle h.shared⟩
  | forgotten hregistries hshared hengine =>
    refine ⟨by rw [hregistries, hshared]; exact h.shared, fun _ e he => ?_, ?_⟩
    · rw [hengine] at he
      cases he
    · rintro (⟨hrenew, -⟩ | ⟨hforget, -⟩)
      · cases hrenew
      · exact absurd rfl hforget

/-- The engine that is kept reads the shared registry. -/
structure IsSettled (w : World) : Prop where
  shared : w.shared < w.registries.length
  same : ∀ e, w.engine = some e → e.registry = w.shared

theorem reads_leaveAll {w : World} (h : IsSettled w) (steps : List Step) :
    Reads (leaveAll steps w) (Outlives steps w) := by
  -- Induction on the steps still to come, behind those that have been done.
  suffices hrest : ∀ rest done, Reads (leaveAll done w) (Outlives done w) →
      Reads (leaveAll (done ++ rest) w) (Outlives (done ++ rest) w) by
    have hnothing : ¬ Outlives [] w := by
      rintro ⟨before, later, hsteps, -⟩
      simp at hsteps
    exact hrest steps [] ⟨h.shared, fun _ => h.same, fun holder => absurd holder hnothing⟩
  intro rest
  induction rest with
  | nil =>
    intro done hdone
    rwa [List.append_nil]
  | cons step rest ih =>
    intro done hdone
    rw [List.append_cons]
    apply ih
    rw [leaveAll_concat, outlives_concat_iff]
    exact hdone.step (step.moves _)

end Step

open Step (leaveAll Outlives IsSettled)

/-- The engine of the process reads the registry that the process has, unless it was kept when the registry was renewed
and never forgotten; then it reads an older one. Engines of classes that declare in the shared registry always read
this one, so that it is the same exception in which checks through them go by other rules. -/
theorem registry_engine_iff {w last : World} (h : IsSettled w) (steps : List Step) {e : Engine}
    (hengine : engine (leaveAll steps w) = (.ok e, last)) :
    (e.registry = last.shared ↔ ¬ Outlives steps w) ∧ (Outlives steps w → e.registry < last.shared) ∧
      ∀ i e' final, Handler.registryOf last i = last.shared → Handler.engineOf i last = (.ok e', final) →
        e'.registry = last.shared ∧ (e.registry = e'.registry ↔ ¬ Outlives steps w) := by
  have hreads := Step.reads_leaveAll h steps
  have hanswers := engine_answers (leaveAll steps w)
  rw [hengine] at hanswers
  have holder : Outlives steps w → e.registry < last.shared := by
    intro houtlives
    obtain ⟨old, hold, hbelow⟩ := hreads.below houtlives
    cases hanswers with
    | kept hkept =>
      cases hkept.symm.trans hold
      exact hbelow
    | made hnone _ _ => cases hnone.symm.trans hold
  have hsame : ¬ Outlives steps w → e.registry = last.shared := by
    intro hnot
    cases hanswers with
    | kept hkept => exact hreads.same hnot e hkept
    | made _ hregistry hcommon => exact hregistry.trans (common_eq_iff.1 hcommon).2.1.symm
  have hiff : e.registry = last.shared ↔ ¬ Outlives steps w :=
    ⟨fun heq houtlives => absurd heq (Nat.ne_of_lt (holder houtlives)), hsame⟩
  refine ⟨hiff, holder, fun i e' final hclass hasked => ?_⟩
  have hclassEngine : e'.registry = last.shared := by
    have hanswers' := Handler.engineOf_answers last i
    rw [hasked] at hanswers'
    cases hanswers' with
    | kept _ hregistry => exact hregistry.trans hclass
    | made _ hregistry => exact hregistry.trans hclass
  rw [hclassEngine]
  exact ⟨rfl, hiff⟩

/-- A process with one class, which declares in the shared registry. -/
def classWorld : World :=
  { World.initial with
    handlers := [.root, ⟨[0], true, "orders", none, none, none, .silent, none⟩] }

theorem isSettled_classWorld : IsSettled classWorld := ⟨by decide, fun e he => by cases he⟩

/-- The registry is renewed while an engine is kept, and everybody may show orders then. -/
def renewing : List Step :=
  [.engine, .renewRegistry, .permit ⟨.text "orders", .text "show", .all, .absent, .null⟩]

theorem registry_engine_iff_renewing : IsSettled classWorld ∧
    ∃ e last, engine (leaveAll renewing classWorld) = (.ok e, last) ∧
      (e.registry = last.shared ↔ ¬ Outlives renewing classWorld) ∧
      (Outlives renewing classWorld → e.registry < last.shared) ∧
      ∃ e' final, Handler.registryOf last 1 = last.shared ∧ Handler.engineOf 1 last = (.ok e', final) ∧
        (e.registry = e'.registry ↔ ¬ Outlives renewing classWorld) := by
  have hkept : (leaveAll renewing classWorld).engine.isSome = true := by with_unfolding_all rfl
  obtain ⟨e, he⟩ := Option.isSome_iff_exists.1 hkept
  have hengine := engine_of_some he
  have hclass : Handler.registryOf (leaveAll renewing classWorld) 1 = (leaveAll renewing classWorld).shared := by
    with_unfolding_all rfl
  have hasked : (Handler.engineOf 1 (leaveAll renewing classWorld)).1.isOk = true := by
    with_unfolding_all rfl
  obtain ⟨hprocess, holder, hclasses⟩ := registry_engine_iff isSettled_classWorld renewing hengine
  cases hrun : Handler.engineOf 1 (leaveAll renewing classWorld) with
  | mk result final =>
    rw [hrun] at hasked
    cases result with
    | error f => cases hasked
    | ok e' =>
      exact ⟨isSettled_classWorld, e, _, hengine, hprocess, holder, e', final, hclass, hrun,
        (hclasses 1 e' final hclass hrun).2⟩

/-- The engine still reads the registry that has been renewed. -/
theorem registry_engine_renewed : ∃ e last,
    engine (leaveAll [.engine, .renewRegistry] World.initial) = (.ok e, last) ∧ e.registry ≠ last.shared := by
  have hkept : (leaveAll [.engine, .renewRegistry] World.initial).engine.map Engine.registry = some 0 := by
    with_unfolding_all rfl
  have hshared : (leaveAll [.engine, .renewRegistry] World.initial).shared = 1 := by with_unfolding_all rfl
  obtain ⟨e, he, hregistry⟩ := Option.map_eq_some_iff.1 hkept
  refine ⟨e, _, engine_of_some he, ?_⟩
  rw [hregistry, hshared]
  decide

end Shared

end Gatehouse
