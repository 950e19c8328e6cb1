import Gatehouse.Proofs.Handlers.Definition
import Gatehouse.Proofs.Handlers.Descent
import Gatehouse.Proofs.Shared

/-!
# Engines — the engine of a class

A class looks up its registry at every call, along all the classes that it is derived from, and keeps the engine
that was made for it as long as this is the engine's registry. What is kept stands at the class itself and
nowhere else, and every engine gets a number that no engine had before. So the engine of a class follows its
registry, stays the same while the registry does, and is never that of another class, however definitions,
assignments and resets come in between. Registries may be set at any class, at the root of all handlers and at
classes that are only mixed in too.
-/

namespace Gatehouse

/-! ## 1. What is left alone -/

/-- Where engines are kept, and the number that the next one gets. -/
def World.standing (w : World) : List Handler × Nat := (w.handlers, w.nextEngine)

open Run (Keeps)

theorem Run.keeps_permit (i : Nat) (g : Grant Condition) :
    Keeps World.standing (List Rule) (Run.permit i g) := .permit (fun _ _ _ => rfl) i g

namespace Engine

variable {s : Settings} (registry : Nat) (host : Option Host) (loader : Option Nat) (resolver : Option Resolver)
  (muted consulted : Bool) (w : World)

theorem make_of_error {f : Fault} (h : Name.resource s.fallbackResource = .error f) :
    make registry host loader resolver s muted consulted w = (.error f, w) := by
  unfold make
  rw [h]
  rfl

theorem make_of_ok {fallback : String} (h : Name.resource s.fallbackResource = .ok fallback) :
    make registry host loader resolver s muted consulted w =
      (.ok { serial := w.nextEngine, registry, host, loader, fallback, muted, consulted
             adapter := Adapter.make resolver s.relativeUrlRoot },
        { w with nextEngine := w.nextEngine + 1 }) := by
  unfold make
  rw [h]
  rfl

end Engine

namespace Handler

theorem keeps_permitAll (i : Nat) (name : String) (grants : List (Grant Condition)) :
    Keeps World.standing Unit (permitAll i name grants) :=
  permitAll_of (Keeps.sequential _) (Run.keeps_permit i) name grants

/-! ## 2. Engines that are kept -/

/-- The engine that a class keeps. -/
def kept? (w : World) (i : Nat) : Option Engine := (find? w i).bind Handler.engine

/-- What a class answers with when it is asked for its engine, and what is kept afterwards. -/
inductive Answers (w : World) (i : Nat) : Except Fault Engine → World → Prop where
  | kept {e : Engine} (h : kept? w i = some e) (hregistry : e.registry = registryOf w i) :
      Answers w i (.ok e) w
  | made {e : Engine} {after : World} (hstale : ∀ old, kept? w i = some old → old.registry ≠ registryOf w i)
      (hregistry : e.registry = registryOf w i) (hserial : e.serial = w.nextEngine)
      (hkept : ∀ j, kept? after j = if j = i then some e else kept? w j)
      (hnext : after.nextEngine = w.nextEngine + 1) : Answers w i (.ok e) after
  | failed {f : Fault} {after : World} (hstale : ∀ old, kept? w i = some old → old.registry ≠ registryOf w i)
      (hkept : ∀ j, kept? after j = kept? w j) (hnext : w.nextEngine ≤ after.nextEngine) :
      Answers w i (.error f) after

section

variable {w after : World} {i : Nat}

theorem kept?_of_handlers (h : after.handlers = w.handlers) (j : Nat) : kept? after j = kept? w j := by
  unfold kept? find?
  rw [h]

theorem kept?_of_standing (h : after.standing = w.standing) (j : Nat) : kept? after j = kept? w j :=
  kept?_of_handlers (congrArg Prod.fst h) j

theorem nextEngine_of_standing (h : after.standing = w.standing) : after.nextEngine = w.nextEngine :=
  congrArg Prod.snd h

theorem kept?_keep {h : Handler} (hi : find? w i = some h) (e : Engine) (j : Nat) :
    kept? { w with handlers := w.handlers.modify i fun h => { h with engine := some e } } j =
      if j = i then some e else kept? w j := by
  obtain ⟨hat, hguarded⟩ := Option.filter_eq_some_iff.1 hi
  unfold kept? find?
  rw [List.getElem?_modify]
  by_cases hji : j = i
  · subst hji
    simp [hat, hguarded, Option.filter]
  · simp [hji, Ne.symm hji]

/-- The last steps in the making of an engine: the class keeps it, unless its trace cannot be set up. -/
def keepEngine (i : Nat) (s : Settings) (e : Engine) : Run Engine := do
  Shared.ensureTrace (some s)
  Run.change fun w => { w with
    handlers := w.handlers.modify i fun h => { h with engine := some e } }
  return e

theorem keepEngine_answers {h : Handler} {mid : World} {e : Engine} (hi : find? w i = some h)
    (hstale : ∀ old, kept? w i = some old → old.registry ≠ registryOf w i)
    (hmid : mid.standing = (w.handlers, w.nextEngine + 1))
    (hregistry : e.registry = registryOf w i) (hserial : e.serial = w.nextEngine) (s : Settings) :
    Answers w i (keepEngine i s e mid).1 (keepEngine i s e mid).2 := by
  have hkeeps : Keeps World.standing Unit (Shared.ensureTrace (some s)) :=
    Shared.keeps_ensureTrace (fun _ _ => rfl) s
  have htrace := (hkeeps mid).trans hmid
  unfold keepEngine
  rw [Run.bind_run]
  cases hrun : Shared.ensureTrace (some s) mid with
  | mk result after =>
    rw [hrun] at htrace
    obtain ⟨hhandlers, hnext⟩ : after.handlers = w.handlers ∧ after.nextEngine = w.nextEngine + 1 :=
      Prod.mk.inj htrace
    cases result with
    | error f =>
      have hlater : w.nextEngine ≤ after.nextEngine := by omega
      exact .failed hstale (kept?_of_handlers hhandlers) hlater
    | ok u =>
      refine .made hstale hregistry hserial (fun j => ?_) hnext
      have hthere : find? after i = some h := by
        unfold find?
        rw [hhandlers]
        exact hi
      rw [← kept?_of_handlers hhandlers j]
      exact kept?_keep hthere e j

theorem renewEngine_answers {h : Handler} (hi : find? w i = some h)
    (hstale : ∀ old, kept? w i = some old → old.registry ≠ registryOf w i) :
    Answers w i (renewEngine i (registryOf w i) w).1 (renewEngine i (registryOf w i) w).2 := by
  have hsettings : Keeps World.standing Settings Shared.settings := Shared.keeps_settings fun _ _ => rfl
  have hkeeps := hsettings w
  unfold renewEngine
  rw [Run.bind_run]
  cases hrun : Shared.settings w with
  | mk result mid =>
    rw [hrun] at hkeeps
    have hsame : mid.nextEngine = w.nextEngine := nextEngine_of_standing hkeeps
    have hfailed : ∀ f, Answers w i (.error f) mid :=
      fun _ => .failed hstale (kept?_of_standing hkeeps) (Nat.le_of_eq hsame.symm)
    cases result with
    | error f => exact hfailed f
    | ok s =>
      dsimp only
      rw [Run.bind_of_ok (Run.read_run _ mid), Run.bind_of_ok (Run.read_run _ mid), Run.bind_run]
      cases hname : Name.resource s.fallbackResource with
      | error f =>
        rw [Engine.make_of_error _ _ _ _ _ _ _ hname]
        exact hfailed f
      | ok fallback =>
        rw [Engine.make_of_ok _ _ _ _ _ _ _ hname]
        have hhandlers : mid.handlers = w.handlers := congrArg Prod.fst hkeeps
        refine keepEngine_answers hi hstale ?_ rfl hsame s
        show (mid.handlers, mid.nextEngine + 1) = (w.handlers, w.nextEngine + 1)
        rw [hhandlers, hsame]

theorem get_of_none (hi : find? w i = none) : get i w = (.error .noAttribute, w) := by
  unfold get
  rw [Run.bind_of_ok (Run.read_run _ w), hi]
  rfl

theorem get_of_some {h : Handler} (hi : find? w i = some h) : get i w = (.ok h, w) := by
  unfold get
  rw [Run.bind_of_ok (Run.read_run _ w), hi]
  rfl

/-- A class answers with the engine that it keeps if this has its registry, else with a new one. -/
theorem engineOf_answers (w : World) (i : Nat) : Answers w i (engineOf i w).1 (engineOf i w).2 := by
  unfold engineOf
  cases hi : find? w i with
  | none =>
    have hnone : kept? w i = none := by
      unfold kept?
      rw [hi, Option.bind_none]
    rw [Run.bind_of_error (get_of_none hi)]
    refine .failed (fun old hold => ?_) (fun _ => rfl) (Nat.le_refl _)
    rw [hnone] at hold
    cases hold
  | some h =>
    have hkept : kept? w i = h.engine := by
      unfold kept?
      rw [hi, Option.bind_some]
    rw [Run.bind_of_ok (get_of_some hi), Run.bind_of_ok (Run.read_run _ w)]
    cases he : h.engine with
    | none =>
      refine renewEngine_answers hi fun old hold => ?_
      rw [hkept, he] at hold
      cases hold
    | some e =>
      dsimp only
      by_cases hregistry : e.registry = registryOf w i
      · rw [if_pos hregistry]
        exact .kept (hkept.trans he) hregistry
      · rw [if_neg hregistry]
        refine renewEngine_answers hi fun old hold => ?_
        rw [hkept, he] at hold
        cases hold
        exact hregistry

end

/-! ## 3. Steps -/

/-- What may be done to classes and registries. -/
inductive Step where
  | define (d : Definition)
  | setRegistry (i : Nat) (registry : Option Nat)
  | renewRegistry
  | addRegistry
  | engineOf (i : Nat)

/-- One answer of a class that was asked for its engine, and the registry that it had then. -/
structure Receipt where
  handler : Nat
  registry : Nat
  result : Except Fault Engine

namespace Step

def leave : Step → World → World
  | .define d, w => (Handler.define d w).2
  | .setRegistry i registry, w => (Handler.setRegistry i registry w).2
  | .renewRegistry, w => (Shared.renewRegistry w).2
  | .addRegistry, w => w.addRegistry.2
  | .engineOf i, w => (Handler.engineOf i w).2

def receipt? : Step → World → Option Receipt
  | .engineOf i, w => some ⟨i, registryOf w i, (Handler.engineOf i w).1⟩
  | _, _ => none

/-- The answers of classes in a run of steps, a step that fails included. -/
def receipts : List Step → World → List Receipt
  | [], _ => []
  | step :: rest, w => (step.receipt? w).toList ++ receipts rest (step.leave w)

end Step

/-- What a step does, as far as the engines of classes go. -/
inductive Moves (w after : World) : Option Receipt → Prop where
  | aside (hkept : ∀ j, kept? after j = kept? w j) (hnext : after.nextEngine = w.nextEngine) :
      Moves w after none
  | asked {i : Nat} {result : Except Fault Engine} (h : Answers w i result after) :
      Moves w after (some ⟨i, registryOf w i, result⟩)

/-- A class is defined without an engine, and the others keep theirs. -/
theorem define_moves (d : Definition) (w : World) : Moves w (define d w).2 none := by
  cases hmade : d.make w with
  | error f =>
    rw [define_of_unmade hmade]
    exact .aside (fun _ => rfl) rfl
  | ok made =>
    have hkeeps := keeps_permitAll (d.registryIn w) made.resourceName (d.grantsOf made) w
    rw [define_of_made hmade]
    cases hall : permitAll (d.registryIn w) made.resourceName (d.grantsOf made) w with
    | mk result mid =>
      rw [hall] at hkeeps
      cases result with
      | error f => exact .aside (kept?_of_standing hkeeps) (nextEngine_of_standing hkeeps)
      | ok u =>
        have hnext : mid.nextEngine = w.nextEngine := nextEngine_of_standing hkeeps
        refine .aside (fun j => ?_) hnext
        rw [← kept?_of_standing hkeeps j]
        have hnew : (Option.filter guarded (some made)).bind engine = none := by
          rw [Option.filter_some]
          split
          · exact (makes_of_make hmade).engine
          · rfl
        unfold kept? find?
        rw [List.getElem?_append]
        split
        · rfl
        -- Behind the classes there are there is the new one, and nothing else.
        · rename_i hj
          rw [List.getElem?_eq_none (Nat.le_of_not_lt hj), List.getElem?_singleton]
          split
          · exact hnew
          · rfl

theorem Step.moves (step : Step) (w : World) : Moves w (step.leave w) (step.receipt? w) := by
  cases step with
  | define d => exact define_moves d w
  | setRegistry i registry =>
    refine .aside (fun j => ?_) rfl
    show kept? { w with handlers := w.handlers.modify i fun h => { h with registry := some registry } } j = _
    unfold kept? find?
    rw [List.getElem?_modify]
    cases w.handlers[j]? with
    | none => rfl
    | some h =>
      -- Neither what a class is nor the engine that it keeps depends on the registry that it sets.
      have hsame : (Option.filter guarded (some { h with registry := some registry })).bind engine =
          (Option.filter guarded (some h)).bind engine := by
        rw [Option.filter_some, Option.filter_some]
        cases h.guarded with
        | true => rfl
        | false => rfl
      by_cases hij : i = j
      · simpa [hij] using hsame
      · simp [hij]
  | renewRegistry => exact .aside (fun _ => rfl) rfl
  | addRegistry => exact .aside (fun _ => rfl) rfl
  | engineOf i => exact .asked (engineOf_answers w i)

/-! ## 4. Engines have owners -/

/-- No two classes keep one engine, and the numbers of engines to come are beyond those that are kept. -/
structure Apart (w : World) : Prop where
  below : ∀ i e, kept? w i = some e → e.serial < w.nextEngine
  distinct : ∀ i j e e', i ≠ j → kept? w i = some e → kept? w j = some e' → e.serial ≠ e'.serial

/-- Before any class has been asked for its engine, none keeps one. -/
theorem apart_of_none {w : World} (h : ∀ i, kept? w i = none) : Apart w := by
  constructor
  · intro i e hi
    rw [h i] at hi
    cases hi
  · intro i j e e' _ hi
    rw [h i] at hi
    cases hi

section

variable {w after : World} {i : Nat} {e : Engine}

theorem Answers.nextEngine_le {result : Except Fault Engine} (h : Answers w i result after) :
    w.nextEngine ≤ after.nextEngine := by
  cases h with
  | kept => exact Nat.le_refl _
  | made _ _ _ _ hnext => omega
  | failed _ _ hnext => exact hnext

theorem Answers.keeps {result : Except Fault Engine} (h : Answers w i result after) (hok : result = .ok e) :
    kept? after i = some e ∧ e.registry = registryOf w i := by
  cases h with
  | kept h hregistry =>
    cases hok
    exact ⟨h, hregistry⟩
  | made _ hregistry _ hkept _ =>
    cases hok
    exact ⟨by rw [hkept, if_pos rfl], hregistry⟩
  | failed => cases hok

/-- What a class keeps after any step was kept by it before, or is new. -/
theorem Moves.origin {receipt : Option Receipt} (h : Moves w after receipt) (hkept : kept? after i = some e) :
    kept? w i = some e ∨ w.nextEngine ≤ e.serial := by
  cases h with
  | aside hsame => exact .inl (hsame i ▸ hkept)
  | @asked j _ hanswers =>
    cases hanswers with
    | kept => exact .inl hkept
    | failed _ hsame => exact .inl (hsame i ▸ hkept)
    | made _ _ hserial hnew _ =>
      rw [hnew] at hkept
      by_cases hij : i = j
      · rw [if_pos hij] at hkept
        cases hkept
        exact .inr (Nat.le_of_eq hserial.symm)
      · rw [if_neg hij] at hkept
        exact .inl hkept

theorem Moves.nextEngine_le {receipt : Option Receipt} (h : Moves w after receipt) :
    w.nextEngine ≤ after.nextEngine := by
  cases h with
  | aside _ hnext => exact Nat.le_of_eq hnext.symm
  | asked hanswers => exact hanswers.nextEngine_le

theorem Apart.of_same (hw : Apart w) (hsame : ∀ j, kept? after j = kept? w j)
    (hnext : w.nextEngine ≤ after.nextEngine) : Apart after where
  below i e hi := Nat.lt_of_lt_of_le (hw.below i e (hsame i ▸ hi)) hnext
  distinct i j e e' hij hi hj := hw.distinct i j e e' hij (hsame i ▸ hi) (hsame j ▸ hj)

/-- A new engine has the first free number, and all others keep smaller ones. -/
theorem Apart.of_made {k : Nat} {new : Engine} (hw : Apart w) (hserial : new.serial = w.nextEngine)
    (hkept : ∀ j, kept? after j = if j = k then some new else kept? w j)
    (hnext : after.nextEngine = w.nextEngine + 1) : Apart after := by
  have hold : ∀ i e, i ≠ k → kept? after i = some e → kept? w i = some e ∧ e.serial < w.nextEngine := by
    intro i e hik hi
    rw [hkept, if_neg hik] at hi
    exact ⟨hi, hw.below i e hi⟩
  have hnew : ∀ e, kept? after k = some e → e.serial = w.nextEngine := by
    intro e hk
    rw [hkept, if_pos rfl] at hk
    cases hk
    exact hserial
  constructor
  · intro i e hi
    rw [hnext]
    by_cases hik : i = k
    · have hnumber := hnew e (hik ▸ hi)
      omega
    · have hnumber := (hold i e hik hi).2
      omega
  · intro i j e e' hij hi hj
    by_cases hik : i = k
    · subst hik
      have hfirst := hnew e hi
      have hsecond := (hold j e' (Ne.symm hij) hj).2
      omega
    · by_cases hjk : j = k
      · subst hjk
        have hfirst := (hold i e hik hi).2
        have hsecond := hnew e' hj
        omega
      · exact hw.distinct i j e e' hij (hold i e hik hi).1 (hold j e' hjk hj).1

/-- Every step leaves classes their engines, and none of them to two. -/
theorem Moves.apart {receipt : Option Receipt} (h : Moves w after receipt) (hw : Apart w) : Apart after := by
  cases h with
  | aside hsame hnext => exact hw.of_same hsame (Nat.le_of_eq hnext.symm)
  | asked hanswers =>
    cases hanswers with
    | kept => exact hw
    | failed _ hsame hnext => exact hw.of_same hsame hnext
    | made _ _ hserial hkept hnext => exact hw.of_made hserial hkept hnext

/-! ## 5. Whole runs -/

open Step (receipts)

/-- An engine that a class answers with at any time in a run is the one that it keeps now, or one that is not
there yet. -/
theorem origin_of_receipts {steps : List Step} {r : Receipt} (hr : r ∈ receipts steps w)
    (hok : r.result = .ok e) : kept? w r.handler = some e ∨ w.nextEngine ≤ e.serial := by
  -- Induction on the steps: where an engine comes from is traced back step by step.
  induction steps generalizing w with
  | nil => cases hr
  | cons step rest ih =>
    have hmoves := step.moves w
    rcases List.mem_append.1 hr with hfirst | hlater
    · cases hreceipt : step.receipt? w with
      | none =>
        rw [hreceipt] at hfirst
        cases hfirst
      | some first =>
        rw [hreceipt] at hfirst hmoves
        cases List.mem_singleton.1 hfirst
        refine hmoves.origin ?_
        cases hmoves with
        | asked hanswers => exact (hanswers.keeps hok).1
    · rcases ih hlater with hkept | hnew
      · exact hmoves.origin hkept
      · exact .inr (Nat.le_trans hmoves.nextEngine_le hnew)

/-- Two answers are with different engines, if they are those of different classes. -/
def Receipt.IsApartFrom (r r' : Receipt) : Prop :=
  r.handler ≠ r'.handler → ∀ e e', r.result = .ok e → r'.result = .ok e' → e.serial ≠ e'.serial

theorem pairwise_receipts (hw : Apart w) (steps : List Step) :
    (receipts steps w).Pairwise Receipt.IsApartFrom := by
  induction steps generalizing w with
  | nil => exact .nil
  | cons step rest ih =>
    have hmoves := step.moves w
    have hafter := hmoves.apart hw
    refine List.pairwise_append.2 ⟨?_, ih hafter, ?_⟩
    · cases step.receipt? w with
      | none => exact .nil
      | some first => exact List.pairwise_singleton _ _
    · intro r hr r' hr' hother e e' hok hok'
      rw [Option.mem_toList] at hr
      rw [hr] at hmoves
      cases hmoves with
      | asked hanswers =>
        have hkept := (hanswers.keeps hok).1
        rcases origin_of_receipts hr' hok' with hkept' | hnew
        · exact hafter.distinct _ _ e e' hother hkept hkept'
        · have hbelow := hafter.below _ e hkept
          omega

/-- A class keeps its engine as long as it does not itself answer with one. -/
theorem Answers.still_kept {i j : Nat} {result : Except Fault Engine} (h : Answers w i result after)
    (hkept : kept? w j = some e) (hfailed : j = i → ∃ f, result = .error f) : kept? after j = some e := by
  cases h with
  | kept => exact hkept
  | failed _ hsame => rw [hsame, hkept]
  | made _ _ _ hnew =>
    rw [hnew]
    by_cases hji : j = i
    · obtain ⟨f, hf⟩ := hfailed hji
      cases hf
    · rw [if_neg hji, hkept]

/-- A class that keeps an engine with its registry answers with this engine, whatever is done in between, unless
it answers with another one in between. -/
theorem result_of_kept {steps : List Step} {between later : List Receipt} {r : Receipt}
    (hkept : kept? w r.handler = some e) (hreceipts : receipts steps w = between ++ r :: later)
    (hbetween : ∀ s ∈ between, s.handler = r.handler → ∃ f, s.result = .error f)
    (hregistry : e.registry = r.registry) : r.result = .ok e := by
  induction steps generalizing w between with
  | nil =>
    rw [receipts] at hreceipts
    cases List.append_eq_nil_iff.1 hreceipts.symm with
    | intro _ h => cases h
  | cons step rest ih =>
    have hmoves := step.moves w
    rw [receipts] at hreceipts
    generalize step.leave w = after at hmoves hreceipts
    cases hreceipt : step.receipt? w with
    | none =>
      rw [hreceipt] at hreceipts hmoves
      cases hmoves with
      | aside hsame => exact ih (hsame r.handler ▸ hkept) hreceipts hbetween
    | some first =>
      rw [hreceipt] at hreceipts hmoves
      cases hmoves with
      | @asked i result hanswers =>
        cases between with
        | nil =>
          -- This is the answer in question: the engine that is kept has its registry.
          cases hreceipts
          cases hanswers with
          | kept h =>
            cases h.symm.trans hkept
            rfl
          | made hstale => exact absurd hregistry (hstale e hkept)
          | failed hstale => exact absurd hregistry (hstale e hkept)
        | cons s between =>
          rw [List.cons_append] at hreceipts
          obtain ⟨rfl, hrest⟩ := List.cons.inj hreceipts
          have hstill := hanswers.still_kept hkept fun hi => hbetween _ List.mem_cons_self hi.symm
          exact ih hstill hrest fun s hs => hbetween s (List.mem_cons_of_mem _ hs)

/-- Behind an answer with an engine, the class keeps it, and the run goes on. -/
theorem kept_of_receipts {steps : List Step} {before later : List Receipt} {r : Receipt}
    (hreceipts : receipts steps w = before ++ r :: later) (hok : r.result = .ok e) :
    e.registry = r.registry ∧ ∃ mid rest, kept? mid r.handler = some e ∧ receipts rest mid = later := by
  induction steps generalizing w before with
  | nil =>
    rw [receipts] at hreceipts
    cases List.append_eq_nil_iff.1 hreceipts.symm with
    | intro _ h => cases h
  | cons step rest ih =>
    have hmoves := step.moves w
    rw [receipts] at hreceipts
    cases hreceipt : step.receipt? w with
    | none =>
      rw [hreceipt] at hreceipts
      exact ih hreceipts
    | some first =>
      rw [hreceipt] at hreceipts hmoves
      cases before with
      | cons s before =>
        obtain ⟨-, hrest⟩ := List.cons.inj hreceipts
        exact ih hrest
      | nil =>
        obtain ⟨rfl, hrest⟩ := List.cons.inj hreceipts
        cases hmoves with
        | asked hanswers =>
          obtain ⟨hkept, hregistry⟩ := hanswers.keeps hok
          exact ⟨hregistry, step.leave w, rest, hkept, hrest⟩

end

/-- What the answers of classes have to be like, in the order in which they are given. -/
structure Faithful (answers : List Receipt) : Prop where
  /-- The registry of an engine is that of the class at that moment. -/
  follows : ∀ r ∈ answers, ∀ e, r.result = .ok e → e.registry = r.registry
  /-- No engine is that of two classes. -/
  apart : answers.Pairwise Receipt.IsApartFrom
  /-- A class with the registry that it had when it last answered with an engine answers with this engine. -/
  same : ∀ before between later r r' e, answers = before ++ r :: (between ++ r' :: later) →
    r.result = .ok e → r'.handler = r.handler →
    (∀ s ∈ between, s.handler = r.handler → ∃ f, s.result = .error f) →
    r'.registry = r.registry → r'.result = .ok e

/-- Whatever classes are derived from, and however definitions, assignments of registries and resets of the shared
one come in between: the engine of a class follows its registry, is that of no other class, and is the same as
long as the registry is. -/
theorem faithful_receipts {w : World} (hw : Apart w) (steps : List Step) :
    Faithful (Step.receipts steps w) where
  follows r hr e hok := by
    obtain ⟨before, later, hreceipts⟩ := List.append_of_mem hr
    exact (kept_of_receipts hreceipts hok).1
  apart := pairwise_receipts hw steps
  same before between later r r' e hreceipts hok hhandler hbetween hregistry := by
    obtain ⟨hfollows, mid, rest, hkept, hrest⟩ := kept_of_receipts hreceipts hok
    rw [← hhandler] at hkept hbetween
    exact result_of_kept hkept hrest hbetween (hfollows.trans hregistry.symm)

/-- A class without grants. -/
def bareDefinition (name : String) (bases : List Nat) : Definition where
  name
  bases
  resourceName := none
  registry := none
  resolver := none
  loader := none
  hooks := .silent
  grants := []

/-- Two handlers and one that is derived from both. The shared registry is replaced; then the second base gets a registry
of its own, then the root of all handlers, then the first base, which comes before the second. -/
def sampleSteps : List Step :=
  [.define (bareDefinition "OrdersController" [0]), .define (bareDefinition "ReturnsController" [0]),
    .define (bareDefinition "SwapsController" [1, 2]), .engineOf 1, .engineOf 3, .renewRegistry, .engineOf 3,
    .addRegistry, .setRegistry 2 (some 2), .engineOf 3, .engineOf 1, .define (bareDefinition "" [0]), .addRegistry,
    .setRegistry 0 (some 3), .engineOf 3, .engineOf 1, .addRegistry, .setRegistry 1 (some 4), .engineOf 3,
    .engineOf 2]

theorem faithful_receipts_sampleSteps :
    Apart World.initial ∧ Faithful (Step.receipts sampleSteps World.initial) ∧
      (Step.receipts sampleSteps World.initial).map (fun r => (r.handler, r.registry,
        r.result.toOption.map Engine.serial)) =
        [(1, 0, some 0), (3, 0, some 1), (3, 1, some 2), (3, 2, some 3), (1, 1, some 4), (3, 2, some 3),
          (1, 3, some 5), (3, 4, some 6), (2, 2, some 7)] := by
  have hapart : Apart World.initial := apart_of_none fun i => by
    cases i with
    | zero => rfl
    | succ i => rfl
  exact ⟨hapart, faithful_receipts hapart sampleSteps, by decide +kernel⟩

end Handler

end Gatehouse
