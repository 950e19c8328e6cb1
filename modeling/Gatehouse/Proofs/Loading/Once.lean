import Mathlib.Data.List.Forall2
import Gatehouse.Proofs.Deciding.Pairs
import Gatehouse.Proofs.Loading.Calm
import Gatehouse.Proofs.Loading.Failure
import Gatehouse.Proofs.Loading.Transparency

/-!
# Once — a module registers its declarations once

Each loader remembers which resources it is done with, and the library which modules have been imported. Neither is
enough alone: a new loader asks again for what is there, and a module may be imported that no loader was asked for.
As long as no module fails and the registry is open, the two together see to it that every module runs at most once
and that whatever it declares is registered once, in whichever way and however often it is asked for. Besides the
modules, only the conditions of rules declare anything.
-/

namespace Gatehouse

open Relation (ReflTransGen)
open World (Turn Advances advances_of_isBeside)
open Run (MovesBy)
open scoped List

variable {package : String} {i : Nat} {w after : World}

/-! ## 1. What conditions declare -/

/-- The grants that a condition declares when it is asked. -/
def Condition.grants : Condition → List (Grant Condition)
  | .answer _ => []
  | .declare grant next => grant :: next.grants
  | .freeze next => next.grants
  | .consult _ => []

/-- The conditions that may be asked: those of the rules in a registry, of what modules declare, and of what such
conditions declare in their turn. -/
inductive World.Knows (w : World) (i : Nat) : Condition → Prop where
  | rule {resource action : String} {r : Rule} {c : Condition} (hr : r ∈ (w.registry i).bucket resource action)
      (hc : r.condition = some c) : Knows w i c
  | module {m : RuleModule} {g : Grant Condition} {c : Condition} (hm : m ∈ w.library.modules)
      (hg : .permit g ∈ m.body) (hc : g.guard = .callable c) : Knows w i c
  | declared {asked c : Condition} {g : Grant Condition} (h : Knows w i asked) (hg : g ∈ asked.grants)
      (hc : g.guard = .callable c) : Knows w i c

def World.MayDeclare (w : World) (i : Nat) (g : Grant Condition) : Prop := ∃ c, w.Knows i c ∧ g ∈ c.grants

def World.Foresees (start : World) (i : Nat) (reg : Registry) : Prop :=
  ∀ resource action, ∀ r ∈ reg.bucket resource action, ∀ c, r.condition = some c → start.Knows i c

/-- A state that has been come to from a start by modules that were run to their end and by what conditions
declared. -/
structure World.Accounts (start : World) (package : String) (i : Nat) (w : World) : Prop where
  calm : w.IsCalm start.library package i
  records : ∃ (names : List String) (asides : List (Grant Condition)), (∀ g ∈ asides, start.MayDeclare i g) ∧
    start.Records i names (fun resource action => asides.flatMap fun g => g.rulesAt resource action) w

/-- What holds all along: once the registry is frozen, it only matters that its rules are known. -/
structure World.Keeps (start : World) (package : String) (i : Nat) (w : World) : Prop where
  foresees : start.Foresees i (w.registry i)
  accounts : (w.registry i).frozen = false → start.Accounts package i w

section

variable {start : World}

namespace World

theorem accounts_start (h : start.IsCalm start.library package i) : start.Accounts package i start :=
  ⟨h, [], [], nofun, records_refl i start⟩

theorem Accounts.foresees (h : start.Accounts package i w) : start.Foresees i (w.registry i) := by
  intro resource action r hr c hc
  obtain ⟨names, asides, hasides, hrecords⟩ := h.records
  have hmem : r.unnumbered ∈ (w.registry i).contents resource action := List.mem_map_of_mem hr
  rw [(hrecords.contents resource action).mem_iff, List.mem_append, List.mem_append] at hmem
  have hc' : r.unnumbered.condition = some c := hc
  -- The rule was there at the start, or a module declares it, or a condition.
  rcases hmem with (hold | hmodule) | haside
  · obtain ⟨old, hold, hsame⟩ := List.mem_map.1 hold
    rw [← hsame] at hc'
    exact .rule hold hc'
  · obtain ⟨name, -, hmem⟩ := List.mem_flatMap.1 hmodule
    obtain ⟨m, hm, g, hg, hmade⟩ := Library.of_mem_rulesOf hmem
    exact .module hm hg (Rule.guard_of_condition hmade hc')
  · obtain ⟨g, hg, hmem⟩ := List.mem_flatMap.1 haside
    obtain ⟨asked, hasked, hdeclares⟩ := hasides g hg
    exact .declared hasked hdeclares (Rule.guard_of_condition (Grant.of_mem_rulesAt hmem).2 hc')

theorem Accounts.keeps (h : start.Accounts package i w) : start.Keeps package i w := ⟨h.foresees, fun _ => h⟩

theorem Accounts.advances (h : start.Accounts package i w) (hadvances : Advances start.library package i w after) :
    start.Accounts package i after := by
  obtain ⟨names, asides, hasides, hrecords⟩ := h.records
  obtain ⟨more, hmore⟩ := hadvances.records
  refine ⟨hadvances.calm, names ++ more, asides, hasides, ?_⟩
  simpa using records_trans hrecords hmore

theorem Accounts.permit {g : Grant Condition} {rules : List Rule} (h : start.Accounts package i w)
    (hg : start.MayDeclare i g) (hrun : Run.permit i g w = (.ok rules, after)) : start.Accounts package i after := by
  have hopen := h.calm.isOpen
  have hhome : (Run.home >>= fun j => discard (Run.permit j g) : Run Unit) w = (.ok (), after) := by
    rw [Run.bind_of_ok (Run.home_of_some hopen.home), Run.discard_eq_ok_iff]
    exact ⟨rules, hrun⟩
  obtain ⟨hafter, more, hmore⟩ := (Run.registers_permitHome g).records hopen hhome
  obtain ⟨names, asides, hasides, hrecords⟩ := h.records
  obtain ⟨reg, -, rfl⟩ := Run.permit_eq_ok_iff.1 hrun
  have hserved := h.calm.served
  refine ⟨h.calm.of_library hafter ⟨hserved.modules, hserved.loaders⟩ rfl, names ++ more, asides ++ [g], ?_, ?_⟩
  · simpa [or_imp, forall_and] using ⟨hasides, hg⟩
  · simpa using records_trans hrecords hmore

theorem Keeps.beside (h : start.Keeps package i w) (hbeside : w.IsBeside after)
    (hserved : w.IsServed start.library package → after.IsServed start.library package) :
    start.Keeps package i after := by
  have hregistry := registry_congr hbeside.registries i
  refine ⟨hregistry ▸ h.foresees, fun hopen => ?_⟩
  have hw := h.accounts (hregistry ▸ hopen)
  exact hw.advances (advances_of_isBeside hw.calm hbeside (hserved hw.calm.served))

end World

/-! ## 2. Decisions -/

/-- A run that goes from states that account for their rules to such states. -/
def Run.Accounts (start : World) (package : String) (i : Nat) (α : Type) (run : Run α) : Prop :=
  ∀ w, start.Keeps package i w → start.Keeps package i (run w).2

namespace Run.Accounts

theorem pure (a : α) : Accounts start package i α (pure a) := fun _ hw => hw

theorem throw (f : Fault) : Accounts start package i α (throw f) := fun _ hw => hw

theorem bind {run : Run α} {next : α → Run β} (hrun : Accounts start package i α run)
    (hnext : ∀ a, Accounts start package i β (next a)) : Accounts start package i β (run >>= next) := by
  intro w hw
  have hmid := hrun w hw
  rw [bind_run]
  cases hr : run w with
  | mk result mid =>
    rw [hr] at hmid
    cases result with
    | error f => exact hmid
    | ok a => exact hnext a mid hmid

theorem sequential : Run.Sequential (Accounts start package i) where
  pure := pure
  throw := throw
  bind := bind

/-- Whatever is done to a frozen registry, it stays as it is. -/
theorem of_moves {run : Run α} (hmoves : MovesBy Turn α run)
    (h : ∀ w, start.Accounts package i w → start.Keeps package i (run w).2) : Accounts start package i α run := by
  intro w hw
  cases hfrozen : (w.registry i).frozen with
  | false => exact h w (hw.accounts hfrozen)
  | true =>
    have hsame : (run w).2.registry i = w.registry i :=
      World.registry_of_frozen (ReflTransGen.mono (fun _ _ => .turn) _ _ (hmoves w)) hfrozen
    refine ⟨hsame ▸ hw.foresees, fun hopen => ?_⟩
    rw [hsame, hfrozen] at hopen
    cases hopen

theorem beside {run : Run α} (h : ∀ w : World, w.IsBeside (run w).2)
    (hserved : ∀ w : World, w.IsServed start.library package → (run w).2.IsServed start.library package) :
    Accounts start package i α run := fun w hw => hw.beside (h w) (hserved w)

theorem trace (level : Trace.Level) (message : Except Fault String) :
    Accounts start package i Unit (Run.trace level message) :=
  beside (fun _ => ⟨rfl, rfl, rfl, rfl⟩) fun _ hw => ⟨hw.modules, hw.loaders⟩

theorem question (q : Value × Value) :
    Accounts start package i Unit (Run.change fun w => { w with calls := w.calls ++ [q] }) :=
  beside (fun _ => ⟨rfl, rfl, rfl, rfl⟩) fun _ hw => ⟨hw.modules, hw.loaders⟩

theorem permitHome {g : Grant Condition} (hg : start.MayDeclare i g) :
    Accounts start package i Unit (Run.home >>= fun j => discard (Run.permit j g)) := by
  refine of_moves (MovesBy.declaring.permitHome g) fun w hw => ?_
  cases hrun : permit i g w with
  | mk result after =>
    have hafter : ((home >>= fun j => discard (permit j g) : Run Unit) w).2 = after := by
      rw [bind_of_ok (home_of_some hw.calm.isOpen.home), discard_run, hrun]
    rw [hafter]
    cases result with
    | error f => exact (permit_eq_error_iff.1 hrun).2 ▸ hw.keeps
    | ok rules => exact (hw.permit hg hrun).keeps

theorem freezeHome : Accounts start package i Unit (Run.home >>= fun j => Run.freeze j) := by
  refine of_moves (MovesBy.deciding.bind MovesBy.deciding.home MovesBy.deciding.freeze) fun w hw => ?_
  have hopen := hw.calm.isOpen
  rw [bind_of_ok (home_of_some hopen.home)]
  -- The rules stay as they are, and there is nothing more to account for.
  have hfrozen : (w.setRegistry i (w.registry i).freeze).registry i = (w.registry i).freeze :=
    World.registry_setRegistry_self _ hopen.count
  change start.Keeps package i (w.setRegistry i (w.registry i).freeze)
  constructor
  · rw [hfrozen]
    exact hw.foresees
  · rw [hfrozen]
    exact nofun

theorem ensure (j : Nat) (resource : Value) : Accounts start package i Unit (Loader.ensure j resource) :=
  of_moves (Loader.ensure_of MovesBy.loading j resource) fun _ hw =>
    (hw.advances (Loader.advances_ensure hw.calm j resource)).keeps

end Run.Accounts

theorem Condition.accounts_ask {decide : Value → Run Bool}
    (hdecide : ∀ target, Run.Accounts start package i Bool (decide target)) :
    (c : Condition) → (∀ g ∈ c.grants, start.MayDeclare i g) → (user object : Value) →
      Run.Accounts start package i Value (c.ask decide user object)
  | .answer f, _, user, object => Run.Accounts.sequential.ofExcept (f user object)
  | .declare grant next, hgrants, user, object => by
      have hnext := accounts_ask hdecide next (fun g hg => hgrants g (List.mem_cons_of_mem grant hg)) user object
      have hfirst : Run.Accounts start package i Unit _ := Run.Accounts.permitHome (hgrants grant List.mem_cons_self)
      unfold ask
      rw [← bind_assoc]
      exact hfirst.bind fun _ => hnext
  | .freeze next, hgrants, user, object => by
      unfold ask
      rw [← bind_assoc]
      exact Run.Accounts.freezeHome.bind fun _ => accounts_ask hdecide next hgrants user object
  | .consult target, _, _, _ => by
      unfold ask
      exact (hdecide target).bind fun allowed => .pure _

/-- A decision beside itself asks known conditions only. -/
theorem Run.Accounts.accord : Run.Accord i (fun α run _ => Run.Accounts start package i α run)
    (fun c _ => start.Knows i c) Eq where
  pure := .pure
  throw := .throw
  bind := .bind
  trace := .trace
  question := .question
  bucket resource action next next' hnext := by
    intro w hw
    rw [bind_of_ok (read_run _ w)]
    -- The conditions of all rules that are read here are known.
    have hknown : List.Forall₂ (Rule.Matches fun c _ => start.Knows i c)
        ((w.registry i).bucket resource action) ((w.registry i).bucket resource action) := by
      rw [List.forall₂_same]
      intro r hr
      refine ⟨rfl, rfl, rfl, ?_⟩
      cases hc : r.condition with
      | none => exact .none
      | some c => exact .some (hw.foresees resource action r hr c hc)
    exact hnext _ _ hknown w hw
  ask hdecide c _ hc user object :=
    c.accounts_ask (fun target => hdecide target target rfl) (fun _ hg => ⟨c, hc, hg⟩) user object

theorem Engine.accounts_decide {e : Engine} (he : e.registry = i) (target : Value)
    (options : List (Value × Value)) (host : Option Host) :
    Run.Accounts start package i Decision (e.decide target options host) := by
  have hmatches : Engine.Matches i (fun α run _ => Run.Accounts start package i α run) Eq Eq e e := by
    refine ⟨he, he, rfl, rfl, fun level message => ?_, fun scope => ?_, fun _ _ _ => ?_, fun _ _ _ _ _ _ => ?_⟩
    · unfold trace
      split
      · exact .pure ()
      · exact .trace level message
    · unfold load
      cases e.loader with
      | none => exact .pure ()
      | some j => exact .ensure j (.text scope)
    · exact Run.Accounts.sequential.ofExcept _
    · exact Run.Accounts.sequential.ofExcept _
  rw [decide_eq_subject]
  apply (Run.Accounts.sequential.ofExcept _).bind
  intro subject
  exact pair_decideAt Run.Accounts.accord hmatches rfl (fun _ _ => congrArg orNoOptions) depthLimit rfl rfl

/-! ## 3. Uses of engines -/

namespace Use

/-- An engine that decides looks at the rules of this registry. -/
def IsOn (i : Nat) : Use → Prop
  | .decide e _ _ _ => e.registry = i
  | _ => True

theorem accounts_run (use : Use) (huse : use.IsOn i) : Run.Accounts start package i Unit (use.run package) := by
  cases use with
  | decide e target options host => exact Run.Accounts.sequential.discard (Engine.accounts_decide huse target options host)
  | load j resource => exact .ensure j resource
  | renew registry host resolver settings muted consulted =>
    have hloader : Run.Accounts start package i Nat (Loader.add (.package package [])) :=
      .beside (fun _ => ⟨rfl, rfl, rfl, rfl⟩) fun _ hw => hw.addLoader
    apply hloader.bind
    intro loader
    apply Run.Accounts.sequential.discard
    have hmake := Engine.make_run registry host (some loader) resolver settings muted consulted
    apply Run.Accounts.beside
    · intro w
      obtain ⟨nextEngine, hafter⟩ := hmake w
      rw [hafter]
      exact ⟨rfl, rfl, rfl, rfl⟩
    · intro w hw
      obtain ⟨nextEngine, hafter⟩ := hmake w
      rw [hafter]
      exact ⟨hw.modules, hw.loaders⟩

theorem keeps_runAll {uses : List Use} (huses : ∀ use ∈ uses, use.IsOn i) (hw : start.Keeps package i w) :
    start.Keeps package i (runAll package uses w) := by
  induction uses generalizing w with
  | nil => exact hw
  | cons use rest ih =>
    apply ih (fun later hlater => huses later (List.mem_cons_of_mem use hlater))
    exact use.accounts_run (huses use List.mem_cons_self) w hw

/-- However engines are used and whatever their loaders have been asked for, every module has run at most once, from
its beginning to its end, and the registry holds what it held at the start, what the modules that have run declare,
each declaration once, and what conditions have declared. -/
theorem registers_once (hhome : start.home = some i) (hcount : i < start.registries.length)
    (hserved : start.IsServed start.library package) (hquiet : start.ImportsQuietly) {uses : List Use}
    (huses : ∀ use ∈ uses, use.IsOn i) (hopen : ((runAll package uses start).registry i).frozen = false) :
    ∃ (names : List String) (asides : List (Grant Condition)),
      (runAll package uses start).library.started = start.library.started ++ names ∧ names.Nodup ∧
      (∀ name ∈ names, name ∉ start.library.imported ∧
        name ∈ (runAll package uses start).library.imported) ∧
      (∀ g ∈ asides, start.MayDeclare i g) ∧
      ∀ resource action, ((runAll package uses start).registry i).contents resource action ~
        (start.registry i).contents resource action ++
          names.flatMap (fun name => start.library.rulesOf name resource action) ++
          asides.flatMap fun g => g.rulesAt resource action := by
  have hunfrozen : (start.registry i).frozen = false := by
    by_contra hfrozen
    rw [Bool.not_eq_false] at hfrozen
    have hsame := World.registry_of_frozen
      (ReflTransGen.mono (fun _ _ => .turn) _ _ (turns_runAll package uses start)) hfrozen
    rw [hsame, hfrozen] at hopen
    cases hopen
  have hstart : start.Accounts package i start :=
    World.accounts_start ⟨⟨rfl, hhome, hcount, hunfrozen⟩, hserved, hquiet⟩
  obtain ⟨names, asides, hasides, hrecords⟩ := ((keeps_runAll huses hstart.keeps).accounts hopen).records
  refine ⟨names, asides, hrecords.started, ?_⟩
  obtain ⟨started, hstarted, hnodup, hnames⟩ := hrecords.finishes.started
  have hsame : started = names := List.append_cancel_left (hstarted.symm.trans hrecords.started)
  subst hsame
  exact ⟨hnodup, hnames, hasides, hrecords.contents⟩

end Use

end

/-! ## 4. Two loaders for modules that import each other -/

def loadingSettings : Settings where
  fallbackResource := .text "application"
  relativeUrlRoot := ""
  logPath := none
  logLevel := "DEBUG"
  logTag := ""
  lazyLoadPackage := none

/-- The first loading starts all modules; they are asked for again through a second loader. -/
def loadingUses : List Use :=
  [.load 0 (.text "orders"), .renew 0 none none loadingSettings false true,
    .decide { Engine.sample with loader := some 1 } .null Engine.sampleOptions none, .load 1 (.text "orders"),
    .decide Engine.loadingSample .null Engine.sampleOptions none]

theorem registers_once_loadingUses :
    let after := Use.runAll "rules" loadingUses Engine.loadingWorld
    (after.registry 0).frozen = false ∧ after.library.started = ["rules", "rules.orders", "rules.products"] ∧
      ∃ (names : List String) (asides : List (Grant Condition)),
        after.library.started = Engine.loadingWorld.library.started ++ names ∧ names.Nodup ∧
        (∀ name ∈ names, name ∉ Engine.loadingWorld.library.imported ∧ name ∈ after.library.imported) ∧
        (∀ g ∈ asides, Engine.loadingWorld.MayDeclare 0 g) ∧
        ∀ resource action, (after.registry 0).contents resource action ~
          (Engine.loadingWorld.registry 0).contents resource action ++
            names.flatMap (fun name => Engine.loadingWorld.library.rulesOf name resource action) ++
            asides.flatMap fun g => g.rulesAt resource action := by
  intro after
  have hopen : (after.registry 0).frozen = false := by decide +kernel
  have hserved : Engine.loadingWorld.IsServed Engine.loadingWorld.library "rules" :=
    ⟨rfl, fun _ hloader => ⟨[], List.mem_singleton.1 hloader⟩⟩
  have hquiet : Engine.loadingWorld.ImportsQuietly :=
    World.importsQuietly_of_isSound (i := 0) Engine.isSound_loadingWorld rfl (by decide) rfl
  have huses : ∀ use ∈ loadingUses, use.IsOn 0 := by
    simp [loadingUses, Use.IsOn, Engine.sample, Engine.loadingSample]
  exact ⟨hopen, by decide +kernel, Use.registers_once rfl (by decide) hserved hquiet huses hopen⟩

end Gatehouse
