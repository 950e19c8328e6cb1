import Gatehouse.Proofs.Naming.Declarations

/-!
# Respelling — two runs that differ in the spelling of names

Two states differ in the spelling of names if their registries, rule modules and loaders do, and two runs if
from such states they come to the same result or to misconfigurations, and leave such states. Sequencing keeps
this, so that only what reads names has to be looked at. No step of a decision compares names as they are
written.
-/

namespace Gatehouse

/-! ## 1. States -/

inductive Statement.Respells : Statement → Statement → Prop where
  | permit {g g' : Grant Condition} (h : g.Respells g') : Respells (.permit g) (.permit g')
  | bring (name : String) : Respells (.bring name) (.bring name)
  | fail (fault : Fault) : Respells (.fail fault) (.fail fault)

structure RuleModule.Respells (m m' : RuleModule) : Prop where
  name : m'.name = m.name
  body : List.Forall₂ Statement.Respells m.body m'.body

inductive Loader.Respells : Loader → Loader → Prop where
  | package (name : String) (seen : List Value) : Respells (.package name seen) (.package name seen)
  | script {stubs stubs' : List (String × List Statement)}
      (h : List.Forall₂ (fun s s' => s'.1 = s.1 ∧ List.Forall₂ Statement.Respells s.2 s'.2) stubs stubs')
      (asked : List Value) : Respells (.script stubs asked) (.script stubs' asked)

namespace World

/-- The same state with other registries, rule modules and loaders. -/
def declaring (w : World) (registries : List Registry) (modules : List RuleModule) (loaders : List Loader) : World :=
  { w with registries, library := { w.library with modules }, loaders }

/-- The same state, but for the spelling of names in what has been declared and in what is there to be loaded. -/
inductive Respells (w : World) : World → Prop where
  | intro {registries : List Registry} {modules : List RuleModule} {loaders : List Loader}
      (hregistries : List.Forall₂ (Registry.Matches Condition.Respells) w.registries registries)
      (hmodules : List.Forall₂ RuleModule.Respells w.library.modules modules)
      (hloaders : List.Forall₂ Loader.Respells w.loaders loaders) :
      Respells w (w.declaring registries modules loaders)

end World

theorem getElem?_forall₂ {R : α → β → Prop} {xs : List α} {ys : List β} (h : List.Forall₂ R xs ys) (i : Nat) :
    Option.Rel R xs[i]? ys[i]? := by
  induction h generalizing i with
  | nil => exact .none
  | cons hxy _ ih =>
    cases i with
    | zero => exact .some hxy
    | succ i => exact ih i

theorem set_forall₂ {R : α → β → Prop} {xs : List α} {ys : List β} (h : List.Forall₂ R xs ys) (i : Nat)
    {x : α} {y : β} (hxy : R x y) : List.Forall₂ R (xs.set i x) (ys.set i y) := by
  induction h generalizing i with
  | nil => exact .nil
  | cons hfirst hrest ih =>
    cases i with
    | zero => exact .cons hxy hrest
    | succ i => exact .cons hfirst (ih i)

theorem modify_forall₂ {R : α → β → Prop} {xs : List α} {ys : List β} (h : List.Forall₂ R xs ys) (i : Nat)
    {f : α → α} {g : β → β} (hfg : ∀ x y, R x y → R (f x) (g y)) :
    List.Forall₂ R (xs.modify i f) (ys.modify i g) := by
  induction h generalizing i with
  | nil =>
    rw [List.modify_nil, List.modify_nil]
    exact .nil
  | cons hfirst hrest ih =>
    cases i with
    | zero => exact .cons (hfg _ _ hfirst) hrest
    | succ i => exact .cons hfirst (ih i)

theorem find?_forall₂ {R : α → β → Prop} {xs : List α} {ys : List β} (h : List.Forall₂ R xs ys)
    {p : α → Bool} {q : β → Bool} (hpq : ∀ x y, R x y → q y = p x) :
    Option.Rel R (xs.find? p) (ys.find? q) := by
  induction h with
  | nil => exact .none
  | @cons x y _ _ hxy _ ih =>
    rw [List.find?_cons, List.find?_cons, hpq x y hxy]
    cases p x with
    | true => exact .some hxy
    | false => exact ih

theorem World.Respells.registry {w w' : World} (h : w.Respells w') (i : Nat) :
    Registry.Matches Condition.Respells (w.registry i) (w'.registry i) := by
  cases h with
  | @intro registries _ _ hregistries =>
    have hfound := getElem?_forall₂ hregistries i
    show Registry.Matches _ ((w.registries[i]?).getD .empty) ((registries[i]?).getD .empty)
    generalize w.registries[i]? = found at hfound
    generalize registries[i]? = found' at hfound
    cases hfound with
    | none => exact .refl .same .empty
    | some h => exact h

theorem World.Respells.setRegistry {w w' : World} (h : w.Respells w') (i : Nat) {reg reg' : Registry}
    (hreg : Registry.Matches Condition.Respells reg reg') :
    (w.setRegistry i reg).Respells (w'.setRegistry i reg') := by
  cases h with
  | intro hregistries hmodules hloaders =>
    exact .intro (w := w.setRegistry i reg) (set_forall₂ hregistries i hreg) hmodules hloaders

/-! ## 2. Runs -/

/-- From states that differ in the spelling of names, two runs give what is related, or faults that agree, and leave
such states. -/
def Run.Respells (R : α → β → Prop) (run : Run α) (run' : Run β) : Prop :=
  ∀ w w', w.Respells w' → Agree R (run w).1 (run' w').1 ∧ (run w).2.Respells (run' w').2

namespace Run.Respells

variable {R : α → β → Prop} {S : γ → δ → Prop} {run : Run α} {run' : Run β}

theorem ofExcept {r : Except Fault α} {r' : Except Fault β} (h : Agree R r r') :
    Run.Respells R (ofExcept r) (ofExcept r') := fun _ _ hw => ⟨h, hw⟩

theorem pure {a : α} {b : β} (h : R a b) : Run.Respells R (pure a) (pure b) := ofExcept (.ok h)

theorem throw {f f' : Fault} (h : f.Agrees f') : Run.Respells R (throw f : Run α) (throw f') := ofExcept (.error h)

theorem bind {next : α → Run γ} {next' : β → Run δ} (hrun : Run.Respells R run run')
    (hnext : ∀ a b, R a b → Run.Respells S (next a) (next' b)) :
    Run.Respells S (run >>= next) (run' >>= next') := by
  intro w w' hw
  obtain ⟨hresult, hafter⟩ := hrun w w' hw
  rw [bind_run, bind_run]
  generalize run w = out at hresult hafter
  generalize run' w' = out' at hresult hafter
  obtain ⟨result, after⟩ := out
  obtain ⟨result', after'⟩ := out'
  cases hresult with
  | error h => exact ⟨.error h, hafter⟩
  | ok h => exact hnext _ _ h after after' hafter

theorem tryCatch {handle : Fault → Run α} {handle' : Fault → Run β} (hrun : Run.Respells R run run')
    (hhandle : ∀ f f', f.Agrees f' → Run.Respells R (handle f) (handle' f')) :
    Run.Respells R (tryCatch run handle) (tryCatch run' handle') := by
  intro w w' hw
  obtain ⟨hresult, hafter⟩ := hrun w w' hw
  rw [tryCatch_run, tryCatch_run]
  generalize run w = out at hresult hafter
  generalize run' w' = out' at hresult hafter
  obtain ⟨result, after⟩ := out
  obtain ⟨result', after'⟩ := out'
  cases hresult with
  | error h => exact hhandle _ _ h after after' hafter
  | ok h => exact ⟨.ok h, hafter⟩

theorem read {f : World → α} {f' : World → β} (h : ∀ w w', w.Respells w' → R (f w) (f' w')) :
    Run.Respells R (read f) (read f') := fun w w' hw => ⟨.ok (h w w' hw), hw⟩

theorem change {f f' : World → World} (h : ∀ w w', w.Respells w' → (f w).Respells (f' w')) :
    Run.Respells Eq (change f) (change f') := fun w w' hw => ⟨.ok rfl, h w w' hw⟩

theorem discard (hrun : Run.Respells R run run') :
    Run.Respells Eq (discard run : Run Unit) (discard run') := by
  rw [discard_eq_bind, discard_eq_bind]
  exact hrun.bind fun _ _ _ => pure rfl

theorem home : Run.Respells Eq home home := by
  intro w w' hw
  have hhome : w'.home = w.home := by
    cases hw with
    | intro => rfl
  unfold Run.home
  rw [hhome]
  cases w.home with
  | none => exact ⟨.error (.inl rfl), hw⟩
  | some i => exact ⟨.ok rfl, hw⟩

theorem freeze (i : Nat) : Run.Respells Eq (freeze i) (freeze i) :=
  change fun _ _ hw => hw.setRegistry i (Registry.freeze_matches (hw.registry i))

theorem permit (i : Nat) {g g' : Grant Condition} (hg : g.Respells g') :
    Run.Respells (List.Forall₂ (Rule.Matches Condition.Respells)) (permit i g) (permit i g') := by
  intro w w' hw
  have hnext : w'.nextRule = w.nextRule := by
    cases hw with
    | intro => rfl
  have hagrees := Registry.permit_agrees (hw.registry i) w.nextRule hg
  unfold Run.permit
  rw [hnext]
  generalize (w.registry i).permit w.nextRule g = out at hagrees
  generalize (w'.registry i).permit w.nextRule g' = out' at hagrees
  cases hagrees with
  | error h => exact ⟨.error h, hw⟩
  | @ok made made' h =>
    refine ⟨.ok h.2, ?_⟩
    have hlength : made'.2.length = made.2.length := h.2.length_eq.symm
    have hset := hw.setRegistry i h.1
    dsimp only
    rw [hlength]
    generalize w'.setRegistry i made'.1 = after' at hset
    cases hset with
    | intro hregistries hmodules hloaders =>
      exact .intro (w := { w.setRegistry i made.1 with nextRule := w.nextRule + made.2.length })
        hregistries hmodules hloaders

end Run.Respells

/-! ## 3. Imports -/

namespace Library

/-- The same library, but for the spelling of names in what modules declare. -/
structure Respells (lib lib' : Library) : Prop where
  modules : List.Forall₂ RuleModule.Respells lib.modules lib'.modules
  imported : lib'.imported = lib.imported
  started : lib'.started = lib.started

variable {lib lib' : Library}

theorem Respells.pending (h : Respells lib lib') (name : String) : lib'.pending name = lib.pending name := by
  unfold Library.pending
  rw [h.imported]

theorem Respells.isPackage (h : Respells lib lib') (name : String) : lib'.isPackage name = lib.isPackage name := by
  have hmodules := h.modules
  unfold Library.isPackage
  generalize lib.modules = modules at hmodules
  generalize lib'.modules = modules' at hmodules
  induction hmodules with
  | nil => rfl
  | cons hm _ ih => rw [List.any_cons, List.any_cons, hm.name, ih]

theorem Respells.find (h : Respells lib lib') (name : String) :
    Agree RuleModule.Respells (lib.find name) (lib'.find name) := by
  have hfound : Option.Rel RuleModule.Respells (lib.modules.find? fun m => m.name == name)
      (lib'.modules.find? fun m => m.name == name) :=
    find?_forall₂ h.modules fun m m' hm => by rw [hm.name]
  unfold Library.find
  dsimp only
  generalize (lib.modules.find? fun m => m.name == name) = found at hfound ⊢
  generalize (lib'.modules.find? fun m => m.name == name) = found' at hfound ⊢
  -- Whether a name has a package above it, and whether that is one, is the same on both sides.
  split
  · rename_i p _
    rw [h.isPackage p]
    cases lib.isPackage p with
    | false => exact .error (.inl rfl)
    | true =>
      cases hfound with
      | none => exact .error (.inl rfl)
      | some hm => exact .ok hm
  · cases hfound with
    | none => exact .error (.inl rfl)
    | some hm => exact .ok hm

end Library

namespace World.Respells

variable {w w' : World} (h : w.Respells w')

include h

theorem library : Library.Respells w.library w'.library := by
  cases h with
  | intro _ hmodules _ => exact ⟨hmodules, rfl, rfl⟩

theorem setLibrary {lib lib' : Library} (hlib : Library.Respells lib lib') :
    World.Respells { w with library := lib } { w' with library := lib' } := by
  obtain ⟨modules', imported', started'⟩ := lib'
  obtain ⟨hmodules, rfl, rfl⟩ := hlib
  cases h with
  | intro hregistries _ hloaders => exact .intro (w := { w with library := lib }) hregistries hmodules hloaders

end World.Respells

section

variable {bring bring' : String → Run Unit} (hbring : ∀ name, Run.Respells Eq (bring name) (bring' name))

include hbring

theorem Statement.Respells.run {st st' : Statement} (h : Statement.Respells st st') :
    Run.Respells Eq (st.run bring) (st'.run bring') := by
  cases h with
  | permit hg =>
    apply Run.Respells.home.bind
    rintro i _ rfl
    exact (Run.Respells.permit i hg).discard
  | bring name => exact hbring name
  | fail fault => exact .throw (.inl rfl)

theorem Statement.respells_runAll {body body' : List Statement} (h : List.Forall₂ Statement.Respells body body') :
    Run.Respells Eq (runAll bring body) (runAll bring' body') := by
  induction h with
  | nil => exact .pure rfl
  | cons hst _ ih => exact (hst.run hbring).bind fun _ _ _ => ih

namespace Library

theorem respells_bringOne (name : String) : Run.Respells Eq (bringOne bring name) (bringOne bring' name) := by
  unfold bringOne
  apply (Run.Respells.read fun _ _ hw => hw.library).bind
  intro lib lib' hlib
  rw [hlib.imported]
  cases lib.imported.contains name with
  | true => exact .pure rfl
  | false =>
    apply (Run.Respells.ofExcept (hlib.find name)).bind
    intro m m' hm
    apply (Run.Respells.change fun w w' hw => ?_).bind
    · intro _ _ _
      apply (Statement.respells_runAll hbring hm.body).tryCatch
      intro f f' hf
      apply (Run.Respells.change fun w w' hw => ?_).bind
      · exact fun _ _ _ => .throw hf
      · have hlib := hw.library
        refine hw.setLibrary ⟨hlib.modules, ?_, hlib.started⟩
        show w'.library.imported.filter (· != name) = w.library.imported.filter (· != name)
        rw [hlib.imported]
    · have hlib := hw.library
      refine hw.setLibrary ⟨hlib.modules, ?_, ?_⟩
      · show name :: w'.library.imported = name :: w.library.imported
        rw [hlib.imported]
      · show w'.library.started ++ [name] = w.library.started ++ [name]
        rw [hlib.started]

theorem respells_bringEach (names : List String) :
    Run.Respells Eq (bringEach bring names) (bringEach bring' names) := by
  induction names with
  | nil => exact .pure rfl
  | cons name rest ih => exact (respells_bringOne hbring name).bind fun _ _ _ => ih

end Library

end

theorem Library.respells_bringAt (depth : Nat) (name : String) :
    Run.Respells Eq (bringAt depth name) (bringAt depth name) := by
  -- Induction on how deep imports may go: what one level imports, the level below does.
  induction depth generalizing name with
  | zero => exact .throw (.inl rfl)
  | succ depth ih =>
    rw [bringAt_succ]
    split
    · exact .throw (.inl rfl)
    · split
      · exact .throw (.inl rfl)
      · apply (Run.Respells.read fun w w' hw => (hw.library.pending name).symm).bind
        rintro names _ rfl
        split
        · exact .throw (.inl rfl)
        · exact respells_bringEach ih names

/-! ## 4. Loading -/

namespace Loader

theorem isAbsence_of_agrees {f f' : Fault} (h : f.Agrees f') (package name : String) :
    isAbsence package name f' = isAbsence package name f := by
  rcases h with rfl | ⟨hf, hf'⟩
  · rfl
  · have hnone : ∀ f : Fault, f.isMisconfiguration = true → isAbsence package name f = false := by
      intro f hf
      cases f with
      | misconfigured c => rfl
      | _ => cases hf
    rw [hnone f hf, hnone f' hf']

theorem respells_bringResource (package : String) (resource : Value) :
    Run.Respells Eq (bringResource package resource) (bringResource package resource) := by
  apply (Run.Respells.ofExcept (Agree.of_eq rfl)).bind
  rintro name _ rfl
  apply (Library.respells_bringAt _ name).tryCatch
  intro f f' hf
  rw [isAbsence_of_agrees hf]
  cases isAbsence package name f with
  | true => exact .pure rfl
  | false => exact .throw hf

theorem respells_stubOf {stubs stubs' : List (String × List Statement)}
    (h : List.Forall₂ (fun s s' => s'.1 = s.1 ∧ List.Forall₂ Statement.Respells s.2 s'.2) stubs stubs')
    (resource : Value) : List.Forall₂ Statement.Respells (stubOf stubs resource) (stubOf stubs' resource) := by
  have hfound : Option.Rel (fun s s' => s'.1 = s.1 ∧ List.Forall₂ Statement.Respells s.2 s'.2)
      (stubs.reverse.find? fun s => Value.equals resource (.text s.1))
      (stubs'.reverse.find? fun s => Value.equals resource (.text s.1)) :=
    find?_forall₂ (List.rel_reverse h) fun s s' hs => by rw [hs.1]
  unfold stubOf
  generalize (stubs.reverse.find? fun s => Value.equals resource (.text s.1)) = found at hfound
  generalize (stubs'.reverse.find? fun s => Value.equals resource (.text s.1)) = found' at hfound
  cases hfound with
  | none => exact .nil
  | some h => exact h.2

/-- Loaders are changed in the same way on both sides. -/
theorem respells_modify (i : Nat) {f : Loader → Loader} (hf : ∀ l l', Loader.Respells l l' → Loader.Respells (f l) (f l')) :
    Run.Respells Eq (Run.change fun w => { w with loaders := w.loaders.modify i f })
      (Run.change fun w => { w with loaders := w.loaders.modify i f }) := by
  apply Run.Respells.change
  intro w w' hw
  cases hw with
  | intro hregistries hmodules hloaders =>
    exact .intro (w := { w with loaders := w.loaders.modify i f }) hregistries hmodules
      (modify_forall₂ hloaders i hf)

theorem respells_ensure (i : Nat) (resource : Value) :
    Run.Respells Eq (ensure i resource) (ensure i resource) := by
  have hread : Run.Respells (Option.Rel Loader.Respells) (Run.read fun w => w.loaders[i]?)
      (Run.read fun w => w.loaders[i]?) := by
    apply Run.Respells.read
    intro w w' hw
    cases hw with
    | intro _ _ hloaders => exact getElem?_forall₂ hloaders i
  apply hread.bind
  intro found found' hfound
  cases hfound with
  | none => exact .pure rfl
  | some hloader =>
    cases hloader with
    | package name seen =>
      dsimp only
      cases resource.isKey with
      | false => exact .throw (.inl rfl)
      | true =>
        cases isAmong resource seen with
        | true => exact .pure rfl
        | false =>
          apply (respells_bringResource name resource).bind
          intro _ _ _
          apply respells_modify
          intro l l' hl
          cases hl with
          | package name seen => exact .package name (resource :: seen)
          | script h asked => exact .script h asked
    | script h asked =>
      dsimp only
      apply (respells_modify i ?_).bind
      · intro _ _ _
        cases resource.isKey with
        | false => exact .throw (.inl rfl)
        | true =>
          cases isAmong resource asked with
          | true => exact .pure rfl
          | false =>
            exact Statement.respells_runAll (Library.respells_bringAt _) (respells_stubOf h resource)
      · intro l l' hl
        cases hl with
        | package name seen => exact .package name seen
        | script h asked => exact .script h (asked ++ [resource])

end Loader

end Gatehouse
