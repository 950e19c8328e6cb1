import Gatehouse.Proofs.Loading.Completion

/-!
# Records — what an import that ends well leaves in a registry

Modules may declare on any resource and start each other on the way, so that the rules of several modules are
interleaved. An import that ends well still adds the rules of every module that it started exactly once, in some
order. Whether it ends well depends on which modules are there already, and not on what the registry holds.
-/

namespace Gatehouse

open Relation (ReflTransGen)
open World (Turn)
open scoped List

/-! ## 1. What has been recorded -/

/-- Between two states the named modules have been started and run to their end, and the registry under a number has
got the rules of each of them, with some rules besides. -/
structure World.Records (i : Nat) (names : List String) (besides : String → String → List Rule) (w after : World) :
    Prop where
  finishes : w.Finishes after
  modules : after.library.modules = w.library.modules
  started : after.library.started = w.library.started ++ names
  contents : ∀ resource action, (after.registry i).contents resource action ~
    (w.registry i).contents resource action ++
      names.flatMap (fun name => w.library.rulesOf name resource action) ++ besides resource action

theorem Library.rulesOf_congr {lib lib' : Library} (h : lib'.modules = lib.modules) :
    lib'.rulesOf = lib.rulesOf := by
  funext name resource action
  unfold rulesOf
  rw [h]

namespace World

variable {i : Nat} {names more : List String} {besides others : String → String → List Rule} {w mid after : World}

/-- Where no module is started, all that is recorded comes besides. -/
theorem records_of_library (hturns : ReflTransGen Turn w after) (hlibrary : after.library = w.library)
    (hcontents : ∀ resource action, (after.registry i).contents resource action =
      (w.registry i).contents resource action ++ besides resource action) : Records i [] besides w after where
  finishes := finishes_of_library hturns hlibrary
  modules := by rw [hlibrary]
  started := by rw [hlibrary, List.append_nil]
  contents resource action := by simp [hcontents]

theorem records_refl (i : Nat) (w : World) : Records i [] (fun _ _ => []) w w :=
  records_of_library .refl rfl fun _ _ => (List.append_nil _).symm

theorem records_trans (h : Records i names besides w mid) (h' : Records i more others mid after) :
    Records i (names ++ more) (fun resource action => besides resource action ++ others resource action) w after where
  finishes := finishes_trans h.finishes h'.finishes
  modules := h'.modules.trans h.modules
  started := by rw [h'.started, h.started, List.append_assoc]
  contents resource action := by
    have hfirst := h.contents resource action
    have hthen := h'.contents resource action
    rw [Library.rulesOf_congr h.modules] at hthen
    rw [List.flatMap_append]
    generalize names.flatMap (fun name => w.library.rulesOf name resource action) = first at hfirst ⊢
    generalize more.flatMap (fun name => w.library.rulesOf name resource action) = second at hthen ⊢
    -- What was added besides comes before the rules of the modules started later, and changes places with them.
    have hswap : besides resource action ++ second ~ second ++ besides resource action := List.perm_append_comm
    calc (after.registry i).contents resource action
      _ ~ (mid.registry i).contents resource action ++ second ++ others resource action := hthen
      _ ~ (w.registry i).contents resource action ++ first ++ (besides resource action ++ second) ++
            others resource action := by
          rw [← List.append_assoc _ (besides resource action)]
          exact (hfirst.append_right second).append_right _
      _ ~ (w.registry i).contents resource action ++ first ++ (second ++ besides resource action) ++
            others resource action := (hswap.append_left _).append_right _
      _ = _ := by simp only [List.append_assoc]

/-- What a module that has been started adds besides is what it declares. -/
theorem records_of_start {name : String} {m : RuleModule} (hname : name ∉ w.library.imported)
    (hfind : w.library.find name = .ok m)
    (h : Records i names (fun resource action => m.body.flatMap fun st => st.rulesAt resource action)
      { w with library := w.library.start name } after) :
    Records i (name :: names) (fun _ _ => []) w after where
  finishes := finishes_of_start hname h.finishes
  modules := h.modules
  started := by rw [h.started, Library.start, List.append_assoc, List.singleton_append]
  contents resource action := by
    have hbody := h.contents resource action
    have hrules : w.library.rulesOf name resource action = m.body.flatMap fun st => st.rulesAt resource action := by
      unfold Library.rulesOf
      rw [Library.find?_of_find hfind]
    have hsame : Library.rulesOf (w.library.start name) = w.library.rulesOf := Library.rulesOf_congr rfl
    rw [hsame, List.append_assoc] at hbody
    rw [List.append_nil, List.flatMap_cons, hrules]
    exact hbody.trans (List.perm_append_comm.append_left _)

end World

/-! ## 2. Runs that record -/

/-- A run that records what it is said to whenever it ends well. It then ends well wherever the library is the same,
whatever the registry holds. -/
structure Run.Registers (lib : Library) (i : Nat) (besides : String → String → List Rule) (run : Run Unit) :
    Prop where
  records : ∀ {w after : World}, w.IsOpen lib i → run w = (.ok (), after) →
    after.IsOpen lib i ∧ ∃ names, w.Records i names besides after
  again : ∀ {w w' after : World}, w.IsOpen lib i → w'.IsOpen lib i → w'.library = w.library →
    run w = (.ok (), after) → ∃ after', run w' = (.ok (), after') ∧ after'.library = after.library

namespace Run

variable {lib : Library} {i : Nat} {besides others : String → String → List Rule}

theorem registers_pure : Registers lib i (fun _ _ => []) (pure ()) where
  records {w after} hw h := by
    cases h
    exact ⟨hw, [], World.records_refl i w⟩
  again {w w' after} _ _ hlibrary h := by
    cases h
    exact ⟨w', rfl, hlibrary⟩

theorem registers_bind {run next : Run Unit} (hrun : Registers lib i besides run)
    (hnext : Registers lib i others next) :
    Registers lib i (fun resource action => besides resource action ++ others resource action)
      (run >>= fun _ => next) where
  records {w after} hw h := by
    obtain ⟨⟨⟩, mid, hfirst, hthen⟩ := bind_eq_ok_iff.1 h
    obtain ⟨hmid, names, hnames⟩ := hrun.records hw hfirst
    obtain ⟨hafter, more, hmore⟩ := hnext.records hmid hthen
    exact ⟨hafter, names ++ more, World.records_trans hnames hmore⟩
  again {w w' after} hw hw' hlibrary h := by
    obtain ⟨⟨⟩, mid, hfirst, hthen⟩ := bind_eq_ok_iff.1 h
    obtain ⟨mid', hfirst', hmidLibrary⟩ := hrun.again hw hw' hlibrary hfirst
    have hmid := (hrun.records hw hfirst).1
    have hmid' := (hrun.records hw' hfirst').1
    obtain ⟨after', hthen', hafterLibrary⟩ := hnext.again hmid hmid' hmidLibrary hthen
    exact ⟨after', by rw [bind_of_ok hfirst', hthen'], hafterLibrary⟩

theorem registers_permitHome (g : Grant Condition) :
    Registers lib i g.rulesAt (home >>= fun j => discard (permit j g)) where
  records {w after} hw h := by
    rw [bind_of_ok (home_of_some hw.home), discard_eq_ok_iff] at h
    obtain ⟨rules, h⟩ := h
    obtain ⟨reg, hpermit, rfl⟩ := permit_eq_ok_iff.1 h
    obtain ⟨named, actions, -, -, -, hopen, rfl⟩ := Registry.permit_eq_ok_iff.1 hpermit
    have hreg : ((w.registry i).addAll named (actions.zip rules)).frozen = false := hopen
    refine ⟨hw.setRegistry hreg _, [], World.records_of_library (.single (.declare hpermit)) rfl ?_⟩
    intro resource action
    rw [World.registry_declared, if_pos ⟨rfl, hw.count⟩]
    exact Registry.contents_permit hpermit resource action
  again {w w' after} hw hw' hlibrary h := by
    rw [bind_of_ok (home_of_some hw.home), discard_eq_ok_iff] at h
    obtain ⟨rules, h⟩ := h
    obtain ⟨reg, hpermit, rfl⟩ := permit_eq_ok_iff.1 h
    obtain ⟨reg', rules', hpermit', -⟩ := Registry.permit_of_permit hpermit hw'.unfrozen w'.nextRule
    refine ⟨w'.declared i reg' (w'.nextRule + rules'.length), ?_, hlibrary⟩
    rw [bind_of_ok (home_of_some hw'.home), discard_eq_ok_iff]
    exact ⟨rules', permit_eq_ok_iff.2 ⟨reg', hpermit', rfl⟩⟩

end Run

/-! ## 3. Each loop of an import -/

section

variable {lib : Library} {i : Nat} {bring : String → Run Unit}
  (hbring : ∀ name, Run.Registers lib i (fun _ _ => []) (bring name))

include hbring

theorem Statement.registers_run (st : Statement) : Run.Registers lib i st.rulesAt (st.run bring) := by
  cases st with
  | permit g => exact Run.registers_permitHome g
  | bring name => exact hbring name
  | fail fault => exact ⟨nofun, nofun⟩

theorem Statement.registers_runAll (body : List Statement) :
    Run.Registers lib i (fun resource action => body.flatMap fun st => st.rulesAt resource action)
      (runAll bring body) := by
  induction body with
  | nil => exact Run.registers_pure
  | cons st rest ih => exact Run.registers_bind (st.registers_run hbring) ih

namespace Library

theorem registers_bringOne (name : String) : Run.Registers lib i (fun _ _ => []) (bringOne bring name) where
  records {w after} hw h := by
    obtain ⟨-, rfl⟩ | ⟨hname, m, hfind, hbody⟩ := of_bringOne h
    · exact ⟨hw, [], World.records_refl i after⟩
    · obtain ⟨hafter, names, hnames⟩ := (Statement.registers_runAll hbring m.body).records (hw.start name) hbody
      exact ⟨hafter, name :: names, World.records_of_start hname hfind hnames⟩
  again {w w' after} hw hw' hlibrary h := by
    obtain ⟨hname, rfl⟩ | ⟨hname, m, hfind, hbody⟩ := of_bringOne h
    · exact ⟨w', bringOne_of_imported (hlibrary ▸ hname), hlibrary⟩
    -- The same module is found, and its body starts from the same library.
    · have hsame : w'.library.start name = w.library.start name := by rw [hlibrary]
      obtain ⟨after', hbody', hafter⟩ :=
        (Statement.registers_runAll hbring m.body).again (hw.start name) (hw'.start name) hsame hbody
      exact ⟨after', bringOne_of_body (hlibrary ▸ hname) (hlibrary ▸ hfind) hbody', hafter⟩

theorem registers_bringEach (names : List String) :
    Run.Registers lib i (fun _ _ => []) (bringEach bring names) := by
  induction names with
  | nil => exact Run.registers_pure
  | cons name rest ih => exact Run.registers_bind (registers_bringOne hbring name) ih

end Library

end

namespace Library

variable {lib : Library} {i : Nat}

theorem registers_bringAt (depth : Nat) (name : String) :
    Run.Registers lib i (fun _ _ => []) (bringAt depth name) := by
  induction depth generalizing name with
  | zero => exact ⟨nofun, nofun⟩
  | succ depth ih =>
    have heach : ∀ names, Run.Registers lib i (fun _ _ => []) (bringEach (bringAt depth) names) :=
      registers_bringEach ih
    constructor
    · intro w after hw h
      obtain ⟨-, -, -, h⟩ := of_bringAt h
      exact (heach _).records hw h
    · intro w w' after hw hw' hlibrary h
      obtain ⟨hempty, hdot, hlimit, h⟩ := of_bringAt h
      obtain ⟨after', hafter', hsame⟩ := (heach _).again hw hw' hlibrary h
      refine ⟨after', ?_, hsame⟩
      rw [bringAt_succ, if_neg hempty, if_neg hdot, Run.bind_of_ok (Run.read_run _ w'), hlibrary,
        if_neg (by omega), hafter']

theorem imported_of_bringOne {depth : Nat} {name : String} {w after : World} (hw : w.IsOpen lib i)
    (h : bringOne (bringAt depth) name w = (.ok (), after)) : name ∈ after.library.imported := by
  obtain ⟨hname, rfl⟩ | ⟨-, m, -, hbody⟩ := of_bringOne h
  · exact hname
  · have hregisters : Run.Registers lib i _ (Statement.runAll (bringAt depth) m.body) :=
      Statement.registers_runAll (registers_bringAt depth) m.body
    obtain ⟨-, names, hnames⟩ := hregisters.records (hw.start name) hbody
    exact hnames.finishes.imported name List.mem_cons_self

theorem registers_importAll (order : List String) :
    Run.Registers lib i (fun _ _ => []) (importAll order) := by
  induction order with
  | nil => exact Run.registers_pure
  | cons name rest ih => exact Run.registers_bind (registers_bringAt depthLimit name) ih

end Library

/-! ## 4. Modules that never fail -/

namespace World.ImportsQuietly

variable {lib : Library} {i : Nat} {w w' : World}

/-- Whether modules fail has nothing to do with what the registry holds. -/
theorem of_library (h : w.ImportsQuietly) (hw : w.IsOpen lib i) (hw' : w'.IsOpen lib i)
    (hlibrary : w'.library = w.library) : w'.ImportsQuietly := by
  intro order horder
  rw [hlibrary] at horder
  obtain ⟨after, hafter⟩ := h order horder
  obtain ⟨after', hafter', -⟩ := (Library.registers_importAll order).again hw hw' hlibrary hafter
  exact ⟨after', hafter'⟩

/-- What is imported first does not make others fail. -/
theorem bring (h : w.ImportsQuietly) (hw : w.IsOpen lib i) {name : String} (hname : w.library.Has name) :
    ∃ after, Library.bring name w = (.ok (), after) ∧ after.ImportsQuietly := by
  have hfirst : ∀ order, (∀ n ∈ order, w.library.Has n) → ∀ n ∈ name :: order, w.library.Has n := by
    intro order horder n hn
    rcases List.mem_cons.1 hn with rfl | hn
    · exact hname
    · exact horder n hn
  obtain ⟨_, hone⟩ := h [name] (hfirst [] nofun)
  obtain ⟨⟨⟩, after, hbring, -⟩ := Run.bind_eq_ok_iff.1 hone
  obtain ⟨-, names, hnames⟩ := (Library.registers_bringAt Library.depthLimit name).records hw hbring
  refine ⟨after, hbring, fun order horder => ?_⟩
  have hthere : ∀ n ∈ order, w.library.Has n := fun n hn => (Library.has_congr hnames.modules n).1 (horder n hn)
  obtain ⟨last, hlast⟩ := h (name :: order) (hfirst order hthere)
  rw [Library.importAll, Run.bind_of_ok hbring] at hlast
  exact ⟨last, hlast⟩

end World.ImportsQuietly

end Gatehouse
