import Gatehouse.Proofs.Loading.Later

/-!
# Quiet — imports that never fail

A module starts only if it is not running and has not run, so imports inside each other cannot outnumber
the modules, whether or not these import each other in circles. Modules without a statement that fails on
its own account are therefore imported without a fault, from whatever was imported before, as long as
there are no more of them than imports may be inside each other.
-/

namespace Gatehouse

/-! ## 1. Sound libraries -/

namespace Library

/-- A statement that can only fail because of something else. -/
def IsSoundStatement (lib : Library) : Statement → Prop
  | .permit g => ∃ out, Registry.empty.permit 0 g = .ok out
  | .bring name => lib.Has name
  | .fail _ => False

/-- Modules with sound statements and sound names, which stand with all their packages in a library of
limited size. -/
structure IsSound (lib : Library) : Prop where
  named : ∀ m ∈ lib.modules, m.name ≠ "" ∧ m.name.toList.head? ≠ some '.' ∧
    (chainOf m.name).length ≤ packageLimit
  above : ∀ m ∈ lib.modules, ∀ name ∈ chainOf m.name, lib.Has name
  found : ∀ m ∈ lib.modules, ∃ m' ∈ lib.modules, lib.find m.name = .ok m'
  statements : ∀ m ∈ lib.modules, ∀ st ∈ m.body, lib.IsSoundStatement st
  few : lib.modules.length < depthLimit

theorem find_congr {lib lib' : Library} (h : lib'.modules = lib.modules) (name : String) :
    lib'.find name = lib.find name := by
  unfold find isPackage
  rw [h]

end Library

/-- The modules are those of a library, and they can declare. -/
structure World.IsOpen (w : World) (lib : Library) (i : Nat) : Prop where
  modules : w.library.modules = lib.modules
  home : w.home = some i
  count : i < w.registries.length
  unfrozen : (w.registry i).frozen = false

theorem World.IsOpen.setRegistry {w : World} {lib : Library} {i : Nat} {reg : Registry} (hw : w.IsOpen lib i)
    (hopen : reg.frozen = false) (nextRule : Nat) :
    World.IsOpen { w.setRegistry i reg with nextRule } lib i where
  modules := hw.modules
  home := hw.home
  count := by simpa [World.setRegistry] using hw.count
  unfrozen := by
    show ((w.setRegistry i reg).registry i).frozen = false
    rw [World.registry_setRegistry_self reg hw.count]
    exact hopen

theorem World.IsOpen.start {w : World} {lib : Library} {i : Nat} (hw : w.IsOpen lib i) (name : String) :
    World.IsOpen { w with library := w.library.start name } lib i :=
  ⟨hw.modules, hw.home, hw.count, hw.unfrozen⟩

/-- The modules that have not been started. -/
def World.unstarted (w : World) (lib : Library) : List RuleModule :=
  lib.modules.filter fun m => m.name ∉ w.library.imported

namespace World

variable {w after : World} {lib : Library}

theorem unstarted_le (lib : Library) (h : w.library.imported ⊆ after.library.imported) :
    (after.unstarted lib).length ≤ (w.unstarted lib).length := by
  -- What is left after more imports is a part of what was left before.
  have hagain : after.unstarted lib =
      (w.unstarted lib).filter fun m => m.name ∉ after.library.imported := by
    unfold unstarted
    rw [List.filter_filter]
    refine List.filter_congr fun m _ => ?_
    by_cases hm : m.name ∈ w.library.imported
    · simp [hm, h hm]
    · simp [hm]
  rw [hagain]
  exact List.length_filter_le _ _

theorem unstarted_start_lt {name : String} (hname : lib.Has name)
    (h : name ∉ w.library.imported) :
    ({ w with library := w.library.start name }.unstarted lib).length <
      (w.unstarted lib).length := by
  have hagain : { w with library := w.library.start name }.unstarted lib =
      (w.unstarted lib).filter fun m => m.name ≠ name := by
    unfold unstarted
    rw [List.filter_filter]
    refine List.filter_congr fun m _ => ?_
    change decide (m.name ∉ name :: w.library.imported) = _
    simp
  obtain ⟨m, hm, rfl⟩ := hname
  rw [hagain, List.length_filter_lt_length_iff_exists]
  exact ⟨m, List.mem_filter.2 ⟨hm, by simpa using h⟩, by simp⟩

end World

/-! ## 2. Each loop of an import ends well -/

/-- A run that ends well, in a state that is as good to go on from. -/
def Run.IsQuiet (run : Run Unit) (lib : Library) (i : Nat) (w : World) : Prop :=
  ∃ after, run w = (.ok (), after) ∧ after.IsOpen lib i ∧
    w.library.imported ⊆ after.library.imported

namespace Run

variable {run next : Run Unit} {lib : Library} {i : Nat} {w : World}

theorem isQuiet_pure (hw : w.IsOpen lib i) : IsQuiet (pure ()) lib i w :=
  ⟨w, rfl, hw, List.Subset.refl _⟩

theorem isQuiet_bind (h : run.IsQuiet lib i w)
    (hnext : ∀ after : World, after.IsOpen lib i →
      w.library.imported ⊆ after.library.imported → next.IsQuiet lib i after) :
    IsQuiet (run >>= fun _ => next) lib i w := by
  obtain ⟨mid, hrun, hmid, hsub⟩ := h
  obtain ⟨after, hthen, hafter, hsub'⟩ := hnext mid hmid hsub
  exact ⟨after, by rw [bind_of_ok hrun, hthen], hafter, List.Subset.trans hsub hsub'⟩

theorem isQuiet_permit {g : Grant Condition} {out : Registry × List Rule} (hw : w.IsOpen lib i)
    (hg : Registry.empty.permit 0 g = .ok out) : IsQuiet (discard (permit i g)) lib i w := by
  obtain ⟨reg, rules, hp, hopen⟩ := Registry.permit_of_permit hg hw.unfrozen w.nextRule
  exact ⟨{ w.setRegistry i reg with nextRule := w.nextRule + rules.length },
    by rw [discard_run, permit_of_ok hp]; rfl, hw.setRegistry hopen _, List.Subset.refl _⟩

end Run

section

variable {lib : Library} {i depth : Nat} {w : World} {bring : String → Run Unit}
  (hbring : ∀ name, lib.Has name → ∀ w : World, w.IsOpen lib i →
    (w.unstarted lib).length < depth → (bring name).IsQuiet lib i w)

include hbring

theorem Statement.isQuiet_run {st : Statement} (hst : lib.IsSoundStatement st)
    (hw : w.IsOpen lib i) (hfew : (w.unstarted lib).length < depth) :
    (st.run bring).IsQuiet lib i w := by
  cases st with
  | permit g =>
    obtain ⟨out, hg⟩ := hst
    obtain ⟨after, hrun, hafter⟩ := Run.isQuiet_permit hw hg
    refine ⟨after, ?_, hafter⟩
    change (Run.home >>= fun j => discard (Run.permit j g)) w = _
    rw [Run.bind_of_ok (Run.home_of_some hw.home)]
    exact hrun
  | bring name => exact hbring name hst w hw hfew
  | fail fault => exact absurd hst id

theorem Statement.isQuiet_runAll {body : List Statement}
    (hbody : ∀ st ∈ body, lib.IsSoundStatement st) (hw : w.IsOpen lib i)
    (hfew : (w.unstarted lib).length < depth) : (runAll bring body).IsQuiet lib i w := by
  induction body generalizing w with
  | nil => exact Run.isQuiet_pure hw
  | cons st rest ih =>
    refine Run.isQuiet_bind (isQuiet_run hbring (hbody st List.mem_cons_self) hw hfew) ?_
    intro mid hmid hsub
    refine ih (fun st' hst' => hbody st' (List.mem_cons_of_mem st hst')) hmid ?_
    have hle := World.unstarted_le lib hsub
    omega

namespace Library

/-- One that is not there is started, and then there is one less to be started. -/
theorem isQuiet_bringOne (hlib : lib.IsSound) {name : String} (hname : lib.Has name)
    (hw : w.IsOpen lib i) (hfew : (w.unstarted lib).length < depth + 1) :
    (bringOne bring name).IsQuiet lib i w := by
  by_cases himported : name ∈ w.library.imported
  · exact ⟨w, bringOne_of_imported himported, hw, List.Subset.refl _⟩
  -- Once it is started there is one less, which pays for the level that its own imports go down.
  · have hless := World.unstarted_start_lt hname himported
    obtain ⟨m, hm, rfl⟩ := hname
    obtain ⟨m', hm', hfind⟩ := hlib.found m hm
    obtain ⟨after, hrun, hafter, hsub⟩ := Statement.isQuiet_runAll hbring
      (hlib.statements m' hm') (hw.start m.name) (by omega)
    have hfind' : w.library.find m.name = .ok m' := (find_congr hw.modules m.name).trans hfind
    exact ⟨after, bringOne_of_body himported hfind' hrun, hafter,
      fun n hn => hsub (List.mem_cons_of_mem m.name hn)⟩

theorem isQuiet_bringEach (hlib : lib.IsSound) {names : List String}
    (hnames : ∀ name ∈ names, lib.Has name) (hw : w.IsOpen lib i)
    (hfew : (w.unstarted lib).length < depth + 1) : (bringEach bring names).IsQuiet lib i w := by
  induction names generalizing w with
  | nil => exact Run.isQuiet_pure hw
  | cons name rest ih =>
    refine Run.isQuiet_bind (isQuiet_bringOne hbring hlib (hnames name List.mem_cons_self) hw hfew) ?_
    intro mid hmid hsub
    refine ih (fun n hn => hnames n (List.mem_cons_of_mem name hn)) hmid ?_
    have hle := World.unstarted_le lib hsub
    omega

end Library

end

namespace Library

variable {lib : Library} {i : Nat} {w : World}

theorem isQuiet_bringAt (hlib : lib.IsSound) (depth : Nat) {name : String} (hname : lib.Has name)
    (hw : w.IsOpen lib i) (hfew : (w.unstarted lib).length < depth) :
    (bringAt depth name).IsQuiet lib i w := by
  -- Induction on the levels left: there are more of them than modules not yet started.
  induction depth generalizing name w with
  | zero => omega
  | succ depth ih =>
    obtain ⟨m, hm, rfl⟩ := hname
    obtain ⟨hempty, hdot, hshallow⟩ := hlib.named m hm
    have hpending : ∀ name ∈ w.library.pending m.name, lib.Has name := fun name hname =>
      hlib.above m hm name (mem_chainOf_of_mem_pending hname)
    have hlength := length_pending_le w.library m.name
    obtain ⟨after, hrun, hafter⟩ := isQuiet_bringEach
      (fun name hname w hw hfew => ih hname hw hfew) hlib hpending hw hfew
    refine ⟨after, ?_, hafter⟩
    rw [bringAt_succ, if_neg hempty, if_neg hdot, Run.bind_of_ok (Run.read_run _ w),
      if_neg (by omega), hrun]

theorem isQuiet_importAll (hlib : lib.IsSound) {order : List String}
    (horder : ∀ name ∈ order, lib.Has name) (hw : w.IsOpen lib i) :
    (importAll order).IsQuiet lib i w := by
  induction order generalizing w with
  | nil => exact Run.isQuiet_pure hw
  | cons name rest ih =>
    have hfew : (w.unstarted lib).length < depthLimit :=
      Nat.lt_of_le_of_lt (List.length_filter_le _ _) hlib.few
    refine Run.isQuiet_bind (isQuiet_bringAt hlib depthLimit (horder name List.mem_cons_self) hw hfew) ?_
    exact fun mid hmid _ => ih (fun n hn => horder n (List.mem_cons_of_mem name hn)) hmid

end Library

/-- The modules of a sound library are imported without a fault in whichever order, also if they import
each other in circles. -/
theorem World.importsQuietly_of_isSound {w : World} {i : Nat} (hlib : w.library.IsSound)
    (hhome : w.home = some i) (hcount : i < w.registries.length)
    (hunfrozen : (w.registry i).frozen = false) : w.ImportsQuietly := by
  intro order horder
  obtain ⟨after, hrun, -, -⟩ := Library.isQuiet_importAll hlib horder ⟨rfl, hhome, hcount, hunfrozen⟩
  exact ⟨after, hrun⟩

end Gatehouse
