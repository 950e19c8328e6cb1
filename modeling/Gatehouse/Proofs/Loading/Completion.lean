import Gatehouse.Proofs.Loading.Growth
import Gatehouse.Proofs.Loading.Quiet
import Gatehouse.Proofs.Registry.Changes
import Gatehouse.Proofs.Registry.Refusal

/-!
# Completion — what becomes of the modules that are started

A fault in a module goes through everything that waits for the module. So whatever imports modules and ends
well has run every module that it started to its end, and whatever ends in a fault was broken off in one
module, with all that this module had started, or in none. The one fault that loading keeps to itself says
that there is no module. A candid library never raises it from inside a module, and then all this holds of
loading and deciding, too.
-/

namespace Gatehouse

open Relation (ReflTransGen)
open World (Turn)
open Run (MovesBy)

variable {lib : Library} {package : String} {w mid after : World}

/-! ## 1. What has been run to its end -/

/-- Between two states every module that was started has run to its end: started once, and there at last. -/
structure World.Finishes (w after : World) : Prop where
  turns : ReflTransGen Turn w after
  started : ∃ names, after.library.started = w.library.started ++ names ∧ names.Nodup ∧
    ∀ name ∈ names, name ∉ w.library.imported ∧ name ∈ after.library.imported
  imported : ∀ name ∈ w.library.imported, name ∈ after.library.imported

/-- The import of a module that is there begins in one state, and a fault breaks it off in another. -/
def World.BreaksOff (w : World) (f : Fault) (after : World) : Prop :=
  ∃ depth name m, name ∉ w.library.imported ∧ w.library.find name = .ok m ∧
    Library.bringOne (Library.bringAt depth) name w = (.error f, after)

/-- How a run ends: well or in a fault, all modules that it started having run to their end, or by a module
that is broken off. -/
inductive World.Ends (w : World) : Except Fault α × World → Prop where
  | well {a : α} {after : World} (h : w.Finishes after) : Ends w (.ok a, after)
  | fault {f : Fault} {after : World} (h : w.Finishes after) : Ends w (.error f, after)
  | broken {f : Fault} {mid after : World} (h : w.Finishes mid) (hbreaks : mid.BreaksOff f after) :
      Ends w (.error f, after)

namespace World

theorem finishes_of_library (hturns : ReflTransGen Turn w after) (h : after.library = w.library) :
    w.Finishes after where
  turns := hturns
  started := ⟨[], by rw [h, List.append_nil], List.nodup_nil, fun _ hn => absurd hn List.not_mem_nil⟩
  imported name hname := h ▸ hname

theorem finishes_refl (w : World) : w.Finishes w := finishes_of_library .refl rfl

theorem finishes_trans (h : w.Finishes mid) (h' : mid.Finishes after) : w.Finishes after := by
  obtain ⟨first, hfirst, hnodup, hnames⟩ := h.started
  obtain ⟨second, hsecond, hnodup', hnames'⟩ := h'.started
  refine ⟨h.turns.trans h'.turns,
    ⟨first ++ second, by rw [hsecond, hfirst, List.append_assoc], ?_, fun name hname => ?_⟩,
    fun name hname => h'.imported name (h.imported name hname)⟩
  -- What is there already is not started once more.
  · rw [List.nodup_append]
    refine ⟨hnodup, hnodup', fun a ha b hb hab => ?_⟩
    exact (hnames' b hb).1 (hab ▸ (hnames a ha).2)
  · rcases List.mem_append.1 hname with hname | hname
    · exact ⟨(hnames name hname).1, h'.imported name (hnames name hname).2⟩
    · exact ⟨fun hw => (hnames' name hname).1 (h.imported name hw), (hnames' name hname).2⟩

/-- A module that has been started is run to its end by what runs its body to the end. -/
theorem finishes_of_start {name : String} (hname : name ∉ w.library.imported)
    (h : World.Finishes { w with library := w.library.start name } after) : w.Finishes after := by
  obtain ⟨names, hnames, hnodup, hmem⟩ := h.started
  have hstart : w.Turn { w with library := w.library.start name } := .aside rfl rfl
  refine ⟨.head hstart h.turns, ⟨name :: names, ?_, ?_, fun n hn => ?_⟩,
    fun n hn => h.imported n (List.mem_cons_of_mem name hn)⟩
  · rw [hnames]
    change (w.library.started ++ [name]) ++ names = _
    rw [List.append_assoc, List.singleton_append]
  · exact List.nodup_cons.2 ⟨fun hn => (hmem name hn).1 List.mem_cons_self, hnodup⟩
  · rcases List.mem_cons.1 hn with rfl | hn
    · exact ⟨hname, h.imported n List.mem_cons_self⟩
    · exact ⟨fun hw => (hmem n hn).1 (List.mem_cons_of_mem name hw), (hmem n hn).2⟩

theorem Ends.of_finishes {out : Except Fault α × World} (h : w.Finishes mid) (h' : mid.Ends out) :
    w.Ends out := by
  cases h' with
  | well h' => exact .well (finishes_trans h h')
  | fault h' => exact .fault (finishes_trans h h')
  | broken h' hbreaks => exact .broken (finishes_trans h h') hbreaks

theorem Ends.finishes {a : α} (h : w.Ends (.ok a, after)) : w.Finishes after := by
  cases h with
  | well h => exact h

/-- A fault that is passed on ends the one run as it ended the other. -/
theorem Ends.passedOn {f : Fault} (h : w.Ends ((.error f, after) : Except Fault α × World)) :
    w.Ends ((.error f, after) : Except Fault β × World) := by
  cases h with
  | fault h => exact .fault h
  | broken h hbreaks => exact .broken h hbreaks

end World

/-! ## 2. Candid libraries -/

namespace Library

/-- What a module may have imported: what its statements import, and the packages that this is in. -/
def Needs (lib : Library) (name other : String) : Prop :=
  ∃ m, lib.find name = .ok m ∧ ∃ needed, Statement.bring needed ∈ m.body ∧ other ∈ chainOf needed

/-- The names that the import of a name may come to. -/
def Reaches (lib : Library) (name other : String) : Prop :=
  ∃ first ∈ chainOf name, ReflTransGen lib.Needs first other

/-- A fault that a module raises of itself, or for want of a module that it imports. -/
inductive Raises (lib : Library) (name : String) (f : Fault) : Prop where
  | fail {m : RuleModule} (hm : lib.find name = .ok m) (hfail : Statement.fail f ∈ m.body)
  | missing {other : String} (hneeds : lib.Needs name other) (hfind : lib.find other = .error f)

/-- No module that the import of a name may come to raises what loading would take for the absence of a
module of this name. -/
def IsCandidFor (lib : Library) (package target : String) : Prop :=
  ∀ name f, lib.Reaches target name → lib.Raises name f → Loader.isAbsence package target f = false

/-- The library is candid about the modules of all resources. -/
def IsCandid (lib : Library) (package : String) : Prop :=
  ∀ resource, lib.IsCandidFor package (package ++ "." ++ resource)

theorem reaches_of_mem_chainOf {name other : String} (h : other ∈ chainOf name) :
    lib.Reaches name other := ⟨other, h, .refl⟩

theorem Reaches.tail {name other needed : String} (h : lib.Reaches name other)
    (hneeds : lib.Needs other needed) : lib.Reaches name needed :=
  have ⟨first, hfirst, hpath⟩ := h
  ⟨first, hfirst, hpath.tail hneeds⟩

end Library

theorem Loader.isNoModule_of_isAbsence {moduleName : String} {f : Fault}
    (h : isAbsence package moduleName f = true) : f.isNoModule = true := by
  unfold isAbsence at h
  split at h
  · rfl
  · cases h

/-- A statement that imports nothing and does not raise that a module is missing. -/
def Statement.isFrank : Statement → Bool
  | .permit _ => true
  | .bring _ => false
  | .fail fault => !fault.isNoModule

theorem Library.isCandid_of_isFrank (h : ∀ m ∈ lib.modules, ∀ st ∈ m.body, st.isFrank = true)
    (package : String) : lib.IsCandid package := by
  intro resource name f _ hraises
  have hfrank : ∀ {name m}, lib.find name = .ok m → ∀ st ∈ m.body, st.isFrank = true :=
    fun hm => h _ (List.mem_of_find?_eq_some (find?_of_find hm))
  cases hraises with
  | fail hm hfail =>
    have hno := hfrank hm _ hfail
    rw [Bool.eq_false_iff]
    intro habsent
    rw [Statement.isFrank, Loader.isNoModule_of_isAbsence habsent] at hno
    cases hno
  | missing hneeds hfind =>
    obtain ⟨m, hm, needed, hbring, -⟩ := hneeds
    cases hfrank hm _ hbring

/-- The modules are those of a library, and every loader imports from one package. -/
structure World.IsServed (w : World) (lib : Library) (package : String) : Prop where
  modules : w.library.modules = lib.modules
  loaders : ∀ loader ∈ w.loaders, ∃ seen, loader = .package package seen

namespace World.IsServed

theorem of_same (h : w.IsServed lib package) (hmodules : after.library.modules = w.library.modules)
    (hloaders : after.loaders = w.loaders) : after.IsServed lib package :=
  ⟨hmodules.trans h.modules, hloaders ▸ h.loaders⟩

theorem markSeen (h : w.IsServed lib package) (i : Nat) (resource : Value) :
    World.IsServed { w with loaders := w.loaders.modify i fun
      | .package name seen => .package name (resource :: seen)
      | loader => loader } lib package where
  modules := h.modules
  loaders loader hloader := by
    obtain ⟨j, hj⟩ := List.mem_iff_getElem?.1 hloader
    change (w.loaders.modify i _)[j]? = _ at hj
    rw [List.getElem?_modify] at hj
    cases hold : w.loaders[j]? with
    | none =>
      rw [hold] at hj
      cases hj
    | some old =>
      obtain ⟨seen, rfl⟩ := h.loaders old (List.mem_of_getElem? hold)
      rw [hold, Option.map_eq_map, Option.map_some, Option.some.injEq] at hj
      subst hj
      split
      · exact ⟨_, rfl⟩
      · exact ⟨_, rfl⟩

end World.IsServed

/-! ## 3. Imports -/

/-- A run that leaves modules and loaders what they are, and of which it can be said how it ends. -/
def Run.Completes (lib : Library) (package : String) (α : Type) (run : Run α) : Prop :=
  ∀ w, w.IsServed lib package → (run w).2.IsServed lib package ∧ w.Ends (run w)

namespace Run.Completes

variable {run : Run α}

/-- A run that has nothing to do with modules and loaders. -/
theorem of_same (hmoves : MovesBy Turn α run)
    (hsame : ∀ w, (run w).2.loaders = w.loaders ∧ (run w).2.library = w.library) :
    Completes lib package α run := by
  intro w hw
  obtain ⟨hloaders, hlibrary⟩ := hsame w
  refine ⟨hw.of_same (by rw [hlibrary]) hloaders, ?_⟩
  have hfinishes := World.finishes_of_library (hmoves w) hlibrary
  cases hrun : run w with
  | mk result after =>
    rw [hrun] at hfinishes
    cases result with
    | error f => exact .fault hfinishes
    | ok a => exact .well hfinishes

theorem sequential : Run.Sequential (Completes lib package) where
  pure a := of_same (MovesBy.deciding.pure a) fun _ => ⟨rfl, rfl⟩
  throw f := of_same (MovesBy.deciding.throw f) fun _ => ⟨rfl, rfl⟩
  bind {α β run next} hrun hnext := by
    intro w hw
    obtain ⟨hserved, hends⟩ := hrun w hw
    rw [bind_run]
    cases hr : run w with
    | mk result mid =>
      rw [hr] at hserved hends
      cases result with
      | error f => exact ⟨hserved, hends.passedOn⟩
      | ok a =>
        obtain ⟨hserved', hends'⟩ := hnext a mid hserved
        exact ⟨hserved', .of_finishes hends.finishes hends'⟩

theorem declaring : Run.Declaring (Completes lib package) where
  toSequential := sequential
  home := of_same MovesBy.deciding.home fun w => by
    unfold home
    cases w.home <;> exact ⟨rfl, rfl⟩
  permit i grant := of_same (MovesBy.deciding.permit i grant) fun w => by
    cases hp : (w.registry i).permit w.nextRule grant with
    | error f =>
      rw [permit_of_error hp]
      exact ⟨rfl, rfl⟩
    | ok out =>
      rw [permit_of_ok hp]
      exact ⟨rfl, rfl⟩

end Run.Completes

namespace Library

/-- An import of a single module that fails has not found the module, or the module has failed. -/
theorem of_bringOne_error {bring : String → Run Unit} {name : String} {f : Fault}
    (h : bringOne bring name w = (.error f, after)) :
    w.library.find name = .error f ∧ after = w ∨
      ∃ m last, name ∉ w.library.imported ∧ w.library.find name = .ok m ∧
        Statement.runAll bring m.body { w with library := w.library.start name } = (.error f, last) ∧
        after = { last with library := last.library.forget name } := by
  unfold bringOne at h
  rw [Run.bind_of_ok (Run.read_run _ w)] at h
  split at h
  · cases h
  · rename_i hname
    cases hfind : w.library.find name with
    | error f' =>
      rw [hfind, Run.bind_of_error (Run.ofExcept_run _ w)] at h
      cases h
      exact .inl ⟨rfl, rfl⟩
    | ok m =>
      rw [hfind, Run.bind_of_ok (Run.ofExcept_run _ w), Run.bind_of_ok (Run.change_run _ w),
        Run.tryCatch_run] at h
      cases hrun : Statement.runAll bring m.body { w with library := w.library.start name } with
      | mk result last =>
        rw [hrun] at h
        cases result with
        | ok u => cases h
        | error f' =>
          cases h
          exact .inr ⟨m, last, by simpa using hname, rfl, hrun, rfl⟩

/-- Whatever the modules inside it do, an import runs its module to the end or is broken off in it. -/
theorem completes_bringOne (depth : Nat)
    (hbring : ∀ name, Run.Completes lib package Unit (bringAt depth name)) (name : String) :
    Run.Completes lib package Unit (bringOne (bringAt depth) name) := by
  intro w hw
  have hstart : World.IsServed { w with library := w.library.start name } lib package :=
    hw.of_same rfl rfl
  have hbody : ∀ body, Run.Completes lib package Unit (Statement.runAll (bringAt depth) body) :=
    Statement.runAll_of Run.Completes.declaring hbring
  cases hone : bringOne (bringAt depth) name w with
  | mk result after =>
    cases result with
    | error f =>
      obtain ⟨-, rfl⟩ | ⟨m, last, hname, hfind, hrun, rfl⟩ := of_bringOne_error hone
      · exact ⟨hw, .fault (World.finishes_refl _)⟩
      -- Whatever else was broken off on the way was broken off inside this module.
      · have hlast := (hbody m.body _ hstart).1
        rw [hrun] at hlast
        exact ⟨hlast.of_same rfl rfl,
          .broken (World.finishes_refl w) ⟨depth, name, m, hname, hfind, hone⟩⟩
    | ok u =>
      obtain ⟨-, rfl⟩ | ⟨hname, m, -, hrun⟩ := of_bringOne hone
      · exact ⟨hw, .well (World.finishes_refl _)⟩
      · obtain ⟨hserved, hends⟩ := hbody m.body _ hstart
        rw [hrun] at hserved hends
        exact ⟨hserved, .well (World.finishes_of_start hname hends.finishes)⟩

end Library

theorem Run.Completes.importing : Run.Importing (Run.Completes lib package) where
  toDeclaring := declaring
  pending _ := of_same (.of_same fun _ => rfl) fun _ => ⟨rfl, rfl⟩
  bringOne := Library.completes_bringOne

theorem Library.completes_bringAt (depth : Nat) (name : String) :
    Run.Completes lib package Unit (bringAt depth name) :=
  bringAt_of Run.Completes.importing depth name

/-! ## 4. Faults that pass for absence -/

theorem Run.isNoModule_of_permitHome {grant : Grant Condition} {f : Fault}
    (h : (Run.home >>= fun i => discard (Run.permit i grant) : Run Unit) w = (.error f, after)) :
    f.isNoModule = false := by
  rw [bind_run] at h
  unfold home at h
  cases hhome : w.home with
  | none =>
    rw [hhome] at h
    cases h
    rfl
  | some i =>
    rw [hhome] at h
    dsimp only at h
    rw [discard_run] at h
    cases hp : (w.registry i).permit w.nextRule grant with
    | error f' =>
      rw [permit_of_error hp] at h
      cases h
      exact Registry.isNoModule_of_permit hp
    | ok out =>
      rw [permit_of_ok hp] at h
      cases h

section

variable {f : Fault} {target : String} (hlib : lib.IsCandidFor package target)

include hlib

section

variable {depth : Nat} (hbring : ∀ {name w after f}, w.IsServed lib package →
    (∀ n ∈ Library.chainOf name, lib.Reaches target n) →
    Library.bringAt depth name w = (.error f, after) →
    Loader.isAbsence package target f = true → ∃ n ∈ Library.chainOf name, lib.find n = .error f)

include hbring

/-- No statement of a module that is reached ends in a fault that passes for absence. -/
theorem Statement.isAbsence_of_runAll {name : String} {m : RuleModule} {body : List Statement}
    (hw : w.IsServed lib package) (hname : lib.Reaches target name) (hm : lib.find name = .ok m)
    (hbody : ∀ st ∈ body, st ∈ m.body)
    (h : runAll (Library.bringAt depth) body w = (.error f, after)) :
    Loader.isAbsence package target f = false := by
  induction body generalizing w with
  | nil => cases h
  | cons st rest ih =>
    have hst := hbody st List.mem_cons_self
    have hserved := (st.run_of Run.Completes.declaring (Library.completes_bringAt depth) w hw).1
    rw [runAll, Run.bind_run] at h
    cases hrun : st.run (Library.bringAt depth) w with
    | mk result mid =>
      rw [hrun] at h hserved
      cases result with
      | ok u => exact ih hserved (fun s hs => hbody s (List.mem_cons_of_mem st hs)) h
      | error f' =>
        cases h
        rw [Bool.eq_false_iff]
        intro hf
        cases st with
        | permit grant =>
          have hno := Run.isNoModule_of_permitHome hrun
          rw [Loader.isNoModule_of_isAbsence hf] at hno
          cases hno
        | bring needed =>
          -- What is missing then is missing to this module, so the fault is one that it raises.
          have hneeds : ∀ n ∈ Library.chainOf needed, lib.Needs name n :=
            fun n hn => ⟨m, hm, needed, hst, hn⟩
          obtain ⟨n, hn, hfind⟩ := hbring hw (fun n hn => hname.tail (hneeds n hn)) hrun hf
          rw [hlib name f hname (.missing (hneeds n hn) hfind)] at hf
          cases hf
        | fail fault =>
          cases hrun
          rw [hlib name _ hname (.fail hm hst)] at hf
          cases hf

/-- The fault of an import of a single module passes for absence only if the module itself is not there. -/
theorem Library.of_bringOne_isAbsence {name : String} (hw : w.IsServed lib package)
    (hname : lib.Reaches target name) (h : bringOne (bringAt depth) name w = (.error f, after))
    (hf : Loader.isAbsence package target f = true) : lib.find name = .error f ∧ after = w := by
  obtain ⟨hfind, hafter⟩ | ⟨m, last, -, hfind, hrun, -⟩ := of_bringOne_error h
  · exact ⟨find_congr hw.modules name ▸ hfind, hafter⟩
  · rw [find_congr hw.modules] at hfind
    have hstart : World.IsServed { w with library := w.library.start name } lib package :=
      hw.of_same rfl rfl
    rw [Statement.isAbsence_of_runAll hlib hbring hstart hname hfind (fun _ hst => hst) hrun] at hf
    cases hf

/-- Imports that end in a fault which passes for absence have run to its end whatever they started. -/
theorem Library.of_bringEach_isAbsence {names : List String} (hw : w.IsServed lib package)
    (hnames : ∀ name ∈ names, lib.Reaches target name)
    (h : bringEach (bringAt depth) names w = (.error f, after))
    (hf : Loader.isAbsence package target f = true) :
    (∃ name ∈ names, lib.find name = .error f) ∧ w.Finishes after := by
  induction names generalizing w with
  | nil => cases h
  | cons name rest ih =>
    rw [bringEach, Run.bind_run] at h
    cases hone : bringOne (bringAt depth) name w with
    | mk result mid =>
      rw [hone] at h
      cases result with
      | error f' =>
        cases h
        obtain ⟨hfind, rfl⟩ := of_bringOne_isAbsence hlib hbring hw
          (hnames name List.mem_cons_self) hone hf
        exact ⟨⟨name, List.mem_cons_self, hfind⟩, World.finishes_refl _⟩
      | ok u =>
        obtain ⟨hserved, hends⟩ := completes_bringOne depth (completes_bringAt depth) name w hw
        rw [hone] at hserved hends
        obtain ⟨⟨missing, hmissing, hfind⟩, hthen⟩ :=
          ih hserved (fun n hn => hnames n (List.mem_cons_of_mem name hn)) h
        exact ⟨⟨missing, List.mem_cons_of_mem name hmissing, hfind⟩,
          World.finishes_trans hends.finishes hthen⟩

end

/-- The faults of an import that pass for absence come of names that are not there, and then nothing has been
broken off. -/
theorem Library.of_bringAt_isAbsence {depth : Nat} {name : String} (hw : w.IsServed lib package)
    (hname : ∀ n ∈ chainOf name, lib.Reaches target n) (h : bringAt depth name w = (.error f, after))
    (hf : Loader.isAbsence package target f = true) :
    (∃ n ∈ chainOf name, lib.find n = .error f) ∧ w.Finishes after := by
  -- Induction on how deep imports may go: what modules import is one level below.
  induction depth generalizing name w after f with
  | zero =>
    cases h
    cases hf
  | succ depth ih =>
    rw [bringAt_succ] at h
    split at h
    · cases h
      cases hf
    · split at h
      · cases h
        cases hf
      · rw [Run.bind_of_ok (Run.read_run _ w)] at h
        split at h
        · cases h
          cases hf
        · obtain ⟨⟨n, hn, hfind⟩, hfinishes⟩ := of_bringEach_isAbsence hlib
            (fun hw' hname' h' hf' => (ih hw' hname' h' hf').1) hw
            (fun n hn => hname n (mem_chainOf_of_mem_pending hn)) h hf
          exact ⟨⟨n, mem_chainOf_of_mem_pending hn, hfind⟩, hfinishes⟩

end

/-! ## 5. Loading and deciding -/

namespace Loader

variable (hlib : lib.IsCandid package)

include hlib

theorem completes_bringResource (resource : Value) :
    Run.Completes lib package Unit (bringResource package resource) := by
  intro w hw
  unfold bringResource
  cases hname : moduleName package resource with
  | error f =>
    rw [Run.bind_of_error (Run.ofExcept_run _ w)]
    exact ⟨hw, .fault (World.finishes_refl w)⟩
  | ok name =>
    rw [Run.bind_of_ok (Run.ofExcept_run _ w), Run.tryCatch_run]
    obtain ⟨hserved, hends⟩ := Library.completes_bringAt Library.depthLimit name w hw
    cases hrun : Library.bring name w with
    | mk result mid =>
      unfold Library.bring at hrun
      rw [hrun] at hserved hends
      cases result with
      | ok u => exact ⟨hserved, hends⟩
      | error f =>
        dsimp only
        split
        -- The fault is kept quiet, so nothing may have been broken off.
        · rename_i hf
          obtain ⟨written, -, hwritten⟩ := bind_eq_ok_iff.1 hname
          cases hwritten
          exact ⟨hserved, .well (Library.of_bringAt_isAbsence (hlib written) hw
            (fun _ => Library.reaches_of_mem_chainOf) hrun hf).2⟩
        · exact ⟨hserved, hends⟩

theorem completes_ensure (i : Nat) (resource : Value) :
    Run.Completes lib package Unit (ensure i resource) := by
  intro w hw
  unfold ensure
  rw [Run.bind_of_ok (Run.read_run _ w)]
  cases hi : w.loaders[i]? with
  | none => exact ⟨hw, .well (World.finishes_refl w)⟩
  | some loader =>
    obtain ⟨seen, rfl⟩ := hw.loaders loader (List.mem_of_getElem? hi)
    dsimp only
    cases resource.isKey with
    | false => exact Run.Completes.sequential.throw _ w hw
    | true =>
      cases isAmong resource seen with
      | true => exact Run.Completes.sequential.pure () w hw
      | false =>
        refine Run.Completes.sequential.bind (completes_bringResource hlib resource) (fun _ => ?_) w hw
        exact fun w hw => ⟨hw.markSeen i resource,
          .well (World.finishes_of_library (.single (.aside rfl rfl)) rfl)⟩

end Loader

theorem Run.Completes.deciding (hlib : lib.IsCandid package) : Run.Deciding (Completes lib package) where
  toDeclaring := declaring
  freeze i := of_same (MovesBy.deciding.freeze i) fun _ => ⟨rfl, rfl⟩
  trace level message := of_same (MovesBy.deciding.trace level message) fun _ => ⟨rfl, rfl⟩
  question q := of_same (MovesBy.deciding.question q) fun _ => ⟨rfl, rfl⟩
  bucket _ _ _ := of_same (.of_same fun _ => rfl) fun _ => ⟨rfl, rfl⟩
  load := Loader.completes_ensure hlib

end Gatehouse
