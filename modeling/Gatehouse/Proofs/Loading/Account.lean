import Mathlib.Data.List.Induction
import Gatehouse.Proofs.Loading.Later

/-!
# Account — what a loader remembers

A loader is done with a resource once a loading of it has ended well, which is so if the module of the resource has
been imported, or if the import has failed because this very module or its package is not there. Any other fault is
the caller's, and the loader remembers nothing of it: the next loading tries the import again. Of a resource that the
loader is done with, nothing is imported any more.
-/

namespace Gatehouse

/-- A run that only registries and the library matter to leaves the loaders as they are. -/
theorem Run.IsLocal.loaders {run : Run α} (h : run.IsLocal) (w : World) : (run w).2.loaders = w.loaders :=
  congrArg (fun out => out.2.loaders) (h w w)

namespace Loader

variable {i : Nat} {package resource : String} {w : World}

/-! ## 1. Loadings one after the other -/

/-- Loads one resource after the other; a fault ends the loading that it comes up in, and no other. -/
def loadAll (i : Nat) (resources : List String) (w : World) : World :=
  resources.foldl (fun w resource => (ensure i (.text resource) w).2) w

theorem loadAll_concat (resources : List String) (last : String) (w : World) :
    loadAll i (resources ++ [last]) w = (ensure i (.text last) (loadAll i resources w)).2 :=
  List.foldl_append

/-- One of these loadings was for this resource, and it ended well. -/
def HasReturned (i : Nat) (w : World) (resources : List String) (resource : String) : Prop :=
  ∃ earlier later, resources = earlier ++ resource :: later ∧
    (ensure i (.text resource) (loadAll i earlier w)).1 = .ok ()

theorem not_hasReturned_nil (i : Nat) (w : World) (resource : String) : ¬ HasReturned i w [] resource := by
  rintro ⟨earlier, later, hsplit, -⟩
  exact List.cons_ne_nil _ _ (List.append_eq_nil_iff.1 hsplit.symm).2

theorem hasReturned_concat_iff {resources : List String} {last : String} :
    HasReturned i w (resources ++ [last]) resource ↔ HasReturned i w resources resource ∨
      last = resource ∧ (ensure i (.text last) (loadAll i resources w)).1 = .ok () := by
  constructor
  · rintro ⟨earlier, later, hsplit, hok⟩
    -- It was the last loading, or one of those before.
    obtain rfl | ⟨front, x, rfl⟩ := List.eq_nil_or_concat' later
    · obtain ⟨rfl, hlast⟩ := List.append_inj' hsplit rfl
      cases hlast
      exact .inr ⟨rfl, hok⟩
    · rw [← List.cons_append, ← List.append_assoc] at hsplit
      exact .inl ⟨earlier, front, (List.append_inj' hsplit rfl).1, hok⟩
  · rintro (⟨earlier, later, rfl, hok⟩ | ⟨rfl, hok⟩)
    · exact ⟨earlier, later ++ [last], by rw [List.append_assoc, List.cons_append], hok⟩
    · exact ⟨resources, [], rfl, hok⟩

/-! ## 2. One loading -/

/-- The loader after it has done with one resource more. -/
def marked (resource : Value) : Loader → Loader
  | .package name seen => .package name (resource :: seen)
  | loader => loader

theorem isAmong_map_text {done : List String} : isAmong (.text resource) (done.map .text) = true ↔ resource ∈ done := by
  unfold isAmong
  rw [List.any_map, List.any_eq_true]
  constructor
  · rintro ⟨s, hs, hequal⟩
    rw [Function.comp_apply, Value.equals_text_text, beq_iff_eq] at hequal
    exact hequal ▸ hs
  · intro h
    exact ⟨resource, h, by rw [Function.comp_apply, Value.equals_text_text, beq_self_eq_true]⟩

theorem isAbsence_iff {moduleName : String} {f : Fault} : isAbsence package moduleName f = true ↔
    ∃ missing message, f = .noModule (some missing) message ∧ (missing = moduleName ∨ missing = package) := by
  constructor
  · intro h
    unfold isAbsence at h
    split at h
    · rename_i missing message
      rw [Bool.or_eq_true, beq_iff_eq, beq_iff_eq] at h
      exact ⟨missing, message, rfl, h⟩
    · cases h
  · rintro ⟨missing, message, rfl, hname⟩
    rw [isAbsence, Bool.or_eq_true, beq_iff_eq, beq_iff_eq]
    exact hname

/-- The ways in which the loading of a resource ends that the loader is not done with, by how the import of its
module ends. -/
inductive Tries (i : Nat) (package resource : String) (w : World) : Except Fault Unit × World → Prop where
  | quiet {result : Except Fault Unit} {after : World}
      (himport : Library.bring (package ++ "." ++ resource) w = (result, after))
      (hresult : result = .ok () ∨ ∃ f, result = .error f ∧ isAbsence package (package ++ "." ++ resource) f = true) :
      Tries i package resource w (.ok (), { after with loaders := w.loaders.modify i (marked (.text resource)) })
  | failed {f : Fault} {after : World} (himport : Library.bring (package ++ "." ++ resource) w = (.error f, after))
      (hf : isAbsence package (package ++ "." ++ resource) f = false) (hloaders : after.loaders = w.loaders) :
      Tries i package resource w (.error f, after)

variable {done : List String}

theorem ensure_of_mem (hloader : w.loaders[i]? = some (.package package (done.map .text))) (h : resource ∈ done) :
    ensure i (.text resource) w = (.ok (), w) := by
  rw [ensure_of_package hloader, if_pos (isAmong_map_text.2 h)]

theorem ensure_of_not_mem (hloader : w.loaders[i]? = some (.package package (done.map .text))) (h : resource ∉ done) :
    ensure i (.text resource) w = (bringResource package (.text resource) >>= fun _ => Run.change fun w =>
      { w with loaders := w.loaders.modify i (marked (.text resource)) }) w := by
  have hmarked : (fun loader : Loader => match loader with
      | .package name seen => .package name (.text resource :: seen)
      | loader => loader) = marked (.text resource) := by
    funext loader
    cases loader <;> rfl
  rw [← hmarked]
  exact (ensure_of_package hloader).trans (if_neg fun hamong => h (isAmong_map_text.1 hamong))

section

variable {result : Except Fault Unit} {after : World} {f : Fault}

theorem bringResource_of_quiet (himport : Library.bring (package ++ "." ++ resource) w = (result, after))
    (hresult : result = .ok () ∨ ∃ f, result = .error f ∧ isAbsence package (package ++ "." ++ resource) f = true) :
    bringResource package (.text resource) w = (.ok (), after) := by
  rw [bringResource_eq, Run.tryCatch_run, himport]
  obtain rfl | ⟨f, rfl, hf⟩ := hresult
  · rfl
  · change (if isAbsence _ _ f = true then pure () else throw f : Run Unit) after = _
    rw [if_pos hf]
    rfl

theorem bringResource_of_failed (himport : Library.bring (package ++ "." ++ resource) w = (.error f, after))
    (hf : isAbsence package (package ++ "." ++ resource) f = false) :
    bringResource package (.text resource) w = (.error f, after) := by
  rw [bringResource_eq, Run.tryCatch_run, himport]
  change (if isAbsence _ _ f = true then pure () else throw f : Run Unit) after = _
  rw [hf]
  rfl

end

theorem tries_ensure (hloader : w.loaders[i]? = some (.package package (done.map .text))) (h : resource ∉ done) :
    Tries i package resource w (ensure i (.text resource) w) := by
  have hloaders := (Library.isLocal_bringAt Library.depthLimit (package ++ "." ++ resource)).loaders w
  rw [ensure_of_not_mem hloader h]
  cases himport : Library.bring (package ++ "." ++ resource) w with
  | mk result after =>
    rw [show Library.bringAt Library.depthLimit (package ++ "." ++ resource) w = (result, after) from himport] at hloaders
    by_cases hresult : result = .ok () ∨
        ∃ f, result = .error f ∧ isAbsence package (package ++ "." ++ resource) f = true
    · rw [Run.bind_of_ok (bringResource_of_quiet himport hresult), Run.change_run, hloaders]
      exact .quiet himport hresult
    · cases result with
      | ok u => exact absurd (.inl rfl) hresult
      | error f =>
        have hf : isAbsence package (package ++ "." ++ resource) f = false := by
          rw [Bool.eq_false_iff]
          exact fun hf => hresult (.inr ⟨f, rfl, hf⟩)
        rw [Run.bind_of_error (bringResource_of_failed himport hf)]
        exact .failed himport hf hloaders

namespace Tries

variable {out : Except Fault Unit × World}

theorem imports (h : Tries i package resource w out) :
    ∃ loaders, out.2 = { (Library.bring (package ++ "." ++ resource) w).2 with loaders } := by
  cases h with
  | quiet himport hresult => exact ⟨_, by rw [himport]⟩
  | @failed f after himport hf hloaders => exact ⟨after.loaders, by rw [himport]⟩

theorem returns_iff (h : Tries i package resource w out) :
    out.1 = .ok () ↔ (Library.bring (package ++ "." ++ resource) w).1 = .ok () ∨
      ∃ missing message, (Library.bring (package ++ "." ++ resource) w).1 = .error (.noModule (some missing) message) ∧
        (missing = package ++ "." ++ resource ∨ missing = package) := by
  cases h with
  | quiet himport hresult =>
    rw [himport]
    refine ⟨fun _ => hresult.imp_right ?_, fun _ => rfl⟩
    rintro ⟨f, rfl, hf⟩
    obtain ⟨missing, message, rfl, hname⟩ := isAbsence_iff.1 hf
    exact ⟨missing, message, rfl, hname⟩
  | failed himport hf hloaders =>
    rw [himport]
    constructor
    · exact nofun
    · rintro (hok | ⟨missing, message, heq, hname⟩)
      · cases hok
      · rw [isAbsence_iff.2 ⟨missing, message, Except.error.inj heq, hname⟩] at hf
        cases hf

theorem fails (h : Tries i package resource w out) {f : Fault} (hf : out.1 = .error f) :
    (Library.bring (package ++ "." ++ resource) w).1 = .error f ∧ out.2.loaders = w.loaders := by
  cases h with
  | quiet himport hresult => cases hf
  | failed himport hother hloaders =>
    cases hf
    exact ⟨by rw [himport], hloaders⟩

end Tries

/-! ## 3. The account -/

/-- From its making on, a loader is done with the resources whose loading has ended well. -/
theorem seen_loadAll (hnew : w.loaders[i]? = some (.package package [])) (resources : List String) :
    ∃ done : List String, (loadAll i resources w).loaders[i]? = some (.package package (done.map .text)) ∧
      ∀ resource, resource ∈ done ↔ HasReturned i w resources resource := by
  induction resources using List.reverseRecOn with
  | nil =>
    refine ⟨[], hnew, fun resource => ⟨fun h => absurd h List.not_mem_nil, fun h => ?_⟩⟩
    exact absurd h (not_hasReturned_nil i w resource)
  | append_singleton resources last ih =>
    obtain ⟨done, hloader, hdone⟩ := ih
    rw [loadAll_concat]
    simp only [hasReturned_concat_iff, ← hdone]
    by_cases hlast : last ∈ done
    · rw [ensure_of_mem hloader hlast]
      refine ⟨done, hloader, fun resource => ⟨.inl, ?_⟩⟩
      rintro (h | ⟨rfl, -⟩)
      · exact h
      · exact hlast
    · have htries := tries_ensure hloader hlast
      cases hrun : ensure i (.text last) (loadAll i resources w) with
      | mk result after =>
        rw [hrun] at htries
        cases htries with
        | quiet himport hresult =>
          refine ⟨last :: done, ?_, fun resource => ?_⟩
          · rw [List.getElem?_modify, hloader]
            simp [marked]
          · rw [List.mem_cons, or_comm]
            simp [eq_comm]
        | failed himport hf hloaders =>
          refine ⟨done, hloaders ▸ hloader, fun resource => ⟨.inl, ?_⟩⟩
          rintro (h | ⟨-, hok⟩)
          · exact h
          · cases hok

/-- What a loader says of a resource after some loadings, and what it does when it is to load it next. -/
structure KeepsAccount (i : Nat) (package : String) (w : World) (resources : List String) (resource : String) :
    Prop where
  /-- It says that a resource is loaded exactly if a loading of it has ended well. -/
  isLoaded_iff : ∃ loader loaded, (loadAll i resources w).loaders[i]? = some loader ∧
    isLoaded loader (.text resource) = .ok loaded ∧ (loaded = true ↔ HasReturned i w resources resource)
  /-- What is loaded is not imported again, and nothing changes. -/
  again : HasReturned i w resources resource →
    ensure i (.text resource) (loadAll i resources w) = (.ok (), loadAll i resources w)
  /-- What is not loaded is imported. -/
  imports : ¬ HasReturned i w resources resource → ∃ loaders, (ensure i (.text resource) (loadAll i resources w)).2 =
    { (Library.bring (package ++ "." ++ resource) (loadAll i resources w)).2 with loaders }
  /-- That ends well exactly if the import does, or if it fails since the module itself or its package is missing. -/
  returns_iff : ¬ HasReturned i w resources resource →
    ((ensure i (.text resource) (loadAll i resources w)).1 = .ok () ↔
      (Library.bring (package ++ "." ++ resource) (loadAll i resources w)).1 = .ok () ∨
        ∃ missing message, (Library.bring (package ++ "." ++ resource) (loadAll i resources w)).1 =
          .error (.noModule (some missing) message) ∧ (missing = package ++ "." ++ resource ∨ missing = package))
  /-- A fault is that of the import; the loader is done with the same resources as before, and not with this one. -/
  fails : ∀ f, (ensure i (.text resource) (loadAll i resources w)).1 = .error f →
    (Library.bring (package ++ "." ++ resource) (loadAll i resources w)).1 = .error f ∧
      (ensure i (.text resource) (loadAll i resources w)).2.loaders = (loadAll i resources w).loaders ∧
      ¬ HasReturned i w (resources ++ [resource]) resource

/-- A new loader keeps account of whatever it has to load. -/
theorem keepsAccount_of_new (hnew : w.loaders[i]? = some (.package package [])) (resources : List String)
    (resource : String) : KeepsAccount i package w resources resource := by
  obtain ⟨done, hloader, hdone⟩ := seen_loadAll hnew resources
  have hkey : Value.isKey (.text resource) = true := by simp [Value.isKey]
  have hagain : HasReturned i w resources resource →
      ensure i (.text resource) (loadAll i resources w) = (.ok (), loadAll i resources w) := fun h =>
    ensure_of_mem hloader ((hdone resource).2 h)
  have htries : ¬ HasReturned i w resources resource →
      Tries i package resource (loadAll i resources w) (ensure i (.text resource) (loadAll i resources w)) := fun h =>
    tries_ensure hloader fun hmem => h ((hdone resource).1 hmem)
  refine ⟨⟨_, isAmong (.text resource) (done.map .text), hloader, ?_, ?_⟩, hagain, fun h => (htries h).imports,
    fun h => (htries h).returns_iff, fun f hf => ?_⟩
  · rw [isLoaded, hkey, if_pos rfl]
  · rw [isAmong_map_text, hdone]
  -- What is loaded gives no fault, and a fault does not make it loaded.
  · have hnot : ¬ HasReturned i w resources resource := fun h => by
      rw [hagain h] at hf
      cases hf
    have hstill : ¬ HasReturned i w (resources ++ [resource]) resource := by
      rw [hasReturned_concat_iff, hf]
      rintro (h | ⟨-, hok⟩)
      · exact hnot h
      · cases hok
    obtain ⟨himport, hloaders⟩ := (htries hnot).fails hf
    exact ⟨himport, hloaders, hstill⟩

/-- The module of widgets is in order, the one of gears needs a module that is not there, and there is none of
gizmos. -/
def shelvesWorld : World :=
  { World.initial with
    library := ⟨[⟨"rules", []⟩, ⟨"rules.gears", [.bring "nowhere"]⟩,
      ⟨"rules.widgets", [.permit ⟨.text "widgets", .text "show", .all, .absent, .null⟩]⟩], [], []⟩
    loaders := [.package "rules" []] }

theorem keepsAccount_of_new_shelvesWorld :
    let resources := ["widgets", "gears", "gizmos"]
    shelvesWorld.loaders[0]? = some (.package "rules" []) ∧
      KeepsAccount 0 "rules" shelvesWorld resources "gears" ∧
      HasReturned 0 shelvesWorld resources "widgets" ∧ HasReturned 0 shelvesWorld resources "gizmos" ∧
      (ensure 0 (.text "gears") (loadAll 0 resources shelvesWorld)).1 =
        .error (.noModule (some "nowhere") "No module named 'nowhere'") := by
  refine ⟨rfl, keepsAccount_of_new rfl _ _, ⟨[], ["gears", "gizmos"], rfl, ?_⟩,
    ⟨["widgets", "gears"], [], rfl, ?_⟩, ?_⟩
  · with_unfolding_all rfl
  · with_unfolding_all rfl
  · with_unfolding_all rfl

end Loader

end Gatehouse
