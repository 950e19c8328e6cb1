import Mathlib.Data.List.Forall2
import Gatehouse.World

/-!
# Runs — taking results and runs apart

A result made in steps is there exactly if every step gives one, and a run made in steps goes on where
the step before it stopped. Everything here is about sequencing; nothing is about rules.
-/

namespace Gatehouse

theorem bind_eq_ok_iff {x : Except ε α} {next : α → Except ε β} {b : β} :
    (x >>= next) = .ok b ↔ ∃ a, x = .ok a ∧ next a = .ok b := by
  cases x with
  | error f => simp [bind, Except.bind]
  | ok a => simp [bind, Except.bind]

theorem bind_of_eq_ok {x : Except ε α} {a : α} (h : x = .ok a) (next : α → Except ε β) :
    (x >>= next) = next a := by
  rw [h]
  rfl

/-- A list is gone through to its end exactly if every element gives a result. -/
theorem mapM_eq_ok_iff {f : α → Except ε β} {xs : List α} {ys : List β} :
    xs.mapM f = .ok ys ↔ List.Forall₂ (fun x y => f x = .ok y) xs ys := by
  induction xs generalizing ys with
  | nil =>
    constructor
    · intro h
      cases h
      exact .nil
    · intro h
      cases h
      rfl
  | cons x rest ih =>
    rw [List.mapM_cons]
    constructor
    · intro h
      obtain ⟨y, hy, h⟩ := bind_eq_ok_iff.1 h
      obtain ⟨others, hothers, h⟩ := bind_eq_ok_iff.1 h
      cases h
      exact .cons hy (ih.1 hothers)
    · intro h
      cases h with
      | cons hy hothers =>
        rw [bind_of_eq_ok hy, bind_of_eq_ok (ih.2 hothers)]
        rfl

theorem exists_mapM_of_forall {f : α → Except ε β} {xs : List α} (h : ∀ x ∈ xs, ∃ y, f x = .ok y) :
    ∃ ys, xs.mapM f = .ok ys := by
  induction xs with
  | nil => exact ⟨[], rfl⟩
  | cons x rest ih =>
    obtain ⟨y, hy⟩ := h x List.mem_cons_self
    obtain ⟨ys, hys⟩ := ih fun z hz => h z (List.mem_cons_of_mem x hz)
    refine ⟨y :: ys, ?_⟩
    rw [List.mapM_cons, bind_of_eq_ok hy, bind_of_eq_ok hys]
    rfl

theorem exists_result_of_mapM {f : α → Except ε β} {xs : List α} {ys : List β} (h : xs.mapM f = .ok ys) {x : α}
    (hx : x ∈ xs) : ∃ y ∈ ys, f x = .ok y := by
  have hall := mapM_eq_ok_iff.1 h
  clear h
  induction hall with
  | nil => cases hx
  | @cons _ y _ _ hy _ ih =>
    rcases List.mem_cons.1 hx with rfl | hx
    · exact ⟨y, List.mem_cons_self, hy⟩
    · obtain ⟨z, hz, hxz⟩ := ih hx
      exact ⟨z, List.mem_cons_of_mem y hz, hxz⟩

theorem exists_origin_of_mapM {f : α → Except ε β} {xs : List α} {ys : List β} (h : xs.mapM f = .ok ys) {y : β}
    (hy : y ∈ ys) : ∃ x ∈ xs, f x = .ok y := by
  have hall := mapM_eq_ok_iff.1 h
  clear h
  induction hall with
  | nil => cases hy
  | @cons x _ _ _ hx _ ih =>
    rcases List.mem_cons.1 hy with rfl | hy
    · exact ⟨x, List.mem_cons_self, hx⟩
    · obtain ⟨z, hz, hzy⟩ := ih hy
      exact ⟨z, List.mem_cons_of_mem x hz, hzy⟩

namespace Run

variable {run : Run α} {next : α → Run β} {w after : World}

theorem bind_of_ok {a : α} (h : run w = (.ok a, after)) : (run >>= next) w = next a after := by
  rw [bind_run, h]

theorem bind_of_error {f : Fault} (h : run w = (.error f, after)) :
    (run >>= next) w = (.error f, after) := by
  rw [bind_run, h]

/-- A run in steps that ends well has gone well from step to step. -/
theorem bind_eq_ok_iff {b : β} : (run >>= next) w = (.ok b, after) ↔
    ∃ a mid, run w = (.ok a, mid) ∧ next a mid = (.ok b, after) := by
  rw [bind_run]
  cases hrun : run w with
  | mk result mid =>
    cases result with
    | error f =>
      constructor
      · exact nofun
      · rintro ⟨_, _, heq, -⟩
        cases heq
    | ok a =>
      constructor
      · exact fun h => ⟨a, mid, rfl, h⟩
      · rintro ⟨_, _, heq, h⟩
        cases heq
        exact h

theorem discard_run (run : Run α) (w : World) :
    (discard run : Run Unit) w = ((run w).1.map fun _ => (), (run w).2) := by
  change (Functor.mapConst () run : Run Unit) w = _
  simp only [Functor.mapConst, ExceptT.map, ExceptT.mk, bind, StateT.bind, pure, Function.comp,
    Function.const]
  cases run w with
  | mk result after => cases result <;> rfl

theorem discard_eq_ok_iff : (discard run : Run Unit) w = (.ok (), after) ↔ ∃ a, run w = (.ok a, after) := by
  rw [discard_run]
  cases run w with
  | mk result last =>
    cases result with
    | error f => exact ⟨nofun, nofun⟩
    | ok a =>
      constructor
      · intro h
        cases h
        exact ⟨a, rfl⟩
      · rintro ⟨b, h⟩
        cases h
        rfl

end Run

end Gatehouse
