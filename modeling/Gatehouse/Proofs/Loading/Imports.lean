import Gatehouse.Loading
import Gatehouse.Proofs.Runs

/-!
# Imports — what importing looks at

Importing reads and changes registries and the library, and nothing else. Whatever else happens between
two imports makes no difference to them: a run that is local gives the same result and leaves the same
registries and the same library behind, whatever is around them.
-/

namespace Gatehouse

/-! ## 1. Local runs -/

/-- The registries and the library of one state, with everything else as in another. -/
def World.within (w rest : World) : World :=
  { rest with
    registries := w.registries, home := w.home, nextRule := w.nextRule, library := w.library }

namespace World

variable (w rest : World)

@[simp] theorem registry_within (i : Nat) : (w.within rest).registry i = w.registry i := rfl

@[simp] theorem library_within : (w.within rest).library = w.library := rfl

@[simp] theorem loaders_within : (w.within rest).loaders = rest.loaders := rfl

theorem within_self : w.within w = w := rfl

end World

/-- A run that only registries and the library matter to. -/
def Run.IsLocal (run : Run α) : Prop :=
  ∀ w rest, run (w.within rest) = ((run w).1, (run w).2.within rest)

namespace Run

variable {run : Run α} {next : α → Run β}

theorem isLocal_pure (a : α) : (pure a : Run α).IsLocal := fun _ _ => rfl

theorem isLocal_throw (f : Fault) : (throw f : Run α).IsLocal := fun _ _ => rfl

theorem isLocal_ofExcept (r : Except Fault α) : (ofExcept r).IsLocal := fun _ _ => rfl

theorem isLocal_read {f : World → α} (h : ∀ w rest, f (w.within rest) = f w) :
    (read f).IsLocal := by
  intro w rest
  rw [read_run, read_run, h w rest]

theorem isLocal_change {f : World → World}
    (h : ∀ w rest, f (w.within rest) = (f w).within rest) : (change f).IsLocal := by
  intro w rest
  rw [change_run, change_run, h w rest]

theorem isLocal_bind (h : run.IsLocal) (hnext : ∀ a, (next a).IsLocal) :
    (run >>= next).IsLocal := by
  intro w rest
  rw [bind_run, bind_run, h w rest]
  cases hrun : run w with
  | mk result after =>
    -- What the first run leaves is again surrounded by the same rest.
    cases result with
    | error f => rfl
    | ok a => exact hnext a after rest

theorem isLocal_tryCatch {handle : Fault → Run α} (h : run.IsLocal)
    (hhandle : ∀ f, (handle f).IsLocal) : (tryCatch run handle).IsLocal := by
  intro w rest
  rw [tryCatch_run, tryCatch_run, h w rest]
  cases hrun : run w with
  | mk result after =>
    cases result with
    | error f => exact hhandle f after rest
    | ok a => rfl

theorem isLocal_discard (h : run.IsLocal) : (discard run : Run Unit).IsLocal := by
  intro w rest
  rw [discard_run, discard_run, h w rest]

theorem isLocal_home : home.IsLocal := by
  intro w rest
  have hsame : (w.within rest).home = w.home := rfl
  unfold home
  rw [hsame]
  cases w.home <;> rfl

theorem isLocal_permit (i : Nat) (grant : Grant Condition) : (permit i grant).IsLocal := by
  intro w rest
  cases hp : (w.registry i).permit w.nextRule grant with
  | error f => rw [permit_of_error hp, permit_of_error (w := w.within rest) hp]
  | ok out =>
    rw [permit_of_ok hp, permit_of_ok (w := w.within rest) hp]
    rfl

end Run

/-! ## 2. Imports are local -/

section

variable {bring : String → Run Unit} (hbring : ∀ name, (bring name).IsLocal)

include hbring

theorem Statement.isLocal_run (st : Statement) : (st.run bring).IsLocal := by
  cases st with
  | permit grant =>
    exact Run.isLocal_bind Run.isLocal_home fun i => Run.isLocal_discard (Run.isLocal_permit i grant)
  | bring name => exact hbring name
  | fail fault => exact Run.isLocal_throw fault

theorem Statement.isLocal_runAll (body : List Statement) : (runAll bring body).IsLocal := by
  induction body with
  | nil => exact Run.isLocal_pure ()
  | cons st rest ih => exact Run.isLocal_bind (st.isLocal_run hbring) fun _ => ih

theorem Library.isLocal_bringOne (name : String) : (bringOne bring name).IsLocal := by
  unfold bringOne
  refine Run.isLocal_bind (Run.isLocal_read fun _ _ => rfl) fun lib => ?_
  split
  · exact Run.isLocal_pure ()
  · refine Run.isLocal_bind (Run.isLocal_ofExcept _) fun m => ?_
    refine Run.isLocal_bind (Run.isLocal_change fun _ _ => rfl) fun _ => ?_
    refine Run.isLocal_tryCatch (Statement.isLocal_runAll hbring m.body) fun f => ?_
    exact Run.isLocal_bind (Run.isLocal_change fun _ _ => rfl) fun _ => Run.isLocal_throw f

theorem Library.isLocal_bringEach (names : List String) : (bringEach bring names).IsLocal := by
  induction names with
  | nil => exact Run.isLocal_pure ()
  | cons name rest ih => exact Run.isLocal_bind (isLocal_bringOne hbring name) fun _ => ih

end

namespace Library

theorem bringAt_succ (depth : Nat) (name : String) : bringAt (depth + 1) name =
    if name = "" then throw (.badValue .emptyModuleName)
    else if name.toList.head? = some '.' then throw .wrongKind
    else Run.read (fun w => w.library.pending name) >>= fun names =>
      if packageLimit < names.length then throw (.tooDeep .runs)
      else bringEach (bringAt depth) names := by
  unfold bringAt
  by_cases hempty : name = ""
  · rw [if_pos hempty, if_pos (beq_iff_eq.2 hempty)]
    rfl
  · rw [if_neg hempty, if_neg (by simpa using hempty)]
    by_cases hdot : name.toList.head? = some '.'
    · rw [if_pos hdot, if_pos (beq_iff_eq.2 hdot)]
      rfl
    · rw [if_neg hdot, if_neg (by simpa using hdot)]
      refine bind_congr fun names => ?_
      by_cases hlimit : packageLimit < names.length
      · rw [if_pos hlimit, if_pos hlimit]
        rfl
      · rw [if_neg hlimit, if_neg hlimit]

theorem isLocal_bringAt (depth : Nat) (name : String) : (bringAt depth name).IsLocal := by
  -- Induction on how deep imports may go: one level uses the one below it only.
  induction depth generalizing name with
  | zero => exact Run.isLocal_throw _
  | succ depth ih =>
    rw [bringAt_succ]
    split
    · exact Run.isLocal_throw _
    · split
      · exact Run.isLocal_throw _
      · refine Run.isLocal_bind (Run.isLocal_read fun _ _ => rfl) fun names => ?_
        split
        · exact Run.isLocal_throw _
        · exact isLocal_bringEach ih names

/-- Imports modules by name, one after the other. -/
def importAll : List String → Run Unit
  | [] => pure ()
  | name :: rest => do
      bring name
      importAll rest

theorem isLocal_importAll (order : List String) : (importAll order).IsLocal := by
  induction order with
  | nil => exact Run.isLocal_pure ()
  | cons name rest ih => exact Run.isLocal_bind (isLocal_bringAt depthLimit name) fun _ => ih

theorem importAll_append (order more : List String) :
    importAll (order ++ more) = (do importAll order; importAll more) := by
  induction order with
  | nil => rfl
  | cons name rest ih =>
    rw [List.cons_append, importAll, ih, importAll, bind_assoc]

end Library

end Gatehouse
