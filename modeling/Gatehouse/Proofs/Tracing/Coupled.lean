import Gatehouse.Proofs.Deciding.Parts

/-!
# Coupled — two runs from states that differ in their tracing

Tracing is a part of the state like any other: the lines that were written, and where the settings for
them come from. Two runs are coupled if they cannot be told apart by what they give and by what else
they leave. Which tracings are compared is up to a relation, and all that is asked of it is that a line
on either side does not break it. Coupling is kept by sequencing and by catching faults, so that it
comes down to the few things that look at tracing at all.
-/

namespace Gatehouse

open Trace (Level Log)

/-! ## 1. Tracings -/

/-- What a process traces with: its log, and where the settings for the log are found. -/
structure Tracing where
  log : Log
  environment : Environment
  settings : Option Settings

/-- A tracing after one more line. -/
def Tracing.emit (t : Tracing) (level : Level) (message : Except Fault String) : Tracing :=
  { t with log := t.log.emit level message }

/-- A relation between tracings that does not look at single lines. -/
structure Tracing.IsBlind (Q : Tracing → Tracing → Prop) : Prop where
  left : ∀ {t t' : Tracing} (level : Level) (message : Except Fault String),
    Q t t' → Q (t.emit level message) t'
  right : ∀ {t t' : Tracing} (level : Level) (message : Except Fault String),
    Q t t' → Q t (t'.emit level message)

namespace World

def tracing (w : World) : Tracing := ⟨w.log, w.environment, w.settings⟩

/-- A state with another tracing. -/
def tracedBy (w : World) (t : Tracing) : World :=
  { w with log := t.log, environment := t.environment, settings := t.settings }

end World

/-! ## 2. Coupling -/

namespace Run

/-- From states that are alike but for related tracings, two runs give the same and leave states that are so again. -/
def Coupled (Q : Tracing → Tracing → Prop) (run run' : Run α) : Prop :=
  ∀ w t, Q w.tracing t →
    ∃ t', Q (run w).2.tracing t' ∧ run' (w.tracedBy t) = ((run w).1, (run w).2.tracedBy t')

/-- A run to which it does not matter which of two related tracings there is. -/
def Steady (Q : Tracing → Tracing → Prop) (α : Type) (run : Run α) : Prop := Coupled Q run run

namespace Coupled

variable {Q : Tracing → Tracing → Prop} {run run' : Run α}

theorem pure (a : α) : Coupled Q (pure a) (pure a) := fun _ t h => ⟨t, h, rfl⟩

theorem throw (f : Fault) : Coupled Q (throw f : Run α) (throw f) := fun _ t h => ⟨t, h, rfl⟩

theorem ofExcept (r : Except Fault α) : Coupled Q (ofExcept r) (ofExcept r) := fun _ t h => ⟨t, h, rfl⟩

theorem bind {next next' : α → Run β} (hrun : Coupled Q run run')
    (hnext : ∀ a, Coupled Q (next a) (next' a)) : Coupled Q (run >>= next) (run' >>= next') := by
  intro w t h
  obtain ⟨t', h', hrun'⟩ := hrun w t h
  rw [bind_run, bind_run, hrun']
  cases hr : run w with
  | mk result after =>
    rw [hr] at h'
    cases result with
    | error f => exact ⟨t', h', rfl⟩
    | ok a => exact hnext a after t' h'

theorem tryCatch {handle handle' : Fault → Run α} (hrun : Coupled Q run run')
    (hhandle : ∀ f, Coupled Q (handle f) (handle' f)) :
    Coupled Q (tryCatch run handle) (tryCatch run' handle') := by
  intro w t h
  obtain ⟨t', h', hrun'⟩ := hrun w t h
  rw [tryCatch_run, tryCatch_run, hrun']
  cases hr : run w with
  | mk result after =>
    rw [hr] at h'
    cases result with
    | error f => exact hhandle f after t' h'
    | ok a => exact ⟨t', h', rfl⟩

end Coupled

/-! ## 3. What does not look at tracing -/

namespace Steady

variable {Q : Tracing → Tracing → Prop} {run : Run α}

theorem of_apart (hkeeps : ∀ w, (run w).2.tracing = w.tracing)
    (hblind : ∀ w t, run (w.tracedBy t) = ((run w).1, (run w).2.tracedBy t)) : Steady Q α run := by
  intro w t h
  rw [← hkeeps w] at h
  exact ⟨t, h, hblind w t⟩

theorem sequential : Run.Sequential (Steady Q) where
  pure := Coupled.pure
  throw := Coupled.throw
  bind := Coupled.bind

theorem declaring : Run.Declaring (Steady Q) where
  toSequential := sequential
  home := by
    apply of_apart
    · intro w
      unfold home
      cases w.home <;> rfl
    · intro w t
      have hsame : (w.tracedBy t).home = w.home := rfl
      unfold home
      rw [hsame]
      cases w.home <;> rfl
  permit i grant := by
    apply of_apart
    · intro w
      cases hp : (w.registry i).permit w.nextRule grant with
      | error f => rw [permit_of_error hp]
      | ok out =>
        rw [permit_of_ok hp]
        rfl
    · intro w t
      cases hp : (w.registry i).permit w.nextRule grant with
      | error f => rw [permit_of_error hp, permit_of_error (w := w.tracedBy t) hp]
      | ok out =>
        rw [permit_of_ok hp, permit_of_ok (w := w.tracedBy t) hp]
        rfl

theorem loading : Run.Loading (Steady Q) where
  toDeclaring := declaring
  tryCatch := Coupled.tryCatch
  library _ := of_apart (fun _ => rfl) fun _ _ => rfl
  setLibrary _ := of_apart (fun _ => rfl) fun _ _ => rfl
  loaders _ := of_apart (fun _ => rfl) fun _ _ => rfl
  setLoaders _ := of_apart (fun _ => rfl) fun _ _ => rfl

theorem load (i : Nat) (resource : Value) : Steady Q Unit (Loader.ensure i resource) :=
  Loader.ensure_of loading i resource

theorem freeze (i : Nat) : Steady Q Unit (freeze i) := of_apart (fun _ => rfl) fun _ _ => rfl

theorem clear (i : Nat) : Steady Q Unit (clear i) := by
  have hsame : ∀ w t, (World.tracedBy w t).registry i = w.registry i := fun _ _ => rfl
  apply of_apart
  · intro w
    unfold Run.clear
    cases (w.registry i).clear <;> rfl
  · intro w t
    unfold Run.clear
    rw [hsame w t]
    cases (w.registry i).clear <;> rfl

theorem read {f : World → α} (h : ∀ w t, f (w.tracedBy t) = f w) : Steady Q α (read f) := by
  apply of_apart
  · exact fun _ => rfl
  · intro w t
    rw [read_run, read_run, h w t]

theorem change {f : World → World} (hkeeps : ∀ w, (f w).tracing = w.tracing)
    (hblind : ∀ w t, f (w.tracedBy t) = (f w).tracedBy t) : Steady Q Unit (change f) := by
  apply of_apart
  · exact hkeeps
  · intro w t
    rw [change_run, change_run, hblind w t]

theorem question (q : Value × Value) :
    Steady Q Unit (Run.change fun w => { w with calls := w.calls ++ [q] }) :=
  change (fun _ => rfl) fun _ _ => rfl

/-- An engine is made of what it is given, and of the number that it gets. -/
theorem make (registry : Nat) (host : Option Host) (loader : Option Nat) (resolver : Option Resolver)
    (settings : Settings) (muted consulted : Bool) :
    Steady Q Engine (Engine.make registry host loader resolver settings muted consulted) := by
  apply sequential.bind (sequential.ofExcept _)
  intro fallback
  apply sequential.bind (read fun _ _ => rfl)
  intro serial
  have hnumber : Steady Q Unit (Run.change fun w => { w with nextEngine := serial + 1 }) :=
    change (fun _ => rfl) fun _ _ => rfl
  apply sequential.bind hnumber
  intro _
  exact sequential.pure _

end Steady

/-! ## 4. Lines -/

section

variable {Q : Tracing → Tracing → Prop} (hQ : Tracing.IsBlind Q) (level : Level) (message : Except Fault String)

include hQ

theorem Coupled.trace : Coupled Q (Run.trace level message) (Run.trace level message) :=
  fun _ t h => ⟨t.emit level message, hQ.left level message (hQ.right level message h), rfl⟩

theorem Coupled.trace_left : Coupled Q (Run.trace level message) (Pure.pure ()) :=
  fun _ t h => ⟨t, hQ.left level message h, rfl⟩

theorem Coupled.trace_right : Coupled Q (Pure.pure ()) (Run.trace level message) :=
  fun _ t h => ⟨t.emit level message, hQ.right level message h, rfl⟩

end

end Run

end Gatehouse
