import Gatehouse.Proofs.Deciding.Parts
import Gatehouse.Shared

/-!
# Shared — what the making of shared things is put together from

The settings of the process, its trace and its loaders are made from looks at the state and one change each. So a
property of runs that sequencing keeps holds of the making as soon as it holds of this change; above all, whoever
does not look at what is changed finds everything as it was, whether the making went well or not.
-/

namespace Gatehouse

/-- A property of runs that sequencing keeps and that looking at the state has besides. -/
structure Run.Looking (P : (α : Type) → Run α → Prop) : Prop extends Run.Sequential P where
  read : ∀ {α : Type} (f : World → α), P α (Run.read f)

open Run (Keeps)

theorem Run.Keeps.looking (part : World → β) : Run.Looking (Keeps part) where
  toSequential := sequential part
  read _ := .of_same fun _ => rfl

namespace Shared

/-! ## 1. Any property -/

section

variable {P : (α : Type) → Run α → Prop}

theorem settings_of (h : Run.Looking P)
    (hkeep : ∀ s : Settings, P Unit (Run.change fun w => { w with settings := some s })) : P Settings settings := by
  apply h.bind (h.read _)
  intro known
  cases known with
  | some s => exact h.pure s
  | none =>
    apply h.bind (h.read _)
    intro env
    apply h.bind (h.ofExcept _)
    intro s
    exact h.bind (hkeep s) fun _ => h.pure s

theorem ensureTrace_of (h : Run.Looking P) {given : Option Settings} (hconfigure : P Unit (configureTrace given)) :
    P Unit (ensureTrace given) := by
  apply h.bind (h.read _)
  intro own
  cases own with
  | true => exact h.pure ()
  | false => exact hconfigure

theorem makeLoader_of (h : Run.Sequential P) (s : Settings)
    (hadd : ∀ package, P (Option Nat) fun w =>
      (.ok (some (w.addLoader (.package package [])).1), (w.addLoader (.package package [])).2)) :
    P (Option Nat) (makeLoader s) := by
  unfold makeLoader
  split
  · split
    · exact hadd _
    · exact h.pure none
  · exact h.pure none

end

/-! ## 2. What is left alone -/

section

variable {part : World → β}

theorem keeps_settings (hpart : ∀ (w : World) settings, part { w with settings } = part w) :
    Keeps part Settings settings :=
  settings_of (Keeps.looking part) fun _ w => hpart w _

theorem keeps_ensureTrace (hpart : ∀ (w : World) log, part { w with log } = part w) (s : Settings) :
    Keeps part Unit (ensureTrace (some s)) :=
  ensureTrace_of (Keeps.looking part) <|
    (Keeps.sequential part).bind ((Keeps.sequential part).pure s) fun _ w => hpart w _

theorem keeps_makeLoader (hpart : ∀ (w : World) loaders, part { w with loaders } = part w) (s : Settings) :
    Keeps part (Option Nat) (makeLoader s) :=
  makeLoader_of (Keeps.sequential part) s fun _ w => hpart w _

end

end Shared

end Gatehouse
