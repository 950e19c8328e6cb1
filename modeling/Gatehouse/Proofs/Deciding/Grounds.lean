import Gatehouse.Proofs.Deciding.Stages
import Gatehouse.Proofs.Registry.Changes

/-!
# Grounds — what a grant rests on

A decision that grants access names a rule and the bucket that this rule is in. The rule was there when the
bucket was read, and it is there in the end: what happens in between, loading and conditions that declare
rules of their own, takes no rule away.
-/

namespace Gatehouse

open Relation (ReflTransGen)
open World (Turn)
open Run (MovesBy)

/-- A decision grants access by a rule in a bucket of a registry, and says by which. -/
def Decision.RestsOn (d : Decision) (reg : Registry) (rule : Rule) : Prop :=
  ∃ resource action scope bucket count, rule ∈ reg.bucket scope bucket ∧
    d = .granted resource action scope bucket rule.text count

theorem Decision.RestsOn.after {d : Decision} {rule : Rule} {i : Nat} {w after : World}
    (h : d.RestsOn (w.registry i) rule) (hturns : ReflTransGen Turn w after) :
    d.RestsOn (after.registry i) rule :=
  have ⟨resource, action, scope, bucket, count, hrule, hd⟩ := h
  ⟨resource, action, scope, bucket, count, World.mem_bucket_of_turns hturns hrule, hd⟩

namespace Engine

variable {e : Engine} {check : Check} {target : Value} {options : List (Value × Value)}
  {host : Option Host} {d : Decision} {w after : World}

section

variable {decide : Value → Run Bool} {scope : String} {tried : Nat}

/-- A grant comes of one of the rules that were tried. -/
theorem granted_of_tryRules {action : String} {rules : List Rule}
    (h : tryRules decide check scope action rules tried w = (.ok (.granted d), after)) :
    ∃ rule ∈ rules, ∃ count,
      d = .granted check.resource check.action scope action rule.text count := by
  induction rules generalizing tried w with
  | nil => cases h
  | cons rule rest ih =>
    rw [tryRules] at h
    obtain ⟨admitted, mid, -, h⟩ := Run.bind_eq_ok_iff.1 h
    cases admitted with
    | true =>
      cases h
      exact ⟨rule, List.mem_cons_self, tried + 1, rfl⟩
    | false =>
      obtain ⟨found, hfound, count, hd⟩ := ih h
      exact ⟨found, List.mem_cons_of_mem rule hfound, count, hd⟩

variable (hdecide : ∀ target, MovesBy Turn Bool (decide target))

include hdecide

theorem restsOn_of_scanActions {actions : List String}
    (h : e.scanActions decide check scope actions tried w = (.ok (.granted d), after)) :
    ∃ rule, d.RestsOn (after.registry e.registry) rule := by
  induction actions generalizing tried w with
  | nil => cases h
  | cons action rest ih =>
    rw [scanActions] at h
    obtain ⟨_, traced, -, h⟩ := Run.bind_eq_ok_iff.1 h
    obtain ⟨rules, _, hread, h⟩ := Run.bind_eq_ok_iff.1 h
    cases hread
    obtain ⟨progress, mid, htry, h⟩ := Run.bind_eq_ok_iff.1 h
    cases progress with
    | tried count => exact ih h
    | granted found =>
      cases h
      obtain ⟨rule, hrule, count, hd⟩ := granted_of_tryRules htry
      -- The bucket was read before any condition was asked; what conditions declare only adds to it.
      have hrests : d.RestsOn (traced.registry e.registry) rule :=
        ⟨_, _, scope, action, count, hrule, hd⟩
      have hturns := tryRules_of MovesBy.deciding hdecide check scope action
        ((traced.registry e.registry).bucket scope action) tried traced
      rw [htry] at hturns
      exact ⟨rule, hrests.after hturns⟩

theorem restsOn_of_scanScopes {scopes : List String}
    (h : e.scanScopes decide check scopes tried w = (.ok (.granted d), after)) :
    ∃ rule, d.RestsOn (after.registry e.registry) rule := by
  induction scopes generalizing tried w with
  | nil => cases h
  | cons scope rest ih =>
    rw [scanScopes_cons] at h
    obtain ⟨_, traced, -, h⟩ := Run.bind_eq_ok_iff.1 h
    obtain ⟨_, loaded, -, h⟩ := Run.bind_eq_ok_iff.1 h
    obtain ⟨progress, mid, hscan, h⟩ := Run.bind_eq_ok_iff.1 h
    cases progress with
    | tried count => exact ih h
    | granted found =>
      cases h
      exact restsOn_of_scanActions hdecide hscan

theorem restsOn_of_scan (h : e.scan decide check w = (.ok d, after)) (hd : d.allowed = true) :
    ∃ rule, d.RestsOn (after.registry e.registry) rule := by
  unfold scan at h
  obtain ⟨progress, mid, hscan, h⟩ := Run.bind_eq_ok_iff.1 h
  cases progress with
  | granted found =>
    cases h
    exact restsOn_of_scanScopes hdecide hscan
  | tried count =>
    cases h
    cases hd

end

/-- A decision that grants access rests on a rule that is in the engine's registry afterwards. -/
theorem restsOn_of_decide (h : e.decide target options host w = (.ok d, after))
    (hd : d.allowed = true) : ∃ rule, d.RestsOn (after.registry e.registry) rule := by
  cases hcheck : e.checkOf target options host with
  | error f =>
    rw [decide_of_error hcheck] at h
    cases h
  | ok found =>
    cases found with
    | none =>
      obtain ⟨log, hrun⟩ := decide_of_none hcheck w
      rw [hrun] at h
      cases h
      cases hd
    | some check =>
      obtain ⟨log, hdecide⟩ := decide_of_check hcheck w
      cases hscan : e.scan (e.consultation (depthLimit - 1)) check (w.asking [] log) with
      | mk result mid =>
        obtain ⟨log', hrun⟩ := hdecide result mid hscan
        rw [hrun] at h
        cases h
        have hrests : ∃ rule, d.RestsOn (mid.registry e.registry) rule :=
          restsOn_of_scan (consultation_of MovesBy.deciding e _) hscan hd
        exact hrests

end Engine

end Gatehouse
