import Gatehouse.Proofs.Registry.Changes
import Gatehouse.Proofs.Registry.Refusal

/-!
# Atomic — a declaration registers all of its rules, or none

Resource, actions, roles, condition, key and the time of declarations are looked at one after the other,
and only then is the first rule registered. So a declaration that is refused, for whichever reason, leaves
every registry as it was. One that is accepted puts a rule for each of its actions behind the other rules
of that action, and nothing else anywhere.
-/

namespace Gatehouse

namespace Registry

/-! ## 1. Declarations that are accepted -/

/-- What a declaration adds to a registry: on one resource, for each action in turn, a rule that says what
the grant says. -/
structure Gains (reg after : Registry) (g : Grant Condition) (rules : List Rule) (name : String)
    (actions : List String) : Prop where
  named : Name.resource g.resource = .ok name
  acting : Grant.actionsOf g.actions = .ok actions
  one_each : rules.length = actions.length
  made : ∀ r ∈ rules, r.IsMadeOf g
  appended : ∀ action, after.bucket name action =
    reg.bucket name action ++ ((actions.zip rules).filter fun e => e.1 = action).map Prod.snd
  others : ∀ other action, other ≠ name ∨ action ∉ actions →
    after.bucket other action = reg.bucket other action
  elsewhere : ∀ other, other ≠ name → after.buckets other = reg.buckets other
  resources : after.resourceNames =
    if name ∈ reg.resourceNames then reg.resourceNames else reg.resourceNames ++ [name]
  size : after.size = reg.size + actions.length
  frozen : reg.frozen = false ∧ after.frozen = false

variable {reg after : Registry} {serial : Nat} {g : Grant Condition} {rules : List Rule}

theorem gains_of_permit (h : reg.permit serial g = .ok (after, rules)) :
    ∃ resource actions, reg.Gains after g rules resource actions := by
  obtain ⟨resource, actions, hresource, hactions, hseries, hopen, rfl⟩ := permit_eq_ok_iff.1 h
  have hlength : rules.length = actions.length := Rule.length_series hseries
  have hzip : (actions.zip rules).length = actions.length := by
    rw [List.length_zip, hlength, Nat.min_self]
  refine ⟨resource, actions, hresource, hactions, hlength, Rule.isMadeOf_of_permit h, ?_, ?_, ?_,
    resourceNames_addAll reg resource _, ?_, hopen, hopen⟩
  · intro action
    rw [bucket_addAll]
    simp only [true_and]
  · intro other action hother
    rw [bucket_addAll, List.filter_eq_nil_iff.2, List.map_nil, List.append_nil]
    -- An entry that counts here would be on this resource and for one of the actions.
    intro e he hplace
    obtain ⟨hresource', haction⟩ := of_decide_eq_true hplace
    have hmem : e.1 ∈ actions := (List.of_mem_zip he).1
    rcases hother with hne | hnot
    · exact hne hresource'
    · exact hnot (haction ▸ hmem)
  · intro other hne
    exact buckets_addAll_of_ne reg _ hne
  · rw [size_addAll, hzip]

/-! ## 2. Declarations that are refused -/

/-- Why a registry refuses a declaration. The reasons are looked for in this order. -/
inductive Refuses (reg : Registry) (g : Grant Condition) : Fault → Prop where
  | resource {f : Fault} (h : Name.resource g.resource = .error f) : Refuses reg g f
  | actions {f : Fault} (h : Grant.actionsOf g.actions = .error f) : Refuses reg g f
  | rules {f : Fault} {actions : List String} {serial : Nat}
      (hactions : Grant.actionsOf g.actions = .ok actions)
      (h : Rule.series g.guard g.objectId actions.length serial g.roles = .error f) : Refuses reg g f
  | frozen {resource : String} (hresource : Name.resource g.resource = .ok resource)
      (h : reg.frozen = true) : Refuses reg g (.misconfigured (.frozen resource))

theorem refuses_of_permit {f : Fault} (h : reg.permit serial g = .error f) : reg.Refuses g f := by
  unfold permit at h
  obtain h | ⟨resource, hresource, h⟩ := bind_eq_error_iff.1 h
  · exact .resource h
  · obtain h | ⟨actions, hactions, h⟩ := bind_eq_error_iff.1 h
    · exact .actions h
    · obtain h | ⟨made, hmade, h⟩ := bind_eq_error_iff.1 h
      · exact .rules hactions h
      · cases hfrozen : reg.frozen with
        | false =>
          rw [hfrozen] at h
          cases h
        | true =>
          rw [hfrozen] at h
          cases h
          exact .frozen hresource hfrozen

/-! ## 3. All or nothing -/

/-- What comes of a declaration in the registry under a number. -/
inductive Settles (i : Nat) (g : Grant Condition) (w : World) : Except Fault (List Rule) × World → Prop where
  /-- All rules are there, and the state is otherwise the same. -/
  | all {resource : String} {actions : List String} {rules : List Rule} {reg : Registry}
      (h : (w.registry i).Gains reg g rules resource actions) (hreg : ∀ j,
        (w.declared i reg (w.nextRule + rules.length)).registry j = if j = i then reg else w.registry j) :
      Settles i g w (.ok rules, w.declared i reg (w.nextRule + rules.length))
  /-- The state is the same. -/
  | nothing {f : Fault} (hcause : (w.registry i).Refuses g f)
      (hfault : g.hidesStripping = false → f.isMisconfiguration = true ∨ g.Brings f) :
      Settles i g w (.error f, w)

/-- Whatever is given to it, a declaration registers one rule for each of its actions, behind the others of
that action, or it fails and leaves the state as it was. It fails with a misconfiguration, unless an argument
brings a fault of its own. -/
theorem settles_permit {i : Nat} {w : World} (hi : i < w.registries.length) (g : Grant Condition) :
    Settles i g w (Run.permit i g w) := by
  cases hpermit : (w.registry i).permit w.nextRule g with
  | error f =>
    rw [Run.permit_of_error hpermit]
    refine .nothing (refuses_of_permit hpermit) ?_
    intro hasked
    obtain hmis | hbrings | ⟨-, hhides⟩ := fault_of_permit hpermit
    · exact .inl hmis
    · exact .inr hbrings
    · rw [hasked] at hhides
      cases hhides
  | ok out =>
    obtain ⟨reg, rules⟩ := out
    rw [Run.permit_of_ok hpermit]
    obtain ⟨resource, actions, hgains⟩ := gains_of_permit hpermit
    refine .all hgains ?_
    intro j
    rw [World.registry_declared]
    by_cases hj : j = i
    · rw [if_pos ⟨hj.symm, hi⟩, if_pos hj]
    · rw [if_neg (fun h => hj h.1.symm), if_neg hj]

/-- A registry in which the administrators may show and edit products. -/
def openedWorld : World :=
  (Run.permit 0
    ⟨.text "products", .list [.text "edit", .text "show"], .text "admin", .absent, .null⟩ World.initial).2

/-- An action given twice, in two spellings. -/
def repeatedGrant : Grant Condition :=
  ⟨.text " Products ", .list [.text "show", .text "DELETE", .text " Show"], .all, .absent, .text "product_id"⟩

theorem settles_permit_repeatedGrant :
    0 < openedWorld.registries.length ∧
      Settles 0 repeatedGrant openedWorld (Run.permit 0 repeatedGrant openedWorld) ∧
      ((Run.permit 0 repeatedGrant openedWorld).2.registry 0).size = 5 :=
  ⟨by decide +kernel, settles_permit (by decide +kernel) repeatedGrant, by decide +kernel⟩

/-- Actions that break off at a principal which cannot be made: the fault is that principal's, and it is no
misconfiguration. -/
theorem permit_actions_breaking_off :
    let g : Grant Condition :=
      ⟨.text "products", Value.onceOf [.ok (.text "show"), Principal.ofFields []], .all, .absent, .null⟩
    Run.permit 0 g World.initial = (.error (.invalid [("id", .missing)]), World.initial) ∧
      Fault.isMisconfiguration (.invalid [("id", .missing)]) = false := by
  refine ⟨?_, rfl⟩
  with_unfolding_all rfl

end Registry

end Gatehouse
