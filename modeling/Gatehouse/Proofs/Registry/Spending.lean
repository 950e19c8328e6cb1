import Gatehouse.Proofs.Registry.Atomic

/-!
# Spending — roles that can be gone through once

A declaration makes one rule for each of its actions, and goes through its roles for each of them anew. A list of
roles is the same every time. A sequence that can be gone through once gives all of its roles to the first rule and
none to the second, so that it does the work of a list only where no second rule is made.
-/

namespace Gatehouse

/-- A grant to other roles. -/
def Grant.withRoles (g : Grant Condition) (roles : Value) : Grant Condition := { g with roles }

/-- The names of the grant are in order, it has more than one action, and the rule for the first one can be made
with these roles. -/
structure Grant.NeedsRolesAgain (g : Grant Condition) (roles : List Value) : Prop where
  named : ∃ resource, Name.resource g.resource = .ok resource
  acting : ∃ actions, Grant.actionsOf g.actions = .ok actions ∧ 1 < actions.length
  first : ∃ r, Rule.make 0 (.list roles) g.guard g.objectId = .ok r

/-! ## 1. Reading roles -/

theorem Roles.read_once (roles : List Value) : read (.once roles none) = read (.list roles) := by
  cases roles <;> rfl

namespace Rule

variable {guard : Guard Condition} {objectId : Value} {roles : List Value} {serial : Nat}

theorem make_once (serial : Nat) (roles : List Value) (guard : Guard Condition) (objectId : Value) :
    make serial (.once roles none) guard objectId = make serial (.list roles) guard objectId := by
  unfold make
  rw [Roles.read_once]

/-- The first rule is made of all the roles, and for the next one there are none left. -/
theorem series_once_of_lt {count : Nat} {r : Rule} (hcount : 1 < count)
    (h : make serial (.list roles) guard objectId = .ok r) :
    series guard objectId count serial (.once roles none) = .error (.misconfigured .noRoles) := by
  obtain ⟨more, rfl⟩ := Nat.exists_eq_add_of_lt hcount
  have hagain : ∀ more serial, series guard objectId (more + 1) serial (.once [] none) =
      .error (.misconfigured .noRoles) := fun _ _ => rfl
  rw [← make_once] at h
  rw [show 1 + more + 1 = (more + 1) + 1 by omega, series, bind_of_eq_ok h]
  change (series guard objectId (more + 1) (serial + 1) (.once [] none) >>= _) = _
  rw [hagain]
  rfl

/-- A single rule, or one that cannot even be made once, does not tell the two apart. -/
theorem series_once_of_not (count serial : Nat)
    (h : 1 < count → ∃ f, make serial (.list roles) guard objectId = .error f) :
    series guard objectId count serial (.once roles none) = series guard objectId count serial (.list roles) := by
  cases count with
  | zero => rfl
  | succ more =>
    rw [series, series, make_once]
    cases hmake : make serial (.list roles) guard objectId with
    | error f => rfl
    | ok r =>
      cases more with
      | zero => rfl
      | succ more =>
        obtain ⟨f, hf⟩ := h (by omega)
        rw [hmake] at hf
        cases hf

theorem series_list {r : Rule} (h : make serial (.list roles) guard objectId = .ok r) (count first : Nat) :
    ∃ rules, series guard objectId count first (.list roles) = .ok rules := by
  induction count generalizing first with
  | zero => exact ⟨[], rfl⟩
  | succ count ih =>
    obtain ⟨rest, hrest⟩ := ih (first + 1)
    refine ⟨{ r with serial := first } :: rest, ?_⟩
    rw [series, bind_of_eq_ok (make_renumbered h first), Value.spent_list, bind_of_eq_ok hrest]
    rfl

end Rule

/-! ## 2. Declaring -/

namespace Registry

variable {g : Grant Condition} {roles : List Value}

/-- A second rule that cannot be made is all that is wrong, whatever the registry would have said in the end. -/
theorem permit_once_of_needsRolesAgain (h : g.NeedsRolesAgain roles) (reg : Registry) (serial : Nat) :
    reg.permit serial (g.withRoles (.once roles none)) = .error (.misconfigured .noRoles) := by
  obtain ⟨resource, hresource⟩ := h.named
  obtain ⟨actions, hactions, hcount⟩ := h.acting
  obtain ⟨r, hr⟩ := h.first
  unfold permit Grant.withRoles
  rw [bind_of_eq_ok hresource, bind_of_eq_ok hactions,
    Rule.series_once_of_lt hcount (Rule.make_renumbered hr serial)]
  rfl

/-- A list of roles serves for all rules, so that at most the time of declarations is over. -/
theorem permit_list_of_needsRolesAgain (h : g.NeedsRolesAgain roles) (reg : Registry) (serial : Nat) :
    (∃ out, reg.permit serial (g.withRoles (.list roles)) = .ok out) ∨
      ∃ resource, reg.permit serial (g.withRoles (.list roles)) = .error (.misconfigured (.frozen resource)) := by
  obtain ⟨resource, hresource⟩ := h.named
  obtain ⟨actions, hactions, -⟩ := h.acting
  obtain ⟨r, hr⟩ := h.first
  obtain ⟨rules, hrules⟩ := Rule.series_list hr actions.length serial
  unfold permit Grant.withRoles
  rw [bind_of_eq_ok hresource, bind_of_eq_ok hactions, bind_of_eq_ok hrules]
  cases reg.frozen with
  | true => exact .inr ⟨resource, rfl⟩
  | false => exact .inl ⟨_, rfl⟩

theorem permit_once_of_not (h : ¬ g.NeedsRolesAgain roles) (reg : Registry) (serial : Nat) :
    reg.permit serial (g.withRoles (.once roles none)) = reg.permit serial (g.withRoles (.list roles)) := by
  unfold permit Grant.withRoles
  cases hresource : Name.resource g.resource with
  | error f => rfl
  | ok resource =>
    cases hactions : Grant.actionsOf g.actions with
    | error f => rfl
    | ok actions =>
      -- With more than one action, the grant would need the roles again if the first rule could be made.
      have hfirst : 1 < actions.length →
          ∃ f, Rule.make serial (.list roles) g.guard g.objectId = .error f := by
        intro hcount
        cases hmake : Rule.make serial (.list roles) g.guard g.objectId with
        | error f => exact ⟨f, rfl⟩
        | ok r =>
          exact absurd ⟨⟨resource, hresource⟩, ⟨actions, hactions, hcount⟩, ⟨_, Rule.make_renumbered hmake 0⟩⟩ h
      rw [bind_of_eq_ok rfl, bind_of_eq_ok rfl, Rule.series_once_of_not actions.length serial hfirst]
      rfl

/-- Roles that can be gone through once are as good as a list of them exactly where they are not needed again;
where they are, the declaration is refused for want of roles and registers nothing. -/
theorem permit_once_eq_iff (i : Nat) (g : Grant Condition) (roles : List Value) (w : World) :
    (Run.permit i (g.withRoles (.once roles none)) w = Run.permit i (g.withRoles (.list roles)) w ↔
      ¬ g.NeedsRolesAgain roles) ∧
    (g.NeedsRolesAgain roles →
      Run.permit i (g.withRoles (.once roles none)) w = (.error (.misconfigured .noRoles), w)) := by
  have hrefused : g.NeedsRolesAgain roles →
      Run.permit i (g.withRoles (.once roles none)) w = (.error (.misconfigured .noRoles), w) := fun h =>
    Run.permit_of_error (permit_once_of_needsRolesAgain h _ _)
  refine ⟨⟨fun heq h => ?_, fun h => ?_⟩, hrefused⟩
  · rw [hrefused h] at heq
    obtain ⟨out, hout⟩ | ⟨resource, hfrozen⟩ := permit_list_of_needsRolesAgain h (w.registry i) w.nextRule
    · rw [Run.permit_of_ok hout] at heq
      cases heq
    · rw [Run.permit_of_error hfrozen] at heq
      cases heq
  · unfold Run.permit
    rw [permit_once_of_not h]

/-- A grant of these actions on products. -/
def onProducts (actions : List String) : Grant Condition :=
  ⟨.text "products", .list (actions.map .text), .null, .absent, .text "product_id"⟩

theorem permit_once_eq_iff_oneAction :
    let g := onProducts ["show"]
    let roles := [.text "admin", .int 7]
    ¬ g.NeedsRolesAgain roles ∧
      Run.permit 0 (g.withRoles (.once roles none)) World.initial =
        Run.permit 0 (g.withRoles (.list roles)) World.initial ∧
      ((Run.permit 0 (g.withRoles (.once roles none)) World.initial).2.registry 0).size = 1 := by
  intro g roles
  have hone : ¬ g.NeedsRolesAgain roles := by
    rintro ⟨-, ⟨actions, hactions, hcount⟩, -⟩
    have hshow : Grant.actionsOf g.actions = .ok ["show"] := by with_unfolding_all rfl
    cases hshow.symm.trans hactions
    exact absurd hcount (by decide)
  exact ⟨hone, (permit_once_eq_iff 0 g roles World.initial).1.2 hone, by with_unfolding_all rfl⟩

/-- Two actions granted to roles that can be gone through once are refused; granted to the same roles in a list,
they are registered. -/
theorem permit_once_twoActions :
    let g := onProducts ["index", "show"]
    Run.permit 0 (g.withRoles (.once [.text "admin"] none)) World.initial =
        (.error (.misconfigured .noRoles), World.initial) ∧
      ((Run.permit 0 (g.withRoles (.list [.text "admin"])) World.initial).2.registry 0).size = 2 := by
  refine ⟨?_, ?_⟩
  · with_unfolding_all rfl
  · with_unfolding_all rfl

end Registry

end Gatehouse
