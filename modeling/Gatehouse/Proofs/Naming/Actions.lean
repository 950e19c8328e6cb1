import Gatehouse.Proofs.Naming.Spelling

/-!
# Actions — an action alone and among others

A declaration takes one action or several. What stands for every action is recognized before anything is read, if it
stands alone; among others it is read like any name. Both ways come to the same, because the name of every action is
a name that can be read. Only a text that hides what strips it is refused alone and accepted among others: alone it
is asked as the member that it is, among others it is read by its value.
-/

namespace Gatehouse

/-! ## 1. Single actions -/

/-- A value that is taken for one action: a text, a member of a group, or what cannot be gone through. -/
inductive Value.IsSingle (v : Value) : Prop where
  | text (h : v.text?.isSome = true)
  | member (h : v.isMember = true)
  | other (h : v.items? = none)

/-- A value that is no action made by hand: if it is an action, it has been read off some value. -/
def Value.IsGenuine (v : Value) : Prop :=
  ∀ made, v = .action made → ∃ given, Name.read .action given = .ok made

theorem Value.IsSingle.items?_eq {v : Value} (h : v.IsSingle) : v.items? = none := by
  cases h with
  | text h =>
    obtain ⟨s, hs⟩ := Option.isSome_iff_exists.1 h
    exact items?_of_text? hs
  | member h =>
    cases v with
    | all | member _ _ _ _ | textMember _ _ _ | intMember _ _ _ => rfl
    | _ => cases h
  | other h => exact h

namespace Grant

/-! ## 2. Lists of actions -/

theorem exists_names_iff {vs : List Value} :
    (∃ names, List.Forall₂ (fun v name => Name.action v = .ok name) vs names) ↔
      ∀ v ∈ vs, ∃ name, Name.action v = .ok name := by
  induction vs with
  | nil => exact ⟨fun _ => nofun, fun _ => ⟨[], .nil⟩⟩
  | cons v rest ih =>
    rw [List.forall_mem_cons, ← ih]
    constructor
    · rintro ⟨_, h⟩
      cases h with
      | cons hname hothers => exact ⟨⟨_, hname⟩, _, hothers⟩
    · rintro ⟨⟨name, hname⟩, names, hnames⟩
      exact ⟨name :: names, .cons hname hnames⟩

/-- A list of actions gives the name of each of them, in their order, if it is not empty. -/
theorem actionsOf_list_eq_ok_iff {vs : List Value} {names : List String} : actionsOf (.list vs) = .ok names ↔
    vs ≠ [] ∧ List.Forall₂ (fun v name => Name.action v = .ok name) vs names := by
  rw [← mapM_eq_ok_iff, actionsOf_of_items? rfl]
  cases hnames : vs.mapM Name.action with
  | error f => exact ⟨nofun, nofun⟩
  | ok read =>
    have hlength := (mapM_eq_ok_iff.1 hnames).length_eq
    rw [bind_of_eq_ok rfl]
    cases read with
    | nil =>
      rw [List.eq_nil_of_length_eq_zero hlength]
      exact ⟨nofun, fun h => absurd rfl h.1⟩
    | cons name rest =>
      have hne : vs ≠ [] := by
        rintro rfl
        cases hlength
      exact ⟨fun h => ⟨hne, h⟩, fun h => h.2⟩

/-! ## 3. One action in both places -/

theorem actionsOf_singleton (v : Value) :
    actionsOf (.list [v]) = (Name.action v).map fun action => [action] := by
  rw [actionsOf_of_items? rfl, List.mapM_cons]
  cases Name.action v with
  | error f => rfl
  | ok action => rfl

/-- One action gives its name in both places, or is misconfigured in both. -/
inductive TakesAlike (v : Value) : Prop where
  | named {name : String} (hname : Name.action v = .ok name) (halone : actionsOf v = .ok [name])
      (hlisted : actionsOf (.list [v]) = .ok [name])
  | refused {f g : Fault} (hname : Name.action v = .error g) (halone : actionsOf v = .error f)
      (hlisted : actionsOf (.list [v]) = .error g) (hf : f.isMisconfiguration = true) (hg : g.isMisconfiguration = true)

theorem takesAlike_of_isSingle {v : Value} (hsingle : v.IsSingle) (hgenuine : v.IsGenuine)
    (hstrip : v.hidesStripping = false) (hname : v.hidesName = false) : TakesAlike v := by
  have hlisted := actionsOf_singleton v
  by_cases hnull : v = .null
  · subst hnull
    exact .refused rfl rfl rfl rfl rfl
  · have hmade : ∀ made, v = .action made → Name.isWellFormed made.toList = true := by
      intro made h
      obtain ⟨given, hgiven⟩ := hgenuine made h
      exact Name.isWellFormed_of_read hgiven
    have halone := actionsOf_of_items?_none hnull hsingle.items?_eq hstrip hmade
    cases haction : Name.action v with
    | ok name =>
      rw [haction] at halone hlisted
      exact .named haction halone hlisted
    | error f =>
      rw [haction] at halone hlisted
      obtain hmis | ⟨-, hhides⟩ := Name.fault_of_action haction
      · exact .refused haction halone hlisted hmis hmis
      · rw [hname] at hhides
        cases hhides

/-- A list of actions is accepted exactly if it is not empty and each of them has a name, and gives these names in
their order. One action is taken alone as it is in a list, for every action or for one, unless what it is or stands
for hides what strips it. -/
theorem actionsOf_alone_and_listed (vs : List Value) (v : Value) :
    ((∃ names, actionsOf (.list vs) = .ok names) ↔ vs ≠ [] ∧ ∀ w ∈ vs, ∃ name, Name.action w = .ok name) ∧
      (∀ names, actionsOf (.list vs) = .ok names →
        List.Forall₂ (fun w name => Name.action w = .ok name) vs names) ∧
      (v.IsSingle → v.IsGenuine → v.hidesStripping = false → v.hidesName = false →
        TakesAlike v ∧
          (actionsOf v = .ok [Name.everyAction] ↔ actionsOf (.list [v]) = .ok [Name.everyAction])) := by
  refine ⟨?_, fun names h => (actionsOf_list_eq_ok_iff.1 h).2, fun hsingle hgenuine hstrip hname => ?_⟩
  · rw [← exists_names_iff]
    constructor
    · rintro ⟨names, h⟩
      obtain ⟨hne, hnames⟩ := actionsOf_list_eq_ok_iff.1 h
      exact ⟨hne, names, hnames⟩
    · rintro ⟨hne, names, hnames⟩
      exact ⟨names, actionsOf_list_eq_ok_iff.2 ⟨hne, hnames⟩⟩
  · have halike := takesAlike_of_isSingle hsingle hgenuine hstrip hname
    refine ⟨halike, ?_⟩
    cases halike with
    | named _ halone hlisted => rw [halone, hlisted]
    | refused _ halone hlisted _ _ =>
      rw [halone, hlisted]
      exact ⟨nofun, nofun⟩

/-- A member of a group that stands for every action, although it is no text itself. -/
def everyMember : Value := .member "Role" "EVERY" (.text " All ") "\" All \""

theorem actionsOf_alone_and_listed_everyMember :
    (∃ names, actionsOf (.list [everyMember, .text "Show", everyMember]) = .ok names ∧
        List.Forall₂ (fun w name => Name.action w = .ok name) [everyMember, .text "Show", everyMember] names) ∧
      everyMember.IsSingle ∧ everyMember.IsGenuine ∧ TakesAlike everyMember ∧
      actionsOf everyMember = .ok [Name.everyAction] ∧ actionsOf (.list [everyMember]) = .ok [Name.everyAction] := by
  have hnamed : Name.action everyMember = .ok Name.everyAction := by with_unfolding_all rfl
  have hshown : Name.action (.text "Show") = .ok "show" := by with_unfolding_all rfl
  obtain ⟨hsome, hnames, hsingly⟩ :=
    actionsOf_alone_and_listed [everyMember, .text "Show", everyMember] everyMember
  have hall : ∀ w ∈ [everyMember, .text "Show", everyMember], ∃ name, Name.action w = .ok name := by
    simp [hnamed, hshown]
  obtain ⟨names, hlist⟩ := hsome.2 ⟨List.cons_ne_nil _ _, hall⟩
  have hsingle : everyMember.IsSingle := .member rfl
  have hgenuine : everyMember.IsGenuine := nofun
  obtain ⟨halike, hsame⟩ := hsingly hsingle hgenuine rfl rfl
  have halone : actionsOf everyMember = .ok [Name.everyAction] := by with_unfolding_all rfl
  exact ⟨⟨names, hlist, hnames names hlist⟩, hsingle, hgenuine, halike, halone, hsame.1 halone⟩

/-- A member of a group that is a text and hides what strips it has a name, which a list gives; alone it is refused,
and not for a misconfiguration. -/
theorem actionsOf_stripMember :
    let v : Value := .textMember "Action" "strip" "show"
    v.IsSingle ∧ v.IsGenuine ∧ Name.action v = .ok "show" ∧ actionsOf (.list [v]) = .ok ["show"] ∧
      actionsOf v = .error .wrongKind ∧ Fault.wrongKind.isMisconfiguration = false := by
  refine ⟨.member rfl, nofun, ?_, ?_, rfl, rfl⟩
  · with_unfolding_all rfl
  · with_unfolding_all rfl

end Grant

end Gatehouse
