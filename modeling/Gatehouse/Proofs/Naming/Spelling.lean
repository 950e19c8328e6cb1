import Mathlib.Data.List.Forall2
import Gatehouse.Engine
import Gatehouse.Proofs.Registry.Refusal

/-!
# Spelling — values that give one name

A name may be written in capital letters, with blanks around it, or as a member of a group whose value is such
a text. Whatever reads a name reads its canonical form, and all that is left of the spelling is in the text of
a misconfiguration. This is shown here for single names, for the actions of a declaration, and for requests on
their way to a check.
-/

namespace Gatehouse

/-! ## 1. Results that differ in messages only -/

/-- Two faults that are the same or both misconfigurations. -/
def Fault.Agrees (f f' : Fault) : Prop :=
  f' = f ∨ (f.isMisconfiguration = true ∧ f'.isMisconfiguration = true)

/-- Two results that are related, or faults that agree. -/
inductive Agree (R : α → β → Prop) : Except Fault α → Except Fault β → Prop where
  | ok {a : α} {b : β} (h : R a b) : Agree R (.ok a) (.ok b)
  | error {f f' : Fault} (h : f.Agrees f') : Agree R (.error f) (.error f')

theorem Fault.agrees_misconfigured (c c' : Misconfiguration) : (misconfigured c).Agrees (misconfigured c') :=
  .inr ⟨rfl, rfl⟩

namespace Agree

variable {R : α → β → Prop} {S : γ → δ → Prop}

theorem same {R : α → α → Prop} (h : ∀ a, R a a) (x : Except Fault α) : Agree R x x := by
  cases x with
  | error f => exact .error (.inl rfl)
  | ok a => exact .ok (h a)

theorem of_eq {x x' : Except Fault α} (h : x' = x) : Agree Eq x x' := by
  rw [h]
  exact same (fun _ => rfl) x

theorem bind {x : Except Fault α} {x' : Except Fault β} {next : α → Except Fault γ}
    {next' : β → Except Fault δ} (hx : Agree R x x') (hnext : ∀ a b, R a b → Agree S (next a) (next' b)) :
    Agree S (x >>= next) (x' >>= next') := by
  cases hx with
  | error h => exact .error h
  | ok h => exact hnext _ _ h

theorem map {x : Except Fault α} {x' : Except Fault β} {f : α → γ} {f' : β → δ} (hx : Agree R x x')
    (hf : ∀ a b, R a b → S (f a) (f' b)) : Agree S (x.map f) (x'.map f') := by
  cases hx with
  | error h => exact .error h
  | ok h => exact .ok (hf _ _ h)

theorem discard {x : Except Fault α} {x' : Except Fault β} (hx : Agree R x x') :
    Agree Eq (discard x : Except Fault Unit) (discard x') := by
  cases hx with
  | error h => exact .error h
  | ok h => exact .ok rfl

end Agree

/-! ## 2. Single names -/

namespace Value

/-- The name that a value gives: the canonical form of the text that it is or stands for. An action that is made
by hand gives none, because it is left as it is, and neither does a text that hides what strips it. -/
def givenName? : Value → Option String
  | .action _ => none
  | v => if v.hidesName then none else v.unwrapped.text?.map Name.canonical

/-- A value in another spelling, if it gives a name; else the same. -/
def Respells (v v' : Value) : Prop := v' = v ∨ ∃ name, v.givenName? = some name ∧ v'.givenName? = some name

variable {v v' : Value}

theorem Respells.refl (v : Value) : Respells v v := .inl rfl

theorem respells_text {s t : String} (h : Name.canonical t = Name.canonical s) :
    Respells (.text s) (.text t) :=
  .inr ⟨Name.canonical s, rfl, congrArg some h⟩

theorem Respells.null_iff (h : Respells v v') : v' = .null ↔ v = .null := by
  rcases h with rfl | ⟨name, hv, hv'⟩
  · rfl
  · constructor
    · rintro rfl
      cases hv'
    · rintro rfl
      cases hv

theorem unwrapped_of_givenName? {name : String} (h : v.givenName? = some name) :
    v.hidesName = false ∧ ∃ s, v.unwrapped.text? = some s ∧ Name.canonical s = name := by
  have hgiven : (if v.hidesName then none else v.unwrapped.text?.map Name.canonical) = some name := by
    cases v with
    | action s => cases h
    | _ => exact h
  cases hhides : v.hidesName with
  | true =>
    rw [hhides] at hgiven
    cases hgiven
  | false =>
    rw [hhides] at hgiven
    exact ⟨rfl, Option.map_eq_some_iff.1 hgiven⟩

/-- What is a text itself, and no action made by hand, gives the name that is left of this text. -/
theorem givenName?_of_text? {s : String} (hmade : ∀ made, v ≠ .action made) (h : v.text? = some s) :
    v.givenName? = some (Name.canonical s) := by
  cases v with
  | text _ | textMember _ _ _ | all =>
    cases h
    rfl
  | action made => exact absurd rfl (hmade made)
  | _ => cases h

end Value

namespace Name

variable {v v' : Value} {name : String}

theorem read_of_givenName? (subject : Subject) (h : v.givenName? = some name) : read subject v =
    if isWellFormed name.toList then .ok name
    else .error (.misconfigured (.malformedName subject v.unwrapped)) := by
  obtain ⟨hhides, s, hs, rfl⟩ := Value.unwrapped_of_givenName? h
  rw [read_of_not_hidesName hhides, hs]

theorem action_of_givenName? (h : v.givenName? = some name) : action v = read .action v := by
  cases v with
  | action s => cases h
  | _ => rfl

theorem read_agrees (subject : Subject) (h : v.Respells v') : Agree Eq (read subject v) (read subject v') := by
  rcases h with rfl | ⟨name, hv, hv'⟩
  · exact .of_eq rfl
  · rw [read_of_givenName? subject hv, read_of_givenName? subject hv']
    cases isWellFormed name.toList with
    | true => exact .ok rfl
    | false => exact .error (Fault.agrees_misconfigured _ _)

theorem action_agrees (h : v.Respells v') : Agree Eq (action v) (action v') := by
  rcases h with rfl | ⟨name, hv, hv'⟩
  · exact .of_eq rfl
  · rw [action_of_givenName? hv, action_of_givenName? hv']
    exact read_agrees .action (.inr ⟨name, hv, hv'⟩)

end Name

/-! ## 3. The actions of a declaration -/

namespace Grant

variable {v v' : Value}

/-- Actions in another spelling: a single one, unless it hides what strips it, or each of several. -/
inductive RespellsActions : Value → Value → Prop where
  | same (v : Value) : RespellsActions v v
  | one {v v' : Value} (h : v.Respells v') (hv : v.hidesStripping = false) (hv' : v'.hidesStripping = false) :
      RespellsActions v v'
  | each {v v' : Value} {items items' : List Value} (hitems : v.items? = some items)
      (hitems' : v'.items? = some items') (h : List.Forall₂ Value.Respells items items')
      (hbreak : v'.break? = v.break?) : RespellsActions v v'

theorem items?_of_givenName? {name : String} (h : v.givenName? = some name) : v.items? = none := by
  cases v with
  | bytes _ | list _ | tuple _ | set _ | dict _ | once _ _ | account _ _ _ _ | request _ _ _ _ => cases h
  | _ => rfl

theorem finish_of_items?_none (h : v.items? = none) : v.finish = .ok () := by
  cases v with
  | once _ _ => cases h
  | _ => rfl

theorem standsForAll_of_not_hides (h : v.hidesStripping = false) :
    Name.standsForAll v = .ok (Name.isWildcard v) := by
  unfold Name.standsForAll
  rw [h]
  rfl

/-- What stands for every action gives the name of every action, if it would not be left as it is. -/
theorem action_of_isWildcard (hmade : ∀ made, v = .action made → Name.isWellFormed made.toList = true)
    (hwild : Name.isWildcard v = true) : Name.action v = .ok Name.everyAction := by
  unfold Name.isWildcard at hwild
  cases htext : v.text? with
  | none =>
    rw [htext] at hwild
    cases hwild
  | some s =>
    rw [htext] at hwild
    have hall : Name.canonical s = "all" := beq_iff_eq.1 hwild
    by_cases haction : ∃ made, v = .action made
    · obtain ⟨made, rfl⟩ := haction
      cases htext
      exact congrArg Except.ok ((Name.canonical_of_isWellFormed (hmade s rfl)).symm.trans hall)
    · have hgiven := Value.givenName?_of_text? (not_exists.1 haction) htext
      rw [hall] at hgiven
      rw [Name.action_of_givenName? hgiven, Name.read_of_givenName? .action hgiven]
      rfl

/-- A single action gives its name: the one for every action is a name like any other. -/
theorem actionsOf_of_items?_none (hnull : v ≠ .null) (hitems : v.items? = none) (hv : v.hidesStripping = false)
    (hmade : ∀ made, v = .action made → Name.isWellFormed made.toList = true) :
    actionsOf v = (Name.action v).map fun action => [action] := by
  have hfinish : v.finish = .ok () := finish_of_items?_none hitems
  unfold actionsOf
  split
  · exact absurd rfl hnull
  · rw [standsForAll_of_not_hides hv, hitems, hfinish]
    cases hwild : Name.isWildcard v with
    | true =>
      rw [action_of_isWildcard hmade hwild]
      rfl
    | false =>
      cases haction : Name.action v with
      | error f => simp [haction, bind, Except.bind, Except.map]
      | ok action => simp [haction, bind, Except.bind, Except.map, pure, Except.pure]

theorem actionsOf_of_givenName? {name : String} (h : v.givenName? = some name) (hv : v.hidesStripping = false) :
    actionsOf v = (Name.action v).map fun action => [action] := by
  refine actionsOf_of_items?_none ?_ (items?_of_givenName? h) hv ?_
  · rintro rfl
    cases h
  · rintro made rfl
    cases h

theorem mapM_action_agrees {items items' : List Value} (h : List.Forall₂ Value.Respells items items') :
    Agree Eq (items.mapM Name.action) (items'.mapM Name.action) := by
  induction h with
  | nil => exact .of_eq rfl
  | cons hv _ ih =>
    rw [List.mapM_cons, List.mapM_cons]
    apply Agree.bind (Name.action_agrees hv)
    rintro name _ rfl
    apply ih.bind
    rintro names _ rfl
    exact .of_eq rfl

theorem actionsOf_of_items? {items : List Value} (h : v.items? = some items) : actionsOf v = (do
    let names ← items.mapM Name.action
    v.finish
    if names.isEmpty then throw (.misconfigured .noActions)
    return names) := by
  have hnull : v ≠ .null := by
    rintro rfl
    cases h
  unfold actionsOf
  split
  · exact absurd rfl hnull
  · rw [Name.standsForAll_of_items? h, h]
    rfl

theorem actionsOf_agrees (h : RespellsActions v v') : Agree Eq (actionsOf v) (actionsOf v') := by
  cases h with
  | same => exact .of_eq rfl
  | one h hv hv' =>
    have hnames := Name.action_agrees h
    rcases h with rfl | ⟨name, hname, hname'⟩
    · exact .of_eq rfl
    · rw [actionsOf_of_givenName? hname hv, actionsOf_of_givenName? hname' hv']
      exact hnames.map fun _ _ hsame => congrArg (fun action => [action]) hsame
  | each hitems hitems' h hbreak =>
    have hfinish : v'.finish = v.finish := by
      unfold Value.finish
      rw [hbreak]
    rw [actionsOf_of_items? hitems, actionsOf_of_items? hitems', hfinish]
    apply (mapM_action_agrees h).bind
    rintro names _ rfl
    exact .of_eq rfl

end Grant

end Gatehouse
