import Gatehouse.Proofs.Deciding.Meaning

/-!
# Refusal — how declarations fail

A declaration that fails is a misconfiguration: a malformed name, no roles, a condition that cannot be
called, a frozen registry. Everything else comes of the arguments themselves: a sequence that breaks off
while it is gone through, a value that goes too deep to be shown, a text that hides what strips it. Such
faults are passed on as they are.
-/

namespace Gatehouse

theorem bind_eq_error_iff {x : Except Fault α} {next : α → Except Fault β} {f : Fault} :
    (x >>= next) = .error f ↔ x = .error f ∨ ∃ a, x = .ok a ∧ next a = .error f := by
  cases x with
  | error f' => simp [bind, Except.bind]
  | ok a => simp [bind, Except.bind]

theorem eq_error_of_discard {x : Except Fault α} {f : Fault}
    (h : (discard x : Except Fault Unit) = .error f) : x = .error f := by
  cases x with
  | error f' => exact congrArg Except.error (Except.error.inj h)
  | ok a => cases h

/-- A value that can be gone through only once has nothing left in it; any other stays as it is. -/
theorem Value.spent_eq_self_or (v : Value) : v.spent = v ∨ v.spent = .once [] none := by
  cases v with
  | once xs broken => exact .inr rfl
  | _ => exact .inl rfl

/-! ## 1. Faults that arguments bring with them -/

/-- A value that cannot be read as a name: what it stands for hides what strips it. -/
def Value.hidesName (v : Value) : Bool := v.unwrapped.hidesStripping

/-- The faults that come of a value when the roles in it are gone through and looked at. -/
inductive Roles.Bring (v : Value) : Fault → Prop where
  | broken {b : Break} (h : v.break? = some b) : Bring v (.ofBreak b)
  /-- Refused fields are reported with the place they are in. -/
  | refused {issues : List (String × Issue)} (h : v.break? = some (.invalid issues)) :
      Bring v (.invalid (Break.below "roles" issues))
  | deep {f : Fault} (h : (Value.tuple (rolesGiven v)).shown? = .error f) : Bring v f

namespace Grant

/-- The faults that come of the arguments of a declaration. -/
inductive Brings (g : Grant Condition) : Fault → Prop where
  | actions {b : Break} (h : g.actions.break? = some b) : Brings g (.ofBreak b)
  | roles {f : Fault} (h : Roles.Bring g.roles f) : Brings g f
  | objectId {f : Fault} (h : g.objectId.unwrapped.shown? = .error f) : Brings g f

/-- The values that are read as names of actions. -/
def actionsGiven (v : Value) : List Value := v.items?.getD [v]

/-- Some text that is read as a name, or asked whether it stands for all, hides what strips it. -/
def hidesStripping (g : Grant Condition) : Bool :=
  g.resource.hidesName || g.actions.hidesStripping || (actionsGiven g.actions).any Value.hidesName ||
    (rolesGiven g.roles).any Value.hidesStripping

end Grant

theorem Value.eq_tooDeep_of_shown? {v : Value} {f : Fault} (h : v.shown? = .error f) :
    ∃ depth, f = .tooDeep depth := by
  unfold shown? at h
  split at h
  · exact ⟨_, (Except.error.inj h).symm⟩
  · cases h

/-- Whether a fault reports a module that is not there. -/
def Fault.isNoModule : Fault → Bool
  | .noModule _ _ => true
  | _ => false

theorem Fault.isNoModule_of_isMisconfiguration {f : Fault} (h : f.isMisconfiguration = true) :
    f.isNoModule = false := by
  cases f with
  | misconfigured cause => rfl
  | _ => cases h

theorem Fault.isNoModule_ofBreak (b : Break) : (ofBreak b).isNoModule = false := by
  cases b <;> rfl

/-- No argument of a declaration reports a missing module. -/
theorem Grant.Brings.isNoModule {g : Grant Condition} {f : Fault} (h : g.Brings f) :
    f.isNoModule = false := by
  cases h with
  | actions h => exact Fault.isNoModule_ofBreak _
  | roles h =>
    cases h with
    | broken h => exact Fault.isNoModule_ofBreak _
    | refused h => rfl
    | deep h =>
      obtain ⟨depth, rfl⟩ := Value.eq_tooDeep_of_shown? h
      rfl
  | objectId h =>
    obtain ⟨depth, rfl⟩ := Value.eq_tooDeep_of_shown? h
    rfl

/-! ## 2. The arguments one by one -/

namespace Name

theorem read_of_not_hidesName {subject : Subject} {v : Value} (h : v.hidesName = false) : read subject v =
    match v.unwrapped.text? with
    | none => .error (.misconfigured (.notAName subject v.unwrapped.kind))
    | some s =>
        if isWellFormed (canonical s).toList then .ok (canonical s)
        else .error (.misconfigured (.malformedName subject v.unwrapped)) := by
  have hhides : v.unwrapped.hidesStripping = false := h
  unfold read
  rw [hhides]
  rfl

theorem fault_of_read {subject : Subject} {v : Value} {f : Fault} (h : read subject v = .error f) :
    f.isMisconfiguration = true ∨ f = .wrongKind ∧ v.hidesName = true := by
  unfold read at h
  split at h
  · rename_i hhides
    exact .inr ⟨(Except.error.inj h).symm, hhides⟩
  · split at h
    · exact .inl (Except.error.inj h ▸ rfl)
    · split at h
      · cases h
      · exact .inl (Except.error.inj h ▸ rfl)

theorem fault_of_action {v : Value} {f : Fault} (h : action v = .error f) :
    f.isMisconfiguration = true ∨ f = .wrongKind ∧ v.hidesName = true := by
  unfold action at h
  split at h
  · cases h
  · exact fault_of_read h

theorem fault_of_mapM_action {vs : List Value} {f : Fault} (h : vs.mapM action = .error f) :
    f.isMisconfiguration = true ∨ f = .wrongKind ∧ vs.any Value.hidesName = true := by
  induction vs with
  | nil => cases h
  | cons v rest ih =>
    rw [List.mapM_cons] at h
    rw [List.any_cons, Bool.or_eq_true]
    obtain h | ⟨_, -, h⟩ := bind_eq_error_iff.1 h
    · exact (fault_of_action h).imp_right fun hhides => ⟨hhides.1, .inl hhides.2⟩
    · obtain h | ⟨_, -, h⟩ := bind_eq_error_iff.1 h
      · exact (ih h).imp_right fun hhides => ⟨hhides.1, .inr hhides.2⟩
      · cases h

/-- A collection is no text, and so stands for nothing but what is in it. -/
theorem standsForAll_of_items? {v : Value} {items : List Value} (h : v.items? = some items) :
    standsForAll v = .ok false := by
  have hnone : v.text? = none := by
    cases htext : v.text? with
    | none => rfl
    | some s => cases (items?_of_text? htext).symm.trans h
  unfold standsForAll Value.hidesStripping isWildcard
  rw [hnone]
  rfl

theorem fault_of_standsForAll {v : Value} {f : Fault} (h : standsForAll v = .error f) :
    f = .wrongKind ∧ v.hidesStripping = true := by
  unfold standsForAll at h
  split at h
  · rename_i hhides
    exact ⟨(Except.error.inj h).symm, hhides⟩
  · cases h

theorem fault_of_anyM_standsForAll {vs : List Value} {f : Fault}
    (h : vs.anyM standsForAll = .error f) :
    f = .wrongKind ∧ vs.any Value.hidesStripping = true := by
  induction vs with
  | nil => cases h
  | cons v rest ih =>
    rw [List.anyM] at h
    rw [List.any_cons, Bool.or_eq_true]
    obtain h | ⟨first, -, h⟩ := bind_eq_error_iff.1 h
    · obtain ⟨hf, hhides⟩ := fault_of_standsForAll h
      exact ⟨hf, .inl hhides⟩
    · cases first with
      | true => cases h
      | false =>
        obtain ⟨hf, hhides⟩ := ih h
        exact ⟨hf, .inr hhides⟩

end Name

theorem Value.fault_of_finish {v : Value} {f : Fault} (h : v.finish = .error f) :
    ∃ b, v.break? = some b ∧ f = .ofBreak b := by
  unfold finish at h
  split at h
  · rename_i b hb
    exact ⟨b, hb, (Except.error.inj h).symm⟩
  · cases h

theorem Grant.fault_of_actionsOf {v : Value} {f : Fault} (h : actionsOf v = .error f) :
    f.isMisconfiguration = true ∨ (∃ b, v.break? = some b ∧ f = .ofBreak b) ∨
      f = .wrongKind ∧ (v.hidesStripping || (actionsGiven v).any Value.hidesName) = true := by
  unfold actionsOf at h
  split at h
  · exact .inl (Except.error.inj h ▸ rfl)
  · rw [Bool.or_eq_true]
    obtain h | ⟨wild, -, h⟩ := bind_eq_error_iff.1 h
    · obtain ⟨hf, hhides⟩ := Name.fault_of_standsForAll h
      exact .inr (.inr ⟨hf, .inl hhides⟩)
    · cases wild with
      | true => cases h
      | false =>
        simp only [Bool.false_eq_true, if_false] at h
        obtain h | ⟨names, -, h⟩ := bind_eq_error_iff.1 h
        · obtain hmis | ⟨hf, hhides⟩ := Name.fault_of_mapM_action h
          · exact .inl hmis
          · exact .inr (.inr ⟨hf, .inr hhides⟩)
        · obtain h | ⟨_, -, h⟩ := bind_eq_error_iff.1 h
          · exact .inr (.inl (Value.fault_of_finish h))
          · cases names with
            | nil => exact .inl (Except.error.inj h ▸ rfl)
            | cons name rest => cases h

theorem Roles.fault_of_listed {vs : List Value} {f : Fault} (h : listed vs = .error f) :
    (Value.tuple vs).shown? = .error f := by
  unfold listed at h
  split at h
  · cases h
  · rename_i hshown
    rw [hshown, Except.error.inj h]

theorem Roles.fault_of_read {v : Value} {f : Fault} (h : read v = .error f) :
    f.isMisconfiguration = true ∨ Bring v f ∨
      f = .wrongKind ∧ (rolesGiven v).any Value.hidesStripping = true := by
  unfold read at h
  split at h
  · exact .inl (Except.error.inj h ▸ rfl)
  · cases h
  · rename_i hbytes
    obtain h | ⟨wild, -, h⟩ := bind_eq_error_iff.1 h
    -- Only a text is asked in vain, and a text is the only role given.
    · obtain ⟨hf, hhides⟩ := Name.fault_of_standsForAll h
      have htext : v.text?.isSome = true := (Bool.and_eq_true_iff.1 hhides).1
      obtain ⟨s, hs⟩ := Option.isSome_iff_exists.1 htext
      rw [rolesGiven_of_none (items?_of_text? hs)]
      exact .inr (.inr ⟨hf, by rw [List.any_cons, hhides, Bool.true_or]⟩)
    · cases wild with
      | true => cases h
      | false =>
        simp only [Bool.false_eq_true, if_false] at h
        split at h
        · rename_i hitems
          have hlisted := fault_of_listed h
          rw [← rolesGiven_of_none hitems] at hlisted
          exact .inr (.inl (.deep hlisted))
        · rename_i items hitems
          have hgiven : rolesGiven v = items := rolesGiven_of_items? (fun bs hb => hbytes bs hb) hitems
          -- Going through the items may break off before any of them is looked at.
          split at h
          · rename_i issues hbreak
            exact .inr (.inl (Except.error.inj h ▸ .refused hbreak))
          · rename_i b _ hbreak
            exact .inr (.inl (Except.error.inj h ▸ .broken hbreak))
          · exact .inl (Except.error.inj h ▸ rfl)
          · obtain h | ⟨any, -, h⟩ := bind_eq_error_iff.1 h
            · exact .inr (.inr (hgiven ▸ Name.fault_of_anyM_standsForAll h))
            · cases any with
              | true => cases h
              | false =>
                have hlisted := fault_of_listed h
                rw [← hgiven] at hlisted
                exact .inr (.inl (.deep hlisted))

namespace Rule

theorem fault_of_readGuard {guard : Guard Condition} {f : Fault} (h : readGuard guard = .error f) :
    f.isMisconfiguration = true := by
  unfold readGuard at h
  split at h
  · cases h
  · cases h
  · cases h
  · exact Except.error.inj h ▸ rfl

theorem fault_of_readObjectId {v : Value} {f : Fault} (h : readObjectId v = .error f) :
    f.isMisconfiguration = true ∨ v.unwrapped.shown? = .error f := by
  unfold readObjectId at h
  split at h
  · cases h
  · split at h
    · split at h
      · exact .inl (Except.error.inj h ▸ rfl)
      · cases h
    -- Anything but a text is shown in the message.
    · have hf := Except.error.inj h
      unfold Fault.showing at hf
      split at hf
      · exact .inl (hf ▸ rfl)
      · rename_i hshown
        exact .inr (hf ▸ hshown)

end Rule

/-! ## 3. Whole declarations -/

/-- What goes wrong in a declaration: a misconfiguration, a fault of its own arguments, or a text that
cannot be stripped. -/
def Grant.FailsWith (g : Grant Condition) (f : Fault) : Prop :=
  f.isMisconfiguration = true ∨ g.Brings f ∨ f = .wrongKind ∧ g.hidesStripping = true

namespace Rule

variable {g : Grant Condition} {serial : Nat} {f : Fault}

theorem fault_of_make (h : make serial g.roles g.guard g.objectId = .error f) : g.FailsWith f := by
  -- Whatever a field ends in, its fault is one of the grant.
  have hroles : ∀ {f'}, Roles.read g.roles = .error f' → g.FailsWith f' := fun hread =>
    (Roles.fault_of_read hread).imp_right fun hrest =>
      hrest.imp .roles fun hhides => ⟨hhides.1, by simp [Grant.hidesStripping, hhides.2]⟩
  have hkey : readObjectId g.objectId = .error f → g.FailsWith f := fun hread =>
    (fault_of_readObjectId hread).imp_right fun hshown => .inl (.objectId hshown)
  unfold make at h
  split at h
  · rename_i issues hread
    unfold refuse at h
    obtain h | ⟨_, -, h⟩ := bind_eq_error_iff.1 h
    · exact .inl (fault_of_readGuard (eq_error_of_discard h))
    · obtain h | ⟨_, -, h⟩ := bind_eq_error_iff.1 h
      · exact hkey (eq_error_of_discard h)
      · exact hroles (Except.error.inj h ▸ hread)
  · rename_i hread
    exact hroles (Except.error.inj h ▸ hread)
  · obtain h | ⟨_, -, h⟩ := bind_eq_error_iff.1 h
    · exact .inl (fault_of_readGuard h)
    · obtain h | ⟨_, -, h⟩ := bind_eq_error_iff.1 h
      · exact hkey h
      · cases h

/-- What is left of roles that have been gone through does no more harm than they did. -/
theorem fault_of_make_spent (h : make serial g.roles.spent g.guard g.objectId = .error f) :
    g.FailsWith f := by
  obtain hsame | hnothing := g.roles.spent_eq_self_or
  · rw [hsame] at h
    exact fault_of_make h
  · rw [hnothing] at h
    exact .inl (Except.error.inj h ▸ rfl)

theorem fault_of_series {count : Nat} {roles : Value} (hroles : roles = g.roles ∨ roles = g.roles.spent)
    (h : series g.guard g.objectId count serial roles = .error f) : g.FailsWith f := by
  induction count generalizing serial roles with
  | zero => cases h
  | succ count ih =>
    obtain h | ⟨rule, -, h⟩ := bind_eq_error_iff.1 h
    · rcases hroles with rfl | rfl
      · exact fault_of_make h
      · exact fault_of_make_spent h
    · obtain h | ⟨rest, -, h⟩ := bind_eq_error_iff.1 h
      · refine ih (.inr ?_) h
        rcases hroles with rfl | rfl
        · rfl
        · cases g.roles <;> rfl
      · cases h

end Rule

namespace Registry

variable {reg : Registry} {g : Grant Condition} {serial : Nat} {f : Fault}

theorem fault_of_permit (h : reg.permit serial g = .error f) : g.FailsWith f := by
  unfold permit at h
  obtain h | ⟨resource, -, h⟩ := bind_eq_error_iff.1 h
  · obtain hmis | ⟨hf, hhides⟩ := Name.fault_of_read h
    · exact .inl hmis
    · exact .inr (.inr ⟨hf, by simp [Grant.hidesStripping, hhides]⟩)
  · obtain h | ⟨actions, -, h⟩ := bind_eq_error_iff.1 h
    · obtain hmis | ⟨b, hbreak, rfl⟩ | ⟨hf, hhides⟩ := Grant.fault_of_actionsOf h
      · exact .inl hmis
      · exact .inr (.inl (.actions hbreak))
      · refine .inr (.inr ⟨hf, ?_⟩)
        unfold Grant.hidesStripping
        rw [Bool.or_assoc g.resource.hidesName, hhides, Bool.or_true, Bool.true_or]
    · obtain h | ⟨rules, -, h⟩ := bind_eq_error_iff.1 h
      · exact Rule.fault_of_series (.inl rfl) h
      · cases hfrozen : reg.frozen with
        | true =>
          rw [hfrozen] at h
          cases h
          exact .inl rfl
        | false =>
          rw [hfrozen] at h
          cases h

theorem isNoModule_of_permit (h : reg.permit serial g = .error f) : f.isNoModule = false := by
  obtain hmis | hbrings | ⟨rfl, -⟩ := fault_of_permit h
  · exact Fault.isNoModule_of_isMisconfiguration hmis
  · exact hbrings.isNoModule
  · rfl

/-- A frozen registry accepts nothing. -/
theorem permit_of_frozen (hf : reg.frozen = true) (serial : Nat) (g : Grant Condition) :
    ∃ f, reg.permit serial g = .error f ∧ g.FailsWith f := by
  cases hp : reg.permit serial g with
  | error f => exact ⟨f, rfl, fault_of_permit hp⟩
  | ok out =>
    obtain ⟨_, _, -, -, -, hopen, -⟩ := permit_eq_ok_iff.1 hp
    rw [hf] at hopen
    cases hopen

end Registry

end Gatehouse
