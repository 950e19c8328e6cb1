import Gatehouse.Proofs.Deciding.Walk
import Gatehouse.Proofs.Registry.History
import Gatehouse.Proofs.Registry.Making

/-!
# Meaning — what declarations amount to in a decision

A request is allowed exactly if one of the declarations speaks for it: on its resource, for its action, to
its user, and with a condition that holds. Nothing else about the history counts, neither the order of the
declarations nor what is declared besides. The way goes from a grant to the rules made of it, from there to
the verdicts of the candidates, and ends with a walk in which no candidate fails.
-/

namespace Gatehouse

/-! ## 1. What a grant says about a request -/

/-- A condition that always answers when it is asked about this user. -/
def Condition.ReturnsFor (user : Value) (c : Condition) : Prop :=
  ∃ f, c = .answer f ∧ ∀ object, ∃ v, f user object = .ok v

/-- The roles that a grant lists: those of a collection, and any other value is the only one. -/
def rolesGiven : Value → List Value
  | .bytes bs => [.bytes bs]
  | v => v.items?.getD [v]

/-- Somebody's own role is one of these, or these stand for every role. -/
def AdmitsRole (roles : List Value) (user : Value) : Prop :=
  ∃ role ∈ roles, Name.isWildcard role = true ∨
    user ≠ .null ∧ ∃ own, user.role? = some own ∧ Value.equals role own = true

/-- The grant carries no condition, or one that holds for the object it asks about. -/
def Grant.ConditionHolds (g : Grant Condition) (check : Check) : Prop :=
  ∀ c, g.guard = .callable c → ∃ f key v, c = .answer f ∧ Rule.readObjectId g.objectId = .ok key ∧
    f check.user ((check.ids.get? key).getD .null) = .ok v ∧ v.truthy = true

/-- A grant that alone is reason enough to allow a request. -/
structure Grant.SpeaksFor (g : Grant Condition) (e : Engine) (check : Check) : Prop where
  resource : ∃ resource, Name.resource g.resource = .ok resource ∧
    (resource = check.resource ∨ resource = e.fallback)
  action : ∃ actions, Grant.actionsOf g.actions = .ok actions ∧
    (Name.everyAction ∈ actions ∨ check.action ∈ actions)
  roles : AdmitsRole (rolesGiven g.roles) check.user
  condition : g.ConditionHolds check

/-! ## 2. Roles -/

theorem isWildcard_of_standsForAll {v : Value} {wild : Bool} (h : Name.standsForAll v = .ok wild) :
    Name.isWildcard v = wild := by
  unfold Name.standsForAll at h
  split at h
  · cases h
  · exact Except.ok.inj h

theorem anyM_standsForAll {vs : List Value} {wild : Bool}
    (h : vs.anyM Name.standsForAll = .ok wild) : vs.any Name.isWildcard = wild := by
  induction vs with
  | nil =>
    cases h
    rfl
  | cons v rest ih =>
    -- The search goes on only past values that stand for nothing but themselves.
    rw [List.anyM] at h
    obtain ⟨first, hfirst, h⟩ := bind_eq_ok_iff.1 h
    have hv : Name.isWildcard v = first := isWildcard_of_standsForAll hfirst
    rw [List.any_cons, hv]
    cases first with
    | true =>
      cases h
      rfl
    | false => exact ih h

theorem items?_of_text? {v : Value} {s : String} (h : v.text? = some s) : v.items? = none := by
  cases v with
  | bytes _ | list _ | tuple _ | set _ | dict _ | once _ _ | account _ _ _ _ | request _ _ _ _ => cases h
  | _ => rfl

theorem rolesGiven_of_items? {v : Value} {items : List Value} (hbytes : ∀ bs, v ≠ .bytes bs)
    (h : v.items? = some items) : rolesGiven v = items := by
  unfold rolesGiven
  split
  · exact absurd rfl (hbytes _)
  · rw [h, Option.getD_some]

theorem rolesGiven_of_none {v : Value} (h : v.items? = none) : rolesGiven v = [v] := by
  unfold rolesGiven
  split
  · cases h
  · rw [h, Option.getD_none]

namespace Roles

theorem eq_of_listed {vs : List Value} {roles : Roles} (h : listed vs = .ok roles) :
    roles = .among vs := by
  unfold listed at h
  split at h
  · exact (Except.ok.inj h).symm
  · cases h

/-- Roles as they were read: every role if one of those given stands for all, and otherwise all those given. -/
theorem of_read {v : Value} {roles : Roles} (h : read v = .ok roles) :
    roles = .everyone ∧ (rolesGiven v).any Name.isWildcard = true ∨
      roles = .among (rolesGiven v) ∧ (rolesGiven v).any Name.isWildcard = false := by
  unfold read at h
  split at h
  · cases h
  · exact .inr ⟨(Except.ok.inj h).symm, rfl⟩
  · rename_i hbytes
    -- First the value as a whole is asked, and then, in a collection, each item.
    obtain ⟨wild, hwild, h⟩ := bind_eq_ok_iff.1 h
    have hv : Name.isWildcard v = wild := isWildcard_of_standsForAll hwild
    cases wild with
    | true =>
      -- Only a text stands for all, and a text is no collection.
      have hitems : v.items? = none := by
        unfold Name.isWildcard at hv
        split at hv
        · rename_i s hs
          exact items?_of_text? hs
        · cases hv
      rw [rolesGiven_of_none hitems, List.any_cons, hv]
      exact .inl ⟨(Except.ok.inj h).symm, rfl⟩
    | false =>
      simp only [Bool.false_eq_true, if_false] at h
      split at h
      · rename_i hitems
        rw [rolesGiven_of_none hitems, List.any_cons, hv]
        exact .inr ⟨eq_of_listed h, rfl⟩
      · rename_i items hitems
        rw [rolesGiven_of_items? (fun bs hb => hbytes bs hb) hitems]
        split at h
        · cases h
        · cases h
        · cases h
        · rename_i items _ _ _ _
          obtain ⟨any, hany, h⟩ := bind_eq_ok_iff.1 h
          have hitemsAny : items.any Name.isWildcard = any := anyM_standsForAll hany
          cases any with
          | true => exact .inl ⟨(Except.ok.inj h).symm, hitemsAny⟩
          | false => exact .inr ⟨eq_of_listed h, hitemsAny⟩

theorem cover_among {roles : List Value} {user own : Value} (hnull : user ≠ .null)
    (hown : user.role? = some own) :
    (among roles).cover user = .ok (roles.any fun r => Value.equals r own) := by
  have hrole : Principal.role user = .ok own := by
    unfold Principal.role
    rw [hown]
  unfold cover
  split
  · rename_i heq
    cases heq
  · exact absurd rfl hnull
  · rename_i heq _
    cases heq
    rw [bind_of_eq_ok hrole]
    rfl

/-- Whether roles admit somebody is always settled for nobody at all and for those who have a role. -/
theorem cover_of_read {v user : Value} {roles : Roles} (h : read v = .ok roles)
    (huser : user = .null ∨ user.role?.isSome = true) :
    ∃ covered, roles.cover user = .ok covered ∧
      (covered = true ↔ AdmitsRole (rolesGiven v) user) := by
  unfold AdmitsRole
  obtain ⟨rfl, hwild⟩ | ⟨rfl, hwild⟩ := of_read h
  · obtain ⟨role, hmem, hrole⟩ := List.any_eq_true.1 hwild
    exact ⟨true, rfl, fun _ => ⟨role, hmem, .inl hrole⟩, fun _ => rfl⟩
  -- Among roles that are listed none stands for all, so a role has to be somebody's own.
  · have hnone : ∀ role ∈ rolesGiven v, ¬ Name.isWildcard role = true := List.any_eq_false.1 hwild
    by_cases hnull : user = .null
    · subst hnull
      refine ⟨false, rfl, nofun, ?_⟩
      rintro ⟨role, hmem, hrole | ⟨hne, -⟩⟩
      · exact absurd hrole (hnone role hmem)
      · exact absurd rfl hne
    · obtain ⟨own, hown⟩ := Option.isSome_iff_exists.1 (huser.resolve_left hnull)
      refine ⟨_, cover_among hnull hown, ?_⟩
      rw [List.any_eq_true]
      constructor
      · rintro ⟨role, hmem, hequal⟩
        exact ⟨role, hmem, .inr ⟨hnull, own, hown, hequal⟩⟩
      · rintro ⟨role, hmem, hrole | ⟨-, own', hown', hequal⟩⟩
        · exact absurd hrole (hnone role hmem)
        · rw [hown, Option.some.injEq] at hown'
          subst hown'
          exact ⟨role, hmem, hequal⟩

end Roles

/-! ## 3. The verdict of a rule made of a grant -/

namespace Rule

/-- The answer to a rule's condition is the answer to its grant's. -/
theorem conditionHolds_iff {r : Rule} {g : Grant Condition} {check : Check} {v : Value}
    {f : Value → Value → Except Fault Value} (h : r.IsMadeOf g) (hguard : g.guard = .callable (.answer f))
    (hv : f check.user (check.object r) = .ok v) : g.ConditionHolds check ↔ v.truthy = true := by
  unfold Grant.ConditionHolds
  constructor
  · intro hall
    obtain ⟨f', key, v', hf', hkey, hv', htrue⟩ := hall _ hguard
    cases hf'
    -- A grant has one key, so what it asked about is what the rule asked about.
    have hsame : key = r.objectId := Except.ok.inj (hkey.symm.trans h.objectId)
    subst hsame
    have hvalue : v' = v := Except.ok.inj (hv'.symm.trans hv)
    rwa [← hvalue]
  · intro htrue c hc
    cases hguard.symm.trans hc
    exact ⟨f, r.objectId, v, rfl, h.objectId, hv, htrue⟩

/-- The verdict of a rule, in the words of its grant. -/
theorem verdict_of_isMadeOf {r : Rule} {g : Grant Condition} {check : Check} (h : r.IsMadeOf g)
    (huser : check.user = .null ∨ check.user.role?.isSome = true)
    (hreturns : ∀ c, g.guard = .callable c → c.ReturnsFor check.user) :
    ∃ admitted, r.verdict check = .ok admitted ∧
      (admitted = true ↔ AdmitsRole (rolesGiven g.roles) check.user ∧ g.ConditionHolds check) := by
  obtain ⟨covered, hcover, hcovered⟩ := Roles.cover_of_read h.roles huser
  have hcondition := h.condition
  unfold verdict
  rw [hcover, ← hcovered]
  by_cases hguard : ∃ c, g.guard = .callable c
  · obtain ⟨c, hc⟩ := hguard
    obtain ⟨f, rfl, hf⟩ := hreturns c hc
    rw [hc] at hcondition
    rw [condition_of_readGuard_callable hcondition]
    obtain ⟨v, hv⟩ := hf (check.object r)
    rw [conditionHolds_iff h hc hv]
    -- The condition is asked only if the role is right.
    cases covered with
    | false => exact ⟨false, rfl, by simp⟩
    | true =>
      refine ⟨v.truthy, ?_, by simp⟩
      change (f check.user (check.object r)).map Value.truthy = _
      rw [hv]
      rfl
  · have hnone : r.condition = none := by
      cases hc : r.condition with
      | none => rfl
      | some c => exact absurd ⟨c, guard_of_condition h hc⟩ hguard
    -- A rule without a condition comes from a grant without one.
    have hholds : g.ConditionHolds check := fun c hc => absurd ⟨c, hc⟩ hguard
    rw [hnone]
    refine ⟨covered, ?_, by simp [hholds]⟩
    cases covered <;> rfl

end Rule

/-! ## 4. From histories to candidates -/

namespace Registry

theorem isMadeOf_of_mem_noteAll {i : Nat} {w : World} {history : List Declaration}
    (h : ∀ d ∈ history, ∀ r ∈ d.rules, r.IsMadeOf d.grant) (ops : List Operation) :
    ∀ d ∈ Operation.noteAll i ops w history, ∀ r ∈ d.rules, r.IsMadeOf d.grant := by
  induction ops generalizing w history with
  | nil => exact h
  | cons op rest ih =>
    refine ih ?_
    cases op with
    | permit grant =>
      rw [Operation.note]
      cases hp : (w.registry i).permit w.nextRule grant with
      | error f =>
        rw [Run.permit_of_error hp]
        exact h
      | ok out =>
        rw [Run.permit_of_ok hp]
        intro d hd
        rcases List.mem_append.1 hd with hd | hd
        · exact h d hd
        · rw [List.mem_singleton.1 hd]
          exact Rule.isMadeOf_of_permit hp
    | clear =>
      rw [Operation.note]
      split
      · exact fun d hd => absurd hd List.not_mem_nil
      · exact h
    | _ => exact h

theorem isMadeOf_of_mem_historyOf (i : Nat) (ops : List Operation) (w : World) :
    ∀ d ∈ historyOf i ops w, ∀ r ∈ d.rules, r.IsMadeOf d.grant :=
  isMadeOf_of_mem_noteAll (fun _ hd => absurd hd List.not_mem_nil) ops

theorem mem_bucket_iff {reg : Registry} {history : List Declaration} (h : reg.IsLogOf history)
    {resource action : String} {r : Rule} :
    r ∈ reg.bucket resource action ↔ ∃ d ∈ history, ∃ actions,
      Name.resource d.grant.resource = .ok resource ∧
      Grant.actionsOf d.grant.actions = .ok actions ∧ (action, r) ∈ actions.zip d.rules := by
  -- A bucket is a part of the log, and the log is made of the declarations.
  rw [h.reflects.rules]
  unfold occurrencesIn
  simp only [List.mem_map, List.mem_filter, List.mem_flatMap, decide_eq_true_eq]
  constructor
  · rintro ⟨o, ⟨⟨d, hd, ho⟩, rfl, rfl⟩, rfl⟩
    obtain ⟨resource, actions, hr, ha, -⟩ := h.complete d hd
    unfold Declaration.occurrences at ho
    rw [hr, ha] at ho
    obtain ⟨entry, hentry, rfl⟩ := List.mem_map.1 ho
    exact ⟨d, hd, actions, hr, ha, hentry⟩
  · rintro ⟨d, hd, actions, hr, ha, hentry⟩
    refine ⟨⟨resource, action, r⟩, ⟨⟨d, hd, ?_⟩, rfl, rfl⟩, rfl⟩
    unfold Declaration.occurrences
    rw [hr, ha]
    exact List.mem_map_of_mem hentry

/-- The grants of the declarations that succeeded since the registry was last cleared. -/
def declared (i : Nat) (ops : List Operation) (w : World) : List (Grant Condition) :=
  (historyOf i ops w).map Declaration.grant

end Registry

/-! ## 5. Decisions -/

/-- If no candidate fails, a walk comes to a decision, and it is a grant if there is one to be found. -/
theorem walk_allowed_iff {check : Check} {cs : List Candidate}
    (h : ∀ c ∈ cs, ∃ admitted, c.verdict check = .ok admitted) (tried : Nat) :
    ∃ progress, walk check cs tried = .ok progress ∧
      ((progress.decision check).allowed = true ↔ ∃ c ∈ cs, c.verdict check = .ok true) := by
  induction cs generalizing tried with
  | nil => exact ⟨.tried tried, rfl, by simp [Progress.decision]⟩
  | cons c rest ih =>
    obtain ⟨admitted, hc⟩ := h c List.mem_cons_self
    rw [walk, hc]
    cases admitted with
    | true =>
      exact ⟨.granted (c.grant check tried), rfl, fun _ => ⟨c, List.mem_cons_self, hc⟩, fun _ => rfl⟩
    | false =>
      obtain ⟨progress, hwalk, hallowed⟩ :=
        ih (fun d hd => h d (List.mem_cons_of_mem c hd)) (tried + 1)
      refine ⟨progress, hwalk, hallowed.trans ?_⟩
      constructor
      · rintro ⟨d, hd, hv⟩
        exact ⟨d, List.mem_cons_of_mem c hd, hv⟩
      · rintro ⟨d, hd, hv⟩
        rcases List.mem_cons.1 hd with rfl | hd
        · rw [hc] at hv
          cases hv
        · exact ⟨d, hd, hv⟩

namespace Engine

open Registry

variable {e : Engine} {check : Check} {target : Value} {options : List (Value × Value)}
  {host : Option Host}

section

variable {reg : Registry} {history : List Declaration} (hlog : reg.IsLogOf history)
  (hmade : ∀ d ∈ history, ∀ r ∈ d.rules, r.IsMadeOf d.grant)
  (hreturns : ∀ d ∈ history, ∀ c, d.grant.guard = .callable c → c.ReturnsFor check.user)

include hlog hmade in
/-- Every candidate comes from a declaration on its resource and for its action. -/
theorem declaration_of_mem_candidates {c : Candidate} (hc : c ∈ e.candidates reg check) :
    ∃ d ∈ history, c.rule.IsMadeOf d.grant ∧
      (∃ resource, Name.resource d.grant.resource = .ok resource ∧
        (resource = check.resource ∨ resource = e.fallback)) ∧
      ∃ actions, Grant.actionsOf d.grant.actions = .ok actions ∧
        (Name.everyAction ∈ actions ∨ check.action ∈ actions) := by
  obtain ⟨hscope, haction, hrule⟩ := mem_candidates_iff.1 hc
  obtain ⟨d, hd, actions, hr, ha, hentry⟩ := (mem_bucket_iff hlog).1 hrule
  have hmem : c.action ∈ actions := (List.of_mem_zip hentry).1
  refine ⟨d, hd, hmade d hd c.rule (List.of_mem_zip hentry).2, ⟨c.scope, hr, hscope⟩, actions, ha, ?_⟩
  rcases haction with haction | haction
  · exact .inl (haction ▸ hmem)
  · exact .inr (haction ▸ hmem)

include hlog hmade in
theorem exists_candidate {d : Declaration} (hd : d ∈ history) (hspeaks : d.grant.SpeaksFor e check) :
    ∃ c ∈ e.candidates reg check, c.rule.IsMadeOf d.grant := by
  obtain ⟨resource, hr, hscope⟩ := hspeaks.resource
  obtain ⟨actions, ha, haction⟩ := hspeaks.action
  obtain ⟨_, _, hr', ha', hlen⟩ := hlog.complete d hd
  cases hr.symm.trans hr'
  cases ha.symm.trans ha'
  obtain ⟨action, hmem, hcounts⟩ : ∃ action ∈ actions,
      action = Name.everyAction ∨ action = check.action := by
    rcases haction with haction | haction
    · exact ⟨_, haction, .inl rfl⟩
    · exact ⟨_, haction, .inr rfl⟩
  -- The action's place in the declaration is the place of its rule.
  obtain ⟨n, hn, hget⟩ := List.mem_iff_getElem.1 hmem
  have hentry : (action, d.rules[n]) ∈ actions.zip d.rules := by
    refine List.mem_iff_getElem.2 ⟨n, by rw [List.length_zip]; omega, ?_⟩
    rw [List.getElem_zip, hget]
  have hrule : d.rules[n] ∈ reg.bucket resource action :=
    (mem_bucket_iff hlog).2 ⟨d, hd, actions, hr, ha, hentry⟩
  exact ⟨⟨resource, action, d.rules[n]⟩, mem_candidates_iff.2 ⟨hscope, hcounts, hrule⟩,
    hmade d hd _ (List.getElem_mem _)⟩

include hlog hmade hreturns in
/-- A decision over a registry with a history: it is reached, and one declaration that speaks for the
request is both enough and needed. -/
theorem decide_of_isLogOf {w : World} (hreg : w.registry e.registry = reg) (hloader : e.loader = none)
    (hcheck : e.checkOf target options host = .ok (some check))
    (huser : check.user = .null ∨ check.user.role?.isSome = true) :
    ∃ decision after, e.decide target options host w = (.ok decision, after) ∧
      (decision.allowed = true ↔ ∃ d ∈ history, d.grant.SpeaksFor e check) := by
  subst hreg
  have hplain : ∀ c ∈ e.candidates (w.registry e.registry) check, c.rule.IsPlain := by
    intro c hc condition hcondition
    obtain ⟨d, hd, hrule, -, -⟩ := declaration_of_mem_candidates hlog hmade hc
    obtain ⟨f, hf, -⟩ := hreturns d hd condition (Rule.guard_of_condition hrule hcondition)
    exact ⟨f, hf⟩
  have hverdict : ∀ c ∈ e.candidates (w.registry e.registry) check,
      ∃ admitted, c.verdict check = .ok admitted := by
    intro c hc
    obtain ⟨d, hd, hrule, -, -⟩ := declaration_of_mem_candidates hlog hmade hc
    obtain ⟨admitted, hv, -⟩ := Rule.verdict_of_isMadeOf hrule huser (hreturns d hd)
    exact ⟨admitted, hv⟩
  obtain ⟨log, hrun⟩ := decide_run hloader hcheck hplain
  obtain ⟨progress, hwalk, hallowed⟩ := walk_allowed_iff hverdict 0
  rw [hwalk] at hrun
  refine ⟨progress.decision check, _, hrun, hallowed.trans ?_⟩
  -- From a candidate that admits to its declaration, and back.
  constructor
  · rintro ⟨c, hc, hv⟩
    obtain ⟨d, hd, hrule, hresource, haction⟩ := declaration_of_mem_candidates hlog hmade hc
    obtain ⟨admitted, hv', hmeaning⟩ := Rule.verdict_of_isMadeOf hrule huser (hreturns d hd)
    have htrue : admitted = true := Except.ok.inj (hv'.symm.trans hv)
    obtain ⟨hroles, hcondition⟩ := hmeaning.1 htrue
    exact ⟨d, hd, hresource, haction, hroles, hcondition⟩
  · rintro ⟨d, hd, hspeaks⟩
    obtain ⟨c, hc, hrule⟩ := exists_candidate hlog hmade hd hspeaks
    obtain ⟨admitted, hv, hmeaning⟩ := Rule.verdict_of_isMadeOf hrule huser (hreturns d hd)
    have htrue : admitted = true := hmeaning.2 ⟨hspeaks.roles, hspeaks.condition⟩
    exact ⟨c, hc, hv.trans (congrArg Except.ok htrue)⟩

end

theorem decide_of_declared {w : World} (hi : e.registry < w.registries.length)
    (hempty : (w.registry e.registry).resources = []) (hloader : e.loader = none)
    (hcheck : e.checkOf target options host = .ok (some check))
    (huser : check.user = .null ∨ check.user.role?.isSome = true) (ops : List Operation)
    (hreturns : ∀ g ∈ declared e.registry ops w, ∀ c, g.guard = .callable c →
      c.ReturnsFor check.user) :
    ∃ decision after, e.decide target options host (Operation.runAll e.registry ops w) =
      (.ok decision, after) ∧
      (decision.allowed = true ↔ ∃ g ∈ declared e.registry ops w, g.SpeaksFor e check) := by
  obtain ⟨decision, after, hdecide, hallowed⟩ := decide_of_isLogOf
    (isLogOf_historyOf hi hempty ops) (isMadeOf_of_mem_historyOf e.registry ops w)
    (fun d hd => hreturns d.grant (List.mem_map_of_mem hd)) rfl hloader hcheck huser
  refine ⟨decision, after, hdecide, hallowed.trans ?_⟩
  unfold declared
  simp only [List.mem_map, exists_exists_and_eq_and]

/-- After any run of declarations on a registry that starts without rules, a request is decided, and it is
allowed exactly if a grant that was declared speaks for it. So the order of declarations makes no
difference, and no further declaration makes a denial of a grant. -/
theorem decide_allowed_iff_speaksFor {w : World} (hi : e.registry < w.registries.length)
    (hempty : (w.registry e.registry).resources = []) (hloader : e.loader = none)
    (hcheck : e.checkOf target options host = .ok (some check))
    (huser : check.user = .null ∨ check.user.role?.isSome = true) (ops : List Operation)
    (hreturns : ∀ g ∈ declared e.registry ops w, ∀ c, g.guard = .callable c →
      c.ReturnsFor check.user) :
    ∃ decision after,
      e.decide target options host (Operation.runAll e.registry ops w) = (.ok decision, after) ∧
      (decision.allowed = true ↔ ∃ g ∈ declared e.registry ops w, g.SpeaksFor e check) ∧
      (∀ other, (declared e.registry other w).Perm (declared e.registry ops w) →
        ∃ decision' after', e.decide target options host (Operation.runAll e.registry other w) =
          (.ok decision', after') ∧ decision'.allowed = decision.allowed) ∧
      (∀ more, declared e.registry ops w ⊆ declared e.registry more w →
        (∀ g ∈ declared e.registry more w, ∀ c, g.guard = .callable c → c.ReturnsFor check.user) →
        ∃ decision' after', e.decide target options host (Operation.runAll e.registry more w) =
          (.ok decision', after') ∧ (decision.allowed = true → decision'.allowed = true)) := by
  have hdecided := fun run => decide_of_declared hi hempty hloader hcheck huser run
  obtain ⟨decision, after, hdecide, hallowed⟩ := hdecided ops hreturns
  refine ⟨decision, after, hdecide, hallowed, ?_, ?_⟩
  -- Both are read off what is declared: it is the same set, or a larger one.
  · intro other hperm
    obtain ⟨decision', after', hdecide', hallowed'⟩ :=
      hdecided other fun g hg => hreturns g (hperm.mem_iff.1 hg)
    refine ⟨decision', after', hdecide', ?_⟩
    rw [Bool.eq_iff_iff, hallowed', hallowed]
    simp only [hperm.mem_iff]
  · intro more hsub hmore
    obtain ⟨decision', after', hdecide', hallowed'⟩ := hdecided more hmore
    refine ⟨decision', after', hdecide', fun htrue => hallowed'.2 ?_⟩
    obtain ⟨g, hg, hspeaks⟩ := hallowed.1 htrue
    exact ⟨g, hsub hg, hspeaks⟩

def sampleGrants : List (Grant Condition) :=
  [⟨.text "application", .text "show", .text "editor", .absent, .null⟩,
    ⟨.text " PRODUCTS", .list [.text "show", .text "Edit"], .list [.text "guest", .text "admin"],
      .callable (.objectIs (.int 7)), .text "product_id"⟩]

/-- Two grants, and between them a declaration without roles, which fails. -/
def sampleDeclarations : List Operation :=
  [.permit sampleGrants[0], .permit ⟨.text "products", .text "show", .null, .absent, .null⟩,
    .permit sampleGrants[1]]

theorem returnsFor_objectIs_int (user : Value) (i : Int) : (Condition.objectIs (.int i)).ReturnsFor user := by
  refine ⟨_, rfl, fun object => ⟨.bool (Value.equals object (.int i)), ?_⟩⟩
  have hshared : Value.sharedParts object (.int i) = [] := by cases object <;> rfl
  unfold Condition.sameness
  rw [Value.equals?_of_sharedParts_nil hshared]

theorem decide_allowed_iff_speaksFor_sample :
    declared 0 sampleDeclarations World.initial = sampleGrants ∧
      ∃ decision after, sample.decide .null sampleOptions none
          (Operation.runAll 0 sampleDeclarations World.initial) = (.ok decision, after) ∧
        decision.allowed = true := by
  have hdeclared : declared 0 sampleDeclarations World.initial = sampleGrants := by
    with_unfolding_all rfl
  have hreturns : ∀ g ∈ declared 0 sampleDeclarations World.initial, ∀ c,
      g.guard = .callable c → c.ReturnsFor sampleCheck.user := by
    rw [hdeclared]
    intro g hg c hc
    simp only [sampleGrants, List.mem_cons, List.not_mem_nil, or_false] at hg
    rcases hg with rfl | rfl
    · cases hc
    · cases hc
      exact returnsFor_objectIs_int _ 7
  obtain ⟨decision, after, hdecide, hallowed, -, -⟩ := decide_allowed_iff_speaksFor (e := sample)
    (w := World.initial) (by decide) rfl rfl checkOf_sample (.inr rfl) sampleDeclarations hreturns
  refine ⟨hdeclared, decision, after, hdecide, hallowed.2 ⟨sampleGrants[1], ?_, ?_⟩⟩
  · change _ ∈ declared 0 sampleDeclarations World.initial
    rw [hdeclared]
    exact List.getElem_mem _
  · refine ⟨⟨"products", by with_unfolding_all rfl, .inl rfl⟩,
      ⟨["show", "edit"], by with_unfolding_all rfl, .inr List.mem_cons_self⟩, ?_, ?_⟩
    · exact ⟨.text "admin", by simp [sampleGrants, rolesGiven, Value.items?], .inr ⟨nofun, _, rfl, by
        with_unfolding_all rfl⟩⟩
    · intro c hc
      cases hc
      exact ⟨_, "product_id", .bool true, rfl, by with_unfolding_all rfl, by with_unfolding_all rfl,
        rfl⟩

end Engine

end Gatehouse
