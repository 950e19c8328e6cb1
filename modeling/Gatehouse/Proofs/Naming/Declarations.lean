import Gatehouse.Proofs.Deciding.Pairs
import Gatehouse.Proofs.Naming.Requests

/-!
# Declarations — registries from declarations in another spelling

A declaration is read before anything of it is registered. With its names in another spelling, and with
conditions that declare and ask in another spelling themselves, it gives the same rules but for these
conditions, under the same names, or is refused on both sides.
-/

namespace Gatehouse

/-! ## 1. Grants and conditions -/

/-- The same guard, but for conditions that are counterparts. -/
inductive Guard.Matches (C : γ → γ → Prop) : Guard γ → Guard γ → Prop where
  | absent : Matches C .absent .absent
  | callable {c c' : γ} (h : C c c') : Matches C (.callable c) (.callable c')
  | other (v : Value) : Matches C (.other v) (.other v)

/-- A grant with its names in another spelling; `C` relates the conditions. -/
inductive Grant.RespellsBut (C : γ → γ → Prop) : Grant γ → Grant γ → Prop where
  | intro {resource resource' actions actions' : Value} {guard guard' : Guard γ} (roles objectId : Value)
      (hresource : resource.Respells resource') (hactions : Grant.RespellsActions actions actions')
      (hguard : Guard.Matches C guard guard') :
      RespellsBut C ⟨resource, actions, roles, guard, objectId⟩ ⟨resource', actions', roles, guard', objectId⟩

/-- A condition that declares and asks with names in another spelling. -/
inductive Condition.Respells : Condition → Condition → Prop where
  | same (c : Condition) : Respells c c
  | declare {g g' : Grant Condition} {next next' : Condition} (hgrant : Grant.RespellsBut Respells g g')
      (hnext : Respells next next') : Respells (.declare g next) (.declare g' next')
  | freeze {next next' : Condition} (hnext : Respells next next') : Respells (.freeze next) (.freeze next')
  | consult {target target' : Value} (h : target.RespellsTarget target') :
      Respells (.consult target) (.consult target')

/-- A grant with its names in another spelling, those that its condition declares and asks for included. -/
def Grant.Respells (g g' : Grant Condition) : Prop := Grant.RespellsBut Condition.Respells g g'

theorem Guard.Matches.refl {C : γ → γ → Prop} (h : ∀ c, C c c) (guard : Guard γ) : Guard.Matches C guard guard := by
  cases guard with
  | absent => exact .absent
  | callable c => exact .callable (h c)
  | other v => exact .other v

theorem Grant.Respells.refl (g : Grant Condition) : Grant.Respells g g :=
  .intro g.roles g.objectId (.refl _) (.same _) (.refl .same _)

/-! ## 2. Rules -/

namespace Rule

variable {C : Condition → Condition → Prop}

theorem Matches.refl (h : ∀ c, C c c) (r : Rule) : Rule.Matches C r r where
  serial := rfl
  roles := rfl
  objectId := rfl
  condition := by
    cases r.condition with
    | none => exact .none
    | some c => exact .some (h c)

theorem readGuard_agrees {guard guard' : Guard Condition} (h : Guard.Matches C guard guard') :
    Agree (Option.Rel C) (readGuard guard) (readGuard guard') := by
  cases h with
  | absent => exact .ok .none
  | callable hc => exact .ok (.some hc)
  | other v =>
    cases v with
    | null => exact .ok .none
    | _ => exact .error (.inl rfl)

variable {guard guard' : Guard Condition} (h : Guard.Matches C guard guard')

include h

theorem make_agrees (serial : Nat) (roles objectId : Value) :
    Agree (Rule.Matches C) (make serial roles guard objectId) (make serial roles guard' objectId) := by
  have hguard := readGuard_agrees h
  unfold make
  cases Roles.read roles with
  | ok roles =>
    apply hguard.bind
    intro condition condition' hcondition
    cases readObjectId objectId with
    | error f => exact .error (.inl rfl)
    | ok key => exact .ok ⟨rfl, rfl, rfl, hcondition⟩
  | error f =>
    cases f with
    | invalid issues =>
      -- Refused roles are reported behind whatever else is wrong.
      show Agree _ (refuse issues guard objectId) (refuse issues guard' objectId)
      apply hguard.discard.bind
      intro _ _ _
      apply Agree.bind (Agree.of_eq rfl)
      intro _ _ _
      exact .error (.inl rfl)
    | _ => exact .error (.inl rfl)

theorem series_agrees (objectId : Value) (count serial : Nat) (roles : Value) :
    Agree (List.Forall₂ (Rule.Matches C)) (series guard objectId count serial roles)
      (series guard' objectId count serial roles) := by
  induction count generalizing serial roles with
  | zero => exact .ok .nil
  | succ count ih =>
    apply (make_agrees h serial roles objectId).bind
    intro rule rule' hrule
    apply (ih (serial + 1) roles.spent).bind
    intro rest rest' hrest
    exact .ok (.cons hrule hrest)

end Rule

/-! ## 3. Registries -/

/-- The same buckets, but for the conditions of rules. -/
def Buckets.Matches (C : Condition → Condition → Prop) (buckets buckets' : Buckets) : Prop :=
  List.Forall₂ (fun b b' => b'.1 = b.1 ∧ List.Forall₂ (Rule.Matches C) b.2 b'.2) buckets buckets'

/-- The same registry, but for the conditions of rules. -/
structure Registry.Matches (C : Condition → Condition → Prop) (reg reg' : Registry) : Prop where
  frozen : reg'.frozen = reg.frozen
  resources : List.Forall₂ (fun r r' => r'.1 = r.1 ∧ Buckets.Matches C r.2 r'.2) reg.resources reg'.resources

namespace Buckets

variable {C : Condition → Condition → Prop} {buckets buckets' : Buckets} (h : Buckets.Matches C buckets buckets')

include h

theorem get_matches (action : String) :
    List.Forall₂ (Rule.Matches C) (buckets.get action) (buckets'.get action) := by
  induction h with
  | nil => exact .nil
  | @cons b b' rest rest' hb _ ih =>
    obtain ⟨a, rules⟩ := b
    obtain ⟨a', rules'⟩ := b'
    obtain ⟨rfl, hrules⟩ := hb
    unfold get
    by_cases ha : a' = action
    · rw [if_pos ha, if_pos ha]
      exact hrules
    · rw [if_neg ha, if_neg ha]
      exact ih

theorem add_matches (action : String) {rule rule' : Rule} (hrule : Rule.Matches C rule rule') :
    Buckets.Matches C (buckets.add action rule) (buckets'.add action rule') := by
  induction h with
  | nil => exact .cons ⟨rfl, .cons hrule .nil⟩ .nil
  | @cons b b' rest rest' hb hrest ih =>
    obtain ⟨a, rules⟩ := b
    obtain ⟨a', rules'⟩ := b'
    obtain ⟨rfl, hrules⟩ := hb
    unfold add
    by_cases ha : a' = action
    · rw [if_pos ha, if_pos ha]
      exact .cons ⟨rfl, List.rel_append hrules (.cons hrule .nil)⟩ hrest
    · rw [if_neg ha, if_neg ha]
      exact .cons ⟨rfl, hrules⟩ ih

theorem addAll_matches {entries entries' : List (String × Rule)}
    (hentries : List.Forall₂ (fun e e' => e'.1 = e.1 ∧ Rule.Matches C e.2 e'.2) entries entries') :
    Buckets.Matches C (buckets.addAll entries) (buckets'.addAll entries') := by
  unfold addAll
  induction hentries generalizing buckets buckets' with
  | nil => exact h
  | @cons e e' rest rest' he _ ih =>
    obtain ⟨a, rule⟩ := e
    obtain ⟨a', rule'⟩ := e'
    obtain ⟨rfl, hrule⟩ := he
    exact ih (add_matches h a' hrule)

end Buckets

namespace Registry

variable {C : Condition → Condition → Prop} {reg reg' : Registry}

theorem Matches.refl (h : ∀ c, C c c) (reg : Registry) : Registry.Matches C reg reg where
  frozen := rfl
  resources := List.forall₂_same.2 fun _ _ => ⟨rfl, List.forall₂_same.2 fun _ _ =>
    ⟨rfl, List.forall₂_same.2 fun r _ => Rule.Matches.refl h r⟩⟩

theorem buckets_matches (h : Registry.Matches C reg reg') (resource : String) :
    Buckets.Matches C (reg.buckets resource) (reg'.buckets resource) := by
  have hresources := h.resources
  unfold buckets
  generalize reg.resources = resources at hresources
  generalize reg'.resources = resources' at hresources
  induction hresources with
  | nil => exact .nil
  | @cons b b' rest rest' hb _ ih =>
    obtain ⟨r, buckets⟩ := b
    obtain ⟨r', buckets'⟩ := b'
    obtain ⟨rfl, hbuckets⟩ := hb
    unfold bucketsIn
    by_cases hr : r' = resource
    · rw [if_pos hr, if_pos hr]
      exact hbuckets
    · rw [if_neg hr, if_neg hr]
      exact ih

theorem bucket_matches (h : Registry.Matches C reg reg') (resource action : String) :
    List.Forall₂ (Rule.Matches C) (reg.bucket resource action) (reg'.bucket resource action) :=
  Buckets.get_matches (buckets_matches h resource) action

theorem freeze_matches (h : Registry.Matches C reg reg') : Registry.Matches C reg.freeze reg'.freeze :=
  ⟨rfl, h.resources⟩

theorem addAll_matches (h : Registry.Matches C reg reg') (resource : String)
    {entries entries' : List (String × Rule)}
    (hentries : List.Forall₂ (fun e e' => e'.1 = e.1 ∧ Rule.Matches C e.2 e'.2) entries entries') :
    Registry.Matches C (reg.addAll resource entries) (reg'.addAll resource entries') := by
  refine ⟨h.frozen, ?_⟩
  show List.Forall₂ _ (addAllIn resource entries reg.resources) (addAllIn resource entries' reg'.resources)
  have hresources := h.resources
  generalize reg.resources = resources at hresources
  generalize reg'.resources = resources' at hresources
  induction hresources with
  | nil => exact .cons ⟨rfl, Buckets.addAll_matches .nil hentries⟩ .nil
  | @cons b b' rest rest' hb hrest ih =>
    obtain ⟨r, buckets⟩ := b
    obtain ⟨r', buckets'⟩ := b'
    obtain ⟨rfl, hbuckets⟩ := hb
    unfold addAllIn
    by_cases hr : r' = resource
    · rw [if_pos hr, if_pos hr]
      exact .cons ⟨rfl, Buckets.addAll_matches hbuckets hentries⟩ hrest
    · rw [if_neg hr, if_neg hr]
      exact .cons ⟨rfl, hbuckets⟩ ih

/-- Rules beside their actions. -/
theorem zip_matches {rules rules' : List Rule} (h : List.Forall₂ (Rule.Matches C) rules rules')
    (actions : List String) : List.Forall₂ (fun e e' => e'.1 = e.1 ∧ Rule.Matches C e.2 e'.2)
      (actions.zip rules) (actions.zip rules') := by
  induction h generalizing actions with
  | nil =>
    rw [List.zip_nil_right]
    exact .nil
  | cons hr _ ih =>
    cases actions with
    | nil => exact .nil
    | cons action actions => exact .cons ⟨rfl, hr⟩ (ih actions)

/-- In registries that differ in conditions only, a grant in another spelling is declared on both sides, with the
same rules but for their conditions, or refused on both. -/
theorem permit_agrees (h : Registry.Matches C reg reg') (serial : Nat) {g g' : Grant Condition}
    (hg : Grant.RespellsBut C g g') :
    Agree (fun out out' => Registry.Matches C out.1 out'.1 ∧ List.Forall₂ (Rule.Matches C) out.2 out'.2)
      (reg.permit serial g) (reg'.permit serial g') := by
  unfold permit
  rw [h.frozen]
  cases hg with
  | intro roles objectId hresource hactions hguard =>
    apply (Name.read_agrees .resource hresource).bind
    rintro resource _ rfl
    apply (Grant.actionsOf_agrees hactions).bind
    rintro actions _ rfl
    apply (Rule.series_agrees hguard objectId actions.length serial roles).bind
    intro rules rules' hrules
    cases reg.frozen with
    | true => exact .error (.inl rfl)
    | false => exact .ok ⟨addAll_matches h resource (zip_matches hrules actions), hrules⟩

end Registry

end Gatehouse
