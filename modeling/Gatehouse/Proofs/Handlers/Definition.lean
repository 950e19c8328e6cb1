import Gatehouse.Handler
import Gatehouse.Proofs.Registry.Changes
import Gatehouse.Proofs.Registry.History
import Gatehouse.Proofs.Registry.Refusal

/-!
# Definition — what a class that cannot be defined has declared

The grants of a class are declared one after the other, and no declaration is ever taken back. A bad name and bases
that contradict each other are found before the first of them, and a bad grant when it is its turn: what stands before
it has been declared then, completely and in order, and nothing behind it.
-/

namespace Gatehouse.Handler

open Registry (Declaration)

/-! ## 1. Declarations in one registry -/

/-- Of two states, the later one has these declarations more, in one registry, and is otherwise the same. -/
structure Declares (i : Nat) (w after : World) (declared : List Declaration) : Prop where
  alone : after = w.declared i (after.registry i) after.nextRule
  log : ∀ history, (w.registry i).IsLogOf history →
    (after.registry i).IsLogOf (history ++ declared)

namespace Declares

variable {i : Nat} {w mid after : World}

theorem none (i : Nat) (w : World) : Declares i w w [] where
  alone := (w.declared_self i).symm
  log history h := by rwa [List.append_nil]

theorem one (hi : i < w.registries.length) {g : Grant Condition} {rules : List Rule}
    (h : Run.permit i g w = (.ok rules, after)) : Declares i w after [⟨g, rules⟩] := by
  obtain ⟨reg, hp, rfl⟩ := Run.permit_eq_ok_iff.1 h
  have hreg : (w.declared i reg (w.nextRule + rules.length)).registry i = reg :=
    World.registry_setRegistry_self reg hi
  constructor
  · rw [hreg]
    rfl
  · intro history hlog
    rw [hreg]
    exact Registry.isLogOf_permit hlog hp

theorem trans {first second : List Declaration} (h : Declares i w mid first)
    (h' : Declares i mid after second) : Declares i w after (first ++ second) where
  alone := by
    have hafter := h'.alone
    rw [h.alone, World.declared_declared] at hafter
    exact hafter
  log history hlog := by
    rw [← List.append_assoc]
    exact h'.log _ (h.log history hlog)

theorem length_registries {declared : List Declaration} (h : Declares i w after declared) :
    after.registries.length = w.registries.length := by
  rw [h.alone]
  exact List.length_set

end Declares

/-- A grant as a class declares it: for the resource of the class, unless it names another. -/
def addressed (resourceName : String) (g : Grant Condition) : Grant Condition :=
  { g with resource := if g.resource.truthy then g.resource else .text resourceName }

theorem permitFor_eq (i : Nat) (name : String) (g : Grant Condition) :
    permitFor i name g = Run.permit i (addressed name g) := rfl

section

variable {i : Nat} {name : String} {w after : World} {f : Fault}

theorem permitAll_cons_run (g : Grant Condition) (rest : List (Grant Condition)) :
    permitAll i name (g :: rest) w = match Run.permit i (addressed name g) w with
      | (.ok _, mid) => permitAll i name rest mid
      | (.error f, mid) => (.error f, mid) := by
  rw [permitAll, Run.bind_run, Run.discard_run, permitFor_eq]
  cases Run.permit i (addressed name g) w with
  | mk result mid => cases result <;> rfl

/-- Grants that cannot all be declared are declared up to the first that is refused. -/
theorem permitAll_of_error {grants : List (Grant Condition)} (hi : i < w.registries.length)
    (h : permitAll i name grants w = (.error f, after)) :
    ∃ accepted refused rest declared, grants = accepted ++ refused :: rest ∧
      declared.map Declaration.grant = accepted.map (addressed name) ∧
      Declares i w after declared ∧ permitAll i name accepted w = (.ok (), after) ∧
      Run.permit i (addressed name refused) after = (.error f, after) := by
  induction grants generalizing w with
  | nil => cases h
  | cons g rest ih =>
    rw [permitAll_cons_run] at h
    cases hg : Run.permit i (addressed name g) w with
    | mk result mid =>
      rw [hg] at h
      cases result with
      | error f' =>
        obtain ⟨-, rfl⟩ := Run.permit_eq_error_iff.1 hg
        cases h
        exact ⟨[], g, rest, [], rfl, rfl, .none i after, rfl, hg⟩
      | ok rules =>
        have hone : Declares i w mid [⟨addressed name g, rules⟩] := .one hi hg
        obtain ⟨accepted, refused, later, declared, rfl, hdeclared, hmore, hall, hrefused⟩ :=
          ih (hone.length_registries ▸ hi) h
        refine ⟨g :: accepted, refused, later, ⟨addressed name g, rules⟩ :: declared, rfl, ?_,
          hone.trans hmore, ?_, hrefused⟩
        · rw [List.map_cons, List.map_cons, hdeclared]
        · rw [permitAll_cons_run, hg]
          exact hall

/-- A frozen registry takes no grants. -/
theorem eq_nil_of_frozen {grants : List (Grant Condition)} (hf : (w.registry i).frozen = true)
    (h : permitAll i name grants w = (.ok (), after)) : grants = [] := by
  cases grants with
  | nil => rfl
  | cons g rest =>
    obtain ⟨f, hp, -⟩ := Registry.permit_of_frozen hf w.nextRule (addressed name g)
    rw [permitAll_cons_run, Run.permit_of_error hp] at h
    cases h

end

/-- A property of declarations that sequencing keeps is one of grants in a row. -/
theorem permitAll_of {P : (α : Type) → Run α → Prop} (h : Run.Sequential P) {i : Nat}
    (hpermit : ∀ grant, P (List Rule) (Run.permit i grant)) (name : String) (grants : List (Grant Condition)) :
    P Unit (permitAll i name grants) := by
  induction grants with
  | nil => exact h.pure ()
  | cons g rest ih => exact h.bind (h.discard (hpermit (addressed name g))) fun _ => ih

/-! ## 2. Definitions that fail -/

/-- The registry in which a class declares: that of the nearest class which sets one, itself included. -/
def Definition.registryIn (d : Definition) (w : World) : Nat :=
  match d.make w with
  | .ok made => registryAlong w (line w.handlers made)
  | .error _ => w.shared

/-- Why a class is not there, and what has been declared for it nevertheless. -/
inductive Definition.FailsAfter (d : Definition) (w after : World) (f : Fault) :
    List Declaration → Prop where
  | unmade (h : d.make w = .error f) (hsame : after = w) : FailsAfter d w after f []
  | grant {made : Handler} {accepted rest : List (Grant Condition)} {refused : Grant Condition}
      {declared : List Declaration} (h : d.make w = .ok made)
      (hgrants : d.grantsOf made = accepted ++ refused :: rest)
      (hdeclared : declared.map Declaration.grant = accepted.map (addressed made.resourceName))
      (haccepted : permitAll (d.registryIn w) made.resourceName accepted w = (.ok (), after))
      (hrefused : Run.permit (d.registryIn w) (addressed made.resourceName refused) after = (.error f, after)) :
      FailsAfter d w after f declared

theorem define_of_unmade {d : Definition} {w : World} {f : Fault} (h : d.make w = .error f) :
    define d w = (.error f, w) := by
  unfold define
  rw [Run.bind_of_ok (Run.read_run _ w), h, Run.bind_of_error (Run.ofExcept_run _ w)]

theorem registryIn_of_made {d : Definition} {w : World} {made : Handler} (h : d.make w = .ok made) :
    d.registryIn w = registryAlong w (line w.handlers made) := by
  unfold Definition.registryIn
  rw [h]

theorem define_of_made {d : Definition} {w : World} {made : Handler} (h : d.make w = .ok made) :
    define d w = match permitAll (d.registryIn w) made.resourceName (d.grantsOf made) w with
      | (.ok _, mid) => (.ok mid.handlers.length, { mid with handlers := mid.handlers ++ [made] })
      | (.error f, mid) => (.error f, mid) := by
  unfold define
  rw [Run.bind_of_ok (Run.read_run _ w), h, Run.bind_of_ok (Run.ofExcept_run _ w), Run.bind_of_ok (Run.read_run _ w),
    Run.bind_run, registryIn_of_made h]
  cases permitAll (registryAlong w (line w.handlers made)) made.resourceName (d.grantsOf made) w with
  | mk result mid => cases result <;> rfl

/-- A definition that succeeds has made the class and declared all its grants. -/
theorem exists_made_of_define {d : Definition} {w after : World} {i : Nat} (h : define d w = (.ok i, after)) :
    ∃ made mid, d.make w = .ok made ∧
      permitAll (d.registryIn w) made.resourceName (d.grantsOf made) w = (.ok (), mid) ∧
      after = { mid with handlers := mid.handlers ++ [made] } := by
  cases hmade : d.make w with
  | error f =>
    rw [define_of_unmade hmade] at h
    cases h
  | ok made =>
    rw [define_of_made hmade] at h
    cases hall : permitAll (d.registryIn w) made.resourceName (d.grantsOf made) w with
    | mk result mid =>
      rw [hall] at h
      cases result with
      | error f => cases h
      | ok u =>
        cases h
        exact ⟨made, mid, rfl, hall, rfl⟩

/-- What a definition that failed has done: it has made these declarations, in the registry of the class,
and nothing else. -/
structure Definition.Leaves (d : Definition) (w after : World) (f : Fault)
    (declared : List Declaration) : Prop where
  cause : d.FailsAfter w after f declared
  alone : after = w.declared (d.registryIn w) (after.registry (d.registryIn w)) after.nextRule
  answers : ∀ history, (w.registry (d.registryIn w)).IsLogOf history →
    (after.registry (d.registryIn w)).AnswersAs (history ++ declared)
  untouched : declared = [] → after = w
  none_of_unmade : d.make w = .error f → declared = []
  none_of_frozen : (w.registry (d.registryIn w)).frozen = true → declared = []
  none_of_first : ∀ made g rest f', d.make w = .ok made → d.grantsOf made = g :: rest →
    Run.permit (d.registryIn w) (addressed made.resourceName g) w = (.error f', w) → declared = []

/-- A definition that fails leaves the declarations behind that were made before it failed: with a bad name, with bases
that contradict each other, in a frozen registry or with a bad grant in front of all others, nothing at all. -/
theorem define_of_error {d : Definition} {w after : World} {f : Fault}
    (hi : d.registryIn w < w.registries.length) (h : define d w = (.error f, after)) :
    ∃ declared, d.Leaves w after f declared := by
  cases hn : d.make w with
  | error f' =>
    rw [define_of_unmade hn] at h
    cases h
    refine ⟨[], .unmade hn rfl, (w.declared_self _).symm, fun history hlog => ?_, fun _ => rfl,
      fun _ => rfl, fun _ => rfl, fun _ _ _ _ _ _ _ => rfl⟩
    rw [List.append_nil]
    exact Registry.answersAs_of_isLogOf hlog
  | ok made =>
    rw [define_of_made hn] at h
    cases hall : permitAll (d.registryIn w) made.resourceName (d.grantsOf made) w with
    | mk result mid =>
      rw [hall] at h
      cases result with
      -- With all grants declared nothing can go wrong any more.
      | ok u => cases h
      | error f' =>
        cases h
        obtain ⟨accepted, refused, rest, declared, hgrants, hdeclared, hdeclares, haccepted,
          hrefused⟩ := permitAll_of_error hi hall
        have hnone : accepted = [] → declared = [] := fun hnothing => by
          rwa [hnothing, List.map_nil, List.map_eq_nil_iff] at hdeclared
        refine ⟨declared, .grant hn hgrants hdeclared haccepted hrefused, hdeclares.alone,
          fun history hlog => Registry.answersAs_of_isLogOf (hdeclares.log history hlog),
          fun hnothing => ?_, ?_, fun hfrozen => hnone (eq_nil_of_frozen hfrozen haccepted),
          fun made' g rest' f' hn' hgrants' hg => hnone ?_⟩
        · rw [hnothing, List.map_nil, eq_comm, List.map_eq_nil_iff] at hdeclared
          rw [hdeclared] at haccepted
          exact (Prod.mk.inj haccepted).2.symm
        · rw [hn]
          exact nofun
        -- Whatever was accepted begins with the first grant.
        · cases hn.symm.trans hn'
          rw [hgrants'] at hgrants
          cases accepted with
          | nil => rfl
          | cons first more =>
            rw [List.cons_append, List.cons.injEq] at hgrants
            rw [← hgrants.1, permitAll_cons_run, hg] at haccepted
            cases haccepted

/-- A class with a good grant in front of a bad one. -/
def sampleDefinition : Definition where
  name := "OrdersController"
  bases := [0]
  resourceName := none
  registry := some (some 0)
  resolver := none
  loader := none
  hooks := .silent
  grants := [⟨.null, .text "show", .all, .absent, .null⟩, ⟨.null, .int 42, .all, .absent, .null⟩]

/-- The good grant has been declared, although there is no such class. -/
theorem define_sampleDefinition :
    let after := (define sampleDefinition World.initial).2
    (define sampleDefinition World.initial).1 = .error (.misconfigured (.notAName .action "int")) ∧
      (World.initial.registry 0).size = 0 ∧ (after.registry 0).size = 1 ∧
      (after.registry 0).resourceNames = ["orders"] :=
  ⟨by with_unfolding_all rfl, rfl, by with_unfolding_all rfl, by with_unfolding_all rfl⟩

theorem define_of_error_sampleDefinition :
    sampleDefinition.registryIn World.initial < World.initial.registries.length ∧
      ∃ declared, sampleDefinition.Leaves World.initial
        (define sampleDefinition World.initial).2 (.misconfigured (.notAName .action "int")) declared := by
  have hi : sampleDefinition.registryIn World.initial < World.initial.registries.length := by decide +kernel
  exact ⟨hi, define_of_error hi (by with_unfolding_all rfl)⟩

end Gatehouse.Handler
