import Gatehouse.Proofs.Registry.Contents

/-!
# Making — the rules that a grant gives

All rules of a declaration say what its grant says; they differ in their numbers alone. What they are
numbered from depends on all that was declared before, and so they are compared without their numbers:
then a declaration leaves the same rules behind wherever it comes in a run.
-/

namespace Gatehouse

/-! ## 1. One rule -/

/-- A rule made of a grant says what the grant says. -/
structure Rule.IsMadeOf (r : Rule) (g : Grant Condition) : Prop where
  roles : Roles.read g.roles = .ok r.roles
  condition : readGuard g.guard = .ok r.condition
  objectId : readObjectId g.objectId = .ok r.objectId

/-- A rule but for its number. -/
def Rule.unnumbered (r : Rule) : Rule := { r with serial := 0 }

/-- Nothing can be read off what has been gone through already and is used up by that. -/
theorem Roles.spent_of_read {v : Value} {roles : Roles} (h : read v.spent = .ok roles) :
    v.spent = v := by
  cases v with
  | once xs broken => cases h
  | _ => rfl

namespace Rule

variable {guard : Guard Condition} {objectId roles : Value}

theorem read_of_make {serial : Nat} {r : Rule} (h : make serial roles guard objectId = .ok r) :
    r.serial = serial ∧ Roles.read roles = .ok r.roles ∧ readGuard guard = .ok r.condition ∧
      readObjectId objectId = .ok r.objectId := by
  -- Refused roles never give a rule: the other fields are only looked at for a fault of their own.
  unfold make at h
  split at h
  · unfold refuse at h
    obtain ⟨_, -, h⟩ := bind_eq_ok_iff.1 h
    obtain ⟨_, -, h⟩ := bind_eq_ok_iff.1 h
    cases h
  · cases h
  · rename_i hroles
    obtain ⟨condition, hcondition, h⟩ := bind_eq_ok_iff.1 h
    obtain ⟨key, hkey, h⟩ := bind_eq_ok_iff.1 h
    cases h
    exact ⟨rfl, hroles, hcondition, hkey⟩

/-- What can be made under one number can be made under another. -/
theorem make_renumbered {serial : Nat} {r : Rule} (h : make serial roles guard objectId = .ok r)
    (other : Nat) : make other roles guard objectId = .ok { r with serial := other } := by
  obtain ⟨-, hroles, hcondition, hkey⟩ := read_of_make h
  unfold make
  rw [hroles]
  change (readGuard guard >>= _) = _
  rw [bind_of_eq_ok hcondition, bind_of_eq_ok hkey]
  rfl

/-! ## 2. The rules of one declaration -/

/-- They are alike, although the roles are gone through for each of them. -/
theorem read_of_mem_series {count serial : Nat} {rules : List Rule}
    (h : series guard objectId count serial roles = .ok rules) : ∀ r ∈ rules,
      Roles.read roles = .ok r.roles ∧ readGuard guard = .ok r.condition ∧
        readObjectId objectId = .ok r.objectId := by
  induction count generalizing serial roles rules with
  | zero =>
    cases h
    exact fun r hr => absurd hr List.not_mem_nil
  | succ count ih =>
    obtain ⟨first, hfirst, h⟩ := bind_eq_ok_iff.1 h
    obtain ⟨rest, hrest, h⟩ := bind_eq_ok_iff.1 h
    cases h
    intro r hr
    rcases List.mem_cons.1 hr with rfl | hr
    · exact (read_of_make hfirst).2
    -- The rest was made from what the first reading left, which has to be the same value.
    · have hread := ih hrest r hr
      rwa [Roles.spent_of_read hread.1] at hread

theorem series_renumbered {count serial : Nat} {rules : List Rule}
    (h : series guard objectId count serial roles = .ok rules) (other : Nat) :
    ∃ rules', series guard objectId count other roles = .ok rules' ∧
      rules'.map unnumbered = rules.map unnumbered := by
  induction count generalizing serial other roles rules with
  | zero =>
    cases h
    exact ⟨[], rfl, rfl⟩
  | succ count ih =>
    obtain ⟨first, hfirst, h⟩ := bind_eq_ok_iff.1 h
    obtain ⟨rest, hrest, h⟩ := bind_eq_ok_iff.1 h
    cases h
    obtain ⟨rest', hrest', hsame⟩ := ih hrest (other + 1)
    -- The numbers shift by the same amount all along.
    refine ⟨{ first with serial := other } :: rest', ?_, ?_⟩
    · unfold series
      rw [bind_of_eq_ok (make_renumbered hfirst other), bind_of_eq_ok hrest']
      rfl
    · rw [List.map_cons, List.map_cons, hsame]
      rfl

theorem isMadeOf_of_permit {reg after : Registry} {serial : Nat} {grant : Grant Condition}
    {rules : List Rule} (h : reg.permit serial grant = .ok (after, rules)) :
    ∀ r ∈ rules, r.IsMadeOf grant := by
  obtain ⟨resource, actions, -, -, hseries, -, -⟩ := Registry.permit_eq_ok_iff.1 h
  intro r hr
  obtain ⟨hroles, hcondition, hkey⟩ := read_of_mem_series hseries r hr
  exact ⟨hroles, hcondition, hkey⟩

theorem condition_of_readGuard_callable {c : Condition} {condition : Option Condition}
    (h : readGuard (.callable c) = .ok condition) : condition = some c := (Except.ok.inj h).symm

theorem condition_of_readGuard_other {v : Value} {condition : Option Condition}
    (h : readGuard (.other v) = .ok condition) : condition = none := by
  cases v with
  | null => exact (Except.ok.inj h).symm
  | _ => cases h

theorem guard_of_condition {r : Rule} {g : Grant Condition} {c : Condition} (h : r.IsMadeOf g)
    (hc : r.condition = some c) : g.guard = .callable c := by
  have hcondition := h.condition
  rw [hc] at hcondition
  cases hg : g.guard with
  | absent =>
    rw [hg] at hcondition
    cases hcondition
  | callable c' =>
    rw [hg] at hcondition
    cases condition_of_readGuard_callable hcondition
    rfl
  | other v =>
    rw [hg] at hcondition
    cases condition_of_readGuard_other hcondition

end Rule

/-! ## 3. Where the rules of a grant go -/

/-- The rules of an action on a resource, but for their numbers. -/
def Registry.contents (reg : Registry) (resource action : String) : List Rule :=
  (reg.bucket resource action).map Rule.unnumbered

/-- The rules that a grant gives for an action on a resource, but for their numbers. -/
def Grant.rulesAt (g : Grant Condition) (resource action : String) : List Rule :=
  match Registry.empty.permit 0 g with
  | .ok (reg, _) => reg.contents resource action
  | .error _ => []

namespace Registry

theorem map_unnumbered_filter_zip (actions : List String) (rules : List Rule)
    (p : String → Bool) :
    (((actions.zip rules).filter fun e => p e.1).map Prod.snd).map Rule.unnumbered =
      ((actions.zip (rules.map Rule.unnumbered)).filter fun e => p e.1).map Prod.snd := by
  rw [List.zip_map_right, List.filter_map, List.map_map, List.map_map]
  rfl

theorem contents_addAll (reg : Registry) (resource other action : String) (actions : List String)
    (rules : List Rule) :
    (reg.addAll resource (actions.zip rules)).contents other action =
      reg.contents other action ++ ((actions.zip (rules.map Rule.unnumbered)).filter fun e =>
        other = resource ∧ e.1 = action).map Prod.snd := by
  unfold contents
  rw [bucket_addAll, List.map_append]
  exact congrArg (reg.contents other action ++ ·)
    (map_unnumbered_filter_zip actions rules fun a => other = resource ∧ a = action)

/-- A declaration leaves its rules behind the others, the same whatever was declared before. -/
theorem contents_permit {reg after : Registry} {serial : Nat} {g : Grant Condition}
    {rules : List Rule} (h : reg.permit serial g = .ok (after, rules)) (resource action : String) :
    after.contents resource action = reg.contents resource action ++ g.rulesAt resource action := by
  obtain ⟨named, actions, hr, ha, hs, -, rfl⟩ := permit_eq_ok_iff.1 h
  obtain ⟨rules', hs', hsame⟩ := Rule.series_renumbered hs 0
  -- The same rules under other numbers are what an empty registry would get.
  have hempty : Registry.empty.permit 0 g =
      .ok (Registry.empty.addAll named (actions.zip rules'), rules') :=
    permit_eq_ok_iff.2 ⟨named, actions, hr, ha, hs', rfl, rfl⟩
  unfold Grant.rulesAt
  rw [hempty, contents_addAll]
  change _ = _ ++ (Registry.empty.addAll named (actions.zip rules')).contents resource action
  rw [contents_addAll, hsame]
  rfl

/-- What one registry accepts, every registry does that is not frozen, whatever has been declared in it. -/
theorem permit_of_permit {other : Registry} {number : Nat} {g : Grant Condition} {out : Registry × List Rule}
    (h : other.permit number g = .ok out) {reg : Registry} (hopen : reg.frozen = false) (serial : Nat) :
    ∃ after rules, reg.permit serial g = .ok (after, rules) ∧ after.frozen = false := by
  obtain ⟨named, actions, hr, ha, hs, -, -⟩ := permit_eq_ok_iff.1 h
  obtain ⟨rules, hrules, -⟩ := Rule.series_renumbered hs serial
  exact ⟨reg.addAll named (actions.zip rules), rules,
    permit_eq_ok_iff.2 ⟨named, actions, hr, ha, hrules, hopen, rfl⟩, hopen⟩

end Registry

namespace Grant

variable {g : Grant Condition} {resource action : String}

theorem of_mem_rulesAt {r : Rule} (h : r ∈ g.rulesAt resource action) :
    Name.resource g.resource = .ok resource ∧ r.IsMadeOf g := by
  unfold rulesAt at h
  split at h
  · rename_i reg rules hp
    obtain ⟨named, actions, hr, -, -, -, rfl⟩ := Registry.permit_eq_ok_iff.1 hp
    unfold Registry.contents at h
    obtain ⟨made, hmade, rfl⟩ := List.mem_map.1 h
    rw [Registry.bucket_addAll] at hmade
    have hnew := (List.mem_append.1 hmade).resolve_left List.not_mem_nil
    obtain ⟨entry, hentry, rfl⟩ := List.mem_map.1 hnew
    obtain ⟨hzip, hplace⟩ := List.mem_filter.1 hentry
    rw [decide_eq_true_eq] at hplace
    obtain ⟨hroles, hcondition, hkey⟩ := Rule.isMadeOf_of_permit hp _ (List.of_mem_zip hzip).2
    rw [hplace.1]
    exact ⟨hr, hroles, hcondition, hkey⟩
  · exact absurd h List.not_mem_nil

end Grant

end Gatehouse
