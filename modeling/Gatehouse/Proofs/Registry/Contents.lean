import Mathlib.Data.List.Basic
import Gatehouse.Proofs.Runs

/-!
# Contents — what declarations leave in a registry

Declaring appends: no rule is lost, none is repeated, and every resource and every action keeps the
place of its first rule. This file says so once for each thing that can be looked up (names, buckets,
sizes), so that whoever reasons about runs of declarations never opens `addAll` again.
-/

namespace Gatehouse

/-! ## 1. Keeping first occurrences -/

theorem eraseDups_concat (xs : List String) (x : String) :
    (xs ++ [x]).eraseDups = if x ∈ xs then xs.eraseDups else xs.eraseDups ++ [x] := by
  rw [List.eraseDups_append]
  -- `[x]` is dropped from behind `xs` exactly if its text has occurred.
  by_cases h : x ∈ xs
  · have hremove : [x].removeAll xs = [] := by simp [List.removeAll, h]
    rw [hremove, if_pos h, List.eraseDups_nil, List.append_nil]
  · have hremove : [x].removeAll xs = [x] := by simp [List.removeAll, h]
    rw [hremove, if_neg h, List.eraseDups_cons]
    rfl

/-- Repeating one text behind a list adds it at most once. -/
theorem eraseDups_append_replicate (xs : List String) (x : String) (n : Nat) :
    (xs ++ List.replicate (n + 1) x).eraseDups =
      if x ∈ xs then xs.eraseDups else xs.eraseDups ++ [x] := by
  induction n with
  | zero => exact eraseDups_concat xs x
  | succ n ih =>
    rw [List.replicate_succ', ← List.append_assoc, eraseDups_concat, if_pos (by simp), ih]

/-! ## 2. The buckets of one resource -/

namespace Buckets

theorem keys_add (buckets : Buckets) (action : String) (rule : Rule) :
    (buckets.add action rule).map Prod.fst =
      if action ∈ buckets.map Prod.fst then buckets.map Prod.fst
      else buckets.map Prod.fst ++ [action] := by
  induction buckets with
  | nil => rfl
  | cons b rest ih =>
    obtain ⟨a, rules⟩ := b
    by_cases ha : a = action
    · simp [add, ha]
    · have hne : ¬ action = a := fun h => ha h.symm
      rw [add, if_neg ha, List.map_cons, ih]
      -- The first key is another one, so the rest decides whether the action is new.
      by_cases hm : action ∈ rest.map Prod.fst
      · rw [if_pos hm, if_pos (by rw [List.map_cons]; exact List.mem_cons_of_mem a hm),
          List.map_cons]
      · rw [if_neg hm, if_neg (by rw [List.map_cons, List.mem_cons]; exact not_or.2 ⟨hne, hm⟩),
          List.map_cons]
        rfl

theorem keys_addAll {buckets : Buckets} {declared : List String}
    (h : buckets.map Prod.fst = declared.eraseDups) (entries : List (String × Rule)) :
    (buckets.addAll entries).map Prod.fst = (declared ++ entries.map Prod.fst).eraseDups := by
  -- The buckets and what is declared already change with each entry, so both are generalized.
  induction entries generalizing buckets declared with
  | nil => simpa [addAll] using h
  | cons e rest ih =>
    obtain ⟨action, rule⟩ := e
    have hadd : (buckets.add action rule).map Prod.fst = (declared ++ [action]).eraseDups := by
      rw [keys_add, eraseDups_concat, h]
      by_cases hm : action ∈ declared
      · rw [if_pos hm, if_pos (List.mem_eraseDups.2 hm)]
      · rw [if_neg hm, if_neg (fun hd => hm (List.mem_eraseDups.1 hd))]
    have hrest := ih hadd
    rwa [List.append_assoc] at hrest

/-- The rules of an action are those from before and then its new ones, in their order. -/
theorem get_addAll (buckets : Buckets) (entries : List (String × Rule)) (action : String) :
    (buckets.addAll entries).get action =
      buckets.get action ++ (entries.filter fun e => e.1 = action).map Prod.snd := by
  induction entries generalizing buckets with
  | nil => simp [addAll]
  | cons e rest ih =>
    obtain ⟨a, rule⟩ := e
    have hrest : ((buckets.add a rule).addAll rest).get action = _ := ih (buckets.add a rule)
    change ((buckets.add a rule).addAll rest).get action = _
    -- An entry adds to the rules looked up or to others, which stay as they are.
    by_cases ha : a = action
    · subst ha
      rw [hrest, get_add_self, List.filter_cons_of_pos (by simp), List.map_cons,
        List.append_assoc, List.singleton_append]
    · rw [hrest, get_add_of_ne buckets rule (Ne.symm ha), List.filter_cons_of_neg (by simp [ha])]

theorem size_add (buckets : Buckets) (action : String) (rule : Rule) :
    (buckets.add action rule).size = buckets.size + 1 := by
  induction buckets with
  | nil => rfl
  | cons b rest ih =>
    obtain ⟨a, rules⟩ := b
    by_cases ha : a = action
    · rw [add, if_pos ha, size, size, List.length_append, List.length_singleton]
      omega
    · rw [add, if_neg ha, size, size, ih]
      omega

theorem size_addAll (buckets : Buckets) (entries : List (String × Rule)) :
    (buckets.addAll entries).size = buckets.size + entries.length := by
  induction entries generalizing buckets with
  | nil => rfl
  | cons e rest ih =>
    have hrest : ((buckets.add e.1 e.2).addAll rest).size = _ := ih (buckets.add e.1 e.2)
    change ((buckets.add e.1 e.2).addAll rest).size = _
    rw [hrest, size_add, List.length_cons]
    omega

end Buckets

/-! ## 3. The registry -/

namespace Registry

theorem buckets_addAll (reg : Registry) (resource other : String) (entries : List (String × Rule)) :
    (reg.addAll resource entries).buckets other =
      if other = resource then (reg.buckets resource).addAll entries else reg.buckets other := by
  by_cases h : other = resource
  · subst h
    rw [if_pos rfl, buckets_addAll_self]
  · rw [if_neg h, buckets_addAll_of_ne reg entries h]

theorem bucket_addAll (reg : Registry) (resource other action : String)
    (entries : List (String × Rule)) :
    (reg.addAll resource entries).bucket other action =
      reg.bucket other action ++
        (entries.filter fun e => other = resource ∧ e.1 = action).map Prod.snd := by
  unfold bucket
  rw [buckets_addAll]
  by_cases h : other = resource
  · subst h
    rw [if_pos rfl, Buckets.get_addAll]
    simp
  · rw [if_neg h]
    simp [h]

theorem resourceNames_addAll (reg : Registry) (resource : String) (entries : List (String × Rule)) :
    (reg.addAll resource entries).resourceNames =
      if resource ∈ reg.resourceNames then reg.resourceNames
      else reg.resourceNames ++ [resource] := by
  unfold addAll resourceNames
  induction reg.resources with
  | nil => rfl
  | cons b rest ih =>
    obtain ⟨r, buckets⟩ := b
    by_cases hr : r = resource
    · simp [addAllIn, hr]
    -- As for the keys of buckets: the rest decides.
    · have hne : ¬ resource = r := fun h => hr h.symm
      simp only [addAllIn, if_neg hr, List.map_cons, List.mem_cons, hne, false_or] at ih ⊢
      rw [ih]
      by_cases hm : resource ∈ rest.map Prod.fst
      · rw [if_pos hm, if_pos hm]
      · rw [if_neg hm, if_neg hm]
        rfl

theorem size_addAll (reg : Registry) (resource : String) (entries : List (String × Rule)) :
    (reg.addAll resource entries).size = reg.size + entries.length := by
  unfold addAll size
  induction reg.resources with
  | nil =>
    have h := Buckets.size_addAll [] entries
    rw [show Buckets.size [] = 0 from rfl] at h
    simp only [addAllIn, sizeIn, h]
    omega
  | cons b rest ih =>
    obtain ⟨r, buckets⟩ := b
    by_cases hr : r = resource
    · simp only [addAllIn, if_pos hr, sizeIn, Buckets.size_addAll]
      omega
    · simp only [addAllIn, if_neg hr, sizeIn] at ih ⊢
      rw [ih]
      omega

/-- A resource that is not listed has no buckets. -/
theorem buckets_of_not_mem {reg : Registry} {resource : String}
    (h : resource ∉ reg.resourceNames) : reg.buckets resource = [] := by
  unfold resourceNames at h
  unfold buckets
  revert h
  induction reg.resources with
  | nil => exact fun _ => rfl
  | cons b rest ih =>
    intro h
    obtain ⟨r, bs⟩ := b
    rw [List.map_cons, List.mem_cons, not_or] at h
    rw [bucketsIn, if_neg (Ne.symm h.1)]
    exact ih h.2

/-! ## 4. Successful declarations -/

/-- What a declaration needs to succeed, and what it leaves then. -/
theorem permit_eq_ok_iff {reg after : Registry} {serial : Nat} {grant : Grant Condition}
    {rules : List Rule} :
    reg.permit serial grant = .ok (after, rules) ↔
      ∃ resource actions, Name.resource grant.resource = .ok resource ∧
        Grant.actionsOf grant.actions = .ok actions ∧
        Rule.series grant.guard grant.objectId actions.length serial grant.roles = .ok rules ∧
        reg.frozen = false ∧ after = reg.addAll resource (actions.zip rules) := by
  unfold permit
  constructor
  · intro h
    -- Each step has to succeed before the next one is made; freezing is looked at last.
    obtain ⟨resource, hr, h⟩ := bind_eq_ok_iff.1 h
    obtain ⟨actions, ha, h⟩ := bind_eq_ok_iff.1 h
    obtain ⟨made, hs, h⟩ := bind_eq_ok_iff.1 h
    cases hf : reg.frozen with
    | true => simp [hf, throw, throwThe, MonadExceptOf.throw, bind, Except.bind] at h
    | false =>
      simp only [hf, Bool.false_eq_true, if_false] at h
      cases h
      exact ⟨resource, actions, hr, ha, hs, rfl, rfl⟩
  · rintro ⟨resource, actions, hr, ha, hs, hf, rfl⟩
    rw [bind_of_eq_ok hr, bind_of_eq_ok ha, bind_of_eq_ok hs, hf]
    rfl

end Registry

/-- A grant never stands for no action at all. -/
theorem Grant.actionsOf_ne_nil {v : Value} {actions : List String}
    (h : Grant.actionsOf v = .ok actions) : actions ≠ [] := by
  rintro rfl
  unfold Grant.actionsOf at h
  split at h
  · cases h
  -- A wildcard is one action, and a collection without any is refused.
  · obtain ⟨wild, -, h⟩ := bind_eq_ok_iff.1 h
    cases wild with
    | true => cases h
    | false =>
      simp only [Bool.false_eq_true, if_false] at h
      obtain ⟨names, -, h⟩ := bind_eq_ok_iff.1 h
      obtain ⟨_, -, h⟩ := bind_eq_ok_iff.1 h
      cases names with
      | nil => cases h
      | cons name rest => cases h

end Gatehouse
