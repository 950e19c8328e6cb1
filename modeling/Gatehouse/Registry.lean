import Gatehouse.Rule

/-!
The registry: for each resource and action the rules that were declared, in the order of their declaration.
Resources and actions are listed in the order in which they first had a rule. Once frozen, a registry never
changes again.
-/

namespace Gatehouse

abbrev Buckets := List (String × List Rule)

structure Registry where
  resources : List (String × Buckets)
  frozen : Bool

namespace Buckets

def get (buckets : Buckets) (action : String) : List Rule :=
  match buckets with
  | [] => []
  | (a, rules) :: rest => if a = action then rules else get rest action

def add (buckets : Buckets) (action : String) (rule : Rule) : Buckets :=
  match buckets with
  | [] => [(action, [rule])]
  | (a, rules) :: rest =>
      if a = action then (a, rules ++ [rule]) :: rest else (a, rules) :: add rest action rule

def size : Buckets → Nat
  | [] => 0
  | (_, rules) :: rest => rules.length + size rest

/-- Appends rules, each to the rules of the action beside it. -/
def addAll (buckets : Buckets) (entries : List (String × Rule)) : Buckets :=
  entries.foldl (fun b e => b.add e.1 e.2) buckets

theorem get_add_self (buckets : Buckets) (action : String) (rule : Rule) :
    (buckets.add action rule).get action = buckets.get action ++ [rule] := by
  induction buckets with
  | nil => simp [add, get]
  | cons b rest ih =>
    obtain ⟨a, rules⟩ := b
    by_cases h : a = action
    · simp [add, get, h]
    · simp [add, get, h, ih]

theorem get_add_of_ne (buckets : Buckets) {action other : String} (rule : Rule)
    (h : other ≠ action) : (buckets.add action rule).get other = buckets.get other := by
  induction buckets with
  | nil => simp [add, get, Ne.symm h]
  | cons b rest ih =>
    obtain ⟨a, rules⟩ := b
    by_cases ha : a = action
    · subst ha
      simp [add, get, Ne.symm h]
    · by_cases ho : a = other
      · subst ho
        simp [add, get, h]
      · simp [add, get, ha, ho, ih]

end Buckets

namespace Registry

def empty : Registry := ⟨[], false⟩

/-! ## 1. Looking up -/

def bucketsIn (resource : String) : List (String × Buckets) → Buckets
  | [] => []
  | (r, buckets) :: rest => if r = resource then buckets else bucketsIn resource rest

def buckets (reg : Registry) (resource : String) : Buckets := bucketsIn resource reg.resources

/-- The rules of an action on a resource, in the order in which they are tried. -/
def bucket (reg : Registry) (resource action : String) : List Rule :=
  (reg.buckets resource).get action

/-- The buckets of the resource that a value is the name of; a value that cannot be a key is a fault. -/
def bucketsOf (reg : Registry) (resource : Value) : Except Fault Buckets :=
  if resource.isKey then
    .ok (match resource.text? with
      | some r => reg.buckets r
      | none => [])
  else .error .wrongKind

def rulesFor (reg : Registry) (resource action : Value) : Except Fault (List Rule) := do
  let action ← Name.action action
  let buckets ← reg.bucketsOf resource
  return buckets.get action

def hasResource (reg : Registry) (resource : Value) : Except Fault Bool := do
  let buckets ← reg.bucketsOf resource
  return !buckets.isEmpty

def resourceNames (reg : Registry) : List String := reg.resources.map Prod.fst

def actionsFor (reg : Registry) (resource : Value) : Except Fault (List String) := do
  let buckets ← reg.bucketsOf resource
  return buckets.map Prod.fst

def sizeIn : List (String × Buckets) → Nat
  | [] => 0
  | (_, buckets) :: rest => buckets.size + sizeIn rest

def size (reg : Registry) : Nat := sizeIn reg.resources

/-! ## 2. Declaring -/

def addAllIn (resource : String) (entries : List (String × Rule)) :
    List (String × Buckets) → List (String × Buckets)
  | [] => [(resource, Buckets.addAll [] entries)]
  | (r, buckets) :: rest =>
      if r = resource then (r, buckets.addAll entries) :: rest
      else (r, buckets) :: addAllIn resource entries rest

/-- Appends rules on a resource, each under its action. -/
def addAll (reg : Registry) (resource : String) (entries : List (String × Rule)) : Registry :=
  { reg with resources := addAllIn resource entries reg.resources }

/-- Declares a grant; its rules are numbered from `serial` on. All of them are registered, or none. -/
def permit (reg : Registry) (serial : Nat) (grant : Grant Condition) :
    Except Fault (Registry × List Rule) := do
  -- Everything is checked before anything is registered.
  let resource ← Name.resource grant.resource
  let actions ← Grant.actionsOf grant.actions
  let rules ← Rule.series grant.guard grant.objectId actions.length serial grant.roles
  if reg.frozen then throw (.misconfigured (.frozen resource))
  return (reg.addAll resource (actions.zip rules), rules)

def freeze (reg : Registry) : Registry := { reg with frozen := true }

def clear (reg : Registry) : Except Fault Registry :=
  if reg.frozen then .error (.misconfigured .clearedFrozen) else .ok { reg with resources := [] }

/-! ## 3. Facts -/

theorem buckets_addAll_self (reg : Registry) (resource : String) (entries : List (String × Rule)) :
    (reg.addAll resource entries).buckets resource = (reg.buckets resource).addAll entries := by
  unfold addAll buckets
  induction reg.resources with
  | nil => simp [addAllIn, bucketsIn]
  | cons b rest ih =>
    obtain ⟨r, bs⟩ := b
    by_cases h : r = resource
    · simp [addAllIn, bucketsIn, h]
    · simpa [addAllIn, bucketsIn, h] using ih

theorem buckets_addAll_of_ne (reg : Registry) {resource other : String}
    (entries : List (String × Rule)) (h : other ≠ resource) :
    (reg.addAll resource entries).buckets other = reg.buckets other := by
  unfold addAll buckets
  induction reg.resources with
  | nil => simp [addAllIn, bucketsIn, Ne.symm h]
  | cons b rest ih =>
    obtain ⟨r, bs⟩ := b
    by_cases hr : r = resource
    · subst hr
      simp [addAllIn, bucketsIn, Ne.symm h]
    · by_cases ho : r = other
      · subst ho
        simp [addAllIn, bucketsIn, h]
      · simpa [addAllIn, bucketsIn, hr, ho] using ih

theorem frozen_freeze (reg : Registry) : reg.freeze.frozen = true := rfl

theorem clear_of_frozen {reg : Registry} (h : reg.frozen = true) :
    reg.clear = .error (.misconfigured .clearedFrozen) := by
  simp [clear, h]

end Registry

end Gatehouse
