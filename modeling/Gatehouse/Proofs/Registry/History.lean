import Mathlib.Algebra.GroupWithZero.Nat
import Gatehouse.Proofs.Registry.Contents

/-!
# History — a registry is the log of its declarations

Whatever is done to a registry, what can be looked up in it afterwards is determined by the calls that
succeeded since it was last cleared. The history of a run is that list of calls, each with the rules it
gave back; `Reflects` ties a registry to it, every operation keeps the tie, and so does every run.
-/

namespace Gatehouse.Registry

/-! ## 1. Operations and histories -/

inductive Operation where
  | permit (grant : Grant Condition)
  | clear
  | freeze
  | rulesFor (resource action : Value)
  | hasResource (resource : Value)
  | actionsFor (resource : Value)
  | resources
  | size

/-- A call that succeeded, and the rules it gave. -/
structure Declaration where
  grant : Grant Condition
  rules : List Rule

/-- One rule in the place where it was declared. -/
structure Occurrence where
  resource : String
  action : String
  rule : Rule

namespace Declaration

def actionCount (d : Declaration) : Nat :=
  match Grant.actionsOf d.grant.actions with
  | .ok actions => actions.length
  | .error _ => 0

def occurrences (d : Declaration) : List Occurrence :=
  match Name.resource d.grant.resource, Grant.actionsOf d.grant.actions with
  | .ok resource, .ok actions => (actions.zip d.rules).map fun e => ⟨resource, e.1, e.2⟩
  | _, _ => []

/-- The call names a resource and has one rule for each of its actions. -/
def IsComplete (d : Declaration) : Prop :=
  ∃ resource actions, Name.resource d.grant.resource = .ok resource ∧
    Grant.actionsOf d.grant.actions = .ok actions ∧ d.rules.length = actions.length

theorem length_occurrences {d : Declaration} (h : d.IsComplete) :
    d.occurrences.length = d.actionCount := by
  obtain ⟨resource, actions, hr, ha, hlen⟩ := h
  unfold occurrences actionCount
  rw [hr, ha]
  simp only [List.length_map, List.length_zip, hlen]
  omega

end Declaration

namespace Operation

def run (i : Nat) : Operation → Run Unit
  | .permit grant => discard (Run.permit i grant)
  | .clear => Run.clear i
  | .freeze => Run.freeze i
  | .rulesFor resource action => fun w =>
      (((w.registry i).rulesFor resource action).map fun _ => (), w)
  | .hasResource resource => fun w => (((w.registry i).hasResource resource).map fun _ => (), w)
  | .actionsFor resource => fun w => (((w.registry i).actionsFor resource).map fun _ => (), w)
  | .resources => pure ()
  | .size => pure ()

/-- The history after an operation: a call that fails leaves no mark, and clearing wipes it out. -/
def note (i : Nat) (w : World) (history : List Declaration) : Operation → List Declaration
  | .permit grant =>
      match (Run.permit i grant w).1 with
      | .ok rules => history ++ [⟨grant, rules⟩]
      | .error _ => history
  | .clear =>
      match (Run.clear i w).1 with
      | .ok _ => []
      | .error _ => history
  | _ => history

/-- The state after operations, some of which may have failed. -/
def runAll (i : Nat) : List Operation → World → World
  | [], w => w
  | op :: rest, w => runAll i rest (op.run i w).2

def noteAll (i : Nat) : List Operation → World → List Declaration → List Declaration
  | [], _, history => history
  | op :: rest, w, history => noteAll i rest (op.run i w).2 (op.note i w history)

end Operation

/-- The successful calls of a run since it last cleared the registry. -/
def historyOf (i : Nat) (ops : List Operation) (w : World) : List Declaration :=
  Operation.noteAll i ops w []

/-! ## 2. What a history says -/

def occurrencesIn (history : List Declaration) : List Occurrence :=
  history.flatMap Declaration.occurrences

def rulesDeclared (history : List Declaration) (resource action : String) : List Rule :=
  ((occurrencesIn history).filter fun o => o.resource = resource ∧ o.action = action).map (·.rule)

def resourcesDeclared (history : List Declaration) : List String :=
  ((occurrencesIn history).map (·.resource)).eraseDups

def actionsDeclared (history : List Declaration) (resource : String) : List String :=
  (((occurrencesIn history).filter fun o => o.resource = resource).map (·.action)).eraseDups

theorem occurrencesIn_concat (history : List Declaration) (d : Declaration) :
    occurrencesIn (history ++ [d]) = occurrencesIn history ++ d.occurrences := by
  simp [occurrencesIn]

theorem length_occurrencesIn {history : List Declaration} (h : ∀ d ∈ history, d.IsComplete) :
    (occurrencesIn history).length = (history.map Declaration.actionCount).sum := by
  induction history with
  | nil => rfl
  | cons d rest ih =>
    have hd : d.occurrences.length = d.actionCount :=
      Declaration.length_occurrences (h d List.mem_cons_self)
    have hrest := ih fun d' hd' => h d' (List.mem_cons_of_mem d hd')
    unfold occurrencesIn at hrest ⊢
    rw [List.flatMap_cons, List.length_append, List.map_cons, List.sum_cons, hd, hrest]

/-! ## 3. The tie between a registry and its history -/

structure Reflects (reg : Registry) (os : List Occurrence) : Prop where
  names : reg.resourceNames = (os.map (·.resource)).eraseDups
  actions : ∀ resource, (reg.buckets resource).map Prod.fst =
    ((os.filter fun o => o.resource = resource).map (·.action)).eraseDups
  rules : ∀ resource action, reg.bucket resource action =
    (os.filter fun o => o.resource = resource ∧ o.action = action).map (·.rule)
  size : reg.size = os.length

theorem reflects_of_no_resources {reg : Registry} (h : reg.resources = []) : reg.Reflects [] where
  names := by simp [resourceNames, h]
  actions resource := by simp [buckets, h, bucketsIn]
  rules resource action := by simp [bucket, buckets, h, bucketsIn, Buckets.get]
  size := by simp [size, h, sizeIn]

theorem reflects_addAll {reg : Registry} {os : List Occurrence} (h : reg.Reflects os)
    (resource : String) {entries : List (String × Rule)} (hne : entries ≠ []) :
    (reg.addAll resource entries).Reflects
      (os ++ entries.map fun e => ⟨resource, e.1, e.2⟩) where
  names := by
    -- All new occurrences are on one resource, which is therefore new at most once.
    obtain ⟨n, hn⟩ : ∃ n, entries.length = n + 1 :=
      Nat.exists_eq_succ_of_ne_zero fun h0 => hne (List.length_eq_zero_iff.1 h0)
    have hmap : (entries.map fun e => (⟨resource, e.1, e.2⟩ : Occurrence)).map (·.resource) =
        List.replicate (n + 1) resource := by
      rw [List.map_map, ← hn]
      exact List.map_const' ..
    rw [resourceNames_addAll, List.map_append, hmap, eraseDups_append_replicate, h.names]
    simp only [List.mem_eraseDups]
  actions other := by
    rw [buckets_addAll, List.filter_append, List.map_append]
    -- On its own resource the new actions come last; on any other nothing changes.
    by_cases ho : other = resource
    · subst ho
      rw [if_pos rfl, Buckets.keys_addAll (h.actions other)]
      simp [List.filter_map, Function.comp_def]
    · have hnone : (entries.map fun e => (⟨resource, e.1, e.2⟩ : Occurrence)).filter
          (fun o => o.resource = other) = [] := by
        rw [List.filter_eq_nil_iff]
        intro o hm
        obtain ⟨e, -, rfl⟩ := List.mem_map.1 hm
        simpa using Ne.symm ho
      rw [if_neg ho, hnone, h.actions other, List.map_nil, List.append_nil]
  rules other action := by
    rw [bucket_addAll, h.rules other action, List.filter_append, List.map_append]
    simp [List.filter_map, Function.comp_def, eq_comm]
  size := by
    rw [size_addAll, h.size, List.length_append, List.length_map]

/-- A registry and the history that it is the outcome of. -/
structure IsLogOf (reg : Registry) (history : List Declaration) : Prop where
  reflects : reg.Reflects (occurrencesIn history)
  complete : ∀ d ∈ history, d.IsComplete

theorem isLogOf_permit {reg after : Registry} {history : List Declaration} {serial : Nat}
    {grant : Grant Condition} {rules : List Rule} (h : reg.IsLogOf history)
    (hp : reg.permit serial grant = .ok (after, rules)) :
    after.IsLogOf (history ++ [⟨grant, rules⟩]) := by
  obtain ⟨resource, actions, hr, ha, hs, -, rfl⟩ := permit_eq_ok_iff.1 hp
  have hlen : rules.length = actions.length := Rule.length_series hs
  -- A declaration always adds something: there is an action, and a rule for each.
  have hne : actions.zip rules ≠ [] := by
    intro hnil
    have hzero : (actions.zip rules).length = 0 := by rw [hnil, List.length_nil]
    rw [List.length_zip, hlen, Nat.min_self] at hzero
    exact Grant.actionsOf_ne_nil ha (List.length_eq_zero_iff.1 hzero)
  constructor
  · have hnew : Declaration.occurrences ⟨grant, rules⟩ =
        (actions.zip rules).map fun e => ⟨resource, e.1, e.2⟩ := by
      unfold Declaration.occurrences
      rw [hr, ha]
    rw [occurrencesIn_concat, hnew]
    exact reflects_addAll h.reflects resource hne
  · intro d hd
    rcases List.mem_append.1 hd with hd | hd
    · exact h.complete d hd
    · rw [List.mem_singleton.1 hd]
      exact ⟨resource, actions, hr, ha, hlen⟩

theorem isLogOf_of_no_resources {reg : Registry} (h : reg.resources = []) : reg.IsLogOf [] :=
  ⟨reflects_of_no_resources h, fun _ hd => absurd hd List.not_mem_nil⟩

theorem isLogOf_clear {reg after : Registry} (hc : reg.clear = .ok after) : after.IsLogOf [] := by
  unfold clear at hc
  split at hc
  · cases hc
  · cases hc
    exact isLogOf_of_no_resources rfl

theorem isLogOf_freeze {reg : Registry} {history : List Declaration} (h : reg.IsLogOf history) :
    reg.freeze.IsLogOf history :=
  ⟨⟨h.reflects.names, h.reflects.actions, h.reflects.rules, h.reflects.size⟩, h.complete⟩

/-! ## 4. Steps and runs -/

variable {i : Nat}

theorem isLogOf_step {w : World} {history : List Declaration} (hi : i < w.registries.length)
    (h : (w.registry i).IsLogOf history) (op : Operation) :
    i < (op.run i w).2.registries.length ∧
      ((op.run i w).2.registry i).IsLogOf (op.note i w history) := by
  cases op with
  | permit grant =>
    rw [Operation.run, Run.discard_run, Operation.note]
    -- A call that fails leaves the registry and the history as they were.
    cases hp : (w.registry i).permit w.nextRule grant with
    | error f =>
      rw [Run.permit_of_error hp]
      exact ⟨hi, h⟩
    | ok out =>
      obtain ⟨reg, rules⟩ := out
      rw [Run.permit_of_ok hp]
      refine ⟨by simpa [World.setRegistry] using hi, ?_⟩
      change ((w.setRegistry i reg).registry i).IsLogOf (history ++ [⟨grant, rules⟩])
      rw [World.registry_setRegistry_self reg hi]
      exact isLogOf_permit h hp
  | clear =>
    rw [Operation.run, Operation.note]
    unfold Run.clear
    cases hc : (w.registry i).clear with
    | error f => exact ⟨hi, h⟩
    | ok reg =>
      refine ⟨by simpa [World.setRegistry] using hi, ?_⟩
      change ((w.setRegistry i reg).registry i).IsLogOf []
      rw [World.registry_setRegistry_self reg hi]
      exact isLogOf_clear hc
  | freeze =>
    refine ⟨by simpa [Operation.run, Run.freeze, Run.change, World.setRegistry] using hi, ?_⟩
    change ((w.setRegistry i (w.registry i).freeze).registry i).IsLogOf history
    rw [World.registry_setRegistry_self _ hi]
    exact isLogOf_freeze h
  -- Looking something up changes neither.
  | rulesFor resource action => exact ⟨hi, h⟩
  | hasResource resource => exact ⟨hi, h⟩
  | actionsFor resource => exact ⟨hi, h⟩
  | resources => exact ⟨hi, h⟩
  | size => exact ⟨hi, h⟩

theorem isLogOf_noteAll {w : World} {history : List Declaration} (hi : i < w.registries.length)
    (h : (w.registry i).IsLogOf history) (ops : List Operation) :
    ((Operation.runAll i ops w).registry i).IsLogOf (Operation.noteAll i ops w history) := by
  -- Induction on the run: a step takes the tie to the next state and the next history.
  induction ops generalizing w history with
  | nil => exact h
  | cons op rest ih =>
    obtain ⟨hi', h'⟩ := isLogOf_step hi h op
    exact ih hi' h'

theorem isLogOf_historyOf {w : World} (hi : i < w.registries.length)
    (hempty : (w.registry i).resources = []) (ops : List Operation) :
    ((Operation.runAll i ops w).registry i).IsLogOf (historyOf i ops w) :=
  isLogOf_noteAll hi (isLogOf_of_no_resources hempty) ops

/-! ## 5. Looking up what was declared -/

section

variable {reg : Registry} {history : List Declaration}

theorem rulesFor_of_isLogOf (h : reg.IsLogOf history) (resource : String) (action : Value) :
    reg.rulesFor (.text resource) action =
      (Name.action action).map (rulesDeclared history resource) := by
  unfold rulesFor
  cases Name.action action with
  | error f => rfl
  | ok a => exact congrArg Except.ok (h.reflects.rules resource a)

theorem mem_resourceNames_iff (h : reg.IsLogOf history) (resource : String) :
    resource ∈ reg.resourceNames ↔ ∃ action, action ∈ actionsDeclared history resource := by
  unfold actionsDeclared
  simp only [h.reflects.names, List.mem_eraseDups, List.mem_map, List.mem_filter,
    decide_eq_true_eq]
  constructor
  · rintro ⟨o, ho, hor⟩
    exact ⟨o.action, o, ⟨ho, hor⟩, rfl⟩
  · rintro ⟨_, o, ⟨ho, hor⟩, _⟩
    exact ⟨o, ho, hor⟩

theorem hasResource_of_isLogOf (h : reg.IsLogOf history) (resource : String) :
    reg.hasResource (.text resource) = .ok (decide (resource ∈ reg.resourceNames)) := by
  have hkeys : (reg.buckets resource).map Prod.fst = actionsDeclared history resource :=
    h.reflects.actions resource
  change Except.ok (!(reg.buckets resource).isEmpty) = _
  -- A listed resource has an action listed, so its buckets are not empty.
  by_cases hm : resource ∈ reg.resourceNames
  · obtain ⟨action, ha⟩ := (mem_resourceNames_iff h resource).1 hm
    have hne : (reg.buckets resource).isEmpty = false := by
      cases hb : reg.buckets resource with
      | nil =>
        rw [← hkeys, hb] at ha
        exact absurd ha List.not_mem_nil
      | cons b rest => rfl
    rw [hne, decide_eq_true hm]
    rfl
  · rw [buckets_of_not_mem hm, decide_eq_false hm]
    rfl

theorem rulesDeclared_ne_nil {resource action : String}
    (hm : action ∈ actionsDeclared history resource) :
    rulesDeclared history resource action ≠ [] := by
  unfold actionsDeclared at hm
  rw [List.mem_eraseDups, List.mem_map] at hm
  obtain ⟨o, ho, rfl⟩ := hm
  obtain ⟨ho, hor⟩ := List.mem_filter.1 ho
  have hmem : o.rule ∈ rulesDeclared history resource o.action :=
    List.mem_map_of_mem (List.mem_filter.2 ⟨ho, by simpa using hor⟩)
  exact List.ne_nil_of_mem hmem

/-- Everything that can be looked up in a registry, as its history has it. -/
structure AnswersAs (reg : Registry) (history : List Declaration) : Prop where
  complete : ∀ d ∈ history, d.IsComplete
  rulesFor : ∀ resource action, reg.rulesFor (.text resource) action =
    (Name.action action).map (rulesDeclared history resource)
  resources : reg.resourceNames = resourcesDeclared history
  actionsFor : ∀ resource,
    reg.actionsFor (.text resource) = .ok (actionsDeclared history resource)
  hasResource : ∀ resource,
    reg.hasResource (.text resource) = .ok (decide (resource ∈ reg.resourceNames))
  resource_holds_rule : ∀ resource ∈ reg.resourceNames, ∃ action rules,
    reg.rulesFor (.text resource) (.action action) = .ok rules ∧ rules ≠ []
  action_holds_rule : ∀ resource actions, reg.actionsFor (.text resource) = .ok actions →
    ∀ action ∈ actions, ∃ rules,
      reg.rulesFor (.text resource) (.action action) = .ok rules ∧ rules ≠ []
  size : reg.size = (history.map Declaration.actionCount).sum

theorem answersAs_of_isLogOf (h : reg.IsLogOf history) : reg.AnswersAs history where
  complete := h.complete
  rulesFor := rulesFor_of_isLogOf h
  resources := h.reflects.names
  actionsFor resource := congrArg Except.ok (h.reflects.actions resource)
  hasResource := hasResource_of_isLogOf h
  resource_holds_rule resource hm := by
    obtain ⟨action, ha⟩ := (mem_resourceNames_iff h resource).1 hm
    exact ⟨action, _, rulesFor_of_isLogOf h resource (.action action), rulesDeclared_ne_nil ha⟩
  action_holds_rule resource actions hactions action ha := by
    have hlisted : reg.actionsFor (.text resource) = .ok (actionsDeclared history resource) :=
      congrArg Except.ok (h.reflects.actions resource)
    rw [hactions, Except.ok.injEq] at hlisted
    rw [hlisted] at ha
    exact ⟨_, rulesFor_of_isLogOf h resource (.action action), rulesDeclared_ne_nil ha⟩
  size := by rw [h.reflects.size, length_occurrencesIn h.complete]

end

/-- After any run on a registry that starts without rules, every answer it gives is the one that the
successful declarations since the last clearing determine. -/
theorem answersAs_historyOf {w : World} (hi : i < w.registries.length)
    (hempty : (w.registry i).resources = []) (ops : List Operation) :
    ((Operation.runAll i ops w).registry i).AnswersAs (historyOf i ops w) :=
  answersAs_of_isLogOf (isLogOf_historyOf hi hempty ops)

/-- Declaring, clearing, declaring again with a repeated action, failing, freezing, failing. -/
def sampleRun : List Operation :=
  let grant (resource : String) (actions roles : List Value) : Operation :=
    .permit ⟨.text resource, .list actions, .list roles, .absent, .null⟩
  [grant "orders" [.text "index"] [.text "admin"], .clear,
    grant " Products " [.text "show", .text "EDIT", .text "Show"] [.text "admin"],
    grant "products" [.text "index"] [], .freeze, .clear, grant "users" [.text "show"] [.all]]

theorem answersAs_historyOf_sampleRun :
    0 < World.initial.registries.length ∧ (World.initial.registry 0).resources = [] ∧
      ((Operation.runAll 0 sampleRun World.initial).registry 0).AnswersAs
        (historyOf 0 sampleRun World.initial) ∧
      actionsDeclared (historyOf 0 sampleRun World.initial) "products" = ["show", "edit"] ∧
      ((Operation.runAll 0 sampleRun World.initial).registry 0).size = 3 :=
  ⟨by decide, rfl, answersAs_historyOf (by decide) rfl sampleRun, by decide +kernel,
    by decide +kernel⟩

end Gatehouse.Registry
