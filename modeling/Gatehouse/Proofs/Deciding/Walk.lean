import Mathlib.Data.List.ProdSigma
import Gatehouse.Proofs.Deciding.Stages

/-!
# Walk — deciding is one walk from left to right

The scan goes through resources, then actions, then rules, and stops in the middle of all three. Seen from
outside it is a walk along one list, the rules of all its buckets in a row: the first candidate that is
not turned down ends it. `walk` is that walk on a list without any state, and each loop of the scan is a
walk along its part of the list.
-/

namespace Gatehouse

/-- A condition that answers or fails, and does nothing else. -/
def Condition.IsPlain (c : Condition) : Prop := ∃ f, c = .answer f

/-- The object that a rule's condition is asked about. -/
def Check.object (check : Check) (r : Rule) : Value := (check.ids.get? r.objectId).getD .null

namespace Rule

def IsPlain (r : Rule) : Prop := ∀ c, r.condition = some c → c.IsPlain

/-- Whether a rule admits a request, by its roles and what its condition answers. -/
def verdict (r : Rule) (check : Check) : Except Fault Bool :=
  match r.roles.cover check.user, r.condition with
  | .ok true, some (.answer f) => (f check.user (check.object r)).map Value.truthy
  | covered, _ => covered

/-- The questions that a rule puts to its condition: one if the role is right, none otherwise. -/
def questions (r : Rule) (check : Check) : List (Value × Value) :=
  match r.roles.cover check.user, r.condition with
  | .ok true, some _ => [(check.user, check.object r)]
  | _, _ => []

end Rule

/-- A rule in the place where a scan comes to it. -/
structure Candidate where
  scope : String
  action : String
  rule : Rule

namespace Candidate

def verdict (c : Candidate) (check : Check) : Except Fault Bool := c.rule.verdict check

def questions (check : Check) (c : Candidate) : List (Value × Value) := c.rule.questions check

/-- The grant by a candidate that comes after `tried` others. -/
def grant (c : Candidate) (check : Check) (tried : Nat) : Decision :=
  .granted check.resource check.action c.scope c.action c.rule.text (tried + 1)

end Candidate

/-- Rules that a scan comes to in the same place. -/
def candidates (scope action : String) (rules : List Rule) : List Candidate :=
  rules.map fun rule => ⟨scope, action, rule⟩

def Registry.candidatesAt (reg : Registry) (scope action : String) : List Candidate :=
  candidates scope action (reg.bucket scope action)

/-! ## 1. The walk -/

def walk (check : Check) : List Candidate → (tried : Nat) → Except Fault Progress
  | [], tried => .ok (.tried tried)
  | c :: rest, tried =>
      match c.verdict check with
      | .error f => .error f
      | .ok true => .ok (.granted (c.grant check tried))
      | .ok false => walk check rest (tried + 1)

/-- The questions put on a walk. -/
def asked (check : Check) : List Candidate → List (Value × Value)
  | [] => []
  | c :: rest =>
      match c.verdict check with
      | .ok false => c.questions check ++ asked check rest
      | _ => c.questions check

section

variable {check : Check} {cs : List Candidate}

theorem walk_append (cs more : List Candidate) (tried : Nat) :
    walk check (cs ++ more) tried = match walk check cs tried with
      | .ok (.tried tried) => walk check more tried
      | ended => ended := by
  -- Only a candidate that is turned down lets the walk go on, and the count grows with it.
  induction cs generalizing tried with
  | nil => rfl
  | cons c rest ih =>
    rw [List.cons_append, walk, walk]
    cases c.verdict check with
    | error f => rfl
    | ok admitted =>
      cases admitted with
      | true => rfl
      | false => exact ih (tried + 1)

theorem asked_append (cs more : List Candidate) (tried : Nat) :
    asked check (cs ++ more) = match walk check cs tried with
      | .ok (.tried _) => asked check cs ++ asked check more
      | _ => asked check cs := by
  induction cs generalizing tried with
  | nil => rfl
  | cons c rest ih =>
    rw [List.cons_append, walk, asked, asked]
    cases c.verdict check with
    | error f => rfl
    | ok admitted =>
      cases admitted with
      | true => rfl
      | false =>
        change c.questions check ++ asked check (rest ++ more) = _
        rw [ih (tried + 1)]
        cases walk check rest (tried + 1) with
        | error f => rfl
        | ok progress =>
          cases progress with
          | granted decision => rfl
          | tried count => exact (List.append_assoc _ _ _).symm

/-- Candidates that are all turned down are all tried and asked. -/
theorem walk_of_denied (h : ∀ c ∈ cs, c.verdict check = .ok false) (tried : Nat) :
    walk check cs tried = .ok (.tried (tried + cs.length)) ∧
      asked check cs = cs.flatMap (Candidate.questions check) := by
  induction cs generalizing tried with
  | nil => exact ⟨rfl, rfl⟩
  | cons c rest ih =>
    obtain ⟨hwalk, hasked⟩ := ih (fun d hd => h d (List.mem_cons_of_mem c hd)) (tried + 1)
    have hc : c.verdict check = .ok false := h c List.mem_cons_self
    constructor
    · rw [walk, hc, List.length_cons]
      change walk check rest (tried + 1) = _
      rw [hwalk, show tried + 1 + rest.length = tried + (rest.length + 1) by omega]
    · rw [asked, hc, List.flatMap_cons]
      exact congrArg (c.questions check ++ ·) hasked

/-- What comes behind the candidate that ends a walk does not count. -/
theorem walk_of_split {before : List Candidate} {last : Candidate} (after : List Candidate)
    (h : ∀ c ∈ before, c.verdict check = .ok false) (hlast : last.verdict check ≠ .ok false) :
    walk check (before ++ last :: after) 0 =
        (last.verdict check).map (fun _ => .granted (last.grant check before.length)) ∧
      asked check (before ++ last :: after) =
        (before ++ [last]).flatMap (Candidate.questions check) := by
  -- Everything before the last one has been turned down, so the walk reaches it.
  obtain ⟨hwalk, hasked⟩ := walk_of_denied h 0
  rw [Nat.zero_add] at hwalk
  constructor
  · rw [walk_append, hwalk]
    change walk check (last :: after) before.length = _
    rw [walk]
    cases hv : last.verdict check with
    | error f => rfl
    | ok admitted =>
      cases admitted with
      | true => rfl
      | false => exact absurd hv hlast
  · rw [asked_append before _ 0, hwalk]
    change asked check before ++ asked check (last :: after) = _
    rw [hasked, List.flatMap_append, List.flatMap_singleton, asked]
    cases hv : last.verdict check with
    | error f => rfl
    | ok admitted =>
      cases admitted with
      | true => rfl
      | false => exact absurd hv hlast

end

/-! ## 2. Each loop of the scan is a walk -/

section

variable (decide : Value → Run Bool) (check : Check)

/-- Without a condition, or with the wrong role, the role decides alone. -/
theorem Rule.admits_of_role {r : Rule} (h : r.roles.cover check.user = .ok true → r.condition = none)
    (w : World) : r.admits decide check.objectOf check.user w =
      (r.roles.cover check.user, w.asking [] (w.log.emit .debug (.ok ("trying " ++ r.text)))) := by
  unfold Rule.admits
  rw [Run.bind_of_ok (Run.trace_run .debug _ w)]
  cases hcover : r.roles.cover check.user with
  | error f => exact Run.bind_of_error (Run.ofExcept_run _ _)
  | ok covered =>
    rw [Run.bind_of_ok (Run.ofExcept_run _ _)]
    cases covered with
    | false => cases r.condition <;> rfl
    | true =>
      rw [h hcover]
      rfl

/-- Once the role is right, the condition is asked; the question is counted before the answer is known. -/
theorem Rule.admits_of_condition {r : Rule} {c : Condition} (hcover : r.roles.cover check.user = .ok true)
    (hc : r.condition = some c) (w : World) :
    r.admits decide check.objectOf check.user w =
      (c.ask decide check.user (check.object r) >>= fun answer => pure answer.truthy)
        (w.asking [(check.user, check.object r)] (w.log.emit .debug (.ok ("trying " ++ r.text)))) := by
  have hcalls : (w.asking [] (w.log.emit .debug (.ok ("trying " ++ r.text)))).calls = w.calls :=
    List.append_nil _
  unfold Rule.admits
  rw [Run.bind_of_ok (Run.trace_run .debug _ w), hcover, Run.bind_of_ok (Run.ofExcept_run _ _), hc]
  simp only [Bool.not_true, Bool.false_eq_true, if_false]
  rw [show check.objectOf r.objectId = .ok (check.object r) from rfl,
    Run.bind_of_ok (Run.ofExcept_run _ _), Run.bind_of_ok (Run.change_run _ _), hcalls]
  exact rfl

theorem Rule.admits_run {r : Rule} (h : r.IsPlain) (w : World) :
    ∃ log, r.admits decide check.objectOf check.user w =
      (r.verdict check, w.asking (r.questions check) log) := by
  refine ⟨w.log.emit .debug (.ok ("trying " ++ r.text)), ?_⟩
  unfold Rule.verdict Rule.questions
  by_cases hrole : r.roles.cover check.user = .ok true → r.condition = none
  · rw [Rule.admits_of_role decide check hrole]
    cases hcover : r.roles.cover check.user with
    | error f => rfl
    | ok covered =>
      cases covered with
      | false => rfl
      | true =>
        rw [hrole hcover]
  · obtain ⟨hcover, hsome⟩ := Classical.not_imp.1 hrole
    obtain ⟨c, hc⟩ := Option.ne_none_iff_exists'.1 hsome
    obtain ⟨f, rfl⟩ := h c hc
    rw [Rule.admits_of_condition decide check hcover hc, hcover, hc, Condition.ask]
    change _ = ((f check.user (check.object r)).map Value.truthy, w.asking [(check.user, check.object r)] _)
    cases f check.user (check.object r) with
    | error f' => exact Run.bind_of_error (Run.ofExcept_run _ _)
    | ok answer => exact Run.bind_of_ok (Run.ofExcept_run _ _)

theorem Engine.tryRules_run (scope action : String) {rules : List Rule}
    (h : ∀ r ∈ rules, r.IsPlain) (tried : Nat) (w : World) :
    ∃ log, Engine.tryRules decide check scope action rules tried w =
      (walk check (candidates scope action rules) tried,
        w.asking (asked check (candidates scope action rules)) log) := by
  unfold candidates
  -- The state changes from rule to rule by questions and log lines only, so that `asking` composes.
  induction rules generalizing tried w with
  | nil => exact ⟨w.log, by rw [List.map_nil, asked, World.asking_nil]; rfl⟩
  | cons r rest ih =>
    obtain ⟨log, hadmits⟩ := Rule.admits_run decide check (h r List.mem_cons_self) w
    unfold Engine.tryRules
    rw [List.map_cons, walk, asked]
    rw [show Candidate.verdict ⟨scope, action, r⟩ check = r.verdict check from rfl]
    cases hv : r.verdict check with
    | error f =>
      rw [hv] at hadmits
      exact ⟨log, Run.bind_of_error hadmits⟩
    | ok admitted =>
      rw [hv] at hadmits
      rw [Run.bind_of_ok hadmits]
      cases admitted with
      | true => exact ⟨log, rfl⟩
      | false =>
        obtain ⟨log', hrest⟩ := ih (fun s hs => h s (List.mem_cons_of_mem r hs)) (tried + 1)
          (w.asking (r.questions check) log)
        rw [World.asking_asking] at hrest
        exact ⟨log', hrest⟩

/-- The buckets of one resource are walked through in a row. -/
theorem Engine.scanActions_run (e : Engine) (scope : String) {actions : List String} {reg : Registry}
    (h : ∀ action ∈ actions, ∀ r ∈ reg.bucket scope action, r.IsPlain) (tried : Nat) {w : World}
    (hreg : w.registry e.registry = reg) :
    ∃ log, e.scanActions decide check scope actions tried w =
      (walk check (actions.flatMap (reg.candidatesAt scope)) tried,
        w.asking (asked check (actions.flatMap (reg.candidatesAt scope))) log) := by
  induction actions generalizing tried w with
  | nil => exact ⟨w.log, by rw [List.flatMap_nil, asked, World.asking_nil]; rfl⟩
  | cons action rest ih =>
    obtain ⟨log, hlog⟩ := e.trace_run .debug (.ok ("current action: " ++ action)) w
    obtain ⟨log', htry⟩ := tryRules_run decide check scope action
      (h action List.mem_cons_self) tried (w.asking [] log)
    rw [World.asking_asking, List.nil_append] at htry
    unfold scanActions
    rw [Run.bind_of_ok hlog, Run.bind_of_ok (Run.read_run _ _), World.registry_asking, hreg,
      List.flatMap_cons, walk_append, asked_append _ _ tried]
    -- The bucket is read in a state that differs from the first one in questions and log at most.
    change tryRules _ _ _ _ _ _ _ = (walk check (reg.candidatesAt scope action) tried, _) at htry
    cases hwalk : walk check (reg.candidatesAt scope action) tried with
    | error f =>
      rw [hwalk] at htry
      exact ⟨log', Run.bind_of_error htry⟩
    | ok progress =>
      rw [hwalk] at htry
      rw [Run.bind_of_ok htry]
      cases progress with
      | granted decision => exact ⟨log', rfl⟩
      | tried count =>
        have hplain := fun a ha => h a (List.mem_cons_of_mem action ha)
        obtain ⟨log'', hrest⟩ := ih hplain count
          (w := w.asking (asked check (reg.candidatesAt scope action)) log') hreg
        rw [World.asking_asking] at hrest
        exact ⟨log'', hrest⟩

/-- What happens before the buckets of a resource are looked at. -/
def Engine.load (e : Engine) (scope : String) : Run Unit :=
  match e.loader with
  | some loader => Loader.ensure loader (.text scope)
  | none => pure ()

theorem Engine.scanScopes_cons (e : Engine) (scope : String) (rest : List String) (tried : Nat) :
    e.scanScopes decide check (scope :: rest) tried = (do
      e.trace .debug (.ok ("current resource: " ++ scope))
      e.load scope
      match ← e.scanActions decide check scope (actionScopes check.action) tried with
      | .granted decision => return .granted decision
      | .tried tried => e.scanScopes decide check rest tried) := by
  rw [scanScopes]
  unfold load
  cases e.loader <;> rfl

/-- Without a loader, the buckets of all resources are walked through in a row. -/
theorem Engine.scanScopes_run {e : Engine} (hloader : e.loader = none) {scopes : List String}
    {reg : Registry}
    (h : ∀ scope ∈ scopes, ∀ action ∈ actionScopes check.action, ∀ r ∈ reg.bucket scope action,
      r.IsPlain) (tried : Nat) {w : World} (hreg : w.registry e.registry = reg) :
    ∃ log, e.scanScopes decide check scopes tried w =
      (walk check (scopes.flatMap fun scope =>
          (actionScopes check.action).flatMap (reg.candidatesAt scope)) tried,
        w.asking (asked check (scopes.flatMap fun scope =>
          (actionScopes check.action).flatMap (reg.candidatesAt scope))) log) := by
  induction scopes generalizing tried w with
  | nil => exact ⟨w.log, by rw [List.flatMap_nil, asked, World.asking_nil]; rfl⟩
  | cons scope rest ih =>
    obtain ⟨log, hlog⟩ := e.trace_run .debug (.ok ("current resource: " ++ scope)) w
    obtain ⟨log', hscan⟩ := e.scanActions_run decide check scope (h scope List.mem_cons_self) tried
      (w := w.asking [] log) hreg
    rw [World.asking_asking, List.nil_append] at hscan
    -- There is nothing to load, so the registry is the same for every resource.
    have hload : e.load scope (w.asking [] log) = (.ok (), w.asking [] log) := by
      unfold load
      rw [hloader]
      rfl
    rw [scanScopes_cons, Run.bind_of_ok hlog, Run.bind_of_ok hload, List.flatMap_cons, walk_append,
      asked_append _ _ tried]
    cases hwalk : walk check ((actionScopes check.action).flatMap (reg.candidatesAt scope)) tried with
    | error f =>
      rw [hwalk] at hscan
      exact ⟨log', Run.bind_of_error hscan⟩
    | ok progress =>
      rw [hwalk] at hscan
      rw [Run.bind_of_ok hscan]
      cases progress with
      | granted decision => exact ⟨log', rfl⟩
      | tried count =>
        have hplain := fun s hs => h s (List.mem_cons_of_mem scope hs)
        obtain ⟨log'', hrest⟩ := ih hplain count (w := w.asking (asked check
          ((actionScopes check.action).flatMap (reg.candidatesAt scope))) log') hreg
        rw [World.asking_asking] at hrest
        exact ⟨log'', hrest⟩

end

/-! ## 3. The list that a decision walks along -/

namespace Engine

/-- The buckets that count for a request, from the most specific resource and the most general action
on; none comes twice. -/
def places (e : Engine) (check : Check) : List (String × String) :=
  ([check.resource, e.fallback] ×ˢ [Name.everyAction, check.action]).eraseDups

/-- The rules of all these buckets in a row. -/
def candidates (e : Engine) (reg : Registry) (check : Check) : List Candidate :=
  (e.places check).flatMap fun p => reg.candidatesAt p.1 p.2

variable {e : Engine} {check : Check}

theorem places_eq (e : Engine) (check : Check) :
    e.places check = (e.scopes check.resource).flatMap fun scope =>
      (actionScopes check.action).map fun action => (scope, action) := by
  -- Either pair may be a pair of equals, which gives four lists to compare.
  unfold places scopes actionScopes
  by_cases hr : check.resource = e.fallback
  · by_cases ha : check.action = Name.everyAction
    · rw [if_pos hr, if_pos ha, ha, hr]
      simp [SProd.sprod, List.product, List.eraseDups_cons]
    · rw [if_pos hr, if_neg ha, hr]
      simp [SProd.sprod, List.product, List.eraseDups_cons, ha]
  · by_cases ha : check.action = Name.everyAction
    · rw [if_neg hr, if_pos ha, ha]
      simp [SProd.sprod, List.product, List.eraseDups_cons, Ne.symm hr]
    · rw [if_neg hr, if_neg ha]
      simp [SProd.sprod, List.product, List.eraseDups_cons, ha, Ne.symm hr]

theorem candidates_eq (e : Engine) (reg : Registry) (check : Check) :
    e.candidates reg check = (e.scopes check.resource).flatMap fun scope =>
      (actionScopes check.action).flatMap (reg.candidatesAt scope) := by
  unfold candidates
  rw [places_eq, List.flatMap_assoc]
  simp only [List.flatMap_map]

theorem nodup_places (e : Engine) (check : Check) : (e.places check).Nodup := by
  rw [places_eq]
  unfold scopes actionScopes
  by_cases hr : check.resource = e.fallback
  · by_cases ha : check.action = Name.everyAction
    · simp [hr, ha]
    · simp [hr, ha, Ne.symm ha]
  · by_cases ha : check.action = Name.everyAction
    · simp [hr, ha]
    · simp [hr, ha, Ne.symm ha]

theorem mem_candidates_iff {reg : Registry} {c : Candidate} :
    c ∈ e.candidates reg check ↔ (c.scope = check.resource ∨ c.scope = e.fallback) ∧
      (c.action = Name.everyAction ∨ c.action = check.action) ∧
      c.rule ∈ reg.bucket c.scope c.action := by
  unfold candidates places
  simp only [List.mem_flatMap, List.mem_eraseDups, Registry.candidatesAt, Gatehouse.candidates,
    List.mem_map, Prod.exists, List.mem_product, List.mem_cons, List.not_mem_nil, or_false]
  constructor
  · rintro ⟨scope, action, ⟨hs, ha⟩, rule, hrule, rfl⟩
    exact ⟨hs, ha, hrule⟩
  · rintro ⟨hs, ha, hrule⟩
    exact ⟨c.scope, c.action, ⟨hs, ha⟩, c.rule, hrule, rfl⟩

end Engine

/-- The decision that a finished scan comes to. -/
def Progress.decision (check : Check) : Progress → Decision
  | .granted decision => decision
  | .tried count => .noRule check.resource check.action count

namespace Engine

variable {e : Engine} {check : Check} {target : Value} {options : List (Value × Value)}
  {host : Option Host}

theorem scan_run {decide : Value → Run Bool} {w after : World} {progress : Except Fault Progress}
    (h : e.scanScopes decide check (e.scopes check.resource) 0 w = (progress, after)) :
    e.scan decide check w = (progress.map (Progress.decision check), after) := by
  unfold scan
  cases progress with
  | error f => exact Run.bind_of_error h
  | ok progress =>
    rw [Run.bind_of_ok h]
    cases progress <;> rfl

/-- A decision without a loader is the walk along the candidates, and changes nothing but the questions
put and the log. -/
theorem decide_run {w : World} (hloader : e.loader = none)
    (hcheck : e.checkOf target options host = .ok (some check))
    (hplain : ∀ c ∈ e.candidates (w.registry e.registry) check, c.rule.IsPlain) :
    ∃ log, e.decide target options host w =
      ((walk check (e.candidates (w.registry e.registry) check) 0).map (Progress.decision check),
        w.asking (asked check (e.candidates (w.registry e.registry) check)) log) := by
  -- The candidates are flattened in the order of the loops, resources outside and actions inside.
  rw [candidates_eq] at hplain ⊢
  have hbuckets : ∀ scope ∈ e.scopes check.resource, ∀ action ∈ actionScopes check.action,
      ∀ r ∈ (w.registry e.registry).bucket scope action, r.IsPlain := by
    intro scope hs action ha r hr
    exact hplain ⟨scope, action, r⟩ (List.mem_flatMap.2 ⟨scope, hs, List.mem_flatMap.2
      ⟨action, ha, List.mem_map_of_mem hr⟩⟩)
  obtain ⟨log, hdecide⟩ := decide_of_check hcheck w
  obtain ⟨log', hscan⟩ := scanScopes_run (e.consultation (depthLimit - 1)) check hloader hbuckets 0
    (w := w.asking [] log) rfl
  rw [World.asking_asking, List.nil_append] at hscan
  obtain ⟨log'', h⟩ := hdecide _ _ (scan_run hscan)
  rw [World.asking_asking, List.append_nil] at h
  exact ⟨log'', h⟩

/-- Along the rules of its buckets, a decision stops at the first rule that admits the request or fails;
if there is none, all rules have been tried. The rules that it came to have put their questions, and the
state is otherwise as it was, but for the log. -/
theorem decide_stops_at_first {w : World} (hloader : e.loader = none)
    (hcheck : e.checkOf target options host = .ok (some check))
    (hplain : ∀ c ∈ e.candidates (w.registry e.registry) check, c.rule.IsPlain) :
    (e.places check).Nodup ∧
    (∀ before hit after, e.candidates (w.registry e.registry) check = before ++ hit :: after →
      (∀ c ∈ before, c.verdict check = .ok false) → hit.verdict check = .ok true →
      ∃ log, e.decide target options host w =
        (.ok (.granted check.resource check.action hit.scope hit.action hit.rule.text
            (before.length + 1)),
          w.asking ((before ++ [hit]).flatMap (Candidate.questions check)) log)) ∧
    (∀ before bad after f, e.candidates (w.registry e.registry) check = before ++ bad :: after →
      (∀ c ∈ before, c.verdict check = .ok false) → bad.verdict check = .error f →
      ∃ log, e.decide target options host w =
        (.error f, w.asking ((before ++ [bad]).flatMap (Candidate.questions check)) log)) ∧
    ((∀ c ∈ e.candidates (w.registry e.registry) check, c.verdict check = .ok false) →
      ∃ log, e.decide target options host w =
        (.ok (.noRule check.resource check.action
            (e.candidates (w.registry e.registry) check).length),
          w.asking ((e.candidates (w.registry e.registry) check).flatMap
            (Candidate.questions check)) log)) := by
  obtain ⟨log, hrun⟩ := decide_run hloader hcheck hplain
  -- In each case the list splits at the candidate that ends the walk, or has none.
  refine ⟨nodup_places e check, ?_, ?_, ?_⟩
  · intro before hit after hsplit hbefore hhit
    have hlast : hit.verdict check ≠ .ok false := fun h => by rw [hhit] at h; cases h
    obtain ⟨hwalk, hasked⟩ := walk_of_split after hbefore hlast
    rw [hsplit, hwalk, hasked, hhit] at hrun
    exact ⟨log, hrun⟩
  · intro before bad after f hsplit hbefore hbad
    have hlast : bad.verdict check ≠ .ok false := fun h => by rw [hbad] at h; cases h
    obtain ⟨hwalk, hasked⟩ := walk_of_split after hbefore hlast
    rw [hsplit, hwalk, hasked, hbad] at hrun
    exact ⟨log, hrun⟩
  · intro hdenied
    obtain ⟨hwalk, hasked⟩ := walk_of_denied hdenied 0
    rw [hwalk, hasked, Nat.zero_add] at hrun
    exact ⟨log, hrun⟩

/-! ## 4. A walk that stops at its second rule -/

/-- An engine over the first registry, with nothing around it. -/
def sample : Engine where
  serial := 0
  registry := 0
  host := none
  loader := none
  adapter := Adapter.make none ""
  fallback := "application"
  muted := false
  consulted := true

def sampleOptions : List (Value × Value) :=
  [(.text "user", .principal (.int 1) (.text "admin") none), (.text "controller", .text " Products "),
    (.text "action", .text "SHOW"), (.text "product_id", .int 7)]

def sampleCheck : Check where
  user := .principal (.int 1) (.text "admin") none
  resource := "products"
  action := "show"
  ids := [("product_id", .int 7)]

theorem checkOf_sample : sample.checkOf .null sampleOptions none = .ok (some sampleCheck) := by
  with_unfolding_all rfl

def sampleRules : List Rule :=
  [⟨0, .among [.text "editor"], some (.objectIs .null), "id"⟩,
    ⟨1, .among [.text "admin"], some (.objectIs (.int 7)), "product_id"⟩, ⟨2, .everyone, none, "id"⟩]

/-- Editors may do everything, administrators may show one product, and everybody may show any. -/
def sampleWorld : World :=
  { World.initial with registries := [⟨[("products",
      [("show", sampleRules.drop 1), ("all", sampleRules.take 1)])], false⟩] }

theorem decide_stops_at_first_sample :
    sample.checkOf .null sampleOptions none = .ok (some sampleCheck) ∧
      ∃ log, sample.decide .null sampleOptions none sampleWorld =
        (.ok (.granted "products" "show" "products" "show" (sampleRules[1].text) 2),
          sampleWorld.asking [(sampleCheck.user, .int 7)] log) := by
  refine ⟨checkOf_sample, ?_⟩
  have hcandidates : sample.candidates (sampleWorld.registry 0) sampleCheck =
      [⟨"products", "all", sampleRules[0]⟩] ++ ⟨"products", "show", sampleRules[1]⟩ ::
        [⟨"products", "show", sampleRules[2]⟩] := rfl
  have hplain : ∀ c ∈ sample.candidates (sampleWorld.registry sample.registry) sampleCheck,
      c.rule.IsPlain := by
    rw [show sample.registry = 0 from rfl, hcandidates]
    intro c hc
    simp only [List.cons_append, List.nil_append, List.mem_cons, List.not_mem_nil, or_false] at hc
    rcases hc with rfl | rfl | rfl
    · exact fun c hc => ⟨_, (Option.some.inj hc).symm⟩
    · exact fun c hc => ⟨_, (Option.some.inj hc).symm⟩
    · exact fun c hc => by cases hc
  have hbefore : ∀ c ∈ [(⟨"products", "all", sampleRules[0]⟩ : Candidate)],
      c.verdict sampleCheck = .ok false := by
    intro c hc
    rw [List.mem_singleton.1 hc]
    with_unfolding_all rfl
  have hhit : Candidate.verdict ⟨"products", "show", sampleRules[1]⟩ sampleCheck = .ok true := by
    with_unfolding_all rfl
  have hquestions : [(⟨"products", "all", sampleRules[0]⟩ : Candidate),
      ⟨"products", "show", sampleRules[1]⟩].flatMap (Candidate.questions sampleCheck) =
        [(sampleCheck.user, .int 7)] := by
    with_unfolding_all rfl
  obtain ⟨-, hgranted, -, -⟩ := decide_stops_at_first rfl checkOf_sample hplain
  obtain ⟨log, h⟩ := hgranted _ _ _ hcandidates hbefore hhit
  rw [List.singleton_append, hquestions] at h
  exact ⟨log, h⟩

end Engine

end Gatehouse
