import Gatehouse.Proofs.Deciding.Parts

/-!
# Pairs — two decisions side by side

Two engines that look at the same rules take the same way: where one tries a rule, the other tries its
counterpart. A relation between runs that sequencing keeps holds of two whole decisions as soon as it holds of
what the two do differently, which may be how they trace, how they load, what their conditions say, and how
they complete a request.
-/

namespace Gatehouse

/-! ## 1. Relations that sequencing keeps -/

/-- A relation between runs in which those stand that do nothing, and those that are put together from two in
the same way. -/
structure Run.Pairing (P : (α : Type) → Run α → Run α → Prop) : Prop where
  pure : ∀ {α : Type} (a : α), P α (pure a) (pure a)
  throw : ∀ {α : Type} (f : Fault), P α (throw f) (throw f)
  bind : ∀ {α β : Type} {run run' : Run α} {next next' : α → Run β},
    P α run run' → (∀ a, P β (next a) (next' a)) → P β (run >>= next) (run' >>= next')

/-- Two rules that differ at most in their conditions, which are counterparts. -/
structure Rule.Matches (C : Condition → Condition → Prop) (r r' : Rule) : Prop where
  serial : r'.serial = r.serial
  roles : r'.roles = r.roles
  objectId : r'.objectId = r.objectId
  condition : Option.Rel C r.condition r'.condition

/-- A relation in which besides stands what decisions do with the rules of the registry under a number: `C`
relates conditions, and `T` what they want to have decided. -/
structure Run.Accord (i : Nat) (P : (α : Type) → Run α → Run α → Prop) (C : Condition → Condition → Prop)
    (T : Value → Value → Prop) : Prop extends Run.Pairing P where
  trace : ∀ level message, P Unit (Run.trace level message) (Run.trace level message)
  question : ∀ q : Value × Value, P Unit (Run.change fun w => { w with calls := w.calls ++ [q] })
    (Run.change fun w => { w with calls := w.calls ++ [q] })
  bucket : ∀ {α : Type} (resource action : String) {next next' : List Rule → Run α},
    (∀ rules rules', List.Forall₂ (Rule.Matches C) rules rules' → P α (next rules) (next' rules')) →
    P α (Run.read (fun w => (w.registry i).bucket resource action) >>= next)
      (Run.read (fun w => (w.registry i).bucket resource action) >>= next')
  ask : ∀ {decide decide' : Value → Run Bool},
    (∀ target target', T target target' → P Bool (decide target) (decide' target')) →
    ∀ {c c' : Condition}, C c c' → ∀ user object,
      P Value (c.ask decide user object) (c'.ask decide' user object)

/-- Two engines that look at the rules of the same registry. `H` relates the hosts that they are asked with. -/
structure Engine.Matches (i : Nat) (P : (α : Type) → Run α → Run α → Prop) (T : Value → Value → Prop)
    (H : Option Host → Option Host → Prop) (e e' : Engine) : Prop where
  registry : e.registry = i
  registry' : e'.registry = i
  fallback : e'.fallback = e.fallback
  consulted : e'.consulted = e.consulted
  trace : ∀ level message, P Unit (e.trace level message) (e'.trace level message)
  load : ∀ scope, P Unit (e.load scope) (e'.load scope)
  status : ∀ host host', H host host' → P Bool (Run.ofExcept (Engine.isLoggedIn (e.hostFor host)))
    (Run.ofExcept (Engine.isLoggedIn (e'.hostFor host')))
  check : ∀ target target' host host', T target target' → H host host' →
    P Check (Run.ofExcept (e.buildCheck target (e.hostFor host)))
      (Run.ofExcept (e'.buildCheck target' (e'.hostFor host')))

theorem Rule.Matches.text {C : Condition → Condition → Prop} {r r' : Rule} (h : Rule.Matches C r r') :
    r'.text = r.text := by
  have hcondition := h.condition
  unfold Rule.text
  rw [h.serial, h.roles, h.objectId]
  generalize r.condition = c at hcondition
  generalize r'.condition = c' at hcondition
  cases hcondition with
  | none => rfl
  | some _ => rfl

theorem Run.Pairing.ofExcept {P : (α : Type) → Run α → Run α → Prop} (h : Run.Pairing P)
    (r : Except Fault α) : P α (Run.ofExcept r) (Run.ofExcept r) := by
  cases r with
  | error f => exact h.throw f
  | ok a => exact h.pure a

/-! ## 2. Trying rules -/

section

variable {i : Nat} {P : (α : Type) → Run α → Run α → Prop} {C : Condition → Condition → Prop}
  {T : Value → Value → Prop} {H : Option Host → Option Host → Prop} (h : Run.Accord i P C T)
  {decide decide' : Value → Run Bool}
  (hdecide : ∀ target target', T target target' → P Bool (decide target) (decide' target'))

include h hdecide

theorem Rule.pair_admits (objectOf : String → Except Fault Value) {r r' : Rule} (hr : Rule.Matches C r r')
    (user : Value) : P Bool (r.admits decide objectOf user) (r'.admits decide' objectOf user) := by
  have hcondition := hr.condition
  unfold admits
  rw [hr.text, hr.roles, hr.objectId]
  generalize r.condition = c at hcondition
  generalize r'.condition = c' at hcondition
  apply h.bind (h.trace _ _)
  intro _
  apply h.bind (h.ofExcept _)
  intro roleIsRight
  cases hcondition with
  | none => exact h.pure roleIsRight
  | some hc =>
    cases roleIsRight with
    | false => exact h.pure false
    | true =>
      apply h.bind (h.ofExcept _)
      intro object
      apply h.bind (h.question (user, object))
      intro _
      exact h.bind (h.ask hdecide hc user object) fun answer => h.pure answer.truthy

namespace Engine

theorem pair_tryRules (check : Check) (scope action : String) {rules rules' : List Rule}
    (hrules : List.Forall₂ (Rule.Matches C) rules rules') (tried : Nat) :
    P Progress (tryRules decide check scope action rules tried)
      (tryRules decide' check scope action rules' tried) := by
  induction hrules generalizing tried with
  | nil => exact h.pure _
  | cons hr _ ih =>
    apply h.bind (Rule.pair_admits h hdecide check.objectOf hr check.user)
    intro admitted
    cases admitted with
    | true =>
      rw [hr.text]
      exact h.pure _
    | false => exact ih (tried + 1)

/-! ## 3. Scanning -/

variable {e e' : Engine} (he : Engine.Matches i P T H e e')

include he

theorem pair_scanActions (check : Check) (scope : String) (actions : List String) (tried : Nat) :
    P Progress (e.scanActions decide check scope actions tried)
      (e'.scanActions decide' check scope actions tried) := by
  induction actions generalizing tried with
  | nil => exact h.pure _
  | cons action rest ih =>
    unfold scanActions
    rw [he.registry, he.registry']
    apply h.bind (he.trace _ _)
    intro _
    apply h.bucket
    intro rules rules' hrules
    apply h.bind (pair_tryRules h hdecide check scope action hrules tried)
    intro progress
    cases progress with
    | granted decision => exact h.pure _
    | tried count => exact ih count

theorem pair_scanScopes (check : Check) (scopes : List String) (tried : Nat) :
    P Progress (e.scanScopes decide check scopes tried) (e'.scanScopes decide' check scopes tried) := by
  induction scopes generalizing tried with
  | nil => exact h.pure _
  | cons scope rest ih =>
    rw [scanScopes_cons, scanScopes_cons]
    apply h.bind (he.trace _ _)
    intro _
    apply h.bind (he.load scope)
    intro _
    apply h.bind (pair_scanActions h hdecide he check scope _ tried)
    intro progress
    cases progress with
    | granted decision => exact h.pure _
    | tried count => exact ih count

theorem pair_scan (check : Check) : P Decision (e.scan decide check) (e'.scan decide' check) := by
  have hscopes : e'.scopes check.resource = e.scopes check.resource := by
    unfold scopes
    rw [he.fallback]
  unfold scan
  rw [hscopes]
  apply h.bind (pair_scanScopes h hdecide he check _ 0)
  intro progress
  cases progress with
  | granted decision => exact h.pure decision
  | tried count => exact h.pure _

theorem pair_decideWith (room : Nat) {target target' : Value} {host host' : Option Host}
    (htarget : T target target') (hhost : H host host') :
    P Decision (decideWith decide room e target host) (decideWith decide' room e' target' host') := by
  apply h.bind (he.status host host' hhost)
  intro logged
  cases logged with
  | false => exact h.bind (he.trace _ _) fun _ => h.pure _
  | true =>
    apply h.bind (he.check target target' host host' htarget hhost)
    intro check
    apply h.bind (he.trace _ _)
    intro _
    apply h.bind (pair_scan h hdecide he check)
    intro decision
    exact h.bind (he.trace _ _) fun _ => h.pure decision

end Engine

end

/-! ## 4. Deciding -/

/-- Two engines that look at the same rules decide side by side, however deep decisions go. Conditions ask
without a host of their own. -/
theorem Engine.pair_decideAt {i : Nat} {P : (α : Type) → Run α → Run α → Prop}
    {C : Condition → Condition → Prop} {T : Value → Value → Prop} {H : Option Host → Option Host → Prop}
    (h : Run.Accord i P C T) {e e' : Engine} (he : Engine.Matches i P T H e e') (hnone : H none none) (hoptions : ∀ target target', T target target' →
      T (orNoOptions target) (orNoOptions target')) (depth : Nat) {target target' : Value}
    {host host' : Option Host} (htarget : T target target') (hhost : H host host') :
    P Decision (decideAt depth e target host) (decideAt depth e' target' host') := by
  -- Induction on how deep decisions may go: conditions ask both engines for counterparts, one level below.
  induction depth generalizing target target' host host' with
  | zero => exact h.throw _
  | succ depth ih =>
    refine pair_decideWith h (fun inner inner' hinner => ?_) he _ htarget hhost
    rw [he.consulted]
    cases e.consulted with
    | false => exact h.throw _
    | true =>
      exact h.bind (ih (hoptions inner inner' hinner) hnone) fun decision => h.pure decision.allowed

end Gatehouse
