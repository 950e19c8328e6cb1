import Gatehouse.Handler
import Gatehouse.Proofs.Deciding.Grounds

/-!
# Entries — one decision behind every way to ask

Whoever wants to know whether something is allowed may ask for a yes or a no, insist on a grant, or hand
over what is to be done with the target if it is allowed. A handler does the first and the last, with itself
for the host. All of them come to what deciding comes to: its fault, its grant or its denial, from the state
that deciding leaves. What is to be done is done once after a grant, and never after anything else.
-/

namespace Gatehouse

/-! ## 1. Ways to ask -/

namespace Run

/-- `asked` says whether what is decided is a grant. -/
structure Tells (decided : Run Decision) (asked : Run Bool) (w : World) : Prop where
  fault : ∀ f after, decided w = (.error f, after) → asked w = (.error f, after)
  grant : ∀ d after, decided w = (.ok d, after) → d.allowed = true → asked w = (.ok true, after)
  denial : ∀ d after, decided w = (.ok d, after) → d.allowed = false → asked w = (.ok false, after)

/-- `insisted` gives what is decided if it is a grant, and makes a denial a fault. -/
structure Insists (decided insisted : Run Decision) (w : World) : Prop where
  fault : ∀ f after, decided w = (.error f, after) → insisted w = (.error f, after)
  grant : ∀ d after, decided w = (.ok d, after) → d.allowed = true → insisted w = (.ok d, after)
  denial : ∀ d after, decided w = (.ok d, after) → d.allowed = false →
    insisted w = (.error (.denied (.text (d.resource.getD "")) (.text (d.action.getD ""))
      (.text d.reason)), after)

/-- `guarded` does something with a target once if what is decided is a grant, and not at all otherwise. -/
structure Guards (decided : Run Decision) (target : Value)
    (guarded : (Value → Run α) → Run (Option α)) (w : World) : Prop where
  fault : ∀ f after, decided w = (.error f, after) → ∀ callback, guarded callback w = (.error f, after)
  grant : ∀ d after, decided w = (.ok d, after) → d.allowed = true → ∀ callback,
    guarded callback w = ((callback target after).1.map some, (callback target after).2)
  denial : ∀ d after, decided w = (.ok d, after) → d.allowed = false → ∀ callback,
    guarded callback w = (.ok none, after)

variable {first : Run β} {w mid : World} {f : Fault}

theorem Tells.of_error {decided : Run Decision} {asked : Run Bool} (hdecided : decided w = (.error f, mid))
    (hasked : asked w = (.error f, mid)) : decided.Tells asked w where
  fault f' after h := by
    rw [hdecided] at h
    cases h
    exact hasked
  grant d after h := by
    rw [hdecided] at h
    cases h
  denial d after h := by
    rw [hdecided] at h
    cases h

theorem Guards.of_error {decided : Run Decision} {target : Value} {guarded : (Value → Run α) → Run (Option α)}
    (hdecided : decided w = (.error f, mid)) (hguarded : ∀ callback, guarded callback w = (.error f, mid)) :
    decided.Guards target guarded w where
  fault f' after h callback := by
    rw [hdecided] at h
    cases h
    exact hguarded callback
  grant d after h := by
    rw [hdecided] at h
    cases h
  denial d after h := by
    rw [hdecided] at h
    cases h

/-- What comes before the decision may be the same on both sides. -/
theorem Tells.after {decided : β → Run Decision} {asked : β → Run Bool}
    (h : ∀ b mid, first w = (.ok b, mid) → (decided b).Tells (asked b) mid) :
    (first >>= decided).Tells (first >>= asked) w := by
  cases hfirst : first w with
  | mk result mid =>
    cases result with
    | error f => exact .of_error (bind_of_error hfirst) (bind_of_error hfirst)
    | ok b =>
      have hdecided : (first >>= decided) w = decided b mid := bind_of_ok hfirst
      have hasked : (first >>= asked) w = asked b mid := bind_of_ok hfirst
      have hlater := h b mid hfirst
      constructor
      · rw [hdecided, hasked]
        exact hlater.fault
      · rw [hdecided, hasked]
        exact hlater.grant
      · rw [hdecided, hasked]
        exact hlater.denial

theorem Guards.after {decided : β → Run Decision} {target : Value}
    {guarded : β → (Value → Run α) → Run (Option α)}
    (h : ∀ b mid, first w = (.ok b, mid) → (decided b).Guards target (guarded b) mid) :
    (first >>= decided).Guards target (fun callback => first >>= fun b => guarded b callback) w := by
  cases hfirst : first w with
  | mk result mid =>
    cases result with
    | error f => exact .of_error (bind_of_error hfirst) fun callback => bind_of_error hfirst
    | ok b =>
      have hdecided : (first >>= decided) w = decided b mid := bind_of_ok hfirst
      have hguarded : ∀ callback, (first >>= fun b => guarded b callback) w = guarded b callback mid :=
        fun callback => bind_of_ok hfirst
      have hlater := h b mid hfirst
      constructor
      · simp only [hdecided, hguarded]
        exact hlater.fault
      · simp only [hdecided, hguarded]
        exact hlater.grant
      · simp only [hdecided, hguarded]
        exact hlater.denial

end Run

/-! ## 2. Engines -/

namespace Engine

variable {e : Engine} {target : Value} {options : List (Value × Value)} {host : Option Host}
  {d : Decision} {w after : World}

theorem eq_noRule_of_scan {check : Check} {depth : Nat}
    (h : e.scan (e.consultation depth) check w = (.ok d, after)) (hd : d.allowed = false) :
    ∃ count, d = .noRule check.resource check.action count := by
  unfold scan at h
  obtain ⟨progress, mid, hscan, h⟩ := Run.bind_eq_ok_iff.1 h
  cases progress with
  | tried count =>
    cases h
    exact ⟨count, rfl⟩
  | granted found =>
    cases h
    obtain ⟨rule, resource, action, scope, bucket, count, -, hgrant⟩ :=
      restsOn_of_scanScopes (consultation_of Run.MovesBy.deciding e depth) hscan
    rw [hgrant] at hd
    cases hd

/-- There are two denials: nobody is logged in, or no rule grants the action. -/
theorem denial_of_decide (h : e.decide target options host w = (.ok d, after))
    (hd : d.allowed = false) : d = .notLoggedIn ∨ ∃ resource action count, d = .noRule resource action count := by
  cases hcheck : e.checkOf target options host with
  | error f =>
    rw [decide_of_error hcheck] at h
    cases h
  | ok found =>
    cases found with
    | none =>
      obtain ⟨log, hrun⟩ := decide_of_none hcheck w
      rw [hrun] at h
      cases h
      exact .inl rfl
    | some check =>
      obtain ⟨log, hdecide⟩ := decide_of_check hcheck w
      cases hscan : e.scan (e.consultation (depthLimit - 1)) check (w.asking [] log) with
      | mk result mid =>
        obtain ⟨log', hrun⟩ := hdecide result mid hscan
        rw [hrun] at h
        cases h
        obtain ⟨count, hnone⟩ := eq_noRule_of_scan hscan hd
        exact .inr ⟨check.resource, check.action, count, hnone⟩

/-- Whatever the target, nobody gets further than the login. -/
theorem decide_of_not_logged_in (h : isLoggedIn (e.hostFor host) = .ok false) (target : Value) (w : World) :
    ∃ log, e.decide target [] host w = (.ok .notLoggedIn, { w with log }) := by
  have hcheck : e.checkOf target [] host = .ok none := by
    rw [checkOf_of_subjectOf (subjectOf_nil target host)]
    exact bind_of_eq_ok h _
  obtain ⟨log, hrun⟩ := decide_of_none hcheck w
  refine ⟨log, ?_⟩
  rw [hrun, World.asking, List.append_nil]

theorem refusal_of_decide (h : e.decide target options host w = (.ok d, after)) (hd : d.allowed = false) :
    d.refusal = .denied (.text (d.resource.getD "")) (.text (d.action.getD "")) (.text d.reason) := by
  -- The reason of a denial is never empty, so it is the one that is shown.
  rcases denial_of_decide h hd with rfl | ⟨resource, action, count, rfl⟩
  · rfl
  · rfl

theorem tells_authorize (e : Engine) (target : Value) (options : List (Value × Value)) (host : Option Host)
    (w : World) : (e.decide target options host).Tells (e.authorize target options host) w where
  fault f after h := by
    unfold authorize
    exact Run.bind_of_error h
  grant d after h hd := by
    unfold authorize
    rw [Run.bind_of_ok h, hd]
    rfl
  denial d after h hd := by
    unfold authorize
    rw [Run.bind_of_ok h, hd]
    rfl

theorem insists_require (e : Engine) (target : Value) (options : List (Value × Value)) (host : Option Host)
    (w : World) : (e.decide target options host).Insists (e.require target options host) w where
  fault f after h := by
    unfold require
    exact Run.bind_of_error h
  grant d after h hd := by
    unfold require
    rw [Run.bind_of_ok h, hd]
    rfl
  denial d after h hd := by
    unfold require
    rw [Run.bind_of_ok h, hd, refusal_of_decide h hd]
    rfl

theorem guards_ifAuthorized (e : Engine) (target : Value) (host : Option Host) (w : World) :
    (e.decide target [] host).Guards target
      (fun callback : Value → Run α => e.ifAuthorized target callback host) w where
  fault f after h callback := by
    unfold ifAuthorized
    exact Run.bind_of_error ((e.tells_authorize target [] host w).fault f after h)
  grant d after h hd callback := by
    unfold ifAuthorized
    rw [Run.bind_of_ok ((e.tells_authorize target [] host w).grant d after h hd)]
    simp only [if_true]
    rw [Run.bind_run]
    cases callback target after with
    | mk result last => cases result <;> rfl
  denial d after h hd callback := by
    unfold ifAuthorized
    rw [Run.bind_of_ok ((e.tells_authorize target [] host w).denial d after h hd)]
    rfl

end Engine

/-! ## 3. Handlers -/

namespace Handler

/-- The decision on a target by the engine of a class, for an instance of it as the host. -/
def decision (i : Nat) (own : Hooks) (target : Value) (options : List (Value × Value)) : Run Decision := do
  let e ← engineOf i
  if nameHost options then throw .wrongKind
  let host ← Run.read fun w => asHost w i own
  e.decide target options (some host)

theorem tells_authorizeAction (i : Nat) (own : Hooks) (target : Value) (options : List (Value × Value))
    (w : World) : (decision i own target options).Tells (authorizeAction i own target options) w := by
  unfold decision authorizeAction
  apply Run.Tells.after
  intro e mid hengine
  cases nameHost options with
  | true => exact .of_error (Run.throw_run _ mid) (Run.throw_run _ mid)
  | false =>
    apply Run.Tells.after
    intro host last hhost
    exact e.tells_authorize target options (some host) last

theorem guards_ifAuthorized (i : Nat) (own : Hooks) (target : Value) (w : World) :
    (decision i own target []).Guards target
      (fun callback : Value → Run α => ifAuthorized i own target callback) w := by
  unfold decision ifAuthorized
  apply Run.Guards.after
  intro e mid hengine
  have hname : nameHost [] = false := rfl
  rw [hname]
  apply Run.Guards.after
  intro host last hhost
  exact e.guards_ifAuthorized target (some host) last

end Handler

/-! ## 4. One decision -/

/-- Every way to ask comes to what deciding comes to, and leaves the state that deciding leaves. Denials are those
of somebody who is not logged in, whatever the target, and those for which there is no rule. -/
theorem entries_follow_decide :
    (∀ (e : Engine) (target : Value) (options : List (Value × Value)) (host : Option Host) (w : World),
      (e.decide target options host).Tells (e.authorize target options host) w ∧
      (e.decide target options host).Insists (e.require target options host) w ∧
      ∀ α : Type, (e.decide target [] host).Guards target
        (fun callback : Value → Run α => e.ifAuthorized target callback host) w) ∧
    (∀ (i : Nat) (own : Hooks) (target : Value) (options : List (Value × Value)) (w : World),
      (Handler.decision i own target options).Tells (Handler.authorizeAction i own target options) w ∧
      ∀ α : Type, (Handler.decision i own target []).Guards target
        (fun callback : Value → Run α => Handler.ifAuthorized i own target callback) w) ∧
    (∀ (e : Engine) (target : Value) (options : List (Value × Value)) (host : Option Host) (w after : World)
      (d : Decision), e.decide target options host w = (.ok d, after) → d.allowed = false →
        d = .notLoggedIn ∨ ∃ resource action count, d = .noRule resource action count) ∧
    ∀ (e : Engine) (target : Value) (host : Option Host) (w : World),
      Engine.isLoggedIn (e.hostFor host) = .ok false →
        ∃ log, e.decide target [] host w = (.ok .notLoggedIn, { w with log }) := by
  refine ⟨fun e target options host w => ⟨?_, ?_, fun α => ?_⟩,
    fun i own target options w => ⟨?_, fun α => ?_⟩, fun e target options host w after d h hd => ?_,
    fun e target host w h => ?_⟩
  · exact e.tells_authorize target options host w
  · exact e.insists_require target options host w
  · exact e.guards_ifAuthorized target host w
  · exact Handler.tells_authorizeAction i own target options w
  · exact Handler.guards_ifAuthorized i own target w
  · exact Engine.denial_of_decide h hd
  · exact Engine.decide_of_not_logged_in h target w

/-- A host at which nobody is logged in, and which fails at anything else that it is asked. -/
def Host.loggedOut : Host where
  user := .error .noAttribute
  resource := .error .noAttribute
  login := some (.ok (.bool false))

/-- Hands the target back, and leaves a question behind by which it can be seen how often it has been called. -/
def handBack (target : Value) : Run Value := do
  Run.change fun w => { w with calls := w.calls ++ [(target, .null)] }
  return target

/-- A grant: what is to be done is done once, with the target itself, and its fault is that of the whole. A fault: a number
is not a target, and nothing is done with it. A denial: with nobody logged in, nobody gets as far as the number. -/
theorem entries_follow_decide_outcomes :
    (∃ d after, Engine.sample.decide (.dict Engine.sampleOptions) [] none Engine.sampleWorld = (.ok d, after) ∧
      d.allowed = true ∧
      Engine.sample.authorize (.dict Engine.sampleOptions) [] none Engine.sampleWorld = (.ok true, after) ∧
      Engine.sample.require (.dict Engine.sampleOptions) [] none Engine.sampleWorld = (.ok d, after) ∧
      Engine.sample.ifAuthorized (.dict Engine.sampleOptions) handBack none Engine.sampleWorld =
        (.ok (some (.dict Engine.sampleOptions)),
          { after with calls := after.calls ++ [(.dict Engine.sampleOptions, .null)] }) ∧
      Engine.sample.ifAuthorized (.dict Engine.sampleOptions) (fun _ => (throw .noAttribute : Run Value)) none
        Engine.sampleWorld = (.error .noAttribute, after)) ∧
    (∃ f after, Engine.sample.decide (.int 3) [] none Engine.sampleWorld = (.error f, after) ∧
      Engine.sample.authorize (.int 3) [] none Engine.sampleWorld = (.error f, after) ∧
      Engine.sample.require (.int 3) [] none Engine.sampleWorld = (.error f, after) ∧
      Engine.sample.ifAuthorized (.int 3) handBack none Engine.sampleWorld = (.error f, after)) ∧
    Engine.isLoggedIn (Engine.sample.hostFor (some .loggedOut)) = .ok false ∧
      ∃ after, Engine.sample.decide (.int 3) [] (some .loggedOut) Engine.sampleWorld = (.ok .notLoggedIn, after) ∧
        Engine.sample.require (.int 3) [] (some .loggedOut) Engine.sampleWorld =
          (.error (.denied (.text "") (.text "") (.text "Not logged in")), after) ∧
        Engine.sample.ifAuthorized (.int 3) handBack (some .loggedOut) Engine.sampleWorld = (.ok none, after) := by
  obtain ⟨hentries, -, -, hloggedOut⟩ := entries_follow_decide
  refine ⟨?_, ?_, ?_⟩
  · have hallowed : (Engine.sample.decide (.dict Engine.sampleOptions) [] none Engine.sampleWorld).1.map
        Decision.allowed = .ok true := by with_unfolding_all rfl
    cases hdecide : Engine.sample.decide (.dict Engine.sampleOptions) [] none Engine.sampleWorld with
    | mk result after =>
      rw [hdecide] at hallowed
      cases result with
      | error f => cases hallowed
      | ok d =>
        have hd : d.allowed = true := Except.ok.inj hallowed
        obtain ⟨htells, hinsists, hguards⟩ :=
          hentries Engine.sample (.dict Engine.sampleOptions) [] none Engine.sampleWorld
        exact ⟨d, after, rfl, hd, htells.grant _ _ hdecide hd, hinsists.grant _ _ hdecide hd,
          (hguards Value).grant _ _ hdecide hd _, (hguards Value).grant _ _ hdecide hd _⟩
  · have hfails : (Engine.sample.decide (.int 3) [] none Engine.sampleWorld).1.isOk = false := by
      with_unfolding_all rfl
    cases hdecide : Engine.sample.decide (.int 3) [] none Engine.sampleWorld with
    | mk result after =>
      rw [hdecide] at hfails
      cases result with
      | ok d => cases hfails
      | error f =>
        obtain ⟨htells, hinsists, hguards⟩ := hentries Engine.sample (.int 3) [] none Engine.sampleWorld
        exact ⟨f, after, rfl, htells.fault _ _ hdecide, hinsists.fault _ _ hdecide,
          (hguards Value).fault _ _ hdecide _⟩
  · have hlogin : Engine.isLoggedIn (Engine.sample.hostFor (some .loggedOut)) = .ok false := rfl
    obtain ⟨log, hdecide⟩ := hloggedOut Engine.sample (.int 3) (some .loggedOut) Engine.sampleWorld hlogin
    obtain ⟨-, hinsists, hguards⟩ :=
      hentries Engine.sample (.int 3) [] (some .loggedOut) Engine.sampleWorld
    exact ⟨hlogin, { Engine.sampleWorld with log }, hdecide, hinsists.denial _ _ hdecide rfl,
      (hguards Value).denial _ _ hdecide rfl _⟩

end Gatehouse
