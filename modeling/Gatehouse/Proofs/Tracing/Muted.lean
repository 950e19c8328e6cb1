import Mathlib.Data.List.Forall2
import Gatehouse.Proofs.Deciding.Pairs
import Gatehouse.Proofs.Tracing.Coupled

/-!
# Muted — engines that differ in whether they trace

An engine whose lines are never written decides like one whose lines are. The two go through the same
rules in the same order and put the same questions to conditions; where the one writes a line, the other
does nothing. Decisions inside decisions are those of the same two engines, one level further down.
-/

namespace Gatehouse

open Trace (Level)
open Run (Coupled Steady)

/-- An engine that differs at most in whether what it traces is ever written. -/
def Engine.muting (e : Engine) (muted : Bool) : Engine := { e with muted }

theorem Engine.make_muting (registry : Nat) (host : Option Host) (loader : Option Nat) (resolver : Option Resolver)
    (settings : Settings) (muted muted' consulted : Bool) :
    make registry host loader resolver settings muted' consulted = (do
      let e ← make registry host loader resolver settings muted consulted
      return e.muting muted') := by
  unfold make
  simp only [bind_assoc, pure_bind]
  rfl

section

variable {Q : Tracing → Tracing → Prop}

/-! ## 1. Lines -/

theorem Engine.coupled_trace (hQ : Tracing.IsBlind Q) (e : Engine) (muted : Bool) (level : Level)
    (message : Except Fault String) :
    Coupled Q (e.trace level message) ((e.muting muted).trace level message) := by
  unfold trace muting
  cases e.muted with
  | false =>
    cases muted with
    | false => exact Coupled.trace hQ level message
    | true => exact Coupled.trace_left hQ level message
  | true =>
    cases muted with
    | false => exact Coupled.trace_right hQ level message
    | true => exact Coupled.pure ()

/-! ## 2. Conditions -/

theorem Condition.coupled_ask {decide decide' : Value → Run Bool}
    (hdecide : ∀ target, Coupled Q (decide target) (decide' target)) :
    (c : Condition) → (user object : Value) → Coupled Q (c.ask decide user object) (c.ask decide' user object)
  | .answer f, user, object => Coupled.ofExcept (f user object)
  | .declare grant next, user, object => by
      unfold ask
      apply Coupled.bind Steady.declaring.home
      intro i
      apply Coupled.bind (Steady.declaring.discard (Steady.declaring.permit i grant))
      intro _
      exact coupled_ask hdecide next user object
  | .freeze next, user, object => by
      unfold ask
      apply Coupled.bind Steady.declaring.home
      intro i
      apply Coupled.bind (Steady.freeze i)
      intro _
      exact coupled_ask hdecide next user object
  | .consult target, _, _ => by
      unfold ask
      exact Coupled.bind (hdecide target) fun allowed => Coupled.pure _

/-! ## 3. Engines -/

/-- Lines and questions do not tell coupled runs apart; rules are the same for both. -/
theorem Run.Coupled.accord (hQ : Tracing.IsBlind Q) (i : Nat) : Run.Accord i (fun _ => Coupled Q) Eq Eq where
  pure := Coupled.pure
  throw := Coupled.throw
  bind := Coupled.bind
  trace := Coupled.trace hQ
  question := Steady.question
  bucket resource action next next' hnext := by
    apply Coupled.bind (Steady.read fun _ _ => rfl)
    intro rules
    have hsame : List.Forall₂ (Rule.Matches Eq) rules rules :=
      List.forall₂_same.2 fun r _ => ⟨rfl, rfl, rfl, by cases r.condition <;> constructor; rfl⟩
    exact hnext rules rules hsame
  ask hdecide c c' hc user object := by
    subst hc
    exact c.coupled_ask (fun target => hdecide target target rfl) user object

theorem Engine.matches_muting (hQ : Tracing.IsBlind Q) (e : Engine) (muted : Bool) :
    Engine.Matches e.registry (fun _ => Coupled Q) Eq Eq e (e.muting muted) where
  registry := rfl
  registry' := rfl
  fallback := rfl
  consulted := rfl
  trace := e.coupled_trace hQ muted
  load scope := by
    unfold load muting
    cases e.loader with
    | none => exact Coupled.pure ()
    | some i => exact Steady.load i (.text scope)
  status host host' hhost := by
    subst hhost
    exact Coupled.ofExcept _
  check target target' host host' htarget hhost := by
    subst htarget hhost
    exact Coupled.ofExcept _

end

/-! ## 4. Deciding -/

namespace Engine

variable {Q : Tracing → Tracing → Prop} (hQ : Tracing.IsBlind Q) (e : Engine) (muted : Bool)

include hQ

theorem coupled_decide (target : Value) (options : List (Value × Value)) (host : Option Host) :
    Coupled Q (e.decide target options host) ((e.muting muted).decide target options host) := by
  rw [decide_eq_subject, decide_eq_subject]
  apply Coupled.bind (Coupled.ofExcept _)
  intro subject
  have hsame : ∀ target target', target = target' → orNoOptions target = orNoOptions target' :=
    fun _ _ => congrArg orNoOptions
  exact pair_decideAt (Coupled.accord hQ _) (e.matches_muting hQ muted) rfl hsame depthLimit rfl rfl

theorem coupled_authorize (target : Value) (options : List (Value × Value)) (host : Option Host) :
    Coupled Q (e.authorize target options host) ((e.muting muted).authorize target options host) :=
  Coupled.bind (e.coupled_decide hQ muted target options host) fun decision => Coupled.pure decision.allowed

theorem coupled_require (target : Value) (options : List (Value × Value)) (host : Option Host) :
    Coupled Q (e.require target options host) ((e.muting muted).require target options host) := by
  apply Coupled.bind (e.coupled_decide hQ muted target options host)
  intro decision
  cases decision.allowed with
  | false => exact Coupled.throw _
  | true => exact Coupled.pure decision

/-- What is done with a target may be anything that is the same on both sides. -/
theorem coupled_ifAuthorized (target : Value) {callback callback' : Value → Run α}
    (hcallback : Coupled Q (callback target) (callback' target)) (host : Option Host) :
    Coupled Q (e.ifAuthorized target callback host) ((e.muting muted).ifAuthorized target callback' host) := by
  apply Coupled.bind (e.coupled_authorize hQ muted target [] host)
  intro allowed
  cases allowed with
  | false => exact Coupled.pure none
  | true => exact Coupled.bind hcallback fun a => Coupled.pure (some a)

end Engine

end Gatehouse
