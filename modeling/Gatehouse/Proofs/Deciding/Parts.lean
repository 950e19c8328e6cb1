import Gatehouse.Proofs.Deciding.Walk
import Gatehouse.Proofs.Loading.Imports

/-!
# Parts — what imports and decisions are put together from

A property of runs that sequencing keeps holds of a whole import as soon as it holds of the few things
that modules do, and of a whole decision as soon as it holds of those and of loading. What conditions
and modules do is thereby gone through once, here; afterwards a law about decisions (which state they
leave, what they do not look at) is a law about their parts.
-/

namespace Gatehouse

/-! ## 1. Properties that sequencing keeps -/

/-- A property of runs that those have which do nothing, and those that are put together from two which
have it. -/
structure Run.Sequential (P : (α : Type) → Run α → Prop) : Prop where
  pure : ∀ {α : Type} (a : α), P α (pure a)
  throw : ∀ {α : Type} (f : Fault), P α (throw f)
  bind : ∀ {α β : Type} {run : Run α} {next : α → Run β},
    P α run → (∀ a, P β (next a)) → P β (run >>= next)

/-- One that declaring has besides, in the registry that is there for it. -/
structure Run.Declaring (P : (α : Type) → Run α → Prop) : Prop extends Run.Sequential P where
  home : P Nat Run.home
  permit : ∀ i grant, P (List Rule) (Run.permit i grant)

/-- One that the import of a single module has besides, if the imports inside it have it. -/
structure Run.Importing (P : (α : Type) → Run α → Prop) : Prop extends Run.Declaring P where
  pending : ∀ name, P (List String) (Run.read fun w => w.library.pending name)
  bringOne : ∀ depth, (∀ name, P Unit (Library.bringAt depth name)) →
    ∀ name, P Unit (Library.bringOne (Library.bringAt depth) name)

/-- One that reading and changing the library and the loaders have besides, and that catching faults keeps. -/
structure Run.Loading (P : (α : Type) → Run α → Prop) : Prop extends Run.Declaring P where
  tryCatch : ∀ {α : Type} {run : Run α} {handle : Fault → Run α},
    P α run → (∀ f, P α (handle f)) → P α (tryCatch run handle)
  library : ∀ {α : Type} (f : Library → α), P α (Run.read fun w => f w.library)
  setLibrary : ∀ f : Library → Library,
    P Unit (Run.change fun w => { w with library := f w.library })
  loaders : ∀ {α : Type} (f : List Loader → α), P α (Run.read fun w => f w.loaders)
  setLoaders : ∀ f : List Loader → List Loader,
    P Unit (Run.change fun w => { w with loaders := f w.loaders })

/-- One that all that a decision consists of has besides. -/
structure Run.Deciding (P : (α : Type) → Run α → Prop) : Prop extends Run.Declaring P where
  freeze : ∀ i, P Unit (Run.freeze i)
  trace : ∀ level message, P Unit (Run.trace level message)
  question : ∀ q : Value × Value, P Unit (Run.change fun w => { w with calls := w.calls ++ [q] })
  bucket : ∀ i resource action,
    P (List Rule) (Run.read fun w => (w.registry i).bucket resource action)
  load : ∀ i resource, P Unit (Loader.ensure i resource)

variable {P : (α : Type) → Run α → Prop}

theorem Run.discard_eq_bind (run : Run α) : (discard run : Run Unit) = run >>= fun _ => pure () := by
  funext w
  rw [discard_run, bind_run]
  cases run w with
  | mk result after => cases result <;> rfl

namespace Run.Sequential

theorem ofExcept (h : Run.Sequential P) (r : Except Fault α) : P α (Run.ofExcept r) := by
  cases r with
  | error f => exact h.throw f
  | ok a => exact h.pure a

theorem discard (h : Run.Sequential P) {run : Run α} (hrun : P α run) : P Unit (discard run) := by
  rw [Run.discard_eq_bind]
  exact h.bind hrun fun _ => h.pure ()

end Run.Sequential

/-- A run that leaves a part of the state as it is, whatever it ends in. -/
def Run.Keeps (part : World → β) (α : Type) (run : Run α) : Prop := ∀ w, part (run w).2 = part w

namespace Run.Keeps

variable {part : World → β}

theorem of_same {run : Run α} (h : ∀ w, (run w).2 = w) : Keeps part α run := by
  intro w
  rw [h w]

theorem sequential (part : World → β) : Run.Sequential (Keeps part) where
  pure _ := of_same fun _ => rfl
  throw _ := of_same fun _ => rfl
  bind {α β run next} hrun hnext := by
    intro w
    rw [bind_run]
    have hw := hrun w
    cases hr : run w with
    | mk result after =>
      rw [hr] at hw
      cases result with
      | error f => exact hw
      | ok a => exact (hnext a after).trans hw

theorem tryCatch {run : Run α} {handle : Fault → Run α} (hrun : Keeps part α run)
    (hhandle : ∀ f, Keeps part α (handle f)) : Keeps part α (tryCatch run handle) := by
  intro w
  rw [tryCatch_run]
  have hw := hrun w
  cases hr : run w with
  | mk result after =>
    rw [hr] at hw
    cases result with
    | error f => exact (hhandle f after).trans hw
    | ok a => exact hw

/-- A declaration touches registries and the numbers of rules only. -/
theorem permit (hpart : ∀ (w : World) registries nextRule, part { w with registries, nextRule } = part w) (i : Nat)
    (grant : Grant Condition) : Keeps part (List Rule) (Run.permit i grant) := by
  intro w
  cases h : (w.registry i).permit w.nextRule grant with
  | error f => rw [permit_of_error h]
  | ok out =>
    rw [permit_of_ok h]
    exact hpart w _ _

theorem home : Keeps part Nat Run.home := of_same fun w => by
  unfold Run.home
  cases w.home <;> rfl

end Run.Keeps

theorem Run.Declaring.permitHome (h : Run.Declaring P) (grant : Grant Condition) :
    P Unit (Run.home >>= fun i => discard (Run.permit i grant)) :=
  h.bind h.home fun i => h.discard (h.permit i grant)

/-! ## 2. Imports -/

theorem Statement.run_of (h : Run.Declaring P) {bring : String → Run Unit}
    (hbring : ∀ name, P Unit (bring name)) (st : Statement) : P Unit (st.run bring) := by
  cases st with
  | permit grant => exact h.permitHome grant
  | bring name => exact hbring name
  | fail fault => exact h.throw fault

theorem Statement.runAll_of (h : Run.Declaring P) {bring : String → Run Unit}
    (hbring : ∀ name, P Unit (bring name)) (body : List Statement) : P Unit (runAll bring body) := by
  induction body with
  | nil => exact h.pure ()
  | cons st rest ih => exact h.bind (st.run_of h hbring) fun _ => ih

namespace Library

theorem bringEach_of (h : Run.Importing P) {depth : Nat} (hbring : ∀ name, P Unit (bringAt depth name))
    (names : List String) : P Unit (bringEach (bringAt depth) names) := by
  induction names with
  | nil => exact h.pure ()
  | cons name rest ih => exact h.bind (h.bringOne depth hbring name) fun _ => ih

theorem bringAt_of (h : Run.Importing P) (depth : Nat) (name : String) :
    P Unit (bringAt depth name) := by
  -- Induction on how deep imports may go: what one level imports, the level below does.
  induction depth generalizing name with
  | zero => exact h.throw _
  | succ depth ih =>
    rw [bringAt_succ]
    split
    · exact h.throw _
    · split
      · exact h.throw _
      · refine h.bind (h.pending name) fun names => ?_
        split
        · exact h.throw _
        · exact bringEach_of h ih names

end Library

/-! ## 3. Loading -/

theorem Run.Loading.importing (h : Run.Loading P) : Run.Importing P where
  toDeclaring := h.toDeclaring
  pending name := h.library fun lib => lib.pending name
  bringOne depth hbring name := by
    unfold Library.bringOne
    refine h.bind (h.library id) fun lib => ?_
    split
    · exact h.pure ()
    · refine h.bind (h.ofExcept _) fun m => h.bind (h.setLibrary fun lib => lib.start name) fun _ => ?_
      refine h.tryCatch (Statement.runAll_of h.toDeclaring hbring m.body) fun f => ?_
      exact h.bind (h.setLibrary fun lib => lib.forget name) fun _ => h.throw f

namespace Loader

theorem bringResource_of (h : Run.Loading P) (package : String) (resource : Value) :
    P Unit (bringResource package resource) := by
  refine h.bind (h.ofExcept _) fun name => ?_
  refine h.tryCatch (Library.bringAt_of h.importing _ name) fun f => ?_
  split
  · exact h.pure ()
  · exact h.throw f

theorem ensure_of (h : Run.Loading P) (i : Nat) (resource : Value) : P Unit (ensure i resource) := by
  refine h.bind (h.loaders fun loaders => loaders[i]?) fun found => ?_
  cases found with
  | none => exact h.pure ()
  | some loader =>
    cases loader with
    | package name seen =>
      dsimp only
      cases resource.isKey with
      | false => exact h.throw _
      | true =>
        cases isAmong resource seen with
        | true => exact h.pure ()
        | false =>
          refine h.bind (bringResource_of h name resource) fun _ => ?_
          exact h.setLoaders fun loaders => loaders.modify i _
    | script stubs asked =>
      refine h.bind (h.setLoaders fun loaders => loaders.modify i _) fun _ => ?_
      cases resource.isKey with
      | false => exact h.throw _
      | true =>
        cases isAmong resource asked with
        | true => exact h.pure ()
        | false => exact Statement.runAll_of h.toDeclaring (Library.bringAt_of h.importing _) _

end Loader

/-! ## 4. Decisions -/

theorem Condition.ask_of (h : Run.Deciding P) {decide : Value → Run Bool}
    (hdecide : ∀ target, P Bool (decide target)) :
    (c : Condition) → (user object : Value) → P Value (c.ask decide user object)
  | .answer f, user, object => h.ofExcept (f user object)
  | .declare grant next, user, object => by
      unfold ask
      exact h.bind h.home fun i => h.bind (h.discard (h.permit i grant)) fun _ =>
        ask_of h hdecide next user object
  | .freeze next, user, object => by
      unfold ask
      exact h.bind h.home fun i => h.bind (h.freeze i) fun _ => ask_of h hdecide next user object
  | .consult target, _, _ => by
      unfold ask
      exact h.bind (hdecide target) fun allowed => h.pure _

section

variable (h : Run.Deciding P) {decide : Value → Run Bool} (hdecide : ∀ target, P Bool (decide target))

include h

theorem Engine.trace_of (e : Engine) (level : Trace.Level) (message : Except Fault String) :
    P Unit (e.trace level message) := by
  unfold trace
  split
  · exact h.pure ()
  · exact h.trace level message

theorem Engine.load_of (e : Engine) (scope : String) : P Unit (e.load scope) := by
  unfold load
  cases e.loader with
  | none => exact h.pure ()
  | some i => exact h.load i (.text scope)

include hdecide

theorem Rule.admits_of (objectOf : String → Except Fault Value) (r : Rule) (user : Value) :
    P Bool (r.admits decide objectOf user) := by
  unfold admits
  refine h.bind (h.trace _ _) fun _ => h.bind (h.ofExcept _) fun roleIsRight => ?_
  cases r.condition with
  | none => exact h.pure roleIsRight
  | some condition =>
    cases roleIsRight with
    | false => exact h.pure false
    | true =>
      refine h.bind (h.ofExcept _) fun object => h.bind (h.question (user, object)) fun _ => ?_
      exact h.bind (condition.ask_of h hdecide user object) fun answer => h.pure answer.truthy

namespace Engine

theorem tryRules_of (check : Check) (scope action : String) (rules : List Rule) (tried : Nat) :
    P Progress (tryRules decide check scope action rules tried) := by
  induction rules generalizing tried with
  | nil => exact h.pure _
  | cons rule rest ih =>
    refine h.bind (rule.admits_of h hdecide check.objectOf check.user) fun admitted => ?_
    cases admitted with
    | true => exact h.pure _
    | false => exact ih (tried + 1)

theorem scanActions_of (e : Engine) (check : Check) (scope : String) (actions : List String)
    (tried : Nat) : P Progress (e.scanActions decide check scope actions tried) := by
  induction actions generalizing tried with
  | nil => exact h.pure _
  | cons action rest ih =>
    refine h.bind (e.trace_of h _ _) fun _ => h.bind (h.bucket _ _ _) fun rules => ?_
    refine h.bind (tryRules_of h hdecide check scope action rules tried) fun progress => ?_
    cases progress with
    | granted decision => exact h.pure _
    | tried count => exact ih count

theorem scanScopes_of (e : Engine) (check : Check) (scopes : List String) (tried : Nat) :
    P Progress (e.scanScopes decide check scopes tried) := by
  induction scopes generalizing tried with
  | nil => exact h.pure _
  | cons scope rest ih =>
    rw [scanScopes_cons]
    refine h.bind (e.trace_of h _ _) fun _ => h.bind (e.load_of h scope) fun _ => ?_
    refine h.bind (scanActions_of h hdecide e check scope _ tried) fun progress => ?_
    cases progress with
    | granted decision => exact h.pure _
    | tried count => exact ih count

theorem scan_of (e : Engine) (check : Check) : P Decision (e.scan decide check) := by
  refine h.bind (scanScopes_of h hdecide e check _ 0) fun progress => ?_
  cases progress with
  | granted decision => exact h.pure decision
  | tried count => exact h.pure _

theorem decideWith_of (room : Nat) (e : Engine) (target : Value) (host : Option Host) :
    P Decision (decideWith decide room e target host) := by
  refine h.bind (h.ofExcept _) fun logged => ?_
  cases logged with
  | false => exact h.bind (e.trace_of h _ _) fun _ => h.pure _
  | true =>
    refine h.bind (h.ofExcept _) fun check => h.bind (e.trace_of h _ _) fun _ => ?_
    refine h.bind (scan_of h hdecide e check) fun decision => ?_
    exact h.bind (e.trace_of h _ _) fun _ => h.pure decision

end Engine

end

namespace Engine

theorem decideAt_of (h : Run.Deciding P) (depth : Nat) (e : Engine) (target : Value)
    (host : Option Host) : P Decision (decideAt depth e target host) := by
  -- Induction on how deep decisions may go: a condition asks for decisions one level below.
  induction depth generalizing e target host with
  | zero => exact h.throw _
  | succ depth ih =>
    refine decideWith_of h (fun inner => ?_) _ e target host
    cases e.consulted with
    | false => exact h.throw _
    | true => exact h.bind (ih e _ none) fun decision => h.pure decision.allowed

theorem consultation_of (h : Run.Deciding P) (e : Engine) (depth : Nat) (inner : Value) :
    P Bool (e.consultation depth inner) := by
  unfold consultation
  cases e.consulted with
  | false => exact h.throw _
  | true => exact h.bind (decideAt_of h depth e _ none) fun decision => h.pure decision.allowed

theorem decide_of (h : Run.Deciding P) (e : Engine) (target : Value)
    (options : List (Value × Value)) (host : Option Host) :
    P Decision (e.decide target options host) := by
  rw [decide_eq_subject]
  exact h.bind (h.ofExcept _) fun subject => decideAt_of h depthLimit e subject.1 subject.2

end Engine

end Gatehouse
