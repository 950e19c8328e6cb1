import Gatehouse.Web
import Gatehouse.Handler
import Gatehouse.Proofs.Handlers.Definition
import Gatehouse.Proofs.Registry.Changes
import Gatehouse.Proofs.Registry.Refusal
import Gatehouse.Proofs.Shared

/-!
# Frozen — a frozen registry is final

Whatever an application does, it gets to a registry through `permit`, `clear`, `freeze` or by adding a
new one. So a registry that has been frozen stays as it is, whichever calls follow, from wherever they
come: the registry itself, a condition in the middle of a decision, a rule module that is imported, the
grants of a class. Every later declaration is refused, and so is every clearing.
-/

namespace Gatehouse

open Relation (ReflTransGen)
open World (Turn Change)
open Run (MovesBy)

/-! ## 1. What an application calls -/

/-- A call by which an application gets at registries, or makes something that gets at them. -/
inductive Activity where
  | permit (registry : Nat) (grant : Grant Condition)
  | clear (registry : Nat)
  | freeze (registry : Nat)
  | decide (e : Engine) (target : Value) (options : List (Value × Value)) (host : Option Host)
  | load (loader : Nat) (resource : Value)
  | bring (moduleName : String)
  | define (d : Handler.Definition)
  | permitFor (handler : Nat) (grant : Grant Condition)
  | setRegistry (handler : Nat) (registry : Option Nat)
  | authorizeAction (handler : Nat) (own : Hooks) (target : Value) (options : List (Value × Value))
  | authorized (handler : Nat) (own : Hooks)
  | check (guard : Web.Guard) (e : Engine) (request : Web.Request)
  | decideShared (target : Value) (options : List (Value × Value)) (host : Option Host)
  | renewRegistry
  | forgetEngine
  | forgetSettings

namespace Activity

def run : Activity → Run Unit
  | .permit registry grant => discard (Run.permit registry grant)
  | .clear registry => Run.clear registry
  | .freeze registry => Run.freeze registry
  | .decide e target options host => discard (e.decide target options host)
  | .load loader resource => Loader.ensure loader resource
  | .bring moduleName => Library.bring moduleName
  | .define d => discard (Handler.define d)
  | .permitFor handler grant => discard (Handler.permit handler grant)
  | .setRegistry handler registry => Handler.setRegistry handler registry
  | .authorizeAction handler own target options =>
      discard (Handler.authorizeAction handler own target options)
  | .authorized handler own => discard (Handler.authorized handler own)
  | .check guard e request => discard (guard.check e request)
  | .decideShared target options host => do
      let e ← Shared.engine
      discard (e.decide target options host)
  | .renewRegistry => Shared.renewRegistry
  | .forgetEngine => Shared.forgetEngine
  | .forgetSettings => Shared.forgetSettings

/-- The state after calls, some of which may have failed. -/
def runAll : List Activity → World → World
  | [], w => w
  | call :: rest, w => runAll rest (call.run w).2

end Activity

/-! ## 2. Every call gets there by changes -/

namespace Run.MovesBy

theorem changing : Run.Declaring (MovesBy Change) where
  toSequential := sequential Change
  home := declaring.home.mono fun _ _ => .turn
  permit i grant := (declaring.permit i grant).mono fun _ _ => .turn

theorem looking : Run.Looking (MovesBy Change) where
  toSequential := sequential Change
  read _ := .of_same fun _ => rfl

theorem alone {run : Run α} (hregistries : ∀ w, (run w).2.registries = w.registries)
    (hnext : ∀ w, (run w).2.nextRule = w.nextRule) : MovesBy Change α run :=
  (aside hregistries hnext).mono fun _ _ => .turn

theorem decide (e : Engine) (target : Value) (options : List (Value × Value)) (host : Option Host) :
    MovesBy Change Decision (e.decide target options host) :=
  (Engine.decide_of deciding e target options host).mono fun _ _ => .turn

theorem make (registry : Nat) (host : Option Host) (loader : Option Nat) (resolver : Option Resolver)
    (settings : Settings) (muted consulted : Bool) :
    MovesBy Change Engine (Engine.make registry host loader resolver settings muted consulted) :=
  (Engine.movesBy_make registry host loader resolver settings muted consulted).mono fun _ _ => .turn

theorem clear (i : Nat) : MovesBy Change Unit (Run.clear i) := by
  intro w
  unfold Run.clear
  cases hc : (w.registry i).clear with
  | error f => exact .refl
  | ok reg => exact .single (.clear hc)

end Run.MovesBy

section

open Run.MovesBy (changing looking alone)

namespace Shared

theorem movesBy_settings : MovesBy Change Settings settings :=
  settings_of looking fun _ => alone (fun _ => rfl) fun _ => rfl

theorem movesBy_configureTrace (s : Settings) : MovesBy Change Unit (configureTrace (some s)) :=
  changing.bind (changing.pure s) fun _ => alone (fun _ => rfl) fun _ => rfl

theorem movesBy_ensureTrace (s : Settings) : MovesBy Change Unit (ensureTrace (some s)) :=
  ensureTrace_of looking (movesBy_configureTrace s)

theorem movesBy_makeLoader (s : Settings) : MovesBy Change (Option Nat) (makeLoader s) :=
  makeLoader_of changing.toSequential s fun _ => alone (fun _ => rfl) fun _ => rfl

end Shared

theorem Shared.movesBy_engine : MovesBy Change Engine engine := by
  refine changing.bind (.of_same fun _ => rfl) fun known => ?_
  cases known with
  | some e => exact changing.pure e
  | none =>
    refine changing.bind movesBy_settings fun s => changing.bind (movesBy_ensureTrace s) fun _ => ?_
    refine changing.bind (movesBy_makeLoader s) fun loader => ?_
    refine changing.bind (.of_same fun _ => rfl) fun shared => ?_
    refine changing.bind (.make _ _ _ _ _ _ _) fun e => ?_
    exact changing.bind (alone (fun _ => rfl) fun _ => rfl) fun _ => changing.pure e

namespace Handler

theorem movesBy_permitAll (i : Nat) (name : String) (grants : List (Grant Condition)) :
    MovesBy Change Unit (permitAll i name grants) :=
  permitAll_of changing.toSequential (changing.permit i) name grants

theorem movesBy_define (d : Definition) : MovesBy Change Nat (define d) := by
  refine changing.bind (.of_same fun _ => rfl) fun result => changing.bind (changing.ofExcept result) fun made => ?_
  refine changing.bind (.of_same fun _ => rfl) fun i => ?_
  refine changing.bind (movesBy_permitAll i made.resourceName (d.grantsOf made)) fun _ => ?_
  refine changing.bind (.of_same fun _ => rfl) fun number => ?_
  exact changing.bind (alone (fun _ => rfl) fun _ => rfl) fun _ => changing.pure number

theorem movesBy_get (i : Nat) : MovesBy Change Handler (get i) := by
  refine changing.bind (.of_same fun _ => rfl) fun found => ?_
  cases found with
  | some h => exact changing.pure h
  | none => exact changing.throw _

theorem movesBy_permit (i : Nat) (grant : Grant Condition) :
    MovesBy Change (List Rule) (permit i grant) := by
  refine changing.bind (movesBy_get i) fun h => ?_
  exact changing.bind (.of_same fun _ => rfl) fun registry => changing.permit registry _

theorem movesBy_renewEngine (i registry : Nat) : MovesBy Change Engine (renewEngine i registry) := by
  refine changing.bind Shared.movesBy_settings fun s => ?_
  refine changing.bind (.of_same fun _ => rfl) fun loader => ?_
  refine changing.bind (.of_same fun _ => rfl) fun resolver => ?_
  refine changing.bind (.make _ _ _ _ _ _ _) fun e => ?_
  refine changing.bind (Shared.movesBy_ensureTrace s) fun _ => ?_
  exact changing.bind (alone (fun _ => rfl) fun _ => rfl) fun _ => changing.pure e

theorem movesBy_engineOf (i : Nat) : MovesBy Change Engine (engineOf i) := by
  refine changing.bind (movesBy_get i) fun h => ?_
  refine changing.bind (.of_same fun _ => rfl) fun registry => ?_
  split
  · split
    · exact changing.pure _
    · exact movesBy_renewEngine i registry
  · exact movesBy_renewEngine i registry

theorem movesBy_authorizeAction (i : Nat) (own : Hooks) (target : Value)
    (options : List (Value × Value)) : MovesBy Change Bool (authorizeAction i own target options) := by
  refine changing.bind (movesBy_engineOf i) fun e => ?_
  split
  · exact changing.throw _
  · refine changing.bind (.of_same fun _ => rfl) fun host => ?_
    exact changing.bind (.decide e target options (some host)) fun decision => changing.pure decision.allowed

theorem movesBy_authorized (i : Nat) (own : Hooks) : MovesBy Change Bool (authorized i own) := by
  refine changing.bind (.of_same fun _ => rfl) fun w => ?_
  exact changing.bind (changing.ofExcept _) fun options => movesBy_authorizeAction i own .null options

end Handler

theorem Web.Guard.movesBy_check (g : Guard) (e : Engine) (r : Request) :
    MovesBy Change (Except Refusal Decision) (g.check e r) := by
  refine changing.bind (changing.ofExcept _) fun target => ?_
  refine changing.bind (.decide e target _ _) fun decision => ?_
  split
  · exact changing.pure _
  · exact changing.pure _

theorem Activity.movesBy_run (call : Activity) : MovesBy Change Unit call.run := by
  cases call with
  | permit i grant => exact changing.discard (changing.permit i grant)
  | clear i => exact .clear i
  | freeze i => exact .of_step fun _ => .turn (.freeze i)
  | decide e target options host => exact changing.discard (.decide e target options host)
  | load i resource => exact (Loader.ensure_of MovesBy.loading i resource).mono fun _ _ => .turn
  | bring name =>
    exact (Library.bringAt_of MovesBy.loading.importing _ name).mono fun _ _ => .turn
  | define d => exact changing.discard (Handler.movesBy_define d)
  | permitFor i grant => exact changing.discard (Handler.movesBy_permit i grant)
  | setRegistry i registry => exact alone (fun _ => rfl) fun _ => rfl
  | authorizeAction i own target options =>
    exact changing.discard (Handler.movesBy_authorizeAction i own target options)
  | authorized i own => exact changing.discard (Handler.movesBy_authorized i own)
  | check guard e request => exact changing.discard (guard.movesBy_check e request)
  | decideShared target options host =>
    exact changing.bind Shared.movesBy_engine fun e => changing.discard (.decide e target options host)
  | renewRegistry =>
    intro w
    exact .tail (.single .add) (.turn (.aside rfl rfl))
  | forgetEngine => exact alone (fun _ => rfl) fun _ => rfl
  | forgetSettings => exact alone (fun _ => rfl) fun _ => rfl

theorem Activity.changes_runAll (calls : List Activity) (w : World) :
    ReflTransGen Change w (runAll calls w) := by
  induction calls generalizing w with
  | nil => exact .refl
  | cons call rest ih => exact (call.movesBy_run w).trans (ih _)

end

/-! ## 3. Nothing changes any more -/

namespace Registry

/-- What a state says about a frozen registry: how it is, and that it refuses whatever is asked of it. -/
structure IsFinal (w : World) (i : Nat) (reg : Registry) : Prop where
  same : w.registry i = reg
  frozen : reg.frozen = true
  permit : ∀ grant, ∃ f, Run.permit i grant w = (.error f, w) ∧
    (grant.hidesStripping = false → f.isMisconfiguration = true ∨ grant.Brings f)
  clear : Run.clear i w = (.error (.misconfigured .clearedFrozen), w)

theorem isFinal_of_frozen {w : World} {i : Nat} (h : (w.registry i).frozen = true) :
    IsFinal w i (w.registry i) where
  same := rfl
  frozen := h
  permit grant := by
    obtain ⟨f, hp, hfault⟩ := permit_of_frozen h w.nextRule grant
    refine ⟨f, Run.permit_of_error hp, fun hasked => ?_⟩
    obtain hmis | hbrings | ⟨-, hhides⟩ := hfault
    · exact .inl hmis
    · exact .inr hbrings
    · rw [hasked] at hhides
      cases hhides
  clear := by
    unfold Run.clear
    rw [clear_of_frozen h]

/-- What has been frozen stays as it was, through whatever calls: it refuses every declaration and every
clearing, with a misconfiguration unless an argument brings a fault of its own. -/
theorem isFinal_of_freeze {w : World} {i : Nat} (hi : i < w.registries.length)
    (calls : List Activity) :
    IsFinal (Activity.runAll calls (Run.freeze i w).2) i (w.registry i).freeze := by
  have hfreeze : (Run.freeze i w).2.registry i = (w.registry i).freeze :=
    World.registry_setRegistry_self _ hi
  -- From here on no change concerns this registry, whichever call it comes from.
  have hfrozen : ((Run.freeze i w).2.registry i).frozen = true := hfreeze ▸ rfl
  have hsame := World.registry_of_frozen (Activity.changes_runAll calls _) hfrozen
  have hfinal := isFinal_of_frozen (hsame ▸ hfrozen)
  rw [hsame, hfreeze] at hfinal
  exact hfinal

/-- Declaring, clearing and freezing again, a class with a grant of its own, a module, a decision, and a new
registry in the place of the shared one. -/
def sampleCalls : List Activity :=
  let grant : Grant Condition := ⟨.text "orders", .text "show", .all, .absent, .null⟩
  [.permit 0 grant, .clear 0, .freeze 0,
    .define ⟨"OrdersController", [0], none, some (some 0), none, none, .silent, [grant]⟩,
    .bring "rules", .decide Engine.sample .null Engine.sampleOptions none, .renewRegistry]

theorem isFinal_of_freeze_sampleCalls :
    0 < World.initial.registries.length ∧
      IsFinal (Activity.runAll sampleCalls (Run.freeze 0 World.initial).2) 0 Registry.empty.freeze :=
  ⟨by decide, isFinal_of_freeze (by decide) sampleCalls⟩

/-- Actions with a principal among them that cannot be made, because it has no id. -/
def brokenOff : Grant Condition :=
  ⟨.text "products", Value.onceOf [.ok (.text "show"), Principal.ofFields []], .all, .absent, .null⟩

/-- A frozen registry passes the fault of such actions on. -/
theorem permit_brokenOff_of_frozen :
    let w := (Run.freeze 0 World.initial).2
    (w.registry 0).frozen = true ∧
      (Run.permit 0 brokenOff w).1 = .error (.invalid [("id", .missing)]) ∧
      Fault.isMisconfiguration (.invalid [("id", .missing)]) = false :=
  ⟨rfl, rfl, rfl⟩

end Registry

end Gatehouse
