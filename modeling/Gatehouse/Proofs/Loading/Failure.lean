import Gatehouse.Proofs.Deciding.Grounds
import Gatehouse.Proofs.Deciding.Walk
import Gatehouse.Proofs.Loading.Completion

/-!
# Failure — grants and modules that are broken off

A fault in a rule module goes through every import that waits for the module, and through the decision that
wanted its rules. So no decision rests on a rule of a module that was broken off on its behalf. What such a
module had declared stays in the registry all the same, and later decisions may rest on that: as long as
nothing of the kind is left behind, every rule that grants access comes from where all modules have run to
their end.
-/

namespace Gatehouse

open Relation (ReflTransGen)
open World (Turn)
open Run (MovesBy)

/-! ## 1. What is done with engines -/

/-- A use of engines that load rules from one package. -/
inductive Use where
  | decide (e : Engine) (target : Value) (options : List (Value × Value)) (host : Option Host)
  | load (loader : Nat) (resource : Value)
  /-- A new engine, with a new loader of its own. -/
  | renew (registry : Nat) (host : Option Host) (resolver : Option Resolver) (settings : Settings)
      (muted consulted : Bool)

def Loader.add (loader : Loader) : Run Nat := fun w => (.ok (w.addLoader loader).1, (w.addLoader loader).2)

theorem World.IsServed.addLoader {lib : Library} {package : String} {w : World} (h : w.IsServed lib package) :
    (w.addLoader (.package package [])).2.IsServed lib package where
  modules := h.modules
  loaders loader hloader := by
    rcases List.mem_append.1 hloader with hold | hnew
    · exact h.loaders loader hold
    · exact ⟨[], List.mem_singleton.1 hnew⟩

namespace Use

def run (package : String) : Use → Run Unit
  | .decide e target options host => discard (e.decide target options host)
  | .load loader resource => Loader.ensure loader resource
  | .renew registry host resolver settings muted consulted => do
      let loader ← Loader.add (.package package [])
      discard (Engine.make registry host (some loader) resolver settings muted consulted)

/-- One use after the other; a fault ends the use that it comes up in, and no other. -/
def runAll (package : String) (uses : List Use) (w : World) : World :=
  uses.foldl (fun w use => (use.run package w).2) w

variable {lib : Library} {package : String} {w : World}

theorem runAll_append (uses more : List Use) (w : World) :
    runAll package (uses ++ more) w = runAll package more (runAll package uses w) :=
  List.foldl_append

theorem runAll_concat (uses : List Use) (use : Use) (w : World) :
    runAll package (uses ++ [use]) w = (use.run package (runAll package uses w)).2 :=
  runAll_append uses [use] w

theorem movesBy_run (package : String) (use : Use) : MovesBy Turn Unit (use.run package) := by
  cases use with
  | decide e target options host =>
    exact MovesBy.deciding.discard (e.decide_of MovesBy.deciding target options host)
  | load loader resource => exact Loader.ensure_of MovesBy.loading loader resource
  | renew registry host resolver settings muted consulted =>
    exact MovesBy.deciding.bind (.aside (fun _ => rfl) fun _ => rfl) fun loader =>
      MovesBy.deciding.discard
        (Engine.movesBy_make registry host (some loader) resolver settings muted consulted)

theorem completes_run (hlib : lib.IsCandid package) (use : Use) :
    Run.Completes lib package Unit (use.run package) := by
  cases use with
  | decide e target options host =>
    exact Run.Completes.sequential.discard
      (e.decide_of (Run.Completes.deciding hlib) target options host)
  | load loader resource => exact Loader.completes_ensure hlib loader resource
  | renew registry host resolver settings muted consulted =>
    refine Run.Completes.sequential.bind (fun w hw => ?_) fun loader => ?_
    · exact ⟨hw.addLoader, .well (World.finishes_of_library (.single (.aside rfl rfl)) rfl)⟩
    · refine Run.Completes.sequential.discard (.of_same (Engine.movesBy_make _ _ _ _ _ _ _) fun w => ?_)
      obtain ⟨nextEngine, hmake⟩ :=
        Engine.make_run registry host (some loader) resolver settings muted consulted w
      rw [hmake]
      exact ⟨rfl, rfl⟩

theorem isServed_runAll (hlib : lib.IsCandid package) (uses : List Use)
    (hw : w.IsServed lib package) : (runAll package uses w).IsServed lib package := by
  induction uses generalizing w with
  | nil => exact hw
  | cons use rest ih => exact ih (use.completes_run hlib w hw).1

theorem turns_runAll (package : String) (uses : List Use) (w : World) :
    ReflTransGen Turn w (runAll package uses w) := by
  induction uses generalizing w with
  | nil => exact .refl
  | cons use rest ih => exact (use.movesBy_run package w).trans (ih _)

/-! ## 2. Where rules come from -/

/-- A use comes to a state with all modules run to their end that it started; there it ends, or it starts a
module that is broken off by the fault which the use ends in. -/
structure IsWholeUpTo (package : String) (use : Use) (w mid : World) : Prop where
  finishes : w.Finishes mid
  rest : (use.run package w).2 = mid ∨
    ∃ f, (use.run package w).1 = .error f ∧ mid.BreaksOff f (use.run package w).2

/-- A rule of this number is declared in a use while everything that it started runs to its end. -/
def Declares (package : String) (use : Use) (w : World) (serial : Nat) : Prop :=
  ∃ mid, use.IsWholeUpTo package w mid ∧ w.nextRule ≤ serial ∧ serial < mid.nextRule

/-- A rule of this number is declared in a use by a module that is broken off, or on its behalf. -/
def LeavesBehind (package : String) (use : Use) (w : World) (serial : Nat) : Prop :=
  ∃ mid, use.IsWholeUpTo package w mid ∧ mid.nextRule ≤ serial ∧
    serial < (use.run package w).2.nextRule

theorem exists_isWholeUpTo (hlib : lib.IsCandid package) (use : Use) (hw : w.IsServed lib package) :
    ∃ mid, use.IsWholeUpTo package w mid := by
  have hends := (use.completes_run hlib w hw).2
  cases hrun : use.run package w with
  | mk result after =>
    rw [hrun] at hends
    cases hends with
    | well h => exact ⟨after, h, .inl (by rw [hrun])⟩
    | fault h => exact ⟨after, h, .inl (by rw [hrun])⟩
    | broken h hbreaks => exact ⟨_, h, .inr ⟨_, by rw [hrun], by rwa [hrun]⟩⟩

/-- What is declared in a use is declared before a module is broken off, or in it. -/
theorem declares_or_leavesBehind (hlib : lib.IsCandid package) {use : Use}
    (hw : w.IsServed lib package) {serial : Nat} (hfrom : w.nextRule ≤ serial)
    (hbelow : serial < (use.run package w).2.nextRule) :
    use.Declares package w serial ∨ use.LeavesBehind package w serial := by
  obtain ⟨mid, hmid⟩ := use.exists_isWholeUpTo hlib hw
  by_cases hserial : serial < mid.nextRule
  · exact .inl ⟨mid, hmid, hfrom, hserial⟩
  · exact .inr ⟨mid, hmid, Nat.le_of_not_lt hserial, hbelow⟩

/-- A use that ends well leaves nothing behind. -/
theorem not_leavesBehind_of_ok {use : Use} (h : (use.run package w).1 = .ok ()) (serial : Nat) :
    ¬ use.LeavesBehind package w serial := by
  rintro ⟨mid, hmid, hle, hlt⟩
  obtain hend | ⟨f, hf, -⟩ := hmid.rest
  · exact absurd (hend ▸ hlt) (Nat.not_lt.2 hle)
  · rw [h] at hf
    cases hf

theorem not_leavesBehind_of_nextRule {use : Use}
    (h : (use.run package w).2.nextRule = w.nextRule) (serial : Nat) :
    ¬ use.LeavesBehind package w serial := by
  rintro ⟨mid, hmid, hle, hlt⟩
  have hmono : w.nextRule ≤ mid.nextRule := World.nextRule_le_of_turns hmid.finishes.turns
  omega

/-- A rule number that has been given in a run has been given in one of its uses. -/
theorem exists_use (uses : List Use) {serial : Nat} (hfrom : w.nextRule ≤ serial)
    (hbelow : serial < (runAll package uses w).nextRule) :
    ∃ earlier use later, uses = earlier ++ use :: later ∧
      (runAll package earlier w).nextRule ≤ serial ∧
      serial < (use.run package (runAll package earlier w)).2.nextRule := by
  induction uses generalizing w with
  | nil => exact absurd hbelow (Nat.not_lt.2 hfrom)
  | cons use rest ih =>
    by_cases hnow : serial < (use.run package w).2.nextRule
    · exact ⟨[], use, rest, rfl, hfrom, hnow⟩
    · obtain ⟨earlier, found, later, rfl, hgiven⟩ := ih (Nat.le_of_not_lt hnow) hbelow
      exact ⟨use :: earlier, found, later, rfl, hgiven⟩

end Use

/-! ## 3. What grants rest on -/

namespace Engine

variable {lib : Library} {package : String} {start after : World} {e : Engine} {target : Value}
  {options : List (Value × Value)} {host : Option Host} {d : Decision}

/-- A grant rests on a rule that was there at the start, on one that was declared while every module ran to
its end, or on one that an earlier use has left behind. -/
theorem grounds_of_decide (hlib : lib.IsCandid package) (hserved : start.IsServed lib package)
    (hnumbered : start.IsNumbered) {uses : List Use}
    (h : e.decide target options host (Use.runAll package uses start) = (.ok d, after))
    (hd : d.allowed = true) :
    ∃ rule, d.RestsOn (after.registry e.registry) rule ∧ (rule.serial < start.nextRule ∨
      ∃ earlier use later, uses ++ [.decide e target options host] = earlier ++ use :: later ∧
        (use.Declares package (Use.runAll package earlier start) rule.serial ∨
          later ≠ [] ∧ use.LeavesBehind package (Use.runAll package earlier start) rule.serial)) := by
  obtain ⟨rule, hrests⟩ := restsOn_of_decide h hd
  refine ⟨rule, hrests, ?_⟩
  by_cases hold : rule.serial < start.nextRule
  · exact .inl hold
  have hrun : (Use.decide e target options host).run package (Use.runAll package uses start) =
      (.ok (), after) := by
    change discard (e.decide target options host) _ = _
    rw [Run.discard_run, h]
    rfl
  have hafter : Use.runAll package (uses ++ [.decide e target options host]) start = after := by
    rw [Use.runAll_concat, hrun]
  have hbelow : rule.serial < after.nextRule := by
    have hturns := Use.turns_runAll package (uses ++ [.decide e target options host]) start
    rw [hafter] at hturns
    obtain ⟨_, _, _, _, _, hrule, -⟩ := hrests
    exact World.isNumbered_of_turns hturns hnumbered _ _ _ rule hrule
  -- The number of the rule has been given since the start, so it has been given in one of the uses.
  obtain ⟨earlier, use, later, hsplit, hfrom, hgiven⟩ :=
    Use.exists_use (uses ++ [.decide e target options host]) (Nat.le_of_not_lt hold) (hafter ▸ hbelow)
  refine .inr ⟨earlier, use, later, hsplit, ?_⟩
  obtain hdeclares | hleft :=
    Use.declares_or_leavesBehind hlib (Use.isServed_runAll hlib earlier hserved) hfrom hgiven
  · exact .inl hdeclares
  · refine .inr ⟨?_, hleft⟩
    rintro rfl
    -- The last use is the decision itself, and it has ended well.
    obtain ⟨rfl, huse⟩ := List.append_inj' hsplit rfl
    cases huse
    exact Use.not_leavesBehind_of_ok (by rw [hrun]) _ hleft

/-- As long as no module that is broken off leaves a rule behind, every grant rests on a rule that was there
at the start, or that was declared while every module ran to its end. -/
theorem declares_of_decide (hlib : lib.IsCandid package) (hserved : start.IsServed lib package)
    (hnumbered : start.IsNumbered) {uses : List Use}
    (hnothing : ∀ earlier use later, uses = earlier ++ use :: later → ∀ serial,
      ¬ use.LeavesBehind package (Use.runAll package earlier start) serial)
    (h : e.decide target options host (Use.runAll package uses start) = (.ok d, after))
    (hd : d.allowed = true) :
    ∃ rule, d.RestsOn (after.registry e.registry) rule ∧ (rule.serial < start.nextRule ∨
      ∃ earlier use later, uses ++ [.decide e target options host] = earlier ++ use :: later ∧
        use.Declares package (Use.runAll package earlier start) rule.serial) := by
  obtain ⟨rule, hrests, hold | ⟨earlier, use, later, hsplit, hdeclares | ⟨hlater, hleft⟩⟩⟩ :=
    grounds_of_decide hlib hserved hnumbered h hd
  · exact ⟨rule, hrests, .inl hold⟩
  · exact ⟨rule, hrests, .inr ⟨earlier, use, later, hsplit, hdeclares⟩⟩
  -- A use with others after it is not the decision, so it can have left nothing behind.
  · obtain ⟨front, last, rfl⟩ := List.eq_nil_or_concat' later |>.resolve_left hlater
    rw [← List.cons_append, ← List.append_assoc] at hsplit
    exact absurd hleft (hnothing earlier use front (List.append_inj' hsplit rfl).1 _)

/-! ## 4. A module that is broken off before it declares, and one that is broken off after -/

def brokenFault : Fault := .foreign "RuntimeError" "broken"

def permitShow (resource : String) : Statement :=
  .permit ⟨.text resource, .text "show", .all, .absent, .null⟩

def brokenWorld (modules : List RuleModule) : World :=
  { World.initial with
    library := ⟨⟨"rules", []⟩ :: modules, [], []⟩
    loaders := [.package "rules" []] }

def brokenEngine : Engine := { sample with loader := some 0 }

/-- A request to show products, by nobody in particular. -/
def showProducts : Value :=
  .dict [(.text "resource", .text "products"), (.text "action", .text "show")]

theorem isServed_brokenWorld (modules : List RuleModule) :
    (brokenWorld modules).IsServed (brokenWorld modules).library "rules" where
  modules := rfl
  loaders _ h := ⟨[], List.mem_singleton.1 h⟩

theorem isNumbered_brokenWorld (modules : List RuleModule) : (brokenWorld modules).IsNumbered := by
  intro i resource action rule hrule
  have hempty : (brokenWorld modules).registry i = .empty := by
    cases i with
    | zero => rfl
    | succ i => rfl
  rw [hempty] at hrule
  exact absurd hrule List.not_mem_nil

theorem declares_of_decide_brokenWorld :
    let start := brokenWorld
      [⟨"rules.products", [permitShow "products"]⟩, ⟨"rules.orders", [.fail brokenFault]⟩]
    let uses : List Use := [.load 0 (.text "orders")]
    ((Use.load 0 (.text "orders")).run "rules" start).1 = .error brokenFault ∧
      ∃ d after, brokenEngine.decide showProducts [] none (Use.runAll "rules" uses start) =
          (.ok d, after) ∧ d.allowed = true ∧
        ∃ rule, d.RestsOn (after.registry 0) rule ∧ (rule.serial < 0 ∨ ∃ earlier use later,
          uses ++ [.decide brokenEngine showProducts [] none] = earlier ++ use :: later ∧
            use.Declares "rules" (Use.runAll "rules" earlier start) rule.serial) := by
  intro start uses
  obtain ⟨d, after, hrun, hd⟩ : ∃ d after, brokenEngine.decide showProducts [] none
      (Use.runAll "rules" uses start) = (.ok d, after) ∧ d.allowed = true :=
    ⟨_, _, by with_unfolding_all rfl, by with_unfolding_all rfl⟩
  refine ⟨by with_unfolding_all rfl, d, after, hrun, hd, ?_⟩
  have hfrank : ∀ m ∈ start.library.modules, ∀ st ∈ m.body, st.isFrank = true := by
    simp [start, brokenWorld, permitShow, brokenFault, Statement.isFrank, Fault.isNoModule]
  refine declares_of_decide (Library.isCandid_of_isFrank hfrank "rules") (isServed_brokenWorld _)
    (isNumbered_brokenWorld _) (fun earlier use later hsplit serial => ?_) hrun hd
  -- There is but one use, and nothing has been declared in it.
  obtain ⟨rfl, hone⟩ | ⟨-, hnil⟩ := List.singleton_eq_append_iff.1 hsplit
  · obtain ⟨rfl, rfl⟩ := List.cons_eq_cons.1 hone
    exact Use.not_leavesBehind_of_nextRule (by with_unfolding_all rfl) serial
  · cases hnil

def leftBehind : Rule := ⟨0, .everyone, none, "id"⟩

/-- The module of orders declares for every resource, and then it is broken off. -/
def brokenOrders : World :=
  brokenWorld [⟨"rules.orders", [permitShow "application", .fail brokenFault]⟩]

def afterRules : World := { brokenOrders with library := brokenOrders.library.start "rules" }

def afterOrders : World :=
  { brokenOrders with
    registries := [⟨[("application", [("show", [leftBehind])])], false⟩]
    nextRule := 1
    library := ⟨brokenOrders.library.modules, ["rules"], ["rules", "rules.orders"]⟩ }

theorem load_brokenOrders : (Use.load 0 (.text "orders")).run "rules" brokenOrders =
    (.error brokenFault, afterOrders) := by
  with_unfolding_all rfl

/-- What a module leaves behind that is broken off after it has declared grants access. -/
theorem leavesBehind_brokenOrders :
    (Use.load 0 (.text "orders")).run "rules" brokenOrders = (.error brokenFault, afterOrders) ∧
      (Use.load 0 (.text "orders")).LeavesBehind "rules" brokenOrders leftBehind.serial ∧
      (brokenEngine.decide showProducts [] none afterOrders).1 =
        .ok (.granted "products" "show" "application" "show" leftBehind.text 1) ∧
      ((brokenEngine.decide showProducts [] none afterOrders).2.registry 0).bucket "application" "show" =
        [leftBehind] := by
  have hrules : Library.bringOne (Library.bringAt 159) "rules" brokenOrders = (.ok (), afterRules) := by
    with_unfolding_all rfl
  have hfinishes : brokenOrders.Finishes afterRules := by
    have hends := (Library.completes_bringOne 159 (Library.completes_bringAt 159) "rules" brokenOrders
      (isServed_brokenWorld _)).2
    rw [hrules] at hends
    exact hends.finishes
  have hbreaks : afterRules.BreaksOff brokenFault afterOrders :=
    ⟨159, "rules.orders", _, by decide +kernel, by with_unfolding_all rfl, by with_unfolding_all rfl⟩
  have hwhole : (Use.load 0 (.text "orders")).IsWholeUpTo "rules" brokenOrders afterRules :=
    ⟨hfinishes, .inr ⟨brokenFault, congrArg Prod.fst load_brokenOrders, load_brokenOrders ▸ hbreaks⟩⟩
  exact ⟨load_brokenOrders, ⟨afterRules, hwhole, Nat.le_refl 0, load_brokenOrders ▸ Nat.one_pos⟩,
    by with_unfolding_all rfl, by with_unfolding_all rfl⟩

end Engine

end Gatehouse
