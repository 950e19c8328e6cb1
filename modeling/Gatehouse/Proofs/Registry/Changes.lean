import Mathlib.Logic.Relation
import Gatehouse.Proofs.Deciding.Parts
import Gatehouse.Proofs.Registry.Making

/-!
# Changes — what can happen to registries

Imports and decisions do three things that matter to registries: they declare, they freeze, and they do
something that leaves registries alone. Whatever else an application calls may clear a registry or add
an empty one. An invariant of registries is proved once for each of these, and then holds after anything.
-/

namespace Gatehouse

open Relation (ReflTransGen)

/-! ## 1. One declaration -/

namespace World

/-- The state after declarations in one registry. -/
def declared (w : World) (i : Nat) (reg : Registry) (nextRule : Nat) : World :=
  { w.setRegistry i reg with nextRule }

theorem registry_setRegistry (w : World) (i j : Nat) (reg : Registry) :
    (w.setRegistry i reg).registry j =
      if i = j ∧ i < w.registries.length then reg else w.registry j := by
  by_cases hij : i = j
  · subst hij
    by_cases hi : i < w.registries.length
    · rw [if_pos ⟨rfl, hi⟩, registry_setRegistry_self reg hi]
    -- There is no registry under this number, and none is made.
    · rw [if_neg fun h => hi h.2]
      unfold setRegistry registry
      rw [List.set_eq_of_length_le (Nat.le_of_not_lt hi)]
  · rw [if_neg fun h => hij h.1, registry_setRegistry_of_ne reg (Ne.symm hij)]

theorem registry_declared (w : World) (i j : Nat) (reg : Registry) (nextRule : Nat) :
    (w.declared i reg nextRule).registry j =
      if i = j ∧ i < w.registries.length then reg else w.registry j :=
  w.registry_setRegistry i j reg

theorem registry_congr {w after : World} (h : after.registries = w.registries) (i : Nat) :
    after.registry i = w.registry i := by
  unfold registry
  rw [h]

theorem declared_self (w : World) (i : Nat) : w.declared i (w.registry i) w.nextRule = w := by
  have hset : w.registries.set i (w.registry i) = w.registries := by
    apply List.ext_getElem?
    intro j
    rw [List.getElem?_set]
    split
    · rename_i hij
      subst hij
      unfold registry
      cases hj : w.registries[i]? with
      | none => rw [if_neg (by simpa using hj)]
      | some reg => rw [if_pos (List.getElem?_eq_some_iff.1 hj).1, Option.getD_some]
    · rfl
  unfold declared setRegistry
  rw [hset]

theorem declared_declared (w : World) (i : Nat) (reg reg' : Registry) (n n' : Nat) :
    (w.declared i reg n).declared i reg' n' = w.declared i reg' n' := by
  unfold declared setRegistry
  rw [List.set_set]

/-- Under a number that no registry has there is an empty one. -/
theorem registry_eq_empty {w : World} {i : Nat} (h : w.registries.length ≤ i) :
    w.registry i = .empty := by
  unfold registry
  rw [List.getElem?_eq_none h]
  rfl

end World

namespace Run

variable {i : Nat} {grant : Grant Condition} {w after : World}

theorem permit_eq_ok_iff {rules : List Rule} : permit i grant w = (.ok rules, after) ↔
    ∃ reg, (w.registry i).permit w.nextRule grant = .ok (reg, rules) ∧
      after = w.declared i reg (w.nextRule + rules.length) := by
  cases hp : (w.registry i).permit w.nextRule grant with
  | error f =>
    rw [permit_of_error hp]
    exact ⟨nofun, nofun⟩
  | ok out =>
    rw [permit_of_ok hp]
    constructor
    · intro h
      cases h
      exact ⟨out.1, rfl, rfl⟩
    · rintro ⟨reg, hreg, rfl⟩
      cases hreg
      rfl

/-- A declaration that is refused changes nothing. -/
theorem permit_eq_error_iff {f : Fault} : permit i grant w = (.error f, after) ↔
    (w.registry i).permit w.nextRule grant = .error f ∧ after = w := by
  cases hp : (w.registry i).permit w.nextRule grant with
  | error f' =>
    rw [permit_of_error hp, Prod.mk.injEq, Except.error.injEq, Except.error.injEq, eq_comm (b := w)]
  | ok out =>
    rw [permit_of_ok hp]
    exact ⟨nofun, nofun⟩

end Run

/-! ## 2. What happens -/

/-- One thing that an import or a decision does, as far as registries go. -/
inductive World.Turn (w : World) : World → Prop where
  | aside {after : World} (hregistries : after.registries = w.registries)
      (hnext : after.nextRule = w.nextRule) : Turn w after
  | declare {i : Nat} {grant : Grant Condition} {reg : Registry} {rules : List Rule}
      (h : (w.registry i).permit w.nextRule grant = .ok (reg, rules)) :
      Turn w (w.declared i reg (w.nextRule + rules.length))
  | freeze (i : Nat) : Turn w (w.setRegistry i (w.registry i).freeze)

/-- One thing that anything at all does, as far as registries go. -/
inductive World.Change (w : World) : World → Prop where
  | turn {after : World} (h : w.Turn after) : Change w after
  | clear {i : Nat} {reg : Registry} (h : (w.registry i).clear = .ok reg) :
      Change w (w.setRegistry i reg)
  | add : Change w w.addRegistry.2

/-- A run that gets from state to state by steps of this kind, whatever it ends in. -/
def Run.MovesBy (R : World → World → Prop) (α : Type) (run : Run α) : Prop :=
  ∀ w, ReflTransGen R w (run w).2

namespace Run.MovesBy

variable {R : World → World → Prop} {run : Run α}

theorem of_step (h : ∀ w, R w (run w).2) : MovesBy R α run := fun w => .single (h w)

theorem of_same (h : ∀ w, (run w).2 = w) : MovesBy R α run := by
  intro w
  rw [h w]

theorem sequential (R : World → World → Prop) : Run.Sequential (MovesBy R) where
  pure _ := of_same fun _ => rfl
  throw _ := of_same fun _ => rfl
  bind {α β run next} hrun hnext := by
    intro w
    rw [bind_run]
    have hw := hrun w
    cases hr : run w with
    | mk result after =>
      rw [hr] at hw
      cases result with
      | error f => exact hw
      | ok a => exact hw.trans (hnext a after)

theorem tryCatch {handle : Fault → Run α} (hrun : MovesBy R α run)
    (hhandle : ∀ f, MovesBy R α (handle f)) : MovesBy R α (tryCatch run handle) := by
  intro w
  rw [tryCatch_run]
  have hw := hrun w
  cases hr : run w with
  | mk result after =>
    rw [hr] at hw
    cases result with
    | error f => exact hw.trans (hhandle f after)
    | ok a => exact hw

theorem mono {S : World → World → Prop} (h : MovesBy R α run) (hRS : ∀ w after, R w after → S w after) :
    MovesBy S α run := fun w => ReflTransGen.mono hRS _ _ (h w)

end Run.MovesBy

/-! ## 3. Imports and decisions -/

section

open World (Turn)
open Run (MovesBy)

theorem Run.MovesBy.aside {run : Run α} (hregistries : ∀ w, (run w).2.registries = w.registries)
    (hnext : ∀ w, (run w).2.nextRule = w.nextRule) : MovesBy Turn α run :=
  of_step fun w => .aside (hregistries w) (hnext w)

theorem Run.MovesBy.declaring : Run.Declaring (MovesBy Turn) where
  toSequential := sequential Turn
  home := of_same fun w => by
    unfold home
    cases w.home <;> rfl
  permit i grant := of_step fun w => by
    cases hp : (w.registry i).permit w.nextRule grant with
    | error f =>
      rw [permit_of_error hp]
      exact .aside rfl rfl
    | ok out =>
      rw [permit_of_ok hp]
      exact .declare hp

theorem Run.MovesBy.loading : Run.Loading (MovesBy Turn) where
  toDeclaring := declaring
  tryCatch := tryCatch
  library _ := of_same fun _ => rfl
  setLibrary _ := aside (fun _ => rfl) fun _ => rfl
  loaders _ := of_same fun _ => rfl
  setLoaders _ := aside (fun _ => rfl) fun _ => rfl

theorem Run.MovesBy.deciding : Run.Deciding (MovesBy Turn) where
  toDeclaring := declaring
  freeze i := of_step fun _ => .freeze i
  trace _ _ := aside (fun _ => rfl) fun _ => rfl
  question _ := aside (fun _ => rfl) fun _ => rfl
  bucket _ _ _ := of_same fun _ => rfl
  load := Loader.ensure_of loading

/-- An engine is made without a look at anything but the number that it gets. -/
theorem Engine.make_run (registry : Nat) (host : Option Host) (loader : Option Nat)
    (resolver : Option Resolver) (settings : Settings) (muted consulted : Bool) (w : World) :
    ∃ nextEngine,
      (make registry host loader resolver settings muted consulted w).2 = { w with nextEngine } := by
  unfold make
  rw [Run.bind_run, Run.ofExcept_run]
  cases Name.resource settings.fallbackResource with
  | error f => exact ⟨w.nextEngine, rfl⟩
  | ok fallback => exact ⟨w.nextEngine + 1, rfl⟩

theorem Engine.movesBy_make (registry : Nat) (host : Option Host) (loader : Option Nat)
    (resolver : Option Resolver) (settings : Settings) (muted consulted : Bool) :
    MovesBy Turn Engine (make registry host loader resolver settings muted consulted) := by
  refine .of_step fun w => ?_
  obtain ⟨nextEngine, hmake⟩ := make_run registry host loader resolver settings muted consulted w
  rw [hmake]
  exact .aside rfl rfl

end

/-! ## 4. What stays -/

namespace World

variable {w after : World}

/-- A frozen registry is there, under its number. -/
theorem lt_of_frozen {i : Nat} (h : (w.registry i).frozen = true) : i < w.registries.length := by
  by_contra hi
  rw [registry_eq_empty (Nat.le_of_not_lt hi)] at h
  cases h

theorem Turn.registry_of_frozen {i : Nat} (h : w.Turn after) (hf : (w.registry i).frozen = true) :
    after.registry i = w.registry i := by
  cases h with
  | aside hregistries => exact registry_congr hregistries i
  | @declare j grant reg rules hp =>
    rw [registry_declared]
    split
    -- A declaration in the registry itself would have been refused.
    · rename_i hj
      obtain ⟨_, _, -, -, -, hopen, -⟩ := Registry.permit_eq_ok_iff.1 hp
      rw [hj.1, hf] at hopen
      cases hopen
    · rfl
  | freeze j =>
    rw [registry_setRegistry]
    split
    · rename_i hj
      rw [hj.1]
      unfold Registry.freeze
      rw [← hf]
    · rfl

theorem Change.registry_of_frozen {i : Nat} (h : w.Change after)
    (hf : (w.registry i).frozen = true) : after.registry i = w.registry i := by
  cases h with
  | turn h => exact h.registry_of_frozen hf
  | @clear j reg hc =>
    rw [registry_setRegistry]
    split
    · rename_i hj
      rw [hj.1, Registry.clear_of_frozen hf] at hc
      cases hc
    · rfl
  | add =>
    change ((w.registries ++ [.empty])[i]?).getD .empty = _
    rw [List.getElem?_append_left (lt_of_frozen hf)]
    rfl

/-- Once frozen, a registry is the same for good. -/
theorem registry_of_frozen {i : Nat} (h : ReflTransGen Change w after)
    (hf : (w.registry i).frozen = true) : after.registry i = w.registry i := by
  -- Induction on what happens: the registry is still frozen when the last thing happens.
  induction h with
  | refl => rfl
  | tail _ hlast ih => exact (hlast.registry_of_frozen (ih ▸ hf)).trans ih

/-- Imports and decisions lose no rule, and register behind what is there. -/
theorem Turn.bucket_isPrefix (h : w.Turn after) (i : Nat) (resource action : String) :
    (w.registry i).bucket resource action <+: (after.registry i).bucket resource action := by
  cases h with
  | aside hregistries =>
    exact ⟨[], by rw [registry_congr hregistries i, List.append_nil]⟩
  | @declare j grant reg rules hp =>
    rw [registry_declared]
    split
    · rename_i hj
      obtain ⟨named, actions, -, -, -, -, rfl⟩ := Registry.permit_eq_ok_iff.1 hp
      rw [Registry.bucket_addAll, hj.1]
      exact List.prefix_append _ _
    · exact List.prefix_rfl
  | freeze j =>
    rw [registry_setRegistry]
    split
    · rename_i hj
      rw [hj.1]
      exact List.prefix_rfl
    · exact List.prefix_rfl

theorem bucket_isPrefix_of_turns (h : ReflTransGen Turn w after) (i : Nat) (resource action : String) :
    (w.registry i).bucket resource action <+: (after.registry i).bucket resource action := by
  induction h with
  | refl => exact List.prefix_rfl
  | tail _ hlast ih => exact ih.trans (hlast.bucket_isPrefix i resource action)

theorem mem_bucket_of_turns {i : Nat} {resource action : String} {rule : Rule}
    (h : ReflTransGen Turn w after) (hrule : rule ∈ (w.registry i).bucket resource action) :
    rule ∈ (after.registry i).bucket resource action :=
  (bucket_isPrefix_of_turns h i resource action).subset hrule

/-! ## 5. The numbering -/

theorem Turn.nextRule_le (h : w.Turn after) : w.nextRule ≤ after.nextRule := by
  cases h with
  | aside _ hnext => exact Nat.le_of_eq hnext.symm
  | declare _ => exact Nat.le_add_right _ _
  | freeze _ => exact Nat.le_refl _

theorem nextRule_le_of_turns (h : ReflTransGen Turn w after) : w.nextRule ≤ after.nextRule := by
  induction h with
  | refl => exact Nat.le_refl _
  | tail _ hlast ih => exact Nat.le_trans ih hlast.nextRule_le

end World

theorem Rule.serial_lt_of_mem_series {guard : Guard Condition} {objectId roles : Value}
    {count serial : Nat} {rules : List Rule}
    (h : series guard objectId count serial roles = .ok rules) :
    ∀ r ∈ rules, r.serial < serial + rules.length := by
  induction count generalizing serial roles rules with
  | zero =>
    cases h
    exact fun r hr => absurd hr List.not_mem_nil
  | succ count ih =>
    obtain ⟨first, hfirst, h⟩ := bind_eq_ok_iff.1 h
    obtain ⟨rest, hrest, h⟩ := bind_eq_ok_iff.1 h
    cases h
    intro r hr
    rw [List.length_cons]
    rcases List.mem_cons.1 hr with rfl | hr
    · have hserial : r.serial = serial := (read_of_make hfirst).1
      omega
    · have hlt := ih hrest r hr
      omega

/-- Every rule has a number that has been given. -/
def World.IsNumbered (w : World) : Prop :=
  ∀ i resource action, ∀ rule ∈ (w.registry i).bucket resource action, rule.serial < w.nextRule

theorem World.Turn.isNumbered {w after : World} (h : w.Turn after) (hw : w.IsNumbered) :
    after.IsNumbered := by
  intro i resource action rule hrule
  cases h with
  | aside hregistries hnext =>
    rw [registry_congr hregistries i] at hrule
    exact hnext ▸ hw i resource action rule hrule
  | @declare j grant reg rules hp =>
    rw [registry_declared] at hrule
    change rule.serial < w.nextRule + rules.length
    split at hrule
    · obtain ⟨named, actions, -, -, hseries, -, rfl⟩ := Registry.permit_eq_ok_iff.1 hp
      rw [Registry.bucket_addAll] at hrule
      -- A rule was there before, or it is one of the declaration.
      rcases List.mem_append.1 hrule with hold | hnew
      · exact Nat.lt_add_right _ (hw j resource action rule hold)
      · obtain ⟨entry, hentry, rfl⟩ := List.mem_map.1 hnew
        exact Rule.serial_lt_of_mem_series hseries _
          (List.of_mem_zip (List.mem_filter.1 hentry).1).2
    · exact Nat.lt_add_right _ (hw i resource action rule hrule)
  | freeze j =>
    rw [registry_setRegistry] at hrule
    split at hrule
    · exact hw j resource action rule hrule
    · exact hw i resource action rule hrule

theorem World.isNumbered_of_turns {w after : World} (h : ReflTransGen Turn w after)
    (hw : w.IsNumbered) : after.IsNumbered := by
  induction h with
  | refl => exact hw
  | tail _ hlast ih => exact hlast.isNumbered ih

end Gatehouse
