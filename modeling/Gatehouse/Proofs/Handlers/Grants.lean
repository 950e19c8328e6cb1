import Gatehouse.Proofs.Handlers.Definition
import Gatehouse.Proofs.Handlers.Descent

/-!
# Grants — what a class declares when it is defined

A class takes its registry from itself or from the nearest class that it is derived from, in the order in which it asks
them, but its grants and its resource name from itself alone. So each definition adds the rules of its own grants behind
those that are there, in one registry, and a class without grants adds none, whatever the classes have declared that it
is derived from.
-/

namespace Gatehouse.Handler

open Registry (Declaration)

/-! ## 1. Grants in one registry -/

/-- The rules that the grants of a class give for an action on a resource, in the order of the grants. -/
def rulesOf (name : String) (grants : List (Grant Condition)) (resource action : String) : List Rule :=
  grants.flatMap fun g => (addressed name g).rulesAt resource action

/-- Grants have been declared under a resource name, in their order, and nothing else has been. -/
structure DeclaresAll (i : Nat) (name : String) (grants : List (Grant Condition)) (w after : World)
    (declared : List Declaration) : Prop extends Declares i w after declared where
  inOrder : declared.map Declaration.grant = grants.map (addressed name)
  made : ∀ d ∈ declared, ∀ r ∈ d.rules, r.IsMadeOf d.grant
  contents : ∀ resource action, (after.registry i).contents resource action =
    (w.registry i).contents resource action ++ rulesOf name grants resource action

variable {i : Nat} {name : String} {w after : World}

theorem declaresAll_of_permitAll {grants : List (Grant Condition)} (hi : i < w.registries.length)
    (h : permitAll i name grants w = (.ok (), after)) : ∃ declared, DeclaresAll i name grants w after declared := by
  -- Induction on the grants: the first is declared in front of the rest.
  induction grants generalizing w with
  | nil =>
    cases h
    exact ⟨[], .none i _, rfl, fun _ hd => absurd hd List.not_mem_nil, fun _ _ => (List.append_nil _).symm⟩
  | cons g rest ih =>
    rw [permitAll_cons_run] at h
    cases hg : Run.permit i (addressed name g) w with
    | mk result mid =>
      rw [hg] at h
      cases result with
      | error f => cases h
      | ok rules =>
        have hone : Declares i w mid [⟨addressed name g, rules⟩] := .one hi hg
        obtain ⟨declared, hrest⟩ := ih (hone.length_registries ▸ hi) h
        obtain ⟨reg, hpermit, rfl⟩ := Run.permit_eq_ok_iff.1 hg
        refine ⟨⟨addressed name g, rules⟩ :: declared, hone.trans hrest.toDeclares, ?_, ?_,
          fun resource action => ?_⟩
        · rw [List.map_cons, List.map_cons, hrest.inOrder]
        · intro d hd
          rcases List.mem_cons.1 hd with rfl | hd
          · exact Rule.isMadeOf_of_permit hpermit
          · exact hrest.made d hd
        · have hreg : (w.declared i reg (w.nextRule + rules.length)).registry i = reg :=
            World.registry_setRegistry_self reg hi
          rw [hrest.contents, hreg, Registry.contents_permit hpermit, List.append_assoc]
          rfl

/-! ## 2. The registry that a class sees -/

/-- The registry that a class sees: its own if it sets one, else that of the first class behind it which sets one. The
shared one counts if there is none, or if this class sets it to none. -/
inductive Sees (w : World) (i : Nat) : Nat → Prop where
  | own {h : Handler} {set : Option Nat} (hi : w.handlers[i]? = some h) (hset : h.registry = some set) :
      Sees w i (set.getD w.shared)
  | inherited {h k : Handler} {j : Nat} {before behind : List Nat} {set : Option Nat} (hi : w.handlers[i]? = some h)
      (hunset : h.registry = none) (hsplit : h.ancestors = before ++ j :: behind)
      (hbefore : ∀ b ∈ before, ∀ k', w.handlers[b]? = some k' → k'.registry = none)
      (hj : w.handlers[j]? = some k) (hset : k.registry = some set) : Sees w i (set.getD w.shared)
  | shared {h : Handler} (hi : w.handlers[i]? = some h) (hunset : h.registry = none)
      (hnone : ∀ j ∈ h.ancestors, ∀ k, w.handlers[j]? = some k → k.registry = none) : Sees w i w.shared

/-- Classes stand behind those that they ask, and registries that they set are there. -/
structure IsSound (w : World) : Prop where
  shared : w.shared < w.registries.length
  ordered : AreOrdered w.handlers
  registry : ∀ (i : Nat) (h : Handler) (r : Nat), w.handlers[i]? = some h → h.registry = some (some r) →
    r < w.registries.length

theorem isSound_of_root (hshared : w.shared < w.registries.length) (hroot : w.handlers = [root]) : IsSound w := by
  refine ⟨hshared, hroot ▸ areOrdered_root, fun i h r hi hset => ?_⟩
  rw [hroot, List.getElem?_singleton] at hi
  split at hi
  · cases hi
    cases hset
  · cases hi

theorem bind_registry_eq_none_iff {handlers : List Handler} {j : Nat} : handlers[j]?.bind Handler.registry = none ↔
    ∀ k, handlers[j]? = some k → k.registry = none :=
  Option.bind_eq_none_iff

theorem sees_registryOf (hi : i < w.handlers.length) : Sees w i (registryOf w i) := by
  obtain ⟨h, hat⟩ : ∃ h, w.handlers[i]? = some h := ⟨_, List.getElem?_eq_getElem hi⟩
  unfold registryOf registryAlong
  rw [lineage_of_some hat, line, List.findSome?_cons]
  cases hset : h.registry with
  | some set => exact .own hat hset
  | none =>
    dsimp only
    rw [← List.head?_filterMap, List.filterMap_filterMap, List.head?_filterMap]
    cases hfound : h.ancestors.findSome? fun j => w.handlers[j]?.bind Handler.registry with
    | none =>
      exact .shared hat hset fun j hj => bind_registry_eq_none_iff.1 (List.findSome?_eq_none_iff.1 hfound j hj)
    | some set =>
      obtain ⟨before, j, behind, hsplit, hj, hbefore⟩ := List.findSome?_eq_some_iff.1 hfound
      obtain ⟨k, hk, hsets⟩ := Option.bind_eq_some_iff.1 hj
      exact .inherited hat hset hsplit (fun b hb => bind_registry_eq_none_iff.1 (hbefore b hb)) hk hsets

theorem Sees.lt_length {r : Nat} (hw : IsSound w) (hsees : Sees w i r) : r < w.registries.length := by
  have hset : ∀ {j : Nat} {k : Handler} {set : Option Nat}, w.handlers[j]? = some k → k.registry = some set →
      set.getD w.shared < w.registries.length := by
    intro j k set hj hset
    cases set with
    | none => exact hw.shared
    | some r => exact hw.registry j k r hj hset
  cases hsees with
  | own hi hown => exact hset hi hown
  | inherited _ _ _ _ hj hown => exact hset hj hown
  | shared => exact hw.shared

/-! ## 3. One definition -/

namespace Definition

/-- The registry that a definition sets is there. -/
def fits (d : Definition) (w : World) : Bool := d.registry.join.all (· < w.registries.length)

theorem fits_iff {d : Definition} : d.fits w = true ↔ ∀ r, d.registry = some (some r) → r < w.registries.length := by
  unfold fits
  rw [Option.all_eq_true]
  simp [Option.join_eq_some_iff]

/-- What a definition has done: there is one class more, and the rules of its own grants stand behind those that were
in the registry which it sees. A class that is only mixed in has no grants of its own. -/
structure Registers (d : Definition) (before after : World) (made : Handler) (declared : List Declaration) : Prop where
  makes : d.Makes before made
  added : after.handlers = before.handlers ++ [made]
  sees : Sees after before.handlers.length (d.registryIn before)
  inOrder : declared.map Declaration.grant = (d.grantsOf made).map (addressed made.resourceName)
  rules : ∀ x ∈ declared, ∀ r ∈ x.rules, r.IsMadeOf x.grant
  contents : ∀ resource action, (after.registry (d.registryIn before)).contents resource action =
    (before.registry (d.registryIn before)).contents resource action ++
      rulesOf made.resourceName (d.grantsOf made) resource action
  answers : ∀ history, (before.registry (d.registryIn before)).IsLogOf history →
    (after.registry (d.registryIn before)).AnswersAs (history ++ declared)
  elsewhere : ∀ i, i ≠ d.registryIn before → after.registry i = before.registry i
  untouched : d.grantsOf made = [] → after.registries = before.registries

end Definition

variable {d : Definition} {made : Handler}

/-- A new class sees what its definition declares in. -/
theorem sees_registryIn (hw : AreOrdered w.handlers) (hmade : d.make w = .ok made) (hshared : after.shared = w.shared)
    (hadded : after.handlers = w.handlers ++ [made]) : Sees after w.handlers.length (d.registryIn w) := by
  have hbelow := (makes_of_make hmade).descends.lt_length hw
  have hnew : after.handlers[w.handlers.length]? = some made := by
    rw [hadded, List.getElem?_concat_length]
  have hline : line after.handlers made = line w.handlers made := by
    unfold line
    refine congrArg (made :: ·) (List.filterMap_congr fun j hj => ?_)
    rw [hadded, List.getElem?_append_left (hbelow j hj)]
  have hsame : d.registryIn w = registryOf after w.handlers.length := by
    rw [registryIn_of_made hmade, registryOf, lineage_of_some hnew, hline, registryAlong, registryAlong, hshared]
  rw [hsame]
  exact sees_registryOf (List.getElem?_eq_some_iff.1 hnew).1

/-- A class that fits in leaves the others as they are. -/
theorem isSound_added (hw : IsSound w) (hfits : d.fits w = true) (hmade : d.make w = .ok made)
    (hshared : after.shared = w.shared) (hcount : after.registries.length = w.registries.length)
    (hadded : after.handlers = w.handlers ++ [made]) : IsSound after := by
  have hmakes := makes_of_make hmade
  refine ⟨by rw [hshared, hcount]; exact hw.shared, ?_, fun j h r hj hr => ?_⟩
  · rw [hadded]
    exact areOrdered_concat hw.ordered hmakes.descends
  · rw [hadded] at hj
    rw [hcount]
    rcases mem_of_getElem?_concat hj with hold | ⟨-, rfl⟩
    · exact hw.registry j h r hold hr
    · exact Definition.fits_iff.1 hfits r (hmakes.registry ▸ hr)

theorem registryIn_lt (hw : IsSound w) (hfits : d.fits w = true) (hmade : d.make w = .ok made) :
    d.registryIn w < w.registries.length := by
  -- In the world where the class is there already, it sees this registry.
  have hsound : IsSound { w with handlers := w.handlers ++ [made] } := isSound_added hw hfits hmade rfl rfl rfl
  have hsees : Sees { w with handlers := w.handlers ++ [made] } w.handlers.length (d.registryIn w) :=
    sees_registryIn hw.ordered hmade rfl rfl
  exact Sees.lt_length (w := { w with handlers := w.handlers ++ [made] }) hsound hsees

theorem registers_of_define (hw : IsSound w) (hfits : d.fits w = true) {k : Nat} (h : define d w = (.ok k, after)) :
    IsSound after ∧ ∃ made declared, d.make w = .ok made ∧ d.Registers w after made declared := by
  obtain ⟨made, mid, hmade, hall, rfl⟩ := exists_made_of_define h
  obtain ⟨declared, hdeclared⟩ := declaresAll_of_permitAll (registryIn_lt hw hfits hmade) hall
  have halone := hdeclared.alone
  have hshared : mid.shared = w.shared := by
    rw [halone]
    rfl
  have hadded : mid.handlers ++ [made] = w.handlers ++ [made] := by
    rw [halone]
    rfl
  refine ⟨isSound_added hw hfits hmade hshared hdeclared.length_registries hadded, made, declared, hmade, ?_⟩
  refine ⟨makes_of_make hmade, hadded, sees_registryIn hw.ordered hmade hshared hadded, hdeclared.inOrder,
    hdeclared.made, hdeclared.contents,
    fun history hlog => Registry.answersAs_of_isLogOf (hdeclared.log history hlog), fun i hi => ?_, fun hnone => ?_⟩
  · show mid.registry i = w.registry i
    rw [halone, World.registry_declared, if_neg fun hsame => hi hsame.1.symm]
  · rw [hnone] at hall
    cases hall
    rfl

/-! ## 4. Definitions in a row -/

/-- Classes that are defined one after the other, each with the world that it finds. -/
def births : List Definition → World → List (Definition × World)
  | [], _ => []
  | d :: rest, w => (d, w) :: births rest (define d w).2

def defineAll (ds : List Definition) (w : World) : World := ds.foldl (fun w d => (define d w).2) w

/-- The rules that a definition adds in a registry for an action on a resource. -/
def Definition.rulesIn (d : Definition) (w : World) (i : Nat) (resource action : String) : List Rule :=
  match d.make w with
  | .ok made =>
      if d.registryIn w = i then rulesOf made.resourceName (d.grantsOf made) resource action else []
  | .error _ => []

theorem contents_define (hw : IsSound w) (hfits : d.fits w = true) {k : Nat} (h : define d w = (.ok k, after))
    (i : Nat) (resource action : String) : (after.registry i).contents resource action =
      (w.registry i).contents resource action ++ d.rulesIn w i resource action := by
  obtain ⟨-, made, declared, hmade, hregisters⟩ := registers_of_define hw hfits h
  unfold Definition.rulesIn
  rw [hmade]
  dsimp only
  split
  · rename_i hsame
    subst hsame
    exact hregisters.contents resource action
  · rename_i hother
    rw [hregisters.elsewhere i (Ne.symm hother), List.append_nil]

/-- However classes are derived from each other, and whichever registries and names they have: if all of them can be
defined, each adds the rules of its own grants, in their order, to the registry that it sees and to no other. So in the
end a registry has the rules that it had, and behind them those of the classes that see it, class by class. -/
theorem registers_of_mem_births (hw : IsSound w) {ds : List Definition}
    (hds : ∀ birth ∈ births ds w, birth.1.fits birth.2 = true ∧ (define birth.1 birth.2).1.isOk = true) :
    IsSound (defineAll ds w) ∧
      (∀ birth ∈ births ds w, ∃ made declared,
        birth.1.Registers birth.2 (define birth.1 birth.2).2 made declared) ∧
      ∀ i resource action, ((defineAll ds w).registry i).contents resource action =
        (w.registry i).contents resource action ++
          (births ds w).flatMap fun birth => birth.1.rulesIn birth.2 i resource action := by
  -- Induction on the definitions: each leaves a world in which the next one can be made.
  induction ds generalizing w with
  | nil => exact ⟨hw, fun _ hmem => absurd hmem List.not_mem_nil, fun _ _ _ => (List.append_nil _).symm⟩
  | cons d rest ih =>
    obtain ⟨hfits, hok⟩ := hds (d, w) List.mem_cons_self
    cases hdefine : define d w with
    | mk result mid =>
      rw [hdefine] at hok
      cases result with
      | error f => cases hok
      | ok k =>
        obtain ⟨hsound, made, declared, -, hregisters⟩ := registers_of_define hw hfits hdefine
        have hmid : (define d w).2 = mid := congrArg Prod.snd hdefine
        obtain ⟨hlast, hrest, hcontents⟩ := ih hsound fun birth hmem => hds birth (by
          unfold births
          rw [hmid]
          exact List.mem_cons_of_mem _ hmem)
        refine ⟨?_, ?_, ?_⟩
        · unfold defineAll
          rw [List.foldl_cons, hmid]
          exact hlast
        · intro birth hmem
          unfold births at hmem
          rw [hmid] at hmem
          rcases List.mem_cons.1 hmem with rfl | hmem
          · rw [hmid]
            exact ⟨made, declared, hregisters⟩
          · exact hrest birth hmem
        · intro i resource action
          unfold births defineAll
          rw [List.foldl_cons, List.flatMap_cons, hmid, ← List.append_assoc,
            ← contents_define hw hfits hdefine i resource action]
          exact hcontents i resource action

/-- A registry of its own beside the shared one. -/
def twoRegistries : World := { World.initial with registries := [.empty, .empty] }

/-- A class to be mixed in, which sets the other registry, and a handler with grants. With the first in front, a class
derived from both sees the registry that is set, and with the handler in front the shared one, because the root of all
handlers comes before what is mixed in. The last class sees the first registry again and has a name and grants of its
own. -/
def sampleClasses : List Definition :=
  [⟨"Stored", [], none, some (some 1), none, none, .silent, []⟩,
    ⟨"ShelvesController", [0], none, none, none, none, .silent,
      [⟨.null, .text "show", .all, .absent, .null⟩]⟩,
    ⟨"BooksController", [1, 2], none, none, none, none, .silent, []⟩,
    ⟨"CratesController", [2, 1], none, none, none, none, .silent,
      [⟨.null, .text "show", .all, .absent, .null⟩]⟩,
    ⟨"AtlasController", [3, 2], some (.text "Maps"), none, none, none, .silent,
      [⟨.null, .text "edit", .all, .absent, .null⟩, ⟨.text "globes", .text "show", .all, .absent, .null⟩]⟩]

theorem registers_of_mem_births_sampleClasses : IsSound twoRegistries ∧
    (∀ birth ∈ births sampleClasses twoRegistries,
      birth.1.fits birth.2 = true ∧ (define birth.1 birth.2).1.isOk = true) ∧
    IsSound (defineAll sampleClasses twoRegistries) ∧
    (∀ birth ∈ births sampleClasses twoRegistries, ∃ made declared,
      birth.1.Registers birth.2 (define birth.1 birth.2).2 made declared) ∧
    (defineAll sampleClasses twoRegistries).handlers.map Handler.ancestors =
      [[], [], [0], [1, 2, 0], [2, 0, 1], [3, 1, 2, 0]] ∧
    ((defineAll sampleClasses twoRegistries).registry 0).resourceNames = ["shelves", "crates"] ∧
    ((defineAll sampleClasses twoRegistries).registry 1).resourceNames = ["maps", "globes"] := by
  have hsound : IsSound twoRegistries := isSound_of_root (by decide) rfl
  have hall : (births sampleClasses twoRegistries).all (fun birth =>
      birth.1.fits birth.2 && (define birth.1 birth.2).1.isOk) = true := by with_unfolding_all rfl
  have hds : ∀ birth ∈ births sampleClasses twoRegistries,
      birth.1.fits birth.2 = true ∧ (define birth.1 birth.2).1.isOk = true := fun birth hmem =>
    Bool.and_eq_true_iff.1 (List.all_eq_true.1 hall birth hmem)
  obtain ⟨hlast, hregisters, -⟩ := registers_of_mem_births hsound hds
  exact ⟨hsound, hds, hlast, hregisters, by with_unfolding_all rfl, by with_unfolding_all rfl,
    by with_unfolding_all rfl⟩

end Gatehouse.Handler
