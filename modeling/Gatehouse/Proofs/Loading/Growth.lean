import Gatehouse.Proofs.Loading.Imports
import Gatehouse.Proofs.Loading.Names
import Gatehouse.Proofs.Registry.Making

/-!
# Growth — what imports add to a registry

In a package in which every module declares on the resource of its own name, what a registry gets for a
resource depends on one thing only: whether the module of that name has been imported. A module that
runs may start others, and these may come back to it, but none of them runs twice and none declares on
another's resource. So each step of an import adds, for every resource, either the rules of the whole
module or nothing, and the rules of a resource are never interleaved with others of their own.
-/

namespace Gatehouse

/-! ## 1. What a module declares -/

def Statement.rulesAt : Statement → (resource action : String) → List Rule
  | .permit grant, resource, action => grant.rulesAt resource action
  | _, _, _ => []

/-- The rules that the module of a name declares for an action on a resource, but for their numbers. -/
def Library.rulesOf (lib : Library) (name resource action : String) : List Rule :=
  match lib.modules.find? fun m => m.name == name with
  | some m => m.body.flatMap fun st => st.rulesAt resource action
  | none => []

/-- Every module declares only on the resource that it is named after. -/
def Library.DeclaresOwn (lib : Library) (package : String) : Prop :=
  ∀ m ∈ lib.modules, ∀ g, .permit g ∈ m.body → ∀ resource,
    Name.resource g.resource = .ok resource → m.name = package ++ "." ++ resource

theorem Statement.resource_of_mem_rulesAt {st : Statement} {resource action : String} {r : Rule}
    (h : r ∈ st.rulesAt resource action) :
    ∃ g, st = .permit g ∧ Name.resource g.resource = .ok resource ∧ r.IsMadeOf g := by
  cases st with
  | permit g =>
    obtain ⟨hr, hmade⟩ := Grant.of_mem_rulesAt h
    exact ⟨g, rfl, hr, hmade⟩
  | bring name => exact absurd h List.not_mem_nil
  | fail fault => exact absurd h List.not_mem_nil

theorem Library.of_mem_rulesOf {lib : Library} {name resource action : String} {r : Rule}
    (h : r ∈ lib.rulesOf name resource action) :
    ∃ m ∈ lib.modules, ∃ g, .permit g ∈ m.body ∧ r.IsMadeOf g := by
  unfold rulesOf at h
  split at h
  · rename_i m hm
    obtain ⟨st, hst, hr⟩ := List.mem_flatMap.1 h
    obtain ⟨g, rfl, -, hmade⟩ := Statement.resource_of_mem_rulesAt hr
    exact ⟨m, List.mem_of_find?_eq_some hm, g, hst, hmade⟩
  · exact absurd h List.not_mem_nil

theorem Library.DeclaresOwn.name_eq {lib : Library} {package : String} (h : lib.DeclaresOwn package)
    {m : RuleModule} (hm : m ∈ lib.modules) {st : Statement} (hst : st ∈ m.body)
    {resource action : String} (hne : st.rulesAt resource action ≠ []) :
    m.name = package ++ "." ++ resource := by
  obtain ⟨r, hr⟩ := List.exists_mem_of_ne_nil _ hne
  obtain ⟨g, rfl, hresource, -⟩ := Statement.resource_of_mem_rulesAt hr
  exact h m hm g hst resource hresource

/-! ## 2. Steps -/

/-- The rules that come with the imports between two states. -/
def World.gained (w after : World) (package resource action : String) : List Rule :=
  if package ++ "." ++ resource ∉ w.library.imported ∧
      package ++ "." ++ resource ∈ after.library.imported then
    w.library.rulesOf (package ++ "." ++ resource) resource action
  else []

/-- Between two states, modules have been imported, and the registry under a number has got the rules of
these and before them some rules besides. -/
structure World.Adds (i : Nat) (package : String) (besides : String → String → List Rule)
    (w after : World) : Prop where
  modules : after.library.modules = w.library.modules
  home : after.home = w.home
  count : after.registries.length = w.registries.length
  imported : w.library.imported ⊆ after.library.imported
  contents : ∀ resource action, (after.registry i).contents resource action =
    (w.registry i).contents resource action ++ besides resource action ++
      w.gained after package resource action

/-- Between two states, the registry has got the rules of the modules imported, and no others. -/
abbrev World.Grows (i : Nat) (package : String) (w after : World) : Prop :=
  World.Adds i package (fun _ _ => []) w after

namespace World

variable {i : Nat} {package : String} {besides more : String → String → List Rule}
  {w mid after : World}

theorem gained_of_imported {resource : String}
    (h : package ++ "." ++ resource ∈ w.library.imported) (action : String) :
    w.gained after package resource action = [] := by
  unfold gained
  rw [if_neg (fun hnew => hnew.1 h)]

theorem gained_of_new {resource : String} (h : package ++ "." ++ resource ∉ w.library.imported)
    (h' : package ++ "." ++ resource ∈ after.library.imported) (action : String) :
    w.gained after package resource action =
      w.library.rulesOf (package ++ "." ++ resource) resource action := by
  unfold gained
  rw [if_pos ⟨h, h'⟩]

theorem gained_self (w : World) (package resource action : String) :
    w.gained w package resource action = [] := by
  unfold gained
  rw [if_neg (fun h => h.1 h.2)]

/-- Rules are gained at most once on the way. -/
theorem gained_trans (package : String) (hmodules : mid.library.modules = w.library.modules)
    (hfirst : w.library.imported ⊆ mid.library.imported)
    (hsecond : mid.library.imported ⊆ after.library.imported) (resource action : String) :
    w.gained mid package resource action ++ mid.gained after package resource action =
      w.gained after package resource action := by
  unfold gained Library.rulesOf
  rw [hmodules]
  -- Its module was there before, came on the first part of the way, or on the second, or not at all.
  by_cases hw : package ++ "." ++ resource ∈ w.library.imported
  · simp [hw, hfirst hw]
  · by_cases hmid : package ++ "." ++ resource ∈ mid.library.imported
    · simp [hw, hmid, hsecond hmid]
    · simp [hw, hmid]

theorem grows_refl (w : World) : Grows i package w w where
  modules := rfl
  home := rfl
  count := rfl
  imported := List.Subset.refl _
  contents resource action := by simp [gained_self]

/-- Where something is added besides, nothing is gained: its module is running already. -/
theorem adds_trans (h : Adds i package besides w mid) (h' : Adds i package more mid after)
    (hown : ∀ resource action, more resource action ≠ [] →
      package ++ "." ++ resource ∈ w.library.imported) :
    Adds i package (fun resource action => besides resource action ++ more resource action)
      w after where
  modules := h'.modules.trans h.modules
  home := h'.home.trans h.home
  count := h'.count.trans h.count
  imported := List.Subset.trans h.imported h'.imported
  contents resource action := by
    have htwice := gained_trans package h.modules h.imported h'.imported resource action
    -- Of what is gained first and what is added then, one is nothing, so they may change places.
    have hswap : w.gained mid package resource action ++ more resource action =
        more resource action ++ w.gained mid package resource action := by
      by_cases hmore : more resource action = []
      · rw [hmore, List.append_nil, List.nil_append]
      · have hnone : w.gained mid package resource action = [] := by
          unfold gained
          rw [if_neg (fun hgained => hgained.1 (hown resource action hmore))]
        rw [hnone, List.append_nil, List.nil_append]
    calc (after.registry i).contents resource action
        = (w.registry i).contents resource action ++ besides resource action ++
            (w.gained mid package resource action ++ more resource action) ++
            mid.gained after package resource action := by
          rw [h'.contents, h.contents]
          simp only [List.append_assoc]
      _ = (w.registry i).contents resource action ++
            (besides resource action ++ more resource action) ++
            (w.gained mid package resource action ++
              mid.gained after package resource action) := by
          rw [hswap]
          simp only [List.append_assoc]
      _ = _ := by rw [htwice]

theorem grows_trans (h : Grows i package w mid) (h' : Grows i package mid after) :
    Grows i package w after :=
  adds_trans h h' fun _ _ hne => absurd rfl hne

end World

/-! ## 3. Each loop of an import grows the registry -/

/-- Modules declare in the registry under a number, each on its own resource. -/
structure World.Serves (i : Nat) (package : String) (w : World) : Prop where
  home : w.home = some i
  count : i < w.registries.length
  own : w.library.DeclaresOwn package

section

variable {i : Nat} {package : String} {w after : World}

theorem World.Serves.of_adds {besides : String → String → List Rule} (hw : w.Serves i package)
    (h : w.Adds i package besides after) : after.Serves i package where
  home := h.home.trans hw.home
  count := h.count ▸ hw.count
  own := by
    unfold Library.DeclaresOwn
    rw [h.modules]
    exact hw.own

theorem Run.adds_permit {g : Grant Condition} (hw : w.Serves i package)
    (h : (discard (Run.permit i g) : Run Unit) w = (.ok (), after)) :
    w.Adds i package g.rulesAt after := by
  rw [Run.discard_run] at h
  cases hp : (w.registry i).permit w.nextRule g with
  | error f =>
    rw [Run.permit_of_error hp] at h
    cases h
  | ok out =>
    obtain ⟨reg, rules⟩ := out
    rw [Run.permit_of_ok hp] at h
    cases h
    refine ⟨rfl, rfl, by simp [World.setRegistry], List.Subset.refl _, fun resource action => ?_⟩
    have hnone : w.gained { w.setRegistry i reg with nextRule := w.nextRule + rules.length }
        package resource action = [] := World.gained_self w package resource action
    rw [hnone, List.append_nil]
    change ((w.setRegistry i reg).registry i).contents resource action = _
    rw [World.registry_setRegistry_self reg hw.count]
    exact Registry.contents_permit hp resource action

variable {bring : String → Run Unit}
  (hbring : ∀ name w after, World.Serves i package w → bring name w = (.ok (), after) →
    w.Grows i package after)

include hbring

theorem Statement.adds_run {st : Statement} (hw : w.Serves i package)
    (h : st.run bring w = (.ok (), after)) : w.Adds i package st.rulesAt after := by
  cases st with
  | permit g =>
    change (Run.home >>= fun j => discard (Run.permit j g)) w = _ at h
    rw [Run.bind_of_ok (Run.home_of_some hw.home)] at h
    exact Run.adds_permit hw h
  | bring name => exact hbring name w after hw h
  | fail fault => cases h

/-- A module that is running adds its own rules one after the other, and starts others in between. -/
theorem Statement.adds_runAll {body : List Statement} (hw : w.Serves i package)
    (hown : ∀ st ∈ body, ∀ resource action, st.rulesAt resource action ≠ [] →
      package ++ "." ++ resource ∈ w.library.imported)
    (h : runAll bring body w = (.ok (), after)) :
    w.Adds i package (fun resource action => body.flatMap fun st => st.rulesAt resource action)
      after := by
  -- Induction on what is left of the body. Its own rules come in order; what others gain in between is
  -- behind them, for it is on other resources.
  induction body generalizing w with
  | nil =>
    cases h
    exact World.grows_refl _
  | cons st rest ih =>
    obtain ⟨⟨⟩, mid, hst, hrest⟩ := Run.bind_eq_ok_iff.1 h
    have hfirst := adds_run hbring hw hst
    have hthen := ih (hw.of_adds hfirst) (fun st' hst' resource action hne =>
      hfirst.imported (hown st' (List.mem_cons_of_mem st hst') resource action hne)) hrest
    refine World.adds_trans hfirst hthen fun resource action hne => ?_
    obtain ⟨r, hr⟩ := List.exists_mem_of_ne_nil _ hne
    obtain ⟨st', hst', hr⟩ := List.mem_flatMap.1 hr
    exact hown st' (List.mem_cons_of_mem st hst') resource action (List.ne_nil_of_mem hr)

end

namespace Library

variable {i : Nat} {package : String} {w after : World} {bring : String → Run Unit}

theorem find?_of_find {lib : Library} {name : String} {m : RuleModule} (h : lib.find name = .ok m) :
    lib.modules.find? (fun m => m.name == name) = some m := by
  unfold find at h
  dsimp only at h
  split at h
  · split at h
    · split at h
      · cases h
        assumption
      · cases h
    · cases h
  · split at h
    · cases h
      assumption
    · cases h

theorem bringOne_of_imported {name : String} (h : name ∈ w.library.imported) :
    bringOne bring name w = (.ok (), w) := by
  unfold bringOne
  rw [Run.bind_of_ok (Run.read_run _ w), if_pos (by simpa using h)]
  rfl

theorem bringOne_of_missing {name : String} {f : Fault} (h : name ∉ w.library.imported)
    (hfind : w.library.find name = .error f) : bringOne bring name w = (.error f, w) := by
  unfold bringOne
  rw [Run.bind_of_ok (Run.read_run _ w), if_neg (by simpa using h), hfind]
  exact Run.bind_of_error (Run.ofExcept_run _ w)

theorem bringOne_of_body {name : String} {m : RuleModule} (h : name ∉ w.library.imported)
    (hfind : w.library.find name = .ok m)
    (hbody : Statement.runAll bring m.body { w with library := w.library.start name } = (.ok (), after)) :
    bringOne bring name w = (.ok (), after) := by
  unfold bringOne
  rw [Run.bind_of_ok (Run.read_run _ w), if_neg (by simpa using h), hfind,
    Run.bind_of_ok (Run.ofExcept_run _ w), Run.bind_of_ok (Run.change_run _ w), Run.tryCatch_run, hbody]

/-- What a module's import comes to if it ends well: nothing if it was there, else a run of its body. -/
theorem of_bringOne {name : String} (h : bringOne bring name w = (.ok (), after)) :
    name ∈ w.library.imported ∧ after = w ∨
      name ∉ w.library.imported ∧ ∃ m, w.library.find name = .ok m ∧
        Statement.runAll bring m.body { w with library := w.library.start name } =
          (.ok (), after) := by
  unfold bringOne at h
  rw [Run.bind_of_ok (Run.read_run _ w)] at h
  -- A module that is there is left alone, also while it is running.
  by_cases hname : name ∈ w.library.imported
  · rw [if_pos (by simpa using hname)] at h
    cases h
    exact .inl ⟨hname, rfl⟩
  · rw [if_neg (by simpa using hname)] at h
    obtain ⟨m, mid, hfind, h⟩ := Run.bind_eq_ok_iff.1 h
    rw [Run.ofExcept_run, Prod.mk.injEq] at hfind
    obtain ⟨hfind, rfl⟩ := hfind
    rw [Run.bind_of_ok (Run.change_run _ w), Run.tryCatch_run] at h
    refine .inr ⟨hname, m, hfind, ?_⟩
    cases hrun : Statement.runAll bring m.body { w with library := w.library.start name } with
    | mk result last =>
      rw [hrun] at h
      cases result with
      | error f => cases h
      | ok u => exact h

variable (hbring : ∀ name w after, World.Serves i package w → bring name w = (.ok (), after) →
  w.Grows i package after)

include hbring

theorem grows_bringOne {name : String} (hw : w.Serves i package)
    (h : bringOne bring name w = (.ok (), after)) :
    w.Grows i package after ∧ name ∈ after.library.imported := by
  obtain ⟨hname, rfl⟩ | ⟨hname, m, hfind, hrun⟩ := of_bringOne h
  · exact ⟨World.grows_refl _, hname⟩
  · have hfirst := find?_of_find hfind
    have hm : m ∈ w.library.modules := List.mem_of_find?_eq_some hfirst
    have hmname : m.name = name := by simpa using List.find?_some hfirst
    have hown : ∀ st ∈ m.body, ∀ resource action, st.rulesAt resource action ≠ [] →
        package ++ "." ++ resource = name := fun st hst resource action hne =>
      (hw.own.name_eq hm hst hne).symm.trans hmname
    -- From its start the module counts as imported, so nothing it brings runs it again.
    have hstart : World.Serves i package { w with library := w.library.start name } :=
      ⟨hw.home, hw.count, hw.own⟩
    have hbody := Statement.adds_runAll hbring hstart (fun st hst resource action hne =>
      hown st hst resource action hne ▸ List.mem_cons_self) hrun
    have hname' : name ∈ after.library.imported := hbody.imported List.mem_cons_self
    refine ⟨⟨hbody.modules, hbody.home, hbody.count,
      fun n hn => hbody.imported (List.mem_cons_of_mem name hn), fun resource action => ?_⟩, hname'⟩
    rw [hbody.contents, List.append_nil, List.append_assoc]
    congr 1
    -- On its own resource all that comes is what its body declares; on others its body declares nothing.
    by_cases hresource : package ++ "." ++ resource = name
    · have hstarted : package ++ "." ++ resource ∈ (w.library.start name).imported :=
        hresource ▸ List.mem_cons_self
      rw [World.gained_of_imported hstarted, World.gained_of_new (hresource ▸ hname)
        (hresource ▸ hname'), List.append_nil, hresource]
      unfold rulesOf
      rw [hfirst]
    · have hnone : (m.body.flatMap fun st => st.rulesAt resource action) = [] := by
        rw [List.flatMap_eq_nil_iff]
        intro st hst
        by_contra hne
        exact hresource (hown st hst resource action hne)
      rw [hnone, List.nil_append]
      unfold World.gained
      refine if_congr (and_congr_left fun _ => not_congr ?_) rfl rfl
      exact List.mem_cons.trans (or_iff_right hresource)

theorem grows_bringEach {names : List String} (hw : w.Serves i package)
    (h : bringEach bring names w = (.ok (), after)) :
    w.Grows i package after ∧ ∀ name ∈ names, name ∈ after.library.imported := by
  induction names generalizing w with
  | nil =>
    cases h
    exact ⟨World.grows_refl _, fun name hname => absurd hname List.not_mem_nil⟩
  | cons name rest ih =>
    obtain ⟨⟨⟩, mid, hone, hrest⟩ := Run.bind_eq_ok_iff.1 h
    obtain ⟨hfirst, hname⟩ := grows_bringOne hbring hw hone
    obtain ⟨hthen, hnames⟩ := ih (hw.of_adds hfirst) hrest
    refine ⟨World.grows_trans hfirst hthen, fun n hn => ?_⟩
    rcases List.mem_cons.1 hn with rfl | hn
    · exact hthen.imported hname
    · exact hnames n hn

end Library

namespace Library

variable {i : Nat} {package : String} {w after : World}

theorem of_bringAt {depth : Nat} {name : String}
    (h : bringAt (depth + 1) name w = (.ok (), after)) :
    name ≠ "" ∧ name.toList.head? ≠ some '.' ∧
      (w.library.pending name).length ≤ packageLimit ∧
      bringEach (bringAt depth) (w.library.pending name) w = (.ok (), after) := by
  rw [bringAt_succ] at h
  split at h
  · cases h
  · rename_i hempty
    split at h
    · cases h
    · rename_i hdot
      rw [Run.bind_of_ok (Run.read_run _ w)] at h
      split at h
      · cases h
      · rename_i hlimit
        exact ⟨hempty, hdot, by omega, h⟩

theorem of_bring {name : String} (h : bring name w = (.ok (), after)) :
    name ≠ "" ∧ name.toList.head? ≠ some '.' ∧
      (w.library.pending name).length ≤ packageLimit ∧
      bringEach (bringAt (depthLimit - 1)) (w.library.pending name) w = (.ok (), after) :=
  of_bringAt h

theorem grows_bringAt (depth : Nat) {name : String} (hw : w.Serves i package)
    (h : bringAt depth name w = (.ok (), after)) :
    w.Grows i package after ∧ name ∈ after.library.imported := by
  induction depth generalizing name w after with
  | zero => cases h
  | succ depth ih =>
    obtain ⟨-, -, -, heach⟩ := of_bringAt h
    obtain ⟨hgrows, hnames⟩ :=
      grows_bringEach (fun name w after hw h => (ih hw h).1) hw heach
    refine ⟨hgrows, ?_⟩
    -- A name that is not there yet is the last of those that are pending.
    by_cases hname : name ∈ w.library.imported
    · exact hgrows.imported hname
    · obtain ⟨above, habove⟩ := pending_of_not_imported hname
      exact hnames name (habove ▸ List.mem_append_right above List.mem_cons_self)

/-- Imports that end well import what they name, and add the rules of what they import and of nothing
else. -/
theorem grows_importAll {order : List String} (hw : w.Serves i package)
    (h : importAll order w = (.ok (), after)) :
    w.Grows i package after ∧ ∀ name ∈ order, name ∈ after.library.imported := by
  induction order generalizing w with
  | nil =>
    cases h
    exact ⟨World.grows_refl _, fun name hname => absurd hname List.not_mem_nil⟩
  | cons name rest ih =>
    obtain ⟨⟨⟩, mid, hone, hrest⟩ := Run.bind_eq_ok_iff.1 h
    obtain ⟨hfirst, hname⟩ := grows_bringAt depthLimit hw hone
    obtain ⟨hthen, hnames⟩ := ih (hw.of_adds hfirst) hrest
    refine ⟨World.grows_trans hfirst hthen, fun n hn => ?_⟩
    rcases List.mem_cons.1 hn with rfl | hn
    · exact hthen.imported hname
    · exact hnames n hn

end Library

end Gatehouse
