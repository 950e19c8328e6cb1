import Gatehouse.Proofs.Deciding.Walk
import Gatehouse.Proofs.Loading.Growth

/-!
# Later — the states that loading on demand goes through

Whatever is asked of an engine with a loader, its registries and its library are those that some list of
imports leaves behind, one after the other from the start; the list only depends on what was asked. With
each resource that the loader is done with, either its module has been imported or there is none.
-/

namespace Gatehouse

/-! ## 1. Trees of modules -/

namespace Library

def Has (lib : Library) (name : String) : Prop := ∃ m ∈ lib.modules, m.name = name

theorem has_congr {lib lib' : Library} (h : lib'.modules = lib.modules) (name : String) :
    lib'.Has name ↔ lib.Has name := by
  unfold Has
  rw [h]

theorem find?_of_not_has {lib : Library} {name : String} (h : ¬ lib.Has name) :
    lib.modules.find? (fun m => m.name == name) = none := by
  rw [List.find?_eq_none]
  intro m hm heq
  exact h ⟨m, hm, beq_iff_eq.1 heq⟩

/-- Rule modules under a package: the package is among them, and is not too deep to have modules below
it; every module declares only on its own resource, under conditions that look at nothing but what they
are asked about. -/
structure IsTree (lib : Library) (package : String) : Prop where
  rooted : lib.Has package
  shallow : (chainOf package).length < packageLimit
  own : lib.DeclaresOwn package
  plain : ∀ m ∈ lib.modules, ∀ g, .permit g ∈ m.body → ∀ c, g.guard = .callable c → c.IsPlain

theorem IsTree.isPlain_of_mem_rulesOf {lib : Library} {package name resource action : String}
    {r : Rule} (h : lib.IsTree package) (hr : r ∈ lib.rulesOf name resource action) : r.IsPlain := by
  obtain ⟨m, hm, g, hg, hmade⟩ := of_mem_rulesOf hr
  intro c hc
  exact h.plain m hm g hg c (Rule.guard_of_condition hmade hc)

end Library

/-- No statement of a module fails, in whichever order modules are imported. -/
def World.ImportsQuietly (w : World) : Prop :=
  ∀ order, (∀ name ∈ order, w.library.Has name) →
    ∃ after, Library.importAll order w = (.ok (), after)

/-! ## 2. Modules that are not there -/

namespace Library

variable {w mid : World} {package s : String}

theorem find_of_not_has {lib : Library} {name : String} (h : ¬ lib.Has name) :
    ∃ message, lib.find name = .error (.noModule (some name) message) := by
  unfold find
  rw [find?_of_not_has h]
  split
  · split
    · exact ⟨_, rfl⟩
    · exact ⟨_, rfl⟩
  · exact ⟨_, rfl⟩

theorem bringEach_append (bring : String → Run Unit) (names more : List String) :
    bringEach bring (names ++ more) = (do bringEach bring names; bringEach bring more) := by
  induction names with
  | nil => rfl
  | cons name rest ih => rw [List.cons_append, bringEach, ih, bringEach, bind_assoc]

theorem child_ne_empty (package s : String) : package ++ "." ++ s ≠ "" := by
  intro h
  have hlist := congrArg String.toList h
  simp [String.toList_append] at hlist

theorem head?_child {package s : String} (hne : package ≠ "") :
    (package ++ "." ++ s).toList.head? = package.toList.head? := by
  rw [String.toList_append, String.toList_append]
  cases hp : package.toList with
  | nil => exact absurd (String.toList_inj.1 hp) hne
  | cons c rest => rfl

/-- Importing what is there already does nothing. -/
theorem bring_of_imported {name : String} (hempty : name ≠ "") (hdot : name.toList.head? ≠ some '.')
    (h : name ∈ w.library.imported) : bring name w = (.ok (), w) := by
  change bringAt (depthLimit - 1 + 1) name w = _
  rw [bringAt_succ, if_neg hempty, if_neg hdot, Run.bind_of_ok (Run.read_run _ w),
    pending_of_imported h, if_neg (by simp)]
  rfl

/-- Importing a module that is not there imports its package, and then finds out. -/
theorem bring_of_not_has (hpackage : bring package w = (.ok (), mid))
    (hshallow : (chainOf package).length < packageLimit) (hs : '.' ∉ s.toList)
    (hw : package ++ "." ++ s ∉ w.library.imported) (habsent : ¬ mid.library.Has (package ++ "." ++ s)) :
    bring (package ++ "." ++ s) w = (.ok (), mid) ∧
        package ++ "." ++ s ∈ mid.library.imported ∨
      ∃ message, bring (package ++ "." ++ s) w =
        (.error (.noModule (some (package ++ "." ++ s)) message), mid) := by
  obtain ⟨hempty, hdot, -, heach⟩ := of_bring hpackage
  have hlength : ((w.library.pending package) ++ [package ++ "." ++ s]).length ≤ packageLimit := by
    have := length_pending_le w.library package
    rw [List.length_append, List.length_singleton]
    omega
  have hdot' : (package ++ "." ++ s).toList.head? ≠ some '.' := head?_child hempty ▸ hdot
  have hone : bring (package ++ "." ++ s) w =
      bringOne (bringAt (depthLimit - 1)) (package ++ "." ++ s) mid := by
    change bringAt (depthLimit - 1 + 1) _ w = _
    rw [bringAt_succ, if_neg (child_ne_empty package s), if_neg hdot',
      Run.bind_of_ok (Run.read_run _ w), pending_child hs hw, if_neg (by omega), bringEach_append,
      Run.bind_of_ok heach]
    change (bringOne _ _ >>= fun _ => pure ()) mid = _
    rw [bind_pure_unit]
  -- What was pending for the package has been imported, and only the module itself is left.
  rw [hone]
  by_cases hmid : package ++ "." ++ s ∈ mid.library.imported
  · exact .inl ⟨bringOne_of_imported hmid, hmid⟩
  · obtain ⟨message, hfind⟩ := find_of_not_has habsent
    exact .inr ⟨message, bringOne_of_missing hmid hfind⟩

end Library

/-! ## 3. Later states -/

/-- There is nothing more to be loaded for a resource. -/
def World.IsSettled (w : World) (package resource : String) : Prop :=
  package ++ "." ++ resource ∈ w.library.imported ∨ ¬ w.library.Has (package ++ "." ++ resource)

/-- A state that loading on demand, through the loader under a number, has come to from a start. -/
structure World.IsLater (start : World) (package : String) (j : Nat) (w : World) : Prop where
  imports : ∃ order base, (∀ name ∈ order, start.library.Has name) ∧
    Library.importAll order start = (.ok (), base) ∧ base.within w = w
  loader : ∃ seen, w.loaders[j]? = some (.package package seen) ∧
    ∀ v ∈ seen, ∀ resource, Value.equals v (.text resource) = true → w.IsSettled package resource

namespace World

variable {start w : World} {package resource : String} {i j : Nat}

theorem isLater_start (h : start.loaders[j]? = some (.package package [])) :
    start.IsLater package j start where
  imports := ⟨[], start, fun _ hn => absurd hn List.not_mem_nil, rfl, rfl⟩
  loader := ⟨[], h, fun _ hv => absurd hv List.not_mem_nil⟩

/-- Imports leave the loaders alone. -/
theorem isLater_importAll {order : List String}
    (h : start.loaders[j]? = some (.package package []))
    (hnames : ∀ name ∈ order, start.library.Has name)
    (hw : Library.importAll order start = (.ok (), w)) : start.IsLater package j w where
  imports := ⟨order, w, hnames, hw, within_self w⟩
  loader := by
    have hlocal := Library.isLocal_importAll order start start
    rw [within_self, hw] at hlocal
    have hwithin : w = w.within start := congrArg Prod.snd hlocal
    refine ⟨[], ?_, fun _ hv => absurd hv List.not_mem_nil⟩
    rw [hwithin, loaders_within]
    exact h

theorem isLater_asking (h : start.IsLater package j w) (questions : List (Value × Value))
    (log : Trace.Log) : start.IsLater package j (w.asking questions log) where
  imports := by
    obtain ⟨order, base, hnames, hbase, hwithin⟩ := h.imports
    exact ⟨order, base, hnames, hbase, congrArg (asking · questions log) hwithin⟩
  loader := h.loader

/-- A registry that later has been loaded for a resource holds what it held at the start, and the rules
of the resource's module, unless the module was there before. -/
theorem contents_of_isLater (hserves : start.Serves i package) (h : start.IsLater package j w)
    (hsettled : w.IsSettled package resource) (action : String) :
    (w.registry i).contents resource action = (start.registry i).contents resource action ++
      if package ++ "." ++ resource ∈ start.library.imported then []
      else start.library.rulesOf (package ++ "." ++ resource) resource action := by
  obtain ⟨order, base, -, hbase, hwithin⟩ := h.imports
  obtain ⟨hgrows, -⟩ := Library.grows_importAll hserves hbase
  have hregistry : w.registry i = base.registry i := by rw [← hwithin, registry_within]
  have hlibrary : w.library = base.library := by rw [← hwithin, library_within]
  rw [hregistry, hgrows.contents, List.append_nil]
  congr 1
  -- Settled means imported by now or not there at all; it may also have been there at the start.
  by_cases hstart : package ++ "." ++ resource ∈ start.library.imported
  · rw [if_pos hstart, gained_of_imported hstart]
  · rw [if_neg hstart]
    unfold IsSettled at hsettled
    rw [hlibrary] at hsettled
    by_cases hbaseImported : package ++ "." ++ resource ∈ base.library.imported
    · rw [gained_of_new hstart hbaseImported]
    · -- There is no such module, and a module that is not there declares nothing.
      have habsent : ¬ start.library.Has (package ++ "." ++ resource) := fun hhas =>
        hsettled.resolve_left hbaseImported ((Library.has_congr hgrows.modules _).2 hhas)
      unfold gained Library.rulesOf
      rw [if_neg (fun hnew => hbaseImported hnew.2), Library.find?_of_not_has habsent]

end World

/-! ## 4. Loading a resource -/

section

variable {start : World} {package resource : String} {i j : Nat} {order : List String} {base : World}

theorem World.ImportsQuietly.next (hquiet : start.ImportsQuietly) (hserves : start.Serves i package)
    (hnames : ∀ name ∈ order, start.library.Has name)
    (hbase : Library.importAll order start = (.ok (), base)) {name : String}
    (hname : start.library.Has name) :
    ∃ after, (∀ n ∈ order ++ [name], start.library.Has n) ∧
      Library.importAll (order ++ [name]) start = (.ok (), after) ∧
      Library.bring name base = (.ok (), after) ∧ base.Grows i package after ∧
      name ∈ after.library.imported := by
  have hnames' : ∀ n ∈ order ++ [name], start.library.Has n := by
    intro n hn
    rcases List.mem_append.1 hn with hn | hn
    · exact hnames n hn
    · rwa [List.mem_singleton.1 hn]
  obtain ⟨after, hafter⟩ := hquiet (order ++ [name]) hnames'
  refine ⟨after, hnames', hafter, ?_⟩
  rw [Library.importAll_append, Run.bind_of_ok hbase] at hafter
  obtain ⟨⟨⟩, mid, hbring, hrest⟩ := Run.bind_eq_ok_iff.1 hafter
  cases hrest
  have hbase' := hserves.of_adds (Library.grows_importAll hserves hbase).1
  exact ⟨hbring, Library.grows_bringAt _ hbase' hbring⟩

namespace Loader

theorem bringResource_eq (package resource : String) : bringResource package (.text resource) =
    tryCatch (Library.bring (package ++ "." ++ resource)) fun fault =>
      if isAbsence package (package ++ "." ++ resource) fault then pure () else throw fault := by
  unfold bringResource moduleName
  rw [Value.written?_text]
  rfl

/-- After what was imported before, the loading of a resource imports its module, or its package only if
there is no such module; it never fails, and nothing is left to be loaded for the resource. -/
theorem bringResource_run (htree : start.library.IsTree package)
    (hserves : start.Serves i package) (hquiet : start.ImportsQuietly)
    (hnames : ∀ name ∈ order, start.library.Has name)
    (hbase : Library.importAll order start = (.ok (), base)) (hresource : '.' ∉ resource.toList) :
    ∃ order' after, (∀ name ∈ order', start.library.Has name) ∧
      Library.importAll order' start = (.ok (), after) ∧
      bringResource package (.text resource) base = (.ok (), after) ∧
      base.Grows i package after ∧ after.IsSettled package resource := by
  rw [bringResource_eq, Run.tryCatch_run]
  -- A module that is there is one more import in the list. For one that is not, its package is.
  by_cases hhas : start.library.Has (package ++ "." ++ resource)
  · obtain ⟨after, hnames', hafter, hbring, hgrows, himported⟩ :=
      hquiet.next hserves hnames hbase hhas
    rw [hbring]
    exact ⟨_, after, hnames', hafter, rfl, hgrows, .inl himported⟩
  · obtain ⟨mid, hnames', hmid, hpackage, hgrows, -⟩ :=
      hquiet.next hserves hnames hbase htree.rooted
    have hmodules := (Library.grows_importAll hserves hmid).1.modules
    have habsent : ¬ mid.library.Has (package ++ "." ++ resource) := fun hmidHas =>
      hhas ((Library.has_congr hmodules _).1 hmidHas)
    obtain ⟨hempty, hdot, -, -⟩ := Library.of_bring hpackage
    by_cases himported : package ++ "." ++ resource ∈ base.library.imported
    · rw [Library.bring_of_imported (Library.child_ne_empty package resource)
        (Library.head?_child hempty ▸ hdot) himported]
      exact ⟨order, base, hnames, hbase, rfl, World.grows_refl base, .inl himported⟩
    · obtain ⟨hbring, hmem⟩ | ⟨message, hbring⟩ :=
        Library.bring_of_not_has hpackage htree.shallow hresource himported habsent
      · rw [hbring]
        exact ⟨_, mid, hnames', hmid, rfl, hgrows, .inl hmem⟩
      -- The fault names the module that was looked for, and that is the one fault which is no failure.
      · have habsence : isAbsence package (package ++ "." ++ resource)
            (.noModule (some (package ++ "." ++ resource)) message) = true := by
          simp [isAbsence]
        rw [hbring]
        refine ⟨_, mid, hnames', hmid, ?_, hgrows, .inr habsent⟩
        change (if isAbsence _ _ _ = true then _ else _ : Run Unit) mid = _
        rw [if_pos habsence]
        rfl

theorem isLocal_bringResource (package : String) (resource : Value) :
    (bringResource package resource).IsLocal := by
  unfold bringResource
  refine Run.isLocal_bind (Run.isLocal_ofExcept _) fun name => ?_
  refine Run.isLocal_tryCatch (Library.isLocal_bringAt _ name) fun fault => ?_
  split
  · exact Run.isLocal_pure ()
  · exact Run.isLocal_throw fault

theorem ensure_of_package {w : World} {seen : List Value}
    (hloader : w.loaders[j]? = some (.package package seen)) :
    ensure j (.text resource) w =
      if isAmong (.text resource) seen then (.ok (), w)
      else (do
        bringResource package (.text resource)
        Run.change fun w => { w with loaders := w.loaders.modify j fun
          | .package name seen => .package name (.text resource :: seen)
          | loader => loader } : Run Unit) w := by
  have hkey : Value.isKey (.text resource) = true := by simp [Value.isKey]
  unfold ensure
  rw [Run.bind_of_ok (Run.read_run _ w), hloader]
  simp only [hkey, Bool.not_true, Bool.false_eq_true, if_false]
  by_cases hseen : isAmong (.text resource) seen = true
  · exact (congrFun (if_pos hseen) w).trans (if_pos hseen).symm
  · exact (congrFun (if_neg hseen) w).trans (if_neg hseen).symm

theorem isSettled_of_grows {w after : World} {resource : String} (h : w.IsSettled package resource)
    (hgrows : w.Grows i package after) : after.IsSettled package resource := by
  rcases h with h | h
  · exact .inl (hgrows.imported h)
  · exact .inr fun hhas => h ((Library.has_congr hgrows.modules _).1 hhas)

/-- Loading leads from later states to later states, and never fails. -/
theorem ensure_run (htree : start.library.IsTree package) (hserves : start.Serves i package)
    (hquiet : start.ImportsQuietly) {w : World} (h : start.IsLater package j w)
    (hresource : '.' ∉ resource.toList) :
    ∃ after, ensure j (.text resource) w = (.ok (), after) ∧ start.IsLater package j after ∧
      after.IsSettled package resource := by
  obtain ⟨seen, hloader, hseen⟩ := h.loader
  rw [ensure_of_package hloader]
  by_cases hamong : isAmong (.text resource) seen = true
  · obtain ⟨v, hv, hequal⟩ := List.any_eq_true.1 hamong
    rw [if_pos hamong]
    exact ⟨w, rfl, h, hseen v hv resource hequal⟩
  · obtain ⟨order, base, hnames, hbase, hwithin⟩ := h.imports
    obtain ⟨order', mid, hnames', hmid, hbring, hgrows, hsettled⟩ :=
      bringResource_run htree hserves hquiet hnames hbase hresource
    -- Questions, log lines and other loaders in between make no difference to imports.
    have hrun : bringResource package (.text resource) w = (.ok (), mid.within w) := by
      have hlocal := isLocal_bringResource package (.text resource) base w
      rwa [hwithin, hbring] at hlocal
    rw [if_neg hamong, Run.bind_of_ok hrun]
    refine ⟨_, rfl, ⟨⟨order', mid, hnames', hmid, rfl⟩, .text resource :: seen, ?_, ?_⟩, hsettled⟩
    -- The resource joins those that the loader is done with, and the others stay settled.
    · change (w.loaders.modify j _)[j]? = _
      rw [List.getElem?_modify_eq, hloader]
      rfl
    · intro v hv s hequal
      change mid.IsSettled package s
      rcases List.mem_cons.1 hv with rfl | hv
      · rw [Value.equals_text_text, beq_iff_eq] at hequal
        exact hequal ▸ hsettled
      · have hbaseSettled : base.IsSettled package s := by
          have hold := hseen v hv s hequal
          rwa [← hwithin] at hold
        exact isSettled_of_grows hbaseSettled hgrows

end Loader

end

end Gatehouse
