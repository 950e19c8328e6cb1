import Gatehouse.Proofs.Loading.Records

/-!
# Calm — loading where no module fails

A module that is not there ends the loading of a resource in a fault, and the packages above it have been imported by
then. As long as no module fails this is the only way in which something comes of a loading that does not end well, so
that in any case all modules that were started have run to their end, and their rules are recorded.
-/

namespace Gatehouse

variable {lib : Library} {package : String} {i : Nat} {w mid after : World}

/-! ## 1. Imports where no module fails -/

/-- A state in which no module can fail and the registry takes declarations. -/
structure World.IsCalm (w : World) (lib : Library) (package : String) (i : Nat) : Prop where
  isOpen : w.IsOpen lib i
  served : w.IsServed lib package
  quiet : w.ImportsQuietly

/-- From one calm state to another, by nothing but modules that are run to their end. -/
structure World.Advances (lib : Library) (package : String) (i : Nat) (w after : World) : Prop where
  calm : after.IsCalm lib package i
  records : ∃ names, w.Records i names (fun _ _ => []) after

namespace World

theorem advances_refl (hw : w.IsCalm lib package i) : Advances lib package i w w :=
  ⟨hw, [], records_refl i w⟩

theorem advances_trans (h : Advances lib package i w mid) (h' : Advances lib package i mid after) :
    Advances lib package i w after := by
  obtain ⟨names, hnames⟩ := h.records
  obtain ⟨more, hmore⟩ := h'.records
  exact ⟨h'.calm, names ++ more, records_trans hnames hmore⟩

end World

open World (Advances advances_refl advances_trans)

namespace Library

/-- A name whose packages have been imported is imported itself, or there is no module of this name. -/
theorem advances_bringOne {name : String} (hw : w.IsCalm lib package i)
    (hname : name ∉ w.library.imported → w.library.pending name = [name]) :
    (∃ f, bringOne (bringAt (depthLimit - 1)) name w = (.error f, w)) ∨
      ∃ after, bringOne (bringAt (depthLimit - 1)) name w = (.ok (), after) ∧
        Advances lib package i w after ∧ name ∈ after.library.imported := by
  by_cases himported : name ∈ w.library.imported
  · exact .inr ⟨w, bringOne_of_imported himported, advances_refl hw, himported⟩
  by_cases hhas : w.library.Has name
  · obtain ⟨after, hbring, hquiet⟩ := hw.quiet.bring hw.isOpen hhas
    obtain ⟨hopen, hrecords⟩ := (registers_bringAt depthLimit name).records hw.isOpen hbring
    have hserved := (completes_bringAt depthLimit name w hw.served).1
    rw [show bringAt depthLimit name w = (.ok (), after) from hbring] at hserved
    obtain ⟨-, -, -, heach⟩ := of_bring hbring
    -- Nothing but the module itself is pending, so its import is the import of this one name.
    rw [hname himported] at heach
    change (bringOne _ _ >>= fun _ => pure ()) w = _ at heach
    rw [bind_pure_unit] at heach
    exact .inr ⟨after, heach, ⟨⟨hopen, hserved, hquiet⟩, hrecords⟩, imported_of_bringOne hw.isOpen heach⟩
  · obtain ⟨message, hfind⟩ := find_of_not_has hhas
    exact .inl ⟨_, bringOne_of_missing himported hfind⟩

/-- What is left of the chain of a name is imported down to the first name that there is no module of. -/
theorem advances_bringEach {name : String} {above names : List String} (hw : w.IsCalm lib package i)
    (hchain : chainOf name = above ++ names) (habove : ∀ n ∈ above.getLast?, n ∈ w.library.imported) :
    Advances lib package i w (bringEach (bringAt (depthLimit - 1)) names w).2 := by
  -- Induction on what is left: everything above it has been imported by now.
  induction names generalizing above w with
  | nil => exact advances_refl hw
  | cons n rest ih =>
    obtain ⟨f, hone⟩ | ⟨after, hone, hadvances, himported⟩ :=
      advances_bringOne hw (pending_of_above hchain habove)
    · rw [bringEach, Run.bind_of_error hone]
      exact advances_refl hw
    · have hnext : chainOf name = (above ++ [n]) ++ rest := by
        rw [hchain, List.append_assoc, List.singleton_append]
      rw [bringEach, Run.bind_of_ok hone]
      exact advances_trans hadvances (ih hadvances.calm hnext (by simpa using himported))

theorem advances_bring (hw : w.IsCalm lib package i) (name : String) :
    Advances lib package i w (bring name w).2 := by
  change Advances lib package i w (bringAt (depthLimit - 1 + 1) name w).2
  rw [bringAt_succ]
  split
  · exact advances_refl hw
  split
  · exact advances_refl hw
  rw [Run.bind_of_ok (Run.read_run _ w)]
  split
  · exact advances_refl hw
  · obtain ⟨above, hchain, habove⟩ := chainOf_eq_append_pending w.library name
    exact advances_bringEach hw hchain habove

end Library

/-! ## 2. Loading -/

namespace World

theorem IsCalm.of_library (hw : w.IsCalm lib package i) (hopen : after.IsOpen lib i)
    (hserved : after.IsServed lib package) (hlibrary : after.library = w.library) : after.IsCalm lib package i :=
  ⟨hopen, hserved, hw.quiet.of_library hw.isOpen hopen hlibrary⟩

/-- Two states between which nothing has happened to registries and modules. -/
structure IsBeside (w after : World) : Prop where
  library : after.library = w.library
  registries : after.registries = w.registries
  home : after.home = w.home
  nextRule : after.nextRule = w.nextRule

theorem IsBeside.isOpen (h : w.IsBeside after) (hw : w.IsOpen lib i) : after.IsOpen lib i where
  modules := h.library ▸ hw.modules
  home := h.home ▸ hw.home
  count := h.registries ▸ hw.count
  unfrozen := (registry_congr h.registries i).symm ▸ hw.unfrozen

theorem advances_of_isBeside (hw : w.IsCalm lib package i) (h : w.IsBeside after)
    (hserved : after.IsServed lib package) : Advances lib package i w after where
  calm := hw.of_library (h.isOpen hw.isOpen) hserved h.library
  records := by
    refine ⟨[], records_of_library (.single (.aside h.registries h.nextRule)) h.library ?_⟩
    intro resource action
    rw [registry_congr h.registries, List.append_nil]

end World

namespace Loader

theorem advances_bringResource (hw : w.IsCalm lib package i) (name : String) (resource : Value) :
    Advances lib package i w (bringResource name resource w).2 := by
  unfold bringResource
  cases moduleName name resource with
  | error f => exact advances_refl hw
  | ok moduleName =>
    rw [Run.bind_of_ok (Run.ofExcept_run _ w), Run.tryCatch_run]
    have hadvances := Library.advances_bring hw moduleName
    cases hrun : Library.bring moduleName w with
    | mk result mid =>
      rw [hrun] at hadvances
      cases result with
      | ok u => exact hadvances
      | error f =>
        -- A fault that is kept quiet and one that is passed on leave the same behind.
        dsimp only
        split
        · exact hadvances
        · exact hadvances

theorem advances_ensure (hw : w.IsCalm lib package i) (j : Nat) (resource : Value) :
    Advances lib package i w (ensure j resource w).2 := by
  unfold ensure
  rw [Run.bind_of_ok (Run.read_run _ w)]
  cases hj : w.loaders[j]? with
  | none => exact advances_refl hw
  | some loader =>
    obtain ⟨seen, rfl⟩ := hw.served.loaders loader (List.mem_of_getElem? hj)
    dsimp only
    cases resource.isKey with
    | false => exact advances_refl hw
    | true =>
      cases isAmong resource seen with
      | true => exact advances_refl hw
      | false =>
        have hadvances := advances_bringResource hw package resource
        show Advances lib package i w ((bringResource package resource >>= fun _ => Run.change _) w).2
        rw [Run.bind_run]
        cases hrun : bringResource package resource w with
        | mk result mid =>
          rw [hrun] at hadvances
          cases result with
          | error f => exact hadvances
          | ok u =>
            apply advances_trans hadvances
            exact World.advances_of_isBeside hadvances.calm ⟨rfl, rfl, rfl, rfl⟩
              (hadvances.calm.served.markSeen j resource)

end Loader

end Gatehouse
