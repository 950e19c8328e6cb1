import Gatehouse.Proofs.Deciding.Unlogged
import Gatehouse.Proofs.Naming.Spelling

/-!
# Requests — names on their way to a check

The names of a request stand in a mapping under keys of their own, or come from the host. Which ids a request
has is decided by the keys alone, so that a name in another spelling leaves them as they are, unless its key is
that of an id as well: a key may equal the name of an option and yet be written in another way.
-/

namespace Gatehouse

/-! ## 1. Option mappings -/

theorem Value.equals_text (v : Value) (s : String) : Value.equals v (.text s) = (v.text? == some s) := by
  cases v <;> simp [Value.equals, Value.equalsScalar, Value.text?]

namespace Request

/-- The options that name resources and actions. -/
def nameOptions : List String := ["resource", "controller", "action"]

/-- An entry with a name in another spelling, under a key that is not that of an id, or the same entry. -/
inductive RespellsEntry : Value × Value → Value × Value → Prop where
  | same (e : Value × Value) : RespellsEntry e e
  | name {key v v' : Value} {option : String} (hoption : option ∈ nameOptions) (hkey : key.text? = some option)
      (hplain : Ids.isIdKey key = .ok false) (h : v.Respells v') : RespellsEntry (key, v) (key, v')

/-- The usual keys of names are not those of ids. -/
theorem RespellsEntry.text {option : String} (hoption : option ∈ nameOptions) {v v' : Value} (h : v.Respells v') :
    RespellsEntry (.text option, v) (.text option, v') := by
  have hnone : ∀ s ∈ nameOptions, Ids.isIdName s = false := by decide
  have hplain : Ids.isIdKey (.text option) = .ok false := by
    unfold Ids.isIdKey
    rw [Value.written?_text, ← hnone option hoption]
    rfl
  exact .name hoption rfl hplain h

theorem RespellsEntry.key_eq {e e' : Value × Value} (h : RespellsEntry e e') : e'.1 = e.1 := by
  cases h with
  | same => rfl
  | name => rfl

/-- An option puts an id in its place, if its name is that of an id. -/
def takeId (ids : Ids) (e : Value × Value) : Except Fault Ids := do
  if Value.equals e.1 (.text "ids") then return ids
  if ← Ids.isIdKey e.1 then return ids.putNew (← e.1.written?) e.2 else return ids

theorem idsOfOptions_eq (entries : List (Value × Value)) : idsOfOptions entries = (do
    let explicit ← Ids.coerce (option entries "ids")
    entries.foldlM takeId explicit) := rfl

variable {entries entries' : List (Value × Value)} (h : List.Forall₂ RespellsEntry entries entries')

include h

theorem respells_lookup (key : Value) :
    Option.Rel Value.Respells (Value.lookup key entries) (Value.lookup key entries') := by
  unfold Value.lookup
  induction h with
  | nil => exact .none
  | @cons e e' rest rest' he _ ih =>
    rw [List.find?_cons, List.find?_cons, he.key_eq]
    cases Value.equals e.1 key with
    | false => exact ih
    | true =>
      cases he with
      | same => exact .some (.refl _)
      | name _ _ _ hv => exact .some hv

/-- Options that name nothing stay as they are. -/
theorem lookup_of_not_name {name : String} (hname : name ∉ nameOptions) :
    Value.lookup (.text name) entries' = Value.lookup (.text name) entries := by
  unfold Value.lookup
  induction h with
  | nil => rfl
  | @cons e e' rest rest' he _ ih =>
    rw [List.find?_cons, List.find?_cons, he.key_eq]
    cases hequals : Value.equals e.1 (.text name) with
    | false => exact ih
    | true =>
      cases he with
      | same => rfl
      | name hoption hkey =>
        have hsame : some _ = some name := hkey.symm.trans (beq_iff_eq.1 (Value.equals_text _ name ▸ hequals))
        cases hsame
        exact absurd hoption hname

theorem respells_option (name : String) : (option entries name).Respells (option entries' name) := by
  have hlookup := respells_lookup h (.text name)
  unfold option
  generalize Value.lookup (.text name) entries = found at hlookup
  generalize Value.lookup (.text name) entries' = found' at hlookup
  cases hlookup with
  | none => exact .refl _
  | some hv => exact hv

theorem option_of_not_name {name : String} (hname : name ∉ nameOptions) :
    option entries' name = option entries name := by
  unfold option
  rw [lookup_of_not_name h hname]

omit h in
theorem RespellsEntry.takeId_eq {e e' : Value × Value} (he : RespellsEntry e e') (ids : Ids) :
    takeId ids e' = takeId ids e := by
  cases he with
  | same => rfl
  | name _ _ hplain =>
    -- Nothing is taken from an entry whose key is not that of an id.
    unfold takeId
    rw [hplain]
    rfl

theorem idsOfOptions_respelled : idsOfOptions entries' = idsOfOptions entries := by
  rw [idsOfOptions_eq, idsOfOptions_eq, option_of_not_name h (by decide)]
  cases Ids.coerce (option entries "ids") with
  | error f => rfl
  | ok explicit =>
    show entries'.foldlM takeId explicit = entries.foldlM takeId explicit
    induction h generalizing explicit with
    | nil => rfl
    | cons he _ ih =>
      rw [List.foldlM_cons, List.foldlM_cons, he.takeId_eq]
      exact congrArg _ (funext ih)

end Request

/-! ## 2. Targets -/

/-- A request with its names in another spelling. -/
structure Request.Respells (r r' : Request) : Prop where
  user : r'.user = r.user
  resource : r.resource.Respells r'.resource
  action : r.action.Respells r'.action
  ids : r'.ids = r.ids

theorem Request.Respells.refl (r : Request) : Request.Respells r r := ⟨rfl, .refl _, .refl _, rfl⟩

theorem Request.ofEntries_agrees {entries entries' : List (Value × Value)}
    (h : List.Forall₂ RespellsEntry entries entries') :
    Agree Request.Respells (ofEntries entries) (ofEntries entries') := by
  have hresource := respells_option h "resource"
  have hcontroller := respells_option h "controller"
  have huser : option entries' "user" = option entries "user" := option_of_not_name h (by decide)
  unfold ofEntries
  rw [idsOfOptions_respelled h]
  cases idsOfOptions entries with
  | error f => exact .error (.inl rfl)
  | ok ids =>
    refine .ok ⟨huser, ?_, respells_option h "action", rfl⟩
    -- The other word for a resource counts on both sides, or on none.
    dsimp only
    generalize option entries "resource" = resource at hresource
    generalize option entries' "resource" = resource' at hresource
    split
    · rw [hresource.null_iff.2 rfl]
      exact hcontroller
    · rename_i hgiven
      split
      · exact absurd (hresource.null_iff.1 rfl) hgiven
      · exact hresource

/-- A mapping or a request with its names in another spelling; any other target is the same. -/
inductive Value.RespellsTarget : Value → Value → Prop where
  | same (v : Value) : RespellsTarget v v
  | mapping {entries entries' : List (Value × Value)}
      (h : List.Forall₂ Request.RespellsEntry entries entries') : RespellsTarget (.dict entries) (.dict entries')
  | request {user resource resource' action action' : Value} {ids : List (String × Value)}
      (hresource : resource.Respells resource') (haction : action.Respells action') :
      RespellsTarget (.request user resource action ids) (.request user resource' action' ids)

theorem Value.RespellsTarget.orNoOptions {v v' : Value} (h : v.RespellsTarget v') :
    (Engine.orNoOptions v).RespellsTarget (Engine.orNoOptions v') := by
  cases h with
  | same => exact .same _
  | mapping h => exact .mapping h
  | request hresource haction => exact .request hresource haction

theorem Adapter.normalize_agrees (a : Adapter) {v v' : Value} (h : v.RespellsTarget v') :
    Agree Request.Respells (a.normalize v) (a.normalize v') := by
  cases h with
  | same => exact .same Request.Respells.refl _
  | mapping h => exact Request.ofEntries_agrees h
  | request hresource haction => exact .ok ⟨rfl, hresource, haction, rfl⟩

/-! ## 3. Hosts and checks -/

/-- A host whose current resource is in another spelling. -/
structure Host.Respells (host host' : Host) : Prop where
  user : host'.user = host.user
  resource : Agree Value.Respells host.resource host'.resource
  login : host'.login = host.login

theorem Host.Respells.refl (host : Host) : Host.Respells host host := ⟨rfl, .same Value.Respells.refl _, rfl⟩

namespace Engine

variable {host host' : Option Host} (hhost : Option.Rel Host.Respells host host')

include hhost

theorem isLoggedIn_respelled : isLoggedIn host' = isLoggedIn host := by
  cases hhost with
  | none => rfl
  | some h =>
    unfold isLoggedIn
    rw [Option.bind_some, Option.bind_some, h.login]

theorem userFor_agrees (user : Value) : Agree Eq (userFor user host) (userFor user host') := by
  cases hhost with
  | none => exact .of_eq rfl
  | some h =>
    unfold userFor
    cases user with
    | null => exact .of_eq h.user
    | _ => exact .ok rfl

theorem resourceFor_agrees {resource resource' : Value} (h : resource.Respells resource') :
    Agree Value.Respells (resourceFor resource host) (resourceFor resource' host') := by
  unfold resourceFor
  by_cases hnull : resource = .null
  · rw [hnull, h.null_iff.2 hnull]
    cases hhost with
    | none => exact .error (.inl rfl)
    | some h => exact h.resource
  · have hnull' : resource' ≠ .null := fun hnull' => hnull (h.null_iff.1 hnull')
    split
    · exact absurd rfl hnull
    · exact absurd rfl hnull
    · split
      · exact absurd rfl hnull'
      · exact absurd rfl hnull'
      · exact .ok h

omit hhost in
theorem complete_of_null {r : Request} (hnull : r.action = .null) (host : Option Host) : complete r host = (do
    let _ ← userFor r.user host
    let _ ← resourceFor r.resource host
    throw (.misconfigured .noAction)) := by
  rw [complete_eq, hnull]
  cases userFor r.user host with
  | error f => rfl
  | ok user => cases resourceFor r.resource host <;> rfl

omit hhost in
theorem complete_of_action {r : Request} (haction : r.action ≠ .null) (host : Option Host) :
    complete r host = (do
      let user ← userFor r.user host
      let resource ← resourceFor r.resource host
      let resource ← Name.resource resource
      let action ← Name.action r.action
      return { user, resource, action, ids := r.ids }) := by
  rw [complete_eq]
  generalize r.action = action at haction
  cases action with
  | null => exact absurd rfl haction
  | _ => rfl

/-- A check has the names in their canonical form, so that nothing of their spelling is left in it. -/
theorem complete_agrees {r r' : Request} (hr : Request.Respells r r') :
    Agree Eq (complete r host) (complete r' host') := by
  have huser := userFor_agrees hhost r.user
  have hresource := resourceFor_agrees hhost hr.resource
  by_cases hnull : r.action = .null
  · rw [complete_of_null hnull, complete_of_null (hr.action.null_iff.2 hnull), hr.user]
    apply huser.bind
    intro _ _ _
    apply hresource.bind
    intro _ _ _
    exact .error (.inl rfl)
  · have hnull' : r'.action ≠ .null := fun hnull' => hnull (hr.action.null_iff.1 hnull')
    rw [complete_of_action hnull, complete_of_action hnull', hr.user, hr.ids]
    apply huser.bind
    rintro user _ rfl
    apply hresource.bind
    intro resource resource' hresource
    apply (Name.read_agrees .resource hresource).bind
    rintro name _ rfl
    apply (Name.action_agrees hr.action).bind
    rintro action _ rfl
    exact .ok rfl

theorem splitHost_respelled {entries entries' : List (Value × Value)}
    (h : List.Forall₂ Request.RespellsEntry entries entries') :
    List.Forall₂ Request.RespellsEntry (splitHost entries host).1 (splitHost entries' host').1 ∧
      Option.Rel Host.Respells (splitHost entries host).2 (splitHost entries' host').2 := by
  have hlookup : Value.lookup hostOption entries' = Value.lookup hostOption entries :=
    Request.lookup_of_not_name h (by decide)
  unfold splitHost
  rw [hlookup]
  cases Value.lookup hostOption entries with
  | none => exact ⟨h, hhost⟩
  | some v =>
    constructor
    · apply List.rel_filter _ h
      intro e e' he
      show _ ↔ (!Value.equals e'.1 hostOption) = true
      rw [he.key_eq]
    · show Option.Rel Host.Respells (Host.ofValue v) (Host.ofValue v)
      cases Host.ofValue v with
      | none => exact .none
      | some named => exact .some (.refl named)

/-- What a call is about, with its names in another spelling. -/
theorem subjectOf_agrees {target target' : Value} {options options' : List (Value × Value)}
    (htarget : target.RespellsTarget target')
    (hoptions : List.Forall₂ Request.RespellsEntry (Value.entriesOf options) (Value.entriesOf options')) :
    Agree (fun s s' => Value.RespellsTarget s.1 s'.1 ∧ Option.Rel Host.Respells s.2 s'.2)
      (subjectOf target options host) (subjectOf target' options' host') := by
  obtain ⟨hentries, hnamed⟩ := splitHost_respelled hhost hoptions
  unfold subjectOf
  generalize splitHost (Value.entriesOf options) host = given at hentries hnamed
  generalize splitHost (Value.entriesOf options') host' = given' at hentries hnamed
  obtain ⟨entries, named⟩ := given
  obtain ⟨entries', named'⟩ := given'
  have hempty : entries'.isEmpty = entries.isEmpty := by
    cases hentries with
    | nil => rfl
    | cons => rfl
  dsimp only
  rw [hempty]
  have hother : ∀ {v v' : Value}, v.RespellsTarget v' →
      Agree (fun s s' : Value × Option Host => s.1.RespellsTarget s'.1 ∧ Option.Rel Host.Respells s.2 s'.2)
        (if entries.isEmpty then .ok (v, named) else .error (.misconfigured .targetAndOptions))
        (if entries.isEmpty then .ok (v', named') else .error (.misconfigured .targetAndOptions)) := by
    intro v v' hv
    cases entries.isEmpty with
    | true => exact .ok ⟨hv, hnamed⟩
    | false => exact .error (.inl rfl)
  cases htarget with
  | same =>
    cases target with
    | null => exact .ok ⟨.mapping hentries, hnamed⟩
    | _ => exact hother (.same _)
  | mapping h => exact hother (.mapping h)
  | request hresource haction => exact hother (.request hresource haction)

/-! ## 4. Engines that differ in their hosts -/

/-- The same engine, but that its host has its current resource in another spelling. -/
structure Respells (e e' : Engine) : Prop where
  alone : e' = { e with host := e'.host }
  host : Option.Rel Host.Respells e.host e'.host

variable {e e' : Engine}

theorem Respells.hostFor (he : Respells e e') :
    Option.Rel Host.Respells (e.hostFor host) (e'.hostFor host') := by
  cases hhost with
  | none => exact he.host
  | some h => exact .some h

theorem Respells.buildCheck (he : Respells e e') {target target' : Value} (htarget : target.RespellsTarget target') :
    Agree Eq (e.buildCheck target host) (e'.buildCheck target' host') := by
  have hadapter : e'.adapter = e.adapter := by rw [he.alone]
  unfold Engine.buildCheck
  rw [hadapter]
  apply (e.adapter.normalize_agrees htarget).bind
  intro request request' hrequest
  exact complete_agrees (he.hostFor hhost) hrequest

end Engine

end Gatehouse
