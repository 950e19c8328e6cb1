import Mathlib.Data.List.Induction
import Gatehouse.Proofs.Deciding.Snapshots
import Gatehouse.Proofs.Deciding.Unlogged
import Gatehouse.Proofs.Naming.Identifiers
import Gatehouse.Proofs.Naming.Requests
import Gatehouse.Proofs.Texts

/-!
# Malformed — when deciding on options fails

A denial is an answer and no fault. Whether options can be decided on at all is settled before any rule is
tried: the ids have to be a mapping, keys have to have a text, and the resource and the action have to give
names. Nothing that a decision does after that fails by itself, however little the registry knows.
-/

namespace Gatehouse

/-! ## 1. Values that give names -/

/-- A value that is read as the name of a resource or an action: a text or a member with a text for its value, of
which an identifier is left without blanks and capital letters. -/
def Value.GivesIdentifier (v : Value) : Prop :=
  v.hidesName = false ∧ ∃ s, v.unwrapped.text? = some s ∧ Name.isWellFormed (Name.canonical s).toList = true

namespace Name

variable {v : Value}

theorem exists_of_givesIdentifier (subject : Subject) (h : v.GivesIdentifier) :
    ∃ name, read subject v = .ok name := by
  obtain ⟨hhides, s, htext, hw⟩ := h
  refine ⟨canonical s, ?_⟩
  rw [read_of_not_hidesName hhides, htext]
  exact if_pos hw

/-- What gives no identifier is misconfigured, unless it cannot even be stripped. -/
theorem exists_of_not_givesIdentifier (subject : Subject) (h : ¬ v.GivesIdentifier) :
    ∃ f, read subject v = .error f ∧ (v.hidesName = false → ∃ c, f = .misconfigured c) := by
  cases hhides : v.hidesName with
  | true =>
    refine ⟨.wrongKind, ?_, nofun⟩
    unfold read
    exact if_pos hhides
  | false =>
    rw [read_of_not_hidesName hhides]
    cases htext : v.unwrapped.text? with
    | none => exact ⟨_, rfl, fun _ => ⟨_, rfl⟩⟩
    | some s =>
      have hw : ¬ isWellFormed (canonical s).toList = true := fun hw => h ⟨hhides, s, htext, hw⟩
      exact ⟨_, if_neg hw, fun _ => ⟨_, rfl⟩⟩

/-- An action has a name if it was made by hand or gives an identifier. -/
theorem action_cases (v : Value) :
    ((∃ name, action v = .ok name) ∧ (v.GivesIdentifier ∨ ∃ made, v = .action made)) ∨
      ((¬ v.GivesIdentifier ∧ ¬ ∃ made, v = .action made) ∧
        ∃ f, action v = .error f ∧ (v.hidesName = false → ∃ c, f = .misconfigured c)) := by
  by_cases hmade : ∃ made, v = .action made
  · obtain ⟨made, rfl⟩ := hmade
    exact .inl ⟨⟨made, rfl⟩, .inr ⟨made, rfl⟩⟩
  · rw [action_eq_read (not_exists.1 hmade)]
    by_cases hgives : v.GivesIdentifier
    · exact .inl ⟨exists_of_givesIdentifier .action hgives, .inl hgives⟩
    · exact .inr ⟨⟨hgives, hmade⟩, exists_of_not_givesIdentifier .action hgives⟩

end Name

/-! ## 2. Options -/

namespace Request

open Engine (resourceFor userFor)

/-- The resource that options name, under its own key or under `controller`. -/
def namedResource (entries : List (Value × Value)) : Value :=
  match option entries "resource" with
  | .null => option entries "controller"
  | v => v

/-- Options whose ids are given as a mapping, if they are given. -/
def IdsAreMapping (entries : List (Value × Value)) : Prop :=
  option entries "ids" = .null ∨ ∃ ids, option entries "ids" = .dict ids

/-- Options all of whose keys have a text, those of the ids included. The key of the ids is not asked for one. -/
structure KeysHaveText (entries : List (Value × Value)) : Prop where
  ids : ∀ ids, option entries "ids" = .dict ids → ∀ e ∈ ids, e.1.HasText
  own : ∀ e ∈ entries, Value.equals e.1 (.text "ids") = false → e.1.HasText

/-- Options that do not make a request beside this host. -/
inductive IsMalformed (entries : List (Value × Value)) (host : Option Host) : Prop where
  | ids (hnull : option entries "ids" ≠ .null) (hmapping : ∀ ids, option entries "ids" ≠ .dict ids)
  | noResource (h : namedResource entries = .null) (hhost : host = none)
  | resource {v : Value} (h : resourceFor (namedResource entries) host = .ok v) (hv : ¬ v.GivesIdentifier)
  | noAction (h : option entries "action" = .null)
  | action (h : ¬ (option entries "action").GivesIdentifier)
      (hmade : ∀ name, option entries "action" ≠ .action name)

/-- Options whose resource and action can be stripped to be read as names. -/
structure NamesCanBeStripped (entries : List (Value × Value)) (host : Option Host) : Prop where
  resource : ∀ v, resourceFor (namedResource entries) host = .ok v → v.hidesName = false
  action : (option entries "action").hidesName = false

variable {entries : List (Value × Value)} {host : Option Host}

theorem isMalformed_of_not_idsAreMapping (h : ¬ IdsAreMapping entries) : IsMalformed entries host :=
  .ids (fun hnull => h (.inl hnull)) fun ids hids => h (.inr ⟨ids, hids⟩)

/-- Options with a mapping of ids, if any, and with a resource and an action to read. -/
theorem not_isMalformed {resource : Value} (hids : IdsAreMapping entries)
    (hresource : resourceFor (namedResource entries) host = .ok resource) (hgives : resource.GivesIdentifier)
    (haction : (option entries "action").GivesIdentifier ∨ ∃ made, option entries "action" = .action made) :
    ¬ IsMalformed entries host := by
  intro h
  cases h with
  | ids hnull hmapping => exact hids.elim hnull fun ⟨ids, h⟩ => hmapping ids h
  | noResource h hhost =>
    rw [h, hhost] at hresource
    cases hresource
  | resource h hv =>
    cases h.symm.trans hresource
    exact hv hgives
  | noAction h =>
    rw [h] at haction
    obtain ⟨-, s, hs, -⟩ | ⟨made, hmade⟩ := haction
    · cases hs
    · cases hmade
  | action h hmade => exact haction.elim h fun ⟨made, h⟩ => hmade made h

/-- Going through entries ends at the first one that is no good, and else goes to the end. -/
theorem foldlM_of_good {good : Value × Value → Prop} {step : Ids → Value × Value → Except Fault Ids}
    (hgood : ∀ ids e, good e → ∃ next, step ids e = .ok next)
    (hbad : ∀ ids e, ¬ good e → ∃ d, step ids e = .error (.tooDeep d)) (es : List (Value × Value)) (ids : Ids) :
    ((∀ e ∈ es, good e) ∧ ∃ out, es.foldlM step ids = .ok out) ∨
      ((∃ e ∈ es, ¬ good e) ∧ ∃ d, es.foldlM step ids = .error (.tooDeep d)) := by
  induction es generalizing ids with
  | nil => exact .inl ⟨nofun, ids, rfl⟩
  | cons e rest ih =>
    rw [List.foldlM_cons]
    by_cases he : good e
    · obtain ⟨next, hnext⟩ := hgood ids e he
      rw [bind_of_eq_ok hnext]
      obtain ⟨hrest, hout⟩ | ⟨⟨e', he', hbad'⟩, hout⟩ := ih next
      · exact .inl ⟨List.forall_mem_cons.2 ⟨he, hrest⟩, hout⟩
      · exact .inr ⟨⟨e', List.mem_cons_of_mem e he', hbad'⟩, hout⟩
    · obtain ⟨d, hd⟩ := hbad ids e he
      rw [hd]
      exact .inr ⟨⟨e, List.mem_cons_self, he⟩, d, rfl⟩

/-- What options come to before their names are read. -/
inductive Reads (entries : List (Value × Value)) : Except Fault Request → Prop where
  | notMapping (h : ¬ IdsAreMapping entries) (c : Misconfiguration) : Reads entries (.error (.misconfigured c))
  | unwritten (hids : IdsAreMapping entries) (h : ¬ KeysHaveText entries) (d : Depth) :
      Reads entries (.error (.tooDeep d))
  | request (hids : IdsAreMapping entries) (h : KeysHaveText entries) (ids : Ids) :
      Reads entries (.ok ⟨option entries "user", namedResource entries, option entries "action", ids⟩)

theorem coerce_of_not_idsAreMapping (h : ¬ IdsAreMapping entries) :
    Ids.coerce (option entries "ids") = .error (.misconfigured (.idsNotAMapping (option entries "ids").kind)) := by
  unfold IdsAreMapping at h
  unfold Ids.coerce
  split
  · rename_i hnull
    exact absurd (.inl hnull) h
  · rename_i ids hids
    exact absurd (.inr ⟨ids, hids⟩) h
  · rfl

theorem coerce_of_idsAreMapping (h : IdsAreMapping entries) :
    ((∀ ids, option entries "ids" = .dict ids → ∀ e ∈ ids, e.1.HasText) ∧
        ∃ out, Ids.coerce (option entries "ids") = .ok out) ∨
      ((∃ ids, option entries "ids" = .dict ids ∧ ∃ e ∈ ids, ¬ e.1.HasText) ∧
        ∃ d, Ids.coerce (option entries "ids") = .error (.tooDeep d)) := by
  obtain hnull | ⟨ids, hids⟩ := h
  · rw [hnull]
    exact .inl ⟨nofun, [], rfl⟩
  · rw [hids]
    have hgood : ∀ (out : Ids) (e : Value × Value), e.1.HasText →
        ∃ next, (return out.put (← e.1.written?) e.2 : Except Fault Ids) = .ok next := by
      rintro out e ⟨s, hs⟩
      exact ⟨out.put s e.2, bind_of_eq_ok hs _⟩
    have hbad : ∀ (out : Ids) (e : Value × Value), ¬ e.1.HasText →
        ∃ d, (return out.put (← e.1.written?) e.2 : Except Fault Ids) = .error (.tooDeep d) := by
      intro out e he
      obtain ⟨d, hd⟩ := Value.exists_of_not_hasText he
      rw [hd]
      exact ⟨d, rfl⟩
    have hput := foldlM_of_good hgood hbad ids []
    refine hput.imp (fun h => ⟨?_, h.2⟩) fun h => ⟨⟨ids, rfl, h.1⟩, h.2⟩
    rintro ids' heq
    cases heq
    exact h.1

theorem foldlM_takeId (explicit : Ids) :
    ((∀ e ∈ entries, Value.equals e.1 (.text "ids") = false → e.1.HasText) ∧
        ∃ out, entries.foldlM takeId explicit = .ok out) ∨
      ((∃ e ∈ entries, ¬ (Value.equals e.1 (.text "ids") = false → e.1.HasText)) ∧
        ∃ d, entries.foldlM takeId explicit = .error (.tooDeep d)) := by
  refine foldlM_of_good (fun ids e he => ?_) (fun ids e he => ?_) entries explicit
  · unfold takeId
    cases hids : Value.equals e.1 (.text "ids") with
    | true => exact ⟨ids, rfl⟩
    | false =>
      obtain ⟨s, hs⟩ := he hids
      unfold Ids.isIdKey
      rw [hs]
      cases hname : Ids.isIdName s with
      | true => exact ⟨ids.putNew s e.2, by simp [bind, Except.bind, pure, Except.pure, hname]⟩
      | false => exact ⟨ids, by simp [bind, Except.bind, pure, Except.pure, hname]⟩
  · obtain ⟨hids, he⟩ := Classical.not_imp.1 he
    obtain ⟨d, hd⟩ := Value.exists_of_not_hasText he
    unfold takeId Ids.isIdKey
    rw [hids, hd]
    exact ⟨d, rfl⟩

theorem reads_ofEntries (entries : List (Value × Value)) : Reads entries (ofEntries entries) := by
  have hsplit : ofEntries entries = (idsOfOptions entries).map fun ids =>
      ⟨option entries "user", namedResource entries, option entries "action", ids⟩ := by
    unfold ofEntries namedResource
    cases idsOfOptions entries <;> rfl
  rw [hsplit, idsOfOptions_eq]
  by_cases hids : IdsAreMapping entries
  · obtain ⟨hgiven, explicit, hcoerce⟩ | ⟨⟨ids, hdict, e, he, hbad⟩, d, hcoerce⟩ :=
      coerce_of_idsAreMapping hids
    · rw [bind_of_eq_ok hcoerce]
      obtain ⟨hown, out, hout⟩ | ⟨⟨e, he, hbad⟩, d, hout⟩ := @foldlM_takeId entries explicit
      · rw [hout]
        exact .request hids ⟨hgiven, hown⟩ out
      · rw [hout]
        exact .unwritten hids (fun h => hbad (h.own e he)) d
    · rw [hcoerce]
      exact .unwritten hids (fun h => hbad (h.ids ids hdict e he)) d
  · rw [coerce_of_not_idsAreMapping hids]
    exact .notMapping hids _

end Request

/-! ## 3. Completing options -/

/-- A host whose hooks do not fail. -/
structure Host.Returns (h : Host) : Prop where
  user : ∃ user, h.user = .ok user
  resource : ∃ resource, h.resource = .ok resource

namespace Engine

open Request (IsMalformed IdsAreMapping KeysHaveText NamesCanBeStripped Reads namedResource option)

section

variable {entries : List (Value × Value)} {host : Option Host} (hhooks : ∀ h, host = some h → h.Returns)

include hhooks

theorem exists_userFor (user : Value) : ∃ asked, userFor user host = .ok asked := by
  unfold userFor
  split
  · rename_i h
    exact (hhooks h rfl).user
  · exact ⟨user, rfl⟩

/-- There is a resource to read, unless none is named and there is no host. -/
theorem resourceFor_cases (resource : Value) :
    (resource = .null ∧ host = none ∧ resourceFor resource host = .error (.misconfigured .noResource)) ∨
      ∃ asked, resourceFor resource host = .ok asked := by
  unfold resourceFor
  split
  · exact .inl ⟨rfl, rfl, rfl⟩
  · rename_i h
    exact .inr (hhooks h rfl).resource
  · exact .inr ⟨resource, rfl⟩

/-- Options that have been read make a complete request, unless they are malformed. -/
theorem complete_options (hids : IdsAreMapping entries) (user : Value) (ids : Ids) :
    let request : Request := ⟨user, namedResource entries, option entries "action", ids⟩
    (¬ IsMalformed entries host ∧ ∃ check, complete request host = .ok check) ∨
      (IsMalformed entries host ∧ ∃ f, complete request host = .error f ∧
        (NamesCanBeStripped entries host → ∃ c, f = .misconfigured c)) := by
  intro request
  obtain ⟨asked, huser⟩ := exists_userFor hhooks user
  obtain ⟨hnone, hhost, hresource⟩ | ⟨resource, hresource⟩ := resourceFor_cases hhooks (namedResource entries)
  · refine .inr ⟨.noResource hnone hhost, .misconfigured .noResource, ?_, fun _ => ⟨_, rfl⟩⟩
    by_cases hnull : request.action = .null
    · rw [complete_of_null hnull, bind_of_eq_ok huser, hresource]
      rfl
    · rw [complete_of_action hnull, bind_of_eq_ok huser, hresource]
      rfl
  by_cases hnull : request.action = .null
  · refine .inr ⟨.noAction hnull, .misconfigured .noAction, ?_, fun _ => ⟨_, rfl⟩⟩
    rw [complete_of_null hnull, bind_of_eq_ok huser, bind_of_eq_ok hresource]
    rfl
  rw [complete_of_action hnull, bind_of_eq_ok huser, bind_of_eq_ok hresource]
  by_cases hgives : resource.GivesIdentifier
  · obtain ⟨name, hname⟩ := Name.exists_of_givesIdentifier .resource hgives
    rw [bind_of_eq_ok (show Name.resource resource = .ok name from hname)]
    obtain ⟨⟨action, haction⟩, hwell⟩ | ⟨hmalformed, f, hf, hcause⟩ := Name.action_cases request.action
    · exact .inl ⟨Request.not_isMalformed hids hresource hgives hwell, _, bind_of_eq_ok haction _⟩
    · refine .inr ⟨.action hmalformed.1 fun made h => hmalformed.2 ⟨made, h⟩, f, ?_,
        fun hstrip => hcause hstrip.action⟩
      rw [hf]
      rfl
  · obtain ⟨f, hf, hcause⟩ := Name.exists_of_not_givesIdentifier .resource hgives
    refine .inr ⟨.resource hresource hgives, f, ?_, fun hstrip => hcause (hstrip.resource resource hresource)⟩
    rw [show Name.resource resource = .error f from hf]
    rfl

end

/-! ## 4. Rules that return -/

section

variable (e : Engine) (answers : Value → Run Bool) (check : Check) (found : String → String → List Rule)
  (start : World)

/-- No rule that a decision tries fails: where roles are listed the user has one or is nobody, and each condition
that is asked returns a value. -/
structure RulesReturn : Prop where
  role : ∀ c roles, .attempt c ∈ e.course answers check found start → c.rule.roles = .among roles →
    check.user = .null ∨ check.user.role?.isSome = true
  returns : ∀ before c later condition,
    e.course answers check found start = before ++ .attempt c :: later →
    c.rule.roles.cover check.user = .ok true → c.rule.condition = some condition →
    ∀ n mid, e.follow answers check before 0 start = (.ok (.tried n), mid) → ∀ log, ∃ answer,
      (condition.ask answers check.user (check.object c.rule)
        (mid.asking [(check.user, check.object c.rule)] log)).1 = .ok answer

end

section

variable {e : Engine} {answers : Value → Run Bool} {check : Check} {found : String → String → List Rule}
  {start mid : World} {before later : List Event} {n : Nat} (hloader : e.loader = none)

include hloader in
theorem load_of_none (scope : String) (w : World) : e.load scope w = (.ok (), w) := by
  unfold load
  rw [hloader]
  rfl

theorem rule_mem_of_plan_eq {c : Candidate} {buckets : String → String → List Rule}
    (hfound : ∀ scope action, .read scope action ∈ before → found scope action = buckets scope action)
    (hplan : e.plan check found = before ++ .attempt c :: later) : c.rule ∈ buckets c.scope c.action := by
  rw [← hfound _ _ (read_mem_of_plan_eq hplan)]
  exact rule_mem_found_of_mem_plan (hplan ▸ List.mem_append_right _ List.mem_cons_self)

variable (hreads : e.ReadsAs answers check found (e.plan check found) 0 start)

include hloader hreads

/-- Along a plan on which only plain conditions are asked, the registry stays as it is, and so what is found in a
bucket is what was in it from the start. -/
theorem registry_of_follow
    (hplain : ∀ scope action, ∀ r ∈ (start.registry e.registry).bucket scope action, r.IsPlain)
    (hplan : e.plan check found = before ++ later)
    (hbefore : e.follow answers check before 0 start = (.ok (.tried n), mid)) :
    mid.registry e.registry = start.registry e.registry ∧
      ∀ scope action, .read scope action ∈ before →
        found scope action = (start.registry e.registry).bucket scope action := by
  induction before using List.reverseRecOn generalizing later n mid with
  | nil =>
    cases hbefore
    exact ⟨rfl, nofun⟩
  | append_singleton before ev ih =>
    obtain ⟨m, mid', hfirst, hlast⟩ := of_follow_append hbefore
    obtain ⟨k, _, hev, hnil⟩ := of_follow_cons hlast
    cases hnil
    rw [List.append_assoc, List.singleton_append] at hplan
    obtain ⟨hsame, hfound⟩ := ih hplan hfirst
    -- It is left to show that the last event changes nothing, and finds what was there, if it is a reading.
    suffices h : mid.registry e.registry = mid'.registry e.registry ∧
        ∀ scope action, ev = .read scope action →
          found scope action = (start.registry e.registry).bucket scope action by
      refine ⟨h.1.trans hsame, fun scope action hread => ?_⟩
      obtain hread | hread := List.mem_append.1 hread
      · exact hfound scope action hread
      · exact h.2 scope action (List.mem_singleton.1 hread).symm
    cases ev with
    | line message =>
      obtain ⟨log, hline⟩ := e.trace_run .debug (.ok message) mid'
      rw [happen_line m hline] at hev
      cases hev
      exact ⟨rfl, nofun⟩
    | load scope =>
      rw [happen_load, load_of_none hloader] at hev
      cases hev
      exact ⟨rfl, nofun⟩
    | read scope action =>
      have hread := hreads before scope action later hplan m mid' hfirst
      cases hev
      refine ⟨rfl, fun s a h => ?_⟩
      cases h
      rw [hread, hsame]
    | attempt c =>
      have hrule := rule_mem_of_plan_eq hfound hplan
      obtain ⟨log, hadmits⟩ := Rule.admits_run answers check (hplain _ _ _ hrule) mid'
      rw [happen_attempt, hadmits] at hev
      have hmid : mid'.asking (c.rule.questions check) log = mid := congrArg Prod.snd hev
      rw [← hmid]
      exact ⟨rfl, nofun⟩

/-- Conditions that are plain and always answer do not fail. -/
theorem rulesReturn_of_returnsFor (hrole : check.user = .null ∨ check.user.role?.isSome = true)
    (hreturns : ∀ scope action, ∀ r ∈ (start.registry e.registry).bucket scope action,
      ∀ condition, r.condition = some condition → condition.ReturnsFor check.user) :
    e.RulesReturn answers check found start := by
  refine ⟨fun _ _ _ _ => hrole, fun before c later condition hcourse _ hcondition n mid hbefore log => ?_⟩
  have hplain : ∀ scope action, ∀ r ∈ (start.registry e.registry).bucket scope action, r.IsPlain :=
    fun scope action r hr condition hc => (hreturns scope action r hr condition hc).imp fun _ h => h.1
  obtain ⟨_, _, rest, hplan, -, -⟩ := of_reached_eq hcourse
  obtain ⟨-, hfound⟩ := registry_of_follow hloader hreads hplain hplan hbefore
  obtain ⟨f, rfl, hanswers⟩ := hreturns _ _ _ (rule_mem_of_plan_eq hfound hplan) condition hcondition
  exact hanswers (check.object c.rule)

end

/-! ## 5. Deciding on options -/

/-- What a request that options make comes to before any rule is tried. -/
inductive Settles (entries : List (Value × Value)) (host : Option Host) : Except Fault (Option Check) → Prop where
  | malformed (h : IsMalformed entries host) (hkeys : IdsAreMapping entries → KeysHaveText entries) {f : Fault}
      (hf : NamesCanBeStripped entries host → ∃ c, f = .misconfigured c) : Settles entries host (.error f)
  | unwritten (hids : IdsAreMapping entries) (hkeys : ¬ KeysHaveText entries) (d : Depth) :
      Settles entries host (.error (.tooDeep d))
  | complete (h : ¬ IsMalformed entries host) (hkeys : KeysHaveText entries) (check : Check) :
      Settles entries host (.ok (some check))

variable {e : Engine} {entries : List (Value × Value)} {target : Value} {options : List (Value × Value)}
  {host asked : Option Host}

theorem settles_checkFor (hlogged : isLoggedIn (e.hostFor host) = .ok true)
    (hhooks : ∀ h, e.hostFor host = some h → h.Returns) :
    Settles entries (e.hostFor host) (e.checkFor (.dict entries) host) := by
  have hsame : e.hostFor (e.hostFor host) = e.hostFor host := by
    unfold hostFor
    rw [Option.or_assoc, Option.or_self]
  have hcheck : e.checkFor (.dict entries) host =
      (Request.ofEntries entries >>= fun request => complete request (e.hostFor host)).map some := by
    unfold checkFor buildCheck
    rw [bind_of_eq_ok hlogged, hsame]
    rfl
  have hreads := Request.reads_ofEntries entries
  rw [hcheck]
  generalize Request.ofEntries entries = read at hreads
  cases hreads with
  | notMapping h c => exact .malformed (Request.isMalformed_of_not_idsAreMapping h) (absurd · h) fun _ => ⟨c, rfl⟩
  | unwritten hids h d => exact .unwritten hids h d
  | request hids h ids =>
    obtain ⟨hwell, check, hcomplete⟩ | ⟨hmalformed, f, hcomplete, hf⟩ :=
      complete_options hhooks hids (option entries "user") ids
    · rw [bind_of_eq_ok rfl, hcomplete]
      exact .complete hwell h check
    · rw [bind_of_eq_ok rfl, hcomplete]
      exact .malformed hmalformed (fun _ => h) hf

/-- Without a loader, a decision on options is made if its rules return. -/
theorem exists_decision {check : Check} {w : World} (hloader : e.loader = none)
    (hcheck : e.checkOf target options host = .ok (some check))
    (hrules : ∀ found log, e.ReadsAs (e.consultation (depthLimit - 1)) check found (e.plan check found) 0
        (w.asking [] log) → e.RulesReturn (e.consultation (depthLimit - 1)) check found (w.asking [] log)) :
    ∃ decision after, e.decide target options host w = (.ok decision, after) := by
  rw [decide_eq_decideBy]
  obtain ⟨found, log, result, after, log', hgoes, hdecide⟩ :=
    decideBy_goesAlong (e.consultation (depthLimit - 1)) hcheck w
  have hreturn := hrules found log hgoes.reads
  obtain ⟨progress, rfl⟩ := exists_progress_of_returns
    (fun before scope later _ n mid _ => congrArg Prod.fst (load_of_none hloader scope mid))
    (fun before c later hcourse n mid hbefore => by
      refine Rule.exists_admits ?_ fun hcovers condition hcondition =>
        hreturn.returns before c later condition hcourse hcovers hcondition n mid hbefore
      cases hroles : c.rule.roles with
      | everyone => exact ⟨true, rfl⟩
      | among roles =>
        have hmem : .attempt c ∈ e.course (e.consultation (depthLimit - 1)) check found (w.asking [] log) := by
          rw [hcourse]
          exact List.mem_append_right _ List.mem_cons_self
        exact Roles.exists_cover _ (hreturn.role c roles hmem hroles))
    hgoes.follows
  exact ⟨progress.decision check, after.asking [] log', hdecide⟩

/-- A decision on options fails exactly if they are malformed or have a key without a text, whatever rules there
are. Malformed options are misconfigured, but for those with such a key, if their ids are a mapping, and those with
a name that hides what strips it. In every other case there is a decision. -/
theorem decide_fails_iff {w : World} (hloader : e.loader = none)
    (hsubject : subjectOf target options host = .ok (.dict entries, asked))
    (hlogged : isLoggedIn (e.hostFor asked) = .ok true)
    (hhooks : ∀ h, e.hostFor asked = some h → h.Returns)
    (hrules : ∀ check found log, e.checkFor (.dict entries) asked = .ok (some check) →
      e.ReadsAs (e.consultation (depthLimit - 1)) check found (e.plan check found) 0 (w.asking [] log) →
      e.RulesReturn (e.consultation (depthLimit - 1)) check found (w.asking [] log)) :
    ((∃ f, (e.decide target options host w).1 = .error f) ↔
      IsMalformed entries (e.hostFor asked) ∨ ¬ KeysHaveText entries) ∧
    (IsMalformed entries (e.hostFor asked) → (IdsAreMapping entries → KeysHaveText entries) →
      ∃ f, e.decide target options host w = (.error f, w) ∧
        (NamesCanBeStripped entries (e.hostFor asked) → ∃ c, f = .misconfigured c)) ∧
    (IdsAreMapping entries → ¬ KeysHaveText entries →
      ∃ d, e.decide target options host w = (.error (.tooDeep d), w)) ∧
    (¬ IsMalformed entries (e.hostFor asked) → KeysHaveText entries →
      ∃ decision after, e.decide target options host w = (.ok decision, after)) := by
  have hcheck := checkOf_of_subjectOf (e := e) hsubject
  have hsettles : Settles entries (e.hostFor asked) (e.checkFor (.dict entries) asked) :=
    settles_checkFor hlogged hhooks
  rw [← hcheck] at hsettles
  cases hsettled : e.checkOf target options host with
  | error f =>
    rw [hsettled] at hsettles
    rw [decide_of_error hsettled]
    cases hsettles with
    | malformed h hkeys hf =>
      refine ⟨⟨fun _ => .inl h, fun _ => ⟨_, rfl⟩⟩, fun _ _ => ⟨_, rfl, hf⟩, fun hids hnot => ?_,
        fun hwell => ?_⟩
      · exact absurd (hkeys hids) hnot
      · exact absurd h hwell
    | unwritten hids hkeys d =>
      refine ⟨⟨fun _ => .inr hkeys, fun _ => ⟨_, rfl⟩⟩, fun _ hwritten => ?_, fun _ _ => ⟨d, rfl⟩,
        fun _ hwritten => ?_⟩
      · exact absurd (hwritten hids) hkeys
      · exact absurd hwritten hkeys
  | ok made =>
    rw [hsettled] at hsettles
    cases hsettles with
    | complete hwell hkeys check =>
      obtain ⟨decision, after, hdecision⟩ := exists_decision hloader hsettled fun found log =>
        hrules check found log (hcheck ▸ hsettled)
      rw [hdecision]
      refine ⟨⟨fun ⟨_, h⟩ => (by cases h), fun h => ?_⟩, fun h => absurd h hwell, fun _ h => absurd hkeys h,
        fun _ _ => ⟨decision, after, rfl⟩⟩
      exact h.elim (absurd · hwell) (absurd hkeys)

theorem hooks_sample : ∀ h, sample.hostFor none = some h → h.Returns := by
  intro h hsome
  rw [show sample.hostFor none = none from rfl] at hsome
  cases hsome

/-- One rule for administrators, under a condition that holds for another product. -/
def otherProductRule : Rule := ⟨0, .among [.text "admin"], some (.objectIs (.int 8)), "product_id"⟩

def otherProductWorld : World :=
  { World.initial with registries := [⟨[("products", [("show", [otherProductRule])])], false⟩] }

/-- A condition is asked and says no, which is a denial and no fault. -/
theorem decide_fails_iff_otherProductWorld :
    (∃ decision after, sample.decide (.dict sampleOptions) [] none otherProductWorld = (.ok decision, after)) ∧
    (sample.decide (.dict sampleOptions) [] none otherProductWorld).1.toOption.map Decision.allowed =
      some false := by
  have hcheck : sample.checkFor (.dict sampleOptions) none = .ok (some sampleCheck) := by with_unfolding_all rfl
  have hbuckets : ∀ scope action, ∀ r ∈ (otherProductWorld.registry 0).bucket scope action,
      r = otherProductRule := by
    intro scope action r hr
    have hr : r ∈ (Registry.bucketsIn scope [("products", [("show", [otherProductRule])])]).get action := hr
    simp only [Registry.bucketsIn] at hr
    split at hr
    · simp only [Buckets.get] at hr
      split at hr
      · exact List.mem_singleton.1 hr
      · cases hr
    · cases hr
  have hwell : ¬ IsMalformed sampleOptions none :=
    @Request.not_isMalformed _ _ (.text " Products ") (.inl (by with_unfolding_all rfl))
      (by with_unfolding_all rfl) ⟨rfl, " Products ", rfl, by decide +kernel⟩
      (.inl ⟨by with_unfolding_all rfl, "SHOW", by with_unfolding_all rfl, by decide +kernel⟩)
  have hkeys : KeysHaveText sampleOptions := by
    refine ⟨fun ids h => ?_, fun e he _ => ?_⟩
    · rw [show option sampleOptions "ids" = .null by with_unfolding_all rfl] at h
      cases h
    · simp only [sampleOptions, List.mem_cons, List.not_mem_nil, or_false] at he
      rcases he with rfl | rfl | rfl | rfl <;> exact Value.hasText_text _
  refine ⟨?_, by decide +kernel⟩
  refine (@decide_fails_iff _ sampleOptions _ _ _ none _ rfl rfl rfl hooks_sample ?_).2.2.2 hwell hkeys
  intro check found log hmade hreads
  obtain rfl : sampleCheck = check := Option.some.inj (Except.ok.inj (hcheck.symm.trans hmade))
  refine rulesReturn_of_returnsFor rfl hreads (.inr rfl) fun scope action r hr condition hcondition => ?_
  rw [hbuckets scope action r hr] at hcondition
  cases hcondition
  exact returnsFor_objectIs_int _ 8

/-- A user whose id is a number inside of so many lists. -/
def buriedKey : Value := .principal (Value.nested (.int 1) 3000) .null (some (.text "user"))

def buriedOptions : List (Value × Value) :=
  [(.text "resource", .text "products"), (.text "action", .text "show"),
    (.text "ids", .dict [(buriedKey, .int 7)])]

theorem written?_buriedKey : buriedKey.written? = .error (.tooDeep .forms) := by
  have hid : (Value.nested (.int 1) 3000).overflow? 967 = some .forms := Value.overflow?_nested (by decide)
  have hparts : buriedKey.parts = [Value.nested (.int 1) 3000] := rfl
  have hkey : buriedKey.writtenOverflow? Value.formRoom = some .forms := by
    unfold Value.writtenOverflow?
    rw [if_neg (by decide), Value.overflow?, if_neg (by decide), if_neg (by decide), hparts, List.findSome?_cons]
    rw [show Value.formRoom - buriedKey.weight = 967 from rfl, hid]
  unfold Value.written? Value.writtenIn?
  rw [hkey]

/-- Options with all that is needed fail when a key of their ids has no text. -/
theorem decide_buriedOptions :
    ¬ IsMalformed buriedOptions none ∧ ∃ d,
      sample.decide (.dict buriedOptions) [] none World.initial = (.error (.tooDeep d), World.initial) := by
  have hids : option buriedOptions "ids" = .dict [(buriedKey, .int 7)] := by with_unfolding_all rfl
  have hwell : ¬ IsMalformed buriedOptions none :=
    @Request.not_isMalformed _ _ (.text "products") (.inr ⟨_, hids⟩) (by with_unfolding_all rfl)
      ⟨rfl, "products", rfl, by decide +kernel⟩
      (.inl ⟨by with_unfolding_all rfl, "show", by with_unfolding_all rfl, by decide +kernel⟩)
  refine ⟨hwell, ?_⟩
  have hsettles : Settles buriedOptions none (sample.checkFor (.dict buriedOptions) none) :=
    settles_checkFor rfl hooks_sample
  have hsame : sample.checkOf (.dict buriedOptions) [] none = sample.checkFor (.dict buriedOptions) none :=
    checkOf_of_subjectOf rfl
  rw [← hsame] at hsettles
  cases hcheck : sample.checkOf (.dict buriedOptions) [] none with
  | error f =>
    rw [hcheck] at hsettles
    rw [decide_of_error hcheck]
    cases hsettles with
    | malformed h => exact absurd h hwell
    | unwritten _ _ d => exact ⟨d, rfl⟩
  | ok made =>
    rw [hcheck] at hsettles
    cases hsettles with
    | complete _ hkeys =>
      obtain ⟨s, hs⟩ := hkeys.ids _ hids (buriedKey, .int 7) List.mem_cons_self
      rw [written?_buriedKey] at hs
      cases hs

end Engine

end Gatehouse
