import Gatehouse.Handler
import Gatehouse.Proofs.Web.Parameters

/-!
# Checks — how far parameters get

Whoever sends a request chooses its parameters. Those that are named like ids become the object ids that
conditions are asked about, and nothing else of the parameters gets anywhere: no parameter can pass for a
user, an action, a resource or a host, whatever it is called. Two requests by the same user on the same
resource that agree on the parameters named like ids are therefore answered alike.
-/

namespace Gatehouse

/-! ## 1. Guards -/

namespace Web

/-- A request by the same user about the same resource, with the same values for the parameters that are
named like ids. -/
structure Request.AgreesFor (g : Guard) (fallback : String) (r r' : Request) : Prop where
  user : r'.user = r.user
  resource : r'.resource g.resource (.text fallback) = r.resource g.resource (.text fallback)
  ids : ∀ name, Ids.isIdName name = true → Field.given? r'.params name = Field.given? r.params name

/-- The parameters of a request as entries of a mapping. -/
def Request.entries (r : Request) : List (Value × Value) := r.params.map fun (name, v) => (.text name, v)

theorem Request.haveNames_entries (r : Request) : Ids.HaveNames r.entries := by
  intro e he
  obtain ⟨entry, -, rfl⟩ := List.mem_map.1 he
  exact Value.written?_text entry.1

theorem Request.paramOf_entries (r : Request) (name : String) :
    Ids.paramOf r.entries name = Field.given? r.params name := by
  unfold Ids.paramOf Request.entries Field.given?
  rw [← List.map_reverse, List.find?_map, Option.map_map]
  rfl

/-- It is enough that the ids among the parameters are the same, in a request to the same place. -/
theorem Request.agreesFor_of_place {r r' : Request} (g : Guard) (fallback : String)
    (huser : r'.user = r.user) (hauthority : r'.authority = r.authority) (hpath : r'.path = r.path)
    (hids : (r'.params.filter fun e => Ids.isIdName e.1) = r.params.filter fun e => Ids.isIdName e.1) :
    r.AgreesFor g fallback r' where
  user := huser
  resource := resource_of_same_place hauthority hpath _ _
  ids name hname := by
    -- Under the name of an id there is nothing but what the ids have there.
    have hfilter : ∀ params : List (String × Value),
        Field.given? (params.filter fun e => Ids.isIdName e.1) name = Field.given? params name := by
      intro params
      unfold Field.given?
      rw [← List.filter_reverse, List.find?_filter]
      congr 2
      funext e
      by_cases he : e.1 = name
      · simp [he, hname]
      · simp [he]
    rw [← hfilter r'.params, hids, hfilter]

namespace Guard

theorem arePlain_action (action : Value) : Request.ArePlain [("action", action)] := by
  intro e he
  rw [List.mem_singleton.1 he]
  have hplain : "action" ≠ "ids" ∧ Ids.isIdName "action" = false := by decide
  exact hplain

theorem target_eq (g : Guard) (r : Request) : g.target r =
    .ok (.dict (Gatehouse.Request.optionsWith [("action", .action g.action)] (Ids.gathered r.entries))) := by
  unfold target
  rw [show r.paramsValue = .dict r.entries from rfl, bind_of_eq_ok (Ids.extract_dict r.haveNames_entries)]
  rfl

/-- A guard answers requests that agree alike. -/
theorem check_of_agrees {g : Guard} {e : Engine} {r r' : Request} (h : r.AgreesFor g e.fallback r')
    (w : World) : Run.SameButLog (g.check e r) (g.check e r') w := by
  have hhost : r'.asHost g.resource (.text e.fallback) g.needsLogin =
      r.asHost g.resource (.text e.fallback) g.needsLogin := by
    unfold Request.asHost
    rw [h.user, h.resource]
  have hids : ∀ key, (Ids.gathered r'.entries).get? key = (Ids.gathered r.entries).get? key := by
    intro key
    rw [Ids.get?_gathered, Ids.get?_gathered, r.paramOf_entries, r'.paramOf_entries]
    split
    · rename_i hkey
      exact h.ids key hkey
    · rfl
  have halike : ∀ host, Engine.Alike
      (e.checkOf (.dict (Gatehouse.Request.optionsWith [("action", .action g.action)]
        (Ids.gathered r.entries))) [] (some host))
      (e.checkOf (.dict (Gatehouse.Request.optionsWith [("action", .action g.action)]
        (Ids.gathered r'.entries))) [] (some host)) := fun host =>
    e.alike_optionsWith (arePlain_action _) (Ids.isMap_gathered _) (Ids.isMap_gathered _) hids (some host)
  unfold check
  rw [target_eq, target_eq, hhost]
  refine (Engine.decide_of_alike (halike _) w).bind fun decision => ?_
  split
  · exact Run.IgnoresLog.sequential.pure _
  · exact Run.IgnoresLog.sequential.pure _

end Guard

end Web

/-! ## 2. Handlers -/

theorem Engine.checkOf_null {e : Engine} {options : List (Value × Value)} {host : Option Host}
    (hentries : Value.entriesOf options = options) (hhost : Value.lookup hostOption options = none) :
    e.checkOf .null options host = e.checkFor (.dict options) host :=
  checkOf_of_subjectOf (subjectOf_null hentries hhost)

namespace Handler

/-- Two instances that say the same about everything but parameters, and the same about those that are
named like ids. -/
structure AgreesFor (w : World) (i : Nat) (own own' : Hooks) : Prop where
  user : own'.user = own.user
  currentResource : own'.currentResource = own.currentResource
  actionName : own'.actionName = own.actionName
  loggedIn : own'.loggedIn = own.loggedIn
  params : ∃ entries entries', currentParams w i own = .ok (.dict entries) ∧
    currentParams w i own' = .ok (.dict entries') ∧ Ids.HaveNames entries ∧ Ids.HaveNames entries' ∧
    ∀ name, Ids.isIdName name = true → Ids.paramOf entries' name = Ids.paramOf entries name

/-- What a check on the current request gives besides ids. -/
def frontOf (resource action : Value) : List (String × Value) := [("resource", resource), ("action", action)]

theorem arePlain_frontOf (resource action : Value) : Request.ArePlain (frontOf resource action) := by
  have hplain : ("resource" ≠ "ids" ∧ Ids.isIdName "resource" = false) ∧
      ("action" ≠ "ids" ∧ Ids.isIdName "action" = false) := by decide
  intro e he
  rcases List.mem_cons.1 he with rfl | he
  · exact hplain.1
  · rw [List.mem_singleton.1 he]
    exact hplain.2

theorem entriesOf_frontOf (resource action : Value) (ids : Ids) :
    Value.entriesOf (Request.optionsWith (frontOf resource action) ids) =
      Request.optionsWith (frontOf resource action) ids := by
  simp [Value.entriesOf, Request.optionsWith, frontOf, Value.put, Value.equals_text_text]

theorem lookup_host_frontOf (resource action : Value) (ids : Ids) :
    Value.lookup Engine.hostOption (Request.optionsWith (frontOf resource action) ids) = none := by
  simp [Value.lookup, Request.optionsWith, frontOf, Engine.hostOption, Value.equals_text_text]

/-- The resource and the action of the current request, if both can be said. -/
def currentSubject (w : World) (i : Nat) (own : Hooks) : Except Fault (Value × Value) := do
  return (← currentResource w i own, ← currentAction w i own)

theorem currentOptions_eq {w : World} {i : Nat} {own : Hooks} {entries : List (Value × Value)}
    (h : currentParams w i own = .ok (.dict entries)) (hnames : Ids.HaveNames entries) :
    currentOptions w i own = (currentSubject w i own).map fun subject =>
      Request.optionsWith (frontOf subject.1 subject.2) (Ids.gathered entries) := by
  unfold currentOptions currentSubject
  rw [h]
  cases currentResource w i own with
  | error f => rfl
  | ok resource =>
    cases currentAction w i own with
    | error f => rfl
    | ok action =>
      simp only [bind, Except.bind, Ids.extract_dict hnames]
      rfl

theorem authorized_run {w : World} {i : Nat} {own : Hooks} {entries : List (Value × Value)}
    (h : currentParams w i own = .ok (.dict entries)) (hnames : Ids.HaveNames entries) :
    authorized i own w = (do
      let subject ← Run.ofExcept (currentSubject w i own)
      let e ← engineOf i
      let host ← Run.read fun w => asHost w i own
      e.authorize .null (Request.optionsWith (frontOf subject.1 subject.2) (Ids.gathered entries)) (some host)) w := by
  unfold authorized
  rw [Run.bind_of_ok (Run.read_run id w)]
  change (Run.ofExcept (currentOptions w i own) >>= _) w = _
  rw [currentOptions_eq h hnames]
  cases currentSubject w i own with
  | error f => rfl
  | ok subject =>
    have hname : nameHost (Request.optionsWith (frontOf subject.1 subject.2) (Ids.gathered entries)) = false := by
      unfold nameHost
      rw [lookup_host_frontOf]
      rfl
    show authorizeAction i own .null _ w = _
    unfold authorizeAction
    rw [hname]
    rfl

/-- Instances that agree get the same answer for the current request. -/
theorem authorized_of_agrees {w : World} {i : Nat} {own own' : Hooks} (h : AgreesFor w i own own') :
    Run.SameButLog (authorized i own) (authorized i own') w := by
  obtain ⟨entries, entries', hparams, hparams', hnames, hnames', hsame⟩ := h.params
  have hsubject : currentSubject w i own' = currentSubject w i own := by
    unfold currentSubject currentResource currentAction hook
    rw [h.currentResource, h.actionName]
  have hhost : ∀ mid, asHost mid i own' = asHost mid i own := by
    intro mid
    unfold asHost currentUser currentResource hook
    rw [h.user, h.currentResource, h.loggedIn]
  have hids : ∀ key, (Ids.gathered entries').get? key = (Ids.gathered entries).get? key := by
    intro key
    rw [Ids.get?_gathered, Ids.get?_gathered]
    split
    · rename_i hkey
      exact hsame key hkey
    · rfl
  unfold Run.SameButLog
  rw [authorized_run hparams hnames, authorized_run hparams' hnames', hsubject]
  -- Both are about the same first, and get the same engine, out of the same state.
  refine Run.SameButLog.after fun (resource, action) mid _ => ?_
  refine Run.SameButLog.after fun e mid _ => ?_
  have halike : ∀ host, Engine.Alike
      (e.checkOf .null (Request.optionsWith (frontOf resource action) (Ids.gathered entries)) host)
      (e.checkOf .null (Request.optionsWith (frontOf resource action) (Ids.gathered entries')) host) := by
    intro host
    rw [Engine.checkOf_null (entriesOf_frontOf ..) (lookup_host_frontOf ..),
      Engine.checkOf_null (entriesOf_frontOf ..) (lookup_host_frontOf ..)]
    exact e.alike_optionsWith (arePlain_frontOf resource action) (Ids.isMap_gathered _)
      (Ids.isMap_gathered _) hids host
  have hread : (Run.read fun w => asHost w i own') = Run.read fun w => asHost w i own :=
    congrArg Run.read (funext hhost)
  rw [hread]
  refine Run.SameButLog.after fun host mid' _ => ?_
  exact (Engine.decide_of_alike (halike (some host)) mid').bind fun decision =>
    Run.IgnoresLog.sequential.pure decision.allowed

end Handler

/-! ## 3. Parameters reach decisions as ids only -/

/-- Requests that differ in nothing but parameters which are not ids get the same answer: from a guard with an
engine of its own, from a guard with the engine of the process, and from a handler. -/
theorem parameters_reach_as_ids :
    (∀ (g : Web.Guard) (r r' : Web.Request) (e : Engine) (w : World), r.AgreesFor g e.fallback r' →
      Run.SameButLog (g.check e r) (g.check e r') w) ∧
    (∀ (g : Web.Guard) (r r' : Web.Request) (w : World),
      (∀ e mid, Shared.engine w = (.ok e, mid) → r.AgreesFor g e.fallback r') →
      Run.SameButLog (Shared.engine >>= fun e => g.check e r)
        (Shared.engine >>= fun e => g.check e r') w) ∧
    (∀ (w : World) (i : Nat) (own own' : Hooks), Handler.AgreesFor w i own own' →
      Run.SameButLog (Handler.authorized i own) (Handler.authorized i own') w) := by
  refine ⟨fun g r r' e w h => Web.Guard.check_of_agrees h w, fun g r r' w h => ?_,
    fun w i own own' h => Handler.authorized_of_agrees h⟩
  exact Run.SameButLog.after fun e mid hengine => Web.Guard.check_of_agrees (h e mid hengine) mid

/-- Somebody asks for a product. -/
def plainRequest : Web.Request where
  authority := "shop.example"
  path := "/products/7"
  query := "page=2"
  pathParams := [("id", .int 7)]
  user := .principal (.int 1) (.text "editor") none

/-- The same, with parameters that are called like everything a check knows. -/
def craftedRequest : Web.Request :=
  { plainRequest with query := "user=root&action=all&resource=admin&controller=admin&ids=9&host=none&id=9" }

theorem plainRequest_agrees (g : Web.Guard) (fallback : String) :
    plainRequest.AgreesFor g fallback craftedRequest :=
  Web.Request.agreesFor_of_place g fallback rfl rfl rfl (by with_unfolding_all rfl)

namespace Handler

/-- An instance that says which product the current request is about. -/
def plainHooks : Hooks :=
  { user := some (.ok (.principal (.int 1) (.text "editor") none))
    currentResource := none
    actionName := some (.ok (.text "show"))
    params := some (.ok (.dict [(.text "id", .int 7)]))
    loggedIn := none }

/-- The same, with a parameter that is called like an option of a check. -/
def craftedHooks : Hooks :=
  { plainHooks with params := some (.ok (.dict [(.text "host", .text "root"), (.text "id", .int 7)])) }

theorem plainHooks_agrees (w : World) (i : Nat) : AgreesFor w i plainHooks craftedHooks where
  user := rfl
  currentResource := rfl
  actionName := rfl
  loggedIn := rfl
  params := by
    have hnames : Ids.HaveNames [(.text "host", .text "root"), (.text "id", .int 7)] := by
      intro e he
      rcases List.mem_cons.1 he with rfl | he
      · exact Value.written?_text "host"
      · rw [List.mem_singleton.1 he]
        exact Value.written?_text "id"
    refine ⟨[(.text "id", .int 7)], _, rfl, rfl, fun e he => hnames e (List.mem_cons_of_mem _ he),
      hnames, fun name hname => ?_⟩
    have hother : (Value.text "host").written ≠ name := by
      rintro rfl
      revert hname
      decide
    rw [Ids.paramOf_cons, if_neg hother, Option.or_none]

end Handler

theorem parameters_reach_as_ids_crafted :
    let g : Web.Guard := ⟨"show", .null, true⟩
    Run.SameButLog (g.check Engine.sample plainRequest) (g.check Engine.sample craftedRequest)
        Engine.sampleWorld ∧
      Run.SameButLog (Shared.engine >>= fun e => g.check e plainRequest)
        (Shared.engine >>= fun e => g.check e craftedRequest) Engine.sampleWorld ∧
      Run.SameButLog (Handler.authorized 0 Handler.plainHooks)
        (Handler.authorized 0 Handler.craftedHooks) Engine.sampleWorld :=
  ⟨parameters_reach_as_ids.1 _ _ _ _ _ (plainRequest_agrees _ _),
    parameters_reach_as_ids.2.1 _ _ _ _ fun _ _ _ => plainRequest_agrees _ _,
    parameters_reach_as_ids.2.2 _ _ _ _ (Handler.plainHooks_agrees _ _)⟩

end Gatehouse
