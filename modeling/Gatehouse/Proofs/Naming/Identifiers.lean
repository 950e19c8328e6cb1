import Gatehouse.Proofs.Deciding.Plan
import Gatehouse.Proofs.Deciding.Unlogged
import Gatehouse.Proofs.Loading.Names

/-!
# Identifiers — what a decision loads and reads

The name of a resource becomes the name of a module that is imported, so nothing but an identifier may come
through. Names of requests come from paths, mappings, hosts and settings, and all of them are read by one
function on the way to a complete request. A decision therefore ends before it loads anything, or all resources
that it loads and reads are identifiers, and so are the actions it reads unless one was made by hand.
-/

namespace Gatehouse

/-! ## 1. Identifiers -/

namespace Name

/-- A name that is safe to import: a letter or an underscore, then letters, digits and underscores, all of them
lower-case ASCII. To read such a name again changes nothing. -/
structure IsIdentifier (name : String) : Prop where
  shape : ∃ head tail, name.toList = head :: tail ∧ ('a' ≤ head ∧ head ≤ 'z' ∨ head = '_') ∧
    ∀ c ∈ tail, 'a' ≤ c ∧ c ≤ 'z' ∨ c = '_' ∨ '0' ≤ c ∧ c ≤ '9'
  ascii : ∀ c ∈ name.toList, c.toNat < 128
  plain : ∀ c ∈ name.toList, c ≠ '.' ∧ c ≠ '/' ∧ Text.isBlank c = false
  again : resource (.text name) = .ok name ∧ action (.text name) = .ok name

variable {name : String}

/-- Only an action that was made by hand is left as it is. -/
theorem action_eq_read {v : Value} (h : ∀ made, v ≠ .action made) : action v = read .action v := by
  cases v with
  | action made => exact absurd rfl (h made)
  | _ => rfl

theorem isIdentifier_of_read {subject : Subject} {v : Value} (h : read subject v = .ok name) :
    IsIdentifier name := by
  have hw := isWellFormed_of_read h
  have htail : ∀ c ∈ name.toList, isTail c = true := fun c hc => isTail_of_mem hw hc
  refine ⟨?_, fun c hc => ?_, fun c hc => ⟨?_, ?_, isBlank_of_isTail (htail c hc)⟩,
    read_text_of_read h, ?_⟩
  · cases hchars : name.toList with
    | nil =>
      rw [hchars] at hw
      cases hw
    | cons head tail =>
      rw [hchars] at hw
      simp only [isWellFormed, isTail, isHead, Bool.and_eq_true, Bool.or_eq_true, decide_eq_true_eq,
        beq_iff_eq, List.all_eq_true, or_assoc] at hw
      exact ⟨head, tail, rfl, hw.1, hw.2⟩
  · have := toNat_of_isTail (htail c hc)
    omega
  · rintro rfl
    exact absurd (htail '.' hc) (by decide)
  · rintro rfl
    exact absurd (htail '/' hc) (by decide)
  · rw [action_eq_read fun _ h => by cases h]
    exact read_text_of_read h

theorem isIdentifier_everyAction : IsIdentifier everyAction :=
  isIdentifier_of_read (show read .action (.text everyAction) = .ok everyAction by with_unfolding_all rfl)

/-- The name of an action is an identifier unless the action was made by hand. -/
theorem isIdentifier_or_of_action {v : Value} (h : action v = .ok name) : IsIdentifier name ∨ v = .action name := by
  by_cases hmade : ∃ made, v = .action made
  · obtain ⟨made, rfl⟩ := hmade
    cases h
    exact .inr rfl
  · rw [action_eq_read (not_exists.1 hmade)] at h
    exact .inl (isIdentifier_of_read h)

end Name

/-! ## 2. Decisions -/

namespace Engine

open Name (IsIdentifier)

/-- Whether a target stands for a request for this action, made by hand. -/
def IsHandBuilt (e : Engine) (subject : Value) (action : String) : Prop :=
  ∃ request, e.adapter.normalize subject = .ok request ∧ request.action = .action action

/-- How a decision on a subject can go, as to the names it uses. -/
inductive UsesIdentifiers (e : Engine) (answers : Value → Run Bool) (subject : Value) (host : Option Host)
    (w : World) : Except Fault Decision × World → Prop where
  /-- It fails, and nothing has been loaded or changed in any other way. -/
  | refused (f : Fault) : UsesIdentifiers e answers subject host w (.error f, w)
  /-- Nobody is logged in, so nothing is loaded or read. -/
  | nobody (log : Trace.Log) (hcheck : e.checkFor subject host = .ok none) :
      UsesIdentifiers e answers subject host w (.ok .notLoggedIn, w.asking [] log)
  /-- It goes along its plan, and what it loads and reads on the way are identifiers. -/
  | scanned (check : Check) (found : String → String → List Rule) (log log' : Trace.Log)
      (result : Except Fault Progress) (after : World) (hcheck : e.checkFor subject host = .ok (some check))
      (goes : e.GoesAlong answers check found (e.plan check found) 0 (w.asking [] log) (result, after))
      (loads : ∀ scope, .load scope ∈ e.course answers check found (w.asking [] log) → IsIdentifier scope)
      (reads : ∀ scope action, .read scope action ∈ e.course answers check found (w.asking [] log) →
        IsIdentifier scope ∧ (IsIdentifier action ∨ e.IsHandBuilt subject action)) :
      UsesIdentifiers e answers subject host w (result.map (Progress.decision check), after.asking [] log')

variable {e : Engine} {subject : Value} {host : Option Host} {check : Check} {w w' : World}

theorem isIdentifier_fallback_of_make {registry : Nat} {own : Option Host} {loader : Option Nat}
    {resolver : Option Resolver} {settings : Settings} {muted consulted : Bool}
    (h : make registry own loader resolver settings muted consulted w = (.ok e, w')) :
    IsIdentifier e.fallback := by
  obtain ⟨fallback, _, hname, h⟩ := Run.bind_eq_ok_iff.1 h
  rw [Run.ofExcept_run] at hname
  cases h
  exact Name.isIdentifier_of_read (congrArg Prod.fst hname)

/-- Whatever a complete request was made from, its names have been read. -/
theorem names_of_complete {request : Request} (h : complete request host = .ok check) :
    IsIdentifier check.resource ∧ (IsIdentifier check.action ∨ request.action = .action check.action) := by
  rw [complete_eq] at h
  obtain ⟨user, -, h⟩ := bind_eq_ok_iff.1 h
  obtain ⟨given, -, h⟩ := bind_eq_ok_iff.1 h
  dsimp only at h
  split at h
  · cases h
  obtain ⟨resource, hresource, h⟩ := bind_eq_ok_iff.1 h
  obtain ⟨action, haction, h⟩ := bind_eq_ok_iff.1 h
  cases h
  exact ⟨Name.isIdentifier_of_read hresource, Name.isIdentifier_or_of_action haction⟩

theorem names_of_checkFor (h : e.checkFor subject host = .ok (some check)) :
    IsIdentifier check.resource ∧ (IsIdentifier check.action ∨ e.IsHandBuilt subject check.action) := by
  unfold checkFor at h
  obtain ⟨logged, -, h⟩ := bind_eq_ok_iff.1 h
  cases logged with
  | false => cases h
  | true =>
    obtain ⟨made, hmade, h⟩ := bind_eq_ok_iff.1 h
    cases h
    obtain ⟨request, hrequest, hcomplete⟩ := bind_eq_ok_iff.1 hmade
    obtain ⟨hresource, haction⟩ := names_of_complete hcomplete
    exact ⟨hresource, haction.imp_right fun h => ⟨request, hrequest, h⟩⟩

theorem mem_scopes {scope resource : String} (h : scope ∈ e.scopes resource) :
    scope = resource ∨ scope = e.fallback := by
  unfold scopes at h
  split at h
  · exact .inl (List.mem_singleton.1 h)
  · simpa using h

theorem mem_actionScopes {action requested : String} (h : action ∈ actionScopes requested) :
    action = Name.everyAction ∨ action = requested := by
  unfold actionScopes at h
  split at h
  · exact .inl (List.mem_singleton.1 h)
  · simpa using h

/-- A decision that comes to a complete request looks nowhere but in the plan made from it. -/
theorem decideWith_usesIdentifiers (hfallback : IsIdentifier e.fallback) (answers : Value → Run Bool) (room : Nat)
    (subject : Value) (host : Option Host) (w : World) :
    e.UsesIdentifiers answers subject host w (decideWith answers room e subject host w) := by
  cases hcheck : e.checkFor subject host with
  | error f =>
    rw [decideWith_of_error hcheck]
    exact .refused f
  | ok made =>
    cases made with
    | none =>
      obtain ⟨log, hlog⟩ := @decideWith_of_none e host answers room subject hcheck w
      rw [hlog]
      exact .nobody log hcheck
    | some check =>
      obtain ⟨hresource, haction⟩ := names_of_checkFor hcheck
      have hscope : ∀ scope ∈ e.scopes check.resource, IsIdentifier scope := fun scope hs => by
        obtain rfl | rfl := mem_scopes hs
        · exact hresource
        · exact hfallback
      obtain ⟨found, log, result, after, log', hgoes, hdecide⟩ := decideWith_goesAlong answers room hcheck w
      have hcourse := (course_isPrefix e answers check found (w.asking [] log)).subset
      rw [hdecide]
      refine .scanned check found log log' result after hcheck hgoes (fun scope hload => ?_)
        fun scope action hread => ?_
      · have hplanned : scope ∈ (e.plan check found).filterMap Event.load? :=
          List.mem_filterMap.2 ⟨_, hcourse hload, rfl⟩
        rw [loads_plan] at hplanned
        exact hscope scope hplanned
      · obtain ⟨turn, hturn, hread⟩ := List.mem_flatMap.1 (hcourse hread)
        obtain ⟨rfl, hrequested⟩ := Event.read_mem_ofScope.1 hread
        refine ⟨hscope scope hturn, ?_⟩
        obtain rfl | rfl := mem_actionScopes hrequested
        · exact .inl Name.isIdentifier_everyAction
        · exact haction

theorem decideAt_usesIdentifiers (hfallback : IsIdentifier e.fallback) (depth : Nat) (subject : Value)
    (host : Option Host) (w : World) :
    e.UsesIdentifiers (e.consultation (depth - 1)) subject host w (decideAt depth e subject host w) := by
  cases depth with
  | zero => exact .refused _
  | succ depth => exact decideWith_usesIdentifiers hfallback _ _ subject host w

/-- Whatever a made engine is asked about, and whatever its conditions ask in turn: a call ends before anything
is loaded, or nothing but identifiers is loaded and read, but for an action made by hand. -/
theorem decide_usesIdentifiers {registry : Nat} {own : Option Host} {loader : Option Nat}
    {resolver : Option Resolver} {settings : Settings} {muted consulted : Bool}
    (hmade : make registry own loader resolver settings muted consulted w = (.ok e, w')) :
    (∀ target options host start,
      (∃ f, subjectOf target options host = .error f ∧ e.decide target options host start = (.error f, start)) ∨
      ∃ subject asked, subjectOf target options host = .ok (subject, asked) ∧
        e.UsesIdentifiers (e.consultation (depthLimit - 1)) subject asked start
          (e.decide target options host start)) ∧
    ∀ depth inner host start, e.UsesIdentifiers (e.consultation (depth - 1)) inner host start
      (decideAt depth e inner host start) := by
  have hfallback := isIdentifier_fallback_of_make hmade
  refine ⟨fun target options host start => ?_, decideAt_usesIdentifiers hfallback⟩
  rw [decide_eq_subject]
  cases hsubject : subjectOf target options host with
  | error f => exact .inl ⟨f, rfl, Run.bind_of_error (Run.ofExcept_run _ _)⟩
  | ok out =>
    obtain ⟨subject, asked⟩ := out
    refine .inr ⟨subject, asked, rfl, ?_⟩
    rw [Run.bind_of_ok (Run.ofExcept_run _ _)]
    exact decideAt_usesIdentifiers hfallback depthLimit subject asked start

/-- Settings in which the fallback resource is in capital letters. -/
def capitalSettings : Settings where
  fallbackResource := .text "Application"
  relativeUrlRoot := ""
  logPath := none
  logLevel := "DEBUG"
  logTag := ""
  lazyLoadPackage := none

/-- The engine made with these settings, a loader and the usual routes. -/
def capitalEngine : Engine where
  serial := 0
  registry := 0
  host := none
  loader := some 0
  adapter := Adapter.make (some (.table .standard)) ""
  fallback := "application"
  muted := true
  consulted := true

def capitalWorld : World := { World.initial with loaders := [.script [] []] }

theorem make_capitalWorld : make 0 none (some 0) (some (.table .standard)) capitalSettings true true capitalWorld =
    (.ok capitalEngine, { capitalWorld with nextEngine := 1 }) := by
  with_unfolding_all rfl

/-- The texts that each loader has been asked for. -/
def textsAsked (w : World) : List (List (Option String)) :=
  w.loaders.map fun
    | .package _ seen => seen.map Value.text?
    | .script _ asked => asked.map Value.text?

/-- A Kelvin sign becomes a plain letter before anything is loaded; a dot ends the decision. -/
theorem decide_usesIdentifiers_capitalWorld :
    (∃ subject asked, subjectOf (.text "/Boo\u212as/SHOW") [] none = .ok (subject, asked) ∧
      capitalEngine.UsesIdentifiers (capitalEngine.consultation (depthLimit - 1)) subject asked capitalWorld
        (capitalEngine.decide (.text "/Boo\u212as/SHOW") [] none capitalWorld)) ∧
    textsAsked (capitalEngine.decide (.text "/Boo\u212as/SHOW") [] none capitalWorld).2 =
      [[some "books", some "application"]] ∧
    textsAsked (capitalEngine.decide (.text "/os.path/SHOW") [] none capitalWorld).2 = [[]] := by
  refine ⟨?_, by decide +kernel, by decide +kernel⟩
  obtain ⟨hdecide, -⟩ := decide_usesIdentifiers make_capitalWorld
  obtain ⟨f, hf, -⟩ | huses := hdecide (.text "/Boo\u212as/SHOW") [] none capitalWorld
  · cases hf
  · exact huses

end Engine

end Gatehouse
