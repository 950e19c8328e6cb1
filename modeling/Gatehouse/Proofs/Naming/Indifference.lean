import Gatehouse.Proofs.Naming.Respelling

/-!
# Indifference — decisions and the spelling of names

Names are read where they come in: in declarations, in requests, from the host and from the settings. Whatever
is compared afterwards is in canonical form. Two runs of declarations and decisions that differ in the spelling
of names therefore come to the same decisions, field by field, and fail at the same steps.
-/

namespace Gatehouse

/-! ## 1. Conditions -/

theorem Condition.Respells.declare_inv {g : Grant Condition} {next c' : Condition}
    (h : Respells (.declare g next) c') :
    ∃ g' next', c' = .declare g' next' ∧ Grant.Respells g g' ∧ Respells next next' := by
  cases h with
  | same => exact ⟨g, next, rfl, .refl g, .same next⟩
  | declare hgrant hnext => exact ⟨_, _, rfl, hgrant, hnext⟩

theorem Condition.Respells.freeze_inv {next c' : Condition} (h : Respells (.freeze next) c') :
    ∃ next', c' = .freeze next' ∧ Respells next next' := by
  cases h with
  | same => exact ⟨next, rfl, .same next⟩
  | freeze hnext => exact ⟨_, rfl, hnext⟩

theorem Condition.Respells.consult_inv {target : Value} {c' : Condition} (h : Respells (.consult target) c') :
    ∃ target', c' = .consult target' ∧ target.RespellsTarget target' := by
  cases h with
  | same => exact ⟨target, rfl, .same target⟩
  | consult htarget => exact ⟨_, rfl, htarget⟩

theorem Condition.respells_ask {decide decide' : Value → Run Bool}
    (hdecide : ∀ target target', Value.RespellsTarget target target' →
      Run.Respells Eq (decide target) (decide' target')) :
    (c : Condition) → {c' : Condition} → c.Respells c' → (user object : Value) →
      Run.Respells Eq (c.ask decide user object) (c'.ask decide' user object)
  | .answer f, c', h, user, object => by
      cases h
      exact .ofExcept (.of_eq rfl)
  | .declare grant next, c', h, user, object => by
      obtain ⟨grant', next', rfl, hgrant, hnext⟩ := h.declare_inv
      unfold ask
      apply Run.Respells.home.bind
      rintro i _ rfl
      apply (Run.Respells.permit i hgrant).discard.bind
      intro _ _ _
      exact respells_ask hdecide next hnext user object
  | .freeze next, c', h, user, object => by
      obtain ⟨next', rfl, hnext⟩ := h.freeze_inv
      unfold ask
      apply Run.Respells.home.bind
      rintro i _ rfl
      apply (Run.Respells.freeze i).bind
      intro _ _ _
      exact respells_ask hdecide next hnext user object
  | .consult target, c', h, _, _ => by
      obtain ⟨target', rfl, htarget⟩ := h.consult_inv
      unfold ask
      apply (hdecide target target' htarget).bind
      rintro allowed _ rfl
      exact .pure rfl

/-! ## 2. Decisions -/

theorem Run.Respells.accord (i : Nat) :
    Run.Accord i (fun _ => Run.Respells Eq) Condition.Respells Value.RespellsTarget where
  pure _ := .pure rfl
  throw _ := .throw (.inl rfl)
  bind hrun hnext := hrun.bind fun a _ h => h ▸ hnext a
  trace level message := .change fun w w' hw => by
    cases hw with
    | intro hregistries hmodules hloaders =>
      exact .intro (w := { w with log := w.log.emit level message }) hregistries hmodules hloaders
  question q := .change fun w w' hw => by
    cases hw with
    | intro hregistries hmodules hloaders =>
      exact .intro (w := { w with calls := w.calls ++ [q] }) hregistries hmodules hloaders
  bucket resource action next next' hnext := by
    apply (Run.Respells.read fun w w' hw => Registry.bucket_matches (hw.registry i) resource action).bind
    exact hnext
  ask hdecide c c' hc user object := c.respells_ask hdecide hc user object

namespace Engine

variable {e e' : Engine} (he : Engine.Respells e e')

include he

theorem Respells.matches : Engine.Matches e.registry (fun _ => Run.Respells Eq) Value.RespellsTarget
    (Option.Rel Host.Respells) e e' where
  registry := rfl
  registry' := by rw [he.alone]
  fallback := by rw [he.alone]
  consulted := by rw [he.alone]
  trace level message := by
    have hsame : e'.trace level message = e.trace level message := by
      unfold Engine.trace
      rw [he.alone]
    rw [hsame]
    unfold Engine.trace
    cases e.muted with
    | true => exact .pure rfl
    | false => exact (Run.Respells.accord e.registry).trace level message
  load scope := by
    have hsame : e'.loader = e.loader := by rw [he.alone]
    unfold Engine.load
    rw [hsame]
    cases e.loader with
    | none => exact .pure rfl
    | some i => exact Loader.respells_ensure i (.text scope)
  status host host' hhost := by
    rw [isLoggedIn_respelled (he.hostFor hhost)]
    exact .ofExcept (.of_eq rfl)
  check target target' host host' htarget hhost :=
    .ofExcept (he.buildCheck (he.hostFor hhost) htarget)

theorem respells_decide {target target' : Value} {options options' : List (Value × Value)}
    {host host' : Option Host} (htarget : target.RespellsTarget target')
    (hoptions : List.Forall₂ Request.RespellsEntry (Value.entriesOf options) (Value.entriesOf options'))
    (hhost : Option.Rel Host.Respells host host') :
    Run.Respells Eq (e.decide target options host) (e'.decide target' options' host') := by
  rw [decide_eq_subject, decide_eq_subject]
  apply (Run.Respells.ofExcept (subjectOf_agrees hhost htarget hoptions)).bind
  intro subject subject' hsubject
  exact pair_decideAt (Run.Respells.accord _) he.matches .none (fun _ _ h => h.orNoOptions) depthLimit hsubject.1
    hsubject.2

end Engine

theorem Engine.respells_make {settings settings' : Settings} {host host' : Option Host}
    (hsettings : settings' = { settings with fallbackResource := settings'.fallbackResource })
    (hfallback : settings.fallbackResource.Respells settings'.fallbackResource)
    (hhost : Option.Rel Host.Respells host host') (registry : Nat) (loader : Option Nat)
    (resolver : Option Resolver) (muted consulted : Bool) :
    Run.Respells Engine.Respells (make registry host loader resolver settings muted consulted)
      (make registry host' loader resolver settings' muted consulted) := by
  have hroot : settings'.relativeUrlRoot = settings.relativeUrlRoot := by rw [hsettings]
  unfold make
  rw [hroot]
  apply (Run.Respells.ofExcept (Name.read_agrees .resource hfallback)).bind
  rintro fallback _ rfl
  have hserial : Run.Respells Eq (Run.read World.nextEngine) (Run.read World.nextEngine) := by
    apply Run.Respells.read
    intro w w' hw
    cases hw with
    | intro => rfl
  apply hserial.bind
  rintro serial _ rfl
  have hnumber : Run.Respells Eq (Run.change fun w => { w with nextEngine := serial + 1 })
      (Run.change fun w => { w with nextEngine := serial + 1 }) := by
    apply Run.Respells.change
    intro w w' hw
    cases hw with
    | intro hregistries hmodules hloaders =>
      exact .intro (w := { w with nextEngine := serial + 1 }) hregistries hmodules hloaders
  apply hnumber.bind
  intro _ _ _
  exact .pure ⟨rfl, hhost⟩

/-! ## 3. Sessions -/

namespace Naming

/-- What may be done with an engine and its registry. -/
inductive Step where
  | permit (g : Grant Condition)
  | decide (target : Value) (options : List (Value × Value)) (host : Option Host)

/-- What a step answers: the texts of the rules declared, or the decision. -/
inductive Answer where
  | rules (texts : List String)
  | decision (d : Decision)

/-- A step with names in another spelling. The options of a request are a mapping like any other. -/
inductive Step.Respells : Step → Step → Prop where
  | permit {g g' : Grant Condition} (h : g.Respells g') : Respells (.permit g) (.permit g')
  | decide {target target' : Value} {options options' : List (Value × Value)} {host host' : Option Host}
      (htarget : target.RespellsTarget target')
      (hoptions : List.Forall₂ Request.RespellsEntry (Value.entriesOf options) (Value.entriesOf options'))
      (hhost : Option.Rel Host.Respells host host') :
      Respells (.decide target options host) (.decide target' options' host')

def Step.run (e : Engine) : Step → Run Answer
  | .permit g => do return .rules ((← Run.permit e.registry g).map Rule.text)
  | .decide target options host => do return .decision (← e.decide target options host)

/-- The answers to steps one after the other, which go on after a fault. -/
def answers (e : Engine) : List Step → World → List (Except Fault Answer)
  | [], _ => []
  | step :: rest, w => (step.run e w).1 :: answers e rest (step.run e w).2

theorem texts_of_matches {C : Condition → Condition → Prop} {rules rules' : List Rule}
    (h : List.Forall₂ (Rule.Matches C) rules rules') : rules'.map Rule.text = rules.map Rule.text := by
  induction h with
  | nil => rfl
  | cons hr _ ih => rw [List.map_cons, List.map_cons, hr.text, ih]

theorem Step.Respells.run {e e' : Engine} (he : Engine.Respells e e') {step step' : Step}
    (h : Step.Respells step step') : Run.Respells Eq (step.run e) (step'.run e') := by
  cases h with
  | permit hg =>
    have hregistry : e'.registry = e.registry := by rw [he.alone]
    unfold Step.run
    rw [hregistry]
    apply (Run.Respells.permit e.registry hg).bind
    intro rules rules' hrules
    exact .pure (congrArg Answer.rules (texts_of_matches hrules).symm)
  | decide htarget hoptions hhost =>
    apply (Engine.respells_decide he htarget hoptions hhost).bind
    rintro decision _ rfl
    exact .pure rfl

theorem answers_respell {e e' : Engine} (he : Engine.Respells e e') {steps steps' : List Step}
    (hsteps : List.Forall₂ Step.Respells steps steps') {w w' : World} (hw : w.Respells w') :
    List.Forall₂ (Agree Eq) (answers e steps w) (answers e' steps' w') := by
  -- Induction on the steps: each of them leaves states that differ in the spelling of names only.
  induction hsteps generalizing w w' with
  | nil => exact .nil
  | cons hstep _ ih =>
    obtain ⟨hanswer, hafter⟩ := hstep.run he w w' hw
    exact .cons hanswer (ih hafter)

/-- An engine and what is done with it: the answers step by step, unless there is no such engine. -/
def session (registry : Nat) (host : Option Host) (loader : Option Nat) (resolver : Option Resolver)
    (settings : Settings) (muted consulted : Bool) (steps : List Step) (w : World) :
    Except Fault (List (Except Fault Answer)) :=
  match Engine.make registry host loader resolver settings muted consulted w with
  | (.ok e, after) => .ok (answers e steps after)
  | (.error f, _) => .error f

/-- Names may be spelled in any way: in declarations, those of rule modules and conditions included, in mappings, in
what the host says and in the settings. Step by step the answers are equal, or both are misconfigurations. -/
theorem session_respell {settings settings' : Settings} {host host' : Option Host} {steps steps' : List Step}
    {w w' : World} (hw : w.Respells w')
    (hsettings : settings' = { settings with fallbackResource := settings'.fallbackResource })
    (hfallback : settings.fallbackResource.Respells settings'.fallbackResource)
    (hhost : Option.Rel Host.Respells host host') (hsteps : List.Forall₂ Step.Respells steps steps')
    (registry : Nat) (loader : Option Nat) (resolver : Option Resolver) (muted consulted : Bool) :
    Agree (List.Forall₂ (Agree Eq)) (session registry host loader resolver settings muted consulted steps w)
      (session registry host' loader resolver settings' muted consulted steps' w') := by
  have hmake := Engine.respells_make hsettings hfallback hhost registry loader resolver muted consulted w w' hw
  unfold session
  generalize Engine.make registry host loader resolver settings muted consulted w = made at hmake
  generalize Engine.make registry host' loader resolver settings' muted consulted w' = made' at hmake
  obtain ⟨result, after⟩ := made
  obtain ⟨result', after'⟩ := made'
  obtain ⟨hresult, hafter⟩ := hmake
  cases hresult with
  | error h => exact .error h
  | ok he => exact .ok (answers_respell he hsteps hafter)

/-- Whether the answers are grants. -/
def allowed? (outcome : Except Fault (List (Except Fault Answer))) : Option (List (Option Bool)) :=
  outcome.toOption.map fun answers => answers.map fun
    | .ok (.decision d) => some d.allowed
    | _ => none

def plainSettings (fallback : String) : Settings where
  fallbackResource := .text fallback
  relativeUrlRoot := ""
  logPath := none
  logLevel := "DEBUG"
  logTag := ""
  lazyLoadPackage := none

/-- A declaration for the whole application, one for products, and a request. -/
def sampleSteps (application products : String) (edit viewing : Value) : List Step :=
  [.permit ⟨.text application, edit, .text "admin", .absent, .null⟩,
    .permit ⟨.text products, .list [edit, viewing], .all, .absent, .null⟩,
    .decide (.dict [(.text "resource", .text products), (.text "action", viewing)]) [] none]

def plainSteps : List Step := sampleSteps "application" "products" (.text "edit") (.text "show")

/-- The same with capital letters, blanks and members of a group. -/
def fancySteps : List Step :=
  sampleSteps " Application" "PRODUCTS\n" (.textMember "Deed" "EDIT" "Edit") (.member "Deed" "SHOW" (.text "SHOW") "")

theorem fancySteps_respell : List.Forall₂ Step.Respells plainSteps fancySteps := by
  have happlication : Value.Respells (.text "application") (.text " Application") :=
    Value.respells_text (by decide +kernel)
  have hproducts : Value.Respells (.text "products") (.text "PRODUCTS\n") :=
    Value.respells_text (by decide +kernel)
  have hedit : Value.Respells (.text "edit") (.textMember "Deed" "EDIT" "Edit") :=
    .inr ⟨"edit", by decide +kernel, by decide +kernel⟩
  have hshow : Value.Respells (.text "show") (.member "Deed" "SHOW" (.text "SHOW") "") :=
    .inr ⟨"show", by decide +kernel, by decide +kernel⟩
  have hresource : Request.RespellsEntry (.text "resource", .text "products")
      (.text "resource", .text "PRODUCTS\n") := .text (by decide) hproducts
  have haction : Request.RespellsEntry (.text "action", .text "show")
      (.text "action", .member "Deed" "SHOW" (.text "SHOW") "") := .text (by decide) hshow
  refine .cons (.permit ?_) (.cons (.permit ?_) (.cons (.decide ?_ .nil .none) .nil))
  · exact .intro _ _ happlication (.one hedit rfl rfl) .absent
  · exact .intro _ _ hproducts (.each rfl rfl (.cons hedit (.cons hshow .nil)) rfl) .absent
  · exact .mapping (.cons hresource (.cons haction .nil))

theorem session_respell_fancySteps :
    World.Respells World.initial World.initial ∧ List.Forall₂ Step.Respells plainSteps fancySteps ∧
      Agree (List.Forall₂ (Agree Eq))
        (session 0 none none none (plainSettings "application") true true plainSteps World.initial)
        (session 0 none none none (plainSettings "Application ") true true fancySteps World.initial) ∧
      allowed? (session 0 none none none (plainSettings "application") true true plainSteps World.initial) =
        some [none, none, some true] := by
  have hworld : World.Respells World.initial World.initial :=
    .intro (.cons (.refl .same _) .nil) .nil .nil
  have hfallback : Value.Respells (.text "application") (.text "Application ") :=
    Value.respells_text (by decide +kernel)
  exact ⟨hworld, fancySteps_respell,
    session_respell hworld rfl hfallback .none fancySteps_respell 0 none none true true, by decide +kernel⟩

/-- A key that equals the name of an option and is written like the name of an id: what stands under it names the
resource and is an object id as well, so that a condition may be asked about it as it is written. -/
theorem session_respell_fails_under_id_key :
    let steps (products : String) : List Step :=
      [.permit ⟨.text "products", .text "show", .all, .callable (.objectIs (.text "products")), .text "E.x_id"⟩,
        .decide (.dict [(.textMember "E" "x_id" "resource", .text products), (.text "action", .text "show")])
          [] none]
    Name.canonical " Products " = Name.canonical "products" ∧
      allowed? (session 0 none none none (plainSettings "application") true true (steps "products")
        World.initial) = some [none, some true] ∧
      allowed? (session 0 none none none (plainSettings "application") true true (steps " Products ")
        World.initial) = some [none, some false] := by
  refine ⟨by decide +kernel, by decide +kernel, by decide +kernel⟩

end Naming

end Gatehouse
