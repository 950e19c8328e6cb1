import Gatehouse.Proofs.Loading.Quiet

/-!
# Transparency — loading on demand changes no answer

An engine that loads rules on demand and one without a loader, over a registry for which every module has
been imported beforehand, give the same answers to the same requests, whatever came before each of them.
The one difference is the number of the rule that a grant names: numbers follow the order of declaration.
-/

namespace Gatehouse

/-! ## 1. Answers but for the numbers of rules -/

/-- A decision but for the text of the rule, which has the rule's number in it. -/
def Decision.withoutRule (d : Decision) : Decision := { d with matchedRule := none }

def Progress.withoutRule : Progress → Progress
  | .granted decision => .granted decision.withoutRule
  | .tried count => .tried count

def Candidate.unnumbered (c : Candidate) : Candidate := { c with rule := c.rule.unnumbered }

theorem Progress.decision_withoutRule (check : Check) (p : Progress) :
    p.withoutRule.decision check = (p.decision check).withoutRule := by
  cases p <;> rfl

section

variable {check : Check} {x : Except Fault Progress}

/-- Nothing but the text of the rule granted by depends on numbers. -/
theorem walk_unnumbered (check : Check) (cs : List Candidate) (tried : Nat) :
    (walk check (cs.map Candidate.unnumbered) tried).map Progress.withoutRule =
      (walk check cs tried).map Progress.withoutRule := by
  induction cs generalizing tried with
  | nil => rfl
  | cons c rest ih =>
    rw [List.map_cons, walk, walk, show c.unnumbered.verdict check = c.verdict check from rfl]
    cases c.verdict check with
    | error f => rfl
    | ok admitted =>
      cases admitted with
      | true => rfl
      | false => exact ih (tried + 1)

theorem eq_error_of_alike {f : Fault}
    (h : (Except.error f).map Progress.withoutRule = x.map Progress.withoutRule) :
    x = .error f := by
  cases x with
  | error f' =>
    cases h
    rfl
  | ok progress => cases h

theorem eq_tried_of_alike {count : Nat}
    (h : (Except.ok (.tried count)).map Progress.withoutRule =
      x.map Progress.withoutRule) : x = .ok (.tried count) := by
  cases x with
  | error f => cases h
  | ok progress =>
    cases progress with
    | granted decision => cases h
    | tried count' =>
      cases h
      rfl

theorem eq_granted_of_alike {decision : Decision}
    (h : (Except.ok (.granted decision)).map Progress.withoutRule =
      x.map Progress.withoutRule) : ∃ decision', x = .ok (.granted decision') := by
  cases x with
  | error f => cases h
  | ok progress =>
    cases progress with
    | granted decision' => exact ⟨decision', rfl⟩
    | tried count => cases h

end

/-- The candidates of one resource are alike if what it holds is. -/
theorem Registry.walk_alike {reg reg' : Registry} {scope : String}
    (h : ∀ action, reg.contents scope action = reg'.contents scope action) (check : Check)
    (actions : List String) (tried : Nat) :
    (walk check (actions.flatMap (reg.candidatesAt scope)) tried).map Progress.withoutRule =
      (walk check (actions.flatMap (reg'.candidatesAt scope)) tried).map Progress.withoutRule := by
  have hplace : ∀ (reg : Registry) (action : String),
      (reg.candidatesAt scope action).map Candidate.unnumbered =
        candidates scope action (reg.contents scope action) := by
    intro reg action
    unfold candidatesAt candidates contents
    rw [List.map_map, List.map_map]
    rfl
  rw [← walk_unnumbered check (actions.flatMap (reg.candidatesAt scope)),
    ← walk_unnumbered check (actions.flatMap (reg'.candidatesAt scope)), List.map_flatMap,
    List.map_flatMap]
  simp only [hplace, h]

theorem Registry.isPlain_of_contents {reg : Registry}
    (h : ∀ scope action, ∀ r ∈ reg.contents scope action, r.IsPlain) {scope action : String} :
    ∀ r ∈ reg.bucket scope action, r.IsPlain := fun r hr =>
  h scope action r.unnumbered (List.mem_map_of_mem hr)

/-! ## 2. Scans -/

section

variable {start w : World} {package : String} {j : Nat} {e : Engine} {reg : Registry}

/-- What a scan with a loader needs: what it loads goes into the engine's registry, which then holds what
the registry has that everything was imported into. -/
structure Engine.LoadsAs (e : Engine) (start : World) (package : String) (j : Nat)
    (reg : Registry) : Prop where
  loader : e.loader = some j
  tree : start.library.IsTree package
  serves : start.Serves e.registry package
  quiet : start.ImportsQuietly
  contents : ∀ w, start.IsLater package j w → ∀ scope, w.IsSettled package scope → ∀ action,
    (w.registry e.registry).contents scope action = reg.contents scope action
  plain : ∀ scope action, ∀ r ∈ reg.contents scope action, r.IsPlain

/-- Resource by resource, a scan with a loader comes as far as the walk along what was imported
beforehand. -/
theorem Engine.scanScopes_loading (h : e.LoadsAs start package j reg) (decide : Value → Run Bool)
    (check : Check) {scopes : List String} (hscopes : ∀ scope ∈ scopes, '.' ∉ scope.toList) (tried : Nat)
    (hw : start.IsLater package j w) :
    ∃ progress after, e.scanScopes decide check scopes tried w = (progress, after) ∧
      start.IsLater package j after ∧
      progress.map Progress.withoutRule =
        (walk check (scopes.flatMap fun scope =>
          (actionScopes check.action).flatMap (reg.candidatesAt scope)) tried).map
            Progress.withoutRule := by
  -- Induction on the resources still to come. The state is a later one at each of them, and before its
  -- buckets are read it is settled, so they hold what everything imported beforehand would have given.
  induction scopes generalizing tried w with
  | nil => exact ⟨.ok (.tried tried), w, rfl, hw, rfl⟩
  | cons scope rest ih =>
    obtain ⟨log, hlog⟩ := e.trace_run .debug (.ok ("current resource: " ++ scope)) w
    obtain ⟨mid, hensure, hmid, hsettled⟩ := Loader.ensure_run h.tree h.serves h.quiet
      (World.isLater_asking hw [] log) (hscopes scope List.mem_cons_self)
    have hload : e.load scope (w.asking [] log) = (.ok (), mid) := by
      unfold load
      rw [h.loader]
      exact hensure
    have hcontents := h.contents mid hmid scope hsettled
    have hplain : ∀ action ∈ actionScopes check.action,
        ∀ r ∈ (mid.registry e.registry).bucket scope action, r.IsPlain := by
      intro action _ r hr
      refine h.plain scope action r.unnumbered ?_
      rw [← hcontents]
      exact List.mem_map_of_mem hr
    obtain ⟨log', hscan⟩ := e.scanActions_run decide check scope hplain tried (w := mid) rfl
    have halike := Registry.walk_alike hcontents check (actionScopes check.action) tried
    have hlast := World.isLater_asking hmid (asked check ((actionScopes check.action).flatMap
      ((mid.registry e.registry).candidatesAt scope))) log'
    rw [scanScopes_cons, Run.bind_of_ok hlog, Run.bind_of_ok hload, List.flatMap_cons, walk_append]
    -- Both walks end here in the same way, or go on to the next resource with the same count.
    cases hwalk : walk check ((actionScopes check.action).flatMap
        ((mid.registry e.registry).candidatesAt scope)) tried with
    | error f =>
      rw [hwalk] at hscan halike
      rw [eq_error_of_alike halike]
      exact ⟨_, _, Run.bind_of_error hscan, hlast, rfl⟩
    | ok progress =>
      rw [hwalk] at hscan halike
      rw [Run.bind_of_ok hscan]
      cases progress with
      | granted decision =>
        obtain ⟨decision', hgranted⟩ := eq_granted_of_alike halike
        rw [hgranted] at halike ⊢
        exact ⟨_, _, rfl, hlast, halike⟩
      | tried count =>
        rw [eq_tried_of_alike halike]
        exact ih (fun s hs => hscopes s (List.mem_cons_of_mem scope hs)) count hlast

end

/-! ## 3. Decisions -/

theorem Name.dot_not_mem {s : String} (h : isWellFormed s.toList = true) : '.' ∉ s.toList := by
  intro hmem
  have hdot : isTail '.' = true := isTail_of_mem h hmem
  exact absurd hdot (by decide)

namespace Engine

variable {e : Engine} {target : Value} {options : List (Value × Value)} {host : Option Host}
  {check : Check}

theorem isWellFormed_of_complete {request : Request} (h : complete request host = .ok check) :
    Name.isWellFormed check.resource.toList = true := by
  unfold complete at h
  dsimp only at h
  -- Wherever user and resource come from, the resource is read as a name at last.
  split at h
  all_goals
    obtain ⟨user, -, h⟩ := bind_eq_ok_iff.1 h
    split at h
    · cases h
    all_goals
      obtain ⟨resource, -, h⟩ := bind_eq_ok_iff.1 h
      split at h
      · cases h
      · obtain ⟨name, hname, h⟩ := bind_eq_ok_iff.1 h
        obtain ⟨action, -, h⟩ := bind_eq_ok_iff.1 h
        cases h
        exact Name.isWellFormed_of_read hname

theorem isWellFormed_of_checkOf (h : e.checkOf target options host = .ok (some check)) :
    Name.isWellFormed check.resource.toList = true := by
  unfold checkOf at h
  obtain ⟨subject, -, h⟩ := bind_eq_ok_iff.1 h
  unfold checkFor at h
  obtain ⟨logged, -, h⟩ := bind_eq_ok_iff.1 h
  cases logged with
  | false => cases h
  | true =>
    obtain ⟨found, hbuild, h⟩ := bind_eq_ok_iff.1 h
    cases h
    unfold buildCheck at hbuild
    obtain ⟨request, -, hcomplete⟩ := bind_eq_ok_iff.1 hbuild
    exact isWellFormed_of_complete hcomplete

/-- The engine with everything but its loader. -/
def withoutLoader (e : Engine) : Engine := { e with loader := none }

theorem checkOf_withoutLoader (e : Engine) (target : Value) (options : List (Value × Value))
    (host : Option Host) : e.withoutLoader.checkOf target options host = e.checkOf target options host :=
  rfl

theorem dot_not_mem_scopes (hfallback : Name.isWellFormed e.fallback.toList = true)
    (hcheck : e.checkOf target options host = .ok (some check)) :
    ∀ scope ∈ e.scopes check.resource, '.' ∉ scope.toList := by
  have hresource := Name.dot_not_mem (isWellFormed_of_checkOf hcheck)
  unfold scopes
  intro scope hscope
  split at hscope
  · rw [List.mem_singleton.1 hscope]
    exact hresource
  · rcases List.mem_cons.1 hscope with rfl | hscope
    · exact hresource
    · rw [List.mem_singleton.1 hscope]
      exact Name.dot_not_mem hfallback

theorem decided_alike {x y : Except Fault Progress}
    (h : x.map Progress.withoutRule = y.map Progress.withoutRule) :
    (x.map (Progress.decision check)).map Decision.withoutRule =
      (y.map (Progress.decision check)).map Decision.withoutRule := by
  have hcommute : ∀ x : Except Fault Progress,
      (x.map (Progress.decision check)).map Decision.withoutRule =
        (x.map Progress.withoutRule).map (Progress.decision check) := by
    intro x
    cases x with
    | error f => rfl
    | ok progress => exact congrArg Except.ok (Progress.decision_withoutRule check progress).symm
  rw [hcommute, hcommute, h]

variable {start w w' : World} {package : String} {j : Nat} {reg : Registry}

/-- One request, with and without a loader: the answers are alike, and afterwards both states are as good
for the next request as these were. -/
theorem decide_loading (h : e.LoadsAs start package j reg)
    (hfallback : Name.isWellFormed e.fallback.toList = true) (hw : start.IsLater package j w)
    (hreg : w'.registry e.registry = reg) (target : Value) (options : List (Value × Value))
    (host : Option Host) :
    ((e.decide target options host w).1.map Decision.withoutRule =
        (e.withoutLoader.decide target options host w').1.map Decision.withoutRule) ∧
      start.IsLater package j (e.decide target options host w).2 ∧
      (e.withoutLoader.decide target options host w').2.registry e.registry = reg := by
  have hsame := checkOf_withoutLoader e target options host
  -- Whether there is a request at all does not depend on the loader.
  cases hcheck : e.checkOf target options host with
  | error f =>
    rw [decide_of_error hcheck, decide_of_error (hsame.trans hcheck)]
    exact ⟨rfl, hw, hreg⟩
  | ok found =>
    cases found with
    | none =>
      obtain ⟨log, hlazy⟩ := decide_of_none hcheck w
      obtain ⟨log', heager⟩ := decide_of_none (hsame.trans hcheck) w'
      rw [hlazy, heager]
      exact ⟨rfl, World.isLater_asking hw [] log, hreg⟩
    | some check =>
      obtain ⟨log, hlazy⟩ := decide_of_check hcheck w
      obtain ⟨progress, after, hscan, hlater, halike⟩ := scanScopes_loading h
        (e.consultation (depthLimit - 1)) check (dot_not_mem_scopes hfallback hcheck) 0
        (World.isLater_asking hw [] log)
      obtain ⟨log', hrun⟩ := hlazy _ _ (scan_run hscan)
      have hplain : ∀ c ∈ e.withoutLoader.candidates (w'.registry e.registry) check,
          c.rule.IsPlain := by
        intro c hc
        rw [hreg] at hc
        exact Registry.isPlain_of_contents h.plain _ (mem_candidates_iff.1 hc).2.2
      obtain ⟨log'', heager⟩ := decide_run (e := e.withoutLoader) (w := w') rfl
        (hsame.trans hcheck) hplain
      rw [hrun, heager]
      refine ⟨?_, World.isLater_asking hlater [] log', hreg⟩
      rw [← candidates_eq, ← hreg] at halike
      change (progress.map (Progress.decision check)).map Decision.withoutRule =
        ((walk check (e.candidates (w'.registry e.registry) check) 0).map
          (Progress.decision check)).map Decision.withoutRule
      rw [decided_alike halike]

/-! ## 4. Runs of requests -/

/-- What a decision is asked for with. -/
structure Call where
  target : Value
  options : List (Value × Value)
  host : Option Host

/-- The answers to calls, one after the other. -/
def answers (e : Engine) : List Call → World → List (Except Fault Decision)
  | [], _ => []
  | call :: rest, w =>
      (e.decide call.target call.options call.host w).1 ::
        answers e rest (e.decide call.target call.options call.host w).2

theorem answers_loading (h : e.LoadsAs start package j reg)
    (hfallback : Name.isWellFormed e.fallback.toList = true) (calls : List Call)
    (hw : start.IsLater package j w) (hreg : w'.registry e.registry = reg) :
    (e.answers calls w).map (Except.map Decision.withoutRule) =
      (e.withoutLoader.answers calls w').map (Except.map Decision.withoutRule) := by
  induction calls generalizing w w' with
  | nil => rfl
  | cons call rest ih =>
    obtain ⟨halike, hlater, hreg'⟩ :=
      decide_loading h hfallback hw hreg call.target call.options call.host
    rw [answers, answers, List.map_cons, List.map_cons, halike, ih hlater hreg']

/-- What everything imported beforehand amounts to is what is loaded on demand, resource by resource. -/
theorem loadsAs_of_importAll {order : List String} {eager : World} (hloader : e.loader = some j)
    (hseen : start.loaders[j]? = some (.package package []))
    (htree : start.library.IsTree package) (hserves : start.Serves e.registry package)
    (hquiet : start.ImportsQuietly)
    (hplain : ∀ scope action, ∀ r ∈ (start.registry e.registry).bucket scope action, r.IsPlain)
    (hall : ∀ name, name ∈ order ↔ start.library.Has name)
    (heager : Library.importAll order start = (.ok (), eager)) :
    e.LoadsAs start package j (eager.registry e.registry) := by
  -- The state after all imports is itself a later state, in which every resource is settled.
  have hlater : start.IsLater package j eager :=
    World.isLater_importAll hseen (fun name hname => (hall name).1 hname) heager
  have hsettled : ∀ scope, eager.IsSettled package scope := by
    intro scope
    obtain ⟨hgrows, hnames⟩ := Library.grows_importAll hserves heager
    by_cases hhas : start.library.Has (package ++ "." ++ scope)
    · exact .inl (hnames _ ((hall _).2 hhas))
    · exact .inr fun hthere => hhas ((Library.has_congr hgrows.modules _).1 hthere)
  refine ⟨hloader, htree, hserves, hquiet, ?_, ?_⟩
  · intro w hw scope hscope action
    rw [World.contents_of_isLater hserves hw hscope,
      World.contents_of_isLater hserves hlater (hsettled scope)]
  · intro scope action r hr
    rw [World.contents_of_isLater hserves hlater (hsettled scope)] at hr
    -- A rule was there at the start, or a module of the tree declares it.
    rcases List.mem_append.1 hr with hr | hr
    · obtain ⟨r', hr', rfl⟩ := List.mem_map.1 hr
      exact hplain scope action r' hr'
    · split at hr
      · exact absurd hr List.not_mem_nil
      · exact htree.isPlain_of_mem_rulesOf hr

/-- An engine whose loader imports the modules of a tree on demand answers every run of requests as the same
engine without a loader does after all modules have been imported, in any order. -/
theorem answers_eq_of_importAll (hloader : e.loader = some j)
    (hseen : start.loaders[j]? = some (.package package []))
    (hfallback : Name.isWellFormed e.fallback.toList = true) (hhome : start.home = some e.registry)
    (hcount : e.registry < start.registries.length) (htree : start.library.IsTree package)
    (hquiet : start.ImportsQuietly)
    (hplain : ∀ scope action, ∀ r ∈ (start.registry e.registry).bucket scope action, r.IsPlain)
    (order : List String) (hall : ∀ name, name ∈ order ↔ start.library.Has name) :
    ∃ eager, Library.importAll order start = (.ok (), eager) ∧ ∀ calls,
      (e.answers calls start).map (Except.map Decision.withoutRule) =
        (e.withoutLoader.answers calls eager).map (Except.map Decision.withoutRule) := by
  obtain ⟨eager, heager⟩ := hquiet order fun name hname => (hall name).1 hname
  have hserves : start.Serves e.registry package := ⟨hhome, hcount, htree.own⟩
  have hloads := loadsAs_of_importAll hloader hseen htree hserves hquiet hplain hall heager
  exact ⟨eager, heager, fun calls =>
    answers_loading hloads hfallback calls (World.isLater_start hseen) rfl⟩

/-! ## 5. Two modules that import each other -/

def loadingGrants : List (Grant Condition) :=
  [⟨.text "Products", .text "show", .text "admin", .callable (.objectIs (.int 7)), .text "product_id"⟩,
    ⟨.text "orders", .all, .all, .absent, .null⟩]

def loadingModules : List RuleModule :=
  [⟨"rules", []⟩, ⟨"rules.products", [.bring "rules.orders", .permit loadingGrants[0]]⟩,
    ⟨"rules.orders", [.permit loadingGrants[1], .bring "rules.products"]⟩]

/-- Editors may show anything from the start; the rest is left to the modules. -/
def loadingWorld : World :=
  { World.initial with
    registries := [⟨[("application", [("show", [⟨0, .among [.text "editor"], none, "id"⟩])])], false⟩]
    nextRule := 1
    library := ⟨loadingModules, [], []⟩
    loaders := [.package "rules" []] }

def loadingSample : Engine := { sample with loader := some 0 }

theorem forall_mem_loadingModules {p : RuleModule → Prop} (h0 : p loadingModules[0])
    (h1 : p loadingModules[1]) (h2 : p loadingModules[2]) : ∀ m ∈ loadingModules, p m := by
  intro m hm
  simp only [loadingModules, List.mem_cons, List.not_mem_nil, or_false] at hm
  rcases hm with rfl | rfl | rfl
  · exact h0
  · exact h1
  · exact h2

theorem resource_of_loadingGrants :
    Name.resource loadingGrants[0].resource = .ok "products" ∧
      Name.resource loadingGrants[1].resource = .ok "orders" :=
  ⟨by with_unfolding_all rfl, by with_unfolding_all rfl⟩

theorem isTree_loadingWorld : loadingWorld.library.IsTree "rules" where
  rooted := ⟨loadingModules[0], List.getElem_mem _, rfl⟩
  shallow := by decide +kernel
  own := by
    obtain ⟨hproducts, horders⟩ := resource_of_loadingGrants
    refine forall_mem_loadingModules ?_ ?_ ?_
    · exact fun g hg => absurd hg List.not_mem_nil
    · intro g hg resource hresource
      have hg : g = loadingGrants[0] := by simpa [loadingModules] using hg
      rw [hg, hproducts] at hresource
      cases hresource
      rfl
    · intro g hg resource hresource
      have hg : g = loadingGrants[1] := by simpa [loadingModules] using hg
      rw [hg, horders] at hresource
      cases hresource
      rfl
  plain := by
    refine forall_mem_loadingModules ?_ ?_ ?_
    · exact fun g hg => absurd hg List.not_mem_nil
    · intro g hg c hc
      have hg : g = loadingGrants[0] := by simpa [loadingModules] using hg
      rw [hg] at hc
      cases hc
      exact ⟨_, rfl⟩
    · intro g hg c hc
      have hg : g = loadingGrants[1] := by simpa [loadingModules] using hg
      rw [hg] at hc
      cases hc

theorem isSound_loadingWorld : loadingWorld.library.IsSound where
  named := forall_mem_loadingModules (by decide +kernel) (by decide +kernel) (by decide +kernel)
  above := by
    unfold Library.Has
    exact forall_mem_loadingModules (by decide +kernel) (by decide +kernel) (by decide +kernel)
  found := forall_mem_loadingModules
    ⟨loadingModules[0], List.getElem_mem _, by with_unfolding_all rfl⟩
    ⟨loadingModules[1], List.getElem_mem _, by with_unfolding_all rfl⟩
    ⟨loadingModules[2], List.getElem_mem _, by with_unfolding_all rfl⟩
  statements := by
    have hproducts : ∃ out, Registry.empty.permit 0 loadingGrants[0] = .ok out :=
      ⟨_, by with_unfolding_all rfl⟩
    have horders : ∃ out, Registry.empty.permit 0 loadingGrants[1] = .ok out :=
      ⟨_, by with_unfolding_all rfl⟩
    refine forall_mem_loadingModules ?_ ?_ ?_
    · exact fun st hst => absurd hst List.not_mem_nil
    · intro st hst
      rcases List.mem_cons.1 hst with rfl | hst
      · exact ⟨loadingModules[2], List.getElem_mem _, rfl⟩
      · rw [List.mem_singleton.1 hst]
        exact hproducts
    · intro st hst
      rcases List.mem_cons.1 hst with rfl | hst
      · exact horders
      · rw [List.mem_singleton.1 hst]
        exact ⟨loadingModules[1], List.getElem_mem _, rfl⟩
  few := by decide

theorem answers_eq_of_importAll_sample :
    ∃ eager, Library.importAll (loadingModules.map RuleModule.name) loadingWorld = (.ok (), eager) ∧
      ∀ calls, (loadingSample.answers calls loadingWorld).map (Except.map Decision.withoutRule) =
        (loadingSample.withoutLoader.answers calls eager).map
          (Except.map Decision.withoutRule) := by
  have hquiet : loadingWorld.ImportsQuietly :=
    World.importsQuietly_of_isSound (i := 0) isSound_loadingWorld rfl (by decide) rfl
  have hplain : ∀ scope action,
      ∀ r ∈ (loadingWorld.registry loadingSample.registry).bucket scope action, r.IsPlain := by
    intro scope action r hr c hc
    change r ∈ Buckets.get (if "application" = scope then _ else []) action at hr
    split at hr
    · change r ∈ (if "show" = action then _ else []) at hr
      split at hr
      · rw [List.mem_singleton.1 hr] at hc
        cases hc
      · exact absurd hr List.not_mem_nil
    · exact absurd hr List.not_mem_nil
  exact answers_eq_of_importAll (e := loadingSample) (j := 0) rfl rfl
    (by decide +kernel) rfl (by decide) isTree_loadingWorld hquiet hplain
    (loadingModules.map RuleModule.name) fun name => List.mem_map

/-- The rule that grants this has been loaded on the way. -/
example : ((loadingSample.answers [⟨.null, sampleOptions, none⟩] loadingWorld).all fun answer =>
    answer.toOption.any fun d => d.matchedResource == some "products") = true := by
  decide +kernel

end Engine

end Gatehouse
