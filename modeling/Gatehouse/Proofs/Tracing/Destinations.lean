import Gatehouse.Shared
import Gatehouse.Proofs.Fields
import Gatehouse.Proofs.Tracing.Attached
import Gatehouse.Proofs.Tracing.Coupled

/-!
# Destinations — where the trace goes, and what else hangs on it

Path, level and tag of the trace log are settings among others. Environments that agree on the other
settings give settings that agree on them, and an engine is made of those only. What is left of the
destination is whether the trace can be set up: the library's handler is attached, or it can be. No line
changes that, and once the handler is attached it stays.
-/

namespace Gatehouse

open Trace (Log Level)
open Run (Coupled)

/-! ## 1. Settings from the environment -/

namespace Settings

/-- The settings that are not about the trace log. -/
def otherNames : List String := ["fallback_resource", "relative_url_root", "lazy_load_package"]

/-- Settings that differ at most in the trace log. -/
structure AgreeButLog (s s' : Settings) : Prop where
  fallbackResource : s'.fallbackResource = s.fallbackResource
  relativeUrlRoot : s'.relativeUrlRoot = s.relativeUrlRoot
  lazyLoadPackage : s'.lazyLoadPackage = s.lazyLoadPackage

/-- The settings that an environment gives in the customary way, if they are valid. -/
def ofEnvironment (env : Environment) : Except Fault Settings := load env (.usual env) []

theorem ofEnvironment_eq (env : Environment) :
    ofEnvironment env = ofFields ((Reading.usual env).found env) := by
  -- Nothing is given by name, and there are no arguments.
  change ofFields ((Reading.usual env).found env ++ [] ++ []) = _
  rw [List.append_nil, List.append_nil]

theorem given?_found_usual (env : Environment) {name : String} (h : name ∈ names) :
    Field.given? ((Reading.usual env).found env) name =
      ((Reading.usual env).variableOf? env name).map (ofWritten .null) := by
  have hsecrets : names.filterMap
      (fun name => ((Reading.usual env).secret? name).map fun s => (name, Value.text s)) = [] := by
    rw [List.filterMap_eq_nil_iff]
    exact fun _ _ => rfl
  have hnodup : names.Nodup := by decide
  unfold Reading.found
  rw [hsecrets, List.nil_append]
  have hlook := Field.given?_filterMap hnodup
    (fun n => ((Reading.usual env).variableOf? env n).map (ofWritten .null)) h
  simp only [Option.map_map] at hlook
  exact hlook

theorem fields_of_ofFields {fields : List (String × Value)} {s : Settings} (h : ofFields fields = .ok s) :
    (Field.optional "application" Field.text fields "fallback_resource").map Value.text =
        .ok s.fallbackResource ∧
      Field.optional "" Field.text fields "relative_url_root" = .ok s.relativeUrlRoot ∧
      Field.optional none Field.textOrNull fields "lazy_load_package" = .ok s.lazyLoadPackage := by
  unfold ofFields at h
  dsimp only at h
  split at h
  · rename_i hfallback hroot hpath hlevel htag hpackage
    cases h
    exact ⟨by rw [hfallback]; rfl, hroot, hpackage⟩
  · cases h

end Settings

/-- Environments that agree on all settings but those of the trace log. -/
def Environment.AgreeButLog (env env' : Environment) : Prop :=
  ∀ name ∈ Settings.otherNames,
    (Settings.Reading.usual env').variableOf? env' name = (Settings.Reading.usual env).variableOf? env name

instance (env env' : Environment) : Decidable (env.AgreeButLog env') :=
  inferInstanceAs (Decidable (∀ name ∈ Settings.otherNames, _))

theorem Settings.agreeButLog_of_environment {env env' : Environment} {s s' : Settings}
    (hagree : env.AgreeButLog env') (h : ofEnvironment env = .ok s) (h' : ofEnvironment env' = .ok s') :
    s.AgreeButLog s' := by
  rw [ofEnvironment_eq] at h h'
  obtain ⟨hfallback, hroot, hpackage⟩ := fields_of_ofFields h
  obtain ⟨hfallback', hroot', hpackage'⟩ := fields_of_ofFields h'
  have hgiven : ∀ name ∈ otherNames, Field.given? ((Reading.usual env').found env') name =
      Field.given? ((Reading.usual env).found env) name := by
    intro name hname
    have hmem : name ∈ names := by
      have hsub : ∀ n ∈ otherNames, n ∈ names := by decide
      exact hsub name hname
    rw [given?_found_usual env' hmem, given?_found_usual env hmem, hagree name hname]
  constructor
  · rw [Field.optional_congr (hgiven "fallback_resource" (by decide)), hfallback] at hfallback'
    exact (Except.ok.inj hfallback').symm
  · rw [Field.optional_congr (hgiven "relative_url_root" (by decide)), hroot] at hroot'
    exact (Except.ok.inj hroot').symm
  · rw [Field.optional_congr (hgiven "lazy_load_package" (by decide)), hpackage] at hpackage'
    exact (Except.ok.inj hpackage').symm

/-! ## 2. Setting up the trace -/

namespace Trace.Log

/-- The library's handler is attached, or it can be attached as settings ask for it. -/
def CanTrace (log : Log) (s : Settings) : Prop := (log.ensure s.logPath s.logRank s.logTag).1 = .ok ()

/-- Whether a handler can be attached is up to the files. -/
theorem configure_congr {log log' : Log} (h : log'.files = log.files) (path : Option String) (level : Int)
    (tag : String) : (log'.configure path level tag).1 = (log.configure path level tag).1 := by
  unfold configure
  dsimp only
  rw [h]
  split
  · rfl
  · split
    · rfl
    · split
      · rfl
      · split
        · rfl
        · split <;> rfl

theorem isOwn_of_configure {log : Log} {path : Option String} {level : Int} {tag : String}
    (h : (log.configure path level tag).1 = .ok ()) :
    (log.configure path level tag).2.handlers.any Handler.isOwn = true := by
  have hconfigures := log.configures path level tag
  rw [h] at hconfigures
  have hown := hconfigures.own_of_ok
  cases hany : (log.configure path level tag).2.handlers.any Handler.isOwn with
  | true => rfl
  | false =>
    rw [any_isOwn_eq_false_iff.1 hany] at hown
    cases hown

theorem isOwn_of_ensure {log : Log} {path : Option String} {level : Int} {tag : String}
    (h : (log.ensure path level tag).1 = .ok ()) :
    (log.ensure path level tag).2.handlers.any Handler.isOwn = true := by
  unfold ensure at h ⊢
  split
  · rename_i hown
    exact hown
  · rename_i hown
    rw [if_neg hown] at h
    exact isOwn_of_configure h

/-- Only the library's handler writes to files. -/
theorem files_emit_of_not_own {log : Log} (h : log.handlers.any Handler.isOwn = false) (level : Level)
    (message : Except Fault String) : (log.emit level message).files = log.files := by
  cases message with
  | ok message =>
    obtain ⟨heard, hline⟩ := emit_of_own_nil (any_isOwn_eq_false_iff.1 h) level message
    rw [hline]
  | error f => rw [emit_error]

theorem ensure_emit (log : Log) (level : Level) (message : Except Fault String) (path : Option String)
    (rank : Int) (tag : String) : ((log.emit level message).ensure path rank tag).1 = (log.ensure path rank tag).1 := by
  unfold ensure
  rw [handlers_emit]
  cases hown : log.handlers.any Handler.isOwn with
  | true => rfl
  | false => exact configure_congr (files_emit_of_not_own hown level message) path rank tag

theorem canTrace_of_isOwn {log : Log} (h : log.handlers.any Handler.isOwn = true) (s : Settings) : log.CanTrace s := by
  unfold CanTrace
  rw [ensure_of_own h]

theorem canTrace_of_console {s : Settings} (h : s.logPath.filter (· != "") = none) (log : Log) : log.CanTrace s := by
  unfold CanTrace ensure
  split
  · rfl
  · unfold configure
    dsimp only
    rw [h]

end Trace.Log

/-! ## 3. Tracings that work -/

/-- A tracing with valid settings, which may have been read already. -/
structure Tracing.IsValid (s : Settings) (t : Tracing) : Prop where
  reads : Settings.ofEnvironment t.environment = .ok s
  known : t.settings = none ∨ t.settings = some s

/-- One that works besides. -/
structure Tracing.Works (s : Settings) (t : Tracing) : Prop extends Tracing.IsValid s t where
  canTrace : t.log.CanTrace s

theorem Tracing.Works.emit {s : Settings} {t : Tracing} (h : t.Works s) (level : Level)
    (message : Except Fault String) : (t.emit level message).Works s where
  toIsValid := ⟨h.reads, h.known⟩
  canTrace := (Log.ensure_emit t.log level message _ _ _).trans h.canTrace

/-- Two tracings that work, each with its own settings. -/
def Tracing.BothWork (s s' : Settings) (t t' : Tracing) : Prop := t.Works s ∧ t'.Works s'

theorem Tracing.isBlind_bothWork (s s' : Settings) : Tracing.IsBlind (BothWork s s') where
  left level message h := ⟨h.1.emit level message, h.2⟩
  right level message h := ⟨h.1, h.2.emit level message⟩

namespace Shared

theorem settings_of_works {s : Settings} {w : World} (h : w.tracing.Works s) :
    settings w = (.ok s, { w with settings := some s }) := by
  rcases h.known with hnone | hsome
  · have hnone : w.settings = none := hnone
    have hreads : Settings.load w.environment (.usual w.environment) [] = .ok s := h.reads
    unfold settings
    rw [Run.bind_run, Run.read_run, hnone]
    dsimp only
    rw [Run.bind_run, Run.read_run]
    dsimp only
    rw [hreads]
    rfl
  · have hsome : w.settings = some s := hsome
    rw [settings_of_some hsome, ← hsome]

theorem works_of_settings {s : Settings} {t : Tracing} (h : t.Works s) :
    Tracing.Works s { t with settings := some s } where
  reads := h.reads
  known := .inr rfl
  canTrace := h.canTrace

theorem ensureTrace_run (s : Settings) (w : World) : ensureTrace (some s) w =
    ((w.log.ensure s.logPath s.logRank s.logTag).1,
      { w with log := (w.log.ensure s.logPath s.logRank s.logTag).2 }) := by
  unfold ensureTrace Log.ensure
  rw [Run.bind_run, Run.read_run]
  dsimp only
  split
  · rfl
  · rfl

variable {s s' : Settings}

theorem coupled_settings {next next' : Settings → Run α}
    (h : Coupled (Tracing.BothWork s s') (next s) (next' s')) :
    Coupled (Tracing.BothWork s s') (settings >>= next) (settings >>= next') := by
  intro w t hboth
  have hleft : settings w = (.ok s, { w with settings := some s }) := settings_of_works hboth.1
  have hright : settings (w.tracedBy t) = (.ok s', { w.tracedBy t with settings := some s' }) :=
    settings_of_works hboth.2
  rw [Run.bind_of_ok hleft, Run.bind_of_ok hright]
  exact h { w with settings := some s } { t with settings := some s' }
    ⟨works_of_settings hboth.1, works_of_settings hboth.2⟩

theorem works_of_ensure {t : Tracing} (h : t.Works s) :
    Tracing.Works s { t with log := (t.log.ensure s.logPath s.logRank s.logTag).2 } where
  reads := h.reads
  known := h.known
  canTrace := Log.canTrace_of_isOwn (Log.isOwn_of_ensure h.canTrace) s

theorem coupled_ensureTrace :
    Coupled (Tracing.BothWork s s') (ensureTrace (some s)) (ensureTrace (some s')) := by
  intro w t hboth
  have hleft : (w.log.ensure s.logPath s.logRank s.logTag).1 = .ok () := hboth.1.canTrace
  have hright : (t.log.ensure s'.logPath s'.logRank s'.logTag).1 = .ok () := hboth.2.canTrace
  rw [ensureTrace_run, ensureTrace_run, hleft]
  refine ⟨{ t with log := (t.log.ensure s'.logPath s'.logRank s'.logTag).2 }, ?_, ?_⟩
  · exact ⟨works_of_ensure hboth.1, works_of_ensure hboth.2⟩
  · exact congrArg (·, _) hright

end Shared

end Gatehouse
