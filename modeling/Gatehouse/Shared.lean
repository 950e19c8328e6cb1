import Gatehouse.Engine

/-!
What a process has once: settings, trace, registry, engine. Each is made when it is first needed and kept until
it is forgotten. A fault in the making leaves nothing behind, so that the next need tries again.
-/

namespace Gatehouse.Shared

/-! ## 1. Settings -/

/-- The settings of the process; the environment is read when they are first needed. The file of variables in the working
directory, which would be read after the environment, is taken to be missing. -/
def settings : Run Settings := do
  match ← Run.read World.settings with
  | some s => return s
  | none =>
      let env ← Run.read World.environment
      let s ← Run.ofExcept (Settings.load env (.usual env) [])
      Run.change fun w => { w with settings := some s }
      return s

def forgetSettings : Run Unit :=
  Run.change fun w => { w with settings := none, engineSettings := false }

/-! ## 2. The trace -/

/-- Attaches the handler that settings ask for in place of the one that is there; without settings those of the
process count. -/
def configureTrace (given : Option Settings) : Run Unit := do
  let s ← match given with
    | some s => pure s
    | none => settings
  fun w =>
    let (result, log) := w.log.configure s.logPath s.logRank s.logTag
    (result, { w with log })

/-- Attaches the handler that settings ask for, unless there is one. -/
def ensureTrace (given : Option Settings) : Run Unit := do
  if ← Run.read fun w => w.log.handlers.any Trace.Handler.isOwn then return
  configureTrace given

/-! ## 3. Registry and engine -/

/-- Puts an empty registry in the place of the shared one. Engines keep the registry they were made with. -/
def renewRegistry : Run Unit :=
  Run.change fun w =>
    let (i, w) := w.addRegistry
    { w with shared := i, home := some i }

def makeLoader (s : Settings) : Run (Option Nat) :=
  match s.lazyLoadPackage with
  | some package =>
      if s.lazyLoading then fun w =>
        let (i, w) := w.addLoader (.package package [])
        (.ok (some i), w)
      else return none
  | none => return none

/-- The engine of the process, over the shared registry. The trace is set up before it. -/
def engine : Run Engine := do
  match ← Run.read World.engine with
  | some e => return e
  | none =>
      let s ← settings
      ensureTrace (some s)
      let loader ← makeLoader s
      let shared ← Run.read World.shared
      let e ← Engine.make shared none loader (some (.table .standard)) s false false
      Run.change fun w => { w with engine := some e, engineSettings := true }
      return e

def forgetEngine : Run Unit := Run.change fun w => { w with engine := none }

/-- Puts another fallback resource into the settings that the engine was made with. The engine keeps its own, but the
next one is made with these settings, unless they have been forgotten. -/
def setEngineFallback (resource : Value) : Run Unit :=
  Run.change fun w =>
    if w.engineSettings then
      { w with settings := w.settings.map fun s => { s with fallbackResource := resource } }
    else w

/-! ## 4. Facts -/

theorem engine_of_some {w : World} {e : Engine} (h : w.engine = some e) :
    engine w = (.ok e, w) := by
  simp [engine, Run.bind_run, Run.read_run, Run.pure_run, h]

theorem settings_of_some {w : World} {s : Settings} (h : w.settings = some s) :
    settings w = (.ok s, w) := by
  simp [settings, Run.bind_run, Run.read_run, Run.pure_run, h]

end Gatehouse.Shared
