import Gatehouse.Proofs.Deciding.Parts

/-!
# Unlogged — what the log and the ids mean to a decision

Nothing that a decision does looks at the log, so lines that were written before it change nothing but the
log. And of the ids of a request a decision looks at nothing but the value under a key, besides writing
all of them into one line of the trace. Two requests with the same values under all keys are therefore
decided alike, with the same questions asked on the way, and the two states afterwards differ at most in
the log.
-/

namespace Gatehouse

/-! ## 1. Runs that do not look at the log -/

/-- A state with another log. -/
def World.logging (w : World) (log : Trace.Log) : World := { w with log }

theorem World.asking_nil_eq (w : World) (log : Trace.Log) : w.asking [] log = w.logging log := by
  unfold asking logging
  rw [List.append_nil]

/-- A run that gives the same and leaves the same whatever is in the log, but for the log it leaves. -/
def Run.IgnoresLog (α : Type) (run : Run α) : Prop :=
  ∀ w log, ∃ log', run (w.logging log) = ((run w).1, (run w).2.logging log')

namespace Run.IgnoresLog

variable {run : Run α}

theorem of_eq (h : ∀ w log, run (w.logging log) = ((run w).1, (run w).2.logging log)) :
    IgnoresLog α run := fun w log => ⟨log, h w log⟩

theorem sequential : Run.Sequential IgnoresLog where
  pure _ := of_eq fun _ _ => rfl
  throw _ := of_eq fun _ _ => rfl
  bind {α β run next} hrun hnext := by
    intro w log
    obtain ⟨log', hlog'⟩ := hrun w log
    rw [bind_run, bind_run, hlog']
    cases hr : run w with
    | mk result after =>
      cases result with
      | error f => exact ⟨log', rfl⟩
      | ok a => exact hnext a after log'

theorem tryCatch {handle : Fault → Run α} (hrun : IgnoresLog α run)
    (hhandle : ∀ f, IgnoresLog α (handle f)) : IgnoresLog α (tryCatch run handle) := by
  intro w log
  obtain ⟨log', hlog'⟩ := hrun w log
  rw [tryCatch_run, tryCatch_run, hlog']
  cases hr : run w with
  | mk result after =>
    cases result with
    | error f => exact hhandle f after log'
    | ok a => exact ⟨log', rfl⟩

theorem declaring : Run.Declaring IgnoresLog where
  toSequential := sequential
  home := of_eq fun w log => by
    have hsame : (w.logging log).home = w.home := rfl
    unfold home
    rw [hsame]
    cases w.home <;> rfl
  permit i grant := of_eq fun w log => by
    cases hp : (w.registry i).permit w.nextRule grant with
    | error f => rw [permit_of_error hp, permit_of_error (w := w.logging log) hp]
    | ok out =>
      rw [permit_of_ok hp, permit_of_ok (w := w.logging log) hp]
      rfl

theorem loading : Run.Loading IgnoresLog where
  toDeclaring := declaring
  tryCatch := tryCatch
  library _ := of_eq fun _ _ => rfl
  setLibrary _ := of_eq fun _ _ => rfl
  loaders _ := of_eq fun _ _ => rfl
  setLoaders _ := of_eq fun _ _ => rfl

theorem deciding : Run.Deciding IgnoresLog where
  toDeclaring := declaring
  freeze _ := of_eq fun _ _ => rfl
  trace level message := fun _ log => ⟨log.emit level message, rfl⟩
  question _ := of_eq fun _ _ => rfl
  bucket _ _ _ := of_eq fun _ _ => rfl
  load := Loader.ensure_of loading

end Run.IgnoresLog

/-- From a state, two runs give the same and leave the same, but for the log; so they have put the same questions
to conditions. -/
def Run.SameButLog (run run' : Run α) (w : World) : Prop :=
  ∃ log, run' w = ((run w).1, (run w).2.logging log)

theorem Run.SameButLog.bind {run run' : Run α} {next : α → Run β} {w : World}
    (h : SameButLog run run' w) (hnext : ∀ a, IgnoresLog β (next a)) :
    SameButLog (run >>= next) (run' >>= next) w := by
  obtain ⟨log, hlog⟩ := h
  unfold SameButLog
  rw [bind_run, bind_run, hlog]
  cases hr : run w with
  | mk result after =>
    cases result with
    | error f => exact ⟨log, rfl⟩
    | ok a => exact hnext a after log

/-- Two runs that begin with the same one differ only in what comes after it. -/
theorem Run.SameButLog.after {run : Run α} {next next' : α → Run β} {w : World}
    (h : ∀ a mid, run w = (.ok a, mid) → SameButLog (next a) (next' a) mid) :
    SameButLog (run >>= next) (run >>= next') w := by
  unfold SameButLog
  rw [bind_run, bind_run]
  cases hr : run w with
  | mk result mid =>
    cases result with
    | error f => exact ⟨mid.log, rfl⟩
    | ok a => exact h a mid hr

/-! ## 2. Requests with the same values under all keys -/

/-- Two requests that agree in everything a decision asks them for. -/
structure Check.Agrees (check check' : Check) : Prop where
  user : check'.user = check.user
  resource : check'.resource = check.resource
  action : check'.action = check.action
  ids : ∀ key, check'.ids.get? key = check.ids.get? key

namespace Engine

variable {e : Engine} {decide : Value → Run Bool} {check check' : Check}

theorem objectOf_of_agrees (h : check.Agrees check') : check'.objectOf = check.objectOf := by
  funext key
  unfold Check.objectOf
  rw [h.ids key]

theorem tryRules_of_agrees (h : check.Agrees check') (scope action : String) (rules : List Rule)
    (tried : Nat) :
    tryRules decide check' scope action rules tried = tryRules decide check scope action rules tried := by
  induction rules generalizing tried with
  | nil => rfl
  | cons rule rest ih =>
    rw [tryRules, tryRules, objectOf_of_agrees h, h.user, h.resource, h.action, ih]

theorem scanActions_of_agrees (h : check.Agrees check') (scope : String) (actions : List String)
    (tried : Nat) :
    e.scanActions decide check' scope actions tried = e.scanActions decide check scope actions tried := by
  induction actions generalizing tried with
  | nil => rfl
  | cons action rest ih => simp only [scanActions, tryRules_of_agrees h, ih]

theorem scanScopes_of_agrees (h : check.Agrees check') (scopes : List String) (tried : Nat) :
    e.scanScopes decide check' scopes tried = e.scanScopes decide check scopes tried := by
  induction scopes generalizing tried with
  | nil => rfl
  | cons scope rest ih => simp only [scanScopes_cons, scanActions_of_agrees h, h.action, ih]

/-- The scan asks for ids by key only. -/
theorem scan_of_agrees (h : check.Agrees check') : e.scan decide check' = e.scan decide check := by
  unfold scan
  rw [h.resource, h.action, scanScopes_of_agrees h]

/-! ## 3. Calls that come to such requests -/

/-- Two calls that come to the same: the same fault, nobody being logged in, or requests that agree. -/
inductive Alike : Except Fault (Option Check) → Except Fault (Option Check) → Prop where
  | fault (f : Fault) : Alike (.error f) (.error f)
  | nobody : Alike (.ok none) (.ok none)
  | request {check check' : Check} (h : check.Agrees check') :
      Alike (.ok (some check)) (.ok (some check'))

/-- The user of a request: the one it names, else that of the host. -/
def userFor (user : Value) (host : Option Host) : Except Fault Value :=
  match user, host with
  | .null, some host => host.user
  | user, _ => .ok user

/-- The resource of a request: the one it names, else that of the host. -/
def resourceFor (resource : Value) (host : Option Host) : Except Fault Value :=
  match resource, host with
  | .null, none => .error (.misconfigured .noResource)
  | .null, some host => host.resource
  | resource, _ => .ok resource

/-- A request is completed step by step: the user, the resource, and then the names. -/
theorem complete_eq (request : Request) (host : Option Host) : complete request host = (do
    let user ← userFor request.user host
    let resource ← resourceFor request.resource host
    if request.action matches .null then throw (.misconfigured .noAction)
    let resource ← Name.resource resource
    let action ← Name.action request.action
    return { user, resource, action, ids := request.ids }) := by
  obtain ⟨user, resource, action, ids⟩ := request
  have hresource : ∀ u : Value, (do
      let resource ← match resource, host with
        | .null, none => .error (.misconfigured .noResource)
        | .null, some host => host.resource
        | resource, _ => .ok resource
      if action matches .null then throw (.misconfigured .noAction)
      let resource ← Name.resource resource
      let action ← Name.action action
      return { user := u, resource, action, ids } : Except Fault Check) = (do
      let resource ← resourceFor resource host
      if action matches .null then throw (.misconfigured .noAction)
      let resource ← Name.resource resource
      let action ← Name.action action
      return { user := u, resource, action, ids }) := by
    intro u
    unfold resourceFor
    dsimp only
    generalize hnull : (match action with | Value.null => true | _ => false) = isNull
    split <;> rfl
  unfold complete
  dsimp only
  split
  · exact bind_congr fun u => hresource u
  · rename_i hother
    have huser : userFor user host = .ok user := by
      unfold userFor
      split
      · exact absurd rfl (hother _ rfl)
      · rfl
    rw [huser]
    exact hresource user

/-- The ids of a request are handed on, whatever else it is completed from. -/
theorem complete_withIds (request : Request) (ids : Ids) (host : Option Host) :
    complete { request with ids } host = (complete request host).map fun c => { c with ids } := by
  obtain ⟨user, resource, action, own⟩ := request
  rw [complete_eq, complete_eq]
  cases userFor user host with
  | error f => rfl
  | ok user =>
    cases resourceFor resource host with
    | error f => rfl
    | ok resource =>
      dsimp only [bind, Except.bind]
      split
      · rfl
      · cases Name.resource resource with
        | error f => rfl
        | ok resource => cases Name.action action <;> rfl

theorem ids_of_complete {request : Request} {host : Option Host} {check : Check}
    (h : complete request host = .ok check) : check.ids = request.ids := by
  have hsame : complete request host = (complete request host).map fun c => { c with ids := request.ids } :=
    complete_withIds request request.ids host
  rw [h] at hsame
  exact congrArg Check.ids (Except.ok.inj hsame)

/-- Targets that stand for the same request but for ids, which agree under all keys, come to the same. -/
theorem alike_of_normalize {e : Engine} {subject subject' : Value} {request : Request} {ids : Ids}
    (h : e.adapter.normalize subject = .ok request)
    (h' : e.adapter.normalize subject' = .ok { request with ids })
    (hids : ∀ key, ids.get? key = request.ids.get? key) (host : Option Host) :
    Alike (e.checkFor subject host) (e.checkFor subject' host) := by
  unfold checkFor buildCheck
  rw [h, h']
  cases isLoggedIn (e.hostFor host) with
  | error f => exact .fault f
  | ok logged =>
    cases logged with
    | false => exact .nobody
    | true =>
      change Alike (complete request _ >>= _) (complete { request with ids } _ >>= _)
      rw [complete_withIds request ids]
      cases hcomplete : complete request (e.hostFor (e.hostFor host)) with
      | error f => exact .fault f
      | ok check =>
        refine .request ⟨rfl, rfl, rfl, fun key => ?_⟩
        rw [ids_of_complete hcomplete]
        exact hids key

/-- Calls that come to the same have the same outcome, and leave the same state behind but for the log. -/
theorem decide_of_alike {target target' : Value} {options options' : List (Value × Value)}
    {host host' : Option Host}
    (h : Alike (e.checkOf target options host) (e.checkOf target' options' host')) (w : World) :
    Run.SameButLog (e.decide target options host) (e.decide target' options' host') w := by
  unfold Run.SameButLog
  generalize hone : e.checkOf target options host = one at h
  generalize hother : e.checkOf target' options' host' = other at h
  cases h with
  | fault f =>
    rw [decide_of_error hone, decide_of_error hother]
    exact ⟨w.log, rfl⟩
  | nobody =>
    obtain ⟨log, hlog⟩ := decide_of_none hone w
    obtain ⟨log', hlog'⟩ := decide_of_none hother w
    rw [hlog, hlog', World.asking_nil_eq, World.asking_nil_eq]
    exact ⟨log', rfl⟩
  | @request check check' hagrees =>
    obtain ⟨log, hrun⟩ := decide_of_check hone w
    obtain ⟨log', hrun'⟩ := decide_of_check hother w
    -- The two scans are one run, from two states that differ in the line that holds all ids.
    rw [World.asking_nil_eq] at hrun hrun'
    rw [scan_of_agrees hagrees] at hrun'
    have hscan : Run.IgnoresLog Decision (e.scan (e.consultation (depthLimit - 1)) check) :=
      scan_of Run.IgnoresLog.deciding (consultation_of Run.IgnoresLog.deciding e _) e check
    obtain ⟨left, hleft⟩ := hscan w log
    obtain ⟨left', hleft'⟩ := hscan w log'
    obtain ⟨last, hlast⟩ := hrun _ _ hleft
    obtain ⟨last', hlast'⟩ := hrun' _ _ hleft'
    rw [World.asking_nil_eq] at hlast hlast'
    rw [hlast, hlast']
    exact ⟨last', rfl⟩

end Engine

end Gatehouse
