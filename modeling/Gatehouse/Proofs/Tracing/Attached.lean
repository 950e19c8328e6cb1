import Gatehouse.Settings
import Gatehouse.Proofs.Tracing.Files
import Gatehouse.Proofs.Tracing.Lines

/-!
# Attached — the library's handler among the handlers of a log

Setting up the trace takes the library's handler off and attaches a new one; all other handlers stay. Whatever becomes
of the new one, files keep their lines. Once it is attached it writes the lines that the log keeps, to its own
destination and nowhere else.
-/

namespace Gatehouse

namespace Trace

/-! ## 1. Destinations -/

/-- Where lines go that are written to a path. -/
def destinationOf (path : Option String) : Destination :=
  match path.filter (· != "") with
  | none => .console
  | some path => .file path

/-- The place of a destination among the files. -/
def Destination.place? : Destination → Option Place
  | .file path => some (Path.ofText path).place
  | .console => none

/-- A line as the library's handler writes it at some time. -/
def Line.tagged (tag : String) (clock : Int) (line : Line) : String :=
  Log.taggedLine tag (.ofSeconds clock) line.level.name line.message

namespace Log

/-- The handlers of the library, of which there should be one at most. -/
def own (log : Log) : List Handler := log.handlers.filter Handler.isOwn

/-- Everybody else's handlers. -/
def others (log : Log) : List Handler := log.handlers.filter (!·.isOwn)

/-- The lines at a destination. -/
def written (log : Log) (d : Destination) : List String :=
  match d.place? with
  | some here => log.files.linesAt here
  | none => log.console

/-- A file that lines go to is there. -/
def IsOpen (log : Log) (d : Destination) : Prop :=
  ∀ here, d.place? = some here → ∃ lines, log.files.find? here = some (.file lines)

theorem any_isOwn_eq_false_iff {log : Log} : log.handlers.any Handler.isOwn = false ↔ log.own = [] := by
  rw [List.any_eq_false]
  exact List.filter_eq_nil_iff.symm

/-- Without a handler of the library all handlers are others. -/
theorem others_of_own_nil {log : Log} (h : log.own = []) : log.others = log.handlers := by
  apply List.filter_eq_self.2
  intro handler hmem
  simpa using List.filter_eq_nil_iff.1 h handler hmem

theorem own_nil_of_others {log : Log} (h : log.others = log.handlers) : log.own = [] := by
  apply List.filter_eq_nil_iff.2
  intro handler hmem
  simpa using List.filter_eq_self.1 h handler hmem

/-! ## 2. Lines through one handler -/

/-- Listeners have no part in what is written. -/
theorem foldl_deliver_of_own_nil {handlers : List Handler} (h : handlers.filter Handler.isOwn = []) (level : Level)
    (message : String) (log : Log) :
    ∃ heard, handlers.foldl (deliver level message) log = { log with heard } := by
  induction handlers generalizing log with
  | nil => exact ⟨log.heard, rfl⟩
  | cons handler rest ih =>
    cases handler with
    | own d tag => cases h
    | listener =>
      obtain ⟨heard, hrest⟩ := ih h (deliver level message log .listener)
      exact ⟨heard, hrest⟩

theorem foldl_deliver_of_own {handlers : List Handler} {d : Destination} {tag : String}
    (h : handlers.filter Handler.isOwn = [.own d tag]) (level : Level) (message : String) (log : Log) :
    ∃ heard, handlers.foldl (deliver level message) log =
      { deliver level message log (.own d tag) with heard } := by
  -- Induction on the handlers: listeners before the one that writes leave to it what it would have found.
  induction handlers generalizing log with
  | nil => cases h
  | cons handler rest ih =>
    cases handler with
    | listener =>
      obtain ⟨heard, hrest⟩ := ih h (deliver level message log .listener)
      refine ⟨heard, ?_⟩
      rw [List.foldl_cons, hrest]
      cases d <;> rfl
    | own d' tag' =>
      have hsplit : Handler.own d' tag' :: rest.filter Handler.isOwn = [.own d tag] := h
      obtain ⟨hfirst, hrest⟩ := List.cons.inj hsplit
      rw [List.foldl_cons, hfirst]
      exact foldl_deliver_of_own_nil hrest level message _

theorem emit_of_own_nil {log : Log} (h : log.own = []) (level : Level) (message : String) :
    ∃ heard, log.emit level (.ok message) = { log with heard } := by
  unfold emit
  split
  · exact foldl_deliver_of_own_nil h level message log
  · exact ⟨log.heard, rfl⟩

theorem written_emitAll_of_own_nil {log : Log} (h : log.own = []) (lines : List Line) (d : Destination) :
    (log.emitAll lines).written d = log.written d := by
  induction lines generalizing log with
  | nil => rfl
  | cons line rest ih =>
    obtain ⟨heard, hline⟩ := emit_of_own_nil h line.level line.message
    rw [emitAll_cons, hline]
    have hown : Log.own { log with heard } = [] := h
    exact ih hown

theorem isOpen_deliver {log : Log} {d : Destination} (hopen : log.IsOpen d) (level : Level) (message tag : String) :
    (deliver level message log (.own d tag)).IsOpen d := by
  cases d with
  | console => exact fun here hplace => by cases hplace
  | file path =>
    intro here hplace
    obtain ⟨lines, hfound⟩ := hopen here hplace
    cases hplace
    exact ⟨_, Files.find?_append_self hfound _⟩

theorem written_deliver_self {log : Log} {d : Destination} (hopen : log.IsOpen d) (level : Level)
    (message tag : String) : (deliver level message log (.own d tag)).written d =
      log.written d ++ [taggedLine tag (.ofSeconds log.clock) level.name message] := by
  cases d with
  | console => rfl
  | file path =>
    obtain ⟨lines, hfound⟩ := hopen _ rfl
    have hbefore : log.written (.file path) = lines := Files.linesAt_of_find? hfound
    rw [hbefore]
    exact Files.linesAt_of_find? (Files.find?_append_self hfound _)

theorem written_deliver_of_ne {d other : Destination} (h : other.place? ≠ d.place?) (log : Log) (level : Level)
    (message tag : String) : (deliver level message log (.own d tag)).written other = log.written other := by
  cases d with
  | console =>
    cases other with
    | console => exact absurd rfl h
    | file path => rfl
  | file path =>
    cases other with
    | console => rfl
    | file path' => exact Files.linesAt_append_of_ne log.files _ fun heq => h (congrArg some heq)

theorem clock_deliver (level : Level) (message : String) (log : Log) (handler : Handler) :
    (deliver level message log handler).clock = log.clock := by
  unfold deliver
  split <;> rfl

/-- A line that is kept has gone to the one handler of the library, which is ready for the next. -/
structure Takes (log : Log) (d : Destination) (tag : String) (line : Line) (after : Log) : Prop where
  own : after.own = [.own d tag]
  isOpen : after.IsOpen d
  clock : after.clock = log.clock
  threshold : after.threshold = log.threshold
  written : after.written d = log.written d ++ [line.tagged tag log.clock]
  elsewhere : ∀ other, other.place? ≠ d.place? → after.written other = log.written other

section

variable {log : Log} {d : Destination} {tag : String}

theorem takes_emit (hown : log.own = [.own d tag]) (hopen : log.IsOpen d) {line : Line}
    (hkeeps : log.keeps line.level = true) : log.Takes d tag line (log.emit line.level (.ok line.message)) := by
  obtain ⟨heard, hline⟩ : ∃ heard, log.emit line.level (.ok line.message) =
      { deliver line.level line.message log (.own d tag) with heard } := by
    unfold emit
    rw [if_pos hkeeps]
    exact foldl_deliver_of_own hown line.level line.message log
  have hsame : (log.emit line.level (.ok line.message)).own = log.own :=
    congrArg (List.filter Handler.isOwn) (handlers_emit log line.level _)
  have hthreshold := threshold_emit log line.level (.ok line.message)
  rw [hline] at hsame hthreshold ⊢
  exact ⟨hsame.trans hown, isOpen_deliver hopen line.level line.message tag,
    clock_deliver line.level line.message log _, hthreshold, written_deliver_self hopen line.level line.message tag,
    fun _ hne => written_deliver_of_ne hne log line.level line.message tag⟩

/-- The library's handler writes the lines that are kept, in their order, each with its tag, and writes nowhere
else. -/
theorem written_emitAll (hown : log.own = [.own d tag]) (hopen : log.IsOpen d) (lines : List Line) :
    (log.emitAll lines).written d =
        log.written d ++ (lines.filter fun line => log.keeps line.level).map (Line.tagged tag log.clock) ∧
      ∀ other, other.place? ≠ d.place? → (log.emitAll lines).written other = log.written other := by
  induction lines generalizing log with
  | nil => exact ⟨(List.append_nil _).symm, fun _ _ => rfl⟩
  | cons line rest ih =>
    rw [emitAll_cons, List.filter_cons]
    cases hkeeps : log.keeps line.level with
    | false =>
      rw [emit_of_not_keeps _ hkeeps]
      exact ih hown hopen
    | true =>
      have htakes := takes_emit hown hopen hkeeps
      obtain ⟨hself, helse⟩ := ih htakes.own htakes.isOpen
      constructor
      · rw [hself, htakes.written, htakes.clock, List.append_assoc]
        simp only [keeps_of_same htakes.threshold]
        rfl
      · intro other hne
        rw [helse other hne, htakes.elsewhere other hne]

end

/-! ## 3. Attaching -/

/-- How setting up the trace can end. Files are never lost, and neither are lines. -/
inductive Configures (log : Log) (path : Option String) (level : Int) (tag : String) :
    Except Fault Unit → Log → Prop where
  | attached (files : Files) (hopen : Log.IsOpen { log with files } (destinationOf path))
      (hlines : ∀ here, files.linesAt here = log.files.linesAt here) :
      Configures log path level tag (.ok ())
        { log with files, handlers := log.others ++ [.own (destinationOf path) tag], level := some level }
  /-- The old handler is gone already. -/
  | failed (f : Fault) (files : Files) (hlines : ∀ here, files.linesAt here = log.files.linesAt here) :
      Configures log path level tag (.error f) { log with files, handlers := log.others }

theorem configures (log : Log) (path : Option String) (level : Int) (tag : String) :
    Configures log path level tag (log.configure path level tag).1 (log.configure path level tag).2 := by
  unfold configure
  dsimp only
  cases hpath : path.filter (· != "") with
  | none =>
    have hconsole : destinationOf path = .console := by
      unfold destinationOf
      rw [hpath]
    rw [← hconsole]
    refine .attached log.files ?_ fun _ => rfl
    rw [hconsole]
    exact fun here hplace => by cases hplace
  | some path' =>
    have hfile : destinationOf path = .file path' := by
      unfold destinationOf
      rw [hpath]
    have hmade := Files.linesAt_makeFoldersFor log.files (Path.ofText path')
    dsimp only
    split
    · exact .failed (.badValue .nullByte) log.files fun _ => rfl
    · cases hfolders : log.files.makeFoldersFor (Path.ofText path') with
      | mk result files =>
        rw [hfolders] at hmade
        cases result with
        | error f => exact .failed (.file f) files hmade
        | ok _ =>
          dsimp only
          split
          · exact .failed (.badValue .nullByte) files hmade
          · cases hopened : files.openFile (Path.ofText path').place with
            | error f => exact .failed (.file f) files hmade
            | ok later =>
              rw [← hfile]
              refine .attached later ?_ fun here => (Files.linesAt_openFile hopened here).trans (hmade here)
              rw [hfile]
              intro here hplace
              cases hplace
              exact Files.exists_find?_of_openFile hopened

section

variable (log : Log)

theorem filter_isOwn_others : log.others.filter Handler.isOwn = [] := by
  apply List.filter_eq_nil_iff.2
  intro handler hmem
  simpa using (List.mem_filter.1 hmem).2

theorem filter_not_isOwn_others : log.others.filter (!·.isOwn) = log.others := by
  apply List.filter_eq_self.2
  intro handler hmem
  exact (List.mem_filter.1 hmem).2

end

/-- Everything that settings say about the trace holds of a log: its handler writes the lines that it keeps to
their destination, with their tag, from their level on. -/
structure TracesTo (log : Log) (s : Settings) : Prop where
  own : log.own = [.own (destinationOf s.logPath) s.logTag]
  level : log.level = some s.logRank
  writes : ∀ lines, (log.emitAll lines).written (destinationOf s.logPath) =
    log.written (destinationOf s.logPath) ++
      (lines.filter fun line => log.keeps line.level).map (Line.tagged s.logTag log.clock)
  nowhereElse : ∀ lines other, other.place? ≠ (destinationOf s.logPath).place? →
    (log.emitAll lines).written other = log.written other

section

variable {log after : Log} {path : Option String} {level : Int} {tag : String} {result : Except Fault Unit}

theorem Configures.own_of_ok (h : Configures log path level tag (.ok ()) after) :
    after.own = [.own (destinationOf path) tag] := by
  cases h with
  | attached files hopen hlines =>
    show (log.others ++ [Handler.own (destinationOf path) tag]).filter Handler.isOwn = _
    rw [List.filter_append, filter_isOwn_others]
    rfl

/-- What is attached and from which level on lines are kept when attaching has failed. -/
theorem Configures.left_of_error {f : Fault} (h : Configures log path level tag (.error f) after) :
    after.handlers = log.others ∧ after.level = log.level := by
  cases h with
  | failed f files hlines => exact ⟨rfl, rfl⟩

theorem Configures.own_of_error {f : Fault} (h : Configures log path level tag (.error f) after) :
    after.own = [] := by
  unfold Log.own
  rw [h.left_of_error.1]
  exact filter_isOwn_others log

theorem Configures.others (h : Configures log path level tag result after) : after.others = log.others := by
  cases h with
  | attached files hopen hlines =>
    show (log.others ++ [Handler.own (destinationOf path) tag]).filter (fun h => !h.isOwn) = _
    rw [List.filter_append, filter_not_isOwn_others]
    exact List.append_nil _
  | failed f files hlines => exact filter_not_isOwn_others log

/-- What has been written stays, even if nothing can be attached. -/
theorem Configures.written (h : Configures log path level tag result after) (d : Destination) :
    after.written d = log.written d := by
  cases d with
  | console => cases h <;> rfl
  | file path' =>
    cases h with
    | attached files hopen hlines => exact hlines _
    | failed f files hlines => exact hlines _

theorem Configures.level_of_ok (h : Configures log path level tag (.ok ()) after) :
    after.level = some level ∧ after.IsOpen (destinationOf path) := by
  cases h with
  | attached files hopen hlines => exact ⟨rfl, hopen⟩

theorem Configures.tracesTo {s : Settings} (h : Configures log s.logPath s.logRank s.logTag (.ok ()) after) :
    after.TracesTo s := by
  obtain ⟨hlevel, hopen⟩ := h.level_of_ok
  have hown := h.own_of_ok
  exact ⟨hown, hlevel, fun lines => (written_emitAll hown hopen lines).1,
    fun lines => (written_emitAll hown hopen lines).2⟩

end

end Log

end Trace

end Gatehouse
