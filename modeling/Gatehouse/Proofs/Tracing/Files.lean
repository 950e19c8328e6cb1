import Gatehouse.Trace.Files
import Gatehouse.Proofs.Runs

/-!
# Files — what is written stays written

Setting up a trace makes folders, and opens a file that may be new. Both put something only where nothing
was, and what they put has no lines in it. So all files hold the lines that they held before, even if the
folders are all that could be made.
-/

namespace Gatehouse.Trace.Files

/-! ## 1. Looking up what was put -/

section

variable {files : Files} {here other : Place}

theorem find?_put_self (files : Files) (node : Node) (h : here.isOutside = false) :
    (files.put here node).find? here = some node := by
  have hold : (files.nodes.filter fun n => n.1 != here).find? (fun n => n.1 == here) = none := by
    rw [List.find?_eq_none]
    intro n hn
    simpa using (List.mem_filter.1 hn).2
  unfold find? put
  rw [h, List.find?_append, hold]
  simp

theorem find?_put_of_ne (files : Files) (node : Node) (h : other ≠ here) :
    (files.put here node).find? other = files.find? other := by
  have hkept : (files.nodes.filter fun n => n.1 != here).find? (fun n => n.1 == other) =
      files.nodes.find? fun n => n.1 == other := by
    rw [List.find?_filter]
    congr 1
    funext n
    by_cases hn : n.1 = other
    · simp [hn, h]
    · simp [hn]
  have hnew : [(here, node)].find? (fun n => n.1 == other) = none := by
    simp [Ne.symm h]
  unfold find? put
  rw [List.find?_append, hkept, hnew, Option.or_none]

theorem isOutside_of_find?_none (h : files.find? here = none) : here.isOutside = false := by
  unfold find? at h
  cases hout : here.isOutside with
  | false => rfl
  | true =>
    rw [hout] at h
    cases h

/-! ## 2. Lines -/

/-- The lines in the file at a place; anything else has none. -/
def linesAt (files : Files) (here : Place) : List String :=
  match files.find? here with
  | some (.file lines) => lines
  | _ => []

theorem linesAt_of_find? {lines : List String} (h : files.find? here = some (.file lines)) :
    files.linesAt here = lines := by
  unfold linesAt
  rw [h]

/-- Where nothing was, something without lines makes no difference to lines. -/
theorem linesAt_put {node : Node} (h : files.find? here = none) (hnode : ∀ lines, node = .file lines → lines = [])
    (other : Place) : (files.put here node).linesAt other = files.linesAt other := by
  unfold linesAt
  by_cases heq : other = here
  · subst heq
    rw [find?_put_self files node (isOutside_of_find?_none h), h]
    cases node with
    | folder => rfl
    | file lines => exact hnode lines rfl
  · rw [find?_put_of_ne files node heq]

/-- A change that leaves all places finds what it found before, changed. -/
theorem find?_map_of_places {change : Place × Node → Place × Node} (h : ∀ n, (change n).1 = n.1)
    (nodes : List (Place × Node)) :
    (nodes.map change).find? (fun n => n.1 == here) = (nodes.find? fun n => n.1 == here).map change := by
  have hsame : ((fun n : Place × Node => n.1 == here) ∘ change) = fun n => n.1 == here := by
    funext n
    simp [h n]
  rw [List.find?_map, hsame]

/-- What is at a place when a text has been appended to a file. -/
theorem find?_append (files : Files) (here : Place) (text : String) (other : Place) :
    (files.append here text).find? other = (files.find? other).map fun node =>
      match node with
      | .file lines => if other == here then .file (lines ++ [text]) else .file lines
      | .folder => .folder := by
  unfold find? append
  split
  · rfl
  · rw [find?_map_of_places]
    · cases hfirst : files.nodes.find? fun n => n.1 == other with
      | none => rfl
      | some n =>
        have hplace : n.1 = other := by simpa using List.find?_some hfirst
        obtain ⟨place, node⟩ := n
        subst hplace
        cases node with
        | folder => rfl
        | file lines =>
          by_cases h : place = here
          · simp [h]
          · simp [h]
    · intro n
      dsimp only
      split
      · split <;> rfl
      · rfl

theorem find?_append_self {lines : List String} (h : files.find? here = some (.file lines)) (text : String) :
    (files.append here text).find? here = some (.file (lines ++ [text])) := by
  rw [find?_append, h]
  simp

theorem linesAt_append_of_ne (files : Files) (text : String) (h : other ≠ here) :
    (files.append here text).linesAt other = files.linesAt other := by
  unfold linesAt
  rw [find?_append]
  cases files.find? other with
  | none => rfl
  | some node =>
    cases node with
    | folder => rfl
    | file lines => simp [h]

end

/-! ## 3. Making folders and opening a file -/

theorem find?_of_placeForFolder {files : Files} {p : Path} {here : Place} (h : files.placeForFolder p = .ok here) :
    files.find? here = none := by
  unfold placeForFolder at h
  dsimp only at h
  split at h
  · cases h
  · split at h
    · cases h
    · obtain ⟨around, -, h⟩ := bind_eq_ok_iff.1 h
      obtain ⟨place, -, h⟩ := bind_eq_ok_iff.1 h
      split at h
      · cases h
      · rename_i hfree
        cases h
        simpa using hfree

theorem linesAt_makeFolder (files : Files) (p : Path) (here : Place) :
    (files.makeFolder p).2.linesAt here = files.linesAt here := by
  unfold makeFolder
  split
  · rename_i place hplace
    exact linesAt_put (find?_of_placeForFolder hplace) (by intro lines h; cases h) here
  · rfl

/-- Folders that are made on the way stay even if the last one cannot be made; no file is changed by them. -/
theorem linesAt_makeFolders (files : Files) (fromRoot : Bool) (reversed : List String) (here : Place) :
    (files.makeFolders fromRoot reversed).2.linesAt here = files.linesAt here := by
  -- Induction on the names: a folder that cannot be made is tried again when those around it have been made.
  induction reversed generalizing files with
  | nil => rfl
  | cons name before ih =>
    unfold makeFolders
    dsimp only
    split
    · have hbefore := ih files
      split
      · rename_i later hmade
        rw [hmade] at hbefore
        rw [linesAt_makeFolder]
        exact hbefore
      · exact hbefore
    · exact linesAt_makeFolder files _ here

theorem linesAt_makeFoldersFor (files : Files) (p : Path) (here : Place) :
    (files.makeFoldersFor p).2.linesAt here = files.linesAt here :=
  linesAt_makeFolders files p.fromRoot _ here

theorem openFile_eq_ok {files later : Files} {here : Place} (h : files.openFile here = .ok later) :
    files.find? here = none ∧ later = files.put here (.file []) ∨
      later = files ∧ ∃ lines, files.find? here = some (.file lines) := by
  unfold openFile at h
  dsimp only at h
  split at h
  · cases h
  · split at h
    · cases h
    · split at h
      · cases h
      · split at h
        · cases h
        · rename_i lines hfound
          cases h
          exact .inr ⟨rfl, lines, hfound⟩
        · rename_i hfree
          cases h
          exact .inl ⟨hfree, rfl⟩

/-- A file that has been opened is there. -/
theorem exists_find?_of_openFile {files later : Files} {here : Place} (h : files.openFile here = .ok later) :
    ∃ lines, later.find? here = some (.file lines) := by
  rcases openFile_eq_ok h with ⟨hfree, rfl⟩ | ⟨rfl, hthere⟩
  · exact ⟨[], find?_put_self files _ (isOutside_of_find?_none hfree)⟩
  · exact hthere

theorem linesAt_openFile {files later : Files} {here : Place} (h : files.openFile here = .ok later) (other : Place) :
    later.linesAt other = files.linesAt other := by
  rcases openFile_eq_ok h with ⟨hfree, rfl⟩ | ⟨rfl, -⟩
  · exact linesAt_put hfree (fun _ h => (Node.file.inj h).symm) other
  · rfl

end Gatehouse.Trace.Files
