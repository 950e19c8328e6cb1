import Gatehouse.Fault
import Gatehouse.Text.Pieces

/-!
The files that trace lines are appended to, as a tree around the working directory. A place in the tree is the
list of names that lead to it: from the working directory, which is the empty list, or from the root, whose name
is a slash. Folders are made along a path name by name, so that `..` leaves a folder only if it is there; a file
is opened where the path leads when each `..` undoes the name before it.
-/

namespace Gatehouse.Trace

/-! ## 1. Paths -/

/-- A place in the tree. Places above the working directory begin with `..`. -/
abbrev Place := List String

namespace Place

/-- The folder around a place; the root is around itself. -/
def above (here : Place) : Place :=
  if here == ["/"] then here
  else if here.all (· == "..") then here ++ [".."]
  else here.dropLast

def step (here : Place) (name : String) : Place :=
  if name == ".." then here.above else here ++ [name]

def text (here : Place) : String := String.intercalate "/" here

/-- Places around the working directory, where folders are always there. -/
def isOutside (here : Place) : Bool := here == ["/"] || here.all (· == "..")

end Place

/-- A path as it is written, with its names; empty names and single points count for nothing. -/
structure Path where
  fromRoot : Bool
  names : List String
  deriving DecidableEq, Repr

namespace Path

def ofText (text : String) : Path where
  fromRoot := text.toList.head? == some '/'
  names := ((Text.pieces '/' text.toList).map String.ofList).filter fun n => n != "" && n != "."

def start (p : Path) : Place := if p.fromRoot then ["/"] else []

/-- Where a path leads, whatever is there. -/
def place (p : Path) : Place := p.names.foldl Place.step p.start

def text (p : Path) : String := (if p.fromRoot then "/" else "") ++ String.intercalate "/" p.names

end Path

/-- The longest name, in bytes. -/
def nameLimit : Nat := 255

/-- The longest path, in bytes. -/
def pathLimit : Nat := 4095

/-- How many bytes the path of the working directory takes, with the slash behind it. -/
def workingLength : Nat := 17

/-! ## 2. Looking up -/

/-- What a place holds: a folder, or a file with the texts written to it. -/
inductive Node where
  | folder
  | file (written : List String)
  deriving DecidableEq, Repr

/-- A tree of files; the working directory is always there. -/
structure Files where
  nodes : List (Place × Node)
  deriving Repr

namespace Files

def empty : Files := ⟨[]⟩

def find? (files : Files) (here : Place) : Option Node :=
  if here.isOutside then some .folder
  else (files.nodes.find? fun n => n.1 == here).map Prod.snd

def locate (here : Place) (name : String) : Except FileFault Place :=
  if nameLimit < name.utf8ByteSize then .error .nameTooLong else .ok (here.step name)

def enter (files : Files) (here : Place) (name : String) : Except FileFault Place := do
  let next ← locate here name
  match files.find? next with
  | some .folder => return next
  | some (.file _) => throw .notADirectory
  | none => throw .notFound

/-- The folder that names lead to, all of them folders. -/
def walk (files : Files) (here : Place) : List String → Except FileFault Place
  | [] => .ok here
  | name :: rest => do files.walk (← files.enter here name) rest

def isFolder (files : Files) (p : Path) : Bool := (files.walk p.start p.names).isOk

/-- What a path leads to, if it leads to anything. -/
def lookUp? (files : Files) (p : Path) : Except FileFault (Option (Place × Node)) :=
  let found : Except FileFault (Option (Place × Node)) := do
    if pathLimit < p.text.utf8ByteSize then throw .nameTooLong
    match p.names.getLast? with
    | none => return some (p.start, .folder)
    | some name =>
        let here ← locate (← files.walk p.start p.names.dropLast) name
        return (files.find? here).map fun node => (here, node)
  match found with
  | .error .notFound => .ok none
  | .error .notADirectory => .ok none
  | found => found

/-- What a folder holds, by names. -/
def entriesOf (files : Files) (here : Place) : List (String × Node) :=
  files.nodes.filterMap fun (place, node) =>
    place.getLast?.bind fun name => if place.dropLast == here then some (name, node) else none

/-! ## 3. Changing -/

def put (files : Files) (here : Place) (node : Node) : Files :=
  ⟨files.nodes.filter (fun n => n.1 != here) ++ [(here, node)]⟩

def placeForFolder (files : Files) (p : Path) : Except FileFault Place := do
  if pathLimit < p.text.utf8ByteSize then throw .nameTooLong
  match p.names.getLast? with
  | none => throw .exists_
  | some name =>
      let here ← locate (← files.walk p.start p.names.dropLast) name
      if (files.find? here).isSome then throw .exists_
      return here

/-- Makes one folder; one that is there already is left. -/
def makeFolder (files : Files) (p : Path) : Except FileFault Unit × Files :=
  match files.placeForFolder p with
  | .ok here => (.ok (), files.put here .folder)
  | .error f => (if f != .notFound && files.isFolder p then .ok () else .error f, files)

/-- Makes the folder to which names lead, the last of them first, and the folders on the way to it. What has been
made stays even if a later folder cannot be made. -/
def makeFolders (files : Files) (fromRoot : Bool) : (reversed : List String) → Except FileFault Unit × Files
  | [] => (.ok (), files)
  | name :: before =>
      let p : Path := ⟨fromRoot, (name :: before).reverse⟩
      match files.makeFolder p with
      | (.error .notFound, _) =>
          match makeFolders files fromRoot before with
          | (.ok (), files) => files.makeFolder p
          | failed => failed
      | done => done

/-- Makes the folder around the last name of a path. -/
def makeFoldersFor (files : Files) (p : Path) : Except FileFault Unit × Files :=
  files.makeFolders p.fromRoot p.names.dropLast.reverse

/-- How long the path of a place is from the root on, in bytes. Places above the working directory count as if they
were at the root. -/
def lengthFromRoot (here : Place) : Nat :=
  here.text.utf8ByteSize +
    if here.head? == some "/" || here.head? == some ".." then 0 else workingLength

/-- Opens a file for appending; it is made if it is not there. -/
def openFile (files : Files) (here : Place) : Except FileFault Files := do
  if pathLimit < lengthFromRoot here then throw .nameTooLong
  match here.getLast? with
  | none => throw .isADirectory
  | some name =>
      if nameLimit < name.utf8ByteSize then throw .nameTooLong
      match files.find? here with
      | some .folder => throw .isADirectory
      | some (.file _) => return files
      | none => return files.put here (.file [])

def append (files : Files) (here : Place) (text : String) : Files :=
  ⟨files.nodes.map fun (p, node) =>
    match node with
    | .file written => if p == here then (p, .file (written ++ [text])) else (p, node)
    | .folder => (p, node)⟩

def contents (files : Files) : List (Place × List String) :=
  files.nodes.filterMap fun (here, node) =>
    match node with
    | .file written => some (here, written)
    | .folder => none

/-- The files by the texts of their places, in their order. -/
def listing (files : Files) : List (String × List String) :=
  (files.contents.map fun (here, written) => (Place.text here, written)).mergeSort fun a b =>
    !(b.1 < a.1)

/-! ## 4. Facts -/

theorem place_ofText_of_plain {name : String} (hslash : '/' ∉ name.toList) (hempty : name ≠ "")
    (hpoint : name ≠ ".") (htwo : name ≠ "..") : (Path.ofText name).place = [name] := by
  have hhead : name.toList.head? ≠ some '/' := fun h => hslash (List.mem_of_mem_head? h)
  simp [Path.ofText, Path.place, Path.start, Place.step, Text.pieces_of_not_mem hslash, hempty, hpoint,
    htwo, hhead]

end Files

end Gatehouse.Trace
