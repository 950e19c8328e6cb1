/-!
Why data is refused. A field of a record is refused with an issue at its place. A sequence that is made as it is gone
through breaks off where an item cannot be made. What goes deeper than it is followed is never refused: it ends
whatever follows it.
-/

namespace Gatehouse

/-- What goes deeper than it is followed. -/
inductive Depth where
  /-- Decisions inside decisions, or packages inside packages. -/
  | runs
  /-- Imports inside imports, or objects that are asked for their forms. -/
  | calls
  /-- Values inside values, when they are written. -/
  | forms
  /-- Values inside values, when they are compared. -/
  | comparisons
  /-- Values inside values, when they are sent. -/
  | documents
  deriving DecidableEq, Repr

/-- Why a field of a record is refused. -/
inductive Issue where
  | missing
  | notText
  /-- Bytes that spell no text. -/
  | notUtf8
  | notAmong
  | frozen
  | notAMapping
  | unreadableBool
  | notBool
  | notInteger
  | unreadableInteger
  | fraction
  /-- An infinity or no number in the place of an integer. -/
  | notFinite
  | tooLarge
  /-- A value that cannot even be read; the record is then not looked at any further. -/
  | tooDeep (depth : Depth)
  deriving DecidableEq, Repr

/-- Why an item of a sequence cannot be made. -/
inductive Break where
  /-- It would be made of things of the wrong kind. -/
  | wrongKind
  /-- It is a record with refused fields, each with its place. -/
  | invalid (issues : List (String × Issue))
  /-- It is a request with something of this kind for its ids. -/
  | idsNotAMapping (kind : String)
  /-- It is a member declared with something that it cannot stand for. -/
  | badValue (message : String)
  /-- It is a member declared with an infinity for its number. -/
  | tooLarge
  | tooDeep (depth : Depth)
  deriving DecidableEq, Repr

namespace Break

def below (place : String) (issues : List (String × Issue)) : List (String × Issue) :=
  issues.map fun (inner, issue) => (place ++ "." ++ inner, issue)

theorem length_below (place : String) (issues : List (String × Issue)) :
    (below place issues).length = issues.length := by
  simp [below]

end Break

end Gatehouse
