import Gatehouse.Value.Basic
import Gatehouse.Text.Quoted

/-!
Values as text. `shown` is the form inside collections and messages, where texts stand in quotes; `written` is
the plain form, where a text is itself.
-/

namespace Gatehouse.Value

def bracketed (left right : String) (items : List String) : String :=
  left ++ String.intercalate ", " items ++ right

mutual

def shown : Value → String
  | .null => "None"
  | .bool b => if b then "True" else "False"
  | .int i => toString i
  | .float x => x.text
  | .text s => Text.quoted s
  | .bytes bs => Text.quotedBytes bs
  | .list xs => bracketed "[" "]" (shownAll xs)
  | .tuple [x] => "(" ++ shown x ++ ",)"
  | .tuple xs => bracketed "(" ")" (shownAll xs)
  | .set [] => "set()"
  | .set xs => bracketed "\x7b" "\x7d" (shownAll xs)
  | .dict entries => bracketed "\x7b" "\x7d" (shownEntries entries)
  | .once _ _ => "<generator object>"
  | .all => "ALL"
  | .action s => "ActionName(" ++ Text.quoted s ++ ")"
  | .member group name value _ => "<" ++ group ++ "." ++ name ++ ": " ++ shown value ++ ">"
  | .textMember group name s => "<" ++ group ++ "." ++ name ++ ": " ++ Text.quoted s ++ ">"
  | .intMember group name i => "<" ++ group ++ "." ++ name ++ ": " ++ toString i ++ ">"
  | .uuid s => "UUID(" ++ Text.quoted s ++ ")"
  | .token label => "Opaque(" ++ label ++ ")"
  | .principal id _ _ => "User(" ++ shown id ++ ")"
  | .account id role login name =>
      "AuthenticatedUser(id=" ++ shown id ++ ", role=" ++ shown role ++ ", login=" ++ shown login ++
        ", name=" ++ shown name ++ ")"
  | .request user resource act ids =>
      "RequestContext(user=" ++ shown user ++ ", resource=" ++ shown resource ++ ", action=" ++
        shown act ++ ", ids=" ++ bracketed "\x7b" "\x7d" (shownIds ids) ++ ")"

def shownAll : List Value → List String
  | [] => []
  | x :: xs => shown x :: shownAll xs

def shownEntries : List (Value × Value) → List String
  | [] => []
  | (k, v) :: rest => (shown k ++ ": " ++ shown v) :: shownEntries rest

def shownIds : List (String × Value) → List String
  | [] => []
  | (k, v) :: rest => (Text.quoted k ++ ": " ++ shown v) :: shownIds rest

end

def written : Value → String
  | .text s => s
  | .action s => s
  | .all => "Wildcard.ALL"
  | .member group name _ _ => group ++ "." ++ name
  | .textMember group name _ => group ++ "." ++ name
  | .intMember group name _ => group ++ "." ++ name
  | .uuid s => s
  | .account id role login name =>
      "id=" ++ shown id ++ " role=" ++ shown role ++ " login=" ++ shown login ++ " name=" ++ shown name
  | .request user resource act ids =>
      "user=" ++ shown user ++ " resource=" ++ shown resource ++ " action=" ++ shown act ++
        " ids=" ++ bracketed "\x7b" "\x7d" (shownIds ids)
  | v => shown v

/-- What the plain form of a value cannot be made for, in a room of this size; members are only named in it. -/
def writtenOverflow? (room : Nat) (v : Value) : Option Depth :=
  if v.isMember then none else v.overflow? room

@[simp] theorem written_text (s : String) : (text s).written = s := rfl

theorem writtenOverflow?_text {room : Nat} (s : String) (h : 0 < room) :
    (text s).writtenOverflow? room = none :=
  overflow?_of_parts_nil rfl h

end Gatehouse.Value
