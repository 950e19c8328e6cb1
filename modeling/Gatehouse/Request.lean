import Gatehouse.Ids
import Gatehouse.Field

/-!
Requests for access, before they are decided: who wants to do what, on which resource, with which object ids.
Missing parts are null.
-/

namespace Gatehouse

structure Request where
  user : Value
  resource : Value
  action : Value
  ids : Ids
  deriving Inhabited, Repr

namespace Request

def toValue (r : Request) : Value := .request r.user r.resource r.action r.ids

def ofFields (fields : List (String × Value)) : Except Fault Request := do
  let field (name : String) : Value := (Field.given? fields name).getD .null
  let ids ← Ids.coerce (field "ids")
  return { user := field "user", resource := field "resource", action := field "action", ids }

/-! ## Options -/

/-- One element of a sequence of pairs, as key and value. -/
def pairOf (index : Nat) (v : Value) : Except Fault (Value × Value) :=
  let ofItems (items : List Value) : Except Fault (Value × Value) :=
    match items with
    | [key, value] => if key.isKey then .ok (key, value) else .error .wrongKind
    | items => .error (.badValue (.notAPair index items.length))
  match v.text? with
  | some s => ofItems (s.toList.map fun c => Value.text (String.singleton c))
  | none =>
      match v.items? with
      | some items => do
          v.finish
          ofItems items
      | none => .error .wrongKind

/-- The entries of an option mapping: a mapping, or a sequence of pairs. What has keys is taken for a mapping. -/
def entriesOf (options : Value) : Except Fault (List (Value × Value)) :=
  match options with
  | .dict entries => .ok entries
  | v =>
      if v.isNamed "keys" then .error .wrongKind else
      let items? := match v.text? with
        | some s => some (s.toList.map fun c => Value.text (String.singleton c))
        | none => v.items?
      match items? with
      | some items => do
          let pairs ← items.zipIdx.mapM fun (item, index) => pairOf index item
          v.finish
          return Value.entriesOf pairs
      | none => .error .wrongKind

/-- The option under a name; null when it is not given. -/
def option (entries : List (Value × Value)) (name : String) : Value :=
  (Value.lookup (.text name) entries).getD .null

/-- The ids of a request given by options: those under `ids`, and every other option whose name is that of an
id, unless `ids` has it already. -/
def idsOfOptions (entries : List (Value × Value)) : Except Fault Ids := do
  let explicit ← Ids.coerce (option entries "ids")
  entries.foldlM
    (fun ids (key, value) => do
      if Value.equals key (.text "ids") then return ids
      if ← Ids.isIdKey key then return ids.putNew (← key.written?) value else return ids)
    explicit

/-- The request that entries of an option mapping describe; `controller` is another word for `resource`. -/
def ofEntries (entries : List (Value × Value)) : Except Fault Request := do
  let ids ← idsOfOptions entries
  let resource := match option entries "resource" with
    | .null => option entries "controller"
    | v => v
  return { user := option entries "user", resource, action := option entries "action", ids }

def ofOptions (options : Value) : Except Fault Request := do
  ofEntries (← entriesOf options)

theorem entriesOf_dict (entries : List (Value × Value)) : entriesOf (.dict entries) = .ok entries := rfl

end Request

end Gatehouse
