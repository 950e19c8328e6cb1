import Gatehouse.Field

/-!
Principals: whoever asks for access. Deciding needs a principal's id and role; the trace asks for a
description as well.
-/

namespace Gatehouse.Principal

/-- A principal of the stock kind, from its fields: an id has to be given. -/
def ofFields (fields : List (String × Value)) : Except Fault Value :=
  let id := Field.required Field.any fields "id"
  let role := Field.optional .null Field.any fields "role"
  let login := Field.optional none Field.textOrNull fields "login"
  let name := Field.optional none Field.textOrNull fields "name"
  match id, role, login, name with
  | .ok id, .ok role, .ok login, .ok name => .ok (.account id role (.ofText? login) (.ofText? name))
  | id, role, login, name =>
      .error (.ofIssues (Field.issue "id" id ++ Field.issue "role" role ++ Field.issue "login" login ++
        Field.issue "name" name))

/-- The fields of a principal of the stock kind by their names. -/
def toFields : Value → List (String × Value)
  | .account id role login name => [("id", id), ("role", role), ("login", login), ("name", name)]
  | _ => []

/-- A principal's description; an account is called by its name, else its login, else its id. -/
def description (v : Value) : Except Fault Value :=
  match v with
  | .principal _ _ (some description) => .ok description
  | .principal _ _ none => .error .noDescription
  | .account id _ login name =>
      if name.truthy then .ok name else if login.truthy then .ok login
      else do return .text ("user " ++ (← id.written?))
  | v => .error (if v.isNamed "description" then .wrongKind else .noAttribute)

/-- How the trace names a principal, in a room of this size. -/
def labelIn (room : Nat) (v : Value) : Except Fault String :=
  match v with
  | .null => .ok "none"
  | v => do
      let described ← description v
      match v.id?, v.role? with
      | some id, some role =>
          return (← described.writtenIn? room) ++ "(id:" ++ (← id.writtenIn? room) ++ " role:" ++
            (← role.writtenIn? room) ++ ")"
      | _, _ => throw .noAttribute

def label (v : Value) : Except Fault String := labelIn Value.formRoom v

def role (v : Value) : Except Fault Value :=
  match v.role? with
  | some r => .ok r
  | none => .error .noAttribute

def id (v : Value) : Except Fault Value :=
  match v.id? with
  | some i => .ok i
  | none => .error .noAttribute

theorem label_null : label .null = .ok "none" := rfl

end Gatehouse.Principal
