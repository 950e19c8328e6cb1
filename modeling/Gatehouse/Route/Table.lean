import Gatehouse.Route.Template
import Gatehouse.Field

/-!
Route tables: templates in the order in which they are tried, with defaults for what a path does not carry.
A route counts only when it yields a resource and an action.
-/

namespace Gatehouse.Route

structure Match where
  resource : String
  action : String
  params : List (String × Value)
  deriving Repr

namespace Match

/-- A match from its fields: resource and action have to be given. -/
def ofFields (fields : List (String × Value)) : Except Fault Match :=
  let resource := Field.required Field.text fields "resource"
  let action := Field.required Field.text fields "action"
  let params := match Field.given? fields "params" with
    | some v => Field.mapping "params" v
    | none => .ok []
  match resource, action, params with
  | .ok resource, .ok action, .ok params => .ok { resource, action, params }
  | resource, action, params =>
      .error (.ofIssues (Field.issue "resource" resource ++ Field.issue "action" action ++
        match params with
        | .ok _ => []
        | .error issues => issues))

end Match

structure Entry where
  template : Template
  defaults : List (String × Value)
  deriving Repr

/-- Routes added later by hand come before the others. -/
structure Table where
  custom : List Entry
  routes : List Entry
  deriving Repr

/-! ## 1. Making tables -/

/-- A route from its template, which has to start with a slash. -/
def compile (template : Value) (defaults : List (String × Value)) : Except Fault Entry :=
  if template.isNamed "startswith" then .error .wrongKind else
  match template.text?, template with
  | none, .bytes _ => .error .wrongKind
  | none, _ => .error .noAttribute
  | some text, _ =>
      if text.toList.head? == some '/' then do
        let pieces ← Template.parse text
        return { template := pieces, defaults := Field.ofPairs defaults }
      else .error (.misconfigured (.relativeTemplate template))

namespace Table

def standard : Table where
  custom := []
  routes :=
    let slash := Piece.literal '/'
    let resource := Piece.parameter "resource" .text
    let action := Piece.parameter "action" .text
    let id := Piece.parameter "id" .text
    [⟨[slash, resource, slash, action, slash, id], []⟩,
      ⟨[slash, resource, slash, action], []⟩,
      ⟨[slash, resource], [("action", .text "index")]⟩]

def ofRoutes (routes : List (Value × List (String × Value))) : Except Fault Table := do
  let routes ← routes.mapM fun (template, defaults) => compile template defaults
  return { custom := [], routes }

/-- Adds a route that is tried before the standard ones and after those added earlier. -/
def add (table : Table) (template : Value) (defaults : List (String × Value)) :
    Except Fault Table := do
  if defaults.any fun d => d.1 == "template" || d.1 == "self" then throw .wrongKind
  let route ← compile template defaults
  return { table with custom := table.custom ++ [route] }

end Table

/-! ## 2. Resolving paths -/

/-- The parameters of a route with what the path gives over the defaults. -/
def paramsOf (defaults : List (String × Value)) : List Capture → Except Fault (List (String × Value))
  | [] => .ok defaults
  | c :: rest => do
      let value ← c.value
      paramsOf (Field.put defaults c.name value) rest

/-- The parameter under a name; null when there is none. -/
def paramOf (params : List (String × Value)) (name : String) : Value :=
  ((params.find? fun p => p.1 == name).map Prod.snd).getD .null

/-- What one route makes of a path: nothing when the path does not match or resource or action is missing. -/
def Entry.resolve (route : Entry) (path : List Char) : Except Fault (Option Match) :=
  match route.template.captures path with
  | none => .ok none
  | some captures => do
      -- What the path gives wins over the defaults, resource and action included.
      let params ← paramsOf route.defaults captures
      let resource := paramOf params "resource"
      let action := paramOf params "action"
      if resource.truthy && action.truthy then
        return some
          { resource := ← resource.written?
            action := ← action.written?
            params := params.filter fun p => p.1 != "resource" && p.1 != "action" }
      else return none

def firstMatch (routes : List Entry) (path : List Char) : Except Fault (Option Match) :=
  match routes with
  | [] => .ok none
  | route :: rest => do
      match ← route.resolve path with
      | some m => return some m
      | none => firstMatch rest path

/-- A path without the slashes at its end; a path of one character is left alone. -/
def trimmed (path : List Char) : List Char :=
  if 1 < path.length then (path.reverse.dropWhile (· == '/')).reverse else path

namespace Table

def resolve (table : Table) (path : List Char) : Except Fault Match := do
  let path := trimmed path
  match ← firstMatch (table.custom ++ table.routes) path with
  | some m => return m
  | none => throw (.ambiguous (.noRoute (.text (String.ofList path))))

/-- The number of items of a value that has a length. -/
def lengthOf? : Value → Option Nat
  | .bytes bs => some bs.length
  | .list xs => some xs.length
  | .tuple xs => some xs.length
  | .set xs => some xs.length
  | .dict entries => some entries.length
  | _ => none

/-- Resolves a path given as a value; what is no text is no path. -/
def resolveValue (table : Table) (path : Value) : Except Fault Match :=
  match path.text? with
  | some s =>
      if 1 < s.length then
        if path.isNamed "rstrip" then .error .wrongKind else table.resolve s.toList
      else
        match firstMatch (table.custom ++ table.routes) s.toList with
        | .error f => .error f
        | .ok (some m) => .ok m
        | .ok none => .error (.ambiguous (.noRoute path))
  | none =>
      match lengthOf? path, path with
      | none, _ => .error .wrongKind
      | some length, path =>
          if 1 < length then
            match path with
            | .bytes _ => .error .wrongKind
            | _ => .error .noAttribute
          else if (table.custom ++ table.routes).isEmpty then
            .error (.showing path (.ambiguous (.noRoute path)))
          else .error .wrongKind

end Table

end Gatehouse.Route
