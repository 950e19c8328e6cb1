import Gatehouse.Shared
import Gatehouse.Document

/-!
Guarding a web application. A request is the host of its own check: it names the user, its path names the
resource unless the guard does, and its parameters hold the ids. A guard is declared with an action and answers
each request with a decision or a refusal; faults that reach the application become error answers.
-/

namespace Gatehouse.Web

structure Request where
  /-- The host it was sent to. -/
  authority : String
  path : String
  /-- The query without its question mark, nothing decoded. -/
  query : String
  pathParams : List (String × Value)
  /-- Who sent it; null when nobody is known. -/
  user : Value

/-! ## 1. Reading requests -/

/-- A character of a path as the URL of the request holds it. -/
def escaped (c : Char) : List Char :=
  if c = '?' then ['%', '3', 'F']
  else if c = '#' then ['%', '2', '3']
  else if c = '\\' then ['%', '5', 'C']
  else [c]

namespace Request

/-- The URL of a request. Its path begins with a slash even if the one received does not. -/
def url (r : Request) : Except Fault Url :=
  let query := if r.query = "" then [] else '?' :: r.query.toList
  let path := r.path.toList.flatMap escaped
  let path := if path.head? == some '/' then path else '/' :: path
  match Url.parse ("http://".toList ++ r.authority.toList ++ path ++ query) with
  | .ok url => .ok url
  | .error fault => .error (.badValue (.url fault))

/-- The first part of a path that is not empty. -/
def firstPart? (path : List Char) : Option (List Char) :=
  (Text.pieces '/' path).find? fun p => !p.isEmpty

/-- The resource of a request: the one that is given, else the one its path begins with, else the fallback. -/
def resource (r : Request) (given fallback : Value) : Except Fault Value :=
  if given.truthy then .ok given
  else do
    let url ← r.url
    return match firstPart? url.path with
      | some part => .text (String.ofList part)
      | none => fallback

/-- The query as it comes over the wire: one character for each byte. -/
def wireQuery (r : Request) : List Char :=
  (r.query.toList.flatMap String.utf8EncodeChar).map fun b => Char.ofNat b.toNat

/-- The parameters of a request: those of the query, the last of several under its name, and over them those of
the path. -/
def params (r : Request) : List (String × Value) :=
  -- A parameter keeps the place of its first occurrence and the value of its last.
  let ofQuery := (Url.queryPairs true r.wireQuery).map fun (name, v) => (name, Value.text v)
  Field.ofPairs (ofQuery ++ r.pathParams)

def paramsValue (r : Request) : Value := .dict (r.params.map fun (name, v) => (.text name, v))

/-- A request as the host of a check. Where a login is needed, it is the user that tells of one. -/
def asHost (r : Request) (given fallback : Value) (needsLogin : Bool) : Host where
  user := .ok r.user
  resource := r.resource given fallback
  login := if needsLogin then
      some (.ok (.bool (match r.user with
        | .null => false
        | _ => true)))
    else none

end Request

/-- The fallback resource of a request: the one that is given, else that of the settings. -/
def fallbackOr (given : Value) : Run Value :=
  if given.truthy then return given
  else return (← Shared.settings).fallbackResource

/-! ## 2. Guards -/

/-- What a route is guarded by. -/
structure Guard where
  action : String
  /-- The resource of the route; without a true one it is read off each request. -/
  resource : Value
  needsLogin : Bool

structure Refusal where
  message : String
  resource : Option String
  action : Option String
  deriving DecidableEq, Repr

namespace Guard

/-- A guard for an action, which has to be well-formed before any request comes. -/
def declare (action resource : Value) (needsLogin : Bool) : Except Fault Guard := do
  let action ← Name.action action
  return { action, resource, needsLogin }

def target (g : Guard) (r : Request) : Except Fault Value := do
  let ids ← Ids.extract r.paramsValue
  return .dict [(.text "action", .action g.action), (.text "ids", ids.toValue)]

/-- Lets a request pass with a decision, or refuses it. -/
def check (g : Guard) (e : Engine) (r : Request) : Run (Except Refusal Decision) := do
  let host := r.asHost g.resource (.text e.fallback) g.needsLogin
  let target ← Run.ofExcept (g.target r)
  let decision ← e.decide target [] (some host)
  if decision.allowed then return .ok decision
  return .error
    { message := decision.reason, resource := decision.resource, action := decision.action }

end Guard

/-! ## 3. Error answers -/

structure ErrorAnswer where
  status : Nat
  error : String
  /-- The message of the fault, as it was given. -/
  message : Value
  code : Value
  deriving Repr

def forbidden : Nat × String := (403, "forbidden")

/-- The answer to a fault; only the three kinds that a check ends in have one. -/
def ErrorAnswer.ofFault? (f : Fault) : Option ErrorAnswer :=
  let answer (status : Nat) (error : String) : Option ErrorAnswer :=
    f.code?.map fun code => { status, error, message := f.messageValue, code }
  match f with
  | .misconfigured _ => answer 500 "authorization_misconfigured"
  | .ambiguous _ => answer 400 "bad_request"
  | .denied _ _ _ => answer forbidden.1 forbidden.2
  | _ => none

/-- What an answer is sent as; a message that no document can hold is a fault of its own. -/
def ErrorAnswer.body (a : ErrorAnswer) : Except Fault Document :=
  Document.ofValue (.dict [(.text "error", .text a.error), (.text "message", a.message), (.text "code", a.code)])

/-! ## 4. Facts -/

theorem resource_of_given {r : Request} {given fallback : Value} (h : given.truthy = true) :
    r.resource given fallback = .ok given := by
  simp [Request.resource, h]

theorem asHost_login_of_free (r : Request) (given fallback : Value) :
    (r.asHost given fallback false).login = none := rfl

end Gatehouse.Web
