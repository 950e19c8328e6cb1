import Gatehouse.Route.Table
import Gatehouse.Request
import Gatehouse.Url.Basic
import Gatehouse.Url.Query

/-!
Targets of a check: a request, an option mapping, or a path with a query. A path is resolved below the mount
path to a resource, an action and ids; ids of the path come before those of the query, and the first of several
in the query counts.
-/

namespace Gatehouse

/-- Resolves paths: by a route table, or always to the same match. -/
inductive Resolver where
  | table (table : Route.Table)
  /-- Stands for a resolver of the application on one path. It cannot tell paths apart, remember them or refuse one. -/
  | always (m : Route.Match)

namespace Resolver

def resolve (r : Resolver) (path : List Char) : Except Fault Route.Match :=
  match r with
  | .table t => t.resolve path
  | .always m => .ok m

def resolveValue (r : Resolver) (path : Value) : Except Fault Route.Match :=
  match r with
  | .table t => t.resolveValue path
  | .always m => .ok m

/-- Adds a route; only a table takes one. -/
def add (r : Resolver) (template : Value) (defaults : List (String × Value)) : Except Fault Resolver :=
  match r with
  | .table t => (t.add template defaults).map .table
  | .always _ => .error .noAttribute

end Resolver

structure Adapter where
  resolver : Option Resolver
  /-- The path under which the application is mounted, without slashes at its end. -/
  mount : List Char

namespace Adapter

/-- An adapter for a mount path; slashes at its end do not count. -/
def make (resolver : Option Resolver) (mount : String) : Adapter where
  resolver
  mount := (mount.toList.reverse.dropWhile (· == '/')).reverse

/-- A path below the mount path. A path that is not below it stays as it is; nothing is the root. -/
def belowMount (a : Adapter) (path : List Char) : List Char :=
  let path :=
    if !a.mount.isEmpty && (path == a.mount || (a.mount ++ ['/']).isPrefixOf path) then
      path.drop a.mount.length
    else path
  if path.isEmpty then ['/'] else path

def routeIds (params : List (String × Value)) : Ids :=
  params.foldl (fun ids (k, v) => if Ids.isIdName k then ids.put k v else ids) []

/-- The ids of the query behind those that are there already. -/
def addQueryIds (ids : Ids) (pairs : List (String × String)) : Ids :=
  pairs.foldl (fun ids (k, v) => if Ids.isIdName k then ids.putNew k (.text v) else ids) ids

/-- The request that a path describes. `target` is the path as it was given, for messages. -/
def ofPath (a : Adapter) (target : Value) (text : String) : Except Fault Request :=
  match a.resolver with
  | none => .error (.misconfigured .noResolver)
  | some resolver =>
      if target.isNamed "lstrip" then .error .wrongKind else
      match Url.parse text.toList with
      | .error fault => .error (.badValue (.url fault))
      | .ok url => do
          -- Only the path of a URL is looked at; its host and its fragment do not count.
          let path := a.belowMount url.path
          if path.head? != some '/' then throw (.ambiguous (.notAbsolute target))
          let route ← resolver.resolve path
          if route.resource == "" || route.action == "" then throw (.ambiguous (.incomplete target))
          return {
            user := .null
            resource := .text route.resource
            action := .text route.action
            ids := addQueryIds (routeIds route.params) (Url.queryPairs false url.query) }

def normalize (a : Adapter) (target : Value) : Except Fault Request :=
  match target with
  | .request user resource action ids => .ok { user, resource, action, ids }
  | .dict entries => Request.ofEntries entries
  | target =>
      match target.text? with
      | some text => a.ofPath target text
      | none => .error (.misconfigured (.unusableTarget target.kind))

/-! ## Facts -/

theorem normalize_request (a : Adapter) (r : Request) : a.normalize r.toValue = .ok r := rfl

theorem normalize_dict (a : Adapter) (entries : List (Value × Value)) :
    a.normalize (.dict entries) = Request.ofEntries entries := rfl

theorem belowMount_of_no_mount (resolver : Option Resolver) {path : List Char} (h : path ≠ []) :
    (Adapter.mk resolver []).belowMount path = path := by
  simp [belowMount, h]

end Adapter

end Gatehouse
