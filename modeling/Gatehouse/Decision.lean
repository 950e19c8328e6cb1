import Gatehouse.Field

/-!
The answer to a request for access: whether it is granted, what was asked, which rule granted it, and how many
rules were tried.
-/

namespace Gatehouse

structure Decision where
  allowed : Bool
  resource : Option String
  action : Option String
  reason : String
  matchedResource : Option String
  matchedAction : Option String
  matchedRule : Option String
  /-- How many rules were tried; in a decision put together by hand, what was given for the number. -/
  evaluatedRules : Value
  deriving Repr

namespace Decision

def notLoggedIn : Decision where
  allowed := false
  resource := none
  action := none
  reason := "Not logged in"
  matchedResource := none
  matchedAction := none
  matchedRule := none
  evaluatedRules := .int 0

def noRule (resource action : String) (evaluated : Nat) : Decision where
  allowed := false
  resource := some resource
  action := some action
  reason := "No rule grants this action"
  matchedResource := none
  matchedAction := none
  matchedRule := none
  evaluatedRules := .int evaluated

/-- The grant by a rule found under `scope` and `bucket`, the last one of those tried. -/
def granted (resource action scope bucket rule : String) (evaluated : Nat) : Decision where
  allowed := true
  resource := some resource
  action := some action
  reason := "Granted by rule on " ++ scope ++ ":" ++ bucket
  matchedResource := some scope
  matchedAction := some bucket
  matchedRule := some rule
  evaluatedRules := .int evaluated

/-- A decision as a fault, for callers that want denials raised. -/
def refusal (d : Decision) : Fault :=
  Fault.denial (.text (d.resource.getD "")) (.text (d.action.getD "")) (.text d.reason)

/-- A decision from its fields: whether it allows has to be given. -/
def ofFields (fields : List (String × Value)) : Except Fault Decision :=
  let text? := Field.optional none Field.textOrNull fields
  let allowed := Field.required Field.bool fields "allowed"
  let resource := text? "resource"
  let action := text? "action"
  let reason := Field.optional "" Field.text fields "reason"
  let matchedResource := text? "matched_resource"
  let matchedAction := text? "matched_action"
  let matchedRule := text? "matched_rule"
  let evaluated := Field.optional (.int 0) Field.integer fields "evaluated_rules"
  match allowed, resource, action, reason, matchedResource, matchedAction, matchedRule, evaluated with
  | .ok allowed, .ok resource, .ok action, .ok reason, .ok matchedResource, .ok matchedAction,
      .ok matchedRule, .ok evaluatedRules =>
      .ok { allowed, resource, action, reason, matchedResource, matchedAction, matchedRule,
            evaluatedRules }
  | _, _, _, _, _, _, _, _ =>
      .error (.ofIssues (Field.issue "allowed" allowed ++ Field.issue "resource" resource ++
        Field.issue "action" action ++ Field.issue "reason" reason ++
        Field.issue "matched_resource" matchedResource ++ Field.issue "matched_action" matchedAction ++
        Field.issue "matched_rule" matchedRule ++ Field.issue "evaluated_rules" evaluated))

def toFields (d : Decision) : List (String × Value) :=
  [("allowed", .bool d.allowed), ("resource", .ofText? d.resource), ("action", .ofText? d.action),
    ("reason", .text d.reason), ("matched_resource", .ofText? d.matchedResource),
    ("matched_action", .ofText? d.matchedAction), ("matched_rule", .ofText? d.matchedRule),
    ("evaluated_rules", d.evaluatedRules)]

@[simp] theorem allowed_notLoggedIn : notLoggedIn.allowed = false := rfl

@[simp] theorem allowed_noRule (resource action : String) (evaluated : Nat) :
    (noRule resource action evaluated).allowed = false := rfl

@[simp] theorem allowed_granted (resource action scope bucket rule : String) (evaluated : Nat) :
    (granted resource action scope bucket rule evaluated).allowed = true := rfl

theorem textOrNull_ofText? (s : Option String) : Field.textOrNull (.ofText? s) = .ok s := by
  cases s <;> rfl

theorem ofFields_toFields {d : Decision} {count : Int} (h : d.evaluatedRules = .int count) :
    ofFields d.toFields = .ok d := by
  obtain ⟨allowed, resource, action, reason, matchedResource, matchedAction, matchedRule, _⟩ := d
  subst h
  simp [ofFields, toFields, Field.required, Field.optional, Field.given?, textOrNull_ofText?,
    Field.bool, Field.text, Field.integer, Field.spelled?, Value.text?, Value.number?]

end Decision

end Gatehouse
