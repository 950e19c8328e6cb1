import Gatehouse.Fault

/-!
The variables of a process. Each name stands once; its variable keeps its place when it gets another value.
-/

namespace Gatehouse

/-- The variables of a process; `mark` begins the names of those that are settings. -/
structure Environment where
  mark : String
  entries : List (String × String)
  deriving Repr

namespace Environment

def empty : Environment := ⟨"", []⟩

/-- Why a variable cannot be set, if so: its name has to be there and free of equals signs, and a null character may
stand nowhere. -/
def refusal? (name value : String) : Option Fault :=
  if name.toList.contains '\x00' || value.toList.contains '\x00' then some (.badValue .nullByte)
  else if name.toList.contains '=' then some (.badValue .badVariableName)
  else if name == "" then some .invalidArgument
  else none

/-- Sets a variable where it stands, or behind the others, or removes it. -/
def set (env : Environment) (name : String) (value : Option String) : Except Fault Environment :=
  match value with
  | none => .ok { env with entries := env.entries.filter fun v => v.1 != name }
  | some value =>
      match refusal? name value with
      | some fault => .error fault
      | none =>
          .ok { env with entries :=
            if env.entries.any fun v => v.1 == name then
              env.entries.map fun v => if v.1 == name then (name, value) else v
            else env.entries ++ [(name, value)] }

/-- Without a value there is no variable of the name any more. -/
theorem notMem_of_set_none {env after : Environment} {name value : String} (h : env.set name none = .ok after) :
    (name, value) ∉ after.entries := by
  simp only [set, Except.ok.injEq] at h
  simp [← h]

end Environment

end Gatehouse
