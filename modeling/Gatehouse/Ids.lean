import Gatehouse.Value.Equality
import Gatehouse.Fault

/-!
Object ids of a request: the parameters named `id`, or with a name that ends in `_id`, under textual keys in
their order.
-/

namespace Gatehouse

/-- Object ids by key; each key stands once. -/
abbrev Ids := List (String × Value)

namespace Ids

/-- Whether a parameter of this name holds an object id. -/
def isIdName (name : String) : Bool :=
  name == "id" || name.toList.drop (name.toList.length - 3) == ['_', 'i', 'd']

/-- Whether a parameter under this key holds an object id. -/
def isIdKey (key : Value) : Except Fault Bool := return isIdName (← key.written?)

def get? (ids : Ids) (key : String) : Option Value :=
  (ids.find? fun e => e.1 == key).map Prod.snd

def has (ids : Ids) (key : String) : Bool := ids.any fun e => e.1 == key

/-- Puts an id under a key: over the one that is there, else last. -/
def put : Ids → String → Value → Ids
  | [], key, value => [(key, value)]
  | (k, v) :: rest, key, value =>
      if k == key then (k, value) :: rest else (k, v) :: put rest key value

/-- Puts an id under a key that has none yet. -/
def putNew (ids : Ids) (key : String) (value : Value) : Ids :=
  if ids.has key then ids else ids ++ [(key, value)]

/-- All entries of a mapping under textual keys; of keys with the same text the last one counts. -/
def ofEntries (entries : List (Value × Value)) : Except Fault Ids :=
  entries.foldlM (fun ids (k, v) => return ids.put (← k.written?) v) []

/-- The ids given as such: a mapping, or nothing. -/
def coerce (v : Value) : Except Fault Ids :=
  match v with
  | .null => .ok []
  | .dict entries => ofEntries entries
  | v => .error (.misconfigured (.idsNotAMapping v.kind))

def extract (params : Value) : Except Fault Ids :=
  if !params.truthy then .ok []
  else match params with
    | .dict entries => do ofEntries (← entries.filterM fun e => isIdKey e.1)
    | params => .error (if params.isNamed "items" then .wrongKind else .noAttribute)

def toValue (ids : Ids) : Value := .dict (ids.map fun (k, v) => (.text k, v))

/-! ## Facts -/

theorem get?_nil (key : String) : get? [] key = none := rfl

theorem get?_put_self (ids : Ids) (key : String) (value : Value) :
    (ids.put key value).get? key = some value := by
  induction ids with
  | nil => simp [put, get?]
  | cons e rest ih =>
    obtain ⟨k, v⟩ := e
    rw [put]
    split
    · rename_i h
      simp [get?, h]
    · rename_i h
      simpa [get?, h] using ih

theorem get?_put_of_ne {ids : Ids} {key other : String} (value : Value) (h : other ≠ key) :
    (ids.put key value).get? other = ids.get? other := by
  induction ids with
  | nil =>
    simp [put, get?, Ne.symm h]
  | cons e rest ih =>
    obtain ⟨k, v⟩ := e
    rw [put]
    split
    · rename_i hk
      have hk : k = key := by simpa using hk
      subst hk
      simp [get?, Ne.symm h]
    · rename_i hk
      simp only [get?, List.find?_cons] at ih ⊢
      split
      · rfl
      · exact ih

theorem get?_putNew_of_has {ids : Ids} {key : String} (value : Value) (h : ids.has key = true) :
    ids.putNew key value = ids := by
  simp [putNew, h]

theorem isIdName_id : isIdName "id" = true := by decide

end Ids

end Gatehouse
