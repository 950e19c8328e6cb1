import Gatehouse.Value.Display

/-!
Equality of values. Numbers are equal by their exact value whatever their kind, texts by their characters,
collections element by element; tokens, principals and one-pass sequences are objects of their own, and each
occurrence is another one. A member of a group of names equals itself, whatever it stands for. Mappings find
their keys by this equality.
-/

namespace Gatehouse.Value

/-! ## 1. Equality -/

/-- Equality of values without parts. -/
def equalsScalar (a b : Value) : Bool :=
  match a.text?, b.text? with
  | some s, some t => s == t
  | none, none =>
      match a.number?, b.number? with
      | some m, some n => m.equals n
      | _, _ => false
  | _, _ => false

mutual

def equals : Value → Value → Bool
  | .null, .null => true
  | .bytes a, .bytes b => a == b
  | .uuid a, .uuid b => a == b
  | .list a, .list b => equalsAll a b
  | .tuple a, .tuple b => equalsAll a b
  | .set a, .set b => a.length == b.length && areAmong b a
  | .dict a, .dict b => a.length == b.length && entriesIn b a
  | .member g n _ form, .member g' n' _ form' => g == g' && n == n' && form == form'
  | .account i r l n, .account i' r' l' n' => equals i i' && equals r r' && equals l l' && equals n n'
  | .request u r a ids, .request u' r' a' ids' =>
      equals u u' && equals r r' && equals a a' && ids.length == ids'.length && idsIn ids' ids
  | a, b => equalsScalar a b

def equalsAll : List Value → List Value → Bool
  | [], [] => true
  | x :: xs, y :: ys => equals x y && equalsAll xs ys
  | _, _ => false

/-- Whether each of the values gone through is one of `others`. -/
def areAmong (others : List Value) : List Value → Bool
  | [] => true
  | x :: xs => (others.any fun y => equals x y) && areAmong others xs

/-- Whether `entries` has every entry of the mapping gone through. -/
def entriesIn (entries : List (Value × Value)) : List (Value × Value) → Bool
  | [] => true
  | (k, v) :: rest =>
      (match entries.find? (fun e => equals k e.1) with
        | some e => equals v e.2
        | none => false) && entriesIn entries rest

def idsIn (ids : List (String × Value)) : List (String × Value) → Bool
  | [] => true
  | (k, v) :: rest =>
      (match ids.find? (fun e => e.1 == k) with
        | some e => equals v e.2
        | none => false) && idsIn ids rest

end

/-! ## 2. Depth -/

/-- The values at the same places of two values, if these are collections of one kind and length. -/
def sharedParts : Value → Value → List (Value × Value)
  | .list xs, .list ys => if xs.length = ys.length then xs.zip ys else []
  | .tuple xs, .tuple ys => if xs.length = ys.length then xs.zip ys else []
  | .dict xs, .dict ys =>
      if xs.length = ys.length then
        xs.filterMap fun (k, x) => (ys.find? fun e => equals k e.1).map fun e => (x, e.2)
      else []
  | .account i r l n, .account i' r' l' n' => [(i, i'), (r, r'), (l, l'), (n, n')]
  | .request u r a _, .request u' r' a' _ => [(u, u'), (r, r'), (a, a')]
  | _, _ => []

/-- Whether comparing pairs from the first one on comes to one that is beyond, before one that is unequal. -/
def reaches (beyond : Value → Value → Bool) : List (Value × Value) → Bool
  | [] => false
  | (x, y) :: rest => beyond x y || (equals x y && reaches beyond rest)

/-- Whether comparing two values goes on for more levels than this. -/
def isBeyond : (levels : Nat) → Value → Value → Bool
  | 0, _, _ => true
  | levels + 1, a, b => reaches (isBeyond levels) (sharedParts a b)

/-- Whether values are equal, unless it takes too deep a look. -/
def equals? (a b : Value) : Except Depth Bool :=
  if isBeyond formRoom a b then .error .comparisons else .ok (equals a b)

/-! ## 3. Keys -/

mutual

def isKey : Value → Bool
  | .list _ => false
  | .set _ => false
  | .dict _ => false
  | .account _ _ _ _ => false
  | .request _ _ _ _ => false
  | .tuple xs => areKeys xs
  | _ => true

def areKeys : List Value → Bool
  | [] => true
  | x :: xs => isKey x && areKeys xs

end

def lookup (key : Value) (entries : List (Value × Value)) : Option Value :=
  (entries.find? fun e => equals e.1 key).map Prod.snd

/-- Puts a value under a key: the key that is there keeps its place and its form, a new one comes last. -/
def put (entries : List (Value × Value)) (key value : Value) : List (Value × Value) :=
  match entries with
  | [] => [(key, value)]
  | (k, v) :: rest => if equals k key then (k, value) :: rest else (k, v) :: put rest key value

/-- The entries that pairs give when they are put in one after the other. -/
def entriesOf (pairs : List (Value × Value)) : List (Value × Value) :=
  pairs.foldl (fun entries (k, v) => put entries k v) []

/-- The mapping that pairs give when they are put in one after the other. -/
def dictOf (pairs : List (Value × Value)) : Value := .dict (entriesOf pairs)

/-! ## 4. Facts -/

theorem equals_text_text (s t : String) : equals (.text s) (.text t) = (s == t) := by
  simp [equals, equalsScalar, text?]

theorem equals_int_int (i j : Int) : equals (.int i) (.int j) = decide (i = j) := by
  simp [equals, equalsScalar, text?, number?, Number.int_equals_int]

theorem equals_token (label : String) (v : Value) : equals (.token label) v = false := by
  cases v <;> simp [equals, equalsScalar, text?, number?]

theorem isBeyond_of_sharedParts_nil {a b : Value} (levels : Nat) (h : sharedParts a b = []) :
    isBeyond (levels + 1) a b = false := by
  simp [isBeyond, h, reaches]

/-- Values without parts at the same places are always compared. -/
theorem equals?_of_sharedParts_nil {a b : Value} (h : sharedParts a b = []) : equals? a b = .ok (equals a b) := by
  have : isBeyond formRoom a b = false := isBeyond_of_sharedParts_nil 969 h
  simp [equals?, this]

theorem lookup_put_self {entries : List (Value × Value)} {key value : Value}
    (h : equals key key = true) : lookup key (put entries key value) = some value := by
  induction entries with
  | nil => simp [put, lookup, h]
  | cons e rest ih =>
    obtain ⟨k, v⟩ := e
    rw [put]
    split
    · rename_i hk
      simp [lookup, hk]
    · rename_i hk
      simpa [lookup, hk] using ih

end Gatehouse.Value
