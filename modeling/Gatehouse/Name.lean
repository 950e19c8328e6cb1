import Gatehouse.Fault
import Gatehouse.Text.Blank
import Gatehouse.Text.Lower

/-!
Names of resources and actions. Any text, or a group member whose value is a text, names what its stripped
lower-case form names; that form is an ASCII identifier.
-/

namespace Gatehouse.Name

/-! ## 1. Well-formed names -/

def isHead (c : Char) : Bool := ('a' ≤ c && c ≤ 'z') || c == '_'

def isTail (c : Char) : Bool := isHead c || ('0' ≤ c && c ≤ '9')

/-- A letter or underscore, then letters, digits and underscores; all of it lower-case ASCII. -/
def isWellFormed : List Char → Bool
  | [] => false
  | c :: rest => isHead c && rest.all isTail

def canonical (s : String) : String := Text.lower (Text.strip s)

/-! ## 2. Reading names -/

/-- The name that a value gives to a resource or an action. What a member stands for may be a member in turn, and
hide what strips it. -/
def read (subject : Subject) (v : Value) : Except Fault String :=
  if v.unwrapped.hidesStripping then .error .wrongKind else
  match v.unwrapped.text? with
  | none => .error (.misconfigured (.notAName subject v.unwrapped.kind))
  | some s =>
      if isWellFormed (canonical s).toList then .ok (canonical s)
      else .error (.misconfigured (.malformedName subject v.unwrapped))

/-- The name of an action; a value that is an action already is left as it is. -/
def action (v : Value) : Except Fault String :=
  match v with
  | .action name => .ok name
  | v => read .action v

def resource (v : Value) : Except Fault String := read .resource v

/-- The action whose rules hold for every action. -/
def everyAction : String := "all"

/-- Whether a value stands for every role or every action. -/
def isWildcard (v : Value) : Bool :=
  match v.text? with
  | some s => canonical s == "all"
  | none => false

/-- Whether a value stands for every role or every action. A text that hides what strips it cannot be asked. -/
def standsForAll (v : Value) : Except Fault Bool :=
  if v.hidesStripping then .error .wrongKind else .ok (isWildcard v)

/-! ## 3. Facts -/

theorem isWellFormed_of_read {subject : Subject} {v : Value} {name : String}
    (h : read subject v = .ok name) : isWellFormed name.toList = true := by
  unfold read at h
  split at h
  · cases h
  · cases ht : v.unwrapped.text? with
    | none => simp [ht] at h
    | some s =>
      by_cases hw : isWellFormed (canonical s).toList = true
      · simp only [ht, hw, if_true, Except.ok.injEq] at h
        exact h ▸ hw
      · simp [ht, hw] at h

theorem isTail_of_isHead {c : Char} (h : isHead c = true) : isTail c = true := by
  simp [isTail, h]

/-- Every character of a well-formed name may stand in the rest of one. -/
theorem isTail_of_mem {cs : List Char} (h : isWellFormed cs = true) {c : Char} (hc : c ∈ cs) :
    isTail c = true := by
  cases cs with
  | nil => simp at hc
  | cons d rest =>
    simp only [isWellFormed, Bool.and_eq_true, List.all_eq_true] at h
    rcases List.mem_cons.1 hc with rfl | hc
    · exact isTail_of_isHead h.1
    · exact h.2 c hc

/-- The bounds of the characters that may stand in a name. -/
theorem toNat_of_isTail {c : Char} (h : isTail c = true) :
    (97 ≤ c.toNat ∧ c.toNat ≤ 122) ∨ c.toNat = 95 ∨ (48 ≤ c.toNat ∧ c.toNat ≤ 57) := by
  simp only [isTail, isHead, Bool.or_eq_true, Bool.and_eq_true, decide_eq_true_eq, beq_iff_eq,
    Char.le_def, UInt32.le_iff_toNat_le] at h
  rcases h with (h | h) | h
  · exact Or.inl h
  · subst h
    exact Or.inr (Or.inl rfl)
  · exact Or.inr (Or.inr h)

theorem isBlank_of_isTail {c : Char} (h : isTail c = true) : Text.isBlank c = false := by
  have hb := toNat_of_isTail h
  simp only [Text.isBlank, Bool.or_eq_false_iff, Bool.and_eq_false_iff, decide_eq_false_iff_not,
    beq_eq_false_iff_ne]
  omega

theorem toLower_of_isTail {c : Char} (h : isTail c = true) : c.toLower = c := by
  have hb := toNat_of_isTail h
  have hn : c.val.toNat = c.toNat := rfl
  unfold Char.toLower
  split
  · rename_i hu
    have h1 := UInt32.le_iff_toNat_le.1 hu.1
    have h2 := UInt32.le_iff_toNat_le.1 hu.2
    simp only [hn] at h1 h2
    have e1 : ('A' : Char).val.toNat = 65 := rfl
    have e2 : ('Z' : Char).val.toNat = 90 := rfl
    omega
  · rfl

theorem map_toLower_of_isTail {cs : List Char} (h : ∀ c ∈ cs, isTail c = true) : cs.map Char.toLower = cs := by
  conv => rhs; rw [← List.map_id cs]
  exact List.map_congr_left fun c hc => toLower_of_isTail (h c hc)

theorem canonical_of_isWellFormed {s : String} (h : isWellFormed s.toList = true) :
    canonical s = s := by
  have hblank : ∀ c ∈ s.toList, Text.isBlank c = false := fun c hc =>
    isBlank_of_isTail (isTail_of_mem h hc)
  have hascii : ∀ c ∈ s.toList, c.toNat < 0x80 := fun c hc => by
    have := toNat_of_isTail (isTail_of_mem h hc)
    omega
  have hlower : s.toList.map Char.toLower = s.toList :=
    map_toLower_of_isTail fun c hc => isTail_of_mem h hc
  rw [canonical, Text.strip, Text.stripped_eq_self hblank, Text.lower, String.toList_ofList,
    Text.lowerAfter_of_ascii _ _ hascii, hlower, String.ofList_toList]

theorem read_text_of_isWellFormed (subject : Subject) {name : String} (h : isWellFormed name.toList = true) :
    read subject (.text name) = .ok name := by
  have hhides : (Value.text name).hidesStripping = false := rfl
  simp [read, Value.unwrapped, hhides, Value.text?, canonical_of_isWellFormed h, h]

theorem read_text_of_read {subject other : Subject} {v : Value} {name : String}
    (h : read subject v = .ok name) : read other (.text name) = .ok name :=
  read_text_of_isWellFormed other (isWellFormed_of_read h)

end Gatehouse.Name
