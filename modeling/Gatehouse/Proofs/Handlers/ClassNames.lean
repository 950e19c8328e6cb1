import Mathlib.Data.List.Basic
import Gatehouse.Handler

/-!
# Class names — which resource a class is named for

A class of handlers is named by words in camel case with one of two endings behind them. The name of its resource
is these words again, in small letters and with underscores between them: the ending is taken off once, even where
a word in front of it spells an ending too, and every capital begins a word. Read as a name, it stays what it is.
-/

namespace Gatehouse

namespace Handler

/-! ## 1. Words -/

def isSmallLetter (c : Char) : Bool := 'a' ≤ c && c ≤ 'z'

/-- A small letter, then small letters and digits. -/
def isWord : List Char → Bool
  | [] => false
  | c :: rest => isSmallLetter c && rest.all fun d => isSmallLetter d || ('0' ≤ d && d ≤ '9')

/-- A word with a capital for its first letter. -/
def capitalized : List Char → List Char
  | [] => []
  | c :: rest => c.toUpper :: rest

/-- Words one behind the other, each with a capital. -/
def camelCase (words : List String) : String := String.ofList ((words.map String.toList).flatMap capitalized)

theorem isWellFormed_of_isWord {w : List Char} (h : isWord w = true) : Name.isWellFormed w = true := by
  cases w with
  | nil => cases h
  | cons c rest =>
    obtain ⟨hc, hrest⟩ := Bool.and_eq_true_iff.1 h
    refine Bool.and_eq_true_iff.2 ⟨Bool.or_eq_true_iff.2 (.inl hc), List.all_eq_true.2 fun d hd => ?_⟩
    -- A name may have underscores besides.
    obtain hsmall | hdigit := Bool.or_eq_true_iff.1 (List.all_eq_true.1 hrest d hd)
    · exact Bool.or_eq_true_iff.2 (.inl (Bool.or_eq_true_iff.2 (.inl hsmall)))
    · exact Bool.or_eq_true_iff.2 (.inr hdigit)

theorem isCapital_of_isTail {c : Char} (h : Name.isTail c = true) : isCapital c = false := by
  have hbounds := Name.toNat_of_isTail h
  refine Bool.eq_false_iff.2 fun hcapital => ?_
  simp only [isCapital, Bool.and_eq_true, decide_eq_true_eq, Char.le_def, UInt32.le_iff_toNat_le] at hcapital
  have hn : c.val.toNat = c.toNat := rfl
  have h1 : ('A' : Char).val.toNat = 65 := rfl
  have h2 : ('Z' : Char).val.toNat = 90 := rfl
  omega

/-- The capital of a small letter is one, and it is the capital of no other. -/
theorem toUpper_of_isSmallLetter {c : Char} (h : isSmallLetter c = true) :
    isCapital c.toUpper = true ∧ c.toUpper.toLower = c := by
  have hascii : c.toNat < 128 := by
    have := Name.toNat_of_isTail (c := c) (Name.isTail_of_isHead (Bool.or_eq_true_iff.2 (.inl h)))
    omega
  have hletters : ∀ n < 128, isSmallLetter (Char.ofNat n) = true →
      isCapital (Char.ofNat n).toUpper = true ∧ (Char.ofNat n).toUpper.toLower = Char.ofNat n := by decide
  have hc := hletters c.toNat hascii
  rw [Char.ofNat_toNat] at hc
  exact hc h

/-! ## 2. Taking the ending off -/

/-- The ending behind a name is taken off, and nothing of the name. -/
theorem withoutEnding_append {name : List Char} {ending : String} (hname : name ≠ [])
    (hending : ending = "Controller" ∨ ending = "Resource") : withoutEnding (name ++ ending.toList) = name := by
  have hends : ending.toList.isSuffixOf (name ++ ending.toList) = true :=
    List.isSuffixOf_iff_suffix.2 (List.suffix_append name _)
  have hlonger : (name ++ ending.toList != ending.toList) = true := by
    simpa using hname
  have hfound : (endings.find? fun e =>
      e.toList.isSuffixOf (name ++ ending.toList) && name ++ ending.toList != e.toList) = some ending := by
    rcases hending with rfl | rfl
    · rw [endings, List.find?_cons, hends, hlonger]
      rfl
    · -- The endings differ in their last letters, so the first of them is not found.
      have hother : "Controller".toList.isSuffixOf (name ++ "Resource".toList) = false := by
        refine Bool.eq_false_iff.2 fun h => ?_
        have hlast := (List.isSuffixOf_iff_suffix.1 h).getLast (by decide)
        rw [List.getLast_append_of_ne_nil _ (by decide)] at hlast
        revert hlast
        decide
      rw [endings, List.find?_cons, hother, List.find?_cons, hends, hlonger]
      rfl
  unfold withoutEnding
  rw [hfound]
  show List.take ((name ++ ending.toList).length - ending.length) _ = name
  rw [List.length_append, String.length_toList, Nat.add_sub_cancel, List.take_left]

/-! ## 3. Separating words -/

/-- A character of a class name behind the first one, with the underscore before a capital. -/
def marked (c : Char) : List Char := if isCapital c then ['_', c] else [c]

theorem separated_cons (c : Char) (rest : List Char) : separated (c :: rest) = c :: rest.flatMap marked := rfl

theorem flatMap_marked_of_isTail {cs : List Char} (h : ∀ c ∈ cs, Name.isTail c = true) :
    cs.flatMap marked = cs := by
  induction cs with
  | nil => rfl
  | cons c rest ih =>
    rw [List.flatMap_cons, ih fun d hd => h d (List.mem_cons_of_mem c hd), marked,
      isCapital_of_isTail (h c List.mem_cons_self)]
    rfl

/-- The rest of a word has no capital that would be marked. -/
theorem flatMap_marked_rest {c : Char} {rest : List Char} (h : isWord (c :: rest) = true) :
    rest.flatMap marked = rest :=
  flatMap_marked_of_isTail fun _ hd =>
    Name.isTail_of_mem (isWellFormed_of_isWord h) (List.mem_cons_of_mem c hd)

theorem flatMap_marked_capitalized {w : List Char} (h : isWord w = true) :
    (capitalized w).flatMap marked = '_' :: capitalized w := by
  cases w with
  | nil => cases h
  | cons c rest =>
    have hc : isCapital c.toUpper = true := (toUpper_of_isSmallLetter (Bool.and_eq_true_iff.1 h).1).1
    rw [capitalized, List.flatMap_cons, flatMap_marked_rest h, marked, hc]
    rfl

/-- An underscore stands before every word but the first. -/
theorem separated_capitalized {w : List Char} {rest : List (List Char)} (hw : isWord w = true)
    (hrest : ∀ v ∈ rest, isWord v = true) : separated ((w :: rest).flatMap capitalized) =
      capitalized w ++ rest.flatMap fun v => '_' :: capitalized v := by
  have hmarked : (rest.flatMap capitalized).flatMap marked = rest.flatMap fun v => '_' :: capitalized v := by
    rw [List.flatMap_assoc]
    exact List.flatMap_congr fun v hv => flatMap_marked_capitalized (hrest v hv)
  cases w with
  | nil => cases hw
  | cons c tail =>
    rw [List.flatMap_cons, capitalized, List.cons_append, separated_cons, List.flatMap_append,
      flatMap_marked_rest hw, hmarked]
    rfl

/-! ## 4. Words joined by underscores -/

theorem flatMap_capitalized_ne_nil {words : List (List Char)} (hne : words ≠ [])
    (hwords : ∀ w ∈ words, isWord w = true) : words.flatMap capitalized ≠ [] := by
  intro hnil
  obtain ⟨w, hw⟩ := List.exists_mem_of_ne_nil words hne
  have hempty : capitalized w = [] := List.flatMap_eq_nil_iff.1 hnil w hw
  cases w with
  | nil => cases hwords [] hw
  | cons c rest => cases hempty

theorem map_toLower_capitalized {w : List Char} (h : isWord w = true) : (capitalized w).map Char.toLower = w := by
  cases w with
  | nil => rfl
  | cons c rest =>
    have hrest : rest.map Char.toLower = rest := Name.map_toLower_of_isTail fun _ hd =>
      Name.isTail_of_mem (isWellFormed_of_isWord h) (List.mem_cons_of_mem c hd)
    rw [capitalized, List.map_cons, hrest, (toUpper_of_isSmallLetter (Bool.and_eq_true_iff.1 h).1).2]

/-- Words in camel case are separated into the words themselves. -/
theorem map_toLower_separated {words : List (List Char)} (hne : words ≠ [])
    (hwords : ∀ w ∈ words, isWord w = true) :
    (separated (words.flatMap capitalized)).map Char.toLower = List.intercalate ['_'] words := by
  cases words with
  | nil => exact absurd rfl hne
  | cons w rest =>
    have hrest : ∀ v ∈ rest, isWord v = true := fun v hv => hwords v (List.mem_cons_of_mem w hv)
    rw [separated_capitalized (hwords w List.mem_cons_self) hrest, Text.intercalate_cons, List.map_append,
      map_toLower_capitalized (hwords w List.mem_cons_self), List.map_flatMap]
    refine congrArg (w ++ ·) (List.flatMap_congr fun v hv => ?_)
    rw [List.map_cons, map_toLower_capitalized (hrest v hv)]
    rfl

/-- Words with underscores between them make a name. -/
theorem isWellFormed_intercalate {words : List (List Char)} (hne : words ≠ [])
    (hwords : ∀ w ∈ words, isWord w = true) : Name.isWellFormed (List.intercalate ['_'] words) = true := by
  cases words with
  | nil => exact absurd rfl hne
  | cons w rest =>
    have htail : ∀ c ∈ rest.flatMap ('_' :: ·), Name.isTail c = true := by
      intro c hc
      obtain ⟨v, hv, hc⟩ := List.mem_flatMap.1 hc
      rcases List.mem_cons.1 hc with rfl | hc
      · rfl
      · exact Name.isTail_of_mem (isWellFormed_of_isWord (hwords v (List.mem_cons_of_mem w hv))) hc
    have hw := isWellFormed_of_isWord (hwords w List.mem_cons_self)
    rw [Text.intercalate_cons]
    cases w with
    | nil => cases hw
    | cons c tail =>
      obtain ⟨hc, hall⟩ := Bool.and_eq_true_iff.1 hw
      rw [List.cons_append]
      refine Bool.and_eq_true_iff.2 ⟨hc, ?_⟩
      rw [List.all_append, hall, List.all_eq_true.2 htail]
      rfl

/-! ## 5. The resource of a class -/

theorem toNat_of_isCapital {c : Char} (h : isCapital c = true) : c.toNat < 0x80 := by
  have hupper : c ≤ 'Z' := of_decide_eq_true (Bool.and_eq_true_iff.1 h).2
  exact Nat.lt_of_le_of_lt (UInt32.le_iff_toNat_le.1 hupper) (by decide)

theorem toNat_of_mem_capitalized {w : List Char} (h : isWord w = true) : ∀ c ∈ capitalized w, c.toNat < 0x80 := by
  cases w with
  | nil => cases h
  | cons first rest =>
    intro c hc
    rcases List.mem_cons.1 hc with rfl | hc
    · exact toNat_of_isCapital (toUpper_of_isSmallLetter (Bool.and_eq_true_iff.1 h).1).1
    · have := Name.toNat_of_isTail (Name.isTail_of_mem (isWellFormed_of_isWord h) (List.mem_cons_of_mem first hc))
      omega

theorem toNat_of_mem_separated {words : List (List Char)} (hwords : ∀ w ∈ words, isWord w = true) :
    ∀ c ∈ separated (words.flatMap capitalized), c.toNat < 0x80 := by
  cases words with
  | nil => exact nofun
  | cons w rest =>
    have hrest : ∀ v ∈ rest, isWord v = true := fun v hv => hwords v (List.mem_cons_of_mem w hv)
    rw [separated_capitalized (hwords w List.mem_cons_self) hrest]
    intro c hc
    obtain hc | hc := List.mem_append.1 hc
    · exact toNat_of_mem_capitalized (hwords w List.mem_cons_self) c hc
    · obtain ⟨v, hv, hc⟩ := List.mem_flatMap.1 hc
      rcases List.mem_cons.1 hc with rfl | hc
      · decide
      · exact toNat_of_mem_capitalized (hrest v hv) c hc

/-- A class that is named by words in camel case, with an ending behind them, has the resource that these words
name with underscores between them. -/
theorem resourceNameOf_camelCase {words : List String} {ending : String} (hne : words ≠ [])
    (hwords : ∀ w ∈ words, isWord w.toList = true) (hending : ending = "Controller" ∨ ending = "Resource") :
    resourceNameOf (camelCase words ++ ending) = String.intercalate "_" words ∧
      Name.resource (.text (String.intercalate "_" words)) = .ok (String.intercalate "_" words) := by
  have hne' : words.map String.toList ≠ [] := by simpa using hne
  have hwords' : ∀ w ∈ words.map String.toList, isWord w = true := List.forall_mem_map.2 hwords
  have hjoined : (String.intercalate "_" words).toList = List.intercalate ['_'] (words.map String.toList) :=
    String.toList_intercalate
  constructor
  · have hfilled : (words.map String.toList).flatMap capitalized ≠ [] := flatMap_capitalized_ne_nil hne' hwords'
    unfold resourceNameOf camelCase
    rw [String.toList_append, String.toList_ofList, withoutEnding_append hfilled hending, Text.lower,
      String.toList_ofList, Text.lowerAfter_of_ascii _ _ (toNat_of_mem_separated hwords'),
      map_toLower_separated hne' hwords', ← hjoined, String.ofList_toList]
  · exact Name.read_text_of_isWellFormed .resource (hjoined ▸ isWellFormed_intercalate hne' hwords')

/-- A first word that spells an ending, single letters, and a digit in front of a capital. -/
theorem resourceNameOf_camelCase_controllers :
    camelCase ["controller", "x", "y2", "z"] ++ "Controller" = "ControllerXY2ZController" ∧
      resourceNameOf "ControllerXY2ZController" = "controller_x_y2_z" ∧
      Name.resource (.text "controller_x_y2_z") = .ok "controller_x_y2_z" :=
  ⟨by decide, @resourceNameOf_camelCase ["controller", "x", "y2", "z"] "Controller" (by decide) (by decide) (.inl rfl)⟩

end Handler

end Gatehouse
