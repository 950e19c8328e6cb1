import Gatehouse.Route.Table
import Gatehouse.Proofs.Runs

/-!
# Templates — templates that are made of whole segments

A segment of a template is a text without braces, or one parameter for all of it. A template made of such
segments is read as it is written, piece by piece, and makes a route if no two of its parameters have one name.
-/

namespace Gatehouse.Route

/-! ## 1. Segments -/

/-- A name that a template can give to a parameter or to a kind. -/
structure Label where
  head : Char
  tail : List Char
  isHead : isNameHead head = true
  isTail : tail.all isNameTail = true

namespace Label

variable (label : Label)

def letters : List Char := label.head :: label.tail

def text : String := String.ofList label.letters

theorem isNameTail_of_mem {c : Char} (h : c ∈ label.letters) : isNameTail c = true := by
  obtain rfl | h := List.mem_cons.1 h
  · unfold isNameTail
    rw [label.isHead, Bool.true_or]
  · exact List.all_eq_true.1 label.isTail c h

/-- A label ends before the first character that cannot be in one. -/
theorem takeName?_append {c : Char} (hc : isNameTail c = false) (rest : List Char) :
    takeName? (label.letters ++ c :: rest) = some (label.letters, c :: rest) := by
  have hletters : ∀ d ∈ label.letters, isNameTail d = true := fun d hd => label.isNameTail_of_mem hd
  have hhead : (label.letters ++ c :: rest).head?.any isNameHead = true := label.isHead
  have hstop : ¬isNameTail c = true := by rw [hc]; exact Bool.false_ne_true
  unfold takeName?
  rw [if_pos hhead, List.takeWhile_append_of_pos hletters, List.dropWhile_append_of_pos hletters,
    List.takeWhile_cons_of_neg hstop, List.dropWhile_cons_of_neg hstop, List.append_nil]

end Label

namespace Kind

/-- The name of a kind in a template. -/
def label : Kind → Label
  | .text => ⟨'s', ['t', 'r'], by decide, by decide⟩
  | .path => ⟨'p', ['a', 't', 'h'], by decide, by decide⟩
  | .integer => ⟨'i', ['n', 't'], by decide, by decide⟩
  | .decimal => ⟨'f', ['l', 'o', 'a', 't'], by decide, by decide⟩
  | .uuid => ⟨'u', ['u', 'i', 'd'], by decide, by decide⟩

theorem ofName?_label (kind : Kind) : ofName? kind.label.text = some kind := by
  cases kind <;> decide

end Kind

/-- A segment of a template. A parameter whose kind is not written takes a text. -/
inductive Segment where
  | literal (text : List Char) (nonempty : text ≠ []) (noSlash : '/' ∉ text)
      (noBraces : '\x7b' ∉ text ∧ '\x7d' ∉ text)
  | parameter (label : Label) (mark : Option Kind)

namespace Segment

/-- A segment as a template has it. -/
def source : Segment → List Char
  | .literal text _ _ _ => text
  | .parameter label none => '\x7b' :: (label.letters ++ ['\x7d'])
  | .parameter label (some kind) => '\x7b' :: (label.letters ++ ':' :: (kind.label.letters ++ ['\x7d']))

def pieces : Segment → Template
  | .literal text _ _ _ => text.map .literal
  | .parameter label mark => [.parameter label.text (mark.getD .text)]

/-- The name of the parameter that a segment is, if it is one. -/
def name? : Segment → Option String
  | .literal _ _ _ _ => none
  | .parameter label _ => some label.text

/-- The text of a template made of segments. -/
def sourceOf (segments : List Segment) : List Char := segments.flatMap fun s => '/' :: s.source

def piecesOf (segments : List Segment) : Template := segments.flatMap fun s => .literal '/' :: s.pieces

end Segment

/-! ## 2. Reading a segment -/

theorem isNameTail_closing : isNameTail '\x7d' = false := by decide

theorem isNameTail_colon : isNameTail ':' = false := by decide

theorem takeParameter?_bare (label : Label) (rest : List Char) :
    takeParameter? ('\x7b' :: (label.letters ++ '\x7d' :: rest)) =
      some (label.text, "str", label.letters.length + 2) := by
  simp only [takeParameter?, label.takeName?_append isNameTail_closing]
  rfl

theorem takeParameter?_marked (label : Label) (kind : Label) (rest : List Char) :
    takeParameter? ('\x7b' :: (label.letters ++ ':' :: (kind.letters ++ '\x7d' :: rest))) =
      some (label.text, kind.text, label.letters.length + kind.letters.length + 3) := by
  simp only [takeParameter?, label.takeName?_append isNameTail_colon, kind.takeName?_append isNameTail_closing]
  rfl

theorem scan_length (front rest : List Char) : scan front.length (front ++ rest) = scan 0 rest := by
  induction front with
  | nil => rfl
  | cons c front ih =>
    rw [List.length_cons, List.cons_append, scan]
    exact ih

theorem scan_parameter {name kind : String} {front rest : List Char}
    (h : takeParameter? ('\x7b' :: (front ++ rest)) = some (name, kind, front.length + 1)) :
    scan 0 ('\x7b' :: (front ++ rest)) = .inr (name, kind) :: scan 0 rest := by
  -- The brace itself has been read, so one character fewer is skipped than the parameter takes.
  rw [scan, h]
  dsimp only
  rw [Nat.add_sub_cancel, scan_length]

namespace Segment

/-- The parts that a text is scanned into are these pieces. -/
def ScansTo (text : List Char) (pieces : Template) : Prop := (scan 0 text).mapM pieceOf = .ok pieces

theorem scansTo_cons {part : Char ⊕ (String × String)} {piece : Piece} {text rest : List Char} {pieces : Template}
    (hscan : scan 0 text = part :: scan 0 rest) (hpart : pieceOf part = .ok piece) (h : ScansTo rest pieces) :
    ScansTo text (piece :: pieces) := by
  unfold ScansTo
  rw [hscan, List.mapM_cons, bind_of_eq_ok hpart, bind_of_eq_ok h]
  rfl

theorem scansTo_literals {text rest : List Char} {pieces : Template} (hbrace : '\x7b' ∉ text)
    (h : ScansTo rest pieces) : ScansTo (text ++ rest) (text.map .literal ++ pieces) := by
  induction text with
  | nil => exact h
  | cons c text ih =>
    rw [List.mem_cons, not_or] at hbrace
    exact scansTo_cons (scan_literal _ (Ne.symm hbrace.1)) rfl (ih hbrace.2)

theorem scansTo_parameter {label : Label} {kind : Kind} {name : String} {front rest : List Char} {pieces : Template}
    (htake : takeParameter? ('\x7b' :: (front ++ rest)) = some (label.text, name, front.length + 1))
    (hname : Kind.ofName? name = some kind) (h : ScansTo rest pieces) :
    ScansTo ('\x7b' :: (front ++ rest)) (.parameter label.text kind :: pieces) := by
  refine scansTo_cons (scan_parameter htake) ?_ h
  unfold pieceOf
  dsimp only
  rw [hname]

/-- What a segment is written as is scanned into its pieces. -/
theorem scansTo_source (segment : Segment) {rest : List Char} {pieces : Template} (h : ScansTo rest pieces) :
    ScansTo (segment.source ++ rest) (segment.pieces ++ pieces) := by
  -- A kind that is written is read behind the colon; without one it is the kind of texts.
  match segment with
  | .literal text _ _ noBraces => exact scansTo_literals noBraces.1 h
  | .parameter label none =>
    have htake : takeParameter? ('\x7b' :: ((label.letters ++ ['\x7d']) ++ rest)) =
        some (label.text, "str", (label.letters ++ ['\x7d']).length + 1) := by
      rw [List.append_assoc, List.length_append]
      exact takeParameter?_bare label rest
    exact scansTo_parameter htake Kind.text.ofName?_label h
  | .parameter label (some kind) =>
    have htake : takeParameter? ('\x7b' :: ((label.letters ++ ':' :: (kind.label.letters ++ ['\x7d'])) ++ rest)) =
        some (label.text, kind.label.text,
          (label.letters ++ ':' :: (kind.label.letters ++ ['\x7d'])).length + 1) := by
      rw [List.append_assoc, List.cons_append, List.append_assoc, List.singleton_append, takeParameter?_marked]
      simp only [List.length_append, List.length_cons, List.length_nil]
      rfl
    exact scansTo_parameter htake kind.ofName?_label h

theorem scansTo_sourceOf (segments : List Segment) : ScansTo (sourceOf segments) (piecesOf segments) := by
  induction segments with
  | nil => rfl
  | cons segment segments ih => exact scansTo_cons (scan_literal _ (by decide)) rfl (segment.scansTo_source ih)

theorem filterMap_name?_pieces (segment : Segment) :
    segment.pieces.filterMap Piece.name? = segment.name?.toList := by
  cases segment with
  | literal text _ _ _ =>
    unfold pieces
    rw [List.filterMap_map]
    exact List.filterMap_eq_nil_iff.2 fun _ _ => rfl
  | parameter label mark => rfl

theorem filterMap_name?_piecesOf (segments : List Segment) :
    (piecesOf segments).filterMap Piece.name? = segments.filterMap name? := by
  induction segments with
  | nil => rfl
  | cons segment segments ih =>
    have hpieces : piecesOf (segment :: segments) = .literal '/' :: (segment.pieces ++ piecesOf segments) := rfl
    rw [hpieces, List.filterMap_cons_none rfl, List.filterMap_append, filterMap_name?_pieces, ih]
    cases hname : segment.name? with
    | none => rw [List.filterMap_cons_none hname]; rfl
    | some name => rw [List.filterMap_cons_some hname]; rfl

end Segment

/-! ## 3. Routes -/

theorem repeatedNames_of_nodup {names : List String} (h : names.Nodup) : repeatedNames names = [] := by
  have hnone : (names.filter fun n => 1 < names.count n) = [] := by
    rw [List.filter_eq_nil_iff]
    intro n _
    simpa using List.nodup_iff_count.1 h n
  unfold repeatedNames
  dsimp only
  rw [hnone, List.eraseDups_nil, List.mergeSort_nil]

namespace Segment

/-- A template of such segments is read into their pieces. -/
theorem parse_sourceOf {segments : List Segment} (hnames : (segments.filterMap name?).Nodup) :
    Template.parse (String.ofList (sourceOf segments)) = .ok (piecesOf segments) := by
  have hscan : (scan 0 (String.ofList (sourceOf segments)).toList).mapM pieceOf = .ok (piecesOf segments) := by
    rw [String.toList_ofList]
    exact scansTo_sourceOf segments
  unfold Template.parse
  rw [bind_of_eq_ok hscan, filterMap_name?_piecesOf, repeatedNames_of_nodup hnames]
  rfl

/-- A template of such segments makes a route. -/
theorem compile_sourceOf {segments : List Segment} (hne : segments ≠ [])
    (hnames : (segments.filterMap name?).Nodup) (defaults : List (String × Value)) :
    compile (.text (String.ofList (sourceOf segments))) defaults =
      .ok ⟨piecesOf segments, Field.ofPairs defaults⟩ := by
  have hslash : (String.ofList (sourceOf segments)).toList.head? = some '/' := by
    rw [String.toList_ofList]
    cases segments with
    | nil => exact absurd rfl hne
    | cons segment segments => rfl
  unfold compile
  rw [if_neg (show ¬Value.isNamed (.text _) "startswith" = true from Bool.false_ne_true)]
  dsimp only [Value.text?_text]
  rw [hslash, if_pos (by decide), bind_of_eq_ok (parse_sourceOf hnames)]
  rfl

end Segment

end Gatehouse.Route
