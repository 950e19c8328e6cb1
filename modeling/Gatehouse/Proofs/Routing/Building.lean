import Gatehouse.Proofs.Routing.Outcomes
import Gatehouse.Proofs.Routing.Templates

/-!
# Building — paths that are built from a template

A template made of segments gives a path when its parameters have values: texts without slashes, integers that are
not negative, and UUIDs. A table that tries this template first resolves the path, with slashes behind it or
without, to these values again, over the defaults of the route.
-/

namespace Gatehouse

/-! ## 1. Values -/

theorem Binary64.digitsValue_toDigits (n : Nat) : digitsValue (Nat.toDigits 10 n) = n :=
  Nat.ofDigitChars_ten_toDigits

theorem Binary64.isDigit_of_mem_toDigits {n : Nat} {c : Char} (h : c ∈ Nat.toDigits 10 n) : isDigit c = true :=
  Nat.isDigit_of_mem_toDigits (by decide) (by decide) h

theorem Value.toList_written_int (n : Nat) : (Value.int n).written.toList = Nat.toDigits 10 n :=
  Nat.toList_repr

namespace Route

/-- A hexadecimal digit that is no capital letter. -/
def isLowerHexDigit (c : Char) : Bool := ('0' ≤ c && c ≤ '9') || ('a' ≤ c && c ≤ 'f')

/-- The text of a UUID: groups of digits with dashes between them. -/
def IsUuid (text : String) : Prop :=
  ∃ groups : List (List Char), groups.map List.length = uuidGroups ∧
    (∀ group ∈ groups, ∀ c ∈ group, isLowerHexDigit c = true) ∧
    text = String.ofList (List.intercalate ['-'] groups)

/-- The values that a parameter for a whole segment can have. -/
inductive Kind.Takes : Kind → Value → Prop
  | text {s : String} (nonempty : s ≠ "") (noSlash : '/' ∉ s.toList) : Takes .text (.text s)
  | integer {n : Nat} (short : (Nat.toDigits 10 n).length ≤ digitLimit) : Takes .integer (.int n)
  | uuid {s : String} (isUuid : IsUuid s) : Takes .uuid (.uuid s)

/-! ## 2. UUIDs -/

section LowerHexDigit

variable {c : Char}

theorem isHexDigit_of_isLowerHexDigit (h : isLowerHexDigit c = true) : isHexDigit c = true := by
  have hhex : isHexDigit c = (isLowerHexDigit c || ('A' ≤ c && c ≤ 'F')) := rfl
  rw [hhex, h, Bool.true_or]

theorem toLower_of_isLowerHexDigit (h : isLowerHexDigit c = true) : c.toLower = c := by
  apply Name.toLower_of_isTail
  simp only [isLowerHexDigit, Bool.or_eq_true, Bool.and_eq_true, decide_eq_true_eq] at h
  simp only [Name.isTail, Name.isHead, Bool.or_eq_true, Bool.and_eq_true, decide_eq_true_eq]
  obtain hdigit | ⟨hlow, hhigh⟩ := h
  · exact .inr hdigit
  · exact .inl (.inl ⟨hlow, Char.le_trans hhigh (by decide)⟩)

theorem ne_of_isLowerHexDigit {d : Char} (hd : isLowerHexDigit d = false) (h : isLowerHexDigit c = true) : c ≠ d := by
  rintro rfl
  exact absurd (hd.symm.trans h) Bool.false_ne_true

end LowerHexDigit

theorem takeHexGroups_true {group rest : List Char} (h : ∀ c ∈ group, isHexDigit c = true) (sizes : List Nat) :
    takeHexGroups true (group.length :: sizes) (group ++ rest) =
      (takeHexGroups false sizes rest).map fun reading => (0 + group.length + reading.1, reading.2) := by
  rw [takeHexGroups]
  · simp only [List.take_left, List.drop_left, List.all_eq_true.2 h]
    rfl
  · exact fun _ hfirst => absurd hfirst.symm Bool.false_ne_true

theorem takeHexGroups_false {group rest : List Char} (h : ∀ c ∈ group, isHexDigit c = true) (sizes : List Nat) :
    takeHexGroups false (group.length :: sizes) ('-' :: (group ++ rest)) =
      (takeHexGroups false sizes rest).map fun reading => (1 + group.length + reading.1, reading.2) := by
  rw [takeHexGroups]
  simp only [List.take_left, List.drop_left, List.all_eq_true.2 h]
  rfl

/-- Groups behind dashes are taken off one by one. -/
theorem takeHexGroups_append {groups : List (List Char)} (h : ∀ group ∈ groups, ∀ c ∈ group, isHexDigit c = true)
    (rest : List Char) : takeHexGroups false (groups.map List.length) (groups.flatMap ('-' :: ·) ++ rest) =
      some ((groups.flatMap ('-' :: ·)).length, rest) := by
  -- By induction on the groups: what is taken of each one is the dash and the group.
  induction groups with
  | nil => rfl
  | cons group groups ih =>
    obtain ⟨hgroup, hgroups⟩ := List.forall_mem_cons.1 h
    have hlength : 1 + group.length + (groups.flatMap ('-' :: ·)).length =
        (('-' :: group) ++ groups.flatMap ('-' :: ·)).length := by
      rw [List.length_append, List.length_cons]
      omega
    rw [List.map_cons, List.flatMap_cons, ← hlength, List.cons_append, List.cons_append, List.append_assoc,
      takeHexGroups_false hgroup, ih hgroups]
    rfl

/-- A UUID is taken as a whole, and what follows it is left. -/
theorem IsUuid.takeHexGroups {s : String} (h : IsUuid s) (rest : List Char) :
    Route.takeHexGroups true uuidGroups (s.toList ++ rest) = some (s.toList.length, rest) := by
  obtain ⟨groups, hsizes, hdigits, rfl⟩ := h
  cases groups with
  | nil => cases hsizes
  | cons group groups =>
    have hhex : ∀ g ∈ group :: groups, ∀ c ∈ g, isHexDigit c = true := fun g hg c hc =>
      isHexDigit_of_isLowerHexDigit (hdigits g hg c hc)
    obtain ⟨hgroup, hgroups⟩ := List.forall_mem_cons.1 hhex
    rw [String.toList_ofList, Text.intercalate_cons, ← hsizes, List.map_cons, List.append_assoc,
      takeHexGroups_true hgroup, takeHexGroups_append hgroups, List.length_append, Option.map_some, Nat.zero_add]

/-- A UUID is not empty and has no slash in it. -/
theorem IsUuid.isSegment {s : String} (h : IsUuid s) : s.toList ≠ [] ∧ '/' ∉ s.toList := by
  obtain ⟨groups, hsizes, hdigits, rfl⟩ := h
  rw [String.toList_ofList]
  cases groups with
  | nil => cases hsizes
  | cons group groups =>
    obtain ⟨hgroup, hgroups⟩ := List.forall_mem_cons.1 hdigits
    have hslash : ∀ {c}, isLowerHexDigit c = true → c ≠ '/' := ne_of_isLowerHexDigit (by decide)
    rw [Text.intercalate_cons]
    refine ⟨fun hempty => ?_, fun hmem => ?_⟩
    · rw [(List.append_eq_nil_iff.1 hempty).1] at hsizes
      cases hsizes
    · obtain hmem | hmem := List.mem_append.1 hmem
      · exact hslash (hgroup _ hmem) rfl
      · obtain ⟨g, hg, hmem⟩ := List.mem_flatMap.1 hmem
        obtain heq | hmem := List.mem_cons.1 hmem
        · exact absurd heq (by decide)
        · exact hslash (hgroups g hg _ hmem) rfl

/-- Nothing of a UUID gets lost but its dashes, and its digits stay as they are. -/
theorem filter_intercalate_dash {groups : List (List Char)}
    (h : ∀ group ∈ groups, ∀ c ∈ group, isLowerHexDigit c = true) :
    ((List.intercalate ['-'] groups).filter (· ≠ '-')).map Char.toLower = groups.flatten := by
  have hgroup : ∀ group ∈ groups, (group.filter (· ≠ '-')).map Char.toLower = group := by
    intro group hmem
    rw [List.filter_eq_self.2 fun c hc => decide_eq_true (ne_of_isLowerHexDigit (by decide) (h group hmem c hc)),
      List.map_congr_left fun c hc => toLower_of_isLowerHexDigit (h group hmem c hc), List.map_id']
  clear h
  induction groups with
  | nil => rfl
  | cons group groups ih =>
    obtain ⟨hfirst, hgroups⟩ := List.forall_mem_cons.1 hgroup
    cases groups with
    | nil => rw [List.intercalate_singleton, hfirst, List.flatten_singleton]
    | cons next groups =>
      rw [List.intercalate_cons_cons, List.filter_append, List.filter_append, List.map_append, List.map_append,
        hfirst, ih hgroups, List.flatten_cons, List.append_assoc]
      rfl

/-- A UUID that is read is written in the same way again. -/
theorem IsUuid.uuidText {s : String} (h : IsUuid s) : Route.uuidText s.toList = s := by
  obtain ⟨groups, hsizes, hdigits, rfl⟩ := h
  unfold Route.uuidText
  rw [String.toList_ofList, filter_intercalate_dash hdigits]
  obtain ⟨a, groups, rfl, ha, hsizes⟩ := List.map_eq_cons_iff.1 hsizes
  obtain ⟨b, groups, rfl, hb, hsizes⟩ := List.map_eq_cons_iff.1 hsizes
  obtain ⟨c, groups, rfl, hc, hsizes⟩ := List.map_eq_cons_iff.1 hsizes
  obtain ⟨d, groups, rfl, hd, hsizes⟩ := List.map_eq_cons_iff.1 hsizes
  obtain ⟨e, groups, rfl, he, hsizes⟩ := List.map_eq_cons_iff.1 hsizes
  obtain rfl := List.map_eq_nil_iff.1 hsizes
  -- Where one group ends the next one begins.
  have hnext : ∀ {cs group rest : List Char} {start size : Nat}, cs.drop start = group ++ rest →
      group.length = size → (cs.drop start).take size = group ∧ cs.drop (start + size) = rest := by
    intro cs group rest start size hdrop hsize
    rw [← List.drop_drop, hdrop]
    exact ⟨List.take_left' hsize, List.drop_left' hsize⟩
  obtain ⟨ha, hdrop⟩ := hnext (List.drop_zero (l := [a, b, c, d, e].flatten)) ha
  obtain ⟨hb, hdrop⟩ := hnext hdrop hb
  obtain ⟨hc, hdrop⟩ := hnext hdrop hc
  obtain ⟨hd, hdrop⟩ := hnext hdrop hd
  obtain ⟨he, -⟩ := hnext hdrop he
  simp only [Nat.zero_add, Nat.reduceAdd] at ha hb hc hd he
  apply String.toList_injective
  dsimp only
  rw [ha, hb, hc, hd, he, String.toList_intercalate, String.toList_ofList]
  simp only [List.map_cons, List.map_nil, String.toList_ofList]

/-! ## 3. Readings -/

/-- Of the ways to take characters the first one goes on to the end of what can be taken. -/
theorem cuts_append {p : Char → Bool} {least taken : Nat} {front rest : List Char} (shorter : List Reading)
    (hfront : ∀ c ∈ front, p c = true) (hleast : least ≤ taken + front.length)
    (hrest : rest = [] ∨ ∃ c more, rest = c :: more ∧ p c = false) :
    ∃ others, cuts p least taken shorter (front ++ rest) = (taken + front.length, rest) :: others := by
  induction front generalizing taken shorter with
  | nil =>
    rw [List.length_nil, Nat.add_zero] at hleast ⊢
    refine ⟨shorter, ?_⟩
    obtain rfl | ⟨c, more, rfl, hc⟩ := hrest
    · rw [List.nil_append, cuts, if_pos hleast]
    · rw [List.nil_append, cuts, hc, if_neg Bool.false_ne_true, if_pos hleast]
  | cons c front ih =>
    obtain ⟨hc, hfront⟩ := List.forall_mem_cons.1 hfront
    rw [List.length_cons, Nat.add_comm front.length, ← Nat.add_assoc] at hleast ⊢
    -- To stop here is one of the ways that stand behind going on.
    obtain ⟨others, hothers⟩ := ih (if least ≤ taken then (taken, c :: (front ++ rest)) :: shorter else shorter)
      hfront hleast
    refine ⟨others, ?_⟩
    rw [List.cons_append, cuts, if_pos hc, hothers]

theorem stretches_append {p : Char → Bool} {front rest : List Char} (hne : front ≠ [])
    (hfront : ∀ c ∈ front, p c = true) (hslash : p '/' = false) (hrest : EndsSegment rest) :
    ∃ others, stretches p 1 (front ++ rest) = (front.length, rest) :: others := by
  have hstop : rest = [] ∨ ∃ c more, rest = c :: more ∧ p c = false :=
    hrest.imp_right fun ⟨more, h⟩ => ⟨'/', more, h, hslash⟩
  have hlength : 1 ≤ 0 + front.length := by
    rw [Nat.zero_add]
    exact List.length_pos_iff.2 hne
  have hcuts := cuts_append [] hfront hlength hstop
  rwa [Nat.zero_add] at hcuts

namespace Kind.Takes

variable {kind : Kind} {v : Value}

/-- A value stands in a path as one segment. -/
theorem isSegment (h : kind.Takes v) : v.written.toList ≠ [] ∧ '/' ∉ v.written.toList := by
  cases h with
  | text nonempty noSlash => exact ⟨fun h => nonempty (String.toList_eq_nil_iff.1 h), noSlash⟩
  | integer short =>
    rw [Value.toList_written_int]
    refine ⟨Nat.toDigits_ne_nil, fun hslash => ?_⟩
    have hdigit := Binary64.isDigit_of_mem_toDigits hslash
    revert hdigit
    decide
  | uuid isUuid => exact isUuid.isSegment

/-- What is written for a value is the first that a parameter tries to take, and nothing of what follows it. -/
theorem readings (h : kind.Takes v) {rest : List Char} (hrest : EndsSegment rest) :
    ∃ others, kind.readings (v.written.toList ++ rest) = (v.written.toList.length, rest) :: others := by
  obtain ⟨hne, hslash⟩ := h.isSegment
  cases h with
  | text nonempty noSlash =>
    exact stretches_append hne (fun c hc => decide_eq_true (ne_of_mem_of_not_mem hc hslash)) (by decide) hrest
  | integer short =>
    refine stretches_append hne (fun c hc => ?_) (by decide) hrest
    rw [Value.toList_written_int] at hc
    exact Binary64.isDigit_of_mem_toDigits hc
  | @uuid s isUuid =>
    -- There is only one way to take a UUID.
    refine ⟨[], ?_⟩
    have htaken : takeHexGroups true uuidGroups (s.toList ++ rest) = some (s.toList.length, rest) :=
      isUuid.takeHexGroups rest
    exact congrArg Option.toList htaken

/-- A parameter makes of what is written for a value this value again. -/
theorem value (h : kind.Takes v) (name : String) : Capture.value ⟨name, kind, v.written.toList⟩ = .ok v := by
  unfold Capture.value
  cases h with
  | @text s =>
    show Except.ok (Value.text (String.ofList s.toList)) = .ok (.text s)
    rw [String.ofList_toList]
  | @integer n short =>
    dsimp only
    rw [Value.toList_written_int, if_neg (Nat.not_lt.2 short), Binary64.digitsValue_toDigits]
  | uuid isUuid => exact congrArg (fun s => Except.ok (Value.uuid s)) isUuid.uuidText

end Kind.Takes

/-! ## 4. Paths -/

namespace Segment

variable (values : String → Value)

/-- A segment of a path: what the template has there, or the value of a parameter. -/
def filled : Segment → List Char
  | .literal text _ _ _ => text
  | .parameter label _ => (values label.text).written.toList

/-- The path that a template gives with these values. -/
def pathOf (segments : List Segment) : List Char := segments.flatMap fun s => '/' :: s.filled values

/-- A segment that the value of its parameter fits, if it is one. -/
def Fits : Segment → Prop
  | .literal _ _ _ _ => True
  | .parameter label mark => (mark.getD .text).Takes (values label.text)

def capture? : Segment → Option Capture
  | .literal _ _ _ _ => none
  | .parameter label mark => some ⟨label.text, mark.getD .text, (values label.text).written.toList⟩

/-- The values of the parameters of a template, under their names. -/
def assigned (segments : List Segment) : List (String × Value) :=
  segments.filterMap fun s => s.name?.map fun name => (name, values name)

variable {values}

theorem Fits.isSegment {segment : Segment} (h : segment.Fits values) :
    segment.filled values ≠ [] ∧ '/' ∉ segment.filled values := by
  cases segment with
  | literal text nonempty noSlash noBraces => exact ⟨nonempty, noSlash⟩
  | parameter label mark => exact Kind.Takes.isSegment h

theorem endsSegment_pathOf (segments : List Segment) : EndsSegment (pathOf values segments) := by
  cases segments with
  | nil => exact .inl rfl
  | cons segment segments => exact .inr ⟨_, rfl⟩

theorem captures_literals_append (text : List Char) (tail : Template) (rest : List Char) :
    Template.captures (text.map .literal ++ tail) (text ++ rest) = tail.captures rest := by
  induction text with
  | nil => rfl
  | cons c text ih =>
    rw [List.map_cons, List.cons_append, List.cons_append, Template.captures, if_pos rfl, ih]

/-- A segment of a template takes the segment of the path that is built from it. -/
theorem Fits.captures {segment : Segment} (h : segment.Fits values) {tail : Template} {rest : List Char}
    {captures : List Capture} (hrest : EndsSegment rest) (htail : tail.captures rest = some captures) :
    Template.captures (segment.pieces ++ tail) (segment.filled values ++ rest) =
      some ((segment.capture? values).toList ++ captures) := by
  cases segment with
  | literal text nonempty noSlash noBraces => exact (captures_literals_append text tail rest).trans htail
  | parameter label mark =>
    obtain ⟨others, hothers⟩ := Kind.Takes.readings h hrest
    unfold pieces filled capture?
    rw [List.singleton_append, Template.captures, hothers, List.findSome?_cons]
    dsimp only
    rw [htail, List.take_left]
    rfl

/-- A template takes all of the path that is built from it. -/
theorem captures_pathOf {segments : List Segment} (h : ∀ s ∈ segments, s.Fits values) :
    (piecesOf segments).captures (pathOf values segments) = some (segments.filterMap (capture? values)) := by
  induction segments with
  | nil => rfl
  | cons segment segments ih =>
    obtain ⟨hsegment, hsegments⟩ := List.forall_mem_cons.1 h
    have hcaptures := hsegment.captures (endsSegment_pathOf segments) (ih hsegments)
    have hslash := captures_literals_append ['/'] (segment.pieces ++ piecesOf segments)
      (segment.filled values ++ pathOf values segments)
    -- Nothing has to be tried again: what the segment leaves is what the rest of the template takes.
    refine (hslash.trans hcaptures).trans ?_
    cases segment with
    | literal text nonempty noSlash noBraces => rfl
    | parameter label mark => rfl

/-- The values that come out of a path are those that were put in. -/
theorem paramsOf_captures {segments : List Segment} (h : ∀ s ∈ segments, s.Fits values)
    (fields : List (String × Value)) : paramsOf fields (segments.filterMap (capture? values)) =
      .ok ((assigned values segments).foldl (fun fields e => Field.put fields e.1 e.2) fields) := by
  induction segments generalizing fields with
  | nil => rfl
  | cons segment segments ih =>
    obtain ⟨hsegment, hsegments⟩ := List.forall_mem_cons.1 h
    cases segment with
    | literal text nonempty noSlash noBraces => exact ih hsegments fields
    | parameter label mark =>
      exact (bind_of_eq_ok (Kind.Takes.value hsegment label.text) _).trans (ih hsegments _)

/-- A path that is built from a template does not end in a slash. -/
theorem exists_pathOf {segments : List Segment} (hne : segments ≠ []) (h : ∀ s ∈ segments, s.Fits values) :
    ∃ front c, pathOf values segments = '/' :: (front ++ [c]) ∧ c ≠ '/' := by
  induction segments with
  | nil => exact absurd rfl hne
  | cons segment segments ih =>
    obtain ⟨hsegment, hsegments⟩ := List.forall_mem_cons.1 h
    have hpath : pathOf values (segment :: segments) =
      '/' :: (segment.filled values ++ pathOf values segments) := rfl
    -- The end of the path is that of its last segment.
    cases segments with
    | nil =>
      obtain ⟨hnonempty, hslash⟩ := hsegment.isSegment
      obtain ⟨front, c, hfilled⟩ := (List.eq_nil_or_concat _).resolve_left hnonempty
      rw [List.concat_eq_append] at hfilled
      refine ⟨front, c, ?_, ?_⟩
      · rw [hpath, hfilled]
        exact congrArg _ (List.append_nil _)
      · rintro rfl
        rw [hfilled] at hslash
        exact hslash (List.mem_append_right front List.mem_cons_self)
    | cons next segments =>
      obtain ⟨front, c, hrest, hc⟩ := ih (List.cons_ne_nil next segments) hsegments
      refine ⟨segment.filled values ++ '/' :: front, c, ?_, hc⟩
      rw [hpath, hrest, List.append_assoc]
      rfl

end Segment

/-- Slashes behind a path are taken off, and nothing else. -/
theorem trimmed_append_slashes {front : List Char} {c : Char} (hc : c ≠ '/') (slashes : Nat) :
    trimmed ('/' :: (front ++ [c]) ++ List.replicate slashes '/') = '/' :: (front ++ [c]) := by
  have hlength : 1 < ('/' :: (front ++ [c]) ++ List.replicate slashes '/').length := by
    simp only [List.length_append, List.length_cons, List.length_nil]
    omega
  have hslashes : ∀ d ∈ List.replicate slashes '/', (d == '/') = true := fun d hd =>
    beq_iff_eq.2 (List.eq_of_mem_replicate hd)
  unfold trimmed
  rw [if_pos hlength, List.reverse_append, List.reverse_replicate, List.dropWhile_append_of_pos hslashes]
  have hlast : ('/' :: (front ++ [c])).reverse = c :: ('/' :: front).reverse :=
    @List.reverse_append _ ('/' :: front) [c]
  rw [hlast, List.dropWhile_cons_of_neg (by simpa using hc), ← hlast, List.reverse_reverse]

/-! ## 5. Routes -/

theorem ofPairs_append (front back : List (String × Value)) :
    Field.ofPairs (front ++ back) = back.foldl (fun fields e => Field.put fields e.1 e.2) (Field.ofPairs front) :=
  List.foldl_append

theorem paramOf_ofPairs {pairs : List (String × Value)} {name : String} {v : Value}
    (h : Field.given? pairs name = some v) : paramOf (Field.ofPairs pairs) name = v := by
  rw [paramOf_eq, Field.get?_ofPairs, h]
  rfl

namespace Segment

variable {values : String → Value}

/-- A route made from a template resolves the path that is built from it. -/
theorem resolve_entry {segments : List Segment} (h : ∀ s ∈ segments, s.Fits values)
    {defaults : List (String × Value)} {resource action : Value}
    (hresource : Field.given? (defaults ++ assigned values segments) "resource" = some resource)
    (haction : Field.given? (defaults ++ assigned values segments) "action" = some action)
    (hresourceName : resource.IsName) (hactionName : action.IsName) :
    Entry.resolve ⟨piecesOf segments, Field.ofPairs defaults⟩ (pathOf values segments) =
      .ok (some ⟨resource.written, action.written, (Field.ofPairs (defaults ++ assigned values segments)).filter
        fun p => p.1 != "resource" && p.1 != "action"⟩) := by
  unfold Entry.resolve
  rw [captures_pathOf h]
  dsimp only
  rw [bind_of_eq_ok (paramsOf_captures h _), ← ofPairs_append, paramOf_ofPairs hresource, paramOf_ofPairs haction,
    hresourceName.truthy, hactionName.truthy, hresourceName.written?, hactionName.written?]
  rfl

/-- Resolving undoes building. A template of segments makes a route; a table that tries this route first resolves each
path that is built from the template, with slashes behind it or without, to the resource and the action of the
route and to its defaults under the values that the path was built with. -/
theorem resolve_pathOf {segments : List Segment} (hne : segments ≠ []) (hnames : (segments.filterMap name?).Nodup)
    (defaults : List (String × Value)) :
    ∃ entry, compile (.text (String.ofList (sourceOf segments))) defaults = .ok entry ∧
      ∀ (table : Table) (more : List Entry) (values : String → Value) (resource action : Value) (slashes : Nat),
        table.custom = entry :: more → (∀ s ∈ segments, s.Fits values) →
        Field.given? (defaults ++ assigned values segments) "resource" = some resource → resource.IsName →
        Field.given? (defaults ++ assigned values segments) "action" = some action → action.IsName →
        table.resolve (pathOf values segments ++ List.replicate slashes '/') =
          .ok { resource := resource.written
                action := action.written
                params := (Field.ofPairs (defaults ++ assigned values segments)).filter fun p =>
                  p.1 != "resource" && p.1 != "action" } := by
  refine ⟨_, compile_sourceOf hne hnames defaults, ?_⟩
  intro table more values resource action slashes htable hfits hresource hresourceName haction hactionName
  obtain ⟨front, c, hpath, hc⟩ := exists_pathOf hne hfits
  -- No later route is tried, so it does not matter what else is in the table.
  have hfirst := resolve_entry hfits hresource haction hresourceName hactionName
  unfold Table.resolve
  dsimp only
  rw [hpath, trimmed_append_slashes hc, ← hpath, htable, List.cons_append, firstMatch, hfirst]
  rfl

/-- A template with a segment of each sort. -/
def sampleSegments : List Segment :=
  [.literal "shop".toList (by decide) (by decide) (by decide),
    .parameter ⟨'r', "esource".toList, by decide, by decide +kernel⟩ none,
    .parameter ⟨'n', "umber".toList, by decide, by decide +kernel⟩ (some .integer),
    .parameter ⟨'k', ['e', 'y'], by decide, by decide⟩ (some .uuid)]

def sampleKey : String := "0123abcd-4567-89ef-0000-ffffffffffff"

def sampleValues (name : String) : Value :=
  if name = "resource" then .text "products" else if name = "number" then .int 7 else .uuid sampleKey

theorem resolve_pathOf_sample :
    ∃ entry, compile (.text "/shop/\x7bresource\x7d/\x7bnumber:int\x7d/\x7bkey:uuid\x7d")
        [("action", .text "show"), ("number", .text "none"), ("lang", .text "en")] = .ok entry ∧
      Table.resolve ⟨[entry], []⟩ "/shop/products/7/0123abcd-4567-89ef-0000-ffffffffffff//".toList =
        .ok ⟨"products", "show", [("number", .int 7), ("lang", .text "en"), ("key", .uuid sampleKey)]⟩ := by
  have huuid : IsUuid sampleKey := by
    let groups := ["0123abcd", "4567", "89ef", "0000", "ffffffffffff"].map String.toList
    have hdigits : (groups.all fun group => group.all isLowerHexDigit) = true := by decide +kernel
    exact ⟨groups, by decide +kernel, fun g hg => List.all_eq_true.1 (List.all_eq_true.1 hdigits g hg),
      by decide +kernel⟩
  have hfits : ∀ s ∈ sampleSegments, s.Fits sampleValues := by
    refine List.forall_mem_cons.2 ⟨trivial, List.forall_mem_cons.2 ⟨?_, List.forall_mem_cons.2 ⟨?_,
      List.forall_mem_singleton.2 ?_⟩⟩⟩
    · exact .text (by decide) (by decide)
    · exact .integer (by decide)
    · exact .uuid huuid
  obtain ⟨entry, hentry, hresolve⟩ := resolve_pathOf (show sampleSegments ≠ [] from List.cons_ne_nil _ _)
    (by decide +kernel) [("action", .text "show"), ("number", .text "none"), ("lang", .text "en")]
  refine ⟨entry, hentry, ?_⟩
  exact hresolve ⟨[entry], []⟩ [] sampleValues (.text "products") (.text "show") 2 rfl hfits
    (by with_unfolding_all rfl) ⟨"products", rfl, by decide⟩ (by with_unfolding_all rfl) ⟨"show", rfl, by decide⟩

end Segment

end Route

end Gatehouse
