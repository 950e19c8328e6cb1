import Gatehouse.Proofs.Routing.Literals

/-!
# Mounts — paths below the path of an application

An application that is mounted below a path reads each link below that path as it would read the rest of the link
if it was not mounted at all: query and fragment stay as they are, and it does not matter how many slashes end the
mount path. A path that only begins like the mount path is none of those, and is left alone.
-/

namespace Gatehouse

/-! ## 1. Paths that are made of segments -/

namespace Url

open Text

/-- A part of a path: it is not empty, and nothing in it divides the path, ends it or is dropped from it. -/
def IsSegment (cs : List Char) : Prop :=
  cs ≠ [] ∧ ∀ c ∈ cs, c ≠ '/' ∧ c ≠ '?' ∧ c ≠ '#' ∧ isRemoved c = false

instance (cs : List Char) : Decidable (IsSegment cs) :=
  have : Decidable (∀ c ∈ cs, c ≠ '/' ∧ c ≠ '?' ∧ c ≠ '#' ∧ isRemoved c = false) :=
    List.decidableBAll (fun c => c ≠ '/' ∧ c ≠ '?' ∧ c ≠ '#' ∧ isRemoved c = false) cs
  inferInstanceAs (Decidable (_ ∧ _))

/-- The characters that cannot be in a segment. -/
def notInSegments : List Char := ['/', '?', '#', '\t', '\r', '\n']

/-- Characters of a kind to which none of those belongs make a segment. -/
theorem isSegment_of_forall {p : Char → Bool} {cs : List Char} (hne : cs ≠ []) (hcs : ∀ c ∈ cs, p c = true)
    (hother : notInSegments.any p = false) : IsSegment cs := by
  refine ⟨hne, fun c hc => ?_⟩
  have hnot : c ∉ notInSegments := by
    intro hmem
    exact List.any_eq_false.1 hother c hmem (hcs c hc)
  simp only [notInSegments, List.mem_cons, List.not_mem_nil, or_false, not_or] at hnot
  simp [isRemoved, hnot]

def ofSegments (segments : List (List Char)) : List Char := segments.flatMap ('/' :: ·)

variable {segments : List (List Char)}

theorem mem_ofSegments {c : Char} (h : ∀ s ∈ segments, IsSegment s) (hc : c ∈ ofSegments segments) :
    c ≠ '?' ∧ c ≠ '#' ∧ isRemoved c = false := by
  obtain ⟨s, hs, hmem⟩ := List.mem_flatMap.1 hc
  obtain rfl | hmem := List.mem_cons.1 hmem
  · decide
  · exact ((h s hs).2 c hmem).2

theorem isAbsolute_cons {s : List Char} (h : IsSegment s) (cs : List Char) : IsAbsolute ('/' :: (s ++ cs)) := by
  obtain ⟨hne, hslash⟩ := h
  cases s with
  | nil => exact absurd rfl hne
  | cons c s =>
    refine ⟨_, rfl, ?_⟩
    simpa using (hslash c List.mem_cons_self).1

/-- Below segments or not, a path that begins with a single slash does so. -/
theorem isAbsolute_append (h : ∀ s ∈ segments, IsSegment s) {path : List Char} (habsolute : IsAbsolute path) :
    IsAbsolute (ofSegments segments ++ path) := by
  cases segments with
  | nil => exact habsolute
  | cons s segments =>
    have hcons : ofSegments (s :: segments) ++ path = '/' :: (s ++ (ofSegments segments ++ path)) := by
      simp [ofSegments]
    rw [hcons]
    exact isAbsolute_cons (h s List.mem_cons_self) _

theorem getLast?_ofSegments (h : ∀ s ∈ segments, IsSegment s) : (ofSegments segments).getLast? ≠ some '/' := by
  obtain rfl | ⟨front, s, rfl⟩ := List.eq_nil_or_concat' segments
  · simp [ofSegments]
  · obtain ⟨hs, hslash⟩ := h s (by simp)
    have hend : (ofSegments (front ++ [s])).getLast? = s.getLast? := by
      simp [ofSegments, List.getLast?_cons, List.getLast?_append, List.getLast?_eq_some_getLast hs]
    rw [hend]
    intro hlast
    exact (hslash '/' (List.mem_of_getLast? hlast)).1 rfl

/-! ## 2. URLs below a path -/

theorem head?_cut {sep : Char} {cs : List Char} (h : cs.head? = some '/') (hsep : sep ≠ '/') :
    (cut sep cs).1.head? = some '/' := by
  cases cs with
  | nil => cases h
  | cons c cs =>
    have hc : c = '/' := by simpa using h
    rw [cut, if_neg (by rw [hc]; exact Ne.symm hsep)]
    exact h

/-- An absolute path with its query and its fragment, taken apart. -/
theorem parse_absolute {target : List Char} (habsolute : IsAbsolute target)
    (hkept : ∀ c ∈ target, isRemoved c = false) :
    parse target = .ok
      { scheme := []
        authority := []
        path := (cut '?' (cut '#' target).1).1
        query := (cut '?' (cut '#' target).1).2.getD []
        fragment := (cut '#' target).2.getD [] } := by
  obtain ⟨rest, rfl, hrest⟩ := habsolute
  exact parse_slash hrest fun c hc => hkept c (List.mem_cons_of_mem _ hc)

/-- A link below a path has this path in front of its own, and is the same link otherwise. -/
theorem parse_below (h : ∀ s ∈ segments, IsSegment s) {target : List Char} (habsolute : IsAbsolute target)
    (hkept : ∀ c ∈ target, isRemoved c = false) :
    ∃ url, parse target = .ok url ∧ url.path.head? = some '/' ∧
      parse (ofSegments segments ++ target) = .ok { url with path := ofSegments segments ++ url.path } := by
  refine ⟨_, parse_absolute habsolute hkept, ?_, ?_⟩
  · obtain ⟨rest, rfl, -⟩ := habsolute
    exact head?_cut (head?_cut rfl (by decide)) (by decide)
  · have hfragment : '#' ∉ ofSegments segments := fun hmem => (mem_ofSegments h hmem).2.1 rfl
    have hquery : '?' ∉ ofSegments segments := fun hmem => (mem_ofSegments h hmem).1 rfl
    have hkeptBelow : ∀ c ∈ ofSegments segments ++ target, isRemoved c = false := by
      intro c hc
      obtain hc | hc := List.mem_append.1 hc
      · exact (mem_ofSegments h hc).2.2
      · exact hkept c hc
    rw [parse_absolute (isAbsolute_append h habsolute) hkeptBelow, cut_append_of_not_mem hfragment,
      cut_append_of_not_mem hquery]

/-- Segments are their own path. -/
theorem parse_ofSegments (h : ∀ s ∈ segments, IsSegment s) (hne : segments ≠ []) :
    parse (ofSegments segments) = .ok ⟨[], [], ofSegments segments, [], []⟩ := by
  obtain ⟨s, more, rfl⟩ := List.exists_cons_of_ne_nil hne
  obtain ⟨rest, hrest, hslash⟩ := isAbsolute_cons (h s List.mem_cons_self) (ofSegments more)
  have hcons : ofSegments (s :: more) = '/' :: rest := hrest
  have hkept : ∀ c ∈ rest, c ≠ '?' ∧ c ≠ '#' ∧ isRemoved c = false := fun c hc =>
    mem_ofSegments h (hcons ▸ List.mem_cons_of_mem _ hc)
  rw [hcons]
  exact parse_path hslash (fun hmem => (hkept _ hmem).2.1 rfl) (fun hmem => (hkept _ hmem).1 rfl)
    fun c hc => (hkept c hc).2.2

/-- A reference that is taken apart has an authority that it may have. -/
theorem isAuthority_of_parse {text : List Char} {url : Url} (h : parse text = .ok url) :
    IsAuthority (authorityOf text) := by
  obtain ⟨haccepted, -⟩ | ⟨-, fault, hfault⟩ := parse_cases text
  · exact haccepted
  · cases h.symm.trans hfault

end Url

/-! ## 3. Paths below a mount path -/

namespace Adapter

/-- A path is below a mount path if it is this path, or goes on with a slash behind it. -/
def IsBelow (mount path : List Char) : Prop := path = mount ∨ mount ++ ['/'] <+: path

section BelowMount

variable (a : Adapter) {path : List Char}

/-- Of a path below the mount path, what comes behind the mount path is left. -/
theorem belowMount_append (h : path.head? = some '/') : a.belowMount (a.mount ++ path) = path := by
  obtain ⟨rest, rfl⟩ : ∃ rest, path = '/' :: rest := by
    cases path with
    | nil => cases h
    | cons c rest => exact ⟨rest, by rw [Option.some.inj h]⟩
  have hbelow : (a.mount ++ ['/']).isPrefixOf (a.mount ++ '/' :: rest) = true := by
    rw [List.isPrefixOf_iff_prefix]
    exact ⟨rest, by simp⟩
  unfold belowMount
  rw [hbelow, Bool.or_true, Bool.and_true, List.drop_left]
  by_cases hmount : a.mount = [] <;> simp [hmount]

theorem belowMount_of_mount_nil (hmount : a.mount = []) (h : path.head? = some '/') : a.belowMount path = path := by
  have happend := a.belowMount_append h
  rwa [hmount, List.nil_append] at happend

/-- A path that is not below the mount path is read as if there was none. -/
theorem belowMount_of_not_isBelow (h : ¬ IsBelow a.mount path) :
    a.belowMount path = (make a.resolver "").belowMount path := by
  have hother : (path == a.mount || (a.mount ++ ['/']).isPrefixOf path) = false := by
    rw [Bool.eq_false_iff]
    simpa [IsBelow] using h
  have hroot : (make a.resolver "").mount = [] := rfl
  unfold belowMount
  rw [hother, hroot, Bool.and_false]
  rfl

end BelowMount

variable {segments : List (List Char)}

/-- Slashes at the end of a mount path do not count. -/
theorem mount_make (h : ∀ s ∈ segments, Url.IsSegment s) (resolver : Option Resolver) (slashes : Nat) :
    (make resolver (String.ofList (Url.ofSegments segments ++ List.replicate slashes '/'))).mount =
      Url.ofSegments segments := by
  have hslashes : ∀ c ∈ List.replicate slashes '/', (c == '/') = true := fun c hc =>
    beq_iff_eq.2 (List.eq_of_mem_replicate hc)
  unfold make
  dsimp only
  rw [String.toList_ofList, List.reverse_append, List.reverse_replicate, List.dropWhile_append_of_pos hslashes]
  show (Url.ofSegments segments).rdropWhile (· == '/') = Url.ofSegments segments
  rw [List.rdropWhile_eq_self_iff]
  intro hne hslash
  have hlast := Url.getLast?_ofSegments h
  rw [List.getLast?_eq_some_getLast hne, beq_iff_eq.1 hslash] at hlast
  exact hlast rfl

/-! ## 4. Readings below a mount path -/

/-- Two paths come to the same request, or both are ambiguous. -/
inductive ReadAlike : Except Fault Request → Except Fault Request → Prop where
  | request (r : Request) : ReadAlike (.ok r) (.ok r)
  | ambiguous (c d : Ambiguity) : ReadAlike (.error (.ambiguous c)) (.error (.ambiguous d))

/-- Of two links of which the same is left, only a message can tell how they are written. -/
theorem ofPath_alike {a b : Adapter} {text other : String} {url below : Url} (hresolver : a.resolver = b.resolver)
    (hurl : Url.parse text.toList = .ok url) (hbelow : Url.parse other.toList = .ok below)
    (hpath : a.belowMount url.path = b.belowMount below.path)
    (habsolute : (b.belowMount below.path).head? = some '/') (hquery : url.query = below.query) :
    a.ofPath (.text text) text = b.ofPath (.text other) other ∨
      ReadAlike (a.ofPath (.text text) text) (b.ofPath (.text other) other) := by
  cases hb : b.resolver with
  | none =>
    unfold ofPath
    rw [hresolver, hb]
    exact .inl rfl
  | some resolver =>
    rw [ofPath_of_parse (hresolver.trans hb) rfl hurl (hpath ▸ habsolute), ofPath_of_parse hb rfl hbelow habsolute,
      hpath, hquery]
    cases resolver.resolve (b.belowMount below.path) with
    | error fault => exact .inl rfl
    | ok route =>
      simp only [Except.bind]
      -- Where resource or action is missing, the message shows the target as it was given.
      by_cases hincomplete : (route.resource == "" || route.action == "") = true
      · rw [if_pos hincomplete, if_pos hincomplete]
        exact .inr (.ambiguous _ _)
      · rw [if_neg hincomplete, if_neg hincomplete]
        exact .inl rfl

/-- Where two mount paths leave the same of a path, a target is read in the same way. -/
theorem ofPath_congr {a b : Adapter} {target : Value} {text : String} (hresolver : a.resolver = b.resolver)
    (hpath : ∀ url, Url.parse text.toList = .ok url → a.belowMount url.path = b.belowMount url.path) :
    a.ofPath target text = b.ofPath target text := by
  unfold ofPath
  rw [hresolver]
  cases hurl : Url.parse text.toList with
  | error fault => rfl
  | ok url => simp only [hpath url hurl]

theorem normalize_congr {a b : Adapter} {target : Value}
    (h : ∀ text, target.text? = some text → a.ofPath target text = b.ofPath target text) :
    a.normalize target = b.normalize target := by
  cases htext : target.text? with
  | some text => rw [normalize_of_text? htext, normalize_of_text? htext, h text htext]
  | none => cases target <;> first | rfl | cases htext

theorem Describes.readAlike {a : Adapter} {table : Route.Table} {target : Value} {url : Url}
    {reading : Except Fault Request} (h : a.Describes table target url reading) : ReadAlike reading reading := by
  cases h with
  | request => exact .request _
  | notAbsolute => exact .ambiguous _ _
  | noRoute => exact .ambiguous _ _
  | incomplete => exact .ambiguous _ _

section Link

variable {a b : Adapter} {target : String} (hresolver : a.resolver = b.resolver)
  (ha : a.mount = Url.ofSegments segments) (hb : b.mount = []) (h : ∀ s ∈ segments, Url.IsSegment s)
  (habsolute : Url.IsAbsolute target.toList) (hkept : ∀ c ∈ target.toList, Url.isRemoved c = false)

include hresolver ha hb h habsolute hkept

/-- A link below a mount path comes to what the rest of it comes to without one. -/
theorem normalize_below :
    a.normalize (.text (String.ofList (Url.ofSegments segments) ++ target)) = b.normalize (.text target) ∨
      ReadAlike (a.normalize (.text (String.ofList (Url.ofSegments segments) ++ target)))
        (b.normalize (.text target)) := by
  obtain ⟨url, hurl, hhead, hbelow⟩ := Url.parse_below h habsolute hkept
  have hlink : Url.parse (String.ofList (Url.ofSegments segments) ++ target).toList =
      .ok { url with path := Url.ofSegments segments ++ url.path } := by
    rw [String.toList_append, String.toList_ofList, hbelow]
  have hbare : b.belowMount url.path = url.path := b.belowMount_of_mount_nil hb hhead
  have hpath : a.belowMount (Url.ofSegments segments ++ url.path) = b.belowMount url.path := by
    rw [hbare, ← ha, a.belowMount_append hhead]
  exact ofPath_alike hresolver hlink hurl hpath (by rw [hbare, hhead]) rfl

/-- If the routes give an answer about the rest of the link, this is a request, or the link is ambiguous. -/
theorem readAlike_below {table : Route.Table} (htable : b.resolver = some (.table table))
    (hroutes : ∀ url, Url.parse target.toList = .ok url →
      ∀ route ∈ table.custom ++ table.routes, route.Answers (Route.trimmed url.path)) :
    ReadAlike (a.normalize (.text (String.ofList (Url.ofSegments segments) ++ target)))
      (b.normalize (.text target)) := by
  obtain ⟨url, hurl, hhead, -⟩ := Url.parse_below h habsolute hkept
  have hanswers : b.Answers table (.text target) target := by
    refine ⟨rfl, Url.isAuthority_of_parse hurl, fun found hfound => ?_⟩
    cases hurl.symm.trans hfound
    rw [b.belowMount_of_mount_nil hb hhead]
    exact hroutes url hurl
  obtain ⟨found, -, hdescribes⟩ := ofPath_of_answers htable hanswers
  obtain hsame | halike := normalize_below hresolver ha hb h habsolute hkept
  · rw [hsame]
    exact hdescribes.readAlike
  · exact halike

end Link

/-- An application below a path reads a link below this path like one without a mount path reads the rest of the link,
and to the same request if the routes give an answer about that rest. A target that is not below the path it reads
as if there was no mount path. -/
theorem mount_transparent (hsegments : ∀ s ∈ segments, Url.IsSegment s) (slashes : Nat)
    (resolver : Option Resolver) :
    let mounted := make resolver (String.ofList (Url.ofSegments segments ++ List.replicate slashes '/'))
    let bare := make resolver ""
    (∀ target : String, Url.IsAbsolute target.toList → (∀ c ∈ target.toList, Url.isRemoved c = false) →
      let below := String.ofList (Url.ofSegments segments) ++ target
      (mounted.normalize (.text below) = bare.normalize (.text target) ∨
        ReadAlike (mounted.normalize (.text below)) (bare.normalize (.text target))) ∧
      ∀ table, resolver = some (.table table) →
        (∀ url, Url.parse target.toList = .ok url →
          ∀ route ∈ table.custom ++ table.routes, route.Answers (Route.trimmed url.path)) →
        ReadAlike (mounted.normalize (.text below)) (bare.normalize (.text target))) ∧
    ∀ target : Value,
      (∀ text url, target.text? = some text → Url.parse text.toList = .ok url →
        ¬ IsBelow (Url.ofSegments segments) url.path) →
      mounted.normalize target = bare.normalize target := by
  intro mounted bare
  have hmount : mounted.mount = Url.ofSegments segments := mount_make hsegments resolver slashes
  have hresolvers : mounted.resolver = bare.resolver := rfl
  constructor
  · intro target habsolute hkept below
    refine ⟨normalize_below hresolvers hmount rfl hsegments habsolute hkept, fun table htable hroutes => ?_⟩
    exact readAlike_below hresolvers hmount rfl hsegments habsolute hkept htable hroutes
  · intro target hother
    refine normalize_congr fun text htext => ofPath_congr hresolvers fun url hurl => ?_
    -- Without a mount path, nothing is taken off any path.
    have hnotBelow := hother text url htext hurl
    rw [← hmount] at hnotBelow
    exact mounted.belowMount_of_not_isBelow hnotBelow

/-- A mount path of two segments. -/
def shopSegments : List (List Char) := ["shop".toList, "v2-x_1".toList]

def shopMount : String := "/shop/v2-x_1//"

theorem mount_transparent_shop :
    let mounted := make (some (.table productTable)) shopMount
    let bare := make (some (.table productTable)) ""
    ReadAlike (mounted.normalize (.text "/shop/v2-x_1/products/12/edit?user_id=3#top"))
        (bare.normalize (.text "/products/12/edit?user_id=3#top")) ∧
      (bare.normalize (.text "/products/12/edit?user_id=3#top")).map (fun r => (r.resource.written, r.ids)) =
        .ok ("products", [("product_id", .int 12), ("user_id", .text "3")]) ∧
      mounted.normalize (.text "/shop/v2-x_10/edit") = bare.normalize (.text "/shop/v2-x_10/edit") := by
  have hsegments : ∀ s ∈ shopSegments, Url.IsSegment s := by decide +kernel
  have hshop := mount_transparent hsegments 2 (some (.table productTable))
  have hparse : Url.parse "/products/12/edit?user_id=3#top".toList = .ok ⟨[], [], "/products/12/edit".toList,
      "user_id=3".toList, "top".toList⟩ := by with_unfolding_all rfl
  have hother : Url.parse "/shop/v2-x_10/edit".toList = .ok ⟨[], [], "/shop/v2-x_10/edit".toList, [], []⟩ := by
    with_unfolding_all rfl
  refine ⟨?_, by with_unfolding_all rfl, ?_⟩
  · have hremoved : "/products/12/edit?user_id=3#top".toList.any Url.isRemoved = false := by decide +kernel
    have hkept : ∀ c ∈ "/products/12/edit?user_id=3#top".toList, Url.isRemoved c = false := by
      simpa only [List.any_eq_false, Bool.not_eq_true] using hremoved
    apply (hshop.1 "/products/12/edit?user_id=3#top" ⟨_, rfl, by decide⟩ hkept).2 productTable rfl
    intro url hurl route hroute
    cases hparse.symm.trans hurl
    exact Route.Entry.answers_of_length (by decide +kernel) (namesHaveText_productTable route hroute)
  · refine hshop.2 (.text "/shop/v2-x_10/edit") fun text url htext hurl => ?_
    cases htext
    cases hother.symm.trans hurl
    unfold IsBelow
    decide +kernel

/-- The segments of the page for editing the product with this number. -/
def editSegments (digits : List Char) : List (List Char) := ["products".toList, digits, "edit".toList]

section LongNumber

variable {digits : List Char} (hdigits : ∀ c ∈ digits, Binary64.isDigit c = true)
  (hlong : Route.digitLimit < digits.length)

include hdigits hlong

theorem isSegment_editSegments : ∀ s ∈ editSegments digits, Url.IsSegment s := by
  have hne : digits ≠ [] := List.ne_nil_of_length_pos (Nat.zero_lt_of_lt hlong)
  have hproducts : Url.IsSegment "products".toList := by decide +kernel
  have hedit : Url.IsSegment "edit".toList := by decide +kernel
  have hnumber : Url.IsSegment digits := Url.isSegment_of_forall hne hdigits (by decide)
  exact List.forall_mem_cons.2 ⟨hproducts, List.forall_mem_cons.2 ⟨hnumber, List.forall_mem_singleton.2 hedit⟩⟩

theorem captures_editSegments : Route.Template.captures ("/products/".toList.map .literal ++
    [.parameter "product_id" .integer] ++ "/edit".toList.map .literal) (Url.ofSegments (editSegments digits)) =
      some [⟨"product_id", .integer, digits⟩] := by
  have hne : digits ≠ [] := List.ne_nil_of_length_pos (Nat.zero_lt_of_lt hlong)
  have hends : EndsSegment "/edit".toList := .inr ⟨"edit".toList, rfl⟩
  have hnumber : Route.Template.captures (.parameter "product_id" .integer :: "/edit".toList.map .literal)
      (digits ++ "/edit".toList) = some [⟨"product_id", .integer, digits⟩] := by
    obtain ⟨others, hothers⟩ := Route.stretches_append hne hdigits (by decide) hends
    rw [Route.Template.captures, Route.Kind.readings, hothers, List.findSome?_cons]
    dsimp only
    rw [Route.captures_literals_iff.2 ⟨rfl, .inl rfl⟩, List.take_left]
    rfl
  rw [List.append_assoc]
  exact (Route.Segment.captures_literals_append "/products/".toList _ _).trans hnumber

theorem resolve_tooManyDigits : productTable.resolve (Url.ofSegments (editSegments digits)) =
    .error (.badValue (.tooManyDigits digits.length)) := by
  have htrimmed : Route.trimmed (Url.ofSegments (editSegments digits)) = Url.ofSegments (editSegments digits) :=
    (Route.isTrimmed_iff _).1 (.inr (Url.getLast?_ofSegments (isSegment_editSegments hdigits hlong)))
  have hvalue : Route.Capture.value ⟨"product_id", .integer, digits⟩ =
      .error (.badValue (.tooManyDigits digits.length)) := by
    unfold Route.Capture.value
    dsimp only
    rw [if_pos hlong]
  -- The route for editing is the first one that is tried, and it fails before it gives anything.
  unfold Route.Table.resolve
  simp only [htrimmed, productTable, List.cons_append, Route.firstMatch, Route.Entry.resolve,
    captures_editSegments hdigits hlong, Route.paramsOf, hvalue]
  rfl

/-- A link to this page fails for a number that is too long to be read, below whatever mount path. -/
theorem normalize_tooManyDigits {a : Adapter} (hresolver : a.resolver = some (.table productTable))
    (h : ∀ s ∈ segments, Url.IsSegment s) (hmount : a.mount = Url.ofSegments segments) :
    a.normalize (.text (String.ofList (Url.ofSegments (segments ++ editSegments digits)))) =
      .error (.badValue (.tooManyDigits digits.length)) := by
  have hall : ∀ s ∈ segments ++ editSegments digits, Url.IsSegment s :=
    List.forall_mem_append.2 ⟨h, isSegment_editSegments hdigits hlong⟩
  have hparse : Url.parse (String.ofList (Url.ofSegments (segments ++ editSegments digits))).toList =
      .ok ⟨[], [], Url.ofSegments (segments ++ editSegments digits), [], []⟩ := by
    rw [String.toList_ofList]
    exact Url.parse_ofSegments hall (by simp [editSegments])
  have hbelow : a.belowMount (Url.ofSegments (segments ++ editSegments digits)) =
      Url.ofSegments (editSegments digits) := by
    rw [Url.ofSegments, List.flatMap_append]
    show a.belowMount (Url.ofSegments segments ++ Url.ofSegments (editSegments digits)) = _
    rw [← hmount]
    exact a.belowMount_append rfl
  have hresolve : Resolver.resolve (.table productTable) (Url.ofSegments (editSegments digits)) = _ :=
    resolve_tooManyDigits hdigits hlong
  rw [normalize_of_text? rfl, ofPath_of_parse hresolver rfl hparse (by rw [hbelow]; rfl), hbelow, hresolve]
  rfl

end LongNumber

/-- Below a mount path as without one, a number that is too long is neither a request nor ambiguous. -/
theorem mount_tooManyDigits :
    let mounted := make (some (.table productTable)) "/shop"
    let bare := make (some (.table productTable)) ""
    let link := String.ofList (Url.ofSegments (editSegments (List.replicate 4301 '1')))
    mounted.normalize (.text ("/shop" ++ link)) = .error (.badValue (.tooManyDigits 4301)) ∧
      bare.normalize (.text link) = .error (.badValue (.tooManyDigits 4301)) ∧
      ¬ ReadAlike (mounted.normalize (.text ("/shop" ++ link))) (bare.normalize (.text link)) := by
  intro mounted bare link
  have hdigits : ∀ c ∈ List.replicate 4301 '1', Binary64.isDigit c = true := fun c hc => by
    rw [List.eq_of_mem_replicate hc]
    rfl
  have hlong : Route.digitLimit < (List.replicate 4301 '1').length := by
    rw [List.length_replicate]
    decide
  have hshop : ∀ s ∈ ["shop".toList], Url.IsSegment s := by decide +kernel
  have htext : "/shop" ++ link =
      String.ofList (Url.ofSegments (["shop".toList] ++ editSegments (List.replicate 4301 '1'))) := by
    rw [Url.ofSegments, List.flatMap_append, String.ofList_append]
    rfl
  have hmounted := @normalize_tooManyDigits _ _ hdigits hlong mounted rfl hshop rfl
  have hbare := @normalize_tooManyDigits [] _ hdigits hlong bare rfl (fun s hs => absurd hs List.not_mem_nil) rfl
  rw [List.length_replicate, ← htext] at hmounted
  rw [List.length_replicate, List.nil_append] at hbare
  refine ⟨hmounted, hbare, ?_⟩
  rw [hmounted, hbare]
  intro halike
  cases halike

end Adapter

end Gatehouse
