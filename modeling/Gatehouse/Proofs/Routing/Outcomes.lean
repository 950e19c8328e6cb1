import Gatehouse.Proofs.Texts
import Gatehouse.Proofs.Web.Readings

/-!
# Outcomes — how a path can fail to describe a request

A path describes a request or is ambiguous. What could stand in the way on its way through the URL and the
routes are an authority that no URL may have, an integer that is too long to be read, and a default that has
no text; where there is none of these, no other fault comes out.
-/

namespace Gatehouse

/-! ## 1. Authorities -/

namespace Url

open Text

/-- The part of a reference behind `//`, up to its path. -/
def authorityOf (text : List Char) : List Char :=
  (splitAuthority (splitScheme ((text.dropWhile isLeadingJunk).filter (!isRemoved ·))).2).1

/-- An authority that a reference may have. -/
structure IsAuthority (authority : List Char) : Prop where
  brackets : checkBrackets authority = .ok ()
  delimiters : checkDelimiters authority = .ok ()

/-- A reference is taken apart unless its authority is refused. -/
theorem parse_cases (text : List Char) :
    (IsAuthority (authorityOf text) ∧ ∃ url, parse text = .ok url) ∨
      (¬ IsAuthority (authorityOf text) ∧ ∃ fault, parse text = .error fault) := by
  -- Nothing but the two checks of the authority can fail.
  have hparse : ∃ url, parse text = (do
      checkBrackets (authorityOf text)
      checkDelimiters (authorityOf text)
      return url) := ⟨_, rfl⟩
  obtain ⟨url, hparse⟩ := hparse
  rw [hparse]
  cases hbrackets : checkBrackets (authorityOf text) with
  | error fault => exact .inr ⟨fun h => (by cases h.brackets.symm.trans hbrackets), ⟨fault, rfl⟩⟩
  | ok _ =>
    cases hdelimiters : checkDelimiters (authorityOf text) with
    | error fault => exact .inr ⟨fun h => (by cases h.delimiters.symm.trans hdelimiters), ⟨fault, rfl⟩⟩
    | ok _ => exact .inl ⟨⟨hbrackets, hdelimiters⟩, _, rfl⟩

/-- An authority of ASCII characters without brackets is never refused. -/
theorem isAuthority_of_ascii {authority : List Char} (hopen : '[' ∉ authority) (hclose : ']' ∉ authority)
    (hascii : ∀ c ∈ authority, c.toNat < 0x80) : IsAuthority authority := by
  have hcontains : ∀ c, c ∉ authority → authority.contains c = false := fun c hc => by simpa using hc
  constructor
  · unfold checkBrackets
    rw [hcontains _ hopen, hcontains _ hclose]
    rfl
  · have hlarge : ∀ n ∈ hiddenDelimiters, 0x80 ≤ n := by decide
    have hnone : (authority.any fun c => hiddenDelimiters.contains c.toNat) = false := by
      rw [List.any_eq_false]
      intro c hc hhidden
      have := hlarge c.toNat (List.contains_iff_mem.1 hhidden)
      have := hascii c hc
      omega
    unfold checkDelimiters
    rw [hnone]
    rfl

end Url

/-! ## 2. Values of captures -/

namespace Binary64

theorem takeWhile_isDigit {digits tail : List Char} (hdigits : ∀ c ∈ digits, isDigit c = true)
    (htail : tail = [] ∨ ∃ more, tail = '.' :: more) :
    (digits ++ tail).takeWhile isDigit = digits ∧ (digits ++ tail).dropWhile isDigit = tail := by
  have hstop : tail.takeWhile isDigit = [] ∧ tail.dropWhile isDigit = tail := by
    obtain rfl | ⟨more, rfl⟩ := htail
    · exact ⟨rfl, rfl⟩
    · exact ⟨rfl, rfl⟩
  rw [List.takeWhile_append_of_pos hdigits, List.dropWhile_append_of_pos hdigits, hstop.1, hstop.2,
    List.append_nil]
  exact ⟨rfl, rfl⟩

/-- Digits, with a point and more digits or without, are a decimal. -/
theorem exists_ofDecimalText? (negative : Bool) {digits tail : List Char} (hne : digits ≠ [])
    (hdigits : ∀ c ∈ digits, isDigit c = true)
    (htail : tail = [] ∨ ∃ fraction, tail = '.' :: fraction ∧ ∀ c ∈ fraction, isDigit c = true) :
    ∃ x, ofDecimalText? negative (digits ++ tail) = some x := by
  obtain ⟨htake, hdrop⟩ := takeWhile_isDigit hdigits (htail.imp_right fun ⟨fraction, h, _⟩ => ⟨fraction, h⟩)
  have hempty : digits.isEmpty = false := by
    cases digits with
    | nil => exact absurd rfl hne
    | cons c rest => rfl
  unfold ofDecimalText?
  rw [htake, hdrop]
  obtain rfl | ⟨fraction, rfl, hfraction⟩ := htail
  · dsimp only
    rw [hempty]
    exact ⟨_, rfl⟩
  · obtain ⟨hwhole, hnone⟩ := takeWhile_isDigit hfraction (.inl rfl)
    rw [List.append_nil] at hwhole hnone
    simp only [hwhole, hnone, hempty, Bool.false_and, Bool.false_eq_true, if_false]
    exact ⟨_, rfl⟩

end Binary64

namespace Route

/-- A decimal takes digits, and a point and more digits or nothing else. -/
theorem of_mem_decimals {n : Nat} {cs rest : List Char} (h : (n, rest) ∈ decimals cs) :
    ∃ digits tail, cs = (digits ++ tail) ++ rest ∧ n = (digits ++ tail).length ∧ digits ≠ [] ∧
      (∀ c ∈ digits, Binary64.isDigit c = true) ∧
      (tail = [] ∨ ∃ fraction, tail = '.' :: fraction ∧ ∀ c ∈ fraction, Binary64.isDigit c = true) := by
  obtain ⟨⟨whole, left⟩, hwhole, hread⟩ := List.mem_flatMap.1 h
  obtain ⟨digits, rfl, rfl, hleast, hdigits⟩ := of_mem_stretches hwhole
  have hne : digits ≠ [] := List.ne_nil_of_length_pos hleast
  obtain hread | hread := List.mem_append.1 hread
  · dsimp only at hread
    split at hread
    · obtain ⟨⟨length, later⟩, hmore, heq⟩ := List.mem_map.1 hread
      obtain ⟨fraction, rfl, rfl, -, hfraction⟩ := of_mem_stretches hmore
      cases heq
      refine ⟨digits, '.' :: fraction, ?_, ?_, hne, hdigits, .inr ⟨fraction, rfl, hfraction⟩⟩
      · rw [List.append_assoc, List.cons_append]
      · rw [List.length_append, List.length_cons]
        omega
    · cases hread
  · cases List.mem_singleton.1 hread
    exact ⟨digits, [], by rw [List.append_nil], by rw [List.append_nil], hne, hdigits, .inl rfl⟩

theorem length_rest_of_takeHexGroups {first : Bool} {sizes : List Nat} {n : Nat} {cs rest : List Char}
    (h : takeHexGroups first sizes cs = some (n, rest)) : rest.length ≤ cs.length := by
  induction sizes generalizing first n cs with
  | nil =>
    cases h
    exact Nat.le_refl _
  | cons size sizes ih =>
    -- Behind a dash or not, a group is taken off, and the others off the rest.
    have hgroup : ∀ {dash : Nat} {left : List Char}, left.length ≤ cs.length →
        (if (left.take size).length = size && (left.take size).all isHexDigit then
          (takeHexGroups false sizes (left.drop size)).map fun reading => (dash + size + reading.1, reading.2)
        else none) = some (n, rest) → rest.length ≤ cs.length := by
      intro dash left hleft h
      split at h
      · obtain ⟨⟨taken, later⟩, htaken, heq⟩ := Option.map_eq_some_iff.1 h
        cases heq
        have hlater := ih htaken
        rw [List.length_drop] at hlater
        omega
      · cases h
    unfold takeHexGroups at h
    dsimp only at h
    split at h
    · exact hgroup (by simp only [List.length_cons]; omega) h
    · exact hgroup (Nat.le_refl _) h

theorem length_rest_of_mem_readings {kind : Kind} {n : Nat} {cs rest : List Char}
    (h : (n, rest) ∈ kind.readings cs) : rest.length ≤ cs.length := by
  have hstretches : ∀ {p : Char → Bool} {least : Nat}, (n, rest) ∈ stretches p least cs →
      rest.length ≤ cs.length := by
    intro p least h
    obtain ⟨front, rfl, -, -, -⟩ := of_mem_stretches h
    rw [List.length_append]
    omega
  cases kind with
  | text => exact hstretches h
  | path => exact hstretches h
  | integer => exact hstretches h
  | decimal =>
    obtain ⟨digits, tail, rfl, -, -⟩ := of_mem_decimals h
    rw [List.length_append]
    omega
  | uuid => exact length_rest_of_takeHexGroups (Option.mem_toList.1 h)

/-- Something that a parameter can take. -/
def Capture.IsTaken (c : Capture) : Prop := ∃ cs n rest, (n, rest) ∈ c.kind.readings cs ∧ c.text = cs.take n

/-- Each parameter takes a part of what those before it have left of a path. -/
theorem isTaken_of_captures {template : Template} {cs : List Char} {captures : List Capture}
    (h : template.captures cs = some captures) : ∀ c ∈ captures, c.IsTaken ∧ c.text.length ≤ cs.length := by
  induction template generalizing cs captures with
  | nil =>
    obtain ⟨rfl, -⟩ := of_captures_nil h
    exact fun c hc => absurd hc List.not_mem_nil
  | cons piece tail ih =>
    cases piece with
    | literal c =>
      obtain ⟨rest, rfl, hrest⟩ := of_captures_literal h
      exact fun c hc => (ih hrest c hc).imp_right Nat.le_succ_of_le
    | parameter name kind =>
      obtain ⟨taken, rest, more, hreading, hmore, rfl⟩ := of_captures_parameter h
      refine List.forall_mem_cons.2 ⟨⟨⟨cs, taken, rest, hreading, rfl⟩, List.length_take_le' taken cs⟩, ?_⟩
      exact fun c hc => (ih hmore c hc).imp_right (Nat.le_trans · (length_rest_of_mem_readings hreading))

/-- What a parameter has taken has a value with a text, but for an integer that is too long to be read. -/
theorem Capture.IsTaken.exists_value {c : Capture} (h : c.IsTaken)
    (hdigits : c.kind = .integer → c.text.length ≤ digitLimit) :
    ∃ v, c.value = .ok v ∧ v.HasText := by
  obtain ⟨name, kind, text⟩ := c
  obtain ⟨cs, n, rest, hreading, rfl⟩ := h
  unfold Capture.value
  -- Only for a decimal does it matter what has been taken.
  cases kind with
  | text => exact ⟨_, rfl, Value.hasText_of_parts_nil rfl rfl⟩
  | path => exact ⟨_, rfl, Value.hasText_of_parts_nil rfl rfl⟩
  | integer =>
    refine ⟨_, if_neg (Nat.not_lt.2 (hdigits rfl)), Value.hasText_of_parts_nil rfl rfl⟩
  | decimal =>
    obtain ⟨digits, tail, rfl, rfl, hne, hwhole, htail⟩ := of_mem_decimals hreading
    obtain ⟨x, hx⟩ := Binary64.exists_ofDecimalText? false hne hwhole htail
    dsimp only
    rw [List.take_left, hx]
    exact ⟨_, rfl, Value.hasText_of_parts_nil rfl rfl⟩
  | uuid => exact ⟨_, rfl, Value.hasText_of_parts_nil rfl rfl⟩

/-! ## 3. Routes -/

/-- The parameters that name what a request is about. -/
def IsRequestName (name : String) : Prop := name = "resource" ∨ name = "action"

/-- Parameters of which those that name what a request is about have a text. -/
def NamesHaveText (params : List (String × Value)) : Prop :=
  ∀ p ∈ params, IsRequestName p.1 → p.2.HasText

theorem mem_put {fields : List (String × Value)} {name : String} {v : Value} {p : String × Value}
    (h : p ∈ Field.put fields name v) : p ∈ fields ∨ p = (name, v) := by
  induction fields with
  | nil => exact .inr (List.mem_singleton.1 h)
  | cons f rest ih =>
    obtain ⟨n, w⟩ := f
    rw [Field.put] at h
    split at h
    · rename_i hn
      obtain rfl | h := List.mem_cons.1 h
      · exact .inr (by rw [hn])
      · exact .inl (List.mem_cons_of_mem _ h)
    · obtain rfl | h := List.mem_cons.1 h
      · exact .inl List.mem_cons_self
      · exact (ih h).imp_left (List.mem_cons_of_mem _)

theorem exists_paramsOf {captures : List Capture} {defaults : List (String × Value)}
    (hvalues : ∀ c ∈ captures, ∃ v, c.value = .ok v ∧ v.HasText)
    (hdefaults : NamesHaveText defaults) :
    ∃ params, paramsOf defaults captures = .ok params ∧ NamesHaveText params := by
  induction captures generalizing defaults with
  | nil => exact ⟨defaults, rfl, hdefaults⟩
  | cons c rest ih =>
    obtain ⟨⟨v, hv, hwritten⟩, hrest⟩ := List.forall_mem_cons.1 hvalues
    rw [paramsOf, bind_of_eq_ok hv]
    refine ih hrest fun p hp hname => ?_
    obtain hp | rfl := mem_put hp
    · exact hdefaults p hp hname
    · exact hwritten

theorem hasText_paramOf {params : List (String × Value)} (h : NamesHaveText params) {name : String}
    (hname : IsRequestName name) : (paramOf params name).HasText := by
  unfold paramOf
  cases hfind : params.find? fun p => p.1 == name with
  | none => exact Value.hasText_of_parts_nil rfl rfl
  | some p =>
    have hp : p.1 = name := by simpa using List.find?_some hfind
    exact h p (List.mem_of_find?_eq_some hfind) (hp ▸ hname)

/-- A route that gives an answer about a path: it takes no integer that is too long to be read, and its defaults for
what a request is about have a text. -/
structure Entry.Answers (route : Entry) (path : List Char) : Prop where
  digits : ∀ captures, route.template.captures path = some captures →
    ∀ c ∈ captures, c.kind = .integer → c.text.length ≤ digitLimit
  defaults : NamesHaveText route.defaults

/-- No integer in a path is too long if the path itself is not. -/
theorem Entry.answers_of_length {route : Entry} {path : List Char} (hpath : path.length ≤ digitLimit)
    (hdefaults : NamesHaveText route.defaults) : route.Answers path where
  digits _ hcaptures c hc _ := Nat.le_trans (isTaken_of_captures hcaptures c hc).2 hpath
  defaults := hdefaults

theorem Entry.Answers.exists_resolve {route : Entry} {path : List Char} (h : route.Answers path) :
    ∃ answer, route.resolve path = .ok answer := by
  unfold Entry.resolve
  cases hcaptures : route.template.captures path with
  | none => exact ⟨none, rfl⟩
  | some captures =>
    obtain ⟨params, hparams, htexts⟩ := exists_paramsOf (fun c hc =>
      (isTaken_of_captures hcaptures c hc).1.exists_value (h.digits captures hcaptures c hc)) h.defaults
    obtain ⟨resource, hresource⟩ := hasText_paramOf htexts (.inl rfl)
    obtain ⟨action, haction⟩ := hasText_paramOf htexts (.inr rfl)
    dsimp only
    rw [bind_of_eq_ok hparams, hresource, haction]
    split
    · exact ⟨_, rfl⟩
    · exact ⟨none, rfl⟩

/-- Routes that all give an answer give the first match there is. -/
theorem firstMatch_cases {routes : List Entry} {path : List Char} (h : ∀ route ∈ routes, route.Answers path) :
    (∃ m, firstMatch routes path = .ok (some m)) ∨
      (firstMatch routes path = .ok none ∧ ∀ route ∈ routes, route.resolve path = .ok none) := by
  induction routes with
  | nil => exact .inr ⟨rfl, fun route hroute => absurd hroute List.not_mem_nil⟩
  | cons route rest ih =>
    obtain ⟨hroute, hrest⟩ := List.forall_mem_cons.1 h
    obtain ⟨answer, hanswer⟩ := hroute.exists_resolve
    rw [firstMatch, bind_of_eq_ok hanswer]
    cases answer with
    | some m => exact .inl ⟨m, rfl⟩
    | none => exact (ih hrest).imp_right fun ⟨hfirst, hnone⟩ => ⟨hfirst, List.forall_mem_cons.2 ⟨hanswer, hnone⟩⟩

/-- A path has a route, or it is ambiguous for no route takes it. -/
theorem Table.resolve_cases {table : Table} {path : List Char}
    (h : ∀ route ∈ table.custom ++ table.routes, route.Answers (trimmed path)) :
    (∃ m, table.resolve path = .ok m) ∨
      (table.resolve path = .error (.ambiguous (.noRoute (.text (String.ofList (trimmed path))))) ∧
        ∀ route ∈ table.custom ++ table.routes, route.resolve (trimmed path) = .ok none) := by
  unfold resolve
  dsimp only
  obtain ⟨m, hm⟩ | ⟨hnone, hroutes⟩ := firstMatch_cases h
  · rw [bind_of_eq_ok hm]
    exact .inl ⟨m, rfl⟩
  · rw [bind_of_eq_ok hnone]
    exact .inr ⟨rfl, hroutes⟩

end Route

/-! ## 4. Targets -/

namespace Adapter

/-- A path that a table of routes gives an answer about, below the mount path: its authority is one that a URL may
have, every route answers, and it is no member of a group that hides what strips it. -/
structure Answers (a : Adapter) (table : Route.Table) (target : Value) (text : String) : Prop where
  unhidden : target.isNamed "lstrip" = false
  authority : Url.IsAuthority (Url.authorityOf text.toList)
  routes : ∀ url, Url.parse text.toList = .ok url → ∀ route ∈ table.custom ++ table.routes,
    route.Answers (Route.trimmed (a.belowMount url.path))

/-- What a target comes to whose URL has been taken apart: a request for what the first route that takes its path says,
with a resource and an action, or a path that is ambiguous. -/
inductive Describes (a : Adapter) (table : Route.Table) (target : Value) (url : Url) : Except Fault Request → Prop where
  | request (route : Route.Match) (habsolute : (a.belowMount url.path).head? = some '/')
      (hroute : table.resolve (a.belowMount url.path) = .ok route) (hresource : route.resource ≠ "")
      (haction : route.action ≠ "") : Describes a table target url (.ok ⟨.null, .text route.resource,
        .text route.action, addQueryIds (routeIds route.params) (Url.queryPairs false url.query)⟩)
  | notAbsolute (h : (a.belowMount url.path).head? ≠ some '/') :
      Describes a table target url (.error (.ambiguous (.notAbsolute target)))
  | noRoute (habsolute : (a.belowMount url.path).head? = some '/')
      (h : ∀ route ∈ table.custom ++ table.routes,
        route.resolve (Route.trimmed (a.belowMount url.path)) = .ok none) :
      Describes a table target url
        (.error (.ambiguous (.noRoute (.text (String.ofList (Route.trimmed (a.belowMount url.path)))))))
  | incomplete (route : Route.Match) (habsolute : (a.belowMount url.path).head? = some '/')
      (hroute : table.resolve (a.belowMount url.path) = .ok route) (h : route.resource = "" ∨ route.action = "") :
      Describes a table target url (.error (.ambiguous (.incomplete target)))

/-- Once the URL of a path has been taken apart, it matters what is left of its path, and its query. -/
theorem ofPath_of_parse {a : Adapter} {resolver : Resolver} {target : Value} {text : String} {url : Url}
    (hresolver : a.resolver = some resolver) (hunhidden : target.isNamed "lstrip" = false)
    (hurl : Url.parse text.toList = .ok url) (habsolute : (a.belowMount url.path).head? = some '/') :
    a.ofPath target text = (resolver.resolve (a.belowMount url.path)).bind fun route =>
      if route.resource == "" || route.action == "" then .error (.ambiguous (.incomplete target))
      else .ok ⟨.null, .text route.resource, .text route.action,
        addQueryIds (routeIds route.params) (Url.queryPairs false url.query)⟩ := by
  unfold ofPath
  simp only [hresolver, hunhidden, hurl, habsolute]
  cases resolver.resolve (a.belowMount url.path) with
  | error fault => rfl
  | ok route =>
    simp only [bind, Except.bind]
    by_cases hincomplete : (route.resource == "" || route.action == "") = true
    · rw [if_pos hincomplete, if_pos hincomplete]
      rfl
    · rw [if_neg hincomplete, if_neg hincomplete]
      rfl

theorem ofPath_of_answers {a : Adapter} {table : Route.Table} {target : Value} {text : String}
    (hresolver : a.resolver = some (.table table)) (h : a.Answers table target text) :
    ∃ url, Url.parse text.toList = .ok url ∧ a.Describes table target url (a.ofPath target text) := by
  obtain ⟨-, url, hurl⟩ | ⟨hrefused, -⟩ := Url.parse_cases text.toList
  · refine ⟨url, hurl, ?_⟩
    by_cases habsolute : (a.belowMount url.path).head? = some '/'
    · rw [ofPath_of_parse hresolver h.unhidden hurl habsolute]
      obtain ⟨m, hm⟩ | ⟨hnone, hroutes⟩ := Route.Table.resolve_cases (h.routes url hurl)
      · have hresolve : (Resolver.table table).resolve (a.belowMount url.path) = .ok m := hm
        rw [hresolve]
        dsimp only [Except.bind]
        split
        · rename_i hempty
          simp only [Bool.or_eq_true, beq_iff_eq] at hempty
          exact .incomplete m habsolute hm hempty
        · rename_i hcomplete
          simp only [Bool.or_eq_true, beq_iff_eq, not_or] at hcomplete
          exact .request m habsolute hm hcomplete.1 hcomplete.2
      · have hfails : (Resolver.table table).resolve (a.belowMount url.path) = _ := hnone
        rw [hfails]
        exact .noRoute habsolute hroutes
    · -- A path without a slash at its beginning is ambiguous before any route is tried.
      have hrelative : ((a.belowMount url.path).head? != some '/') = true := bne_iff_ne.2 habsolute
      unfold ofPath
      simp only [hresolver, h.unhidden, hurl, hrelative]
      exact .notAbsolute habsolute
  · exact absurd h.authority hrefused

/-- A path target that its routes give an answer about describes a request with a resource and an action or is
ambiguous, whatever it is and wherever the application is mounted. Without routes it is misconfigured. -/
theorem normalize_path {target : Value} {text : String} (htext : target.text? = some text) :
    (∀ mount, (make none mount).normalize target = .error (.misconfigured .noResolver)) ∧
    ∀ table mount, (make (some (.table table)) mount).Answers table target text →
      ∃ url, Url.parse text.toList = .ok url ∧ (make (some (.table table)) mount).Describes table target url
        ((make (some (.table table)) mount).normalize target) := by
  constructor
  · intro mount
    rw [normalize_of_text? htext]
    rfl
  · intro table mount hanswers
    rw [normalize_of_text? htext]
    exact ofPath_of_answers rfl hanswers

/-- The standard routes, and one for editing a product. -/
def productTable : Route.Table where
  custom := [⟨"/products/".toList.map .literal ++ [.parameter "product_id" .integer] ++ "/edit".toList.map .literal,
    [("resource", .text "products"), ("action", .text "edit")]⟩]
  routes := Route.Table.standard.routes

theorem namesHaveText_productTable :
    ∀ route ∈ productTable.custom ++ productTable.routes, Route.NamesHaveText route.defaults := by
  intro route hroute p hp _
  simp only [productTable, Route.Table.standard, List.cons_append, List.nil_append, List.mem_cons,
    List.not_mem_nil, or_false] at hroute
  rcases hroute with rfl | rfl | rfl | rfl
  · simp only [List.mem_cons, List.not_mem_nil, or_false] at hp
    rcases hp with rfl | rfl <;> exact Value.hasText_text _
  · cases hp
  · cases hp
  · cases List.mem_singleton.1 hp
    exact Value.hasText_text _

/-- These routes below a mount path. -/
def productAdapter : Adapter := make (some (.table productTable)) "/shop"

/-- A link to such a page, with a query. -/
def productLink : String := "http://shop.example/shop/products/12/edit?user_id=3"

theorem normalize_path_productTable :
    productAdapter.Answers productTable (.text productLink) productLink ∧
    (∃ url, Url.parse productLink.toList = .ok url ∧
      productAdapter.Describes productTable (.text productLink) url (productAdapter.normalize (.text productLink))) ∧
    (productAdapter.normalize (.text productLink)).map (fun r => r.ids) =
      .ok [("product_id", .int 12), ("user_id", .text "3")] := by
  have hauthority : Url.authorityOf productLink.toList = "shop.example".toList := by decide +kernel
  have hanswers : productAdapter.Answers productTable (.text productLink) productLink := by
    refine ⟨rfl, ?_, fun url hurl route hroute => ?_⟩
    · have hascii : ("shop.example".toList.all fun c => c.toNat < 0x80) = true := by decide +kernel
      rw [hauthority]
      exact Url.isAuthority_of_ascii (by decide) (by decide) fun c hc => by simpa using List.all_eq_true.1 hascii c hc
    · have hparse : Url.parse productLink.toList = .ok ⟨"http".toList, "shop.example".toList,
          "/shop/products/12/edit".toList, "user_id=3".toList, []⟩ := by with_unfolding_all rfl
      cases hparse.symm.trans hurl
      exact Route.Entry.answers_of_length (by decide +kernel) (namesHaveText_productTable route hroute)
  exact ⟨hanswers, (normalize_path rfl).2 productTable "/shop" hanswers, by with_unfolding_all rfl⟩

/-- Behind two slashes a bracket begins an address, and nothing closes it. -/
theorem normalize_openBracket :
    (make (some (.table .standard)) "").normalize (.text "//[") =
      .error (.badValue (.url .unbalancedBrackets)) := by
  with_unfolding_all rfl

end Adapter

end Gatehouse
