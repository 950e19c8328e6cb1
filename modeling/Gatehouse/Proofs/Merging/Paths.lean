import Gatehouse.Proofs.Merging.Keys
import Gatehouse.Proofs.Routing.Outcomes

/-!
# Paths — the ids that a path and its query come to

A path that has a route gives the user, the resource, the action and the ids of its parameters; a query behind it
is written by whoever follows the link. Whatever stands in it, and however much, it can only add ids under keys
that the path has none for.
-/

namespace Gatehouse

/-! ## 1. References with a query behind them -/

namespace Url

open Text

theorem cut_append_of_some {sep : Char} {front before rest : List Char} (h : cut sep front = (before, some rest))
    (more : List Char) : cut sep (front ++ more) = (before, some (rest ++ more)) := by
  induction front generalizing before with
  | nil => cases h
  | cons c front ih =>
    rw [List.cons_append, cut]
    rw [cut] at h
    by_cases hc : c = sep
    · rw [if_pos hc] at h ⊢
      cases h
      rfl
    · rw [if_neg hc] at h ⊢
      obtain ⟨hbefore, hrest⟩ := Prod.mk.inj h
      rw [ih (Prod.ext rfl hrest), ← hbefore]

theorem not_mem_of_cut_none {sep : Char} {cs before : List Char} (h : cut sep cs = (before, none)) : sep ∉ cs := by
  induction cs generalizing before with
  | nil => exact List.not_mem_nil
  | cons c cs ih =>
    rw [cut] at h
    by_cases hc : c = sep
    · rw [if_pos hc] at h
      cases h
    · rw [if_neg hc] at h
      have hrest := ih (Prod.ext rfl (Prod.mk.inj h).2)
      rw [List.mem_cons, not_or]
      exact ⟨Ne.symm hc, hrest⟩

/-- A scheme holds no question mark, so that one behind a reference is left to what follows the scheme. -/
theorem splitScheme_append (front query : List Char) :
    splitScheme (front ++ '?' :: query) = ((splitScheme front).1, (splitScheme front).2 ++ '?' :: query) := by
  cases hcut : cut ':' front with
  | mk before after =>
    cases after with
    | some rest =>
      have hlong := cut_append_of_some hcut ('?' :: query)
      unfold splitScheme
      rw [hcut, hlong]
      dsimp only
      split
      · rfl
      · rfl
    | none =>
      have hlong := cut_append_of_not_mem (not_mem_of_cut_none hcut) ('?' :: query)
      have hshort : splitScheme front = ([], front) := by
        unfold splitScheme
        rw [hcut]
      -- A colon of the query would make the question mark a part of the scheme.
      have hscheme : (front ++ (cut ':' ('?' :: query)).1).all isSchemeChar = false := by
        rw [cut, if_neg (by decide), List.all_append, List.all_cons, show isSchemeChar '?' = false by decide,
          Bool.false_and, Bool.and_false]
      rw [hshort]
      unfold splitScheme
      rw [hlong]
      cases (cut ':' ('?' :: query)).2 with
      | none => rfl
      | some rest =>
        dsimp only
        rw [hscheme, Bool.and_false]
        rfl

theorem takeWhile_append_of_neg (p : Char → Bool) {c : Char} (hc : p c = false) (front more : List Char) :
    (front ++ c :: more).takeWhile p = front.takeWhile p ∧
      (front ++ c :: more).dropWhile p = front.dropWhile p ++ c :: more := by
  induction front with
  | nil => simp [hc]
  | cons d front ih =>
    cases hd : p d with
    | true => simpa [hd] using ih
    | false => simp [hd]

theorem splitAuthority_of_no_slashes {cs : List Char} (h : ∀ rest, cs ≠ '/' :: '/' :: rest) :
    splitAuthority cs = ([], cs) := by
  unfold splitAuthority
  split
  · exact absurd rfl (h _)
  · rfl

/-- An authority ends at a question mark at the latest. -/
theorem splitAuthority_append_query (front query : List Char) :
    splitAuthority (front ++ '?' :: query) =
      ((splitAuthority front).1, (splitAuthority front).2 ++ '?' :: query) := by
  by_cases hslashes : ∃ rest, front = '/' :: '/' :: rest
  · obtain ⟨rest, rfl⟩ := hslashes
    have hends : (!endsAuthority '?') = false := by decide
    obtain ⟨htake, hdrop⟩ := takeWhile_append_of_neg (!endsAuthority ·) hends rest query
    exact Prod.ext htake hdrop
  · have hshort : ∀ rest, front ≠ '/' :: '/' :: rest := not_exists.1 hslashes
    have hlong : ∀ rest, front ++ '?' :: query ≠ '/' :: '/' :: rest := by
      intro rest heq
      match front with
      | [] => cases heq
      | [c] => cases heq
      | c :: d :: front =>
        cases heq
        exact hshort front rfl
    rw [splitAuthority_of_no_slashes hshort, splitAuthority_of_no_slashes hlong]

/-- What is read of a query behind a path: all before a fragment, without what is dropped from a URL. -/
def queryBehind (query : List Char) : List Char := (cut '#' (query.filter (!isRemoved ·))).1

/-- What is left of a reference to take apart. -/
def kept (text : List Char) : List Char := (text.dropWhile isLeadingJunk).filter (!isRemoved ·)

theorem kept_append_query (front query : List Char) :
    kept (front ++ '?' :: query) = kept front ++ '?' :: query.filter (!isRemoved ·) := by
  have hjunk : isLeadingJunk '?' = false := by decide
  unfold kept
  rw [(takeWhile_append_of_neg _ hjunk front query).2, List.filter_append, List.filter_cons_of_pos (by decide)]

theorem parse_eq (text : List Char) : parse text =
    let place := splitAuthority (splitScheme (kept text)).2
    let body := cut '#' place.2
    let line := cut '?' body.1
    (do
      checkBrackets place.1
      checkDelimiters place.1
      return ⟨(splitScheme (kept text)).1, place.1, line.1, line.2.getD [], body.2.getD []⟩) := rfl

/-- A reference without a query, with one put behind it: all that stood in it is read as before. -/
theorem parse_append_query {front : List Char} {url : Url} (hmark : '?' ∉ front) (hhash : '#' ∉ front)
    (h : parse front = .ok url) (query : List Char) :
    ∃ fragment, parse (front ++ '?' :: query) = .ok { url with query := queryBehind query, fragment } := by
  have hin : ∀ c ∈ (splitAuthority (splitScheme (kept front)).2).2, c ∈ front := by
    intro c hc
    have hkept := mem_of_mem_splitScheme (mem_of_mem_splitAuthority hc)
    exact (List.dropWhile_sublist _).subset (List.mem_filter.1 hkept).1
  rw [parse_eq] at h ⊢
  rw [kept_append_query, splitScheme_append, splitAuthority_append_query]
  generalize splitAuthority (splitScheme (kept front)).2 = place at h hin ⊢
  obtain ⟨authority, path⟩ := place
  have hmark' : '?' ∉ path := fun hmem => hmark (hin '?' hmem)
  have hhash' : '#' ∉ path := fun hmem => hhash (hin '#' hmem)
  dsimp only at h ⊢
  rw [cut_of_not_mem hhash'] at h
  dsimp only at h
  rw [cut_of_not_mem hmark'] at h
  obtain ⟨_, hbrackets, h⟩ := bind_eq_ok_iff.1 h
  obtain ⟨_, hdelimiters, h⟩ := bind_eq_ok_iff.1 h
  cases h
  rw [bind_of_eq_ok hbrackets, bind_of_eq_ok hdelimiters, cut_append_of_not_mem hhash', cut, if_neg (by decide)]
  dsimp only
  rw [cut_append hmark']
  exact ⟨_, rfl⟩

end Url

/-! ## 2. Ids of a path and of a query -/

namespace Adapter

/-- The ids that the parameters of a route and the fields of a query come to. There is one for each of their names
of ids; it is what the route has, as it is, and only where the route has nothing the first value in the query. -/
structure Collects (params : List (String × Value)) (fields : List (String × String)) (ids : Ids) : Prop where
  isMap : ids.IsMap
  keys : ∀ key, key ∈ ids.map Prod.fst ↔
    Ids.NamesId key ∧ (key ∈ params.map Prod.fst ∨ key ∈ fields.map Prod.fst)
  ofPath : ∀ key v, Ids.NamesId key → Field.given? params key = some v → ids.get? key = some v
  ofQuery : ∀ key, Ids.NamesId key → key ∉ params.map Prod.fst →
    ids.get? key = (fields.find? fun e => e.1 == key).map fun e => .text e.2

theorem isMap_routeIds (params : List (String × Value)) : (routeIds params).IsMap := by
  have hnone : Ids.IsMap [] := List.nodup_nil
  unfold routeIds
  apply Ids.isMap_foldl _ _ hnone
  intro ids e h
  dsimp only
  split
  · exact Ids.isMap_put h e.1 e.2
  · exact h

theorem isMap_addQueryIds {ids : Ids} (h : ids.IsMap) (fields : List (String × String)) :
    (addQueryIds ids fields).IsMap := by
  unfold addQueryIds
  apply Ids.isMap_foldl _ _ h
  intro ids e h
  dsimp only
  split
  · exact Ids.isMap_putNew h e.1 (.text e.2)
  · exact h

theorem get?_collected (params : List (String × Value)) (fields : List (String × String)) (key : String) :
    (addQueryIds (routeIds params) fields).get? key = if Ids.isIdName key then
      (Field.given? params key).or ((fields.find? fun e => e.1 == key).map fun e => .text e.2) else none := by
  rw [get?_addQueryIds, get?_routeIds, Option.map_map]
  split
  · rfl
  · rfl

theorem collects (params : List (String × Value)) (fields : List (String × String)) :
    Collects params fields (addQueryIds (routeIds params) fields) := by
  have hget := get?_collected params fields
  refine ⟨isMap_addQueryIds (isMap_routeIds params) fields, fun key => ?_, fun key v hname hgiven => ?_,
    fun key hname hnew => ?_⟩
  · have hfields : ((fields.find? fun e => e.1 == key).map fun e => Value.text e.2).isSome = true ↔
        key ∈ fields.map Prod.fst := by
      simp [List.find?_isSome]
    rw [Ids.mem_keys_iff, hget, ← Ids.isIdName_iff, ← hfields, ← Field.given?_isSome_iff]
    cases Ids.isIdName key with
    | false => simp
    | true => rw [if_pos rfl, Option.isSome_or, Bool.or_eq_true]; simp
  · rw [hget, if_pos (Ids.isIdName_iff.2 hname), hgiven]
    rfl
  · rw [hget, if_pos (Ids.isIdName_iff.2 hname), Field.given?_of_not_mem hnew]
    rfl

/-! ## 3. Paths with a route -/

theorem normalize_of_resolves {a : Adapter} {target : Value} {text : String} {url : Url} {route : Route.Match}
    (htext : target.text? = some text) (h : a.Resolves target text url route) :
    a.normalize target = .ok ⟨.null, .text route.resource, .text route.action,
      addQueryIds (routeIds route.params) (Url.queryPairs false url.query)⟩ := by
  obtain ⟨resolver, hresolver, hroute⟩ := h.resolved
  have hnamed : (route.resource == "" || route.action == "") = false := by
    rw [Bool.or_eq_false_iff, beq_eq_false_iff_ne, beq_eq_false_iff_ne]
    exact h.named
  rw [normalize_of_text? htext, ofPath_of_parse hresolver h.unhidden h.parsed h.absolute, hroute]
  dsimp only [Except.bind]
  rw [if_neg (by rw [hnamed]; decide)]

/-- A path with a route has the same route with any query behind it. -/
theorem resolves_append_query {a : Adapter} {target : Value} {text : String} {url : Url} {route : Route.Match}
    (h : a.Resolves target text url route) (hmark : '?' ∉ text.toList) (hhash : '#' ∉ text.toList) (query : String) :
    ∃ whole, a.Resolves (.text (text ++ "?" ++ query)) (text ++ "?" ++ query) whole route ∧
      whole.query = Url.queryBehind query.toList := by
  have hlist : (text ++ "?" ++ query).toList = text.toList ++ '?' :: query.toList := by
    rw [String.toList_append, String.toList_append, List.append_assoc]
    rfl
  obtain ⟨fragment, hparse⟩ := Url.parse_append_query hmark hhash h.parsed query.toList
  rw [← hlist] at hparse
  exact ⟨_, ⟨rfl, hparse, h.absolute, h.resolved, h.named⟩, rfl⟩

/-- Paths describe requests where they have a route, and then the route alone says what is asked for: no user, its
resource and its action. The ids are those of its parameters, with those of the query behind them; and whatever query
is put behind a path, it leaves all of this as it is. -/
theorem normalize_collects (a : Adapter) {target : Value} {text : String} (htext : target.text? = some text) :
    ((∃ request, a.normalize target = .ok request) ↔ ∃ url route, a.Resolves target text url route) ∧
    ∀ url route, a.Resolves target text url route →
      (∃ ids, a.normalize target = .ok ⟨.null, .text route.resource, .text route.action, ids⟩ ∧
        Collects route.params (Url.queryPairs false url.query) ids) ∧
      ('?' ∉ text.toList → '#' ∉ text.toList → ∀ query : String, ∃ ids,
        a.normalize (.text (text ++ "?" ++ query)) =
          .ok ⟨.null, .text route.resource, .text route.action, ids⟩ ∧
        Collects route.params (Url.queryPairs false (Url.queryBehind query.toList)) ids) := by
  refine ⟨⟨?_, ?_⟩, fun url route h => ⟨?_, fun hmark hhash query => ?_⟩⟩
  · rintro ⟨request, hrequest⟩
    obtain ⟨url, route, h, -⟩ := exists_resolves htext hrequest
    exact ⟨url, route, h⟩
  · rintro ⟨url, route, h⟩
    exact ⟨_, normalize_of_resolves htext h⟩
  · exact ⟨_, normalize_of_resolves htext h, collects _ _⟩
  · obtain ⟨whole, hwhole, hquery⟩ := resolves_append_query h hmark hhash query
    refine ⟨_, normalize_of_resolves rfl hwhole, ?_⟩
    rw [hquery]
    exact collects _ _

/-- The page of a product below the mount path. -/
def productPage : String := "/shop/products/12/edit"

example : (productAdapter.normalize (.text (productPage ++ "?user_id=&product_id=7&user_id=3&user_id=4&page=2"))).map
    Request.ids = .ok [("product_id", .int 12), ("user_id", .text "3")] := by
  with_unfolding_all rfl

theorem normalize_collects_productPage :
    let route : Route.Match := ⟨"products", "edit", [("product_id", .int 12)]⟩
    (Value.text productPage).text? = some productPage ∧
    productAdapter.Resolves (.text productPage) productPage ⟨[], [], productPage.toList, [], []⟩ route ∧
    ∀ query : String, ∃ ids,
      productAdapter.normalize (.text (productPage ++ "?" ++ query)) = .ok ⟨.null, .text "products", .text "edit", ids⟩ ∧
      Collects route.params (Url.queryPairs false (Url.queryBehind query.toList)) ids ∧
      ids.get? "product_id" = some (.int 12) := by
  intro route
  have hresolves : productAdapter.Resolves (.text productPage) productPage
      ⟨[], [], productPage.toList, [], []⟩ route := by
    refine ⟨rfl, by with_unfolding_all rfl, by with_unfolding_all rfl, ⟨_, rfl, ?_⟩, by decide, by decide⟩
    with_unfolding_all rfl
  refine ⟨rfl, hresolves, fun query => ?_⟩
  obtain ⟨-, hqueries⟩ := (normalize_collects productAdapter rfl).2 _ _ hresolves
  obtain ⟨ids, hrequest, hids⟩ := hqueries (by decide) (by decide) query
  exact ⟨ids, hrequest, hids, hids.ofPath "product_id" (.int 12) (.inr ⟨"product", rfl⟩) rfl⟩

end Adapter

end Gatehouse
