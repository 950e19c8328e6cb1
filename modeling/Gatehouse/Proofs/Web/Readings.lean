import Gatehouse.Proofs.Web.Checks
import Gatehouse.Proofs.Web.Segments

/-!
# Readings — a link and the request that follows it

The URL of a link is resolved below the mount path by the routes of an engine; the request that follows
it is read by segments and parameters. Both put parameters of the path over those of the query. Where
routes begin with the resource and the mount path hides no other one, both name the same resource; and they
have the same id under every key for which it does not matter whether the first value that is not blank
counts or the last one of all.
-/

namespace Gatehouse

/-! ## 1. Paths with queries -/

namespace Url

open Text

/-- A path that begins with one slash. -/
def IsAbsolute (path : List Char) : Prop := ∃ rest, path = '/' :: rest ∧ rest.head? ≠ some '/'

/-- What neither begins a fragment nor is dropped from a URL. -/
def IsPlain (cs : List Char) : Prop := ∀ c ∈ cs, c ≠ '#' ∧ isRemoved c = false

/-- A query as it stands in a URL: ASCII characters. -/
def IsQuery (cs : List Char) : Prop := IsPlain cs ∧ ∀ c ∈ cs, c.toNat < 0x80

-- The characters that are there are looked at, not all that there could be.
instance (cs : List Char) : Decidable (IsPlain cs) :=
  List.decidableBAll (fun c => c ≠ '#' ∧ isRemoved c = false) cs

instance (cs : List Char) : Decidable (IsQuery cs) :=
  have : Decidable (∀ c ∈ cs, c.toNat < 0x80) := List.decidableBAll (fun c => c.toNat < 0x80) cs
  inferInstanceAs (Decidable (IsPlain cs ∧ ∀ c ∈ cs, c.toNat < 0x80))

/-- What stands in front of a text without the separator stays in front of what comes before it. -/
theorem cut_append_of_not_mem {sep : Char} {front : List Char} (h : sep ∉ front) (cs : List Char) :
    cut sep (front ++ cs) = (front ++ (cut sep cs).1, (cut sep cs).2) := by
  induction front with
  | nil => rfl
  | cons c front ih =>
    rw [List.mem_cons, not_or] at h
    rw [List.cons_append, cut, if_neg (Ne.symm h.1), ih h.2]
    rfl

theorem cut_append {sep : Char} {front : List Char} (h : sep ∉ front) (more : List Char) :
    cut sep (front ++ sep :: more) = (front, some more) := by
  rw [cut_append_of_not_mem h, cut, if_pos rfl, List.append_nil]

theorem mem_of_mem_cut {sep c : Char} {cs rest : List Char} (h : (cut sep cs).2 = some rest) (hc : c ∈ rest) :
    c ∈ cs := by
  induction cs with
  | nil => cases h
  | cons d cs ih =>
    rw [cut] at h
    split at h
    · cases h
      exact List.mem_cons_of_mem _ hc
    · exact List.mem_cons_of_mem _ (ih h)

theorem not_mem_cut_fst (sep : Char) (cs : List Char) : sep ∉ (cut sep cs).1 := by
  rw [cut_fst]
  intro hmem
  have hne := List.all_eq_true.1 List.all_takeWhile sep hmem
  simp at hne

theorem mem_of_mem_cut_fst {sep c : Char} {cs : List Char} (h : c ∈ (cut sep cs).1) : c ∈ cs := by
  rw [cut_fst] at h
  exact (List.takeWhile_sublist _).subset h

theorem mem_of_mem_splitScheme {c : Char} {cs : List Char} (h : c ∈ (splitScheme cs).2) : c ∈ cs := by
  unfold splitScheme at h
  split at h
  · rename_i scheme rest hcut
    split at h
    · exact mem_of_mem_cut (by rw [hcut]) h
    · exact h
  · exact h

theorem mem_of_mem_splitAuthority {c : Char} {cs : List Char} (h : c ∈ (splitAuthority cs).2) : c ∈ cs := by
  unfold splitAuthority at h
  split at h
  · rename_i rest
    have hrest : c ∈ rest := (List.dropWhile_sublist _).subset h
    exact List.mem_cons_of_mem _ (List.mem_cons_of_mem _ hrest)
  · exact h

theorem path_of_parse_eq_ok {text : List Char} {url : Url} (h : parse text = .ok url) :
    ∃ cs, (∀ c ∈ cs, isRemoved c = false) ∧
      url.path = (cut '?' (cut '#' (splitAuthority (splitScheme cs).2).2).1).1 := by
  unfold parse at h
  dsimp only at h
  obtain ⟨_, -, h⟩ := bind_eq_ok_iff.1 h
  obtain ⟨_, -, h⟩ := bind_eq_ok_iff.1 h
  cases h
  refine ⟨(text.dropWhile isLeadingJunk).filter (!isRemoved ·), ?_, rfl⟩
  intro c hc
  simpa using (List.mem_filter.1 hc).2

/-- The path of a URL holds nothing that would end it or be dropped. -/
theorem path_of_parse_isPlain {text : List Char} {url : Url} (h : parse text = .ok url) :
    IsPlain url.path ∧ '?' ∉ url.path := by
  obtain ⟨cs, hkept, hpath⟩ := path_of_parse_eq_ok h
  rw [hpath]
  refine ⟨?_, not_mem_cut_fst '?' _⟩
  intro c hc
  have hbefore := mem_of_mem_cut_fst hc
  constructor
  · rintro rfl
    exact not_mem_cut_fst '#' _ hbefore
  · apply hkept c
    exact mem_of_mem_splitScheme (mem_of_mem_splitAuthority (mem_of_mem_cut_fst hbefore))

theorem parse_path_query {path query : List Char} (habsolute : IsAbsolute path) (hpath : IsPlain path)
    (hmark : '?' ∉ path) (hquery : IsPlain query) :
    parse (path ++ '?' :: query) = .ok ⟨[], [], path, query, []⟩ := by
  obtain ⟨rest, rfl, hrest⟩ := habsolute
  have hplain : IsPlain ('/' :: rest ++ '?' :: query) := by
    intro c hc
    rcases List.mem_append.1 hc with hc | hc
    · exact hpath c hc
    · rcases List.mem_cons.1 hc with rfl | hc
      · decide
      · exact hquery c hc
  have hslash : (rest ++ '?' :: query).head? ≠ some '/' := by
    cases rest with
    | nil => simp
    | cons c rest => exact hrest
  have hparse := parse_slash hslash fun c hc => (hplain c (List.mem_cons_of_mem _ hc)).2
  have hfragment : '#' ∉ '/' :: (rest ++ '?' :: query) := fun hmem => (hplain '#' hmem).1 rfl
  have hcut : cut '?' ('/' :: (rest ++ '?' :: query)) = ('/' :: rest, some query) :=
    cut_append hmark query
  rw [cut_of_not_mem hfragment] at hparse
  dsimp only at hparse
  rw [hcut] at hparse
  exact hparse

/-! ## 2. Values of a query -/

/-- The last value under a key, blank or not. -/
def lastValue? (query : List Char) (key : String) : Option String :=
  ((queryPairs true query).reverse.find? fun field => field.1 == key).map Prod.snd

/-- The first value under a key that is not blank. -/
def firstValue? (query : List Char) (key : String) : Option String :=
  ((queryPairs false query).find? fun field => field.1 == key).map Prod.snd

/-- Whichever of the two is asked for: the value under a key is the same. -/
def IsUnambiguous (query : List Char) (key : String) : Prop := lastValue? query key = firstValue? query key

/-- A query without blank values and without repeated keys is never ambiguous. -/
theorem isUnambiguous_of_nodup {query : List Char} (hblank : queryPairs false query = queryPairs true query)
    (hnodup : ((queryPairs true query).map Prod.fst).Nodup) (key : String) : IsUnambiguous query key := by
  unfold IsUnambiguous lastValue? firstValue?
  rw [hblank, Field.find?_reverse_of_nodup hnodup]

end Url

namespace Ids

theorem given?_of_isMap {ids : Ids} (h : ids.IsMap) (key : String) : Field.given? ids key = ids.get? key := by
  unfold Field.given? get?
  rw [Field.find?_reverse_of_nodup h]

theorem isMap_foldl_put (pairs : List (String × Value)) {ids : Ids} (h : ids.IsMap) :
    (pairs.foldl (fun ids e => ids.put e.1 e.2) ids).IsMap := by
  induction pairs generalizing ids with
  | nil => exact h
  | cons e rest ih => exact ih (isMap_put h e.1 e.2)

theorem paramOf_map_text (pairs : List (String × Value)) (key : String) :
    paramOf (pairs.map fun e => (.text e.1, e.2)) key = Field.given? pairs key := by
  unfold paramOf Field.given?
  rw [← List.map_reverse, List.find?_map, Option.map_map]
  rfl

theorem get?_append (front back : Ids) (key : String) :
    get? (front ++ back) key = (get? front key).or (get? back key) := by
  unfold get?
  rw [List.find?_append, Option.map_or]

theorem has_eq_isSome (ids : Ids) (key : String) : ids.has key = (ids.get? key).isSome := by
  unfold has get?
  rw [Option.isSome_map, Bool.eq_iff_iff, List.any_eq_true, List.find?_isSome]

theorem get?_putNew (ids : Ids) (key : String) (value : Value) (other : String) :
    (ids.putNew key value).get? other =
      (ids.get? other).or (if key = other then some value else none) := by
  have hone : get? [(key, value)] other = if key = other then some value else none := by
    by_cases h : key = other <;> simp [get?, h]
  unfold putNew
  rw [has_eq_isSome]
  cases hget : ids.get? key with
  | none => exact (get?_append ids [(key, value)] other).trans (congrArg _ hone)
  | some old =>
    -- The key has an id already, so there is one if the other key is the same.
    by_cases h : key = other
    · rw [← h, hget]
      exact hget
    · rw [if_neg h, Option.or_none]
      rfl

end Ids

namespace Field

theorem given?_append (front back : List (String × Value)) (name : String) :
    given? (front ++ back) name = (given? back name).or (given? front name) := by
  unfold given?
  rw [List.reverse_append, List.find?_append, Option.map_or]

theorem isMap_ofPairs (pairs : List (String × Value)) : Ids.IsMap (ofPairs pairs) := by
  unfold ofPairs
  simp only [put_eq]
  exact Ids.isMap_foldl_put pairs List.nodup_nil

/-- Fields that stand once each are given as before. -/
theorem given?_ofPairs (pairs : List (String × Value)) (name : String) :
    given? (ofPairs pairs) name = given? pairs name := by
  have hput : ofPairs pairs = pairs.foldl (fun ids e => Ids.put ids e.1 e.2) [] := by
    unfold ofPairs
    simp only [put_eq]
  rw [Ids.given?_of_isMap (isMap_ofPairs pairs), hput, ← Ids.paramOf_map_text]
  have hfold := Ids.get?_foldl_put (pairs.map fun e => (.text e.1, e.2)) [] name
  rw [List.foldl_map, Ids.get?_nil, Option.or_none] at hfold
  exact hfold

/-- Of fields that stand once each it does not matter whether the first or the last one counts. -/
theorem get?_ofPairs (pairs : List (String × Value)) (name : String) :
    Ids.get? (ofPairs pairs) name = given? pairs name := by
  rw [← Ids.given?_of_isMap (isMap_ofPairs pairs), given?_ofPairs]

end Field

/-! ## 3. Ids of a link -/

namespace Adapter

theorem get?_routeIds (params : List (String × Value)) (key : String) :
    (routeIds params).get? key = if Ids.isIdName key then Field.given? params key else none := by
  have hgathered : routeIds params = Ids.gathered (params.map fun e => (.text e.1, e.2)) := by
    unfold routeIds Ids.gathered
    rw [List.foldl_filter, List.foldl_map]
    rfl
  rw [hgathered, Ids.get?_gathered, Ids.paramOf_map_text]

/-- The first value that a query has for a key counts, unless there is an id under it already. -/
theorem get?_addQueryIds (ids : Ids) (pairs : List (String × String)) (key : String) :
    (addQueryIds ids pairs).get? key = (ids.get? key).or
      (if Ids.isIdName key then
        ((pairs.find? fun e => e.1 == key).map Prod.snd).map Value.text else none) := by
  induction pairs generalizing ids with
  | nil => simp [addQueryIds]
  | cons e rest ih =>
    obtain ⟨k, v⟩ := e
    have hstep : addQueryIds ids ((k, v) :: rest) =
        addQueryIds (if Ids.isIdName k then ids.putNew k (.text v) else ids) rest := rfl
    rw [hstep, ih]
    by_cases hk : k = key
    · subst hk
      rw [List.find?_cons_of_pos (by simp)]
      split
      · rw [Ids.get?_putNew, if_pos rfl, Option.or_assoc]
        rfl
      · rfl
    · rw [List.find?_cons_of_neg (by simpa using hk)]
      split
      · rw [Ids.get?_putNew, if_neg hk, Option.or_none]
      · rfl

theorem mem_of_mem_belowMount {a : Adapter} {path : List Char} {c : Char} (h : c ∈ a.belowMount path) :
    c ∈ path ∨ c = '/' := by
  have hroot : ∀ below : List Char, (∀ d ∈ below, d ∈ path) →
      c ∈ (if below.isEmpty then ['/'] else below) → c ∈ path ∨ c = '/' := by
    intro below hbelow hc
    split at hc
    · exact .inr (List.mem_singleton.1 hc)
    · exact .inl (hbelow c hc)
  refine hroot _ ?_ h
  intro d hd
  split at hd
  · exact (List.drop_sublist _ _).subset hd
  · exact hd

theorem normalize_of_text? {a : Adapter} {target : Value} {text : String} (h : target.text? = some text) :
    a.normalize target = a.ofPath target text := by
  cases target with
  | text s => cases h; rfl
  | action s => cases h; rfl
  | textMember _ _ s => cases h; rfl
  | all => cases h; rfl
  | _ => cases h

/-- A target with a route: its text is a URL whose path, below the mount path, is taken to a resource and an action. -/
structure Resolves (a : Adapter) (target : Value) (text : String) (url : Url) (route : Route.Match) : Prop where
  unhidden : target.isNamed "lstrip" = false
  parsed : Url.parse text.toList = .ok url
  absolute : (a.belowMount url.path).head? = some '/'
  resolved : ∃ resolver, a.resolver = some resolver ∧ resolver.resolve (a.belowMount url.path) = .ok route
  named : route.resource ≠ "" ∧ route.action ≠ ""

/-- Only a target with a route describes a request. -/
theorem exists_resolves {a : Adapter} {target : Value} {text : String} {request : Request}
    (htext : target.text? = some text) (h : a.normalize target = .ok request) :
    ∃ url route, a.Resolves target text url route ∧
      request = ⟨.null, .text route.resource, .text route.action,
        addQueryIds (routeIds route.params) (Url.queryPairs false url.query)⟩ := by
  rw [normalize_of_text? htext] at h
  unfold ofPath at h
  split at h
  · cases h
  · rename_i resolver hresolver
    cases hhidden : target.isNamed "lstrip" with
    | true =>
      rw [hhidden, if_pos rfl] at h
      cases h
    | false =>
      rw [hhidden, if_neg Bool.false_ne_true] at h
      split at h
      · cases h
      · rename_i url hurl
        dsimp only at h
        split at h
        · cases h
        · rename_i habsolute
          obtain ⟨route, hroute, h⟩ := bind_eq_ok_iff.1 h
          split at h
          · cases h
          · rename_i hnamed
            simp only [Bool.or_eq_true, beq_iff_eq, not_or] at hnamed
            simp only [bne_iff_ne, ne_eq, not_not] at habsolute
            cases h
            exact ⟨url, route, ⟨hhidden, hurl, habsolute, ⟨resolver, hresolver, hroute⟩, hnamed⟩, rfl⟩

/-- What a link is resolved to: the route of its path below the mount path, and the ids of both parts. -/
theorem normalize_link {table : Route.Table} {mount : String} {path : List Char} {query : String}
    {route : Route.Match} {request : Request} (habsolute : Url.IsAbsolute path) (hpath : Url.IsPlain path)
    (hmark : '?' ∉ path) (hquery : Url.IsPlain query.toList)
    (hroute : table.resolve ((make (some (.table table)) mount).belowMount path) = .ok route)
    (h : (make (some (.table table)) mount).normalize (.text (String.ofList path ++ "?" ++ query)) =
      .ok request) :
    request.resource = .text route.resource ∧
      request.ids = addQueryIds (routeIds route.params) (Url.queryPairs false query.toList) := by
  have htext : (String.ofList path ++ "?" ++ query).toList = path ++ '?' :: query.toList := by
    rw [String.toList_append, String.toList_append, String.toList_ofList, List.append_assoc]
    rfl
  obtain ⟨url, found, hresolves, rfl⟩ := exists_resolves rfl h
  obtain ⟨resolver, hresolver, hfound⟩ := hresolves.resolved
  cases hresolver
  have hurl := hresolves.parsed
  rw [htext, Url.parse_path_query habsolute hpath hmark hquery] at hurl
  cases hurl
  have hsame : Except.ok found = .ok route := hfound.symm.trans hroute
  cases hsame
  exact ⟨rfl, rfl⟩

end Adapter

theorem Engine.resource_of_complete {request : Request} {host : Option Host} {check : Check} {name : String}
    (h : complete request host = .ok check) (hresource : request.resource = .text name) :
    Name.resource (.text name) = .ok check.resource := by
  rw [complete_eq, hresource] at h
  obtain ⟨user, -, h⟩ := bind_eq_ok_iff.1 h
  obtain ⟨resource, hfor, h⟩ := bind_eq_ok_iff.1 h
  have hgiven : resource = .text name := (Except.ok.inj hfor).symm
  subst hgiven
  dsimp only at h
  split at h
  · cases h
  · obtain ⟨resource, hname, h⟩ := bind_eq_ok_iff.1 h
    obtain ⟨action, -, h⟩ := bind_eq_ok_iff.1 h
    cases h
    exact hname

/-! ## 4. Ids of a request -/

namespace Web.Request

theorem wireQuery_of_ascii {r : Request} (h : ∀ c ∈ r.query.toList, c.toNat < 0x80) :
    r.wireQuery = r.query.toList := by
  unfold wireQuery
  generalize r.query.toList = cs at h
  induction cs with
  | nil => rfl
  | cons c rest ih =>
    have hc : c.toNat < 0x80 := h c List.mem_cons_self
    have hbytes : String.utf8EncodeChar c = [UInt8.ofNat c.toNat] := if_pos (Nat.le_of_lt_succ hc)
    have hback : (UInt8.ofNat c.toNat).toNat = c.toNat := by
      rw [UInt8.toNat_ofNat']
      omega
    rw [List.flatMap_cons, hbytes, List.singleton_append, List.map_cons, hback, Char.ofNat_toNat,
      ih fun d hd => h d (List.mem_cons_of_mem c hd)]

theorem given?_params (r : Request) (name : String) : Field.given? r.params name =
    (Field.given? r.pathParams name).or ((Url.lastValue? r.wireQuery name).map Value.text) := by
  unfold params
  rw [Field.given?_ofPairs, Field.given?_append]
  congr 1
  unfold Field.given? Url.lastValue?
  rw [← List.map_reverse, List.find?_map, Option.map_map, Option.map_map]
  rfl

theorem get?_gathered_entries (r : Request) (key : String) :
    (Ids.gathered r.entries).get? key = if Ids.isIdName key then
      (Field.given? r.pathParams key).or ((Url.lastValue? r.wireQuery key).map Value.text) else none := by
  rw [Ids.get?_gathered, r.paramOf_entries, given?_params]

end Web.Request

/-! ## 5. Both readings -/

/-- The URL of a request, taken for a link, comes to a check on the resource that the request names, if the
route begins with it and the mount path hides no other segment; and the ids of the request are those of the check
under every key that is in the path, or for which the first value that is not blank is the last of all. -/
theorem Web.Request.agrees_with_link {e : Engine} {table : Route.Table} {mount : String} {r : Request} {url : Url}
    {route : Route.Match} {host : Option Host} {check : Check}
    (hadapter : e.adapter = Adapter.make (some (.table table)) mount) (hurl : r.url = .ok url)
    (hpath : Url.IsAbsolute url.path) (hquery : Url.IsQuery r.query.toList)
    (hroute : table.resolve (e.adapter.belowMount url.path) = .ok route)
    (hparams : r.pathParams = route.params)
    (hcheck : e.buildCheck (.text (String.ofList url.path ++ "?" ++ r.query)) host = .ok check) :
    ((∃ entry : Route.Entry, entry.BeginsWithResource ∧
        entry.resolve (Route.trimmed (e.adapter.belowMount url.path)) = .ok (some route)) →
      firstPart? (e.adapter.belowMount url.path) = firstPart? url.path →
      ∀ fallback, (r.resource .null fallback >>= Name.resource) = .ok check.resource) ∧
    ∃ ids, Ids.extract r.paramsValue = .ok ids ∧
      ∀ key, (Field.given? route.params key).isSome ∨ Url.IsUnambiguous r.query.toList key →
        ids.get? key = check.ids.get? key := by
  have hplain : Url.IsPlain url.path ∧ '?' ∉ url.path := by
    unfold Request.url at hurl
    dsimp only at hurl
    split at hurl
    · rename_i found hparse
      cases hurl
      exact Url.path_of_parse_isPlain hparse
    · cases hurl
  obtain ⟨request, hrequest, hcomplete⟩ := bind_eq_ok_iff.1 hcheck
  rw [hadapter] at hroute hrequest
  obtain ⟨hresource, hids⟩ :=
    Adapter.normalize_link hpath hplain.1 hplain.2 hquery.1 hroute hrequest
  constructor
  · rintro ⟨entry, hentry, hresolve⟩ hfirst fallback
    have hline : '\n' ∉ Route.trimmed (e.adapter.belowMount url.path) := by
      intro hmem
      rcases Adapter.mem_of_mem_belowMount (Route.mem_of_mem_trimmed hmem) with hmem | heq
      · have hremoved := (hplain.1 '\n' hmem).2
        revert hremoved
        decide
      · revert heq
        decide
    have hbegins : BeginsWith (e.adapter.belowMount url.path) route.resource.toList :=
      (hentry.beginsWith hresolve hline).of_trimmed
    have hpart : firstPart? url.path = some route.resource.toList := by
      rw [← hfirst]
      exact hbegins.firstPart?
    have hnamed : r.resource .null fallback = .ok (.text route.resource) := by
      unfold Request.resource
      rw [if_neg (by decide), bind_of_eq_ok hurl, hpart]
      dsimp only
      rw [String.ofList_toList]
      rfl
    rw [bind_of_eq_ok hnamed]
    exact Engine.resource_of_complete hcomplete hresource
  · refine ⟨Ids.gathered r.entries, Ids.extract_dict r.haveNames_entries, ?_⟩
    intro key hkey
    rw [Engine.ids_of_complete hcomplete, hids, get?_gathered_entries, Adapter.get?_addQueryIds,
      Adapter.get?_routeIds, hparams, wireQuery_of_ascii hquery.2]
    cases Ids.isIdName key with
    | false => rfl
    | true =>
      rw [if_pos rfl, if_pos rfl, if_pos rfl]
      cases hgiven : Field.given? route.params key with
      | some v => rfl
      | none =>
        have hsame : Url.IsUnambiguous r.query.toList key := hkey.resolve_left (by rw [hgiven]; decide)
        exact congrArg (Option.map Value.text) hsame

/-- An engine with the standard routes below a mount path. -/
def Engine.mountedAt (mount : String) : Engine :=
  { sample with adapter := Adapter.make (some (.table .standard)) mount }

def Web.Request.sampleFor (path query : String) (pathParams : List (String × Value)) : Web.Request where
  authority := "shop.example"
  path
  query
  pathParams
  user := .null

/-- Somebody follows a link to a product. -/
def followedLink : Web.Request := .sampleFor "/products/edit/7" "user_id=3&page=2" [("id", .text "7")]

theorem Web.Request.agrees_with_link_followedLink :
    ∃ (url : Url) (route : Route.Match) (check : Check), followedLink.url = .ok url ∧ Url.IsAbsolute url.path ∧
      Url.IsQuery followedLink.query.toList ∧
      Route.Table.standard.resolve ((Engine.mountedAt "/admin").adapter.belowMount url.path) = .ok route ∧
      followedLink.pathParams = route.params ∧
      (Engine.mountedAt "/admin").buildCheck (.text (String.ofList url.path ++ "?" ++ followedLink.query)) none =
        .ok check ∧
      (followedLink.resource .null (.text "application") >>= Name.resource) = .ok check.resource ∧
      ∃ ids, Ids.extract followedLink.paramsValue = .ok ids ∧ ∀ key, ids.get? key = check.ids.get? key := by
  let url : Url := ⟨"http".toList, "shop.example".toList, "/products/edit/7".toList, "user_id=3&page=2".toList, []⟩
  let route : Route.Match := ⟨"products", "edit", [("id", .text "7")]⟩
  let check : Check := ⟨.null, "products", "edit", [("id", .text "7"), ("user_id", .text "3")]⟩
  have hurl : followedLink.url = .ok url := by with_unfolding_all rfl
  have hpath : Url.IsAbsolute url.path := ⟨"products/edit/7".toList, by decide, by decide⟩
  have hquery : Url.IsQuery followedLink.query.toList := by decide +kernel
  have hroute : Route.Table.standard.resolve ((Engine.mountedAt "/admin").adapter.belowMount url.path) =
      .ok route := by with_unfolding_all rfl
  have htext : String.ofList url.path ++ "?" ++ followedLink.query = "/products/edit/7?user_id=3&page=2" := by
    decide
  have hcheck : (Engine.mountedAt "/admin").buildCheck
      (.text (String.ofList url.path ++ "?" ++ followedLink.query)) none = .ok check := by
    rw [htext]
    with_unfolding_all rfl
  refine ⟨url, route, check, hurl, hpath, hquery, hroute, rfl, hcheck, ?_, ?_⟩
  · apply (agrees_with_link rfl hurl hpath hquery hroute rfl hcheck).1
    · refine ⟨Route.Table.standard.routes[0], Route.beginsWithResource_standard _ List.mem_cons_self, ?_⟩
      with_unfolding_all rfl
    · with_unfolding_all rfl
  · obtain ⟨ids, hids, hagree⟩ := (agrees_with_link rfl hurl hpath hquery hroute rfl hcheck).2
    refine ⟨ids, hids, fun key => hagree key (.inr ?_)⟩
    exact Url.isUnambiguous_of_nodup (by with_unfolding_all rfl) (by decide +kernel) key

/-- Below a mount path a request names the first segment of that path, and of two ids under one key the second. -/
theorem Web.Request.differs_from_link :
    let mounted := sampleFor "/shop/products/edit/7" "" [("id", .text "7")]
    let repeated := sampleFor "/products/edit" "id=1&id=2" []
    (mounted.url.map Url.path = .ok "/shop/products/edit/7".toList ∧
      Route.Table.standard.resolve
          ((Engine.mountedAt "/shop").adapter.belowMount "/shop/products/edit/7".toList) =
        .ok ⟨"products", "edit", mounted.pathParams⟩ ∧
      ((Engine.mountedAt "/shop").buildCheck (.text "/shop/products/edit/7?") none).map Check.resource =
        .ok "products" ∧
      (mounted.resource .null (.text "application") >>= Name.resource) = .ok "shop") ∧
    (repeated.url.map Url.path = .ok "/products/edit".toList ∧
      Route.Table.standard.resolve ((Engine.mountedAt "").adapter.belowMount "/products/edit".toList) =
        .ok ⟨"products", "edit", repeated.pathParams⟩ ∧
      ((Engine.mountedAt "").buildCheck (.text "/products/edit?id=1&id=2") none).map
          (fun check => check.ids.get? "id") = .ok (some (.text "1")) ∧
      (Ids.extract repeated.paramsValue).map (fun ids => ids.get? "id") = .ok (some (.text "2"))) := by
  refine ⟨⟨?_, ?_, ?_, ?_⟩, ?_, ?_, ?_, ?_⟩
  · with_unfolding_all rfl
  · with_unfolding_all rfl
  · with_unfolding_all rfl
  · with_unfolding_all rfl
  · with_unfolding_all rfl
  · with_unfolding_all rfl
  · with_unfolding_all rfl
  · with_unfolding_all rfl

end Gatehouse
