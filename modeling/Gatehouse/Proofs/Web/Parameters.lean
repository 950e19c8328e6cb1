import Gatehouse.Web
import Gatehouse.Proofs.Deciding.Unlogged

/-!
# Parameters — what becomes of parameters

Of the parameters of a request those that are named like ids become ids, and all others are dropped. The
ids are put into the options of a check under a name of their own, where nothing in them can pass for
another option; they reach the check as they were. And the path that names a resource is read without the
query behind it.
-/

namespace Gatehouse

/-! ## 1. The ids among parameters -/

theorem filterM_eq_filter {p : α → Except Fault Bool} {q : α → Bool} {xs : List α}
    (h : ∀ x ∈ xs, p x = .ok (q x)) : xs.filterM p = .ok (xs.filter q) := by
  have haux : ∀ acc, List.filterAuxM p xs acc = .ok ((xs.filter q).reverse ++ acc) := by
    induction xs with
    | nil => exact fun _ => rfl
    | cons x rest ih =>
      intro acc
      rw [List.filterAuxM, h x List.mem_cons_self]
      change List.filterAuxM p rest _ = _
      rw [ih (fun y hy => h y (List.mem_cons_of_mem x hy)), List.filter_cons]
      cases q x <;> simp
  unfold List.filterM
  rw [haux []]
  change Except.ok ((xs.filter q).reverse ++ []).reverse = _
  rw [List.append_nil, List.reverse_reverse]

namespace Ids

/-- Each key stands once. -/
def IsMap (ids : Ids) : Prop := (ids.map Prod.fst).Nodup

theorem put_of_not_mem {ids : Ids} {key : String} (value : Value) (h : key ∉ ids.map Prod.fst) :
    ids.put key value = ids ++ [(key, value)] := by
  induction ids with
  | nil => rfl
  | cons e rest ih =>
    obtain ⟨k, v⟩ := e
    rw [List.map_cons, List.mem_cons, not_or] at h
    rw [put, if_neg (by simpa using Ne.symm h.1), ih h.2, List.cons_append]

theorem keys_put_of_mem {ids : Ids} {key : String} (value : Value) (h : key ∈ ids.map Prod.fst) :
    (ids.put key value).map Prod.fst = ids.map Prod.fst := by
  induction ids with
  | nil => cases h
  | cons e rest ih =>
    obtain ⟨k, v⟩ := e
    rw [put]
    split
    · rfl
    · rename_i hk
      rw [List.map_cons, List.mem_cons] at h
      rw [List.map_cons, List.map_cons, ih (h.resolve_left fun hkey => hk (by simp [hkey]))]

theorem isMap_put {ids : Ids} (h : ids.IsMap) (key : String) (value : Value) :
    (ids.put key value).IsMap := by
  unfold IsMap at h ⊢
  by_cases hkey : key ∈ ids.map Prod.fst
  · rwa [keys_put_of_mem value hkey]
  · rw [put_of_not_mem value hkey, List.map_append]
    rw [List.nodup_append]
    refine ⟨h, List.pairwise_singleton _ _, fun k hk k' hk' hsame => ?_⟩
    rw [List.map_singleton, List.mem_singleton] at hk'
    rw [hsame, hk'] at hk
    exact hkey hk

/-- Parameters with keys that have a text. -/
def HaveNames (entries : List (Value × Value)) : Prop :=
  ∀ e ∈ entries, e.1.written? = .ok e.1.written

theorem ofEntries_eq_foldl {entries : List (Value × Value)} (h : HaveNames entries) :
    ofEntries entries = .ok (entries.foldl (fun ids e => ids.put e.1.written e.2) []) := by
  have hfold : ∀ ids : Ids, entries.foldlM
      (fun (ids : Ids) e => (return ids.put (← e.1.written?) e.2 : Except Fault Ids)) ids =
        .ok (entries.foldl (fun ids e => ids.put e.1.written e.2) ids) := by
    induction entries with
    | nil => exact fun _ => rfl
    | cons e rest ih =>
      intro ids
      rw [List.foldlM_cons, h e List.mem_cons_self]
      exact ih (fun e he => h e (List.mem_cons_of_mem _ he)) _
  exact hfold []

/-- Ids that are a mapping already are read as they are. -/
theorem coerce_toValue {ids : Ids} (h : ids.IsMap) : coerce ids.toValue = .ok ids := by
  have hnames : HaveNames (ids.map fun e => (.text e.1, e.2)) := by
    intro e he
    obtain ⟨entry, -, rfl⟩ := List.mem_map.1 he
    exact Value.written?_text entry.1
  change ofEntries (ids.map fun e => (.text e.1, e.2)) = _
  rw [ofEntries_eq_foldl hnames, List.foldl_map]
  -- Each key is new when it is its turn.
  have hput : ∀ (front back : Ids), (front ++ back).IsMap →
      back.foldl (fun ids e => ids.put e.1 e.2) front = front ++ back := by
    intro front back
    induction back generalizing front with
    | nil => exact fun _ => (List.append_nil front).symm
    | cons e rest ih =>
      intro hmap
      have hnew : e.1 ∉ front.map Prod.fst := by
        unfold IsMap at hmap
        rw [List.map_append, List.map_cons, List.nodup_append] at hmap
        exact fun hmem => hmap.2.2 _ hmem _ List.mem_cons_self rfl
      rw [List.foldl_cons, put_of_not_mem e.2 hnew, ih, List.append_assoc, List.singleton_append]
      rwa [List.append_assoc, List.singleton_append]
  exact congrArg Except.ok (hput [] ids h)

/-- The parameter of a name: the last of those whose key is written like it. -/
def paramOf (entries : List (Value × Value)) (name : String) : Option Value :=
  (entries.reverse.find? fun e => e.1.written == name).map Prod.snd

theorem paramOf_cons (e : Value × Value) (rest : List (Value × Value)) (name : String) :
    paramOf (e :: rest) name =
      (paramOf rest name).or (if e.1.written = name then some e.2 else none) := by
  unfold paramOf
  rw [List.reverse_cons, List.find?_append, Option.map_or]
  by_cases h : e.1.written = name <;> simp [h]

/-- The ids that parameters come to. -/
def gathered (entries : List (Value × Value)) : Ids :=
  (entries.filter fun e => isIdName e.1.written).foldl (fun ids e => ids.put e.1.written e.2) []

theorem get?_foldl_put (entries : List (Value × Value)) (ids : Ids) (name : String) :
    (entries.foldl (fun ids e => ids.put e.1.written e.2) ids).get? name =
      (paramOf entries name).or (ids.get? name) := by
  induction entries generalizing ids with
  | nil => rfl
  | cons e rest ih =>
    rw [List.foldl_cons, ih, paramOf_cons, Option.or_assoc]
    -- What comes later counts; only then comes this entry, and only then what was there before.
    by_cases h : e.1.written = name
    · rw [if_pos h, ← h, get?_put_self, Option.some_or]
    · rw [if_neg h, get?_put_of_ne e.2 (Ne.symm h), Option.none_or]

theorem get?_gathered (entries : List (Value × Value)) (name : String) :
    (gathered entries).get? name = if isIdName name then paramOf entries name else none := by
  unfold gathered
  rw [get?_foldl_put, get?_nil, Option.or_none]
  induction entries with
  | nil => simp [paramOf]
  | cons e rest ih =>
    rw [paramOf_cons, List.filter_cons]
    split
    · rename_i hid
      rw [paramOf_cons, ih]
      by_cases h : e.1.written = name
      · rw [h] at hid
        simp [hid, h]
      · by_cases hname : isIdName name = true <;> simp [h, hname]
    · rename_i hid
      rw [ih]
      by_cases h : e.1.written = name
      · rw [h] at hid
        simp [hid]
      · by_cases hname : isIdName name = true <;> simp [h, hname]

theorem isMap_gathered (entries : List (Value × Value)) : (gathered entries).IsMap := by
  unfold gathered
  have hfold : ∀ (es : List (Value × Value)) (ids : Ids), ids.IsMap →
      (es.foldl (fun ids e => ids.put e.1.written e.2) ids).IsMap := by
    intro es
    induction es with
    | nil => exact fun _ h => h
    | cons e rest ih => exact fun ids h => ih _ (isMap_put h _ _)
  exact hfold _ [] List.nodup_nil

theorem extract_dict {entries : List (Value × Value)} (h : HaveNames entries) :
    extract (.dict entries) = .ok (gathered entries) := by
  have hfilter : entries.filterM (fun e => isIdKey e.1) =
      .ok (entries.filter fun e => isIdName e.1.written) :=
    filterM_eq_filter fun e he => by
      unfold isIdKey
      rw [h e he]
      rfl
  have hnames : HaveNames (entries.filter fun e => isIdName e.1.written) := fun e he =>
    h e (List.mem_filter.1 he).1
  cases entries with
  | nil => rfl
  | cons e rest =>
    change ((e :: rest).filterM (fun e => isIdKey e.1) >>= ofEntries) = _
    rw [hfilter]
    exact ofEntries_eq_foldl hnames

end Ids

/-! ## 2. Options that hold ids -/

namespace Request

/-- Option names that neither are names of ids nor announce ids. -/
def ArePlain (front : List (String × Value)) : Prop :=
  ∀ e ∈ front, e.1 ≠ "ids" ∧ Ids.isIdName e.1 = false

/-- Options of plain names, and ids last. -/
def optionsWith (front : List (String × Value)) (ids : Ids) : List (Value × Value) :=
  front.map (fun e => (.text e.1, e.2)) ++ [(.text "ids", ids.toValue)]

theorem option_ids_optionsWith {front : List (String × Value)} (h : ArePlain front) (ids : Ids) :
    option (optionsWith front ids) "ids" = ids.toValue := by
  have hfront : (front.map fun e => (Value.text e.1, e.2)).find?
      (fun e => Value.equals e.1 (.text "ids")) = none := by
    rw [List.find?_eq_none]
    intro e he
    obtain ⟨entry, hentry, rfl⟩ := List.mem_map.1 he
    rw [Value.equals_text_text, beq_iff_eq]
    exact (h entry hentry).1
  unfold option Value.lookup optionsWith
  rw [List.find?_append, hfront, Option.none_or,
    List.find?_cons_of_pos (by rw [Value.equals_text_text, beq_self_eq_true])]
  rfl

/-- Only what is under `ids` comes to ids. -/
theorem idsOfOptions_optionsWith {front : List (String × Value)} (h : ArePlain front) {ids : Ids}
    (hids : ids.IsMap) : idsOfOptions (optionsWith front ids) = .ok ids := by
  -- An option of a plain name changes nothing, and neither does the one that has been read already.
  have hfront : (front.map fun e => (Value.text e.1, e.2)).foldlM
      (fun (ids : Ids) e => (do
        if Value.equals e.1 (.text "ids") then return ids
        if ← Ids.isIdKey e.1 then return ids.putNew (← e.1.written?) e.2 else return ids :
          Except Fault Ids)) ids = .ok ids := by
    induction front with
    | nil => rfl
    | cons e rest ih =>
      obtain ⟨hnot, hid⟩ := h e List.mem_cons_self
      have hequals : Value.equals (.text e.1) (.text "ids") = false := by
        rw [Value.equals_text_text, beq_eq_false_iff_ne]
        exact hnot
      have hkey : Ids.isIdKey (.text e.1) = .ok false := by
        unfold Ids.isIdKey
        rw [Value.written?_text]
        exact congrArg Except.ok hid
      rw [List.map_cons, List.foldlM_cons]
      dsimp only
      rw [hequals, hkey]
      exact ih fun e he => h e (List.mem_cons_of_mem _ he)
  have hlast : Value.equals (.text "ids") (.text "ids") = true := by
    rw [Value.equals_text_text, beq_self_eq_true]
  unfold idsOfOptions
  rw [option_ids_optionsWith h, bind_of_eq_ok (Ids.coerce_toValue hids)]
  unfold optionsWith
  rw [List.foldlM_append, bind_of_eq_ok hfront, List.foldlM_cons]
  dsimp only
  rw [hlast]
  rfl

theorem option_optionsWith {name : String} (h : name ≠ "ids") (front : List (String × Value)) (ids : Ids) :
    option (optionsWith front ids) name = option (front.map fun e => (.text e.1, e.2)) name := by
  have hlast : Value.equals (.text "ids") (.text name) = false := by
    rw [Value.equals_text_text, beq_eq_false_iff_ne]
    exact Ne.symm h
  unfold option Value.lookup optionsWith
  rw [List.find?_append, List.find?_cons, hlast, List.find?_nil, Option.or_none]

/-- The request of plain options. -/
def ofPlain (front : List (String × Value)) (ids : Ids) : Request :=
  let entries := front.map fun e => (Value.text e.1, e.2)
  { user := option entries "user"
    resource := match option entries "resource" with
      | .null => option entries "controller"
      | v => v
    action := option entries "action"
    ids }

theorem ofEntries_optionsWith {front : List (String × Value)} (h : ArePlain front) {ids : Ids}
    (hids : ids.IsMap) : ofEntries (optionsWith front ids) = .ok (ofPlain front ids) := by
  unfold ofEntries
  rw [bind_of_eq_ok (idsOfOptions_optionsWith h hids), option_optionsWith (by decide),
    option_optionsWith (by decide), option_optionsWith (by decide), option_optionsWith (by decide)]
  rfl

end Request

/-- Plain options with ids that agree under all keys come to the same. -/
theorem Engine.alike_optionsWith (e : Engine) {front : List (String × Value)}
    (h : Request.ArePlain front) {ids ids' : Ids} (hmap : ids.IsMap) (hmap' : ids'.IsMap)
    (hids : ∀ key, ids'.get? key = ids.get? key) (host : Option Host) :
    Alike (e.checkFor (.dict (Request.optionsWith front ids)) host)
      (e.checkFor (.dict (Request.optionsWith front ids')) host) := by
  have hfirst : e.adapter.normalize (.dict (Request.optionsWith front ids)) =
      .ok (Request.ofPlain front ids) := Request.ofEntries_optionsWith h hmap
  have hsecond : e.adapter.normalize (.dict (Request.optionsWith front ids')) =
      .ok { Request.ofPlain front ids with ids := ids' } := Request.ofEntries_optionsWith h hmap'
  exact alike_of_normalize hfirst hsecond hids host

/-! ## 3. Places -/

namespace Url

open Text

theorem cut_fst (sep : Char) (cs : List Char) : (cut sep cs).1 = cs.takeWhile (· != sep) := by
  induction cs with
  | nil => rfl
  | cons c rest ih =>
    rw [cut, List.takeWhile_cons]
    by_cases h : c = sep
    · simp [h]
    · simp [h, ih]

/-- What follows a character at which an authority ends does not count for the authority. -/
theorem splitAuthority_append {cs : List Char} (h : cs.any endsAuthority = true) (more : List Char) :
    splitAuthority ('/' :: '/' :: (cs ++ more)) =
      ((splitAuthority ('/' :: '/' :: cs)).1, (splitAuthority ('/' :: '/' :: cs)).2 ++ more) := by
  unfold splitAuthority
  induction cs with
  | nil => cases h
  | cons c rest ih =>
    rw [List.cons_append]
    cases hc : endsAuthority c with
    | true => simp [hc]
    | false =>
      rw [List.any_cons, hc, Bool.false_or] at h
      have hrest := ih h
      simp only [Prod.mk.injEq] at hrest ⊢
      simpa [hc] using hrest

/-- A path ends where a query begins. -/
theorem path_append (cs query : List Char) :
    (cut '?' (cut '#' (cs ++ '?' :: query)).1).1 = (cut '?' (cut '#' cs).1).1 := by
  simp only [cut_fst]
  induction cs with
  | nil => rfl
  | cons c rest ih =>
    rw [List.cons_append, List.takeWhile_cons, List.takeWhile_cons]
    by_cases hc : c = '#'
    · simp [hc]
    · simp only [bne_iff_ne, ne_eq, hc, not_false_eq_true, if_true, List.takeWhile_cons, ih]

theorem parse_http (cs : List Char) : parse ("http://".toList ++ cs) = (do
    let (authority, rest) := splitAuthority ('/' :: '/' :: cs.filter (!isRemoved ·))
    checkBrackets authority
    let (rest, fragment) := cut '#' rest
    let (path, query) := cut '?' rest
    checkDelimiters authority
    return { scheme := "http".toList, authority, path, query := query.getD []
             fragment := fragment.getD [] }) := by
  have hscheme : "http://".toList = ['h', 't', 't', 'p', ':', '/', '/'] := by decide
  rw [hscheme]
  rfl

/-- The path of a URL does not depend on the query behind it. -/
theorem path_of_parse {path : List Char} (hpath : path.head? = some '/')
    (authority query : List Char) :
    (parse ("http://".toList ++ (authority ++ path ++ '?' :: query))).map Url.path =
      (parse ("http://".toList ++ (authority ++ path))).map Url.path := by
  have hends : ((authority ++ path).filter (!isRemoved ·)).any endsAuthority = true := by
    rw [List.any_eq_true]
    refine ⟨'/', List.mem_filter.2 ⟨List.mem_append_right _ (List.mem_of_mem_head? hpath), ?_⟩, ?_⟩
    · decide
    · decide
  have hquery : ('?' :: query).filter (!isRemoved ·) = '?' :: query.filter (!isRemoved ·) :=
    List.filter_cons_of_pos (by decide)
  rw [parse_http, parse_http, List.filter_append, hquery, splitAuthority_append hends]
  generalize splitAuthority ('/' :: '/' :: (authority ++ path).filter (!isRemoved ·)) = split
  obtain ⟨place, rest⟩ := split
  dsimp only
  cases checkBrackets place with
  | error f => rfl
  | ok _ =>
    cases checkDelimiters place with
    | error f => rfl
    | ok _ => exact congrArg Except.ok (path_append rest _)

end Url

namespace Web.Request

/-- The path of a request as its URL has it. -/
def place (path : String) : List Char :=
  let path := path.toList.flatMap escaped
  if path.head? == some '/' then path else '/' :: path

theorem head?_place (path : String) : (place path).head? = some '/' := by
  unfold place
  dsimp only
  split
  · rename_i h
    exact beq_iff_eq.1 h
  · rfl

theorem url_eq (r : Request) : r.url =
    match Url.parse ("http://".toList ++ (r.authority.toList ++ place r.path ++
      if r.query = "" then [] else '?' :: r.query.toList)) with
    | .ok url => .ok url
    | .error f => .error (.badValue (.url f)) := by
  have hassoc (query : List Char) : "http://".toList ++ (r.authority.toList ++ place r.path ++ query) =
      "http://".toList ++ r.authority.toList ++ place r.path ++ query := by
    simp only [List.append_assoc]
  rw [hassoc]
  rfl

/-- The path of a URL comes of authority and path alone. -/
theorem path_url (r : Request) : r.url.map Url.path =
    match (Url.parse ("http://".toList ++ (r.authority.toList ++ place r.path))).map Url.path with
    | .ok path => .ok path
    | .error f => .error (.badValue (.url f)) := by
  have hquery : (Url.parse ("http://".toList ++ (r.authority.toList ++ place r.path ++
      if r.query = "" then [] else '?' :: r.query.toList))).map Url.path =
        (Url.parse ("http://".toList ++ (r.authority.toList ++ place r.path))).map Url.path := by
    split
    · rw [List.append_nil]
    · exact Url.path_of_parse (head?_place r.path) _ _
  rw [← hquery, url_eq]
  cases Url.parse _ <;> rfl

/-- Requests to the same place are about the same resource, whatever their parameters. -/
theorem resource_of_same_place {r r' : Request} (hauthority : r'.authority = r.authority)
    (hpath : r'.path = r.path) (given fallback : Value) :
    r'.resource given fallback = r.resource given fallback := by
  have hurl : r'.url.map Url.path = r.url.map Url.path := by
    rw [path_url, path_url, hauthority, hpath]
  unfold resource
  split
  · rfl
  · cases h : r.url with
    | error f =>
      rw [h] at hurl
      cases h' : r'.url with
      | error f' =>
        rw [h'] at hurl
        exact congrArg Except.error (Except.error.inj hurl)
      | ok url' =>
        rw [h'] at hurl
        cases hurl
    | ok url =>
      rw [h] at hurl
      cases h' : r'.url with
      | error f' =>
        rw [h'] at hurl
        cases hurl
      | ok url' =>
        rw [h'] at hurl
        have hsame : url'.path = url.path := Except.ok.inj hurl
        change Except.ok _ = Except.ok _
        rw [hsame]

end Web.Request

end Gatehouse
