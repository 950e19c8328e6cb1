import Gatehouse.Proofs.Deciding.Targets
import Gatehouse.Proofs.Routing.Mounts

/-!
# Standard — paths that say the same as options

The standard routes take a path of one, two or three segments: the resource, the action and an id, in this order.
Where an engine has no other routes and no mount path, such a path is read as the request that the options of these
names describe, and it is decided in the same way, whatever the segments are.
-/

namespace Gatehouse

/-! ## 1. Slashes -/

namespace Url

theorem count_slash_ofSegments {segments : List (List Char)} (h : ∀ s ∈ segments, IsSegment s) :
    (ofSegments segments).count '/' = segments.length := by
  induction segments with
  | nil => rfl
  | cons s segments ih =>
    obtain ⟨⟨-, hslash⟩, hsegments⟩ := List.forall_mem_cons.1 h
    have hnone : s.count '/' = 0 := List.count_eq_zero.2 fun hmem => (hslash '/' hmem).1 rfl
    have hcons : ofSegments (s :: segments) = '/' :: (s ++ ofSegments segments) := rfl
    rw [hcons, List.count_cons_self, List.count_append, hnone, ih hsegments, List.length_cons, Nat.zero_add]

end Url

namespace Route

/-- A name is a segment. -/
theorem Label.isSegment (label : Label) : Url.IsSegment label.letters :=
  Url.isSegment_of_forall (List.cons_ne_nil _ _) (fun _ => label.isNameTail_of_mem) (by decide)

/-- Where no parameter takes a slash, a path has as many slashes as its template. -/
theorem count_slash_of_captures {template : Template} {cs : List Char} {captures : List Capture}
    (htexts : ∀ name kind, .parameter name kind ∈ template → kind = .text)
    (h : template.captures cs = some captures) : cs.count '/' = template.count (.literal '/') := by
  induction template generalizing cs captures with
  -- The line break that may stand behind a path is no slash.
  | nil => obtain ⟨-, rfl | rfl⟩ := of_captures_nil h <;> rfl
  | cons piece tail ih =>
    have htail : ∀ name kind, .parameter name kind ∈ tail → kind = .text := fun name kind hmem =>
      htexts name kind (List.mem_cons_of_mem _ hmem)
    cases piece with
    | literal c =>
      obtain ⟨rest, rfl, hrest⟩ := of_captures_literal h
      simp [List.count_cons, ih htail hrest]
    | parameter name kind =>
      obtain rfl := htexts name kind List.mem_cons_self
      obtain ⟨segment, rest, more, -, hslash, rfl, hmore, -⟩ := captures_text h
      simp [List.count_append, List.count_eq_zero.2 hslash, ih htail hmore]

/-! ## 2. The standard routes -/

theorem kind_of_mem_standard : ∀ route ∈ Table.standard.routes, ∀ name kind,
    .parameter name kind ∈ route.template → kind = .text := by
  intro route hroute name kind hmem
  simp only [Table.standard, List.mem_cons, List.not_mem_nil, or_false] at hroute
  rcases hroute with rfl | rfl | rfl <;> simp at hmem <;> tauto

/-- A path of segments goes past the standard routes that have another number of slashes. -/
theorem resolve_standard {front back : List Entry} {entry : Entry} {segments : List (List Char)} {m : Match}
    (hroutes : Table.standard.routes = front ++ entry :: back) (h : ∀ s ∈ segments, Url.IsSegment s)
    (hfront : ∀ route ∈ front, route.template.count (.literal '/') ≠ segments.length)
    (hentry : entry.resolve (Url.ofSegments segments) = .ok (some m)) :
    Table.standard.resolve (Url.ofSegments segments) = .ok m := by
  have hnone : ∀ route ∈ front, route.resolve (Url.ofSegments segments) = .ok none := by
    intro route hroute
    have hmem : route ∈ Table.standard.routes := hroutes ▸ List.mem_append_left _ hroute
    have hcaptures : route.template.captures (Url.ofSegments segments) = none := by
      rw [Option.eq_none_iff_forall_ne_some]
      intro captures hcaptures
      -- What is taken would have as many slashes as the template.
      have hcount := count_slash_of_captures (kind_of_mem_standard route hmem) hcaptures
      rw [Url.count_slash_ofSegments h] at hcount
      exact hfront route hroute hcount.symm
    unfold Entry.resolve
    rw [hcaptures]
  have htrimmed : trimmed (Url.ofSegments segments) = Url.ofSegments segments :=
    (isTrimmed_iff _).1 (.inr (Url.getLast?_ofSegments h))
  unfold Table.resolve
  dsimp only
  rw [htrimmed, show Table.standard.custom = [] from rfl, List.nil_append, hroutes, firstMatch_append hnone,
    firstMatch, hentry]
  rfl

namespace Segment

/-- The segments of the standard routes; each route takes some of the first. -/
def standardSegments : List Segment :=
  [.parameter ⟨'r', ['e', 's', 'o', 'u', 'r', 'c', 'e'], Eq.refl true, Eq.refl true⟩ none,
    .parameter ⟨'a', ['c', 't', 'i', 'o', 'n'], Eq.refl true, Eq.refl true⟩ none,
    .parameter ⟨'i', ['d'], Eq.refl true, Eq.refl true⟩ none]

theorem routes_standard : Table.standard.routes =
    [⟨piecesOf standardSegments, Field.ofPairs []⟩, ⟨piecesOf (standardSegments.take 2), Field.ofPairs []⟩,
      ⟨piecesOf (standardSegments.take 1), Field.ofPairs [("action", .text "index")]⟩] := by
  with_unfolding_all rfl

def standardValues (resource action id : String) (name : String) : Value :=
  .text (if name = "resource" then resource else if name = "action" then action else id)

section

variable {r a i : String} (hr : Url.IsSegment r.toList)

theorem takes_of_isSegment (h : Url.IsSegment i.toList) : Kind.text.Takes (.text i) :=
  .text (fun hempty => h.1 (String.toList_eq_nil_iff.2 hempty)) fun hslash => (h.2 '/' hslash).1 rfl

theorem isName_of_isSegment (h : Url.IsSegment i.toList) : Value.IsName (.text i) :=
  ⟨i, rfl, fun hempty => h.1 (String.toList_eq_nil_iff.2 hempty)⟩

include hr

theorem fits_standardSegments (ha : Url.IsSegment a.toList) (hi : Url.IsSegment i.toList) :
    ∀ s ∈ standardSegments, s.Fits (standardValues r a i) :=
  List.forall_mem_cons.2 ⟨takes_of_isSegment hr, List.forall_mem_cons.2 ⟨takes_of_isSegment ha,
    List.forall_mem_singleton.2 (takes_of_isSegment hi)⟩⟩

/-- Three segments are a resource, an action and an id. -/
theorem resolve_three (ha : Url.IsSegment a.toList) (hi : Url.IsSegment i.toList) :
    Table.standard.resolve (Url.ofSegments [r.toList, a.toList, i.toList]) = .ok ⟨r, a, [("id", .text i)]⟩ := by
  have hsegments : ∀ s ∈ [r.toList, a.toList, i.toList], Url.IsSegment s := by simp [hr, ha, hi]
  have hentry := @resolve_entry (standardValues r a i) standardSegments (fits_standardSegments hr ha hi) []
    (.text r) (.text a) (by with_unfolding_all rfl) (by with_unfolding_all rfl) (isName_of_isSegment hr)
    (isName_of_isSegment ha)
  apply @resolve_standard [] _ _ _ _ routes_standard hsegments
  · exact fun route hroute => absurd hroute List.not_mem_nil
  · with_unfolding_all exact hentry

/-- Two segments are a resource and an action. -/
theorem resolve_two (ha : Url.IsSegment a.toList) :
    Table.standard.resolve (Url.ofSegments [r.toList, a.toList]) = .ok ⟨r, a, []⟩ := by
  have hsegments : ∀ s ∈ [r.toList, a.toList], Url.IsSegment s := by simp [hr, ha]
  have hfits : ∀ s ∈ standardSegments.take 2, s.Fits (standardValues r a a) := fun s hs =>
    fits_standardSegments hr ha ha s (List.mem_of_mem_take hs)
  have hentry := @resolve_entry (standardValues r a a) (standardSegments.take 2) hfits []
    (.text r) (.text a) (by with_unfolding_all rfl) (by with_unfolding_all rfl) (isName_of_isSegment hr)
    (isName_of_isSegment ha)
  apply @resolve_standard [_] _ _ _ _ routes_standard hsegments
  · simp only [List.length_cons, List.length_nil]
    decide +kernel
  · with_unfolding_all exact hentry

/-- One segment is a resource, and the action is that for all of its objects. -/
theorem resolve_one : Table.standard.resolve (Url.ofSegments [r.toList]) = .ok ⟨r, "index", []⟩ := by
  have hsegments : ∀ s ∈ [r.toList], Url.IsSegment s := by simp [hr]
  have hfits : ∀ s ∈ standardSegments.take 1, s.Fits (standardValues r r r) := fun s hs =>
    fits_standardSegments hr hr hr s (List.mem_of_mem_take hs)
  have hentry := @resolve_entry (standardValues r r r) (standardSegments.take 1) hfits [("action", .text "index")]
    (.text r) (.text "index") (by with_unfolding_all rfl) (by with_unfolding_all rfl) (isName_of_isSegment hr)
    ⟨"index", rfl, by decide⟩
  apply @resolve_standard [_, _] _ _ _ _ routes_standard hsegments
  · simp only [List.length_cons, List.length_nil]
    decide +kernel
  · with_unfolding_all exact hentry

end

end Segment

end Route

/-! ## 3. Requests -/

namespace Adapter

/-- A path of segments is read as the request that its route gives, if there is no mount path. -/
theorem normalize_ofSegments {table : Route.Table} {segments : List (List Char)} {route : Route.Match} {text : String}
    (htext : text.toList = Url.ofSegments segments) (hne : segments ≠ []) (h : ∀ s ∈ segments, Url.IsSegment s)
    (hroute : table.resolve (Url.ofSegments segments) = .ok route) (hresource : route.resource ≠ "")
    (haction : route.action ≠ "") :
    (make (some (.table table)) "").normalize (.text text) =
      .ok ⟨.null, .text route.resource, .text route.action, routeIds route.params⟩ := by
  have hparse : Url.parse text.toList = .ok ⟨[], [], Url.ofSegments segments, [], []⟩ := by
    rw [htext]
    exact Url.parse_ofSegments h hne
  have hhead : (Url.ofSegments segments).head? = some '/' := by
    cases segments with
    | nil => exact absurd rfl hne
    | cons s segments => rfl
  have hbelow : (make (some (.table table)) "").belowMount (Url.ofSegments segments) = Url.ofSegments segments :=
    belowMount_of_mount_nil _ rfl hhead
  have hresolve : (Resolver.table table).resolve (Url.ofSegments segments) = .ok route := hroute
  -- Neither the resource nor the action is missing, so nothing is ambiguous.
  have hcomplete : (route.resource == "" || route.action == "") = false := by simp [hresource, haction]
  rw [normalize_of_text? rfl, ofPath_of_parse rfl rfl hparse (by rw [hbelow, hhead]), hbelow, hresolve]
  simp only [Except.bind, hcomplete]
  rfl

end Adapter

namespace Request

theorem ofEntries_three (r a i : String) : ofEntries [(.text "resource", .text r), (.text "action", .text a),
    (.text "id", .text i)] = .ok ⟨.null, .text r, .text a, [("id", .text i)]⟩ := by
  with_unfolding_all rfl

theorem ofEntries_two (r a : String) : ofEntries [(.text "resource", .text r), (.text "action", .text a)] =
    .ok ⟨.null, .text r, .text a, []⟩ := by
  with_unfolding_all rfl

end Request

/-! ## 4. Decisions -/

namespace Engine

variable {e : Engine}

/-- A path of segments and the options for what its route says are decided in the same way. -/
theorem decide_ofSegments {table : Route.Table} {segments : List (List Char)} {route : Route.Match} {text : String}
    {entries : List (Value × Value)} (hadapter : e.adapter = Adapter.make (some (.table table)) "")
    (htext : text.toList = Url.ofSegments segments) (hne : segments ≠ []) (h : ∀ s ∈ segments, Url.IsSegment s)
    (hroute : table.resolve (Url.ofSegments segments) = .ok route) (hresource : route.resource ≠ "")
    (haction : route.action ≠ "")
    (hentries : Request.ofEntries entries =
      .ok ⟨.null, .text route.resource, .text route.action, Adapter.routeIds route.params⟩) (host : Option Host) :
    e.decide (.text text) [] host = e.decide (.dict entries) [] host := by
  have hsame : e.adapter.normalize (.text text) = e.adapter.normalize (.dict entries) := by
    rw [hadapter, Adapter.normalize_dict, hentries,
      Adapter.normalize_ofSegments htext hne h hroute hresource haction]
  exact decide_congr hsame host

/-- Where there are only the standard routes and no mount path, a path of segments and the options that name them are
decided in the same way in every world. -/
theorem decide_standard_path {r a i : String} (hadapter : e.adapter = Adapter.make (some (.table .standard)) "")
    (hr : Url.IsSegment r.toList) (ha : Url.IsSegment a.toList) (hi : Url.IsSegment i.toList)
    (host : Option Host) :
    e.decide (.text ("/" ++ r ++ "/" ++ a ++ "/" ++ i)) [] host =
        e.decide (.dict [(.text "resource", .text r), (.text "action", .text a), (.text "id", .text i)]) [] host ∧
      e.decide (.text ("/" ++ r ++ "/" ++ a)) [] host =
        e.decide (.dict [(.text "resource", .text r), (.text "action", .text a)]) [] host ∧
      e.decide (.text ("/" ++ r)) [] host =
        e.decide (.dict [(.text "resource", .text r), (.text "action", .text "index")]) [] host := by
  have hrEmpty : r ≠ "" := fun hempty => hr.1 (String.toList_eq_nil_iff.2 hempty)
  have haEmpty : a ≠ "" := fun hempty => ha.1 (String.toList_eq_nil_iff.2 hempty)
  have hthree : ("/" ++ r ++ "/" ++ a ++ "/" ++ i).toList = Url.ofSegments [r.toList, a.toList, i.toList] := by
    simp [Url.ofSegments]
  have htwo : ("/" ++ r ++ "/" ++ a).toList = Url.ofSegments [r.toList, a.toList] := by simp [Url.ofSegments]
  have hone : ("/" ++ r).toList = Url.ofSegments [r.toList] := by simp [Url.ofSegments]
  refine ⟨?_, ?_, ?_⟩
  · exact decide_ofSegments hadapter hthree (by simp) (by simp [hr, ha, hi]) (Route.Segment.resolve_three hr ha hi)
      hrEmpty haEmpty (Request.ofEntries_three r a i) host
  · exact decide_ofSegments hadapter htwo (by simp) (by simp [hr, ha]) (Route.Segment.resolve_two hr ha)
      hrEmpty haEmpty (Request.ofEntries_two r a) host
  · exact decide_ofSegments hadapter hone (by simp) (by simp [hr]) (Route.Segment.resolve_one hr)
      hrEmpty (by simp) (Request.ofEntries_two r "index") host

/-- A resource, an action and an id that look like something else. -/
theorem decide_standard_path_oddNames :
    let e := Engine.mountedAt ""
    e.decide (.text "/_Products2/all/%5B:é[*") [] none =
        e.decide (.dict [(.text "resource", .text "_Products2"), (.text "action", .text "all"),
          (.text "id", .text "%5B:é[*")]) [] none ∧
      e.decide (.text "/_Products2/all") [] none =
        e.decide (.dict [(.text "resource", .text "_Products2"), (.text "action", .text "all")]) [] none ∧
      e.decide (.text "/_Products2") [] none =
        e.decide (.dict [(.text "resource", .text "_Products2"), (.text "action", .text "index")]) [] none := by
  have hr : Url.IsSegment "_Products2".toList :=
    Route.Label.isSegment ⟨'_', "Products2".toList, by decide, by decide +kernel⟩
  have ha : Url.IsSegment "all".toList := Route.Label.isSegment ⟨'a', ['l', 'l'], by decide, by decide⟩
  have hi : Url.IsSegment "%5B:é[*".toList := by decide +kernel
  exact decide_standard_path rfl hr ha hi none

end Engine

end Gatehouse
