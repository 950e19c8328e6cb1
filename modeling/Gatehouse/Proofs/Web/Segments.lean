import Gatehouse.Web
import Gatehouse.Proofs.Fields
import Gatehouse.Proofs.Runs

/-!
# Segments — routes that take the resource from the beginning of a path

A request names its resource by the first segment of its path. A route does the same if its template
begins with the resource, or with a segment that the route has for its resource by default. Whatever such
a route makes of a path, its resource is then the segment that a request to this path begins with.
-/

namespace Gatehouse

open Text (pieces pieces_of_not_mem)

/-! ## 1. First segments -/

/-- What follows a segment: nothing, or the slash before the next one. -/
def EndsSegment (rest : List Char) : Prop := rest = [] ∨ ∃ more, rest = '/' :: more

/-- A path begins with a segment, which is not empty. -/
structure BeginsWith (path segment : List Char) : Prop where
  nonempty : segment ≠ []
  noSlash : '/' ∉ segment
  split : ∃ rest, path = '/' :: (segment ++ rest) ∧ EndsSegment rest

theorem BeginsWith.firstPart? {path segment : List Char} (h : BeginsWith path segment) :
    Web.Request.firstPart? path = some segment := by
  obtain ⟨rest, rfl, hends⟩ := h.split
  have hpieces : ∃ more, pieces '/' (segment ++ rest) = segment :: more := by
    rcases hends with rfl | ⟨more, rfl⟩
    · rw [List.append_nil, pieces_of_not_mem h.noSlash]
      exact ⟨[], rfl⟩
    · rw [Text.pieces_append, pieces_of_not_mem h.noSlash]
      exact ⟨_, rfl⟩
  obtain ⟨more, hmore⟩ := hpieces
  unfold Web.Request.firstPart?
  rw [pieces, if_pos rfl, hmore, List.find?_cons_of_neg (by decide)]
  apply List.find?_cons_of_pos
  cases segment with
  | nil => exact absurd rfl h.nonempty
  | cons c rest => rfl

theorem Route.mem_of_mem_trimmed {path : List Char} {c : Char} (h : c ∈ trimmed path) : c ∈ path := by
  unfold trimmed at h
  split at h
  · exact List.mem_reverse.1 ((List.dropWhile_sublist _).subset (List.mem_reverse.1 h))
  · exact h

/-- Slashes at the end of a path do not count. -/
theorem BeginsWith.of_trimmed {path segment : List Char} (h : BeginsWith (Route.trimmed path) segment) :
    BeginsWith path segment := by
  have htrimmed : ∃ slashes, (∀ c ∈ slashes, c = '/') ∧ path = Route.trimmed path ++ slashes := by
    unfold Route.trimmed
    split
    · refine ⟨(path.reverse.takeWhile (· == '/')).reverse, ?_, ?_⟩
      · intro c hc
        have hslash := List.all_eq_true.1 List.all_takeWhile c (List.mem_reverse.1 hc)
        exact beq_iff_eq.1 hslash
      · rw [← List.reverse_append, List.takeWhile_append_dropWhile, List.reverse_reverse]
    · exact ⟨[], fun c hc => absurd hc List.not_mem_nil, (List.append_nil path).symm⟩
  obtain ⟨slashes, hslashes, hpath⟩ := htrimmed
  obtain ⟨rest, hrest, hends⟩ := h.split
  refine ⟨h.nonempty, h.noSlash, rest ++ slashes, ?_, ?_⟩
  · rw [hpath, hrest, List.cons_append, List.append_assoc]
  · rcases hends with rfl | ⟨more, rfl⟩
    · cases slashes with
      | nil => exact .inl rfl
      | cons c more =>
        rw [hslashes c List.mem_cons_self]
        exact .inr ⟨more, rfl⟩
    · exact .inr ⟨more ++ slashes, rfl⟩

/-! ## 2. Captures -/

namespace Route

theorem of_mem_here {least taken n : Nat} {shorter : List Reading} {cs rest : List Char}
    (h : (n, rest) ∈ if least ≤ taken then (taken, cs) :: shorter else shorter) :
    (n, rest) ∈ shorter ∨ (n = taken ∧ least ≤ taken) := by
  split at h
  · rename_i hle
    rcases List.mem_cons.1 h with h | h
    · injection h with hn _
      exact .inr ⟨hn, hle⟩
    · exact .inl h
  · exact .inl h

theorem forall_take_of_mem_cuts {p : Char → Bool} {least taken n : Nat} {shorter : List Reading}
    {cs rest : List Char} (h : (n, rest) ∈ cuts p least taken shorter cs) :
    (n, rest) ∈ shorter ∨
      (least ≤ n ∧ n ≤ taken + cs.length ∧ ∀ c ∈ cs.take (n - taken), p c = true) := by
  have hhere : ∀ {cs : List Char} {n : Nat} {rest : List Char} {taken : Nat} {shorter : List Reading},
      (n, rest) ∈ (if least ≤ taken then (taken, cs) :: shorter else shorter) → (n, rest) ∈ shorter ∨
        (least ≤ n ∧ n ≤ taken + cs.length ∧ ∀ c ∈ cs.take (n - taken), p c = true) := by
    intro cs n rest taken shorter h
    obtain h | ⟨rfl, hle⟩ := of_mem_here h
    · exact .inl h
    · exact .inr ⟨hle, by omega, by simp⟩
  induction cs generalizing taken shorter with
  | nil => exact hhere h
  | cons c cs ih =>
    rw [cuts] at h
    split at h
    · rename_i hp
      rcases ih h with h | ⟨hle, hlength, hall⟩
      · exact hhere h
      · refine .inr ⟨hle, by rw [List.length_cons]; omega, ?_⟩
        intro d hd
        cases hn : n - taken with
        | zero =>
          rw [hn] at hd
          cases hd
        | succ m =>
          rw [hn, List.take_succ_cons] at hd
          rcases List.mem_cons.1 hd with rfl | hd
          · exact hp
          · apply hall d
            rwa [show n - (taken + 1) = m by omega]
    · exact hhere h

/-- What a stretch takes is a beginning of the text, of characters that it may take and enough of them. -/
theorem of_mem_stretches {p : Char → Bool} {least n : Nat} {cs rest : List Char}
    (h : (n, rest) ∈ stretches p least cs) :
    ∃ front, cs = front ++ rest ∧ n = front.length ∧ least ≤ n ∧ ∀ c ∈ front, p c = true := by
  obtain h' | ⟨hleast, hlength, hall⟩ := forall_take_of_mem_cuts h
  · cases h'
  · rw [Nat.sub_zero] at hall
    refine ⟨cs.take n, (take_append_of_mem_stretches h).symm, ?_, hleast, hall⟩
    rw [List.length_take]
    omega

theorem of_captures_nil {cs : List Char} {captures : List Capture} (h : Template.captures [] cs = some captures) :
    captures = [] ∧ (cs = [] ∨ cs = ['\n']) := by
  rw [Template.captures] at h
  split at h
  · rename_i hend
    cases h
    exact ⟨rfl, hend⟩
  · cases h

theorem of_captures_literal {c : Char} {tail : Template} {cs : List Char} {captures : List Capture}
    (h : Template.captures (.literal c :: tail) cs = some captures) :
    ∃ rest, cs = c :: rest ∧ tail.captures rest = some captures := by
  cases cs with
  | nil => cases h
  | cons d rest =>
    rw [Template.captures] at h
    split at h
    · rename_i heq
      subst heq
      exact ⟨rest, rfl, h⟩
    · cases h

theorem of_captures_parameter {name : String} {kind : Kind} {tail : Template} {cs : List Char}
    {captures : List Capture} (h : Template.captures (.parameter name kind :: tail) cs = some captures) :
    ∃ taken rest more, (taken, rest) ∈ kind.readings cs ∧ tail.captures rest = some more ∧
      captures = ⟨name, kind, cs.take taken⟩ :: more := by
  obtain ⟨⟨taken, rest⟩, hreading, hfound⟩ := List.exists_of_findSome?_eq_some h
  obtain ⟨more, hmore, rfl⟩ := Option.map_eq_some_iff.1 hfound
  exact ⟨taken, rest, more, hreading, hmore, rfl⟩

/-- A parameter for a text takes a part of a segment, and at least one character of it. -/
theorem captures_text {name : String} {tail : Template} {cs : List Char} {captures : List Capture}
    (h : Template.captures (.parameter name .text :: tail) cs = some captures) :
    ∃ segment rest more, segment ≠ [] ∧ '/' ∉ segment ∧ cs = segment ++ rest ∧
      tail.captures rest = some more ∧ captures = ⟨name, .text, segment⟩ :: more := by
  obtain ⟨taken, rest, more, hreading, hmore, rfl⟩ := of_captures_parameter h
  obtain ⟨segment, rfl, rfl, hleast, hall⟩ := of_mem_stretches hreading
  refine ⟨segment, rest, more, List.ne_nil_of_length_pos hleast, ?_, rfl, hmore, ?_⟩
  · intro hslash
    have hne := hall '/' hslash
    simp at hne
  · rw [List.take_left]

theorem captures_literals {segment : List Char} {tail : Template} {cs : List Char} {captures : List Capture}
    (h : Template.captures (segment.map .literal ++ tail) cs = some captures) :
    ∃ rest, cs = segment ++ rest ∧ tail.captures rest = some captures := by
  induction segment generalizing cs with
  | nil => exact ⟨cs, rfl, h⟩
  | cons c segment ih =>
    obtain ⟨rest, rfl, hsegment⟩ := of_captures_literal h
    obtain ⟨rest, rfl, htail⟩ := ih hsegment
    exact ⟨rest, rfl, htail⟩

theorem names_of_captures {template : Template} {cs : List Char} {captures : List Capture}
    (h : template.captures cs = some captures) :
    captures.map Capture.name = template.filterMap Piece.name? := by
  induction template generalizing cs captures with
  | nil =>
    obtain ⟨rfl, -⟩ := of_captures_nil h
    rfl
  | cons piece tail ih =>
    cases piece with
    | literal c =>
      obtain ⟨rest, rfl, hrest⟩ := of_captures_literal h
      exact ih hrest
    | parameter name kind =>
      obtain ⟨taken, rest, more, -, hmore, rfl⟩ := of_captures_parameter h
      rw [List.map_cons, ih hmore]
      rfl

/-- Where a template ends or goes on with a slash, so does the path. -/
theorem endsSegment_of_captures {tail : Template} {rest : List Char} {captures : List Capture}
    (htail : tail = [] ∨ ∃ more, tail = .literal '/' :: more) (h : tail.captures rest = some captures)
    (hline : '\n' ∉ rest) : EndsSegment rest := by
  rcases htail with rfl | ⟨more, rfl⟩
  · obtain ⟨-, rfl | rfl⟩ := of_captures_nil h
    · exact .inl rfl
    · exact absurd List.mem_cons_self hline
  · obtain ⟨rest, rfl, -⟩ := of_captures_literal h
    exact .inr ⟨rest, rfl⟩

/-- A segment that is followed by what the rest of a template takes. -/
theorem beginsWith_of_captures {segment rest : List Char} {tail : Template} {captures : List Capture}
    (hnonempty : segment ≠ []) (hslash : '/' ∉ segment) (htail : tail = [] ∨ ∃ more, tail = .literal '/' :: more)
    (h : tail.captures rest = some captures) (hline : '\n' ∉ '/' :: (segment ++ rest)) :
    BeginsWith ('/' :: (segment ++ rest)) segment := by
  have hrest : '\n' ∉ rest := fun hmem => hline (List.mem_cons_of_mem _ (List.mem_append_right _ hmem))
  exact ⟨hnonempty, hslash, rest, rfl, endsSegment_of_captures htail h hrest⟩

end Route

/-! ## 3. Routes -/

namespace Route

theorem paramOf_eq (params : List (String × Value)) (name : String) :
    paramOf params name = (Ids.get? params name).getD .null := rfl

/-- A path says nothing about a parameter that is not in the template. -/
theorem paramOf_paramsOf {captures : List Capture} {defaults params : List (String × Value)} {name : String}
    (h : paramsOf defaults captures = .ok params) (hname : name ∉ captures.map Capture.name) :
    paramOf params name = paramOf defaults name := by
  induction captures generalizing defaults with
  | nil =>
    cases h
    rfl
  | cons c rest ih =>
    obtain ⟨value, -, h⟩ := bind_eq_ok_iff.1 h
    rw [List.map_cons, List.mem_cons, not_or] at hname
    rw [ih h hname.2, paramOf_eq, paramOf_eq, Field.put_eq, Ids.get?_put_of_ne value hname.1]

namespace Entry

/-- A route that has the first segment of a path for its resource: as its first parameter, or as a segment that
is written out in the template and is the resource by default. -/
inductive BeginsWithResource : Entry → Prop where
  | parameter {tail : Template} {defaults : List (String × Value)}
      (htail : tail = [] ∨ ∃ more, tail = .literal '/' :: more)
      (hname : "resource" ∉ tail.filterMap Piece.name?) :
      BeginsWithResource ⟨.literal '/' :: .parameter "resource" .text :: tail, defaults⟩
  | literal {segment : List Char} {tail : Template} {defaults : List (String × Value)}
      (hnonempty : segment ≠ []) (hslash : '/' ∉ segment)
      (htail : tail = [] ∨ ∃ more, tail = .literal '/' :: more)
      (hname : "resource" ∉ tail.filterMap Piece.name?)
      (hdefault : paramOf defaults "resource" = .text (String.ofList segment)) :
      BeginsWithResource ⟨.literal '/' :: (segment.map .literal ++ tail), defaults⟩

variable {entry : Entry} {path : List Char} {m : Match}

theorem resolve_eq_some (h : entry.resolve path = .ok (some m)) :
    ∃ captures params, entry.template.captures path = some captures ∧
      paramsOf entry.defaults captures = .ok params ∧
      (paramOf params "resource").written? = .ok m.resource := by
  unfold resolve at h
  cases hcaptures : entry.template.captures path with
  | none =>
    rw [hcaptures] at h
    cases h
  | some captures =>
    rw [hcaptures] at h
    obtain ⟨params, hparams, h⟩ := bind_eq_ok_iff.1 h
    dsimp only at h
    split at h
    · obtain ⟨resource, hresource, h⟩ := bind_eq_ok_iff.1 h
      obtain ⟨action, -, h⟩ := bind_eq_ok_iff.1 h
      cases h
      exact ⟨captures, params, rfl, hparams, hresource⟩
    · cases h

theorem resource_of_text {params : List (String × Value)} {segment : List Char}
    (hwritten : (paramOf params "resource").written? = .ok m.resource)
    (htext : paramOf params "resource" = .text (String.ofList segment)) : m.resource.toList = segment := by
  rw [htext, Value.written?_text] at hwritten
  rw [← Except.ok.inj hwritten, String.toList_ofList]

/-- The path that such a route resolves begins with the resource that it gives. -/
theorem BeginsWithResource.beginsWith (hentry : entry.BeginsWithResource) (h : entry.resolve path = .ok (some m))
    (hline : '\n' ∉ path) : BeginsWith path m.resource.toList := by
  obtain ⟨captures, params, hcaptures, hparams, hwritten⟩ := resolve_eq_some h
  cases hentry with
  | parameter htail hname =>
    obtain ⟨cs, rfl, hcs⟩ := of_captures_literal hcaptures
    obtain ⟨segment, rest, more, hnonempty, hslash, rfl, hmore, rfl⟩ := captures_text hcs
    obtain ⟨value, hvalue, hparams⟩ := bind_eq_ok_iff.1 hparams
    cases hvalue
    -- No later parameter takes the place of the resource.
    have htext : paramOf params "resource" = .text (String.ofList segment) := by
      rw [← names_of_captures hmore] at hname
      rw [paramOf_paramsOf hparams hname, paramOf_eq, Field.put_eq, Ids.get?_put_self]
      rfl
    rw [resource_of_text hwritten htext]
    exact beginsWith_of_captures hnonempty hslash htail hmore hline
  | @literal segment tail defaults hnonempty hslash htail hname hdefault =>
    obtain ⟨cs, rfl, hcs⟩ := of_captures_literal hcaptures
    obtain ⟨rest, rfl, hmore⟩ := captures_literals hcs
    have htext : paramOf params "resource" = .text (String.ofList segment) := by
      rw [← names_of_captures hmore] at hname
      rw [paramOf_paramsOf hparams hname, hdefault]
    rw [resource_of_text hwritten htext]
    exact beginsWith_of_captures hnonempty hslash htail hmore hline

end Entry

theorem beginsWithResource_standard : ∀ entry ∈ Table.standard.routes, entry.BeginsWithResource := by
  have hends : ∀ more : Template, Piece.literal '/' :: more = [] ∨
      ∃ rest, Piece.literal '/' :: more = .literal '/' :: rest := fun more => .inr ⟨more, rfl⟩
  intro entry hentry
  rcases List.mem_cons.1 hentry with rfl | hentry
  · exact .parameter (hends _) (by decide)
  · rcases List.mem_cons.1 hentry with rfl | hentry
    · exact .parameter (hends _) (by decide)
    · rw [List.mem_singleton.1 hentry]
      exact .parameter (.inl rfl) (by decide)

end Route

end Gatehouse
