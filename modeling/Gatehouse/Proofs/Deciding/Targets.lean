import Gatehouse.Proofs.Naming.Requests

/-!
# Targets — the ways to say what a check is about

A check can be asked for by an option mapping, by options one by one, or by a request. It is what the target is
read as that counts: where two targets are read as the same request, the decisions, what they change and what they
ask are the same. A target and options together are refused before anybody is asked anything.
-/

namespace Gatehouse

/-! ## 1. Readings of a target -/

namespace Engine

section Readings

variable {e : Engine} {target other : Value} (h : e.adapter.normalize target = e.adapter.normalize other)

include h

theorem decideWith_congr (answers : Value → Run Bool) (room : Nat) (host : Option Host) :
    decideWith answers room e target host = decideWith answers room e other host := by
  unfold decideWith buildCheck
  rw [h]

/-- Targets that are read as the same request are decided in the same way. -/
theorem decideAt_congr (depth : Nat) (host : Option Host) :
    decideAt depth e target host = decideAt depth e other host := by
  cases depth with
  | zero => rfl
  | succ depth => exact decideWith_congr h _ _ host

end Readings

theorem decide_congr {e : Engine} {target other : Value}
    (h : e.adapter.normalize (orNoOptions target) = e.adapter.normalize (orNoOptions other)) (host : Option Host) :
    e.decide target [] host = e.decide other [] host := by
  rw [decide_of_subjectOf (subjectOf_nil target host), decide_of_subjectOf (subjectOf_nil other host),
    decideAt_congr h]

end Engine

/-! ## 2. Options one by one -/

namespace Value

theorem equals_of_text? {v w : Value} {s t : String} (hv : v.text? = some s) (hw : w.text? = some t) :
    equals v w = (s == t) := by
  have hscalar : equals v w = equalsScalar v w := by
    cases v <;> cases hv <;> cases w <;> cases hw <;> simp only [equals]
  rw [hscalar, equalsScalar, hv, hw]

theorem put_of_new {entries : List (Value × Value)} {key : Value} (h : ∀ e ∈ entries, equals e.1 key = false)
    (value : Value) : put entries key value = entries ++ [(key, value)] := by
  induction entries with
  | nil => rfl
  | cons e rest ih =>
    obtain ⟨hkey, hrest⟩ := List.forall_mem_cons.1 h
    rw [put, hkey, if_neg Bool.false_ne_true, ih hrest]
    rfl

/-- Pairs with different keys are the entries of the mapping that they give. -/
theorem entriesOf_of_pairwise {pairs : List (Value × Value)}
    (h : pairs.Pairwise fun a b => equals a.1 b.1 = false) : entriesOf pairs = pairs := by
  have hfold : ∀ entries : List (Value × Value), (entries ++ pairs).Pairwise (fun a b => equals a.1 b.1 = false) →
      pairs.foldl (fun entries e => put entries e.1 e.2) entries = entries ++ pairs := by
    clear h
    induction pairs with
    | nil => exact fun entries _ => (List.append_nil entries).symm
    | cons pair pairs ih =>
      intro entries h
      have hnew : ∀ e ∈ entries, equals e.1 pair.1 = false := fun e he =>
        (List.pairwise_append.1 h).2.2 e he pair List.mem_cons_self
      rw [List.foldl_cons, put_of_new hnew, ih _ (by simpa using h), List.append_assoc]
      rfl
  exact hfold [] h

end Value

namespace Engine

/-- Options that can be given one by one: their names are texts, and no two are the same. -/
structure AreKeywords (options : List (Value × Value)) : Prop where
  texts : ∀ o ∈ options, ∃ name, o.1.text? = some name
  nodup : (options.map fun o => o.1.text?).Nodup

namespace AreKeywords

variable {options : List (Value × Value)} (h : AreKeywords options)

include h

theorem entriesOf : Value.entriesOf options = options := by
  apply Value.entriesOf_of_pairwise
  have hdifferent := List.pairwise_map.1 h.nodup
  refine hdifferent.imp_of_mem fun {a b} ha hb hne => ?_
  obtain ⟨s, hs⟩ := h.texts a ha
  obtain ⟨t, ht⟩ := h.texts b hb
  rw [Value.equals_of_text? hs ht]
  simpa [hs, ht] using hne

/-- None of them is taken for the host if none has its name. -/
theorem subjectOf_null (hhost : some "host" ∉ options.map fun o => o.1.text?) (host : Option Host) :
    subjectOf .null options host = .ok (.dict options, host) := by
  apply Engine.subjectOf_null h.entriesOf
  unfold Value.lookup
  rw [Option.map_eq_none_iff, List.find?_eq_none]
  intro o ho hequals
  have htext : o.1.text? = some "host" := by
    simpa [hostOption, Value.equals_text] using hequals
  exact hhost (htext ▸ List.mem_map_of_mem ho)

/-- Whatever host they name, an option with another name makes no sense beside a target. -/
theorem subjectOf_target {target : Value} (htarget : target ≠ .null)
    (hoption : ∃ o ∈ options, o.1.text? ≠ some "host") (host : Option Host) :
    subjectOf target options host = .error (.misconfigured .targetAndOptions) := by
  obtain ⟨o, ho, hname⟩ := hoption
  -- The option is still there when the one that names the host has been taken out.
  have hleft : o ∈ (splitHost (Value.entriesOf options) host).1 := by
    rw [h.entriesOf]
    unfold splitHost
    split
    · simpa [ho, hostOption, Value.equals_text] using hname
    · exact ho
  unfold subjectOf
  generalize splitHost (Value.entriesOf options) host = split at hleft
  obtain ⟨given, named⟩ := split
  have hgiven : given.isEmpty = false := by
    cases given with
    | nil => cases hleft
    | cons _ _ => rfl
  cases target with
  | null => exact absurd rfl htarget
  | _ => simp only [hgiven, Bool.false_eq_true, if_false]

end AreKeywords

/-- An option mapping, the same options one by one, and the request that they describe are three ways to ask for the
same decision: it comes to the same result in every world, and does the same there. Where there is a target, options
beside it are refused, and nothing is done. -/
theorem decide_target_forms (e : Engine) {options : List (Value × Value)} (h : AreKeywords options)
    (host : Option Host) :
    (some "host" ∉ options.map (fun o => o.1.text?) →
      ∀ request, Request.ofOptions (.dict options) = .ok request →
        e.decide (.dict options) [] host = e.decide request.toValue [] host ∧
          e.decide .null options host = e.decide request.toValue [] host) ∧
    ∀ target, target ≠ .null → (∃ o ∈ options, o.1.text? ≠ some "host") →
      ∀ w, e.decide target options host w = (.error (.misconfigured .targetAndOptions), w) := by
  constructor
  · intro hhost request hrequest
    -- The mapping is read as the request that it describes, and a request as itself.
    have hsame : e.adapter.normalize (.dict options) = e.adapter.normalize request.toValue := by
      rw [Adapter.normalize_request]
      exact hrequest
    have hmapping : e.decide (.dict options) [] host = e.decide request.toValue [] host := decide_congr hsame host
    refine ⟨hmapping, ?_⟩
    rw [← hmapping, decide_of_subjectOf (h.subjectOf_null hhost host),
      decide_of_subjectOf (subjectOf_nil (.dict options) host)]
    rfl
  · intro target htarget hoption w
    rw [decide_eq_subject, h.subjectOf_target htarget hoption]
    rfl

/-- Options with names that a call might take for its own, in spellings of several kinds. -/
def keywordSample : List (Value × Value) :=
  [(.text "target", .text "/users"), (.action "controller", .text "products"), (.text "self", .null),
    (.text "resource", .null), (.textMember "Field" "ACTION" "action", .text "show"),
    (.text "ids", .dict [(.text "id", .int 7)]), (.text "product_id", .int 8), (.text "id", .int 9)]

theorem decide_target_forms_sample :
    let request : Request := ⟨.null, .text "products", .text "show", [("id", .int 7), ("product_id", .int 8)]⟩
    AreKeywords keywordSample ∧ Request.ofOptions (.dict keywordSample) = .ok request ∧
      sample.decide (.dict keywordSample) [] none = sample.decide request.toValue [] none ∧
      sample.decide .null keywordSample none = sample.decide request.toValue [] none ∧
      ∀ w, sample.decide (.text "/products/show") keywordSample none w =
        (.error (.misconfigured .targetAndOptions), w) := by
  intro request
  have hkeywords : AreKeywords keywordSample :=
    ⟨by simp [keywordSample, Value.text?], by decide +kernel⟩
  have hrequest : Request.ofOptions (.dict keywordSample) = .ok request := by with_unfolding_all rfl
  obtain ⟨hforms, hrefused⟩ := decide_target_forms sample hkeywords none
  obtain ⟨hmapping, honeByOne⟩ := hforms (by decide +kernel) request hrequest
  have hoption : ∃ o ∈ keywordSample, o.1.text? ≠ some "host" :=
    ⟨_, List.mem_cons_self, by simp [Value.text?]⟩
  exact ⟨hkeywords, hrequest, hmapping, honeByOne, hrefused _ (by simp) hoption⟩

end Engine

end Gatehouse
