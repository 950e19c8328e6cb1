import Gatehouse.Handler
import Gatehouse.Proofs.Runs

/-!
# Descent — the order in which a class asks those it is derived from

Orders are merged by taking one class after the other that heads some of them and stands behind the head of none. What
comes out has every class once, and goes with every order that was given; and something comes out if there is any such
order at all. So a class asks its bases in the order in which they are given, and after each of them all that this one
asks, in the order in which it does, and bases are refused only if no order of all these classes does that.
-/

namespace Gatehouse

namespace Descent

/-! ## 1. Merging orders -/

variable {orders : List (List Nat)} {merged : List Nat} {c : Nat}

/-- An order of the classes in all of these orders, which goes with each of them. -/
structure Merges (orders : List (List Nat)) (merged : List Nat) : Prop where
  nodup : merged.Nodup
  keeps : ∀ order ∈ orders, order.Sublist merged
  only : ∀ c ∈ merged, ∃ order ∈ orders, c ∈ order

theorem not_mem_tail_of_next? (h : next? orders = some c) : ∀ order ∈ orders, c ∉ order.tail := by
  have hall := List.find?_some h
  intro order horder hc
  have htail := List.all_eq_true.1 hall order horder
  rw [List.contains_iff_mem.2 hc] at htail
  cases htail

/-- The class that comes next stands in no order twice. -/
theorem not_mem_erase {order : List Nat} (h : c ∉ order.tail) : c ∉ order.erase c := by
  cases order with
  | nil => exact List.not_mem_nil
  | cons d rest =>
    by_cases hd : d = c
    · subst hd
      rwa [List.erase_cons_head]
    · have hrest : c ∉ rest := h
      have hcons : c ∉ d :: rest := List.not_mem_cons_of_ne_of_not_mem (Ne.symm hd) hrest
      rwa [List.erase_of_not_mem hcons]

/-- An order goes with one that has the class in front, if its rest goes with the rest. -/
theorem sublist_cons_of_erase {order rest : List Nat} (hc : c ∉ order.tail) (h : (order.erase c).Sublist rest) :
    order.Sublist (c :: rest) := by
  cases order with
  | nil => exact List.nil_sublist _
  | cons d tail =>
    by_cases hd : d = c
    · subst hd
      rw [List.erase_cons_head] at h
      exact h.cons_cons d
    · have hnot : c ∉ d :: tail := List.not_mem_cons_of_ne_of_not_mem (Ne.symm hd) hc
      rw [List.erase_of_not_mem hnot] at h
      exact h.cons c

theorem Merges.cons {rest : List Nat} (hnext : next? orders = some c) (h : Merges (without c orders) rest) :
    Merges orders (c :: rest) where
  nodup := by
    refine List.nodup_cons.2 ⟨fun hc => ?_, h.nodup⟩
    obtain ⟨_, hleft, hmem⟩ := h.only c hc
    obtain ⟨order, horder, rfl⟩ := List.mem_map.1 hleft
    exact not_mem_erase (not_mem_tail_of_next? hnext order horder) hmem
  keeps order horder :=
    sublist_cons_of_erase (not_mem_tail_of_next? hnext order horder) (h.keeps _ (List.mem_map_of_mem horder))
  only d hd := by
    rcases List.mem_cons.1 hd with rfl | hd
    · obtain ⟨order, horder, hhead⟩ := exists_head_of_next? hnext
      exact ⟨order, horder, List.mem_of_mem_head? hhead⟩
    · obtain ⟨_, hleft, hmem⟩ := h.only d hd
      obtain ⟨order, horder, rfl⟩ := List.mem_map.1 hleft
      exact ⟨order, horder, List.mem_of_mem_erase hmem⟩

theorem merge_of_next? (hleft : ¬ orders.all List.isEmpty = true) (hnext : next? orders = some c) :
    merge orders = (merge (without c orders)).map (c :: ·) := by
  rw [merge, if_neg hleft]
  split
  · rename_i hnone
    rw [hnext] at hnone
    cases hnone
  · rename_i d hsome
    rw [hnext] at hsome
    cases hsome
    rfl

theorem merge_of_no_next? (hleft : ¬ orders.all List.isEmpty = true) (hnext : next? orders = none) :
    merge orders = none := by
  rw [merge, if_neg hleft]
  split
  · rfl
  · rename_i hsome
    rw [hnext] at hsome
    cases hsome

theorem merges_of_merge (h : merge orders = some merged) : Merges orders merged := by
  induction orders using merge.induct generalizing merged with
  | case1 orders hempty =>
    rw [merge, if_pos hempty] at h
    cases h
    refine ⟨.nil, fun order horder => ?_, fun c hc => absurd hc List.not_mem_nil⟩
    rw [List.isEmpty_iff.1 (List.all_eq_true.1 hempty order horder)]
  | case2 orders hleft hnext =>
    rw [merge_of_no_next? hleft hnext] at h
    cases h
  | case3 orders hleft c hnext ih =>
    rw [merge_of_next? hleft hnext] at h
    obtain ⟨rest, hrest, rfl⟩ := Option.map_eq_some_iff.1 h
    exact (ih hrest).cons hnext

/-- An order that goes with all others begins with a class which can come first. -/
theorem exists_next?_of_merges (hleft : ¬ orders.all List.isEmpty = true) (h : Merges orders merged) :
    ∃ c, next? orders = some c := by
  cases merged with
  | nil =>
    refine absurd (List.all_eq_true.2 fun order horder => ?_) hleft
    rw [List.sublist_nil.1 (h.keeps order horder)]
    rfl
  | cons c rest =>
    have hnot : c ∉ rest := (List.nodup_cons.1 h.nodup).1
    -- No order has the class behind another one, because what stands behind it comes out of the rest.
    have hfirst : ∀ order ∈ orders, c ∉ order.tail ∧ (c ∈ order → order.head? = some c) := by
      intro order horder
      obtain hwithout | ⟨tail, rfl, htail⟩ := List.sublist_cons_iff.1 (h.keeps order horder)
      · have hc : c ∉ order := fun hc => hnot (hwithout.subset hc)
        exact ⟨fun hc' => hc (List.mem_of_mem_tail hc'), fun hc' => absurd hc' hc⟩
      · exact ⟨fun hc => hnot (htail.subset hc), fun _ => rfl⟩
    obtain ⟨order, horder, hmem⟩ := h.only c List.mem_cons_self
    have hhead := List.mem_filterMap.2 ⟨order, horder, (hfirst order horder).2 hmem⟩
    refine Option.isSome_iff_exists.1 (List.find?_isSome.2 ⟨c, hhead, List.all_eq_true.2 fun other hother => ?_⟩)
    simpa using (hfirst other hother).1

theorem Merges.without (h : Merges orders merged) (c : Nat) : Merges (without c orders) (merged.erase c) where
  nodup := h.nodup.erase c
  keeps _ hleft := by
    obtain ⟨order, horder, rfl⟩ := List.mem_map.1 hleft
    exact (h.keeps order horder).erase c
  only d hd := by
    obtain ⟨hne, hd⟩ := h.nodup.mem_erase_iff.1 hd
    obtain ⟨order, horder, hmem⟩ := h.only d hd
    exact ⟨order.erase c, List.mem_map_of_mem horder, (List.mem_erase_of_ne hne).2 hmem⟩

/-- Orders are merged if there is any order that goes with all of them: taking the first class that can come next
never leads astray. -/
theorem exists_merge_of_merges (h : Merges orders merged) : ∃ found, merge orders = some found := by
  induction orders using merge.induct generalizing merged with
  | case1 orders hempty => exact ⟨[], by rw [merge, if_pos hempty]⟩
  | case2 orders hleft hnone =>
    obtain ⟨c, hnext⟩ := exists_next?_of_merges hleft h
    rw [hnone] at hnext
    cases hnext
  | case3 orders hleft c hnext ih =>
    obtain ⟨rest, hrest⟩ := ih (h.without c)
    exact ⟨c :: rest, by rw [merge_of_next? hleft hnext, hrest, Option.map_some]⟩

end Descent

namespace Handler

/-! ## 2. The order behind a class -/

/-- What a class with these bases asks after itself: its bases, as they are given, and behind each of them what this
one asks, as it does. All of it is asked once, and nothing else is. -/
structure Descends (handlers : List Handler) (bases ancestors : List Nat) : Prop where
  nodup : ancestors.Nodup
  given : bases.Sublist ancestors
  each : ∀ b ∈ bases, ∃ h, handlers[b]? = some h ∧ (b :: h.ancestors).Sublist ancestors
  only : ∀ j ∈ ancestors, ∃ b ∈ bases, ∃ h, handlers[b]? = some h ∧ j ∈ b :: h.ancestors

variable {handlers : List Handler} {d : Definition} {ancestors : List Nat}

theorem orderOf_eq_ok {b : Nat} {order : List Nat} (h : orderOf handlers b = .ok order) :
    ∃ base, handlers[b]? = some base ∧ order = b :: base.ancestors := by
  unfold orderOf at h
  cases hb : handlers[b]? with
  | none =>
    rw [hb] at h
    cases h
  | some base =>
    rw [hb] at h
    cases h
    exact ⟨base, rfl, rfl⟩

/-- Going with the orders of the bases and with the bases as they are given is what descent asks for. -/
theorem merges_iff_descends {bases : List Nat} {orders : List (List Nat)}
    (horders : bases.mapM (orderOf handlers) = .ok orders) :
    Descent.Merges (orders ++ [bases]) ancestors ↔ Descends handlers bases ancestors := by
  have hthere : ∀ b ∈ bases, ∃ base, handlers[b]? = some base ∧ b :: base.ancestors ∈ orders := by
    intro b hb
    obtain ⟨order, horder, hof⟩ := exists_result_of_mapM horders hb
    obtain ⟨base, hbase, rfl⟩ := orderOf_eq_ok hof
    exact ⟨base, hbase, horder⟩
  have horigin : ∀ order ∈ orders, ∃ b ∈ bases, ∃ base, handlers[b]? = some base ∧ order = b :: base.ancestors := by
    intro order horder
    obtain ⟨b, hb, hof⟩ := exists_origin_of_mapM horders horder
    exact ⟨b, hb, orderOf_eq_ok hof⟩
  constructor
  · intro h
    refine ⟨h.nodup, h.keeps bases (List.mem_append_right _ List.mem_cons_self), fun b hb => ?_, fun j hj => ?_⟩
    · obtain ⟨base, hbase, horder⟩ := hthere b hb
      exact ⟨base, hbase, h.keeps _ (List.mem_append_left _ horder)⟩
    · obtain ⟨order, horder, hmem⟩ := h.only j hj
      obtain horder | horder := List.mem_append.1 horder
      · obtain ⟨b, hb, base, hbase, rfl⟩ := horigin order horder
        exact ⟨b, hb, base, hbase, hmem⟩
      -- A base stands in front of its own order.
      · cases List.mem_singleton.1 horder
        obtain ⟨base, hbase, -⟩ := hthere j hmem
        exact ⟨j, hmem, base, hbase, List.mem_cons_self⟩
  · intro h
    refine ⟨h.nodup, fun order horder => ?_, fun j hj => ?_⟩
    · obtain horder | horder := List.mem_append.1 horder
      · obtain ⟨b, hb, base, hbase, rfl⟩ := horigin order horder
        obtain ⟨_, hbase', hkept⟩ := h.each b hb
        cases hbase.symm.trans hbase'
        exact hkept
      · cases List.mem_singleton.1 horder
        exact h.given
    · obtain ⟨b, hb, base, hbase, hmem⟩ := h.only j hj
      obtain ⟨_, hbase', horder⟩ := hthere b hb
      cases hbase.symm.trans hbase'
      exact ⟨_, List.mem_append_left _ horder, hmem⟩

theorem descends_of_ancestorsIn (h : d.ancestorsIn handlers = .ok ancestors) :
    Descends handlers d.bases ancestors := by
  unfold Definition.ancestorsIn at h
  obtain ⟨orders, horders, h⟩ := bind_eq_ok_iff.1 h
  cases hmerge : Descent.merge (orders ++ [d.bases]) with
  | none =>
    rw [hmerge] at h
    cases h
  | some merged =>
    rw [hmerge] at h
    cases h
    exact (merges_iff_descends horders).1 (Descent.merges_of_merge hmerge)

/-- Bases do not contradict each other if there is any order that goes with them. -/
theorem exists_ancestorsIn_iff :
    (∃ found, d.ancestorsIn handlers = .ok found) ↔ ∃ ancestors, Descends handlers d.bases ancestors := by
  constructor
  · rintro ⟨found, h⟩
    exact ⟨found, descends_of_ancestorsIn h⟩
  · rintro ⟨ancestors, hdescends⟩
    obtain ⟨orders, horders⟩ : ∃ orders, d.bases.mapM (orderOf handlers) = .ok orders :=
      exists_mapM_of_forall fun b hb => by
        obtain ⟨base, hbase, -⟩ := hdescends.each b hb
        exact ⟨b :: base.ancestors, by rw [orderOf, hbase]⟩
    obtain ⟨found, hfound⟩ := Descent.exists_merge_of_merges ((merges_iff_descends horders).2 hdescends)
    refine ⟨found, ?_⟩
    unfold Definition.ancestorsIn
    rw [bind_of_eq_ok horders, hfound]
    rfl

/-- What a definition makes of itself before anything is declared. A class is a handler if it is derived from one, and
a handler has a resource of its own, whatever those have that it is derived from. -/
structure Definition.Makes (d : Definition) (w : World) (made : Handler) : Prop where
  descends : Descends w.handlers d.bases made.ancestors
  guarded : made.guarded = true ↔ ∃ j ∈ made.ancestors, ∃ h, w.handlers[j]? = some h ∧ h.guarded = true
  named : made.guarded = true →
    Name.resource (d.resourceName.getD (.text (resourceNameOf d.name))) = .ok made.resourceName
  registry : made.registry = d.registry
  engine : made.engine = none

theorem makes_of_make {w : World} {made : Handler} (h : d.make w = .ok made) : d.Makes w made := by
  unfold Definition.make at h
  split at h
  · cases h
  · obtain ⟨ancestors, hancestors, h⟩ := bind_eq_ok_iff.1 h
    obtain ⟨name, hname, h⟩ := bind_eq_ok_iff.1 h
    cases h
    refine ⟨descends_of_ancestorsIn hancestors, ?_, fun hguarded => ?_, rfl, rfl⟩
    · simp only [List.any_eq_true, Option.any_eq_true]
    · unfold Definition.nameIn at hname
      rw [if_pos hguarded] at hname
      exact hname

/-! ## 3. Classes in a row -/

/-- Every class comes after those that it asks, and asks each of them before those that this one asks. -/
structure AreOrdered (handlers : List Handler) : Prop where
  below : ∀ {i : Nat} {h : Handler}, handlers[i]? = some h → ∀ j ∈ h.ancestors, j < i
  keeps : ∀ {i j : Nat} {h k : Handler}, handlers[i]? = some h → j ∈ h.ancestors → handlers[j]? = some k →
    (j :: k.ancestors).Sublist h.ancestors

theorem areOrdered_root : AreOrdered [root] := by
  have hroot : ∀ {i : Nat} {h : Handler}, [root][i]? = some h → h.ancestors = [] := by
    intro i h hi
    rw [List.getElem?_singleton] at hi
    split at hi
    · cases hi
      rfl
    · cases hi
  refine ⟨fun hi j hj => ?_, fun hi hj _ => ?_⟩
  · rw [hroot hi] at hj
    cases hj
  · rw [hroot hi] at hj
    cases hj

/-- Behind the classes that were there is the new one, and nothing else. -/
theorem mem_of_getElem?_concat {made h : Handler} {i : Nat} (hi : (handlers ++ [made])[i]? = some h) :
    handlers[i]? = some h ∨ i = handlers.length ∧ h = made := by
  rw [List.getElem?_append] at hi
  split at hi
  · exact .inl hi
  · rename_i hbehind
    rw [List.getElem?_singleton] at hi
    split at hi
    · exact .inr ⟨by omega, (Option.some.inj hi).symm⟩
    · cases hi

theorem Descends.lt_length {bases : List Nat} (h : AreOrdered handlers) (hdescends : Descends handlers bases ancestors) :
    ∀ j ∈ ancestors, j < handlers.length := by
  intro j hj
  obtain ⟨b, -, base, hbase, hmem⟩ := hdescends.only j hj
  have hlength := (List.getElem?_eq_some_iff.1 hbase).1
  rcases List.mem_cons.1 hmem with rfl | hmem
  · exact hlength
  · exact Nat.lt_trans (h.below hbase j hmem) hlength

theorem areOrdered_concat {made : Handler} {bases : List Nat} (h : AreOrdered handlers)
    (hdescends : Descends handlers bases made.ancestors) : AreOrdered (handlers ++ [made]) where
  below {i found} hi j hj := by
    rcases mem_of_getElem?_concat hi with hold | ⟨rfl, rfl⟩
    · exact h.below hold j hj
    · exact hdescends.lt_length h j hj
  keeps {i j found k} hi hj hk := by
    have hbefore : j < handlers.length → handlers[j]? = some k := fun hlt => by
      rwa [List.getElem?_append_left hlt] at hk
    rcases mem_of_getElem?_concat hi with hold | ⟨rfl, rfl⟩
    · have hlength := (List.getElem?_eq_some_iff.1 hold).1
      exact h.keeps hold hj (hbefore (Nat.lt_trans (h.below hold j hj) hlength))
    -- What a new class asks stands in the order of one of its bases.
    · obtain ⟨b, hb, base, hbase, hmem⟩ := hdescends.only j hj
      obtain ⟨_, hbase', hkept⟩ := hdescends.each b hb
      cases hbase.symm.trans hbase'
      have hthere := hbefore (hdescends.lt_length h j hj)
      rcases List.mem_cons.1 hmem with rfl | hmem
      · cases hbase.symm.trans hthere
        exact hkept
      · exact ((h.keeps hbase hmem hthere).cons b).trans hkept

end Handler

end Gatehouse
