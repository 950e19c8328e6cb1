import Gatehouse.Loading
import Mathlib.Data.List.Basic

/-!
# Names — the chain of packages above a module

A dotted name stands below all its prefixes. To import it, those of the chain that are missing are
imported from the top down. A name put below a package has the package's chain and itself behind it,
and so what is pending for it is what is pending for the package, and then the module.
-/

namespace Gatehouse

namespace Library

/-! ## 1. Chains -/

theorem chainOf_eq_concat (name : String) : ∃ above, chainOf name = above ++ [name] := by
  unfold chainOf
  obtain ⟨n, hn⟩ : ∃ n, (Text.pieces '.' name.toList).length = n + 1 :=
    Nat.exists_eq_succ_of_ne_zero fun h0 =>
      Text.pieces_ne_nil '.' name.toList (List.length_eq_zero_iff.1 h0)
  -- The longest prefix is the whole name, as the pieces joined again are the text.
  simp only [hn, List.range_succ, List.map_append, List.map_cons, List.map_nil]
  rw [List.take_of_length_le (by omega), Text.intercalate_pieces, String.ofList_toList]
  exact ⟨_, rfl⟩

theorem chainOf_child (package : String) {s : String} (hs : '.' ∉ s.toList) :
    chainOf (package ++ "." ++ s) = chainOf package ++ [package ++ "." ++ s] := by
  have hparts : Text.pieces '.' (package ++ "." ++ s).toList =
      Text.pieces '.' package.toList ++ [s.toList] := by
    rw [String.toList_append, String.toList_append, List.append_assoc]
    change Text.pieces '.' (package.toList ++ '.' :: s.toList) = _
    rw [Text.pieces_append, Text.pieces_of_not_mem hs]
  have hwhole : List.intercalate ['.'] (Text.pieces '.' package.toList ++ [s.toList]) =
      (package ++ "." ++ s).toList := by
    rw [← hparts, Text.intercalate_pieces]
  unfold chainOf
  simp only [hparts, List.length_append, List.length_singleton, List.range_succ, List.map_append,
    List.map_cons, List.map_nil]
  -- The shorter prefixes do not reach the last piece, and the longest one is the whole name.
  refine congrArg₂ (· ++ ·) ?_ ?_
  · refine List.map_congr_left fun n hn => ?_
    rw [List.take_append_of_le_length (List.mem_range.1 hn)]
  · rw [List.take_of_length_le (by simp), hwhole, String.ofList_toList]

/-- The chain of a name in a chain is what there is of the chain down to this name. -/
theorem chainOf_of_append {name n : String} {above below : List String}
    (h : chainOf name = above ++ n :: below) : chainOf n = above ++ [n] := by
  have hdown : above ++ [n] = (chainOf name).take (above.length + 1) := by
    rw [h, List.take_append, List.take_of_length_le (by omega)]
    simp
  have hlength : above.length < (Text.pieces '.' name.toList).length := by
    have hchain := congrArg List.length h
    simp only [chainOf, List.length_map, List.length_range, List.length_append, List.length_cons] at hchain
    omega
  -- The name itself is made of the first pieces, and it has no others.
  have hname : n = String.ofList (List.intercalate ['.']
      ((Text.pieces '.' name.toList).take (above.length + 1))) := by
    have hn : (chainOf name)[above.length]? = some n := by simp [h]
    simp only [chainOf, List.getElem?_map, List.getElem?_range hlength, Option.map_some, Option.some.injEq] at hn
    exact hn.symm
  have hpieces : Text.pieces '.' n.toList = (Text.pieces '.' name.toList).take (above.length + 1) := by
    rw [hname, String.toList_ofList]
    refine Text.pieces_intercalate (fun hnil => ?_) fun part hpart =>
      Text.not_mem_of_mem_pieces (List.mem_of_mem_take hpart)
    exact (List.take_eq_nil_iff.1 hnil).elim (Nat.succ_ne_zero _) (Text.pieces_ne_nil _ _)
  rw [hdown]
  unfold chainOf
  simp only [hpieces, List.length_take, Nat.min_eq_left hlength, ← List.map_take, List.take_range]
  refine List.map_congr_left fun j hj => ?_
  have hj := List.mem_range.1 hj
  rw [List.take_take, Nat.min_eq_left (by omega)]

/-! ## 2. What is pending -/

variable {lib : Library} {name : String}

theorem pending_of_imported (h : name ∈ lib.imported) : lib.pending name = [] := by
  obtain ⟨above, habove⟩ := chainOf_eq_concat name
  unfold pending
  rw [habove, List.reverse_append, List.reverse_singleton, List.singleton_append,
    List.takeWhile_cons_of_neg (by simpa using h), List.reverse_nil]

theorem pending_of_not_imported (h : name ∉ lib.imported) :
    ∃ above, lib.pending name = above ++ [name] := by
  obtain ⟨above, habove⟩ := chainOf_eq_concat name
  unfold pending
  rw [habove, List.reverse_append, List.reverse_singleton, List.singleton_append,
    List.takeWhile_cons_of_pos (by simpa using h), List.reverse_cons]
  exact ⟨_, rfl⟩

/-- What is pending for a name is the end of its chain, behind what is there already. -/
theorem chainOf_eq_append_pending (lib : Library) (name : String) :
    ∃ above, chainOf name = above ++ lib.pending name ∧ ∀ n ∈ above.getLast?, n ∈ lib.imported := by
  refine ⟨((chainOf name).reverse.dropWhile fun n => !lib.imported.contains n).reverse, ?_, fun n hn => ?_⟩
  · unfold pending
    rw [← List.reverse_append, List.takeWhile_append_dropWhile, List.reverse_reverse]
  · rw [List.getLast?_reverse] at hn
    have := List.head?_dropWhile_not (fun n => !lib.imported.contains n) (chainOf name).reverse
    rw [hn] at this
    simpa using this

theorem mem_chainOf_of_mem_pending {n : String} (h : n ∈ lib.pending name) : n ∈ chainOf name := by
  obtain ⟨above, hchain, -⟩ := chainOf_eq_append_pending lib name
  rw [hchain]
  exact List.mem_append_right above h

theorem length_pending_le (lib : Library) (name : String) :
    (lib.pending name).length ≤ (chainOf name).length := by
  obtain ⟨above, hchain, -⟩ := chainOf_eq_append_pending lib name
  rw [hchain, List.length_append]
  omega

/-- What is pending for a module is what is pending for its package, and then the module. -/
theorem pending_child {package s : String} (hs : '.' ∉ s.toList)
    (h : package ++ "." ++ s ∉ lib.imported) :
    lib.pending (package ++ "." ++ s) = lib.pending package ++ [package ++ "." ++ s] := by
  unfold pending
  rw [chainOf_child package hs, List.reverse_append, List.reverse_singleton, List.singleton_append,
    List.takeWhile_cons_of_pos (by simpa using h), List.reverse_cons]

/-- Behind what is there already, the next name of a chain is all that is pending for it. -/
theorem pending_of_above {n : String} {above below : List String} (h : chainOf name = above ++ n :: below)
    (habove : ∀ m ∈ above.getLast?, m ∈ lib.imported) (hn : n ∉ lib.imported) : lib.pending n = [n] := by
  unfold pending
  rw [chainOf_of_append h, List.reverse_append, List.reverse_singleton, List.singleton_append,
    List.takeWhile_cons_of_pos (by simpa using hn)]
  rw [← List.head?_reverse] at habove
  cases hrev : above.reverse with
  | nil => rfl
  | cons last rest =>
    have hlast := habove last (by rw [hrev]; rfl)
    rw [List.takeWhile_cons_of_neg (by simpa using hlast)]
    rfl

end Library

end Gatehouse
