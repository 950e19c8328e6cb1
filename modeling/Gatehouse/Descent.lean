/-!
The order in which a class asks the classes that it is derived from. It is put together from the orders of its bases
and from the bases themselves, as they are given: next comes the first class that heads one of them and stands behind
the head in none. If there is no such class, the bases contradict each other.
-/

namespace Gatehouse.Descent

/-- The class that comes next. -/
def next? (orders : List (List Nat)) : Option Nat :=
  (orders.filterMap List.head?).find? fun c => orders.all fun order => !order.tail.contains c

def without (c : Nat) (orders : List (List Nat)) : List (List Nat) := orders.map (·.erase c)

/-- What there is of all orders together. -/
def size (orders : List (List Nat)) : Nat := orders.flatten.length

theorem size_cons (order : List Nat) (rest : List (List Nat)) : size (order :: rest) = order.length + size rest := by
  simp [size]

theorem size_without_cons (c : Nat) (order : List Nat) (rest : List (List Nat)) :
    size (without c (order :: rest)) = (order.erase c).length + size (without c rest) :=
  size_cons (order.erase c) (without c rest)

theorem size_without_le (c : Nat) (orders : List (List Nat)) : size (without c orders) ≤ size orders := by
  induction orders with
  | nil => exact Nat.le_refl _
  | cons order rest ih =>
    have hfirst : (order.erase c).length ≤ order.length := List.length_erase_le
    rw [size_without_cons, size_cons]
    omega

theorem size_without_lt {orders : List (List Nat)} {order : List Nat} {c : Nat} (horder : order ∈ orders)
    (hc : c ∈ order) : size (without c orders) < size orders := by
  induction orders with
  | nil => cases horder
  | cons first rest ih =>
    rw [size_without_cons, size_cons]
    rcases List.mem_cons.1 horder with rfl | hrest
    · have hlength := List.length_erase_of_mem hc
      have hpositive := List.length_pos_of_mem hc
      have hle := size_without_le c rest
      omega
    · have hfirst : (first.erase c).length ≤ first.length := List.length_erase_le
      have hlt := ih hrest
      omega

theorem exists_head_of_next? {orders : List (List Nat)} {c : Nat} (h : next? orders = some c) :
    ∃ order ∈ orders, order.head? = some c :=
  List.mem_filterMap.1 (List.mem_of_find?_eq_some h)

/-- One order of all classes that goes with all the given ones, if there is one. -/
def merge (orders : List (List Nat)) : Option (List Nat) :=
  if orders.all List.isEmpty then some []
  else match _hnext : next? orders with
    | none => none
    | some c => (merge (without c orders)).map (c :: ·)
  termination_by size orders
  decreasing_by
    obtain ⟨order, horder, hhead⟩ := exists_head_of_next? _hnext
    exact size_without_lt horder (List.mem_of_mem_head? hhead)

end Gatehouse.Descent
