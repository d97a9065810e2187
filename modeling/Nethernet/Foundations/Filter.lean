import Mathlib.Data.List.Basic

/-!
# Positions in a list

What is where when an element is replaced or one more is appended, and positions in a filtered list.
`rank p l i` is the position that the element `i` of `l` has among those that satisfy `p`. Elements
that are replaced by elements of the same kind keep their ranks, and the filtered list changes at
the rank or not at all.
-/

namespace Foundations

variable {α : Type*}

section Table

variable {l : List α} {i j : ℕ} {x y z : α}

theorem getElem?_set_eq_some (h : l[i]? = some x) :
    (l.set i y)[j]? = some z ↔ (i = j ∧ z = y) ∨ (i ≠ j ∧ l[j]? = some z) := by
  obtain ⟨hi, -⟩ := List.getElem?_eq_some_iff.1 h
  rw [List.getElem?_set]
  by_cases hij : i = j
  · subst hij
    simp [hi, eq_comm]
  · simp [hij]

theorem getElem?_concat_eq_some :
    (l ++ [x])[j]? = some z ↔ l[j]? = some z ∨ (j = l.length ∧ z = x) := by
  rw [List.getElem?_append]
  by_cases hj : j < l.length
  · have hne : ¬ j = l.length := by omega
    simp [hj, hne]
  · have hnone : l[j]? = none := List.getElem?_eq_none (by omega)
    have hidx : j - l.length = 0 ↔ j = l.length := by omega
    simp [hj, List.getElem?_singleton, hidx, eq_comm]

theorem set_getElem?_self (h : l[i]? = some x) : l.set i x = l := by
  obtain ⟨hi, rfl⟩ := List.getElem?_eq_some_iff.1 h
  exact List.set_getElem_self hi

end Table

/-- How many of the first `i` elements satisfy `p`. -/
def rank (p : α → Bool) (l : List α) (i : ℕ) : ℕ := ((l.take i).filter p).length

variable {p : α → Bool} {l : List α} {i j : ℕ} {x y : α}

theorem eq_append_of_getElem? (h : l[i]? = some x) : l = l.take i ++ x :: l.drop (i + 1) := by
  obtain ⟨hi, rfl⟩ := List.getElem?_eq_some_iff.1 h
  rw [List.getElem_cons_drop, List.take_append_drop]

theorem set_eq_append (h : l[i]? = some x) : l.set i y = l.take i ++ y :: l.drop (i + 1) := by
  obtain ⟨hi, -⟩ := List.getElem?_eq_some_iff.1 h
  rw [List.set_eq_take_append_cons_drop, if_pos hi]

/-- An element is at its rank. -/
theorem getElem?_filter_rank (h : l[i]? = some x) (hx : p x = true) :
    (l.filter p)[rank p l i]? = some x := by
  conv_lhs => arg 1; rw [eq_append_of_getElem? h]
  rw [List.filter_append, List.filter_cons_of_pos hx, rank,
    List.getElem?_append_right (Nat.le_refl _), Nat.sub_self]
  rfl

theorem filter_set_of_pos (h : l[i]? = some x) (hx : p x = true) (hy : p y = true) :
    (l.set i y).filter p = (l.filter p).set (rank p l i) y := by
  conv_rhs => arg 1; rw [eq_append_of_getElem? h]
  rw [set_eq_append h, List.filter_append, List.filter_append, List.filter_cons_of_pos hx,
    List.filter_cons_of_pos hy, rank, List.set_append_right _ _ (Nat.le_refl _), Nat.sub_self]
  rfl

theorem filter_set_of_neg (h : l[i]? = some x) (hx : p x = false) (hy : p y = false) :
    (l.set i y).filter p = l.filter p := by
  conv_rhs => rw [eq_append_of_getElem? h]
  rw [set_eq_append h, List.filter_append, List.filter_append,
    List.filter_cons_of_neg (by simp [hy]), List.filter_cons_of_neg (by simp [hx])]

/-- An element replaced by one of the same kind leaves the ranks alone. -/
theorem rank_set (h : l[i]? = some x) (hxy : p y = p x) (j : ℕ) :
    rank p (l.set i y) j = rank p l j := by
  rw [rank, rank, List.take_set]
  by_cases hij : i < j
  · have hi : (l.take j)[i]? = some x := by rw [List.getElem?_take_of_lt hij, h]
    by_cases hx : p x = true
    · rw [filter_set_of_pos hi hx (hxy.trans hx), List.length_set]
    · rw [Bool.not_eq_true] at hx
      rw [filter_set_of_neg hi hx (hxy.trans hx)]
  · rw [List.set_eq_of_length_le (by rw [List.length_take]; omega)]

theorem rank_append (hi : i ≤ l.length) (l' : List α) : rank p (l ++ l') i = rank p l i := by
  rw [rank, rank, List.take_append_of_le_length hi]

theorem rank_length : rank p l l.length = (l.filter p).length := by
  rw [rank, List.take_length]

/-- Elements that satisfy `p` have different ranks. -/
theorem rank_lt (h : l[i]? = some x) (hx : p x = true) (hij : i < j) :
    rank p l i < rank p l j := by
  have hi : (l.take j)[i]? = some x := by rw [List.getElem?_take_of_lt hij, h]
  have hsplit := eq_append_of_getElem? hi
  rw [List.take_take, Nat.min_eq_left (Nat.le_of_lt hij)] at hsplit
  rw [rank, rank, hsplit, List.filter_append, List.filter_cons_of_pos hx, List.length_append,
    List.length_cons]
  omega

theorem rank_inj (hi : l[i]? = some x) (hx : p x = true) (hj : l[j]? = some y) (hy : p y = true) :
    rank p l i = rank p l j ↔ i = j := by
  refine ⟨fun h => ?_, fun h => h ▸ rfl⟩
  rcases Nat.lt_trichotomy i j with hij | rfl | hij
  · have := rank_lt hi hx hij
    omega
  · rfl
  · have := rank_lt hj hy hij
    omega

end Foundations
