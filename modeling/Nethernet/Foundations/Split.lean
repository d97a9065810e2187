import Mathlib.Data.List.TakeWhile

/-!
# Splitting at a separator

`splitn n sep l` cuts `l` at the first `n - 1` occurrences of `sep`, so that the last of at most `n`
pieces is all that remains.
-/

namespace Foundations

variable {α : Type*} [DecidableEq α]

/-- Cut a list at the first `n - 1` separators. -/
def splitn : ℕ → α → List α → List (List α)
  | 0, _, _ => []
  | 1, _, l => [l]
  | n + 2, sep, l =>
    if sep ∈ l then
      l.takeWhile (· ≠ sep) :: splitn (n + 1) sep (l.dropWhile (· ≠ sep)).tail
    else [l]

/-- **A piece without the separator is cut off** in front of the first one. -/
theorem splitn_append (n : ℕ) {sep : α} {l : List α} (h : sep ∉ l) (rest : List α) :
    splitn (n + 2) sep (l ++ sep :: rest) = l :: splitn (n + 1) sep rest := by
  have hl : ∀ x ∈ l, decide (x ≠ sep) = true := fun x hx =>
    decide_eq_true fun he => h (he ▸ hx)
  have htake : (l ++ sep :: rest).takeWhile (· ≠ sep) = l := by
    rw [List.takeWhile_append_of_pos hl]
    simp
  have hdrop : (l ++ sep :: rest).dropWhile (· ≠ sep) = sep :: rest := by
    rw [List.dropWhile_append_of_pos hl]
    simp
  rw [splitn, if_pos (by simp), htake, hdrop, List.tail_cons]

/-- **A cut of two pieces or more** was made at the first separator. -/
theorem splitn_eq_cons_cons {n : ℕ} {sep : α} {l p q : List α} {rest : List (List α)}
    (h : splitn (n + 2) sep l = p :: q :: rest) :
    sep ∉ p ∧ ∃ tail, l = p ++ sep :: tail ∧ splitn (n + 1) sep tail = q :: rest := by
  by_cases hmem : sep ∈ l
  · obtain ⟨first, tail, rfl, hfirst⟩ := List.eq_append_cons_of_mem hmem
    rw [splitn_append n hfirst] at h
    obtain ⟨rfl, hrest⟩ := List.cons.inj h
    exact ⟨hfirst, tail, rfl, hrest⟩
  · rw [splitn, if_neg hmem] at h
    cases h

/-- There are at most so many pieces. -/
theorem length_splitn_le (n : ℕ) (sep : α) (l : List α) : (splitn n sep l).length ≤ n := by
  fun_induction splitn n sep l with
  | case1 | case2 | case4 => simp
  | case3 n l _ ih =>
    rw [List.length_cons]
    omega

end Foundations
