import Mathlib.Data.List.Basic

/-!
# Countdowns

The numbers `e + n - 1, …, e + 1, e`, as the remaining-piece counts of a message sent in pieces:
all of them when `e = 0`, those sent so far when `e` are still to come.
-/

namespace Foundations

/-- The `n` numbers that count down to `e`. -/
def countdown (e n : ℕ) : List ℕ := (List.range' e n).reverse

@[simp] theorem countdown_zero (e : ℕ) : countdown e 0 = [] := rfl

@[simp] theorem length_countdown (e n : ℕ) : (countdown e n).length = n := by
  simp [countdown]

/-- A countdown starts with its largest number. -/
theorem countdown_succ (e n : ℕ) : countdown e (n + 1) = (e + n) :: countdown e n := by
  simp [countdown, List.range'_concat]

/-- A countdown ends with `e`. -/
theorem countdown_succ_concat (e n : ℕ) :
    countdown e (n + 1) = countdown (e + 1) n ++ [e] := by
  simp [countdown, List.range'_succ]

theorem countdown_add (e m n : ℕ) :
    countdown e (m + n) = countdown (e + n) m ++ countdown e n := by
  induction m with
  | zero => simp
  | succ m ih =>
    rw [show m + 1 + n = m + n + 1 by omega, countdown_succ, ih, countdown_succ,
      List.cons_append, show e + (m + n) = e + n + m by omega]

end Foundations
