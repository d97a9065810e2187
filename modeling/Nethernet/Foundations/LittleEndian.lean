import Mathlib.Algebra.Group.Nat.Defs

/-!
# Little-endian numbers

`bytesOf k n` is the number `n` in `k` bytes, the lowest first, and `valueOf` the number that a list
of bytes stands for; it reads every number below `256 ^ k` back. `eq_bytesOf_append_iff` says what
the front of a list that starts with a length is.
-/

namespace Foundations

/-- The lowest `k` bytes of `n`. -/
def bytesOf : ℕ → ℕ → List UInt8
  | 0, _ => []
  | k + 1, n => UInt8.ofNat n :: bytesOf k (n / 256)

/-- The number that a list of bytes stands for. -/
def valueOf : List UInt8 → ℕ
  | [] => 0
  | b :: bs => b.toNat + 256 * valueOf bs

@[simp] theorem length_bytesOf (k n : ℕ) : (bytesOf k n).length = k := by
  induction k generalizing n with
  | zero => rfl
  | succ k ih => rw [bytesOf, List.length_cons, ih]

theorem valueOf_bytesOf {k n : ℕ} (h : n < 256 ^ k) : valueOf (bytesOf k n) = n := by
  induction k generalizing n with
  | zero =>
    rw [Nat.pow_zero, Nat.lt_one_iff] at h
    exact h.symm
  | succ k ih =>
    have hdiv : n / 256 < 256 ^ k := by
      rw [Nat.div_lt_iff_lt_mul (by decide), ← Nat.pow_succ]
      exact h
    rw [bytesOf, valueOf, ih hdiv, UInt8.toNat_ofNat']
    exact Nat.mod_add_div n 256

/-- The bytes of the number that a list stands for are the list. -/
theorem bytesOf_valueOf (bs : List UInt8) : bytesOf bs.length (valueOf bs) = bs := by
  induction bs with
  | nil => rfl
  | cons b bs ih =>
    have hb := b.toNat_lt
    have hdiv : (b.toNat + 256 * valueOf bs) / 256 = valueOf bs := by omega
    have hmod : UInt8.ofNat (b.toNat + 256 * valueOf bs) = b := by
      apply UInt8.toNat_inj.1
      rw [UInt8.toNat_ofNat']
      omega
    rw [List.length_cons, bytesOf, valueOf, hdiv, ih, hmod]

theorem valueOf_lt (bs : List UInt8) : valueOf bs < 256 ^ bs.length := by
  induction bs with
  | nil => exact Nat.one_pos
  | cons b bs ih =>
    have hb := b.toNat_lt
    rw [valueOf, List.length_cons, Nat.pow_succ]
    omega

/-- A list that starts with the length of `data`, in `k` bytes, and with `data`: the length is read
off its front, and what follows is `data`, then `rest`. -/
theorem eq_bytesOf_append_iff {k : ℕ} {input data rest : List UInt8} :
    data.length < 256 ^ k ∧ input = bytesOf k data.length ++ (data ++ rest) ↔
      k + valueOf (input.take k) ≤ input.length ∧
        data = (input.drop k).take (valueOf (input.take k)) ∧
          rest = input.drop (k + valueOf (input.take k)) := by
  constructor
  · rintro ⟨hlt, rfl⟩
    have hk := length_bytesOf k data.length
    have htake : (bytesOf k data.length ++ (data ++ rest)).take k = bytesOf k data.length :=
      List.take_left' hk
    have hdrop : (bytesOf k data.length ++ (data ++ rest)).drop k = data ++ rest :=
      List.drop_left' hk
    rw [htake, valueOf_bytesOf hlt, ← List.drop_drop, hdrop]
    refine ⟨?_, List.take_left.symm, List.drop_left.symm⟩
    simp only [List.length_append, hk]
    omega
  · rintro ⟨hle, hdata, hrest⟩
    have hk : (input.take k).length = k := List.length_take_of_le (by omega)
    have hlen : data.length = valueOf (input.take k) := by
      rw [hdata, List.length_take, List.length_drop]
      omega
    have hlt := valueOf_lt (input.take k)
    have hword := bytesOf_valueOf (input.take k)
    rw [hk] at hlt hword
    refine ⟨hlen ▸ hlt, ?_⟩
    calc input = input.take k ++ ((input.drop k).take (valueOf (input.take k)) ++
          (input.drop k).drop (valueOf (input.take k))) := by
          rw [List.take_append_drop, List.take_append_drop]
      _ = bytesOf k data.length ++ (data ++ rest) := by
          rw [hlen, hword, hdata, hrest, List.drop_drop]

end Foundations
