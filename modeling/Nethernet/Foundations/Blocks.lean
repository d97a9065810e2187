import Mathlib.Data.List.Basic

/-!
# Block by block

`mapBlocks f` applies `f` to every full block of `k` elements and leaves a shorter rest alone, as a
block cipher in electronic-codebook mode does. `padding` fills the last block with copies of the
number of elements it adds.
-/

namespace Foundations

section MapBlocks

variable {α : Type} {k : ℕ}

/-- The first `k` elements as a block. -/
def firstBlock (l : List α) (h : k ≤ l.length) : Vector α k :=
  ⟨(l.take k).toArray, by simp [h]⟩

/-- Apply `f` to each full block. -/
def mapBlocks (f : Vector α k → Vector α k) (l : List α) : List α :=
  if h : 0 < k ∧ k ≤ l.length then (f (firstBlock l h.2)).toList ++ mapBlocks f (l.drop k) else l
termination_by l.length
decreasing_by
  rw [List.length_drop]
  omega

@[simp] theorem length_mapBlocks (f : Vector α k → Vector α k) (l : List α) :
    (mapBlocks f l).length = l.length := by
  fun_induction mapBlocks f l with
  | case1 l h ih =>
    rw [List.length_append, ih, Vector.length_toList, List.length_drop]
    omega
  | case2 l h => rfl

theorem firstBlock_append (v : Vector α k) (l : List α) (h : k ≤ (v.toList ++ l).length) :
    firstBlock (v.toList ++ l) h = v := by
  apply Vector.toList_inj.1
  rw [firstBlock, Vector.toList_mk, List.take_left' v.length_toList]

/-- **What undoes `f` on one block undoes it on all.** -/
theorem mapBlocks_mapBlocks {f g : Vector α k → Vector α k} (h : ∀ v, g (f v) = v) (l : List α) :
    mapBlocks g (mapBlocks f l) = l := by
  fun_induction mapBlocks f l with
  | case1 l hl ih =>
    have hlen : 0 < k ∧ k ≤ ((f (firstBlock l hl.2)).toList ++ mapBlocks f (l.drop k)).length := by
      rw [List.length_append, Vector.length_toList]
      omega
    rw [mapBlocks, dif_pos hlen, firstBlock_append, h, List.drop_left' Vector.length_toList, ih]
    exact List.take_append_drop k l
  | case2 l hl => rw [mapBlocks, dif_neg hl]

/-- Whole blocks cut off the front stay what they are. -/
theorem mapBlocks_take (f : Vector α k → Vector α k) (m : ℕ) (l : List α) :
    mapBlocks f (l.take (k * m)) = (mapBlocks f l).take (k * m) := by
  induction m generalizing l with
  | zero => rw [Nat.mul_zero, List.take_zero, List.take_zero, mapBlocks, dif_neg (by simp; omega)]
  | succ m ih =>
    by_cases hl : 0 < k ∧ k ≤ l.length
    · have htake : 0 < k ∧ k ≤ (l.take (k * (m + 1))).length := by
        rw [List.length_take, Nat.mul_succ]
        omega
      have hfirst : firstBlock (l.take (k * (m + 1))) htake.2 = firstBlock l hl.2 := by
        apply Vector.toList_inj.1
        rw [firstBlock, firstBlock, Vector.toList_mk, Vector.toList_mk, List.take_take,
          Nat.min_eq_left (Nat.le_mul_of_pos_right k (Nat.succ_pos m))]
      have hdrop : (l.take (k * (m + 1))).drop k = (l.drop k).take (k * m) := by
        rw [List.drop_take, Nat.mul_succ, Nat.add_sub_cancel]
      rw [mapBlocks, dif_pos htake, hfirst, hdrop, ih]
      conv_rhs => rw [mapBlocks, dif_pos hl]
      have hblock : (f (firstBlock l hl.2)).toList.take (k * (m + 1)) =
          (f (firstBlock l hl.2)).toList := by
        apply List.take_of_length_le
        rw [Vector.length_toList]
        exact Nat.le_mul_of_pos_right k (Nat.succ_pos m)
      rw [List.take_append, hblock, Vector.length_toList, Nat.mul_succ, Nat.add_sub_cancel]
    · have htake : ¬ (0 < k ∧ k ≤ (l.take (k * (m + 1))).length) := by
        rw [List.length_take]
        omega
      rw [mapBlocks, dif_neg htake]
      conv_rhs => rw [mapBlocks, dif_neg hl]

end MapBlocks

/-! ## Padding -/

/-- How many bytes fill the last block of `k`; a full block is added to a list of full blocks. -/
def paddingLen (k n : ℕ) : ℕ := k - n % k

theorem paddingLen_pos {k : ℕ} (hk : 0 < k) (n : ℕ) : 0 < paddingLen k n :=
  Nat.sub_pos_of_lt (Nat.mod_lt n hk)

theorem paddingLen_le (k n : ℕ) : paddingLen k n ≤ k := Nat.sub_le k (n % k)

/-- The padded length, in blocks. -/
theorem add_paddingLen {k : ℕ} (hk : 0 < k) (n : ℕ) : n + paddingLen k n = k * (n / k + 1) := by
  have hlt := Nat.mod_lt n hk
  have := Nat.div_add_mod n k
  rw [paddingLen, Nat.mul_add, Nat.mul_one]
  omega

/-- The filled length determines how much was filled. -/
theorem paddingLen_of_dvd {k n m : ℕ} (hm : 0 < m) (hle : m ≤ k) (h : k ∣ n + m) :
    paddingLen k n = m := by
  have hk : 0 < k := Nat.lt_of_lt_of_le hm hle
  have hlt := Nat.mod_lt n hk
  have hmod : (n % k + m) % k = 0 := by rw [Nat.mod_add_mod, Nat.mod_eq_zero_of_dvd h]
  have hsum : n % k + m = k := by
    obtain ⟨q, hq⟩ := Nat.dvd_of_mod_eq_zero hmod
    have h2 : q < 2 := by
      by_contra h2
      have := Nat.mul_le_mul_left k (Nat.not_lt.1 h2)
      omega
    have h0 : q ≠ 0 := by
      rintro rfl
      omega
    obtain rfl : q = 1 := by omega
    omega
  rw [paddingLen]
  omega

end Foundations
