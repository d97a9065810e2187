import Mathlib.Data.List.Basic

/-!
# Cutting a list into chunks

`chunks k l` cuts `l` into pieces of `k` elements and a last, possibly shorter, piece; a list of at
most `k` elements is one piece. `Chunked k cs` says that `cs` has the shape of such a cut of a
nonempty list, and the cut is the only list of that shape with a given concatenation
(`Chunked.eq_chunks`).
-/

namespace Foundations

variable {α : Type*}

/-- Cut a list into pieces of `k` elements and a last piece of at most `k`. -/
def chunks (k : ℕ) (l : List α) : List (List α) :=
  if _h : 0 < k ∧ k < l.length then l.take k :: chunks k (l.drop k) else [l]
termination_by l.length
decreasing_by
  rw [List.length_drop]
  omega

theorem chunks_of_le {k : ℕ} {l : List α} (h : l.length ≤ k) : chunks k l = [l] := by
  rw [chunks, dif_neg (by omega)]

theorem chunks_of_lt {k : ℕ} (hk : 0 < k) {l : List α} (h : k < l.length) :
    chunks k l = l.take k :: chunks k (l.drop k) := by
  rw [chunks, dif_pos ⟨hk, h⟩]

theorem chunks_ne_nil (k : ℕ) (l : List α) : chunks k l ≠ [] := by
  rw [chunks]
  split <;> simp

/-- **The pieces put together are the list.** -/
@[simp] theorem flatten_chunks (k : ℕ) (l : List α) : (chunks k l).flatten = l := by
  fun_induction chunks k l with
  | case1 l h ih => rw [List.flatten_cons, ih, List.take_append_drop]
  | case2 l h => simp

/-- The number of pieces is the rounded-up quotient. -/
theorem length_chunks {k : ℕ} (hk : 0 < k) {l : List α} (hl : 0 < l.length) :
    (chunks k l).length = (l.length + k - 1) / k := by
  fun_induction chunks k l with
  | case1 l h ih =>
    have hd : (l.drop k).length = l.length - k := List.length_drop
    rw [List.length_cons, ih (by omega), hd,
      show l.length + k - 1 = (l.length - k + k - 1) + k by omega, Nat.add_div_right _ hk]
  | case2 l h =>
    have hle : l.length ≤ k := by omega
    rw [List.length_singleton]
    symm
    rw [Nat.div_eq_iff hk]
    omega

/-- The shape of a cut of a nonempty list: full pieces, then a nonempty piece of at most `k`. -/
inductive Chunked (k : ℕ) : List (List α) → Prop
  | last {c : List α} (ne : c ≠ []) (le : c.length ≤ k) : Chunked k [c]
  | cons {c : List α} {cs : List (List α)} (full : c.length = k) (rest : Chunked k cs) :
      Chunked k (c :: cs)

theorem chunked_chunks {k : ℕ} (hk : 0 < k) {l : List α} (hl : l ≠ []) :
    Chunked k (chunks k l) := by
  fun_induction chunks k l with
  | case1 l h ih =>
    refine .cons (by rw [List.length_take]; omega) (ih ?_)
    exact List.ne_nil_of_length_pos (by rw [List.length_drop]; omega)
  | case2 l h => exact .last hl (by omega)

namespace Chunked

variable {k : ℕ} {cs : List (List α)}

theorem flatten_ne_nil (h : Chunked k cs) : cs.flatten ≠ [] := by
  induction h with
  | last ne _ => simpa using ne
  | cons _ _ ih => simp [ih]

/-- Every piece but the last is full. -/
theorem length_of_mem_dropLast (h : Chunked k cs) : ∀ c ∈ cs.dropLast, c.length = k := by
  induction h with
  | last => exact fun c hc => absurd hc List.not_mem_nil
  | @cons c cs full rest ih =>
    intro d hd
    have hne : cs ≠ [] := fun hnil => rest.flatten_ne_nil (by rw [hnil, List.flatten_nil])
    rw [List.dropLast_cons_of_ne_nil hne, List.mem_cons] at hd
    rcases hd with rfl | hd
    · exact full
    · exact ih d hd

/-- The last piece is not empty, and at most full. -/
theorem of_getLast? (h : Chunked k cs) : ∀ c ∈ cs.getLast?, c ≠ [] ∧ c.length ≤ k := by
  induction h with
  | @last c ne le =>
    intro d hd
    obtain rfl := Option.some.inj hd
    exact ⟨ne, le⟩
  | @cons c cs full rest ih =>
    have hne : cs ≠ [] := fun hnil => rest.flatten_ne_nil (by rw [hnil, List.flatten_nil])
    rw [List.getLast?_cons_of_ne_nil hne]
    exact ih

/-- **A cut is determined by the list it is a cut of.** -/
theorem eq_chunks (hk : 0 < k) (h : Chunked k cs) : cs = chunks k cs.flatten := by
  induction h with
  | @last c ne le => rw [List.flatten_singleton, chunks_of_le le]
  | @cons c cs full rest ih =>
    have hpos := List.length_pos_iff.2 rest.flatten_ne_nil
    have hlt : k < (c ++ cs.flatten).length := by
      rw [List.length_append]
      omega
    rw [List.flatten_cons, chunks_of_lt hk hlt, List.take_left' full, List.drop_left' full, ← ih]

end Chunked

end Foundations
