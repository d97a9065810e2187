import Mathlib.Data.List.Induction
import Mathlib.Data.List.Perm.Subperm
import Mathlib.Data.List.Sort

/-!
# Picking from a list

`pick l ks` are the elements of `l` at the indices `ks`, as they come. Picked in order they are a
sublist (`pick_sublist`), picked once each they are a sublist up to order (`pick_subperm`), and what
is picked stays when the list grows (`pick_append`).
-/

namespace Foundations

variable {α β : Type*}

/-- The elements at the given indices. -/
def pick (l : List α) (ks : List ℕ) : List α := ks.filterMap fun k => l[k]?

@[simp] theorem pick_nil (l : List α) : pick l [] = [] := rfl

theorem pick_concat (l : List α) (ks : List ℕ) (k : ℕ) :
    pick l (ks ++ [k]) = pick l ks ++ l[k]?.toList := by
  rw [pick, List.filterMap_append]
  rfl

/-- What is picked stays when the list grows. -/
theorem pick_append {l : List α} {ks : List ℕ} (h : ∀ k ∈ ks, k < l.length) (l' : List α) :
    pick (l ++ l') ks = pick l ks := by
  apply List.filterMap_congr
  intro k hk
  exact List.getElem?_append_left (h k hk)

theorem pick_range (l : List α) : pick l (List.range l.length) = l := by
  induction l using List.reverseRecOn with
  | nil => rfl
  | append_singleton l x ih =>
    rw [List.length_append, List.length_singleton, List.range_succ, pick_concat,
      pick_append (fun k hk => List.mem_range.1 hk), ih]
    simp

/-- **Picked in order**, the elements are in the order of the list. -/
theorem pick_sublist {l : List α} {ks : List ℕ} (h : ks.Pairwise (· < ·)) :
    (pick l ks).Sublist l := by
  induction ks using List.reverseRecOn generalizing l with
  | nil => exact List.nil_sublist l
  | append_singleton ks k ih =>
    obtain ⟨hks, -, hlt⟩ := List.pairwise_append.1 h
    rw [pick_concat]
    by_cases hk : k < l.length
    · -- the earlier indices pick from the first `k` elements
      have hearlier : pick l ks = pick (l.take k) ks := by
        apply List.filterMap_congr
        intro i hi
        exact (List.getElem?_take_of_lt (hlt i hi k (List.mem_singleton_self k))).symm
      have hlast : [l[k]].Sublist (l.drop k) := by
        rw [List.drop_eq_getElem_cons hk]
        exact (List.nil_sublist _).cons_cons _
      rw [hearlier, List.getElem?_eq_getElem hk, Option.toList_some]
      have hboth := (ih (l := l.take k) hks).append hlast
      rwa [List.take_append_drop] at hboth
    · rw [List.getElem?_eq_none (Nat.not_lt.1 hk), Option.toList_none, List.append_nil]
      exact ih hks

/-- **Picked once each**, no element is picked more often than it is in the list. -/
theorem pick_subperm {l : List α} {ks : List ℕ} (h : ks.Nodup) : (pick l ks).Subperm l := by
  have hperm : (ks.mergeSort (· ≤ ·)).Perm ks := List.mergeSort_perm ks _
  have hsorted : (ks.mergeSort (· ≤ ·)).Pairwise (· < ·) := by
    have hle : (ks.mergeSort (· ≤ ·)).Pairwise (· ≤ ·) := List.pairwise_mergeSort' (· ≤ ·) ks
    have hne := (hperm.nodup_iff.2 h)
    exact (hle.and hne).imp fun hboth => Nat.lt_of_le_of_ne hboth.1 hboth.2
  exact ⟨_, hperm.filterMap _, pick_sublist hsorted⟩

/-- Where `f` gives less than `g`, or the same, a list gives a sublist. -/
theorem filterMap_sublist_filterMap {f g : α → Option β} {l : List α}
    (h : ∀ x ∈ l, ∀ y, f x = some y → g x = some y) : (l.filterMap f).Sublist (l.filterMap g) := by
  induction l with
  | nil => exact List.Sublist.refl _
  | cons x l ih =>
    have hl := ih fun y hy => h y (List.mem_cons_of_mem x hy)
    cases hf : f x with
    | none =>
      rw [List.filterMap_cons_none hf]
      cases hg : g x with
      | none => rwa [List.filterMap_cons_none hg]
      | some y =>
        rw [List.filterMap_cons_some hg]
        exact hl.cons y
    | some y =>
      rw [List.filterMap_cons_some hf, List.filterMap_cons_some (h x List.mem_cons_self y hf)]
      exact hl.cons_cons y

end Foundations
