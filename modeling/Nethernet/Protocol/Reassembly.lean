import Nethernet.Protocol.Assembly

/-!
# The fate of a list of segments

Every list of segments with counts up to 254 fed to a new accumulator, whatever was lost, repeated
or inserted (`reassembles`): the deliveries are the payloads of disjoint blocks whose counts go down
to zero, every block that starts between messages is delivered, an error is returned exactly where
a count does not follow the one before it, and an error leaves a new accumulator behind.
-/

namespace Nethernet

open Foundations

open Assembly

/-- The `r + 1` segments from position `j`. -/
def blockOf (segments : List MessageSegment) (j r : ℕ) : List MessageSegment :=
  (segments.drop j).take (r + 1)

/-- The segments from position `j` count `r, r - 1, …, 0`. -/
def IsBlock (segments : List MessageSegment) (j r : ℕ) : Prop :=
  counts (blockOf segments j r) = countdown 0 (r + 1)

/-- After the first `k` segments the accumulator is `Message.new`. -/
def IdleAt (b : Build) (segments : List MessageSegment) (k : ℕ) : Prop :=
  ∃ replies, Mealy.run (Message.add_segment b) Message.new (segments.take k) =
    some (Message.new, replies)

/-- What the replies of `add_segment` to a list of segments are. -/
structure Reassembles (b : Build) (segments : List MessageSegment) (replies : List Message.Reply) :
    Prop where
  /-- A delivery is the payload of a block that ends with its segment and starts, between messages,
  after every earlier delivery. -/
  delivered : ∃ start : ℕ → ℕ, ∀ k d, replies[k]? = some (.ok (some d)) →
    start k ≤ k ∧ IdleAt b segments (start k) ∧ IsBlock segments (start k) (k - start k) ∧
      d = payload (blockOf segments (start k) (k - start k)) ∧
      ∀ k' d', k' < k → replies[k']? = some (.ok (some d')) → k' < start k
  /-- A block that starts between messages is delivered at its last segment. -/
  complete : ∀ j r, IdleAt b segments j → IsBlock segments j r →
    (∀ i < r, replies[j + i]? = some (.ok none)) ∧
      replies[j + r]? = some (.ok (some (payload (blockOf segments j r))))
  /-- An error is returned exactly when the count of a segment in an open run is not one less than
  that of the segment before it. -/
  error_iff : ∀ k segment, segments[k]? = some segment →
    ((∃ e, replies[k]? = some (.error e)) ↔
      ¬ IdleAt b segments k ∧ ∃ p previous, k = p + 1 ∧ segments[p]? = some previous ∧
        previous.count ≠ segment.count + 1)
  /-- After an error the accumulator is `Message.new`, and what follows is answered as from
  there. -/
  after_error : ∀ k e, replies[k]? = some (.error e) → IdleAt b segments (k + 1) ∧
    ∃ m, Mealy.run (Message.add_segment b) Message.new (segments.drop (k + 1)) =
      some (m, replies.drop (k + 1))

theorem idleAt_iff (b : Build) {segments : List MessageSegment}
    (h254 : ∀ segment ∈ segments, segment.count ≤ 254) (k : ℕ) :
    IdleAt b segments k ↔
      ∃ replies, Mealy.run assemble none (segments.take k) = some (none, replies) := by
  have hk : ∀ segment ∈ segments.take k, segment.count ≤ 254 :=
    fun segment hs => h254 segment (List.mem_of_mem_take hs)
  constructor
  · rintro ⟨replies, h⟩
    obtain ⟨a, replies', ha⟩ := assemble_run_isSome none (segments.take k)
    have hrun := run_add_segment_of_run b hk ha
    rw [toMessage_none, h] at hrun
    obtain ⟨hm, rfl⟩ := Prod.mk.inj (Option.some.inj hrun)
    obtain rfl := toMessage_eq_new.1 hm.symm
    exact ⟨_, ha⟩
  · rintro ⟨replies, h⟩
    exact ⟨replies, run_add_segment_of_run b hk h⟩


/-- Inside a block that started between messages, a run is open. -/
theorem not_idle_in_block {segments : List MessageSegment} {j r i : ℕ}
    {replies : List Message.Reply}
    (hj : Mealy.run assemble none (segments.take j) = some (none, replies))
    (hblock : IsBlock segments j r) (hi : 0 < i) (hir : i ≤ r) :
    ¬ ∃ replies', Mealy.run assemble none (segments.take (j + i)) = some (none, replies') := by
  rintro ⟨replies', h⟩
  have hsplit : blockOf segments j r =
      (segments.drop j).take i ++ (segments.drop (j + i)).take (r + 1 - i) := by
    rw [blockOf, ← List.drop_drop, ← List.take_add, Nat.add_sub_cancel' (by omega)]
  have hlen : ((segments.drop j).take i).length = i := by
    have := congrArg List.length hblock
    rw [length_counts, length_countdown, blockOf, List.length_take] at this
    rw [List.length_take]
    omega
  have hcounts : counts ((segments.drop j).take i) = countdown (r + 1 - i) i := by
    have := hblock
    rw [IsBlock, hsplit, counts, List.map_append, ← Nat.add_sub_cancel' (show i ≤ r + 1 by omega),
      countdown_add, Nat.zero_add] at this
    exact (List.append_inj this (by rw [List.length_map, hlen, length_countdown])).1
  have hne : (segments.drop j).take i ≠ [] := List.ne_nil_of_length_pos (by omega)
  obtain ⟨run, -, -, hrun⟩ := run_assemble_countdown hne (e := r + 1 - i) (by omega)
    (by rw [hlen]; exact hcounts) (.inl left_none)
  rw [List.take_add, Mealy.run_append_of hj hrun] at h
  cases h

section Fate

variable {segments : List MessageSegment} {a : Assembly} {replies : List Message.Reply}
  (ha : Mealy.run assemble none segments = some (a, replies))

/-- After `k` segments the abstract machine is between messages. -/
def AssemblyIdleAt (segments : List MessageSegment) (k : ℕ) : Prop :=
  ∃ replies, Mealy.run assemble none (segments.take k) = some (none, replies)

include ha

/-- A delivery, with the block it comes from. -/
theorem delivered_at {k : ℕ} {d : Bytes} (hk : replies[k]? = some (.ok (some d))) :
    AssemblyIdleAt segments (k + 1) ∧ ∃ j ≤ k, AssemblyIdleAt segments j ∧
      IsBlock segments j (k - j) ∧ d = payload (blockOf segments j (k - j)) := by
  have hlt : k < segments.length := by
    rw [← Mealy.length_of_run ha]
    exact (List.getElem?_eq_some_iff.1 hk).1
  obtain ⟨u, u', o, hu, hs, ho, -⟩ := Mealy.step_of_run ha (List.getElem?_eq_getElem hlt)
  obtain rfl : o = .ok (some d) := Option.some.inj (ho.symm.trans hk)
  obtain ⟨rfl, before, run, replies', hbefore, hcounts, rfl, hrun⟩ := delivered_block hu hs
  have htake : segments.take (k + 1) = segments.take k ++ [segments[k]] :=
    List.take_succ_eq_append_getElem hlt
  have hlen := congrArg List.length hbefore
  rw [List.length_take, List.length_append, Nat.min_eq_left (Nat.le_of_lt hlt)] at hlen
  have hblock : blockOf segments before.length (k - before.length) = run ++ [segments[k]] := by
    have hdrop : (segments.take (k + 1)).drop before.length = run ++ [segments[k]] := by
      rw [htake, hbefore, List.append_assoc, List.drop_left]
    rw [blockOf, ← hdrop, List.drop_take,
      show k + 1 - before.length = k - before.length + 1 by omega]
  have hpre : segments.take before.length = before := by
    have := congrArg (List.take before.length) hbefore
    rwa [List.take_take, List.take_left, Nat.min_eq_left (by omega)] at this
  have hnext := Mealy.run_append_of hu (Mealy.run_of_step hs)
  rw [← htake] at hnext
  refine ⟨⟨_, hnext⟩, before.length, by omega, ⟨replies', by rw [hpre]; exact hrun⟩, ?_,
    by rw [hblock]⟩
  rw [IsBlock, hblock, hcounts, show k - before.length = run.length by omega]

/-- The block of a delivery starts after every earlier delivery. -/
theorem delivered_before {k k' j : ℕ} {d : Bytes} (hj : AssemblyIdleAt segments j)
    (hblock : IsBlock segments j (k - j)) (hk : k' < k)
    (hk' : replies[k']? = some (.ok (some d))) : k' < j := by
  by_contra hle
  obtain ⟨replies', hj⟩ := hj
  refine not_idle_in_block (i := k' + 1 - j) hj hblock (by omega) (by omega) ?_
  rw [show j + (k' + 1 - j) = k' + 1 by omega]
  exact (delivered_at ha hk').1

/-- A block that starts between messages is delivered at its last segment. -/
theorem delivered_of_block {j r : ℕ} (hj : AssemblyIdleAt segments j)
    (hblock : IsBlock segments j r) :
    (∀ i < r, replies[j + i]? = some (.ok none)) ∧
      replies[j + r]? = some (.ok (some (payload (blockOf segments j r)))) := by
  obtain ⟨replies', hj⟩ := hj
  have hlen : (blockOf segments j r).length = r + 1 := by
    rw [← length_counts, hblock, length_countdown]
  obtain ⟨init, last, hinit⟩ : ∃ init last, blockOf segments j r = init ++ [last] :=
    (List.eq_nil_or_concat' _).resolve_left (List.ne_nil_of_length_pos (by omega))
  have hr : init.length = r := by
    rw [hinit, List.length_append, List.length_singleton] at hlen
    omega
  have hcounts : counts (init ++ [last]) = countdown 0 (init ++ [last]).length := by
    rw [← hinit, hlen]
    exact hblock
  obtain ⟨u, hu, hrest⟩ := Mealy.run_take_drop ha j
  obtain ⟨rfl, -⟩ := Prod.mk.inj (Option.some.inj (hj.symm.trans hu))
  obtain ⟨v, hv, -⟩ := Mealy.run_take_drop hrest (r + 1)
  rw [← blockOf, hinit, run_assemble_block hcounts (.inl left_none), hr, segments_none,
    List.nil_append] at hv
  obtain ⟨-, hreplies⟩ := Prod.mk.inj (Option.some.inj hv)
  have hget : ∀ i < r + 1, replies[j + i]? =
      (List.replicate r (.ok none) ++ [.ok (some (payload (init ++ [last])))])[i]? := by
    intro i hi
    rw [hreplies, List.getElem?_take_of_lt hi, List.getElem?_drop]
  refine ⟨fun i hi => ?_, ?_⟩
  · rw [hget i (by omega), List.getElem?_append_left (by simpa using hi),
      List.getElem?_replicate_of_lt hi]
  · rw [hget r (by omega), List.getElem?_append_right (by simp), List.length_replicate,
      Nat.sub_self, hinit]
    rfl

/-- The count of an open run's last segment is the one before the segment at `k`. -/
theorem error_at_iff {k : ℕ} {segment : MessageSegment} (hk : segments[k]? = some segment) :
    (∃ e, replies[k]? = some (.error e)) ↔
      ¬ AssemblyIdleAt segments k ∧ ∃ p previous, k = p + 1 ∧ segments[p]? = some previous ∧
        previous.count ≠ segment.count + 1 := by
  obtain ⟨u, u', o, hu, hs, ho, -⟩ := Mealy.step_of_run ha hk
  have herr : (∃ e, replies[k]? = some (.error e)) ↔ ∃ e, o = .error e := by
    rw [ho]
    exact exists_congr fun e => by simp
  rw [herr, assemble_error_iff hs]
  cases u with
  | none => simp [AssemblyIdleAt, hu]
  | some run =>
    have hidle : ¬ AssemblyIdleAt segments k := by
      rintro ⟨replies', h⟩
      rw [hu] at h
      cases h
    have hleft := Nat.ne_of_gt run.left_pos
    obtain ⟨-, before, -, hbefore, -⟩ := opened_of_run hu
    obtain ⟨init, last, hinit⟩ := (List.eq_nil_or_concat' _).resolve_left run.ne_nil
    have hlast : last.count = run.left.toNat := by
      have := run.counts_eq
      rw [hinit] at this
      exact (counts_eq_countdown_concat this).2
    have hklt : k < segments.length := (List.getElem?_eq_some_iff.1 hk).1
    have hlen := congrArg List.length hbefore
    rw [segments_some, List.length_take, hinit, ← List.append_assoc, List.length_append,
      List.length_singleton, Nat.min_eq_left (Nat.le_of_lt hklt)] at hlen
    have hprev : segments[(before ++ init).length]? = some last := by
      have := congrArg (·[(before ++ init).length]?) hbefore
      simp only [segments_some, hinit, ← List.append_assoc] at this
      rwa [List.getElem?_take_of_lt (by omega), List.getElem?_concat_length] at this
    simp only [hidle, not_false_eq_true, true_and, left_some, ne_eq, hleft]
    constructor
    · intro hne
      exact ⟨_, last, hlen, hprev, by omega⟩
    · rintro ⟨p, previous, rfl, hp, hne⟩
      obtain rfl : p = (before ++ init).length := by omega
      obtain rfl := Option.some.inj (hprev.symm.trans hp)
      omega

/-- After an error the machine is between messages, and goes on from there. -/
theorem after_error_at {k : ℕ} {e : NethernetError} (hk : replies[k]? = some (.error e)) :
    AssemblyIdleAt segments (k + 1) ∧
      Mealy.run assemble none (segments.drop (k + 1)) = some (a, replies.drop (k + 1)) := by
  have hlt : k < segments.length := by
    rw [← Mealy.length_of_run ha]
    exact (List.getElem?_eq_some_iff.1 hk).1
  obtain ⟨u, u', o, hu, hs, ho, hrest⟩ := Mealy.step_of_run ha (List.getElem?_eq_getElem hlt)
  obtain rfl : o = .error e := Option.some.inj (ho.symm.trans hk)
  obtain rfl := assemble_error_state hs
  have hnext := Mealy.run_append_of hu (Mealy.run_of_step hs)
  rw [← List.take_succ_eq_append_getElem hlt] at hnext
  exact ⟨⟨_, hnext⟩, hrest⟩

end Fate

/-- **The fate of every list of segments** with counts up to 254, fed to a new accumulator. -/
theorem reassembles (b : Build) (segments : List MessageSegment)
    (h254 : ∀ segment ∈ segments, segment.count ≤ 254) :
    ∃ m replies, Mealy.run (Message.add_segment b) Message.new segments = some (m, replies) ∧
      Reassembles b segments replies := by
  obtain ⟨a, replies, ha⟩ := assemble_run_isSome none segments
  have hidle := fun k => idleAt_iff b h254 k
  refine ⟨a.toMessage, replies, run_add_segment_of_run b h254 ha, ?_, ?_, ?_, ?_⟩
  · have hstart : ∀ k, ∃ j, ∀ d, replies[k]? = some (.ok (some d)) → j ≤ k ∧
        AssemblyIdleAt segments j ∧ IsBlock segments j (k - j) ∧
          d = payload (blockOf segments j (k - j)) := by
      intro k
      by_cases h : ∃ d, replies[k]? = some (.ok (some d))
      · obtain ⟨d, hd⟩ := h
        obtain ⟨-, j, hj⟩ := delivered_at ha hd
        refine ⟨j, fun d' hd' => ?_⟩
        obtain rfl : d = d' := by simpa [hd] using hd'
        exact hj
      · exact ⟨0, fun d hd => absurd ⟨d, hd⟩ h⟩
    choose start hstart using hstart
    refine ⟨start, fun k d hd => ?_⟩
    obtain ⟨hle, hj, hblock, hpayload⟩ := hstart k d hd
    exact ⟨hle, (hidle _).2 hj, hblock, hpayload,
      fun k' d' hk' hd' => delivered_before ha hj hblock hk' hd'⟩
  · exact fun j r hj hblock => delivered_of_block ha ((hidle j).1 hj) hblock
  · intro k segment hk
    rw [error_at_iff ha hk, hidle k]
    rfl
  · intro k e hk
    obtain ⟨hnew, hrest⟩ := after_error_at ha hk
    have h254' : ∀ segment ∈ segments.drop (k + 1), segment.count ≤ 254 :=
      fun segment hs => h254 segment (List.mem_of_mem_drop hs)
    exact ⟨(hidle _).2 hnew, a.toMessage, run_add_segment_of_run b h254' hrest⟩

/-- A message, a lost last segment and a message after it. -/
theorem reassembles_lost_segment :
    ∃ m replies, Mealy.run (Message.add_segment .debug) Message.new
        [⟨1, [7]⟩, ⟨0, [8]⟩, ⟨2, [9]⟩, ⟨0, [1]⟩, ⟨0, [2]⟩] = some (m, replies) ∧
      Reassembles .debug [⟨1, [7]⟩, ⟨0, [8]⟩, ⟨2, [9]⟩, ⟨0, [1]⟩, ⟨0, [2]⟩] replies :=
  reassembles .debug _ (by decide)

end Nethernet
