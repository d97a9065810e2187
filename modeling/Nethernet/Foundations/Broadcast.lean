import Nethernet.Foundations.Picks

/-!
# A channel that keeps the last items

A channel keeps the last `capacity` items that were sent. A receiver has its own place in what was
sent: it receives one item after the other, and where its place is not kept any more, it is told how
many items it has missed and goes on with the oldest that is kept. `Receiver.Tracks` is what every
receiver keeps, and `Receiver.missed_receive` says which items a step makes it miss.
-/

namespace Foundations

/-- A channel: how many items it keeps, what was sent, and whether more can be sent. -/
structure Broadcast (α : Type*) where
  capacity : ℕ
  sent : List α
  closed : Bool

namespace Broadcast

variable {α : Type*}

/-- What a receiver gets. -/
inductive Got (α : Type*)
  | value (a : α)
  | lagged (missed : ℕ)
  | closed
  | empty

/-- The place of the oldest item that is kept. -/
def oldest (b : Broadcast α) : ℕ := b.sent.length - b.capacity

/-- A receiver: the place it started from, its place, the places of the items it has received, and
how many items it was told it has missed. -/
structure Receiver where
  start : ℕ
  next : ℕ
  received : List ℕ
  missed : ℕ
  deriving DecidableEq, Repr

/-- A new receiver gets what is sent from now on. -/
def subscribe (b : Broadcast α) : Receiver := ⟨b.sent.length, b.sent.length, [], 0⟩

/-- What the receiver gets next, and the receiver afterwards. -/
def receive (b : Broadcast α) (r : Receiver) : Got α × Receiver :=
  if r.next < b.oldest then
    (.lagged (b.oldest - r.next),
      { r with next := b.oldest, missed := r.missed + (b.oldest - r.next) })
  else
    match b.sent[r.next]? with
    | some a => (.value a, { r with next := r.next + 1, received := r.received ++ [r.next] })
    | none => (if b.closed then .closed else .empty, r)

namespace Receiver

/-- The receiver has passed the item without taking it. -/
def Missed (r : Receiver) (k : ℕ) : Prop := r.start ≤ k ∧ k < r.next ∧ k ∉ r.received

/-- The receiver gets items in the order in which they were sent, and it knows how many of those it
has passed it has missed. -/
structure Tracks (r : Receiver) (length : ℕ) : Prop where
  start_le : r.start ≤ r.next
  next_le : r.next ≤ length
  sorted : r.received.Pairwise (· < ·)
  passed : ∀ k ∈ r.received, r.start ≤ k ∧ k < r.next
  count : r.missed + r.received.length = r.next - r.start

theorem tracks_subscribe (b : Broadcast α) : b.subscribe.Tracks b.sent.length where
  start_le := le_rfl
  next_le := le_rfl
  sorted := .nil
  passed _ hk := absurd hk List.not_mem_nil
  count := (Nat.sub_self _).symm

variable {r r' : Receiver} {length : ℕ}

theorem Tracks.mono (h : r.Tracks length) {length' : ℕ} (hle : length ≤ length') :
    r.Tracks length' :=
  { h with next_le := h.next_le.trans hle }

/-- What a receiver gets, and where it is then. -/
inductive Effect (b : Broadcast α) (r : Receiver) : Got α → Receiver → Prop
  | value (a : α) (hkept : b.oldest ≤ r.next) (ha : b.sent[r.next]? = some a) :
    Effect b r (.value a) { r with next := r.next + 1, received := r.received ++ [r.next] }
  | lagged (hlost : r.next < b.oldest) : Effect b r (.lagged (b.oldest - r.next))
      { r with next := b.oldest, missed := r.missed + (b.oldest - r.next) }
  | closed (hkept : b.oldest ≤ r.next) (hdone : b.sent.length ≤ r.next)
    (hclosed : b.closed = true) : Effect b r .closed r
  | empty (hkept : b.oldest ≤ r.next) (hdone : b.sent.length ≤ r.next)
    (hopen : b.closed = false) : Effect b r .empty r

/-- **What `receive` does.** -/
theorem effect_receive (b : Broadcast α) (r : Receiver) :
    Effect b r (b.receive r).1 (b.receive r).2 := by
  unfold receive
  split
  · rename_i hlost
    exact .lagged hlost
  · rename_i hkept
    have hkept := Nat.not_lt.1 hkept
    cases ha : b.sent[r.next]? with
    | some a => exact .value a hkept ha
    | none =>
      have hdone := List.getElem?_eq_none_iff.1 ha
      cases hclosed : b.closed with
      | true => exact .closed hkept hdone hclosed
      | false => exact .empty hkept hdone hclosed

theorem Tracks.receive {b : Broadcast α} (h : r.Tracks b.sent.length) {got : Got α}
    (heffect : Effect b r got r') : r'.Tracks b.sent.length := by
  have hstart := h.start_le
  have hcount := h.count
  cases heffect with
  | value a hkept ha =>
    obtain ⟨hlt, -⟩ := List.getElem?_eq_some_iff.1 ha
    refine ⟨?_, hlt, ?_, ?_, ?_⟩
    · show r.start ≤ r.next + 1
      omega
    · refine List.pairwise_append.2 ⟨h.sorted, List.pairwise_singleton _ _, fun k hk l hl => ?_⟩
      exact List.mem_singleton.1 hl ▸ (h.passed k hk).2
    · intro k hk
      show r.start ≤ k ∧ k < r.next + 1
      cases List.mem_append.1 hk with
      | inl hk =>
        have := h.passed k hk
        omega
      | inr hk =>
        have := List.mem_singleton.1 hk
        omega
    · show r.missed + (r.received ++ [r.next]).length = r.next + 1 - r.start
      rw [List.length_append, List.length_singleton]
      omega
  | lagged hlost =>
    refine ⟨?_, Nat.sub_le _ _, h.sorted, fun k hk => ?_, ?_⟩
    · show r.start ≤ b.oldest
      omega
    · have := h.passed k hk
      show r.start ≤ k ∧ k < b.oldest
      omega
    · show r.missed + (b.oldest - r.next) + r.received.length = b.oldest - r.start
      omega
  | closed hkept hdone hclosed => exact h
  | empty hkept hdone hopen => exact h

/-- **What a step makes a receiver miss**: the items from its place that are not kept any more. -/
theorem missed_receive {b : Broadcast α} (h : r.Tracks b.sent.length) {got : Got α}
    (heffect : Effect b r got r') (k : ℕ) :
    r'.Missed k ↔ r.Missed k ∨ r.next ≤ k ∧ k < b.oldest := by
  have hstart := h.start_le
  by_cases hk : k ∈ r.received
  · -- what was received is behind the place, and stays received
    have hlt := (h.passed k hk).2
    refine iff_of_false (fun hmissed => hmissed.2.2 ?_) ?_
    · cases heffect with
      | value a hkept ha => exact List.mem_append_left _ hk
      | _ => exact hk
    · rintro (hmissed | ⟨hle, -⟩)
      · exact hmissed.2.2 hk
      · omega
  · simp only [Missed, hk, not_false_eq_true, and_true]
    cases heffect with
    | value a hkept ha =>
      have hmem : k ∈ r.received ++ [r.next] ↔ k = r.next := by simp [hk]
      simp only [hmem]
      omega
    | lagged hlost =>
      simp only [hk, not_false_eq_true, and_true]
      omega
    | closed hkept hdone hclosed =>
      simp only [hk, not_false_eq_true, and_true]
      omega
    | empty hkept hdone hopen =>
      simp only [hk, not_false_eq_true, and_true]
      omega

end Receiver

end Broadcast

end Foundations
