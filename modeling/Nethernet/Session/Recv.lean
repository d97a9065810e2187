import Nethernet.Foundations.Filter
import Nethernet.Foundations.Line
import Nethernet.Foundations.Transition
import Nethernet.Protocol.Error

/-!
# Receiving and closing

`Session::recv` and `Session::close` (`src/session/mod.rs`), any number of calls of either on one
session, and the packets that arrive. A call of `recv` reads the flag, and unless it is set stands
in line for `packet_rx`; who has the lock waits for a packet. The session keeps a sender of the
packet channel, so the channel never closes. The guard of the flag is not held over an await, so
what a call does under it is one step.
-/

namespace Nethernet

open Foundations

/-- Default packet channel capacity. -/
def DEFAULT_PACKET_CHANNEL_CAPACITY : ℕ := 1024

/-- A call of `recv`. -/
inductive Recv
  /-- It has not read the flag yet. -/
  | Called
  /-- It is in line for `packet_rx`, or has it and waits for a packet. -/
  | Waiting
  | Returned (packet : Option Bytes)
  | Dropped
  deriving DecidableEq, Repr

/-- A call of `close`. -/
inductive Close
  /-- It has not taken the flag yet. -/
  | Called
  /-- It closes the data channels, then the peer connection. -/
  | reliable_channel
  | unreliable_channel
  | peer_connection
  | Returned (result : Except NethernetError Unit)
  | Dropped
  deriving DecidableEq, Repr

namespace Close

/-- What follows when the close of a channel or of the peer connection returns. Only the result of
the latter matters. -/
def next (result : Except String Unit) : Close → Option Close
  | reliable_channel => some unreliable_channel
  | unreliable_channel => some peer_connection
  | peer_connection => some (.Returned (result.mapError .WebRtc))
  | _ => none

/-- The call found the flag set, or set it. -/
def is_marked : Close → Bool
  | Called | Dropped => false
  | _ => true

def is_returned : Close → Bool
  | Returned _ => true
  | _ => false

end Close

/-- A session with its calls of `recv` and `close`. -/
structure Recvs where
  capacity : ℕ
  closed : Bool
  /-- The calls in line for `packet_rx`, and the packets of the channel. -/
  packets : Line ℕ Bytes
  recvs : List Recv
  closes : List Close
  deriving DecidableEq, Repr

namespace Recvs

/-- The steps of the calls, and the arrival of packets. -/
inductive Action
  /-- `on_message` has put a packet into the channel. -/
  | arrive (packet : Bytes)
  /-- `recv` is called, reads the flag, receives a packet, is dropped. -/
  | recv
  | check (i : ℕ)
  | receive (i : ℕ)
  | drop_recv (i : ℕ)
  /-- `close` is called, takes the flag, has closed a channel or the connection, is dropped. -/
  | close
  | mark (k : ℕ)
  | awaited (k : ℕ) (result : Except String Unit)
  | drop_close (k : ℕ)
  deriving DecidableEq, Repr

/-- The call of `recv` that takes the step. -/
def Action.recv_call : Action → Option ℕ
  | check i | receive i | drop_recv i => some i
  | _ => none

/-- `with_capacity`. -/
def with_capacity (capacity : ℕ) : Recvs where
  capacity := capacity
  closed := false
  packets := Line.empty
  recvs := []
  closes := []

/-- A packet goes into the channel, if there is room. -/
def arrive (s : Recvs) (packet : Bytes) : Option Recvs :=
  if s.packets.items.length < s.capacity then some { s with packets := s.packets.put packet }
  else none

/-- `recv` reads the flag, and returns or joins the line for `packet_rx`. -/
def check (s : Recvs) (i : ℕ) : Option Recvs :=
  if s.recvs[i]? = some .Called then
    if s.closed then some { s with recvs := s.recvs.set i (.Returned none) }
    else some { s with recvs := s.recvs.set i .Waiting, packets := s.packets.join i }
  else none

/-- The call that has `packet_rx` receives a packet, and returns. -/
def receive (s : Recvs) (i : ℕ) : Option Recvs :=
  match s.packets.serve with
  | some (j, packet, packets) =>
    if j = i then some { s with
      recvs := s.recvs.set i (.Returned (some packet)), packets := packets }
    else none
  | none => none

/-- The caller gives up: the call leaves the line and releases the lock. -/
def drop_recv (s : Recvs) (i : ℕ) : Option Recvs :=
  match s.recvs[i]? with
  | some .Called => some { s with recvs := s.recvs.set i .Dropped }
  | some .Waiting => some { s with
      recvs := s.recvs.set i .Dropped, packets := s.packets.leave i }
  | _ => none

/-- `close` takes the flag: it returns if the flag is set, and else sets it. -/
def mark (s : Recvs) (k : ℕ) : Option Recvs :=
  if s.closes[k]? = some .Called then
    if s.closed then some { s with closes := s.closes.set k (.Returned (.ok ())) }
    else some { s with closed := true, closes := s.closes.set k .reliable_channel }
  else none

/-- The close of a channel or of the peer connection returns. -/
def awaited (s : Recvs) (k : ℕ) (result : Except String Unit) : Option Recvs :=
  (s.closes[k]?).bind fun c => (c.next result).map fun c => { s with closes := s.closes.set k c }

/-- A call of `close` is dropped. -/
def drop_close (s : Recvs) (k : ℕ) : Option Recvs :=
  (s.closes[k]?).bind fun c =>
    if c.is_returned then none else some { s with closes := s.closes.set k .Dropped }

/-- One step. -/
def step : Transition Recvs Action
  | s, .arrive packet => s.arrive packet
  | s, .recv => some { s with recvs := s.recvs ++ [.Called] }
  | s, .check i => s.check i
  | s, .receive i => s.receive i
  | s, .drop_recv i => s.drop_recv i
  | s, .close => some { s with closes := s.closes ++ [.Called] }
  | s, .mark k => s.mark k
  | s, .awaited k result => s.awaited k result
  | s, .drop_close k => s.drop_close k

/-! ## The line and the calls -/

/-- The calls in line are those that wait, each once, and a call of `close` that is past the flag
has left it set. -/
structure WellFormed (s : Recvs) : Prop where
  nodup : s.packets.waiting.Nodup
  waiting : ∀ i, i ∈ s.packets.waiting ↔ s.recvs[i]? = some .Waiting
  marked : ∀ c ∈ s.closes, c.is_marked → s.closed

theorem wellFormed_with_capacity (capacity : ℕ) : (with_capacity capacity).WellFormed where
  nodup := List.nodup_nil
  waiting i := by simp [with_capacity, Line.empty]
  marked c hc := by cases hc

section Steps

variable {s s' : Recvs} {i : ℕ}

theorem receive_eq_some : s.receive i = some s' ↔
    ∃ packet packets, s.packets.serve = some (i, packet, packets) ∧ s' = { s with
      recvs := s.recvs.set i (.Returned (some packet)), packets := packets } := by
  unfold receive
  constructor
  · intro h
    split at h
    · rename_i j packet packets hserve
      obtain ⟨rfl, h⟩ := Option.ite_none_right_eq_some.1 h
      exact ⟨packet, packets, hserve, (Option.some.inj h).symm⟩
    · cases h
  · rintro ⟨packet, packets, hserve, rfl⟩
    rw [hserve]
    exact if_pos rfl

/-- What a step does. -/
inductive Effect (s : Recvs) : Action → Recvs → Prop
  | arrive (packet : Bytes) : Effect s (.arrive packet) { s with packets := s.packets.put packet }
  | recv : Effect s .recv { s with recvs := s.recvs ++ [.Called] }
  | refused (i : ℕ) (hcalled : s.recvs[i]? = some .Called) (hclosed : s.closed = true) :
    Effect s (.check i) { s with recvs := s.recvs.set i (.Returned none) }
  | joined (i : ℕ) (hcalled : s.recvs[i]? = some .Called) (hopen : ¬ s.closed = true) :
    Effect s (.check i) { s with recvs := s.recvs.set i .Waiting, packets := s.packets.join i }
  | received (i : ℕ) (packet : Bytes) (packets : Line ℕ Bytes)
    (hserve : s.packets.serve = some (i, packet, packets)) :
    Effect s (.receive i) { s with
      recvs := s.recvs.set i (.Returned (some packet)), packets := packets }
  | dropped (i : ℕ) (hcalled : s.recvs[i]? = some .Called) :
    Effect s (.drop_recv i) { s with recvs := s.recvs.set i .Dropped }
  | left (i : ℕ) (hwaiting : s.recvs[i]? = some .Waiting) :
    Effect s (.drop_recv i) { s with
      recvs := s.recvs.set i .Dropped, packets := s.packets.leave i }
  | close : Effect s .close { s with closes := s.closes ++ [.Called] }
  | marked (k : ℕ) (hcalled : s.closes[k]? = some .Called) (hclosed : s.closed = true) :
    Effect s (.mark k) { s with closes := s.closes.set k (.Returned (.ok ())) }
  | marks (k : ℕ) (hcalled : s.closes[k]? = some .Called) (hopen : ¬ s.closed = true) :
    Effect s (.mark k) { s with closed := true, closes := s.closes.set k .reliable_channel }
  | awaited (k : ℕ) (result : Except String Unit) (c c' : Close) (hc : s.closes[k]? = some c)
    (hnext : c.next result = some c') :
    Effect s (.awaited k result) { s with closes := s.closes.set k c' }
  | drop_close (k : ℕ) (c : Close) (hc : s.closes[k]? = some c) (hopen : c.is_returned = false) :
    Effect s (.drop_close k) { s with closes := s.closes.set k .Dropped }

theorem step_effect {a : Action} (h : step s a = some s') : Effect s a s' := by
  cases a with
  | arrive packet =>
    obtain ⟨-, h⟩ := Option.ite_none_right_eq_some.1 h
    exact Option.some.inj h ▸ .arrive packet
  | recv => exact Option.some.inj h ▸ .recv
  | check i =>
    obtain ⟨hcalled, h⟩ := Option.ite_none_right_eq_some.1 h
    split at h <;> rename_i hclosed
    · exact Option.some.inj h ▸ .refused i hcalled hclosed
    · exact Option.some.inj h ▸ .joined i hcalled hclosed
  | receive i =>
    obtain ⟨packet, packets, hserve, rfl⟩ := receive_eq_some.1 h
    exact .received i packet packets hserve
  | drop_recv i =>
    change s.drop_recv i = some s' at h
    unfold Recvs.drop_recv at h
    split at h
    · rename_i hcalled
      exact Option.some.inj h ▸ .dropped i hcalled
    · rename_i hwaiting
      exact Option.some.inj h ▸ .left i hwaiting
    · cases h
  | close => exact Option.some.inj h ▸ .close
  | mark k =>
    obtain ⟨hcalled, h⟩ := Option.ite_none_right_eq_some.1 h
    split at h <;> rename_i hclosed
    · exact Option.some.inj h ▸ .marked k hcalled hclosed
    · exact Option.some.inj h ▸ .marks k hcalled hclosed
  | awaited k result =>
    obtain ⟨c, hc, h⟩ := Option.bind_eq_some_iff.1 h
    obtain ⟨c', hnext, rfl⟩ := Option.map_eq_some_iff.1 h
    exact .awaited k result c c' hc hnext
  | drop_close k =>
    obtain ⟨c, hc, h⟩ := Option.bind_eq_some_iff.1 h
    split at h
    · cases h
    · rename_i hopen
      exact Option.some.inj h ▸ .drop_close k c hc (Bool.not_eq_true _ ▸ hopen)

/-- A call changes, and the line changes with it. -/
theorem WellFormed.set (hs : s.WellFormed) {r r' : Recv} (hr : s.recvs[i]? = some r)
    {packets : Line ℕ Bytes} (hnodup : packets.waiting.Nodup)
    (hself : i ∈ packets.waiting ↔ r' = .Waiting)
    (hother : ∀ j, j ≠ i → (j ∈ packets.waiting ↔ j ∈ s.packets.waiting)) :
    WellFormed { s with recvs := s.recvs.set i r', packets := packets } where
  nodup := hnodup
  waiting j := by
    rw [getElem?_set_eq_some hr]
    by_cases hij : i = j
    · subst hij
      simp [hself, eq_comm]
    · simp [hij, hother j (Ne.symm hij), hs.waiting j]
  marked := hs.marked

theorem WellFormed.not_mem (hs : s.WellFormed) {r : Recv} (hr : s.recvs[i]? = some r)
    (hne : r ≠ .Waiting) : i ∉ s.packets.waiting := by
  intro hmem
  rw [hs.waiting, hr, Option.some_inj] at hmem
  exact hne hmem

/-- A call of `close` changes, and only sets the flag. -/
theorem WellFormed.close (hs : s.WellFormed) {k : ℕ} {c' : Close} {closed : Bool}
    (hkeep : s.closed → closed) (hmarked : c'.is_marked → closed) :
    WellFormed { s with closed := closed, closes := s.closes.set k c' } where
  nodup := hs.nodup
  waiting := hs.waiting
  marked d hd hmark := by
    rcases List.mem_or_eq_of_mem_set hd with hd | rfl
    · exact hkeep (hs.marked d hd hmark)
    · exact hmarked hmark

theorem WellFormed.step {a : Action} (hs : s.WellFormed) (h : step s a = some s') :
    s'.WellFormed := by
  cases step_effect h with
  | arrive packet => exact ⟨hs.nodup, hs.waiting, hs.marked⟩
  | recv =>
    refine ⟨hs.nodup, fun i => ?_, hs.marked⟩
    rw [getElem?_concat_eq_some, hs.waiting]
    simp
  | refused i hcalled =>
    have hnot := hs.not_mem hcalled (by simp)
    exact hs.set hcalled hs.nodup (by simp [hnot]) fun _ _ => Iff.rfl
  | joined i hcalled =>
    have hnot := hs.not_mem hcalled (by simp)
    exact hs.set hcalled (Line.nodup_join hs.nodup hnot) (by simp [Line.join]) fun j hj => by
      simp [Line.join, hj]
  | received i packet packets hserve =>
    obtain ⟨hwaiting, -⟩ := Line.serve_eq_some.1 hserve
    have hnodup := hs.nodup
    rw [hwaiting] at hnodup
    obtain ⟨hnot, hnodup⟩ := List.nodup_cons.1 hnodup
    have hmem : i ∈ s.packets.waiting := by rw [hwaiting]; exact List.mem_cons_self
    refine hs.set ((hs.waiting i).1 hmem) hnodup (by simp [hnot]) fun j hj => ?_
    rw [hwaiting, List.mem_cons, or_iff_right hj]
  | dropped i hcalled =>
    have hnot := hs.not_mem hcalled (by simp)
    exact hs.set hcalled hs.nodup (by simp [hnot]) fun _ _ => Iff.rfl
  | left i hwaiting =>
    refine hs.set hwaiting (hs.nodup.erase i) ?_ fun j hj => List.mem_erase_of_ne hj
    simp [Line.leave, hs.nodup.mem_erase_iff]
  | close =>
    refine ⟨hs.nodup, hs.waiting, fun c hc hmark => ?_⟩
    rcases List.mem_append.1 hc with hc | hc
    · exact hs.marked c hc hmark
    · obtain rfl := List.mem_singleton.1 hc
      cases hmark
  | marked k _ hclosed => exact hs.close id fun _ => hclosed
  | marks k => exact hs.close (fun _ => rfl) fun _ => rfl
  | awaited k result c c' hc hnext =>
    refine hs.close id fun _ => hs.marked c (List.mem_of_getElem? hc) ?_
    cases c <;> first | rfl | cases hnext
  | drop_close k => exact hs.close id fun hmark => by cases hmark

theorem wellFormed_of_run {capacity : ℕ} {as : List Action}
    (h : Transition.run step (with_capacity capacity) as = some s) : s.WellFormed :=
  Transition.run_invariant (fun _ _ _ hs hstep => hs.step hstep) (wellFormed_with_capacity _) h

end Steps

/-! ## A call that can return -/

/-- The call of `recv` has been made and has not returned. -/
def pending (s : Recvs) (i : ℕ) : Prop :=
  s.recvs[i]? = some .Called ∨ s.recvs[i]? = some .Waiting

/-- No packet arrives in the step, and no caller of `recv` gives up. -/
def Action.is_quiet : Action → Bool
  | arrive _ | drop_recv _ => false
  | _ => true

/-- The call can return, although no packet arrives any more and no caller gives up. -/
def CanReturn (s : Recvs) (i : ℕ) : Prop :=
  ∃ as t packet, (∀ a ∈ as, a.is_quiet) ∧ Transition.run step s as = some t ∧
    t.recvs[i]? = some (.Returned packet)

section CanReturn

variable {s s' : Recvs} {i : ℕ}

theorem starved_step {a : Action} (hi : s.packets.Starved i) (ha : a.is_quiet)
    (h : step s a = some s') : s'.packets.Starved i := by
  cases step_effect h with
  | arrive packet => cases ha
  | dropped j => cases ha
  | left j => cases ha
  | joined j => exact hi.join j
  | received j packet packets hserve => exact hi.serve hserve
  | _ => exact hi

/-- A call whose packets are taken by those ahead of it waits for ever. -/
theorem not_canReturn_of_starved (hs : s.WellFormed) (hi : s.packets.Starved i) :
    ¬ s.CanReturn i := by
  rintro ⟨as, t, packet, has, hrun, hreturned⟩
  obtain ⟨ht, hti⟩ := Transition.run_invariant_along
    (P := fun t : Recvs => t.WellFormed ∧ t.packets.Starved i) (C := fun _ a => a.is_quiet = true)
    (fun _ _ _ ht ha hstep => ⟨ht.1.step hstep, starved_step ht.2 ha hstep⟩) ⟨hs, hi⟩
    (Transition.along_of_forall has) hrun
  rw [(ht.waiting i).1 hti.1] at hreturned
  cases hreturned

/-- There is a packet for the call, which is in line. -/
def Served (i : ℕ) (s : Recvs) : Prop :=
  s.WellFormed ∧ i ∈ s.packets.waiting ∧ s.packets.waiting.idxOf i < s.packets.items.length

/-- The call that is first receives a packet. -/
theorem Served.receive (hs : s.Served i) : ∃ j s', step s (.receive j) = some s' ∧
    ((∃ packet, s'.recvs[i]? = some (.Returned packet)) ∨ s'.Served i ∧
      s'.packets.waiting.idxOf i < s.packets.waiting.idxOf i) := by
  obtain ⟨hs, hmem, hlt⟩ := hs
  obtain ⟨j, waiting, hwaiting⟩ := List.exists_cons_of_ne_nil (List.ne_nil_of_mem hmem)
  obtain ⟨packet, items, hitems⟩ := List.exists_cons_of_length_pos (Nat.zero_lt_of_lt hlt)
  have hserve : s.packets.serve = some (j, packet, ⟨waiting, items⟩) :=
    Line.serve_eq_some.2 ⟨hwaiting, hitems⟩
  have hstep : step s (.receive j) = some _ := receive_eq_some.2 ⟨packet, _, hserve, rfl⟩
  refine ⟨j, _, hstep, ?_⟩
  by_cases hij : i = j
  · subst hij
    exact .inl ⟨packet, (getElem?_set_eq_some ((hs.waiting i).1 hmem)).2 (.inl ⟨rfl, rfl⟩)⟩
  · have hidx := Line.idxOf_of_serve hserve (Ne.symm hij)
    rw [hwaiting, List.mem_cons, or_iff_right hij] at hmem
    rw [hidx, hitems, List.length_cons] at hlt
    exact .inr ⟨⟨hs.step hstep, hmem, Nat.lt_of_succ_lt_succ hlt⟩,
      by rw [hidx]; exact Nat.lt_succ_self _⟩

/-- The calls ahead receive their packets, and then the call does. -/
theorem Served.canReturn (hs : s.Served i) : s.CanReturn i := by
  obtain ⟨as, t, has, hrun, packet, hreturned⟩ := Transition.exists_run_of_rank (f := step)
    (P := Served i) (Q := fun s => ∃ packet, s.recvs[i]? = some (.Returned packet))
    (C := fun a => a.is_quiet = true) (fun s => s.packets.waiting.idxOf i)
    (fun s hs => let ⟨j, s', hstep, h⟩ := hs.receive; ⟨.receive j, s', rfl, hstep, h⟩) hs
  exact ⟨as, t, packet, has, hrun, hreturned⟩

/-- **Once the flag is set**, every call can return exactly when there is a packet for each call in
line. -/
theorem canReturn_iff (hs : s.WellFormed) (hclosed : s.closed = true) :
    (∀ i, s.pending i → s.CanReturn i) ↔
      s.packets.waiting.length ≤ s.packets.items.length := by
  constructor
  · intro hall
    by_contra hlt
    obtain ⟨i, hi⟩ := (Line.exists_starved_iff hs.nodup).2 (Nat.not_le.1 hlt)
    exact not_canReturn_of_starved hs hi (hall i (.inr ((hs.waiting i).1 hi.1)))
  · rintro hle i (hcalled | hwaiting)
    · have hstep : step s (.check i) = some { s with recvs := s.recvs.set i (.Returned none) } := by
        rw [step, check, if_pos hcalled, if_pos hclosed]
      exact ⟨[.check i], _, none, by simp [Action.is_quiet],
        Transition.run_cons_eq_some.2 ⟨_, hstep, rfl⟩,
        (getElem?_set_eq_some hcalled).2 (.inl ⟨rfl, rfl⟩)⟩
    · have hmem := (hs.waiting i).2 hwaiting
      exact Served.canReturn ⟨hs, hmem,
        Nat.lt_of_lt_of_le (List.idxOf_lt_length_of_mem hmem) hle⟩

end CanReturn

/-! ## Closing -/

/-- A call of `close` has returned. -/
def completed (s : Recvs) : Prop := ∃ c ∈ s.closes, c.is_returned = true

/-- A call of `close` returns in the step. -/
def completes (s : Recvs) : Action → Prop
  | .mark _ => s.closed = true
  | .awaited k _ => s.closes[k]? = some .peer_connection
  | _ => False

instance (s : Recvs) : Decidable s.completed := inferInstanceAs (Decidable (∃ _ ∈ _, _))

instance (s : Recvs) (a : Action) : Decidable (s.completes a) := by
  cases a <;> unfold completes <;> infer_instance

/-- There is a packet for every call in line. -/
def Enough (s : Recvs) : Prop := s.packets.waiting.length ≤ s.packets.items.length

instance (s : Recvs) : Decidable s.Enough := inferInstanceAs (Decidable (_ ≤ _))

section Closing

variable {s s' : Recvs} {a : Action}

theorem completed_set {k : ℕ} {c c' : Close} (hc : s.closes[k]? = some c)
    (hopen : c.is_returned = false) {closed : Bool} :
    completed { s with closed := closed, closes := s.closes.set k c' } ↔
      s.completed ∨ c'.is_returned = true := by
  have hsplit := eq_append_of_getElem? hc
  unfold completed
  dsimp only
  rw [set_eq_append hc]
  conv_rhs => rw [hsplit]
  simp only [List.mem_append, List.mem_cons, or_and_right, exists_or, exists_eq_left, hopen,
    Bool.false_eq_true, false_or]
  rw [← or_assoc]
  exact or_right_comm

theorem completed_concat (c : Close) :
    completed { s with closes := s.closes ++ [c] } ↔ s.completed ∨ c.is_returned = true := by
  simp [completed, or_and_right, exists_or]

/-- **What a step means for closing**: it is complete when a call of `close` has returned, which
leaves the line and the packets alone. -/
theorem completed_step (h : step s a = some s') :
    (s'.completed ↔ s.completed ∨ s.completes a) ∧ (s.completes a → s'.packets = s.packets) := by
  cases step_effect h with
  | close =>
    refine ⟨(completed_concat .Called).trans (or_congr_right ?_), nofun⟩
    simp [Close.is_returned, completes]
  | marked k hcalled hclosed =>
    refine ⟨(completed_set hcalled rfl).trans (or_congr_right ?_), fun _ => rfl⟩
    simp [Close.is_returned, completes, hclosed]
  | marks k hcalled hopen =>
    refine ⟨(completed_set hcalled rfl).trans (or_congr_right ?_), fun _ => rfl⟩
    simp [Close.is_returned, completes, hopen]
  | awaited k result c c' hc hnext =>
    have hopen : c.is_returned = false := by cases c <;> first | rfl | cases hnext
    refine ⟨(completed_set hc hopen).trans (or_congr_right ?_), fun _ => rfl⟩
    rw [completes, hc]
    cases c <;> cases hnext <;> simp [Close.is_returned]
  | drop_close k c hc hopen =>
    refine ⟨(completed_set hc hopen).trans (or_congr_right ?_), nofun⟩
    simp [Close.is_returned, completes]
  | _ => exact ⟨(or_iff_left id).symm, nofun⟩

/-- While the flag is set no call joins the line. -/
theorem Enough.step (hs : s.Enough) (hclosed : s.closed = true) (h : step s a = some s') :
    s'.Enough := by
  cases step_effect h with
  | arrive packet =>
    rw [Enough, Line.put, List.length_append]
    exact Nat.le_add_right_of_le hs
  | joined i _ hopen => exact absurd hclosed hopen
  | received i packet packets hserve =>
    obtain ⟨hwaiting, hitems⟩ := Line.serve_eq_some.1 hserve
    rw [Enough, hwaiting, hitems, List.length_cons, List.length_cons] at hs
    exact Nat.le_of_succ_le_succ hs
  | left i => exact Nat.le_trans List.length_erase_le hs
  | _ => exact hs

theorem WellFormed.closed_of_completed (hs : s.WellFormed) (h : s.completed) : s.closed = true := by
  obtain ⟨c, hc, hreturned⟩ := h
  refine hs.marked c hc ?_
  cases c <;> first | rfl | cases hreturned

/-- **A step keeps the calls supplied** unless `close` returns in it while a packet is missing. -/
theorem supplied_step (hs : s.WellFormed) (hsupplied : s.completed → s.Enough)
    (h : step s a = some s') :
    (s'.completed → s'.Enough) ↔ (s.completes a → s.Enough) := by
  obtain ⟨hcompleted, hpackets⟩ := completed_step h
  by_cases hbefore : s.completed
  · have henough := hsupplied hbefore
    exact iff_of_true (fun _ => henough.step (hs.closed_of_completed hbefore) h) fun _ => henough
  · rw [hcompleted, or_iff_right hbefore]
    refine forall_congr' fun hcompletes => ?_
    rw [Enough, Enough, hpackets hcompletes]

end Closing

/-- **When a closed session leaves no call waiting**: in a run every call of `recv` that has been
made when `close` has returned can return, exactly when each call of `close` that returns leaves at
most as many calls in line as there are packets. -/
theorem recv_after_close_iff (capacity : ℕ) (as : List Action) (s : Recvs)
    (h : Transition.run step (with_capacity capacity) as = some s) :
    (∀ bs u, bs <+: as → Transition.run step (with_capacity capacity) bs = some u →
      u.completed → ∀ i, u.pending i → u.CanReturn i) ↔
      Transition.Along step (fun s a => s.completes a → s.Enough) (with_capacity capacity) as := by
  have hiff := Transition.forall_prefix_iff
    (P := fun s : Recvs => s.WellFormed ∧ (s.completed → s.Enough))
    (C := fun s a => s.completes a → s.Enough)
    (fun s a s' hs hstep => by
      rw [← supplied_step hs.1 hs.2 hstep]
      exact and_iff_right (hs.1.step hstep))
    ⟨wellFormed_with_capacity capacity, by simp [completed, with_capacity]⟩ h
  rw [← hiff]
  refine forall_congr' fun bs => forall_congr' fun u => forall_congr' fun _ => ?_
  refine forall_congr' fun hu => ?_
  have hwf := wellFormed_of_run hu
  rw [and_iff_right hwf]
  refine forall_congr' fun hcompleted => ?_
  exact canReturn_iff hwf (hwf.closed_of_completed hcompleted)

/-- A packet arrives for a call of `recv`, and then the session is closed. -/
def closed_after_packet : List Action :=
  [.recv, .check 0, .arrive [7], .close, .mark 0, .awaited 0 (.ok ()), .awaited 0 (.ok ()),
    .awaited 0 (.ok ())]

/-- The session is closed while a call of `recv` waits for a packet. -/
def closed_without_packet : List Action :=
  [.recv, .check 0, .close, .mark 0, .awaited 0 (.ok ()), .awaited 0 (.ok ()), .awaited 0 (.ok ())]

theorem recv_after_close_packet :
    ∃ s, Transition.run step (with_capacity DEFAULT_PACKET_CHANNEL_CAPACITY) closed_after_packet =
      some s ∧ ((∀ bs u, bs <+: closed_after_packet →
        Transition.run step (with_capacity DEFAULT_PACKET_CHANNEL_CAPACITY) bs = some u →
        u.completed → ∀ i, u.pending i → u.CanReturn i) ↔
      Transition.Along step (fun s a => s.completes a → s.Enough)
        (with_capacity DEFAULT_PACKET_CHANNEL_CAPACITY) closed_after_packet) :=
  ⟨_, rfl, recv_after_close_iff DEFAULT_PACKET_CHANNEL_CAPACITY closed_after_packet _ rfl⟩

/-- A call of `recv` that waits when the session is closed waits for ever. -/
theorem recv_waits_after_close :
    ¬ ∀ as s, Transition.run step (with_capacity DEFAULT_PACKET_CHANNEL_CAPACITY) as = some s →
      s.completed → ∀ i, s.pending i → s.CanReturn i := by
  intro h
  have hrun : Transition.run step (with_capacity DEFAULT_PACKET_CHANNEL_CAPACITY)
      closed_without_packet = some _ := rfl
  have hle := (canReturn_iff (wellFormed_of_run hrun) rfl).1 (h _ _ hrun (by decide))
  exact absurd hle (by decide)

end Recvs

end Nethernet
