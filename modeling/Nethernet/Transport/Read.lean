import Nethernet.Foundations.Sequential
import Nethernet.Session.Recv

/-!
# Reading a stream

The `AsyncRead` half of `NethernetStream` (`src/transport/stream.rs`): `SessionStream` keeps a call
of `Session::recv`, which takes steps only while `poll_next` polls it. A read polls it any number of
times, or not at all while the last packet is not used up. In between the call keeps its place in
the line for `packet_rx`, and the lock if it is the first; `read_beside_iff` says when other calls
of `recv` on the session can go on all the same.
-/

namespace Nethernet

open Foundations

/-- Poll a call of `recv`: it goes on until it has to wait. -/
def Recvs.poll (s : Recvs) (i : ℕ) : Recvs :=
  let s := (s.check i).getD s
  (s.receive i).getD s

/-- The session, and the call of `recv` that the stream keeps. -/
structure SessionStream where
  session : Recvs
  recv_future : ℕ
  deriving DecidableEq, Repr

namespace SessionStream

/-- A new call of `recv` that nothing has polled. -/
def from_session (session : Recvs) : SessionStream where
  session := { session with recvs := session.recvs ++ [.Called] }
  recv_future := session.recvs.length

/-- Poll the call, and replace it if it returns. -/
def poll_next (s : SessionStream) : SessionStream × Poll (Option Bytes) :=
  let session := s.session.poll s.recv_future
  match session.recvs[s.recv_future]? with
  | some (.Returned packet) => (from_session session, .Ready packet)
  | _ => ({ s with session := session }, .Pending)

/-- A step of the session, of any call but the one that the stream keeps, or a poll of it. -/
inductive Action
  | session (a : Recvs.Action)
  | poll_next
  deriving DecidableEq, Repr

/-- One step. -/
def step : Transition SessionStream Action
  | s, .session a =>
    if a.recv_call = some s.recv_future then none
    else (Recvs.step s.session a).map fun session => { s with session := session }
  | s, .poll_next => some s.poll_next.1

/-! ## The call that the stream keeps -/

/-- The call that the stream keeps has not returned. -/
structure WellFormed (s : SessionStream) : Prop where
  session : s.session.WellFormed
  pending : s.session.pending s.recv_future

end SessionStream

namespace Recvs

variable {s s' : Recvs} {i : ℕ}

/-- A step of another call leaves a call alone. -/
theorem pending_step {a : Action} (hi : s.pending i) (ha : a.recv_call ≠ some i)
    (h : step s a = some s') : s'.pending i := by
  have hset : ∀ {j : ℕ} (r' : Recv), some j ≠ some i →
      (s.recvs.set j r')[i]? = some .Called ∨ (s.recvs.set j r')[i]? = some .Waiting := by
    intro j r' hne
    rw [List.getElem?_set_ne fun hji => hne (congrArg some hji)]
    exact hi
  cases step_effect h with
  | recv =>
    exact hi.imp (fun h => getElem?_concat_eq_some.2 (.inl h))
      fun h => getElem?_concat_eq_some.2 (.inl h)
  | refused j => exact hset _ ha
  | joined j => exact hset _ ha
  | received j => exact hset _ ha
  | dropped j => exact hset _ ha
  | left j => exact hset _ ha
  | _ => exact hi

/-- A call that has been dropped takes no step. -/
theorem dropped_step {a : Action} (hs : s.WellFormed) (hi : s.recvs[i]? = some .Dropped)
    (h : step s a = some s') : s'.recvs[i]? = some .Dropped := by
  have hset : ∀ {j : ℕ} {r : Recv} (r' : Recv), s.recvs[j]? = some r → r ≠ .Dropped →
      (s.recvs.set j r')[i]? = some .Dropped := by
    intro j r r' hr hne
    refine (getElem?_set_eq_some hr).2 (.inr ⟨?_, hi⟩)
    rintro rfl
    exact hne (Option.some.inj (hr.symm.trans hi))
  cases step_effect h with
  | recv => exact getElem?_concat_eq_some.2 (.inl hi)
  | refused j hcalled => exact hset _ hcalled (by simp)
  | joined j hcalled => exact hset _ hcalled (by simp)
  | received j packet packets hserve =>
    have hmem : j ∈ s.packets.waiting := by
      rw [(Line.serve_eq_some.1 hserve).1]
      exact List.mem_cons_self
    exact hset _ ((hs.waiting j).1 hmem) (by simp)
  | dropped j hcalled => exact hset _ hcalled (by simp)
  | left j hwaiting => exact hset _ hwaiting (by simp)
  | _ => exact hi

/-- What the steps of a poll keep, the poll keeps. -/
theorem poll_invariant {P : Recvs → Prop}
    (hcheck : ∀ s s', P s → step s (.check i) = some s' → P s')
    (hreceive : ∀ s s', P s → step s (.receive i) = some s' → P s') (hs : P s) : P (s.poll i) := by
  have hchecked : P ((s.check i).getD s) := by
    rcases h : s.check i with _ | s'
    · exact hs
    · exact hcheck s s' hs h
  unfold Recvs.poll
  dsimp only
  rcases h : ((s.check i).getD s).receive i with _ | s'
  · exact hchecked
  · exact hreceive _ s' hchecked h

theorem WellFormed.poll (hs : s.WellFormed) (i : ℕ) : (s.poll i).WellFormed :=
  poll_invariant (fun _ _ hs h => hs.step h) (fun _ _ hs h => hs.step h) hs

/-- A poll puts the call at the end of the line at most: it is ahead of nobody who was not behind
it. -/
theorem not_ahead_poll (hs : s.WellFormed) {j : ℕ} (h : ¬ s.packets.Ahead i j) :
    ¬ (s.poll i).packets.Ahead i j := by
  have hpoll := poll_invariant (i := i)
    (P := fun s : Recvs => s.WellFormed ∧ ¬ s.packets.Ahead i j) ?_ ?_ ⟨hs, h⟩
  · exact hpoll.2
  · intro s s' hs hstep
    refine ⟨hs.1.step hstep, fun hahead => ?_⟩
    cases step_effect hstep with
    | refused => exact hs.2 hahead
    | joined _ hcalled =>
      exact hs.1.not_mem hcalled (by simp) (Line.mem_of_ahead_join hahead)
  · intro s s' hs hstep
    refine ⟨hs.1.step hstep, fun hahead => ?_⟩
    cases step_effect hstep with
    | received _ packet packets hserve => exact hs.2 (Line.ahead_of_serve hserve hahead)

/-- A poll finds no packet where there is none. -/
theorem items_poll (h : s.packets.items = []) : (s.poll i).packets.items = [] := by
  refine poll_invariant (P := fun s : Recvs => s.packets.items = []) ?_ ?_ h
  · intro s s' hs hstep
    cases step_effect hstep <;> exact hs
  · intro s s' hs hstep
    cases step_effect hstep with
    | received _ packet packets hserve =>
      rw [(Line.serve_eq_some.1 hserve).2] at hs
      cases hs

/-- A call that is polled returns or is still pending. -/
theorem pending_poll (hi : s.pending i) :
    (∃ packet, (s.poll i).recvs[i]? = some (.Returned packet)) ∨ (s.poll i).pending i := by
  refine poll_invariant (P := fun s : Recvs =>
    (∃ packet, s.recvs[i]? = some (.Returned packet)) ∨ s.pending i) ?_ ?_ (.inr hi)
  · intro s s' hs hstep
    cases step_effect hstep with
    | refused _ hcalled =>
      exact .inl ⟨none, (getElem?_set_eq_some hcalled).2 (.inl ⟨rfl, rfl⟩)⟩
    | joined _ hcalled =>
      exact .inr (.inr ((getElem?_set_eq_some hcalled).2 (.inl ⟨rfl, rfl⟩)))
  · intro s s' hs hstep
    cases step_effect hstep with
    | received _ packet packets hserve =>
      obtain ⟨r, hr⟩ : ∃ r, s.recvs[i]? = some r := by
        rcases hs with ⟨packet, h⟩ | h | h <;> exact ⟨_, h⟩
      exact .inl ⟨packet, (getElem?_set_eq_some hr).2 (.inl ⟨rfl, rfl⟩)⟩

end Recvs

namespace SessionStream

variable {s s' : SessionStream} {i : ℕ}

theorem wellFormed_from_session {session : Recvs} (hs : session.WellFormed) :
    (from_session session).WellFormed where
  session := hs.step (a := .recv) rfl
  pending := .inl List.getElem?_concat_length

/-- What a poll of the stream does: the session goes on, and a call that returned is replaced. -/
theorem poll_next_cases (s : SessionStream) :
    s.poll_next.1 = from_session (s.session.poll s.recv_future) ∨
      s.poll_next.1 = { s with session := s.session.poll s.recv_future } ∧
        ∀ packet, (s.session.poll s.recv_future).recvs[s.recv_future]? ≠
          some (.Returned packet) := by
  unfold poll_next
  dsimp only
  split
  · exact .inl rfl
  · rename_i hne
    exact .inr ⟨rfl, hne⟩

theorem WellFormed.step {a : Action} (hs : s.WellFormed) (h : step s a = some s') :
    s'.WellFormed := by
  cases a with
  | session a =>
    obtain ⟨hother, h⟩ := Option.ite_none_left_eq_some.1 h
    obtain ⟨session, hstep, rfl⟩ := Option.map_eq_some_iff.1 h
    exact ⟨hs.session.step hstep, Recvs.pending_step hs.pending hother hstep⟩
  | poll_next =>
    obtain rfl := Option.some.inj h
    have hpoll := hs.session.poll s.recv_future
    rcases s.poll_next_cases with heq | ⟨heq, hne⟩
    · rw [heq]
      exact wellFormed_from_session hpoll
    · rw [heq]
      refine ⟨hpoll, (Recvs.pending_poll hs.pending).resolve_left ?_⟩
      rintro ⟨packet, hreturned⟩
      exact hne packet hreturned

theorem wellFormed_of_run {session : Recvs} (hs : session.WellFormed) {as : List Action}
    (h : Transition.run step (from_session session) as = some s) : s.WellFormed :=
  Transition.run_invariant (fun _ _ _ hs hstep => hs.step hstep) (wellFormed_from_session hs) h

theorem session_step {a : Recvs.Action} {session : Recvs} (ha : a.recv_call ≠ some s.recv_future)
    (h : Recvs.step s.session a = some session) :
    step s (.session a) = some { s with session := session } := by
  rw [step, if_neg ha, h]
  rfl

/-! ## A call beside the stream -/

/-- A step that neither polls the stream nor brings a packet. -/
def Action.is_beside : Action → Bool
  | .session (.arrive _) | .poll_next => false
  | .session _ => true

/-- The call can return, though the stream is not polled and no packet arrives any more. -/
def CanReturn (s : SessionStream) (i : ℕ) : Prop :=
  ∃ as t packet, (∀ a ∈ as, a.is_beside) ∧ Transition.run step s as = some t ∧
    t.session.recvs[i]? = some (.Returned packet)

/-- The stream keeps a call that is ahead of the call, or the call has been dropped. -/
def Blocked (r i : ℕ) (s : SessionStream) : Prop :=
  s.WellFormed ∧ s.recv_future = r ∧
    (s.session.packets.Ahead r i ∨ s.session.recvs[i]? = some .Dropped)

theorem Blocked.step {a : Action} {r : ℕ} (hs : s.Blocked r i) (ha : a.is_beside)
    (h : step s a = some s') : s'.Blocked r i := by
  obtain ⟨hwf, hr, hblocked⟩ := hs
  refine ⟨hwf.step h, ?_⟩
  rcases a with a | _
  · obtain ⟨hother, h⟩ := Option.ite_none_left_eq_some.1 h
    obtain ⟨session, hstep, rfl⟩ := Option.map_eq_some_iff.1 h
    rw [hr] at hother
    refine ⟨hr, ?_⟩
    rcases hblocked with hahead | hdropped
    · cases Recvs.step_effect hstep with
      | arrive => cases ha
      | joined j => exact .inl (hahead.join j)
      | received j packet packets hserve =>
        exact .inl (hahead.serve hserve fun hj => hother (congrArg some hj))
      | left j hwaiting =>
        by_cases hji : j = i
        · subst hji
          exact .inr ((getElem?_set_eq_some hwaiting).2 (.inl ⟨rfl, rfl⟩))
        · exact .inl (hahead.leave (fun hj => hother (congrArg some hj)) hji)
      | _ => exact .inl hahead
    · exact .inr (Recvs.dropped_step hwf.session hdropped hstep)
  · cases ha

/-- A call behind that of the stream waits until the stream is polled. -/
theorem not_canReturn_of_ahead (hs : s.WellFormed)
    (hi : s.session.packets.Ahead s.recv_future i) : ¬ s.CanReturn i := by
  rintro ⟨as, t, packet, has, hrun, hreturned⟩
  obtain ⟨ht, -, hblocked⟩ := Transition.run_invariant_along (P := Blocked s.recv_future i)
    (C := fun _ a => a.is_beside = true) (fun _ _ _ ht ha hstep => ht.step ha hstep)
    ⟨hs, rfl, .inl hi⟩ (Transition.along_of_forall has) hrun
  rcases hblocked with hahead | hdropped
  · rw [(ht.session.waiting i).1 hahead.mem_right] at hreturned
    cases hreturned
  · rw [hdropped] at hreturned
    cases hreturned

/-- There is a packet, and the call of the stream is not ahead of the call. -/
def Unblocked (i : ℕ) (s : SessionStream) : Prop :=
  s.session.WellFormed ∧ s.session.packets.items ≠ [] ∧ i ∈ s.session.packets.waiting ∧
    i ≠ s.recv_future ∧ ¬ s.session.packets.Ahead s.recv_future i

/-- The first in line receives the packet if it is the call, and may give up if not. -/
theorem Unblocked.step (hs : s.Unblocked i) : ∃ a s', a.is_beside = true ∧
    SessionStream.step s a = some s' ∧
      ((∃ packet, s'.session.recvs[i]? = some (.Returned packet)) ∨ s'.Unblocked i ∧
        s'.session.packets.waiting.idxOf i < s.session.packets.waiting.idxOf i) := by
  obtain ⟨hs, hitems, hmem, hne, hahead⟩ := hs
  obtain ⟨j, waiting, hwaiting⟩ := List.exists_cons_of_ne_nil (List.ne_nil_of_mem hmem)
  obtain ⟨packet, items, hcons⟩ := List.exists_cons_of_ne_nil hitems
  by_cases hij : i = j
  · subst hij
    have hserve : s.session.packets.serve = some (i, packet, ⟨waiting, items⟩) :=
      Line.serve_eq_some.2 ⟨hwaiting, hcons⟩
    have hstep : Recvs.step s.session (.receive i) = some _ :=
      Recvs.receive_eq_some.2 ⟨packet, _, hserve, rfl⟩
    exact ⟨.session (.receive i), _, rfl, session_step (fun h => hne (Option.some.inj h)) hstep,
      .inl ⟨packet, (getElem?_set_eq_some ((hs.waiting i).1 hmem)).2 (.inl ⟨rfl, rfl⟩)⟩⟩
  · have hrest : i ∈ waiting := by
      rw [hwaiting, List.mem_cons] at hmem
      exact hmem.resolve_left hij
    have hother : j ≠ s.recv_future := by
      rintro rfl
      exact hahead (Line.ahead_of_first hwaiting hrest)
    have hj : s.session.recvs[j]? = some .Waiting := by
      rw [← hs.waiting, hwaiting]
      exact List.mem_cons_self
    have hstep : Recvs.step s.session (.drop_recv j) = some { s.session with
        recvs := s.session.recvs.set j .Dropped, packets := s.session.packets.leave j } := by
      change s.session.drop_recv j = _
      rw [Recvs.drop_recv, hj]
    have hleft : (s.session.packets.leave j).waiting = waiting := by
      rw [Line.leave, hwaiting, List.erase_cons_head]
    refine ⟨.session (.drop_recv j), _, rfl,
      session_step (fun h => hother (Option.some.inj h)) hstep,
      .inr ⟨⟨hs.step hstep, hitems, ?_, hne, fun h => hahead (Line.ahead_of_leave h)⟩, ?_⟩⟩
    · exact hleft ▸ hrest
    · dsimp only
      rw [hleft, hwaiting, List.idxOf_cons_ne _ (Ne.symm hij)]
      exact Nat.lt_succ_self _

/-- **A call beside the stream** can return exactly when the stream does not keep a call ahead of
it. -/
theorem canReturn_iff (hs : s.WellFormed) (hitems : s.session.packets.items ≠ [])
    (hi : s.session.recvs[i]? = some .Waiting) (hne : i ≠ s.recv_future) :
    s.CanReturn i ↔ ¬ s.session.packets.Ahead s.recv_future i := by
  constructor
  · exact fun h hahead => not_canReturn_of_ahead hs hahead h
  · intro hahead
    obtain ⟨as, t, has, hrun, packet, hreturned⟩ := Transition.exists_run_of_rank (f := step)
      (P := Unblocked i) (Q := fun s => ∃ packet, s.session.recvs[i]? = some (.Returned packet))
      (C := fun a => a.is_beside = true) (fun s => s.session.packets.waiting.idxOf i)
      (fun s hs => hs.step) ⟨hs.session, hitems, (hs.session.waiting i).2 hi, hne, hahead⟩
    exact ⟨as, t, packet, has, hrun, hreturned⟩

/-! ## Reads and calls in any order -/

/-- While there is a packet nobody is behind the call that the stream keeps. -/
def Clear (s : SessionStream) : Prop :=
  s.session.packets.items ≠ [] → ∀ i, ¬ s.session.packets.Ahead s.recv_future i

/-- A packet arrives only when no call is behind the call that the stream keeps, and while there is
a packet no call joins the line behind it. -/
def Clears (s : SessionStream) : Action → Prop
  | .session (.arrive _) =>
    ∀ i ∈ s.session.packets.waiting, ¬ s.session.packets.Ahead s.recv_future i
  | .session (.check _) => s.session.closed = false → s.session.packets.items ≠ [] →
    s.recv_future ∉ s.session.packets.waiting
  | _ => True

instance (s : SessionStream) (a : Action) : Decidable (s.Clears a) := by
  unfold Clears
  split <;> infer_instance

theorem clear_step {a : Action} (hs : s.WellFormed) (hclear : s.Clear) (h : step s a = some s') :
    s'.Clear ↔ s.Clears a := by
  rcases a with a | _
  · obtain ⟨hother, h⟩ := Option.ite_none_left_eq_some.1 h
    obtain ⟨session, hstep, rfl⟩ := Option.map_eq_some_iff.1 h
    cases Recvs.step_effect hstep with
    | arrive packet =>
      constructor
      · exact fun h i _ => h (by simp [Line.put]) i
      · exact fun h _ i hahead => h i hahead.mem_right hahead
    | refused j _ hclosed =>
      refine iff_of_true hclear fun hopen => ?_
      rw [hclosed] at hopen
      cases hopen
    | joined j hcalled hopen =>
      constructor
      · exact fun h _ hitems hmem => h hitems j (Line.ahead_join_self hmem)
      · intro h hitems i hahead
        exact h (Bool.not_eq_true _ ▸ hopen) hitems (Line.mem_of_ahead_join hahead)
    | received j packet packets hserve =>
      refine iff_of_true (fun _ i hahead => ?_) trivial
      refine hclear ?_ i (Line.ahead_of_serve hserve hahead)
      rw [(Line.serve_eq_some.1 hserve).2]
      exact List.cons_ne_nil _ _
    | left j =>
      refine iff_of_true (fun hitems i hahead => ?_) trivial
      exact hclear hitems i (Line.ahead_of_leave hahead)
    | _ => exact iff_of_true hclear trivial
  · obtain rfl := Option.some.inj h
    refine iff_of_true (fun hitems i hahead => ?_) trivial
    rcases s.poll_next_cases with heq | ⟨heq, -⟩
    · -- the new call is not in line
      rw [heq] at hahead
      have hnew := (wellFormed_from_session (hs.session.poll s.recv_future)).session
      exact hnew.not_mem (r := .Called) List.getElem?_concat_length (by simp) hahead.mem
    · rw [heq] at hahead hitems
      have hsome : s.session.packets.items ≠ [] := fun hnone => hitems (Recvs.items_poll hnone)
      exact Recvs.not_ahead_poll hs.session (hclear hsome i) hahead

/-- **When reads leave other calls alone**: in a run every call of `recv` that waits while there is
a packet can return without a poll of the stream, exactly when no packet arrives while a call is
behind the one that the stream keeps, and none joins the line behind it while there is a packet. -/
theorem read_beside_iff (capacity : ℕ) (as₀ : List Recvs.Action) (session : Recvs)
    (h₀ : Transition.run Recvs.step (.with_capacity capacity) as₀ = some session)
    (as : List Action) (s : SessionStream)
    (h : Transition.run step (from_session session) as = some s) :
    (∀ bs u, bs <+: as → Transition.run step (from_session session) bs = some u →
      u.session.packets.items ≠ [] → ∀ i, i ≠ u.recv_future →
        u.session.recvs[i]? = some .Waiting → u.CanReturn i) ↔
      Transition.Along step Clears (from_session session) as := by
  have hstart := wellFormed_from_session (Recvs.wellFormed_of_run h₀)
  have hclear : (from_session session).Clear := fun _ i hahead =>
    hstart.session.not_mem (r := .Called) List.getElem?_concat_length (by simp) hahead.mem
  have hiff := Transition.forall_prefix_iff (P := fun s : SessionStream => s.WellFormed ∧ s.Clear)
    (C := Clears) (fun s a s' hs hstep => by
      rw [← clear_step hs.1 hs.2 hstep]
      exact and_iff_right (hs.1.step hstep)) ⟨hstart, hclear⟩ h
  rw [← hiff]
  refine forall_congr' fun bs => forall_congr' fun u => forall_congr' fun _ => ?_
  refine forall_congr' fun hu => ?_
  have hwf := wellFormed_of_run (Recvs.wellFormed_of_run h₀) hu
  rw [and_iff_right hwf]
  refine forall_congr' fun hitems => forall_congr' fun i => ?_
  constructor
  · intro hall hahead
    have hwaiting := (hwf.session.waiting i).1 hahead.mem_right
    by_cases hne : i = u.recv_future
    · exact hahead.ne hwf.session.nodup hne.symm
    · exact (canReturn_iff hwf hitems hwaiting hne).1 (hall hne hwaiting) hahead
  · exact fun hahead hne hwaiting => (canReturn_iff hwf hitems hwaiting hne).2 hahead

/-- A read finds no packet. A packet arrives, a read takes it, and then `recv` is called and another
packet arrives. -/
def read_then_recv : List Action :=
  [.poll_next, .session (.arrive [7]), .poll_next, .session .recv, .session (.check 2),
    .session (.arrive [8])]

/-- A read finds no packet and is given up. Then `recv` is called, and a packet arrives. -/
def recv_after_read : List Action :=
  [.poll_next, .session .recv, .session (.check 1), .session (.arrive [7])]

/-- The call of `recv` that waits can return. -/
theorem read_beside_recv :
    ∃ s, Transition.run step (from_session (.with_capacity DEFAULT_PACKET_CHANNEL_CAPACITY))
        read_then_recv = some s ∧ s.session.packets.items = [[8]] ∧
      s.session.recvs[2]? = some .Waiting ∧ s.CanReturn 2 := by
  have hrun : Transition.run step (from_session (.with_capacity DEFAULT_PACKET_CHANNEL_CAPACITY))
      read_then_recv = some _ := rfl
  have hall := (read_beside_iff DEFAULT_PACKET_CHANNEL_CAPACITY [] _ rfl read_then_recv _ hrun).2
    (by decide)
  exact ⟨_, hrun, rfl, rfl, hall _ _ (List.prefix_refl _) hrun (by decide) 2 (by decide) rfl⟩

/-- A read that was given up keeps a call of `recv` from a packet. -/
theorem recv_waits_for_read :
    ¬ ∀ as s, Transition.run step
        (from_session (.with_capacity DEFAULT_PACKET_CHANNEL_CAPACITY)) as = some s →
      s.session.packets.items ≠ [] → ∀ i, i ≠ s.recv_future →
        s.session.recvs[i]? = some .Waiting → s.CanReturn i := by
  intro h
  have hrun : Transition.run step (from_session (.with_capacity DEFAULT_PACKET_CHANNEL_CAPACITY))
      recv_after_read = some _ := rfl
  have hwf := wellFormed_of_run
    (Recvs.wellFormed_with_capacity DEFAULT_PACKET_CHANNEL_CAPACITY) hrun
  exact not_canReturn_of_ahead (i := 1) hwf (by decide)
    (h _ _ hrun (by decide) 1 (by decide) (by decide))

end SessionStream

end Nethernet
