import Nethernet.Session.Close
import Nethernet.Transport.Write

/-!
# Shutting a stream down

`poll_shutdown` of `NethernetStream` (`src/transport/stream.rs`) over its session: the future it
keeps is a call of `Session::close`, which takes steps while it is polled, and after an error a new
call is made. Any number of calls of `close` run beside it, those of other streams among them.
`shutdown_reports`: a shutdown that succeeds has polled a call that returned `Ok`, and what that
says is what `Reports` says.
-/

namespace Nethernet

open Foundations

/-- What a poll of a call of `close` gives. -/
def Closes.answer (s : Closes) (k : ℕ) : PollResult :=
  match s.closes[k]? with
  | some (.Returned result) => .Ready result
  | _ => .Pending

theorem Closes.answer_eq_ready {s : Closes} {k : ℕ} {result : Except NethernetError Unit} :
    s.answer k = .Ready result ↔ s.closes[k]? = some (.Returned result) := by
  unfold answer
  constructor
  · intro h
    split at h
    · rename_i hreturned
      cases h
      exact hreturned
    · cases h
  · intro h
    rw [h]

/-- A shutdown that succeeds has polled the future of closing. -/
theorem NethernetStream.ready_of_poll_shutdown {s : NethernetStream} {send close : PollResult}
    (h : (s.poll_shutdown send close).2.2 = .Ready (.ok ())) : close = .Ready (.ok ()) := by
  rw [poll_shutdown] at h
  rcases hresult : s.poll_flush send with ⟨s', events, (e | ⟨⟨⟩⟩) | _⟩ <;> rw [hresult] at h
  · cases h
  · rcases close with (e | ⟨⟨⟩⟩) | _
    · cases h
    · rfl
    · cases h
  · cases h

/-- A stream, its session, and the call of `close` that `shutdown_future` is. -/
structure Shutdown where
  stream : NethernetStream
  session : Closes
  shutdown : Option ℕ
  /-- What `poll_shutdown` has returned, with the call of `close` it has polled. -/
  results : List (Option ℕ × PollResult)

namespace Shutdown

/-- A call of the stream, or a step of the session. The drop of the call that the stream keeps is
that of the stream. -/
inductive Action
  | session (a : Closes.Action)
  | poll_write (buf : Bytes) (earlier own : PollResult)
  | poll_flush (send : PollResult)
  /-- The steps are those of the session while the call is polled. -/
  | poll_shutdown (send : PollResult) (steps : List Closes.Action)

/-- A new stream over a session. -/
def from_session (session : Closes) : Shutdown := ⟨.from_session, session, none, []⟩

/-- The call of `close` that is polled: a new one where there is none. -/
def start (s : Shutdown) : ℕ × Closes :=
  match s.shutdown with
  | some k => (k, s.session)
  | none => (s.session.closes.length, { s.session with closes := s.session.closes ++ [.Called] })

def poll_shutdown (s : Shutdown) (send : PollResult) (steps : List Closes.Action) :
    Option Shutdown :=
  if (s.stream.poll_flush send).2.2 = .Ready (.ok ()) then
    (Transition.run Closes.step s.start.2 steps).map fun session =>
      let answer := session.answer s.start.1
      let polled := s.stream.poll_shutdown send answer
      { stream := polled.1, session := session
        shutdown := if answer = .Pending then some s.start.1 else none
        results := s.results ++ [(some s.start.1, polled.2.2)] }
  else
    let polled := s.stream.poll_shutdown send .Pending
    some { s with stream := polled.1, results := s.results ++ [(none, polled.2.2)] }

/-- One step. -/
def step : Transition Shutdown Action
  | s, .session a => (Closes.step s.session a).map fun session => { s with session := session }
  | s, .poll_write buf earlier own =>
    some { s with stream := (s.stream.poll_write buf earlier own).1 }
  | s, .poll_flush send => some { s with stream := (s.stream.poll_flush send).1 }
  | s, .poll_shutdown send steps => s.poll_shutdown send steps

/-- A shutdown that succeeded has polled a call of `close` that did. -/
structure Sound (s : Shutdown) : Prop where
  session : s.session.Stage
  shutdown : ∀ k, (k, .Ready (.ok ())) ∈ s.results →
    ∃ i, k = some i ∧ s.session.closes[i]? = some (.Returned (.ok ()))
  /-- The stream keeps a future while it keeps a call. -/
  kept : s.stream.shutdown_future.isSome = s.shutdown.isSome

end Shutdown

namespace Closes

variable {s s' : Closes}

/-- A call that has returned takes no step in a run. -/
theorem returned_run {as : List Action} {k : ℕ} {result : Except NethernetError Unit}
    (hk : s.closes[k]? = some (.Returned result)) (h : Transition.run step s as = some s') :
    s'.closes[k]? = some (.Returned result) :=
  Transition.run_invariant (P := fun s : Closes => s.closes[k]? = some (.Returned result))
    (fun _ _ _ hs hstep => returned_step hs hstep) hk h

theorem Stage.run {as : List Action} (hs : s.Stage)
    (h : Transition.run Closes.step s as = some s') : s'.Stage :=
  Transition.run_invariant (fun _ _ _ hs hstep => hs.step hstep) hs h

end Closes

namespace NethernetStream

/-- Writes and flushes leave the future of closing alone. -/
theorem shutdown_future_poll_write (s : NethernetStream) (buf : Bytes) (earlier own : PollResult) :
    (s.poll_write buf earlier own).1.shutdown_future = s.shutdown_future := by
  rcases hs : s.send_future with _ | fut
  · rcases own with (e | ⟨⟨⟩⟩) | _ <;> simp [poll_write, start_send, hs]
  · rcases earlier with (e | ⟨⟨⟩⟩) | _ <;> rcases own with (e | ⟨⟨⟩⟩) | _ <;>
      simp [poll_write, start_send, hs]

theorem shutdown_future_poll_flush (s : NethernetStream) (send : PollResult) :
    (s.poll_flush send).1.shutdown_future = s.shutdown_future := by
  rcases hs : s.send_future with _ | fut
  · simp [poll_flush, hs]
  · rcases send with (e | ⟨⟨⟩⟩) | _ <;> simp [poll_flush, hs]

/-- A shutdown keeps the future that is pending, once the writes are flushed. -/
theorem shutdown_future_poll_shutdown (s : NethernetStream) (send close : PollResult) :
    (s.poll_shutdown send close).1.shutdown_future =
      if (s.poll_flush send).2.2 = .Ready (.ok ()) then
        if close = .Pending then some () else none
      else s.shutdown_future := by
  have hflush := s.shutdown_future_poll_flush send
  rw [poll_shutdown]
  rcases hresult : s.poll_flush send with ⟨s', events, (e | ⟨⟨⟩⟩) | _⟩ <;> rw [hresult] at hflush
  · simpa using hflush
  · rcases close with (e | ⟨⟨⟩⟩) | _ <;> simp [poll_close]
  · simpa using hflush

end NethernetStream

namespace Shutdown

variable {s s' : Shutdown} {a : Action}

theorem sound_from_session {session : Closes} (hs : session.Stage) :
    (from_session session).Sound where
  session := hs
  shutdown k hk := by cases hk
  kept := rfl

theorem Sound.start (hs : s.Sound) : s.start.2.Stage ∧
    ∀ (i : ℕ) (c : Closes.Call), s.session.closes[i]? = some c → s.start.2.closes[i]? = some c := by
  unfold Shutdown.start
  split
  · exact ⟨hs.session, fun _ _ hi => hi⟩
  · exact ⟨hs.session.step (a := .close) rfl, fun _ _ hi => getElem?_concat_eq_some.2 (.inl hi)⟩

theorem Sound.poll_shutdown (hs : s.Sound) {send : PollResult} {steps : List Closes.Action}
    (h : s.poll_shutdown send steps = some s') : s'.Sound := by
  unfold Shutdown.poll_shutdown at h
  split at h <;> rename_i hflush
  · obtain ⟨hstart, hkept⟩ := hs.start
    obtain ⟨session, hrun, rfl⟩ := Option.map_eq_some_iff.1 h
    refine ⟨hstart.run hrun, fun j hj => ?_, ?_⟩
    · rcases List.mem_append.1 hj with hj | hj
      · obtain ⟨i, rfl, hi⟩ := hs.shutdown j hj
        exact ⟨i, rfl, Closes.returned_run (hkept i _ hi) hrun⟩
      · obtain ⟨rfl, hresult⟩ := Prod.mk.inj (List.mem_singleton.1 hj)
        have hready := NethernetStream.ready_of_poll_shutdown hresult.symm
        exact ⟨_, rfl, Closes.answer_eq_ready.1 hready⟩
    · dsimp only
      rw [NethernetStream.shutdown_future_poll_shutdown, if_pos hflush]
      split <;> rfl
  · obtain rfl := Option.some.inj h
    refine ⟨hs.session, fun k hk => ?_, ?_⟩
    · rcases List.mem_append.1 hk with hk | hk
      · exact hs.shutdown k hk
      · have hready := NethernetStream.ready_of_poll_shutdown
          (Prod.mk.inj (List.mem_singleton.1 hk)).2.symm
        cases hready
    · dsimp only
      rw [NethernetStream.shutdown_future_poll_shutdown, if_neg hflush, hs.kept]

theorem Sound.step (hs : s.Sound) (h : step s a = some s') : s'.Sound := by
  cases a with
  | session a =>
    obtain ⟨session, hstep, rfl⟩ := Option.map_eq_some_iff.1 h
    refine ⟨hs.session.step hstep, fun k hk => ?_, hs.kept⟩
    obtain ⟨i, rfl, hi⟩ := hs.shutdown k hk
    exact ⟨i, rfl, Closes.returned_step hi hstep⟩
  | poll_write buf earlier own =>
    obtain rfl := Option.some.inj h
    exact ⟨hs.session, hs.shutdown,
      (congrArg _ (s.stream.shutdown_future_poll_write buf earlier own)).trans hs.kept⟩
  | poll_flush send =>
    obtain rfl := Option.some.inj h
    exact ⟨hs.session, hs.shutdown,
      (congrArg _ (s.stream.shutdown_future_poll_flush send)).trans hs.kept⟩
  | poll_shutdown send steps => exact hs.poll_shutdown h

/-- **What closing and shutting down report**: in every run, only the call of `close` that set the
flag closes anything, and says how that ended; every other call is a no-op, and a shutdown that
succeeds has polled a call of `close` that did. -/
theorem shutdown_reports {before : List Closes.Action} {session : Closes}
    (hsession : Transition.run Closes.step .new before = some session) {as : List Action}
    (h : Transition.run step (from_session session) as = some s) :
    s.session.Reports ∧ ∀ k, (k, .Ready (.ok ())) ∈ s.results →
      ∃ i, k = some i ∧ s.session.closes[i]? = some (.Returned (.ok ())) := by
  have hs := Transition.run_invariant (P := Sound) (fun _ _ _ hs hstep => hs.step hstep)
    (sound_from_session (Closes.stage_of_run hsession)) h
  exact ⟨hs.session.reports, hs.shutdown⟩

/-- A channel is attached. -/
def attached : Closes := Closes.new.set_channel .Reliable 4

/-- A shutdown closes the channel and the peer connection. -/
def succeeds : List Action :=
  [.poll_shutdown .Pending
    [.mark 0, .lock 0, .awaited 0 (.ok ()), .lock 0, .awaited 0 (.ok ())]]

/-- A shutdown fails, and the next one succeeds. -/
def retried : List Action :=
  [.poll_shutdown .Pending [.mark 0, .lock 0, .lock 0],
    .poll_shutdown .Pending [.awaited 0 (.error "transport")], .poll_shutdown .Pending [.mark 1]]

theorem shutdown_reports_attached :
    ∃ s, Transition.run step (from_session attached) succeeds = some s ∧
      s.session.Reports ∧ ∀ k, (k, .Ready (.ok ())) ∈ s.results →
        ∃ i, k = some i ∧ s.session.closes[i]? = some (.Returned (.ok ())) := by
  have hsession : Transition.run Closes.step .new [.set_channel .Reliable 4] = some attached := rfl
  have hrun : Transition.run step (from_session attached) succeeds = some _ := rfl
  exact ⟨_, hrun, shutdown_reports hsession hrun⟩

/-- A close that failed is reported as a success by the next one. -/
theorem ok_after_error : ¬ ∀ (as : List Action) (s : Shutdown),
    Transition.run step (from_session .new) as = some s → ∀ k : ℕ,
      s.session.closes[k]? = some (.Returned (.ok ())) →
        (∀ slot channel, s.session.attached.get slot = some channel →
          channel ∈ s.session.attempted) ∧ .ok () ∈ s.session.peer_closes := by
  intro h
  have hok := (h retried _ rfl 1 rfl).2
  cases List.mem_singleton.1 hok

end Shutdown

end Nethernet
