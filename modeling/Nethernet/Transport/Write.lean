import Nethernet.Foundations.Sequential
import Nethernet.Protocol.Error

/-!
# Writing to a stream

The `AsyncWrite` half of `NethernetStream` (`src/transport/stream.rs`): `poll_write`, `poll_flush`
and `poll_shutdown` take the future of a send or of closing, poll it and put it back while it is
pending. What a poll gives is chosen by the call. A record says what a call did and returned, and
`sequential_run` that the records of every list of calls are those of a sender of one buffer at a
time.
-/

namespace Nethernet

open Foundations

/-- What a poll of `Session::send` or `Session::close` gives. -/
abbrev PollResult := Poll (Except NethernetError Unit)

namespace NethernetStream

/-- What happens to the future of `Session::close`. -/
inductive Closing
  | started
  | polled (answer : PollResult)
  deriving DecidableEq, Repr

/-- A send starts or is polled, or the future of `Session::close` is. -/
abbrev Event := Sequential.Event Bytes (Except NethernetError Unit) Closing

/-- The future of a call of `Session::send`; the calls are numbered. -/
structure Send where
  id : ℕ
  data : Bytes
  deriving DecidableEq, Repr

end NethernetStream

/-- The writing half of a stream, and the number of calls of `Session::send`. -/
structure NethernetStream where
  send_future : Option NethernetStream.Send
  shutdown_future : Option Unit
  sends : ℕ
  deriving DecidableEq, Repr

namespace NethernetStream

/-- A new stream. -/
def from_session : NethernetStream := ⟨none, none, 0⟩

/-- The end of `poll_write`: start a send and poll it. -/
def start_send (s : NethernetStream) (buf : Bytes) (own : PollResult) :
    NethernetStream × List Event × Poll (Except NethernetError ℕ) :=
  let data := buf
  let len := data.length
  let fut : Send := ⟨s.sends, data⟩
  let s := { s with sends := s.sends + 1 }
  let events : List Event := [.started fut.id data, .polled fut.id own]
  match own with
  | .Ready (.ok ()) => (s, events, .Ready (.ok len))
  | .Ready (.error e) => (s, events, .Ready (.error e))
  | .Pending => ({ s with send_future := some fut }, events, .Ready (.ok len))

/-- `earlier` is the poll of the send that is under way, `own` that of the new one. -/
def poll_write (s : NethernetStream) (buf : Bytes) (earlier own : PollResult) :
    NethernetStream × List Event × Poll (Except NethernetError ℕ) :=
  match s.send_future with
  | some fut =>
    match earlier with
    | .Ready (.ok ()) =>
      -- the previous send has completed
      let (s, events, result) := { s with send_future := none }.start_send buf own
      (s, .polled fut.id earlier :: events, result)
    | .Ready (.error e) =>
      ({ s with send_future := none }, [.polled fut.id earlier], .Ready (.error e))
    | .Pending => ({ s with send_future := some fut }, [.polled fut.id earlier], .Pending)
  | none => s.start_send buf own

def poll_flush (s : NethernetStream) (send : PollResult) :
    NethernetStream × List Event × PollResult :=
  match s.send_future with
  | some fut =>
    match send with
    | .Ready (.ok ()) => ({ s with send_future := none }, [.polled fut.id send], .Ready (.ok ()))
    | .Ready (.error e) =>
      ({ s with send_future := none }, [.polled fut.id send], .Ready (.error e))
    | .Pending => ({ s with send_future := some fut }, [.polled fut.id send], .Pending)
  | none => (s, [], .Ready (.ok ()))

/-- The end of `poll_shutdown`, when the writes are flushed: poll the future of closing, a new one
where there is none. -/
def poll_close (s : NethernetStream) (close : PollResult) :
    NethernetStream × List Event × PollResult :=
  let events : List Event := if s.shutdown_future = none then [.idle .started] else []
  match close with
  | .Ready (.ok ()) =>
    ({ s with shutdown_future := none }, events ++ [.idle (.polled close)], .Ready (.ok ()))
  | .Ready (.error e) =>
    ({ s with shutdown_future := none }, events ++ [.idle (.polled close)], .Ready (.error e))
  | .Pending =>
    ({ s with shutdown_future := some () }, events ++ [.idle (.polled close)], .Pending)

def poll_shutdown (s : NethernetStream) (send close : PollResult) :
    NethernetStream × List Event × PollResult :=
  match s.poll_flush send with
  | (s, events, .Ready (.ok ())) =>
    let (s, closing, result) := s.poll_close close
    (s, events ++ closing, result)
  | (s, events, .Ready (.error e)) => (s, events, .Ready (.error e))
  | (s, events, .Pending) => (s, events, .Pending)

/-! ## Histories -/

/-- A call, with what its polls give. -/
inductive Call
  | poll_write (buf : Bytes) (earlier own : PollResult)
  | poll_flush (send : PollResult)
  | poll_shutdown (send close : PollResult)

/-- What a call did and returned. -/
inductive Record
  | poll_write (buf : Bytes) (events : List Event) (result : Poll (Except NethernetError ℕ))
  | poll_flush (events : List Event) (result : PollResult)
  | poll_shutdown (events : List Event) (result : PollResult)

/-- The error of a poll that fails. -/
def errorOf {α : Type} : Poll (Except NethernetError α) → Option NethernetError
  | .Ready (.error e) => some e
  | _ => none

theorem errorOf_eq_some {α : Type} {answer : Poll (Except NethernetError α)} {e : NethernetError} :
    errorOf answer = some e ↔ answer = .Ready (.error e) := by
  rcases answer with (e' | a) | _ <;> simp [errorOf]

namespace Record

def events : Record → List Event
  | poll_write _ events _ | poll_flush events _ | poll_shutdown events _ => events

/-- The error that a call returned. -/
def error : Record → Option NethernetError
  | poll_write _ _ result => errorOf result
  | poll_flush _ result | poll_shutdown _ result => errorOf result

/-- The buffers that are sent in a call, from what it returned: the one it accepted, or the one that
failed in its first poll. -/
inductive Starts : Record → List Bytes → Prop
  | accepted {buf : Bytes} {events : List Event} :
      Starts (.poll_write buf events (.Ready (.ok buf.length))) [buf]
  | failed {buf : Bytes} {earlier : List Event} {i : ℕ} {e : NethernetError} :
      Starts (.poll_write buf (earlier ++ [.started i buf, .polled i (.Ready (.error e))])
        (.Ready (.error e))) [buf]
  | failed_earlier {buf : Bytes} {i : ℕ} {e : NethernetError} :
      Starts (.poll_write buf [.polled i (.Ready (.error e))] (.Ready (.error e))) []
  | pending {buf : Bytes} {events : List Event} : Starts (.poll_write buf events .Pending) []
  | flush {events : List Event} {result : PollResult} : Starts (.poll_flush events result) []
  | shutdown {events : List Event} {result : PollResult} : Starts (.poll_shutdown events result) []

end Record

/-- The stream after a call, and its record. -/
def act (s : NethernetStream) : Call → NethernetStream × Record
  | .poll_write buf earlier own =>
    let (s, events, result) := s.poll_write buf earlier own
    (s, .poll_write buf events result)
  | .poll_flush send =>
    let (s, events, result) := s.poll_flush send
    (s, .poll_flush events result)
  | .poll_shutdown send close =>
    let (s, events, result) := s.poll_shutdown send close
    (s, .poll_shutdown events result)

/-- The stream after a list of calls, and their records. -/
def run (s : NethernetStream) : List Call → NethernetStream × List Record
  | [] => (s, [])
  | call :: calls =>
    let (s, record) := s.act call
    let (s, records) := s.run calls
    (s, record :: records)

theorem run_cons (s : NethernetStream) (call : Call) (calls : List Call) :
    s.run (call :: calls) = (((s.act call).1.run calls).1,
      (s.act call).2 :: ((s.act call).1.run calls).2) := rfl

/-! ## The sends, one at a time -/

/-- The number of sends, and the one in flight. -/
def sending (s : NethernetStream) : ℕ × Option ℕ := (s.sends, s.send_future.map (·.id))

/-- From `s` to `s'`, the events are those of a service that sends one buffer at a time. -/
def Serves (s : NethernetStream) (events : List Event) (s' : NethernetStream) : Prop :=
  Transition.run Sequential.step s.sending events = some s'.sending

theorem Serves.append {s s' s'' : NethernetStream} {events events' : List Event}
    (h : s.Serves events s') (h' : s'.Serves events' s'') : s.Serves (events ++ events') s'' :=
  Transition.run_append_eq_some.2 ⟨s'.sending, h, h'⟩

theorem serves_start_send {s : NethernetStream} (hs : s.send_future = none) (buf : Bytes)
    (own : PollResult) :
    s.Serves (s.start_send buf own).2.1 (s.start_send buf own).1 := by
  rcases own with (e | ⟨⟨⟩⟩) | _ <;>
    simp [Serves, sending, start_send, hs, Transition.run_cons, Sequential.step]

theorem serves_poll_write (s : NethernetStream) (buf : Bytes) (earlier own : PollResult) :
    s.Serves (s.poll_write buf earlier own).2.1 (s.poll_write buf earlier own).1 := by
  rcases hs : s.send_future with _ | fut
  · simp only [poll_write, hs]
    exact serves_start_send hs buf own
  · rcases earlier with (e | ⟨⟨⟩⟩) | _
    · simp [Serves, sending, poll_write, hs, Transition.run_cons, Sequential.step]
    · have hpolled : s.Serves [.polled fut.id (.Ready (.ok ()))]
          { s with send_future := none } := by
        simp [Serves, sending, hs, Transition.run_cons, Sequential.step]
      simp only [poll_write, hs]
      exact hpolled.append (serves_start_send rfl buf own)
    · simp [Serves, sending, poll_write, hs, Transition.run_cons, Sequential.step]

theorem serves_poll_flush (s : NethernetStream) (send : PollResult) :
    s.Serves (s.poll_flush send).2.1 (s.poll_flush send).1 := by
  rcases hs : s.send_future with _ | fut
  · simp [Serves, poll_flush, hs]
  · rcases send with (e | ⟨⟨⟩⟩) | _ <;>
      simp [Serves, sending, poll_flush, hs, Transition.run_cons, Sequential.step]

/-- After a flush no send is under way. -/
theorem send_future_poll_flush {s : NethernetStream} {send : PollResult}
    (h : (s.poll_flush send).2.2 = .Ready (.ok ())) : (s.poll_flush send).1.send_future = none := by
  rcases hs : s.send_future with _ | fut
  · simp [poll_flush, hs]
  · rcases send with (e | ⟨⟨⟩⟩) | _ <;> simp_all [poll_flush]

theorem serves_poll_close {s : NethernetStream} (hs : s.send_future = none) (close : PollResult) :
    s.Serves (s.poll_close close).2.1 (s.poll_close close).1 := by
  rcases hclosing : s.shutdown_future with _ | ⟨⟨⟩⟩ <;> rcases close with (e | ⟨⟨⟩⟩) | _ <;>
    simp [Serves, sending, poll_close, hs, hclosing, Transition.run_cons, Sequential.step]

theorem serves_poll_shutdown (s : NethernetStream) (send close : PollResult) :
    s.Serves (s.poll_shutdown send close).2.1 (s.poll_shutdown send close).1 := by
  have hflush := s.serves_poll_flush send
  have hidle : (s.poll_flush send).2.2 = .Ready (.ok ()) →
    (s.poll_flush send).1.send_future = none := send_future_poll_flush
  rw [poll_shutdown]
  rcases hresult : s.poll_flush send with ⟨s', events, (e | ⟨⟨⟩⟩) | _⟩ <;>
    rw [hresult] at hflush hidle
  · exact hflush
  · exact hflush.append (serves_poll_close (hidle rfl) close)
  · exact hflush

theorem serves_act (s : NethernetStream) (call : Call) :
    s.Serves (s.act call).2.events (s.act call).1 := by
  cases call with
  | poll_write buf earlier own => exact s.serves_poll_write buf earlier own
  | poll_flush send => exact s.serves_poll_flush send
  | poll_shutdown send close => exact s.serves_poll_shutdown send close

/-- The events of a list of calls. -/
def trace (history : List Record) : List Event := history.flatMap (·.events)

/-- **The calls serve the sends one at a time.** -/
theorem serves_run (s : NethernetStream) (calls : List Call) :
    s.Serves (trace (s.run calls).2) (s.run calls).1 := by
  induction calls generalizing s with
  | nil => rfl
  | cons call calls ih => exact (s.serves_act call).append (ih _)

/-! ## What a call returns -/

/-- The error of an event. -/
def failure : Event → Option NethernetError
  | .polled _ answer | .idle (.polled answer) => errorOf answer
  | _ => none

theorem failure_start_send (s : NethernetStream) (buf : Bytes) (own : PollResult) :
    (s.start_send buf own).2.1.filterMap failure =
      (errorOf (s.start_send buf own).2.2).toList := by
  rcases own with (e | ⟨⟨⟩⟩) | _ <;> rfl

theorem failure_poll_write (s : NethernetStream) (buf : Bytes) (earlier own : PollResult) :
    (s.poll_write buf earlier own).2.1.filterMap failure =
      (errorOf (s.poll_write buf earlier own).2.2).toList := by
  rcases hs : s.send_future with _ | fut
  · simp only [poll_write, hs]
    exact s.failure_start_send buf own
  · rcases earlier with (e | ⟨⟨⟩⟩) | _ <;> simp only [poll_write, hs]
    · rfl
    · exact failure_start_send _ buf own
    · rfl

theorem failure_poll_flush (s : NethernetStream) (send : PollResult) :
    (s.poll_flush send).2.1.filterMap failure = (errorOf (s.poll_flush send).2.2).toList := by
  rcases hs : s.send_future with _ | fut
  · simp only [poll_flush, hs]
    rfl
  · rcases send with (e | ⟨⟨⟩⟩) | _ <;> simp only [poll_flush, hs] <;> rfl

theorem failure_poll_close (s : NethernetStream) (close : PollResult) :
    (s.poll_close close).2.1.filterMap failure = (errorOf (s.poll_close close).2.2).toList := by
  rcases hclosing : s.shutdown_future with _ | ⟨⟨⟩⟩ <;> rcases close with (e | ⟨⟨⟩⟩) | _ <;>
    simp only [poll_close, hclosing] <;> rfl

/-- **A call returns the error of its poll that fails**, and no other. -/
theorem failure_act (s : NethernetStream) (call : Call) :
    (s.act call).2.events.filterMap failure = (s.act call).2.error.toList := by
  cases call with
  | poll_write buf earlier own => exact s.failure_poll_write buf earlier own
  | poll_flush send => exact s.failure_poll_flush send
  | poll_shutdown send close =>
    have hflush := s.failure_poll_flush send
    simp only [act, poll_shutdown]
    rcases hresult : s.poll_flush send with ⟨s', events, (e | ⟨⟨⟩⟩) | _⟩ <;> rw [hresult] at hflush
    · exact hflush
    · change (events ++ (s'.poll_close close).2.1).filterMap failure = _
      rw [List.filterMap_append, hflush]
      exact s'.failure_poll_close close
    · exact hflush

/-- The buffer of a send that starts. -/
def sent : Event → Option Bytes
  | .started _ data => some data
  | _ => none

theorem starts_of_start_send (s : NethernetStream) (buf : Bytes) (own : PollResult)
    (earlier : List Event) (hearlier : earlier.filterMap sent = []) :
    (Record.poll_write buf (earlier ++ (s.start_send buf own).2.1)
      (s.start_send buf own).2.2).Starts
      ((earlier ++ (s.start_send buf own).2.1).filterMap sent) := by
  have hsent : (s.start_send buf own).2.1.filterMap sent = [buf] := by
    rcases own with (e | ⟨⟨⟩⟩) | _ <;> rfl
  rw [List.filterMap_append, hearlier, hsent]
  rcases own with (e | ⟨⟨⟩⟩) | _
  · exact .failed
  · exact .accepted
  · exact .accepted

theorem sent_poll_flush (s : NethernetStream) (send : PollResult) :
    (s.poll_flush send).2.1.filterMap sent = [] := by
  rcases hs : s.send_future with _ | fut
  · simp only [poll_flush, hs]
    rfl
  · rcases send with (e | ⟨⟨⟩⟩) | _ <;> simp only [poll_flush, hs] <;> rfl

theorem sent_poll_shutdown (s : NethernetStream) (send close : PollResult) :
    (s.poll_shutdown send close).2.1.filterMap sent = [] := by
  have hflush := s.sent_poll_flush send
  rw [poll_shutdown]
  rcases hresult : s.poll_flush send with ⟨s', events, (e | ⟨⟨⟩⟩) | _⟩ <;> rw [hresult] at hflush
  · exact hflush
  · change (events ++ (s'.poll_close close).2.1).filterMap sent = []
    rw [List.filterMap_append, hflush, List.nil_append]
    rcases hclosing : s'.shutdown_future with _ | ⟨⟨⟩⟩ <;> rcases close with (e | ⟨⟨⟩⟩) | _ <;>
      simp only [poll_close, hclosing] <;> rfl
  · exact hflush

/-- **The sends that start in a call** are those of the buffers it takes. -/
theorem starts_act (s : NethernetStream) (call : Call) :
    (s.act call).2.Starts ((s.act call).2.events.filterMap sent) := by
  cases call with
  | poll_write buf earlier own =>
    rcases hs : s.send_future with _ | fut
    · simp only [act, poll_write, hs]
      exact s.starts_of_start_send buf own [] rfl
    · rcases earlier with (e | ⟨⟨⟩⟩) | _ <;> simp only [act, poll_write, hs]
      · exact .failed_earlier
      · exact starts_of_start_send _ buf own [.polled fut.id (.Ready (.ok ()))] rfl
      · exact .pending
  | poll_flush send =>
    change (Record.poll_flush _ _).Starts ((s.poll_flush send).2.1.filterMap sent)
    rw [sent_poll_flush]
    exact .flush
  | poll_shutdown send close =>
    change (Record.poll_shutdown _ _).Starts ((s.poll_shutdown send close).2.1.filterMap sent)
    rw [sent_poll_shutdown]
    exact .shutdown

/-! ## A sender of one buffer at a time -/

/-- The buffers of the sends that start, in their order. -/
def sends_of (history : List Record) : List Bytes := (trace history).filterMap sent

/-- The records of a sender of one buffer at a time, that loses no buffer and no error. -/
structure SequentialSender (history : List Record) : Prop where
  /-- At most one send is in flight, at any time. -/
  one_in_flight : ∀ before, before <+: trace history → ∀ i j, Sequential.InFlight before i →
    Sequential.InFlight before j → i = j
  /-- The sends are those of the buffers that the calls take. -/
  sends_started : ∃ started, List.Forall₂ Record.Starts history started ∧
    sends_of history = started.flatten
  /-- A call returns the error of a send that fails in it, and no other call polls that send
  after it or fails with it. -/
  failure_returned : ∀ before record after, history = before ++ record :: after → ∀ i e,
    .polled i (.Ready (.error e)) ∈ record.events → record.error = some e ∧
      (∀ other ∈ before, ∀ e', .polled i (.Ready (.error e')) ∉ other.events) ∧
      ∀ other ∈ after, ∀ answer, .polled i answer ∉ other.events
  /-- An error is that of a poll of the call that returns it. -/
  error_of_failure : ∀ record ∈ history, ∀ e, record.error = some e →
    (∃ i, .polled i (.Ready (.error e)) ∈ record.events) ∨
      .idle (.polled (.Ready (.error e))) ∈ record.events
  /-- After a flush no send is in flight. -/
  flushed : ∀ before events after,
    history = before ++ .poll_flush events (.Ready (.ok ())) :: after →
    ∀ i, ¬ Sequential.InFlight (trace (before ++ [.poll_flush events (.Ready (.ok ()))])) i
  /-- Closing starts and goes on only while no send is in flight. -/
  idle_closing : ∀ before closing, before ++ [.idle closing] <+: trace history →
    ∀ i, ¬ Sequential.InFlight before i

/-- A record of a run is that of a call, in the state that the records before it lead to. -/
theorem run_split {s : NethernetStream} {calls : List Call} {before after : List Record}
    {record : Record} (h : (s.run calls).2 = before ++ record :: after) :
    ∃ calls' call, (s.run calls').2 = before ∧ ((s.run calls').1.act call).2 = record := by
  induction before generalizing s calls with
  | nil =>
    cases calls with
    | nil => cases h
    | cons call calls => exact ⟨[], call, rfl, (List.cons.inj h).1⟩
  | cons first before ih =>
    cases calls with
    | nil => cases h
    | cons call calls =>
      rw [run_cons] at h
      obtain ⟨hfirst, hrest⟩ := List.cons.inj h
      obtain ⟨calls', call', hbefore, hrecord⟩ := ih hrest
      exact ⟨call :: calls', call', by rw [run_cons, hfirst, hbefore], hrecord⟩

theorem exists_act_of_mem_run {s : NethernetStream} {calls : List Call} {record : Record}
    (h : record ∈ (s.run calls).2) : ∃ s' call, (act s' call).2 = record := by
  obtain ⟨before, after, hsplit⟩ := List.append_of_mem h
  obtain ⟨calls', call, -, hrecord⟩ := run_split hsplit
  exact ⟨_, call, hrecord⟩

theorem starts_run (s : NethernetStream) (calls : List Call) : List.Forall₂ Record.Starts
    (s.run calls).2 ((s.run calls).2.map fun record => record.events.filterMap sent) := by
  induction calls generalizing s with
  | nil => exact .nil
  | cons call calls ih => exact .cons (s.starts_act call) (ih _)

theorem error_of_mem {record : Record} {event : Event} {e : NethernetError}
    (h : record.events.filterMap failure = record.error.toList) (hevent : event ∈ record.events)
    (he : failure event = some e) : record.error = some e := by
  have hmem : e ∈ record.events.filterMap failure := List.mem_filterMap.2 ⟨event, hevent, he⟩
  rw [h] at hmem
  exact Option.mem_toList.1 hmem

theorem event_of_error {record : Record} {e : NethernetError}
    (h : record.events.filterMap failure = record.error.toList) (he : record.error = some e) :
    (∃ i, .polled i (.Ready (.error e)) ∈ record.events) ∨
      .idle (.polled (.Ready (.error e))) ∈ record.events := by
  have hmem : e ∈ record.events.filterMap failure := by
    rw [h]
    exact Option.mem_toList.2 he
  obtain ⟨event, hevent, hfailure⟩ := List.mem_filterMap.1 hmem
  rcases event with ⟨i, data⟩ | ⟨i, answer⟩ | (_ | answer)
  · cases hfailure
  · obtain rfl := errorOf_eq_some.1 hfailure
    exact .inl ⟨i, hevent⟩
  · cases hfailure
  · obtain rfl := errorOf_eq_some.1 hfailure
    exact .inr hevent

theorem trace_concat (history : List Record) (record : Record) :
    trace (history ++ [record]) = trace history ++ record.events := by
  simp [trace]

/-- **Writing to a stream** sends one buffer at a time, whatever the calls and whatever their polls
give. -/
theorem sequential_run (calls : List Call) : SequentialSender (from_session.run calls).2 := by
  have hserves := from_session.serves_run calls
  constructor
  · exact fun before hbefore i j => Sequential.inFlight_unique hserves hbefore
  · refine ⟨_, from_session.starts_run calls, ?_⟩
    rw [sends_of, trace, List.flatMap_def, List.filterMap_flatten, List.map_map]
    rfl
  · intro before record after hsplit i e hfails
    obtain ⟨calls', call, -, rfl⟩ := run_split hsplit
    have hapart := (List.pairwise_flatMap.1 (Sequential.pairwise_of_run hserves)).2
    rw [hsplit, List.pairwise_append, List.pairwise_cons] at hapart
    obtain ⟨-, ⟨hafter, -⟩, hbefore⟩ := hapart
    refine ⟨error_of_mem (failure_act _ call) hfails rfl, fun other hother e' he' => ?_,
      fun other hother answer hanswer => ?_⟩
    · exact hbefore other hother _ List.mem_cons_self _ he' _ hfails i _ _ rfl rfl
    · exact hafter other hother _ hfails _ hanswer i _ _ rfl rfl
  · intro record hrecord e he
    obtain ⟨s, call, rfl⟩ := exists_act_of_mem_run hrecord
    exact event_of_error (s.failure_act call) he
  · intro before events after hsplit i
    obtain ⟨calls', call, rfl, hrecord⟩ := run_split hsplit
    rw [← hrecord, trace_concat]
    have hrun := (from_session.serves_run calls').append (serves_act _ call)
    rw [(Sequential.tracks_of_run hrun).inFlight_iff]
    cases call with
    | poll_write buf earlier own => cases hrecord
    | poll_flush send =>
      have hidle := send_future_poll_flush (Record.poll_flush.inj hrecord).2
      simp [sending, act, hidle]
    | poll_shutdown send close => cases hrecord
  · exact fun before closing hbefore => Sequential.not_inFlight_of_idle hserves hbefore

end NethernetStream

end Nethernet
