import Nethernet.Session.Concurrent
import Nethernet.Transport.Packets
import Nethernet.Transport.Write

/-!
# A stream from end to end

One direction of a connection (`src/transport/stream.rs`, `src/session/mod.rs`): the `AsyncWrite`
half of a stream and the call of `Session::send` that it polls, the reliable data channel, and at
the peer the `on_message` handler, the bounded packet queue and a stream over it, with any calls of
`recv` and `close` beside the stream.

The data channel keeps the order of the frames and awaits the handler for one before the next. It
may fail, which loses some of the last frames, and then stays failed.

A poll of a send goes on for as many steps as the schedule says, so that the channel, a lock or the
runtime may have it wait anywhere.
-/

namespace Nethernet

open Foundations Receiver

namespace Call

/-- One step of a call over a channel. A channel that has failed refuses the frame. -/
def advance (b : Build) (session : Session Unit) (failure : Option String) (call : Call) :
    Option (Call × List Bytes) :=
  match call, failure with
  | sending (_ :: _), some error => some (done (.error (.DataChannel error)), [])
  | call, _ => call.step b session

/-- Poll the future of a call: after so many steps it has to wait. -/
def poll (b : Build) (session : Session Unit) (failure : Option String) :
    ℕ → Call → Option (Call × List Bytes × PollResult)
  | _, done result => some (done result, [], .Ready result)
  | 0, call => some (call, [], .Pending)
  | n + 1, call => (call.advance b session failure).bind fun p =>
    (poll b session failure n p.1).map fun q => (q.1, p.2 ++ q.2.1, q.2.2)

end Call

/-- A stream that is written, and the stream of the peer that is read. -/
structure Pipe where
  stream : NethernetStream
  /-- Where the send that is under way stands. -/
  send : Option Call
  /-- The flag of the session. -/
  closed : Bool
  /-- The frames under way. -/
  frames : List Bytes
  /-- What `channel.send` returns once the channel has failed. -/
  failure : Option String
  /-- The accumulator of the peer, and the message that its handler waits to queue. -/
  message_buffer : Message
  complete_msg : Option Bytes
  reader : SessionStream

namespace Pipe

/-- A new connection. -/
def start (capacity : ℕ) : Pipe where
  stream := .from_session
  send := none
  closed := false
  frames := []
  failure := none
  message_buffer := Message.new
  complete_msg := none
  reader := .from_session (.with_capacity capacity)

/-- The session as `send` sees it. -/
def session (s : Pipe) : Session Unit := ⟨s.closed, some ()⟩

/-- The steps of a connection. -/
inductive Action
  /-- The stream is polled; a poll of a send goes on for so many steps. -/
  | poll_write (buf : Bytes) (earlier own : ℕ)
  | poll_flush (n : ℕ)
  | poll_shutdown (n : ℕ) (close : PollResult)
  /-- A call of `Session::close` sets the flag. -/
  | close
  /-- The channel fails, and only so many of the frames still arrive. -/
  | fail (error : String) (n : ℕ)
  /-- The handler of the peer gets a frame, puts a message into the queue. -/
  | deliver
  | push
  /-- A step of the peer's stream or of a call on its session. -/
  | read (a : SessionStream.Action)

/-- Poll the send that is under way, if there is one. -/
def poll_send (b : Build) (s : Pipe) (n : ℕ) : Option (Pipe × PollResult) :=
  match s.send with
  | none => some (s, .Ready (.ok ()))
  | some call => (call.poll b s.session s.failure n).map fun p =>
    match p.2.2 with
    | .Pending => ({ s with send := some p.1, frames := s.frames ++ p.2.1 }, .Pending)
    | .Ready result => ({ s with send := none, frames := s.frames ++ p.2.1 }, .Ready result)

/-- The stream takes a call, with what its polls gave. -/
def act (s : Pipe) (call : NethernetStream.Call) : Pipe × NethernetStream.Record :=
  ({ s with stream := (s.stream.act call).1 }, (s.stream.act call).2)

def poll_write (b : Build) (s : Pipe) (buf : Bytes) (earlier own : ℕ) :
    Option (Pipe × NethernetStream.Record) :=
  (s.poll_send b earlier).bind fun p =>
    match p.2 with
    | .Ready (.ok ()) =>
      (poll_send b { p.1 with send := some (.start buf) } own).map fun q =>
        q.1.act (.poll_write buf p.2 q.2)
    | _ => some (p.1.act (.poll_write buf p.2 .Pending))

/-- The calls of the stream that is written, and their records. -/
def call (b : Build) (s : Pipe) : Action → Option (Pipe × NethernetStream.Record)
  | .poll_write buf earlier own => s.poll_write b buf earlier own
  | .poll_flush n => (s.poll_send b n).map fun p => p.1.act (.poll_flush p.2)
  | .poll_shutdown n close => (s.poll_send b n).map fun p => p.1.act (.poll_shutdown p.2 close)
  | _ => none

/-- The handler gets the next frame, once it is done with the last. -/
def deliver (b : Build) (s : Pipe) : Option Pipe :=
  match s.complete_msg, s.frames with
  | none, frame :: frames => (on_message b ⟨s.message_buffer, []⟩ frame).map fun p =>
    { s with frames := frames, message_buffer := p.1.message_buffer,
             complete_msg := p.1.packets.head? }
  | _, _ => none

/-- The message goes into the packet queue, if there is room. -/
def push (s : Pipe) : Option Pipe :=
  s.complete_msg.bind fun packet =>
    (SessionStream.step s.reader (.session (.arrive packet))).map fun reader =>
      { s with reader := reader, complete_msg := none }

/-- A packet arrives through the handler only. -/
def read (s : Pipe) (a : SessionStream.Action) : Option Pipe :=
  match a with
  | .session (.arrive _) => none
  | a => (SessionStream.step s.reader a).map fun reader => { s with reader := reader }

/-- One step; `b` is the build that writes and `b'` that of the peer. -/
def step (b b' : Build) : Transition Pipe Action
  | s, .close => some { s with closed := true }
  | s, .fail error n => some { s with
      failure := some (s.failure.getD error), frames := s.frames.take n }
  | s, .deliver => s.deliver b'
  | s, .push => s.push
  | s, .read a => s.read a
  | s, a => (s.call b a).map (·.1)

/-! ## What a run shows -/

/-- The record of a call of the stream that is written. -/
def records (b : Build) (s : Pipe) (a : Action) : List NethernetStream.Record :=
  ((s.call b a).map (·.2)).toList

end Pipe

/-- The buffer that a call has taken. -/
def NethernetStream.Record.written : NethernetStream.Record → Option Bytes
  | .poll_write buf _ (.Ready (.ok _)) => some buf
  | _ => none

namespace Pipe

/-- The packets that are read at the peer. -/
def packets_read (s : Pipe) : Action → List Bytes
  | .read a => s.reader.packets_read a
  | _ => []

section Run

variable (b b' : Build) (capacity : ℕ) (as : List Action)

/-- The calls of the stream that is written, in a run. -/
def history : List NethernetStream.Record :=
  Transition.trace (step b b') (records b) (start capacity) as

/-- The buffers that the stream has taken, in a run. An empty one is no packet. -/
def written : List Bytes :=
  ((history b b' capacity as).filterMap (·.written)).filter (· ≠ [])

/-- The packets read at the peer, in a run. -/
def received : List Bytes :=
  Transition.trace (step b b') packets_read (start capacity) as

/-- No call of the stream that is written has returned an error. -/
def Unfailing : Prop := ∀ record ∈ history b b' capacity as, record.error = none

end Run

/-- The packets of the peer that nothing has read. -/
def queued (s : Pipe) : List Bytes := s.reader.session.packets.items ++ s.complete_msg.toList

end Pipe

/-! ## The send under way -/

namespace Call

/-- The buffer of a call that has not looked at the session. -/
def unstarted : Call → List Bytes
  | start buf => [buf]
  | _ => []

/-- The frames that a call has still to hand over. -/
def unsent : Call → List Bytes
  | sending segments => segments.map (·.encode)
  | _ => []

/-- **What a step does**, unless it fails: the call gets past the flag and the limit, hands over a
frame, or returns. -/
inductive Advances (closed : Bool) (failure : Option String) : Call → Call → List Bytes → Prop
  | splits (buf : Bytes) (hopen : closed = false) (hlim : buf.length ≤ 255 * MAX_MESSAGE_SIZE) :
    Advances closed failure (start buf) (sending (Message.segmentsOf buf)) []
  | hands (segment : MessageSegment) (segments : List MessageSegment) (hopen : failure = none) :
    Advances closed failure (sending (segment :: segments)) (sending segments) [segment.encode]
  | returns : Advances closed failure (sending []) (done (.ok ())) []

variable {b : Build} {closed : Bool} {failure : Option String} {call call' : Call}
  {frames : List Bytes}

theorem advance_cases (h : call.advance b ⟨closed, some ()⟩ failure = some (call', frames)) :
    (∃ e, call' = done (.error e)) ∨ Advances closed failure call call' frames := by
  cases call with
  | start buf =>
    simp only [advance, step, Message.split_into_segments_eq, Option.map_some] at h
    cases closed with
    | true =>
      cases h
      exact .inl ⟨_, rfl⟩
    | false =>
      by_cases hlim : 255 * MAX_MESSAGE_SIZE < buf.length
      · simp only [if_pos hlim] at h
        cases h
        exact .inl ⟨_, rfl⟩
      · simp only [if_neg hlim] at h
        cases h
        exact .inr (.splits buf rfl (Nat.not_lt.1 hlim))
  | sending segments =>
    cases segments with
    | nil =>
      cases h
      exact .inr .returns
    | cons segment segments =>
      cases failure with
      | none =>
        cases h
        exact .inr (.hands segment segments rfl)
      | some error =>
        cases h
        exact .inl ⟨_, rfl⟩
  | done result => cases h

/-- A poll is ready, has to wait, or takes a step. -/
theorem poll_cases {session : Session Unit} {n : ℕ} {answer : PollResult}
    (h : call.poll b session failure n = some (call', frames, answer)) :
    (∃ result, call = done result ∧ call' = call ∧ frames = [] ∧ answer = .Ready result) ∨
    ((∀ result, call ≠ done result) ∧ call' = call ∧ frames = [] ∧ answer = .Pending) ∨
    ∃ k mid before after, n = k + 1 ∧ call.advance b session failure = some (mid, before) ∧
      mid.poll b session failure k = some (call', after, answer) ∧ frames = before ++ after := by
  unfold poll at h
  split at h
  · cases h
    exact .inl ⟨_, rfl, rfl, rfl, rfl⟩
  · rename_i hne
    cases h
    exact .inr (.inl ⟨hne, rfl, rfl, rfl⟩)
  · obtain ⟨⟨mid, before⟩, hstep, h⟩ := Option.bind_eq_some_iff.1 h
    obtain ⟨⟨call'', after, answer'⟩, hrest, h⟩ := Option.map_eq_some_iff.1 h
    cases h
    exact .inr (.inr ⟨_, mid, before, after, rfl, hstep, hrest, rfl⟩)

end Call

/-! ## The calls of the stream -/

namespace NethernetStream

variable {s : NethernetStream} {answer : PollResult}

/-- A buffer is taken unless its send fails at once. -/
theorem act_poll_write_ready (s : NethernetStream) (buf : Bytes) (own : PollResult) :
    (s.act (.poll_write buf (.Ready (.ok ())) own)).2.error = errorOf own ∧
      (errorOf own = none →
        (s.act (.poll_write buf (.Ready (.ok ())) own)).2.written = some buf) ∧
      ((s.act (.poll_write buf (.Ready (.ok ())) own)).1.send_future.isSome ↔ own = .Pending) := by
  rcases s with ⟨_ | fut, shutdown, sends⟩ <;> rcases own with (e | ⟨⟨⟩⟩) | _ <;>
    simp [act, poll_write, start_send, Record.error, errorOf, Record.written]

/-- While a send is under way no buffer is taken. -/
theorem act_poll_write_wait (buf : Bytes) (own : PollResult) (hs : s.send_future.isSome)
    (hne : answer ≠ .Ready (.ok ())) :
    (s.act (.poll_write buf answer own)).2.error = errorOf answer ∧
      (s.act (.poll_write buf answer own)).2.written = none ∧
      ((s.act (.poll_write buf answer own)).1.send_future.isSome ↔ answer = .Pending) := by
  rcases s with ⟨_ | fut, shutdown, sends⟩
  · cases hs
  · rcases answer with (e | ⟨⟨⟩⟩) | _ <;>
      simp_all [act, poll_write, Record.error, errorOf, Record.written]

theorem act_poll_flush (hs : s.send_future = none → answer = .Ready (.ok ())) :
    (s.act (.poll_flush answer)).2.error = errorOf answer ∧
      (s.act (.poll_flush answer)).2.written = none ∧
      ((s.act (.poll_flush answer)).1.send_future.isSome ↔ answer = .Pending) := by
  rcases s with ⟨_ | fut, shutdown, sends⟩ <;> rcases answer with (e | ⟨⟨⟩⟩) | _ <;>
    simp_all [act, poll_flush, Record.error, errorOf, Record.written]

theorem act_poll_shutdown (close : PollResult)
    (hs : s.send_future = none → answer = .Ready (.ok ())) :
    ((s.act (.poll_shutdown answer close)).2.error = none → errorOf answer = none) ∧
      (s.act (.poll_shutdown answer close)).2.written = none ∧
      ((s.act (.poll_shutdown answer close)).1.send_future.isSome ↔ answer = .Pending) := by
  rcases s with ⟨_ | fut, shutdown, sends⟩ <;> rcases answer with (e | ⟨⟨⟩⟩) | _ <;>
    rcases close with (e | ⟨⟨⟩⟩) | _ <;>
      simp_all [act, poll_shutdown, poll_flush, poll_close, Record.error, errorOf,
        Record.written]

end NethernetStream

namespace Pipe

/-! ## What the steps leave alone -/

variable {b b' : Build} {s s' : Pipe} {answer : PollResult}

/-- A poll of the send leaves everything else alone. -/
theorem poll_send_cases {n : ℕ} (h : s.poll_send b n = some (s', answer)) :
    (s.send = none ∧ s' = s ∧ answer = .Ready (.ok ())) ∨
    ∃ call call' frames, s.send = some call ∧
      call.poll b s.session s.failure n = some (call', frames, answer) ∧
      ((answer = .Pending ∧ s' = { s with send := some call', frames := s.frames ++ frames }) ∨
        ∃ result, answer = .Ready result ∧
          s' = { s with send := none, frames := s.frames ++ frames }) := by
  unfold Pipe.poll_send at h
  split at h
  · rename_i hnone
    cases h
    exact .inl ⟨hnone, rfl, rfl⟩
  · rename_i call hsend
    obtain ⟨⟨call', frames, answer'⟩, hpoll, h⟩ := Option.map_eq_some_iff.1 h
    refine .inr ⟨call, call', frames, hsend, ?_⟩
    cases answer' with
    | Pending =>
      cases h
      exact ⟨hpoll, .inl ⟨rfl, rfl⟩⟩
    | Ready result =>
      cases h
      exact ⟨hpoll, .inr ⟨result, rfl, rfl⟩⟩

/-- A poll leaves a send under way exactly when it is pending. -/
theorem poll_send_link {n : ℕ} (h : s.poll_send b n = some (s', answer)) :
    s'.stream = s.stream ∧ s'.reader = s.reader ∧ (s'.send.isSome ↔ answer = .Pending) ∧
      (s.send = none → answer = .Ready (.ok ())) := by
  rcases poll_send_cases h with ⟨hnone, rfl, rfl⟩ |
    ⟨call, call', frames, hsend, -, ⟨rfl, rfl⟩ | ⟨result, rfl, rfl⟩⟩
  · exact ⟨rfl, rfl, by simp [hnone], fun _ => rfl⟩
  · exact ⟨rfl, rfl, by simp, by simp [hsend]⟩
  · exact ⟨rfl, rfl, by simp, by simp [hsend]⟩

theorem read_eq_some {a : SessionStream.Action} : s.read a = some s' ↔
    a.arrived = [] ∧ ∃ reader, SessionStream.step s.reader a = some reader ∧
      s' = { s with reader := reader } := by
  unfold Pipe.read
  split
  · exact iff_of_false nofun fun h => List.cons_ne_nil _ _ h.1
  · rename_i hne
    have harrived : a.arrived = [] := by
      rcases a with (packet | _ | _ | _ | _ | _ | _ | _ | _) | _
      · exact absurd rfl (hne packet)
      all_goals rfl
    rw [Option.map_eq_some_iff, and_iff_right harrived]
    exact exists_congr fun _ => and_congr_right fun _ => eq_comm

theorem reader_call {a : Action} {record : NethernetStream.Record}
    (h : s.call b a = some (s', record)) : s'.reader = s.reader := by
  cases a with
  | poll_write buf earlier own =>
    obtain ⟨⟨u, answer⟩, hearlier, h⟩ := Option.bind_eq_some_iff.1 h
    obtain ⟨-, hreader, -, -⟩ := poll_send_link hearlier
    rcases answer with (e | ⟨⟨⟩⟩) | _
    · cases h
      exact hreader
    · obtain ⟨⟨v, result⟩, hown, h⟩ := Option.map_eq_some_iff.1 h
      obtain ⟨-, hreader', -, -⟩ := poll_send_link hown
      cases h
      exact hreader'.trans hreader
    · cases h
      exact hreader
  | poll_flush n =>
    obtain ⟨p, hpoll, h⟩ := Option.map_eq_some_iff.1 h
    cases h
    exact (poll_send_link hpoll).2.1
  | poll_shutdown n close =>
    obtain ⟨p, hpoll, h⟩ := Option.map_eq_some_iff.1 h
    cases h
    exact (poll_send_link hpoll).2.1
  | _ => cases h

/-- The packet queue keeps its capacity. -/
theorem capacity_step {a : Action} (h : step b b' s a = some s') :
    s'.reader.session.capacity = s.reader.session.capacity := by
  have hcall : (s.call b a).map (·.1) = some s' →
      s'.reader.session.capacity = s.reader.session.capacity := by
    intro h
    obtain ⟨⟨u, record⟩, hrecord, rfl⟩ := Option.map_eq_some_iff.1 h
    rw [reader_call hrecord]
  cases a with
  | close =>
    cases h
    rfl
  | fail error n =>
    cases h
    rfl
  | deliver =>
    change s.deliver b' = some s' at h
    unfold Pipe.deliver at h
    split at h
    · obtain ⟨p, -, rfl⟩ := Option.map_eq_some_iff.1 h
      rfl
    · cases h
  | push =>
    obtain ⟨packet, -, h⟩ := Option.bind_eq_some_iff.1 h
    obtain ⟨reader, hread, rfl⟩ := Option.map_eq_some_iff.1 h
    exact SessionStream.capacity_step hread
  | read a =>
    obtain ⟨-, reader, hread, rfl⟩ := read_eq_some.1 h
    exact SessionStream.capacity_step hread
  | _ => exact hcall h

end Pipe

end Nethernet
