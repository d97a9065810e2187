import Nethernet.Transport.Pipe

/-!
# What is read is what was written

The buffers that a stream takes and the packets that the peer reads. `read_of_written`: whatever the
polls, the backpressure and the readers do, what has been read and what is queued are the first
buffers that were written, each once, whole and in order. `exists_read_all`: once they are flushed
they can all be read.
-/

namespace Nethernet

open Foundations Receiver

/-! ## The frames of a buffer at the peer -/

namespace Receiver

variable {b : Build} {m : Message} {packets : List Bytes} {r : Receiver}

/-- What the handler does with a frame does not depend on the packets that are queued. -/
theorem on_message_packets {frame : Bytes} {reply : Message.Reply}
    (h : on_message b ⟨m, packets⟩ frame = some (r, reply)) :
    r.packets = packets ++ completed reply ∧ ∀ packets', on_message b ⟨m, packets'⟩ frame =
      some (⟨r.message_buffer, packets' ++ completed reply⟩, reply) := by
  rcases on_message_cases h with ⟨e, hd, rfl, rfl⟩ | ⟨segment, hd, hadd, hpackets⟩
  · refine ⟨(List.append_nil _).symm, fun packets' => ?_⟩
    rw [on_message_of_decode_error hd, completed_error, List.append_nil]
  · exact ⟨hpackets, fun packets' => on_message_of_decode (r := ⟨m, packets'⟩) hd hadd⟩

theorem run_on_message_packets {frames : List Bytes} {replies : List Message.Reply}
    (h : Mealy.run (on_message b) ⟨m, packets⟩ frames = some (r, replies)) :
    r.packets = packets ++ delivered replies ∧ ∀ packets',
      Mealy.run (on_message b) ⟨m, packets'⟩ frames =
        some (⟨r.message_buffer, packets' ++ delivered replies⟩, replies) := by
  induction frames generalizing m packets replies with
  | nil =>
    obtain ⟨rfl, rfl⟩ := Prod.mk.inj (Option.some.inj h)
    exact ⟨(List.append_nil _).symm, fun packets' => by simp⟩
  | cons frame frames ih =>
    obtain ⟨⟨m', queue⟩, reply, replies, hstep, hrun, rfl⟩ := Mealy.run_cons_eq_some.1 h
    obtain ⟨hqueue, hall⟩ := on_message_packets hstep
    change queue = _ at hqueue
    subst hqueue
    obtain ⟨hpackets, hrest⟩ := ih hrun
    refine ⟨by rw [hpackets, delivered_cons, List.append_assoc], fun packets' => ?_⟩
    rw [delivered_cons, ← List.append_assoc]
    exact Mealy.run_cons_eq_some.2 ⟨_, reply, replies, hall packets', hrest _, rfl⟩

/-- The frames of a buffer, read between messages, give the buffer, unless it is empty. -/
theorem run_on_message_buffer (b : Build) {data : Bytes}
    (h : data.length ≤ 255 * MAX_MESSAGE_SIZE) (packets : List Bytes) : ∃ replies,
      Mealy.run (on_message b) ⟨Message.new, packets⟩ ((Message.segmentsOf data).map (·.encode)) =
        some (⟨Message.new, packets ++ [data].filter (· ≠ [])⟩, replies) := by
  by_cases hne : data = []
  · subst hne
    rw [Message.segmentsOf_nil]
    exact ⟨_, by simpa using Mealy.run_of_step (on_message_of_decode_error (b := b) rfl)⟩
  · have hfilter : [data].filter (· ≠ []) = [data] := by simp [hne]
    rw [hfilter]
    exact ⟨_, run_on_message_segmentsOf b hne h packets⟩

end Receiver

namespace Pipe

/-! ## The buffers and the packets -/

/-- The buffers in `sent` are those of the sends that got past the flag and the limit. The peer has
read and queued the first of them, and the frames under way and those in `more` bring the others. As
long as the channel has not failed `more` is what is still to be handed over. -/
structure Flows (b' : Build) (accepted received : List Bytes) (s : Pipe) (sent more : List Bytes)
    (replies : List Message.Reply) : Prop where
  unstarted : accepted = sent ++ s.send.elim [] Call.unstarted
  unsent : s.failure = none → more = s.send.elim [] Call.unsent
  run : Mealy.run (on_message b') ⟨s.message_buffer, []⟩ (s.frames ++ more) =
    some (⟨Message.new, delivered replies⟩, replies)
  read : sent.filter (· ≠ []) = received ++ s.queued ++ delivered replies

/-- No buffer is lost, repeated or broken. -/
def Flow (b' : Build) (accepted received : List Bytes) (s : Pipe) : Prop :=
  ∃ sent more replies, Flows b' accepted received s sent more replies

/-- What the calls of the stream, the send and the reader hang together by. -/
structure WellFormed (s : Pipe) : Prop where
  under_way : s.send.isSome = s.stream.send_future.isSome
  reader : s.reader.WellFormed

section Sending

variable {b b' : Build} {accepted received : List Bytes} {s s' : Pipe} {call call' : Call}
  {frames : List Bytes} {answer : PollResult}

theorem Flow.advances (hs : s.Flow b' accepted received) (hsend : s.send = some call)
    (h : Call.Advances s.closed s.failure call call' frames) :
    Flow b' accepted received { s with send := some call', frames := s.frames ++ frames } := by
  obtain ⟨sent, more, replies, haccepted, hmore, hrun, hsent⟩ := hs
  rw [hsend] at haccepted hmore
  cases h with
  | splits buf _ hlim =>
    obtain ⟨replies', hbuffer⟩ := run_on_message_buffer b' hlim (delivered replies)
    have hdelivered := (run_on_message_packets hbuffer).1
    have hfilter := List.append_cancel_left hdelivered
    refine ⟨sent ++ [buf], more ++ (Message.segmentsOf buf).map (·.encode), replies ++ replies',
      ?_, fun hopen => ?_, ?_, ?_⟩
    · exact haccepted.trans (List.append_nil _).symm
    · rw [hmore hopen]
      rfl
    · rw [List.append_nil, ← List.append_assoc, delivered_append, ← hfilter]
      exact Mealy.run_append_of hrun hbuffer
    · rw [List.filter_append, hsent, hfilter, delivered_append, ← List.append_assoc]
      rfl
  | hands segment segments hopen =>
    refine ⟨sent, segments.map (·.encode), replies, haccepted, fun _ => rfl, ?_, hsent⟩
    rw [List.append_assoc, List.singleton_append]
    rw [hmore hopen] at hrun
    exact hrun
  | returns =>
    refine ⟨sent, more, replies, haccepted, hmore, ?_, hsent⟩
    rw [List.append_nil]
    exact hrun

/-- A poll of the send goes on with it, unless it fails. -/
theorem Flow.poll {n : ℕ} (hs : s.Flow b' accepted received) (hsend : s.send = some call)
    (h : call.poll b s.session s.failure n = some (call', frames, answer))
    (hok : ∀ e, answer ≠ .Ready (.error e)) :
    Flow b' accepted received { s with send := some call', frames := s.frames ++ frames } ∧
      ∀ result, answer = .Ready result → call' = .done result := by
  induction n using Nat.strongRecOn generalizing s call frames with
  | _ n ih =>
    rcases Call.poll_cases h with ⟨result, rfl, rfl, rfl, rfl⟩ | ⟨-, rfl, rfl, rfl⟩ |
      ⟨k, mid, before, after, rfl, hstep, hrest, rfl⟩
    · rw [List.append_nil, ← hsend]
      exact ⟨hs, fun _ heq => by rw [Poll.Ready.inj heq]⟩
    · rw [List.append_nil, ← hsend]
      exact ⟨hs, nofun⟩
    · cases Call.advance_cases hstep with
      | inl hfailed =>
        obtain ⟨e, rfl⟩ := hfailed
        rcases Call.poll_cases hrest with ⟨result, hdone, -, -, rfl⟩ | ⟨hne, -⟩ |
          ⟨_, _, _, _, _, hdone, -⟩
        · exact absurd (congrArg _ (Call.done.inj hdone).symm) (hok e)
        · exact absurd rfl (hne _)
        · cases hdone
      | inr hadvances =>
        have hmid := ih k (Nat.lt_succ_self k) (hs.advances hsend hadvances) rfl hrest
        rwa [List.append_assoc] at hmid

theorem Flow.poll_send {n : ℕ} (hs : s.Flow b' accepted received)
    (h : s.poll_send b n = some (s', answer)) (hok : ∀ e, answer ≠ .Ready (.error e)) :
    s'.Flow b' accepted received := by
  rcases poll_send_cases h with ⟨-, rfl, -⟩ |
    ⟨call, call', frames, hsend, hpoll, ⟨rfl, rfl⟩ | ⟨result, rfl, rfl⟩⟩
  · exact hs
  · exact (hs.poll hsend hpoll hok).1
  · obtain ⟨⟨sent, more, replies, hflows⟩, hdone⟩ := hs.poll hsend hpoll hok
    obtain rfl := hdone result rfl
    exact ⟨sent, more, replies, hflows.unstarted, hflows.unsent, hflows.run, hflows.read⟩

end Sending

end Pipe

namespace Pipe

variable {b b' : Build} {accepted received : List Bytes} {s s' : Pipe}

theorem Flow.starts (hs : s.Flow b' accepted received) (hsend : s.send = none) (buf : Bytes) :
    Flow b' (accepted ++ [buf]) received { s with send := some (.start buf) } := by
  obtain ⟨sent, more, replies, haccepted, hmore, hrun, hsent⟩ := hs
  rw [hsend] at haccepted hmore
  refine ⟨sent, more, replies, ?_, hmore, hrun, hsent⟩
  rw [haccepted]
  exact congrArg (· ++ [buf]) (List.append_nil sent)

theorem Flow.act (hs : s.Flow b' accepted received) (call : NethernetStream.Call) :
    (s.act call).1.Flow b' accepted received := by
  obtain ⟨sent, more, replies, hflows⟩ := hs
  exact ⟨sent, more, replies, hflows.unstarted, hflows.unsent, hflows.run, hflows.read⟩

theorem not_error_of_errorOf {answer : PollResult} (h : NethernetStream.errorOf answer = none)
    (e : NethernetError) : answer ≠ .Ready (.error e) := by
  rintro rfl
  cases h

/-- A call that takes no buffer polls the send that is under way. -/
theorem Flow.polled {n : ℕ} {answer : PollResult} {call : NethernetStream.Call}
    (hs : s.Flow b' accepted received) (hwf : s.WellFormed)
    (h : s.poll_send b n = some (s', answer)) (hok : NethernetStream.errorOf answer = none)
    (hwritten : (s'.stream.act call).2.written = none)
    (hfuture : (s'.stream.act call).1.send_future.isSome ↔ answer = .Pending) :
    (s'.act call).1.Flow b' (accepted ++ (s'.act call).2.written.toList) received ∧
      (s'.act call).1.WellFormed := by
  obtain ⟨-, hreader, hpending, -⟩ := poll_send_link h
  have hflow := (hs.poll_send h (not_error_of_errorOf hok)).act call
  have hsame : accepted ++ (s'.act call).2.written.toList = accepted := by
    change accepted ++ (s'.stream.act call).2.written.toList = accepted
    rw [hwritten, Option.toList_none, List.append_nil]
  rw [hsame]
  exact ⟨hflow, Bool.eq_iff_iff.2 (hpending.trans hfuture.symm), hreader ▸ hwf.reader⟩

/-- **A call of the stream** that returns no error takes its buffer, or none. -/
theorem Flow.call {a : Action} {record : NethernetStream.Record} (hs : s.Flow b' accepted received)
    (hwf : s.WellFormed) (h : s.call b a = some (s', record)) (hok : record.error = none) :
    s'.Flow b' (accepted ++ record.written.toList) received ∧ s'.WellFormed := by
  -- a stream with no send under way reports that there is nothing to wait for
  have hidle : ∀ {n u answer}, s.poll_send b n = some (u, answer) →
      u.stream.send_future = none → answer = .Ready (.ok ()) := by
    intro n u answer hpoll hfuture
    obtain ⟨hstream, -, -, hnone⟩ := poll_send_link hpoll
    refine hnone (Option.not_isSome_iff_eq_none.1 fun hsome => ?_)
    rw [hwf.under_way, ← hstream, hfuture] at hsome
    cases hsome
  cases a with
  | poll_write buf earlier own =>
    obtain ⟨⟨u, answer⟩, hearlier, h⟩ := Option.bind_eq_some_iff.1 h
    by_cases hready : answer = .Ready (.ok ())
    · subst hready
      obtain ⟨⟨v, result⟩, hown, h⟩ := Option.map_eq_some_iff.1 h
      obtain ⟨-, hreader, hpending, -⟩ := poll_send_link hearlier
      obtain ⟨-, hreader', hpending', -⟩ := poll_send_link hown
      cases h
      obtain ⟨herror, hwritten, hfuture⟩ := v.stream.act_poll_write_ready buf result
      have hresult := herror.symm.trans hok
      have hnone : u.send = none := Option.not_isSome_iff_eq_none.1 fun h => nomatch hpending.1 h
      have hv := ((hs.poll_send hearlier nofun).starts hnone buf).poll_send hown
        (not_error_of_errorOf hresult)
      refine ⟨?_, Bool.eq_iff_iff.2 (hpending'.trans hfuture.symm),
        (hreader'.trans hreader) ▸ hwf.reader⟩
      change Flow b' (accepted ++ (v.stream.act _).2.written.toList) received _
      rw [hwritten hresult]
      exact hv.act _
    · have hsome : u.stream.send_future.isSome := Option.isSome_iff_ne_none.2 fun hfuture =>
        hready (hidle hearlier hfuture)
      have hcall : some (u.act (.poll_write buf answer .Pending)) = some (s', record) := by
        rcases answer with (e | ⟨⟨⟩⟩) | _
        · exact h
        · exact absurd rfl hready
        · exact h
      cases hcall
      obtain ⟨herror, hwritten, hfuture⟩ :=
        NethernetStream.act_poll_write_wait buf .Pending hsome hready
      exact hs.polled hwf hearlier (herror.symm.trans hok) hwritten hfuture
  | poll_flush n =>
    obtain ⟨⟨u, answer⟩, hpoll, h⟩ := Option.map_eq_some_iff.1 h
    cases h
    obtain ⟨herror, hwritten, hfuture⟩ := NethernetStream.act_poll_flush (hidle hpoll)
    exact hs.polled hwf hpoll (herror.symm.trans hok) hwritten hfuture
  | poll_shutdown n close =>
    obtain ⟨⟨u, answer⟩, hpoll, h⟩ := Option.map_eq_some_iff.1 h
    cases h
    obtain ⟨herror, hwritten, hfuture⟩ := NethernetStream.act_poll_shutdown close (hidle hpoll)
    exact hs.polled hwf hpoll (herror hok) hwritten hfuture
  | _ => cases h

/-- The handler reads a frame. -/
theorem Flow.deliver (hs : s.Flow b' accepted received) (h : s.deliver b' = some s') :
    s'.Flow b' accepted received ∧ s'.stream = s.stream ∧ s'.send = s.send ∧
      s'.reader = s.reader := by
  obtain ⟨sent, more, replies, haccepted, hmore, hrun, hsent⟩ := hs
  unfold Pipe.deliver at h
  split at h
  · rename_i frame frames hidle hframes
    obtain ⟨⟨r, reply⟩, hstep, rfl⟩ := Option.map_eq_some_iff.1 h
    rw [hframes] at hrun
    obtain ⟨r', reply', replies', hstep', hrest, rfl⟩ := Mealy.run_cons_eq_some.1 hrun
    obtain ⟨rfl, rfl⟩ := Prod.mk.inj (Option.some.inj (hstep.symm.trans hstep'))
    have hpackets := (on_message_packets hstep).1
    have hcompleted : r.packets.head?.toList = completed reply := by
      rw [hpackets]
      rcases reply with e | _ | packet <;> rfl
    refine ⟨⟨sent, more, replies', haccepted, hmore, ?_, ?_⟩, rfl, rfl, rfl⟩
    · exact (run_on_message_packets (m := r.message_buffer) hrest).2 []
    · rw [hsent, delivered_cons, queued, queued, hidle, hcompleted]
      simp
  · cases h

/-- **A step keeps the buffers together**, unless a call of the stream returns an error in it. -/
theorem Flow.step {a : Action} (hs : s.Flow b' accepted received) (hwf : s.WellFormed)
    (h : step b b' s a = some s') (hok : ∀ record ∈ records b s a, record.error = none) :
    s'.Flow b' (accepted ++ (records b s a).filterMap (·.written)) (received ++ s.packets_read a) ∧
      s'.WellFormed := by
  have hcall : (s.call b a).map (·.1) = some s' → s.packets_read a = [] →
      s'.Flow b' (accepted ++ (records b s a).filterMap (·.written))
          (received ++ s.packets_read a) ∧
        s'.WellFormed := by
    intro hstep htakes
    obtain ⟨⟨u, record⟩, hrecord, rfl⟩ := Option.map_eq_some_iff.1 hstep
    have hrecords : records b s a = [record] := by
      rw [records, hrecord]
      rfl
    have hwritten : [record].filterMap (·.written) = record.written.toList := by
      rw [List.filterMap_cons, List.filterMap_nil]
      cases record.written <;> rfl
    rw [hrecords] at hok ⊢
    rw [htakes, List.append_nil, hwritten]
    exact hs.call hwf hrecord (hok record List.mem_cons_self)
  have hquiet : s.call b a = none → s.packets_read a = [] → s'.Flow b' accepted received →
      s'.Flow b' (accepted ++ (records b s a).filterMap (·.written))
        (received ++ s.packets_read a) := by
    intro hnone htakes hflow
    rw [records, hnone, htakes, List.append_nil]
    exact (List.append_nil accepted).symm ▸ hflow
  cases a with
  | poll_write buf earlier own => exact hcall h rfl
  | poll_flush n => exact hcall h rfl
  | poll_shutdown n close => exact hcall h rfl
  | close =>
    cases h
    obtain ⟨sent, more, replies, hflows⟩ := hs
    exact ⟨hquiet rfl rfl ⟨sent, more, replies, hflows.unstarted, hflows.unsent, hflows.run,
      hflows.read⟩, hwf.under_way, hwf.reader⟩
  | fail error n =>
    cases h
    obtain ⟨sent, more, replies, hflows⟩ := hs
    refine ⟨hquiet rfl rfl ?_, hwf.under_way, hwf.reader⟩
    refine ⟨sent, s.frames.drop n ++ more, replies, hflows.unstarted, nofun, ?_, hflows.read⟩
    rw [← List.append_assoc, List.take_append_drop]
    exact hflows.run
  | deliver =>
    obtain ⟨hflow, hstream, hsend, hreader⟩ := hs.deliver h
    refine ⟨hquiet rfl rfl hflow, ?_, hreader ▸ hwf.reader⟩
    rw [hsend, hstream]
    exact hwf.under_way
  | push =>
    obtain ⟨packet, hpacket, h⟩ := Option.bind_eq_some_iff.1 h
    obtain ⟨reader, hread, rfl⟩ := Option.map_eq_some_iff.1 h
    obtain ⟨sent, more, replies, hflows⟩ := hs
    have hitems := SessionStream.items_step hwf.reader hread
    refine ⟨hquiet rfl rfl ?_, hwf.under_way, hwf.reader.step hread⟩
    refine ⟨sent, more, replies, hflows.unstarted, hflows.unsent, hflows.run, ?_⟩
    rw [hflows.read, queued, queued, hpacket]
    exact congrArg (fun queue => received ++ queue ++ delivered replies)
      (hitems.trans (List.append_nil _).symm)
  | read a =>
    obtain ⟨sent, more, replies, hflows⟩ := hs
    obtain ⟨harrived, reader, hread, rfl⟩ := read_eq_some.1 h
    have hitems := SessionStream.items_step hwf.reader hread
    rw [harrived, List.append_nil] at hitems
    refine ⟨⟨sent, more, replies, ?_, hflows.unsent, hflows.run, ?_⟩, hwf.under_way,
      hwf.reader.step hread⟩
    · rw [records]
      exact (List.append_nil accepted).trans hflows.unstarted
    rw [hflows.read, queued, queued, hitems, packets_read]
    simp only [List.append_assoc]

/-- The last send has returned, no frame is under way, and the channel has not failed. -/
structure Settled (s : Pipe) : Prop where
  returned : s.send = none
  unfailed : s.failure = none
  arrived : s.frames = []

/-- What has not come to the peer's queue are the last buffers. -/
theorem Flow.rest (hs : s.Flow b' accepted received) :
    ∃ rest, accepted.filter (· ≠ []) = received ++ s.queued ++ rest ∧ (s.Settled → rest = []) := by
  obtain ⟨sent, more, replies, haccepted, hmore, hrun, hsent⟩ := hs
  refine ⟨delivered replies ++ (s.send.elim [] Call.unstarted).filter (· ≠ []), ?_, ?_⟩
  · rw [haccepted, List.filter_append, hsent, List.append_assoc _ (delivered replies)]
  · rintro ⟨hreturned, hunfailed, harrived⟩
    rw [hmore hunfailed, hreturned, harrived] at hrun
    obtain ⟨-, rfl⟩ := Prod.mk.inj (Option.some.inj hrun)
    rw [hreturned]
    rfl

section Runs

variable {capacity : ℕ} {as : List Action}

theorem flow_start (b' : Build) (capacity : ℕ) : (start capacity).Flow b' [] [] :=
  ⟨[], [], [], rfl, fun _ => rfl, rfl, rfl⟩

theorem wellFormed_start (capacity : ℕ) : (start capacity).WellFormed :=
  ⟨rfl, SessionStream.wellFormed_from_session (Recvs.wellFormed_with_capacity capacity)⟩

/-- **A run keeps the buffers together** as long as no call of the stream returns an error. -/
theorem flow_of_run (h : Transition.run (step b b') (start capacity) as = some s)
    (hok : Unfailing b b' capacity as) :
    s.Flow b' ((history b b' capacity as).filterMap (·.written)) (Pipe.received b b' capacity as) ∧
      s.WellFormed := by
  have hstart : Transition.run (step b b') (start capacity) [] = some (start capacity) ∧
      (Unfailing b b' capacity [] →
        (start capacity).Flow b' ((history b b' capacity []).filterMap (·.written))
          (Pipe.received b b' capacity []) ∧ (start capacity).WellFormed) :=
    ⟨rfl, fun _ => ⟨flow_start b' capacity, wellFormed_start capacity⟩⟩
  refine (Transition.run_induction (P := fun as s =>
    Transition.run (step b b') (start capacity) as = some s ∧ (Unfailing b b' capacity as →
      s.Flow b' ((history b b' capacity as).filterMap (·.written))
        (Pipe.received b b' capacity as) ∧ s.WellFormed)) ?_ hstart h).2 hok
  rintro as u a u' ⟨hrun, hkeeps⟩ hstep
  refine ⟨Transition.run_append_eq_some.2 ⟨u, hrun, Transition.run_cons_eq_some.2 ⟨u', hstep, rfl⟩⟩,
    fun hok => ?_⟩
  have hhistory : history b b' capacity (as ++ [a]) = history b b' capacity as ++ records b u a :=
    Transition.trace_concat hrun a
  have hreceived : Pipe.received b b' capacity (as ++ [a]) =
      Pipe.received b b' capacity as ++ u.packets_read a := Transition.trace_concat hrun a
  rw [Unfailing, hhistory, List.forall_mem_append] at hok
  obtain ⟨hflow, hwf⟩ := hkeeps hok.1
  rw [hhistory, hreceived, List.filterMap_append]
  exact hflow.step hwf hstep hok.2

/-- **What is read is what was written**, whatever the polls, the channel and the readers do: as
long as no call of the stream returns an error, the packets that have been read and those in the
queue are the first buffers that the stream has taken, each once, whole and in order. They are all
the buffers when the last send has returned and its frames have arrived. -/
theorem read_of_written (b b' : Build) (capacity : ℕ) (as : List Action) (s : Pipe)
    (h : Transition.run (step b b') (start capacity) as = some s)
    (hok : Unfailing b b' capacity as) :
    ∃ rest, written b b' capacity as = Pipe.received b b' capacity as ++ s.queued ++ rest ∧
      (s.Settled → rest = []) := by
  exact (flow_of_run h hok).1.rest

/-- Two buffers are written while the peer has room for one packet, and a read waits for them. -/
def two_writes : List Action :=
  [.poll_write [1, 2] 0 0, .poll_write [3] 3 3, .poll_flush 0, .read .poll_next, .deliver, .push,
    .deliver, .read .poll_next]

theorem read_of_written_two :
    ∃ s, Transition.run (step .debug .release) (start 1) two_writes = some s ∧
      written .debug .release 1 two_writes = [[1, 2], [3]] ∧
      ∃ rest, written .debug .release 1 two_writes =
          Pipe.received .debug .release 1 two_writes ++ s.queued ++ rest ∧
        (s.Settled → rest = []) :=
  ⟨_, rfl, by decide,
    read_of_written .debug .release 1 two_writes _ rfl (by unfold Unfailing; decide)⟩

end Runs

end Pipe

/-! ## Everything written can be read -/

namespace Pipe

variable {b b' : Build} {s s' : Pipe}

/-- A step of the peer: its handler gets a frame or queues a message, or a packet is read. -/
def Action.is_peer : Action → Bool
  | .deliver | .push => true
  | .read a => a.is_poll
  | _ => false

/-- The channel has not failed, the peer is open, and the buffers are together. -/
structure Readable (b' : Build) (s : Pipe) : Prop where
  returned : s.send = none
  unfailed : s.failure = none
  opened : s.reader.session.closed = false
  room : 0 < s.reader.session.capacity
  wellFormed : s.WellFormed
  flow : ∃ accepted received, s.Flow b' accepted received

/-- How far the frames and the packets still have to go. -/
def rank (s : Pipe) : ℕ :=
  3 * s.frames.length + 2 * s.complete_msg.toList.length + s.reader.session.packets.items.length

theorem records_of_peer {a : Action} (ha : a.is_peer = true) : records b s a = [] := by
  cases a <;> first | rfl | cases ha

/-- The step is one of the peer, and leaves it open. -/
theorem Readable.of_step {a : Action} (hs : s.Readable b') (ha : a.is_peer = true)
    (h : step b b' s a = some s') (hsend : s'.send = s.send) (hfailure : s'.failure = s.failure)
    (hopened : s'.reader.session.closed = false)
    (hcapacity : s'.reader.session.capacity = s.reader.session.capacity) : s'.Readable b' := by
  obtain ⟨accepted, received, hflow⟩ := hs.flow
  have hstep := hflow.step hs.wellFormed h (by simp [records_of_peer ha])
  exact ⟨hsend.trans hs.returned, hfailure.trans hs.unfailed, hopened, hcapacity ▸ hs.room,
    hstep.2, _, _, hstep.1⟩

/-- The handler never stops at a frame of the stream. -/
theorem Flow.exists_deliver {accepted received : List Bytes} {frame : Bytes} {frames : List Bytes}
    (hs : s.Flow b' accepted received) (hidle : s.complete_msg = none)
    (hframes : s.frames = frame :: frames) : ∃ m complete_msg, s.deliver b' = some { s with
      frames := frames, message_buffer := m, complete_msg := complete_msg } ∧
        complete_msg.toList.length ≤ 1 := by
  obtain ⟨sent, more, replies, -, -, hrun, -⟩ := hs
  rw [hframes] at hrun
  obtain ⟨r, reply, replies', hstep, -, -⟩ := Mealy.run_cons_eq_some.1 hrun
  refine ⟨r.message_buffer, r.packets.head?, ?_, ?_⟩
  · unfold Pipe.deliver
    rw [hidle, hframes]
    dsimp only
    rw [hstep]
    rfl
  · cases r.packets.head? <;> simp

/-- **A step of the peer brings the packets further.** -/
theorem Readable.step (hs : s.Readable b') (hrank : s.rank ≠ 0) (b : Build) : ∃ a s',
    a.is_peer = true ∧ step b b' s a = some s' ∧ s'.Readable b' ∧ s'.rank < s.rank := by
  cases hitems : s.reader.session.packets.items with
  | cons packet items =>
    obtain ⟨a, reader, ha, hread, hrest, hopened, hcapacity⟩ :=
      SessionStream.exists_read hs.wellFormed.reader hs.opened hitems
    have hstep : Pipe.step b b' s (.read a) = some { s with reader := reader } := by
      refine read_eq_some.2 ⟨?_, reader, hread, rfl⟩
      rcases a with (packet | _ | _ | _ | _ | _ | _ | _ | _) | _ <;> first | rfl | cases ha
    refine ⟨.read a, _, ha, hstep, hs.of_step (a := .read a) ha hstep rfl rfl hopened hcapacity, ?_⟩
    simp only [rank, hitems, hrest, List.length_cons]
    omega
  | nil =>
    cases hmessage : s.complete_msg with
    | some packet =>
      have harrive : Recvs.step s.reader.session (.arrive packet) = some { s.reader.session with
          packets := s.reader.session.packets.put packet } := by
        change s.reader.session.arrive packet = _
        rw [Recvs.arrive, hitems]
        exact if_pos hs.room
      have hstep : Pipe.step b b' s .push = some { s with
          complete_msg := none
          reader := { s.reader with session := { s.reader.session with
            packets := s.reader.session.packets.put packet } } } := by
        change s.push = _
        rw [push, hmessage, Option.bind_some,
          SessionStream.session_step (by simp [Recvs.Action.recv_call]) harrive]
        rfl
      refine ⟨.push, _, rfl, hstep, hs.of_step rfl hstep rfl rfl hs.opened rfl, ?_⟩
      simp only [rank, hmessage, Line.put, hitems, Option.toList_some, Option.toList_none,
        List.nil_append, List.length_singleton, List.length_nil]
      omega
    | none =>
      cases hframes : s.frames with
      | nil => exact absurd (by simp [rank, hitems, hmessage, hframes]) hrank
      | cons frame frames =>
        obtain ⟨_, _, hflow⟩ := hs.flow
        obtain ⟨m, complete_msg, hdeliver, hlength⟩ := hflow.exists_deliver hmessage hframes
        have hstep : Pipe.step b b' s .deliver = some _ := hdeliver
        refine ⟨.deliver, _, rfl, hstep, hs.of_step rfl hstep rfl rfl hs.opened rfl, ?_⟩
        simp only [rank, hframes, List.length_cons]
        omega

/-- **Everything written can be read.** Once the last send has returned, as a flush reports, and as
long as the channel has not failed and the peer's session is open, the handler of the peer and its
readers can go on until all the buffers that the stream has taken are read, however small the packet
queue. -/
theorem exists_read_all (b b' : Build) (capacity : ℕ) (hcapacity : 0 < capacity) (as : List Action)
    (s : Pipe) (h : Transition.run (step b b') (start capacity) as = some s)
    (hok : Unfailing b b' capacity as) (hreturned : s.send = none) (hunfailed : s.failure = none)
    (hopened : s.reader.session.closed = false) :
    ∃ bs t, (∀ a ∈ bs, a.is_peer = true) ∧ Transition.run (step b b') s bs = some t ∧
      Pipe.received b b' capacity (as ++ bs) = written b b' capacity as := by
  have hreadable : s.Readable b' := by
    have hroom := Transition.run_invariant (f := step b b')
      (P := fun s => s.reader.session.capacity = capacity)
      (fun s a s' hs hstep => (capacity_step hstep).trans hs) rfl h
    obtain ⟨hflow, hwf⟩ := flow_of_run h hok
    exact ⟨hreturned, hunfailed, hopened, hroom ▸ hcapacity, hwf, _, _, hflow⟩
  obtain ⟨bs, t, hbs, hrun, ht, hrank⟩ : ∃ bs t, (∀ a ∈ bs, a.is_peer = true) ∧
      Transition.run (step b b') s bs = some t ∧ t.Readable b' ∧ t.rank = 0 := by
    by_cases hrank : s.rank = 0
    · exact ⟨[], s, by simp, rfl, hreadable, hrank⟩
    · exact Transition.exists_run_of_rank (f := step b b') (C := fun a => a.is_peer = true)
        (P := fun s => s.Readable b' ∧ s.rank ≠ 0) (Q := fun s => s.Readable b' ∧ s.rank = 0) rank
        (fun s hs => by
          obtain ⟨a, s', ha, hstep, hs', hlt⟩ := hs.1.step hs.2 b
          refine ⟨a, s', ha, hstep, ?_⟩
          by_cases hzero : s'.rank = 0
          · exact .inl ⟨hs', hzero⟩
          · exact .inr ⟨⟨hs', hzero⟩, hlt⟩) ⟨hreadable, hrank⟩
  refine ⟨bs, t, hbs, hrun, ?_⟩
  have hhistory : history b b' capacity (as ++ bs) = history b b' capacity as := by
    rw [history, Transition.trace_append h,
      Transition.trace_eq_nil (fun u a ha => records_of_peer (hbs a ha)), List.append_nil]
    rfl
  have hlater : Transition.run (step b b') (start capacity) (as ++ bs) = some t :=
    Transition.run_append_eq_some.2 ⟨s, h, hrun⟩
  obtain ⟨rest, hwritten, hsettled⟩ :=
    (flow_of_run hlater (by rwa [Unfailing, hhistory])).1.rest
  have hzero : t.frames.length = 0 ∧ t.queued.length = 0 := by
    rw [rank] at hrank
    rw [queued, List.length_append]
    omega
  have hnone := hsettled ⟨ht.returned, ht.unfailed, List.length_eq_zero_iff.1 hzero.1⟩
  rw [hnone, List.length_eq_zero_iff.1 hzero.2, List.append_nil, List.append_nil] at hwritten
  rw [← hwritten, written, hhistory]

/-- Two buffers are written and flushed before the peer has read a frame. -/
def two_flushed : List Action := [.poll_write [1, 2] 0 0, .poll_write [3] 3 0, .poll_flush 3]

theorem exists_read_all_two :
    ∃ s bs t, Transition.run (step .debug .release) (start 1) two_flushed = some s ∧
      (∀ a ∈ bs, a.is_peer = true) ∧ Transition.run (step .debug .release) s bs = some t ∧
      Pipe.received .debug .release 1 (two_flushed ++ bs) = written .debug .release 1 two_flushed ∧
      written .debug .release 1 two_flushed = [[1, 2], [3]] := by
  have hstate : (Transition.run (step .debug .release) (start 1) two_flushed).map
      (fun s => (s.send.isNone, s.failure, s.reader.session.closed)) = some (true, none, false) :=
    rfl
  obtain ⟨s, hrun, heq⟩ := Option.map_eq_some_iff.1 hstate
  simp only [Prod.mk.injEq, Option.isNone_iff_eq_none] at heq
  obtain ⟨hreturned, hunfailed, hopened⟩ := heq
  obtain ⟨bs, t, hbs, hpeer, hread⟩ := exists_read_all .debug .release 1 Nat.one_pos two_flushed s
    hrun (by unfold Unfailing; decide) hreturned hunfailed hopened
  exact ⟨s, bs, t, hrun, hbs, hpeer, hread, by decide⟩

end Pipe

end Nethernet
