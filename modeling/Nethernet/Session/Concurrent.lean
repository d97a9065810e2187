import Mathlib.Data.List.Perm.Basic
import Mathlib.Data.List.ReduceOption
import Nethernet.Foundations.Transition
import Nethernet.Session.Conservation

/-!
# Sends at the same time

Any number of `Session::send` calls on one session. Each splits its payload and hands the segments
to the channel, one `channel.send` at a time; nothing keeps the calls apart between two of these,
so a schedule may put the segments of one payload between those of another. The frames arrive in
the order in which they were handed over.
-/

namespace Nethernet

open Foundations

/-- Take elements from the fronts of lists, from the list at each position of the schedule. -/
def interleave {α : Type} : List (List α) → List ℕ → List α
  | _, [] => []
  | lists, i :: schedule =>
    match lists[i]? with
    | some (x :: rest) => x :: interleave (lists.set i rest) schedule
    | _ => interleave lists schedule

theorem interleave_of_getElem? {α : Type} {lists : List (List α)} {i : ℕ} {x : α} {rest : List α}
    (h : lists[i]? = some (x :: rest)) (schedule : List ℕ) :
    interleave lists (i :: schedule) = x :: interleave (lists.set i rest) schedule := by
  rw [interleave, h]

/-- Where a call of `send` stands. -/
inductive Call
  /-- It has not looked at the session yet. -/
  | start (data : Bytes)
  /-- These segments are still to be handed to the channel. -/
  | sending (segments : List MessageSegment)
  /-- It has returned. -/
  | done (result : Except NethernetError Unit)
  deriving Repr

namespace Call

variable {Channel : Type}

/-- One step of a call: up to the segment loop, one `channel.send` (the frame it hands over is
returned too), or the return. A call that has returned takes no step. -/
def step (b : Build) (session : Session Channel) : Call → Option (Call × List Bytes)
  | start data =>
    if session.closed then some (done (.error .ConnectionClosed), [])
    else match session.reliable_channel with
      | none => some (done (.error (.DataChannel "Reliable channel not set")), [])
      | some _ =>
        (Message.split_into_segments b data).map fun split =>
          match split with
          | .error e => (done (.error e), [])
          | .ok segments => (sending segments, [])
  | sending [] => some (done (.ok ()), [])
  | sending (segment :: segments) => some (sending segments, [segment.encode])
  | done _ => none

/-- What the remaining steps of a call of an open session hand over: nothing where it splits the
payload, then its segments, and nothing where it returns. -/
def handovers : Call → List (Option MessageSegment)
  | start data => none :: (Message.segmentsOf data).map some ++ [none]
  | sending segments => segments.map some ++ [none]
  | done _ => []

/-- The segments that a call of an open session has yet to hand over. -/
def pending (call : Call) : List MessageSegment := call.handovers.reduceOption

theorem pending_start (data : Bytes) : (start data).pending = Message.segmentsOf data := by
  simp [pending, handovers, List.reduceOption]

theorem step_start {b : Build} {s : Session Channel} (hs : s.Ready) {data : Bytes}
    {segments : List MessageSegment}
    (h : Message.split_into_segments b data = some (.ok segments)) :
    (start data).step b s = some (sending segments, []) := by
  obtain ⟨_, hc⟩ := Option.isSome_iff_exists.1 hs.channel_set
  simp only [step, hs.open_, hc, h, Option.map_some, Bool.false_eq_true, if_false]

/-- The first step of a call is `send` up to its segment loop. -/
theorem start_of_send {b : Build} {session : Session Channel} {data : Bytes} {sent : Sent}
    (h : session.send b data Session.reliable = some sent) :
    (∃ result, (start data).step b session = some (done result, []) ∧ sent = ⟨[], some result⟩) ∨
      ∃ segments, (start data).step b session = some (sending segments, []) ∧
        sent = Session.sendSegments Session.reliable segments := by
  unfold Session.send at h
  split at h <;> rename_i hclosed
  · exact .inl ⟨_, if_pos hclosed, (Option.some.inj h).symm⟩
  · split at h <;> rename_i hchannel
    · exact .inl ⟨_, by rw [step, if_neg hclosed, hchannel], (Option.some.inj h).symm⟩
    · obtain ⟨split, hsplit, rfl⟩ := Option.map_eq_some_iff.1 h
      cases split with
      | error e => exact .inl ⟨_, by rw [step, if_neg hclosed, hchannel, hsplit]; rfl, rfl⟩
      | ok segments =>
        exact .inr ⟨segments, by rw [step, if_neg hclosed, hchannel, hsplit]; rfl, rfl⟩

/-- **A step hands over the next segment**, if that is what it does. -/
theorem step_handovers {b : Build} {session : Session Channel} (hs : session.Ready)
    {call call' : Call} {frames : List Bytes}
    (hlim : ∀ data, call = start data → data.length ≤ 255 * MAX_MESSAGE_SIZE)
    (h : call.step b session = some (call', frames)) :
    ∃ next : Option MessageSegment, call.handovers = next :: call'.handovers ∧
      frames = next.toList.map (·.encode) ∧ ∀ data, call' ≠ start data := by
  obtain ⟨_, hc⟩ := Option.isSome_iff_exists.1 hs.channel_set
  cases call with
  | start data =>
    have hle : ¬ 255 * MAX_MESSAGE_SIZE < data.length := Nat.not_lt.2 (hlim data rfl)
    simp only [step, hs.open_, hc, Message.split_into_segments_eq, if_neg hle, Option.map_some,
      Bool.false_eq_true, if_false] at h
    cases h
    exact ⟨none, rfl, rfl, by simp⟩
  | sending segments =>
    rcases segments with _ | ⟨segment, segments⟩ <;> cases h
    · exact ⟨none, rfl, rfl, by simp⟩
    · exact ⟨some segment, rfl, rfl, by simp⟩
  | done result => cases h

end Call

/-- The calls, and the frames handed to the channel so far. -/
structure Sends where
  calls : List Call
  wire : List Bytes
  deriving Repr

namespace Sends

variable {Channel : Type}

/-- The call at position `i` takes a step. -/
def step (b : Build) (session : Session Channel) : Transition Sends ℕ := fun s i =>
  (s.calls[i]?).bind fun call =>
    (call.step b session).map fun p => ⟨s.calls.set i p.1, s.wire ++ p.2⟩

/-- One call for each payload, none of them started. -/
def start (payloads : List Bytes) : Sends := ⟨payloads.map .start, []⟩

theorem step_eq_some {b : Build} {session : Session Channel} {s s' : Sends} {i : ℕ} :
    step b session s i = some s' ↔ ∃ call call' frames, s.calls[i]? = some call ∧
      call.step b session = some (call', frames) ∧
        s' = ⟨s.calls.set i call', s.wire ++ frames⟩ := by
  rw [step, Option.bind_eq_some_iff]
  constructor
  · rintro ⟨call, hcall, h⟩
    obtain ⟨⟨call', frames⟩, hstep, rfl⟩ := Option.map_eq_some_iff.1 h
    exact ⟨call, call', frames, hcall, hstep, rfl⟩
  · rintro ⟨call, call', frames, hcall, hstep, rfl⟩
    exact ⟨call, hcall, by rw [hstep]; rfl⟩

theorem run_sending (b : Build) (session : Session Channel) (segments : List MessageSegment)
    (wire : List Bytes) :
    Transition.run (step b session) ⟨[.sending segments], wire⟩
        (List.replicate (segments.length + 1) 0) =
      some ⟨[.done (.ok ())], wire ++ segments.map (·.encode)⟩ := by
  induction segments generalizing wire with
  | nil => rfl
  | cons segment segments ih =>
    have hstep : step b session ⟨[.sending (segment :: segments)], wire⟩ 0 =
        some ⟨[.sending segments], wire ++ [segment.encode]⟩ := rfl
    rw [List.length_cons, List.replicate_succ, Transition.run_cons, hstep, Option.bind_some, ih,
      List.append_assoc]
    rfl

/-- **A call on its own does what `send` does** over a channel that takes every frame. -/
theorem run_alone {b : Build} {session : Session Channel} {data : Bytes} {sent : Sent}
    (h : session.send b data Session.reliable = some sent) :
    ∃ k result, sent.result = some result ∧
      Transition.run (step b session) (start [data]) (List.replicate k 0) =
        some ⟨[.done result], sent.frames⟩ := by
  have hstart : ∀ call, (Call.start data).step b session = some (call, []) →
      step b session (start [data]) 0 = some ⟨[call], []⟩ := fun call hcall =>
    step_eq_some.2 ⟨_, call, [], rfl, hcall, rfl⟩
  rcases Call.start_of_send h with ⟨result, hcall, rfl⟩ | ⟨segments, hcall, rfl⟩
  · exact ⟨1, result, rfl, Transition.run_cons_eq_some.2 ⟨_, hstart _ hcall, rfl⟩⟩
  · obtain ⟨hframes, hresult⟩ := Session.sendSegments_eq Session.reliable segments
    rw [Session.sent_count_reliable, List.take_length] at hframes
    refine ⟨segments.length + 2, _, hresult.2 (Session.sent_count_reliable _), ?_⟩
    rw [hframes]
    exact Transition.run_cons_eq_some.2 ⟨_, hstart _ hcall, run_sending b session segments []⟩

/-- Two calls of an open session, both up to their segment loops. -/
theorem run_start_two {b : Build} {session : Session Channel} (hs : session.Ready)
    {data data' : Bytes} {segments segments' : List MessageSegment}
    (h : Message.split_into_segments b data = some (.ok segments))
    (h' : Message.split_into_segments b data' = some (.ok segments')) (schedule : List ℕ) :
    Transition.run (step b session) (start [data, data']) (0 :: 1 :: schedule) =
      Transition.run (step b session) ⟨[.sending segments, .sending segments'], []⟩ schedule := by
  have hfirst : step b session (start [data, data']) 0 =
      some ⟨[.sending segments, .start data'], []⟩ :=
    step_eq_some.2 ⟨_, _, _, rfl, Call.step_start hs h, rfl⟩
  have hsecond : step b session ⟨[.sending segments, .start data'], []⟩ 1 =
      some ⟨[.sending segments, .sending segments'], []⟩ :=
    step_eq_some.2 ⟨_, _, _, rfl, Call.step_start hs h', rfl⟩
  rw [Transition.run_cons, hfirst, Option.bind_some, Transition.run_cons, hsecond, Option.bind_some]

/-- Every call has returned. -/
def AllDone (s : Sends) : Prop := ∀ call ∈ s.calls, ∃ result, call = .done result

/-- What the calls have yet to hand over. -/
def pending (s : Sends) : List MessageSegment := s.calls.flatMap (·.pending)

/-- The segments on the wire and those still pending are, together, the segments of the payloads. -/
structure Conserves (payloads : List Bytes) (s : Sends) : Prop where
  split : ∃ segments, s.wire = segments.map (·.encode) ∧
    (segments ++ s.pending).Perm (payloads.flatMap Message.segmentsOf)
  within : ∀ data, .start data ∈ s.calls → data.length ≤ 255 * MAX_MESSAGE_SIZE

theorem conserves_start {payloads : List Bytes}
    (h : ∀ data ∈ payloads, data.length ≤ 255 * MAX_MESSAGE_SIZE) :
    Conserves payloads (start payloads) where
  split := by
    refine ⟨[], rfl, .of_eq ?_⟩
    rw [List.nil_append, pending, start, List.flatMap_map]
    exact List.flatMap_congr fun data _ => Call.pending_start data
  within data hd := by
    obtain ⟨data', hd', he⟩ := List.mem_map.1 hd
    exact Call.start.inj he ▸ h data' hd'

/-- What one element's share loses, the whole loses. -/
theorem flatMap_set_perm {α β : Type} (f : α → List β) {l : List α} {i : ℕ} (hi : i < l.length)
    {x : α} {moved : List β} (h : moved ++ f x = f l[i]) :
    (moved ++ (l.set i x).flatMap f).Perm (l.flatMap f) := by
  induction l generalizing i with
  | nil => exact absurd hi (Nat.not_lt_zero i)
  | cons y l ih =>
    cases i with
    | zero =>
      rw [List.set_cons_zero, List.flatMap_cons, List.flatMap_cons, ← List.append_assoc, h]
      rfl
    | succ i =>
      have hrest := ih (Nat.lt_of_succ_lt_succ hi) h
      rw [List.set_cons_succ, List.flatMap_cons, List.flatMap_cons]
      exact (List.perm_append_comm_assoc ..).trans (hrest.append_left (f y))

/-- **No step loses or invents a segment.** -/
theorem Conserves.step {b : Build} {session : Session Channel} (hs : session.Ready)
    {payloads : List Bytes} {s s' : Sends} {i : ℕ} (h : Conserves payloads s)
    (hstep : Sends.step b session s i = some s') : Conserves payloads s' := by
  obtain ⟨call, call', frames, hcall, hstep, rfl⟩ := step_eq_some.1 hstep
  obtain ⟨hi, rfl⟩ := List.getElem?_eq_some_iff.1 hcall
  have hlim : ∀ data, s.calls[i] = .start data → data.length ≤ 255 * MAX_MESSAGE_SIZE :=
    fun data he => h.within data (he ▸ List.getElem_mem hi)
  obtain ⟨next, hnext, rfl, hnot⟩ := Call.step_handovers hs hlim hstep
  have hmoved : next.toList ++ call'.pending = s.calls[i].pending := by
    rw [Call.pending, Call.pending, hnext]
    cases next <;> rfl
  obtain ⟨segments, hwire, hperm⟩ := h.split
  refine ⟨⟨segments ++ next.toList, by rw [hwire, List.map_append], .trans ?_ hperm⟩, ?_⟩
  · rw [List.append_assoc]
    exact (flatMap_set_perm Call.pending hi hmoved).append_left segments
  · intro data hd
    rcases List.mem_or_eq_of_mem_set hd with hd | he
    · exact h.within data hd
    · exact absurd he.symm (hnot data)

theorem conserves_of_run {b : Build} {session : Session Channel} (hs : session.Ready)
    {payloads : List Bytes} (h : ∀ data ∈ payloads, data.length ≤ 255 * MAX_MESSAGE_SIZE)
    {schedule : List ℕ} {s : Sends}
    (hrun : Transition.run (step b session) (start payloads) schedule = some s) :
    Conserves payloads s :=
  Transition.run_invariant (fun _ _ _ h hstep => h.step hs hstep) (conserves_start h) hrun

/-- When every call has returned, the wire carries the segments of the payloads in some order. -/
theorem wire_of_allDone {b : Build} {session : Session Channel} (hs : session.Ready)
    {payloads : List Bytes} (h : ∀ data ∈ payloads, data.length ≤ 255 * MAX_MESSAGE_SIZE)
    {schedule : List ℕ} {s : Sends}
    (hrun : Transition.run (step b session) (start payloads) schedule = some s)
    (hdone : s.AllDone) :
    ∃ segments : List MessageSegment, s.wire = segments.map (·.encode) ∧
      segments.Perm (payloads.flatMap Message.segmentsOf) := by
  obtain ⟨segments, hwire, hperm⟩ := (conserves_of_run hs h hrun).split
  have hpending : s.pending = [] := by
    rw [pending, List.flatMap_eq_nil_iff]
    intro call hcall
    obtain ⟨result, rfl⟩ := hdone call hcall
    rfl
  rw [hpending, List.append_nil] at hperm
  exact ⟨segments, hwire, hperm⟩

/-- **The wire is the interleaving** of what the calls hand over. -/
theorem wire_of_run {b : Build} {session : Session Channel} (hs : session.Ready)
    {payloads : List Bytes} {schedule : List ℕ} {s s' : Sends} (h : Conserves payloads s)
    (hrun : Transition.run (step b session) s schedule = some s') :
    s'.wire = s.wire ++
      (interleave (s.calls.map (·.handovers)) schedule).reduceOption.map (·.encode) := by
  induction schedule generalizing s with
  | nil =>
    obtain rfl := Option.some.inj hrun
    simp [interleave]
  | cons i schedule ih =>
    obtain ⟨u, hstep, hrest⟩ := Transition.run_cons_eq_some.1 hrun
    rw [ih (h.step hs hstep) hrest]
    obtain ⟨call, call', frames, hcall, hcallstep, rfl⟩ := step_eq_some.1 hstep
    have hlim : ∀ data, call = .start data → data.length ≤ 255 * MAX_MESSAGE_SIZE :=
      fun data he => h.within data (he ▸ List.mem_of_getElem? hcall)
    obtain ⟨next, hnext, rfl, -⟩ := Call.step_handovers hs hlim hcallstep
    have hhead : (s.calls.map (·.handovers))[i]? = some (next :: call'.handovers) := by
      rw [List.getElem?_map, hcall, Option.map_some, hnext]
    rw [interleave_of_getElem? hhead, List.map_set, List.append_assoc]
    cases next <;> rfl

end Sends

/-- The segments of the payloads, in the order in which the schedule hands them over. -/
def handedOver (payloads : List Bytes) (schedule : List ℕ) : List MessageSegment :=
  (interleave (payloads.map fun data => (Call.start data).handovers) schedule).reduceOption

/-- The schedule hands over the segments as if the payloads were sent one after the other, in some
order. -/
def OneByOne (payloads : List Bytes) (schedule : List ℕ) : Prop :=
  ∃ order : List Bytes, order.Perm payloads ∧
    handedOver payloads schedule = order.flatMap Message.segmentsOf

/-- The peer delivers every payload once, and nothing else. -/
def DeliversEach (b : Build) (wire : List Bytes) (payloads : List Bytes) : Prop :=
  ∃ r replies, Mealy.run (Receiver.on_message b) Receiver.new wire = some (r, replies) ∧
    r.packets.Perm payloads

/-- The wire of a run in which every call returned. -/
theorem wire_of_complete {Channel : Type} {b : Build} {session : Session Channel}
    (hs : session.Ready) {payloads : List Bytes}
    (h : ∀ data ∈ payloads, data.length ≤ 255 * MAX_MESSAGE_SIZE) {schedule : List ℕ} {s : Sends}
    (hrun : Transition.run (Sends.step b session) (Sends.start payloads) schedule = some s)
    (hdone : s.AllDone) :
    s.wire = (handedOver payloads schedule).map (·.encode) ∧
      (handedOver payloads schedule).Perm (payloads.flatMap Message.segmentsOf) := by
  obtain ⟨segments, hwire, hperm⟩ := Sends.wire_of_allDone hs h hrun hdone
  have hrun' := Sends.wire_of_run hs (Sends.conserves_start h) hrun
  rw [Sends.start, List.nil_append, List.map_map] at hrun'
  have hsegments : segments = handedOver payloads schedule :=
    List.map_injective_iff.2 MessageSegment.encode_injective (hwire.symm.trans hrun')
  exact ⟨hrun', hsegments ▸ hperm⟩

/-- **Sends at the same time are delivered exactly when the schedule keeps them apart**: it hands
over the segments as if the payloads were sent one after the other. -/
theorem sends_delivered_iff {Channel : Type} (b b' : Build) (session : Session Channel)
    (hs : session.Ready) (payloads : List Bytes) (hne : ∀ data ∈ payloads, data ≠ [])
    (hsplit : ∀ data ∈ payloads, ∃ segments,
      Message.split_into_segments b data = some (.ok segments))
    (schedule : List ℕ) (s : Sends)
    (hrun : Transition.run (Sends.step b session) (Sends.start payloads) schedule = some s)
    (hdone : s.AllDone) :
    DeliversEach b' s.wire payloads ↔ OneByOne payloads schedule := by
  have hlim : ∀ data ∈ payloads, data.length ≤ 255 * MAX_MESSAGE_SIZE := fun data hd =>
    (Message.split_ok_iff.1 (hsplit data hd).choose_spec).1
  obtain ⟨hwire, hsegments⟩ := wire_of_complete hs hlim hrun hdone
  constructor
  · rintro ⟨r, replies, hr, hperm⟩
    have horigin : ∀ segment ∈ handedOver payloads schedule, ∃ data ∈ payloads,
        segment ∈ Message.segmentsOf data :=
      fun segment hmem => List.mem_flatMap.1 (hsegments.mem_iff.1 hmem)
    have hfull : ∀ segment ∈ handedOver payloads schedule, Message.Full segment :=
      fun segment hmem => by
        obtain ⟨data, hd, hmem⟩ := horigin segment hmem
        exact Message.full_of_mem_segmentsOf (hne data hd) segment hmem
    have h254 : ∀ segment ∈ handedOver payloads schedule, segment.count ≤ 254 :=
      fun segment hmem => by
        obtain ⟨data, hd, hmem⟩ := horigin segment hmem
        exact Message.count_le_of_mem_segmentsOf (hlim data hd) segment hmem
    obtain ⟨a, replies', ha⟩ := Assembly.assemble_run_isSome none (handedOver payloads schedule)
    have hread := Receiver.run_on_message_encode b'
      (fun segment hmem => (hfull segment hmem).ne_nil) (run_add_segment_of_run b' h254 ha) []
    rw [hwire] at hr
    obtain ⟨hr, -⟩ := Prod.mk.inj (Option.some.inj (hread.symm.trans hr))
    have hpackets : Receiver.delivered replies' = r.packets := by rw [← hr, List.nil_append]
    -- as many bytes are delivered as were sent, so none was lost on the way
    have hbytes : (payload (handedOver payloads schedule)).length ≤
        (Receiver.delivered replies').flatten.length := by
      have hsent := ((hsegments.map (·.data)).flatten).length_eq
      have hgot := (hpackets ▸ hperm).flatten.length_eq
      rw [← payload, ← payload, Message.payload_flatMap_segmentsOf] at hsent
      exact Nat.le_of_eq (hsent.trans hgot.symm)
    exact ⟨Receiver.delivered replies', hpackets ▸ hperm, messages_of_conserved hfull ha hbytes⟩
  · rintro ⟨order, hperm, horder⟩
    obtain ⟨replies, hr, -⟩ := run_on_message_framesOf b'
      (fun data (hd : data ∈ order) => hne data (hperm.mem_iff.1 hd))
      (fun data hd => hlim data (hperm.mem_iff.1 hd)) []
    refine ⟨⟨Message.new, order⟩, replies, ?_, hperm⟩
    rw [hwire, horder, List.map_flatMap]
    exact hr

/-- A payload of two segments, and a short one that is sent after the first has been split and
before its first segment: the peer delivers both. -/
theorem sends_delivered_nested :
    ∃ s, Transition.run (Sends.step .debug (⟨false, some ()⟩ : Session Unit))
        (Sends.start [Message.fullPart ++ [1], [7]]) [0, 1, 1, 1, 0, 0, 0] = some s ∧ s.AllDone ∧
      DeliversEach .release s.wire [Message.fullPart ++ [1], [7]] := by
  have hs : (⟨false, some ()⟩ : Session Unit).Ready := ⟨rfl, rfl⟩
  have hpart := Message.length_fullPart
  generalize Message.fullPart = part at hpart
  have hlong := Message.split_into_segments_append .debug hpart
  have hshort : Message.split_into_segments .debug [7] = some (.ok [⟨0, [7]⟩]) := rfl
  have hrun : Transition.run (Sends.step .debug (⟨false, some ()⟩ : Session Unit))
      (Sends.start [part ++ [1], [7]]) [0, 1, 1, 1, 0, 0, 0] =
        some ⟨[.done (.ok ()), .done (.ok ())], [[0, 7], 1 :: part, [0, 1]]⟩ := by
    rw [Sends.run_start_two hs hlong hshort]
    rfl
  have hdone : Sends.AllDone ⟨[.done (.ok ()), .done (.ok ())], [[0, 7], 1 :: part, [0, 1]]⟩ := by
    simp [Sends.AllDone]
  refine ⟨_, hrun, hdone, (sends_delivered_iff .debug .release _ hs _ (by simp)
    (by simp [hlong, hshort]) _ _ hrun hdone).2 ⟨[[7], part ++ [1]], .swap .., ?_⟩⟩
  obtain ⟨-, hsegments⟩ := Message.split_ok_iff.1 hlong
  obtain ⟨-, hsegment⟩ := Message.split_ok_iff.1 hshort
  simp only [handedOver, List.map_cons, List.map_nil, Call.handovers, List.flatMap_cons,
    ← hsegments, ← hsegment]
  rfl

/-- The accumulator on the two segments of one payload with a one-segment payload between them. -/
theorem run_add_segment_mixed (b : Build) (part data rest : Bytes) :
    Mealy.run (Message.add_segment b) Message.new [⟨1, part⟩, ⟨0, data⟩, ⟨0, rest⟩] =
      some (Message.new, [.ok none, .ok (some (part ++ data)), .ok (some rest)]) := by
  cases b <;>
    simp [Mealy.run, Message.add_segment, Build.add, Build.sub, Message.append, Message.new]

/-- A payload of two segments, and one of a single segment handed over between them: the peer
delivers the first segment with the short payload, and then the second segment alone. -/
theorem sends_mixed :
    (∀ data ∈ [Message.fullPart ++ [1], [7]], data ≠ [] ∧ ∃ segments,
      Message.split_into_segments .release data = some (.ok segments)) ∧
    ∃ s, Transition.run (Sends.step .release (⟨false, some ()⟩ : Session Unit))
        (Sends.start [Message.fullPart ++ [1], [7]]) [0, 1, 0, 1, 0, 0, 1] = some s ∧ s.AllDone ∧
      ¬ DeliversEach .release s.wire [Message.fullPart ++ [1], [7]] := by
  have hs : (⟨false, some ()⟩ : Session Unit).Ready := ⟨rfl, rfl⟩
  have hpart := Message.length_fullPart
  generalize Message.fullPart = part at hpart
  have hlong := Message.split_into_segments_append .release hpart
  have hnil : part ≠ [] := List.ne_nil_of_length_pos (by rw [hpart]; decide)
  have hshort : Message.split_into_segments .release [7] = some (.ok [⟨0, [7]⟩]) := rfl
  refine ⟨by simp [hlong, hshort], ⟨[.done (.ok ()), .done (.ok ())],
    [1 :: part, [0, 7], [0, 1]]⟩, ?_, ?_, ?_⟩
  · rw [Sends.run_start_two hs hlong hshort]
    rfl
  · simp [Sends.AllDone]
  · rintro ⟨r, replies, hr, hperm⟩
    have hne : ∀ segment ∈ ([⟨1, part⟩, ⟨0, [7]⟩, ⟨0, [1]⟩] : List MessageSegment),
        segment.data ≠ [] := by simp [hnil]
    have hread := Receiver.run_on_message_encode .release hne
      (run_add_segment_mixed .release part [7] [1]) []
    obtain ⟨rfl, -⟩ := Prod.mk.inj (Option.some.inj (hread.symm.trans hr))
    have hmem : [7] ∈ [part ++ [7], [1]] := hperm.mem_iff.2 (by simp)
    simp [hnil] at hmem

end Nethernet
