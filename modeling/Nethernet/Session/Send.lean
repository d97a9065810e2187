import Nethernet.Protocol.Segments
import Nethernet.Session.Receive

/-!
# The sending end of a session

`Session::send` (`src/session/mod.rs`): the payload is split, and the segments are handed to the
reliable channel one after the other. A channel is the list of answers `channel.send` gives to the
frames of one call; where it fails or the future is dropped the rest is never sent.

`send_delivers`: payloads sent one after the other over a channel that takes every frame reach the
packet queue of the peer, each once, whole and in order.
-/

namespace Nethernet

open Foundations

/-- What becomes of one `channel.send`. -/
inductive Answer
  /-- The channel takes the frame. -/
  | sent
  /-- The channel returns an error. -/
  | failed (error : String)
  /-- The future is dropped while it waits for the channel. -/
  | dropped
  deriving DecidableEq, Repr

/-- The frames a call of `send` handed to the channel, and what it returned, `none` when the future
was dropped. -/
structure Sent where
  frames : List Bytes
  result : Option (Except NethernetError Unit)
  deriving Repr

/-- The part of a session that `send` reads; `Channel` is the type of the data channels. -/
structure Session (Channel : Type) where
  closed : Bool
  reliable_channel : Option Channel

namespace Session

variable {Channel : Type}

/-- The segment loop of `send`, the channel answering `channel 0`, `channel 1`, … -/
def sendSegments (channel : ℕ → Answer) : List MessageSegment → Sent
  | [] => ⟨[], some (.ok ())⟩
  | segment :: segments =>
    match channel 0 with
    | .sent =>
      let sent := sendSegments (fun i => channel (i + 1)) segments
      ⟨segment.encode :: sent.frames, sent.result⟩
    | .failed error => ⟨[], some (.error (.DataChannel error))⟩
    | .dropped => ⟨[], none⟩

/-- Send a payload over the reliable channel. -/
def send (b : Build) (s : Session Channel) (data : Bytes) (channel : ℕ → Answer) : Option Sent :=
  if s.closed then some ⟨[], some (.error .ConnectionClosed)⟩
  else match s.reliable_channel with
    | none => some ⟨[], some (.error (.DataChannel "Reliable channel not set"))⟩
    | some _ =>
      (Message.split_into_segments b data).map fun split =>
        match split with
        | .error e => ⟨[], some (.error e)⟩
        | .ok segments => sendSegments channel segments

/-- A session whose `send` gets to the channel. -/
structure Ready (s : Session Channel) : Prop where
  open_ : s.closed = false
  channel_set : s.reliable_channel.isSome

/-- A channel that takes every frame. -/
def reliable : ℕ → Answer := fun _ => .sent

/-- How many of the first `n` frames a channel takes before it fails or the future is dropped. -/
def sent_count : (ℕ → Answer) → ℕ → ℕ
  | _, 0 => 0
  | channel, n + 1 =>
    match channel 0 with
    | .sent => sent_count (fun i => channel (i + 1)) n + 1
    | _ => 0

theorem sent_count_le (channel : ℕ → Answer) (n : ℕ) : sent_count channel n ≤ n := by
  induction n generalizing channel with
  | zero => exact Nat.le_refl 0
  | succ n ih =>
    rw [sent_count]
    split
    · exact Nat.succ_le_succ (ih _)
    · omega

@[simp] theorem sent_count_reliable (n : ℕ) : sent_count reliable n = n := by
  induction n with
  | zero => rfl
  | succ n ih => exact congrArg (· + 1) ih

/-- **The loop hands over the segments in order**, as many as the channel takes, and returns `Ok`
exactly when it took them all. -/
theorem sendSegments_eq (channel : ℕ → Answer) (segments : List MessageSegment) :
    (sendSegments channel segments).frames =
        (segments.take (sent_count channel segments.length)).map (·.encode) ∧
      ((sendSegments channel segments).result = some (.ok ()) ↔
        sent_count channel segments.length = segments.length) := by
  induction segments generalizing channel with
  | nil => simp [sendSegments, sent_count]
  | cons segment segments ih =>
    rw [sendSegments, List.length_cons, sent_count]
    obtain ⟨hframes, hresult⟩ := ih fun i => channel (i + 1)
    cases hc : channel 0 with
    | sent =>
      simp only [hframes, hresult, List.take_succ_cons, List.map_cons, Nat.add_right_cancel_iff,
        and_self]
    | failed error => simp
    | dropped => simp

/-- What a call does once the payload is known to be within the limit. -/
theorem send_eq_of_le (b : Build) {s : Session Channel} (hs : s.Ready) {data : Bytes}
    (h : data.length ≤ 255 * MAX_MESSAGE_SIZE) (channel : ℕ → Answer) :
    s.send b data channel = some (sendSegments channel (Message.segmentsOf data)) := by
  obtain ⟨_, hc⟩ := Option.isSome_iff_exists.1 hs.channel_set
  have hlim : ¬ 255 * MAX_MESSAGE_SIZE < data.length := by omega
  simp only [send, hs.open_, hc, Message.split_into_segments_eq, if_neg hlim, Option.map_some,
    Bool.false_eq_true, if_false]

/-- A payload above the limit is refused before any frame. -/
theorem send_eq_of_lt (b : Build) {s : Session Channel} (hs : s.Ready) {data : Bytes}
    (h : 255 * MAX_MESSAGE_SIZE < data.length) (channel : ℕ → Answer) :
    s.send b data channel = some ⟨[], some (.error (.MessageTooLarge data.length))⟩ := by
  obtain ⟨_, hc⟩ := Option.isSome_iff_exists.1 hs.channel_set
  simp only [send, hs.open_, hc, Message.split_into_segments_eq, if_pos h, Option.map_some,
    Bool.false_eq_true, if_false]

theorem send_reliable (b : Build) {s : Session Channel} (hs : s.Ready) {data : Bytes}
    (h : data.length ≤ 255 * MAX_MESSAGE_SIZE) :
    s.send b data reliable =
      some ⟨(Message.segmentsOf data).map (·.encode), some (.ok ())⟩ := by
  obtain ⟨hframes, hresult⟩ := sendSegments_eq reliable (Message.segmentsOf data)
  rw [sent_count_reliable, List.take_length] at hframes
  rw [send_eq_of_le b hs h]
  congr 1
  rw [← hframes, ← hresult.2 (sent_count_reliable _)]

end Session

/-! ## Frames at the peer -/

namespace Receiver

/-- The messages that a list of replies completes. -/
def delivered (replies : List Message.Reply) : List Bytes := replies.flatMap completed

@[simp] theorem delivered_nil : delivered [] = [] := rfl

@[simp] theorem delivered_cons (reply : Message.Reply) (replies : List Message.Reply) :
    delivered (reply :: replies) = completed reply ++ delivered replies := rfl

@[simp] theorem delivered_singleton (reply : Message.Reply) :
    delivered [reply] = completed reply := List.flatMap_singleton completed reply

@[simp] theorem delivered_append (replies replies' : List Message.Reply) :
    delivered (replies ++ replies') = delivered replies ++ delivered replies' :=
  List.flatMap_append

@[simp] theorem delivered_replicate (n : ℕ) :
    delivered (List.replicate n (.ok none)) = [] := by
  induction n with
  | zero => rfl
  | succ n ih => rw [List.replicate_succ, delivered_cons, ih]; rfl

/-- **Nonempty segments reach the accumulator**: the handler answers their frames as `add_segment`
answers the segments, and queues what it completes. -/
theorem run_on_message_encode (b : Build) {segments : List MessageSegment}
    (hne : ∀ segment ∈ segments, segment.data ≠ []) {m m' : Message} {replies : List Message.Reply}
    (h : Mealy.run (Message.add_segment b) m segments = some (m', replies)) (packets : List Bytes) :
    Mealy.run (on_message b) ⟨m, packets⟩ (segments.map (·.encode)) =
      some (⟨m', packets ++ delivered replies⟩, replies) := by
  induction segments generalizing m packets replies with
  | nil =>
    obtain ⟨rfl, rfl⟩ := Prod.mk.inj (Option.some.inj h)
    simp
  | cons segment segments ih =>
    obtain ⟨u, reply, replies', hs, hr, rfl⟩ := Mealy.run_cons_eq_some.1 h
    have hd := MessageSegment.decode_encode (hne segment (by simp))
    have hstep := on_message_of_decode (r := ⟨m, packets⟩) hd hs
    have hrest := ih (fun segment' hs' => hne segment' (by simp [hs'])) hr
      (packets ++ completed reply)
    rw [List.append_assoc] at hrest
    exact Mealy.run_cons_eq_some.2 ⟨_, reply, replies', hstep, hrest, rfl⟩

/-- **The frames of a payload**, read between messages: the payload is queued, and the accumulator
is new again. -/
theorem run_on_message_segmentsOf (b : Build) {data : Bytes} (hne : data ≠ [])
    (h : data.length ≤ 255 * MAX_MESSAGE_SIZE) (packets : List Bytes) :
    Mealy.run (on_message b) ⟨Message.new, packets⟩ ((Message.segmentsOf data).map (·.encode)) =
      some (⟨Message.new, packets ++ [data]⟩,
        List.replicate ((Message.segmentsOf data).length - 1) (.ok none) ++ [.ok (some data)]) := by
  have hrun := run_on_message_encode b
    (fun segment hs => (Message.full_of_mem_segmentsOf hne segment hs).ne_nil)
    (Message.run_add_segment_segmentsOf b h) packets
  rw [delivered_append, delivered_replicate] at hrun
  exact hrun

end Receiver

/-! ## Sends one after the other -/

open Receiver

/-- Send payloads one after the other over a channel that takes every frame. -/
def sendAll {Channel : Type} (b : Build) (s : Session Channel) (payloads : List Bytes) :
    Option (List Sent) :=
  payloads.mapM fun data => s.send b data Session.reliable

/-- The frames of payloads sent one after the other. -/
def framesOf (payloads : List Bytes) : List Bytes :=
  payloads.flatMap fun data => (Message.segmentsOf data).map (·.encode)

theorem sendAll_eq {Channel : Type} (b : Build) {s : Session Channel} (hs : s.Ready)
    {payloads : List Bytes} (h : ∀ data ∈ payloads, data.length ≤ 255 * MAX_MESSAGE_SIZE) :
    ∃ sents, sendAll b s payloads = some sents ∧ (∀ sent ∈ sents, sent.result = some (.ok ())) ∧
      sents.map (·.frames) = payloads.map fun data => (Message.segmentsOf data).map (·.encode) := by
  induction payloads with
  | nil => exact ⟨[], rfl, by simp, rfl⟩
  | cons data payloads ih =>
    obtain ⟨sents, hsents, hok, hframes⟩ := ih fun d hd => h d (by simp [hd])
    have hsend := Session.send_reliable b hs (h data (by simp))
    refine ⟨⟨(Message.segmentsOf data).map (·.encode), some (.ok ())⟩ :: sents, ?_, ?_, ?_⟩
    · rw [sendAll] at hsents ⊢
      rw [List.mapM_cons, hsend, hsents]
      rfl
    · simpa using hok
    · rw [List.map_cons, List.map_cons, hframes]

/-- The frames of payloads sent one after the other, read by the peer. -/
theorem run_on_message_framesOf (b : Build) {payloads : List Bytes}
    (hne : ∀ data ∈ payloads, data ≠ [])
    (h : ∀ data ∈ payloads, data.length ≤ 255 * MAX_MESSAGE_SIZE) (packets : List Bytes) :
    ∃ replies, Mealy.run (on_message b) ⟨Message.new, packets⟩ (framesOf payloads) =
        some (⟨Message.new, packets ++ payloads⟩, replies) ∧
      ∀ reply ∈ replies, ∃ d, reply = .ok d := by
  induction payloads generalizing packets with
  | nil => exact ⟨[], by simp [framesOf], by simp⟩
  | cons data payloads ih =>
    have hfirst := run_on_message_segmentsOf b (hne data (by simp)) (h data (by simp)) packets
    obtain ⟨replies, hrest, hok⟩ := ih (fun d hd => hne d (by simp [hd]))
      (fun d hd => h d (by simp [hd])) (packets ++ [data])
    rw [List.append_assoc] at hrest
    refine ⟨_, Mealy.run_append_of hfirst hrest, fun reply hreply => ?_⟩
    rcases List.mem_append.1 hreply with hreply | hreply
    · rcases List.mem_append.1 hreply with hreply | hreply
      · exact ⟨none, List.eq_of_mem_replicate hreply⟩
      · exact ⟨some data, List.mem_singleton.1 hreply⟩
    · exact hok reply hreply

/-- **Payloads sent one after the other are delivered**, each once, whole and in order: every send
returns `Ok`, no frame is rejected, and after each message the accumulator is new. -/
theorem send_delivers {Channel : Type} (b b' : Build) (s : Session Channel) (hs : s.Ready)
    (payloads : List Bytes) (hne : ∀ data ∈ payloads, data ≠ [])
    (hsplit : ∀ data ∈ payloads, ∃ segments,
      Message.split_into_segments b data = some (.ok segments)) :
    ∃ sents, sendAll b s payloads = some sents ∧ (∀ sent ∈ sents, sent.result = some (.ok ())) ∧
      (∃ replies, Mealy.run (on_message b') Receiver.new (sents.flatMap (·.frames)) =
          some (⟨Message.new, payloads⟩, replies) ∧ ∀ reply ∈ replies, ∃ d, reply = .ok d) ∧
      ∀ i ≤ payloads.length, ∃ replies,
        Mealy.run (on_message b') Receiver.new ((sents.take i).flatMap (·.frames)) =
          some (⟨Message.new, payloads.take i⟩, replies) := by
  have hlim : ∀ data ∈ payloads, data.length ≤ 255 * MAX_MESSAGE_SIZE := fun data hd =>
    (Message.split_ok_iff.1 (hsplit data hd).choose_spec).1
  obtain ⟨sents, hsents, hok, hframes⟩ := sendAll_eq b hs hlim
  have htake : ∀ i, (sents.take i).flatMap (·.frames) = framesOf (payloads.take i) := fun i => by
    rw [List.flatMap_def, List.map_take, hframes, framesOf, List.flatMap_def, List.map_take]
  have hrun : ∀ i, ∃ replies,
      Mealy.run (on_message b') Receiver.new ((sents.take i).flatMap (·.frames)) =
        some (⟨Message.new, payloads.take i⟩, replies) ∧ ∀ reply ∈ replies, ∃ d, reply = .ok d := by
    intro i
    rw [htake]
    have hne' : ∀ data ∈ payloads.take i, data ≠ [] :=
      fun data hd => hne data (List.mem_of_mem_take hd)
    exact run_on_message_framesOf b' hne' (fun data hd => hlim data (List.mem_of_mem_take hd)) []
  refine ⟨sents, hsents, hok, ?_, fun i _ => ?_⟩
  · have hlen : sents.length = payloads.length := by
      have := congrArg List.length hframes
      rwa [List.length_map, List.length_map] at this
    have := hrun payloads.length
    rwa [List.take_length, ← hlen, List.take_length] at this
  · obtain ⟨replies, hreplies, -⟩ := hrun i
    exact ⟨replies, hreplies⟩

/-- A payload of two segments, and one of a single segment. -/
theorem send_delivers_two :
    ∃ sents, sendAll .debug (⟨false, some ()⟩ : Session Unit) [Message.fullPart ++ [1], [3]] =
        some sents ∧ (∀ sent ∈ sents, sent.result = some (.ok ())) ∧
      (∃ replies, Mealy.run (on_message .release) Receiver.new (sents.flatMap (·.frames)) =
          some (⟨Message.new, [Message.fullPart ++ [1], [3]]⟩, replies) ∧
        ∀ reply ∈ replies, ∃ d, reply = .ok d) ∧
      ∀ i ≤ 2, ∃ replies,
        Mealy.run (on_message .release) Receiver.new ((sents.take i).flatMap (·.frames)) =
          some (⟨Message.new, [Message.fullPart ++ [1], [3]].take i⟩, replies) := by
  have hlong := Message.split_into_segments_append .debug Message.length_fullPart
  have hshort : Message.split_into_segments .debug [3] = some (.ok [⟨0, [3]⟩]) := rfl
  exact send_delivers .debug .release (⟨false, some ()⟩ : Session Unit) ⟨rfl, rfl⟩
    [Message.fullPart ++ [1], [3]] (by simp) (by simp [hlong, hshort])

end Nethernet
