import Nethernet.Session.Conservation

/-!
# Sends that stop half-way

`Session::send` calls one after the other, any of which may stop before its last segment. The peer
keeps the segments it has, and tells only from the counts whether a segment goes on with them.

`leftover` is the number of segments the peer still expects after an attempt, and
`abandoned_iff` says when the messages survive: exactly while no send completes that finds the peer
in the middle of an abandoned message.
-/

namespace Nethernet

open Foundations Receiver

/-! ## A part of a payload, read by the peer -/

namespace Message

/-- The first segments of a payload count down to the number of the others. -/
theorem counts_take_segmentsOf {data : Bytes} (h : data.length ≤ 255 * MAX_MESSAGE_SIZE) {k : ℕ}
    (hk : k ≤ (segmentsOf data).length) :
    counts ((segmentsOf data).take k) = countdown ((segmentsOf data).length - k) k := by
  have hcounts := counts_segmentsOf h
  rw [← List.take_append_drop k (segmentsOf data), counts, List.map_append, List.take_append_drop,
    ← Nat.add_sub_cancel' hk, countdown_add, Nat.zero_add] at hcounts
  refine (List.append_inj hcounts ?_).1
  rw [List.length_map, List.length_take, length_countdown, Nat.min_eq_left hk]

end Message

namespace Assembly

/-- The segments of the open run have been read, or were in it before. -/
theorem segments_subset {a a' : Assembly} {segments : List MessageSegment}
    {replies : List Message.Reply} (h : Mealy.run assemble a segments = some (a', replies)) :
    ∀ segment ∈ a'.segments, segment ∈ a.segments ∨ segment ∈ segments := by
  have hstep : ∀ hist (u : Assembly) segment u' reply,
      (∀ s ∈ u.segments, s ∈ a.segments ∨ s ∈ hist) → assemble u segment = some (u', reply) →
        ∀ s ∈ u'.segments, s ∈ a.segments ∨ s ∈ hist ++ [segment] := by
    intro hist u segment u' reply hu hs s hmem
    rcases assemble_cases hs with ⟨-, -, rfl, -⟩ | ⟨-, -, -, hkeep, -⟩ | ⟨-, -, rfl, -⟩
    · cases hmem
    · rw [hkeep] at hmem
      rcases List.mem_append.1 hmem with hmem | hmem
      · exact (hu s hmem).imp id (List.mem_append_left _)
      · exact .inr (List.mem_append_right _ hmem)
    · cases hmem
  exact Mealy.run_history
    (P := fun hist (u : Assembly) => ∀ s ∈ u.segments, s ∈ a.segments ∨ s ∈ hist) hstep
    (fun s (hs : s ∈ a.segments) => .inl hs : ∀ s ∈ a.segments, s ∈ a.segments ∨ s ∈ []) h

/-- **A countdown to `e` that goes on with the open run**, or starts one: `e` segments are left, and
the message is delivered if there are none. -/
theorem run_assemble_part {a : Assembly} {segments : List MessageSegment} (hne : segments ≠ [])
    {e : ℕ} (h : counts segments = countdown e segments.length)
    (hfits : a.left = 0 ∨ a.left = e + segments.length) :
    ∃ a' replies, Mealy.run assemble a segments = some (a', replies) ∧ a'.left = e ∧
      delivered replies = if e = 0 then [payload (a.segments ++ segments)] else [] := by
  rcases Nat.eq_zero_or_pos e with rfl | he
  · obtain ⟨init, last, rfl⟩ := (List.eq_nil_or_concat' _).resolve_left hne
    rw [List.length_append, List.length_singleton, Nat.zero_add] at hfits
    exact ⟨none, _, run_assemble_block h hfits, rfl, by simp⟩
  · obtain ⟨run, -, hleft, hrun⟩ := run_assemble_countdown hne he h hfits
    exact ⟨some run, _, hrun, hleft, by simp [Nat.ne_of_gt he]⟩

/-- A segment that does not go on with the open run drops it. -/
theorem assemble_reject {a : Assembly} {segment : MessageSegment} (hopen : a.left ≠ 0)
    (hne : a.left ≠ segment.count + 1) : ∃ e, assemble a segment = some (none, .error e) := by
  obtain ⟨a', reply, hs⟩ := assemble_isSome a segment
  obtain ⟨e, rfl⟩ := (assemble_error_iff hs).2 ⟨hopen, hne⟩
  exact ⟨e, by rw [hs, assemble_error_state hs]⟩

end Assembly

/-! ## What is left after an attempt -/

/-- How many segments the peer expects after the first `k` of the `n` segments of a payload, if it
expected `e` before. -/
def leftover (e n k : ℕ) : ℕ :=
  if k = 0 then e
  else if e = 0 ∨ e = n then n - k
  else if k = 1 then 0
  else n - k

theorem payload_ne_nil {segments : List MessageSegment} (hne : segments ≠ [])
    (h : ∀ segment ∈ segments, segment.data ≠ []) : payload segments ≠ [] := by
  obtain ⟨segment, rest, rfl⟩ := List.exists_cons_of_ne_nil hne
  simpa using fun h0 => absurd h0 (h segment (by simp))

/-- What the first `k` segments of a payload do to a peer with open run `a`: what is left of the
count, and what is delivered. -/
structure Leaves (a : Assembly) (data : Bytes) (k : ℕ) (a' : Assembly)
    (replies : List Message.Reply) : Prop where
  left : a'.left = leftover a.left (Message.segmentsOf data).length k
  part : k < (Message.segmentsOf data).length → delivered replies = []
  whole : k = (Message.segmentsOf data).length → a.left = 0 → delivered replies = [data]
  mixed : a.left ≠ 0 → delivered replies ≠ [data]

/-- Segments that go on with what the peer has. -/
theorem run_assemble_take_of_fits {a : Assembly} (ha : ∀ segment ∈ a.segments, segment.data ≠ [])
    {data : Bytes} (hlim : data.length ≤ 255 * MAX_MESSAGE_SIZE) {k : ℕ}
    (hkpos : 0 < k) (hk : k ≤ (Message.segmentsOf data).length)
    (hfits : a.left = 0 ∨ a.left = (Message.segmentsOf data).length) :
    ∃ a' replies,
      Mealy.run Assembly.assemble a ((Message.segmentsOf data).take k) = some (a', replies) ∧
        Leaves a data k a' replies := by
  have hlen : ((Message.segmentsOf data).take k).length = k := by
    rw [List.length_take, Nat.min_eq_left hk]
  obtain ⟨a', replies, hrun, hleft, hdel⟩ := Assembly.run_assemble_part (a := a)
    (List.ne_nil_of_length_pos (by rw [hlen]; exact hkpos))
    (by rw [hlen]; exact Message.counts_take_segmentsOf hlim hk)
    (by rw [hlen, Nat.sub_add_cancel hk]; exact hfits)
  refine ⟨a', replies, hrun, ?_, fun hlt => ?_, fun heq h0 => ?_, fun h0 => ?_⟩
  · rw [hleft, leftover, if_neg (Nat.ne_of_gt hkpos), if_pos hfits]
  · rw [hdel, if_neg (by omega)]
  · rw [hdel, if_pos (by omega), heq, List.take_length, Assembly.left_eq_zero.1 h0,
      Assembly.segments_none, List.nil_append, Message.payload_segmentsOf]
  · -- the message delivered, if any, starts with the bytes the peer had
    rw [hdel]
    split
    · rename_i hall
      have hopen : payload a.segments ≠ [] :=
        payload_ne_nil (fun h => h0 (Assembly.left_eq_zero.2 (Assembly.segments_eq_nil.1 h))) ha
      · rw [show k = (Message.segmentsOf data).length by omega, List.take_length, payload_append,
          Message.payload_segmentsOf]
        simpa using hopen
    · simp

/-- Segments that do not go on with what the peer has: the first one and the open run are lost. -/
theorem run_assemble_take_of_not_fits {a : Assembly} {data : Bytes} (hne : data ≠ [])
    (hlim : data.length ≤ 255 * MAX_MESSAGE_SIZE) {k : ℕ} (hkpos : 0 < k)
    (hk : k ≤ (Message.segmentsOf data).length)
    (hfits : ¬ (a.left = 0 ∨ a.left = (Message.segmentsOf data).length)) :
    ∃ a' replies,
      Mealy.run Assembly.assemble a ((Message.segmentsOf data).take k) = some (a', replies) ∧
        Leaves a data k a' replies := by
  obtain ⟨j, rfl⟩ := Nat.exists_eq_succ_of_ne_zero (Nat.ne_of_gt hkpos)
  obtain ⟨first, rest, hsegs⟩ := List.exists_cons_of_ne_nil (Message.segmentsOf_ne_nil data)
  have hcounts := Message.counts_take_segmentsOf hlim hk
  have hfirst := (Message.full_of_mem_segmentsOf hne first (by simp [hsegs])).ne_nil
  have hpayload := Message.payload_segmentsOf data
  rw [hsegs, List.take_succ_cons, counts_cons, Nat.succ_eq_add_one, countdown_succ] at hcounts
  obtain ⟨hcount, hrest⟩ := List.cons.inj hcounts
  rw [hsegs] at hk hfits hpayload
  rw [List.length_cons] at hcount hk hfits hrest
  rw [not_or] at hfits
  obtain ⟨e, hreject⟩ := Assembly.assemble_reject hfits.1 (show a.left ≠ first.count + 1 by omega)
  have hlen : (rest.take j).length = j := by rw [List.length_take]; omega
  have hsize := congrArg List.length hpayload
  rw [payload_cons, List.length_append] at hsize
  have hpos := List.length_pos_iff.2 hfirst
  have hleft : leftover a.left (first :: rest).length (j + 1) =
      if j = 0 then 0 else rest.length - j := by
    rw [leftover, if_neg (Nat.succ_ne_zero j), List.length_cons, if_neg (by omega)]
    simp only [Nat.add_eq_right, Nat.add_sub_add_right]
  rw [hsegs, List.take_succ_cons]
  rcases Nat.eq_zero_or_pos j with rfl | hj
  · refine ⟨none, _, Mealy.run_of_step hreject, ?_, fun _ => rfl, fun _ h0 => absurd h0 hfits.1,
      fun _ => by simp⟩
    rw [hsegs, hleft, if_pos rfl]
    rfl
  · obtain ⟨a', replies, hrun, hleft', hdel⟩ := Assembly.run_assemble_part (a := none)
      (List.ne_nil_of_length_pos (by rw [hlen]; exact hj)) (by rw [hlen]; exact hrest)
      (.inl Assembly.left_none)
    refine ⟨a', .error e :: replies,
      Mealy.run_cons_eq_some.2 ⟨none, _, replies, hreject, hrun, rfl⟩, ?_, fun hlt => ?_,
      fun _ h0 => absurd h0 hfits.1, fun _ => ?_⟩
    · rw [hsegs, hleft, if_neg (Nat.ne_of_gt hj), hleft', Nat.add_sub_add_right]
    · rw [hsegs, List.length_cons] at hlt
      rw [delivered_cons, completed_error, hdel, if_neg (by omega), List.nil_append]
    · rw [delivered_cons, completed_error, hdel, List.nil_append, Assembly.segments_none,
        List.nil_append]
      split
      · -- the message delivered, if any, lacks the first segment
        rename_i hall
        rw [show j = rest.length by omega, List.take_length]
        intro he
        have := congrArg List.length (List.singleton_inj.1 he)
        omega
      · simp

/-- **The first segments of a payload, read by the peer.** -/
theorem run_assemble_take {a : Assembly} (ha : ∀ segment ∈ a.segments, segment.data ≠ [])
    {data : Bytes} (hne : data ≠ []) (hlim : data.length ≤ 255 * MAX_MESSAGE_SIZE) {k : ℕ}
    (hk : k ≤ (Message.segmentsOf data).length) :
    ∃ a' replies,
      Mealy.run Assembly.assemble a ((Message.segmentsOf data).take k) = some (a', replies) ∧
        Leaves a data k a' replies := by
  rcases Nat.eq_zero_or_pos k with rfl | hkpos
  · have hpos := List.length_pos_iff.2 (Message.segmentsOf_ne_nil data)
    exact ⟨a, [], rfl, by rw [leftover, if_pos rfl], fun _ => rfl, fun h => absurd h (by omega),
      fun _ => by simp⟩
  · by_cases hfits : a.left = 0 ∨ a.left = (Message.segmentsOf data).length
    · exact run_assemble_take_of_fits ha hlim hkpos hk hfits
    · exact run_assemble_take_of_not_fits hne hlim hkpos hk hfits

/-! ## Attempts one after the other -/

/-- A call of `send`: its payload, and how the channel answers its frames. -/
structure Attempt where
  data : Bytes
  channel : ℕ → Answer

namespace Attempt

/-- The number of segments of the payload. -/
def segment_count (attempt : Attempt) : ℕ := (Message.segmentsOf attempt.data).length

/-- The number of frames that the channel takes. -/
def frame_count (attempt : Attempt) : ℕ := Session.sent_count attempt.channel attempt.segment_count

/-- The payload is within the limit, and the channel takes every frame. -/
def Completes (attempt : Attempt) : Prop :=
  attempt.data.length ≤ 255 * MAX_MESSAGE_SIZE ∧ attempt.frame_count = attempt.segment_count

/-- How many segments the peer expects after the attempt, if it expected `e` before. An empty
payload makes no segment, and one above the limit no frame. -/
def leaves (e : ℕ) (attempt : Attempt) : ℕ :=
  if attempt.data ≠ [] ∧ attempt.data.length ≤ 255 * MAX_MESSAGE_SIZE then
    leftover e attempt.segment_count attempt.frame_count
  else e

end Attempt

/-- No attempt with a payload completes while the peer expects the rest of another, given that it
expects `e` segments at first. -/
def Settled : ℕ → List Attempt → Prop
  | _, [] => True
  | e, attempt :: attempts =>
    (attempt.Completes → attempt.data ≠ [] → e = 0) ∧ Settled (attempt.leaves e) attempts

/-- One call of `send`, and the peer reading the frames that the channel took. -/
def exchange {Channel : Type} (b b' : Build) (session : Session Channel) :
    Mealy Receiver Attempt (Sent × List Message.Reply) := fun r attempt =>
  (session.send b attempt.data attempt.channel).bind fun sent =>
    (Mealy.run (on_message b') r sent.frames).map fun p => (p.1, sent, p.2)

/-- Frames that carry no byte are not segments: the peer ignores them. -/
theorem run_on_message_empty (b : Build) (r : Receiver) {segments : List MessageSegment}
    (h : ∀ segment ∈ segments, segment.data = []) :
    ∃ replies, Mealy.run (on_message b) r (segments.map (·.encode)) = some (r, replies) ∧
      delivered replies = [] := by
  induction segments with
  | nil => exact ⟨[], rfl, rfl⟩
  | cons segment segments ih =>
    obtain ⟨remaining, data⟩ := segment
    obtain rfl : data = [] := h _ List.mem_cons_self
    obtain ⟨replies, hrun, hnone⟩ := ih fun s hs => h s (by simp [hs])
    exact ⟨_, Mealy.run_cons_eq_some.2 ⟨r, _, replies, rfl, hrun, rfl⟩, hnone⟩

/-- What one attempt does to the peer. -/
structure Exchanged (a : Assembly) (attempt : Attempt) (a' : Assembly) (sent : Sent)
    (replies : List Message.Reply) : Prop where
  data_ne_nil : ∀ segment ∈ a'.segments, segment.data ≠ []
  left : a'.left = attempt.leaves a.left
  result : sent.result = some (.ok ()) ↔ attempt.Completes
  silent : ¬ attempt.Completes ∨ attempt.data = [] → delivered replies = []
  whole : attempt.Completes → attempt.data ≠ [] → (delivered replies = [attempt.data] ↔ a.left = 0)

/-- A call within the limit: the peer reads the frames of the segments that the channel took. -/
theorem exchange_of_run {Channel : Type} {b b' : Build} {session : Session Channel}
    (hs : session.Ready) {attempt : Attempt} (hlim : attempt.data.length ≤ 255 * MAX_MESSAGE_SIZE)
    {r r' : Receiver} {replies : List Message.Reply}
    (h : Mealy.run (on_message b') r
      (((Message.segmentsOf attempt.data).take attempt.frame_count).map (·.encode)) =
        some (r', replies)) :
    ∃ sent, exchange b b' session r attempt = some (r', sent, replies) ∧
      (sent.result = some (.ok ()) ↔ attempt.Completes) := by
  obtain ⟨hframes, hresult⟩ :=
    Session.sendSegments_eq attempt.channel (Message.segmentsOf attempt.data)
  refine ⟨_, ?_, hresult.trans (and_iff_right hlim).symm⟩
  rw [exchange, Session.send_eq_of_le b hs hlim, Option.bind_some, hframes]
  rw [Attempt.frame_count, Attempt.segment_count] at h
  rw [h, Option.map_some]

section Exchange

variable {Channel : Type} (b b' : Build) {session : Session Channel} (hs : session.Ready)
  {a : Assembly} (ha : ∀ segment ∈ a.segments, segment.data ≠ []) (packets : List Bytes)
  {attempt : Attempt}
include hs ha

/-- An empty payload leaves the peer alone. -/
theorem exchange_empty (hne : attempt.data = []) :
    ∃ sent replies, exchange b b' session ⟨a.toMessage, packets⟩ attempt =
      some (⟨a.toMessage, packets⟩, sent, replies) ∧ Exchanged a attempt a sent replies := by
  have hlim : attempt.data.length ≤ 255 * MAX_MESSAGE_SIZE := by
    rw [hne]
    exact Nat.zero_le _
  have hempty : ∀ segment ∈ (Message.segmentsOf attempt.data).take attempt.frame_count,
      segment.data = [] := by
    intro segment hmem
    have := List.mem_of_mem_take hmem
    rw [hne, Message.segmentsOf, chunks_of_le (Nat.zero_le _)] at this
    exact congrArg MessageSegment.data (List.mem_singleton.1 this)
  obtain ⟨replies, hrun, hnone⟩ := run_on_message_empty b' ⟨a.toMessage, packets⟩ hempty
  obtain ⟨sent, hex, hresult⟩ := exchange_of_run (b := b) hs hlim hrun
  refine ⟨sent, replies, hex, ha, ?_, hresult, fun _ => hnone, fun _ h => absurd hne h⟩
  rw [Attempt.leaves, if_neg fun h => h.1 hne]

/-- Of a payload within the limit the peer reads the segments that the channel took. -/
theorem exchange_part (hne : attempt.data ≠ [])
    (hlim : attempt.data.length ≤ 255 * MAX_MESSAGE_SIZE) :
    ∃ a' packets' sent replies, exchange b b' session ⟨a.toMessage, packets⟩ attempt =
      some (⟨a'.toMessage, packets'⟩, sent, replies) ∧ Exchanged a attempt a' sent replies := by
  have hk : attempt.frame_count ≤ attempt.segment_count := Session.sent_count_le _ _
  obtain ⟨a', replies, hrun, hleaves⟩ := run_assemble_take ha hne hlim hk
  have hdata : ∀ segment ∈ (Message.segmentsOf attempt.data).take attempt.frame_count,
      segment.data ≠ [] := fun segment hmem =>
    (Message.full_of_mem_segmentsOf hne segment (List.mem_of_mem_take hmem)).ne_nil
  have h254 : ∀ segment ∈ (Message.segmentsOf attempt.data).take attempt.frame_count,
      segment.count ≤ 254 := fun segment hmem =>
    Message.count_le_of_mem_segmentsOf hlim segment (List.mem_of_mem_take hmem)
  have hread := run_on_message_encode b' hdata (run_add_segment_of_run b' h254 hrun) packets
  obtain ⟨sent, hex, hresult⟩ := exchange_of_run (b := b) hs hlim hread
  refine ⟨a', _, sent, replies, hex, fun segment hmem => ?_, ?_, hresult, fun h => ?_,
    fun h _ => ?_⟩
  · exact (Assembly.segments_subset hrun segment hmem).elim (ha segment) (hdata segment)
  · rw [hleaves.left, Attempt.leaves, if_pos ⟨hne, hlim⟩]
    rfl
  · have hlt : attempt.frame_count ≠ attempt.segment_count := fun heq =>
      h.elim (fun h => h ⟨hlim, heq⟩) hne
    exact hleaves.part (Nat.lt_of_le_of_ne hk hlt)
  · exact ⟨fun hd => by_contra fun h0 => hleaves.mixed h0 hd, hleaves.whole h.2⟩

/-- A payload above the limit is refused, and the peer reads nothing. -/
theorem exchange_of_lt (hlim : 255 * MAX_MESSAGE_SIZE < attempt.data.length) :
    ∃ sent replies, exchange b b' session ⟨a.toMessage, packets⟩ attempt =
      some (⟨a.toMessage, packets⟩, sent, replies) ∧ Exchanged a attempt a sent replies := by
  have hnot := Nat.not_le.2 hlim
  refine ⟨⟨[], some (.error (.MessageTooLarge attempt.data.length))⟩, [], ?_, ha, ?_, ?_,
    fun _ => rfl, fun h => absurd h.1 hnot⟩
  · rw [exchange, Session.send_eq_of_lt b hs hlim]
    rfl
  · rw [Attempt.leaves, if_neg fun h => hnot h.2]
  · simp [Attempt.Completes, hnot]

theorem exchange_eq (attempt : Attempt) :
    ∃ a' packets' sent replies, exchange b b' session ⟨a.toMessage, packets⟩ attempt =
      some (⟨a'.toMessage, packets'⟩, sent, replies) ∧ Exchanged a attempt a' sent replies := by
  by_cases hne : attempt.data = []
  · exact ⟨a, packets, exchange_empty b b' hs ha packets hne⟩
  · by_cases hlim : attempt.data.length ≤ 255 * MAX_MESSAGE_SIZE
    · exact exchange_part b b' hs ha packets hne hlim
    · exact ⟨a, packets, exchange_of_lt b b' hs ha packets (Nat.not_le.1 hlim)⟩

end Exchange

/-! ## What survives -/

/-- An attempt, and its outcome: what `send` returned, and what the peer answered its frames. -/
abbrev Outcome := Attempt × Sent × List Message.Reply

namespace Outcome

/-- The call returned `Ok`. -/
def Completed (o : Outcome) : Prop := o.2.1.result = some (.ok ())

/-- The messages that the peer delivered while it read the frames of the call. -/
def messages (o : Outcome) : List Bytes := delivered o.2.2

end Outcome

/-- Every message delivered is the payload of a call that completed, and the frames of every call
that completed with a payload deliver it, and nothing else. -/
structure Intact (outcomes : List Outcome) : Prop where
  sound : ∀ o ∈ outcomes, ∀ message ∈ o.messages,
    ∃ o' ∈ outcomes, o'.Completed ∧ message = o'.1.data
  complete : ∀ o ∈ outcomes, o.Completed → o.1.data ≠ [] → o.messages = [o.1.data]

/-- **The attempts in order**, from a peer with open run `a`. -/
theorem run_exchange {Channel : Type} (b b' : Build) (session : Session Channel)
    (hs : session.Ready) {a : Assembly} (ha : ∀ segment ∈ a.segments, segment.data ≠ [])
    (packets : List Bytes) (attempts : List Attempt) :
    ∃ r outcomes,
      Mealy.run (exchange b b' session) ⟨a.toMessage, packets⟩ attempts = some (r, outcomes) ∧
      (∀ o ∈ attempts.zip outcomes,
        ¬ Outcome.Completed o ∨ o.1.data = [] → Outcome.messages o = []) ∧
      ((∀ o ∈ attempts.zip outcomes, Outcome.Completed o → o.1.data ≠ [] →
        Outcome.messages o = [o.1.data]) ↔ Settled a.left attempts) := by
  induction attempts generalizing a packets with
  | nil => exact ⟨_, [], rfl, by simp, by simp [Settled]⟩
  | cons attempt attempts ih =>
    obtain ⟨a', packets', sent, replies, hstep, hex⟩ := exchange_eq b b' hs ha packets attempt
    obtain ⟨r, outcomes, hrun, hsilent, hiff⟩ := ih hex.data_ne_nil packets'
    refine ⟨r, (sent, replies) :: outcomes,
      Mealy.run_cons_eq_some.2 ⟨_, _, outcomes, hstep, hrun, rfl⟩, ?_, ?_⟩
    · rw [List.zip_cons_cons, List.forall_mem_cons]
      exact ⟨fun h => hex.silent (h.imp_left (mt hex.result.2)), hsilent⟩
    · rw [List.zip_cons_cons, List.forall_mem_cons, hiff, hex.left, Settled]
      refine and_congr_left fun _ => ⟨fun h hc hne => ?_, fun h hc hne => ?_⟩
      · exact (hex.whole hc hne).1 (h (hex.result.2 hc) hne)
      · exact (hex.whole (hex.result.1 hc) hne).2 (h (hex.result.1 hc) hne)

/-- **Messages survive abandoned sends exactly while none completes that finds the rest of another
expected.** -/
theorem abandoned_iff {Channel : Type} (b b' : Build) (session : Session Channel)
    (hs : session.Ready) (attempts : List Attempt) :
    ∃ r outcomes, Mealy.run (exchange b b' session) Receiver.new attempts = some (r, outcomes) ∧
      (Intact (attempts.zip outcomes) ↔ Settled 0 attempts) := by
  obtain ⟨r, outcomes, hrun, hsilent, hiff⟩ :=
    run_exchange b b' session hs (a := none) (by simp) [] attempts
  refine ⟨r, outcomes, hrun, fun h => hiff.1 h.complete,
    fun h => ⟨fun o ho message hm => ?_, hiff.2 h⟩⟩
  by_cases hc : Outcome.Completed o ∧ o.1.data ≠ []
  · rw [hiff.2 h o ho hc.1 hc.2] at hm
    exact ⟨o, ho, hc.1, List.mem_singleton.1 hm⟩
  · rw [hsilent o ho (by tauto)] at hm
    cases hm

/-- A channel that takes one frame and then fails. -/
def failsAfterOne : ℕ → Answer
  | 0 => .sent
  | _ => .failed "closed"

/-- A short payload, and one of two segments that is abandoned between them. -/
theorem abandoned_last :
    ∃ r outcomes, Mealy.run (exchange .debug .debug (⟨false, some ()⟩ : Session Unit)) Receiver.new
        [⟨[7], Session.reliable⟩, ⟨Message.fullPart ++ [1], failsAfterOne⟩] = some (r, outcomes) ∧
      Intact ([⟨[7], Session.reliable⟩,
        ⟨Message.fullPart ++ [1], failsAfterOne⟩].zip outcomes) := by
  obtain ⟨r, outcomes, hrun, hiff⟩ := abandoned_iff .debug .debug
    (⟨false, some ()⟩ : Session Unit) ⟨rfl, rfl⟩
    [⟨[7], Session.reliable⟩, ⟨Message.fullPart ++ [1], failsAfterOne⟩]
  have hshort : Message.segmentsOf [7] = [⟨0, [7]⟩] := by
    rw [Message.segmentsOf, chunks_of_le (by decide)]
    rfl
  have hleaves : Attempt.leaves 0 ⟨[7], Session.reliable⟩ = 0 := by
    rw [Attempt.leaves, Attempt.frame_count, Attempt.segment_count, hshort]
    decide
  exact ⟨r, outcomes, hrun, hiff.2 ⟨fun _ _ => rfl, fun _ _ => hleaves, trivial⟩⟩

/-- A payload of two segments abandoned after the first, and a short one sent after it: the peer
delivers the first segment and the short payload as one message. -/
theorem abandoned_mixed :
    ∃ r outcomes, Mealy.run (exchange .release .release (⟨false, some ()⟩ : Session Unit))
        Receiver.new [⟨Message.fullPart ++ [1], failsAfterOne⟩, ⟨[7], Session.reliable⟩] =
          some (r, outcomes) ∧
      ¬ Intact ([⟨Message.fullPart ++ [1], failsAfterOne⟩,
        ⟨[7], Session.reliable⟩].zip outcomes) := by
  obtain ⟨r, outcomes, hrun, -, hiff⟩ := run_exchange .release .release
    (⟨false, some ()⟩ : Session Unit) ⟨rfl, rfl⟩ (a := none) (by simp) []
    [⟨Message.fullPart ++ [1], failsAfterOne⟩, ⟨[7], Session.reliable⟩]
  refine ⟨r, outcomes, hrun, fun h => ?_⟩
  have hpart := Message.length_fullPart
  obtain ⟨-, hsecond, -⟩ := hiff.1 h.complete
  have hleft := hsecond ⟨by decide, Session.sent_count_reliable _⟩ (by simp)
  generalize Message.fullPart = part at hpart hleft
  have hlim : (part ++ [1]).length ≤ 255 * MAX_MESSAGE_SIZE := by
    rw [List.length_append, hpart]
    decide
  simp only [Attempt.leaves, Attempt.segment_count, Attempt.frame_count,
    Message.segmentsOf_append hpart (by simp : ([1] : Bytes) ≠ []) (by decide)] at hleft
  rw [if_pos ⟨by simp, hlim⟩, List.length_cons, List.length_singleton] at hleft
  exact absurd hleft (by decide)

end Nethernet
