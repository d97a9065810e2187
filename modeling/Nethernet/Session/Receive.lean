import Nethernet.Protocol.Assembly

/-!
# The receiving end of a session

The `on_message` handler of `Session::set_reliable_channel` (`src/session/mod.rs`): a frame is
decoded, its segment goes into the session's accumulator, and a complete message onto the packet
queue. The channel awaits the handler for one frame before the next, so a list of frames is a run.

`accumulates_iff` says when the accumulator represents the segments read: as long as no segment
with count byte 255 arrives between messages. That count overflows, and a build without overflow
checks keeps the bytes in an accumulator that says it is idle.
-/

namespace Nethernet

open Foundations

/-- The receiving end: the shared accumulator and the packet queue. -/
structure Receiver where
  message_buffer : Message
  packets : List Bytes
  deriving DecidableEq, Repr

namespace Receiver

/-- A session's receiving end before the first frame. -/
def new : Receiver := ⟨Message.new, []⟩

/-- The `on_message` handler. The reply is what it logs, or what it pushes. -/
def on_message (b : Build) : Mealy Receiver Bytes Message.Reply := fun r frame =>
  match MessageSegment.decode frame with
  | .error e => some (r, .error e)
  | .ok segment =>
    (r.message_buffer.add_segment b segment).map fun p =>
      match p.2 with
      | .ok (some complete_msg) => (⟨p.1, r.packets ++ [complete_msg]⟩, p.2)
      | .ok none => (⟨p.1, r.packets⟩, p.2)
      | .error e => (⟨p.1, r.packets⟩, .error e)

/-- The message a reply completes, if any. -/
def completed : Message.Reply → List Bytes
  | .ok (some complete_msg) => [complete_msg]
  | _ => []

@[simp] theorem completed_some (complete_msg : Bytes) :
    completed (.ok (some complete_msg)) = [complete_msg] := rfl

@[simp] theorem completed_none : completed (.ok none) = [] := rfl

@[simp] theorem completed_error (e : NethernetError) : completed (.error e) = [] := rfl

theorem on_message_of_decode {b : Build} {r : Receiver} {frame : Bytes} {segment : MessageSegment}
    (h : MessageSegment.decode frame = .ok segment) {m : Message} {reply : Message.Reply}
    (hs : r.message_buffer.add_segment b segment = some (m, reply)) :
    on_message b r frame = some (⟨m, r.packets ++ completed reply⟩, reply) := by
  simp only [on_message, h, hs, Option.map_some]
  rcases reply with e | _ | d <;> simp [completed]

theorem on_message_of_decode_error {b : Build} {r : Receiver} {frame : Bytes} {e : NethernetError}
    (h : MessageSegment.decode frame = .error e) : on_message b r frame = some (r, .error e) := by
  simp only [on_message, h]

/-- What the handler does: a frame that is no segment changes nothing, and a segment goes through
`add_segment`. -/
theorem on_message_cases {b : Build} {r r' : Receiver} {frame : Bytes} {reply : Message.Reply}
    (h : on_message b r frame = some (r', reply)) :
    (∃ e, MessageSegment.decode frame = .error e ∧ r' = r ∧ reply = .error e) ∨
      ∃ segment, MessageSegment.decode frame = .ok segment ∧
        r.message_buffer.add_segment b segment = some (r'.message_buffer, reply) ∧
        r'.packets = r.packets ++ completed reply := by
  cases hd : MessageSegment.decode frame with
  | error e =>
    rw [on_message_of_decode_error hd] at h
    obtain ⟨rfl, rfl⟩ := Prod.mk.inj (Option.some.inj h)
    exact .inl ⟨e, rfl, rfl, rfl⟩
  | ok segment =>
    refine .inr ⟨segment, rfl, ?_⟩
    cases hs : r.message_buffer.add_segment b segment with
    | none => simp [on_message, hd, hs] at h
    | some p =>
      rw [on_message_of_decode hd hs] at h
      obtain ⟨rfl, rfl⟩ := Prod.mk.inj (Option.some.inj h)
      exact ⟨rfl, rfl⟩

/-! ## The accumulator and the segments read -/

/-- The segments of the frames that are segments. -/
def decoded (frames : List Bytes) : List MessageSegment :=
  frames.filterMap fun frame => (MessageSegment.decode frame).toOption

theorem decoded_append (frames frames' : List Bytes) :
    decoded (frames ++ frames') = decoded frames ++ decoded frames' := List.filterMap_append

theorem decoded_singleton_ok {frame : Bytes} {segment : MessageSegment}
    (h : MessageSegment.decode frame = .ok segment) : decoded [frame] = [segment] := by
  simp [decoded, h, Except.toOption]

theorem decoded_singleton_error {frame : Bytes} {e : NethernetError}
    (h : MessageSegment.decode frame = .error e) : decoded [frame] = [] := by
  simp [decoded, h, Except.toOption]

/-- The representation invariant: an accumulator that expects nothing is empty, and one that expects
`e > 0` segments holds the payloads of the last `r + 1 - e ≤ 255` segments, which count down from
`r`, the count of the segment that opened the run, to `e`. -/
def Represents (segments : List MessageSegment) (m : Message) : Prop :=
  (m.expected_segments.toNat = 0 → m.data = []) ∧
    ∀ e, 0 < e → m.expected_segments.toNat = e → ∃ r run, e ≤ r ∧ run <:+ segments ∧
      run.length = r + 1 - e ∧ run.length ≤ 255 ∧ run.head?.map (·.count) = some r ∧
      counts run = countdown e run.length ∧ m.data = payload run

/-- A build with overflow checks would panic on this segment. -/
def Overflows (m : Message) (segment : MessageSegment) : Prop := m.add_segment .debug segment = none

/-- Over the frames, no `u8` result of `add_segment` is out of range, and every accumulator reached
represents the segments read. -/
structure Accumulates (b : Build) (frames : List Bytes) : Prop where
  no_overflow : Mealy.Along (on_message b) (fun r frame => ∀ segment,
    MessageSegment.decode frame = .ok segment → ¬ Overflows r.message_buffer segment) new frames
  represents : ∀ read r replies, read <+: frames →
    Mealy.run (on_message b) new read = some (r, replies) →
      Represents (decoded read) r.message_buffer

/-- No segment with count byte 255 arrives between messages. -/
def NoIdle255 (b : Build) (frames : List Bytes) : Prop :=
  Mealy.Along (on_message b) (fun r frame => r.message_buffer.expected_segments = 0 →
    ∀ segment, MessageSegment.decode frame = .ok segment → segment.remaining_segments ≠ 255)
      new frames

/-- A count byte that overflows is 255, between messages. -/
theorem overflows_iff {m : Message} {segment : MessageSegment} :
    Overflows m segment ↔ m.expected_segments = 0 ∧ segment.remaining_segments = 255 := by
  constructor
  · intro h
    unfold Overflows at h
    by_cases hm : m.expected_segments = 0
    · refine ⟨hm, ?_⟩
      by_contra h255
      have hlt : segment.remaining_segments.toNat < 255 := by
        have := segment.remaining_segments.toNat_lt
        have : segment.remaining_segments.toNat ≠ 255 := fun he => h255 (UInt8.toNat_inj.1 he)
        omega
      rw [Message.add_segment_idle .debug hm hlt] at h
      cases h
    · by_cases hnext : m.expected_segments.toNat = segment.remaining_segments.toNat + 1
      · rw [Message.add_segment_next .debug hnext] at h
        cases h
      · rw [Message.add_segment_reject .debug hm hnext] at h
        cases h
  · rintro ⟨hm, h255⟩
    exact Message.add_segment_255_debug hm h255

/-- The accumulator of a run of the abstract machine represents the segments read. -/
theorem represents_toMessage {segments : List MessageSegment} {a : Assembly}
    (h : a.segments <:+ segments) : Represents segments a.toMessage := by
  cases a with
  | none => exact ⟨fun _ => rfl, fun e he h0 => absurd h0 (by simp [Message.new]; omega)⟩
  | some run =>
    have hleft := run.left_pos
    refine ⟨fun h0 => absurd h0 (by simp only [Assembly.toMessage]; omega), ?_⟩
    rintro e he rfl
    obtain ⟨n, hn⟩ : ∃ n, run.segments.length = n + 1 :=
      Nat.exists_eq_succ_of_ne_zero (fun h0 => run.ne_nil (List.length_eq_zero_iff.1 h0))
    have hcounts := run.counts_eq
    rw [hn, countdown_succ] at hcounts
    obtain ⟨first, rest, hfirst⟩ := List.exists_cons_of_ne_nil run.ne_nil
    have hhead : first.count = run.left.toNat + n := by
      rw [hfirst] at hcounts
      exact (List.cons.inj hcounts).1
    have hlt := first.count_lt
    refine ⟨run.left.toNat + n, run.segments, ?_, h, ?_, ?_, ?_, run.counts_eq, rfl⟩
    · simp only [Assembly.toMessage]
      omega
    · simp only [Assembly.toMessage]
      omega
    · omega
    · rw [hfirst, List.head?_cons, Option.map_some, hhead]

/-- The accumulator is that of an abstract machine whose run ends the segments read. -/
def Follows (frames : List Bytes) (r : Receiver) : Prop :=
  ∃ a : Assembly, r.message_buffer = a.toMessage ∧ a.segments <:+ decoded frames

theorem Follows.step {b : Build} {frames : List Bytes} {r r' : Receiver} {frame : Bytes}
    {reply : Message.Reply} (h : Follows frames r)
    (h255 : r.message_buffer.expected_segments = 0 → ∀ segment,
      MessageSegment.decode frame = .ok segment → segment.remaining_segments ≠ 255)
    (hs : on_message b r frame = some (r', reply)) : Follows (frames ++ [frame]) r' := by
  obtain ⟨a, ha, hrun⟩ := h
  rcases on_message_cases hs with ⟨e, hd, rfl, -⟩ | ⟨segment, hd, hadd, -⟩
  · exact ⟨a, ha, by rwa [decoded_append, decoded_singleton_error hd, List.append_nil]⟩
  · have h255' : a = none → segment.count ≠ 255 := by
      rintro rfl hcount
      exact h255 (by rw [ha]; rfl) segment hd (UInt8.toNat_inj.1 hcount)
    obtain ⟨a', reply', hstep⟩ := Assembly.assemble_isSome a segment
    rw [ha, Assembly.add_segment_refines b a segment a' reply' h255' hstep] at hadd
    obtain ⟨hm, -⟩ := Prod.mk.inj (Option.some.inj hadd)
    refine ⟨a', hm.symm, ?_⟩
    rw [decoded_append, decoded_singleton_ok hd]
    exact Assembly.assemble_suffix hrun hstep

theorem Accumulates.noIdle255 {b : Build} {frames : List Bytes} (h : Accumulates b frames) :
    NoIdle255 b frames :=
  h.no_overflow.mono fun _ _ h hidle segment hd h255 => h segment hd (overflows_iff.2 ⟨hidle, h255⟩)

/-- **The accumulator is sound exactly while no count byte 255 arrives between messages.** -/
theorem accumulates_iff (b : Build) (frames : List Bytes) :
    Accumulates b frames ↔ NoIdle255 b frames := by
  refine ⟨Accumulates.noIdle255, fun hno => ⟨?_, ?_⟩⟩
  · refine hno.mono fun r frame h segment hd hover => ?_
    obtain ⟨hidle, h255⟩ := overflows_iff.1 hover
    exact h hidle segment hd h255
  · intro read r replies hread hrun
    have h₀ : Follows [] new := ⟨none, rfl, List.nil_suffix⟩
    have hfollows := Mealy.run_history_along (P := Follows)
      (fun hist r frame r' reply hP hA hs => hP.step hA hs) h₀ (hno.of_prefix hread) hrun
    rw [List.nil_append] at hfollows
    obtain ⟨a, ha, hsuffix⟩ := hfollows
    rw [ha]
    exact represents_toMessage hsuffix

/-- A first frame with count byte 255: overflow checks panic, and without them the accumulator is
left with a payload and nothing expected. -/
theorem not_accumulates_255 : ¬ Accumulates .debug [[255, 1]] ∧ ¬ Accumulates .release [[255, 1]] ∧
    ∃ r replies, Mealy.run (on_message .release) new [[255, 1]] = some (r, replies) ∧
      ¬ Represents (decoded [[255, 1]]) r.message_buffer := by
  have h255 : ∀ b, ¬ NoIdle255 b [[255, 1]] := fun b h => h.1 rfl ⟨255, [1]⟩ rfl rfl
  have hdecode : MessageSegment.decode [255, 1] = .ok ⟨255, [1]⟩ := rfl
  have hwraps : on_message .release new [255, 1] = some (⟨⟨0, [1]⟩, []⟩, .ok none) :=
    on_message_of_decode hdecode (Message.add_segment_255_release rfl rfl)
  refine ⟨fun h => h255 _ h.noIdle255, fun h => h255 _ h.noIdle255,
    ⟨⟨0, [1]⟩, []⟩, [.ok none], Mealy.run_of_step hwraps, fun h => ?_⟩
  exact absurd (h.1 rfl) (by decide)

end Receiver

end Nethernet
