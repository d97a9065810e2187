import Mathlib.Tactic.Common
import Nethernet.Foundations.Chunks
import Nethernet.Protocol.Error

/-!
# Messages and their segments

The model of `src/protocol/message.rs`. A message travels as segments: a byte that counts the
segments still to come, then a part of the payload. `Message.split_into_segments` cuts a payload,
`MessageSegment.encode` and `decode` are the wire format of one segment, and `Message.add_segment`
puts a payload together again from the counts alone.

The counters of the source are `u8`. Their arithmetic goes through `Build.add` and `Build.sub`: a
result out of range is a panic (`none`) in a build with overflow checks and wraps around in one
without. `split_into_segments_eq` says what the splitter returns, in every build; the lemmas
`add_segment_*` say what each branch of the accumulator does.
-/

namespace Nethernet

open Foundations

/-! ## Machine arithmetic -/

/-- How a build treats a `u8` result out of range, and a debug assertion that fails. -/
inductive Build
  /-- Overflow checks and debug assertions are on: both panic. -/
  | debug
  /-- They are off: the result wraps around, the assertion is not evaluated. -/
  | release
  deriving DecidableEq, Repr

namespace Build

/-- `a + b` on `u8`. -/
def add (b : Build) (x y : UInt8) : Option UInt8 :=
  if x.toNat + y.toNat < 256 then some (x + y)
  else match b with
    | debug => none
    | release => some (x + y)

/-- `a - b` on `u8`. -/
def sub (b : Build) (x y : UInt8) : Option UInt8 :=
  if y.toNat ≤ x.toNat then some (x - y)
  else match b with
    | debug => none
    | release => some (x - y)

/-- `debug_assert!`. -/
def debug_assert (b : Build) (p : Bool) : Option Unit :=
  match b with
  | debug => if p then some () else none
  | release => some ()

theorem add_of_lt (b : Build) {x y : UInt8} (h : x.toNat + y.toNat < 256) :
    b.add x y = some (x + y) := if_pos h

theorem sub_of_le (b : Build) {x y : UInt8} (h : y.toNat ≤ x.toNat) :
    b.sub x y = some (x - y) := if_pos h

@[simp] theorem debug_assert_true (b : Build) : b.debug_assert true = some () := by
  cases b <;> rfl

end Build

/-! ## Segments -/

/-- A segment: the number of segments still to come, and a part of the payload. -/
structure MessageSegment where
  remaining_segments : UInt8
  data : Bytes
  deriving DecidableEq, Repr

namespace MessageSegment

/-- The wire form: the count, then the payload. -/
def encode (segment : MessageSegment) : Bytes := segment.remaining_segments :: segment.data

theorem encode_injective : Function.Injective encode := by
  rintro ⟨r, data⟩ ⟨r', data'⟩ h
  obtain ⟨rfl, rfl⟩ := List.cons.inj h
  rfl

/-- Read a segment from a frame of at least two bytes. -/
def decode (data : Bytes) : Except NethernetError MessageSegment :=
  match data with
  | remaining_segments :: b :: rest => .ok ⟨remaining_segments, b :: rest⟩
  | _ => .error (.MessageParse
      s!"Message too short, expected at least 2 bytes, got {data.length}")

theorem decode_encode {segment : MessageSegment} (h : segment.data ≠ []) :
    decode segment.encode = .ok segment := by
  obtain ⟨r, _ | ⟨b, rest⟩⟩ := segment
  · exact absurd rfl h
  · rfl

theorem encode_of_decode {data : Bytes} {segment : MessageSegment}
    (h : decode data = .ok segment) : segment.encode = data ∧ segment.data ≠ [] := by
  unfold decode at h
  split at h
  · obtain rfl := Except.ok.inj h
    exact ⟨rfl, by simp⟩
  · cases h

end MessageSegment

/-! ## The accumulator -/

/-- The accumulator: the number of segments still expected, and the payload so far. -/
structure Message where
  expected_segments : UInt8
  data : Bytes
  deriving DecidableEq, Repr

namespace Message

/-- An accumulator ready for a message. -/
def new : Message := ⟨0, []⟩

/-- What `add_segment` returns: a complete message, `none` when more is to come, or an error. -/
abbrev Reply := Except NethernetError (Option Bytes)

/-- The error of a segment out of sequence. -/
def sequenceError (expected_remaining remaining_segments : UInt8) : NethernetError :=
  .MessageParse (s!"Invalid segment sequence: expected {expected_remaining}, " ++
    s!"got {remaining_segments}")

/-- The end of `add_segment`, once the sequence has been checked: append the payload, and return
the message if this was its last segment. -/
def append (m : Message) (segment : MessageSegment) : Message × Reply :=
  let data := m.data ++ segment.data
  if segment.remaining_segments = 0 then (⟨0, []⟩, .ok (some data))
  else ({ m with data := data }, .ok none)

/-- Add a segment to the accumulator. -/
def add_segment (b : Build) (m : Message) (segment : MessageSegment) :
    Option (Message × Reply) := do
  -- the first segment of a message announces how many there are
  let m ←
    if m.expected_segments = 0 ∧ 0 < segment.remaining_segments then do
      let expected_segments ← b.add segment.remaining_segments 1
      pure { m with expected_segments := expected_segments }
    else pure m
  if 0 < m.expected_segments then do
    let expected_remaining ← b.sub m.expected_segments 1
    if expected_remaining ≠ segment.remaining_segments then
      pure (⟨0, []⟩, .error (sequenceError expected_remaining segment.remaining_segments))
    else do
      let expected_segments ← b.sub m.expected_segments 1
      pure ({ m with expected_segments := expected_segments }.append segment)
  else pure (m.append segment)

/-! ## The splitter -/

/-- The loop of `split_into_segments`: while more than one segment's worth remains, cut a full
segment off. It returns the segments, what remains and the counter. -/
def splitLoop (b : Build) (remaining : Bytes) (left : UInt8) :
    Option (List MessageSegment × Bytes × UInt8) :=
  if _h : MAX_MESSAGE_SIZE < remaining.length then
    (b.sub left 1).bind fun left =>
      (splitLoop b (remaining.drop MAX_MESSAGE_SIZE) left).map fun r =>
        (⟨left, remaining.take MAX_MESSAGE_SIZE⟩ :: r.1, r.2)
  else some ([], remaining, left)
termination_by remaining.length
decreasing_by
  rw [List.length_drop]
  simp only [MAX_MESSAGE_SIZE] at *
  omega

/-- Split a payload into segments. -/
def split_into_segments (b : Build) (data : Bytes) :
    Option (Except NethernetError (List MessageSegment)) :=
  let len := data.length
  if len ≤ MAX_MESSAGE_SIZE then some (.ok [⟨0, data⟩])
  else
    let segment_count := (len + MAX_MESSAGE_SIZE - 1) / MAX_MESSAGE_SIZE
    if 255 < segment_count then some (.error (.MessageTooLarge len))
    else do
      let (segments, remaining, left) ← splitLoop b data (UInt8.ofNat segment_count)
      if remaining ≠ [] then do
        let left ← b.sub left 1
        b.debug_assert (left = 0)
        pure (.ok (segments ++ [⟨left, remaining⟩]))
      else do
        b.debug_assert (left = 0)
        pure (.ok segments)

/-! ## What the accumulator does -/

theorem toNat_succ {x : UInt8} (h : x.toNat < 255) : (x + 1).toNat = x.toNat + 1 := by
  rw [UInt8.toNat_add, UInt8.toNat_one]
  omega

theorem toNat_pred {x : UInt8} (h : 0 < x.toNat) : (x - 1).toNat = x.toNat - 1 := by
  have h1 : (1 : UInt8) ≤ x := by rw [UInt8.le_iff_toNat_le, UInt8.toNat_one]; omega
  rw [UInt8.toNat_sub_of_le _ _ h1, UInt8.toNat_one]

/-- A segment in sequence: its payload is appended, and the last one completes the message. -/
def accept (m : Message) (segment : MessageSegment) : Message × Reply :=
  if segment.remaining_segments = 0 then (new, .ok (some (m.data ++ segment.data)))
  else (⟨segment.remaining_segments, m.data ++ segment.data⟩, .ok none)

theorem append_eq_accept {m : Message} {segment : MessageSegment}
    (h : m.expected_segments = segment.remaining_segments) :
    m.append segment = m.accept segment := by
  simp only [append, accept, new, h]

/-- Between messages, any count below 255 starts one. -/
theorem add_segment_idle (b : Build) {m : Message} {segment : MessageSegment}
    (hm : m.expected_segments = 0) (h : segment.remaining_segments.toNat < 255) :
    m.add_segment b segment = some (m.accept segment) := by
  by_cases h0 : segment.remaining_segments = 0
  · simp [add_segment, hm, h0, append_eq_accept (m := m) (hm.trans h0.symm)]
  · have hpos : 0 < segment.remaining_segments := UInt8.pos_iff_ne_zero.2 h0
    have hadd := b.add_of_lt (x := segment.remaining_segments) (y := 1)
      (by rw [UInt8.toNat_one]; omega)
    have hlt : 0 < segment.remaining_segments + 1 := by
      rw [UInt8.lt_iff_toNat_lt, toNat_succ h]
      simp
    have hsub := b.sub_of_le (x := segment.remaining_segments + 1) (y := 1)
      (by rw [toNat_succ h]; simp)
    rw [UInt8.add_sub_cancel] at hsub
    have hacc : append ⟨segment.remaining_segments, m.data⟩ segment =
        accept ⟨segment.remaining_segments, m.data⟩ segment := append_eq_accept rfl
    simp [add_segment, hm, hpos, hadd, hlt, hsub, hacc, accept]

/-- In a message, the segment with the next lower count is accepted. -/
theorem add_segment_next (b : Build) {m : Message} {segment : MessageSegment}
    (h : m.expected_segments.toNat = segment.remaining_segments.toNat + 1) :
    m.add_segment b segment = some (m.accept segment) := by
  have hpos : 0 < m.expected_segments := by
    rw [UInt8.lt_iff_toNat_lt, h]
    simp
  have hsub := b.sub_of_le (x := m.expected_segments) (y := 1) (by rw [h]; simp)
  have hrem : m.expected_segments - 1 = segment.remaining_segments := by
    apply UInt8.toNat_inj.1
    rw [toNat_pred (by omega), h, Nat.add_sub_cancel]
  have hacc : append ⟨segment.remaining_segments, m.data⟩ segment =
      accept ⟨segment.remaining_segments, m.data⟩ segment := append_eq_accept rfl
  simp [add_segment, (UInt8.pos_iff_ne_zero.1 hpos), hpos, hsub, hrem, hacc, accept]

/-- In a message, any other count is an error and resets the accumulator. -/
theorem add_segment_reject (b : Build) {m : Message} {segment : MessageSegment}
    (hm : m.expected_segments ≠ 0)
    (h : m.expected_segments.toNat ≠ segment.remaining_segments.toNat + 1) :
    m.add_segment b segment =
      some (new, .error (sequenceError (m.expected_segments - 1) segment.remaining_segments)) := by
  have hpos : 0 < m.expected_segments := UInt8.pos_iff_ne_zero.2 hm
  have hnat : 0 < m.expected_segments.toNat := by simpa [UInt8.lt_iff_toNat_lt] using hpos
  have hsub := b.sub_of_le (x := m.expected_segments) (y := 1) hnat
  have hrem : m.expected_segments - 1 ≠ segment.remaining_segments := by
    intro he
    have := congrArg UInt8.toNat he
    rw [toNat_pred hnat] at this
    omega
  simp [add_segment, hm, hpos, hsub, hrem, new]

/-- Between messages, the count 255 overflows: a panic in a build with overflow checks. -/
theorem add_segment_255_debug {m : Message} {segment : MessageSegment}
    (hm : m.expected_segments = 0) (h : segment.remaining_segments = 255) :
    m.add_segment .debug segment = none := by
  simp [add_segment, hm, h, Build.add]

/-- Without overflow checks the count 255 wraps to zero expected segments, and the payload stays in
an accumulator that looks idle. -/
theorem add_segment_255_release {m : Message} {segment : MessageSegment}
    (hm : m.expected_segments = 0) (h : segment.remaining_segments = 255) :
    m.add_segment .release segment = some (⟨0, m.data ++ segment.data⟩, .ok none) := by
  simp [add_segment, hm, h, Build.add, append]

/-! ## What the splitter does -/

/-- Number the parts of a payload: each carries the number of parts after it. -/
def numbered : List Bytes → List MessageSegment
  | [] => []
  | part :: parts => ⟨UInt8.ofNat parts.length, part⟩ :: numbered parts

@[simp] theorem length_numbered (parts : List Bytes) : (numbered parts).length = parts.length := by
  induction parts with
  | nil => rfl
  | cons part parts ih => rw [numbered, List.length_cons, List.length_cons, ih]

theorem map_data_numbered (parts : List Bytes) : (numbered parts).map (·.data) = parts := by
  induction parts with
  | nil => rfl
  | cons part parts ih => rw [numbered, List.map_cons, ih]

/-- The segments of a payload. -/
def segmentsOf (data : Bytes) : List MessageSegment := numbered (chunks MAX_MESSAGE_SIZE data)

theorem splitLoop_eq (b : Build) (remaining : Bytes) (left : UInt8) (hne : remaining ≠ [])
    (hleft : left.toNat = (chunks MAX_MESSAGE_SIZE remaining).length) :
    ∃ segments tail, splitLoop b remaining left = some (segments, tail, 1) ∧ tail ≠ [] ∧
      segments ++ [⟨0, tail⟩] = segmentsOf remaining := by
  fun_induction splitLoop b remaining left with
  | case1 remaining left h ih =>
    have hmax : 0 < MAX_MESSAGE_SIZE := by decide
    have hchunks := chunks_of_lt hmax h
    rw [hchunks, List.length_cons] at hleft
    have hpred : (left - 1).toNat =
        (chunks MAX_MESSAGE_SIZE (remaining.drop MAX_MESSAGE_SIZE)).length := by
      rw [toNat_pred (by omega), hleft, Nat.add_sub_cancel]
    have hne' : remaining.drop MAX_MESSAGE_SIZE ≠ [] :=
      List.ne_nil_of_length_pos (by rw [List.length_drop]; omega)
    obtain ⟨segments, tail, heq, htail, hsegs⟩ := ih (left - 1) hne' hpred
    refine ⟨⟨left - 1, remaining.take MAX_MESSAGE_SIZE⟩ :: segments, tail, ?_, htail, ?_⟩
    · rw [b.sub_of_le (by rw [UInt8.toNat_one]; omega), Option.bind_some, heq]
      rfl
    · rw [List.cons_append, hsegs, segmentsOf, segmentsOf, hchunks, numbered, ← hpred,
        UInt8.ofNat_toNat]
  | case2 remaining left h =>
    have hchunks : chunks MAX_MESSAGE_SIZE remaining = [remaining] := chunks_of_le (by omega)
    rw [hchunks] at hleft
    obtain rfl : left = 1 := UInt8.toNat_inj.1 hleft
    exact ⟨[], remaining, rfl, hne, by rw [segmentsOf, hchunks]; rfl⟩

/-- **The splitter**: a payload of more than 255 full segments is refused; any other is cut into
full segments and a last one, numbered down to zero. No counter overflows and no assertion fails,
in either build. -/
theorem split_into_segments_eq (b : Build) (data : Bytes) :
    split_into_segments b data =
      some (if 255 * MAX_MESSAGE_SIZE < data.length then .error (.MessageTooLarge data.length)
        else .ok (segmentsOf data)) := by
  have hmax : 0 < MAX_MESSAGE_SIZE := by decide
  by_cases hsmall : data.length ≤ MAX_MESSAGE_SIZE
  · have hle : ¬ 255 * MAX_MESSAGE_SIZE < data.length := by omega
    simp only [split_into_segments, hsmall, if_true, if_neg hle, segmentsOf, chunks_of_le hsmall]
    rfl
  · have hcount := length_chunks hmax (l := data) (by omega)
    simp only [split_into_segments, if_neg hsmall]
    by_cases hlarge : 255 * MAX_MESSAGE_SIZE < data.length
    · have h255 : 255 < (data.length + MAX_MESSAGE_SIZE - 1) / MAX_MESSAGE_SIZE := by
        rw [Nat.lt_div_iff_mul_lt hmax]
        omega
      rw [if_pos h255, if_pos hlarge]
    · have h255 : ¬ 255 < (data.length + MAX_MESSAGE_SIZE - 1) / MAX_MESSAGE_SIZE := by
        rw [Nat.lt_div_iff_mul_lt hmax]
        omega
      have hne : data ≠ [] := List.ne_nil_of_length_pos (by omega)
      have hleft : (UInt8.ofNat ((data.length + MAX_MESSAGE_SIZE - 1) / MAX_MESSAGE_SIZE)).toNat =
          (chunks MAX_MESSAGE_SIZE data).length := by
        rw [hcount, UInt8.toNat_ofNat_of_lt' (by rw [UInt8.size]; omega)]
      obtain ⟨segments, tail, heq, htail, hsegs⟩ := splitLoop_eq b data _ hne hleft
      have hsub := b.sub_of_le (x := 1) (y := 1) (Nat.le_refl 1)
      simp [if_neg h255, if_neg hlarge, heq, htail, hsub, hsegs]

end Message

end Nethernet
