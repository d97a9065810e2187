import Mathlib.Data.List.Induction
import Nethernet.Foundations.Mealy
import Nethernet.Foundations.Countdown
import Nethernet.Protocol.Message

/-!
# Reassembly as a machine of its own

What `Message.add_segment` is for: `assemble` keeps the segments of the open run themselves, an
`OpenRun` whose counts go down by one from segment to segment, and returns the payloads of a run
when it reaches zero. The accumulator keeps only the last count and the bytes
(`Assembly.toMessage`), and answers as `assemble` does (`add_segment_refines`), except when a count
of 255 overflows between messages.

Between messages, a countdown to zero is delivered (`run_assemble_block`), and every delivery is
such a countdown (`delivered_block`).
-/

namespace Nethernet

open Foundations

namespace MessageSegment

/-- The number of segments still to come. -/
def count (segment : MessageSegment) : ℕ := segment.remaining_segments.toNat

theorem count_lt (segment : MessageSegment) : segment.count < 256 :=
  segment.remaining_segments.toNat_lt

theorem count_eq_zero {segment : MessageSegment} :
    segment.count = 0 ↔ segment.remaining_segments = 0 := by
  rw [count, ← UInt8.toNat_zero, UInt8.toNat_inj]

end MessageSegment

/-- The bytes of a list of segments, in order. -/
def payload (segments : List MessageSegment) : Bytes := (segments.map (·.data)).flatten

@[simp] theorem payload_nil : payload [] = [] := rfl

@[simp] theorem payload_cons (segment : MessageSegment) (segments : List MessageSegment) :
    payload (segment :: segments) = segment.data ++ payload segments := rfl

@[simp] theorem payload_append (segments segments' : List MessageSegment) :
    payload (segments ++ segments') = payload segments ++ payload segments' := by
  simp [payload]

/-- The counts of a list of segments. -/
def counts (segments : List MessageSegment) : List ℕ := segments.map (·.count)

@[simp] theorem length_counts (segments : List MessageSegment) :
    (counts segments).length = segments.length := List.length_map ..

@[simp] theorem counts_cons (segment : MessageSegment) (segments : List MessageSegment) :
    counts (segment :: segments) = segment.count :: counts segments := rfl

/-! ## The abstract machine -/

/-- The segments of a message that is not complete yet: their counts go down by one to `left`, the
number of segments still to come. -/
structure OpenRun where
  segments : List MessageSegment
  left : UInt8
  left_ne_zero : left ≠ 0
  ne_nil : segments ≠ []
  counts_eq : counts segments = countdown left.toNat segments.length

namespace OpenRun

theorem left_pos (run : OpenRun) : 0 < run.left.toNat :=
  Nat.pos_of_ne_zero fun h => run.left_ne_zero (UInt8.toNat_inj.1 h)

/-- A first segment that is not the last opens a run. -/
def start (segment : MessageSegment) (h : segment.remaining_segments ≠ 0) : OpenRun where
  segments := [segment]
  left := segment.remaining_segments
  left_ne_zero := h
  ne_nil := by simp
  counts_eq := rfl

/-- The segment with the next lower count, if it is not the last, extends a run. -/
def extend (run : OpenRun) (segment : MessageSegment) (h : segment.remaining_segments ≠ 0)
    (hnext : run.left.toNat = segment.count + 1) : OpenRun where
  segments := run.segments ++ [segment]
  left := segment.remaining_segments
  left_ne_zero := h
  ne_nil := by simp
  counts_eq := by
    rw [counts, List.map_append, ← counts, run.counts_eq, List.length_append, List.length_singleton,
      countdown_succ_concat, hnext]
    rfl

end OpenRun

/-- The state of the abstract machine: a run, or nothing between messages. -/
abbrev Assembly := Option OpenRun

namespace Assembly

/-- One segment: open a run, extend it, complete it, or drop it. -/
def assemble : Mealy Assembly MessageSegment Message.Reply
  | none, segment =>
    if h : segment.remaining_segments = 0 then some (none, .ok (some segment.data))
    else some (some (.start segment h), .ok none)
  | some run, segment =>
    if hnext : run.left.toNat = segment.count + 1 then
      if h : segment.remaining_segments = 0 then
        some (none, .ok (some (payload (run.segments ++ [segment]))))
      else some (some (run.extend segment h hnext), .ok none)
    else some (none, .error (Message.sequenceError (run.left - 1) segment.remaining_segments))

/-- The segments of the open run. -/
def segments : Assembly → List MessageSegment
  | none => []
  | some run => run.segments

/-- How many segments are still to come. -/
def left : Assembly → ℕ
  | none => 0
  | some run => run.left.toNat

@[simp] theorem segments_none : segments none = [] := rfl

@[simp] theorem segments_some (run : OpenRun) : segments (some run) = run.segments := rfl

@[simp] theorem left_none : left none = 0 := rfl

@[simp] theorem left_some (run : OpenRun) : left (some run) = run.left.toNat := rfl

theorem left_eq_zero {a : Assembly} : a.left = 0 ↔ a = none := by
  cases a with
  | none => simp
  | some run => simpa using Nat.ne_of_gt run.left_pos

theorem segments_eq_nil {a : Assembly} : a.segments = [] ↔ a = none := by
  cases a with
  | none => simp
  | some run => simpa using run.ne_nil

/-- What the accumulator keeps of a run. -/
def toMessage : Assembly → Message
  | none => Message.new
  | some run => ⟨run.left, payload run.segments⟩

@[simp] theorem toMessage_none : toMessage none = Message.new := rfl

theorem toMessage_expected_segments_eq_zero {a : Assembly} :
    a.toMessage.expected_segments = 0 ↔ a = none := by
  cases a with
  | none => simp [Message.new]
  | some run => simpa [toMessage] using run.left_ne_zero

theorem toMessage_eq_new {a : Assembly} : a.toMessage = Message.new ↔ a = none := by
  refine ⟨fun h => toMessage_expected_segments_eq_zero.1 (by rw [h]; rfl), ?_⟩
  rintro rfl
  rfl

/-- **The accumulator refines the abstract machine**, on every segment whose count does not
overflow between messages. -/
theorem add_segment_refines (b : Build) (a : Assembly) (segment : MessageSegment) (a' : Assembly)
    (reply : Message.Reply) (h255 : a = none → segment.count ≠ 255)
    (h : assemble a segment = some (a', reply)) :
    a.toMessage.add_segment b segment = some (a'.toMessage, reply) := by
  cases a with
  | none =>
    have hlt : segment.remaining_segments.toNat < 255 := by
      have := segment.count_lt
      have := h255 rfl
      simp only [MessageSegment.count] at *
      omega
    rw [toMessage_none, Message.add_segment_idle b (by rfl) hlt, Message.accept]
    simp only [assemble] at h
    split at h <;> rename_i h0 <;> obtain ⟨rfl, rfl⟩ := Prod.mk.inj (Option.some.inj h)
    · rw [if_pos h0]
      rfl
    · rw [if_neg h0]
      simp [toMessage, OpenRun.start, Message.new]
  | some run =>
    simp only [assemble] at h
    split at h
    · rename_i hnext
      rw [Message.add_segment_next b (by exact hnext), Message.accept]
      split at h <;> rename_i h0 <;> obtain ⟨rfl, rfl⟩ := Prod.mk.inj (Option.some.inj h)
      · rw [if_pos h0]
        simp [toMessage]
      · rw [if_neg h0]
        simp [toMessage, OpenRun.extend]
    · rename_i hnext
      obtain ⟨rfl, rfl⟩ := Prod.mk.inj (Option.some.inj h)
      exact Message.add_segment_reject b run.left_ne_zero hnext

/-- The abstract machine never stops. -/
theorem assemble_isSome (a : Assembly) (segment : MessageSegment) :
    ∃ a' reply, assemble a segment = some (a', reply) := by
  rcases a with _ | run <;> simp only [assemble] <;> split_ifs <;> exact ⟨_, _, rfl⟩

theorem assemble_run_isSome (a : Assembly) (segments : List MessageSegment) :
    ∃ a' replies, Mealy.run assemble a segments = some (a', replies) := by
  have hstep : ∀ a segment, True → True →
      ∃ a' reply, assemble a segment = some (a', reply) ∧ True :=
    fun a segment _ _ => by simpa using assemble_isSome a segment
  have hall : ∀ segment ∈ segments, True := fun _ _ => trivial
  obtain ⟨a', replies, h, -⟩ := Mealy.run_isSome hstep (s := a) trivial hall
  exact ⟨a', replies, h⟩

/-- **What a step does**: it completes the message, keeps the segment, or drops the run. -/
theorem assemble_cases {a a' : Assembly} {segment : MessageSegment} {reply : Message.Reply}
    (h : assemble a segment = some (a', reply)) :
    ((a.left = 0 ∨ a.left = segment.count + 1) ∧ segment.count = 0 ∧ a' = none ∧
      reply = .ok (some (payload (a.segments ++ [segment])))) ∨
    ((a.left = 0 ∨ a.left = segment.count + 1) ∧ a'.left = segment.count ∧ a' ≠ none ∧
      a'.segments = a.segments ++ [segment] ∧ reply = .ok none) ∨
    (a.left ≠ 0 ∧ a.left ≠ segment.count + 1 ∧ a' = none ∧ ∃ e, reply = .error e) := by
  cases a with
  | none =>
    simp only [assemble] at h
    split at h <;> rename_i h0 <;> cases h
    · exact .inl ⟨.inl rfl, MessageSegment.count_eq_zero.2 h0, rfl, by simp⟩
    · exact .inr (.inl ⟨.inl rfl, rfl, by simp, rfl, rfl⟩)
  | some run =>
    simp only [assemble] at h
    split at h <;> rename_i hnext
    · split at h <;> rename_i h0 <;> cases h
      · exact .inl ⟨.inr hnext, MessageSegment.count_eq_zero.2 h0, rfl, rfl⟩
      · exact .inr (.inl ⟨.inr hnext, rfl, by simp, rfl, rfl⟩)
    · cases h
      exact .inr (.inr ⟨mt left_eq_zero.1 (by simp), hnext, rfl, _, rfl⟩)

/-- The run is always the end of the segments read. -/
theorem assemble_suffix {hist : List MessageSegment} {a a' : Assembly} {segment : MessageSegment}
    {reply : Message.Reply} (h : a.segments <:+ hist) (hs : assemble a segment = some (a', reply)) :
    a'.segments <:+ hist ++ [segment] := by
  rcases assemble_cases hs with ⟨-, -, rfl, -⟩ | ⟨-, -, -, hkeep, -⟩ | ⟨-, -, rfl, -⟩
  · exact List.nil_suffix
  · rw [hkeep]
    obtain ⟨before, rfl⟩ := h
    exact ⟨before, by rw [List.append_assoc]⟩
  · exact List.nil_suffix

/-! ## Runs of the abstract machine -/

theorem counts_concat (segments : List MessageSegment) (segment : MessageSegment) :
    counts (segments ++ [segment]) = counts segments ++ [segment.count] := by
  simp [counts]

/-- A list of counts that go down to `e`, cut before its last one. -/
theorem counts_eq_countdown_concat {segments : List MessageSegment} {segment : MessageSegment}
    {e : ℕ} (h : counts (segments ++ [segment]) = countdown e (segments ++ [segment]).length) :
    counts segments = countdown (e + 1) segments.length ∧ segment.count = e := by
  rw [counts_concat, List.length_append, List.length_singleton, countdown_succ_concat] at h
  obtain ⟨h, h'⟩ := List.append_inj' h rfl
  exact ⟨h, List.singleton_inj.1 h'⟩

/-- **A segment that goes on with the open run**, or starts one, is kept; the last one completes the
message. -/
theorem assemble_fits (a : Assembly) (segment : MessageSegment)
    (hfits : a.left = 0 ∨ a.left = segment.count + 1) :
    (segment.count = 0 →
      assemble a segment = some (none, .ok (some (payload (a.segments ++ [segment]))))) ∧
    (segment.count ≠ 0 → ∃ run : OpenRun, run.segments = a.segments ++ [segment] ∧
      run.left.toNat = segment.count ∧ assemble a segment = some (some run, .ok none)) := by
  rw [Ne, MessageSegment.count_eq_zero]
  cases a with
  | none =>
    refine ⟨fun h0 => ?_, fun h0 => ⟨.start segment h0, rfl, rfl, ?_⟩⟩
    · rw [assemble, dif_pos h0]
      simp
    · rw [assemble, dif_neg h0]
  | some run =>
    have hnext : run.left.toNat = segment.count + 1 :=
      hfits.resolve_left fun h => absurd (left_eq_zero.1 h) (by simp)
    refine ⟨fun h0 => ?_, fun h0 => ⟨run.extend segment h0 hnext, rfl, rfl, ?_⟩⟩
    · rw [assemble, dif_pos hnext, dif_pos h0, segments_some]
    · rw [assemble, dif_pos hnext, dif_neg h0]

/-- A countdown that goes on with the open run, or starts one, and does not reach zero is kept, and
nothing is answered. -/
theorem run_assemble_countdown {a : Assembly} {segments : List MessageSegment}
    (hne : segments ≠ []) {e : ℕ} (he : 0 < e) (h : counts segments = countdown e segments.length)
    (hfits : a.left = 0 ∨ a.left = e + segments.length) :
    ∃ run : OpenRun, run.segments = a.segments ++ segments ∧ run.left.toNat = e ∧
      Mealy.run assemble a segments =
        some (some run, List.replicate segments.length (.ok none)) := by
  induction segments using List.reverseRecOn generalizing e with
  | nil => exact absurd rfl hne
  | append_singleton segments segment ih =>
    obtain ⟨hinit, hlast⟩ := counts_eq_countdown_concat h
    rw [List.length_append, List.length_singleton] at hfits
    by_cases hnil : segments = []
    · subst hnil
      obtain ⟨run, hsegs, hleft, hstep⟩ :=
        (assemble_fits a segment (by simpa [hlast, Nat.add_comm] using hfits)).2 (by omega)
      exact ⟨run, hsegs, by omega, Mealy.run_of_step hstep⟩
    · obtain ⟨mid, hmid, hleft, hrun⟩ := ih hnil (by omega) hinit (by omega)
      obtain ⟨run, hsegs, hleft', hstep⟩ :=
        (assemble_fits (some mid) segment (by rw [left_some]; omega)).2 (by omega)
      refine ⟨run, by rw [hsegs, segments_some, hmid, List.append_assoc], by omega, ?_⟩
      rw [List.length_append, List.length_singleton, List.replicate_succ']
      exact Mealy.run_append_of hrun (Mealy.run_of_step hstep)

/-- **Completeness.** A countdown to zero that goes on with the open run, or starts one, is
delivered with it at its last segment. -/
theorem run_assemble_block {a : Assembly} {segments : List MessageSegment}
    {segment : MessageSegment}
    (h : counts (segments ++ [segment]) = countdown 0 (segments ++ [segment]).length)
    (hfits : a.left = 0 ∨ a.left = segments.length + 1) :
    Mealy.run assemble a (segments ++ [segment]) =
      some (none, List.replicate segments.length (.ok none) ++
        [.ok (some (payload (a.segments ++ (segments ++ [segment]))))]) := by
  obtain ⟨hinit, hlast⟩ := counts_eq_countdown_concat h
  by_cases hnil : segments = []
  · subst hnil
    exact Mealy.run_of_step ((assemble_fits a segment (by simpa [hlast] using hfits)).1 hlast)
  · obtain ⟨run, hsegs, hleft, hrun⟩ :=
      run_assemble_countdown (a := a) hnil Nat.one_pos hinit (by omega)
    have hstep := (assemble_fits (some run) segment (by rw [left_some]; omega)).1 hlast
    rw [segments_some, hsegs, List.append_assoc] at hstep
    exact Mealy.run_append_of hrun (Mealy.run_of_step hstep)

/-- The segments `before` the open run leave nothing behind, and the run is all that follows. -/
def Opened (hist : List MessageSegment) (a : Assembly) : Prop :=
  (∃ replies, Mealy.run assemble none hist = some (a, replies)) ∧
    ∃ before replies, hist = before ++ a.segments ∧
      Mealy.run assemble none before = some (none, replies)

theorem Opened.step {hist : List MessageSegment} {a a' : Assembly} {segment : MessageSegment}
    {reply : Message.Reply} (h : Opened hist a) (hs : assemble a segment = some (a', reply)) :
    Opened (hist ++ [segment]) a' := by
  obtain ⟨⟨replies, hrun⟩, before, replies', hbefore, hnone⟩ := h
  have hrun' := Mealy.run_append_of hrun (Mealy.run_of_step hs)
  refine ⟨⟨_, hrun'⟩, ?_⟩
  rcases assemble_cases hs with ⟨-, -, rfl, -⟩ | ⟨-, -, -, hkeep, -⟩ | ⟨-, -, rfl, -⟩
  · exact ⟨hist ++ [segment], _, by simp, hrun'⟩
  · exact ⟨before, replies', by rw [hkeep, hbefore, List.append_assoc], hnone⟩
  · exact ⟨hist ++ [segment], _, by simp, hrun'⟩

theorem opened_of_run {hist : List MessageSegment} {a : Assembly} {replies : List Message.Reply}
    (h : Mealy.run assemble none hist = some (a, replies)) : Opened hist a := by
  have h₀ : Opened [] none := ⟨⟨[], rfl⟩, [], [], rfl, rfl⟩
  have := Mealy.run_history (P := Opened) (fun hist s i s' o => Opened.step) h₀ h
  rwa [List.nil_append] at this

/-- A segment that completes a message ends a countdown to zero. -/
theorem counts_complete {a : Assembly} {segment : MessageSegment}
    (hfits : a.left = 0 ∨ a.left = segment.count + 1) (h0 : segment.count = 0) :
    counts (a.segments ++ [segment]) = countdown 0 (a.segments.length + 1) := by
  rw [counts_concat, countdown_succ_concat, h0]
  cases a with
  | none => rfl
  | some run =>
    have hleft : run.left.toNat = 1 := by
      have := hfits.resolve_left fun h => absurd (left_eq_zero.1 h) (by simp)
      rwa [h0] at this
    rw [segments_some, run.counts_eq, hleft]

/-- **Soundness.** A delivery is the payload of the last segments read, a countdown to zero that
started between messages. -/
theorem delivered_block {hist : List MessageSegment} {a a' : Assembly} {segment : MessageSegment}
    {replies : List Message.Reply} {d : Bytes}
    (h : Mealy.run assemble none hist = some (a, replies))
    (hs : assemble a segment = some (a', .ok (some d))) :
    a' = none ∧ ∃ before segments replies', hist = before ++ segments ∧
      counts (segments ++ [segment]) = countdown 0 (segments.length + 1) ∧
      d = payload (segments ++ [segment]) ∧
      Mealy.run assemble none before = some (none, replies') := by
  rcases assemble_cases hs with ⟨hfits, h0, rfl, hd⟩ | ⟨-, -, -, -, hd⟩ | ⟨-, -, -, e, hd⟩
  · obtain ⟨-, before, replies', hbefore, hnone⟩ := opened_of_run h
    exact ⟨rfl, before, a.segments, replies', hbefore, counts_complete hfits h0,
      Option.some.inj (Except.ok.inj hd), hnone⟩
  · cases hd
  · cases hd

/-- An error is returned in a run, for a count that does not follow, and drops the run. -/
theorem assemble_error_iff {a : Assembly} {segment : MessageSegment} {a' : Assembly}
    {reply : Message.Reply} (h : assemble a segment = some (a', reply)) :
    (∃ e, reply = .error e) ↔ a.left ≠ 0 ∧ a.left ≠ segment.count + 1 := by
  rcases assemble_cases h with ⟨hfits, -, -, rfl⟩ | ⟨hfits, -, -, -, rfl⟩ | ⟨hopen, hne, -, he⟩
  · simpa using fun h0 => hfits.resolve_left h0
  · simpa using fun h0 => hfits.resolve_left h0
  · simp [he, hopen, hne]

theorem assemble_error_state {a : Assembly} {segment : MessageSegment} {a' : Assembly}
    {e : NethernetError} (h : assemble a segment = some (a', .error e)) : a' = none := by
  rcases assemble_cases h with ⟨-, -, hnone, -⟩ | ⟨-, -, -, -, hd⟩ | ⟨-, -, hnone, -⟩
  · exact hnone
  · cases hd
  · exact hnone

end Assembly

/-- The accumulator follows the abstract machine on segments with counts up to 254. -/
theorem run_add_segment_of_run (b : Build) {segments : List MessageSegment}
    (h254 : ∀ segment ∈ segments, segment.count ≤ 254) {a a' : Assembly}
    {replies : List Message.Reply}
    (h : Mealy.run Assembly.assemble a segments = some (a', replies)) :
    Mealy.run (Message.add_segment b) a.toMessage segments = some (a'.toMessage, replies) :=
  Mealy.run_refines (A := fun a segment => a = none → segment.count ≠ 255)
    (fun a segment a' reply => Assembly.add_segment_refines b a segment a' reply)
    (Mealy.along_of_forall (fun a segment hs _ => by have := h254 segment hs; omega) a) h

end Nethernet
