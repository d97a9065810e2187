import Nethernet.Protocol.Assembly

/-!
# The segments of a payload

The segments that `Message.split_into_segments` returns count down to zero, carry the payload and no
count above 254, and none is empty unless the payload is. So a new accumulator puts them together
again (`run_add_segment_segmentsOf`), and the frames of a payload that is not empty are decoded
(`codec_of_split`).
-/

namespace Nethernet

open Foundations

namespace Message

theorem counts_numbered {parts : List Bytes} (h : parts.length ≤ 256) :
    counts (numbered parts) = countdown 0 parts.length := by
  induction parts with
  | nil => rfl
  | cons part parts ih =>
    rw [List.length_cons] at h
    rw [numbered, List.length_cons, countdown_succ, ← ih (by omega), counts, List.map_cons,
      MessageSegment.count, UInt8.toNat_ofNat_of_lt' (by rw [UInt8.size]; omega), Nat.zero_add]
    rfl

theorem payload_segmentsOf (data : Bytes) : payload (segmentsOf data) = data := by
  rw [payload, segmentsOf, map_data_numbered, flatten_chunks]

theorem segmentsOf_nil : segmentsOf [] = [⟨0, []⟩] := by
  rw [segmentsOf, chunks_of_le (by decide)]
  rfl

theorem payload_flatMap_segmentsOf (payloads : List Bytes) :
    payload (payloads.flatMap segmentsOf) = payloads.flatten := by
  induction payloads with
  | nil => rfl
  | cons data payloads ih =>
    rw [List.flatMap_cons, payload_append, payload_segmentsOf, ih, List.flatten_cons]

theorem segmentsOf_ne_nil (data : Bytes) : segmentsOf data ≠ [] := by
  apply List.ne_nil_of_length_pos
  rw [segmentsOf, length_numbered]
  exact List.length_pos_iff.2 (chunks_ne_nil _ _)

/-- **A payload is split** exactly when it is at most 255 full segments. -/
theorem split_ok_iff {b : Build} {data : Bytes} {segments : List MessageSegment} :
    split_into_segments b data = some (.ok segments) ↔
      data.length ≤ 255 * MAX_MESSAGE_SIZE ∧ segments = segmentsOf data := by
  rw [split_into_segments_eq, Option.some.injEq]
  split
  · exact iff_of_false nofun fun h => by omega
  · rw [Except.ok.injEq]
    exact ⟨fun h => ⟨by omega, h.symm⟩, fun h => h.2.symm⟩

theorem length_segmentsOf_le {data : Bytes} (h : data.length ≤ 255 * MAX_MESSAGE_SIZE) :
    (segmentsOf data).length ≤ 255 := by
  rw [segmentsOf, length_numbered]
  by_cases hlen : data.length ≤ MAX_MESSAGE_SIZE
  · simp [chunks_of_le hlen]
  · rw [length_chunks (by decide) (by omega), Nat.div_le_iff_le_mul_add_pred (by decide)]
    simp only [MAX_MESSAGE_SIZE] at *
    omega

theorem counts_segmentsOf {data : Bytes} (h : data.length ≤ 255 * MAX_MESSAGE_SIZE) :
    counts (segmentsOf data) = countdown 0 (segmentsOf data).length := by
  have hlen := length_segmentsOf_le h
  rw [segmentsOf, length_numbered] at *
  exact counts_numbered (by omega)

theorem count_le_of_mem_segmentsOf {data : Bytes} (h : data.length ≤ 255 * MAX_MESSAGE_SIZE) :
    ∀ segment ∈ segmentsOf data, segment.count ≤ 254 := by
  intro segment hs
  have hmem : segment.count ∈ counts (segmentsOf data) := List.mem_map_of_mem hs
  have hlen := length_segmentsOf_le h
  rw [counts_segmentsOf h, countdown, List.mem_reverse, List.mem_range'_1] at hmem
  omega

/-- A payload of two segments. -/
theorem segmentsOf_append {part rest : Bytes} (hpart : part.length = MAX_MESSAGE_SIZE)
    (hne : rest ≠ []) (hrest : rest.length ≤ MAX_MESSAGE_SIZE) :
    segmentsOf (part ++ rest) = [⟨1, part⟩, ⟨0, rest⟩] := by
  have hpos := List.length_pos_iff.2 hne
  rw [segmentsOf, chunks_of_lt (by decide) (by rw [List.length_append]; omega),
    List.take_left' hpart, List.drop_left' hpart, chunks_of_le hrest]
  rfl

/-- The bytes of one full segment. -/
def fullPart : Bytes := List.replicate MAX_MESSAGE_SIZE 1

theorem length_fullPart : fullPart.length = MAX_MESSAGE_SIZE := List.length_replicate

theorem split_into_segments_append (b : Build) {part : Bytes}
    (hpart : part.length = MAX_MESSAGE_SIZE) :
    split_into_segments b (part ++ [1]) = some (.ok [⟨1, part⟩, ⟨0, [1]⟩]) := by
  have hle : ¬ 255 * MAX_MESSAGE_SIZE < (part ++ [1]).length := by
    rw [List.length_append, hpart]
    decide
  rw [split_into_segments_eq, if_neg hle, segmentsOf_append hpart (by simp) (by decide)]

/-! ## A list of segments that is a split payload -/

/-- A segment as the splitter makes them: not empty, of at most `MAX_MESSAGE_SIZE` bytes, and of
that many unless it is the last. -/
structure Full (segment : MessageSegment) : Prop where
  ne_nil : segment.data ≠ []
  le : segment.data.length ≤ MAX_MESSAGE_SIZE
  eq : segment.count ≠ 0 → segment.data.length = MAX_MESSAGE_SIZE

theorem full_of_mem_numbered {parts : List Bytes} (h : Chunked MAX_MESSAGE_SIZE parts) :
    ∀ segment ∈ numbered parts, Full segment := by
  induction h with
  | last ne le =>
    intro segment hs
    obtain rfl := List.mem_singleton.1 hs
    exact ⟨ne, le, fun h => absurd rfl h⟩
  | cons full _ ih =>
    intro segment hs
    rcases List.mem_cons.1 hs with rfl | hs
    · exact ⟨List.ne_nil_of_length_pos (by rw [full]; decide), Nat.le_of_eq full, fun _ => full⟩
    · exact ih segment hs

theorem full_of_mem_segmentsOf {data : Bytes} (hne : data ≠ []) :
    ∀ segment ∈ segmentsOf data, Full segment :=
  full_of_mem_numbered (chunked_chunks (by decide) hne)

/-- What a payload is split into: one segment, or as many as full segments are needed, which carry
the payload and count down to zero. All but the last are full, and the counter holds their
number. -/
structure Split (data : Bytes) (segments : List MessageSegment) : Prop where
  length_eq : segments.length = if data.length ≤ MAX_MESSAGE_SIZE then 1
    else (data.length + MAX_MESSAGE_SIZE - 1) / MAX_MESSAGE_SIZE
  payload_eq : payload segments = data
  counts_eq : counts segments = (List.range segments.length).reverse
  full : ∀ segment ∈ segments.dropLast, segment.data.length = MAX_MESSAGE_SIZE
  last_le : ∀ segment ∈ segments.getLast?, segment.data.length ≤ MAX_MESSAGE_SIZE
  last_ne : ∀ segment ∈ segments.getLast?, 1 < segments.length → segment.data ≠ []
  toNat_length : (UInt8.ofNat segments.length).toNat = segments.length

/-- The parts of a payload of more than one segment. -/
theorem chunked_map_data {data : Bytes} (h : MAX_MESSAGE_SIZE < data.length) :
    Chunked MAX_MESSAGE_SIZE ((segmentsOf data).map (·.data)) := by
  rw [segmentsOf, map_data_numbered]
  exact chunked_chunks (by decide) (List.ne_nil_of_length_pos (by omega))

theorem length_segmentsOf (data : Bytes) :
    (segmentsOf data).length = if data.length ≤ MAX_MESSAGE_SIZE then 1
      else (data.length + MAX_MESSAGE_SIZE - 1) / MAX_MESSAGE_SIZE := by
  rw [segmentsOf, length_numbered]
  split
  · rename_i hle
    rw [chunks_of_le hle, List.length_singleton]
  · exact length_chunks (by decide) (by omega)

theorem split_segmentsOf {data : Bytes} (h : data.length ≤ 255 * MAX_MESSAGE_SIZE) :
    Split data (segmentsOf data) := by
  have hcounts : counts (segmentsOf data) = (List.range (segmentsOf data).length).reverse := by
    rw [counts_segmentsOf h, countdown, List.range_eq_range']
  have hcast : (UInt8.ofNat (segmentsOf data).length).toNat = (segmentsOf data).length :=
    UInt8.toNat_ofNat_of_lt' (Nat.lt_succ_of_le (length_segmentsOf_le h))
  by_cases hsmall : data.length ≤ MAX_MESSAGE_SIZE
  · have hone : segmentsOf data = [⟨0, data⟩] := by
      rw [segmentsOf, chunks_of_le hsmall]
      rfl
    refine ⟨length_segmentsOf data, payload_segmentsOf data, hcounts, ?_, ?_, ?_, hcast⟩ <;>
      rw [hone]
    · exact fun segment hs => absurd hs List.not_mem_nil
    · intro segment hs
      obtain rfl := Option.some.inj hs
      exact hsmall
    · exact fun segment _ hlt => absurd hlt (Nat.lt_irrefl 1)
  · have hchunked := chunked_map_data (Nat.not_le.1 hsmall)
    have hlast : ∀ segment ∈ (segmentsOf data).getLast?,
        segment.data ≠ [] ∧ segment.data.length ≤ MAX_MESSAGE_SIZE := by
      intro segment hs
      refine hchunked.of_getLast? _ ?_
      rw [List.getLast?_map]
      exact Option.mem_map_of_mem _ hs
    refine ⟨length_segmentsOf data, payload_segmentsOf data, hcounts, fun segment hs => ?_,
      fun segment hs => (hlast segment hs).2, fun segment hs _ => (hlast segment hs).1, hcast⟩
    refine hchunked.length_of_mem_dropLast _ ?_
    rw [← List.map_dropLast]
    exact List.mem_map_of_mem hs

/-- **The splitter, for every payload**: it refuses a payload of more than 255 full segments and
splits every other. With overflow checks and debug assertions or without, no counter underflows and
no assertion fails, since none of these ends in a panic. -/
theorem split_of_length (b : Build) (data : Bytes) :
    (split_into_segments b data = some (.error (.MessageTooLarge data.length)) ↔
        255 * MAX_MESSAGE_SIZE < data.length) ∧
      (data.length ≤ 255 * MAX_MESSAGE_SIZE →
        ∃ segments, split_into_segments b data = some (.ok segments) ∧ Split data segments) := by
  refine ⟨?_, fun h => ⟨_, split_ok_iff.2 ⟨h, rfl⟩, split_segmentsOf h⟩⟩
  rw [split_into_segments_eq, Option.some.injEq]
  split
  · rename_i hlt
    exact iff_of_true rfl hlt
  · rename_i hle
    exact iff_of_false (fun h => by cases h) hle

/-- A payload of one byte more than a segment is split. -/
theorem split_of_length_two : ∃ segments,
    split_into_segments .debug (fullPart ++ [1]) = some (.ok segments) ∧
      Split (fullPart ++ [1]) segments :=
  (split_of_length .debug _).2 (by rw [List.length_append, length_fullPart]; decide)

/-- **The codec on the frames of a payload**: they are all decoded to the segments they came from
exactly when the payload is not empty, and what the decoder accepts is the frame of a segment. -/
theorem codec_of_split (b : Build) {data : Bytes} {segments : List MessageSegment}
    (h : split_into_segments b data = some (.ok segments)) :
    ((∀ segment ∈ segments, MessageSegment.decode segment.encode = .ok segment) ↔ data ≠ []) ∧
      ∀ frame segment, MessageSegment.decode frame = .ok segment → segment.encode = frame := by
  obtain ⟨-, rfl⟩ := split_ok_iff.1 h
  refine ⟨⟨?_, fun hne segment hs => ?_⟩, fun frame segment hframe => ?_⟩
  · rintro hdecode rfl
    exact absurd (hdecode ⟨0, []⟩ (by simp [segmentsOf_nil])) (by decide)
  · exact MessageSegment.decode_encode (full_of_mem_segmentsOf hne segment hs).ne_nil
  · exact (MessageSegment.encode_of_decode hframe).1

/-- A payload of two segments goes through the codec. -/
theorem codec_of_split_two :
    ((∀ segment ∈ [⟨1, fullPart⟩, ⟨0, [1]⟩], MessageSegment.decode segment.encode = .ok segment) ↔
      fullPart ++ [1] ≠ []) ∧
      ∀ frame segment, MessageSegment.decode frame = .ok segment → segment.encode = frame :=
  codec_of_split .debug (split_into_segments_append .debug length_fullPart)

/-- The empty payload is split, and its frame is refused. -/
theorem decode_of_empty_payload : ¬ ∀ (b : Build) (data : Bytes) (segments : List MessageSegment),
    split_into_segments b data = some (.ok segments) →
      ∀ segment ∈ segments, MessageSegment.decode segment.encode = .ok segment :=
  fun h => absurd (h .debug [] [⟨0, []⟩] rfl ⟨0, []⟩ (by simp)) (by decide)

/-- Segments that count down to zero are numbered by how many follow. -/
theorem eq_numbered {segments : List MessageSegment}
    (h : counts segments = countdown 0 segments.length) :
    segments = numbered (segments.map (·.data)) := by
  induction segments with
  | nil => rfl
  | cons segment segments ih =>
    rw [counts_cons, List.length_cons, countdown_succ, Nat.zero_add] at h
    obtain ⟨hcount, hrest⟩ := List.cons.inj h
    have hrem : UInt8.ofNat segments.length = segment.remaining_segments := by
      rw [← hcount, MessageSegment.count, UInt8.ofNat_toNat]
    rw [List.map_cons, numbered, ← ih hrest, List.length_map, hrem]

theorem chunked_of_full {segments : List MessageSegment} (hne : segments ≠ [])
    (h : counts segments = countdown 0 segments.length)
    (hfull : ∀ segment ∈ segments, Full segment) :
    Chunked MAX_MESSAGE_SIZE (segments.map (·.data)) := by
  induction segments with
  | nil => exact absurd rfl hne
  | cons segment segments ih =>
    rw [counts_cons, List.length_cons, countdown_succ, Nat.zero_add] at h
    obtain ⟨hcount, hrest⟩ := List.cons.inj h
    have hsegment := hfull segment (by simp)
    by_cases hnil : segments = []
    · subst hnil
      exact .last hsegment.ne_nil hsegment.le
    · have hpos := List.length_pos_iff.2 hnil
      exact .cons (hsegment.eq (by omega)) (ih hnil hrest fun s hs => hfull s (by simp [hs]))

/-- **A countdown of full segments is a split payload.** -/
theorem eq_segmentsOf {segments : List MessageSegment} (hne : segments ≠ [])
    (h : counts segments = countdown 0 segments.length)
    (hfull : ∀ segment ∈ segments, Full segment) :
    segments = segmentsOf (payload segments) := by
  have hchunks := (chunked_of_full hne h hfull).eq_chunks (by decide)
  rw [segmentsOf, payload, ← hchunks, ← eq_numbered h]

/-- **The segments of a payload are reassembled**: a new accumulator returns the payload at the last
of them, nothing before it, and is new again. -/
theorem run_add_segment_segmentsOf (b : Build) {data : Bytes}
    (h : data.length ≤ 255 * MAX_MESSAGE_SIZE) :
    Mealy.run (add_segment b) new (segmentsOf data) =
      some (new,
        List.replicate ((segmentsOf data).length - 1) (.ok none) ++ [.ok (some data)]) := by
  obtain ⟨init, last, hinit⟩ := (List.eq_nil_or_concat' _).resolve_left (segmentsOf_ne_nil data)
  have hcounts := counts_segmentsOf h
  have hpayload := payload_segmentsOf data
  have h254 := count_le_of_mem_segmentsOf h
  rw [hinit] at hcounts hpayload h254 ⊢
  rw [List.length_append, List.length_singleton, Nat.add_sub_cancel, ← hpayload]
  have hrun := Assembly.run_assemble_block hcounts (.inl Assembly.left_none)
  exact run_add_segment_of_run b h254 hrun

end Message

end Nethernet
