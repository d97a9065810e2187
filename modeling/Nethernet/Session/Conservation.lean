import Nethernet.Session.Send

/-!
# No byte is invented

The receiver delivers at most the bytes it reads. If it delivers them all, the segments it read were
whole messages, one after the other (`messages_of_conserved`).
-/

namespace Nethernet

open Foundations Receiver

/-- What a run of the abstract machine keeps: the bytes delivered and those of the open run are at
most the bytes read, and as many only if the segments read are the messages delivered, one after the
other, and then the open run. -/
structure Conserved (segments : List MessageSegment) (a : Assembly) (messages : List Bytes) :
    Prop where
  le : messages.flatten.length + (payload a.segments).length ≤ (payload segments).length
  blocks : (payload segments).length ≤ messages.flatten.length + (payload a.segments).length →
    ∃ blocks : List (List MessageSegment), segments = blocks.flatten ++ a.segments ∧
      (∀ block ∈ blocks, block ≠ [] ∧ counts block = countdown 0 block.length) ∧
      messages = blocks.map payload

theorem Conserved.step {segments : List MessageSegment} {a a' : Assembly} {messages : List Bytes}
    {segment : MessageSegment} {reply : Message.Reply} (h : Conserved segments a messages)
    (hne : segment.data ≠ []) (hs : Assembly.assemble a segment = some (a', reply)) :
    Conserved (segments ++ [segment]) a' (messages ++ completed reply) := by
  have hpos := List.length_pos_iff.2 hne
  have hle := h.le
  have hread : (payload (segments ++ [segment])).length =
      (payload segments).length + segment.data.length := by simp
  rcases Assembly.assemble_cases hs with
    ⟨hfits, h0, rfl, rfl⟩ | ⟨-, -, -, hkeep, rfl⟩ | ⟨-, -, rfl, e, rfl⟩
  · have hsum :
        (messages ++ completed (.ok (some (payload (a.segments ++ [segment]))))).flatten.length =
          messages.flatten.length + (payload a.segments).length + segment.data.length := by
      simp [Nat.add_assoc]
    refine ⟨by rw [hsum, hread, Assembly.segments_none, payload_nil, List.length_nil]; omega,
      fun hge => ?_⟩
    rw [hsum, hread, Assembly.segments_none, payload_nil, List.length_nil] at hge
    obtain ⟨blocks, hsegments, hblocks, hmessages⟩ := h.blocks (by omega)
    refine ⟨blocks ++ [a.segments ++ [segment]], by simp [hsegments], ?_, by
      simp [hmessages]⟩
    intro block hblock
    rcases List.mem_append.1 hblock with hblock | hblock
    · exact hblocks block hblock
    · obtain rfl := List.mem_singleton.1 hblock
      exact ⟨by simp, by rw [Assembly.counts_complete hfits h0, List.length_append]; rfl⟩
  · have hopen : (payload a'.segments).length =
        (payload a.segments).length + segment.data.length := by
      simp [hkeep]
    rw [completed_none, List.append_nil]
    refine ⟨by omega, fun hge => ?_⟩
    obtain ⟨blocks, hsegments, hblocks, hmessages⟩ := h.blocks (by omega)
    exact ⟨blocks, by rw [hkeep, hsegments, List.append_assoc], hblocks, hmessages⟩
  · rw [completed_error, List.append_nil]
    refine ⟨?_, fun hge => ?_⟩
    · rw [hread, Assembly.segments_none, payload_nil, List.length_nil]
      omega
    rw [hread, Assembly.segments_none, payload_nil, List.length_nil] at hge
    omega

theorem conserved_of_run {segments : List MessageSegment}
    (hne : ∀ segment ∈ segments, segment.data ≠ []) {a : Assembly} {replies : List Message.Reply}
    (h : Mealy.run Assembly.assemble none segments = some (a, replies)) :
    Conserved segments a (delivered replies) := by
  induction segments using List.reverseRecOn generalizing a replies with
  | nil =>
    cases h
    exact ⟨Nat.le_refl 0, fun _ => ⟨[], rfl, by simp, rfl⟩⟩
  | append_singleton segments segment ih =>
    obtain ⟨u, replies', reply, hr, hstep, rfl⟩ := Mealy.run_concat_eq_some.1 h
    have hrest := ih (fun s hs => hne s (by simp [hs])) hr
    have := hrest.step (hne segment (by simp)) hstep
    rwa [delivered_append, delivered_singleton]

/-- **All the bytes come from whole messages**: a receiver that delivers as many bytes as it reads
has read split payloads, one after the other, and delivered them in that order. -/
theorem messages_of_conserved {segments : List MessageSegment}
    (hfull : ∀ segment ∈ segments, Message.Full segment) {a : Assembly}
    {replies : List Message.Reply}
    (h : Mealy.run Assembly.assemble none segments = some (a, replies))
    (hge : (payload segments).length ≤ (delivered replies).flatten.length) :
    segments = (delivered replies).flatMap Message.segmentsOf := by
  have hconserved := conserved_of_run (fun segment hs => (hfull segment hs).ne_nil) h
  obtain ⟨blocks, hsegments, hblocks, hmessages⟩ := hconserved.blocks (by omega)
  have hle := hconserved.le
  have hopen : a.segments = [] := by
    by_contra hne
    obtain ⟨segment, rest, hrest⟩ := List.exists_cons_of_ne_nil hne
    have hpos := List.length_pos_iff.2 (hfull segment (by simp [hsegments, hrest])).ne_nil
    rw [hrest, payload_cons, List.length_append] at hle
    omega
  rw [hopen, List.append_nil] at hsegments
  have hsplit : blocks.map id = blocks.map fun block => Message.segmentsOf (payload block) := by
    refine List.map_congr_left fun block hblock => ?_
    obtain ⟨hne, hcounts⟩ := hblocks block hblock
    refine Message.eq_segmentsOf hne hcounts fun segment hs => hfull segment ?_
    rw [hsegments]
    exact List.mem_flatten_of_mem hblock hs
  rw [hmessages, List.flatMap_map, List.flatMap_def, ← hsplit, List.map_id, hsegments]

end Nethernet
