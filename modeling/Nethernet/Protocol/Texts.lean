import Nethernet.Protocol.Negotiation

/-!
# The texts of signaling

What `Signal::from_string` and `NegotiationMessage::parse` accept of all texts, not only of those
that are printed. `parsers_agree`: a text is a message exactly when it is a signal of its type and
id whose data the message carries, so the two parsers never read one text as different things.
-/

namespace Nethernet

open Foundations

/-- A number holds no space, however it is spelled. -/
theorem Spells.space_not_mem {s : String} {n : ℕ} (h : Spells s n) : ' ' ∉ s.toList := by
  obtain ⟨sign, zeros, hsign, hs⟩ := h
  rw [hs]
  simp only [List.mem_append, not_or]
  refine ⟨?_, fun hzero => ?_, fun hdigit => ?_⟩
  · rcases hsign with rfl | rfl <;> decide
  · exact absurd (List.eq_of_mem_replicate hzero) (by decide)
  · exact absurd (Nat.isDigit_of_mem_toDigits (by decide) (by decide) hdigit) (by decide)

theorem parse_u8_eq_ok {s : String} {n : UInt8} : parse_u8 s = .ok n ↔ Spells s n.toNat := by
  rw [parse_u8]
  constructor
  · intro h
    cases hparse : parse_uint UInt8.size s with
    | error e =>
      rw [hparse] at h
      cases h
    | ok value =>
      rw [hparse] at h
      obtain rfl := Except.ok.inj h
      obtain ⟨hlt, hspells⟩ := parse_uint_eq_ok.1 hparse
      rwa [UInt8.toNat_ofNat_of_lt' hlt]
  · intro h
    rw [parse_uint_eq_ok.2 ⟨n.toNat_lt, h⟩, Except.map, UInt8.ofNat_toNat]

/-- **What is a signal**: the line of its type, some spelling of its id, and its data. -/
theorem Signal.from_string_eq_ok {s network_id : String} {signal : Signal} :
    from_string s network_id = .ok signal ↔ signal.network_id = network_id ∧
      ∃ spelling, Spells spelling signal.connection_id.toNat ∧
        s = line signal.signal_type.as_str spelling signal.data := by
  constructor
  · exact eq_line_of_from_string
  · rintro ⟨rfl, spelling, hspells, rfl⟩
    rw [from_string, splitn_line (SignalType.space_not_mem_as_str _) hspells.space_not_mem]
    simp only [SignalType.from_str_as_str, parse_u64_eq_ok.2 hspells]
    rfl

namespace NegotiationMessage

/-- The text after the id that is read as the payload of a message. -/
def Carries : NegotiationMessage → String → Prop
  | ConnectError _ error, text => Spells text error.code.toNat
  | m, text => m.payload = text ∧ is_blank text = false

theorem validate_payload_eq_ok {error_msg text payload : String} :
    validate_payload error_msg (some text) = .ok payload ↔
      text = payload ∧ is_blank text = false := by
  show (if is_blank text = true then Except.error (NethernetError.Other error_msg)
    else .ok text) = _ ↔ _
  by_cases hblank : is_blank text = true
  · rw [if_pos hblank]
    exact iff_of_false (fun h => by cases h) fun h => Bool.false_ne_true (h.2.symm.trans hblank)
  · rw [if_neg hblank, Except.ok.injEq, and_iff_left (Bool.eq_false_iff.2 hblank)]

theorem parse_error_eq_ok {text : String} {error : Nethernet.ConnectError} :
    parse_error (some text) = .ok error ↔ Spells text error.code.toNat := by
  rw [← parse_u8_eq_ok]
  cases hparse : parse_u8 text with
  | error e =>
    rw [parse_error, hparse]
    exact iff_of_false (fun h => by cases h) fun h => by cases h
  | ok code =>
    have hread : parse_error (some text) = (ConnectError.from_code code).elim
        (.error (.Other s!"unknown error code: {code}")) .ok := by
      simp only [parse_error, hparse, Except.mapError, bind, Except.bind]
      cases ConnectError.from_code code <;> rfl
    rw [hread, Except.ok.injEq, eq_comm (b := error.code), ← ConnectError.from_code_eq_some]
    cases ConnectError.from_code code <;> simp

/-- What follows the id decides about the message. -/
theorem read_eq_ok {signal_type : SignalType} {connection_id : UInt64} {text : String}
    {m : NegotiationMessage} : read signal_type connection_id text = .ok m ↔
      m.signal_type = signal_type ∧ m.connection_id = connection_id ∧ m.Carries text := by
  have hmap : ∀ {α : Type} {x : Except NethernetError α} {f : α → NegotiationMessage},
      x.map f = .ok m ↔ ∃ a, x = .ok a ∧ f a = m := by
    intro α x f
    cases x <;> simp [Except.map]
  cases signal_type with
  | Offer | Answer | Candidate =>
    unfold read
    simp only [hmap, validate_payload_eq_ok]
    constructor
    · rintro ⟨payload, ⟨rfl, hblank⟩, rfl⟩
      exact ⟨rfl, rfl, rfl, hblank⟩
    · rintro ⟨htype, rfl, hcarries⟩
      cases m <;> cases htype
      exact ⟨_, ⟨rfl, hcarries.2⟩, congrArg _ hcarries.1.symm⟩
  | Error =>
    unfold read
    simp only [hmap, parse_error_eq_ok]
    constructor
    · rintro ⟨error, hspells, rfl⟩
      exact ⟨rfl, rfl, hspells⟩
    · rintro ⟨htype, rfl, hcarries⟩
      cases m <;> cases htype
      exact ⟨_, hcarries, rfl⟩

/-- A line is read whatever the spelling of its id. -/
theorem parse_line {signal_type : SignalType} {connection_id : UInt64} {spelling : String}
    (h : Spells spelling connection_id.toNat) (text : String) :
    parse (line signal_type.as_str spelling text) = read signal_type connection_id text := by
  rw [parse, splitn_line (SignalType.space_not_mem_as_str _) h.space_not_mem]
  simp only [parse_u64_eq_ok.2 h]
  cases signal_type <;> rfl

/-- A text that is read is a line. -/
theorem line_of_parse {s : String} {m : NegotiationMessage} (h : parse s = .ok m) :
    ∃ (signal_type : SignalType) (connection_id : UInt64) (spelling text : String),
      Spells spelling connection_id.toNat ∧ s = line signal_type.as_str spelling text := by
  unfold parse at h
  split at h
  · rename_i message_type spelling rest hsplit
    cases hid : parse_u64 spelling with
    | error e =>
      rw [hid] at h
      cases h
    | ok connection_id =>
      simp only [hid, Except.mapError, bind, Except.bind] at h
      cases rest with
      | nil =>
        -- no payload, so no message
        split at h <;> cases h
      | cons text more =>
        have hmore : more = [] := by
          have hlength := congrArg List.length hsplit
          have hle := length_splitn_le 3 ' ' s.toList
          simp only [List.length_map, List.length_cons] at hlength
          exact List.length_eq_zero_iff.1 (by omega)
        subst hmore
        have htype : ∃ signal_type : SignalType, message_type = signal_type.as_str := by
          split at h
          · exact ⟨.Offer, rfl⟩
          · exact ⟨.Answer, rfl⟩
          · exact ⟨.Candidate, rfl⟩
          · exact ⟨.Error, rfl⟩
          · cases h
        obtain ⟨signal_type, rfl⟩ := htype
        exact ⟨signal_type, connection_id, spelling, text, parse_u64_eq_ok.1 hid,
          eq_line_of_splitn hsplit⟩
  · cases h

/-- **What is a message**: the line of its type, some spelling of its id, and what it carries. -/
theorem parse_eq_ok {s : String} {m : NegotiationMessage} : parse s = .ok m ↔
    ∃ spelling text, Spells spelling m.connection_id.toNat ∧
      s = line m.message_type spelling text ∧ m.Carries text := by
  constructor
  · intro h
    obtain ⟨signal_type, connection_id, spelling, text, hspells, rfl⟩ := line_of_parse h
    obtain ⟨rfl, rfl, hcarries⟩ := read_eq_ok.1 ((parse_line hspells text).symm.trans h)
    exact ⟨spelling, text, hspells, by rw [message_type_eq_as_str], hcarries⟩
  · rintro ⟨spelling, text, hspells, rfl, hcarries⟩
    rw [message_type_eq_as_str, parse_line hspells]
    exact read_eq_ok.2 ⟨rfl, rfl, hcarries⟩

/-- **The two parsers agree on every text**: each accepts the lines of its grammar, and a text is
read as a message exactly when it is read as a signal of the type and the id of the message, whose
data the message carries. -/
theorem parsers_agree (s network_id : String) :
    (∀ signal : Signal, Signal.from_string s network_id = .ok signal ↔
        signal.network_id = network_id ∧ ∃ spelling, Spells spelling signal.connection_id.toNat ∧
          s = line signal.signal_type.as_str spelling signal.data) ∧
      (∀ m : NegotiationMessage, parse s = .ok m ↔ ∃ spelling text,
        Spells spelling m.connection_id.toNat ∧ s = line m.message_type spelling text ∧
          m.Carries text) ∧
      ∀ m : NegotiationMessage, parse s = .ok m ↔ ∃ signal,
        Signal.from_string s network_id = .ok signal ∧ signal.signal_type = m.signal_type ∧
          signal.connection_id = m.connection_id ∧ m.Carries signal.data := by
  refine ⟨fun signal => Signal.from_string_eq_ok, fun m => parse_eq_ok, fun m => ?_⟩
  rw [parse_eq_ok]
  constructor
  · rintro ⟨spelling, text, hspells, hline, hcarries⟩
    rw [message_type_eq_as_str] at hline
    exact ⟨⟨m.signal_type, m.connection_id, text, network_id⟩,
      Signal.from_string_eq_ok.2 ⟨rfl, spelling, hspells, hline⟩, rfl, rfl, hcarries⟩
  · rintro ⟨signal, hsignal, htype, hid, hcarries⟩
    obtain ⟨-, spelling, hspells, hline⟩ := Signal.from_string_eq_ok.1 hsignal
    rw [htype, ← message_type_eq_as_str] at hline
    exact ⟨spelling, signal.data, hid ▸ hspells, hline, hcarries⟩

end NegotiationMessage

end Nethernet
