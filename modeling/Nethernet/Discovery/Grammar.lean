import Nethernet.Discovery.Marshal

/-!
# The grammar of discovery packets

What `unmarshal` accepts. A datagram is the checksum of a plaintext and its encryption, and a
plaintext is a length, a header and the fields of a packet (`Plaintext`). `unmarshal_ok_iff` says
that every such datagram is accepted and nothing else, whatever the length says, and
`unmarshal_iff_grammar` that this is the grammar exactly where the length is right.
-/

namespace Nethernet

open Foundations Reader

namespace Hex

/-- Digits of either case, two by two, and the bytes they stand for. -/
inductive Digits : Bytes → Bytes → Prop
  | nil : Digits [] []
  | cons {c d : UInt8} {x y : ℕ} {digits data : Bytes} (hc : value c = some x)
      (hd : value d = some y) (rest : Digits digits data) :
      Digits (c :: d :: digits) (UInt8.ofNat (16 * x + y) :: data)

/-- Decoding accepts exactly the pairs of digits. -/
structure Exact (h : Hex) : Prop where
  decode_ok_iff : ∀ digits data, h.decode digits = .ok data ↔ Digits digits data

theorem Digits.even {digits data : Bytes} (h : Digits digits data) : digits.length % 2 = 0 := by
  induction h with
  | nil => rfl
  | cons _ _ _ ih =>
    rw [List.length_cons, List.length_cons]
    omega

theorem decodePairs_of_digits {digits data : Bytes} (h : Digits digits data) (i : ℕ) :
    decodePairs i digits = .ok data := by
  induction h generalizing i with
  | nil => rfl
  | cons hc hd _ ih => rw [decodePairs, hc, hd, ih]; rfl

theorem digits_of_decodePairs {i : ℕ} {digits data : Bytes} (h : decodePairs i digits = .ok data) :
    Digits digits data := by
  induction i, digits using decodePairs.induct generalizing data with
  | case1 i =>
    obtain rfl := Except.ok.inj h
    exact .nil
  | case2 i c => cases h
  | case3 i c d rest x y hd hc ih =>
    rw [decodePairs, hc, hd] at h
    rcases hrest : decodePairs (i + 2) rest with e | data'
    · rw [hrest] at h
      cases h
    · rw [hrest] at h
      obtain rfl := Except.ok.inj h
      exact .cons hc hd (ih hrest)
  | case4 i c d rest hc =>
    rw [decodePairs, hc] at h
    cases h
  | case5 i c d rest hd hc =>
    obtain ⟨x, hx⟩ := Option.ne_none_iff_exists'.1 hc
    rw [decodePairs, hx, hd] at h
    cases h

theorem lowercase_exact : lowercase.Exact where
  decode_ok_iff digits data := by
    constructor
    · intro h
      change (if digits.length % 2 = 0 then decodePairs 0 digits else _) = _ at h
      split at h
      · exact digits_of_decodePairs h
      · cases h
    · intro h
      exact (if_pos h.even).trans (decodePairs_of_digits h 0)

end Hex

/-! ## The grammar -/

/-- The bytes of the fields of a packet. The digits and the text are within the limit of byte
arrays; a length of two bytes leaves no text above it. -/
inductive Packet.Body : Packet → Bytes → Prop
  | Request : Body (.Request {}) []
  | Response {digits application_data : Bytes} (hdigits : Hex.Digits digits application_data)
      (hlen : digits.length ≤ MAX_BYTES) :
      Body (.Response ⟨application_data⟩) (bytesOf 4 digits.length ++ digits)
  | Message {recipient_id : UInt64} {data : String} (hlen : (as_bytes data).length ≤ MAX_BYTES) :
      Body (.Message ⟨recipient_id, data⟩)
        (bytesOf 8 recipient_id.toNat ++ (bytesOf 4 (as_bytes data).length ++ as_bytes data))

/-- A plaintext: a length, the ID of the packet, its sender, eight bytes and the fields. -/
def Plaintext (length : UInt16) (packet : Packet) (sender_id : UInt64) (payload : Bytes) : Prop :=
  ∃ padding body, padding.length = 8 ∧ packet.Body body ∧ payload = bytesOf 2 length.toNat ++
    (bytesOf 2 packet.id.toNat ++ (bytesOf 8 sender_id.toNat ++ (padding ++ body)))

/-- The datagram of a plaintext: its checksum, and the encryption of the padded plaintext. -/
def Datagram (c : Crypto) (payload data : Bytes) : Prop :=
  data = (c.finalize payload).toList ++ mapBlocks c.encrypt_block (Crypto.pad payload)

/-- The datagram of a packet, where the length is the number of bytes that follow it. -/
def Grammar (c : Crypto) (data : Bytes) (packet : Packet) (sender_id : UInt64) : Prop :=
  ∃ payload length, Datagram c payload data ∧ Plaintext length packet sender_id payload ∧
    length.toNat = (payload.drop 2).length

/-- Wherever the datagram is that of a plaintext, the length is the number of bytes that follow. -/
def Measured (c : Crypto) (data : Bytes) : Prop :=
  ∀ payload length packet sender_id, Datagram c payload data →
    Plaintext length packet sender_id payload → length.toNat = (payload.drop 2).length

/-! ## What is accepted -/

theorem ResponsePacket.accepts_read {h : Hex} (hh : h.Exact) :
    Accepts (ResponsePacket.read h) fun word packet => (Packet.Response packet).Body word := by
  have hdecode : ∀ digits, Accepts (do
      let application_data ← Reader.lift
        ((h.decode digits).mapError fun e => .Other s!"hex decode error: {e}")
      pure ⟨application_data⟩ : Read ResponsePacket)
      fun word packet => word = [] ∧ Hex.Digits digits packet.application_data := by
    intro digits
    refine ((accepts_lift_mapError _ _).bind_pure ResponsePacket.mk).congr fun word packet => ?_
    simp only [← hh.decode_ok_iff]
    constructor
    · rintro ⟨application_data, ⟨rfl, hdata⟩, rfl⟩
      exact ⟨rfl, hdata⟩
    · rintro ⟨rfl, hdata⟩
      exact ⟨packet.application_data, ⟨rfl, hdata⟩, rfl⟩
  refine (accepts_read_bytes_u32.bind hdecode).congr fun word packet => ?_
  constructor
  · rintro ⟨_, digits, _, ⟨hlen, rfl⟩, ⟨rfl, hdigits⟩, rfl⟩
    rw [List.append_nil]
    exact .Response hdigits hlen
  · rintro (_ | ⟨hdigits, hlen⟩)
    exact ⟨_, _, [], ⟨hlen, rfl⟩, ⟨rfl, hdigits⟩, (List.append_nil _).symm⟩

theorem MessagePacket.accepts_read :
    Accepts MessagePacket.read fun word packet => (Packet.Message packet).Body word := by
  have hdecode : ∀ recipient_id data_bytes, Accepts (do
      let data ← Reader.lift
        ((from_utf8 data_bytes).mapError fun e => .Other s!"invalid UTF-8: {e}")
      pure ⟨recipient_id, data⟩ : Read MessagePacket)
      fun word packet => word = [] ∧ recipient_id = packet.recipient_id ∧
        as_bytes packet.data = data_bytes := by
    intro recipient_id data_bytes
    refine ((accepts_lift_mapError _ _).bind_pure (MessagePacket.mk recipient_id)).congr
      fun word packet => ?_
    simp only [← from_utf8_eq_ok]
    constructor
    · rintro ⟨data, ⟨rfl, hdata⟩, rfl⟩
      exact ⟨rfl, rfl, hdata⟩
    · rintro ⟨rfl, rfl, hdata⟩
      exact ⟨packet.data, ⟨rfl, hdata⟩, rfl⟩
  refine (accepts_u64.bind fun recipient_id =>
    accepts_read_bytes_u32.bind (hdecode recipient_id)).congr fun word packet => ?_
  constructor
  · rintro ⟨_, _, _, rfl, ⟨_, _, _, ⟨hlen, rfl⟩, ⟨rfl, rfl, rfl⟩, rfl⟩, rfl⟩
    rw [List.append_nil]
    exact .Message hlen
  · rintro (_ | _ | hlen)
    exact ⟨_, _, _, rfl, ⟨_, _, [], ⟨hlen, rfl⟩, ⟨rfl, rfl, rfl⟩, (List.append_nil _).symm⟩, rfl⟩

/-- The fields of the packet with this ID. -/
theorem Packet.accepts_read {h : Hex} (hh : h.Exact) (packet_id : UInt16) :
    Accepts (Packet.read h packet_id) fun word packet => packet.id = packet_id ∧
      packet.Body word := by
  rw [Packet.read]
  split
  · rename_i hid
    subst hid
    refine ((accepts_pure {}).map Packet.Request).congr fun word packet => ?_
    constructor
    · rintro ⟨_, ⟨rfl, rfl⟩, rfl⟩
      exact ⟨rfl, .Request⟩
    · rintro ⟨hid, _ | _ | _⟩
      · exact ⟨{}, ⟨rfl, rfl⟩, rfl⟩
      · cases hid
      · cases hid
  · split
    · rename_i hid
      subst hid
      refine ((ResponsePacket.accepts_read hh).map Packet.Response).congr fun word packet => ?_
      constructor
      · rintro ⟨packet, hbody, rfl⟩
        exact ⟨rfl, hbody⟩
      · rintro ⟨hid, hbody⟩
        cases packet with
        | Request packet => cases hid
        | Response packet => exact ⟨packet, hbody, rfl⟩
        | Message packet => cases hid
    · split
      · rename_i hid
        subst hid
        refine (MessagePacket.accepts_read.map Packet.Message).congr fun word packet => ?_
        constructor
        · rintro ⟨packet, hbody, rfl⟩
          exact ⟨rfl, hbody⟩
        · rintro ⟨hid, hbody⟩
          cases packet with
          | Request packet => cases hid
          | Response packet => cases hid
          | Message packet => exact ⟨packet, hbody, rfl⟩
      · rename_i hrequest hresponse hmessage
        refine (accepts_throw _).congr fun word packet => iff_of_false not_false ?_
        rintro ⟨rfl, -⟩
        cases packet with
        | Request packet => exact hrequest rfl
        | Response packet => exact hresponse rfl
        | Message packet => exact hmessage rfl

/-- The padding of a header is any eight bytes. -/
theorem Header.accepts_read : Accepts Header.read fun word header => ∃ padding : Bytes,
    padding.length = 8 ∧ word = bytesOf 2 header.packet_id.toNat ++
      (bytesOf 8 header.sender_id.toNat ++ padding) := by
  refine (accepts_u16.bind fun packet_id => accepts_u64.bind fun sender_id =>
    (accepts_exact _ 8).bind fun _ =>
      accepts_pure (Header.mk packet_id sender_id)).congr fun word header => ?_
  constructor
  · rintro ⟨_, _, _, rfl, ⟨_, _, _, rfl, ⟨padding, _, _, ⟨hlen, rfl⟩, ⟨rfl, rfl⟩, rfl⟩, rfl⟩, rfl⟩
    exact ⟨padding, hlen, by rw [List.append_nil]⟩
  · rintro ⟨padding, hlen, rfl⟩
    exact ⟨_, _, _, rfl, ⟨_, _, _, rfl, ⟨padding, padding, [], ⟨hlen, rfl⟩, ⟨rfl, rfl⟩, rfl⟩, rfl⟩,
      by rw [List.append_nil]⟩

theorem accepts_read_payload {h : Hex} (hh : h.Exact) : Accepts (read_payload h)
    fun word decoded => ∃ length, Plaintext length decoded.1 decoded.2 word := by
  refine (accepts_u16.bind fun _ => Header.accepts_read.bind fun header =>
    (Packet.accepts_read hh header.packet_id).bind fun packet =>
      accepts_pure (packet, header.sender_id)).congr fun word decoded => ?_
  constructor
  · rintro ⟨_, length, _, rfl, ⟨_, _, _, ⟨padding, hlen, rfl⟩, ⟨body, packet, _, ⟨hid, hbody⟩,
      ⟨rfl, rfl⟩, rfl⟩, rfl⟩, rfl⟩
    refine ⟨length, padding, body, hlen, hbody, ?_⟩
    simp only [hid, List.append_assoc, List.append_nil]
  · rintro ⟨length, padding, body, hlen, hbody, rfl⟩
    refine ⟨_, length, _, rfl, ⟨_, ⟨decoded.1.id, decoded.2⟩, _, ⟨padding, hlen, rfl⟩, ⟨body,
      decoded.1, [], ⟨rfl, hbody⟩, ⟨rfl, rfl⟩, rfl⟩, rfl⟩, ?_⟩
    simp only [List.append_assoc, List.append_nil]

/-- A plaintext is parsed to its end. -/
theorem parse_payload_ok_iff {h : Hex} (hh : h.Exact) {payload : Bytes} {packet : Packet}
    {sender_id : UInt64} : parse_payload h payload = .ok (packet, sender_id) ↔
      ∃ length, Plaintext length packet sender_id payload := by
  have haccepts := accepts_read_payload hh payload
  constructor
  · intro hparse
    rcases hread : read_payload h payload with e | ⟨decoded, rest⟩
    · rw [parse_payload_of_error hread] at hparse
      cases hparse
    · obtain ⟨word, hword, hpayload⟩ := (haccepts decoded rest).1 hread
      have hlen : payload.length = word.length + rest.length := by
        rw [hpayload, List.length_append]
      change (read_payload h payload >>= _) = _ at hparse
      rw [hread] at hparse
      change (if payload.length - rest.length < payload.length then _ else _) = _ at hparse
      split at hparse
      · cases hparse
      · obtain rfl := Except.ok.inj hparse
        obtain rfl : rest = [] := List.eq_nil_of_length_eq_zero (by omega)
        rw [List.append_nil] at hpayload
        exact hpayload ▸ hword
  · rintro hplaintext
    exact parse_payload_of_read ((haccepts _ []).2
      ⟨payload, hplaintext, (List.append_nil payload).symm⟩)

/-- **What is accepted**: the datagram of a plaintext, whatever its length says. -/
theorem unmarshal_ok_iff {c : Crypto} (hc : c.Exact) {h : Hex} (hh : h.Exact) {data : Bytes}
    {packet : Packet} {sender_id : UInt64} :
    unmarshal c h data = .ok (packet, sender_id) ↔
      ∃ payload length, Datagram c payload data ∧ Plaintext length packet sender_id payload := by
  constructor
  · intro hok
    by_cases hshort : data.length < 32
    · rw [unmarshal, dif_pos hshort] at hok
      cases hok
    · have hdata : data = (firstBlock data (Nat.not_lt.1 hshort)).toList ++ data.drop 32 := by
        rw [firstBlock, Vector.toList_mk, List.take_append_drop]
      rw [hdata, unmarshal_append] at hok
      rcases hpayload : c.decrypt (data.drop 32) with e | payload
      · rw [hpayload] at hok
        cases hok
      · rw [hpayload] at hok
        change (if _ then parse_payload h payload else _) = _ at hok
        split at hok
        · rename_i hverify
          obtain ⟨length, hplaintext⟩ := (parse_payload_ok_iff hh).1 hok
          refine ⟨payload, length, ?_, hplaintext⟩
          rw [Datagram, ← (Crypto.decrypt_ok_iff hc.inverse).1 hpayload,
            ← (hc.verify_slice_iff payload _).1 hverify]
          exact hdata
        · cases hok
  · rintro ⟨payload, length, rfl, hplaintext⟩
    rw [unmarshal_eq hc.toLawful]
    exact (parse_payload_ok_iff hh).2 ⟨length, hplaintext⟩

/-- A datagram has one plaintext. -/
theorem Datagram.unique {c : Crypto} (hc : c.Exact) {payload payload' data : Bytes}
    (h : Datagram c payload data) (h' : Datagram c payload' data) : payload = payload' := by
  have hpayload := Crypto.decrypt_encrypt hc.decrypt_encrypt payload
  have hpayload' := Crypto.decrypt_encrypt hc.decrypt_encrypt payload'
  have hcipher := (List.append_inj (h.symm.trans h') (by simp)).2
  rw [hcipher] at hpayload
  exact Except.ok.inj (hpayload.symm.trans hpayload')

/-- A plaintext has one length. -/
theorem Plaintext.length_unique {length length' : UInt16} {packet packet' : Packet}
    {sender_id sender_id' : UInt64} {payload : Bytes}
    (h : Plaintext length packet sender_id payload)
    (h' : Plaintext length' packet' sender_id' payload) : length = length' := by
  obtain ⟨padding, body, -, -, rfl⟩ := h
  obtain ⟨padding', body', -, -, heq⟩ := h'
  have hbytes := (List.append_inj heq (by simp)).1
  have hval := congrArg valueOf hbytes
  rw [valueOf_bytesOf length.toNat_lt, valueOf_bytesOf length'.toNat_lt] at hval
  exact UInt16.toNat_inj.1 hval

/-- **`unmarshal` accepts exactly the grammar** on the datagrams whose length is right, if they have
one. -/
theorem unmarshal_iff_grammar {c : Crypto} (hc : c.Exact) {h : Hex} (hh : h.Exact) (data : Bytes) :
    (∀ packet sender_id, unmarshal c h data = .ok (packet, sender_id) ↔
      Grammar c data packet sender_id) ↔ Measured c data := by
  constructor
  · intro hiff payload length packet sender_id hdatagram hplaintext
    obtain ⟨payload', length', hdatagram', hplaintext', hlength⟩ := (hiff packet sender_id).1
      ((unmarshal_ok_iff hc hh).2 ⟨payload, length, hdatagram, hplaintext⟩)
    obtain rfl := hdatagram.unique hc hdatagram'
    obtain rfl := hplaintext.length_unique hplaintext'
    exact hlength
  · intro hmeasured packet sender_id
    rw [unmarshal_ok_iff hc hh]
    constructor
    · rintro ⟨payload, length, hdatagram, hplaintext⟩
      exact ⟨payload, length, hdatagram, hplaintext,
        hmeasured payload length packet sender_id hdatagram hplaintext⟩
    · rintro ⟨payload, length, hdatagram, hplaintext, -⟩
      exact ⟨payload, length, hdatagram, hplaintext⟩

/-- The request of node 7. -/
def request : Bytes :=
  [161, 170, 23, 51, 39, 182, 234, 190, 235, 52, 212, 216, 181, 36, 33, 25, 187, 135, 159, 41, 250,
    228, 56, 120, 231, 233, 131, 203, 57, 7, 236, 165, 229, 60, 77, 246, 232, 246, 39, 48, 231, 74,
    235, 153, 3, 167, 131, 124, 255, 15, 135, 9, 225, 59, 246, 133, 142, 32, 81, 195, 33, 219, 97,
    94]

/-- The request of node 7 is accepted as the grammar says, as far as its length is right. -/
theorem unmarshal_iff_grammar_request :
    (∀ packet sender_id, unmarshal .ofDiscovery .lowercase request = .ok (packet, sender_id) ↔
      Grammar .ofDiscovery request packet sender_id) ↔ Measured .ofDiscovery request :=
  unmarshal_iff_grammar Crypto.ofDiscovery_exact Hex.lowercase_exact request

/-- The request of node 7 with the length 0. -/
def unmeasured : Bytes :=
  [22, 2, 246, 205, 145, 41, 159, 24, 171, 235, 246, 108, 243, 50, 166, 197, 144, 210, 77, 224, 175,
    210, 12, 31, 78, 79, 254, 80, 72, 63, 170, 42, 12, 225, 127, 180, 203, 148, 103, 217, 229, 162,
    188, 149, 219, 136, 201, 161, 255, 15, 135, 9, 225, 59, 246, 133, 142, 32, 81, 195, 33, 219, 97,
    94]

/-- A request with the length 0 is accepted. -/
theorem unmarshal_not_grammar : ¬ ∀ data packet sender_id,
    unmarshal .ofDiscovery .lowercase data = .ok (packet, sender_id) ↔
      Grammar .ofDiscovery data packet sender_id := by
  intro hall
  obtain ⟨payload, length, hdatagram, hplaintext, hlength⟩ :=
    (hall unmeasured (.Request {}) 7).1 (by decide +kernel)
  have hpayload : Datagram .ofDiscovery [0, 0, 0, 0, 7, 0, 0, 0, 0, 0, 0, 0, 0, 0, 0, 0, 0, 0, 0, 0]
      unmeasured := by
    rw [Datagram]
    decide +kernel
  obtain rfl := hpayload.unique Crypto.ofDiscovery_exact hdatagram
  have hzero : Plaintext 0 (.Request {}) 7 _ := ⟨List.replicate 8 0, [], rfl, .Request, rfl⟩
  rw [hplaintext.length_unique hzero] at hlength
  cases hlength

end Nethernet
