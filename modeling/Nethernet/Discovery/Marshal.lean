import Nethernet.Discovery.Crypto
import Nethernet.Discovery.Packet

/-!
# Marshalling

`marshal` and `unmarshal` of `src/protocol/packet/discovery/packet.rs`. The plaintext of a packet is
its length, the header and the packet's own fields; `marshal` puts the checksum of the plaintext in
front of its encryption.

`marshal_eq` gives the bytes of a packet, and `marshal_roundtrip` says for which packets `marshal`
succeeds and that `unmarshal` then returns the packet.
-/

namespace Nethernet

open Foundations Reader Writer

/-- Overwrite the bytes from `start` on. -/
def copy_from_slice (buf : Bytes) (start : ℕ) (src : Bytes) : Bytes :=
  buf.take start ++ src ++ buf.drop (start + src.length)

/-- Encode a packet with its sender. -/
def marshal (c : Crypto) (h : Hex) (packet : Packet) (sender_id : UInt64) :
    Except NethernetError Bytes :=
  -- placeholders for the checksum and the length
  let buf : Bytes := List.replicate 32 0 ++ List.replicate 2 0
  let header : Header := ⟨packet.id, sender_id⟩
  match (do header.write; packet.write h : Write) buf with
  | (.error e, _) => .error e
  | (.ok (), buf) =>
    let total_len := buf.length
    if 65535 < total_len - 32 then .error (.MessageTooLarge (total_len - 32))
    else do
      let data_len := UInt16.ofNat (total_len - 32 - 2)
      let buf := copy_from_slice buf 32 (bytesOf 2 data_len.toNat)
      let checksum := c.compute_checksum (buf.drop 32)
      let buf := copy_from_slice buf 0 checksum.toList
      let payload ← c.encrypt (buf.drop 32)
      .ok (buf.take 32 ++ payload)

/-- Read a plaintext: its length, which is not compared with anything, the header and the packet. -/
def read_payload (h : Hex) : Read (Packet × UInt64) := do
  let _length ← U16LE.read
  let header ← Header.read
  let packet ← Packet.read h header.packet_id
  pure (packet, header.sender_id)

/-- Read a plaintext to its end. -/
def parse_payload (h : Hex) (payload : Bytes) : Except NethernetError (Packet × UInt64) := do
  let (decoded, rest) ← read_payload h payload
  let cursor_position := payload.length - rest.length
  let payload_len := payload.length
  if cursor_position < payload_len then
    let remaining := payload_len - cursor_position
    .error (.Other (s!"trailing data in packet: {remaining} remaining bytes " ++
      s!"out of {payload_len} total payload bytes"))
  else .ok decoded

/-- Decode a packet and its sender. -/
def unmarshal (c : Crypto) (h : Hex) (data : Bytes) : Except NethernetError (Packet × UInt64) :=
  if hlen : data.length < 32 then .error (.Other "packet too short")
  else do
    let checksum : Checksum := firstBlock data (Nat.not_lt.1 hlen)
    let payload ← c.decrypt (data.drop 32)
    if c.verify_checksum payload checksum then parse_payload h payload
    else .error (.Other "checksum mismatch")

/-! ## The round trip -/

/-- What is encrypted: the length, the header and the fields. -/
def plaintext (h : Hex) (packet : Packet) (sender_id : UInt64) : Bytes :=
  bytesOf 2 (18 + (packet.bytes h).length) ++
    (Header.bytes ⟨packet.id, sender_id⟩ ++ packet.bytes h)

theorem length_plaintext {h : Hex} (hh : h.Lawful) (packet : Packet) (sender_id : UInt64) :
    (plaintext h packet sender_id).length = 20 + packet.body_len := by
  rw [plaintext, List.length_append, List.length_append, length_bytesOf, Header.length_bytes,
    packet.length_bytes hh]
  omega

/-- Bytes that are overwritten by as many. -/
theorem copy_from_slice_append {a b src : Bytes} {n : ℕ} (ha : a.length = n)
    (hb : b.length = src.length) (c : Bytes) :
    copy_from_slice (a ++ (b ++ c)) n src = a ++ (src ++ c) := by
  subst ha
  rw [copy_from_slice, List.take_left, ← hb, ← List.drop_drop, List.drop_left, List.drop_left,
    List.append_assoc]

/-- The length of a plaintext within the limit is read. -/
theorem reads_length {h : Hex} (hh : h.Lawful) {packet : Packet}
    (hlen : 20 + packet.body_len ≤ 65535) :
    Reads U16LE.read (bytesOf 2 (18 + (packet.bytes h).length))
      (UInt16.ofNat (18 + (packet.bytes h).length)) := by
  have hread := reads_u16 (UInt16.ofNat (18 + (packet.bytes h).length))
  rwa [UInt16.toNat_ofNat', Nat.mod_eq_of_lt (by rw [packet.length_bytes hh]; omega)] at hread

theorem le_max_bytes {n : ℕ} (h : 20 + n ≤ 65535) : n ≤ MAX_BYTES :=
  Nat.le_trans (by omega : n ≤ 65535) (by decide)

theorem read_payload_plaintext {h : Hex} (hh : h.Lawful) {packet : Packet} (sender_id : UInt64)
    (hlen : 20 + packet.body_len ≤ 65535) :
    read_payload h (plaintext h packet sender_id) = .ok ((packet, sender_id), []) := by
  have hfields : Reads (do
      let packet' ← Packet.read h packet.id
      pure (packet', sender_id) : Read (Packet × UInt64)) (packet.bytes h) (packet, sender_id) := by
    have := (Packet.reads_read hh (le_max_bytes hlen)).bind (f := fun p => pure (p, sender_id))
      (reads_pure _)
    rwa [List.append_nil] at this
  have hread : Reads (read_payload h) (plaintext h packet sender_id) (packet, sender_id) :=
    (reads_length hh hlen).bind ((Header.reads_read ⟨packet.id, sender_id⟩).bind hfields)
  have := hread []
  rwa [List.append_nil] at this

/-- A message that ends in the middle of its text is refused. -/
theorem read_payload_take {h : Hex} (hh : h.Lawful) {message : MessagePacket} (sender_id : UInt64)
    (hlen : 20 + (Packet.Message message).body_len ≤ 65535) {k : ℕ} (hk : 32 ≤ k)
    (hlt : k < 32 + (as_bytes message.data).length) :
    read_payload h ((plaintext h (.Message message) sender_id).take k) =
      .error (.Io "failed to fill whole buffer") := by
  have htake : (plaintext h (.Message message) sender_id).take k =
      bytesOf 2 (18 + ((Packet.Message message).bytes h).length) ++
        (Header.bytes ⟨ID_MESSAGE_PACKET, sender_id⟩ ++ message.bytes.take (k - 20)) := by
    rw [plaintext, List.take_append, List.take_append, length_bytesOf, Header.length_bytes,
      List.take_of_length_le (by rw [length_bytesOf]; omega),
      List.take_of_length_le (by rw [Header.length_bytes]; omega), Nat.sub_sub]
    rfl
  have hmax := le_max_bytes hlen
  rw [Packet.body_len] at hmax
  have htext : (as_bytes message.data).length ≤ MAX_BYTES := by omega
  have hmessage := MessagePacket.read_take htext (k := k - 20) (by omega) (by omega)
  rw [htake, read_payload, (reads_length hh hlen).bind_apply, (Header.reads_read _).bind_apply]
  exact bind_of_error (map_of_error hmessage Packet.Message) _

/-- The header and the fields, if they can be written. -/
theorem writes_header_write {h : Hex} {packet : Packet} (sender_id : UInt64)
    (hw : Writes (packet.write h) (packet.bytes h)) :
    Writes (do Header.write ⟨packet.id, sender_id⟩; packet.write h : Write)
      (Header.bytes ⟨packet.id, sender_id⟩ ++ packet.bytes h) :=
  (Header.writes_write _).bind hw

/-- `marshal` once the header and the fields have been written. -/
theorem marshal_of_writes (c : Crypto) {h : Hex} {packet : Packet} (sender_id : UInt64)
    (hw : Writes (packet.write h) (packet.bytes h)) :
    marshal c h packet sender_id =
      if 65535 < 20 + (packet.bytes h).length then
        .error (.MessageTooLarge (20 + (packet.bytes h).length))
      else .ok ((c.finalize (plaintext h packet sender_id)).toList ++
        mapBlocks c.encrypt_block (Crypto.pad (plaintext h packet sender_id))) := by
  have hwrite := writes_header_write sender_id hw (List.replicate 32 0 ++ List.replicate 2 0)
  have hlen : ((List.replicate 32 (0 : UInt8) ++ List.replicate 2 0) ++
      (Header.bytes ⟨packet.id, sender_id⟩ ++ packet.bytes h)).length - 32 =
        20 + (packet.bytes h).length := by
    simp only [List.length_append, List.length_replicate, Header.length_bytes]
    omega
  rw [marshal]
  simp only [hwrite, hlen]
  split
  · rfl
  · rename_i hle
    have hcount : (UInt16.ofNat (20 + (packet.bytes h).length - 2)).toNat =
        18 + (packet.bytes h).length := by
      rw [UInt16.toNat_ofNat', Nat.mod_eq_of_lt (by omega)]
      omega
    have hpayload : copy_from_slice ((List.replicate 32 0 ++ List.replicate 2 0) ++
        (Header.bytes ⟨packet.id, sender_id⟩ ++ packet.bytes h)) 32
          (bytesOf 2 (18 + (packet.bytes h).length)) =
        List.replicate 32 0 ++ plaintext h packet sender_id := by
      rw [List.append_assoc]
      exact copy_from_slice_append List.length_replicate (by simp) _
    have hchecksum : ∀ checksum : Checksum,
        copy_from_slice (List.replicate 32 0 ++ plaintext h packet sender_id) 0 checksum.toList =
          checksum.toList ++ plaintext h packet sender_id := fun checksum =>
      copy_from_slice_append (a := []) (b := List.replicate 32 0) rfl (by simp) _
    rw [hcount, hpayload, hchecksum, List.drop_left' List.length_replicate,
      List.drop_left' Vector.length_toList, List.take_left' Vector.length_toList]
    rfl

/-- **The bytes of a packet**: the checksum of the plaintext, and its encryption. -/
theorem marshal_eq (c : Crypto) {h : Hex} (hh : h.Lawful) {packet : Packet} (sender_id : UInt64)
    (hlen : 20 + packet.body_len ≤ 65535) :
    marshal c h packet sender_id =
      .ok ((c.finalize (plaintext h packet sender_id)).toList ++
        mapBlocks c.encrypt_block (Crypto.pad (plaintext h packet sender_id))) := by
  rw [marshal_of_writes c sender_id (Packet.writes_write hh (le_max_bytes hlen)),
    packet.length_bytes hh, if_neg (Nat.not_lt.2 hlen)]

/-- A packet whose plaintext is too long is refused. -/
theorem marshal_error (c : Crypto) {h : Hex} (hh : h.Lawful) {packet : Packet} (sender_id : UInt64)
    (hlen : 65535 < 20 + packet.body_len) : ∃ e, marshal c h packet sender_id = .error e := by
  rcases packet.writes_or_fails hh with hw | ⟨e, he⟩
  · rw [← packet.length_bytes hh] at hlen
    exact ⟨_, by rw [marshal_of_writes c sender_id hw, if_pos hlen]⟩
  · have hheader := (Header.writes_write ⟨packet.id, sender_id⟩).bind_apply
      (fun _ => packet.write h) (List.replicate 32 0 ++ List.replicate 2 0)
    obtain ⟨out, hfail⟩ := he
      ((List.replicate 32 0 ++ List.replicate 2 0) ++ Header.bytes ⟨packet.id, sender_id⟩)
    rw [hfail] at hheader
    exact ⟨e, by rw [marshal]; simp only [hheader]⟩

/-- What `marshal` returns. -/
theorem marshal_ok {c : Crypto} {h : Hex} (hh : h.Lawful) {packet : Packet} {sender_id : UInt64}
    {data : Bytes} (hdata : marshal c h packet sender_id = .ok data) :
    20 + packet.body_len ≤ 65535 ∧
      data = (c.finalize (plaintext h packet sender_id)).toList ++
        mapBlocks c.encrypt_block (Crypto.pad (plaintext h packet sender_id)) := by
  have hlen : 20 + packet.body_len ≤ 65535 := by
    by_contra hlt
    obtain ⟨e, he⟩ := marshal_error c hh sender_id (Nat.not_le.1 hlt)
    cases he.symm.trans hdata
  exact ⟨hlen, Except.ok.inj (hdata.symm.trans (marshal_eq c hh sender_id hlen))⟩

/-- The length of an encoded packet: the checksum, and the plaintext in full blocks. -/
theorem length_marshal {c : Crypto} {h : Hex} (hh : h.Lawful) {packet : Packet}
    {sender_id : UInt64} {data : Bytes} (hdata : marshal c h packet sender_id = .ok data) :
    data.length = 32 + 16 * ((20 + packet.body_len) / 16 + 1) := by
  rw [(marshal_ok hh hdata).2, List.length_append, Vector.length_toList, length_mapBlocks,
    Crypto.length_pad, length_plaintext hh]

/-- A plaintext that the reader takes to its end. -/
theorem parse_payload_of_read {h : Hex} {payload : Bytes} {decoded : Packet × UInt64}
    (hread : read_payload h payload = .ok (decoded, [])) :
    parse_payload h payload = .ok decoded := by
  have hend : ¬ payload.length - ([] : Bytes).length < payload.length := by
    rw [List.length_nil, Nat.sub_zero]
    exact Nat.lt_irrefl _
  rw [parse_payload, hread]
  exact if_neg hend

theorem parse_payload_of_error {h : Hex} {payload : Bytes} {e : NethernetError}
    (hread : read_payload h payload = .error e) : parse_payload h payload = .error e := by
  rw [parse_payload, hread]
  rfl

/-- Decoding a checksum and a ciphertext. -/
theorem unmarshal_append (c : Crypto) (h : Hex) (checksum : Checksum) (ciphertext : Bytes) :
    unmarshal c h (checksum.toList ++ ciphertext) = (c.decrypt ciphertext).bind fun payload =>
      if c.verify_checksum payload checksum then parse_payload h payload
      else .error (.Other "checksum mismatch") := by
  have hlen : ¬ (checksum.toList ++ ciphertext).length < 32 := by
    rw [List.length_append, Vector.length_toList]
    omega
  rw [unmarshal, dif_neg hlen, firstBlock_append, List.drop_left' Vector.length_toList]
  rfl

/-- **The encoding of a plaintext is decoded** as its reader says. -/
theorem unmarshal_eq {c : Crypto} (hc : c.Lawful) (h : Hex) (payload : Bytes) :
    unmarshal c h ((c.finalize payload).toList ++ mapBlocks c.encrypt_block (Crypto.pad payload)) =
      parse_payload h payload := by
  rw [unmarshal_append, Crypto.decrypt_encrypt hc.decrypt_encrypt]
  exact if_pos (hc.verify_finalize payload)

/-- **A message whose encoding is cut** after whole blocks of its ciphertext, in the middle of the
text, is refused: either its padding, its checksum or its text is wrong. -/
theorem unmarshal_take {c : Crypto} (hc : c.Lawful) {h : Hex} (hh : h.Lawful)
    {message : MessagePacket} {sender_id : UInt64} {data : Bytes}
    (hdata : marshal c h (.Message message) sender_id = .ok data) {m : ℕ} (hm : 3 ≤ m)
    (hcut : 16 * m ≤ 32 + (as_bytes message.data).length) :
    ∃ e, unmarshal c h (data.take (32 + 16 * m)) = .error e := by
  obtain ⟨hlen, rfl⟩ := marshal_ok hh hdata
  have hpayload := length_plaintext hh (.Message message) sender_id
  rw [Packet.body_len] at hpayload
  have htake := @List.take_length_add_append _
    (c.finalize (plaintext h (.Message message) sender_id)).toList
    (mapBlocks c.encrypt_block (Crypto.pad (plaintext h (.Message message) sender_id))) (16 * m)
  rw [Vector.length_toList] at htake
  rw [htake, unmarshal_append]
  rcases hdec : c.decrypt ((mapBlocks c.encrypt_block
      (Crypto.pad (plaintext h (.Message message) sender_id))).take (16 * m)) with e | payload
  · exact ⟨e, rfl⟩
  · obtain ⟨k, hk, hk16, rfl⟩ := Crypto.decrypt_take hc (by omega) hdec
    have hread := read_payload_take hh sender_id hlen (k := k) (by omega) (by omega)
    rw [Except.bind, parse_payload_of_error hread]
    split
    · exact ⟨_, rfl⟩
    · exact ⟨_, rfl⟩

/-- What `marshal` returns is decoded to the same packet and sender. -/
theorem unmarshal_marshal {c : Crypto} (hc : c.Lawful) {h : Hex} (hh : h.Lawful) {packet : Packet}
    {sender_id : UInt64} {data : Bytes} (hdata : marshal c h packet sender_id = .ok data) :
    unmarshal c h data = .ok (packet, sender_id) := by
  obtain ⟨hlen, rfl⟩ := marshal_ok hh hdata
  rw [unmarshal_eq hc, parse_payload_of_read (read_payload_plaintext hh sender_id hlen)]

/-- **Marshalling**: a packet is encoded exactly when its plaintext is at most 65535 bytes, and its
encoding is decoded to the same packet and sender. -/
theorem marshal_roundtrip (c : Crypto) (hc : c.Lawful) (h : Hex) (hh : h.Lawful) (packet : Packet)
    (sender_id : UInt64) :
    ((∃ bytes, marshal c h packet sender_id = .ok bytes) ↔ 20 + packet.body_len ≤ 65535) ∧
      ∀ bytes, marshal c h packet sender_id = .ok bytes →
        unmarshal c h bytes = .ok (packet, sender_id) := by
  refine ⟨⟨?_, fun hlen => ⟨_, marshal_eq c hh sender_id hlen⟩⟩,
    fun bytes hbytes => unmarshal_marshal hc hh hbytes⟩
  rintro ⟨bytes, hbytes⟩
  exact (marshal_ok hh hbytes).1

/-- A message of node 7 to node 9. -/
theorem marshal_roundtrip_message :
    ((∃ bytes, marshal .ofSample .lowercase (.Message ⟨9, "CANDIDATEADD 1 c"⟩) 7 = .ok bytes) ↔
        20 + Packet.body_len (.Message ⟨9, "CANDIDATEADD 1 c"⟩) ≤ 65535) ∧
      ∀ bytes, marshal .ofSample .lowercase (.Message ⟨9, "CANDIDATEADD 1 c"⟩) 7 = .ok bytes →
        unmarshal .ofSample .lowercase bytes = .ok (.Message ⟨9, "CANDIDATEADD 1 c"⟩, 7) :=
  marshal_roundtrip .ofSample Crypto.ofSample_lawful .lowercase Hex.lowercase_lawful _ 7

end Nethernet
