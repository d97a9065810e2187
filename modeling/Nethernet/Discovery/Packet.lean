import Nethernet.Foundations.Chunks
import Nethernet.Protocol.Types

/-!
# Discovery packets

The header and the three packets of `src/protocol/packet/discovery`, read and written field by
field. `Header.bytes` and `Packet.bytes` are the bytes they take, and `reads_read` and
`writes_write` say so. The hex digits of a response come from another crate (`Hex`).
-/

namespace Nethernet

open Foundations Reader Writer

/-- The hex functions. -/
structure Hex where
  /-- The digits of the data. -/
  encode : Bytes → Bytes
  /-- What is written to a buffer of the given length. -/
  encode_to_slice : Bytes → ℕ → Except String Bytes
  decode : Bytes → Except String Bytes

/-- Each byte has two digits of its own, and decoding undoes encoding. -/
structure Hex.Lawful (h : Hex) : Prop where
  length_encode : ∀ data, (h.encode data).length = data.length * 2
  encode_append : ∀ data data', h.encode (data ++ data') = h.encode data ++ h.encode data'
  encode_to_slice : ∀ data, h.encode_to_slice data (data.length * 2) = .ok (h.encode data)
  decode_encode : ∀ data, h.decode (h.encode data) = .ok data

namespace Hex

/-- A digit below 16. -/
def digit (n : ℕ) : UInt8 := if n < 10 then UInt8.ofNat (48 + n) else UInt8.ofNat (87 + n)

/-- The value of a digit, in either case. -/
def value (c : UInt8) : Option ℕ :=
  if 48 ≤ c ∧ c < 58 then some (c.toNat - 48)
  else if 97 ≤ c ∧ c < 103 then some (c.toNat - 87)
  else if 65 ≤ c ∧ c < 71 then some (c.toNat - 55)
  else none

/-- Read digits two by two; `i` is the position of the first. -/
def decodePairs (i : ℕ) : Bytes → Except String Bytes
  | [] => .ok []
  | [_] => .error "Odd number of digits"
  | c :: d :: rest =>
    match value c, value d with
    | some x, some y => (decodePairs (i + 2) rest).map fun data => UInt8.ofNat (16 * x + y) :: data
    | none, _ => .error s!"Invalid character '{Char.ofNat c.toNat}' at position {i}"
    | _, none => .error s!"Invalid character '{Char.ofNat d.toNat}' at position {i + 1}"

/-- Lower-case digits, read in either case. -/
def lowercase : Hex where
  encode data := data.flatMap fun b => [digit (b.toNat / 16), digit (b.toNat % 16)]
  encode_to_slice data len :=
    if len = data.length * 2 then
      .ok (data.flatMap fun b => [digit (b.toNat / 16), digit (b.toNat % 16)])
    else .error "Invalid string length"
  decode data :=
    if data.length % 2 = 0 then decodePairs 0 data else .error "Odd number of digits"

theorem value_digit {n : ℕ} (h : n < 16) : value (digit n) = some n := by
  have hall : ∀ n : Fin 16, value (digit n) = some n.val := by decide
  exact hall ⟨n, h⟩

theorem decodePairs_encode (i : ℕ) (data : Bytes) :
    decodePairs i (lowercase.encode data) = .ok data := by
  induction data generalizing i with
  | nil => rfl
  | cons b data ih =>
    have hb := b.toNat_lt
    have hpair : UInt8.ofNat (16 * (b.toNat / 16) + b.toNat % 16) = b := by
      rw [Nat.div_add_mod, UInt8.ofNat_toNat]
    have hencode : lowercase.encode (b :: data) =
        digit (b.toNat / 16) :: digit (b.toNat % 16) :: lowercase.encode data := rfl
    rw [hencode, decodePairs, value_digit (by omega), value_digit (by omega), ih]
    exact congrArg (fun x => Except.ok (x :: data)) hpair

theorem lowercase_lawful : lowercase.Lawful := by
  have hlen : ∀ data, (lowercase.encode data).length = data.length * 2 := by
    intro data
    induction data with
    | nil => rfl
    | cons b data ih => exact (congrArg (· + 2) ih).trans (Nat.succ_mul _ _).symm
  refine ⟨hlen, fun data data' => List.flatMap_append, fun data => if_pos rfl, fun data => ?_⟩
  have heven : (lowercase.encode data).length % 2 = 0 := by rw [hlen, Nat.mul_mod_left]
  exact (if_pos heven).trans (decodePairs_encode 0 data)

end Hex

/-! ## Header -/

/-- Header of a discovery packet. -/
structure Header where
  packet_id : UInt16
  sender_id : UInt64
  deriving DecidableEq, Repr

namespace Header

/-- Read a header; the padding is discarded. -/
def read : Read Header := do
  let packet_id ← U16LE.read
  let sender_id ← U64LE.read
  let _padding ← read_exact 8
  pure ⟨packet_id, sender_id⟩

def write (header : Header) : Write := do
  U16LE.write header.packet_id
  U64LE.write header.sender_id
  write_all (List.replicate 8 0)

/-- The bytes of a header. -/
def bytes (header : Header) : Bytes :=
  bytesOf 2 header.packet_id.toNat ++ (bytesOf 8 header.sender_id.toNat ++ List.replicate 8 0)

@[simp] theorem length_bytes (header : Header) : header.bytes.length = 18 := by
  simp [bytes]

theorem writes_write (header : Header) : Writes header.write header.bytes :=
  (writes_all _).bind ((writes_all _).bind (writes_all _))

theorem reads_read (header : Header) : Reads read header.bytes header := by
  have hpadding : Reads (do let _padding ← read_exact 8; pure header : Read Header)
      (List.replicate 8 0) header := by
    have := (reads_read_exact (List.length_replicate (n := 8) (a := 0))).bind
      (f := fun _ => pure header) (reads_pure header)
    rwa [List.append_nil] at this
  exact (reads_u16 _).bind ((reads_u64 _).bind hpadding)

end Header

/-! ## The packets -/

/-- A request of a client to every server of the network. -/
structure RequestPacket where
  deriving DecidableEq, Repr

/-- A server's response. -/
structure ResponsePacket where
  application_data : Bytes
  deriving DecidableEq, Repr

/-- A signal for one recipient. -/
structure MessagePacket where
  recipient_id : UInt64
  data : String
  deriving DecidableEq, Repr

namespace RequestPacket

def id (_ : RequestPacket) : UInt16 := ID_REQUEST_PACKET

def read : Read RequestPacket := pure {}

def write (_ : RequestPacket) : Write := pure ()

end RequestPacket

namespace ResponsePacket

def id (_ : ResponsePacket) : UInt16 := ID_RESPONSE_PACKET

/-- Read the data in hex digits. -/
def read (h : Hex) : Read ResponsePacket := do
  let hex_data ← read_bytes_u32
  let application_data ← Reader.lift
    ((h.decode hex_data).mapError fun e => .Other s!"hex decode error: {e}")
  pure ⟨application_data⟩

/-- The chunk loop of `write`. -/
def write_chunks (h : Hex) : List Bytes → Write
  | [] => pure ()
  | chunk :: chunks => do
    let encoded_len := chunk.length * 2
    let buf ← Writer.lift
      ((h.encode_to_slice chunk encoded_len).mapError fun e => .Other s!"hex encode error: {e}")
    write_all buf
    write_chunks h chunks

/-- Write the data in hex digits, after their number as a `u32`. -/
def write (h : Hex) (packet : ResponsePacket) : Write := do
  let hex_len := packet.application_data.length * 2
  U32LE.write (UInt32.ofNat hex_len)
  write_chunks h (if packet.application_data = [] then [] else chunks 512 packet.application_data)

end ResponsePacket

namespace MessagePacket

def id (_ : MessagePacket) : UInt16 := ID_MESSAGE_PACKET

def read : Read MessagePacket := do
  let recipient_id ← U64LE.read
  let data_bytes ← read_bytes_u32
  let data ← Reader.lift ((from_utf8 data_bytes).mapError fun e => .Other s!"invalid UTF-8: {e}")
  pure ⟨recipient_id, data⟩

def write (packet : MessagePacket) : Write := do
  U64LE.write packet.recipient_id
  write_bytes_u32 (as_bytes packet.data)

end MessagePacket

/-- `Box<dyn Packet>`. -/
inductive Packet
  | Request (packet : RequestPacket)
  | Response (packet : ResponsePacket)
  | Message (packet : MessagePacket)
  deriving DecidableEq, Repr

namespace Packet

def id : Packet → UInt16
  | Request packet => packet.id
  | Response packet => packet.id
  | Message packet => packet.id

def write (h : Hex) : Packet → Write
  | Request packet => packet.write
  | Response packet => packet.write h
  | Message packet => packet.write

/-- Read the fields of the packet with this ID. -/
def read (h : Hex) (packet_id : UInt16) : Read Packet :=
  if packet_id = ID_REQUEST_PACKET then Request <$> RequestPacket.read
  else if packet_id = ID_RESPONSE_PACKET then Response <$> ResponsePacket.read h
  else if packet_id = ID_MESSAGE_PACKET then Message <$> MessagePacket.read
  else throw (.Other s!"unknown packet ID: {packet_id}")

end Packet

/-! ## The bytes of a packet -/

namespace ResponsePacket

theorem writes_write_chunks {h : Hex} (hh : h.Lawful) (cs : List Bytes) :
    Writes (write_chunks h cs) (h.encode cs.flatten) := by
  induction cs with
  | nil =>
    have hnil : h.encode [] = [] := List.length_eq_zero_iff.1 (hh.length_encode [])
    rw [List.flatten_nil, hnil]
    exact writes_pure
  | cons chunk cs ih =>
    rw [List.flatten_cons, hh.encode_append, write_chunks, hh.encode_to_slice]
    exact (writes_all (h.encode chunk)).bind (f := fun _ => write_chunks h cs) ih

/-- The bytes of a response: the number of digits, cut to 32 bits, and the digits. -/
def bytes (h : Hex) (packet : ResponsePacket) : Bytes :=
  bytesOf 4 (UInt32.ofNat (packet.application_data.length * 2)).toNat ++
    h.encode packet.application_data

theorem writes_write {h : Hex} (hh : h.Lawful) (packet : ResponsePacket) :
    Writes (packet.write h) (packet.bytes h) := by
  have hchunks := writes_write_chunks hh
    (if packet.application_data = [] then [] else chunks 512 packet.application_data)
  have hflat : (if packet.application_data = [] then []
      else chunks 512 packet.application_data).flatten = packet.application_data := by
    split
    · rename_i hnil
      rw [hnil, List.flatten_nil]
    · rw [flatten_chunks]
  rw [hflat] at hchunks
  exact (writes_all _).bind hchunks

theorem reads_read {h : Hex} (hh : h.Lawful) (packet : ResponsePacket)
    (hlen : packet.application_data.length * 2 ≤ MAX_BYTES) :
    Reads (read h) (packet.bytes h) packet := by
  have hdigits : (h.encode packet.application_data).length ≤ MAX_BYTES := by
    rwa [hh.length_encode]
  have hcount : (UInt32.ofNat (packet.application_data.length * 2)).toNat =
      (h.encode packet.application_data).length := by
    rw [← hh.length_encode, toNat_length hdigits]
  rw [bytes, hcount, ← List.append_nil (_ ++ _)]
  refine (reads_read_bytes_u32 hdigits).bind ?_
  rw [hh.decode_encode]
  exact reads_pure packet

/-- The chunked writer does what `write_bytes_u32` does with all digits, and what it writes is read
back. -/
structure Agrees (h : Hex) (packet : ResponsePacket) : Prop where
  write_iff : ∀ out out', packet.write h out = (.ok (), out') ↔
    write_bytes_u32 (h.encode packet.application_data) out = (.ok (), out')
  read_back : ∀ out out', packet.write h out = (.ok (), out') →
    ∃ word, out' = out ++ word ∧ Reads (read h) word packet

theorem agrees_of_le {h : Hex} (hh : h.Lawful) {packet : ResponsePacket}
    (hlen : packet.application_data.length * 2 ≤ MAX_BYTES) : packet.Agrees h := by
  have hdigits : (h.encode packet.application_data).length ≤ MAX_BYTES := by
    rwa [hh.length_encode]
  have hword : packet.bytes h = bytesOf 4 (h.encode packet.application_data).length ++
      h.encode packet.application_data := by
    rw [bytes, ← hh.length_encode, toNat_length hdigits]
  refine ⟨fun out out' => ?_, fun out out' hwrite => ?_⟩
  · rw [packet.writes_write hh out, writes_write_bytes_u32 hdigits out, hword]
  · rw [packet.writes_write hh out, Prod.mk.injEq] at hwrite
    exact ⟨packet.bytes h, hwrite.2.symm, packet.reads_read hh hlen⟩

/-- Above the limit of byte arrays, only the chunked writer succeeds. -/
theorem not_agrees_of_lt {h : Hex} (hh : h.Lawful) {packet : ResponsePacket}
    (hlen : MAX_BYTES < packet.application_data.length * 2) : ¬ packet.Agrees h := by
  intro hagrees
  have hwrite := (hagrees.write_iff [] _).1 (packet.writes_write hh [])
  rw [← hh.length_encode] at hlen
  rw [write_bytes_u32_of_lt hlen] at hwrite
  cases (Prod.mk.inj hwrite).1

/-- **The chunked writer agrees with the plain one** exactly when there are at most `MAX_BYTES`
digits. -/
theorem agrees_iff {h : Hex} (hh : h.Lawful) (packet : ResponsePacket) :
    packet.Agrees h ↔ packet.application_data.length * 2 ≤ MAX_BYTES :=
  ⟨fun hagrees => Nat.not_lt.1 fun hlt => not_agrees_of_lt hh hlt hagrees, agrees_of_le hh⟩

/-- The digits of 600 bytes are written in two chunks. -/
theorem agrees_two_chunks : Agrees .lowercase ⟨List.replicate 600 4⟩ :=
  (agrees_iff Hex.lowercase_lawful ⟨List.replicate 600 4⟩).2 (by
    rw [List.length_replicate]
    decide)

/-- A byte more than 8 MiB. -/
def oversized : ResponsePacket := ⟨List.replicate 8388609 0⟩

theorem length_oversized : oversized.application_data.length = 8388609 := List.length_replicate

theorem not_agrees_oversized : ¬ oversized.Agrees .lowercase := by
  refine not_agrees_of_lt Hex.lowercase_lawful ?_
  rw [length_oversized]
  decide

end ResponsePacket

namespace MessagePacket

/-- The bytes of a message: the recipient, the number of bytes of the text, and the text. -/
def bytes (packet : MessagePacket) : Bytes :=
  bytesOf 8 packet.recipient_id.toNat ++
    (bytesOf 4 (as_bytes packet.data).length ++ as_bytes packet.data)

theorem writes_write {packet : MessagePacket} (hlen : (as_bytes packet.data).length ≤ MAX_BYTES) :
    Writes packet.write packet.bytes :=
  (writes_all _).bind (writes_write_bytes_u32 hlen)

theorem reads_read {packet : MessagePacket} (hlen : (as_bytes packet.data).length ≤ MAX_BYTES) :
    Reads read packet.bytes packet := by
  refine (reads_u64 _).bind ?_
  rw [← List.append_nil (_ ++ _)]
  refine (reads_read_bytes_u32 hlen).bind ?_
  rw [from_utf8_as_bytes]
  exact reads_pure packet

/-- A message that ends in the middle of its text is refused. -/
theorem read_take {packet : MessagePacket} (hlen : (as_bytes packet.data).length ≤ MAX_BYTES)
    {k : ℕ} (hk : 12 ≤ k) (hlt : k < 12 + (as_bytes packet.data).length) :
    read (packet.bytes.take k) = .error (.Io "failed to fill whole buffer") := by
  have htake : packet.bytes.take k = bytesOf 8 packet.recipient_id.toNat ++
      (bytesOf 4 (as_bytes packet.data).length ++ (as_bytes packet.data).take (k - 12)) := by
    rw [bytes, List.take_append, List.take_append, length_bytesOf, length_bytesOf,
      List.take_of_length_le (by rw [length_bytesOf]; omega),
      List.take_of_length_le (by rw [length_bytesOf]; omega), Nat.sub_sub]
  have hcut : ((as_bytes packet.data).take (k - 12)).length < (as_bytes packet.data).length := by
    rw [List.length_take]
    omega
  rw [htake, read, (reads_u64 _).bind_apply]
  exact bind_of_error (read_bytes_u32_of_lt hlen hcut) _

end MessagePacket

namespace Packet

/-- The bytes of the fields of a packet. -/
def bytes (h : Hex) : Packet → Bytes
  | Request _ => []
  | Response packet => packet.bytes h
  | Message packet => packet.bytes

/-- The number of bytes of the fields. -/
def body_len : Packet → ℕ
  | Request _ => 0
  | Response packet => 4 + 2 * packet.application_data.length
  | Message packet => 12 + (as_bytes packet.data).length

theorem length_bytes {h : Hex} (hh : h.Lawful) (packet : Packet) :
    (packet.bytes h).length = packet.body_len := by
  cases packet with
  | Request packet => rfl
  | Response packet =>
    rw [bytes, ResponsePacket.bytes, List.length_append, length_bytesOf, hh.length_encode, body_len,
      Nat.mul_comm]
  | Message packet =>
    rw [bytes, MessagePacket.bytes, List.length_append, List.length_append, length_bytesOf,
      length_bytesOf, body_len, ← Nat.add_assoc]

/-- **A packet within the limit is written**: exactly the bytes of its fields. -/
theorem writes_write {h : Hex} (hh : h.Lawful) {packet : Packet}
    (hlen : packet.body_len ≤ MAX_BYTES) : Writes (packet.write h) (packet.bytes h) := by
  cases packet with
  | Request packet => exact writes_pure
  | Response packet => exact packet.writes_write hh
  | Message packet =>
    rw [body_len] at hlen
    exact MessagePacket.writes_write (by omega)

/-- Only a message above the limit of byte arrays cannot be written. -/
theorem writes_or_fails {h : Hex} (hh : h.Lawful) (packet : Packet) :
    Writes (packet.write h) (packet.bytes h) ∨
      ∃ e, ∀ out, ∃ out', packet.write h out = (.error e, out') := by
  cases packet with
  | Request packet => exact .inl writes_pure
  | Response packet => exact .inl (packet.writes_write hh)
  | Message packet =>
    by_cases hle : (as_bytes packet.data).length ≤ MAX_BYTES
    · exact .inl (MessagePacket.writes_write hle)
    · have herr := write_bytes_u32_of_lt (Nat.not_le.1 hle)
      exact .inr ⟨_, fun out => ⟨_, herr (out ++ bytesOf 8 packet.recipient_id.toNat)⟩⟩

/-- **A packet within the limit is read back** by its ID. -/
theorem reads_read {h : Hex} (hh : h.Lawful) {packet : Packet}
    (hlen : packet.body_len ≤ MAX_BYTES) : Reads (read h packet.id) (packet.bytes h) packet := by
  cases packet with
  | Request packet => exact reads_pure (Packet.Request packet)
  | Response packet =>
    rw [body_len] at hlen
    exact (packet.reads_read hh (by omega)).map Packet.Response
  | Message packet =>
    rw [body_len] at hlen
    have hmessage : (as_bytes packet.data).length ≤ MAX_BYTES := by omega
    exact (MessagePacket.reads_read hmessage).map Packet.Message

end Packet

end Nethernet
