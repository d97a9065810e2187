import Nethernet.Foundations.Codec
import Nethernet.Foundations.LittleEndian
import Nethernet.Protocol.Error

/-!
# Wire types

The helpers of `src/protocol/types`: little-endian integers and length-prefixed byte arrays, read
from any input and written to a growing buffer. Each has a lemma `reads_*` or `writes_*` that says
which bytes it takes or appends, and a reader a lemma `accepts_*` that says all it takes.
`byte_arrays_framed`: a byte array is read back whatever follows it, and the reader then stands
behind it.
-/

namespace Nethernet

open Foundations Reader Writer

/-- A reader of bytes: `&mut dyn Read` on a slice. -/
abbrev Read (α : Type) := Reader UInt8 NethernetError α

/-- A writer of bytes: `&mut dyn Write` on a vector. -/
abbrev Write := Writer UInt8 NethernetError Unit

/-- Fill a buffer of `n` bytes. -/
def read_exact (n : ℕ) : Read Bytes := exact (.Io "failed to fill whole buffer") n

/-- Write every byte of `data`. -/
def write_all (data : Bytes) : Write := Writer.all data

theorem reads_read_exact {n : ℕ} {data : Bytes} (h : data.length = n) :
    Reads (read_exact n) data data := reads_exact _ h

/-! ## Integers -/

/-- Read an integer of `k` bytes, little-endian. -/
def readInt (k : ℕ) : Read ℕ := valueOf <$> read_exact k

/-- Write an integer in `k` bytes, little-endian. -/
def writeInt (k n : ℕ) : Write := write_all (bytesOf k n)

theorem reads_readInt {k n : ℕ} (h : n < 256 ^ k) : Reads (readInt k) (bytesOf k n) n := by
  have := (reads_read_exact (length_bytesOf k n)).map valueOf
  rwa [valueOf_bytesOf h] at this

def U16LE.read : Read UInt16 := UInt16.ofNat <$> readInt 2
def U16LE.write (x : UInt16) : Write := writeInt 2 x.toNat
def U32LE.read : Read UInt32 := UInt32.ofNat <$> readInt 4
def U32LE.write (x : UInt32) : Write := writeInt 4 x.toNat
def U64LE.read : Read UInt64 := UInt64.ofNat <$> readInt 8
def U64LE.write (x : UInt64) : Write := writeInt 8 x.toNat

def read_u8 : Read UInt8 := UInt8.ofNat <$> readInt 1
def write_u8 (x : UInt8) : Write := write_all [x]
def read_i32_le : Read Int32 := (fun n => Int32.ofUInt32 (UInt32.ofNat n)) <$> readInt 4
def write_i32_le (x : Int32) : Write := writeInt 4 x.toUInt32.toNat

theorem reads_u16 (x : UInt16) : Reads U16LE.read (bytesOf 2 x.toNat) x := by
  have := (reads_readInt (k := 2) x.toNat_lt).map UInt16.ofNat
  rwa [UInt16.ofNat_toNat] at this

theorem reads_u32 (x : UInt32) : Reads U32LE.read (bytesOf 4 x.toNat) x := by
  have := (reads_readInt (k := 4) x.toNat_lt).map UInt32.ofNat
  rwa [UInt32.ofNat_toNat] at this

theorem reads_u64 (x : UInt64) : Reads U64LE.read (bytesOf 8 x.toNat) x := by
  have := (reads_readInt (k := 8) x.toNat_lt).map UInt64.ofNat
  rwa [UInt64.ofNat_toNat] at this

theorem reads_u8 (x : UInt8) : Reads read_u8 [x] x := by
  have := (reads_readInt (k := 1) x.toNat_lt).map UInt8.ofNat
  rwa [bytesOf, bytesOf, UInt8.ofNat_toNat] at this

theorem reads_i32_le (x : Int32) : Reads read_i32_le (bytesOf 4 x.toUInt32.toNat) x := by
  have := (reads_readInt (k := 4) x.toUInt32.toNat_lt).map fun n => Int32.ofUInt32 (UInt32.ofNat n)
  rwa [UInt32.ofNat_toNat] at this

theorem accepts_readInt (k : ℕ) :
    Accepts (readInt k) fun word n => word = bytesOf k n ∧ n < 256 ^ k := by
  refine ((accepts_exact _ k).map valueOf).congr fun word n => ?_
  constructor
  · rintro ⟨_, ⟨rfl, rfl⟩, rfl⟩
    exact ⟨(bytesOf_valueOf word).symm, valueOf_lt word⟩
  · rintro ⟨rfl, hn⟩
    exact ⟨_, ⟨length_bytesOf k n, rfl⟩, valueOf_bytesOf hn⟩

theorem accepts_u8 : Accepts read_u8 fun word x => word = [x] := by
  refine ((accepts_readInt 1).map UInt8.ofNat).congr fun word x => ?_
  constructor
  · rintro ⟨n, ⟨rfl, hn⟩, rfl⟩
    rw [bytesOf, bytesOf]
  · rintro rfl
    exact ⟨x.toNat, ⟨by rw [bytesOf, bytesOf, UInt8.ofNat_toNat], x.toNat_lt⟩, UInt8.ofNat_toNat⟩

theorem accepts_u16 : Accepts U16LE.read fun word x => word = bytesOf 2 x.toNat := by
  refine ((accepts_readInt 2).map UInt16.ofNat).congr fun word x => ?_
  constructor
  · rintro ⟨n, ⟨rfl, hn⟩, rfl⟩
    rw [UInt16.toNat_ofNat_of_lt' hn]
  · rintro rfl
    exact ⟨x.toNat, ⟨rfl, x.toNat_lt⟩, UInt16.ofNat_toNat⟩

theorem accepts_u32 : Accepts U32LE.read fun word x => word = bytesOf 4 x.toNat := by
  refine ((accepts_readInt 4).map UInt32.ofNat).congr fun word x => ?_
  constructor
  · rintro ⟨n, ⟨rfl, hn⟩, rfl⟩
    rw [UInt32.toNat_ofNat_of_lt' hn]
  · rintro rfl
    exact ⟨x.toNat, ⟨rfl, x.toNat_lt⟩, UInt32.ofNat_toNat⟩

theorem accepts_u64 : Accepts U64LE.read fun word x => word = bytesOf 8 x.toNat := by
  refine ((accepts_readInt 8).map UInt64.ofNat).congr fun word x => ?_
  constructor
  · rintro ⟨n, ⟨rfl, hn⟩, rfl⟩
    rw [UInt64.toNat_ofNat_of_lt' hn]
  · rintro rfl
    exact ⟨x.toNat, ⟨rfl, x.toNat_lt⟩, UInt64.ofNat_toNat⟩

/-! ## Byte arrays with a length prefix -/

/-- Read a byte array whose length `read_length` reads. -/
def read_bytes (read_length : Read ℕ) : Read Bytes := do
  let length ← read_length
  if MAX_BYTES < length then
    throw (.Io s!"byte array length {length} exceeds maximum allowed {MAX_BYTES}")
  else read_exact length

/-- Read a byte array with a length of one byte. -/
def read_bytes_u8 : Read Bytes := read_bytes (UInt8.toNat <$> read_u8)

/-- Read a byte array with a length of four bytes. -/
def read_bytes_u32 : Read Bytes := do
  let length ← U32LE.read
  read_bytes (pure length.toNat)

/-- Write a byte array after its length, which must be at most `max`, the largest number that
`write_length` writes. -/
def write_bytes (max : ℕ) (write_length : ℕ → Write) (data : Bytes) : Write := do
  if MAX_BYTES < data.length then
    throw (.Io s!"data length {data.length} exceeds maximum allowed {MAX_BYTES}")
  else if max < data.length then
    throw (.Io "length conversion failed: TryFromIntError(())")
  else do
    write_length data.length
    write_all data

/-- Write a byte array with a length of one byte. -/
def write_bytes_u8 (data : Bytes) : Write :=
  write_bytes 255 (fun length => write_u8 (UInt8.ofNat length)) data

/-- Write a byte array with a length of four bytes. -/
def write_bytes_u32 (data : Bytes) : Write :=
  write_bytes (2 ^ 32 - 1) (fun length => U32LE.write (UInt32.ofNat length)) data

theorem reads_read_bytes {read_length : Read ℕ} {data : Bytes} {xs : Bytes}
    (hlen : Reads read_length xs data.length) (h : data.length ≤ MAX_BYTES) :
    Reads (read_bytes read_length) (xs ++ data) data := by
  refine hlen.bind ?_
  rw [if_neg (Nat.not_lt.2 h)]
  exact reads_read_exact rfl

/-- A byte array that is read stands after its length, which is within the limit. -/
theorem accepts_read_bytes {read_length : Read ℕ} {G : Bytes → ℕ → Prop}
    (h : Accepts read_length G) : Accepts (read_bytes read_length) fun word data =>
      ∃ first, G first data.length ∧ data.length ≤ MAX_BYTES ∧ word = first ++ data := by
  have hbytes : ∀ length : ℕ, Accepts
      (if MAX_BYTES < length then
        throw (.Io s!"byte array length {length} exceeds maximum allowed {MAX_BYTES}")
        else read_exact length : Read Bytes)
      fun word data => word.length = length ∧ word = data ∧ length ≤ MAX_BYTES := by
    intro length
    split
    · rename_i hlt
      exact (accepts_throw _).congr fun word data =>
        iff_of_false id fun ⟨_, _, hle⟩ => Nat.not_le.2 hlt hle
    · rename_i hle
      exact (accepts_exact _ _).congr fun word data =>
        ⟨fun ⟨hlen, hword⟩ => ⟨hlen, hword, Nat.not_lt.1 hle⟩,
          fun ⟨hlen, hword, _⟩ => ⟨hlen, hword⟩⟩
  refine (h.bind hbytes).congr fun word data => ?_
  constructor
  · rintro ⟨first, _, _, hfirst, ⟨rfl, rfl, hmax⟩, rfl⟩
    exact ⟨first, hfirst, hmax, rfl⟩
  · rintro ⟨first, hfirst, hmax, rfl⟩
    exact ⟨first, _, data, hfirst, ⟨rfl, rfl, hmax⟩, rfl⟩

/-- A byte array with a length of one byte is short. -/
theorem accepts_read_bytes_u8 : Accepts read_bytes_u8 fun word data =>
    data.length ≤ 255 ∧ word = [UInt8.ofNat data.length] ++ data := by
  refine (accepts_read_bytes (accepts_u8.map UInt8.toNat)).congr fun word data => ?_
  constructor
  · rintro ⟨_, ⟨length, rfl, hlen⟩, -, rfl⟩
    have hlt := length.toNat_lt
    rw [← hlen, UInt8.ofNat_toNat]
    exact ⟨by omega, rfl⟩
  · rintro ⟨hlen, rfl⟩
    refine ⟨_, ⟨UInt8.ofNat data.length, rfl, ?_⟩, Nat.le_trans hlen (by decide), rfl⟩
    exact UInt8.toNat_ofNat_of_lt' (Nat.lt_succ_of_le hlen)

/-- A short byte array is read back, by its length and its bytes. -/
theorem reads_read_bytes_u8 {data : Bytes} (h : data.length ≤ 255) :
    Reads read_bytes_u8 ([UInt8.ofNat data.length] ++ data) data := by
  have hlen := (reads_u8 (UInt8.ofNat data.length)).map UInt8.toNat
  rw [UInt8.toNat_ofNat', Nat.mod_eq_of_lt (by omega)] at hlen
  exact reads_read_bytes hlen (Nat.le_trans h (by decide))

theorem writes_write_bytes_u8 {data : Bytes} (h : data.length ≤ 255) :
    Writes (write_bytes_u8 data) ([UInt8.ofNat data.length] ++ data) := by
  have hmax : ¬ MAX_BYTES < data.length := Nat.not_lt.2 (Nat.le_trans h (by decide))
  rw [write_bytes_u8, write_bytes, if_neg hmax, if_neg (Nat.not_lt.2 h)]
  exact (writes_all _).bind (writes_all data)

/-- An array above 255 bytes has no length of one byte. -/
theorem fails_write_bytes_u8 {data : Bytes} (h : 255 < data.length) :
    Fails (write_bytes_u8 data) := fun out => by
  by_cases hmax : MAX_BYTES < data.length
  · exact ⟨_, out, by rw [write_bytes_u8, write_bytes, if_pos hmax]; rfl⟩
  · exact ⟨_, out, by rw [write_bytes_u8, write_bytes, if_neg hmax, if_pos h]; rfl⟩

/-- The length of an array within the limit, as four bytes. -/
theorem toNat_length {data : Bytes} (h : data.length ≤ MAX_BYTES) :
    (UInt32.ofNat data.length).toNat = data.length := by
  rw [UInt32.toNat_ofNat', Nat.mod_eq_of_lt]
  exact Nat.lt_of_le_of_lt h (by decide)

/-- **A byte array is read back**, by its length and its bytes. -/
theorem reads_read_bytes_u32 {data : Bytes} (h : data.length ≤ MAX_BYTES) :
    Reads read_bytes_u32 (bytesOf 4 data.length ++ data) data := by
  have hread := reads_u32 (UInt32.ofNat data.length)
  rw [toNat_length h] at hread
  refine hread.bind ?_
  have := reads_read_bytes (reads_pure data.length) h
  rwa [List.nil_append, ← toNat_length h] at this

/-- A byte array is within the limit, and stands after its length. -/
theorem accepts_read_bytes_u32 : Accepts read_bytes_u32 fun word data =>
    data.length ≤ MAX_BYTES ∧ word = bytesOf 4 data.length ++ data := by
  refine (accepts_u32.bind fun length =>
    accepts_read_bytes (accepts_pure length.toNat)).congr fun word data => ?_
  constructor
  · rintro ⟨_, length, _, rfl, ⟨_, ⟨rfl, hlen⟩, hmax, rfl⟩, rfl⟩
    rw [hlen]
    exact ⟨hmax, rfl⟩
  · rintro ⟨hmax, rfl⟩
    refine ⟨_, UInt32.ofNat data.length, data, rfl, ⟨[], ⟨rfl, ?_⟩, hmax, rfl⟩, ?_⟩
    · exact toNat_length hmax
    · rw [toNat_length hmax]

/-- An array that ends before its length says is refused. -/
theorem read_bytes_u32_of_lt {n : ℕ} {data : Bytes} (hn : n ≤ MAX_BYTES) (h : data.length < n) :
    read_bytes_u32 (bytesOf 4 n ++ data) = .error (.Io "failed to fill whole buffer") := by
  have hval : (UInt32.ofNat n).toNat = n := by
    rw [UInt32.toNat_ofNat', Nat.mod_eq_of_lt]
    exact Nat.lt_of_le_of_lt hn (by decide)
  have hread := reads_u32 (UInt32.ofNat n)
  rw [hval] at hread
  rw [read_bytes_u32, hread.bind_apply, hval, read_bytes]
  change (if MAX_BYTES < n then _ else read_exact n : Read Bytes) data = _
  rw [if_neg (Nat.not_lt.2 hn)]
  exact exact_of_lt _ h

theorem writes_write_bytes_u32 {data : Bytes} (h : data.length ≤ MAX_BYTES) :
    Writes (write_bytes_u32 data) (bytesOf 4 data.length ++ data) := by
  have hmax : ¬ 2 ^ 32 - 1 < data.length := Nat.not_lt.2 (Nat.le_trans h (by decide))
  rw [write_bytes_u32, write_bytes, if_neg (Nat.not_lt.2 h), if_neg hmax]
  refine Writes.bind ?_ (writes_all data)
  rw [U32LE.write, toNat_length h]
  exact writes_all _

/-- An array above the limit is refused, and nothing is written. -/
theorem write_bytes_u32_of_lt {data : Bytes} (h : MAX_BYTES < data.length) (out : Bytes) :
    write_bytes_u32 data out =
      (.error (.Io s!"data length {data.length} exceeds maximum allowed {MAX_BYTES}"), out) := by
  rw [write_bytes_u32, write_bytes, if_pos h]
  rfl

/-- An array above the limit of its length, or above `MAX_BYTES`, is refused, and nothing is
written. -/
theorem write_bytes_of_lt {max : ℕ} {write_length : ℕ → Write} {data : Bytes}
    (h : min max MAX_BYTES < data.length) (out : Bytes) :
    ∃ e, write_bytes max write_length data out = (.error e, out) := by
  rw [write_bytes]
  split
  · exact ⟨_, rfl⟩
  · rename_i hbytes
    have hmax : max < data.length := by omega
    rw [if_pos hmax]
    exact ⟨_, rfl⟩

/-- A writer and a reader of arrays of at most `max` bytes, each after its length in `k` bytes. -/
structure Frames (k max : ℕ) (write : Bytes → Write) (read : Read Bytes) : Prop where
  /-- An array is written exactly when it is within the limit. -/
  succeeds : ∀ data out, (∃ out', write data out = (.ok (), out')) ↔ data.length ≤ max
  /-- A writer that fails has written nothing. -/
  unchanged : ∀ data out e out', write data out = (.error e, out') → out' = out
  /-- What is written is read back, and the reader stands behind it. -/
  roundtrip : ∀ data out out', write data out = (.ok (), out') →
    ∃ word, out' = out ++ word ∧ ∀ rest, read (word ++ rest) = .ok (data, rest)
  /-- An array is read exactly when its length is within `MAX_BYTES` and so many bytes follow it; it
  is these bytes, and the reader stands behind them. -/
  reads : ∀ input data rest, read input = .ok (data, rest) ↔
    valueOf (input.take k) ≤ MAX_BYTES ∧ k + valueOf (input.take k) ≤ input.length ∧
      data = (input.drop k).take (valueOf (input.take k)) ∧
        rest = input.drop (k + valueOf (input.take k))

/-- The words that are written are the words that are read. -/
theorem frames_of_accepts {k max : ℕ} {write : Bytes → Write} {read : Read Bytes}
    (hmax : max = min (256 ^ k - 1) MAX_BYTES)
    (hwrites : ∀ data, data.length ≤ max → Writes (write data) (bytesOf k data.length ++ data))
    (hfails : ∀ data out, max < data.length → ∃ e, write data out = (.error e, out))
    (haccepts : Accepts read fun word data =>
      data.length ≤ max ∧ word = bytesOf k data.length ++ data) : Frames k max write read := by
  have hpos : 0 < 256 ^ k := Nat.pow_pos (by decide)
  refine ⟨fun data out => ?_, fun data out e out' h => ?_, fun data out out' h => ?_,
    fun input data rest => ?_⟩
  · constructor
    · rintro ⟨out', hok⟩
      by_contra hlt
      obtain ⟨e, herror⟩ := hfails data out (Nat.not_le.1 hlt)
      cases hok.symm.trans herror
    · intro hle
      exact ⟨_, hwrites data hle out⟩
  · by_cases hle : data.length ≤ max
    · cases (hwrites data hle out).symm.trans h
    · obtain ⟨e', herror⟩ := hfails data out (Nat.not_le.1 hle)
      exact (Prod.mk.inj (h.symm.trans herror)).2
  · by_cases hle : data.length ≤ max
    · have hout := (Prod.mk.inj (h.symm.trans (hwrites data hle out))).2
      exact ⟨_, hout, fun rest => (haccepts _ data rest).2 ⟨_, ⟨hle, rfl⟩, rfl⟩⟩
    · obtain ⟨e, herror⟩ := hfails data out (Nat.not_le.1 hle)
      cases h.symm.trans herror
  · have hvalue (hlen : k + valueOf (input.take k) ≤ input.length)
        (hdata : data = (input.drop k).take (valueOf (input.take k))) :
        data.length = valueOf (input.take k) := by
      rw [hdata, List.length_take, List.length_drop]
      omega
    rw [haccepts]
    constructor
    · rintro ⟨_, ⟨hle, rfl⟩, hinput⟩
      rw [List.append_assoc] at hinput
      obtain ⟨hlen, hdata, hrest⟩ := eq_bytesOf_append_iff.1 ⟨by omega, hinput⟩
      have := hvalue hlen hdata
      exact ⟨by omega, hlen, hdata, hrest⟩
    · rintro ⟨hbytes, hlen, hdata, hrest⟩
      obtain ⟨hlt, hinput⟩ := eq_bytesOf_append_iff.2 ⟨hlen, hdata, hrest⟩
      have := hvalue hlen hdata
      exact ⟨_, ⟨by omega, rfl⟩, by rw [hinput, List.append_assoc]⟩

/-- **Byte arrays are framed by their length**, in one byte and in four. -/
theorem byte_arrays_framed : Frames 1 255 write_bytes_u8 read_bytes_u8 ∧
    Frames 4 MAX_BYTES write_bytes_u32 read_bytes_u32 :=
  ⟨frames_of_accepts rfl (fun _ => writes_write_bytes_u8) (fun _ out h => write_bytes_of_lt h out)
      accepts_read_bytes_u8,
    frames_of_accepts rfl (fun _ => writes_write_bytes_u32)
      (fun _ out h => write_bytes_of_lt h out) accepts_read_bytes_u32⟩

/-! ## Text -/

/-- The bytes of a string. -/
def as_bytes (s : String) : Bytes := s.toByteArray.data.toList

/-- Where the first byte sequence starts that is not UTF-8, from position `i` on, and its length, or
`none` where the input ends in the middle of a sequence. -/
def invalidAt (i : ℕ) : Bytes → Option (ℕ × Option ℕ)
  | [] => none
  | b :: rest =>
    let tail (c : UInt8) : Bool := 0x80 ≤ c ∧ c < 0xC0
    if b < 0x80 then invalidAt (i + 1) rest
    else if 0xC2 ≤ b ∧ b < 0xE0 then
      match rest with
      | [] => some (i, none)
      | c :: rest => if tail c then invalidAt (i + 2) rest else some (i, some 1)
    else if 0xE0 ≤ b ∧ b < 0xF0 then
      match rest with
      | [] => some (i, none)
      | c :: rest =>
        if tail c ∧ (b = 0xE0 → 0xA0 ≤ c) ∧ (b = 0xED → c < 0xA0) then
          match rest with
          | [] => some (i, none)
          | d :: rest => if tail d then invalidAt (i + 3) rest else some (i, some 2)
        else some (i, some 1)
    else if 0xF0 ≤ b ∧ b < 0xF5 then
      match rest with
      | [] => some (i, none)
      | c :: rest =>
        if tail c ∧ (b = 0xF0 → 0x90 ≤ c) ∧ (b = 0xF4 → c < 0x90) then
          match rest with
          | [] => some (i, none)
          | d :: rest =>
            if tail d then
              match rest with
              | [] => some (i, none)
              | e :: rest => if tail e then invalidAt (i + 4) rest else some (i, some 3)
            else some (i, some 2)
        else some (i, some 1)
    else some (i, some 1)

/-- `String::from_utf8`, with the text of its error. -/
def from_utf8 (bytes : Bytes) : Except String String :=
  match String.fromUTF8? ⟨bytes.toArray⟩ with
  | some s => .ok s
  | none =>
    match invalidAt 0 bytes with
    | some (i, some n) => .error s!"invalid utf-8 sequence of {n} bytes from index {i}"
    | some (i, none) => .error s!"incomplete utf-8 byte sequence from index {i}"
    | none => .error ""

theorem length_as_bytes (s : String) : (as_bytes s).length = s.utf8ByteSize := rfl

theorem from_utf8_as_bytes (s : String) : from_utf8 (as_bytes s) = .ok s := by
  have hbytes : (⟨(as_bytes s).toArray⟩ : ByteArray) = s.toByteArray := by simp [as_bytes]
  have hsome : String.fromUTF8? s.toByteArray = some s := by
    rw [String.fromUTF8?, dif_pos s.isValidUTF8]
    rfl
  rw [from_utf8, hbytes, hsome]

/-- What is decoded is the bytes of a string. -/
theorem from_utf8_eq_ok {bytes : Bytes} {s : String} :
    from_utf8 bytes = .ok s ↔ as_bytes s = bytes := by
  refine ⟨fun h => ?_, fun h => h ▸ from_utf8_as_bytes s⟩
  rw [from_utf8, String.fromUTF8?] at h
  split at h
  · rename_i s' hs'
    obtain rfl := Except.ok.inj h
    split at hs'
    · obtain rfl := Option.some.inj hs'
      simp [as_bytes, String.fromUTF8]
    · cases hs'
  · split at h <;> cases h

end Nethernet
