import Mathlib.Data.List.Induction
import Mathlib.Logic.Equiv.Basic
import Nethernet.Foundations.Blocks
import Nethernet.Protocol.Error

/-!
# Encryption of discovery packets

`src/protocol/packet/discovery/crypto.rs`: AES-256 block by block with PKCS#7 padding, and the
HMAC-SHA256 checksum. The block cipher and the checksum themselves come from other crates and are
parameters (`Crypto`); `Crypto.Lawful` is what the protocol relies on.
-/

namespace Nethernet

open Foundations

/-- A block of the cipher. -/
abbrev Block := Vector UInt8 16

/-- A checksum. -/
abbrev Checksum := Vector UInt8 32

/-- The cipher and the checksum, under the key of the module. -/
structure Crypto where
  /-- AES-256 encryption of one block. -/
  encrypt_block : Block → Block
  /-- AES-256 decryption of one block. -/
  decrypt_block : Block → Block
  /-- HMAC-SHA256 of the data. -/
  finalize : Bytes → Checksum
  /-- Is this the HMAC-SHA256 of the data? -/
  verify_slice : Bytes → Checksum → Bool

namespace Crypto

/-- Decryption undoes encryption, and verification accepts the checksum of the same data. -/
structure Lawful (c : Crypto) : Prop where
  decrypt_encrypt : ∀ block, c.decrypt_block (c.encrypt_block block) = block
  verify_finalize : ∀ data, c.verify_slice data (c.finalize data) = true

/-- Encryption undoes decryption, too, and no other checksum is accepted. -/
structure Exact (c : Crypto) : Prop extends c.Lawful where
  encrypt_decrypt : ∀ block, c.encrypt_block (c.decrypt_block block) = block
  verify_slice_iff : ∀ data checksum,
    c.verify_slice data checksum = true ↔ checksum = c.finalize data

/-- The two block functions are inverse to each other. -/
structure Inverse (c : Crypto) : Prop where
  decrypt_encrypt : ∀ block, c.decrypt_block (c.encrypt_block block) = block
  encrypt_decrypt : ∀ block, c.encrypt_block (c.decrypt_block block) = block

theorem Exact.inverse {c : Crypto} (hc : c.Exact) : c.Inverse :=
  ⟨hc.decrypt_encrypt, hc.encrypt_decrypt⟩

/-- The bytes that differ from `padding_len`, or-ed together. -/
def mismatched (padding_len : UInt8) (bytes : Bytes) : UInt8 :=
  bytes.foldl (fun mismatched byte => mismatched ||| (byte ^^^ padding_len)) 0

theorem mismatched_replicate (padding_len : UInt8) (n : ℕ) :
    mismatched padding_len (List.replicate n padding_len) = 0 := by
  induction n with
  | zero => rfl
  | succ n ih =>
    rw [mismatched, List.replicate_succ', List.foldl_append, ← mismatched, ih]
    simp

theorem mismatched_eq_zero {padding_len : UInt8} {bytes : Bytes}
    (h : mismatched padding_len bytes = 0) : bytes = List.replicate bytes.length padding_len := by
  induction bytes using List.reverseRecOn with
  | nil => rfl
  | append_singleton bytes byte ih =>
    rw [mismatched, List.foldl_append, ← mismatched, List.foldl_cons, List.foldl_nil,
      UInt8.or_eq_zero_iff, UInt8.xor_eq_zero_iff] at h
    obtain ⟨hbytes, rfl⟩ := h
    rw [List.length_append, List.length_singleton, List.replicate_succ', ← ih hbytes]

/-- Fill the last block. -/
def pad (buf : Bytes) : Bytes :=
  let padding_len := paddingLen 16 buf.length
  buf ++ List.replicate padding_len (UInt8.ofNat padding_len)

/-- Remove the padding that the last byte announces, if it is one. -/
def unpad (buf : Bytes) : Except NethernetError Bytes :=
  match buf.getLast? with
  | none => .error (.Other "Invalid padding")
  | some padding_len =>
    if 0 < padding_len ∧ padding_len ≤ 16 ∧ padding_len.toNat ≤ buf.length then
      let padding_start := buf.length - padding_len.toNat
      if mismatched padding_len (buf.drop padding_start) = 0 then .ok (buf.take padding_start)
      else .error (.Other "Invalid padding")
    else .error (.Other "Invalid padding")

/-- Encrypt a buffer, padded. -/
def encrypt (c : Crypto) (buf : Bytes) : Except NethernetError Bytes :=
  .ok (mapBlocks c.encrypt_block (pad buf))

/-- Decrypt a buffer and remove its padding. -/
def decrypt (c : Crypto) (buf : Bytes) : Except NethernetError Bytes :=
  if buf = [] ∨ buf.length % 16 ≠ 0 then .error (.Other "Invalid encrypted data length")
  else unpad (mapBlocks c.decrypt_block buf)

def compute_checksum (c : Crypto) (data : Bytes) : Checksum := c.finalize data

def verify_checksum (c : Crypto) (data : Bytes) (expected : Checksum) : Bool :=
  c.verify_slice data expected

theorem length_pad (buf : Bytes) : (pad buf).length = 16 * (buf.length / 16 + 1) := by
  rw [pad, List.length_append, List.length_replicate, add_paddingLen (by decide)]

/-- **Padding is removed again.** -/
theorem unpad_pad (buf : Bytes) : unpad (pad buf) = .ok buf := by
  have hpos := paddingLen_pos (k := 16) (by decide) buf.length
  have hle := paddingLen_le 16 buf.length
  obtain ⟨n, hn⟩ := Nat.exists_eq_succ_of_ne_zero (Nat.ne_of_gt hpos)
  have hval : (UInt8.ofNat (paddingLen 16 buf.length)).toNat = paddingLen 16 buf.length := by
    rw [UInt8.toNat_ofNat_of_lt' (by rw [UInt8.size]; omega)]
  have hlast : (pad buf).getLast? = some (UInt8.ofNat (paddingLen 16 buf.length)) := by
    rw [pad, hn, List.replicate_succ', ← List.append_assoc, List.getLast?_concat]
  have hlen : (pad buf).length = buf.length + paddingLen 16 buf.length := by
    rw [pad, List.length_append, List.length_replicate]
  have hrange : 0 < UInt8.ofNat (paddingLen 16 buf.length) ∧
      UInt8.ofNat (paddingLen 16 buf.length) ≤ 16 ∧
      (UInt8.ofNat (paddingLen 16 buf.length)).toNat ≤ (pad buf).length := by
    rw [UInt8.lt_iff_toNat_lt, UInt8.le_iff_toNat_le, hval, hlen]
    exact ⟨hpos, hle, Nat.le_add_left _ _⟩
  simp only [unpad, hlast]
  rw [if_pos hrange, hval, hlen, Nat.add_sub_cancel]
  rw [pad, List.drop_left, List.take_left, mismatched_replicate, if_pos rfl]

/-- Padding takes at least one byte away, and at most a block. -/
theorem unpad_eq_take {buf data : Bytes} (h : unpad buf = .ok data) :
    ∃ k, k < buf.length ∧ buf.length ≤ k + 16 ∧ data = buf.take k := by
  unfold unpad at h
  split at h
  · cases h
  · rename_i padding_len _
    split at h
    · rename_i hrange
      obtain ⟨hpos, hle, hlen⟩ := hrange
      rw [UInt8.lt_iff_toNat_lt, UInt8.toNat_zero] at hpos
      rw [UInt8.le_iff_toNat_le] at hle
      have h16 : (16 : UInt8).toNat = 16 := rfl
      dsimp only at h
      split at h
      · obtain rfl := Except.ok.inj h
        exact ⟨buf.length - padding_len.toNat, by omega, by omega, rfl⟩
      · cases h
    · cases h

/-- **What is padded** is what full blocks hold before their padding. -/
theorem pad_of_unpad {buf data : Bytes} (hlen : 16 ∣ buf.length) (h : unpad buf = .ok data) :
    pad data = buf := by
  unfold unpad at h
  split at h
  · cases h
  · rename_i padding_len _
    split at h
    · rename_i hrange
      obtain ⟨hpos, hle, hshort⟩ := hrange
      rw [UInt8.lt_iff_toNat_lt, UInt8.toNat_zero] at hpos
      rw [UInt8.le_iff_toNat_le] at hle
      dsimp only at h
      split at h
      · rename_i hpadding
        obtain rfl := Except.ok.inj h
        have htake : (buf.take (buf.length - padding_len.toNat)).length =
            buf.length - padding_len.toNat := List.length_take_of_le (Nat.sub_le _ _)
        have hdrop : buf.drop (buf.length - padding_len.toNat) =
            List.replicate padding_len.toNat padding_len := by
          have := mismatched_eq_zero hpadding
          rwa [List.length_drop, Nat.sub_sub_self hshort] at this
        rw [pad, htake, paddingLen_of_dvd (k := 16) hpos hle (by rwa [Nat.sub_add_cancel hshort]),
          UInt8.ofNat_toNat, ← hdrop, List.take_append_drop]
      · cases h
    · cases h

/-- **Decryption undoes encryption.** -/
theorem decrypt_encrypt {c : Crypto}
    (hc : ∀ block, c.decrypt_block (c.encrypt_block block) = block) (buf : Bytes) :
    c.decrypt (mapBlocks c.encrypt_block (pad buf)) = .ok buf := by
  have hlen : (mapBlocks c.encrypt_block (pad buf)).length = 16 * (buf.length / 16 + 1) := by
    rw [length_mapBlocks, length_pad]
  have hne : mapBlocks c.encrypt_block (pad buf) ≠ [] :=
    List.ne_nil_of_length_pos (by rw [hlen]; omega)
  have hfull : ¬ (mapBlocks c.encrypt_block (pad buf) = [] ∨
      (mapBlocks c.encrypt_block (pad buf)).length % 16 ≠ 0) := by
    rw [hlen, Nat.mul_mod_right]
    simp [hne]
  rw [decrypt, if_neg hfull, mapBlocks_mapBlocks hc, unpad_pad]

/-- **What is decrypted** is what was encrypted. -/
theorem decrypt_ok_iff {c : Crypto} (hc : c.Inverse) {buf data : Bytes} :
    c.decrypt buf = .ok data ↔ buf = mapBlocks c.encrypt_block (pad data) := by
  refine ⟨fun h => ?_, fun h => h ▸ decrypt_encrypt hc.decrypt_encrypt data⟩
  rw [decrypt] at h
  split at h
  · cases h
  · rename_i hfull
    have hlen : 16 ∣ (mapBlocks c.decrypt_block buf).length := by
      rw [length_mapBlocks]
      exact Nat.dvd_of_mod_eq_zero (by omega)
    rw [pad_of_unpad hlen h, mapBlocks_mapBlocks hc.encrypt_decrypt]

/-- **A ciphertext cut after whole blocks** decrypts, if at all, to a proper prefix of what was
encrypted. -/
theorem decrypt_take {c : Crypto} (hc : c.Lawful) {buf : Bytes} {m : ℕ}
    (hlen : 16 * m ≤ buf.length) {data : Bytes}
    (h : c.decrypt ((mapBlocks c.encrypt_block (pad buf)).take (16 * m)) = .ok data) :
    ∃ k, k < 16 * m ∧ 16 * m ≤ k + 16 ∧ data = buf.take k := by
  have hpad : (pad buf).take (16 * m) = buf.take (16 * m) := by
    rw [pad, List.take_append_of_le_length hlen]
  have htake : (buf.take (16 * m)).length = 16 * m := by rw [List.length_take, Nat.min_eq_left hlen]
  rw [← mapBlocks_take, hpad, decrypt] at h
  split at h
  · cases h
  · rw [mapBlocks_mapBlocks hc.decrypt_encrypt] at h
    obtain ⟨k, hk, hk16, rfl⟩ := unpad_eq_take h
    rw [htake] at hk hk16
    exact ⟨k, hk, hk16, by rw [List.take_take, Nat.min_eq_left (by omega)]⟩

/-! ## Tables of packets -/

/-- A cipher that exchanges the blocks of each pair, and the checksums of some plaintexts. -/
def ofTable (blocks : List (Block × Block)) (checksums : List (Bytes × Checksum)) : Crypto :=
  let table : Equiv.Perm Block :=
    blocks.foldr (fun pair table => (Equiv.swap pair.1 pair.2).trans table) (Equiv.refl Block)
  let finalize (data : Bytes) : Checksum :=
    (checksums.lookup data).getD (Vector.replicate 32 0)
  { encrypt_block := table
    decrypt_block := table.symm
    finalize := finalize
    verify_slice := fun data expected => decide (expected = finalize data) }

theorem ofTable_exact (blocks : List (Block × Block)) (checksums : List (Bytes × Checksum)) :
    (ofTable blocks checksums).Exact where
  decrypt_encrypt block := Equiv.symm_apply_apply _ block
  encrypt_decrypt block := Equiv.apply_symm_apply _ block
  verify_finalize data := decide_eq_true (Eq.refl ((ofTable blocks checksums).finalize data))
  verify_slice_iff _ _ := decide_eq_true_iff

/-- The blocks, under the key of the module, of the message `CANDIDATEADD 1 c` of node 7 to
node 9. -/
def message_blocks : List (Block × Block) :=
  [(#v[46, 0, 2, 0, 7, 0, 0, 0, 0, 0, 0, 0, 0, 0, 0, 0],
    #v[223, 200, 159, 25, 80, 169, 197, 143, 42, 117, 207, 212, 153, 204, 70, 215]),
   (#v[0, 0, 0, 0, 9, 0, 0, 0, 0, 0, 0, 0, 16, 0, 0, 0],
    #v[78, 203, 46, 83, 143, 109, 155, 163, 55, 191, 176, 53, 82, 76, 171, 169]),
   (#v[67, 65, 78, 68, 73, 68, 65, 84, 69, 65, 68, 68, 32, 49, 32, 99],
    #v[248, 6, 92, 146, 214, 198, 249, 161, 125, 176, 25, 168, 214, 234, 65, 73]),
   (#v[16, 16, 16, 16, 16, 16, 16, 16, 16, 16, 16, 16, 16, 16, 16, 16],
    #v[22, 176, 104, 128, 16, 96, 163, 170, 141, 223, 92, 0, 212, 95, 85, 146])]

/-- Its checksum. -/
def message_checksums : List (Bytes × Checksum) :=
  [([46, 0, 2, 0, 7, 0, 0, 0, 0, 0, 0, 0, 0, 0, 0, 0, 0, 0, 0, 0, 9, 0, 0, 0, 0, 0, 0, 0, 16, 0, 0,
      0, 67, 65, 78, 68, 73, 68, 65, 84, 69, 65, 68, 68, 32, 49, 32, 99],
    #v[164, 252, 70, 164, 144, 204, 235, 41, 38, 55, 64, 118, 207, 81, 240, 236, 114, 140, 97, 21,
      223, 82, 225, 128, 237, 174, 97, 115, 43, 230, 74, 140])]

def ofSample : Crypto := ofTable message_blocks message_checksums

theorem ofSample_lawful : ofSample.Lawful := (ofTable_exact _ _).toLawful

/-- The blocks of three plaintexts: the request of node 7, the same with the length 0, and the
response of node 9 for the server `A` with the world `B`. -/
def discovery_blocks : List (Block × Block) :=
  [(#v[18, 0, 0, 0, 7, 0, 0, 0, 0, 0, 0, 0, 0, 0, 0, 0],
    #v[229, 60, 77, 246, 232, 246, 39, 48, 231, 74, 235, 153, 3, 167, 131, 124]),
   (#v[0, 0, 0, 0, 7, 0, 0, 0, 0, 0, 0, 0, 0, 0, 0, 0],
    #v[12, 225, 127, 180, 203, 148, 103, 217, 229, 162, 188, 149, 219, 136, 201, 161]),
   (#v[0, 0, 0, 0, 12, 12, 12, 12, 12, 12, 12, 12, 12, 12, 12, 12],
    #v[255, 15, 135, 9, 225, 59, 246, 133, 142, 32, 81, 195, 33, 219, 97, 94]),
   (#v[58, 0, 1, 0, 9, 0, 0, 0, 0, 0, 0, 0, 0, 0, 0, 0],
    #v[10, 12, 131, 76, 31, 220, 157, 50, 222, 175, 187, 180, 83, 205, 173, 238]),
   (#v[0, 0, 0, 0, 36, 0, 0, 0, 48, 52, 48, 49, 52, 49, 48, 49],
    #v[216, 101, 78, 4, 238, 2, 55, 92, 4, 199, 85, 49, 217, 36, 197, 181]),
   (#v[52, 50, 48, 48, 48, 49, 48, 48, 48, 48, 48, 48, 48, 56, 48, 48],
    #v[7, 178, 103, 254, 74, 101, 89, 248, 17, 141, 106, 160, 211, 244, 70, 248]),
   (#v[48, 48, 48, 48, 48, 48, 48, 48, 48, 52, 48, 56, 4, 4, 4, 4],
    #v[162, 33, 13, 249, 1, 37, 88, 0, 203, 82, 81, 206, 203, 110, 172, 155])]

/-- Their checksums. -/
def discovery_checksums : List (Bytes × Checksum) :=
  [([18, 0, 0, 0, 7, 0, 0, 0, 0, 0, 0, 0, 0, 0, 0, 0, 0, 0, 0, 0],
    #v[161, 170, 23, 51, 39, 182, 234, 190, 235, 52, 212, 216, 181, 36, 33, 25, 187, 135, 159, 41,
      250, 228, 56, 120, 231, 233, 131, 203, 57, 7, 236, 165]),
   ([0, 0, 0, 0, 7, 0, 0, 0, 0, 0, 0, 0, 0, 0, 0, 0, 0, 0, 0, 0],
    #v[22, 2, 246, 205, 145, 41, 159, 24, 171, 235, 246, 108, 243, 50, 166, 197, 144, 210, 77,
      224, 175, 210, 12, 31, 78, 79, 254, 80, 72, 63, 170, 42]),
   ([58, 0, 1, 0, 9, 0, 0, 0, 0, 0, 0, 0, 0, 0, 0, 0, 0, 0, 0, 0, 36, 0, 0, 0, 48, 52, 48, 49, 52,
      49, 48, 49, 52, 50, 48, 48, 48, 49, 48, 48, 48, 48, 48, 48, 48, 56, 48, 48, 48, 48, 48, 48,
      48, 48, 48, 48, 48, 52, 48, 56],
    #v[255, 178, 6, 51, 144, 127, 3, 228, 227, 217, 71, 241, 233, 41, 223, 28, 93, 129, 47, 175,
      70, 202, 52, 234, 193, 111, 215, 40, 90, 116, 182, 157])]

def ofDiscovery : Crypto := ofTable discovery_blocks discovery_checksums

theorem ofDiscovery_exact : ofDiscovery.Exact := ofTable_exact _ _

theorem ofDiscovery_lawful : ofDiscovery.Lawful := ofDiscovery_exact.toLawful

/-- **Encryption and decryption are inverse to each other**: every buffer is decrypted from its
ciphertext, and a buffer that is decrypted is the ciphertext of its plaintext, which is 1 to 16
bytes shorter. -/
theorem encrypt_decrypt_inverse {c : Crypto} (hc : c.Inverse) :
    (∀ buf, (c.encrypt buf).bind c.decrypt = .ok buf) ∧
      ∀ buf data, c.decrypt buf = .ok data →
        0 < buf.length ∧ 16 ∣ buf.length ∧ data.length + 1 ≤ buf.length ∧
          buf.length ≤ data.length + 16 ∧ c.encrypt data = .ok buf := by
  refine ⟨fun buf => decrypt_encrypt hc.decrypt_encrypt buf, fun buf data h => ?_⟩
  obtain rfl := (decrypt_ok_iff hc).1 h
  have hlen : (mapBlocks c.encrypt_block (pad data)).length = 16 * (data.length / 16 + 1) := by
    rw [length_mapBlocks, length_pad]
  rw [hlen]
  exact ⟨by omega, Nat.dvd_mul_right 16 _, by omega, by omega, rfl⟩

/-- The request of node 7 is decrypted from its ciphertext. -/
theorem encrypt_decrypt_request :
    (ofDiscovery.encrypt [18, 0, 0, 0, 7, 0, 0, 0, 0, 0, 0, 0, 0, 0, 0, 0, 0, 0, 0, 0]).bind
        ofDiscovery.decrypt =
      .ok [18, 0, 0, 0, 7, 0, 0, 0, 0, 0, 0, 0, 0, 0, 0, 0, 0, 0, 0, 0] :=
  (encrypt_decrypt_inverse ofDiscovery_exact.inverse).1 _

end Crypto

end Nethernet
