import Nethernet.Protocol.Types

/-!
# Server data

`src/protocol/packet/discovery/server_data.rs`: what a server tells about its world, in the
application data of a response.
-/

namespace Nethernet

open Foundations Reader Writer

/-- Current version of the server data. -/
def VERSION : UInt8 := 4

/-- A server and its world. -/
structure ServerData where
  server_name : String
  level_name : String
  game_type : UInt8
  player_count : Int32
  max_player_count : Int32
  editor_world : Bool
  hardcore : Bool
  transport_layer : UInt8
  connection_type : UInt8
  deriving DecidableEq

namespace ServerData

/-- A server and its world, with the defaults of the other fields. -/
def new (server_name level_name : String) : ServerData where
  server_name := server_name
  level_name := level_name
  game_type := 0
  player_count := 1
  max_player_count := 8
  editor_world := false
  hardcore := false
  transport_layer := 2
  connection_type := 4

/-- A field that is shifted left when it is written must be below 128. -/
def check_shift (field : String) (value : UInt8) : Except NethernetError Unit :=
  if 128 ≤ value then
    .error (.Other s!"{field} must be less than 128 to avoid overflow, got {value}")
  else .ok ()

/-- Write every field, the three small ones shifted left by one. -/
def write (d : ServerData) : Write := do
  write_u8 VERSION
  write_bytes_u8 (as_bytes d.server_name)
  write_bytes_u8 (as_bytes d.level_name)
  write_u8 (d.game_type <<< 1)
  write_i32_le d.player_count
  write_i32_le d.max_player_count
  write_u8 (if d.editor_world then 1 else 0)
  write_u8 (if d.hardcore then 1 else 0)
  write_u8 (d.transport_layer <<< 1)
  write_u8 (d.connection_type <<< 1)

def marshal (d : ServerData) : Except NethernetError Bytes := do
  check_shift "game_type" d.game_type
  check_shift "transport_layer" d.transport_layer
  check_shift "connection_type" d.connection_type
  match d.write [] with
  | (.ok (), buf) => .ok buf
  | (.error e, _) => .error e

/-- Read a name; `field` is its name in the error. -/
def read_name (field : String) : Read String := do
  let name_bytes ← read_bytes_u8
  Reader.lift ((from_utf8 name_bytes).mapError fun e => .Other s!"invalid {field} UTF-8: {e}")

/-- Read every field. -/
def read : Read ServerData := do
  let version ← read_u8
  if version ≠ VERSION then throw (.Other s!"version mismatch: got {version}, want {VERSION}")
  else do
    let server_name ← read_name "server name"
    let level_name ← read_name "level name"
    let game_type ← read_u8
    let player_count ← read_i32_le
    let max_player_count ← read_i32_le
    let editor_world ← read_u8
    let hardcore ← read_u8
    let transport_layer ← read_u8
    let connection_type ← read_u8
    pure { server_name, level_name, game_type := game_type >>> 1, player_count, max_player_count,
           editor_world := editor_world ≠ 0, hardcore := hardcore ≠ 0,
           transport_layer := transport_layer >>> 1, connection_type := connection_type >>> 1 }

def unmarshal (data : Bytes) : Except NethernetError ServerData := do
  let (decoded, rest) ← read data
  let remaining := rest.length
  if remaining ≠ 0 then .error (.Other s!"unread {remaining} bytes")
  else .ok decoded

/-! ## The round trip -/

/-- The bytes of the fields. -/
def bytes (d : ServerData) : Bytes :=
  [VERSION] ++ (([UInt8.ofNat (as_bytes d.server_name).length] ++ as_bytes d.server_name) ++
    (([UInt8.ofNat (as_bytes d.level_name).length] ++ as_bytes d.level_name) ++
      ([d.game_type <<< 1] ++ (bytesOf 4 d.player_count.toUInt32.toNat ++
        (bytesOf 4 d.max_player_count.toUInt32.toNat ++
          ([(if d.editor_world then 1 else 0 : UInt8)] ++
            ([(if d.hardcore then 1 else 0 : UInt8)] ++ ([d.transport_layer <<< 1] ++
              [d.connection_type <<< 1]))))))))

/-- What `marshal` accepts: short names, and small numbers where a field is shifted. -/
structure Fits (d : ServerData) : Prop where
  server_name : (as_bytes d.server_name).length ≤ 255
  level_name : (as_bytes d.level_name).length ≤ 255
  game_type : d.game_type < 128
  transport_layer : d.transport_layer < 128
  connection_type : d.connection_type < 128

theorem check_shift_of_lt {field : String} {value : UInt8} (h : value < 128) :
    check_shift field value = .ok () := if_neg (UInt8.not_le.2 h)

theorem lt_of_check_shift {field : String} {value : UInt8} (h : check_shift field value = .ok ()) :
    value < 128 := by
  by_contra hle
  rw [check_shift, if_pos (UInt8.not_lt.1 hle)] at h
  cases h

theorem writes_write {d : ServerData} (hd : d.Fits) : Writes d.write d.bytes :=
  (writes_all _).bind ((writes_write_bytes_u8 hd.server_name).bind
    ((writes_write_bytes_u8 hd.level_name).bind ((writes_all _).bind ((writes_all _).bind
      ((writes_all _).bind ((writes_all _).bind ((writes_all _).bind ((writes_all _).bind
        (writes_all _)))))))))

/-- A name that is too long cannot be written. -/
theorem fails_write {d : ServerData}
    (h : ¬ ((as_bytes d.server_name).length ≤ 255 ∧ (as_bytes d.level_name).length ≤ 255)) :
    Fails d.write := by
  refine (writes_all _).bind_fails ?_
  by_cases hserver : (as_bytes d.server_name).length ≤ 255
  · have hlevel : 255 < (as_bytes d.level_name).length :=
      Nat.not_le.1 fun hlevel => h ⟨hserver, hlevel⟩
    exact (writes_write_bytes_u8 hserver).bind_fails ((fails_write_bytes_u8 hlevel).bind _)
  · exact (fails_write_bytes_u8 (Nat.not_le.1 hserver)).bind _

/-- **What `marshal` returns.** -/
theorem marshal_ok_iff {d : ServerData} {data : Bytes} :
    d.marshal = .ok data ↔ d.Fits ∧ data = d.bytes := by
  constructor
  · intro h
    rcases hgame : check_shift "game_type" d.game_type with e | ⟨⟩
    · rw [marshal, hgame] at h
      cases h
    rcases htransport : check_shift "transport_layer" d.transport_layer with e | ⟨⟩
    · rw [marshal, hgame, htransport] at h
      cases h
    rcases hconnection : check_shift "connection_type" d.connection_type with e | ⟨⟩
    · rw [marshal, hgame, htransport, hconnection] at h
      cases h
    rw [marshal, hgame, htransport, hconnection] at h
    by_cases hnames : (as_bytes d.server_name).length ≤ 255 ∧ (as_bytes d.level_name).length ≤ 255
    · have hd : d.Fits := ⟨hnames.1, hnames.2, lt_of_check_shift hgame,
        lt_of_check_shift htransport, lt_of_check_shift hconnection⟩
      have hwrite := writes_write hd []
      change (match d.write [] with
        | (.ok (), buf) => .ok buf
        | (.error e, _) => .error e : Except NethernetError Bytes) = .ok data at h
      rw [hwrite] at h
      exact ⟨hd, (Except.ok.inj h).symm⟩
    · obtain ⟨e, out, he⟩ := fails_write hnames []
      change (match d.write [] with
        | (.ok (), buf) => .ok buf
        | (.error e, _) => .error e : Except NethernetError Bytes) = .ok data at h
      rw [he] at h
      cases h
  · rintro ⟨hd, rfl⟩
    have hwrite := writes_write hd []
    rw [marshal, check_shift_of_lt hd.game_type, check_shift_of_lt hd.transport_layer,
      check_shift_of_lt hd.connection_type]
    change (match d.write [] with
      | (.ok (), buf) => .ok buf
      | (.error e, _) => .error e : Except NethernetError Bytes) = .ok d.bytes
    rw [hwrite]
    rfl

/-- A small number that was shifted left is shifted back. -/
theorem shift_back {value : UInt8} (h : value < 128) : value <<< 1 >>> 1 = value := by
  rw [UInt8.lt_iff_toNat_lt] at h
  apply UInt8.toNat_inj.1
  rw [UInt8.toNat_shiftRight, UInt8.toNat_shiftLeft]
  have h128 : (128 : UInt8).toNat = 128 := rfl
  have h1 : (1 : UInt8).toNat % 8 = 1 := rfl
  rw [h1, Nat.shiftLeft_eq, Nat.shiftRight_eq_div_pow]
  omega

theorem reads_read_name {field name : String} (h : (as_bytes name).length ≤ 255) :
    Reads (read_name field) ([UInt8.ofNat (as_bytes name).length] ++ as_bytes name) name := by
  rw [← List.append_nil (_ ++ _)]
  refine (reads_read_bytes_u8 h).bind ?_
  rw [from_utf8_as_bytes]
  exact reads_pure name

/-- A flag is read back. -/
theorem flag_ne_zero (b : Bool) : decide ((if b then 1 else 0 : UInt8) ≠ 0) = b := by
  cases b <;> rfl

/-- **Server data is read back.** -/
theorem reads_read {d : ServerData} (hd : d.Fits) : Reads read d.bytes d := by
  refine (reads_u8 VERSION).bind ?_
  rw [if_neg (not_not.2 rfl)]
  refine (reads_read_name hd.server_name).bind ((reads_read_name hd.level_name).bind
    ((reads_u8 _).bind ((reads_i32_le _).bind ((reads_i32_le _).bind ((reads_u8 _).bind
      ((reads_u8 _).bind ((reads_u8 _).bind ?_)))))))
  rw [← List.append_nil [d.connection_type <<< 1]]
  refine (reads_u8 _).bind ?_
  simp only [shift_back hd.game_type, shift_back hd.transport_layer, shift_back hd.connection_type,
    flag_ne_zero]
  exact reads_pure d

/-- **What `marshal` returns is decoded** to the same server data. -/
theorem unmarshal_marshal {d : ServerData} {data : Bytes} (h : d.marshal = .ok data) :
    unmarshal data = .ok d := by
  obtain ⟨hd, rfl⟩ := marshal_ok_iff.1 h
  have hread := reads_read hd []
  rw [List.append_nil] at hread
  rw [unmarshal, hread]
  rfl

/-! ## What is decoded -/

theorem length_of_read_name {field : String} {xs rest : Bytes} {name : String}
    (h : read_name field xs = .ok (name, rest)) : (as_bytes name).length ≤ 255 := by
  obtain ⟨name_bytes, xs', hbytes, h⟩ := bind_eq_ok.1 h
  obtain ⟨-, ⟨hlen, -⟩, -⟩ := (accepts_read_bytes_u8 _ _ _).1 hbytes
  obtain ⟨-, ⟨-, hname⟩, -⟩ := (accepts_lift_mapError _ _ _ _ _).1 h
  rwa [from_utf8_eq_ok.1 hname]

theorem shift_lt (value : UInt8) : value >>> 1 < 128 := by
  have hlt := value.toNat_lt
  have h128 : (128 : UInt8).toNat = 128 := rfl
  have h1 : (1 : UInt8).toNat % 8 = 1 := rfl
  rw [UInt8.lt_iff_toNat_lt, UInt8.toNat_shiftRight, h1, Nat.shiftRight_eq_div_pow]
  omega

/-- **What is decoded can be encoded**, even where its bytes are not those that `marshal` writes. -/
theorem fits_of_read {xs rest : Bytes} {d : ServerData} (h : read xs = .ok (d, rest)) :
    d.Fits := by
  obtain ⟨version, xs, -, h⟩ := bind_eq_ok.1 h
  split at h
  · cases h
  obtain ⟨server_name, xs, hserver, h⟩ := bind_eq_ok.1 h
  obtain ⟨level_name, xs, hlevel, h⟩ := bind_eq_ok.1 h
  obtain ⟨game_type, xs, -, h⟩ := bind_eq_ok.1 h
  obtain ⟨player_count, xs, -, h⟩ := bind_eq_ok.1 h
  obtain ⟨max_player_count, xs, -, h⟩ := bind_eq_ok.1 h
  obtain ⟨editor_world, xs, -, h⟩ := bind_eq_ok.1 h
  obtain ⟨hardcore, xs, -, h⟩ := bind_eq_ok.1 h
  obtain ⟨transport_layer, xs, -, h⟩ := bind_eq_ok.1 h
  obtain ⟨connection_type, xs, -, h⟩ := bind_eq_ok.1 h
  obtain ⟨rfl, -⟩ := Prod.mk.inj (Except.ok.inj h)
  exact ⟨length_of_read_name hserver, length_of_read_name hlevel, shift_lt game_type,
    shift_lt transport_layer, shift_lt connection_type⟩

theorem fits_of_unmarshal {data : Bytes} {d : ServerData} (h : unmarshal data = .ok d) :
    d.Fits := by
  rw [unmarshal] at h
  rcases hread : read data with e | ⟨decoded, rest⟩
  · rw [hread] at h
    cases h
  · rw [hread] at h
    change (if rest.length ≠ 0 then _ else .ok decoded : Except NethernetError ServerData) = _ at h
    split at h
    · cases h
    · obtain rfl := Except.ok.inj h
      exact fits_of_read hread

/-- Encoded server data is short. -/
theorem length_marshal {d : ServerData} {data : Bytes} (h : d.marshal = .ok data) :
    data.length ≤ 526 := by
  obtain ⟨hd, rfl⟩ := marshal_ok_iff.1 h
  have hserver := hd.server_name
  have hlevel := hd.level_name
  simp only [bytes, List.length_append, List.length_singleton, length_bytesOf]
  omega

end ServerData

end Nethernet
