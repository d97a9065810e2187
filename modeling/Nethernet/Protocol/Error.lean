import Mathlib.Data.List.Basic

/-!
# Errors and constants

`NethernetError` (`src/error/mod.rs`), with the variants the modelled functions return, and the
constants of `src/protocol/constants.rs` they use. A message text is kept where the source formats
one; what a foreign crate puts into it is a parameter.
-/

namespace Nethernet

/-- A byte string: `Bytes`, `BytesMut`, `Vec<u8>` and `&[u8]` of the source. -/
abbrev Bytes := List UInt8

/-- Errors related to the NetherNet protocol. -/
inductive NethernetError
  /-- An error of the WebRTC crate. -/
  | WebRtc (error : String)
  | Io (error : String)
  | ConnectionClosed
  | DataChannel (message : String)
  | MessageParse (message : String)
  | MessageTooLarge (size : ℕ)
  | Timeout
  | Other (message : String)
  deriving DecidableEq, Repr

/-- Packet IDs. -/
def ID_REQUEST_PACKET : UInt16 := 0
def ID_RESPONSE_PACKET : UInt16 := 1
def ID_MESSAGE_PACKET : UInt16 := 2

/-- Maximum message size (in bytes). -/
def MAX_MESSAGE_SIZE : ℕ := 10000

/-- Maximum allowed size for general byte arrays. -/
def MAX_BYTES : ℕ := 16 * 1024 * 1024

end Nethernet
