import Nethernet.Foundations.Transition
import Nethernet.Signaling.Lan

/-!
# The life of a node

The rest of `src/signaling/lan.rs`: the interval of the background task, the server data, and what a
node reports. A history is a list of events: a datagram arrives, the interval ticks, a signal is
sent or the server data is set. `Heard` says which datagrams of a history the node has heard of an
id, and `after_concat` what the last event does.
-/

namespace Nethernet

open Foundations

/-- How long an address is kept, in nanoseconds. -/
def ADDRESS_TIMEOUT : ℕ := 15000000000

namespace LanSignaling

variable {Addr : Type} (c : Crypto) (h : Hex)

/-- The socket sends every datagram. -/
def send_ok (_ : Bytes) (_ : Addr) : Except String Unit := .ok ()

/-- A new node. -/
def new (network_id : UInt64) : LanSignaling Addr where
  network_id := network_id
  addresses _ := none
  server_data := none
  discovered_servers _ := none
  published := []
  sent := []

/-- The servers that have answered, by their network ids. -/
def discover (n : LanSignaling Addr) : UInt64 → Option ServerData := n.discovered_servers

/-- The last-known address of a network id. -/
def get_address (n : LanSignaling Addr) (network_id : UInt64) : Option Addr :=
  (n.addresses network_id).map (·.addr)

/-- Keep the addresses that were heard of less than the timeout ago. -/
def cleanup_addresses (n : LanSignaling Addr) (now : ℕ) : LanSignaling Addr :=
  { n with addresses := fun network_id =>
      (n.addresses network_id).filter fun entry => now - entry.last_seen < ADDRESS_TIMEOUT }

/-- Send a discovery request. -/
def send_request (n : LanSignaling Addr) (addr : Addr)
    (send_to : Bytes → Addr → Except String Unit) :
    Except NethernetError Unit × LanSignaling Addr :=
  match marshal c h (.Request {}) n.network_id with
  | .error e => (.error e, n)
  | .ok data =>
    match send_to data addr with
    | .error e => (.error (.Io e), n)
    | .ok () => (.ok (), { n with sent := n.sent ++ [(data, addr)] })

/-- The interval ticks: clean up, and send a request where there is a broadcast address. -/
def tick (n : LanSignaling Addr) (broadcast_addr : Option Addr) (now : ℕ)
    (send_to : Bytes → Addr → Except String Unit) : LanSignaling Addr :=
  let n := n.cleanup_addresses now
  match broadcast_addr with
  | none => n
  | some addr => (n.send_request c h addr send_to).2

/-- Set the server data, or remove it where the bytes are none. -/
def set_pong_data (n : LanSignaling Addr) (data : Bytes) : LanSignaling Addr :=
  { n with server_data := (ServerData.unmarshal data).toOption }

/-- What happens to a node. `send_to` is what the socket answers. -/
inductive Event (Addr : Type)
  | receive (datagram : Bytes) (addr : Addr) (now : ℕ) (send_to : Bytes → Addr → Except String Unit)
  | tick (broadcast_addr : Option Addr) (now : ℕ) (send_to : Bytes → Addr → Except String Unit)
  | signal (signal : Signal) (send_to : Bytes → Addr → Except String Unit)
  | set_pong_data (data : Bytes)

/-- The node after an event. -/
def act (n : LanSignaling Addr) : Event Addr → LanSignaling Addr
  | .receive datagram addr now send_to => n.receive c h datagram addr now send_to
  | .tick broadcast_addr now send_to => n.tick c h broadcast_addr now send_to
  | .signal s send_to => (n.signal c h s send_to).2
  | .set_pong_data data => n.set_pong_data data

/-- The node after a history. -/
def after (n : LanSignaling Addr) (history : List (Event Addr)) : LanSignaling Addr :=
  history.foldl (act c h) n

@[simp] theorem after_nil (n : LanSignaling Addr) : n.after c h [] = n := rfl

theorem after_concat (n : LanSignaling Addr) (history : List (Event Addr)) (event : Event Addr) :
    n.after c h (history ++ [event]) = (n.after c h history).act c h event :=
  List.foldl_append

end LanSignaling

end Nethernet
