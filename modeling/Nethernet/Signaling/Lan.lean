import Mathlib.Logic.Function.Basic
import Nethernet.Discovery.Marshal
import Nethernet.Discovery.ServerData
import Nethernet.Protocol.Signal

/-!
# Signaling over the local network

`src/signaling/lan.rs`: a node keeps the addresses of the nodes it has heard of, sends a signal as a
message packet to the address of its recipient, and publishes the signals it receives.

A node's state holds what its background task and `signal` share, and what they have published and
sent so far. `signal_published_iff`: a signal that is sent and delivered is published by its
recipient exactly when its text is at most 4031 bytes, since the receive buffer cuts off the rest of
a longer datagram.
-/

namespace Nethernet

open Foundations Reader Writer

/-- The ping token. -/
def PING_TOKEN : String := "Ping"

/-- Where a node was last heard of, and when. -/
structure AddressEntry (Addr : Type) where
  addr : Addr
  last_seen : ℕ

/-- A node. `published` are the signals given to the broadcast channel, and `sent` the datagrams
given to the socket. -/
structure LanSignaling (Addr : Type) where
  network_id : UInt64
  addresses : UInt64 → Option (AddressEntry Addr)
  server_data : Option ServerData
  discovered_servers : UInt64 → Option ServerData
  published : List Signal
  sent : List (Bytes × Addr)

namespace LanSignaling

variable {Addr : Type} (c : Crypto) (h : Hex)

/-- `handle_packet` on a request: send the server data, if there is any. A failure to send is
ignored. -/
def handle_request (n : LanSignaling Addr) (addr : Addr)
    (send_to : Bytes → Addr → Except String Unit) :
    Except NethernetError Unit × LanSignaling Addr :=
  match n.server_data with
  | none => (.ok (), n)
  | some data =>
    match data.marshal with
    | .error e => (.error e, n)
    | .ok app_data =>
      match marshal c h (.Response ⟨app_data⟩) n.network_id with
      | .error e => (.error e, n)
      | .ok response_data =>
        match send_to response_data addr with
        | .ok () => (.ok (), { n with sent := n.sent ++ [(response_data, addr)] })
        | .error _ => (.ok (), n)

/-- `handle_packet` on a message: publish the signal it carries, unless it is a ping, for another
recipient or no signal. -/
def handle_message (n : LanSignaling Addr) (message : MessagePacket) (sender_id : UInt64) :
    LanSignaling Addr :=
  if message.data = PING_TOKEN then n
  else if message.recipient_id = n.network_id then
    match Signal.from_string message.data (u64_to_string sender_id) with
    | .ok signal => { n with published := n.published ++ [signal] }
    | .error _ => n
  else n

/-- Handle a datagram from `addr`, at time `now`. -/
def handle_packet (n : LanSignaling Addr) (data : Bytes) (addr : Addr) (now : ℕ)
    (send_to : Bytes → Addr → Except String Unit) :
    Except NethernetError Unit × LanSignaling Addr :=
  match unmarshal c h data with
  | .error _ => (.ok (), n)
  | .ok (packet, sender_id) =>
    if sender_id = n.network_id then (.ok (), n)
    else
      let n := { n with addresses := Function.update n.addresses sender_id (some ⟨addr, now⟩) }
      match packet with
      | .Request _ => n.handle_request c h addr send_to
      | .Response response =>
        match ServerData.unmarshal response.application_data with
        | .ok server_info =>
          (.ok (), { n with discovered_servers :=
              Function.update n.discovered_servers sender_id (some server_info) })
        | .error _ => (.ok (), n)
      | .Message message => (.ok (), n.handle_message message sender_id)

/-- The background task receives a datagram: `recv_from` cuts off what does not fit the buffer, and
the result of `handle_packet` is dropped. -/
def receive (n : LanSignaling Addr) (datagram : Bytes) (addr : Addr) (now : ℕ)
    (send_to : Bytes → Addr → Except String Unit) : LanSignaling Addr :=
  (n.handle_packet c h (datagram.take 4096) addr now send_to).2

/-- Send a signal to the node that its network id names. -/
def signal (n : LanSignaling Addr) (signal : Signal) (send_to : Bytes → Addr → Except String Unit) :
    Except NethernetError Unit × LanSignaling Addr :=
  match parse_u64 signal.network_id with
  | .error e => (.error (.Other s!"Invalid network ID: {e}"), n)
  | .ok network_id =>
    match n.addresses network_id with
    | none => (.error (.Other s!"Address not found for network {u64_to_string network_id}"), n)
    | some entry =>
      match marshal c h (.Message ⟨network_id, signal.to_string⟩) n.network_id with
      | .error e => (.error e, n)
      | .ok data =>
        match send_to data entry.addr with
        | .error e => (.error (.Io e), n)
        | .ok () => (.ok (), { n with sent := n.sent ++ [(data, entry.addr)] })

/-! ## A signal from one node to another -/

variable {c h}

/-- What `signal` does when it succeeds. -/
theorem signal_ok {n n' : LanSignaling Addr} {s : Signal} {network_id : UInt64}
    {send_to : Bytes → Addr → Except String Unit} (hid : s.network_id = u64_to_string network_id)
    (hsend : n.signal c h s send_to = (.ok (), n')) :
    ∃ entry data, n.addresses network_id = some entry ∧
      marshal c h (.Message ⟨network_id, s.to_string⟩) n.network_id = .ok data ∧
      n'.sent = n.sent ++ [(data, entry.addr)] := by
  rw [signal, hid, parse_u64_to_string] at hsend
  rcases hentry : n.addresses network_id with _ | entry
  · simp [hentry] at hsend
  rcases hdata : marshal c h (.Message ⟨network_id, s.to_string⟩) n.network_id with e | data
  · simp [hentry, hdata] at hsend
  rcases hsent : send_to data entry.addr with e | _
  · simp [hentry, hdata, hsent] at hsend
  simp only [hentry, hdata, hsent, Prod.mk.injEq, true_and] at hsend
  exact ⟨entry, data, rfl, rfl, hsend ▸ rfl⟩

/-- `signal` succeeds when the recipient is known, its text fits a packet and the socket takes the
packet. -/
theorem signal_of_marshal {n : LanSignaling Addr} {s : Signal} {network_id : UInt64}
    {send_to : Bytes → Addr → Except String Unit} (hid : s.network_id = u64_to_string network_id)
    {entry : AddressEntry Addr} (hentry : n.addresses network_id = some entry) {data : Bytes}
    (hdata : marshal c h (.Message ⟨network_id, s.to_string⟩) n.network_id = .ok data)
    (hsent : send_to data entry.addr = .ok ()) :
    n.signal c h s send_to = (.ok (), { n with sent := n.sent ++ [(data, entry.addr)] }) := by
  rw [signal, hid, parse_u64_to_string]
  simp only [hentry, hdata, hsent]

/-- A message that is decoded reaches `handle_message`. -/
theorem receive_message {n : LanSignaling Addr} {datagram : Bytes} {message : MessagePacket}
    {sender_id : UInt64} (hne : sender_id ≠ n.network_id)
    (hdata : unmarshal c h (datagram.take 4096) = .ok (.Message message, sender_id)) (addr : Addr)
    (now : ℕ) (send_to : Bytes → Addr → Except String Unit) :
    n.receive c h datagram addr now send_to =
      { n with addresses :=
          Function.update n.addresses sender_id (some ⟨addr, now⟩) }.handle_message message
            sender_id := by
  rw [receive, handle_packet, hdata]
  simp only [if_neg hne]

/-- A datagram that is not decoded changes nothing. -/
theorem receive_of_error {n : LanSignaling Addr} {datagram : Bytes} {e : NethernetError}
    (hdata : unmarshal c h (datagram.take 4096) = .error e) (addr : Addr) (now : ℕ)
    (send_to : Bytes → Addr → Except String Unit) :
    n.receive c h datagram addr now send_to = n := by
  rw [receive, handle_packet, hdata]

/-- The text of a signal for this node is published as the signal it is. -/
theorem handle_message_to_string (n : LanSignaling Addr) (s : Signal) (sender_id : UInt64) :
    (n.handle_message ⟨n.network_id, s.to_string⟩ sender_id).published =
      n.published ++ [{ s with network_id := u64_to_string sender_id }] := by
  have hping : ¬ s.to_string = PING_TOKEN := s.to_string_ne_ping
  simp only [handle_message, if_neg hping, if_true, Signal.from_string_to_string]

section Published

variable {A B : LanSignaling Addr} {s : Signal} {datagram : Bytes} {addr : Addr} {now : ℕ}
  {send_to : Bytes → Addr → Except String Unit}

/-- A signal whose text is at most 4031 bytes fits the receive buffer. -/
theorem published_of_le (hc : c.Lawful) (hh : h.Lawful) (hne : A.network_id ≠ B.network_id)
    (hdata : marshal c h (.Message ⟨B.network_id, s.to_string⟩) A.network_id = .ok datagram)
    (hlen : (as_bytes s.to_string).length ≤ 4031) :
    (B.receive c h datagram addr now send_to).published =
      B.published ++ [{ s with network_id := u64_to_string A.network_id }] := by
  have htake : datagram.take 4096 = datagram := by
    apply List.take_of_length_le
    rw [length_marshal hh hdata]
    dsimp only [Packet.body_len]
    omega
  have hread := unmarshal_marshal hc hh hdata
  rw [← htake] at hread
  rw [receive_message hne hread]
  exact handle_message_to_string _ s A.network_id

/-- The datagram of a signal with a longer text is cut to 254 blocks, and ignored. -/
theorem receive_of_lt (hc : c.Lawful) (hh : h.Lawful)
    (hdata : marshal c h (.Message ⟨B.network_id, s.to_string⟩) A.network_id = .ok datagram)
    (hlen : 4031 < (as_bytes s.to_string).length) :
    B.receive c h datagram addr now send_to = B := by
  have hcut : 16 * 254 ≤ 32 + (as_bytes s.to_string).length := by omega
  obtain ⟨e, he⟩ := unmarshal_take hc hh hdata (by decide) hcut
  exact receive_of_error he addr now send_to

end Published

/-- **A signal is published by its recipient**, once and with the id of its sender, exactly when its
text is at most 4031 bytes. -/
theorem signal_published_iff (hc : c.Lawful) (hh : h.Lawful) {A A' B : LanSignaling Addr}
    {s : Signal} {send_to : Bytes → Addr → Except String Unit}
    (hne : A.network_id ≠ B.network_id) (hid : s.network_id = u64_to_string B.network_id)
    (hsend : A.signal c h s send_to = (.ok (), A')) :
    ∃ entry datagram, A.addresses B.network_id = some entry ∧
      A'.sent = A.sent ++ [(datagram, entry.addr)] ∧
      ∀ addr now send_to', (B.receive c h datagram addr now send_to').published =
          B.published ++ [{ s with network_id := u64_to_string A.network_id }] ↔
        (as_bytes s.to_string).length ≤ 4031 := by
  obtain ⟨entry, datagram, hentry, hdata, hsent⟩ := signal_ok hid hsend
  refine ⟨entry, datagram, hentry, hsent, fun addr now send_to' => ⟨fun hpub => ?_, fun hlen => ?_⟩⟩
  · by_contra hlt
    rw [receive_of_lt hc hh hdata (Nat.not_le.1 hlt)] at hpub
    simp at hpub
  · exact published_of_le hc hh hne hdata hlen

/-! ## Two nodes -/

/-- The node `network_id`, which knows node 9 at address 1. -/
def node (network_id : UInt64) : LanSignaling ℕ where
  network_id := network_id
  addresses id := if id = 9 then some ⟨1, 0⟩ else none
  server_data := none
  discovered_servers _ := none
  published := []
  sent := []

/-- A candidate for node 9, with the given data. -/
def candidate (data : String) : Signal := ⟨.Candidate, 1, data, u64_to_string 9⟩

theorem length_candidate (data : String) :
    (as_bytes (candidate data).to_string).length = 15 + data.utf8ByteSize := by
  have hhead :
      (SignalType.Candidate.as_str ++ " " ++ u64_to_string 1 ++ " ").utf8ByteSize = 15 := by
    decide
  rw [length_as_bytes, Signal.to_string, String.utf8ByteSize_append]
  exact congrArg (· + data.utf8ByteSize) hhead

/-- Node 7 sends a candidate that is not too long for a packet. -/
theorem signal_candidate (data : String) (hlen : data.utf8ByteSize ≤ 65488) :
    ∃ datagram, marshal .ofSample .lowercase (.Message ⟨9, (candidate data).to_string⟩) 7 =
        .ok datagram ∧
      (node 7).signal .ofSample .lowercase (candidate data) (fun _ _ => .ok ()) =
        (.ok (), { node 7 with sent := [(datagram, 1)] }) := by
  have hfits : 20 + Packet.body_len (.Message ⟨9, (candidate data).to_string⟩) ≤ 65535 := by
    dsimp only [Packet.body_len]
    rw [length_candidate]
    omega
  obtain ⟨datagram, hdata⟩ : ∃ datagram, marshal .ofSample .lowercase
      (.Message ⟨9, (candidate data).to_string⟩) 7 = .ok datagram :=
    ⟨_, marshal_eq .ofSample Hex.lowercase_lawful 7 hfits⟩
  have hid : (candidate data).network_id = u64_to_string 9 := rfl
  have hentry : (node 7).addresses 9 = some ⟨1, 0⟩ := rfl
  exact ⟨datagram, hdata, signal_of_marshal hid hentry hdata rfl⟩

/-- A candidate of node 7 is published by node 9. -/
theorem signal_published_candidate :
    ∃ entry datagram, (node 7).addresses 9 = some entry ∧
      ((node 7).signal .ofSample .lowercase (candidate "c") fun _ _ => .ok ()).2.sent =
        [(datagram, entry.addr)] ∧
      ∀ addr now send_to',
        ((node 9).receive .ofSample .lowercase datagram addr now send_to').published =
          [{ candidate "c" with network_id := u64_to_string 7 }] ↔
        (as_bytes (candidate "c").to_string).length ≤ 4031 := by
  obtain ⟨datagram, _, hsend⟩ := signal_candidate "c" (by decide)
  rw [hsend]
  exact signal_published_iff Crypto.ofSample_lawful Hex.lowercase_lawful (A := node 7)
    (B := node 9) (by decide) rfl hsend

/-- A text of `n` bytes. -/
theorem utf8ByteSize_replicate (n : ℕ) :
    (String.ofList (List.replicate n 'a')).utf8ByteSize = n := by
  induction n with
  | zero => rfl
  | succ n ih =>
    rw [List.replicate_succ', String.ofList_append, String.utf8ByteSize_append, ih]
    rfl

/-- A candidate of 5000 bytes is sent, and its recipient publishes nothing. -/
theorem signal_not_published :
    ∃ A' datagram, (node 7).signal .ofSample .lowercase
          (candidate (String.ofList (List.replicate 5000 'a'))) (fun _ _ => .ok ()) = (.ok (), A') ∧
      A'.sent = [(datagram, 1)] ∧
      ∀ addr now send_to,
        ((node 9).receive .ofSample .lowercase datagram addr now send_to).published = [] := by
  obtain ⟨datagram, hdata, hsend⟩ := signal_candidate
    (String.ofList (List.replicate 5000 'a')) (by rw [utf8ByteSize_replicate]; decide)
  have hlong : 4031 <
      (as_bytes (candidate (String.ofList (List.replicate 5000 'a'))).to_string).length := by
    rw [length_candidate, utf8ByteSize_replicate]
    decide
  refine ⟨_, datagram, hsend, rfl, fun addr now send_to => ?_⟩
  rw [receive_of_lt Crypto.ofSample_lawful Hex.lowercase_lawful (A := node 7) (B := node 9) hdata
    hlong]
  rfl

end LanSignaling

end Nethernet
