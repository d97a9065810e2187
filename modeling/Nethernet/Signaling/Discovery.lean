import Nethernet.Signaling.Addresses

/-!
# Discovery

How a client finds a server. `discovers`: once the server data is set, a request that reaches the
server is answered, and the answer puts the server, with exactly its data, into the client's table.
`server_data_codec`: the server data is encoded and decoded exactly, so no request fails.
`addressed_iff`: what the client has discovered has an address exactly as long as no tick comes too
late for it, since a tick removes addresses and leaves the discovered servers.
-/

namespace Nethernet

open Foundations

namespace LanSignaling

variable {Addr : Type} {c : Crypto} {h : Hex}

/-! ## A request and its response -/

/-- The server data stays until it is set again. -/
theorem server_data_act {n : LanSignaling Addr} {event : Event Addr}
    (hevent : ∀ data, event ≠ .set_pong_data data) :
    (n.act c h event).server_data = n.server_data := by
  cases event with
  | receive datagram addr now send_to =>
    rcases n.receive_cases (c := c) (h := h) datagram addr now send_to with
      ⟨heq, -⟩ | ⟨_, _, -, -, hreceives⟩
    · rw [act, heq]
    · exact hreceives.server_data
  | tick broadcast_addr now send_to =>
    obtain ⟨sent, hsent⟩ := n.tick_eq (c := c) (h := h) broadcast_addr now send_to
    rw [act, hsent]
    rfl
  | signal s send_to =>
    obtain ⟨sent, hsent⟩ := n.signal_eq (c := c) (h := h) s send_to
    rw [act, hsent]
  | set_pong_data data => exact absurd rfl (hevent data)

theorem server_data_after {n : LanSignaling Addr} {history : List (Event Addr)}
    (hhistory : ∀ event ∈ history, ∀ data, event ≠ .set_pong_data data) :
    (n.after c h history).server_data = n.server_data := by
  induction history using List.reverseRecOn with
  | nil => rfl
  | append_singleton history event ih =>
    rw [after_concat, server_data_act (hhistory event (by simp)),
      ih fun e he => hhistory e (by simp [he])]

/-- Server data that a node has is decoded, and so can be encoded. -/
theorem fits_act {n : LanSignaling Addr} (hn : ∀ d ∈ n.server_data, d.Fits) (event : Event Addr) :
    ∀ d ∈ (n.act c h event).server_data, d.Fits := by
  by_cases hset : ∃ data, event = .set_pong_data data
  · obtain ⟨data, rfl⟩ := hset
    intro d hd
    change (ServerData.unmarshal data).toOption = some d at hd
    rcases hdata : ServerData.unmarshal data with e | d'
    · rw [hdata] at hd
      cases hd
    · rw [hdata] at hd
      obtain rfl := Option.some.inj hd
      exact ServerData.fits_of_unmarshal hdata
  · rwa [server_data_act fun data hdata => hset ⟨data, hdata⟩]

theorem fits_after (own : UInt64) (history : List (Event Addr)) :
    ∀ d ∈ ((new own).after c h history).server_data, d.Fits := by
  induction history using List.reverseRecOn with
  | nil => exact fun d hd => by cases hd
  | append_singleton history event ih =>
    rw [after_concat]
    exact fits_act ih event

/-- **A request is handled without an error** where the server data can be encoded: its response
fits a packet. -/
theorem handle_request_ok (hh : h.Lawful) {n : LanSignaling Addr}
    (hn : ∀ d ∈ n.server_data, d.Fits) (addr : Addr)
    (send_to : Bytes → Addr → Except String Unit) :
    (n.handle_request c h addr send_to).1 = .ok () := by
  rw [handle_request]
  rcases hdata : n.server_data with _ | d
  · rfl
  · have hmarshal : d.marshal = .ok d.bytes := ServerData.marshal_ok_iff.2 ⟨hn d hdata, rfl⟩
    have hshort := ServerData.length_marshal hmarshal
    have hfits : 20 + Packet.body_len (.Response ⟨d.bytes⟩) ≤ 65535 := by
      dsimp only [Packet.body_len]
      omega
    have hresponse := marshal_eq c hh n.network_id hfits
    simp only [hmarshal, hresponse]
    split <;> rfl

theorem handle_packet_ok (hh : h.Lawful) {n : LanSignaling Addr}
    (hn : ∀ d ∈ n.server_data, d.Fits) (data : Bytes) (addr : Addr) (now : ℕ)
    (send_to : Bytes → Addr → Except String Unit) :
    (n.handle_packet c h data addr now send_to).1 = .ok () := by
  rw [handle_packet]
  rcases unmarshal c h data with e | ⟨packet, sender_id⟩
  · rfl
  · simp only
    split
    · rfl
    · cases packet with
      | Request packet =>
        refine handle_request_ok hh ?_ addr send_to
        exact hn
      | Response response =>
        simp only
        split <;> rfl
      | Message message => rfl

/-- A datagram that fits the receive buffer. -/
theorem take_of_marshal (hh : h.Lawful) {packet : Packet} {sender_id : UInt64} {data : Bytes}
    (hdata : marshal c h packet sender_id = .ok data) (hlen : packet.body_len ≤ 4043) :
    data.take 4096 = data := by
  apply List.take_of_length_le
  rw [length_marshal hh hdata]
  omega

variable (c h) in
/-- A client sends `request`, if the socket takes it. -/
def Requests (C : LanSignaling Addr) (request : Bytes) : Prop :=
  ∀ addr send_to, send_to request addr = .ok () →
    C.send_request c h addr send_to = (.ok (), { C with sent := C.sent ++ [(request, addr)] })

variable (c h) in
/-- A server handles `request` without failing, and sends `reply` to where it came from, if the
socket takes it. -/
def Answers (S : LanSignaling Addr) (request reply : Bytes) : Prop :=
  ∀ addr now send_to, (S.handle_packet c h (request.take 4096) addr now send_to).1 = .ok () ∧
    (send_to reply addr = .ok () →
      (S.receive c h request addr now send_to).sent = S.sent ++ [(reply, addr)])

variable (c h) in
/-- A client that receives `reply` discovers `d` under `id`, where the reply came from. -/
def Learns (C : LanSignaling Addr) (reply : Bytes) (id : UInt64) (d : ServerData) : Prop :=
  ∀ addr now send_to, (C.receive c h reply addr now send_to).discover id = some d ∧
    (C.receive c h reply addr now send_to).get_address id = some addr

theorem requests_of_marshal {C : LanSignaling Addr} {request : Bytes}
    (hrequest : marshal c h (.Request {}) C.network_id = .ok request) : C.Requests c h request := by
  intro addr send_to hsent
  delta send_request
  rw [hrequest]
  simp only [hsent]

theorem answers_of_marshal {S : LanSignaling Addr} {d : ServerData} {app_data request reply : Bytes}
    {id : UInt64} (hserver : S.server_data = some d) (hd : d.marshal = .ok app_data)
    (hrequest : unmarshal c h (request.take 4096) = .ok (.Request {}, id)) (hne : id ≠ S.network_id)
    (hreply : marshal c h (.Response ⟨app_data⟩) S.network_id = .ok reply) :
    S.Answers c h request reply := by
  intro addr now send_to
  rw [receive, handle_packet, hrequest]
  simp only [if_neg hne, handle_request, hserver, hd, hreply]
  rcases hsent : send_to reply addr with e | _
  · simp
  · simp

/-- An answer from another node updates both tables. -/
theorem receive_response {C : LanSignaling Addr} {d : ServerData} {app_data reply : Bytes}
    {id : UInt64} (hd : ServerData.unmarshal app_data = .ok d) (hne : id ≠ C.network_id)
    (hreply : unmarshal c h (reply.take 4096) = .ok (.Response ⟨app_data⟩, id)) (addr : Addr)
    (now : ℕ) (send_to : Bytes → Addr → Except String Unit) :
    C.receive c h reply addr now send_to = { C with
      addresses := Function.update C.addresses id (some ⟨addr, now⟩)
      discovered_servers := Function.update C.discovered_servers id (some d) } := by
  rw [receive, handle_packet, hreply]
  simp only [if_neg hne, hd]

theorem learns_of_unmarshal {C : LanSignaling Addr} {d : ServerData} {app_data reply : Bytes}
    {id : UInt64} (hd : ServerData.unmarshal app_data = .ok d) (hne : id ≠ C.network_id)
    (hreply : unmarshal c h (reply.take 4096) = .ok (.Response ⟨app_data⟩, id)) :
    C.Learns c h reply id d := by
  intro addr now send_to
  rw [receive_response hd hne hreply]
  simp only [discover, get_address, Function.update_self, Option.map_some, and_self]

/-- **A server is discovered**: after its data is set and whatever else both have done, a client's
request is answered, and the answer tells the client exactly the data and the address. -/
theorem discovers (hc : c.Lawful) (hh : h.Lawful) {d : ServerData} {app_data : Bytes}
    (hd : d.marshal = .ok app_data) (S C : LanSignaling Addr) (hne : S.network_id ≠ C.network_id)
    (history : List (Event Addr)) (hkept : ∀ event ∈ history, ∀ data, event ≠ .set_pong_data data) :
    ∃ request reply, C.Requests c h request ∧
      ((S.set_pong_data app_data).after c h history).Answers c h request reply ∧
      ∀ history', (C.after c h history').Learns c h reply S.network_id d := by
  have hlen := ServerData.length_marshal hd
  have hshort : (Packet.Response ⟨app_data⟩).body_len ≤ 1056 := by
    dsimp only [Packet.body_len]
    omega
  obtain ⟨request, hrequest⟩ : ∃ request, marshal c h (.Request {}) C.network_id = .ok request :=
    ⟨_, marshal_eq c hh C.network_id (by decide)⟩
  obtain ⟨reply, hreply⟩ : ∃ reply, marshal c h (.Response ⟨app_data⟩) S.network_id = .ok reply :=
    ⟨_, marshal_eq c hh S.network_id (by omega)⟩
  have hrequest' : unmarshal c h (request.take 4096) = .ok (.Request {}, C.network_id) := by
    rw [take_of_marshal hh hrequest (by decide), unmarshal_marshal hc hh hrequest]
  have hreply' : unmarshal c h (reply.take 4096) = .ok (.Response ⟨app_data⟩, S.network_id) := by
    rw [take_of_marshal hh hreply (by omega), unmarshal_marshal hc hh hreply]
  have hdata := ServerData.unmarshal_marshal hd
  refine ⟨request, reply, requests_of_marshal hrequest, ?_, fun history' => ?_⟩
  · have hserver : ((S.set_pong_data app_data).after c h history).server_data = some d := by
      rw [server_data_after hkept, set_pong_data, hdata]
      rfl
    have hself : ((S.set_pong_data app_data).after c h history).network_id = S.network_id :=
      network_id_after _ _
    exact answers_of_marshal hserver hd hrequest' (by rw [hself]; exact Ne.symm hne)
      (by rw [hself]; exact hreply)
  · exact learns_of_unmarshal hdata (by rw [network_id_after]; exact hne) hreply'

/-- The server `A` with the world `B`. -/
def world : ServerData where
  server_name := "A"
  level_name := "B"
  game_type := 0
  player_count := 1
  max_player_count := 8
  editor_world := false
  hardcore := false
  transport_layer := 2
  connection_type := 4

theorem marshal_world : world.marshal = .ok world.bytes :=
  ServerData.marshal_ok_iff.2 ⟨⟨by decide, by decide, by decide, by decide, by decide⟩, rfl⟩

/-- Node 7 discovers the world of node 9, which has seen a tick before. -/
theorem discovers_world : ∃ request reply,
    (new 7 : LanSignaling ℕ).Requests .ofDiscovery .lowercase request ∧
      (((new 9 : LanSignaling ℕ).set_pong_data world.bytes).after .ofDiscovery .lowercase
        [.tick none 0 fun _ _ => .ok ()]).Answers .ofDiscovery .lowercase request reply ∧
      ∀ history', ((new 7 : LanSignaling ℕ).after .ofDiscovery .lowercase history').Learns
        .ofDiscovery .lowercase reply 9 world :=
  discovers Crypto.ofDiscovery_lawful Hex.lowercase_lawful marshal_world (new 9) (new 7) (by decide)
    [.tick none 0 fun _ _ => .ok ()] (by simp)

/-! ## The server data -/

/-- **Server data is encoded and decoded exactly**: what fits is encoded, and decoded to itself;
what is decoded is encoded again; and no datagram makes a node fail, whatever bytes its server data
has been set to. -/
theorem server_data_codec (c : Crypto) (hh : h.Lawful) :
    (∀ d : ServerData, ((∃ data, d.marshal = .ok data) ↔ d.Fits) ∧
        ∀ data, d.marshal = .ok data → ServerData.unmarshal data = .ok d) ∧
      (∀ data d, ServerData.unmarshal data = .ok d →
        ∃ data', d.marshal = .ok data' ∧ ServerData.unmarshal data' = .ok d) ∧
      ∀ (own : UInt64) (history : List (Event Addr)) (data : Bytes) (addr : Addr) (now : ℕ)
        (send_to : Bytes → Addr → Except String Unit),
        (((new own).after c h history).handle_packet c h data addr now send_to).1 = .ok () := by
  refine ⟨fun d => ⟨⟨?_, ?_⟩, fun data => ServerData.unmarshal_marshal⟩, fun data d hdata => ?_,
    fun own history data addr now send_to => handle_packet_ok hh (fits_after own history) data addr
      now send_to⟩
  · rintro ⟨data, hdata⟩
    exact (ServerData.marshal_ok_iff.1 hdata).1
  · exact fun hd => ⟨d.bytes, ServerData.marshal_ok_iff.2 ⟨hd, rfl⟩⟩
  · have hmarshal : d.marshal = .ok d.bytes :=
      ServerData.marshal_ok_iff.2 ⟨ServerData.fits_of_unmarshal hdata, rfl⟩
    exact ⟨d.bytes, hmarshal, ServerData.unmarshal_marshal hmarshal⟩

/-- Node 9 handles the request of node 7 once its world is set. -/
theorem server_data_codec_world : ∃ request,
    marshal .ofDiscovery .lowercase (.Request {}) 7 = .ok request ∧
      (((new 9 : LanSignaling ℕ).after .ofDiscovery .lowercase
        [.set_pong_data world.bytes]).handle_packet .ofDiscovery .lowercase request 1 0
          fun _ _ => .ok ()).1 = .ok () :=
  ⟨_, marshal_eq .ofDiscovery Hex.lowercase_lawful 7 (by decide),
    (server_data_codec .ofDiscovery Hex.lowercase_lawful).2.2 9 [.set_pong_data world.bytes] _ 1 0
      fun _ _ => .ok ()⟩

/-! ## Discovered servers and their addresses -/

/-- Every server that `discover` reports has an address. -/
def Addressed (n : LanSignaling Addr) : Prop :=
  ∀ id, (n.discover id).isSome → (n.get_address id).isSome

/-- The event is no tick that is too late for a server that `discover` reports. -/
def Timely (n : LanSignaling Addr) (event : Event Addr) : Prop :=
  ∀ id entry, (n.discover id).isSome → n.addresses id = some entry → event.Keeps entry

theorem addressed_iff_addresses {n : LanSignaling Addr} :
    n.Addressed ↔ ∀ id, (n.discover id).isSome → (n.addresses id).isSome := by
  simp only [Addressed, get_address, Option.isSome_map]

/-- **A step keeps every discovered server addressed** exactly when it comes in time for them. -/
theorem addressed_act_iff {n : LanSignaling Addr} (hn : n.Addressed) (event : Event Addr) :
    (n.act c h event).Addressed ↔ n.Timely event := by
  rw [addressed_iff_addresses] at hn ⊢
  cases event with
  | receive datagram addr now send_to =>
    refine iff_of_true (fun id => ?_) fun id entry _ _ now hnow => by cases hnow
    rcases n.receive_cases (c := c) (h := h) datagram addr now send_to with
      ⟨heq, -⟩ | ⟨packet, sender_id, -, -, hreceives⟩
    · rw [act, heq]
      exact hn id
    · intro hid
      rw [act, hreceives.addresses, Function.update_apply]
      by_cases heq : id = sender_id
      · rw [if_pos heq]
        rfl
      · rw [if_neg heq]
        apply hn id
        rw [act, discover] at hid
        rcases hreceives.discovered_servers with hsame | ⟨server_info, hnew⟩
        · rwa [hsame] at hid
        · rwa [hnew, Function.update_of_ne heq] at hid
  | tick broadcast_addr now send_to =>
    obtain ⟨sent, hsent⟩ := n.tick_eq (c := c) (h := h) broadcast_addr now send_to
    simp only [act, hsent, cleanup_addresses, Option.isSome_filter, Option.any_eq_true,
      decide_eq_true_eq]
    constructor
    · intro hkept id entry hid hentry now' hnow
      obtain rfl : now = now' := Option.some.inj hnow
      obtain ⟨entry', hentry', hin_time⟩ := hkept id hid
      obtain rfl : entry = entry' := Option.some.inj (hentry.symm.trans hentry')
      exact hin_time
    · intro htimely id hid
      obtain ⟨entry, hentry⟩ := Option.isSome_iff_exists.1 (hn id hid)
      exact ⟨entry, hentry, htimely id entry hid hentry now rfl⟩
  | signal s send_to =>
    obtain ⟨sent, hsent⟩ := n.signal_eq (c := c) (h := h) s send_to
    refine iff_of_true (fun id hid => ?_) fun id entry _ _ now hnow => by cases hnow
    rw [act, hsent] at hid ⊢
    exact hn id hid
  | set_pong_data data => exact iff_of_true hn fun id entry _ _ now hnow => by cases hnow

/-- **A discovered server has an address** in every state of a history exactly when no tick of it
comes too late for a server that is discovered. -/
theorem addressed_iff (own : UInt64) (history : List (Event Addr)) :
    (∀ before, before <+: history → ((new own).after c h before).Addressed) ↔
      Transition.Along (fun n event => some (n.act c h event)) Timely (new own) history := by
  have hnew : (new own : LanSignaling Addr).Addressed := fun _ hid => by cases hid
  rw [← Transition.forall_prefix_iff (P := Addressed) (fun n event n' hn hstep => ?_) hnew
    (Transition.run_total (act c h) (new own) history)]
  · simp only [Transition.run_total, Option.some.injEq]
    exact ⟨fun hall before n hbefore hn => hn ▸ hall before hbefore,
      fun hall before hbefore => hall before _ hbefore rfl⟩
  · obtain rfl := Option.some.inj hstep
    exact addressed_act_iff hn event

/-- The response of node 9 with the world. -/
def response : Bytes :=
  [255, 178, 6, 51, 144, 127, 3, 228, 227, 217, 71, 241, 233, 41, 223, 28, 93, 129, 47, 175, 70,
    202, 52, 234, 193, 111, 215, 40, 90, 116, 182, 157, 10, 12, 131, 76, 31, 220, 157, 50, 222,
    175, 187, 180, 83, 205, 173, 238, 216, 101, 78, 4, 238, 2, 55, 92, 4, 199, 85, 49, 217, 36,
    197, 181, 7, 178, 103, 254, 74, 101, 89, 248, 17, 141, 106, 160, 211, 244, 70, 248, 162, 33,
    13, 249, 1, 37, 88, 0, 203, 82, 81, 206, 203, 110, 172, 155]

theorem marshal_response :
    marshal .ofDiscovery .lowercase (.Response ⟨world.bytes⟩) 9 = .ok response := by
  decide +kernel

/-- Node 7 discovers node 9, hears nothing for the length of the timeout and has no address. -/
theorem address_of_silent_server : ¬ ∀ (history : List (Event ℕ)) (id : UInt64),
    (((new 7).after .ofDiscovery .lowercase history).discover id).isSome →
      (((new 7).after .ofDiscovery .lowercase history).get_address id).isSome := by
  have hdata := ServerData.unmarshal_marshal marshal_world
  have hanswer : unmarshal .ofDiscovery .lowercase (response.take 4096) =
      .ok (.Response ⟨world.bytes⟩, 9) :=
    unmarshal_marshal Crypto.ofDiscovery_lawful Hex.lowercase_lawful marshal_response
  have hreceive := receive_response (C := (new 7 : LanSignaling ℕ)) hdata (by decide) hanswer 1 0
    fun _ _ => .ok ()
  intro hall
  have hlate := hall [.receive response 1 0 fun _ _ => .ok (), .tick none ADDRESS_TIMEOUT
    fun _ _ => .ok ()] 9
  simp only [after, List.foldl_cons, List.foldl_nil, act, hreceive, tick, cleanup_addresses,
    discover, get_address, Function.update_self, Option.isSome_map, Option.isSome_filter] at hlate
  exact absurd (hlate rfl) (by decide)

end LanSignaling

end Nethernet
