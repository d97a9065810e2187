import Nethernet.Signaling.Network

/-!
# Two nodes come into contact

A client asks for servers, a server answers, and the two send each other a signal. `contact_run`:
whatever has happened on the network before, the steps of such a contact can be taken from there on
with every datagram delivered where it was sent, and then the client has discovered the server and
each has published the signal of the other. So no history of lost or late datagrams and of addresses
that have timed out keeps two nodes apart.
-/

namespace Nethernet

open Foundations

namespace LanSignaling

variable {Addr : Type} {c : Crypto} {h : Hex} {n : LanSignaling Addr} {addr : Addr} {now : ℕ}

/-- A server answers a request. -/
theorem receive_request {d : ServerData} {app_data request reply : Bytes} {id : UInt64}
    (hserver : n.server_data = some d) (hd : d.marshal = .ok app_data) (hne : id ≠ n.network_id)
    (hrequest : unmarshal c h (request.take 4096) = .ok (.Request {}, id))
    (hreply : marshal c h (.Response ⟨app_data⟩) n.network_id = .ok reply) :
    n.receive c h request addr now send_ok = { n with
      addresses := Function.update n.addresses id (some ⟨addr, now⟩)
      sent := n.sent ++ [(reply, addr)] } := by
  rw [receive, handle_packet, hrequest]
  simp only [if_neg hne, handle_request, hserver, hd, hreply, send_ok]

/-- A node sends a signal to the address that it has for the recipient. -/
theorem exists_signal (hh : h.Lawful) {s : Signal} {id : UInt64}
    (hs : s.network_id = u64_to_string id) (hlen : (as_bytes s.to_string).length ≤ 4031)
    {entry : AddressEntry Addr} (hentry : n.addresses id = some entry) :
    ∃ m, marshal c h (.Message ⟨id, s.to_string⟩) n.network_id = .ok m ∧
      n.signal c h s send_ok = (.ok (), { n with sent := n.sent ++ [(m, entry.addr)] }) := by
  have hfits : 20 + (Packet.Message ⟨id, s.to_string⟩).body_len ≤ 65535 := by
    dsimp only [Packet.body_len]
    omega
  exact ⟨_, marshal_eq c hh _ hfits, signal_of_marshal hs hentry (marshal_eq c hh _ hfits) rfl⟩

/-- A node publishes a signal that is for it, and knows where it came from. -/
theorem receive_signal (hc : c.Lawful) (hh : h.Lawful) {s : Signal} {datagram : Bytes} {id : UInt64}
    (hne : id ≠ n.network_id)
    (hdata : marshal c h (.Message ⟨n.network_id, s.to_string⟩) id = .ok datagram)
    (hlen : (as_bytes s.to_string).length ≤ 4031)
    (send_to : Bytes → Addr → Except String Unit) :
    n.receive c h datagram addr now send_to = { n with
      addresses := Function.update n.addresses id (some ⟨addr, now⟩)
      published := n.published ++ [{ s with network_id := u64_to_string id }] } := by
  have htake : datagram.take 4096 = datagram := take_of_marshal hh hdata (by
    dsimp only [Packet.body_len]
    omega)
  have hping : ¬ s.to_string = PING_TOKEN := s.to_string_ne_ping
  rw [receive_message hne (htake.symm ▸ unmarshal_marshal hc hh hdata), handle_message,
    if_neg hping]
  simp only [if_true, Signal.from_string_to_string]

end LanSignaling

namespace Lan

open LanSignaling

variable {ι Addr : Type}

/-- The client `i` asks, and the server `j` answers. -/
def inquiry (lan : Lan ι Addr) (i j : ι) (broadcast_addr : Addr) (now : ℕ) :
    List (Action ι Addr) :=
  [.own i (.tick (some broadcast_addr) now send_ok), .deliver i (lan i).sent.length j now send_ok,
    .deliver j (lan j).sent.length i now send_ok]

/-- `i` sends a signal to `j`, after `sent` datagrams. -/
def signalling (sent : ℕ) (i j : ι) (now : ℕ) (s : Signal) : List (Action ι Addr) :=
  [.own i (.signal s send_ok), .deliver i sent j now send_ok]

/-- The client `i` asks, the server `j` answers, `i` sends the signal `s`, and `j` sends `s'`. -/
def contact (lan : Lan ι Addr) (i j : ι) (broadcast_addr : Addr) (now : ℕ) (s s' : Signal) :
    List (Action ι Addr) :=
  lan.inquiry i j broadcast_addr now ++
    (signalling ((lan i).sent.length + 1) i j now s ++
      signalling ((lan j).sent.length + 1) j i now s')

/-- A datagram that was sent reaches the node with its address, or any node if it was broadcast. -/
def Direct (addr : ι → Addr) (broadcast_addr : Addr) (lan : Lan ι Addr) : Action ι Addr → Prop
  | .own _ _ => True
  | .deliver i k j _ _ => ∃ datagram dest, (lan i).sent[k]? = some (datagram, dest) ∧
    (dest = addr j ∨ dest = broadcast_addr)
  | .foreign .. => False

section Contact

variable [DecidableEq ι] {c : Crypto} {h : Hex} {id : ι → UInt64} {addr : ι → Addr}
  {lan : Lan ι Addr} {i j : ι} {now : ℕ}

/-- A node acts on its own. -/
theorem step_own {event : Event Addr} {n : LanSignaling Addr}
    (hevent : ∀ datagram from_addr now send_to, event ≠ .receive datagram from_addr now send_to)
    (hact : (lan i).act c h event = n) :
    step c h addr lan (.own i event) = some (Function.update lan i n) := by
  subst hact
  cases event with
  | receive datagram from_addr now send_to =>
    exact absurd rfl (hevent datagram from_addr now send_to)
  | tick | signal | set_pong_data => rfl

/-- A datagram that a node has sent reaches another. -/
theorem step_deliver {k : ℕ} {datagram : Bytes} {dest : Addr} {n : LanSignaling Addr}
    {send_to : Bytes → Addr → Except String Unit}
    (hsent : (lan i).sent[k]? = some (datagram, dest))
    (hreceive : (lan j).receive c h datagram (addr i) now send_to = n) :
    step c h addr lan (.deliver i k j now send_to) = some (Function.update lan j n) := by
  subst hreceive
  rw [step, event_of, hsent]
  rfl

/-- **A node finds a server** with three steps. -/
theorem inquiry_run (hc : c.Lawful) (hh : h.Lawful) (addr : ι → Addr)
    (hne : (lan i).network_id ≠ (lan j).network_id) {d : ServerData}
    (hserver : (lan j).server_data = some d) (hfits : d.Fits) (broadcast_addr : Addr) (now : ℕ) :
    ∃ lan' request reply, Transition.Runs (step c h addr) (Direct addr broadcast_addr) lan
        (lan.inquiry i j broadcast_addr now) lan' ∧
      lan' i = { (lan i).cleanup_addresses now with
        addresses := Function.update ((lan i).cleanup_addresses now).addresses (lan j).network_id
          (some ⟨addr j, now⟩)
        discovered_servers := Function.update ((lan i).cleanup_addresses now).discovered_servers
          (lan j).network_id (some d)
        sent := (lan i).sent ++ [(request, broadcast_addr)] } ∧
      lan' j = { lan j with
        addresses := Function.update (lan j).addresses (lan i).network_id (some ⟨addr i, now⟩)
        sent := (lan j).sent ++ [(reply, addr i)] } ∧
      ∀ k, k ≠ i → k ≠ j → lan' k = lan k := by
  have hij : i ≠ j := fun heq => hne (by rw [heq])
  have hd : d.marshal = .ok d.bytes := ServerData.marshal_ok_iff.2 ⟨hfits, rfl⟩
  have hlen : (Packet.Response ⟨d.bytes⟩).body_len ≤ 4043 := by
    have hbytes := ServerData.length_marshal hd
    dsimp only [Packet.body_len]
    omega
  obtain ⟨request, hrequest⟩ : ∃ request, marshal c h (.Request {}) (lan i).network_id =
      .ok request := ⟨_, marshal_eq c hh _ (by decide)⟩
  obtain ⟨reply, hreply⟩ : ∃ reply, marshal c h (.Response ⟨d.bytes⟩) (lan j).network_id =
      .ok reply := ⟨_, marshal_eq c hh _ (by omega)⟩
  have hrequested : unmarshal c h (request.take 4096) = .ok (.Request {}, (lan i).network_id) := by
    rw [take_of_marshal hh hrequest (by decide), unmarshal_marshal hc hh hrequest]
  have hreplied : unmarshal c h (reply.take 4096) =
      .ok (.Response ⟨d.bytes⟩, (lan j).network_id) := by
    rw [take_of_marshal hh hreply hlen, unmarshal_marshal hc hh hreply]
  -- the client broadcasts a request
  obtain ⟨A₁, hA₁⟩ : ∃ A₁, A₁ = { (lan i).cleanup_addresses now with
      sent := (lan i).sent ++ [(request, broadcast_addr)] } := ⟨_, rfl⟩
  have hask : (lan i).act c h (.tick (some broadcast_addr) now send_ok) = A₁ :=
    (congrArg Prod.snd (requests_of_marshal (C := (lan i).cleanup_addresses now) hrequest
      broadcast_addr send_ok rfl)).trans hA₁.symm
  have hasked : (Function.update lan i A₁ i).sent[(lan i).sent.length]? =
      some (request, broadcast_addr) := by
    rw [Function.update_self, hA₁]
    exact List.getElem?_concat_length
  -- the server answers
  obtain ⟨B₁, hB₁⟩ : ∃ B₁, B₁ = { lan j with
      addresses := Function.update (lan j).addresses (lan i).network_id (some ⟨addr i, now⟩)
      sent := (lan j).sent ++ [(reply, addr i)] } := ⟨_, rfl⟩
  have hanswer : (Function.update lan i A₁ j).receive c h request (addr i) now send_ok = B₁ := by
    rw [Function.update_of_ne hij.symm, hB₁]
    exact receive_request hserver hd hne hrequested hreply
  have hanswered : (Function.update (Function.update lan i A₁) j B₁ j).sent[(lan j).sent.length]? =
      some (reply, addr i) := by
    rw [Function.update_self, hB₁]
    exact List.getElem?_concat_length
  -- the client learns of the server
  have hlearn : (Function.update (Function.update lan i A₁) j B₁ i).receive c h reply (addr j) now
      send_ok = { A₁ with
        addresses := Function.update A₁.addresses (lan j).network_id (some ⟨addr j, now⟩)
        discovered_servers :=
          Function.update A₁.discovered_servers (lan j).network_id (some d) } := by
    rw [Function.update_of_ne hij, Function.update_self]
    exact receive_response (ServerData.unmarshal_marshal hd) (by rw [hA₁]; exact hne.symm) hreplied
      (addr j) now send_ok
  refine ⟨_, request, reply, .cons trivial (step_own nofun hask)
    (.cons ⟨_, _, hasked, .inr rfl⟩ (step_deliver hasked hanswer)
      (.cons ⟨_, _, hanswered, .inl rfl⟩ (step_deliver hanswered hlearn) (.nil _))),
    ?_, ?_, fun k hki hkj => ?_⟩
  · rw [Function.update_self, hA₁]
  · rw [Function.update_of_ne hij.symm, Function.update_self, hB₁]
  · rw [Function.update_of_ne hki, Function.update_of_ne hkj, Function.update_of_ne hki]

/-- **A node that knows the address of another reaches it**: its signal is sent, and the other
publishes it when the datagram is delivered. -/
theorem exists_delivery (hc : c.Lawful) (hh : h.Lawful) (addr : ι → Addr) (broadcast_addr : Addr)
    (hne : (lan i).network_id ≠ (lan j).network_id) {s : Signal}
    (hs : s.network_id = u64_to_string (lan j).network_id)
    (hlen : (as_bytes s.to_string).length ≤ 4031) {last_seen : ℕ}
    (hentry : (lan i).addresses (lan j).network_id = some ⟨addr j, last_seen⟩) (now : ℕ) :
    ∃ message n lan', n = { lan i with sent := (lan i).sent ++ [(message, addr j)] } ∧
      (lan i).signal c h s send_ok = (.ok (), n) ∧
      Direct addr broadcast_addr (Function.update lan i n)
        (.deliver i (lan i).sent.length j now send_ok) ∧
      step c h addr (Function.update lan i n) (.deliver i (lan i).sent.length j now send_ok) =
        some lan' ∧
      lan' i = n ∧
      lan' j = { lan j with
        addresses := Function.update (lan j).addresses (lan i).network_id (some ⟨addr i, now⟩)
        published := (lan j).published ++
          [{ s with network_id := u64_to_string (lan i).network_id }] } ∧
      ∀ k, k ≠ i → k ≠ j → lan' k = lan k := by
  have hij : i ≠ j := fun heq => hne (by rw [heq])
  obtain ⟨m, hm, hsignal⟩ := exists_signal (c := c) hh hs hlen hentry
  have hsent : (Function.update lan i { lan i with sent := (lan i).sent ++ [(m, addr j)] }
      i).sent[(lan i).sent.length]? = some (m, addr j) := by
    rw [Function.update_self]
    exact List.getElem?_concat_length
  refine ⟨m, _, _, rfl, hsignal, ⟨_, _, hsent, .inl rfl⟩, step_deliver hsent rfl, ?_, ?_,
    fun k hki hkj => ?_⟩
  · rw [Function.update_of_ne hij, Function.update_self]
  · rw [Function.update_self, Function.update_of_ne hij.symm]
    exact receive_signal hc hh hne hm hlen send_ok
  · rw [Function.update_of_ne hkj, Function.update_of_ne hki]

theorem fits_of_run {as : List (Action ι Addr)}
    (hrun : Transition.run (step c h addr) (start id) as = some lan) (i : ι) :
    ∀ d ∈ (lan i).server_data, d.Fits := by
  refine Transition.run_invariant (P := fun lan : Lan ι Addr => ∀ i, ∀ d ∈ (lan i).server_data,
    d.Fits) (fun lan a lan' hlan hstep i => ?_) (fun i d hd => by cases hd) hrun i
  obtain ⟨⟨j, event⟩, -, rfl⟩ := Option.map_eq_some_iff.1 hstep
  dsimp only
  by_cases hij : i = j
  · subst hij
    rw [Function.update_self]
    exact fits_act (hlan i) event
  · rw [Function.update_of_ne hij]
    exact hlan i

/-- **Two nodes can always come into contact**: in every state of the network that a run reaches, a
client and a server with another id can take the steps of a contact, and then the client has
discovered the server with its data and each has published the signal of the other. The datagrams
are delivered where they were sent. -/
theorem contact_run (hc : c.Lawful) (hh : h.Lawful) {as : List (Action ι Addr)} {lan : Lan ι Addr}
    (hrun : Transition.run (step c h addr) (start id) as = some lan) {i j : ι} (hne : id i ≠ id j)
    {d : ServerData} (hserver : (lan j).server_data = some d) {s s' : Signal}
    (hs : s.network_id = u64_to_string (id j)) (hs' : s'.network_id = u64_to_string (id i))
    (hlen : (as_bytes s.to_string).length ≤ 4031) (hlen' : (as_bytes s'.to_string).length ≤ 4031)
    (broadcast_addr : Addr) (now : ℕ) :
    ∃ lan', Transition.Runs (step c h addr) (Direct addr broadcast_addr) lan
        (contact lan i j broadcast_addr now s s') lan' ∧
      (lan' i).discover (id j) = some d ∧ (lan' i).get_address (id j) = some (addr j) ∧
      (lan' j).published = (lan j).published ++ [{ s with network_id := u64_to_string (id i) }] ∧
      (lan' i).published = (lan i).published ++ [{ s' with network_id := u64_to_string (id j) }] ∧
      ∀ k, k ≠ i → k ≠ j → lan' k = lan k := by
  have hA := (sound_of_run hc hh hrun i).network_id
  have hB := (sound_of_run hc hh hrun j).network_id
  rw [← hA] at hne hs' ⊢
  rw [← hB] at hne hs ⊢
  -- the client finds the server
  obtain ⟨lan₁, request, reply, hrun₁, hi₁, hj₁, hother₁⟩ := inquiry_run hc hh addr hne hserver
    (fits_of_run hrun j d hserver) broadcast_addr now
  have hid₁ : (lan₁ i).network_id = (lan i).network_id := by rw [hi₁]; rfl
  have hid₁' : (lan₁ j).network_id = (lan j).network_id := by rw [hj₁]
  have hne₁ : (lan₁ i).network_id ≠ (lan₁ j).network_id := by rwa [hid₁, hid₁']
  have hknows : (lan₁ i).addresses (lan₁ j).network_id = some ⟨addr j, now⟩ := by
    rw [hid₁', hi₁]
    exact Function.update_self ..
  -- the signal of the client
  obtain ⟨m, n, lan₂, hn, hsignal, hdirect, hstep, hi₂, hj₂, hother₂⟩ := exists_delivery hc hh addr
    broadcast_addr hne₁ (hid₁' ▸ hs) hlen hknows now
  have hid₂ : (lan₂ i).network_id = (lan i).network_id := by rw [hi₂, hn, ← hid₁]
  have hid₂' : (lan₂ j).network_id = (lan j).network_id := by rw [hj₂, ← hid₁']
  have hne₂ : (lan₂ j).network_id ≠ (lan₂ i).network_id := by rw [hid₂, hid₂']; exact hne.symm
  have hknows' : (lan₂ j).addresses (lan₂ i).network_id = some ⟨addr i, now⟩ := by
    rw [hid₂, hj₂, ← hid₁]
    exact Function.update_self ..
  -- the signal of the server
  obtain ⟨m', n', lan₃, hn', hsignal', hdirect', hstep', hj₃, hi₃, hother₃⟩ := exists_delivery hc hh
    addr broadcast_addr hne₂ (hid₂ ▸ hs') hlen' hknows' now
  have hlen₁ : (lan₁ i).sent.length = (lan i).sent.length + 1 := by simp [hi₁]
  have hlen₂ : (lan₂ j).sent.length = (lan j).sent.length + 1 := by simp [hj₂, hj₁]
  refine ⟨lan₃, hrun₁.append (.append (t := lan₂) ?_ ?_), ?_, ?_, ?_, ?_, fun k hki hkj => ?_⟩
  · rw [hlen₁] at hdirect hstep
    exact .cons trivial (step_own nofun (congrArg Prod.snd hsignal))
      (.cons hdirect hstep (.nil _))
  · rw [hlen₂] at hdirect' hstep'
    exact .cons trivial (step_own nofun (congrArg Prod.snd hsignal'))
      (.cons hdirect' hstep' (.nil _))
  · rw [hi₃, hi₂, hn, hi₁]
    exact Function.update_self ..
  · rw [hi₃, hid₂', get_address]
    simp only [Function.update_self, Option.map_some]
  · rw [hj₃, hn', hj₂, hj₁, hid₁]
  · rw [hi₃, hi₂, hn, hi₁, hid₂']
    rfl
  · rw [hother₃ k hkj hki, hother₂ k hki hkj, hother₁ k hki hkj]

end Contact

/-- Nodes 7 and 9 come into contact once more, after they have exchanged a candidate. -/
theorem contact_run_exchange : ∃ lan lan',
    Transition.run (step ofNetwork .lowercase addresses) (start ids) exchange = some lan ∧
      Transition.Runs (step ofNetwork .lowercase addresses) (Direct addresses 255) lan
        (contact lan false true 255 20 (candidate "c")
          { candidate "c" with network_id := u64_to_string 7 }) lan' ∧
      (lan' false).discover 9 = some world ∧ (lan' false).get_address 9 = some 2 ∧
      (lan' false).published = (lan false).published ++
        [{ candidate "c" with network_id := u64_to_string 9 }] := by
  have hserver : (Transition.run (step ofNetwork .lowercase addresses) (start ids) exchange).map
      (fun lan => (lan true).server_data) = some (some world) := by
    decide +kernel
  obtain ⟨lan, hrun, hworld⟩ := Option.map_eq_some_iff.1 hserver
  have hid : ({ candidate "c" with network_id := u64_to_string 7 } : Signal).network_id =
      u64_to_string (ids false) := rfl
  obtain ⟨lan', hrun', hdiscovered, haddress, -, hpublished, -⟩ := contact_run ofNetwork_lawful
    Hex.lowercase_lawful hrun (i := false) (j := true) (by decide) hworld (s := candidate "c") rfl
    hid (by decide +kernel) (by decide +kernel) 255 20
  exact ⟨lan, lan', hrun, hrun', hdiscovered, haddress, hpublished⟩

end Lan

end Nethernet
