import Nethernet.Signaling.Discovery

/-!
# A network of nodes

Any number of nodes on one local network. A step is an event of one node, or a datagram that reaches
one: the network may lose a datagram, deliver it any number of times, in any order and to any node,
and it carries the datagrams of other services, which `unmarshal` does not accept.

`authentic`: every signal that a node publishes was sent to it by the node that it names.
`discovered_configured`: the server data that a node has discovered is what that server had.
`routed`: every signal goes to the address of a node with the network id that it is for.
-/

namespace Nethernet

open Foundations

/-- The nodes of a network. -/
abbrev Lan (ι Addr : Type) := ι → LanSignaling Addr

namespace LanSignaling

variable {Addr : Type} (c : Crypto) (h : Hex)

/-- How a node comes to send a datagram. -/
inductive Emits (n : LanSignaling Addr) (event : Event Addr) (datagram : Bytes) (dest : Addr) : Prop
  | request (hdata : marshal c h (.Request {}) n.network_id = .ok datagram)
  | response (d : ServerData) (app_data : Bytes) (hserver : n.server_data = some d)
      (happ : d.marshal = .ok app_data)
      (hdata : marshal c h (.Response ⟨app_data⟩) n.network_id = .ok datagram)
  | message (s : Signal) (send_to : Bytes → Addr → Except String Unit) (id : UInt64)
      (entry : AddressEntry Addr) (hevent : event = .signal s send_to)
      (hok : (n.signal c h s send_to).1 = .ok ()) (hid : parse_u64 s.network_id = .ok id)
      (hentry : n.addresses id = some entry) (hdest : dest = entry.addr)
      (hdata : marshal c h (.Message ⟨id, s.to_string⟩) n.network_id = .ok datagram)

variable {c h}

/-! ## What an event sends -/

theorem sent_handle_request (n : LanSignaling Addr) (addr : Addr)
    (send_to : Bytes → Addr → Except String Unit) (event : Event Addr) :
    (n.handle_request c h addr send_to).2.sent = n.sent ∨ ∃ datagram dest,
      (n.handle_request c h addr send_to).2.sent = n.sent ++ [(datagram, dest)] ∧
        n.Emits c h event datagram dest := by
  rw [handle_request]
  rcases hserver : n.server_data with _ | d
  · exact .inl rfl
  rcases happ : d.marshal with e | app_data
  · exact .inl (by simp only [happ])
  rcases hdata : marshal c h (.Response ⟨app_data⟩) n.network_id with e | datagram
  · exact .inl (by simp only [happ, hdata])
  rcases hsent : send_to datagram addr with e | _
  · exact .inl (by simp only [happ, hdata, hsent])
  · refine .inr ⟨datagram, addr, ?_, .response d app_data hserver happ hdata⟩
    simp only [happ, hdata, hsent]

theorem sent_send_request (n : LanSignaling Addr) (addr : Addr)
    (send_to : Bytes → Addr → Except String Unit) (event : Event Addr) :
    (n.send_request c h addr send_to).2.sent = n.sent ∨ ∃ datagram dest,
      (n.send_request c h addr send_to).2.sent = n.sent ++ [(datagram, dest)] ∧
        n.Emits c h event datagram dest := by
  delta send_request
  rcases hdata : marshal c h (.Request {}) n.network_id with e | datagram
  · exact .inl rfl
  rcases hsent : send_to datagram addr with e | _
  · exact .inl (by simp only [hsent])
  · exact .inr ⟨datagram, addr, by simp only [hsent], .request hdata⟩

theorem sent_signal (n : LanSignaling Addr) (s : Signal)
    (send_to : Bytes → Addr → Except String Unit) :
    (n.signal c h s send_to).2.sent = n.sent ∨ ∃ datagram dest,
      (n.signal c h s send_to).2.sent = n.sent ++ [(datagram, dest)] ∧
        n.Emits c h (.signal s send_to) datagram dest := by
  rcases hid : parse_u64 s.network_id with e | id
  · exact .inl (by simp only [signal, hid])
  rcases hentry : n.addresses id with _ | entry
  · exact .inl (by simp only [signal, hid, hentry])
  rcases hdata : marshal c h (.Message ⟨id, s.to_string⟩) n.network_id with e | datagram
  · exact .inl (by simp only [signal, hid, hentry, hdata])
  rcases hsent : send_to datagram entry.addr with e | _
  · exact .inl (by simp only [signal, hid, hentry, hdata, hsent])
  · have hsignal : n.signal c h s send_to =
        (.ok (), { n with sent := n.sent ++ [(datagram, entry.addr)] }) := by
      simp only [signal, hid, hentry, hdata, hsent]
    refine .inr ⟨datagram, entry.addr, by rw [hsignal], ?_⟩
    exact .message s send_to id entry rfl (by rw [hsignal]) hid hentry rfl hdata

/-- **An event sends one datagram at most.** -/
theorem sent_act (n : LanSignaling Addr) (event : Event Addr) :
    (n.act c h event).sent = n.sent ∨ ∃ datagram dest,
      (n.act c h event).sent = n.sent ++ [(datagram, dest)] ∧ n.Emits c h event datagram dest := by
  cases event with
  | receive datagram addr now send_to =>
    rw [act, receive, handle_packet]
    rcases unmarshal c h (datagram.take 4096) with e | ⟨packet, sender_id⟩
    · exact .inl rfl
    · dsimp only
      split
      · exact .inl rfl
      · cases packet with
        | Request packet =>
          -- only the address table differs from the node before the event
          rcases sent_handle_request (c := c) (h := h) { n with
              addresses := Function.update n.addresses sender_id (some ⟨addr, now⟩) } addr send_to
              (.receive datagram addr now send_to) with hsame | ⟨reply, dest, hsent, hemits⟩
          · exact .inl hsame
          · refine .inr ⟨reply, dest, hsent, ?_⟩
            cases hemits with
            | request hdata => exact .request hdata
            | response d app_data hserver happ hdata =>
              exact .response d app_data hserver happ hdata
            | message _ _ _ _ hevent => cases hevent
        | Response response =>
          dsimp only
          split <;> exact .inl rfl
        | Message message =>
          dsimp only [handle_message]
          split
          · exact .inl rfl
          · split
            · split <;> exact .inl rfl
            · exact .inl rfl
  | tick broadcast_addr now send_to =>
    cases broadcast_addr with
    | none => exact .inl rfl
    | some addr =>
      rcases sent_send_request (c := c) (h := h) (n.cleanup_addresses now) addr send_to
        (.tick (some addr) now send_to) with hsame | ⟨datagram, dest, hsent, hemits⟩
      · exact .inl hsame
      · refine .inr ⟨datagram, dest, hsent, ?_⟩
        cases hemits with
        | request hdata => exact .request hdata
        | response d app_data hserver happ hdata => exact .response d app_data hserver happ hdata
        | message _ _ _ _ hevent => cases hevent
  | signal s send_to => exact sent_signal n s send_to
  | set_pong_data data => exact .inl rfl

/-- An id is heard of in a datagram that is accepted. -/
theorem eq_receive_of_heard {event : Event Addr} {id : UInt64} {entry : AddressEntry Addr}
    (hheard : event.heard_of c h id = some entry) :
    ∃ datagram addr now send_to packet, event = .receive datagram addr now send_to ∧
      unmarshal c h (datagram.take 4096) = .ok (packet, id) ∧ entry = ⟨addr, now⟩ := by
  cases event with
  | receive datagram addr now send_to =>
    rcases hdata : unmarshal c h (datagram.take 4096) with e | ⟨packet, sender_id⟩
    · simp [Event.heard_of, hdata] at hheard
    · simp only [Event.heard_of, hdata, Option.ite_none_right_eq_some, Option.some.injEq] at hheard
      obtain ⟨rfl, rfl⟩ := hheard
      exact ⟨datagram, addr, now, send_to, packet, rfl, hdata, rfl⟩
  | tick broadcast_addr now send_to => cases hheard
  | signal s send_to => cases hheard
  | set_pong_data data => cases hheard

/-- **A server is discovered** by a response of another node. -/
theorem discovered_act {n : LanSignaling Addr} {event : Event Addr} {id : UInt64} {d : ServerData}
    (hd : (n.act c h event).discovered_servers id = some d) :
    n.discovered_servers id = some d ∨ ∃ datagram addr now send_to app_data,
      event = .receive datagram addr now send_to ∧ id ≠ n.network_id ∧
      unmarshal c h (datagram.take 4096) = .ok (.Response ⟨app_data⟩, id) ∧
      ServerData.unmarshal app_data = .ok d := by
  cases event with
  | receive datagram addr now send_to =>
    rw [act, receive, handle_packet] at hd
    rcases hdata : unmarshal c h (datagram.take 4096) with e | ⟨packet, sender_id⟩
    · rw [hdata] at hd
      exact .inl hd
    · simp only [hdata] at hd
      split at hd
      · exact .inl hd
      · rename_i hother
        cases packet with
        | Request packet =>
          obtain ⟨sent, hsent⟩ := handle_request_eq (c := c) (h := h) { n with
            addresses := Function.update n.addresses sender_id (some ⟨addr, now⟩) } addr send_to
          simp only [hsent] at hd
          exact .inl hd
        | Response response =>
          rcases happ : ServerData.unmarshal response.application_data with e | server_info
          · simp only [happ] at hd
            exact .inl hd
          · simp only [happ, Function.update_apply] at hd
            split at hd
            · rename_i heq
              subst heq
              obtain rfl := Option.some.inj hd
              exact .inr ⟨datagram, addr, now, send_to, _, rfl, hother, hdata, happ⟩
            · exact .inl hd
        | Message message =>
          left
          simp only [handle_message] at hd
          split at hd
          · exact hd
          · split at hd
            · split at hd <;> exact hd
            · exact hd
  | tick broadcast_addr now send_to =>
    obtain ⟨sent, hsent⟩ := n.tick_eq (c := c) (h := h) broadcast_addr now send_to
    rw [act, hsent] at hd
    exact .inl hd
  | signal s send_to =>
    obtain ⟨sent, hsent⟩ := n.signal_eq (c := c) (h := h) s send_to
    rw [act, hsent] at hd
    exact .inl hd
  | set_pong_data data => exact .inl hd

end LanSignaling

namespace Lan

open LanSignaling

variable {ι Addr : Type}

/-- What happens on the network. -/
inductive Action (ι Addr : Type)
  /-- The timer, or the user, of a node acts. -/
  | own (i : ι) (event : Event Addr)
  /-- The `k`-th datagram that `i` has sent reaches `j`. -/
  | deliver (i : ι) (k : ℕ) (j : ι) (now : ℕ) (send_to : Bytes → Addr → Except String Unit)
  /-- A datagram of another service reaches `j`. -/
  | foreign (j : ι) (datagram : Bytes) (addr : Addr) (now : ℕ)
      (send_to : Bytes → Addr → Except String Unit)

section Steps

variable (c : Crypto) (h : Hex) (addr : ι → Addr)

/-- Which node takes which event. `addr` are the addresses that the nodes send from. -/
def event_of (lan : Lan ι Addr) : Action ι Addr → Option (ι × Event Addr)
  | .own _ (.receive ..) => none
  | .own i event => some (i, event)
  | .deliver i k j now send_to =>
    (lan i).sent[k]?.map fun sent => (j, .receive sent.1 (addr i) now send_to)
  | .foreign j datagram addr now send_to =>
    match unmarshal c h (datagram.take 4096) with
    | .ok _ => none
    | .error _ => some (j, .receive datagram addr now send_to)

/-- A step of the network. -/
def step [DecidableEq ι] : Transition (Lan ι Addr) (Action ι Addr) := fun lan a =>
  (lan.event_of c h addr a).map fun (j, event) => Function.update lan j ((lan j).act c h event)

/-- The network at the start. -/
def start (id : ι → UInt64) : Lan ι Addr := fun i => .new (id i)

end Steps

/-- A signal is sent by a step of the run. -/
theorem event_of_signal {c : Crypto} {h : Hex} {addr : ι → Addr} {lan : Lan ι Addr}
    {a : Action ι Addr} {j : ι} {s : Signal} {send_to : Bytes → Addr → Except String Unit}
    (hevent : lan.event_of c h addr a = some (j, .signal s send_to)) :
    a = .own j (.signal s send_to) := by
  cases a with
  | own i event =>
    cases event <;> simp_all [event_of]
  | deliver i k j' now' send_to' =>
    obtain ⟨_, _, heq⟩ := Option.map_eq_some_iff.1 hevent
    cases heq
  | foreign j' datagram' from_addr' now' send_to' =>
    rcases hdata : unmarshal c h (datagram'.take 4096) with e | decoded
    · simp [event_of, hdata] at hevent
    · simp [event_of, hdata] at hevent

/-- What a node has published stays published. -/
theorem published_of_run [DecidableEq ι] {c : Crypto} {h : Hex} {addr : ι → Addr}
    {lan lan' : Lan ι Addr} {as : List (Action ι Addr)}
    (hrun : Transition.run (step c h addr) lan as = some lan') (i : ι) :
    (lan i).published ⊆ (lan' i).published := by
  refine Transition.run_invariant (P := fun lan' => (lan i).published ⊆ (lan' i).published)
    (fun lan₁ a lan₂ hsub hstep => ?_) (List.Subset.refl _) hrun
  obtain ⟨⟨j, event⟩, -, rfl⟩ := Option.map_eq_some_iff.1 hstep
  dsimp only
  by_cases hi : i = j
  · subst hi
    rw [Function.update_self]
    rcases published_act (c := c) (h := h) (lan₁ i) event with hsame | ⟨s, hpublishes⟩
    · rw [hsame]
      exact hsub
    · rw [hpublishes.published]
      exact List.subset_append_of_subset_left _ hsub
  · rw [Function.update_of_ne hi]
    exact hsub

/-! ## What holds in every run -/

section Runs

variable [DecidableEq ι] (c : Crypto) (h : Hex) (id : ι → UInt64) (addr : ι → Addr)

/-- In the run, a call of `signal` on `i` has sent `s`. -/
def Signalled (as : List (Action ι Addr)) (i : ι) (s : Signal) : Prop :=
  Transition.Once (step c h addr) (start id) as fun lan a =>
    ∃ send_to, a = .own i (.signal s send_to) ∧ ((lan i).signal c h s send_to).1 = .ok ()

/-- In the run, `d` has been the server data of `i`. -/
def Configured (as : List (Action ι Addr)) (i : ι) (d : ServerData) : Prop :=
  Transition.Once (step c h addr) (start id) as fun lan _ => (lan i).server_data = some d

/-- What `i` sends in the run. -/
inductive Honest (as : List (Action ι Addr)) (i : ι) (datagram : Bytes) (dest : Addr) : Prop
  | request (hdata : marshal c h (.Request {}) (id i) = .ok datagram)
  | response (d : ServerData) (app_data : Bytes) (hconfigured : Configured c h id addr as i d)
      (happ : d.marshal = .ok app_data)
      (hdata : marshal c h (.Response ⟨app_data⟩) (id i) = .ok datagram)
  | message (s : Signal) (k : ι) (hsignalled : Signalled c h id addr as i s)
      (hid : parse_u64 s.network_id = .ok (id k)) (hdest : dest = addr k)
      (hdata : marshal c h (.Message ⟨id k, s.to_string⟩) (id i) = .ok datagram)

/-- What the node `n` of `j` knows after a run came from the nodes it is about. -/
structure Sound (as : List (Action ι Addr)) (j : ι) (n : LanSignaling Addr) : Prop where
  network_id : n.network_id = id j
  sent : ∀ datagram dest, (datagram, dest) ∈ n.sent → Honest c h id addr as j datagram dest
  self : n.addresses n.network_id = none
  addresses : ∀ network_id entry, n.addresses network_id = some entry →
    ∃ i, id i = network_id ∧ entry.addr = addr i
  discovered : ∀ network_id d, n.discovered_servers network_id = some d →
    network_id ≠ id j ∧ ∃ i, id i = network_id ∧ Configured c h id addr as i d
  published : ∀ s ∈ n.published, ∃ i s₀, id i ≠ id j ∧ Signalled c h id addr as i s₀ ∧
    parse_u64 s₀.network_id = .ok (id j) ∧ s = { s₀ with network_id := u64_to_string (id i) }

variable {c h id addr}

theorem Honest.append {as : List (Action ι Addr)} {i : ι} {datagram : Bytes} {dest : Addr}
    (hd : Honest c h id addr as i datagram dest) (bs : List (Action ι Addr)) :
    Honest c h id addr (as ++ bs) i datagram dest := by
  cases hd with
  | request hdata => exact .request hdata
  | response d app_data hconfigured happ hdata =>
    exact .response d app_data (hconfigured.append bs) happ hdata
  | message s k hsignalled hid hdest hdata =>
    exact .message s k (hsignalled.append bs) hid hdest hdata

/-- What a node makes of a datagram of another: its packet, unless the receive buffer cuts it. -/
theorem Honest.unmarshal_take (hc : c.Lawful) (hh : h.Lawful) {as : List (Action ι Addr)} {i : ι}
    {datagram : Bytes} {dest : Addr} (hd : Honest c h id addr as i datagram dest) {packet : Packet}
    {sender_id : UInt64} (hread : unmarshal c h (datagram.take 4096) = .ok (packet, sender_id)) :
    sender_id = id i ∧ marshal c h packet (id i) = .ok datagram := by
  have hwhole : ∀ packet₀, marshal c h packet₀ (id i) = .ok datagram → packet₀.body_len ≤ 4043 →
      sender_id = id i ∧ marshal c h packet (id i) = .ok datagram := by
    intro packet₀ hdata hlen
    rw [take_of_marshal hh hdata hlen, unmarshal_marshal hc hh hdata] at hread
    obtain ⟨rfl, rfl⟩ := Prod.mk.inj (Except.ok.inj hread)
    exact ⟨rfl, hdata⟩
  cases hd with
  | request hdata => exact hwhole _ hdata (by decide)
  | response d app_data _ happ hdata =>
    have hlen := ServerData.length_marshal happ
    refine hwhole _ hdata ?_
    dsimp only [Packet.body_len]
    omega
  | message s k _ _ _ hdata =>
    by_cases hlen : (as_bytes s.to_string).length ≤ 4031
    · refine hwhole _ hdata ?_
      dsimp only [Packet.body_len]
      omega
    · -- cut in the middle of its text
      have hcut : 16 * 254 ≤ 32 + (as_bytes s.to_string).length := by omega
      obtain ⟨e, he⟩ := Nethernet.unmarshal_take hc hh hdata (by decide) hcut
      cases he.symm.trans hread

theorem Sound.append {as : List (Action ι Addr)} {j : ι} {n : LanSignaling Addr}
    (hn : Sound c h id addr as j n) (bs : List (Action ι Addr)) :
    Sound c h id addr (as ++ bs) j n where
  network_id := hn.network_id
  sent datagram dest hmem := (hn.sent datagram dest hmem).append bs
  self := hn.self
  addresses := hn.addresses
  discovered network_id d hd := by
    obtain ⟨hne, i, hi, hconfigured⟩ := hn.discovered network_id d hd
    exact ⟨hne, i, hi, hconfigured.append bs⟩
  published s hs := by
    obtain ⟨i, s₀, hne, hsignalled, heq⟩ := hn.published s hs
    exact ⟨i, s₀, hne, hsignalled.append bs, heq⟩

section Step

variable {as : List (Action ι Addr)} {lan : Lan ι Addr} {a : Action ι Addr} {j : ι}
  {event : Event Addr}

/-- **A datagram that is accepted comes from the node it names**, and from its address. -/
theorem came (hc : c.Lawful) (hh : h.Lawful) (hs : ∀ i, Sound c h id addr as i (lan i))
    {datagram : Bytes} {from_addr : Addr} {now : ℕ} {send_to : Bytes → Addr → Except String Unit}
    (hevent : lan.event_of c h addr a = some (j, .receive datagram from_addr now send_to))
    {packet : Packet} {sender_id : UInt64}
    (hread : unmarshal c h (datagram.take 4096) = .ok (packet, sender_id)) :
    ∃ i dest, sender_id = id i ∧ from_addr = addr i ∧ Honest c h id addr as i datagram dest ∧
      marshal c h packet (id i) = .ok datagram := by
  cases a with
  | own i event => cases event <;> simp [event_of] at hevent
  | deliver i k j' now' send_to' =>
    obtain ⟨⟨datagram', dest⟩, hsent, heq⟩ := Option.map_eq_some_iff.1 hevent
    simp only [Prod.mk.injEq, Event.receive.injEq] at heq
    obtain ⟨rfl, rfl, rfl, rfl, rfl⟩ := heq
    have hhonest := (hs i).sent datagram' dest (List.mem_of_getElem? hsent)
    obtain ⟨hsender, hdata⟩ := hhonest.unmarshal_take hc hh hread
    exact ⟨i, dest, hsender, rfl, hhonest, hdata⟩
  | foreign j' datagram' from_addr' now' send_to' =>
    rcases hdata : unmarshal c h (datagram'.take 4096) with e | decoded
    · simp only [event_of, hdata, Option.some.injEq, Prod.mk.injEq, Event.receive.injEq] at hevent
      obtain ⟨-, rfl, -⟩ := hevent
      cases hdata.symm.trans hread
    · simp [event_of, hdata] at hevent

/-- What a node sends is honest. -/
theorem Sound.honest (hn : Sound c h id addr as j (lan j))
    (hrun : Transition.run (step c h addr) (start id) as = some lan)
    (hevent : lan.event_of c h addr a = some (j, event)) {datagram : Bytes} {dest : Addr}
    (hemits : (lan j).Emits c h event datagram dest) :
    Honest c h id addr (as ++ [a]) j datagram dest := by
  cases hemits with
  | request hdata => exact .request (hn.network_id ▸ hdata)
  | response d app_data hserver happ hdata =>
    exact .response d app_data (Transition.once_concat hrun hserver) happ (hn.network_id ▸ hdata)
  | message s send_to nid entry hsignal hok hid hentry hdest hdata =>
    subst hsignal
    obtain ⟨k, rfl, haddr⟩ := hn.addresses nid entry hentry
    refine .message s k (Transition.once_concat hrun ⟨send_to, event_of_signal hevent, hok⟩) hid
      (hdest.trans haddr) (hn.network_id ▸ hdata)

/-- The signal in a message that is honest was sent by the node it comes from. -/
theorem published_of_honest (hc : c.Lawful) (hh : h.Lawful) {i : ι} {datagram : Bytes} {dest : Addr}
    (hhonest : Honest c h id addr as i datagram dest) {message : MessagePacket} {s : Signal}
    (hdata : marshal c h (.Message message) (id i) = .ok datagram)
    (hs : Signal.from_string message.data (u64_to_string (id i)) = .ok s) :
    ∃ s₀, Signalled c h id addr as i s₀ ∧ parse_u64 s₀.network_id = .ok message.recipient_id ∧
      s = { s₀ with network_id := u64_to_string (id i) } := by
  have hread := unmarshal_marshal hc hh hdata
  cases hhonest with
  | request hdata' => cases (unmarshal_marshal hc hh hdata').symm.trans hread
  | response d app_data _ _ hdata' => cases (unmarshal_marshal hc hh hdata').symm.trans hread
  | message s₀ k hsignalled hid _ hdata' =>
    cases (unmarshal_marshal hc hh hdata').symm.trans hread
    rw [Signal.from_string_to_string] at hs
    exact ⟨s₀, hsignalled, hid, (Except.ok.inj hs).symm⟩

/-- The server data in a response that is honest was that of the node it comes from. -/
theorem configured_of_honest (hc : c.Lawful) (hh : h.Lawful) {i : ι} {datagram : Bytes}
    {dest : Addr} (hhonest : Honest c h id addr as i datagram dest) {app_data : Bytes}
    {d : ServerData} (hdata : marshal c h (.Response ⟨app_data⟩) (id i) = .ok datagram)
    (hd : ServerData.unmarshal app_data = .ok d) : Configured c h id addr as i d := by
  have hread := unmarshal_marshal hc hh hdata
  cases hhonest with
  | request hdata' => cases (unmarshal_marshal hc hh hdata').symm.trans hread
  | message _ _ _ _ _ hdata' => cases (unmarshal_marshal hc hh hdata').symm.trans hread
  | response d' app_data' hconfigured happ hdata' =>
    cases (unmarshal_marshal hc hh hdata').symm.trans hread
    rw [ServerData.unmarshal_marshal happ] at hd
    exact Except.ok.inj hd ▸ hconfigured

/-- **What a step keeps**, of the node that takes its event. -/
theorem Sound.act (hc : c.Lawful) (hh : h.Lawful) (hs : ∀ i, Sound c h id addr as i (lan i))
    (hrun : Transition.run (step c h addr) (start id) as = some lan)
    (hevent : lan.event_of c h addr a = some (j, event)) :
    Sound c h id addr (as ++ [a]) j ((lan j).act c h event) where
  network_id := (network_id_act _ _).trans (hs j).network_id
  sent datagram dest hmem := by
    rcases sent_act (c := c) (h := h) (lan j) event with hsame | ⟨datagram', dest', hsent, hemits⟩
    · rw [hsame] at hmem
      exact ((hs j).sent datagram dest hmem).append [a]
    · rw [hsent] at hmem
      rcases List.mem_append.1 hmem with hold | hnew
      · exact ((hs j).sent datagram dest hold).append [a]
      · obtain ⟨rfl, rfl⟩ := Prod.mk.inj (List.mem_singleton.1 hnew)
        exact (hs j).honest hrun hevent hemits
  self := by
    rw [network_id_act]
    exact addresses_self (hs j).self event
  addresses network_id entry hentry := by
    by_cases hself : network_id = (lan j).network_id
    · rw [hself, addresses_self (hs j).self event] at hentry
      cases hentry
    · rcases (addresses_act hself entry).1 hentry with hheard | ⟨-, hold, -⟩
      · obtain ⟨datagram, from_addr, now, send_to, packet, rfl, hread, rfl⟩ :=
          eq_receive_of_heard hheard
        obtain ⟨i, dest, rfl, rfl, -⟩ := came hc hh hs hevent hread
        exact ⟨i, rfl, rfl⟩
      · exact (hs j).addresses network_id entry hold
  discovered network_id d hd := by
    rcases discovered_act hd with hold | ⟨datagram, from_addr, now, send_to, app_data, rfl, hother,
      hread, happ⟩
    · obtain ⟨hne, i, hi, hconfigured⟩ := (hs j).discovered network_id d hold
      exact ⟨hne, i, hi, hconfigured.append [a]⟩
    · obtain ⟨i, dest, rfl, -, hhonest, hdata⟩ := came hc hh hs hevent hread
      refine ⟨(hs j).network_id ▸ hother, i, rfl, ?_⟩
      exact (configured_of_honest hc hh hhonest hdata happ).append [a]
  published s hmem := by
    rcases published_act (c := c) (h := h) (lan j) event with hsame | ⟨s', hpublishes⟩
    · rw [hsame] at hmem
      obtain ⟨i, s₀, hne, hsignalled, heq⟩ := (hs j).published s hmem
      exact ⟨i, s₀, hne, hsignalled.append [a], heq⟩
    · rw [hpublishes.published] at hmem
      rcases List.mem_append.1 hmem with hold | hnew
      · obtain ⟨i, s₀, hne, hsignalled, heq⟩ := (hs j).published s hold
        exact ⟨i, s₀, hne, hsignalled.append [a], heq⟩
      · obtain rfl := List.mem_singleton.1 hnew
        obtain ⟨datagram, from_addr, now, send_to, message, sender_id, rfl, hread, hrecipient,
          hother, hsignal, -⟩ := hpublishes.message
        obtain ⟨i, dest, rfl, -, hhonest, hdata⟩ := came hc hh hs hevent hread
        obtain ⟨s₀, hsignalled, hid, rfl⟩ := published_of_honest hc hh hhonest hdata hsignal
        rw [hrecipient, (hs j).network_id] at hid
        exact ⟨i, s₀, (hs j).network_id ▸ hother, hsignalled.append [a], hid, rfl⟩

end Step

/-- The whole network. -/
theorem sound_of_run (hc : c.Lawful) (hh : h.Lawful) {as : List (Action ι Addr)} {lan : Lan ι Addr}
    (hrun : Transition.run (step c h addr) (start id) as = some lan) (j : ι) :
    Sound c h id addr as j (lan j) := by
  have hstart : (∀ j, Sound c h id addr [] j (start id j)) ∧
      Transition.run (step c h addr) (start id) [] = some (start id) :=
    ⟨fun j => ⟨rfl, nofun, rfl, nofun, nofun, nofun⟩, rfl⟩
  refine (Transition.run_induction (P := fun as lan => (∀ j, Sound c h id addr as j (lan j)) ∧
    Transition.run (step c h addr) (start id) as = some lan) ?_ hstart hrun).1 j
  rintro as lan a lan' ⟨hs, hrun⟩ hstep
  refine ⟨fun k => ?_, Transition.run_append_eq_some.2 ⟨lan, hrun,
    Transition.run_cons_eq_some.2 ⟨lan', hstep, rfl⟩⟩⟩
  obtain ⟨⟨j, event⟩, hevent, rfl⟩ := Option.map_eq_some_iff.1 hstep
  dsimp only
  by_cases hk : k = j
  · subst hk
    rw [Function.update_self]
    exact Sound.act hc hh hs hrun hevent
  · rw [Function.update_of_ne hk]
    exact (hs k).append [a]

end Runs

/-! ## A server and a client -/

/-- The blocks of the request of node 7, the response of node 9 for `world`, and the message
`CANDIDATEADD 1 c` of node 7 to node 9. -/
def blocks : List (Block × Block) := Crypto.discovery_blocks ++ Crypto.message_blocks

/-- Their checksums. -/
def checksums : List (Bytes × Checksum) := Crypto.discovery_checksums ++ Crypto.message_checksums

def ofNetwork : Crypto := .ofTable blocks checksums

theorem ofNetwork_lawful : ofNetwork.Lawful := (Crypto.ofTable_exact _ _).toLawful

/-- The server is node 9, and the client node 7. -/
def ids : Bool → UInt64
  | true => 9
  | false => 7

def addresses : Bool → ℕ
  | true => 2
  | false => 1

/-- The client discovers the server and sends it a candidate. -/
def exchange : List (Action Bool ℕ) :=
  [.own true (.set_pong_data world.bytes), .own false (.tick (some 255) 0 send_ok),
    .deliver false 0 true 1 send_ok, .deliver true 0 false 2 send_ok,
    .own false (.signal (candidate "c") send_ok), .deliver false 1 true 3 send_ok]

/-- The network after the exchange. -/
theorem run_exchange : ∃ lan,
    Transition.run (step ofNetwork .lowercase addresses) (start ids) exchange = some lan ∧
      (lan true).published = [{ candidate "c" with network_id := u64_to_string 7 }] ∧
      (lan false).discover 9 = some world ∧ (lan false).get_address 9 = some 2 ∧
      (lan false).sent.length = 2 := by
  have hrun : (Transition.run (step ofNetwork .lowercase addresses) (start ids) exchange).map
      (fun lan => ((lan true).published, (lan false).discover 9, (lan false).get_address 9,
        (lan false).sent.length)) =
      some ([{ candidate "c" with network_id := u64_to_string 7 }], some world, some 2, 2) := by
    decide +kernel
  obtain ⟨lan, hlan, heq⟩ := Option.map_eq_some_iff.1 hrun
  simp only [Prod.mk.injEq] at heq
  exact ⟨lan, hlan, heq⟩

section Runs

variable [DecidableEq ι] {c : Crypto} {h : Hex} {id : ι → UInt64} {addr : ι → Addr}

/-- **Signals are authentic**: a signal that a node publishes was sent to it, by the node that the
signal names, with the same type, connection id and data. -/
theorem authentic (hc : c.Lawful) (hh : h.Lawful) {as : List (Action ι Addr)} {lan : Lan ι Addr}
    (hrun : Transition.run (step c h addr) (start id) as = some lan) (j : ι) :
    ∀ s ∈ (lan j).published, ∃ i s₀, id i ≠ id j ∧ Signalled c h id addr as i s₀ ∧
      parse_u64 s₀.network_id = .ok (id j) ∧ s = { s₀ with network_id := u64_to_string (id i) } :=
  (sound_of_run hc hh hrun j).published

/-- The candidate that the server publishes. -/
theorem authentic_exchange : ∃ i s₀, ids i ≠ ids true ∧
    Signalled ofNetwork .lowercase ids addresses exchange i s₀ ∧
    parse_u64 s₀.network_id = .ok (ids true) ∧
    { candidate "c" with network_id := u64_to_string 7 } =
      { s₀ with network_id := u64_to_string (ids i) } := by
  obtain ⟨lan, hrun, hpublished, -⟩ := run_exchange
  refine authentic ofNetwork_lawful Hex.lowercase_lawful hrun true _ ?_
  rw [hpublished]
  exact List.mem_singleton_self _

/-- **Discovery is sound**: what a node has discovered of an id has been the server data of a node
with that id. -/
theorem discovered_configured (hc : c.Lawful) (hh : h.Lawful) {as : List (Action ι Addr)}
    {lan : Lan ι Addr} (hrun : Transition.run (step c h addr) (start id) as = some lan) (j : ι) :
    ∀ network_id d, (lan j).discover network_id = some d →
      network_id ≠ id j ∧ ∃ i, id i = network_id ∧ Configured c h id addr as i d :=
  (sound_of_run hc hh hrun j).discovered

/-- The server that the client discovers. -/
theorem discovered_configured_exchange : (9 : UInt64) ≠ ids false ∧
    ∃ i, ids i = 9 ∧ Configured ofNetwork .lowercase ids addresses exchange i world := by
  obtain ⟨lan, hrun, -, hdiscovered, -⟩ := run_exchange
  exact discovered_configured ofNetwork_lawful Hex.lowercase_lawful hrun false 9 world hdiscovered

/-- **Signals are routed**: where a node has an address for an id, a node with that id sends from
it, and every signal has gone to the address of a node with the id it is for. -/
theorem routed (hc : c.Lawful) (hh : h.Lawful) {as : List (Action ι Addr)} {lan : Lan ι Addr}
    (hrun : Transition.run (step c h addr) (start id) as = some lan) (j : ι) :
    (∀ network_id a, (lan j).get_address network_id = some a →
        network_id ≠ id j ∧ ∃ i, id i = network_id ∧ a = addr i) ∧
      ∀ datagram dest, (datagram, dest) ∈ (lan j).sent → ∀ message sender_id,
        unmarshal c h datagram = .ok (.Message message, sender_id) → sender_id = id j ∧
          ∃ s k, Signalled c h id addr as j s ∧ message.data = s.to_string ∧
            message.recipient_id = id k ∧ parse_u64 s.network_id = .ok (id k) ∧ dest = addr k := by
  have hs := sound_of_run hc hh hrun j
  constructor
  · intro network_id a ha
    obtain ⟨entry, hentry, rfl⟩ := Option.map_eq_some_iff.1 ha
    refine ⟨?_, hs.addresses network_id entry hentry⟩
    rintro rfl
    rw [← hs.network_id, hs.self] at hentry
    cases hentry
  · intro datagram dest hmem message sender_id hread
    cases hs.sent datagram dest hmem with
    | request hdata => cases (unmarshal_marshal hc hh hdata).symm.trans hread
    | response d app_data _ _ hdata => cases (unmarshal_marshal hc hh hdata).symm.trans hread
    | message s k hsignalled hid hdest hdata =>
      cases (unmarshal_marshal hc hh hdata).symm.trans hread
      exact ⟨rfl, s, k, hsignalled, rfl, rfl, hid, hdest⟩

/-- The client has the address of the server. -/
theorem routed_exchange : (9 : UInt64) ≠ ids false ∧ ∃ i, ids i = 9 ∧ 2 = addresses i := by
  obtain ⟨lan, hrun, -, -, haddress, -⟩ := run_exchange
  exact (routed ofNetwork_lawful Hex.lowercase_lawful hrun false).1 9 2 haddress

end Runs

end Lan

end Nethernet
