import Mathlib.Data.List.Induction
import Nethernet.Signaling.Task

/-!
# The address table

`table_of_history`: what the address table of a node holds is determined by its history. An id has
an entry exactly when a datagram of it was accepted and no tick since the latest one came too late
for it, and the entry is where that datagram came from. A signal is published only when it comes in
a message for this node, and at that time the table leads back to the node it came from.
-/

namespace Nethernet

open Foundations

namespace LanSignaling

variable {Addr : Type} (c : Crypto) (h : Hex)

namespace Event

/-- Where and when the event hears of an id: a datagram that is accepted came from it. -/
def heard_of (id : UInt64) : Event Addr → Option (AddressEntry Addr)
  | .receive datagram addr now _ =>
    match unmarshal c h (datagram.take 4096) with
    | .ok (_, sender_id) => if sender_id = id then some ⟨addr, now⟩ else none
    | .error _ => none
  | _ => none

/-- When the interval ticks. -/
def tick_time : Event Addr → Option ℕ
  | .tick _ now _ => some now
  | _ => none

/-- The event leaves an entry in the table: it is no tick, or not too late for it. -/
def Keeps (event : Event Addr) (entry : AddressEntry Addr) : Prop :=
  ∀ now, event.tick_time = some now → now - entry.last_seen < ADDRESS_TIMEOUT

end Event

/-- The entry of the latest datagram of an id, if no tick since has been too late for it. -/
def Heard (history : List (Event Addr)) (id : UInt64) (entry : AddressEntry Addr) : Prop :=
  ∃ before event later, history = before ++ event :: later ∧ event.heard_of c h id = some entry ∧
    ∀ e ∈ later, e.heard_of c h id = none ∧ e.Keeps entry

/-- How a node comes to publish a signal: in a message for it from another node, to whose address
a reply then goes. -/
structure Publishes (n : LanSignaling Addr) (event : Event Addr) (s : Signal) : Prop where
  published : (n.act c h event).published = n.published ++ [s]
  message : ∃ datagram addr now send_to message sender_id,
    event = .receive datagram addr now send_to ∧
    unmarshal c h (datagram.take 4096) = .ok (.Message message, sender_id) ∧
    message.recipient_id = n.network_id ∧ sender_id ≠ n.network_id ∧
    Signal.from_string message.data (u64_to_string sender_id) = .ok s ∧
    s.network_id = u64_to_string sender_id ∧
    (n.act c h event).addresses sender_id = some ⟨addr, now⟩ ∧
    ∀ reply : Signal, reply.network_id = s.network_id → ∀ send_to' n',
      (n.act c h event).signal c h reply send_to' = (.ok (), n') ↔
        ∃ data, marshal c h (.Message ⟨sender_id, reply.to_string⟩) n.network_id = .ok data ∧
          send_to' data addr = .ok () ∧
          n' = { n.act c h event with sent := (n.act c h event).sent ++ [(data, addr)] }

variable {c h}

/-! ## What an event does -/

/-- What a node does with a datagram from another node. -/
structure Receives (n : LanSignaling Addr) (packet : Packet) (sender_id : UInt64) (addr : Addr)
    (now : ℕ) (n' : LanSignaling Addr) : Prop where
  network_id : n'.network_id = n.network_id
  server_data : n'.server_data = n.server_data
  addresses : n'.addresses = Function.update n.addresses sender_id (some ⟨addr, now⟩)
  discovered_servers : n'.discovered_servers = n.discovered_servers ∨
    ∃ server_info, n'.discovered_servers =
      Function.update n.discovered_servers sender_id (some server_info)
  published : n'.published = n.published ∨ ∃ message s, packet = .Message message ∧
    message.recipient_id = n.network_id ∧
    Signal.from_string message.data (u64_to_string sender_id) = .ok s ∧
    n'.published = n.published ++ [s]

theorem handle_request_eq (n : LanSignaling Addr) (addr : Addr)
    (send_to : Bytes → Addr → Except String Unit) :
    ∃ sent, (n.handle_request c h addr send_to).2 = { n with sent := sent } := by
  rw [handle_request]
  split
  · exact ⟨n.sent, rfl⟩
  · split
    · exact ⟨n.sent, rfl⟩
    · split
      · exact ⟨n.sent, rfl⟩
      · split
        · exact ⟨_, rfl⟩
        · exact ⟨n.sent, rfl⟩

/-- **A datagram is ignored**, if it is not accepted or comes from the node itself, or updates the
table before anything else. -/
theorem receive_cases (n : LanSignaling Addr) (datagram : Bytes) (addr : Addr) (now : ℕ)
    (send_to : Bytes → Addr → Except String Unit) :
    (n.receive c h datagram addr now send_to = n ∧ ∀ packet sender_id,
        unmarshal c h (datagram.take 4096) = .ok (packet, sender_id) → sender_id = n.network_id) ∨
      ∃ packet sender_id, unmarshal c h (datagram.take 4096) = .ok (packet, sender_id) ∧
        sender_id ≠ n.network_id ∧
        n.Receives packet sender_id addr now (n.receive c h datagram addr now send_to) := by
  rw [receive, handle_packet]
  rcases hdata : unmarshal c h (datagram.take 4096) with e | ⟨packet, sender_id⟩
  · exact .inl ⟨rfl, fun _ _ h => by cases h⟩
  · simp only
    split
    · rename_i hself
      refine .inl ⟨rfl, fun _ _ h => ?_⟩
      obtain ⟨-, rfl⟩ := Prod.mk.inj (Except.ok.inj h)
      exact hself
    · rename_i hother
      refine .inr ⟨packet, sender_id, rfl, hother, ?_⟩
      cases packet with
      | Request packet =>
        obtain ⟨sent, hsent⟩ := handle_request_eq (c := c) (h := h) { n with
          addresses := Function.update n.addresses sender_id (some ⟨addr, now⟩) } addr send_to
        simp only [hsent]
        exact ⟨rfl, rfl, rfl, .inl rfl, .inl rfl⟩
      | Response response =>
        simp only
        split
        · rename_i server_info _
          exact ⟨rfl, rfl, rfl, .inr ⟨server_info, rfl⟩, .inl rfl⟩
        · exact ⟨rfl, rfl, rfl, .inl rfl, .inl rfl⟩
      | Message message =>
        simp only [handle_message]
        split
        · exact ⟨rfl, rfl, rfl, .inl rfl, .inl rfl⟩
        · split
          · rename_i hrecipient
            split
            · rename_i s hs
              exact ⟨rfl, rfl, rfl, .inl rfl, .inr ⟨message, s, rfl, hrecipient, hs, rfl⟩⟩
            · exact ⟨rfl, rfl, rfl, .inl rfl, .inl rfl⟩
          · exact ⟨rfl, rfl, rfl, .inl rfl, .inl rfl⟩

theorem signal_eq (n : LanSignaling Addr) (s : Signal)
    (send_to : Bytes → Addr → Except String Unit) :
    ∃ sent, (n.signal c h s send_to).2 = { n with sent := sent } := by
  rw [signal]
  split
  · exact ⟨n.sent, rfl⟩
  · split
    · exact ⟨n.sent, rfl⟩
    · split
      · exact ⟨n.sent, rfl⟩
      · split
        · exact ⟨n.sent, rfl⟩
        · exact ⟨_, rfl⟩

theorem send_request_eq (n : LanSignaling Addr) (addr : Addr)
    (send_to : Bytes → Addr → Except String Unit) :
    ∃ sent, (n.send_request c h addr send_to).2 = { n with sent := sent } := by
  delta send_request
  generalize marshal c h (.Request {}) n.network_id = request
  rcases request with e | data
  · exact ⟨n.sent, rfl⟩
  · dsimp only
    split
    · exact ⟨n.sent, rfl⟩
    · exact ⟨_, rfl⟩

theorem tick_eq (n : LanSignaling Addr) (broadcast_addr : Option Addr) (now : ℕ)
    (send_to : Bytes → Addr → Except String Unit) :
    ∃ sent, n.tick c h broadcast_addr now send_to =
      { n.cleanup_addresses now with sent := sent } := by
  cases broadcast_addr with
  | none => exact ⟨n.sent, rfl⟩
  | some addr => exact send_request_eq (n.cleanup_addresses now) addr send_to

@[simp] theorem network_id_act (n : LanSignaling Addr) (event : Event Addr) :
    (n.act c h event).network_id = n.network_id := by
  cases event with
  | receive datagram addr now send_to =>
    rcases n.receive_cases (c := c) (h := h) datagram addr now send_to with
      ⟨heq, -⟩ | ⟨_, _, -, -, hreceives⟩
    · rw [act, heq]
    · exact hreceives.network_id
  | tick broadcast_addr now send_to =>
    obtain ⟨sent, hsent⟩ := n.tick_eq (c := c) (h := h) broadcast_addr now send_to
    rw [act, hsent]
    rfl
  | signal s send_to =>
    obtain ⟨sent, hsent⟩ := n.signal_eq (c := c) (h := h) s send_to
    rw [act, hsent]
  | set_pong_data data => rfl

@[simp] theorem network_id_after (n : LanSignaling Addr) (history : List (Event Addr)) :
    (n.after c h history).network_id = n.network_id := by
  induction history using List.reverseRecOn with
  | nil => rfl
  | append_singleton history event ih => rw [after_concat, network_id_act, ih]

/-- The table after an event: an id the event hears of has the new entry, and another keeps its
entry unless the event is a tick that is too late for it. -/
theorem addresses_act {n : LanSignaling Addr} {event : Event Addr} {id : UInt64}
    (hid : id ≠ n.network_id) (entry : AddressEntry Addr) :
    (n.act c h event).addresses id = some entry ↔ event.heard_of c h id = some entry ∨
      (event.heard_of c h id = none ∧ n.addresses id = some entry ∧ event.Keeps entry) := by
  cases event with
  | receive datagram addr now send_to =>
    have hkeeps : (Event.receive datagram addr now send_to).Keeps entry := nofun
    rcases n.receive_cases (c := c) (h := h) datagram addr now send_to with
      ⟨heq, hself⟩ | ⟨packet, sender_id, hdata, hother, hreceives⟩
    · have hheard : (Event.receive datagram addr now send_to).heard_of c h id = none := by
        rw [Event.heard_of]
        split
        · rename_i packet sender_id hdata
          exact if_neg fun h => hid (h.symm.trans (hself packet sender_id hdata))
        · rfl
      rw [act, heq, hheard]
      simp [hkeeps]
    · have hheard : (Event.receive datagram addr now send_to).heard_of c h id =
          if sender_id = id then some ⟨addr, now⟩ else none := by
        rw [Event.heard_of, hdata]
      rw [act, hreceives.addresses, hheard, Function.update_apply]
      by_cases heq : id = sender_id
      · simp [heq]
      · simp [heq, Ne.symm heq, hkeeps]
  | tick broadcast_addr now send_to =>
    obtain ⟨sent, hsent⟩ := n.tick_eq (c := c) (h := h) broadcast_addr now send_to
    rw [act, hsent, cleanup_addresses, Option.filter_eq_some_iff]
    simp [Event.heard_of, Event.Keeps, Event.tick_time]
  | signal s send_to =>
    obtain ⟨sent, hsent⟩ := n.signal_eq (c := c) (h := h) s send_to
    rw [act, hsent]
    simp [Event.heard_of, Event.Keeps, Event.tick_time]
  | set_pong_data data => simp [act, set_pong_data, Event.heard_of, Event.Keeps, Event.tick_time]

/-- A node never has an entry for itself. -/
theorem addresses_self {n : LanSignaling Addr} (hn : n.addresses n.network_id = none)
    (event : Event Addr) : (n.act c h event).addresses n.network_id = none := by
  cases event with
  | receive datagram addr now send_to =>
    rcases n.receive_cases (c := c) (h := h) datagram addr now send_to with
      ⟨heq, -⟩ | ⟨packet, sender_id, hdata, hother, hreceives⟩
    · rw [act, heq, hn]
    · rw [act, hreceives.addresses, Function.update_of_ne (Ne.symm hother), hn]
  | tick broadcast_addr now send_to =>
    obtain ⟨sent, hsent⟩ := n.tick_eq (c := c) (h := h) broadcast_addr now send_to
    simp only [act, hsent, cleanup_addresses, hn, Option.filter_none]
  | signal s send_to =>
    obtain ⟨sent, hsent⟩ := n.signal_eq (c := c) (h := h) s send_to
    rw [act, hsent, hn]
  | set_pong_data data => exact hn

/-- What a reply to a known network id does when it is sent. -/
theorem signal_ok_iff {n : LanSignaling Addr} {id : UInt64} {entry : AddressEntry Addr}
    (hentry : n.addresses id = some entry) {s : Signal} (hid : s.network_id = u64_to_string id)
    (send_to : Bytes → Addr → Except String Unit) (n' : LanSignaling Addr) :
    n.signal c h s send_to = (.ok (), n') ↔
      ∃ data, marshal c h (.Message ⟨id, s.to_string⟩) n.network_id = .ok data ∧
        send_to data entry.addr = .ok () ∧
        n' = { n with sent := n.sent ++ [(data, entry.addr)] } := by
  rw [signal, hid, parse_u64_to_string]
  simp only [hentry]
  rcases marshal c h (.Message ⟨id, s.to_string⟩) n.network_id with e | data
  · simp
  · simp only [Except.ok.injEq, exists_eq_left']
    rcases hsent : send_to data entry.addr with e | _
    · simp
    · simp [eq_comm]

/-- **An event publishes one signal at most**, and only one that came in a message. -/
theorem published_act (n : LanSignaling Addr) (event : Event Addr) :
    (n.act c h event).published = n.published ∨ ∃ s, n.Publishes c h event s := by
  cases event with
  | receive datagram addr now send_to =>
    rcases n.receive_cases (c := c) (h := h) datagram addr now send_to with
      ⟨heq, -⟩ | ⟨packet, sender_id, hdata, hother, hreceives⟩
    · exact .inl (by rw [act, heq])
    · rcases hreceives.published with hpub | ⟨message, s, rfl, hrecipient, hs, hpub⟩
      · exact .inl hpub
      · have hentry : (n.act c h (.receive datagram addr now send_to)).addresses sender_id =
            some ⟨addr, now⟩ := by
          rw [act, hreceives.addresses, Function.update_self]
        have hnetwork : s.network_id = u64_to_string sender_id := Signal.network_id_of_string hs
        refine .inr ⟨s, hpub, datagram, addr, now, send_to, message, sender_id, rfl, hdata,
          hrecipient, hother, hs, hnetwork, hentry, fun reply hreply send_to' n' => ?_⟩
        rw [← network_id_act (c := c) (h := h) n (.receive datagram addr now send_to)]
        exact signal_ok_iff hentry (hreply.trans hnetwork) send_to' n'
  | tick broadcast_addr now send_to =>
    obtain ⟨sent, hsent⟩ := n.tick_eq (c := c) (h := h) broadcast_addr now send_to
    exact .inl (by rw [act, hsent]; rfl)
  | signal s send_to =>
    obtain ⟨sent, hsent⟩ := n.signal_eq (c := c) (h := h) s send_to
    exact .inl (by rw [act, hsent])
  | set_pong_data data => exact .inl rfl

/-! ## The table of a history -/

theorem heard_concat {history : List (Event Addr)} {event : Event Addr} {id : UInt64}
    {entry : AddressEntry Addr} :
    Heard c h (history ++ [event]) id entry ↔ event.heard_of c h id = some entry ∨
      (event.heard_of c h id = none ∧ Heard c h history id entry ∧ event.Keeps entry) := by
  constructor
  · rintro ⟨before, e, later, heq, he, hlater⟩
    rcases List.eq_nil_or_concat later with rfl | ⟨later, last, rfl⟩
    · obtain ⟨-, hlast⟩ := List.append_inj' heq rfl
      obtain rfl := List.singleton_inj.1 hlast
      exact .inl he
    · rw [List.concat_eq_append, ← List.cons_append, ← List.append_assoc] at heq
      obtain ⟨rfl, hlast⟩ := List.append_inj' heq rfl
      obtain rfl := List.singleton_inj.1 hlast
      have hmem : event ∈ later.concat event := by simp
      exact .inr ⟨(hlater event hmem).1, ⟨before, e, later, rfl, he, fun e' he' =>
        hlater e' (by simp [he'])⟩, (hlater event hmem).2⟩
  · rintro (hevent | ⟨hevent, ⟨before, e, later, rfl, he, hlater⟩, hkeeps⟩)
    · exact ⟨history, event, [], rfl, hevent, by simp⟩
    · refine ⟨before, e, later ++ [event], by simp, he, fun e' he' => ?_⟩
      rcases List.mem_append.1 he' with he' | he'
      · exact hlater e' he'
      · obtain rfl := List.mem_singleton.1 he'
        exact ⟨hevent, hkeeps⟩

/-- **The table is determined by the history.** -/
theorem addresses_after (own : UInt64) (history : List (Event Addr)) (id : UInt64)
    (entry : AddressEntry Addr) :
    ((new own).after c h history).addresses id = some entry ↔
      id ≠ own ∧ Heard c h history id entry := by
  by_cases hid : id = own
  · subst hid
    have hnone : ((new id).after c h history).addresses id = none := by
      induction history using List.reverseRecOn with
      | nil => rfl
      | append_singleton history event ih =>
        have hself := addresses_self (c := c) (h := h) (n := (new id).after c h history)
          (by rwa [network_id_after]) event
        rwa [network_id_after, ← after_concat] at hself
    simp [hnone]
  · induction history using List.reverseRecOn generalizing entry with
    | nil => simp [new, Heard]
    | append_singleton history event ih =>
      have hne : id ≠ ((new own).after c h history).network_id := by rwa [network_id_after]
      rw [after_concat, addresses_act hne, ih, heard_concat]
      simp [hid]

/-- Every signal a node publishes came in a message. -/
theorem publishes_of_mem (n : LanSignaling Addr) (history : List (Event Addr)) {s : Signal}
    (hn : s ∉ n.published) (hs : s ∈ (n.after c h history).published) :
    ∃ before event later, history = before ++ event :: later ∧
      (n.after c h before).Publishes c h event s := by
  induction history using List.reverseRecOn with
  | nil => exact absurd hs hn
  | append_singleton history event ih =>
    rw [after_concat] at hs
    have hbefore : s ∈ (n.after c h history).published → ∃ before event' later,
        history ++ [event] = before ++ event' :: later ∧
          (n.after c h before).Publishes c h event' s := by
      intro hmem
      obtain ⟨before, event', later, rfl, hpub⟩ := ih hmem
      exact ⟨before, event', later ++ [event], by simp, hpub⟩
    rcases (n.after c h history).published_act (c := c) (h := h) event with hsame | ⟨s', hpub⟩
    · exact hbefore (hsame ▸ hs)
    · rw [hpub.published, List.mem_append, List.mem_singleton] at hs
      rcases hs with hs | rfl
      · exact hbefore hs
      · exact ⟨history, event, [], rfl, hpub⟩

/-- **What a node knows and publishes**: its table is determined by its history, and every signal
it publishes came in a message for it, to whose sender the table then leads. -/
theorem table_of_history (c : Crypto) (h : Hex) (own : UInt64) (history : List (Event Addr)) :
    (∀ id entry, ((new own).after c h history).addresses id = some entry ↔
        id ≠ own ∧ Heard c h history id entry) ∧
      ∀ s ∈ ((new own).after c h history).published, ∃ before event later,
        history = before ++ event :: later ∧ ((new own).after c h before).Publishes c h event s :=
  ⟨addresses_after own history, fun _ hs => publishes_of_mem _ history List.not_mem_nil hs⟩

end LanSignaling

end Nethernet
