import Nethernet.Foundations.Picks
import Nethernet.Signaling.Network

/-!
# How often a signal is published

The signals of one node that another publishes, against the calls of `signal` that sent them.
`published_once`: a network that delivers no datagram twice makes a node publish each signal at most
as often as it was sent; one that also keeps their order makes it publish them in the order of the
calls; and one that delivers all makes it publish exactly what was sent, unless a text is too long
for the receive buffer.
-/

namespace Nethernet

open Foundations

namespace LanSignaling

variable {Addr : Type} (c : Crypto) (h : Hex)

/-- The signal that the node `own` publishes when it has received `data`. -/
def carried (own : UInt64) (data : Bytes) : Option Signal :=
  match unmarshal c h data with
  | .ok (.Message message, sender_id) =>
    if sender_id = own ∨ message.data = PING_TOKEN ∨ message.recipient_id ≠ own then none
    else (Signal.from_string message.data (u64_to_string sender_id)).toOption
  | _ => none

variable {c h}

/-- **What a node publishes** when it receives a datagram. -/
theorem published_receive (n : LanSignaling Addr) (datagram : Bytes) (addr : Addr) (now : ℕ)
    (send_to : Bytes → Addr → Except String Unit) :
    (n.receive c h datagram addr now send_to).published =
      n.published ++ (carried c h n.network_id (datagram.take 4096)).toList := by
  rw [receive, handle_packet, carried]
  rcases unmarshal c h (datagram.take 4096) with e | ⟨packet, sender_id⟩
  · simp
  · cases packet with
    | Request packet =>
      dsimp only
      split
      · simp
      · obtain ⟨sent, hsent⟩ := handle_request_eq (c := c) (h := h) { n with
          addresses := Function.update n.addresses sender_id (some ⟨addr, now⟩) } addr send_to
        simp [hsent]
    | Response response =>
      dsimp only
      split
      · simp
      · split <;> simp
    | Message message =>
      dsimp only
      by_cases hself : sender_id = n.network_id
      · simp [hself]
      · by_cases hping : message.data = PING_TOKEN
        · simp [hself, handle_message, hping]
        · by_cases hrecipient : message.recipient_id = n.network_id
          · simp only [hself, handle_message, hping, hrecipient, if_false, if_true, ne_eq,
              not_true_eq_false, or_self]
            cases Signal.from_string message.data (u64_to_string sender_id) <;>
              simp [Except.toOption]
          · simp [hself, handle_message, hping, hrecipient]

/-- A signal that is sent is carried to the node it is for, and to no other. -/
theorem carried_of_marshal (hc : c.Lawful) (hh : h.Lawful) {own id sender_id : UInt64} {s : Signal}
    {data : Bytes} (hne : sender_id ≠ own)
    (hdata : marshal c h (.Message ⟨id, s.to_string⟩) sender_id = .ok data) :
    carried c h own data =
      if id = own then some { s with network_id := u64_to_string sender_id } else none := by
  have hping : ¬ s.to_string = PING_TOKEN := s.to_string_ne_ping
  rw [carried, unmarshal_marshal hc hh hdata]
  by_cases hid : id = own
  · simp [hid, hne, hping, Signal.from_string_to_string, Except.toOption]
  · simp [hid]

/-- `signal` sends one datagram when it succeeds, and none when it fails. -/
theorem signal_cases (n : LanSignaling Addr) (s : Signal)
    (send_to : Bytes → Addr → Except String Unit) :
    (∃ e, (n.signal c h s send_to).1 = .error e ∧ (n.signal c h s send_to).2.sent = n.sent) ∨
      ∃ id datagram dest, (n.signal c h s send_to).1 = .ok () ∧ parse_u64 s.network_id = .ok id ∧
        marshal c h (.Message ⟨id, s.to_string⟩) n.network_id = .ok datagram ∧
        (n.signal c h s send_to).2.sent = n.sent ++ [(datagram, dest)] := by
  rcases hid : parse_u64 s.network_id with e | id
  · exact .inl ⟨.Other s!"Invalid network ID: {e}", by simp only [signal, hid],
      by simp only [signal, hid]⟩
  rcases hentry : n.addresses id with _ | entry
  · exact .inl ⟨.Other s!"Address not found for network {u64_to_string id}",
      by simp only [signal, hid, hentry], by simp only [signal, hid, hentry]⟩
  rcases hdata : marshal c h (.Message ⟨id, s.to_string⟩) n.network_id with e | datagram
  · exact .inl ⟨e, by simp only [signal, hid, hentry, hdata],
      by simp only [signal, hid, hentry, hdata]⟩
  rcases hsent : send_to datagram entry.addr with e | _
  · exact .inl ⟨.Io e, by simp only [signal, hid, hentry, hdata, hsent],
      by simp only [signal, hid, hentry, hdata, hsent]⟩
  · exact .inr ⟨id, datagram, entry.addr, by simp only [signal, hid, hentry, hdata, hsent], rfl,
      hdata, by simp only [signal, hid, hentry, hdata, hsent]⟩

/-- The signal that is carried names its sender. -/
theorem network_id_of_carried {own : UInt64} {data : Bytes} {s : Signal}
    (hs : carried c h own data = some s) :
    ∃ packet sender_id, unmarshal c h data = .ok (packet, sender_id) ∧
      s.network_id = u64_to_string sender_id := by
  rw [carried] at hs
  rcases hdata : unmarshal c h data with e | ⟨packet, sender_id⟩
  · simp [hdata] at hs
  · refine ⟨packet, sender_id, rfl, ?_⟩
    cases packet with
    | Request packet => simp [hdata] at hs
    | Response response => simp [hdata] at hs
    | Message message =>
      simp only [hdata, Option.ite_none_left_eq_some] at hs
      rcases hsignal : Signal.from_string message.data (u64_to_string sender_id) with e | s'
      · simp [hsignal, Except.toOption] at hs
      · obtain rfl : s' = s := by simpa [hsignal, Except.toOption] using hs.2
        exact Signal.network_id_of_string hsignal

theorem carried_of_request (hc : c.Lawful) (hh : h.Lawful) {own sender_id : UInt64} {data : Bytes}
    (hdata : marshal c h (.Request {}) sender_id = .ok data) : carried c h own data = none := by
  rw [carried, unmarshal_marshal hc hh hdata]

theorem carried_of_response (hc : c.Lawful) (hh : h.Lawful) {own sender_id : UInt64}
    {response : ResponsePacket} {data : Bytes}
    (hdata : marshal c h (.Response response) sender_id = .ok data) :
    carried c h own data = none := by
  rw [carried, unmarshal_marshal hc hh hdata]

end LanSignaling

namespace Lan

open LanSignaling

variable {ι Addr : Type} [DecidableEq ι]

/-- Which datagram of `i` the action brings to `j`. -/
def Action.brings (i j : ι) : Action ι Addr → Option ℕ
  | .deliver i' k j' _ _ => if i' = i ∧ j' = j then some k else none
  | _ => none

/-- The signals of the node `sender_id` that `n` has published. -/
def published_from (n : LanSignaling Addr) (sender_id : UInt64) : List Signal :=
  n.published.filter fun s => s.network_id = u64_to_string sender_id

/-- The signal that the action has `i` send to the node `recipient_id`, as it is published there. -/
def sends (c : Crypto) (h : Hex) (i : ι) (recipient_id : UInt64) (lan : Lan ι Addr) :
    Action ι Addr → List Signal
  | .own i' (.signal s send_to) =>
    match parse_u64 s.network_id, ((lan i').signal c h s send_to).1 with
    | .ok id, .ok () =>
      if i' = i ∧ id = recipient_id then
        [{ s with network_id := u64_to_string (lan i').network_id }]
      else []
    | _, _ => []
  | _ => []

variable {c : Crypto} {h : Hex} {id : ι → UInt64} {addr : ι → Addr}

section Step

variable {as : List (Action ι Addr)} {lan lan' : Lan ι Addr} {a : Action ι Addr} {i j : ι}

/-- **What the calls of `signal` send** is in the datagrams of the node. -/
theorem carried_step (hc : c.Lawful) (hh : h.Lawful) {own : UInt64}
    (hne : (lan i).network_id ≠ own) (hstep : step c h addr lan a = some lan') :
    (lan' i).sent.filterMap (fun d => carried c h own d.1) =
      (lan i).sent.filterMap (fun d => carried c h own d.1) ++ sends c h i own lan a := by
  obtain ⟨⟨k, event⟩, hevent, rfl⟩ := Option.map_eq_some_iff.1 hstep
  dsimp only
  by_cases hsignal : ∃ s send_to, event = .signal s send_to
  · obtain ⟨s, send_to, rfl⟩ := hsignal
    obtain rfl := event_of_signal hevent
    by_cases hk : k = i
    · subst hk
      rw [Function.update_self, LanSignaling.act]
      rcases (lan k).signal_cases (c := c) (h := h) s send_to with
        ⟨e, hresult, hsent⟩ | ⟨nid, datagram, dest, hresult, hid, hdata, hsent⟩
      · rw [hsent, sends, hresult]
        cases parse_u64 s.network_id <;> simp
      · rw [hsent, sends, hresult, hid, List.filterMap_append]
        simp only [List.filterMap_cons, List.filterMap_nil, carried_of_marshal hc hh hne hdata]
        by_cases hown : nid = own <;> simp [hown]
    · have hnone : sends c h i own lan (.own k (.signal s send_to)) = [] := by
        rw [sends]
        split
        · exact if_neg fun hboth => hk hboth.1
        · rfl
      rw [Function.update_of_ne (Ne.symm hk), hnone, List.append_nil]
  · have hnone : sends c h i own lan a = [] := by
      rw [sends.eq_def]
      split
      · rename_i s send_to
        cases hevent
        exact absurd ⟨s, send_to, rfl⟩ hsignal
      · rfl
    rw [hnone, List.append_nil]
    by_cases hk : i = k
    · subst hk
      rw [Function.update_self]
      rcases sent_act (c := c) (h := h) (lan i) event with hsame | ⟨datagram, dest, hsent, hemits⟩
      · rw [hsame]
      · rw [hsent, List.filterMap_append]
        cases hemits with
        | request hdata => simp [carried_of_request hc hh hdata]
        | response d app_data hserver happ hdata => simp [carried_of_response hc hh hdata]
        | message s send_to _ _ hevent' => exact absurd ⟨s, send_to, hevent'⟩ hsignal
    · rw [Function.update_of_ne hk]

theorem u64_to_string_inj {m n : UInt64} (hmn : u64_to_string m = u64_to_string n) : m = n := by
  have hm := parse_u64_to_string m
  rw [hmn, parse_u64_to_string] at hm
  exact (Except.ok.inj hm).symm

/-- No event takes back what a node has sent. -/
theorem sent_step (hstep : step c h addr lan a = some lan') (i : ι) :
    ∃ l, (lan' i).sent = (lan i).sent ++ l := by
  obtain ⟨⟨k, event⟩, -, rfl⟩ := Option.map_eq_some_iff.1 hstep
  dsimp only
  by_cases hk : i = k
  · subst hk
    rw [Function.update_self]
    rcases sent_act (c := c) (h := h) (lan i) event with hsame | ⟨datagram, dest, hsent, -⟩
    · exact ⟨[], by rw [hsame, List.append_nil]⟩
    · exact ⟨_, hsent⟩
  · rw [Function.update_of_ne hk]
    exact ⟨[], (List.append_nil _).symm⟩

/-- The signals of `i` that a datagram makes `j` publish. -/
theorem published_from_receive (hc : c.Lawful) (hh : h.Lawful) (hne : id i ≠ id j)
    {n : LanSignaling Addr} (hn : n.network_id = id j) {k : ι} (hinj : id k = id i → k = i)
    {datagram : Bytes} {dest : Addr} (hhonest : Honest c h id addr as k datagram dest)
    (now : ℕ) (send_to : Bytes → Addr → Except String Unit) :
    published_from (n.receive c h datagram (addr k) now send_to) (id i) =
      published_from n (id i) ++
        if k = i then (carried c h (id j) (datagram.take 4096)).toList else [] := by
  rw [published_from, published_receive, List.filter_append, hn]
  congr 1
  rcases hcarried : carried c h (id j) (datagram.take 4096) with _ | s
  · simp
  · obtain ⟨packet, sender_id, hread, hs⟩ := network_id_of_carried hcarried
    obtain ⟨rfl, -⟩ := hhonest.unmarshal_take hc hh hread
    by_cases hk : k = i
    · subst hk
      simp [hs]
    · have hother : ¬ s.network_id = u64_to_string (id i) := by
        rw [hs]
        exact fun heq => hk (hinj (u64_to_string_inj heq))
      simp [hk, hother]

/-- **What a step adds** to the signals of `i` that `j` has published. -/
theorem published_from_step (hc : c.Lawful) (hh : h.Lawful) (hne : id i ≠ id j)
    (hinj : ∀ k, id k = id i → k = i) (hs : ∀ i, Sound c h id addr as i (lan i))
    (hstep : step c h addr lan a = some lan') :
    (∀ k ∈ a.brings i j, k < (lan i).sent.length) ∧
      published_from (lan' j) (id i) = published_from (lan j) (id i) ++
        (pick (lan i).sent (a.brings i j).toList).filterMap
          fun d => carried c h (id j) (d.1.take 4096) := by
  obtain ⟨⟨k, event⟩, hevent, rfl⟩ := Option.map_eq_some_iff.1 hstep
  dsimp only
  cases a with
  | own i' event' =>
    refine ⟨fun k hk => absurd hk (by simp [Action.brings]), ?_⟩
    have hsame : ((lan k).act c h event).published = (lan k).published := by
      rcases published_act (c := c) (h := h) (lan k) event with hsame | ⟨s, hpublishes⟩
      · exact hsame
      · obtain ⟨_, _, _, _, _, _, rfl, -⟩ := hpublishes.message
        cases event' <;> cases hevent
    by_cases hk : j = k
    · subst hk
      rw [Function.update_self, published_from, hsame]
      exact (List.append_nil _).symm
    · rw [Function.update_of_ne hk]
      exact (List.append_nil _).symm
  | deliver i' m j' now send_to =>
    obtain ⟨⟨datagram, dest⟩, hsent, heq⟩ := Option.map_eq_some_iff.1 hevent
    obtain ⟨rfl, rfl⟩ := Prod.mk.inj heq
    by_cases hj : j = j'
    · subst hj
      have hhonest := (hs i').sent datagram dest (List.mem_of_getElem? hsent)
      rw [Function.update_self, LanSignaling.act,
        published_from_receive hc hh hne (hs j).network_id (hinj i') hhonest]
      by_cases hi : i' = i
      · subst hi
        have hlt := List.getElem?_eq_some_iff.1 hsent
        simp only [Action.brings, and_self, if_true, Option.toList_some]
        refine ⟨fun k hk => Option.mem_some.1 hk ▸ hlt.1, congrArg _ ?_⟩
        rw [pick, List.filterMap_cons_some hsent]
        cases hcarried : carried c h (id j) (datagram.take 4096) <;> simp [hcarried]
      · simp [Action.brings, hi]
    · rw [Function.update_of_ne hj]
      simp [Action.brings, Ne.symm hj]
  | foreign j' datagram from_addr now send_to =>
    refine ⟨fun k hk => absurd hk (by simp [Action.brings]), ?_⟩
    rcases hdata : unmarshal c h (datagram.take 4096) with e | decoded
    · simp only [event_of, hdata, Option.some.injEq, Prod.mk.injEq] at hevent
      obtain ⟨rfl, rfl⟩ := hevent
      by_cases hk : j = j'
      · subst hk
        rw [Function.update_self, LanSignaling.act, receive_of_error hdata]
        exact (List.append_nil _).symm
      · rw [Function.update_of_ne hk]
        exact (List.append_nil _).symm
    · simp [event_of, hdata] at hevent

end Step

section Runs

variable {as : List (Action ι Addr)} {lan : Lan ι Addr} {i j : ι}

/-- The signals in the datagrams of `i` are those that its calls of `signal` have sent. -/
theorem carried_of_run (hc : c.Lawful) (hh : h.Lawful) (hne : id i ≠ id j)
    (hrun : Transition.run (step c h addr) (start id) as = some lan) :
    (lan i).sent.filterMap (fun d => carried c h (id j) d.1) =
      Transition.trace (step c h addr) (sends c h i (id j)) (start id) as := by
  have hstep : ∀ (lan : Lan ι Addr) a lan', (lan i).network_id = id i →
      step c h addr lan a = some lan' → (lan' i).network_id = id i ∧
      (lan' i).sent.filterMap (fun d => carried c h (id j) d.1) =
        (lan i).sent.filterMap (fun d => carried c h (id j) d.1) ++ sends c h i (id j) lan a := by
    intro lan a lan' hid hstep
    refine ⟨?_, carried_step hc hh (hid ▸ hne) hstep⟩
    obtain ⟨⟨k, event⟩, -, rfl⟩ := Option.map_eq_some_iff.1 hstep
    dsimp only
    by_cases hk : i = k
    · subst hk
      rw [Function.update_self, network_id_act, hid]
    · rw [Function.update_of_ne hk, hid]
  show (fun lan : Lan ι Addr => (lan i).sent.filterMap fun d => carried c h (id j) d.1) lan = _
  exact Transition.run_append_trace (P := fun lan => (lan i).network_id = id i) hstep rfl hrun

variable (c h id addr) in
/-- The signals of `i` that `j` has published are those in the datagrams that have reached it. -/
structure Delivered (i j : ι) (as : List (Action ι Addr)) (lan : Lan ι Addr) : Prop where
  run : Transition.run (step c h addr) (start id) as = some lan
  indices : ∀ k ∈ as.filterMap (Action.brings i j), k < (lan i).sent.length
  published : published_from (lan j) (id i) =
    (pick (lan i).sent (as.filterMap (Action.brings i j))).filterMap
      fun d => carried c h (id j) (d.1.take 4096)

theorem Delivered.next (hc : c.Lawful) (hh : h.Lawful) (hne : id i ≠ id j)
    (hinj : ∀ k, id k = id i → k = i) (hd : Delivered c h id addr i j as lan) {a : Action ι Addr}
    {lan' : Lan ι Addr} (hstep : step c h addr lan a = some lan') :
    Delivered c h id addr i j (as ++ [a]) lan' := by
  obtain ⟨hnew, hpublished⟩ := published_from_step hc hh hne hinj (sound_of_run hc hh hd.run) hstep
  obtain ⟨l, hsent⟩ := sent_step hstep i
  have hall : ∀ k ∈ (as ++ [a]).filterMap (Action.brings i j), k < (lan i).sent.length := by
    intro k hk
    rw [List.filterMap_append, List.mem_append] at hk
    rcases hk with hold | hk
    · exact hd.indices k hold
    · obtain ⟨a', ha', hk⟩ := List.mem_filterMap.1 hk
      exact hnew k (List.mem_singleton.1 ha' ▸ hk)
  refine ⟨Transition.run_append_eq_some.2 ⟨lan, hd.run,
    Transition.run_cons_eq_some.2 ⟨lan', hstep, rfl⟩⟩, fun k hk => ?_, ?_⟩
  · have hlt := hall k hk
    rw [hsent, List.length_append]
    omega
  · rw [hpublished, hd.published, hsent, pick_append hall, List.filterMap_append, pick, pick, pick,
      List.filterMap_append, List.filterMap_append]
    congr 2

theorem delivered_of_run (hc : c.Lawful) (hh : h.Lawful) (hne : id i ≠ id j)
    (hinj : ∀ k, id k = id i → k = i)
    (hrun : Transition.run (step c h addr) (start id) as = some lan) :
    Delivered c h id addr i j as lan := by
  have hstart : Delivered c h id addr i j [] (start id) := ⟨rfl, by simp, rfl⟩
  exact Transition.run_induction (P := Delivered c h id addr i j)
    (fun _ _ _ _ hd hstep => hd.next hc hh hne hinj hstep) hstart hrun

/-- The receive buffer loses a signal or leaves it as it is. -/
theorem carried_take (hc : c.Lawful) (hh : h.Lawful) {own : UInt64} {datagram : Bytes} {dest : Addr}
    (hhonest : Honest c h id addr as i datagram dest) {s : Signal}
    (hs : carried c h own (datagram.take 4096) = some s) : carried c h own datagram = some s := by
  obtain ⟨packet, sender_id, hread, -⟩ := network_id_of_carried hs
  obtain ⟨rfl, hdata⟩ := hhonest.unmarshal_take hc hh hread
  rw [carried, hread] at hs
  rw [carried, unmarshal_marshal hc hh hdata]
  exact hs

/-- A signal with a text of at most 4031 bytes fits the receive buffer. -/
theorem take_of_carried (hc : c.Lawful) (hh : h.Lawful) (hne : id i ≠ id j) {datagram : Bytes}
    {dest : Addr} (hhonest : Honest c h id addr as i datagram dest) {s : Signal}
    (hs : carried c h (id j) datagram = some s) (hlen : (as_bytes s.to_string).length ≤ 4031) :
    datagram.take 4096 = datagram := by
  cases hhonest with
  | request hdata => exact take_of_marshal hh hdata (by decide)
  | response d app_data _ happ hdata =>
    rw [carried_of_response hc hh hdata] at hs
    cases hs
  | message s₀ k _ _ _ hdata =>
    rw [carried_of_marshal hc hh hne hdata] at hs
    obtain rfl := Option.some.inj (Option.ite_none_right_eq_some.1 hs).2
    refine take_of_marshal hh hdata ?_
    change (as_bytes s₀.to_string).length ≤ 4031 at hlen
    dsimp only [Packet.body_len]
    omega

/-- **A signal is published once** for each time it was sent, or less often, if no datagram is
delivered twice; in the order of the calls, if datagrams arrive in the order they were sent; and
exactly as it was sent, if all arrive and no text is too long. -/
theorem published_once (hc : c.Lawful) (hh : h.Lawful) (hne : id i ≠ id j)
    (hinj : ∀ k, id k = id i → k = i)
    (hrun : Transition.run (step c h addr) (start id) as = some lan) :
    ((as.filterMap (Action.brings i j)).Nodup → (published_from (lan j) (id i)).Subperm
        (Transition.trace (step c h addr) (sends c h i (id j)) (start id) as)) ∧
      ((as.filterMap (Action.brings i j)).Pairwise (· < ·) → (published_from (lan j) (id i)).Sublist
        (Transition.trace (step c h addr) (sends c h i (id j)) (start id) as)) ∧
      (as.filterMap (Action.brings i j) = List.range (lan i).sent.length →
        (∀ s ∈ Transition.trace (step c h addr) (sends c h i (id j)) (start id) as,
          (as_bytes s.to_string).length ≤ 4031) →
        published_from (lan j) (id i) =
          Transition.trace (step c h addr) (sends c h i (id j)) (start id) as) := by
  have hhonest := (sound_of_run hc hh hrun i).sent
  rw [(delivered_of_run hc hh hne hinj hrun).published, ← carried_of_run hc hh hne hrun]
  have hcut : ((lan i).sent.filterMap fun d => carried c h (id j) (d.1.take 4096)).Sublist
      ((lan i).sent.filterMap fun d => carried c h (id j) d.1) :=
    filterMap_sublist_filterMap fun d hd _ => carried_take hc hh (hhonest d.1 d.2 hd)
  refine ⟨fun hnodup => ?_, fun hsorted => ?_, fun hall hshort => ?_⟩
  · obtain ⟨l, hperm, hsub⟩ := pick_subperm (l := (lan i).sent) hnodup
    exact ⟨_, hperm.filterMap _, (hsub.filterMap _).trans hcut⟩
  · exact ((pick_sublist hsorted).filterMap _).trans hcut
  · rw [hall, pick_range]
    refine List.filterMap_congr fun d hd => ?_
    rcases hcarried : carried c h (id j) d.1 with _ | s
    · rcases htake : carried c h (id j) (d.1.take 4096) with _ | s
      · rfl
      · cases hcarried.symm.trans (carried_take hc hh (hhonest d.1 d.2 hd) htake)
    · have hlen := hshort s (List.mem_filterMap.2 ⟨d, hd, hcarried⟩)
      rw [take_of_carried hc hh hne (hhonest d.1 d.2 hd) hcarried hlen, hcarried]

/-- The server publishes the candidate of the client once. -/
theorem published_once_exchange : ∃ lan,
    Transition.run (step ofNetwork .lowercase addresses) (start ids) exchange = some lan ∧
      published_from (lan true) 7 = Transition.trace (step ofNetwork .lowercase addresses)
        (sends ofNetwork .lowercase false 9) (start ids) exchange := by
  obtain ⟨lan, hrun, -, -, -, hsent⟩ := run_exchange
  have hshort : ∀ s ∈ Transition.trace (step ofNetwork .lowercase addresses)
      (sends ofNetwork .lowercase false 9) (start ids) exchange,
      (as_bytes s.to_string).length ≤ 4031 := by
    decide +kernel
  refine ⟨lan, hrun, (published_once (i := false) (j := true) ofNetwork_lawful Hex.lowercase_lawful
    (by decide) (by decide) hrun).2.2 ?_ hshort⟩
  rw [hsent]
  rfl

end Runs

end Lan

end Nethernet
