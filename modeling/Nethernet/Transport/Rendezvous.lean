import Mathlib.Data.List.Perm.Basic
import Nethernet.Transport.Effect

/-!
# A dialer and a listener

The offer and the candidates of one `NethernetStream::connect` (`src/transport/stream.rs`) travel to
a listener. The dialer may signal candidates as soon as its local description is set, before the
offer too, and the network delivers signals in any order, each once. `candidates_handed_iff`: when
all have arrived and the listener has processed them, every candidate has been handed to the
connection exactly once if and only if the offer arrived first. A candidate that arrives before it
finds no dispatcher and is dropped.
-/

namespace Nethernet

open Foundations

namespace Listener

variable {from_str : String → Option RTCIceCandidateInit} {id : UInt64}

/-! ## One connection id at the listener -/

/-- No connection has the id, and none is being created. -/
structure Absent (s : Listener) (id : UInt64) : Prop where
  connections : ∀ (i : ℕ) (c : Connection), s.connections[i]? = some c → c.connection_id ≠ id
  creating : ∀ offer, s.loop = .new_peer_connection offer → offer.connection_id ≠ id

/-- The connection `k` alone has the id, and no other is being created. -/
structure Connected (s : Listener) (id : UInt64) (k : ℕ) (c : Connection) : Prop where
  connection : s.connections[k]? = some c
  connection_id : c.connection_id = id
  unique : ∀ (i : ℕ) (d : Connection), s.connections[i]? = some d → d.connection_id = id → i = k
  creating : ∀ offer, s.loop = .new_peer_connection offer → offer.connection_id ≠ id

/-- While it is open, the connection `k` has received the candidates `xs`, and is registered and
running once it is spawned. -/
def Holds (from_str : String → Option RTCIceCandidateInit) (s : Listener) (k : ℕ) (c : Connection)
    (xs : List RTCIceCandidateInit) : Prop :=
  ¬ c.lost_called → c.received from_str = xs ∧ (c.task ≠ .Unspawned →
    c.task.is_running ∧ s.signal_dispatchers c.connection_id = some k)

section Steps

variable {s s' : Listener} {a : Action} {k : ℕ} {c : Connection} {xs : List RTCIceCandidateInit}

/-- A connection that is replaced by one with its offer gets no other id. -/
theorem connection_id_ne_of_set {i : ℕ} {d d' : Connection}
    (hnot : ∀ (j : ℕ) (e : Connection), s.connections[j]? = some e → e.connection_id ≠ id)
    (hd : s.connections[i]? = some d) (hconn : s'.connections = s.connections.set i d')
    (hoffer : d'.offer = d.offer) {j : ℕ} {e : Connection} (he : s'.connections[j]? = some e) :
    e.connection_id ≠ id := by
  rw [hconn, getElem?_set_eq_some hd] at he
  rcases he with ⟨-, rfl⟩ | ⟨-, he⟩
  · rw [Connection.connection_id, hoffer]
    exact hnot i d hd
  · exact hnot j e he

theorem Absent.set (hs : s.Absent id) {i : ℕ} {d d' : Connection}
    (hd : s.connections[i]? = some d) (hconn : s'.connections = s.connections.set i d')
    (hoffer : d'.offer = d.offer)
    (hnew : ∀ offer, s'.loop = .new_peer_connection offer → s.loop = .new_peer_connection offer) :
    s'.Absent id where
  connections _ _ := connection_id_ne_of_set hs.connections hd hconn hoffer
  creating offer ho := hs.creating offer (hnew offer ho)

/-- **Without an offer for an id**, no connection gets it. -/
theorem Absent.step (hs : s.Absent id)
    (ha : ∀ offer, a = .signal offer → offer.signal_type = .Offer → offer.connection_id ≠ id)
    (h : step from_str s a = some s') : s'.Absent id := by
  cases step_effect h with
  | idle hconn hdisp hacc hreg hloop hnew =>
    refine ⟨fun i c hc => hs.connections i c (hconn ▸ hc), fun offer ho => ?_⟩
    rcases hnew offer ho with ho | ⟨rfl, htype⟩
    · exact hs.creating offer ho
    · exact ha offer rfl htype
  | evolve i c c' hc hev hconn hdisp hacc hreg hloop hnew => exact hs.set hc hconn hev.offer hnew
  | create offer hloop hconn hdisp hacc hloop' =>
    refine ⟨fun j d hd => ?_, fun offer ho => by cases hloop'.symm.trans ho⟩
    rw [hconn, getElem?_concat_eq_some] at hd
    rcases hd with hd | ⟨-, rfl⟩
    · exact hs.connections j d hd
    · exact hs.creating offer hloop
  | register i c ha hloop hc hconn hdisp hacc hloop' =>
    exact hs.set hc hconn rfl fun offer ho => by cases hloop'.symm.trans ho
  | accept i c hloop hc hconn hdisp hacc hloop' =>
    exact hs.set hc hconn rfl fun offer ho => by cases hloop'.symm.trans ho

/-- A connection that is created is the only one with its id, when no other has it. -/
theorem connected_of_create {offer : Signal}
    (hnot : ∀ (j : ℕ) (e : Connection), s.connections[j]? = some e → e.connection_id ≠ id)
    (hid : offer.connection_id = id)
    (hconn : s'.connections = s.connections ++ [Connection.new offer])
    (hloop : s'.loop = .insert_notifier s.connections.length) :
    s'.Connected id s.connections.length (Connection.new offer) := by
  refine ⟨?_, hid, fun j d hd heq => ?_, fun o ho => by cases hloop.symm.trans ho⟩
  · rw [hconn, getElem?_concat_eq_some]
    exact .inr ⟨rfl, rfl⟩
  · rw [hconn, getElem?_concat_eq_some] at hd
    rcases hd with hd | ⟨hj, -⟩
    · exact absurd heq (hnot j d hd)
    · exact hj

/-- The connection `k` after a step that replaces the connection `i`. -/
theorem Connected.set (h : s.Connected id k c) {i : ℕ} {d d' : Connection}
    (hd : s.connections[i]? = some d) (hconn : s'.connections = s.connections.set i d')
    (hoffer : d'.offer = d.offer)
    (hnew : ∀ offer, s'.loop = .new_peer_connection offer → s.loop = .new_peer_connection offer) :
    s'.Connected id k (if i = k then d' else c) := by
  have hid : d'.connection_id = d.connection_id := congrArg Signal.connection_id hoffer
  refine ⟨?_, ?_, fun j e he heq => ?_, fun offer ho => h.creating offer (hnew offer ho)⟩
  · rw [hconn, getElem?_set_eq_some hd]
    split
    · rename_i hik
      exact .inl ⟨hik, rfl⟩
    · rename_i hik
      exact .inr ⟨hik, h.connection⟩
  · split
    · rename_i hik
      subst hik
      obtain rfl := Option.some.inj (h.connection.symm.trans hd)
      exact hid.trans h.connection_id
    · exact h.connection_id
  · rw [hconn, getElem?_set_eq_some hd] at he
    rcases he with ⟨rfl, rfl⟩ | ⟨-, he⟩
    · exact h.unique i d hd (hid.symm.trans heq)
    · exact h.unique j e he heq

/-- The dispatcher of a connection that is open and running is removed by no step of its own, and
by no connection of another id. -/
theorem Connected.entry (h : s.Connected id k c) {i : ℕ} {d : Connection}
    (hd : s.connections[i]? = some d)
    (hdisp : s'.signal_dispatchers = s.signal_dispatchers ∨
      (s'.signal_dispatchers = Function.update s.signal_dispatchers d.connection_id none ∧
        (a = .clean_dispatchers i ∧ d.task = .CleanDispatchers ∨
          a = .handle i ∧ ∃ state ∈ d.pending, state.is_lost)))
    (hopen : ¬ c.lost_called) (hrunning : c.task.is_running)
    (hentry : s.signal_dispatchers c.connection_id = some k) :
    s'.signal_dispatchers c.connection_id = some k := by
  rcases hdisp with hdisp | ⟨hdisp, hremoves⟩
  · rw [hdisp, hentry]
  · rw [hdisp, Function.update_of_ne, hentry]
    intro heq
    obtain rfl := h.unique i d hd (heq.symm.trans h.connection_id)
    obtain rfl := Option.some.inj (h.connection.symm.trans hd)
    rcases hremoves with ⟨-, htask⟩ | ⟨-, state, hmem, hlost⟩
    · rw [htask] at hrunning
      cases hrunning
    · exact hopen ⟨state, List.mem_append_right _ hmem, hlost⟩

/-- What the connection `k` holds after a step that a connection takes on its own. -/
theorem Holds.evolve (hs : s.WellFormed) (h : s.Connected id k c) (hxs : s.Holds from_str k c xs)
    (ha : ∀ signal, a = .signal signal → signal.connection_id ≠ id) {i : ℕ} {d d' : Connection}
    (hd : s.connections[i]? = some d) (hev : Evolves from_str s a i d d')
    (hdisp : s'.signal_dispatchers = s.signal_dispatchers ∨
      (s'.signal_dispatchers = Function.update s.signal_dispatchers d.connection_id none ∧
        (a = .clean_dispatchers i ∧ d.task = .CleanDispatchers ∨
          a = .handle i ∧ ∃ state ∈ d.pending, state.is_lost))) :
    s'.Holds from_str k (if i = k then d' else c) xs := by
  intro hopen
  by_cases hik : i = k
  · subst hik
    obtain rfl := Option.some.inj (h.connection.symm.trans hd)
    rw [if_pos rfl] at hopen ⊢
    have hopen' : ¬ c.lost_called := fun hlost => hopen (hev.lost_called hlost)
    obtain ⟨hreceived, hrunning⟩ := hxs hopen'
    refine ⟨?_, fun hspawned => ?_⟩
    · rw [hev.received, hreceived]
      rintro signal rfl hentry
      obtain ⟨e, he, hid, -⟩ := hs.entry _ _ hentry
      obtain rfl := Option.some.inj (hd.symm.trans he)
      exact ha signal rfl (hid.symm.trans h.connection_id)
    · obtain ⟨hrun, hentry⟩ := hrunning fun htask => hspawned (hev.unspawned.2 htask)
      refine ⟨hev.running hrun hentry, ?_⟩
      rw [Connection.connection_id, hev.offer]
      exact h.entry hd hdisp hopen' hrun hentry
  · rw [if_neg hik] at hopen ⊢
    obtain ⟨hreceived, hrunning⟩ := hxs hopen
    refine ⟨hreceived, fun hspawned => ?_⟩
    obtain ⟨hrun, hentry⟩ := hrunning hspawned
    exact ⟨hrun, h.entry hd hdisp hopen hrun hentry⟩

/-- What the connection `k` holds after a connection is registered. -/
theorem Holds.register (h : s.Connected id k c) (hxs : s.Holds from_str k c xs) {i : ℕ}
    {d : Connection} (hd : s.connections[i]? = some d)
    (hdisp : s'.signal_dispatchers =
      Function.update s.signal_dispatchers d.connection_id (some i)) :
    s'.Holds from_str k (if i = k then { d with task := .Recv } else c) xs := by
  intro hopen
  by_cases hik : i = k
  · subst hik
    obtain rfl := Option.some.inj (h.connection.symm.trans hd)
    rw [if_pos rfl] at hopen ⊢
    refine ⟨(hxs hopen).1, fun _ => ⟨rfl, ?_⟩⟩
    rw [hdisp]
    exact Function.update_self ..
  · rw [if_neg hik] at hopen ⊢
    obtain ⟨hreceived, hrunning⟩ := hxs hopen
    refine ⟨hreceived, fun hspawned => ?_⟩
    obtain ⟨hrun, hentry⟩ := hrunning hspawned
    refine ⟨hrun, ?_⟩
    rw [hdisp, Function.update_of_ne, hentry]
    exact fun heq => hik (h.unique i d hd (heq.symm.trans h.connection_id))

/-- **The connection of an id** stays what it is while no signal for the id arrives. -/
theorem Connected.step (hs : s.WellFormed) (h : s.Connected id k c) (hxs : s.Holds from_str k c xs)
    (ha : ∀ signal, a = .signal signal → signal.connection_id ≠ id)
    (hstep : step from_str s a = some s') :
    ∃ c', s'.Connected id k c' ∧ s'.Holds from_str k c' xs := by
  cases step_effect hstep with
  | idle hconn hdisp hacc hreg hloop hnew =>
    refine ⟨c, ⟨hconn ▸ h.connection, h.connection_id, hconn ▸ h.unique, fun offer ho => ?_⟩,
      fun hopen => hdisp ▸ hxs hopen⟩
    rcases hnew offer ho with ho | ⟨rfl, -⟩
    · exact h.creating offer ho
    · exact ha offer rfl
  | evolve i d d' hd hev hconn hdisp hacc hreg hloop hnew =>
    exact ⟨_, h.set hd hconn hev.offer hnew, hxs.evolve hs h ha hd hev hdisp⟩
  | create offer hloop hconn hdisp hacc hloop' =>
    refine ⟨c, ⟨?_, h.connection_id, fun j e he heq => ?_,
      fun o ho => by cases hloop'.symm.trans ho⟩, fun hopen => hdisp ▸ hxs hopen⟩
    · rw [hconn, getElem?_concat_eq_some]
      exact .inl h.connection
    · rw [hconn, getElem?_concat_eq_some] at he
      rcases he with he | ⟨-, rfl⟩
      · exact h.unique j e he heq
      · exact absurd heq (h.creating offer hloop)
  | register i d ha' hloop hd hconn hdisp hacc hloop' =>
    exact ⟨_, h.set hd hconn rfl (fun o ho => by cases hloop'.symm.trans ho),
      hxs.register h hd hdisp⟩
  | accept i d hloop hd hconn hdisp hacc hloop' =>
    refine ⟨_, h.set hd hconn rfl (fun o ho => by cases hloop'.symm.trans ho), fun hopen => ?_⟩
    by_cases hik : i = k
    · subst hik
      obtain rfl := Option.some.inj (h.connection.symm.trans hd)
      rw [if_pos rfl] at hopen ⊢
      exact hdisp ▸ hxs hopen
    · rw [if_neg hik] at hopen ⊢
      exact hdisp ▸ hxs hopen

/-- **A candidate for the id** joins what its connection has received, if that is open. -/
theorem Connected.deliver (hs : s.WellFormed) (h : s.Connected id k c)
    (hxs : s.Holds from_str k c xs) {signal : Signal} (hid : signal.connection_id = id)
    (htype : signal.signal_type = .Candidate)
    (hstep : Listener.step from_str s (.signal signal) = some s') :
    ∃ c', s'.Connected id k c' ∧
      s'.Holds from_str k c' (xs ++ [candidate_init from_str signal.data]) := by
  simp only [Listener.step, on_signal] at hstep
  split at hstep
  · rename_i hloop
    rw [if_neg (by rw [htype]; decide)] at hstep
    obtain rfl := Option.some.inj hstep
    have hspawned : c.task ≠ .Unspawned :=
      hs.spawned h.connection (by simp [hloop, Loop.unregistered])
    rw [dispatch]
    rcases hentry : s.signal_dispatchers signal.connection_id with _ | i
    · refine ⟨c, h, fun hopen => ?_⟩
      obtain ⟨-, hrunning⟩ := hxs hopen
      rw [hid, ← h.connection_id, (hrunning hspawned).2] at hentry
      cases hentry
    · obtain ⟨e, he, heq, -⟩ := hs.entry _ _ hentry
      obtain rfl := h.unique i e he (heq.trans hid)
      simp only [h.connection]
      refine ⟨{ c with queue := c.queue ++ [signal] }, ?_, fun hopen => ?_⟩
      · have hput : (s.put i { c with queue := c.queue ++ [signal] }).connections =
            s.connections.set i { c with queue := c.queue ++ [signal] } := rfl
        have hset := h.set h.connection hput rfl fun _ ho => ho
        rwa [if_pos rfl] at hset
      · obtain ⟨hreceived, hrunning⟩ := hxs hopen
        refine ⟨?_, hrunning⟩
        rw [← hreceived]
        simp [Connection.received, List.filter_append, htype]
  · cases hstep

end Steps

end Listener

/-! ## The dialer and the network -/

/-- The part of a dialer that sends signals. `network_id` is its own, as the listener sees it. -/
structure Dialer where
  connection_id : UInt64
  network_id : String
  remote_network_id : String
  /-- The SDP of the local description, once it is set. -/
  local_description : Option String
  /-- The candidates signalled so far, and whether the offer is. -/
  gathered : List String
  offered : Bool

/-- A dialer, the signals on their way and those that have arrived, and a listener. -/
structure Network where
  dialer : Dialer
  in_flight : List Signal
  arrived : List Signal
  listener : Listener

namespace Network

/-- The steps of a dialer, the network and the listener. -/
inductive Action
  | set_local_description (sdp : String)
  | on_ice_candidate (candidate_json : String)
  | signal_offer
  | deliver (n : ℕ)
  | listen (action : Listener.Action)

/-- Before the dialer starts. -/
def start (connection_id : UInt64) (network_id remote_network_id : String) : Network where
  dialer := ⟨connection_id, network_id, remote_network_id, none, [], false⟩
  in_flight := []
  arrived := []
  listener := Listener.bind

/-- Send a signal; it will be received with the network id of the dialer. -/
def transmit (n : Network) (signal : Signal) : Network :=
  { n with in_flight := n.in_flight ++ [{ signal with network_id := n.dialer.network_id }] }

/-- The listener takes another step than to receive a signal for the dialer's connection. -/
def Foreign (connection_id : UInt64) : Listener.Action → Bool
  | .signal signal => signal.connection_id ≠ connection_id
  | _ => true

/-- One step. -/
def step (from_str : String → Option RTCIceCandidateInit) : Transition Network Action
  | n, .set_local_description sdp =>
    if n.dialer.local_description = none then
      some { n with dialer := { n.dialer with local_description := some sdp } }
    else none
  | n, .on_ice_candidate json =>
    match n.dialer.local_description with
    | none => none
    | some _ => some { n.transmit (Signal.candidate n.dialer.connection_id json
          n.dialer.remote_network_id) with
        dialer := { n.dialer with gathered := n.dialer.gathered ++ [json] } }
  | n, .signal_offer =>
    match n.dialer.local_description, n.dialer.offered with
    | some sdp, false => some { n.transmit (Signal.offer n.dialer.connection_id sdp
          n.dialer.remote_network_id) with
        dialer := { n.dialer with offered := true } }
    | _, _ => none
  | n, .deliver i => (n.in_flight[i]?).bind fun signal =>
    (n.listener.step from_str (.signal signal)).map fun listener => { n with
      in_flight := n.in_flight.eraseIdx i
      arrived := n.arrived ++ [signal]
      listener }
  | n, .listen action =>
    if Foreign n.dialer.connection_id action then
      (n.listener.step from_str action).map fun listener => { n with listener }
    else none

/-- What a step does. -/
inductive Effect (from_str : String → Option RTCIceCandidateInit) (n : Network) :
    Action → Network → Prop
  | located (sdp : String) (hnone : n.dialer.local_description = none) :
    Effect from_str n (.set_local_description sdp)
      { n with dialer := { n.dialer with local_description := some sdp } }
  | gathered (sdp json : String) (hsdp : n.dialer.local_description = some sdp) :
    Effect from_str n (.on_ice_candidate json)
      { n.transmit (Signal.candidate n.dialer.connection_id json n.dialer.remote_network_id) with
        dialer := { n.dialer with gathered := n.dialer.gathered ++ [json] } }
  | offered (sdp : String) (hsdp : n.dialer.local_description = some sdp)
    (hoffered : n.dialer.offered = false) :
    Effect from_str n .signal_offer
      { n.transmit (Signal.offer n.dialer.connection_id sdp n.dialer.remote_network_id) with
        dialer := { n.dialer with offered := true } }
  | delivered (i : ℕ) (signal : Signal) (listener : Listener)
    (hsignal : n.in_flight[i]? = some signal)
    (hstep : n.listener.step from_str (.signal signal) = some listener) :
    Effect from_str n (.deliver i) { n with
      in_flight := n.in_flight.eraseIdx i, arrived := n.arrived ++ [signal], listener }
  | listened (action : Listener.Action) (listener : Listener)
    (ha : Foreign n.dialer.connection_id action)
    (hstep : n.listener.step from_str action = some listener) :
    Effect from_str n (.listen action) { n with listener }

theorem effect_of_step {from_str : String → Option RTCIceCandidateInit} {n n' : Network}
    {a : Action} (h : step from_str n a = some n') : n.Effect from_str a n' := by
  cases a with
  | set_local_description sdp =>
    obtain ⟨hnone, h⟩ := Option.ite_none_right_eq_some.1 h
    exact Option.some.inj h ▸ .located sdp hnone
  | on_ice_candidate json =>
    simp only [step] at h
    split at h
    · cases h
    · rename_i sdp hsdp
      exact Option.some.inj h ▸ .gathered sdp json hsdp
  | signal_offer =>
    simp only [step] at h
    split at h
    · rename_i sdp hsdp hoffered
      exact Option.some.inj h ▸ .offered sdp hsdp hoffered
    · cases h
  | deliver i =>
    obtain ⟨signal, hsignal, h⟩ := Option.bind_eq_some_iff.1 h
    obtain ⟨listener, hstep, rfl⟩ := Option.map_eq_some_iff.1 h
    exact .delivered i signal listener hsignal hstep
  | listen action =>
    obtain ⟨ha, h⟩ := Option.ite_none_right_eq_some.1 h
    obtain ⟨listener, hstep, rfl⟩ := Option.map_eq_some_iff.1 h
    exact .listened action listener ha hstep

/-! ## What has been sent -/

/-- All signals of the dialer. -/
def signals (n : Network) : List Signal := n.arrived ++ n.in_flight

/-- The dialer has sent its candidates and at most one offer, all for its connection. -/
structure Posted (n : Network) : Prop where
  addressed : ∀ signal ∈ n.signals, signal.connection_id = n.dialer.connection_id ∧
    (signal.signal_type = .Candidate ∨ signal.signal_type = .Offer)
  offers : n.signals.countP (·.signal_type = .Offer) = if n.dialer.offered then 1 else 0
  candidates : ((n.signals.filter (·.signal_type = .Candidate)).map (·.data)).Perm n.dialer.gathered

variable {from_str : String → Option RTCIceCandidateInit} {n n' : Network}

/-- Delivering a signal moves it. -/
theorem signals_deliver {i : ℕ} {signal : Signal} (h : n.in_flight[i]? = some signal) :
    (n.arrived ++ [signal] ++ n.in_flight.eraseIdx i).Perm n.signals := by
  obtain ⟨hi, rfl⟩ := List.getElem?_eq_some_iff.1 h
  rw [List.append_assoc]
  exact (List.getElem_cons_eraseIdx_perm hi).append_left _

theorem Posted.of_perm (hn : n.Posted) (hdialer : n'.dialer = n.dialer)
    (hsignals : n'.signals.Perm n.signals) : n'.Posted where
  addressed signal hmem := hdialer ▸ hn.addressed signal (hsignals.mem_iff.1 hmem)
  offers := by rw [hsignals.countP_eq, hn.offers, hdialer]
  candidates := ((hsignals.filter _).map _).trans (hdialer ▸ hn.candidates)

/-- What the dialer sends is on its way after everything else. -/
theorem signals_transmit (n : Network) (signal : Signal) (dialer : Dialer) :
    ({ n.transmit signal with dialer := dialer } : Network).signals =
      n.signals ++ [{ signal with network_id := n.dialer.network_id }] :=
  (List.append_assoc ..).symm

theorem Posted.step {a : Action} (hn : n.Posted) (h : Network.step from_str n a = some n') :
    n'.Posted := by
  cases effect_of_step h with
  | located sdp hnone => exact ⟨hn.addressed, hn.offers, hn.candidates⟩
  | gathered sdp json hsdp =>
    refine ⟨fun signal hmem => ?_, ?_, ?_⟩
    · rw [signals_transmit, List.mem_append, List.mem_singleton] at hmem
      rcases hmem with hmem | rfl
      · exact hn.addressed signal hmem
      · exact ⟨rfl, .inl rfl⟩
    · rw [signals_transmit, List.countP_append]
      exact hn.offers
    · rw [signals_transmit, List.filter_append, List.map_append]
      exact hn.candidates.append_right [json]
  | offered sdp hsdp hoffered =>
    refine ⟨fun signal hmem => ?_, ?_, ?_⟩
    · rw [signals_transmit, List.mem_append, List.mem_singleton] at hmem
      rcases hmem with hmem | rfl
      · exact hn.addressed signal hmem
      · exact ⟨rfl, .inr rfl⟩
    · have hnone := hn.offers
      rw [hoffered, if_neg Bool.false_ne_true] at hnone
      rw [signals_transmit, List.countP_append]
      exact congrArg (· + 1) hnone
    · rw [signals_transmit, List.filter_append, List.map_append]
      exact (List.append_nil _).symm ▸ hn.candidates
  | delivered i signal listener hsignal hstep => exact hn.of_perm rfl (signals_deliver hsignal)
  | listened action listener ha hstep => exact ⟨hn.addressed, hn.offers, hn.candidates⟩

/-! ## What has arrived -/

open Listener in
/-- How far the listener is with the signals of an id that have arrived. -/
inductive Stage (from_str : String → Option RTCIceCandidateInit) (id : UInt64)
    (arrived : List Signal) (s : Listener) : Prop
  | before (hcand : ∀ signal ∈ arrived, signal.signal_type = .Candidate) (habsent : s.Absent id)
  | creating (pre : List Signal) (offer : Signal) (harr : arrived = pre ++ [offer])
      (hpre : ∀ signal ∈ pre, signal.signal_type = .Candidate) (htype : offer.signal_type = .Offer)
      (hid : offer.connection_id = id) (hloop : s.loop = .new_peer_connection offer)
      (hconn : ∀ (i : ℕ) (c : Connection), s.connections[i]? = some c → c.connection_id ≠ id)
  | refused (hoffer : ∃ offer ∈ arrived, offer.signal_type = .Offer) (habsent : s.Absent id)
  | connected (pre post : List Signal) (offer : Signal) (harr : arrived = pre ++ offer :: post)
      (hpre : ∀ signal ∈ pre, signal.signal_type = .Candidate) (htype : offer.signal_type = .Offer)
      (hpost : ∀ signal ∈ post, signal.signal_type = .Candidate) (k : ℕ) (c : Connection)
      (hc : s.Connected id k c)
      (hholds : s.Holds from_str k c (post.map (candidate_init from_str ·.data)))

section Stages

variable {id : UInt64} {arrived : List Signal} {s s' : Listener}

open Listener in
/-- A step that brings no signal for the id. -/
theorem Stage.listen (hs : s.WellFormed) (hstage : Stage from_str id arrived s)
    {a : Listener.Action} (ha : Foreign id a) (h : s.step from_str a = some s') :
    Stage from_str id arrived s' := by
  have hforeign : ∀ signal, a = .signal signal → signal.connection_id ≠ id := by
    rintro signal rfl
    exact of_decide_eq_true ha
  cases hstage with
  | before hcand habsent =>
    exact .before hcand (habsent.step (fun offer ho _ => hforeign offer ho) h)
  | refused hoffer habsent =>
    exact .refused hoffer (habsent.step (fun offer ho _ => hforeign offer ho) h)
  | connected pre post offer harr hpre htype hpost k c hc hholds =>
    obtain ⟨c', hc', hholds'⟩ := hc.step hs hholds hforeign h
    exact .connected pre post offer harr hpre htype hpost k c' hc' hholds'
  | creating pre offer harr hpre htype hid hloop hconn =>
    -- the listener still creates the connection, or has given it up
    have hrest : (∀ (i : ℕ) (c : Connection), s'.connections[i]? = some c → c.connection_id ≠ id) →
        (∀ o, s'.loop = .new_peer_connection o → s.loop = .new_peer_connection o) →
        Stage from_str id arrived s' := by
      intro hconn' hnew
      by_cases hloop' : s'.loop = .new_peer_connection offer
      · exact .creating pre offer harr hpre htype hid hloop' hconn'
      · refine .refused ⟨offer, by rw [harr]; simp, htype⟩ ⟨hconn', fun o ho => ?_⟩
        obtain rfl := Loop.new_peer_connection.inj (hloop.symm.trans (hnew o ho))
        exact absurd ho hloop'
    cases step_effect h with
    | idle hconn' hdisp hacc hreg hloop' hnew =>
      refine hrest (hconn' ▸ hconn) fun o ho => (hnew o ho).resolve_right ?_
      rintro ⟨rfl, -⟩
      simp [Listener.step, on_signal, hloop] at h
    | evolve i c c' hc hev hconn' hdisp hacc hreg hloop' hnew =>
      exact hrest (fun _ _ => connection_id_ne_of_set hconn hc hconn' hev.offer) hnew
    | create o hloop' hconn' hdisp hacc hnext =>
      obtain rfl := Loop.new_peer_connection.inj (hloop.symm.trans hloop')
      exact .connected pre [] offer harr hpre htype (List.forall_mem_nil _) s.connections.length
        (Connection.new offer) (connected_of_create hconn hid hconn' hnext)
        fun _ => ⟨rfl, fun hspawned => absurd rfl hspawned⟩
    | register i c ha' hloop' => cases hloop.symm.trans hloop'
    | accept i c hloop' => cases hloop.symm.trans hloop'

open Listener in
/-- A candidate for the id arrives. -/
theorem Stage.candidate (hs : s.WellFormed) (hstage : Stage from_str id arrived s)
    {signal : Signal} (hid : signal.connection_id = id) (htype : signal.signal_type = .Candidate)
    (h : s.step from_str (.signal signal) = some s') :
    Stage from_str id (arrived ++ [signal]) s' := by
  have hnot : ∀ offer, Listener.Action.signal signal = .signal offer → offer.signal_type = .Offer →
      offer.connection_id ≠ id := by
    rintro offer ho hoffer
    obtain rfl := Listener.Action.signal.inj ho
    cases htype.symm.trans hoffer
  cases hstage with
  | before hcand habsent =>
    refine .before (fun other hmem => ?_) (habsent.step hnot h)
    rcases List.mem_append.1 hmem with hmem | hmem
    · exact hcand other hmem
    · exact List.mem_singleton.1 hmem ▸ htype
  | refused hoffer habsent =>
    obtain ⟨offer, hmem, hoffer⟩ := hoffer
    exact .refused ⟨offer, List.mem_append_left _ hmem, hoffer⟩ (habsent.step hnot h)
  | creating pre offer harr hpre htype' hid' hloop =>
    simp [Listener.step, on_signal, hloop] at h
  | connected pre post offer harr hpre htype' hpost k c hc hholds =>
    obtain ⟨c', hc', hholds'⟩ := hc.deliver hs hholds hid htype h
    refine .connected pre (post ++ [signal]) offer (by rw [harr, List.append_assoc]; rfl) hpre
      htype' (fun other hmem => ?_) k c' hc' (by rw [List.map_append]; exact hholds')
    rcases List.mem_append.1 hmem with hmem | hmem
    · exact hpost other hmem
    · exact List.mem_singleton.1 hmem ▸ htype

open Listener in
/-- The offer for the id arrives. -/
theorem Stage.offer (hstage : Stage from_str id arrived s) {signal : Signal}
    (hid : signal.connection_id = id) (htype : signal.signal_type = .Offer)
    (honly : ∀ other ∈ arrived, other.signal_type ≠ .Offer)
    (h : s.step from_str (.signal signal) = some s') :
    Stage from_str id (arrived ++ [signal]) s' := by
  cases hstage with
  | before hcand habsent =>
    simp only [Listener.step, on_signal, if_pos htype] at h
    split at h
    · obtain rfl := Option.some.inj h
      exact .creating arrived signal rfl hcand htype hid rfl habsent.connections
    · cases h
  | refused hoffer =>
    obtain ⟨offer, hmem, hoffer⟩ := hoffer
    exact absurd hoffer (honly offer hmem)
  | creating pre offer harr hpre htype' =>
    exact absurd htype' (honly offer (by rw [harr]; simp))
  | connected pre post offer harr hpre htype' =>
    exact absurd htype' (honly offer (by rw [harr]; simp))

end Stages

/-- The invariant of a dialer, the network and a listener. -/
structure Inv (from_str : String → Option RTCIceCandidateInit) (n : Network) : Prop where
  wellFormed : n.listener.WellFormed
  posted : n.Posted
  stage : Stage from_str n.dialer.connection_id n.arrived n.listener

theorem inv_start (connection_id : UInt64) (network_id remote_network_id : String) :
    (start connection_id network_id remote_network_id).Inv from_str where
  wellFormed := Listener.wellFormed_bind
  posted := ⟨nofun, rfl, List.Perm.nil⟩
  stage := .before nofun ⟨fun i c hc => by simp [start, Listener.bind] at hc, nofun⟩

/-- An offer on its way is the only one. -/
theorem Posted.not_offer (hn : n.Posted) {i : ℕ} {signal : Signal}
    (hi : n.in_flight[i]? = some signal) (htype : signal.signal_type = .Offer) :
    ∀ other ∈ n.arrived, other.signal_type ≠ .Offer := by
  intro other hmem hother
  have hle : n.signals.countP (·.signal_type = .Offer) ≤ 1 := by
    rw [hn.offers]
    split <;> decide
  have harrived : 0 < n.arrived.countP (·.signal_type = .Offer) :=
    List.countP_pos_iff.2 ⟨other, hmem, decide_eq_true hother⟩
  have hflight : 0 < n.in_flight.countP (·.signal_type = .Offer) :=
    List.countP_pos_iff.2 ⟨signal, List.mem_of_getElem? hi, decide_eq_true htype⟩
  rw [signals, List.countP_append] at hle
  omega

/-- **A step keeps the invariant.** -/
theorem Inv.step {a : Action} (hn : n.Inv from_str) (h : Network.step from_str n a = some n') :
    n'.Inv from_str := by
  have hposted := hn.posted.step h
  cases effect_of_step h with
  | located | gathered | offered => exact ⟨hn.wellFormed, hposted, hn.stage⟩
  | delivered i signal listener hsignal hstep =>
    obtain ⟨hid, htype⟩ := hn.posted.addressed signal
      (List.mem_append_right _ (List.mem_of_getElem? hsignal))
    refine ⟨hn.wellFormed.step hstep, hposted, ?_⟩
    rcases htype with htype | htype
    · exact hn.stage.candidate hn.wellFormed hid htype hstep
    · exact hn.stage.offer hid htype (hn.posted.not_offer hsignal htype) hstep
  | listened action listener ha hstep =>
    exact ⟨hn.wellFormed.step hstep, hposted, hn.stage.listen hn.wellFormed ha hstep⟩

/-! ## The candidates that are handed over -/

/-- The candidates of a dialer. -/
def candidates (from_str : String → Option RTCIceCandidateInit) (n : Network) :
    List RTCIceCandidateInit :=
  n.dialer.gathered.map (candidate_init from_str)

/-- The candidates that have arrived before and after the offer are those of the dialer. -/
theorem Posted.candidates_perm (hn : n.Posted) (hdone : n.in_flight = []) {pre post : List Signal}
    {offer : Signal} (harr : n.arrived = pre ++ offer :: post)
    (hpre : ∀ signal ∈ pre, signal.signal_type = .Candidate) (htype : offer.signal_type = .Offer)
    (hpost : ∀ signal ∈ post, signal.signal_type = .Candidate) :
    ((pre ++ post).map (candidate_init from_str ·.data)).Perm (n.candidates from_str) := by
  have hfilter : n.signals.filter (·.signal_type = .Candidate) = pre ++ post := by
    rw [signals, hdone, List.append_nil, harr, List.filter_append, List.filter_cons, htype,
      List.filter_eq_self.2 fun signal hmem => decide_eq_true (hpre signal hmem),
      List.filter_eq_self.2 fun signal hmem => decide_eq_true (hpost signal hmem)]
    rfl
  have hperm := hn.candidates.map (candidate_init from_str)
  rw [hfilter, List.map_map] at hperm
  exact hperm

/-- **Candidates handed over**: when all signals have arrived and been processed, a connection that
has stayed open has been handed every candidate once exactly when the offer arrived first. -/
theorem candidates_handed_iff {connection_id : UInt64} {network_id remote_network_id : String}
    {as : List Action} (hrun : Transition.run (step from_str)
      (start connection_id network_id remote_network_id) as = some n)
    (hdone : n.in_flight = []) {k : ℕ} {c : Listener.Connection}
    (hc : n.listener.connections[k]? = some c) (hid : c.connection_id = n.dialer.connection_id)
    (hopen : ¬ c.lost_called) (hqueue : c.queue = []) :
    c.handed.Perm (n.candidates from_str) ↔
      n.arrived.head?.map (·.signal_type) = some .Offer := by
  have hn : n.Inv from_str := Transition.run_invariant (fun s a s' hs h => Inv.step hs h)
    (inv_start connection_id network_id remote_network_id) hrun
  cases hn.stage with
  | before hcand habsent => exact absurd hid (habsent.connections k c hc)
  | refused hoffer habsent => exact absurd hid (habsent.connections k c hc)
  | creating pre offer harr hpre htype hid' hloop hconn => exact absurd hid (hconn k c hc)
  | connected pre post offer harr hpre htype hpost j d hd hholds =>
    obtain rfl := hd.unique k c hc hid
    obtain rfl := Option.some.inj (hc.symm.trans hd.connection)
    have hhanded : c.handed = post.map (candidate_init from_str ·.data) := by
      have hreceived := (hholds hopen).1
      rwa [Listener.Connection.received, hqueue, List.filter_nil, List.map_nil,
        List.append_nil] at hreceived
    have hperm := @Posted.candidates_perm from_str n hn.posted hdone pre post offer harr hpre htype
      hpost
    rw [hhanded, harr]
    cases pre with
    | nil => exact iff_of_true hperm (congrArg some htype)
    | cons signal pre =>
      refine iff_of_false (fun h => ?_) fun h => ?_
      · have hlen := (h.trans hperm.symm).length_eq
        simp only [List.length_map, List.length_append, List.length_cons] at hlen
        omega
      · cases (hpre signal List.mem_cons_self).symm.trans (Option.some.inj h)

/-- The offer arrives before the only candidate. -/
def offer_first : List Action :=
  [.set_local_description "sdp", .signal_offer, .on_ice_candidate "c", .deliver 0] ++
    Listener.handling.map .listen ++
    [.deliver 0, .listen (.recv 0), .listen (.added 0 (.ok ())), .listen (.notify 0)]

/-- The only candidate arrives before the offer. -/
def candidate_first : List Action :=
  [.set_local_description "sdp", .on_ice_candidate "c", .signal_offer, .deliver 0, .deliver 0] ++
    Listener.handling.map .listen

/-- The candidate is handed over. -/
theorem candidates_handed_offer_first : ∃ n c,
    Transition.run (step fun _ => none) (start 5 "7" "9") offer_first = some n ∧
      n.listener.connections[0]? = some c ∧
      (c.handed.Perm (n.candidates fun _ => none) ↔
        n.arrived.head?.map (·.signal_type) = some .Offer) := by
  have htrace : (Transition.run (step fun _ => none) (start 5 "7" "9") offer_first).map (fun n =>
      (n.in_flight, n.dialer.connection_id, n.listener.connections[0]?.map fun c =>
        (c.connection_id, c.called, c.queue))) = some ([], 5, some (5, [], [])) := rfl
  obtain ⟨n, hrun, hn⟩ := Option.map_eq_some_iff.1 htrace
  simp only [Prod.mk.injEq, Option.map_eq_some_iff] at hn
  obtain ⟨hdone, hdialer, c, hc, hid, hcalled, hqueue⟩ := hn
  have hopen := Listener.Connection.not_lost_called hcalled
  exact ⟨n, c, hrun, hc, candidates_handed_iff hrun hdone hc (hid.trans hdialer.symm) hopen hqueue⟩

/-- A candidate is dropped, though the offer is handled and the connection stays open. -/
theorem candidate_dropped : ¬ ∀ (as : List Action) (n : Network) (k : ℕ) (c : Listener.Connection),
    Transition.run (step fun _ => none) (start 5 "7" "9") as = some n → n.in_flight = [] →
      k ∈ n.listener.accepted → n.listener.connections[k]? = some c →
      c.connection_id = n.dialer.connection_id → ¬ c.lost_called → c.queue = [] →
      c.handed.Perm (n.candidates fun _ => none) := by
  intro h
  have htrace : (Transition.run (step fun _ => none) (start 5 "7" "9") candidate_first).map
      (fun n => (n.in_flight, n.dialer.connection_id, n.listener.accepted,
        n.candidates fun _ => none, n.listener.connections[0]?.map fun c =>
          (c.connection_id, c.called, c.queue, c.handed))) =
      some ([], 5, [0], [⟨"c", none, none, none⟩], some (5, [], [], [])) := rfl
  obtain ⟨n, hrun, hn⟩ := Option.map_eq_some_iff.1 htrace
  simp only [Prod.mk.injEq, Option.map_eq_some_iff] at hn
  obtain ⟨hdone, hdialer, haccepted, hcandidates, c, hc, hid, hcalled, hqueue, hhanded⟩ := hn
  have hopen := Listener.Connection.not_lost_called hcalled
  have hperm := h _ n 0 c hrun hdone (by rw [haccepted]; exact List.mem_cons_self) hc
    (hid.trans hdialer.symm) hopen hqueue
  rw [hhanded, hcandidates] at hperm
  cases hperm.length_eq

end Network

end Nethernet
