import Nethernet.Foundations.Filter
import Nethernet.Transport.Connect
import Nethernet.Transport.Connection

/-!
# Signals of other connections

Signals are told apart by their connection ids. `Peer` is what a listener has to do with one id: the
connections with the id, in the order of their creation, the channel that is registered for it, and
where `handle_offer` is with an offer of it. `peer_of_run` says that this follows from the steps
that concern the id, whatever is signalled for others, and `answer_of_run` and `view_of_run` say
the same of a dialer. Nothing compares the network id of a signal.
-/

namespace Nethernet

open Foundations

namespace Listener

/-- The connection has the id. -/
def Connection.is_of (id : UInt64) (c : Connection) : Bool := c.connection_id = id

/-- The connection `i` has the id. -/
def is_of (id : UInt64) (connections : List Connection) (i : ℕ) : Bool :=
  connections[i]?.any (·.is_of id)

/-- The position of a connection among those with its id. -/
def rank_of (id : UInt64) (connections : List Connection) (i : ℕ) : ℕ :=
  rank (·.is_of id) connections i

/-- Where the signal handler is, if it is about an offer of the id; for others it seems to wait. -/
def Loop.seen (id : UInt64) (connections : List Connection) : Loop → Loop
  | .Waiting => .Waiting
  | .new_peer_connection offer =>
    if offer.connection_id = id then .new_peer_connection offer else .Waiting
  | .insert_notifier i =>
    if is_of id connections i then .insert_notifier (rank_of id connections i) else .Waiting
  | .insert_dispatcher i =>
    if is_of id connections i then .insert_dispatcher (rank_of id connections i) else .Waiting
  | .calling i call =>
    if is_of id connections i then .calling (rank_of id connections i) call else .Waiting
  | .set_handlers i =>
    if is_of id connections i then .set_handlers (rank_of id connections i) else .Waiting
  | .Stopped => .Stopped

/-- What a listener has to do with one id. -/
structure Peer where
  loop : Loop
  connections : List Connection
  /-- The connection whose channel is registered. -/
  registered : Option ℕ
  deriving DecidableEq, Repr

/-- What the listener has to do with the id. -/
def peer (s : Listener) (id : UInt64) : Peer where
  loop := s.loop.seen id s.connections
  connections := s.connections.filter (·.is_of id)
  registered := (s.signal_dispatchers id).map (rank_of id s.connections)

/-- The same step of another connection. -/
def Action.of (i : ℕ) : Action → Action
  | .recv _ => .recv i
  | .added _ result => .added i result
  | .notify _ => .notify i
  | .clean_dispatchers _ => .clean_dispatchers i
  | .clean_notifiers _ => .clean_notifiers i
  | .change _ state => .change i state
  | .handle _ => .handle i
  | a => a

/-- Does the signal handler work on an offer of the id? -/
def handles (id : UInt64) (s : Listener) : Bool :=
  match s.loop with
  | .new_peer_connection offer => offer.connection_id = id
  | loop => loop.connection.any (is_of id s.connections)

/-- The step, if it concerns the id: the arrival of its signals, the handling of its offers, and the
steps of its connections, in their own numbers. -/
def shown (id : UInt64) (s : Listener) (a : Action) : List Action :=
  match a with
  | .signal signal => if signal.connection_id = id then [a] else []
  | .stop => [a]
  | .call _ | .proceed => if s.handles id then [a] else []
  | .on_ice_candidate _ _ => []
  | a => a.index.toList.flatMap fun i =>
    if is_of id s.connections i then [a.of (rank_of id s.connections i)] else []

namespace Peer

/-- Before the first signal. -/
def new : Peer := ⟨.Waiting, [], none⟩

/-- A signal with the id arrives. -/
def signal (v : Peer) (signal : Signal) : Peer :=
  if signal.signal_type = .Offer then { v with loop := .new_peer_connection signal }
  else
    match v.registered with
    | none => v
    | some i => { v with
        connections := v.connections.modify i fun c => { c with queue := c.queue ++ [signal] } }

/-- A call of `handle_offer` returns. -/
def call (v : Peer) (result : Except NethernetError String) : Peer :=
  match v.loop, result with
  | .new_peer_connection _, .error _ | .calling _ _, .error _ => { v with loop := .Waiting }
  | .new_peer_connection offer, .ok _ => { v with
      loop := .insert_notifier v.connections.length
      connections := v.connections ++ [Connection.new offer] }
  | .calling i call, .ok text => { v with
      loop := call.next i
      connections := v.connections.modify i fun c => call.perform text c }
  | _, _ => v

/-- `handle_offer` takes a step that cannot fail. -/
def proceed (v : Peer) : Peer :=
  match v.loop with
  | .insert_notifier i => { v with loop := .insert_dispatcher i }
  | .insert_dispatcher i => { v with
      loop := .calling i .parse_offer
      connections := v.connections.modify i fun c => { c with task := .Recv }
      registered := some i }
  | .set_handlers i => { v with
      loop := .Waiting
      connections := v.connections.modify i fun c => { c with handler := true } }
  | _ => v

/-- A connection takes a step of its own. -/
def own (from_str : String → Option RTCIceCandidateInit) (v : Peer) (i : ℕ) (a : Action) : Peer :=
  match v.connections[i]? with
  | none => v
  | some c => { v with
      connections := v.connections.set i (c.act from_str (v.registered ≠ some i) a)
      registered := if c.removes_entry a then none else v.registered }

/-- What a step makes of it. -/
def act (from_str : String → Option RTCIceCandidateInit) (v : Peer) (a : Action) : Peer :=
  match a with
  | .signal s => v.signal s
  | .stop => { v with loop := .Stopped }
  | .call result => v.call result
  | .proceed => v.proceed
  | a => a.index.elim v fun i => v.own from_str i a

end Peer

variable {from_str : String → Option RTCIceCandidateInit} {id : UInt64}

/-! ## A connection is replaced -/

section Replace

variable {l : List Connection} {i : ℕ} {c d : Connection}

theorem is_of_eq (hc : l[i]? = some c) : is_of id l i = c.is_of id := by
  rw [is_of, hc]
  rfl

theorem Connection.is_of_congr (hoffer : d.offer = c.offer) : d.is_of id = c.is_of id := by
  rw [is_of, is_of, connection_id, connection_id, hoffer]

theorem is_of_set (hc : l[i]? = some c) (hoffer : d.offer = c.offer) (j : ℕ) :
    is_of id (l.set i d) j = is_of id l j := by
  by_cases hij : i = j
  · subst hij
    rw [is_of_eq hc, is_of_eq ((getElem?_set_eq_some hc).2 (.inl ⟨rfl, rfl⟩)),
      Connection.is_of_congr hoffer]
  · rw [is_of, is_of, List.getElem?_set_ne hij]

theorem rank_of_set (hc : l[i]? = some c) (hoffer : d.offer = c.offer) (j : ℕ) :
    rank_of id (l.set i d) j = rank_of id l j :=
  rank_set hc (Connection.is_of_congr hoffer) j

theorem seen_set (hc : l[i]? = some c) (hoffer : d.offer = c.offer) (loop : Loop) :
    loop.seen id (l.set i d) = loop.seen id l := by
  cases loop <;> simp only [Loop.seen, is_of_set hc hoffer, rank_of_set hc hoffer]

theorem filter_set (hc : l[i]? = some c) (hoffer : d.offer = c.offer) :
    (l.set i d).filter (·.is_of id) = if c.is_of id then
      (l.filter (·.is_of id)).set (rank_of id l i) d else l.filter (·.is_of id) := by
  have hsame : d.is_of id = c.is_of id := Connection.is_of_congr hoffer
  split
  · rename_i hown
    exact filter_set_of_pos hc hown (hsame.trans hown)
  · rename_i hforeign
    rw [Bool.not_eq_true] at hforeign
    exact filter_set_of_neg hc hforeign (hsame.trans hforeign)

/-- What the listener has to do with an id when a connection takes a step. -/
theorem peer_set {s s' : Listener} (hc : s.connections[i]? = some c) (hoffer : d.offer = c.offer)
    (hconn : s'.connections = s.connections.set i d) :
    s'.peer id = ⟨s'.loop.seen id s.connections,
      if c.is_of id then (s.peer id).connections.set (rank_of id s.connections i) d
        else (s.peer id).connections,
      (s'.signal_dispatchers id).map (rank_of id s.connections)⟩ := by
  rw [peer, hconn, seen_set hc hoffer, filter_set hc hoffer, funext (rank_of_set hc hoffer)]
  rfl

theorem peer_getElem? {s : Listener} (hc : s.connections[i]? = some c) (hown : c.is_of id = true) :
    (s.peer id).connections[rank_of id s.connections i]? = some c :=
  getElem?_filter_rank hc hown

/-- An own connection is replaced in either list. -/
theorem peer_modify {s : Listener} (hc : s.connections[i]? = some c) (hown : c.is_of id = true)
    (f : Connection → Connection) :
    (s.peer id).connections.modify (rank_of id s.connections i) f =
      (s.peer id).connections.set (rank_of id s.connections i) (f c) := by
  apply List.ext_getElem?
  intro j
  rw [List.getElem?_modify, List.getElem?_set]
  by_cases hij : rank_of id s.connections i = j
  · subst hij
    have hget := peer_getElem? hc hown
    rw [if_pos rfl, if_pos (List.getElem?_eq_some_iff.1 hget).1, hget]
    simp
  · simp [hij]

end Replace

/-! ## A step of the listener -/

section Steps

variable {s s' : Listener} {a : Action}

theorem WellFormed.is_of_entry (hs : s.WellFormed) {i : ℕ} (h : s.signal_dispatchers id = some i) :
    ∃ c, s.connections[i]? = some c ∧ c.is_of id = true := by
  obtain ⟨c, hc, hid, -⟩ := hs.entry id i h
  exact ⟨c, hc, decide_eq_true hid⟩

/-- The channel of a connection is the registered one in either numbering. -/
theorem registered_iff (hs : s.WellFormed) {i : ℕ} {c : Connection}
    (hc : s.connections[i]? = some c) (hown : c.is_of id = true) :
    (s.peer id).registered = some (rank_of id s.connections i) ↔
      s.signal_dispatchers id = some i := by
  rw [peer, Option.map_eq_some_iff]
  constructor
  · rintro ⟨j, hj, hrank⟩
    obtain ⟨d, hd, hown'⟩ := hs.is_of_entry hj
    rw [hj, (rank_inj hd hown' hc hown).1 hrank]
  · exact fun h => ⟨i, h, rfl⟩

theorem Connection.act_of (closed : Bool) (c : Connection) (a : Action) (i : ℕ) :
    c.act from_str closed (a.of i) = c.act from_str closed a := by
  cases a with
  | added j result => cases result <;> rfl
  | _ => rfl

theorem Connection.removes_entry_of (c : Connection) (a : Action) (i : ℕ) :
    c.removes_entry (a.of i) = c.removes_entry a := by
  cases a <;> rfl

theorem peer_index (hs : s.WellFormed) {i : ℕ} (ha : a.index = some i)
    (h : step from_str s a = some s') :
    s'.peer id = (shown id s a).foldl (Peer.act from_str) (s.peer id) := by
  obtain ⟨c, hc, hconn, hdisp, hloop, -⟩ := step_of_index ha h
  have hshown : shown id s a =
      if c.is_of id then [a.of (rank_of id s.connections i)] else [] := by
    cases a <;> cases ha <;> simp [shown, Action.index, is_of_eq hc]
  have hact : ∀ v : Peer, v.act from_str (a.of (rank_of id s.connections i)) =
      v.own from_str (rank_of id s.connections i) (a.of (rank_of id s.connections i)) := by
    intro v
    cases a <;> first | rfl | cases ha
  rw [peer_set hc (Connection.offer_act a) hconn, hshown, hloop, hdisp]
  by_cases hown : c.is_of id = true
  · have hid : c.connection_id = id := of_decide_eq_true hown
    have hclosed : decide ((s.peer id).registered ≠ some (rank_of id s.connections i)) =
        decide (s.signal_dispatchers c.connection_id ≠ some i) := by
      rw [hid]
      exact decide_eq_decide.2 (not_congr (registered_iff hs hc hown))
    -- the connection is at its rank, and takes the same step there
    rw [if_pos hown, if_pos hown, List.foldl_cons, List.foldl_nil, hact, Peer.own,
      peer_getElem? hc hown]
    dsimp only
    rw [Connection.act_of, Connection.removes_entry_of, hclosed]
    split
    · rw [hid, Function.update_self]
      rfl
    · rfl
  · rw [if_neg hown, if_neg hown, List.foldl_nil]
    have hid : id ≠ c.connection_id := fun h => hown (decide_eq_true h.symm)
    split
    · rw [Function.update_of_ne hid]
      rfl
    · rfl

/-- A signal that is no offer goes to the registered connection. -/
theorem peer_dispatch {signal : Signal} (hs : s.WellFormed)
    (htype : ¬ signal.signal_type = .Offer) : (s.dispatch signal).peer id =
      if signal.connection_id = id then (s.peer id).signal signal else s.peer id := by
  rw [Peer.signal, if_neg htype]
  rcases hentry : s.signal_dispatchers signal.connection_id with _ | i
  · have hdispatch : s.dispatch signal = s := by simp only [dispatch, hentry]
    rw [hdispatch]
    split
    · rename_i hid
      have hnone : (s.peer id).registered = none := by rw [peer, ← hid, hentry]; rfl
      rw [hnone]
    · rfl
  · obtain ⟨c, hc, hown⟩ := hs.is_of_entry hentry
    have hdispatch : s.dispatch signal = s.put i { c with queue := c.queue ++ [signal] } := by
      simp only [dispatch, hentry, hc]
    have hid : c.connection_id = signal.connection_id := of_decide_eq_true hown
    rw [hdispatch, peer_set (d := { c with queue := c.queue ++ [signal] }) hc rfl rfl]
    split <;> rename_i hof
    · have hsame : signal.connection_id = id := hid.symm.trans (of_decide_eq_true hof)
      have hregistered : (s.peer id).registered = some (rank_of id s.connections i) :=
        (registered_iff hs hc hof).2 (hsame ▸ hentry)
      rw [if_pos hsame, hregistered]
      dsimp only
      rw [peer_modify hc hof, ← hregistered]
      rfl
    · rw [if_neg fun hsame : signal.connection_id = id => hof (hsame ▸ hown)]
      rfl

theorem peer_signal {signal : Signal} (hs : s.WellFormed) (h : s.on_signal signal = some s') :
    s'.peer id = (shown id s (.signal signal)).foldl (Peer.act from_str) (s.peer id) := by
  have hshown : (shown id s (.signal signal)).foldl (Peer.act from_str) (s.peer id) =
      if signal.connection_id = id then (s.peer id).signal signal else s.peer id := by
    by_cases hid : signal.connection_id = id <;> simp [shown, hid, Peer.act]
  rw [hshown]
  obtain ⟨hloop, h⟩ := Option.ite_none_right_eq_some.1 h
  split at h <;> rename_i htype <;> obtain rfl := Option.some.inj h
  · -- an offer of another id looks like waiting
    by_cases hid : signal.connection_id = id
    · simp [hid, Peer.signal, htype, peer, Loop.seen]
    · simp [hid, peer, Loop.seen, hloop]
  · exact peer_dispatch hs htype

/-- What the listener has to do with an id when it creates a connection. -/
theorem peer_append (hs : s.WellFormed) (offer : Signal) :
    peer { s with
      loop := .insert_notifier s.connections.length
      connections := s.connections ++ [Connection.new offer] } id =
    if offer.connection_id = id then { s.peer id with
      loop := .insert_notifier (s.peer id).connections.length
      connections := (s.peer id).connections ++ [Connection.new offer] }
    else { s.peer id with loop := .Waiting } := by
  have hregistered : (s.signal_dispatchers id).map
      (rank_of id (s.connections ++ [Connection.new offer])) = (s.peer id).registered := by
    rw [peer]
    refine Option.map_congr fun i hi => ?_
    obtain ⟨c, hc, -⟩ := hs.is_of_entry hi
    exact rank_append (Nat.le_of_lt (List.getElem?_eq_some_iff.1 hc).1) _
  have hlast : is_of id (s.connections ++ [Connection.new offer]) s.connections.length =
      (Connection.new offer).is_of id := is_of_eq List.getElem?_concat_length
  have hrank : rank_of id (s.connections ++ [Connection.new offer]) s.connections.length =
      (s.peer id).connections.length := (rank_append (Nat.le_refl _) _).trans rank_length
  rw [peer, hregistered, List.filter_append, Loop.seen, hlast, hrank]
  by_cases hown : offer.connection_id = id
  · have hof : (Connection.new offer).is_of id = true := decide_eq_true hown
    rw [if_pos hown, if_pos hof, List.filter_cons_of_pos hof]
    rfl
  · have hof : ¬(Connection.new offer).is_of id = true := fun h => hown (of_decide_eq_true h)
    rw [if_neg hown, if_neg hof, List.filter_cons_of_neg hof, List.filter_nil, List.append_nil]
    rfl

theorem is_of_connection {i : ℕ} (hloop : s.loop.connection = some i) :
    s.handles id = is_of id s.connections i := by
  unfold handles
  split
  · rename_i offer heq
    rw [heq] at hloop
    cases hloop
  · rw [hloop]
    rfl

theorem peer_call {result : Except NethernetError String} (hs : s.WellFormed)
    (h : s.on_call result = some s') :
    s'.peer id = (shown id s (.call result)).foldl (Peer.act from_str) (s.peer id) := by
  have hshown : (shown id s (.call result)).foldl (Peer.act from_str) (s.peer id) =
      if s.handles id then (s.peer id).call result else s.peer id := by
    by_cases hown : s.handles id = true <;> simp [shown, hown, Peer.act]
  rw [hshown]
  unfold on_call at h
  split at h
  · rename_i offer hloop
    have hhandles : s.handles id = decide (offer.connection_id = id) := by rw [handles, hloop]
    rcases result with e | text
    · obtain rfl := Option.some.inj h
      rw [hhandles]
      split <;> rename_i hown <;> simp_all [Peer.call, peer, Loop.seen, returns]
    · obtain rfl := Option.some.inj h
      rw [peer_append hs, hhandles]
      split <;> rename_i hown
      · simp [Peer.call, peer, Loop.seen, hloop, hown]
      · simp [peer, Loop.seen, hloop, hown]
  · rename_i i call hloop
    have hhandles : s.handles id = is_of id s.connections i :=
      is_of_connection (by rw [hloop]; rfl)
    split at h
    · cases h
    · rename_i c e hc
      obtain rfl := Option.some.inj h
      rw [hhandles, is_of_eq hc]
      split <;> rename_i hown <;>
        simp_all [Peer.call, peer, Loop.seen, returns, is_of_eq hc]
    · rename_i c text hc
      obtain rfl := Option.some.inj h
      have hoffer : (call.perform text c).offer = c.offer := by cases call <;> rfl
      rw [hhandles, is_of_eq hc, peer_set hc hoffer rfl]
      split <;> rename_i hown
      · have hloop' : (s.peer id).loop = .calling (rank_of id s.connections i) call := by
          simp [peer, hloop, Loop.seen, is_of_eq hc, hown]
        unfold Peer.call
        rw [hloop']
        dsimp only
        rw [peer_modify hc hown]
        cases call <;> simp [Call.next, Loop.seen, is_of_eq hc, hown, peer, put]
      · cases call <;> simp [Call.next, Loop.seen, is_of_eq hc, hown, peer, put, hloop]
  · cases h

theorem peer_proceed (h : s.proceed = some s') :
    s'.peer id = (shown id s .proceed).foldl (Peer.act from_str) (s.peer id) := by
  have hshown : (shown id s .proceed).foldl (Peer.act from_str) (s.peer id) =
      if s.handles id then (s.peer id).proceed else s.peer id := by
    by_cases hown : s.handles id = true <;> simp [shown, hown, Peer.act]
  rw [hshown]
  unfold Listener.proceed at h
  split at h
  · rename_i i hloop
    obtain ⟨c, hc, rfl⟩ := Option.map_eq_some_iff.1 h
    rw [is_of_connection (i := i) (by rw [hloop]; rfl), is_of_eq hc]
    split <;> rename_i hown <;> simp [Peer.proceed, peer, hloop, Loop.seen, is_of_eq hc, hown]
  · rename_i i hloop
    obtain ⟨c, hc, rfl⟩ := Option.map_eq_some_iff.1 h
    rw [is_of_connection (i := i) (by rw [hloop]; rfl), is_of_eq hc,
      peer_set (d := { c with task := .Recv }) hc rfl rfl]
    split <;> rename_i hown
    · have hid : c.connection_id = id := of_decide_eq_true hown
      have hloop' : (s.peer id).loop = .insert_dispatcher (rank_of id s.connections i) := by
        simp [peer, hloop, Loop.seen, is_of_eq hc, hown]
      rw [Peer.proceed, hloop']
      dsimp only
      rw [peer_modify hc hown, hid, Function.update_self, Loop.seen, is_of_eq hc, if_pos hown]
      rfl
    · have hid : id ≠ c.connection_id := fun h => hown (decide_eq_true h.symm)
      simp [Loop.seen, is_of_eq hc, hown, peer, hloop, Function.update_of_ne hid]
  · rename_i i hloop
    obtain ⟨c, hc, rfl⟩ := Option.map_eq_some_iff.1 h
    rw [is_of_connection (i := i) (by rw [hloop]; rfl), is_of_eq hc,
      peer_set (d := { c with handler := true }) hc rfl rfl]
    split <;> rename_i hown
    · have hloop' : (s.peer id).loop = .set_handlers (rank_of id s.connections i) := by
        simp [peer, hloop, Loop.seen, is_of_eq hc, hown]
      rw [Peer.proceed, hloop']
      dsimp only
      rw [peer_modify hc hown]
      rfl
    · simp [returns, put, Loop.seen, is_of_eq hc, hown, peer, hloop]
  · cases h

/-- **What a step does for an id** follows from what it shows of it. -/
theorem peer_step (hs : s.WellFormed) (h : step from_str s a = some s') :
    s'.peer id = (shown id s a).foldl (Peer.act from_str) (s.peer id) := by
  rcases hindex : a.index with _ | i
  · cases a with
    | signal signal => exact peer_signal hs h
    | stop =>
      obtain ⟨-, h⟩ := Option.ite_none_right_eq_some.1 h
      obtain rfl := Option.some.inj h
      rfl
    | call result => exact peer_call hs h
    | proceed => exact peer_proceed h
    | on_ice_candidate i json =>
      obtain ⟨c, hc, rfl⟩ := Option.map_eq_some_iff.1 h
      rfl
    | _ => cases hindex
  · exact peer_index hs hindex h

end Steps

/-- **What a listener does for an id** follows from what it takes and does of it. -/
theorem peer_of_run {as : List Action} {s : Listener}
    (h : Transition.run (step from_str) bind as = some s) :
    s.peer id = (Transition.trace (step from_str) (shown id) bind as).foldl (Peer.act from_str)
      Peer.new :=
  Transition.run_view (fun _ _ _ hs hstep => ⟨hs.step hstep, peer_step hs hstep⟩) wellFormed_bind h

end Listener

namespace Connect

variable {from_str : String → Option RTCIceCandidateInit}

/-! ## A step of the dialer -/

/-- The step, unless it only takes a signal of another connection. -/
def shown (s : Connect) (a : Action) : List Action :=
  match a with
  | .next (some signal) | .task_next (some signal) =>
    if signal.connection_id = s.connection_id then [a] else []
  | a => [a]

/-- All but the signals taken. -/
def view (s : Connect) : Connect := { s with taken := [] }

variable (from_str) in
/-- What a step makes of it. -/
def act (s : Connect) (a : Action) : Connect := ((step from_str s a).getD s).view

theorem view_phase (s : Connect) : s.view.phase = s.phase := rfl

theorem view_task (s : Connect) : s.view.task = s.task := rfl

theorem view_connection_id (s : Connect) : s.view.connection_id = s.connection_id := rfl

theorem next_view (s : Connect) (signal_opt : Option Signal) :
    (s.view.next from_str signal_opt).map view = (s.next from_str signal_opt).map view := by
  unfold next
  by_cases hwaiting : s.phase = .Waiting
  · rw [view_phase, if_pos hwaiting, if_pos hwaiting]
    rcases signal_opt with _ | signal
    · rfl
    · dsimp only [Option.map_some]
      unfold wait
      by_cases hid : signal.connection_id = s.connection_id
      · rw [view_connection_id, if_pos hid, if_pos hid]
        cases signal.signal_type <;> rfl
      · rw [view_connection_id, if_neg hid, if_neg hid]
        rfl
  · rw [view_phase, if_neg hwaiting, if_neg hwaiting]

theorem task_next_view (s : Connect) (signal_opt : Option Signal) :
    (s.view.task_next from_str signal_opt).map view =
      (s.task_next from_str signal_opt).map view := by
  unfold task_next
  by_cases hrecv : s.task = .Recv
  · rw [view_task, if_pos hrecv, if_pos hrecv]
    rcases signal_opt with _ | signal
    · rfl
    · dsimp only [Option.map_some]
      unfold handle
      by_cases hid : signal.connection_id = s.connection_id ∧ signal.signal_type = .Candidate
      · rw [view_connection_id, if_pos hid, if_pos hid]
        rfl
      · rw [view_connection_id, if_neg hid, if_neg hid]
        rfl
  · rw [view_task, if_neg hrecv, if_neg hrecv]

variable (from_str) in
/-- The signals taken decide no step. -/
theorem step_view (s : Connect) (a : Action) :
    (step from_str s.view a).map view = (step from_str s a).map view := by
  cases a with
  | next signal_opt => exact s.next_view signal_opt
  | call result =>
    change (s.view.on_call result).map view = (s.on_call result).map view
    unfold on_call
    rcases hphase : s.phase with _ | call | _ | _ | _ <;> simp only [view, hphase]
    cases result <;> rfl
  | apply =>
    change s.view.apply.map view = s.apply.map view
    unfold apply
    by_cases happlying : s.phase = .Applying
    · rw [view_phase, if_pos happlying, if_pos happlying]
      rcases hpending : s.pending_candidates with _ | ⟨candidate_init, pending_candidates⟩ <;>
        simp only [view, hpending] <;> rfl
    · rw [view_phase, if_neg happlying, if_neg happlying]
  | applied result => by_cases hadding : s.phase = .Adding <;> simp [step, view, hadding]
  | task_next signal_opt => exact s.task_next_view signal_opt
  | task_added result => by_cases hadding : s.task = .Adding <;> simp [step, view, hadding]
  | task_cancelled => by_cases hend : s.task = .Recv ∧ s.cancelled <;> simp [step, view, hend]

theorem wait_of_ne (s : Connect) {signal : Signal} (h : signal.connection_id ≠ s.connection_id) :
    s.wait from_str signal = s := by
  rw [wait, if_neg h]

theorem handle_of_ne (s : Connect) {signal : Signal} (h : signal.connection_id ≠ s.connection_id) :
    s.handle from_str signal = s := by
  rw [handle, if_neg fun hid => h hid.1]

theorem view_step {s s' : Connect} {a : Action} (h : step from_str s a = some s') :
    s'.view = (shown s a).foldl (act from_str) s.view := by
  have hact : act from_str s.view a = s'.view := by
    have hview := step_view from_str s a
    rw [h] at hview
    obtain ⟨t, ht, heq⟩ := Option.map_eq_some_iff.1 hview
    rw [act, ht]
    exact heq
  unfold shown
  split
  · rename_i signal
    split <;> rename_i hid
    · exact hact.symm
    · obtain ⟨-, h⟩ := Option.ite_none_right_eq_some.1 h
      obtain rfl := Option.some.inj h
      rw [wait_of_ne s hid]
      rfl
  · rename_i signal
    split <;> rename_i hid
    · exact hact.symm
    · obtain ⟨-, h⟩ := Option.ite_none_right_eq_some.1 h
      obtain rfl := Option.some.inj h
      rw [handle_of_ne s hid]
      rfl
  · exact hact.symm

/-- **What a dialer does** follows from its own signals and steps. -/
theorem view_of_run {s t : Connect} {as : List Action}
    (h : Transition.run (step from_str) s as = some t) :
    t.view = (Transition.trace (step from_str) shown s as).foldl (act from_str) s.view :=
  Transition.run_view (P := fun _ => True) (fun _ _ _ _ hstep => ⟨trivial, view_step hstep⟩)
    trivial h

/-! ## The answer -/

/-- The first answer for a connection among some signals. -/
def answer_of (connection_id : UInt64) (signals : List Signal) : Option String :=
  (signals.find? fun signal =>
    signal.connection_id = connection_id ∧ signal.signal_type = .Answer).map (·.data)

theorem answer_of_concat (id : UInt64) (signals : List Signal) (signal : Signal) :
    answer_of id (signals ++ [signal]) = (answer_of id signals).or
      (if signal.connection_id = id ∧ signal.signal_type = .Answer then some signal.data
        else none) := by
  rw [answer_of, List.find?_append, Option.map_or, answer_of, List.find?_singleton]
  by_cases h : signal.connection_id = id ∧ signal.signal_type = .Answer
  · rw [if_pos h, if_pos (decide_eq_true h)]
    rfl
  · rw [if_neg h, if_neg fun hp => h (of_decide_eq_true hp)]
    rfl

/-- The answer adopted is the first one taken, and without one nothing is called. -/
structure Adopts (s : Connect) : Prop where
  first : s.answer = answer_of s.connection_id s.taken
  waiting : s.phase = .Waiting → s.answer = none
  idle : s.answer = none →
    s.task = .Unspawned ∧ (s.phase = .Waiting ∨ ∃ result, s.phase = .Returned result)

theorem adopts_start (connection_id : UInt64) (remote_network_id : String) :
    (start connection_id remote_network_id).Adopts :=
  ⟨rfl, fun _ => rfl, fun _ => ⟨rfl, .inl rfl⟩⟩

/-- Once `connect` does anything but wait, it has an answer. -/
theorem Adopts.ne_none {s : Connect} (hs : s.Adopts)
    (h : s.phase ≠ .Waiting ∧ (∀ result, s.phase ≠ .Returned result) ∨ s.task ≠ .Unspawned) :
    s.answer ≠ none := by
  intro hnone
  obtain ⟨htask, hphase⟩ := hs.idle hnone
  rcases h with ⟨hwaiting, hreturned⟩ | hspawned
  · rcases hphase with hphase | ⟨result, hphase⟩
    · exact hwaiting hphase
    · exact hreturned result hphase
  · exact hspawned htask

theorem Adopts.concat {s : Connect} (hs : s.Adopts) (signal : Signal) :
    answer_of s.connection_id (s.taken ++ [signal]) = s.answer.or
      (if signal.connection_id = s.connection_id ∧ signal.signal_type = .Answer then
        some signal.data else none) := by
  rw [answer_of_concat, hs.first]

/-- An answer that has been adopted stays the first. -/
theorem Adopts.concat_of_ne_none {s : Connect} (hs : s.Adopts) (h : s.answer ≠ none)
    (signal : Signal) : s.answer = answer_of s.connection_id (s.taken ++ [signal]) := by
  obtain ⟨data, hdata⟩ := Option.ne_none_iff_exists'.1 h
  rw [hs.concat, hdata, Option.some_or]

theorem Adopts.step {s s' : Connect} {a : Action} (hs : s.Adopts)
    (h : step from_str s a = some s') : s'.Adopts := by
  cases step_effect h with
  | answered signal hphase hid htype =>
    refine ⟨?_, nofun, nofun⟩
    rw [hs.concat, hs.waiting hphase, Option.none_or, if_pos ⟨hid, htype⟩]
  | buffered signal hphase hid htype =>
    refine ⟨?_, hs.waiting, hs.idle⟩
    rw [hs.concat, hs.waiting hphase, Option.none_or, if_neg (by simp [htype])]
  | passed signal hphase hother =>
    refine ⟨?_, hs.waiting, hs.idle⟩
    rw [hs.concat, hs.waiting hphase, Option.none_or,
      if_neg fun hown => (hother hown.1).1 hown.2]
  | ended hphase =>
    exact ⟨hs.first, nofun, fun hnone => ⟨(hs.idle hnone).1, .inr ⟨_, rfl⟩⟩⟩
  | failed call e hphase =>
    exact ⟨hs.first, nofun, fun hnone => ⟨(hs.idle hnone).1, .inr ⟨_, rfl⟩⟩⟩
  | succeeded call hphase =>
    have hsome := hs.ne_none (.inl (by simp [hphase]))
    refine ⟨hs.first, fun hwaiting => ?_, fun hnone => absurd hnone hsome⟩
    cases call <;> cases hwaiting
  | applying candidate_init pending_candidates hphase =>
    have hsome := hs.ne_none (.inl (by simp [hphase]))
    exact ⟨hs.first, nofun, fun hnone => absurd hnone hsome⟩
  | spawned hphase =>
    have hsome := hs.ne_none (.inl (by simp [hphase]))
    exact ⟨hs.first, nofun, fun hnone => absurd hnone hsome⟩
  | applied result hphase =>
    have hsome := hs.ne_none (.inl (by simp [hphase]))
    exact ⟨hs.first, nofun, fun hnone => absurd hnone hsome⟩
  | handed signal htask | skipped signal htask =>
    have hsome := hs.ne_none (.inr (by simp [htask]))
    exact ⟨hs.concat_of_ne_none hsome signal, hs.waiting, fun hnone => absurd hnone hsome⟩
  | task_ended htask | task_added _ htask | task_cancelled htask =>
    have hsome := hs.ne_none (.inr (by simp [htask]))
    exact ⟨hs.first, hs.waiting, fun hnone => absurd hnone hsome⟩

/-- **The answer of a dialer** is the first one for its connection. -/
theorem answer_of_run {connection_id : UInt64} {remote_network_id : String} {as : List Action}
    {s : Connect} (h : Transition.run (Connect.step from_str)
      (start connection_id remote_network_id) as = some s) :
    s.answer = answer_of s.connection_id s.taken :=
  (Transition.run_invariant (fun _ _ _ hs hstep => hs.step hstep) (adopts_start _ _) h).first

theorem answer_of_filter (id : UInt64) (signals : List Signal) :
    answer_of id (signals.filter (·.connection_id = id)) = answer_of id signals := by
  rw [answer_of, List.find?_filter, answer_of]
  simp only [decide_eq_true_eq, and_self_left]

theorem candidates_of_filter (id : UInt64) (signals : List Signal) :
    candidates_of from_str id (signals.filter (·.connection_id = id)) =
      candidates_of from_str id signals := by
  rw [candidates_of, List.filter_filter, candidates_of]
  simp only [Bool.decide_and, Bool.and_right_comm, Bool.and_self]

theorem connection_id_step {s s' : Connect} {a : Action} (h : step from_str s a = some s') :
    s'.connection_id = s.connection_id := by
  cases step_effect h <;> rfl

theorem connection_id_of_run {connection_id : UInt64} {remote_network_id : String}
    {as : List Action} {s : Connect} (h : Transition.run (Connect.step from_str)
      (start connection_id remote_network_id) as = some s) : s.connection_id = connection_id :=
  Transition.run_invariant (P := fun s => s.connection_id = connection_id)
    (fun _ _ _ hs hstep => (connection_id_step hstep).trans hs) rfl h

end Connect

/-- **Signals of other connections do not interfere.** The answer of a dialer and the candidates it
has handed over and kept back follow from the signals with its connection id. In two runs that
differ in other signals only, it hands over the same candidates, and a listener has the same
connections with an id, with the same candidates, and the same channel registered for it. -/
theorem noninterference (from_str : String → Option RTCIceCandidateInit) (id : UInt64) :
    (∀ remote_network_id as as' s s',
      Transition.run (Connect.step from_str) (.start id remote_network_id) as = some s →
      Transition.run (Connect.step from_str) (.start id remote_network_id) as' = some s' →
        (s.taken.filter (·.connection_id = id) = s'.taken.filter (·.connection_id = id) →
          s.answer = s'.answer ∧
          s.handed ++ s.pending_candidates = s'.handed ++ s'.pending_candidates) ∧
        (Transition.trace (Connect.step from_str) Connect.shown (.start id remote_network_id) as =
          Transition.trace (Connect.step from_str) Connect.shown (.start id remote_network_id) as' →
          s.answer = s'.answer ∧ s.handed = s'.handed)) ∧
    ∀ as as' s s', Transition.run (Listener.step from_str) .bind as = some s →
      Transition.run (Listener.step from_str) .bind as' = some s' →
      Transition.trace (Listener.step from_str) (Listener.shown id) .bind as =
        Transition.trace (Listener.step from_str) (Listener.shown id) .bind as' →
      s.peer id = s'.peer id := by
  refine ⟨fun network_id as as' s s' h h' => ⟨fun htaken => ?_, fun htrace => ?_⟩,
    fun as as' s s' h h' htrace => ?_⟩
  · have hid := Connect.connection_id_of_run h
    have hid' := Connect.connection_id_of_run h'
    constructor
    · rw [Connect.answer_of_run h, Connect.answer_of_run h', hid, hid',
        ← Connect.answer_of_filter, htaken, Connect.answer_of_filter]
    · rw [(Connect.stage_of_run h).handed_append_pending,
        (Connect.stage_of_run h').handed_append_pending, hid, hid',
        ← Connect.candidates_of_filter, htaken, Connect.candidates_of_filter]
  · have hview : s.view = s'.view := by
      rw [Connect.view_of_run h, Connect.view_of_run h', htrace]
    injection hview with _ _ _ hanswer _ _ hhanded
    exact ⟨hanswer, hhanded⟩
  · rw [Listener.peer_of_run h, Listener.peer_of_run h', htrace]

/-- A dialer takes its answer. -/
def Connect.answer_alone : List Connect.Action := [.next (some (.answer 5 "sdp" "9"))]

/-- It takes an answer for another connection before. -/
def Connect.answer_late : List Connect.Action :=
  .next (some (.answer 6 "other" "8")) :: Connect.answer_alone

/-- It takes an answer for its own connection from another peer before. -/
def Connect.answer_foreign : List Connect.Action :=
  [.next (some (.answer 5 "other" "8")), .call (.ok ()), .call (.ok ()), .apply,
    .task_next (some (.answer 5 "sdp" "9"))]

/-- A listener handles an offer up to a failure, and is sent a candidate for it. -/
def Listener.offer_failed (id : UInt64) (network_id : String) (i : ℕ) : List Listener.Action :=
  [.signal (.offer id "sdp" network_id), .call (.ok ""), .proceed, .proceed,
    .call (.error .Timeout), .signal (.candidate id "c" network_id), .recv i]

theorem noninterference_late :
    (∃ s s', Transition.run (Connect.step fun _ => none) (.start 5 "9") Connect.answer_alone =
        some s ∧
      Transition.run (Connect.step fun _ => none) (.start 5 "9") Connect.answer_late = some s' ∧
      s.answer = s'.answer ∧ s.handed = s'.handed) ∧
    ∃ s s', Transition.run (Listener.step fun _ => none) .bind (Listener.offer_failed 5 "9" 0) =
        some s ∧
      Transition.run (Listener.step fun _ => none) .bind
        (Listener.offer_failed 6 "8" 0 ++ Listener.offer_failed 5 "9" 1) = some s' ∧
      s.peer 5 = s'.peer 5 :=
  ⟨⟨_, _, rfl, rfl, ((noninterference (fun _ => none) 5).1 "9" Connect.answer_alone
      Connect.answer_late _ _ rfl rfl).2 (by decide)⟩,
    ⟨_, _, rfl, rfl, (noninterference (fun _ => none) 5).2 (Listener.offer_failed 5 "9" 0)
      (Listener.offer_failed 6 "8" 0 ++ Listener.offer_failed 5 "9" 1) _ _ rfl rfl (by decide)⟩⟩

/-- Network ids do not separate them: the answer of another peer is adopted. -/
theorem answer_of_other_peer :
    ¬ ∀ as as' s s', Transition.run (Connect.step fun _ => none) (.start 5 "9") as = some s →
      Transition.run (Connect.step fun _ => none) (.start 5 "9") as' = some s' →
      s.taken.filter (·.network_id = "9") = s'.taken.filter (·.network_id = "9") →
      s.answer = s'.answer := by
  intro h
  have hsame := h Connect.answer_alone Connect.answer_foreign _ _ rfl rfl (by decide)
  exact absurd hsame (by decide)

end Nethernet
