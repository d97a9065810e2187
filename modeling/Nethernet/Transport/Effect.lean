import Nethernet.Foundations.Filter
import Nethernet.Transport.Listener

/-!
# What a step of the listener does

`step_effect` says what a step can do to the connections and their dispatchers: it creates,
registers or accepts a connection, or one connection takes a step of its own (`Evolves`), or neither
changes. The proofs about the listener split its steps by this, and not by the actions.

`WellFormed` is what holds in every reachable state.
-/

namespace Nethernet

open Foundations

namespace Listener

namespace Task

/-- The task receives signals. -/
def is_running : Task → Bool
  | Recv | Adding | Notify => true
  | _ => false

/-- The task has removed its dispatcher. -/
def has_cleaned : Task → Bool
  | CleanNotifiers | Ended => true
  | _ => false

end Task

namespace Loop

/-- The connection that `handle_offer` is about. -/
def connection : Loop → Option ℕ
  | insert_notifier i | insert_dispatcher i | calling i _ | set_handlers i => some i
  | _ => none

/-- The connection that `handle_offer` has not registered yet. -/
def unregistered : Loop → Option ℕ
  | insert_notifier i | insert_dispatcher i => some i
  | _ => none

end Loop

namespace Connection

/-- The calls of the state handler. -/
def called (c : Connection) : List RTCPeerConnectionState := c.completed ++ c.pending

/-- The state handler has been called with a lost state. -/
def lost_called (c : Connection) : Prop := ∃ state ∈ c.called, state.is_lost

theorem not_lost_called {c : Connection} (h : c.called = []) : ¬ c.lost_called := by
  rintro ⟨state, hmem, -⟩
  rw [h] at hmem
  cases hmem

/-- The candidates that the connection has been handed, or finds in its channel. -/
def received (from_str : String → Option RTCIceCandidateInit) (c : Connection) :
    List RTCIceCandidateInit :=
  c.handed ++ (c.queue.filter (·.signal_type = .Candidate)).map (candidate_init from_str ·.data)

end Connection

variable {from_str : String → Option RTCIceCandidateInit}

/-- What a step `a` makes of the connection `i`, once it is created and before and after its
registration and its acceptance. -/
structure Evolves (from_str : String → Option RTCIceCandidateInit) (s : Listener) (a : Action)
    (i : ℕ) (c c' : Connection) : Prop where
  offer : c'.offer = c.offer
  handler : c'.handler = c.handler
  unspawned : c'.task = .Unspawned ↔ c.task = .Unspawned
  running : c.task.is_running → s.signal_dispatchers c.connection_id = some i → c'.task.is_running
  cleaned : c.task.has_cleaned → c'.task.has_cleaned
  called : (c'.state = c.state ∧ c'.called = c.called ∧ (c.pending = [] → c'.pending = [])) ∨
    (a = .change i c'.state ∧ c.state ≠ .Closed ∧ c'.completed = c.completed ∧
      c'.pending = if c.handler then c.pending ++ [c'.state] else c.pending)
  received : (∀ signal, a = .signal signal → s.signal_dispatchers signal.connection_id ≠ some i) →
    c'.received from_str = c.received from_str

/-- What a step `a` makes of the connections, the dispatchers and the accepted connections. -/
inductive Effect (from_str : String → Option RTCIceCandidateInit) (s : Listener) (a : Action)
    (s' : Listener) : Prop
  /-- Nothing. -/
  | idle (hconn : s'.connections = s.connections)
      (hdisp : s'.signal_dispatchers = s.signal_dispatchers) (hacc : s'.accepted = s.accepted)
      (hreg : s'.loop.unregistered = s.loop.unregistered)
      (hloop : s'.loop.connection = s.loop.connection ∨ s'.loop.connection = none)
      (hnew : ∀ offer, s'.loop = .new_peer_connection offer →
        s.loop = .new_peer_connection offer ∨ a = .signal offer ∧ offer.signal_type = .Offer)
  /-- A connection takes a step of its own, and keeps its dispatcher or removes it. -/
  | evolve (i : ℕ) (c c' : Connection) (hc : s.connections[i]? = some c)
      (hev : Evolves from_str s a i c c') (hconn : s'.connections = s.connections.set i c')
      (hdisp : s'.signal_dispatchers = s.signal_dispatchers ∨
        (s'.signal_dispatchers = Function.update s.signal_dispatchers c.connection_id none ∧
          (a = .clean_dispatchers i ∧ c.task = .CleanDispatchers ∨
            a = .handle i ∧ ∃ state ∈ c.pending, state.is_lost)))
      (hacc : s'.accepted = s.accepted) (hreg : s'.loop.unregistered = s.loop.unregistered)
      (hloop : s'.loop.connection = s.loop.connection)
      (hnew : ∀ offer, s'.loop = .new_peer_connection offer → s.loop = .new_peer_connection offer)
  /-- A connection is created. -/
  | create (offer : Signal) (hloop : s.loop = .new_peer_connection offer)
      (hconn : s'.connections = s.connections ++ [Connection.new offer])
      (hdisp : s'.signal_dispatchers = s.signal_dispatchers) (hacc : s'.accepted = s.accepted)
      (hloop' : s'.loop = .insert_notifier s.connections.length)
  /-- The connection is registered. -/
  | register (i : ℕ) (c : Connection) (ha : a = .proceed) (hloop : s.loop = .insert_dispatcher i)
      (hc : s.connections[i]? = some c)
      (hconn : s'.connections = s.connections.set i { c with task := .Recv })
      (hdisp : s'.signal_dispatchers =
        Function.update s.signal_dispatchers c.connection_id (some i))
      (hacc : s'.accepted = s.accepted) (hloop' : s'.loop = .calling i .parse_offer)
  /-- The connection is accepted. -/
  | accept (i : ℕ) (c : Connection) (hloop : s.loop = .set_handlers i)
      (hc : s.connections[i]? = some c)
      (hconn : s'.connections = s.connections.set i { c with handler := true })
      (hdisp : s'.signal_dispatchers = s.signal_dispatchers)
      (hacc : s'.accepted = s.accepted ++ [i]) (hloop' : s'.loop = .Waiting)

theorem effect_of_local {s s' : Listener} {a : Action} {i : ℕ} {c c' : Connection}
    (hc : s.connections[i]? = some c) (hev : Evolves from_str s a i c c')
    (hconn : s'.connections = s.connections.set i c')
    (hdisp : s'.signal_dispatchers = s.signal_dispatchers) (hacc : s'.accepted = s.accepted)
    (hloop : s'.loop = s.loop) : Effect from_str s a s' :=
  .evolve i c c' hc hev hconn (.inl hdisp) hacc (by rw [hloop]) (by rw [hloop])
    fun _ h => hloop ▸ h

/-- A step that changes only where the task is, and what it has received. -/
theorem Evolves.of_task {s : Listener} {a : Action} {i : ℕ} {c : Connection} {task : Task}
    {queue : List Signal} {first_candidate : Bool} {handed : List RTCIceCandidateInit}
    (hspawned : c.task ≠ .Unspawned) (htask : task ≠ .Unspawned)
    (hrunning : c.task.is_running → s.signal_dispatchers c.connection_id = some i → task.is_running)
    (hcleaned : c.task.has_cleaned → task.has_cleaned)
    (hreceived : ({ c with task, queue, first_candidate, handed } : Connection).received from_str =
      c.received from_str) :
    Evolves from_str s a i c { c with task, queue, first_candidate, handed } where
  offer := rfl
  handler := rfl
  unspawned := iff_of_false htask hspawned
  running := hrunning
  cleaned := hcleaned
  called := .inl ⟨rfl, rfl, id⟩
  received _ := hreceived

theorem effect_signal {s s' : Listener} {signal : Signal} (h : s.on_signal signal = some s') :
    Effect from_str s (.signal signal) s' := by
  rw [on_signal] at h
  split at h
  · rename_i hloop
    split at h
    · rename_i htype
      obtain rfl := Option.some.inj h
      refine .idle rfl rfl rfl (by rw [hloop]; rfl) (.inr rfl) fun offer h => .inr ?_
      obtain rfl := Loop.new_peer_connection.inj h
      exact ⟨rfl, htype⟩
    · obtain rfl := Option.some.inj h
      rw [dispatch]
      split
      · exact .idle rfl rfl rfl rfl (.inl rfl) fun _ => .inl
      · split
        · exact .idle rfl rfl rfl rfl (.inl rfl) fun _ => .inl
        · rename_i i hi _ c hc
          refine effect_of_local hc ?_ rfl rfl rfl rfl
          exact ⟨rfl, rfl, Iff.rfl, fun h _ => h, id, .inl ⟨rfl, rfl, id⟩,
            fun h => absurd hi (h signal rfl)⟩
  · cases h

theorem effect_call {s s' : Listener} {result : Except NethernetError String}
    (h : s.on_call result = some s') : Effect from_str s (.call result) s' := by
  rw [on_call] at h
  split at h
  · rename_i offer hloop
    split at h
    · obtain rfl := Option.some.inj h
      exact .idle rfl rfl rfl (by rw [hloop]; rfl) (.inr rfl) nofun
    · obtain rfl := Option.some.inj h
      exact .create offer hloop rfl rfl rfl rfl
  · rename_i i call hloop
    split at h
    · cases h
    · obtain rfl := Option.some.inj h
      exact .idle rfl rfl rfl (by rw [hloop]; rfl) (.inr rfl) nofun
    · rename_i c text hc
      obtain rfl := Option.some.inj h
      refine .evolve i c (call.perform text c) hc ?_ rfl (.inl rfl) rfl ?_ ?_ ?_
      · cases call <;>
          exact ⟨rfl, rfl, Iff.rfl, fun h _ => h, id, .inl ⟨rfl, rfl, id⟩, fun _ => rfl⟩
      · rw [hloop]
        cases call <;> rfl
      · rw [hloop]
        cases call <;> rfl
      · cases call <;> nofun
  · cases h

theorem effect_proceed {s s' : Listener} (h : s.proceed = some s') :
    Effect from_str s .proceed s' := by
  rw [proceed] at h
  split at h
  · rename_i i hloop
    obtain ⟨c, hc, rfl⟩ := Option.map_eq_some_iff.1 h
    exact .idle rfl rfl rfl (by rw [hloop]; rfl) (.inl (by rw [hloop]; rfl)) nofun
  · rename_i i hloop
    obtain ⟨c, hc, rfl⟩ := Option.map_eq_some_iff.1 h
    exact .register i c rfl hloop hc rfl rfl rfl rfl
  · rename_i i hloop
    obtain ⟨c, hc, rfl⟩ := Option.map_eq_some_iff.1 h
    exact .accept i c hloop hc rfl rfl rfl rfl
  · cases h

theorem effect_recv {s s' : Listener} {i : ℕ} {c : Connection} (hc : s.connections[i]? = some c)
    (h : s.recv from_str i c = some s') : Effect from_str s (.recv i) s' := by
  rw [recv] at h
  split at h
  · rename_i htask
    split at h
    · rename_i signal queue hqueue
      split at h
      · rename_i hcand
        obtain rfl := Option.some.inj h
        refine effect_of_local hc (Evolves.of_task ?_ ?_ ?_ ?_ ?_) rfl rfl rfl rfl <;>
          simp [htask, Task.is_running, Task.has_cleaned, Connection.received, hqueue, hcand]
      · rename_i hcand
        obtain rfl := Option.some.inj h
        refine effect_of_local hc (Evolves.of_task ?_ ?_ ?_ ?_ ?_) rfl rfl rfl rfl <;>
          simp [htask, Task.is_running, Task.has_cleaned, Connection.received, hqueue, hcand]
    · split at h
      · cases h
      · rename_i hclosed
        obtain rfl := Option.some.inj h
        refine effect_of_local hc (Evolves.of_task ?_ ?_ ?_ ?_ ?_) rfl rfl rfl rfl <;>
          simp [htask, Task.has_cleaned, Connection.received, hclosed]
  · cases h

theorem effect_added {s s' : Listener} {i : ℕ} {c : Connection} {result : Except String Unit}
    (hc : s.connections[i]? = some c) (h : s.added i c result = some s') :
    Effect from_str s (.added i result) s' := by
  unfold added at h
  split at h
  · rename_i htask
    split at h
    · obtain rfl := Option.some.inj h
      refine effect_of_local hc (Evolves.of_task ?_ ?_ ?_ ?_ ?_) rfl rfl rfl rfl <;>
        simp [htask, Task.is_running, Task.has_cleaned, Connection.received]
    · split at h
      · obtain rfl := Option.some.inj h
        refine effect_of_local hc (Evolves.of_task ?_ ?_ ?_ ?_ ?_) rfl rfl rfl rfl <;>
          simp [htask, Task.is_running, Task.has_cleaned, Connection.received]
      · obtain rfl := Option.some.inj h
        refine effect_of_local hc (Evolves.of_task ?_ ?_ ?_ ?_ ?_) rfl rfl rfl rfl <;>
          simp [htask, Task.is_running, Task.has_cleaned, Connection.received]
  · cases h

theorem effect_notify {s s' : Listener} {i : ℕ} {c : Connection} (hc : s.connections[i]? = some c)
    (h : s.notify i c = some s') : Effect from_str s (.notify i) s' := by
  rw [notify] at h
  split at h
  · rename_i htask
    obtain rfl := Option.some.inj h
    refine effect_of_local hc (Evolves.of_task ?_ ?_ ?_ ?_ ?_) rfl rfl rfl rfl <;>
      simp [htask, Task.is_running, Task.has_cleaned, Connection.received]
  · cases h

theorem effect_clean_dispatchers {s s' : Listener} {i : ℕ} {c : Connection}
    (hc : s.connections[i]? = some c) (h : s.clean_dispatchers i c = some s') :
    Effect from_str s (.clean_dispatchers i) s' := by
  rw [clean_dispatchers] at h
  split at h
  · rename_i htask
    obtain rfl := Option.some.inj h
    refine .evolve i c _ hc (Evolves.of_task ?_ ?_ ?_ ?_ ?_) rfl (.inr ⟨rfl, .inl ⟨rfl, htask⟩⟩) rfl
      rfl rfl (fun _ => id) <;> simp [htask, Task.is_running, Task.has_cleaned, Connection.received]
  · cases h

theorem effect_clean_notifiers {s s' : Listener} {i : ℕ} {c : Connection}
    (hc : s.connections[i]? = some c) (h : s.clean_notifiers i c = some s') :
    Effect from_str s (.clean_notifiers i) s' := by
  rw [clean_notifiers] at h
  split at h
  · rename_i htask
    obtain rfl := Option.some.inj h
    refine effect_of_local hc (Evolves.of_task ?_ ?_ ?_ ?_ ?_) rfl rfl rfl rfl <;>
      simp [htask, Task.is_running, Task.has_cleaned, Connection.received]
  · cases h

theorem effect_change {s s' : Listener} {i : ℕ} {c : Connection} {state : RTCPeerConnectionState}
    (hc : s.connections[i]? = some c) (h : s.change i c state = some s') :
    Effect from_str s (.change i state) s' := by
  rw [change] at h
  split at h
  · cases h
  · rename_i hopen
    obtain rfl := Option.some.inj h
    refine effect_of_local hc ?_ rfl rfl rfl rfl
    exact ⟨rfl, rfl, Iff.rfl, fun h _ => h, id, .inr ⟨rfl, hopen, rfl, rfl⟩, fun _ => rfl⟩

theorem effect_handle {s s' : Listener} {i : ℕ} {c : Connection}
    (hc : s.connections[i]? = some c) (h : s.handle i c = some s') :
    Effect from_str s (.handle i) s' := by
  rw [handle] at h
  split at h
  · cases h
  · rename_i state pending hpending
    have hev : Evolves from_str s (.handle i) i c
        { c with pending := pending, completed := c.completed ++ [state] } :=
      ⟨rfl, rfl, Iff.rfl, fun h _ => h, id,
        .inl ⟨rfl, by simp [Connection.called, hpending], by simp [hpending]⟩, fun _ => rfl⟩
    obtain rfl := Option.some.inj h
    split
    · rename_i hlost
      exact .evolve i c _ hc hev rfl (.inr ⟨rfl, .inr ⟨rfl, state, by simp [hpending], hlost⟩⟩) rfl
        rfl rfl fun _ => id
    · exact effect_of_local hc hev rfl rfl rfl rfl

/-- **What a step does** to the connections and the dispatchers. -/
theorem step_effect {s s' : Listener} {a : Action} (h : step from_str s a = some s') :
    Effect from_str s a s' := by
  cases a with
  | signal signal => exact effect_signal h
  | stop =>
    simp only [step] at h
    split at h
    · rename_i hloop
      obtain rfl := Option.some.inj h
      exact .idle rfl rfl rfl (by rw [hloop]; rfl) (.inr rfl) nofun
    · cases h
  | call result => exact effect_call h
  | proceed => exact effect_proceed h
  | recv i =>
    obtain ⟨c, hc, h⟩ := Option.bind_eq_some_iff.1 h
    exact effect_recv hc h
  | added i result =>
    obtain ⟨c, hc, h⟩ := Option.bind_eq_some_iff.1 h
    exact effect_added hc h
  | notify i =>
    obtain ⟨c, hc, h⟩ := Option.bind_eq_some_iff.1 h
    exact effect_notify hc h
  | clean_dispatchers i =>
    obtain ⟨c, hc, h⟩ := Option.bind_eq_some_iff.1 h
    exact effect_clean_dispatchers hc h
  | clean_notifiers i =>
    obtain ⟨c, hc, h⟩ := Option.bind_eq_some_iff.1 h
    exact effect_clean_notifiers hc h
  | change i state =>
    obtain ⟨c, hc, h⟩ := Option.bind_eq_some_iff.1 h
    exact effect_change hc h
  | handle i =>
    obtain ⟨c, hc, h⟩ := Option.bind_eq_some_iff.1 h
    exact effect_handle hc h
  | on_ice_candidate i json =>
    obtain ⟨c, hc, rfl⟩ := Option.map_eq_some_iff.1 h
    exact .idle rfl rfl rfl rfl (.inl rfl) fun _ => .inl

/-! ## Reachable states -/

/-- A step that removes one dispatcher at most leaves no new one. -/
theorem entry_of_removed {s s' : Listener} {removed id : UInt64} {i : ℕ}
    (hdisp : s'.signal_dispatchers = s.signal_dispatchers ∨
      s'.signal_dispatchers = Function.update s.signal_dispatchers removed none)
    (h : s'.signal_dispatchers id = some i) : s.signal_dispatchers id = some i := by
  rcases hdisp with hdisp | hdisp
  · exact hdisp ▸ h
  · rw [hdisp, Function.update_apply] at h
    split at h
    · cases h
    · exact h

/-- The connection `i` has the id and is registered: its task has been spawned. -/
def Registered (s : Listener) (i : ℕ) (id : UInt64) : Prop :=
  ∃ c : Connection, s.connections[i]? = some c ∧ c.connection_id = id ∧ c.task ≠ .Unspawned

/-- What holds in every reachable state: the signal handler works on the last connection, which
alone may be unregistered, and a dispatcher belongs to a registered connection of its id. -/
structure WellFormed (s : Listener) : Prop where
  last : ∀ i, s.loop.connection = some i → i + 1 = s.connections.length
  unspawned : ∀ (i : ℕ) (c : Connection), s.connections[i]? = some c →
    (c.task = .Unspawned ↔ s.loop.unregistered = some i)
  quiet : ∀ (i : ℕ) (c : Connection), s.connections[i]? = some c → c.handler = false → c.called = []
  handled : ∀ (i : ℕ) (c : Connection), s.connections[i]? = some c →
    s.loop.connection = some i → c.handler = false
  entry : ∀ id i, s.signal_dispatchers id = some i → s.Registered i id
  accepted : ∀ i ∈ s.accepted, ∃ id, s.Registered i id

theorem Loop.connection_of_unregistered {loop : Loop} {i : ℕ} (h : loop.unregistered = some i) :
    loop.connection = some i := by
  cases loop <;> simp_all [unregistered, connection]

/-- A connection that `handle_offer` is not about to register has a task. -/
theorem WellFormed.spawned {s : Listener} (hs : s.WellFormed) {i : ℕ} {c : Connection}
    (hc : s.connections[i]? = some c) (h : s.loop.unregistered ≠ some i) : c.task ≠ .Unspawned :=
  mt (hs.unspawned i c hc).1 h

/-- A connection that is not registered has called no state handler. -/
theorem WellFormed.called_of_unspawned {s : Listener} (hs : s.WellFormed) {i : ℕ} {c : Connection}
    (hc : s.connections[i]? = some c) (htask : c.task = .Unspawned) : c.called = [] :=
  hs.quiet i c hc (hs.handled i c hc
    (Loop.connection_of_unregistered ((hs.unspawned i c hc).1 htask)))

theorem wellFormed_bind : bind.WellFormed where
  last i h := by cases h
  unspawned i c h := by simp [bind] at h
  quiet i c h := by simp [bind] at h
  handled i c h := by simp [bind] at h
  entry id i h := by cases h
  accepted i h := by cases h

theorem Registered.set {s s' : Listener} {i j : ℕ} {c c' : Connection} {id : UInt64}
    (hc : s.connections[i]? = some c) (hconn : s'.connections = s.connections.set i c')
    (hoffer : c'.offer = c.offer) (htask : c.task ≠ .Unspawned → c'.task ≠ .Unspawned)
    (hj : s.Registered j id) : s'.Registered j id := by
  obtain ⟨d, hd, hid, hspawned⟩ := hj
  by_cases hij : i = j
  · subst hij
    obtain rfl := Option.some.inj (hc.symm.trans hd)
    refine ⟨c', by rw [hconn, getElem?_set_eq_some hc]; exact .inl ⟨rfl, rfl⟩, ?_, htask hspawned⟩
    rw [Connection.connection_id, hoffer]
    exact hid
  · exact ⟨d, by rw [hconn, getElem?_set_eq_some hc]; exact .inr ⟨hij, hd⟩, hid, hspawned⟩

/-- A step that replaces one connection keeps a state well formed. -/
theorem WellFormed.set {s s' : Listener} {i : ℕ} {c c' : Connection} (hs : s.WellFormed)
    (hc : s.connections[i]? = some c) (hconn : s'.connections = s.connections.set i c')
    (hoffer : c'.offer = c.offer) (htask : c.task ≠ .Unspawned → c'.task ≠ .Unspawned)
    (hspawned : c'.task = .Unspawned ↔ s'.loop.unregistered = some i)
    (hothers : ∀ j ≠ i, s'.loop.unregistered = some j ↔ s.loop.unregistered = some j)
    (hquiet : c'.handler = false → c'.called = [])
    (hhandled : s'.loop.connection = some i → c'.handler = false)
    (hloop : ∀ j, s'.loop.connection = some j → s.loop.connection = some j)
    (hdisp : ∀ id j, s'.signal_dispatchers id = some j →
      s.signal_dispatchers id = some j ∨ (c.connection_id = id ∧ j = i ∧ c'.task ≠ .Unspawned))
    (hacc : ∀ j ∈ s'.accepted, j ∈ s.accepted ∨ (j = i ∧ c'.task ≠ .Unspawned)) :
    s'.WellFormed := by
  have hself : (s'.connections)[i]? = some c' := by
    rw [hconn, getElem?_set_eq_some hc]
    exact .inl ⟨rfl, rfl⟩
  have hid : c'.connection_id = c.connection_id := congrArg Signal.connection_id hoffer
  refine ⟨fun j hj => ?_, fun j d hd => ?_, fun j d hd hh => ?_, fun j d hd hj => ?_,
    fun id j hj => ?_, fun j hj => ?_⟩
  · rw [hconn, List.length_set]
    exact hs.last j (hloop j hj)
  · rw [hconn, getElem?_set_eq_some hc] at hd
    rcases hd with ⟨rfl, rfl⟩ | ⟨hij, hd⟩
    · exact hspawned
    · exact (hs.unspawned j d hd).trans (hothers j (Ne.symm hij)).symm
  · rw [hconn, getElem?_set_eq_some hc] at hd
    rcases hd with ⟨rfl, rfl⟩ | ⟨-, hd⟩
    · exact hquiet hh
    · exact hs.quiet j d hd hh
  · rw [hconn, getElem?_set_eq_some hc] at hd
    rcases hd with ⟨rfl, rfl⟩ | ⟨-, hd⟩
    · exact hhandled hj
    · exact hs.handled j d hd (hloop j hj)
  · rcases hdisp id j hj with hj | ⟨rfl, rfl, hne⟩
    · exact (hs.entry id j hj).set hc hconn hoffer htask
    · exact ⟨c', hself, hid, hne⟩
  · rcases hacc j hj with hj | ⟨rfl, hne⟩
    · obtain ⟨id, hreg⟩ := hs.accepted j hj
      exact ⟨id, hreg.set hc hconn hoffer htask⟩
    · exact ⟨_, c', hself, rfl, hne⟩

theorem WellFormed.create {s s' : Listener} {offer : Signal} (hs : s.WellFormed)
    (hloop : s.loop = .new_peer_connection offer)
    (hconn : s'.connections = s.connections ++ [Connection.new offer])
    (hdisp : s'.signal_dispatchers = s.signal_dispatchers) (hacc : s'.accepted = s.accepted)
    (hloop' : s'.loop = .insert_notifier s.connections.length) : s'.WellFormed := by
  have hregistered : ∀ i id, s.Registered i id → s'.Registered i id := by
    rintro i id ⟨c, hc, hid, htask⟩
    exact ⟨c, by rw [hconn, getElem?_concat_eq_some]; exact .inl hc, hid, htask⟩
  have hlt : ∀ {i : ℕ} {c : Connection}, s.connections[i]? = some c → i ≠ s.connections.length :=
    fun hc => Nat.ne_of_lt (List.getElem?_eq_some_iff.1 hc).1
  refine ⟨fun i hi => ?_, fun i c hc => ?_, fun i c hc hh => ?_, fun i c hc hi => ?_,
    fun id i hi => ?_, fun i hi => ?_⟩
  · rw [hloop'] at hi
    obtain rfl := Option.some.inj hi
    rw [hconn, List.length_append, List.length_singleton]
  · rw [hconn, getElem?_concat_eq_some] at hc
    rw [hloop']
    rcases hc with hc | ⟨rfl, rfl⟩
    · exact iff_of_false (hs.spawned hc (by rw [hloop]; nofun))
        fun h => hlt hc (Option.some.inj h).symm
    · exact iff_of_true rfl rfl
  · rw [hconn, getElem?_concat_eq_some] at hc
    rcases hc with hc | ⟨-, rfl⟩
    · exact hs.quiet i c hc hh
    · rfl
  · rw [hconn, getElem?_concat_eq_some] at hc
    rw [hloop'] at hi
    rcases hc with hc | ⟨-, rfl⟩
    · exact absurd (Option.some.inj hi).symm (hlt hc)
    · rfl
  · exact hregistered i id (hs.entry id i (hdisp ▸ hi))
  · obtain ⟨id, hreg⟩ := hs.accepted i (hacc ▸ hi)
    exact ⟨id, hregistered i id hreg⟩

/-- The calls of a connection without a state handler after a step. -/
theorem Evolves.quiet {s : Listener} {a : Action} {i : ℕ} {c c' : Connection}
    (hev : Evolves from_str s a i c c') (hh : c.handler = false) (hq : c.called = []) :
    c'.called = [] := by
  rcases hev.called with ⟨-, hcalled, -⟩ | ⟨-, -, hcompleted, hpending⟩
  · rw [hcalled, hq]
  · rw [hh] at hpending
    rw [Connection.called, hcompleted, hpending]
    exact hq

theorem Evolves.lost_called {s : Listener} {a : Action} {i : ℕ} {c c' : Connection}
    (hev : Evolves from_str s a i c c') (h : c.lost_called) : c'.lost_called := by
  obtain ⟨state, hmem, hlost⟩ := h
  refine ⟨state, ?_, hlost⟩
  rcases hev.called with ⟨-, hcalled, -⟩ | ⟨-, -, hcompleted, hpending⟩
  · rwa [hcalled]
  · rw [Connection.called, hcompleted, hpending]
    rw [Connection.called, List.mem_append] at hmem
    split
    · simp only [List.mem_append]
      exact hmem.imp_right .inl
    · exact List.mem_append.2 hmem

/-- A step that changes no connection keeps a state well formed. -/
theorem WellFormed.idle {s s' : Listener} (hs : s.WellFormed)
    (hconn : s'.connections = s.connections) (hdisp : s'.signal_dispatchers = s.signal_dispatchers)
    (hacc : s'.accepted = s.accepted) (hreg : s'.loop.unregistered = s.loop.unregistered)
    (hloop : s'.loop.connection = s.loop.connection ∨ s'.loop.connection = none) :
    s'.WellFormed := by
  have hloop' : ∀ i, s'.loop.connection = some i → s.loop.connection = some i := by
    intro i hi
    rcases hloop with hloop | hloop
    · exact hloop ▸ hi
    · cases hloop.symm.trans hi
  have hregistered : ∀ i id, s.Registered i id → s'.Registered i id := by
    rintro i id ⟨c, hc, hid⟩
    exact ⟨c, hconn ▸ hc, hid⟩
  refine ⟨fun i hi => ?_, fun i c hc => ?_, fun i c hc => ?_, fun i c hc hi => ?_,
    fun id i hi => ?_, fun i hi => ?_⟩
  · rw [hconn]
    exact hs.last i (hloop' i hi)
  · rw [hreg]
    exact hs.unspawned i c (hconn ▸ hc)
  · exact hs.quiet i c (hconn ▸ hc)
  · exact hs.handled i c (hconn ▸ hc) (hloop' i hi)
  · exact hregistered i id (hs.entry id i (hdisp ▸ hi))
  · obtain ⟨id, hi⟩ := hs.accepted i (hacc ▸ hi)
    exact ⟨id, hregistered i id hi⟩

theorem WellFormed.register {s s' : Listener} {i : ℕ} {c : Connection} (hs : s.WellFormed)
    (hloop : s.loop = .insert_dispatcher i) (hc : s.connections[i]? = some c)
    (hconn : s'.connections = s.connections.set i { c with task := .Recv })
    (hdisp : s'.signal_dispatchers = Function.update s.signal_dispatchers c.connection_id (some i))
    (hacc : s'.accepted = s.accepted) (hloop' : s'.loop = .calling i .parse_offer) :
    s'.WellFormed := by
  have hhandler := hs.handled i c hc (by rw [hloop]; rfl)
  refine hs.set hc hconn rfl (fun _ => Task.noConfusion) ?_ (fun j hj => ?_)
    (fun hh => hs.quiet i c hc hh) (fun _ => hhandler) (fun j hj => ?_) (fun id j hj => ?_)
    (fun j hj => .inl (hacc ▸ hj))
  · rw [hloop']
    exact iff_of_false Task.noConfusion nofun
  · rw [hloop, hloop']
    exact iff_of_false nofun fun h => hj (Option.some.inj h).symm
  · rw [hloop'] at hj
    rw [hloop]
    exact hj
  · rw [hdisp, Function.update_apply] at hj
    split at hj
    · rename_i hid
      exact .inr ⟨hid.symm, (Option.some.inj hj).symm, Task.noConfusion⟩
    · exact .inl hj

theorem WellFormed.accept {s s' : Listener} {i : ℕ} {c : Connection} (hs : s.WellFormed)
    (hloop : s.loop = .set_handlers i) (hc : s.connections[i]? = some c)
    (hconn : s'.connections = s.connections.set i { c with handler := true })
    (hdisp : s'.signal_dispatchers = s.signal_dispatchers)
    (hacc : s'.accepted = s.accepted ++ [i]) (hloop' : s'.loop = .Waiting) : s'.WellFormed := by
  have htask : c.task ≠ .Unspawned := hs.spawned hc (by rw [hloop]; nofun)
  refine hs.set hc hconn rfl id ?_ (fun j _ => ?_) nofun ?_ ?_ (fun id j hj => .inl (hdisp ▸ hj))
    (fun j hj => ?_)
  · rw [hloop']
    exact iff_of_false htask nofun
  · rw [hloop, hloop']
    exact iff_of_false nofun nofun
  · rw [hloop']
    nofun
  · rw [hloop']
    nofun
  · rw [hacc, List.mem_append, List.mem_singleton] at hj
    exact hj.imp_right fun hj => ⟨hj, htask⟩

/-- **A step keeps a state well formed.** -/
theorem WellFormed.step {s s' : Listener} {a : Action} (hs : s.WellFormed)
    (h : step from_str s a = some s') : s'.WellFormed := by
  cases step_effect h with
  | idle hconn hdisp hacc hreg hloop => exact hs.idle hconn hdisp hacc hreg hloop
  | evolve i c c' hc hev hconn hdisp hacc hreg hloop =>
    refine hs.set hc hconn hev.offer (fun h h' => h (hev.unspawned.1 h')) ?_
      (fun j _ => by rw [hreg]) (fun hh => ?_) (fun hi => ?_) (fun j hj => hloop ▸ hj)
      (fun id j hj => .inl ?_)
      (fun j hj => .inl (hacc ▸ hj))
    · rw [hev.unspawned, hreg]
      exact hs.unspawned i c hc
    · have hh' := hev.handler.symm.trans hh
      exact hev.quiet hh' (hs.quiet i c hc hh')
    · exact hev.handler.trans (hs.handled i c hc (hloop ▸ hi))
    · exact entry_of_removed (hdisp.imp_right And.left) hj
  | create offer hloop hconn hdisp hacc hloop' => exact hs.create hloop hconn hdisp hacc hloop'
  | register i c ha hloop hc hconn hdisp hacc hloop' =>
    exact hs.register hloop hc hconn hdisp hacc hloop'
  | accept i c hloop hc hconn hdisp hacc hloop' =>
    exact hs.accept hloop hc hconn hdisp hacc hloop'

/-- The steps of `handle_offer` when every call succeeds. -/
def handling : List Action :=
  [.call (.ok ""), .proceed, .proceed, .call (.ok ""), .call (.ok ""), .call (.ok "sdp"),
    .call (.ok ""), .call (.ok ""), .proceed]

end Listener

end Nethernet
