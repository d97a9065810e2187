import Nethernet.Session.Channels
import Nethernet.Transport.Effect

/-!
# From an accepted offer to the incoming queue

The end of `handle_offer` (`src/transport/listener.rs`): the handler of data channels, which shares
the sender of the ready notification between its calls, and the task that waits for the first
candidate and for that notification and hands the session to the incoming queue. A call of the
handler sets its channel, reads the two slots, each under its own lock, and takes the sender; in
between the other calls and the task go on. `handed_over`: the notification is sent once, when both
channels are set, and the session is queued once.
-/

namespace Nethernet

open Foundations

namespace Accept

/-- How the wait for a notification ends. -/
inductive Outcome
  | Received
  /-- The sender was dropped. -/
  | Dropped
  | Timeout
  deriving DecidableEq, Repr

/-- Where a call of the handler of data channels is. -/
inductive Phase
  | Called
  /-- It has set its channel and reads the slots, in `is_fully_connected`. -/
  | reading (slot : Slot)
  /-- It has found both channels set, and takes the sender. -/
  | taking
  | Returned
  deriving DecidableEq, Repr

/-- What follows when the slot is found set. -/
def Phase.after : Slot → Phase
  | .Reliable => reading .Unreliable
  | .Unreliable => taking

/-- A call of the handler of data channels. -/
structure Callback where
  label : String
  channel : ℕ
  phase : Phase
  deriving DecidableEq, Repr

/-- Where the task of a session is. -/
inductive Wait
  | Candidate
  | Ready (candidate : Outcome)
  /-- The session has been queued, with these channels set. -/
  | Done (candidate : Outcome) (ready : Option Outcome) (channels : Channels)
  deriving DecidableEq, Repr

def Wait.is_done : Wait → Bool
  | Done _ _ _ => true
  | _ => false

/-- The session of an offer that was handled. -/
structure Accepted where
  connection : ℕ
  channels : Channels
  /-- Is the handler of data channels still set? -/
  handler : Bool
  /-- Is the sender of the notification still there to take? -/
  ready_tx : Bool
  /-- The slots, each time the notification was sent. -/
  sent : List Channels
  callbacks : List Callback
  wait : Wait
  deriving DecidableEq, Repr

namespace Accepted

/-- The session of a connection whose offer has just been handled. -/
def new (connection : ℕ) : Accepted where
  connection := connection
  channels := .new
  handler := true
  ready_tx := true
  sent := []
  callbacks := []
  wait := .Candidate

/-- A data channel arrives. -/
def on_data_channel (a : Accepted) (label : String) (channel : ℕ) : Option Accepted :=
  if a.handler then some { a with callbacks := a.callbacks ++ [⟨label, channel, .Called⟩] }
  else none

/-- A call of the handler goes on. -/
def goes (a : Accepted) (k : ℕ) (c : Callback) (phase : Phase) : Accepted :=
  { a with callbacks := a.callbacks.set k { c with phase := phase } }

/-- A call of the handler takes a step. -/
def callback (a : Accepted) (k : ℕ) : Option Accepted :=
  (a.callbacks[k]?).bind fun c =>
    match c.phase with
    | .Called =>
      match Slot.of_label c.label with
      | some slot =>
        some { a.goes k c (.reading .Reliable) with channels := a.channels.set slot c.channel }
      | none => some (a.goes k c .Returned)
    | .reading slot =>
      if (a.channels.get slot).isSome then some (a.goes k c (.after slot))
      else some (a.goes k c .Returned)
    | .taking =>
      if a.ready_tx then
        some { a.goes k c .Returned with ready_tx := false, sent := a.sent ++ [a.channels] }
      else some (a.goes k c .Returned)
    | .Returned => none

/-- The connection drops its handler; calls that are under way go on. -/
def drop_handler (a : Accepted) : Option Accepted :=
  if a.handler then some { a with handler := false } else none

/-- Can the wait for the notification end so? -/
def ready_ends (a : Accepted) : Outcome → Bool
  | .Received => !a.ready_tx
  | .Dropped => a.ready_tx && !a.handler && a.callbacks.all fun c => c.phase = .Returned
  | .Timeout => true

end Accepted

/-- Can the wait for the first candidate of a connection end so? -/
def candidate_ends (s : Listener) (i : ℕ) : Outcome → Bool
  | .Received => s.notified.contains i
  | .Dropped => !s.notified.contains i &&
      (s.connections[i]?).all fun c => s.candidate_notifiers c.connection_id ≠ some i
  | .Timeout => true

end Accept

open Accept in
/-- A listener, the sessions of the offers it has handled, in their order, and those handed to the
incoming queue. -/
structure Accept where
  listener : Listener
  sessions : List Accepted
  incoming : List ℕ

namespace Accept

/-- A step of the listener, or of what belongs to a session. -/
inductive Action
  | listener (a : Listener.Action)
  | on_data_channel (i : ℕ) (label : String) (channel : ℕ)
  | callback (i k : ℕ)
  | drop_handler (i : ℕ)
  /-- The wait for the first candidate ends, then that for the notification. -/
  | candidate (i : ℕ) (outcome : Outcome)
  | ready (i : ℕ) (outcome : Outcome)
  deriving DecidableEq, Repr

/-- `bind`. -/
def bind : Accept := ⟨.bind, [], []⟩

/-- Replace a session. -/
def put (s : Accept) (i : ℕ) (a : Accepted) : Accept :=
  { s with sessions := s.sessions.set i a }

/-- The task queues its session, and ends. -/
def queue (s : Accept) (i : ℕ) (a : Accepted) (candidate : Outcome) (ready : Option Outcome) :
    Accept :=
  { s.put i { a with wait := .Done candidate ready a.channels } with incoming := s.incoming ++ [i] }

/-- The wait for the first candidate ends. -/
def candidate (s : Accept) (i : ℕ) (outcome : Outcome) (a : Accepted) : Option Accept :=
  if a.wait = .Candidate ∧ candidate_ends s.listener a.connection outcome then
    if outcome = .Timeout then some (s.queue i a outcome none)
    else some (s.put i { a with wait := .Ready outcome })
  else none

/-- The wait for the notification ends. -/
def ready (s : Accept) (i : ℕ) (outcome : Outcome) (a : Accepted) : Option Accept :=
  match a.wait with
  | .Ready candidate =>
    if a.ready_ends outcome then some (s.queue i a candidate (some outcome)) else none
  | _ => none

/-- One step. An offer that has been handled brings a session. -/
def step (from_str : String → Option RTCIceCandidateInit) : Transition Accept Action
  | s, .listener a => (Listener.step from_str s.listener a).map fun listener =>
    { s with
      listener := listener
      sessions := s.sessions ++
        (listener.accepted.drop s.listener.accepted.length).map Accepted.new }
  | s, .on_data_channel i label channel =>
    (s.sessions[i]?).bind fun a => (a.on_data_channel label channel).map (s.put i)
  | s, .callback i k => (s.sessions[i]?).bind fun a => (a.callback k).map (s.put i)
  | s, .drop_handler i => (s.sessions[i]?).bind fun a => a.drop_handler.map (s.put i)
  | s, .candidate i outcome => (s.sessions[i]?).bind (s.candidate i outcome)
  | s, .ready i outcome => (s.sessions[i]?).bind (s.ready i outcome)

/-! ## What a call of the handler does -/

/-- What a step of its own makes of a session. -/
inductive Changes (a : Accepted) : Accepted → Prop
  | called (label : String) (channel : ℕ) :
    Changes a { a with callbacks := a.callbacks ++ [⟨label, channel, .Called⟩] }
  | sets (k : ℕ) (c : Callback) (slot : Slot) (hc : a.callbacks[k]? = some c)
    (hslot : Slot.of_label c.label = some slot) :
    Changes a { a.goes k c (.reading .Reliable) with channels := a.channels.set slot c.channel }
  | ignores (k : ℕ) (c : Callback) (hc : a.callbacks[k]? = some c)
    (hslot : Slot.of_label c.label = none) : Changes a (a.goes k c .Returned)
  | found (k : ℕ) (c : Callback) (slot : Slot) (hc : a.callbacks[k]? = some c)
    (hphase : c.phase = .reading slot) (hslot : (a.channels.get slot).isSome = true) :
    Changes a (a.goes k c (.after slot))
  | missed (k : ℕ) (c : Callback) (slot : Slot) (hc : a.callbacks[k]? = some c)
    (hphase : c.phase = .reading slot) (hslot : ¬ (a.channels.get slot).isSome = true) :
    Changes a (a.goes k c .Returned)
  | sends (k : ℕ) (c : Callback) (hc : a.callbacks[k]? = some c) (hphase : c.phase = .taking)
    (hready : a.ready_tx = true) :
    Changes a { a.goes k c .Returned with ready_tx := false, sent := a.sent ++ [a.channels] }
  | late (k : ℕ) (c : Callback) (hc : a.callbacks[k]? = some c) (hphase : c.phase = .taking)
    (hready : ¬ a.ready_tx = true) : Changes a (a.goes k c .Returned)
  | dropped : Changes a { a with handler := false }
  | waits (outcome : Outcome) (hwait : a.wait = .Candidate) :
    Changes a { a with wait := .Ready outcome }

theorem changes_callback {a a' : Accepted} {k : ℕ} (h : a.callback k = some a') : Changes a a' := by
  obtain ⟨c, hc, h⟩ := Option.bind_eq_some_iff.1 h
  split at h
  · split at h <;> rename_i hslot
    · exact Option.some.inj h ▸ .sets k c _ hc hslot
    · exact Option.some.inj h ▸ .ignores k c hc hslot
  · rename_i slot hphase
    split at h <;> rename_i hslot
    · exact Option.some.inj h ▸ .found k c slot hc hphase hslot
    · exact Option.some.inj h ▸ .missed k c slot hc hphase hslot
  · rename_i hphase
    split at h <;> rename_i hready
    · exact Option.some.inj h ▸ .sends k c hc hphase hready
    · exact Option.some.inj h ▸ .late k c hc hphase hready
  · cases h

namespace Accepted

/-- A call of the handler for the slot has returned. -/
def Finished (a : Accepted) (slot : Slot) : Prop :=
  ∃ c ∈ a.callbacks, Slot.of_label c.label = some slot ∧ c.phase = .Returned

/-- What a call of the handler has seen, and what the notification waits for. -/
structure WellFormed (a : Accepted) : Prop where
  set : ∀ c ∈ a.callbacks, c.phase ≠ .Called → ∀ slot, Slot.of_label c.label = some slot →
    (a.channels.get slot).isSome
  reading : ∀ c ∈ a.callbacks, c.phase = .reading .Unreliable →
    (a.channels.get .Reliable).isSome
  taking : ∀ c ∈ a.callbacks, c.phase = .taking → a.channels.is_fully_connected
  /-- Of the calls for the two slots, that which set its channel last finds both set. -/
  finished : a.ready_tx = true → ∃ slot, ¬ a.Finished slot
  sent : a.sent.length = if a.ready_tx then 0 else 1
  sent_connected : ∀ channels ∈ a.sent, channels.is_fully_connected
  connected : a.ready_tx = false → a.channels.is_fully_connected
  done : ∀ candidate ready channels, a.wait = .Done candidate ready channels →
    (ready = some .Received → channels.is_fully_connected) ∧ (ready = none → candidate = .Timeout)

section WellFormed

variable {a a' : Accepted} {k : ℕ} {c : Callback}

theorem wellFormed_new (connection : ℕ) : (new connection).WellFormed where
  set c hc := by cases hc
  reading c hc := by cases hc
  taking c hc := by cases hc
  finished _ := ⟨.Reliable, by rintro ⟨c, hc, -⟩; cases hc⟩
  sent := rfl
  sent_connected channels h := by cases h
  connected h := by cases h
  done candidate ready channels h := by cases h

/-- A slot in which a call has found no channel is not that of a call that has set its own. -/
theorem WellFormed.not_finished_of_missed (ha : a.WellFormed) {slot : Slot}
    (hslot : ¬ (a.channels.get slot).isSome = true) : ¬ a.Finished slot := by
  rintro ⟨c, hc, hlabel, hphase⟩
  exact hslot (ha.set c hc (by simp [hphase]) slot hlabel)

/-- A call goes on to a phase in which it knows what the slots say, and sends nothing. -/
theorem WellFormed.goes (ha : a.WellFormed) {phase : Phase} {channels : Channels}
    (hkeep : ∀ slot, (a.channels.get slot).isSome → (channels.get slot).isSome)
    (hset : ∀ slot, Slot.of_label c.label = some slot → (channels.get slot).isSome)
    (hreading : phase = .reading .Unreliable → (channels.get .Reliable).isSome)
    (htaking : phase = .taking → channels.is_fully_connected)
    (hreturned : phase = .Returned → a.ready_tx = true →
      Slot.of_label c.label = none ∨
        ∃ slot, ¬ a.Finished slot ∧ Slot.of_label c.label ≠ some slot) :
    WellFormed { a.goes k c phase with channels := channels } := by
  have hmem : ∀ d ∈ a.callbacks.set k { c with phase := phase },
      d ∈ a.callbacks ∨ d = { c with phase := phase } := fun _ h => List.mem_or_eq_of_mem_set h
  have hconnected : a.channels.is_fully_connected → channels.is_fully_connected := by
    intro h
    rw [Channels.is_fully_connected_iff] at h ⊢
    exact fun slot => hkeep slot (h slot)
  refine ⟨fun d hd hphase slot hlabel => ?_, fun d hd hphase => ?_, fun d hd hphase => ?_,
    fun hready => ?_, ha.sent, ha.sent_connected, fun h => hconnected (ha.connected h), ha.done⟩
  · rcases hmem d hd with hd | rfl
    · exact hkeep slot (ha.set d hd hphase slot hlabel)
    · exact hset slot hlabel
  · rcases hmem d hd with hd | rfl
    · exact hkeep _ (ha.reading d hd hphase)
    · exact hreading hphase
  · rcases hmem d hd with hd | rfl
    · exact hconnected (ha.taking d hd hphase)
    · exact htaking hphase
  · obtain ⟨slot, hslot, hlabel⟩ : ∃ slot, ¬ a.Finished slot ∧
        (phase = .Returned → Slot.of_label c.label ≠ some slot) := by
      obtain ⟨slot, hslot⟩ := ha.finished hready
      by_cases hphase : phase = .Returned
      · rcases hreturned hphase hready with hnone | ⟨slot, hslot, hne⟩
        · exact ⟨slot, hslot, fun _ h => by rw [hnone] at h; cases h⟩
        · exact ⟨slot, hslot, fun _ => hne⟩
      · exact ⟨slot, hslot, fun h => absurd h hphase⟩
    refine ⟨slot, ?_⟩
    rintro ⟨d, hd, hdlabel, hdphase⟩
    rcases hmem d hd with hd | rfl
    · exact hslot ⟨d, hd, hdlabel, hdphase⟩
    · exact hlabel hdphase hdlabel

/-- What a call that is past its slot knows. -/
theorem WellFormed.set_of_getElem? (ha : a.WellFormed) (hc : a.callbacks[k]? = some c)
    (hphase : c.phase ≠ .Called) (slot : Slot) (hlabel : Slot.of_label c.label = some slot) :
    (a.channels.get slot).isSome :=
  ha.set c (List.mem_of_getElem? hc) hphase slot hlabel

/-- The notification is sent. -/
theorem WellFormed.sends (ha : a.WellFormed) (hready : a.ready_tx = true)
    (hconnected : a.channels.is_fully_connected) :
    WellFormed { a with ready_tx := false, sent := a.sent ++ [a.channels] } where
  set := ha.set
  reading := ha.reading
  taking := ha.taking
  finished h := by cases h
  sent := by
    have hsent : a.sent.length = 0 := by rw [ha.sent, if_pos hready]
    rw [List.length_append, hsent]
    rfl
  sent_connected channels h := by
    rcases List.mem_append.1 h with h | h
    · exact ha.sent_connected channels h
    · exact List.mem_singleton.1 h ▸ hconnected
  connected _ := hconnected
  done := ha.done

/-- A call of the handler that has not begun knows nothing. -/
theorem WellFormed.called (ha : a.WellFormed) (label : String) (channel : ℕ) :
    WellFormed { a with callbacks := a.callbacks ++ [⟨label, channel, .Called⟩] } := by
  have hmem : ∀ d ∈ a.callbacks ++ [⟨label, channel, .Called⟩], d.phase ≠ .Called →
      d ∈ a.callbacks := by
    intro d hd hphase
    rcases List.mem_append.1 hd with hd | hd
    · exact hd
    · obtain rfl := List.mem_singleton.1 hd
      exact absurd rfl hphase
  refine ⟨fun d hd hphase => ha.set d (hmem d hd hphase) hphase,
    fun d hd hphase => ha.reading d (hmem d hd (by simp [hphase])) hphase,
    fun d hd hphase => ha.taking d (hmem d hd (by simp [hphase])) hphase, fun hready => ?_,
    ha.sent, ha.sent_connected, ha.connected, ha.done⟩
  obtain ⟨slot, hslot⟩ := ha.finished hready
  refine ⟨slot, ?_⟩
  rintro ⟨d, hd, hlabel, hphase⟩
  exact hslot ⟨d, hmem d hd (by simp [hphase]), hlabel, hphase⟩

/-- **A step of its own keeps a session in order.** -/
theorem WellFormed.changes (ha : a.WellFormed) (h : Changes a a') : a'.WellFormed := by
  cases h with
  | called label channel => exact ha.called label channel
  | sets k c slot hc hslot =>
    refine ha.goes (fun _ => Channels.isSome_get_set) (fun slot' hlabel => ?_)
      (fun h => by cases h) (fun h => by cases h) fun h => by cases h
    obtain rfl := Option.some.inj (hslot.symm.trans hlabel)
    rw [Channels.get_set_self]
    rfl
  | ignores k c hc hslot =>
    exact ha.goes (fun _ h => h) (fun slot h => by rw [hslot] at h; cases h) (fun h => by cases h)
      (fun h => by cases h) fun _ _ => .inl hslot
  | found k c slot hc hphase hslot =>
    refine ha.goes (fun _ h => h) (ha.set_of_getElem? hc (by simp [hphase])) (fun h => ?_)
      (fun h => ?_) fun h => ?_
    · cases slot
      · exact hslot
      · cases h
    · cases slot
      · cases h
      · rw [Channels.is_fully_connected_iff]
        intro slot
        cases slot
        · exact ha.reading c (List.mem_of_getElem? hc) hphase
        · exact hslot
    · cases slot <;> cases h
  | missed k c slot hc hphase hslot =>
    -- the slot without a channel is not that of the call, which has set its own
    have hset := ha.set_of_getElem? hc (by simp [hphase])
    exact ha.goes (fun _ h => h) hset (fun h => by cases h) (fun h => by cases h)
      fun _ _ => .inr ⟨slot, ha.not_finished_of_missed hslot, fun h => hslot (hset slot h)⟩
  | sends k c hc hphase hready =>
    exact (ha.sends hready (ha.taking c (List.mem_of_getElem? hc) hphase)).goes (fun _ h => h)
      (ha.set_of_getElem? hc (by simp [hphase])) (fun h => by cases h) (fun h => by cases h)
      fun _ h => by cases h
  | late k c hc hphase hready =>
    exact ha.goes (fun _ h => h) (ha.set_of_getElem? hc (by simp [hphase])) (fun h => by cases h)
      (fun h => by cases h) fun _ h => absurd h hready
  | dropped => exact ⟨ha.set, ha.reading, ha.taking, ha.finished, ha.sent, ha.sent_connected,
      ha.connected, ha.done⟩
  | waits outcome hwait => exact ⟨ha.set, ha.reading, ha.taking, ha.finished, ha.sent,
      ha.sent_connected, ha.connected, fun _ _ _ h => by cases h⟩

/-- The session is queued. -/
theorem WellFormed.queued (ha : a.WellFormed) {candidate : Outcome} {ready : Option Outcome}
    (hready : ready = some .Received → a.ready_tx = false)
    (hcandidate : ready = none → candidate = .Timeout) :
    WellFormed { a with wait := .Done candidate ready a.channels } where
  set := ha.set
  reading := ha.reading
  taking := ha.taking
  finished := ha.finished
  sent := ha.sent
  sent_connected := ha.sent_connected
  connected := ha.connected
  done candidate' ready' channels h := by
    cases h
    exact ⟨fun hreceived => ha.connected (hready hreceived), hcandidate⟩

/-- The notification has been sent once when calls for both slots have returned. -/
theorem WellFormed.sent_of_finished (ha : a.WellFormed) (h : ∀ slot, a.Finished slot) :
    a.sent.length = 1 := by
  have hready : ¬ a.ready_tx = true := by
    intro hready
    obtain ⟨slot, hslot⟩ := ha.finished hready
    exact hslot (h slot)
  rw [ha.sent, if_neg hready]

end WellFormed

end Accepted

/-! ## The sessions of a listener -/

variable {from_str : String → Option RTCIceCandidateInit} {s s' : Accept}

/-- What a step does. -/
inductive Effect (from_str : String → Option RTCIceCandidateInit) (s : Accept) : Accept → Prop
  | listened (a : Listener.Action) (listener : Listener)
    (hstep : Listener.step from_str s.listener a = some listener) :
    Effect from_str s { s with
      listener := listener
      sessions := s.sessions ++
        (listener.accepted.drop s.listener.accepted.length).map Accepted.new }
  | changed (i : ℕ) (a a' : Accepted) (ha : s.sessions[i]? = some a) (hchanges : Changes a a') :
    Effect from_str s (s.put i a')
  | queued (i : ℕ) (a : Accepted) (candidate : Outcome) (ready : Option Outcome)
    (ha : s.sessions[i]? = some a) (hwait : a.wait.is_done = false)
    (hready : ready = some .Received → a.ready_tx = false)
    (hcandidate : ready = none → candidate = .Timeout) :
    Effect from_str s (s.queue i a candidate ready)

theorem step_effect {a : Action} (h : step from_str s a = some s') : Effect from_str s s' := by
  cases a with
  | listener a =>
    obtain ⟨listener, hstep, rfl⟩ := Option.map_eq_some_iff.1 h
    exact .listened a listener hstep
  | on_data_channel i label channel =>
    obtain ⟨a, ha, h⟩ := Option.bind_eq_some_iff.1 h
    obtain ⟨a', hcall, rfl⟩ := Option.map_eq_some_iff.1 h
    obtain ⟨-, hcall⟩ := Option.ite_none_right_eq_some.1 hcall
    exact .changed i a a' ha (Option.some.inj hcall ▸ .called label channel)
  | callback i k =>
    obtain ⟨a, ha, h⟩ := Option.bind_eq_some_iff.1 h
    obtain ⟨a', hcall, rfl⟩ := Option.map_eq_some_iff.1 h
    exact .changed i a a' ha (changes_callback hcall)
  | drop_handler i =>
    obtain ⟨a, ha, h⟩ := Option.bind_eq_some_iff.1 h
    obtain ⟨a', hdrop, rfl⟩ := Option.map_eq_some_iff.1 h
    obtain ⟨-, hdrop⟩ := Option.ite_none_right_eq_some.1 hdrop
    exact .changed i a a' ha (Option.some.inj hdrop ▸ .dropped)
  | candidate i outcome =>
    obtain ⟨a, ha, h⟩ := Option.bind_eq_some_iff.1 h
    obtain ⟨⟨hwait, -⟩, h⟩ := Option.ite_none_right_eq_some.1 h
    split at h
    · rename_i htimeout
      exact Option.some.inj h ▸ .queued i a outcome none ha (by rw [hwait]; rfl)
        (fun h => by cases h) fun _ => htimeout
    · exact Option.some.inj h ▸ .changed i a _ ha (.waits outcome hwait)
  | ready i outcome =>
    obtain ⟨a, ha, h⟩ := Option.bind_eq_some_iff.1 h
    unfold Accept.ready at h
    split at h
    · rename_i candidate hwait
      obtain ⟨hends, h⟩ := Option.ite_none_right_eq_some.1 h
      refine Option.some.inj h ▸ .queued i a candidate (some outcome) ha (by rw [hwait]; rfl)
        (fun hreceived => ?_) fun h => by cases h
      cases hreceived
      simpa [Accepted.ready_ends] using hends
    · cases h

/-- A step of the listener accepts one connection at most. -/
theorem accepted_step {listener listener' : Listener} {a : Listener.Action}
    (h : Listener.step from_str listener a = some listener') :
    listener'.accepted = listener.accepted ++
      listener'.accepted.drop listener.accepted.length := by
  have hdrop : ∀ {l : List ℕ}, l = listener.accepted →
      l = listener.accepted ++ l.drop listener.accepted.length := by
    rintro l rfl
    rw [List.drop_length, List.append_nil]
  cases Listener.step_effect h with
  | idle _ _ hacc => exact hdrop hacc
  | evolve _ _ _ _ _ _ _ hacc => exact hdrop hacc
  | create _ _ _ _ hacc => exact hdrop hacc
  | register _ _ _ _ _ _ _ hacc => exact hdrop hacc
  | accept i c _ _ _ _ hacc => rw [hacc, List.drop_left]

/-- Every session is in order, and has been queued once if its task is done, and else not. -/
structure WellFormed (s : Accept) : Prop where
  connections : s.sessions.map (·.connection) = s.listener.accepted
  session : ∀ (i : ℕ) (a : Accepted), s.sessions[i]? = some a →
    a.WellFormed ∧ s.incoming.count i = if a.wait.is_done then 1 else 0
  incoming : ∀ i ∈ s.incoming, i < s.sessions.length

theorem wellFormed_bind : bind.WellFormed where
  connections := rfl
  session i a h := by cases h
  incoming i h := by cases h

theorem connection_changes {a a' : Accepted} (h : Changes a a') : a'.connection = a.connection := by
  cases h <;> rfl

theorem is_done_changes {a a' : Accepted} (h : Changes a a') :
    a'.wait.is_done = a.wait.is_done := by
  cases h with
  | waits outcome hwait => rw [hwait]; rfl
  | _ => rfl

/-- A session is replaced by one of the same connection. -/
theorem map_connection_set {i : ℕ} {a a' : Accepted} (ha : s.sessions[i]? = some a)
    (hconnection : a'.connection = a.connection) :
    (s.sessions.set i a').map (·.connection) = s.sessions.map (·.connection) := by
  rw [List.map_set, hconnection]
  exact set_getElem?_self (by rw [List.getElem?_map, ha]; rfl)

theorem WellFormed.step {a : Action} (hs : s.WellFormed) (h : step from_str s a = some s') :
    s'.WellFormed := by
  cases step_effect h with
  | listened a listener hstep =>
    refine ⟨?_, fun i b hb => ?_, fun i hi => ?_⟩
    · dsimp only
      rw [accepted_step hstep, ← hs.connections]
      simp [Accepted.new, Function.comp_def]
    · rw [List.getElem?_append] at hb
      split at hb
      · exact hs.session i b hb
      · rename_i hlen
        obtain ⟨k, -, rfl⟩ := List.mem_map.1 (List.mem_of_getElem? hb)
        refine ⟨Accepted.wellFormed_new k, List.count_eq_zero_of_not_mem fun hi => ?_⟩
        exact hlen (hs.incoming i hi)
    · exact Nat.lt_of_lt_of_le (hs.incoming i hi) (by simp)
  | changed i a a' ha hchanges =>
    refine ⟨(map_connection_set ha (connection_changes hchanges)).trans hs.connections,
      fun j b hb => ?_, fun j hj => ?_⟩
    · rcases (getElem?_set_eq_some ha).1 hb with ⟨rfl, rfl⟩ | ⟨-, hb⟩
      · obtain ⟨hwf, hcount⟩ := hs.session i a ha
        exact ⟨hwf.changes hchanges, (is_done_changes hchanges).symm ▸ hcount⟩
      · exact hs.session j b hb
    · exact Nat.lt_of_lt_of_eq (hs.incoming j hj) List.length_set.symm
  | queued i a candidate ready ha hwait hready hcandidate =>
    refine ⟨(map_connection_set ha (by rfl)).trans hs.connections, fun j b hb => ?_, fun j hj => ?_⟩
    · change _ ∧ (s.incoming ++ [i]).count j = _
      rw [List.count_append, List.count_singleton]
      rcases (getElem?_set_eq_some ha).1 hb with ⟨rfl, rfl⟩ | ⟨hne, hb⟩
      · obtain ⟨hwf, hcount⟩ := hs.session i a ha
        rw [hcount, hwait]
        exact ⟨hwf.queued hready hcandidate, by simp [Wait.is_done]⟩
      · obtain ⟨hwf, hcount⟩ := hs.session j b hb
        rw [hcount]
        exact ⟨hwf, by simp [hne]⟩
    · have hlen : i < s.sessions.length := (List.getElem?_eq_some_iff.1 ha).1
      change j < (s.sessions.set i _).length
      rw [List.length_set]
      rcases List.mem_append.1 hj with hj | hj
      · exact hs.incoming j hj
      · exact List.mem_singleton.1 hj ▸ hlen

theorem wellFormed_of_run {as : List Action} (h : Transition.run (step from_str) bind as = some s) :
    s.WellFormed :=
  Transition.run_invariant (fun _ _ _ hs hstep => hs.step hstep) wellFormed_bind h

/-- What becomes of the notification and of the session `i`. -/
structure HandedOver (from_str : String → Option RTCIceCandidateInit) (s : Accept) (i : ℕ)
    (a : Accepted) : Prop where
  /-- The notification is sent once at most, when both channels are set. -/
  sent_once : a.sent.length ≤ 1
  sent_connected : ∀ channels ∈ a.sent, channels.is_fully_connected
  /-- It has been sent when calls of the handler for both slots have returned. -/
  sent : (∀ slot, a.Finished slot) → a.sent.length = 1
  /-- The session is queued once, when the task ends. -/
  queued_once : s.incoming.count i = if a.wait.is_done then 1 else 0
  /-- It is connected then, unless a wait has failed or timed out. -/
  connected : ∀ candidate ready channels, a.wait = .Done candidate ready channels →
    (ready = some .Received → channels.is_fully_connected) ∧ (ready = none → candidate = .Timeout)
  /-- The task can end. -/
  ends : ∃ as t b, Transition.run (step from_str) s as = some t ∧ t.sessions[i]? = some b ∧
    b.wait.is_done

/-- The waits time out. -/
theorem ends {i : ℕ} {a : Accepted} (ha : s.sessions[i]? = some a) :
    ∃ as t b, Transition.run (step from_str) s as = some t ∧ t.sessions[i]? = some b ∧
      b.wait.is_done := by
  have hqueue : ∀ candidate ready,
      (s.queue i a candidate ready).sessions[i]? =
        some { a with wait := .Done candidate ready a.channels } :=
    fun _ _ => (getElem?_set_eq_some ha).2 (.inl ⟨rfl, rfl⟩)
  rcases hwait : a.wait with _ | candidate | _
  · have hstep : step from_str s (.candidate i .Timeout) = some (s.queue i a .Timeout none) := by
      simp [step, ha, candidate, hwait, candidate_ends]
    exact ⟨[.candidate i .Timeout], _, _, Transition.run_cons_eq_some.2 ⟨_, hstep, rfl⟩,
      hqueue _ _, rfl⟩
  · have hstep : step from_str s (.ready i .Timeout) =
        some (s.queue i a candidate (some .Timeout)) := by
      simp [step, ha, ready, hwait, Accepted.ready_ends]
    exact ⟨[.ready i .Timeout], _, _, Transition.run_cons_eq_some.2 ⟨_, hstep, rfl⟩,
      hqueue _ _, rfl⟩
  · exact ⟨[], s, a, rfl, ha, by rw [hwait]; rfl⟩

/-- **The notification is sent once and the session queued once**: in every run, for the session of
every offer that was handled, whatever the order of the calls of its handler and however the waits
end. -/
theorem handed_over {as : List Action} (h : Transition.run (step from_str) bind as = some s) :
    s.sessions.map (·.connection) = s.listener.accepted ∧
      ∀ (i : ℕ) (a : Accepted), s.sessions[i]? = some a → s.HandedOver from_str i a := by
  have hs := wellFormed_of_run h
  refine ⟨hs.connections, fun i a ha => ?_⟩
  obtain ⟨hwf, hcount⟩ := hs.session i a ha
  refine ⟨?_, hwf.sent_connected, hwf.sent_of_finished, hcount, hwf.done, ends ha⟩
  rw [hwf.sent]
  split <;> decide

/-- An offer is handled, two calls of the handler run between each other's steps, and a candidate
arrives. -/
def interleaved : List Action :=
  [.listener (.signal (Signal.offer 5 "sdp" "9")), .listener (.call (.ok "")), .listener .proceed,
    .listener .proceed] ++
  List.replicate 5 (.listener (.call (.ok "sdp"))) ++
  [.listener .proceed, .on_data_channel 0 RELIABLE_CHANNEL 1,
    .on_data_channel 0 UNRELIABLE_CHANNEL 2, .callback 0 0, .callback 0 1, .callback 0 0,
    .callback 0 1, .callback 0 0, .callback 0 1, .callback 0 1, .callback 0 0,
    .listener (.signal (Signal.candidate 5 "host" "9")), .listener (.recv 0),
    .listener (.added 0 (.ok ())), .listener (.notify 0), .candidate 0 .Received,
    .ready 0 .Received]

theorem handed_over_interleaved : ∃ s : Accept,
    Transition.run (step fun _ => none) bind interleaved = some s ∧
      s.sessions.map (·.connection) = s.listener.accepted ∧
        ∀ (i : ℕ) (a : Accepted), s.sessions[i]? = some a →
          s.HandedOver (fun _ => none) i a := by
  have hrun : Transition.run (step fun _ => none) bind interleaved = some _ := rfl
  exact ⟨_, hrun, handed_over hrun⟩

end Accept

end Nethernet
