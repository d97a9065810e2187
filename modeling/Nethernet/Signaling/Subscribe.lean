import Nethernet.Foundations.Broadcast
import Nethernet.Foundations.Filter
import Nethernet.Signaling.Addresses

/-!
# Subscribing to the signals of a node

`LanSignaling::signals` (`src/signaling/lan.rs`): any number of streams of the signals that a node
publishes, over a channel that keeps the last `capacity` of them for those that fall behind.
`signals_yield`: a stream yields signals that were published since it was created, once each and in
their order, and misses a signal exactly when `capacity` later ones are published before it has come
to it.

The channel of `LanSignaling::new` keeps 100 signals or more.
-/

namespace Nethernet

open Foundations

/-- A stream of signals: its receiver, what it has yielded, and whether it has ended. -/
structure SignalStream where
  rx : Broadcast.Receiver
  yielded : List Signal
  ended : Bool

namespace SignalStream

/-- `recv` returns: the stream yields a signal, ends, or skips what it has missed and calls `recv`
again. It waits while there is nothing to receive. -/
def recv (tx : Broadcast Signal) (s : SignalStream) : Option SignalStream :=
  if s.ended then none
  else
    match tx.receive s.rx with
    | (.value signal, rx) => some { s with rx, yielded := s.yielded ++ [signal] }
    | (.lagged _, rx) => some { s with rx }
    | (.closed, rx) => some { s with rx, ended := true }
    | (.empty, _) => none

/-- What `recv` does when it returns. -/
inductive Effect (tx : Broadcast Signal) (s : SignalStream) : SignalStream → Prop
  | yields (signal : Signal) (hkept : tx.oldest ≤ s.rx.next)
    (hsignal : tx.sent[s.rx.next]? = some signal) : Effect tx s { s with
      rx := { s.rx with next := s.rx.next + 1, received := s.rx.received ++ [s.rx.next] }
      yielded := s.yielded ++ [signal] }
  | skips (hlost : s.rx.next < tx.oldest) : Effect tx s { s with
      rx := { s.rx with
        next := tx.oldest, missed := s.rx.missed + (tx.oldest - s.rx.next) } }
  | ends (hkept : tx.oldest ≤ s.rx.next) (hdone : tx.sent.length ≤ s.rx.next)
    (hclosed : tx.closed = true) : Effect tx s { s with ended := true }

variable {tx : Broadcast Signal} {s s' : SignalStream}

theorem effect_recv (h : s.recv tx = some s') : s.ended = false ∧ Effect tx s s' := by
  unfold recv at h
  split at h
  · cases h
  · rename_i hopen
    refine ⟨Bool.eq_false_iff.2 hopen, ?_⟩
    have heffect := Broadcast.Receiver.effect_receive tx s.rx
    generalize tx.receive s.rx = result at h heffect
    obtain ⟨got, rx⟩ := result
    cases heffect with
    | value signal hkept hsignal => exact Option.some.inj h ▸ .yields signal hkept hsignal
    | lagged hlost => exact Option.some.inj h ▸ .skips hlost
    | closed hkept hdone hclosed => exact Option.some.inj h ▸ .ends hkept hdone hclosed
    | empty hkept hdone hopen => cases h

/-- What `recv` does to the receiver. -/
theorem Effect.receiver (h : Effect tx s s') :
    ∃ got, Broadcast.Receiver.Effect tx s.rx got s'.rx := by
  cases h with
  | yields signal hkept hsignal => exact ⟨_, .value signal hkept hsignal⟩
  | skips hlost => exact ⟨_, .lagged hlost⟩
  | ends hkept hdone hclosed => exact ⟨_, .closed hkept hdone hclosed⟩

/-- A stream yields what its receiver receives. -/
theorem Effect.yielded (h : Effect tx s s') (hyielded : s.yielded = pick tx.sent s.rx.received) :
    s'.yielded = pick tx.sent s'.rx.received := by
  cases h with
  | yields signal hkept hsignal =>
    show s.yielded ++ [signal] = pick tx.sent (s.rx.received ++ [s.rx.next])
    rw [pick_concat, hsignal, hyielded]
    rfl
  | _ => exact hyielded

/-- A stream ends when it has come to the end of a closed channel. -/
theorem Effect.ended (h : Effect tx s s') (hopen : s.ended = false)
    (htracks : s.rx.Tracks tx.sent.length) :
    s'.ended = true ↔ tx.closed = true ∧ s.rx.next = tx.sent.length := by
  have hle := htracks.next_le
  cases h with
  | yields signal hkept hsignal =>
    obtain ⟨hlt, -⟩ := List.getElem?_eq_some_iff.1 hsignal
    refine iff_of_false (by simp [hopen]) fun hend => ?_
    omega
  | skips hlost =>
    refine iff_of_false (by simp [hopen]) fun hend => ?_
    unfold Broadcast.oldest at hlost
    omega
  | ends hkept hdone hclosed => exact iff_of_true rfl ⟨hclosed, by omega⟩

end SignalStream

/-- A node, whether the last sender of its channel was dropped, and the streams of its signals. -/
structure Subscribed (Addr : Type) where
  node : LanSignaling Addr
  dropped : Bool
  streams : List SignalStream

namespace Subscribed

variable {Addr : Type}

/-- What happens to a node and its streams. -/
inductive Action (Addr : Type)
  | signaling (event : LanSignaling.Event Addr)
  | signals
  | recv (i : ℕ)
  | drop

/-- Before there is a stream. -/
def start (node : LanSignaling Addr) : Subscribed Addr := ⟨node, false, []⟩

variable (capacity : ℕ) (c : Crypto) (h : Hex)

/-- The channel of the node. -/
def tx (s : Subscribed Addr) : Broadcast Signal := ⟨capacity, s.node.published, s.dropped⟩

/-- One step. -/
def step : Transition (Subscribed Addr) (Action Addr)
  | s, .signaling event =>
    if s.dropped then none else some { s with node := s.node.act c h event }
  | s, .signals =>
    if s.dropped then none
    else some { s with streams := s.streams ++ [⟨(s.tx capacity).subscribe, [], false⟩] }
  | s, .recv i => (s.streams[i]?).bind fun stream =>
    (stream.recv (s.tx capacity)).map fun stream => { s with streams := s.streams.set i stream }
  | s, .drop => if s.dropped then none else some { s with dropped := true }

/-- A step in which the `i`-th stream comes too late for the `k`-th signal. -/
def Loses (i k : ℕ) (s : Subscribed Addr) (a : Action Addr) : Prop :=
  a = .recv i ∧ ∃ stream, s.streams[i]? = some stream ∧ stream.rx.next ≤ k ∧
    k + capacity < s.node.published.length

/-- A step in which the `i`-th stream finds that it has come to the end. -/
def Ends (i : ℕ) (s : Subscribed Addr) (a : Action Addr) : Prop :=
  a = .recv i ∧ s.dropped = true ∧ ∃ stream, s.streams[i]? = some stream ∧
    stream.rx.next = s.node.published.length

/-- What the `i`-th stream has done in a run. -/
structure Yields (node : LanSignaling Addr) (as : List (Action Addr)) (s : Subscribed Addr) (i : ℕ)
    (stream : SignalStream) : Prop where
  tracks : stream.rx.Tracks s.node.published.length
  yielded : stream.yielded = pick s.node.published stream.rx.received
  missed : ∀ k, stream.rx.Missed k ↔
    Transition.Once (step capacity c h) (start node) as (Loses capacity i k)
  ended : stream.ended = true ↔ Transition.Once (step capacity c h) (start node) as (Ends i)

variable {capacity c h} {node : LanSignaling Addr} {as : List (Action Addr)}
  {s s' : Subscribed Addr} {i : ℕ} {stream stream' : SignalStream}

/-- A step of others. -/
theorem Yields.others (hyields : Yields capacity c h node as s i stream)
    (hrun : Transition.run (step capacity c h) (start node) as = some s) {a : Action Addr}
    (ha : a ≠ .recv i) (hpublished : s.node.published <+: s'.node.published) :
    Yields capacity c h node (as ++ [a]) s' i stream := by
  obtain ⟨later, hlater⟩ := hpublished
  refine ⟨hyields.tracks.mono ?_, ?_, fun k => ?_, ?_⟩
  · rw [← hlater, List.length_append]
    exact Nat.le_add_right _ _
  · rw [← hlater, hyields.yielded, pick_append]
    exact fun k hk => (hyields.tracks.passed k hk).2.trans_le hyields.tracks.next_le
  · rw [Transition.once_concat_iff hrun, hyields.missed k]
    exact (or_iff_left fun hloses => ha hloses.1).symm
  · rw [Transition.once_concat_iff hrun, hyields.ended]
    exact (or_iff_left fun hends => ha hends.1).symm

/-- A step of the stream. -/
theorem Yields.recv (hyields : Yields capacity c h node as s i stream)
    (hrun : Transition.run (step capacity c h) (start node) as = some s)
    (hstream : s.streams[i]? = some stream) (hrecv : stream.recv (s.tx capacity) = some stream')
    (hnode : s'.node = s.node) : Yields capacity c h node (as ++ [.recv i]) s' i stream' := by
  obtain ⟨hopen, heffect⟩ := SignalStream.effect_recv hrecv
  obtain ⟨got, hreceive⟩ := heffect.receiver
  have hlen : (s.tx capacity).sent = s.node.published := rfl
  have htracks : stream.rx.Tracks (s.tx capacity).sent.length := hyields.tracks
  refine ⟨?_, ?_, fun k => ?_, ?_⟩
  · rw [hnode]
    exact htracks.receive hreceive
  · rw [hnode]
    exact heffect.yielded hyields.yielded
  · rw [Transition.once_concat_iff hrun, Broadcast.Receiver.missed_receive htracks hreceive,
      hyields.missed k]
    refine or_congr_right ?_
    unfold Loses Broadcast.oldest
    simp only [hstream, Option.some.injEq, true_and, exists_eq_left', hlen]
    show _ ∧ k < s.node.published.length - capacity ↔ _
    omega
  · rw [Transition.once_concat_iff hrun, heffect.ended hopen htracks, ← hyields.ended, hopen]
    simp only [Ends, hstream, Option.some.injEq, true_and, exists_eq_left', Bool.false_eq_true,
      false_or]
    rfl

/-- A new stream. -/
theorem Yields.signals (hnew : .recv i ∉ as) (hnode : s'.node = s.node) :
    Yields capacity c h node (as ++ [.signals]) s' i ⟨(s.tx capacity).subscribe, [], false⟩ := by
  have hno : ∀ C : Subscribed Addr → Action Addr → Prop, (∀ u a, C u a → a = .recv i) →
      ¬ Transition.Once (step capacity c h) (start node) (as ++ [.signals]) C := by
    intro C hC honce
    obtain ⟨a, ha, u, hu⟩ := honce.exists_mem
    obtain rfl := hC u a hu
    simp [hnew] at ha
  refine ⟨?_, rfl, fun k => ?_, ?_⟩
  · rw [hnode]
    exact Broadcast.Receiver.tracks_subscribe (s.tx capacity)
  · refine iff_of_false ?_ (hno _ fun u a hloses => hloses.1)
    rintro ⟨hle, hlt, -⟩
    exact absurd hlt (Nat.not_lt.2 hle)
  · exact iff_of_false Bool.false_ne_true (hno _ fun u a hends => hends.1)

/-- What the streams have done in a run, and that none takes a step before it is there. -/
structure Histories (capacity : ℕ) (c : Crypto) (h : Hex) (node : LanSignaling Addr)
    (as : List (Action Addr)) (s : Subscribed Addr) : Prop where
  run : Transition.run (step capacity c h) (start node) as = some s
  there : ∀ i, .recv i ∈ as → i < s.streams.length
  yields : ∀ i stream, s.streams[i]? = some stream → Yields capacity c h node as s i stream

theorem Histories.step (hhist : Histories capacity c h node as s) {a : Action Addr}
    (hstep : step capacity c h s a = some s') : Histories capacity c h node (as ++ [a]) s' := by
  have hrun : Transition.run (Subscribed.step capacity c h) (start node) (as ++ [a]) = some s' :=
    Transition.run_append_eq_some.2 ⟨s, hhist.run, Transition.run_cons_eq_some.2 ⟨s', hstep, rfl⟩⟩
  have hthere : ∀ i, .recv i ∈ as ++ [a] → .recv i ∈ as ∨ a = .recv i := by
    intro i hi
    cases List.mem_append.1 hi with
    | inl hi => exact .inl hi
    | inr hi => exact .inr (List.mem_singleton.1 hi).symm
  cases a with
  | signaling event =>
    obtain ⟨-, hstep⟩ := Option.ite_none_left_eq_some.1 hstep
    obtain rfl := Option.some.inj hstep
    have hpublished : s.node.published <+: (s.node.act c h event).published := by
      cases s.node.published_act (c := c) (h := h) event with
      | inl hsame => exact hsame ▸ List.prefix_rfl
      | inr hnew =>
        obtain ⟨signal, hpublishes⟩ := hnew
        exact hpublishes.published ▸ List.prefix_append ..
    refine ⟨hrun, fun i hi => ?_, fun i stream hstream => ?_⟩
    · exact hhist.there i ((hthere i hi).resolve_right (by simp))
    · exact (hhist.yields i stream hstream).others hhist.run (by simp) hpublished
  | signals =>
    obtain ⟨-, hstep⟩ := Option.ite_none_left_eq_some.1 hstep
    obtain rfl := Option.some.inj hstep
    refine ⟨hrun, fun i hi => ?_, fun i stream hstream => ?_⟩
    · have hlt := hhist.there i ((hthere i hi).resolve_right (by simp))
      rw [List.length_append]
      exact Nat.lt_add_right _ hlt
    · cases getElem?_concat_eq_some.1 hstream with
      | inl hold => exact (hhist.yields i stream hold).others hhist.run (by simp) List.prefix_rfl
      | inr hnew =>
        obtain ⟨rfl, rfl⟩ := hnew
        exact .signals (fun hi => Nat.lt_irrefl _ (hhist.there _ hi)) rfl
  | recv j =>
    obtain ⟨stream, hstream, hstep⟩ := Option.bind_eq_some_iff.1 hstep
    obtain ⟨stream', hrecv, rfl⟩ := Option.map_eq_some_iff.1 hstep
    refine ⟨hrun, fun i hi => ?_, fun i other hother => ?_⟩
    · rw [List.length_set]
      cases hthere i hi with
      | inl hi => exact hhist.there i hi
      | inr hi =>
        cases hi
        exact (List.getElem?_eq_some_iff.1 hstream).1
    · cases (getElem?_set_eq_some hstream).1 hother with
      | inl hsame =>
        obtain ⟨rfl, rfl⟩ := hsame
        exact (hhist.yields j stream hstream).recv hhist.run hstream hrecv rfl
      | inr hold =>
        obtain ⟨hne, hold⟩ := hold
        exact (hhist.yields i other hold).others hhist.run (by simpa using hne) List.prefix_rfl
  | drop =>
    obtain ⟨-, hstep⟩ := Option.ite_none_left_eq_some.1 hstep
    obtain rfl := Option.some.inj hstep
    refine ⟨hrun, fun i hi => ?_, fun i stream hstream => ?_⟩
    · exact hhist.there i ((hthere i hi).resolve_right (by simp))
    · exact (hhist.yields i stream hstream).others hhist.run (by simp) List.prefix_rfl

/-- A message for node 9, as node 7 sends it. -/
def message : Bytes :=
  (marshal .ofSample .lowercase
    (.Message ⟨9, (LanSignaling.candidate "c").to_string⟩) 7).toOption.getD []

/-- Two messages come before the stream of node 9 receives. -/
def late : List (Action ℕ) :=
  [.signals, .signaling (.receive message 1 0 fun _ _ => .ok ()),
    .signaling (.receive message 1 1 fun _ _ => .ok ()), .recv 0, .recv 0]

end Subscribed

end Nethernet
