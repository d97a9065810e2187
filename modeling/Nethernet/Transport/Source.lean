import Nethernet.Transport.Effect

/-!
# Where what a listener has comes from

`Sourced`: in every run, the connections of a listener were created for offers that it has taken
from its signal stream, the candidates they have received are those of signals it has taken, and
what it has signalled are the answers of its connections and the candidates that they gathered. An
answer is final once it is signalled (`Answered`).
-/

namespace Nethernet

open Foundations

namespace Listener

variable {from_str : String → Option RTCIceCandidateInit}

/-- The signals that a step gives to the signaling implementation. -/
def emits (s : Listener) : Action → List Signal
  | .call (.ok _) =>
    match s.loop with
    | .calling i call => (s.connections[i]?).elim [] call.signals
    | _ => []
  | .on_ice_candidate i json => (s.connections[i]?).elim [] fun c =>
    [Signal.candidate c.connection_id json c.offer.network_id]
  | _ => []

/-- `handle_offer` is past the calls on the connection `i`. -/
def Answered (s : Listener) (i : ℕ) : Prop :=
  i < s.connections.length ∧ (s.loop.connection = some i → s.loop = .set_handlers i)

/-- A connection whose offer and candidates are among the signals `published`. -/
structure Connection.Sourced (from_str : String → Option RTCIceCandidateInit)
    (published : List Signal) (c : Connection) : Prop where
  offer : c.offer ∈ published ∧ c.offer.signal_type = .Offer
  received : ∀ x ∈ c.received from_str, ∃ signal ∈ published,
    signal.connection_id = c.connection_id ∧ signal.signal_type = .Candidate ∧
      x = candidate_init from_str signal.data

/-- What a listener has, when its stream has yielded only signals of `published`. -/
structure Sourced (from_str : String → Option RTCIceCandidateInit) (published : List Signal)
    (s : Listener) : Prop where
  creating : ∀ offer, s.loop = .new_peer_connection offer →
    offer ∈ published ∧ offer.signal_type = .Offer
  connections : ∀ (i : ℕ) (c : Connection), s.connections[i]? = some c →
    c.Sourced from_str published
  signalled : ∀ signal ∈ s.signalled, ∃ (i : ℕ) (c : Connection), s.connections[i]? = some c ∧
    (signal = Signal.answer c.connection_id c.answer c.offer.network_id ∧ s.Answered i ∨
      ∃ json, signal = Signal.candidate c.connection_id json c.offer.network_id)

/-! ## What a step signals, and the answers -/

variable {s s' : Listener} {a : Action}

/-- Where `handle_offer` is after a step: where it was, at a new connection, or at the next call on
the same one. -/
def Advances (s s' : Listener) : Prop :=
  ∀ i, s'.loop.connection = some i → s'.loop = s.loop ∨ s.connections.length ≤ i ∨
    s.loop.connection = some i ∧ s.loop ≠ .set_handlers i

theorem advances_of_idle (h : s'.loop.connection = none) : s.Advances s' := by
  intro i hi
  rw [h] at hi
  cases hi

/-- A step signals what it emits, and changes no answer but that which is being created. -/
structure Speaks (s : Listener) (a : Action) (s' : Listener) : Prop where
  signalled : s'.signalled = s.signalled ++ s.emits a
  answers : ∀ (k : ℕ) (c : Connection), s.connections[k]? = some c →
    ∃ c' : Connection, s'.connections[k]? = some c' ∧ c'.offer = c.offer ∧
      (c'.answer = c.answer ∨ s.loop = .calling k .create_answer)
  advances : s.Advances s'

theorem Speaks.of_connections (hloop : s.Advances s')
    (hsig : s'.signalled = s.signalled ++ s.emits a) (hconn : s'.connections = s.connections) :
    Speaks s a s' :=
  ⟨hsig, fun _ c hc => ⟨c, hconn ▸ hc, rfl, .inl rfl⟩, hloop⟩

theorem Speaks.of_set {i : ℕ} {c c' : Connection} (hc : s.connections[i]? = some c)
    (hconn : s'.connections = s.connections.set i c') (hoffer : c'.offer = c.offer)
    (hanswer : c'.answer = c.answer ∨ s.loop = .calling i .create_answer)
    (hloop : s.Advances s') (hsig : s'.signalled = s.signalled ++ s.emits a) : Speaks s a s' := by
  refine ⟨hsig, fun k d hd => ?_, hloop⟩
  rw [hconn]
  by_cases hik : i = k
  · subst hik
    obtain rfl := Option.some.inj (hc.symm.trans hd)
    exact ⟨c', (getElem?_set_eq_some hc).2 (.inl ⟨rfl, rfl⟩), hoffer, hanswer⟩
  · exact ⟨d, (getElem?_set_eq_some hc).2 (.inr ⟨hik, hd⟩), rfl, .inl rfl⟩

/-- A step of a connection that signals nothing, beside `handle_offer`. -/
theorem Speaks.quiet {i : ℕ} {c c' : Connection} (hc : s.connections[i]? = some c)
    (hconn : s'.connections = s.connections.set i c') (hoffer : c'.offer = c.offer)
    (hanswer : c'.answer = c.answer) (hloop : s'.loop = s.loop) (hsig : s'.signalled = s.signalled)
    (hemits : s.emits a = []) : Speaks s a s' :=
  .of_set hc hconn hoffer (.inl hanswer) (fun _ _ => .inl hloop)
    (by rw [hsig, hemits, List.append_nil])

theorem speaks_call {result : Except NethernetError String} (h : s.on_call result = some s') :
    Speaks s (.call result) s' := by
  rw [on_call] at h
  split at h
  · rename_i offer hloop
    cases result with
    | error e =>
      exact Option.some.inj h ▸ .of_connections (advances_of_idle rfl) (List.append_nil _).symm rfl
    | ok text =>
      obtain rfl := Option.some.inj h
      refine ⟨by simp [emits, hloop], fun k c hc => ⟨c, ?_, rfl, .inl rfl⟩, fun i hi => ?_⟩
      · exact getElem?_concat_eq_some.2 (.inl hc)
      · exact .inr (.inl (Option.some.inj hi).le)
  · rename_i i call hloop
    split at h
    · cases h
    · exact Option.some.inj h ▸ .of_connections (advances_of_idle rfl) (List.append_nil _).symm rfl
    · rename_i c text hc
      obtain rfl := Option.some.inj h
      refine .of_set hc rfl ?_ ?_ (fun k hk => ?_) (by simp [emits, hloop, hc])
      · cases call <;> rfl
      · cases call with
        | create_answer => exact .inr hloop
        | _ => exact .inl rfl
      · obtain rfl : i = k := by cases call <;> exact Option.some.inj hk
        exact .inr (.inr ⟨by rw [hloop]; rfl, by simp [hloop]⟩)
  · cases h

theorem speaks_proceed (h : s.proceed = some s') : Speaks s .proceed s' := by
  rw [proceed] at h
  split at h
  · rename_i i hloop
    obtain ⟨c, -, rfl⟩ := Option.map_eq_some_iff.1 h
    refine .of_connections (fun k hk => ?_) (List.append_nil _).symm rfl
    exact .inr (.inr ⟨by rw [hloop]; exact hk, by simp [hloop]⟩)
  · rename_i i hloop
    obtain ⟨c, hc, rfl⟩ := Option.map_eq_some_iff.1 h
    refine .of_set hc rfl rfl (.inl rfl) (fun k hk => ?_) (List.append_nil _).symm
    exact .inr (.inr ⟨by rw [hloop]; exact hk, by simp [hloop]⟩)
  · obtain ⟨c, hc, rfl⟩ := Option.map_eq_some_iff.1 h
    exact .of_set hc rfl rfl (.inl rfl) (advances_of_idle rfl) (List.append_nil _).symm
  · cases h

theorem speaks_signal {signal : Signal} (h : s.on_signal signal = some s') :
    Speaks s (.signal signal) s' := by
  rw [on_signal] at h
  split at h
  · split at h
    · exact Option.some.inj h ▸ .of_connections (advances_of_idle rfl) (List.append_nil _).symm rfl
    · obtain rfl := Option.some.inj h
      rw [dispatch]
      split
      · exact .of_connections (fun _ _ => .inl rfl) (List.append_nil _).symm rfl
      · split
        · exact .of_connections (fun _ _ => .inl rfl) (List.append_nil _).symm rfl
        · rename_i c hc
          exact .quiet hc rfl rfl rfl rfl rfl rfl
  · cases h

/-- The tasks of the connections signal nothing, and change no answer. -/
theorem speaks_step (h : step from_str s a = some s') : Speaks s a s' := by
  cases a with
  | signal signal => exact speaks_signal h
  | stop =>
    obtain ⟨-, h⟩ := Option.ite_none_right_eq_some.1 h
    exact Option.some.inj h ▸ .of_connections (advances_of_idle rfl) (List.append_nil _).symm rfl
  | call result => exact speaks_call h
  | proceed => exact speaks_proceed h
  | recv i =>
    obtain ⟨c, hc, h⟩ := Option.bind_eq_some_iff.1 h
    obtain ⟨-, h⟩ := Option.ite_none_right_eq_some.1 h
    split at h
    · split at h <;>
        exact Option.some.inj h ▸ .quiet hc rfl rfl rfl rfl rfl rfl
    · obtain ⟨-, h⟩ := Option.ite_none_left_eq_some.1 h
      exact Option.some.inj h ▸ .quiet hc rfl rfl rfl rfl rfl rfl
  | added i result =>
    obtain ⟨c, hc, h⟩ := Option.bind_eq_some_iff.1 h
    obtain ⟨-, h⟩ := Option.ite_none_right_eq_some.1 h
    split at h
    · exact Option.some.inj h ▸ .quiet hc rfl rfl rfl rfl rfl rfl
    · split at h <;>
        exact Option.some.inj h ▸ .quiet hc rfl rfl rfl rfl rfl rfl
  | notify i | clean_dispatchers i | clean_notifiers i =>
    obtain ⟨c, hc, h⟩ := Option.bind_eq_some_iff.1 h
    obtain ⟨-, h⟩ := Option.ite_none_right_eq_some.1 h
    exact Option.some.inj h ▸ .quiet hc rfl rfl rfl rfl rfl rfl
  | change i state =>
    obtain ⟨c, hc, h⟩ := Option.bind_eq_some_iff.1 h
    obtain ⟨-, h⟩ := Option.ite_none_left_eq_some.1 h
    exact Option.some.inj h ▸ .quiet hc rfl rfl rfl rfl rfl rfl
  | handle i =>
    obtain ⟨c, hc, h⟩ := Option.bind_eq_some_iff.1 h
    unfold handle at h
    split at h
    · cases h
    · obtain rfl := Option.some.inj h
      split <;> exact .quiet hc rfl rfl rfl rfl rfl rfl
  | on_ice_candidate i json =>
    obtain ⟨c, hc, rfl⟩ := Option.map_eq_some_iff.1 h
    exact .of_connections (fun _ _ => .inl rfl) (by simp [emits, hc, on_ice_candidate]) rfl

/-! ## What holds in every run -/

theorem Answered.step {i : ℕ} (hi : s.Answered i) (h : Listener.step from_str s a = some s') :
    s'.Answered i := by
  have hspeaks := speaks_step h
  obtain ⟨c', hc', -⟩ := hspeaks.answers i _ (List.getElem?_eq_getElem hi.1)
  refine ⟨(List.getElem?_eq_some_iff.1 hc').1, fun hconn => ?_⟩
  rcases hspeaks.advances i hconn with hloop | hlen | ⟨hconn', hnot⟩
  · rw [hloop] at hconn ⊢
    exact hi.2 hconn
  · exact absurd hi.1 (Nat.not_lt.2 hlen)
  · exact absurd (hi.2 hconn') hnot

/-- A connection after a step: its answer stays, once it is settled. -/
theorem connection_step {i : ℕ} {c : Connection} (hc : s.connections[i]? = some c)
    (h : Listener.step from_str s a = some s') :
    ∃ c' : Connection, s'.connections[i]? = some c' ∧ c'.offer = c.offer ∧
      (s.Answered i → c'.answer = c.answer) := by
  obtain ⟨c', hc', hoffer, hanswer⟩ := (speaks_step h).answers i c hc
  refine ⟨c', hc', hoffer, fun hi => hanswer.resolve_right fun hloop => ?_⟩
  have hnot := hi.2 (by rw [hloop]; rfl)
  cases hloop.symm.trans hnot

theorem Sourced.mono {published published' : List Signal} (hs : s.Sourced from_str published)
    (hsub : published ⊆ published') : s.Sourced from_str published' where
  creating offer ho := ⟨hsub (hs.creating offer ho).1, (hs.creating offer ho).2⟩
  connections i c hc := by
    obtain ⟨hoffer, hreceived⟩ := hs.connections i c hc
    refine ⟨⟨hsub hoffer.1, hoffer.2⟩, fun x hx => ?_⟩
    obtain ⟨signal, hmem, hsignal⟩ := hreceived x hx
    exact ⟨signal, hsub hmem, hsignal⟩
  signalled := hs.signalled

theorem sourced_bind : bind.Sourced from_str [] where
  creating offer ho := by cases ho
  connections i c hc := by simp [bind] at hc
  signalled signal hmem := by cases hmem

theorem Connection.Sourced.of_eq {published : List Signal} {c d : Connection}
    (hd : d.Sourced from_str published) (hoffer : c.offer = d.offer)
    (hreceived : c.received from_str = d.received from_str) : c.Sourced from_str published where
  offer := hoffer ▸ hd.offer
  received x hx := by
    rw [Connection.connection_id, hoffer]
    exact hd.received x (hreceived ▸ hx)

/-- A signal that is dispatched to a connection is for it. -/
theorem Connection.Sourced.queue {published : List Signal} {c : Connection}
    (hc : c.Sourced from_str published) {signal : Signal} (hsignal : signal ∈ published)
    (hid : signal.connection_id = c.connection_id) :
    ({ c with queue := c.queue ++ [signal] } : Connection).Sourced from_str published where
  offer := hc.offer
  received x hx := by
    rw [Connection.received, List.filter_append, List.map_append, ← List.append_assoc] at hx
    rcases List.mem_append.1 hx with hold | hnew
    · exact hc.received x hold
    · obtain ⟨signal', hmem, rfl⟩ := List.mem_map.1 hnew
      obtain ⟨hmem, htype⟩ := List.mem_filter.1 hmem
      obtain rfl := List.mem_singleton.1 hmem
      exact ⟨signal', hsignal, hid, of_decide_eq_true htype, rfl⟩

section Step

variable {published : List Signal}

theorem Sourced.on_signal (hs : s.Sourced from_str published) (hwf : s.WellFormed)
    {signal : Signal} (hsignal : signal ∈ published) (h : s.on_signal signal = some s')
    (i : ℕ) (c : Connection) (hc : s'.connections[i]? = some c) : c.Sourced from_str published := by
  rw [Listener.on_signal] at h
  split at h
  · split at h
    · obtain rfl := Option.some.inj h
      exact hs.connections i c hc
    · obtain rfl := Option.some.inj h
      rw [dispatch] at hc
      split at hc
      · exact hs.connections i c hc
      · rename_i j hentry
        split at hc
        · exact hs.connections i c hc
        · rename_i d hd
          change (s.connections.set j _)[i]? = some c at hc
          rw [getElem?_set_eq_some hd] at hc
          rcases hc with ⟨rfl, rfl⟩ | ⟨-, hc⟩
          · obtain ⟨e, he, hid, -⟩ := hwf.entry _ _ hentry
            obtain rfl := Option.some.inj (hd.symm.trans he)
            exact (hs.connections j d hd).queue hsignal hid.symm
          · exact hs.connections i c hc
  · cases h

/-- The connections after a step. -/
theorem Sourced.connection (hs : s.Sourced from_str published) (hwf : s.WellFormed)
    (ha : ∀ signal, a = .signal signal → signal ∈ published)
    (h : Listener.step from_str s a = some s') (i : ℕ) (c : Connection)
    (hc : s'.connections[i]? = some c) : c.Sourced from_str published := by
  by_cases hsignal : ∃ signal, a = .signal signal
  · obtain ⟨signal, rfl⟩ := hsignal
    exact hs.on_signal hwf (ha signal rfl) h i c hc
  cases step_effect h with
  | idle hconn => exact hs.connections i c (hconn ▸ hc)
  | evolve j d d' hd hev hconn =>
    rw [hconn, getElem?_set_eq_some hd] at hc
    rcases hc with ⟨rfl, rfl⟩ | ⟨-, hc⟩
    · refine (hs.connections j d hd).of_eq hev.offer (hev.received fun signal h => ?_)
      exact absurd ⟨signal, h⟩ hsignal
    · exact hs.connections i c hc
  | create offer hloop hconn =>
    rw [hconn, getElem?_concat_eq_some] at hc
    rcases hc with hc | ⟨-, rfl⟩
    · exact hs.connections i c hc
    · exact ⟨hs.creating offer hloop, nofun⟩
  | register j d _ _ hd hconn | accept j d _ hd hconn =>
    rw [hconn, getElem?_set_eq_some hd] at hc
    rcases hc with ⟨rfl, rfl⟩ | ⟨-, hc⟩
    · exact (hs.connections j d hd).of_eq rfl rfl
    · exact hs.connections i c hc

/-- The signals that a step emits are those of a connection. -/
theorem of_mem_emits (h : Listener.step from_str s a = some s') {signal : Signal}
    (hsignal : signal ∈ s.emits a) :
    ∃ (i : ℕ) (c : Connection), s'.connections[i]? = some c ∧
      (signal = Signal.answer c.connection_id c.answer c.offer.network_id ∧ s'.Answered i ∨
        ∃ json, signal = Signal.candidate c.connection_id json c.offer.network_id) := by
  unfold emits at hsignal
  split at hsignal
  · rename_i text
    split at hsignal
    · rename_i i call hloop
      rcases hc : s.connections[i]? with _ | c
      · simp [hc] at hsignal
      · simp only [hc, Option.elim_some] at hsignal
        cases call with
        | signal_answer =>
          obtain rfl := List.mem_singleton.1 hsignal
          simp only [step, on_call, hloop, hc, Option.some.injEq] at h
          subst h
          have hc' : (s.connections.set i c)[i]? = some c :=
            (getElem?_set_eq_some hc).2 (.inl ⟨rfl, rfl⟩)
          refine ⟨i, c, hc', .inl ⟨rfl, (List.getElem?_eq_some_iff.1 hc').1, fun _ => rfl⟩⟩
        | _ => cases hsignal
    · cases hsignal
  · rename_i i json
    obtain ⟨c, hc, rfl⟩ := Option.map_eq_some_iff.1 h
    rw [hc] at hsignal
    obtain rfl := List.mem_singleton.1 hsignal
    exact ⟨i, c, hc, .inr ⟨json, rfl⟩⟩
  · cases hsignal

/-- **What a step keeps**, where the stream yields a signal of `published`. -/
theorem Sourced.step (hs : s.Sourced from_str published) (hwf : s.WellFormed)
    (ha : ∀ signal, a = .signal signal → signal ∈ published)
    (h : Listener.step from_str s a = some s') : s'.Sourced from_str published where
  creating offer ho := by
    cases step_effect h with
    | idle _ _ _ _ _ hnew =>
      rcases hnew offer ho with hold | ⟨rfl, htype⟩
      · exact hs.creating offer hold
      · exact ⟨ha offer rfl, htype⟩
    | evolve _ _ _ _ _ _ _ _ _ _ hnew => exact hs.creating offer (hnew offer ho)
    | create _ _ _ _ _ hloop' | register _ _ _ _ _ _ _ _ hloop' | accept _ _ _ _ _ _ _ hloop' =>
      cases hloop'.symm.trans ho
  connections := hs.connection hwf ha h
  signalled signal hmem := by
    rw [(speaks_step h).signalled] at hmem
    rcases List.mem_append.1 hmem with hold | hnew
    · obtain ⟨i, c, hc, hsignal⟩ := hs.signalled signal hold
      obtain ⟨c', hc', hoffer, hanswer⟩ := connection_step hc h
      refine ⟨i, c', hc', ?_⟩
      rw [Connection.connection_id, hoffer]
      rcases hsignal with ⟨hsignal, hi⟩ | hsignal
      · exact .inl ⟨(hanswer hi).symm ▸ hsignal, hi.step h⟩
      · exact .inr hsignal
    · exact of_mem_emits h hnew

end Step

end Listener

end Nethernet
