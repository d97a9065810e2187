import Nethernet.Signaling.Addresses
import Nethernet.Transport.Failure

/-!
# Binding a listener

`NethernetListener::bind` and `start_signal_handler` (`src/transport/listener.rs`) over
`LanSignaling` (`src/signaling/lan.rs`): `bind` spawns the signal handler and returns, and the
handler subscribes to the signals when it first runs. The broadcast channel gives a signal to those
that are subscribed when it is published. `passed_iff`: no offer that is published after `bind` has
returned is missed exactly when none is published before the handler has subscribed.

The listener is not dropped, so its handler is not cancelled, and the handler does not lag.
-/

namespace Nethernet

open Foundations

/-- Where the caller of `bind` is. -/
inductive Caller
  | Called
  /-- The signal handler has been spawned. -/
  | Spawned
  /-- `bind` has returned, when so many signals had been published. -/
  | Returned (published : ℕ)
  deriving DecidableEq, Repr

/-- The node that a listener is bound to, the caller, the handler's receiver and the listener. A
signal is named by its number among those published. -/
structure Bind (Addr : Type) where
  node : LanSignaling Addr
  caller : Caller
  /-- The signals that the receiver holds, once the handler has subscribed. -/
  signals : Option (List ℕ)
  listener : Listener
  /-- The offers passed to `handle_offer`. -/
  handled : List ℕ

namespace Bind

variable {Addr : Type}

/-- The steps of the node, of the caller and of the tasks of the listener. -/
inductive Action (Addr : Type)
  | signaling (event : LanSignaling.Event Addr)
  | spawn
  | returns
  /-- The handler subscribes, takes the next signal, or a task of the listener takes a step. -/
  | subscribe
  | take
  | listener (a : Listener.Action)

/-- `bind` is called on a node. -/
def start (node : LanSignaling Addr) : Bind Addr := ⟨node, .Called, none, .bind, []⟩

variable (c : Crypto) (h : Hex) (from_str : String → Option RTCIceCandidateInit)

/-- The node goes on, and what it publishes goes to the receiver. -/
def signaling (s : Bind Addr) (event : LanSignaling.Event Addr) : Bind Addr :=
  let node := s.node.act c h event
  { s with
    node := node
    signals := s.signals.map fun signals => signals ++
      List.range' s.node.published.length (node.published.length - s.node.published.length) }

/-- The handler takes the next signal. -/
def take (s : Bind Addr) : Option (Bind Addr) :=
  match s.signals with
  | some (n :: signals) =>
    (s.node.published[n]?).bind fun signal =>
      (Listener.step from_str s.listener (.signal signal)).map fun listener => { s with
        signals := some signals, listener := listener
        handled := if signal.signal_type = .Offer then s.handled ++ [n] else s.handled }
  | _ => none

/-- One step. -/
def step : Transition (Bind Addr) (Action Addr)
  | s, .signaling event => some (s.signaling c h event)
  | s, .spawn => if s.caller = .Called then some { s with caller := .Spawned } else none
  | s, .returns =>
    if s.caller = .Spawned then some { s with caller := .Returned s.node.published.length }
    else none
  | s, .subscribe =>
    if s.caller ≠ .Called ∧ s.signals = none then some { s with signals := some [] } else none
  | s, .take => s.take from_str
  | _, .listener (.signal _) | _, .listener .stop => none
  | s, .listener a =>
    (Listener.step from_str s.listener a).map fun listener => { s with listener := listener }

/-! ## Offers that are due -/

/-- The signal is an offer that was published after `bind` returned. -/
def Due (s : Bind Addr) (n : ℕ) : Prop :=
  ∃ k signal, s.caller = .Returned k ∧ k ≤ n ∧ s.node.published[n]? = some signal ∧
    signal.signal_type = .Offer

/-- The handler has subscribed, has no signal left to take and waits for the next. -/
def Quiet (s : Bind Addr) : Prop := s.signals = some [] ∧ s.listener.loop = .Waiting

/-- The steps of the tasks of the listener. -/
def Action.of_handler : Action Addr → Bool
  | subscribe | take | listener _ => true
  | _ => false

/-- The offer is passed to `handle_offer`: the handler gets to a point at which it has nothing left
to take, and whenever it is there, the offer has been passed. -/
def Passed (s : Bind Addr) (n : ℕ) : Prop :=
  (∃ as t, (∀ a ∈ as, a.of_handler) ∧ Transition.run (step c h from_str) s as = some t ∧ t.Quiet) ∧
    ∀ as t, Transition.run (step c h from_str) s as = some t → t.Quiet → n ∈ t.handled

/-- An offer is published after `bind` has returned, and before the handler has subscribed. -/
def Misses (s : Bind Addr) : Action Addr → Prop
  | .signaling event => (∃ k, s.caller = .Returned k) ∧ s.signals = none ∧
      ∃ signal ∈ (s.node.act c h event).published.drop s.node.published.length,
        signal.signal_type = .Offer
  | _ => False

/-- The signal has been passed to `handle_offer`, or the receiver holds it. -/
def Kept (s : Bind Addr) (n : ℕ) : Prop :=
  n ∈ s.handled ∨ ∃ signals, s.signals = some signals ∧ n ∈ signals

variable {c h from_str}

/-- What a step does. -/
inductive Effect (c : Crypto) (h : Hex) (from_str : String → Option RTCIceCandidateInit)
    (s : Bind Addr) : Action Addr → Bind Addr → Prop
  | signaled (event : LanSignaling.Event Addr) :
    Effect c h from_str s (.signaling event) (s.signaling c h event)
  | spawned (hcaller : s.caller = .Called) :
    Effect c h from_str s .spawn { s with caller := .Spawned }
  | returned (hcaller : s.caller = .Spawned) :
    Effect c h from_str s .returns { s with caller := .Returned s.node.published.length }
  | subscribed (hcaller : s.caller ≠ .Called) (hsignals : s.signals = none) :
    Effect c h from_str s .subscribe { s with signals := some [] }
  | took (n : ℕ) (signals : List ℕ) (signal : Signal) (listener : Listener)
    (hsignals : s.signals = some (n :: signals)) (hsignal : s.node.published[n]? = some signal)
    (hstep : Listener.step from_str s.listener (.signal signal) = some listener) :
    Effect c h from_str s .take { s with
      signals := some signals, listener := listener
      handled := if signal.signal_type = .Offer then s.handled ++ [n] else s.handled }
  | listened (a : Listener.Action) (listener : Listener) (hstop : a ≠ .stop)
    (hstep : Listener.step from_str s.listener a = some listener) :
    Effect c h from_str s (.listener a) { s with listener := listener }

section Steps

variable {s s' : Bind Addr} {a : Action Addr}

theorem take_eq_some : s.take from_str = some s' ↔ ∃ n signals signal listener,
    s.signals = some (n :: signals) ∧ s.node.published[n]? = some signal ∧
      Listener.step from_str s.listener (.signal signal) = some listener ∧ s' = { s with
        signals := some signals, listener := listener
        handled := if signal.signal_type = .Offer then s.handled ++ [n] else s.handled } := by
  unfold Bind.take
  constructor
  · intro h
    split at h
    · rename_i n signals hsignals
      obtain ⟨signal, hsignal, h⟩ := Option.bind_eq_some_iff.1 h
      obtain ⟨listener, hstep, rfl⟩ := Option.map_eq_some_iff.1 h
      exact ⟨n, signals, signal, listener, hsignals, hsignal, hstep, rfl⟩
    · cases h
  · rintro ⟨n, signals, signal, listener, hsignals, hsignal, hstep, rfl⟩
    simp only [hsignals, hsignal, Option.bind_some, hstep, Option.map_some]

theorem step_effect (hstep : step c h from_str s a = some s') : Effect c h from_str s a s' := by
  cases a with
  | signaling event => exact Option.some.inj hstep ▸ .signaled event
  | spawn =>
    obtain ⟨hcaller, hstep⟩ := Option.ite_none_right_eq_some.1 hstep
    exact Option.some.inj hstep ▸ .spawned hcaller
  | returns =>
    obtain ⟨hcaller, hstep⟩ := Option.ite_none_right_eq_some.1 hstep
    exact Option.some.inj hstep ▸ .returned hcaller
  | subscribe =>
    obtain ⟨⟨hcaller, hsignals⟩, hstep⟩ := Option.ite_none_right_eq_some.1 hstep
    exact Option.some.inj hstep ▸ .subscribed hcaller hsignals
  | take =>
    obtain ⟨n, signals, signal, listener, hsignals, hsignal, htake, rfl⟩ := take_eq_some.1 hstep
    exact .took n signals signal listener hsignals hsignal htake
  | listener a =>
    have hmap : ∀ a' : Listener.Action, a' ≠ .stop →
        (Listener.step from_str s.listener a').map (fun listener =>
          { s with listener := listener }) = some s' → Effect c h from_str s (.listener a') s' := by
      intro a' hstop hmap
      obtain ⟨listener, hlisten, rfl⟩ := Option.map_eq_some_iff.1 hmap
      exact .listened a' listener hstop hlisten
    cases a with
    | signal | stop => cases hstep
    | _ => exact hmap _ (by simp) hstep

end Steps

end Bind

/-! ## The handler comes to an end of what it has to do -/

namespace Listener

variable {from_str : String → Option RTCIceCandidateInit} {s s' : Listener}

/-- How many steps `handle_offer` takes at most, if its next call fails. -/
def Loop.rank : Loop → ℕ
  | Waiting | Stopped => 0
  | new_peer_connection _ | calling _ _ | set_handlers _ => 1
  | insert_dispatcher _ => 2
  | insert_notifier _ => 3

/-- The handler stops only when it is cancelled. -/
theorem loop_ne_stopped {a : Action} (hs : s.loop ≠ .Stopped) (ha : a ≠ .stop)
    (h : step from_str s a = some s') : s'.loop ≠ .Stopped := by
  have hconnection : ∀ k, a.of_connection k → s'.loop ≠ .Stopped := by
    intro k hk
    rwa [(loop_of_connection hk h).1]
  cases a with
  | signal signal => grind [step, on_signal, dispatch.eq_def, put]
  | stop => exact absurd rfl ha
  | call result =>
    change s.on_call result = some s' at h
    unfold on_call at h
    split at h
    · split at h <;> obtain rfl := Option.some.inj h <;> simp [returns]
    · rename_i i call hloop
      split at h
      · cases h
      · obtain rfl := Option.some.inj h
        simp [returns]
      · obtain rfl := Option.some.inj h
        cases call <;> simp [Call.next]
    · cases h
  | proceed =>
    change s.proceed = some s' at h
    unfold proceed at h
    split at h
    · obtain ⟨c, -, rfl⟩ := Option.map_eq_some_iff.1 h
      simp
    · obtain ⟨c, -, rfl⟩ := Option.map_eq_some_iff.1 h
      simp
    · obtain ⟨c, -, rfl⟩ := Option.map_eq_some_iff.1 h
      simp [returns]
    · cases h
  | recv i | added i | notify i | clean_dispatchers i | clean_notifiers i | change i | handle i
  | on_ice_candidate i => exact hconnection i (by simp [Action.of_connection, Action.of_task])

variable (from_str) in
/-- **`handle_offer` can go on**, and returns in the end. -/
theorem WellFormed.goes (hs : s.WellFormed) (hwaiting : s.loop ≠ .Waiting)
    (hstopped : s.loop ≠ .Stopped) : ∃ (a : Action) (s' : Listener), a ≠ .stop ∧
      (∀ signal, a ≠ .signal signal) ∧ Listener.step from_str s a = some s' ∧
        s'.loop.rank < s.loop.rank := by
  have hconnection : ∀ i, s.loop.connection = some i → ∃ c, s.connections[i]? = some c := by
    intro i hi
    have hlen := hs.last i hi
    exact ⟨_, List.getElem?_eq_getElem (by omega)⟩
  have hreturns : s.on_call (.error .Timeout) = some (s.returns (.error .Timeout)) →
      s.loop.rank = 1 → ∃ (a : Action) (s' : Listener), a ≠ .stop ∧
        (∀ signal, a ≠ .signal signal) ∧ Listener.step from_str s a = some s' ∧
          s'.loop.rank < s.loop.rank := by
    intro hcall hrank
    exact ⟨.call (.error .Timeout), _, by simp, by simp, hcall, by rw [hrank]; exact Nat.one_pos⟩
  have hproceeds : (∃ s', s.proceed = some s' ∧ s'.loop.rank < s.loop.rank) →
      ∃ (a : Action) (s' : Listener), a ≠ .stop ∧ (∀ signal, a ≠ .signal signal) ∧
        Listener.step from_str s a = some s' ∧ s'.loop.rank < s.loop.rank := by
    rintro ⟨s', hproceed, hrank⟩
    exact ⟨.proceed, s', by simp, by simp, hproceed, hrank⟩
  cases hloop : s.loop with
  | Waiting => exact absurd hloop hwaiting
  | Stopped => exact absurd hloop hstopped
  | new_peer_connection offer =>
    rw [← hloop]
    exact hreturns (by simp only [on_call, hloop]) (by rw [hloop]; rfl)
  | calling i call =>
    obtain ⟨c, hc⟩ := hconnection i (by rw [hloop]; rfl)
    rw [← hloop]
    exact hreturns (by simp only [on_call, hloop, hc]) (by rw [hloop]; rfl)
  | insert_notifier i | insert_dispatcher i | set_handlers i =>
    obtain ⟨c, hc⟩ := hconnection i (by rw [hloop]; rfl)
    rw [← hloop]
    exact hproceeds (by simp [proceed, hloop, hc, returns, Loop.rank])

variable (from_str) in
/-- The handler takes a signal when it waits. -/
theorem on_signal_of_waiting (hloop : s.loop = .Waiting) (signal : Signal) :
    ∃ s', step from_str s (.signal signal) = some s' ∧ s'.loop.rank ≤ 1 := by
  by_cases htype : signal.signal_type = .Offer
  · refine ⟨{ s with loop := .new_peer_connection signal }, ?_, by simp [Loop.rank]⟩
    simp only [step, on_signal, hloop, htype, if_true]
  · refine ⟨s.dispatch signal, ?_, ?_⟩
    · simp only [step, on_signal, hloop, htype, if_true, if_false]
    · have hdispatch : (s.dispatch signal).loop = s.loop := by grind [dispatch.eq_def, put]
      rw [hdispatch, hloop]
      exact Nat.zero_le 1

end Listener

namespace Bind

variable {Addr : Type} {c : Crypto} {h : Hex}
  {from_str : String → Option RTCIceCandidateInit} {s s' : Bind Addr} {a : Action Addr}

/-- Signals are published one after the other. -/
theorem published_prefix (s : Bind Addr) (event : LanSignaling.Event Addr) :
    s.node.published <+: (s.node.act c h event).published := by
  rcases LanSignaling.published_act (c := c) (h := h) s.node event with heq | ⟨signal, hpublishes⟩
  · exact ⟨[], by rw [heq, List.append_nil]⟩
  · rw [hpublishes.published]
    exact List.prefix_append _ _

/-- What holds in every state. -/
structure WellFormed (s : Bind Addr) : Prop where
  listener : s.listener.WellFormed
  running : s.listener.loop ≠ .Stopped
  returned : ∀ k, s.caller = .Returned k → k ≤ s.node.published.length
  unspawned : s.caller = .Called → s.signals = none
  /-- Only what has been published is kept. -/
  published : ∀ n, s.Kept n → n < s.node.published.length

theorem wellFormed_start (node : LanSignaling Addr) : (start node).WellFormed where
  listener := Listener.wellFormed_bind
  running h := by cases h
  returned k h := by cases h
  unspawned _ := rfl
  published n hn := by
    rcases hn with hn | ⟨signals, hsignals, -⟩
    · cases hn
    · cases hsignals

/-- What the receiver gets when the node goes on. -/
theorem kept_signaling {event : LanSignaling.Event Addr} {n : ℕ} :
    (s.signaling c h event).Kept n ↔ s.Kept n ∨ s.signals ≠ none ∧
      s.node.published.length ≤ n ∧ n < (s.node.act c h event).published.length := by
  have hlen := (s.published_prefix (c := c) (h := h) event).length_le
  rcases hsignals : s.signals with _ | signals
  · simp [Kept, signaling, hsignals]
  · have hrange : n ∈ List.range' s.node.published.length
        ((s.node.act c h event).published.length - s.node.published.length) ↔
          s.node.published.length ≤ n ∧ n < (s.node.act c h event).published.length := by
      rw [List.mem_range'_1]
      omega
    simp [Kept, signaling, hsignals, hrange, or_assoc]

/-- Taking a signal keeps what is kept, unless it is the signal and no offer. -/
theorem kept_take {n m : ℕ} {signals : List ℕ} {listener : Listener} {offer : Prop}
    [Decidable offer] :
    Kept { s with
        signals := some signals, listener := listener
        handled := if offer then s.handled ++ [m] else s.handled } n ↔
      n ∈ s.handled ∨ n ∈ signals ∨ n = m ∧ offer := by
  by_cases hoffer : offer
  · simp only [Kept, hoffer, if_true, List.mem_append, List.mem_singleton, Option.some.injEq,
      exists_eq_left', and_true, or_assoc]
    exact or_congr_right or_comm
  · simp [Kept, hoffer]

/-- Nothing that is published is lost by a step, but for signals that are no offers. -/
theorem kept_step (hstep : step c h from_str s a = some s') {n : ℕ}
    {signal : Signal} (hsignal : s.node.published[n]? = some signal)
    (hoffer : signal.signal_type = .Offer) : s'.Kept n ↔ s.Kept n := by
  have hlen : n < s.node.published.length := (List.getElem?_eq_some_iff.1 hsignal).1
  cases step_effect hstep with
  | signaled event =>
    rw [kept_signaling, or_iff_left]
    omega
  | spawned | returned | listened => exact Iff.rfl
  | subscribed hcaller hsignals => simp [Kept, hsignals]
  | took m signals signal' listener hsignals hsignal' =>
    rw [kept_take]
    have hkept : s.Kept n ↔ n ∈ s.handled ∨ n = m ∨ n ∈ signals := by
      simp [Kept, hsignals]
    rw [hkept]
    refine or_congr_right ?_
    rw [or_comm]
    refine or_congr_left (and_iff_left_of_imp ?_)
    rintro rfl
    rw [Option.some.inj (hsignal'.symm.trans hsignal)]
    exact hoffer

theorem WellFormed.step (hs : s.WellFormed) (hstep : Bind.step c h from_str s a = some s') :
    s'.WellFormed := by
  cases step_effect hstep with
  | signaled event =>
    have hlen := (s.published_prefix (c := c) (h := h) event).length_le
    refine ⟨hs.listener, hs.running, fun k hk => (hs.returned k hk).trans hlen, fun hcaller => ?_,
      fun n hn => ?_⟩
    · rw [signaling, hs.unspawned hcaller]
      rfl
    · rcases kept_signaling.1 hn with hn | ⟨-, -, hn⟩
      · exact (hs.published n hn).trans_le hlen
      · exact hn
  | spawned hcaller =>
    exact ⟨hs.listener, hs.running, fun k hk => (by cases hk), fun hk => (by cases hk),
      hs.published⟩
  | returned hcaller =>
    refine ⟨hs.listener, hs.running, fun k hk => ?_, fun hk => (by cases hk), hs.published⟩
    cases hk
    exact Nat.le_refl _
  | subscribed hcaller hsignals =>
    refine ⟨hs.listener, hs.running, hs.returned, fun hk => absurd hk hcaller, fun n hn => ?_⟩
    exact hs.published n (by simpa [Kept, hsignals] using hn)
  | took m signals signal listener hsignals hsignal hlisten =>
    refine ⟨hs.listener.step hlisten, Listener.loop_ne_stopped hs.running (by simp) hlisten,
      hs.returned, fun hk => ?_, fun n hn => hs.published n ?_⟩
    · rw [hs.unspawned hk] at hsignals
      cases hsignals
    · rcases kept_take.1 hn with hn | hn | ⟨rfl, -⟩
      · exact .inl hn
      · exact .inr ⟨_, hsignals, List.mem_cons_of_mem _ hn⟩
      · exact .inr ⟨_, hsignals, List.mem_cons_self⟩
  | listened a listener hstop hlisten =>
    exact ⟨hs.listener.step hlisten, Listener.loop_ne_stopped hs.running hstop hlisten,
      hs.returned, hs.unspawned, hs.published⟩

/-- What is published stays. -/
theorem published_step (hstep : Bind.step c h from_str s a = some s') {n : ℕ} {signal : Signal}
    (hsignal : s.node.published[n]? = some signal) : s'.node.published[n]? = some signal := by
  cases step_effect hstep with
  | signaled event =>
    have hlen : n < s.node.published.length := (List.getElem?_eq_some_iff.1 hsignal).1
    obtain ⟨later, hlater⟩ := s.published_prefix (c := c) (h := h) event
    change (s.node.act c h event).published[n]? = some signal
    rw [← hlater, List.getElem?_append_left hlen, hsignal]
  | _ => exact hsignal

/-- An offer that is kept stays so in a run, and one that is not is gone. -/
theorem kept_run {as : List (Action Addr)} {t : Bind Addr}
    (hrun : Transition.run (Bind.step c h from_str) s as = some t) {n : ℕ} {signal : Signal}
    (hsignal : s.node.published[n]? = some signal) (hoffer : signal.signal_type = .Offer) :
    t.Kept n ↔ s.Kept n :=
  (Transition.run_invariant
    (P := fun t : Bind Addr => t.node.published[n]? = some signal ∧ (t.Kept n ↔ s.Kept n))
    (fun _ _ _ ht hstep => ⟨published_step hstep ht.1, (kept_step hstep ht.1 hoffer).trans ht.2⟩)
    ⟨hsignal, Iff.rfl⟩ hrun).2

/-- How much the handler has to do. -/
def rank (s : Bind Addr) : ℕ :=
  (s.signals.elim 1 fun signals => 2 * signals.length) + s.listener.loop.rank

/-- A step of a task of the listener that takes no signal. -/
theorem step_listener {a : Listener.Action} {listener : Listener} (hstop : a ≠ .stop)
    (hsignal : ∀ signal, a ≠ .signal signal)
    (hlisten : Listener.step from_str s.listener a = some listener) :
    Bind.step c h from_str s (.listener a) = some { s with listener := listener } := by
  cases a with
  | signal signal => exact absurd rfl (hsignal signal)
  | stop => exact absurd rfl hstop
  | _ => exact congrArg (Option.map _) hlisten

variable (c h from_str) in
/-- The handler has a step to take unless it is quiet. -/
theorem WellFormed.goes (hs : s.WellFormed) (hcaller : s.caller ≠ .Called) (hquiet : ¬ s.Quiet) :
    ∃ (a : Action Addr) (s' : Bind Addr), a.of_handler ∧ Bind.step c h from_str s a = some s' ∧
      s'.caller = s.caller ∧ s'.rank < s.rank := by
  by_cases hwaiting : s.listener.loop = .Waiting
  · rcases hsignals : s.signals with _ | _ | ⟨n, signals⟩
    · refine ⟨.subscribe, { s with signals := some [] }, rfl, if_pos ⟨hcaller, hsignals⟩, rfl, ?_⟩
      simp [rank, hsignals]
    · exact absurd ⟨hsignals, hwaiting⟩ hquiet
    · have hlen := hs.published n (.inr ⟨_, hsignals, List.mem_cons_self⟩)
      obtain ⟨listener, hlisten, hrank⟩ :=
        Listener.on_signal_of_waiting from_str hwaiting s.node.published[n]
      have hstep : Bind.step c h from_str s .take = some _ :=
        take_eq_some.2 ⟨n, signals, _, listener, hsignals, List.getElem?_eq_getElem hlen, hlisten,
          rfl⟩
      refine ⟨.take, _, rfl, hstep, rfl, ?_⟩
      simp only [rank, hsignals, Option.elim_some, List.length_cons]
      omega
  · obtain ⟨a, listener, hstop, hsignal, hlisten, hrank⟩ :=
      hs.listener.goes from_str hwaiting hs.running
    exact ⟨.listener a, _, rfl, step_listener hstop hsignal hlisten, rfl,
      Nat.add_lt_add_left hrank _⟩

variable (c h from_str) in
/-- **The handler comes to a point at which it has nothing left to take.** -/
theorem WellFormed.exists_quiet (hs : s.WellFormed) (hcaller : s.caller ≠ .Called) :
    ∃ (as : List (Action Addr)) (t : Bind Addr), (∀ a ∈ as, a.of_handler) ∧
      Transition.run (Bind.step c h from_str) s as = some t ∧ t.Quiet := by
  by_cases hquiet : s.Quiet
  · exact ⟨[], s, by simp, rfl, hquiet⟩
  · refine Transition.exists_run_of_rank (Q := Quiet)
      (C := fun a : Action Addr => a.of_handler = true)
      (P := fun s : Bind Addr => s.WellFormed ∧ s.caller ≠ .Called ∧ ¬ s.Quiet) rank
      (fun s hs => ?_) ⟨hs, hcaller, hquiet⟩
    obtain ⟨hs, hcaller, hquiet⟩ := hs
    obtain ⟨a, s', ha, hstep, hcaller', hrank⟩ :=
      hs.goes c h from_str hcaller hquiet
    refine ⟨a, s', ha, hstep, ?_⟩
    by_cases hquiet' : s'.Quiet
    · exact .inl hquiet'
    · exact .inr ⟨⟨hs.step hstep, hcaller' ▸ hcaller, hquiet'⟩, hrank⟩

theorem Quiet.kept_iff (hs : s.Quiet) {n : ℕ} : s.Kept n ↔ n ∈ s.handled := by
  simp [Kept, hs.1]

/-- **An offer is passed to `handle_offer`** exactly when it is kept. -/
theorem WellFormed.passed_iff_kept (hs : s.WellFormed) {n : ℕ} (hn : s.Due n) :
    s.Passed c h from_str n ↔ s.Kept n := by
  obtain ⟨k, signal, hcaller, -, hsignal, hoffer⟩ := hn
  have hquiet := hs.exists_quiet c h from_str (by simp [hcaller])
  constructor
  · rintro ⟨⟨as, t, -, hrun, ht⟩, hall⟩
    rw [← kept_run hrun hsignal hoffer, ht.kept_iff]
    exact hall as t hrun ht
  · intro hkept
    refine ⟨hquiet, fun as t hrun ht => ?_⟩
    rwa [← ht.kept_iff, kept_run hrun hsignal hoffer]

/-- **An event keeps the offers that are due** unless it publishes one that is missed. -/
theorem kept_of_due_signaling (hs : s.WellFormed) (hdue : ∀ n, s.Due n → s.Kept n)
    (event : LanSignaling.Event Addr) :
    (∀ n, (s.signaling c h event).Due n → (s.signaling c h event).Kept n) ↔
      ¬ s.Misses c h (.signaling event) := by
  constructor
  · rintro hkept ⟨⟨k, hk⟩, hsignals, signal, hmem, hoffer⟩
    obtain ⟨i, hi⟩ := List.mem_iff_getElem?.1 hmem
    rw [List.getElem?_drop] at hi
    have hk' := hs.returned k hk
    have hdue' : (s.signaling c h event).Due (s.node.published.length + i) :=
      ⟨k, signal, hk, by omega, hi, hoffer⟩
    rcases kept_signaling.1 (hkept _ hdue') with hold | ⟨hne, -⟩
    · have := hs.published _ hold
      omega
    · exact hne hsignals
  · rintro hmiss n ⟨k, signal, hk, hkn, hsignal, hoffer⟩
    have hlen : n < (s.node.act c h event).published.length :=
      (List.getElem?_eq_some_iff.1 hsignal).1
    rw [kept_signaling]
    by_cases hn : n < s.node.published.length
    · obtain ⟨later, hlater⟩ := s.published_prefix (c := c) (h := h) event
      change (s.node.act c h event).published[n]? = some signal at hsignal
      rw [← hlater, List.getElem?_append_left hn] at hsignal
      exact .inl (hdue n ⟨k, signal, hk, hkn, hsignal, hoffer⟩)
    · refine .inr ⟨fun hsignals => hmiss ⟨⟨k, hk⟩, hsignals, signal, ?_, hoffer⟩, by omega, hlen⟩
      refine List.mem_iff_getElem?.2 ⟨n - s.node.published.length, ?_⟩
      rw [List.getElem?_drop, Nat.add_sub_of_le (Nat.not_lt.1 hn)]
      exact hsignal

/-- **A step keeps the offers that are due** unless it publishes one that is missed. -/
theorem kept_of_due_step (hs : s.WellFormed) (hdue : ∀ n, s.Due n → s.Kept n)
    (hstep : Bind.step c h from_str s a = some s') :
    (∀ n, s'.Due n → s'.Kept n) ↔ ¬ s.Misses c h a := by
  have hkeep : s'.node = s.node → s'.caller = s.caller → ∀ n, s'.Due n → s'.Kept n := by
    rintro hnode hcaller n ⟨k, signal, hk, hkn, hsignal, hoffer⟩
    rw [hnode] at hsignal
    rw [hcaller] at hk
    exact (kept_step hstep hsignal hoffer).2 (hdue n ⟨k, signal, hk, hkn, hsignal, hoffer⟩)
  cases step_effect hstep with
  | signaled event => exact kept_of_due_signaling hs hdue event
  | spawned =>
    refine iff_of_true ?_ fun h => h
    rintro n ⟨k, signal, hk, -⟩
    cases hk
  | returned =>
    refine iff_of_true ?_ fun h => h
    rintro n ⟨k, signal, hk, hkn, hsignal, -⟩
    cases hk
    exact absurd (List.getElem?_eq_some_iff.1 hsignal).1 (Nat.not_lt.2 hkn)
  | subscribed | took | listened => exact iff_of_true (hkeep rfl rfl) fun h => h

theorem wellFormed_of_run {node : LanSignaling Addr} {as : List (Action Addr)}
    (hrun : Transition.run (Bind.step c h from_str) (start node) as = some s) : s.WellFormed :=
  Transition.run_invariant (fun _ _ _ hs hstep => hs.step hstep) (wellFormed_start node) hrun

/-- **No offer that is published after `bind` has returned is missed** exactly when none is
published before the handler has subscribed. -/
theorem passed_iff {node : LanSignaling Addr} {as : List (Action Addr)}
    (hrun : Transition.run (Bind.step c h from_str) (start node) as = some s) :
    (∀ before u, before <+: as →
        Transition.run (Bind.step c h from_str) (start node) before = some u →
          ∀ n, u.Due n → u.Passed c h from_str n) ↔
      Transition.Along (Bind.step c h from_str) (fun s a => ¬ s.Misses c h a) (start node) as := by
  rw [← Transition.forall_prefix_iff
    (P := fun u : Bind Addr => u.WellFormed ∧ ∀ n, u.Due n → u.Kept n)
    (fun _ _ _ hs hstep =>
      (and_iff_right (hs.1.step hstep)).trans (kept_of_due_step hs.1 hs.2 hstep))
    ⟨wellFormed_start node, fun n ⟨_, _, hk, _⟩ => by cases hk⟩ hrun]
  refine forall_congr' fun before => forall_congr' fun u => forall_congr' fun _ =>
    forall_congr' fun hu => ?_
  have hwf := wellFormed_of_run hu
  rw [and_iff_right hwf]
  exact forall_congr' fun n => forall_congr' fun hn => hwf.passed_iff_kept hn

/-! ## An offer for a new listener -/

end Bind

namespace LanSignaling

/-- Node 7 offers a connection to node 9, which publishes the offer. -/
theorem exists_offer : ∃ event : Event ℕ,
    ((node 9).act .ofSample .lowercase event).published = [Signal.offer 5 "sdp" "7"] := by
  have hfits : 20 + Packet.body_len (.Message ⟨9, (Signal.offer 5 "sdp" "9").to_string⟩) ≤
      65535 := by decide
  obtain ⟨datagram, hdata⟩ : ∃ datagram, marshal .ofSample .lowercase
      (.Message ⟨9, (Signal.offer 5 "sdp" "9").to_string⟩) 7 = .ok datagram :=
    ⟨_, marshal_eq .ofSample Hex.lowercase_lawful 7 hfits⟩
  refine ⟨.receive datagram 1 0 fun _ _ => .ok (), ?_⟩
  exact published_of_le Crypto.ofSample_lawful Hex.lowercase_lawful (A := node 7) (B := node 9)
    (by decide) hdata (by decide)

end LanSignaling

namespace Bind

/-- `bind` is called on node 9. -/
def called : Bind ℕ := start (LanSignaling.node 9)

/-- The handler subscribes before `bind` returns. -/
theorem passed_early : ∃ event : LanSignaling.Event ℕ,
    (called.node.act .ofSample .lowercase event).published = [Signal.offer 5 "sdp" "7"] ∧
      ((∀ before u, before <+: [.spawn, .subscribe, .returns, .signaling event] →
          Transition.run (step .ofSample .lowercase fun _ => none) called before = some u →
            ∀ n, u.Due n → u.Passed .ofSample .lowercase (fun _ => none) n) ↔
        Transition.Along (step .ofSample .lowercase fun _ => none)
          (fun s a => ¬ s.Misses .ofSample .lowercase a) called
          [.spawn, .subscribe, .returns, .signaling event]) := by
  obtain ⟨event, hevent⟩ := LanSignaling.exists_offer
  exact ⟨event, hevent, passed_iff rfl⟩

/-- An offer that comes right after `bind` has returned is missed. -/
theorem offer_missed : ¬ ∀ (as : List (Action ℕ)) (s : Bind ℕ),
    Transition.run (step .ofSample .lowercase fun _ => none) called as = some s →
      ∀ n, s.Due n → s.Passed .ofSample .lowercase (fun _ => none) n := by
  intro hall
  obtain ⟨event, hevent⟩ := LanSignaling.exists_offer
  have hfirst : (called.node.act .ofSample .lowercase event).published[0]? =
      some (Signal.offer 5 "sdp" "7") := by
    change ((LanSignaling.node 9).act .ofSample .lowercase event).published[0]? = _
    rw [hevent]
    rfl
  obtain ⟨s, hrun, hdue, hnone, hhandled⟩ : ∃ s : Bind ℕ,
      Transition.run (step .ofSample .lowercase fun _ => none) called
        [.spawn, .returns, .signaling event] = some s ∧ s.Due 0 ∧ s.signals = none ∧
          s.handled = [] :=
    ⟨_, rfl, ⟨0, _, rfl, Nat.le_refl _, hfirst, rfl⟩, rfl, rfl⟩
  have hkept := ((wellFormed_of_run hrun).passed_iff_kept hdue).1 (hall _ _ hrun 0 hdue)
  simp [Kept, hnone, hhandled] at hkept

end Bind

end Nethernet
