import Nethernet.Transport.Connect
import Nethernet.Transport.Connection

/-!
# Candidates wait for the description

On both sides remote candidates are handed to `add_ice_candidate` once, in the order in which they
came, and not before `set_remote_description` has returned. A dialer keeps them back
(`Connect.Stage`). A listener starts the task that hands them over before the call, but dispatches
no signal while it is in `handle_offer`, so that nothing is in the channel (`Prepared.quiet`).
-/

namespace Nethernet

open Foundations

namespace Listener

variable (from_str : String → Option RTCIceCandidateInit)

/-- The candidates that a step sends to the channel of the connection `k`. -/
def dispatched (k : ℕ) (s : Listener) : Action → List RTCIceCandidateInit
  | .signal signal =>
    if signal.signal_type = .Candidate ∧ s.signal_dispatchers signal.connection_id = some k then
      [candidate_init from_str signal.data]
    else []
  | _ => []

/-- The candidates that the connection `k` has been handed, or finds in its channel. -/
def received_at (s : Listener) (k : ℕ) : List RTCIceCandidateInit :=
  (s.connections[k]?).elim [] (·.received from_str)

variable {from_str}

theorem received_at_of_connections {s s' : Listener} (h : s'.connections = s.connections) (k : ℕ) :
    s'.received_at from_str k = s.received_at from_str k := by
  rw [received_at, received_at, h]

/-- A connection takes a step and receives `xs`. -/
theorem received_at_set {s s' : Listener} {i : ℕ} {c c' : Connection}
    (xs : List RTCIceCandidateInit) (hc : s.connections[i]? = some c)
    (hconn : s'.connections = s.connections.set i c')
    (hreceived : c'.received from_str = c.received from_str ++ xs) (k : ℕ) :
    s'.received_at from_str k = s.received_at from_str k ++ if i = k then xs else [] := by
  by_cases hik : i = k
  · subst hik
    have hc' : (s.connections.set i c')[i]? = some c' :=
      (getElem?_set_eq_some hc).2 (.inl ⟨rfl, rfl⟩)
    simp [received_at, hconn, hc, hc', hreceived]
  · simp [received_at, hconn, List.getElem?_set_ne hik, hik]

theorem received_at_signal {s s' : Listener} {signal : Signal} (hs : s.WellFormed)
    (h : s.on_signal signal = some s') (k : ℕ) : s'.received_at from_str k =
      s.received_at from_str k ++ dispatched from_str k s (.signal signal) := by
  rw [on_signal] at h
  split at h
  · split at h
    · rename_i htype
      obtain rfl := Option.some.inj h
      simp [received_at, dispatched, htype]
    · obtain rfl := Option.some.inj h
      rcases hentry : s.signal_dispatchers signal.connection_id with _ | i
      · simp [dispatch, dispatched, hentry]
      · obtain ⟨c, hc, -, -⟩ := hs.entry _ i hentry
        have hdispatch : s.dispatch signal = s.put i { c with queue := c.queue ++ [signal] } := by
          simp only [dispatch, hentry, hc]
        rw [hdispatch, received_at_set (if signal.signal_type = .Candidate then
          [candidate_init from_str signal.data] else []) hc rfl]
        · by_cases hik : i = k <;> simp [dispatched, hentry, hik]
        · by_cases htype : signal.signal_type = .Candidate <;> simp [Connection.received, htype]
  · cases h

/-- **A connection receives what is dispatched to it**, and nothing else. -/
theorem received_at_step {s s' : Listener} {a : Action} (hs : s.WellFormed)
    (h : step from_str s a = some s') (k : ℕ) :
    s'.received_at from_str k = s.received_at from_str k ++ dispatched from_str k s a := by
  by_cases hsignal : ∃ signal, a = .signal signal
  · obtain ⟨signal, rfl⟩ := hsignal
    exact received_at_signal hs h k
  · have hnot : ∀ signal, a ≠ .signal signal := fun signal ha => hsignal ⟨signal, ha⟩
    have hnone : dispatched from_str k s a = [] := by
      cases a with
      | signal signal => exact absurd rfl (hnot signal)
      | _ => rfl
    rw [hnone, List.append_nil]
    cases step_effect h with
    | idle hconn => exact received_at_of_connections hconn k
    | evolve i c c' hc hev hconn =>
      have hsame := hev.received fun signal ha => absurd ha (hnot signal)
      have := received_at_set [] hc hconn (by rw [hsame, List.append_nil]) k
      simpa using this
    | create offer _ hconn =>
      rw [received_at, received_at, hconn, List.getElem?_append]
      split
      · rfl
      · rename_i hk
        rw [List.getElem?_eq_none (Nat.not_lt.1 hk), List.getElem?_singleton]
        split <;> rfl
    | register i c _ _ hc hconn =>
      have hsame : Connection.received from_str _ = c.received from_str ++ [] :=
        (List.append_nil _).symm
      have := received_at_set [] hc hconn hsame k
      simpa using this
    | accept i c _ hc hconn =>
      have hsame : Connection.received from_str _ = c.received from_str ++ [] :=
        (List.append_nil _).symm
      have := received_at_set [] hc hconn hsame k
      simpa using this

/-- What a connection has received is what has been dispatched to it. -/
theorem received_at_run {s : Listener} {as : List Action}
    (h : Transition.run (step from_str) bind as = some s) (k : ℕ) :
    s.received_at from_str k =
      Transition.trace (step from_str) (dispatched from_str k) bind as :=
  Transition.run_append_trace (fun _ _ _ hs hstep => ⟨hs.step hstep, received_at_step hs hstep k⟩)
    wellFormed_bind h

/-! ## The description is set first -/

/-- The connection that `handle_offer` is about, after `set_remote_description`. -/
def Loop.described : Loop → Option ℕ
  | .calling i .create_answer | .calling i .set_local_description | .calling i .signal_answer
  | .set_handlers i => some i
  | _ => none

theorem Loop.connection_of_described {loop : Loop} {i : ℕ} (h : loop.described = some i) :
    loop.connection = some i := by
  unfold Loop.described at h
  split at h <;> simp_all [Loop.connection]

variable (from_str) in
/-- While `handle_offer` is about a connection, no candidate is in its channel; and its description
is set when `handle_offer` has come that far. -/
structure Prepared (s : Listener) : Prop where
  quiet : ∀ k, s.loop.connection = some k → s.received_at from_str k = []
  described : ∀ k c, s.loop.described = some k → s.connections[k]? = some c → c.described = true
  accepted : ∀ k c, k ∈ s.accepted → s.connections[k]? = some c → c.described = true

theorem prepared_bind : bind.Prepared from_str where
  quiet k h := by cases h
  described k c h := by cases h
  accepted k c h := by cases h

section Steps

variable {s s' : Listener} {a : Action}

theorem Prepared.quiet_step (hs : s.WellFormed) (hp : s.Prepared from_str)
    (h : step from_str s a = some s') {k : ℕ} (hk : s'.loop.connection = some k) :
    s'.received_at from_str k = [] := by
  rw [received_at_step hs h k]
  have hempty : s.received_at from_str k = [] := by
    cases step_effect h with
    | idle _ _ _ _ hloop =>
      rcases hloop with hloop | hloop
      · exact hp.quiet k (hloop ▸ hk)
      · rw [hloop] at hk
        cases hk
    | evolve i c c' _ _ _ _ _ _ hloop => exact hp.quiet k (hloop ▸ hk)
    | create offer _ _ _ _ hloop' =>
      rw [hloop'] at hk
      obtain rfl := Option.some.inj hk
      rw [received_at, List.getElem?_eq_none (Nat.le_refl _)]
      rfl
    | register i c _ hloop _ _ _ _ hloop' =>
      rw [hloop'] at hk
      obtain rfl := Option.some.inj hk
      exact hp.quiet i (by rw [hloop]; rfl)
    | accept i c _ _ _ _ _ hloop' =>
      rw [hloop'] at hk
      cases hk
  cases a with
  | signal signal =>
    -- the loop is not in `handle_offer` after a signal
    change s.on_signal signal = some s' at h
    unfold on_signal at h
    split at h
    · rename_i hloop
      split at h
      · obtain rfl := Option.some.inj h
        cases hk
      · obtain rfl := Option.some.inj h
        have hwaiting : (s.dispatch signal).loop = .Waiting := by
          unfold dispatch
          split
          · exact hloop
          · split <;> exact hloop
        rw [hwaiting] at hk
        cases hk
    · cases h
  | _ => rw [hempty]; rfl

/-- Connections that keep their descriptions. -/
def KeepsDescribed (s s' : Listener) : Prop :=
  ∀ (k : ℕ) (c' : Connection), s'.connections[k]? = some c' → k < s.connections.length →
    ∃ c, s.connections[k]? = some c ∧ (c.described = true → c'.described = true)

theorem keepsDescribed_of_connections (hconn : s'.connections = s.connections) :
    s.KeepsDescribed s' := fun _ c' hc' _ => ⟨c', hconn ▸ hc', id⟩

theorem keepsDescribed_set {i : ℕ} {c c' : Connection} (hc : s.connections[i]? = some c)
    (hconn : s'.connections = s.connections.set i c')
    (hdescribed : c.described = true → c'.described = true) : s.KeepsDescribed s' := by
  intro k d hd _
  rw [hconn] at hd
  rcases (getElem?_set_eq_some hc).1 hd with ⟨rfl, rfl⟩ | ⟨_, hd⟩
  · exact ⟨c, hc, hdescribed⟩
  · exact ⟨d, hd, id⟩

theorem Prepared.of_keeps (hs : s.WellFormed) (hp : s.Prepared from_str)
    (hquiet : ∀ k, s'.loop.connection = some k → s'.received_at from_str k = [])
    (hkeeps : s.KeepsDescribed s')
    (hloop : s'.loop.described = none ∨ s'.loop.described = s.loop.described)
    (hacc : s'.accepted = s.accepted) : s'.Prepared from_str where
  quiet := hquiet
  described k c' hk hc' := by
    rcases hloop with hloop | hloop
    · rw [hloop] at hk
      cases hk
    · rw [hloop] at hk
      have hlast := hs.last k (Loop.connection_of_described hk)
      obtain ⟨c, hc, hd⟩ := hkeeps k c' hc' (by omega)
      exact hd (hp.described k c hk hc)
  accepted k c' hk hc' := by
    rw [hacc] at hk
    obtain ⟨id, d, hd, -, -⟩ := hs.accepted k hk
    obtain ⟨c, hc, hd⟩ := hkeeps k c' hc' (List.getElem?_eq_some_iff.1 hd).1
    exact hd (hp.accepted k c hk hc)

/-- The connections that have been accepted keep their descriptions. -/
theorem Prepared.accepted_of_keeps (hs : s.WellFormed) (hp : s.Prepared from_str)
    (hkeeps : s.KeepsDescribed s') {k : ℕ} {c' : Connection} (hk : k ∈ s.accepted)
    (hc' : s'.connections[k]? = some c') : c'.described = true := by
  obtain ⟨id, d, hd, -, -⟩ := hs.accepted k hk
  obtain ⟨c, hc, hkept⟩ := hkeeps k c' hc' (List.getElem?_eq_some_iff.1 hd).1
  exact hkept (hp.accepted k c hk hc)

theorem Prepared.call {result : Except NethernetError String} (hs : s.WellFormed)
    (hp : s.Prepared from_str) (h : s.on_call result = some s')
    (hquiet : ∀ k, s'.loop.connection = some k → s'.received_at from_str k = []) :
    s'.Prepared from_str := by
  unfold on_call at h
  split at h
  · rename_i offer hloop
    rcases result with e | text
    · obtain rfl := Option.some.inj h
      exact hp.of_keeps hs hquiet (keepsDescribed_of_connections rfl) (.inl rfl) rfl
    · obtain rfl := Option.some.inj h
      refine hp.of_keeps hs hquiet (fun k c' hc' hk => ⟨c', ?_, id⟩) (.inl rfl) rfl
      exact (List.getElem?_append_left hk).symm.trans hc'
  · rename_i i call hloop
    split at h
    · cases h
    · obtain rfl := Option.some.inj h
      exact hp.of_keeps hs hquiet (keepsDescribed_of_connections rfl) (.inl rfl) rfl
    · rename_i c text hc
      obtain rfl := Option.some.inj h
      have hkeeps : s.KeepsDescribed { s.put i (call.perform text c) with
          loop := call.next i, signalled := s.signalled ++ call.signals c } :=
        keepsDescribed_set hc rfl (by cases call <;> exact fun h => by simp_all [Call.perform])
      refine ⟨hquiet, fun k c' hk hc' => ?_, fun k c' hk => hp.accepted_of_keeps hs hkeeps hk⟩
      have hbefore : s.loop.described = some i → c.described = true := fun hi =>
        hp.described i c hi hc
      rw [hloop] at hbefore
      rcases (getElem?_set_eq_some hc).1 hc' with ⟨rfl, rfl⟩ | ⟨hne, -⟩
      · cases call with
        | parse_offer => cases hk
        | set_remote_description => rfl
        | create_answer => exact hbefore rfl
        | set_local_description => exact hbefore rfl
        | signal_answer => exact hbefore rfl
      · cases call <;> first | exact absurd (Option.some.inj hk) hne | cases hk
  · cases h

theorem Prepared.proceed (hs : s.WellFormed) (hp : s.Prepared from_str)
    (h : s.proceed = some s')
    (hquiet : ∀ k, s'.loop.connection = some k → s'.received_at from_str k = []) :
    s'.Prepared from_str := by
  unfold Listener.proceed at h
  split at h
  · obtain ⟨c, hc, rfl⟩ := Option.map_eq_some_iff.1 h
    exact hp.of_keeps hs hquiet (keepsDescribed_of_connections rfl) (.inl rfl) rfl
  · obtain ⟨c, hc, rfl⟩ := Option.map_eq_some_iff.1 h
    exact hp.of_keeps hs hquiet (keepsDescribed_set hc rfl id) (.inl rfl) rfl
  · rename_i i hloop
    obtain ⟨c, hc, rfl⟩ := Option.map_eq_some_iff.1 h
    have hkeeps : s.KeepsDescribed { (s.put i { c with handler := true }).returns (.ok ()) with
        accepted := s.accepted ++ [i] } := keepsDescribed_set hc rfl id
    refine ⟨hquiet, (fun _ _ hk => by cases hk), fun k c' hk hc' => ?_⟩
    rcases List.mem_append.1 hk with hk | hk
    · exact hp.accepted_of_keeps hs hkeeps hk hc'
    · obtain rfl := List.mem_singleton.1 hk
      rcases (getElem?_set_eq_some hc).1 hc' with ⟨-, rfl⟩ | ⟨hne, -⟩
      · exact hp.described k c (by rw [hloop]; rfl) hc
      · exact absurd rfl hne
  · cases h

theorem Prepared.signal {signal : Signal} (hs : s.WellFormed) (hp : s.Prepared from_str)
    (h : s.on_signal signal = some s')
    (hquiet : ∀ k, s'.loop.connection = some k → s'.received_at from_str k = []) :
    s'.Prepared from_str := by
  unfold on_signal at h
  split at h
  · rename_i hloop
    split at h
    · obtain rfl := Option.some.inj h
      exact hp.of_keeps hs hquiet (keepsDescribed_of_connections rfl) (.inl rfl) rfl
    · obtain rfl := Option.some.inj h
      unfold dispatch at hquiet ⊢
      split
      · exact hp
      · split
        · exact hp
        · rename_i i hi _ c hc
          simp only [hi, hc] at hquiet
          exact hp.of_keeps hs hquiet (keepsDescribed_set hc rfl id) (.inr rfl) rfl
  · cases h

theorem Prepared.step (hs : s.WellFormed) (hp : s.Prepared from_str)
    (h : step from_str s a = some s') : s'.Prepared from_str := by
  have hquiet := fun k => hp.quiet_step hs h (k := k)
  rcases hindex : a.index with _ | i
  · cases a with
    | signal signal => exact hp.signal hs h hquiet
    | stop =>
      obtain ⟨-, h⟩ := Option.ite_none_right_eq_some.1 h
      obtain rfl := Option.some.inj h
      exact hp.of_keeps hs hquiet (keepsDescribed_of_connections rfl) (.inl rfl) rfl
    | call result => exact hp.call hs h hquiet
    | proceed => exact hp.proceed hs h hquiet
    | on_ice_candidate i json =>
      obtain ⟨c, hc, rfl⟩ := Option.map_eq_some_iff.1 h
      exact hp.of_keeps hs hquiet (keepsDescribed_of_connections rfl) (.inr rfl) rfl
    | _ => cases hindex
  · obtain ⟨c, hc, hconn, -, hloop, hacc⟩ := step_of_index hindex h
    have hkeeps := keepsDescribed_set hc hconn (by rw [Connection.described_act]; exact id)
    exact hp.of_keeps hs hquiet hkeeps (.inr (by rw [hloop])) hacc

/-- `handle_offer` has returned an error for the connection `k`. -/
def Refused (k : ℕ) (s : Listener) : Prop :=
  k < s.connections.length ∧ s.loop.connection ≠ some k ∧ k ∉ s.accepted

/-- A connection that was refused is not accepted later. -/
theorem Refused.step {k : ℕ} (hk : Refused k s) (h : step from_str s a = some s') :
    Refused k s' := by
  obtain ⟨hlen, hloop, hnot⟩ := hk
  cases step_effect h with
  | idle hconn _ hacc _ hloop' =>
    refine ⟨hconn ▸ hlen, ?_, hacc ▸ hnot⟩
    rcases hloop' with hloop' | hloop' <;> rw [hloop']
    · exact hloop
    · exact nofun
  | evolve i c c' _ _ hconn _ hacc _ hloop' =>
    exact ⟨by rwa [hconn, List.length_set], hloop' ▸ hloop, hacc ▸ hnot⟩
  | create offer _ hconn _ hacc hloop' =>
    refine ⟨by rw [hconn, List.length_append]; omega, ?_, hacc ▸ hnot⟩
    rw [hloop']
    intro h
    have := Option.some.inj h
    omega
  | register i c _ hat _ hconn _ hacc hloop' =>
    rw [hat] at hloop
    exact ⟨by rwa [hconn, List.length_set], by rw [hloop']; exact hloop, hacc ▸ hnot⟩
  | accept i c hat _ hconn _ hacc hloop' =>
    rw [hat] at hloop
    refine ⟨by rwa [hconn, List.length_set], by rw [hloop']; nofun, ?_⟩
    rw [hacc, List.mem_append, List.mem_singleton]
    rintro (h | rfl)
    · exact hnot h
    · exact hloop rfl

end Steps

/-- **A connection that is accepted** was handed no candidate before its description was set. -/
theorem described_of_handed {s : Listener} {as : List Action}
    (h : Transition.run (step from_str) bind as = some s) {k : ℕ} (hk : k ∈ s.accepted)
    {before : List Action} (hbefore : before <+: as) {u : Listener}
    (hu : Transition.run (step from_str) bind before = some u) {c : Connection}
    (hc : u.connections[k]? = some c) (hhanded : c.handed ≠ []) : c.described = true := by
  obtain ⟨after, rfl⟩ := hbefore
  obtain ⟨u', hu', hafter⟩ := Transition.run_append_eq_some.1 h
  obtain rfl := Option.some.inj (hu.symm.trans hu')
  obtain ⟨-, hp⟩ := Transition.run_invariant (P := fun v => v.WellFormed ∧ v.Prepared from_str)
    (fun _ _ _ hv hstep => ⟨hv.1.step hstep, hv.2.step hv.1 hstep⟩)
    ⟨wellFormed_bind, prepared_bind⟩ hu
  by_contra hnot
  have hrefused : Refused k u := by
    refine ⟨(List.getElem?_eq_some_iff.1 hc).1, fun hloop => hhanded ?_, fun hacc =>
      hnot (hp.accepted k c hacc hc)⟩
    have hquiet := hp.quiet k hloop
    rw [received_at, hc] at hquiet
    exact (List.append_eq_nil_iff.1 hquiet).1
  exact (Transition.run_invariant (fun _ _ _ hv hstep => Refused.step hv hstep) hrefused
    hafter).2.2 hk

/-- The candidates handed to a connection are the first of those dispatched to it. -/
theorem handed_prefix {s : Listener} {as : List Action}
    (h : Transition.run (step from_str) bind as = some s) {k : ℕ} {c : Connection}
    (hc : s.connections[k]? = some c) :
    c.handed <+: Transition.trace (step from_str) (dispatched from_str k) bind as := by
  rw [← received_at_run h k, received_at, hc]
  exact List.prefix_append _ _

end Listener

/-- What a dialer does with the candidates that it takes from the signal stream. -/
structure Connect.HandsOver (from_str : String → Option RTCIceCandidateInit) (s : Connect) :
    Prop where
  /-- None is handed over before the description is set. -/
  kept_back : s.handed ≠ [] → s.described = true
  /-- Those handed over, then those kept back, are those taken, in their order. -/
  handed_append_pending :
    s.handed ++ s.pending_candidates = candidates_of from_str s.connection_id s.taken
  /-- The task starts when none is kept back. -/
  spawned : s.task ≠ .Unspawned →
    s.described = true ∧ s.handed = candidates_of from_str s.connection_id s.taken
  /-- Once the description is set, the connection can take a step until the task is spawned, and
  it is spawned after so many steps at most. -/
  progress : s.described = true → s.task = .Unspawned →
    (∃ a s', Connect.step from_str s a = some s') ∧
      ∀ as t, Transition.run (Connect.step from_str) s as = some t → s.remaining ≤ as.length →
        t.task ≠ .Unspawned

theorem Connect.Stage.handsOver {from_str : String → Option RTCIceCandidateInit} {s : Connect}
    (hs : s.Stage from_str) : s.HandsOver from_str where
  kept_back := hs.kept_back
  handed_append_pending := hs.handed_append_pending
  spawned htask := by
    cases hs with
    | waiting _ hnot => exact absurd hnot htask
    | applying _ hnot => exact absurd hnot htask
    | spawned hdescribed _ _ _ hhanded => exact ⟨hdescribed, hhanded⟩
  progress hdescribed htask := ⟨(hs.apply_next hdescribed htask).1,
    fun _ _ hrun hlen => hs.spawned_of_run hdescribed hrun hlen⟩

/-- **Candidates wait for the description**, on both sides, and are handed over once and in their
order. -/
theorem candidates_wait (from_str : String → Option RTCIceCandidateInit) :
    (∀ connection_id remote_network_id as s, Transition.run (Connect.step from_str)
      (.start connection_id remote_network_id) as = some s → s.HandsOver from_str) ∧
    ∀ as s, Transition.run (Listener.step from_str) .bind as = some s →
      ∀ k ∈ s.accepted, ∀ c, s.connections[k]? = some c →
        c.handed <+: Transition.trace (Listener.step from_str) (Listener.dispatched from_str k)
          .bind as ∧
        ∀ before u d, before <+: as →
          Transition.run (Listener.step from_str) .bind before = some u →
            u.connections[k]? = some d → d.handed ≠ [] → d.described = true :=
  ⟨fun _ _ _ _ h => (Connect.stage_of_run h).handsOver, fun _ _ h _ hk _ hc =>
    ⟨Listener.handed_prefix h hc, fun _ _ _ hbefore hu hd =>
      Listener.described_of_handed h hk hbefore hu hd⟩⟩

/-- A dialer is sent a candidate before the answer and one after it. -/
def Connect.answered : List Connect.Action :=
  [.next (some (.candidate 5 "c" "9")), .next (some (.answer 5 "sdp" "9")), .call (.ok ()),
    .call (.ok ()), .apply, .applied (.ok ()), .apply, .task_next (some (.candidate 5 "d" "9"))]

/-- A listener accepts an offer and is sent a candidate. -/
def Listener.offered : List Listener.Action :=
  .signal (.offer 5 "sdp" "7") :: (Listener.handling ++ [.signal (.candidate 5 "c" "7"), .recv 0])

/-- The candidates of both runs are handed over. -/
theorem candidates_wait_answered :
    (∃ s, Transition.run (Connect.step fun _ => none) (.start 5 "9") Connect.answered = some s ∧
      s.HandsOver fun _ => none) ∧
    ∃ s c, Transition.run (Listener.step fun _ => none) .bind Listener.offered = some s ∧
      s.connections[0]? = some c ∧ c.handed <+: Transition.trace (Listener.step fun _ => none)
        (Listener.dispatched (fun _ => none) 0) .bind Listener.offered :=
  ⟨⟨_, rfl, (candidates_wait fun _ => none).1 5 "9" Connect.answered _ rfl⟩,
    ⟨_, _, rfl, rfl, ((candidates_wait fun _ => none).2 Listener.offered _ rfl 0 (by decide) _
      rfl).1⟩⟩

end Nethernet
