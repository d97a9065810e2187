import Nethernet.Transport.Effect

/-!
# Offers that fail

`handle_offer` registers a notifier and a dispatcher and spawns a task before the last five of its
fallible calls, and returns at the first that fails. `restored_iff`: what it leaves behind when it
fails is what was there before exactly when its very first call fails. After a later failure the
task waits at its channel, whose sender stays in the map (`Waits`): only the task or a state handler
removes a dispatcher, and no handler has been set.
-/

namespace Nethernet

open Foundations

namespace Listener

variable {from_str : String → Option RTCIceCandidateInit}

/-- The steps of the task of the connection `k`. -/
def Action.of_task (k : ℕ) : Action → Bool
  | recv i | added i _ | notify i | clean_dispatchers i | clean_notifiers i => i = k
  | _ => false

/-- The steps of the connection `k`. -/
def Action.of_connection (k : ℕ) : Action → Bool
  | change i _ | handle i | on_ice_candidate i _ => i = k
  | a => a.of_task k

/-- The steps of `handle_offer` and of the connection `k` that it creates. -/
def Action.of_offer (k : ℕ) : Action → Bool
  | call _ | proceed => true
  | a => a.of_connection k

/-- The results of the fallible calls, in their order. -/
def results (as : List Action) : List (Except NethernetError String) :=
  as.filterMap fun
    | .call result => some result
    | _ => none

/-- The task of the connection `k` is at `task`, nothing is in its channel, which is open once the
task receives, and the connection has no state handler. -/
def Waits (s : Listener) (k : ℕ) (task : Task) : Prop :=
  ∃ c : Connection, s.connections[k]? = some c ∧ c.queue = [] ∧ c.handler = false ∧
    c.pending = [] ∧ c.task = task ∧ (task = .Recv → s.signal_dispatchers c.connection_id = some k)

/-- The task of the connection `k` takes no step. -/
def Settled (from_str : String → Option RTCIceCandidateInit) (s : Listener) (k : ℕ) : Prop :=
  ∀ a : Action, a.of_task k → step from_str s a = none

/-- **A task that waits takes no step.** -/
theorem Waits.settled {s : Listener} {k : ℕ} {task : Task} (hw : s.Waits k task)
    (htask : task = .Unspawned ∨ task = .Recv) : s.Settled from_str k := by
  obtain ⟨c, hc, hqueue, -, -, rfl, hentry⟩ := hw
  have hne : ∀ task : Task, task ≠ .Unspawned → task ≠ .Recv → c.task ≠ task := by
    rintro task h h' rfl
    exact htask.elim h h'
  intro a ha
  cases a with
  | signal | stop | call | proceed | change | handle | on_ice_candidate => cases ha
  | recv i =>
    obtain rfl := of_decide_eq_true ha
    simp only [step, hc, Option.bind_some, recv, hqueue]
    split
    · rename_i hrecv
      exact if_pos (hentry hrecv)
    · rfl
  | added i result =>
    obtain rfl := of_decide_eq_true ha
    simp only [step, hc, Option.bind_some, added.eq_def]
    exact if_neg (hne .Adding (by decide) (by decide))
  | notify i =>
    obtain rfl := of_decide_eq_true ha
    simp only [step, hc, Option.bind_some, notify]
    exact if_neg (hne .Notify (by decide) (by decide))
  | clean_dispatchers i =>
    obtain rfl := of_decide_eq_true ha
    simp only [step, hc, Option.bind_some, clean_dispatchers]
    exact if_neg (hne .CleanDispatchers (by decide) (by decide))
  | clean_notifiers i =>
    obtain rfl := of_decide_eq_true ha
    simp only [step, hc, Option.bind_some, clean_notifiers]
    exact if_neg (hne .CleanNotifiers (by decide) (by decide))

/-- A connection that waits goes on waiting: it may change its state or gather a candidate. -/
theorem Waits.step {s s' : Listener} {k : ℕ} {task : Task} {a : Action} (hw : s.Waits k task)
    (htask : task = .Unspawned ∨ task = .Recv) (ha : a.of_connection k)
    (h : step from_str s a = some s') : s'.Waits k task := by
  by_cases htaken : a.of_task k
  · cases (hw.settled htask a htaken).symm.trans h
  obtain ⟨c, hc, hqueue, hhandler, hpending, rfl, hentry⟩ := hw
  cases a with
  | signal | stop | call | proceed => cases ha
  | recv | added | notify | clean_dispatchers | clean_notifiers => exact absurd ha htaken
  | change i state =>
    obtain rfl := of_decide_eq_true ha
    simp only [Listener.step, hc, Option.bind_some, change] at h
    split at h
    · cases h
    · obtain rfl := Option.some.inj h
      refine ⟨_, (getElem?_set_eq_some hc).2 (.inl ⟨rfl, rfl⟩), hqueue, hhandler, ?_, rfl, hentry⟩
      rw [hhandler, if_neg Bool.false_ne_true, hpending]
  | handle i =>
    obtain rfl := of_decide_eq_true ha
    simp only [Listener.step, hc, Option.bind_some, handle, hpending] at h
    cases h
  | on_ice_candidate i json =>
    obtain ⟨_, -, rfl⟩ := Option.map_eq_some_iff.1 h
    exact ⟨c, hc, hqueue, hhandler, hpending, rfl, hentry⟩

/-- A connection that does not exist takes no step. -/
theorem step_of_connection_eq_none {s : Listener} {k : ℕ} {a : Action}
    (hk : s.connections[k]? = none) (ha : a.of_connection k) : step from_str s a = none := by
  cases a with
  | signal | stop | call | proceed => cases ha
  | recv i | added i | notify i | clean_dispatchers i | clean_notifiers i | change i | handle i
  | on_ice_candidate i =>
    obtain rfl := of_decide_eq_true ha
    simp only [step, hk, Option.bind_none, Option.map_none]

/-- The steps of a connection leave the signal handler alone. -/
theorem loop_of_connection {s s' : Listener} {k : ℕ} {a : Action} (ha : a.of_connection k)
    (h : step from_str s a = some s') : s'.loop = s.loop ∧ s'.returned = s.returned := by
  cases a with
  | signal | stop | call | proceed => cases ha
  | recv i =>
    obtain ⟨c, -, h⟩ := Option.bind_eq_some_iff.1 h
    grind [recv, put]
  | added i result =>
    obtain ⟨c, -, h⟩ := Option.bind_eq_some_iff.1 h
    grind [added.eq_def, put]
  | notify i =>
    obtain ⟨c, -, h⟩ := Option.bind_eq_some_iff.1 h
    grind [notify, put, remove_notifier]
  | clean_dispatchers i =>
    obtain ⟨c, -, h⟩ := Option.bind_eq_some_iff.1 h
    grind [clean_dispatchers, put, remove_dispatcher]
  | clean_notifiers i =>
    obtain ⟨c, -, h⟩ := Option.bind_eq_some_iff.1 h
    grind [clean_notifiers, put, remove_notifier]
  | change i state =>
    obtain ⟨c, -, h⟩ := Option.bind_eq_some_iff.1 h
    grind [change, put]
  | handle i =>
    obtain ⟨c, -, h⟩ := Option.bind_eq_some_iff.1 h
    grind [handle, put, remove_dispatcher]
  | on_ice_candidate i json =>
    obtain ⟨c, -, rfl⟩ := Option.map_eq_some_iff.1 h
    exact ⟨rfl, rfl⟩

/-- A result that is not an error. -/
def Succeeds (result : Except NethernetError String) : Prop := ∃ text, result = .ok text

/-- How far `handle_offer` has come from the state `s`, and with which results. -/
inductive Progress (s : Listener) (offer : Signal) :
    List (Except NethernetError String) → Listener → Prop
  | creating : Progress s offer [] { s with loop := .new_peer_connection offer }
  | refused (e : NethernetError) : Progress s offer [.error e] (s.returns (.error e))
  | unregistered {s' : Listener} (text : String) (hw : s'.Waits s.connections.length .Unspawned)
      (hloop : s'.loop = .insert_notifier s.connections.length ∨
        s'.loop = .insert_dispatcher s.connections.length) (hret : s'.returned = s.returned) :
      Progress s offer [.ok text] s'
  | registered {s' : Listener} {oks : List (Except NethernetError String)} (hoks : oks ≠ [])
      (hok : ∀ r ∈ oks, Succeeds r) (hw : s'.Waits s.connections.length .Recv)
      (hloop : (∃ call, s'.loop = .calling s.connections.length call) ∨
        s'.loop = .set_handlers s.connections.length) (hret : s'.returned = s.returned) :
      Progress s offer oks s'
  | abandoned {s' : Listener} {oks : List (Except NethernetError String)} (e : NethernetError)
      (hoks : oks ≠ []) (hok : ∀ r ∈ oks, Succeeds r) (hw : s'.Waits s.connections.length .Recv)
      (hloop : s'.loop = .Waiting) (hret : s'.returned = s.returned ++ [.error e]) :
      Progress s offer (oks ++ [.error e]) s'
  | accepted {s' : Listener} {oks : List (Except NethernetError String)}
      (hok : ∀ r ∈ oks, Succeeds r) (hloop : s'.loop = .Waiting)
      (hret : s'.returned = s.returned ++ [.ok ()]) : Progress s offer oks s'

theorem Action.of_offer_cases {k : ℕ} {a : Action} (ha : a.of_offer k) :
    (∃ result, a = .call result) ∨ a = .proceed ∨ (a.of_connection k ∧ results [a] = []) := by
  cases a with
  | call result => exact .inl ⟨result, rfl⟩
  | proceed => exact .inr (.inl rfl)
  | signal | stop => cases ha
  | _ => exact .inr (.inr ⟨ha, rfl⟩)

section Steps

variable {s t t' : Listener} {offer : Signal} {rs : List (Except NethernetError String)}
  {a : Action}

/-- A call of `handle_offer` returns. -/
theorem Progress.call {result : Except NethernetError String} (hp : Progress s offer rs t)
    (h : t.on_call result = some t') : Progress s offer (rs ++ [result]) t' := by
  cases hp with
  | creating =>
    cases result with
    | error e =>
      obtain rfl := Option.some.inj h
      exact .refused e
    | ok text =>
      obtain rfl := Option.some.inj h
      refine .unregistered text ⟨Connection.new offer, ?_, rfl, rfl, rfl, rfl, nofun⟩ (.inl rfl) rfl
      exact getElem?_concat_eq_some.2 (.inr ⟨rfl, rfl⟩)
  | refused e => cases h
  | unregistered text hw hloop hret =>
    rcases hloop with hloop | hloop <;> simp [on_call, hloop] at h
  | registered hoks hok hw hloop hret =>
    obtain ⟨c, hc, hqueue, hhandler, hpending, htask, hentry⟩ := hw
    rcases hloop with ⟨call, hloop⟩ | hloop
    · cases result with
      | error e =>
        simp only [on_call, hloop, hc, Option.some.injEq] at h
        subst h
        exact .abandoned e hoks hok ⟨c, hc, hqueue, hhandler, hpending, htask, hentry⟩ rfl
          (by rw [← hret]; rfl)
      | ok text =>
        simp only [on_call, hloop, hc, Option.some.injEq] at h
        subst h
        refine .registered (List.append_ne_nil_of_left_ne_nil hoks _) ?_
          ⟨_, (getElem?_set_eq_some hc).2 (.inl ⟨rfl, rfl⟩), ?_⟩ ?_ hret
        · exact List.forall_mem_append.2 ⟨hok, List.forall_mem_singleton.2 ⟨text, rfl⟩⟩
        · cases call <;> exact ⟨hqueue, hhandler, hpending, htask, hentry⟩
        · cases call <;> simp [Call.next]
    · simp [on_call, hloop] at h
  | abandoned e hoks hok hw hloop hret => simp [on_call, hloop] at h
  | accepted hok hloop hret => simp [on_call, hloop] at h

/-- `handle_offer` takes a step between its calls. -/
theorem Progress.proceed (hp : Progress s offer rs t) (h : t.proceed = some t') :
    Progress s offer rs t' := by
  cases hp with
  | creating => cases h
  | refused e => cases h
  | unregistered text hw hloop hret =>
    obtain ⟨c, hc, hqueue, hhandler, hpending, htask, -⟩ := hw
    rcases hloop with hloop | hloop
    · simp only [Listener.proceed, hloop, hc, Option.map_some, Option.some.injEq] at h
      subst h
      exact .unregistered text ⟨c, hc, hqueue, hhandler, hpending, htask, Task.noConfusion⟩
        (.inr rfl) hret
    · simp only [Listener.proceed, hloop, hc, Option.map_some, Option.some.injEq] at h
      subst h
      exact .registered (List.cons_ne_nil _ _) (List.forall_mem_singleton.2 ⟨text, rfl⟩)
        ⟨_, (getElem?_set_eq_some hc).2 (.inl ⟨rfl, rfl⟩), hqueue, hhandler, hpending, rfl,
          fun _ => Function.update_self ..⟩ (.inl ⟨_, rfl⟩) hret
  | registered hoks hok hw hloop hret =>
    obtain ⟨c, hc, -⟩ := hw
    rcases hloop with ⟨call, hloop⟩ | hloop
    · simp [Listener.proceed, hloop] at h
    · simp only [Listener.proceed, hloop, hc, Option.map_some, Option.some.injEq] at h
      subst h
      exact .accepted hok rfl (by rw [← hret]; rfl)
  | abandoned e hoks hok hw hloop hret => simp [Listener.proceed, hloop] at h
  | accepted hok hloop hret => simp [Listener.proceed, hloop] at h

/-- The connection takes a step. -/
theorem Progress.connection (hp : Progress s offer rs t)
    (ha : a.of_connection s.connections.length) (h : Listener.step from_str t a = some t') :
    Progress s offer rs t' := by
  have hnone : s.connections[s.connections.length]? = none := List.getElem?_eq_none (Nat.le_refl _)
  obtain ⟨hloop', hret'⟩ := loop_of_connection ha h
  cases hp with
  | creating =>
    have hnone' : ({ s with loop := .new_peer_connection offer } : Listener).connections[
        s.connections.length]? = none := hnone
    cases (step_of_connection_eq_none hnone' ha).symm.trans h
  | refused e =>
    have hnone' : (s.returns (.error e)).connections[s.connections.length]? = none := hnone
    cases (step_of_connection_eq_none hnone' ha).symm.trans h
  | unregistered text hw hloop hret =>
    exact .unregistered text (hw.step (.inl rfl) ha h) (hloop' ▸ hloop) (hret'.trans hret)
  | registered hoks hok hw hloop hret =>
    exact .registered hoks hok (hw.step (.inr rfl) ha h) (hloop' ▸ hloop) (hret'.trans hret)
  | abandoned e hoks hok hw hloop hret =>
    exact .abandoned e hoks hok (hw.step (.inr rfl) ha h) (hloop'.trans hloop) (hret'.trans hret)
  | accepted hok hloop hret => exact .accepted hok (hloop'.trans hloop) (hret'.trans hret)

/-- **A step of an offer.** -/
theorem Progress.step (hp : Progress s offer rs t) (ha : a.of_offer s.connections.length)
    (h : Listener.step from_str t a = some t') : Progress s offer (rs ++ results [a]) t' := by
  rcases Action.of_offer_cases ha with ⟨result, rfl⟩ | rfl | ⟨hconn, hres⟩
  · exact hp.call h
  · rw [show results [.proceed] = [] from rfl, List.append_nil]
    exact hp.proceed h
  · rw [hres, List.append_nil]
    exact hp.connection hconn h

end Steps

/-- **The progress of an offer** in every run of `handle_offer` and its connection. -/
theorem progress_of_run {s s' : Listener} {offer : Signal} {as : List Action}
    (hloop : s.loop = .Waiting) (htype : offer.signal_type = .Offer)
    (hown : ∀ a ∈ as, a.of_offer s.connections.length)
    (h : Transition.run (step from_str) s (.signal offer :: as) = some s') :
    Progress s offer (results as) s' := by
  obtain ⟨t, ht, h⟩ := Transition.run_cons_eq_some.1 h
  obtain rfl : { s with loop := .new_peer_connection offer } = t := by
    simp only [step, on_signal, hloop, if_true, htype, Option.some.injEq] at ht
    exact ht
  have hstep : ∀ (bs : List Action) (t : Listener) (a : Action) (t' : Listener),
      ((∀ b ∈ bs, b.of_offer s.connections.length) → Progress s offer (results bs) t) →
      step from_str t a = some t' →
      (∀ b ∈ bs ++ [a], b.of_offer s.connections.length) →
        Progress s offer (results (bs ++ [a])) t' := by
    intro bs t a t' hp h hbs
    have hbs' := List.forall_mem_append.1 hbs
    rw [results, List.filterMap_append]
    exact (hp hbs'.1).step (hbs'.2 a List.mem_cons_self) h
  have hstart : (∀ b ∈ ([] : List Action), b.of_offer s.connections.length) →
      Progress s offer (results []) { s with loop := .new_peer_connection offer } :=
    fun _ => .creating
  exact Transition.run_induction (P := fun bs t => (∀ b ∈ bs, b.of_offer s.connections.length) →
    Progress s offer (results bs) t) hstep hstart h hown

/-- The maps are what they were, and the task of the connection `k` has ended, if there is one. -/
structure Restored (s s' : Listener) (k : ℕ) : Prop where
  signal_dispatchers : s'.signal_dispatchers = s.signal_dispatchers
  candidate_notifiers : s'.candidate_notifiers = s.candidate_notifiers
  ended : ∀ c : Connection, s'.connections[k]? = some c → c.task = .Ended

/-- **Failed offers**: once the tasks have settled, an error leaves everything as it was exactly
when `new_peer_connection` has failed, or nothing has. -/
theorem restored_iff {s s' : Listener} {offer : Signal} {as : List Action}
    (hloop : s.loop = .Waiting) (htype : offer.signal_type = .Offer)
    (hown : ∀ a ∈ as, a.of_offer s.connections.length)
    (h : Transition.run (step from_str) s (.signal offer :: as) = some s')
    (hdone : s'.loop = .Waiting) :
    ((∃ e, s'.returned = s.returned ++ [.error e]) → s'.Settled from_str s.connections.length →
        Restored s s' s.connections.length) ↔
      (∃ e, (results as).head? = some (.error e)) ∨ ∀ r ∈ results as, Succeeds r := by
  have hp := progress_of_run hloop htype hown h
  generalize results as = rs at hp ⊢
  cases hp with
  | creating => cases hdone
  | refused e =>
    refine iff_of_true (fun _ _ => ⟨rfl, rfl, fun c hc => ?_⟩) (.inl ⟨e, rfl⟩)
    exact absurd (List.getElem?_eq_some_iff.1 hc).1 (Nat.lt_irrefl _)
  | unregistered text hw hloop' =>
    rcases hloop' with hloop' | hloop' <;> cases hdone.symm.trans hloop'
  | registered hoks hok hw hloop' =>
    rcases hloop' with ⟨call, hloop'⟩ | hloop' <;> cases hdone.symm.trans hloop'
  | @abandoned _ oks e hoks hok hw hloop' hret =>
    refine iff_of_false (fun h => ?_) ?_
    · have hrestored := h ⟨e, hret⟩ (hw.settled (.inr rfl))
      obtain ⟨c, hc, -, -, -, htask, -⟩ := hw
      cases htask.symm.trans (hrestored.ended c hc)
    · rintro (⟨e', he'⟩ | hall)
      · obtain ⟨r, oks, rfl⟩ := List.exists_cons_of_ne_nil hoks
        obtain ⟨text, rfl⟩ := hok r List.mem_cons_self
        cases he'
      · obtain ⟨text, htext⟩ := hall (.error e) (List.mem_append_right _ List.mem_cons_self)
        cases htext
  | accepted hok hloop' hret =>
    refine iff_of_true (fun ⟨e, he⟩ _ => ?_) (.inr hok)
    cases List.append_cancel_left (he.symm.trans hret)

/-- An offer whose data is not valid SDP. -/
def invalid_offer : Signal := .offer 5 "not sdp" "7"

/-- The steps of `handle_offer` until it has read the offer. -/
def failing (e : NethernetError) : List Action :=
  [.call (.ok ""), .proceed, .proceed, .call (.error e)]

theorem run_failing (e : NethernetError) : ∃ s',
    Transition.run (step from_str) bind (.signal invalid_offer :: failing e) = some s' ∧
      s'.loop = .Waiting ∧ s'.returned = [.error e] ∧ s'.signal_dispatchers 5 = some 0 ∧
        s'.Waits 0 .Recv :=
  ⟨_, rfl, rfl, rfl, rfl, _, rfl, rfl, rfl, rfl, rfl, fun _ => rfl⟩

/-- The condition on an offer whose data is not valid SDP. -/
theorem restored_invalid : ∃ s',
    Transition.run (step fun _ => none) bind
        (.signal invalid_offer :: failing (.WebRtc "SyntaxError")) = some s' ∧
      (((∃ e, s'.returned = [.error e]) → s'.Settled (fun _ => none) 0 → Restored bind s' 0) ↔
        (∃ e, (results (failing (.WebRtc "SyntaxError"))).head? = some (.error e)) ∨
          ∀ r ∈ results (failing (.WebRtc "SyntaxError")), Succeeds r) := by
  obtain ⟨s', hrun, hdone, -⟩ := run_failing (.WebRtc "SyntaxError")
  exact ⟨s', hrun, restored_iff rfl rfl (by decide) hrun hdone⟩

/-- `handle_offer` fails on an offer whose data is not valid SDP; when its task has settled, the
dispatcher is still there. -/
theorem not_restored : ∃ s',
    Transition.run (step fun _ => none) bind
        (.signal invalid_offer :: failing (.WebRtc "SyntaxError")) = some s' ∧
      s'.returned = [.error (.WebRtc "SyntaxError")] ∧ s'.Settled (fun _ => none) 0 ∧
        ¬ Restored bind s' 0 := by
  obtain ⟨s', hrun, -, hret, hentry, hw⟩ := run_failing (.WebRtc "SyntaxError")
  refine ⟨s', hrun, hret, hw.settled (.inr rfl), fun h => ?_⟩
  cases hentry.symm.trans (congrFun h.signal_dispatchers 5)

end Listener

end Nethernet
