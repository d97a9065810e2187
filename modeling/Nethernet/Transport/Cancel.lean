import Nethernet.Transport.Connect

/-!
# Leaving `connect`

The candidate task of `NethernetStream::connect` is stopped only through its token: dropping the
token does not cancel it. The three exits of the last wait cancel it; the calls between the spawn of
the task and that wait leave `connect` by `?`. `released_iff`: no return leaves the task behind
exactly when none of these calls fails while the task runs.
-/

namespace Nethernet

open Foundations

namespace Connect

variable {from_str : String → Option RTCIceCandidateInit}

/-- A return leaves no task behind: it was not spawned, has ended or is cancelled. -/
def Released (s : Connect) : Prop :=
  ∀ result, s.phase = .Returned result →
    s.task = .Unspawned ∨ s.task = .Ended ∨ s.cancelled = true

/-- The calls between the spawn of the task and the last wait. -/
def Call.is_between : Call → Bool
  | set_reliable_channel | set_unreliable_channel | open_channels => true
  | _ => false

/-- One of these calls fails, and the task has not ended. -/
def Leaks (s : Connect) : Action → Prop
  | .call (.error _) => (∃ call, s.phase = .calling call ∧ call.is_between) ∧ s.task ≠ .Ended
  | _ => False

variable (from_str) in
/-- The stage of `connect`, and its token: cancelled at the end of the last wait, in which `connect`
returns. -/
structure Guarded (s : Connect) : Prop where
  stage : s.Stage from_str
  cancelled : s.cancelled = true → ∃ result, s.phase = .Returned result

theorem guarded_start (connection_id : UInt64) (remote_network_id : String) :
    (start connection_id remote_network_id).Guarded from_str where
  stage := stage_start connection_id remote_network_id
  cancelled h := by cases h

/-- Before the return the token is not cancelled. -/
theorem Guarded.not_cancelled {s : Connect} (hs : s.Guarded from_str)
    (hphase : ∀ result, s.phase ≠ .Returned result) : s.cancelled = false := by
  rw [← Bool.not_eq_true]
  intro hcancelled
  obtain ⟨result, hreturned⟩ := hs.cancelled hcancelled
  exact hphase result hreturned

theorem Guarded.step {s s' : Connect} {a : Action} (hs : s.Guarded from_str)
    (h : step from_str s a = some s') : s'.Guarded from_str := by
  refine ⟨hs.stage.step h, fun hcancelled => ?_⟩
  cases step_effect h with
  | answered _ hphase | buffered _ hphase | passed _ hphase | ended hphase | applying _ _ hphase
  | spawned hphase | applied _ hphase =>
    rw [hs.not_cancelled (by simp [hphase])] at hcancelled
    cases hcancelled
  | failed call e hphase => exact ⟨_, rfl⟩
  | succeeded call hphase =>
    rw [hs.not_cancelled (by simp [hphase]), Bool.false_or, decide_eq_true_eq] at hcancelled
    exact ⟨.ok (), by rw [hcancelled]; rfl⟩
  | handed | skipped | task_ended | task_added | task_cancelled => exact hs.cancelled hcancelled

/-- At a call, the task has been spawned unless the description is not set yet. -/
theorem Stage.task_of_calling {s : Connect} (hs : s.Stage from_str) {call : Call}
    (h : s.phase = .calling call) :
    s.task = .Unspawned ↔ call = .parse_answer ∨ call = .set_remote_description := by
  cases hs with
  | waiting _ htask hphase =>
    refine iff_of_true htask ?_
    cases call <;> simp [h, Phase.is_waiting] at hphase ⊢
  | applying _ _ hphase => rw [h] at hphase; cases hphase
  | spawned _ htask hphase =>
    refine iff_of_false htask ?_
    cases call <;> simp [h, Phase.is_late] at hphase ⊢

/-- **A call that fails** leaves the task behind exactly when it is one after the spawn of the task,
which has not ended, and before the last wait. -/
theorem Guarded.failed {s : Connect} (hs : s.Guarded from_str) {call : Call} (e : NethernetError)
    (hphase : s.phase = .calling call) :
    Released { s with
        cancelled := s.cancelled || call = Call.ice_connected, phase := .Returned (.error e) } ↔
      ¬ s.Leaks (.call (.error e)) := by
  have htask := hs.stage.task_of_calling hphase
  have hcancelled := hs.not_cancelled (by simp [hphase])
  have hleaks : s.Leaks (.call (.error e)) ↔ call.is_between ∧ s.task ≠ .Ended := by
    simp [Leaks, hphase]
  rw [hleaks]
  cases call <;> simp [Released, Call.is_between, hcancelled] at htask ⊢ <;> simp [htask]

/-- A step of the task leaves nothing behind that was not. -/
theorem Released.of_task {s s' : Connect} (hs : s.Released) (hphase : s'.phase = s.phase)
    (hcancelled : s'.cancelled = s.cancelled) (htask : s.task = .Recv ∨ s.task = .Adding) :
    s'.Released := by
  intro result h
  rw [hphase] at h
  rw [hcancelled]
  rcases hs result h with hunspawned | hended | hcancelled
  · rcases htask with htask | htask <;> rw [htask] at hunspawned <;> cases hunspawned
  · rcases htask with htask | htask <;> rw [htask] at hended <;> cases hended
  · exact .inr (.inr hcancelled)

theorem Guarded.released_step {s s' : Connect} {a : Action} (hs : s.Guarded from_str)
    (hreleased : s.Released) (h : Connect.step from_str s a = some s') :
    s'.Released ↔ ¬ s.Leaks a := by
  cases step_effect h with
  | answered | applying | spawned | applied =>
    exact iff_of_true (fun _ h => by cases h) fun h => h
  | buffered _ hphase | passed _ hphase =>
    exact iff_of_true (fun _ h => by rw [hphase] at h; cases h) fun h => h
  | ended hphase =>
    exact iff_of_true (fun _ _ => .inl (hs.stage.of_waiting hphase).2.1) fun h => h
  | failed call e hphase => exact hs.failed e hphase
  | succeeded call hphase =>
    refine iff_of_true ?_ fun h => h
    cases call <;> simp [Released, Call.next]
  | handed _ htask | skipped _ htask | task_ended htask | task_cancelled htask =>
    exact iff_of_true (hreleased.of_task rfl rfl (.inl htask)) fun h => h
  | task_added _ htask =>
    exact iff_of_true (hreleased.of_task rfl rfl (.inr htask)) fun h => h

/-- **No return leaves the candidate task behind** exactly when no call between the spawn of the
task and the last wait fails while the task has not ended. -/
theorem released_iff {connection_id : UInt64} {remote_network_id : String} {as : List Action}
    {s : Connect} (h : Transition.run (step from_str) (start connection_id remote_network_id) as =
      some s) :
    (∀ before u, before <+: as →
        Transition.run (step from_str) (start connection_id remote_network_id) before = some u →
          u.Released) ↔
      Transition.Along (step from_str) (fun s a => ¬ s.Leaks a)
        (start connection_id remote_network_id) as := by
  have hguarded : ∀ before u, Transition.run (step from_str)
      (start connection_id remote_network_id) before = some u → u.Guarded from_str :=
    fun _ _ hu => Transition.run_invariant (fun _ _ _ hs hstep => hs.step hstep)
      (guarded_start _ _) hu
  rw [← Transition.forall_prefix_iff (P := fun u => u.Guarded from_str ∧ u.Released)
    (fun _ _ _ hs hstep => (and_iff_right (hs.1.step hstep)).trans (hs.1.released_step hs.2 hstep))
    ⟨guarded_start _ _, fun _ h => by cases h⟩ h]
  exact ⟨fun hall before u hbefore hu => ⟨hguarded before u hu, hall before u hbefore hu⟩,
    fun hall before u hbefore hu => (hall before u hbefore hu).2⟩

/-- A call of `connect` that gets as far as the wait for the data channels. -/
def opening : List Action :=
  [.next (some (.answer 5 "sdp" "9")), .call (.ok ()), .call (.ok ()), .apply, .call (.ok ()),
    .call (.ok ())]

/-- A call that succeeds leaves no task behind. -/
theorem released_connected :
    (∀ before u, before <+: opening ++ [.call (.ok ()), .call (.ok ())] →
        Transition.run (step fun _ => none) (start 5 "9") before = some u → u.Released) ↔
      Transition.Along (step fun _ => none) (fun s a => ¬ s.Leaks a) (start 5 "9")
        (opening ++ [.call (.ok ()), .call (.ok ())]) :=
  released_iff rfl

/-- The data channels do not open in time: `connect` returns, and the task goes on. -/
theorem task_left_behind : ¬ ∀ (as : List Action) (s : Connect),
    Transition.run (step fun _ => none) (start 5 "9") as = some s → s.Released := by
  intro hreleased
  have htask := hreleased (opening ++ [.call (.error .Timeout)]) _ rfl _ rfl
  rcases htask with htask | htask | htask <;> cases htask

end Connect

end Nethernet
