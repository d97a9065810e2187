import Nethernet.Transport.Listener

/-!
# Connecting

The signal handling of `NethernetStream::connect` (`src/transport/stream.rs`) after the offer has
been signalled: the loop that waits for the answer, the candidates it keeps back until
`set_remote_description` has returned, the task that takes the signals after that, and the calls up
to the return of `connect`. `taken` is the list of signals that the signal stream has yielded.
-/

namespace Nethernet

open Foundations

namespace Connect

/-- The fallible calls of `connect`, in their order. `open_channels` and `ice_connected` are the two
waits with a timeout. -/
inductive Call
  | parse_answer
  | set_remote_description
  | set_reliable_channel
  | set_unreliable_channel
  | open_channels
  | ice_connected
  deriving DecidableEq, Repr

/-- Where `connect` is: waiting for a signal, at a call, in the loop over the buffered candidates,
or at `add_ice_candidate` with one of them. -/
inductive Phase
  | Waiting
  | calling (call : Call)
  | Applying
  | Adding
  | Returned (result : Except NethernetError Unit)
  deriving DecidableEq, Repr

/-- Where the candidate task is. -/
inductive Task
  | Unspawned
  /-- At the `select!`. -/
  | Recv
  /-- At `add_ice_candidate`. -/
  | Adding
  | Ended
  deriving DecidableEq, Repr

/-- What follows a call that succeeds. -/
def Call.next : Call → Phase
  | parse_answer => .calling set_remote_description
  | set_remote_description => .Applying
  | set_reliable_channel => .calling set_unreliable_channel
  | set_unreliable_channel => .calling open_channels
  | open_channels => .calling ice_connected
  | ice_connected => .Returned (.ok ())

end Connect

open Connect in
/-- A call of `connect`. -/
structure Connect where
  connection_id : UInt64
  remote_network_id : String
  phase : Phase
  /-- The answer that ended the wait. -/
  answer : Option String
  /-- Has `set_remote_description` returned? -/
  described : Bool
  pending_candidates : List RTCIceCandidateInit
  /-- The candidates handed to `add_ice_candidate`. -/
  handed : List RTCIceCandidateInit
  task : Task
  cancelled : Bool
  taken : List Signal

namespace Connect

/-- The steps of `connect` and of its task. -/
inductive Action
  /-- The loop takes what the signal stream yields. -/
  | next (signal : Option Signal)
  /-- The call at which `connect` is returns. -/
  | call (result : Except NethernetError Unit)
  /-- The loop over the buffered candidates takes a step, and `add_ice_candidate` returns. -/
  | apply
  | applied (result : Except String Unit)
  /-- The task takes what the stream yields, `add_ice_candidate` returns, or it is cancelled. -/
  | task_next (signal : Option Signal)
  | task_added (result : Except String Unit)
  | task_cancelled
  deriving DecidableEq, Repr

/-- Before the first signal. -/
def start (connection_id : UInt64) (remote_network_id : String) : Connect where
  connection_id := connection_id
  remote_network_id := remote_network_id
  phase := .Waiting
  answer := none
  described := false
  pending_candidates := []
  handed := []
  task := .Unspawned
  cancelled := false
  taken := []

variable (from_str : String → Option RTCIceCandidateInit)

/-- What the loop does with a signal. -/
def wait (s : Connect) (signal : Signal) : Connect :=
  if signal.connection_id = s.connection_id then
    match signal.signal_type with
    | .Answer => { s with phase := .calling .parse_answer, answer := some signal.data }
    | .Candidate => { s with
        pending_candidates := s.pending_candidates ++ [candidate_init from_str signal.data] }
    | _ => s
  else s

/-- The loop takes a signal, or finds that the stream has ended. -/
def next (s : Connect) (signal_opt : Option Signal) : Option Connect :=
  if s.phase = .Waiting then
    match signal_opt with
    | some signal => some { s.wait from_str signal with taken := s.taken ++ [signal] }
    | none => some { s with phase := .Returned (.error .Timeout) }
  else none

/-- The call at which `connect` is returns. Only the end of the last wait cancels the task. -/
def on_call (s : Connect) (result : Except NethernetError Unit) : Option Connect :=
  match s.phase with
  | .calling call =>
    let s := { s with cancelled := s.cancelled || call = Call.ice_connected }
    match result with
    | .error e => some { s with phase := .Returned (.error e) }
    | .ok () => some { s with
        phase := call.next, described := s.described || call = Call.set_remote_description }
  | _ => none

/-- Hand over the next buffered candidate, or spawn the task when there is none. -/
def apply (s : Connect) : Option Connect :=
  if s.phase = .Applying then
    match s.pending_candidates with
    | candidate_init :: pending_candidates => some { s with
        phase := .Adding
        pending_candidates := pending_candidates
        handed := s.handed ++ [candidate_init] }
    | [] => some { s with phase := .calling .set_reliable_channel, task := .Recv }
  else none

/-- What the task does with a signal. -/
def handle (s : Connect) (signal : Signal) : Connect :=
  if signal.connection_id = s.connection_id ∧ signal.signal_type = .Candidate then
    { s with task := .Adding, handed := s.handed ++ [candidate_init from_str signal.data] }
  else s

/-- The task takes a signal, or finds that the stream has ended. -/
def task_next (s : Connect) (signal_opt : Option Signal) : Option Connect :=
  if s.task = .Recv then
    match signal_opt with
    | some signal => some { s.handle from_str signal with taken := s.taken ++ [signal] }
    | none => some { s with task := .Ended }
  else none

/-- One step. -/
def step : Transition Connect Action
  | s, .next signal_opt => s.next from_str signal_opt
  | s, .call result => s.on_call result
  | s, .apply => s.apply
  | s, .applied _ => if s.phase = .Adding then some { s with phase := .Applying } else none
  | s, .task_next signal_opt => s.task_next from_str signal_opt
  | s, .task_added _ => if s.task = .Adding then some { s with task := .Recv } else none
  | s, .task_cancelled =>
    if s.task = .Recv ∧ s.cancelled then some { s with task := .Ended } else none

/-! ## The candidates -/

variable {from_str}

variable (from_str) in
/-- The candidates of a connection among some signals. -/
def candidates_of (connection_id : UInt64) (signals : List Signal) : List RTCIceCandidateInit :=
  (signals.filter fun signal =>
    signal.connection_id = connection_id ∧ signal.signal_type = .Candidate).map
      (candidate_init from_str ·.data)

variable (from_str) in
theorem candidates_of_append (id : UInt64) (signals signals' : List Signal) :
    candidates_of from_str id (signals ++ signals') =
      candidates_of from_str id signals ++ candidates_of from_str id signals' := by
  simp only [candidates_of, List.filter_append, List.map_append]

variable (from_str) in
theorem candidates_of_concat (id : UInt64) (signals : List Signal) (signal : Signal) :
    candidates_of from_str id (signals ++ [signal]) = candidates_of from_str id signals ++
      if signal.connection_id = id ∧ signal.signal_type = .Candidate then
        [candidate_init from_str signal.data] else [] := by
  rw [candidates_of_append]
  congr 1
  rw [candidates_of]
  split <;> simp_all

/-- The remote description is not set. -/
def Phase.is_waiting : Phase → Bool
  | .Waiting | .calling .parse_answer | .calling .set_remote_description => true
  | _ => false

/-- The buffered candidates are being handed over. -/
def Phase.is_applying : Phase → Bool
  | .Applying | .Adding => true
  | _ => false

/-- The task may be running. -/
def Phase.is_late : Phase → Bool
  | .Waiting | .calling .parse_answer | .calling .set_remote_description | .Applying | .Adding =>
    false
  | _ => true

variable (from_str) in
/-- How far a connection is, and what has become of the candidates taken. -/
inductive Stage (s : Connect) : Prop
  /-- They are kept back. -/
  | waiting (hdescribed : s.described = false) (htask : s.task = .Unspawned)
      (hphase : s.phase.is_waiting ∨ ∃ result, s.phase = .Returned result) (hhanded : s.handed = [])
      (hpending : s.pending_candidates = candidates_of from_str s.connection_id s.taken)
  /-- The first have been handed over, and the others are kept back. -/
  | applying (hdescribed : s.described = true) (htask : s.task = .Unspawned)
      (hphase : s.phase.is_applying)
      (htaken : s.handed ++ s.pending_candidates =
        candidates_of from_str s.connection_id s.taken)
  /-- All have been handed over. -/
  | spawned (hdescribed : s.described = true) (htask : s.task ≠ .Unspawned)
      (hphase : s.phase.is_late) (hpending : s.pending_candidates = [])
      (hhanded : s.handed = candidates_of from_str s.connection_id s.taken)

theorem stage_start (connection_id : UInt64) (remote_network_id : String) :
    (start connection_id remote_network_id).Stage from_str :=
  .waiting rfl rfl (.inl rfl) rfl rfl

variable (from_str) in
/-- What a step does. -/
inductive Effect (s : Connect) : Action → Connect → Prop
  | answered (signal : Signal) (hphase : s.phase = .Waiting)
    (hid : signal.connection_id = s.connection_id) (htype : signal.signal_type = .Answer) :
    Effect s (.next (some signal)) { s with
      phase := .calling .parse_answer, answer := some signal.data, taken := s.taken ++ [signal] }
  | buffered (signal : Signal) (hphase : s.phase = .Waiting)
    (hid : signal.connection_id = s.connection_id) (htype : signal.signal_type = .Candidate) :
    Effect s (.next (some signal)) { s with
      pending_candidates := s.pending_candidates ++ [candidate_init from_str signal.data]
      taken := s.taken ++ [signal] }
  | passed (signal : Signal) (hphase : s.phase = .Waiting)
    (hother : signal.connection_id = s.connection_id →
      signal.signal_type ≠ .Answer ∧ signal.signal_type ≠ .Candidate) :
    Effect s (.next (some signal)) { s with taken := s.taken ++ [signal] }
  | ended (hphase : s.phase = .Waiting) :
    Effect s (.next none) { s with phase := .Returned (.error .Timeout) }
  | failed (call : Call) (e : NethernetError) (hphase : s.phase = .calling call) :
    Effect s (.call (.error e)) { s with
      cancelled := s.cancelled || call = Call.ice_connected, phase := .Returned (.error e) }
  | succeeded (call : Call) (hphase : s.phase = .calling call) :
    Effect s (.call (.ok ())) { s with
      cancelled := s.cancelled || call = Call.ice_connected, phase := call.next
      described := s.described || call = Call.set_remote_description }
  | applying (candidate_init : RTCIceCandidateInit) (pending_candidates : List RTCIceCandidateInit)
    (hphase : s.phase = .Applying)
    (hpending : s.pending_candidates = candidate_init :: pending_candidates) :
    Effect s .apply { s with
      phase := .Adding, pending_candidates := pending_candidates
      handed := s.handed ++ [candidate_init] }
  | spawned (hphase : s.phase = .Applying) (hpending : s.pending_candidates = []) :
    Effect s .apply { s with phase := .calling .set_reliable_channel, task := .Recv }
  | applied (result : Except String Unit) (hphase : s.phase = .Adding) :
    Effect s (.applied result) { s with phase := .Applying }
  | handed (signal : Signal) (htask : s.task = .Recv)
    (hown : signal.connection_id = s.connection_id ∧ signal.signal_type = .Candidate) :
    Effect s (.task_next (some signal)) { s with
      task := .Adding, handed := s.handed ++ [candidate_init from_str signal.data]
      taken := s.taken ++ [signal] }
  | skipped (signal : Signal) (htask : s.task = .Recv)
    (hother : ¬ (signal.connection_id = s.connection_id ∧ signal.signal_type = .Candidate)) :
    Effect s (.task_next (some signal)) { s with taken := s.taken ++ [signal] }
  | task_ended (htask : s.task = .Recv) : Effect s (.task_next none) { s with task := .Ended }
  | task_added (result : Except String Unit) (htask : s.task = .Adding) :
    Effect s (.task_added result) { s with task := .Recv }
  | task_cancelled (htask : s.task = .Recv) (hcancelled : s.cancelled = true) :
    Effect s .task_cancelled { s with task := .Ended }

theorem step_effect {s s' : Connect} {a : Action} (h : step from_str s a = some s') :
    s.Effect from_str a s' := by
  cases a with
  | next signal_opt =>
    obtain ⟨hphase, h⟩ := Option.ite_none_right_eq_some.1 h
    rcases signal_opt with _ | signal
    · exact Option.some.inj h ▸ .ended hphase
    · obtain rfl := Option.some.inj h
      unfold wait
      split
      · rename_i hid
        split
        · rename_i htype
          exact .answered signal hphase hid htype
        · rename_i htype
          exact .buffered signal hphase hid htype
        · rename_i hanswer hcandidate
          exact .passed signal hphase fun _ => ⟨hanswer, hcandidate⟩
      · rename_i hid
        exact .passed signal hphase fun h => absurd h hid
  | call result =>
    change s.on_call result = some s' at h
    unfold Connect.on_call at h
    split at h
    · rename_i call hphase
      rcases result with e | ⟨⟨⟩⟩
      · exact Option.some.inj h ▸ .failed call e hphase
      · exact Option.some.inj h ▸ .succeeded call hphase
    · cases h
  | apply =>
    obtain ⟨hphase, h⟩ := Option.ite_none_right_eq_some.1 h
    split at h
    · rename_i candidate_init pending_candidates hpending
      exact Option.some.inj h ▸ .applying candidate_init pending_candidates hphase hpending
    · rename_i hpending
      exact Option.some.inj h ▸ .spawned hphase hpending
  | applied result =>
    obtain ⟨hphase, h⟩ := Option.ite_none_right_eq_some.1 h
    exact Option.some.inj h ▸ .applied result hphase
  | task_next signal_opt =>
    obtain ⟨htask, h⟩ := Option.ite_none_right_eq_some.1 h
    rcases signal_opt with _ | signal
    · exact Option.some.inj h ▸ .task_ended htask
    · obtain rfl := Option.some.inj h
      unfold handle
      split
      · rename_i hown
        exact .handed signal htask hown
      · rename_i hother
        exact .skipped signal htask hother
  | task_added result =>
    obtain ⟨htask, h⟩ := Option.ite_none_right_eq_some.1 h
    exact Option.some.inj h ▸ .task_added result htask
  | task_cancelled =>
    obtain ⟨⟨htask, hcancelled⟩, h⟩ := Option.ite_none_right_eq_some.1 h
    exact Option.some.inj h ▸ .task_cancelled htask hcancelled

/-- A stage in which the loop waits for the answer. -/
theorem Stage.of_waiting {s : Connect} (hs : s.Stage from_str) (h : s.phase = .Waiting) :
    s.described = false ∧ s.task = .Unspawned ∧ s.handed = [] ∧
      s.pending_candidates = candidates_of from_str s.connection_id s.taken := by
  cases hs with
  | waiting hdescribed htask _ hhanded hpending => exact ⟨hdescribed, htask, hhanded, hpending⟩
  | applying _ _ hphase => rw [h] at hphase; cases hphase
  | spawned _ _ hphase => rw [h] at hphase; cases hphase

/-- A stage in which the buffered candidates are being handed over. -/
theorem Stage.of_applying {s : Connect} (hs : s.Stage from_str) (h : s.phase.is_applying) :
    s.described = true ∧ s.task = .Unspawned ∧ s.handed ++ s.pending_candidates =
      candidates_of from_str s.connection_id s.taken := by
  cases hs with
  | waiting _ _ hphase =>
    rcases hp : s.phase with _ | call | _ | _ | result <;>
      simp [hp, Phase.is_applying, Phase.is_waiting] at h hphase
  | applying hdescribed htask _ htaken => exact ⟨hdescribed, htask, htaken⟩
  | spawned _ _ hphase =>
    rcases hp : s.phase with _ | call | _ | _ | result <;>
      simp [hp, Phase.is_applying, Phase.is_late] at h hphase

/-- A stage in which the task runs. -/
theorem Stage.of_spawned {s : Connect} (hs : s.Stage from_str) (h : s.task ≠ .Unspawned) :
    s.described = true ∧ s.phase.is_late ∧ s.pending_candidates = [] ∧
      s.handed = candidates_of from_str s.connection_id s.taken := by
  cases hs with
  | waiting _ htask => exact absurd htask h
  | applying _ htask => exact absurd htask h
  | spawned hdescribed _ hphase hpending hhanded => exact ⟨hdescribed, hphase, hpending, hhanded⟩

theorem Stage.succeed {s : Connect} (hs : s.Stage from_str) {call : Call}
    (hcalling : s.phase = .calling call) : Stage from_str { s with
      cancelled := s.cancelled || call = Call.ice_connected, phase := call.next
      described := s.described || call = Call.set_remote_description } := by
  cases hs with
  | waiting hdescribed htask hphase hhanded hpending =>
    rw [hcalling] at hphase
    cases call with
    | parse_answer => exact .waiting (by simp [hdescribed]) htask (.inl rfl) hhanded hpending
    | set_remote_description =>
      exact .applying (by simp) htask rfl (by rw [hhanded]; exact hpending)
    | _ => simp [Phase.is_waiting] at hphase
  | applying _ _ hphase => rw [hcalling] at hphase; cases call <;> cases hphase
  | spawned hdescribed htask hphase hpending hhanded =>
    rw [hcalling] at hphase
    refine .spawned (by simp [hdescribed]) htask ?_ hpending hhanded
    cases call <;> first | rfl | cases hphase

theorem Stage.fail {s : Connect} (hs : s.Stage from_str) {call : Call} {cancelled : Bool}
    (hcalling : s.phase = .calling call) (result : Except NethernetError Unit) :
    Stage from_str { s with cancelled := cancelled, phase := .Returned result } := by
  cases hs with
  | waiting hdescribed htask _ hhanded hpending =>
    exact .waiting hdescribed htask (.inr ⟨_, rfl⟩) hhanded hpending
  | applying _ _ hphase => rw [hcalling] at hphase; cases call <;> cases hphase
  | spawned hdescribed htask _ hpending hhanded =>
    exact .spawned hdescribed htask rfl hpending hhanded

theorem Stage.step {s s' : Connect} {a : Action} (hs : s.Stage from_str)
    (h : step from_str s a = some s') : s'.Stage from_str := by
  have htaken := candidates_of_concat from_str s.connection_id s.taken
  cases step_effect h with
  | answered signal hphase hid htype =>
    obtain ⟨hdescribed, htask, hhanded, hpending⟩ := hs.of_waiting hphase
    refine .waiting hdescribed htask (.inl rfl) hhanded ?_
    rw [htaken, if_neg (by simp [htype]), List.append_nil]
    exact hpending
  | buffered signal hphase hid htype =>
    obtain ⟨hdescribed, htask, hhanded, hpending⟩ := hs.of_waiting hphase
    refine .waiting hdescribed htask (.inl (by rw [hphase]; rfl)) hhanded ?_
    rw [htaken, if_pos ⟨hid, htype⟩, ← hpending]
  | passed signal hphase hother =>
    obtain ⟨hdescribed, htask, hhanded, hpending⟩ := hs.of_waiting hphase
    refine .waiting hdescribed htask (.inl (by rw [hphase]; rfl)) hhanded ?_
    rw [htaken, if_neg fun hown => (hother hown.1).2 hown.2, List.append_nil]
    exact hpending
  | ended hphase =>
    obtain ⟨hdescribed, htask, hhanded, hpending⟩ := hs.of_waiting hphase
    exact .waiting hdescribed htask (.inr ⟨_, rfl⟩) hhanded hpending
  | failed call e hphase => exact hs.fail hphase _
  | succeeded call hphase => exact hs.succeed hphase
  | applying candidate_init pending_candidates hphase hpending =>
    obtain ⟨hdescribed, htask, htaken⟩ := hs.of_applying (by rw [hphase]; rfl)
    refine .applying hdescribed htask rfl ?_
    rw [← htaken, hpending, List.append_assoc]
    rfl
  | spawned hphase hpending =>
    obtain ⟨hdescribed, htask, htaken⟩ := hs.of_applying (by rw [hphase]; rfl)
    rw [hpending, List.append_nil] at htaken
    exact .spawned hdescribed (by simp) rfl hpending htaken
  | applied result hphase =>
    obtain ⟨hdescribed, htask, htaken⟩ := hs.of_applying (by rw [hphase]; rfl)
    exact .applying hdescribed htask rfl htaken
  | handed signal htask hown =>
    obtain ⟨hdescribed, hphase, hpending, hhanded⟩ := hs.of_spawned (by simp [htask])
    refine .spawned hdescribed (by simp) hphase hpending ?_
    rw [htaken, if_pos hown, ← hhanded]
  | skipped signal htask hother =>
    obtain ⟨hdescribed, hphase, hpending, hhanded⟩ := hs.of_spawned (by simp [htask])
    refine .spawned hdescribed (by simp [htask]) hphase hpending ?_
    rw [htaken, if_neg hother, List.append_nil]
    exact hhanded
  | task_ended htask =>
    obtain ⟨hdescribed, hphase, hpending, hhanded⟩ := hs.of_spawned (by simp [htask])
    exact .spawned hdescribed (by simp) hphase hpending hhanded
  | task_added result htask =>
    obtain ⟨hdescribed, hphase, hpending, hhanded⟩ := hs.of_spawned (by simp [htask])
    exact .spawned hdescribed (by simp) hphase hpending hhanded
  | task_cancelled htask =>
    obtain ⟨hdescribed, hphase, hpending, hhanded⟩ := hs.of_spawned (by simp [htask])
    exact .spawned hdescribed (by simp) hphase hpending hhanded

theorem stage_of_run {connection_id : UInt64} {remote_network_id : String} {as : List Action}
    {s : Connect} (h : Transition.run (step from_str) (start connection_id remote_network_id) as =
      some s) : s.Stage from_str :=
  Transition.run_invariant (fun _ _ _ hs hstep => hs.step hstep) (stage_start _ _) h

/-- **No candidate is handed over early**: not before the description is set. -/
theorem Stage.kept_back {s : Connect} (hs : s.Stage from_str) (h : s.handed ≠ []) :
    s.described = true := by
  cases hs with
  | waiting _ _ _ hhanded => exact absurd hhanded h
  | applying hdescribed => exact hdescribed
  | spawned hdescribed => exact hdescribed

/-- The candidates taken, in their order: those handed over, then those kept back. -/
theorem Stage.handed_append_pending {s : Connect} (hs : s.Stage from_str) :
    s.handed ++ s.pending_candidates = candidates_of from_str s.connection_id s.taken := by
  cases hs with
  | waiting _ _ _ hhanded hpending => rw [hhanded, hpending]; rfl
  | applying _ _ _ htaken => exact htaken
  | spawned _ _ _ hpending hhanded => rw [hpending, List.append_nil, hhanded]

/-! ## The buffered candidates are handed over -/

/-- How many steps the loop over the buffered candidates still takes. -/
def remaining (s : Connect) : ℕ :=
  2 * s.pending_candidates.length + if s.phase = .Adding then 2 else 1

/-- **Once the description is set** the loop over the buffered candidates takes the next step, and
nothing else does, until it spawns the task. -/
theorem Stage.apply_next {s : Connect} (hs : s.Stage from_str) (hdescribed : s.described = true)
    (htask : s.task = .Unspawned) : (∃ a s', Connect.step from_str s a = some s') ∧
      ∀ a s', Connect.step from_str s a = some s' → s'.described = true ∧
        (s'.task = .Unspawned → s'.remaining + 1 = s.remaining) := by
  cases hs with
  | waiting hnot => rw [hdescribed] at hnot; cases hnot
  | spawned _ hspawned => exact absurd htask hspawned
  | applying _ _ hphase =>
    refine ⟨?_, fun a s' h => ?_⟩
    · rcases hp : s.phase with _ | call | _ | _ | result <;> rw [hp] at hphase
      · cases hphase
      · cases hphase
      · refine ⟨.apply, ?_⟩
        rcases hpending : s.pending_candidates with _ | ⟨candidate_init, pending_candidates⟩ <;>
          simp [Connect.step, Connect.apply, hp, hpending]
      · exact ⟨.applied (.ok ()), by simp [Connect.step, hp]⟩
      · cases hphase
    · cases step_effect h with
      | applying candidate_init pending_candidates hp hpending =>
        refine ⟨hdescribed, fun _ => ?_⟩
        simp [remaining, hp, hpending]
        omega
      | spawned => exact ⟨hdescribed, fun h => by cases h⟩
      | applied result hp => exact ⟨hdescribed, fun _ => by simp [remaining, hp]⟩
      | answered _ hp | buffered _ hp | passed _ hp | ended hp | failed _ _ hp | succeeded _ hp =>
        rw [hp] at hphase
        cases hphase
      | handed _ hrecv | skipped _ hrecv | task_ended hrecv | task_added _ hrecv
      | task_cancelled hrecv =>
        rw [hrecv] at htask
        cases htask

/-- A task is spawned only after the buffered candidates, and stays. -/
theorem Stage.spawned_step {s s' : Connect} {a : Action}
    (h : Connect.step from_str s a = some s') (htask : s.task ≠ .Unspawned) :
    s'.task ≠ .Unspawned := by
  cases step_effect h with
  | spawned | handed | task_ended | task_added | task_cancelled => exact fun h => by cases h
  | _ => exact htask

/-- **The buffered candidates are handed over**: a run that is long enough has spawned the task. -/
theorem Stage.spawned_of_run {s t : Connect} {as : List Action} (hs : s.Stage from_str)
    (hdescribed : s.described = true) (h : Transition.run (Connect.step from_str) s as = some t)
    (hlen : s.remaining ≤ as.length) : t.task ≠ .Unspawned := by
  induction as generalizing s with
  | nil =>
    have hpos : 0 < s.remaining := by
      unfold remaining
      split <;> omega
    exact absurd hlen (Nat.not_le.2 hpos)
  | cons a as ih =>
    obtain ⟨s', hstep, hrun⟩ := Transition.run_cons_eq_some.1 h
    have hs' := hs.step hstep
    by_cases htask : s'.task = .Unspawned
    · have hunspawned : s.task = .Unspawned := by
        by_contra hspawned
        exact Stage.spawned_step hstep hspawned htask
      obtain ⟨hdescribed', hremaining⟩ := (hs.apply_next hdescribed hunspawned).2 a s' hstep
      refine ih hs' hdescribed' hrun ?_
      have := hremaining htask
      rw [List.length_cons] at hlen
      omega
    · have hspawned := Transition.run_invariant
        (P := fun u => u.Stage from_str ∧ u.task ≠ .Unspawned)
        (fun _ _ _ hu hstep => ⟨hu.1.step hstep, Stage.spawned_step hstep hu.2⟩) ⟨hs', htask⟩ hrun
      exact hspawned.2

end Connect

end Nethernet
