import Mathlib.Data.List.ReduceOption
import Nethernet.Transport.Connect

/-!
# Waiting for the answer

The loop of `NethernetStream::connect` that waits for the answer (`src/transport/stream.rs`), over
all that the signal stream yields, `none` being its end. `loop_of_run`: every run of `connect`
begins with this loop. An answer for the connection ends it, and so does the end of the stream
(`wait_answered`, `wait_ended`), but an error for the connection is passed over with the other
signals (`wait_passed`), although the peer has refused. `decided_iff`: the first answer or error for
the connection decides the loop exactly when it is an answer.
-/

namespace Nethernet

open Foundations

namespace Connect

variable {from_str : String → Option RTCIceCandidateInit}

/-- What the loop of `connect` leaves: the signals are taken until one ends it. -/
def wait_loop (from_str : String → Option RTCIceCandidateInit) (s : Connect)
    (yields : List (Option Signal)) : Connect :=
  Transition.follow (next from_str) s yields

/-! ## What the loop passes over -/

/-- An answer for the connection, or the end of the stream. -/
def finishes (connection_id : UInt64) : Option Signal → Bool
  | some signal => signal.connection_id = connection_id ∧ signal.signal_type = .Answer
  | none => true

/-- After signals that do not end the loop, the candidates of the connection are buffered. -/
def passed (from_str : String → Option RTCIceCandidateInit) (s : Connect)
    (yields : List (Option Signal)) : Connect :=
  { s with
    pending_candidates :=
      s.pending_candidates ++ candidates_of from_str s.connection_id yields.reduceOption
    taken := s.taken ++ yields.reduceOption }

@[simp] theorem passed_nil (s : Connect) : s.passed from_str [] = s := by
  simp [passed, candidates_of, List.reduceOption]

theorem passed_append (s : Connect) (yields yields' : List (Option Signal)) :
    (s.passed from_str yields).passed from_str yields' = s.passed from_str (yields ++ yields') := by
  simp only [passed, List.reduceOption_append, candidates_of_append, List.append_assoc]

theorem next_of_returned {s : Connect} (h : s.phase ≠ .Waiting) (y : Option Signal) :
    s.next from_str y = none := if_neg h

theorem next_passed {s : Connect} (hs : s.phase = .Waiting) {signal : Signal}
    (h : finishes s.connection_id (some signal) = false) :
    s.next from_str (some signal) = some (s.passed from_str [some signal]) := by
  have hcandidates : candidates_of from_str s.connection_id [signal] =
      if signal.connection_id = s.connection_id ∧ signal.signal_type = .Candidate then
        [candidate_init from_str signal.data] else [] :=
    candidates_of_concat from_str s.connection_id [] signal
  have hpassed : s.passed from_str [some signal] = { s with
      pending_candidates :=
        s.pending_candidates ++ candidates_of from_str s.connection_id [signal]
      taken := s.taken ++ [signal] } := rfl
  rw [next, if_pos hs, hpassed, hcandidates, wait]
  by_cases hid : signal.connection_id = s.connection_id
  · rw [if_pos hid]
    cases htype : signal.signal_type with
    | Answer => simp [finishes, hid, htype] at h
    | Candidate => simp [hid]
    | Offer | Error => simp
  · simp [hid]

/-- **Signals that do not end the loop** are taken, and only the candidates of the connection change
anything. -/
theorem wait_passed {s : Connect} (hs : s.phase = .Waiting) {yields : List (Option Signal)}
    (h : ∀ y ∈ yields, finishes s.connection_id y = false) :
    Transition.run (next from_str) s yields = some (s.passed from_str yields) := by
  induction yields generalizing s with
  | nil => simp
  | cons y yields ih =>
    obtain ⟨hy, hyields⟩ := List.forall_mem_cons.1 h
    cases y with
    | none => cases hy
    | some signal =>
      refine Transition.run_cons_eq_some.2 ⟨_, next_passed hs hy, ?_⟩
      have hrest := ih (s := s.passed from_str [some signal]) hs hyields
      rwa [passed_append] at hrest

/-! ## What ends it -/

theorem next_answered {s : Connect} (hs : s.phase = .Waiting) {signal : Signal}
    (hid : signal.connection_id = s.connection_id) (htype : signal.signal_type = .Answer) :
    s.next from_str (some signal) = some { s with
      phase := .calling .parse_answer, answer := some signal.data
      taken := s.taken ++ [signal] } := by
  rw [next, if_pos hs, wait, if_pos hid, htype]

theorem next_ended {s : Connect} (hs : s.phase = .Waiting) :
    s.next from_str none = some { s with phase := .Returned (.error .Timeout) } := if_pos hs

/-- While the loop waits it takes whatever the stream yields. -/
theorem exists_next {s : Connect} (hs : s.phase = .Waiting) (y : Option Signal) :
    ∃ s', s.next from_str y = some s' ∧ s'.connection_id = s.connection_id := by
  cases y with
  | none => exact ⟨_, next_ended hs, rfl⟩
  | some signal =>
    cases hy : finishes s.connection_id (some signal) with
    | false => exact ⟨_, next_passed hs hy, rfl⟩
    | true =>
      obtain ⟨hid, htype⟩ := of_decide_eq_true hy
      exact ⟨_, next_answered hs hid htype, rfl⟩

/-- What ends the loop leaves the rest of the stream to others. -/
theorem wait_loop_of_next {s t : Connect} (hs : s.phase = .Waiting) {before : List (Option Signal)}
    (hbefore : ∀ y ∈ before, finishes s.connection_id y = false) {y : Option Signal}
    (hnext : (s.passed from_str before).next from_str y = some t) (ht : t.phase ≠ .Waiting)
    (rest : List (Option Signal)) : wait_loop from_str s (before ++ y :: rest) = t := by
  rw [wait_loop, Transition.follow_append_of_run (wait_passed hs hbefore),
    Transition.follow_cons hnext]
  exact Transition.follow_of_stuck (next_of_returned ht) rest

/-- **An answer for the connection** ends the loop: `connect` goes on with its data and with the
candidates before it. -/
theorem wait_answered {s : Connect} (hs : s.phase = .Waiting) {before : List (Option Signal)}
    (hbefore : ∀ y ∈ before, finishes s.connection_id y = false) {signal : Signal}
    (hid : signal.connection_id = s.connection_id) (htype : signal.signal_type = .Answer)
    (rest : List (Option Signal)) : wait_loop from_str s (before ++ some signal :: rest) =
      { s.passed from_str before with
        phase := .calling .parse_answer, answer := some signal.data
        taken := s.taken ++ before.reduceOption ++ [signal] } :=
  wait_loop_of_next hs hbefore (next_answered (s := s.passed from_str before) hs hid htype)
    (fun h => by cases h) rest

/-- **The end of the stream** ends the loop, and `connect` returns `Timeout`. -/
theorem wait_ended {s : Connect} (hs : s.phase = .Waiting) {before : List (Option Signal)}
    (hbefore : ∀ y ∈ before, finishes s.connection_id y = false) (rest : List (Option Signal)) :
    wait_loop from_str s (before ++ none :: rest) =
      { s.passed from_str before with phase := .Returned (.error .Timeout) } :=
  wait_loop_of_next hs hbefore (next_ended (s := s.passed from_str before) hs)
    (fun h => by cases h) rest

/-- **Every run of `connect` begins with the loop**, which takes what the stream yields until it is
ended, or as far as the run goes. -/
theorem loop_of_run {s s' : Connect} {as : List Action} (hs : s.Stage from_str)
    (h : Transition.run (step from_str) s as = some s') :
    ∃ yields rest, as = yields.map Action.next ++ rest ∧
      Transition.run (step from_str) s (yields.map Action.next) =
        some (wait_loop from_str s yields) ∧
      (rest = [] ∨ (wait_loop from_str s yields).phase ≠ .Waiting) := by
  induction as generalizing s with
  | nil => exact ⟨[], [], rfl, rfl, .inl rfl⟩
  | cons a as ih =>
    by_cases hphase : s.phase = .Waiting
    · obtain ⟨t, hstep, hrun⟩ := Transition.run_cons_eq_some.1 h
      obtain ⟨-, htask, -⟩ := hs.of_waiting hphase
      -- While the loop waits, the task is not spawned and no call has been made.
      have hyield : ∃ y, a = .next y := by
        cases step_effect hstep with
        | answered | buffered | passed | ended => exact ⟨_, rfl⟩
        | failed _ _ hp | succeeded _ hp | applying _ _ hp | spawned hp | applied _ hp =>
          rw [hphase] at hp
          cases hp
        | handed _ hrecv | skipped _ hrecv | task_ended hrecv | task_added _ hrecv
        | task_cancelled hrecv =>
          rw [hrecv] at htask
          cases htask
      obtain ⟨y, rfl⟩ := hyield
      obtain ⟨yields, rest, rfl, hloop, hend⟩ := ih (hs.step hstep) hrun
      have hnext : s.next from_str y = some t := hstep
      have hfollow : wait_loop from_str s (y :: yields) = wait_loop from_str t yields :=
        Transition.follow_cons hnext yields
      refine ⟨y :: yields, rest, rfl, ?_, ?_⟩
      · rw [hfollow]
        exact Transition.run_cons_eq_some.2 ⟨t, hstep, hloop⟩
      · rw [hfollow]
        exact hend
    · exact ⟨[], a :: as, rfl, rfl, .inr hphase⟩

/-! ## What does not matter -/

/-- An answer, a candidate or an error for the connection, or the end of the stream. -/
def concerns (connection_id : UInt64) : Option Signal → Bool
  | some signal => signal.connection_id = connection_id ∧ signal.signal_type ≠ .Offer
  | none => true

/-- The loop does not look at what has been taken. -/
theorem next_taken (s : Connect) (taken : List Signal) (y : Option Signal) :
    next from_str { s with taken := taken } y =
      (s.next from_str y).map fun s' => { s' with taken := taken ++ y.toList } := by
  by_cases hs : s.phase = .Waiting
  · have hs' : ({ s with taken := taken } : Connect).phase = .Waiting := hs
    cases y with
    | none =>
      rw [next_ended hs, next_ended hs']
      simp
    | some signal =>
      rw [next, if_pos hs', next, if_pos hs, wait, wait]
      split
      · cases signal.signal_type <;> rfl
      · rfl
  · rw [next_of_returned hs, next_of_returned (s := { s with taken := taken }) hs]
    rfl

/-- What does not concern the connection is only taken. -/
theorem next_of_not_concerns {s : Connect} (hs : s.phase = .Waiting) {y : Option Signal}
    (h : concerns s.connection_id y = false) :
    s.next from_str y = some { s with taken := s.taken ++ y.toList } := by
  cases y with
  | none => cases h
  | some signal =>
    rw [next, if_pos hs, wait]
    by_cases hid : signal.connection_id = s.connection_id
    · have htype : signal.signal_type = .Offer := by simpa [concerns, hid] using h
      rw [if_pos hid, htype]
      rfl
    · rw [if_neg hid]
      rfl

/-- **Only what concerns the connection matters**: without the other signals the loop leaves the
same, but for what has been taken. -/
theorem wait_loop_filter (s : Connect) (taken : List Signal) (yields : List (Option Signal)) :
    ∃ taken', wait_loop from_str { s with taken := taken }
        (yields.filter (concerns s.connection_id)) =
      { wait_loop from_str s yields with taken := taken' } := by
  induction yields generalizing s taken with
  | nil => exact ⟨taken, rfl⟩
  | cons y yields ih =>
    by_cases hs : s.phase = .Waiting
    · cases hy : concerns s.connection_id y with
      | false =>
        rw [List.filter_cons_of_neg (by simp [hy]), wait_loop, wait_loop,
          Transition.follow_cons (next_of_not_concerns hs hy)]
        exact ih { s with taken := s.taken ++ y.toList } taken
      | true =>
        obtain ⟨s', hnext, hid⟩ := exists_next hs y
        have hnext' : next from_str { s with taken := taken } y =
            some { s' with taken := taken ++ y.toList } := by rw [next_taken, hnext]; rfl
        rw [List.filter_cons_of_pos hy, wait_loop, wait_loop, Transition.follow_cons hnext,
          Transition.follow_cons hnext', ← hid]
        exact ih s' (taken ++ y.toList)
    · refine ⟨taken, ?_⟩
      rw [wait_loop, wait_loop, Transition.follow_of_stuck (next_of_returned hs),
        Transition.follow_of_stuck (next_of_returned (s := { s with taken := taken }) hs)]

/-! ## What decides it -/

/-- What is to decide the loop: an answer or an error for the connection, or the end of the
stream. -/
def decides (connection_id : UInt64) : Option Signal → Bool
  | some signal => signal.connection_id = connection_id ∧
      (signal.signal_type = .Answer ∨ signal.signal_type = .Error)
  | none => true

/-- What the loop is to leave when `y` decides it: an answer makes `connect` go on, with the
candidates before it, and anything else makes it return an error. -/
def Leaves (from_str : String → Option RTCIceCandidateInit) (connection_id : UInt64)
    (before : List (Option Signal)) (y : Option Signal) (s : Connect) : Prop :=
  match y with
  | some signal =>
    match signal.signal_type with
    | .Answer => s.phase = .calling .parse_answer ∧ s.answer = some signal.data ∧
        s.pending_candidates = candidates_of from_str connection_id before.reduceOption
    | _ => ∃ e, s.phase = .Returned (.error e)
  | none => s.phase = .Returned (.error .Timeout)

/-- A loop over what the stream yields that is decided by the first that is to decide it. -/
structure Decided (from_str : String → Option RTCIceCandidateInit) (connection_id : UInt64)
    (loop : List (Option Signal) → Connect) (yields : List (Option Signal)) : Prop where
  /-- Before it the loop waits. -/
  waits : ∀ before, before <+: yields → (∀ z ∈ before, decides connection_id z = false) →
    (loop before).phase = .Waiting
  /-- It ends the loop, and what comes after it is not taken. -/
  leaves : ∀ before y rest, yields = before ++ y :: rest →
    (∀ z ∈ before, decides connection_id z = false) → decides connection_id y →
      Leaves from_str connection_id before y (loop (before ++ [y])) ∧
        loop yields = loop (before ++ [y])
  /-- Other signals change nothing but what has been taken. -/
  others : ∃ taken, loop (yields.filter (concerns connection_id)) =
    { loop yields with taken := taken }

/-- What does not decide the loop does not end it. -/
theorem finishes_of_decides {connection_id : UInt64} {y : Option Signal}
    (h : decides connection_id y = false) : finishes connection_id y = false := by
  cases y with
  | none => cases h
  | some signal =>
    simp only [decides, finishes, decide_eq_false_iff_not] at h ⊢
    intro hanswer
    exact h ⟨hanswer.1, .inl hanswer.2⟩

/-- The first that is to decide the loop, and what comes before it. -/
theorem find_decides {connection_id : UInt64} {yields : List (Option Signal)} {y : Option Signal} :
    yields.find? (decides connection_id) = some y ↔ decides connection_id y ∧
      ∃ before rest, yields = before ++ y :: rest ∧
        ∀ z ∈ before, decides connection_id z = false := by
  rw [List.find?_eq_some_iff_append]
  simp only [Bool.not_eq_true']

/-- **What is to decide the loop** does so exactly when it is no error: an error is passed over, and
the loop still waits. -/
theorem leaves_iff {connection_id : UInt64} {remote_network_id : String}
    {before : List (Option Signal)} {y : Option Signal}
    (hbefore : ∀ z ∈ before, decides connection_id z = false) (hdecides : decides connection_id y)
    (rest : List (Option Signal)) :
    (Leaves from_str connection_id before y
          (wait_loop from_str (start connection_id remote_network_id) (before ++ [y])) ∧
        wait_loop from_str (start connection_id remote_network_id) (before ++ y :: rest) =
          wait_loop from_str (start connection_id remote_network_id) (before ++ [y])) ↔
      ∀ signal, y = some signal → signal.signal_type ≠ .Error := by
  have hstart : (start connection_id remote_network_id).phase = .Waiting := rfl
  have hpassed : ∀ z ∈ before, finishes connection_id z = false :=
    fun z hz => finishes_of_decides (hbefore z hz)
  cases y with
  | none =>
    rw [wait_ended hstart hpassed, wait_ended hstart hpassed]
    exact iff_of_true ⟨rfl, rfl⟩ fun _ h => by cases h
  | some signal =>
    obtain ⟨hid, hanswer | herror⟩ := of_decide_eq_true hdecides
    · rw [wait_answered hstart hpassed hid hanswer, wait_answered hstart hpassed hid hanswer]
      refine iff_of_true ⟨?_, rfl⟩ ?_
      · simp [Leaves, hanswer, passed, start]
      · rintro _ ⟨⟩
        simp [hanswer]
    · refine iff_of_false (fun ⟨hleaves, _⟩ => ?_) fun h => h signal rfl herror
      have herrors : ∀ z ∈ before ++ [some signal], finishes connection_id z = false := by
        intro z hz
        rcases List.mem_append.1 hz with hz | hz
        · exact hpassed z hz
        · rw [List.mem_singleton.1 hz]
          simp [finishes, herror]
      rw [wait_loop, Transition.follow_of_run (wait_passed hstart herrors)] at hleaves
      simp only [Leaves, herror] at hleaves
      obtain ⟨e, hreturned⟩ := hleaves
      cases hreturned

/-- **The first answer or error for the connection decides the loop** exactly when it is no
error. -/
theorem decided_iff (connection_id : UInt64) (remote_network_id : String)
    (yields : List (Option Signal)) :
    Decided from_str connection_id (wait_loop from_str (start connection_id remote_network_id))
        yields ↔
      ∀ signal, yields.find? (decides connection_id) = some (some signal) →
        signal.signal_type ≠ .Error := by
  constructor
  · intro h signal hfind
    obtain ⟨hdecides, before, rest, rfl, hbefore⟩ := find_decides.1 hfind
    exact (leaves_iff hbefore hdecides rest).1 (h.leaves before _ rest rfl hbefore hdecides) _ rfl
  · intro h
    refine ⟨fun before _ hbefore => ?_, fun before y rest hyields hbefore hdecides => ?_, ?_⟩
    · have hpassed := fun z hz => finishes_of_decides (hbefore z hz)
      rw [wait_loop, Transition.follow_of_run (wait_passed rfl hpassed)]
      rfl
    · subst hyields
      apply (leaves_iff hbefore hdecides rest).2
      rintro signal rfl
      exact h signal (find_decides.2 ⟨hdecides, before, rest, rfl, hbefore⟩)
    · exact wait_loop_filter (start connection_id remote_network_id) [] yields

/-- The peer refuses the connection, and still answers. -/
def refused : List (Option Signal) :=
  [some (.error 5 .IncomingConnectionIgnored "9"), some (.answer 5 "sdp" "9")]

/-- A refusal is passed over, and the loop waits on. -/
theorem refusal_passed :
    ¬ Decided (fun _ => none) 5 (wait_loop (fun _ => none) (start 5 "9")) refused := by
  intro h
  obtain ⟨⟨e, hreturned⟩, -⟩ := h.leaves [] _ _ rfl (fun z hz => by cases hz) rfl
  cases hreturned

end Connect

end Nethernet
