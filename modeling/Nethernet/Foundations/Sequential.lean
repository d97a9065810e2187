import Nethernet.Foundations.Transition

/-!
# One job at a time

A service that runs jobs one at a time. Jobs are numbered in the order they start; a job that has
started is polled until it is ready, and what needs the service to be idle (`Event.idle`) happens
only between two jobs. A trace is a list of events that the service takes, a run of `step`. In a
trace at most one job is in flight (`inFlight_unique`), none is where the service has to be idle
(`not_inFlight_of_idle`), and no job is polled again once it is ready (`pairwise_of_run`).
-/

namespace Foundations

/-- What a poll of a future gives. -/
inductive Poll (α : Type*)
  | Ready (a : α)
  | Pending
  deriving DecidableEq, Repr

namespace Sequential

/-- What a service does: a job starts, is polled, or something happens between two jobs. -/
inductive Event (α ρ β : Type*)
  | started (i : ℕ) (a : α)
  | polled (i : ℕ) (answer : Poll ρ)
  | idle (b : β)
  deriving DecidableEq, Repr

variable {α ρ β : Type*}

/-- The job of an event. -/
def Event.job : Event α ρ β → Option ℕ
  | started i _ => some i
  | polled i _ => some i
  | idle _ => none

/-- The service: the number of jobs so far, and the one in flight. -/
def step : Transition (ℕ × Option ℕ) (Event α ρ β)
  | (n, none), .started i _ => if i = n then some (n + 1, some i) else none
  | (n, some j), .polled i (.Ready _) => if i = j then some (n, none) else none
  | (n, some j), .polled i .Pending => if i = j then some (n, some j) else none
  | (n, none), .idle _ => some (n, none)
  | _, _ => none

/-- The job has started and no poll of it has been ready. -/
def InFlight (trace : List (Event α ρ β)) (i : ℕ) : Prop :=
  (∃ a, .started i a ∈ trace) ∧ ∀ r, .polled i (.Ready r) ∉ trace

/-- The first event is not a poll that was ready, with the other another poll of the same job. -/
def Apart (e e' : Event α ρ β) : Prop :=
  ∀ i r answer, e = .polled i (.Ready r) → e' ≠ .polled i answer

/-- What a step takes, and where it leads. -/
theorem step_cases {s s' : ℕ × Option ℕ} {e : Event α ρ β} (h : step s e = some s') :
    (∃ a, e = .started s.1 a ∧ s.2 = none ∧ s' = (s.1 + 1, some s.1)) ∨
    (∃ i r, e = .polled i (.Ready r) ∧ s.2 = some i ∧ s' = (s.1, none)) ∨
    (∃ i, e = .polled i .Pending ∧ s.2 = some i ∧ s' = s) ∨
    ∃ b, e = .idle b ∧ s.2 = none ∧ s' = s := by
  obtain ⟨n, current⟩ := s
  rcases current with _ | j <;> rcases e with ⟨i, a⟩ | ⟨i, r | _⟩ | b <;>
    simp only [step, Option.ite_none_right_eq_some, Option.some.injEq, reduceCtorEq] at h
  · obtain ⟨rfl, rfl⟩ := h
    exact .inl ⟨a, rfl, rfl, rfl⟩
  · exact .inr (.inr (.inr ⟨b, rfl, rfl, h.symm⟩))
  · obtain ⟨rfl, rfl⟩ := h
    exact .inr (.inl ⟨i, r, rfl, rfl, rfl⟩)
  · obtain ⟨rfl, rfl⟩ := h
    exact .inr (.inr (.inl ⟨i, rfl, rfl, rfl⟩))

/-- What the service remembers of a trace. -/
structure Tracks (trace : List (Event α ρ β)) (s : ℕ × Option ℕ) : Prop where
  lt : ∀ e ∈ trace, ∀ i, e.job = some i → i < s.1
  inFlight_iff : ∀ i, InFlight trace i ↔ s.2 = some i
  pairwise : trace.Pairwise Apart

theorem tracks_nil : Tracks ([] : List (Event α ρ β)) (0, none) where
  lt _ h := absurd h List.not_mem_nil
  inFlight_iff i := iff_of_false (fun h => absurd h.1.choose_spec List.not_mem_nil) (by simp)
  pairwise := .nil

theorem inFlight_concat {trace : List (Event α ρ β)} {e : Event α ρ β} {i : ℕ} :
    InFlight (trace ++ [e]) i ↔ (∃ a, .started i a ∈ trace ∨ e = .started i a) ∧
      ∀ r, .polled i (.Ready r) ∉ trace ∧ e ≠ .polled i (.Ready r) := by
  simp only [InFlight, List.mem_append, List.mem_singleton, not_or, eq_comm, ne_eq]

theorem Tracks.lt_concat {trace : List (Event α ρ β)} {s : ℕ × Option ℕ} {e : Event α ρ β} {n : ℕ}
    (h : Tracks trace s) (hn : s.1 ≤ n) (he : ∀ i, e.job = some i → i < n) :
    ∀ e' ∈ trace ++ [e], ∀ i, e'.job = some i → i < n := by
  intro e' he' i hi
  rcases List.mem_append.1 he' with he' | he'
  · exact Nat.lt_of_lt_of_le (h.lt e' he' i hi) hn
  · obtain rfl := List.mem_singleton.1 he'
    exact he i hi

theorem Tracks.pairwise_concat {trace : List (Event α ρ β)} {s : ℕ × Option ℕ} {e : Event α ρ β}
    (h : Tracks trace s) (he : ∀ i answer, e = .polled i answer → s.2 = some i) :
    (trace ++ [e]).Pairwise Apart := by
  refine List.pairwise_append.2 ⟨h.pairwise, List.pairwise_singleton _ _, ?_⟩
  rintro e' he' _ (_ | ⟨_, ⟨⟩⟩) i r answer rfl hpolled
  exact ((h.inFlight_iff i).2 (he i answer hpolled)).2 r he'

/-- The job in flight has a number. -/
theorem Tracks.current_lt {trace : List (Event α ρ β)} {s : ℕ × Option ℕ} {i : ℕ}
    (h : Tracks trace s) (hi : s.2 = some i) : i < s.1 := by
  obtain ⟨⟨a, hstarted⟩, -⟩ := (h.inFlight_iff i).2 hi
  exact h.lt _ hstarted i rfl

/-- **The service remembers which job is in flight**, in every step. -/
theorem Tracks.step {trace : List (Event α ρ β)} {s s' : ℕ × Option ℕ} {e : Event α ρ β}
    (h : Tracks trace s) (hstep : step s e = some s') : Tracks (trace ++ [e]) s' := by
  rcases step_cases hstep with ⟨a, rfl, hidle, rfl⟩ | ⟨i, r, rfl, hcurrent, rfl⟩ |
    ⟨i, rfl, hcurrent, rfl⟩ | ⟨b, rfl, hidle, rfl⟩
  · refine ⟨h.lt_concat (Nat.le_succ _) fun i hi => ?_, fun i => ?_, h.pairwise_concat nofun⟩
    · obtain rfl := Option.some.inj hi
      exact Nat.lt_succ_self _
    · rw [inFlight_concat, Option.some.injEq]
      constructor
      · rintro ⟨⟨a', hi | hi⟩, hr⟩
        · have := (h.inFlight_iff i).1 ⟨⟨a', hi⟩, fun r => (hr r).1⟩
          rw [hidle] at this
          cases this
        · exact (Event.started.inj hi).1
      · rintro rfl
        exact ⟨⟨a, .inr rfl⟩, fun r => ⟨fun hr => Nat.lt_irrefl _ (h.lt _ hr s.1 rfl), nofun⟩⟩
  · have hpairwise := h.pairwise_concat (e := .polled i (.Ready r)) fun j answer hj => by
      rw [← (Event.polled.inj hj).1, hcurrent]
    refine ⟨h.lt_concat (Nat.le_refl _) fun j hj => ?_, fun j => ?_, hpairwise⟩
    · exact Option.some.inj hj ▸ h.current_lt hcurrent
    · refine iff_of_false ?_ (by simp)
      rw [inFlight_concat]
      rintro ⟨⟨a', hj | hj⟩, hr⟩
      · have := (h.inFlight_iff j).1 ⟨⟨a', hj⟩, fun r => (hr r).1⟩
        obtain rfl := Option.some.inj (hcurrent.symm.trans this)
        exact (hr r).2 rfl
      · cases hj
  · have hpairwise := h.pairwise_concat (e := .polled i .Pending) fun j answer hj => by
      rw [← (Event.polled.inj hj).1, hcurrent]
    refine ⟨h.lt_concat (Nat.le_refl _) fun j hj => ?_, fun j => ?_, hpairwise⟩
    · exact Option.some.inj hj ▸ h.current_lt hcurrent
    · rw [inFlight_concat, ← h.inFlight_iff j, InFlight]
      simp
  · refine ⟨h.lt_concat (Nat.le_refl _) nofun, fun j => ?_, h.pairwise_concat nofun⟩
    rw [inFlight_concat, ← h.inFlight_iff j, InFlight]
    simp

section Traces

variable {trace : List (Event α ρ β)} {s : ℕ × Option ℕ}

theorem tracks_of_run (h : Transition.run step (0, none) trace = some s) : Tracks trace s := by
  have htracks := Transition.run_induction (P := Tracks)
    (fun _ _ _ _ htracks hstep => htracks.step hstep) tracks_nil h
  exact htracks

theorem tracks_of_prefix (h : Transition.run step (0, none) trace = some s)
    {before : List (Event α ρ β)} (hbefore : before <+: trace) : ∃ s', Tracks before s' := by
  obtain ⟨after, rfl⟩ := hbefore
  obtain ⟨s', hs', -⟩ := Transition.run_append_eq_some.1 h
  exact ⟨s', tracks_of_run hs'⟩

/-- **At most one job is in flight**, at any time. -/
theorem inFlight_unique (h : Transition.run step (0, none) trace = some s)
    {before : List (Event α ρ β)} (hbefore : before <+: trace) {i j : ℕ} (hi : InFlight before i)
    (hj : InFlight before j) : i = j := by
  obtain ⟨s', htracks⟩ := tracks_of_prefix h hbefore
  exact Option.some.inj (((htracks.inFlight_iff i).1 hi).symm.trans ((htracks.inFlight_iff j).1 hj))

/-- **No job is in flight** where the service is idle. -/
theorem not_inFlight_of_idle (h : Transition.run step (0, none) trace = some s)
    {before : List (Event α ρ β)} {b : β} (hbefore : before ++ [.idle b] <+: trace) (i : ℕ) :
    ¬ InFlight before i := by
  obtain ⟨after, rfl⟩ := hbefore
  obtain ⟨u, hu, -⟩ := Transition.run_append_eq_some.1 h
  obtain ⟨s', hs', hstep⟩ := Transition.run_append_eq_some.1 hu
  obtain ⟨u', hidle, -⟩ := Transition.run_cons_eq_some.1 hstep
  rw [(tracks_of_run hs').inFlight_iff]
  rcases step_cases hidle with ⟨a, ha, -⟩ | ⟨j, r, hr, -⟩ | ⟨j, hj, -⟩ | ⟨b', -, hnone, -⟩
  · cases ha
  · cases hr
  · cases hj
  · rw [hnone]
    nofun

/-- **A job that was ready is not polled again.** -/
theorem pairwise_of_run (h : Transition.run step (0, none) trace = some s) :
    trace.Pairwise Apart := (tracks_of_run h).pairwise

end Traces

end Sequential

end Foundations
