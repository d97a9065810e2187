import Nethernet.Session.Recv

/-!
# Who receives which packet

Any number of calls of `Session::recv` (`src/session/mod.rs`), each of which may be dropped at any
time, and the packets that arrive. `recv_fair`: packets are received in the order in which they
arrived and by the calls in the order in which they joined the line for `packet_rx`, each by one
call, and a call that is dropped takes none with it.
-/

namespace Nethernet

open Foundations

namespace Recvs

/-- What the steps of a session mean for the line for `packet_rx`. -/
abbrev Event := Line.Event ℕ Bytes

/-- What a step shows: a packet arrives, a call joins the line, a call returns a packet. -/
def shows (s : Recvs) : Action → List Event
  | .arrive packet => [.put packet]
  | .check i => if s.closed then [] else [.joined i]
  | .receive i => match s.packets.serve with
    | some (_, packet, _) => [.served i packet]
    | none => []
  | _ => []

/-- What a run shows. -/
def log (capacity : ℕ) (as : List Action) : List Event :=
  Transition.trace step shows (with_capacity capacity) as

/-- The packets that have arrived, the calls that have joined the line, and the calls that have
returned a packet, with it. -/
def arrived (log : List Event) : List Bytes := log.filterMap Line.Event.item
def joined (log : List Event) : List ℕ := log.filterMap Line.Event.join
def received (log : List Event) : List (ℕ × Bytes) := log.filterMap Line.Event.service

/-- What the calls have come to is what the log says. -/
structure Logged (log : List Event) (s : Recvs) : Prop where
  fair : Line.Fair log s.packets
  nodup : (joined log).Nodup
  returned : ∀ i packet, s.recvs[i]? = some (.Returned (some packet)) ↔ (i, packet) ∈ received log
  /-- A call that has joined the line is in it, has returned a packet or has been dropped. -/
  settled : ∀ i ∈ joined log, s.recvs[i]? = some .Waiting ∨ s.recvs[i]? = some .Dropped ∨
    ∃ packet, s.recvs[i]? = some (.Returned (some packet))

section Steps

variable {log : List Event} {s s' : Recvs} {i : ℕ}

theorem Logged.not_mem_of_called (hs : s.Logged log) (hcalled : s.recvs[i]? = some .Called) :
    i ∉ joined log := by
  intro hmem
  rcases hs.settled i hmem with h | h | ⟨packet, h⟩ <;> rw [hcalled] at h <;> cases h

/-- A call goes on, and the log with it. -/
theorem Logged.set (hs : s.Logged log) {r r' : Recv} (hr : s.recvs[i]? = some r)
    (hne : ∀ packet, r ≠ .Returned (some packet)) {log' : List Event} {packets : Line ℕ Bytes}
    (hfair : Line.Fair log' packets) (hnodup : (joined log').Nodup)
    (hjoined : ∀ j ∈ joined log', j ≠ i → j ∈ joined log)
    (hsettled : i ∈ joined log' →
      r' = .Waiting ∨ r' = .Dropped ∨ ∃ packet, r' = .Returned (some packet))
    (hreceived : ∀ j packet, (j, packet) ∈ received log' ↔
      (j, packet) ∈ received log ∨ i = j ∧ r' = .Returned (some packet)) :
    Logged log' { s with recvs := s.recvs.set i r', packets := packets } where
  fair := hfair
  nodup := hnodup
  returned j packet := by
    rw [hreceived, ← hs.returned, getElem?_set_eq_some hr, or_comm, eq_comm (a := r')]
    refine or_congr_left ⟨And.right, fun h => ⟨?_, h⟩⟩
    rintro rfl
    exact hne packet (Option.some.inj (hr.symm.trans h))
  settled j hj := by
    by_cases hij : i = j
    · subst hij
      have hself : ∀ z, r' = z → (s.recvs.set i r')[i]? = some z := fun z hz =>
        (getElem?_set_eq_some hr).2 (.inl ⟨rfl, hz.symm⟩)
      exact (hsettled hj).imp (hself _) (Or.imp (hself _) fun ⟨packet, h⟩ => ⟨packet, hself _ h⟩)
    · rw [List.getElem?_set_ne hij]
      exact hs.settled j (hjoined j hj (Ne.symm hij))

/-- A call returns without a packet, or is dropped. -/
theorem Logged.leave (hs : s.Logged log) {r r' : Recv} (hr : s.recvs[i]? = some r)
    (hne : ∀ packet, r ≠ .Returned (some packet)) (hne' : ∀ packet, r' ≠ .Returned (some packet))
    (hsettled : i ∈ joined log → r' = .Dropped) {packets : Line ℕ Bytes}
    (hfair : Line.Fair log packets) :
    Logged log { s with recvs := s.recvs.set i r', packets := packets } :=
  hs.set hr hne hfair hs.nodup (fun _ hj _ => hj) (fun hmem => .inr (.inl (hsettled hmem)))
    fun _ packet => (or_iff_left fun h => hne' packet h.2).symm

@[simp] theorem joined_put (packet : Bytes) : joined (log ++ [.put packet]) = joined log :=
  (Line.filterMap_concat _ _ _).trans (List.append_nil _)

@[simp] theorem joined_joined (i : ℕ) : joined (log ++ [.joined i]) = joined log ++ [i] :=
  Line.filterMap_concat _ _ _

@[simp] theorem joined_served (i : ℕ) (packet : Bytes) :
    joined (log ++ [.served i packet]) = joined log :=
  (Line.filterMap_concat _ _ _).trans (List.append_nil _)

@[simp] theorem received_put (packet : Bytes) : received (log ++ [.put packet]) = received log :=
  (Line.filterMap_concat _ _ _).trans (List.append_nil _)

@[simp] theorem received_joined (i : ℕ) : received (log ++ [.joined i]) = received log :=
  (Line.filterMap_concat _ _ _).trans (List.append_nil _)

@[simp] theorem received_served (i : ℕ) (packet : Bytes) :
    received (log ++ [.served i packet]) = received log ++ [(i, packet)] :=
  Line.filterMap_concat _ _ _

/-- **What a step does is what it shows.** -/
theorem Logged.step {a : Action} (hs : s.Logged log) (hwf : s.WellFormed)
    (h : step s a = some s') : s'.Logged (log ++ s.shows a) := by
  have hquiet : s.shows a = [] → s'.Logged log → s'.Logged (log ++ s.shows a) := by
    intro hnone hlogged
    rwa [hnone, List.append_nil]
  cases step_effect h with
  | arrive packet =>
    change Logged (log ++ [.put packet]) _
    refine ⟨hs.fair.put packet, ?_, fun i p => ?_, fun i hi => ?_⟩
    · rw [joined_put]
      exact hs.nodup
    · rw [received_put]
      exact hs.returned i p
    · rw [joined_put] at hi
      exact hs.settled i hi
  | recv =>
    refine hquiet rfl ⟨hs.fair, hs.nodup, fun i packet => ?_, fun i hi => ?_⟩
    · rw [← hs.returned, getElem?_concat_eq_some]
      simp
    · have hkeep : ∀ r, s.recvs[i]? = some r → (s.recvs ++ [.Called])[i]? = some r :=
        fun r h => getElem?_concat_eq_some.2 (.inl h)
      exact (hs.settled i hi).imp (hkeep _)
        (Or.imp (hkeep _) fun ⟨packet, h⟩ => ⟨packet, hkeep _ h⟩)
  | refused i hcalled hclosed =>
    exact hquiet (if_pos hclosed) (hs.leave hcalled (by simp) (by simp)
      (fun hmem => absurd hmem (hs.not_mem_of_called hcalled)) hs.fair)
  | joined i hcalled hopen =>
    have hshows : s.shows (.check i) = [.joined i] := if_neg hopen
    rw [hshows]
    refine hs.set hcalled (by simp) (hs.fair.join i) ?_ (fun j hj hne => ?_) (fun _ => .inl rfl)
      fun j packet => by simp
    · rw [joined_joined, ← List.concat_eq_append]
      exact hs.nodup.concat (hs.not_mem_of_called hcalled)
    · rw [joined_joined, List.mem_append, List.mem_singleton] at hj
      exact hj.resolve_right hne
  | received i packet packets hserve =>
    have hshows : s.shows (.receive i) = [.served i packet] := by
      rw [shows, hserve]
    have hwaiting : s.recvs[i]? = some .Waiting := by
      rw [← hwf.waiting, (Line.serve_eq_some.1 hserve).1]
      exact List.mem_cons_self
    rw [hshows]
    refine hs.set hwaiting (by simp) (hs.fair.serve hserve) ?_ (fun j hj _ => ?_)
      (fun _ => .inr (.inr ⟨packet, rfl⟩)) fun j p => ?_
    · rw [joined_served]
      exact hs.nodup
    · rwa [joined_served] at hj
    · rw [received_served, List.mem_append, List.mem_singleton, Prod.mk.injEq, Recv.Returned.injEq,
        Option.some_inj, eq_comm (a := j), eq_comm (a := p)]
  | dropped i hcalled =>
    exact hquiet rfl (hs.leave hcalled (by simp) (by simp) (fun _ => rfl) hs.fair)
  | left i hwaiting =>
    exact hquiet rfl (hs.leave hwaiting (by simp) (by simp) (fun _ => rfl) (hs.fair.leave i))
  | close => exact hquiet rfl ⟨hs.fair, hs.nodup, hs.returned, hs.settled⟩
  | marked k => exact hquiet rfl ⟨hs.fair, hs.nodup, hs.returned, hs.settled⟩
  | marks k => exact hquiet rfl ⟨hs.fair, hs.nodup, hs.returned, hs.settled⟩
  | awaited k => exact hquiet rfl ⟨hs.fair, hs.nodup, hs.returned, hs.settled⟩
  | drop_close k => exact hquiet rfl ⟨hs.fair, hs.nodup, hs.returned, hs.settled⟩

end Steps

theorem logged_of_run {capacity : ℕ} {as : List Action} {s : Recvs}
    (h : Transition.run step (with_capacity capacity) as = some s) :
    s.Logged (log capacity as) ∧ s.WellFormed := by
  refine Transition.run_shows (P := fun shown s => s.Logged shown ∧ s.WellFormed) ?_
    ⟨⟨⟨rfl, .refl []⟩, .nil, ?_, nofun⟩, wellFormed_with_capacity capacity⟩ h
  · exact fun shown s a s' hs hstep => ⟨hs.1.step hs.2 hstep, hs.2.step hstep⟩
  · exact fun i packet => iff_of_false nofun nofun

/-- Packets and calls come to each other in order. -/
structure Orderly (log : List Event) (s : Recvs) : Prop where
  /-- No packet is lost, and packets are received in the order in which they arrived. -/
  packets : arrived log = (received log).map Prod.snd ++ s.packets.items
  /-- Calls receive in the order in which they joined the line, and so will those that wait. -/
  calls : ((received log).map Prod.fst ++ s.packets.waiting).Sublist (joined log)
  /-- No call receives twice. -/
  once : ((received log).map Prod.fst).Nodup
  /-- A call returns the packet it has received. -/
  returned : ∀ i packet, s.recvs[i]? = some (.Returned (some packet)) ↔ (i, packet) ∈ received log
  /-- A call that has joined the line is passed over only if it was dropped. -/
  passed_over : ∀ i ∈ joined log, i ∉ (received log).map Prod.fst → i ∉ s.packets.waiting →
    s.recvs[i]? = some .Dropped

/-- **Packets are received in order, each once**, in every run of a session with any number of calls
of `recv` and `close`: in the order in which they arrived, by the calls in the order in which they
joined the line; a call that is dropped loses no packet, and no other call is passed over. -/
theorem recv_fair (capacity : ℕ) (as : List Action) (s : Recvs)
    (h : Transition.run step (with_capacity capacity) as = some s) :
    s.Orderly (log capacity as) := by
  obtain ⟨hlogged, hwf⟩ := logged_of_run h
  have hcalls := hlogged.fair.waiting
  refine ⟨hlogged.fair.items, hcalls, ?_, hlogged.returned, fun i hi hreceived hwaiting => ?_⟩
  · exact ((List.sublist_append_left _ _).trans hcalls).nodup hlogged.nodup
  · rcases hlogged.settled i hi with hline | hdropped | ⟨packet, hreturned⟩
    · exact absurd ((hwf.waiting i).2 hline) hwaiting
    · exact hdropped
    · exact absurd (List.mem_map_of_mem ((hlogged.returned i packet).1 hreturned)) hreceived

/-- Of three calls the one in the middle is dropped while it waits. -/
def dropped_in_line : List Action :=
  [.recv, .recv, .recv, .check 0, .check 1, .check 2, .drop_recv 1, .arrive [1], .arrive [2],
    .receive 0, .receive 2]

theorem recv_fair_dropped :
    ∃ s, Transition.run step (with_capacity DEFAULT_PACKET_CHANNEL_CAPACITY) dropped_in_line =
        some s ∧ s.Orderly (log DEFAULT_PACKET_CHANNEL_CAPACITY dropped_in_line) ∧
      received (log DEFAULT_PACKET_CHANNEL_CAPACITY dropped_in_line) = [(0, [1]), (2, [2])] :=
  ⟨_, rfl, recv_fair DEFAULT_PACKET_CHANNEL_CAPACITY dropped_in_line _ rfl, by decide⟩

end Recvs

end Nethernet
