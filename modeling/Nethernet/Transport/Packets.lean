import Nethernet.Session.Fair
import Nethernet.Transport.Read

/-!
# The packets that are read

What the calls of `recv` on a session and a stream over it take from the packet queue
(`src/session/mod.rs`, `src/transport/stream.rs`): packets leave the queue at the front, each for
one call or one poll of the stream (`items_step`), and the first can be read as long as the session
is open (`exists_read`).
-/

namespace Nethernet

open Foundations

/-- The packet that a call of `recv` returns. -/
def Recvs.packets_read (s : Recvs) (a : Action) : List Bytes := (received (s.shows a)).map Prod.snd

/-- The packets that the stream yields or a call of `recv` beside it returns. -/
def SessionStream.packets_read (s : SessionStream) : Action → List Bytes
  | .session a => s.session.packets_read a
  | .poll_next => match s.poll_next.2 with
    | .Ready (some packet) => [packet]
    | _ => []

namespace Recvs

variable {s s' : Recvs} {i : ℕ}

/-- The packet that arrives in a step. -/
def Action.arrived : Action → List Bytes
  | arrive packet => [packet]
  | _ => []

/-- **Packets are taken from the front** of the queue and arrive at its end. -/
theorem items_step {a : Action} (h : step s a = some s') :
    s.packets.items ++ a.arrived = s.packets_read a ++ s'.packets.items := by
  have hcheck : ∀ i, s.packets_read (.check i) = [] := by
    intro i
    rw [packets_read, shows]
    split <;> rfl
  cases step_effect h with
  | arrive packet => rfl
  | refused i =>
    rw [hcheck]
    exact List.append_nil _
  | joined i =>
    rw [hcheck]
    exact List.append_nil _
  | received i packet packets hserve =>
    have hpackets : s.packets_read (.receive i) = [packet] := by
      rw [packets_read, shows, hserve]
      rfl
    rw [hpackets, (Line.serve_eq_some.1 hserve).2]
    exact List.append_nil _
  | _ => exact List.append_nil _

/-- A poll of a call returns the first packet, or takes none. -/
theorem poll_packets (hs : s.WellFormed) (hi : s.pending i) :
    (∃ packet, (s.poll i).recvs[i]? = some (.Returned (some packet)) ∧
      s.packets.items = packet :: (s.poll i).packets.items) ∨
    (∀ packet, (s.poll i).recvs[i]? ≠ some (.Returned (some packet))) ∧
      (s.poll i).packets.items = s.packets.items := by
  have hpoll := poll_invariant (i := i) (s := s) (P := fun u : Recvs => u.WellFormed ∧
    ((∃ packet, u.recvs[i]? = some (.Returned (some packet)) ∧
        s.packets.items = packet :: u.packets.items) ∨
      (∀ packet, u.recvs[i]? ≠ some (.Returned (some packet))) ∧
        u.packets.items = s.packets.items)) ?_ ?_ ⟨hs, .inr ⟨fun packet => ?_, rfl⟩⟩
  · exact hpoll.2
  · rintro u u' ⟨hu, htaken⟩ hstep
    refine ⟨hu.step hstep, ?_⟩
    cases step_effect hstep with
    | refused _ hcalled =>
      rcases htaken with ⟨packet, hreturned, -⟩ | ⟨-, hitems⟩
      · rw [hcalled] at hreturned
        cases hreturned
      · exact .inr ⟨fun packet => by simp [getElem?_set_eq_some hcalled], hitems⟩
    | joined _ hcalled =>
      rcases htaken with ⟨packet, hreturned, -⟩ | ⟨-, hitems⟩
      · rw [hcalled] at hreturned
        cases hreturned
      · exact .inr ⟨fun packet => by simp [getElem?_set_eq_some hcalled], hitems⟩
  · rintro u u' ⟨hu, htaken⟩ hstep
    refine ⟨hu.step hstep, ?_⟩
    cases step_effect hstep with
    | received _ packet packets hserve =>
      obtain ⟨hline, hitems⟩ := Line.serve_eq_some.1 hserve
      have hwaiting : u.recvs[i]? = some .Waiting := by
        rw [← hu.waiting, hline]
        exact List.mem_cons_self
      rcases htaken with ⟨other, hreturned, -⟩ | ⟨-, hsame⟩
      · rw [hwaiting] at hreturned
        cases hreturned
      · exact .inl ⟨packet, (getElem?_set_eq_some hwaiting).2 (.inl ⟨rfl, rfl⟩),
          hsame.symm.trans hitems⟩
  · rcases hi with hcalled | hwaiting
    · rw [hcalled]
      nofun
    · rw [hwaiting]
      nofun

/-- A poll neither closes the session nor changes its capacity. -/
theorem poll_frame (s : Recvs) (i : ℕ) :
    (s.poll i).closed = s.closed ∧ (s.poll i).capacity = s.capacity := by
  refine poll_invariant (P := fun u : Recvs => u.closed = s.closed ∧ u.capacity = s.capacity) ?_ ?_
    ⟨rfl, rfl⟩
  · intro u u' hu hstep
    cases step_effect hstep <;> exact hu
  · intro u u' hu hstep
    cases step_effect hstep
    exact hu

theorem capacity_step {a : Action} (h : step s a = some s') : s'.capacity = s.capacity := by
  cases step_effect h <;> rfl

/-- A poll of a call that nobody is ahead of takes the first packet. -/
theorem items_poll_first (hs : s.WellFormed) (hi : s.pending i) (hopen : s.closed = false)
    {packet : Bytes} {items : List Bytes} (hitems : s.packets.items = packet :: items)
    (hfirst : ∀ j ∈ s.packets.waiting.head?, j = i) : (s.poll i).packets.items = items := by
  rcases hi with hcalled | hwaiting
  · have hnobody : s.packets.waiting = [] := by
      cases hline : s.packets.waiting with
      | nil => rfl
      | cons j waiting =>
        rw [hline] at hfirst
        obtain rfl := hfirst j rfl
        exact absurd (hline ▸ List.mem_cons_self) (hs.not_mem hcalled (by simp))
    have hcheck : s.check i = some { s with
        recvs := s.recvs.set i .Waiting, packets := s.packets.join i } := by
      rw [check, if_pos hcalled, hopen]
      rfl
    have hserve : (s.packets.join i).serve = some (i, packet, ⟨[], items⟩) := by
      rw [Line.serve_eq_some, Line.join, hnobody]
      exact ⟨rfl, hitems⟩
    unfold Recvs.poll
    dsimp only
    rw [hcheck, Option.getD_some, receive_eq_some.2 ⟨packet, _, hserve, rfl⟩]
    rfl
  · have hcheck : s.check i = none := by
      rw [check, hwaiting]
      rfl
    obtain ⟨waiting, hline⟩ : ∃ waiting, s.packets.waiting = i :: waiting := by
      have hmem := (hs.waiting i).2 hwaiting
      cases hline : s.packets.waiting with
      | nil =>
        rw [hline] at hmem
        cases hmem
      | cons j waiting =>
        rw [hline] at hfirst
        exact ⟨waiting, by rw [hfirst j rfl]⟩
    have hserve : s.packets.serve = some (i, packet, ⟨waiting, items⟩) :=
      Line.serve_eq_some.2 ⟨hline, hitems⟩
    unfold Recvs.poll
    dsimp only
    rw [hcheck, Option.getD_none, receive_eq_some.2 ⟨packet, _, hserve, rfl⟩]
    rfl

end Recvs

namespace SessionStream

variable {s s' : SessionStream}

theorem items_poll_next (hs : s.WellFormed) :
    s.session.packets.items = s.packets_read .poll_next ++ s.poll_next.1.session.packets.items := by
  have hitems : s.poll_next.1.session.packets.items =
      (s.session.poll s.recv_future).packets.items := by
    rcases s.poll_next_cases with heq | ⟨heq, -⟩
    · rw [heq]
      rfl
    · rw [heq]
  rw [hitems]
  rcases Recvs.poll_packets hs.session hs.pending with ⟨packet, hreturned, hfront⟩ | ⟨hnone, hsame⟩
  · have hpackets : s.packets_read .poll_next = [packet] := by
      simp only [packets_read, poll_next, hreturned]
    rw [hpackets, hfront]
    rfl
  · have hpackets : s.packets_read .poll_next = [] := by
      simp only [packets_read, poll_next]
      split
      · rename_i packet heq
        split at heq
        · rename_i packet' hreturned
          obtain rfl := Poll.Ready.inj heq
          exact absurd hreturned (hnone packet)
        · cases heq
      · rfl
    rw [hpackets, hsame]
    rfl

/-- The packet that arrives in a step. -/
def Action.arrived : Action → List Bytes
  | session a => a.arrived
  | poll_next => []

theorem items_step {a : Action} (hs : s.WellFormed) (h : step s a = some s') :
    s.session.packets.items ++ a.arrived = s.packets_read a ++ s'.session.packets.items := by
  cases a with
  | session a =>
    obtain ⟨-, h⟩ := Option.ite_none_left_eq_some.1 h
    obtain ⟨session, hstep, rfl⟩ := Option.map_eq_some_iff.1 h
    exact Recvs.items_step hstep
  | poll_next =>
    obtain rfl := Option.some.inj h
    exact (List.append_nil _).trans (items_poll_next hs)

theorem capacity_step {a : Action} (h : step s a = some s') :
    s'.session.capacity = s.session.capacity := by
  cases a with
  | session a =>
    obtain ⟨-, h⟩ := Option.ite_none_left_eq_some.1 h
    obtain ⟨session, hstep, rfl⟩ := Option.map_eq_some_iff.1 h
    exact Recvs.capacity_step hstep
  | poll_next =>
    cases h
    obtain ⟨-, hcapacity⟩ := s.session.poll_frame s.recv_future
    rcases s.poll_next_cases with heq | ⟨heq, -⟩ <;> rw [heq] <;> exact hcapacity

/-- A poll of the stream, or of a call of `recv` that waits. -/
def Action.is_poll : Action → Bool
  | .poll_next | .session (.receive _) => true
  | _ => false

/-- **The first packet can be read**, by the call that is first in line. -/
theorem exists_read (hs : s.WellFormed) (hopen : s.session.closed = false) {packet : Bytes}
    {items : List Bytes} (hitems : s.session.packets.items = packet :: items) :
    ∃ a s', a.is_poll = true ∧ step s a = some s' ∧ s'.session.packets.items = items ∧
      s'.session.closed = false ∧ s'.session.capacity = s.session.capacity := by
  by_cases hfirst : ∀ j ∈ s.session.packets.waiting.head?, j = s.recv_future
  · have hpoll := Recvs.items_poll_first hs.session hs.pending hopen hitems hfirst
    obtain ⟨hclosed, hcapacity⟩ := s.session.poll_frame s.recv_future
    refine ⟨.poll_next, s.poll_next.1, rfl, rfl, ?_⟩
    rcases s.poll_next_cases with heq | ⟨heq, -⟩
    · rw [heq]
      exact ⟨hpoll, hclosed.trans hopen, hcapacity⟩
    · rw [heq]
      exact ⟨hpoll, hclosed.trans hopen, hcapacity⟩
  · obtain ⟨j, hj, hne⟩ : ∃ j ∈ s.session.packets.waiting.head?, j ≠ s.recv_future := by
      by_contra hnone
      exact hfirst fun j hj => by_contra fun hne => hnone ⟨j, hj, hne⟩
    obtain ⟨waiting, hline⟩ := List.head?_eq_some_iff.1 hj
    have hserve : s.session.packets.serve = some (j, packet, ⟨waiting, items⟩) :=
      Line.serve_eq_some.2 ⟨hline, hitems⟩
    have hstep : Recvs.step s.session (.receive j) = some _ :=
      Recvs.receive_eq_some.2 ⟨packet, _, hserve, rfl⟩
    exact ⟨.session (.receive j), _, rfl,
      session_step (fun h => hne (Option.some.inj h)) hstep, rfl, hopen, rfl⟩

end SessionStream

end Nethernet
