import Nethernet.Transport.Effect

/-!
# What a connection does on its own

The steps of the task of a connection, its changes of state and its state handler change the
connection alone, and at most remove the dispatcher of its id. `Connection.act` says what becomes of
the connection; all that it needs to know of the listener is whether its channel is closed.
-/

namespace Nethernet

open Foundations

namespace Listener

/-- The connection that takes the step. -/
def Action.index : Action → Option ℕ
  | .recv i | .added i _ | .notify i | .clean_dispatchers i | .clean_notifiers i | .change i _
  | .handle i => some i
  | _ => none

namespace Connection

/-- What becomes of a connection in a step of its own. -/
def act (from_str : String → Option RTCIceCandidateInit) (closed : Bool) (c : Connection) :
    Action → Connection
  | .recv _ =>
    match c.queue with
    | signal :: queue =>
      if signal.signal_type = .Candidate then { c with
        queue := queue, task := .Adding
        handed := c.handed ++ [candidate_init from_str signal.data] }
      else { c with queue := queue }
    | [] => if closed then { c with task := .CleanDispatchers } else c
  | .added _ (.error _) => { c with task := .Recv }
  | .added _ (.ok ()) =>
    if c.first_candidate then { c with first_candidate := false, task := .Notify }
    else { c with task := .Recv }
  | .notify _ => { c with task := .Recv }
  | .clean_dispatchers _ => { c with task := .CleanNotifiers }
  | .clean_notifiers _ => { c with task := .Ended }
  | .change _ state => { c with
      state := state, pending := if c.handler then c.pending ++ [state] else c.pending }
  | .handle _ =>
    match c.pending with
    | state :: pending => { c with pending := pending, completed := c.completed ++ [state] }
    | [] => c
  | _ => c

/-- The step removes the dispatcher of the connection's id. -/
def removes_entry (c : Connection) : Action → Bool
  | .clean_dispatchers _ => true
  | .handle _ =>
    match c.pending with
    | state :: _ => state.is_lost
    | [] => false
  | _ => false

variable {from_str : String → Option RTCIceCandidateInit} {closed : Bool} {c : Connection}

@[simp] theorem offer_act (a : Action) : (c.act from_str closed a).offer = c.offer := by
  unfold act
  split <;> (repeat' split) <;> rfl

@[simp] theorem described_act (a : Action) :
    (c.act from_str closed a).described = c.described := by
  unfold act
  split <;> (repeat' split) <;> rfl

end Connection

variable {from_str : String → Option RTCIceCandidateInit}

/-- The step changes the connection `i` alone, and removes its dispatcher or none. -/
def Acts (from_str : String → Option RTCIceCandidateInit) (s s' : Listener) (i : ℕ)
    (c : Connection) (a : Action) : Prop :=
  s'.connections = s.connections.set i
      (c.act from_str (s.signal_dispatchers c.connection_id ≠ some i) a) ∧
    s'.signal_dispatchers = (if c.removes_entry a then
      Function.update s.signal_dispatchers c.connection_id none else s.signal_dispatchers) ∧
    s'.loop = s.loop ∧ s'.accepted = s.accepted

section Steps

variable {s s' : Listener} {i : ℕ} {c : Connection}

theorem acts_recv (h : s.recv from_str i c = some s') : Acts from_str s s' i c (.recv i) := by
  unfold recv at h
  split at h
  · split at h
    · rename_i signal queue hqueue
      split at h <;> rename_i htype <;> obtain rfl := Option.some.inj h <;>
        simp [Acts, Connection.act, Connection.removes_entry, hqueue, htype, put]
    · rename_i hqueue
      split at h
      · cases h
      · rename_i hclosed
        obtain rfl := Option.some.inj h
        simp [Acts, Connection.act, Connection.removes_entry, hqueue, hclosed, put]
  · cases h

theorem acts_added {result : Except String Unit} (h : s.added i c result = some s') :
    Acts from_str s s' i c (.added i result) := by
  unfold added at h
  split at h
  · rcases result with e | ⟨⟨⟩⟩
    · obtain rfl := Option.some.inj h
      exact ⟨rfl, rfl, rfl, rfl⟩
    · dsimp only at h
      split at h <;> rename_i hfirst <;> obtain rfl := Option.some.inj h <;>
        simp [Acts, Connection.act, Connection.removes_entry, hfirst, put]
  · cases h

theorem acts_handle (h : s.handle i c = some s') : Acts from_str s s' i c (.handle i) := by
  unfold handle at h
  split at h
  · cases h
  · rename_i state pending hpending
    obtain rfl := Option.some.inj h
    split <;> rename_i hlost <;>
      simp [Acts, Connection.act, Connection.removes_entry, hpending, hlost, put,
        remove_dispatcher]

end Steps

/-- **A step of a connection** changes what `Connection.act` and `Connection.removes_entry` say. -/
theorem step_of_index {s s' : Listener} {a : Action} {i : ℕ} (ha : a.index = some i)
    (h : step from_str s a = some s') :
    ∃ c, s.connections[i]? = some c ∧ Acts from_str s s' i c a := by
  cases a with
  | recv j =>
    obtain rfl := Option.some.inj ha
    obtain ⟨c, hc, h⟩ := Option.bind_eq_some_iff.1 h
    exact ⟨c, hc, acts_recv h⟩
  | added j result =>
    obtain rfl := Option.some.inj ha
    obtain ⟨c, hc, h⟩ := Option.bind_eq_some_iff.1 h
    exact ⟨c, hc, acts_added h⟩
  | notify j | clean_dispatchers j | clean_notifiers j =>
    obtain rfl := Option.some.inj ha
    obtain ⟨c, hc, h⟩ := Option.bind_eq_some_iff.1 h
    obtain ⟨-, h⟩ := Option.ite_none_right_eq_some.1 h
    obtain rfl := Option.some.inj h
    exact ⟨c, hc, rfl, rfl, rfl, rfl⟩
  | change j state =>
    obtain rfl := Option.some.inj ha
    obtain ⟨c, hc, h⟩ := Option.bind_eq_some_iff.1 h
    obtain ⟨-, h⟩ := Option.ite_none_left_eq_some.1 h
    obtain rfl := Option.some.inj h
    exact ⟨c, hc, rfl, rfl, rfl, rfl⟩
  | handle j =>
    obtain rfl := Option.some.inj ha
    obtain ⟨c, hc, h⟩ := Option.bind_eq_some_iff.1 h
    exact ⟨c, hc, acts_handle h⟩
  | _ => cases ha

end Listener

end Nethernet
