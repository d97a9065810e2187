import Nethernet.Transport.Effect

/-!
# Who owns a dispatcher

A dispatcher is named by a connection id, and removed by name: by the task of a connection when its
channel is closed, and by the state handler. `dispatches_of_undisturbed`: if a connection is
registered only when every earlier one of its id is spent, and no connection recovers after its
state handler has been called with a lost state, then only the connection that registered a
dispatcher removes it, and a connection that is not lost keeps its dispatcher. Otherwise the task of
an earlier connection removes the dispatcher of a later one (`not_dispatches`).
-/

namespace Nethernet

open Foundations

namespace Listener

variable {from_str : String → Option RTCIceCandidateInit}

namespace Connection

/-- The connection removes no dispatcher any more: its task has, no call of its state handler is
pending, and none will come. -/
def spent (c : Connection) : Prop :=
  c.task.has_cleaned ∧ c.pending = [] ∧ (c.handler → c.state = .Closed)

instance (c : Connection) : Decidable c.lost_called := inferInstanceAs (Decidable (∃ _ ∈ _, _))

instance (c : Connection) : Decidable c.spent := inferInstanceAs (Decidable (_ ∧ _))

end Connection

/-- The connection that `handle_offer` is about to register. -/
def registering (s : Listener) : Option Connection :=
  match s.loop with
  | .insert_dispatcher i => s.connections[i]?
  | _ => none

/-- The connection that changes its state, and the state. -/
def changing (s : Listener) : Action → Option (Connection × RTCPeerConnectionState)
  | .change i state => (s.connections[i]?).map (·, state)
  | _ => none

/-- A connection is registered only when the registered ones of its id are spent, and a connection
whose state handler has been called with a lost state stays lost. -/
def Undisturbed (s : Listener) (a : Action) : Prop :=
  (a = .proceed → ∀ c ∈ s.registering, ∀ d ∈ s.connections,
    d.task ≠ .Unspawned → d.connection_id = c.connection_id → d.spent) ∧
  ∀ p ∈ s.changing a, p.1.lost_called → p.2.is_lost

instance (s : Listener) (a : Action) : Decidable (Undisturbed s a) :=
  inferInstanceAs (Decidable (_ ∧ _))

/-! ## The invariant -/

/-- In every undisturbed run: all connections of an id but the last are spent, and one whose state
handler has not been called with a lost state is running and has its dispatcher. -/
structure Owned (s : Listener) : Prop where
  wellFormed : s.WellFormed
  spent : ∀ (i j : ℕ) (c d : Connection), i < j → s.connections[i]? = some c →
    s.connections[j]? = some d → c.connection_id = d.connection_id → d.task ≠ .Unspawned → c.spent
  running : ∀ (i : ℕ) (c : Connection), s.connections[i]? = some c → c.task ≠ .Unspawned →
    ¬ c.lost_called → c.task.is_running ∧ s.signal_dispatchers c.connection_id = some i
  lost : ∀ (i : ℕ) (c : Connection), s.connections[i]? = some c → c.lost_called → c.state.is_lost
  latest : ∀ id i, s.signal_dispatchers id = some i → ∀ (j : ℕ) (d : Connection), i < j →
    s.connections[j]? = some d → d.connection_id = id → d.task = .Unspawned

theorem owned_bind : bind.Owned where
  wellFormed := wellFormed_bind
  spent i j c d _ hc := by simp [bind] at hc
  running i c hc := by simp [bind] at hc
  lost i c hc := by simp [bind] at hc
  latest id i h := by cases h

/-- The connection that the signal handler works on is the last. -/
theorem WellFormed.not_lt {s : Listener} (hs : s.WellFormed) {i j : ℕ} {d : Connection}
    (hi : s.loop.connection = some i) (hd : s.connections[j]? = some d) : ¬ i < j := by
  have hlast := hs.last i hi
  have hlt := (List.getElem?_eq_some_iff.1 hd).1
  omega

theorem not_running_of_cleaned {task : Task} (h : task.has_cleaned) : ¬ task.is_running := by
  cases task <;> simp_all [Task.has_cleaned, Task.is_running]

/-- A connection about to remove its dispatcher. -/
def Connection.removes (c : Connection) : Prop :=
  c.task = .CleanDispatchers ∨ ∃ state ∈ c.pending, state.is_lost

theorem Connection.removes.not_spent {c : Connection} (h : c.removes) : ¬ c.spent := by
  rintro ⟨hcleaned, hpending, -⟩
  rcases h with h | ⟨state, hmem, -⟩
  · rw [h] at hcleaned
    cases hcleaned
  · rw [hpending] at hmem
    cases hmem

theorem WellFormed.spawned_of_removes {s : Listener} (hs : s.WellFormed) {i : ℕ} {c : Connection}
    (hc : s.connections[i]? = some c) (h : c.removes) : c.task ≠ .Unspawned := by
  intro htask
  rcases h with h | ⟨state, hmem, -⟩
  · cases htask.symm.trans h
  · have hcalled := hs.called_of_unspawned hc htask
    rw [Connection.called, List.append_eq_nil_iff] at hcalled
    rw [hcalled.2] at hmem
    cases hmem

/-- **A dispatcher is removed by its owner.** -/
theorem Owned.eq_of_removes {s : Listener} (hs : s.Owned) {i j : ℕ} {c : Connection}
    (hc : s.connections[i]? = some c) (h : c.removes)
    (hj : s.signal_dispatchers c.connection_id = some j) : j = i := by
  obtain ⟨d, hd, hid, hspawned⟩ := hs.wellFormed.entry _ j hj
  rcases Nat.lt_trichotomy i j with hlt | heq | hlt
  · exact absurd (hs.spent i j c d hlt hc hd hid.symm hspawned) h.not_spent
  · exact heq.symm
  · exact absurd (hs.latest _ j hj i c hlt hc rfl) (hs.wellFormed.spawned_of_removes hc h)

theorem Evolves.spent {s : Listener} {a : Action} {i : ℕ} {c c' : Connection}
    (hev : Evolves from_str s a i c c') (h : c.spent) : c'.spent := by
  obtain ⟨hcleaned, hpending, hclosed⟩ := h
  refine ⟨hev.cleaned hcleaned, ?_, fun hh => ?_⟩
  · rcases hev.called with ⟨-, -, hkeep⟩ | ⟨-, hopen, -, hpending'⟩
    · exact hkeep hpending
    · have hh : ¬ c.handler := fun hh => hopen (hclosed hh)
      rw [hpending', if_neg hh, hpending]
  · have hstate := hclosed (hev.handler ▸ hh)
    rcases hev.called with ⟨hsame, -, -⟩ | ⟨-, hopen, -⟩
    · exact hsame.trans hstate
    · exact absurd hstate hopen

/-- A connection that stays lost once its state handler has been called so. -/
theorem Evolves.lost {s : Listener} {a : Action} {i : ℕ} {c c' : Connection}
    (hev : Evolves from_str s a i c c') (hc : s.connections[i]? = some c) (hC : s.Undisturbed a)
    (hlost : c.lost_called → c.state.is_lost) (h : c'.lost_called) : c'.state.is_lost := by
  rcases hev.called with ⟨hstate, hcalled, -⟩ | ⟨rfl, -, hcompleted, hpending⟩
  · rw [hstate]
    rw [Connection.lost_called, hcalled] at h
    exact hlost h
  · by_cases hbefore : c.lost_called
    · exact hC.2 (c, c'.state) (by rw [changing, hc]; rfl) hbefore
    · obtain ⟨state, hmem, hstate⟩ := h
      rw [Connection.called, hcompleted, hpending] at hmem
      split at hmem
      · rw [← List.append_assoc, List.mem_append, List.mem_singleton] at hmem
        rcases hmem with hmem | rfl
        · exact absurd ⟨state, hmem, hstate⟩ hbefore
        · exact hstate
      · exact absurd ⟨state, hmem, hstate⟩ hbefore

section Steps

variable {s s' : Listener} {a : Action} {i : ℕ} {c : Connection}

/-- Only the connection itself loses its dispatcher, and only when it is not running. -/
theorem Owned.kept (hs : s.Owned) (hc : s.connections[i]? = some c)
    (hdisp : s'.signal_dispatchers = s.signal_dispatchers ∨
      s'.signal_dispatchers = Function.update s.signal_dispatchers c.connection_id none ∧
        c.removes) {j : ℕ} {d : Connection} (hd : s.connections[j]? = some d)
    (hspawned : d.task ≠ .Unspawned) (hlost : ¬ d.lost_called) :
    s'.signal_dispatchers d.connection_id = some j := by
  obtain ⟨hrunning, hentry⟩ := hs.running j d hd hspawned hlost
  rcases hdisp with hdisp | ⟨hdisp, hremoves⟩
  · exact hdisp ▸ hentry
  · rw [hdisp, Function.update_of_ne, hentry]
    intro heq
    obtain rfl := hs.eq_of_removes hc hremoves (heq ▸ hentry)
    obtain rfl := Option.some.inj (hc.symm.trans hd)
    rcases hremoves with htask | ⟨state, hmem, hstate⟩
    · rw [htask] at hrunning
      cases hrunning
    · exact hlost ⟨state, List.mem_append_right _ hmem, hstate⟩

theorem Owned.evolve (hs : s.Owned) (hs' : s'.WellFormed) (hC : s.Undisturbed a) {c' : Connection}
    (hc : s.connections[i]? = some c) (hev : Evolves from_str s a i c c')
    (hconn : s'.connections = s.connections.set i c')
    (hdisp : s'.signal_dispatchers = s.signal_dispatchers ∨
      s'.signal_dispatchers = Function.update s.signal_dispatchers c.connection_id none ∧
        c.removes) : s'.Owned := by
  have hid : c'.connection_id = c.connection_id := congrArg Signal.connection_id hev.offer
  have hkept : ∀ id j, s'.signal_dispatchers id = some j → s.signal_dispatchers id = some j :=
    fun _ _ => entry_of_removed (hdisp.imp_right And.left)
  refine ⟨hs', fun p q e d hpq he hd heq hspawned => ?_, fun j d hd hspawned hlost => ?_,
    fun j d hd hlost => ?_, fun id p hp q d hpq hd heq => ?_⟩
  · rw [hconn, getElem?_set_eq_some hc] at he hd
    rcases he with ⟨rfl, rfl⟩ | ⟨-, he⟩
    · rcases hd with ⟨rfl, -⟩ | ⟨-, hd⟩
      · exact absurd hpq (Nat.lt_irrefl _)
      · exact hev.spent (hs.spent i q c d hpq hc hd (hid ▸ heq) hspawned)
    · rcases hd with ⟨rfl, rfl⟩ | ⟨-, hd⟩
      · exact hs.spent p i e c hpq he hc (heq.trans hid) fun h => hspawned (hev.unspawned.2 h)
      · exact hs.spent p q e d hpq he hd heq hspawned
  · rw [hconn, getElem?_set_eq_some hc] at hd
    rcases hd with ⟨rfl, rfl⟩ | ⟨-, hd⟩
    · have hspawned' : c.task ≠ .Unspawned := fun h => hspawned (hev.unspawned.2 h)
      have hlost' : ¬ c.lost_called := fun h => hlost (hev.lost_called h)
      obtain ⟨hrunning, hentry⟩ := hs.running i c hc hspawned' hlost'
      exact ⟨hev.running hrunning hentry, hid ▸ hs.kept hc hdisp hc hspawned' hlost'⟩
    · exact ⟨(hs.running j d hd hspawned hlost).1, hs.kept hc hdisp hd hspawned hlost⟩
  · rw [hconn, getElem?_set_eq_some hc] at hd
    rcases hd with ⟨rfl, rfl⟩ | ⟨-, hd⟩
    · exact hev.lost hc hC (hs.lost i c hc) hlost
    · exact hs.lost j d hd hlost
  · rw [hconn, getElem?_set_eq_some hc] at hd
    rcases hd with ⟨rfl, rfl⟩ | ⟨-, hd⟩
    · exact hev.unspawned.2 (hs.latest id p (hkept id p hp) i c hpq hc (hid.symm.trans heq))
    · exact hs.latest id p (hkept id p hp) q d hpq hd heq

theorem Owned.create {offer : Signal} (hs : s.Owned) (hs' : s'.WellFormed)
    (hconn : s'.connections = s.connections ++ [Connection.new offer])
    (hdisp : s'.signal_dispatchers = s.signal_dispatchers) : s'.Owned := by
  have hlt : ∀ {i : ℕ} {c : Connection}, s.connections[i]? = some c → i < s.connections.length :=
    fun hc => (List.getElem?_eq_some_iff.1 hc).1
  refine ⟨hs', fun p q e d hpq he hd heq hspawned => ?_, fun j d hd hspawned hlost => ?_,
    fun j d hd hlost => ?_, fun id p hp q d hpq hd heq => ?_⟩
  · rw [hconn, getElem?_concat_eq_some] at he hd
    rcases hd with hd | ⟨-, rfl⟩
    · rcases he with he | ⟨rfl, -⟩
      · exact hs.spent p q e d hpq he hd heq hspawned
      · exact absurd (hlt hd) (Nat.lt_asymm hpq)
    · exact absurd rfl hspawned
  · rw [hconn, getElem?_concat_eq_some] at hd
    rcases hd with hd | ⟨-, rfl⟩
    · rw [hdisp]
      exact hs.running j d hd hspawned hlost
    · exact absurd rfl hspawned
  · rw [hconn, getElem?_concat_eq_some] at hd
    rcases hd with hd | ⟨-, rfl⟩
    · exact hs.lost j d hd hlost
    · obtain ⟨state, hmem, -⟩ := hlost
      cases hmem
  · rw [hconn, getElem?_concat_eq_some] at hd
    rcases hd with hd | ⟨-, rfl⟩
    · exact hs.latest id p (hdisp ▸ hp) q d hpq hd heq
    · rfl

theorem Owned.register (hs : s.Owned) (hs' : s'.WellFormed) (hC : s.Undisturbed .proceed)
    (hloop : s.loop = .insert_dispatcher i) (hc : s.connections[i]? = some c)
    (hconn : s'.connections = s.connections.set i { c with task := .Recv })
    (hdisp : s'.signal_dispatchers =
      Function.update s.signal_dispatchers c.connection_id (some i)) : s'.Owned := by
  have hnot : ∀ {j : ℕ} {d : Connection}, s.connections[j]? = some d → ¬ i < j := fun hd =>
    hs.wellFormed.not_lt (by rw [hloop]; rfl) hd
  have hspent : ∀ (j : ℕ) (d : Connection), s.connections[j]? = some d → d.task ≠ .Unspawned →
      d.connection_id = c.connection_id → d.spent := fun j d hd =>
    hC.1 rfl c (by rw [registering, hloop]; exact hc) d (List.mem_of_getElem? hd)
  have hunspawned : ∀ (j : ℕ) (d : Connection), i ≠ j → s.connections[j]? = some d →
      d.task ≠ .Unspawned := by
    intro j d hij hd
    refine hs.wellFormed.spawned hd ?_
    rw [hloop]
    exact fun h => hij (Option.some.inj h)
  refine ⟨hs', fun p q e d hpq he hd heq hspawned => ?_, fun j d hd hspawned hlost => ?_,
    fun j d hd hlost => ?_, fun id p hp q d hpq hd heq => ?_⟩
  · rw [hconn, getElem?_set_eq_some hc] at he hd
    rcases hd with ⟨rfl, rfl⟩ | ⟨hiq, hd⟩
    · rcases he with ⟨rfl, -⟩ | ⟨hip, he⟩
      · exact absurd hpq (Nat.lt_irrefl _)
      · exact hspent p e he (hunspawned p e hip he) heq
    · rcases he with ⟨rfl, -⟩ | ⟨-, he⟩
      · exact absurd hpq (hnot hd)
      · exact hs.spent p q e d hpq he hd heq hspawned
  · rw [hconn, getElem?_set_eq_some hc] at hd
    rw [hdisp]
    rcases hd with ⟨rfl, rfl⟩ | ⟨-, hd⟩
    · exact ⟨rfl, Function.update_self ..⟩
    · obtain ⟨hrunning, hentry⟩ := hs.running j d hd hspawned hlost
      refine ⟨hrunning, ?_⟩
      rw [Function.update_of_ne, hentry]
      exact fun heq => not_running_of_cleaned (hspent j d hd hspawned heq).1 hrunning
  · rw [hconn, getElem?_set_eq_some hc] at hd
    rcases hd with ⟨rfl, rfl⟩ | ⟨-, hd⟩
    · exact hs.lost i c hc hlost
    · exact hs.lost j d hd hlost
  · rw [hconn, getElem?_set_eq_some hc] at hd
    rw [hdisp, Function.update_apply] at hp
    rcases hd with ⟨rfl, rfl⟩ | ⟨-, hd⟩
    · rw [if_pos heq.symm] at hp
      obtain rfl := Option.some.inj hp
      exact absurd hpq (Nat.lt_irrefl _)
    · split at hp
      · obtain rfl := Option.some.inj hp
        exact absurd hpq (hnot hd)
      · exact hs.latest id p hp q d hpq hd heq

theorem Owned.accept (hs : s.Owned) (hs' : s'.WellFormed) (hloop : s.loop = .set_handlers i)
    (hc : s.connections[i]? = some c)
    (hconn : s'.connections = s.connections.set i { c with handler := true })
    (hdisp : s'.signal_dispatchers = s.signal_dispatchers) : s'.Owned := by
  have hnot : ∀ {j : ℕ} {d : Connection}, s.connections[j]? = some d → ¬ i < j := fun hd =>
    hs.wellFormed.not_lt (by rw [hloop]; rfl) hd
  refine ⟨hs', fun p q e d hpq he hd heq hspawned => ?_, fun j d hd hspawned hlost => ?_,
    fun j d hd hlost => ?_, fun id p hp q d hpq hd heq => ?_⟩
  · rw [hconn, getElem?_set_eq_some hc] at he hd
    rcases he with ⟨rfl, -⟩ | ⟨-, he⟩
    · rcases hd with ⟨rfl, -⟩ | ⟨-, hd⟩
      · exact absurd hpq (Nat.lt_irrefl _)
      · exact absurd hpq (hnot hd)
    · rcases hd with ⟨rfl, rfl⟩ | ⟨-, hd⟩
      · exact hs.spent p i e c hpq he hc heq hspawned
      · exact hs.spent p q e d hpq he hd heq hspawned
  · rw [hconn, getElem?_set_eq_some hc] at hd
    rw [hdisp]
    rcases hd with ⟨rfl, rfl⟩ | ⟨-, hd⟩
    · exact hs.running i c hc hspawned hlost
    · exact hs.running j d hd hspawned hlost
  · rw [hconn, getElem?_set_eq_some hc] at hd
    rcases hd with ⟨rfl, rfl⟩ | ⟨-, hd⟩
    · exact hs.lost i c hc hlost
    · exact hs.lost j d hd hlost
  · rw [hconn, getElem?_set_eq_some hc] at hd
    rw [hdisp] at hp
    rcases hd with ⟨rfl, rfl⟩ | ⟨-, hd⟩
    · exact hs.latest id p hp i c hpq hc heq
    · exact hs.latest id p hp q d hpq hd heq

/-- **An undisturbed step keeps the invariant.** -/
theorem Owned.step (hs : s.Owned) (hC : s.Undisturbed a) (h : step from_str s a = some s') :
    s'.Owned := by
  have hs' := hs.wellFormed.step h
  cases step_effect h with
  | idle hconn hdisp =>
    exact ⟨hs', hconn ▸ hs.spent, hconn ▸ hdisp ▸ hs.running, hconn ▸ hs.lost,
      hconn ▸ hdisp ▸ hs.latest⟩
  | evolve i c c' hc hev hconn hdisp =>
    refine hs.evolve hs' hC hc hev hconn (hdisp.imp_right fun h => ⟨h.1, ?_⟩)
    exact h.2.imp And.right And.right
  | create offer hloop hconn hdisp => exact hs.create hs' hconn hdisp
  | register i c ha hloop hc hconn hdisp => exact hs.register hs' (ha ▸ hC) hloop hc hconn hdisp
  | accept i c hloop hc hconn hdisp => exact hs.accept hs' hloop hc hconn hdisp

end Steps

/-! ## The dispatchers of live connections -/

/-- The connection of the most recent offer for an id that was handled successfully. -/
def latest_accepted (s : Listener) (id : UInt64) : Option ℕ :=
  (s.accepted.filter fun i => (s.connections[i]?).any (·.connection_id = id)).getLast?

theorem latest_accepted_eq_some {s : Listener} {id : UInt64} {i : ℕ}
    (h : s.latest_accepted id = some i) :
    i ∈ s.accepted ∧ ∀ c, s.connections[i]? = some c → c.connection_id = id := by
  obtain ⟨hmem, hid⟩ := List.mem_filter.1 (List.mem_of_getLast? h)
  refine ⟨hmem, fun c hc => ?_⟩
  rw [hc] at hid
  exact of_decide_eq_true hid

/-- The latest accepted connection of an id has its dispatcher unless it is lost, and only the
connection that a dispatcher belongs to removes it. -/
structure Dispatches (from_str : String → Option RTCIceCandidateInit) (s : Listener) : Prop where
  registered : ∀ (id : UInt64) (i : ℕ) (c : Connection), s.latest_accepted id = some i →
    s.connections[i]? = some c → ¬ c.state.is_lost → s.signal_dispatchers id = some i
  removed : ∀ a s' id i, step from_str s a = some s' → s.signal_dispatchers id = some i →
    s'.signal_dispatchers id = none → a = .clean_dispatchers i ∨ a = .handle i

theorem Owned.registered {s : Listener} (hs : s.Owned) {id : UInt64} {i : ℕ} {c : Connection}
    (hi : s.latest_accepted id = some i) (hc : s.connections[i]? = some c)
    (hlive : ¬ c.state.is_lost) : s.signal_dispatchers id = some i := by
  obtain ⟨hmem, hid⟩ := latest_accepted_eq_some hi
  obtain ⟨_, d, hd, -, hspawned⟩ := hs.wellFormed.accepted i hmem
  obtain rfl := Option.some.inj (hc.symm.trans hd)
  have hlost : ¬ c.lost_called := fun h => hlive (hs.lost i c hc h)
  exact hid c hc ▸ (hs.running i c hc hspawned hlost).2

theorem Owned.removed {s s' : Listener} {a : Action} (hs : s.Owned) {id : UInt64} {i : ℕ}
    (h : Listener.step from_str s a = some s') (hi : s.signal_dispatchers id = some i)
    (hnone : s'.signal_dispatchers id = none) : a = .clean_dispatchers i ∨ a = .handle i := by
  cases step_effect h with
  | idle hconn hdisp => cases hi.symm.trans (hdisp ▸ hnone)
  | evolve j c c' hc hev hconn hdisp =>
    rcases hdisp with hdisp | ⟨hdisp, ha⟩
    · cases hi.symm.trans (hdisp ▸ hnone)
    · rw [hdisp, Function.update_apply] at hnone
      split at hnone
      · rename_i hid
        have hremoves : c.removes := ha.imp And.right And.right
        obtain rfl := hs.eq_of_removes hc hremoves (hid ▸ hi)
        exact ha.imp And.left And.left
      · cases hi.symm.trans hnone
  | create offer hloop hconn hdisp => cases hi.symm.trans (hdisp ▸ hnone)
  | register j c ha hloop hc hconn hdisp =>
    rw [hdisp, Function.update_apply] at hnone
    split at hnone
    · cases hnone
    · cases hi.symm.trans hnone
  | accept j c hloop hc hconn hdisp => cases hi.symm.trans (hdisp ▸ hnone)

/-- **Dispatchers in undisturbed runs**: in every state reached, a connection that is not lost has
its dispatcher, and only the connection that a dispatcher belongs to removes it. -/
theorem dispatches_of_undisturbed {as : List Action} {s : Listener}
    (hC : Transition.Along (step from_str) Undisturbed bind as)
    (h : Transition.run (step from_str) bind as = some s) : s.Dispatches from_str := by
  have hs : s.Owned := Transition.run_invariant_along
    (fun s a s' hs hC h => Owned.step hs hC h) owned_bind hC h
  exact ⟨fun id i c => hs.registered, fun a s' id i => hs.removed⟩

/-- The steps of an offer that is handled successfully. -/
def acceptance (offer : Signal) : List Action := .signal offer :: handling

/-- The steps of the connection 0 when it is closed. -/
def closing : List Action :=
  [.change 0 .Closed, .handle 0, .recv 0, .clean_dispatchers 0, .clean_notifiers 0]

/-- An id is used again once its connection is closed. -/
theorem dispatches_reused : ∃ s, Transition.run (step fun _ => none) bind
      (acceptance (.offer 5 "sdp" "7") ++ closing ++ acceptance (.offer 5 "sdp" "7")) = some s ∧
    s.Dispatches fun _ => none := by
  have hrun : (Transition.run (step fun _ => none) bind (acceptance (.offer 5 "sdp" "7") ++
      closing ++ acceptance (.offer 5 "sdp" "7"))).isSome := by decide
  refine ⟨_, (Option.some_get hrun).symm, ?_⟩
  exact dispatches_of_undisturbed (by decide) (Option.some_get hrun).symm

/-- A repeated offer: the task of the first connection, whose channel it closes, removes the
dispatcher of the second, which is accepted and not lost. -/
theorem not_dispatches : ¬ ∀ as s,
    Transition.run (step fun _ => none) bind as = some s → s.Dispatches fun _ => none := by
  intro h
  have htrace : (Transition.run (step fun _ => none) bind (acceptance (.offer 5 "sdp" "7") ++
      acceptance (.offer 5 "sdp" "7") ++ [.recv 0, .clean_dispatchers 0])).map (fun s =>
        (s.latest_accepted 5, s.connections[1]?.map (·.state), s.signal_dispatchers 5)) =
      some (some 1, some .New, none) := by decide
  obtain ⟨s, hrun, hs⟩ := Option.map_eq_some_iff.1 htrace
  simp only [Prod.mk.injEq, Option.map_eq_some_iff] at hs
  obtain ⟨hlatest, ⟨c, hc, hstate⟩, hnone⟩ := hs
  have hlive : ¬ c.state.is_lost := by
    rw [hstate]
    decide
  cases hnone.symm.trans ((h _ s hrun).registered 5 1 c hlatest hc hlive)

end Listener

end Nethernet
