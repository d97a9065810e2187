import Nethernet.Session.Channels
import Nethernet.Session.Recv

/-!
# The calls of `close`

`Session::close` (`src/session/mod.rs`) beside `set_reliable_channel` and `set_unreliable_channel`,
any number of calls of each. A call locks one slot after the other and closes the channel it finds,
then the peer connection. `closes_report`: only the call that has set the flag closes anything and
says how that ended; every other call that returns is a no-op. `closes_simulates`: these are the
calls of `close` that `Recvs` has, seen more closely.
-/

namespace Nethernet

open Foundations

namespace Closes

/-- A call of `close`. -/
inductive Call
  /-- It has not taken the flag yet. -/
  | Called
  /-- It waits for the lock of a slot, or for the close of the channel it has found there. -/
  | lock (slot : Slot)
  | closing (slot : Slot) (channel : ℕ)
  /-- It closes the peer connection. -/
  | peer_connection
  | Returned (result : Except NethernetError Unit)
  | Dropped
  deriving DecidableEq, Repr

namespace Call

/-- What follows when a slot is done. -/
def after : Slot → Call
  | .Reliable => lock .Unreliable
  | .Unreliable => peer_connection

def is_returned : Call → Bool
  | Returned _ => true
  | _ => false

/-- The call need not have done anything: it has returned with success or not taken the flag. -/
def is_idle : Call → Bool
  | Called | Returned (.ok ()) | Dropped => true
  | _ => false

end Call

end Closes

open Closes in
/-- The slots of a session, its flag and its calls of `close`, and what they have done. -/
structure Closes where
  closed : Bool
  channels : Channels
  closes : List Call
  /-- The call that set the flag, and the channels that were attached then. -/
  closer : Option ℕ
  attached : Channels
  /-- The channels put out of their slots since the flag was set. -/
  replaced : List ℕ
  /-- The channels on which `close` has been called. -/
  attempted : List ℕ
  /-- The results of `peer_connection.close()`. -/
  peer_closes : List (Except String Unit)
  deriving DecidableEq, Repr

namespace Closes

/-- A channel is attached, or a call takes a step. -/
inductive Action
  | set_channel (slot : Slot) (channel : ℕ)
  /-- `close` is called, takes the flag, locks a slot, has closed a channel or the connection, is
  dropped. -/
  | close
  | mark (k : ℕ)
  | lock (k : ℕ)
  | awaited (k : ℕ) (result : Except String Unit)
  | drop_close (k : ℕ)
  deriving DecidableEq, Repr

/-- A new session. -/
def new : Closes where
  closed := false
  channels := .new
  closes := []
  closer := none
  attached := .new
  replaced := []
  attempted := []
  peer_closes := []

/-- A channel takes the place of the one in its slot. -/
def set_channel (s : Closes) (slot : Slot) (channel : ℕ) : Closes :=
  { s with
    channels := s.channels.set slot channel
    replaced := s.replaced ++ if s.closed then (s.channels.get slot).toList.erase channel else [] }

/-- `close` takes the flag: it returns if the flag is set, and else sets it. -/
def mark (s : Closes) (k : ℕ) : Option Closes :=
  if s.closes[k]? = some .Called then
    if s.closed then some { s with closes := s.closes.set k (.Returned (.ok ())) }
    else some { s with
      closed := true, closer := some k, attached := s.channels
      closes := s.closes.set k (.lock .Reliable) }
  else none

/-- The call locks a slot, and calls `close` on the channel there. -/
def lock (s : Closes) (k : ℕ) : Option Closes :=
  match s.closes[k]? with
  | some (.lock slot) =>
    match s.channels.get slot with
    | some channel => some { s with
        attempted := s.attempted ++ [channel], closes := s.closes.set k (.closing slot channel) }
    | none => some { s with closes := s.closes.set k (.after slot) }
  | _ => none

/-- The close of a channel or of the peer connection returns. Only the result of the latter
matters. -/
def awaited (s : Closes) (k : ℕ) (result : Except String Unit) : Option Closes :=
  match s.closes[k]? with
  | some (.closing slot _) => some { s with closes := s.closes.set k (.after slot) }
  | some .peer_connection => some { s with
      peer_closes := s.peer_closes ++ [result]
      closes := s.closes.set k (.Returned (result.mapError .WebRtc)) }
  | _ => none

/-- A call is dropped. -/
def drop_close (s : Closes) (k : ℕ) : Option Closes :=
  (s.closes[k]?).bind fun c =>
    if c.is_returned then none else some { s with closes := s.closes.set k .Dropped }

/-- One step. -/
def step : Transition Closes Action
  | s, .set_channel slot channel => some (s.set_channel slot channel)
  | s, .close => some { s with closes := s.closes ++ [.Called] }
  | s, .mark k => s.mark k
  | s, .lock k => s.lock k
  | s, .awaited k result => s.awaited k result
  | s, .drop_close k => s.drop_close k

/-- What a step does. -/
inductive Effect (s : Closes) : Action → Closes → Prop
  | attached (slot : Slot) (channel : ℕ) :
    Effect s (.set_channel slot channel) (s.set_channel slot channel)
  | close : Effect s .close { s with closes := s.closes ++ [.Called] }
  | marked (k : ℕ) (hcalled : s.closes[k]? = some .Called) (hclosed : s.closed = true) :
    Effect s (.mark k) { s with closes := s.closes.set k (.Returned (.ok ())) }
  | marks (k : ℕ) (hcalled : s.closes[k]? = some .Called) (hopen : ¬ s.closed = true) :
    Effect s (.mark k) { s with
      closed := true, closer := some k, attached := s.channels
      closes := s.closes.set k (.lock .Reliable) }
  | found (k : ℕ) (slot : Slot) (channel : ℕ) (hlock : s.closes[k]? = some (.lock slot))
    (hchannel : s.channels.get slot = some channel) :
    Effect s (.lock k) { s with
      attempted := s.attempted ++ [channel], closes := s.closes.set k (.closing slot channel) }
  | missing (k : ℕ) (slot : Slot) (hlock : s.closes[k]? = some (.lock slot))
    (hchannel : s.channels.get slot = none) :
    Effect s (.lock k) { s with closes := s.closes.set k (.after slot) }
  | closed_channel (k : ℕ) (slot : Slot) (channel : ℕ) (result : Except String Unit)
    (hclosing : s.closes[k]? = some (.closing slot channel)) :
    Effect s (.awaited k result) { s with closes := s.closes.set k (.after slot) }
  | closed_peer (k : ℕ) (result : Except String Unit)
    (hpeer : s.closes[k]? = some .peer_connection) :
    Effect s (.awaited k result) { s with
      peer_closes := s.peer_closes ++ [result]
      closes := s.closes.set k (.Returned (result.mapError .WebRtc)) }
  | dropped (k : ℕ) (c : Call) (hc : s.closes[k]? = some c) (hopen : ¬ c.is_returned = true) :
    Effect s (.drop_close k) { s with closes := s.closes.set k .Dropped }

section Steps

variable {s s' : Closes} {a : Action}

theorem step_effect (h : step s a = some s') : Effect s a s' := by
  cases a with
  | set_channel slot channel => exact Option.some.inj h ▸ .attached slot channel
  | close => exact Option.some.inj h ▸ .close
  | mark k =>
    obtain ⟨hcalled, h⟩ := Option.ite_none_right_eq_some.1 h
    split at h <;> rename_i hclosed
    · exact Option.some.inj h ▸ .marked k hcalled hclosed
    · exact Option.some.inj h ▸ .marks k hcalled hclosed
  | lock k =>
    change s.lock k = some s' at h
    unfold Closes.lock at h
    split at h
    · rename_i slot hlock
      split at h <;> rename_i hchannel
      · exact Option.some.inj h ▸ .found k slot _ hlock hchannel
      · exact Option.some.inj h ▸ .missing k slot hlock hchannel
    · cases h
  | awaited k result =>
    change s.awaited k result = some s' at h
    unfold Closes.awaited at h
    split at h
    · rename_i slot channel hclosing
      exact Option.some.inj h ▸ .closed_channel k slot channel result hclosing
    · rename_i hpeer
      exact Option.some.inj h ▸ .closed_peer k result hpeer
    · cases h
  | drop_close k =>
    obtain ⟨c, hc, h⟩ := Option.bind_eq_some_iff.1 h
    split at h
    · cases h
    · rename_i hopen
      exact Option.some.inj h ▸ .dropped k c hc hopen

end Steps

/-! ## The call that closes -/

namespace Call

/-- The call has called `close` on what it found in the slot. -/
def is_past (slot : Slot) : Call → Bool
  | closing .Reliable _ | lock .Unreliable => slot = .Reliable
  | closing .Unreliable _ | peer_connection | Returned _ => true
  | _ => false

/-- The call has not locked the slot yet. -/
def is_before (slot : Slot) : Call → Bool
  | lock .Reliable => true
  | closing .Reliable _ | lock .Unreliable => slot = .Unreliable
  | _ => false

def result : Call → Option (Except NethernetError Unit)
  | Returned result => some result
  | _ => none

variable {slot slot' : Slot} {channel : ℕ}

theorem is_before_lock : (lock slot).is_before slot := by cases slot <;> rfl

theorem is_past_closing (h : (closing slot channel).is_past slot') :
    (lock slot).is_past slot' ∨ slot' = slot := by
  cases slot <;> cases slot' <;> first | exact .inr rfl | exact .inl rfl | cases h

theorem is_before_closing (h : (closing slot channel).is_before slot') :
    (lock slot).is_before slot' := by
  cases slot <;> cases slot' <;> first | rfl | cases h

theorem is_past_after (channel : ℕ) :
    (after slot).is_past slot' = (closing slot channel).is_past slot' := by
  cases slot <;> rfl

theorem is_before_after (channel : ℕ) :
    (after slot).is_before slot' = (closing slot channel).is_before slot' := by
  cases slot <;> rfl

theorem result_after : (after slot).result = none := by cases slot <;> rfl

theorem after_ne_called : after slot ≠ Called := by cases slot <;> exact fun h => by cases h

end Call

/-- How far the call `c` that set the flag has closed the channels that were attached then. -/
structure Progress (s : Closes) (c : Call) : Prop where
  past : ∀ slot, c.is_past slot → ∀ channel, s.attached.get slot = some channel →
    channel ∈ s.attempted ∨ channel ∈ s.replaced
  before : ∀ slot, c.is_before slot → ∀ channel, s.attached.get slot = some channel →
    s.channels.get slot = some channel ∨ channel ∈ s.replaced
  results : s.peer_closes.map (Except.mapError .WebRtc) = c.result.toList

/-- No call has set the flag, or one has and the others have done nothing. -/
inductive Stage (s : Closes) : Prop
  | opened (hopen : s.closed = false) (hcloser : s.closer = none) (hresults : s.peer_closes = [])
    (hidle : ∀ (k : ℕ) (c : Call), s.closes[k]? = some c → c = .Called ∨ c = .Dropped)
  | closing (k : ℕ) (c : Call) (hclosed : s.closed = true) (hcloser : s.closer = some k)
    (hc : s.closes[k]? = some c) (hcalled : c ≠ .Called) (hprogress : s.Progress c)
    (hidle : ∀ (j : ℕ) (d : Call), s.closes[j]? = some d → j ≠ k → d.is_idle)

section Stage

variable {s s' : Closes} {a : Action}

theorem stage_new : new.Stage :=
  .opened rfl rfl rfl fun k c h => by cases h

theorem Progress.set_channel {c : Call} (hs : s.Progress c) (hclosed : s.closed = true)
    (slot : Slot) (channel : ℕ) : (s.set_channel slot channel).Progress c where
  past slot' hpast channel' hattached :=
    (hs.past slot' hpast channel' hattached).imp_right fun h => List.mem_append_left _ h
  before slot' hbefore channel' hattached := by
    rcases hs.before slot' hbefore channel' hattached with hget | hreplaced
    · by_cases hslot : slot' = slot
      · subst hslot
        by_cases hchannel : channel' = channel
        · subst hchannel
          exact .inl Channels.get_set_self
        · refine .inr (List.mem_append_right _ ?_)
          rw [if_pos hclosed, hget, Option.toList_some, List.mem_erase_of_ne hchannel]
          exact List.mem_singleton_self _
      · exact .inl ((Channels.get_set_of_ne hslot).trans hget)
    · exact .inr (List.mem_append_left _ hreplaced)
  results := hs.results

/-- The call goes on: what it passes has been attempted, and what is ahead of it is not new. -/
theorem Progress.goes {c c' : Call} (hs : s.Progress c) {attempted : List ℕ} {closes : List Call}
    (hkeep : ∀ channel ∈ s.attempted, channel ∈ attempted)
    (hpast : ∀ slot, c'.is_past slot → c.is_past slot ∨ c.is_before slot ∧
      ∀ channel, s.channels.get slot = some channel → channel ∈ attempted)
    (hbefore : ∀ slot, c'.is_before slot → c.is_before slot) (hresult : c'.result = c.result) :
    Progress { s with attempted := attempted, closes := closes } c' where
  past slot h channel hattached := by
    rcases hpast slot h with hpast | ⟨hbefore, hget⟩
    · exact (hs.past slot hpast channel hattached).imp_left (hkeep channel)
    · exact (hs.before slot hbefore channel hattached).imp_left (hget channel)
  before slot h := hs.before slot (hbefore slot h)
  results := by rw [hresult]; exact hs.results

/-- The call has locked a slot and closes the channel there, or has found none. -/
theorem Progress.passes {slot : Slot} {c' : Call} (hs : s.Progress (.lock slot))
    (hpast : ∀ slot', c'.is_past slot' = (Call.closing slot 0).is_past slot')
    (hbefore : ∀ slot', c'.is_before slot' = (Call.closing slot 0).is_before slot')
    (hresult : c'.result = none) {attempted : List ℕ} {closes : List Call}
    (hkeep : ∀ channel ∈ s.attempted, channel ∈ attempted)
    (hget : ∀ channel, s.channels.get slot = some channel → channel ∈ attempted) :
    Progress { s with attempted := attempted, closes := closes } c' := by
  refine hs.goes hkeep (fun slot' h => ?_)
    (fun slot' h => Call.is_before_closing ((hbefore slot').symm.trans h)) hresult
  -- of the two slots, only the one that is locked is newly passed
  refine (Call.is_past_closing ((hpast slot').symm.trans h)).imp_right fun heq => ?_
  subst heq
  exact ⟨Call.is_before_lock, hget⟩

/-- A call is made. -/
theorem Stage.close (hs : s.Stage) : Stage { s with closes := s.closes ++ [.Called] } := by
  cases hs with
  | opened hopen hcloser hresults hidle =>
    refine .opened hopen hcloser hresults fun j d hd => ?_
    rcases getElem?_concat_eq_some.1 hd with hd | ⟨-, rfl⟩
    · exact hidle j d hd
    · exact .inl rfl
  | closing k c hclosed hcloser hc hcalled hprogress hidle =>
    refine .closing k c hclosed hcloser (getElem?_concat_eq_some.2 (.inl hc)) hcalled
      ⟨hprogress.past, hprogress.before, hprogress.results⟩ fun j d hd hj => ?_
    rcases getElem?_concat_eq_some.1 hd with hd | ⟨-, rfl⟩
    · exact hidle j d hd hj
    · rfl

/-- Another call changes and still has done nothing. -/
theorem Stage.idle (hs : s.Stage) {k : ℕ} {c c' : Call} (hc : s.closes[k]? = some c)
    (hkeep : s.closer ≠ some k) (hidle : c'.is_idle) (hopen : s.closed = false → c' = .Dropped) :
    Stage { s with closes := s.closes.set k c' } := by
  cases hs with
  | opened hclosed hcloser hresults hcalls =>
    refine .opened hclosed hcloser hresults fun j d hd => ?_
    rcases (getElem?_set_eq_some hc).1 hd with ⟨-, rfl⟩ | ⟨-, hd⟩
    · exact .inr (hopen hclosed)
    · exact hcalls j d hd
  | closing i b hclosed hcloser hb hcalled hprogress hcalls =>
    have hne : k ≠ i := fun h => hkeep (h ▸ hcloser)
    refine .closing i b hclosed hcloser ((getElem?_set_eq_some hc).2 (.inr ⟨hne, hb⟩)) hcalled
      ⟨hprogress.past, hprogress.before, hprogress.results⟩ fun j d hd hj => ?_
    rcases (getElem?_set_eq_some hc).1 hd with ⟨-, rfl⟩ | ⟨-, hd⟩
    · exact hidle
    · exact hcalls j d hd hj

/-- The call that set the flag goes on. -/
theorem Stage.goes {k : ℕ} {c c' : Call} (hclosed : s.closed = true) (hcloser : s.closer = some k)
    (hc : s.closes[k]? = some c) (hcalled : c' ≠ .Called)
    (hidle : ∀ (j : ℕ) (d : Call), s.closes[j]? = some d → j ≠ k → d.is_idle) {attempted : List ℕ}
    {peer_closes : List (Except String Unit)}
    (hprogress : Progress { s with
      attempted := attempted, peer_closes := peer_closes, closes := s.closes.set k c' } c') :
    Stage { s with
      attempted := attempted, peer_closes := peer_closes, closes := s.closes.set k c' } := by
  refine .closing k c' hclosed hcloser ((getElem?_set_eq_some hc).2 (.inl ⟨rfl, rfl⟩)) hcalled
    hprogress fun j d hd hj => ?_
  rcases (getElem?_set_eq_some hc).1 hd with ⟨hkj, -⟩ | ⟨-, hd⟩
  · exact absurd hkj.symm hj
  · exact hidle j d hd hj

/-- A call that is under way is the one that set the flag. -/
theorem Stage.of_busy (hs : s.Stage) {k : ℕ} {c : Call} (hc : s.closes[k]? = some c)
    (hbusy : c.is_idle = false) :
    s.closed = true ∧ s.closer = some k ∧ s.Progress c ∧
      ∀ (j : ℕ) (d : Call), s.closes[j]? = some d → j ≠ k → d.is_idle := by
  cases hs with
  | opened _ _ _ hidle =>
    rcases hidle k c hc with rfl | rfl <;> cases hbusy
  | closing i b hclosed hcloser hb _ hprogress hidle =>
    by_cases hki : k = i
    · subst hki
      obtain rfl := Option.some.inj (hc.symm.trans hb)
      exact ⟨hclosed, hcloser, hprogress, hidle⟩
    · rw [hidle k c hc hki] at hbusy
      cases hbusy

/-- The call that set the flag. -/
theorem Stage.of_closer (hs : s.Stage) {k : ℕ} {c : Call} (hcloser : s.closer = some k)
    (hc : s.closes[k]? = some c) :
    s.closed = true ∧ s.Progress c ∧
      ∀ (j : ℕ) (d : Call), s.closes[j]? = some d → j ≠ k → d.is_idle := by
  cases hs with
  | opened _ hnone => rw [hnone] at hcloser; cases hcloser
  | closing i b hclosed hi hb _ hprogress hidle =>
    obtain rfl := Option.some.inj (hi.symm.trans hcloser)
    obtain rfl := Option.some.inj (hb.symm.trans hc)
    exact ⟨hclosed, hprogress, hidle⟩

/-- A call that has not taken the flag has not set it. -/
theorem Stage.not_closer (hs : s.Stage) {k : ℕ} (hcalled : s.closes[k]? = some .Called) :
    s.closer ≠ some k := by
  intro hcloser
  cases hs with
  | opened _ hnone => rw [hnone] at hcloser; cases hcloser
  | closing i b _ hi hb hne =>
    obtain rfl := Option.some.inj (hi.symm.trans hcloser)
    exact hne (Option.some.inj (hb.symm.trans hcalled))

/-- A call sets the flag. -/
theorem Stage.marks (hs : s.Stage) {k : ℕ} (hcalled : s.closes[k]? = some .Called)
    (hopen : ¬ s.closed = true) :
    Stage { s with
      closed := true, closer := some k, attached := s.channels
      closes := s.closes.set k (.lock .Reliable) } := by
  cases hs with
  | closing _ _ hclosed => exact absurd hclosed hopen
  | opened _ _ hresults hidle =>
    refine .closing k (.lock .Reliable) rfl rfl
      ((getElem?_set_eq_some hcalled).2 (.inl ⟨rfl, rfl⟩)) (by simp)
      ⟨fun slot h => ?_, fun slot _ channel hget => .inl hget, ?_⟩ fun j d hd hj => ?_
    · cases h
    · rw [hresults]
      rfl
    · rcases (getElem?_set_eq_some hcalled).1 hd with ⟨hkj, -⟩ | ⟨-, hd⟩
      · exact absurd hkj.symm hj
      · rcases hidle j d hd with rfl | rfl <;> rfl

/-- The peer connection is closed, and the call returns. -/
theorem Progress.returned (hs : s.Progress .peer_connection) (result : Except String Unit)
    {closes : List Call} :
    Progress { s with peer_closes := s.peer_closes ++ [result], closes := closes }
      (.Returned (result.mapError .WebRtc)) where
  past slot _ := hs.past slot rfl
  before slot h := by cases h
  results := by
    have hresults : s.peer_closes.map (Except.mapError NethernetError.WebRtc) = [] := hs.results
    rw [List.map_append, hresults]
    rfl

theorem Stage.step (hs : s.Stage) (h : step s a = some s') : s'.Stage := by
  cases step_effect h with
  | attached slot channel =>
    cases hs with
    | opened hopen hcloser hresults hidle => exact .opened hopen hcloser hresults hidle
    | closing k c hclosed hcloser hc hcalled hprogress hidle =>
      exact .closing k c hclosed hcloser hc hcalled (hprogress.set_channel hclosed slot channel)
        hidle
  | close => exact hs.close
  | marked k hcalled hclosed =>
    refine hs.idle hcalled (hs.not_closer hcalled) rfl fun hopen => ?_
    rw [hclosed] at hopen
    cases hopen
  | marks k hcalled hopen => exact hs.marks hcalled hopen
  | found k slot channel hlock hchannel =>
    obtain ⟨hclosed, hcloser, hprogress, hidle⟩ := hs.of_busy hlock rfl
    refine Stage.goes hclosed hcloser hlock (by simp) hidle (hprogress.passes
      (fun _ => by cases slot <;> rfl) (fun _ => by cases slot <;> rfl) rfl
      (fun _ h => List.mem_append_left _ h) fun channel' hget => ?_)
    obtain rfl := Option.some.inj (hget.symm.trans hchannel)
    exact List.mem_append_right _ (List.mem_singleton_self _)
  | missing k slot hlock hchannel =>
    obtain ⟨hclosed, hcloser, hprogress, hidle⟩ := hs.of_busy hlock rfl
    refine Stage.goes hclosed hcloser hlock Call.after_ne_called hidle (hprogress.passes
      (fun _ => Call.is_past_after 0) (fun _ => Call.is_before_after 0) Call.result_after
      (fun _ h => h) fun channel' hget => ?_)
    rw [hchannel] at hget
    cases hget
  | closed_channel k slot channel result hclosing =>
    obtain ⟨hclosed, hcloser, hprogress, hidle⟩ := hs.of_busy hclosing rfl
    exact Stage.goes hclosed hcloser hclosing Call.after_ne_called hidle (hprogress.goes
      (fun _ h => h) (fun _ h => .inl ((Call.is_past_after channel).symm.trans h))
      (fun _ h => (Call.is_before_after channel).symm.trans h) Call.result_after)
  | closed_peer k result hpeer =>
    obtain ⟨hclosed, hcloser, hprogress, hidle⟩ := hs.of_busy hpeer rfl
    exact Stage.goes hclosed hcloser hpeer (by simp) hidle (hprogress.returned result)
  | dropped k c hc hopen =>
    by_cases hcloser : s.closer = some k
    · obtain ⟨hclosed, hprogress, hidle⟩ := hs.of_closer hcloser hc
      refine Stage.goes hclosed hcloser hc (by simp) hidle ⟨fun slot h => ?_, fun slot h => ?_, ?_⟩
      · cases h
      · cases h
      · rw [hprogress.results]
        cases c <;> first | rfl | exact absurd rfl hopen
    · exact hs.idle hc hcloser rfl fun _ => rfl

theorem stage_of_run {as : List Action} (h : Transition.run Closes.step new as = some s) :
    s.Stage :=
  Transition.run_invariant (fun _ _ _ hs hstep => hs.step hstep) stage_new h

end Stage

/-! ## What a call reports -/

/-- What the results of `close` say. -/
structure Reports (s : Closes) : Prop where
  /-- Every call but the one that set the flag is a no-op. -/
  once : ∀ (k : ℕ) (c : Call), s.closes[k]? = some c → c.is_idle ∨ s.closer = some k
  /-- A call that succeeds has found the flag set, or it has closed everything. -/
  ok : ∀ k, s.closes[k]? = some (.Returned (.ok ())) → ∃ j, s.closer = some j ∧ (j = k →
    (∀ slot channel, s.attached.get slot = some channel →
      channel ∈ s.attempted ∨ channel ∈ s.replaced) ∧ .ok () ∈ s.peer_closes)
  /-- An error is that of the peer connection. -/
  error : ∀ k e, s.closes[k]? = some (.Returned (.error e)) →
    s.closer = some k ∧ ∃ e', e = .WebRtc e' ∧ .error e' ∈ s.peer_closes
  /-- The peer connection has been closed exactly when the call that set the flag says so. -/
  success : .ok () ∈ s.peer_closes ↔
    ∃ k, s.closer = some k ∧ s.closes[k]? = some (.Returned (.ok ()))

section Reports

variable {s s' : Closes} {a : Action}

theorem Progress.ok_mem_iff {c : Call} (hs : s.Progress c) :
    .ok () ∈ s.peer_closes ↔ c = .Returned (.ok ()) := by
  constructor
  · intro hmem
    have hmem : .ok () ∈ c.result.toList := hs.results ▸ List.mem_map.2 ⟨_, hmem, rfl⟩
    cases c with
    | Returned result => rw [List.mem_singleton.1 hmem]
    | _ => cases hmem
  · rintro rfl
    have hmem : .ok () ∈ s.peer_closes.map (Except.mapError NethernetError.WebRtc) :=
      hs.results ▸ List.mem_singleton_self _
    obtain ⟨result, hresult, heq⟩ := List.mem_map.1 hmem
    rcases result with e | ⟨⟨⟩⟩
    · cases heq
    · exact hresult

theorem Progress.error_mem {e : NethernetError} (hs : s.Progress (.Returned (.error e))) :
    ∃ e', e = .WebRtc e' ∧ .error e' ∈ s.peer_closes := by
  have hmem : .error e ∈ s.peer_closes.map (Except.mapError NethernetError.WebRtc) :=
    hs.results ▸ List.mem_singleton_self _
  obtain ⟨result, hresult, heq⟩ := List.mem_map.1 hmem
  rcases result with e' | ⟨⟨⟩⟩
  · cases heq
    exact ⟨e', rfl, hresult⟩
  · cases heq

theorem Stage.reports (hs : s.Stage) : s.Reports := by
  cases hs with
  | opened _ hcloser hresults hidle =>
    refine ⟨fun k c hc => ?_, fun k hc => ?_, fun k e hc => ?_, ?_⟩
    · rcases hidle k c hc with rfl | rfl <;> exact .inl rfl
    · rcases hidle k _ hc with h | h <;> cases h
    · rcases hidle k _ hc with h | h <;> cases h
    · simp [hresults, hcloser]
  | closing i b _ hcloser hb _ hprogress hidle =>
    have honce : ∀ (k : ℕ) (c : Call), s.closes[k]? = some c → c.is_idle ∨ i = k := by
      intro k c hc
      by_cases hki : k = i
      · exact .inr hki.symm
      · exact .inl (hidle k c hc hki)
    refine ⟨fun k c hc => (honce k c hc).imp_right fun (h : i = k) => h ▸ hcloser,
      fun k hc => ⟨i, hcloser, fun hik => ?_⟩, fun k e hc => ?_, ?_⟩
    · subst hik
      obtain rfl := Option.some.inj (hb.symm.trans hc)
      exact ⟨fun slot => hprogress.past slot rfl, hprogress.ok_mem_iff.2 rfl⟩
    · rcases honce k _ hc with hidle | rfl
      · cases hidle
      · obtain rfl := Option.some.inj (hb.symm.trans hc)
        exact ⟨hcloser, hprogress.error_mem⟩
    · rw [hprogress.ok_mem_iff]
      constructor
      · rintro rfl
        exact ⟨i, hcloser, hb⟩
      · rintro ⟨k, hk, hc⟩
        obtain rfl := Option.some.inj (hcloser.symm.trans hk)
        exact Option.some.inj (hb.symm.trans hc)

/-- **What the results of `close` say**, in every run. -/
theorem closes_report {as : List Action} (h : Transition.run Closes.step new as = some s) :
    s.Reports :=
  (stage_of_run h).reports

/-- A channel that is replaced before its slot is locked is not closed. -/
example : ∃ s, Transition.run Closes.step new [.set_channel .Reliable 4, .close, .mark 0,
    .set_channel .Reliable 5, .lock 0, .awaited 0 (.ok ()), .lock 0, .awaited 0 (.ok ())] = some s ∧
      s.attached.get .Reliable = some 4 ∧ s.attempted = [5] ∧
        s.closes = [.Returned (.ok ())] :=
  ⟨_, rfl, rfl, rfl, rfl⟩

/-- A call that has returned takes no step. -/
theorem returned_step {k : ℕ} {result : Except NethernetError Unit}
    (hk : s.closes[k]? = some (.Returned result)) (h : Closes.step s a = some s') :
    s'.closes[k]? = some (.Returned result) := by
  have hset : ∀ {j : ℕ} {c : Call} (c' : Call), s.closes[j]? = some c → c.is_returned = false →
      (s.closes.set j c')[k]? = some (.Returned result) := by
    intro j c c' hc hopen
    refine (getElem?_set_eq_some hc).2 (.inr ⟨?_, hk⟩)
    rintro rfl
    obtain rfl := Option.some.inj (hc.symm.trans hk)
    cases hopen
  cases step_effect h with
  | attached => exact hk
  | close => exact getElem?_concat_eq_some.2 (.inl hk)
  | marked j hcalled => exact hset _ hcalled rfl
  | marks j hcalled => exact hset _ hcalled rfl
  | found j slot channel hlock => exact hset _ hlock rfl
  | missing j slot hlock => exact hset _ hlock rfl
  | closed_channel j slot channel result hclosing => exact hset _ hclosing rfl
  | closed_peer j result hpeer => exact hset _ hpeer rfl
  | dropped j c hc hopen => exact hset _ hc (Bool.not_eq_true _ ▸ hopen)

end Reports

/-! ## The calls as `Recvs` has them -/

/-- A call, as `Recvs` has it. -/
def Call.view : Call → Close
  | Called => .Called
  | lock .Reliable | closing .Reliable _ => .reliable_channel
  | lock .Unreliable | closing .Unreliable _ => .unreliable_channel
  | peer_connection => .peer_connection
  | Returned result => .Returned result
  | Dropped => .Dropped

/-- A session without calls of `recv` and packets. -/
def view (capacity : ℕ) (s : Closes) : Recvs where
  capacity := capacity
  closed := s.closed
  packets := Line.empty
  recvs := []
  closes := s.closes.map Call.view

/-- What a step is to `Recvs`: there a slot without a channel is done when it is locked. -/
def moves (s : Closes) : Action → List Recvs.Action
  | .set_channel _ _ => []
  | .close => [.close]
  | .mark k => [.mark k]
  | .lock k =>
    match s.closes[k]? with
    | some (.lock slot) => if s.channels.get slot = none then [.awaited k (.ok ())] else []
    | _ => []
  | .awaited k result => [.awaited k result]
  | .drop_close k => [.drop_close k]

section View

variable {capacity : ℕ} {s s' : Closes} {a : Action}

theorem Call.next_after (slot : Slot) (result : Except String Unit) :
    (Call.lock slot).view.next result = some (Call.after slot).view := by
  cases slot <;> rfl

theorem Call.is_returned_view (c : Call) : c.view.is_returned = c.is_returned := by
  cases c with
  | lock slot => cases slot <;> rfl
  | closing slot channel => cases slot <;> rfl
  | _ => rfl

theorem view_getElem? {k : ℕ} {c : Call} (hc : s.closes[k]? = some c) :
    (s.view capacity).closes[k]? = some c.view := by
  rw [view, List.getElem?_map, hc]
  rfl

/-- A wait of `Recvs` ends. -/
theorem view_awaited {k : ℕ} {c c' : Call} (hc : s.closes[k]? = some c)
    {result : Except String Unit} (hnext : c.view.next result = some c'.view) :
    Recvs.step (s.view capacity) (.awaited k result) =
      some { s.view capacity with closes := (s.closes.set k c').map Call.view } := by
  rw [Recvs.step, Recvs.awaited, view_getElem? hc, Option.bind_some, hnext, List.map_set]
  rfl

theorem view_step (h : Closes.step s a = some s') :
    Transition.run Recvs.step (s.view capacity) (s.moves a) = some (s'.view capacity) := by
  cases step_effect h with
  | attached slot channel => rfl
  | close =>
    refine Transition.run_cons_eq_some.2 ⟨_, rfl, ?_⟩
    simp [view, Call.view]
  | marked k hcalled hclosed =>
    refine Transition.run_cons_eq_some.2 ⟨_, ?_, rfl⟩
    have hview : (s.view capacity).closes[k]? = some .Called := view_getElem? hcalled
    have hflag : (s.view capacity).closed = true := hclosed
    rw [Recvs.step, Recvs.mark, if_pos hview, if_pos hflag]
    simp [view, List.map_set, Call.view]
  | marks k hcalled hopen =>
    refine Transition.run_cons_eq_some.2 ⟨_, ?_, rfl⟩
    have hview : (s.view capacity).closes[k]? = some .Called := view_getElem? hcalled
    have hflag : ¬ (s.view capacity).closed = true := hopen
    rw [Recvs.step, Recvs.mark, if_pos hview, if_neg hflag]
    simp [view, List.map_set, Call.view]
  | found k slot channel hlock hchannel =>
    have hmoves : s.moves (.lock k) = [] := by simp [moves, hlock, hchannel]
    have hsame : (Call.closing slot channel).view = (Call.lock slot).view := by cases slot <;> rfl
    rw [hmoves, Transition.run_nil]
    refine congrArg (fun closes => some { s.view capacity with closes := closes }) ?_
    rw [List.map_set, hsame]
    have hview : (s.view capacity).closes[k]? = some (Call.lock slot).view := view_getElem? hlock
    exact (set_getElem?_self hview).symm
  | missing k slot hlock hchannel =>
    have hmoves : s.moves (.lock k) = [.awaited k (.ok ())] := by simp [moves, hlock, hchannel]
    rw [hmoves]
    exact Transition.run_cons_eq_some.2 ⟨_, view_awaited hlock (Call.next_after slot _), rfl⟩
  | closed_channel k slot channel result hclosing =>
    have hnext : (Call.closing slot channel).view.next result = some (Call.after slot).view := by
      rw [← Call.next_after slot result]
      cases slot <;> rfl
    exact Transition.run_cons_eq_some.2 ⟨_, view_awaited hclosing hnext, rfl⟩
  | closed_peer k result hpeer =>
    have hnext : Call.peer_connection.view.next result =
        some (Call.Returned (result.mapError .WebRtc)).view := rfl
    exact Transition.run_cons_eq_some.2 ⟨_, view_awaited hpeer hnext, rfl⟩
  | dropped k c hc hopen =>
    refine Transition.run_cons_eq_some.2 ⟨_, ?_, rfl⟩
    rw [Recvs.step, Recvs.drop_close, view_getElem? hc, Option.bind_some, Call.is_returned_view,
      if_neg hopen]
    simp [view, List.map_set, Call.view]

/-- **These are the calls of `close` on a session with calls of `recv`.** -/
theorem closes_simulates {as : List Action} (h : Transition.run Closes.step new as = some s) :
    Transition.run Recvs.step (Recvs.with_capacity capacity)
      (Transition.trace Closes.step moves new as) = some (s.view capacity) :=
  Transition.run_simulates (view capacity) (fun _ _ _ => view_step) h

end View

end Closes

end Nethernet
