import Nethernet.Signaling.Contact
import Nethernet.Transport.Agreement

/-!
# Calls can be served

Calls of `connect` to a listener, after any run of a deployment. `exists_all_connected`: as long as
the listener waits for its next signal and its node has server data, calls that have not begun can
be served, one after another: each finds the node, its offer is handled, and it returns with the
answer of a connection that the listener has accepted for it. Nothing that has happened before, to
other calls, in the two maps or on the network, keeps a call from this, if the WebRTC calls succeed
and the datagrams arrive.
-/

namespace Nethernet

open Foundations

/-! ## An offer is handled -/

namespace Listener

variable {from_str : String → Option RTCIceCandidateInit} {s : Listener} {text : String}

section Last

variable {connections : List Connection} {c : Connection}

theorem step_created {offer : Signal} (hloop : s.loop = .new_peer_connection offer) :
    step from_str s (.call (.ok text)) = some { s with
      loop := .insert_notifier s.connections.length
      connections := s.connections ++ [Connection.new offer] } := by
  rw [step, on_call, hloop]

theorem getElem?_last (hconn : s.connections = connections ++ [c]) :
    s.connections[connections.length]? = some c := by
  rw [hconn]
  exact List.getElem?_concat_length

/-- The last connection is replaced. -/
theorem put_last (hconn : s.connections = connections ++ [c]) (c' : Connection) :
    s.put connections.length c' = { s with connections := connections ++ [c'] } := by
  rw [put, hconn]
  simp

theorem step_calling {call : Call} (hloop : s.loop = .calling connections.length call)
    (hconn : s.connections = connections ++ [c]) :
    step from_str s (.call (.ok text)) = some { s with
      loop := call.next connections.length
      connections := connections ++ [call.perform text c]
      signalled := s.signalled ++ call.signals c } := by
  rw [step, on_call, hloop]
  simp only [getElem?_last hconn, put_last hconn]

theorem step_notifier (hloop : s.loop = .insert_notifier connections.length)
    (hconn : s.connections = connections ++ [c]) :
    step from_str s .proceed = some { s with
      loop := .insert_dispatcher connections.length
      candidate_notifiers :=
        Function.update s.candidate_notifiers c.connection_id (some connections.length) } := by
  rw [step, proceed, hloop]
  simp only [getElem?_last hconn, Option.map_some]

theorem step_dispatcher (hloop : s.loop = .insert_dispatcher connections.length)
    (hconn : s.connections = connections ++ [c]) :
    step from_str s .proceed = some { s with
      loop := .calling connections.length .parse_offer
      connections := connections ++ [{ c with task := .Recv }]
      signal_dispatchers :=
        Function.update s.signal_dispatchers c.connection_id (some connections.length) } := by
  rw [step, proceed, hloop]
  simp only [getElem?_last hconn, Option.map_some, put_last hconn]

theorem step_handlers (hloop : s.loop = .set_handlers connections.length)
    (hconn : s.connections = connections ++ [c]) :
    step from_str s .proceed = some { s with
      loop := .Waiting
      connections := connections ++ [{ c with handler := true }]
      returned := s.returned ++ [.ok ()]
      accepted := s.accepted ++ [connections.length] } := by
  rw [step, proceed, hloop]
  simp only [getElem?_last hconn, Option.map_some, put_last hconn, returns]

end Last

/-- The calls and steps of `handle_offer` up to the call that signals the answer. -/
def negotiating (answer : String) : List Action :=
  [.call (.ok ""), .proceed, .proceed, .call (.ok ""), .call (.ok ""), .call (.ok answer),
    .call (.ok "")]

/-- A connection whose offer has been handled. -/
def Connection.answered (offer : Signal) (answer : String) : Connection :=
  { Connection.new offer with described := true, answer := answer, task := .Recv }

/-- The step is not a signal, and gives none to the signaling implementation. -/
def Silent (s : Listener) (a : Action) : Prop :=
  Deployment.listens a = false ∧ s.emits a = []

theorem emits_calling {i : ℕ} {call : Call} (hloop : s.loop = .calling i call) (text : String) :
    s.emits (.call (.ok text)) = (s.connections[i]?).elim [] (call.signals ·) := by
  simp only [emits, hloop]

theorem silent_calling {i : ℕ} (call : Call) (hloop : s.loop = .calling i call)
    (hcall : call ≠ .signal_answer) (text : String) : s.Silent (.call (.ok text)) := by
  refine ⟨rfl, ?_⟩
  rw [emits_calling hloop]
  cases s.connections[i]? with
  | none => rfl
  | some c => cases call <;> first | rfl | exact absurd rfl hcall

/-- An offer is handled up to its answer, when the calls succeed. -/
theorem negotiating_runs {offer : Signal} (hloop : s.loop = .new_peer_connection offer)
    (answer : String) :
    Transition.Runs (step from_str) Silent s (negotiating answer) { s with
      loop := .calling s.connections.length .signal_answer
      connections := s.connections ++ [.answered offer answer]
      signal_dispatchers := Function.update s.signal_dispatchers offer.connection_id
        (some s.connections.length)
      candidate_notifiers := Function.update s.candidate_notifiers offer.connection_id
        (some s.connections.length) } := by
  have hcreated : s.Silent (.call (.ok "")) := ⟨rfl, by rw [emits, hloop]⟩
  refine .cons hcreated (step_created hloop) ?_
  refine .cons ⟨rfl, rfl⟩ (step_notifier rfl rfl) ?_
  refine .cons ⟨rfl, rfl⟩ (step_dispatcher rfl rfl) ?_
  refine .cons (silent_calling .parse_offer rfl (by simp) _) (step_calling rfl rfl) ?_
  refine .cons (silent_calling .set_remote_description rfl (by simp) _) (step_calling rfl rfl) ?_
  refine .cons (silent_calling .create_answer rfl (by simp) _) (step_calling rfl rfl) ?_
  refine .cons (silent_calling .set_local_description rfl (by simp) _) (step_calling rfl rfl) ?_
  simp only [Call.next, Call.perform, Call.signals, List.append_nil]
  exact .nil _

/-- `l'` is `l` with one more connection, accepted for an offer with an answer. -/
structure Accepts (l l' : Listener) (offer : Signal) (answer : String) : Prop where
  waiting : l'.loop = .Waiting
  accepted : l'.accepted = l.accepted ++ [l.connections.length]
  connections : ∃ c : Connection, l'.connections = l.connections ++ [c] ∧ c.offer = offer ∧
    c.answer = answer

/-- **An offer is handled** when the calls succeed: the answer is signalled, and the connection is
accepted. -/
theorem exists_accepted (from_str : String → Option RTCIceCandidateInit) {offer : Signal}
    (hloop : s.loop = .new_peer_connection offer) (answer : String) : ∃ s₁ s₂ s₃ : Listener,
      Transition.Runs (step from_str) Silent s (negotiating answer) s₁ ∧
      s₁.emits (.call (.ok "")) = [Signal.answer offer.connection_id answer offer.network_id] ∧
      s₁.step from_str (.call (.ok "")) = some s₂ ∧
      Transition.Runs (step from_str) Silent s₂ [.proceed] s₃ ∧ s.Accepts s₃ offer answer := by
  obtain ⟨s₁, hs₁⟩ : ∃ s₁ : Listener, s₁ = { s with
      loop := .calling s.connections.length .signal_answer
      connections := s.connections ++ [.answered offer answer]
      signal_dispatchers := Function.update s.signal_dispatchers offer.connection_id
        (some s.connections.length)
      candidate_notifiers := Function.update s.candidate_notifiers offer.connection_id
        (some s.connections.length) } := ⟨_, rfl⟩
  have hcalling : s₁.loop = .calling s.connections.length .signal_answer := by rw [hs₁]
  have hconn : s₁.connections = s.connections ++ [.answered offer answer] := by rw [hs₁]
  obtain ⟨s₂, hs₂⟩ : ∃ s₂ : Listener, s₂ = { s₁ with
      loop := .set_handlers s.connections.length
      connections := s.connections ++ [.answered offer answer]
      signalled := s₁.signalled ++
        [Signal.answer offer.connection_id answer offer.network_id] } := ⟨_, rfl⟩
  have hsetting : s₂.loop = .set_handlers s.connections.length := by rw [hs₂]
  have hconn' : s₂.connections = s.connections ++ [.answered offer answer] := by rw [hs₂]
  refine ⟨s₁, s₂, _, hs₁ ▸ negotiating_runs hloop answer, ?_, hs₂ ▸ step_calling hcalling hconn,
    .cons ⟨rfl, rfl⟩ (step_handlers hsetting hconn') (.nil _),
    rfl, ?_,
    { Connection.answered offer answer with handler := true }, rfl, rfl, rfl⟩
  · rw [emits_calling hcalling, getElem?_last hconn]
    rfl
  · rw [hs₂, hs₁]

end Listener

/-! ## `connect` goes on with its answer -/

namespace Connect

/-- The calls and steps of `connect` after its answer, if no candidate was kept back. -/
def finishing : List Action :=
  [.call (.ok ()), .call (.ok ()), .apply, .call (.ok ()), .call (.ok ()), .call (.ok ()),
    .call (.ok ())]

theorem run_finishing (from_str : String → Option RTCIceCandidateInit) {s : Connect}
    (hphase : s.phase = .calling .parse_answer) (hpending : s.pending_candidates = []) :
    Transition.run (step from_str) s finishing = some { s with
      phase := .Returned (.ok ()), described := true, task := .Recv, cancelled := true } := by
  obtain ⟨_, _, _, _, _, _, _, _, _, _⟩ := s
  dsimp only at hphase hpending
  subst hphase hpending
  simp [finishing, Transition.run, step, on_call, apply, Call.next]

end Connect

/-! ## Parts of a deployment -/

namespace Deployment

variable {ι κ Addr : Type} {site : Site ι κ Addr} {sys : Deployment ι κ Addr}
  {broadcast_addr : Addr}

/-- The datagrams are delivered where they were sent. -/
def Direct (site : Site ι κ Addr) (broadcast_addr : Addr) (sys : Deployment ι κ Addr) :
    Action ι κ Addr → Prop
  | .lan a => sys.lan.Direct site.addr broadcast_addr a
  | _ => True

/-- The listener on `j` has come to `l`, and its stream to the `n`-th signal. -/
def listening [DecidableEq ι] (sys : Deployment ι κ Addr) (j : ι) (l : Listener) (n : ℕ) :
    Deployment ι κ Addr :=
  { sys with
    listener := Function.update sys.listener j l
    heard := Function.update sys.heard j (some n) }

section Parts

variable [DecidableEq κ] {d : κ} {dialing dialing' : Dialing}

@[simp] theorem put_dialing : (sys.put d dialing).dialing d = dialing := Function.update_self ..

theorem put_dialing_of_ne {e : κ} (he : e ≠ d) : (sys.put d dialing).dialing e = sys.dialing e :=
  Function.update_of_ne he ..

@[simp] theorem put_put : (sys.put d dialing).put d dialing' = sys.put d dialing' := by
  simp only [put, Function.update_idem]

variable [DecidableEq ι]

theorem runs_lan {as : List (Lan.Action ι Addr)} {lan : Lan ι Addr}
    (has : ∀ a ∈ as, is_signal a = false)
    (h : Transition.Runs (Lan.step site.crypto site.hex site.addr)
      (Lan.Direct site.addr broadcast_addr) sys.lan as lan) :
    Transition.Runs (step site) (Direct site broadcast_addr) sys (as.map .lan)
      { sys with lan } := by
  refine Transition.Runs.embed (f := step site) (fun lan => { sys with lan }) .lan ?_ h
  intro lan a ha lan' hdirect hstep
  refine ⟨hdirect, ?_⟩
  simp only [step, has a ha, hstep, Bool.false_eq_true, if_false, Option.map_some]

omit [DecidableEq κ] in
@[simp] theorem listening_listener {j : ι} {l : Listener} {n : ℕ} :
    (sys.listening j l n).listener j = l := Function.update_self ..

theorem runs_listener {j : ι} {n : ℕ} {as : List Listener.Action} {l l' : Listener}
    (h : Transition.Runs (Listener.step site.from_str) Listener.Silent l as l') :
    Transition.Runs (step site) (Direct site broadcast_addr) (sys.listening j l n)
      (as.map (.listener j · LanSignaling.send_ok)) (sys.listening j l' n) := by
  refine Transition.Runs.embed (f := step site) (sys.listening j · n)
    (.listener j · LanSignaling.send_ok) ?_ h
  intro l a ha l' hsilent hstep
  refine ⟨trivial, ?_⟩
  simp only [step, listener_step, hsilent.1, listening_listener, hstep, hsilent.2,
    Bool.false_eq_true, if_false, Option.bind_some]
  simp only [listening, Function.update_idem]

/-- A signal that the listener gives to its node is sent. -/
theorem step_emits {j : ι} {n : ℕ} {a : Listener.Action} {l l' : Listener} {s : Signal}
    {lan : Lan ι Addr} (hnot : listens a = false) (hstep : l.step site.from_str a = some l')
    (hemits : l.emits a = [s])
    (hsignal : sys.signal site j s LanSignaling.send_ok = (.ok (), lan)) :
    step site (sys.listening j l n) (.listener j a LanSignaling.send_ok) =
      some ({ sys with lan }.listening j l' n) := by
  have hsent : (sys.listening j l n).signal site j s LanSignaling.send_ok = (.ok (), lan) := hsignal
  simp only [step, listener_step, hnot, listening_listener, hstep, hemits, hsent,
    Bool.false_eq_true, if_false, Option.bind_some]
  simp only [listening, Function.update_idem]

theorem runs_connect {as : List Connect.Action} {connect : Connect}
    (hoffered : dialing.dialer.offered = true) (has : ∀ a ∈ as, takes_signal a = false)
    (h : Transition.run (Connect.step site.from_str) dialing.connect as = some connect) :
    Transition.Runs (step site) (Direct site broadcast_addr) (sys.put d dialing)
      (as.map (.connect d)) (sys.put d { dialing with connect }) := by
  refine Transition.Runs.embed (f := step site) (g := Connect.step site.from_str)
    (C := fun _ _ => True) (fun connect => sys.put d { dialing with connect }) (.connect d) ?_
    ⟨h, Transition.along_of_forall fun _ _ => trivial⟩
  intro connect a ha connect' _ hstep
  refine ⟨trivial, ?_⟩
  simp only [step, connect_step, has a ha, put_dialing, put_put, hoffered, hstep,
    Bool.false_eq_true, if_false, if_true, Option.map_some]

end Parts

/-! ## One call -/

section Calls

variable [DecidableEq ι] [DecidableEq κ] {d : κ} {j : ι}

/-- A call that has signalled its offer. -/
def offering (site : Site ι κ Addr) (d : κ) (sdp : String) (heard : ℕ) : Dialing :=
  let dialing := (start site).dialing d
  { dialing with
    dialer := { dialing.dialer with local_description := some sdp, offered := true }
    heard := some heard }

/-- The offer of a call, as the listener gets it. -/
def offer (site : Site ι κ Addr) (d : κ) (sdp : String) : Signal :=
  { Signal.offer (site.connection_id d) sdp (site.remote_network_id d) with
    network_id := u64_to_string (site.network_id (site.node d)) }

/-- The answer to a call, as the listener signals it. -/
def answering (site : Site ι κ Addr) (d : κ) (answer : String) : Signal :=
  Signal.answer (site.connection_id d) answer (u64_to_string (site.network_id (site.node d)))

/-- The node of a call sends from its own id, to another that it is for. -/
structure Apart (site : Site ι κ Addr) (sys : Deployment ι κ Addr) (d : κ) (j : ι) : Prop where
  own : (sys.lan (site.node d)).network_id = site.network_id (site.node d)
  other : (sys.lan j).network_id = site.network_id j
  ne : site.network_id (site.node d) ≠ site.network_id j

/-- **A call that has not begun signals its offer**, and the node of the listener publishes it. -/
theorem offer_runs (hapart : Apart site sys d j) (hfresh : sys.dialing d = (start site).dialing d)
    (hremote : site.remote_network_id d = u64_to_string (site.network_id j)) {sdp : String}
    (hlen : (as_bytes (Signal.offer (site.connection_id d) sdp
      (site.remote_network_id d)).to_string).length ≤ 4031) {last_seen : ℕ}
    (hentry : (sys.lan (site.node d)).addresses (site.network_id j) =
      some ⟨site.addr j, last_seen⟩) (broadcast_addr : Addr) (now : ℕ) :
    ∃ message lan', Transition.Runs (step site) (Direct site broadcast_addr) sys
        [.set_local_description d sdp, .subscribe d, .signal_offer d LanSignaling.send_ok,
          .lan (.deliver (site.node d) (sys.lan (site.node d)).sent.length j now
            LanSignaling.send_ok)]
        { sys.put d (offering site d sdp (sys.lan (site.node d)).published.length) with
          lan := lan' } ∧
      lan' (site.node d) = { sys.lan (site.node d) with
        sent := (sys.lan (site.node d)).sent ++ [(message, site.addr j)] } ∧
      lan' j = { sys.lan j with
        addresses := Function.update (sys.lan j).addresses (site.network_id (site.node d))
          (some ⟨site.addr (site.node d), now⟩)
        published := (sys.lan j).published ++ [offer site d sdp] } ∧
      ∀ k, k ≠ site.node d → k ≠ j → lan' k = sys.lan k := by
  have hne : (sys.lan (site.node d)).network_id ≠ (sys.lan j).network_id := by
    rw [hapart.own, hapart.other]
    exact hapart.ne
  obtain ⟨message, n, lan', hn, hsignal, hdirect, hstep, hi, hj, hother⟩ :=
    Lan.exists_delivery site.crypto_lawful site.hex_lawful site.addr broadcast_addr hne
      (s := Signal.offer (site.connection_id d) sdp (site.remote_network_id d))
      (by rw [hapart.other]; exact hremote) hlen (by rw [hapart.other]; exact hentry) now
  rw [hapart.own] at hj
  refine ⟨message, lan', ?_, hi.trans hn, hj, hother⟩
  -- the call sets its description and subscribes
  obtain ⟨D, hD⟩ : ∃ D, D = (start site).dialing d := ⟨_, rfl⟩
  have hdescribe : step site sys (.set_local_description d sdp) = some (sys.put d { D with
      dialer := { D.dialer with local_description := some sdp } }) := by
    have hnone : (sys.dialing d).dialer.local_description = none := by rw [hfresh]; rfl
    rw [hD, ← hfresh]
    exact if_pos hnone
  have hsubscribe : step site (sys.put d { D with
      dialer := { D.dialer with local_description := some sdp } }) (.subscribe d) =
      some (sys.put d { D with
        dialer := { D.dialer with local_description := some sdp }
        heard := some (sys.lan (site.node d)).published.length }) := by
    have hnone : D.heard = none := by rw [hD]; rfl
    simp only [step, put_dialing, put_put, hnone, Option.isSome_some, and_self, if_true]
    rfl
  refine .cons trivial hdescribe (.cons trivial hsubscribe ?_)
  -- it signals its offer, which is delivered
  have hoffer : step site (sys.put d { D with
        dialer := { D.dialer with local_description := some sdp }
        heard := some (sys.lan (site.node d)).published.length })
      (.signal_offer d LanSignaling.send_ok) = some { sys.put d (offering site d sdp
        (sys.lan (site.node d)).published.length) with
          lan := Function.update sys.lan (site.node d) n } := by
    subst hD
    have hsent : ∀ dialing : Dialing, (sys.put d dialing).signal site (site.node d)
        (Signal.offer (site.connection_id d) sdp (site.remote_network_id d)) LanSignaling.send_ok =
          (.ok (), Function.update sys.lan (site.node d) n) := by
      intro dialing
      simp only [signal, put, hsignal]
    simp only [step, offer_step, put_dialing]
    simp only [start, hsent, Connect.start]
    simp [offering, start, Connect.start]
  refine .cons trivial hoffer (.cons hdirect ?_ (.nil _))
  simp only [step, is_signal, hstep]
  simp

/-- **A listener that takes an offer accepts it**, and the node of the call publishes the answer. -/
theorem answer_runs (hapart : Apart site sys d j) (hwaiting : (sys.listener j).loop = .Waiting)
    {n : ℕ} (hheard : sys.heard j = some n) {sdp : String}
    (hoffer : (sys.lan j).published[n]? = some (offer site d sdp)) {answer : String}
    (hlen : (as_bytes (answering site d answer).to_string).length ≤ 4031) {last_seen : ℕ}
    (hentry : (sys.lan j).addresses (site.network_id (site.node d)) =
      some ⟨site.addr (site.node d), last_seen⟩) (broadcast_addr : Addr) (now : ℕ) :
    ∃ bs l' message lan', Transition.Runs (step site) (Direct site broadcast_addr) sys bs
        ({ sys with lan := lan' }.listening j l' (n + 1)) ∧
      (sys.listener j).Accepts l' (offer site d sdp) answer ∧
      lan' j = { sys.lan j with
        sent := (sys.lan j).sent ++ [(message, site.addr (site.node d))] } ∧
      lan' (site.node d) = { sys.lan (site.node d) with
        addresses := Function.update (sys.lan (site.node d)).addresses (site.network_id j)
          (some ⟨site.addr j, now⟩)
        published := (sys.lan (site.node d)).published ++ [{ answering site d answer with
          network_id := u64_to_string (site.network_id j) }] } ∧
      ∀ k, k ≠ j → k ≠ site.node d → lan' k = sys.lan k := by
  have hne : (sys.lan j).network_id ≠ (sys.lan (site.node d)).network_id := by
    rw [hapart.own, hapart.other]
    exact hapart.ne.symm
  obtain ⟨message, m, lan', hm, hsignal, hdirect, hdeliver, hj, hi, hother⟩ :=
    Lan.exists_delivery site.crypto_lawful site.hex_lawful site.addr broadcast_addr hne
      (s := answering site d answer) (by rw [hapart.own]; rfl) hlen
      (by rw [hapart.own]; exact hentry) now
  rw [hapart.other] at hi
  -- the listener takes the offer and handles it
  obtain ⟨l, hl⟩ : ∃ l : Listener, l = { sys.listener j with
      loop := .new_peer_connection (offer site d sdp) } := ⟨_, rfl⟩
  have hlisten : step site sys (.listen j n) = some (sys.listening j l (n + 1)) := by
    have hyields : sys.yields j (sys.heard j) n = some (offer site d sdp) := by
      rw [yields, hheard, Option.bind_some, if_pos (Nat.le_refl n), hoffer]
    have htake : (sys.listener j).step site.from_str (.signal (offer site d sdp)) = some l := by
      rw [hl]
      exact (if_pos hwaiting).trans (if_pos rfl)
    simp only [step, hyields, htake, Option.bind_some, Option.map_some]
    rfl
  obtain ⟨l₁, l₂, l₃, hhandle, hemits, hanswer, hdone, haccepts⟩ :=
    Listener.exists_accepted site.from_str (s := l) (by rw [hl]) answer
  -- the answer is sent and delivered
  have hsent : sys.signal site j (answering site d answer) LanSignaling.send_ok =
      (.ok (), Function.update sys.lan j m) := by
    simp only [signal, hsignal]
  have harrive : step site ({ sys with lan := Function.update sys.lan j m }.listening j l₃ (n + 1))
      (.lan (.deliver j (sys.lan j).sent.length (site.node d) now LanSignaling.send_ok)) =
        some ({ sys with lan := lan' }.listening j l₃ (n + 1)) := by
    simp only [step, is_signal, listening, hdeliver, Bool.false_eq_true, if_false, Option.map_some]
  refine ⟨.listen j n :: ((Listener.negotiating answer).map (.listener j · LanSignaling.send_ok) ++
    .listener j (.call (.ok "")) LanSignaling.send_ok ::
      ([.proceed].map (.listener j · LanSignaling.send_ok) ++
        [.lan (.deliver j (sys.lan j).sent.length (site.node d) now LanSignaling.send_ok)])),
    l₃, message, lan', ?_, ?_, hj.trans hm, hi, hother⟩
  · refine .cons (by trivial) hlisten (.append (runs_listener hhandle) ?_)
    refine .cons (by trivial) (step_emits rfl hanswer hemits hsent) ?_
    exact .append (runs_listener hdone) (.cons hdirect harrive (.nil _))
  · rw [hl] at haccepts
    exact ⟨haccepts.waiting, haccepts.accepted, haccepts.connections⟩

/-- **A call that takes its answer returns.** -/
theorem connect_runs {n : ℕ} {s : Signal} (hoffered : (sys.dialing d).dialer.offered = true)
    (hheard : (sys.dialing d).heard = some n)
    (hconnect : (sys.dialing d).connect = ((start site).dialing d).connect)
    (hpublished : (sys.lan (site.node d)).published[n]? = some s)
    (hid : s.connection_id = site.connection_id d) (htype : s.signal_type = .Answer)
    (broadcast_addr : Addr) :
    ∃ connect, Transition.Runs (step site) (Direct site broadcast_addr) sys
        (.take d n false :: Connect.finishing.map (.connect d))
        (sys.put d { sys.dialing d with heard := some (n + 1), connect }) ∧
      connect.phase = .Returned (.ok ()) ∧ connect.answer = some s.data := by
  obtain ⟨connect, hanswered⟩ : ∃ connect : Connect, connect = { (sys.dialing d).connect with
      phase := .calling .parse_answer
      answer := some s.data
      taken := (sys.dialing d).connect.taken ++ [s] } := ⟨_, rfl⟩
  have hnext : (sys.dialing d).connect.step site.from_str (.next (some s)) = some connect := by
    rw [hanswered, hconnect]
    simp [Connect.step, Connect.next, Connect.wait, start, Connect.start, hid, htype]
  have htake : step site sys (.take d n false) =
      some (sys.put d { sys.dialing d with heard := some (n + 1), connect }) := by
    have hyields : sys.yields (site.node d) (sys.dialing d).heard n = some s := by
      rw [yields, hheard, Option.bind_some, if_pos (Nat.le_refl n), hpublished]
    simp only [step, hyields, Option.bind_some, connect_step, hoffered, if_true]
    simp [hnext]
  have hrun := Connect.run_finishing site.from_str (s := connect) (by rw [hanswered])
    (by rw [hanswered, hconnect]; rfl)
  refine ⟨_, .cons (by trivial) htake (runs_connect hoffered (by decide) hrun), rfl, ?_⟩
  rw [hanswered]

/-- The listener on `j` waits for the next signal of its node, which answers requests. -/
structure Ready (sys : Deployment ι κ Addr) (j : ι) : Prop where
  server : ∃ data, (sys.lan j).server_data = some data
  waiting : (sys.listener j).loop = .Waiting
  heard : sys.heard j = some (sys.lan j).published.length

/-- The call has returned, with the answer of a connection that the listener on `j` has accepted for
its offer. -/
structure Connected (site : Site ι κ Addr) (sys : Deployment ι κ Addr) (d : κ) (j : ι)
    (sdp answer : String) : Prop where
  returned : (sys.dialing d).connect.phase = .Returned (.ok ())
  answered : (sys.dialing d).connect.answer = some answer
  accepted : ∃ k ∈ (sys.listener j).accepted, ∃ c : Listener.Connection,
    (sys.listener j).connections[k]? = some c ∧ c.offer = offer site d sdp ∧ c.answer = answer

/-- A call that has not begun, to the listener on `j`, whose texts fit a datagram. -/
structure Callable (site : Site ι κ Addr) (sys : Deployment ι κ Addr) (d : κ) (j : ι)
    (sdp answer : String) : Prop where
  fresh : sys.dialing d = (start site).dialing d
  remote : site.remote_network_id d = u64_to_string (site.network_id j)
  ne : site.network_id (site.node d) ≠ site.network_id j
  offer_fits : (as_bytes (Signal.offer (site.connection_id d) sdp
    (site.remote_network_id d)).to_string).length ≤ 4031
  answer_fits : (as_bytes (answering site d answer).to_string).length ≤ 4031

/-- What the calls `ds` leave as it is: the other calls, and what the listener has accepted. -/
structure Leaves (sys sys' : Deployment ι κ Addr) (ds : List κ) (j : ι) : Prop where
  dialing : ∀ e ∉ ds, sys'.dialing e = sys.dialing e
  accepted : (sys.listener j).accepted <+: (sys'.listener j).accepted
  connections : (sys.listener j).connections <+: (sys'.listener j).connections

omit [DecidableEq ι] [DecidableEq κ] in
theorem Leaves.trans {sys₁ sys₂ sys₃ : Deployment ι κ Addr} {ds es : List κ}
    (h : sys₁.Leaves sys₂ ds j) (h' : sys₂.Leaves sys₃ es j) : sys₁.Leaves sys₃ (ds ++ es) j where
  dialing e he := by
    rw [List.mem_append, not_or] at he
    rw [h'.dialing e he.2, h.dialing e he.1]
  accepted := h.accepted.trans h'.accepted
  connections := h.connections.trans h'.connections

omit [DecidableEq ι] [DecidableEq κ] in
/-- A call that is not among the ones made is still connected. -/
theorem Connected.of_leaves {ds : List κ} {sys' : Deployment ι κ Addr} {sdp answer : String}
    (h : Connected site sys d j sdp answer) (hleaves : sys.Leaves sys' ds j) (hd : d ∉ ds) :
    Connected site sys' d j sdp answer := by
  have hdialing := hleaves.dialing d hd
  obtain ⟨k, hk, c, hc, hoffer, hanswer⟩ := h.accepted
  obtain ⟨hlt, hc⟩ := List.getElem?_eq_some_iff.1 hc
  have hc' := List.getElem?_eq_some_iff.2
    ⟨hlt.trans_le hleaves.connections.length_le, (hleaves.connections.getElem hlt).symm.trans hc⟩
  exact ⟨hdialing ▸ h.returned, hdialing ▸ h.answered, k, hleaves.accepted.subset hk, c, hc',
    hoffer, hanswer⟩

theorem apart_of_run {as : List (Action ι κ Addr)}
    (hrun : Transition.run (step site) (start site) as = some sys)
    (hne : site.network_id (site.node d) ≠ site.network_id j) : Apart site sys d j :=
  ⟨(Lan.sound_of_run site.crypto_lawful site.hex_lawful (lan_run hrun) (site.node d)).network_id,
    (Lan.sound_of_run site.crypto_lawful site.hex_lawful (lan_run hrun) j).network_id, hne⟩

/-- **A call is served** by a listener that is ready, which then is ready again. -/
theorem Ready.serves {as : List (Action ι κ Addr)}
    (hrun : Transition.run (step site) (start site) as = some sys) (hready : sys.Ready j)
    {sdp answer : String} (hcall : Callable site sys d j sdp answer) (broadcast_addr : Addr)
    (now : ℕ) : ∃ bs sys', Transition.Runs (step site) (Direct site broadcast_addr) sys bs sys' ∧
      sys'.Ready j ∧ Connected site sys' d j sdp answer ∧ sys.Leaves sys' [d] j := by
  have hapart := apart_of_run hrun hcall.ne
  obtain ⟨data, hdata⟩ := hready.server
  -- the node of the call finds the node of the listener
  obtain ⟨lan₁, request, reply, hinquiry, hi₁, hj₁, -⟩ := Lan.inquiry_run site.crypto_lawful
    site.hex_lawful site.addr (by rw [hapart.own, hapart.other]; exact hapart.ne) hdata
    (Lan.fits_of_run (lan_run hrun) j data hdata) broadcast_addr now
  obtain ⟨sys₁, hsys₁⟩ : ∃ sys₁ : Deployment ι κ Addr, sys₁ = { sys with lan := lan₁ } := ⟨_, rfl⟩
  have hruns₁ : Transition.Runs (step site) (Direct site broadcast_addr) sys _
      { sys with lan := lan₁ } := runs_lan (by simp [Lan.inquiry, is_signal]) hinquiry
  rw [← hsys₁] at hruns₁
  have hrun₁ := Transition.run_append_eq_some.2 ⟨sys, hrun, hruns₁.run⟩
  have hlan₁ : sys₁.lan = lan₁ := by rw [hsys₁]
  have hknown : (sys₁.lan (site.node d)).addresses (site.network_id j) =
      some ⟨site.addr j, now⟩ := by
    rw [hlan₁, hi₁, ← hapart.other]
    exact Function.update_self ..
  -- it signals the offer
  obtain ⟨_, lan₂, hruns₂, hi₂, hj₂, -⟩ := offer_runs (apart_of_run hrun₁ hcall.ne)
    (by rw [hsys₁]; exact hcall.fresh) hcall.remote hcall.offer_fits hknown broadcast_addr now
  obtain ⟨sys₂, hsys₂⟩ : ∃ sys₂, sys₂ = { sys₁.put d (offering site d sdp
    (sys₁.lan (site.node d)).published.length) with lan := lan₂ } := ⟨_, rfl⟩
  rw [← hsys₂] at hruns₂
  have hrun₂ := Transition.run_append_eq_some.2 ⟨sys₁, hrun₁, hruns₂.run⟩
  have hlan₂ : sys₂.lan = lan₂ := by rw [hsys₂]
  have hlistener : sys₂.listener j = sys.listener j := by rw [hsys₂, hsys₁]; rfl
  have hheard : sys₂.heard j = some (sys₁.lan j).published.length := by
    rw [hlan₁, hj₁, ← hready.heard, hsys₂, hsys₁]
    rfl
  -- the listener takes and answers it
  obtain ⟨_, l, _, lan₃, hruns₃, haccepts, hj₃, hi₃, -⟩ := answer_runs
    (apart_of_run hrun₂ hcall.ne) (hlistener ▸ hready.waiting) hheard
    (by rw [hlan₂, hj₂]; exact List.getElem?_concat_length) hcall.answer_fits
    (by rw [hlan₂, hj₂]; exact Function.update_self ..) broadcast_addr now
  obtain ⟨sys₃, hsys₃⟩ : ∃ sys₃, sys₃ = { sys₂ with lan := lan₃ }.listening j l
    ((sys₁.lan j).published.length + 1) := ⟨_, rfl⟩
  rw [← hsys₃] at hruns₃
  have hdialing : sys₃.dialing d =
      offering site d sdp (sys₁.lan (site.node d)).published.length := by
    rw [hsys₃, hsys₂]
    exact Function.update_self ..
  have hlan₃ : sys₃.lan = lan₃ := by rw [hsys₃]; rfl
  have hlistener₃ : sys₃.listener j = l := by rw [hsys₃]; exact Function.update_self ..
  have hoffered : (sys₃.dialing d).dialer.offered = true := by rw [hdialing]; rfl
  -- the call takes the answer
  obtain ⟨connect, hruns₄, hreturned, hanswered⟩ := connect_runs hoffered (by rw [hdialing]; rfl)
    (by rw [hdialing]; rfl)
    (by rw [hlan₃, hi₃, hlan₂, hi₂]; exact List.getElem?_concat_length) rfl rfl broadcast_addr
  rw [hlistener] at haccepts
  refine ⟨_, _, hruns₁.append (hruns₂.append (hruns₃.append hruns₄)), ⟨⟨data, ?_⟩, ?_, ?_⟩,
    ⟨?_, ?_, ?_⟩, fun e he => ?_, ?_, ?_⟩
  · show (sys₃.lan j).server_data = some data
    rw [hlan₃, hj₃, hlan₂, hj₂, hlan₁, hj₁]
    exact hdata
  · exact (congrArg Listener.loop hlistener₃).trans haccepts.waiting
  · show sys₃.heard j = some (sys₃.lan j).published.length
    rw [hlan₃, hj₃, hlan₂, hj₂, List.length_append, hsys₃]
    exact Function.update_self ..
  · rw [put_dialing]
    exact hreturned
  · rw [put_dialing]
    exact hanswered
  · obtain ⟨c, hconn, hoffer, hanswer⟩ := haccepts.connections
    refine ⟨(sys.listener j).connections.length, ?_, c, ?_, hoffer, hanswer⟩
    · show _ ∈ (sys₃.listener j).accepted
      rw [hlistener₃, haccepts.accepted]
      exact List.mem_append_right _ (List.mem_singleton_self _)
    · show (sys₃.listener j).connections[_]? = some c
      rw [hlistener₃]
      exact Listener.getElem?_last hconn
  · rw [List.mem_singleton] at he
    rw [put_dialing_of_ne he, hsys₃, hsys₂, hsys₁]
    exact put_dialing_of_ne he
  · show _ <+: (sys₃.listener j).accepted
    rw [hlistener₃, haccepts.accepted]
    exact List.prefix_append ..
  · obtain ⟨c, hconn, -⟩ := haccepts.connections
    show _ <+: (sys₃.listener j).connections
    rw [hlistener₃, hconn]
    exact List.prefix_append ..

/-- **Calls can be served**: after any run, calls that have not begun can all be made, one after
another, to a listener that is ready, and each is then connected. -/
theorem exists_all_connected {as : List (Action ι κ Addr)}
    (hrun : Transition.run (step site) (start site) as = some sys) (hready : sys.Ready j)
    {ds : List κ} (hds : ds.Nodup) {sdp answer : κ → String}
    (hcall : ∀ d ∈ ds, Callable site sys d j (sdp d) (answer d)) (broadcast_addr : Addr)
    (now : ℕ) : ∃ bs sys', Transition.Runs (step site) (Direct site broadcast_addr) sys bs sys' ∧
      sys'.Ready j ∧ (∀ d ∈ ds, Connected site sys' d j (sdp d) (answer d)) ∧
      sys.Leaves sys' ds j := by
  induction ds generalizing sys as with
  | nil =>
    exact ⟨[], sys, .nil sys, hready, fun d hd => absurd hd List.not_mem_nil,
      fun e _ => rfl, List.prefix_rfl, List.prefix_rfl⟩
  | cons d ds ih =>
    obtain ⟨hd, hds⟩ := List.nodup_cons.1 hds
    obtain ⟨bs, sys₁, hruns, hready₁, hconnected, hleaves⟩ :=
      hready.serves hrun (hcall d List.mem_cons_self) broadcast_addr now
    have hcall₁ : ∀ e ∈ ds, Callable site sys₁ e j (sdp e) (answer e) := by
      intro e he
      have hne : e ∉ [d] := fun hed => hd (List.mem_singleton.1 hed ▸ he)
      have h := hcall e (List.mem_cons_of_mem d he)
      exact { h with fresh := (hleaves.dialing e hne).trans h.fresh }
    obtain ⟨bs', sys₂, hruns', hready₂, hconnected', hleaves'⟩ :=
      ih (Transition.run_append_eq_some.2 ⟨sys, hrun, hruns.run⟩) hready₁ hds hcall₁
    refine ⟨bs ++ bs', sys₂, hruns.append hruns', hready₂, fun e he => ?_, hleaves.trans hleaves'⟩
    cases List.mem_cons.1 he with
    | inl heq => exact heq ▸ hconnected.of_leaves hleaves' hd
    | inr he => exact hconnected' e he

end Calls

/-- Node 7 calls `connect` for node 9 twice. -/
def calling_site : Site Bool Bool ℕ where
  crypto := lan_site.crypto
  hex := lan_site.hex
  crypto_lawful := lan_site.crypto_lawful
  hex_lawful := lan_site.hex_lawful
  from_str := lan_site.from_str
  network_id := Lan.ids
  addr := Lan.addresses
  node _ := false
  connection_id d := if d then 1 else 2
  connection_id_inj := by unfold Function.Injective; decide
  remote_network_id _ := u64_to_string 9

/-- Both calls are served, once node 9 has server data and its listener has subscribed. -/
theorem exists_all_connected_two : ∃ sys bs sys',
    Transition.run (step calling_site) (start calling_site)
      [.lan (.own true (.set_pong_data LanSignaling.world.bytes)), .subscribe_listener true] =
        some sys ∧
      Transition.Runs (step calling_site) (Direct calling_site 255) sys bs sys' ∧
      sys'.Ready true ∧ (∀ d ∈ [false, true], Connected calling_site sys' d true "o" "a") ∧
      sys.Leaves sys' [false, true] true := by
  obtain ⟨sys, hsys⟩ : ∃ sys, Transition.run (step calling_site) (start calling_site)
      [.lan (.own true (.set_pong_data LanSignaling.world.bytes)), .subscribe_listener true] =
        some sys := ⟨_, rfl⟩
  have hready : sys.Ready true := by
    obtain rfl := Option.some.inj hsys
    exact ⟨⟨LanSignaling.world, by decide +kernel⟩, rfl, rfl⟩
  have hcall : ∀ d ∈ [false, true], Callable calling_site sys d true "o" "a" := by
    obtain rfl := Option.some.inj hsys
    intro d _
    refine ⟨rfl, rfl, show Lan.ids false ≠ Lan.ids true by decide, ?_, ?_⟩
    · cases d <;> decide +kernel
    · cases d <;> decide +kernel
  obtain ⟨bs, sys', h⟩ := exists_all_connected hsys hready (by decide) hcall 255 1
  exact ⟨sys, bs, sys', hsys, h⟩

end Deployment

end Nethernet
