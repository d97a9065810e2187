import Nethernet.Signaling.Network
import Nethernet.Signaling.Subscribe
import Nethernet.Transport.Connect
import Nethernet.Transport.Rendezvous
import Nethernet.Transport.Source

/-!
# Listeners and dialers on one network

Any number of nodes of a local network, each with a listener, and any number of calls of
`NethernetStream::connect`, each on a node. They signal through the nodes, so their signals are
encoded, sent to the address that the node has for the recipient, and published where they arrive;
and each takes signals from its own stream of what its node publishes. A stream may skip signals, as
one that lags behind does (`yields_of_recv`).

`effect_of_step` says what a step does to the network, to a listener or to a call.
-/

namespace Nethernet

open Foundations

/-- A call of `connect`: the part that sends signals, where its stream is once it has subscribed,
and the part after the offer. -/
structure Dialing where
  dialer : Dialer
  heard : Option ℕ
  connect : Connect

/-- What a deployment consists of: the nodes `ι`, and the calls `κ` of `connect`, no two of which
have drawn the same connection id. -/
structure Site (ι κ Addr : Type) where
  crypto : Crypto
  hex : Hex
  crypto_lawful : crypto.Lawful
  hex_lawful : hex.Lawful
  from_str : String → Option RTCIceCandidateInit
  network_id : ι → UInt64
  addr : ι → Addr
  node : κ → ι
  connection_id : κ → UInt64
  connection_id_inj : Function.Injective connection_id
  remote_network_id : κ → String

/-- The state of a deployment. `heard` is where the stream of a listener is. -/
structure Deployment (ι κ Addr : Type) where
  lan : Lan ι Addr
  listener : ι → Listener
  heard : ι → Option ℕ
  dialing : κ → Dialing

namespace Deployment

variable {ι κ Addr : Type}

/-- What happens in a deployment. -/
inductive Action (ι κ Addr : Type)
  /-- On the network, other than a call of `signal`. -/
  | lan (a : Lan.Action ι Addr)
  /-- A listener subscribes, takes the `k`-th signal of its node, or takes another step. -/
  | subscribe_listener (i : ι)
  | listen (i : ι) (k : ℕ)
  | listener (i : ι) (a : Listener.Action) (send_to : Bytes → Addr → Except String Unit)
  /-- A call of `connect` before the offer. -/
  | set_local_description (d : κ) (sdp : String)
  | subscribe (d : κ)
  | signal_offer (d : κ) (send_to : Bytes → Addr → Except String Unit)
  | on_ice_candidate (d : κ) (candidate_json : String)
    (send_to : Bytes → Addr → Except String Unit)
  /-- After the offer: its loop or its task takes the `k`-th signal, or it takes another step. -/
  | take (d : κ) (k : ℕ) (by_task : Bool)
  | connect (d : κ) (a : Connect.Action)

/-- The action calls `signal`. -/
def is_signal : Lan.Action ι Addr → Bool
  | .own _ (.signal ..) => true
  | _ => false

/-- The listener takes a signal. -/
def listens : Listener.Action → Bool
  | .signal _ => true
  | _ => false

/-- The call takes a signal. -/
def takes_signal : Connect.Action → Bool
  | .next (some _) | .task_next (some _) => true
  | _ => false

variable [DecidableEq ι] [DecidableEq κ] (site : Site ι κ Addr)

/-- The `k`-th signal that `i` publishes, for a stream that is not past it. -/
def yields (sys : Deployment ι κ Addr) (i : ι) (heard : Option ℕ) (k : ℕ) : Option Signal :=
  heard.bind fun m => if m ≤ k then (sys.lan i).published[k]? else none

/-- Call `signal` on `i`. -/
def signal (sys : Deployment ι κ Addr) (i : ι) (s : Signal)
    (send_to : Bytes → Addr → Except String Unit) : Except NethernetError Unit × Lan ι Addr :=
  let (result, n) := (sys.lan i).signal site.crypto site.hex s send_to
  (result, Function.update sys.lan i n)

/-- A listener takes a step other than a signal. `handle_offer` goes on after its answer only when
that was sent; the result for a candidate is ignored. -/
def listener_step (sys : Deployment ι κ Addr) (i : ι) (a : Listener.Action)
    (send_to : Bytes → Addr → Except String Unit) : Option (Deployment ι κ Addr) :=
  if listens a then none
  else
    ((sys.listener i).step site.from_str a).bind fun l =>
      match (sys.listener i).emits a with
      | [] => some { sys with listener := Function.update sys.listener i l }
      | s :: _ =>
        match a, sys.signal site i s send_to with
        | .call _, (.error _, _) => none
        | _, (_, lan) => some { sys with lan, listener := Function.update sys.listener i l }

/-- Replace a call of `connect`. -/
def put (sys : Deployment ι κ Addr) (d : κ) (dialing : Dialing) : Deployment ι κ Addr :=
  { sys with dialing := Function.update sys.dialing d dialing }

/-- Signal the offer. -/
def offer_step (sys : Deployment ι κ Addr) (d : κ)
    (send_to : Bytes → Addr → Except String Unit) : Option (Deployment ι κ Addr) :=
  let dialing := sys.dialing d
  let dialer := dialing.dialer
  match dialer.local_description, dialing.heard with
  | some sdp, some _ =>
    if dialer.offered ∨ dialing.connect.phase ≠ .Waiting then none
    else
      match sys.signal site (site.node d)
        (Signal.offer dialer.connection_id sdp dialer.remote_network_id) send_to with
      | (.ok (), lan) =>
        some { sys.put d { dialing with dialer := { dialer with offered := true } } with lan }
      | (.error e, lan) => some { sys.put d { dialing with
          connect := { dialing.connect with phase := .Returned (.error e) } } with lan }
  | _, _ => none

/-- Signal a candidate that was gathered. -/
def candidate_step (sys : Deployment ι κ Addr) (d : κ) (candidate_json : String)
    (send_to : Bytes → Addr → Except String Unit) : Option (Deployment ι κ Addr) :=
  let dialing := sys.dialing d
  let dialer := dialing.dialer
  match dialer.local_description with
  | none => none
  | some _ =>
    let (_, lan) := sys.signal site (site.node d)
      (Signal.candidate dialer.connection_id candidate_json dialer.remote_network_id) send_to
    some { sys.put d { dialing with
      dialer := { dialer with gathered := dialer.gathered ++ [candidate_json] } } with lan }

/-- A step of `connect` after the offer. -/
def connect_step (sys : Deployment ι κ Addr) (d : κ) (a : Connect.Action) (heard : Option ℕ) :
    Option (Deployment ι κ Addr) :=
  if (sys.dialing d).dialer.offered then
    ((sys.dialing d).connect.step site.from_str a).map fun connect =>
      sys.put d { sys.dialing d with heard, connect }
  else none

/-- One step. -/
def step : Transition (Deployment ι κ Addr) (Action ι κ Addr)
  | sys, .lan a =>
    if is_signal a then none
    else (Lan.step site.crypto site.hex site.addr sys.lan a).map fun lan => { sys with lan }
  | sys, .subscribe_listener i =>
    if sys.heard i = none then
      some { sys with heard := Function.update sys.heard i (sys.lan i).published.length }
    else none
  | sys, .listen i k => (sys.yields i (sys.heard i) k).bind fun s =>
    ((sys.listener i).step site.from_str (.signal s)).map fun l => { sys with
      listener := Function.update sys.listener i l
      heard := Function.update sys.heard i (some (k + 1)) }
  | sys, .listener i a send_to => sys.listener_step site i a send_to
  | sys, .set_local_description d sdp =>
    let dialing := sys.dialing d
    if dialing.dialer.local_description = none then
      some (sys.put d { dialing with
        dialer := { dialing.dialer with local_description := some sdp } })
    else none
  | sys, .subscribe d =>
    let dialing := sys.dialing d
    if dialing.dialer.local_description.isSome ∧ dialing.heard = none then
      some (sys.put d { dialing with heard := some (sys.lan (site.node d)).published.length })
    else none
  | sys, .signal_offer d send_to => sys.offer_step site d send_to
  | sys, .on_ice_candidate d json send_to => sys.candidate_step site d json send_to
  | sys, .take d k by_task => (sys.yields (site.node d) (sys.dialing d).heard k).bind fun s =>
    sys.connect_step site d (if by_task then .task_next (some s) else .next (some s)) (some (k + 1))
  | sys, .connect d a =>
    if takes_signal a then none else sys.connect_step site d a (sys.dialing d).heard

/-- Before anything has happened. -/
def start : Deployment ι κ Addr where
  lan := Lan.start site.network_id
  listener _ := Listener.bind
  heard _ := none
  dialing d :=
    { dialer := ⟨site.connection_id d, u64_to_string (site.network_id (site.node d)),
        site.remote_network_id d, none, [], false⟩
      heard := none
      connect := Connect.start (site.connection_id d) (site.remote_network_id d) }

/-! ## The run of the network -/

/-- What a step does on the network. -/
def shows (sys : Deployment ι κ Addr) : Action ι κ Addr → List (Lan.Action ι Addr)
  | .lan a => [a]
  | .listener i a send_to =>
    ((sys.listener i).emits a).head?.toList.map fun s => .own i (.signal s send_to)
  | .signal_offer d send_to =>
    let dialer := (sys.dialing d).dialer
    dialer.local_description.toList.map fun sdp => .own (site.node d)
      (.signal (Signal.offer dialer.connection_id sdp dialer.remote_network_id) send_to)
  | .on_ice_candidate d json send_to =>
    let dialer := (sys.dialing d).dialer
    [.own (site.node d)
      (.signal (Signal.candidate dialer.connection_id json dialer.remote_network_id) send_to)]
  | _ => []

variable {site} {sys sys' : Deployment ι κ Addr} {a : Action ι κ Addr}

omit [DecidableEq κ] in
/-- What a listener does in a step other than a signal. -/
theorem listener_step_eq_some {i : ι} {a : Listener.Action}
    {send_to : Bytes → Addr → Except String Unit}
    (h : sys.listener_step site i a send_to = some sys') :
    listens a = false ∧ ∃ l, (sys.listener i).step site.from_str a = some l ∧
      sys' = { sys with
        lan := sys'.lan
        listener := Function.update sys.listener i l } ∧
      Transition.run (Lan.step site.crypto site.hex site.addr) sys.lan
        (sys.shows site (.listener i a send_to)) = some sys'.lan := by
  rw [listener_step] at h
  split at h
  · cases h
  · rename_i hnot
    obtain ⟨l, hl, h⟩ := Option.bind_eq_some_iff.1 h
    refine ⟨by simpa using hnot, l, hl, ?_⟩
    split at h
    · rename_i hemits
      obtain rfl := Option.some.inj h
      exact ⟨rfl, by simp [shows, hemits]⟩
    · rename_i s rest hemits
      split at h
      · cases h
      · rename_i result lan _ hsignal _
        obtain rfl := Option.some.inj h
        refine ⟨rfl, ?_⟩
        obtain ⟨-, rfl⟩ := Prod.mk.inj hsignal
        simp only [shows, hemits, List.head?_cons, Option.toList_some, List.map_cons, List.map_nil]
        exact Transition.run_cons_eq_some.2 ⟨_, rfl, rfl⟩

/-- What a step does to a call of `connect`. -/
inductive Moves (site : Site ι κ Addr) (sys : Deployment ι κ Addr) (d : κ) :
    Action ι κ Addr → Dialing → Prop
  | described (sdp : String) (hnone : (sys.dialing d).dialer.local_description = none) :
    Moves site sys d (.set_local_description d sdp) { sys.dialing d with
      dialer := { (sys.dialing d).dialer with local_description := some sdp } }
  | subscribed (heard : Option ℕ) :
    Moves site sys d (.subscribe d) { sys.dialing d with heard }
  | offered (sdp : String) (send_to : Bytes → Addr → Except String Unit)
    (hsdp : (sys.dialing d).dialer.local_description = some sdp) :
    Moves site sys d (.signal_offer d send_to) { sys.dialing d with
      dialer := { (sys.dialing d).dialer with offered := true } }
  | refused (sdp : String) (send_to : Bytes → Addr → Except String Unit) (e : NethernetError)
    (hsdp : (sys.dialing d).dialer.local_description = some sdp)
    (hphase : (sys.dialing d).connect.phase = .Waiting) :
    Moves site sys d (.signal_offer d send_to) { sys.dialing d with
      connect := { (sys.dialing d).connect with phase := .Returned (.error e) } }
  | gathered (sdp json : String) (send_to : Bytes → Addr → Except String Unit)
    (hsdp : (sys.dialing d).dialer.local_description = some sdp) :
    Moves site sys d (.on_ice_candidate d json send_to) { sys.dialing d with
      dialer := { (sys.dialing d).dialer with
        gathered := (sys.dialing d).dialer.gathered ++ [json] } }
  | connected (a : Action ι κ Addr) (ca : Connect.Action) (heard : Option ℕ) (connect : Connect)
    (hquiet : sys.shows site a = [])
    (hstep : (sys.dialing d).connect.step site.from_str ca = some connect)
    (htaken : ∀ s, ca = .next (some s) ∨ ca = .task_next (some s) →
      s ∈ (sys.lan (site.node d)).published) :
    Moves site sys d a { sys.dialing d with heard, connect }

/-- What a step does. -/
inductive Effect (site : Site ι κ Addr) (sys : Deployment ι κ Addr) :
    Action ι κ Addr → Deployment ι κ Addr → Prop
  | network (a : Lan.Action ι Addr) (lan : Lan ι Addr) (hnot : is_signal a = false)
    (hstep : Lan.step site.crypto site.hex site.addr sys.lan a = some lan) :
    Effect site sys (.lan a) { sys with lan }
  | subscribed (i : ι) (heard : ι → Option ℕ) :
    Effect site sys (.subscribe_listener i) { sys with heard }
  | listened (i : ι) (k : ℕ) (s : Signal) (l : Listener) (heard : ι → Option ℕ)
    (hs : s ∈ (sys.lan i).published)
    (hl : (sys.listener i).step site.from_str (.signal s) = some l) :
    Effect site sys (.listen i k) { sys with
      listener := Function.update sys.listener i l, heard }
  | listener (i : ι) (a : Listener.Action) (send_to : Bytes → Addr → Except String Unit)
    (l : Listener) (lan : Lan ι Addr) (hnot : listens a = false)
    (hl : (sys.listener i).step site.from_str a = some l)
    (hrun : Transition.run (Lan.step site.crypto site.hex site.addr) sys.lan
      (sys.shows site (.listener i a send_to)) = some lan) :
    Effect site sys (.listener i a send_to) { sys with
      lan, listener := Function.update sys.listener i l }
  | dialing (a : Action ι κ Addr) (d : κ) (dialing : Dialing) (lan : Lan ι Addr)
    (hmoves : Moves site sys d a dialing)
    (hrun : Transition.run (Lan.step site.crypto site.hex site.addr) sys.lan
      (sys.shows site a) = some lan) :
    Effect site sys a { sys.put d dialing with lan }

omit [DecidableEq ι] [DecidableEq κ] in
theorem mem_of_yields {i : ι} {heard : Option ℕ} {k : ℕ} {s : Signal}
    (h : sys.yields i heard k = some s) : s ∈ (sys.lan i).published := by
  obtain ⟨m, -, h⟩ := Option.bind_eq_some_iff.1 h
  obtain ⟨-, h⟩ := Option.ite_none_right_eq_some.1 h
  exact List.mem_of_getElem? h

omit [DecidableEq ι] [DecidableEq κ] in
/-- **A stream of a node's signals** gives one that has not been passed, and goes on after it, or
gives none and does not go back. -/
theorem yields_of_recv {i : ι} {tx : Broadcast Signal} (htx : tx.sent = (sys.lan i).published)
    {stream stream' : SignalStream} (hrecv : stream.recv tx = some stream') :
    (∃ k s, stream'.yielded = stream.yielded ++ [s] ∧
        sys.yields i (some stream.rx.next) k = some s ∧ stream'.rx.next = k + 1) ∨
      stream'.yielded = stream.yielded ∧ stream.rx.next ≤ stream'.rx.next := by
  obtain ⟨-, heffect⟩ := SignalStream.effect_recv hrecv
  cases heffect with
  | yields s hkept hs =>
    refine .inl ⟨stream.rx.next, s, rfl, ?_, rfl⟩
    rw [yields, Option.bind_some, if_pos (Nat.le_refl _), ← htx]
    exact hs
  | skips hlost => exact .inr ⟨rfl, hlost.le⟩
  | ends hkept hdone hclosed => exact .inr ⟨rfl, le_rfl⟩

theorem effect_of_connect {d : κ} {ca : Connect.Action} {heard : Option ℕ}
    (hquiet : sys.shows site a = [])
    (htaken : ∀ s, ca = .next (some s) ∨ ca = .task_next (some s) →
      s ∈ (sys.lan (site.node d)).published)
    (h : sys.connect_step site d ca heard = some sys') : Effect site sys a sys' := by
  obtain ⟨-, h⟩ := Option.ite_none_right_eq_some.1 h
  obtain ⟨connect, hstep, rfl⟩ := Option.map_eq_some_iff.1 h
  exact .dialing a d _ sys.lan (.connected a ca heard connect hquiet hstep htaken)
    (by rw [hquiet, Transition.run_nil])

theorem effect_of_offer {d : κ} {send_to : Bytes → Addr → Except String Unit}
    (h : sys.offer_step site d send_to = some sys') :
    Effect site sys (.signal_offer d send_to) sys' := by
  dsimp only [offer_step] at h
  split at h
  · rename_i sdp _ hsdp _
    obtain ⟨hnot, h⟩ := Option.ite_none_left_eq_some.1 h
    have hwaiting : (sys.dialing d).connect.phase = .Waiting := by
      by_contra hphase
      exact hnot (.inr hphase)
    split at h
    · rename_i lan hsignal
      obtain rfl := Option.some.inj h
      obtain ⟨-, rfl⟩ := Prod.mk.inj hsignal
      refine .dialing _ d _ _ (.offered sdp send_to hsdp) ?_
      simp only [shows, hsdp, Option.toList_some, List.map_cons, List.map_nil]
      exact Transition.run_cons_eq_some.2 ⟨_, rfl, rfl⟩
    · rename_i e lan hsignal
      obtain rfl := Option.some.inj h
      obtain ⟨-, rfl⟩ := Prod.mk.inj hsignal
      refine .dialing _ d _ _ (.refused sdp send_to e hsdp hwaiting) ?_
      simp only [shows, hsdp, Option.toList_some, List.map_cons, List.map_nil]
      exact Transition.run_cons_eq_some.2 ⟨_, rfl, rfl⟩
  · cases h

theorem effect_of_candidate {d : κ} {json : String} {send_to : Bytes → Addr → Except String Unit}
    (h : sys.candidate_step site d json send_to = some sys') :
    Effect site sys (.on_ice_candidate d json send_to) sys' := by
  dsimp only [candidate_step] at h
  split at h
  · cases h
  · rename_i sdp hsdp
    obtain rfl := Option.some.inj h
    refine .dialing _ d _ _ (.gathered sdp json send_to hsdp) ?_
    exact Transition.run_cons_eq_some.2 ⟨_, rfl, rfl⟩

/-- **What a step does** to the network, the listeners and the calls of `connect`. -/
theorem effect_of_step (h : step site sys a = some sys') : Effect site sys a sys' := by
  cases a with
  | lan a =>
    obtain ⟨hnot, h⟩ := Option.ite_none_left_eq_some.1 h
    obtain ⟨lan, hstep, rfl⟩ := Option.map_eq_some_iff.1 h
    exact .network a lan (by simpa using hnot) hstep
  | subscribe_listener i =>
    obtain ⟨-, h⟩ := Option.ite_none_right_eq_some.1 h
    exact Option.some.inj h ▸ .subscribed i _
  | listen i k =>
    obtain ⟨s, hs, h⟩ := Option.bind_eq_some_iff.1 h
    obtain ⟨l, hl, rfl⟩ := Option.map_eq_some_iff.1 h
    exact .listened i k s l _ (mem_of_yields hs) hl
  | listener i a send_to =>
    obtain ⟨hnot, l, hl, heq, hrun⟩ := listener_step_eq_some h
    rw [heq]
    exact .listener i a send_to l sys'.lan hnot hl hrun
  | set_local_description d sdp =>
    obtain ⟨hnone, h⟩ := Option.ite_none_right_eq_some.1 h
    exact Option.some.inj h ▸ .dialing _ d _ sys.lan (.described sdp hnone) rfl
  | subscribe d =>
    obtain ⟨-, h⟩ := Option.ite_none_right_eq_some.1 h
    exact Option.some.inj h ▸ .dialing _ d _ sys.lan (.subscribed _) rfl
  | signal_offer d send_to => exact effect_of_offer h
  | on_ice_candidate d json send_to => exact effect_of_candidate h
  | take d k by_task =>
    obtain ⟨s, hs, h⟩ := Option.bind_eq_some_iff.1 h
    refine effect_of_connect rfl (fun s' hs' => ?_) h
    have hmem := mem_of_yields hs
    cases by_task <;> simp at hs' <;> exact hs' ▸ hmem
  | connect d a =>
    obtain ⟨hnot, h⟩ := Option.ite_none_left_eq_some.1 h
    refine effect_of_connect rfl (fun s hs => ?_) h
    rcases hs with rfl | rfl <;> exact absurd rfl hnot

end Deployment

end Nethernet
