import Nethernet.Transport.Deployment

/-!
# What two ends agree on

`answer_agrees`: the answer that `connect` goes on with is the answer of a listener's connection
that was created for the very offer of this call, on a node with the id it was called for.
`candidates_agree`: the remote candidates that `connect` hands to its connection were gathered by
such a connection, and the remote candidates of a listener's connection were gathered by the call
whose offer it was created for. Both hold in every run, whatever the network loses, repeats or
reorders, and beside any number of other calls on any nodes.
-/

namespace Nethernet

open Foundations

namespace Connect

variable {from_str : String → Option RTCIceCandidateInit}

/-- What a call of `connect` has, when its stream has yielded only signals of `published`. -/
structure Sourced (published : List Signal) (s : Connect) : Prop where
  taken_subset : s.taken ⊆ published
  answer : ∀ data, s.answer = some data → ∃ signal ∈ s.taken,
    signal.connection_id = s.connection_id ∧ signal.signal_type = .Answer ∧ signal.data = data

theorem Sourced.mono {published published' : List Signal} {s : Connect}
    (hs : s.Sourced published) (hsub : published ⊆ published') : s.Sourced published' :=
  ⟨fun _ hmem => hsub (hs.taken_subset hmem), hs.answer⟩

/-- A step that takes a signal, and may keep its data as the answer. -/
theorem Sourced.take {published : List Signal} {s s' : Connect} {signal : Signal}
    (hs : s.Sourced published) (hsignal : signal ∈ published)
    (hid : s'.connection_id = s.connection_id) (htaken : s'.taken = s.taken ++ [signal])
    (hanswer : s'.answer = s.answer ∨ s'.answer = some signal.data ∧
      signal.connection_id = s.connection_id ∧ signal.signal_type = .Answer) :
    s'.Sourced published := by
  refine ⟨fun x hx => ?_, fun data hdata => ?_⟩
  · rw [htaken] at hx
    rcases List.mem_append.1 hx with hold | hnew
    · exact hs.taken_subset hold
    · exact List.mem_singleton.1 hnew ▸ hsignal
  · rw [htaken, hid]
    rcases hanswer with hsame | ⟨hnew, hown, htype⟩
    · obtain ⟨x, hmem, hx⟩ := hs.answer data (hsame ▸ hdata)
      exact ⟨x, List.mem_append_left _ hmem, hx⟩
    · obtain rfl := Option.some.inj (hnew.symm.trans hdata)
      exact ⟨signal, by simp, hown, htype, rfl⟩

/-- A step that takes no signal. -/
theorem Sourced.of_eq {published : List Signal} {s s' : Connect} (hs : s.Sourced published)
    (hid : s'.connection_id = s.connection_id) (htaken : s'.taken = s.taken)
    (hanswer : s'.answer = s.answer) : s'.Sourced published :=
  ⟨htaken ▸ hs.taken_subset, fun data hdata => hid ▸ htaken ▸ hs.answer data (hanswer ▸ hdata)⟩

theorem Sourced.step {published : List Signal} {s s' : Connect} {a : Action}
    (hs : s.Sourced published)
    (ha : ∀ signal, a = .next (some signal) ∨ a = .task_next (some signal) → signal ∈ published)
    (h : Connect.step from_str s a = some s') :
    s'.connection_id = s.connection_id ∧ s'.Sourced published := by
  cases step_effect h with
  | answered signal hphase hid htype =>
    exact ⟨rfl, hs.take (ha signal (.inl rfl)) rfl rfl (.inr ⟨rfl, hid, htype⟩)⟩
  | buffered signal | passed signal =>
    exact ⟨rfl, hs.take (ha signal (.inl rfl)) rfl rfl (.inl rfl)⟩
  | handed signal | skipped signal =>
    exact ⟨rfl, hs.take (ha signal (.inr rfl)) rfl rfl (.inl rfl)⟩
  | ended | failed | succeeded | applying | spawned | applied | task_ended | task_added
  | task_cancelled => exact ⟨rfl, hs.of_eq rfl rfl rfl⟩

end Connect

namespace Dialer

/-- The signal is the offer, or a candidate, of this call. -/
def Posts (d : Dialer) (s : Signal) : Prop :=
  (∃ sdp, d.local_description = some sdp ∧
      s = Signal.offer d.connection_id sdp d.remote_network_id) ∨
    ∃ json ∈ d.gathered, s = Signal.candidate d.connection_id json d.remote_network_id

end Dialer

/-- What a call of `connect` has, when its node has published the signals `published`. -/
structure Dialing.Sourced {ι κ Addr : Type} (site : Site ι κ Addr) (d : κ)
    (published : List Signal) (dialing : Dialing) : Prop where
  connection_id : dialing.dialer.connection_id = site.connection_id d
  remote_network_id : dialing.dialer.remote_network_id = site.remote_network_id d
  same_id : dialing.connect.connection_id = site.connection_id d
  stage : dialing.connect.Stage site.from_str
  connect : dialing.connect.Sourced published

namespace Deployment

variable {ι κ Addr : Type} [DecidableEq ι] [DecidableEq κ]

/-- What is known of a deployment after a run. -/
structure Traced (site : Site ι κ Addr) (as : List (Action ι κ Addr))
    (sys : Deployment ι κ Addr) : Prop where
  run : Transition.run (step site) (start site) as = some sys
  /-- Every signal comes from a listener or a call on its node. -/
  signalled : ∀ i s send_to,
    .own i (.signal s send_to) ∈ Transition.trace (step site) (shows site) (start site) as →
      s ∈ (sys.listener i).signalled ∨ ∃ d, site.node d = i ∧ (sys.dialing d).dialer.Posts s
  listener : ∀ i, (sys.listener i).WellFormed ∧
    (sys.listener i).Sourced site.from_str (sys.lan i).published
  dialing : ∀ d, (sys.dialing d).Sourced site d (sys.lan (site.node d)).published

variable {site : Site ι κ Addr} {as : List (Action ι κ Addr)} {sys sys' : Deployment ι κ Addr}
  {a : Action ι κ Addr}

/-- **The run of the network** in a run of the whole. -/
theorem lan_run (h : Transition.run (step site) (start site) as = some sys) :
    Transition.run (Lan.step site.crypto site.hex site.addr) (Lan.start site.network_id)
      (Transition.trace (step site) (shows site) (start site) as) = some sys.lan := by
  refine Transition.run_simulates (g := Lan.step site.crypto site.hex site.addr) (·.lan)
    (fun sys a sys' hsys => ?_) h
  cases effect_of_step hsys with
  | network a lan hnot hstep =>
    exact Transition.run_cons_eq_some.2 ⟨lan, hstep, Transition.run_nil _⟩
  | subscribed i heard => rfl
  | listened i k s l heard hs hl => rfl
  | listener i a send_to l lan hnot hl hrun => exact hrun
  | dialing a d dialing lan hmoves hrun => exact hrun

/-! ## What a step keeps -/

/-- What the nodes have published stays published. -/
theorem Effect.published (h : Effect site sys a sys') (i : ι) :
    (sys.lan i).published ⊆ (sys'.lan i).published := by
  cases h with
  | network a lan hnot hstep =>
    have hrun := Transition.run_cons_eq_some.2 ⟨lan, hstep, Transition.run_nil lan⟩
    exact Lan.published_of_run hrun i
  | subscribed i heard => exact List.Subset.refl _
  | listened i k s l heard hs hl => exact List.Subset.refl _
  | listener j a send_to l lan hnot hl hrun => exact Lan.published_of_run hrun i
  | dialing a d dialing lan hmoves hrun => exact Lan.published_of_run hrun i

/-- A listener takes a step, or stays as it is. -/
theorem Effect.listener_cases (h : Effect site sys a sys') (i : ι) :
    sys'.listener i = sys.listener i ∨ ∃ la,
      (sys.listener i).step site.from_str la = some (sys'.listener i) ∧
        ∀ s, la = .signal s → s ∈ (sys.lan i).published := by
  cases h with
  | network | subscribed | dialing => exact .inl rfl
  | listened j k s l heard hs hl =>
    by_cases hij : i = j
    · subst hij
      refine .inr ⟨.signal s, by simpa using hl, fun s' hs' => ?_⟩
      exact Listener.Action.signal.inj hs' ▸ hs
    · exact .inl (Function.update_of_ne hij _ _)
  | listener j la send_to l lan hnot hl hrun =>
    by_cases hij : i = j
    · subst hij
      refine .inr ⟨la, by simpa using hl, ?_⟩
      rintro s rfl
      cases hnot
    · exact .inl (Function.update_of_ne hij _ _)

/-- A call of `connect` takes a step, or stays as it is. -/
theorem Effect.dialing_cases (h : Effect site sys a sys') (d : κ) :
    sys'.dialing d = sys.dialing d ∨ Moves site sys d a (sys'.dialing d) := by
  cases h with
  | network | subscribed | listened | listener => exact .inl rfl
  | dialing a e dialing lan hmoves hrun =>
    by_cases hde : d = e
    · subst hde
      refine .inr ?_
      dsimp only [put]
      rwa [Function.update_self]
    · exact .inl (Function.update_of_ne hde _ _)

omit [DecidableEq ι] [DecidableEq κ] in
/-- What a call has posted stays posted. -/
theorem Moves.posts {d : κ} {dialing : Dialing} (h : Moves site sys d a dialing) {s : Signal}
    (hs : (sys.dialing d).dialer.Posts s) : dialing.dialer.Posts s := by
  cases h with
  | described sdp hnone =>
    rcases hs with ⟨sdp', hsdp, -⟩ | ⟨json, hmem, heq⟩
    · cases hnone.symm.trans hsdp
    · exact .inr ⟨json, hmem, heq⟩
  | gathered sdp json send_to hsdp =>
    rcases hs with hoffer | ⟨json', hmem, heq⟩
    · exact .inl hoffer
    · exact .inr ⟨json', List.mem_append_left _ hmem, heq⟩
  | subscribed | offered | refused | connected => exact hs

theorem Effect.posts (h : Effect site sys a sys') {d : κ} {s : Signal}
    (hs : (sys.dialing d).dialer.Posts s) : (sys'.dialing d).dialer.Posts s := by
  rcases h.dialing_cases d with hsame | hmoves
  · rwa [hsame]
  · exact hmoves.posts hs

omit [DecidableEq ι] [DecidableEq κ] in
theorem Moves.sourced {d : κ} {dialing : Dialing} (h : Moves site sys d a dialing)
    (hd : (sys.dialing d).Sourced site d (sys.lan (site.node d)).published) :
    dialing.Sourced site d (sys.lan (site.node d)).published := by
  obtain ⟨hid, hremote, hsame, hstage, hconnect⟩ := hd
  cases h with
  | described | subscribed | offered | gathered => exact ⟨hid, hremote, hsame, hstage, hconnect⟩
  | refused sdp send_to e hsdp hphase =>
    obtain ⟨hdescribed, htask, hhanded, hpending⟩ := hstage.of_waiting hphase
    exact ⟨hid, hremote, hsame, .waiting hdescribed htask (.inr ⟨_, rfl⟩) hhanded hpending,
      hconnect.of_eq rfl rfl rfl⟩
  | connected _ ca heard connect hquiet hstep htaken =>
    obtain ⟨hsame', hconnect'⟩ := hconnect.step htaken hstep
    exact ⟨hid, hremote, hsame'.trans hsame, hstage.step hstep, hconnect'⟩

/-- A signal that a step sends was posted by a call, or emitted by a listener. -/
theorem Effect.signalled (h : Effect site sys a sys') {i : ι} {s : Signal}
    {send_to : Bytes → Addr → Except String Unit}
    (hmem : .own i (.signal s send_to) ∈ sys.shows site a) :
    s ∈ (sys'.listener i).signalled ∨ ∃ d, site.node d = i ∧ (sys'.dialing d).dialer.Posts s := by
  cases h with
  | network a lan hnot hstep =>
    obtain rfl := List.mem_singleton.1 hmem
    cases hnot
  | subscribed | listened => cases hmem
  | listener j la send_to' l lan hnot hl hrun =>
    obtain ⟨s', hs', heq⟩ := List.mem_map.1 hmem
    simp only [Lan.Action.own.injEq, LanSignaling.Event.signal.injEq] at heq
    obtain ⟨rfl, rfl, -⟩ := heq
    refine .inl ?_
    dsimp only
    rw [Function.update_self, (Listener.speaks_step hl).signalled]
    have hhead := Option.mem_toList.1 hs'
    exact List.mem_append_right _ (List.mem_of_head? hhead)
  | dialing a d dialing lan hmoves hrun =>
    refine .inr ⟨d, ?_⟩
    dsimp only [put]
    rw [Function.update_self]
    cases hmoves with
    | described | subscribed => cases hmem
    | connected _ ca heard connect hquiet hstep htaken =>
      rw [hquiet] at hmem
      cases hmem
    | offered sdp send_to' hsdp | refused sdp send_to' e hsdp =>
      simp only [shows, hsdp, Option.toList_some, List.map_cons, List.map_nil,
        List.mem_singleton, Lan.Action.own.injEq, LanSignaling.Event.signal.injEq] at hmem
      obtain ⟨rfl, rfl, -⟩ := hmem
      exact ⟨rfl, .inl ⟨sdp, hsdp, rfl⟩⟩
    | gathered sdp json send_to' hsdp =>
      simp only [shows, List.mem_singleton, Lan.Action.own.injEq,
        LanSignaling.Event.signal.injEq] at hmem
      obtain ⟨rfl, rfl, -⟩ := hmem
      exact ⟨rfl, .inr ⟨json, by simp, rfl⟩⟩

theorem Traced.next (ht : Traced site as sys) (h : step site sys a = some sys') :
    Traced site (as ++ [a]) sys' := by
  have heffect := effect_of_step h
  refine ⟨Transition.run_append_eq_some.2 ⟨sys, ht.run, Transition.run_cons_eq_some.2
    ⟨sys', h, rfl⟩⟩, fun i s send_to hmem => ?_, fun i => ?_, fun d => ?_⟩
  · rw [Transition.trace_concat ht.run, List.mem_append] at hmem
    rcases hmem with hold | hnew
    · rcases ht.signalled i s send_to hold with hmem | ⟨d, hd, hposts⟩
      · left
        rcases heffect.listener_cases i with hsame | ⟨la, hstep, -⟩
        · rwa [hsame]
        · rw [(Listener.speaks_step hstep).signalled]
          exact List.mem_append_left _ hmem
      · exact .inr ⟨d, hd, heffect.posts hposts⟩
    · exact heffect.signalled hnew
  · obtain ⟨hwf, hs⟩ := ht.listener i
    rcases heffect.listener_cases i with hsame | ⟨la, hstep, htaken⟩
    · rw [hsame]
      exact ⟨hwf, hs.mono (heffect.published i)⟩
    · exact ⟨hwf.step hstep, (hs.step hwf htaken hstep).mono (heffect.published i)⟩
  · have hkept : ∀ dialing : Dialing,
        dialing.Sourced site d (sys.lan (site.node d)).published →
          dialing.Sourced site d (sys'.lan (site.node d)).published := fun dialing hd =>
      { hd with connect := hd.connect.mono (heffect.published _) }
    rcases heffect.dialing_cases d with hsame | hmoves
    · rw [hsame]
      exact hkept _ (ht.dialing d)
    · exact hkept _ (hmoves.sourced (ht.dialing d))

theorem traced_of_run (h : Transition.run (step site) (start site) as = some sys) :
    Traced site as sys := by
  have hstart : Traced site [] (start site) := by
    refine ⟨rfl, nofun, fun i => ⟨Listener.wellFormed_bind, Listener.sourced_bind⟩, fun d => ?_⟩
    exact ⟨rfl, rfl, rfl, Connect.stage_start _ _, ⟨List.nil_subset _, nofun⟩⟩
  exact Transition.run_induction (P := Traced site) (fun _ _ _ _ ht hstep => ht.next hstep) hstart h

/-! ## Where a signal comes from -/

/-- The connection `c` of the listener on `j` was created for the offer of the call `d`, which was
for the id of `j`, from a node with another id. -/
structure Paired (site : Site ι κ Addr) (sys : Deployment ι κ Addr) (d : κ) (j : ι)
    (c : Listener.Connection) : Prop where
  offer : ∃ sdp, (sys.dialing d).dialer.local_description = some sdp ∧
    c.offer = { Signal.offer (site.connection_id d) sdp (site.remote_network_id d) with
      network_id := u64_to_string (site.network_id (site.node d)) }
  remote : parse_u64 (site.remote_network_id d) = .ok (site.network_id j)
  other : site.network_id (site.node d) ≠ site.network_id j

omit [DecidableEq ι] [DecidableEq κ] in
theorem Paired.connection_id {d : κ} {j : ι} {c : Listener.Connection}
    (h : Paired site sys d j c) : c.connection_id = site.connection_id d := by
  obtain ⟨sdp, -, hoffer⟩ := h.offer
  rw [Listener.Connection.connection_id, hoffer]
  rfl

/-- A published signal was signalled by a listener or a call on a node with another id. -/
theorem Traced.source (ht : Traced site as sys) {i : ι} {s : Signal}
    (hs : s ∈ (sys.lan i).published) : ∃ j s₀, site.network_id j ≠ site.network_id i ∧
      parse_u64 s₀.network_id = .ok (site.network_id i) ∧
      s = { s₀ with network_id := u64_to_string (site.network_id j) } ∧
      (s₀ ∈ (sys.listener j).signalled ∨
        ∃ d, site.node d = j ∧ (sys.dialing d).dialer.Posts s₀) := by
  obtain ⟨j, s₀, hne, ⟨before, a, lan, hbefore, -, send_to, rfl, -⟩, hid, heq⟩ :=
    (Lan.sound_of_run site.crypto_lawful site.hex_lawful (lan_run ht.run) i).published s hs
  refine ⟨j, s₀, hne, hid, heq, ht.signalled j s₀ send_to ?_⟩
  exact hbefore.subset (List.mem_append_right _ (List.mem_singleton_self _))

/-- **Every connection of a listener** was created for the offer of a call. -/
theorem Traced.paired (ht : Traced site as sys) {j : ι} {k : ℕ} {c : Listener.Connection}
    (hc : (sys.listener j).connections[k]? = some c) : ∃ d, Paired site sys d j c := by
  obtain ⟨hmem, htype⟩ := ((ht.listener j).2.connections k c hc).offer
  obtain ⟨i, s₀, hne, hid, heq, hlistener | ⟨d, rfl, hposts⟩⟩ := ht.source hmem
  · obtain ⟨_, c', -, ⟨rfl, -⟩ | ⟨json, rfl⟩⟩ := (ht.listener i).2.signalled s₀ hlistener
    · rw [heq] at htype
      cases htype
    · rw [heq] at htype
      cases htype
  · obtain ⟨sdp, hsdp, rfl⟩ | ⟨json, -, rfl⟩ := hposts
    · have hd := ht.dialing d
      rw [hd.connection_id, hd.remote_network_id] at heq
      refine ⟨d, ⟨sdp, hsdp, heq⟩, ?_, hne⟩
      rw [← hd.remote_network_id]
      exact hid
    · rw [heq] at htype
      cases htype

/-- The connections with the connection id of a call were created for its offer. -/
theorem Traced.paired_of_id (ht : Traced site as sys) {j : ι} {k : ℕ} {c : Listener.Connection}
    (hc : (sys.listener j).connections[k]? = some c) {d : κ}
    (hid : c.connection_id = site.connection_id d) : Paired site sys d j c := by
  obtain ⟨d', hpaired⟩ := ht.paired hc
  obtain rfl := site.connection_id_inj (hpaired.connection_id.symm.trans hid)
  exact hpaired

/-- **Where an answer comes from** that a call takes. -/
theorem Traced.answer (ht : Traced site as sys) {d : κ} {s : Signal}
    (hs : s ∈ (sys.lan (site.node d)).published) (hid : s.connection_id = site.connection_id d)
    (htype : s.signal_type = .Answer) : ∃ (j : ι) (k : ℕ) (c : Listener.Connection),
      (sys.listener j).connections[k]? = some c ∧ Paired site sys d j c ∧ c.answer = s.data := by
  obtain ⟨j, s₀, -, -, rfl, hlistener | ⟨d', -, hposts⟩⟩ := ht.source hs
  · obtain ⟨k, c, hc, ⟨rfl, -⟩ | ⟨json, rfl⟩⟩ := (ht.listener j).2.signalled s₀ hlistener
    · exact ⟨j, k, c, hc, ht.paired_of_id hc hid, rfl⟩
    · cases htype
  · obtain ⟨sdp, -, rfl⟩ | ⟨json, -, rfl⟩ := hposts
    · cases htype
    · cases htype

/-- **Where a candidate comes from** that is for the connection of a call, on its node or on that of
the listener. -/
theorem Traced.candidate (ht : Traced site as sys) {i : ι} {d : κ} {s : Signal}
    (hs : s ∈ (sys.lan i).published) (hid : s.connection_id = site.connection_id d)
    (htype : s.signal_type = .Candidate) :
    (∃ (j : ι) (k : ℕ) (c : Listener.Connection), (sys.listener j).connections[k]? = some c ∧
      Paired site sys d j c ∧ site.network_id (site.node d) = site.network_id i ∧
      Signal.candidate c.connection_id s.data c.offer.network_id ∈ (sys.listener j).signalled) ∨
    (site.network_id (site.node d) ≠ site.network_id i ∧
      s.data ∈ (sys.dialing d).dialer.gathered) := by
  obtain ⟨j, s₀, hne, hrecipient, rfl, hlistener | ⟨d', rfl, hposts⟩⟩ := ht.source hs
  · obtain ⟨k, c, hc, ⟨rfl, -⟩ | ⟨json, rfl⟩⟩ := (ht.listener j).2.signalled s₀ hlistener
    · cases htype
    · have hpaired := ht.paired_of_id hc hid
      obtain ⟨sdp, -, hoffer⟩ := hpaired.offer
      refine .inl ⟨j, k, c, hc, hpaired, ?_, hlistener⟩
      -- the listener signals to the node that the offer came from
      change parse_u64 c.offer.network_id = _ at hrecipient
      rw [hoffer, parse_u64_to_string] at hrecipient
      exact Except.ok.inj hrecipient
  · obtain ⟨sdp, -, rfl⟩ | ⟨json, hjson, rfl⟩ := hposts
    · cases htype
    · obtain rfl := site.connection_id_inj ((ht.dialing d').connection_id.symm.trans hid)
      exact .inr ⟨hne, hjson⟩

/-! ## One negotiation -/

/-- The cipher on the blocks of three more packets: the messages `CONNECTREQUEST 1 o` of node 7,
`CONNECTRESPONSE 1 a` of node 9 and `CANDIDATEADD 1 k` of node 9. -/
def negotiation_blocks : List (Block × Block) :=
  [(#v[48, 0, 2, 0, 7, 0, 0, 0, 0, 0, 0, 0, 0, 0, 0, 0],
    #v[206, 201, 48, 96, 211, 98, 150, 210, 187, 118, 16, 123, 44, 24, 231, 160]),
   (#v[0, 0, 0, 0, 9, 0, 0, 0, 0, 0, 0, 0, 18, 0, 0, 0],
    #v[123, 174, 121, 131, 93, 235, 31, 160, 233, 230, 6, 168, 224, 17, 222, 51]),
   (#v[67, 79, 78, 78, 69, 67, 84, 82, 69, 81, 85, 69, 83, 84, 32, 49],
    #v[212, 157, 102, 0, 213, 72, 217, 89, 156, 244, 145, 19, 28, 157, 207, 187]),
   (#v[32, 111, 14, 14, 14, 14, 14, 14, 14, 14, 14, 14, 14, 14, 14, 14],
    #v[170, 117, 231, 221, 160, 93, 40, 87, 190, 144, 34, 241, 215, 168, 20, 38]),
   (#v[49, 0, 2, 0, 9, 0, 0, 0, 0, 0, 0, 0, 0, 0, 0, 0],
    #v[107, 25, 85, 137, 145, 237, 25, 161, 10, 152, 248, 41, 219, 205, 170, 153]),
   (#v[0, 0, 0, 0, 7, 0, 0, 0, 0, 0, 0, 0, 19, 0, 0, 0],
    #v[242, 32, 121, 125, 185, 156, 82, 208, 254, 247, 40, 151, 203, 168, 48, 51]),
   (#v[67, 79, 78, 78, 69, 67, 84, 82, 69, 83, 80, 79, 78, 83, 69, 32],
    #v[65, 193, 192, 77, 130, 88, 127, 155, 166, 244, 164, 90, 5, 130, 113, 27]),
   (#v[49, 32, 97, 13, 13, 13, 13, 13, 13, 13, 13, 13, 13, 13, 13, 13],
    #v[131, 153, 197, 22, 209, 125, 192, 54, 170, 93, 28, 50, 29, 67, 27, 116]),
   (#v[46, 0, 2, 0, 9, 0, 0, 0, 0, 0, 0, 0, 0, 0, 0, 0],
    #v[98, 253, 47, 111, 152, 165, 88, 174, 192, 185, 172, 202, 161, 142, 144, 95]),
   (#v[0, 0, 0, 0, 7, 0, 0, 0, 0, 0, 0, 0, 16, 0, 0, 0],
    #v[197, 123, 1, 68, 227, 29, 183, 196, 79, 42, 159, 72, 180, 137, 47, 166]),
   (#v[67, 65, 78, 68, 73, 68, 65, 84, 69, 65, 68, 68, 32, 49, 32, 107],
    #v[147, 99, 83, 117, 248, 137, 167, 249, 139, 78, 175, 216, 125, 103, 130, 188])]

/-- Their checksums. -/
def negotiation_checksums : List (Bytes × Checksum) :=
  [([48, 0, 2, 0, 7, 0, 0, 0, 0, 0, 0, 0, 0, 0, 0, 0, 0, 0, 0, 0, 9, 0, 0, 0, 0, 0, 0, 0, 18, 0, 0,
    0, 67, 79, 78, 78, 69, 67, 84, 82, 69, 81, 85, 69, 83, 84, 32, 49, 32, 111],
    #v[8, 148, 249, 170, 23, 8, 241, 135, 154, 251, 64, 193, 235, 27, 159, 4, 198, 118, 177, 80,
      61, 203, 47, 197, 247, 193, 215, 216, 38, 215, 125, 153]),
   ([49, 0, 2, 0, 9, 0, 0, 0, 0, 0, 0, 0, 0, 0, 0, 0, 0, 0, 0, 0, 7, 0, 0, 0, 0, 0, 0, 0, 19, 0, 0,
    0, 67, 79, 78, 78, 69, 67, 84, 82, 69, 83, 80, 79, 78, 83, 69, 32, 49, 32, 97],
    #v[76, 178, 122, 199, 108, 209, 62, 118, 229, 113, 74, 240, 83, 239, 212, 150, 173, 230, 44,
      231, 206, 90, 174, 174, 63, 186, 200, 219, 161, 80, 148, 92]),
   ([46, 0, 2, 0, 9, 0, 0, 0, 0, 0, 0, 0, 0, 0, 0, 0, 0, 0, 0, 0, 7, 0, 0, 0, 0, 0, 0, 0, 16, 0, 0,
    0, 67, 65, 78, 68, 73, 68, 65, 84, 69, 65, 68, 68, 32, 49, 32, 107],
    #v[17, 207, 78, 253, 19, 209, 221, 46, 18, 228, 230, 34, 117, 242, 229, 162, 100, 161, 85, 120,
      211, 144, 218, 10, 13, 15, 184, 35, 112, 63, 157, 94])]

/-- Node 7 calls `connect` for node 9, with the connection id 1. -/
def lan_site : Site Bool Unit ℕ where
  crypto := .ofTable (Lan.blocks ++ negotiation_blocks) (Lan.checksums ++ negotiation_checksums)
  hex := .lowercase
  crypto_lawful := (Crypto.ofTable_exact _ _).toLawful
  hex_lawful := Hex.lowercase_lawful
  from_str _ := none
  network_id := Lan.ids
  addr := Lan.addresses
  node _ := false
  connection_id _ := 1
  connection_id_inj _ _ _ := rfl
  remote_network_id _ := u64_to_string 9

open LanSignaling (send_ok) in
/-- The offer and the answer, and a candidate each way. -/
def negotiation : List (Action Bool Unit ℕ) :=
  [.lan (.own true (.set_pong_data LanSignaling.world.bytes)),
    .lan (.own false (.tick (some 255) 0 send_ok)), .lan (.deliver false 0 true 1 send_ok),
    .lan (.deliver true 0 false 2 send_ok), .subscribe_listener true,
    .set_local_description () "o", .subscribe (), .signal_offer () send_ok,
    .lan (.deliver false 1 true 3 send_ok), .listen true 0,
    .listener true (.call (.ok "")) send_ok, .listener true .proceed send_ok,
    .listener true .proceed send_ok, .listener true (.call (.ok "")) send_ok,
    .listener true (.call (.ok "")) send_ok, .listener true (.call (.ok "a")) send_ok,
    .listener true (.call (.ok "")) send_ok, .listener true (.call (.ok "")) send_ok,
    .listener true .proceed send_ok, .lan (.deliver true 1 false 4 send_ok), .take () 0 false,
    .on_ice_candidate () "c" send_ok, .lan (.deliver false 2 true 5 send_ok), .listen true 1,
    .listener true (.recv 0) send_ok, .listener true (.on_ice_candidate 0 "k") send_ok,
    .lan (.deliver true 2 false 6 send_ok), .connect () (.call (.ok ())),
    .connect () (.call (.ok ())), .connect () .apply, .take () 1 true]

/-- Both have the answer, and the candidate of the other. -/
theorem run_negotiation : ∃ sys : Deployment Bool Unit ℕ,
    Transition.run (step lan_site) (start lan_site) negotiation = some sys ∧
      (sys.dialing ()).connect.answer = some "a" ∧
      (sys.dialing ()).connect.handed = [⟨"k", none, none, none⟩] ∧
      (sys.listener true).connections.map (·.handed) = [[⟨"c", none, none, none⟩]] := by
  have hrun : (Transition.run (step lan_site) (start lan_site) negotiation).map
      (fun sys => ((sys.dialing ()).connect.answer, (sys.dialing ()).connect.handed,
        (sys.listener true).connections.map (·.handed))) =
      some (some "a", [⟨"k", none, none, none⟩], [[⟨"c", none, none, none⟩]]) := by
    decide +kernel
  obtain ⟨sys, hsys, heq⟩ := Option.map_eq_some_iff.1 hrun
  simp only [Prod.mk.injEq] at heq
  exact ⟨sys, hsys, heq⟩

/-! ## Agreement -/

/-- **Both ends agree on the answer**: the answer with which a call of `connect` goes on is that of
a connection which a listener created for the offer of this call, on a node with the id it was
for. -/
theorem answer_agrees (hrun : Transition.run (step site) (start site) as = some sys) (d : κ)
    {data : String} (hanswer : (sys.dialing d).connect.answer = some data) :
    ∃ (j : ι) (k : ℕ) (c : Listener.Connection), (sys.listener j).connections[k]? = some c ∧
      Paired site sys d j c ∧ c.answer = data := by
  have ht := traced_of_run hrun
  have hd := ht.dialing d
  obtain ⟨s, hmem, hid, htype, rfl⟩ := hd.connect.answer data hanswer
  exact ht.answer (hd.connect.taken_subset hmem) (hid.trans hd.same_id) htype

/-- The answer of the negotiation. -/
theorem answer_agrees_negotiation : ∃ sys : Deployment Bool Unit ℕ,
    Transition.run (step lan_site) (start lan_site) negotiation = some sys ∧
      ∃ (j : Bool) (k : ℕ) (c : Listener.Connection),
        (sys.listener j).connections[k]? = some c ∧ Paired lan_site sys () j c ∧
          c.answer = "a" := by
  obtain ⟨sys, hrun, hanswer, -⟩ := run_negotiation
  exact ⟨sys, hrun, answer_agrees hrun () hanswer⟩

/-- **Both ends agree on the candidates**: a call hands over, or keeps back, only candidates
gathered by a listener's connection for its offer; and every connection of a listener is for the
offer of a call, and is handed only candidates which that call gathered. -/
theorem candidates_agree (hrun : Transition.run (step site) (start site) as = some sys) :
    (∀ d, ∀ x ∈ (sys.dialing d).connect.handed ++ (sys.dialing d).connect.pending_candidates,
      ∃ (j : ι) (k : ℕ) (c : Listener.Connection) (json : String),
        (sys.listener j).connections[k]? = some c ∧ Paired site sys d j c ∧
        Signal.candidate c.connection_id json c.offer.network_id ∈ (sys.listener j).signalled ∧
        x = candidate_init site.from_str json) ∧
      ∀ (j : ι) (k : ℕ) (c : Listener.Connection), (sys.listener j).connections[k]? = some c →
        ∃ d, Paired site sys d j c ∧
        ∀ x ∈ c.handed, ∃ json ∈ (sys.dialing d).dialer.gathered,
          x = candidate_init site.from_str json := by
  have ht := traced_of_run hrun
  constructor
  · intro d x hx
    have hd := ht.dialing d
    rw [hd.stage.handed_append_pending, Connect.candidates_of] at hx
    obtain ⟨s, hmem, rfl⟩ := List.mem_map.1 hx
    obtain ⟨hmem, hown⟩ := List.mem_filter.1 hmem
    obtain ⟨hid, htype⟩ := of_decide_eq_true hown
    rcases ht.candidate (hd.connect.taken_subset hmem) (hid.trans hd.same_id) htype with
      ⟨j, k, c, hc, hpaired, -, hsignalled⟩ | ⟨hne, -⟩
    · exact ⟨j, k, c, s.data, hc, hpaired, hsignalled, rfl⟩
    · exact absurd rfl hne
  · intro j k c hc
    obtain ⟨d, hpaired⟩ := ht.paired hc
    refine ⟨d, hpaired, fun x hx => ?_⟩
    obtain ⟨s, hmem, hid, htype, rfl⟩ :=
      ((ht.listener j).2.connections k c hc).received x (List.mem_append_left _ hx)
    rcases ht.candidate hmem (hid.trans hpaired.connection_id) htype with
      ⟨_, _, _, -, -, hsame, -⟩ | ⟨-, hjson⟩
    · exact absurd hsame hpaired.other
    · exact ⟨s.data, hjson, rfl⟩

/-- The candidate that was gathered by the listener's connection. -/
theorem candidates_agree_negotiation : ∃ sys : Deployment Bool Unit ℕ,
    Transition.run (step lan_site) (start lan_site) negotiation = some sys ∧
      ∃ (j : Bool) (k : ℕ) (c : Listener.Connection) (json : String),
        (sys.listener j).connections[k]? = some c ∧ Paired lan_site sys () j c ∧
        Signal.candidate c.connection_id json c.offer.network_id ∈ (sys.listener j).signalled ∧
        (⟨"k", none, none, none⟩ : RTCIceCandidateInit) =
          candidate_init lan_site.from_str json := by
  obtain ⟨sys, hrun, -, hhanded, -⟩ := run_negotiation
  refine ⟨sys, hrun, (candidates_agree hrun).1 () _ ?_⟩
  rw [hhanded]
  exact List.mem_append_left _ (List.mem_singleton_self _)

end Deployment

end Nethernet
