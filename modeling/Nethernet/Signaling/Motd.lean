import Nethernet.Signaling.Contact

/-!
# Advertising a world

`src/builders/motd.rs`: the builder of the server data that a server gives to `set_pong_data`, and
what the clients on its network then discover. `advertised`: in every state of the network, a server
that sets what its builder has marshalled can be asked by any number of clients, and each discovers
data in which every field is what the last call for it has set, or its default.
-/

namespace Nethernet

open Foundations

/-- The builder. -/
structure NethernetMotd where
  server_data : ServerData

namespace NethernetMotd

def new (server_name level_name : String) : NethernetMotd := ⟨.new server_name level_name⟩

variable (motd : NethernetMotd)

def server_name (server_name : String) : NethernetMotd :=
  { motd with server_data := { motd.server_data with server_name } }

def level_name (level_name : String) : NethernetMotd :=
  { motd with server_data := { motd.server_data with level_name } }

def game_type (game_type : UInt8) : NethernetMotd :=
  { motd with server_data := { motd.server_data with game_type } }

def player_count (player_count : Int32) : NethernetMotd :=
  { motd with server_data := { motd.server_data with player_count } }

def max_player_count (max_player_count : Int32) : NethernetMotd :=
  { motd with server_data := { motd.server_data with max_player_count } }

def editor_world (editor_world : Bool) : NethernetMotd :=
  { motd with server_data := { motd.server_data with editor_world } }

def hardcore (hardcore : Bool) : NethernetMotd :=
  { motd with server_data := { motd.server_data with hardcore } }

def transport_layer (transport_layer : UInt8) : NethernetMotd :=
  { motd with server_data := { motd.server_data with transport_layer } }

def connection_type (connection_type : UInt8) : NethernetMotd :=
  { motd with server_data := { motd.server_data with connection_type } }

def build : ServerData := motd.server_data

def marshal : Except NethernetError Bytes := motd.server_data.marshal

/-! ## The last call for a field -/

/-- A call that sets a field. -/
inductive Setting
  | server_name (value : String)
  | level_name (value : String)
  | game_type (value : UInt8)
  | player_count (value : Int32)
  | max_player_count (value : Int32)
  | editor_world (value : Bool)
  | hardcore (value : Bool)
  | transport_layer (value : UInt8)
  | connection_type (value : UInt8)

/-- Make a call. -/
def set : Setting → NethernetMotd
  | .server_name value => motd.server_name value
  | .level_name value => motd.level_name value
  | .game_type value => motd.game_type value
  | .player_count value => motd.player_count value
  | .max_player_count value => motd.max_player_count value
  | .editor_world value => motd.editor_world value
  | .hardcore value => motd.hardcore value
  | .transport_layer value => motd.transport_layer value
  | .connection_type value => motd.connection_type value

/-- Make calls, one after another. -/
def sets (settings : List Setting) : NethernetMotd := settings.foldl set motd

namespace Setting

/-- The field has the value. -/
def Holds (d : ServerData) : Setting → Prop
  | server_name value => d.server_name = value
  | level_name value => d.level_name = value
  | game_type value => d.game_type = value
  | player_count value => d.player_count = value
  | max_player_count value => d.max_player_count = value
  | editor_world value => d.editor_world = value
  | hardcore value => d.hardcore = value
  | transport_layer value => d.transport_layer = value
  | connection_type value => d.connection_type = value

/-- Both set the same field. -/
def same_field : Setting → Setting → Bool
  | server_name _, server_name _ | level_name _, level_name _ | game_type _, game_type _
  | player_count _, player_count _ | max_player_count _, max_player_count _
  | editor_world _, editor_world _ | hardcore _, hardcore _ | transport_layer _, transport_layer _
  | connection_type _, connection_type _ => true
  | _, _ => false

/-- The settings that `new` starts from. -/
def defaults (name world : String) : List Setting :=
  [server_name name, level_name world, game_type 0, player_count 1, max_player_count 8,
    editor_world false, hardcore false, transport_layer 2, connection_type 4]

end Setting

variable {motd}

theorem sets_concat (settings : List Setting) (s : Setting) :
    motd.sets (settings ++ [s]) = (motd.sets settings).set s :=
  List.foldl_append

theorem sets_append (settings later : List Setting) :
    motd.sets (settings ++ later) = (motd.sets settings).sets later :=
  List.foldl_append

theorem new_eq_sets (server_name level_name : String) :
    new server_name level_name = motd.sets (Setting.defaults server_name level_name) := rfl

theorem holds_set (s : Setting) : s.Holds (motd.set s).build := by
  cases s <;> rfl

theorem holds_set_of_ne {s s' : Setting} (hne : s.same_field s' = false) (hs : s.Holds motd.build) :
    s.Holds (motd.set s').build := by
  cases s' <;> cases s <;> first | exact hs | cases hne

/-- **The last call for a field counts.** -/
theorem holds_sets {before later : List Setting} {s : Setting}
    (hlast : ∀ s' ∈ later, s.same_field s' = false) :
    s.Holds (motd.sets (before ++ s :: later)).build := by
  induction later using List.reverseRecOn with
  | nil =>
    rw [sets_concat]
    exact holds_set s
  | append_singleton later s' ih =>
    have hs := ih fun s'' hs'' => hlast s'' (List.mem_append_left _ hs'')
    have hne := hlast s' (List.mem_append_right _ (List.mem_singleton_self s'))
    have heq : before ++ s :: (later ++ [s']) = (before ++ s :: later) ++ [s'] := by simp
    rw [heq, sets_concat]
    exact holds_set_of_ne hne hs

end NethernetMotd

/-! ## What the network discovers -/

namespace Lan

open LanSignaling

variable {ι Addr : Type}

/-- A node asks for servers, or a datagram that was sent is delivered. -/
def Action.asks : Action ι Addr → Bool
  | .own _ (.tick ..) | .deliver .. => true
  | _ => false

variable [DecidableEq ι] {c : Crypto} {h : Hex} {id : ι → UInt64} {addr : ι → Addr}
  {lan : Lan ι Addr} {j : ι}

/-- **Any number of clients find a server**, one after another. -/
theorem inquiries_run (hc : c.Lawful) (hh : h.Lawful) {as : List (Action ι Addr)}
    (hrun : Transition.run (step c h addr) (start id) as = some lan) {clients : List ι}
    (hne : ∀ i ∈ clients, id i ≠ id j) {d : ServerData} (hserver : (lan j).server_data = some d)
    (broadcast_addr : Addr) (now : ℕ) :
    ∃ bs lan', (∀ b ∈ bs, b.asks) ∧
      Transition.Runs (step c h addr) (Direct addr broadcast_addr) lan bs lan' ∧
      (∀ i ∈ clients, (lan' i).discover (id j) = some d ∧
        (lan' i).get_address (id j) = some (addr j)) ∧
      ∀ k, k ≠ j → k ∉ clients → lan' k = lan k := by
  induction clients generalizing lan as with
  | nil => exact ⟨[], lan, List.forall_mem_nil _, .nil lan, List.forall_mem_nil _, fun _ _ _ => rfl⟩
  | cons i clients ih =>
    obtain ⟨hi, hclients⟩ := List.forall_mem_cons.1 hne
    have hij : i ≠ j := fun heq => hi (by rw [heq])
    have hid : ∀ k, (lan k).network_id = id k := fun k => (sound_of_run hc hh hrun k).network_id
    obtain ⟨lan₁, request, reply, hrun₁, hi₁, hj₁, hother₁⟩ := inquiry_run hc hh addr
      (by rwa [hid i, hid j]) hserver (fits_of_run hrun j d hserver) broadcast_addr now
    obtain ⟨bs, lan₂, hbs, hrun₂, hknows, hother₂⟩ := ih
      (Transition.run_append_eq_some.2 ⟨lan, hrun, hrun₁.run⟩) hclients (hj₁ ▸ hserver)
    refine ⟨lan.inquiry i j broadcast_addr now ++ bs, lan₂, List.forall_mem_append.2 ⟨?_, hbs⟩,
      hrun₁.append hrun₂, List.forall_mem_cons.2 ⟨?_, hknows⟩, fun k hkj hk => ?_⟩
    · simp [inquiry, Action.asks]
    · -- a client may ask again later
      by_cases hmem : i ∈ clients
      · exact hknows i hmem
      · rw [hother₂ i hij hmem, hi₁, ← hid j]
        refine ⟨Function.update_self .., ?_⟩
        rw [get_address]
        simp only [Function.update_self, Option.map_some]
    · obtain ⟨hki, hmem⟩ := List.ne_and_not_mem_of_not_mem_cons hk
      rw [hother₂ k hkj hmem, hother₁ k hki hkj]

/-- **A world is advertised as it was built**: in every state of the network that a run reaches, a
server can set what its builder has marshalled, and any clients with other ids can then ask it.
Each has discovered the same data, in which every field is what the last call for it has set, or its
default. -/
theorem advertised (hc : c.Lawful) (hh : h.Lawful) {as : List (Action ι Addr)}
    (hrun : Transition.run (step c h addr) (start id) as = some lan)
    {server_name level_name : String} {settings : List NethernetMotd.Setting} {data : Bytes}
    (hdata : ((NethernetMotd.new server_name level_name).sets settings).marshal = .ok data)
    {clients : List ι} (hne : ∀ i ∈ clients, id i ≠ id j) (broadcast_addr : Addr) (now : ℕ) :
    ∃ d bs lan', (∀ b ∈ bs, b.asks) ∧
      Transition.Runs (step c h addr) (Direct addr broadcast_addr) lan
        (.own j (.set_pong_data data) :: bs) lan' ∧
      (∀ i ∈ clients, (lan' i).discover (id j) = some d ∧
        (lan' i).get_address (id j) = some (addr j)) ∧
      ∀ before s later,
        NethernetMotd.Setting.defaults server_name level_name ++ settings = before ++ s :: later →
        (∀ s' ∈ later, s.same_field s' = false) → s.Holds d := by
  obtain ⟨motd, hmotd⟩ : ∃ motd, motd = (NethernetMotd.new server_name level_name).sets settings :=
    ⟨_, rfl⟩
  rw [← hmotd] at hdata
  -- the server takes the data
  obtain ⟨n, hn⟩ : ∃ n, n = { lan j with server_data := some motd.build } := ⟨_, rfl⟩
  have hact : (lan j).act c h (.set_pong_data data) = n := by
    rw [act, set_pong_data, ServerData.unmarshal_marshal hdata, hn]
    rfl
  have hset : step c h addr lan (.own j (.set_pong_data data)) = some (Function.update lan j n) :=
    step_own (by simp) hact
  have hserver : (Function.update lan j n j).server_data = some motd.build := by
    rw [Function.update_self, hn]
  -- the clients ask
  have hreached : Transition.run (step c h addr) (start id)
      (as ++ [.own j (.set_pong_data data)]) = some (Function.update lan j n) :=
    Transition.run_append_eq_some.2 ⟨lan, hrun, Transition.run_cons_eq_some.2 ⟨_, hset, rfl⟩⟩
  obtain ⟨bs, lan', hbs, hrun', hknows, -⟩ := inquiries_run hc hh hreached hne hserver
    broadcast_addr now
  refine ⟨motd.build, bs, lan', hbs, .cons trivial hset hrun', hknows,
    fun before s later heq hlast => ?_⟩
  have hall : motd = motd.sets (before ++ s :: later) := by
    rw [← heq, NethernetMotd.sets_append, ← NethernetMotd.new_eq_sets]
    exact hmotd
  rw [hall]
  exact NethernetMotd.holds_sets hlast

/-- Node 9 advertises another world, whose game type is set twice, and node 7 discovers it. -/
theorem advertised_exchange : ∃ d bs lan lan',
    Transition.run (step ofNetwork .lowercase addresses) (start ids) exchange = some lan ∧
      (∀ b ∈ bs, b.asks) ∧
      Transition.Runs (step ofNetwork .lowercase addresses) (Direct addresses 255) lan
        (.own true (.set_pong_data ((NethernetMotd.new "A" "B").sets
          [.game_type 1, .level_name "C", .game_type 2]).build.bytes) :: bs) lan' ∧
      (lan' false).discover 9 = some d ∧ d.server_name = "A" ∧ d.level_name = "C" ∧
      d.game_type = 2 := by
  obtain ⟨lan, hrun, -⟩ := run_exchange
  have hdata : ((NethernetMotd.new "A" "B").sets
      [.game_type 1, .level_name "C", .game_type 2]).marshal = .ok _ :=
    ServerData.marshal_ok_iff.2 ⟨⟨by decide, by decide, by decide, by decide, by decide⟩, rfl⟩
  have hne : ∀ i ∈ [false], ids i ≠ ids true := by decide
  obtain ⟨d, bs, lan', hbs, hrun', hknows, hlast⟩ := advertised ofNetwork_lawful
    Hex.lowercase_lawful hrun hdata hne 255 20
  have hname := hlast [] (.server_name "A") _ rfl (by decide)
  have hlevel := hlast (NethernetMotd.Setting.defaults "A" "B" ++ [.game_type 1]) (.level_name "C")
    [.game_type 2] rfl (by decide)
  have hgame := hlast (NethernetMotd.Setting.defaults "A" "B" ++ [.game_type 1, .level_name "C"])
    (.game_type 2) [] rfl (by decide)
  exact ⟨d, bs, lan, lan', hrun, hbs, hrun', (hknows false (List.mem_singleton_self _)).1, hname,
    hlevel, hgame⟩

end Lan

end Nethernet
