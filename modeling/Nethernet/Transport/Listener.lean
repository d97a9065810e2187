import Mathlib.Logic.Function.Basic
import Nethernet.Foundations.Transition
import Nethernet.Protocol.Signal

/-!
# The listener

`src/transport/listener.rs`: the signal handler task of a listener, the task that `handle_offer`
spawns for each connection, and the clean-up on a change of the connection's state. They share
`signal_dispatchers` and `candidate_notifiers`, which hold the senders of the per-connection
channels and of the notifiers.

A state holds the point where the signal handler is, the connections in the order of their
creation, and the two maps; a channel is named by the index of its connection. A map entry is the
only sender of a channel, so a channel is closed when the entry is gone or replaced. One action is
one step of one task between two awaits, or an event of the connection; what the WebRTC crate, the
socket and the JSON parser answer is chosen by the action or a parameter.
-/

namespace Nethernet

open Foundations

/-- States of a peer connection. -/
inductive RTCPeerConnectionState
  | New
  | Connecting
  | Connected
  | Disconnected
  | Failed
  | Closed
  deriving DecidableEq, Repr

/-- The states in which the state handler removes the dispatcher. -/
def RTCPeerConnectionState.is_lost : RTCPeerConnectionState → Bool
  | Failed | Disconnected | Closed => true
  | _ => false

/-- A candidate for `add_ice_candidate`. -/
structure RTCIceCandidateInit where
  candidate : String
  sdp_mid : Option String
  sdp_mline_index : Option UInt16
  username_fragment : Option String
  deriving DecidableEq, Repr

/-- The candidate of a signal: its JSON form, or else the whole text. -/
def candidate_init (from_str : String → Option RTCIceCandidateInit) (data : String) :
    RTCIceCandidateInit :=
  (from_str data).getD ⟨data, none, none, none⟩

namespace Listener

/-- Where the task of a connection is. -/
inductive Task
  | Unspawned
  /-- At `signal_rx.recv()`. -/
  | Recv
  /-- At `add_ice_candidate`. -/
  | Adding
  /-- About to take the notifier, after the first candidate. -/
  | Notify
  | CleanDispatchers
  | CleanNotifiers
  | Ended
  deriving DecidableEq, Repr

/-- A connection that `handle_offer` created. -/
structure Connection where
  /-- The signal it was created for. -/
  offer : Signal
  state : RTCPeerConnectionState
  /-- Has `set_remote_description` returned? -/
  described : Bool
  /-- The SDP of the answer. -/
  answer : String
  /-- The channel: signals sent and not yet received. -/
  queue : List Signal
  task : Task
  first_candidate : Bool
  /-- The candidates handed to `add_ice_candidate`. -/
  handed : List RTCIceCandidateInit
  /-- Has the state handler been set? -/
  handler : Bool
  /-- The calls of the state handler that have been made, and those that have returned. -/
  pending : List RTCPeerConnectionState
  completed : List RTCPeerConnectionState
  deriving DecidableEq, Repr

namespace Connection

/-- A new connection. -/
def new (offer : Signal) : Connection where
  offer := offer
  state := .New
  described := false
  answer := ""
  queue := []
  task := .Unspawned
  first_candidate := true
  handed := []
  handler := false
  pending := []
  completed := []

abbrev connection_id (c : Connection) : UInt64 := c.offer.connection_id

end Connection

/-- The fallible calls of `handle_offer` on a connection, in their order. -/
inductive Call
  | parse_offer
  | set_remote_description
  | create_answer
  | set_local_description
  | signal_answer
  deriving DecidableEq, Repr

/-- Where the signal handler task is: waiting for a signal, or in `handle_offer`. -/
inductive Loop
  | Waiting
  | new_peer_connection (offer : Signal)
  | insert_notifier (i : ℕ)
  | insert_dispatcher (i : ℕ)
  | calling (i : ℕ) (call : Call)
  | set_handlers (i : ℕ)
  | Stopped
  deriving DecidableEq, Repr

namespace Call

/-- What follows a call that succeeds. -/
def next (i : ℕ) : Call → Loop
  | parse_offer => .calling i set_remote_description
  | set_remote_description => .calling i create_answer
  | create_answer => .calling i set_local_description
  | set_local_description => .calling i signal_answer
  | signal_answer => .set_handlers i

/-- What a call that succeeds with `text` does to the connection. -/
def perform (text : String) (c : Connection) : Call → Connection
  | set_remote_description => { c with described := true }
  | create_answer => { c with answer := text }
  | _ => c

/-- The signals that a call sends. -/
def signals (c : Connection) : Call → List Signal
  | signal_answer => [Signal.answer c.connection_id c.answer c.offer.network_id]
  | _ => []

end Call

end Listener

open Listener in
/-- A listener. -/
structure Listener where
  loop : Loop
  connections : List Connection
  signal_dispatchers : UInt64 → Option ℕ
  candidate_notifiers : UInt64 → Option ℕ
  /-- The connections whose notifier has been sent. -/
  notified : List ℕ
  /-- The connections whose offer was handled successfully, and all results of `handle_offer`. -/
  accepted : List ℕ
  returned : List (Except NethernetError Unit)
  /-- The signals given to the signaling implementation. -/
  signalled : List Signal

namespace Listener

/-- The steps of the tasks and the events of the connections. -/
inductive Action
  /-- The signal handler takes a signal from its stream, or is cancelled. -/
  | signal (signal : Signal)
  | stop
  /-- The call at which `handle_offer` is returns; the text is the SDP of an answer. -/
  | call (result : Except NethernetError String)
  /-- `handle_offer` takes a step that cannot fail. -/
  | proceed
  /-- The task of a connection takes a step. -/
  | recv (i : ℕ)
  | added (i : ℕ) (result : Except String Unit)
  | notify (i : ℕ)
  | clean_dispatchers (i : ℕ)
  | clean_notifiers (i : ℕ)
  /-- A connection changes its state, its state handler runs, or it gathers a candidate. -/
  | change (i : ℕ) (state : RTCPeerConnectionState)
  | handle (i : ℕ)
  | on_ice_candidate (i : ℕ) (candidate_json : String)
  deriving DecidableEq, Repr

/-- `bind`. -/
def bind : Listener where
  loop := .Waiting
  connections := []
  signal_dispatchers _ := none
  candidate_notifiers _ := none
  notified := []
  accepted := []
  returned := []
  signalled := []

/-- Replace the connection `i`. -/
def put (s : Listener) (i : ℕ) (c : Connection) : Listener :=
  { s with connections := s.connections.set i c }

/-- Remove a dispatcher; its channel closes. -/
def remove_dispatcher (s : Listener) (connection_id : UInt64) : Listener :=
  { s with signal_dispatchers := Function.update s.signal_dispatchers connection_id none }

/-- Remove a notifier. -/
def remove_notifier (s : Listener) (connection_id : UInt64) : Listener :=
  { s with candidate_notifiers := Function.update s.candidate_notifiers connection_id none }

/-- Send a signal to the channel of its connection, if there is one. -/
def dispatch (s : Listener) (signal : Signal) : Listener :=
  match s.signal_dispatchers signal.connection_id with
  | none => s
  | some i =>
    match s.connections[i]? with
    | none => s
    | some c => s.put i { c with queue := c.queue ++ [signal] }

/-- `handle_offer` returns. -/
def returns (s : Listener) (result : Except NethernetError Unit) : Listener :=
  { s with loop := .Waiting, returned := s.returned ++ [result] }

/-- The signal handler takes a signal. -/
def on_signal (s : Listener) (signal : Signal) : Option Listener :=
  if s.loop = .Waiting then
    if signal.signal_type = .Offer then some { s with loop := .new_peer_connection signal }
    else some (s.dispatch signal)
  else none

/-- The call at which `handle_offer` is returns. -/
def on_call (s : Listener) (result : Except NethernetError String) : Option Listener :=
  match s.loop with
  | .new_peer_connection offer =>
    match result with
    | .error e => some (s.returns (.error e))
    | .ok _ => some { s with
        loop := .insert_notifier s.connections.length
        connections := s.connections ++ [Connection.new offer] }
  | .calling i call =>
    match s.connections[i]?, result with
    | none, _ => none
    | some _, .error e => some (s.returns (.error e))
    | some c, .ok text => some { s.put i (call.perform text c) with
        loop := call.next i
        signalled := s.signalled ++ call.signals c }
  | _ => none

/-- `handle_offer` registers the notifier, then the dispatcher of the connection, whose task it
spawns, and sets the handlers at its end. -/
def proceed (s : Listener) : Option Listener :=
  match s.loop with
  | .insert_notifier i => (s.connections[i]?).map fun c => { s with
      loop := .insert_dispatcher i
      candidate_notifiers := Function.update s.candidate_notifiers c.connection_id (some i) }
  | .insert_dispatcher i => (s.connections[i]?).map fun c => { s.put i { c with task := .Recv } with
      loop := .calling i .parse_offer
      signal_dispatchers := Function.update s.signal_dispatchers c.connection_id (some i) }
  | .set_handlers i => (s.connections[i]?).map fun c =>
      { (s.put i { c with handler := true }).returns (.ok ()) with accepted := s.accepted ++ [i] }
  | _ => none

/-- The task of a connection receives the next signal, or finds its channel closed. -/
def recv (from_str : String → Option RTCIceCandidateInit) (s : Listener) (i : ℕ) (c : Connection) :
    Option Listener :=
  if c.task = .Recv then
    match c.queue with
    | signal :: queue =>
      if signal.signal_type = .Candidate then
        some (s.put i { c with
          queue := queue, task := .Adding
          handed := c.handed ++ [candidate_init from_str signal.data] })
      else some (s.put i { c with queue := queue })
    | [] =>
      if s.signal_dispatchers c.connection_id = some i then none
      else some (s.put i { c with task := .CleanDispatchers })
  else none

/-- `add_ice_candidate` returns. -/
def added (s : Listener) (i : ℕ) (c : Connection) (result : Except String Unit) : Option Listener :=
  if c.task = .Adding then
    match result with
    | .error _ => some (s.put i { c with task := .Recv })
    | .ok () =>
      if c.first_candidate then some (s.put i { c with first_candidate := false, task := .Notify })
      else some (s.put i { c with task := .Recv })
  else none

/-- The task takes the notifier and sends it. -/
def notify (s : Listener) (i : ℕ) (c : Connection) : Option Listener :=
  if c.task = .Notify then
    some { (s.put i { c with task := .Recv }).remove_notifier c.connection_id with
      notified := s.notified ++ (s.candidate_notifiers c.connection_id).toList }
  else none

/-- The task removes the dispatcher of its connection's id. -/
def clean_dispatchers (s : Listener) (i : ℕ) (c : Connection) : Option Listener :=
  if c.task = .CleanDispatchers then
    some ((s.put i { c with task := .CleanNotifiers }).remove_dispatcher c.connection_id)
  else none

/-- The task removes the notifier of its connection's id, and ends. -/
def clean_notifiers (s : Listener) (i : ℕ) (c : Connection) : Option Listener :=
  if c.task = .CleanNotifiers then
    some ((s.put i { c with task := .Ended }).remove_notifier c.connection_id)
  else none

/-- A connection that is not closed changes its state, and calls the state handler, if it is set. -/
def change (s : Listener) (i : ℕ) (c : Connection) (state : RTCPeerConnectionState) :
    Option Listener :=
  if c.state = .Closed then none
  else some (s.put i { c with
    state := state, pending := if c.handler then c.pending ++ [state] else c.pending })

/-- The state handler runs for the first call that has not returned. -/
def handle (s : Listener) (i : ℕ) (c : Connection) : Option Listener :=
  match c.pending with
  | [] => none
  | state :: pending =>
    let s := s.put i { c with pending := pending, completed := c.completed ++ [state] }
    some (if state.is_lost then s.remove_dispatcher c.connection_id else s)

/-- A connection has gathered a candidate, which is signalled to its peer. -/
def on_ice_candidate (s : Listener) (c : Connection) (candidate_json : String) : Listener :=
  { s with signalled :=
      s.signalled ++ [Signal.candidate c.connection_id candidate_json c.offer.network_id] }

/-- One step. -/
def step (from_str : String → Option RTCIceCandidateInit) : Transition Listener Action
  | s, .signal signal => s.on_signal signal
  | s, .stop => if s.loop = .Waiting then some { s with loop := .Stopped } else none
  | s, .call result => s.on_call result
  | s, .proceed => s.proceed
  | s, .recv i => (s.connections[i]?).bind (s.recv from_str i)
  | s, .added i result => (s.connections[i]?).bind (s.added i · result)
  | s, .notify i => (s.connections[i]?).bind (s.notify i)
  | s, .clean_dispatchers i => (s.connections[i]?).bind (s.clean_dispatchers i)
  | s, .clean_notifiers i => (s.connections[i]?).bind (s.clean_notifiers i)
  | s, .change i state => (s.connections[i]?).bind (s.change i · state)
  | s, .handle i => (s.connections[i]?).bind (s.handle i)
  | s, .on_ice_candidate i json => (s.connections[i]?).map (s.on_ice_candidate · json)

end Listener

end Nethernet
