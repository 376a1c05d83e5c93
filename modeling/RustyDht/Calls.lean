import RustyDht.Network
import RustyDht.Operations

/-!
# Operations on a host

`find_node`, `get_peers` and `announce_peer` (`src/dht/operations.rs`) call `DHT::send_request` (`src/dht/dht.rs`), for several requests
at a time, and go on with whichever finishes first. Here such an operation runs on a host of a network: what it reads of the DHT is what
the DHT then has, its requests go through the socket of the host, and a request finishes with what is on its response channel, or with an
error. Everything else in the network goes on meanwhile.
-/

namespace RustyDht

variable {σ α : Type}

/-! ## Operations -/

/-- An operation: the requests that it waits for, and what it does in an iteration and with a finished request. -/
structure Operation (α : Type) where
  todos : α → List RequestTo
  /-- The next iteration may begin. -/
  ready : α → Bool
  step : α → LookupEvent → α

/-- `find_node`. -/
def FindNode.operation (S : UnstableSort) (readOnly : Bool) : Operation Lookup where
  todos := Lookup.todos
  ready := Lookup.ready
  step := FindNode.step S readOnly

/-- `get_peers`, after the `find_node` it starts with. -/
def GetPeers.operation (S : UnstableSort) (readOnly : Bool) : Operation GetPeers where
  todos self := self.lookup.todos
  ready self := self.lookup.ready
  step := GetPeers.step S readOnly

/-- `announce_peer`, after its `get_peers`: there are no iterations. -/
def AnnouncePeer.operation : Operation AnnouncePeer where
  todos := AnnouncePeer.todos
  ready _ := false
  step self
    | .round _ _ _ => self
    | .reply i result _ => self.step (i, result)

/-! ## What an operation asks of a DHT -/

namespace DHT

/-- `DHT::get_nodes`. -/
def getNodes : DHTM σ (List NodeWrapper) := lock (return (← get).buckets.getAllVerified)

/-- `DHT::get_id`. -/
def getId : DHTM σ Id := lock (return (← get).ourId)

/-- What an iteration reads of the DHT. -/
def getNodesAndId : DHTM σ (List NodeWrapper × Id) := do
  let nodes ← getNodes
  let ourId ← getId
  return (nodes, ourId)

/-- Where the task is among those that wait that waits on a channel. -/
def waiting (s : DHT σ) (ch : ChannelId) : Nat := s.awaiting.findIdx (fun task => task.receiver = ch)

end DHT

namespace Host

/-- `DHT::send_request` up to its wait for the response: the channel that it waits on, or the error that it returns. -/
def sendRequest (self : Host σ) (todo : RequestTo) : Except RustyDHTError ChannelId :=
  match todo.req.messageType with
  | .request _ =>
    if self.dht.socket.outgoingUp then .ok self.dht.socket.responseChannels.length
    else .error (.generalError "channel closed")
  | _ => .error (.generalError "This method is only for sending requests")

/-- `DHT::send_request` from the response on its channel on, if there is one: what it returns. -/
def receiveResponse (env : Env σ) (self : Host σ) (ch : ChannelId) (now nowNew : Instant) (nowSeen : Nat → Instant) :
    Option (Except Failure Message) :=
  match self.dht.awaiting[self.dht.waiting ch]?, (self.dht.socket.channel ch).head? with
  | some task, some reply =>
    some ((DHT.handleResponse env task.target reply now nowNew nowSeen).run.run
      { self.dht with awaiting := self.dht.awaiting.eraseIdx (self.dht.waiting ch) }).1
  | _, _ => none

end Host

/-! ## An operation on a host -/

/-- A network, and an operation on one of its hosts. -/
structure Calls (σ α : Type) where
  net : Network σ
  op : α
  /-- The response channels of the requests that the operation waits for, once they have been sent. -/
  receivers : List (Option ChannelId)
  /-- A panic has ended the operation. -/
  panicked : Bool

/-- What happens to an operation and around it. -/
inductive CallEvent where
  /-- Something else happens in the network. -/
  | other (e : NetworkEvent)
  /-- An iteration begins. -/
  | round (rng : Nat → UInt8 × UInt8)
  /-- A request is sent. -/
  | send (i : Nat) (now : Instant)
  /-- A request is responded to. -/
  | response (i : Nat) (now nowNew : Instant) (nowSeen nowCandidate : Nat → Instant)
  /-- A request times out, or its response channel is cleaned up. -/
  | giveUp (i : Nat) (text : String)

namespace Calls

/-- An operation that begins on a network. -/
def start (O : Operation α) (net : Network σ) (op : α) : Calls σ α :=
  { net, op, receivers := (O.todos op).map (fun _ => none), panicked := false }

/-- Whether an event takes the response to a request of the operation, which nothing else does. -/
def takes (b : Endpoint) (self : Calls σ α) : NetworkEvent → Bool
  | .host a (.response j _ _ _) | .host a (.giveUp j) =>
    match self.net.hosts a with
    | some host => a = b && ((host.dht.awaiting[j]?).any (fun task => some task.receiver ∈ self.receivers))
    | none => false
  | _ => false

/-- A request has finished. -/
def finish (O : Operation α) (self : Calls σ α) (i : Nat) (result : Except RustyDHTError Message) (now : Nat → Instant) : Calls σ α :=
  { self with op := O.step self.op (.reply i result now), receivers := self.receivers.eraseIdx i }

/-- An iteration begins. The DHT is asked for its nodes and its id. -/
def round (O : Operation α) (self : Calls σ α) (host : Host σ) (rng : Nat → UInt8 × UInt8) : Calls σ α :=
  if O.ready self.op then
    match (DHT.getNodesAndId.run.run host.dht).1 with
    | .ok (nodes, ourId) =>
      let op := O.step self.op (.round nodes ourId rng)
      { self with op, receivers := (O.todos op).map (fun _ => none) }
    | .error _ => { self with panicked := true }
  else self

/-- What an event is to the DHT of the host. -/
def hostEvents (O : Operation α) (self : Calls σ α) (host : Host σ) : CallEvent → List DHT.Event
  | .send i now =>
    match (O.todos self.op)[i]?, self.receivers[i]? with
    | some todo, some none => [.sendRequest todo.req todo.node.address (some todo.node.id) now]
    | _, _ => []
  | .response i now nowNew nowSeen _ =>
    match self.receivers[i]? with
    | some (some ch) => [.response (host.dht.waiting ch) now nowNew nowSeen]
    | _ => []
  | .giveUp i _ =>
    match self.receivers[i]? with
    | some (some ch) => [.giveUp (host.dht.waiting ch)]
    | _ => []
  | _ => []

/-- What an event is to the operation. A request that cannot be sent has finished; what comes in on its channel is handled by the DHT
before it is returned. -/
def act (env : Env σ) (O : Operation α) (self : Calls σ α) (host : Host σ) : CallEvent → Calls σ α
  | .other _ => self
  | .round rng => self.round O host rng
  | .send i now =>
    match (O.todos self.op)[i]?, self.receivers[i]? with
    | some todo, some none =>
      match host.sendRequest todo with
      | .ok ch => { self with receivers := self.receivers.set i (some ch) }
      | .error e => self.finish O i (.error e) (fun _ => now)
    | _, _ => self
  | .response i now nowNew nowSeen nowCandidate =>
    match self.receivers[i]? with
    | some (some ch) =>
      match host.receiveResponse env ch now nowNew nowSeen with
      | some (.ok reply) => self.finish O i (.ok reply) nowCandidate
      | some (.error (.error e)) => self.finish O i (.error e) nowCandidate
      | some (.error (.panic _)) => { self with panicked := true }
      | none => self
    | _ => self
  | .giveUp i text =>
    match self.receivers[i]? with
    | some (some _) => self.finish O i (.error (.timeoutError text)) (fun _ => 0)
    | _ => self

/-- What an event is to the network. -/
def networkEvents (b : Endpoint) (O : Operation α) (self : Calls σ α) : CallEvent → List NetworkEvent
  | .other e => if self.takes b e then [] else [e]
  | e =>
    match self.net.hosts b with
    | some host => if self.panicked then [] else (self.hostEvents O host e).map (.host b)
    | none => []

/-- What is left of the operation after an event. -/
def actOn (env : Env σ) (b : Endpoint) (O : Operation α) (self : Calls σ α) (e : CallEvent) : Calls σ α :=
  match self.net.hosts b with
  | some host => if self.panicked then self else self.act env O host e
  | none => self

/-- The network and the operation after an event. -/
def step (env : Env σ) (b : Endpoint) (O : Operation α) (self : Calls σ α) (e : CallEvent) : Calls σ α :=
  { self.actOn env b O e with net := Machine.run (Network.step env) self.net (self.networkEvents b O e) }

end Calls

end RustyDht
