import RustyDht.Builder
import RustyDht.NodeBucketStorage
import RustyDht.Lib.Machine

/-!
# Operations

`find_node`, `get_peers` and `announce_peer` (`src/dht/operations.rs`). Between two awaits an operation runs alone, so it is a state
machine: an iteration of its loop up to the point where it has sent its requests is one step, and the handling of one finished
request is one step. Requests finish in any order, and each with any message or error. A timeout drops the loop at an await, so a
run may stop after any step.

What `dht.get_nodes()`, `dht.get_id()`, the clock and the random generator return is part of the events.
-/

namespace RustyDht

open Bucketable (getId)

/-! ## The shortlist -/

namespace Buckets

variable {T : Type} [Bucketable T]

/-- What both lookups do with a candidate: add it when no stored item has its id. -/
def offer (S : UnstableSort) (b : Buckets T) (candidate : T) : Buckets T :=
  if !b.contains (getId candidate) then (b.add S candidate none).1 else b

/-- The candidates of a list, one after the other. -/
def offerAll (S : UnstableSort) (b : Buckets T) (candidates : List T) : Buckets T := candidates.foldl (offer S) b

end Buckets

/-! ## Requests -/

/-- A future of `send_request`: the request, and the node it goes to, whose id the reply must have. -/
structure RequestTo where
  node : Node
  req : Message
  deriving DecidableEq

/-- The find_node request of a lookup. -/
def findNodeRequest (readOnly : Bool) (ourId target : Id) (rng : UInt8 × UInt8) : Message :=
  expect (MessageBuilder.build
    { messageType := .findNodeRequest, target := some target, readOnly := some readOnly, senderId := some ourId } rng) rfl

/-- The get_peers request of a lookup. -/
def getPeersRequest (readOnly : Bool) (ourId infoHash : Id) (rng : UInt8 × UInt8) : Message :=
  expect (MessageBuilder.build
    { messageType := .getPeersRequest, target := some infoHash, readOnly := some readOnly, senderId := some ourId } rng) rfl

/-! ## The loop of a lookup -/

/-- The variables of the loop that `find_node` and `get_peers` share. -/
structure Lookup where
  target : Id
  buckets : Buckets NodeWrapper
  bestIds : List Id
  /-- The requests that have not finished. -/
  todos : List RequestTo
  /-- The loop has been left: the nearest did not change in a round. -/
  done : Bool
  deriving DecidableEq

/-- What happens in a lookup: an iteration begins, or the request at an index among those outstanding finishes. -/
inductive LookupEvent where
  | round (nodes : List NodeWrapper) (ourId : Id) (rng : Nat → UInt8 × UInt8)
  | reply (i : Nat) (result : Except RustyDHTError Message) (now : Nat → Instant)

namespace Lookup

/-- The variables before the loop. -/
def new (target : Id) : Lookup :=
  { target, buckets := Buckets.new target 8, bestIds := [], todos := [], done := false }

/-- The nodes of the shortlist nearest to the target. -/
def nearest (S : UnstableSort) (self : Lookup) : List NodeWrapper := self.buckets.getNearestNodes S self.target none

/-- Whether the next iteration may begin: the loop has not been left and no request is outstanding. -/
def ready (self : Lookup) : Bool := !self.done && self.todos.isEmpty

/-- The main buckets of the DHT offered to the shortlist. -/
def seed (S : UnstableSort) (self : Lookup) (nodes : List NodeWrapper) : Lookup :=
  { self with buckets := self.buckets.offerAll S nodes }

/-- An iteration up to the wait for replies. With too few nodes in the shortlist the DHT may still be bootstrapping and the loop
starts over; when the nearest are those of the iteration before, it ends. -/
def round (S : UnstableSort) (tooFew : Nat → Bool) (request : Nat → Message) (self : Lookup) (nodes : List NodeWrapper) : Lookup :=
  let self := self.seed S nodes
  let nearest := self.nearest S
  if tooFew nearest.length then self
  else
    let bestIdsCurrent := nearest.map (·.node.id)
    if self.bestIds = bestIdsCurrent then { self with done := true }
    else { self with bestIds := bestIdsCurrent, todos := nearest.mapIdx (fun i nw => { node := nw.node, req := request i }) }

/-- The nodes that a reply lists, offered to the shortlist. -/
def candidates (S : UnstableSort) (self : Lookup) (nodes : List Node) (now : Nat → Instant) : Lookup :=
  { self with buckets := self.buckets.offerAll S (nodes.mapIdx (fun i node => NodeWrapper.new node (now i))) }

/-- A request is no longer outstanding. -/
def finish (self : Lookup) (i : Nat) : Lookup := { self with todos := self.todos.eraseIdx i }

end Lookup

/-! ## find_node -/

namespace FindNode

/-- A finished request of `find_node`: the nodes of a find_node response are candidates, any other outcome is logged. -/
def handle (S : UnstableSort) (self : Lookup) (result : Except RustyDHTError Message) (now : Nat → Instant) : Lookup :=
  match result with
  | .ok message =>
    match message.messageType with
    | .response (.findNodeResponse args) => self.candidates S args.nodes now
    | _ => self
  | .error _ => self

/-- The loop of `find_node`. -/
def step (S : UnstableSort) (readOnly : Bool) (self : Lookup) : LookupEvent → Lookup
  | .round nodes ourId rng =>
    if self.ready then
      self.round S (fun len => len == 0) (fun i => findNodeRequest readOnly ourId self.target (rng i)) nodes
    else self
  | .reply i result now =>
    match self.todos[i]? with
    | some _ => handle S (self.finish i) result now
    | none => self

end FindNode

/-- `find_node`, on the run of its loop up to its end or the timeout. -/
def findNode (S : UnstableSort) (readOnly : Bool) (target : Id) (events : List LookupEvent) : List Node :=
  ((Machine.run (FindNode.step S readOnly) (Lookup.new target) events).nearest S).map (·.node)

/-! ## get_peers -/

/-- `GetPeersResponder`. -/
structure GetPeersResponder where
  node : Node
  token : List UInt8
  deriving DecidableEq

/-- `GetPeersResult`. -/
structure GetPeersResult where
  infoHash : Id
  peers : List SocketAddr
  responders : List GetPeersResponder

/-- The comparator of `GetPeersResult::new`. -/
def GetPeersResponder.cmpDistance (infoHash : Id) (a b : GetPeersResponder) : Ordering :=
  (a.node.id.xor infoHash).cmpUnwrap (b.node.id.xor infoHash)

/-- `GetPeersResult::new`. -/
def GetPeersResult.new (S : UnstableSort) (infoHash : Id) (peers : List SocketAddr) (responders : List GetPeersResponder) :
    GetPeersResult :=
  { infoHash, peers, responders := S.sort (GetPeersResponder.cmpDistance infoHash) responders }

/-- The variables of `get_peers`. A hash set is the list of its elements. -/
structure GetPeers where
  lookup : Lookup
  uniquePeers : List SocketAddr
  responders : List GetPeersResponder
  deriving DecidableEq

namespace GetPeers

/-- The variables before the loop. The `find_node` that `get_peers` starts with changes none of them, and always returns. -/
def new (infoHash : Id) : GetPeers := { lookup := Lookup.new infoHash, uniquePeers := [], responders := [] }

/-- The values of a get_peers response: nodes are candidates, peers are collected. -/
def values (S : UnstableSort) (self : GetPeers) (values : GetPeersResponseValues) (now : Nat → Instant) : GetPeers :=
  match values with
  | .nodes n => { self with lookup := self.lookup.candidates S n now }
  | .peers p =>
    let insert := fun (unique : List SocketAddr) peer => if peer ∈ unique then unique else unique ++ [peer]
    { self with uniquePeers := p.foldl insert self.uniquePeers }

/-- A finished request of `get_peers`, sent to `node`. -/
def handle (S : UnstableSort) (self : GetPeers) (node : Node) (result : Except RustyDHTError Message) (now : Nat → Instant) :
    GetPeers :=
  match result with
  | .ok message =>
    match message.messageType with
    | .response (.getPeersResponse args) =>
      let self := { self with responders := self.responders ++ [GetPeersResponder.mk node args.token] }
      self.values S args.values now
    | _ => self
  | .error _ => self

/-- The loop of `get_peers`. -/
def step (S : UnstableSort) (readOnly : Bool) (self : GetPeers) : LookupEvent → GetPeers
  | .round nodes ourId rng =>
    if self.lookup.ready then
      let request := fun i => getPeersRequest readOnly ourId self.lookup.target (rng i)
      { self with lookup := self.lookup.round S (fun len => len ≤ 5) request nodes }
    else self
  | .reply i result now =>
    match self.lookup.todos[i]? with
    | some todo => handle S { self with lookup := self.lookup.finish i } todo.node result now
    | none => self

/-- What `get_peers` returns when its loop ends or times out. -/
def result (S : UnstableSort) (self : GetPeers) : GetPeersResult :=
  GetPeersResult.new S self.lookup.target self.uniquePeers self.responders

end GetPeers

/-- `get_peers`, on the run of its loop up to its end or the timeout. -/
def getPeers (S : UnstableSort) (readOnly : Bool) (infoHash : Id) (events : List LookupEvent) : GetPeersResult :=
  (Machine.run (GetPeers.step S readOnly) (GetPeers.new infoHash) events).result S

/-! ## announce_peer -/

/-- The announce_peer request to a responder. -/
def announcePeerRequest (readOnly : Bool) (ourId infoHash : Id) (port : Option UInt16) (token : List UInt8)
    (rng : UInt8 × UInt8) : Message :=
  expect (MessageBuilder.build
    { messageType := .announcePeerRequest, senderId := some ourId, readOnly := some readOnly, target := some infoHash,
      port := some (port.getD 0), impliedPort := some port.isNone, token := some token } rng) (by cases port <;> rfl)

/-- The variables of `announce_peer` after `get_peers`: the requests not finished, and the nodes announced to. -/
structure AnnouncePeer where
  todos : List RequestTo
  toRet : List Node

namespace AnnouncePeer

/-- The announce_peer requests to the first eight responders. -/
def requests (readOnly : Bool) (ourId infoHash : Id) (port : Option UInt16) (rng : Nat → UInt8 × UInt8)
    (responders : List GetPeersResponder) : List RequestTo :=
  (responders.take 8).mapIdx (fun i responder =>
    { node := responder.node, req := announcePeerRequest readOnly ourId infoHash port responder.token (rng i) })

/-- The request at an index among those outstanding finishes: a node that replied was announced to. -/
def step (self : AnnouncePeer) (e : Nat × Except RustyDHTError Message) : AnnouncePeer :=
  match self.todos[e.1]? with
  | some todo =>
    match e.2 with
    | .ok _ => { todos := self.todos.eraseIdx e.1, toRet := self.toRet ++ [todo.node] }
    | .error _ => { self with todos := self.todos.eraseIdx e.1 }
  | none => self

/-- The nodes announced to after the requests have finished in the order of the events. -/
def run (requests : List RequestTo) (events : List (Nat × Except RustyDHTError Message)) : List Node :=
  (Machine.run step { todos := requests, toRet := [] } events).toRet

end AnnouncePeer

end RustyDht
