import RustyDht.Builder
import RustyDht.NodeBucketStorage
import RustyDht.PeerStorage
import RustyDht.Socket

/-!
# The DHT

`DHT` and its event loop (`src/dht/dht.rs`), around the socket, the node storage and the peer storage. A handler is a program over
the state that may fail, with an error or with a panic, and keeps what it changed until then. What a task does between two awaits is
one step; the requests that are sent in a task of their own, and those whose sender waits for the response, are part of the state.

The clock, the random generator, the resolved addresses of the routers and the verdict of the throttler are arguments. The
subscribers of events and the texts of the log are left out.
-/

namespace RustyDht

open Bencode (Codec)

/-! ## What the DHT is made with -/

/-- The fields of `DHTSettings` that the handlers read. -/
structure DHTSettings where
  tokenSecretSize : Nat
  maxPeersResponse : Nat
  maxSampleResponse : Nat
  minSampleIntervalSecs : Int32
  reverifyIntervalSecs : Nat
  reverifyGracePeriodSecs : Nat
  verifyGracePeriodSecs : Nat
  getPeersFreshnessSecs : Nat
  findNodesSkipCount : Nat
  maxTorrents : Nat
  maxPeersPerTorrent : Nat
  readOnly : Bool

/-- `DHTSettings::default`. -/
def DHTSettings.default : DHTSettings where
  tokenSecretSize := 10
  maxPeersResponse := 128
  maxSampleResponse := 50
  minSampleIntervalSecs := 10
  reverifyIntervalSecs := 14 * 60
  reverifyGracePeriodSecs := 15 * 60
  verifyGracePeriodSecs := 60
  getPeersFreshnessSecs := 15 * 60
  findNodesSkipCount := 32
  maxTorrents := 50
  maxPeersPerTorrent := 100
  readOnly := false

/-- `IPV4AddrSource`, the state of the implementation being of any type. Its functions do not panic. -/
structure IPV4AddrSource (σ : Type) where
  getBestIpv4 : σ → Option Ipv4Addr
  addVote : σ → Ipv4Addr → Ipv4Addr → σ
  decay : σ → σ

/-- `StaticIPV4AddrSource`, whose state is the address it always returns. -/
def IPV4AddrSource.static : IPV4AddrSource Ipv4Addr where
  getBestIpv4 := some
  addVote ip _ _ := ip
  decay ip := ip

/-- The code the DHT rests on: the unstable sort of the standard library, the CRC-32C of the crc crate, the bencoding of the wire
and the source of its own address. -/
structure Env (σ : Type) where
  sort : UnstableSort
  checksumCastagnoli : List UInt8 → UInt32
  codec : Codec
  ip4Source : IPV4AddrSource σ

/-- `partial_shuffle` of the rand crate: as many elements as asked for, at random places of the slice. -/
structure PartialShuffle where
  run : List Id → Nat → List Id
  subperm : ∀ l n, (run l n).Subperm l
  length : ∀ l n, (run l n).length = min n l.length

/-! ## The state -/

/-- A request that a task of its own will send. -/
inductive SpawnedTask where
  | ping (target : SocketAddr) (targetId : Option Id)
  | findNode (dest : SocketAddr) (destId : Option Id) (target : Id)

/-- Where a spawned task will send its request. -/
def SpawnedTask.dest : SpawnedTask → SocketAddr
  | .ping target _ => target
  | .findNode dest _ _ => dest

/-- A task that waits on the response channel of a request it sent. -/
structure AwaitingTask where
  target : SocketAddr
  receiver : ChannelId

/-- `DHT`, its `DHTState` and its tasks. -/
structure DHT (σ : Type) where
  socket : DHTSocket
  ip4Source : σ
  ourId : Id
  buckets : NodeBucketStorage
  peerStorage : PeerStorage
  tokenSecret : List UInt8
  oldTokenSecret : List UInt8
  settings : DHTSettings
  /-- A panic has poisoned the lock on the state. -/
  poisoned : Bool
  /-- `run_event_loop` has not returned. -/
  running : Bool
  spawned : List SpawnedTask
  awaiting : List AwaitingTask
  /-- What `periodic_find_node` counted as unverified before it pings the routers. -/
  countUnverified : Option Nat

/-- A handler of the DHT. -/
abbrev DHTM (σ α : Type) := ExceptT Failure (StateM (DHT σ)) α

namespace DHT

variable {σ : Type}

/-- `make_token_secret`. -/
def makeTokenSecret (size : Nat) (rng : Nat → UInt8) : List UInt8 := (List.range size).map rng

/-- The id a new DHT takes: the one given, one for the best address, or a random one. -/
def initialId (env : Env σ) (id : Option Id) (ip4Source : σ) (rng : Nat → UInt8) (random : Id) : Except Panic Id :=
  match id with
  | some id => .ok id
  | none =>
    match env.ip4Source.getBestIpv4 ip4Source with
    | some ip => Id.fromIp env.checksumCastagnoli (.v4 ip) rng
    | none => .ok random

/-- `DHT::new`, with the socket bound. -/
def new (env : Env σ) (id : Option Id) (ip4Source : σ) (buckets : NodeBucketStorage) (settings : DHTSettings)
    (rng secretRng : Nat → UInt8) (random : Id) : Except Panic (DHT σ) := do
  let ourId ← initialId env id ip4Source rng random
  let tokenSecret := makeTokenSecret settings.tokenSecretSize secretRng
  return {
    socket := .new
    ip4Source, ourId, settings
    buckets := buckets.setId ourId
    peerStorage := .new settings.maxTorrents settings.maxPeersPerTorrent
    tokenSecret, oldTokenSecret := tokenSecret
    poisoned := false, running := true
    spawned := [], awaiting := [], countUnverified := none }

/-- A panic while the lock is held poisons it. -/
def poison {α : Type} : Except Failure α × DHT σ → Except Failure α × DHT σ
  | (.error (.panic p), s) => (.error (.panic p), { s with poisoned := true })
  | r => r

/-- What is done while the lock on the state is held. To take a poisoned lock is to panic. -/
def lock {α : Type} (x : DHTM σ α) : DHTM σ α := ExceptT.mk fun s =>
  if s.poisoned then (.error (.panic ⟨"called `Result::unwrap()` on an `Err` value: PoisonError"⟩), s)
  else poison (x.run.run s)

/-- A result that a handler returns early on. -/
def lift {α : Type} (r : Except Failure α) : DHTM σ α := MonadExcept.ofExcept r

/-- The author of a message, or a failure if it has none. -/
def authorOr (failure : Failure) (msg : Message) : Except Failure Id :=
  match msg.getAuthorId with
  | some id => .ok id
  | none => .error failure

/-- `DHTSocket::send_to`, which fails once the outgoing task has ended. -/
def sendTo (toSend : Message) (dest : SocketAddr) (destId : Option Id) (now : Instant) : DHTM σ Unit := do
  modify (fun s => { s with socket := s.socket.sendTo toSend dest destId now })
  if !(← get).socket.outgoingUp then throw (.error (.generalError "channel closed"))

/-- `calculate_token`. -/
def calculateToken (checksumCastagnoli : List UInt8 → UInt32) (remote : SocketAddr) (secret : List UInt8) : List UInt8 :=
  let octets := match remote.ip with
    | .v4 ip => ip.octets
    | .v6 ip => ip.octets
  u32ToBeBytes (checksumCastagnoli (octets ++ secret))

/-! ## Incoming requests -/

/-- `add_or_update` on the node storage. -/
def addOrUpdate (env : Env σ) (node : Node) (verified : Bool) (now nowNew : Instant) : DHTM σ Unit :=
  modify (fun s => { s with buckets := s.buckets.addOrUpdate env.sort node verified now nowNew })

/-- `DHT::common_request_handling`. -/
def commonRequestHandling (env : Env σ) (remoteAddr : SocketAddr) (msg : Message) (now : Instant) : DHTM σ Unit := do
  let senderId ← lift (authorOr (.error (.packetParseError "Failed to extract sender's id")) msg)
  -- Is id valid for IP?
  let isIdValid ← lift (orPanic (senderId.isValidForIp env.checksumCastagnoli remoteAddr.ip))
  let readOnly := msg.readOnly.getD false
  if isIdValid && !readOnly then
    lock (addOrUpdate env ⟨senderId, remoteAddr⟩ false now now)

/-- The reply to a ping. -/
def pingReply (msg : Message) (addr : SocketAddr) : DHTM σ Message := do
  let ourId ← lock (return (← get).ourId)
  lift (MessageBuilder.build {
    messageType := .pingResponse, senderId := some ourId, transactionId := some msg.transactionId
    requesterIp := some addr } (0, 0))

/-- The reply to get_peers: peers that announced of late, or else the nearest nodes. -/
def getPeersReply (env : Env σ) (arguments : GetPeersRequestArguments) (msg : Message) (addr : SocketAddr) (now : Instant) :
    DHTM σ Message := lock do
  let s ← get
  let newerThan := Instant.checkedSub now (Duration.fromSecs s.settings.getPeersFreshnessSecs)
  let peers := (s.peerStorage.getPeers arguments.infoHash newerThan).1.take s.settings.maxPeersResponse
  set { s with peerStorage := (s.peerStorage.getPeers arguments.infoHash newerThan).2 }
  let token := calculateToken env.checksumCastagnoli addr s.tokenSecret
  let reply : MessageBuilder := {
    messageType := .getPeersResponse, senderId := some s.ourId, transactionId := some msg.transactionId
    requesterIp := some addr, token := some token }
  if peers.length = 0 then
    let nearest := s.buckets.getNearestNodes env.sort arguments.infoHash (some arguments.requesterId)
    lift (MessageBuilder.build { reply with nodes := some nearest } (0, 0))
  else lift (MessageBuilder.build { reply with peers := some peers } (0, 0))

/-- The reply to find_node. -/
def findNodeReply (env : Env σ) (arguments : FindNodeRequestArguments) (msg : Message) (addr : SocketAddr) :
    DHTM σ Message := lock do
  let s ← get
  let nearest := s.buckets.getNearestNodes env.sort arguments.target (some arguments.requesterId)
  lift (MessageBuilder.build {
    messageType := .findNodeResponse, senderId := some s.ourId, transactionId := some msg.transactionId
    requesterIp := some addr, nodes := some nearest } (0, 0))

/-- The reply to announce_peer, if the token is one we gave: the peer is stored, under the port of the packet when it says so. -/
def announcePeerReply (env : Env σ) (arguments : AnnouncePeerRequestArguments) (msg : Message) (addr : SocketAddr)
    (now : Instant) : DHTM σ (Option Message) := lock do
  let s ← get
  let isTokenValid := arguments.token == calculateToken env.checksumCastagnoli addr s.tokenSecret ||
    arguments.token == calculateToken env.checksumCastagnoli addr s.oldTokenSecret
  if isTokenValid then
    let sockaddr := match arguments.impliedPort with
      | some true => addr
      | _ => addr.setPort arguments.port
    set { s with peerStorage := s.peerStorage.announcePeer arguments.infoHash sockaddr now }
    let reply ← lift (MessageBuilder.build {
      messageType := .announcePeerResponse, senderId := some s.ourId, transactionId := some msg.transactionId
      requesterIp := some addr } (0, 0))
    return some reply
  else return none

/-- The interval of a sample_infohashes response, which panics if the setting is negative. -/
def sampleInterval (settings : DHTSettings) : Except Failure Duration :=
  if settings.minSampleIntervalSecs < 0 then
    .error (.panic ⟨"called `Result::unwrap()` on an `Err` value: TryFromIntError(())"⟩)
  else .ok (Duration.fromSecs settings.minSampleIntervalSecs.toInt.toNat)

/-- The reply to sample_infohashes. -/
def sampleInfoHashesReply (env : Env σ) (arguments : SampleInfoHashesRequestArguments) (msg : Message) (addr : SocketAddr)
    (shuffle : PartialShuffle) : DHTM σ Message := lock do
  let s ← get
  let nearest := s.buckets.getNearestNodes env.sort arguments.target (some arguments.requesterId)
  let totalInfoHashes := s.peerStorage.getInfoHashes.length
  let infoHashes := shuffle.run s.peerStorage.getInfoHashes s.settings.maxSampleResponse
  let interval ← lift (sampleInterval s.settings)
  lift (MessageBuilder.build {
    messageType := .sampleInfoHashesResponse, senderId := some s.ourId, transactionId := some msg.transactionId
    requesterIp := some addr, interval := some interval, nodes := some nearest, samples := some infoHashes
    numInfohashes := some totalInfoHashes } (0, 0))

/-- `DHT::accept_single_packet`: only requests are answered. -/
def acceptSinglePacket (env : Env σ) (msg : Message) (addr : SocketAddr) (now : Nat → Instant) (shuffle : PartialShuffle) :
    DHTM σ Unit := do
  match msg.messageType with
  | .request requestVariant =>
    commonRequestHandling env addr msg (now 0)
    match requestVariant with
    | .pingRequest arguments =>
      let reply ← pingReply msg addr
      sendTo reply addr (some arguments.requesterId) (now 1)
    | .getPeersRequest arguments =>
      let reply ← getPeersReply env arguments msg addr (now 1)
      sendTo reply addr (some arguments.requesterId) (now 2)
    | .findNodeRequest arguments =>
      let reply ← findNodeReply env arguments msg addr
      sendTo reply addr (some arguments.requesterId) (now 1)
    | .announcePeerRequest arguments =>
      let reply ← announcePeerReply env arguments msg addr (now 1)
      match reply with
      | some reply => sendTo reply addr (some arguments.requesterId) (now 2)
      | none => return ()
    | .sampleInfoHashesRequest arguments =>
      let reply ← sampleInfoHashesReply env arguments msg addr shuffle
      sendTo reply addr (some arguments.requesterId) (now 1)
  -- Responses should be handled by the sender via notification channel.
  | .response _ => return ()
  | .error _ => return ()

/-- The body of the loop of `DHT::accept_incoming_packets`, on what `recv_from` returned. -/
def acceptIncomingPacket (env : Env σ) (msg : Message) (addr : SocketAddr) (throttled : Bool) (now : Nat → Instant)
    (shuffle : PartialShuffle) : DHTM σ Unit := do
  if throttled then return ()
  -- Filter out packets sent from port 0. We can't reply to these.
  else if addr.port = 0 then return ()
  else
    if !(← get).settings.readOnly then acceptSinglePacket env msg addr now shuffle
    -- The lock is taken once more, for the subscribers.
    lock (return ())

/-! ## Requests and their responses -/

/-- `DHT::ip4_vote_helper`. -/
def ip4VoteHelper (env : Env σ) (addr : SocketAddr) (msg : Message) : DHTM σ Unit :=
  match addr.ip, msg.requesterIp with
  | .v4 theirIp, some (.v4 theyClaim _) =>
    modify (fun s => { s with ip4Source := env.ip4Source.addVote s.ip4Source theirIp theyClaim })
  | _, _ => return ()

/-- `DHT::common_send_and_handle_response` up to its wait for the response. -/
def commonSend (msg : Message) (target : SocketAddr) (targetId : Option Id) (now : Instant) : DHTM σ Unit :=
  match msg.messageType with
  | .request _ => do
    let receiver := (← get).socket.responseChannels.length
    sendTo msg target targetId now
    modify (fun s => { s with awaiting := s.awaiting ++ [{ target, receiver }] })
  | _ => throw (.error (.generalError "This method is only for sending requests"))

/-- The nodes that a find_node response lists are seen, where their ids are valid for their addresses. -/
def seeNodes (env : Env σ) (nodes : List Node) (now : Nat → Instant) : DHTM σ Unit :=
  nodes.zipIdx.forM (fun (node, i) => do
    let idIsValid ← lift (orPanic (node.id.isValidForIp env.checksumCastagnoli node.address.ip))
    if idIsValid then addOrUpdate env node false (now i) (now i))

/-- Special handling for find_node responses: the nodes we got back will be pinged later in an attempt to verify them. -/
def seeListed (env : Env σ) (responseVariant : ResponseSpecific) (now : Nat → Instant) : DHTM σ Unit :=
  match responseVariant with
  | .findNodeResponse args => lock (seeNodes env args.nodes now)
  | _ => return ()

/-- `DHT::common_send_and_handle_response` from the response on. -/
def handleResponse (env : Env σ) (target : SocketAddr) (reply : Message) (now nowNew : Instant) (nowSeen : Nat → Instant) :
    DHTM σ Message := do
  match reply.messageType with
  | .response responseVariant =>
    let theirId ← lift (authorOr (.panic ⟨"response doesn't have Id!?"⟩) reply)
    let idIsValid ← lift (orPanic (theirId.isValidForIp env.checksumCastagnoli target.ip))
    -- Node is fit to be in our routing buckets and vote on our IPv4 only if its id is valid for its IP.
    if idIsValid then
      lock do
        ip4VoteHelper env target reply
        addOrUpdate env ⟨theirId, target⟩ true now nowNew
    seeListed env responseVariant nowSeen
    return reply
  | _ => throw (.error (.generalError "Received wrong Message type as response"))

/-- `DHT::ping_internal`: the request is sent by a task of its own. -/
def pingInternal (target : SocketAddr) (targetId : Option Id) : DHTM σ Unit :=
  modify (fun s => { s with spawned := s.spawned ++ [.ping target targetId] })

/-- `DHT::find_node_internal`: the request is sent by a task of its own. -/
def findNodeInternal (dest : SocketAddr) (destId : Option Id) (target : Id) : DHTM σ Unit :=
  modify (fun s => { s with spawned := s.spawned ++ [.findNode dest destId target] })

/-- The request of a spawned task, made when it runs. -/
def SpawnedTask.request (task : SpawnedTask) (ourId : Id) (readOnly : Bool) (rng : UInt8 × UInt8) : Message :=
  match task with
  | .ping _ _ => expect (MessageBuilder.build
      { messageType := .pingRequest, senderId := some ourId, readOnly := some readOnly } rng) rfl
  | .findNode _ _ target => expect (MessageBuilder.build
      { messageType := .findNodeRequest, senderId := some ourId, readOnly := some readOnly, target := some target } rng) rfl

/-- A spawned task up to its wait for the response. -/
def runSpawned (task : SpawnedTask) (now : Instant) (rng : UInt8 × UInt8) : DHTM σ Unit := do
  let req ← lock do
    let s ← get
    return SpawnedTask.request task s.ourId s.settings.readOnly rng
  match task with
  | .ping target targetId => commonSend req target targetId now
  | .findNode dest destId _ => commonSend req dest destId now

/-! ## The loops -/

/-- Whether `periodic_buddy_ping` passes a node over: it was verified of late. -/
def verifiedSince (pingIfOlderThan : Instant) (wrapper : NodeWrapper) : Bool :=
  match wrapper.lastVerified with
  | some lastVerified => lastVerified ≥ pingIfOlderThan
  | none => false

/-- A turn of `DHT::periodic_buddy_ping`: prune, and ping everybody not verified of late. -/
def periodicBuddyPing (now : Nat → Instant) : DHTM σ Unit := do
  let reverifyIntervalSecs ← lock do
    let s ← get
    let reverifyGracePeriod := Duration.fromSecs s.settings.reverifyGracePeriodSecs
    let verifyGracePeriod := Duration.fromSecs s.settings.verifyGracePeriodSecs
    set { s with buckets := s.buckets.prune reverifyGracePeriod verifyGracePeriod (now 0) (now 1) }
    return s.settings.reverifyIntervalSecs
  match Instant.checkedSub (now 2) (Duration.fromSecs reverifyIntervalSecs) with
  | none => return ()
  | some pingIfOlderThan =>
    let (unverified, verified) ← lock do
      let s ← get
      return (s.buckets.getAllUnverified, s.buckets.getAllVerified)
    let pingStale := fun (wrapper : NodeWrapper) =>
      if verifiedSince pingIfOlderThan wrapper then return ()
      else pingInternal wrapper.node.address (some wrapper.node.id)
    unverified.forM pingStale
    verified.forM pingStale

/-- `DHT::ping_routers`, on the addresses that the routers' names resolve to: the first IPv4 address of each is pinged. -/
def pingRouters (routers : List (List SocketAddr)) : DHTM σ Unit :=
  routers.forM (fun addrs =>
    match addrs.find? (·.isIpv4) with
    | some addr => pingInternal addr none
    | none => return ())

/-- The first half of a turn of `DHT::periodic_find_node`: if we don't know anybody, force a router ping. -/
def periodicFindNodeCount (routers : List (List SocketAddr)) : DHTM σ Unit := do
  let (countUnverified, countVerified) ← lock do
    let s ← get
    return s.buckets.count
  if countVerified = 0 then pingRouters routers
  modify (fun s => { s with countUnverified := some countUnverified })

/-- The second half of a turn of `DHT::periodic_find_node`: ask the nodes nearest to an id near ours about it. -/
def periodicFindNode (env : Env σ) (countUnverified : Nat) (random : Id) : DHTM σ Unit := do
  modify (fun s => { s with countUnverified := none })
  let (nearestNodes, idNearUs) ← lock do
    let s ← get
    if countUnverified > s.settings.findNodesSkipCount then return ([], s.ourId)
    else
      let idNearUs := expect (orReturn (s.ourId.makeMutant 4 random)) rfl
      return (s.buckets.getNearestNodes env.sort idNearUs none, idNearUs)
  nearestNodes.forM (fun node => findNodeInternal node.address (some node.id) idNearUs)

/-- A turn of `DHT::periodic_ip4_maintenance`: an id that is not valid for our address is replaced, and the nodes are forgotten. -/
def periodicIp4Maintenance (env : Env σ) (rng : Nat → UInt8) : DHTM σ Unit := lock do
  modify (fun s => { s with ip4Source := env.ip4Source.decay s.ip4Source })
  let s ← get
  match env.ip4Source.getBestIpv4 s.ip4Source with
  | some ip =>
    let isValid ← lift (orPanic (s.ourId.isValidForIp env.checksumCastagnoli (.v4 ip)))
    if !isValid then
      let newId ← lift (orPanic (Id.fromIp env.checksumCastagnoli (.v4 ip) rng))
      set { s with ourId := newId, buckets := s.buckets.setId newId }
  | none => return ()

/-- `DHT::rotate_token_secrets`. -/
def rotateTokenSecrets (rng : Nat → UInt8) : DHTM σ Unit := lock do
  let s ← get
  set { s with oldTokenSecret := s.tokenSecret, tokenSecret := makeTokenSecret s.settings.tokenSecretSize rng }

/-! ## Steps -/

/-- A handler run in the event loop: a panic, and an error that its loop does not skip, ends the event loop. -/
def inEventLoop (skips : RustyDHTError → Bool) (x : DHTM σ Unit) (s : DHT σ) : DHT σ :=
  if s.running then
    match x.run.run s with
    | (.ok _, s) => s
    | (.error (.error e), s) => if skips e then s else { s with running := false }
    | (.error (.panic _), s) => { s with running := false }
  else s

/-- A handler run in a task of its own, which its failure ends. -/
def inTask {α : Type} (x : DHTM σ α) (s : DHT σ) : DHT σ := (x.run.run s).2

/-- The errors that `DHT::accept_incoming_packets` goes on after. -/
def acceptSkips : RustyDHTError → Bool
  | .packetParseError _ => true
  | .conntrackError _ => true
  | _ => false

/-- What happens to a DHT. -/
inductive Event where
  /-- The socket, which is bound to an IPv4 address, reads a packet. -/
  | packet (buf : List UInt8) (ip : Ipv4Addr) (port : UInt16)
  /-- `accept_incoming_packets` receives the next message. -/
  | accept (throttled : Bool) (now : Nat → Instant) (shuffle : PartialShuffle)
  /-- `background_io_outgoing` sends the next message. -/
  | outgoing (result : SendResult)
  /-- `request_cleanup` ticks. -/
  | requestCleanup (now : Instant)
  /-- A spawned task begins to run. -/
  | runSpawned (i : Nat) (now : Instant) (rng : UInt8 × UInt8)
  /-- A task that waits for a response receives it. -/
  | response (i : Nat) (now nowNew : Instant) (nowSeen : Nat → Instant)
  /-- A task that waits for a response times out, or its channel is cleaned up. -/
  | giveUp (i : Nat)
  /-- The application, or an operation on its behalf, calls `send_request`. -/
  | sendRequest (req : Message) (dest : SocketAddr) (destId : Option Id) (now : Instant)
  /-- The application calls `get_info_hashes`. -/
  | getInfoHashes (newerThan : Option Instant)
  | buddyPing (now : Nat → Instant)
  | routerPing (routers : List (List SocketAddr))
  | findNodeCount (routers : List (List SocketAddr))
  | findNode (random : Id)
  | ip4Maintenance (rng : Nat → UInt8)
  | tokenRotation (rng : Nat → UInt8)

/-- The DHT after an event. -/
def step (env : Env σ) (s : DHT σ) : Event → DHT σ
  | .packet buf ip port => { s with socket := s.socket.backgroundIoIncoming env.codec buf (.v4 ip port) }
  | .accept throttled now shuffle =>
    match s.socket.received with
    | (msg, addr) :: received =>
      inEventLoop acceptSkips (acceptIncomingPacket env msg addr throttled now shuffle)
        (if s.running then { s with socket := { s.socket with received } } else s)
    | [] => s
  | .outgoing result => { s with socket := (s.socket.backgroundIoOutgoing env.codec result).2 }
  | .requestCleanup now => { s with socket := s.socket.requestCleanup now }
  | .runSpawned i now rng =>
    match s.spawned[i]? with
    | some task => inTask (runSpawned task now rng) { s with spawned := s.spawned.eraseIdx i }
    | none => s
  | .response i now nowNew nowSeen =>
    match s.awaiting[i]? with
    | some task =>
      match (s.socket.channel task.receiver).head? with
      | some reply =>
        inTask (handleResponse env task.target reply now nowNew nowSeen) { s with awaiting := s.awaiting.eraseIdx i }
      | none => s
    | none => s
  | .giveUp i => { s with awaiting := s.awaiting.eraseIdx i }
  | .sendRequest req dest destId now => inTask (commonSend req dest destId now) s
  | .getInfoHashes newerThan => { s with peerStorage := (DHT.getInfoHashes s.peerStorage newerThan).2 }
  | .buddyPing now => inEventLoop (fun _ => false) (periodicBuddyPing now) s
  | .routerPing routers => inEventLoop (fun _ => false) (pingRouters routers) s
  | .findNodeCount routers =>
    match s.countUnverified with
    | some _ => s
    | none => inEventLoop (fun _ => false) (periodicFindNodeCount routers) s
  | .findNode random =>
    match s.countUnverified with
    | some countUnverified => inEventLoop (fun _ => false) (periodicFindNode env countUnverified random) s
    | none => s
  | .ip4Maintenance rng => inEventLoop (fun _ => false) (periodicIp4Maintenance env rng) s
  | .tokenRotation rng => inEventLoop (fun _ => false) (rotateTokenSecrets rng) s

end DHT

end RustyDht
