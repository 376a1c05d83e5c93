import RustyDht.Packets

/-!
# The message builder

`MessageBuilder` (`src/packets/builder.rs`). Every field is optional until a message is built; what a kind requires and does not have
is an error that names the field. The two random bytes of a request's transaction id are an argument.
-/

namespace RustyDht

/-- `BuilderMessageType`. -/
inductive BuilderMessageType where
  | pingRequest
  | pingResponse
  | findNodeRequest
  | findNodeResponse
  | getPeersRequest
  | getPeersResponse
  | announcePeerRequest
  | announcePeerResponse
  | sampleInfoHashesRequest
  | sampleInfoHashesResponse
  | error
  deriving DecidableEq

/-- `MessageBuilder`, as `MessageBuilder::new` makes it: every field but the type is unset. -/
structure MessageBuilder where
  messageType : BuilderMessageType
  transactionId : Option (List UInt8) := none
  version : Option (List UInt8) := none
  requesterIp : Option SocketAddr := none
  readOnly : Option Bool := none
  senderId : Option Id := none
  target : Option Id := none
  port : Option UInt16 := none
  impliedPort : Option Bool := none
  token : Option (List UInt8) := none
  nodes : Option (List Node) := none
  peers : Option (List SocketAddr) := none
  interval : Option Duration := none
  samples : Option (List Id) := none
  numInfohashes : Option Nat := none
  code : Option Int32 := none
  description : Option String := none

namespace MessageBuilder

/-- `required_or_error!`: the value of a field, or the error that names it. -/
def requiredOrError {α : Type} (builderField : String) : Option α → Except Failure α
  | none => .error (.error (.builderMissingFieldError builderField))
  | some value => .ok value

/-- `build_request_common!`: the message around what `x` evaluates to. -/
def buildRequestCommon (self : MessageBuilder) (rng : UInt8 × UInt8) (x : Except Failure RequestSpecific) :
    Except Failure Message := do
  return {
    transactionId := self.transactionId.getD [rng.1, rng.2]
    version := self.version
    requesterIp := none
    messageType := .request (← x)
    readOnly := self.readOnly }

/-- `build_response_common!`: the transaction id is required before `x` is evaluated. -/
def buildResponseCommon (self : MessageBuilder) (x : Except Failure ResponseSpecific) : Except Failure Message := do
  return {
    transactionId := ← requiredOrError "transaction_id" self.transactionId
    version := self.version
    requesterIp := self.requesterIp
    messageType := .response (← x)
    readOnly := none }

/-- `MessageBuilder::build_ping_request`. -/
def buildPingRequest (self : MessageBuilder) (rng : UInt8 × UInt8) : Except Failure Message :=
  self.buildRequestCommon rng do
    return .pingRequest { requesterId := ← requiredOrError "sender_id" self.senderId }

/-- `MessageBuilder::build_ping_response`. -/
def buildPingResponse (self : MessageBuilder) : Except Failure Message :=
  self.buildResponseCommon do
    return .pingResponse { responderId := ← requiredOrError "sender_id" self.senderId }

/-- `MessageBuilder::build_find_node_request`. -/
def buildFindNodeRequest (self : MessageBuilder) (rng : UInt8 × UInt8) : Except Failure Message :=
  self.buildRequestCommon rng do
    return .findNodeRequest {
      requesterId := ← requiredOrError "sender_id" self.senderId
      target := ← requiredOrError "target" self.target }

/-- `MessageBuilder::build_find_node_response`. -/
def buildFindNodeResponse (self : MessageBuilder) : Except Failure Message :=
  self.buildResponseCommon do
    return .findNodeResponse {
      responderId := ← requiredOrError "sender_id" self.senderId
      nodes := ← requiredOrError "nodes" self.nodes }

/-- `MessageBuilder::build_get_peers_request`. -/
def buildGetPeersRequest (self : MessageBuilder) (rng : UInt8 × UInt8) : Except Failure Message :=
  self.buildRequestCommon rng do
    return .getPeersRequest {
      requesterId := ← requiredOrError "sender_id" self.senderId
      infoHash := ← requiredOrError "target" self.target }

/-- The values of a get_peers response: nodes are ignored where there are peers. -/
def getPeersValues (self : MessageBuilder) : Except Failure GetPeersResponseValues :=
  match self.peers, self.nodes with
  | some peers, _ => .ok (.peers peers)
  | none, some nodes => .ok (.nodes nodes)
  | none, none => .error (.error (.builderMissingFieldError "peers or nodes"))

/-- `MessageBuilder::build_get_peers_response`. -/
def buildGetPeersResponse (self : MessageBuilder) : Except Failure Message :=
  self.buildResponseCommon do
    return .getPeersResponse {
      responderId := ← requiredOrError "sender_id" self.senderId
      token := ← requiredOrError "token" self.token
      values := ← self.getPeersValues }

/-- The implied port of an announce_peer request: true where no port is given, unless it is explicitly false. -/
def announceImpliedPort (self : MessageBuilder) : Except Failure (Option Bool) :=
  match self.impliedPort with
  | some impliedPort =>
    if !impliedPort && self.port.isNone then
      .error (.error (.builderInvalidComboError "implied_port must be true or port must be specified"))
    else .ok (some impliedPort)
  | none =>
    match self.port with
    | some _ => .ok none
    | none => .ok (some true)

/-- `MessageBuilder::build_announce_peer_request`. -/
def buildAnnouncePeerRequest (self : MessageBuilder) (rng : UInt8 × UInt8) : Except Failure Message :=
  self.buildRequestCommon rng do
    return .announcePeerRequest {
      requesterId := ← requiredOrError "sender_id" self.senderId
      infoHash := ← requiredOrError "target" self.target
      token := ← requiredOrError "token" self.token
      port := self.port.getD 0
      impliedPort := ← self.announceImpliedPort }

/-- `MessageBuilder::build_announce_peer_response`. -/
def buildAnnouncePeerResponse (self : MessageBuilder) : Except Failure Message := self.buildPingResponse

/-- `MessageBuilder::build_sample_infohashes_request`. -/
def buildSampleInfohashesRequest (self : MessageBuilder) (rng : UInt8 × UInt8) : Except Failure Message :=
  self.buildRequestCommon rng do
    return .sampleInfoHashesRequest {
      requesterId := ← requiredOrError "sender_id" self.senderId
      target := ← requiredOrError "target" self.target }

/-- The number of info hashes of a response: one that does not fit 32 bits panics. -/
def numInfohashesI32 (self : MessageBuilder) : Except Failure Int32 :=
  match self.numInfohashes with
  | some num =>
    if num ≤ 2147483647 then .ok (Int32.ofNat num)
    else .error (.panic ⟨"called `Result::unwrap()` on an `Err` value: TryFromIntError(())"⟩)
  | none => .error (.error (.builderMissingFieldError "num_infohashes"))

/-- `MessageBuilder::build_sample_infohashes_response`. -/
def buildSampleInfohashesResponse (self : MessageBuilder) : Except Failure Message :=
  self.buildResponseCommon do
    return .sampleInfoHashesResponse {
      responderId := ← requiredOrError "sender_id" self.senderId
      interval := ← requiredOrError "interval" self.interval
      nodes := ← requiredOrError "nodes" self.nodes
      num := ← self.numInfohashesI32
      samples := ← requiredOrError "samples" self.samples }

/-- `MessageBuilder::build_error`. -/
def buildError (self : MessageBuilder) : Except Failure Message := do
  return {
    transactionId := ← requiredOrError "transaction_id" self.transactionId
    version := none
    requesterIp := none
    messageType := .error {
      code := ← requiredOrError "code" self.code
      description := ← requiredOrError "description" self.description }
    readOnly := none }

/-- `MessageBuilder::build`. -/
def build (self : MessageBuilder) (rng : UInt8 × UInt8) : Except Failure Message :=
  match self.messageType with
  | .pingRequest => self.buildPingRequest rng
  | .pingResponse => self.buildPingResponse
  | .findNodeRequest => self.buildFindNodeRequest rng
  | .findNodeResponse => self.buildFindNodeResponse
  | .getPeersRequest => self.buildGetPeersRequest rng
  | .getPeersResponse => self.buildGetPeersResponse
  | .announcePeerRequest => self.buildAnnouncePeerRequest rng
  | .announcePeerResponse => self.buildAnnouncePeerResponse
  | .sampleInfoHashesRequest => self.buildSampleInfohashesRequest rng
  | .sampleInfoHashesResponse => self.buildSampleInfohashesResponse
  | .error => self.buildError

end MessageBuilder

end RustyDht
