import RustyDht.Packets
import RustyDht.Lib.Bencode
import RustyDht.Lib.Framing

/-!
# The wire format

The wire messages of `src/packets/internal.rs` and the conversions between them and the public messages
(`src/packets/public.rs`). A wire message is a bencode dictionary. What serde derives for its types is written out: fields under
their renamed keys, absent options omitted, the variant flattened into the message with its tags `y` and `q`, unknown keys ignored,
the untagged response variants tried in the order of their declaration. The bytes themselves are the bencode codec's. The texts of
serde's own errors are abbreviated.
-/

namespace RustyDht

open Bencode (Value Fields Codec require optional firstOk)

/-- `MAX_SCRAPE_INTERVAL`: six hours, in seconds. -/
def maxScrapeInterval : Nat := 21600

/-! ## Wire messages -/

/-- `DHTPingArguments`. -/
structure DHTPingArguments where
  id : List UInt8

/-- `DHTFindNodeArguments`. -/
structure DHTFindNodeArguments where
  id : List UInt8
  target : List UInt8

/-- `DHTGetPeersArguments`. -/
structure DHTGetPeersArguments where
  id : List UInt8
  infoHash : List UInt8

/-- `DHTSampleInfoHashesRequestArguments`. -/
structure DHTSampleInfoHashesRequestArguments where
  id : List UInt8
  target : List UInt8

/-- `DHTAnnouncePeerRequestArguments`. -/
structure DHTAnnouncePeerRequestArguments where
  id : List UInt8
  infoHash : List UInt8
  port : UInt16
  token : List UInt8
  impliedPort : Option UInt8

/-- `DHTRequestSpecific`. -/
inductive DHTRequestSpecific where
  | ping (arguments : DHTPingArguments)
  | findNode (arguments : DHTFindNodeArguments)
  | getPeers (arguments : DHTGetPeersArguments)
  | announcePeer (arguments : DHTAnnouncePeerRequestArguments)
  | sampleInfoHashes (arguments : DHTSampleInfoHashesRequestArguments)

/-- `DHTPingResponseArguments`. -/
structure DHTPingResponseArguments where
  id : List UInt8

/-- `DHTFindNodeResponseArguments`. -/
structure DHTFindNodeResponseArguments where
  id : List UInt8
  nodes : List UInt8

/-- `DHTGetPeersResponseArguments`. -/
structure DHTGetPeersResponseArguments where
  id : List UInt8
  token : List UInt8
  nodes : Option (List UInt8)
  values : Option (List (List UInt8))

/-- `DHTSampleInfoHashesResponseArguments`. -/
structure DHTSampleInfoHashesResponseArguments where
  id : List UInt8
  interval : Int32
  nodes : List UInt8
  num : Int32
  samples : List UInt8

/-- `DHTResponseSpecific`. -/
inductive DHTResponseSpecific where
  | getPeers (arguments : DHTGetPeersResponseArguments)
  | sampleInfoHashes (arguments : DHTSampleInfoHashesResponseArguments)
  | findNode (arguments : DHTFindNodeResponseArguments)
  | ping (arguments : DHTPingResponseArguments)

/-- `DHTErrorSpecific`. -/
structure DHTErrorSpecific where
  errorInfo : List Value

/-- `DHTMessageVariant`. -/
inductive DHTMessageVariant where
  | dhtRequest (req : DHTRequestSpecific)
  | dhtResponse (res : DHTResponseSpecific)
  | dhtError (err : DHTErrorSpecific)

/-- `DHTMessage`. -/
structure DHTMessage where
  transactionId : List UInt8
  version : Option (List UInt8)
  variant : DHTMessageVariant
  ip : Option (List UInt8)
  readOnly : Option Int32

/-! ## Values of the fields -/

/-- Read a 32-bit signed integer. -/
def Value.asI32 (v : Value) : Except String Int32 := do
  let i ← v.asInt
  if Int32.minValue.toInt ≤ i ∧ i ≤ Int32.maxValue.toInt then return Int32.ofInt i
  else throw "invalid value: expected i32"

/-- Read a 16-bit unsigned integer. -/
def Value.asU16 (v : Value) : Except String UInt16 := do
  let i ← v.asInt
  if 0 ≤ i ∧ i ≤ 65535 then return UInt16.ofNat i.toNat else throw "invalid value: expected u16"

/-- Read an 8-bit unsigned integer. -/
def Value.asU8 (v : Value) : Except String UInt8 := do
  let i ← v.asInt
  if 0 ≤ i ∧ i ≤ 255 then return UInt8.ofNat i.toNat else throw "invalid value: expected u8"

/-- Read a list of byte strings. -/
def Value.asByteBufs (v : Value) : Except String (List (List UInt8)) := do (← v.asList).mapM Value.asBytes

/-- A dictionary, as it is decoded. -/
abbrev Dict : Type := List (List UInt8 × Value)

/-! ## Derived serialization: the arguments -/

/-- The fields of `DHTPingArguments`. -/
def DHTPingArguments.fields (a : DHTPingArguments) : Fields := [("id", some (.bytes a.id))]

/-- Deserialize `DHTPingArguments`. -/
def DHTPingArguments.deserialize (d : Dict) : Except String DHTPingArguments := do
  return { id := ← require d "id" Value.asBytes }

/-- The fields of `DHTFindNodeArguments`. -/
def DHTFindNodeArguments.fields (a : DHTFindNodeArguments) : Fields :=
  [("id", some (.bytes a.id)), ("target", some (.bytes a.target))]

/-- Deserialize `DHTFindNodeArguments`. -/
def DHTFindNodeArguments.deserialize (d : Dict) : Except String DHTFindNodeArguments := do
  return { id := ← require d "id" Value.asBytes, target := ← require d "target" Value.asBytes }

/-- The fields of `DHTGetPeersArguments`. -/
def DHTGetPeersArguments.fields (a : DHTGetPeersArguments) : Fields :=
  [("id", some (.bytes a.id)), ("info_hash", some (.bytes a.infoHash))]

/-- Deserialize `DHTGetPeersArguments`. -/
def DHTGetPeersArguments.deserialize (d : Dict) : Except String DHTGetPeersArguments := do
  return { id := ← require d "id" Value.asBytes, infoHash := ← require d "info_hash" Value.asBytes }

/-- The fields of `DHTSampleInfoHashesRequestArguments`. -/
def DHTSampleInfoHashesRequestArguments.fields (a : DHTSampleInfoHashesRequestArguments) : Fields :=
  [("id", some (.bytes a.id)), ("target", some (.bytes a.target))]

/-- Deserialize `DHTSampleInfoHashesRequestArguments`. -/
def DHTSampleInfoHashesRequestArguments.deserialize (d : Dict) : Except String DHTSampleInfoHashesRequestArguments := do
  return { id := ← require d "id" Value.asBytes, target := ← require d "target" Value.asBytes }

/-- The fields of `DHTAnnouncePeerRequestArguments`. -/
def DHTAnnouncePeerRequestArguments.fields (a : DHTAnnouncePeerRequestArguments) : Fields :=
  [("id", some (.bytes a.id)), ("info_hash", some (.bytes a.infoHash)), ("port", some (.int a.port.toNat)),
    ("token", some (.bytes a.token)), ("implied_port", a.impliedPort.map (fun p => .int p.toNat))]

/-- Deserialize `DHTAnnouncePeerRequestArguments`. -/
def DHTAnnouncePeerRequestArguments.deserialize (d : Dict) : Except String DHTAnnouncePeerRequestArguments := do
  return {
    id := ← require d "id" Value.asBytes
    infoHash := ← require d "info_hash" Value.asBytes
    port := ← require d "port" Value.asU16
    token := ← require d "token" Value.asBytes
    impliedPort := ← optional d "implied_port" Value.asU8 }

/-- The fields of `DHTPingResponseArguments`. -/
def DHTPingResponseArguments.fields (a : DHTPingResponseArguments) : Fields := [("id", some (.bytes a.id))]

/-- Deserialize `DHTPingResponseArguments`. -/
def DHTPingResponseArguments.deserialize (d : Dict) : Except String DHTPingResponseArguments := do
  return { id := ← require d "id" Value.asBytes }

/-- The fields of `DHTFindNodeResponseArguments`. -/
def DHTFindNodeResponseArguments.fields (a : DHTFindNodeResponseArguments) : Fields :=
  [("id", some (.bytes a.id)), ("nodes", some (.bytes a.nodes))]

/-- Deserialize `DHTFindNodeResponseArguments`. -/
def DHTFindNodeResponseArguments.deserialize (d : Dict) : Except String DHTFindNodeResponseArguments := do
  return { id := ← require d "id" Value.asBytes, nodes := ← require d "nodes" Value.asBytes }

/-- The fields of `DHTGetPeersResponseArguments`. -/
def DHTGetPeersResponseArguments.fields (a : DHTGetPeersResponseArguments) : Fields :=
  [("id", some (.bytes a.id)), ("token", some (.bytes a.token)), ("nodes", a.nodes.map .bytes),
    ("values", a.values.map (fun l => .list (l.map .bytes)))]

/-- Deserialize `DHTGetPeersResponseArguments`. -/
def DHTGetPeersResponseArguments.deserialize (d : Dict) : Except String DHTGetPeersResponseArguments := do
  return {
    id := ← require d "id" Value.asBytes
    token := ← require d "token" Value.asBytes
    nodes := ← optional d "nodes" Value.asBytes
    values := ← optional d "values" Value.asByteBufs }

/-- The fields of `DHTSampleInfoHashesResponseArguments`. -/
def DHTSampleInfoHashesResponseArguments.fields (a : DHTSampleInfoHashesResponseArguments) : Fields :=
  [("id", some (.bytes a.id)), ("interval", some (.int a.interval.toInt)), ("nodes", some (.bytes a.nodes)),
    ("num", some (.int a.num.toInt)), ("samples", some (.bytes a.samples))]

/-- Deserialize `DHTSampleInfoHashesResponseArguments`. -/
def DHTSampleInfoHashesResponseArguments.deserialize (d : Dict) : Except String DHTSampleInfoHashesResponseArguments := do
  return {
    id := ← require d "id" Value.asBytes
    interval := ← require d "interval" Value.asI32
    nodes := ← require d "nodes" Value.asBytes
    num := ← require d "num" Value.asI32
    samples := ← require d "samples" Value.asBytes }

/-! ## Derived serialization: the messages -/

/-- The name of a variant, as its tag's value. -/
def tag (name : String) : Option Value := some (.bytes (Bencode.ascii name))

/-- The fields of a request: its tag and its arguments. -/
def DHTRequestSpecific.fields : DHTRequestSpecific → Fields
  | .ping a => [("q", tag "ping"), ("a", some (.ofFields a.fields))]
  | .findNode a => [("q", tag "find_node"), ("a", some (.ofFields a.fields))]
  | .getPeers a => [("q", tag "get_peers"), ("a", some (.ofFields a.fields))]
  | .announcePeer a => [("q", tag "announce_peer"), ("a", some (.ofFields a.fields))]
  | .sampleInfoHashes a => [("q", tag "sample_infohashes"), ("a", some (.ofFields a.fields))]

/-- Deserialize a request, by its tag. -/
def DHTRequestSpecific.deserialize (d : Dict) : Except String DHTRequestSpecific := do
  let q ← require d "q" Value.asBytes
  if q = Bencode.ascii "ping" then return .ping (← DHTPingArguments.deserialize (← require d "a" Value.asDict))
  else if q = Bencode.ascii "find_node" then
    return .findNode (← DHTFindNodeArguments.deserialize (← require d "a" Value.asDict))
  else if q = Bencode.ascii "get_peers" then
    return .getPeers (← DHTGetPeersArguments.deserialize (← require d "a" Value.asDict))
  else if q = Bencode.ascii "announce_peer" then
    return .announcePeer (← DHTAnnouncePeerRequestArguments.deserialize (← require d "a" Value.asDict))
  else if q = Bencode.ascii "sample_infohashes" then
    return .sampleInfoHashes (← DHTSampleInfoHashesRequestArguments.deserialize (← require d "a" Value.asDict))
  else throw "unknown variant"

/-- The fields of a response's arguments. -/
def DHTResponseSpecific.arguments : DHTResponseSpecific → Fields
  | .getPeers a => a.fields
  | .sampleInfoHashes a => a.fields
  | .findNode a => a.fields
  | .ping a => a.fields

/-- Deserialize a response from its arguments: no tag says which it is, and the untagged variants are tried in the order of their
declaration. -/
def DHTResponseSpecific.deserializeArguments (arguments : Dict) : Except String DHTResponseSpecific :=
  firstOk [
    .getPeers <$> DHTGetPeersResponseArguments.deserialize arguments,
    .sampleInfoHashes <$> DHTSampleInfoHashesResponseArguments.deserialize arguments,
    .findNode <$> DHTFindNodeResponseArguments.deserialize arguments,
    .ping <$> DHTPingResponseArguments.deserialize arguments]

/-- Deserialize a response: every variant has its arguments under `r`. -/
def DHTResponseSpecific.deserialize (d : Dict) : Except String DHTResponseSpecific := do
  DHTResponseSpecific.deserializeArguments (← require d "r" Value.asDict)

/-- The fields of a message's variant, flattened into it: its tag, and the fields of what it holds. -/
def DHTMessageVariant.fields : DHTMessageVariant → Fields
  | .dhtRequest req => ("y", tag "q") :: req.fields
  | .dhtResponse res => [("y", tag "r"), ("r", some (.ofFields res.arguments))]
  | .dhtError err => [("y", tag "e"), ("e", some (.list err.errorInfo))]

/-- Deserialize a message's variant, by its tag. -/
def DHTMessageVariant.deserialize (d : Dict) : Except String DHTMessageVariant := do
  let y ← require d "y" Value.asBytes
  if y = Bencode.ascii "q" then return .dhtRequest (← DHTRequestSpecific.deserialize d)
  else if y = Bencode.ascii "r" then return .dhtResponse (← DHTResponseSpecific.deserialize d)
  else if y = Bencode.ascii "e" then return .dhtError { errorInfo := ← require d "e" Value.asList }
  else throw "unknown variant"

/-- The fields of a message. -/
def DHTMessage.fields (self : DHTMessage) : Fields :=
  [("t", some (.bytes self.transactionId)), ("v", self.version.map .bytes)] ++ self.variant.fields ++
    [("ip", self.ip.map .bytes), ("ro", self.readOnly.map (fun ro => .int ro.toInt))]

/-- Deserialize a message. -/
def DHTMessage.deserialize (d : Dict) : Except String DHTMessage := do
  return {
    transactionId := ← require d "t" Value.asBytes
    version := ← optional d "v" Value.asBytes
    variant := ← DHTMessageVariant.deserialize d
    ip := ← optional d "ip" Value.asBytes
    readOnly := ← optional d "ro" Value.asI32 }

/-- `DHTMessage::to_bytes`. -/
def DHTMessage.toBytes (codec : Codec) (self : DHTMessage) : Except RustyDHTError (List UInt8) :=
  (codec.encode (.ofFields self.fields)).mapError .packetSerializationError

/-- `DHTMessage::from_bytes`. -/
def DHTMessage.fromBytes (codec : Codec) (bytes : List UInt8) : Except RustyDHTError DHTMessage :=
  (do DHTMessage.deserialize (← Value.asDict (← codec.decode bytes))).mapError .packetParseError

/-! ## Addresses, nodes and peers as bytes -/

/-- `u16::to_be_bytes`. -/
def u16ToBeBytes (x : UInt16) : List UInt8 := [(x >>> 8).toUInt8, x.toUInt8]

/-- `u16::from_be_bytes`. -/
def u16FromBeBytes (b0 b1 : UInt8) : UInt16 := (b0.toUInt16 <<< 8) ||| b1.toUInt16

/-- `sockaddr_to_bytes`. -/
def sockaddrToBytes : SocketAddr → List UInt8
  | .v4 ip port => ip.octets ++ u16ToBeBytes port
  | .v6 ip port _ _ => ip.octets ++ u16ToBeBytes port

/-- `bytes_to_sockaddr`. -/
def bytesToSockaddr : List UInt8 → Except RustyDHTError SocketAddr
  | [a, b, c, d, p0, p1] => .ok (.v4 ⟨a, b, c, d⟩ (u16FromBeBytes p0 p1))
  | bytes =>
    if bytes.length = 18 then .error (.packetParseError "IPv6 is not yet implemented")
    else .error (.packetParseError "Wrong number of bytes for sockaddr")

/-- The bytes of a node in a list of IPv4 nodes. -/
def node4ByteSize : Nat := idSize + 6

/-- The bytes of one node. -/
def node4ToBytes (node : Node) : List UInt8 := node.id.toVec ++ sockaddrToBytes node.address

/-- The node of one record of a list of IPv4 nodes. -/
def bytesToNode4 (bytes : List UInt8) : Except RustyDHTError Node := do
  let id ← Id.fromBytes (Framing.slice bytes 0 idSize)
  let sockaddr ← bytesToSockaddr (Framing.slice bytes idSize node4ByteSize)
  return { id, address := sockaddr }

/-- `nodes4_to_bytes`. -/
def nodes4ToBytes (nodes : List Node) : List UInt8 := nodes.flatMap node4ToBytes

/-- `bytes_to_nodes4`. -/
def bytesToNodes4 (bytes : List UInt8) : Except RustyDHTError (List Node) :=
  if bytes.length % node4ByteSize ≠ 0 then
    .error (.packetParseError s!"Wrong number of bytes for nodes message ({bytes.length})")
  else Framing.mapSlices node4ByteSize bytesToNode4 bytes

/-- `peers_to_bytes`. -/
def peersToBytes (peers : List SocketAddr) : List (List UInt8) := peers.map sockaddrToBytes

/-- `bytes_to_peers`. -/
def bytesToPeers (bytes : List (List UInt8)) : Except RustyDHTError (List SocketAddr) := bytes.mapM bytesToSockaddr

/-- The samples of a response, laid end to end. -/
def samplesToBytes (samples : List Id) : List UInt8 := samples.flatMap Id.toVec

/-- The samples of a response, read back. -/
def bytesToSamples (bytes : List UInt8) : Except RustyDHTError (List Id) :=
  if bytes.length % idSize ≠ 0 then
    .error (.packetParseError s!"Wrong sample length {bytes.length} not a multiple of {idSize}")
  else Framing.mapSlices idSize Id.fromBytes bytes

/-! ## From the public message to the wire -/

/-- The request of `Message::into_serde_message`. -/
def RequestSpecific.intoSerde : RequestSpecific → DHTRequestSpecific
  | .pingRequest a => .ping { id := a.requesterId.toVec }
  | .findNodeRequest a => .findNode { id := a.requesterId.toVec, target := a.target.toVec }
  | .getPeersRequest a => .getPeers { id := a.requesterId.toVec, infoHash := a.infoHash.toVec }
  | .sampleInfoHashesRequest a => .sampleInfoHashes { id := a.requesterId.toVec, target := a.target.toVec }
  | .announcePeerRequest a =>
    .announcePeer {
      id := a.requesterId.toVec
      infoHash := a.infoHash.toVec
      port := a.port
      token := a.token
      impliedPort := a.impliedPort.map (fun implied => if implied then 1 else 0) }

/-- The response of `Message::into_serde_message`. -/
def ResponseSpecific.intoSerde : ResponseSpecific → DHTResponseSpecific
  | .findNodeResponse a => .findNode { id := a.responderId.toVec, nodes := nodes4ToBytes a.nodes }
  | .getPeersResponse a =>
    .getPeers {
      id := a.responderId.toVec
      token := a.token
      nodes := match a.values with
        | .nodes nodes => some (nodes4ToBytes nodes)
        | .peers _ => none
      values := match a.values with
        | .peers peers => some (peersToBytes peers)
        | .nodes _ => none }
  | .pingResponse a => .ping { id := a.responderId.toVec }
  | .sampleInfoHashesResponse a =>
    .sampleInfoHashes {
      id := a.responderId.toVec
      interval := Int32.ofNat (min maxScrapeInterval a.interval.asSecs)
      num := a.num
      nodes := nodes4ToBytes a.nodes
      samples := samplesToBytes a.samples }

/-- The error of `Message::into_serde_message`. -/
def ErrorSpecific.intoSerde (err : ErrorSpecific) : DHTErrorSpecific :=
  { errorInfo := [.int err.code.toInt, .bytes err.description.toUTF8.data.toList] }

/-- The variant of `Message::into_serde_message`. -/
def MessageType.intoSerde : MessageType → DHTMessageVariant
  | .request req => .dhtRequest req.intoSerde
  | .response res => .dhtResponse res.intoSerde
  | .error err => .dhtError err.intoSerde

/-- `Message::into_serde_message`. -/
def Message.intoSerdeMessage (self : Message) : DHTMessage where
  transactionId := self.transactionId
  version := self.version
  ip := self.requesterIp.map sockaddrToBytes
  readOnly := self.readOnly.map (fun readOnly => if readOnly then 1 else 0)
  variant := self.messageType.intoSerde

/-- `Message::to_bytes`. -/
def Message.toBytes (codec : Codec) (self : Message) : Except RustyDHTError (List UInt8) :=
  self.intoSerdeMessage.toBytes codec

/-! ## From the wire to the public message -/

/-- The request of `Message::from_serde_message`. -/
def DHTRequestSpecific.fromSerde : DHTRequestSpecific → Except RustyDHTError RequestSpecific
  | .announcePeer a => do
    return .announcePeerRequest {
      requesterId := ← Id.fromBytes a.id
      impliedPort := a.impliedPort.map (fun implied => implied != 0)
      infoHash := ← Id.fromBytes a.infoHash
      port := a.port
      token := a.token }
  | .findNode a => do return .findNodeRequest { requesterId := ← Id.fromBytes a.id, target := ← Id.fromBytes a.target }
  | .getPeers a => do return .getPeersRequest { requesterId := ← Id.fromBytes a.id, infoHash := ← Id.fromBytes a.infoHash }
  | .ping a => do return .pingRequest { requesterId := ← Id.fromBytes a.id }
  | .sampleInfoHashes a => do
    return .sampleInfoHashesRequest { requesterId := ← Id.fromBytes a.id, target := ← Id.fromBytes a.target }

/-- The values of a get_peers response: peers when there are any values, else nodes. -/
def DHTGetPeersResponseArguments.fromSerde (a : DHTGetPeersResponseArguments) :
    Except RustyDHTError GetPeersResponseValues :=
  match a.values, a.nodes with
  | some values, _ => .peers <$> bytesToPeers values
  | none, some nodes => .nodes <$> bytesToNodes4 nodes
  | none, none => .ok (.nodes [])

/-- The response of `Message::from_serde_message`. -/
def DHTResponseSpecific.fromSerde : DHTResponseSpecific → Except RustyDHTError ResponseSpecific
  | .findNode a => do
    return .findNodeResponse { responderId := ← Id.fromBytes a.id, nodes := ← bytesToNodes4 a.nodes }
  | .getPeers a => do
    return .getPeersResponse {
      responderId := ← Id.fromBytes a.id
      token := a.token
      values := ← a.fromSerde }
  | .ping a => do return .pingResponse { responderId := ← Id.fromBytes a.id }
  | .sampleInfoHashes a => do
    return .sampleInfoHashesResponse {
      responderId := ← Id.fromBytes a.id
      -- A negative interval is sign-extended to 64 bits.
      interval := Duration.fromSecs a.interval.toInt64.toUInt64.toNat
      num := a.num
      nodes := ← bytesToNodes4 a.nodes
      samples := ← bytesToSamples a.samples }

/-- The error code: the first element. -/
def errorCode : Value → Except RustyDHTError Int32
  | .int code =>
    if Int32.minValue.toInt ≤ code ∧ code ≤ Int32.maxValue.toInt then .ok (Int32.ofInt code)
    else .error (.packetParseError "out of range integral type conversion attempted")
  | _ => .error (.packetParseError "Expected error code as first element")

/-- The error's description: the second element. -/
def errorDescription : Value → Except RustyDHTError String
  | .bytes desc =>
    match String.fromUTF8? ⟨desc.toArray⟩ with
    | some desc => .ok desc
    | none => .error (.packetParseError "invalid utf-8 sequence")
  | _ => .error (.packetParseError "Expected description as second element")

/-- The error of `Message::from_serde_message`. -/
def DHTErrorSpecific.fromSerde (err : DHTErrorSpecific) : Except RustyDHTError ErrorSpecific :=
  match err.errorInfo with
  | code :: description :: _ => do return { code := ← errorCode code, description := ← errorDescription description }
  | _ => .error (.packetParseError "Error packet should have at least 2 elements")

/-- The variant of `Message::from_serde_message`. -/
def DHTMessageVariant.fromSerde : DHTMessageVariant → Except RustyDHTError MessageType
  | .dhtRequest req => .request <$> req.fromSerde
  | .dhtResponse res => .response <$> res.fromSerde
  | .dhtError err => .error <$> err.fromSerde

/-- The requester's address of `Message::from_serde_message`. -/
def requesterIpFromSerde : Option (List UInt8) → Except RustyDHTError (Option SocketAddr)
  | some ip => some <$> bytesToSockaddr ip
  | none => .ok none

/-- `Message::from_serde_message`. -/
def Message.fromSerdeMessage (msg : DHTMessage) : Except RustyDHTError Message := do
  return {
    transactionId := msg.transactionId
    version := msg.version
    requesterIp := ← requesterIpFromSerde msg.ip
    readOnly := msg.readOnly.map (fun readOnly => decide (readOnly ≥ 1))
    messageType := ← msg.variant.fromSerde }

/-- `Message::from_bytes`. -/
def Message.fromBytes (codec : Codec) (bytes : List UInt8) : Except RustyDHTError Message := do
  Message.fromSerdeMessage (← DHTMessage.fromBytes codec bytes)

end RustyDht
