import RustyDht.Wire
import Mathlib.Logic.Function.Basic

/-!
# The socket and its outbound requests

`OutboundRequestStorage` and `RequestInfo` (`src/storage/outbound_request_storage.rs`) and the DHT socket of `src/dht/socket.rs`.
The hash map of the storage is a partial function from transaction ids. A channel is the list of the messages put on it, oldest
first: receiving from it, and what becomes of a message whose receiver is gone, is up to whoever waits. What the socket reads
into its buffer, what the operating system says to a datagram, and the clock, are arguments.
-/

namespace RustyDht

open Bencode (Codec)

/-- The index of a response channel. -/
abbrev ChannelId : Type := Nat

/-- `RequestInfo`. -/
structure RequestInfo where
  addr : SocketAddr
  id : Option Id
  packet : Message
  createdAt : Instant
  responseChannel : Option ChannelId
  deriving DecidableEq

/-- `OutboundRequestStorage`. -/
structure OutboundRequestStorage where
  requests : TransactionId → Option RequestInfo

namespace OutboundRequestStorage

/-- `OutboundRequestStorage::new`. -/
def new : OutboundRequestStorage := { requests := fun _ => none }

/-- `OutboundRequestStorage::add_request`. -/
def addRequest (self : OutboundRequestStorage) (info : RequestInfo) : OutboundRequestStorage :=
  { requests := Function.update self.requests (.from info.packet.transactionId) (some info) }

/-- `OutboundRequestStorage::get_matching_request_info`. -/
def getMatchingRequestInfo (self : OutboundRequestStorage) (msg : Message) (srcAddr : SocketAddr) : Option RequestInfo :=
  let tid := TransactionId.from msg.transactionId
  -- Is this packet a response?
  match msg.messageType with
  | .response resSpecific =>
    -- Is there a matching transaction id in storage?
    match self.requests tid with
    | some requestInfo =>
      -- Did this response come from the expected IP address?
      if requestInfo.addr = srcAddr then
        let responseSenderId := msg.getAuthorId
        -- Does the id of the sender match the recorded addressee of the original request, if any?
        if requestInfo.id.isNone ∨ (responseSenderId.isSome ∧ requestInfo.id = responseSenderId) then
          -- Is the thing in storage a request packet, and does the response type match the request type?
          match requestInfo.packet.messageType with
          | .request reqSpecific => if responseMatchesRequest resSpecific reqSpecific then some requestInfo else none
          | _ => none
        else none
      else none
    | none => none
  | _ => none

/-- `OutboundRequestStorage::take_matching_request_info`: what is taken, and the storage it leaves. -/
def takeMatchingRequestInfo (self : OutboundRequestStorage) (response : Message) (srcAddr : SocketAddr) :
    Option RequestInfo × OutboundRequestStorage :=
  if (self.getMatchingRequestInfo response srcAddr).isSome then
    let tid := TransactionId.from response.transactionId
    (self.requests tid, { requests := Function.update self.requests tid none })
  else (none, self)

/-- `OutboundRequestStorage::prune_older_than`. -/
def pruneOlderThan (self : OutboundRequestStorage) (duration : Duration) (now : Instant) : OutboundRequestStorage :=
  match Instant.checkedSub now duration with
  | none => self
  | some time => { requests := fun tid => (self.requests tid).filter (fun v => decide (v.createdAt ≥ time)) }

end OutboundRequestStorage

/-- What the socket's tasks share and put out: the request storage, the queue of messages to send, the general receive channel,
the response channels, and whether the incoming and the outgoing task still run. -/
structure DHTSocket where
  requestStorage : OutboundRequestStorage
  toSend : List (Message × SocketAddr)
  received : List (Message × SocketAddr)
  responseChannels : List (List Message)
  incomingUp : Bool
  outgoingUp : Bool

/-- What the operating system says to a datagram. -/
inductive SendResult where
  | sent
  | permissionDenied
  | failed (text : String)

namespace DHTSocket

/-- `DHTSocket::new`. -/
def new : DHTSocket :=
  { requestStorage := .new, toSend := [], received := [], responseChannels := [], incomingUp := true, outgoingUp := true }

/-- The messages put on a response channel. -/
def channel (self : DHTSocket) (ch : ChannelId) : List Message := self.responseChannels.getD ch []

/-- `RequestInfo::new` in `DHTSocket::send_to`, with the sender of a new channel. -/
def newRequestInfo (self : DHTSocket) (toSend : Message) (dest : SocketAddr) (destId : Option Id) (now : Instant) :
    RequestInfo :=
  let notifyTx := self.responseChannels.length
  { addr := dest, id := destId, packet := toSend, createdAt := now, responseChannel := some notifyTx }

/-- What `DHTSocket::send_to` leaves. Only a request is stored, with a new channel for its response. Where the outgoing task has ended
nothing is queued, and `send_to` returns an error. -/
def sendTo (self : DHTSocket) (toSend : Message) (dest : SocketAddr) (destId : Option Id) (now : Instant) : DHTSocket :=
  let self := match toSend.messageType with
    | .request _ =>
      { self with
        responseChannels := self.responseChannels ++ [[]]
        requestStorage := self.requestStorage.addRequest (self.newRequestInfo toSend dest destId now) }
    | _ => self
  if self.outgoingUp then { self with toSend := self.toSend ++ [(toSend, dest)] } else self

/-- Put a message on a response channel, if there is one. -/
def notify (self : DHTSocket) (responseChannel : Option ChannelId) (message : Message) : DHTSocket :=
  match responseChannel with
  | some ch => { self with responseChannels := self.responseChannels.modify ch (· ++ [message]) }
  | none => self

/-- `DHTSocket::background_io_incoming_single`, on what the socket has read. -/
def backgroundIoIncomingSingle (codec : Codec) (self : DHTSocket) (buf : List UInt8) (sender : SocketAddr) :
    Except RustyDHTError DHTSocket := do
  let message ← Message.fromBytes codec buf
  match message.messageType with
  | .response _ =>
    match self.requestStorage.takeMatchingRequestInfo message sender with
    | (some requestInfo, requestStorage) =>
      let self := { self with requestStorage }.notify requestInfo.responseChannel message
      -- Since the response is to a valid request, send it to the general receive channel.
      return { self with received := self.received ++ [(message, sender)] }
    | (none, requestStorage) => return { self with requestStorage }
  -- Request and error messages always get sent to the general receive channel.
  | _ => return { self with received := self.received ++ [(message, sender)] }

/-- One turn of `DHTSocket::background_io_incoming`: a packet that does not parse is skipped, any other error ends the task. -/
def backgroundIoIncoming (codec : Codec) (self : DHTSocket) (buf : List UInt8) (sender : SocketAddr) : DHTSocket :=
  if self.incomingUp then
    match self.backgroundIoIncomingSingle codec buf sender with
    | .ok self => self
    | .error (.packetParseError _) => self
    | .error _ => { self with incomingUp := false }
  else self

/-- `DHTSocket::background_io_outgoing_single`, on the next message of the queue: the bytes that were sent. -/
def backgroundIoOutgoingSingle (codec : Codec) (msg : Message) (result : SendResult) : Except RustyDHTError (List UInt8) := do
  let bytes ← msg.toBytes codec
  match result with
  | .sent => return bytes
  | .permissionDenied => throw (.conntrackError "send_to resulted in PermissionDenied. Is conntrack table full?")
  | .failed text => throw (.generalError text)

/-- One turn of `DHTSocket::background_io_outgoing`: what was sent and where to. A conntrack error is skipped; any other error ends
the task, and the queue goes with it. -/
def backgroundIoOutgoing (codec : Codec) (self : DHTSocket) (result : SendResult) : Option (List UInt8 × SocketAddr) × DHTSocket :=
  if self.outgoingUp then
    match self.toSend with
    | (msg, dest) :: toSend =>
      match backgroundIoOutgoingSingle codec msg result with
      | .ok bytes => (some (bytes, dest), { self with toSend })
      | .error (.conntrackError _) => (none, { self with toSend })
      | .error _ => (none, { self with toSend := [], outgoingUp := false })
    | [] => (none, self)
  else (none, self)

/-- The interval and age of `DHTSocket::request_cleanup`. -/
def pruneAge : Duration := Duration.fromSecs 10

/-- One tick of `DHTSocket::request_cleanup`. -/
def requestCleanup (self : DHTSocket) (now : Instant) : DHTSocket :=
  { self with requestStorage := self.requestStorage.pruneOlderThan pruneAge now }

end DHTSocket

/-- What happens to a socket: a call of `send_to`, a packet, a tick of the cleanup. -/
inductive SocketEvent where
  | sendTo (toSend : Message) (dest : SocketAddr) (destId : Option Id)
  | packet (buf : List UInt8) (sender : SocketAddr)
  | requestCleanup

/-- The socket after an event, at the time it happens. -/
def SocketEvent.apply (codec : Codec) (self : DHTSocket) (now : Instant) : SocketEvent → DHTSocket
  | .sendTo toSend dest destId => self.sendTo toSend dest destId now
  | .packet buf sender => self.backgroundIoIncoming codec buf sender
  | .requestCleanup => self.requestCleanup now

end RustyDht
