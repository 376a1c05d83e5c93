import RustyDht.Common

/-!
# Messages

The public message types of `src/packets/public.rs`, the author of a message, and which response answers which request.
-/

namespace RustyDht

/-! ## Requests -/

/-- `PingRequestArguments`. -/
structure PingRequestArguments where
  requesterId : Id
  deriving DecidableEq

/-- `FindNodeRequestArguments`. -/
structure FindNodeRequestArguments where
  target : Id
  requesterId : Id
  deriving DecidableEq

/-- `GetPeersRequestArguments`. -/
structure GetPeersRequestArguments where
  infoHash : Id
  requesterId : Id
  deriving DecidableEq

/-- `SampleInfoHashesRequestArguments`. -/
structure SampleInfoHashesRequestArguments where
  target : Id
  requesterId : Id
  deriving DecidableEq

/-- `AnnouncePeerRequestArguments`. -/
structure AnnouncePeerRequestArguments where
  requesterId : Id
  infoHash : Id
  port : UInt16
  impliedPort : Option Bool
  token : List UInt8
  deriving DecidableEq

/-- `RequestSpecific`. -/
inductive RequestSpecific where
  | pingRequest (arguments : PingRequestArguments)
  | findNodeRequest (arguments : FindNodeRequestArguments)
  | getPeersRequest (arguments : GetPeersRequestArguments)
  | sampleInfoHashesRequest (arguments : SampleInfoHashesRequestArguments)
  | announcePeerRequest (arguments : AnnouncePeerRequestArguments)
  deriving DecidableEq

/-! ## Responses and errors -/

/-- `GetPeersResponseValues`. -/
inductive GetPeersResponseValues where
  | nodes (nodes : List Node)
  | peers (peers : List SocketAddr)
  deriving DecidableEq

/-- `PingResponseArguments`. -/
structure PingResponseArguments where
  responderId : Id
  deriving DecidableEq

/-- `FindNodeResponseArguments`. -/
structure FindNodeResponseArguments where
  responderId : Id
  nodes : List Node
  deriving DecidableEq

/-- `GetPeersResponseArguments`. -/
structure GetPeersResponseArguments where
  responderId : Id
  token : List UInt8
  values : GetPeersResponseValues
  deriving DecidableEq

/-- `SampleInfoHashesResponseArguments`. -/
structure SampleInfoHashesResponseArguments where
  responderId : Id
  interval : Duration
  nodes : List Node
  samples : List Id
  num : Int32
  deriving DecidableEq

/-- `ResponseSpecific`. A response to announce_peer is a ping response. -/
inductive ResponseSpecific where
  | pingResponse (arguments : PingResponseArguments)
  | findNodeResponse (arguments : FindNodeResponseArguments)
  | getPeersResponse (arguments : GetPeersResponseArguments)
  | sampleInfoHashesResponse (arguments : SampleInfoHashesResponseArguments)
  deriving DecidableEq

/-- `ErrorSpecific`. -/
structure ErrorSpecific where
  code : Int32
  description : String
  deriving DecidableEq

/-! ## Messages -/

/-- `MessageType`. -/
inductive MessageType where
  | request (req : RequestSpecific)
  | response (res : ResponseSpecific)
  | error (err : ErrorSpecific)
  deriving DecidableEq

/-- `Message`. -/
structure Message where
  transactionId : List UInt8
  version : Option (List UInt8)
  requesterIp : Option SocketAddr
  messageType : MessageType
  readOnly : Option Bool
  deriving DecidableEq

/-- The id of the node that sent a request. -/
def RequestSpecific.requesterId : RequestSpecific → Id
  | .announcePeerRequest arguments => arguments.requesterId
  | .findNodeRequest arguments => arguments.requesterId
  | .getPeersRequest arguments => arguments.requesterId
  | .pingRequest arguments => arguments.requesterId
  | .sampleInfoHashesRequest arguments => arguments.requesterId

/-- The id of the node that sent a response. -/
def ResponseSpecific.responderId : ResponseSpecific → Id
  | .findNodeResponse arguments => arguments.responderId
  | .getPeersResponse arguments => arguments.responderId
  | .pingResponse arguments => arguments.responderId
  | .sampleInfoHashesResponse arguments => arguments.responderId

/-- `Message::get_author_id`: an error has no author. -/
def Message.getAuthorId (self : Message) : Option Id :=
  match self.messageType with
  | .request req => some req.requesterId
  | .response res => some res.responderId
  | .error _ => none

/-- `response_matches_request`. -/
def responseMatchesRequest : ResponseSpecific → RequestSpecific → Bool
  | .pingResponse _, .pingRequest _ => true
  -- Ping responses are indistinguishable from announce_peer responses.
  | .pingResponse _, .announcePeerRequest _ => true
  | .findNodeResponse _, .findNodeRequest _ => true
  | .getPeersResponse _, .getPeersRequest _ => true
  | .sampleInfoHashesResponse _, .sampleInfoHashesRequest _ => true
  | _, _ => false

end RustyDht
