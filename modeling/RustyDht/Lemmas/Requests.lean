import RustyDht.Lemmas.Dht

/-!
# What requests come to

What handling one request does, said exactly: the requester is seen, the answer is computed in the state then, and it is put on the
queue to where the request came from; where the outgoing task has ended that fails, and the event loop ends. `Handles` says that the
next event makes the DHT handle a message, and `step_request` what the event comes to then.
-/

namespace RustyDht

namespace DHT

variable {σ : Type} {env : Env σ} {s s' : DHT σ} {msg : Message} {addr : SocketAddr} {shuffle : PartialShuffle}
  {α : Type}

/-! ## Answers -/

/-- The reply to a request: a response with its transaction id, which says where the request came from. -/
def replyTo (msg : Message) (addr : SocketAddr) (response : ResponseSpecific) : Message :=
  { transactionId := msg.transactionId, version := none, requesterIp := some addr, messageType := .response response, readOnly := none }

/-- The state once the requester has been seen: it is stored if its id is valid for its address and it is not read-only. -/
def seen (env : Env σ) (s : DHT σ) (msg : Message) (addr : SocketAddr) (id : Id) (now : Instant) : DHT σ :=
  { s with
    buckets := if id.isValidForIp env.checksumCastagnoli addr.ip = .ok true ∧ msg.readOnly ≠ some true then
        s.buckets.addOrUpdate env.sort ⟨id, addr⟩ false now now
      else s.buckets }

/-- The instant that peers must be newer than to be handed out, if the clock goes back that far. -/
def peersNewerThan (s : DHT σ) (now : Instant) : Option Instant :=
  Instant.checkedSub now (Duration.fromSecs s.settings.getPeersFreshnessSecs)

/-- The peers handed out for an info hash. -/
def handedOut (s : DHT σ) (infoHash : Id) (now : Instant) : List SocketAddr :=
  (s.peerStorage.getPeers infoHash (s.peersNewerThan now)).1.take s.settings.maxPeersResponse

/-- The token of an announce is one we gave to its address. -/
def TokenValid (env : Env σ) (s : DHT σ) (arguments : AnnouncePeerRequestArguments) (addr : SocketAddr) : Prop :=
  arguments.token = calculateToken env.checksumCastagnoli addr s.tokenSecret ∨
    arguments.token = calculateToken env.checksumCastagnoli addr s.oldTokenSecret

instance (env : Env σ) (s : DHT σ) (arguments : AnnouncePeerRequestArguments) (addr : SocketAddr) :
    Decidable (TokenValid env s arguments addr) := inferInstanceAs (Decidable (_ ∨ _))

/-- The address that an announce stores: that of the packet if the port is implied, else with the port announced. -/
def announcedPeer (arguments : AnnouncePeerRequestArguments) (addr : SocketAddr) : SocketAddr :=
  match arguments.impliedPort with
  | some true => addr
  | _ => addr.setPort arguments.port

/-- The nodes that an answer lists: those nearest to a target, without the requester. -/
def nearestTo (env : Env σ) (s : DHT σ) (target requesterId : Id) : List Node :=
  s.buckets.getNearestNodes env.sort target (some requesterId)

/-- The answer to get_peers. -/
def getPeersAnswer (env : Env σ) (s : DHT σ) (arguments : GetPeersRequestArguments) (addr : SocketAddr) (now : Instant) :
    ResponseSpecific :=
  .getPeersResponse {
    responderId := s.ourId
    token := calculateToken env.checksumCastagnoli addr s.tokenSecret
    values := if (s.handedOut arguments.infoHash now).length = 0 then
        .nodes (s.nearestTo env arguments.infoHash arguments.requesterId)
      else .peers (s.handedOut arguments.infoHash now) }

/-- The answer to a request, if there is one, and the state it leaves. -/
def answer (env : Env σ) (s : DHT σ) (req : RequestSpecific) (addr : SocketAddr) (now : Instant) (shuffle : PartialShuffle) :
    Option ResponseSpecific × DHT σ :=
  match req with
  | .pingRequest _ => (some (.pingResponse { responderId := s.ourId }), s)
  | .getPeersRequest arguments =>
    (some (s.getPeersAnswer env arguments addr now),
      { s with peerStorage := (s.peerStorage.getPeers arguments.infoHash (s.peersNewerThan now)).2 })
  | .findNodeRequest arguments =>
    (some (.findNodeResponse { responderId := s.ourId, nodes := s.nearestTo env arguments.target arguments.requesterId }), s)
  | .announcePeerRequest arguments =>
    if TokenValid env s arguments addr then
      (some (.pingResponse { responderId := s.ourId }),
        { s with peerStorage := s.peerStorage.announcePeer arguments.infoHash (announcedPeer arguments addr) now })
    else (none, s)
  | .sampleInfoHashesRequest arguments =>
    (some (.sampleInfoHashesResponse {
      responderId := s.ourId
      interval := Duration.fromSecs s.settings.minSampleIntervalSecs.toInt.toNat
      nodes := s.nearestTo env arguments.target arguments.requesterId
      samples := shuffle.run s.peerStorage.getInfoHashes s.settings.maxSampleResponse
      num := Int32.ofNat s.peerStorage.getInfoHashes.length }), s)

/-- What an answer to sample_infohashes takes: an interval that is not negative, and a number of info hashes of 32 bits. -/
def CanSample (s : DHT σ) : RequestSpecific → Prop
  | .sampleInfoHashesRequest _ => ¬s.settings.minSampleIntervalSecs < 0 ∧ s.peerStorage.getInfoHashes.length ≤ 2147483647
  | _ => True

instance (s : DHT σ) : ∀ req, Decidable (s.CanSample req)
  | .sampleInfoHashesRequest _ => inferInstanceAs (Decidable (_ ∧ _))
  | .pingRequest _ | .getPeersRequest _ | .findNodeRequest _ | .announcePeerRequest _ => inferInstanceAs (Decidable True)

/-- What queueing an answer comes to, if there is one, and the state it leaves: it fails once the outgoing task has ended. -/
def queue (s : DHT σ) (msg : Message) (addr : SocketAddr) : Option ResponseSpecific → Except Failure Unit × DHT σ
  | some response =>
    if s.socket.outgoingUp then
      (.ok (), { s with socket := { s.socket with toSend := s.socket.toSend ++ [(replyTo msg addr response, addr)] } })
    else (.error (.error (.generalError "channel closed")), s)
  | none => (.ok (), s)

/-- What handling a request comes to, and the state it leaves. -/
def handled (env : Env σ) (s : DHT σ) (msg : Message) (req : RequestSpecific) (addr : SocketAddr) (now : Nat → Instant)
    (shuffle : PartialShuffle) : Except Failure Unit × DHT σ :=
  ((s.seen env msg addr req.requesterId (now 0)).answer env req addr (now 1) shuffle).2.queue msg addr
    ((s.seen env msg addr req.requesterId (now 0)).answer env req addr (now 1) shuffle).1

/-- The state after a request has been handled in the event loop. -/
def afterRequest (env : Env σ) (s : DHT σ) (msg : Message) (req : RequestSpecific) (addr : SocketAddr) (now : Nat → Instant)
    (shuffle : PartialShuffle) : DHT σ :=
  { (s.handled env msg req addr now shuffle).2 with running := s.running && (s.handled env msg req addr now shuffle).1.isOk }

/-- An announce with a valid token stores a peer. -/
theorem answer_announce {arguments : AnnouncePeerRequestArguments} (htoken : TokenValid env s arguments addr) (now : Instant) :
    s.answer env (.announcePeerRequest arguments) addr now shuffle = (some (.pingResponse { responderId := s.ourId }),
      { s with peerStorage := s.peerStorage.announcePeer arguments.infoHash (announcedPeer arguments addr) now }) := by
  unfold answer
  dsimp only
  rw [if_pos htoken]

/-- An announce with another token does nothing. -/
theorem answer_announce_none {arguments : AnnouncePeerRequestArguments} (htoken : ¬TokenValid env s arguments addr) (now : Instant) :
    s.answer env (.announcePeerRequest arguments) addr now shuffle = (none, s) := by
  unfold answer
  dsimp only
  rw [if_neg htoken]

/-- An answer leaves the event loop running. -/
theorem answer_running (s : DHT σ) (req : RequestSpecific) (addr : SocketAddr) (now : Instant) (shuffle : PartialShuffle) :
    (s.answer env req addr now shuffle).2.running = s.running := by
  cases req with
  | announcePeerRequest arguments =>
    by_cases htoken : TokenValid env s arguments addr
    · rw [answer_announce htoken]
    · rw [answer_announce_none htoken]
  | _ => rfl

/-- An answer panics nowhere. -/
theorem answer_poisoned (s : DHT σ) (req : RequestSpecific) (addr : SocketAddr) (now : Instant) (shuffle : PartialShuffle) :
    (s.answer env req addr now shuffle).2.poisoned = s.poisoned := by
  cases req with
  | announcePeerRequest arguments =>
    by_cases htoken : TokenValid env s arguments addr
    · rw [answer_announce htoken]
    · rw [answer_announce_none htoken]
  | _ => rfl

/-- An answer leaves the socket as it was. -/
theorem answer_socket (env : Env σ) (s : DHT σ) (req : RequestSpecific) (addr : SocketAddr) (now : Instant)
    (shuffle : PartialShuffle) : (s.answer env req addr now shuffle).2.socket = s.socket := by
  cases req with
  | announcePeerRequest arguments =>
    by_cases htoken : TokenValid env s arguments addr
    · rw [answer_announce htoken]
    · rw [answer_announce_none htoken]
  | _ => rfl

/-- To queue an answer changes nothing but the socket. -/
theorem queue_eq (s : DHT σ) (msg : Message) (addr : SocketAddr) (response : Option ResponseSpecific) :
    (s.queue msg addr response).2 = { s with socket := (s.queue msg addr response).2.socket } := by
  cases response with
  | none => rfl
  | some response =>
    unfold queue
    dsimp only
    split <;> rfl

/-- To queue an answer ends no task. -/
theorem queue_outgoingUp (s : DHT σ) (msg : Message) (addr : SocketAddr) (response : Option ResponseSpecific) :
    (s.queue msg addr response).2.socket.outgoingUp = s.socket.outgoingUp := by
  cases response with
  | none => rfl
  | some response =>
    unfold queue
    dsimp only
    split <;> rfl

/-- What an answer puts on the queue. -/
theorem queue_toSend (s : DHT σ) (msg : Message) (addr : SocketAddr) (response : ResponseSpecific) :
    (s.queue msg addr (some response)).2.socket.toSend =
      s.socket.toSend ++ if s.socket.outgoingUp then [(replyTo msg addr response, addr)] else [] := by
  unfold queue
  dsimp only
  split <;> simp

/-- An answer is queued, or else the outgoing task has ended. -/
theorem queue_fst (s : DHT σ) (msg : Message) (addr : SocketAddr) (response : Option ResponseSpecific) :
    (s.queue msg addr response).1 = .ok () ∨
      s.socket.outgoingUp = false ∧ (s.queue msg addr response).1 = .error (.error (.generalError "channel closed")) := by
  cases response with
  | none => exact .inl rfl
  | some response =>
    unfold queue
    dsimp only
    by_cases hup : s.socket.outgoingUp = true
    · exact .inl (by rw [if_pos hup])
    · exact .inr ⟨Bool.eq_false_of_not_eq_true hup, by rw [if_neg hup]⟩

/-- A request is handled, or else the outgoing task has ended. -/
theorem handled_fst (env : Env σ) (s : DHT σ) (msg : Message) (req : RequestSpecific) (addr : SocketAddr) (now : Nat → Instant)
    (shuffle : PartialShuffle) : (s.handled env msg req addr now shuffle).1 = .ok () ∨ s.socket.outgoingUp = false ∧
      (s.handled env msg req addr now shuffle).1 = .error (.error (.generalError "channel closed")) := by
  have hsocket : ((s.seen env msg addr req.requesterId (now 0)).answer env req addr (now 1) shuffle).2.socket = s.socket :=
    answer_socket env _ req addr (now 1) shuffle
  rw [← hsocket]
  exact queue_fst _ msg addr _

/-- A request that is handled leaves the event loop, the lock and the outgoing task as they were. -/
theorem handled_frame (env : Env σ) (s : DHT σ) (msg : Message) (req : RequestSpecific) (addr : SocketAddr) (now : Nat → Instant)
    (shuffle : PartialShuffle) : (s.handled env msg req addr now shuffle).2.running = s.running ∧
      (s.handled env msg req addr now shuffle).2.poisoned = s.poisoned ∧
      (s.handled env msg req addr now shuffle).2.socket.outgoingUp = s.socket.outgoingUp := by
  refine ⟨?_, ?_, ?_⟩
  · unfold handled
    rw [queue_eq]
    exact answer_running _ req addr (now 1) shuffle
  · unfold handled
    rw [queue_eq]
    exact answer_poisoned _ req addr (now 1) shuffle
  · unfold handled
    rw [queue_outgoingUp, answer_socket]
    rfl

/-! ## Handlers -/

/-- A handler goes on with a result that is not a failure. -/
theorem run_lift_bind_of_ok {β : Type} {r : Except Failure α} {a : α} (h : r = .ok a) (f : α → DHTM σ β) (s : DHT σ) :
    (lift r >>= f).run.run s = (f a).run.run s := by
  rw [h]
  rfl

/-- A handler returns early with a failure. -/
theorem run_lift_bind_of_error {β : Type} {r : Except Failure α} {e : Failure} (h : r = .error e) (f : α → DHTM σ β) (s : DHT σ) :
    (lift r >>= f).run.run s = (.error e, s) := by
  rw [h]
  rfl

/-- What is done under a lock that is not poisoned. -/
theorem run_lock {x : DHTM σ α} (hpoison : s.poisoned = false) {a : α} (h : x.run.run s = (.ok a, s')) :
    (lock x).run.run s = (.ok a, s') := by
  rw [run_lock_eq, hpoison, h]
  rfl

/-- The requester is seen, where its id can be checked against its address. -/
theorem run_commonRequestHandling (env : Env σ) (hpoison : s.poisoned = false) (hip : addr.ip.Checkable) {id : Id}
    (hid : msg.getAuthorId = some id) (now : Instant) :
    (commonRequestHandling env addr msg now).run.run s = (.ok (), s.seen env msg addr id now) := by
  obtain ⟨valid, hvalid⟩ := id.isValidForIp_ok env.checksumCastagnoli hip
  have hauthor : authorOr (.error (.packetParseError "Failed to extract sender's id")) msg = .ok id := by rw [authorOr, hid]
  have hcheck : orPanic (id.isValidForIp env.checksumCastagnoli addr.ip) = .ok valid := by rw [hvalid]; rfl
  rw [commonRequestHandling, run_lift_bind_of_ok hauthor, run_lift_bind_of_ok hcheck]
  have hreadOnly : (!msg.readOnly.getD false) = true ↔ msg.readOnly ≠ some true := by
    rcases msg.readOnly with _ | _ | _ <;> simp
  unfold seen
  rw [hvalid]
  by_cases hadd : (valid && !msg.readOnly.getD false) = true
  · have hboth := Bool.and_eq_true_iff.mp hadd
    rw [if_pos hadd, if_pos ⟨by rw [hboth.1], hreadOnly.mp hboth.2⟩]
    exact run_lock hpoison rfl
  · have hnot : ¬(Except.ok valid = (Except.ok true : Except Panic Bool) ∧ msg.readOnly ≠ some true) := by
      rintro ⟨hv, hro⟩
      exact hadd (Bool.and_eq_true_iff.mpr ⟨Except.ok.inj hv, hreadOnly.mpr hro⟩)
    rw [if_neg hadd, if_neg hnot]
    rfl

/-- A request from an address that no id can be checked against panics, before anything is done. -/
theorem run_commonRequestHandling_panic (env : Env σ) (hip : ¬addr.ip.Checkable) {id : Id} (hid : msg.getAuthorId = some id)
    (now : Instant) :
    ∃ p, (commonRequestHandling env addr msg now).run.run s = (.error (.panic p), s) := by
  obtain ⟨p, hpanic⟩ := id.isValidForIp_panic env.checksumCastagnoli hip
  have hauthor : authorOr (.error (.packetParseError "Failed to extract sender's id")) msg = .ok id := by rw [authorOr, hid]
  have hcheck : orPanic (id.isValidForIp env.checksumCastagnoli addr.ip) = .error (.panic p) := by rw [hpanic]; rfl
  exact ⟨p, by rw [commonRequestHandling, run_lift_bind_of_ok hauthor, run_lift_bind_of_error hcheck]⟩

/-- The author of a request is the requester. -/
theorem getAuthorId_of_request {req : RequestSpecific} (htype : msg.messageType = .request req) :
    msg.getAuthorId = some req.requesterId := by
  rw [Message.getAuthorId, htype]

/-- What sending comes to. -/
theorem run_sendTo (s : DHT σ) (toSend : Message) (dest : SocketAddr) (destId : Option Id) (now : Instant) :
    (sendTo toSend dest destId now).run.run s =
      (if s.socket.outgoingUp then .ok () else .error (.error (.generalError "channel closed")),
        { s with socket := s.socket.sendTo toSend dest destId now }) := by
  have hsent : (modify (fun s => { s with socket := s.socket.sendTo toSend dest destId now }) : DHTM σ Unit).run.run s =
      (.ok (), { s with socket := s.socket.sendTo toSend dest destId now }) := rfl
  rw [sendTo, run_bind_of_ok hsent, run_get_bind]
  dsimp only
  rw [DHTSocket.sendTo_outgoingUp]
  cases s.socket.outgoingUp <;> rfl

/-- Sending an answer. -/
theorem run_sendTo_replyTo (s : DHT σ) (msg : Message) (addr : SocketAddr) (response : ResponseSpecific) (destId : Option Id)
    (now : Instant) : (sendTo (replyTo msg addr response) addr destId now).run.run s = s.queue msg addr (some response) := by
  rw [run_sendTo]
  by_cases hup : s.socket.outgoingUp = true
  · simp [queue, DHTSocket.sendTo, replyTo, hup]
  · simp [queue, DHTSocket.sendTo, replyTo, hup]

/-- The reply to a ping. -/
theorem run_pingReply (hpoison : s.poisoned = false) (msg : Message) (addr : SocketAddr) :
    (pingReply msg addr).run.run s = (.ok (replyTo msg addr (.pingResponse { responderId := s.ourId })), s) := by
  have hlock : (lock (do return (← get).ourId) : DHTM σ Id).run.run s = (.ok s.ourId, s) := run_lock hpoison rfl
  rw [pingReply, run_bind_of_ok hlock]
  rfl

/-- The reply to get_peers. -/
theorem run_getPeersReply (hpoison : s.poisoned = false) (arguments : GetPeersRequestArguments) (msg : Message) (addr : SocketAddr)
    (now : Instant) : (getPeersReply env arguments msg addr now).run.run s =
      (.ok (replyTo msg addr (s.getPeersAnswer env arguments addr now)),
        { s with peerStorage := (s.peerStorage.getPeers arguments.infoHash (s.peersNewerThan now)).2 }) := by
  refine run_lock hpoison ?_
  rw [run_get_bind]
  dsimp only
  rw [run_set_bind]
  unfold getPeersAnswer
  by_cases hpeers : (s.handedOut arguments.infoHash now).length = 0
  · rw [if_pos hpeers]
    have hpeers' := hpeers
    unfold handedOut peersNewerThan at hpeers'
    rw [if_pos hpeers']
    rfl
  · rw [if_neg hpeers]
    have hpeers' := hpeers
    unfold handedOut peersNewerThan at hpeers'
    rw [if_neg hpeers']
    rfl

/-- The reply to find_node. -/
theorem run_findNodeReply (hpoison : s.poisoned = false) (arguments : FindNodeRequestArguments) (msg : Message) (addr : SocketAddr) :
    (findNodeReply env arguments msg addr).run.run s = (.ok (replyTo msg addr (.findNodeResponse
      { responderId := s.ourId, nodes := s.nearestTo env arguments.target arguments.requesterId })), s) :=
  run_lock hpoison rfl

/-- The reply to an announce with a valid token. -/
theorem run_announcePeerReply (hpoison : s.poisoned = false) {arguments : AnnouncePeerRequestArguments}
    (htoken : TokenValid env s arguments addr) (msg : Message) (now : Instant) :
    (announcePeerReply env arguments msg addr now).run.run s =
      (.ok (some (replyTo msg addr (.pingResponse { responderId := s.ourId }))),
        { s with peerStorage := s.peerStorage.announcePeer arguments.infoHash (announcedPeer arguments addr) now }) := by
  refine run_lock hpoison ?_
  rw [run_get_bind]
  have hvalid : (arguments.token == calculateToken env.checksumCastagnoli addr s.tokenSecret ||
      arguments.token == calculateToken env.checksumCastagnoli addr s.oldTokenSecret) = true := by
    simpa [TokenValid] using htoken
  dsimp only
  rw [if_pos hvalid, run_set_bind]
  rfl

/-- An announce with another token is not answered. -/
theorem run_announcePeerReply_none (hpoison : s.poisoned = false) {arguments : AnnouncePeerRequestArguments}
    (htoken : ¬TokenValid env s arguments addr) (msg : Message) (now : Instant) :
    (announcePeerReply env arguments msg addr now).run.run s = (.ok none, s) := by
  refine run_lock hpoison ?_
  rw [run_get_bind]
  have hvalid : ¬(arguments.token == calculateToken env.checksumCastagnoli addr s.tokenSecret ||
      arguments.token == calculateToken env.checksumCastagnoli addr s.oldTokenSecret) = true := by
    simpa [TokenValid] using htoken
  dsimp only
  rw [if_neg hvalid]
  rfl

/-- The interval of a setting that is not negative. -/
theorem sampleInterval_of_not_neg {settings : DHTSettings} (h : ¬settings.minSampleIntervalSecs < 0) :
    sampleInterval settings = .ok (Duration.fromSecs settings.minSampleIntervalSecs.toInt.toNat) := if_neg h

/-- A negative setting panics. -/
theorem sampleInterval_of_neg {settings : DHTSettings} (h : settings.minSampleIntervalSecs < 0) : sampleInterval settings =
    .error (.panic ⟨"called `Result::unwrap()` on an `Err` value: TryFromIntError(())"⟩) := if_pos h

/-- The reply to sample_infohashes. -/
theorem run_sampleInfoHashesReply (hpoison : s.poisoned = false) {arguments : SampleInfoHashesRequestArguments}
    (hsample : s.CanSample (.sampleInfoHashesRequest arguments)) (msg : Message) (addr : SocketAddr) (shuffle : PartialShuffle) :
    (sampleInfoHashesReply env arguments msg addr shuffle).run.run s = (.ok (replyTo msg addr (.sampleInfoHashesResponse {
      responderId := s.ourId
      interval := Duration.fromSecs s.settings.minSampleIntervalSecs.toInt.toNat
      nodes := s.nearestTo env arguments.target arguments.requesterId
      samples := shuffle.run s.peerStorage.getInfoHashes s.settings.maxSampleResponse
      num := Int32.ofNat s.peerStorage.getInfoHashes.length })), s) := by
  refine run_lock hpoison ?_
  rw [run_get_bind]
  dsimp only
  rw [run_lift_bind_of_ok (sampleInterval_of_not_neg hsample.1)]
  unfold MessageBuilder.build MessageBuilder.buildSampleInfohashesResponse MessageBuilder.numInfohashesI32
  dsimp only
  rw [if_pos hsample.2]
  rfl

/-- A request that can be answered: the requester is seen, and the answer is queued. -/
theorem run_acceptSinglePacket (env : Env σ) {req : RequestSpecific} (htype : msg.messageType = .request req)
    (hpoison : s.poisoned = false) (hip : addr.ip.Checkable) (hsample : s.CanSample req) (now : Nat → Instant)
    (shuffle : PartialShuffle) :
    (acceptSinglePacket env msg addr now shuffle).run.run s = s.handled env msg req addr now shuffle := by
  have hseen := run_commonRequestHandling env hpoison hip (getAuthorId_of_request htype) (now 0)
  have hpoison' : (s.seen env msg addr req.requesterId (now 0)).poisoned = false := hpoison
  unfold acceptSinglePacket handled
  rw [htype]
  dsimp only
  rw [run_bind_of_ok hseen]
  cases req with
  | pingRequest arguments =>
    dsimp only
    rw [run_bind_of_ok (run_pingReply hpoison' msg addr)]
    exact run_sendTo_replyTo _ msg addr _ _ _
  | getPeersRequest arguments =>
    dsimp only
    rw [run_bind_of_ok (run_getPeersReply hpoison' arguments msg addr (now 1))]
    exact run_sendTo_replyTo _ msg addr _ _ _
  | findNodeRequest arguments =>
    dsimp only
    rw [run_bind_of_ok (run_findNodeReply hpoison' arguments msg addr)]
    exact run_sendTo_replyTo _ msg addr _ _ _
  | announcePeerRequest arguments =>
    dsimp only
    by_cases htoken : TokenValid env (s.seen env msg addr (RequestSpecific.announcePeerRequest arguments).requesterId (now 0))
      arguments addr
    · rw [run_bind_of_ok (run_announcePeerReply hpoison' htoken msg (now 1)), answer_announce htoken]
      exact run_sendTo_replyTo _ msg addr _ _ _
    · rw [run_bind_of_ok (run_announcePeerReply_none hpoison' htoken msg (now 1)), answer_announce_none htoken]
      rfl
  | sampleInfoHashesRequest arguments =>
    dsimp only
    have hsample' : (s.seen env msg addr (RequestSpecific.sampleInfoHashesRequest arguments).requesterId (now 0)).CanSample
        (.sampleInfoHashesRequest arguments) := hsample
    rw [run_bind_of_ok (run_sampleInfoHashesReply hpoison' hsample' msg addr shuffle)]
    exact run_sendTo_replyTo _ msg addr _ _ _

/-! ## Requests that are not answered -/

/-- A step that answers nothing and stores no peer: what it changes is the node storage and whether the DHT goes on. -/
structure Unanswered (s s' : DHT σ) : Prop where
  toSend : s'.socket.toSend = s.socket.toSend
  peerStorage : s'.peerStorage = s.peerStorage

theorem Unanswered.refl (s : DHT σ) : Unanswered s s := ⟨rfl, rfl⟩

/-- A poisoned lock is not taken. -/
theorem run_lock_poisoned (hpoison : s.poisoned = true) (x : DHTM σ α) :
    ∃ p, (lock x).run.run s = (.error (.panic p), s) := by
  exact ⟨_, by rw [run_lock_eq, if_pos hpoison]⟩

/-- Under a poisoned lock nothing is done, and nothing is returned. -/
theorem keeps_lock_poisoned (hpoison : s.poisoned = true) (x : DHTM σ α) : Keeps (fun s' => s' = s) (lock x) (fun _ => False) := by
  rintro _ rfl
  obtain ⟨p, hp⟩ := run_lock_poisoned hpoison x
  rw [hp]
  exact ⟨rfl, fun _ ha => nomatch ha⟩

/-- To take the lock and let it go changes nothing. -/
theorem run_lock_return (s : DHT σ) : ((lock (return ()) : DHTM σ Unit).run.run s).2 = s := by
  by_cases hpoison : s.poisoned = true
  · obtain ⟨p, hp⟩ := run_lock_poisoned hpoison (return () : DHTM σ Unit)
    rw [hp]
  · have hreturn : (lock (return ()) : DHTM σ Unit).run.run s = (.ok (), s) := run_lock (Bool.eq_false_of_not_eq_true hpoison) rfl
    rw [hreturn]

/-- Where the lock is poisoned, a request changes nothing. -/
theorem keeps_acceptSinglePacket_poisoned (hpoison : s.poisoned = true) (msg : Message) (addr : SocketAddr) (now : Nat → Instant)
    (shuffle : PartialShuffle) : Keeps (fun s' => s' = s) (acceptSinglePacket env msg addr now shuffle) (fun _ => True) := by
  have hcommon : Keeps (fun s' => s' = s) (commonRequestHandling env addr msg (now 0)) (fun _ => True) := by
    refine (Keeps.of_ofExcept (Q := fun _ => True) (fun _ _ => trivial)).bind (fun id _ => ?_)
    refine (Keeps.of_ofExcept (Q := fun _ => True) (fun _ _ => trivial)).bind (fun valid _ => ?_)
    dsimp only
    split
    · exact (keeps_lock_poisoned hpoison _).weaken (fun _ _ => trivial)
    · exact Keeps.of_pure trivial
  unfold acceptSinglePacket
  split
  · refine hcommon.bind (fun _ _ => ?_)
    split
    · refine Keeps.bind (Q := fun _ => False) ?_ (fun _ hnone => hnone.elim)
      exact (keeps_lock_poisoned hpoison _).bind (fun _ hnone => hnone.elim)
    · exact (keeps_lock_poisoned hpoison _).bind (fun _ hnone => hnone.elim)
    · exact (keeps_lock_poisoned hpoison _).bind (fun _ hnone => hnone.elim)
    · exact (keeps_lock_poisoned hpoison _).bind (fun _ hnone => hnone.elim)
    · exact (keeps_lock_poisoned hpoison _).bind (fun _ hnone => hnone.elim)
  · exact Keeps.of_pure trivial
  · exact Keeps.of_pure trivial

/-- A request from an address that no id can be checked against changes nothing. -/
theorem run_acceptSinglePacket_panic (env : Env σ) {req : RequestSpecific} (htype : msg.messageType = .request req)
    (hip : ¬addr.ip.Checkable) (now : Nat → Instant) (shuffle : PartialShuffle) :
    ∃ p, (acceptSinglePacket env msg addr now shuffle).run.run s = (.error (.panic p), s) := by
  obtain ⟨p, hp⟩ := run_commonRequestHandling_panic env (s := s) hip (getAuthorId_of_request htype) (now 0)
  unfold acceptSinglePacket
  rw [htype]
  exact ⟨p, run_bind_of_error hp⟩

/-- A panic under a lock that is not poisoned poisons it. -/
theorem run_lock_panic {x : DHTM σ α} (hpoison : s.poisoned = false) {p : Panic} (h : x.run.run s = (.error (.panic p), s')) :
    (lock x).run.run s = (.error (.panic p), { s' with poisoned := true }) := by
  rw [run_lock_eq, hpoison, h]
  rfl

/-- Where sample_infohashes cannot be answered, it panics. -/
theorem run_sampleInfoHashesReply_panic (env : Env σ) (hpoison : s.poisoned = false)
    {arguments : SampleInfoHashesRequestArguments} (hsample : ¬s.CanSample (.sampleInfoHashesRequest arguments)) (msg : Message)
    (addr : SocketAddr) (shuffle : PartialShuffle) :
    ∃ p, (sampleInfoHashesReply env arguments msg addr shuffle).run.run s = (.error (.panic p), { s with poisoned := true }) := by
  refine ⟨⟨"called `Result::unwrap()` on an `Err` value: TryFromIntError(())"⟩, run_lock_panic hpoison ?_⟩
  rw [run_get_bind]
  dsimp only
  by_cases hneg : s.settings.minSampleIntervalSecs < 0
  · exact run_lift_bind_of_error (sampleInterval_of_neg hneg) _ s
  · have hmany : ¬s.peerStorage.getInfoHashes.length ≤ 2147483647 := fun hfew => hsample ⟨hneg, hfew⟩
    rw [run_lift_bind_of_ok (sampleInterval_of_not_neg hneg)]
    unfold MessageBuilder.build MessageBuilder.buildSampleInfohashesResponse MessageBuilder.numInfohashesI32
    dsimp only
    rw [if_neg hmany]
    rfl

/-- A request for a sample that cannot be given is seen, and panics. -/
theorem run_acceptSinglePacket_sample (env : Env σ) {req : RequestSpecific} (htype : msg.messageType = .request req)
    (hpoison : s.poisoned = false) (hip : addr.ip.Checkable) (hsample : ¬s.CanSample req) (now : Nat → Instant)
    (shuffle : PartialShuffle) :
    ∃ p, (acceptSinglePacket env msg addr now shuffle).run.run s =
      (.error (.panic p), { s.seen env msg addr req.requesterId (now 0) with poisoned := true }) := by
  cases req with
  | sampleInfoHashesRequest arguments =>
    have hseen := run_commonRequestHandling env hpoison hip (getAuthorId_of_request htype) (now 0)
    have hpoison' : (s.seen env msg addr arguments.requesterId (now 0)).poisoned = false := hpoison
    have hsample' : ¬(s.seen env msg addr arguments.requesterId (now 0)).CanSample (.sampleInfoHashesRequest arguments) := hsample
    obtain ⟨p, hp⟩ := run_sampleInfoHashesReply_panic env hpoison' hsample' msg addr shuffle
    refine ⟨p, ?_⟩
    unfold acceptSinglePacket
    rw [htype]
    dsimp only
    rw [run_bind_of_ok hseen]
    exact run_bind_of_error hp
  | _ => exact absurd trivial hsample

/-! ## The step that accepts a request -/

/-- The loop gets to handle a message: it runs, no panic has poisoned the lock, and the message is not filtered out. -/
structure Handles (s : DHT σ) (throttled : Bool) (addr : SocketAddr) : Prop where
  running : s.running = true
  poisoned : s.poisoned = false
  throttled : throttled = false
  port : addr.port ≠ 0
  readOnly : s.settings.readOnly = false

/-- A request is answered, up to the token of an announce: the loop gets to handle it, and there is no reason for a panic. -/
structure Answers (s : DHT σ) (throttled : Bool) (req : RequestSpecific) (addr : SocketAddr) : Prop
    extends Handles s throttled addr where
  checkable : addr.ip.Checkable
  canSample : s.CanSample req

instance (s : DHT σ) (throttled : Bool) (addr : SocketAddr) : Decidable (s.Handles throttled addr) :=
  decidable_of_iff (s.running = true ∧ s.poisoned = false ∧ throttled = false ∧ addr.port ≠ 0 ∧ s.settings.readOnly = false)
    ⟨fun h => ⟨h.1, h.2.1, h.2.2.1, h.2.2.2.1, h.2.2.2.2⟩, fun h => ⟨h.running, h.poisoned, h.throttled, h.port, h.readOnly⟩⟩

instance (s : DHT σ) (throttled : Bool) (req : RequestSpecific) (addr : SocketAddr) : Decidable (s.Answers throttled req addr) :=
  decidable_of_iff (s.Handles throttled addr ∧ addr.ip.Checkable ∧ s.CanSample req)
    ⟨fun h => ⟨h.1, h.2.1, h.2.2⟩, fun h => ⟨h.toHandles, h.checkable, h.canSample⟩⟩

/-- The next message is a request. -/
structure NextRequest (s : DHT σ) (msg : Message) (req : RequestSpecific) (addr : SocketAddr) : Prop where
  head : s.socket.received.head? = some (msg, addr)
  type : msg.messageType = .request req

/-- The state without the message that was received first. -/
def popReceived (s : DHT σ) : DHT σ := { s with socket := { s.socket with received := s.socket.received.tail } }

/-- What accepting the next message comes to, while the loop runs. -/
theorem step_accept_eq {throttled : Bool} {now : Nat → Instant} (hnext : s.socket.received.head? = some (msg, addr))
    (hrunning : s.running = true) : step env s (.accept throttled now shuffle) =
      inEventLoop acceptSkips (acceptIncomingPacket env msg addr throttled now shuffle) s.popReceived := by
  obtain ⟨rest, hreceived⟩ := List.head?_eq_some_iff.mp hnext
  unfold step popReceived
  dsimp only
  rw [hreceived]
  dsimp only
  rw [if_pos hrunning]
  rfl

/-- A message that the loop gets to handle is handled, and the lock is taken once more. -/
theorem run_acceptIncomingPacket {throttled : Bool} (h : s.Handles throttled addr) (now : Nat → Instant) :
    (acceptIncomingPacket env msg addr throttled now shuffle).run.run s =
      (acceptSinglePacket env msg addr now shuffle >>= fun _ => lock (return ())).run.run s := by
  unfold acceptIncomingPacket
  rw [h.throttled, if_neg Bool.false_ne_true, if_neg h.port, run_get_bind]
  dsimp only
  rw [h.readOnly]
  rfl

/-- A request that the loop gets to handle is handled, and the lock is taken once more. -/
theorem run_acceptIncomingPacket_of_answers {throttled : Bool} {req : RequestSpecific} (htype : msg.messageType = .request req)
    (h : s.Answers throttled req addr) (now : Nat → Instant) :
    (acceptIncomingPacket env msg addr throttled now shuffle).run.run s = s.handled env msg req addr now shuffle := by
  have hsingle := run_acceptSinglePacket env htype h.poisoned h.checkable h.canSample now shuffle
  have hpoison := (handled_frame env s msg req addr now shuffle).2.1.trans h.poisoned
  rw [run_acceptIncomingPacket h.toHandles now]
  generalize s.handled env msg req addr now shuffle = r at hsingle hpoison ⊢
  rcases r with ⟨e | a, s'⟩
  · exact run_bind_of_error hsingle
  · rw [run_bind_of_ok hsingle]
    exact run_lock hpoison rfl

/-- A request that is answered. -/
theorem step_accept_of_answers {throttled : Bool} {req : RequestSpecific} (hnext : s.NextRequest msg req addr)
    (h : s.Answers throttled req addr) (now : Nat → Instant) : step env s (.accept throttled now shuffle) =
      s.popReceived.afterRequest env msg req addr now shuffle := by
  have hanswers : s.popReceived.Answers throttled req addr :=
    ⟨⟨h.running, h.poisoned, h.throttled, h.port, h.readOnly⟩, h.checkable, h.canSample⟩
  have hrunning : s.popReceived.running = true := h.running
  have hkept := (handled_frame env s.popReceived msg req addr now shuffle).1.trans hrunning
  have hresult := handled_fst env s.popReceived msg req addr now shuffle
  rw [step_accept_eq hnext.head h.running, inEventLoop, if_pos hrunning,
    run_acceptIncomingPacket_of_answers hnext.type hanswers now]
  unfold afterRequest
  generalize s.popReceived.handled env msg req addr now shuffle = r at hresult hkept ⊢
  obtain ⟨result, s'⟩ := r
  dsimp only at hresult hkept
  rcases hresult with rfl | ⟨-, rfl⟩
  · simp [Except.isOk, Except.toBool, hrunning, ← hkept]
  · simp [Except.isOk, Except.toBool, acceptSkips]

/-- A handler in the event loop leaves its state, but for whether the loop goes on. -/
theorem inEventLoop_cases (skips : RustyDHTError → Bool) (x : DHTM σ Unit) (s : DHT σ) :
    inEventLoop skips x s = s ∨ ∃ running, inEventLoop skips x s = { (x.run.run s).2 with running } := by
  unfold inEventLoop
  by_cases hrunning : s.running = true
  · right
    rw [if_pos hrunning]
    rcases x.run.run s with ⟨(e | p) | a, s'⟩
    · by_cases hskip : skips e = true
      · exact ⟨s'.running, if_pos hskip⟩
      · exact ⟨false, if_neg hskip⟩
    · exact ⟨false, rfl⟩
    · exact ⟨s'.running, rfl⟩
  · left
    rw [if_neg hrunning]

/-- A request that the loop gets to handle, but that is not answered. -/
theorem unanswered_acceptSinglePacket (env : Env σ) {throttled : Bool} {req : RequestSpecific}
    (htype : msg.messageType = .request req) (hnot : ¬s.Answers throttled req addr) (hh : s.Handles throttled addr)
    (now : Nat → Instant) (shuffle : PartialShuffle) :
    ∃ p s', (acceptSinglePacket env msg addr now shuffle).run.run s = (.error (.panic p), s') ∧ Unanswered s s' := by
  by_cases hip : addr.ip.Checkable
  · have hsample : ¬s.CanSample req := fun hsample => hnot ⟨hh, hip, hsample⟩
    obtain ⟨p, hp⟩ := run_acceptSinglePacket_sample env htype hh.poisoned hip hsample now shuffle
    exact ⟨p, _, hp, rfl, rfl⟩
  · obtain ⟨p, hp⟩ := run_acceptSinglePacket_panic env (s := s) htype hip now shuffle
    exact ⟨p, s, hp, .refl s⟩

/-- A request that the loop does not get to handle changes nothing. -/
theorem run_acceptIncomingPacket_filtered {throttled : Bool} (hrunning : s.running = true) (hnot : ¬s.Handles throttled addr)
    (now : Nat → Instant) : ((acceptIncomingPacket env msg addr throttled now shuffle).run.run s).2 = s := by
  unfold acceptIncomingPacket
  by_cases hthrottled : throttled = true
  · rw [if_pos hthrottled]
    rfl
  rw [if_neg hthrottled]
  by_cases hport : addr.port = 0
  · rw [if_pos hport]
    rfl
  rw [if_neg hport, run_get_bind]
  dsimp only
  cases hreadOnly : s.settings.readOnly with
  | true => exact run_lock_return s
  | false =>
    have hpoison : s.poisoned = true := by
      by_contra hpoison
      exact hnot ⟨hrunning, Bool.eq_false_of_not_eq_true hpoison, Bool.eq_false_of_not_eq_true hthrottled, hport, hreadOnly⟩
    exact (((keeps_acceptSinglePacket_poisoned hpoison msg addr now shuffle).bind (fun _ _ =>
      (keeps_lock_poisoned hpoison _).weaken (fun _ _ => trivial))) s rfl).1

/-- A request that is not answered. -/
theorem step_accept_of_not_answers {throttled : Bool} {req : RequestSpecific} (hnext : s.NextRequest msg req addr)
    (hnot : ¬s.Answers throttled req addr) (now : Nat → Instant) : Unanswered s (step env s (.accept throttled now shuffle)) := by
  by_cases hrunning : s.running = true
  · rw [step_accept_eq hnext.head hrunning]
    have hstate : Unanswered s ((acceptIncomingPacket env msg addr throttled now shuffle).run.run s.popReceived).2 := by
      by_cases hh : s.popReceived.Handles throttled addr
      · have hnot' : ¬s.popReceived.Answers throttled req addr := fun h =>
          hnot ⟨⟨hh.running, hh.poisoned, hh.throttled, hh.port, hh.readOnly⟩, h.checkable, h.canSample⟩
        obtain ⟨p, s', hp, hquiet⟩ := unanswered_acceptSinglePacket env hnext.type hnot' hh now shuffle
        rw [run_acceptIncomingPacket hh, run_bind_of_error hp]
        exact ⟨hquiet.toSend, hquiet.peerStorage⟩
      · rw [run_acceptIncomingPacket_filtered (s := s.popReceived) hrunning hh]
        exact ⟨rfl, rfl⟩
    rcases inEventLoop_cases acceptSkips (acceptIncomingPacket env msg addr throttled now shuffle) s.popReceived with
      hsame | ⟨running, hloop⟩
    · rw [hsame]
      exact ⟨rfl, rfl⟩
    · rw [hloop]
      exact ⟨hstate.toSend, hstate.peerStorage⟩
  · obtain ⟨rest, hreceived⟩ := List.head?_eq_some_iff.mp hnext.head
    unfold step inEventLoop
    dsimp only
    rw [hreceived]
    dsimp only
    rw [if_neg hrunning, if_neg hrunning]
    exact .refl s

/-! ## Announces and get_peers -/

/-- An announce is accepted: the peer is stored, and a reply is queued to where the announce came from, unless the outgoing task has
ended. -/
structure AnnounceAccepted (s s' : DHT σ) (msg : Message) (arguments : AnnouncePeerRequestArguments) (addr : SocketAddr)
    (now : Instant) : Prop where
  stored : s'.peerStorage = s.peerStorage.announcePeer arguments.infoHash (announcedPeer arguments addr) now
  replied : s'.socket.toSend = s.socket.toSend ++
    if s.socket.outgoingUp then [(replyTo msg addr (.pingResponse { responderId := s.ourId }), addr)] else []

/-- An announce with a valid token is accepted. -/
theorem step_accept_announce {throttled : Bool} {arguments : AnnouncePeerRequestArguments}
    (hnext : s.NextRequest msg (.announcePeerRequest arguments) addr) (h : s.Answers throttled (.announcePeerRequest arguments) addr)
    (htoken : TokenValid env s arguments addr) (now : Nat → Instant) (shuffle : PartialShuffle) :
    AnnounceAccepted s (step env s (.accept throttled now shuffle)) msg arguments addr (now 1) := by
  have htoken' : TokenValid env (s.popReceived.seen env msg addr (RequestSpecific.announcePeerRequest arguments).requesterId (now 0))
      arguments addr := htoken
  rw [step_accept_of_answers hnext h now, afterRequest, handled, answer_announce htoken']
  refine ⟨?_, ?_⟩
  · dsimp only
    rw [queue_eq]
    rfl
  · exact queue_toSend _ msg addr _

/-- An announce with another token does nothing. -/
theorem step_accept_announce_none {arguments : AnnouncePeerRequestArguments}
    (hnext : s.NextRequest msg (.announcePeerRequest arguments) addr) (htoken : ¬TokenValid env s arguments addr) (throttled : Bool)
    (now : Nat → Instant) (shuffle : PartialShuffle) : Unanswered s (step env s (.accept throttled now shuffle)) := by
  by_cases h : s.Answers throttled (.announcePeerRequest arguments) addr
  · have htoken' : ¬TokenValid env (s.popReceived.seen env msg addr (RequestSpecific.announcePeerRequest arguments).requesterId (now 0))
        arguments addr := htoken
    rw [step_accept_of_answers hnext h now, afterRequest, handled, answer_announce_none htoken']
    exact ⟨rfl, rfl⟩
  · exact step_accept_of_not_answers hnext h now

/-- Accepting the next message answers get_peers, and the reply that is queued carries the response. -/
structure RepliesGetPeers (env : Env σ) (s : DHT σ) (throttled : Bool) (now : Nat → Instant) (shuffle : PartialShuffle)
    (arguments : GetPeersRequestArguments) (addr : SocketAddr) (response : GetPeersResponseArguments) : Prop where
  reply : ∃ msg reply, s.NextRequest msg (.getPeersRequest arguments) addr ∧
    reply.messageType = .response (.getPeersResponse response) ∧
    (step env s (.accept throttled now shuffle)).socket.toSend = s.socket.toSend ++ [(reply, addr)]

/-- The response to get_peers is that of the state in which the requester has been seen. -/
theorem RepliesGetPeers.eq_answer {throttled : Bool} {now : Nat → Instant} {arguments : GetPeersRequestArguments}
    {response : GetPeersResponseArguments} (h : RepliesGetPeers env s throttled now shuffle arguments addr response) :
    s.Answers throttled (.getPeersRequest arguments) addr ∧ ∃ msg, .getPeersResponse response =
      (s.seen env msg addr arguments.requesterId (now 0)).getPeersAnswer env arguments addr (now 1) := by
  obtain ⟨msg, reply, hnext, htype, hsent⟩ := h.reply
  by_cases hanswers : s.Answers throttled (.getPeersRequest arguments) addr
  · refine ⟨hanswers, msg, ?_⟩
    rw [step_accept_of_answers hnext hanswers now] at hsent
    have hreply := List.append_cancel_left ((queue_toSend _ msg addr _).symm.trans hsent)
    split at hreply
    · obtain ⟨rfl, -⟩ := Prod.mk.inj (List.singleton_inj.mp hreply)
      exact (MessageType.response.inj htype).symm
    · exact nomatch hreply
  · rw [(step_accept_of_not_answers hnext hanswers now).toSend] at hsent
    exact absurd (congrArg List.length hsent) (by simp)

/-! ## Requests to try -/

/-- A clock that shows one time, far from its start. -/
def sampleClock : Nat → Instant := fun _ => Duration.fromSecs 1000

/-- A shuffle that leaves the slice as it is. -/
def sampleShuffle : PartialShuffle where
  run l n := l.take n
  subperm l n := (List.take_sublist n l).subperm
  length _ _ := List.length_take

/-- The packet of a get_peers request for the info hash zero. -/
def samplePeersPacket : List UInt8 :=
  Bencode.ascii "d1:ad2:id20:" ++ (Id.startingWith 2).bytes ++ Bencode.ascii "9:info_hash20:" ++ Id.zero.bytes ++
    Bencode.ascii "e1:q9:get_peers1:t2:" ++ ([0, 0] : List UInt8) ++ Bencode.ascii "1:y1:qe"

/-- The arguments in it. -/
def samplePeersArguments : GetPeersRequestArguments := { requesterId := Id.startingWith 2, infoHash := Id.zero }

/-- The request in it. -/
def samplePeersRequest : Message :=
  { transactionId := [0, 0], version := none, requesterIp := none
    messageType := .request (.getPeersRequest samplePeersArguments), readOnly := none }

/-- The token that a new DHT gives to 127.0.0.1. -/
def sampleToken : List UInt8 := calculateToken crc32c (.v4 ⟨127, 0, 0, 1⟩ 6881) sampleDht.tokenSecret

/-- The packet of an announce of port 6883 for the info hash zero. -/
def sampleAnnouncePacket : List UInt8 :=
  Bencode.ascii "d1:ad2:id20:" ++ (Id.startingWith 2).bytes ++ Bencode.ascii "9:info_hash20:" ++ Id.zero.bytes ++
    Bencode.ascii "4:porti6883e5:token4:" ++ sampleToken ++ Bencode.ascii "e1:q13:announce_peer1:t2:" ++ ([0, 1] : List UInt8) ++
    Bencode.ascii "1:y1:qe"

/-- The arguments in it. -/
def sampleAnnounceArguments : AnnouncePeerRequestArguments :=
  { requesterId := Id.startingWith 2, infoHash := Id.zero, port := 6883, impliedPort := none, token := sampleToken }

/-- The request in it. -/
def sampleAnnounce : Message :=
  { transactionId := [0, 1], version := none, requesterIp := none
    messageType := .request (.announcePeerRequest sampleAnnounceArguments), readOnly := none }

/-- A DHT that 127.0.0.1:6883 has announced itself to. -/
def sampleAnnounced : DHT Ipv4Addr :=
  Machine.run (step sampleEnv) sampleDht
    [.packet sampleAnnouncePacket ⟨127, 0, 0, 1⟩ 6882, .accept false sampleClock sampleShuffle]

end DHT

end RustyDht
