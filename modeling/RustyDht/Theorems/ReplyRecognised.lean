import RustyDht.Lemmas.PeerStorage
import RustyDht.Lemmas.Requests
import RustyDht.Lemmas.Socket

/-!
# Replies and the requests they are matched with

The DHT that asks and the one that answers agree only indirectly: the one that answers picks the kind of its reply, the wire does not
carry it, the decoder guesses it from the keys, and the storage of the one that asks compares the guess with the request. They do
agree: each reply to a request is taken, off the wire, as the answer to it.
-/

namespace RustyDht

open Bencode (Codec)

namespace DHT

variable {σ : Type} {env : Env σ} {s : DHT σ} {msg : Message} {req : RequestSpecific} {addr : SocketAddr} {now : Nat → Instant}
  {shuffle : PartialShuffle}

/-- The nodes and the peers that a DHT stores are IPv4. -/
structure StoresIpv4 (s : DHT σ) : Prop where
  nodes : ∀ w ∈ s.buckets.getAllVerified ++ s.buckets.getAllUnverified, w.node.address.isIpv4 = true
  peers : ∀ infoHash peer info, s.peerStorage.Stored infoHash peer info → info.addr.isIpv4 = true

/-- A request is replied to: the lock is not poisoned, the outgoing task runs, a sample can be given, and the token of an announce is
accepted. -/
structure RepliesTo (env : Env σ) (s : DHT σ) (req : RequestSpecific) (addr : SocketAddr) : Prop where
  poisoned : s.poisoned = false
  outgoingUp : s.socket.outgoingUp = true
  canSample : s.CanSample req
  token : ∀ arguments, req = .announcePeerRequest arguments → TokenValid env s arguments addr

/-- `accept_single_packet` puts a reply on the queue. -/
def Queues (env : Env σ) (s : DHT σ) (msg : Message) (addr : SocketAddr) (now : Nat → Instant) (shuffle : PartialShuffle)
    (reply : Message) (dest : SocketAddr) : Prop :=
  ((acceptSinglePacket env msg addr now shuffle).run.run s).2.socket.toSend = s.socket.toSend ++ [(reply, dest)]

/-- The reply is recognised: it is written, what is read back has the transaction id of the request, and when it comes from where the
request was sent, from a node that it was meant for, and the entry is still stored, it takes that entry and no other. -/
def Recognised (codec : Codec) (s : DHT σ) (msg reply : Message) : Prop :=
  ∃ bytes received, reply.toBytes codec = .ok bytes ∧ Message.fromBytes codec bytes = .ok received ∧
    received.transactionId = msg.transactionId ∧
    ∀ (storage : OutboundRequestStorage) (info : RequestInfo), storage.requests (.from msg.transactionId) = some info →
      info.packet = msg → (info.id = none ∨ info.id = some s.ourId) →
      storage.takeMatchingRequestInfo received info.addr =
        (some info, { requests := Function.update storage.requests (.from msg.transactionId) none })

/-! ## The reply -/

/-- The answer that a request gets is of its kind, is from the DHT, and carries IPv4 addresses only. -/
structure Suits (s : DHT σ) (req : RequestSpecific) (response : ResponseSpecific) : Prop where
  kind : responseMatchesRequest response req = true
  responder : response.responderId = s.ourId
  ipv4 : response.AllIpv4

/-- The nodes that an answer lists are stored ones. -/
theorem StoresIpv4.nearestTo (h : s.StoresIpv4) (target requesterId : Id) :
    ∀ n ∈ s.nearestTo env target requesterId, n.address.isIpv4 = true := by
  intro n hn
  obtain ⟨w, hw, rfl⟩ := NodeBucketStorage.mem_getNearestNodes hn
  exact h.nodes w (List.mem_append_left _ hw)

/-- The peers that are handed out are stored ones. -/
theorem StoresIpv4.handedOut (h : s.StoresIpv4) (infoHash : Id) (now : Instant) :
    ∀ peer ∈ s.handedOut infoHash now, peer.isIpv4 = true := by
  intro peer hpeer
  obtain ⟨key, info, hstored, -, rfl⟩ := PeerStorage.mem_getPeers_iff.mp (List.mem_of_mem_take hpeer)
  exact h.peers infoHash key info hstored

/-- Where what is stored is IPv4, the answer suits. -/
theorem StoresIpv4.answer_suits (h : s.StoresIpv4) {response : ResponseSpecific} {now : Instant}
    (hanswer : (s.answer env req addr now shuffle).1 = some response) : s.Suits req response := by
  cases req with
  | pingRequest arguments =>
    obtain rfl := Option.some.inj hanswer
    exact ⟨rfl, rfl, trivial⟩
  | getPeersRequest arguments =>
    obtain rfl := Option.some.inj hanswer
    refine ⟨rfl, rfl, ?_⟩
    unfold getPeersAnswer ResponseSpecific.AllIpv4
    dsimp only
    by_cases hnone : (s.handedOut arguments.infoHash now).length = 0
    · rw [if_pos hnone]
      exact h.nearestTo _ _
    · rw [if_neg hnone]
      exact h.handedOut _ _
  | findNodeRequest arguments =>
    obtain rfl := Option.some.inj hanswer
    exact ⟨rfl, rfl, h.nearestTo _ _⟩
  | announcePeerRequest arguments =>
    by_cases htoken : TokenValid env s arguments addr
    · rw [answer_announce htoken] at hanswer
      obtain rfl := Option.some.inj hanswer
      exact ⟨rfl, rfl, trivial⟩
    · rw [answer_announce_none htoken] at hanswer
      exact nomatch hanswer
  | sampleInfoHashesRequest arguments =>
    obtain rfl := Option.some.inj hanswer
    exact ⟨rfl, rfl, h.nearestTo _ _⟩

/-- A requester at an IPv4 address leaves what is stored IPv4. -/
theorem StoresIpv4.seen (env : Env σ) (h : s.StoresIpv4) (hwf : s.buckets.Wf) (haddr : addr.isIpv4 = true) (msg : Message) (id : Id)
    (now : Instant) : (s.seen env msg addr id now).StoresIpv4 := by
  refine ⟨?_, h.peers⟩
  have hall : s.buckets.AllNodes (fun n => n.address.isIpv4 = true) :=
    ⟨hwf, fun w hw => h.nodes w (List.mem_append_left _ hw), fun w hw => h.nodes w (List.mem_append_right _ hw)⟩
  unfold DHT.seen
  dsimp only
  split
  · have hnode : (⟨id, addr⟩ : Node).address.isIpv4 = true := haddr
    have hadded := hall.addOrUpdate env.sort hnode false now now
    intro w hw
    rcases List.mem_append.mp hw with hw | hw
    · exact hadded.verified w hw
    · exact hadded.unverified w hw
  · exact h.nodes

/-- There is an answer exactly where the token of an announce, if the request is one, is accepted. -/
theorem answer_isSome_iff (env : Env σ) (s : DHT σ) (req : RequestSpecific) (addr : SocketAddr) (now : Instant)
    (shuffle : PartialShuffle) :
    (s.answer env req addr now shuffle).1.isSome = true ↔
      ∀ arguments, req = .announcePeerRequest arguments → TokenValid env s arguments addr := by
  cases req with
  | announcePeerRequest arguments =>
    by_cases htoken : TokenValid env s arguments addr
    · rw [answer_announce htoken]
      simpa using htoken
    · rw [answer_announce_none htoken]
      simpa using htoken
  | _ => exact ⟨fun _ _ h => (nomatch h), fun _ => rfl⟩

/-- What is put on the queue is the answer, to where the request came from, if the request is replied to. -/
theorem queues_iff (htype : msg.messageType = .request req) (hip : addr.ip.Checkable) {reply : Message} {dest : SocketAddr} :
    Queues env s msg addr now shuffle reply dest ↔ RepliesTo env s req addr ∧ dest = addr ∧ ∃ response,
      ((s.seen env msg addr req.requesterId (now 0)).answer env req addr (now 1) shuffle).1 = some response ∧
        reply = replyTo msg addr response := by
  have hnothing : ∀ l : List (Message × SocketAddr), ¬l = l ++ [(reply, dest)] := fun l h => by simp at h
  unfold Queues
  by_cases hpoison : s.poisoned = true
  · have hsame : ((acceptSinglePacket env msg addr now shuffle).run.run s).2 = s :=
      (keeps_acceptSinglePacket_poisoned hpoison msg addr now shuffle s rfl).1
    rw [hsame]
    exact ⟨fun h => absurd h (hnothing _), fun h => absurd hpoison (by rw [h.1.poisoned]; exact Bool.false_ne_true)⟩
  have hpoison : s.poisoned = false := Bool.eq_false_of_not_eq_true hpoison
  by_cases hsample : s.CanSample req
  · rw [run_acceptSinglePacket env htype hpoison hip hsample now shuffle, handled]
    have hsome := answer_isSome_iff env (s.seen env msg addr req.requesterId (now 0)) req addr (now 1) shuffle
    have hsocket : ((s.seen env msg addr req.requesterId (now 0)).answer env req addr (now 1) shuffle).2.socket = s.socket :=
      answer_socket env _ req addr (now 1) shuffle
    cases hanswer : ((s.seen env msg addr req.requesterId (now 0)).answer env req addr (now 1) shuffle).1 with
    | none =>
      unfold queue
      dsimp only
      rw [hsocket]
      refine ⟨fun h => absurd h (hnothing _), ?_⟩
      rintro ⟨-, -, response, hresponse, -⟩
      cases hresponse
    | some response =>
      rw [queue_toSend, hsocket]
      rw [hanswer, Option.isSome_some, eq_self_iff_true, true_iff] at hsome
      constructor
      · intro h
        have hsent := List.append_cancel_left h
        split at hsent
        · rename_i hup
          obtain ⟨hreply, hdest⟩ := Prod.mk.inj (List.singleton_inj.mp hsent)
          exact ⟨⟨hpoison, hup, hsample, hsome⟩, hdest.symm, response, rfl, hreply.symm⟩
        · cases hsent
      · rintro ⟨hreplies, rfl, response', hresponse, rfl⟩
        obtain rfl := Option.some.inj hresponse
        rw [if_pos hreplies.outgoingUp]
  · obtain ⟨p, hp⟩ := run_acceptSinglePacket_sample env htype hpoison hip hsample now shuffle
    rw [hp]
    exact ⟨fun h => absurd h (hnothing _), fun h => absurd h.1.canSample hsample⟩

/-! ## On the wire and back -/

/-- Cutting the interval down leaves the author. -/
theorem responderId_truncateInterval (response : ResponseSpecific) : response.truncateInterval.responderId = response.responderId := by
  cases response <;> rfl

/-- Cutting the interval down leaves the kind. -/
theorem responseMatchesRequest_truncateInterval (response : ResponseSpecific) (req : RequestSpecific) :
    responseMatchesRequest response.truncateInterval req = responseMatchesRequest response req := by
  cases response <;> cases req <;> rfl

/-- A reply that suits the request is recognised. -/
theorem Suits.recognised {response : ResponseSpecific} (h : s.Suits req response) (htype : msg.messageType = .request req)
    (haddr : addr.isIpv4 = true) (codec : Codec) : s.Recognised codec msg (replyTo msg addr response) := by
  have hipv4 : (replyTo msg addr response).AllIpv4 := by
    refine ⟨fun ip hip => ?_, h.ipv4⟩
    obtain rfl := Option.some.inj hip
    exact haddr
  obtain ⟨bytes, hto, hfrom⟩ := Message.fromBytes_toBytes codec hipv4
  refine ⟨bytes, _, hto, hfrom, rfl, ?_⟩
  rintro storage info hstored rfl hid
  have hauthor : Message.getAuthorId (replyTo info.packet addr response).truncateInterval = some s.ourId := by
    rw [← h.responder, ← responderId_truncateInterval response]
    rfl
  have hkind : responseMatchesRequest response.truncateInterval req = true := by
    rw [responseMatchesRequest_truncateInterval, h.kind]
  refine OutboundRequestStorage.takeMatchingRequestInfo_of_answeredBy hstored ⟨rfl, rfl, ?_, response.truncateInterval, req, rfl,
    htype, hkind⟩
  exact hid.imp_right (fun hid => hid.trans hauthor.symm)

/-! ## Every run -/

/-- Whatever the run of a new DHT, where the nodes and peers it stores are IPv4, a request from an IPv4 address is replied to exactly
when the lock is not poisoned, the outgoing task runs, a sample can be given and the token of an announce is accepted; and every reply
goes to where the request came from, and is recognised. -/
theorem run_recognised (env : Env σ) {id : Option Id} {ip4Source : σ} {buckets : NodeBucketStorage} {settings : DHTSettings}
    {rng secretRng : Nat → UInt8} {random : Id} {start s : DHT σ}
    (hnew : new env id ip4Source buckets settings rng secretRng random = .ok start) {events : List Event}
    (hrun : Machine.run (step env) start events = s) (hstores : s.StoresIpv4) {msg : Message} {req : RequestSpecific}
    (htype : msg.messageType = .request req) {addr : SocketAddr} (haddr : addr.isIpv4 = true) (now : Nat → Instant)
    (shuffle : PartialShuffle) (codec : Codec) :
    ((∃ reply dest, Queues env s msg addr now shuffle reply dest) ↔ RepliesTo env s req addr) ∧
      ∀ reply dest, Queues env s msg addr now shuffle reply dest → dest = addr ∧ s.Recognised codec msg reply := by
  have hwf : s.buckets.Wf := hrun ▸ (run_holds env (P := fun _ => True) (fun _ _ => trivial) hnew events).buckets.wf
  have hip : addr.ip.Checkable := by
    cases addr with
    | v4 ip port => exact .inl rfl
    | v6 ip port flowinfo scopeId => exact absurd haddr Bool.false_ne_true
  have hseen := hstores.seen env hwf haddr msg req.requesterId (now 0)
  refine ⟨⟨?_, ?_⟩, ?_⟩
  · rintro ⟨reply, dest, hqueues⟩
    exact ((queues_iff htype hip).mp hqueues).1
  · intro hreplies
    have hsome := (answer_isSome_iff env (s.seen env msg addr req.requesterId (now 0)) req addr (now 1) shuffle).mpr hreplies.token
    obtain ⟨response, hresponse⟩ := Option.isSome_iff_exists.mp hsome
    exact ⟨replyTo msg addr response, addr, (queues_iff htype hip).mpr ⟨hreplies, rfl, response, hresponse, rfl⟩⟩
  · intro reply dest hqueues
    obtain ⟨-, rfl, response, hresponse, rfl⟩ := (queues_iff htype hip).mp hqueues
    exact ⟨rfl, (hseen.answer_suits hresponse).recognised htype haddr codec⟩

/-- A DHT that has stored one peer is asked for the peers of its info hash. -/
theorem run_recognised_one_peer :
    ((∃ reply dest, Queues sampleEnv sampleAnnounced samplePeersRequest (.v4 ⟨127, 0, 0, 1⟩ 6881) sampleClock sampleShuffle reply dest) ↔
        RepliesTo sampleEnv sampleAnnounced (.getPeersRequest samplePeersArguments) (.v4 ⟨127, 0, 0, 1⟩ 6881)) ∧
      ∀ reply dest,
        Queues sampleEnv sampleAnnounced samplePeersRequest (.v4 ⟨127, 0, 0, 1⟩ 6881) sampleClock sampleShuffle reply dest →
        dest = .v4 ⟨127, 0, 0, 1⟩ 6881 ∧ sampleAnnounced.Recognised Bencode.codec samplePeersRequest reply := by
  have hpeers : ∀ e ∈ sampleAnnounced.peerStorage.peers.entries, ∀ p ∈ e.2.entries, p.2.addr.isIpv4 = true := by decide +kernel
  have hstores : sampleAnnounced.StoresIpv4 := by
    refine ⟨by decide +kernel, ?_⟩
    rintro infoHash peer info ⟨swarmLru, hswarm, hpeer⟩
    exact hpeers _ hswarm _ hpeer
  exact run_recognised sampleEnv sampleDht_new rfl hstores rfl rfl sampleClock sampleShuffle Bencode.codec

end DHT

end RustyDht
