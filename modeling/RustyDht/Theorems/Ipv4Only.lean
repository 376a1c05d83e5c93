import RustyDht.Lemmas.Network
import RustyDht.Theorems.PeersHandedOut
import RustyDht.Theorems.ReplyRecognised

/-!
# What a DHT stores and sends is IPv4

The socket of a DHT is bound to an IPv4 address and the wire carries IPv4 addresses only, so every node and every peer that is stored is
IPv4, whatever packets come in. Hence whatever a DHT sends of its own accord can be written and reads back, and each of its replies is
recognised where the request came from.
-/

namespace RustyDht

namespace DHT

variable {σ : Type} {env : Env σ} {s : DHT σ}

/-- What is known, and the peers that are stored, are IPv4. -/
structure Ipv4Only (s : DHT σ) : Prop where
  informed : s.Informed FromIpv4 (fun n => n.address.isIpv4 = true)
  peers : ∀ infoHash peer info, s.peerStorage.Stored infoHash peer info → info.addr.isIpv4 = true

theorem Ipv4Only.storesIpv4 (h : s.Ipv4Only) : s.StoresIpv4 where
  nodes w hw := by
    rcases List.mem_append.mp hw with hw | hw
    · exact h.informed.holds.buckets.verified w hw
    · exact h.informed.holds.buckets.unverified w hw
  peers := h.peers

theorem ipv4Only_of_new {id : Option Id} {ip4Source : σ} {buckets : NodeBucketStorage} {settings : DHTSettings}
    {rng secretRng : Nat → UInt8} {random : Id} {s : DHT σ}
    (hnew : new env id ip4Source buckets settings rng secretRng random = .ok s) : s.Ipv4Only where
  informed := informed_of_new hnew
  peers := by
    rintro infoHash peer info ⟨swarmLru, hswarm, -⟩
    rw [(new_eq_ok hnew).2.2.1] at hswarm
    exact absurd hswarm List.not_mem_nil

/-- An announce that is accepted came from an IPv4 address. -/
theorem Ipv4Only.source (h : s.Ipv4Only) {e : Event} {a : Announce} (haccepts : AnnounceHistory.accepts env s e = some a) :
    a.source.isIpv4 = true := by
  unfold AnnounceHistory.accepts at haccepts
  split at haccepts
  · split at haccepts
    · rename_i hhead
      obtain ⟨-, rfl⟩ := Option.ite_some_none_eq_some.mp haccepts
      exact (h.informed.received _ (List.mem_of_head? hhead)).1
    · cases haccepts
  · cases haccepts

/-- The peer that an announce from an IPv4 address stores is IPv4. -/
theorem isIpv4_announcedPeer {addr : SocketAddr} (haddr : addr.isIpv4 = true) (arguments : AnnouncePeerRequestArguments) :
    (announcedPeer arguments addr).isIpv4 = true := by
  cases addr with
  | v4 ip port =>
    unfold announcedPeer
    split <;> rfl
  | v6 ip port flowinfo scopeId => cases haddr

/-- Every event leaves what is stored IPv4. -/
theorem Ipv4Only.step (h : s.Ipv4Only) (e : Event) : (step env s e).Ipv4Only where
  informed := h.informed.step (trusts_fromIpv4 env) e (fun _ _ _ _ _ hread => ⟨rfl, Message.allIpv4_of_fromBytes hread⟩)
  peers := by
    cases haccepts : AnnounceHistory.accepts env s e with
    | none =>
      refine AnnounceHistory.keeps_of_not_accepts
        (P := fun storage => ∀ infoHash peer info, storage.Stored infoHash peer info → info.addr.isIpv4 = true) ?_ haccepts h.peers
      intro storage hash newerThan hstorage infoHash peer info hstored
      exact hstorage infoHash peer info ((PeerStorage.stored_getPeers_iff hash newerThan).mp hstored)
    | some a =>
      rw [AnnounceHistory.peerStorage_of_accepts haccepts]
      intro infoHash peer info hstored
      rcases hstored.of_announcePeer with ⟨-, -, rfl⟩ | ⟨-, hstored⟩
      · exact isIpv4_announcedPeer (h.source haccepts) a.arguments
      · exact h.peers infoHash peer info hstored

/-- In every run of a new DHT, what it stores is IPv4. -/
theorem run_ipv4Only (env : Env σ) {id : Option Id} {ip4Source : σ} {buckets : NodeBucketStorage} {settings : DHTSettings}
    {rng secretRng : Nat → UInt8} {random : Id} {s : DHT σ}
    (hnew : new env id ip4Source buckets settings rng secretRng random = .ok s) (events : List Event) :
    (Machine.run (DHT.step env) s events).Ipv4Only :=
  Machine.run_invariant (DHT.step env) (P := Ipv4Only) (fun _ e h => h.step e) events s (ipv4Only_of_new hnew)

/-- The reply to a request suits it, and comes from an IPv4 address. -/
theorem Ipv4Only.suits (h : s.Ipv4Only) {msg : Message} {req : RequestSpecific} {addr : SocketAddr} (hnext : s.NextRequest msg req addr)
    {now : Nat → Instant} {shuffle : PartialShuffle} {res : ResponseSpecific}
    (hanswer : ((s.seen env msg addr req.requesterId (now 0)).answer env req addr (now 1) shuffle).1 = some res) :
    s.Suits req res ∧ addr.isIpv4 = true := by
  have haddr : addr.isIpv4 = true := (h.informed.received _ (List.mem_of_head? hnext.head)).1
  have hseen := h.storesIpv4.seen env h.informed.holds.buckets.wf haddr msg req.requesterId (now 0)
  obtain ⟨hkind, hresponder, hipv4⟩ := hseen.answer_suits hanswer
  exact ⟨⟨hkind, hresponder, hipv4⟩, haddr⟩

/-- A message with IPv4 addresses reads as itself, with its interval cut down. -/
theorem Message.readsAs_of_allIpv4 (codec : Bencode.Codec) {m : Message} (h : m.AllIpv4) : Message.ReadsAs codec m m.truncateInterval :=
  Message.fromBytes_toBytes codec h

/-- The request of a spawned task carries no address. -/
theorem allIpv4_request (task : SpawnedTask) (ourId : Id) (readOnly : Bool) (rng : UInt8 × UInt8) :
    (SpawnedTask.request task ourId readOnly rng).AllIpv4 := by
  cases task with
  | ping target targetId =>
    refine ⟨fun ip hip => ?_, trivial⟩
    cases hip
  | findNode dest destId target =>
    refine ⟨fun ip hip => ?_, trivial⟩
    cases hip

/-- In every run of a new DHT, whatever an event sends, other than what the application asks to send, is written, and what is read back is
what was sent, with its interval cut down; and if it is a reply, the one that asked takes it for the answer to its request and to no other. -/
theorem run_sends_readsAs (env : Env σ) {id : Option Id} {ip4Source : σ} {buckets : NodeBucketStorage} {settings : DHTSettings}
    {rng secretRng : Nat → UInt8} {random : Id} {start s : DHT σ}
    (hnew : new env id ip4Source buckets settings rng secretRng random = .ok start) {events : List Event}
    (hrun : Machine.run (DHT.step env) start events = s) {e : Event}
    (hown : ∀ req dest destId now, e ≠ .sendRequest req dest destId now) {p : Message × SocketAddr} (hp : p ∈ s.sends env e) :
    Message.ReadsAs env.codec p.1 p.1.truncateInterval ∧
      ∀ throttled now shuffle, e = .accept throttled now shuffle →
        ∃ msg req, s.NextRequest msg req p.2 ∧ s.Recognised env.codec msg p.1 := by
  have h : s.Ipv4Only := hrun ▸ run_ipv4Only env hnew events
  rcases mem_sends hp with ⟨throttled, now, shuffle, msg, req, res, rfl, hnext, -, hanswer, heq⟩ | ⟨i, now, task, rng, rfl, -, rfl⟩ |
    ⟨destId, now, req, rfl, -⟩
  · obtain ⟨hsuits, haddr⟩ := h.suits hnext hanswer
    have hipv4 : (replyTo msg p.2 res).AllIpv4 := by
      refine ⟨fun ip hip => ?_, hsuits.ipv4⟩
      obtain rfl := Option.some.inj hip
      exact haddr
    rw [heq]
    exact ⟨Message.readsAs_of_allIpv4 env.codec hipv4, fun _ _ _ _ => ⟨msg, req, hnext, hsuits.recognised hnext.type haddr env.codec⟩⟩
  · exact ⟨Message.readsAs_of_allIpv4 env.codec (allIpv4_request _ _ _ _), fun _ _ _ he => nomatch he⟩
  · exact absurd rfl (hown p.1 p.2 destId now)

/-- A DHT that is asked for the peers of an info hash. -/
def sampleAsked : DHT Ipv4Addr :=
  Machine.run (DHT.step sampleEnv) sampleDht [.packet samplePeersPacket ⟨127, 0, 0, 1⟩ 6881]

/-- Its reply: it knows neither peers nor nodes. -/
def samplePeersReply : Message :=
  replyTo samplePeersRequest (.v4 ⟨127, 0, 0, 1⟩ 6881)
    (.getPeersResponse { responderId := Id.zero, token := sampleToken, values := .nodes [] })

/-- A DHT that knows nobody replies to get_peers. -/
theorem run_sends_readsAs_get_peers :
    Message.ReadsAs Bencode.codec samplePeersReply samplePeersReply.truncateInterval ∧
      ∀ throttled now shuffle, Event.accept false sampleClock sampleShuffle = .accept throttled now shuffle →
        ∃ msg req, sampleAsked.NextRequest msg req (.v4 ⟨127, 0, 0, 1⟩ 6881) ∧
          sampleAsked.Recognised Bencode.codec msg samplePeersReply := by
  have hsent : (samplePeersReply, SocketAddr.v4 ⟨127, 0, 0, 1⟩ 6881) ∈
      sampleAsked.sends sampleEnv (.accept false sampleClock sampleShuffle) := by decide +kernel
  refine run_sends_readsAs sampleEnv sampleDht_new rfl (fun req dest destId now he => ?_) hsent
  cases he

end DHT

end RustyDht
