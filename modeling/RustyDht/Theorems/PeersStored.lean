import RustyDht.Lemmas.Steps
import RustyDht.Theorems.RecentPeers

/-!
# The peers that a DHT stores

What the events of a run do to the peer storage of a DHT are the calls that the requests answered and the dumps make of it. So over
whole runs the storage is the store of the most recent peers, and what the DHT tells of it is what that store says: the peers in a reply
to get_peers, the info hashes in one to sample_infohashes, and what `get_info_hashes` returns.
-/

namespace RustyDht

/-! ## Histories and storages -/

namespace PeerStorage

/-- A lookup makes no difference to another. -/
theorem getPeersInfo_getPeersInfo (self : PeerStorage) (hash infoHash : Id) (newerThan' newerThan : Option Instant) :
    ((self.getPeersInfo hash newerThan').2.getPeersInfo infoHash newerThan).1 = (self.getPeersInfo infoHash newerThan).1 := by
  have hfst : ∀ storage : PeerStorage, (storage.getPeersInfo infoHash newerThan).1 =
      (storage.peers.peek infoHash).elim [] (fun swarmLru => freshPeers swarmLru newerThan) := by
    intro storage
    unfold getPeersInfo
    cases hpeek : storage.peers.peek infoHash with
    | none => simp [LruCache.get_of_none hpeek]
    | some swarmLru => simp [LruCache.get_of_some hpeek]
  have hpeers : (self.getPeersInfo hash newerThan').2.peers = (self.peers.get hash).2 := by
    unfold getPeersInfo
    rcases self.peers.get hash with ⟨_ | swarmLru, peers⟩ <;> rfl
  have hpeek : (self.peers.get hash).2.peek infoHash = self.peers.peek infoHash := by
    ext swarmLru
    rw [LruCache.peek_eq_some_iff, LruCache.peek_eq_some_iff, LruCache.mem_get_iff]
  rw [hfst, hfst, hpeers, hpeek]

/-- A dump lists the info hashes that have peers, with what a lookup of each gives. -/
theorem getInfoHashesLoop_fst (newerThan : Option Instant) (hashes : List Id) : ∀ peerStorage : PeerStorage,
    (DHT.getInfoHashesLoop newerThan hashes peerStorage).1 =
      (hashes.map (fun hash => (hash, (peerStorage.getPeersInfo hash newerThan).1))).filter (fun p => !p.2.isEmpty) := by
  induction hashes with
  | nil => exact fun _ => rfl
  | cons hash hashes ih =>
    intro peerStorage
    unfold DHT.getInfoHashesLoop
    dsimp only
    rw [ih]
    simp only [getPeersInfo_getPeersInfo, List.map_cons, List.filter_cons]
    cases (peerStorage.getPeersInfo hash newerThan).1 <;> rfl

/-- The lookups of a dump, as calls. -/
theorem getInfoHashesLoop_snd_eq (newerThan : Option Instant) (hashes : List Id) : ∀ peerStorage : PeerStorage,
    (DHT.getInfoHashesLoop newerThan hashes peerStorage).2 =
      Machine.run PeerStorageCall.apply peerStorage (hashes.map (PeerStorageCall.getPeersInfo · newerThan)) := by
  induction hashes with
  | nil => exact fun _ => rfl
  | cons hash hashes ih => exact fun peerStorage => ih (peerStorage.getPeersInfo hash newerThan).2

end PeerStorage

namespace RecentPeers

variable {history : RecentPeers} {storage : PeerStorage}

/-- Calls leave what the history says. -/
theorem Refines.run (calls : List PeerStorageCall) : ∀ {history : RecentPeers} {storage : PeerStorage}, history.Refines storage →
    1 ≤ history.maxTorrents → 1 ≤ history.maxPeersPerTorrent →
    (Machine.run RecentPeers.apply history calls).Refines (Machine.run PeerStorageCall.apply storage calls) := by
  induction calls with
  | nil => exact fun h _ _ => h
  | cons call calls ih =>
    intro history storage h hmax hpeers
    obtain ⟨h1, h2⟩ := history.apply_max call
    exact ih (h.apply hmax hpeers call) (h1.symm ▸ hmax) (h2.symm ▸ hpeers)

/-- What a dump returns: the torrents stored that have peers newer than an instant, if one is given, with those. -/
def dump (self : RecentPeers) (newerThan : Option Instant) : List (Id × List PeerInfo) :=
  (self.stored.map (fun hash => (hash, self.peers hash newerThan))).filter (fun p => !p.2.isEmpty)

/-- A dump returns what the history says. -/
theorem Refines.getInfoHashes (h : history.Refines storage) (newerThan : Option Instant) :
    (DHT.getInfoHashes storage newerThan).1 = history.dump newerThan := by
  have hkeys : storage.getInfoHashes = history.stored := h.stored
  unfold DHT.getInfoHashes dump
  rw [PeerStorage.getInfoHashesLoop_fst, hkeys]
  simp only [h.getPeersInfo]

end RecentPeers

/-! ## The calls of a run -/

namespace DHT

variable {σ : Type} {env : Env σ} {s : DHT σ}

/-- The calls that the answer to a request makes. -/
def requestCalls (env : Env σ) (s : DHT σ) (req : RequestSpecific) (addr : SocketAddr) (now : Instant) : List PeerStorageCall :=
  match req with
  | .getPeersRequest arguments => [.getPeers arguments.infoHash (s.peersNewerThan now)]
  | .announcePeerRequest arguments =>
    if TokenValid env s arguments addr then [.announcePeer arguments.infoHash (announcedPeer arguments addr) now] else []
  | .sampleInfoHashesRequest _ => [.getInfoHashes]
  | _ => []

/-- The calls that an event makes. -/
def peerCalls (env : Env σ) (s : DHT σ) : Event → List PeerStorageCall
  | .accept throttled now _ =>
    match s.socket.received.head? with
    | some (msg, addr) =>
      match msg.messageType with
      | .request req => if s.Answers throttled req addr then s.requestCalls env req addr (now 1) else []
      | _ => []
    | none => []
  | .getInfoHashes newerThan => .getInfoHashes :: s.peerStorage.getInfoHashes.map (PeerStorageCall.getPeersInfo · newerThan)
  | _ => []

/-- An answer makes the calls of its request. -/
theorem answer_peerStorage (env : Env σ) (s : DHT σ) (req : RequestSpecific) (addr : SocketAddr) (now : Instant)
    (shuffle : PartialShuffle) :
    (s.answer env req addr now shuffle).2.peerStorage = Machine.run PeerStorageCall.apply s.peerStorage (s.requestCalls env req addr now) := by
  cases req with
  | announcePeerRequest arguments =>
    unfold requestCalls
    by_cases htoken : TokenValid env s arguments addr
    · simp [answer_announce htoken, htoken, PeerStorageCall.apply]
    · simp [answer_announce_none htoken, htoken]
  | _ => rfl

/-- An event makes its calls, and nothing else changes the peer storage. -/
theorem step_peerStorage (env : Env σ) (s : DHT σ) (e : Event) :
    (step env s e).peerStorage = Machine.run PeerStorageCall.apply s.peerStorage (s.peerCalls env e) := by
  cases e with
  | accept throttled now shuffle =>
    rcases step_accept_cases env s throttled now shuffle with
      ⟨msg, req, addr, hnext, hanswers, hstep⟩ | ⟨hnot, buckets, poisoned, running, hstep⟩
    · have hcalls : s.peerCalls env (.accept throttled now shuffle) = s.requestCalls env req addr (now 1) := by
        unfold peerCalls
        simp [hnext.head, hnext.type, hanswers]
      have hsame : (s.popReceived.seen env msg addr req.requesterId (now 0)).requestCalls env req addr (now 1) =
          s.requestCalls env req addr (now 1) := by cases req <;> rfl
      rw [hstep, afterRequest, handled, queue_eq, hcalls, ← hsame]
      exact answer_peerStorage env _ req addr (now 1) shuffle
    · have hcalls : s.peerCalls env (.accept throttled now shuffle) = [] := by
        unfold peerCalls
        dsimp only
        split
        · rename_i msg addr hhead
          split
          · rename_i req htype
            exact if_neg (hnot msg req addr ⟨hhead, htype⟩)
          · rfl
        · rfl
      rw [hstep, hcalls]
      rfl
  | getInfoHashes newerThan => exact PeerStorage.getInfoHashesLoop_snd_eq newerThan _ _
  | _ => exact (step_peerStorage_settings env s (fun _ _ _ h => by cases h) (fun _ h => by cases h)).1

/-! ## Every run -/

/-- Accepting the next message, a request from an address, queues a response to it. -/
def RepliesWith (env : Env σ) (s : DHT σ) (throttled : Bool) (now : Nat → Instant) (shuffle : PartialShuffle) (req : RequestSpecific)
    (addr : SocketAddr) (response : ResponseSpecific) : Prop :=
  ∃ msg reply, s.NextRequest msg req addr ∧ reply.messageType = .response response ∧
    (step env s (.accept throttled now shuffle)).socket.toSend = s.socket.toSend ++ [(reply, addr)]

/-- The response is the answer of the state in which the requester has been seen. -/
theorem RepliesWith.eq_answer {throttled : Bool} {now : Nat → Instant} {shuffle : PartialShuffle} {req : RequestSpecific}
    {addr : SocketAddr} {response : ResponseSpecific} (h : RepliesWith env s throttled now shuffle req addr response) :
    s.Answers throttled req addr ∧ ∃ msg, some response =
      ((s.seen env msg addr req.requesterId (now 0)).answer env req addr (now 1) shuffle).1 := by
  obtain ⟨msg, reply, hnext, htype, hsent⟩ := h
  have hmem : (reply, addr) ∈ s.sends env (.accept throttled now shuffle) := by
    rw [step_toSend env s (fun _ he => by cases he)] at hsent
    rw [List.append_cancel_left hsent]
    exact List.mem_singleton_self _
  rcases mem_sends hmem with ⟨throttled', now', shuffle', msg', req', response', he, hnext', hanswers, hanswer, hreply⟩ |
    ⟨i, now', task, rng, he, -⟩ | ⟨destId, now', req', he, -⟩
  · cases he
    obtain ⟨rfl, -⟩ := Prod.mk.inj (Option.some.inj (hnext.head.symm.trans hnext'.head))
    cases hnext.type.symm.trans hnext'.type
    dsimp only at hreply
    rw [hreply] at htype
    cases htype
    exact ⟨hanswers, msg, hanswer.symm⟩
  · cases he
  · cases he

/-- What a DHT tells of its peers is what the store of the most recent peers says: a reply to get_peers lists the first so many of the
peers that announced themselves last and are fresh, or else nodes if there are none; the samples in a reply to sample_infohashes are as
many as there may be of the torrents stored, whose number it says; and a dump lists the torrents stored that have peers, with those. -/
structure TellsRecentPeers (env : Env σ) (s : DHT σ) (history : RecentPeers) : Prop where
  getPeers : ∀ throttled now shuffle arguments addr response,
    RepliesWith env s throttled now shuffle (.getPeersRequest arguments) addr (.getPeersResponse response) →
    let peers := ((history.peers arguments.infoHash (s.peersNewerThan (now 1))).map (·.addr)).take s.settings.maxPeersResponse
    if peers = [] then ∃ nodes, response.values = .nodes nodes else response.values = .peers peers
  sample : ∀ throttled now shuffle arguments addr response,
    RepliesWith env s throttled now shuffle (.sampleInfoHashesRequest arguments) addr (.sampleInfoHashesResponse response) →
    response.samples.Subperm history.stored ∧
      response.samples.length = min s.settings.maxSampleResponse history.stored.length ∧ response.num.toInt = history.stored.length
  dump : ∀ newerThan, (getInfoHashes s.peerStorage newerThan).1 = history.dump newerThan

/-- A storage that holds what a history says tells what it says. -/
theorem tellsRecentPeers_of_refines {history : RecentPeers} (h : history.Refines s.peerStorage) : s.TellsRecentPeers env history where
  getPeers throttled now shuffle arguments addr response hreplies := by
    obtain ⟨-, msg, hanswer⟩ := hreplies.eq_answer
    have hhanded : (s.seen env msg addr (RequestSpecific.getPeersRequest arguments).requesterId (now 0)).handedOut arguments.infoHash
          (now 1) =
        ((history.peers arguments.infoHash (s.peersNewerThan (now 1))).map (·.addr)).take s.settings.maxPeersResponse := by
      rw [← h.getPeers]
      rfl
    obtain ⟨responderId, values, token⟩ := response
    cases hanswer
    dsimp only
    rw [hhanded]
    split
    · rename_i hnone
      rw [hnone]
      exact ⟨_, rfl⟩
    · rename_i hsome
      rw [if_neg (by simpa using hsome)]
  sample throttled now shuffle arguments addr response hreplies := by
    obtain ⟨hanswers, msg, hanswer⟩ := hreplies.eq_answer
    have hstored : s.peerStorage.getInfoHashes = history.stored := h.stored
    have hfits : s.peerStorage.getInfoHashes.length ≤ 2147483647 := hanswers.canSample.2
    rw [← hstored]
    cases hanswer
    exact ⟨shuffle.subperm _ _, shuffle.length _ _, Int32.toInt_ofNat_of_lt (Nat.lt_succ_of_le hfits)⟩
  dump := h.getInfoHashes

/-- In every run of a new DHT with room for torrents and peers, what it tells of its peers is what the store of the most recent peers
says that has seen the calls of the requests answered and of the dumps. -/
theorem run_tellsRecentPeers (env : Env σ) {id : Option Id} {ip4Source : σ} {buckets : NodeBucketStorage} {settings : DHTSettings}
    {rng secretRng : Nat → UInt8} {random : Id} {s : DHT σ} (hmax : 1 ≤ settings.maxTorrents) (hpeers : 1 ≤ settings.maxPeersPerTorrent)
    (hnew : new env id ip4Source buckets settings rng secretRng random = .ok s) (events : List Event) :
    (Machine.run (step env) s events).TellsRecentPeers env
      (Machine.run RecentPeers.apply (.new settings.maxTorrents settings.maxPeersPerTorrent)
        (Machine.outputs (step env) (peerCalls env) s events)) := by
  have hstorage : (Machine.run (step env) s events).peerStorage =
      Machine.run PeerStorageCall.apply (.new settings.maxTorrents settings.maxPeersPerTorrent)
        (Machine.outputs (step env) (peerCalls env) s events) := by
    rw [← (new_eq_ok hnew).2.2.1]
    exact Machine.run_part (step env) (I := fun _ => True) (fun s : DHT σ => s.peerStorage) (peerCalls env)
      (fun _ _ _ => trivial) (fun s e _ => step_peerStorage env s e) events s trivial
  refine tellsRecentPeers_of_refines ?_
  rw [hstorage]
  exact (RecentPeers.new_refines settings.maxTorrents settings.maxPeersPerTorrent).run _ hmax hpeers

/-- A peer announces itself and is asked for. -/
theorem run_tellsRecentPeers_one_peer :
    let events : List Event := [.packet sampleAnnouncePacket ⟨127, 0, 0, 1⟩ 6882, .accept false sampleClock sampleShuffle,
      .packet samplePeersPacket ⟨127, 0, 0, 1⟩ 6881]
    (Machine.run (step sampleEnv) sampleDht events).TellsRecentPeers sampleEnv
      (Machine.run RecentPeers.apply (.new 50 100) (Machine.outputs (step sampleEnv) (peerCalls sampleEnv) sampleDht events)) :=
  run_tellsRecentPeers sampleEnv (by decide) (by decide) sampleDht_new _

end DHT

end RustyDht
