import RustyDht.Theorems.PeersFound

/-!
# Where an announced peer is stored

`announce_peer` returns the nodes that responded to its requests. A response to announce_peer looks like one to a ping, and a host gives
it only when it has taken the token and stored the peer, for which it needs room for one. So every host that is returned has stored the
peer, whatever else happens in the network, if the host that announces never asks one address for different things under the same
transaction id.
-/

namespace RustyDht

open CallsHistory

/-! ## Room for peers -/

/-- The caches of a peer storage have the capacities of its settings. -/
structure PeerStorage.Sized (maxTorrents maxPeersPerTorrent : Nat) (storage : PeerStorage) : Prop where
  torrents : storage.peers.cap = maxTorrents
  peers : storage.maxPeersPerTorrent = maxPeersPerTorrent
  swarms : ∀ hash swarmLru, (hash, swarmLru) ∈ storage.peers.entries → swarmLru.cap = maxPeersPerTorrent

namespace PeerStorage.Sized

variable {maxTorrents maxPeersPerTorrent : Nat} {storage : PeerStorage}

/-- Looking up a swarm does not change a capacity. -/
theorem getPeersInfo (h : storage.Sized maxTorrents maxPeersPerTorrent) (hash : Id) (newerThan : Option Instant) :
    (storage.getPeersInfo hash newerThan).2.Sized maxTorrents maxPeersPerTorrent := by
  have hget : (storage.getPeersInfo hash newerThan).2 = { storage with peers := (storage.peers.get hash).2 } := by
    unfold PeerStorage.getPeersInfo
    rcases storage.peers.get hash with ⟨_ | swarmLru, peers⟩ <;> rfl
  rw [hget]
  exact ⟨(LruCache.get_cap _ _).trans h.torrents, h.peers, fun hash' swarmLru hmem => h.swarms hash' swarmLru (LruCache.mem_get_iff.mp hmem)⟩

/-- Nor does storing a peer. -/
theorem announcePeer (h : storage.Sized maxTorrents maxPeersPerTorrent) (hash : Id) (addr : SocketAddr) (now : Instant) :
    (storage.announcePeer hash addr now).Sized maxTorrents maxPeersPerTorrent := by
  rw [announcePeer_eq]
  refine ⟨(LruCache.put_cap _ _ _).trans h.torrents, h.peers, fun hash' swarmLru hmem => ?_⟩
  rcases LruCache.mem_of_mem_put hmem with heq | ⟨hold, -⟩
  · obtain ⟨-, rfl⟩ := Prod.mk.inj heq
    rw [LruCache.put_cap]
    cases hpeek : storage.peers.peek hash with
    | none => exact h.peers
    | some swarmLru => exact h.swarms hash swarmLru ((storage.peers.peek_eq_some_iff hash swarmLru).mp hpeek)
  · exact h.swarms hash' swarmLru hold

/-- No call changes a capacity. -/
theorem apply (h : storage.Sized maxTorrents maxPeersPerTorrent) (call : PeerStorageCall) :
    (call.apply storage).Sized maxTorrents maxPeersPerTorrent := by
  cases call with
  | announcePeer hash addr now => exact h.announcePeer hash addr now
  | getPeers hash newerThan => exact h.getPeersInfo hash newerThan
  | getPeersInfo hash newerThan => exact h.getPeersInfo hash newerThan
  | getInfoHashes => exact h

end PeerStorage.Sized

/-- The caches of a DHT have the capacities of its settings. -/
def DHT.Sized {σ : Type} (s : DHT σ) : Prop := s.peerStorage.Sized s.settings.maxTorrents s.settings.maxPeersPerTorrent

theorem DHT.Sized.step {σ : Type} {env : Env σ} {s : DHT σ} (h : s.Sized) (e : DHT.Event) : (DHT.step env s e).Sized := by
  unfold DHT.Sized
  rw [DHT.step_settings, DHT.step_peerStorage]
  exact Machine.run_invariant PeerStorageCall.apply (fun _ call h => h.apply call) _ _ h

namespace Network

variable {σ : Type} {env : Env σ} {net : Network σ} {past : List NetworkEvent} {a b : Endpoint} {host : Host σ}

/-- A host has room for the peers of a torrent. -/
structure HasRoom (host : Host σ) : Prop where
  torrents : 1 ≤ host.dht.settings.maxTorrents
  peers : 1 ≤ host.dht.settings.maxPeersPerTorrent

/-- The caches of every host have the capacities of its settings. -/
theorem sized_of_hosts (hstart : net.Starts env) (hhost : (net.after env past).hosts a = some host) : host.dht.Sized := by
  refine forall_hosts (I := DHT.Sized) (fun hnew => ?_) (fun e h => h.step e) hstart past hhost
  obtain ⟨ourId, tokenSecret, rfl⟩ := DHT.eq_of_new hnew
  exact ⟨rfl, rfl, fun hash swarmLru hmem => absurd hmem List.not_mem_nil⟩

/-- An event has made a host store a peer for an info hash, and there it was. -/
def HasStored (env : Env σ) (net : Network σ) (past : List NetworkEvent) (a : Endpoint) (infoHash : Id) (peer : SocketAddr) : Prop :=
  ∃ before e later host host' now, past = before ++ e :: later ∧ (net.after env before).hosts a = some host ∧
    (net.after env (before ++ [e])).hosts a = some host' ∧
    host'.dht.peerStorage = host.dht.peerStorage.announcePeer infoHash peer now ∧
    host'.dht.peerStorage.Stored infoHash peer (PeerInfo.new peer now)

theorem HasStored.append {infoHash : Id} {peer : SocketAddr} (h : HasStored env net past a infoHash peer) (more : List NetworkEvent) :
    HasStored env net (past ++ more) a infoHash peer := by
  obtain ⟨before, e, later, host, host', now, rfl, hstored⟩ := h
  exact ⟨before, e, later ++ more, host, host', now, by simp, hstored⟩

/-- The peer that a host announces: its own address, with the port given if there is one. -/
def peerOf (b : Endpoint) (port : Option UInt16) : SocketAddr := .v4 b.ip (port.getD b.port)

/-- The announce_peer request announces this peer. -/
theorem announcePeerRequest_eq (readOnly : Bool) (ourId infoHash : Id) (port : Option UInt16) (token : List UInt8) (rng : UInt8 × UInt8) :
    ∃ arguments, (announcePeerRequest readOnly ourId infoHash port token rng).messageType = .request (.announcePeerRequest arguments) ∧
      arguments.infoHash = infoHash ∧ ∀ b : Endpoint, DHT.announcedPeer arguments b.addr = peerOf b port := by
  cases port with
  | none => exact ⟨_, rfl, rfl, fun b => rfl⟩
  | some port => exact ⟨_, rfl, rfl, fun b => rfl⟩

/-- A host with room that has answered an announce has stored the peer. -/
theorem hasStored_of_answer (hstart : net.Starts env) {before : List NetworkEvent} {throttled : Bool} {now : Nat → Instant}
    {shuffle : PartialShuffle} (later : List NetworkEvent) (hhost : (net.after env before).hosts a = some host) (hroom : HasRoom host)
    {request : Message} {arguments : AnnouncePeerRequestArguments} (hnext : host.dht.NextRequest request (.announcePeerRequest arguments) b.addr)
    (hanswers : host.dht.Answers throttled (.announcePeerRequest arguments) b.addr) {res : ResponseSpecific}
    (hanswer : ((host.dht.seen env request b.addr arguments.requesterId (now 0)).answer env (.announcePeerRequest arguments) b.addr (now 1)
      shuffle).1 = some res) :
    HasStored env net (before ++ .host a (.accept throttled now shuffle) :: later) a arguments.infoHash
      (DHT.announcedPeer arguments b.addr) := by
  have htoken : host.dht.TokenValid env arguments b.addr := by
    by_contra hnot
    have hnone : (host.dht.seen env request b.addr arguments.requesterId (now 0)).answer env (.announcePeerRequest arguments) b.addr
        (now 1) shuffle = (none, host.dht.seen env request b.addr arguments.requesterId (now 0)) := if_neg hnot
    rw [hnone] at hanswer
    cases hanswer
  have hcalls : host.dht.peerCalls env (.accept throttled now shuffle) =
      [.announcePeer arguments.infoHash (DHT.announcedPeer arguments b.addr) (now 1)] := by
    simp [DHT.peerCalls, DHT.requestCalls, hnext.head, hnext.type, hanswers, htoken]
  have hstorage : (DHT.step env host.dht (.accept throttled now shuffle)).peerStorage =
      host.dht.peerStorage.announcePeer arguments.infoHash (DHT.announcedPeer arguments b.addr) (now 1) := by
    rw [DHT.step_peerStorage, hcalls]
    rfl
  have hsized := sized_of_hosts hstart hhost
  have hstored : (host.dht.peerStorage.announcePeer arguments.infoHash (DHT.announcedPeer arguments b.addr) (now 1)).Stored
      arguments.infoHash (DHT.announcedPeer arguments b.addr) (PeerInfo.new (DHT.announcedPeer arguments b.addr) (now 1)) := by
    refine PeerStorage.stored_announcePeer ?_ ?_ (fun hash swarmLru hmem => ?_) _ _ _
    · rw [hsized.torrents]
      exact hroom.torrents
    · rw [hsized.peers]
      exact hroom.peers
    · rw [hsized.swarms hash swarmLru hmem, hsized.peers]
  refine ⟨before, _, later, host, host.step env (.accept throttled now shuffle), now 1, rfl, hhost, ?_, hstorage, hstorage ▸ hstored⟩
  rw [after_append]
  simp [step, hhost, hosts_setHost_self]

/-! ## announce_peer -/

/-- What `announce_peer` does: it announces the peer, and the hosts that it returns have stored it if they have room. -/
structure Announces (env : Env σ) (net : Network σ) (b : Endpoint) (infoHash : Id) (peer : SocketAddr) (past : List NetworkEvent)
    (announce : AnnouncePeer) : Prop where
  asks : ∀ todo ∈ announce.todos, ∃ arguments, todo.req.messageType = .request (.announcePeerRequest arguments) ∧
    arguments.infoHash = infoHash ∧ DHT.announcedPeer arguments b.addr = peer
  stored : DistinctRequests env net past b → ∀ node ∈ announce.toRet, ∀ a host, node.address = Endpoint.addr a →
    net.hosts a = some host → HasRoom host → HasStored env net past a infoHash peer

namespace Announces

variable {infoHash : Id} {peer : SocketAddr} {announce : AnnouncePeer}

/-- An event makes no difference to what has been announced. -/
theorem append (h : Announces env net b infoHash peer past announce) (e : NetworkEvent) :
    Announces env net b infoHash peer (past ++ [e]) announce where
  asks := h.asks
  stored hdistinct node hnode a host haddr ha hroom := (h.stored hdistinct.of_append node hnode a host haddr ha hroom).append [e]

/-- A host with room that has responded has stored the peer. -/
theorem hasStored (hcodec : env.codec.RejectsTruncated) (hstart : net.Starts env) (h : Announces env net b infoHash peer past announce)
    {todo : RequestTo} (htodo : todo ∈ announce.todos) {reply : Message} (hgiven : Given env net past b todo reply)
    (hdistinct : DistinctRequests env net past b) (haddr : todo.node.address = a.addr) (ha : net.hosts a = some host)
    (hroom : HasRoom host) : HasStored env net past a infoHash peer := by
  obtain ⟨asking, task, hasking, htask, htarget, hreply⟩ := hgiven.received
  obtain ⟨arguments, hasked, rfl, rfl⟩ := h.asks todo htodo
  obtain ⟨before, throttled, now, shuffle, later, answering, request, req, res, rfl, hresponds, hanswers, hanswer, -, hread⟩ :=
    answered_of_channel hcodec hstart hasking htask hreply (htarget.trans haddr) (by rw [ha]; rfl)
  have htid : request.transactionId = todo.req.transactionId := by
    have htid := hgiven.answers.transactionId
    rw [hread] at htid
    exact htid
  have hqueued := haddr ▸ hresponds.queued.append (.host a (.accept throttled now shuffle) :: later)
  have hsame : request = todo.req := hdistinct.eq_of_queued hqueued hgiven.queued hresponds.next.type hasked htid
  have hreq : req = .announcePeerRequest arguments := by
    have htype := hresponds.next.type
    rw [hsame, hasked] at htype
    exact (MessageType.request.inj htype).symm
  subst hreq
  have hsettings := settings_after ha before hresponds.there
  exact hasStored_of_answer hstart later hresponds.there ⟨hsettings ▸ hroom.torrents, hsettings ▸ hroom.peers⟩ hresponds.next hanswers
    hanswer

end Announces

/-- Whatever happens, `announce_peer` announces so. -/
theorem announcePeer_carries (hcodec : env.codec.RejectsTruncated) (hstart : net.Starts env) (infoHash : Id) (peer : SocketAddr) :
    Carries env net b AnnouncePeer.operation (fun _ _ => True) (Announces env net b infoHash peer) where
  other h _ := h.append _
  own h _ := h.append _
  send h _ := h.append _
  round h _ := h
  failed {past op i error now} h := by
    unfold AnnouncePeer.operation AnnouncePeer.step
    dsimp only
    split
    · exact ⟨fun todo htodo => h.asks todo (List.mem_of_mem_eraseIdx htodo), h.stored⟩
    · exact h
  responded {past op i todo reply now} h htodo hgiven := by
    have htodo : op.todos[i]? = some todo := htodo
    have hstep : AnnouncePeer.operation.step op (.reply i (.ok reply) now) =
        { todos := op.todos.eraseIdx i, toRet := op.toRet ++ [todo.node] } := by
      simp [AnnouncePeer.operation, AnnouncePeer.step, htodo]
    rw [hstep]
    refine ⟨fun todo htodo => h.asks todo (List.mem_of_mem_eraseIdx htodo), fun hdistinct node hnode a host haddr ha hroom => ?_⟩
    rcases List.mem_append.mp hnode with hnode | hnode
    · exact h.stored hdistinct node hnode a host haddr ha hroom
    · obtain rfl := List.mem_singleton.mp hnode
      exact h.hasStored hcodec hstart (List.mem_of_getElem? htodo) hgiven hdistinct haddr ha hroom

/-- The loop of `announce_peer` on a host is its loop on some completions. -/
theorem announcePeer_carries_run (env : Env σ) (net : Network σ) (b : Endpoint) (op : AnnouncePeer) :
    Carries env net b AnnouncePeer.operation (fun _ _ => True)
      (fun _ op' => ∃ completions, op' = Machine.run AnnouncePeer.step op completions) where
  other h _ := h
  own h _ := h
  send h _ := h
  round h _ := h
  failed := by
    rintro past _ i error now ⟨completions, rfl⟩
    exact ⟨completions ++ [(i, .error error)], by rw [Machine.run_append]; rfl⟩
  responded := by
    rintro past _ i todo reply now ⟨completions, rfl⟩ htodo hgiven
    exact ⟨completions ++ [(i, .ok reply)], by rw [Machine.run_append]; rfl⟩

/-- In every run of a network, whatever other parties send, every node that `announce_peer` on a host returns, and that is at the address
of a host with room for a peer, has stored the peer for the info hash: this host's own address, with the port given if there is one. This
host must not ask one address for different things under the same transaction id. -/
theorem announcePeer_stored (hcodec : env.codec.RejectsTruncated) (hstart : net.Starts env) (b : Endpoint) (before : List NetworkEvent)
    (readOnly : Bool) (ourId infoHash : Id) (port : Option UInt16) (rng : Nat → UInt8 × UInt8) (responders : List GetPeersResponder)
    (events : List CallEvent) :
    let requests := AnnouncePeer.requests readOnly ourId infoHash port rng responders
    let h := Machine.run (CallsHistory.step env b AnnouncePeer.operation)
      (start env net AnnouncePeer.operation before { todos := requests, toRet := [] }) events
    h.calls.net = net.after env h.past ∧ ∃ completions,
      h.calls.op.toRet = AnnouncePeer.run requests completions ∧
      (DistinctRequests env net h.past b → ∀ node ∈ AnnouncePeer.run requests completions, ∀ a host, node.address = Endpoint.addr a →
        net.hosts a = some host → HasRoom host → HasStored env net h.past a infoHash (peerOf b port)) := by
  intro requests h
  have hserves := serves_start hcodec hstart b AnnouncePeer.operation before { todos := requests, toRet := [] }
  have hok : Machine.StepsOk (CallsHistory.step env b AnnouncePeer.operation)
      (fun self e => ∀ e', e = .other e' → (fun (_ : List NetworkEvent) (_ : NetworkEvent) => True) self.past e')
      (start env net AnnouncePeer.operation before { todos := requests, toRet := [] }) events :=
    Machine.stepsOk_of_forall _ events _ (fun _ _ _ _ _ => trivial)
  have hbegins : Announces env net b infoHash (peerOf b port) before { todos := requests, toRet := [] } := by
    refine ⟨fun todo htodo => ?_, fun _ node hnode => absurd hnode List.not_mem_nil⟩
    obtain ⟨i, hi, rfl⟩ := List.mem_mapIdx.mp htodo
    obtain ⟨arguments, htype, hhash, hpeer⟩ := announcePeerRequest_eq readOnly ourId infoHash port _ (rng i)
    exact ⟨arguments, htype, hhash, hpeer b⟩
  obtain ⟨hserved, hannounces⟩ := (announcePeer_carries hcodec hstart infoHash (peerOf b port)).run AnnouncePeer.lawful events hserves
    hbegins hok
  obtain ⟨-, completions, hrun⟩ := (announcePeer_carries_run env net b { todos := requests, toRet := [] }).run AnnouncePeer.lawful events
    hserves ⟨[], rfl⟩ hok
  refine ⟨hserved.reached, completions, congrArg AnnouncePeer.toRet hrun, fun hdistinct node hnode => ?_⟩
  exact hannounces.stored hdistinct node (by rw [hrun]; exact hnode)

/-- The second host of a town, and the token that it gives to the first. -/
def sampleNeighbour : GetPeersResponder where
  node := ⟨Id.startingWith 1, (sampleHouse 1).addr⟩
  token := DHT.calculateToken DHT.crc32c (sampleHouse 0).addr sampleFirst.dht.tokenSecret

/-- The second host is asked to store a peer and responds. -/
def sampleAnnounced : List CallEvent :=
  [.send 0 0, .other (.outgoing (sampleHouse 0) .sent), .other (.deliver 0),
    .other (.host (sampleHouse 1) (.accept false DHT.sampleClock DHT.sampleShuffle)), .other (.outgoing (sampleHouse 1) .sent),
    .other (.deliver 1), .response 0 0 0 (fun _ => 0) (fun _ => 0)]

/-- The first host of a town announces a peer to the second. -/
theorem announcePeer_stored_town :
    let h := Machine.run (CallsHistory.step DHT.sampleEnv (sampleHouse 0) AnnouncePeer.operation)
      (start DHT.sampleEnv sampleTown AnnouncePeer.operation []
        { todos := AnnouncePeer.requests false (Id.startingWith 0) (Id.startingWith 9) (some 6883) (fun _ => (0, 1)) [sampleNeighbour]
          toRet := [] })
      sampleAnnounced
    h.calls.op.toRet = [sampleNeighbour.node] ∧
      HasStored DHT.sampleEnv sampleTown h.past (sampleHouse 1) (Id.startingWith 9) (.v4 ⟨127, 0, 0, 0⟩ 6883) := by
  intro h
  obtain ⟨-, completions, hret, hstored⟩ := announcePeer_stored Bencode.codec_rejectsTruncated sampleTown_starts (sampleHouse 0) [] false
    (Id.startingWith 0) (Id.startingWith 9) (some 6883) (fun _ => (0, 1)) [sampleNeighbour] sampleAnnounced
  have htoRet : h.calls.op.toRet = [sampleNeighbour.node] := by decide +kernel
  have hdistinct : DistinctRequests DHT.sampleEnv sampleTown h.past (sampleHouse 0) := by decide +kernel
  refine ⟨htoRet, hstored hdistinct sampleNeighbour.node ?_ (sampleHouse 1) _ rfl rfl ⟨by decide +kernel, by decide +kernel⟩⟩
  rw [← hret]
  exact htoRet ▸ List.mem_singleton_self _

end Network

end RustyDht
