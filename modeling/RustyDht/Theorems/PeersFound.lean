import RustyDht.Theorems.Lookups
import RustyDht.Theorems.PeersStored

/-!
# What get_peers finds in a network

In a network of hosts that run this program and nobody else, a host stores the peers that have announced themselves to it, and a response
to get_peers lists peers that are stored. So the peers that `get_peers` returns have announced themselves for its info hash, and the
tokens that it returns are those that the responders gave. A response is matched with a request by its transaction id, so that the host
must not ask the same host for different things under one.
-/

namespace RustyDht

open CallsHistory

/-! ## Stored by calls -/

namespace PeerStorage

variable {self : PeerStorage} {infoHash : Id} {peer : SocketAddr} {info : PeerInfo}

/-- A record that is stored after a call was stored before, or is of the peer announced. -/
theorem Stored.of_apply {call : PeerStorageCall} (h : (call.apply self).Stored infoHash peer info) :
    self.Stored infoHash peer info ∨ ∃ now, call = .announcePeer infoHash peer now ∧ info = PeerInfo.new peer now := by
  cases call with
  | announcePeer hash addr now =>
    rcases h.of_announcePeer with ⟨rfl, rfl, rfl⟩ | ⟨-, hstored⟩
    · exact .inr ⟨now, rfl, rfl⟩
    · exact .inl hstored
  | getPeers hash newerThan => exact .inl ((stored_getPeers_iff hash newerThan).mp h)
  | getPeersInfo hash newerThan => exact .inl ((stored_getPeers_iff hash newerThan).mp h)
  | getInfoHashes => exact .inl h

/-- A record that is stored after calls was stored before, or is of a peer announced by one of them. -/
theorem Stored.of_run {calls : List PeerStorageCall} (h : (Machine.run PeerStorageCall.apply self calls).Stored infoHash peer info) :
    self.Stored infoHash peer info ∨ ∃ now, .announcePeer infoHash peer now ∈ calls ∧ info = PeerInfo.new peer now := by
  induction calls generalizing self with
  | nil => exact .inl h
  | cons call calls ih =>
    rcases ih h with hstored | ⟨now, hmem, hinfo⟩
    · rcases hstored.of_apply with hstored | ⟨now, rfl, hinfo⟩
      · exact .inl hstored
      · exact .inr ⟨now, List.mem_cons_self, hinfo⟩
    · exact .inr ⟨now, List.mem_cons_of_mem _ hmem, hinfo⟩

end PeerStorage

namespace DHT

variable {σ : Type} {env : Env σ} {s : DHT σ}

/-- What an event announces to the peer storage is what the next message announces. -/
theorem announce_of_mem_peerCalls {e : Event} {infoHash : Id} {peer : SocketAddr} {now : Instant}
    (h : .announcePeer infoHash peer now ∈ s.peerCalls env e) : ∃ msg addr arguments,
      s.NextRequest msg (.announcePeerRequest arguments) addr ∧ arguments.infoHash = infoHash ∧ announcedPeer arguments addr = peer := by
  unfold peerCalls at h
  split at h
  · split at h
    · rename_i msg addr hhead
      split at h
      · rename_i req htype
        split at h
        · cases req with
          | announcePeerRequest arguments =>
            unfold requestCalls at h
            dsimp only at h
            split at h
            · simp only [List.mem_singleton, PeerStorageCall.announcePeer.injEq] at h
              exact ⟨msg, addr, arguments, ⟨hhead, htype⟩, h.1.symm, h.2.1.symm⟩
            · simp at h
          | _ => simp [requestCalls] at h
        · simp at h
      · simp at h
    · simp at h
  · simp at h
  · simp at h

end DHT

namespace Network

variable {σ : Type} {env : Env σ} {net now : Network σ} {past : List NetworkEvent} {a b : Endpoint} {host : Host σ}

/-! ## What is stored has been announced -/

/-- A host has announced a peer to a host for an info hash: with its own address, and its port or another. -/
def Announced (env : Env σ) (net : Network σ) (past : List NetworkEvent) (infoHash : Id) (peer : SocketAddr) : Prop :=
  ∃ c a request arguments, (net.hosts a).isSome = true ∧ Queued env net past c (request, Endpoint.addr a) ∧
    request.messageType = .request (.announcePeerRequest arguments) ∧ arguments.infoHash = infoHash ∧
    peer = DHT.announcedPeer arguments c.addr

theorem Announced.append {infoHash : Id} {peer : SocketAddr} (h : Announced env net past infoHash peer) (more : List NetworkEvent) :
    Announced env net (past ++ more) infoHash peer := by
  obtain ⟨c, a, request, arguments, ha, hqueued, htype, hhash, hpeer⟩ := h
  exact ⟨c, a, request, arguments, ha, hqueued.append more, htype, hhash, hpeer⟩

/-- The peer storage of a host after an event is what it was, or what an event of its DHT makes of it. -/
theorem peerStorage_of_becomes {e : NetworkEvent} {host' : Host σ} (h : Becomes env now e a host host') :
    host'.dht.peerStorage = host.dht.peerStorage ∨ ∃ e', host'.dht.peerStorage = (DHT.step env host.dht e').peerStorage := by
  cases h with
  | same => exact .inl rfl
  | own _ e _ =>
    cases e with
    | packet buf ip port => exact .inl rfl
    | outgoing result => exact .inl rfl
    | _ => exact .inr ⟨_, rfl⟩
  | outgoing _ result _ => exact .inr ⟨.outgoing result, rfl⟩
  | receive i d _ hd => exact .inr ⟨.packet (d.bytes.take Host.bufSize) d.src.ip d.src.port, rfl⟩

/-- Whatever a host has stored has been announced. -/
theorem announced_of_stored (hcodec : env.codec.RejectsTruncated) (hstart : net.Starts env) (honly : OnlyHosts past)
    (hhonest : Honest env net past) (hhost : (net.after env past).hosts a = some host) {infoHash : Id} {peer : SocketAddr}
    {info : PeerInfo} (h : host.dht.peerStorage.Stored infoHash peer info) : Announced env net past infoHash info.addr := by
  induction past using List.reverseRecOn generalizing a host infoHash peer info with
  | nil =>
    obtain ⟨id, ip4Source, buckets, settings, rng, secretRng, random, hnew⟩ := hstart.hosts a host hhost
    rw [(DHT.new_eq_ok hnew).2.2.1] at h
    obtain ⟨swarmLru, hswarm, -⟩ := h
    cases hswarm
  | append_singleton past e ih =>
    rw [after_append] at hhost
    obtain ⟨before, hbefore, hbecomes⟩ := becomes_of_step hhost
    have honly : OnlyHosts past := fun bytes src dst h => honly bytes src dst (List.mem_append_left _ h)
    rcases peerStorage_of_becomes hbecomes with hsame | ⟨e', hstep⟩
    · exact (ih honly hhonest.of_append hbefore (hsame ▸ h)).append [e]
    · rw [hstep, DHT.step_peerStorage] at h
      rcases h.of_run with hstored | ⟨instant, hmem, rfl⟩
      · exact (ih honly hhonest.of_append hbefore hstored).append [e]
      · obtain ⟨msg, addr, arguments, hnext, rfl, rfl⟩ := DHT.announce_of_mem_peerCalls hmem
        have hinformed := (truthful_and_informed hcodec hstart honly hhonest.of_append).2 a before hbefore
        obtain ⟨c, sent, rfl, hqueued, hread⟩ := hinformed.received _ (List.mem_of_head? hnext.head)
        have hsent : msg = sent := eq_of_truncateInterval_request hread hnext.type
        have ha : (net.hosts a).isSome = true := by
          rw [← (flows hcodec hstart past).hosts, hbefore]
          rfl
        exact ⟨c, a, msg, arguments, ha, hsent ▸ hqueued.append [e], hnext.type, rfl, rfl⟩

/-! ## What a host responds -/

/-- A host that is not read-only has given a token to another, under an id that it has had. -/
def GaveToken (env : Env σ) (net : Network σ) (past : List NetworkEvent) (b : Endpoint) (node : Node) (token : List UInt8) : Prop :=
  ∃ a before later host, node.address = Endpoint.addr a ∧ past = before ++ later ∧ (net.after env before).hosts a = some host ∧
    host.dht.ourId = node.id ∧ host.dht.settings.readOnly = false ∧
    token = DHT.calculateToken env.checksumCastagnoli b.addr host.dht.tokenSecret

theorem GaveToken.append {node : Node} {token : List UInt8} (h : GaveToken env net past b node token) (more : List NetworkEvent) :
    GaveToken env net (past ++ more) b node token := by
  obtain ⟨a, before, later, host, haddr, rfl, hhost⟩ := h
  exact ⟨a, before, later ++ more, host, haddr, by rw [List.append_assoc], hhost⟩

/-- The messages that an event makes a host queue. -/
def queuedBy (env : Env σ) (b : Endpoint) (net : Network σ) : NetworkEvent → List (Message × SocketAddr)
  | .host a e =>
    if a = b then
      match net.hosts a with
      | some host => host.dht.sends env e
      | none => []
    else []
  | _ => []

/-- A host never asks one address for different things under the same transaction id. -/
def DistinctRequests (env : Env σ) (net : Network σ) (past : List NetworkEvent) (b : Endpoint) : Prop :=
  ∀ p ∈ Machine.outputs (step env) (queuedBy env b) net past, ∀ q ∈ Machine.outputs (step env) (queuedBy env b) net past,
    p.2 = q.2 → p.1.isRequest = true → q.1.isRequest = true → p.1.transactionId = q.1.transactionId → p.1 = q.1

instance (env : Env σ) (net : Network σ) (past : List NetworkEvent) (b : Endpoint) : Decidable (DistinctRequests env net past b) :=
  inferInstanceAs (Decidable (∀ p ∈ _, ∀ q ∈ _, _ → _ → _ → _ → _))

/-- What a host has queued is among what the events made it queue. -/
theorem Queued.mem_outputs {p : Message × SocketAddr} (h : Queued env net past b p) :
    p ∈ Machine.outputs (step env) (queuedBy env b) net past := by
  obtain ⟨before, e, later, host, rfl, hhost, hp⟩ := h
  rw [Machine.outputs_append, Machine.outputs_cons]
  refine List.mem_append_right _ (List.mem_append_left _ ?_)
  have hhost : (Machine.run (step env) net before).hosts b = some host := hhost
  simpa [queuedBy, hhost] using hp

theorem DistinctRequests.of_append {more : List NetworkEvent} (h : DistinctRequests env net (past ++ more) b) :
    DistinctRequests env net past b := by
  intro p hp q hq
  rw [DistinctRequests, Machine.outputs_append] at h
  exact h p (List.mem_append_left _ hp) q (List.mem_append_left _ hq)

/-- Two requests that a host has queued for one address under the same transaction id are the same. -/
theorem DistinctRequests.eq_of_queued (h : DistinctRequests env net past b) {m m' : Message} {addr : SocketAddr}
    (hm : Queued env net past b (m, addr)) (hm' : Queued env net past b (m', addr)) {req req' : RequestSpecific}
    (hreq : m.messageType = .request req) (hreq' : m'.messageType = .request req') (htid : m.transactionId = m'.transactionId) : m = m' :=
  h (m, addr) hm.mem_outputs (m', addr) hm'.mem_outputs rfl (by rw [Message.isRequest, hreq]) (by rw [Message.isRequest, hreq']) htid

/-- Whoever has queued something is a host. -/
theorem Queued.isSome (hcodec : env.codec.RejectsTruncated) (hstart : net.Starts env) {p : Message × SocketAddr}
    (h : Queued env net past a p) : (net.hosts a).isSome = true := by
  obtain ⟨before, e, later, host, -, hhost, -⟩ := h
  rw [← (flows hcodec hstart before).hosts, hhost]
  rfl

/-- A response to get_peers is what the host that was asked then told: a token for the one who asked, and hosts, or else peers that have
announced themselves for what it was asked for. -/
theorem getPeers_of_given (hcodec : env.codec.RejectsTruncated) (hstart : net.Starts env) (honly : OnlyHosts past)
    (hhonest : Honest env net past) {todo : RequestTo} {reply : Message} (h : Given env net past b todo reply)
    {args : GetPeersResponseArguments} (htype : reply.messageType = .response (.getPeersResponse args)) :
    GaveToken env net past b todo.node args.token ∧
      (∀ nodes, args.values = .nodes nodes → ∀ node ∈ nodes, Known env net past node) ∧
      ∀ peers, args.values = .peers peers → ∃ request arguments, Queued env net past b (request, todo.node.address) ∧
        request.messageType = .request (.getPeersRequest arguments) ∧ request.transactionId = todo.req.transactionId ∧
        ∀ peer ∈ peers, Announced env net past arguments.infoHash peer := by
  obtain ⟨a, msg, haddr, hqueued, -⟩ := told_of_given hcodec hstart honly hhonest h
  obtain ⟨asking, task, hasking, htask, htarget, hreply⟩ := h.received
  obtain ⟨before, throttled, now, shuffle, later, host, request, req, res, rfl, hresponds, hanswers, hanswer, -, hread⟩ :=
    answered_of_channel hcodec hstart hasking htask hreply (htarget.trans haddr) (hqueued.isSome hcodec hstart)
  have hres : res = .getPeersResponse args := by
    rw [hread] at htype
    cases res with
    | sampleInfoHashesResponse arguments => cases htype
    | _ => exact MessageType.response.inj htype
  subst hres
  cases req with
  | getPeersRequest arguments =>
    have honly : OnlyHosts before := fun bytes src dst h => honly bytes src dst (List.mem_append_left _ h)
    obtain ⟨htruthful, hinformed⟩ := truthful_and_informed hcodec hstart honly hhonest.of_append
    have hhost := hinformed a host hresponds.there
    have hseen := allNodes_seen hhost (trusts_told htruthful a) hresponds.next hanswers.port (now 0)
    have hargs := Option.some.inj hanswer
    have hid : host.dht.ourId = todo.node.id := by
      have hauthor := h.answers.author
      rw [hread] at hauthor
      exact hresponds.responder.symm.trans (Option.some.inj hauthor)
    refine ⟨?_, ?_, ?_⟩
    · refine ⟨a, before, _, host, haddr, rfl, hresponds.there, hid, hanswers.readOnly, ?_⟩
      cases hargs
      rfl
    · intro nodes hvalues node hnode
      cases hargs
      dsimp only at hvalues
      split at hvalues
      · cases hvalues
        obtain ⟨w, hw, rfl⟩ := NodeBucketStorage.mem_getNearestNodes hnode
        exact (hseen.verified w hw).append _
      · cases hvalues
    · intro peers hvalues
      refine ⟨request, arguments, haddr ▸ hresponds.queued.append _, hresponds.next.type, ?_, fun peer hpeer => ?_⟩
      · have htid := h.answers.transactionId
        rw [hread] at htid
        exact htid
      · cases hargs
        dsimp only at hvalues
        split at hvalues
        · cases hvalues
        · cases hvalues
          obtain ⟨_, info, hstored, -, rfl⟩ := PeerStorage.mem_getPeers_iff.mp (List.mem_of_mem_take hpeer)
          exact (announced_of_stored hcodec hstart honly hhonest.of_append hresponds.there hstored).append _
  | _ =>
    have hkind := hresponds.kind
    simp [responseMatchesRequest] at hkind

/-! ## get_peers -/

/-- What `get_peers` has found: its lookup knows hosts, its responders gave their tokens, and its peers have announced themselves. -/
structure FindsPeers (env : Env σ) (net : Network σ) (b : Endpoint) (S : UnstableSort) (infoHash : Id) (past : List NetworkEvent)
    (found : GetPeers) : Prop where
  lookup : KnowsHosts env net b S infoHash past found.lookup
  asks : ∀ todo ∈ found.lookup.todos, ∃ requesterId, todo.req.messageType = .request (.getPeersRequest { requesterId, infoHash })
  responders : ∀ r ∈ found.responders, GaveToken env net past b r.node r.token
  peers : DistinctRequests env net past b → ∀ peer ∈ found.uniquePeers, Announced env net past infoHash peer

namespace FindsPeers

variable {S : UnstableSort} {infoHash : Id} {found : GetPeers}

/-- Nothing has been found at first. -/
theorem new (honly : OnlyHosts past) (hhonest : Honest env net past) :
    FindsPeers env net b S infoHash past (GetPeers.new infoHash) where
  lookup := .new honly hhonest
  asks todo htodo := by simp [GetPeers.new, Lookup.new] at htodo
  responders r hr := by simp [GetPeers.new] at hr
  peers _ peer hpeer := by simp [GetPeers.new] at hpeer

/-- A fair event makes no difference to what has been found. -/
theorem append {e : NetworkEvent} (h : FindsPeers env net b S infoHash past found) (hfair : Fair env net past e) :
    FindsPeers env net b S infoHash (past ++ [e]) found where
  lookup := h.lookup.append hfair
  asks := h.asks
  responders r hr := (h.responders r hr).append [e]
  peers hdistinct peer hpeer := (h.peers hdistinct.of_append peer hpeer).append [e]

/-- An iteration asks for the info hash. -/
theorem round (hcodec : env.codec.RejectsTruncated) (hstart : net.Starts env) (h : FindsPeers env net b S infoHash past found)
    (hhost : (net.after env past).hosts b = some host) (tooFew : Nat → Bool) (rng : Nat → UInt8 × UInt8) :
    FindsPeers env net b S infoHash past { found with
      lookup := found.lookup.round S tooFew
        (fun i => getPeersRequest host.dht.settings.readOnly host.dht.ourId found.lookup.target (rng i))
        host.dht.buckets.getAllVerified } where
  lookup := by
    refine h.lookup.round hcodec hstart hhost tooFew (fun i req hreq hreadOnly => ?_)
    cases hreq
    exact known_self hhost (Bool.eq_false_of_not_eq_true (fun h => hreadOnly (congrArg some h)))
  asks todo htodo := by
    rcases Lookup.mem_todos_round htodo with htodo | ⟨i, hreq⟩
    · exact h.asks todo htodo
    · rw [hreq, h.lookup.target_eq]
      exact ⟨host.dht.ourId, rfl⟩
  responders := h.responders
  peers := h.peers

/-- A request has finished, and nothing has been found. -/
theorem finish (h : FindsPeers env net b S infoHash past found) (i : Nat) :
    FindsPeers env net b S infoHash past { found with lookup := found.lookup.finish i } where
  lookup := h.lookup.finish i
  asks todo htodo := h.asks todo (List.mem_of_mem_eraseIdx htodo)
  responders := h.responders
  peers := h.peers

/-- A peer that is collected was so before, or is listed. -/
theorem mem_insertAll {peers unique : List SocketAddr} {peer : SocketAddr}
    (h : peer ∈ peers.foldl (fun unique peer => if peer ∈ unique then unique else unique ++ [peer]) unique) :
    peer ∈ unique ∨ peer ∈ peers := by
  induction peers generalizing unique with
  | nil => exact .inl h
  | cons next peers ih =>
    rcases ih h with h | h
    · dsimp only at h
      split at h
      · exact .inl h
      · rcases List.mem_append.mp h with h | h
        · exact .inl h
        · exact .inr (List.mem_singleton.mp h ▸ List.mem_cons_self)
    · exact .inr (List.mem_cons_of_mem next h)

/-- A request is responded to. -/
theorem handle (hcodec : env.codec.RejectsTruncated) (hstart : net.Starts env) (h : FindsPeers env net b S infoHash past found)
    {i : Nat} {todo : RequestTo} (htodo : found.lookup.todos[i]? = some todo) {reply : Message} (hgiven : Given env net past b todo reply)
    (now : Nat → Instant) : FindsPeers env net b S infoHash past
      (GetPeers.handle S { found with lookup := found.lookup.finish i } todo.node (.ok reply) now) := by
  have hfinish := h.finish i
  unfold GetPeers.handle
  dsimp only
  split
  · rename_i args htype
    obtain ⟨htoken, hnodes, hpeers⟩ :=
      getPeers_of_given hcodec hstart h.lookup.onlyHosts h.lookup.honest hgiven htype
    have hresponders : ∀ r ∈ found.responders ++ [GetPeersResponder.mk todo.node args.token], GaveToken env net past b r.node r.token := by
      intro r hr
      rcases List.mem_append.mp hr with hr | hr
      · exact h.responders r hr
      · rw [List.mem_singleton.mp hr]
        exact htoken
    unfold GetPeers.values
    split
    · rename_i nodes hvalues
      exact ⟨hfinish.lookup.candidates (hnodes nodes hvalues) now, hfinish.asks, hresponders, h.peers⟩
    · rename_i peers hvalues
      refine ⟨hfinish.lookup, hfinish.asks, hresponders, fun hdistinct peer hpeer => ?_⟩
      rcases mem_insertAll hpeer with hpeer | hpeer
      · exact h.peers hdistinct peer hpeer
      · obtain ⟨request, arguments, hqueued, hrequest, htid, hannounced⟩ := hpeers peers hvalues
        obtain ⟨requesterId, hasked⟩ := h.asks todo (List.mem_of_getElem? htodo)
        have hsame := hdistinct.eq_of_queued hqueued hgiven.queued hrequest hasked htid
        rw [hsame, hasked] at hrequest
        cases hrequest
        exact hannounced peer hpeer
  · exact hfinish

end FindsPeers

end Network

end RustyDht
