import RustyDht.Dht
import RustyDht.Lib.Keeps
import RustyDht.Lib.Machine
import RustyDht.Lemmas.NodeBucketStorage
import RustyDht.Lemmas.Socket

/-!
# What the handlers of a DHT keep

`Closed` lists the changes that handlers make to what a DHT stores and sends, each with what is known of its data: a node that is
stored meets `A`, an address that something is sent to meets `D`. An invariant that is closed under these changes is kept by every
handler and every event, up to announces and rotations of the token secrets, which are asked for where they happen. `Holds P D`, that
what is stored meets `P` and what is sent to meets `D`, is closed for nodes that a handler stores.
-/

namespace RustyDht

/-! ## The node storage -/

namespace NodeBucketStorage

/-- Every node that is stored meets a condition. -/
structure AllNodes (P : Node → Prop) (s : NodeBucketStorage) : Prop where
  wf : s.Wf
  verified : ∀ w ∈ s.getAllVerified, P w.node
  unverified : ∀ w ∈ s.getAllUnverified, P w.node

variable {P : Node → Prop}

/-- Where the records come from nodes that meet the condition, all do. -/
theorem Traced.allNodes {s s' : NodeBucketStorage} {toVerified toUnverified : Node → Prop}
    (ht : Traced s s' toVerified toUnverified) (h : s.AllNodes P) (hv : ∀ n, toVerified n → P n)
    (hu : ∀ n, toUnverified n → P n) : s'.AllNodes P where
  wf := ht.wf
  verified w hw := by
    rcases ht.verified w hw with ⟨w0, hw0, he⟩ | hn
    · exact he ▸ h.verified w0 hw0
    · exact hv _ hn
  unverified w hw := by
    rcases ht.unverified w hw with ⟨w0, hw0, he⟩ | hn
    · exact he ▸ h.unverified w0 hw0
    · exact hu _ hn

/-- Adding a node that meets the condition. -/
theorem AllNodes.addOrUpdate (S : UnstableSort) {s : NodeBucketStorage} (h : s.AllNodes P) {node : Node} (hnode : P node)
    (verified : Bool) (now nowNew : Instant) : (s.addOrUpdate S node verified now nowNew).AllNodes P := by
  cases verified with
  | false =>
    exact (addOrUpdateLastSeen_traced S h.wf node now).allNodes h (fun _ hn => absurd hn id) (fun n hn => hn ▸ hnode)
  | true =>
    refine (addOrUpdateVerified_traced S h.wf node now nowNew).allNodes h ?_ ?_
    · rintro n (⟨rfl, -⟩ | ⟨w, hw, -, rfl⟩)
      · exact hnode
      · exact h.unverified w hw
    · rintro n (rfl | ⟨w, hw, rfl⟩)
      · exact hnode
      · exact h.verified w hw

/-- Pruning leaves no other nodes than there were. -/
theorem AllNodes.prune {s : NodeBucketStorage} (h : s.AllNodes P) (gracePeriod unverifiedGracePeriod : Duration)
    (now now' : Instant) : (s.prune gracePeriod unverifiedGracePeriod now now').AllNodes P :=
  (prune_traced h.wf gracePeriod unverifiedGracePeriod now now').allNodes h (fun _ hn => absurd hn id) (fun _ hn => absurd hn id)

/-- A change of id leaves no nodes. -/
theorem setId_allNodes (s : NodeBucketStorage) (newId : Id) : (s.setId newId).AllNodes P where
  wf := ⟨Buckets.setId_wf _ _, Buckets.setId_wf _ _, rfl⟩
  verified _ hw := absurd hw List.not_mem_nil
  unverified _ hw := absurd hw List.not_mem_nil

end NodeBucketStorage

namespace DHT

variable {σ : Type}

/-! ## Invariants that handlers keep -/

/-- Two states of a DHT that differ in nothing that is stored or will be sent to, up to messages that have left the queue. -/
structure SameData (s s' : DHT σ) : Prop where
  buckets : s'.buckets = s.buckets
  ourId : s'.ourId = s.ourId
  toSend : s'.socket.toSend ⊆ s.socket.toSend
  spawned : s'.spawned = s.spawned
  awaiting : s'.awaiting = s.awaiting
  peerStorage : s'.peerStorage = s.peerStorage
  tokenSecret : s'.tokenSecret = s.tokenSecret
  oldTokenSecret : s'.oldTokenSecret = s.oldTokenSecret

/-- An invariant that each change keeps that is made to answer a request, up to announces, where nodes that are stored meet `A` and
addresses that are sent to meet `D`. -/
structure ClosedForRequests (env : Env σ) (A : Node → Prop) (D : SocketAddr → Prop) (I : DHT σ → Prop) : Prop where
  same : ∀ {s s'}, I s → SameData s s' → I s'
  addOrUpdate : ∀ {s} node verified now nowNew, A node → I s →
    I { s with buckets := s.buckets.addOrUpdate env.sort node verified now nowNew }
  getPeers : ∀ {s} infoHash newerThan, I s → I { s with peerStorage := (s.peerStorage.getPeers infoHash newerThan).2 }
  sendTo : ∀ {s} toSend dest destId now, D dest → I s → I { s with socket := s.socket.sendTo toSend dest destId now }

/-- An invariant that each change keeps that handlers make, up to announces and rotations of the token secrets. -/
structure Closed (env : Env σ) (A : Node → Prop) (D : SocketAddr → Prop) (I : DHT σ → Prop) : Prop extends
    ClosedForRequests env A D I where
  prune : ∀ {s} gracePeriod unverifiedGracePeriod now now', I s →
    I { s with buckets := s.buckets.prune gracePeriod unverifiedGracePeriod now now' }
  setId : ∀ {s} id, I s → I { s with ourId := id, buckets := s.buckets.setId id }
  stored : ∀ {s}, I s → ∀ w ∈ s.buckets.getAllVerified ++ s.buckets.getAllUnverified, D w.node.address
  await : ∀ {s} task, D task.target → I s → I { s with awaiting := s.awaiting ++ [task] }
  eraseAwaiting : ∀ {s} i, I s → I { s with awaiting := s.awaiting.eraseIdx i }
  awaited : ∀ {s}, I s → ∀ task ∈ s.awaiting, D task.target
  spawn : ∀ {s} task, D task.dest → I s → I { s with spawned := s.spawned ++ [task] }
  eraseSpawned : ∀ {s} i, I s → I { s with spawned := s.spawned.eraseIdx i }
  spawned : ∀ {s}, I s → ∀ task ∈ s.spawned, D task.dest

/-- What is known of a node that a handler stores because it heard from it: it is not at port 0, and its id is valid for its
address. -/
structure Admits (env : Env σ) (A : Node → Prop) (D : SocketAddr → Prop) : Prop where
  dest : ∀ addr : SocketAddr, addr.port ≠ 0 → D addr
  node : ∀ id addr, D addr → id.isValidForIp env.checksumCastagnoli addr.ip = .ok true → A ⟨id, addr⟩

variable {env : Env σ} {A : Node → Prop} {D : SocketAddr → Prop} {I : DHT σ → Prop} {α : Type} {Q : α → Prop}

/-- What is done while the lock is held. -/
theorem run_lock_eq (x : DHTM σ α) (s : DHT σ) : (lock x).run.run s =
    if s.poisoned then (.error (.panic ⟨"called `Result::unwrap()` on an `Err` value: PoisonError"⟩), s)
    else poison (x.run.run s) := rfl

/-- What is done under the lock is what is done, and a poisoned lock. -/
theorem keeps_lock (hI : ClosedForRequests env A D I) {x : DHTM σ α} (h : Keeps I x Q) : Keeps I (lock x) Q := by
  intro s hs
  rw [run_lock_eq]
  split
  · exact ⟨hs, fun _ ha => nomatch ha⟩
  · obtain ⟨h1, h2⟩ := h s hs
    rcases hx : x.run.run s with ⟨(e | p) | a, s'⟩
    all_goals rw [hx] at h1 h2
    · exact ⟨h1, h2⟩
    · exact ⟨hI.same h1 ⟨rfl, rfl, List.Subset.refl _, rfl, rfl, rfl, rfl, rfl⟩, fun _ ha => nomatch ha⟩
    · exact ⟨h1, h2⟩

/-- A result that a handler returns early on is one. -/
theorem keeps_lift (r : Except Failure α) : Keeps I (lift r : DHTM σ α) (fun a => r = .ok a) :=
  Keeps.of_ofExcept (fun _ h => h)

/-- Returning keeps everything. -/
theorem keeps_pure (a : α) : Keeps I (pure a : DHTM σ α) (fun _ => True) := Keeps.of_pure trivial

/-- A value that a call which can panic returned. -/
theorem eq_ok_of_orPanic {r : Except Panic α} {a : α} (h : orPanic r = .ok a) : r = .ok a := by
  cases r with
  | ok b =>
    cases h
    rfl
  | error p => cases h

/-- The author that a message was asked for is its author. -/
theorem getAuthorId_of_authorOr {failure : Failure} {msg : Message} {id : Id} (h : authorOr failure msg = .ok id) :
    msg.getAuthorId = some id := by
  rw [authorOr] at h
  split at h
  · rename_i hauthor
    rw [hauthor, Except.ok.inj h]
  · cases h

/-- Sending to an address that may be sent to. -/
theorem keeps_sendTo (hI : ClosedForRequests env A D I) (toSend : Message) {dest : SocketAddr} (hdest : D dest)
    (destId : Option Id) (now : Instant) : Keeps I (sendTo toSend dest destId now : DHTM σ Unit) (fun _ => True) := by
  unfold sendTo
  refine Keeps.bind (Keeps.of_modify (fun _ h => hI.sendTo toSend dest destId now hdest h)) (fun _ _ => ?_)
  refine Keeps.of_get.bind (fun s _ => ?_)
  split
  · exact Keeps.of_throw _
  · exact keeps_pure _

/-- Storing a node that may be stored. -/
theorem keeps_addOrUpdate (hI : ClosedForRequests env A D I) {node : Node} (hnode : A node) (verified : Bool)
    (now nowNew : Instant) : Keeps I (addOrUpdate env node verified now nowNew) (fun _ => True) :=
  Keeps.of_modify (fun _ h => hI.addOrUpdate node verified now nowNew hnode h)

/-! ## Incoming requests -/

section Requests

variable (hI : ClosedForRequests env A D I)

/-- The requester may be stored: its id is valid for its address, and it does not say that it is read-only. -/
def MayStore (env : Env σ) (A : Node → Prop) (msg : Message) (addr : SocketAddr) : Prop :=
  ∀ id, msg.getAuthorId = some id → id.isValidForIp env.checksumCastagnoli addr.ip = .ok true → msg.readOnly ≠ some true →
    A ⟨id, addr⟩

include hI

theorem keeps_commonRequestHandling {msg : Message} {addr : SocketAddr} (hnode : MayStore env A msg addr) (now : Instant) :
    Keeps I (commonRequestHandling env addr msg now) (fun _ => True) := by
  unfold commonRequestHandling
  refine (keeps_lift _).bind (fun senderId hsender => (keeps_lift _).bind (fun isIdValid hvalid => ?_))
  dsimp only
  split
  · rename_i hadd
    obtain ⟨hvalid', hreadOnly⟩ := Bool.and_eq_true_iff.mp hadd
    rw [hvalid'] at hvalid
    refine keeps_lock hI
      (keeps_addOrUpdate hI (hnode senderId (getAuthorId_of_authorOr hsender) (eq_ok_of_orPanic hvalid) ?_) false now now)
    intro hro
    rw [hro] at hreadOnly
    exact Bool.false_ne_true hreadOnly
  · exact keeps_pure _

theorem keeps_pingReply (msg : Message) (addr : SocketAddr) :
    Keeps I (pingReply msg addr : DHTM σ Message) (fun _ => True) := by
  unfold pingReply
  refine (keeps_lock hI (Keeps.of_get.bind (fun s _ => keeps_pure _))).bind (fun ourId _ => ?_)
  exact (keeps_lift _).weaken (fun _ _ => trivial)

theorem keeps_getPeersReply (arguments : GetPeersRequestArguments) (msg : Message) (addr : SocketAddr) (now : Instant) :
    Keeps I (getPeersReply env arguments msg addr now) (fun _ => True) := by
  refine keeps_lock hI (Keeps.of_get.bind (fun s hs => ?_))
  dsimp only
  refine Keeps.bind (Keeps.of_set ?_) (fun _ _ => ?_)
  · exact hI.getPeers arguments.infoHash _ hs
  · split <;> exact (keeps_lift _).weaken (fun _ _ => trivial)

theorem keeps_findNodeReply (arguments : FindNodeRequestArguments) (msg : Message) (addr : SocketAddr) :
    Keeps I (findNodeReply env arguments msg addr) (fun _ => True) :=
  keeps_lock hI (Keeps.of_get.bind (fun _ _ => (keeps_lift _).weaken (fun _ _ => trivial)))

/-- An invariant that is kept by announces is kept by the reply to one. -/
theorem keeps_announcePeerReply
    (hannounce : ∀ s infoHash addr now, I s → I { s with peerStorage := s.peerStorage.announcePeer infoHash addr now })
    (arguments : AnnouncePeerRequestArguments) (msg : Message) (addr : SocketAddr) (now : Instant) :
    Keeps I (announcePeerReply env arguments msg addr now) (fun _ => True) := by
  refine keeps_lock hI (Keeps.of_get.bind (fun s hs => ?_))
  dsimp only
  split
  · refine Keeps.bind (Keeps.of_set ?_) (fun _ _ => (keeps_lift _).bind (fun _ _ => keeps_pure _))
    exact hannounce s _ _ _ hs
  · exact keeps_pure _

theorem keeps_sampleInfoHashesReply (arguments : SampleInfoHashesRequestArguments) (msg : Message) (addr : SocketAddr)
    (shuffle : PartialShuffle) : Keeps I (sampleInfoHashesReply env arguments msg addr shuffle) (fun _ => True) :=
  keeps_lock hI (Keeps.of_get.bind (fun _ _ => (keeps_lift _).bind (fun _ _ => (keeps_lift _).weaken (fun _ _ => trivial))))

/-- A request is answered where it came from. -/
theorem keeps_acceptSinglePacket {msg : Message} {addr : SocketAddr} (haddr : D addr) (hnode : MayStore env A msg addr)
    (hannounce : ∀ arguments, msg.messageType = .request (.announcePeerRequest arguments) →
      ∀ s infoHash addr now, I s → I { s with peerStorage := s.peerStorage.announcePeer infoHash addr now })
    (now : Nat → Instant) (shuffle : PartialShuffle) :
    Keeps I (acceptSinglePacket env msg addr now shuffle) (fun _ => True) := by
  unfold acceptSinglePacket
  split
  · rename_i requestVariant htype
    refine (keeps_commonRequestHandling hI hnode (now 0)).bind (fun _ _ => ?_)
    split
    · exact (keeps_pingReply hI msg addr).bind (fun reply _ => keeps_sendTo hI reply haddr _ _)
    · exact (keeps_getPeersReply hI _ msg addr _).bind (fun reply _ => keeps_sendTo hI reply haddr _ _)
    · exact (keeps_findNodeReply hI _ msg addr).bind (fun reply _ => keeps_sendTo hI reply haddr _ _)
    · refine (keeps_announcePeerReply hI (hannounce _ htype) _ msg addr _).bind (fun reply _ => ?_)
      split
      · exact keeps_sendTo hI _ haddr _ _
      · exact keeps_pure _
    · exact (keeps_sampleInfoHashesReply hI _ msg addr shuffle).bind (fun reply _ => keeps_sendTo hI reply haddr _ _)
  · exact keeps_pure _
  · exact keeps_pure _

/-- No packet gets past the filter with port 0. -/
theorem keeps_acceptIncomingPacket {msg : Message} {addr : SocketAddr} (haddr : addr.port ≠ 0 → D addr)
    (hnode : addr.port ≠ 0 → MayStore env A msg addr)
    (hannounce : ∀ arguments, msg.messageType = .request (.announcePeerRequest arguments) →
      ∀ s infoHash addr now, I s → I { s with peerStorage := s.peerStorage.announcePeer infoHash addr now })
    (throttled : Bool) (now : Nat → Instant) (shuffle : PartialShuffle) :
    Keeps I (acceptIncomingPacket env msg addr throttled now shuffle) (fun _ => True) := by
  unfold acceptIncomingPacket
  split
  · exact keeps_pure _
  · split
    · exact keeps_pure _
    · rename_i hport
      refine Keeps.of_get.bind (fun s _ => ?_)
      split
      · refine (keeps_acceptSinglePacket hI (haddr hport) (hnode hport) hannounce now shuffle).bind (fun _ _ => ?_)
        exact keeps_lock hI (keeps_pure _)
      · exact keeps_lock hI (keeps_pure _)

/-- What a handler keeps, a handler in the event loop keeps. -/
theorem ClosedForRequests.inEventLoop {s : DHT σ} (h : I s) {x : DHTM σ Unit} {Q : Unit → Prop} (hx : Keeps I x Q)
    (skips : RustyDHTError → Bool) : I (inEventLoop skips x s) := by
  unfold DHT.inEventLoop
  have h1 := (hx s h).1
  split
  · rcases hr : x.run.run s with ⟨(e | p) | a, s'⟩
    all_goals rw [hr] at h1
    · dsimp only
      split
      · exact h1
      · exact hI.same h1 ⟨rfl, rfl, List.Subset.refl _, rfl, rfl, rfl, rfl, rfl⟩
    · exact hI.same h1 ⟨rfl, rfl, List.Subset.refl _, rfl, rfl, rfl, rfl, rfl⟩
    · exact h1
  · exact h

/-- What handling an incoming packet keeps, receiving it keeps. -/
theorem ClosedForRequests.accept {s : DHT σ} (h : I s) {throttled : Bool} {now : Nat → Instant} {shuffle : PartialShuffle}
    (hkeeps : ∀ msg addr received, s.socket.received = (msg, addr) :: received →
      Keeps I (acceptIncomingPacket env msg addr throttled now shuffle) (fun _ => True)) :
    I (step env s (.accept throttled now shuffle)) := by
  simp only [step]
  split
  · rename_i msg addr received hreceived
    refine hI.inEventLoop ?_ (hkeeps msg addr received hreceived) _
    split
    · exact hI.same h ⟨rfl, rfl, List.Subset.refl _, rfl, rfl, rfl, rfl, rfl⟩
    · exact h
  · exact h

end Requests

/-! ## Requests and their responses -/

theorem keeps_ip4VoteHelper (hI : ClosedForRequests env A D I) (addr : SocketAddr) (msg : Message) :
    Keeps I (ip4VoteHelper env addr msg) (fun _ => True) := by
  unfold ip4VoteHelper
  split
  · exact Keeps.of_modify (fun _ h => hI.same h ⟨rfl, rfl, List.Subset.refl _, rfl, rfl, rfl, rfl, rfl⟩)
  · exact keeps_pure _

/-- The nodes that a find_node response lists. -/
def listedNodes (reply : Message) : List Node :=
  match reply.messageType with
  | .response (.findNodeResponse args) => args.nodes
  | _ => []

/-- The nodes listed in the response that the task at an index receives, if it does and the response is one to find_node. -/
def receivedNodes (s : DHT σ) (i : Nat) : List Node :=
  match s.awaiting[i]?.bind (fun task => (s.socket.channel task.receiver).head?) with
  | some reply => listedNodes reply
  | none => []

section Handlers

variable (hI : Closed env A D I)

include hI

/-- A request to an address that may be sent to is queued, and its response awaited from there. -/
theorem keeps_commonSend (msg : Message) {target : SocketAddr} (htarget : D target) (targetId : Option Id) (now : Instant) :
    Keeps I (commonSend msg target targetId now : DHTM σ Unit) (fun _ => True) := by
  unfold commonSend
  split
  · refine Keeps.of_get.bind (fun s _ => ?_)
    refine (keeps_sendTo hI.toClosedForRequests msg htarget targetId now).bind (fun _ _ => Keeps.of_modify (fun s h => ?_))
    exact hI.await _ htarget h
  · exact Keeps.of_throw _

/-- The nodes that are listed and whose ids are valid for their addresses are stored. -/
theorem keeps_seeNodes {nodes : List Node}
    (hnodes : ∀ node ∈ nodes, node.id.isValidForIp env.checksumCastagnoli node.address.ip = .ok true → A node)
    (now : Nat → Instant) : Keeps I (seeNodes env nodes now) (fun _ => True) := by
  refine Keeps.of_forM (fun p hp => (keeps_lift _).bind (fun idIsValid hvalid => ?_))
  split
  · rename_i htrue
    rw [htrue] at hvalid
    exact keeps_addOrUpdate hI.toClosedForRequests
      (hnodes p.1 (List.fst_mem_of_mem_zipIdx hp) (eq_ok_of_orPanic hvalid)) false _ _
  · exact keeps_pure _

/-- A response whose author may be stored where its id is valid, and which lists no node that may not be stored. -/
theorem keeps_handleResponse {target : SocketAddr} {reply : Message}
    (hauthor : ∀ id, reply.getAuthorId = some id → id.isValidForIp env.checksumCastagnoli target.ip = .ok true → A ⟨id, target⟩)
    (hlisted : ∀ node ∈ listedNodes reply, node.id.isValidForIp env.checksumCastagnoli node.address.ip = .ok true → A node)
    (now nowNew : Instant) (nowSeen : Nat → Instant) :
    Keeps I (handleResponse env target reply now nowNew nowSeen) (fun _ => True) := by
  unfold handleResponse
  split
  · rename_i variant htype
    have hsee : Keeps I (seeListed env variant nowSeen) (fun _ => True) := by
      unfold seeListed
      split
      · rw [listedNodes, htype] at hlisted
        exact keeps_lock hI.toClosedForRequests (keeps_seeNodes hI hlisted nowSeen)
      · exact keeps_pure _
    refine (keeps_lift _).bind (fun theirId htheir => (keeps_lift _).bind (fun idIsValid hvalid => ?_))
    dsimp only
    split
    · rename_i htrue
      rw [htrue] at hvalid
      have hadd := (keeps_ip4VoteHelper hI.toClosedForRequests target reply).bind (fun _ _ =>
        keeps_addOrUpdate hI.toClosedForRequests (hauthor theirId (getAuthorId_of_authorOr htheir) (eq_ok_of_orPanic hvalid)) true
          now nowNew)
      exact (keeps_lock hI.toClosedForRequests hadd).bind (fun _ _ => hsee.bind (fun _ _ => keeps_pure _))
    · exact hsee.bind (fun _ _ => keeps_pure _)
  · exact Keeps.of_throw _

theorem keeps_pingInternal {target : SocketAddr} (htarget : D target) (targetId : Option Id) :
    Keeps I (pingInternal target targetId : DHTM σ Unit) (fun _ => True) :=
  Keeps.of_modify (fun _ h => hI.spawn (.ping target targetId) htarget h)

theorem keeps_findNodeInternal {dest : SocketAddr} (hdest : D dest) (destId : Option Id) (target : Id) :
    Keeps I (findNodeInternal dest destId target : DHTM σ Unit) (fun _ => True) :=
  Keeps.of_modify (fun _ h => hI.spawn (.findNode dest destId target) hdest h)

theorem keeps_runSpawned {task : SpawnedTask} (htask : D task.dest) (now : Instant) (rng : UInt8 × UInt8) :
    Keeps I (runSpawned task now rng : DHTM σ Unit) (fun _ => True) := by
  unfold runSpawned
  refine (keeps_lock hI.toClosedForRequests (Keeps.of_get.bind (fun s _ => keeps_pure _))).bind (fun req _ => ?_)
  cases task with
  | ping target targetId => exact keeps_commonSend hI req htask targetId now
  | findNode dest destId target => exact keeps_commonSend hI req htask destId now

/-! ## The loops -/

/-- The nodes that are pinged are stored ones. -/
theorem keeps_periodicBuddyPing (now : Nat → Instant) : Keeps I (periodicBuddyPing now : DHTM σ Unit) (fun _ => True) := by
  unfold periodicBuddyPing
  refine (keeps_lock (Q := fun _ => True) hI.toClosedForRequests (Keeps.of_get.bind (fun s hs => ?_))).bind
    (fun reverifyIntervalSecs _ => ?_)
  · dsimp only
    refine Keeps.bind (Keeps.of_set ?_) (fun _ _ => keeps_pure _)
    exact hI.prune _ _ _ _ hs
  · split
    · exact keeps_pure _
    · rename_i pingIfOlderThan _
      refine Keeps.bind (Q := fun nodes : List NodeWrapper × List NodeWrapper =>
        (∀ w ∈ nodes.1, D w.node.address) ∧ ∀ w ∈ nodes.2, D w.node.address)
        (keeps_lock hI.toClosedForRequests (Keeps.of_get.bind (fun s hs => Keeps.of_pure
          ⟨fun w hw => hI.stored hs w (List.mem_append_right _ hw), fun w hw => hI.stored hs w (List.mem_append_left _ hw)⟩)))
        (fun nodes hnodes => ?_)
      have hping : ∀ w : NodeWrapper, D w.node.address → Keeps I
          (if verifiedSince pingIfOlderThan w then return () else pingInternal w.node.address (some w.node.id) : DHTM σ Unit)
          (fun _ => True) := by
        intro w hw
        split
        · exact keeps_pure _
        · exact keeps_pingInternal hI hw _
      refine (Keeps.of_forM (fun w hw => hping w (hnodes.1 w hw))).bind (fun _ _ => ?_)
      exact Keeps.of_forM (fun w hw => hping w (hnodes.2 w hw))

theorem keeps_pingRouters {routers : List (List SocketAddr)} (hrouters : ∀ addrs ∈ routers, ∀ addr ∈ addrs, D addr) :
    Keeps I (pingRouters routers : DHTM σ Unit) (fun _ => True) := by
  refine Keeps.of_forM (fun addrs haddrs => ?_)
  split
  · rename_i addr hfind
    exact keeps_pingInternal hI (hrouters addrs haddrs addr (List.mem_of_find?_eq_some hfind)) none
  · exact keeps_pure _

theorem keeps_periodicFindNodeCount {routers : List (List SocketAddr)}
    (hrouters : ∀ addrs ∈ routers, ∀ addr ∈ addrs, D addr) :
    Keeps I (periodicFindNodeCount routers : DHTM σ Unit) (fun _ => True) := by
  have hcount : ∀ count, Keeps I (modify (fun s => { s with countUnverified := some count }) : DHTM σ Unit) (fun _ => True) :=
    fun _ => Keeps.of_modify (fun _ h => hI.same h ⟨rfl, rfl, List.Subset.refl _, rfl, rfl, rfl, rfl, rfl⟩)
  unfold periodicFindNodeCount
  refine (keeps_lock hI.toClosedForRequests (Keeps.of_get.bind (fun s _ => keeps_pure _))).bind (fun counts _ => ?_)
  dsimp only
  split
  · exact (keeps_pingRouters hI hrouters).bind (fun _ _ => hcount _)
  · exact hcount _

/-- The nodes that are asked are stored ones. -/
theorem keeps_periodicFindNode (countUnverified : Nat) (random : Id) :
    Keeps I (periodicFindNode env countUnverified random) (fun _ => True) := by
  unfold periodicFindNode
  refine Keeps.bind (Keeps.of_modify (fun _ h => hI.same h ⟨rfl, rfl, List.Subset.refl _, rfl, rfl, rfl, rfl, rfl⟩)) (fun _ _ => ?_)
  refine Keeps.bind (Q := fun asked : List Node × Id => ∀ node ∈ asked.1, D node.address)
    (keeps_lock hI.toClosedForRequests (Keeps.of_get.bind (fun s hs => ?_))) (fun asked hasked => ?_)
  · split
    · exact Keeps.of_pure (fun _ h => absurd h List.not_mem_nil)
    · refine Keeps.of_pure (fun node hnode => ?_)
      obtain ⟨w, hw, rfl⟩ := NodeBucketStorage.mem_getNearestNodes hnode
      exact hI.stored hs w (List.mem_append_left _ hw)
  · exact Keeps.of_forM (fun node hnode => keeps_findNodeInternal hI (hasked node hnode) _ _)

theorem keeps_periodicIp4Maintenance (rng : Nat → UInt8) : Keeps I (periodicIp4Maintenance env rng) (fun _ => True) := by
  have hdecay : Keeps I (modify (fun s => { s with ip4Source := env.ip4Source.decay s.ip4Source }) : DHTM σ Unit)
      (fun _ => True) := Keeps.of_modify (fun _ h => hI.same h ⟨rfl, rfl, List.Subset.refl _, rfl, rfl, rfl, rfl, rfl⟩)
  refine keeps_lock hI.toClosedForRequests (hdecay.bind (fun _ _ => Keeps.of_get.bind (fun s hs => ?_)))
  split
  · refine (keeps_lift _).bind (fun isValid _ => ?_)
    split
    · refine (keeps_lift _).bind (fun newId _ => Keeps.of_set ?_)
      exact hI.setId newId hs
    · exact keeps_pure _
  · exact keeps_pure _

/-! ## Events -/

/-- A dump of the info hashes is a number of lookups. -/
theorem Closed.getInfoHashes {s : DHT σ} (h : I s) (newerThan : Option Instant) :
    I { s with peerStorage := (DHT.getInfoHashes s.peerStorage newerThan).2 } := by
  have hloop : ∀ (hashes : List Id) (s : DHT σ), I s →
      I { s with peerStorage := (DHT.getInfoHashesLoop newerThan hashes s.peerStorage).2 } := by
    intro hashes
    induction hashes with
    | nil => exact fun s h => h
    | cons hash hashes ih => exact fun s h => ih _ (hI.getPeers hash newerThan h)
  exact hloop s.peerStorage.getInfoHashes s h

end Handlers

/-- What an event brings that the DHT has not chosen: the nodes that a response lists, and the addresses that the application and the
names of the routers give. -/
def EventOk (env : Env σ) (A : Node → Prop) (D : SocketAddr → Prop) (s : DHT σ) : Event → Prop
  | .response i _ _ _ =>
    ∀ node ∈ s.receivedNodes i, node.id.isValidForIp env.checksumCastagnoli node.address.ip = .ok true → A node
  | .sendRequest _ dest _ _ => D dest
  | .routerPing routers => ∀ addrs ∈ routers, ∀ addr ∈ addrs, D addr
  | .findNodeCount routers => ∀ addrs ∈ routers, ∀ addr ∈ addrs, D addr
  | _ => True

/-- An event brings nothing that matters where every node with a valid id may be stored and every address sent to. -/
theorem EventOk.of_valid (hA : ∀ node : Node, node.id.isValidForIp env.checksumCastagnoli node.address.ip = .ok true → A node)
    (s : DHT σ) (e : Event) : EventOk env A (fun _ => True) s e := by
  cases e with
  | response i now nowNew nowSeen => exact fun node _ hvalid => hA node hvalid
  | routerPing routers => exact fun _ _ _ _ => trivial
  | findNodeCount routers => exact fun _ _ _ _ => trivial
  | _ => exact trivial

/-- The next message that `accept_incoming_packets` would receive, if there is one, is an announce. -/
def NextIsAnnounce (s : DHT σ) : Prop :=
  ∃ msg arguments addr, s.socket.received.head? = some (msg, addr) ∧ msg.messageType = .request (.announcePeerRequest arguments)

/-- What an event brings may be stored and sent to: the requester of the next message, the node that responded and those it lists, and
the addresses that the application and the names of the routers give. -/
def Admitted (env : Env σ) (A : Node → Prop) (D : SocketAddr → Prop) (s : DHT σ) : Event → Prop
  | .accept _ _ _ =>
    ∀ msg addr, s.socket.received.head? = some (msg, addr) → addr.port ≠ 0 → D addr ∧ MayStore env A msg addr
  | .response i _ _ _ =>
    ∀ task reply, s.awaiting[i]? = some task → (s.socket.channel task.receiver).head? = some reply →
      (∀ id, reply.getAuthorId = some id → id.isValidForIp env.checksumCastagnoli task.target.ip = .ok true → A ⟨id, task.target⟩) ∧
        ∀ node ∈ listedNodes reply, node.id.isValidForIp env.checksumCastagnoli node.address.ip = .ok true → A node
  | .sendRequest _ dest _ _ => D dest
  | .routerPing routers => ∀ addrs ∈ routers, ∀ addr ∈ addrs, D addr
  | .findNodeCount routers => ∀ addrs ∈ routers, ∀ addr ∈ addrs, D addr
  | _ => True

/-- Every event that brings nothing else keeps a closed invariant, given that it keeps announces and rotations of the token secrets
where there is one. -/
theorem Closed.step_of_admitted (hI : Closed env A D I) {s : DHT σ} (h : I s) (e : Event) (hok : Admitted env A D s e)
    (hannounce : ∀ throttled now shuffle, e = .accept throttled now shuffle → s.NextIsAnnounce →
      ∀ s infoHash addr now, I s → I { s with peerStorage := s.peerStorage.announcePeer infoHash addr now })
    (hrotate : ∀ rng, e = .tokenRotation rng → ∀ s tokenSecret, I s →
      I { s with oldTokenSecret := s.tokenSecret, tokenSecret }) : I (step env s e) := by
  cases e with
  | packet buf ip port =>
    exact hI.same h ⟨rfl, rfl, (DHTSocket.backgroundIoIncoming_toSend _ _ _ _).symm ▸ List.Subset.refl _, rfl, rfl, rfl, rfl, rfl⟩
  | accept throttled now shuffle =>
    refine hI.toClosedForRequests.accept h (fun msg addr received hreceived => ?_)
    have hnext : ∀ arguments, msg.messageType = .request (.announcePeerRequest arguments) → s.NextIsAnnounce :=
      fun arguments htype => ⟨msg, arguments, addr, by rw [hreceived]; rfl, htype⟩
    have hhead : s.socket.received.head? = some (msg, addr) := by rw [hreceived]; rfl
    exact keeps_acceptIncomingPacket hI.toClosedForRequests (fun hport => (hok msg addr hhead hport).1)
      (fun hport => (hok msg addr hhead hport).2)
      (fun arguments htype => hannounce throttled now shuffle rfl (hnext arguments htype)) throttled now shuffle
  | outgoing result =>
    obtain ⟨toSend, hsubset, outgoingUp, hsocket⟩ := DHTSocket.backgroundIoOutgoing_eq env.codec s.socket result
    refine hI.same h ⟨rfl, rfl, ?_, rfl, rfl, rfl, rfl, rfl⟩
    simpa only [DHT.step, hsocket] using hsubset
  | requestCleanup now => exact hI.same h ⟨rfl, rfl, List.Subset.refl _, rfl, rfl, rfl, rfl, rfl⟩
  | runSpawned i now rng =>
    simp only [DHT.step]
    split
    · rename_i task htask
      exact (keeps_runSpawned hI (hI.spawned h task (List.mem_of_getElem? htask)) now rng _ (hI.eraseSpawned i h)).1
    · exact h
  | response i now nowNew nowSeen =>
    simp only [DHT.step]
    split
    · rename_i task htask
      split
      · rename_i reply hreply
        obtain ⟨hauthor, hlisted⟩ := hok task reply htask hreply
        exact (keeps_handleResponse hI hauthor hlisted now nowNew nowSeen _ (hI.eraseAwaiting i h)).1
      · exact h
    · exact h
  | giveUp i => exact hI.eraseAwaiting i h
  | sendRequest req dest destId now => exact (keeps_commonSend hI req hok destId now _ h).1
  | getInfoHashes newerThan => exact hI.getInfoHashes h newerThan
  | buddyPing now => exact hI.toClosedForRequests.inEventLoop h (keeps_periodicBuddyPing hI now) _
  | routerPing routers => exact hI.toClosedForRequests.inEventLoop h (keeps_pingRouters hI hok) _
  | findNodeCount routers =>
    simp only [DHT.step]
    split
    · exact h
    · exact hI.toClosedForRequests.inEventLoop h (keeps_periodicFindNodeCount hI hok) _
  | findNode random =>
    simp only [DHT.step]
    split
    · exact hI.toClosedForRequests.inEventLoop h (keeps_periodicFindNode hI _ random) _
    · exact h
  | ip4Maintenance rng => exact hI.toClosedForRequests.inEventLoop h (keeps_periodicIp4Maintenance hI rng) _
  | tokenRotation rng =>
    have hrotation : Keeps I (rotateTokenSecrets rng : DHTM σ Unit) (fun _ => True) :=
      keeps_lock hI.toClosedForRequests (Keeps.of_get.bind (fun s hs => Keeps.of_set (hrotate rng rfl s _ hs)))
    exact hI.toClosedForRequests.inEventLoop h hrotation _

/-- What is admitted of an event where nodes are stored for their valid ids. -/
theorem EventOk.admitted (hI : Closed env A D I) (hA : Admits env A D) {s : DHT σ} (h : I s) {e : Event} (hok : EventOk env A D s e) :
    Admitted env A D s e := by
  cases e with
  | accept throttled now shuffle =>
    intro msg addr _ hport
    exact ⟨hA.dest addr hport, fun id _ hvalid _ => hA.node id addr (hA.dest addr hport) hvalid⟩
  | response i now nowNew nowSeen =>
    intro task reply htask hreply
    have hlisted : s.receivedNodes i = listedNodes reply := by
      rw [receivedNodes, htask, Option.bind_some, hreply]
    rw [EventOk, hlisted] at hok
    exact ⟨fun id _ hvalid => hA.node id task.target (hI.awaited h task (List.mem_of_getElem? htask)) hvalid, hok⟩
  | sendRequest req dest destId now => exact hok
  | routerPing routers => exact hok
  | findNodeCount routers => exact hok
  | _ => exact trivial

/-- Every event keeps a closed invariant, given that it keeps announces and rotations of the token secrets where there is one. -/
theorem Closed.step (hI : Closed env A D I) (hA : Admits env A D) {s : DHT σ} (h : I s) (e : Event) (hok : EventOk env A D s e)
    (hannounce : ∀ throttled now shuffle, e = .accept throttled now shuffle → s.NextIsAnnounce →
      ∀ s infoHash addr now, I s → I { s with peerStorage := s.peerStorage.announcePeer infoHash addr now })
    (hrotate : ∀ rng, e = .tokenRotation rng → ∀ s tokenSecret, I s →
      I { s with oldTokenSecret := s.tokenSecret, tokenSecret }) : I (step env s e) := by
  exact hI.step_of_admitted h e (hok.admitted hI hA h) hannounce hrotate

/-- Where whatever is sent to is all right, so is every event, for nodes that are stored for their valid ids. -/
theorem Closed.step_of_valid (hI : Closed env A (fun _ => True) I)
    (hA : ∀ node : Node, node.id.isValidForIp env.checksumCastagnoli node.address.ip = .ok true → A node) {s : DHT σ} (h : I s)
    (e : Event)
    (hannounce : ∀ throttled now shuffle, e = .accept throttled now shuffle → s.NextIsAnnounce →
      ∀ s infoHash addr now, I s → I { s with peerStorage := s.peerStorage.announcePeer infoHash addr now })
    (hrotate : ∀ rng, e = .tokenRotation rng → ∀ s tokenSecret, I s →
      I { s with oldTokenSecret := s.tokenSecret, tokenSecret }) : I (DHT.step env s e) :=
  hI.step ⟨fun _ _ => trivial, fun id addr _ hvalid => hA ⟨id, addr⟩ hvalid⟩ h e (.of_valid hA s e) hannounce hrotate

/-! ## What is stored and what is sent to -/

/-- Every node that is stored meets a condition, and the tables are around the DHT's id; every address that something was sent or will
be sent to meets another. -/
structure Holds (P : Node → Prop) (D : SocketAddr → Prop) (s : DHT σ) : Prop where
  buckets : s.buckets.AllNodes P
  ourId : s.buckets.verified.ourId = s.ourId
  toSend : ∀ p ∈ s.socket.toSend, D p.2
  spawned : ∀ task ∈ s.spawned, D task.dest
  awaiting : ∀ task ∈ s.awaiting, D task.target

/-- What is stored and sent to is closed, where what is stored is sent to. -/
theorem Holds.closed (env : Env σ) {P : Node → Prop} (hPD : ∀ n, P n → D n.address) : Closed env P D (Holds P D) where
  same h hs := ⟨hs.buckets ▸ h.buckets, by rw [hs.buckets, hs.ourId]; exact h.ourId, fun p hp => h.toSend p (hs.toSend hp),
    hs.spawned ▸ h.spawned, hs.awaiting ▸ h.awaiting⟩
  addOrUpdate node verified now nowNew hnode h :=
    { h with
      buckets := h.buckets.addOrUpdate env.sort hnode verified now nowNew
      ourId := (NodeBucketStorage.addOrUpdate_ourId env.sort h.buckets.wf node verified now nowNew).trans h.ourId }
  getPeers _ _ h := ⟨h.buckets, h.ourId, h.toSend, h.spawned, h.awaiting⟩
  sendTo toSend dest destId now hdest h := by
    refine ⟨h.buckets, h.ourId, fun p hp => ?_, h.spawned, h.awaiting⟩
    rw [DHTSocket.sendTo_toSend, List.mem_append] at hp
    rcases hp with hp | hp
    · exact h.toSend p hp
    · split at hp
      · exact List.mem_singleton.mp hp ▸ hdest
      · exact absurd hp List.not_mem_nil
  prune g u now now' h :=
    { h with
      buckets := h.buckets.prune g u now now'
      ourId := (NodeBucketStorage.prune_ourId _ g u now now').trans h.ourId }
  setId id h := ⟨NodeBucketStorage.setId_allNodes _ _, rfl, h.toSend, h.spawned, h.awaiting⟩
  stored h w hw := by
    rcases List.mem_append.mp hw with hw | hw
    · exact hPD _ (h.buckets.verified w hw)
    · exact hPD _ (h.buckets.unverified w hw)
  await task htask h := by
    refine ⟨h.buckets, h.ourId, h.toSend, h.spawned, fun other hother => ?_⟩
    rcases List.mem_append.mp hother with hother | hother
    · exact h.awaiting other hother
    · exact List.mem_singleton.mp hother ▸ htask
  eraseAwaiting i h :=
    ⟨h.buckets, h.ourId, h.toSend, h.spawned, fun task htask => h.awaiting task (List.mem_of_mem_eraseIdx htask)⟩
  awaited h := h.awaiting
  spawn task htask h := by
    refine ⟨h.buckets, h.ourId, h.toSend, fun other hother => ?_, h.awaiting⟩
    rcases List.mem_append.mp hother with hother | hother
    · exact h.spawned other hother
    · exact List.mem_singleton.mp hother ▸ htask
  eraseSpawned i h :=
    ⟨h.buckets, h.ourId, h.toSend, fun task htask => h.spawned task (List.mem_of_mem_eraseIdx htask), h.awaiting⟩
  spawned h := h.spawned

/-- Every event keeps what is stored and what is sent to. -/
theorem Holds.step {P : Node → Prop} (hA : Admits env P D) (hPD : ∀ n, P n → D n.address) {s : DHT σ} (h : s.Holds P D) (e : Event)
    (hok : EventOk env P D s e) : (step env s e).Holds P D :=
  (Holds.closed env hPD).step hA h e hok
    (fun _ _ _ _ _ _ _ _ _ h => ⟨h.buckets, h.ourId, h.toSend, h.spawned, h.awaiting⟩)
    (fun _ _ _ _ h => ⟨h.buckets, h.ourId, h.toSend, h.spawned, h.awaiting⟩)

/-- What a new DHT is. -/
theorem new_eq_ok {id : Option Id} {ip4Source : σ} {buckets : NodeBucketStorage} {settings : DHTSettings}
    {rng secretRng : Nat → UInt8} {random : Id} {s : DHT σ}
    (h : new env id ip4Source buckets settings rng secretRng random = .ok s) :
    s.socket = .new ∧ s.buckets = buckets.setId s.ourId ∧ s.peerStorage = .new settings.maxTorrents settings.maxPeersPerTorrent ∧
      s.oldTokenSecret = s.tokenSecret ∧ s.spawned = [] ∧ s.awaiting = [] := by
  unfold new at h
  cases hid : initialId env id ip4Source rng random with
  | error p =>
    rw [hid] at h
    cases h
  | ok ourId =>
    rw [hid] at h
    cases h
    exact ⟨rfl, rfl, rfl, rfl, rfl, rfl⟩

/-- What holds of the peer storage and of the token secrets is closed, if lookups keep it. -/
theorem closed_of_lookups (env : Env σ) {P : PeerStorage → List UInt8 → List UInt8 → Prop}
    (hgetPeers : ∀ {peerStorage tokenSecret oldTokenSecret} hash newerThan, P peerStorage tokenSecret oldTokenSecret →
      P (peerStorage.getPeers hash newerThan).2 tokenSecret oldTokenSecret) :
    Closed env (fun _ => True) (fun _ => True) (fun s : DHT σ => P s.peerStorage s.tokenSecret s.oldTokenSecret) where
  same h hs := by
    rw [hs.peerStorage, hs.tokenSecret, hs.oldTokenSecret]
    exact h
  addOrUpdate _ _ _ _ _ h := h
  getPeers hash newerThan h := hgetPeers hash newerThan h
  sendTo _ _ _ _ _ h := h
  prune _ _ _ _ h := h
  setId _ h := h
  stored _ _ _ := trivial
  await _ _ h := h
  eraseAwaiting _ h := h
  awaited _ _ _ := trivial
  spawn _ _ h := h
  eraseSpawned _ h := h
  spawned _ _ _ := trivial

/-- A new DHT holds no address. -/
theorem new_holds {P : Node → Prop} {id : Option Id} {ip4Source : σ} {buckets : NodeBucketStorage} {settings : DHTSettings}
    {rng secretRng : Nat → UInt8} {random : Id} {s : DHT σ}
    (h : new env id ip4Source buckets settings rng secretRng random = .ok s) : s.Holds P D := by
  obtain ⟨hsocket, hbuckets, -, -, hspawned, hawaiting⟩ := new_eq_ok h
  refine ⟨hbuckets ▸ NodeBucketStorage.setId_allNodes _ _, hbuckets ▸ rfl, ?_, ?_, ?_⟩
  · rw [hsocket]
    exact fun _ hp => absurd hp List.not_mem_nil
  · rw [hspawned]
    exact fun _ ht => absurd ht List.not_mem_nil
  · rw [hawaiting]
    exact fun _ ht => absurd ht List.not_mem_nil

/-- In every run of a new DHT, what is known of valid nodes holds of those that are stored. -/
theorem run_holds (env : Env σ) {P : Node → Prop}
    (hP : ∀ node : Node, node.id.isValidForIp env.checksumCastagnoli node.address.ip = .ok true → P node)
    {id : Option Id} {ip4Source : σ} {buckets : NodeBucketStorage} {settings : DHTSettings} {rng secretRng : Nat → UInt8}
    {random : Id} {s : DHT σ} (hnew : new env id ip4Source buckets settings rng secretRng random = .ok s) (events : List Event) :
    (Machine.run (step env) s events).Holds P (fun _ => True) := by
  have hA : Admits env P (fun _ => True) := ⟨fun _ _ => trivial, fun id addr _ hvalid => hP ⟨id, addr⟩ hvalid⟩
  exact Machine.run_invariant (step env) (fun s e h => Holds.step hA (fun _ _ => trivial) h e (.of_valid hP s e)) events s
    (new_holds hnew)

/-! ## An environment to run a DHT in -/

/-- One byte of CRC-32C, a bit at a time. -/
def crc32cByte (crc : UInt32) (b : UInt8) : UInt32 :=
  (List.range 8).foldl (fun crc _ => if crc &&& 1 = 1 then (crc >>> 1) ^^^ 0x82f63b78 else crc >>> 1) (crc ^^^ b.toUInt32)

/-- CRC-32C. -/
def crc32c (bytes : List UInt8) : UInt32 := bytes.foldl crc32cByte 0xffffffff ^^^ 0xffffffff

/-- A sort, a checksum, the bencoding and an address source that always returns one address. -/
def sampleEnv : Env Ipv4Addr :=
  { sort := .insertion, checksumCastagnoli := crc32c, codec := Bencode.codec, ip4Source := .static }

/-- A new DHT with the id zero. -/
def sampleDht : DHT Ipv4Addr :=
  expect (orPanic (new sampleEnv (some Id.zero) ⟨10, 0, 0, 1⟩ (.new Id.zero 8) .default (fun _ => 0) (fun _ => 0) Id.zero)) rfl

theorem sampleDht_new :
    new sampleEnv (some Id.zero) ⟨10, 0, 0, 1⟩ (.new Id.zero 8) .default (fun _ => 0) (fun _ => 0) Id.zero = .ok sampleDht := rfl

end DHT

end RustyDht
