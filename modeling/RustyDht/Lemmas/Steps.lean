import RustyDht.Lemmas.Requests
import RustyDht.Lemmas.Socket

/-!
# What a step does to the socket

Most handlers are quiet: they change neither the socket nor the peers, nor what the DHT is set to. `sends` is what an event puts on
the queue, and `socketAfter` the socket it leaves; `step_socket` says so of every event, so that what is proved of the socket
carries over to the DHT around it.
-/

namespace RustyDht

namespace DHT

variable {σ : Type} {env : Env σ} {s s' : DHT σ} {α : Type} {Q : α → Prop}

/-! ## What most handlers leave alone -/

/-- A condition to which the nodes that are stored, the requests that are planned and the lock make no difference. -/
structure Ignores (I : DHT σ → Prop) : Prop where
  poisoned : ∀ {s}, I s → I { s with poisoned := true }
  buckets : ∀ {s} buckets, I s → I { s with buckets }
  spawned : ∀ {s} spawned, I s → I { s with spawned }
  countUnverified : ∀ {s} countUnverified, I s → I { s with countUnverified }

namespace Ignores

variable {I : DHT σ → Prop}

/-- What is kept is kept under the lock. -/
theorem lock (hI : Ignores I) {x : DHTM σ α} (h : Keeps I x Q) : Keeps I (DHT.lock x) Q := by
  intro s hs
  rw [run_lock_eq]
  split
  · exact ⟨hs, fun a ha => nomatch ha⟩
  · obtain ⟨h1, h2⟩ := h s hs
    rcases hx : x.run.run s with ⟨(e | p) | a, s'⟩
    all_goals rw [hx] at h1 h2
    · exact ⟨h1, h2⟩
    · exact ⟨hI.poisoned h1, fun a ha => nomatch ha⟩
    · exact ⟨h1, h2⟩

theorem addOrUpdate (hI : Ignores I) (node : Node) (verified : Bool) (now nowNew : Instant) :
    Keeps I (DHT.addOrUpdate env node verified now nowNew) (fun _ => True) :=
  Keeps.of_modify (fun _ hs => hI.buckets _ hs)

/-- The nodes that a response lists are stored, and nothing else is done. -/
theorem seeListed (hI : Ignores I) (variant : ResponseSpecific) (now : Nat → Instant) :
    Keeps I (DHT.seeListed env variant now) (fun _ => True) := by
  unfold DHT.seeListed
  split
  · refine hI.lock (Keeps.of_forM (fun p _ => (keeps_lift _).bind (fun idIsValid _ => ?_)))
    split
    · exact hI.addOrUpdate _ _ _ _
    · exact keeps_pure _
  · exact keeps_pure _

theorem pingInternal (hI : Ignores I) (target : SocketAddr) (targetId : Option Id) :
    Keeps I (DHT.pingInternal target targetId : DHTM σ Unit) (fun _ => True) :=
  Keeps.of_modify (fun _ hs => hI.spawned _ hs)

theorem pingRouters (hI : Ignores I) (routers : List (List SocketAddr)) :
    Keeps I (DHT.pingRouters routers : DHTM σ Unit) (fun _ => True) := by
  refine Keeps.of_forM (fun addrs _ => ?_)
  split
  · exact hI.pingInternal _ none
  · exact keeps_pure _

theorem periodicBuddyPing (hI : Ignores I) (now : Nat → Instant) :
    Keeps I (DHT.periodicBuddyPing now : DHTM σ Unit) (fun _ => True) := by
  unfold DHT.periodicBuddyPing
  refine (hI.lock (Q := fun _ => True) (Keeps.of_get.bind (fun s' hs => ?_))).bind (fun reverifyIntervalSecs _ => ?_)
  · dsimp only
    exact Keeps.bind (Keeps.of_set (hI.buckets _ hs)) (fun _ _ => keeps_pure _)
  split
  · exact keeps_pure _
  rename_i pingIfOlderThan _
  have hping : ∀ w : NodeWrapper, Keeps I
      (if verifiedSince pingIfOlderThan w then return () else DHT.pingInternal w.node.address (some w.node.id) : DHTM σ Unit)
      (fun _ => True) := by
    intro w
    split
    · exact keeps_pure _
    · exact hI.pingInternal _ _
  refine (hI.lock (Q := fun _ => True) (Keeps.of_get.bind (fun s' _ => keeps_pure _))).bind (fun nodes _ => ?_)
  exact (Keeps.of_forM (fun w _ => hping w)).bind (fun _ _ => Keeps.of_forM (fun w _ => hping w))

theorem periodicFindNodeCount (hI : Ignores I) (routers : List (List SocketAddr)) :
    Keeps I (DHT.periodicFindNodeCount routers : DHTM σ Unit) (fun _ => True) := by
  unfold DHT.periodicFindNodeCount
  refine (hI.lock (Q := fun _ => True) (Keeps.of_get.bind (fun s' _ => keeps_pure _))).bind (fun counts _ => ?_)
  have hcount : Keeps I (modify (fun s => { s with countUnverified := some counts.1 }) : DHTM σ Unit) (fun _ => True) :=
    Keeps.of_modify (fun _ hs => hI.countUnverified _ hs)
  dsimp only
  split
  · exact (hI.pingRouters routers).bind (fun _ _ => hcount)
  · exact hcount

theorem periodicFindNode (hI : Ignores I) (countUnverified : Nat) (random : Id) :
    Keeps I (DHT.periodicFindNode env countUnverified random) (fun _ => True) := by
  unfold DHT.periodicFindNode
  refine Keeps.bind (Keeps.of_modify (fun _ hs => hI.countUnverified _ hs)) (fun _ _ => ?_)
  refine (hI.lock (Q := fun _ => True) (Keeps.of_get.bind (fun s' _ => ?_))).bind (fun asked _ => ?_)
  · split
    · exact keeps_pure _
    · exact keeps_pure _
  · exact Keeps.of_forM (fun node _ => Keeps.of_modify (fun _ hs => hI.spawned _ hs))

end Ignores

/-! ## Quiet handlers -/

/-- A change that leaves the socket, the peers, the settings, the tasks that wait and the event loop as they were. -/
structure Quiet (s s' : DHT σ) : Prop where
  socket : s'.socket = s.socket
  peerStorage : s'.peerStorage = s.peerStorage
  settings : s'.settings = s.settings
  awaiting : s'.awaiting = s.awaiting
  running : s'.running = s.running

theorem Quiet.refl (s : DHT σ) : Quiet s s := ⟨rfl, rfl, rfl, rfl, rfl⟩

/-- One quiet change after another. -/
theorem Quiet.trans {s'' : DHT σ} (h : Quiet s s') (h' : Quiet s' s'') : Quiet s s'' where
  socket := h'.socket.trans h.socket
  peerStorage := h'.peerStorage.trans h.peerStorage
  settings := h'.settings.trans h.settings
  awaiting := h'.awaiting.trans h.awaiting
  running := h'.running.trans h.running

/-- To store nodes and to plan requests is quiet. -/
theorem Quiet.ignores (s : DHT σ) : Ignores (Quiet s) where
  poisoned h := h.trans ⟨rfl, rfl, rfl, rfl, rfl⟩
  buckets _ h := h.trans ⟨rfl, rfl, rfl, rfl, rfl⟩
  spawned _ h := h.trans ⟨rfl, rfl, rfl, rfl, rfl⟩
  countUnverified _ h := h.trans ⟨rfl, rfl, rfl, rfl, rfl⟩

/-- What is quiet is so in the event loop, whether the loop goes on or not. -/
theorem inEventLoop_quiet {x : DHTM σ Unit} (hx : Keeps (Quiet s) x (fun _ => True)) (skips : RustyDHTError → Bool) :
    Quiet s { inEventLoop skips x s with running := s.running } := by
  obtain ⟨hsocket, hpeers, hsettings, hawaiting, -⟩ := (hx s (.refl s)).1
  rcases inEventLoop_cases skips x s with hsame | ⟨running, hloop⟩
  · rw [hsame]
    exact .refl s
  · rw [hloop]
    exact ⟨hsocket, hpeers, hsettings, hawaiting, rfl⟩

/-- A change that is quiet wherever it is made is quiet after others. -/
theorem keeps_quiet_modify {f : DHT σ → DHT σ} (h : ∀ s', Quiet s' (f s')) :
    Keeps (Quiet s) (modify f : DHTM σ Unit) (fun _ => True) :=
  Keeps.of_modify (fun s' hs => hs.trans (h s'))

theorem keeps_quiet_ip4VoteHelper (addr : SocketAddr) (msg : Message) :
    Keeps (Quiet s) (ip4VoteHelper env addr msg) (fun _ => True) := by
  unfold ip4VoteHelper
  split
  · exact keeps_quiet_modify (fun _ => ⟨rfl, rfl, rfl, rfl, rfl⟩)
  · exact keeps_pure _

/-- A response is handled quietly: it changes the node storage and the votes on our address. -/
theorem keeps_quiet_handleResponse (target : SocketAddr) (reply : Message) (now nowNew : Instant) (nowSeen : Nat → Instant) :
    Keeps (Quiet s) (handleResponse env target reply now nowNew nowSeen) (fun m => m = reply) := by
  unfold handleResponse
  split
  · rename_i variant _
    refine (keeps_lift _).bind (fun theirId _ => (keeps_lift _).bind (fun idIsValid _ => ?_))
    have hsee : Keeps (Quiet s) (seeListed env variant nowSeen) (fun _ => True) := (Quiet.ignores s).seeListed variant nowSeen
    dsimp only
    split
    · refine ((Quiet.ignores s).lock (Q := fun _ => True) ?_).bind (fun _ _ => hsee.bind (fun _ _ => .of_pure rfl))
      exact (keeps_quiet_ip4VoteHelper target reply).bind
        (fun _ _ => (Quiet.ignores s).addOrUpdate ⟨theirId, target⟩ true now nowNew)
    · exact hsee.bind (fun _ _ => .of_pure rfl)
  · exact Keeps.of_throw _

theorem keeps_quiet_periodicIp4Maintenance (rng : Nat → UInt8) :
    Keeps (Quiet s) (periodicIp4Maintenance env rng) (fun _ => True) := by
  unfold periodicIp4Maintenance
  refine (Quiet.ignores s).lock (Keeps.bind (keeps_quiet_modify (fun _ => ⟨rfl, rfl, rfl, rfl, rfl⟩)) (fun _ _ => ?_))
  refine Keeps.of_get.bind (fun s' hs => ?_)
  split
  · refine (keeps_lift _).bind (fun isValid _ => ?_)
    split
    · refine (keeps_lift _).bind (fun newId _ => (Keeps.of_set ?_))
      exact hs.trans ⟨rfl, rfl, rfl, rfl, rfl⟩
    · exact keeps_pure _
  · exact keeps_pure _

theorem keeps_quiet_rotateTokenSecrets (rng : Nat → UInt8) :
    Keeps (Quiet s) (rotateTokenSecrets rng : DHTM σ Unit) (fun _ => True) :=
  (Quiet.ignores s).lock (Keeps.of_get.bind (fun _ hs => Keeps.of_set (hs.trans ⟨rfl, rfl, rfl, rfl, rfl⟩)))

/-! ## Accepting a message -/

/-- The id that the node a spawned task asks is known by. -/
def SpawnedTask.destId : SpawnedTask → Option Id
  | .ping _ targetId => targetId
  | .findNode _ destId _ => destId

/-- A message that is no request, or one that is not answered, changes the node storage at most, and poisons the lock if it panics. -/
theorem acceptIncomingPacket_of_not_answers (env : Env σ) {msg : Message} {addr : SocketAddr} {throttled : Bool}
    (hrunning : s.running = true) (hnot : ∀ req, msg.messageType = .request req → ¬s.Answers throttled req addr) (now : Nat → Instant)
    (shuffle : PartialShuffle) :
    ∃ buckets poisoned, ((acceptIncomingPacket env msg addr throttled now shuffle).run.run s).2 = { s with buckets, poisoned } := by
  by_cases hh : s.Handles throttled addr
  · rw [run_acceptIncomingPacket hh]
    have hnothing : (acceptSinglePacket env msg addr now shuffle).run.run s = (.ok (), s) →
        ((acceptSinglePacket env msg addr now shuffle >>= fun _ => lock (return ())).run.run s).2 = s := by
      intro hsingle
      rw [run_bind_of_ok hsingle, run_lock_return]
    cases htype : msg.messageType with
    | request req =>
      by_cases hip : addr.ip.Checkable
      · have hsample : ¬s.CanSample req := fun hsample => hnot req htype ⟨hh, hip, hsample⟩
        obtain ⟨p, hp⟩ := run_acceptSinglePacket_sample env htype hh.poisoned hip hsample now shuffle
        exact ⟨_, true, by rw [run_bind_of_error hp]; rfl⟩
      · obtain ⟨p, hp⟩ := run_acceptSinglePacket_panic env (s := s) htype hip now shuffle
        exact ⟨s.buckets, s.poisoned, by rw [run_bind_of_error hp]⟩
    | response res => exact ⟨s.buckets, s.poisoned, hnothing (by unfold acceptSinglePacket; rw [htype]; rfl)⟩
    | error err => exact ⟨s.buckets, s.poisoned, hnothing (by unfold acceptSinglePacket; rw [htype]; rfl)⟩
  · exact ⟨s.buckets, s.poisoned, by rw [run_acceptIncomingPacket_filtered hrunning hh]⟩

/-- The replies to a request that is answered: one at most. -/
def repliesTo (env : Env σ) (s : DHT σ) (msg : Message) (req : RequestSpecific) (addr : SocketAddr) (now : Nat → Instant)
    (shuffle : PartialShuffle) : List (Message × SocketAddr) :=
  ((s.seen env msg addr req.requesterId (now 0)).answer env req addr (now 1) shuffle).1.toList.map
    (fun response => (replyTo msg addr response, addr))

/-- The replies that accepting the next message puts on the queue. -/
def replies (env : Env σ) (s : DHT σ) (throttled : Bool) (now : Nat → Instant) (shuffle : PartialShuffle) :
    List (Message × SocketAddr) :=
  match s.socket.received.head? with
  | some (msg, addr) =>
    match msg.messageType with
    | .request req =>
      if s.Answers throttled req addr then s.repliesTo env msg req addr now shuffle else []
    | _ => []
  | none => []

/-- What an event would have sent. -/
def offers (env : Env σ) (s : DHT σ) : Event → List (Message × SocketAddr)
  | .accept throttled now shuffle => s.replies env throttled now shuffle
  | .runSpawned i _ rng =>
    match s.spawned[i]? with
    | some task => if s.poisoned then [] else [(SpawnedTask.request task s.ourId s.settings.readOnly rng, task.dest)]
    | none => []
  | .sendRequest req dest _ _ =>
    match req.messageType with
    | .request _ => [(req, dest)]
    | _ => []
  | _ => []

/-- What an event puts on the queue: nothing once the outgoing task has ended. -/
def sends (env : Env σ) (s : DHT σ) (e : Event) : List (Message × SocketAddr) := if s.socket.outgoingUp then s.offers env e else []

/-- What offers nothing sends nothing. -/
theorem sends_eq_nil {e : Event} (h : s.offers env e = []) : s.sends env e = [] := by
  rw [sends, h, ite_self]

/-- The socket once `accept_incoming_packets` has received the next message. -/
def receivedOne (s : DHT σ) : DHTSocket :=
  { s.socket with received := if s.running then s.socket.received.tail else s.socket.received }

/-- A request that is answered leaves the reply on the queue, if there is one and it can be queued. -/
theorem afterRequest_socket (env : Env σ) (s : DHT σ) (msg : Message) (req : RequestSpecific) (addr : SocketAddr)
    (now : Nat → Instant) (shuffle : PartialShuffle) : (s.afterRequest env msg req addr now shuffle).socket =
      { s.socket with
        toSend := s.socket.toSend ++ if s.socket.outgoingUp then s.repliesTo env msg req addr now shuffle else [] } := by
  have hsocket : ((s.seen env msg addr req.requesterId (now 0)).answer env req addr (now 1) shuffle).2.socket = s.socket :=
    answer_socket env _ req addr (now 1) shuffle
  unfold afterRequest handled repliesTo
  dsimp only
  cases ((s.seen env msg addr req.requesterId (now 0)).answer env req addr (now 1) shuffle).1 with
  | none => simp [queue, hsocket]
  | some response =>
    unfold queue
    dsimp only
    rw [hsocket]
    split <;> simp [hsocket]

/-- A request is handled without a failure if the outgoing task runs, or there is no reply. -/
theorem handled_fst_iff (env : Env σ) (s : DHT σ) (msg : Message) (req : RequestSpecific) (addr : SocketAddr) (now : Nat → Instant)
    (shuffle : PartialShuffle) : (s.handled env msg req addr now shuffle).1 = .ok () ↔
      s.socket.outgoingUp = true ∨ s.repliesTo env msg req addr now shuffle = [] := by
  have hsocket : ((s.seen env msg addr req.requesterId (now 0)).answer env req addr (now 1) shuffle).2.socket = s.socket :=
    answer_socket env _ req addr (now 1) shuffle
  unfold handled repliesTo
  cases ((s.seen env msg addr req.requesterId (now 0)).answer env req addr (now 1) shuffle).1 with
  | none => simp [queue]
  | some response =>
    unfold queue
    dsimp only
    rw [hsocket]
    split <;> simp [*]

/-- A request that is answered changes the socket, what is stored and whether the event loop goes on, and nothing else. -/
theorem afterRequest_eq (env : Env σ) (s : DHT σ) (msg : Message) (req : RequestSpecific) (addr : SocketAddr) (now : Nat → Instant)
    (shuffle : PartialShuffle) : ∃ socket buckets peerStorage running,
      s.afterRequest env msg req addr now shuffle = { s with socket, buckets, peerStorage, running } := by
  have hanswer : ∃ buckets peerStorage,
      ((s.seen env msg addr req.requesterId (now 0)).answer env req addr (now 1) shuffle).2 = { s with buckets, peerStorage } := by
    cases req with
    | announcePeerRequest arguments =>
      by_cases htoken : TokenValid env (s.seen env msg addr (RequestSpecific.announcePeerRequest arguments).requesterId (now 0))
        arguments addr
      · rw [answer_announce htoken]
        exact ⟨_, _, rfl⟩
      · rw [answer_announce_none htoken]
        exact ⟨_, _, rfl⟩
    | _ => exact ⟨_, _, rfl⟩
  obtain ⟨buckets, peerStorage, hanswer⟩ := hanswer
  unfold afterRequest handled
  rw [queue_eq, hanswer]
  exact ⟨_, _, _, _, rfl⟩

/-- The replies do not depend on what is received or sent. -/
theorem repliesTo_popReceived (env : Env σ) (s : DHT σ) (msg : Message) (req : RequestSpecific) (addr : SocketAddr)
    (now : Nat → Instant) (shuffle : PartialShuffle) :
    s.popReceived.repliesTo env msg req addr now shuffle = s.repliesTo env msg req addr now shuffle := by
  cases req with
  | announcePeerRequest arguments =>
    unfold repliesTo
    by_cases htoken : TokenValid env (s.seen env msg addr (RequestSpecific.announcePeerRequest arguments).requesterId (now 0))
      arguments addr
    · have htoken' : TokenValid env
          (s.popReceived.seen env msg addr (RequestSpecific.announcePeerRequest arguments).requesterId (now 0)) arguments addr := htoken
      rw [answer_announce htoken, answer_announce htoken']
      rfl
    · have htoken' : ¬TokenValid env
          (s.popReceived.seen env msg addr (RequestSpecific.announcePeerRequest arguments).requesterId (now 0)) arguments addr := htoken
      rw [answer_announce_none htoken, answer_announce_none htoken']
  | _ => rfl

/-- Accepting the next message either answers a request, or receives a message and changes nothing else but the nodes stored, the lock
and whether the event loop goes on. -/
theorem step_accept_cases (env : Env σ) (s : DHT σ) (throttled : Bool) (now : Nat → Instant) (shuffle : PartialShuffle) :
    (∃ msg req addr, s.NextRequest msg req addr ∧ s.Answers throttled req addr ∧
      step env s (.accept throttled now shuffle) = s.popReceived.afterRequest env msg req addr now shuffle) ∨
    ((∀ msg req addr, s.NextRequest msg req addr → ¬s.Answers throttled req addr) ∧
      ∃ buckets poisoned running,
        step env s (.accept throttled now shuffle) = { s with socket := s.receivedOne, buckets, poisoned, running }) := by
  rcases hnext : s.socket.received.head? with _ | ⟨msg, addr⟩
  · have hnil := List.head?_eq_none_iff.mp hnext
    have hreceived : s.receivedOne = s.socket := by
      unfold receivedOne
      rw [hnil, List.tail_nil, ite_self, ← hnil]
    refine .inr ⟨fun msg req addr h => ?_, s.buckets, s.poisoned, s.running, ?_⟩
    · rw [h.head] at hnext
      cases hnext
    · rw [hreceived]
      unfold step
      dsimp only
      rw [hnil]
  by_cases hrunning : s.running = true
  · by_cases hanswers : ∃ req, msg.messageType = .request req ∧ s.Answers throttled req addr
    · obtain ⟨req, htype, hanswers⟩ := hanswers
      exact .inl ⟨msg, req, addr, ⟨hnext, htype⟩, hanswers, step_accept_of_answers ⟨hnext, htype⟩ hanswers now⟩
    · have hnot : ∀ req, msg.messageType = .request req → ¬s.popReceived.Answers throttled req addr := by
        intro req htype h
        exact hanswers ⟨req, htype, ⟨h.running, h.poisoned, h.throttled, h.port, h.readOnly⟩, h.checkable, h.canSample⟩
      have hpopped : s.receivedOne = s.popReceived.socket := by
        unfold receivedOne popReceived
        rw [if_pos hrunning]
      refine .inr ⟨fun msg' req addr' h hanswers' => ?_, ?_⟩
      · obtain ⟨rfl, rfl⟩ := Prod.mk.inj (Option.some.inj (hnext.symm.trans h.head))
        exact hanswers ⟨req, h.type, hanswers'⟩
      · rw [hpopped, step_accept_eq hnext hrunning]
        obtain ⟨buckets, poisoned, hrun⟩ :=
          acceptIncomingPacket_of_not_answers env (s := s.popReceived) hrunning hnot now shuffle
        rcases inEventLoop_cases acceptSkips (acceptIncomingPacket env msg addr throttled now shuffle) s.popReceived with
          hsame | ⟨running, hloop⟩
        · exact ⟨s.buckets, s.poisoned, s.running, hsame⟩
        · exact ⟨buckets, poisoned, running, by rw [hloop, hrun]; rfl⟩
  · have hsame : s.receivedOne = s.socket := by
      unfold receivedOne
      rw [if_neg hrunning]
    obtain ⟨rest, hreceived⟩ := List.head?_eq_some_iff.mp hnext
    refine .inr ⟨fun _ _ _ _ h => hrunning h.running, s.buckets, s.poisoned, s.running, ?_⟩
    rw [hsame]
    unfold step inEventLoop
    dsimp only
    rw [hreceived]
    dsimp only
    rw [if_neg hrunning, if_neg hrunning]

/-- Accepting the next message changes the socket, what is stored, the lock and whether the event loop goes on, and nothing else. -/
theorem step_accept_frame (env : Env σ) (s : DHT σ) (throttled : Bool) (now : Nat → Instant) (shuffle : PartialShuffle) :
    ∃ socket buckets peerStorage poisoned running,
      step env s (.accept throttled now shuffle) = { s with socket, buckets, peerStorage, poisoned, running } := by
  rcases step_accept_cases env s throttled now shuffle with ⟨msg, req, addr, -, -, hstep⟩ | ⟨-, buckets, poisoned, running, hstep⟩
  · obtain ⟨socket, buckets, peerStorage, running, hafter⟩ := afterRequest_eq env s.popReceived msg req addr now shuffle
    exact ⟨socket, buckets, peerStorage, s.poisoned, running, by rw [hstep, hafter]; rfl⟩
  · exact ⟨_, buckets, s.peerStorage, poisoned, running, hstep⟩

/-- The replies of a request that is answered. -/
theorem replies_of_answers {msg : Message} {req : RequestSpecific} {addr : SocketAddr} {throttled : Bool}
    (hnext : s.NextRequest msg req addr) (h : s.Answers throttled req addr) (now : Nat → Instant) (shuffle : PartialShuffle) :
    s.replies env throttled now shuffle = s.repliesTo env msg req addr now shuffle := by
  unfold replies
  rw [hnext.head]
  dsimp only
  rw [hnext.type]
  dsimp only
  rw [if_pos h]

/-- Where no request is answered there are no replies. -/
theorem replies_of_not_answers {throttled : Bool}
    (hnot : ∀ msg req addr, s.NextRequest msg req addr → ¬s.Answers throttled req addr) (now : Nat → Instant) (shuffle : PartialShuffle) :
    s.replies env throttled now shuffle = [] := by
  unfold replies
  split
  · rename_i msg addr hnext
    split
    · rename_i req htype
      rw [if_neg (hnot msg req addr ⟨hnext, htype⟩)]
    · rfl
  · rfl

/-- What accepting the next message does to the socket. -/
theorem step_accept_socket (env : Env σ) (s : DHT σ) (throttled : Bool) (now : Nat → Instant) (shuffle : PartialShuffle) :
    (step env s (.accept throttled now shuffle)).socket =
      { s.receivedOne with toSend := s.socket.toSend ++ s.sends env (.accept throttled now shuffle) } := by
  rcases step_accept_cases env s throttled now shuffle with
    ⟨msg, req, addr, hnext, hanswers, hstep⟩ | ⟨hnot, buckets, poisoned, running, hstep⟩
  · rw [hstep, sends, offers, replies_of_answers hnext hanswers, afterRequest_socket, repliesTo_popReceived]
    unfold receivedOne
    rw [if_pos hanswers.running]
    rfl
  · rw [hstep, sends_eq_nil (e := .accept throttled now shuffle) (replies_of_not_answers hnot now shuffle), List.append_nil]
    rfl

/-! ## Every event -/

/-- The socket after an event. -/
def socketAfter (env : Env σ) (s : DHT σ) : Event → DHTSocket
  | .packet buf ip port => s.socket.backgroundIoIncoming env.codec buf (.v4 ip port)
  | .accept throttled now shuffle =>
    { s.receivedOne with toSend := s.socket.toSend ++ s.sends env (.accept throttled now shuffle) }
  | .outgoing result => (s.socket.backgroundIoOutgoing env.codec result).2
  | .requestCleanup now => s.socket.requestCleanup now
  | .runSpawned i now rng =>
    match s.spawned[i]? with
    | some task =>
      if s.poisoned then s.socket
      else s.socket.sendTo (SpawnedTask.request task s.ourId s.settings.readOnly rng) task.dest (SpawnedTask.destId task) now
    | none => s.socket
  | .sendRequest req dest destId now =>
    match req.messageType with
    | .request _ => s.socket.sendTo req dest destId now
    | _ => s.socket
  | _ => s.socket

/-- What a task that sends a request does: where the outgoing task has ended it fails, and does not wait. -/
theorem run_commonSend {req : RequestSpecific} {msg : Message} (htype : msg.messageType = .request req) (target : SocketAddr)
    (targetId : Option Id) (now : Instant) : (commonSend msg target targetId now).run.run s =
      (if s.socket.outgoingUp then .ok () else .error (.error (.generalError "channel closed")),
        { s with
          socket := s.socket.sendTo msg target targetId now
          awaiting := s.awaiting ++
            if s.socket.outgoingUp then [{ target, receiver := s.socket.responseChannels.length }] else [] }) := by
  have hsend := run_sendTo s msg target targetId now
  unfold commonSend
  rw [htype]
  dsimp only
  rw [run_get_bind]
  by_cases hup : s.socket.outgoingUp = true
  · rw [if_pos hup] at hsend
    simp only [if_pos hup]
    rw [run_bind_of_ok hsend]
    rfl
  · rw [if_neg hup] at hsend
    simp only [if_neg hup, List.append_nil]
    exact run_bind_of_error hsend

/-- Only requests are sent by a task that waits for the response. -/
theorem run_commonSend_of_not_request {msg : Message} (hnot : ∀ req, msg.messageType ≠ .request req) (target : SocketAddr)
    (targetId : Option Id) (now : Instant) :
    (commonSend msg target targetId now).run.run s =
      (.error (.error (.generalError "This method is only for sending requests")), s) := by
  unfold commonSend
  cases htype : msg.messageType with
  | request req => exact absurd htype (hnot req)
  | response res => rfl
  | error err => rfl

/-- What a spawned task sends is a request. -/
theorem request_messageType (task : SpawnedTask) (ourId : Id) (readOnly : Bool) (rng : UInt8 × UInt8) :
    ∃ req, (SpawnedTask.request task ourId readOnly rng).messageType = .request req := by
  cases task with
  | ping target targetId => exact ⟨.pingRequest { requesterId := ourId }, rfl⟩
  | findNode dest destId target => exact ⟨.findNodeRequest { requesterId := ourId, target }, rfl⟩

/-- It says whether the DHT is read-only. -/
theorem request_readOnly (task : SpawnedTask) (ourId : Id) (readOnly : Bool) (rng : UInt8 × UInt8) :
    (SpawnedTask.request task ourId readOnly rng).readOnly = some readOnly := by
  cases task <;> rfl

/-- It is under the id of the DHT. -/
theorem request_getAuthorId (task : SpawnedTask) (ourId : Id) (readOnly : Bool) (rng : UInt8 × UInt8) :
    (SpawnedTask.request task ourId readOnly rng).getAuthorId = some ourId := by
  cases task <;> rfl

/-- A spawned task sends its request and waits. -/
theorem run_runSpawned (hpoison : s.poisoned = false) (task : SpawnedTask) (now : Instant) (rng : UInt8 × UInt8) :
    (runSpawned task now rng).run.run s =
      (if s.socket.outgoingUp then .ok () else .error (.error (.generalError "channel closed")),
        { s with
          socket := s.socket.sendTo (SpawnedTask.request task s.ourId s.settings.readOnly rng) task.dest (SpawnedTask.destId task) now
          awaiting := s.awaiting ++
            if s.socket.outgoingUp then [{ target := task.dest, receiver := s.socket.responseChannels.length }] else [] }) := by
  have hlock : (lock (do let s ← get; return SpawnedTask.request task s.ourId s.settings.readOnly rng) : DHTM σ Message).run.run s =
      (.ok (SpawnedTask.request task s.ourId s.settings.readOnly rng), s) := run_lock hpoison rfl
  obtain ⟨req, htype⟩ := request_messageType task s.ourId s.settings.readOnly rng
  unfold runSpawned
  rw [run_bind_of_ok hlock]
  cases task with
  | ping target targetId => exact run_commonSend htype target targetId now
  | findNode dest destId target => exact run_commonSend htype dest destId now

/-- Under a poisoned lock a spawned task panics before it sends anything. -/
theorem run_runSpawned_poisoned (hpoison : s.poisoned = true) (task : SpawnedTask) (now : Instant) (rng : UInt8 × UInt8) :
    ∃ p, (runSpawned task now rng).run.run s = (.error (.panic p), s) := by
  obtain ⟨p, hp⟩ := run_lock_poisoned hpoison
    (do let s ← get; return SpawnedTask.request task s.ourId s.settings.readOnly rng : DHTM σ Message)
  exact ⟨p, run_bind_of_error hp⟩

/-- What every event does to the socket. -/
theorem step_socket (env : Env σ) (s : DHT σ) (e : Event) : (step env s e).socket = s.socketAfter env e := by
  cases e with
  | packet buf ip port => rfl
  | accept throttled now shuffle => exact step_accept_socket env s throttled now shuffle
  | outgoing result => rfl
  | requestCleanup now => rfl
  | runSpawned i now rng =>
    unfold step socketAfter
    dsimp only
    cases s.spawned[i]? with
    | none => rfl
    | some task =>
      dsimp only
      unfold inTask
      by_cases hpoison : s.poisoned = true
      · obtain ⟨p, hp⟩ := run_runSpawned_poisoned (s := { s with spawned := s.spawned.eraseIdx i }) hpoison task now rng
        rw [hp, if_pos hpoison]
      · rw [if_neg hpoison, run_runSpawned (s := { s with spawned := s.spawned.eraseIdx i }) (Bool.eq_false_of_not_eq_true hpoison)]
  | response i now nowNew nowSeen =>
    unfold step socketAfter
    dsimp only
    cases s.awaiting[i]? with
    | none => rfl
    | some task =>
      dsimp only
      cases (s.socket.channel task.receiver).head? with
      | none => rfl
      | some reply => exact (keeps_quiet_handleResponse task.target reply now nowNew nowSeen _ (.refl _)).1.socket
  | giveUp i => rfl
  | sendRequest req dest destId now =>
    unfold step socketAfter inTask
    dsimp only
    cases htype : req.messageType with
    | request r => rw [run_commonSend htype]
    | response res => rw [run_commonSend_of_not_request (fun r h => by rw [htype] at h; cases h)]
    | error err => rw [run_commonSend_of_not_request (fun r h => by rw [htype] at h; cases h)]
  | getInfoHashes newerThan => rfl
  | buddyPing now => exact (inEventLoop_quiet ((Quiet.ignores s).periodicBuddyPing now) _).socket
  | routerPing routers => exact (inEventLoop_quiet ((Quiet.ignores s).pingRouters routers) _).socket
  | findNodeCount routers =>
    unfold step
    dsimp only
    split
    · rfl
    · exact (inEventLoop_quiet ((Quiet.ignores s).periodicFindNodeCount routers) _).socket
  | findNode random =>
    unfold step
    dsimp only
    split
    · exact (inEventLoop_quiet ((Quiet.ignores s).periodicFindNode _ random) _).socket
    · rfl
  | ip4Maintenance rng => exact (inEventLoop_quiet (keeps_quiet_periodicIp4Maintenance rng) _).socket
  | tokenRotation rng => exact (inEventLoop_quiet (keeps_quiet_rotateTokenSecrets rng) _).socket

/-- What an event puts on the queue is what it sends, but that the outgoing task takes from there. -/
theorem step_toSend (env : Env σ) (s : DHT σ) {e : Event} (hnot : ∀ result, e ≠ .outgoing result) :
    (step env s e).socket.toSend = s.socket.toSend ++ s.sends env e := by
  rw [step_socket]
  cases e with
  | packet buf ip port =>
    rw [sends_eq_nil rfl, List.append_nil]
    exact DHTSocket.backgroundIoIncoming_toSend _ _ _ _
  | accept throttled now shuffle => rfl
  | outgoing result => exact absurd rfl (hnot result)
  | runSpawned i now rng =>
    unfold socketAfter sends offers
    dsimp only
    cases s.spawned[i]? with
    | none => simp
    | some task =>
      dsimp only
      split
      · simp
      · exact DHTSocket.sendTo_toSend _ _ _ _ _
  | sendRequest req dest destId now =>
    unfold socketAfter sends offers
    dsimp only
    split
    · exact DHTSocket.sendTo_toSend _ _ _ _ _
    · simp
  | _ =>
    rw [sends_eq_nil rfl, List.append_nil]
    rfl

/-- No event but a turn of the outgoing task ends it. -/
theorem step_outgoingUp (env : Env σ) (s : DHT σ) {e : Event} (hnot : ∀ result, e ≠ .outgoing result) :
    (step env s e).socket.outgoingUp = s.socket.outgoingUp := by
  rw [step_socket]
  cases e with
  | packet buf ip port => exact DHTSocket.backgroundIoIncoming_outgoingUp _ _ _ _
  | outgoing result => exact absurd rfl (hnot result)
  | runSpawned i now rng =>
    unfold socketAfter
    dsimp only
    split
    · split
      · rfl
      · exact DHTSocket.sendTo_outgoingUp _ _ _ _ _
    · rfl
  | sendRequest req dest destId now =>
    unfold socketAfter
    dsimp only
    split
    · exact DHTSocket.sendTo_outgoingUp _ _ _ _ _
    · rfl
  | _ => rfl

/-- What is on the queue after an event was there before, or the event sent it. -/
theorem mem_step_toSend {e : Event} {p : Message × SocketAddr} (hp : p ∈ (step env s e).socket.toSend) :
    p ∈ s.socket.toSend ∨ p ∈ s.sends env e := by
  by_cases hout : ∃ result, e = .outgoing result
  · obtain ⟨result, rfl⟩ := hout
    obtain ⟨toSend, hsubset, outgoingUp, hsocket⟩ := DHTSocket.backgroundIoOutgoing_eq env.codec s.socket result
    rw [step_socket, socketAfter, hsocket] at hp
    exact .inl (hsubset hp)
  · rw [step_toSend env s (fun result he => hout ⟨result, he⟩)] at hp
    exact List.mem_append.mp hp

/-- An event in which no message is taken and no info hashes are dumped leaves the peers and the settings as they were. -/
theorem step_peerStorage_settings (env : Env σ) (s : DHT σ) {e : Event}
    (haccept : ∀ throttled now shuffle, e ≠ .accept throttled now shuffle) (hdump : ∀ newerThan, e ≠ .getInfoHashes newerThan) :
    (step env s e).peerStorage = s.peerStorage ∧ (step env s e).settings = s.settings := by
  have hloop : ∀ {x : DHTM σ Unit} (skips : RustyDHTError → Bool), Keeps (Quiet s) x (fun _ => True) →
      (inEventLoop skips x s).peerStorage = s.peerStorage ∧ (inEventLoop skips x s).settings = s.settings :=
    fun skips hx => ⟨(inEventLoop_quiet hx skips).peerStorage, (inEventLoop_quiet hx skips).settings⟩
  cases e with
  | accept throttled now shuffle => exact absurd rfl (haccept throttled now shuffle)
  | getInfoHashes newerThan => exact absurd rfl (hdump newerThan)
  | packet buf ip port => exact ⟨rfl, rfl⟩
  | outgoing result => exact ⟨rfl, rfl⟩
  | requestCleanup now => exact ⟨rfl, rfl⟩
  | giveUp i => exact ⟨rfl, rfl⟩
  | runSpawned i now rng =>
    unfold step
    dsimp only
    split
    · rename_i task _
      unfold inTask
      by_cases hpoison : s.poisoned = true
      · obtain ⟨p, hp⟩ := run_runSpawned_poisoned (s := { s with spawned := s.spawned.eraseIdx i }) hpoison task now rng
        rw [hp]
        exact ⟨rfl, rfl⟩
      · rw [run_runSpawned (s := { s with spawned := s.spawned.eraseIdx i }) (Bool.eq_false_of_not_eq_true hpoison)]
        exact ⟨rfl, rfl⟩
    · exact ⟨rfl, rfl⟩
  | response i now nowNew nowSeen =>
    unfold step
    dsimp only
    split
    · rename_i task _
      split
      · rename_i reply _
        have hquiet := (@keeps_quiet_handleResponse _ env _ task.target reply now nowNew nowSeen
          { s with awaiting := s.awaiting.eraseIdx i } (.refl _)).1
        exact ⟨hquiet.peerStorage, hquiet.settings⟩
      · exact ⟨rfl, rfl⟩
    · exact ⟨rfl, rfl⟩
  | sendRequest req dest destId now =>
    unfold step inTask
    dsimp only
    cases htype : req.messageType with
    | request r =>
      rw [run_commonSend htype]
      exact ⟨rfl, rfl⟩
    | response res =>
      rw [run_commonSend_of_not_request (fun r hr => by rw [htype] at hr; cases hr)]
      exact ⟨rfl, rfl⟩
    | error err =>
      rw [run_commonSend_of_not_request (fun r hr => by rw [htype] at hr; cases hr)]
      exact ⟨rfl, rfl⟩
  | buddyPing now => exact hloop _ ((Quiet.ignores s).periodicBuddyPing now)
  | routerPing routers => exact hloop _ ((Quiet.ignores s).pingRouters routers)
  | findNodeCount routers =>
    unfold step
    dsimp only
    split
    · exact ⟨rfl, rfl⟩
    · exact hloop _ ((Quiet.ignores s).periodicFindNodeCount routers)
  | findNode random =>
    unfold step
    dsimp only
    split
    · exact hloop _ ((Quiet.ignores s).periodicFindNode _ random)
    · exact ⟨rfl, rfl⟩
  | ip4Maintenance rng => exact hloop _ (keeps_quiet_periodicIp4Maintenance rng)
  | tokenRotation rng => exact hloop _ (keeps_quiet_rotateTokenSecrets rng)

/-- No event changes the settings. -/
theorem step_settings (env : Env σ) (s : DHT σ) (e : Event) : (step env s e).settings = s.settings := by
  cases e with
  | accept throttled now shuffle =>
    obtain ⟨socket, buckets, peerStorage, poisoned, running, hstep⟩ := step_accept_frame env s throttled now shuffle
    rw [hstep]
  | getInfoHashes newerThan => rfl
  | _ => exact (step_peerStorage_settings env s (fun _ _ _ h => by cases h) (fun _ h => by cases h)).2

/-- All that a new DHT is. -/
theorem eq_of_new {id : Option Id} {ip4Source : σ} {buckets : NodeBucketStorage} {settings : DHTSettings} {rng secretRng : Nat → UInt8}
    {random : Id} (h : new env id ip4Source buckets settings rng secretRng random = .ok s) : ∃ ourId tokenSecret, s =
      { socket := .new, ip4Source, ourId, buckets := buckets.setId ourId
        peerStorage := .new settings.maxTorrents settings.maxPeersPerTorrent
        tokenSecret, oldTokenSecret := tokenSecret, settings, poisoned := false, running := true
        spawned := [], awaiting := [], countUnverified := none } := by
  obtain ⟨ourId, -, hs⟩ := Checks.bind_eq_ok.mp h
  cases hs
  exact ⟨ourId, _, rfl⟩

/-- Whatever an event sends is a reply to the next message, the request of a spawned task, or one that was asked for. -/
theorem mem_sends {e : Event} {p : Message × SocketAddr} (hp : p ∈ s.sends env e) :
    (∃ throttled now shuffle msg req res, e = .accept throttled now shuffle ∧ s.NextRequest msg req p.2 ∧ s.Answers throttled req p.2 ∧
      ((s.seen env msg p.2 req.requesterId (now 0)).answer env req p.2 (now 1) shuffle).1 = some res ∧ p.1 = replyTo msg p.2 res) ∨
    (∃ i now task rng, e = .runSpawned i now rng ∧ s.spawned[i]? = some task ∧
      p = (SpawnedTask.request task s.ourId s.settings.readOnly rng, task.dest)) ∨
    ∃ destId now req, e = .sendRequest p.1 p.2 destId now ∧ p.1.messageType = .request req := by
  unfold sends at hp
  split at hp
  swap
  · cases hp
  cases e with
  | accept throttled now shuffle =>
    left
    unfold offers replies at hp
    dsimp only at hp
    split at hp
    · rename_i msg addr hnext
      split at hp
      · rename_i req htype
        split at hp
        · rename_i hanswers
          unfold repliesTo at hp
          obtain ⟨res, hres, rfl⟩ := List.mem_map.mp hp
          exact ⟨throttled, now, shuffle, msg, req, res, rfl, ⟨hnext, htype⟩, hanswers, Option.mem_toList.mp hres, rfl⟩
        · cases hp
      · cases hp
    · cases hp
  | runSpawned i now rng =>
    right
    left
    unfold offers at hp
    dsimp only at hp
    split at hp
    · rename_i task htask
      split at hp
      · cases hp
      · exact ⟨i, now, task, rng, rfl, htask, List.mem_singleton.mp hp⟩
    · cases hp
  | sendRequest req dest destId now =>
    right
    right
    unfold offers at hp
    dsimp only at hp
    split at hp
    · rename_i r htype
      rw [List.mem_singleton.mp hp]
      exact ⟨destId, now, r, rfl, htype⟩
    · cases hp
  | _ => cases hp

end DHT

end RustyDht
