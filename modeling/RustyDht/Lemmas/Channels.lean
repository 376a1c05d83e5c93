import RustyDht.Lemmas.Steps

/-!
# The requests of a DHT and their channels

A DHT drives its socket by the three events that the socket's own history is about: it sends, a packet comes in, the cleanup ticks.
`Tracks` says that what the DHT's socket stores is the end of such a history, whatever has been read from its general channel and
taken off its queue meanwhile, and that whoever waits does so on the channel of a request in that history. `Tracks.step` says what an
event adds to the history.
-/

namespace RustyDht

/-- The history of a socket's requests, with all that ever came in on its general channel. -/
def DHTSocket.history (socket : DHTSocket) (log : List (Message × SocketAddr)) (stored : List RequestInfo)
    (matched : List RequestMatch) : SocketHistory :=
  { socket := { socket with received := log }, clock := 0, stored, matched }

namespace DHT

variable {σ : Type} {env : Env σ} {s : DHT σ} {log : List (Message × SocketAddr)} {stored : List RequestInfo}
  {matched : List RequestMatch}

/-- The requests that an event stores: one at most. -/
def storedBy (s : DHT σ) : Event → List RequestInfo
  | .runSpawned i now rng =>
    match s.spawned[i]? with
    | some task =>
      if s.poisoned then []
      else [s.socket.newRequestInfo (SpawnedTask.request task s.ourId s.settings.readOnly rng) task.dest (SpawnedTask.destId task) now]
    | none => []
  | .sendRequest req dest destId now =>
    match req.messageType with
    | .request _ => [s.socket.newRequestInfo req dest destId now]
    | _ => []
  | _ => []

/-- A task waits on the channel of a request, for a response from where the request went. -/
def WaitsFor (task : AwaitingTask) (r : RequestInfo) : Prop := r.responseChannel = some task.receiver ∧ r.addr = task.target

/-- The socket stores what is left of a history of requests, and the tasks that wait do so for requests in it. -/
structure Tracks (s : DHT σ) (log : List (Message × SocketAddr)) (stored : List RequestInfo) (matched : List RequestMatch) : Prop where
  wf : (s.socket.history log stored matched).Wf
  awaiting : ∀ task ∈ s.awaiting, ∃ r ∈ stored, WaitsFor task r

/-! ## Who waits -/

/-- Who waits after an event waited before, or waits for what the event sent. -/
theorem mem_step_awaiting (env : Env σ) (s : DHT σ) (e : Event) {task : AwaitingTask} (htask : task ∈ (step env s e).awaiting) :
    task ∈ s.awaiting ∨ ∃ r ∈ s.storedBy e, WaitsFor task r := by
  cases e with
  | accept throttled now shuffle =>
    obtain ⟨socket, buckets, peerStorage, poisoned, running, hstep⟩ := step_accept_frame env s throttled now shuffle
    rw [hstep] at htask
    exact .inl htask
  | runSpawned i now rng =>
    unfold step at htask
    unfold storedBy
    dsimp only at htask ⊢
    cases hspawned : s.spawned[i]? with
    | none =>
      rw [hspawned] at htask
      exact .inl htask
    | some spawned =>
      rw [hspawned] at htask
      dsimp only at htask ⊢
      unfold inTask at htask
      by_cases hpoison : s.poisoned = true
      · obtain ⟨p, hp⟩ := run_runSpawned_poisoned (s := { s with spawned := s.spawned.eraseIdx i }) hpoison spawned now rng
        rw [hp] at htask
        exact .inl htask
      · rw [run_runSpawned (s := { s with spawned := s.spawned.eraseIdx i }) (Bool.eq_false_of_not_eq_true hpoison)] at htask
        rcases List.mem_append.mp htask with htask | htask
        · exact .inl htask
        · obtain rfl := List.mem_singleton.mp (List.mem_ite_nil_right.mp htask).2
          rw [if_neg hpoison]
          exact .inr ⟨_, List.mem_singleton_self _, rfl, rfl⟩
  | response i now nowNew nowSeen =>
    unfold step at htask
    dsimp only at htask
    split at htask
    · rename_i waiting _
      split at htask
      · unfold inTask at htask
        rw [(keeps_quiet_handleResponse _ _ now nowNew nowSeen _ (.refl _)).1.awaiting] at htask
        exact .inl (List.mem_of_mem_eraseIdx htask)
      · exact .inl htask
    · exact .inl htask
  | giveUp i => exact .inl (List.mem_of_mem_eraseIdx htask)
  | sendRequest req dest destId now =>
    unfold step inTask at htask
    unfold storedBy
    dsimp only at htask ⊢
    cases htype : req.messageType with
    | request r =>
      rw [run_commonSend htype] at htask
      rcases List.mem_append.mp htask with htask | htask
      · exact .inl htask
      · obtain rfl := List.mem_singleton.mp (List.mem_ite_nil_right.mp htask).2
        exact .inr ⟨_, List.mem_singleton_self _, rfl, rfl⟩
    | response res =>
      rw [run_commonSend_of_not_request (fun r h => by rw [htype] at h; cases h)] at htask
      exact .inl htask
    | error err =>
      rw [run_commonSend_of_not_request (fun r h => by rw [htype] at h; cases h)] at htask
      exact .inl htask
  | buddyPing now => exact .inl ((inEventLoop_quiet ((Quiet.ignores s).periodicBuddyPing now) _).awaiting ▸ htask)
  | routerPing routers => exact .inl ((inEventLoop_quiet ((Quiet.ignores s).pingRouters routers) _).awaiting ▸ htask)
  | findNodeCount routers =>
    unfold step at htask
    dsimp only at htask
    split at htask
    · exact .inl htask
    · exact .inl ((inEventLoop_quiet ((Quiet.ignores s).periodicFindNodeCount routers) _).awaiting ▸ htask)
  | findNode random =>
    unfold step at htask
    dsimp only at htask
    split at htask
    · exact .inl ((inEventLoop_quiet ((Quiet.ignores s).periodicFindNode _ random) _).awaiting ▸ htask)
    · exact .inl htask
  | ip4Maintenance rng => exact .inl ((inEventLoop_quiet (keeps_quiet_periodicIp4Maintenance rng) _).awaiting ▸ htask)
  | tokenRotation rng => exact .inl ((inEventLoop_quiet (keeps_quiet_rotateTokenSecrets rng) _).awaiting ▸ htask)
  | _ => exact .inl htask

/-! ## What an event adds to the history -/

/-- A new DHT has no history. -/
theorem tracks_of_new {s : DHT σ} (hsocket : s.socket = .new) (hawaiting : s.awaiting = []) : Tracks s [] [] [] where
  wf := by
    rw [hsocket]
    exact SocketHistory.new_wf 0
  awaiting task htask := by
    rw [hawaiting] at htask
    cases htask

/-- A packet: what it adds to the history is a match, of the message in it. -/
theorem packet_history (codec : Bencode.Codec) {socket : DHTSocket} (h : (socket.history log stored matched).Wf) (buf : List UInt8)
    (sender : SocketAddr) :
    ∃ log' matched', ((socket.backgroundIoIncoming codec buf sender).history log' stored matched').Wf ∧
      ∀ x ∈ matched', x ∈ matched ∨ Message.fromBytes codec buf = .ok x.response ∧ x.source = sender := by
  rcases DHTSocket.backgroundIoIncoming_cases codec (s := socket) h.up buf sender h.key with
    ⟨-, hs⟩ | ⟨m, hparse, ⟨-, hs⟩ | ⟨-, -, hs⟩ | ⟨r, hm, hmatch, hs⟩⟩
  · exact ⟨log, matched, by rw [hs]; exact h, fun x hx => .inl hx⟩
  · exact ⟨log, matched, by rw [hs]; exact h, fun x hx => .inl hx⟩
  · exact ⟨log, matched, by rw [hs]; exact h, fun x hx => .inl hx⟩
  · refine ⟨log ++ [(m, sender)], matched ++ [⟨r, m, sender⟩], ?_, ?_⟩
    · have hanswer := h.answer hm hmatch 0
      rw [hs]
      unfold DHTSocket.history DHTSocket.notify at hanswer ⊢
      cases hch : r.responseChannel with
      | none =>
        rw [hch] at hanswer
        exact hanswer
      | some ch =>
        rw [hch] at hanswer
        exact hanswer
    · intro x hx
      rcases List.mem_append.mp hx with hx | hx
      · exact .inl hx
      · rw [List.mem_singleton.mp hx]
        exact .inr ⟨hparse, rfl⟩

/-- A request that is sent is added to the history. -/
theorem sendTo_history {socket : DHTSocket} (h : (socket.history log stored matched).Wf) {toSend : Message} {req : RequestSpecific}
    (htype : toSend.messageType = .request req) (dest : SocketAddr) (destId : Option Id) (now : Instant) :
    ((socket.sendTo toSend dest destId now).history log (stored ++ [socket.newRequestInfo toSend dest destId now]) matched).Wf := by
  have hsend := h.sendRequest htype dest destId now
  unfold DHTSocket.history at hsend ⊢
  rw [DHTSocket.sendTo_of_request _ htype] at hsend ⊢
  exact ⟨hsend.up, hsend.key, hsend.live, hsend.request, hsend.distinct, hsend.answered, hsend.once, hsend.general, hsend.channels⟩

/-- What an event adds to the history: the request it stores, and the match it makes if it is a packet. -/
theorem Tracks.step (ht : Tracks s log stored matched) (e : Event) :
    ∃ log' matched', Tracks (step env s e) log' (stored ++ s.storedBy e) matched' ∧
      ∀ x ∈ matched', x ∈ matched ∨ ∃ buf ip port, e = .packet buf ip port ∧ Message.fromBytes env.codec buf = .ok x.response ∧
        x.source = .v4 ip port := by
  have hawaiting : ∀ task ∈ (DHT.step env s e).awaiting, ∃ r ∈ stored ++ s.storedBy e, WaitsFor task r := by
    intro task htask
    rcases mem_step_awaiting env s e htask with hold | ⟨r, hr, hwaits⟩
    · obtain ⟨r, hr, hwaits⟩ := ht.awaiting task hold
      exact ⟨r, List.mem_append_left _ hr, hwaits⟩
    · exact ⟨r, List.mem_append_right _ hr, hwaits⟩
  -- Every event but a packet leaves the matches as they were.
  suffices hrest : (∀ buf ip port, e ≠ .packet buf ip port) →
      ((s.socketAfter env e).history log (stored ++ s.storedBy e) matched).Wf by
    by_cases hpacket : ∃ buf ip port, e = .packet buf ip port
    · obtain ⟨buf, ip, port, rfl⟩ := hpacket
      obtain ⟨log', matched', hwf, hmatched⟩ := packet_history env.codec ht.wf buf (.v4 ip port)
      refine ⟨log', matched', ⟨?_, hawaiting⟩, fun x hx => (hmatched x hx).imp_right (fun h => ⟨buf, ip, port, rfl, h⟩)⟩
      rw [step_socket]
      unfold storedBy
      rw [List.append_nil]
      exact hwf
    · refine ⟨log, matched, ⟨?_, hawaiting⟩, fun x hx => .inl hx⟩
      rw [step_socket]
      exact hrest (fun buf ip port h => hpacket ⟨buf, ip, port, h⟩)
  intro hnot
  have hsame : ∀ toSend received outgoingUp,
      ({ s.socket with toSend, received, outgoingUp }.history log (stored ++ []) matched).Wf := by
    intro toSend received outgoingUp
    rw [List.append_nil]
    exact ⟨ht.wf.up, ht.wf.key, ht.wf.live, ht.wf.request, ht.wf.distinct, ht.wf.answered, ht.wf.once, ht.wf.general, ht.wf.channels⟩
  cases e with
  | packet buf ip port => exact absurd rfl (hnot buf ip port)
  | accept throttled now shuffle => exact hsame _ _ _
  | outgoing result =>
    obtain ⟨toSend, -, outgoingUp, hsocket⟩ := DHTSocket.backgroundIoOutgoing_eq env.codec s.socket result
    rw [socketAfter, hsocket]
    exact hsame _ _ _
  | requestCleanup now =>
    unfold storedBy
    rw [List.append_nil]
    have hcleanup := ht.wf.requestCleanup now
    exact ⟨hcleanup.up, hcleanup.key, hcleanup.live, hcleanup.request, hcleanup.distinct, hcleanup.answered, hcleanup.once,
      hcleanup.general, hcleanup.channels⟩
  | runSpawned i now rng =>
    unfold socketAfter storedBy
    dsimp only
    cases s.spawned[i]? with
    | none => exact hsame _ _ _
    | some task =>
      dsimp only
      by_cases hpoison : s.poisoned = true
      · rw [if_pos hpoison, if_pos hpoison]
        exact hsame _ _ _
      · obtain ⟨req, htype⟩ := request_messageType task s.ourId s.settings.readOnly rng
        rw [if_neg hpoison, if_neg hpoison]
        exact sendTo_history ht.wf htype _ _ _
  | sendRequest req dest destId now =>
    unfold socketAfter storedBy
    dsimp only
    cases htype : req.messageType with
    | request r => exact sendTo_history ht.wf htype _ _ _
    | response res => exact hsame _ _ _
    | error err => exact hsame _ _ _
  | _ => exact hsame _ _ _

/-- What is on the channel of a request is a response it was matched by. -/
theorem Tracks.matched_of_mem (ht : Tracks s log stored matched) {r : RequestInfo} (hr : r ∈ stored) {ch : ChannelId}
    (hch : r.responseChannel = some ch) {reply : Message} (hreply : reply ∈ s.socket.channel ch) :
    ∃ x ∈ matched, x.response = reply ∧ x.request = r ∧ r.AnsweredBy reply x.source := by
  have hmem : reply ∈ (s.socket.history log stored matched).socket.channel ch := hreply
  rw [ht.wf.channels ch] at hmem
  obtain ⟨x, hx, rfl⟩ := List.mem_map.mp hmem
  obtain ⟨hx, hsame⟩ := List.mem_filter.mp hx
  obtain ⟨hstored, hanswered⟩ := ht.wf.answered x hx
  have hsame' : x.request.responseChannel = r.responseChannel := (of_decide_eq_true hsame).trans hch.symm
  have heq : x.request = r := List.inj_on_of_nodup_map ht.wf.distinct hstored hr hsame'
  exact ⟨x, hx, rfl, heq, heq ▸ hanswered⟩

/-- What is on the channel of a task that waits is a response from where it waits for one. -/
theorem Tracks.source (ht : Tracks s log stored matched) {task : AwaitingTask} (htask : task ∈ s.awaiting) {reply : Message}
    (hreply : reply ∈ s.socket.channel task.receiver) :
    ∃ x ∈ matched, x.response = reply ∧ x.source = task.target ∧ ∃ res, reply.messageType = .response res := by
  obtain ⟨r, hr, hchannel, haddr⟩ := ht.awaiting task htask
  obtain ⟨x, hx, hresponse, -, -, hsource, -, res, req, hres, -⟩ := ht.matched_of_mem hr hchannel hreply
  exact ⟨x, hx, hresponse, hsource.trans haddr, res, hres⟩

/-- What is on the general channel after an event was there before, or is the message of a packet. -/
theorem mem_step_received (env : Env σ) (hup : s.socket.incomingUp = true)
    (hkey : ∀ tid r, s.socket.requestStorage.requests tid = some r → tid = .from r.packet.transactionId) {e : Event}
    {p : Message × SocketAddr} (hp : p ∈ (step env s e).socket.received) :
    p ∈ s.socket.received ∨
      ∃ buf ip port, e = .packet buf ip port ∧ Message.fromBytes env.codec buf = .ok p.1 ∧ p.2 = .v4 ip port := by
  rw [step_socket] at hp
  cases e with
  | packet buf ip port =>
    rcases DHTSocket.backgroundIoIncoming_cases env.codec hup buf (.v4 ip port) hkey with
      ⟨-, hs⟩ | ⟨m, hparse, ⟨-, hs⟩ | ⟨-, -, hs⟩ | ⟨r, -, -, hs⟩⟩
    · exact .inl (hs ▸ hp)
    · rcases List.mem_append.mp (show p ∈ s.socket.received ++ [(m, .v4 ip port)] by rw [socketAfter, hs] at hp; exact hp) with hp | hp
      · exact .inl hp
      · rw [List.mem_singleton.mp hp]
        exact .inr ⟨buf, ip, port, rfl, hparse, rfl⟩
    · exact .inl (hs ▸ hp)
    · rcases List.mem_append.mp (show p ∈ s.socket.received ++ [(m, .v4 ip port)] by rw [socketAfter, hs] at hp; exact hp) with hp | hp
      · exact .inl hp
      · rw [List.mem_singleton.mp hp]
        exact .inr ⟨buf, ip, port, rfl, hparse, rfl⟩
  | accept throttled now shuffle =>
    unfold socketAfter receivedOne at hp
    dsimp only at hp
    split at hp
    · exact .inl (List.mem_of_mem_tail hp)
    · exact .inl hp
  | runSpawned i now rng =>
    unfold socketAfter at hp
    dsimp only at hp
    split at hp
    · split at hp
      · exact .inl hp
      · exact .inl (s.socket.sendTo_received _ _ _ _ ▸ hp)
    · exact .inl hp
  | sendRequest req dest destId now =>
    unfold socketAfter at hp
    dsimp only at hp
    split at hp
    · exact .inl (s.socket.sendTo_received _ _ _ _ ▸ hp)
    · exact .inl hp
  | outgoing result =>
    obtain ⟨toSend, -, outgoingUp, hsocket⟩ := DHTSocket.backgroundIoOutgoing_eq env.codec s.socket result
    rw [socketAfter, hsocket] at hp
    exact .inl hp
  | _ => exact .inl hp

end DHT

end RustyDht
