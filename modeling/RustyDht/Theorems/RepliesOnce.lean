import RustyDht.Theorems.Ipv4Only
import Mathlib.Data.List.Forall2

/-!
# One reply at most

The requests that a socket reads wait in the order they came in, and each is replied to once at most, before the next is looked at. So
the responses that a DHT queues answer different requests, in the order these were read; and no address is sent more responses than
requests were read from it.
-/

namespace RustyDht

/-- A message to an address is a response to a request from there: with its transaction id and of the kind that answers it. -/
structure AnswersRequest (reply request : Message × SocketAddr) : Prop where
  addr : reply.2 = request.2
  transactionId : reply.1.transactionId = request.1.transactionId
  kind : ∃ req res, request.1.messageType = .request req ∧ reply.1.messageType = .response res ∧ responseMatchesRequest res req = true

namespace DHT

variable {σ : Type} {env : Env σ} {s : DHT σ}

/-- The requests that an event reads from the socket. -/
def requestsRead (env : Env σ) (s : DHT σ) : Event → List (Message × SocketAddr)
  | .packet buf ip port =>
    if s.socket.incomingUp then
      match Message.fromBytes env.codec buf with
      | .ok msg => if msg.isRequest then [(msg, .v4 ip port)] else []
      | .error _ => []
    else []
  | _ => []

/-- The requests that have been read and not yet looked at. -/
def requestsWaiting (s : DHT σ) : List (Message × SocketAddr) := s.socket.received.filter (fun p => p.1.isRequest)

/-- The responses that an event puts on the queue. -/
def responsesQueued (env : Env σ) (s : DHT σ) (e : Event) : List (Message × SocketAddr) :=
  (s.sends env e).filter (fun p => p.1.isResponse)

/-- A request that a packet brings waits behind the others. -/
theorem requestsWaiting_packet (env : Env σ) (s : DHT σ) (buf : List UInt8) (ip : Ipv4Addr) (port : UInt16) :
    (step env s (.packet buf ip port)).requestsWaiting = s.requestsWaiting ++ s.requestsRead env (.packet buf ip port) := by
  unfold requestsWaiting requestsRead step
  dsimp only
  rw [DHTSocket.backgroundIoIncoming]
  by_cases hup : s.socket.incomingUp = true
  · rw [if_pos hup, if_pos hup, DHTSocket.backgroundIoIncomingSingle]
    cases Message.fromBytes env.codec buf with
    | error e => cases e <;> simp [bind, Except.bind]
    | ok m =>
      simp only [bind, Except.bind]
      cases htype : m.messageType with
      | response res =>
        simp only
        obtain ⟨info, requestStorage⟩ := s.socket.requestStorage.takeMatchingRequestInfo m (.v4 ip port)
        cases info with
        | none => simp [Message.isRequest, htype, pure, Except.pure]
        | some info =>
          simp only [pure, Except.pure, DHTSocket.notify]
          cases info.responseChannel <;> simp [Message.isRequest, htype]
      | request req => simp [Message.isRequest, htype, pure, Except.pure]
      | error err => simp [Message.isRequest, htype, pure, Except.pure]
  · rw [if_neg hup, if_neg hup, List.append_nil]

/-- An event that reads no packet and takes no message leaves the requests waiting. -/
theorem requestsWaiting_of_ne (env : Env σ) (s : DHT σ) {e : Event} (hpacket : ∀ buf ip port, e ≠ .packet buf ip port)
    (haccept : ∀ throttled now shuffle, e ≠ .accept throttled now shuffle) :
    (step env s e).requestsWaiting = s.requestsWaiting := by
  unfold requestsWaiting
  rw [step_socket]
  cases e with
  | packet buf ip port => exact absurd rfl (hpacket buf ip port)
  | accept throttled now shuffle => exact absurd rfl (haccept throttled now shuffle)
  | outgoing result =>
    obtain ⟨toSend, -, outgoingUp, hsocket⟩ := DHTSocket.backgroundIoOutgoing_eq env.codec s.socket result
    rw [socketAfter, hsocket]
  | runSpawned i now rng =>
    unfold socketAfter
    dsimp only
    split
    · split
      · rfl
      · rw [DHTSocket.sendTo_received]
    · rfl
  | sendRequest req dest destId now =>
    unfold socketAfter
    dsimp only
    split
    · rw [DHTSocket.sendTo_received]
    · rfl
  | _ => rfl

/-- To take the next message is to take the request that has waited longest, if it is one, and queues one response to it at most. -/
theorem requestsWaiting_accept (env : Env σ) (h : s.Ipv4Only) (throttled : Bool) (now : Nat → Instant) (shuffle : PartialShuffle) :
    ∃ taken, s.requestsWaiting = taken ++ (step env s (.accept throttled now shuffle)).requestsWaiting ∧
      List.SublistForall₂ AnswersRequest (s.replies env throttled now shuffle) taken := by
  have hwaiting : (step env s (.accept throttled now shuffle)).requestsWaiting =
      (if s.running then s.socket.received.tail else s.socket.received).filter (fun p => p.1.isRequest) := by
    unfold requestsWaiting
    rw [step_socket]
    rfl
  rw [hwaiting]
  unfold requestsWaiting
  by_cases hanswered : ∃ msg req addr, s.NextRequest msg req addr ∧ s.Answers throttled req addr
  · obtain ⟨msg, req, addr, hnext, hanswers⟩ := hanswered
    obtain ⟨rest, hreceived⟩ := List.head?_eq_some_iff.mp hnext.head
    refine ⟨[(msg, addr)], ?_, ?_⟩
    · simp [hreceived, hanswers.running, Message.isRequest, hnext.type]
    · rw [replies_of_answers hnext hanswers, repliesTo]
      cases hanswer : ((s.seen env msg addr req.requesterId (now 0)).answer env req addr (now 1) shuffle).1 with
      | none => exact .nil
      | some res => exact .cons ⟨rfl, rfl, req, res, hnext.type, rfl, (h.suits hnext hanswer).1.kind⟩ .nil
  · have hnot : ∀ msg req addr, s.NextRequest msg req addr → ¬s.Answers throttled req addr :=
      fun msg req addr hnext hanswers => hanswered ⟨msg, req, addr, hnext, hanswers⟩
    rw [replies_of_not_answers hnot]
    by_cases hrunning : s.running = true
    · rw [if_pos hrunning]
      refine ⟨(s.socket.received.take 1).filter (fun p => p.1.isRequest), ?_, .nil⟩
      rw [← List.filter_append, ← List.drop_one, List.take_append_drop]
    · rw [if_neg hrunning]
      exact ⟨[], rfl, .nil⟩

/-- No event but a message taken queues a response. -/
theorem responsesQueued_of_ne (env : Env σ) (s : DHT σ) {e : Event} (haccept : ∀ throttled now shuffle, e ≠ .accept throttled now shuffle) :
    s.responsesQueued env e = [] := by
  refine List.filter_eq_nil_iff.mpr (fun p hp => ?_)
  rcases mem_sends hp with ⟨throttled, now, shuffle, -, -, -, he, -⟩ | ⟨i, now, task, rng, -, -, rfl⟩ | ⟨destId, now, req, -, htype⟩
  · exact absurd he (haccept throttled now shuffle)
  · obtain ⟨req, htype⟩ := request_messageType task s.ourId s.settings.readOnly rng
    simp [Message.isResponse, htype]
  · simp [Message.isResponse, htype]

/-- A message taken queues its replies, all of them responses, unless the outgoing task has ended. -/
theorem responsesQueued_accept (env : Env σ) (s : DHT σ) (throttled : Bool) (now : Nat → Instant) (shuffle : PartialShuffle) :
    s.responsesQueued env (.accept throttled now shuffle) = if s.socket.outgoingUp then s.replies env throttled now shuffle else [] := by
  have hreplies : ∀ p ∈ s.replies env throttled now shuffle, p.1.isResponse = true := by
    intro p hp
    unfold replies repliesTo at hp
    split at hp
    · split at hp
      · split at hp
        · obtain ⟨res, -, rfl⟩ := List.mem_map.mp hp
          rfl
        · cases hp
      · cases hp
    · cases hp
  unfold responsesQueued sends
  split
  · exact List.filter_eq_self.mpr hreplies
  · rfl

/-! ## Every run -/

/-- Of the requests read, some have been taken, and the others wait; the responses queued answer some of those taken, in their order. -/
structure Replied (s : DHT σ) (read queued : List (Message × SocketAddr)) : Prop where
  taken : ∃ taken, read = taken ++ s.requestsWaiting ∧ List.SublistForall₂ AnswersRequest queued taken

/-- What answers more requests after others. -/
theorem sublistForall₂_append {replies replies' requests requests' : List (Message × SocketAddr)}
    (h : List.SublistForall₂ AnswersRequest replies requests) (h' : List.SublistForall₂ AnswersRequest replies' requests') :
    List.SublistForall₂ AnswersRequest (replies ++ replies') (requests ++ requests') := by
  obtain ⟨answered, hall, hsub⟩ := List.sublistForall₂_iff.mp h
  obtain ⟨answered', hall', hsub'⟩ := List.sublistForall₂_iff.mp h'
  exact List.sublistForall₂_iff.mpr ⟨answered ++ answered', List.rel_append hall hall', hsub.append hsub'⟩

/-- An event leaves it so. -/
theorem Replied.step {read queued : List (Message × SocketAddr)} (h : s.Replied read queued) (hipv4 : s.Ipv4Only) (e : Event) :
    (DHT.step env s e).Replied (read ++ s.requestsRead env e) (queued ++ s.responsesQueued env e) := by
  obtain ⟨taken, rfl, hreplies⟩ := h.taken
  refine ⟨?_⟩
  cases e with
  | packet buf ip port =>
    refine ⟨taken, ?_, ?_⟩
    · rw [requestsWaiting_packet, List.append_assoc]
    · rw [responsesQueued_of_ne env s (fun _ _ _ h => by cases h), List.append_nil]
      exact hreplies
  | accept throttled now shuffle =>
    obtain ⟨next, hwaiting, hnext⟩ := requestsWaiting_accept env hipv4 throttled now shuffle
    refine ⟨taken ++ next, ?_, ?_⟩
    · rw [hwaiting]
      simp [requestsRead]
    · rw [responsesQueued_accept]
      split
      · exact sublistForall₂_append hreplies hnext
      · exact sublistForall₂_append hreplies .nil
  | _ =>
    refine ⟨taken, ?_, ?_⟩
    · rw [requestsWaiting_of_ne env s (fun _ _ _ h => by cases h) (fun _ _ _ h => by cases h)]
      simp [requestsRead]
    · rw [responsesQueued_of_ne env s (fun _ _ _ h => by cases h), List.append_nil]
      exact hreplies

/-- Where messages answer requests, no address has more of them than requests came from it. -/
theorem countP_le_of_answers {replies requests : List (Message × SocketAddr)} (h : List.SublistForall₂ AnswersRequest replies requests)
    (addr : SocketAddr) : replies.countP (fun p => p.2 = addr) ≤ requests.countP (fun p => p.2 = addr) := by
  induction h with
  | nil => simp
  | cons hanswers _ ih =>
    rw [List.countP_cons, List.countP_cons, hanswers.addr]
    exact Nat.add_le_add_right ih _
  | cons_right _ ih =>
    rw [List.countP_cons]
    exact Nat.le_add_right_of_le ih

/-- In every run of a new DHT, the responses that it has queued answer different requests that it has read from its socket, in the order
in which these were read: each goes where its request came from, with its transaction id, and is of the kind that answers it. So no
address is sent more responses than requests were read from it. -/
theorem run_repliesOnce (env : Env σ) {id : Option Id} {ip4Source : σ} {buckets : NodeBucketStorage} {settings : DHTSettings}
    {rng secretRng : Nat → UInt8} {random : Id}
    (hnew : new env id ip4Source buckets settings rng secretRng random = .ok s) (events : List Event) :
    List.SublistForall₂ AnswersRequest (Machine.outputs (step env) (responsesQueued env) s events)
        (Machine.outputs (step env) (requestsRead env) s events) ∧
      ∀ addr, (Machine.outputs (step env) (responsesQueued env) s events).countP (fun p => p.2 = addr) ≤
        (Machine.outputs (step env) (requestsRead env) s events).countP (fun p => p.2 = addr) := by
  have hreplied : (Machine.run (step env) s events).Ipv4Only ∧
      (Machine.run (step env) s events).Replied (Machine.outputs (step env) (requestsRead env) s events)
        (Machine.outputs (step env) (responsesQueued env) s events) := by
    induction events using List.reverseRecOn with
    | nil =>
      obtain ⟨ourId, tokenSecret, rfl⟩ := eq_of_new hnew
      exact ⟨ipv4Only_of_new hnew, ⟨[], rfl, .nil⟩⟩
    | append_singleton events e ih =>
      rw [Machine.run_append, Machine.outputs_append, Machine.outputs_append]
      simp only [Machine.run_cons, Machine.run_nil, Machine.outputs_cons, Machine.outputs_nil, List.append_nil]
      exact ⟨ih.1.step e, ih.2.step ih.1 e⟩
  obtain ⟨taken, hread, hreplies⟩ := hreplied.2.taken
  have hall : List.SublistForall₂ AnswersRequest (Machine.outputs (step env) (responsesQueued env) s events)
      (Machine.outputs (step env) (requestsRead env) s events) := by
    rw [hread]
    have hwaiting : List.SublistForall₂ AnswersRequest [] (Machine.run (step env) s events).requestsWaiting := .nil
    simpa using sublistForall₂_append hreplies hwaiting
  exact ⟨hall, countP_le_of_answers hall⟩

/-- A host asks for peers twice, and has been answered once. -/
theorem run_repliesOnce_two_requests :
    let events : List Event := [.packet samplePeersPacket ⟨127, 0, 0, 1⟩ 6881, .packet samplePeersPacket ⟨127, 0, 0, 1⟩ 6881,
      .accept false sampleClock sampleShuffle]
    List.SublistForall₂ AnswersRequest (Machine.outputs (step sampleEnv) (responsesQueued sampleEnv) sampleDht events)
        (Machine.outputs (step sampleEnv) (requestsRead sampleEnv) sampleDht events) ∧
      ∀ addr, (Machine.outputs (step sampleEnv) (responsesQueued sampleEnv) sampleDht events).countP (fun p => p.2 = addr) ≤
        (Machine.outputs (step sampleEnv) (requestsRead sampleEnv) sampleDht events).countP (fun p => p.2 = addr) :=
  run_repliesOnce sampleEnv sampleDht_new _

end DHT

end RustyDht
