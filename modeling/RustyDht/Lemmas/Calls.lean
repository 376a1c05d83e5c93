import RustyDht.Calls
import RustyDht.Lemmas.Operations
import RustyDht.Lemmas.Network

/-!
# The requests of an operation

What an operation on a host is given as the response to a request of its own is a response of the node that it asked: `Acts` says what an
event is to the operation, `Serves` that the socket of the host has its requests, each with its channel, and `run_invariant` carries
through a run whatever the operation makes of what it is given.
-/

namespace RustyDht

variable {σ α : Type} {env : Env σ}

/-! ## The requests in the socket -/

/-- A message answers a request of an operation: it is a response of its kind, with its transaction id, by the node that it went to. -/
structure RequestTo.AnsweredBy (todo : RequestTo) (reply : Message) : Prop where
  transactionId : reply.transactionId = todo.req.transactionId
  author : reply.getAuthorId = some todo.node.id
  kind : ∃ res req, reply.messageType = .response res ∧ todo.req.messageType = .request req ∧ responseMatchesRequest res req = true

/-- What the socket stores is a request of an operation, with the channel of its response. -/
structure RequestInfo.SentFor (r : RequestInfo) (todo : RequestTo) (ch : ChannelId) : Prop where
  addr : r.addr = todo.node.address
  id : r.id = some todo.node.id
  packet : r.packet = todo.req
  channel : r.responseChannel = some ch

namespace DHT

variable {s : DHT σ} {C C' : RequestTo → ChannelId → Prop}

/-- The socket has stored requests, each with its channel. -/
def HasSent (C : RequestTo → ChannelId → Prop) (s : DHT σ) : Prop :=
  ∃ log stored matched, Tracks s log stored matched ∧ ∀ todo ch, C todo ch → ∃ r ∈ stored, r.SentFor todo ch

theorem HasSent.mono (h : s.HasSent C) (hC : ∀ todo ch, C' todo ch → C todo ch) : s.HasSent C' := by
  obtain ⟨log, stored, matched, htracks, hsent⟩ := h
  exact ⟨log, stored, matched, htracks, fun todo ch hc => hsent todo ch (hC todo ch hc)⟩

/-- What has been sent stays so, whatever happens to the DHT. -/
theorem HasSent.step (h : s.HasSent C) (e : Event) : (DHT.step env s e).HasSent C := by
  obtain ⟨log, stored, matched, htracks, hsent⟩ := h
  obtain ⟨log', matched', htracks', -⟩ := @Tracks.step _ env _ _ _ _ htracks e
  refine ⟨log', _, matched', htracks', fun todo ch hc => ?_⟩
  obtain ⟨r, hr, hfor⟩ := hsent todo ch hc
  exact ⟨r, List.mem_append_left _ hr, hfor⟩

/-- A request is sent, and its channel is new. -/
theorem HasSent.sendRequest (h : s.HasSent C) {todo : RequestTo} {req : RequestSpecific} (htype : todo.req.messageType = .request req)
    (now : Instant) : (DHT.step env s (.sendRequest todo.req todo.node.address (some todo.node.id) now)).HasSent
      (fun todo' ch => C todo' ch ∨ todo' = todo ∧ ch = s.socket.responseChannels.length) := by
  obtain ⟨log, stored, matched, htracks, hsent⟩ := h
  obtain ⟨log', matched', htracks', -⟩ := @Tracks.step _ env _ _ _ _ htracks
    (.sendRequest todo.req todo.node.address (some todo.node.id) now)
  refine ⟨log', _, matched', htracks', ?_⟩
  rintro todo' ch (hc | ⟨rfl, rfl⟩)
  · obtain ⟨r, hr, hfor⟩ := hsent todo' ch hc
    exact ⟨r, List.mem_append_left _ hr, hfor⟩
  · refine ⟨s.socket.newRequestInfo todo'.req todo'.node.address (some todo'.node.id) now, List.mem_append_right _ ?_, ⟨rfl, rfl, rfl, rfl⟩⟩
    simp [storedBy, htype]

/-- Whoever waits on the channel of a request waits for where it went, and what is on the channel answers the request. -/
theorem HasSent.answered (h : s.HasSent C) {todo : RequestTo} {task : AwaitingTask} (hsent : C todo task.receiver)
    (htask : task ∈ s.awaiting) {reply : Message} (hreply : reply ∈ s.socket.channel task.receiver) :
    task.target = todo.node.address ∧ todo.AnsweredBy reply := by
  obtain ⟨log, stored, matched, htracks, hstored⟩ := h
  obtain ⟨r, hr, hfor⟩ := hstored todo task.receiver hsent
  obtain ⟨r', hr', hchannel, haddr⟩ := htracks.awaiting task htask
  have hsame : r' = r := List.inj_on_of_nodup_map htracks.wf.distinct hr' hr (hchannel.trans hfor.channel.symm)
  subst hsame
  obtain ⟨x, -, -, -, htid, -, hid, res, req, hres, hreq, hkind⟩ := htracks.matched_of_mem hr hfor.channel hreply
  have hauthor : reply.getAuthorId = some todo.node.id := by
    rcases hid with hnone | hid
    · rw [hfor.id] at hnone
      cases hnone
    · rw [← hid, hfor.id]
  exact ⟨haddr.symm.trans hfor.addr, hfor.packet ▸ htid, hauthor, res, req, hres, hfor.packet ▸ hreq, hkind⟩

/-- The task that is found waiting on a channel waits on it. -/
theorem receiver_of_waiting {ch : ChannelId} {task : AwaitingTask} (h : s.awaiting[s.waiting ch]? = some task) : task.receiver = ch := by
  obtain ⟨hlt, rfl⟩ := List.getElem?_eq_some_iff.mp h
  exact of_decide_eq_true (@List.findIdx_getElem _ (fun task : AwaitingTask => decide (task.receiver = ch)) s.awaiting hlt)

/-- An iteration reads the nodes that the DHT has verified, and its id. -/
theorem getNodesAndId_eq {nodes : List NodeWrapper} {ourId : Id} (h : (getNodesAndId.run.run s).1 = .ok (nodes, ourId)) :
    nodes = s.buckets.getAllVerified ∧ ourId = s.ourId := by
  by_cases hpoison : s.poisoned = true
  · obtain ⟨p, hp⟩ : ∃ p, (getNodes.run.run s : Except Failure (List NodeWrapper) × DHT σ) = (.error (.panic p), s) :=
      run_lock_poisoned hpoison _
    rw [getNodesAndId, run_bind_of_error hp] at h
    cases h
  · have hpoison : s.poisoned = false := Bool.eq_false_of_not_eq_true hpoison
    have hnodes : (getNodes.run.run s : Except Failure (List NodeWrapper) × DHT σ) = (.ok s.buckets.getAllVerified, s) :=
      run_lock hpoison rfl
    have hid : (getId.run.run s : Except Failure Id × DHT σ) = (.ok s.ourId, s) := run_lock hpoison rfl
    rw [getNodesAndId, run_bind_of_ok hnodes, run_bind_of_ok hid] at h
    cases h
    exact ⟨rfl, rfl⟩

end DHT

namespace Host

/-- What a request returns is what is on the channel of a task that waits for it. -/
theorem receiveResponse_eq_ok {host : Host σ} {ch : ChannelId} {now nowNew : Instant} {nowSeen : Nat → Instant} {reply : Message}
    (h : host.receiveResponse env ch now nowNew nowSeen = some (.ok reply)) :
    ∃ task ∈ host.dht.awaiting, task.receiver = ch ∧ reply ∈ host.dht.socket.channel ch := by
  unfold receiveResponse at h
  split at h
  · rename_i task message htask hmessage
    have hreply := (DHT.keeps_quiet_handleResponse task.target message now nowNew nowSeen _ (.refl _)).2 reply (Option.some.inj h)
    refine ⟨task, List.mem_of_getElem? htask, DHT.receiver_of_waiting htask, ?_⟩
    rw [hreply]
    exact List.mem_of_head? hmessage
  · cases h

end Host

/-! ## The requests of the hosts of a network -/

namespace Network

variable {net : Network σ} {b : Endpoint} {C : RequestTo → ChannelId → Prop}

/-- What a host has sent stays so, whatever happens in the network. -/
theorem hasSent_step (h : ∀ host, net.hosts b = some host → host.dht.HasSent C) (e : NetworkEvent) :
    ∀ host, (net.step env e).hosts b = some host → host.dht.HasSent C := by
  intro host' hhost'
  obtain ⟨host, hhost, hbecomes⟩ := becomes_of_step hhost'
  exact becomes_invariant (I := fun a s => a = b → s.HasSent C) (fun hs _ ha => (hs ha).step _) (fun _ _ _ hs ha => (hs ha).step _)
    hbecomes (fun _ => h host hhost) rfl

/-- A host sends a request, and its channel is new. -/
theorem hasSent_sendRequest {host : Host σ} (hhost : net.hosts b = some host) (h : host.dht.HasSent C) {todo : RequestTo}
    {req : RequestSpecific} (htype : todo.req.messageType = .request req) (now : Instant) :
    ∀ host', (net.step env (.host b (.sendRequest todo.req todo.node.address (some todo.node.id) now))).hosts b = some host' →
      host'.dht.HasSent (fun todo' ch => C todo' ch ∨ todo' = todo ∧ ch = host.dht.socket.responseChannels.length) := by
  intro host' hhost'
  simp only [step, hhost, hosts_setHost_self, Host.step, Option.some.injEq] at hhost'
  have hsent : (DHT.step env host.dht (.sendRequest todo.req todo.node.address (some todo.node.id) now)).HasSent
      (fun todo' ch => C todo' ch ∨ todo' = todo ∧ ch = host.dht.socket.responseChannels.length) := h.sendRequest htype now
  rwa [← hhost']

end Network

/-! ## What an event is to an operation -/

/-- A finished request is no longer outstanding, and the others are. -/
structure Operation.Lawful (O : Operation α) : Prop where
  todos_reply : ∀ op i result now, i < (O.todos op).length → O.todos (O.step op (.reply i result now)) = (O.todos op).eraseIdx i

theorem FindNode.lawful (S : UnstableSort) (readOnly : Bool) : (FindNode.operation S readOnly).Lawful where
  todos_reply op i result now hi := by
    have hhandle : ∀ self : Lookup, (FindNode.handle S self result now).todos = self.todos := by
      intro self
      unfold FindNode.handle
      split
      · split <;> rfl
      · rfl
    have hi : i < op.todos.length := hi
    simp [FindNode.operation, FindNode.step, List.getElem?_eq_getElem hi, hhandle, Lookup.finish]

theorem GetPeers.lawful (S : UnstableSort) (readOnly : Bool) : (GetPeers.operation S readOnly).Lawful where
  todos_reply op i result now hi := by
    have hhandle : ∀ (self : GetPeers) node, (GetPeers.handle S self node result now).lookup.todos = self.lookup.todos := by
      intro self node
      unfold GetPeers.handle GetPeers.values
      split
      · split
        · split <;> rfl
        · rfl
      · rfl
    have hi : i < op.lookup.todos.length := hi
    simp [GetPeers.operation, GetPeers.step, List.getElem?_eq_getElem hi, hhandle, Lookup.finish]

theorem AnnouncePeer.lawful : AnnouncePeer.operation.Lawful where
  todos_reply op i result now hi := by
    have hi : i < op.todos.length := hi
    cases result with
    | ok message => simp [AnnouncePeer.operation, AnnouncePeer.step, List.getElem?_eq_getElem hi]
    | error e => simp [AnnouncePeer.operation, AnnouncePeer.step, List.getElem?_eq_getElem hi]

namespace Calls

variable {b : Endpoint} {O : Operation α} {self : Calls σ α}

/-- A request of the operation has been sent and waits for what comes in on a channel. -/
def Sent (O : Operation α) (self : Calls σ α) (todo : RequestTo) (ch : ChannelId) : Prop :=
  ∃ i : Nat, (O.todos self.op)[i]? = some todo ∧ self.receivers[i]? = some (some ch)

/-- What an event is to the network, and what it makes of the operation. -/
inductive Acts (env : Env σ) (b : Endpoint) (O : Operation α) (self : Calls σ α) : CallEvent → List NetworkEvent → Calls σ α → Prop
  | idle (e : CallEvent) (panicked : Bool) : Acts env b O self e [] { self with panicked }
  | other (e : NetworkEvent) : Acts env b O self (.other e) [e] self
  | round (host : Host σ) (rng : Nat → UInt8 × UInt8) (hhost : self.net.hosts b = some host) :
    Acts env b O self (.round rng) []
      { self with
        op := O.step self.op (.round host.dht.buckets.getAllVerified host.dht.ourId rng)
        receivers := (O.todos (O.step self.op (.round host.dht.buckets.getAllVerified host.dht.ourId rng))).map (fun _ => none) }
  | sent (host : Host σ) (i : Nat) (now : Instant) (todo : RequestTo) (req : RequestSpecific) (hhost : self.net.hosts b = some host)
    (htodo : (O.todos self.op)[i]? = some todo) (htype : todo.req.messageType = .request req)
    (hup : host.dht.socket.outgoingUp = true) :
    Acts env b O self (.send i now) [.host b (.sendRequest todo.req todo.node.address (some todo.node.id) now)]
      { self with receivers := self.receivers.set i (some host.dht.socket.responseChannels.length) }
  | unsent (i : Nat) (now : Instant) (todo : RequestTo) (error : RustyDHTError) (htodo : (O.todos self.op)[i]? = some todo) :
    Acts env b O self (.send i now) [.host b (.sendRequest todo.req todo.node.address (some todo.node.id) now)]
      (self.finish O i (.error error) (fun _ => now))
  | responded (e : CallEvent) (event : DHT.Event) (host : Host σ) (i : Nat) (task : AwaitingTask) (reply : Message) (now : Nat → Instant)
    (hevent : ∀ req dest destId now, event ≠ .sendRequest req dest destId now) (hhost : self.net.hosts b = some host)
    (hreceiver : self.receivers[i]? = some (some task.receiver)) (htask : task ∈ host.dht.awaiting)
    (hreply : reply ∈ host.dht.socket.channel task.receiver) :
    Acts env b O self e [.host b event] (self.finish O i (.ok reply) now)
  | failed (e : CallEvent) (event : DHT.Event) (i : Nat) (error : RustyDHTError) (now : Nat → Instant)
    (hevent : ∀ req dest destId now, event ≠ .sendRequest req dest destId now) (hi : i < self.receivers.length) :
    Acts env b O self e [.host b event] (self.finish O i (.error error) now)
  | left (e : CallEvent) (event : DHT.Event) (panicked : Bool)
    (hevent : ∀ req dest destId now, event ≠ .sendRequest req dest destId now) :
    Acts env b O self e [.host b event] { self with panicked }

/-- Every event acts so. -/
theorem acts (env : Env σ) (b : Endpoint) (O : Operation α) (self : Calls σ α) (e : CallEvent) :
    Acts env b O self e (self.networkEvents b O e) (self.actOn env b O e) := by
  unfold networkEvents actOn
  have hidle : ∀ e, Acts env b O self e [] self := fun e => .idle e self.panicked
  cases hhost : self.net.hosts b with
  | none =>
    cases e with
    | other e =>
      dsimp only
      split
      · exact hidle _
      · exact .other e
    | _ => exact hidle _
  | some host =>
    by_cases hpanicked : self.panicked = true
    · cases e with
      | other e =>
        simp only [hpanicked, if_true]
        split
        · exact hidle _
        · exact .other e
      | _ =>
        simp only [hpanicked, if_true]
        exact hidle _
    · simp only [Bool.eq_false_of_not_eq_true hpanicked, Bool.false_eq_true, if_false]
      cases e with
      | other e =>
        dsimp only
        split
        · exact hidle _
        · exact .other e
      | round rng =>
        unfold act Calls.round hostEvents
        dsimp only
        split
        · split
          · rename_i nodes ourId hread
            obtain ⟨rfl, rfl⟩ := DHT.getNodesAndId_eq hread
            exact .round host rng hhost
          · exact .idle _ true
        · exact hidle _
      | send i now =>
        unfold act hostEvents
        dsimp only
        split
        · rename_i todo htodo hreceiver
          unfold Host.sendRequest
          split
          · rename_i ch hsend
            split at hsend
            · rename_i req htype
              split at hsend
              · rename_i hup
                cases hsend
                exact .sent host i now todo req hhost htodo htype hup
              · cases hsend
            · cases hsend
          · exact .unsent i now todo _ htodo
        · exact hidle _
      | response i now nowNew nowSeen nowCandidate =>
        unfold act hostEvents
        dsimp only
        split
        · rename_i ch hreceiver
          have hi := (List.getElem?_eq_some_iff.mp hreceiver).1
          split
          · rename_i reply hresponse
            obtain ⟨task, htask, rfl, hreply⟩ := Host.receiveResponse_eq_ok hresponse
            exact .responded _ _ host i task reply nowCandidate (by simp) hhost hreceiver htask hreply
          · exact .failed _ _ i _ nowCandidate (by simp) hi
          · exact .left _ _ true (by simp)
          · exact .left _ _ self.panicked (by simp)
        · exact hidle _
      | giveUp i text =>
        unfold act hostEvents
        dsimp only
        split
        · rename_i ch hreceiver
          exact .failed _ _ i _ _ (by simp) (List.getElem?_eq_some_iff.mp hreceiver).1
        · exact hidle _

/-- What waits after a request has finished waited before. -/
theorem Sent.of_finish (hO : O.Lawful) (hlength : self.receivers.length = (O.todos self.op).length) {i : Nat}
    (hi : i < self.receivers.length) {result : Except RustyDHTError Message} {now : Nat → Instant} {todo : RequestTo} {ch : ChannelId}
    (h : (self.finish O i result now).Sent O todo ch) : self.Sent O todo ch := by
  obtain ⟨j, htodo, hreceiver⟩ := h
  have htodos : O.todos (self.finish O i result now).op = (O.todos self.op).eraseIdx i := hO.todos_reply _ _ _ _ (hlength ▸ hi)
  have hreceivers : (self.finish O i result now).receivers = self.receivers.eraseIdx i := rfl
  rw [htodos, List.getElem?_eraseIdx] at htodo
  rw [hreceivers, List.getElem?_eraseIdx] at hreceiver
  by_cases hlt : j < i
  · rw [if_pos hlt] at htodo hreceiver
    exact ⟨j, htodo, hreceiver⟩
  · rw [if_neg hlt] at htodo hreceiver
    exact ⟨j + 1, htodo, hreceiver⟩

/-- What waits after a request has been sent waited before, or is this request. -/
theorem Sent.of_set {i : Nat} {todo : RequestTo} (htodo : (O.todos self.op)[i]? = some todo) {ch : ChannelId} {todo' : RequestTo}
    {ch' : ChannelId} (h : ({ self with receivers := self.receivers.set i (some ch) } : Calls σ α).Sent O todo' ch') :
    self.Sent O todo' ch' ∨ todo' = todo ∧ ch' = ch := by
  obtain ⟨j, htodo', hreceiver⟩ := h
  have hreceiver : (self.receivers.set i (some ch))[j]? = some (some ch') := hreceiver
  rw [List.getElem?_set] at hreceiver
  by_cases hij : i = j
  · subst hij
    have hch : some ch = some ch' := by
      rw [if_pos rfl] at hreceiver
      split at hreceiver
      · exact Option.some.inj hreceiver
      · cases hreceiver
    exact .inr ⟨Option.some.inj (htodo'.symm.trans htodo), (Option.some.inj hch).symm⟩
  · rw [if_neg hij] at hreceiver
    exact .inl ⟨j, htodo', hreceiver⟩

end Calls

/-! ## Runs of an operation -/

/-- An operation on a host, with what has happened in the network. -/
structure CallsHistory (σ α : Type) where
  past : List NetworkEvent
  calls : Calls σ α

namespace CallsHistory

/-- An operation that begins after a run of a network. -/
def start (env : Env σ) (net : Network σ) (O : Operation α) (past : List NetworkEvent) (op : α) : CallsHistory σ α :=
  { past, calls := .start O (net.after env past) op }

/-- The history after an event. -/
def step (env : Env σ) (b : Endpoint) (O : Operation α) (self : CallsHistory σ α) (e : CallEvent) : CallsHistory σ α where
  past := self.past ++ self.calls.networkEvents b O e
  calls := self.calls.step env b O e

/-- The socket of the host has the requests of the operation, each with its channel. -/
structure Serves (env : Env σ) (net : Network σ) (b : Endpoint) (O : Operation α) (h : CallsHistory σ α) : Prop where
  reached : h.calls.net = net.after env h.past
  length : h.calls.receivers.length = (O.todos h.calls.op).length
  sent : ∀ host, h.calls.net.hosts b = some host → host.dht.HasSent (h.calls.Sent O)
  queued : ∀ todo ch, h.calls.Sent O todo ch → Network.Queued env net h.past b (todo.req, todo.node.address)

/-- After a run, the operation is given a response to a request of its own. -/
structure Given (env : Env σ) (net : Network σ) (past : List NetworkEvent) (b : Endpoint) (todo : RequestTo) (reply : Message) : Prop where
  received : ∃ host task, (net.after env past).hosts b = some host ∧ task ∈ host.dht.awaiting ∧ task.target = todo.node.address ∧
    reply ∈ host.dht.socket.channel task.receiver
  queued : Network.Queued env net past b (todo.req, todo.node.address)
  answers : todo.AnsweredBy reply

/-- What holds of the past and an operation is carried on, whatever happens to them. -/
structure Carries (env : Env σ) (net : Network σ) (b : Endpoint) (O : Operation α) (Ok : List NetworkEvent → NetworkEvent → Prop)
    (J : List NetworkEvent → α → Prop) : Prop where
  other : ∀ {past op e}, J past op → Ok past e → J (past ++ [e]) op
  own : ∀ {past op event}, J past op → (∀ req dest destId now, event ≠ .sendRequest req dest destId now) →
    J (past ++ [.host b event]) op
  send : ∀ {past op todo now}, J past op → todo ∈ O.todos op →
    J (past ++ [.host b (.sendRequest todo.req todo.node.address (some todo.node.id) now)]) op
  round : ∀ {past op host rng}, J past op → (net.after env past).hosts b = some host →
    J past (O.step op (.round host.dht.buckets.getAllVerified host.dht.ourId rng))
  failed : ∀ {past op i error now}, J past op → J past (O.step op (.reply i (.error error) now))
  responded : ∀ {past op i todo reply now}, J past op → (O.todos op)[i]? = some todo → Given env net past b todo reply →
    J past (O.step op (.reply i (.ok reply) now))

variable {net : Network σ} {b : Endpoint} {O : Operation α} {self : CallsHistory σ α}

/-- No request waits where none has been sent. -/
theorem not_sent_map_none {calls : Calls σ α} {todos : List RequestTo} (h : calls.receivers = todos.map (fun _ => none))
    (todo : RequestTo) (ch : ChannelId) : ¬calls.Sent O todo ch := by
  rintro ⟨i, -, hreceiver⟩
  rw [h, List.getElem?_map] at hreceiver
  obtain ⟨_, -, hnone⟩ := Option.map_eq_some_iff.mp hreceiver
  cases hnone

/-- An operation that begins has sent nothing. -/
theorem serves_start (hcodec : env.codec.RejectsTruncated) (hstart : net.Starts env) (b : Endpoint) (O : Operation α)
    (past : List NetworkEvent) (op : α) : (start env net O past op).Serves env net b O where
  reached := rfl
  length := List.length_map _
  sent host hhost := by
    obtain ⟨log, stored, matched, htracks, -⟩ := ((Network.flows hcodec hstart past).informed hhost).matched
    exact ⟨log, stored, matched, htracks, fun todo ch hc => absurd hc (not_sent_map_none rfl todo ch)⟩
  queued todo ch hc := absurd hc (not_sent_map_none rfl todo ch)

/-- A finished request leaves as many channels as requests. -/
theorem length_finish (hO : O.Lawful) {calls : Calls σ α} (hlength : calls.receivers.length = (O.todos calls.op).length) {i : Nat}
    (hi : i < calls.receivers.length) (result : Except RustyDHTError Message) (now : Nat → Instant) :
    (calls.finish O i result now).receivers.length = (O.todos (calls.finish O i result now).op).length := by
  have htodos : O.todos (calls.finish O i result now).op = (O.todos calls.op).eraseIdx i := hO.todos_reply _ _ _ _ (hlength ▸ hi)
  have hreceivers : (calls.finish O i result now).receivers = calls.receivers.eraseIdx i := rfl
  rw [htodos, hreceivers, List.length_eraseIdx, List.length_eraseIdx, hlength]

/-- Every event leaves the socket of the host with the requests of the operation. -/
theorem Serves.step (hO : O.Lawful) (h : self.Serves env net b O) (e : CallEvent) : (self.step env b O e).Serves env net b O := by
  have hacts := self.calls.acts env b O e
  have hstep : self.step env b O e = ⟨self.past ++ self.calls.networkEvents b O e,
      { self.calls.actOn env b O e with net := Machine.run (Network.step env) self.calls.net (self.calls.networkEvents b O e) }⟩ := rfl
  rw [hstep]
  generalize self.calls.networkEvents b O e = evs, self.calls.actOn env b O e = calls' at hacts
  have hnet : Machine.run (Network.step env) self.calls.net evs = net.after env (self.past ++ evs) := by
    unfold Network.after
    rw [Machine.run_append, h.reached]
    rfl
  -- One event of the network keeps what has been sent, and what the operation waits for was sent before.
  have hone : ∀ {e'} {calls' : Calls σ α}, evs = [e'] → calls'.receivers.length = (O.todos calls'.op).length →
      (∀ todo ch, calls'.Sent O todo ch → self.calls.Sent O todo ch) →
      Serves env net b O ⟨self.past ++ evs, { calls' with net := Machine.run (Network.step env) self.calls.net evs }⟩ := by
    intro e' calls' hevs hlength hsent
    refine ⟨hnet, hlength, fun host hhost => ?_, fun todo ch hc => (h.queued todo ch (hsent todo ch hc)).append evs⟩
    rw [hevs] at hhost
    exact (Network.hasSent_step h.sent e' host hhost).mono hsent
  have hat : ∀ {i : Nat} {todo}, (O.todos self.calls.op)[i]? = some todo → i < self.calls.receivers.length := by
    intro i todo htodo
    exact h.length ▸ (List.getElem?_eq_some_iff.mp htodo).1
  cases hacts with
  | idle e panicked => exact ⟨hnet, h.length, h.sent, fun todo ch hc => (h.queued todo ch hc).append []⟩
  | other e => exact hone rfl h.length (fun _ _ hc => hc)
  | round host rng hhost =>
    exact ⟨hnet, List.length_map _, fun host' hhost' =>
      (h.sent host' hhost').mono (fun todo ch hc => absurd hc (not_sent_map_none rfl todo ch)),
      fun todo ch hc => absurd hc (not_sent_map_none rfl todo ch)⟩
  | sent host i now todo req hhost htodo htype hup =>
    refine ⟨hnet, by simpa using h.length, fun host' hhost' => ?_, fun todo' ch' hc => ?_⟩
    · exact (Network.hasSent_sendRequest hhost (h.sent host hhost) htype now host' hhost').mono
        (fun todo' ch' hc => Calls.Sent.of_set htodo hc)
    · rcases Calls.Sent.of_set htodo hc with hc | ⟨rfl, -⟩
      · exact (h.queued todo' ch' hc).append _
      · refine ⟨self.past, _, [], host, rfl, h.reached ▸ hhost, ?_⟩
        simp [DHT.sends, DHT.offers, htype, hup]
  | unsent i now todo error htodo =>
    exact hone rfl (length_finish hO h.length (hat htodo) _ _) (fun _ _ hc => hc.of_finish hO h.length (hat htodo))
  | responded e event host i task reply now hevent hhost hreceiver htask hreply =>
    have hi := (List.getElem?_eq_some_iff.mp hreceiver).1
    exact hone rfl (length_finish hO h.length hi _ _) (fun _ _ hc => hc.of_finish hO h.length hi)
  | failed e event i error now hevent hi =>
    exact hone rfl (length_finish hO h.length hi _ _) (fun _ _ hc => hc.of_finish hO h.length hi)
  | left e event panicked hevent => exact hone rfl h.length (fun _ _ hc => hc)

/-- Every event carries on what is carried on, if what else happens in the network meets the condition. -/
theorem Carries.step {Ok : List NetworkEvent → NetworkEvent → Prop} {J : List NetworkEvent → α → Prop}
    (hc : Carries env net b O Ok J) (hserves : self.Serves env net b O) (hj : J self.past self.calls.op) {e : CallEvent}
    (hok : ∀ e', e = .other e' → Ok self.past e') : J (self.step env b O e).past (self.step env b O e).calls.op := by
  have hacts := self.calls.acts env b O e
  have hpast : (self.step env b O e).past = self.past ++ self.calls.networkEvents b O e := rfl
  have hop : (self.step env b O e).calls.op = (self.calls.actOn env b O e).op := rfl
  rw [hpast, hop]
  generalize self.calls.networkEvents b O e = evs, self.calls.actOn env b O e = calls' at hacts
  cases hacts with
  | idle e panicked => exact (List.append_nil self.past).symm ▸ hj
  | other e => exact hc.other hj (hok e rfl)
  | round host rng hhost =>
    rw [List.append_nil]
    exact hc.round hj (hserves.reached ▸ hhost)
  | sent host i now todo req hhost htodo htype hup => exact hc.send hj (List.mem_of_getElem? htodo)
  | unsent i now todo error htodo => exact hc.failed (hc.send hj (List.mem_of_getElem? htodo))
  | responded e event host i task reply now hevent hhost hreceiver htask hreply =>
    have hlt := (List.getElem?_eq_some_iff.mp hreceiver).1
    have htodo := List.getElem?_eq_getElem (hserves.length ▸ hlt)
    obtain ⟨htarget, hanswers⟩ := (hserves.sent host hhost).answered ⟨i, htodo, hreceiver⟩ htask hreply
    have hqueued := hserves.queued _ _ ⟨i, htodo, hreceiver⟩
    exact hc.own (hc.responded hj htodo ⟨⟨host, task, hserves.reached ▸ hhost, htask, htarget, hreply⟩, hqueued, hanswers⟩) hevent
  | failed e event i error now hevent hi => exact hc.failed (hc.own hj hevent)
  | left e event panicked hevent => exact hc.own hj hevent

/-- What is carried on holds after every run, if all else that happens in the network meets the condition. -/
theorem Carries.run {Ok : List NetworkEvent → NetworkEvent → Prop} {J : List NetworkEvent → α → Prop} (hO : O.Lawful)
    (hc : Carries env net b O Ok J) (events : List CallEvent) (hserves : self.Serves env net b O) (hj : J self.past self.calls.op)
    (hok : Machine.StepsOk (CallsHistory.step env b O) (fun self e => ∀ e', e = .other e' → Ok self.past e') self events) :
    (Machine.run (CallsHistory.step env b O) self events).Serves env net b O ∧
      J (Machine.run (CallsHistory.step env b O) self events).past (Machine.run (CallsHistory.step env b O) self events).calls.op :=
  Machine.run_invariant_of_stepsOk (CallsHistory.step env b O) (P := fun self => self.Serves env net b O ∧ J self.past self.calls.op)
    (fun _ e h hok => ⟨h.1.step hO e, hc.step h.1 h.2 hok⟩) events self ⟨hserves, hj⟩ hok

end CallsHistory

end RustyDht
