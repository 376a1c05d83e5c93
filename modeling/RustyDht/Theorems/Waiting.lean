import RustyDht.Lemmas.Channels
import RustyDht.Theorems.OutboundRequests

/-!
# Nobody waits for ever

Who sends a request waits on a channel whose sender is stored with the request. Once the cleanup finds the request too old the sender is
gone for good, so that the wait ends: with the one message that was put on the channel before, which answers the request, or with none.
-/

namespace RustyDht

namespace DHT

variable {σ : Type} {env : Env σ} {s : DHT σ} {log : List (Message × SocketAddr)} {stored : List RequestInfo}
  {matched : List RequestMatch}

/-- The sender of a channel is stored with a request. -/
def HasSender (s : DHT σ) (ch : ChannelId) : Prop :=
  ∃ tid r, s.socket.requestStorage.requests tid = some r ∧ r.responseChannel = some ch

/-- What a run of a DHT has stored, and what was matched, after every run. -/
theorem Tracks.run (ht : Tracks s log stored matched) (events : List Event) :
    ∃ log' matched', Tracks (Machine.run (DHT.step env) s events) log' (stored ++ Machine.outputs (DHT.step env) storedBy s events) matched' := by
  induction events generalizing s log stored matched with
  | nil => exact ⟨log, matched, by simpa using ht⟩
  | cons e events ih =>
    obtain ⟨log', matched', hstep, -⟩ := @Tracks.step _ env _ _ _ _ ht e
    obtain ⟨log'', matched'', hrun⟩ := ih hstep
    refine ⟨log'', matched'', ?_⟩
    rwa [Machine.run_cons, Machine.outputs_cons, ← List.append_assoc]

/-- A new request is stored under its transaction id, and nothing else is. -/
theorem requests_sendTo {socket : DHTSocket} {toSend : Message} {dest : SocketAddr} {destId : Option Id} {now : Instant} {tid : TransactionId}
    {r : RequestInfo} (h : (socket.sendTo toSend dest destId now).requestStorage.requests tid = some r) :
    socket.requestStorage.requests tid = some r ∨ r = socket.newRequestInfo toSend dest destId now := by
  by_cases hreq : ∃ req, toSend.messageType = .request req
  · obtain ⟨req, htype⟩ := hreq
    rw [DHTSocket.sendTo_of_request socket htype] at h
    by_cases htid : tid = .from (socket.newRequestInfo toSend dest destId now).packet.transactionId
    · subst htid
      simp [OutboundRequestStorage.addRequest] at h
      exact .inr h.symm
    · simp [OutboundRequestStorage.addRequest, htid] at h
      exact .inl h
  · rw [DHTSocket.sendTo_of_not_request socket (fun req htype => hreq ⟨req, htype⟩)] at h
    exact .inl h

/-- What is stored after an event was stored before, or the event stored it. -/
theorem Tracks.requests_step (ht : Tracks s log stored matched) (e : Event) {tid : TransactionId} {r : RequestInfo}
    (h : (DHT.step env s e).socket.requestStorage.requests tid = some r) :
    s.socket.requestStorage.requests tid = some r ∨ r ∈ s.storedBy e := by
  rw [step_socket] at h
  cases e with
  | packet buf ip port =>
    unfold socketAfter at h
    dsimp only at h
    rcases DHTSocket.backgroundIoIncoming_cases env.codec (s := s.socket) ht.wf.up buf (.v4 ip port) ht.wf.key with
      ⟨-, hs⟩ | ⟨m, -, ⟨-, hs⟩ | ⟨-, -, hs⟩ | ⟨r', -, -, hs⟩⟩
    · exact .inl (hs ▸ h)
    · exact .inl (by rw [hs] at h; exact h)
    · exact .inl (hs ▸ h)
    · rw [hs] at h
      by_cases htid : tid = .from r'.packet.transactionId
      · simp [htid] at h
      · simp only [Function.update_of_ne htid] at h
        exact .inl h
  | outgoing result =>
    obtain ⟨toSend, -, outgoingUp, hs⟩ := DHTSocket.backgroundIoOutgoing_eq env.codec s.socket result
    rw [socketAfter, hs] at h
    exact .inl h
  | requestCleanup now => exact .inl (OutboundRequestStorage.pruneOlderThan_eq_some h)
  | runSpawned i now rng =>
    unfold socketAfter at h
    unfold storedBy
    dsimp only at h ⊢
    cases hspawned : s.spawned[i]? with
    | none =>
      rw [hspawned] at h
      exact .inl h
    | some task =>
      rw [hspawned] at h
      dsimp only at h ⊢
      split at h
      · exact .inl h
      · rename_i hpoison
        rw [if_neg hpoison]
        exact (requests_sendTo h).imp_right (fun hr => by simp [hr])
  | sendRequest req dest destId now =>
    unfold socketAfter at h
    unfold storedBy
    dsimp only at h ⊢
    revert h
    cases req.messageType with
    | request req' =>
      intro h
      exact (requests_sendTo h).imp_right (fun hr => List.mem_singleton.mpr hr)
    | response res => exact fun h => .inl h
    | error err => exact fun h => .inl h
  | _ => exact .inl h

/-- Once the sender of a stored request's channel is gone it does not come back. -/
theorem Tracks.hasSender_step (ht : Tracks s log stored matched) {r : RequestInfo} (hr : r ∈ stored) {ch : ChannelId}
    (hch : r.responseChannel = some ch) {e : Event} (h : (DHT.step env s e).HasSender ch) : s.HasSender ch := by
  obtain ⟨tid, r', hstored, hch'⟩ := h
  rcases ht.requests_step e hstored with hold | hnew
  · exact ⟨tid, r', hold, hch'⟩
  · obtain ⟨log', matched', htracks, -⟩ := @Tracks.step _ env _ _ _ _ ht e
    have hsame : r' = r := List.inj_on_of_nodup_map htracks.wf.distinct (List.mem_append_right _ hnew) (List.mem_append_left _ hr)
      (hch'.trans hch.symm)
    have hnodup : ((stored ++ s.storedBy e).map (·.responseChannel)).Nodup := htracks.wf.distinct
    rw [List.map_append] at hnodup
    exact absurd rfl ((List.nodup_append.mp hnodup).2.2 _ (List.mem_map_of_mem hr) _ (List.mem_map_of_mem (hsame ▸ hnew)))

/-- In no later state does the sender of a stored request's channel come back. -/
theorem Tracks.hasSender_run (ht : Tracks s log stored matched) {r : RequestInfo} (hr : r ∈ stored) {ch : ChannelId}
    (hch : r.responseChannel = some ch) (events : List Event) (h : (Machine.run (DHT.step env) s events).HasSender ch) :
    s.HasSender ch := by
  induction events generalizing s log stored matched with
  | nil => exact h
  | cons e events ih =>
    obtain ⟨log', matched', hstep, -⟩ := @Tracks.step _ env _ _ _ _ ht e
    exact ht.hasSender_step hr hch (ih hstep (List.mem_append_left _ hr) h)

/-- The cleanup takes the sender of a request's channel if the request is too old. -/
theorem Tracks.not_hasSender_requestCleanup (ht : Tracks s log stored matched) {r : RequestInfo} (hr : r ∈ stored) {ch : ChannelId}
    (hch : r.responseChannel = some ch) {now time : Instant} (htime : Instant.checkedSub now DHTSocket.pruneAge = some time)
    (hold : r.createdAt < time) : ¬(DHT.step env s (.requestCleanup now)).HasSender ch := by
  rintro ⟨tid, r', hstored, hch'⟩
  rw [step_socket] at hstored
  have hkept := hstored
  simp only [socketAfter, DHTSocket.requestCleanup, OutboundRequestStorage.pruneOlderThan, htime] at hkept
  obtain ⟨hbefore, hyoung⟩ := Option.filter_eq_some_iff.mp hkept
  have hsame : r' = r := List.inj_on_of_nodup_map ht.wf.distinct (ht.wf.live tid r' hbefore).1 hr (hch'.trans hch.symm)
  subst hsame
  exact Nat.not_le_of_lt hold (of_decide_eq_true hyoung)

/-! ## Every run -/

/-- What becomes of the wait for a request that was stored too long ago: its sender is gone, and its channel holds nothing or one message,
which answers the request. -/
structure Settled (dht : DHT σ) (r : RequestInfo) (ch : ChannelId) : Prop where
  sender : ¬dht.HasSender ch
  answered : dht.socket.channel ch = [] ∨ ∃ reply source, dht.socket.channel ch = [reply] ∧ r.AnsweredBy reply source

/-- A channel whose sender is gone holds nothing or one answer. -/
theorem Tracks.settled (ht : Tracks s log stored matched) {r : RequestInfo} (hr : r ∈ stored) {ch : ChannelId}
    (hch : r.responseChannel = some ch) (hsender : ¬s.HasSender ch) : s.Settled r ch where
  sender := hsender
  answered := by
    have hlength : (s.socket.channel ch).length ≤ 1 := by
      have hchannels : s.socket.channel ch = (matched.filter (fun x => x.request.responseChannel = some ch)).map (·.response) :=
        ht.wf.channels ch
      rw [hchannels, List.length_map]
      exact ht.wf.matched_channel_length ch
    rcases hreplies : s.socket.channel ch with _ | ⟨reply, _ | ⟨other, rest⟩⟩
    · exact .inl rfl
    · obtain ⟨x, -, -, -, hanswered⟩ := ht.matched_of_mem hr hch (hreplies ▸ List.mem_cons_self)
      exact .inr ⟨reply, x.source, rfl, hanswered⟩
    · rw [hreplies] at hlength
      simp at hlength

/-- In every run of a new DHT, from the first cleanup on that finds a request older than ten seconds, whoever waits for its response does
not wait any longer: the sender of its channel is gone for good, and there is nothing on the channel, or the one message that answers it. -/
theorem run_settled (env : Env σ) {id : Option Id} {ip4Source : σ} {buckets : NodeBucketStorage} {settings : DHTSettings}
    {rng secretRng : Nat → UInt8} {random : Id} {start : DHT σ}
    (hnew : new env id ip4Source buckets settings rng secretRng random = .ok start) (before after : List Event) {r : RequestInfo}
    (hr : r ∈ Machine.outputs (DHT.step env) storedBy start before) {ch : ChannelId} (hch : r.responseChannel = some ch)
    {now time : Instant} (htime : Instant.checkedSub now DHTSocket.pruneAge = some time) (hold : r.createdAt < time) :
    (Machine.run (DHT.step env) start (before ++ .requestCleanup now :: after)).Settled r ch := by
  obtain ⟨hsocket, -, -, -, -, hawaiting⟩ := new_eq_ok hnew
  have hruns : ∀ events, ∃ log matched, Tracks (Machine.run (DHT.step env) start events) log
      (Machine.outputs (DHT.step env) storedBy start events) matched :=
    fun events => by simpa using (tracks_of_new hsocket hawaiting).run events
  obtain ⟨log, matched, hbefore⟩ := hruns (before ++ [.requestCleanup now])
  obtain ⟨log', matched', hafter⟩ := hruns (before ++ .requestCleanup now :: after)
  have hstored : ∀ events, r ∈ Machine.outputs (DHT.step env) storedBy start (before ++ events) := by
    intro events
    rw [Machine.outputs_append]
    exact List.mem_append_left _ hr
  refine hafter.settled (hstored _) hch (fun hsender => ?_)
  rw [← List.singleton_append, ← List.append_assoc, Machine.run_append] at hsender
  have hcleaned : (DHT.step env (Machine.run (DHT.step env) start before) (.requestCleanup now)).HasSender ch := by
    have hthen := hbefore.hasSender_run (hstored _) hch after hsender
    rwa [Machine.run_append] at hthen
  obtain ⟨log, matched, hbefore⟩ := hruns before
  exact hbefore.not_hasSender_requestCleanup hr hch htime hold hcleaned

/-- A request that nobody answers, and the cleanup eleven seconds later. -/
theorem run_settled_unanswered : (Machine.run (DHT.step sampleEnv) sampleDht [.sendRequest samplePeersRequest (.v4 ⟨127, 0, 0, 1⟩ 6881) none 0,
    .requestCleanup (Duration.fromSecs 11)]).Settled
      { addr := .v4 ⟨127, 0, 0, 1⟩ 6881, id := none, packet := samplePeersRequest, createdAt := 0, responseChannel := some 0 } 0 :=
  run_settled sampleEnv sampleDht_new [.sendRequest samplePeersRequest (.v4 ⟨127, 0, 0, 1⟩ 6881) none 0] [] (by decide +kernel) rfl
    (show Instant.checkedSub (Duration.fromSecs 11) DHTSocket.pruneAge = some (Duration.fromSecs 1) by decide +kernel) (by decide)

end DHT

end RustyDht
