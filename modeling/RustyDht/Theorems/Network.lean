import RustyDht.Theorems.Ipv4Only

/-!
# Messages and replies across a network

Datagrams are lost, repeated, late and out of order, and other parties send what they like. Still, whatever a host has received from
another host is a message that the other has queued for it, read back as it was sent; and whatever a host is given as a response of
another is the other's answer to a request that it had queued before.
-/

namespace RustyDht

namespace Network

variable {σ : Type} {env : Env σ} {net : Network σ} {events : List NetworkEvent} {a b : Endpoint} {host : Host σ}

/-- Every host stores what is IPv4. -/
theorem ipv4Only_of_hosts (hstart : net.Starts env) (hhost : (net.after env events).hosts a = some host) : host.dht.Ipv4Only :=
  forall_hosts (I := DHT.Ipv4Only) (fun hnew => DHT.ipv4Only_of_new hnew) (fun e h => h.step e) hstart events hhost

/-- The responses that a host has queued carry IPv4 addresses. -/
theorem Queued.allIpv4 (hstart : net.Starts env) {p : Message × SocketAddr} (h : Queued env net events a p) :
    ∀ res, p.1.messageType = .response res → res.AllIpv4 := by
  intro res hres
  obtain ⟨before, e, later, host, rfl, hhost, hp⟩ := h
  rcases DHT.mem_sends hp with ⟨throttled, now, shuffle, msg, req, res', -, hnext, -, hanswer, heq⟩ | ⟨i, now, task, rng, -, -, rfl⟩ |
    ⟨destId, now, req, -, htype⟩
  · rw [heq] at hres
    cases hres
    exact ((ipv4Only_of_hosts hstart hhost).suits hnext hanswer).1.ipv4
  · obtain ⟨req, hreq⟩ := DHT.request_messageType task host.dht.ourId host.dht.settings.readOnly rng
    rw [hreq] at hres
    cases hres
  · rw [htype] at hres
    cases hres

/-- What a host has heard from another is what the other has queued, with its interval cut down. -/
theorem Heard.exists_eq (hstart : net.Starts env) {src : SocketAddr} {m : Message} (h : Heard env net events b src m) (hsrc : src = a.addr)
    (ha : (net.hosts a).isSome = true) : ∃ msg, Queued env net events a (msg, b.addr) ∧ m = msg.truncateInterval := by
  obtain ⟨msg, hqueued, hreads⟩ := h a hsrc ha
  exact ⟨msg, hqueued, hreads.eq (hqueued.allIpv4 hstart)⟩

/-- A request is not changed by cutting an interval down. -/
theorem eq_of_truncateInterval_request {msg m : Message} {req : RequestSpecific} (h : m = msg.truncateInterval)
    (htype : m.messageType = .request req) : m = msg := by
  rw [h] at htype ⊢
  unfold Message.truncateInterval at htype ⊢
  cases hm : msg.messageType with
  | response res =>
    rw [hm] at htype
    cases htype
  | _ => rfl

/-- After a run, the next message of a host is a request that another host had queued for it, to which it responds. -/
structure Responds (env : Env σ) (net : Network σ) (before : List NetworkEvent) (a b : Endpoint) (host : Host σ) (request : Message)
    (req : RequestSpecific) (res : ResponseSpecific) : Prop where
  there : (net.after env before).hosts a = some host
  queued : Queued env net before b (request, a.addr)
  next : host.dht.NextRequest request req b.addr
  kind : responseMatchesRequest res req = true
  responder : res.responderId = host.dht.ourId

/-- A response that a host has queued for another is its answer to a request that the other had queued for it. -/
theorem Queued.responds (hcodec : env.codec.RejectsTruncated) (hstart : net.Starts env) (hb : (net.hosts b).isSome = true) {msg : Message}
    (h : Queued env net events a (msg, b.addr)) {res : ResponseSpecific} (hres : msg.messageType = .response res) :
    ∃ before throttled now shuffle later host request req, events = before ++ .host a (.accept throttled now shuffle) :: later ∧
      Responds env net before a b host request req res ∧ host.dht.Answers throttled req b.addr ∧
      ((host.dht.seen env request b.addr req.requesterId (now 0)).answer env req b.addr (now 1) shuffle).1 = some res ∧
      (msg, b.addr) ∈ host.dht.sends env (.accept throttled now shuffle) ∧ msg = DHT.replyTo request b.addr res := by
  obtain ⟨before, e, later, host, rfl, hhost, hp⟩ := h
  rcases DHT.mem_sends hp with ⟨throttled, now, shuffle, request, req, res', rfl, hnext, hanswers, hanswer, heq⟩ | ⟨i, now, task, rng, -, -, hrequest⟩ |
    ⟨destId, now, req, -, htype⟩
  · have heq : msg = DHT.replyTo request b.addr res' := heq
    have hsame : res' = res := by
      rw [heq] at hres
      exact MessageType.response.inj hres
    subst hsame
    have hsuits := ((ipv4Only_of_hosts hstart hhost).suits hnext hanswer).1
    have hheard := ((flows hcodec hstart before).informed hhost).received _ (List.mem_of_head? hnext.head)
    obtain ⟨sent, hqueued, hread⟩ := hheard.exists_eq hstart rfl hb
    have hsent : request = sent := eq_of_truncateInterval_request hread hnext.type
    exact ⟨before, throttled, now, shuffle, later, host, request, req, rfl, ⟨hhost, hsent ▸ hqueued, hnext, hsuits.kind, hsuits.responder⟩,
      hanswers, hanswer, hp, heq⟩
  · obtain ⟨req, hreq⟩ := DHT.request_messageType task host.dht.ourId host.dht.settings.readOnly rng
    obtain ⟨hmsg, -⟩ := Prod.mk.inj hrequest
    rw [← hmsg, hres] at hreq
    cases hreq
  · have htype : msg.messageType = .request req := htype
    rw [hres] at htype
    cases htype

/-- What is on the channel of a request to the address of a host is the host's answer to a request that the one who waits had queued for
it. -/
theorem answered_of_channel (hcodec : env.codec.RejectsTruncated) (hstart : net.Starts env)
    (hhost : (net.after env events).hosts b = some host) {task : AwaitingTask} (htask : task ∈ host.dht.awaiting) {reply : Message}
    (hreply : reply ∈ host.dht.socket.channel task.receiver) (htarget : task.target = a.addr) (ha : (net.hosts a).isSome = true) :
    ∃ before throttled now shuffle later host request req res,
      events = before ++ .host a (.accept throttled now shuffle) :: later ∧ Responds env net before a b host request req res ∧
      host.dht.Answers throttled req b.addr ∧
      ((host.dht.seen env request b.addr req.requesterId (now 0)).answer env req b.addr (now 1) shuffle).1 = some res ∧
      (DHT.replyTo request b.addr res, b.addr) ∈ host.dht.sends env (.accept throttled now shuffle) ∧
      reply = (DHT.replyTo request b.addr res).truncateInterval := by
  have hflows := flows hcodec hstart events
  obtain ⟨hheard, res', htype⟩ := (hflows.informed hhost).source htask hreply
  obtain ⟨msg, hqueued, hread⟩ := hheard.exists_eq hstart htarget ha
  have hb : (net.hosts b).isSome = true := by rw [← hflows.hosts, hhost]; rfl
  have hmsg : ∃ res, msg.messageType = .response res := by
    cases hm : msg.messageType with
    | response res => exact ⟨res, rfl⟩
    | _ =>
      unfold Message.truncateInterval at hread
      rw [hm] at hread
      dsimp only at hread
      rw [← hread, htype] at hm
      cases hm
  obtain ⟨res, hres⟩ := hmsg
  obtain ⟨before, throttled, now, shuffle, later, answering, request, req, hevents, hresponds, hanswers, hanswer, hsent, rfl⟩ :=
    hqueued.responds hcodec hstart hb hres
  exact ⟨before, throttled, now, shuffle, later, answering, request, req, res, hevents, hresponds, hanswers, hanswer, hsent, hread⟩

/-! ## A network to try -/

/-- The address of a host. -/
def sampleAlice : Endpoint := ⟨⟨127, 0, 0, 1⟩, 6881⟩

/-- The address of another. -/
def sampleBob : Endpoint := ⟨⟨127, 0, 0, 2⟩, 6882⟩

/-- A new DHT with the id one. -/
def sampleOtherDht : DHT Ipv4Addr :=
  expect (orPanic (DHT.new DHT.sampleEnv (some (Id.startingWith 1)) ⟨10, 0, 0, 2⟩ (.new Id.zero 8) .default (fun _ => 0) (fun _ => 0)
    Id.zero)) rfl

/-- A network of two hosts. -/
def sampleNetwork : Network Ipv4Addr where
  hosts a :=
    if a = sampleAlice then some { dht := DHT.sampleDht }
    else if a = sampleBob then some { dht := sampleOtherDht }
    else none
  inFlight := []

theorem sampleNetwork_starts : sampleNetwork.Starts DHT.sampleEnv where
  hosts a host hhost := by
    unfold sampleNetwork at hhost
    dsimp only at hhost
    split at hhost
    · obtain rfl := Option.some.inj hhost
      exact ⟨_, _, _, _, _, _, _, DHT.sampleDht_new⟩
    · split at hhost
      · obtain rfl := Option.some.inj hhost
        exact ⟨some (Id.startingWith 1), ⟨10, 0, 0, 2⟩, .new Id.zero 8, .default, fun _ => 0, fun _ => 0, Id.zero, rfl⟩
      · cases hhost
  inFlight := rfl

/-- A ping of the second host. -/
def samplePing : Message :=
  { transactionId := [0, 7], version := none, requesterIp := none
    messageType := .request (.pingRequest { requesterId := Id.startingWith 1 }), readOnly := none }

/-- The second host pings the first, and the ping is delivered. -/
def samplePinged : List NetworkEvent :=
  [.host sampleBob (.sendRequest samplePing sampleAlice.addr none 0), .outgoing sampleBob .sent, .deliver 0]

/-- The first host replies, and the reply is delivered. -/
def sampleReplied : List NetworkEvent :=
  samplePinged ++ [.host sampleAlice (.accept false DHT.sampleClock DHT.sampleShuffle), .outgoing sampleAlice .sent, .deliver 1]

/-! ## Messages -/

/-- In every run of a network, whatever a host has received as coming from the address of a host is a message that this host has queued
for it before, as it was sent but for its interval, which is cut down. -/
theorem received_queued (hcodec : env.codec.RejectsTruncated) (hstart : net.Starts env)
    (hhost : (net.after env events).hosts b = some host) {m : Message} {src : SocketAddr} (hm : (m, src) ∈ host.dht.socket.received)
    (hsrc : src = a.addr) (ha : (net.hosts a).isSome = true) :
    ∃ msg, Queued env net events a (msg, b.addr) ∧ m = msg.truncateInterval :=
  (((flows hcodec hstart events).informed hhost).received (m, src) hm).exists_eq hstart hsrc ha

/-- A ping. -/
theorem received_queued_ping : ∃ msg, Queued DHT.sampleEnv sampleNetwork samplePinged sampleBob (msg, sampleAlice.addr) ∧
    samplePing = msg.truncateInterval := by
  have hsome : ((sampleNetwork.after DHT.sampleEnv samplePinged).hosts sampleAlice).map (fun host => host.dht.socket.received) =
      some [(samplePing, sampleBob.addr)] := by decide +kernel
  obtain ⟨host, hhost, hreceived⟩ := Option.map_eq_some_iff.mp hsome
  refine received_queued Bencode.codec_rejectsTruncated sampleNetwork_starts hhost ?_ rfl rfl
  rw [hreceived]
  exact List.mem_singleton_self _

/-! ## Replies -/

/-- In every run of a network, whatever is on the channel of a request to the address of a host is the response of this host to a request
that the one who waits had queued for it before: of the kind that answers this request, with its transaction id, under the id that the
host had, and as it was sent but for its interval, which is cut down. -/
theorem channel_responds (hcodec : env.codec.RejectsTruncated) (hstart : net.Starts env)
    (hhost : (net.after env events).hosts b = some host) {task : AwaitingTask} (htask : task ∈ host.dht.awaiting) {reply : Message}
    (hreply : reply ∈ host.dht.socket.channel task.receiver) (htarget : task.target = a.addr) (ha : (net.hosts a).isSome = true) :
    ∃ before throttled now shuffle later host request req res,
      events = before ++ .host a (.accept throttled now shuffle) :: later ∧ Responds env net before a b host request req res ∧
      (DHT.replyTo request b.addr res, b.addr) ∈ host.dht.sends env (.accept throttled now shuffle) ∧
      reply = (DHT.replyTo request b.addr res).truncateInterval := by
  obtain ⟨before, throttled, now, shuffle, later, answering, request, req, res, hevents, hresponds, -, -, hsent, hread⟩ :=
    answered_of_channel hcodec hstart hhost htask hreply htarget ha
  exact ⟨before, throttled, now, shuffle, later, answering, request, req, res, hevents, hresponds, hsent, hread⟩

/-- The reply to a ping. -/
theorem channel_responds_ping : ∃ before throttled now shuffle later host request req res,
    sampleReplied = before ++ .host sampleAlice (.accept throttled now shuffle) :: later ∧
      Responds DHT.sampleEnv sampleNetwork before sampleAlice sampleBob host request req res ∧
      (DHT.replyTo request sampleBob.addr res, sampleBob.addr) ∈ host.dht.sends DHT.sampleEnv (.accept throttled now shuffle) ∧
      DHT.replyTo samplePing sampleBob.addr (.pingResponse { responderId := Id.zero }) =
        (DHT.replyTo request sampleBob.addr res).truncateInterval := by
  have hsome : ((sampleNetwork.after DHT.sampleEnv sampleReplied).hosts sampleBob).map
      (fun host => (host.dht.awaiting.map (fun task => (task.target, task.receiver)), host.dht.socket.channel 0)) =
        some ([(sampleAlice.addr, 0)], [DHT.replyTo samplePing sampleBob.addr (.pingResponse { responderId := Id.zero })]) := by
    decide +kernel
  obtain ⟨host, hhost, hboth⟩ := Option.map_eq_some_iff.mp hsome
  obtain ⟨hawaiting, hchannel⟩ := Prod.mk.inj hboth
  obtain ⟨task, htask, hpair⟩ := List.map_eq_singleton_iff.mp hawaiting
  obtain ⟨htarget, hreceiver⟩ := Prod.mk.inj hpair
  refine channel_responds Bencode.codec_rejectsTruncated sampleNetwork_starts hhost (htask ▸ List.mem_singleton_self _) ?_ htarget rfl
  rw [hreceiver, hchannel]
  exact List.mem_singleton_self _

end Network

end RustyDht
