import RustyDht.Theorems.Network

/-!
# The contacts of a network are genuine

In a network of hosts that run this program and nobody else, whatever nodes a host has stored, whether it has asked them or has only been
told of them by a third, are hosts, under ids that they have had, and none of them is read-only. What is told is true when it is sent, so
what is stored is true when it is read; `Truthful` says what a message tells.
-/

namespace RustyDht

namespace Network

variable {σ : Type} {env : Env σ} {net : Network σ} {past : List NetworkEvent} {a b : Endpoint} {host : Host σ} {K K' : Node → Prop}

/-- In a run, the node has been a host under this id, and not a read-only one. -/
def Known (env : Env σ) (net : Network σ) (past : List NetworkEvent) (node : Node) : Prop :=
  ∃ a before later host, node.address = a.addr ∧ past = before ++ later ∧ (net.after env before).hosts a = some host ∧
    host.dht.ourId = node.id ∧ host.dht.settings.readOnly = false

/-- The applications only ask to send requests under an id that the host has had, or that say that they are read-only. -/
def Honest (env : Env σ) (net : Network σ) (events : List NetworkEvent) : Prop :=
  ∀ before a req dest destId now later, events = before ++ .host a (.sendRequest req dest destId now) :: later →
    ∀ r, req.messageType = .request r → req.readOnly ≠ some true → Known env net before ⟨r.requesterId, a.addr⟩

/-- Nobody but the hosts sends anything. -/
def OnlyHosts (events : List NetworkEvent) : Prop := ∀ bytes src dst, .inject bytes src dst ∉ events

/-- What a message from a host tells of nodes is so: of the host itself, and of those it lists. -/
structure Truthful (K : Node → Prop) (a : Endpoint) (msg : Message) : Prop where
  requester : ∀ req, msg.messageType = .request req → msg.readOnly ≠ some true → K ⟨req.requesterId, a.addr⟩
  responder : ∀ res, msg.messageType = .response res → K ⟨res.responderId, a.addr⟩
  listed : ∀ node ∈ DHT.listedNodes msg, K node

/-- A message that is read as coming from a host is one that the host has queued. -/
def Told (env : Env σ) (net : Network σ) (past : List NetworkEvent) (b : Endpoint) (src : SocketAddr) (m : Message) : Prop :=
  ∃ a msg, src = a.addr ∧ Queued env net past a (msg, b.addr) ∧ m = msg.truncateInterval

theorem Known.append {node : Node} (h : Known env net past node) (more : List NetworkEvent) : Known env net (past ++ more) node := by
  obtain ⟨a, before, later, host, haddr, rfl, hhost⟩ := h
  exact ⟨a, before, later ++ more, host, haddr, by rw [List.append_assoc], hhost⟩

theorem Told.append {src : SocketAddr} {m : Message} (h : Told env net past b src m) (more : List NetworkEvent) :
    Told env net (past ++ more) b src m := by
  obtain ⟨a, msg, hsrc, hqueued, hm⟩ := h
  exact ⟨a, msg, hsrc, hqueued.append more, hm⟩

theorem Honest.of_append {more : List NetworkEvent} (h : Honest env net (past ++ more)) : Honest env net past := by
  intro before a req dest destId now later hpast
  refine h before a req dest destId now (later ++ more) ?_
  rw [hpast]
  simp

/-- A host that is not read-only is known. -/
theorem known_self (hhost : (net.after env past).hosts a = some host) (hreadOnly : host.dht.settings.readOnly = false) :
    Known env net past ⟨host.dht.ourId, a.addr⟩ := ⟨a, past, [], host, rfl, (List.append_nil past).symm, hhost, rfl, hreadOnly⟩

theorem Truthful.mono {msg : Message} (h : Truthful K a msg) (hK : ∀ node, K node → K' node) : Truthful K' a msg where
  requester req htype hreadOnly := hK _ (h.requester req htype hreadOnly)
  responder res htype := hK _ (h.responder res htype)
  listed node hnode := hK _ (h.listed node hnode)

/-- Cutting the interval down changes nothing that a message tells. -/
theorem Truthful.truncateInterval {msg : Message} (h : Truthful K a msg) : Truthful K a msg.truncateInterval := by
  obtain ⟨tid, version, ip, type, readOnly⟩ := msg
  cases type with
  | request req => exact h
  | error err => exact h
  | response res =>
    refine ⟨fun req htype => ?_, fun res' htype => ?_, ?_⟩
    · cases htype
    · obtain rfl := MessageType.response.inj htype
      rw [DHT.responderId_truncateInterval]
      exact h.responder res rfl
    · cases res with
      | sampleInfoHashesResponse arguments =>
        intro node hnode
        cases hnode
      | _ => exact h.listed

/-- Where messages are truthful, what they tell of is so. -/
theorem trusts_told (htruthful : ∀ a p, Queued env net past a p → Truthful K a p.1) (b : Endpoint) :
    DHT.Trusts env (Told env net past b) K where
  requester {src msg req} htold htype _ := by
    intro id hauthor _ hreadOnly
    obtain ⟨a, sent, rfl, hqueued, rfl⟩ := htold
    rw [DHT.getAuthorId_of_request htype] at hauthor
    obtain rfl := Option.some.inj hauthor
    exact (htruthful a _ hqueued).truncateInterval.requester req htype hreadOnly
  responder {src msg res} htold htype _ := by
    obtain ⟨a, sent, rfl, hqueued, rfl⟩ := htold
    exact (htruthful a _ hqueued).truncateInterval.responder res htype
  listed {src msg} htold node hnode _ := by
    obtain ⟨a, sent, rfl, hqueued, rfl⟩ := htold
    exact (htruthful a _ hqueued).truncateInterval.listed node hnode

/-! ## What is sent is true -/

/-- The nodes stored once a requester has been seen are among those known. -/
theorem allNodes_seen {s : DHT σ} {S : SocketAddr → Message → Prop} (h : s.Informed S K) (ht : DHT.Trusts env S K) {request : Message}
    {req : RequestSpecific} {addr : SocketAddr} (hnext : s.NextRequest request req addr) (hport : addr.port ≠ 0) (now : Instant) :
    (s.seen env request addr req.requesterId now).buckets.AllNodes K := by
  unfold DHT.seen
  dsimp only
  split
  · rename_i hadd
    have hS : S addr request := h.received _ (List.mem_of_head? hnext.head)
    have hnode : K ⟨req.requesterId, addr⟩ := ht.requester hS hnext.type hport req.requesterId
      (DHT.getAuthorId_of_request hnext.type) hadd.1 hadd.2
    exact h.holds.buckets.addOrUpdate env.sort hnode false now now
  · exact h.holds.buckets

/-- The nodes that a reply lists are among those stored, with the requester. -/
theorem listed_reply {s : DHT σ} {S : SocketAddr → Message → Prop} (h : s.Informed S K) (ht : DHT.Trusts env S K) {request : Message}
    {req : RequestSpecific} {addr : SocketAddr} (hnext : s.NextRequest request req addr) (hport : addr.port ≠ 0) {now : Nat → Instant}
    {shuffle : PartialShuffle} {res : ResponseSpecific}
    (hanswer : ((s.seen env request addr req.requesterId (now 0)).answer env req addr (now 1) shuffle).1 = some res) :
    ∀ node ∈ DHT.listedNodes (DHT.replyTo request addr res), K node := by
  have hseen := allNodes_seen h ht hnext hport (now 0)
  intro node hnode
  unfold DHT.listedNodes DHT.replyTo at hnode
  dsimp only at hnode
  cases req with
  | findNodeRequest arguments =>
    obtain rfl := Option.some.inj hanswer
    obtain ⟨w, hw, rfl⟩ := NodeBucketStorage.mem_getNearestNodes hnode
    exact hseen.verified w hw
  | announcePeerRequest arguments =>
    have hping : res = .pingResponse { responderId := s.ourId } := by
      unfold DHT.answer at hanswer
      dsimp only at hanswer
      split at hanswer
      · exact (Option.some.inj hanswer).symm
      · cases hanswer
    rw [hping] at hnode
    cases hnode
  | _ =>
    obtain rfl := Option.some.inj hanswer
    cases hnode

/-- What a host sends in a step is true, if what it knows is. -/
theorem truthful_of_sends {S : SocketAddr → Message → Prop} (hhost : (net.after env past).hosts a = some host)
    (hinformed : host.dht.Informed S (Known env net past)) (ht : DHT.Trusts env S (Known env net past)) {e : DHT.Event}
    (hhonest : Honest env net (past ++ [.host a e])) {p : Message × SocketAddr} (hp : p ∈ host.dht.sends env e) :
    Truthful (Known env net past) a p.1 := by
  rcases DHT.mem_sends hp with ⟨throttled, now, shuffle, request, req, res, rfl, hnext, hanswers, hanswer, heq⟩ |
    ⟨i, now, task, rng, -, -, rfl⟩ | ⟨destId, now, req, rfl, htype⟩
  · have hresponder : res.responderId = host.dht.ourId := by
      cases req with
      | announcePeerRequest arguments =>
        unfold DHT.answer at hanswer
        dsimp only at hanswer
        split at hanswer
        · rw [← Option.some.inj hanswer]
          rfl
        · cases hanswer
      | _ =>
        obtain rfl := Option.some.inj hanswer
        rfl
    rw [heq]
    refine ⟨fun req htype => ?_, fun res' htype => ?_, listed_reply hinformed ht hnext hanswers.port hanswer⟩
    · cases htype
    · obtain rfl := MessageType.response.inj htype
      rw [hresponder]
      exact known_self hhost hanswers.readOnly
  · refine ⟨?_, ?_, ?_⟩
    · intro req htype hreadOnly
      have hid := DHT.request_getAuthorId task host.dht.ourId host.dht.settings.readOnly rng
      rw [DHT.getAuthorId_of_request htype] at hid
      rw [DHT.request_readOnly] at hreadOnly
      rw [Option.some.inj hid]
      exact known_self hhost (Bool.eq_false_of_not_eq_true (fun h => hreadOnly (congrArg some h)))
    · intro res htype
      obtain ⟨req, hreq⟩ := DHT.request_messageType task host.dht.ourId host.dht.settings.readOnly rng
      have htype : (DHT.SpawnedTask.request task host.dht.ourId host.dht.settings.readOnly rng).messageType = .response res := htype
      rw [hreq] at htype
      cases htype
    · intro node hnode
      cases task with
      | ping target targetId => cases hnode
      | findNode dest destId target => cases hnode
  · refine ⟨?_, ?_, ?_⟩
    · exact fun r hr hreadOnly => hhonest past a p.1 p.2 destId now [] rfl r hr hreadOnly
    · intro res hres
      rw [htype] at hres
      cases hres
    · intro node hnode
      unfold DHT.listedNodes at hnode
      rw [htype] at hnode
      cases hnode

/-! ## Every run -/

/-- What is in flight is from hosts, where nobody else sends anything. -/
theorem isSome_src (hstart : net.Starts env) (honly : OnlyHosts past) :
    ∀ d ∈ (net.after env past).inFlight, (net.hosts d.src).isSome = true := by
  induction past using List.reverseRecOn with
  | nil =>
    intro d hd
    have hd : d ∈ net.inFlight := hd
    rw [hstart.inFlight] at hd
    cases hd
  | append_singleton past e ih =>
    intro d hd
    rw [after_append] at hd
    have hbefore : OnlyHosts past := fun bytes src dst h => honly bytes src dst (List.mem_append_left _ h)
    rcases mem_inFlight_step hd with hd | ⟨host, msg, hhost, -⟩ | ⟨rfl, -⟩
    · exact ih hbefore d hd
    · have hsame : ∀ events, ((net.after env events).hosts d.src).isSome = (net.hosts d.src).isSome := by
        intro events
        induction events using List.reverseRecOn with
        | nil => rfl
        | append_singleton events e ih => rw [after_append, isSome_hosts_step, ih]
      rw [← hsame past, hhost]
      rfl
    · exact absurd (List.mem_append_right _ (List.mem_singleton_self _)) (honly d.bytes d.src d.dst)

/-- Whatever has been queued in a run has been queued before its last event, or by it. -/
theorem queued_append_singleton {e : NetworkEvent} {p : Message × SocketAddr} (h : Queued env net (past ++ [e]) a p) :
    Queued env net past a p ∨ ∃ e' host, e = .host a e' ∧ (net.after env past).hosts a = some host ∧ p ∈ host.dht.sends env e' := by
  obtain ⟨before, e', later, host, heq, hhost, hp⟩ := h
  rcases List.eq_nil_or_concat later with rfl | ⟨rest, last, rfl⟩
  · obtain ⟨rfl, hlast⟩ := List.append_inj' heq rfl
    obtain rfl := List.singleton_inj.mp hlast
    exact .inr ⟨e', host, rfl, hhost, hp⟩
  · rw [List.concat_eq_append, ← List.cons_append, ← List.append_assoc] at heq
    obtain ⟨rfl, -⟩ := List.append_inj' heq rfl
    exact .inl ⟨before, e', rest, host, rfl, hhost, hp⟩

/-- After every run of a network of hosts, what has been queued is true, and what each host knows it was told. -/
theorem truthful_and_informed (hcodec : env.codec.RejectsTruncated) (hstart : net.Starts env) (honly : OnlyHosts past)
    (hhonest : Honest env net past) :
    (∀ a p, Queued env net past a p → Truthful (Known env net past) a p.1) ∧
      ∀ b host, (net.after env past).hosts b = some host → host.dht.Informed (Told env net past b) (Known env net past) := by
  induction past using List.reverseRecOn with
  | nil =>
    refine ⟨?_, fun b host hhost => ?_⟩
    · rintro a p ⟨before, e, later, host, heq, -⟩
      exact absurd heq.symm (by simp)
    · obtain ⟨id, ip4Source, buckets, settings, rng, secretRng, random, hnew⟩ := hstart.hosts b host hhost
      exact DHT.informed_of_new hnew
  | append_singleton past e ih =>
    have hbefore : OnlyHosts past := fun bytes src dst h => honly bytes src dst (List.mem_append_left _ h)
    obtain ⟨htruthful, hinformed⟩ := ih hbefore hhonest.of_append
    have hqueued : ∀ a p, Queued env net (past ++ [e]) a p → Truthful (Known env net (past ++ [e])) a p.1 := by
      intro a p hp
      have hK : ∀ node, Known env net past node → Known env net (past ++ [e]) node := fun node h => h.append [e]
      rcases queued_append_singleton hp with hp | ⟨e', host, rfl, hhost, hp⟩
      · exact (htruthful a p hp).mono hK
      · exact (truthful_of_sends hhost (hinformed a host hhost) (trusts_told htruthful a) hhonest hp).mono hK
    refine ⟨hqueued, fun b host' hhost' => ?_⟩
    rw [after_append] at hhost'
    obtain ⟨host, hhost, hbecomes⟩ := becomes_of_step hhost'
    have hearlier : host.dht.Informed (Told env net (past ++ [e]) b) (Known env net (past ++ [e])) :=
      (hinformed b host hhost).mono (fun _ _ h => h.append [e]) (fun _ h => h.append [e])
    refine becomes_invariant (I := fun b s => s.Informed (Told env net (past ++ [e]) b) (Known env net (past ++ [e]))) ?_ ?_
      hbecomes hearlier
    · intro b s e' hs hnot
      exact hs.step (trusts_told hqueued b) e' (fun buf ip port m he => absurd he (hnot buf ip port))
    · intro d s i _ hd hs
      refine hs.step (trusts_told hqueued d.dst) (.packet (d.bytes.take Host.bufSize) d.src.ip d.src.port) ?_
      intro buf ip port m he hread
      cases he
      have hmem := List.mem_of_getElem? hd
      have hsrc := isSome_src hstart hbefore d hmem
      have hheard := heard_of_read hcodec ((flows hcodec hstart past).inFlight d hmem) hread
      obtain ⟨msg, hmsg, hm⟩ := hheard.exists_eq hstart rfl hsrc
      exact ⟨d.src, msg, rfl, hmsg.append [e], hm⟩

end Network

end RustyDht
