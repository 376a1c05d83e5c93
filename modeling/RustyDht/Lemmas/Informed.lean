import RustyDht.Lemmas.Channels

/-!
# What a DHT learns from its packets

Whatever a DHT stores about other nodes it has from the packets that reach it. `Informed S P` says so in general: if every packet from an
address holds a message of which `S` says that it comes from there, and such messages only ever tell of nodes that meet `P`, then all
that is received, all that whoever waits is given, and all that is stored is so.
-/

namespace RustyDht

namespace DHT

variable {σ : Type} {env : Env σ} {s : DHT σ} {S : SocketAddr → Message → Prop} {P : Node → Prop}

/-- What is received, what was matched with requests and what is stored is as the messages tell. -/
structure Informed (S : SocketAddr → Message → Prop) (P : Node → Prop) (s : DHT σ) : Prop where
  holds : s.Holds P (fun _ => True)
  received : ∀ p ∈ s.socket.received, S p.2 p.1
  matched : ∃ log stored matched, Tracks s log stored matched ∧ ∀ x ∈ matched, S x.source x.response

/-- The messages from an address only tell of nodes that meet a condition: the sender, if it may be stored, and those that are
listed. -/
structure Trusts (env : Env σ) (S : SocketAddr → Message → Prop) (P : Node → Prop) : Prop where
  requester : ∀ {src msg req}, S src msg → msg.messageType = .request req → src.port ≠ 0 → MayStore env P msg src
  responder : ∀ {src msg res}, S src msg → msg.messageType = .response res →
    res.responderId.isValidForIp env.checksumCastagnoli src.ip = .ok true → P ⟨res.responderId, src⟩
  listed : ∀ {src msg}, S src msg → ∀ node ∈ listedNodes msg,
    node.id.isValidForIp env.checksumCastagnoli node.address.ip = .ok true → P node

/-- A new DHT has learnt nothing. -/
theorem informed_of_new {id : Option Id} {ip4Source : σ} {buckets : NodeBucketStorage} {settings : DHTSettings}
    {rng secretRng : Nat → UInt8} {random : Id} {s : DHT σ}
    (hnew : new env id ip4Source buckets settings rng secretRng random = .ok s) : s.Informed S P := by
  obtain ⟨hsocket, -, -, -, -, hawaiting⟩ := new_eq_ok hnew
  refine ⟨new_holds hnew, ?_, [], [], [], tracks_of_new hsocket hawaiting, by simp⟩
  rw [hsocket]
  simp [DHTSocket.new]

/-- The author of a response is its responder. -/
theorem getAuthorId_of_response {msg : Message} {res : ResponseSpecific} (htype : msg.messageType = .response res) :
    msg.getAuthorId = some res.responderId := by
  rw [Message.getAuthorId, htype]

/-- What is on the channel of a task that waits is a response from where it waits for one. -/
theorem Informed.source (h : s.Informed S P) {task : AwaitingTask} (htask : task ∈ s.awaiting) {reply : Message}
    (hreply : reply ∈ s.socket.channel task.receiver) : S task.target reply ∧ ∃ res, reply.messageType = .response res := by
  obtain ⟨log, stored, matched, htracks, hmatched⟩ := h.matched
  obtain ⟨x, hx, rfl, hsource, res, htype⟩ := htracks.source htask hreply
  exact ⟨hsource ▸ hmatched x hx, res, htype⟩

/-- What is stored after an event is as the messages tell. -/
theorem Informed.step_holds (h : s.Informed S P) (ht : Trusts env S P) (e : Event) : (step env s e).Holds P (fun _ => True) := by
  refine (Holds.closed env (fun _ _ => trivial)).step_of_admitted h.holds e ?_
    (fun _ _ _ _ _ _ _ _ _ h => ⟨h.buckets, h.ourId, h.toSend, h.spawned, h.awaiting⟩)
    (fun _ _ _ _ h => ⟨h.buckets, h.ourId, h.toSend, h.spawned, h.awaiting⟩)
  cases e with
  | accept throttled now shuffle =>
    intro msg addr hhead hport
    refine ⟨trivial, ?_⟩
    have hS : S addr msg := h.received (msg, addr) (List.mem_of_head? hhead)
    cases htype : msg.messageType with
    | request req => exact ht.requester hS htype hport
    | response res =>
      intro id hauthor hvalid _
      rw [getAuthorId_of_response htype] at hauthor
      obtain rfl := Option.some.inj hauthor
      exact ht.responder hS htype hvalid
    | error err =>
      intro id hauthor
      rw [Message.getAuthorId, htype] at hauthor
      cases hauthor
  | response i now nowNew nowSeen =>
    intro task reply htask hreply
    obtain ⟨hS, res, htype⟩ := h.source (List.mem_of_getElem? htask) (List.mem_of_head? hreply)
    refine ⟨?_, fun node hnode hvalid => ht.listed hS node hnode hvalid⟩
    intro id hauthor hvalid
    rw [getAuthorId_of_response htype] at hauthor
    obtain rfl := Option.some.inj hauthor
    exact ht.responder hS htype hvalid
  | routerPing routers => exact fun _ _ _ _ => trivial
  | findNodeCount routers => exact fun _ _ _ _ => trivial
  | _ => exact trivial

/-- Every event leaves what is known as the messages tell, if it is no packet that tells otherwise. -/
theorem Informed.step (h : s.Informed S P) (ht : Trusts env S P) (e : Event)
    (hpacket : ∀ buf ip port m, e = .packet buf ip port → Message.fromBytes env.codec buf = .ok m → S (.v4 ip port) m) :
    (step env s e).Informed S P := by
  obtain ⟨log, stored, matched, htracks, hmatched⟩ := h.matched
  refine ⟨h.step_holds ht e, ?_, ?_⟩
  · intro p hp
    rcases mem_step_received env htracks.wf.up htracks.wf.key hp with hold | ⟨buf, ip, port, he, hparse, hsource⟩
    · exact h.received p hold
    · rw [hsource]
      exact hpacket buf ip port p.1 he hparse
  · obtain ⟨log', matched', htracks', hadded⟩ := @Tracks.step _ env _ _ _ _ htracks e
    refine ⟨log', _, matched', htracks', fun x hx => ?_⟩
    rcases hadded x hx with hold | ⟨buf, ip, port, he, hparse, hsource⟩
    · exact hmatched x hold
    · rw [hsource]
      exact hpacket buf ip port x.response he hparse

/-! ## IPv4 -/

/-- A message from an IPv4 address, with IPv4 addresses in it. -/
def FromIpv4 (src : SocketAddr) (msg : Message) : Prop := src.isIpv4 = true ∧ msg.AllIpv4

/-- Such messages tell of nodes at IPv4 addresses only. -/
theorem trusts_fromIpv4 (env : Env σ) : Trusts env FromIpv4 (fun n => n.address.isIpv4 = true) where
  requester hS _ _ := fun _ _ _ _ => hS.1
  responder hS _ _ := hS.1
  listed {src msg} hS node hnode _ := by
    obtain ⟨-, hipv4⟩ := hS.2
    unfold listedNodes at hnode
    split at hnode
    · rename_i args htype
      rw [htype] at hipv4
      exact hipv4 node hnode
    · cases hnode

end DHT

end RustyDht
