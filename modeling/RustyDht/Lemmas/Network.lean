import RustyDht.Lemmas.Informed
import RustyDht.Network

/-!
# What travels through a network

`Queued` says, of a run, that a host has put a message on its queue, and `Heard` that whatever is read as coming from a host is a message
that this host has queued for the reader. `Flows` is the invariant that makes it so: of what is on the queues, of what is in flight, and of
what each host has received and been given as responses. It holds after every run of a network from its start.
-/

namespace RustyDht

open Bencode (Codec)

variable {σ : Type} {env : Env σ}

namespace DHT

variable {s : DHT σ} {S S' : SocketAddr → Message → Prop} {P P' : Node → Prop}

/-- What is known is known under weaker conditions. -/
theorem Informed.mono (h : s.Informed S P) (hS : ∀ src m, S src m → S' src m) (hP : ∀ n, P n → P' n) : s.Informed S' P' := by
  obtain ⟨log, stored, matched, htracks, hmatched⟩ := h.matched
  refine ⟨⟨⟨h.holds.buckets.wf, ?_, ?_⟩, h.holds.ourId, h.holds.toSend, h.holds.spawned, h.holds.awaiting⟩, ?_, log, stored, matched,
    htracks, fun x hx => hS _ _ (hmatched x hx)⟩
  · exact fun w hw => hP _ (h.holds.buckets.verified w hw)
  · exact fun w hw => hP _ (h.holds.buckets.unverified w hw)
  · exact fun p hp => hS _ _ (h.received p hp)

end DHT

/-! ## Endpoints -/

theorem Endpoint.addr_injective : Function.Injective Endpoint.addr := by
  rintro ⟨ip, port⟩ ⟨ip', port'⟩ h
  cases h
  rfl

/-- An address with an endpoint is its address. -/
theorem SocketAddr.eq_addr_of_endpoint {addr : SocketAddr} {a : Endpoint} (h : addr.endpoint = some a) : addr = a.addr := by
  cases addr with
  | v4 ip port =>
    cases h
    rfl
  | v6 ip port flowinfo scopeId => cases h

namespace Network

variable {net now : Network σ} {past : List NetworkEvent} {a b : Endpoint} {host : Host σ}

/-! ## Queued and heard -/

/-- The hosts of a network after a run of it. -/
def after (env : Env σ) (net : Network σ) (events : List NetworkEvent) : Network σ := Machine.run (step env) net events

/-- In a run, a host has put a message to an address on its queue. -/
def Queued (env : Env σ) (net : Network σ) (events : List NetworkEvent) (a : Endpoint) (p : Message × SocketAddr) : Prop :=
  ∃ before e later host, events = before ++ .host a e :: later ∧ (net.after env before).hosts a = some host ∧
    p ∈ host.dht.sends env e

/-- A message read by a host as coming from an address: if another host is there, it has queued the message for the reader. -/
def Heard (env : Env σ) (net : Network σ) (events : List NetworkEvent) (b : Endpoint) (src : SocketAddr) (m : Message) : Prop :=
  ∀ a, src = a.addr → (net.hosts a).isSome = true →
    ∃ msg, Queued env net events a (msg, b.addr) ∧ Message.ReadsAs env.codec msg m

/-- What has been queued stays so. -/
theorem Queued.append {p : Message × SocketAddr} (h : Queued env net past a p) (later : List NetworkEvent) :
    Queued env net (past ++ later) a p := by
  obtain ⟨before, e, rest, host, rfl, hhost, hp⟩ := h
  exact ⟨before, e, rest ++ later, host, by simp, hhost, hp⟩

/-- What has been heard stays so. -/
theorem Heard.append {src : SocketAddr} {m : Message} (h : Heard env net past b src m) (later : List NetworkEvent) :
    Heard env net (past ++ later) b src m := by
  intro a hsrc ha
  obtain ⟨msg, hqueued, hreads⟩ := h a hsrc ha
  exact ⟨msg, hqueued.append later, hreads⟩

/-! ## What a step of the network does -/

/-- The host that has been put in the place of another. -/
theorem hosts_setHost_self (now : Network σ) (a : Endpoint) (host : Host σ) : (now.setHost a host).hosts a = some host :=
  Function.update_self _ _ _

/-- The other hosts stay. -/
theorem hosts_setHost_of_ne (now : Network σ) {a b : Endpoint} (hb : b ≠ a) (host : Host σ) :
    (now.setHost a host).hosts b = now.hosts b := Function.update_of_ne hb _ _

/-- What an event makes of a host: nothing, a step of its own, a turn of its outgoing task, or a datagram that it reads. -/
inductive Becomes (env : Env σ) (now : Network σ) : NetworkEvent → Endpoint → Host σ → Host σ → Prop
  | same (e : NetworkEvent) (a : Endpoint) (host : Host σ) : Becomes env now e a host host
  | own (a : Endpoint) (e : DHT.Event) (host : Host σ) : Becomes env now (.host a e) a host (host.step env e)
  | outgoing (a : Endpoint) (result : SendResult) (host : Host σ) :
    Becomes env now (.outgoing a result) a host (host.outgoing env result)
  | receive (i : Nat) (d : Datagram) (host : Host σ) (hd : now.inFlight[i]? = some d) :
    Becomes env now (.deliver i) d.dst host (host.receive env d.bytes d.src.ip d.src.port)

/-- A host that is put in the place of another is what an event has made of it, if it is. -/
theorem becomes_setHost {e : NetworkEvent} (ha : now.hosts a = some host) {host' other : Host σ} (h : Becomes env now e a host host')
    (hother : (now.setHost a host').hosts b = some other) : ∃ before, now.hosts b = some before ∧ Becomes env now e b before other := by
  by_cases hb : b = a
  · subst hb
    rw [hosts_setHost_self] at hother
    obtain rfl := Option.some.inj hother
    exact ⟨host, ha, h⟩
  · rw [hosts_setHost_of_ne now hb] at hother
    exact ⟨other, hother, .same e b other⟩

/-- The hosts after an event. -/
theorem becomes_of_step {e : NetworkEvent} {host' : Host σ} (h : (step env now e).hosts b = some host') :
    ∃ host, now.hosts b = some host ∧ Becomes env now e b host host' := by
  have hsame : now.hosts b = some host' → ∃ host, now.hosts b = some host ∧ Becomes env now e b host host' :=
    fun h => ⟨host', h, .same e b host'⟩
  unfold step at h
  cases e with
  | host a e =>
    dsimp only at h
    cases ha : now.hosts a with
    | none =>
      rw [ha] at h
      exact hsame h
    | some host =>
      rw [ha] at h
      exact becomes_setHost ha (.own a e host) h
  | outgoing a result =>
    dsimp only at h
    cases ha : now.hosts a with
    | none =>
      rw [ha] at h
      exact hsame h
    | some host =>
      rw [ha] at h
      have hhosts : (now.outgoing env a host result).hosts = (now.setHost a (host.outgoing env result)).hosts := by
        unfold Network.outgoing
        dsimp only
        split
        · split <;> rfl
        · rfl
      dsimp only at h
      rw [hhosts] at h
      exact becomes_setHost ha (.outgoing a result host) h
  | deliver i =>
    dsimp only at h
    cases hd : now.inFlight[i]? with
    | none =>
      rw [hd] at h
      exact hsame h
    | some d =>
      rw [hd] at h
      dsimp only at h
      cases ha : now.hosts d.dst with
      | none =>
        rw [ha] at h
        exact hsame h
      | some host =>
        rw [ha] at h
        exact becomes_setHost ha (.receive i d host hd) h
  | lose i => exact hsame h
  | inject bytes src dst =>
    dsimp only at h
    cases hsrc : now.hosts src with
    | none =>
      rw [hsrc] at h
      exact hsame h
    | some host =>
      rw [hsrc] at h
      exact hsame h

/-- There are hosts where there were. -/
theorem isSome_hosts_step (env : Env σ) (now : Network σ) (e : NetworkEvent) (b : Endpoint) :
    ((step env now e).hosts b).isSome = (now.hosts b).isSome := by
  have hset : ∀ {a host} (host' : Host σ), now.hosts a = some host → ((now.setHost a host').hosts b).isSome = (now.hosts b).isSome := by
    intro a host host' ha
    by_cases hb : b = a
    · rw [hb, hosts_setHost_self, ha]
      rfl
    · rw [hosts_setHost_of_ne now hb]
  unfold step
  cases e with
  | host a e =>
    dsimp only
    cases ha : now.hosts a with
    | none => rfl
    | some host => exact hset _ ha
  | outgoing a result =>
    dsimp only
    cases ha : now.hosts a with
    | none => rfl
    | some host =>
      dsimp only
      unfold Network.outgoing
      dsimp only
      split
      · split
        · exact hset _ ha
        · exact hset _ ha
      · exact hset _ ha
  | deliver i =>
    dsimp only
    cases now.inFlight[i]? with
    | none => rfl
    | some d =>
      dsimp only
      cases ha : now.hosts d.dst with
      | none => rfl
      | some host => exact hset _ ha
  | lose i => rfl
  | inject bytes src dst =>
    dsimp only
    cases now.hosts src <;> rfl

/-- What is in flight after an event was so before, or a host has sent it, or another party. -/
theorem mem_inFlight_step {e : NetworkEvent} {d : Datagram} (hd : d ∈ (step env now e).inFlight) :
    d ∈ now.inFlight ∨
      (∃ host msg, now.hosts d.src = some host ∧ (msg, d.dst.addr) ∈ host.dht.socket.toSend ∧ msg.toBytes env.codec = .ok d.bytes) ∨
      (e = .inject d.bytes d.src d.dst ∧ now.hosts d.src = none) := by
  unfold step at hd
  cases e with
  | host a e =>
    dsimp only at hd
    split at hd
    · exact .inl hd
    · exact .inl hd
  | outgoing a result =>
    dsimp only at hd
    split at hd
    · rename_i host ha
      unfold Network.outgoing at hd
      dsimp only at hd
      split at hd
      · rename_i bytes dest hsent
        split at hd
        · rename_i dst hdst
          rcases List.mem_append.mp hd with hd | hd
          · exact .inl hd
          · obtain rfl := List.mem_singleton.mp hd
            obtain ⟨msg, hmsg, hbytes⟩ := host.dht.socket.mem_of_backgroundIoOutgoing env.codec result hsent
            rw [SocketAddr.eq_addr_of_endpoint hdst] at hmsg
            exact .inr (.inl ⟨host, msg, ha, hmsg, hbytes⟩)
        · exact .inl hd
      · exact .inl hd
    · exact .inl hd
  | deliver i =>
    dsimp only at hd
    split at hd
    · split at hd
      · exact .inl hd
      · exact .inl hd
    · exact .inl hd
  | lose i => exact .inl (List.mem_of_mem_eraseIdx hd)
  | inject bytes src dst =>
    dsimp only at hd
    split at hd
    · exact .inl hd
    · rename_i hsrc
      rcases List.mem_append.mp hd with hd | hd
      · exact .inl hd
      · obtain rfl := List.mem_singleton.mp hd
        exact .inr (.inr ⟨rfl, hsrc⟩)

/-- An invariant of the DHT of each host, which its own events and the datagrams it reads keep. -/
theorem becomes_invariant {I : Endpoint → DHT σ → Prop} {e : NetworkEvent}
    (hown : ∀ {a s e}, I a s → (∀ buf ip port, e ≠ .packet buf ip port) → I a (DHT.step env s e))
    (hpacket : ∀ {d s} i, e = .deliver i → now.inFlight[i]? = some d → I d.dst s →
      I d.dst (DHT.step env s (.packet (d.bytes.take Host.bufSize) d.src.ip d.src.port)))
    {a : Endpoint} {host host' : Host σ} (hbecomes : Becomes env now e a host host') (h : I a host.dht) : I a host'.dht := by
  cases hbecomes with
  | same => exact h
  | own _ e _ =>
    have hstep := fun hnot => hown (e := e) h hnot
    cases e with
    | packet buf ip port => exact h
    | outgoing result => exact h
    | _ => exact hstep (fun _ _ _ he => by cases he)
  | outgoing _ result _ => exact hown (e := .outgoing result) h (fun _ _ _ he => by cases he)
  | receive i d _ hd => exact hpacket i rfl hd h

/-- What a network does next. -/
theorem after_append (env : Env σ) (net : Network σ) (past : List NetworkEvent) (e : NetworkEvent) :
    net.after env (past ++ [e]) = step env (net.after env past) e := by
  unfold after
  rw [Machine.run_append, Machine.run_cons, Machine.run_nil]

/-- What holds of every new DHT and what every event of a DHT keeps holds of every host. -/
theorem forall_hosts {I : DHT σ → Prop} (hnew : ∀ {id ip4Source buckets settings rng secretRng random s},
      DHT.new env id ip4Source buckets settings rng secretRng random = .ok s → I s)
    (hstep : ∀ {s} e, I s → I (DHT.step env s e)) (hstart : net.Starts env) (events : List NetworkEvent) {a : Endpoint} {host : Host σ}
    (hhost : (net.after env events).hosts a = some host) : I host.dht := by
  induction events using List.reverseRecOn generalizing a host with
  | nil =>
    obtain ⟨id, ip4Source, buckets, settings, rng, secretRng, random, hdht⟩ := hstart.hosts a host hhost
    exact hnew hdht
  | append_singleton past e ih =>
    rw [after_append] at hhost
    obtain ⟨before, hbefore, hbecomes⟩ := becomes_of_step hhost
    exact becomes_invariant (I := fun _ => I) (fun hs _ => hstep _ hs) (fun _ _ _ hs => hstep _ hs) hbecomes (ih hbefore)

/-! ## The invariant -/

/-- After a run, what is queued, in flight and known comes from what hosts have queued. -/
structure Flows (env : Env σ) (net : Network σ) (past : List NetworkEvent) (now : Network σ) : Prop where
  hosts : ∀ a, (now.hosts a).isSome = (net.hosts a).isSome
  toSend : ∀ {a host}, now.hosts a = some host → ∀ p ∈ host.dht.socket.toSend, Queued env net past a p
  inFlight : ∀ d ∈ now.inFlight, (net.hosts d.src).isSome = true →
    ∃ msg, Queued env net past d.src (msg, d.dst.addr) ∧ msg.toBytes env.codec = .ok d.bytes
  informed : ∀ {b host}, now.hosts b = some host → host.dht.Informed (Heard env net past b) (fun _ => True)

/-- Whatever messages tell of, it is something. -/
theorem trusts_true (env : Env σ) (S : SocketAddr → Message → Prop) : DHT.Trusts env S (fun _ => True) where
  requester _ _ _ := fun _ _ _ _ => trivial
  responder _ _ _ := trivial
  listed _ _ _ _ := trivial

/-- What is on the queue of a host after an event was there before, or is sent by the event. -/
theorem mem_toSend_of_becomes {e : NetworkEvent} {host' : Host σ} (hbecomes : Becomes env now e a host host') {p : Message × SocketAddr}
    (hp : p ∈ host'.dht.socket.toSend) :
    p ∈ host.dht.socket.toSend ∨ ∃ e', e = .host a e' ∧ p ∈ host.dht.sends env e' := by
  have hnothing : ∀ {e : DHT.Event}, host.dht.offers env e = [] → p ∈ (DHT.step env host.dht e).socket.toSend →
      p ∈ host.dht.socket.toSend := by
    intro e hoffers hp
    refine (DHT.mem_step_toSend hp).resolve_right (fun hsent => ?_)
    rw [DHT.sends_eq_nil hoffers] at hsent
    cases hsent
  cases hbecomes with
  | same => exact .inl hp
  | own _ e _ =>
    cases e with
    | packet buf ip port => exact .inl hp
    | outgoing result => exact .inl hp
    | _ => exact (DHT.mem_step_toSend hp).imp_right (fun hp => ⟨_, rfl, hp⟩)
  | outgoing _ result _ => exact .inl (hnothing (e := .outgoing result) rfl hp)
  | receive i d _ hd => exact .inl (hnothing (e := .packet (d.bytes.take Host.bufSize) d.src.ip d.src.port) rfl hp)

/-- What a host reads as coming from another, where what is in flight comes from what hosts have queued. -/
theorem heard_of_read (hcodec : env.codec.RejectsTruncated) {d : Datagram} {m : Message}
    (hd : (net.hosts d.src).isSome = true → ∃ msg, Queued env net past d.src (msg, d.dst.addr) ∧ msg.toBytes env.codec = .ok d.bytes)
    (hread : Message.fromBytes env.codec (d.bytes.take Host.bufSize) = .ok m) :
    Heard env net past d.dst (.v4 d.src.ip d.src.port) m := by
  intro a hsrc ha
  obtain rfl : d.src = a := Endpoint.addr_injective hsrc
  obtain ⟨msg, hqueued, hbytes⟩ := hd ha
  exact ⟨msg, hqueued, d.bytes, hbytes, Message.fromBytes_of_take hcodec hbytes hread⟩

/-- Every event of a network leaves what is queued, in flight and known coming from what hosts have queued. -/
theorem Flows.step (hcodec : env.codec.RejectsTruncated) (h : Flows env net past (net.after env past)) (e : NetworkEvent) :
    Flows env net (past ++ [e]) (step env (net.after env past) e) where
  hosts a := (isSome_hosts_step env _ e a).trans (h.hosts a)
  toSend {a host'} hhost' p hp := by
    obtain ⟨host, hhost, hbecomes⟩ := becomes_of_step hhost'
    rcases mem_toSend_of_becomes hbecomes hp with hp | ⟨e', rfl, hp⟩
    · exact (h.toSend hhost p hp).append [e]
    · exact ⟨past, e', [], host, rfl, hhost, hp⟩
  inFlight d hd hsrc := by
    rcases mem_inFlight_step hd with hd | ⟨host, msg, hhost, hmsg, hbytes⟩ | ⟨-, hnone⟩
    · obtain ⟨msg, hqueued, hbytes⟩ := h.inFlight d hd hsrc
      exact ⟨msg, hqueued.append [e], hbytes⟩
    · exact ⟨msg, (h.toSend hhost _ hmsg).append [e], hbytes⟩
    · rw [← h.hosts, hnone] at hsrc
      cases hsrc
  informed {b host'} hhost' := by
    obtain ⟨host, hhost, hbecomes⟩ := becomes_of_step hhost'
    have hbefore := (h.informed hhost).mono (fun _ _ hheard => hheard.append [e]) (fun _ _ => trivial)
    refine becomes_invariant (I := fun b s => s.Informed (Heard env net (past ++ [e]) b) (fun _ => True)) ?_ ?_ hbecomes hbefore
    · intro a s e' hs hnot
      exact hs.step (trusts_true env _) e' (fun buf ip port m he => absurd he (hnot buf ip port))
    · intro d s i _ hd hs
      refine hs.step (trusts_true env _) (.packet (d.bytes.take Host.bufSize) d.src.ip d.src.port) ?_
      intro buf ip port m he hread
      cases he
      exact (heard_of_read hcodec (h.inFlight d (List.mem_of_getElem? hd)) hread).append [e]

/-- After every run of a network from its start, what is queued, in flight and known comes from what hosts have queued. -/
theorem flows (hcodec : env.codec.RejectsTruncated) (hstart : net.Starts env) (events : List NetworkEvent) :
    Flows env net events (net.after env events) := by
  induction events using List.reverseRecOn with
  | nil =>
    refine ⟨fun a => rfl, fun {a host} hhost p hp => ?_, fun d hd => ?_, fun {b host} hhost => ?_⟩
    · obtain ⟨id, ip4Source, buckets, settings, rng, secretRng, random, hnew⟩ := hstart.hosts a host hhost
      rw [(DHT.new_eq_ok hnew).1] at hp
      cases hp
    · have hnone : d ∈ net.inFlight := hd
      rw [hstart.inFlight] at hnone
      cases hnone
    · obtain ⟨id, ip4Source, buckets, settings, rng, secretRng, random, hnew⟩ := hstart.hosts b host hhost
      exact DHT.informed_of_new hnew
  | append_singleton past e ih =>
    rw [after_append]
    exact ih.step hcodec e

end Network

end RustyDht
