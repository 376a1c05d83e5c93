import RustyDht.Lemmas.Informed
import RustyDht.Theorems.ValidIds

/-!
# Handlers that do not fail

A handler that fails ends its loop, and with it the event loop, and one that panics under the lock poisons it for all the others. While
the DHT is `Alive` no loop of it fails, whatever it has stored; a response fails nothing if it comes from an IPv4 address and lists such;
and a message is handled without a failure if it comes from an IPv4 address, a sample can be given and the reply can be queued.
-/

namespace RustyDht

namespace DHT

variable {σ : Type} {env : Env σ} {s : DHT σ} {α : Type} {Q : α → Prop}

/-- The event loop has not returned, but where the outgoing task has ended, and no panic has poisoned the lock. -/
structure Alive (s : DHT σ) : Prop where
  running : s.socket.outgoingUp = true → s.running = true
  poisoned : s.poisoned = false

/-- What returns returns under the lock. -/
theorem returns_lock {x : DHTM σ α} (h : Returns Alive x Q) : Returns Alive (lock x) Q := by
  intro s hs
  obtain ⟨a, s', hrun, hs', hQ⟩ := h s hs
  exact ⟨a, s', run_lock hs.poisoned hrun, hs', hQ⟩

/-- A result that is no failure. -/
theorem returns_lift {r : Except Failure α} {a : α} (h : r = .ok a) (hQ : Q a) : Returns Alive (lift r : DHTM σ α) Q :=
  Returns.of_ofExcept h hQ

/-- A change that leaves the loop running, the lock and the outgoing task as they are. -/
theorem returns_modify {f : DHT σ → DHT σ} (hrunning : ∀ s, (f s).running = s.running) (hpoisoned : ∀ s, (f s).poisoned = s.poisoned)
    (hsocket : ∀ s, (f s).socket = s.socket) : Returns Alive (modify f : DHTM σ Unit) (fun _ => True) :=
  Returns.of_modify (fun s hs => ⟨fun hup => (hrunning s).trans (hs.running (hsocket s ▸ hup)), (hpoisoned s).trans hs.poisoned⟩)

/-- A handler that returns, or fails because the outgoing task has ended, leaves the event loop running as long as that does. -/
theorem Alive.inEventLoop (h : s.Alive) {x : DHTM σ Unit} {r : Except Failure Unit} {s' : DHT σ} (hrun : x.run.run s = (r, s'))
    (hs' : s'.Alive) (hr : r = .ok () ∨ s'.socket.outgoingUp = false) (skips : RustyDHTError → Bool) :
    (inEventLoop skips x s).Alive := by
  have hended : ∀ running, s'.socket.outgoingUp = false → ({ s' with running } : DHT σ).Alive := by
    intro running hdown
    exact ⟨fun hup => absurd (hup.symm.trans hdown) (by decide), hs'.poisoned⟩
  unfold DHT.inEventLoop
  by_cases hrunning : s.running = true
  · rw [if_pos hrunning, hrun]
    rcases r with (e | p) | a
    · dsimp only
      split
      · exact hs'
      · exact hended false (hr.resolve_left (fun h => nomatch h))
    · exact hended false (hr.resolve_left (fun h => nomatch h))
    · exact hs'
  · rw [if_neg hrunning]
    exact h

/-- A handler that returns wherever the DHT is alive leaves the event loop running as long as the outgoing task does. -/
theorem Alive.inEventLoop_of_returns (h : s.Alive) {x : DHTM σ Unit} (hx : Returns Alive x (fun _ => True))
    (skips : RustyDHTError → Bool) : (DHT.inEventLoop skips x s).Alive := by
  obtain ⟨⟨⟩, s', hrun, hs', -⟩ := hx s h
  exact h.inEventLoop hrun hs' (.inl rfl) skips

/-! ## The loops -/

theorem returns_addOrUpdate (node : Node) (verified : Bool) (now nowNew : Instant) :
    Returns Alive (addOrUpdate env node verified now nowNew) (fun _ => True) := returns_modify (fun _ => rfl) (fun _ => rfl) (fun _ => rfl)

theorem returns_pingInternal (target : SocketAddr) (targetId : Option Id) :
    Returns Alive (pingInternal target targetId : DHTM σ Unit) (fun _ => True) := returns_modify (fun _ => rfl) (fun _ => rfl) (fun _ => rfl)

theorem returns_pingRouters (routers : List (List SocketAddr)) : Returns Alive (pingRouters routers : DHTM σ Unit) (fun _ => True) := by
  refine Returns.of_forM (fun addrs _ => ?_)
  split
  · exact returns_pingInternal _ none
  · exact Returns.of_pure trivial

theorem returns_periodicBuddyPing (now : Nat → Instant) : Returns Alive (periodicBuddyPing now : DHTM σ Unit) (fun _ => True) := by
  unfold periodicBuddyPing
  refine (returns_lock (Q := fun _ => True) (Returns.of_get.bind (fun s hs => ?_))).bind (fun reverifyIntervalSecs _ => ?_)
  · dsimp only
    exact Returns.bind (Returns.of_set ⟨hs.running, hs.poisoned⟩) (fun _ _ => Returns.of_pure trivial)
  split
  · exact Returns.of_pure trivial
  rename_i pingIfOlderThan _
  have hping : ∀ w : NodeWrapper, Returns Alive
      (if verifiedSince pingIfOlderThan w then return () else pingInternal w.node.address (some w.node.id) : DHTM σ Unit)
      (fun _ => True) := by
    intro w
    split
    · exact Returns.of_pure trivial
    · exact returns_pingInternal _ _
  refine (returns_lock (Q := fun _ => True) (Returns.of_get.bind (fun s _ => Returns.of_pure trivial))).bind (fun nodes _ => ?_)
  exact (Returns.of_forM (fun w _ => hping w)).bind (fun _ _ => Returns.of_forM (fun w _ => hping w))

theorem returns_periodicFindNodeCount (routers : List (List SocketAddr)) :
    Returns Alive (periodicFindNodeCount routers : DHTM σ Unit) (fun _ => True) := by
  unfold periodicFindNodeCount
  refine (returns_lock (Q := fun _ => True) (Returns.of_get.bind (fun s _ => Returns.of_pure trivial))).bind (fun counts _ => ?_)
  have hcount : Returns Alive (modify (fun s => { s with countUnverified := some counts.1 }) : DHTM σ Unit) (fun _ => True) :=
    returns_modify (fun _ => rfl) (fun _ => rfl) (fun _ => rfl)
  dsimp only
  split
  · exact (returns_pingRouters routers).bind (fun _ _ => hcount)
  · exact hcount

theorem returns_periodicFindNode (countUnverified : Nat) (random : Id) :
    Returns Alive (periodicFindNode env countUnverified random) (fun _ => True) := by
  unfold periodicFindNode
  refine Returns.bind (returns_modify (fun _ => rfl) (fun _ => rfl) (fun _ => rfl)) (fun _ _ => ?_)
  refine (returns_lock (Q := fun _ => True) (Returns.of_get.bind (fun s _ => ?_))).bind (fun asked _ => ?_)
  · split
    · exact Returns.of_pure trivial
    · exact Returns.of_pure trivial
  · exact Returns.of_forM (fun node _ => returns_modify (fun _ => rfl) (fun _ => rfl) (fun _ => rfl))

/-- Our address is IPv4, so an id is checked against it, and made for it, without a panic. -/
theorem returns_periodicIp4Maintenance (rng : Nat → UInt8) : Returns Alive (periodicIp4Maintenance env rng) (fun _ => True) := by
  unfold periodicIp4Maintenance
  refine returns_lock (Returns.bind (returns_modify (fun _ => rfl) (fun _ => rfl) (fun _ => rfl)) (fun _ _ => ?_))
  refine Returns.of_get.bind (fun s hs => ?_)
  split
  · rename_i ip _
    have hchecked : ∃ valid, s.ourId.isValidForIp env.checksumCastagnoli (.v4 ip) = .ok valid := s.ourId.isValidForIp_ok _ (.inl rfl)
    obtain ⟨valid, hvalid⟩ := hchecked
    obtain ⟨newId, hnewId, -⟩ := Id.fromIp_v4 env.checksumCastagnoli ip rng
    refine (returns_lift (Q := fun _ => True) (by rw [hvalid]; rfl) trivial).bind (fun isValid _ => ?_)
    split
    · refine (returns_lift (Q := fun _ => True) (by rw [hnewId]; rfl) trivial).bind (fun newId _ => Returns.of_set ?_)
      exact ⟨hs.running, hs.poisoned⟩
    · exact Returns.of_pure trivial
  · exact Returns.of_pure trivial

theorem returns_rotateTokenSecrets (rng : Nat → UInt8) : Returns Alive (rotateTokenSecrets rng : DHTM σ Unit) (fun _ => True) :=
  returns_lock (Returns.of_get.bind (fun _ hs => Returns.of_set ⟨hs.running, hs.poisoned⟩))

/-! ## Responses -/

/-- An id is checked against an IPv4 address without a panic. -/
theorem checkable_of_isIpv4 {addr : SocketAddr} (h : addr.isIpv4 = true) : addr.ip.Checkable := by
  cases addr with
  | v4 ip port => exact .inl rfl
  | v6 ip port flowinfo scopeId => cases h

/-- The nodes that a response lists are seen, if they are at IPv4 addresses. -/
theorem returns_seeListed {variant : ResponseSpecific} (hipv4 : variant.AllIpv4) (now : Nat → Instant) :
    Returns Alive (seeListed env variant now) (fun _ => True) := by
  unfold seeListed
  split
  · rename_i args
    refine returns_lock (Returns.of_forM (fun p hp => ?_))
    have hnode : p.1 ∈ args.nodes := (List.mem_zipIdx' hp).2 ▸ List.getElem_mem _
    obtain ⟨valid, hvalid⟩ := p.1.id.isValidForIp_ok env.checksumCastagnoli (checkable_of_isIpv4 (hipv4 p.1 hnode))
    refine (returns_lift (Q := fun _ => True) (by rw [hvalid]; rfl) trivial).bind (fun idIsValid _ => ?_)
    split
    · exact returns_addOrUpdate _ _ _ _
    · exact Returns.of_pure trivial
  · exact Returns.of_pure trivial

/-- A response from an IPv4 address, which lists such, is handled without a failure. -/
theorem returns_handleResponse {target : SocketAddr} (htarget : target.isIpv4 = true) {reply : Message} {variant : ResponseSpecific}
    (htype : reply.messageType = .response variant) (hipv4 : variant.AllIpv4) (now nowNew : Instant) (nowSeen : Nat → Instant) :
    Returns Alive (handleResponse env target reply now nowNew nowSeen) (fun _ => True) := by
  have hauthor : authorOr (.panic ⟨"response doesn't have Id!?"⟩) reply = .ok variant.responderId := by
    rw [authorOr, getAuthorId_of_response htype]
  obtain ⟨valid, hvalid⟩ := variant.responderId.isValidForIp_ok env.checksumCastagnoli (checkable_of_isIpv4 htarget)
  unfold handleResponse
  rw [htype]
  dsimp only
  refine (returns_lift (Q := fun id => id = variant.responderId) hauthor rfl).bind (fun theirId htheir => ?_)
  subst htheir
  refine (returns_lift (Q := fun _ => True) (by rw [hvalid]; rfl) trivial).bind (fun idIsValid _ => ?_)
  have hsee : Returns Alive (seeListed env variant nowSeen) (fun _ => True) := returns_seeListed hipv4 nowSeen
  split
  · refine (returns_lock (Q := fun _ => True) ?_).bind (fun _ _ => hsee.bind (fun _ _ => Returns.of_pure trivial))
    refine Returns.bind (Q := fun _ => True) ?_ (fun _ _ => returns_addOrUpdate ⟨variant.responderId, target⟩ true now nowNew)
    unfold ip4VoteHelper
    split
    · exact returns_modify (fun _ => rfl) (fun _ => rfl) (fun _ => rfl)
    · exact Returns.of_pure trivial
  · exact hsee.bind (fun _ _ => Returns.of_pure trivial)

/-! ## Messages -/

/-- A message from an IPv4 address is dropped, or it is a request that is handled, if a sample can be given. -/
theorem Alive.run_acceptIncomingPacket (h : s.Alive) {msg : Message} {addr : SocketAddr} (hip : addr.ip.Checkable)
    (hsample : ∀ req, s.CanSample req) (throttled : Bool) (now : Nat → Instant) (shuffle : PartialShuffle) :
    (acceptIncomingPacket env msg addr throttled now shuffle).run.run s = (.ok (), s) ∨
      ∃ req, msg.messageType = .request req ∧ throttled = false ∧ addr.port ≠ 0 ∧ s.settings.readOnly = false ∧
        (acceptIncomingPacket env msg addr throttled now shuffle).run.run s = s.handled env msg req addr now shuffle := by
  have hreturn : ∀ s' : DHT σ, s'.poisoned = false → (lock (return ()) : DHTM σ Unit).run.run s' = (.ok (), s') :=
    fun s' hs' => run_lock hs' rfl
  unfold acceptIncomingPacket
  by_cases hthrottled : throttled = true
  · rw [if_pos hthrottled]
    exact .inl rfl
  rw [if_neg hthrottled]
  by_cases hport : addr.port = 0
  · rw [if_pos hport]
    exact .inl rfl
  rw [if_neg hport, run_get_bind]
  dsimp only
  cases hreadOnly : s.settings.readOnly with
  | true => exact .inl (hreturn s h.poisoned)
  | false =>
    have hdropped : (acceptSinglePacket env msg addr now shuffle).run.run s = (.ok (), s) →
        (do acceptSinglePacket env msg addr now shuffle; lock (return ()) : DHTM σ Unit).run.run s = (.ok (), s) :=
      fun hsingle => (run_bind_of_ok hsingle).trans (hreturn s h.poisoned)
    cases htype : msg.messageType with
    | request req =>
      have hsingle := run_acceptSinglePacket env htype h.poisoned hip (hsample req) now shuffle
      have hpoison := (handled_frame env s msg req addr now shuffle).2.1.trans h.poisoned
      refine .inr ⟨req, rfl, Bool.eq_false_of_not_eq_true hthrottled, hport, rfl, ?_⟩
      generalize s.handled env msg req addr now shuffle = r at hsingle hpoison ⊢
      rcases r with ⟨e | a, s'⟩
      · exact run_bind_of_error hsingle
      · exact (run_bind_of_ok hsingle).trans (hreturn s' hpoison)
    | response res => exact .inl (hdropped (by unfold acceptSinglePacket; rw [htype]; rfl))
    | error err => exact .inl (hdropped (by unfold acceptSinglePacket; rw [htype]; rfl))

/-- A message is handled without a failure, but where the outgoing task has ended. -/
theorem Alive.acceptIncomingPacket (h : s.Alive) {msg : Message} {addr : SocketAddr} (hip : addr.ip.Checkable)
    (hsample : ∀ req, s.CanSample req) (throttled : Bool) (now : Nat → Instant) (shuffle : PartialShuffle) :
    ∃ r s', (DHT.acceptIncomingPacket env msg addr throttled now shuffle).run.run s = (r, s') ∧ s'.Alive ∧
      (r = .ok () ∨ s'.socket.outgoingUp = false) := by
  rcases @Alive.run_acceptIncomingPacket _ env _ h msg addr hip hsample throttled now shuffle with hrun | ⟨req, -, -, -, -, hrun⟩
  · exact ⟨_, s, hrun, h, .inl rfl⟩
  · obtain ⟨hrunning, hpoisoned, hup⟩ := handled_frame env s msg req addr now shuffle
    refine ⟨_, _, hrun, ⟨fun hstill => hrunning.trans (h.running (hup ▸ hstill)), hpoisoned.trans h.poisoned⟩, ?_⟩
    exact (handled_fst env s msg req addr now shuffle).imp_right (fun hended => hup.trans hended.1)

/-! ## Every event -/

/-- A task that does not fail leaves the event loop running. -/
theorem Alive.inTask {β : Type} (h : s.Alive) {x : DHTM σ β} {R : β → Prop} (hx : Returns Alive x R) : (DHT.inTask x s).Alive :=
  (hx.keeps s h).1

/-- Every event leaves the event loop running as long as the outgoing task does, if what is known is IPv4 and a sample can be given. -/
theorem Alive.step (h : s.Alive) {P : Node → Prop} (hinformed : s.Informed FromIpv4 P) (hsample : ∀ req, s.CanSample req) (e : Event) :
    (DHT.step env s e).Alive := by
  cases e with
  | packet buf ip port => exact ⟨fun hup => h.running (by simpa [DHT.step] using hup), h.poisoned⟩
  | accept throttled now shuffle =>
    cases hnext : s.socket.received.head? with
    | none =>
      unfold DHT.step
      dsimp only
      rw [List.head?_eq_none_iff.mp hnext]
      exact h
    | some p =>
      obtain ⟨msg, addr⟩ := p
      by_cases hrunning : s.running = true
      · rw [step_accept_eq hnext hrunning]
        have hpopped : s.popReceived.Alive := ⟨h.running, h.poisoned⟩
        have hsample' : ∀ req, s.popReceived.CanSample req := by
          intro req
          cases req with
          | sampleInfoHashesRequest arguments => exact hsample (.sampleInfoHashesRequest arguments)
          | _ => exact trivial
        have hip := checkable_of_isIpv4 (hinformed.received _ (List.mem_of_head? hnext)).1
        obtain ⟨r, s', hrun, hs', hr⟩ := @Alive.acceptIncomingPacket _ env _ hpopped msg addr hip hsample' throttled now shuffle
        exact hpopped.inEventLoop hrun hs' hr acceptSkips
      · obtain ⟨rest, hreceived⟩ := List.head?_eq_some_iff.mp hnext
        unfold DHT.step DHT.inEventLoop
        dsimp only
        rw [hreceived]
        dsimp only
        rw [if_neg hrunning, if_neg hrunning]
        exact h
  | outgoing result =>
    refine ⟨fun hup => h.running ?_, h.poisoned⟩
    exact s.socket.outgoingUp_of_backgroundIoOutgoing env.codec result hup
  | requestCleanup now => exact ⟨h.running, h.poisoned⟩
  | runSpawned i now rng =>
    unfold DHT.step
    dsimp only
    split
    · rename_i task _
      unfold DHT.inTask
      rw [run_runSpawned (s := { s with spawned := s.spawned.eraseIdx i }) h.poisoned]
      exact ⟨fun hup => h.running (by simpa using hup), h.poisoned⟩
    · exact h
  | response i now nowNew nowSeen =>
    unfold DHT.step
    dsimp only
    split
    · rename_i task htask
      split
      · rename_i reply hreply
        obtain ⟨log, stored, matched, htracks, hmatched⟩ := hinformed.matched
        obtain ⟨x, hx, rfl, hsource, variant, htype⟩ := htracks.source (List.mem_of_getElem? htask) (List.mem_of_head? hreply)
        obtain ⟨hfrom, -, hipv4⟩ := hmatched x hx
        rw [htype] at hipv4
        have hwaiting : ({ s with awaiting := s.awaiting.eraseIdx i } : DHT σ).Alive := ⟨h.running, h.poisoned⟩
        exact hwaiting.inTask (returns_handleResponse (hsource ▸ hfrom) htype hipv4 now nowNew nowSeen)
      · exact h
    · exact h
  | giveUp i => exact ⟨h.running, h.poisoned⟩
  | sendRequest req dest destId now =>
    unfold DHT.step DHT.inTask
    dsimp only
    cases htype : req.messageType with
    | request r =>
      rw [run_commonSend htype]
      exact ⟨fun hup => h.running (by simpa using hup), h.poisoned⟩
    | response res =>
      rw [run_commonSend_of_not_request (fun r hr => by rw [htype] at hr; cases hr)]
      exact h
    | error err =>
      rw [run_commonSend_of_not_request (fun r hr => by rw [htype] at hr; cases hr)]
      exact h
  | getInfoHashes newerThan => exact ⟨h.running, h.poisoned⟩
  | buddyPing now => exact h.inEventLoop_of_returns (returns_periodicBuddyPing now) _
  | routerPing routers => exact h.inEventLoop_of_returns (returns_pingRouters routers) _
  | findNodeCount routers =>
    unfold DHT.step
    dsimp only
    split
    · exact h
    · exact h.inEventLoop_of_returns (returns_periodicFindNodeCount routers) _
  | findNode random =>
    unfold DHT.step
    dsimp only
    split
    · exact h.inEventLoop_of_returns (returns_periodicFindNode _ random) _
    · exact h
  | ip4Maintenance rng => exact h.inEventLoop_of_returns (returns_periodicIp4Maintenance rng) _
  | tokenRotation rng => exact h.inEventLoop_of_returns (returns_rotateTokenSecrets rng) _

end DHT

end RustyDht
