import RustyDht.Lemmas.Steps
import RustyDht.Theorems.ValidIds

/-!
# What a DHT takes itself to be

An `Identity` is the address source of a DHT and its id. Two things change it: the vote of a node that responded, whose id is valid for
its address, and a turn of the maintenance. `step_identity` says that an event of the DHT is these to its identity and no others.
-/

namespace RustyDht

variable {σ : Type}

/-- The source of a DHT's address, and its id. -/
structure Identity (σ : Type) where
  ip4Source : σ
  ourId : Id

/-- What changes an identity. -/
inductive IdentityEvent where
  /-- A node that responded says what our address is. -/
  | vote (theirAddr proposedAddr : Ipv4Addr)
  /-- A turn of `periodic_ip4_maintenance`. -/
  | maintenance (rng : Nat → UInt8)

namespace Identity

/-- An id for an address: the one we have if it is valid for it, and a new one otherwise. -/
def idFor (env : Env σ) (ip : Ipv4Addr) (rng : Nat → UInt8) (ourId : Id) : Id :=
  if ourId.isValidForIp env.checksumCastagnoli (.v4 ip) = .ok true then ourId
  else match Id.fromIp env.checksumCastagnoli (.v4 ip) rng with
    | .ok newId => newId
    | .error _ => ourId

/-- The identity after one of them. -/
def step (env : Env σ) (s : Identity σ) : IdentityEvent → Identity σ
  | .vote theirAddr proposedAddr => { s with ip4Source := env.ip4Source.addVote s.ip4Source theirAddr proposedAddr }
  | .maintenance rng =>
    { ip4Source := env.ip4Source.decay s.ip4Source
      ourId := match env.ip4Source.getBestIpv4 (env.ip4Source.decay s.ip4Source) with
        | some ip => idFor env ip rng s.ourId
        | none => s.ourId }

/-- An id for an address is valid for it. -/
theorem idFor_valid (env : Env σ) (ip : Ipv4Addr) (rng : Nat → UInt8) (ourId : Id) :
    (idFor env ip rng ourId).isValidForIp env.checksumCastagnoli (.v4 ip) = .ok true := by
  unfold idFor
  split
  · assumption
  · obtain ⟨newId, hnewId, hvalid⟩ := Id.fromIp_v4 env.checksumCastagnoli ip rng
    rw [hnewId]
    exact hvalid

end Identity

namespace DHT

variable {env : Env σ} {s : DHT σ} {α : Type} {Q : α → Prop}

/-- What a DHT takes itself to be. -/
def identity (s : DHT σ) : Identity σ := { ip4Source := s.ip4Source, ourId := s.ourId }

/-- What `ip4_vote_helper` makes of a response: the vote of a node at an IPv4 address on the IPv4 address that it says we have. -/
def claimed (target : SocketAddr) (reply : Message) : List IdentityEvent :=
  match target.ip, reply.requesterIp with
  | .v4 theirIp, some (.v4 theyClaim _) => [.vote theirIp theyClaim]
  | _, _ => []

/-- The votes in a response: those of a node whose id is valid for its address count. -/
def votes (env : Env σ) (target : SocketAddr) (reply : Message) : List IdentityEvent :=
  match reply.messageType with
  | .response variant =>
    if variant.responderId.isValidForIp env.checksumCastagnoli target.ip = .ok true then claimed target reply else []
  | _ => []

/-- What an event does to the identity. -/
def identityEvents (env : Env σ) (s : DHT σ) : Event → List IdentityEvent
  | .response i _ _ _ =>
    match s.awaiting[i]? with
    | some task =>
      match (s.socket.channel task.receiver).head? with
      | some reply => if s.poisoned then [] else votes env task.target reply
      | none => []
    | none => []
  | .ip4Maintenance rng => if s.running && !s.poisoned then [.maintenance rng] else []
  | _ => []

/-- To store nodes and to plan requests makes no difference to the identity. -/
theorem ignores_identity (identity : Identity σ) : Ignores (fun s : DHT σ => s.identity = identity) where
  poisoned h := h
  buckets _ h := h
  spawned _ h := h
  countUnverified _ h := h

/-- A handler that keeps the identity keeps it in the event loop. -/
theorem inEventLoop_identity {x : DHTM σ Unit} (hx : Keeps (fun s' : DHT σ => s'.identity = s.identity) x (fun _ => True))
    (skips : RustyDHTError → Bool) : (inEventLoop skips x s).identity = s.identity := by
  have hkept := (hx s rfl).1
  rcases inEventLoop_cases skips x s with hsame | ⟨running, hloop⟩
  · rw [hsame]
  · rw [hloop]
    exact hkept

/-! ## Responses -/

/-- A node that responded votes. -/
theorem run_ip4VoteHelper (env : Env σ) (target : SocketAddr) (reply : Message) (s : DHT σ) :
    ∃ s', (ip4VoteHelper env target reply).run.run s = (.ok (), s') ∧
      s'.identity = Machine.run (Identity.step env) s.identity (claimed target reply) := by
  unfold ip4VoteHelper claimed
  generalize target.ip = ip
  generalize reply.requesterIp = requesterIp
  rcases ip with theirIp | ip
  · rcases requesterIp with _ | theyClaim | requesterIp
    · exact ⟨_, rfl, rfl⟩
    · exact ⟨_, rfl, rfl⟩
    · exact ⟨_, rfl, rfl⟩
  · exact ⟨_, rfl, rfl⟩

/-- A response that is handled changes the identity by its vote. -/
theorem run_handleResponse_identity (hpoison : s.poisoned = false) (target : SocketAddr) (reply : Message) (now nowNew : Instant)
    (nowSeen : Nat → Instant) : ((handleResponse env target reply now nowNew nowSeen).run.run s).2.identity =
      Machine.run (Identity.step env) s.identity (votes env target reply) := by
  unfold handleResponse votes
  cases htype : reply.messageType with
  | request req => rfl
  | error err => rfl
  | response variant =>
    have hauthor : authorOr (.panic ⟨"response doesn't have Id!?"⟩) reply = .ok variant.responderId := by
      unfold authorOr Message.getAuthorId
      rw [htype]
    have hsee : ∀ s : DHT σ, ((seeListed env variant nowSeen >>= fun _ => return reply).run.run s).2.identity = s.identity :=
      fun s => (((ignores_identity s.identity).seeListed variant nowSeen).bind (fun _ _ => keeps_pure reply) s rfl).1
    dsimp only
    rw [run_lift_bind_of_ok hauthor]
    by_cases hvalid : variant.responderId.isValidForIp env.checksumCastagnoli target.ip = .ok true
    · have hcheck : orPanic (variant.responderId.isValidForIp env.checksumCastagnoli target.ip) = .ok true := by rw [hvalid]; rfl
      obtain ⟨s', hvote, hidentity⟩ := run_ip4VoteHelper env target reply s
      have hlock : (lock do
            ip4VoteHelper env target reply
            addOrUpdate env ⟨variant.responderId, target⟩ true now nowNew).run.run s =
          (.ok (), { s' with buckets := s'.buckets.addOrUpdate env.sort ⟨variant.responderId, target⟩ true now nowNew }) :=
        run_lock hpoison (run_bind_of_ok hvote)
      rw [run_lift_bind_of_ok hcheck, if_pos rfl, run_bind_of_ok hlock, hsee, if_pos hvalid]
      exact hidentity
    · rw [if_neg hvalid]
      cases hchecked : variant.responderId.isValidForIp env.checksumCastagnoli target.ip with
      | error p =>
        have hcheck : orPanic (Except.error p : Except Panic Bool) = .error (.panic p) := rfl
        rw [run_lift_bind_of_error hcheck]
        rfl
      | ok valid =>
        obtain rfl : valid = false := Bool.eq_false_of_not_eq_true (fun h => hvalid (by rw [hchecked, h]))
        have hcheck : orPanic (Except.ok false : Except Panic Bool) = .ok false := rfl
        rw [run_lift_bind_of_ok hcheck, if_neg Bool.false_ne_true]
        exact hsee s

/-! ## The maintenance -/

/-- A turn of the maintenance is one of the identity's. -/
theorem run_periodicIp4Maintenance_identity (env : Env σ) (hpoison : s.poisoned = false) (rng : Nat → UInt8) :
    ∃ s', (periodicIp4Maintenance env rng).run.run s = (.ok (), s') ∧
      s'.identity = Identity.step env s.identity (.maintenance rng) := by
  have hstep : Identity.step env s.identity (.maintenance rng) =
      { ip4Source := env.ip4Source.decay s.ip4Source
        ourId := match env.ip4Source.getBestIpv4 (env.ip4Source.decay s.ip4Source) with
          | some ip => Identity.idFor env ip rng s.ourId
          | none => s.ourId } := rfl
  rw [hstep]
  cases hbest : env.ip4Source.getBestIpv4 (env.ip4Source.decay s.ip4Source) with
  | none =>
    refine ⟨{ s with ip4Source := env.ip4Source.decay s.ip4Source }, run_lock hpoison ?_, rfl⟩
    refine (run_bind_of_ok rfl).trans ?_
    rw [run_get_bind]
    dsimp only
    rw [hbest]
    rfl
  | some ip =>
    obtain ⟨valid, hvalid⟩ := s.ourId.isValidForIp_ok env.checksumCastagnoli (show (IpAddr.v4 ip).Checkable from .inl rfl)
    have hcheck : orPanic (s.ourId.isValidForIp env.checksumCastagnoli (.v4 ip)) = .ok valid := by rw [hvalid]; rfl
    dsimp only
    unfold Identity.idFor
    by_cases hfits : valid = true
    · subst hfits
      refine ⟨{ s with ip4Source := env.ip4Source.decay s.ip4Source }, run_lock hpoison ?_, by rw [if_pos hvalid]; rfl⟩
      refine (run_bind_of_ok rfl).trans ?_
      rw [run_get_bind]
      dsimp only
      rw [hbest]
      dsimp only
      rw [run_lift_bind_of_ok hcheck]
      rfl
    · obtain rfl := Bool.eq_false_of_not_eq_true hfits
      obtain ⟨newId, hnewId, -⟩ := Id.fromIp_v4 env.checksumCastagnoli ip rng
      have hnew : orPanic (Id.fromIp env.checksumCastagnoli (.v4 ip) rng) = .ok newId := by rw [hnewId]; rfl
      have hnot : ¬s.ourId.isValidForIp env.checksumCastagnoli (.v4 ip) = .ok true := by rw [hvalid]; exact nofun
      refine ⟨{ s with ip4Source := env.ip4Source.decay s.ip4Source, ourId := newId, buckets := s.buckets.setId newId },
        run_lock hpoison ?_, by rw [if_neg hnot, hnewId]; rfl⟩
      refine (run_bind_of_ok rfl).trans ?_
      rw [run_get_bind]
      dsimp only
      rw [hbest]
      dsimp only
      rw [run_lift_bind_of_ok hcheck, if_pos (show (!false) = true from rfl), run_lift_bind_of_ok hnew]
      rfl

/-- Under a poisoned lock the maintenance panics before it does anything. -/
theorem run_periodicIp4Maintenance_poisoned (env : Env σ) (hpoison : s.poisoned = true) (rng : Nat → UInt8) :
    ∃ p, (periodicIp4Maintenance env rng).run.run s = (.error (.panic p), s) := run_lock_poisoned hpoison _

/-! ## Every event -/

/-- Under a poisoned lock a response changes nothing. -/
theorem keeps_handleResponse_poisoned (hpoison : s.poisoned = true) (target : SocketAddr) (reply : Message) (now nowNew : Instant)
    (nowSeen : Nat → Instant) :
    Keeps (fun s' => s' = s) (handleResponse env target reply now nowNew nowSeen) (fun _ => True) := by
  have hsee : ∀ variant, Keeps (fun s' => s' = s) (seeListed env variant nowSeen) (fun _ => True) := by
    intro variant
    unfold seeListed
    split
    · exact (keeps_lock_poisoned hpoison _).weaken (fun _ _ => trivial)
    · exact keeps_pure _
  unfold handleResponse
  split
  · rename_i variant _
    refine (keeps_lift _).bind (fun theirId _ => (keeps_lift _).bind (fun idIsValid _ => ?_))
    dsimp only
    split
    · exact (keeps_lock_poisoned hpoison _).bind (fun _ hnone => hnone.elim)
    · exact (hsee variant).bind (fun _ _ => keeps_pure _)
  · exact Keeps.of_throw _

/-- What every event does to the identity. -/
theorem step_identity (env : Env σ) (s : DHT σ) (e : Event) :
    (step env s e).identity = Machine.run (Identity.step env) s.identity (s.identityEvents env e) := by
  cases e with
  | packet buf ip port => rfl
  | accept throttled now shuffle =>
    obtain ⟨socket, buckets, peerStorage, poisoned, running, hstep⟩ := step_accept_frame env s throttled now shuffle
    rw [hstep]
    rfl
  | outgoing result => rfl
  | requestCleanup now => rfl
  | runSpawned i now rng =>
    unfold step
    dsimp only
    split
    · rename_i task _
      unfold inTask
      by_cases hpoison : s.poisoned = true
      · obtain ⟨p, hp⟩ := run_runSpawned_poisoned (s := { s with spawned := s.spawned.eraseIdx i }) hpoison task now rng
        rw [hp]
        rfl
      · rw [run_runSpawned (s := { s with spawned := s.spawned.eraseIdx i }) (Bool.eq_false_of_not_eq_true hpoison)]
        rfl
    · rfl
  | response i now nowNew nowSeen =>
    unfold step identityEvents
    dsimp only
    cases htask : s.awaiting[i]? with
    | none => rfl
    | some task =>
      dsimp only
      cases hreply : (s.socket.channel task.receiver).head? with
      | none => rfl
      | some reply =>
        dsimp only
        by_cases hpoison : s.poisoned = true
        · rw [if_pos hpoison]
          have hkept : inTask (handleResponse env task.target reply now nowNew nowSeen) { s with awaiting := s.awaiting.eraseIdx i } =
              { s with awaiting := s.awaiting.eraseIdx i } :=
            (keeps_handleResponse_poisoned (s := { s with awaiting := s.awaiting.eraseIdx i }) hpoison task.target reply now nowNew
              nowSeen _ rfl).1
          rw [hkept]
          rfl
        · rw [if_neg hpoison]
          exact run_handleResponse_identity (s := { s with awaiting := s.awaiting.eraseIdx i })
            (Bool.eq_false_of_not_eq_true hpoison) task.target reply now nowNew nowSeen
  | giveUp i => rfl
  | sendRequest req dest destId now =>
    unfold step inTask
    dsimp only
    cases htype : req.messageType with
    | request r => rw [run_commonSend htype]; rfl
    | response res => rw [run_commonSend_of_not_request (fun r h => by rw [htype] at h; cases h)]; rfl
    | error err => rw [run_commonSend_of_not_request (fun r h => by rw [htype] at h; cases h)]; rfl
  | getInfoHashes newerThan => rfl
  | buddyPing now => exact inEventLoop_identity ((ignores_identity _).periodicBuddyPing now) _
  | routerPing routers => exact inEventLoop_identity ((ignores_identity _).pingRouters routers) _
  | findNodeCount routers =>
    unfold step
    dsimp only
    split
    · rfl
    · exact inEventLoop_identity ((ignores_identity _).periodicFindNodeCount routers) _
  | findNode random =>
    unfold step
    dsimp only
    split
    · exact inEventLoop_identity ((ignores_identity _).periodicFindNode _ random) _
    · rfl
  | ip4Maintenance rng =>
    unfold step identityEvents inEventLoop
    dsimp only
    by_cases hrunning : s.running = true
    · rw [if_pos hrunning]
      by_cases hpoison : s.poisoned = true
      · obtain ⟨p, hp⟩ := run_periodicIp4Maintenance_poisoned env hpoison rng
        rw [hp, hrunning, hpoison]
        rfl
      · obtain ⟨s', hrun, hidentity⟩ :=
          run_periodicIp4Maintenance_identity env (Bool.eq_false_of_not_eq_true hpoison) rng
        rw [hrun, hrunning, Bool.eq_false_of_not_eq_true hpoison]
        exact hidentity
    · rw [if_neg hrunning, Bool.eq_false_of_not_eq_true hrunning]
      rfl
  | tokenRotation rng =>
    refine inEventLoop_identity ((ignores_identity _).lock ?_) _
    exact Keeps.of_get.bind (fun s' hs => Keeps.of_set hs)

end DHT

end RustyDht
