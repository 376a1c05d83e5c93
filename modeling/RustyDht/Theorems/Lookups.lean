import RustyDht.Lemmas.Calls
import RustyDht.Theorems.GenuineContacts

/-!
# What find_node finds in a network

A lookup on a host of a network is given nodes by the routing table of the host and by the nodes that it asks. In a network of hosts that
run this program and nobody else both tell of hosts only, so whatever `find_node` returns, when it ends or times out, are hosts.
`KnowsHosts` is what the lookup's loop keeps, with the requests that it makes.
-/

namespace RustyDht

open CallsHistory

namespace Network

variable {σ : Type} {env : Env σ} {net : Network σ} {past : List NetworkEvent} {a b : Endpoint} {host : Host σ}

/-! ## What else happens -/

/-- A request says that it is read-only, or is made under an id that the host has had. -/
def HonestRequest (env : Env σ) (net : Network σ) (past : List NetworkEvent) (a : Endpoint) (req : Message) : Prop :=
  ∀ r, req.messageType = .request r → req.readOnly ≠ some true → Known env net past ⟨r.requesterId, a.addr⟩

/-- Nobody but the hosts sends anything, and their applications ask for honest requests only. -/
def Fair (env : Env σ) (net : Network σ) (past : List NetworkEvent) : NetworkEvent → Prop
  | .inject _ _ _ => False
  | .host a (.sendRequest req _ _ _) => HonestRequest env net past a req
  | _ => True

theorem HonestRequest.append {req : Message} (h : HonestRequest env net past a req) (more : List NetworkEvent) :
    HonestRequest env net (past ++ more) a req := fun r hr hreadOnly => (h r hr hreadOnly).append more

/-- A fair event leaves nobody but the hosts, and those honest. -/
theorem fair_append {e : NetworkEvent} (honly : OnlyHosts past) (hhonest : Honest env net past) (hfair : Fair env net past e) :
    OnlyHosts (past ++ [e]) ∧ Honest env net (past ++ [e]) := by
  constructor
  · intro bytes src dst hmem
    rcases List.mem_append.mp hmem with hmem | hmem
    · exact honly bytes src dst hmem
    · rw [← List.mem_singleton.mp hmem] at hfair
      exact hfair
  · intro before a req dest destId now later heq
    rcases List.eq_nil_or_concat later with rfl | ⟨rest, last, rfl⟩
    · obtain ⟨rfl, hlast⟩ := List.append_inj' heq rfl
      rw [List.singleton_inj.mp hlast] at hfair
      exact hfair
    · rw [List.concat_eq_append, ← List.cons_append, ← List.append_assoc] at heq
      obtain ⟨hpast, -⟩ := List.append_inj' heq rfl
      exact hhonest before a req dest destId now rest hpast

/-- The settings of a host stay. -/
theorem settings_after (hhost : net.hosts b = some host) (events : List NetworkEvent) {host' : Host σ}
    (hhost' : (net.after env events).hosts b = some host') : host'.dht.settings = host.dht.settings := by
  induction events using List.reverseRecOn generalizing host' with
  | nil =>
    have hsame : net.hosts b = some host' := hhost'
    rw [Option.some.inj (hhost.symm.trans hsame)]
  | append_singleton past e ih =>
    rw [after_append] at hhost'
    obtain ⟨before, hbefore, hbecomes⟩ := becomes_of_step hhost'
    exact becomes_invariant (I := fun a s => a = b → s.settings = host.dht.settings)
      (fun hs _ ha => (DHT.step_settings env _ _).trans (hs ha))
      (fun _ _ _ hs ha => (DHT.step_settings env _ _).trans (hs ha)) hbecomes (fun _ => ih hbefore) rfl

/-! ## What a lookup knows -/

/-- What a lookup has been offered are hosts, and its requests are honest. -/
structure KnowsHosts (env : Env σ) (net : Network σ) (b : Endpoint) (S : UnstableSort) (target : Id) (past : List NetworkEvent)
    (lookup : Lookup) : Prop where
  onlyHosts : OnlyHosts past
  honest : Honest env net past
  requests : ∀ todo ∈ lookup.todos, HonestRequest env net past b todo.req
  offered : ∃ offered, lookup.Has S target offered ∧ ∀ w ∈ offered, Known env net past w.node

namespace KnowsHosts

variable {S : UnstableSort} {target : Id} {lookup : Lookup}

/-- A lookup that begins knows nobody. -/
theorem new (honly : OnlyHosts past) (hhonest : Honest env net past) : KnowsHosts env net b S target past (Lookup.new target) where
  onlyHosts := honly
  honest := hhonest
  requests todo htodo := by simp [Lookup.new] at htodo
  offered := ⟨[], Lookup.new_has S target, by simp⟩

/-- A fair event makes no difference to the lookup. -/
theorem append {e : NetworkEvent} (h : KnowsHosts env net b S target past lookup) (hfair : Fair env net past e) :
    KnowsHosts env net b S target (past ++ [e]) lookup where
  onlyHosts := (fair_append h.onlyHosts h.honest hfair).1
  honest := (fair_append h.onlyHosts h.honest hfair).2
  requests todo htodo := (h.requests todo htodo).append [e]
  offered := by
    obtain ⟨offered, hhas, hknown⟩ := h.offered
    exact ⟨offered, hhas, fun w hw => (hknown w hw).append [e]⟩

/-- An iteration is offered the nodes that the host has verified, which are hosts, and makes honest requests. -/
theorem round (hcodec : env.codec.RejectsTruncated) (hstart : net.Starts env) (h : KnowsHosts env net b S target past lookup)
    (hhost : (net.after env past).hosts b = some host) (tooFew : Nat → Bool) {request : Nat → Message}
    (hrequest : ∀ i, HonestRequest env net past b (request i)) :
    KnowsHosts env net b S target past (lookup.round S tooFew request host.dht.buckets.getAllVerified) where
  onlyHosts := h.onlyHosts
  honest := h.honest
  requests todo htodo := by
    rcases Lookup.mem_todos_round htodo with htodo | ⟨i, hreq⟩
    · exact h.requests todo htodo
    · exact hreq ▸ hrequest i
  offered := by
    obtain ⟨offered, hhas, hknown⟩ := h.offered
    refine ⟨_, hhas.round tooFew request _, fun w hw => ?_⟩
    rcases List.mem_append.mp hw with hw | hw
    · exact hknown w hw
    · exact ((truthful_and_informed hcodec hstart h.onlyHosts h.honest).2 b host hhost).holds.buckets.verified w hw

/-- A finished request is no longer outstanding. -/
theorem finish (h : KnowsHosts env net b S target past lookup) (i : Nat) : KnowsHosts env net b S target past (lookup.finish i) where
  onlyHosts := h.onlyHosts
  honest := h.honest
  requests todo htodo := h.requests todo (List.mem_of_mem_eraseIdx htodo)
  offered := by
    obtain ⟨offered, hhas, hknown⟩ := h.offered
    exact ⟨offered, hhas.finish i, hknown⟩

/-- Hosts are candidates. -/
theorem candidates (h : KnowsHosts env net b S target past lookup) {nodes : List Node} (hnodes : ∀ node ∈ nodes, Known env net past node)
    (now : Nat → Instant) : KnowsHosts env net b S target past (lookup.candidates S nodes now) where
  onlyHosts := h.onlyHosts
  honest := h.honest
  requests := h.requests
  offered := by
    obtain ⟨offered, hhas, hknown⟩ := h.offered
    refine ⟨_, hhas.candidates nodes now, fun w hw => ?_⟩
    rcases List.mem_append.mp hw with hw | hw
    · exact hknown w hw
    · obtain ⟨i, hi, rfl⟩ := List.mem_mapIdx.mp hw
      exact hnodes _ (List.getElem_mem hi)

/-- The target of a lookup stays. -/
theorem target_eq (h : KnowsHosts env net b S target past lookup) : lookup.target = target := by
  obtain ⟨offered, hhas, -⟩ := h.offered
  exact hhas.target_eq

/-- The nearest of a lookup are hosts. -/
theorem nearest (h : KnowsHosts env net b S target past lookup) : ∀ w ∈ lookup.nearest S, Known env net past w.node := by
  intro w hw
  obtain ⟨offered, hhas, hknown⟩ := h.offered
  rw [hhas.nearest] at hw
  exact hknown w ((Buckets.offered_new S target 8 offered).subset w (Buckets.mem_of_mem_getNearestNodes hw))

end KnowsHosts

/-! ## What a lookup is told -/

/-- What is given to an operation in response to a request is a message that a host has queued for it. -/
theorem told_of_given (hcodec : env.codec.RejectsTruncated) (hstart : net.Starts env) (honly : OnlyHosts past)
    (hhonest : Honest env net past) {todo : RequestTo} {reply : Message} (h : Given env net past b todo reply) :
    Told env net past b todo.node.address reply := by
  obtain ⟨host, task, hhost, htask, htarget, hreply⟩ := h.received
  exact htarget ▸ (((truthful_and_informed hcodec hstart honly hhonest).2 b host hhost).source htask hreply).1

/-- The addresses of a town. -/
def sampleHouse (n : UInt8) : Endpoint := ⟨⟨127, 0, 0, n⟩, 6881⟩

/-- A network of seven hosts. -/
def sampleTown : Network Ipv4Addr where
  hosts a :=
    if a.ip.a = 127 ∧ a.ip.b = 0 ∧ a.ip.c = 0 ∧ a.ip.d < 7 ∧ a.port = 6881 then
      some {
        dht := expect (orPanic (DHT.new DHT.sampleEnv (some (Id.startingWith a.ip.d)) ⟨10, 0, 0, 1⟩ (.new Id.zero 8) .default (fun _ => 0)
          (fun _ => 0) Id.zero)) rfl }
    else none
  inFlight := []

theorem sampleTown_starts : sampleTown.Starts DHT.sampleEnv where
  hosts a host hhost := by
    unfold sampleTown at hhost
    dsimp only at hhost
    split at hhost
    · obtain rfl := Option.some.inj hhost
      exact ⟨some (Id.startingWith a.ip.d), ⟨10, 0, 0, 1⟩, .new Id.zero 8, .default, fun _ => 0, fun _ => 0, Id.zero, rfl⟩
    · cases hhost
  inFlight := rfl

/-- The host of the first house. -/
def sampleFirst : Host Ipv4Addr where
  dht := expect (orPanic (DHT.new DHT.sampleEnv (some (Id.startingWith 0)) ⟨10, 0, 0, 1⟩ (.new Id.zero 8) .default (fun _ => 0)
    (fun _ => 0) Id.zero)) rfl

/-- An iteration begins on the first host, and the second is asked and responds, when so many datagrams have been sent. -/
def sampleAskedFrom (n : Nat) : List CallEvent :=
  [.round (fun i => (UInt8.ofNat i, 9)), .send 0 0, .other (.outgoing (sampleHouse 0) .sent), .other (.deliver n),
    .other (.host (sampleHouse 1) (.accept false DHT.sampleClock DHT.sampleShuffle)), .other (.outgoing (sampleHouse 1) .sent),
    .other (.deliver (n + 1)), .response 0 0 0 (fun _ => 0) (fun _ => 0)]

/-- So it goes after the first host has met the others. -/
def sampleAsked : List CallEvent := sampleAskedFrom 12

end Network

end RustyDht
