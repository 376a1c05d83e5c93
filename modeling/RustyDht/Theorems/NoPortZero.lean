import RustyDht.Lemmas.Dht

/-!
# No node with port 0

A node stored under port 0 cannot be contacted, and a message sent there ends the task that sends. Requesters are filtered by their
port and responders are nodes that were sent to, so as long as no find_node response lists a node under port 0, with an id valid for
its address, none is stored and nothing is sent there. Nothing looks at the ports that a response lists.
-/

namespace RustyDht

namespace DHT

variable {σ : Type}

/-- No node in the node storage, verified or unverified, has port 0, and no message is queued to port 0. -/
def PortsNonzero (s : DHT σ) : Prop :=
  (∀ w ∈ s.buckets.getAllVerified ++ s.buckets.getAllUnverified, w.node.address.port ≠ 0) ∧
    ∀ p ∈ s.socket.toSend, p.2.port ≠ 0

/-- No node that is listed and whose id is valid for its address is under port 0. -/
def NoneUnderPortZero (env : Env σ) (nodes : List Node) : Prop :=
  ∀ node ∈ nodes, node.id.isValidForIp env.checksumCastagnoli node.address.ip = .ok true → node.address.port ≠ 0

/-- The condition on a response, that it lists no node under port 0 whose id is valid for its address; and the assumption that the
application and the names of the routers give no address with port 0. -/
def StepOk (env : Env σ) (s : DHT σ) : Event → Prop
  | .response i _ _ _ => NoneUnderPortZero env (s.receivedNodes i)
  | .sendRequest _ dest _ _ => dest.port ≠ 0
  | .routerPing routers => ∀ addrs ∈ routers, ∀ addr ∈ addrs, addr.port ≠ 0
  | .findNodeCount routers => ∀ addrs ∈ routers, ∀ addr ∈ addrs, addr.port ≠ 0
  | _ => True

instance (env : Env σ) (nodes : List Node) : Decidable (NoneUnderPortZero env nodes) :=
  inferInstanceAs (Decidable (∀ node ∈ nodes, _ → _))

instance (env : Env σ) (s : DHT σ) : ∀ e, Decidable (StepOk env s e)
  | .response i _ _ _ => inferInstanceAs (Decidable (NoneUnderPortZero env (s.receivedNodes i)))
  | .sendRequest _ dest _ _ => inferInstanceAs (Decidable (dest.port ≠ 0))
  | .routerPing routers => inferInstanceAs (Decidable (∀ addrs ∈ routers, ∀ addr ∈ addrs, addr.port ≠ 0))
  | .findNodeCount routers => inferInstanceAs (Decidable (∀ addrs ∈ routers, ∀ addr ∈ addrs, addr.port ≠ 0))
  | .packet _ _ _ | .accept _ _ _ | .outgoing _ | .requestCleanup _ | .runSpawned _ _ _ | .giveUp _ | .getInfoHashes _
  | .buddyPing _ | .findNode _ | .ip4Maintenance _ | .tokenRotation _ => inferInstanceAs (Decidable True)

/-- What meets the condition is what the handlers take. -/
theorem StepOk.eventOk {env : Env σ} {s : DHT σ} {e : Event} (h : StepOk env s e) :
    EventOk env (fun n => n.address.port ≠ 0) (fun addr => addr.port ≠ 0) s e := by
  cases e <;> exact h

/-- In every run of a new DHT whose events all meet the condition, no node with port 0 is stored and no message is queued to port
0. -/
theorem run_portsNonzero (env : Env σ) {id : Option Id} {ip4Source : σ} {buckets : NodeBucketStorage} {settings : DHTSettings}
    {rng secretRng : Nat → UInt8} {random : Id} {s : DHT σ}
    (hnew : new env id ip4Source buckets settings rng secretRng random = .ok s) (events : List Event)
    (hok : Machine.StepsOk (step env) (StepOk env) s events) : PortsNonzero (Machine.run (step env) s events) := by
  have hA : Admits env (fun n => n.address.port ≠ 0) (fun addr => addr.port ≠ 0) := ⟨fun _ h => h, fun _ _ h _ => h⟩
  have hstep : ∀ (s : DHT σ) e, s.Holds (fun n => n.address.port ≠ 0) (fun addr => addr.port ≠ 0) → StepOk env s e →
      (step env s e).Holds (fun n => n.address.port ≠ 0) (fun addr => addr.port ≠ 0) :=
    fun s e h hok => h.step hA (fun _ h => h) e hok.eventOk
  have h := Machine.run_invariant_of_stepsOk (step env) hstep events s (new_holds hnew) hok
  refine ⟨fun w hw => ?_, h.toSend⟩
  rcases List.mem_append.mp hw with hw | hw
  · exact h.buckets.verified w hw
  · exact h.buckets.unverified w hw

/-! ## A response that lists a node under port 0 -/

/-- The packet of a find_node response that lists one node, on the loopback interface, under a port. -/
def samplePacket (port : UInt16) : List UInt8 :=
  Bencode.ascii "d1:rd2:id20:" ++ (Id.startingWith 1).bytes ++ Bencode.ascii "5:nodes26:" ++ (Id.startingWith 2).bytes ++
    ([127, 0, 0, 1, (port >>> 8).toUInt8, port.toUInt8] : List UInt8) ++ Bencode.ascii "e1:t2:" ++ ([0, 0] : List UInt8) ++
    Bencode.ascii "1:y1:re"

/-- The application asks 127.0.0.1:6881 for nodes; the response lists one, which is pinged in the next round. -/
def sampleEvents (port : UInt16) : List Event :=
  [.sendRequest (SpawnedTask.request (.findNode (.v4 ⟨127, 0, 0, 1⟩ 6881) none Id.zero) Id.zero false (0, 0))
      (.v4 ⟨127, 0, 0, 1⟩ 6881) none (Duration.fromSecs 1000),
    .packet (samplePacket port) ⟨127, 0, 0, 1⟩ 6881,
    .response 0 (Duration.fromSecs 1000) (Duration.fromSecs 1000) (fun _ => Duration.fromSecs 1000),
    .buddyPing (fun _ => Duration.fromSecs 1000),
    .runSpawned 0 (Duration.fromSecs 1001) (0, 1)]

/-- A run in which the node that is listed can be contacted. -/
theorem run_portsNonzero_listed_port : PortsNonzero (Machine.run (step sampleEnv) sampleDht (sampleEvents 6882)) :=
  run_portsNonzero sampleEnv sampleDht_new _ (by decide +kernel)

/-- The node under port 0 is stored, and a ping to it is queued. -/
theorem not_portsNonzero_listed_port_zero :
    ¬PortsNonzero (Machine.run (step sampleEnv) sampleDht (sampleEvents 0)) := by
  rintro ⟨-, hqueued⟩
  revert hqueued
  decide +kernel

end DHT

end RustyDht
