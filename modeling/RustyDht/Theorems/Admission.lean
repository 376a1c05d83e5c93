import RustyDht.Lemmas.Dht

/-!
# Admission to the routing table

Ids and addresses reach the node storage from requesters, from responders and from the nodes that a response lists, each behind a
check of its own. Whatever the interleaving, what is stored has an id that is valid for the address it is stored under, also where the
id was later seen elsewhere, and the tables are around the DHT's own id, also where that has changed.
-/

namespace RustyDht

namespace DHT

variable {σ : Type}

/-- The id of every stored node is valid for its address, both tables are around our id, and our own node is not stored. -/
structure TableAdmitted (env : Env σ) (s : DHT σ) : Prop where
  valid : ∀ w ∈ s.buckets.getAllVerified ++ s.buckets.getAllUnverified,
    w.node.id.isValidForIp env.checksumCastagnoli w.node.address.ip = .ok true
  verifiedId : s.buckets.verified.ourId = s.ourId
  unverifiedId : s.buckets.unverified.ourId = s.ourId
  notOwn : ∀ w ∈ s.buckets.getAllVerified ++ s.buckets.getAllUnverified, w.node.id ≠ s.ourId

/-- Where every node that is stored is valid, the table is as it should be. -/
theorem Holds.tableAdmitted {env : Env σ} {D : SocketAddr → Prop} {s : DHT σ}
    (h : s.Holds (fun n => n.id.isValidForIp env.checksumCastagnoli n.address.ip = .ok true) D) : s.TableAdmitted env where
  valid w hw := by
    rcases List.mem_append.mp hw with hw | hw
    · exact h.buckets.verified w hw
    · exact h.buckets.unverified w hw
  verifiedId := h.ourId
  unverifiedId := h.buckets.wf.ourId.symm.trans h.ourId
  notOwn w hw := by
    have hwf := h.buckets.wf
    rcases List.mem_append.mp hw with hw | hw
    · rw [← h.ourId]
      exact hwf.verified.notOwn _ w (hwf.verified.toPlaced.mem_bucket hw)
    · rw [← h.ourId, hwf.ourId]
      exact hwf.unverified.notOwn _ w (hwf.unverified.toPlaced.mem_bucket hw)

/-- The next message to be received is a request whose author does not belong in the table: it says that it is read-only, or its id is
not valid for the address it came from. -/
def NextIsUnfit (env : Env σ) (s : DHT σ) : Prop :=
  ∃ msg req addr, s.socket.received.head? = some (msg, addr) ∧ msg.messageType = .request req ∧
    (msg.readOnly = some true ∨ req.requesterId.isValidForIp env.checksumCastagnoli addr.ip ≠ .ok true)

/-- A request whose author does not belong in the table leaves the node storage as it was. -/
theorem step_accept_unfit {env : Env σ} {s : DHT σ} (hunfit : s.NextIsUnfit env) (throttled : Bool) (now : Nat → Instant)
    (shuffle : PartialShuffle) : (step env s (.accept throttled now shuffle)).buckets = s.buckets := by
  obtain ⟨msg, req, addr, hhead, htype, hunfit⟩ := hunfit
  -- Nothing may be stored, so what is stored stays.
  have hI : ClosedForRequests env (fun _ => False) (fun _ => True) (fun t : DHT σ => t.buckets = s.buckets) :=
    ⟨fun h hs => hs.buckets.trans h, fun _ _ _ _ h => h.elim, fun _ _ h => h, fun _ _ _ _ _ h => h⟩
  have hnode : MayStore env (fun _ => False) msg addr := by
    intro id hid hvalid hro
    rw [Message.getAuthorId, htype] at hid
    cases hid
    rcases hunfit with hunfit | hunfit
    · exact hro hunfit
    · exact hunfit hvalid
  refine hI.accept rfl (fun msg' addr' received' hreceived' => ?_)
  obtain ⟨rfl, rfl⟩ : msg = msg' ∧ addr = addr' := by
    rw [hreceived', List.head?_cons, Option.some.injEq, Prod.mk.injEq] at hhead
    exact ⟨hhead.1.symm, hhead.2.symm⟩
  exact keeps_acceptIncomingPacket hI (fun _ => trivial) (fun _ => hnode) (fun _ _ _ _ _ _ h => h) throttled now shuffle

/-- In every run of a new DHT, whatever is received, pruned and voted for, every stored node's id is valid for the address it is stored
under; the tables are around the DHT's id, and have no node of it; and a request that says that it is read-only, or whose author's id is
not valid for the address it came from, leaves the node storage as it was. -/
theorem run_tableAdmitted (env : Env σ) {id : Option Id} {ip4Source : σ} {buckets : NodeBucketStorage} {settings : DHTSettings}
    {rng secretRng : Nat → UInt8} {random : Id} {s : DHT σ}
    (hnew : new env id ip4Source buckets settings rng secretRng random = .ok s) (events : List Event) :
    (Machine.run (step env) s events).TableAdmitted env ∧
      ((Machine.run (step env) s events).NextIsUnfit env → ∀ throttled now shuffle,
        (Machine.run (step env) s (events ++ [.accept throttled now shuffle])).buckets =
          (Machine.run (step env) s events).buckets) := by
  have h := run_holds env (P := fun n => n.id.isValidForIp env.checksumCastagnoli n.address.ip = .ok true) (fun _ h => h) hnew
    events
  refine ⟨h.tableAdmitted, fun hunfit throttled now shuffle => ?_⟩
  rw [Machine.run_append]
  exact step_accept_unfit hunfit throttled now shuffle

/-- The packet of a ping from a node that is read-only. -/
def readOnlyPing : List UInt8 :=
  Bencode.ascii "d1:ad2:id20:" ++ (Id.startingWith 2).bytes ++ Bencode.ascii "e1:q4:ping2:roi1e1:t2:" ++ ([0, 0] : List UInt8) ++
    Bencode.ascii "1:y1:qe"

/-- A node that is read-only pings a new DHT, and is not stored. -/
theorem run_tableAdmitted_read_only :
    (Machine.run (step sampleEnv) sampleDht [.packet readOnlyPing ⟨127, 0, 0, 1⟩ 6881]).TableAdmitted sampleEnv ∧
      ∀ throttled now shuffle,
        (Machine.run (step sampleEnv) sampleDht
          ([.packet readOnlyPing ⟨127, 0, 0, 1⟩ 6881] ++ [.accept throttled now shuffle])).buckets =
        (Machine.run (step sampleEnv) sampleDht [.packet readOnlyPing ⟨127, 0, 0, 1⟩ 6881]).buckets := by
  obtain ⟨hadmitted, hunfit⟩ := run_tableAdmitted sampleEnv sampleDht_new [.packet readOnlyPing ⟨127, 0, 0, 1⟩ 6881]
  refine ⟨hadmitted, hunfit ⟨⟨[0, 0], none, none, .request (.pingRequest ⟨Id.startingWith 2⟩), some true⟩,
    .pingRequest ⟨Id.startingWith 2⟩, .v4 ⟨127, 0, 0, 1⟩ 6881, ?_, rfl, Or.inl rfl⟩⟩
  decide +kernel

end DHT

end RustyDht
