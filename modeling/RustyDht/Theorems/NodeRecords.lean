import RustyDht.Lib.Machine
import RustyDht.Lemmas.NodeBucketStorage

/-!
# The records of a node storage

What the two tables of a node storage hold, over whole runs of calls. No id is stored twice, in one table or in both; and the
verification of a node that is stored as unverified exchanges its record for at most one other, without losing any.
-/

namespace RustyDht

/-- The own id of a storage after a call. -/
def NodeStorageOp.ownId (ourId : Id) : NodeStorageOp → Id
  | .setId newId => newId
  | _ => ourId

namespace NodeBucketStorage

/-- Only a change of id changes our id. -/
theorem apply_ourId (S : UnstableSort) {s : NodeBucketStorage} (h : s.Wf) (op : NodeStorageOp) :
    (op.apply S s).verified.ourId = op.ownId s.verified.ourId := by
  cases op with
  | addOrUpdate node verified now nowNew => exact addOrUpdate_ourId S h node verified now nowNew
  | prune g u now now' => exact prune_ourId s g u now now'
  | clear => rfl
  | setId newId => rfl

/-- A storage that calls lead to is well-formed, holds every id once, and is around the id it was last given. -/
theorem run_once (S : UnstableSort) (ops : List NodeStorageOp) : ∀ s : NodeBucketStorage, s.Wf → s.Once →
    (Machine.run (NodeStorageOp.apply S) s ops).Wf ∧ (Machine.run (NodeStorageOp.apply S) s ops).Once ∧
      (Machine.run (NodeStorageOp.apply S) s ops).verified.ourId = Machine.run NodeStorageOp.ownId s.verified.ourId ops := by
  induction ops with
  | nil => exact fun s hwf h => ⟨hwf, h, rfl⟩
  | cons op ops ih =>
    intro s hwf h
    obtain ⟨hwf', h', hown⟩ := ih (op.apply S s) (apply_wf S s op hwf) (h.apply S hwf op)
    refine ⟨hwf', h', ?_⟩
    rw [Machine.run_cons, Machine.run_cons, hown, apply_ourId S hwf op]

/-- A storage that calls lead to has the capacity it was made with. -/
theorem run_capacity (S : UnstableSort) (ourId : Id) (k : Nat) (ops : List NodeStorageOp) :
    (Machine.run (NodeStorageOp.apply S) (new ourId k) ops).Capacity k :=
  (Machine.run_invariant (NodeStorageOp.apply S) (P := fun s : NodeBucketStorage => s.Wf ∧ s.Capacity k)
    (fun s op h => ⟨apply_wf S s op h.1, h.2.apply S h.1 op⟩) ops (new ourId k) ⟨new_wf ourId k, rfl, rfl⟩).2

/-- After every sequence of calls, no id occurs twice in the verified table, none twice in the unverified table and none in both;
every record of the verified table has been verified; both tables are around the id given last, and neither has a record of it. -/
theorem run_nodesOnce (S : UnstableSort) (ourId : Id) (k : Nat) (ops : List NodeStorageOp) :
    let s := Machine.run (NodeStorageOp.apply S) (new ourId k) ops
    let ownId := Machine.run NodeStorageOp.ownId ourId ops
    (s.getAllVerified.map (fun w => w.node.id)).Nodup ∧
      (s.getAllUnverified.map (fun w => w.node.id)).Nodup ∧
      (∀ v ∈ s.getAllVerified, ∀ u ∈ s.getAllUnverified, v.node.id ≠ u.node.id) ∧
      (∀ v ∈ s.getAllVerified, v.lastVerified.isSome = true) ∧
      (s.verified.ourId = ownId ∧ s.unverified.ourId = ownId) ∧
      ∀ w ∈ s.getAllVerified ++ s.getAllUnverified, w.node.id ≠ ownId := by
  intro s ownId
  obtain ⟨hwf, honce, hown⟩ : s.Wf ∧ s.Once ∧ s.verified.ourId = ownId :=
    run_once S ops (new ourId k) (new_wf ourId k) (new_once ourId k)
  have hnodup := honce.nodup
  rw [ids, records, List.map_append, List.nodup_append] at hnodup
  obtain ⟨hv, hu, hdisjoint⟩ := hnodup
  have hunv : s.unverified.ourId = ownId := hwf.ourId.symm.trans hown
  refine ⟨hv, hu, fun v hvm u hum => ?_, honce.verified, ⟨hown, hunv⟩, fun w hw => ?_⟩
  · exact hdisjoint _ (List.mem_map.mpr ⟨v, hvm, rfl⟩) _ (List.mem_map.mpr ⟨u, hum, rfl⟩)
  · rcases List.mem_append.mp hw with hw | hw
    · exact hown ▸ hwf.verified.notOwn _ w (hwf.verified.toPlaced.mem_bucket hw)
    · exact hunv ▸ hwf.unverified.notOwn _ w (hwf.unverified.toPlaced.mem_bucket hw)

/-- In every state that calls lead to, the verification of a node whose id is in the unverified table keeps the ids of both tables
together as they are. Its record moves to the verified table; at most one record, the one moved or another verified one, whose id
shares as many bits with ours, moves to the unverified table in its place, and there is room for it. -/
theorem run_promotion (S : UnstableSort) (ourId : Id) (k : Nat) (ops : List NodeStorageOp) (node : Node) (now nowNew : Instant)
    (hmem : ∃ w ∈ (Machine.run (NodeStorageOp.apply S) (new ourId k) ops).getAllUnverified, w.node.id = node.id) :
    let s := Machine.run (NodeStorageOp.apply S) (new ourId k) ops
    let s' := s.addOrUpdate S node true now nowNew
    s'.ids.Perm s.ids ∧ ∃ record rest back, Promoted s s' node.id now record rest back ∧
      ∀ w ∈ back, w ∈ s.getAllVerified ∨ w = { record with lastSeen := now, lastVerified := some now } := by
  intro s s'
  have hwf : s.Wf := (run_once S ops (new ourId k) (new_wf ourId k) (new_once ourId k)).1
  obtain ⟨record, rest, back, h⟩ := addOrUpdateVerified_promoted S hwf hmem now nowNew
  refine ⟨h.ids, record, rest, back, h, fun w hw => ?_⟩
  rcases List.mem_cons.mp (h.verified.subset (List.mem_append_left _ hw)) with rfl | hw
  · exact Or.inr rfl
  · exact Or.inl hw

/-- With one place for each class of ids, a node is verified while another of its class is: they change places. -/
theorem run_promotion_exchange :
    let ops : List NodeStorageOp := [.addOrUpdate ⟨Id.startingWith 128, .v4 ⟨1, 2, 3, 4⟩ 6881⟩ false 10 10,
      .addOrUpdate ⟨Id.startingWith 129, .v4 ⟨5, 6, 7, 8⟩ 6881⟩ true 20 20]
    let s := Machine.run (NodeStorageOp.apply UnstableSort.insertion) (new Id.zero 1) ops
    let s' := s.addOrUpdate UnstableSort.insertion ⟨Id.startingWith 128, .v4 ⟨1, 2, 3, 4⟩ 6881⟩ true 30 30
    s'.ids.Perm s.ids ∧ ∃ record rest back, Promoted s s' (Id.startingWith 128) 30 record rest back ∧
      ∀ w ∈ back, w ∈ s.getAllVerified ∨ w = { record with lastSeen := 30, lastVerified := some 30 } :=
  run_promotion UnstableSort.insertion Id.zero 1 _ ⟨Id.startingWith 128, .v4 ⟨1, 2, 3, 4⟩ 6881⟩ 30 30 (by decide)

end NodeBucketStorage

end RustyDht
