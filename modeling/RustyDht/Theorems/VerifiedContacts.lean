import RustyDht.Lib.Machine
import RustyDht.Lemmas.NodeBucketStorage

/-!
# Verified contacts

Which contacts the verified table of a node storage holds, over whole runs of calls. The history of a run is the nodes that
`add_or_update` was called with as verified since the table was last emptied. A verification moves the record that the unverified
table holds under the same id, with whatever address that record has: where the address differs from the one just verified, a
contact nobody verified enters the verified table.
-/

namespace RustyDht

/-- A storage with the nodes verified since it was last cleared or given a new id. -/
abbrev NodeHistory : Type := NodeBucketStorage × List Node

/-- What a call adds to the history, or that it starts it anew. -/
def NodeStorageOp.record (history : List Node) : NodeStorageOp → List Node
  | .addOrUpdate node true _ _ => node :: history
  | .addOrUpdate _ false _ _ => history
  | .prune _ _ _ _ => history
  | .clear => []
  | .setId _ => []

/-- A call on a storage, with its history. -/
def NodeStorageOp.applyHistory (S : UnstableSort) (s : NodeHistory) (op : NodeStorageOp) : NodeHistory :=
  (op.apply S s.1, op.record s.2)

namespace NodeHistory

/-- A new storage, without a history. -/
def new (ourId : Id) (k : Nat) : NodeHistory := (NodeBucketStorage.new ourId k, [])

/-- Every record of the verified table, and every node handed out as nearest, is of a node that was verified under that id and
address. -/
def ContactsVerified (S : UnstableSort) (s : NodeHistory) : Prop :=
  (∀ w ∈ s.1.getAllVerified, w.node ∈ s.2) ∧ ∀ id exclude, ∀ n ∈ s.1.getNearestNodes S id exclude, n ∈ s.2

/-- The condition on a call: a verification finds its id in the unverified table, if at all, under the address it verifies or one
that was verified before. -/
def VerifiesKnownAddress (s : NodeHistory) : NodeStorageOp → Prop
  | .addOrUpdate node true _ _ => ∀ w ∈ s.1.getAllUnverified, w.node.id = node.id → w.node ∈ node :: s.2
  | _ => True

instance (s : NodeHistory) : ∀ op, Decidable (VerifiesKnownAddress s op)
  | .addOrUpdate node true _ _ =>
    inferInstanceAs (Decidable (∀ w ∈ s.1.getAllUnverified, w.node.id = node.id → w.node ∈ node :: s.2))
  | .addOrUpdate _ false _ _ => inferInstanceAs (Decidable True)
  | .prune _ _ _ _ => inferInstanceAs (Decidable True)
  | .clear => inferInstanceAs (Decidable True)
  | .setId _ => inferInstanceAs (Decidable True)

/-- One call that meets the condition keeps the records of the verified table among the nodes verified. -/
theorem applyHistory_verified (S : UnstableSort) (s : NodeHistory) (op : NodeStorageOp)
    (h : s.1.Wf ∧ ∀ w ∈ s.1.getAllVerified, w.node ∈ s.2) (hok : VerifiesKnownAddress s op) :
    (op.applyHistory S s).1.Wf ∧ ∀ w ∈ (op.applyHistory S s).1.getAllVerified, w.node ∈ (op.applyHistory S s).2 := by
  refine ⟨NodeBucketStorage.apply_wf S s.1 op h.1, ?_⟩
  obtain ⟨hwf, hv⟩ := h
  cases op with
  | addOrUpdate node verified now nowNew =>
    cases verified with
    | true =>
      intro w hw
      rcases (NodeBucketStorage.addOrUpdateVerified_traced S hwf node now nowNew).verified w hw with
        ⟨w0, hw0, he⟩ | ⟨he, -⟩ | ⟨w0, hw0, hid, he⟩
      · rw [← he]
        exact List.mem_cons_of_mem node (hv w0 hw0)
      · rw [he]
        exact List.mem_cons_self
      · -- A promoted record keeps its own address: the condition is about it.
        rw [← he]
        exact hok w0 hw0 hid
    | false =>
      intro w hw
      rcases (NodeBucketStorage.addOrUpdateLastSeen_traced S hwf node now).verified w hw with ⟨w0, hw0, he⟩ | he
      · rw [← he]
        exact hv w0 hw0
      · exact he.elim
  | prune g u now now' =>
    intro w hw
    rcases (NodeBucketStorage.prune_traced hwf g u now now').verified w hw with ⟨w0, hw0, he⟩ | he
    · rw [← he]
      exact hv w0 hw0
    · exact he.elim
  | clear =>
    intro w hw
    exact absurd hw List.not_mem_nil
  | setId newId =>
    intro w hw
    exact absurd hw List.not_mem_nil

/-- In every run of calls that each find the id they verify, if it is in the unverified table, under an address verified now or
before, every contact in the verified table, and so every node handed out as nearest, was verified under that id and address since
the storage was last emptied. -/
theorem run_contactsVerified (S : UnstableSort) (ourId : Id) (k : Nat) (ops : List NodeStorageOp)
    (hok : Machine.StepsOk (NodeStorageOp.applyHistory S) VerifiesKnownAddress (new ourId k) ops) :
    ContactsVerified S (Machine.run (NodeStorageOp.applyHistory S) (new ourId k) ops) := by
  have hinit : (new ourId k).1.Wf ∧ ∀ w ∈ (new ourId k).1.getAllVerified, w.node ∈ (new ourId k).2 :=
    ⟨NodeBucketStorage.new_wf ourId k, fun w hw => absurd hw List.not_mem_nil⟩
  have h := Machine.run_invariant_of_stepsOk (NodeStorageOp.applyHistory S)
    (fun s op hs hop => applyHistory_verified S s op hs hop) ops (new ourId k) hinit hok
  refine ⟨h.2, fun id exclude n hn => ?_⟩
  obtain ⟨w, hw, rfl⟩ := NodeBucketStorage.mem_getNearestNodes hn
  exact h.2 w hw

/-- A node seen at an address and then verified there is a verified contact. -/
theorem run_contactsVerified_same_address :
    ContactsVerified UnstableSort.insertion
      (Machine.run (NodeStorageOp.applyHistory UnstableSort.insertion) (new Id.zero 8)
        [.addOrUpdate ⟨Id.startingWith 1, .v4 ⟨1, 2, 3, 4⟩ 6881⟩ false 10 10,
          .addOrUpdate ⟨Id.startingWith 1, .v4 ⟨1, 2, 3, 4⟩ 6881⟩ true 20 20]) :=
  run_contactsVerified UnstableSort.insertion Id.zero 8 _ (by decide)

/-- A node seen at one address and verified at another stands in the verified table under the first. -/
theorem not_contactsVerified_other_address :
    ¬ContactsVerified UnstableSort.insertion
      (Machine.run (NodeStorageOp.applyHistory UnstableSort.insertion) (new Id.zero 8)
        [.addOrUpdate ⟨Id.startingWith 1, .v4 ⟨1, 2, 3, 4⟩ 6881⟩ false 10 10,
          .addOrUpdate ⟨Id.startingWith 1, .v4 ⟨5, 6, 7, 8⟩ 6881⟩ true 20 20]) := by
  intro h
  have hmem := h.1 ⟨⟨Id.startingWith 1, .v4 ⟨1, 2, 3, 4⟩ 6881⟩, 10, 20, some 20⟩ (by decide)
  revert hmem
  decide

end NodeHistory

end RustyDht
