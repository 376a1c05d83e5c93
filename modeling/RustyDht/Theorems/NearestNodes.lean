import RustyDht.Lemmas.Operations
import RustyDht.Theorems.NodeRecords

/-!
# The nearest nodes

`get_nearest_nodes` filters, sorts and truncates what lies in the buckets. That no id is stored twice and that ids are told apart by
their distance to any other makes the result the one choice there is of the nearest: it depends on the set of verified nodes only, and
on neither the buckets, nor the order they were added in, nor what the sort makes of ties.
-/

namespace RustyDht

namespace NodeBucketStorage

/-- The nodes that a search for the nearest chooses from: those of the verified table, but for the one excluded. -/
def searched (s : NodeBucketStorage) (exclude : Option Id) : List Node :=
  (s.getAllVerified.map (·.node)).filter (fun n => exclude ≠ some n.id)

/-- The nodes handed out are the nearest of those searched. -/
theorem getNearestNodes_nearest (S : UnstableSort) (s : NodeBucketStorage) (id : Id) (exclude : Option Id) :
    Nearest (fun n : Node => n.id.dist id) s.verified.k (s.searched exclude) (s.getNearestNodes S id exclude) := by
  have h := Buckets.getNearestNodes_nearest_except S s.verified id exclude
  rw [searched, List.filter_map]
  exact Nearest.map (f := fun n : Node => n.id.dist id) (g := NodeWrapper.node) h

/-- Where every id is stored once, so is every verified node. -/
theorem Once.nodup_verified {s : NodeBucketStorage} (h : s.Once) : (s.getAllVerified.map (·.node)).Nodup := by
  have hids := h.nodup
  rw [ids, records, List.map_append] at hids
  have hverified : ((s.getAllVerified.map (·.node)).map Node.id).Nodup := by
    rw [List.map_map]
    exact hids.of_append_left
  exact hverified.of_map Node.id

/-- Where every id is stored once, verified nodes are told apart by their distance to an id. -/
theorem Once.eq_of_dist_eq {s : NodeBucketStorage} (h : s.Once) {id : Id} {m n : Node}
    (hm : m ∈ s.getAllVerified.map (·.node)) (hn : n ∈ s.getAllVerified.map (·.node)) (hd : m.id.dist id = n.id.dist id) : m = n := by
  have hid : m.id = n.id := Id.dist_injective id hd
  obtain ⟨v, hv, rfl⟩ := List.mem_map.mp hm
  obtain ⟨w, hw, rfl⟩ := List.mem_map.mp hn
  have hids := h.nodup
  rw [ids, records, List.map_append] at hids
  rw [List.inj_on_of_nodup_map hids.of_append_left hv hw hid]

/-- In every state that calls lead to, `get_nearest_nodes` hands out as many of the verified nodes other than the one excluded as there
are, up to `k`, in the strict order of their distances, and each that it does not hand out is farther than every one that it does. What it
hands out is the same for any other storage, whatever its own id, its history and its sort, whose verified nodes are the same. -/
theorem run_getNearestNodes (S : UnstableSort) (ourId : Id) (k : Nat) (ops : List NodeStorageOp) (id : Id) (exclude : Option Id) :
    let s := Machine.run (NodeStorageOp.apply S) (new ourId k) ops
    let near := s.getNearestNodes S id exclude
    near.length = min k (s.searched exclude).length ∧
      (∀ n ∈ near, n ∈ s.getAllVerified.map (·.node) ∧ exclude ≠ some n.id) ∧
      near.Pairwise (fun m n => m.id.dist id < n.id.dist id) ∧
      (∀ n ∈ s.getAllVerified.map (·.node), exclude ≠ some n.id → n ∉ near → ∀ m ∈ near, m.id.dist id < n.id.dist id) ∧
      ∀ (S' : UnstableSort) (ourId' : Id) (ops' : List NodeStorageOp),
        let s' := Machine.run (NodeStorageOp.apply S') (new ourId' k) ops'
        (∀ n, n ∈ s'.getAllVerified.map (·.node) ↔ n ∈ s.getAllVerified.map (·.node)) →
          s'.getNearestNodes S' id exclude = near := by
  intro s near
  obtain ⟨hwf, honce, -⟩ := run_once S ops (new ourId k) (new_wf ourId k) (new_once ourId k)
  have hnear : Nearest (fun n : Node => n.id.dist id) s.verified.k (s.searched exclude) near :=
    getNearestNodes_nearest S s id exclude
  have hk : s.verified.k = k := (run_capacity S ourId k ops).verified
  have hsearched : ∀ n, n ∈ s.searched exclude ↔ n ∈ s.getAllVerified.map (·.node) ∧ exclude ≠ some n.id := by
    intro n
    rw [searched, List.mem_filter, decide_eq_true_eq]
  have hinj : ∀ m ∈ s.searched exclude, ∀ n ∈ s.searched exclude, m.id.dist id = n.id.dist id → m = n := by
    intro m hm n hn hd
    exact honce.eq_of_dist_eq ((hsearched m).mp hm).1 ((hsearched n).mp hn).1 hd
  rw [hk] at hnear
  refine ⟨hnear.length, ?_, hnear.strict hinj (honce.nodup_verified.filter _), ?_, ?_⟩
  · intro n hn
    exact (hsearched n).mp (hnear.subset n hn)
  · intro n hn hne hnot m hm
    exact hnear.lt_of_not_mem hinj ((hsearched n).mpr ⟨hn, hne⟩) hnot hm
  · intro S' ourId' ops' s' hsame
    obtain ⟨-, honce', -⟩ := run_once S' ops' (new ourId' k) (new_wf ourId' k) (new_once ourId' k)
    have hk' : s'.verified.k = k := (run_capacity S' ourId' k ops').verified
    have hnear' : Nearest (fun n : Node => n.id.dist id) s'.verified.k (s'.searched exclude) (s'.getNearestNodes S' id exclude) :=
      getNearestNodes_nearest S' s' id exclude
    rw [hk'] at hnear'
    -- The verified nodes of both are the same, each once.
    have hperm : (s.getAllVerified.map (·.node)).Perm (s'.getAllVerified.map (·.node)) :=
      (List.perm_ext_iff_of_nodup honce.nodup_verified honce'.nodup_verified).mpr (fun n => (hsame n).symm)
    exact (hnear.unique hnear' (hperm.filter _) hinj).symm

end NodeBucketStorage

end RustyDht
