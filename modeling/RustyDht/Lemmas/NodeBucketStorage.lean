import RustyDht.NodeBucketStorage
import RustyDht.Lemmas.Overflow

/-!
# What a call on the node storage can do

Every call keeps both tables well-formed and around one id (`NodeBucketStorage.Wf`). `Traced` says once, for every call, where the
records of both tables come from: a record after the call carries the node of a record before it or the node the call was given.
-/

namespace RustyDht

open Bucketable (getId getFirstSeen)
open scoped List

namespace NodeBucketStorage

/-- Both tables are well-formed and around the same id. -/
structure Wf (s : NodeBucketStorage) : Prop where
  verified : s.verified.Wf
  unverified : s.unverified.Wf
  ourId : s.verified.ourId = s.unverified.ourId

theorem new_wf (ourId : Id) (k : Nat) : (new ourId k).Wf :=
  ⟨Buckets.new_wf ourId k, Buckets.new_wf ourId k, rfl⟩

/-- Taking a record out of the unverified table keeps both well-formed. -/
theorem Wf.of_remove {s : NodeBucketStorage} (h : s.Wf) {id : Id} {removed : NodeWrapper} {rest : Buckets NodeWrapper}
    (hu : s.unverified.remove id = some (removed, rest)) : ({ s with unverified := rest } : NodeBucketStorage).Wf :=
  ⟨h.verified, (Buckets.remove_spec hu).2.2 h.unverified, h.ourId.trans (Buckets.remove_ourId hu).1.symm⟩

/-- Where the records of the tables come from, by their nodes: `toVerified` and `toUnverified` are the nodes that a record of the
table may carry besides those of the table before. -/
structure Traced (s s' : NodeBucketStorage) (toVerified toUnverified : Node → Prop) : Prop where
  wf : s'.Wf
  verified : ∀ w ∈ s'.verified.values, (∃ w0 ∈ s.verified.values, w0.node = w.node) ∨ toVerified w.node
  unverified : ∀ w ∈ s'.unverified.values, (∃ w0 ∈ s.unverified.values, w0.node = w.node) ∨ toUnverified w.node

/-- A write through a reference that keeps the node keeps the nodes of the table. -/
theorem node_of_write {b : Buckets NodeWrapper} {id : Id} {w : NodeWrapper} {write : NodeWrapper → Buckets NodeWrapper}
    (h : b.getMut id = some (w, write)) (w' : NodeWrapper) (hn : w'.node = w.node) (hwf : b.Wf) :
    (write w').Wf ∧ (write w').ourId = b.ourId ∧ ∀ x ∈ (write w').values, ∃ x0 ∈ b.values, x0.node = x.node := by
  obtain ⟨hid, rest, hperm, hwrite⟩ := Buckets.getMut_spec h
  obtain ⟨hp', ho, -, hwf'⟩ := hwrite w'
  have hid' : getId w' = id := by
    rw [← hid]
    exact congrArg Node.id hn
  refine ⟨hwf' hid' hwf, ho, fun x hx => ?_⟩
  rcases List.mem_cons.mp (hp'.subset hx) with rfl | hx
  · exact ⟨w, hperm.symm.subset List.mem_cons_self, hn.symm⟩
  · exact ⟨x, hperm.symm.subset (List.mem_cons_of_mem w hx), rfl⟩

/-- Re-adding what overflowed to a table brings nothing else to it, and loses nothing that was there but for what it re-adds. -/
theorem foldl_add (S : UnstableSort) (chumps : List NodeWrapper) :
    ∀ b : Buckets NodeWrapper, b.Wf →
      (chumps.foldl (fun unverified item => (unverified.add S item none).1) b).Wf ∧
      (chumps.foldl (fun unverified item => (unverified.add S item none).1) b).ourId = b.ourId ∧
      ∃ lost, (lost ++ (chumps.foldl (fun unverified item => (unverified.add S item none).1) b).values).Perm
        (chumps ++ b.values) := by
  induction chumps with
  | nil => exact fun b h => ⟨h, rfl, [], List.Perm.refl _⟩
  | cons c cs ih =>
    intro b h
    obtain ⟨hwf, ho, lost, hperm⟩ := ih (b.add S c none).1 (Buckets.add_wf S h c none)
    obtain ⟨chumps, lost', -, hadd⟩ := Buckets.add_values S h c none
    refine ⟨hwf, ho.trans (Buckets.add_ourId S h c none).1, lost' ++ chumps ++ lost, ?_⟩
    calc lost' ++ chumps ++ lost ++ (cs.foldl (fun unverified item => (unverified.add S item none).1) (b.add S c none).1).values
      _ ~ lost' ++ chumps ++ (cs ++ (b.add S c none).1.values) := by
        rw [List.append_assoc]
        exact hperm.append_left _
      _ ~ cs ++ (lost' ++ (chumps ++ (b.add S c none).1.values)) := by
        rw [← List.append_assoc lost' chumps (b.add S c none).1.values]
        exact List.perm_append_comm_assoc _ _ _
      _ ~ cs ++ (c :: b.values) := hadd.append_left cs
      _ ~ c :: cs ++ b.values := List.perm_middle

/-- Putting an item in the verified table brings its node there, and may move nodes from there to the unverified table. -/
theorem addVerified_traced (S : UnstableSort) {s : NodeBucketStorage} (h : s.Wf) (item : NodeWrapper) :
    Traced s (s.addVerified S item) (· = item.node)
      (fun n => n = item.node ∨ ∃ w ∈ s.verified.values, w.node = n) := by
  obtain ⟨chumps, hc, hmem⟩ := Buckets.mem_add S h.verified item (some [])
  have hcs : ((s.verified.add S item (some [])).2.getD []) = chumps := by rw [hc]; simp
  obtain ⟨hwf, ho, lost, hun⟩ := foldl_add S chumps s.unverified h.unverified
  unfold addVerified
  simp only [hcs]
  refine ⟨⟨Buckets.add_wf S h.verified item _, hwf, ?_⟩, fun w hw => ?_, fun w hw => ?_⟩
  · rw [ho, (Buckets.add_ourId S h.verified item _).1]
    exact h.ourId
  · rcases hmem w (Or.inr hw) with rfl | hw
    · exact Or.inr rfl
    · exact Or.inl ⟨w, hw, rfl⟩
  · rcases List.mem_append.mp (hun.subset (List.mem_append_right lost hw)) with hw | hw
    · rcases hmem w (Or.inl hw) with rfl | hw
      · exact Or.inr (Or.inl rfl)
      · exact Or.inr (Or.inr ⟨w, hw, rfl⟩)
    · exact Or.inl ⟨w, hw, rfl⟩

/-- Seeing a node brings its node to the unverified table, or nothing. -/
theorem addOrUpdateLastSeen_traced (S : UnstableSort) {s : NodeBucketStorage} (h : s.Wf) (node : Node)
    (now : Instant) : Traced s (s.addOrUpdateLastSeen S node now) (fun _ => False) (· = node) := by
  unfold addOrUpdateLastSeen
  cases hv : s.verified.getMut node.id with
  | some r =>
    obtain ⟨hwf, ho, hmem⟩ := node_of_write hv { r.1 with lastSeen := now } rfl h.verified
    exact ⟨⟨hwf, h.unverified, ho.trans h.ourId⟩, fun w hw => Or.inl (hmem w hw), fun w hw => Or.inl ⟨w, hw, rfl⟩⟩
  | none =>
    cases hu : s.unverified.getMut node.id with
    | some r =>
      obtain ⟨hwf, ho, hmem⟩ := node_of_write hu { r.1 with lastSeen := now } rfl h.unverified
      exact ⟨⟨h.verified, hwf, h.ourId.trans ho.symm⟩, fun w hw => Or.inl ⟨w, hw, rfl⟩, fun w hw => Or.inl (hmem w hw)⟩
    | none =>
      obtain ⟨_, -, hmem⟩ := Buckets.mem_add S h.unverified (NodeWrapper.new node now) none
      refine ⟨⟨h.verified, Buckets.add_wf S h.unverified _ _, ?_⟩, fun w hw => Or.inl ⟨w, hw, rfl⟩, fun w hw => ?_⟩
      · exact h.ourId.trans (Buckets.add_ourId S h.unverified _ _).1.symm
      · rcases hmem w (Or.inr hw) with rfl | hw
        · exact Or.inr rfl
        · exact Or.inl ⟨w, hw, rfl⟩

/-- Verifying a node brings to the verified table the node itself, or the one an unverified record of its id carries; it may move
nodes from there to the unverified table. -/
theorem addOrUpdateVerified_traced (S : UnstableSort) {s : NodeBucketStorage} (h : s.Wf) (node : Node)
    (now nowNew : Instant) :
    Traced s (s.addOrUpdateVerified S node now nowNew)
      (fun n => (n = node ∧ ¬∃ w ∈ s.unverified.values, w.node.id = node.id) ∨
        ∃ w ∈ s.unverified.values, w.node.id = node.id ∧ w.node = n)
      (fun n => n = node ∨ ∃ w ∈ s.verified.values, w.node = n) := by
  unfold addOrUpdateVerified
  cases hu : s.unverified.remove node.id with
  | some r =>
    obtain ⟨removed, rest⟩ := r
    obtain ⟨hid, hperm, -⟩ := Buckets.remove_spec hu
    have hr : removed ∈ s.unverified.values := hperm.subset List.mem_cons_self
    have ht := addVerified_traced S (h.of_remove hu) { removed with lastSeen := now, lastVerified := some now }
    refine ⟨ht.wf, fun w hw => ?_, fun w hw => ?_⟩
    · rcases ht.verified w hw with hw | hw
      · exact Or.inl hw
      · exact Or.inr (Or.inr ⟨removed, hr, hid, hw.symm⟩)
    · rcases ht.unverified w hw with ⟨w0, hw0, he⟩ | hw | hw
      · exact Or.inl ⟨w0, hperm.subset (List.mem_cons_of_mem _ hw0), he⟩
      · exact Or.inl ⟨removed, hr, hw.symm⟩
      · exact Or.inr (Or.inr hw)
  | none =>
    have hnone := (Buckets.remove_eq_none_iff h.unverified.toPlaced node.id).mp hu
    cases hv : s.verified.getMut node.id with
    | some r =>
      obtain ⟨hwf, ho, hmem⟩ := node_of_write hv { r.1 with lastSeen := now, lastVerified := some now } rfl h.verified
      exact ⟨⟨hwf, h.unverified, ho.trans h.ourId⟩, fun w hw => Or.inl (hmem w hw), fun w hw => Or.inl ⟨w, hw, rfl⟩⟩
    | none =>
      have ht := addVerified_traced S h { NodeWrapper.new node nowNew with lastSeen := now, lastVerified := some now }
      exact ⟨ht.wf, fun w hw => (ht.verified w hw).imp id (fun he => Or.inl ⟨he, hnone⟩), ht.unverified⟩

/-- A call that adds or updates a node keeps our id. -/
theorem addOrUpdate_ourId (S : UnstableSort) {s : NodeBucketStorage} (h : s.Wf) (node : Node) (verified : Bool)
    (now nowNew : Instant) : (s.addOrUpdate S node verified now nowNew).verified.ourId = s.verified.ourId := by
  have hadd : ∀ (s : NodeBucketStorage) (item : NodeWrapper), s.verified.Wf →
      (s.addVerified S item).verified.ourId = s.verified.ourId := fun s item hs => (Buckets.add_ourId S hs item _).1
  have hwrite : ∀ r, s.verified.getMut node.id = some r → ∀ w', (r.2 w').ourId = s.verified.ourId := by
    intro r hr w'
    obtain ⟨-, _, -, hw⟩ := Buckets.getMut_spec hr
    exact (hw w').2.1
  cases verified with
  | false =>
    simp only [addOrUpdate, Bool.false_eq_true, if_false, addOrUpdateLastSeen]
    split
    · rename_i hr
      exact hwrite _ hr _
    · split <;> rfl
  | true =>
    simp only [addOrUpdate, if_true, addOrUpdateVerified]
    split
    · exact hadd _ _ h.verified
    · split
      · rename_i hr
        exact hwrite _ hr _
      · exact hadd _ _ h.verified

/-- Pruning brings nothing to either table. -/
theorem prune_traced {s : NodeBucketStorage} (h : s.Wf) (gracePeriod unverifiedGracePeriod : Duration) (now now' : Instant) :
    Traced s (s.prune gracePeriod unverifiedGracePeriod now now') (fun _ => False) (fun _ => False) := by
  have hself : Traced s s (fun _ => False) (fun _ => False) :=
    ⟨h, fun w hw => Or.inl ⟨w, hw, rfl⟩, fun w hw => Or.inl ⟨w, hw, rfl⟩⟩
  unfold prune
  split
  · exact hself
  · split
    · exact hself
    · exact ⟨⟨Buckets.retain_wf h.verified _ _, Buckets.retain_wf h.unverified _ _, h.ourId⟩,
        fun w hw => Or.inl ⟨w, Buckets.mem_of_mem_retain hw, rfl⟩,
        fun w hw => Or.inl ⟨w, Buckets.mem_of_mem_retain hw, rfl⟩⟩

/-- Pruning keeps our id. -/
theorem prune_ourId (s : NodeBucketStorage) (gracePeriod unverifiedGracePeriod : Duration) (now now' : Instant) :
    (s.prune gracePeriod unverifiedGracePeriod now now').verified.ourId = s.verified.ourId := by
  unfold prune
  split
  · rfl
  · split <;> rfl

/-- Every call keeps the storage well-formed. -/
theorem apply_wf (S : UnstableSort) (s : NodeBucketStorage) (op : NodeStorageOp) (h : s.Wf) : (op.apply S s).Wf := by
  cases op with
  | addOrUpdate node verified now nowNew =>
    cases verified with
    | true => exact (addOrUpdateVerified_traced S h node now nowNew).wf
    | false => exact (addOrUpdateLastSeen_traced S h node now).wf
  | prune g u now now' => exact (prune_traced h g u now now').wf
  | clear => exact ⟨Buckets.clear_wf _, Buckets.clear_wf _, h.ourId⟩
  | setId newId => exact ⟨Buckets.setId_wf _ _, Buckets.setId_wf _ _, rfl⟩

/-! ## The capacity -/

/-- Both tables have room for `k` items in a bucket. -/
structure Capacity (k : Nat) (s : NodeBucketStorage) : Prop where
  verified : s.verified.k = k
  unverified : s.unverified.k = k

/-- Re-adding what overflowed keeps the capacity of a table. -/
theorem foldl_add_k (S : UnstableSort) (chumps : List NodeWrapper) : ∀ b : Buckets NodeWrapper, b.Wf →
    (chumps.foldl (fun unverified item => (unverified.add S item none).1) b).k = b.k := by
  induction chumps with
  | nil => exact fun b _ => rfl
  | cons c cs ih =>
    intro b h
    exact (ih _ (Buckets.add_wf S h c none)).trans (Buckets.add_ourId S h c none).2

/-- A write through a reference keeps the capacity of a table. -/
theorem write_k {b : Buckets NodeWrapper} {id : Id} {w : NodeWrapper} {write : NodeWrapper → Buckets NodeWrapper}
    (h : b.getMut id = some (w, write)) (w' : NodeWrapper) : (write w').k = b.k := by
  obtain ⟨-, _, -, hwrite⟩ := Buckets.getMut_spec h
  exact (hwrite w').2.2.1

/-- Putting an item in the verified table keeps both capacities. -/
theorem Capacity.addVerified (S : UnstableSort) {k : Nat} {s : NodeBucketStorage} (hwf : s.Wf) (h : s.Capacity k)
    (item : NodeWrapper) : (s.addVerified S item).Capacity k where
  verified := (Buckets.add_ourId S hwf.verified item _).2.trans h.verified
  unverified := (foldl_add_k S _ _ hwf.unverified).trans h.unverified

/-- Every call keeps the capacity of both tables. -/
theorem Capacity.apply (S : UnstableSort) {k : Nat} {s : NodeBucketStorage} (hwf : s.Wf) (h : s.Capacity k) (op : NodeStorageOp) :
    (op.apply S s).Capacity k := by
  cases op with
  | addOrUpdate node verified now nowNew =>
    cases verified with
    | false =>
      simp only [NodeStorageOp.apply, addOrUpdate, addOrUpdateLastSeen, Bool.false_eq_true, if_false]
      split
      · rename_i hv
        exact ⟨(write_k hv _).trans h.verified, h.unverified⟩
      · split
        · rename_i hu
          exact ⟨h.verified, (write_k hu _).trans h.unverified⟩
        · exact ⟨h.verified, (Buckets.add_ourId S hwf.unverified _ _).2.trans h.unverified⟩
    | true =>
      simp only [NodeStorageOp.apply, addOrUpdate, addOrUpdateVerified, if_true]
      split
      · rename_i rest hu
        exact Capacity.addVerified S (s := { s with unverified := rest }) (hwf.of_remove hu)
          ⟨h.verified, (Buckets.remove_ourId hu).2.trans h.unverified⟩ _
      · split
        · rename_i hv
          exact ⟨(write_k hv _).trans h.verified, h.unverified⟩
        · exact h.addVerified S hwf _
  | prune g u now now' =>
    simp only [NodeStorageOp.apply, prune]
    split
    · exact h
    · split
      · exact h
      · exact ⟨h.verified, h.unverified⟩
  | clear => exact ⟨h.verified, h.unverified⟩
  | setId newId => exact ⟨h.verified, h.unverified⟩

/-! ## The ids of both tables -/

/-- The records of both tables. -/
def records (s : NodeBucketStorage) : List NodeWrapper := s.verified.values ++ s.unverified.values

/-- The ids of the records of both tables. -/
def ids (s : NodeBucketStorage) : List Id := s.records.map (fun w => w.node.id)

/-- Every id is stored at most once, in one of the tables, and every record of the verified table was verified. -/
structure Once (s : NodeBucketStorage) : Prop where
  nodup : s.ids.Nodup
  verified : ∀ w ∈ s.verified.values, w.lastVerified.isSome = true

theorem new_once (ourId : Id) (k : Nat) : (new ourId k).Once := ⟨List.nodup_nil, fun _ hw => absurd hw List.not_mem_nil⟩

/-- No id is there twice where none was and only records of ids that were there remain. -/
theorem nodup_of_lost {s : NodeBucketStorage} (before : List NodeWrapper) {lost : List NodeWrapper}
    (h : (before.map (fun w => w.node.id)).Nodup) (hp : (lost ++ s.records).Perm before) : s.ids.Nodup := by
  have hnodup := (hp.map (fun w => w.node.id)).nodup_iff.mpr h
  rw [List.map_append] at hnodup
  exact hnodup.of_append_right

/-- A write through a reference, of a record of the same node: the others stay as they are. -/
theorem perm_of_write {b : Buckets NodeWrapper} {id : Id} {w : NodeWrapper} {write : NodeWrapper → Buckets NodeWrapper}
    (h : b.getMut id = some (w, write)) (w' : NodeWrapper) (hn : w'.node = w.node) :
    ((write w').values.map (fun x => x.node.id)).Perm (b.values.map (fun x => x.node.id)) ∧
      ∀ x ∈ (write w').values, x = w' ∨ x ∈ b.values := by
  obtain ⟨-, rest, hperm, hwrite⟩ := Buckets.getMut_spec h
  have hp := (hwrite w').1
  refine ⟨?_, fun x hx => ?_⟩
  · refine (hp.map _).trans (List.Perm.trans ?_ (hperm.map _).symm)
    rw [List.map_cons, List.map_cons, hn]
  · rcases List.mem_cons.mp (hp.subset hx) with rfl | hx
    · exact Or.inl rfl
    · exact Or.inr (hperm.symm.subset (List.mem_cons_of_mem w hx))

/-- Putting an item in the verified table loses records, if it does, but makes none besides the item. -/
theorem addVerified_records (S : UnstableSort) {s : NodeBucketStorage} (h : s.Wf) (item : NodeWrapper) :
    ∃ lost, (lost ++ (s.addVerified S item).records).Perm (item :: s.records) := by
  obtain ⟨chumps, lost, hc, hperm⟩ := Buckets.add_values S h.verified item (some [])
  have hcs : ((s.verified.add S item (some [])).2.getD []) = chumps := by rw [hc]; simp
  obtain ⟨-, -, lost', hun⟩ := foldl_add S chumps s.unverified h.unverified
  unfold addVerified records
  simp only [hcs]
  refine ⟨lost ++ lost', ?_⟩
  generalize (s.verified.add S item (some [])).1.values = verified at hperm
  generalize (chumps.foldl (fun unverified item => (unverified.add S item none).1) s.unverified).values = unverified at hun
  calc lost ++ lost' ++ (verified ++ unverified)
    _ ~ lost ++ (verified ++ (lost' ++ unverified)) := by
      rw [List.append_assoc]
      exact (List.perm_append_comm_assoc _ _ _).append_left lost
    _ ~ lost ++ (verified ++ (chumps ++ s.unverified.values)) := (hun.append_left verified).append_left lost
    _ ~ lost ++ (chumps ++ (verified ++ s.unverified.values)) := (List.perm_append_comm_assoc _ _ _).append_left lost
    _ = (lost ++ (chumps ++ verified)) ++ s.unverified.values := by simp only [List.append_assoc]
    _ ~ item :: (s.verified.values ++ s.unverified.values) := hperm.append_right _

/-- Where an item of a new id is put in the verified table, every id is still stored at most once. -/
theorem Once.addVerified (S : UnstableSort) {s : NodeBucketStorage} (hwf : s.Wf) (h : s.Once) {item : NodeWrapper}
    (hnew : item.node.id ∉ s.ids) (hverified : item.lastVerified.isSome = true) : (s.addVerified S item).Once := by
  obtain ⟨lost, hperm⟩ := addVerified_records S hwf item
  obtain ⟨_, -, hmem⟩ := Buckets.mem_add S hwf.verified item (some [])
  refine ⟨nodup_of_lost (item :: s.records) (List.nodup_cons.mpr ⟨hnew, h.nodup⟩) hperm, fun w hw => ?_⟩
  rcases hmem w (Or.inr hw) with rfl | hw
  · exact hverified
  · exact h.verified w hw

/-- What neither table finds is not stored. -/
theorem not_mem_ids {s : NodeBucketStorage} {id : Id} (hv : ¬∃ w ∈ s.verified.values, w.node.id = id)
    (hu : ¬∃ w ∈ s.unverified.values, w.node.id = id) : id ∉ s.ids := by
  intro hid
  obtain ⟨w, hw, he⟩ := List.mem_map.mp hid
  rcases List.mem_append.mp hw with hw | hw
  · exact hv ⟨w, hw, he⟩
  · exact hu ⟨w, hw, he⟩

/-- A table in which a search by id finds nothing holds no record of the id. -/
theorem not_exists_of_getMut_eq_none {b : Buckets NodeWrapper} (h : b.Wf) {id : Id} (hn : b.getMut id = none) :
    ¬∃ w ∈ b.values, w.node.id = id := by
  intro hex
  have hsome := (Buckets.getMut_isSome_iff h.toPlaced id).mpr hex
  rw [hn] at hsome
  exact Bool.false_ne_true hsome

/-- Where every id is stored at most once, it is with another verified table of the same ids. -/
theorem nodup_of_perm_verified {s : NodeBucketStorage} (h : s.ids.Nodup) {verified : Buckets NodeWrapper}
    (hp : (verified.values.map (fun w => w.node.id)).Perm (s.verified.values.map (fun w => w.node.id))) :
    ({ s with verified } : NodeBucketStorage).ids.Nodup := by
  have hids := hp.append_right (s.unverified.values.map (fun w => w.node.id))
  rw [← List.map_append, ← List.map_append] at hids
  exact hids.nodup_iff.mpr h

/-- Where every id is stored at most once, it is with another unverified table of the same ids. -/
theorem nodup_of_perm_unverified {s : NodeBucketStorage} (h : s.ids.Nodup) {unverified : Buckets NodeWrapper}
    (hp : (unverified.values.map (fun w => w.node.id)).Perm (s.unverified.values.map (fun w => w.node.id))) :
    ({ s with unverified } : NodeBucketStorage).ids.Nodup := by
  have hids := hp.append_left (s.verified.values.map (fun w => w.node.id))
  rw [← List.map_append, ← List.map_append] at hids
  exact hids.nodup_iff.mpr h

/-- Seeing a node keeps every id stored at most once. -/
theorem Once.addOrUpdateLastSeen (S : UnstableSort) {s : NodeBucketStorage} (hwf : s.Wf) (h : s.Once) (node : Node)
    (now : Instant) : (s.addOrUpdateLastSeen S node now).Once := by
  unfold NodeBucketStorage.addOrUpdateLastSeen
  cases hv : s.verified.getMut node.id with
  | some r =>
    obtain ⟨existing, write⟩ := r
    obtain ⟨hp, hmem⟩ := perm_of_write hv { existing with lastSeen := now } rfl
    obtain ⟨-, rest, hperm, -⟩ := Buckets.getMut_spec hv
    refine ⟨nodup_of_perm_verified h.nodup hp, ?_⟩
    intro w hw
    rcases hmem w hw with rfl | hw
    · exact h.verified existing (hperm.symm.subset List.mem_cons_self)
    · exact h.verified w hw
  | none =>
    cases hu : s.unverified.getMut node.id with
    | some r =>
      obtain ⟨existing, write⟩ := r
      obtain ⟨hp, -⟩ := perm_of_write hu { existing with lastSeen := now } rfl
      exact ⟨nodup_of_perm_unverified h.nodup hp, h.verified⟩
    | none =>
      have hnew := not_mem_ids (not_exists_of_getMut_eq_none hwf.verified hv) (not_exists_of_getMut_eq_none hwf.unverified hu)
      obtain ⟨chumps, lost, -, hperm⟩ := Buckets.add_values S hwf.unverified (NodeWrapper.new node now) none
      have hmoved := List.perm_append_comm_assoc (lost ++ chumps) s.verified.values
        (s.unverified.add S (NodeWrapper.new node now) none).1.values
      rw [List.append_assoc lost chumps (s.unverified.add S (NodeWrapper.new node now) none).1.values] at hmoved
      exact ⟨nodup_of_lost (NodeWrapper.new node now :: s.records) (List.nodup_cons.mpr ⟨hnew, h.nodup⟩)
        (hmoved.trans ((hperm.append_left _).trans List.perm_middle)), h.verified⟩

/-- Where every id is stored at most once, a record taken out of the unverified table was the only one of its id. -/
theorem nodup_of_remove {s : NodeBucketStorage} (h : s.ids.Nodup) {id : Id} {removed : NodeWrapper} {rest : Buckets NodeWrapper}
    (hu : s.unverified.remove id = some (removed, rest)) :
    removed.node.id ∉ ({ s with unverified := rest } : NodeBucketStorage).ids ∧
      ({ s with unverified := rest } : NodeBucketStorage).ids.Nodup := by
  have hids : (removed :: ({ s with unverified := rest } : NodeBucketStorage).records).Perm s.records :=
    List.perm_middle.symm.trans ((Buckets.remove_spec hu).2.1.append_left s.verified.values)
  have hnodup := (hids.map (fun w : NodeWrapper => w.node.id)).nodup_iff.mpr h
  rwa [List.map_cons, List.nodup_cons] at hnodup

/-- Verifying a node keeps every id stored at most once. -/
theorem Once.addOrUpdateVerified (S : UnstableSort) {s : NodeBucketStorage} (hwf : s.Wf) (h : s.Once) (node : Node)
    (now nowNew : Instant) : (s.addOrUpdateVerified S node now nowNew).Once := by
  unfold NodeBucketStorage.addOrUpdateVerified
  cases hu : s.unverified.remove node.id with
  | some r =>
    obtain ⟨removed, rest⟩ := r
    obtain ⟨hnew, hnodup⟩ := nodup_of_remove h.nodup hu
    exact Once.addVerified S (hwf.of_remove hu) ⟨hnodup, h.verified⟩ hnew rfl
  | none =>
    have hnone := (Buckets.remove_eq_none_iff hwf.unverified.toPlaced node.id).mp hu
    cases hv : s.verified.getMut node.id with
    | some r =>
      obtain ⟨existing, write⟩ := r
      obtain ⟨hp, hmem⟩ := perm_of_write hv { existing with lastSeen := now, lastVerified := some now } rfl
      refine ⟨nodup_of_perm_verified h.nodup hp, ?_⟩
      intro w hw
      rcases hmem w hw with rfl | hw
      · rfl
      · exact h.verified w hw
    | none => exact Once.addVerified S hwf h (not_mem_ids (not_exists_of_getMut_eq_none hwf.verified hv) hnone) rfl

/-- Pruning keeps every id stored at most once. -/
theorem Once.prune {s : NodeBucketStorage} (h : s.Once) (gracePeriod unverifiedGracePeriod : Duration) (now now' : Instant) :
    (s.prune gracePeriod unverifiedGracePeriod now now').Once := by
  unfold NodeBucketStorage.prune
  split
  · exact h
  · split
    · exact h
    · refine ⟨h.nodup.sublist (List.Sublist.map _ ?_), fun w hw => h.verified w (Buckets.mem_of_mem_retain hw)⟩
      exact (Buckets.retain_values_sublist _ _ _).append (Buckets.retain_values_sublist _ _ _)

/-- Every call keeps every id stored at most once. -/
theorem Once.apply (S : UnstableSort) {s : NodeBucketStorage} (hwf : s.Wf) (h : s.Once) (op : NodeStorageOp) :
    (op.apply S s).Once := by
  cases op with
  | addOrUpdate node verified now nowNew =>
    cases verified with
    | true => exact h.addOrUpdateVerified S hwf node now nowNew
    | false => exact h.addOrUpdateLastSeen S hwf node now
  | prune g u now now' => exact h.prune g u now now'
  | clear => exact ⟨List.nodup_nil, fun _ hw => absurd hw List.not_mem_nil⟩
  | setId newId => exact ⟨List.nodup_nil, fun _ hw => absurd hw List.not_mem_nil⟩

/-! ## Promotion -/

/-- One storage is another in which the unverified record of an id has moved to the verified table: `back` is what has moved to the
unverified table in its place, at most one record, whose id shares as many bits with our id. -/
structure Promoted (s s' : NodeBucketStorage) (id : Id) (now : Instant) (record : NodeWrapper) (rest back : List NodeWrapper) :
    Prop where
  record_id : record.node.id = id
  before : s.unverified.values.Perm (record :: rest)
  verified : (back ++ s'.verified.values).Perm ({ record with lastSeen := now, lastVerified := some now } :: s.verified.values)
  unverified : s'.unverified.values.Perm (back ++ rest)
  length : back.length ≤ 1
  prefixBits : ∀ w ∈ back, s.verified.ourId.matchingPrefixBits w.node.id = s.verified.ourId.matchingPrefixBits id

/-- A promotion loses no id. -/
theorem Promoted.ids {s s' : NodeBucketStorage} {id : Id} {now : Instant} {record : NodeWrapper} {rest back : List NodeWrapper}
    (h : Promoted s s' id now record rest back) : s'.ids.Perm s.ids := by
  have hnew : s'.records.Perm ({ record with lastSeen := now, lastVerified := some now } :: (s.verified.values ++ rest)) := by
    calc s'.verified.values ++ s'.unverified.values
      _ ~ s'.verified.values ++ (back ++ rest) := h.unverified.append_left _
      _ ~ back ++ (s'.verified.values ++ rest) := List.perm_append_comm_assoc _ _ _
      _ = back ++ s'.verified.values ++ rest := (List.append_assoc _ _ _).symm
      _ ~ _ := h.verified.append_right rest
  have hold : s.records.Perm (record :: (s.verified.values ++ rest)) :=
    (h.before.append_left s.verified.values).trans List.perm_middle
  exact (hnew.map (fun w => w.node.id)).trans (hold.map (fun w => w.node.id)).symm

/-- Verifying a node whose id is unverified promotes its record. What overflows from the verified table is of the class of the record,
and the record has left a place in that class of the unverified table. -/
theorem addOrUpdateVerified_promoted (S : UnstableSort) {s : NodeBucketStorage} (h : s.Wf) {node : Node}
    (hmem : ∃ w ∈ s.unverified.values, w.node.id = node.id) (now nowNew : Instant) :
    ∃ record rest back, Promoted s (s.addOrUpdateVerified S node now nowNew) node.id now record rest back := by
  unfold addOrUpdateVerified
  cases hu : s.unverified.remove node.id with
  | none => exact absurd hmem ((Buckets.remove_eq_none_iff h.unverified.toPlaced node.id).mp hu)
  | some r =>
    obtain ⟨record, unverified⟩ := r
    obtain ⟨hid, hperm, hwf⟩ := Buckets.remove_spec hu
    obtain ⟨hour, hku⟩ := Buckets.remove_ourId hu
    have hwf' := hwf h.unverified
    have hid' : record.node.id = node.id := hid
    have hown : record.node.id ≠ s.unverified.ourId :=
      h.unverified.notOwn _ record (h.unverified.toPlaced.mem_bucket (hperm.subset List.mem_cons_self))
    obtain ⟨chumps, hc, hadd, hclass⟩ := Buckets.add_class S h.verified
      (x := { record with lastSeen := now, lastVerified := some now }) (h.ourId ▸ hown) (some [])
    have hcs : ((s.verified.add S { record with lastSeen := now, lastVerified := some now } (some [])).2.getD []) = chumps := by
      rw [hc]
      simp
    refine ⟨record, unverified.values, chumps, hid', hperm.symm, hadd, ?_, ?_, ?_⟩
    · simp only [addVerified, hcs]
      rcases hclass with rfl | ⟨e, rfl, hbits, -⟩
      · exact List.Perm.refl _
      · -- The class of the record had room for it, and for nothing more has room been made than for `e`.
        have hebits : unverified.prefixBits e = unverified.prefixBits record := by
          rw [Buckets.prefixBits, Buckets.prefixBits, hour, ← h.ourId]
          exact hbits
        have hfull := h.unverified.countP_prefixBits_le (s.unverified.prefixBits record)
        have hcount := hperm.countP_eq (fun w => s.unverified.prefixBits w == s.unverified.prefixBits record)
        rw [List.countP_cons, if_pos (beq_self_eq_true _)] at hcount
        have hown' : getId e ≠ unverified.ourId := by
          intro he
          have hself : unverified.prefixBits e = 160 := by
            rw [Buckets.prefixBits, he]
            exact (Id.matchingPrefixBits_eq_iff _ _).mpr rfl
          have hlt := Id.matchingPrefixBits_lt hown.symm
          rw [hebits, Buckets.prefixBits, hour] at hself
          exact absurd hself (Nat.ne_of_lt hlt)
        refine Buckets.add_fits S hwf' hown' none ?_
        rw [hebits]
        simp only [Buckets.prefixBits, hour, hku] at hcount hfull ⊢
        omega
    · rcases hclass with rfl | ⟨e, rfl, -⟩
      · exact Nat.zero_le 1
      · exact Nat.le_refl 1
    · intro w hw
      rcases hclass with rfl | ⟨e, rfl, hbits, -⟩
      · exact absurd hw List.not_mem_nil
      · rw [List.mem_singleton.mp hw, ← hid']
        exact hbits

/-- The nodes handed out as nearest are those of verified records. -/
theorem mem_getNearestNodes {S : UnstableSort} {s : NodeBucketStorage} {id : Id} {exclude : Option Id} {n : Node}
    (h : n ∈ s.getNearestNodes S id exclude) : ∃ w ∈ s.getAllVerified, w.node = n := by
  obtain ⟨w, hw, rfl⟩ := List.mem_map.mp h
  exact ⟨w, Buckets.mem_of_mem_getNearestNodes hw, rfl⟩

end NodeBucketStorage

end RustyDht
