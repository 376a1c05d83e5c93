import RustyDht.Theorems.Buckets
import RustyDht.Theorems.NodeRecords

/-!
# How many buckets a table has

The loop of `handle_bucket_overflow` goes up to the number of buckets, which it may itself raise in each turn. A bucket is made only where
more than `k` items share as many bits with our id as the index of the deepest one; no item but our own id shares 160, so the loop ends, with
at most 161 buckets. Where ids are distinct only one shares 159, and a table that has room for it there has at most 160.
-/

namespace RustyDht

open Bucketable (getId getFirstSeen)

namespace Buckets

variable {T : Type} [Bucketable T]

/-- The loop of `handle_bucket_overflow` ends: from some number of turns on it is past the last bucket, and has left what the model takes
for its result. -/
def OverflowEnds (S : UnstableSort) (b : Buckets T) (bucketIndex : Nat) (chumpList : Option (List T)) : Prop :=
  ∃ turns, ∀ fuel ≥ turns,
    (overflowLoop S fuel bucketIndex b chumpList).2.1.buckets.length ≤ (overflowLoop S fuel bucketIndex b chumpList).1 ∧
      (overflowLoop S fuel bucketIndex b chumpList).2 = b.handleBucketOverflow S bucketIndex chumpList

/-- The loop ends in the table of an addition. -/
theorem Wf.overflowEnds (S : UnstableSort) {b : Buckets T} (h : b.Wf) {item : T} (hitem : getId item ≠ b.ourId)
    (chumpList : Option (List T)) : (b.pushTo (b.getDestBucketIdx item) item).OverflowEnds S (b.getDestBucketIdx item) chumpList := by
  obtain ⟨hk, hover⟩ := h.pushed item
  generalize hpushed : b.pushTo (b.getDestBucketIdx item) item = b1 at hk hover
  have hplaced : b1.Placed := hpushed ▸ h.toPlaced.pushTo hitem
  have hk' : b1.k = b.k := by rw [← hpushed, pushTo, setBucket_k]
  obtain ⟨_, -, -, hend⟩ := overflowLoop_spec S chumpList b1.overflowFuel (b.getDestBucketIdx item) b1 hplaced (hk' ▸ hk)
    (hk' ▸ hover) (by unfold overflowFuel; omega)
  refine ⟨b1.overflowFuel, ?_⟩
  intro fuel hfuel
  obtain ⟨more, rfl⟩ := Nat.exists_eq_add_of_le hfuel
  rw [overflowLoop_add_fuel S _ more _ _ _ hend]
  exact ⟨hend, rfl⟩

/-- Every call keeps a table at 161 buckets or fewer. -/
theorem apply_length_le (S : UnstableSort) (b : Buckets T) (op : BucketsOp T) (h : b.Wf) (hlen : b.buckets.length ≤ 161) :
    (op.apply S b).buckets.length ≤ 161 := by
  cases op with
  | add item chumpList =>
    simp only [BucketsOp.apply]
    by_cases hitem : getId item = b.ourId
    · rw [add_own S b hitem]
      exact hlen
    · obtain ⟨_, -, ho⟩ := add_spec S h hitem chumpList
      have hgrown := ho.grown.2
      rw [pushTo, length_setBucket] at hgrown
      omega
  | remove id =>
    simp only [BucketsOp.apply]
    cases hr : b.remove id with
    | none => exact hlen
    | some r => exact (length_remove hr).trans_le hlen
  | retain f s => exact (retainBuckets_sublist f b.buckets s).1.trans_le hlen
  | clear => simp [BucketsOp.apply, Buckets.clear]
  | setId newId => simp [BucketsOp.apply, Buckets.setId, Buckets.clear]

/-- A table that calls lead to has at most 161 buckets. -/
theorem run_length_le (S : UnstableSort) (ourId : Id) (k : Nat) (ops : List (BucketsOp T)) :
    (Machine.run (BucketsOp.apply S) (new ourId k) ops).buckets.length ≤ 161 :=
  (Machine.run_invariant (BucketsOp.apply S) (P := fun b : Buckets T => b.Wf ∧ b.buckets.length ≤ 161)
    (fun b op h => ⟨apply_wf S b op h.1, apply_length_le S b op h.1 h.2⟩) ops (new ourId k) ⟨new_wf ourId k, by simp [new]⟩).2

end Buckets

namespace NodeBucketStorage

/-- Both tables have at most the 160 buckets of their documentation. -/
structure AtMost160 (s : NodeBucketStorage) : Prop where
  verified : s.verified.buckets.length ≤ 160
  unverified : s.unverified.buckets.length ≤ 160

variable {k : Nat} {s : NodeBucketStorage}

/-- Putting an item of a new id in the verified table makes no more than 160 buckets in either. -/
theorem AtMost160.addVerified (S : UnstableSort) (hk : 1 ≤ k) (hwf : s.Wf) (hcap : s.Capacity k) (honce : s.ids.Nodup)
    (h : s.AtMost160) {item : NodeWrapper} (hnew : item.node.id ∉ s.ids) : (s.addVerified S item).AtMost160 := by
  have hids : ((item :: s.records).map (fun w => w.node.id)).Nodup := List.nodup_cons.mpr ⟨hnew, honce⟩
  have hverified : ((item :: s.verified.values).map getId).Nodup :=
    hids.sublist (((List.sublist_append_left _ s.unverified.values).cons_cons item).map _)
  refine ⟨Buckets.length_add_le S hwf.verified (hcap.verified ▸ hk) hverified h.verified _, ?_⟩
  by_cases hown : getId item = s.verified.ourId
  · have hchumps : (s.verified.add S item (some [])).2 = some [] := by rw [Buckets.add_own S _ hown]
    simp only [NodeBucketStorage.addVerified, hchumps]
    exact h.unverified
  · obtain ⟨evicted, hchumps, he⟩ := Buckets.add_evicted S hwf.verified hown (some [])
    simp only [Option.map_some, List.nil_append] at hchumps
    simp only [NodeBucketStorage.addVerified, hchumps, Option.getD_some]
    have hlength := he.length
    rcases evicted with _ | ⟨e, _ | ⟨e', rest⟩⟩
    · exact h.unverified
    · -- The item evicted is of an id that the unverified table does not have.
      have hperm : (e :: (s.verified.add S item (some [])).1.values ++ s.unverified.values).Perm (item :: s.records) :=
        he.items.append_right _
      have hsub : (e :: s.unverified.values).Sublist
          (e :: (s.verified.add S item (some [])).1.values ++ s.unverified.values) :=
        (List.sublist_append_right _ _).cons_cons e
      have hunverified : ((e :: s.unverified.values).map getId).Nodup :=
        ((hperm.map (fun w => w.node.id)).nodup_iff.mpr hids).sublist (hsub.map _)
      exact Buckets.length_add_le S hwf.unverified (hcap.unverified ▸ hk) hunverified h.unverified none
    · simp at hlength

/-- Every call keeps both tables at 160 buckets or fewer. -/
theorem AtMost160.apply (S : UnstableSort) (hk : 1 ≤ k) (hwf : s.Wf) (hcap : s.Capacity k) (honce : s.Once) (h : s.AtMost160)
    (op : NodeStorageOp) : (op.apply S s).AtMost160 := by
  cases op with
  | addOrUpdate node verified now nowNew =>
    cases verified with
    | false =>
      simp only [NodeStorageOp.apply, addOrUpdate, addOrUpdateLastSeen, Bool.false_eq_true, if_false]
      cases hv : s.verified.getMut node.id with
      | some r => exact ⟨(Buckets.length_write hv _).trans_le h.verified, h.unverified⟩
      | none =>
        cases hu : s.unverified.getMut node.id with
        | some r => exact ⟨h.verified, (Buckets.length_write hu _).trans_le h.unverified⟩
        | none =>
          have hnew := not_mem_ids (not_exists_of_getMut_eq_none hwf.verified hv) (not_exists_of_getMut_eq_none hwf.unverified hu)
          have hids : ((NodeWrapper.new node now :: s.records).map (fun w => w.node.id)).Nodup :=
            List.nodup_cons.mpr ⟨hnew, honce.nodup⟩
          have hunverified : ((NodeWrapper.new node now :: s.unverified.values).map getId).Nodup :=
            hids.sublist (((List.sublist_append_right s.verified.values _).cons_cons _).map _)
          exact ⟨h.verified,
            Buckets.length_add_le S hwf.unverified (hcap.unverified ▸ hk) hunverified h.unverified none⟩
    | true =>
      simp only [NodeStorageOp.apply, addOrUpdate, addOrUpdateVerified, if_true]
      cases hu : s.unverified.remove node.id with
      | some r =>
        obtain ⟨removed, rest⟩ := r
        obtain ⟨hnew, hnodup⟩ := nodup_of_remove honce.nodup hu
        exact AtMost160.addVerified S (s := { s with unverified := rest }) hk (hwf.of_remove hu)
          ⟨hcap.verified, (Buckets.remove_ourId hu).2.trans hcap.unverified⟩ hnodup
          ⟨h.verified, (Buckets.length_remove hu).trans_le h.unverified⟩ hnew
      | none =>
        have hnone := (Buckets.remove_eq_none_iff hwf.unverified.toPlaced node.id).mp hu
        cases hv : s.verified.getMut node.id with
        | some r => exact ⟨(Buckets.length_write hv _).trans_le h.verified, h.unverified⟩
        | none =>
          exact AtMost160.addVerified S hk hwf hcap honce.nodup h
            (not_mem_ids (not_exists_of_getMut_eq_none hwf.verified hv) hnone)
  | prune g u now now' =>
    simp only [NodeStorageOp.apply, prune]
    split
    · exact h
    · split
      · exact h
      · exact ⟨(Buckets.retainBuckets_sublist _ _ _).1.trans_le h.verified,
          (Buckets.retainBuckets_sublist _ _ _).1.trans_le h.unverified⟩
  | clear => exact ⟨by simp [NodeStorageOp.apply, clear, Buckets.clear], by simp [NodeStorageOp.apply, clear, Buckets.clear]⟩
  | setId newId =>
    exact ⟨by simp [NodeStorageOp.apply, setId, Buckets.setId, Buckets.clear],
      by simp [NodeStorageOp.apply, setId, Buckets.setId, Buckets.clear]⟩

/-- With room for an item in each bucket, both tables of a storage that calls lead to have at most 160 buckets. -/
theorem run_atMost160 (S : UnstableSort) (ourId : Id) (hk : 1 ≤ k) (ops : List NodeStorageOp) :
    (Machine.run (NodeStorageOp.apply S) (new ourId k) ops).AtMost160 := by
  have hrun := Machine.run_invariant (NodeStorageOp.apply S)
    (P := fun s : NodeBucketStorage => s.Wf ∧ s.Once ∧ s.Capacity k ∧ s.AtMost160)
    (fun s op h => ⟨apply_wf S s op h.1, h.2.1.apply S h.1 op, h.2.2.1.apply S h.1 op,
      h.2.2.2.apply S hk h.1 h.2.2.1 h.2.1 op⟩) ops (new ourId k)
  refine (hrun ⟨new_wf ourId k, new_once ourId k, ⟨rfl, rfl⟩, ?_⟩).2.2.2
  exact ⟨by simp [new, Buckets.new], by simp [new, Buckets.new]⟩

end NodeBucketStorage

/-- In every state of a table that calls lead to, for every `k` and every item, an addition ends, with at most 161 buckets: our own id is
turned away before the loop, and for any other the loop ends. And with `k` at least 1, after every sequence of calls on a node storage
neither of its tables has more than the 160 buckets of its documentation. -/
theorem run_overflowEnds_and_atMost160 {T : Type} [Bucketable T] (S : UnstableSort) (ourId : Id) (k : Nat) :
    (∀ (ops : List (BucketsOp T)) (item : T) (chumpList : Option (List T)),
      let b := Machine.run (BucketsOp.apply S) (Buckets.new ourId k) ops
      (getId item = b.ourId ∧ b.add S item chumpList = (b, chumpList) ∨
        getId item ≠ b.ourId ∧
          (b.pushTo (b.getDestBucketIdx item) item).OverflowEnds S (b.getDestBucketIdx item) chumpList) ∧
        (b.add S item chumpList).1.countBuckets ≤ 161) ∧
      (1 ≤ k → ∀ ops : List NodeStorageOp,
        let s := Machine.run (NodeStorageOp.apply S) (NodeBucketStorage.new ourId k) ops
        s.verified.countBuckets ≤ 160 ∧ s.unverified.countBuckets ≤ 160) := by
  refine ⟨?_, ?_⟩
  · intro ops item chumpList b
    have hwf : b.Wf := (Buckets.run_wf S ourId k ops).1
    refine ⟨?_, Buckets.apply_length_le S b (.add item chumpList) hwf (Buckets.run_length_le S ourId k ops)⟩
    by_cases hitem : getId item = b.ourId
    · exact Or.inl ⟨hitem, Buckets.add_own S b hitem chumpList⟩
    · exact Or.inr ⟨hitem, hwf.overflowEnds S hitem chumpList⟩
  · intro hk ops
    have h := NodeBucketStorage.run_atMost160 S ourId hk ops
    exact ⟨h.verified, h.unverified⟩

end RustyDht
