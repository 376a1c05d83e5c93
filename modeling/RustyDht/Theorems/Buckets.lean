import RustyDht.Lib.Machine
import RustyDht.NodeBucketStorage
import RustyDht.Lemmas.Overflow

/-!
# The bucket table over whole runs

A table is used by calls of `add`, `remove`, `retain`, `clear` and `set_id`, in any order and with any arguments. Every state they
lead to from a new table is well-formed, and then the lookups, which search one bucket, find what a search of all the values finds.
-/

namespace RustyDht

open Bucketable (getId getFirstSeen)

/-- A call that changes a bucket table, with its arguments. -/
inductive BucketsOp (T : Type) : Type 1 where
  | add (item : T) (chumpList : Option (List T))
  | remove (id : Id)
  | retain {σ : Type} (f : T → σ → Bool × σ) (s : σ)
  | clear
  | setId (newId : Id)

variable {T : Type} [Bucketable T]

/-- The table after a call. -/
def BucketsOp.apply (S : UnstableSort) (b : Buckets T) : BucketsOp T → Buckets T
  | .add item chumpList => (b.add S item chumpList).1
  | .remove id => ((b.remove id).map (·.2)).getD b
  | .retain f s => b.retain f s
  | .clear => b.clear
  | .setId newId => b.setId newId

namespace Buckets

/-- Every call keeps a table well-formed. -/
theorem apply_wf (S : UnstableSort) (b : Buckets T) (op : BucketsOp T) (h : b.Wf) : (op.apply S b).Wf := by
  cases op with
  | add item chumpList => exact add_wf S h item chumpList
  | remove id =>
    simp only [BucketsOp.apply]
    cases hr : b.remove id with
    | none => exact h
    | some r => exact (remove_spec hr).2.2 h
  | retain f s => exact retain_wf h f s
  | clear => exact clear_wf b
  | setId newId => exact setId_wf b newId

/-- No call changes the capacity of the buckets. -/
theorem apply_k (S : UnstableSort) (b : Buckets T) (op : BucketsOp T) (h : b.Wf) : (op.apply S b).k = b.k := by
  cases op with
  | add item chumpList =>
    simp only [BucketsOp.apply]
    by_cases hx : getId item = b.ourId
    · rw [add_own S b hx]
    · obtain ⟨_, -, ho⟩ := add_spec S h hx chumpList
      exact ho.k
  | remove id =>
    simp only [BucketsOp.apply]
    cases hr : b.remove id with
    | none => rfl
    | some r => exact (remove_ourId hr).2
  | retain f s => rfl
  | clear => rfl
  | setId newId => rfl

/-- A table that calls lead to is well-formed, with the capacity it was made with. -/
theorem run_wf (S : UnstableSort) (ourId : Id) (k : Nat) (ops : List (BucketsOp T)) :
    (Machine.run (BucketsOp.apply S) (new ourId k) ops).Wf ∧ (Machine.run (BucketsOp.apply S) (new ourId k) ops).k = k :=
  Machine.run_invariant (BucketsOp.apply S) (P := fun b : Buckets T => b.Wf ∧ b.k = k)
    (fun b op h => ⟨apply_wf S b op h.1, (apply_k S b op h.1).trans h.2⟩) ops _ ⟨new_wf ourId k, rfl⟩

/-- The representation invariant of `Buckets` and what its lookups get from it, after every sequence of calls. There is a bucket,
every item is in the bucket with the smaller of the last index and the number of bits its id shares with ours, no bucket holds more
than `k` items and no item has our id. So `contains`, `get_mut` and `remove`, which search one bucket, succeed exactly when some
stored item has the id; what `get_mut` refers to and what `remove` takes out is such an item, and every other item stays. -/
theorem run_invariant_and_lookups (S : UnstableSort) (ourId : Id) (k : Nat) (ops : List (BucketsOp T)) :
    let b := Machine.run (BucketsOp.apply S) (new ourId k) ops
    (0 < b.buckets.length ∧
      (∀ i, ∀ x ∈ b.bucket i, i = min (b.buckets.length - 1) (b.ourId.matchingPrefixBits (getId x))) ∧
      (∀ bucket ∈ b.buckets, bucket.length ≤ k) ∧
      (∀ x ∈ b.values, getId x ≠ b.ourId)) ∧
    ∀ id, (b.contains id = true ↔ ∃ x ∈ b.values, getId x = id) ∧
      ((b.getMut id).isSome = true ↔ ∃ x ∈ b.values, getId x = id) ∧
      (∀ x write, b.getMut id = some (x, write) → x ∈ b.values ∧ getId x = id) ∧
      ((b.remove id).isSome = true ↔ ∃ x ∈ b.values, getId x = id) ∧
      (∀ x b', b.remove id = some (x, b') → getId x = id ∧ (x :: b'.values).Perm b.values) := by
  intro b
  obtain ⟨hwf, hk⟩ : b.Wf ∧ b.k = k := run_wf S ourId k ops
  refine ⟨⟨hwf.nonempty, fun i x hx => (hwf.dest i x hx).symm, ?_, ?_⟩, fun id => ⟨contains_iff hwf.toPlaced id,
    getMut_isSome_iff hwf.toPlaced id, ?_, ?_, fun x b' h => ⟨(remove_spec h).1, (remove_spec h).2.1⟩⟩⟩
  · intro bucket hbucket
    obtain ⟨i, hi⟩ := List.mem_iff_getElem?.mp hbucket
    have hb := hwf.bounded i
    rwa [hk, Buckets.bucket, List.getD_eq_getElem?_getD, hi] at hb
  · intro x hx
    exact hwf.notOwn _ x (hwf.toPlaced.mem_bucket hx)
  · intro x write h
    obtain ⟨hid, rest, hperm, -⟩ := getMut_spec h
    exact ⟨hperm.symm.subset List.mem_cons_self, hid⟩
  · rw [← not_iff_not, Bool.not_eq_true, Option.isSome_eq_false_iff, Option.isNone_iff_eq_none]
    exact remove_eq_none_iff hwf.toPlaced id

/-- In every state that calls lead to, an addition of an item that is not our own conserves the items: those before and the new one are
those after and what was put on the chump list, which is at most one. If it is one, exactly `k` items of its class are stored, none first
seen later than it. Without a chump list, and whatever the sort makes of ties, the items stored are the same but for one first seen at the
same time and of the same class. -/
theorem run_add_evicts (S : UnstableSort) (ourId : Id) (k : Nat) (ops : List (BucketsOp T)) (item : T) (chumps : List T)
    (hitem : getId item ≠ (Machine.run (BucketsOp.apply S) (new ourId k) ops).ourId) :
    let b := Machine.run (BucketsOp.apply S) (new ourId k) ops
    b.k = k ∧ ∃ evicted, (b.add S item (some chumps)).2 = some (chumps ++ evicted) ∧
      Evicted b (b.add S item (some chumps)).1 item evicted ∧
      ∀ S' : UnstableSort, ∃ dropped, Evicted b (b.add S' item none).1 item dropped ∧
        dropped.map (fun e => (b.prefixBits e, getFirstSeen e)) = evicted.map (fun e => (b.prefixBits e, getFirstSeen e)) := by
  intro b
  obtain ⟨hwf, hk⟩ : b.Wf ∧ b.k = k := run_wf S ourId k ops
  obtain ⟨evicted, hchumps, he⟩ := add_evicted S hwf hitem (some chumps)
  obtain ⟨ho, hk'⟩ := add_ourId S hwf item (some chumps)
  refine ⟨hk, evicted, hchumps, he, ?_⟩
  intro S'
  obtain ⟨dropped, -, hd⟩ := add_evicted S' hwf hitem none
  obtain ⟨ho', hk''⟩ := add_ourId S' hwf item none
  exact ⟨dropped, hd, he.same hd (add_wf S hwf item _) ho hk' (add_wf S' hwf item none) ho' hk''⟩

/-- With one place for each class of ids, a second node of a class is evicted by the addition that brings it. -/
theorem run_add_evicts_second :
    let first : NodeWrapper := .new ⟨Id.startingWith 128, .v4 ⟨1, 2, 3, 4⟩ 6881⟩ 10
    let second : NodeWrapper := .new ⟨Id.startingWith 129, .v4 ⟨5, 6, 7, 8⟩ 6881⟩ 20
    let b := Machine.run (BucketsOp.apply UnstableSort.insertion) (new Id.zero 1) [.add first none]
    b.k = 1 ∧ ∃ evicted, (b.add UnstableSort.insertion second (some [])).2 = some ([] ++ evicted) ∧
      Evicted b (b.add UnstableSort.insertion second (some [])).1 second evicted ∧
      ∀ S' : UnstableSort, ∃ dropped, Evicted b (b.add S' second none).1 second dropped ∧
        dropped.map (fun e => (b.prefixBits e, getFirstSeen e)) = evicted.map (fun e => (b.prefixBits e, getFirstSeen e)) :=
  run_add_evicts UnstableSort.insertion Id.zero 1
    [.add (NodeWrapper.new ⟨Id.startingWith 128, .v4 ⟨1, 2, 3, 4⟩ 6881⟩ 10) none]
    (NodeWrapper.new ⟨Id.startingWith 129, .v4 ⟨5, 6, 7, 8⟩ 6881⟩ 20) [] (by decide)

end Buckets

end RustyDht
