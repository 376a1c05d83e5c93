import RustyDht.Lemmas.Buckets

/-!
# What handling an overflow does

The inner loop of `handleBucketOverflow` (`moveMisplaced_spec`), one pass of the outer loop, the whole loop, and `Buckets.add`.
At most one bucket is over capacity at any time, by one item, and it is the one the loop stands at. A pass on it either drops one
item, and the overflow is over, or, when it is the last bucket, moves all that does not belong there into a new last bucket, which
is the next one the loop visits. The index of the last bucket is below 160 as long as an item is in it, so this ends.
-/

namespace RustyDht

open Bucketable (getId getFirstSeen)

namespace Buckets

variable {T : Type} [Bucketable T]

/-! ## The inner loop -/

/-- What the inner loop leaves: the bucket keeps what belongs there, every other bucket gets what belongs to it, and nothing is
lost. -/
structure Moved (b b' : Buckets T) (bucketIndex : Nat) (pre post : List T) : Prop where
  ourId : b'.ourId = b.ourId
  k : b'.k = b.k
  length : b'.buckets.length = b.buckets.length
  here : (b'.bucket bucketIndex).Perm (pre.filter (fun x => b.getDestBucketIdx x == bucketIndex) ++ post)
  there : ∀ j, j ≠ bucketIndex →
    (b'.bucket j).Perm (b.bucket j ++ pre.filter (fun x => b.getDestBucketIdx x == j))
  values : b'.values.Perm b.values

/-- What one turn of the inner loop leaves that swaps an item out of the bucket: the rest of the bucket, and the item at the end of the
one it belongs to. -/
structure SwappedOut (b b' : Buckets T) (bucketIndex : Nat) (rest : List T) (x : T) : Prop where
  ourId : b'.ourId = b.ourId
  k : b'.k = b.k
  length : b'.buckets.length = b.buckets.length
  here : b'.bucket bucketIndex = rest
  there : ∀ j, j ≠ bucketIndex → b'.bucket j = b.bucket j ++ [x].filter (fun x => b.getDestBucketIdx x == j)
  values : b'.values.Perm b.values

/-- An item that belongs elsewhere is swapped out: what follows it is rotated, and it goes to the bucket it belongs to. -/
theorem swappedOut {b : Buckets T} {bucketIndex : Nat} {pre post : List T} {x : T} (hlt : bucketIndex < b.buckets.length)
    (hb : b.bucket bucketIndex = pre ++ x :: post) (hd : b.getDestBucketIdx x ≠ bucketIndex) :
    SwappedOut b ((b.setBucket bucketIndex (pre ++ Vec.rotateLast post)).pushTo (b.getDestBucketIdx x) x) bucketIndex
      (pre ++ Vec.rotateLast post) x := by
  have hdlt : b.getDestBucketIdx x < (b.setBucket bucketIndex (pre ++ Vec.rotateLast post)).buckets.length := by
    rw [length_setBucket]
    exact b.getDestBucketIdx_lt x (by omega)
  refine ⟨rfl, rfl, by rw [pushTo, length_setBucket, length_setBucket], ?_, fun j hj => ?_, ?_⟩
  · rw [pushTo, bucket_setBucket_of_ne _ _ hd, bucket_setBucket_self _ _ hlt]
  · by_cases hxj : b.getDestBucketIdx x = j
    · subst hxj
      rw [pushTo, bucket_setBucket_self _ _ hdlt, bucket_setBucket_of_ne _ _ hd.symm]
      simp
    · rw [pushTo, bucket_setBucket_of_ne _ _ hxj, bucket_setBucket_of_ne _ _ hj.symm]
      simp [hxj]
  · refine (values_pushTo_perm _ x hdlt).trans (values_setBucket_perm b (m := [x]) hlt ?_)
    rw [hb]
    exact (((Vec.rotateLast_perm post).append_left pre).cons x).trans List.perm_middle.symm

/-- The inner loop on the first `pre.length` indices of a bucket whose other items are in their place. Induction on the part not
yet visited, from its end; the items after it are permuted when one before them is swapped out. -/
theorem moveMisplaced_spec (bucketIndex : Nat) (pre : List T) :
    ∀ (b : Buckets T) (post : List T), bucketIndex < b.buckets.length → b.bucket bucketIndex = pre ++ post →
      Moved b (moveMisplaced bucketIndex pre.length b) bucketIndex pre post := by
  induction pre using List.reverseRecOn with
  | nil =>
    intro b post _ hb
    exact ⟨rfl, rfl, rfl, by simp [moveMisplaced, hb], by simp [moveMisplaced], List.Perm.refl _⟩
  | append_singleton pre x ih =>
    intro b post hlt hb
    have hbx : b.bucket bucketIndex = pre ++ x :: post := by rw [hb, List.append_assoc, List.singleton_append]
    have hget : (b.bucket bucketIndex)[pre.length]? = some x := by
      rw [hbx, List.getElem?_append_right (Nat.le_refl _), Nat.sub_self]
      rfl
    have hlen : (pre ++ [x]).length = pre.length + 1 := by simp
    rw [hlen]
    simp only [moveMisplaced, hget]
    by_cases hd : b.getDestBucketIdx x = bucketIndex
    · rw [if_neg (by simp [hd])]
      have h := ih b (x :: post) hlt hbx
      refine ⟨h.ourId, h.k, h.length, ?_, ?_, h.values⟩
      · refine h.here.trans ?_
        simp [List.filter_append, hd]
      · intro j hj
        have hxj : (b.getDestBucketIdx x == j) = false := by simp [hd, hj.symm]
        refine (h.there j hj).trans ?_
        simp [List.filter_append, hxj]
    · rw [if_pos hd]
      have hswap : Vec.swapRemove (b.bucket bucketIndex) pre.length = pre ++ Vec.rotateLast post := by
        rw [hbx, Vec.swapRemove_append]
      rw [hswap]
      have hout := swappedOut hlt hbx hd
      generalize (b.setBucket bucketIndex (pre ++ Vec.rotateLast post)).pushTo (b.getDestBucketIdx x) x = b2 at hout
      have h := ih b2 (Vec.rotateLast post) (by rw [hout.length]; exact hlt) hout.here
      have hdest : ∀ y, b2.getDestBucketIdx y = b.getDestBucketIdx y := getDestBucketIdx_congr hout.ourId hout.length
      refine ⟨h.ourId.trans hout.ourId, h.k.trans hout.k, h.length.trans hout.length, ?_, fun j hj => ?_, h.values.trans hout.values⟩
      · refine h.here.trans ?_
        have hxh : (b.getDestBucketIdx x == bucketIndex) = false := by simp [hd]
        simp only [hdest, List.filter_append, List.filter_cons, hxh, List.filter_nil, List.append_nil,
          Bool.false_eq_true, if_false]
        exact (Vec.rotateLast_perm post).append_left _
      · refine (h.there j hj).trans ?_
        simp only [hdest, hout.there j hj, List.filter_append, List.append_assoc]
        exact List.perm_append_comm.append_left _

/-! ## Cutting a bucket down -/

/-- What `dropNewest` leaves of a bucket that is over capacity by at most one item: it drops nothing, or one item that was first
seen no earlier than the `k` it keeps. -/
structure Dropped (b b' : Buckets T) (i : Nat) (chumps : List T) : Prop where
  ourId : b'.ourId = b.ourId
  k : b'.k = b.k
  length : b'.buckets.length = b.buckets.length
  there : ∀ j, j ≠ i → b'.bucket j = b.bucket j
  here : (chumps ++ b'.bucket i).Perm (b.bucket i)
  values : (chumps ++ b'.values).Perm b.values
  newest : (chumps = [] ∧ (b'.bucket i).length ≤ b.k) ∨
    ∃ e, chumps = [e] ∧ (b'.bucket i).length = b.k ∧ ∀ x ∈ b'.bucket i, getFirstSeen x ≤ getFirstSeen e

omit [Bucketable T] in
theorem map_append_nil (c : Option (List T)) : c.map (· ++ []) = c := by
  cases c <;> simp

theorem dropNewest_spec (S : UnstableSort) (b : Buckets T) {i : Nat} (c : Option (List T)) (hi : i < b.buckets.length)
    (hk : (b.bucket i).length ≤ b.k + 1) :
    ∃ chumps, (b.dropNewest S i c).2 = c.map (· ++ chumps) ∧ Dropped b (b.dropNewest S i c).1 i chumps := by
  unfold dropNewest
  by_cases hgt : (b.bucket i).length > b.k
  · rw [if_pos hgt]
    have hperm := S.sortByKey_perm (getFirstSeen (T := T)) (b.bucket i)
    have hsort := S.sortByKey_sorted (getFirstSeen (T := T)) (b.bucket i)
    generalize S.sortByKey (getFirstSeen (T := T)) (b.bucket i) = sorted at hperm hsort ⊢
    dsimp only
    have hlen := hperm.length_eq
    have hdrop : (sorted.drop b.k).length = 1 := by rw [List.length_drop]; omega
    obtain ⟨e, he⟩ := List.length_eq_one_iff.mp hdrop
    have hsplit : sorted.take b.k ++ [e] = sorted := by rw [← he, List.take_append_drop]
    have hhere : ([e] ++ sorted.take b.k).Perm (b.bucket i) :=
      (List.perm_append_comm.trans (by rw [hsplit])).trans hperm
    refine ⟨[e], by rw [he], rfl, rfl, length_setBucket _ _ _, fun j hj => bucket_setBucket_of_ne _ _ hj.symm, ?_,
      values_setBucket_perm b hi hhere, Or.inr ⟨e, rfl, ?_, ?_⟩⟩
    · rw [bucket_setBucket_self _ _ hi]
      exact hhere
    · rw [bucket_setBucket_self _ _ hi, List.length_take]
      omega
    · intro x hx
      rw [bucket_setBucket_self _ _ hi] at hx
      rw [← hsplit, List.pairwise_append] at hsort
      exact hsort.2.2 x hx e (List.mem_singleton_self e)
  · rw [if_neg hgt]
    exact ⟨[], (map_append_nil c).symm, rfl, rfl, rfl, fun _ _ => rfl, List.Perm.refl _, List.Perm.refl _,
      Or.inl ⟨rfl, Nat.le_of_not_lt hgt⟩⟩

/-- What is left in a bucket was there. -/
theorem Dropped.subset {b b' : Buckets T} {i : Nat} {chumps : List T} (hd : Dropped b b' i chumps) {j : Nat} {x : T}
    (hx : x ∈ b'.bucket j) : x ∈ b.bucket j := by
  by_cases hj : j = i
  · subst hj
    exact hd.here.subset (List.mem_append_right _ hx)
  · rwa [hd.there j hj] at hx

/-- What is left is in its place. -/
theorem Dropped.placed {b b' : Buckets T} {i : Nat} {chumps : List T} (hd : Dropped b b' i chumps) (h : b.Placed) : b'.Placed := by
  refine ⟨by rw [hd.length]; exact h.nonempty, fun j x hx => ?_, fun j x hx => ?_⟩
  · rw [getDestBucketIdx_congr hd.ourId hd.length]
    exact h.dest j x (hd.subset hx)
  · rw [hd.ourId]
    exact h.notOwn j x (hd.subset hx)

/-! ## One pass -/

omit [Bucketable T] in
/-- The new bucket is empty, so every bucket reads as before. -/
theorem splitDeepest_bucket (b : Buckets T) (i j : Nat) : (b.splitDeepest i).bucket j = b.bucket j := by
  unfold splitDeepest
  split
  · rcases Nat.lt_trichotomy j b.buckets.length with h | h | h
    · simp [bucket, List.getD_eq_getElem?_getD, List.getElem?_append_left h]
    · simp [bucket, List.getD_eq_getElem?_getD, h]
    · simp [bucket, List.getD_eq_getElem?_getD, List.getElem?_append_right (Nat.le_of_lt h), Nat.le_of_lt h]
  · rfl

omit [Bucketable T] in
theorem splitDeepest_values (b : Buckets T) (i : Nat) : (b.splitDeepest i).values = b.values := by
  unfold splitDeepest
  split
  · simp [values]
  · rfl

omit [Bucketable T] in
/-- There is a bucket after the one split. -/
theorem lt_length_splitDeepest (b : Buckets T) {i : Nat} (hi : i < b.buckets.length) :
    i + 1 < (b.splitDeepest i).buckets.length := by
  unfold splitDeepest
  split
  · simp only [List.length_append, List.length_singleton]
    omega
  · omega

omit [Bucketable T] in
/-- Splitting takes no bucket away, and adds none beyond 161. -/
theorem splitDeepest_grown (b : Buckets T) {i : Nat} (hi : i < 160) :
    b.buckets.length ≤ (b.splitDeepest i).buckets.length ∧
      (b.splitDeepest i).buckets.length ≤ max b.buckets.length 161 := by
  unfold splitDeepest
  split
  · simp only [List.length_append, List.length_singleton]
    omega
  · omega

/-- Splitting moves no item to another bucket but the items of the one split. -/
theorem splitDeepest_dest {b : Buckets T} (h : b.Placed) {i j : Nat} {x : T} (hx : x ∈ b.bucket j) (hj : j ≠ i) :
    (b.splitDeepest i).getDestBucketIdx x = j := by
  have hd := h.dest j x hx
  have hlt := lt_of_mem_bucket hx
  unfold splitDeepest
  split
  · rw [getDestBucketIdx_eq] at hd ⊢
    simp only [prefixBits, List.length_append, List.length_singleton] at hd ⊢
    omega
  · exact hd

/-- The items of the bucket split belong there or in the next one. -/
theorem splitDeepest_dest_self {b : Buckets T} (h : b.Placed) {i : Nat} {x : T} (hx : x ∈ b.bucket i) :
    (b.splitDeepest i).getDestBucketIdx x = i ∨
      ((b.splitDeepest i).getDestBucketIdx x = i + 1 ∧ i + 1 = b.buckets.length) := by
  have hd := h.dest i x hx
  have hlt := lt_of_mem_bucket hx
  unfold splitDeepest
  split
  · rw [getDestBucketIdx_eq] at hd ⊢
    simp only [prefixBits, List.length_append, List.length_singleton] at hd ⊢
    omega
  · exact Or.inl hd

/-- What a pass leaves when the bucket it is at is the only one that may be over capacity, by one item: either nothing is over
capacity any more, and at most one item was dropped, or only the new last bucket is, and nothing was dropped. -/
structure Passed (b b' : Buckets T) (i : Nat) (chumps : List T) : Prop where
  ourId : b'.ourId = b.ourId
  k : b'.k = b.k
  placed : b'.Placed
  grown : b.buckets.length ≤ b'.buckets.length ∧ b'.buckets.length ≤ max b.buckets.length 161
  values : (chumps ++ b'.values).Perm b.values
  others : ∀ j, j ≠ i + 1 → (b'.bucket j).length ≤ b.k
  next : (b'.bucket (i + 1)).length ≤ b.k + 1
  newest : (chumps = [] ∧ (b.k < (b'.bucket (i + 1)).length → i + 2 = b'.buckets.length)) ∨
    ∃ e, chumps = [e] ∧ i + 1 < b'.buckets.length ∧ b'.prefixBits e = i ∧ (b'.bucket (i + 1)).length ≤ b.k ∧
      (b'.bucket i).length = b.k ∧ ∀ x ∈ b'.bucket i, getFirstSeen x ≤ getFirstSeen e

omit [Bucketable T] in
@[simp] theorem splitDeepest_ourId (b : Buckets T) (i : Nat) : (b.splitDeepest i).ourId = b.ourId := by
  unfold splitDeepest
  split <;> rfl

omit [Bucketable T] in
@[simp] theorem splitDeepest_k (b : Buckets T) (i : Nat) : (b.splitDeepest i).k = b.k := by
  unfold splitDeepest
  split <;> rfl

section Moved

variable {b b2 : Buckets T} {i : Nat}

/-- Where an item of the table is from, after a split and a move. -/
theorem Moved.mem (hm : Moved (b.splitDeepest i) b2 i (b.bucket i) []) {j : Nat} {x : T} (hx : x ∈ b2.bucket j) :
    (x ∈ b.bucket j ∧ j ≠ i) ∨ (x ∈ b.bucket i ∧ (b.splitDeepest i).getDestBucketIdx x = j) := by
  by_cases hj : j = i
  · subst hj
    have := hm.here.subset hx
    rw [List.append_nil, List.mem_filter, beq_iff_eq] at this
    exact Or.inr this
  · have := (hm.there j hj).subset hx
    rw [List.mem_append, splitDeepest_bucket, List.mem_filter, beq_iff_eq] at this
    exact this.imp (fun h => ⟨h, hj⟩) id

/-- After a split and a move every item is in its place. -/
theorem Moved.placed (hm : Moved (b.splitDeepest i) b2 i (b.bucket i) []) (h : b.Placed) (hi : i < b.buckets.length) :
    b2.Placed where
  nonempty := by
    have := lt_length_splitDeepest b hi
    rw [hm.length]
    omega
  dest j x hx := by
    rw [getDestBucketIdx_congr hm.ourId hm.length]
    rcases hm.mem hx with ⟨hx, hj⟩ | ⟨-, hd⟩
    · exact splitDeepest_dest h hx hj
    · exact hd
  notOwn j x hx := by
    rw [hm.ourId, splitDeepest_ourId]
    rcases hm.mem hx with ⟨hx, -⟩ | ⟨hx, -⟩
    · exact h.notOwn j x hx
    · exact h.notOwn i x hx

/-- After a split and a move only the bucket split and the next one have changed. -/
theorem Moved.bucket_perm (hm : Moved (b.splitDeepest i) b2 i (b.bucket i) []) (h : b.Placed) {j : Nat} (hj : j ≠ i)
    (hj1 : j = i + 1 → i + 1 ≠ b.buckets.length) : (b2.bucket j).Perm (b.bucket j) := by
  have hf : (b.bucket i).filter (fun x => (b.splitDeepest i).getDestBucketIdx x == j) = [] := by
    rw [List.filter_eq_nil_iff]
    intro x hx
    rw [beq_iff_eq]
    rcases splitDeepest_dest_self h hx with hd | ⟨hd, hl⟩
    · omega
    · intro hxj
      exact hj1 (by omega) hl
  have := hm.there j hj
  rwa [hf, List.append_nil, splitDeepest_bucket] at this

/-- A split and a move divide the items of the bucket between it and the next one. -/
theorem Moved.length_add (hm : Moved (b.splitDeepest i) b2 i (b.bucket i) []) (h : b.Placed) :
    (b2.bucket i).length + (b2.bucket (i + 1)).length = (b.bucket i).length + (b.bucket (i + 1)).length := by
  have h0 := hm.here.length_eq
  have h1 := (hm.there (i + 1) (by omega)).length_eq
  have hsplit := List.length_eq_countP_add_countP
    (fun x => (b.splitDeepest i).getDestBucketIdx x == i) (l := b.bucket i)
  have hcongr : (b.bucket i).countP (fun x => (b.splitDeepest i).getDestBucketIdx x == i + 1) =
      (b.bucket i).countP (fun x => ¬((b.splitDeepest i).getDestBucketIdx x == i) = true) := by
    refine List.countP_congr (fun x hx => ?_)
    rcases splitDeepest_dest_self h hx with hd | ⟨hd, -⟩ <;> simp [hd]
  rw [List.append_nil, ← List.countP_eq_length_filter] at h0
  rw [List.length_append, splitDeepest_bucket, ← List.countP_eq_length_filter] at h1
  omega

/-- Splitting the last bucket makes an empty one after it. -/
theorem Moved.next_of_last (hm : Moved (b.splitDeepest i) b2 i (b.bucket i) []) (he : i + 1 = b.buckets.length) :
    (b.bucket (i + 1)).length = 0 ∧ i + 2 = b2.buckets.length := by
  rw [b.bucket_eq_nil (by omega), hm.length]
  refine ⟨rfl, ?_⟩
  unfold splitDeepest
  rw [if_pos (by omega)]
  simp only [List.length_append, List.length_singleton]
  omega

/-- The bucket split keeps at most what it had. -/
theorem Moved.here_le (hm : Moved (b.splitDeepest i) b2 i (b.bucket i) []) : (b2.bucket i).length ≤ (b.bucket i).length := by
  rw [hm.here.length_eq, List.append_nil]
  exact List.length_filter_le _ _

/-- A bucket that there was before is not over capacity after a split and a move, unless it is the one split. -/
theorem Moved.length_le (hm : Moved (b.splitDeepest i) b2 i (b.bucket i) []) (h : b.Placed)
    (hk : ∀ j, j ≠ i → (b.bucket j).length ≤ b.k) {j : Nat} (hj : j ≠ i) (hj1 : j = i + 1 → i + 1 ≠ b.buckets.length) :
    (b2.bucket j).length ≤ b.k := by
  rw [(hm.bucket_perm h hj hj1).length_eq]
  exact hk j hj

end Moved

/-- What a split, a move and a cut leave of the bucket that is over capacity. -/
theorem Passed.of_dropped {b b2 b3 : Buckets T} (h : b.Placed) {i : Nat} {chumps : List T} (hi : i < b.buckets.length) (hi160 : i < 160)
    (hover : (b.bucket i).length = b.k + 1) (hk : ∀ j, j ≠ i → (b.bucket j).length ≤ b.k)
    (hm : Moved (b.splitDeepest i) b2 i (b.bucket i) []) (hd : Dropped b2 b3 i chumps) : Passed b b3 i chumps := by
  have hp2 := hm.placed h hi
  have hlen := hm.length_add h
  have hk2 : b2.k = b.k := by rw [hm.k, splitDeepest_k]
  have hthere : b3.bucket (i + 1) = b2.bucket (i + 1) := hd.there _ (by omega)
  have hnext : i + 1 ≠ b.buckets.length → (b2.bucket (i + 1)).length ≤ b.k :=
    fun hne => hm.length_le h hk (by omega) (fun _ => hne)
  have hhere : (b3.bucket i).length ≤ b.k := by
    rcases hd.newest with ⟨-, hl⟩ | ⟨e, -, hl, -⟩ <;> omega
  refine ⟨by rw [hd.ourId, hm.ourId, splitDeepest_ourId], by rw [hd.k, hk2], hd.placed hp2, ?_, ?_, ?_, ?_, ?_⟩
  · rw [hd.length, hm.length]
    exact b.splitDeepest_grown hi160
  · exact hd.values.trans (hm.values.trans (by rw [splitDeepest_values]))
  · intro j hj
    by_cases hji : j = i
    · rw [hji]
      exact hhere
    · rw [hd.there j hji]
      exact hm.length_le h hk hji (fun hj1 => absurd hj1 hj)
  · rw [hthere]
    by_cases he : i + 1 = b.buckets.length
    · have := hm.next_of_last he
      omega
    · exact Nat.le_succ_of_le (hnext he)
  · rw [hthere, hd.length]
    rcases hd.newest with ⟨hc0, -⟩ | ⟨e, he, hl, hfs⟩
    · refine Or.inl ⟨hc0, fun hgt => ?_⟩
      by_cases he : i + 1 = b.buckets.length
      · exact (hm.next_of_last he).2
      · exact absurd (hnext he) (by omega)
    · have hei : e ∈ b2.bucket i := hd.here.subset (by rw [he]; exact List.mem_append_left _ (List.mem_singleton_self e))
      have hlt2 : i + 1 < b2.buckets.length := by rw [hm.length]; exact lt_length_splitDeepest b hi
      refine Or.inr ⟨e, he, hlt2, ?_, ?_, by omega, hfs⟩
      · have := hp2.prefixBits_eq hei hlt2
        rwa [prefixBits, hd.ourId] at *
      · by_cases hee : i + 1 = b.buckets.length
        · -- The item dropped and the `k` that are kept are all that there was.
          have := hm.next_of_last hee
          have := hd.here.length_eq
          rw [he, List.length_append, List.length_singleton] at this
          omega
        · exact hnext hee

/-- A pass on the bucket that is over capacity. -/
theorem overflowPass_over (S : UnstableSort) {b : Buckets T} (h : b.Placed) {i : Nat} (c : Option (List T))
    (hover : (b.bucket i).length = b.k + 1) (hk : ∀ j, j ≠ i → (b.bucket j).length ≤ b.k) :
    ∃ chumps, (b.overflowPass S i c).2 = c.map (· ++ chumps) ∧ Passed b (b.overflowPass S i c).1 i chumps := by
  obtain ⟨x, hx⟩ : ∃ x, x ∈ b.bucket i := List.exists_mem_of_length_pos (by omega)
  have hi := lt_of_mem_bucket hx
  -- An item of the last bucket bounds its index: our own id is not stored.
  have hi160 : i < 160 := Nat.lt_of_le_of_lt (h.le_prefixBits hx) (h.prefixBits_lt hx)
  unfold overflowPass
  rw [if_pos (by omega)]
  dsimp only
  rw [splitDeepest_bucket]
  have hlt := lt_length_splitDeepest b hi
  have hm := moveMisplaced_spec i (b.bucket i) (b.splitDeepest i) [] (by omega)
    (by rw [splitDeepest_bucket, List.append_nil])
  generalize moveMisplaced i (b.bucket i).length (b.splitDeepest i) = b2 at hm
  have hi2 : i < b2.buckets.length := by rw [hm.length]; omega
  have hle : (b2.bucket i).length ≤ b2.k + 1 := by
    rw [hm.k, splitDeepest_k, ← hover]
    exact hm.here_le
  obtain ⟨chumps, hc, hd⟩ := dropNewest_spec S b2 c hi2 hle
  exact ⟨chumps, hc, .of_dropped h hi hi160 hover hk hm hd⟩

/-! ## The loop -/

omit [Bucketable T] in
/-- What is in the concatenation of the other buckets is in one of them. -/
theorem mem_flatten_eraseIdx {b : Buckets T} {i : Nat} {x : T} (h : x ∈ (b.buckets.eraseIdx i).flatten) :
    ∃ j, j ≠ i ∧ x ∈ b.bucket j := by
  obtain ⟨l, hl, hx⟩ := List.mem_flatten.mp h
  obtain ⟨j, hj, hjl⟩ := List.mem_eraseIdx_iff_getElem?.mp hl
  refine ⟨j, hj, ?_⟩
  rw [bucket, List.getD_eq_getElem?_getD, hjl]
  exact hx

/-- The items that share exactly `i` bits with our id are those of bucket `i`, unless it is the last. -/
theorem Placed.countP_prefixBits {b : Buckets T} (h : b.Placed) {i : Nat} (hi : i + 1 < b.buckets.length) :
    b.values.countP (fun x => b.prefixBits x == i) = (b.bucket i).length := by
  have hp := Vec.flatten_perm (b.getElem?_bucket (i := i) (by omega))
  rw [values, hp.countP_eq, List.countP_append]
  have h1 : (b.bucket i).countP (fun x => b.prefixBits x == i) = (b.bucket i).length := by
    rw [List.countP_eq_length]
    intro x hx
    simpa using h.prefixBits_eq hx hi
  have h2 : (b.buckets.eraseIdx i).flatten.countP (fun x => b.prefixBits x == i) = 0 := by
    rw [List.countP_eq_zero]
    intro x hx hxi
    obtain ⟨j, hj, hxj⟩ := mem_flatten_eraseIdx hx
    have hd := h.dest j x hxj
    rw [getDestBucketIdx_eq] at hd
    have : b.prefixBits x = i := by simpa using hxi
    omega
  rw [h1, h2, Nat.add_zero]

/-- A well-formed table holds at most `k` items of ids that share exactly as many bits with ours. -/
theorem Wf.countP_prefixBits_le {b : Buckets T} (h : b.Wf) (n : Nat) : b.values.countP (fun x => b.prefixBits x == n) ≤ b.k := by
  have hp := Vec.flatten_perm (b.getElem?_bucket (i := min (b.buckets.length - 1) n) (by have := h.nonempty; omega))
  rw [values, hp.countP_eq, List.countP_append]
  have h1 : (b.buckets.eraseIdx (min (b.buckets.length - 1) n)).flatten.countP (fun x => b.prefixBits x == n) = 0 := by
    rw [List.countP_eq_zero]
    intro x hx hxn
    obtain ⟨j, hj, hxj⟩ := mem_flatten_eraseIdx hx
    have hd := h.dest j x hxj
    rw [getDestBucketIdx_eq, eq_of_beq hxn] at hd
    exact hj hd.symm
  have h2 : (b.bucket (min (b.buckets.length - 1) n)).countP (fun x => b.prefixBits x == n) ≤
      (b.bucket (min (b.buckets.length - 1) n)).length := List.countP_le_length
  have h3 := h.bounded (min (b.buckets.length - 1) n)
  omega

/-- What handling an overflow leaves: a well-formed table, nothing lost but the items dropped, at most one of them, and of an item
dropped, that `k` items sharing exactly as many bits with our id are kept, all first seen no later. -/
structure Overflowed (b b' : Buckets T) (chumps : List T) : Prop where
  ourId : b'.ourId = b.ourId
  k : b'.k = b.k
  wf : b'.Wf
  grown : b.buckets.length ≤ b'.buckets.length ∧ b'.buckets.length ≤ max b.buckets.length 161
  values : (chumps ++ b'.values).Perm b.values
  newest : chumps = [] ∨ ∃ e, chumps = [e] ∧ b'.values.countP (fun x => b'.prefixBits x == b'.prefixBits e) = b'.k ∧
    ∀ x ∈ b'.values, b'.prefixBits x = b'.prefixBits e → getFirstSeen x ≤ getFirstSeen e

/-- With no bucket over capacity the loop only counts up. -/
theorem overflowLoop_of_wf (S : UnstableSort) {b : Buckets T} (h : b.Wf) (c : Option (List T)) (fuel : Nat) :
    ∀ i, (overflowLoop S fuel i b c).2 = (b, c) ∧
      (b.buckets.length ≤ i + fuel → b.buckets.length ≤ (overflowLoop S fuel i b c).1) := by
  induction fuel with
  | zero => exact fun i => ⟨rfl, fun hf => hf⟩
  | succ fuel ih =>
    intro i
    have hpass : b.overflowPass S i c = (b, c) := by
      unfold overflowPass
      rw [if_neg (Nat.not_lt.mpr (h.bounded i))]
    simp only [overflowLoop, hpass]
    split
    · exact ⟨(ih (i + 1)).1, fun hf => (ih (i + 1)).2 (by omega)⟩
    · exact ⟨rfl, fun _ => by omega⟩

/-- The item a pass drops is of a class of which `k` items are kept. -/
theorem Passed.overflowed {b b' : Buckets T} {i : Nat} {chumps : List T} (hp : Passed b b' i chumps)
    (hk : (b'.bucket (i + 1)).length ≤ b.k) : Overflowed b b' chumps where
  ourId := hp.ourId
  k := hp.k
  wf :=
    { toPlaced := hp.placed
      bounded := fun j => by
        rw [hp.k]
        by_cases hj : j = i + 1
        · rw [hj]
          exact hk
        · exact hp.others j hj }
  grown := hp.grown
  values := hp.values
  newest := by
    rcases hp.newest with ⟨hc, -⟩ | ⟨e, he, hlt, hei, -, hl, hfs⟩
    · exact Or.inl hc
    · refine Or.inr ⟨e, he, ?_, ?_⟩
      · rw [hei, hp.placed.countP_prefixBits hlt, hl, hp.k]
      · intro x hx hxe
        have hb := hp.placed.mem_bucket hx
        rw [getDestBucketIdx_eq, hxe, hei, Nat.min_eq_right (by omega)] at hb
        exact hfs x hb

/-- A pass that drops nothing and moves the overflow on is followed by the rest of the loop. -/
theorem Overflowed.of_passed {b b1 b2 : Buckets T} {i : Nat} {chumps : List T} (hp : Passed b b1 i [])
    (ho : Overflowed b1 b2 chumps) : Overflowed b b2 chumps where
  ourId := ho.ourId.trans hp.ourId
  k := ho.k.trans hp.k
  wf := ho.wf
  grown := by
    have h1 := hp.grown
    have h2 := ho.grown
    omega
  values := ho.values.trans (by simpa using hp.values)
  newest := ho.newest

/-- The loop of `handleBucketOverflow`, from a bucket that is the only one that may be over capacity. It runs to its end on fuel that
reaches past the buckets there are and past the number of buckets that ids of 160 bits can fill. -/
theorem overflowLoop_spec (S : UnstableSort) (c : Option (List T)) (fuel : Nat) :
    ∀ (i : Nat) (b : Buckets T), b.Placed → (∀ j, j ≠ i → (b.bucket j).length ≤ b.k) → (b.bucket i).length ≤ b.k + 1 →
      max b.buckets.length 161 ≤ i + fuel →
      ∃ chumps, (overflowLoop S fuel i b c).2.2 = c.map (· ++ chumps) ∧
        Overflowed b (overflowLoop S fuel i b c).2.1 chumps ∧
        (overflowLoop S fuel i b c).2.1.buckets.length ≤ (overflowLoop S fuel i b c).1 := by
  induction fuel with
  | zero =>
    intro i b h hk hi hf
    have hwf : b.Wf := by
      refine ⟨h, fun j => ?_⟩
      by_cases hj : j = i
      · rw [hj, b.bucket_eq_nil (by omega)]
        exact Nat.zero_le _
      · exact hk j hj
    exact ⟨[], (map_append_nil c).symm,
      ⟨rfl, rfl, hwf, ⟨Nat.le_refl _, Nat.le_max_left _ _⟩, List.Perm.refl _, Or.inl rfl⟩, by simp only [overflowLoop]; omega⟩
  | succ fuel ih =>
    intro i b h hk hi hf
    by_cases hover : (b.bucket i).length ≤ b.k
    · have hwf : b.Wf := by
        refine ⟨h, fun j => ?_⟩
        by_cases hj : j = i
        · rw [hj]
          exact hover
        · exact hk j hj
      have hl := overflowLoop_of_wf S hwf c (fuel + 1) i
      rw [hl.1]
      exact ⟨[], (map_append_nil c).symm,
        ⟨rfl, rfl, hwf, ⟨Nat.le_refl _, Nat.le_max_left _ _⟩, List.Perm.refl _, Or.inl rfl⟩, hl.2 (by omega)⟩
    · have hilt : i < b.buckets.length := by
        by_contra hge
        rw [b.bucket_eq_nil (Nat.le_of_not_lt hge)] at hover
        exact hover (Nat.zero_le _)
      obtain ⟨chumps, hc, hp⟩ := overflowPass_over S h c (by omega) hk
      simp only [overflowLoop, if_pos hilt]
      rw [hc]
      generalize (b.overflowPass S i c).1 = b1 at hp
      have hg := hp.grown
      by_cases hnext : (b1.bucket (i + 1)).length ≤ b.k
      · -- The overflow is over: the remaining passes do nothing.
        have ho := hp.overflowed hnext
        have hl := overflowLoop_of_wf S ho.wf (c.map (· ++ chumps)) fuel (i + 1)
        rw [hl.1]
        exact ⟨chumps, rfl, ho, hl.2 (by omega)⟩
      · -- The overflow has moved to the new last bucket.
        rcases hp.newest with ⟨hc0, hlast⟩ | ⟨_, _, _, _, hle, _⟩
        · subst hc0
          rw [map_append_nil]
          have hl := hlast (by omega)
          obtain ⟨chumps, h1, h2, h3⟩ := ih (i + 1) b1 hp.placed (by rw [hp.k]; exact hp.others) (by rw [hp.k]; exact hp.next)
            (by omega)
          exact ⟨chumps, h1, Overflowed.of_passed hp h2, h3⟩
        · exact absurd hle hnext

/-! ## How far the loop gets -/

/-- A loop that has left its table behind does no more on more fuel. -/
theorem overflowLoop_add_fuel (S : UnstableSort) (n m : Nat) : ∀ (i : Nat) (b : Buckets T) (c : Option (List T)),
    (overflowLoop S n i b c).2.1.buckets.length ≤ (overflowLoop S n i b c).1 →
      overflowLoop S (n + m) i b c = overflowLoop S n i b c := by
  induction n with
  | zero =>
    intro i b c h
    cases m with
    | zero => rfl
    | succ m =>
      have hend : b.buckets.length ≤ i := h
      rw [Nat.zero_add]
      simp only [overflowLoop, if_neg (Nat.not_lt.mpr hend)]
  | succ n ih =>
    intro i b c h
    rw [Nat.succ_add]
    simp only [overflowLoop] at h ⊢
    split
    · rename_i hi
      rw [if_pos hi] at h
      exact ih _ _ _ h
    · rfl

/-- The inner loop makes no bucket and takes none away. -/
theorem length_moveMisplaced (bucketIndex n : Nat) :
    ∀ b : Buckets T, (moveMisplaced bucketIndex n b).buckets.length = b.buckets.length := by
  induction n with
  | zero => exact fun b => rfl
  | succ n ih =>
    intro b
    simp only [moveMisplaced]
    split
    · exact ih b
    · split
      · rw [ih, pushTo, length_setBucket, length_setBucket]
      · exact ih b

/-- A pass on the bucket that is over capacity makes a bucket exactly when it is at the deepest one. -/
theorem length_overflowPass (S : UnstableSort) {b : Buckets T} {i : Nat} (hover : b.k < (b.bucket i).length)
    (c : Option (List T)) : (b.overflowPass S i c).1.buckets.length = (b.splitDeepest i).buckets.length := by
  unfold overflowPass dropNewest
  rw [if_pos hover]
  dsimp only
  split
  · rw [length_setBucket, length_moveMisplaced]
  · exact length_moveMisplaced _ _ _

/-- The items of a bucket share as many bits with our id as its index says. -/
theorem Placed.length_bucket_le {b : Buckets T} (h : b.Placed) {i n : Nat} (hn : n ≤ i) :
    (b.bucket i).length ≤ b.values.countP (fun x => n ≤ b.prefixBits x) := by
  by_cases hi : i < b.buckets.length
  · have hall : (b.bucket i).countP (fun x => n ≤ b.prefixBits x) = (b.bucket i).length := by
      rw [List.countP_eq_length]
      intro x hx
      have := h.le_prefixBits hx
      rw [decide_eq_true_eq]
      omega
    have hp := Vec.flatten_perm (b.getElem?_bucket hi)
    rw [values, hp.countP_eq, List.countP_append, hall]
    exact Nat.le_add_right _ _
  · simp [b.bucket_eq_nil (Nat.le_of_not_lt hi)]

/-- The loop makes a bucket only where more than `k` items share as many bits with our id as the index of the one before it. -/
theorem overflowLoop_grown (S : UnstableSort) (fuel : Nat) : ∀ (i : Nat) (b : Buckets T) (c : Option (List T)), b.Placed →
    (∀ j, j ≠ i → (b.bucket j).length ≤ b.k) → (b.bucket i).length ≤ b.k + 1 →
      (overflowLoop S fuel i b c).2.1.buckets.length ≤ b.buckets.length ∨
        b.k < b.values.countP (fun x => (overflowLoop S fuel i b c).2.1.buckets.length - 2 ≤ b.prefixBits x) := by
  induction fuel with
  | zero => exact fun i b c _ _ _ => Or.inl (Nat.le_refl _)
  | succ fuel ih =>
    intro i b c h hk hi
    by_cases hover : (b.bucket i).length ≤ b.k
    · have hwf : b.Wf := by
        refine ⟨h, fun j => ?_⟩
        by_cases hj : j = i
        · rw [hj]
          exact hover
        · exact hk j hj
      rw [(overflowLoop_of_wf S hwf c (fuel + 1) i).1]
      exact Or.inl (Nat.le_refl _)
    · have hilt : i < b.buckets.length := by
        by_contra hge
        simp [b.bucket_eq_nil (Nat.le_of_not_lt hge)] at hover
      obtain ⟨chumps, hc, hp⟩ := overflowPass_over S h c (by omega) hk
      have hlen := length_overflowPass S (Nat.lt_of_not_le hover) c
      simp only [overflowLoop, if_pos hilt]
      generalize (b.overflowPass S i c).2 = c1 at hc
      generalize (b.overflowPass S i c).1 = b1 at hp hlen
      -- What is not longer than the pass leaves it is not longer than before, or the deepest bucket was the one over capacity.
      have hpass : ∀ n, n ≤ b1.buckets.length → n ≤ b.buckets.length ∨ b.k < b.values.countP (fun x => n - 2 ≤ b.prefixBits x) := by
        intro n hn
        rw [hlen, splitDeepest] at hn
        split at hn
        · rw [List.length_append, List.length_singleton] at hn
          exact Or.inr (Nat.lt_of_lt_of_le (Nat.lt_of_not_le hover) (h.length_bucket_le (by omega)))
        · exact Or.inl hn
      by_cases hnext : (b1.bucket (i + 1)).length ≤ b.k
      · have ho := hp.overflowed hnext
        rw [(overflowLoop_of_wf S ho.wf c1 fuel (i + 1)).1]
        exact hpass _ (Nat.le_refl _)
      · rcases hp.newest with ⟨rfl, -⟩ | ⟨_, _, _, _, hle, _⟩
        · rcases ih (i + 1) b1 c1 hp.placed (by rw [hp.k]; exact hp.others) (by rw [hp.k]; exact hp.next) with hle | hgt
          · exact hpass _ hle
          · have hbits : ∀ y, b1.prefixBits y = b.prefixBits y := prefixBits_congr hp.ourId
            have hperm : b1.values.Perm b.values := by simpa using hp.values
            simp only [hbits, hp.k, hperm.countP_eq] at hgt
            exact Or.inr hgt
        · exact absurd hle hnext

/-! ## Adding an item -/

/-- Pushing an item that is not our own to the bucket of its id keeps every item in its place. -/
theorem Placed.pushTo {b : Buckets T} (h : b.Placed) {x : T} (hx : getId x ≠ b.ourId) :
    (b.pushTo (b.getDestBucketIdx x) x).Placed := by
  have hlt := b.getDestBucketIdx_lt x h.nonempty
  have hmem : ∀ {j : Nat} {y : T}, y ∈ (b.pushTo (b.getDestBucketIdx x) x).bucket j →
      y ∈ b.bucket j ∨ (y = x ∧ j = b.getDestBucketIdx x) := by
    intro j y hy
    by_cases hj : b.getDestBucketIdx x = j
    · rw [← hj, Buckets.pushTo, bucket_setBucket_self _ _ hlt, List.mem_append, List.mem_singleton] at hy
      rw [← hj]
      exact hy.imp id (fun h => ⟨h, rfl⟩)
    · rw [Buckets.pushTo, bucket_setBucket_of_ne _ _ hj] at hy
      exact Or.inl hy
  have hdest : ∀ y, (b.pushTo (b.getDestBucketIdx x) x).getDestBucketIdx y = b.getDestBucketIdx y :=
    getDestBucketIdx_congr rfl (length_setBucket _ _ _)
  refine ⟨by rw [Buckets.pushTo, length_setBucket]; exact h.nonempty, fun j y hy => ?_, fun j y hy => ?_⟩
  · rw [hdest]
    rcases hmem hy with hy | ⟨rfl, rfl⟩
    · exact h.dest j y hy
    · rfl
  · rcases hmem hy with hy | ⟨rfl, -⟩
    · exact h.notOwn j y hy
    · exact hx

/-- The item added is the only one that may be over capacity where the loop starts. -/
theorem Wf.pushed {b : Buckets T} (h : b.Wf) (x : T) :
    (∀ j, j ≠ b.getDestBucketIdx x → ((b.pushTo (b.getDestBucketIdx x) x).bucket j).length ≤ b.k) ∧
      ((b.pushTo (b.getDestBucketIdx x) x).bucket (b.getDestBucketIdx x)).length ≤ b.k + 1 := by
  have hlt := b.getDestBucketIdx_lt x h.nonempty
  refine ⟨fun j hj => ?_, ?_⟩
  · rw [Buckets.pushTo, bucket_setBucket_of_ne _ _ hj.symm]
    exact h.bounded j
  · rw [Buckets.pushTo, bucket_setBucket_self _ _ hlt, List.length_append, List.length_singleton]
    exact Nat.succ_le_succ (h.bounded _)

/-- What adding an item that is not our own does: nothing is lost but the items dropped. -/
theorem add_spec (S : UnstableSort) {b : Buckets T} (h : b.Wf) {x : T} (hx : getId x ≠ b.ourId) (c : Option (List T)) :
    ∃ chumps, (b.add S x c).2 = c.map (· ++ chumps) ∧
      Overflowed (b.pushTo (b.getDestBucketIdx x) x) (b.add S x c).1 chumps := by
  obtain ⟨hk, hover⟩ := h.pushed x
  unfold add handleBucketOverflow overflowFuel
  rw [if_neg hx]
  obtain ⟨chumps, h1, h2, -⟩ := overflowLoop_spec S c ((b.pushTo (b.getDestBucketIdx x) x).buckets.length + 161)
    (b.getDestBucketIdx x) (b.pushTo (b.getDestBucketIdx x) x) (h.toPlaced.pushTo hx) hk hover (by omega)
  exact ⟨chumps, h1, h2⟩

/-- An addition drops nothing, or one item of the class of the item added: that class was full, and only it has grown. -/
theorem add_class (S : UnstableSort) {b : Buckets T} (h : b.Wf) {x : T} (hx : getId x ≠ b.ourId) (c : Option (List T)) :
    ∃ chumps, (b.add S x c).2 = c.map (· ++ chumps) ∧ (chumps ++ (b.add S x c).1.values).Perm (x :: b.values) ∧
      (chumps = [] ∨ ∃ e, chumps = [e] ∧ b.prefixBits e = b.prefixBits x ∧
        b.values.countP (fun y => b.prefixBits y == b.prefixBits x) = b.k) := by
  obtain ⟨chumps, hc, ho⟩ := add_spec S h hx c
  have hperm := ho.values.trans (values_pushTo_perm b x (b.getDestBucketIdx_lt x h.nonempty))
  refine ⟨chumps, hc, hperm, ?_⟩
  rcases ho.newest with hnil | ⟨e, rfl, hfull, -⟩
  · exact Or.inl hnil
  · have hk : (b.add S x c).1.k = b.k := ho.k
    have hbits : ∀ y, (b.add S x c).1.prefixBits y = b.prefixBits y := prefixBits_congr ho.ourId
    have hcount := hperm.countP_eq (fun y => b.prefixBits y == b.prefixBits e)
    have hold := h.countP_prefixBits_le (b.prefixBits e)
    simp only [hbits] at hfull
    rw [List.countP_append, List.countP_singleton, if_pos (beq_self_eq_true _), hfull, hk, List.countP_cons] at hcount
    by_cases he : b.prefixBits x = b.prefixBits e
    · rw [if_pos (beq_iff_eq.mpr he)] at hcount
      exact Or.inr ⟨e, rfl, he.symm, by rw [he]; omega⟩
    · rw [if_neg (by simpa using he)] at hcount
      omega

/-- An item of a class that is not full is added and nothing is dropped. -/
theorem add_fits (S : UnstableSort) {b : Buckets T} (h : b.Wf) {x : T} (hx : getId x ≠ b.ourId) (c : Option (List T))
    (hroom : b.values.countP (fun y => b.prefixBits y == b.prefixBits x) < b.k) :
    (b.add S x c).1.values.Perm (x :: b.values) := by
  obtain ⟨chumps, -, hperm, hchumps⟩ := add_class S h hx c
  rcases hchumps with rfl | ⟨e, -, -, hfull⟩
  · exact hperm
  · omega

/-- Adding our own id changes nothing. -/
theorem add_own (S : UnstableSort) (b : Buckets T) {x : T} (hx : getId x = b.ourId) (c : Option (List T)) :
    b.add S x c = (b, c) := by
  unfold add
  rw [if_pos hx]

/-- Adding an item keeps the table well-formed, whether the item is ours or not. -/
theorem add_wf (S : UnstableSort) {b : Buckets T} (h : b.Wf) (x : T) (c : Option (List T)) : (b.add S x c).1.Wf := by
  by_cases hx : getId x = b.ourId
  · rw [add_own S b hx c]
    exact h
  · obtain ⟨_, -, ho⟩ := add_spec S h hx c
    exact ho.wf

theorem add_ourId (S : UnstableSort) {b : Buckets T} (h : b.Wf) (x : T) (c : Option (List T)) :
    (b.add S x c).1.ourId = b.ourId ∧ (b.add S x c).1.k = b.k := by
  by_cases hx : getId x = b.ourId
  · rw [add_own S b hx c]
    exact ⟨rfl, rfl⟩
  · obtain ⟨_, -, ho⟩ := add_spec S h hx c
    exact ⟨ho.ourId, ho.k⟩

/-- Adding an item loses nothing but the item itself, if it has our id, and what is put on the chump list. -/
theorem add_values (S : UnstableSort) {b : Buckets T} (h : b.Wf) (x : T) (c : Option (List T)) :
    ∃ chumps lost, (b.add S x c).2 = c.map (· ++ chumps) ∧ (lost ++ (chumps ++ (b.add S x c).1.values)).Perm (x :: b.values) := by
  by_cases hx : getId x = b.ourId
  · rw [add_own S b hx c]
    exact ⟨[], [x], (map_append_nil c).symm, List.Perm.refl _⟩
  · obtain ⟨chumps, hc, ho⟩ := add_spec S h hx c
    exact ⟨chumps, [], hc, ho.values.trans (values_pushTo_perm b x (b.getDestBucketIdx_lt x h.nonempty))⟩

/-- What is stored or dropped after an addition was stored before or is the item added. -/
theorem mem_add (S : UnstableSort) {b : Buckets T} (h : b.Wf) (x : T) (c : Option (List T)) :
    ∃ chumps, (b.add S x c).2 = c.map (· ++ chumps) ∧
      ∀ y, y ∈ chumps ∨ y ∈ (b.add S x c).1.values → y = x ∨ y ∈ b.values := by
  obtain ⟨chumps, lost, hc, hperm⟩ := add_values S h x c
  exact ⟨chumps, hc, fun y hy => List.mem_cons.mp (hperm.subset (List.mem_append_right lost (List.mem_append.mpr hy)))⟩

/-! ## What an addition evicts -/

/-- What an addition evicts: nothing is lost, at most one item goes, and of its class exactly `k` items are kept, all first seen no
later. -/
structure Evicted (b b' : Buckets T) (x : T) (evicted : List T) : Prop where
  items : (evicted ++ b'.values).Perm (x :: b.values)
  length : evicted.length ≤ 1
  full : ∀ e ∈ evicted, b'.values.countP (fun y => b.prefixBits y == b.prefixBits e) = b.k
  newest : ∀ e ∈ evicted, ∀ y ∈ b'.values, b.prefixBits y = b.prefixBits e → getFirstSeen y ≤ getFirstSeen e

/-- An addition of an item that is not our own evicts what it puts on the chump list. -/
theorem add_evicted (S : UnstableSort) {b : Buckets T} (h : b.Wf) {x : T} (hx : getId x ≠ b.ourId) (c : Option (List T)) :
    ∃ evicted, (b.add S x c).2 = c.map (· ++ evicted) ∧ Evicted b (b.add S x c).1 x evicted := by
  obtain ⟨evicted, hc, ho⟩ := add_spec S h hx c
  have hperm := ho.values.trans (values_pushTo_perm b x (b.getDestBucketIdx_lt x h.nonempty))
  have hbits : ∀ y, (b.add S x c).1.prefixBits y = b.prefixBits y := prefixBits_congr ho.ourId
  have hk : (b.add S x c).1.k = b.k := ho.k
  refine ⟨evicted, hc, ?_⟩
  rcases ho.newest with rfl | ⟨e, rfl, hfull, hnewest⟩
  · exact ⟨hperm, by simp, by simp, by simp⟩
  · simp only [hbits, hk] at hfull hnewest
    refine ⟨hperm, by simp, ?_, ?_⟩
    · simpa using hfull
    · simpa using hnewest

/-- When one of two additions evicts an item, the other evicts one too, of the same class and first seen at the same time. -/
theorem Evicted.exists_same {b b' b'' : Buckets T} {x e : T} {dropped : List T} (he : Evicted b b' x [e])
    (hd : Evicted b b'' x dropped) (hwf : b''.Wf) (ho : b''.ourId = b.ourId) (hk : b''.k = b.k) :
    ∃ d, dropped = [d] ∧ b.prefixBits d = b.prefixBits e ∧ getFirstSeen e ≤ getFirstSeen d := by
  have hperm := he.items.trans hd.items.symm
  -- The class of `e` has one item more than fits, so the other addition drops one of it.
  have hcount := hperm.countP_eq (fun y => b.prefixBits y == b.prefixBits e)
  have hfull := he.full e (List.mem_singleton_self e)
  have hfits := hwf.countP_prefixBits_le (b.prefixBits e)
  have hbits : ∀ y, b''.prefixBits y = b.prefixBits y := prefixBits_congr ho
  simp only [hbits, hk] at hfits
  rw [List.countP_append, List.countP_append, List.countP_singleton, if_pos (beq_self_eq_true _), hfull] at hcount
  have hpos : 0 < dropped.countP (fun y => b.prefixBits y == b.prefixBits e) := by omega
  obtain ⟨d, hmem, hclass⟩ := List.countP_pos_iff.mp hpos
  rw [beq_iff_eq] at hclass
  have hsingle : dropped = [d] := by
    have hlength := hd.length
    rcases dropped with _ | ⟨d', _ | ⟨d'', rest⟩⟩
    · simp at hmem
    · rw [List.mem_singleton.mp hmem]
    · simp at hlength
  refine ⟨d, hsingle, hclass, ?_⟩
  -- `e` is kept by the other addition, or it is the item dropped.
  rcases List.mem_append.mp (hperm.subset (List.mem_append_left _ (List.mem_singleton_self e))) with hed | hev
  · rw [hsingle, List.mem_singleton] at hed
    rw [hed]
  · exact hd.newest d hmem e hev hclass.symm

/-- Two additions of one item to a table evict items of one class, first seen at the same time, or both evict nothing. -/
theorem Evicted.same {b b' b'' : Buckets T} {x : T} {evicted dropped : List T} (he : Evicted b b' x evicted)
    (hd : Evicted b b'' x dropped) (hwf' : b'.Wf) (ho' : b'.ourId = b.ourId) (hk' : b'.k = b.k) (hwf : b''.Wf)
    (ho : b''.ourId = b.ourId) (hk : b''.k = b.k) :
    dropped.map (fun e => (b.prefixBits e, getFirstSeen e)) = evicted.map (fun e => (b.prefixBits e, getFirstSeen e)) := by
  have hlength := he.length
  rcases evicted with _ | ⟨e, _ | ⟨e'', rest⟩⟩
  · rcases dropped with _ | ⟨d, rest⟩
    · rfl
    · have hrest : rest = [] := by simpa using hd.length
      subst hrest
      obtain ⟨e, heq, -⟩ := hd.exists_same he hwf' ho' hk'
      simp at heq
  · obtain ⟨d, rfl, hclass, hle⟩ := he.exists_same hd hwf ho hk
    obtain ⟨e', heq, -, hle'⟩ := hd.exists_same he hwf' ho' hk'
    obtain rfl := List.singleton_inj.mp heq
    simp [hclass, Nat.le_antisymm hle' hle]
  · simp at hlength

/-! ## How many buckets there are -/

/-- An addition makes a bucket only where more than `k` items, the new one among them, share as many bits with our id as the index of
the bucket before it. -/
theorem add_grown (S : UnstableSort) {b : Buckets T} (h : b.Wf) {x : T} (hx : getId x ≠ b.ourId) (c : Option (List T)) :
    (b.add S x c).1.buckets.length ≤ b.buckets.length ∨
      b.k < (x :: b.values).countP (fun y => (b.add S x c).1.buckets.length - 2 ≤ b.prefixBits y) := by
  have hlt := b.getDestBucketIdx_lt x h.nonempty
  obtain ⟨hk, hover⟩ := h.pushed x
  have hgrown := overflowLoop_grown S (b.pushTo (b.getDestBucketIdx x) x).overflowFuel (b.getDestBucketIdx x) _ c
    (h.toPlaced.pushTo hx) hk hover
  unfold add handleBucketOverflow
  rw [if_neg hx]
  dsimp only
  rw [pushTo, length_setBucket, ← pushTo, (values_pushTo_perm b x hlt).countP_eq] at hgrown
  exact hgrown

/-- Only one id that is not ours shares 159 bits with it. -/
theorem countP_deepest_le {b : Buckets T} {l : List T} (hnodup : (l.map getId).Nodup) (hown : ∀ x ∈ l, getId x ≠ b.ourId) :
    l.countP (fun x => 159 ≤ b.prefixBits x) ≤ 1 := by
  rw [List.countP_eq_length_filter]
  have hmem : ∀ x ∈ l.filter (fun x => 159 ≤ b.prefixBits x), x ∈ l ∧ 159 ≤ b.prefixBits x := by
    intro x hx
    simpa using hx
  have hsub : ((l.filter (fun x => 159 ≤ b.prefixBits x)).map getId).Nodup := hnodup.sublist (List.filter_sublist.map getId)
  generalize l.filter (fun x => 159 ≤ b.prefixBits x) = deepest at hmem hsub
  rcases deepest with _ | ⟨x, _ | ⟨y, rest⟩⟩
  · simp
  · simp
  · obtain ⟨hx, hx159⟩ := hmem x (by simp)
    obtain ⟨hy, hy159⟩ := hmem y (by simp)
    have hne : getId x ≠ getId y := by
      intro he
      simp [he] at hsub
    exact absurd (Id.eq_of_le_matchingPrefixBits hx159 hy159 (hown x hx) (hown y hy)) hne

/-- With room for an item in each bucket, an addition of an item of a new id makes no more than 160 buckets. -/
theorem length_add_le (S : UnstableSort) {b : Buckets T} (h : b.Wf) (hk : 1 ≤ b.k) {x : T}
    (hnodup : ((x :: b.values).map getId).Nodup) (hlen : b.buckets.length ≤ 160) (c : Option (List T)) :
    (b.add S x c).1.buckets.length ≤ 160 := by
  by_cases hx : getId x = b.ourId
  · rw [add_own S b hx c]
    exact hlen
  · have hown : ∀ y ∈ x :: b.values, getId y ≠ b.ourId := by
      intro y hy
      rcases List.mem_cons.mp hy with rfl | hy
      · exact hx
      · exact h.notOwn _ y (h.toPlaced.mem_bucket hy)
    rcases add_grown S h hx c with hle | hgt
    · omega
    · by_contra hgt160
      have hmono : (x :: b.values).countP (fun y => (b.add S x c).1.buckets.length - 2 ≤ b.prefixBits y) ≤
          (x :: b.values).countP (fun y => 159 ≤ b.prefixBits y) := by
        refine List.countP_mono_left (fun y _ hy => ?_)
        rw [decide_eq_true_eq] at hy ⊢
        omega
      have hone := countP_deepest_le (b := b) hnodup hown
      omega

end Buckets

end RustyDht
