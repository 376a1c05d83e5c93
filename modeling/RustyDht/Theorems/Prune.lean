import RustyDht.Theorems.NodeRecords

/-!
# Pruning

The documentation of `prune` gives each table a cutoff of its own: verified records go by when they were last verified and
`grace_period`, those never verified by when they were last seen and `unverified_grace_period`. The code reads both periods for both
tables: a record never verified has to pass both cutoffs, and when one subtraction from the clock is impossible neither table is pruned.
Both agree exactly where no record is caught between the two.
-/

namespace RustyDht

namespace NodeBucketStorage

/-- A time is not before the cutoff of a period; a cutoff that the clock cannot represent removes nothing. -/
def Recent (now : Instant) (period : Duration) (time : Instant) : Prop :=
  match Instant.checkedSub now period with
  | none => True
  | some cutoff => cutoff ≤ time

/-- What the documentation says that pruning leaves of each table, where the clock reads `now` for the cutoff of the verified one and
`now'` for that of the unverified one. Of a record that was demoted from the verified table it says nothing. -/
structure PrunedByOwnCutoffs (s s' : NodeBucketStorage) (gracePeriod unverifiedGracePeriod : Duration) (now now' : Instant) : Prop where
  /-- A verified record remains exactly when it was last verified within the grace period. -/
  verified : ∀ w ∈ s.getAllVerified, w ∈ s'.getAllVerified ↔ ∃ time, w.lastVerified = some time ∧ Recent now gracePeriod time
  /-- A record that was never verified remains exactly when it was last seen within its own. -/
  neverVerified : ∀ w ∈ s.getAllUnverified, w.lastVerified = none →
    (w ∈ s'.getAllUnverified ↔ Recent now' unverifiedGracePeriod w.lastSeen)
  /-- What remains is as it was, where it was; nothing is added. -/
  unmoved : ∀ i, (s'.verified.bucket i).Sublist (s.verified.bucket i) ∧ (s'.unverified.bucket i).Sublist (s.unverified.bucket i)

/-- No record is caught by the cutoff of the other table. -/
structure NoneCaught (s : NodeBucketStorage) (gracePeriod unverifiedGracePeriod : Duration) (now now' : Instant) : Prop where
  /-- Where there are both cutoffs, what was never verified and is recent by its own is recent by the other too. -/
  both : gracePeriod ≤ now → unverifiedGracePeriod ≤ now' → ∀ w ∈ s.getAllUnverified, w.lastVerified = none →
    now' - unverifiedGracePeriod ≤ w.lastSeen → now - gracePeriod ≤ w.lastSeen
  /-- Where the grace period is too long, nothing that was never verified is stale. -/
  unverified : now < gracePeriod → unverifiedGracePeriod ≤ now' → ∀ w ∈ s.getAllUnverified, w.lastVerified = none →
    now' - unverifiedGracePeriod ≤ w.lastSeen
  /-- Where the unverified grace period is too long, nothing verified is stale. -/
  verified : gracePeriod ≤ now → now' < unverifiedGracePeriod → ∀ w ∈ s.getAllVerified, ∀ time, w.lastVerified = some time →
    now - gracePeriod ≤ time

/-! ## Cutoffs -/

theorem recent_of_lt {now : Instant} {period : Duration} (h : now < period) (time : Instant) : Recent now period time := by
  unfold Recent Instant.checkedSub
  rw [if_neg (Nat.not_le.mpr h)]
  trivial

theorem recent_iff {now : Instant} {period : Duration} (h : period ≤ now) (time : Instant) :
    Recent now period time ↔ now - period ≤ time := by
  unfold Recent Instant.checkedSub
  rw [if_pos h]

variable {s : NodeBucketStorage} {gracePeriod unverifiedGracePeriod : Duration} {now now' : Instant}

/-- Without one of the cutoffs nothing is pruned. -/
theorem prune_of_lt (h : now < gracePeriod ∨ now' < unverifiedGracePeriod) :
    s.prune gracePeriod unverifiedGracePeriod now now' = s := by
  unfold prune Instant.checkedSub
  rcases h with h | h
  · simp [if_neg (Nat.not_le.mpr h)]
  · rw [if_neg (Nat.not_le.mpr h)]
    split <;> rfl

/-- With both cutoffs, the verified records that remain are those verified since the first. -/
theorem mem_prune_verified (hg : gracePeriod ≤ now) (hu : unverifiedGracePeriod ≤ now') (w : NodeWrapper) :
    w ∈ (s.prune gracePeriod unverifiedGracePeriod now now').getAllVerified ↔
      w ∈ s.getAllVerified ∧ ∃ time, w.lastVerified = some time ∧ now - gracePeriod ≤ time := by
  unfold prune Instant.checkedSub
  rw [if_pos hg, if_pos hu]
  simp only [getAllVerified, Buckets.retain_values, List.mem_filter]
  cases hv : w.lastVerified <;> simp [keepVerified, hv]

/-- With both cutoffs, of what was never verified what was seen since both remains. -/
theorem mem_prune_neverVerified (hg : gracePeriod ≤ now) (hu : unverifiedGracePeriod ≤ now') {w : NodeWrapper}
    (hw : w.lastVerified = none) :
    w ∈ (s.prune gracePeriod unverifiedGracePeriod now now').getAllUnverified ↔
      w ∈ s.getAllUnverified ∧ now - gracePeriod ≤ w.lastSeen ∧ now' - unverifiedGracePeriod ≤ w.lastSeen := by
  unfold prune Instant.checkedSub
  rw [if_pos hg, if_pos hu]
  simp [getAllUnverified, Buckets.retain_values, keepUnverified, hw]

/-- What is pruned leaves the rest of each bucket as it is. -/
theorem prune_unmoved (s : NodeBucketStorage) (gracePeriod unverifiedGracePeriod : Duration) (now now' : Instant) (i : Nat) :
    ((s.prune gracePeriod unverifiedGracePeriod now now').verified.bucket i).Sublist (s.verified.bucket i) ∧
      ((s.prune gracePeriod unverifiedGracePeriod now now').unverified.bucket i).Sublist (s.unverified.bucket i) := by
  unfold prune
  split
  · exact ⟨List.Sublist.refl _, List.Sublist.refl _⟩
  · split
    · exact ⟨List.Sublist.refl _, List.Sublist.refl _⟩
    · exact ⟨Buckets.retain_bucket_sublist _ _ _ i, Buckets.retain_bucket_sublist _ _ _ i⟩

/-! ## Both rules -/

/-- Where pruning goes by each table's own cutoff, no record is caught by the other. -/
theorem PrunedByOwnCutoffs.noneCaught
    (h : PrunedByOwnCutoffs s (s.prune gracePeriod unverifiedGracePeriod now now') gracePeriod unverifiedGracePeriod now now') :
    s.NoneCaught gracePeriod unverifiedGracePeriod now now' where
  both hg hu w hw hnever hseen := by
    have hkept := (h.neverVerified w hw hnever).mpr ((recent_iff hu _).mpr hseen)
    exact ((mem_prune_neverVerified hg hu hnever).mp hkept).2.1
  unverified hg hu w hw hnever := by
    have hkept := h.neverVerified w hw hnever
    rw [prune_of_lt (Or.inl hg)] at hkept
    exact (recent_iff hu _).mp (hkept.mp hw)
  verified hg hu w hw time htime := by
    have hkept := h.verified w hw
    rw [prune_of_lt (Or.inr hu)] at hkept
    obtain ⟨time', htime', hrecent⟩ := hkept.mp hw
    rw [htime] at htime'
    obtain rfl := Option.some.inj htime'
    exact (recent_iff hg _).mp hrecent

/-- Where no record is caught by the other table's cutoff, pruning goes by each table's own. -/
theorem NoneCaught.prunedByOwnCutoffs (honce : s.Once) (h : s.NoneCaught gracePeriod unverifiedGracePeriod now now') :
    PrunedByOwnCutoffs s (s.prune gracePeriod unverifiedGracePeriod now now') gracePeriod unverifiedGracePeriod now now' where
  verified w hw := by
    by_cases hg : gracePeriod ≤ now
    · by_cases hu : unverifiedGracePeriod ≤ now'
      · rw [mem_prune_verified hg hu]
        simp [hw, recent_iff hg]
      · rw [prune_of_lt (Or.inr (Nat.lt_of_not_le hu))]
        obtain ⟨time, htime⟩ := Option.isSome_iff_exists.mp (honce.verified w hw)
        have hrecent := h.verified hg (Nat.lt_of_not_le hu) w hw time htime
        exact ⟨fun _ => ⟨time, htime, (recent_iff hg _).mpr hrecent⟩, fun _ => hw⟩
    · have hg' := Nat.lt_of_not_le hg
      rw [prune_of_lt (Or.inl hg')]
      obtain ⟨time, htime⟩ := Option.isSome_iff_exists.mp (honce.verified w hw)
      exact ⟨fun _ => ⟨time, htime, recent_of_lt hg' time⟩, fun _ => hw⟩
  neverVerified w hw hnever := by
    by_cases hu : unverifiedGracePeriod ≤ now'
    · rw [recent_iff hu]
      by_cases hg : gracePeriod ≤ now
      · rw [mem_prune_neverVerified hg hu hnever]
        exact ⟨fun hkept => hkept.2.2, fun hseen => ⟨hw, h.both hg hu w hw hnever hseen, hseen⟩⟩
      · rw [prune_of_lt (Or.inl (Nat.lt_of_not_le hg))]
        exact ⟨fun _ => h.unverified (Nat.lt_of_not_le hg) hu w hw hnever, fun _ => hw⟩
    · have hu' := Nat.lt_of_not_le hu
      rw [prune_of_lt (Or.inr hu')]
      exact ⟨fun _ => recent_of_lt hu' _, fun _ => hw⟩
  unmoved := prune_unmoved s gracePeriod unverifiedGracePeriod now now'

/-- In every state that calls lead to, for every pair of periods and whatever the clock reads, pruning goes by each table's own cutoff
exactly where no record is caught by the other's. -/
theorem run_prunedByOwnCutoffs_iff (S : UnstableSort) (ourId : Id) (k : Nat) (ops : List NodeStorageOp)
    (gracePeriod unverifiedGracePeriod : Duration) (now now' : Instant) :
    let s := Machine.run (NodeStorageOp.apply S) (new ourId k) ops
    PrunedByOwnCutoffs s (s.prune gracePeriod unverifiedGracePeriod now now') gracePeriod unverifiedGracePeriod now now' ↔
      s.NoneCaught gracePeriod unverifiedGracePeriod now now' := by
  intro s
  obtain ⟨-, honce, -⟩ := run_once S ops (new ourId k) (new_wf ourId k) (new_once ourId k)
  exact ⟨PrunedByOwnCutoffs.noneCaught, NoneCaught.prunedByOwnCutoffs honce⟩

/-- A node seen ten minutes ago and never verified, where such a node may go unseen for half an hour and a verified one unverified for
a minute: it is removed by the period that is not its own. -/
theorem not_prunedByOwnCutoffs_seen_in_between :
    let s := Machine.run (NodeStorageOp.apply UnstableSort.insertion) (new Id.zero 8)
      [.addOrUpdate ⟨Id.startingWith 128, .v4 ⟨1, 2, 3, 4⟩ 6881⟩ false (Duration.fromSecs 3000) (Duration.fromSecs 3000)]
    ¬PrunedByOwnCutoffs s (s.prune (Duration.fromSecs 60) (Duration.fromSecs 1800) (Duration.fromSecs 3600) (Duration.fromSecs 3600))
      (Duration.fromSecs 60) (Duration.fromSecs 1800) (Duration.fromSecs 3600) (Duration.fromSecs 3600) := by
  intro s h
  have hseen : NodeWrapper.new ⟨Id.startingWith 128, .v4 ⟨1, 2, 3, 4⟩ 6881⟩ (Duration.fromSecs 3000) ∈ s.getAllUnverified := by decide
  have hcaught := h.noneCaught.both (by decide) (by decide) _ hseen rfl (by decide)
  exact absurd hcaught (by decide)

end NodeBucketStorage

end RustyDht
