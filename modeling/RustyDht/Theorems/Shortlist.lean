import RustyDht.Lemmas.Operations
import Mathlib.Data.Finset.Max

/-!
# The shortlist and the closest candidates

A lookup keeps its candidates in a bucket table around the target, which drops the newest candidate of a full bucket, however close it
is. Whether the closest can be dropped is a matter of the ids alone: it takes a class of ids, those that share exactly as many bits
with the target, that has more than `k` ids and is still needed for the `k` closest.
-/

namespace RustyDht

/-- The shortlist consists of candidates, with the ids closest to the target among all that were offered, nearest first. -/
def KeepsNearest (S : UnstableSort) (target : Id) (k : Nat) (candidates : List NodeWrapper) : Prop :=
  (∀ nw ∈ shortlist S target k candidates, nw ∈ candidates) ∧
    Nearest (fun id => id.dist target) k (candidates.map (·.node.id)).dedup
      ((shortlist S target k candidates).map (·.node.id))

/-- The shortlist has the closest of the ids, whatever the order, the times first seen and the repetitions they are offered with. -/
def AlwaysKeepsNearest (S : UnstableSort) (target : Id) (k : Nat) (ids : Finset Id) : Prop :=
  ∀ candidates : List NodeWrapper, (candidates.map (·.node.id)).toFinset = ids → KeepsNearest S target k candidates

/-- The ids that share exactly `c` bits with the target. -/
def sameBits (target : Id) (ids : Finset Id) (c : Nat) : Finset Id := ids.filter (fun id => target.matchingPrefixBits id = c)

/-- The ids that share more than `c` bits with the target, which are nearer to it than those that share `c`. -/
def moreBits (target : Id) (ids : Finset Id) (c : Nat) : Finset Id := ids.filter (fun id => c < target.matchingPrefixBits id)

namespace Shortlist

variable {S : UnstableSort} {target : Id} {k : Nat} {candidates : List NodeWrapper}

/-- The ids of the shortlist are the nearest of the ids stored. -/
theorem nearest_stored (S : UnstableSort) (target : Id) (k : Nat) (candidates : List NodeWrapper) :
    Nearest (fun id => id.dist target) k (((Buckets.new target k).offerAll S candidates).values.map (·.node.id))
      ((shortlist S target k candidates).map (·.node.id)) := by
  have h := Buckets.getNearestNodes_nearest S ((Buckets.new target k).offerAll S candidates) target
  rw [(Buckets.offerAll_new_ourId S target k candidates).2] at h
  exact Nearest.map (g := fun nw : NodeWrapper => nw.node.id) h

/-- An id that is not stored is farther than `k` stored ones, where no class that is needed is too large. -/
theorem card_nearer_of_not_mem {b : Buckets NodeWrapper} (h : b.Offered candidates) (ht : ∀ nw ∈ candidates, nw.node.id ≠ b.ourId)
    (hclass : ∀ c, (moreBits b.ourId (candidates.map (·.node.id)).toFinset c).card < b.k →
      (sameBits b.ourId (candidates.map (·.node.id)).toFinset c).card ≤ b.k)
    {id : Id} (hid : id ∈ candidates.map (·.node.id)) (hnot : id ∉ b.ids) :
    b.k ≤ (moreBits b.ourId b.ids (b.ourId.matchingPrefixBits id)).card := by
  have hown : ∀ other ∈ candidates.map (·.node.id), other ≠ b.ourId := by
    intro other hother
    obtain ⟨nw, hnw, rfl⟩ := List.mem_map.mp hother
    exact ht nw hnw
  have hsub : ∀ other ∈ b.ids, other ∈ candidates.map (·.node.id) := by
    intro other hother
    obtain ⟨nw, hnw, rfl⟩ := (b.mem_ids_iff other).mp hother
    exact List.mem_map.mpr ⟨nw, h.subset nw hnw, rfl⟩
  by_cases hall : ∀ other ∈ candidates.map (·.node.id), b.ourId.matchingPrefixBits id < b.ourId.matchingPrefixBits other →
      other ∈ b.ids
  · -- The ids nearer by their class are all stored; the class of the missing one has more than `k`, so they are at least `k`.
    have hfull := h.full_of_not_mem hid (hown id hid) hnot
    have hlarge : b.k < (sameBits b.ourId (candidates.map (·.node.id)).toFinset (b.ourId.matchingPrefixBits id)).card := by
      rw [← hfull]
      refine Finset.card_lt_card ((Finset.ssubset_iff_of_subset (fun other hother => ?_)).mpr ⟨id, ?_, ?_⟩)
      · obtain ⟨h1, h2⟩ := Finset.mem_filter.mp hother
        exact Finset.mem_filter.mpr ⟨List.mem_toFinset.mpr (hsub other h1), h2⟩
      · exact Finset.mem_filter.mpr ⟨List.mem_toFinset.mpr hid, rfl⟩
      · exact fun hmem => hnot (Finset.mem_filter.mp hmem).1
    have hmore := not_lt.mp (fun hlt => absurd (hclass _ hlt) (not_le.mpr hlarge))
    refine le_trans hmore (Finset.card_le_card (fun other hother => ?_))
    obtain ⟨h1, h2⟩ := Finset.mem_filter.mp hother
    exact Finset.mem_filter.mpr ⟨hall other (List.mem_toFinset.mp h1) h2, h2⟩
  · -- A nearer class misses an id, so it is full.
    push Not at hall
    obtain ⟨other, hother, hlt, hmissing⟩ := hall
    rw [← h.full_of_not_mem hother (hown other hother) hmissing]
    refine Finset.card_le_card (fun third hthird => ?_)
    obtain ⟨h1, h2⟩ := Finset.mem_filter.mp hthird
    exact Finset.mem_filter.mpr ⟨h1, by rw [h2]; exact hlt⟩

/-- Where no class that is needed has more than `k` ids, the shortlist has the closest. -/
theorem keepsNearest (ht : ∀ nw ∈ candidates, nw.node.id ≠ target)
    (hclass : ∀ c, (moreBits target (candidates.map (·.node.id)).toFinset c).card < k →
      (sameBits target (candidates.map (·.node.id)).toFinset c).card ≤ k) : KeepsNearest S target k candidates := by
  have h := Buckets.offered_new S target k candidates
  obtain ⟨hourId, hk⟩ := Buckets.offerAll_new_ourId S target k candidates
  have hnear := nearest_stored S target k candidates
  refine ⟨fun nw hnw => h.subset nw (Buckets.mem_of_mem_getNearestNodes hnw), ?_⟩
  generalize (Buckets.new target k).offerAll S candidates = b at h hnear hourId hk
  have hsub : b.values.map (·.node.id) ⊆ (candidates.map (·.node.id)).dedup := by
    intro id hid
    obtain ⟨nw, hnw, rfl⟩ := List.mem_map.mp hid
    exact List.mem_dedup.mpr (List.mem_map.mpr ⟨nw, h.subset nw hnw, rfl⟩)
  refine Nearest.of_missing _ hnear (Nearest.append_filter_perm (List.nodup_dedup _) h.nodup hsub) (fun id hid => ?_)
  obtain ⟨h1, h2⟩ := List.mem_filter.mp hid
  have hnot : id ∉ b.ids := fun hmem => of_decide_eq_true h2 (List.mem_toFinset.mp hmem)
  have hmore := card_nearer_of_not_mem h (hourId.symm ▸ ht) (by rw [hourId, hk]; exact hclass) (List.mem_dedup.mp h1) hnot
  rw [hourId, hk] at hmore
  refine le_trans hmore ?_
  rw [moreBits, ← h.countP_ids, List.countP_map]
  refine List.countP_mono_left (fun nw _ hlt => ?_)
  rw [decide_eq_true_eq] at hlt
  exact decide_eq_true (Id.dist_lt_of_prefix_lt hlt)

/-! ## Dropping the closest -/

/-- A candidate with an id, first seen at a time. -/
def candidate (now : Instant) (id : Id) : NodeWrapper := NodeWrapper.new ⟨id, .v4 ⟨0, 0, 0, 0⟩ 0⟩ now

/-- The candidates of the worst order: every id but one, first seen at the start, and then that one, first seen later. -/
def lastNewest (others : List Id) (id : Id) : List NodeWrapper := others.map (candidate 0) ++ [candidate 1 id]

theorem map_candidate (now : Instant) (ids : List Id) : (ids.map (candidate now)).map (·.node.id) = ids := by
  rw [List.map_map]
  exact List.map_id _

theorem toFinset_lastNewest {ids : Finset Id} {others : List Id} {id : Id} (hid : id ∈ ids)
    (hothers : others.toFinset = ids.erase id) : ((lastNewest others id).map (·.node.id)).toFinset = ids := by
  rw [lastNewest, List.map_append, map_candidate, List.toFinset_append, hothers, Finset.union_comm]
  exact Finset.insert_erase hid

/-- An id of a class that has more than `k` is dropped in the worst order. -/
theorem last_dropped {ids : Finset Id} {others : List Id} {id : Id} (ht : target ∉ ids) (hid : id ∈ ids)
    (hothers : others.toFinset = ids.erase id) (hclass : k < (sameBits target ids (target.matchingPrefixBits id)).card) :
    id ∉ (shortlist S target k (lastNewest others id)).map (·.node.id) := by
  have h := Buckets.offered_new S target k (others.map (candidate 0))
  obtain ⟨hourId, hk⟩ := Buckets.offerAll_new_ourId S target k (others.map (candidate 0))
  intro hmem
  obtain ⟨nw, hnw, hnwid⟩ := List.mem_map.mp hmem
  have hstored := Buckets.mem_of_mem_getNearestNodes hnw
  rw [lastNewest, Buckets.offerAll, List.foldl_append, List.foldl_cons, List.foldl_nil, ← Buckets.offerAll] at hstored
  generalize (Buckets.new target k).offerAll S (others.map (candidate 0)) = b at h hourId hk hstored
  have hold : ∀ nw ∈ b.values, ∃ other ∈ ids.erase id, candidate 0 other = nw := by
    intro nw hnw
    obtain ⟨other, hother, he⟩ := List.mem_map.mp (h.subset nw hnw)
    exact ⟨other, hothers ▸ List.mem_toFinset.mpr hother, he⟩
  -- The others of its class fill it.
  have hfull := h.full_of_card ((sameBits target ids (target.matchingPrefixBits id)).erase id)
    (c := target.matchingPrefixBits id) (fun other hother => by
      obtain ⟨hne, hsame⟩ := Finset.mem_erase.mp hother
      obtain ⟨hin, hbits⟩ := Finset.mem_filter.mp hsame
      refine ⟨?_, fun he => ht (hourId ▸ he ▸ hin), hourId.symm ▸ hbits⟩
      have hmap : (others.map (candidate 0)).map Bucketable.getId = others := map_candidate 0 others
      rw [hmap, ← List.mem_toFinset, hothers]
      exact Finset.mem_erase.mpr ⟨hne, hin⟩) (by
      have hself : id ∈ sameBits target ids (target.matchingPrefixBits id) := Finset.mem_filter.mpr ⟨hid, rfl⟩
      rw [hk, Finset.card_erase_of_mem hself]
      omega)
  rw [← h.countP_ids, ← hourId] at hfull
  refine h.newest_not_stored S (x := candidate 1 id) (fun he => ht (hourId ▸ he ▸ hid)) ?_ hfull ?_ nw hstored hnwid
  · intro y hy
    obtain ⟨other, hother, rfl⟩ := hold y hy
    exact Finset.ne_of_mem_erase hother
  · intro y hy
    obtain ⟨other, -, rfl⟩ := hold y hy
    exact Nat.one_pos

/-- The closest id of a class that `k` closest ids reach is one of them. -/
theorem card_le_of_closest {ids : Finset Id} {id : Id} (hmore : (moreBits target ids (target.matchingPrefixBits id)).card < k)
    (hmin : ∀ other ∈ sameBits target ids (target.matchingPrefixBits id), id.dist target ≤ other.dist target) :
    (ids.filter (fun other => other.dist target ≤ id.dist target)).card ≤ k := by
  have hsub : ids.filter (fun other => other.dist target ≤ id.dist target) ⊆
      insert id (moreBits target ids (target.matchingPrefixBits id)) := by
    intro other hother
    obtain ⟨h1, h2⟩ := Finset.mem_filter.mp hother
    rw [Finset.mem_insert]
    rcases lt_trichotomy (target.matchingPrefixBits id) (target.matchingPrefixBits other) with h3 | h3 | h3
    · exact Or.inr (Finset.mem_filter.mpr ⟨h1, h3⟩)
    · exact Or.inl (Id.dist_injective target (le_antisymm h2 (hmin other (Finset.mem_filter.mpr ⟨h1, h3.symm⟩))))
    · exact absurd (Id.dist_lt_of_prefix_lt h3) (not_lt.mpr h2)
  exact le_trans (Finset.card_le_card hsub) (le_trans (Finset.card_insert_le _ _) hmore)

end Shortlist

/-- The shortlist has the `k` closest of a set of ids, in whatever order and with whatever times they are offered, exactly when every
class of ids that share as many bits with the target and that the `k` closest reach has at most `k` ids. -/
theorem alwaysKeepsNearest_iff (S : UnstableSort) (target : Id) (k : Nat) (ids : Finset Id) (ht : target ∉ ids) :
    AlwaysKeepsNearest S target k ids ↔
      ∀ c, (moreBits target ids c).card < k → (sameBits target ids c).card ≤ k := by
  constructor
  · intro hall c hmore
    by_contra hlt
    have hlt := not_le.mp hlt
    obtain ⟨id, hid, hmin⟩ := Finset.exists_min_image (sameBits target ids c) (fun id => id.dist target)
      (Finset.card_pos.mp (lt_of_le_of_lt (Nat.zero_le _) hlt))
    obtain ⟨hin, rfl⟩ := Finset.mem_filter.mp hid
    have hothers := Finset.toList_toFinset (ids.erase id)
    generalize (ids.erase id).toList = others at hothers
    have hids := Shortlist.toFinset_lastNewest hin hothers
    have hdedup : ((Shortlist.lastNewest others id).map (·.node.id)).dedup.toFinset = ids := by
      refine Eq.trans (Finset.ext (fun other => ?_)) hids
      rw [List.mem_toFinset, List.mem_dedup, List.mem_toFinset]
    refine Shortlist.last_dropped (S := S) ht hin hothers hlt ((hall _ hids).2.mem_of_countP_lt ?_ ?_)
    · rw [List.mem_dedup, ← List.mem_toFinset, hids]
      exact hin
    · rw [Buckets.countP_eq_card (List.nodup_dedup _) (fun other => other.dist target ≤ id.dist target), hdedup]
      exact Shortlist.card_le_of_closest hmore hmin
  · intro hclass candidates hids
    refine Shortlist.keepsNearest (fun nw hnw he => ht ?_) (hids ▸ hclass)
    rw [← hids, List.mem_toFinset]
    exact List.mem_map.mpr ⟨nw, hnw, he⟩

/-- Two ids of different classes, of which the closest one is kept. -/
theorem alwaysKeepsNearest_two_ids :
    AlwaysKeepsNearest UnstableSort.insertion Id.zero 1 {Id.startingWith 1, Id.startingWith 128} := by
  refine (alwaysKeepsNearest_iff UnstableSort.insertion Id.zero 1 _ (by decide)).mpr (fun c _ => ?_)
  refine Finset.card_le_one.mpr (fun a ha b hb => ?_)
  simp only [sameBits, Finset.mem_filter, Finset.mem_insert, Finset.mem_singleton] at ha hb
  have hne : Id.zero.matchingPrefixBits (Id.startingWith 1) ≠ Id.zero.matchingPrefixBits (Id.startingWith 128) := by decide
  rcases ha with ⟨rfl | rfl, ha⟩ <;> rcases hb with ⟨rfl | rfl, hb⟩
  · rfl
  · exact absurd (ha.trans hb.symm) hne
  · exact absurd (hb.trans ha.symm) hne
  · rfl

/-- A lookup's shortlist of eight, around the zero id: eight candidates whose ids start with 129 to 136, and then one, first seen
later, that starts with 128 and is closer than all of them. It is not on the shortlist. -/
theorem not_keepsNearest_closest_last : ¬KeepsNearest UnstableSort.insertion Id.zero 8
    (Shortlist.lastNewest ([129, 130, 131, 132, 133, 134, 135, 136].map Id.startingWith) (Id.startingWith 128)) := by
  rintro ⟨-, h⟩
  have hmem := h.mem_of_countP_lt (x := Id.startingWith 128) (by decide) (by decide +kernel)
  revert hmem
  decide +kernel

end RustyDht
