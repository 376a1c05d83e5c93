import RustyDht.Buckets
import RustyDht.Lemmas.Id

/-!
# The bucket table keeps its shape

`Buckets.Placed` says every item is in the bucket where a lookup by its id searches, and is not our own; `Buckets.Wf` adds that no
bucket is over capacity. A pass of the overflow loop keeps the first and moves the one overfull bucket a level deeper, or drops one
item and ends the overflow, so `Buckets.add` keeps the second (`Buckets.add_spec`). What the single-bucket lookups find in a
well-formed table is what a search of all its values finds.
-/

namespace RustyDht

open Bucketable (getId getFirstSeen)

namespace Buckets

variable {T : Type}

/-! ## Reading and replacing buckets -/

@[simp] theorem setBucket_ourId (b : Buckets T) (i : Nat) (l : List T) : (b.setBucket i l).ourId = b.ourId := rfl

@[simp] theorem setBucket_k (b : Buckets T) (i : Nat) (l : List T) : (b.setBucket i l).k = b.k := rfl

@[simp] theorem length_setBucket (b : Buckets T) (i : Nat) (l : List T) :
    (b.setBucket i l).buckets.length = b.buckets.length := List.length_set

theorem bucket_eq_nil (b : Buckets T) {i : Nat} (h : b.buckets.length ≤ i) : b.bucket i = [] := by
  simp [bucket, List.getD_eq_getElem?_getD, h]

theorem getElem?_bucket (b : Buckets T) {i : Nat} (h : i < b.buckets.length) : b.buckets[i]? = some (b.bucket i) := by
  simp [bucket, List.getD_eq_getElem?_getD, h]

/-- Only a bucket that exists holds something. -/
theorem lt_of_mem_bucket {b : Buckets T} {i : Nat} {x : T} (h : x ∈ b.bucket i) : i < b.buckets.length := by
  by_contra hge
  rw [b.bucket_eq_nil (Nat.le_of_not_lt hge)] at h
  exact List.not_mem_nil h

theorem bucket_setBucket_self (b : Buckets T) {i : Nat} (l : List T) (h : i < b.buckets.length) :
    (b.setBucket i l).bucket i = l := by
  simp [bucket, setBucket, List.getD_eq_getElem?_getD, h]

theorem bucket_setBucket_of_ne (b : Buckets T) {i j : Nat} (l : List T) (h : i ≠ j) :
    (b.setBucket i l).bucket j = b.bucket j := by
  simp [bucket, setBucket, List.getD_eq_getElem?_getD, h]

/-- An item is stored exactly when a bucket holds it. -/
theorem mem_values_iff (b : Buckets T) (x : T) : x ∈ b.values ↔ ∃ i, x ∈ b.bucket i := by
  constructor
  · intro h
    obtain ⟨l, hl, hx⟩ := List.mem_flatten.mp h
    obtain ⟨i, hi⟩ := List.mem_iff_getElem?.mp hl
    refine ⟨i, ?_⟩
    rw [bucket, List.getD_eq_getElem?_getD, hi]
    exact hx
  · rintro ⟨i, hx⟩
    have hi := b.getElem?_bucket (lt_of_mem_bucket hx)
    exact List.mem_flatten.mpr ⟨_, List.mem_of_getElem? hi, hx⟩

/-- Replacing a bucket by what is left of it when `m` is taken out takes `m` out of the stored items. -/
theorem values_setBucket_perm (b : Buckets T) {i : Nat} {l m : List T} (hi : i < b.buckets.length)
    (h : (m ++ l).Perm (b.bucket i)) : (m ++ (b.setBucket i l).values).Perm b.values := by
  have hold := Vec.flatten_perm (b.getElem?_bucket hi)
  have hnew := Vec.flatten_set_perm (L := b.buckets) l hi
  refine (hnew.append_left m).trans (List.Perm.trans ?_ hold.symm)
  rw [← List.append_assoc]
  exact h.append_right _

/-- Pushing an item to a bucket adds it to the stored items. -/
theorem values_pushTo_perm (b : Buckets T) {i : Nat} (x : T) (hi : i < b.buckets.length) :
    (b.pushTo i x).values.Perm (x :: b.values) := by
  have hold := Vec.flatten_perm (b.getElem?_bucket hi)
  have hnew := Vec.flatten_set_perm (L := b.buckets) (b.bucket i ++ [x]) hi
  refine hnew.trans (List.Perm.trans ?_ (hold.cons x).symm)
  rw [← List.cons_append]
  exact (List.perm_append_singleton x _).append_right _

/-! ## The bucket of an id -/

theorem getDestBucketIdxForId_lt (b : Buckets T) (id : Id) (h : 0 < b.buckets.length) :
    b.getDestBucketIdxForId id < b.buckets.length := by
  have := Nat.min_le_left (b.buckets.length - 1) (b.ourId.matchingPrefixBits id)
  unfold getDestBucketIdxForId
  omega

/-- The bucket of an id depends on our id and the number of buckets only. -/
theorem getDestBucketIdxForId_congr {b b' : Buckets T} (ho : b'.ourId = b.ourId)
    (hl : b'.buckets.length = b.buckets.length) (id : Id) :
    b'.getDestBucketIdxForId id = b.getDestBucketIdxForId id := by
  unfold getDestBucketIdxForId
  rw [ho, hl]

variable [Bucketable T]

/-- How many leading bits an item's id shares with our id. -/
def prefixBits (b : Buckets T) (x : T) : Nat := b.ourId.matchingPrefixBits (getId x)

/-- Tables of one id count the same bits. -/
theorem prefixBits_congr {b b' : Buckets T} (h : b'.ourId = b.ourId) (x : T) : b'.prefixBits x = b.prefixBits x := by
  rw [prefixBits, h]
  rfl

/-- An index computed from an item is that of a bucket that exists. -/
theorem getDestBucketIdx_lt (b : Buckets T) (x : T) (h : 0 < b.buckets.length) :
    b.getDestBucketIdx x < b.buckets.length := b.getDestBucketIdxForId_lt _ h

theorem getDestBucketIdx_eq (b : Buckets T) (x : T) :
    b.getDestBucketIdx x = min (b.buckets.length - 1) (b.prefixBits x) := rfl

theorem getDestBucketIdx_congr {b b' : Buckets T} (ho : b'.ourId = b.ourId)
    (hl : b'.buckets.length = b.buckets.length) (x : T) : b'.getDestBucketIdx x = b.getDestBucketIdx x :=
  getDestBucketIdxForId_congr ho hl _

/-! ## The invariant -/

/-- Every item is in the bucket where a lookup by its id searches, and none has our own id. -/
structure Placed (b : Buckets T) : Prop where
  /-- There is a bucket. -/
  nonempty : 0 < b.buckets.length
  /-- Every item is in the bucket its id selects. -/
  dest : ∀ i, ∀ x ∈ b.bucket i, b.getDestBucketIdx x = i
  /-- Our own id is not stored. -/
  notOwn : ∀ i, ∀ x ∈ b.bucket i, getId x ≠ b.ourId

/-- The representation invariant: every item in its place, and no bucket over capacity. -/
structure Wf (b : Buckets T) : Prop extends Placed b where
  /-- No bucket holds more than `k` items. -/
  bounded : ∀ i, (b.bucket i).length ≤ b.k

omit [Bucketable T] in
theorem new_bucket (ourId : Id) (k i : Nat) : (new ourId k : Buckets T).bucket i = [] := by
  cases i <;> rfl

/-- A new table is well-formed. -/
theorem new_wf (ourId : Id) (k : Nat) : (new ourId k : Buckets T).Wf where
  nonempty := Nat.one_pos
  dest i x hx := by simp [new_bucket] at hx
  notOwn i x hx := by simp [new_bucket] at hx
  bounded i := by simp [new_bucket]

/-- An item shares fewer than 160 bits with our id, since it is not ours. -/
theorem Placed.prefixBits_lt {b : Buckets T} (h : b.Placed) {i : Nat} {x : T} (hx : x ∈ b.bucket i) :
    b.prefixBits x < 160 := Id.matchingPrefixBits_lt (h.notOwn i x hx).symm

/-- An item in a bucket that is not the last shares exactly as many bits with our id as the bucket's index says. -/
theorem Placed.prefixBits_eq {b : Buckets T} (h : b.Placed) {i : Nat} {x : T} (hx : x ∈ b.bucket i)
    (hi : i + 1 < b.buckets.length) : b.prefixBits x = i := by
  have := h.dest i x hx
  rw [getDestBucketIdx_eq] at this
  omega

/-- An item shares at least as many bits with our id as its bucket's index says. -/
theorem Placed.le_prefixBits {b : Buckets T} (h : b.Placed) {i : Nat} {x : T} (hx : x ∈ b.bucket i) :
    i ≤ b.prefixBits x := by
  have := h.dest i x hx
  rw [getDestBucketIdx_eq] at this
  omega

/-- A stored item is in the bucket its id selects. -/
theorem Placed.mem_bucket {b : Buckets T} (h : b.Placed) {x : T} (hx : x ∈ b.values) :
    x ∈ b.bucket (b.getDestBucketIdx x) := by
  obtain ⟨i, hi⟩ := (b.mem_values_iff x).mp hx
  rw [h.dest i x hi]
  exact hi

/-! ## Clearing and retaining -/

omit [Bucketable T] in
theorem clear_bucket (b : Buckets T) (i : Nat) : b.clear.bucket i = [] := by
  cases i <;> rfl

theorem clear_wf (b : Buckets T) : b.clear.Wf where
  nonempty := Nat.one_pos
  dest i x hx := by simp [clear_bucket] at hx
  notOwn i x hx := by simp [clear_bucket] at hx
  bounded i := by simp [clear_bucket]

omit [Bucketable T] in
theorem setId_bucket (b : Buckets T) (newId : Id) (i : Nat) : (b.setId newId).bucket i = [] := by
  cases i <;> rfl

theorem setId_wf (b : Buckets T) (newId : Id) : (b.setId newId).Wf where
  nonempty := Nat.one_pos
  dest i x hx := by simp [setId_bucket] at hx
  notOwn i x hx := by simp [setId_bucket] at hx
  bounded i := by simp [setId_bucket]

omit [Bucketable T] in
/-- Retaining leaves of each bucket a part of it, in order. -/
theorem retainBuckets_sublist {σ : Type} (f : T → σ → Bool × σ) (L : List (List T)) :
    ∀ s, (retainBuckets f L s).length = L.length ∧
      ∀ i, ((retainBuckets f L s).getD i []).Sublist (L.getD i []) := by
  induction L with
  | nil => intro s; exact ⟨rfl, fun i => List.Sublist.refl _⟩
  | cons l L ih =>
    intro s
    simp only [retainBuckets, List.length_cons]
    refine ⟨by rw [(ih _).1], fun i => ?_⟩
    cases i with
    | zero => exact Vec.retain_sublist f l s
    | succ i => exact (ih _).2 i

omit [Bucketable T] in
theorem retain_bucket_sublist {σ : Type} (b : Buckets T) (f : T → σ → Bool × σ) (s : σ) (i : Nat) :
    ((b.retain f s).bucket i).Sublist (b.bucket i) := (retainBuckets_sublist f b.buckets s).2 i

/-- A table is well-formed when its buckets are no longer than those of a well-formed one and hold, each, only ids that the same
bucket there holds. -/
theorem Wf.of_buckets {b b' : Buckets T} (h : b.Wf) (ho : b'.ourId = b.ourId) (hk : b'.k = b.k)
    (hl : b'.buckets.length = b.buckets.length)
    (hmem : ∀ i, ∀ x ∈ b'.bucket i, ∃ y ∈ b.bucket i, getId y = getId x)
    (hlen : ∀ i, (b'.bucket i).length ≤ (b.bucket i).length) : b'.Wf where
  nonempty := by rw [hl]; exact h.nonempty
  dest i x hx := by
    obtain ⟨y, hy, hid⟩ := hmem i x hx
    rw [getDestBucketIdx_congr ho hl, getDestBucketIdx, ← hid]
    exact h.dest i y hy
  notOwn i x hx := by
    obtain ⟨y, hy, hid⟩ := hmem i x hx
    rw [ho, ← hid]
    exact h.notOwn i y hy
  bounded i := by
    rw [hk]
    exact (hlen i).trans (h.bounded i)

theorem retain_wf {σ : Type} {b : Buckets T} (h : b.Wf) (f : T → σ → Bool × σ) (s : σ) : (b.retain f s).Wf :=
  h.of_buckets rfl rfl (retainBuckets_sublist f b.buckets s).1
    (fun i x hx => ⟨x, (b.retain_bucket_sublist f s i).subset hx, rfl⟩) (fun i => (b.retain_bucket_sublist f s i).length_le)

omit [Bucketable T] in
/-- What is retained was stored, in the same order. -/
theorem retain_values_sublist {σ : Type} (b : Buckets T) (f : T → σ → Bool × σ) (s : σ) :
    (b.retain f s).values.Sublist b.values := by
  have hL : ∀ (L : List (List T)) (s : σ), (retainBuckets f L s).flatten.Sublist L.flatten := by
    intro L
    induction L with
    | nil => exact fun _ => List.Sublist.refl _
    | cons l L ih => exact fun s => (Vec.retain_sublist f l s).append (ih _)
  exact hL b.buckets s

omit [Bucketable T] in
/-- What is retained was stored. -/
theorem mem_of_mem_retain {σ : Type} {b : Buckets T} {f : T → σ → Bool × σ} {s : σ} {x : T}
    (hx : x ∈ (b.retain f s).values) : x ∈ b.values := (b.retain_values_sublist f s).subset hx

omit [Bucketable T] in
/-- Retaining by a predicate keeps exactly the items that it accepts. -/
theorem retain_values (b : Buckets T) (p : T → Bool) : (b.retain (fun x s => (p x, s)) ()).values = b.values.filter p := by
  have hL : ∀ L : List (List T), (retainBuckets (fun x s => (p x, s)) L ()).flatten = L.flatten.filter p := by
    intro L
    induction L with
    | nil => rfl
    | cons l L ih => simp [retainBuckets, Vec.retain_eq_filter, ih]
  exact hL b.buckets

/-! ## Lookups -/

/-- A search of the bucket an id selects finds what a search of all the values does. -/
theorem Placed.exists_bucket_iff {b : Buckets T} (h : b.Placed) (id : Id) :
    (∃ x ∈ b.bucket (b.getDestBucketIdxForId id), getId x = id) ↔ ∃ x ∈ b.values, getId x = id := by
  constructor
  · rintro ⟨x, hx, hid⟩
    exact ⟨x, (b.mem_values_iff x).mpr ⟨_, hx⟩, hid⟩
  · rintro ⟨x, hx, rfl⟩
    exact ⟨x, h.mem_bucket hx, rfl⟩

theorem contains_iff {b : Buckets T} (h : b.Placed) (id : Id) : b.contains id = true ↔ ∃ x ∈ b.values, getId x = id := by
  rw [← h.exists_bucket_iff, contains, List.any_eq_true]
  simp only [beq_iff_eq]

/-- The search a lookup makes in one bucket: it finds an item with the id, at an index, or there is none. -/
theorem findIdx_cases (l : List T) (id : Id) :
    (l.findIdx? (fun item => getId item == id) = none ∧ ¬∃ x ∈ l, getId x = id) ∨
      ∃ i x, l.findIdx? (fun item => getId item == id) = some i ∧ l[i]? = some x ∧ getId x = id := by
  cases hf : l.findIdx? (fun item => getId item == id) with
  | none =>
    refine Or.inl ⟨rfl, ?_⟩
    rintro ⟨x, hx, hid⟩
    have := List.findIdx?_eq_none_iff.mp hf x hx
    simp [hid] at this
  | some i =>
    obtain ⟨hlt, hid, -⟩ := List.findIdx?_eq_some_iff_getElem.mp hf
    exact Or.inr ⟨i, l[i], rfl, List.getElem?_eq_getElem hlt, by simpa using hid⟩

/-- `remove` finds nothing exactly when no stored item has the id. -/
theorem remove_eq_none_iff {b : Buckets T} (h : b.Placed) (id : Id) :
    b.remove id = none ↔ ¬∃ x ∈ b.values, getId x = id := by
  rw [← h.exists_bucket_iff]
  unfold remove
  rcases findIdx_cases (b.bucket (b.getDestBucketIdxForId id)) id with ⟨hf, hn⟩ | ⟨i, x, hf, hx, hid⟩
  · simp only [hf, true_iff]
    exact hn
  · simp only [hf, hx, Option.map_some, reduceCtorEq, false_iff, not_not]
    exact ⟨x, List.mem_of_getElem? hx, hid⟩

/-- What `remove` takes out has the id, and everything else is still stored. -/
theorem remove_spec {b b' : Buckets T} {id : Id} {x : T} (h : b.remove id = some (x, b')) :
    getId x = id ∧ (x :: b'.values).Perm b.values ∧ (b.Wf → b'.Wf) := by
  unfold remove at h
  rcases findIdx_cases (b.bucket (b.getDestBucketIdxForId id)) id with ⟨hf, -⟩ | ⟨i, y, hf, hy, hid⟩
  · simp only [hf, reduceCtorEq] at h
  · simp only [hf, hy, Option.map_some, Option.some.injEq, Prod.mk.injEq] at h
    obtain ⟨rfl, rfl⟩ := h
    have hperm := Vec.swapRemove_perm hy
    have hlt := lt_of_mem_bucket (List.mem_of_getElem? hy)
    refine ⟨hid, values_setBucket_perm b (m := [y]) hlt hperm, fun hwf => ?_⟩
    generalize Vec.swapRemove (b.bucket (b.getDestBucketIdxForId id)) i = left at hperm
    have hb : ∀ j, (∀ z ∈ (b.setBucket (b.getDestBucketIdxForId id) left).bucket j, z ∈ b.bucket j) ∧
        ((b.setBucket (b.getDestBucketIdxForId id) left).bucket j).length ≤ (b.bucket j).length := by
      intro j
      by_cases hj : b.getDestBucketIdxForId id = j
      · subst hj
        rw [bucket_setBucket_self _ _ hlt]
        have := hperm.length_eq
        rw [List.length_cons] at this
        exact ⟨fun z hz => hperm.subset (List.mem_cons_of_mem y hz), by omega⟩
      · rw [bucket_setBucket_of_ne _ _ hj]
        exact ⟨fun z hz => hz, Nat.le_refl _⟩
    exact hwf.of_buckets rfl rfl (length_setBucket _ _ _) (fun j z hz => ⟨z, (hb j).1 z hz, rfl⟩) (fun j => (hb j).2)

/-- `remove` changes neither our id nor the capacity. -/
theorem remove_ourId {b b' : Buckets T} {id : Id} {x : T} (h : b.remove id = some (x, b')) :
    b'.ourId = b.ourId ∧ b'.k = b.k := by
  unfold remove at h
  rcases findIdx_cases (b.bucket (b.getDestBucketIdxForId id)) id with ⟨hf, -⟩ | ⟨i, y, hf, hy, -⟩
  · simp only [hf, reduceCtorEq] at h
  · simp only [hf, hy, Option.map_some, Option.some.injEq, Prod.mk.injEq] at h
    rw [← h.2]
    exact ⟨rfl, rfl⟩

/-- `get_mut` finds something exactly when a stored item has the id. -/
theorem getMut_isSome_iff {b : Buckets T} (h : b.Placed) (id : Id) :
    (b.getMut id).isSome = true ↔ ∃ x ∈ b.values, getId x = id := by
  rw [← h.exists_bucket_iff]
  unfold getMut
  rcases findIdx_cases (b.bucket (b.getDestBucketIdxForId id)) id with ⟨hf, hn⟩ | ⟨i, x, hf, hx, hid⟩
  · simp only [hf, Option.isSome_none, Bool.false_eq_true, false_iff]
    exact hn
  · simp only [hf, hx, Option.map_some, Option.isSome_some, true_iff]
    exact ⟨x, List.mem_of_getElem? hx, hid⟩

/-- What `get_mut` finds has the id; a write through the reference replaces that item and no other. -/
theorem getMut_spec {b : Buckets T} {id : Id} {x : T} {write : T → Buckets T} (h : b.getMut id = some (x, write)) :
    getId x = id ∧ ∃ rest, b.values.Perm (x :: rest) ∧ ∀ x', (write x').values.Perm (x' :: rest) ∧
      (write x').ourId = b.ourId ∧ (write x').k = b.k ∧ (getId x' = id → b.Wf → (write x').Wf) := by
  unfold getMut at h
  rcases findIdx_cases (b.bucket (b.getDestBucketIdxForId id)) id with ⟨hf, -⟩ | ⟨i, y, hf, hy, hid⟩
  · simp only [hf, reduceCtorEq] at h
  · simp only [hf, hy, Option.map_some, Option.some.injEq, Prod.mk.injEq] at h
    obtain ⟨rfl, rfl⟩ := h
    have hlt := lt_of_mem_bucket (List.mem_of_getElem? hy)
    obtain ⟨hi, hyi⟩ := List.getElem?_eq_some_iff.mp hy
    generalize hl : b.bucket (b.getDestBucketIdxForId id) = l at hy hi hyi
    have hcons : ∀ x', (l.set i x').Perm (x' :: l.eraseIdx i) := by
      intro x'
      rw [List.set_eq_take_append_cons_drop, if_pos hi, List.eraseIdx_eq_take_drop_succ]
      exact List.perm_middle
    have hself : l.set i y = l := by rw [← hyi, List.set_getElem_self]
    have hold := Vec.flatten_perm (b.getElem?_bucket hlt)
    rw [hl] at hold
    refine ⟨hid, l.eraseIdx i ++ (b.buckets.eraseIdx (b.getDestBucketIdxForId id)).flatten, ?_, fun x' => ⟨?_, rfl, rfl, ?_⟩⟩
    · refine hold.trans ?_
      rw [← List.cons_append]
      refine List.Perm.append_right _ ?_
      have := hcons y
      rwa [hself] at this
    · refine (Vec.flatten_set_perm (L := b.buckets) (l.set i x') hlt).trans ?_
      rw [← List.cons_append]
      exact (hcons x').append_right _
    · intro hid' hwf
      refine hwf.of_buckets rfl rfl (length_setBucket _ _ _) (fun j z hz => ?_) (fun j => ?_)
      · by_cases hj : b.getDestBucketIdxForId id = j
        · subst hj
          rw [bucket_setBucket_self _ _ hlt] at hz
          rw [hl]
          rcases List.mem_or_eq_of_mem_set hz with hz | rfl
          · exact ⟨z, hz, rfl⟩
          · exact ⟨y, List.mem_of_getElem? hy, hid.trans hid'.symm⟩
        · rw [bucket_setBucket_of_ne _ _ hj] at hz
          exact ⟨z, hz, rfl⟩
      · by_cases hj : b.getDestBucketIdxForId id = j
        · subst hj
          rw [bucket_setBucket_self _ _ hlt, List.length_set, hl]
        · rw [bucket_setBucket_of_ne _ _ hj]

/-! ## How many buckets there are -/

/-- Taking an item out leaves the buckets there are. -/
theorem length_remove {b b' : Buckets T} {id : Id} {x : T} (h : b.remove id = some (x, b')) :
    b'.buckets.length = b.buckets.length := by
  unfold remove at h
  rcases findIdx_cases (b.bucket (b.getDestBucketIdxForId id)) id with ⟨hf, -⟩ | ⟨i, y, hf, hy, -⟩
  · simp [hf] at h
  · simp only [hf, hy, Option.map_some, Option.some.injEq, Prod.mk.injEq] at h
    rw [← h.2, length_setBucket]

/-- A write through a reference leaves the buckets there are. -/
theorem length_write {b : Buckets T} {id : Id} {x : T} {write : T → Buckets T} (h : b.getMut id = some (x, write)) (x' : T) :
    (write x').buckets.length = b.buckets.length := by
  unfold getMut at h
  rcases findIdx_cases (b.bucket (b.getDestBucketIdxForId id)) id with ⟨hf, -⟩ | ⟨i, y, hf, hy, -⟩
  · simp [hf] at h
  · simp only [hf, hy, Option.map_some, Option.some.injEq, Prod.mk.injEq] at h
    rw [← h.2, length_setBucket]

/-! ## The nearest -/

/-- What is handed out as nearest is stored. -/
theorem mem_of_mem_getNearestNodes {S : UnstableSort} {b : Buckets T} {id : Id} {exclude : Option Id} {x : T}
    (h : x ∈ b.getNearestNodes S id exclude) : x ∈ b.values :=
  (List.mem_filter.mp ((S.perm _ _).subset (List.mem_of_mem_take h))).1

end Buckets

end RustyDht
