import RustyDht.Operations
import RustyDht.Lemmas.Id
import RustyDht.Lemmas.Overflow

/-!
# The shortlist of a lookup

What a bucket table holds after candidates were offered to it: no id twice, and of every id offered either an item or, of the class of
ids that share exactly as many bits with the target, `k` items. What it hands out as nearest is the nearest of what it holds.
-/

namespace RustyDht

open Bucketable (getId getFirstSeen)

namespace Buckets

variable {T : Type} [Bucketable T]

/-! ## The nearest -/

/-- The comparator of `get_nearest_nodes` compares the distances to the id. -/
theorem cmpDistance_eq (id : Id) : (cmpDistance id : T → T → Ordering) = compareOn (fun x => (getId x).dist id) := by
  funext x y
  simp only [cmpDistance, Id.cmpUnwrap, Id.partialCmp_eq, Option.get_some, compareOn, Id.dist]

/-- What is handed out as nearest is the nearest of what is stored, without what is excluded. -/
theorem getNearestNodes_nearest_except (S : UnstableSort) (b : Buckets T) (id : Id) (exclude : Option Id) :
    Nearest (fun x => (getId x).dist id) b.k (b.values.filter (fun x => exclude ≠ some (getId x)))
      (b.getNearestNodes S id exclude) := by
  have hall : b.values.filter (fun item => exclude.isNone || exclude != some (getId item)) =
      b.values.filter (fun x => exclude ≠ some (getId x)) := by
    refine List.filter_congr ?_
    intro x _
    rw [Bool.eq_iff_iff]
    cases exclude <;> simp
  rw [getNearestNodes, hall, cmpDistance_eq]
  exact Nearest.of_sort S _ _ _

/-- What is handed out as nearest, with nothing excluded, is the nearest of what is stored. -/
theorem getNearestNodes_nearest (S : UnstableSort) (b : Buckets T) (id : Id) :
    Nearest (fun x => (getId x).dist id) b.k b.values (b.getNearestNodes S id none) := by
  have h := getNearestNodes_nearest_except S b id none
  rwa [List.filter_eq_self.mpr (by simp)] at h

/-! ## Offering -/

/-- What an offer does: nothing to our own id or an id that is stored, and an addition otherwise. -/
theorem offer_cases (S : UnstableSort) {b : Buckets T} (h : b.Wf) (x : T) :
    (b.offer S x = b ∧ (getId x = b.ourId ∨ ∃ y ∈ b.values, getId y = getId x)) ∨
      (getId x ≠ b.ourId ∧ (∀ y ∈ b.values, getId y ≠ getId x) ∧
        ∃ chumps, (chumps ++ (b.offer S x).values).Perm (x :: b.values) ∧
          Overflowed (b.pushTo (b.getDestBucketIdx x) x) (b.offer S x) chumps) := by
  by_cases hc : b.contains (getId x) = true
  · exact Or.inl ⟨by rw [offer, hc]; rfl, Or.inr ((contains_iff h.toPlaced _).mp hc)⟩
  · have hoffer : b.offer S x = (b.add S x none).1 := by
      rw [offer, Bool.eq_false_of_not_eq_true hc]
      rfl
    by_cases hx : getId x = b.ourId
    · exact Or.inl ⟨by rw [hoffer, add_own S b hx], Or.inl hx⟩
    · rw [contains_iff h.toPlaced] at hc
      obtain ⟨chumps, -, ho⟩ := add_spec S h hx none
      rw [hoffer]
      refine Or.inr ⟨hx, fun y hy he => hc ⟨y, hy, he⟩, chumps, ?_, ho⟩
      exact ho.values.trans (values_pushTo_perm b x (b.getDestBucketIdx_lt x h.nonempty))

/-- An offer changes neither the id nor the capacity of a table. -/
theorem offer_ourId (S : UnstableSort) {b : Buckets T} (h : b.Wf) (x : T) :
    (b.offer S x).ourId = b.ourId ∧ (b.offer S x).k = b.k := by
  rcases offer_cases S h x with ⟨he, -⟩ | ⟨-, -, _, -, ho⟩
  · rw [he]
    exact ⟨rfl, rfl⟩
  · exact ⟨ho.ourId, ho.k⟩

/-- What a table holds after candidates were offered to a new one. -/
structure Offered (b : Buckets T) (candidates : List T) : Prop where
  wf : b.Wf
  /-- What is stored was offered. -/
  subset : ∀ x ∈ b.values, x ∈ candidates
  /-- No id is stored twice. -/
  nodup : (b.values.map getId).Nodup
  /-- An id that was offered is stored, or its class is full. -/
  kept : ∀ x ∈ candidates, getId x ≠ b.ourId → (∃ y ∈ b.values, getId y = getId x) ∨
    b.values.countP (fun y => b.prefixBits y == b.prefixBits x) = b.k

theorem new_offered (ourId : Id) (k : Nat) : Offered (new ourId k : Buckets T) [] where
  wf := new_wf ourId k
  subset x hx := by simp [values, new] at hx
  nodup := by simp [values, new]
  kept x hx := absurd hx List.not_mem_nil

/-- A class that was full before an addition is full after it. -/
theorem Overflowed.countP_of_full {b b' : Buckets T} {x : T} {chumps : List T}
    (ho : Overflowed (b.pushTo (b.getDestBucketIdx x) x) b' chumps) (hp : (chumps ++ b'.values).Perm (x :: b.values)) {n : Nat}
    (hfull : b.values.countP (fun y => b.prefixBits y == n) = b.k) :
    b'.values.countP (fun y => b'.prefixBits y == n) = b'.k := by
  have hk : b'.k = b.k := ho.k
  have hbits : ∀ y, b'.prefixBits y = b.prefixBits y := prefixBits_congr ho.ourId
  refine Nat.le_antisymm (ho.wf.countP_prefixBits_le n) ?_
  have hcount := hp.countP_eq (fun y => b'.prefixBits y == n)
  rw [List.countP_append, List.countP_cons] at hcount
  have hold : b.values.countP (fun y => b'.prefixBits y == n) = b.k := by simpa only [hbits] using hfull
  rcases ho.newest with rfl | ⟨e, rfl, hnewest, -⟩
  · rw [List.countP_nil] at hcount
    omega
  · by_cases he : b'.prefixBits e = n
    · rw [← he]
      exact Nat.le_of_eq hnewest.symm
    · rw [List.countP_singleton, if_neg (by simpa using he)] at hcount
      omega

/-- An offer keeps what is known of the table. -/
theorem Offered.offer (S : UnstableSort) {b : Buckets T} {candidates : List T} (h : Offered b candidates) (x : T) :
    Offered (b.offer S x) (candidates ++ [x]) := by
  rcases offer_cases S h.wf x with ⟨he, hx⟩ | ⟨hx, hnew, chumps, hp, ho⟩
  · rw [he]
    refine ⟨h.wf, fun y hy => List.mem_append_left _ (h.subset y hy), h.nodup, fun y hy hown => ?_⟩
    rcases List.mem_append.mp hy with hy | hy
    · exact h.kept y hy hown
    · rw [List.mem_singleton.mp hy] at hown ⊢
      exact Or.inl (hx.resolve_left hown)
  · generalize hb' : b.offer S x = b' at hp ho
    have hbits : ∀ y, b'.prefixBits y = b.prefixBits y := prefixBits_congr ho.ourId
    refine ⟨ho.wf, fun y hy => ?_, ?_, fun y hy hown => ?_⟩
    · rcases List.mem_cons.mp (hp.subset (List.mem_append_right _ hy)) with rfl | hy
      · exact List.mem_append_right _ (List.mem_singleton_self y)
      · exact List.mem_append_left _ (h.subset y hy)
    · have hcons : ((x :: b.values).map getId).Nodup := by
        rw [List.map_cons, List.nodup_cons]
        refine ⟨fun hmem => ?_, h.nodup⟩
        obtain ⟨y, hy, he⟩ := List.mem_map.mp hmem
        exact hnew y hy he
      rw [← (hp.map getId).nodup_iff, List.map_append] at hcons
      exact hcons.of_append_right
    · have hown' : getId y ≠ b.ourId := ho.ourId ▸ hown
      have hstored : (∃ z ∈ x :: b.values, getId z = getId y) ∨
          b.values.countP (fun z => b.prefixBits z == b.prefixBits y) = b.k := by
        rcases List.mem_append.mp hy with hy | hy
        · refine (h.kept y hy hown').imp (fun hz => ?_) id
          obtain ⟨z, hz, he⟩ := hz
          exact ⟨z, List.mem_cons_of_mem _ hz, he⟩
        · exact Or.inl ⟨x, List.mem_cons_self, by rw [List.mem_singleton.mp hy]⟩
      rcases hstored with ⟨z, hz, hzy⟩ | hfull
      · rcases List.mem_append.mp (hp.symm.subset hz) with hz | hz
        · -- The item of this id is the one dropped, so its class is full.
          rcases ho.newest with rfl | ⟨e, rfl, hnewest, -⟩
          · exact absurd hz List.not_mem_nil
          · rw [List.mem_singleton.mp hz] at hzy
            have he : b'.prefixBits e = b'.prefixBits y := by rw [prefixBits, prefixBits, hzy]
            exact Or.inr (he ▸ hnewest)
        · exact Or.inl ⟨z, hz, hzy⟩
      · exact Or.inr (hbits y ▸ ho.countP_of_full hp hfull)

/-- Offers keep the id and the capacity of a table. -/
theorem offerAll_ourId (S : UnstableSort) (candidates : List T) : ∀ {b : Buckets T}, b.Wf →
    (b.offerAll S candidates).Wf ∧ (b.offerAll S candidates).ourId = b.ourId ∧ (b.offerAll S candidates).k = b.k := by
  induction candidates with
  | nil => exact fun h => ⟨h, rfl, rfl⟩
  | cons x candidates ih =>
    intro b h
    have hwf : (b.offer S x).Wf := by
      rw [offer]
      split
      · exact add_wf S h x none
      · exact h
    obtain ⟨h1, h2, h3⟩ := ih hwf
    exact ⟨h1, h2.trans (offer_ourId S h x).1, h3.trans (offer_ourId S h x).2⟩

/-- What a table holds after a list of candidates was offered to it. -/
theorem Offered.offerAll (S : UnstableSort) (more : List T) : ∀ {b : Buckets T} {candidates : List T}, Offered b candidates →
    Offered (b.offerAll S more) (candidates ++ more) := by
  induction more with
  | nil =>
    intro b candidates h
    rw [List.append_nil]
    exact h
  | cons x more ih =>
    intro b candidates h
    have := ih (h.offer S x)
    rwa [List.append_assoc, List.singleton_append] at this

/-- What a new table holds after a list of candidates was offered to it. -/
theorem offered_new (S : UnstableSort) (ourId : Id) (k : Nat) (candidates : List T) :
    Offered ((new ourId k : Buckets T).offerAll S candidates) candidates := by
  have := (new_offered ourId k).offerAll S candidates
  rwa [List.nil_append] at this

theorem offerAll_new_ourId (S : UnstableSort) (ourId : Id) (k : Nat) (candidates : List T) :
    ((new ourId k : Buckets T).offerAll S candidates).ourId = ourId ∧
      ((new ourId k : Buckets T).offerAll S candidates).k = k :=
  (offerAll_ourId S candidates (new_wf ourId k)).2

/-- A candidate of a full class that was first seen after every stored item of its class is not stored. -/
theorem Offered.newest_not_stored (S : UnstableSort) {b : Buckets T} {candidates : List T} (h : Offered b candidates) {x : T}
    (hx : getId x ≠ b.ourId) (hnew : ∀ y ∈ b.values, getId y ≠ getId x)
    (hfull : b.values.countP (fun y => b.prefixBits y == b.prefixBits x) = b.k)
    (hseen : ∀ y ∈ b.values, getFirstSeen y < getFirstSeen x) : ∀ y ∈ (b.offer S x).values, getId y ≠ getId x := by
  intro y hy hyx
  rcases offer_cases S h.wf x with ⟨-, hown | ⟨z, hz, hzx⟩⟩ | ⟨-, -, chumps, hp, ho⟩
  · exact hx hown
  · exact hnew z hz hzx
  · generalize b.offer S x = b' at hy hp ho
    have hbits : ∀ z, b'.prefixBits z = b.prefixBits z := prefixBits_congr ho.ourId
    have hyeq : y = x := (List.mem_cons.mp (hp.subset (List.mem_append_right _ hy))).resolve_right (fun hmem => hnew y hmem hyx)
    have hcount := hp.countP_eq (fun z => b'.prefixBits z == b.prefixBits x)
    have hold : b.values.countP (fun z => b'.prefixBits z == b.prefixBits x) = b.k := by simpa only [hbits] using hfull
    have hle := ho.wf.countP_prefixBits_le (b.prefixBits x)
    have hk : b'.k = b.k := ho.k
    rw [List.countP_append, List.countP_cons, if_pos (by simp [hbits])] at hcount
    rcases ho.newest with rfl | ⟨e, rfl, -, hnewest⟩
    · rw [List.countP_nil] at hcount
      omega
    · have he : b'.prefixBits e = b.prefixBits x := by
        by_contra hne
        rw [List.countP_singleton, if_neg (by simpa using hne)] at hcount
        omega
      have hle : getFirstSeen y ≤ getFirstSeen e := hnewest y hy (by rw [he, hbits, hyeq])
      rcases List.mem_cons.mp (hp.subset (List.mem_append_left _ (List.mem_singleton_self e))) with hex | hmem
      · -- Then the item is in the table and also dropped from it, though it was offered once.
        have hids : ((x :: b.values).map getId).Nodup := by
          rw [List.map_cons, List.nodup_cons]
          refine ⟨fun hmem => ?_, h.nodup⟩
          obtain ⟨z, hz, hzx⟩ := List.mem_map.mp hmem
          exact hnew z hz hzx
        rw [← (hp.map getId).nodup_iff, List.singleton_append, List.map_cons, List.nodup_cons] at hids
        exact hids.1 (List.mem_map.mpr ⟨y, hy, by rw [hyx, hex]⟩)
      · rw [hyeq] at hle
        exact absurd (hseen e hmem) (Nat.not_lt.mpr hle)

/-! ## The ids stored -/

/-- The ids stored. -/
def ids (b : Buckets T) : Finset Id := (b.values.map getId).toFinset

theorem mem_ids_iff (b : Buckets T) (id : Id) : id ∈ b.ids ↔ ∃ y ∈ b.values, getId y = id := by
  rw [ids, List.mem_toFinset, List.mem_map]

/-- In a list without repetition, counting is counting in the set. -/
theorem countP_eq_card {l : List Id} (h : l.Nodup) (p : Id → Prop) [DecidablePred p] :
    l.countP (fun id => decide (p id)) = (l.toFinset.filter p).card := by
  have hcard := List.toFinset_card_of_nodup (h.filter (fun id => decide (p id)))
  rw [List.toFinset_filter, ← List.countP_eq_length_filter] at hcard
  rw [← Finset.filter_congr (fun id _ => decide_eq_true_iff), hcard]

/-- With no id stored twice, items are counted by their ids. -/
theorem Offered.countP_ids {b : Buckets T} {candidates : List T} (h : Offered b candidates) (p : Id → Prop) [DecidablePred p] :
    b.values.countP (fun x => decide (p (getId x))) = (b.ids.filter p).card := by
  have hcount := countP_eq_card h.nodup p
  rwa [List.countP_map] at hcount

/-- The ids offered that are not stored are of full classes. -/
theorem Offered.full_of_not_mem {b : Buckets T} {candidates : List T} (h : Offered b candidates) {id : Id}
    (hid : id ∈ candidates.map getId) (hown : id ≠ b.ourId) (hnot : id ∉ b.ids) :
    (b.ids.filter (fun other => b.ourId.matchingPrefixBits other = b.ourId.matchingPrefixBits id)).card = b.k := by
  obtain ⟨x, hx, rfl⟩ := List.mem_map.mp hid
  rw [← h.countP_ids]
  exact (h.kept x hx hown).resolve_left (fun hstored => hnot ((mem_ids_iff b _).mpr hstored))

/-- A class of which at least `k` ids were offered is full. -/
theorem Offered.full_of_card {b : Buckets T} {candidates : List T} (h : Offered b candidates) (ids : Finset Id) {c : Nat}
    (hids : ∀ id ∈ ids, id ∈ candidates.map getId ∧ id ≠ b.ourId ∧ b.ourId.matchingPrefixBits id = c) (hk : b.k ≤ ids.card) :
    (b.ids.filter (fun other => b.ourId.matchingPrefixBits other = c)).card = b.k := by
  by_cases hall : ids ⊆ b.ids
  · refine Nat.le_antisymm ?_ (le_trans hk (Finset.card_le_card (fun id hid => ?_)))
    · rw [← h.countP_ids]
      exact h.wf.countP_prefixBits_le c
    · exact Finset.mem_filter.mpr ⟨hall hid, (hids id hid).2.2⟩
  · obtain ⟨id, hid, hnot⟩ := Finset.not_subset.mp hall
    rw [← (hids id hid).2.2]
    exact h.full_of_not_mem (hids id hid).1 (hids id hid).2.1 hnot

end Buckets

/-! ## The shortlist -/

/-- What `get_nearest_nodes` returns after the candidates were offered to a new table around the target. -/
def shortlist (S : UnstableSort) (target : Id) (k : Nat) (candidates : List NodeWrapper) : List NodeWrapper :=
  ((Buckets.new target k).offerAll S candidates).getNearestNodes S target none

/-- No id of the shortlist is the target. -/
theorem ne_target_of_mem_shortlist {S : UnstableSort} {target : Id} {k : Nat} {candidates : List NodeWrapper} {nw : NodeWrapper}
    (h : nw ∈ shortlist S target k candidates) : nw.node.id ≠ target := by
  have hstored := Buckets.mem_of_mem_getNearestNodes h
  have hoffered := Buckets.offered_new S target k candidates
  have hne := hoffered.wf.notOwn _ nw (hoffered.wf.toPlaced.mem_bucket hstored)
  rwa [(Buckets.offerAll_new_ourId S target k candidates).1] at hne

/-! ## The loop of a lookup -/

namespace Lookup

/-- The buckets of a lookup are what is left of the candidates offered so far. -/
structure Has (S : UnstableSort) (lookup : Lookup) (target : Id) (offered : List NodeWrapper) : Prop where
  target_eq : lookup.target = target
  buckets_eq : lookup.buckets = (Buckets.new target 8).offerAll S offered

theorem new_has (S : UnstableSort) (target : Id) : (Lookup.new target).Has S target [] := ⟨rfl, rfl⟩

variable {S : UnstableSort} {lookup : Lookup} {target : Id} {offered : List NodeWrapper}

/-- The nearest are the shortlist of the candidates. -/
theorem Has.nearest (h : lookup.Has S target offered) : lookup.nearest S = shortlist S target 8 offered := by
  rw [Lookup.nearest, h.target_eq, h.buckets_eq, shortlist]

/-- More candidates are offered after the ones before. -/
theorem Has.offerAll (h : lookup.Has S target offered) (more : List NodeWrapper) :
    lookup.buckets.offerAll S more = (Buckets.new target 8).offerAll S (offered ++ more) := by
  rw [h.buckets_eq, Buckets.offerAll, Buckets.offerAll, Buckets.offerAll, List.foldl_append]

/-- An iteration offers the main buckets of the DHT. -/
theorem Has.round (h : lookup.Has S target offered) (tooFew : Nat → Bool) (request : Nat → Message) (nodes : List NodeWrapper) :
    (lookup.round S tooFew request nodes).Has S target (offered ++ nodes) := by
  have hround : (lookup.round S tooFew request nodes).target = lookup.target ∧
      (lookup.round S tooFew request nodes).buckets = lookup.buckets.offerAll S nodes := by
    unfold Lookup.round
    extract_lets self nearest bestIdsCurrent
    split
    · exact ⟨rfl, rfl⟩
    · split <;> exact ⟨rfl, rfl⟩
  exact ⟨hround.1.trans h.target_eq, hround.2.trans (h.offerAll nodes)⟩

/-- A reply offers the nodes it lists. -/
theorem Has.candidates (h : lookup.Has S target offered) (nodes : List Node) (now : Nat → Instant) :
    (lookup.candidates S nodes now).Has S target (offered ++ nodes.mapIdx (fun i node => NodeWrapper.new node (now i))) :=
  ⟨h.target_eq, h.offerAll _⟩

theorem Has.finish (h : lookup.Has S target offered) (i : Nat) : (lookup.finish i).Has S target offered := ⟨h.target_eq, h.buckets_eq⟩

/-- What is outstanding after an iteration was so before, or is one of its requests. -/
theorem mem_todos_round {tooFew : Nat → Bool} {request : Nat → Message} {nodes : List NodeWrapper} {todo : RequestTo}
    (h : todo ∈ (lookup.round S tooFew request nodes).todos) : todo ∈ lookup.todos ∨ ∃ i, todo.req = request i := by
  unfold Lookup.round at h
  dsimp only at h
  split at h
  · exact .inl h
  · split at h
    · exact .inl h
    · obtain ⟨i, -, rfl⟩ := List.mem_mapIdx.mp h
      exact .inr ⟨i, rfl⟩

end Lookup

end RustyDht
