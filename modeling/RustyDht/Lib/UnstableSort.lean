import Mathlib.Data.List.Dedup
import Mathlib.Data.List.Sort
import Mathlib.Order.Compare
import Mathlib.Order.Defs.LinearOrder

/-!
# Unstable sorting, and the nearest of a list

A standard library that sorts "unstably" promises that the result is a permutation of the input in the comparator's order, and
nothing about elements that compare equal. `UnstableSort` is any function that keeps that promise; what is proved over it holds
of every implementation and of every choice it makes among equals.

`Nearest f k all near` says `near` is a sorted choice of the `k` elements of `all` with the smallest keys: what sorting by a key
and truncating gives. With an injective key there is only one such choice.
-/

/-- A function that sorts as an unstable sort promises: a permutation, in the comparator's order whenever the comparator is one. -/
structure UnstableSort where
  /-- The sort itself, by a three-way comparator. -/
  sort : {α : Type} → (α → α → Ordering) → List α → List α
  /-- The result is a permutation of the input. -/
  perm : ∀ {α : Type} (cmp : α → α → Ordering) (l : List α), (sort cmp l).Perm l
  /-- The result is in order when the comparator is a total order. -/
  sorted : ∀ {α : Type} (cmp : α → α → Ordering) [Std.TransCmp cmp] (l : List α),
    (sort cmp l).Pairwise (fun a b => (cmp a b).isLE = true)

namespace UnstableSort

/-- Insertion sort keeps the promise. It is structurally recursive, so closed terms over it evaluate. -/
def insertion : UnstableSort where
  sort cmp l := l.insertionSort (fun a b => (cmp a b).isLE = true)
  perm _ l := List.perm_insertionSort _ l
  sorted cmp _ l := by
    have htotal : Std.Total (fun a b => (cmp a b).isLE = true) := ⟨fun a b => by
      have hswap : cmp b a = (cmp a b).swap := Std.OrientedCmp.eq_swap
      rw [hswap]
      cases cmp a b <;> simp⟩
    have htrans : IsTrans _ (fun a b => (cmp a b).isLE = true) := ⟨fun a b c => Std.TransCmp.isLE_trans⟩
    exact List.pairwise_insertionSort _ l

/-- Rearrange all of a list but its first element. -/
def rearrangeTail (g : (β : Type) → List β → List β) (β : Type) : List β → List β
  | [] => []
  | y :: m => y :: g β m

/-- Exchange the first two elements of a list. -/
def exchange (β : Type) : List β → List β
  | a :: b :: m => b :: a :: m
  | m => m

/-- A permutation of a list is a rearrangement of all lists. -/
theorem exists_rearrangement {α : Type} {l l' : List α} (h : l.Perm l') :
    ∃ g : (β : Type) → List β → List β, (∀ β m, (g β m).Perm m) ∧ g α l = l' := by
  induction h with
  | nil => exact ⟨fun _ m => m, fun _ _ => List.Perm.refl _, rfl⟩
  | cons x _ ih =>
    obtain ⟨g, hg, he⟩ := ih
    refine ⟨rearrangeTail g, fun β m => ?_, congrArg (x :: ·) he⟩
    cases m with
    | nil => exact List.Perm.refl _
    | cons y m => exact (hg β m).cons y
  | swap x y l =>
    refine ⟨exchange, fun β m => ?_, rfl⟩
    rcases m with _ | ⟨a, _ | ⟨b, m⟩⟩
    · exact List.Perm.refl _
    · exact List.Perm.refl _
    · exact List.Perm.swap a b m
  | trans _ _ ih1 ih2 =>
    obtain ⟨g1, hg1, he1⟩ := ih1
    obtain ⟨g2, hg2, he2⟩ := ih2
    exact ⟨fun β m => g2 β (g1 β m), fun β m => (hg2 β _).trans (hg1 β m), (congrArg (g2 α) he1).trans he2⟩

/-- Nothing is promised about equals: every permutation of a list that is in order is what some unstable sort makes of it. -/
theorem exists_sort_eq {α : Type} (cmp : α → α → Ordering) {l l' : List α} (hp : l.Perm l')
    (hs : l'.Pairwise (fun a b => (cmp a b).isLE = true)) : ∃ S : UnstableSort, S.sort cmp l = l' := by
  obtain ⟨g, hg, he⟩ := exists_rearrangement hp
  refine ⟨⟨fun {β} cmp m => insertion.sort cmp (g β m), fun cmp m => (insertion.perm cmp _).trans (hg _ m),
    fun cmp _ m => insertion.sorted cmp _⟩, ?_⟩
  change insertion.sort cmp (g α l) = l'
  rw [he]
  exact hs.insertionSort_eq

variable (S : UnstableSort) {α κ : Type} [LinearOrder κ]

/-- Sorting by a key. -/
def sortByKey (f : α → κ) (l : List α) : List α := S.sort (compareOn f) l

/-- Sorting by a key gives a permutation. -/
theorem sortByKey_perm (f : α → κ) (l : List α) : (S.sortByKey f l).Perm l := S.perm _ l

/-- The comparator of a key puts one element before another exactly when the keys are in order. -/
theorem compareOn_isLE (f : α → κ) (a b : α) : (compareOn f a b).isLE = true ↔ f a ≤ f b := by
  rw [compareOn, Ordering.isLE_iff_ne_gt, ← not_lt]
  exact not_congr compare_gt_iff_gt

/-- Sorting by a key gives nondecreasing keys. -/
theorem sortByKey_sorted (f : α → κ) (l : List α) : (S.sortByKey f l).Pairwise (fun a b => f a ≤ f b) := by
  have hcmp : Std.TransCmp (compareOn f) :=
    { eq_swap := fun {a b} => by simp only [compareOn]; exact Std.OrientedCmp.eq_swap
      isLE_trans := fun {a b c} h1 h2 => by
        rw [compareOn_isLE] at h1 h2 ⊢
        exact le_trans h1 h2 }
  exact (S.sorted (compareOn f) l).imp (fun h => (compareOn_isLE f _ _).mp h)

end UnstableSort

/-! ## The nearest of a list -/

/-- `near` is a sorted choice of the `k` elements of `all` with the smallest keys. -/
structure Nearest {α κ : Type} [LinearOrder κ] (f : α → κ) (k : Nat) (all near : List α) : Prop where
  /-- The chosen are in the order of their keys. -/
  sorted : near.Pairwise (fun a b => f a ≤ f b)
  /-- As many are chosen as there are, up to `k`. -/
  length : near.length = min k all.length
  /-- The chosen and some rest make up the whole, and no element of the rest has a smaller key than a chosen one. -/
  rest : ∃ rest : List α, (near ++ rest).Perm all ∧ ∀ x ∈ rest, ∀ y ∈ near, f y ≤ f x

namespace Nearest

variable {α κ : Type} [LinearOrder κ] {f : α → κ} {k : Nat} {all near : List α}

/-- Sorting by a key and truncating chooses the nearest. -/
theorem of_sort (S : UnstableSort) (f : α → κ) (k : Nat) (l : List α) : Nearest f k l ((S.sortByKey f l).take k) where
  sorted := (S.sortByKey_sorted f l).sublist (List.take_sublist _ _)
  length := by rw [List.length_take, (S.sortByKey_perm f l).length_eq]
  rest := by
    refine ⟨(S.sortByKey f l).drop k, ?_, ?_⟩
    · rw [List.take_append_drop]
      exact S.sortByKey_perm f l
    · intro x hx y hy
      have h := S.sortByKey_sorted f l
      rw [← List.take_append_drop k (S.sortByKey f l), List.pairwise_append] at h
      exact h.2.2 y hy x hx

/-- The chosen are among the elements. -/
theorem subset (h : Nearest f k all near) : ∀ x ∈ near, x ∈ all := by
  obtain ⟨rest, hp, -⟩ := h.rest
  intro x hx
  exact hp.subset (List.mem_append_left _ hx)

/-- An element that is not chosen has no smaller key than a chosen one. -/
theorem le_of_not_mem (h : Nearest f k all near) {x y : α} (hx : x ∈ all) (hn : x ∉ near) (hy : y ∈ near) : f y ≤ f x := by
  obtain ⟨rest, hp, hr⟩ := h.rest
  rcases List.mem_append.mp (hp.symm.subset hx) with h1 | h1
  · exact absurd h1 hn
  · exact hr x h1 y hy

/-- The chosen are the start of a sorted arrangement of the whole. -/
theorem exists_sorted (h : Nearest f k all near) :
    ∃ rest : List α, (near ++ rest).Perm all ∧ (near ++ rest).Pairwise (fun a b => f a ≤ f b) := by
  obtain ⟨rest, hp, hr⟩ := h.rest
  have hperm := UnstableSort.insertion.sortByKey_perm f rest
  refine ⟨UnstableSort.insertion.sortByKey f rest, (hperm.append_left near).trans hp, ?_⟩
  rw [List.pairwise_append]
  refine ⟨h.sorted, UnstableSort.insertion.sortByKey_sorted f rest, ?_⟩
  intro y hy x hx
  exact hr x (hperm.subset hx) y hy

/-- Where the key tells the elements apart, there is one choice only, whatever the order they are in. -/
theorem unique {all' near' : List α} (h : Nearest f k all near) (h' : Nearest f k all' near') (hp : all.Perm all')
    (hinj : ∀ x ∈ all, ∀ y ∈ all, f x = f y → x = y) : near = near' := by
  obtain ⟨rest, hperm, hsorted⟩ := h.exists_sorted
  obtain ⟨rest', hperm', hsorted'⟩ := h'.exists_sorted
  have hall : (near ++ rest).Perm (near' ++ rest') := hperm.trans (hp.trans hperm'.symm)
  have heq : near ++ rest = near' ++ rest' := by
    refine List.Perm.eq_of_pairwise ?_ hsorted hsorted' hall
    intro x y hx hy hxy hyx
    exact hinj x (hperm.subset hx) y (hperm.subset (hall.symm.subset hy)) (le_antisymm hxy hyx)
  have hlength : near.length = near'.length := by rw [h.length, h'.length, hp.length_eq]
  exact List.append_inj_left heq hlength

/-- Where the key tells the elements apart, the chosen are in the strict order of their keys. -/
theorem strict (h : Nearest f k all near) (hinj : ∀ x ∈ all, ∀ y ∈ all, f x = f y → x = y) (hnodup : all.Nodup) :
    near.Pairwise (fun a b => f a < f b) := by
  obtain ⟨rest, hp, -⟩ := h.rest
  have hnear : near.Nodup := (hp.nodup_iff.mpr hnodup).of_append_left
  refine (h.sorted.and hnear).imp_of_mem ?_
  intro x y hx hy hxy
  exact lt_of_le_of_ne hxy.1 (fun he => hxy.2 (hinj x (h.subset x hx) y (h.subset y hy) he))

/-- Where the key tells the elements apart, an element that is not chosen has a greater key than every chosen one. -/
theorem lt_of_not_mem (h : Nearest f k all near) (hinj : ∀ x ∈ all, ∀ y ∈ all, f x = f y → x = y) {x y : α} (hx : x ∈ all)
    (hn : x ∉ near) (hy : y ∈ near) : f y < f x := by
  refine lt_of_le_of_ne (h.le_of_not_mem hx hn hy) ?_
  intro he
  exact hn (hinj y (h.subset y hy) x hx he ▸ hy)

/-- Of the elements up to some key as many are chosen as there are, up to `k`. -/
theorem countP_of_lower (h : Nearest f k all near) {p : α → Bool} (hp : ∀ x y, f x ≤ f y → p y = true → p x = true) :
    near.countP p = min k (all.countP p) := by
  obtain ⟨rest, hperm, hr⟩ := h.rest
  have hlen := hperm.length_eq
  have hcount := hperm.countP_eq p
  rw [List.length_append] at hlen
  rw [List.countP_append] at hcount
  have hk := h.length
  by_cases hall : near.countP p = near.length
  · -- Every chosen element counts; when fewer than `k` are chosen there is no other.
    have hrest : rest.countP p ≤ rest.length := List.countP_le_length
    omega
  · -- Some chosen element does not count, so none of the rest does.
    have hzero : rest.countP p = 0 := by
      rw [List.countP_eq_zero]
      intro x hx hpx
      exact hall (List.countP_eq_length.mpr (fun y hy => hp y x (hr x hx y hy) hpx))
    have hle : near.countP p ≤ near.length := List.countP_le_length
    omega

/-- Fewer than `k` elements have a smaller key than a chosen one. -/
theorem countP_lt_of_mem (h : Nearest f k all near) {y : α} (hy : y ∈ near) : all.countP (fun x => f x < f y) < k := by
  have hcount := h.countP_of_lower (p := fun x => f x < f y) (fun a b hab hb => by
    rw [decide_eq_true_eq] at hb ⊢
    exact lt_of_le_of_lt hab hb)
  have hlt : near.countP (fun x => f x < f y) < near.length := by
    refine lt_of_le_of_ne List.countP_le_length (fun he => ?_)
    have := List.countP_eq_length.mp he y hy
    simp at this
  have := h.length
  omega

/-- An element with at most `k` elements of no larger key, itself among them, is chosen. -/
theorem mem_of_countP_lt (h : Nearest f k all near) {x : α} (hx : x ∈ all) (hc : all.countP (fun y => f y ≤ f x) ≤ k) :
    x ∈ near := by
  have hcount := h.countP_of_lower (p := fun y => f y ≤ f x) (fun a b hab hb => by
    rw [decide_eq_true_eq] at hb ⊢
    exact le_trans hab hb)
  obtain ⟨rest, hp, -⟩ := h.rest
  have hsum := hp.countP_eq (fun y => f y ≤ f x)
  rw [List.countP_append] at hsum
  have hrest : rest.countP (fun y => f y ≤ f x) = 0 := by omega
  refine (List.mem_append.mp (hp.symm.subset hx)).resolve_right (fun hxr => ?_)
  exact List.countP_eq_zero.mp hrest x hxr (by simp)

/-- Some of the elements of a list without repetition, and after them the others. -/
theorem append_filter_perm [DecidableEq α] (hall : all.Nodup) (hnear : near.Nodup) (hsub : near ⊆ all) :
    (near ++ all.filter (fun x => x ∉ near)).Perm all := by
  refine (List.perm_ext_iff_of_nodup (hnear.append (hall.filter _) ?_) hall).mpr (fun x => ?_)
  · exact fun x h1 h2 => of_decide_eq_true (List.mem_filter.mp h2).2 h1
  · rw [List.mem_append, List.mem_filter]
    constructor
    · rintro (h1 | ⟨h1, -⟩)
      · exact hsub h1
      · exact h1
    · intro h1
      by_cases h2 : x ∈ near
      · exact Or.inl h2
      · exact Or.inr ⟨h1, decide_eq_true h2⟩

/-- When no element is chosen twice, repetitions make no difference to what is chosen. -/
theorem dedup [DecidableEq α] (h : Nearest f k all near) (hnear : near.Nodup) : Nearest f k all.dedup near := by
  have hsub : near ⊆ all.dedup := fun x hx => List.mem_dedup.mpr (h.subset x hx)
  refine ⟨h.sorted, ?_, all.dedup.filter (fun x => x ∉ near), append_filter_perm (List.nodup_dedup all) hnear hsub, ?_⟩
  · have h1 := h.length
    have h2 := (List.subperm_of_subset hnear hsub).length_le
    have h3 := (List.dedup_sublist all).length_le
    omega
  · intro x hx y hy
    obtain ⟨h1, h2⟩ := List.mem_filter.mp hx
    exact h.le_of_not_mem (List.mem_dedup.mp h1) (of_decide_eq_true h2) hy

/-- The nearest by a key that is read off an image are the nearest of the images. -/
theorem map {β : Type} {g : β → α} {all near : List β} (h : Nearest (fun b => f (g b)) k all near) :
    Nearest f k (all.map g) (near.map g) where
  sorted := List.pairwise_map.mpr h.sorted
  length := by rw [List.length_map, List.length_map, h.length]
  rest := by
    obtain ⟨rest, hp, hr⟩ := h.rest
    refine ⟨rest.map g, ?_, ?_⟩
    · rw [← List.map_append]
      exact hp.map g
    · intro x hx y hy
      obtain ⟨a, ha, rfl⟩ := List.mem_map.mp hx
      obtain ⟨b, hb, rfl⟩ := List.mem_map.mp hy
      exact hr a ha b hb

/-- The nearest of some elements are the nearest of all when each element left out is farther than `k` of those. -/
theorem of_missing {some : List α} (missing : List α) (h : Nearest f k some near) (hp : (some ++ missing).Perm all)
    (hm : ∀ x ∈ missing, k ≤ some.countP (fun y => f y < f x)) : Nearest f k all near where
  sorted := h.sorted
  length := by
    rw [h.length, ← hp.length_eq, List.length_append]
    cases missing with
    | nil => rfl
    | cons x missing =>
      have h1 := hm x List.mem_cons_self
      have h2 : some.countP (fun y => f y < f x) ≤ some.length := List.countP_le_length
      omega
  rest := by
    obtain ⟨rest, h1, h2⟩ := h.rest
    refine ⟨rest ++ missing, ?_, fun x hx y hy => ?_⟩
    · rw [← List.append_assoc]
      exact (h1.append_right missing).trans hp
    · rcases List.mem_append.mp hx with hx | hx
      · exact h2 x hx y hy
      · by_contra hlt
        have h3 := h.countP_lt_of_mem hy
        have h4 : some.countP (fun z => f z < f x) ≤ some.countP (fun z => f z < f y) := by
          refine List.countP_mono_left (fun z _ hz => ?_)
          rw [decide_eq_true_eq] at hz ⊢
          exact lt_trans hz (not_le.mp hlt)
        have h5 := hm x hx
        omega

end Nearest
