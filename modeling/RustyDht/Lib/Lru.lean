import RustyDht.Lib.Assoc

/-!
# LRU caches

A cache of at most `cap` entries, the most recently used first, as the lru crate has it. Looking a key up or putting a value under it
makes its entry the most recently used one; putting a new key into a full cache evicts the least recently used entry, and into one without
any room does nothing; iterating reorders nothing. There is memory for every capacity.
-/

/-- A cache of entries with distinct keys, from the most recently used to the least. -/
structure LruCache (K V : Type) where
  /-- The entries, most recently used first. -/
  entries : List (K × V)
  /-- How many entries there may be. -/
  cap : Nat
  /-- No key occurs twice. -/
  nodup : (entries.map Prod.fst).Nodup
  deriving DecidableEq

namespace LruCache

variable {K V : Type}

/-- An empty cache. -/
def new (cap : Nat) : LruCache K V := { entries := [], cap, nodup := List.nodup_nil }

/-- The keys, most recently used first. -/
def keys (c : LruCache K V) : List K := c.entries.map Prod.fst

/-- The entries in the order an iteration gives them. -/
def iter (c : LruCache K V) : List (K × V) := c.entries

@[ext] theorem ext {c d : LruCache K V} (h : c.entries = d.entries) (hcap : c.cap = d.cap) : c = d := by
  cases c
  cases d
  simp only [mk.injEq]
  exact ⟨h, hcap⟩

/-- The entries that stay when a new key comes in: all but the least recently used one, if the cache is full. -/
def kept (c : LruCache K V) : List (K × V) := if c.entries.length = c.cap then c.entries.dropLast else c.entries

theorem kept_sublist (c : LruCache K V) : c.kept.Sublist c.entries := by
  rw [kept]
  split
  · exact List.dropLast_sublist _
  · exact List.Sublist.refl _

variable [DecidableEq K]

/-- The value under a key, without using it. -/
def peek (c : LruCache K V) (k : K) : Option V := c.entries.lookup k

/-- The entries under other keys, in their order. -/
def others (c : LruCache K V) (k : K) : List (K × V) := c.entries.filter (fun e => e.1 ≠ k)

theorem not_mem_keys_others (c : LruCache K V) (k : K) : k ∉ (c.others k).map Prod.fst := by
  intro h
  obtain ⟨e, he, rfl⟩ := List.mem_map.mp h
  simp only [others, List.mem_filter, ne_eq, not_true_eq_false, decide_false, Bool.false_eq_true, and_false] at he

/-- The cache with a value under a key as its most recently used entry, the others behind it. -/
def toFront (c : LruCache K V) (k : K) (v : V) : LruCache K V where
  entries := (k, v) :: c.others k
  cap := c.cap
  nodup := List.nodup_cons.mpr ⟨c.not_mem_keys_others k, c.nodup.sublist (List.filter_sublist.map _)⟩

/-- Look a key up: its entry becomes the most recently used. -/
def get (c : LruCache K V) (k : K) : Option V × LruCache K V :=
  match c.peek k with
  | some v => (some v, c.toFront k v)
  | none => (none, c)

/-- Look a key up to change its value: the value found, and the cache after a value is written in its place. -/
def getMut (c : LruCache K V) (k : K) : Option (V × (V → LruCache K V)) := (c.peek k).map (fun v => (v, c.toFront k))

theorem peek_eq_none_iff (c : LruCache K V) (k : K) : c.peek k = none ↔ k ∉ c.keys := Assoc.lookup_eq_none_iff k

/-- Put a value under a key: its entry becomes the most recently used. A new key in a full cache evicts the least recently used
entry. A cache of capacity zero takes no new key. -/
def put (c : LruCache K V) (k : K) (v : V) : LruCache K V :=
  match h : c.peek k with
  | some _ => c.toFront k v
  | none =>
    if c.cap = 0 then c
    else
      { entries := (k, v) :: c.kept
        cap := c.cap
        nodup := List.nodup_cons.mpr
          ⟨fun hm => (c.peek_eq_none_iff k).mp h ((c.kept_sublist.map Prod.fst).subset hm),
            c.nodup.sublist (c.kept_sublist.map _)⟩ }

/-! ## What the operations do -/

/-- A lookup finds exactly the entries. -/
theorem peek_eq_some_iff (c : LruCache K V) (k : K) (v : V) : c.peek k = some v ↔ (k, v) ∈ c.entries :=
  Assoc.lookup_eq_some_iff c.nodup k v

/-- A lookup of a key that is not there changes nothing. -/
theorem get_of_none {c : LruCache K V} {k : K} (h : c.peek k = none) : c.get k = (none, c) := by
  simp only [get, h]

/-- A lookup of a key that is there finds its value and makes its entry the first. -/
theorem get_of_some {c : LruCache K V} {k : K} {v : V} (h : c.peek k = some v) : c.get k = (some v, c.toFront k v) := by
  simp only [get, h]

theorem put_of_some {c : LruCache K V} {k : K} {v w : V} (h : c.peek k = some w) : c.put k v = c.toFront k v := by
  rw [put]
  split
  · rfl
  · next hn => exact nomatch h.symm.trans hn

theorem put_of_none {c : LruCache K V} (hcap : 1 ≤ c.cap) {k : K} {v : V} (h : c.peek k = none) :
    (c.put k v).entries = (k, v) :: c.kept := by
  rw [put]
  split
  · next hn => exact nomatch h.symm.trans hn
  · rw [if_neg (Nat.ne_of_gt hcap)]

/-- Without any room, a new key changes nothing. -/
theorem put_of_cap {c : LruCache K V} (hcap : c.cap = 0) {k : K} {v : V} (h : c.peek k = none) : c.put k v = c := by
  rw [put]
  split
  · next hn => exact nomatch h.symm.trans hn
  · exact if_pos hcap

@[simp] theorem get_cap (c : LruCache K V) (k : K) : (c.get k).2.cap = c.cap := by
  rw [get]
  split <;> rfl

@[simp] theorem put_cap (c : LruCache K V) (k : K) (v : V) : (c.put k v).cap = c.cap := by
  rw [put]
  split
  · rfl
  · split <;> rfl

/-- A lookup finds what is there. -/
@[simp] theorem get_fst (c : LruCache K V) (k : K) : (c.get k).1 = c.peek k := by
  rw [get]
  split
  · next v hv => exact hv.symm
  · next hn => exact hn.symm

/-- The entries after one is made the first: that one, and those under other keys. -/
theorem mem_toFront_iff {c : LruCache K V} {k : K} {v : V} {e : K × V} :
    e ∈ (c.toFront k v).entries ↔ e = (k, v) ∨ e ∈ c.entries ∧ e.1 ≠ k := by
  simp only [toFront, others, List.mem_cons, List.mem_filter, ne_eq, decide_not, Bool.not_eq_eq_eq_not, Bool.not_true,
    decide_eq_false_iff_not]

/-- A lookup leaves the entries there are. -/
theorem mem_get_iff {c : LruCache K V} {k : K} {e : K × V} : e ∈ (c.get k).2.entries ↔ e ∈ c.entries := by
  cases h : c.peek k with
  | none => rw [get_of_none h]
  | some v =>
    have hfound := (c.peek_eq_some_iff k v).mp h
    rw [get_of_some h, mem_toFront_iff]
    constructor
    · rintro (rfl | ⟨he, -⟩)
      · exact hfound
      · exact he
    · intro he
      by_cases hk : e.1 = k
      · have hsame := (c.peek_eq_some_iff e.1 e.2).mpr he
        rw [hk, h] at hsame
        exact .inl (Prod.ext hk (Option.some.inj hsame).symm)
      · exact .inr ⟨he, hk⟩

/-- The entries after a put: the one put, and some of those under other keys. -/
theorem mem_of_mem_put {c : LruCache K V} {k : K} {v : V} {e : K × V} (he : e ∈ (c.put k v).entries) :
    e = (k, v) ∨ e ∈ c.entries ∧ e.1 ≠ k := by
  cases h : c.peek k with
  | some w =>
    rw [put_of_some h] at he
    exact mem_toFront_iff.mp he
  | none =>
    have hother : e ∈ c.entries → e ∈ c.entries ∧ e.1 ≠ k := by
      intro hentry
      refine ⟨hentry, ?_⟩
      rintro rfl
      exact (c.peek_eq_none_iff e.1).mp h (List.mem_map.mpr ⟨e, hentry, rfl⟩)
    rcases Nat.eq_zero_or_pos c.cap with hcap | hcap
    · rw [put_of_cap hcap h] at he
      exact .inr (hother he)
    · rw [put_of_none hcap h, List.mem_cons] at he
      exact he.imp_right (fun he => hother (c.kept_sublist.subset he))

/-! ## How many entries there are -/

/-- The entries under other keys are fewer, if the key is there. -/
theorem length_others_lt {c : LruCache K V} {k : K} {v : V} (h : c.peek k = some v) : (c.others k).length < c.entries.length := by
  have hmem := (c.peek_eq_some_iff k v).mp h
  exact List.length_filter_lt_length_iff_exists.mpr ⟨(k, v), hmem, by simp⟩

/-- A lookup leaves no more entries than there may be. -/
theorem length_get_le {c : LruCache K V} (h : c.entries.length ≤ c.cap) (k : K) : (c.get k).2.entries.length ≤ c.cap := by
  cases hpeek : c.peek k with
  | none => rwa [get_of_none hpeek]
  | some v =>
    rw [get_of_some hpeek, toFront, List.length_cons]
    exact Nat.le_trans (length_others_lt hpeek) h

/-- A put leaves no more entries than there may be. -/
theorem length_put_le {c : LruCache K V} (h : c.entries.length ≤ c.cap) (k : K) (v : V) : (c.put k v).entries.length ≤ c.cap := by
  cases hpeek : c.peek k with
  | some w =>
    rw [put_of_some hpeek, toFront, List.length_cons]
    exact Nat.le_trans (length_others_lt hpeek) h
  | none =>
    rcases Nat.eq_zero_or_pos c.cap with hcap | hcap
    · rwa [put_of_cap hcap hpeek]
    · rw [put_of_none hcap hpeek, List.length_cons, kept]
      split
      · rw [List.length_dropLast]
        omega
      · omega

/-- What is put is there, if there is any room. -/
theorem mem_put {c : LruCache K V} (hcap : 1 ≤ c.cap) (k : K) (v : V) : (k, v) ∈ (c.put k v).entries := by
  cases hpeek : c.peek k with
  | some w => simp [put_of_some hpeek, mem_toFront_iff]
  | none => simp [put_of_none hcap hpeek]

/-- The other entries, where the one under the key is known. -/
theorem others_of_append {c : LruCache K V} {l l' : List (K × V)} {e : K × V} (h : c.entries = l ++ e :: l') :
    c.others e.1 = l ++ l' := by
  have hnodup := c.nodup
  rw [h, List.map_append, List.map_cons, List.nodup_append, List.nodup_cons] at hnodup
  obtain ⟨-, ⟨hnot, -⟩, hdisj⟩ := hnodup
  have hl : ∀ x ∈ l, x.1 ≠ e.1 := fun x hx => hdisj x.1 (List.mem_map.mpr ⟨x, hx, rfl⟩) e.1 List.mem_cons_self
  have hl' : ∀ x ∈ l', x.1 ≠ e.1 := fun x hx he => hnot (List.mem_map.mpr ⟨x, hx, he⟩)
  rw [others, h, List.filter_append, List.filter_cons_of_neg (by simp)]
  rw [List.filter_eq_self.mpr (fun x hx => decide_eq_true (hl x hx)),
    List.filter_eq_self.mpr (fun x hx => decide_eq_true (hl' x hx))]

/-- A cache whose entries are looked up one after the other, by a list of keys. -/
def touchAll (c : LruCache K V) (ks : List K) : LruCache K V := ks.foldl (fun c k => (c.get k).2) c

@[simp] theorem touchAll_cap (ks : List K) : ∀ c : LruCache K V, (c.touchAll ks).cap = c.cap := by
  induction ks with
  | nil => exact fun _ => rfl
  | cons k ks ih => exact fun c => (ih (c.get k).2).trans (c.get_cap k)

/-- Looking up the entries behind some others, from the most recently used to the least, puts them in front in reverse. -/
theorem touchAll_entries (l' : List (K × V)) : ∀ (c : LruCache K V) (l : List (K × V)), c.entries = l ++ l' →
    (c.touchAll (l'.map Prod.fst)).entries = l'.reverse ++ l := by
  induction l' with
  | nil => intro c l h; exact h.trans (List.append_nil l)
  | cons e l' ih =>
    intro c l h
    have hpeek : c.peek e.1 = some e.2 := (c.peek_eq_some_iff e.1 e.2).mpr (h ▸ List.mem_append_right _ List.mem_cons_self)
    have hget : (c.get e.1).2.entries = (e :: l) ++ l' := by
      rw [get_of_some hpeek]
      exact congrArg (e :: ·) (others_of_append h)
    rw [List.map_cons, touchAll, List.foldl_cons, ← touchAll, ih _ _ hget, List.reverse_cons, List.append_assoc]
    rfl

/-- Looking up every entry, from the most recently used to the least, reverses the order of use. -/
theorem touchAll_keys (c : LruCache K V) : (c.touchAll c.keys).entries = c.entries.reverse :=
  (touchAll_entries c.entries c [] rfl).trans (List.append_nil _)

/-! ## The order of use after scans

Scanning a cache by looking every entry up reverses the order of use. Entries used since, or before an even number of scans, stand in
front in their order; the others behind them, in reverse.
-/

/-- The elements that meet a condition, and behind them the others in reverse. -/
def weave {α : Type} (p : α → Bool) (l : List α) : List α := l.filter p ++ (l.filter (fun x => !p x)).reverse

section

variable {α : Type} {p q : α → Bool} {l : List α}

theorem weave_perm (p : α → Bool) (l : List α) : (weave p l).Perm l :=
  ((List.reverse_perm _).append_left _).trans (List.filter_append_perm p l)

/-- Reversing a weave exchanges the roles. -/
theorem reverse_weave (p : α → Bool) (l : List α) : (weave p l).reverse = weave (fun x => !p x) l := by
  simp only [weave, List.reverse_append, List.reverse_reverse, Bool.not_not]

theorem weave_congr (h : ∀ x ∈ l, p x = q x) : weave p l = weave q l := by
  have hnot : ∀ x ∈ l, (!p x) = !q x := fun x hx => by rw [h x hx]
  rw [weave, weave, List.filter_congr h, List.filter_congr hnot]

theorem weave_cons {a : α} (h : p a = true) : weave p (a :: l) = a :: weave p l := by
  simp only [weave, List.filter_cons, h, if_true, Bool.not_true, Bool.false_eq_true, if_false, List.cons_append]

theorem filter_weave (r : α → Bool) : (weave p l).filter r = weave p (l.filter r) := by
  simp only [weave, List.filter_append, List.filter_reverse, List.filter_filter, Bool.and_comm]

/-- A list whose elements all meet the condition is its own weave. -/
theorem weave_of_all (h : ∀ x ∈ l, p x = true) : weave p l = l := by
  have hl : l.filter (fun x => !p x) = [] := List.filter_eq_nil_iff.mpr (fun x hx => by rw [h x hx]; exact Bool.false_ne_true)
  rw [weave, hl, List.filter_eq_self.mpr h, List.reverse_nil, List.append_nil]

/-- A list whose elements but the last all meet the condition is its own weave. -/
theorem weave_of_forall {a : α} (h : ∀ x ∈ l, p x = true) : weave p (l ++ [a]) = l ++ [a] := by
  have hl : l.filter (fun x => !p x) = [] := List.filter_eq_nil_iff.mpr (fun x hx => by rw [h x hx]; exact Bool.false_ne_true)
  rw [weave, List.filter_append, List.filter_append, hl, List.filter_eq_self.mpr h]
  cases hp : p a with
  | true => simp only [List.filter_singleton, hp, cond_true, Bool.not_true, cond_false, List.append_nil, List.reverse_nil]
  | false => simp only [List.filter_singleton, hp, cond_false, Bool.not_false, cond_true, List.append_nil, List.nil_append,
      List.reverse_singleton]

/-- Where all elements but the last meet the condition, dropping the last drops it from the weave. -/
theorem dropLast_weave (h : ∀ x ∈ l.dropLast, p x = true) : (weave p l).dropLast = weave p l.dropLast := by
  rcases List.eq_nil_or_concat l with rfl | ⟨l', a, rfl⟩
  · rfl
  · rw [List.concat_eq_append, List.dropLast_concat] at h ⊢
    rw [weave_of_forall h, List.dropLast_concat, weave_of_all h]

/-- Where an element before the last does not meet the condition, the first such comes last in the weave. -/
theorem weave_dropLast {a : α} (hnodup : (l ++ [a]).Nodup) (h : ∃ x ∈ l, p x = false) :
    ∃ y ∈ l, y ∉ (weave p (l ++ [a])).dropLast := by
  have hperm := weave_perm p (l ++ [a])
  have hne : l.filter (fun x => !p x) ≠ [] := by
    obtain ⟨x, hx, hpx⟩ := h
    exact List.ne_nil_of_mem (List.mem_filter.mpr ⟨hx, by rw [hpx]; rfl⟩)
  obtain ⟨y, rest, hy⟩ := List.exists_cons_of_ne_nil hne
  have hyl : y ∈ l := (List.mem_filter.mp (hy ▸ List.mem_cons_self : y ∈ l.filter (fun x => !p x))).1
  refine ⟨y, hyl, ?_⟩
  have hweave : weave p (l ++ [a]) =
      ((l ++ [a]).filter p ++ (rest ++ [a].filter (fun x => !p x)).reverse) ++ [y] := by
    rw [weave, List.filter_append (p := fun x => !p x), hy, List.cons_append, List.reverse_cons, List.append_assoc]
  rw [hweave] at hperm ⊢
  rw [List.dropLast_concat]
  have hnd := hperm.nodup_iff.mpr hnodup
  rw [List.nodup_append] at hnd
  intro hmem
  exact hnd.2.2 y hmem y List.mem_cons_self rfl

end

end LruCache
