import RustyDht.Lib.Lru
import Mathlib.Data.List.Nodup

/-!
# The most recent

Of a list with the latest element first, `recent` keeps the latest element for each key. An LRU cache of at most `cap` entries that a
key has been put into, or looked up, is the first `cap` elements of that: `recent_take_cons` says what one use does to it.
-/

namespace LruCache

variable {α K V : Type} [DecidableEq K] {key : α → K}

/-- The latest element for each key, latest first, of a list with the latest first. -/
def recent (key : α → K) : List α → List α
  | [] => []
  | a :: l => a :: (recent key l).filter (fun b => key b ≠ key a)

@[simp] theorem recent_nil (key : α → K) : recent key [] = [] := rfl

theorem recent_cons (key : α → K) (a : α) (l : List α) :
    recent key (a :: l) = a :: (recent key l).filter (fun b => key b ≠ key a) := rfl

/-- Only one element is kept for each key. -/
theorem recent_nodup (key : α → K) (l : List α) : ((recent key l).map key).Nodup := by
  induction l with
  | nil => exact List.nodup_nil
  | cons a l ih =>
    rw [recent_cons, List.map_cons, List.nodup_cons]
    refine ⟨fun hmem => ?_, ih.sublist (List.filter_sublist.map _)⟩
    obtain ⟨b, hb, he⟩ := List.mem_map.mp hmem
    exact of_decide_eq_true (List.mem_filter.mp hb).2 he

/-- Elements under the same keys as before, which say the same. -/
theorem recent_map {β : Type} (key : α → K) {key' : β → K} (f : α → β) (hf : ∀ a, key' (f a) = key a) (l : List α) :
    recent key' (l.map f) = (recent key l).map f := by
  induction l with
  | nil => rfl
  | cons a l ih =>
    rw [List.map_cons, recent_cons, recent_cons, List.map_cons, ih, List.filter_map, hf]
    refine congrArg (fun p => f a :: ((recent key l).filter p).map f) (funext (fun b => ?_))
    simp only [Function.comp_apply, hf]

/-- What stays behind an element that is used: the others, or all but the last of a full list that does not have it. -/
def behind (key : α → K) (cap : Nat) (k : K) (l : List α) : List α :=
  if k ∈ l.map key then l.filter (fun b => key b ≠ k) else if l.length = cap then l.dropLast else l

theorem filter_key_of_notMem {k : K} {l : List α} (h : k ∉ l.map key) : l.filter (fun b => key b ≠ k) = l :=
  List.filter_eq_self.mpr (fun b hb => decide_eq_true (fun he => h (List.mem_map.mpr ⟨b, hb, he⟩)))

/-- Where the element under a key is among the first so many, the others among them are one fewer. -/
theorem filter_take_of_mem {k : K} : ∀ {l : List α} {n : Nat}, (l.map key).Nodup → k ∈ (l.take (n + 1)).map key →
    (l.take (n + 1)).filter (fun b => key b ≠ k) = (l.filter (fun b => key b ≠ k)).take n := by
  intro l
  induction l with
  | nil => exact fun _ hk => absurd hk List.not_mem_nil
  | cons a l ih =>
    intro n hnodup hk
    rw [List.map_cons, List.nodup_cons] at hnodup
    rw [List.take_succ_cons] at hk ⊢
    by_cases ha : key a = k
    · have hnot : k ∉ (l.take n).map key := fun hm => hnodup.1 (ha ▸ ((List.take_sublist n l).map key).subset hm)
      have hdrop : ∀ m : List α, (a :: m).filter (fun b => key b ≠ k) = m.filter (fun b => key b ≠ k) :=
        fun m => List.filter_cons_of_neg (by simpa using ha)
      rw [hdrop, hdrop, filter_key_of_notMem hnot, filter_key_of_notMem (ha ▸ hnodup.1)]
    · have hkeep : ∀ m : List α, (a :: m).filter (fun b => key b ≠ k) = a :: m.filter (fun b => key b ≠ k) :=
        fun m => List.filter_cons_of_pos (decide_eq_true ha)
      rw [List.map_cons, List.mem_cons] at hk
      have hk' : k ∈ (l.take n).map key := hk.resolve_left (Ne.symm ha)
      cases n with
      | zero => exact absurd hk' List.not_mem_nil
      | succ n => rw [hkeep, hkeep, ih hnodup.2 hk', List.take_succ_cons]

/-- Where no element under a key is among the first so many, they are the first so many of the others. -/
theorem take_filter_of_notMem {k : K} : ∀ {l : List α} {n : Nat}, k ∉ (l.take n).map key →
    (l.filter (fun b => key b ≠ k)).take n = l.take n := by
  intro l
  induction l with
  | nil => exact fun _ => rfl
  | cons a l ih =>
    intro n hk
    cases n with
    | zero => rfl
    | succ n =>
      rw [List.take_succ_cons, List.map_cons, List.mem_cons, not_or] at hk
      have hkeep : (a :: l).filter (fun b => key b ≠ k) = a :: l.filter (fun b => key b ≠ k) :=
        List.filter_cons_of_pos (decide_eq_true (Ne.symm hk.1))
      rw [hkeep, List.take_succ_cons, List.take_succ_cons, ih hk.2]

/-- What stays of the first so many elements behind the one used is one fewer of the others. -/
theorem behind_take (n : Nat) {l : List α} (hnodup : (l.map key).Nodup) (k : K) :
    behind key (n + 1) k (l.take (n + 1)) = (l.filter (fun b => key b ≠ k)).take n := by
  rw [behind]
  split
  · rename_i hmem
    exact filter_take_of_mem hnodup hmem
  · rename_i hnot
    have hnot' : k ∉ (l.take n).map key := fun hm => hnot (((List.take_sublist_take_left (Nat.le_succ n)).map key).subset hm)
    rw [take_filter_of_notMem hnot']
    split
    · rename_i hfull
      rw [List.length_take] at hfull
      rw [List.dropLast_eq_take, List.length_take, List.take_take]
      congr 1
      omega
    · rename_i hroom
      rw [List.length_take] at hroom
      rw [List.take_of_length_le (by omega), List.take_of_length_le (by omega)]

/-- One use: the element used, and behind it what stays of the first so many, are the first so many with it. -/
theorem recent_take_cons (key : α → K) {cap : Nat} (hcap : 1 ≤ cap) (a : α) (l : List α) :
    a :: behind key cap (key a) ((recent key l).take cap) = (recent key (a :: l)).take cap := by
  obtain ⟨n, rfl⟩ : ∃ n, cap = n + 1 := ⟨cap - 1, by omega⟩
  rw [recent_cons, List.take_succ_cons, behind_take n (recent_nodup key l)]

/-! ## Caches -/

/-- Putting a value into a cache that has room. -/
theorem put_entries {c : LruCache K V} (hcap : 1 ≤ c.cap) (k : K) (v : V) :
    (c.put k v).entries = (k, v) :: behind Prod.fst c.cap k c.entries := by
  rw [behind]
  cases hpeek : c.peek k with
  | some w =>
    have hmem : k ∈ c.entries.map Prod.fst := List.mem_map.mpr ⟨(k, w), (c.peek_eq_some_iff k w).mp hpeek, rfl⟩
    rw [put_of_some hpeek, if_pos hmem]
    rfl
  | none =>
    have hnot : k ∉ c.entries.map Prod.fst := (c.peek_eq_none_iff k).mp hpeek
    rw [put_of_none hcap hpeek, if_neg hnot]
    rfl

/-- The keys behind the one used. -/
theorem map_behind (cap : Nat) (k : K) (l : List α) : (behind key cap k l).map key = behind id cap k (l.map key) := by
  rw [behind, behind, List.map_id, List.length_map]
  split
  · rw [List.filter_map]
    rfl
  · split
    · exact List.map_dropLast
    · rfl

/-- A cache that holds the most recent of some values, after one more. -/
theorem put_recent {c : LruCache K V} {l : List (K × V)} (hcap : 1 ≤ c.cap) (h : c.entries = (recent Prod.fst l).take c.cap)
    (k : K) (v : V) : (c.put k v).entries = (recent Prod.fst ((k, v) :: l)).take c.cap := by
  rw [put_entries hcap, h]
  exact recent_take_cons Prod.fst hcap (k, v) l

/-- The keys of a cache that holds the most recent of some uses, after a value is put. -/
theorem put_keys_recent {c : LruCache K V} {l : List K} (hcap : 1 ≤ c.cap) (h : c.keys = (recent id l).take c.cap) (k : K) (v : V) :
    (c.put k v).keys = (recent id (k :: l)).take c.cap := by
  rw [keys, put_entries hcap, List.map_cons, map_behind, ← keys, h]
  exact recent_take_cons id hcap k l

/-- The keys of a cache that holds the most recent of some uses, after a lookup that finds something or a change of what it found. -/
theorem toFront_keys_recent {c : LruCache K V} {l : List K} (hcap : 1 ≤ c.cap) (h : c.keys = (recent id l).take c.cap) {k : K} {v w : V}
    (hk : c.peek k = some v) : (c.toFront k w).keys = (recent id (k :: l)).take c.cap := by
  rw [← put_of_some hk]
  exact put_keys_recent hcap h k w

end LruCache
