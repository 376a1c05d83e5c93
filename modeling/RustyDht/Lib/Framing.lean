import Mathlib.Data.List.Basic
import RustyDht.Lib.Checks

/-!
# Framing

Lists of records of one size, laid end to end. `mapSlices` reads the `i`-th slice of `n` bytes for every `i` below `length / n`,
left to right, and stops at the first record that does not read; records written one after the other read back, and records that
were read are written back.
-/

namespace Framing

variable {α β ε : Type}

/-- The elements from `start` up to `stop`. -/
def slice (l : List β) (start stop : Nat) : List β := (l.drop start).take (stop - start)

/-- Read every slice of `n` elements, stopping at the first that does not read. -/
def mapSlices (n : Nat) (read : List β → Except ε α) (l : List β) : Except ε (List α) :=
  (List.range (l.length / n)).mapM (fun i => read (slice l (i * n) (i * n + n)))

/-- Records of `n` elements each take `n` times their number. -/
theorem length_flatMap {write : α → List β} {n : Nat} {l : List α} (hlen : ∀ x ∈ l, (write x).length = n) :
    (l.flatMap write).length = l.length * n := by
  induction l with
  | nil => simp only [List.flatMap_nil, List.length_nil, Nat.zero_mul]
  | cons x l ih =>
    rw [List.flatMap_cons, List.length_append, hlen x List.mem_cons_self, ih (fun y hy => hlen y (List.mem_cons_of_mem x hy)),
      List.length_cons, Nat.succ_mul, Nat.add_comm]

/-- The first slice of records laid end to end is the first record. -/
theorem slice_zero_append {a b : List β} {n : Nat} (h : a.length = n) : slice (a ++ b) (0 * n) (0 * n + n) = a := by
  rw [slice, Nat.zero_mul, List.drop_zero, Nat.zero_add, Nat.sub_zero, List.take_left' h]

/-- The slices after the first record are those of the rest. -/
theorem slice_succ_append {a b : List β} {n : Nat} (h : a.length = n) (i : Nat) :
    slice (a ++ b) ((i + 1) * n) ((i + 1) * n + n) = slice b (i * n) (i * n + n) := by
  rw [slice, slice, Nat.add_sub_cancel_left, Nat.add_sub_cancel_left, Nat.succ_mul, Nat.add_comm (i * n), ← h,
    List.drop_append, Nat.add_sub_cancel_left, List.drop_of_length_le (Nat.le_add_right _ _), List.nil_append]

/-- Records of one size written one after the other read back. -/
theorem mapSlices_flatMap {write : α → List β} {read : List β → Except ε α} {n : Nat} (hn : 0 < n) {l : List α}
    (hlen : ∀ x ∈ l, (write x).length = n) (hread : ∀ x ∈ l, read (write x) = .ok x) :
    mapSlices n read (l.flatMap write) = .ok l := by
  rw [mapSlices, length_flatMap hlen, Nat.mul_div_cancel _ hn]
  induction l with
  | nil => rfl
  | cons x l ih =>
    have hx := hlen x List.mem_cons_self
    have hrest := ih (fun y hy => hlen y (List.mem_cons_of_mem x hy)) (fun y hy => hread y (List.mem_cons_of_mem x hy))
    rw [List.length_cons, List.range_succ_eq_map, List.mapM_cons, List.flatMap_cons, slice_zero_append hx,
      hread x List.mem_cons_self, List.mapM_map]
    simp only [Nat.succ_eq_add_one, Function.comp_def, slice_succ_append hx, hrest]
    rfl

/-! ## What was read -/

/-- What holds of whatever reads holds of each element of a list that read. -/
theorem forall_of_mapM {read : β → Except ε α} {p : α → Prop} (hp : ∀ s x, read s = .ok x → p x) {l : List β} {xs : List α}
    (h : l.mapM read = .ok xs) : ∀ x ∈ xs, p x := by
  induction l generalizing xs with
  | nil =>
    rw [List.mapM_nil] at h
    cases h
    simp
  | cons s l ih =>
    rw [List.mapM_cons] at h
    obtain ⟨x, hx, h⟩ := Checks.bind_eq_ok.mp h
    obtain ⟨ys, hys, h⟩ := Checks.bind_eq_ok.mp h
    cases h
    intro y hy
    rcases List.mem_cons.mp hy with rfl | hy
    · exact hp s y hx
    · exact ih hys y hy

/-- Where whatever reads is written back, so is a list of what reads. -/
theorem map_of_mapM {write : α → β} {read : β → Except ε α} (hwrite : ∀ s x, read s = .ok x → write x = s) {l : List β}
    {xs : List α} (h : l.mapM read = .ok xs) : xs.map write = l := by
  induction l generalizing xs with
  | nil =>
    rw [List.mapM_nil] at h
    cases h
    rfl
  | cons s l ih =>
    rw [List.mapM_cons] at h
    obtain ⟨x, hx, h⟩ := Checks.bind_eq_ok.mp h
    obtain ⟨ys, hys, h⟩ := Checks.bind_eq_ok.mp h
    cases h
    rw [List.map_cons, hwrite s x hx, ih hys]

/-- Where whatever reads from `n` elements is written back, so are the slices of a list that read, for as many as there are. -/
theorem flatMap_of_mapM_slices {write : α → List β} {read : List β → Except ε α} {n : Nat}
    (hwrite : ∀ s x, s.length = n → read s = .ok x → write x = s) {k : Nat} {l : List β} {xs : List α} (hl : l.length = k * n)
    (h : (List.range k).mapM (fun i => read (slice l (i * n) (i * n + n))) = .ok xs) : xs.flatMap write = l := by
  induction k generalizing l xs with
  | zero =>
    rw [List.range_zero, List.mapM_nil] at h
    cases h
    rw [Nat.zero_mul] at hl
    rw [List.flatMap_nil, List.eq_nil_of_length_eq_zero hl]
  | succ k ih =>
    have hle : n ≤ l.length := by
      rw [hl]
      exact Nat.le_mul_of_pos_left n (Nat.succ_pos k)
    have hfirst : (l.take n).length = n := List.length_take_of_le hle
    have hrest : (l.drop n).length = k * n := by rw [List.length_drop, hl, Nat.succ_mul, Nat.add_sub_cancel]
    rw [← List.take_append_drop n l, List.range_succ_eq_map, List.mapM_cons, slice_zero_append hfirst, List.mapM_map] at h
    simp only [Nat.succ_eq_add_one, Function.comp_def, slice_succ_append hfirst] at h
    obtain ⟨x, hx, h⟩ := Checks.bind_eq_ok.mp h
    obtain ⟨ys, hys, h⟩ := Checks.bind_eq_ok.mp h
    cases h
    rw [List.flatMap_cons, hwrite _ x hfirst hx, ih hrest hys, List.take_append_drop]

/-- Where whatever reads from `n` elements is written back, so is a whole number of records of `n` elements that read. -/
theorem flatMap_of_mapSlices {write : α → List β} {read : List β → Except ε α} {n : Nat}
    (hwrite : ∀ s x, s.length = n → read s = .ok x → write x = s) {l : List β} {xs : List α} (hl : n ∣ l.length)
    (h : mapSlices n read l = .ok xs) : xs.flatMap write = l :=
  flatMap_of_mapM_slices hwrite (Nat.div_mul_cancel hl).symm h

end Framing
