import Mathlib.Data.List.Basic
import Mathlib.Data.List.Perm.Basic

/-!
# Growable arrays

The operations of a growable array that lists lack: removal by swapping with the last element, and retention by a predicate
that may keep a state of its own. Then what replacing one inner list does to the concatenation of a list of lists.
-/

namespace Vec

variable {α : Type} {σ : Type}

/-! ## Removal by swapping -/

/-- The last element brought to the front. -/
def rotateLast (l : List α) : List α :=
  match l.getLast? with
  | none => []
  | some z => z :: l.dropLast

/-- What removing the element at `i` by swapping leaves: the last element takes its place. -/
def swapRemove (l : List α) (i : Nat) : List α := l.take i ++ rotateLast (l.drop (i + 1))

theorem rotateLast_perm (l : List α) : (rotateLast l).Perm l := by
  rcases List.eq_nil_or_concat l with h | ⟨l', z, h⟩
  · subst h
    exact List.Perm.refl _
  · subst h
    simp only [rotateLast, List.concat_eq_append, List.getLast?_append, List.getLast?_singleton, Option.some_or,
      List.dropLast_concat]
    exact (List.perm_append_singleton z l').symm

/-- What follows the removed element is left in place up to order, what precedes it exactly. -/
theorem swapRemove_append (pre : List α) (x : α) (post : List α) :
    swapRemove (pre ++ x :: post) pre.length = pre ++ rotateLast post := by
  have h : (pre ++ x :: post).drop (pre.length + 1) = post := by
    rw [List.drop_append, List.drop_of_length_le (by omega)]
    simp
  rw [swapRemove, h, List.take_left']
  rfl

/-- The removed element and what is left make up the list. -/
theorem swapRemove_perm {l : List α} {i : Nat} {x : α} (h : l[i]? = some x) : (x :: swapRemove l i).Perm l := by
  obtain ⟨hi, hx⟩ := List.getElem?_eq_some_iff.mp h
  have hl : l = l.take i ++ x :: l.drop (i + 1) := by
    rw [← hx, List.getElem_cons_drop, List.take_append_drop]
  conv_rhs => rw [hl]
  exact (((rotateLast_perm (l.drop (i + 1))).append_left (l.take i)).cons x).trans List.perm_middle.symm

/-! ## Retention -/

/-- Keep the elements a predicate accepts, asked in order; the predicate carries a state from one call to the next. -/
def retain (f : α → σ → Bool × σ) : List α → σ → List α × σ
  | [], s => ([], s)
  | x :: xs, s =>
    let (keep, s) := f x s
    let (rest, s) := retain f xs s
    (if keep then x :: rest else rest, s)

/-- What is retained was there, in the same order. -/
theorem retain_sublist (f : α → σ → Bool × σ) (l : List α) : ∀ s, (retain f l s).1.Sublist l := by
  induction l with
  | nil => intro s; exact List.Sublist.refl _
  | cons x xs ih =>
    intro s
    simp only [retain]
    split
    · exact (ih _).cons_cons x
    · exact (ih _).cons x

/-- Retention by a predicate that carries no state filters. -/
theorem retain_eq_filter (p : α → Bool) (l : List α) : (retain (fun x s => (p x, s)) l ()).1 = l.filter p := by
  induction l with
  | nil => rfl
  | cons x xs ih => simp [retain, ih, List.filter_cons]

/-! ## Replacing one list of a list of lists -/

/-- The concatenation, with the list at `i` taken to the front. -/
theorem flatten_perm {L : List (List α)} {i : Nat} {l : List α} (h : L[i]? = some l) :
    L.flatten.Perm (l ++ (L.eraseIdx i).flatten) := by
  obtain ⟨hi, hx⟩ := List.getElem?_eq_some_iff.mp h
  have hL : L = L.take i ++ l :: L.drop (i + 1) := by
    rw [← hx, List.getElem_cons_drop, List.take_append_drop]
  conv_lhs => rw [hL]
  rw [List.eraseIdx_eq_take_drop_succ, List.flatten_append, List.flatten_append, List.flatten_cons, ← List.append_assoc,
    ← List.append_assoc]
  exact List.perm_append_comm.append_right _

/-- The concatenation after the list at `i` is replaced, with the new list taken to the front. -/
theorem flatten_set_perm {L : List (List α)} {i : Nat} (l : List α) (h : i < L.length) :
    (L.set i l).flatten.Perm (l ++ (L.eraseIdx i).flatten) := by
  have hs : (L.set i l)[i]? = some l := by
    rw [List.getElem?_set_self h]
  have := flatten_perm hs
  rwa [List.eraseIdx_set_eq] at this

end Vec
