import Mathlib.Tactic.ByContra

/-!
# Checks made one after the other

`Checks R x P` says when a computation that can fail succeeds: exactly where `P` holds; and where it does not, it fails with an error of
which `R` holds. A computation is put together from checks by `bind`, and its condition from theirs. What comes after a check need only be
considered where the check passes.
-/

/-- `x` succeeds where `P` holds, and fails where it does not, with an error of which `R` holds. -/
structure Checks {ε α : Type} (R : ε → Prop) (x : Except ε α) (P : Prop) : Prop where
  passes : P → ∃ a, x = .ok a
  fails : ¬P → ∃ e, R e ∧ x = .error e

namespace Checks

variable {ε α β : Type} {R : ε → Prop} {x : Except ε α} {P Q : Prop}

/-- A sequence of two computations succeeds when both do. -/
theorem bind_eq_ok {f : α → Except ε β} {b : β} : (x >>= f) = .ok b ↔ ∃ a, x = .ok a ∧ f a = .ok b := by
  cases x with
  | error e => simp [bind, Except.bind]
  | ok a => simp [bind, Except.bind]

/-- A computation whose result is mapped succeeds when it does itself. -/
theorem map_eq_ok {f : α → β} {b : β} : f <$> x = .ok b ↔ ∃ a, x = .ok a ∧ f a = b := by
  cases x with
  | error e => simp [Functor.map, Except.map]
  | ok a => simp [Functor.map, Except.map]

/-- A computation whose result is then returned through a function is mapped. -/
theorem bind_pure_eq_map (x : Except ε α) (f : α → β) : (x >>= fun a => pure (f a)) = x.map f := by
  cases x <;> rfl

/-- Success is the condition. -/
theorem ok_iff (h : Checks R x P) : (∃ a, x = .ok a) ↔ P := by
  refine ⟨?_, h.passes⟩
  rintro ⟨a, ha⟩
  by_contra hP
  obtain ⟨e, -, he⟩ := h.fails hP
  rw [ha] at he
  cases he

/-- A condition as good as the first. -/
theorem congr (h : Checks R x P) (hPQ : P ↔ Q) : Checks R x Q :=
  ⟨fun hQ => h.passes (hPQ.mpr hQ), fun hQ => h.fails (fun hP => hQ (hPQ.mp hP))⟩

/-- A value passes. -/
theorem of_ok (a : α) : Checks R (.ok a) True := ⟨fun _ => ⟨a, rfl⟩, fun h => absurd trivial h⟩

/-- An error fails. -/
theorem of_error {e : ε} (he : R e) : Checks R (.error e : Except ε α) False := ⟨False.elim, fun _ => ⟨e, he, rfl⟩⟩

/-- A check passes, and then a check that is made where it does. -/
theorem bind {f : α → Except ε β} (h : Checks R x P) (hf : P → ∀ a, Checks R (f a) Q) : Checks R (x >>= f) (P ∧ Q) := by
  by_cases hP : P
  · obtain ⟨a, rfl⟩ := h.passes hP
    exact (hf hP a).congr ⟨fun hQ => ⟨hP, hQ⟩, And.right⟩
  · obtain ⟨e, he, rfl⟩ := h.fails hP
    exact ⟨fun hPQ => absurd hPQ.1 hP, fun _ => ⟨e, he, rfl⟩⟩

/-- A check passes, and then there is a value. -/
theorem bind_ok {f : α → β} (h : Checks R x P) : Checks R (x >>= fun a => pure (f a)) P :=
  (h.bind fun _ a => of_ok (f a)).congr (and_iff_left trivial)

end Checks
