import Mathlib.Logic.Basic

/-!
# Programs with a state and failures

A program that can fail and leaves its state behind when it does is an `ExceptT ε (StateM σ)`. `Keeps I x Q` says that the program
`x` keeps the invariant `I` of the state, whether it fails or not, and that the value it returns, if it returns one, satisfies `Q`.
There is one rule for each way of building a program. The rules before them say what one run comes to, where its first part is known.
`Returns I x Q` says that the program does not fail where the invariant holds, and that it keeps it.
-/

universe u

variable {σ ε α β : Type}

/-! ## One run -/

/-- One program and then another. -/
theorem run_bind (x : ExceptT ε (StateM σ) α) (f : α → ExceptT ε (StateM σ) β) (s : σ) :
    (x >>= f).run.run s = match x.run.run s with
      | (.ok a, s') => (f a).run.run s'
      | (.error e, s') => (.error e, s') := by
  change (ExceptT.bindCont f (x.run.run s).1).run (x.run.run s).2 = _
  cases hr : x.run.run s with
  | mk r s' => cases r <;> rfl

/-- A program whose first part returns goes on with what it returned. -/
theorem run_bind_of_ok {x : ExceptT ε (StateM σ) α} {f : α → ExceptT ε (StateM σ) β} {s s' : σ} {a : α}
    (h : x.run.run s = (.ok a, s')) : (x >>= f).run.run s = (f a).run.run s' := by
  rw [run_bind, h]

/-- A program whose first part fails has failed. -/
theorem run_bind_of_error {x : ExceptT ε (StateM σ) α} {f : α → ExceptT ε (StateM σ) β} {s s' : σ} {e : ε}
    (h : x.run.run s = (.error e, s')) : (x >>= f).run.run s = (.error e, s') := by
  rw [run_bind, h]

/-- A program that reads the state first. -/
theorem run_get_bind (f : σ → ExceptT ε (StateM σ) α) (s : σ) : (get >>= f).run.run s = (f s).run.run s := rfl

/-- A program that writes the state first. -/
theorem run_set_bind (s' : σ) (f : PUnit → ExceptT ε (StateM σ) α) (s : σ) : (set s' >>= f).run.run s = (f ⟨⟩).run.run s' := rfl

/-! ## Every run -/

/-- The program keeps the invariant, and what it returns satisfies the postcondition. -/
def Keeps (I : σ → Prop) (x : ExceptT ε (StateM σ) α) (Q : α → Prop) : Prop :=
  ∀ s, I s → I (x.run.run s).2 ∧ ∀ a, (x.run.run s).1 = .ok a → Q a

namespace Keeps

variable {I : σ → Prop} {x : ExceptT ε (StateM σ) α} {Q Q' : α → Prop} {R : β → Prop}

/-- A postcondition may be weakened. -/
theorem weaken (h : Keeps I x Q) (hq : ∀ a, Q a → Q' a) : Keeps I x Q' :=
  fun s hs => ⟨(h s hs).1, fun a ha => hq a ((h s hs).2 a ha)⟩

/-- What is returned without an effect satisfies what it satisfies. -/
theorem of_pure {a : α} (h : Q a) : Keeps I (pure a : ExceptT ε (StateM σ) α) Q := by
  refine fun s hs => ⟨hs, fun b hb => ?_⟩
  cases hb
  exact h

/-- A failure returns nothing. -/
theorem of_throw (e : ε) : Keeps I (throwThe ε e : ExceptT ε (StateM σ) α) Q := by
  refine fun s hs => ⟨hs, fun b hb => ?_⟩
  cases hb

/-- One program and then another that may use what the first returned. -/
theorem bind {f : α → ExceptT ε (StateM σ) β} (hx : Keeps I x Q) (hf : ∀ a, Q a → Keeps I (f a) R) : Keeps I (x >>= f) R := by
  intro s hs
  obtain ⟨h1, h2⟩ := hx s hs
  rw [run_bind]
  cases hr : x.run.run s with
  | mk r s' =>
    rw [hr] at h1 h2
    cases r with
    | error e => exact ⟨h1, fun b hb => by cases hb⟩
    | ok a => exact hf a (h2 a rfl) s' h1

/-- Reading the state gives one that satisfies the invariant. -/
theorem of_get : Keeps I (get : ExceptT ε (StateM σ) σ) I := by
  refine fun s hs => ⟨hs, fun b hb => ?_⟩
  cases hb
  exact hs

/-- Writing a state that satisfies the invariant. -/
theorem of_set {s' : σ} (h : I s') : Keeps I (set s' : ExceptT ε (StateM σ) PUnit) (fun _ => True) :=
  fun _ _ => ⟨h, fun _ _ => trivial⟩

/-- A change of the state that keeps the invariant. -/
theorem of_modify {f : σ → σ} (h : ∀ s, I s → I (f s)) :
    Keeps I (modify f : ExceptT ε (StateM σ) PUnit) (fun _ => True) :=
  fun s hs => ⟨h s hs, fun _ _ => trivial⟩

/-- A result computed without the state. -/
theorem of_ofExcept {r : Except ε α} (h : ∀ a, r = .ok a → Q a) : Keeps I (MonadExcept.ofExcept r : ExceptT ε (StateM σ) α) Q := by
  cases r with
  | ok a => exact of_pure (h a rfl)
  | error e => exact of_throw e

/-- A program for every element of a list. -/
theorem of_forM {f : α → ExceptT ε (StateM σ) PUnit} {l : List α} (h : ∀ a ∈ l, Keeps I (f a) (fun _ => True)) :
    Keeps I (l.forM f) (fun _ => True) := by
  induction l with
  | nil => exact of_pure trivial
  | cons a l ih => exact (h a List.mem_cons_self).bind (fun _ _ => ih (fun b hb => h b (List.mem_cons_of_mem a hb)))

end Keeps

/-! ## Programs that do not fail -/

/-- Where the invariant holds, the program returns something that satisfies the postcondition, and keeps the invariant. -/
def Returns (I : σ → Prop) (x : ExceptT ε (StateM σ) α) (Q : α → Prop) : Prop :=
  ∀ s, I s → ∃ a s', x.run.run s = (.ok a, s') ∧ I s' ∧ Q a

namespace Returns

variable {I : σ → Prop} {x : ExceptT ε (StateM σ) α} {Q Q' : α → Prop} {R : β → Prop}

/-- What returns keeps what it returns with. -/
theorem keeps (h : Returns I x Q) : Keeps I x Q := by
  intro s hs
  obtain ⟨a, s', hrun, hI, hQ⟩ := h s hs
  rw [hrun]
  refine ⟨hI, fun b hb => ?_⟩
  cases hb
  exact hQ

/-- To return is to return. -/
theorem of_pure {a : α} (h : Q a) : Returns I (pure a : ExceptT ε (StateM σ) α) Q := fun s hs => ⟨a, s, rfl, hs, h⟩

/-- One program and then another that may use what the first returned. -/
theorem bind {f : α → ExceptT ε (StateM σ) β} (hx : Returns I x Q) (hf : ∀ a, Q a → Returns I (f a) R) : Returns I (x >>= f) R := by
  intro s hs
  obtain ⟨a, s', hrun, hI, hQ⟩ := hx s hs
  obtain ⟨b, s'', hrun', hI', hR⟩ := hf a hQ s' hI
  exact ⟨b, s'', by rw [run_bind_of_ok hrun, hrun'], hI', hR⟩

/-- Reading the state gives one that satisfies the invariant. -/
theorem of_get : Returns I (get : ExceptT ε (StateM σ) σ) I := fun s hs => ⟨s, s, rfl, hs, hs⟩

/-- Writing a state that satisfies the invariant. -/
theorem of_set {s' : σ} (h : I s') : Returns I (set s' : ExceptT ε (StateM σ) PUnit) (fun _ => True) :=
  fun _ _ => ⟨⟨⟩, s', rfl, h, trivial⟩

/-- A change of the state that keeps the invariant. -/
theorem of_modify {f : σ → σ} (h : ∀ s, I s → I (f s)) : Returns I (modify f : ExceptT ε (StateM σ) PUnit) (fun _ => True) :=
  fun s hs => ⟨⟨⟩, f s, rfl, h s hs, trivial⟩

/-- A result computed without the state, which is no failure. -/
theorem of_ofExcept {r : Except ε α} {a : α} (h : r = .ok a) (hQ : Q a) :
    Returns I (MonadExcept.ofExcept r : ExceptT ε (StateM σ) α) Q := by
  rw [h]
  exact of_pure hQ

/-- A program for every element of a list. -/
theorem of_forM {f : α → ExceptT ε (StateM σ) PUnit} {l : List α} (h : ∀ a ∈ l, Returns I (f a) (fun _ => True)) :
    Returns I (l.forM f) (fun _ => True) := by
  induction l with
  | nil => exact of_pure trivial
  | cons a l ih => exact (h a List.mem_cons_self).bind (fun _ _ => ih (fun b hb => h b (List.mem_cons_of_mem a hb)))

end Returns
