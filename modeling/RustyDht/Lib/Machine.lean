import Mathlib.Data.List.Basic

/-!
# Runs of a state machine

A machine is a step function from a state and an event to a state. A run is a list of events; what every step preserves holds
after every run, and what every step that meets a condition preserves holds after every run whose steps all meet it.
-/

namespace Machine

universe u v

variable {σ : Type u} {ε : Type v} (step : σ → ε → σ)

/-- The state after a list of events. -/
def run (s : σ) (es : List ε) : σ := es.foldl step s

@[simp] theorem run_nil (s : σ) : run step s [] = s := rfl

@[simp] theorem run_cons (s : σ) (e : ε) (es : List ε) : run step s (e :: es) = run step (step s e) es := rfl

theorem run_append (s : σ) (es fs : List ε) : run step s (es ++ fs) = run step (run step s es) fs :=
  List.foldl_append

/-- A map of states that commutes with the steps commutes with the runs. -/
theorem run_map {τ : Type*} {step' : τ → ε → τ} (f : σ → τ) (hstep : ∀ s e, f (step s e) = step' (f s) e) (es : List ε) :
    ∀ s, f (run step s es) = run step' (f s) es := by
  induction es with
  | nil => exact fun s => rfl
  | cons e es ih =>
    intro s
    rw [run_cons, run_cons, ih, hstep]

/-- What every step preserves holds after every run. -/
theorem run_invariant {P : σ → Prop} (hstep : ∀ s e, P s → P (step s e)) (es : List ε) :
    ∀ s, P s → P (run step s es) := by
  induction es with
  | nil => exact fun s h => h
  | cons e es ih => exact fun s h => ih (step s e) (hstep s e h)

/-- Every step of a run meets a condition on its event and the state before it. -/
def StepsOk (Ok : σ → ε → Prop) : σ → List ε → Prop
  | _, [] => True
  | s, e :: es => Ok s e ∧ StepsOk Ok (step s e) es

/-- Whether every step of a run meets a decidable condition is decided step by step. -/
instance StepsOk.decidable (Ok : σ → ε → Prop) [∀ s e, Decidable (Ok s e)] :
    ∀ s es, Decidable (StepsOk step Ok s es)
  | _, [] => inferInstanceAs (Decidable True)
  | s, e :: es =>
    have := StepsOk.decidable Ok (step s e) es
    inferInstanceAs (Decidable (Ok s e ∧ StepsOk step Ok (step s e) es))

/-- What every step that meets a condition preserves holds after every run whose steps all meet it. -/
theorem run_invariant_of_stepsOk {Ok : σ → ε → Prop} {P : σ → Prop} (hstep : ∀ s e, P s → Ok s e → P (step s e))
    (es : List ε) : ∀ s, P s → StepsOk step Ok s es → P (run step s es) := by
  induction es with
  | nil => exact fun s h _ => h
  | cons e es ih => exact fun s h hok => ih (step s e) (hstep s e h hok.1) hok.2

/-! ## What a run puts out -/

/-- What the steps of a run put out, in order. -/
def outputs {β : Type*} (out : σ → ε → List β) : σ → List ε → List β
  | _, [] => []
  | s, e :: es => out s e ++ outputs out (step s e) es

@[simp] theorem outputs_nil {β : Type*} (out : σ → ε → List β) (s : σ) : outputs step out s [] = [] := rfl

@[simp] theorem outputs_cons {β : Type*} (out : σ → ε → List β) (s : σ) (e : ε) (es : List ε) :
    outputs step out s (e :: es) = out s e ++ outputs step out (step s e) es := rfl

theorem outputs_append {β : Type*} (out : σ → ε → List β) (es fs : List ε) :
    ∀ s, outputs step out s (es ++ fs) = outputs step out s es ++ outputs step out (run step s es) fs := by
  induction es with
  | nil => exact fun s => rfl
  | cons e es ih =>
    intro s
    simp [ih]

/-- A run meets a condition where its two parts do. -/
theorem stepsOk_append_iff {Ok : σ → ε → Prop} (es fs : List ε) :
    ∀ s, StepsOk step Ok s (es ++ fs) ↔ StepsOk step Ok s es ∧ StepsOk step Ok (run step s es) fs := by
  induction es with
  | nil => exact fun s => by simp [StepsOk]
  | cons e es ih =>
    intro s
    simp only [List.cons_append, StepsOk, run_cons, ih, and_assoc]

/-- A condition that the events meet in every state is met by every step. -/
theorem stepsOk_of_forall {Ok : σ → ε → Prop} (es : List ε) : ∀ s, (∀ e ∈ es, ∀ s, Ok s e) → StepsOk step Ok s es := by
  induction es with
  | nil => exact fun s _ => trivial
  | cons e es ih =>
    exact fun s h => ⟨h e List.mem_cons_self s, ih (step s e) (fun e he => h e (List.mem_cons_of_mem _ he))⟩

/-- Steps that meet two conditions meet both. -/
theorem stepsOk_and {Ok Ok' : σ → ε → Prop} (es : List ε) :
    ∀ s, StepsOk step Ok s es → StepsOk step Ok' s es → StepsOk step (fun s e => Ok s e ∧ Ok' s e) s es := by
  induction es with
  | nil => exact fun s _ _ => trivial
  | cons e es ih => exact fun s h h' => ⟨⟨h.1, h'.1⟩, ih (step s e) h.2 h'.2⟩

section

variable {τ : Type*} {δ : Type*} {part : τ → δ → τ} {I : σ → Prop} {Ok : σ → ε → Prop}

/-- A part of a machine that takes, in every step that meets a condition, the steps of a machine of its own fares as that machine does in
a run whose steps all meet it. -/
theorem run_part_of_stepsOk (f : σ → τ) (out : σ → ε → List δ) (hinv : ∀ s e, I s → Ok s e → I (step s e))
    (hstep : ∀ s e, I s → Ok s e → f (step s e) = run part (f s) (out s e)) (es : List ε) :
    ∀ s, I s → StepsOk step Ok s es → f (run step s es) = run part (f s) (outputs step out s es) := by
  induction es with
  | nil => exact fun s _ _ => rfl
  | cons e es ih =>
    intro s hs h
    rw [run_cons, ih _ (hinv s e hs h.1) h.2, hstep s e hs h.1, outputs_cons, run_append]

/-- A part of a machine that takes, in every step, the steps of a machine of its own fares in a run as that machine does. -/
theorem run_part (f : σ → τ) (out : σ → ε → List δ) (hinv : ∀ s e, I s → I (step s e))
    (hstep : ∀ s e, I s → f (step s e) = run part (f s) (out s e)) (es : List ε) (s : σ) (hs : I s) :
    f (run step s es) = run part (f s) (outputs step out s es) := by
  have htrue : StepsOk step (fun _ _ => True) s es := stepsOk_of_forall step es s (fun _ _ _ => trivial)
  exact run_part_of_stepsOk step f out (fun s e hs _ => hinv s e hs) (fun s e hs _ => hstep s e hs) es s hs htrue

/-- Where every step of a run meets what makes the steps of a part meet a condition, they all do. -/
theorem stepsOk_part {Ok' : τ → δ → Prop} (f : σ → τ) (out : σ → ε → List δ) (hinv : ∀ s e, I s → Ok s e → I (step s e))
    (hstep : ∀ s e, I s → Ok s e → f (step s e) = run part (f s) (out s e))
    (hok : ∀ s e, I s → Ok s e → StepsOk part Ok' (f s) (out s e)) (es : List ε) :
    ∀ s, I s → StepsOk step Ok s es → StepsOk part Ok' (f s) (outputs step out s es) := by
  induction es with
  | nil => exact fun s _ _ => trivial
  | cons e es ih =>
    intro s hs h
    rw [outputs_cons]
    refine (stepsOk_append_iff part _ _ (f s)).mpr ⟨hok s e hs h.1, ?_⟩
    rw [← hstep s e hs h.1]
    exact ih (step s e) (hinv s e hs h.1) h.2

end

end Machine
