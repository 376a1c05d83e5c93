import Mathlib.Data.List.Basic

/-!
# Association lists with distinct keys

Where no key occurs twice, looking a key up finds exactly the entry that has it.
-/

namespace Assoc

variable {K V : Type} [BEq K] [LawfulBEq K]

/-- With distinct keys, a lookup finds exactly the entries. -/
theorem lookup_eq_some_iff {l : List (K × V)} (h : (l.map Prod.fst).Nodup) (k : K) (v : V) :
    l.lookup k = some v ↔ (k, v) ∈ l := by
  induction l with
  | nil => simp only [List.lookup_nil, List.not_mem_nil, reduceCtorEq]
  | cons e l ih =>
    obtain ⟨k', w⟩ := e
    rw [List.map_cons, List.nodup_cons] at h
    rw [List.lookup_cons, List.mem_cons]
    by_cases hk : k = k'
    · subst hk
      have hnot : (k, v) ∉ l := fun hm => h.1 (List.mem_map.mpr ⟨(k, v), hm, rfl⟩)
      simp only [beq_self_eq_true, Option.some.injEq, Prod.mk.injEq, true_and, hnot, or_false]
      exact eq_comm
    · have hb : (k == k') = false := by simpa using hk
      simp only [hb, ih h.2, Prod.mk.injEq, hk, false_and, false_or]

/-- A lookup finds nothing exactly when no entry has the key. -/
theorem lookup_eq_none_iff {l : List (K × V)} (k : K) : l.lookup k = none ↔ k ∉ l.map Prod.fst := by
  rw [List.lookup_eq_none_iff, List.mem_map]
  constructor
  · rintro h ⟨e, he, rfl⟩
    simpa using h e he
  · intro h e he
    rw [bne_iff_ne]
    rintro rfl
    exact h ⟨e, he, rfl⟩

end Assoc
