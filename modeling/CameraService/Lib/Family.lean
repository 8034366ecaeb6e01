import CameraService.Lib.Transition
import Mathlib.Logic.Function.Basic

/-!
# Families of transition systems

Copies of one transition system run side by side, one for each key.  A label
belongs to one copy, which it moves, or to none; then it has to be free, and moves
nothing.  A run of the family is, for each key, a run of the copy with that key on
the labels that belong to it.

## Main definitions

* `Family` — the steps of a family.
* `Family.project` — the run of one copy.
-/

namespace Transition

variable {S L κ : Type} [DecidableEq κ]

/-- A step of the copy that the label belongs to, or a free label. -/
inductive Family (who : L → Option κ) (free : L → Prop) (step : S → L → S → Prop) :
    (κ → S) → L → (κ → S) → Prop
  | own {f : κ → S} {l : L} {k : κ} {s : S} (hk : who l = some k) (h : step (f k) l s) :
      Family who free step f l (Function.update f k s)
  | free {f : κ → S} {l : L} (hk : who l = none) (h : free l) : Family who free step f l f

variable {who : L → Option κ} {free : L → Prop} {step : S → L → S → Prop} {f g : κ → S} {k : κ}
  {l : L} {ls : List L}

/-- A label moves the copy that it belongs to, and no other. -/
theorem Family.at (h : Family who free step f l g) (k : κ) :
    (who l = some k ∧ step (f k) l (g k)) ∨ (who l ≠ some k ∧ g k = f k) := by
  cases h with
  | @own j s hj h =>
      by_cases hk : k = j
      · subst hk
        exact Or.inl ⟨hj, by simpa using h⟩
      · exact Or.inr ⟨by simp [hj, Ne.symm hk], by simp [hk]⟩
  | free hk h => exact Or.inr ⟨by simp [hk], rfl⟩

/-- **The run of one copy.** -/
theorem Family.project (h : Path (Family who free step) f ls g) (k : κ) :
    Path step (f k) (ls.filter fun l => who l = some k) (g k) := by
  induction ls generalizing f with
  | nil =>
      rw [Path.nil_iff] at h
      rw [h]
      exact .nil _
  | cons l ls ih =>
      obtain ⟨f', hl, hs⟩ := Path.cons_iff.mp h
      rcases hl.at k with ⟨hk, hstep⟩ | ⟨hk, hf⟩
      · rw [List.filter_cons_of_pos (by simpa using hk)]
        exact .cons hstep (ih hs)
      · rw [List.filter_cons_of_neg (by simpa using hk), ← hf]
        exact ih hs

/-- A label that belongs to no copy is free. -/
theorem Family.free_of_path (h : Path (Family who free step) f ls g) :
    ∀ l ∈ ls, who l = none → free l := by
  induction ls generalizing f with
  | nil => simp
  | cons l ls ih =>
      obtain ⟨f', hl, hs⟩ := Path.cons_iff.mp h
      intro l' hl' hnone
      rcases List.mem_cons.mp hl' with rfl | hl'
      · cases hl with
        | own hk => simp [hnone] at hk
        | free hk h => exact h
      · exact ih hs l' hl' hnone

end Transition
