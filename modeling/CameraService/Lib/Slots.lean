import Mathlib.Logic.Function.Basic
import Mathlib.Tactic.Common

/-!
# A row of slots

What is kept in a row of slots, the newest in slot `0`.  Emptying a slot loses what it
held and nothing else, and moving what a slot holds to the empty slot after it loses
nothing.

## Main definitions

* `Slots.contents` — what the first slots hold, oldest first.
* `Slots.contents_move`, `Slots.contents_append` — what moving and appending do.
-/

namespace Slots

open Function

variable {α : Type} {f g : ℕ → Option (List α)} {n i : ℕ}

/-- What the first `n` slots hold, oldest first. -/
def contents (f : ℕ → Option (List α)) : ℕ → List α
  | 0 => []
  | n + 1 => (f n).getD [] ++ contents f n

theorem contents_congr (h : ∀ i < n, (f i).getD [] = (g i).getD []) :
    contents f n = contents g n := by
  induction n with
  | zero => rfl
  | succ n ih =>
      rw [contents, contents, h n (Nat.lt_succ_self n)]
      rw [ih fun i hi => h i (Nat.lt_succ_of_lt hi)]

theorem contents_update {v : Option (List α)} (h : n ≤ i) :
    contents (update f i v) n = contents f n := by
  refine contents_congr fun j hj => ?_
  have hne : j ≠ i := by omega
  rw [update_of_ne hne]

theorem contents_sublist (h : ∀ i, ((g i).getD []).Sublist ((f i).getD [])) :
    (contents g n).Sublist (contents f n) := by
  induction n with
  | zero => exact .refl _
  | succ n ih => exact (h n).append ih

/-- A slot that holds less. -/
theorem contents_update_sublist {v : Option (List α)} (h : (v.getD []).Sublist ((f i).getD [])) :
    (contents (update f i v) n).Sublist (contents f n) := by
  refine contents_sublist fun j => ?_
  by_cases hj : j = i
  · subst hj
    rwa [update_self]
  · simp [update_of_ne hj]

/-- **Moving to the next slot**, when that is empty. -/
theorem contents_move (hi : i + 1 < n) (hf : f (i + 1) = none) :
    contents (update (update f (i + 1) (f i)) i none) n = contents f n := by
  induction n with
  | zero => omega
  | succ n ih =>
      by_cases hn : i + 1 = n
      · subst hn
        have hne : i + 1 ≠ i := by omega
        rw [contents, contents, contents_update (Nat.le_refl i), contents_update (by omega),
          update_of_ne hne, update_self, update_self, contents, contents, hf]
        simp
      · have h₁ : n ≠ i := by omega
        have h₂ : n ≠ i + 1 := by omega
        rw [contents, contents, ih (by omega), update_of_ne h₁, update_of_ne h₂]

theorem contents_move_sublist (hi : i + 1 < n) :
    (contents (update (update f (i + 1) (f i)) i none) n).Sublist (contents f n) := by
  have hne : i ≠ i + 1 := by omega
  have hmove := contents_move (f := update f (i + 1) none) hi (update_self _ _ _)
  rw [update_idem, update_of_ne hne] at hmove
  rw [hmove]
  exact contents_update_sublist (List.nil_sublist _)

/-- Moving to the last slot loses what that held. -/
theorem contents_move_last :
    (contents (update (update f (i + 1) (f i)) i none) (i + 2)).IsSuffix (contents f (i + 2)) := by
  have hne : i + 1 ≠ i := by omega
  refine ⟨(f (i + 1)).getD [], ?_⟩
  rw [contents, contents, contents_update (Nat.le_refl i), contents_update (by omega),
    update_of_ne hne, update_self, update_self]
  rfl

/-- Appending to what the newest slot holds. -/
theorem contents_append {x y : List α} (hf : (f 0).getD [] = x) :
    contents (update f 0 (some (x ++ y))) (n + 1) = contents f (n + 1) ++ y := by
  induction n with
  | zero => simp [contents, hf]
  | succ n ih =>
      have hne : n + 1 ≠ 0 := by omega
      change (update f 0 _ (n + 1)).getD [] ++ contents (update f 0 _) (n + 1) =
        (f (n + 1)).getD [] ++ contents f (n + 1) ++ y
      rw [ih, update_of_ne hne, List.append_assoc]

end Slots
