import CameraService.Lib.Transition
import Mathlib.Data.List.Perm.Basic

/-!
# A pool of threads over a shared state

The threads of a pool take turns: each step belongs to one thread, and changes
that thread and the shared state.  What a thread may do can depend on the others,
so that ownership can be read off their states.

Invariants of a pool are proved thread by thread.  An `Outline` gives an invariant
of the shared state, what each thread relies on, and what every two threads have
to do with one another; `Outline.holds_step` asks that a step keeps the first two
for the thread that takes it and does not disturb the others.

## Main definitions

* `Pool`, `Pool.Step` — the threads and their interleaving.
* `Pool.total` — the sum of a measure over the threads.
* `Pool.flatMap_perm` — what one thread has, and what the others have.
* `Outline`, `Outline.Holds` — assertions about a pool.
* `Outline.holds_step`, `Outline.holds_of_reachable` — the invariant rules.
-/

/-- A shared state and the threads that work on it. -/
structure Pool (σ τ : Type) where
  shared : σ
  threads : List τ

namespace Pool

open Transition

variable {σ τ L : Type}

/-- What one thread can do amid the others: the label of the step, and the shared
state and the thread's own state after it. -/
abbrev Action (σ τ L : Type) : Type := List τ → σ → τ → L → σ → τ → Prop

/-- One thread takes a step; the label tells which. -/
inductive Step (act : Action σ τ L) : Pool σ τ → ℕ × L → Pool σ τ → Prop
  | mk {p : Pool σ τ} {i : ℕ} {t t' : τ} {l : L} {s' : σ} (ht : p.threads[i]? = some t)
      (h : act (p.threads.eraseIdx i) p.shared t l s' t') :
      Step act p (i, l) ⟨s', p.threads.set i t'⟩

/-- The threads other than the `i`-th. -/
theorem mem_others {ts : List τ} {i : ℕ} {u : τ} :
    u ∈ ts.eraseIdx i ↔ ∃ j, j ≠ i ∧ ts[j]? = some u :=
  List.mem_eraseIdx_iff_getElem?

/-- After a step of the `i`-th thread, a thread is the one that moved or an other. -/
theorem getElem?_set_iff {ts : List τ} {i j : ℕ} {t t' u : τ} (ht : ts[i]? = some t) :
    (ts.set i t')[j]? = some u ↔ (j = i ∧ u = t') ∨ (j ≠ i ∧ ts[j]? = some u) := by
  obtain ⟨hi, -⟩ := List.getElem?_eq_some_iff.mp ht
  by_cases h : j = i
  · subst h
    simp [List.getElem?_set_self hi, eq_comm]
  · simp [List.getElem?_set_ne (Ne.symm h), h]

/-- A step of the thread that was put at `i`. -/
theorem Step.set {act : Action σ τ L} {ts : List τ} {i : ℕ} {s s' : σ} {t t' : τ} {l : L}
    (hi : i < ts.length) (h : act (ts.eraseIdx i) s t l s' t') :
    Step act ⟨s, ts.set i t⟩ (i, l) ⟨s', ts.set i t'⟩ := by
  have hothers : (ts.set i t).eraseIdx i = ts.eraseIdx i := List.eraseIdx_set_eq
  have hstep : Step act ⟨s, ts.set i t⟩ (i, l) ⟨s', (ts.set i t).set i t'⟩ :=
    .mk (List.getElem?_set_self hi) (hothers.symm ▸ h)
  rwa [List.set_set] at hstep

theorem mem_set_iff {ts : List τ} {i : ℕ} {t t' u : τ} (ht : ts[i]? = some t) :
    u ∈ ts.set i t' ↔ u = t' ∨ u ∈ ts.eraseIdx i := by
  rw [List.mem_iff_getElem?, mem_others]
  simp only [getElem?_set_iff ht]
  constructor
  · intro h
    obtain ⟨j, ⟨-, h⟩ | h⟩ := h
    · exact Or.inl h
    · exact Or.inr ⟨j, h⟩
  · intro h
    rcases h with h | ⟨j, h⟩
    · exact ⟨i, Or.inl ⟨rfl, h⟩⟩
    · exact ⟨j, Or.inr h⟩

/-- The sum of a measure over the threads. -/
def total (f : τ → ℕ) : List τ → ℕ
  | [] => 0
  | t :: ts => f t + total f ts

/-- One thread and the others. -/
theorem total_eq {f : τ → ℕ} {ts : List τ} {i : ℕ} {t : τ} (ht : ts[i]? = some t) :
    total f ts = f t + total f (ts.eraseIdx i) := by
  induction ts generalizing i with
  | nil => cases ht
  | cons u ts ih =>
      cases i with
      | zero =>
          obtain rfl : u = t := by simpa using ht
          simp [total]
      | succ i =>
          have hts := ih (i := i) (by simpa using ht)
          simp only [total, List.eraseIdx_cons_succ] at hts ⊢
          omega

theorem total_set {f : τ → ℕ} {ts : List τ} {i : ℕ} {t t' : τ} (ht : ts[i]? = some t) :
    total f (ts.set i t') = f t' + total f (ts.eraseIdx i) := by
  have hi : i < ts.length := (List.getElem?_eq_some_iff.mp ht).1
  rw [total_eq (List.getElem?_set_self hi), List.eraseIdx_set_eq]

theorem total_le_total {f g : τ → ℕ} {ts : List τ} (h : ∀ t ∈ ts, f t ≤ g t) :
    total f ts ≤ total g ts := by
  induction ts with
  | nil => exact Nat.le_refl _
  | cons t ts ih =>
      have ht := h t List.mem_cons_self
      have hts := ih fun t ht => h t (List.mem_cons_of_mem _ ht)
      simp only [total]
      omega

/-- Two measures with the same sum, one of them never the larger, are the same. -/
theorem eq_of_total_eq {f g : τ → ℕ} {ts : List τ} {t : τ} (h : ∀ t ∈ ts, f t ≤ g t)
    (htotal : total f ts = total g ts) (ht : t ∈ ts) : f t = g t := by
  obtain ⟨i, hi⟩ := List.mem_iff_getElem?.mp ht
  have hle := total_le_total fun u (hu : u ∈ ts.eraseIdx i) => h u (List.mem_of_mem_eraseIdx hu)
  have := h t ht
  rw [total_eq hi, total_eq hi] at htotal
  omega

theorem total_eq_zero {f : τ → ℕ} {ts : List τ} (h : ∀ t ∈ ts, f t = 0) : total f ts = 0 := by
  induction ts with
  | nil => rfl
  | cons t ts ih =>
      rw [total, h t List.mem_cons_self, Nat.zero_add]
      exact ih fun u hu => h u (List.mem_cons_of_mem _ hu)

theorem exists_of_total_pos {f : τ → ℕ} {ts : List τ} (h : 0 < total f ts) :
    ∃ t ∈ ts, f t ≠ 0 := by
  by_contra hn
  push Not at hn
  have := total_eq_zero hn
  omega

/-- What all threads have is what one of them has, and what the others have. -/
theorem flatMap_perm {β : Type} {f : τ → List β} {ts : List τ} {i : ℕ} {t : τ}
    (ht : ts[i]? = some t) : (ts.flatMap f).Perm (f t ++ (ts.eraseIdx i).flatMap f) := by
  obtain ⟨hi, rfl⟩ := List.getElem?_eq_some_iff.mp ht
  simpa using ((List.getElem_cons_eraseIdx_perm hi).symm).flatMap_right f

theorem flatMap_set_perm {β : Type} {f : τ → List β} {ts : List τ} {i : ℕ} {t t' : τ}
    (ht : ts[i]? = some t) :
    ((ts.set i t').flatMap f).Perm (f t' ++ (ts.eraseIdx i).flatMap f) := by
  have hi := (List.getElem?_eq_some_iff.mp ht).1
  simpa [List.eraseIdx_set_eq] using flatMap_perm (f := f) (t := t') (List.getElem?_set_self hi)

end Pool

/-! ## Assertions about a pool -/

/-- An invariant of the shared state, what a thread relies on, and what every two
threads have to do with one another. -/
structure Outline (σ τ : Type) where
  inv : σ → Prop
  own : σ → τ → Prop
  apart : τ → τ → Prop
  symm : ∀ t u, apart t u → apart u t

namespace Outline

open Transition

variable {σ τ L : Type} {O : Outline σ τ} {act : Pool.Action σ τ L} {p p' : Pool σ τ}

/-- The assertions hold of a pool. -/
structure Holds (O : Outline σ τ) (p : Pool σ τ) : Prop where
  inv : O.inv p.shared
  own : ∀ t ∈ p.threads, O.own p.shared t
  apart : ∀ (i j : ℕ) (t u : τ), i ≠ j → p.threads[i]? = some t → p.threads[j]? = some u →
    O.apart t u

/-- A step keeps the assertions: those of the thread that takes it, and those of
every other thread. -/
def Preserves (O : Outline σ τ) (act : Pool.Action σ τ L) : Prop :=
  ∀ os s t l s' t', act os s t l s' t' → O.inv s → O.own s t →
    (∀ u ∈ os, O.own s u ∧ O.apart t u) →
    O.inv s' ∧ O.own s' t' ∧ ∀ u ∈ os, O.own s' u ∧ O.apart t' u

/-- What the outline says about a thread and the others. -/
theorem Holds.others {i : ℕ} {t : τ} (h : O.Holds p) (ht : p.threads[i]? = some t) :
    ∀ u ∈ p.threads.eraseIdx i, O.own p.shared u ∧ O.apart t u := by
  intro u hu
  obtain ⟨j, hj, hu⟩ := Pool.mem_others.mp hu
  exact ⟨h.own u (List.mem_of_getElem? hu), h.apart i j t u (Ne.symm hj) ht hu⟩

/-- **The invariant rule for one step.** -/
theorem holds_step {l : ℕ × L} (hact : O.Preserves act) (h : O.Holds p)
    (hs : Pool.Step act p l p') : O.Holds p' := by
  obtain @⟨i, t, t', l, s', ht, hst⟩ := hs
  obtain ⟨hinv, hown, hothers⟩ :=
    hact _ _ _ _ _ _ hst h.inv (h.own t (List.mem_of_getElem? ht)) (h.others ht)
  refine ⟨hinv, ?_, ?_⟩
  · intro u hu
    rcases (Pool.mem_set_iff ht).mp hu with rfl | hu
    · exact hown
    · exact (hothers u hu).1
  · intro j k u v hjk hu hv
    rcases (Pool.getElem?_set_iff ht).mp hu with ⟨rfl, rfl⟩ | ⟨hj, hu'⟩
    · rcases (Pool.getElem?_set_iff ht).mp hv with ⟨rfl, -⟩ | ⟨hk, hv'⟩
      · exact absurd rfl hjk
      · exact (hothers v (Pool.mem_others.mpr ⟨k, hk, hv'⟩)).2
    · rcases (Pool.getElem?_set_iff ht).mp hv with ⟨-, rfl⟩ | ⟨hk, hv'⟩
      · exact O.symm _ _ (hothers u (Pool.mem_others.mpr ⟨j, hj, hu'⟩)).2
      · exact h.apart j k u v hjk hu' hv'

/-- **The invariant rule.** -/
theorem holds_of_reachable (hact : O.Preserves act) (h : O.Holds p)
    (hr : Reachable (Pool.Step act) p p') : O.Holds p' :=
  hr.induction h fun _ _ _ h hs => holds_step hact h hs

end Outline
