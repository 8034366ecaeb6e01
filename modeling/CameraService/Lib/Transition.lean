import Mathlib.Logic.Relation
import Mathlib.Data.List.Basic
import Mathlib.Order.WellFounded

/-!
# Runs of a labelled transition relation

A run is listed as the labels taken together with the states they lead to.  What
holds along a run is stated with two predicates: `EveryState` for properties of
states and `Along` for properties of steps.  A run of `step` is itself a list
along which `step` holds, so that a run all of whose steps meet a condition is
one along which the conjunction holds.

## Main definitions

* `Along Q s es` — every step of `es`, started in `s`, satisfies `Q`.
* `EveryState P s es` — `P` holds in `s` and in every state entered.
* `Reachable step s t` — some run leads from `s` to `t`.
* `Path step s ls t` — a run given by its labels only.
* `Reachable.induction`, `everyState_of_along` — the invariant rules.
* `no_infinite_run` — the termination rule.
-/

namespace Transition

variable {S L : Type} {Q : S → L → S → Prop}

/-- Every step of the listed run satisfies `Q`. -/
def Along (Q : S → L → S → Prop) : S → List (L × S) → Prop
  | _, [] => True
  | s, (l, t) :: es => Q s l t ∧ Along Q t es

/-- Every state of the listed run satisfies `P`. -/
def EveryState (P : S → Prop) : S → List (L × S) → Prop
  | s, [] => P s
  | s, (_, t) :: es => P s ∧ EveryState P t es

instance decidableAlong [∀ s l t, Decidable (Q s l t)] :
    ∀ (s : S) (es : List (L × S)), Decidable (Along Q s es)
  | _, [] => isTrue trivial
  | s, (l, t) :: es =>
    have := decidableAlong t es
    inferInstanceAs (Decidable (Q s l t ∧ Along Q t es))

/-- The state in which the listed run ends. -/
def lastState : S → List (L × S) → S
  | s, [] => s
  | _, (_, t) :: es => lastState t es

/-- Some run of `step` leads from `s` to `t`. -/
def Reachable (step : S → L → S → Prop) : S → S → Prop :=
  Relation.ReflTransGen fun s t => ∃ l, step s l t

variable {step R : S → L → S → Prop} {P : S → Prop} {s t : S} {es es' : List (L × S)}

@[simp] theorem along_nil : Along Q s [] := trivial

@[simp] theorem along_cons {l : L} :
    Along Q s ((l, t) :: es) ↔ Q s l t ∧ Along Q t es := Iff.rfl

@[simp] theorem everyState_nil : EveryState P s ([] : List (L × S)) ↔ P s := Iff.rfl

@[simp] theorem everyState_cons {l : L} :
    EveryState P s ((l, t) :: es) ↔ P s ∧ EveryState P t es := Iff.rfl

theorem along_and :
    Along (fun s l t => Q s l t ∧ R s l t) s es ↔ Along Q s es ∧ Along R s es := by
  induction es generalizing s with
  | nil => simp
  | cons e es ih =>
      simp only [Along, ih]
      tauto

theorem Along.imp {R : S → L → S → Prop} (h : ∀ s l t, Q s l t → R s l t) (hq : Along Q s es) :
    Along R s es := by
  induction es generalizing s with
  | nil => trivial
  | cons e es ih => exact ⟨h _ _ _ hq.1, ih hq.2⟩

theorem EveryState.head (h : EveryState P s es) : P s := by
  cases es with
  | nil => exact h
  | cons e es => exact h.1

theorem EveryState.last (h : EveryState P s es) : P (lastState s es) := by
  induction es generalizing s with
  | nil => exact h
  | cons e es ih => exact ih h.2

theorem EveryState.imp {P' : S → Prop} (h : ∀ s, P s → P' s) (hp : EveryState P s es) :
    EveryState P' s es := by
  induction es generalizing s with
  | nil => exact h _ hp
  | cons e es ih => exact ⟨h _ hp.1, ih hp.2⟩

/-- **The invariant rule along a run.**  The steps may be those of a run that
meets a further condition. -/
theorem everyState_of_along (hs : P s) (hstep : ∀ s l t, P s → Q s l t → P t)
    (h : Along Q s es) : EveryState P s es := by
  induction es generalizing s with
  | nil => exact hs
  | cons e es ih => exact ⟨hs, ih (hstep _ _ _ hs h.1) h.2⟩

/-- What an invariant gives for each step of a run. -/
theorem along_of_everyState (hP : EveryState P s es) (h : Along Q s es)
    (hR : ∀ s l t, P s → P t → Q s l t → R s l t) : Along R s es := by
  induction es generalizing s with
  | nil => trivial
  | cons e es ih => exact ⟨hR _ _ _ hP.1 hP.2.head h.1, ih hP.2 h.2⟩

/-- Steps and states of a run speak about each other: when, in the states of an
invariant, a condition on a step and a property of the states after it imply one
another, the whole run meets the one exactly when it meets the other. -/
theorem along_iff_everyState {J : S → Prop} (hJ : J s)
    (hJstep : ∀ s l t, J s → step s l t → J t) (hs : P s)
    (hstep : ∀ s l t, J s → P s → step s l t → (Q s l t ↔ P t)) (h : Along step s es) :
    Along Q s es ↔ EveryState P s es := by
  induction es generalizing s with
  | nil => simpa using hs
  | cons e es ih =>
      have he := hstep _ _ _ hJ hs h.1
      have hJ' := hJstep _ _ _ hJ h.1
      constructor
      · intro hq
        have ht := he.mp hq.1
        exact ⟨hs, (ih hJ' ht h.2).mp hq.2⟩
      · intro hp
        exact ⟨he.mpr hp.2.head, (ih hJ' hp.2.head h.2).mpr hp.2⟩

namespace Reachable

theorem refl (s : S) : Reachable step s s := Relation.ReflTransGen.refl

theorem tail {l : L} {u : S} (h : Reachable step s t) (hl : step t l u) : Reachable step s u :=
  Relation.ReflTransGen.tail h ⟨l, hl⟩

theorem trans {u : S} (h : Reachable step s t) (h' : Reachable step t u) : Reachable step s u :=
  Relation.ReflTransGen.trans h h'

/-- **The invariant rule.** -/
theorem induction (hs : P s) (hstep : ∀ s l t, P s → step s l t → P t)
    (h : Reachable step s t) : P t := by
  induction h with
  | refl => exact hs
  | tail _ hl ih =>
      obtain ⟨l, hl⟩ := hl
      exact hstep _ _ _ ih hl

end Reachable

/-- The state a run ends in is reachable. -/
theorem reachable_lastState (h : Along step s es) : Reachable step s (lastState s es) := by
  induction es generalizing s with
  | nil => exact .refl s
  | cons e es ih => exact Relation.ReflTransGen.head ⟨e.1, h.1⟩ (ih h.2)

/-- **No run is infinite** when every step goes down in a well-founded order. -/
theorem no_infinite_run {α : Type} {r : α → α → Prop} [IsWellFounded α r] {m : S → α}
    (hm : ∀ s l t, step s l t → r (m t) (m s)) (f : ℕ → S) :
    ¬ ∀ n, ∃ l, step (f n) l (f (n + 1)) := by
  intro hrun
  obtain ⟨n, hn⟩ := WellFounded.not_rel_apply_succ (r := r) fun n => m (f n)
  obtain ⟨l, hl⟩ := hrun n
  exact hn (hm _ l _ hl)

/-! ## Runs that list their labels only -/

/-- A run of `step` from `s` to `t` with these labels. -/
inductive Path (step : S → L → S → Prop) : S → List L → S → Prop
  | nil (s : S) : Path step s [] s
  | cons {s t u : S} {l : L} {ls : List L} (h : step s l t) (hs : Path step t ls u) :
      Path step s (l :: ls) u

namespace Path

variable {l : L} {ls ls' : List L} {u : S}

@[simp] theorem nil_iff : Path step s [] t ↔ t = s := by
  constructor
  · intro h
    cases h
    rfl
  · intro h
    rw [h]
    exact .nil s

theorem cons_iff : Path step s (l :: ls) u ↔ ∃ t, step s l t ∧ Path step t ls u := by
  constructor
  · intro h
    cases h with
    | cons h hs => exact ⟨_, h, hs⟩
  · intro h
    obtain ⟨t, h, hs⟩ := h
    exact .cons h hs

theorem append_iff : Path step s (ls ++ ls') u ↔ ∃ t, Path step s ls t ∧ Path step t ls' u := by
  induction ls generalizing s with
  | nil => simp
  | cons l ls ih =>
      simp only [List.cons_append, cons_iff, ih]
      constructor
      · intro h
        obtain ⟨t, hl, v, hs, hs'⟩ := h
        exact ⟨v, ⟨t, hl, hs⟩, hs'⟩
      · intro h
        obtain ⟨v, ⟨t, hl, hs⟩, hs'⟩ := h
        exact ⟨t, hl, v, hs, hs'⟩

theorem append (h : Path step s ls t) (h' : Path step t ls' u) : Path step s (ls ++ ls') u :=
  append_iff.mpr ⟨t, h, h'⟩

theorem single (h : step s l t) : Path step s [l] t := .cons h (.nil t)

/-- Steps that stay in one state. -/
theorem of_forall (h : ∀ l ∈ ls, step s l s) : Path step s ls s := by
  induction ls with
  | nil => exact .nil s
  | cons l ls ih =>
      exact .cons (h l List.mem_cons_self) (ih fun l hl => h l (List.mem_cons_of_mem _ hl))

/-- The state before and after one label of a path. -/
theorem split (h : Path step s (ls ++ l :: ls') u) :
    ∃ t t', Path step s ls t ∧ step t l t' ∧ Path step t' ls' u := by
  obtain ⟨t, h₁, h₂⟩ := append_iff.mp h
  obtain ⟨t', h₂, h₃⟩ := cons_iff.mp h₂
  exact ⟨t, t', h₁, h₂, h₃⟩

/-- **The conservation rule.**  When each step passes on, in order, what was there and
what came in, so does a run.  An invariant may be used. -/
theorem conserve {β : Type} {J : S → Prop} {f : S → List β} {g k : L → List β} (hJ : J s)
    (hstep : ∀ s l t, J s → step s l t → J t ∧ f s ++ g l = k l ++ f t)
    (h : Path step s ls t) : f s ++ ls.flatMap g = ls.flatMap k ++ f t := by
  induction h with
  | nil s => simp
  | cons hl _ ih =>
      obtain ⟨hJ', hf⟩ := hstep _ _ _ hJ hl
      rw [List.flatMap_cons, List.flatMap_cons, ← List.append_assoc, hf, List.append_assoc, ih hJ',
        List.append_assoc]

/-- The conservation rule where the order does not matter. -/
theorem conserve_perm {β : Type} {f : S → List β} {g k : L → List β}
    (hstep : ∀ s l t, step s l t → (f s ++ g l).Perm (k l ++ f t))
    (h : Path step s ls t) : (f s ++ ls.flatMap g).Perm (ls.flatMap k ++ f t) := by
  induction h with
  | nil s => simp
  | cons hl _ ih =>
      rw [List.flatMap_cons, List.flatMap_cons, ← List.append_assoc, List.append_assoc (k _)]
      exact ((hstep _ _ _ hl).append_right _).trans (by simpa using ih.append_left _)

/-- **The invariant rule for labels.** -/
theorem forall_labels {J : S → Prop} {R : L → Prop} (hJ : J s)
    (hstep : ∀ s l t, J s → step s l t → J t ∧ R l) (h : Path step s ls t) : ∀ l ∈ ls, R l := by
  induction h with
  | nil s => exact fun l hl => absurd hl List.not_mem_nil
  | cons hl _ ih =>
      obtain ⟨hJ', hR⟩ := hstep _ _ _ hJ hl
      intro l' hl'
      rcases List.mem_cons.mp hl' with rfl | hl'
      · exact hR
      · exact ih hJ' l' hl'

theorem reachable (h : Path step s ls t) : Reachable step s t := by
  induction h with
  | nil s => exact .refl s
  | cons hl _ ih => exact Relation.ReflTransGen.head ⟨_, hl⟩ ih

end Path

end Transition
