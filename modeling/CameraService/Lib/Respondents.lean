import CameraService.Lib.Interaction

/-!
# Respondents

An environment that consists of several respondents.  Each call is put to one of them, who
answers by what he has been asked himself.  Then a run is determined, and whoever is put
questions to one respondent only does not notice what the others were asked.

## Main definitions

* `Answers` — the respondents.
* `Memory`, `Memory.after` — what each of them has been asked.
* `Answered` — a trace with their answers.
-/

namespace Interaction

variable {I : Interface} {σ α κ : Type} [DecidableEq κ]

/-- Each respondent's answers, by the events that he has seen. -/
def Answers (I : Interface) (κ : Type) : Type := κ → List (Event I) → (op : I.Op) → I.Ans op

/-- The events that each respondent has seen. -/
def Memory (I : Interface) (κ : Type) : Type := κ → List (Event I)

/-- Nobody was asked anything. -/
def Memory.blank : Memory I κ := fun _ => []

/-- The memories after a trace, `who` being asked. -/
def Memory.after (who : I.Op → κ) (m : Memory I κ) (tr : List (Event I)) : Memory I κ :=
  fun c => m c ++ tr.filter fun e => who e.op = c

/-- The trace has the answers of the respondents. -/
def Answered (f : Answers I κ) (who : I.Op → κ) : Memory I κ → List (Event I) → Prop
  | _, [] => True
  | m, e :: tr => e.ans = f (who e.op) (m (who e.op)) e.op ∧ Answered f who (m.after who [e]) tr

section Memory
variable {who : I.Op → κ} {m m' : Memory I κ} {tr t₁ t₂ : List (Event I)} {c : κ}

@[simp] theorem after_nil : m.after who [] = m := by
  funext c
  simp [Memory.after]

theorem after_append : m.after who (t₁ ++ t₂) = (m.after who t₁).after who t₂ := by
  funext c
  simp [Memory.after]

/-- Who is not asked learns nothing. -/
theorem after_of_ne (h : ∀ e ∈ tr, who e.op ≠ c) : m.after who tr c = m c := by
  have hnone : (tr.filter fun e => who e.op = c) = [] := by
    rw [List.filter_eq_nil_iff]
    simpa using h
  rw [Memory.after, hnone, List.append_nil]

end Memory

section Answered
variable {f : Answers I κ} {who : I.Op → κ} {m m' : Memory I κ} {tr t₁ t₂ : List (Event I)} {c : κ}

theorem answered_append : Answered f who m (t₁ ++ t₂) ↔
    Answered f who m t₁ ∧ Answered f who (m.after who t₁) t₂ := by
  induction t₁ generalizing m with
  | nil => simp [Answered]
  | cons e t₁ ih =>
      have hafter : m.after who ([e] ++ t₁) = (m.after who [e]).after who t₁ := after_append
      rw [List.singleton_append] at hafter
      simp only [List.cons_append, Answered, ih, hafter, and_assoc]

/-- Only the memory of who is asked counts. -/
theorem Answered.of_local (h : Answered f who m tr) (hc : ∀ e ∈ tr, who e.op = c)
    (hm : m' c = m c) : Answered f who m' tr := by
  induction tr generalizing m m' with
  | nil => trivial
  | cons e tr ih =>
      have he : who e.op = c := hc e (by simp)
      obtain ⟨hans, h⟩ := h
      refine ⟨?_, ih h (fun e' he' => hc e' (by simp [he'])) ?_⟩
      · rw [he] at hans ⊢
        rw [hm]
        exact hans
      · simp [Memory.after, hm]

/-- What all answers are like. -/
theorem Answered.all {R : Event I → Prop} (hR : ∀ m op, R ⟨op, f (who op) m op⟩)
    (h : Answered f who m tr) : ∀ e ∈ tr, R e := by
  induction tr generalizing m with
  | nil => simp
  | cons e tr ih =>
      obtain ⟨hans, h⟩ := h
      have he : R e := by
        have hevent : e = ⟨e.op, f (who e.op) (m (who e.op)) e.op⟩ := by rw [← hans]
        rw [hevent]
        exact hR _ _
      simpa using ⟨he, ih h⟩

theorem Node.exists_answered (f : Answers I κ) (who : I.Op → κ) (m : Memory I κ)
    (n : Node I σ α) : ∃ tr, Answered f who m tr ∧
      ((∃ s a, Steps n tr (.done s a)) ∨ ∃ e, Steps n tr (.fault e)) := by
  induction n generalizing m with
  | done s a => exact ⟨[], trivial, Or.inl ⟨s, a, .refl _⟩⟩
  | fault e => exact ⟨[], trivial, Or.inr ⟨e, .refl _⟩⟩
  | call s op k ih =>
      obtain ⟨tr, htr, hend⟩ := ih (f (who op) (m (who op)) op) s
        (m.after who [⟨op, f (who op) (m (who op)) op⟩])
      refine ⟨⟨op, f (who op) (m (who op)) op⟩ :: tr, ⟨rfl, htr⟩, ?_⟩
      rcases hend with ⟨s', a, hs⟩ | ⟨e, hs⟩
      · exact Or.inl ⟨s', a, .call hs⟩
      · exact Or.inr ⟨e, .call hs⟩

/-- **There is a run**, complete or to a fault, with the answers of the respondents. -/
theorem exists_answered (f : Answers I κ) (who : I.Op → κ) (m : Memory I κ) (p : Proc I σ α)
    (s : σ) : ∃ tr, Answered f who m tr ∧
      ((∃ s' a, Runs p s tr s' a) ∨ ∃ e, Faults p s tr e) :=
  (p s).exists_answered f who m

/-- There is a run in which every call gets its own answer. -/
theorem exists_each {R : Event I → Prop} (answer : (op : I.Op) → I.Ans op)
    (hR : ∀ op, R ⟨op, answer op⟩) (p : Proc I σ α) (s : σ) :
    ∃ tr, (∀ e ∈ tr, R e) ∧ ((∃ s' a, Runs p s tr s' a) ∨ ∃ e, Faults p s tr e) := by
  obtain ⟨tr, htr, hend⟩ :=
    exists_answered (fun (_ : Unit) _ op => answer op) (fun _ => ()) .blank p s
  exact ⟨tr, htr.all (fun _ op => hR op), hend⟩

theorem Steps.unique {n : Node I σ α} {s₁ s₂ : σ} {a₁ a₂ : α} (h₁ : Steps n t₁ (.done s₁ a₁))
    (h₂ : Steps n t₂ (.done s₂ a₂)) (ha₁ : Answered f who m t₁) (ha₂ : Answered f who m t₂) :
    t₁ = t₂ ∧ s₁ = s₂ ∧ a₁ = a₂ := by
  induction n generalizing m t₁ t₂ with
  | done s a =>
      obtain ⟨rfl, he⟩ := steps_done.mp h₁
      obtain ⟨rfl, he'⟩ := steps_done.mp h₂
      obtain ⟨rfl, rfl⟩ := Node.done.inj he
      obtain ⟨rfl, rfl⟩ := Node.done.inj he'
      exact ⟨rfl, rfl, rfl⟩
  | fault e =>
      cases (steps_fault.mp h₁).2
  | call s op k ih =>
      rcases steps_call.mp h₁ with ⟨-, hn⟩ | ⟨r₁, t₁', rfl, hs₁⟩
      · cases hn
      rcases steps_call.mp h₂ with ⟨-, hn⟩ | ⟨r₂, t₂', rfl, hs₂⟩
      · cases hn
      obtain ⟨hr₁, hrest₁⟩ := ha₁
      obtain ⟨hr₂, hrest₂⟩ := ha₂
      obtain rfl : r₁ = r₂ := hr₁.trans hr₂.symm
      obtain ⟨rfl, rfl, rfl⟩ := ih _ _ hs₁ hs₂ hrest₁ hrest₂
      exact ⟨rfl, rfl, rfl⟩

/-- **The answers determine the run.** -/
theorem Runs.unique {p : Proc I σ α} {s s₁ s₂ : σ} {a₁ a₂ : α} (h₁ : Runs p s t₁ s₁ a₁)
    (h₂ : Runs p s t₂ s₂ a₂) (ha₁ : Answered f who m t₁) (ha₂ : Answered f who m t₂) :
    t₁ = t₂ ∧ s₁ = s₂ ∧ a₁ = a₂ := Steps.unique h₁ h₂ ha₁ ha₂

end Answered

end Interaction
