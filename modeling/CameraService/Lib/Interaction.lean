import Mathlib.Tactic.Common

/-!
# Programs that call an environment and share a state

A `Proc` reads and writes a state and calls an environment.  At every call it
stores the state and, when the answer arrives, takes the state up again: between
the two somebody else may have changed it.  One program therefore has two
readings.  `Runs` is the sequential one, where nobody interferes; a scheduler
that resumes the stored continuation itself gives the concurrent one.

The answers of the environment are not determined by the program.  A statement
about every answer quantifies over the traces of `Runs`; `exec` replays one
choice of answers, so that a run can be computed.

## Main definitions

* `Interface` — operations, their answers, and the ways a program goes wrong.
* `Proc I σ α` — a program over the state `σ` with result `α`.
* `Runs`, `Faults` — complete runs, and runs that end in a fault.
* `Awaits` — runs that stand at a call.
* `Asks` — which calls a program makes.
* `Assures` — which calls it makes, and how it ends, while the answers are as expected.
* `Lens`, `Proc.zoom` — a program on a part of the state.
* `Frames` — a program that a change elsewhere does not affect.
* `Proc.exec` — the run under a given oracle.
-/

namespace Interaction

/-- What a program may ask its environment, and how it may go wrong. -/
structure Interface where
  /-- The operations of the environment. -/
  Op : Type
  /-- The answers to an operation. -/
  Ans : Op → Type
  /-- The ways in which a program ends abnormally. -/
  Fault : Type

variable {I : Interface} {σ τ α β : Type}

/-- A call together with the answer it received. -/
structure Event (I : Interface) where
  op : I.Op
  ans : I.Ans op

/-- A program stopped at its end, at a fault, or at a call whose answer is
outstanding.  The state stored there is the one the others see. -/
inductive Node (I : Interface) (σ α : Type) where
  | done (s : σ) (a : α)
  | fault (f : I.Fault)
  | call (s : σ) (op : I.Op) (k : I.Ans op → σ → Node I σ α)

/-- The state that a stopped program has stored. -/
def Node.stored : Node I σ α → Option σ
  | .done s _ => some s
  | .fault _ => none
  | .call s _ _ => some s

/-- INTERNAL: sequencing of a stopped program. -/
def Node.bind (n : Node I σ α) (f : α → σ → Node I σ β) : Node I σ β :=
  match n with
  | .done s a => f a s
  | .fault e => .fault e
  | .call s op k => .call s op fun r s' => (k r s').bind f

/-- A program over the state `σ`. -/
def Proc (I : Interface) (σ α : Type) : Type := σ → Node I σ α

instance : Monad (Proc I σ) where
  pure a := fun s => .done s a
  bind p f := fun s => (p s).bind f

theorem Node.bind_assoc {γ : Type} (n : Node I σ α) (f : α → σ → Node I σ β)
    (g : β → σ → Node I σ γ) : (n.bind f).bind g = n.bind fun a s => (f a s).bind g := by
  induction n with
  | done s a => rfl
  | fault e => rfl
  | call s op k ih => simp only [Node.bind, ih]

/-- INTERNAL: rewriting a result by the identity. -/
theorem Node.bind_done (n : Node I σ α) : (n.bind fun a s => .done s a) = n := by
  induction n with
  | done s a => rfl
  | fault e => rfl
  | call s op k ih => simp only [Node.bind, ih]

instance : LawfulMonad (Proc I σ) :=
  LawfulMonad.mk' (Proc I σ)
    (by intro α p; funext s; exact (p s).bind_done)
    (by intro α β a f; rfl)
    (by intro α β γ p f g; funext s; exact (p s).bind_assoc _ _)

namespace Proc

/-- Read the state. -/
def get : Proc I σ σ := fun s => .done s s

/-- Change the state. -/
def modify (f : σ → σ) : Proc I σ Unit := fun s => .done (f s) ()

/-- Call the environment and take its answer. -/
def call (op : I.Op) : Proc I σ (I.Ans op) := fun s => .call s op fun r s' => .done s' r

/-- End abnormally. -/
def fault (f : I.Fault) : Proc I σ α := fun _ => .fault f

/-- Go on only if `c` holds. -/
def require (c : Prop) [Decidable c] (f : I.Fault) : Proc I σ Unit :=
  if c then pure () else fault f

end Proc

/-! ## Sequential runs -/

/-- `Steps n tr m`: answering the calls of `n` as in `tr`, each time with the
state it stored, leads to `m`. -/
inductive Steps : Node I σ α → List (Event I) → Node I σ α → Prop
  | refl (n : Node I σ α) : Steps n [] n
  | call {s : σ} {op : I.Op} {k : I.Ans op → σ → Node I σ α} {r : I.Ans op}
      {tr : List (Event I)} {m : Node I σ α} (h : Steps (k r s) tr m) :
      Steps (.call s op k) (⟨op, r⟩ :: tr) m

/-- A complete run of `p` from `s`: its calls and answers, last state and result. -/
def Runs (p : Proc I σ α) (s : σ) (tr : List (Event I)) (s' : σ) (a : α) : Prop :=
  Steps (p s) tr (.done s' a)

/-- A run of `p` from `s` that ends in the fault `f`. -/
def Faults (p : Proc I σ α) (s : σ) (tr : List (Event I)) (f : I.Fault) : Prop :=
  Steps (p s) tr (.fault f)

@[simp] theorem steps_done {s : σ} {a : α} {tr : List (Event I)} {m : Node I σ α} :
    Steps (.done s a) tr m ↔ tr = [] ∧ m = .done s a := by
  constructor
  · intro h; cases h; exact ⟨rfl, rfl⟩
  · rintro ⟨rfl, rfl⟩; exact .refl _

@[simp] theorem steps_fault {f : I.Fault} {tr : List (Event I)} {m : Node I σ α} :
    Steps (.fault f) tr m ↔ tr = [] ∧ m = .fault f := by
  constructor
  · intro h; cases h; exact ⟨rfl, rfl⟩
  · rintro ⟨rfl, rfl⟩; exact .refl _

/-- A stopped call either stays stopped or is answered. -/
theorem steps_call {s : σ} {op : I.Op} {k : I.Ans op → σ → Node I σ α}
    {tr : List (Event I)} {m : Node I σ α} :
    Steps (.call s op k) tr m ↔
      (tr = [] ∧ m = .call s op k) ∨ ∃ r tr', tr = ⟨op, r⟩ :: tr' ∧ Steps (k r s) tr' m := by
  constructor
  · intro h
    cases h with
    | refl => exact Or.inl ⟨rfl, rfl⟩
    | call h => exact Or.inr ⟨_, _, rfl, h⟩
  · rintro (⟨rfl, rfl⟩ | ⟨r, tr', rfl, h⟩)
    · exact .refl _
    · exact .call h

theorem Steps.trans {n m l : Node I σ α} {t₁ t₂ : List (Event I)}
    (h₁ : Steps n t₁ m) (h₂ : Steps m t₂ l) : Steps n (t₁ ++ t₂) l := by
  induction h₁ with
  | refl => exact h₂
  | call _ ih => exact .call (ih h₂)

/-- Answering one more call extends the trace at its end. -/
theorem Steps.snoc {n : Node I σ α} {t : List (Event I)} {s : σ} {op : I.Op}
    {k : I.Ans op → σ → Node I σ α} (h : Steps n t (.call s op k)) (r : I.Ans op) :
    Steps n (t ++ [⟨op, r⟩]) (k r s) :=
  h.trans (.call (.refl _))

/-- A sequence stops inside its first part, or after it inside the second. -/
theorem steps_bind {n : Node I σ α} {f : α → σ → Node I σ β} {tr : List (Event I)}
    {m : Node I σ β} : Steps (n.bind f) tr m ↔
      (∃ n', Steps n tr n' ∧ m = n'.bind f) ∨
      ∃ t₁ s a t₂, tr = t₁ ++ t₂ ∧ Steps n t₁ (.done s a) ∧ Steps (f a s) t₂ m := by
  induction n generalizing tr with
  | done s a =>
      simp only [Node.bind, steps_done]
      constructor
      · intro h
        exact Or.inr ⟨[], s, a, tr, rfl, ⟨rfl, rfl⟩, h⟩
      · rintro (⟨n', ⟨rfl, rfl⟩, rfl⟩ | ⟨t₁, s', a', t₂, rfl, ⟨rfl, he⟩, h⟩)
        · exact .refl _
        · cases he; exact h
  | fault e =>
      simp only [Node.bind, steps_fault]
      constructor
      · rintro ⟨rfl, rfl⟩
        exact Or.inl ⟨.fault e, ⟨rfl, rfl⟩, rfl⟩
      · rintro (⟨n', ⟨rfl, rfl⟩, rfl⟩ | ⟨t₁, s', a', t₂, rfl, ⟨rfl, he⟩, h⟩)
        · exact ⟨rfl, rfl⟩
        · cases he
  | call s op k ih =>
      simp only [Node.bind, steps_call]
      constructor
      · rintro (⟨rfl, rfl⟩ | ⟨r, tr', rfl, h⟩)
        · exact Or.inl ⟨.call s op k, Or.inl ⟨rfl, rfl⟩, rfl⟩
        · rcases (ih r s).mp h with ⟨n', hn, rfl⟩ | ⟨t₁, s', a, t₂, rfl, h₁, h₂⟩
          · exact Or.inl ⟨n', Or.inr ⟨r, tr', rfl, hn⟩, rfl⟩
          · exact Or.inr ⟨⟨op, r⟩ :: t₁, s', a, t₂, rfl, Or.inr ⟨r, t₁, rfl, h₁⟩, h₂⟩
      · rintro (⟨n', (⟨rfl, rfl⟩ | ⟨r, tr', rfl, hn⟩), rfl⟩ |
          ⟨t₁, s', a, t₂, rfl, (⟨rfl, he⟩ | ⟨r, t', rfl, h₁⟩), h₂⟩)
        · exact Or.inl ⟨rfl, rfl⟩
        · exact Or.inr ⟨r, tr', rfl, (ih r s).mpr (Or.inl ⟨n', hn, rfl⟩)⟩
        · cases he
        · exact Or.inr ⟨r, t' ++ t₂, rfl, (ih r s).mpr (Or.inr ⟨t', s', a, t₂, rfl, h₁, h₂⟩)⟩

section Rules
variable {s s' : σ} {tr : List (Event I)} {b : β}

/-- **The rule of sequencing.** -/
theorem runs_bind {p : Proc I σ α} {f : α → Proc I σ β} :
    Runs (p >>= f) s tr s' b ↔
      ∃ t₁ s₁ a t₂, tr = t₁ ++ t₂ ∧ Runs p s t₁ s₁ a ∧ Runs (f a) s₁ t₂ s' b := by
  refine steps_bind.trans ⟨?_, Or.inr⟩
  rintro (⟨n', hn, he⟩ | h)
  · cases n' with
    | done s₁ a => exact ⟨tr, s₁, a, [], by simp, hn, by rw [Runs]; exact he ▸ .refl _⟩
    | fault e => cases he
    | call s₁ op k => cases he
  · exact h

/-- A fault of a sequence comes from its first part, or after it from the second. -/
theorem faults_bind {p : Proc I σ α} {f : α → Proc I σ β} {e : I.Fault} :
    Faults (p >>= f) s tr e ↔ Faults p s tr e ∨
      ∃ t₁ s₁ a t₂, tr = t₁ ++ t₂ ∧ Runs p s t₁ s₁ a ∧ Faults (f a) s₁ t₂ e := by
  refine steps_bind.trans ⟨?_, ?_⟩
  · rintro (⟨n', hn, he⟩ | h)
    · cases n' with
      | done s₁ a => exact Or.inr ⟨tr, s₁, a, [], by simp, hn, by rw [Faults]; exact he ▸ .refl _⟩
      | fault e' => cases he; exact Or.inl hn
      | call s₁ op k => cases he
    · exact Or.inr h
  · rintro (h | h)
    · exact Or.inl ⟨_, h, rfl⟩
    · exact Or.inr h

@[simp] theorem runs_pure {a a' : α} {s s' : σ} {tr : List (Event I)} :
    Runs (pure a) s tr s' a' ↔ tr = [] ∧ s' = s ∧ a' = a := by
  simp only [Runs, pure, steps_done, Node.done.injEq]

@[simp] theorem runs_get_bind {f : σ → Proc I σ β} :
    Runs (Proc.get >>= f) s tr s' b ↔ Runs (f s) s tr s' b := Iff.rfl

@[simp] theorem runs_modify_bind {g : σ → σ} {f : Unit → Proc I σ β} :
    Runs (Proc.modify g >>= f) s tr s' b ↔ Runs (f ()) (g s) tr s' b := Iff.rfl

@[simp] theorem runs_modify {g : σ → σ} {s s' : σ} {tr : List (Event I)} :
    Runs (Proc.modify g) s tr s' () ↔ tr = [] ∧ s' = g s := by
  simp only [Runs, Proc.modify, steps_done, Node.done.injEq, and_true]

@[simp] theorem runs_fault {f : I.Fault} : ¬ Runs (Proc.fault f) s tr s' b := by
  simp [Runs, Proc.fault]

@[simp] theorem runs_fault_bind {f : I.Fault} {g : α → Proc I σ β} :
    ¬ Runs (Proc.fault f >>= g) s tr s' b := by
  simp [runs_bind]

@[simp] theorem runs_call {op : I.Op} {r : I.Ans op} :
    @Runs I σ (no_index (I.Ans op)) (Proc.call op) s tr s' r ↔ tr = [⟨op, r⟩] ∧ s' = s := by
  simp only [Runs, Proc.call, steps_call, steps_done, Node.done.injEq]
  constructor
  · rintro (⟨_, he⟩ | ⟨r', tr', rfl, rfl, rfl, rfl⟩)
    · cases he
    · exact ⟨rfl, rfl⟩
  · rintro ⟨rfl, rfl⟩
    exact Or.inr ⟨r, [], rfl, rfl, rfl, rfl⟩

/-- A call, then the rest with the answer.  The type of the answer is no part of
the pattern, since it computes. -/
@[simp] theorem runs_call_bind {op : I.Op} {f : I.Ans op → Proc I σ β} :
    Runs (@bind (Proc I σ) _ (no_index (I.Ans op)) β (Proc.call op) f) s tr s' b ↔
      ∃ r tr', tr = ⟨op, r⟩ :: tr' ∧ Runs (f r) s tr' s' b := by
  simp only [runs_bind, runs_call]
  constructor
  · rintro ⟨t₁, s₁, r, t₂, rfl, ⟨rfl, rfl⟩, h⟩
    exact ⟨r, t₂, rfl, h⟩
  · rintro ⟨r, tr', rfl, h⟩
    exact ⟨[⟨op, r⟩], s, r, tr', rfl, ⟨rfl, rfl⟩, h⟩

/-- A result that is only rewritten. -/
@[simp] theorem runs_map {p : Proc I σ α} {g : α → β} :
    Runs (g <$> p) s tr s' b ↔ ∃ a, Runs p s tr s' a ∧ b = g a := by
  rw [map_eq_pure_bind, runs_bind]
  constructor
  · intro h
    obtain ⟨t₁, s₁, a, t₂, rfl, h, hp⟩ := h
    obtain ⟨rfl, rfl, rfl⟩ := runs_pure.mp hp
    exact ⟨a, by simpa using h, rfl⟩
  · intro h
    obtain ⟨a, h, rfl⟩ := h
    exact ⟨tr, s', a, [], by simp, h, runs_pure.mpr ⟨rfl, rfl, rfl⟩⟩

theorem runs_bind_pure {p : Proc I σ α} {g : α → β} :
    Runs (p >>= fun a => pure (g a)) s tr s' b ↔ ∃ a, Runs p s tr s' a ∧ b = g a := by
  rw [bind_pure_comp, runs_map]

@[simp] theorem runs_require_bind {c : Prop} [Decidable c] {f : I.Fault}
    {g : Unit → Proc I σ β} :
    Runs (Proc.require c f >>= g) s tr s' b ↔ c ∧ Runs (g ()) s tr s' b := by
  by_cases h : c
  · simp only [Proc.require, h, true_and]; rfl
  · simp [Proc.require, h]

@[simp] theorem faults_pure {a : α} {e : I.Fault} : ¬ Faults (pure a) s tr e := by
  simp [Faults, pure]

@[simp] theorem faults_get_bind {f : σ → Proc I σ β} {e : I.Fault} :
    Faults (Proc.get >>= f) s tr e ↔ Faults (f s) s tr e := Iff.rfl

@[simp] theorem faults_modify_bind {g : σ → σ} {f : Unit → Proc I σ β} {e : I.Fault} :
    Faults (Proc.modify g >>= f) s tr e ↔ Faults (f ()) (g s) tr e := Iff.rfl

@[simp] theorem faults_modify {g : σ → σ} {e : I.Fault} : ¬ Faults (Proc.modify g) s tr e := by
  simp [Faults, Proc.modify]

@[simp] theorem faults_fault {f e : I.Fault} :
    Faults (Proc.fault f : Proc I σ β) s tr e ↔ tr = [] ∧ e = f := by
  simp only [Faults, Proc.fault, steps_fault, Node.fault.injEq]

@[simp] theorem faults_fault_bind {f e : I.Fault} {g : α → Proc I σ β} :
    Faults (Proc.fault f >>= g) s tr e ↔ tr = [] ∧ e = f := by
  simp [faults_bind]

@[simp] theorem faults_call {op : I.Op} {e : I.Fault} :
    ¬ @Faults I σ (no_index (I.Ans op)) (Proc.call op) s tr e := by
  simp [Faults, Proc.call, steps_call]

@[simp] theorem faults_call_bind {op : I.Op} {f : I.Ans op → Proc I σ β} {e : I.Fault} :
    Faults (@bind (Proc I σ) _ (no_index (I.Ans op)) β (Proc.call op) f) s tr e ↔
      ∃ r tr', tr = ⟨op, r⟩ :: tr' ∧ Faults (f r) s tr' e := by
  simp only [faults_bind, faults_call, false_or, runs_call]
  constructor
  · rintro ⟨t₁, s₁, r, t₂, rfl, ⟨rfl, rfl⟩, h⟩
    exact ⟨r, t₂, rfl, h⟩
  · rintro ⟨r, tr', rfl, h⟩
    exact ⟨[⟨op, r⟩], s, r, tr', rfl, ⟨rfl, rfl⟩, h⟩

@[simp] theorem faults_map {p : Proc I σ α} {g : α → β} {e : I.Fault} :
    Faults (g <$> p) s tr e ↔ Faults p s tr e := by
  rw [map_eq_pure_bind, faults_bind]
  simp

@[simp] theorem faults_require_bind {c : Prop} [Decidable c] {f e : I.Fault}
    {g : Unit → Proc I σ β} :
    Faults (Proc.require c f >>= g) s tr e ↔
      (¬ c ∧ tr = [] ∧ e = f) ∨ (c ∧ Faults (g ()) s tr e) := by
  by_cases h : c
  · simp only [Proc.require, h, true_and, not_true_eq_false, false_and, false_or]; rfl
  · simp [Proc.require, h]

end Rules

/-! ## Outstanding calls -/

/-- Run from `s` with the answers in `tr`, the program stands at the call `op`, having
stored the state `s'`. -/
def Awaits (p : Proc I σ α) (s : σ) (tr : List (Event I)) (s' : σ) (op : I.Op) : Prop :=
  ∃ k, Steps (p s) tr (.call s' op k)

section Awaits
variable {s s' : σ} {tr : List (Event I)} {op : I.Op}

@[simp] theorem awaits_pure {a : α} : ¬ Awaits (pure a) s tr s' op := by
  simp [Awaits, pure]

@[simp] theorem awaits_fault {f : I.Fault} : ¬ Awaits (Proc.fault f : Proc I σ α) s tr s' op := by
  simp [Awaits, Proc.fault]

/-- A sequence stands at a call of its first part, or after it at one of the second. -/
theorem awaits_bind {p : Proc I σ α} {f : α → Proc I σ β} :
    Awaits (p >>= f) s tr s' op ↔ Awaits p s tr s' op ∨
      ∃ t₁ s₁ a t₂, tr = t₁ ++ t₂ ∧ Runs p s t₁ s₁ a ∧ Awaits (f a) s₁ t₂ s' op := by
  constructor
  · intro h
    obtain ⟨k, h⟩ := h
    rcases steps_bind.mp h with ⟨n', hn, he⟩ | ⟨t₁, s₁, a, t₂, rfl, h₁, h₂⟩
    · cases n' with
      | done s₁ a => exact Or.inr ⟨tr, s₁, a, [], by simp, hn, k, he ▸ .refl _⟩
      | fault e => cases he
      | call s₁ op' k' => cases he; exact Or.inl ⟨k', hn⟩
    · exact Or.inr ⟨t₁, s₁, a, t₂, rfl, h₁, k, h₂⟩
  · intro h
    rcases h with ⟨k, h⟩ | ⟨t₁, s₁, a, t₂, rfl, h₁, k, h₂⟩
    · exact ⟨_, steps_bind.mpr (Or.inl ⟨_, h, rfl⟩)⟩
    · exact ⟨k, steps_bind.mpr (Or.inr ⟨t₁, s₁, a, t₂, rfl, h₁, h₂⟩)⟩

@[simp] theorem awaits_fault_bind {f : I.Fault} {g : α → Proc I σ β} :
    ¬ Awaits (Proc.fault f >>= g) s tr s' op := by
  simp [awaits_bind]

@[simp] theorem awaits_get_bind {f : σ → Proc I σ β} :
    Awaits (Proc.get >>= f) s tr s' op ↔ Awaits (f s) s tr s' op := Iff.rfl

@[simp] theorem awaits_modify_bind {g : σ → σ} {f : Unit → Proc I σ β} :
    Awaits (Proc.modify g >>= f) s tr s' op ↔ Awaits (f ()) (g s) tr s' op := Iff.rfl

@[simp] theorem awaits_modify {g : σ → σ} : ¬ Awaits (Proc.modify g) s tr s' op := by
  simp [Awaits, Proc.modify]

@[simp] theorem awaits_call {op' : I.Op} :
    @Awaits I σ (no_index (I.Ans op')) (Proc.call op') s tr s' op ↔
      tr = [] ∧ s' = s ∧ op = op' := by
  simp only [Awaits, Proc.call, steps_call, steps_done]
  constructor
  · intro h
    obtain ⟨k, ⟨rfl, he⟩ | ⟨r, tr', -, -, he⟩⟩ := h
    · cases he
      exact ⟨rfl, rfl, rfl⟩
    · cases he
  · rintro ⟨rfl, rfl, rfl⟩
    exact ⟨_, Or.inl ⟨rfl, rfl⟩⟩

/-- A sequence that begins with a call stands at it, or goes on with its answer. -/
@[simp] theorem awaits_call_bind {op' : I.Op} {f : I.Ans op' → Proc I σ β} :
    Awaits (@bind (Proc I σ) _ (no_index (I.Ans op')) β (Proc.call op') f) s tr s' op ↔
      (tr = [] ∧ s' = s ∧ op = op') ∨
        ∃ r tr', tr = ⟨op', r⟩ :: tr' ∧ Awaits (f r) s tr' s' op := by
  simp only [awaits_bind, awaits_call, runs_call]
  refine or_congr Iff.rfl ⟨?_, ?_⟩
  · rintro ⟨t₁, s₁, r, t₂, rfl, ⟨rfl, rfl⟩, h⟩
    exact ⟨r, t₂, rfl, h⟩
  · rintro ⟨r, tr', rfl, h⟩
    exact ⟨[⟨op', r⟩], s, r, tr', rfl, ⟨rfl, rfl⟩, h⟩

@[simp] theorem awaits_require_bind {c : Prop} [Decidable c] {f : I.Fault}
    {g : Unit → Proc I σ β} :
    Awaits (Proc.require c f >>= g) s tr s' op ↔ c ∧ Awaits (g ()) s tr s' op := by
  by_cases h : c
  · simp only [Proc.require, h, true_and]; rfl
  · simp [Proc.require, h, awaits_bind]

end Awaits

/-! ## Which calls a program makes -/

/-- Every call that the program stands at is one that `Q` allows. -/
def Asks (Q : I.Op → Prop) (p : Proc I σ α) : Prop :=
  ∀ s tr s' op, Awaits p s tr s' op → Q op

/-- Each call of a run was awaited, after the calls before it. -/
theorem Steps.awaited {n m : Node I σ α} {tr : List (Event I)} (h : Steps n tr m) {i : ℕ}
    {e : Event I} (he : tr[i]? = some e) : ∃ s k, Steps n (tr.take i) (.call s e.op k) := by
  induction h generalizing i with
  | refl n => cases he
  | @call s op k r tr m _ ih =>
      cases i with
      | zero =>
          cases he
          exact ⟨s, k, .refl _⟩
      | succ i =>
          obtain ⟨s', k', h⟩ := ih he
          exact ⟨s', k', .call h⟩

theorem Runs.awaits {p : Proc I σ α} {s s' : σ} {tr : List (Event I)} {a : α}
    (h : Runs p s tr s' a) {i : ℕ} {e : Event I} (he : tr[i]? = some e) :
    ∃ s₁, Awaits p s (tr.take i) s₁ e.op := h.awaited he

section Asks
variable {Q : I.Op → Prop}

/-- The calls of a complete run. -/
theorem Asks.run {p : Proc I σ α} {s s' : σ} {tr : List (Event I)} {a : α} (hp : Asks Q p)
    (h : Runs p s tr s' a) : ∀ e ∈ tr, Q e.op := by
  intro e he
  obtain ⟨i, hi⟩ := List.mem_iff_getElem?.mp he
  obtain ⟨s₁, ha⟩ := h.awaits hi
  exact hp _ _ _ _ ha

theorem Asks.imp {R : I.Op → Prop} {p : Proc I σ α} (h : Asks Q p) (hQR : ∀ op, Q op → R op) :
    Asks R p := by
  intro s tr s' op ha
  exact hQR _ (h s tr s' op ha)

theorem asks_pure {a : α} : Asks Q (pure a : Proc I σ α) := by
  intro s tr s' op h
  exact absurd h awaits_pure

theorem asks_get : Asks Q (Proc.get : Proc I σ σ) := by
  intro s tr s' op h
  simp [Awaits, Proc.get] at h

theorem asks_modify {f : σ → σ} : Asks Q (Proc.modify f : Proc I σ Unit) := by
  intro s tr s' op h
  exact absurd h awaits_modify

theorem asks_fault {f : I.Fault} : Asks Q (Proc.fault f : Proc I σ α) := by
  intro s tr s' op h
  exact absurd h awaits_fault

theorem asks_call {op : I.Op} (h : Q op) : Asks Q (Proc.call op : Proc I σ (I.Ans op)) := by
  intro s tr s' op' ha
  obtain ⟨-, -, rfl⟩ := awaits_call.mp ha
  exact h

theorem Asks.bind {p : Proc I σ α} {f : α → Proc I σ β} (hp : Asks Q p)
    (hf : ∀ a, Asks Q (f a)) : Asks Q (p >>= f) := by
  intro s tr s' op h
  rcases awaits_bind.mp h with h | ⟨t₁, s₁, a, t₂, -, -, h⟩
  · exact hp _ _ _ _ h
  · exact hf _ _ _ _ _ h

end Asks

/-! ## Assumptions on the answers -/

/-- While the answers are as in `R`, the calls of complete runs are as in `Q`, and so are
their ends as in `post`. -/
def Assures (R : Event I → Prop) (Q : I.Op → Prop) (p : Proc I σ α) (s : σ)
    (post : σ → α → Prop) : Prop :=
  ∀ tr s' a, Runs p s tr s' a → (∀ e ∈ tr, R e) → (∀ e ∈ tr, Q e.op) ∧ post s' a

section Assures
variable {R : Event I → Prop} {Q : I.Op → Prop} {s : σ} {post : σ → β → Prop}

theorem assures_pure {a : β} (h : post s a) : Assures R Q (pure a) s post := by
  intro tr s' a' hr _
  obtain ⟨rfl, rfl, rfl⟩ := runs_pure.mp hr
  exact ⟨by simp, h⟩

theorem assures_get_bind {f : σ → Proc I σ β} (h : Assures R Q (f s) s post) :
    Assures R Q (Proc.get >>= f) s post := by
  intro tr s' a hr
  exact h tr s' a (runs_get_bind.mp hr)

theorem assures_modify_bind {g : σ → σ} {f : Unit → Proc I σ β}
    (h : Assures R Q (f ()) (g s) post) : Assures R Q (Proc.modify g >>= f) s post := by
  intro tr s' a hr
  exact h tr s' a (runs_modify_bind.mp hr)

theorem assures_require_bind {c : Prop} [Decidable c] {e : I.Fault} {f : Unit → Proc I σ β}
    (h : c → Assures R Q (f ()) s post) : Assures R Q (Proc.require c e >>= f) s post := by
  intro tr s' a hr
  obtain ⟨hc, hf⟩ := runs_require_bind.mp hr
  exact h hc tr s' a hf

theorem assures_call_bind {op : I.Op} {f : I.Ans op → Proc I σ β} (hop : Q op)
    (h : ∀ r, R ⟨op, r⟩ → Assures R Q (f r) s post) : Assures R Q (Proc.call op >>= f) s post := by
  intro tr s' a hr hR
  obtain ⟨r, t, rfl, hr₁⟩ := runs_call_bind.mp hr
  obtain ⟨hQ, hpost⟩ := h r (hR _ (by simp)) t s' a hr₁ fun e he => hR e (by simp [he])
  exact ⟨by simpa using ⟨hop, hQ⟩, hpost⟩

theorem assures_call {op : I.Op} {post : σ → I.Ans op → Prop} (hop : Q op)
    (h : ∀ r, R ⟨op, r⟩ → post s r) : Assures R Q (Proc.call op) s post := by
  intro tr s' r hr hR
  obtain ⟨rfl, rfl⟩ := runs_call.mp hr
  exact ⟨by simpa using hop, h r (hR _ (by simp))⟩

theorem Assures.bind {p : Proc I σ α} {f : α → Proc I σ β} {mid : σ → α → Prop}
    (hp : Assures R Q p s mid) (hf : ∀ s₁ a, mid s₁ a → Assures R Q (f a) s₁ post) :
    Assures R Q (p >>= f) s post := by
  intro tr s' b hr hR
  obtain ⟨t₁, s₁, a, t₂, rfl, h₁, h₂⟩ := runs_bind.mp hr
  obtain ⟨hQ₁, hmid⟩ := hp t₁ s₁ a h₁ fun e he => hR e (List.mem_append_left _ he)
  obtain ⟨hQ₂, hpost⟩ := hf s₁ a hmid t₂ s' b h₂ fun e he => hR e (List.mem_append_right _ he)
  refine ⟨fun e he => ?_, hpost⟩
  rcases List.mem_append.mp he with he | he
  · exact hQ₁ e he
  · exact hQ₂ e he

/-- Which calls are made, and what a run leaves, may be known on other grounds. -/
theorem Asks.assures {p : Proc I σ β} (hp : Asks Q p)
    (h : ∀ tr s' a, Runs p s tr s' a → post s' a) : Assures R Q p s post :=
  fun tr s' a hr _ => ⟨hp.run hr, h tr s' a hr⟩

end Assures

/-! ## Programs on a part of the state -/

/-- A part `τ` of a state `σ`. -/
structure Lens (σ τ : Type) where
  /-- Read the part. -/
  get : σ → τ
  /-- Replace the part. -/
  set : τ → σ → σ
  /-- What was stored is read back. -/
  get_set : ∀ t s, get (set t s) = t
  /-- Only the last write counts. -/
  set_set : ∀ t t' s, set t (set t' s) = set t s
  /-- Writing back what is there changes nothing. -/
  set_get : ∀ s, set (get s) s = s

/-- INTERNAL: run a stopped program on the part of a state that surrounds it. -/
def Node.zoom (L : Lens σ τ) (s : σ) : Node I τ α → Node I σ α
  | .done t a => .done (L.set t s) a
  | .fault f => .fault f
  | .call t op k => .call (L.set t s) op fun r s' => (k r (L.get s')).zoom L s'

/-- Run a program on a part of the state. -/
def Proc.zoom (L : Lens σ τ) (p : Proc I τ α) : Proc I σ α := fun s => (p (L.get s)).zoom L s

/-- A zoomed program stops where the program on the part stops. -/
theorem steps_zoom {L : Lens σ τ} {s : σ} {n : Node I τ α} {tr : List (Event I)}
    {m : Node I σ α} :
    Steps (n.zoom L s) tr m ↔ ∃ m', Steps n tr m' ∧ m = m'.zoom L s := by
  induction n generalizing tr with
  | done t a => simp [Node.zoom, and_assoc]
  | fault f => simp [Node.zoom, and_assoc]
  | call t op k ih =>
      -- the part read back at a resumption is the one stored at the call
      have hk : ∀ r, (k r (L.get (L.set t s))).zoom L (L.set t s) = (k r t).zoom L s := by
        intro r
        rw [L.get_set]
        cases k r t <;> simp only [Node.zoom, L.set_set]
      simp only [Node.zoom, steps_call, hk, ih]
      constructor
      · rintro (⟨rfl, rfl⟩ | ⟨r, tr', rfl, m', h, rfl⟩)
        · exact ⟨.call t op k, Or.inl ⟨rfl, rfl⟩, by simp [Node.zoom]⟩
        · exact ⟨m', Or.inr ⟨r, tr', rfl, h⟩, rfl⟩
      · rintro ⟨m', (⟨rfl, rfl⟩ | ⟨r, tr', rfl, h⟩), rfl⟩
        · exact Or.inl ⟨rfl, by simp [Node.zoom]⟩
        · exact Or.inr ⟨r, tr', rfl, m', h, rfl⟩

section Zoom
variable {L : Lens σ τ} {p : Proc I τ α} {s s' : σ} {tr : List (Event I)} {a : α}

/-- **The rule of zooming**: a run on a part changes that part and nothing else. -/
@[simp] theorem runs_zoom :
    Runs (p.zoom L) s tr s' a ↔ ∃ t, Runs p (L.get s) tr t a ∧ s' = L.set t s := by
  simp only [Runs, Proc.zoom, steps_zoom]
  constructor
  · rintro ⟨m', h, he⟩
    cases m' with
    | done t a' =>
        simp only [Node.zoom, Node.done.injEq] at he
        exact ⟨t, he.2 ▸ h, he.1⟩
    | fault f => cases he
    | call t op k => cases he
  · rintro ⟨t, h, rfl⟩
    exact ⟨.done t a, h, rfl⟩

@[simp] theorem faults_zoom {f : I.Fault} :
    Faults (p.zoom L) s tr f ↔ Faults p (L.get s) tr f := by
  simp only [Faults, Proc.zoom, steps_zoom]
  constructor
  · rintro ⟨m', h, he⟩
    cases m' with
    | done t a' => cases he
    | fault f' => cases he; exact h
    | call t op k => cases he
  · intro h
    exact ⟨.fault f, h, rfl⟩

/-- What is stored at a call is the whole state with the part as it is there. -/
@[simp] theorem awaits_zoom {op : I.Op} :
    Awaits (p.zoom L) s tr s' op ↔ ∃ t, Awaits p (L.get s) tr t op ∧ s' = L.set t s := by
  simp only [Awaits, Proc.zoom, steps_zoom]
  constructor
  · rintro ⟨k, m', h, he⟩
    cases m' with
    | done t a' => cases he
    | fault f => cases he
    | call t op' k' => cases he; exact ⟨t, ⟨k', h⟩, rfl⟩
  · rintro ⟨t, ⟨k, h⟩, rfl⟩
    exact ⟨_, _, h, rfl⟩

theorem Asks.zoom {Q : I.Op → Prop} (h : Asks Q p) : Asks Q (p.zoom L) := by
  intro s tr s' op ha
  obtain ⟨t, ha, -⟩ := awaits_zoom.mp ha
  exact h _ _ _ _ ha

end Zoom

/-! ## Changes elsewhere -/

/-- The program goes the same way when the state is changed by `f` beforehand, and the
change is still there afterwards. -/
def Frames (f : σ → σ) (p : Proc I σ α) (s : σ) : Prop :=
  ∀ tr s' a, Runs p s tr s' a → Runs p (f s) tr (f s') a

section Frames
variable {f : σ → σ} {s : σ}

theorem frames_pure {a : α} : Frames f (pure a : Proc I σ α) s := by
  intro tr s' b h
  obtain ⟨rfl, rfl, rfl⟩ := runs_pure.mp h
  exact runs_pure.mpr ⟨rfl, rfl, rfl⟩

theorem frames_call {op : I.Op} : Frames f (Proc.call op : Proc I σ (I.Ans op)) s := by
  intro tr s' r h
  obtain ⟨rfl, rfl⟩ := runs_call.mp h
  exact runs_call.mpr ⟨rfl, rfl⟩

/-- What is done with the state that was read may depend on unchanged parts only. -/
theorem frames_get_bind {k : σ → Proc I σ α} (hk : k (f s) = k s) (h : Frames f (k s) s) :
    Frames f (Proc.get >>= k) s := by
  intro tr s' a hr
  rw [runs_get_bind] at hr ⊢
  rw [hk]
  exact h tr s' a hr

theorem frames_modify {g : σ → σ} (hg : f (g s) = g (f s)) :
    Frames f (Proc.modify g : Proc I σ Unit) s := by
  intro tr s' a h
  obtain ⟨rfl, rfl⟩ := runs_modify.mp h
  exact runs_modify.mpr ⟨rfl, hg⟩

theorem Frames.bind {p : Proc I σ α} {k : α → Proc I σ β} (hp : Frames f p s)
    (hk : ∀ tr s' a, Runs p s tr s' a → Frames f (k a) s') : Frames f (p >>= k) s := by
  intro tr s' b h
  rw [runs_bind] at h
  obtain ⟨t₁, s₁, a, t₂, rfl, h₁, h₂⟩ := h
  exact runs_bind.mpr ⟨t₁, f s₁, a, t₂, rfl, hp _ _ _ h₁, hk _ _ _ h₁ _ _ _ h₂⟩

/-- A program on one part is not affected by a change of the rest. -/
theorem frames_zoom {L : Lens σ τ} {p : Proc I τ α} (hget : L.get (f s) = L.get s)
    (hset : ∀ t, f (L.set t s) = L.set t (f s)) : Frames f (p.zoom L) s := by
  intro tr s' a h
  obtain ⟨t, ht, rfl⟩ := runs_zoom.mp h
  exact runs_zoom.mpr ⟨t, by rwa [hget], hset t⟩

end Frames

/-! ## Execution -/

/-- One choice of answers: the answer to the `n`-th call of a run. -/
def Oracle (I : Interface) : Type := ℕ → (op : I.Op) → I.Ans op

/-- INTERNAL: run a stopped program, its next call being the `n`-th one. -/
def Node.exec (o : Oracle I) : ℕ → Node I σ α → List (Event I) × Except I.Fault (σ × α)
  | _, .done s a => ([], .ok (s, a))
  | _, .fault f => ([], .error f)
  | n, .call s op k =>
      let rest := (k (o n op) s).exec o (n + 1)
      (⟨op, o n op⟩ :: rest.1, rest.2)

/-- Run a program under an oracle. -/
def Proc.exec (o : Oracle I) (p : Proc I σ α) (s : σ) :
    List (Event I) × Except I.Fault (σ × α) := (p s).exec o 0

theorem Node.steps_of_exec {o : Oracle I} {n : Node I σ α} {i : ℕ} {s : σ} {a : α}
    (h : (n.exec o i).2 = .ok (s, a)) : Steps n (n.exec o i).1 (.done s a) := by
  induction n generalizing i with
  | done s' a' => simp only [exec, Except.ok.injEq, Prod.mk.injEq] at h; simp [exec, h]
  | fault f => simp [exec] at h
  | call s' op k ih => exact .call (ih _ _ h)

/-- An execution is one of the runs. -/
theorem runs_of_exec {o : Oracle I} {p : Proc I σ α} {s s' : σ} {tr : List (Event I)} {a : α}
    (h : p.exec o s = (tr, .ok (s', a))) : Runs p s tr s' a := by
  have hs : Steps (p s) ((p s).exec o 0).1 (.done s' a) := Node.steps_of_exec (by
    rw [show (p s).exec o 0 = (tr, .ok (s', a)) from h])
  rwa [show (p s).exec o 0 = (tr, .ok (s', a)) from h] at hs

theorem Node.steps_of_exec_error {o : Oracle I} {n : Node I σ α} {i : ℕ} {f : I.Fault}
    (h : (n.exec o i).2 = .error f) : Steps n (n.exec o i).1 (.fault f) := by
  induction n generalizing i with
  | done s a => simp [exec] at h
  | fault e => simp only [exec, Except.error.injEq] at h; simp [exec, h]
  | call s op k ih => exact .call (ih _ _ h)

/-- The calls were answered by the oracle. -/
def Oracle.Gives (o : Oracle I) (tr : List (Event I)) : Prop :=
  ∀ i e, tr[i]? = some e → e.ans = o i e.op

theorem Node.gives_exec {o : Oracle I} {n : Node I σ α} {i j : ℕ} {e : Event I}
    (h : (n.exec o i).1[j]? = some e) : e.ans = o (i + j) e.op := by
  induction n generalizing i j with
  | done s a => simp [exec] at h
  | fault f => simp [exec] at h
  | call s op k ih =>
      cases j with
      | zero =>
          obtain rfl : ⟨op, o i op⟩ = e := by simpa [exec] using h
          rfl
      | succ j =>
          have hrest := ih _ _ (i := i + 1) (j := j) (by simpa [exec] using h)
          rwa [Nat.add_assoc, Nat.add_comm 1 j] at hrest

/-- **A program comes to an end**, or to a fault, whatever the answers. -/
theorem runs_or_faults (o : Oracle I) (p : Proc I σ α) (s : σ) :
    ∃ tr, o.Gives tr ∧ ((∃ s' a, Runs p s tr s' a) ∨ ∃ f, Faults p s tr f) := by
  refine ⟨((p s).exec o 0).1, fun i e he => ?_, ?_⟩
  · simpa using Node.gives_exec he
  · cases h : ((p s).exec o 0).2 with
    | ok r => exact Or.inl ⟨r.1, r.2, Node.steps_of_exec h⟩
    | error f => exact Or.inr ⟨f, Node.steps_of_exec_error h⟩

end Interaction
