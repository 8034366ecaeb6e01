import CameraService.Lib.Interaction
import CameraService.Lib.Pool
import Mathlib.Algebra.Order.BigOperators.Group.List
import Mathlib.Algebra.Order.Ring.Nat

/-!
# Threads that lock mutexes

A program with mutexes makes calls to lock and to unlock, besides those of its interface.
Each of these is a step of its own, and so is every point where it says that the others may
run.  A thread runs one program after the other, as its control points tell.

When every program locks mutexes in the order of their ranks, and keeps none, there is no
deadlock: the ranks increase along the graph of who waits for whom.

## Main definitions

* `locking` — the interface of programs with mutexes.
* `lock`, `unlock`, `yield`, `guarded`, `Proc.lift` — their calls.
* `bases`, `runs_of_lift`, `runs_of_guarded` — a program that runs alone.
* `Ordered`, `Disciplined` — a program locks in the order of the ranks.
* `Task`, `lockAct` — the threads and their steps.
* `WaitsFor` — the wait-for graph.
* `acyclic_of_orderly`, `progress_of_orderly` — there is no deadlock.
-/

namespace Interaction

/-- The calls of a program with the mutexes `M`. -/
inductive LockOp (I : Interface) (M : Type)
  | base (op : I.Op)
  | lock (m : M)
  | unlock (m : M)
  /-- The others may run. -/
  | yield

/-- The answers. -/
abbrev LockOp.Ans {I : Interface} {M : Type} : LockOp I M → Type
  | .base op => I.Ans op
  | .lock _ | .unlock _ | .yield => Unit

/-- The interface of programs with the mutexes `M`. -/
abbrev locking (I : Interface) (M : Type) : Interface := ⟨LockOp I M, LockOp.Ans, I.Fault⟩

variable {I : Interface} {M σ C α β : Type}

/-! ## Programs -/

/-- `lock()`. -/
def lock (m : M) : Proc (locking I M) σ Unit := Proc.call (I := locking I M) (.lock m)

/-- `unlock()`. -/
def unlock (m : M) : Proc (locking I M) σ Unit := Proc.call (I := locking I M) (.unlock m)

/-- A point where the others may run. -/
def yield : Proc (locking I M) σ Unit := Proc.call (I := locking I M) .yield

/-- A program under a `lock_guard`. -/
def guarded (m : M) (p : Proc (locking I M) σ α) : Proc (locking I M) σ α := do
  lock m
  let a ← p
  unlock m
  pure a

/-- INTERNAL: a stopped program that uses no mutex. -/
def Node.lift : Node I σ α → Node (locking I M) σ α
  | .done s a => .done s a
  | .fault f => .fault f
  | .call s op k => .call s (.base op) fun r s' => (k r s').lift

/-- A program that uses no mutex. -/
def Proc.lift (p : Proc I σ α) : Proc (locking I M) σ α := fun s => (p s).lift

/-! ## Runs of one program alone -/

section Alone
variable {s s' : σ} {a : α} {tr : List (Event (locking I M))}

/-- The calls of the interface in a trace. -/
def bases (tr : List (Event (locking I M))) : List (Event I) :=
  tr.filterMap fun e => match e with
    | ⟨.base op, r⟩ => some ⟨op, r⟩
    | _ => none

@[simp] theorem bases_append (t₁ t₂ : List (Event (locking I M))) :
    bases (t₁ ++ t₂) = bases t₁ ++ bases t₂ := List.filterMap_append

theorem Node.steps_lift {n : Node I σ α} (h : Steps (n.lift (M := M)) tr (.done s a)) :
    Steps n (bases tr) (.done s a) := by
  induction n generalizing tr with
  | done s₁ a₁ =>
      obtain ⟨rfl, he⟩ := steps_done.mp h
      cases he
      exact .refl _
  | fault f => cases (steps_fault.mp h).2
  | call s₁ op k ih =>
      rcases steps_call.mp h with ⟨-, hn⟩ | ⟨r, t, rfl, hs⟩
      · cases hn
      · exact .call (ih r s₁ hs)

/-- A program that uses no mutex runs as before. -/
theorem runs_of_lift {p : Proc I σ α} (h : Runs (p.lift (M := M)) s tr s' a) :
    Runs p s (bases tr) s' a := Node.steps_lift h

/-- Locks do not matter to a program that runs alone. -/
theorem runs_of_guarded {m : M} {p : Proc (locking I M) σ α} (h : Runs (guarded m p) s tr s' a) :
    ∃ t, Runs p s t s' a ∧ bases t = bases tr := by
  obtain ⟨-, t₁, rfl, h₁⟩ := runs_call_bind.mp h
  obtain ⟨t₂, s₂, b, t₃, rfl, h₂, h₃⟩ := runs_bind.mp h₁
  obtain ⟨-, t₄, rfl, h₄⟩ := runs_call_bind.mp h₃
  obtain ⟨rfl, rfl, rfl⟩ := runs_pure.mp h₄
  exact ⟨t₂, h₂, by simp [bases]⟩

end Alone

/-! ## The order of the mutexes -/

section Ordered
variable [DecidableEq M] {rank : M → ℕ}

/-- The program, stopped with the mutexes of the first list in its hands, locks others in
the order of the ranks only, unlocks only what it has, and ends with those of the second. -/
inductive Ordered (rank : M → ℕ) (H' : List M) : List M → Node (locking I M) σ α → Prop
  | done {s : σ} {a : α} : Ordered rank H' H' (.done s a)
  | fault {H : List M} {f : I.Fault} : Ordered rank H' H (.fault f)
  | base {H : List M} {s : σ} {op : I.Op} {k : I.Ans op → σ → Node (locking I M) σ α}
      (h : ∀ r s', Ordered rank H' H (k r s')) : Ordered rank H' H (.call s (.base op) k)
  | lock {H : List M} {s : σ} {m : M} {k : Unit → σ → Node (locking I M) σ α}
      (hm : ∀ m' ∈ H, rank m' < rank m) (h : ∀ s', Ordered rank H' (m :: H) (k () s')) :
      Ordered rank H' H (.call s (.lock m) k)
  | unlock {H : List M} {s : σ} {m : M} {k : Unit → σ → Node (locking I M) σ α}
      (hm : m ∈ H) (h : ∀ s', Ordered rank H' (H.erase m) (k () s')) :
      Ordered rank H' H (.call s (.unlock m) k)
  | yield {H : List M} {s : σ} {k : Unit → σ → Node (locking I M) σ α}
      (h : ∀ s', Ordered rank H' H (k () s')) : Ordered rank H' H (.call s .yield k)

theorem Ordered.bind {H H₁ H₂ : List M} {n : Node (locking I M) σ α}
    {f : α → σ → Node (locking I M) σ β} (hn : Ordered rank H₁ H n)
    (hf : ∀ a s, Ordered rank H₂ H₁ (f a s)) : Ordered rank H₂ H (n.bind f) := by
  induction hn with
  | done => exact hf _ _
  | fault => exact .fault
  | base _ ih => exact .base ih
  | lock hm _ ih => exact .lock hm ih
  | unlock hm _ ih => exact .unlock hm ih
  | yield _ ih => exact .yield ih

theorem ordered_lift {H : List M} (n : Node I σ α) : Ordered rank H H (n.lift (M := M)) := by
  induction n with
  | done s a => exact .done
  | fault f => exact .fault
  | call s op k ih => exact .base ih

/-- The program locks in the order of the ranks, and takes the mutexes in its hands from the
first list to the second. -/
def Disciplined (rank : M → ℕ) (H : List M) (p : Proc (locking I M) σ α) (H' : List M) : Prop :=
  ∀ s, Ordered rank H' H (p s)

variable {H H' H₁ : List M}

theorem disciplined_pure {a : α} : Disciplined rank H (pure a : Proc (locking I M) σ α) H :=
  fun _ => .done

theorem disciplined_get : Disciplined rank H (Proc.get : Proc (locking I M) σ σ) H :=
  fun _ => .done

theorem disciplined_modify {f : σ → σ} :
    Disciplined rank H (Proc.modify f : Proc (locking I M) σ Unit) H :=
  fun _ => .done

theorem disciplined_lift (p : Proc I σ α) : Disciplined rank H (p.lift (M := M)) H :=
  fun s => ordered_lift (p s)

theorem disciplined_yield : Disciplined rank H (yield : Proc (locking I M) σ Unit) H :=
  fun _ => .yield fun _ => .done

theorem Disciplined.bind {p : Proc (locking I M) σ α} {f : α → Proc (locking I M) σ β}
    (hp : Disciplined rank H p H₁) (hf : ∀ a, Disciplined rank H₁ (f a) H') :
    Disciplined rank H (p >>= f) H' :=
  fun s => (hp s).bind fun a s' => hf a s'

/-- **A guarded program** gives back what it has locked. -/
theorem Disciplined.guarded {m : M} {p : Proc (locking I M) σ α} (hm : ∀ m' ∈ H, rank m' < rank m)
    (hp : Disciplined rank (m :: H) p (m :: H)) : Disciplined rank H (guarded m p) H := by
  have hlock : Disciplined rank H (lock m : Proc (locking I M) σ Unit) (m :: H) :=
    fun _ => .lock hm fun _ => .done
  have hunlock : Disciplined rank (m :: H) (unlock m : Proc (locking I M) σ Unit) H := by
    refine fun _ => .unlock List.mem_cons_self fun _ => ?_
    rw [List.erase_cons_head]
    exact .done
  exact hlock.bind fun _ => hp.bind fun _ => hunlock.bind fun _ => disciplined_pure

end Ordered

/-! ## Threads -/

/-- Where a thread is: between two programs, at a call, or at the fault that has ended it.
`C` are the control points. -/
inductive Code (I : Interface) (M σ C : Type)
  | at (pc : C)
  | inside (s : σ) (op : LockOp I M) (k : op.Ans → σ → Node (locking I M) σ C)
  | faulted (f : I.Fault)

/-- A thread, with the mutexes that it holds. -/
structure Task (I : Interface) (M σ C : Type) where
  held : List M
  code : Code I M σ C

namespace Task

/-- The mutex that the thread is about to lock. -/
def requests (t : Task I M σ C) : Option M :=
  match t.code with
  | .inside _ (.lock m) _ => some m
  | _ => none

/-- The thread has ended at a fault. -/
def Faulted (t : Task I M σ C) : Prop := ∃ f, t.code = .faulted f

/-- The thread has something left to do. -/
def Unfinished (finished : C → Bool) (t : Task I M σ C) : Prop :=
  match t.code with
  | .at pc => finished pc = false
  | .inside _ _ _ => True
  | .faulted _ => False

end Task

/-- The thread and the shared state when its program has come to `n`; `s` is the state
before. -/
def settle (H : List M) (s : σ) : Node (locking I M) σ C → σ × Task I M σ C
  | .done s' pc => (s', ⟨H, .at pc⟩)
  | .fault f => (s, ⟨H, .faulted f⟩)
  | .call s' op k => (s', ⟨H, .inside s' op k⟩)

section Steps
variable [DecidableEq M]

/-- The steps of a thread amid the others `os`.  A mutex that somebody holds cannot be
locked. -/
inductive Moves (prog : C → Proc (locking I M) σ C) (finished : C → Bool)
    (os : List (Task I M σ C)) (s : σ) : Task I M σ C → Option (Event I) → σ × Task I M σ C → Prop
  | enter {H : List M} {pc : C} (hpc : finished pc = false) :
      Moves prog finished os s ⟨H, .at pc⟩ none (settle H s (prog pc s))
  | answer {H : List M} {s₀ : σ} {op : I.Op} {k : I.Ans op → σ → Node (locking I M) σ C}
      (r : I.Ans op) :
      Moves prog finished os s ⟨H, .inside s₀ (.base op) k⟩ (some ⟨op, r⟩) (settle H s (k r s))
  | lock {H : List M} {s₀ : σ} {m : M} {k : Unit → σ → Node (locking I M) σ C}
      (hfree : ∀ u ∈ os, m ∉ u.held) (hm : m ∉ H) :
      Moves prog finished os s ⟨H, .inside s₀ (.lock m) k⟩ none (settle (m :: H) s (k () s))
  | unlock {H : List M} {s₀ : σ} {m : M} {k : Unit → σ → Node (locking I M) σ C} :
      Moves prog finished os s ⟨H, .inside s₀ (.unlock m) k⟩ none (settle (H.erase m) s (k () s))
  | yield {H : List M} {s₀ : σ} {k : Unit → σ → Node (locking I M) σ C} :
      Moves prog finished os s ⟨H, .inside s₀ .yield k⟩ none (settle H s (k () s))

/-- The steps of the threads.  A fault of one ends all. -/
def lockAct (prog : C → Proc (locking I M) σ C) (finished : C → Bool) :
    Pool.Action σ (Task I M σ C) (Option (Event I)) :=
  fun os s t l s' t' => (∀ u ∈ os, ¬ u.Faulted) ∧ Moves prog finished os s t l (s', t')

/-- The threads at their first control points. -/
def launch (s : σ) (pcs : List C) : Pool σ (Task I M σ C) := ⟨s, pcs.map fun pc => ⟨[], .at pc⟩⟩

/-! ## There is no deadlock -/

/-- The thread `i` is about to lock a mutex that the thread `j` holds. -/
def WaitsFor (p : Pool σ (Task I M σ C)) (i j : ℕ) : Prop :=
  ∃ t u m, p.threads[i]? = some t ∧ p.threads[j]? = some u ∧ t.requests = some m ∧ m ∈ u.held

variable {rank : M → ℕ} {prog : C → Proc (locking I M) σ C} {finished : C → Bool}
  {p : Pool σ (Task I M σ C)} {s : σ} {t : Task I M σ C}

/-- The thread goes on in the order of the ranks, and ends with no mutex. -/
def Task.Orderly (rank : M → ℕ) (t : Task I M σ C) : Prop :=
  match t.code with
  | .at _ => t.held = []
  | .inside s op k => Ordered rank [] t.held (.call s op k)
  | .faulted _ => True

theorem orderly_settle {H : List M} {n : Node (locking I M) σ C} (h : Ordered rank [] H n) :
    (settle H s n).2.Orderly rank := by
  cases n with
  | done s' pc =>
      cases h
      exact rfl
  | fault f => trivial
  | call s' op k => exact h

theorem Moves.orderly {os : List (Task I M σ C)} {l : Option (Event I)} {x : σ × Task I M σ C}
    (hprog : ∀ pc, Disciplined rank [] (prog pc) []) (h : Moves prog finished os s t l x)
    (ht : t.Orderly rank) : x.2.Orderly rank := by
  cases h with
  | enter hpc =>
      obtain rfl : _ = [] := ht
      exact orderly_settle (hprog _ s)
  | answer r =>
      cases ht with
      | base h => exact orderly_settle (h r s)
  | lock hfree hm =>
      cases ht with
      | lock _ h => exact orderly_settle (h s)
  | unlock =>
      cases ht with
      | unlock _ h => exact orderly_settle (h s)
  | yield =>
      cases ht with
      | yield h => exact orderly_settle (h s)

/-- Every thread goes on in the order of the ranks. -/
def orderly (rank : M → ℕ) : Outline σ (Task I M σ C) where
  inv := fun _ => True
  own := fun _ t => t.Orderly rank
  apart := fun _ _ => True
  symm := fun _ _ _ => trivial

theorem orderly_preserves (hprog : ∀ pc, Disciplined rank [] (prog pc) []) :
    (orderly rank).Preserves (lockAct prog finished) :=
  fun _ _ _ _ _ _ h _ ht hos => ⟨trivial, h.2.orderly hprog ht, fun u hu => ⟨(hos u hu).1, trivial⟩⟩

/-- **The threads go on in the order of the ranks** when their programs do. -/
theorem orderly_of_reachable (hprog : ∀ pc, Disciplined rank [] (prog pc) []) {pcs : List C}
    (hr : Transition.Reachable (Pool.Step (lockAct prog finished)) (launch s pcs) p) :
    ∀ t ∈ p.threads, t.Orderly rank := by
  refine (Outline.holds_of_reachable (orderly_preserves hprog) ⟨trivial, ?_, ?_⟩ hr).own
  · intro t ht
    obtain ⟨pc, -, rfl⟩ := List.mem_map.mp ht
    exact rfl
  · exact fun _ _ _ _ _ _ _ => trivial

/-- A thread holds mutexes below the one it is about to lock. -/
theorem rank_lt_of_requests {m m' : M} (ht : t.Orderly rank) (hm : t.requests = some m)
    (hm' : m' ∈ t.held) : rank m' < rank m := by
  obtain ⟨H, code⟩ := t
  cases code with
  | inside s op k =>
      cases op with
      | lock m₁ =>
          obtain rfl := Option.some.inj hm
          cases ht with
          | lock h _ => exact h m' hm'
      | _ => cases hm
  | _ => cases hm

/-- The ranks increase along the graph. -/
theorem rank_le_of_waitsFor {i j : ℕ} (hp : ∀ t ∈ p.threads, t.Orderly rank)
    (h : Relation.TransGen (WaitsFor p) i j) : ∃ t u m m', p.threads[i]? = some t ∧
      p.threads[j]? = some u ∧ t.requests = some m ∧ m' ∈ u.held ∧ rank m ≤ rank m' := by
  induction h with
  | single h =>
      obtain ⟨t, u, m, hi, hj, hm, hheld⟩ := h
      exact ⟨t, u, m, m, hi, hj, hm, hheld, Nat.le_refl _⟩
  | tail _ h ih =>
      obtain ⟨t, u, m, m', hi, hj, hm, hheld, hle⟩ := ih
      obtain ⟨u', v, m₁, hj', hk, hm₁, hheld₁⟩ := h
      rw [hj] at hj'
      obtain rfl := Option.some.inj hj'
      have hlt := rank_lt_of_requests (hp u (List.mem_of_getElem? hj)) hm₁ hheld
      exact ⟨t, v, m, m₁, hi, hk, hm, hheld₁, by omega⟩

/-- **The wait-for graph has no cycle.** -/
theorem acyclic_of_orderly (hp : ∀ t ∈ p.threads, t.Orderly rank) (i : ℕ) :
    ¬ Relation.TransGen (WaitsFor p) i i := by
  intro h
  obtain ⟨t, u, m, m', hi, hi', hm, hheld, hle⟩ := rank_le_of_waitsFor hp h
  rw [hi] at hi'
  obtain rfl := Option.some.inj hi'
  have hlt := rank_lt_of_requests (hp t (List.mem_of_getElem? hi)) hm hheld
  omega

/-- A thread can go on unless somebody holds the mutex it is about to lock. -/
theorem exists_moves {os : List (Task I M σ C)} (hans : ∀ op, Nonempty (I.Ans op))
    (hu : t.Unfinished finished)
    (hfree : ∀ m, t.requests = some m → (∀ u ∈ os, m ∉ u.held) ∧ m ∉ t.held) :
    ∃ l x, Moves prog finished os s t l x := by
  obtain ⟨H, code⟩ := t
  cases code with
  | «at» pc => exact ⟨_, _, .enter hu⟩
  | inside s₀ op k =>
      cases op with
      | base op =>
          obtain ⟨r⟩ := hans op
          exact ⟨_, _, .answer r⟩
      | lock m => exact ⟨_, _, .lock (hfree m rfl).1 (hfree m rfl).2⟩
      | unlock m => exact ⟨_, _, .unlock⟩
      | yield => exact ⟨_, _, .yield⟩
  | faulted f => exact hu.elim

/-- A thread that holds a mutex has something left to do. -/
theorem unfinished_of_held {m : M} (ht : t.Orderly rank) (hlive : ¬ t.Faulted) (hm : m ∈ t.held) :
    t.Unfinished finished := by
  obtain ⟨H, code⟩ := t
  cases code with
  | «at» pc =>
      obtain rfl : H = [] := ht
      cases hm
  | inside s op k => trivial
  | faulted f => exact absurd ⟨f, rfl⟩ hlive

/-- **Somebody can go on**, as long as something is left to do. -/
theorem progress_of_orderly (hans : ∀ op, Nonempty (I.Ans op))
    (hp : ∀ t ∈ p.threads, t.Orderly rank) (hlive : ∀ t ∈ p.threads, ¬ t.Faulted)
    (ht : t ∈ p.threads) (hu : t.Unfinished finished) :
    ∃ l p', Pool.Step (lockAct prog finished) p l p' := by
  by_contra hno
  have hblocked : ∀ t ∈ p.threads, t.Unfinished finished →
      ∃ m, t.requests = some m ∧ ∃ u ∈ p.threads, m ∈ u.held := by
    intro t ht hu
    obtain ⟨i, hi⟩ := List.mem_iff_getElem?.mp ht
    by_contra hfree
    refine hno ?_
    have hothers : ∀ u ∈ p.threads.eraseIdx i, u ∈ p.threads :=
      fun u hu => List.mem_of_mem_eraseIdx hu
    obtain ⟨l, x, hmoves⟩ : ∃ l x, Moves prog finished (p.threads.eraseIdx i) p.shared t l x := by
      refine exists_moves hans hu fun m hm => ⟨fun u hu hheld => ?_, fun hheld => ?_⟩
      · exact hfree ⟨m, hm, u, hothers u hu, hheld⟩
      · exact hfree ⟨m, hm, t, ht, hheld⟩
    exact ⟨_, _, .mk hi ⟨fun u hu => hlive u (hothers u hu), hmoves⟩⟩
  -- from a blocked thread to another one, which is about to lock a higher mutex
  have hclimb : ∀ n, ∃ t ∈ p.threads, t.Unfinished finished ∧
      ∃ m, t.requests = some m ∧ n ≤ rank m := by
    intro n
    induction n with
    | zero =>
        obtain ⟨m, hm, -⟩ := hblocked t ht hu
        exact ⟨t, ht, hu, m, hm, Nat.zero_le _⟩
    | succ n ih =>
        obtain ⟨t, ht, hu, m, hm, hle⟩ := ih
        obtain ⟨m₁, hm₁, u, hu', hheld⟩ := hblocked t ht hu
        obtain rfl : m = m₁ := Option.some.inj (hm.symm.trans hm₁)
        have hunfinished : u.Unfinished finished :=
          unfinished_of_held (hp u hu') (hlive u hu') hheld
        obtain ⟨m₂, hm₂, -⟩ := hblocked u hu' hunfinished
        have hlt := rank_lt_of_requests (hp u hu') hm₂ hheld
        exact ⟨u, hu', hunfinished, m₂, hm₂, by omega⟩
  -- but the threads are finitely many
  obtain ⟨u, hu', -, m, hm, hle⟩ :=
    hclimb ((p.threads.map fun t => (t.requests.map rank).getD 0).sum + 1)
  have hmem : rank m ∈ p.threads.map fun t => (t.requests.map rank).getD 0 :=
    List.mem_map.mpr ⟨u, hu', by rw [hm]; rfl⟩
  have hsum := List.single_le_sum (fun x _ => Nat.zero_le x) _ hmem
  omega

end Steps

end Interaction
