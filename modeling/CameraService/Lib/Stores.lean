import Mathlib.Data.List.TakeWhile
import Mathlib.Logic.Function.Basic
import Mathlib.Tactic.Common

/-!
# Stores with an early exit

A program that stores values one after the other and stops at the first that cannot be had.
What it has stored by then stays.  A program on a record of values is one on a map from keys,
seen through the record's fields.

## Main definitions

* `mapState`, `onField` — a program on a part of the state.
* `Simulates` — the same program seen through a map of states.
* `store`, `storeAll` — the stores.
* `reached`, `settled` — the keys that are reached, and what is left.
-/

namespace Stores

variable {ε σ τ ρ α β κ ν : Type}

/-! ## Programs on a part of the state -/

/-- An outcome with its state mapped. -/
def mapState (f : σ → τ) : EStateM.Result ε σ α → EStateM.Result ε τ α
  | .ok a s => .ok a (f s)
  | .error e s => .error e (f s)

theorem mapState_mapState (f : σ → τ) (g : τ → ρ) (r : EStateM.Result ε σ α) :
    mapState g (mapState f r) = mapState (fun s => g (f s)) r := by
  cases r <;> rfl

/-- A program on a field of the state. -/
def onField (get : σ → τ) (set : τ → σ → σ) (x : EStateM ε τ α) : EStateM ε σ α :=
  fun s => mapState (fun t => set t s) (x.run (get s))

/-- A computation that stops as a whole stops at its first part, or at its second. -/
theorem ofExcept_bind (x : Except ε α) (f : α → Except ε β) :
    (ofExcept (x >>= f) : EStateM ε σ β) = ofExcept x >>= fun a => ofExcept (f a) := by
  cases x <;> rfl

/-- A computation that returns has returned at each of its parts. -/
theorem bind_eq_ok {x : Except ε α} {f : α → Except ε β} {b : β} :
    x >>= f = .ok b ↔ ∃ a, x = .ok a ∧ f a = .ok b := by
  cases x with
  | error e =>
      constructor
      · intro h
        cases h
      · rintro ⟨a, h, -⟩
        cases h
  | ok a =>
      constructor
      · intro h
        exact ⟨a, rfl, h⟩
      · rintro ⟨a', ha, h⟩
        rw [Except.ok.inj ha]
        exact h

/-- `x` does to a state what `y` does to its image. -/
def Simulates (f : σ → τ) (x : EStateM ε σ α) (y : EStateM ε τ α) : Prop :=
  ∀ s, mapState f (x.run s) = y.run (f s)

section Simulates
variable {f : σ → τ} {x : EStateM ε σ α} {y : EStateM ε τ α}

theorem Simulates.pure (a : α) : Simulates f (pure a : EStateM ε σ α) (pure a) := fun _ => rfl

/-- **Programs are simulated in sequence.** -/
theorem Simulates.bind {p : α → EStateM ε σ β} {q : α → EStateM ε τ β} (h : Simulates f x y)
    (hpq : ∀ a, Simulates f (p a) (q a)) : Simulates f (x >>= p) (y >>= q) := by
  intro s
  rw [EStateM.run_bind, EStateM.run_bind, ← h s]
  cases hx : x.run s with
  | ok a t => exact hpq a t
  | error e t => rfl

/-- **A program on a field** is simulated when it is, whatever the other fields are. -/
theorem Simulates.onField {get : ρ → σ} {set : σ → ρ → ρ} {f : ρ → τ}
    (hset : ∀ r, set (get r) r = r) (h : ∀ r, Simulates (fun s => f (set s r)) x y) :
    Simulates f (onField get set x) y := by
  intro r
  have hr := h r (get r)
  simp only [hset r] at hr
  rw [← hr]
  exact mapState_mapState _ _ _

end Simulates

/-! ## Stores -/

/-- Store the value of a key.  A key without a value keeps what it has. -/
def store [DecidableEq κ] (fetch : κ → Except ε (Option ν)) (k : κ) :
    EStateM ε (κ → ν) PUnit := do
  match ← ofExcept (fetch k) with
  | some v => modify fun s => Function.update s k v
  | none => pure ()

/-- Store the values of keys, in order. -/
def storeAll [DecidableEq κ] (fetch : κ → Except ε (Option ν)) :
    List κ → EStateM ε (κ → ν) PUnit
  | [] => pure ()
  | k :: ks => do
      store fetch k
      storeAll fetch ks

/-- The keys before the first that cannot be had. -/
def reached (fetch : κ → Except ε (Option ν)) (ks : List κ) : List κ :=
  ks.takeWhile fun k => (fetch k).isOk

/-- The values that are left. -/
def settled [DecidableEq κ] (fetch : κ → Except ε (Option ν)) (ks : List κ) (s : κ → ν) : κ → ν :=
  fun k =>
    if k ∈ reached fetch ks then
      match fetch k with
      | .ok (some v) => v
      | _ => s k
    else s k

section Stores
variable {fetch : κ → Except ε (Option ν)} {ks : List κ} {k : κ} {s : κ → ν}

theorem reached_cons_error {e : ε} (h : fetch k = .error e) : reached fetch (k :: ks) = [] := by
  rw [reached, List.takeWhile_cons_of_neg (by simp [h, Except.isOk, Except.toBool])]

theorem reached_cons_ok {o : Option ν} (h : fetch k = .ok o) :
    reached fetch (k :: ks) = k :: reached fetch ks := by
  rw [reached, List.takeWhile_cons_of_pos (by rw [h]; rfl)]
  rfl

variable [DecidableEq κ]

theorem settled_cons_error {e : ε} (h : fetch k = .error e) : settled fetch (k :: ks) s = s := by
  funext j
  rw [settled, reached_cons_error h]
  simp

theorem settled_cons_none (h : fetch k = .ok none) :
    settled fetch (k :: ks) s = settled fetch ks s := by
  funext j
  rw [settled, settled, reached_cons_ok h]
  by_cases hj : j = k
  · subst hj
    simp [h]
  · simp [hj]

theorem settled_cons_some {v : ν} (h : fetch k = .ok (some v)) :
    settled fetch (k :: ks) s = settled fetch ks (Function.update s k v) := by
  funext j
  rw [settled, settled, reached_cons_ok h]
  by_cases hj : j = k
  · subst hj
    simp [h]
  · simp [hj]

theorem storeAll_cons_error {e : ε} (h : fetch k = .error e) :
    storeAll fetch (k :: ks) = throw e := by
  rw [storeAll, store, h]
  rfl

/-- Only the values of the keys matter. -/
theorem storeAll_congr {fetch' : κ → Except ε (Option ν)} (h : ∀ k ∈ ks, fetch k = fetch' k) :
    storeAll fetch ks = storeAll fetch' ks := by
  induction ks with
  | nil => rfl
  | cons k ks ih =>
      rw [storeAll, storeAll, store, store, h k List.mem_cons_self,
        ih fun j hj => h j (List.mem_cons_of_mem k hj)]

theorem storeAll_append (js : List κ) : storeAll fetch (ks ++ js) = (do
    storeAll fetch ks
    storeAll fetch js) := by
  induction ks with
  | nil => rfl
  | cons k ks ih => rw [List.cons_append, storeAll, storeAll, ih, bind_assoc]

/-- A key that is reached has its value, if it has one. -/
theorem settled_of_mem (h : k ∈ reached fetch ks) :
    ∃ o, fetch k = .ok o ∧ settled fetch ks s k = o.getD (s k) := by
  have hok : (fetch k).isOk = true := List.mem_takeWhile_imp (p := fun k => (fetch k).isOk) h
  cases hfetch : fetch k with
  | error e =>
      rw [hfetch] at hok
      cases hok
  | ok o =>
      refine ⟨o, rfl, ?_⟩
      rw [settled, if_pos h, hfetch]
      cases o <;> rfl

/-- A key that is not reached keeps what it has. -/
theorem settled_of_notMem (h : k ∉ reached fetch ks) : settled fetch ks s k = s k := if_neg h

/-- **The stores stop at the first key that cannot be had**, and the values before it stay. -/
theorem storeAll_run (fetch : κ → Except ε (Option ν)) (ks : List κ) (s : κ → ν) :
    (reached fetch ks = ks ∧ (storeAll fetch ks).run s = .ok () (settled fetch ks s)) ∨
    ∃ k ∈ ks, ∃ e, fetch k = .error e ∧
      (storeAll fetch ks).run s = .error e (settled fetch ks s) := by
  induction ks generalizing s with
  | nil => exact .inl ⟨rfl, rfl⟩
  | cons k ks ih =>
      cases h : fetch k with
      | error e =>
          refine .inr ⟨k, List.mem_cons_self, e, h, ?_⟩
          rw [settled_cons_error h, storeAll, store, h]
          rfl
      | ok value =>
          -- the state after this key, from which the other keys are stored
          obtain ⟨t, hsettled, hrun⟩ : ∃ t, settled fetch (k :: ks) s = settled fetch ks t ∧
              (storeAll fetch (k :: ks)).run s = (storeAll fetch ks).run t := by
            cases value with
            | none =>
                refine ⟨s, settled_cons_none h, ?_⟩
                rw [storeAll, store, h]
                rfl
            | some v =>
                refine ⟨Function.update s k v, settled_cons_some h, ?_⟩
                rw [storeAll, store, h]
                rfl
          rw [hsettled, hrun, reached_cons_ok h]
          rcases ih t with ⟨hall, hdone⟩ | ⟨j, hj, e, hfail, hstop⟩
          · exact .inl ⟨by rw [hall], hdone⟩
          · exact .inr ⟨j, List.mem_cons_of_mem k hj, e, hfail, hstop⟩

end Stores

end Stores
