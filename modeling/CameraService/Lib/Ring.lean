import Mathlib.Data.List.Rotate

/-!
# Ring buffers

A ring buffer keeps a queue in the slots of a list, from a first slot on and round
the corner.  `window` is the queue it keeps, and `span` its length when only the
first slot and the first free one are stored.

What a ring buffer is for is a `Fifo`: a queue with a bound, which drops its oldest
item when one too many is pushed.

## Main definitions

* `window` — the items of a ring.
* `next`, `span` — the slot after a slot, and how far one slot is from another.
* `Fifo` — a bounded queue.
* `window_push`, `window_pop` — what writing a slot and moving the first one do.
-/

namespace RingBuffer

variable {α : Type} {v : List α} {n head tail len i : ℕ} {x : α}

/-! ## Slots -/

/-- The slot after `i`, in a ring of `n` slots. -/
def next (n i : ℕ) : ℕ := (i + 1) % n

/-- How many slots lie from `head` to `tail`. -/
def span (n head tail : ℕ) : ℕ := if head ≤ tail then tail - head else n - (head - tail)

/-- The last slot is followed by the first. -/
theorem next_eq (h : i < n) : next n i = if i + 1 = n then 0 else i + 1 := by
  unfold next
  split
  · rename_i hi
    rw [hi, Nat.mod_self]
  · exact Nat.mod_eq_of_lt (by omega)

theorem next_lt (h : 0 < n) : next n i < n := Nat.mod_lt _ h

theorem span_lt (hh : head < n) (ht : tail < n) : span n head tail < n := by
  unfold span
  split <;> omega

@[simp] theorem span_self : span n head head = 0 := by simp [span]

theorem span_eq_zero_iff (hh : head < n) : span n head tail = 0 ↔ tail = head := by
  unfold span
  split <;> omega

/-- The end of a span. -/
theorem add_span (hh : head < n) (ht : tail < n) : (head + span n head tail) % n = tail := by
  unfold span
  split
  · rw [Nat.add_sub_cancel' (by omega), Nat.mod_eq_of_lt ht]
  · rw [show head + (n - (head - tail)) = tail + n by omega, Nat.add_mod_right,
      Nat.mod_eq_of_lt ht]

/-- The slot after the end is the start of a span that goes all round. -/
theorem next_eq_iff (hh : head < n) (ht : tail < n) :
    next n tail = head ↔ span n head tail + 1 = n := by
  rw [next_eq ht]
  unfold span
  split <;> split <;> omega

/-- One slot more at the end. -/
theorem span_next_right (hh : head < n) (ht : tail < n) (h : next n tail ≠ head) :
    span n head (next n tail) = span n head tail + 1 := by
  rw [next_eq ht] at h ⊢
  unfold span
  split at h <;> rename_i hn
  · rw [if_pos hn]
    split <;> split <;> omega
  · rw [if_neg hn]
    split <;> split <;> omega

/-- One slot less at the start. -/
theorem span_next_left (hh : head < n) (ht : tail < n) (h : tail ≠ head) :
    span n (next n head) tail = span n head tail - 1 := by
  rw [next_eq hh]
  unfold span
  split <;> split <;> split <;> omega

/-- All slots but one. -/
theorem span_next_self (hh : head < n) : span n (next n head) head = n - 1 := by
  rw [next_eq hh]
  unfold span
  split <;> split <;> omega

/-! ## Items -/

/-- The `len` items from slot `head` on. -/
def window (v : List α) (head len : ℕ) : List α := (v.rotate head).take len

@[simp] theorem window_zero : window v head 0 = [] := by simp [window]

theorem length_window (h : len ≤ v.length) : (window v head len).length = len := by
  simp [window, h]

theorem getElem?_window (h : len ≤ v.length) (hi : i < len) :
    (window v head len)[i]? = v[(head + i) % v.length]? := by
  rw [window, List.getElem?_take_of_lt hi, List.getElem?_rotate (by omega), Nat.add_comm]

theorem getElem?_window_of_le (h : len ≤ v.length) (hi : len ≤ i) :
    (window v head len)[i]? = none := by
  rw [List.getElem?_eq_none_iff, length_window h]
  exact hi

/-- The first item. -/
theorem head?_window (hh : head < v.length) (hl : 0 < len) (h : len ≤ v.length) :
    (window v head len).head? = v[head]? := by
  rw [List.head?_eq_getElem?, getElem?_window h hl, Nat.add_zero, Nat.mod_eq_of_lt hh]

/-- Two slots of a ring, counted from the same one. -/
theorem add_mod_ne {j : ℕ} (hi : i < j) (hj : j < n) : (head + i) % n ≠ (head + j) % n := by
  intro h
  have hd : (j - i) % n = 0 := by
    have := Nat.sub_mod_eq_zero_of_mod_eq h.symm
    rwa [Nat.add_sub_add_left] at this
  rw [Nat.mod_eq_of_lt (by omega)] at hd
  omega

/-- Writing the slot after the last item appends to the queue. -/
theorem window_push (h : len < v.length) :
    window (v.set ((head + len) % v.length) x) head (len + 1) = window v head len ++ [x] := by
  have hset : (v.set ((head + len) % v.length) x).length = v.length := List.length_set
  apply List.ext_getElem?
  intro i
  rcases Nat.lt_trichotomy i len with hi | rfl | hi
  · rw [getElem?_window (by omega) (by omega), hset,
      List.getElem?_set_ne (add_mod_ne hi h).symm,
      List.getElem?_append_left (by rwa [length_window h.le]), getElem?_window h.le hi]
  · rw [getElem?_window (by omega) (by omega), hset,
      List.getElem?_set_self (Nat.mod_lt _ (by omega)),
      List.getElem?_append_right (by rw [length_window h.le]), length_window h.le]
    simp
  · rw [getElem?_window_of_le (by omega) hi, eq_comm, List.getElem?_eq_none_iff]
    simp [length_window h.le]
    omega

/-- Moving the first slot on drops the first item. -/
theorem window_pop (h : len + 1 ≤ v.length) :
    window v (next v.length head) len = (window v head (len + 1)).tail := by
  apply List.ext_getElem?
  intro i
  rw [List.getElem?_tail]
  by_cases hi : i < len
  · rw [getElem?_window (by omega) hi, getElem?_window h (by omega), next, Nat.mod_add_mod]
    congr 2
    omega
  · rw [getElem?_window_of_le (by omega) (by omega), getElem?_window_of_le h (by omega)]

end RingBuffer

/-! ## Bounded queues -/

/-- A queue, and how many items it dropped. -/
structure Fifo (α : Type) where
  items : List α
  dropped : ℕ

namespace Fifo

variable {α : Type}

/-- The queue with nothing in it. -/
def empty : Fifo α := ⟨[], 0⟩

/-- Append an item, and drop the oldest if that is one too many. -/
def push (cap : ℕ) (q : Fifo α) (x : α) : Fifo α :=
  if q.items.length < cap then ⟨q.items ++ [x], q.dropped⟩
  else ⟨(q.items ++ [x]).tail, q.dropped + 1⟩

/-- Take the oldest item away. -/
def pop (q : Fifo α) : Fifo α := ⟨q.items.tail, q.dropped⟩

end Fifo
