import CameraService.Lib.Ring
import Mathlib.Algebra.Order.Ring.Int
import Mathlib.Tactic.Common

/-!
# The queue of the log

`circular_q` of spdlog, the queue in which the lines of the log wait for the thread
that writes them.  One slot more than the queue may hold items is allocated, so that a
full queue and an empty one differ.  A queue that was not given a size has no slot, and
drops what is pushed.

## Main definitions

* `CircularQ` — the class; its indices are inside.
* `CircularQ.pushBack`, `CircularQ.popFront`, `CircularQ.front`, `CircularQ.size`,
  `CircularQ.at`, `CircularQ.empty`, `CircularQ.full` — its members.
* `CircularQ.items` — the queue that it keeps.
* `CircularQ.run_refines` — it is a bounded queue.
-/

namespace CameraService.Spdlog

open RingBuffer

variable {α : Type}

/-- `circular_q`. -/
structure CircularQ (α : Type) where
  max_items_ : ℕ
  head_ : ℕ
  tail_ : ℕ
  overrun_counter_ : UInt64
  v_ : List α
  length_v : v_.length = max_items_
  head_lt : head_ < max max_items_ 1
  tail_lt : tail_ < max max_items_ 1

namespace CircularQ

/-- The constructor without arguments: a disabled queue. -/
def disabled : CircularQ α := ⟨0, 0, 0, 0, [], rfl, by simp, by simp⟩

/-- `circular_q(max_items)`.  The size has 64 bits. -/
def new [Inhabited α] (max_items : ℕ) : CircularQ α where
  max_items_ := (max_items + 1) % 2 ^ 64
  head_ := 0
  tail_ := 0
  overrun_counter_ := 0
  v_ := List.replicate ((max_items + 1) % 2 ^ 64) default
  length_v := List.length_replicate
  head_lt := by omega
  tail_lt := by omega

theorem next_lt_max {n i : ℕ} (h : 0 < n) : next n i < max n 1 :=
  Nat.lt_of_lt_of_le (next_lt h) (Nat.le_max_left n 1)

/-- `push_back`. -/
def pushBack (q : CircularQ α) (item : α) : CircularQ α :=
  if h : 0 < q.max_items_ then
    let tail := next q.max_items_ q.tail_
    if tail = q.head_ then
      { q with
        v_ := q.v_.set q.tail_ item
        tail_ := tail
        head_ := next q.max_items_ q.head_
        overrun_counter_ := q.overrun_counter_ + 1
        length_v := by rw [List.length_set, q.length_v]
        head_lt := next_lt_max h
        tail_lt := next_lt_max h }
    else
      { q with
        v_ := q.v_.set q.tail_ item
        tail_ := tail
        length_v := by rw [List.length_set, q.length_v]
        tail_lt := next_lt_max h }
  else q

/-- `front`. -/
def front (q : CircularQ α) : Option α := q.v_[q.head_]?

/-- `size`. -/
def size (q : CircularQ α) : ℕ := span q.max_items_ q.head_ q.tail_

/-- `at`, of an index below the size. -/
def «at» (q : CircularQ α) (i : ℕ) : Option α :=
  if i < q.size then q.v_[(q.head_ + i) % q.max_items_]? else none

/-- `pop_front`, which divides by the number of slots.  The item stays in its slot. -/
def popFront (q : CircularQ α) : Option (CircularQ α) :=
  if h : 0 < q.max_items_ then
    some { q with head_ := next q.max_items_ q.head_, head_lt := next_lt_max h }
  else none

/-- `empty`. -/
def empty (q : CircularQ α) : Bool := q.tail_ = q.head_

/-- `full`. -/
def full (q : CircularQ α) : Bool :=
  if 0 < q.max_items_ then next q.max_items_ q.tail_ = q.head_ else false

/-- The items that wait, oldest first. -/
def items (q : CircularQ α) : List α := window q.v_ q.head_ q.size

/-! ## One operation -/

variable {q : CircularQ α} {n : ℕ} {x : α}

theorem head_lt_of_pos (h : 0 < q.max_items_) : q.head_ < q.max_items_ := by
  have := q.head_lt
  omega

theorem tail_lt_of_pos (h : 0 < q.max_items_) : q.tail_ < q.max_items_ := by
  have := q.tail_lt
  omega

theorem size_lt (h : 0 < q.max_items_) : q.size < q.max_items_ :=
  span_lt (head_lt_of_pos h) (tail_lt_of_pos h)

@[simp] theorem length_items (h : 0 < q.max_items_) : q.items.length = q.size := by
  apply length_window
  rw [q.length_v]
  exact (size_lt h).le

theorem next_eq_head (h : 0 < q.max_items_) (hfull : q.full = true) :
    next q.max_items_ q.tail_ = q.head_ := by
  simpa [full, h] using hfull

theorem next_ne_head (h : 0 < q.max_items_) (hfull : q.full = false) :
    next q.max_items_ q.tail_ ≠ q.head_ := by
  simpa [full, h] using hfull

/-- `full` means that all slots but one are used. -/
theorem full_iff (h : 0 < q.max_items_) : q.full = true ↔ q.size + 1 = q.max_items_ := by
  rw [full, if_pos h, decide_eq_true_iff]
  exact next_eq_iff (head_lt_of_pos h) (tail_lt_of_pos h)

theorem empty_iff (h : 0 < q.max_items_) : q.empty = true ↔ q.items = [] := by
  rw [empty, decide_eq_true_iff, ← List.length_eq_zero_iff, length_items h, size,
    span_eq_zero_iff (head_lt_of_pos h)]

theorem front_eq (h : q.items ≠ []) (hm : 0 < q.max_items_) : q.front = q.items.head? := by
  rw [items, head?_window, front]
  · rw [q.length_v]
    exact head_lt_of_pos hm
  · rw [← length_items hm]
    exact List.length_pos_iff.mpr h
  · rw [q.length_v]
    exact (size_lt hm).le

theorem at_eq (hm : 0 < q.max_items_) (i : ℕ) : q.at i = q.items[i]? := by
  have hl : q.size ≤ q.v_.length := q.length_v ▸ (size_lt hm).le
  unfold «at»
  split
  · rename_i hi
    rw [items, getElem?_window hl hi, q.length_v]
  · rename_i hi
    rw [items, getElem?_window_of_le hl (by omega)]

@[simp] theorem max_items_pushBack : (q.pushBack x).max_items_ = q.max_items_ := by
  by_cases h : 0 < q.max_items_
  · simp only [pushBack, dif_pos h]
    split <;> rfl
  · simp only [pushBack, dif_neg h]

/-- Writing the free slot appends. -/
theorem window_set_tail (h : 0 < q.max_items_) :
    window (q.v_.set q.tail_ x) q.head_ (q.size + 1) = q.items ++ [x] := by
  have htail : (q.head_ + q.size) % q.v_.length = q.tail_ := by
    rw [q.length_v]
    exact add_span (head_lt_of_pos h) (tail_lt_of_pos h)
  rw [items, ← window_push (by rw [q.length_v]; exact size_lt h), htail]

theorem items_pushBack (h : 0 < q.max_items_) (hfull : q.full = false) :
    (q.pushBack x).items = q.items ++ [x] := by
  have hne := next_ne_head h hfull
  have hsize := span_next_right (head_lt_of_pos h) (tail_lt_of_pos h) hne
  rw [← window_set_tail h]
  simp only [pushBack, dif_pos h, if_neg hne, items, size, hsize]

theorem overrun_pushBack (h : 0 < q.max_items_) (hfull : q.full = false) :
    (q.pushBack x).overrun_counter_ = q.overrun_counter_ := by
  have hne := next_ne_head h hfull
  simp only [pushBack, dif_pos h, if_neg hne]

theorem items_pushBack_full (h : 0 < q.max_items_) (hfull : q.full = true) :
    (q.pushBack x).items = (q.items ++ [x]).tail := by
  have he := next_eq_head h hfull
  have hsize := (full_iff h).mp hfull
  have hspan : span q.max_items_ (next q.max_items_ q.head_) q.head_ = q.size := by
    rw [span_next_self (head_lt_of_pos h)]
    omega
  rw [← window_set_tail h, ← window_pop (by rw [List.length_set, q.length_v]; omega),
    List.length_set, q.length_v]
  simp only [pushBack, dif_pos h, if_pos he, items, size]
  rw [he, hspan, size]

theorem overrun_pushBack_full (h : 0 < q.max_items_) (hfull : q.full = true) :
    (q.pushBack x).overrun_counter_ = q.overrun_counter_ + 1 := by
  have he := next_eq_head h hfull
  simp only [pushBack, dif_pos h, if_pos he]

theorem popFront_eq (h : 0 < q.max_items_) (hq : q.items ≠ []) :
    ∃ q', q.popFront = some q' ∧ q'.max_items_ = q.max_items_ ∧ q'.items = q.items.tail ∧
      q'.overrun_counter_ = q.overrun_counter_ := by
  refine ⟨{ q with head_ := next q.max_items_ q.head_, head_lt := next_lt_max h },
    by rw [popFront, dif_pos h], rfl, ?_, rfl⟩
  have hpos : 0 < q.size := by
    rw [← length_items h]
    exact List.length_pos_iff.mpr hq
  have hne : q.tail_ ≠ q.head_ := by
    intro he
    rw [size, he, span_self] at hpos
    omega
  have hsize := span_next_left (head_lt_of_pos h) (tail_lt_of_pos h) hne
  have hs := size_lt h
  have hpop : window q.v_ (next q.v_.length q.head_) (q.size - 1) =
      (window q.v_ q.head_ (q.size - 1 + 1)).tail := window_pop (by rw [q.length_v]; omega)
  rw [Nat.sub_add_cancel hpos, q.length_v] at hpop
  simp only [items, size, hsize] at hpop ⊢
  exact hpop

/-! ## Sequences of operations -/

/-- A change of a queue. -/
inductive QueueOp (α : Type)
  | push (item : α)
  | pop

/-- The change to the class. -/
def perform (q : CircularQ α) : QueueOp α → Option (CircularQ α)
  | .push item => some (q.pushBack item)
  | .pop => q.popFront

/-- A sequence of changes to the class. -/
def run (q : CircularQ α) : List (QueueOp α) → Option (CircularQ α)
  | [] => some q
  | o :: os => (q.perform o).bind fun q' => q'.run os

/-- The change to a bounded queue. -/
def change (cap : ℕ) (f : Fifo α) : QueueOp α → Fifo α
  | .push item => f.push cap item
  | .pop => f.pop

/-- The callers of the class never take an item from an empty queue. -/
def Guarded (cap : ℕ) : Fifo α → List (QueueOp α) → Prop
  | _, [] => True
  | f, .push item :: os => Guarded cap (f.push cap item) os
  | f, .pop :: os => f.items ≠ [] ∧ Guarded cap f.pop os

/-- The members answer for the queue what they would for `f`. -/
structure Shows (q : CircularQ α) (cap : ℕ) (f : Fifo α) : Prop where
  size : q.size = f.items.length
  «at» : ∀ i, q.at i = f.items[i]?
  front : f.items ≠ [] → q.front = f.items.head?
  empty : q.empty = true ↔ f.items = []
  full : q.full = true ↔ f.items.length = cap
  overruns : q.overrun_counter_ = UInt64.ofNat f.dropped

/-- What one operation keeps. -/
structure Keeps (q : CircularQ α) (cap : ℕ) (f : Fifo α) : Prop where
  max_items : q.max_items_ = cap + 1
  items : q.items = f.items
  overruns : q.overrun_counter_ = UInt64.ofNat f.dropped

variable {cap : ℕ} {f : Fifo α}

theorem Keeps.pos (h : q.Keeps cap f) : 0 < q.max_items_ := by
  rw [h.max_items]
  omega

theorem Keeps.length_items (h : q.Keeps cap f) : f.items.length = q.size := by
  rw [← h.items, CircularQ.length_items h.pos]

theorem Keeps.full_iff (h : q.Keeps cap f) : q.full = true ↔ f.items.length = cap := by
  have hmax := h.max_items
  rw [CircularQ.full_iff h.pos, h.length_items]
  omega

theorem Keeps.shows (h : q.Keeps cap f) : q.Shows cap f where
  size := h.length_items.symm
  «at» := fun i => by rw [at_eq h.pos, h.items]
  front := fun hf => by rw [front_eq (h.items ▸ hf) h.pos, h.items]
  empty := by rw [empty_iff h.pos, h.items]
  full := h.full_iff
  overruns := h.overruns

theorem keeps_new [Inhabited α] (hcap : cap + 1 < 2 ^ 64) :
    (new cap : CircularQ α).Keeps cap .empty where
  max_items := Nat.mod_eq_of_lt hcap
  items := by simp [items, size, new, Fifo.empty]
  overruns := rfl

theorem Keeps.push (h : q.Keeps cap f) (x : α) : (q.pushBack x).Keeps cap (f.push cap x) := by
  have hsize := size_lt h.pos
  have hlen := h.length_items
  have hmax := h.max_items
  cases hfull : q.full with
  | false =>
      have hlt : f.items.length < cap := by
        have hne : ¬ f.items.length = cap := fun he => by simp [h.full_iff.mpr he] at hfull
        omega
      rw [Fifo.push, if_pos hlt]
      exact ⟨max_items_pushBack.trans hmax, by rw [items_pushBack h.pos hfull, h.items],
        (overrun_pushBack h.pos hfull).trans h.overruns⟩
  | true =>
      rw [Fifo.push, if_neg (by rw [h.full_iff.mp hfull]; omega)]
      refine ⟨max_items_pushBack.trans hmax, by rw [items_pushBack_full h.pos hfull, h.items], ?_⟩
      rw [overrun_pushBack_full h.pos hfull, h.overruns]
      simp

theorem Keeps.pop (h : q.Keeps cap f) (hf : f.items ≠ []) :
    ∃ q', q.popFront = some q' ∧ q'.Keeps cap f.pop := by
  obtain ⟨q', hq, hmax, hitems, hover⟩ := popFront_eq h.pos (h.items ▸ hf)
  exact ⟨q', hq, hmax.trans h.max_items, by rw [hitems, h.items, Fifo.pop], hover.trans h.overruns⟩

theorem Keeps.run {os : List (QueueOp α)} (h : q.Keeps cap f) (hos : Guarded cap f os) :
    ∃ q', q.run os = some q' ∧ q'.Keeps cap (os.foldl (change cap) f) := by
  induction os generalizing q f with
  | nil => exact ⟨q, rfl, h⟩
  | cons o os ih =>
      cases o with
      | push x => exact ih (h.push x) hos
      | pop =>
          obtain ⟨q₁, hq₁, h₁⟩ := h.pop hos.1
          obtain ⟨q', hq', h'⟩ := ih h₁ hos.2
          refine ⟨q', ?_, h'⟩
          rw [CircularQ.run, perform, hq₁, Option.bind_some, hq']

/-- **The ring is a bounded queue.**  Whatever is pushed and popped, the class answers
as a queue of `cap` items that drops its oldest item when one too many is pushed, and
counts the drops modulo `2 ^ 64`. -/
theorem run_refines [Inhabited α] (hcap : cap + 1 < 2 ^ 64) (os : List (QueueOp α))
    (hos : Guarded cap .empty os) :
    ∃ q, (new cap : CircularQ α).run os = some q ∧ q.Shows cap (os.foldl (change cap) .empty) := by
  obtain ⟨q, hq, h⟩ := (keeps_new hcap).run hos
  exact ⟨q, hq, h.shows⟩

/-- One item too many, in a queue of two. -/
theorem run_refines_overrun : ∃ q, (new 2 : CircularQ ℕ).run
    [.push 1, .push 2, .pop, .push 3, .push 4] = some q ∧ q.Shows 2 ⟨[3, 4], 1⟩ :=
  run_refines (by decide) [.push 1, .push 2, .pop, .push 3, .push 4]
    ⟨by simp [Fifo.push, Fifo.empty], trivial⟩

end CircularQ

end CameraService.Spdlog
