import CameraService.Lib.Monitor
import CameraService.Spdlog.CircularQ

/-!
# The threads of the log

`mpmc_blocking_queue`, `thread_pool` and the front of `async_logger` of spdlog.  A thread
that logs a line puts it into the queue of the pool, and a worker takes it out and hands it
to the sinks.  When the queue is full the policy of the logger decides: the thread waits
for room, or the oldest message is dropped, or the new one.  The destructor of the pool
sends each worker a message to end, and waits for them.

Each critical section of the queue's mutex is one step, and so is what is done outside of
it: a notification comes after the section that it is about.

## Main definitions

* `AsyncMsg`, `OverflowPolicy` — the messages, and what is done when there is no room.
* `Pc`, `PoolState` — the threads, and what they share.
* `Loggers` — the loggers of a pool, with their sinks.
* `Act`, `wake` — the steps.
* `start` — a pool with its workers, and the threads that log.
-/

namespace CameraService.Spdlog

open Transition

/-- `async_overflow_policy`. -/
inductive OverflowPolicy
  | block
  | overrunOldest
  | discardNew
  deriving DecidableEq

/-- `async_msg`, by its type. -/
inductive AsyncMsg (μ : Type)
  | log (msg : μ)
  /-- With the promise that is kept when the sinks have been flushed. -/
  | flush (promise : ℕ)
  | terminate

instance {μ : Type} [Inhabited μ] : Inhabited (AsyncMsg μ) := ⟨.log default⟩

variable {μ δ : Type}

/-- How far a thread has come. -/
inductive Pc (μ : Type)
  /-- Outside of the pool. -/
  | outside
  /-- Before the lock of `queue_mutex_` in `post_async_msg_`. -/
  | posting (m : AsyncMsg μ) (policy : OverflowPolicy)
  /-- Asleep on `pop_cv_`. -/
  | waiting (m : AsyncMsg μ)
  /-- Before `push_cv_.notify_one()`. -/
  | posted (m : AsyncMsg μ)
  /-- Before `++discard_counter_`. -/
  | discarding (m : AsyncMsg μ)
  /-- In `future.get()`. -/
  | awaiting (promise : ℕ)
  /-- At the loop of `~thread_pool`. -/
  | destroying
  /-- In `t.join()`. -/
  | joining
  /-- After `~thread_pool`. -/
  | destroyed
  /-- A worker before the lock of `queue_mutex_` in `dequeue`. -/
  | dequeuing
  /-- A worker asleep on `push_cv_`. -/
  | idle
  /-- A worker before `pop_cv_.notify_one()`. -/
  | dequeued (m : AsyncMsg μ)
  /-- A worker before the `switch` of `process_next_msg_`. -/
  | handling (m : AsyncMsg μ)
  /-- A worker after `worker_loop_`. -/
  | stopped

/-- The condition variables of the queue. -/
inductive Cv
  | push
  | pop
  deriving DecidableEq

/-- The pool, the promises that were made, and the sinks. -/
structure PoolState (μ δ : Type) where
  q_ : CircularQ (AsyncMsg μ)
  /-- The message in the slot that is written next, if it was overrun. -/
  stale : Option (AsyncMsg μ)
  discard_counter_ : UInt64
  /-- Whether `thread_pool_.lock()` finds the pool. -/
  alive : Bool
  /-- How often the body of the loop of `~thread_pool` was entered. -/
  turns : ℕ
  /-- Whether each promise is kept, or broken, or neither. -/
  promises : List (Option Bool)
  sinks : δ

/-- The loggers that use a pool. -/
structure Loggers (μ δ : Type) where
  /-- Whether one of them has the policy. -/
  policy : OverflowPolicy → Prop
  /-- `backend_sink_it_`. -/
  sink : μ → δ → δ → Prop
  /-- `backend_flush_`. -/
  flush : δ → δ → Prop
  /-- `threads_.size()`. -/
  workers : ℕ

/-- What a thread does in a step. -/
inductive Event (μ : Type)
  /-- It logs, or flushes, or is the destructor that ends a worker. -/
  | call (m : AsyncMsg μ)
  /-- The pool does not exist anymore. -/
  | refuse (msg : μ)
  /-- Its message is in the queue, for which another may have been lost. -/
  | push (m : AsyncMsg μ) (lost : Option (AsyncMsg μ))
  | discard (m : AsyncMsg μ)
  /-- Its flush is over. -/
  | flushed (promise : ℕ) (kept : Bool)
  /-- It starts the destructor. -/
  | destroy
  | take (m : AsyncMsg μ)
  | handle (m : AsyncMsg μ)
  | tau

namespace PoolState

/-- The promise of a message that is destroyed is broken. -/
def drop (s : PoolState μ δ) : AsyncMsg μ → PoolState μ δ
  | .flush k => { s with promises := s.promises.set k (some false) }
  | _ => s

/-- `q_.push_back`, which destroys the message that it writes over. -/
def push (s : PoolState μ δ) (m : AsyncMsg μ) (lost : Option (AsyncMsg μ)) : PoolState μ δ :=
  { s.stale.elim s s.drop with q_ := s.q_.pushBack m, stale := lost }

/-- The messages in the queue, oldest first. -/
def queued (s : PoolState μ δ) : List (AsyncMsg μ) := s.q_.items

/-- The room in the queue. -/
def room (s : PoolState μ δ) : ℕ := s.q_.max_items_ - 1 - s.queued.length

end PoolState

namespace Pc

/-- Where a thread goes on that has posted a message. -/
def after : AsyncMsg μ → Pc μ
  | .log _ => outside
  | .flush k => awaiting k
  | .terminate => destroying

/-- The thread is one of the workers. -/
def worker : Pc μ → Bool
  | dequeuing | idle | dequeued _ | handling _ | stopped => true
  | _ => false

/-- The thread has a pointer to the pool. -/
def inside : Pc μ → Bool
  | posting m _ | waiting m | posted m | discarding m => match m with
    | .terminate => false
    | _ => true
  | awaiting _ => true
  | _ => false

/-- The thread runs the destructor. -/
def destructs : Pc μ → Bool
  | posting m _ | waiting m | posted m | discarding m => match m with
    | .terminate => true
    | _ => false
  | destroying | joining | destroyed => true
  | _ => false

end Pc

/-- What a thread that sleeps does when it wakes. -/
def wake : Cv → Pc μ → Option (Pc μ)
  | .pop, .waiting m => some (.posting m .block)
  | .push, .idle => some .dequeuing
  | _, _ => none

/-- The steps of a thread. -/
inductive Act (c : Loggers μ δ) :
    List (Pc μ) → PoolState μ δ → Pc μ → Event μ → PoolState μ δ → Pc μ → Option Cv → Prop
  -- `async_logger::sink_it_` and `flush_`
  | log {os : List (Pc μ)} {s : PoolState μ δ} {msg : μ} {p : OverflowPolicy}
      (ha : s.alive = true) (hp : c.policy p) :
      Act c os s .outside (.call (.log msg)) s (.posting (.log msg) p) none
  | flush {os : List (Pc μ)} {s : PoolState μ δ} {p : OverflowPolicy}
      (ha : s.alive = true) (hp : c.policy p) :
      Act c os s .outside (.call (.flush s.promises.length))
        { s with promises := s.promises ++ [none] }
        (.posting (.flush s.promises.length) p) none
  | refuse {os : List (Pc μ)} {s : PoolState μ δ} {msg : μ} (ha : s.alive = false) :
      Act c os s .outside (.refuse msg) s .outside none
  -- `mpmc_blocking_queue::enqueue`
  | wait {os : List (Pc μ)} {s : PoolState μ δ} {m : AsyncMsg μ} (hf : s.q_.full = true) :
      Act c os s (.posting m .block) .tau s (.waiting m) none
  | enqueue {os : List (Pc μ)} {s : PoolState μ δ} {m : AsyncMsg μ} (hf : s.q_.full = false) :
      Act c os s (.posting m .block) (.push m none) (s.push m none) (.posted m) none
  -- `enqueue_nowait`
  | enqueueNowait {os : List (Pc μ)} {s : PoolState μ δ} {m : AsyncMsg μ}
      (hf : s.q_.full = false) :
      Act c os s (.posting m .overrunOldest) (.push m none) (s.push m none) (.posted m) none
  | overrun {os : List (Pc μ)} {s : PoolState μ δ} {m lost : AsyncMsg μ}
      (hf : s.q_.full = true) (hl : (s.queued ++ [m]).head? = some lost) :
      Act c os s (.posting m .overrunOldest) (.push m (some lost)) (s.push m (some lost))
        (.posted m) none
  -- `enqueue_if_have_room`
  | enqueueIfHaveRoom {os : List (Pc μ)} {s : PoolState μ δ} {m : AsyncMsg μ}
      (hf : s.q_.full = false) :
      Act c os s (.posting m .discardNew) (.push m none) (s.push m none) (.posted m) none
  | noRoom {os : List (Pc μ)} {s : PoolState μ δ} {m : AsyncMsg μ} (hf : s.q_.full = true) :
      Act c os s (.posting m .discardNew) .tau s (.discarding m) none
  | discard {os : List (Pc μ)} {s : PoolState μ δ} {m : AsyncMsg μ} :
      Act c os s (.discarding m) (.discard m)
        ({ s with discard_counter_ := s.discard_counter_ + 1 }.drop m) (.after m) none
  | notifyPush {os : List (Pc μ)} {s : PoolState μ δ} {m : AsyncMsg μ} :
      Act c os s (.posted m) .tau s (.after m) (some .push)
  | await {os : List (Pc μ)} {s : PoolState μ δ} {k : ℕ} {kept : Bool}
      (hk : s.promises[k]? = some (some kept)) :
      Act c os s (.awaiting k) (.flushed k kept) s .outside none
  -- `~thread_pool`, when the last pointer is gone
  | destroy {os : List (Pc μ)} {s : PoolState μ δ} (ha : s.alive = true)
      (ho : ∀ u ∈ os, u.inside = false) :
      Act c os s .outside .destroy { s with alive := false } .destroying none
  | terminate {os : List (Pc μ)} {s : PoolState μ δ} (hi : s.turns < c.workers) :
      Act c os s .destroying (.call .terminate) { s with turns := s.turns + 1 }
        (.posting .terminate .block) none
  | endLoop {os : List (Pc μ)} {s : PoolState μ δ} (hi : ¬ s.turns < c.workers) :
      Act c os s .destroying .tau s .joining none
  | join {os : List (Pc μ)} {s : PoolState μ δ} (ho : ∀ u ∈ os, u.worker = true → u = .stopped) :
      Act c os s .joining .tau s .destroyed none
  -- `dequeue`
  | sleep {os : List (Pc μ)} {s : PoolState μ δ} (he : s.q_.empty = true) :
      Act c os s .dequeuing .tau s .idle none
  | dequeue {os : List (Pc μ)} {s : PoolState μ δ} {m : AsyncMsg μ} {q : CircularQ (AsyncMsg μ)}
      (he : s.q_.empty = false) (hf : s.q_.front = some m) (hq : s.q_.popFront = some q) :
      Act c os s .dequeuing (.take m) { s with q_ := q } (.dequeued m) none
  | notifyPop {os : List (Pc μ)} {s : PoolState μ δ} {m : AsyncMsg μ} :
      Act c os s (.dequeued m) .tau s (.handling m) (some .pop)
  -- `process_next_msg_`
  | handleLog {os : List (Pc μ)} {s : PoolState μ δ} {msg : μ} {d : δ}
      (hd : c.sink msg s.sinks d) :
      Act c os s (.handling (.log msg)) (.handle (.log msg)) { s with sinks := d } .dequeuing none
  | handleFlush {os : List (Pc μ)} {s : PoolState μ δ} {k : ℕ} {d : δ}
      (hd : c.flush s.sinks d) :
      Act c os s (.handling (.flush k)) (.handle (.flush k))
        { s with sinks := d, promises := s.promises.set k (some true) } .dequeuing none
  | handleTerminate {os : List (Pc μ)} {s : PoolState μ δ} :
      Act c os s (.handling .terminate) (.handle .terminate) s .stopped none

/-- The pool with its threads. -/
abbrev Threads (μ δ : Type) : Type := Pool (PoolState μ δ) (Pc μ)

/-- A step of the pool, or a thread that wakes by itself. -/
abbrev Step (c : Loggers μ δ) : Threads μ δ → Option (ℕ × Event μ) → Threads μ δ → Prop :=
  Monitor.Restless (Act c) wake

/-- `thread_pool(q_max_items, threads_n)`, and the threads that are going to log. -/
def start [Inhabited μ] (c : Loggers μ δ) (q_max_items threads : ℕ) (sinks : δ) : Threads μ δ where
  shared := ⟨.new q_max_items, none, 0, true, 0, [], sinks⟩
  threads := List.replicate c.workers .dequeuing ++ List.replicate threads .outside

/-! ## What a step does not touch -/

namespace PoolState

variable (s : PoolState μ δ) (m : AsyncMsg μ) (lost : Option (AsyncMsg μ))

@[simp] theorem q_drop : (s.drop m).q_ = s.q_ := by
  cases m with
  | _ => rfl

@[simp] theorem alive_drop : (s.drop m).alive = s.alive := by
  cases m with
  | _ => rfl

@[simp] theorem turns_drop : (s.drop m).turns = s.turns := by
  cases m with
  | _ => rfl

@[simp] theorem sinks_drop : (s.drop m).sinks = s.sinks := by
  cases m with
  | _ => rfl

@[simp] theorem stale_drop : (s.drop m).stale = s.stale := by
  cases m with
  | _ => rfl

@[simp] theorem q_push : (s.push m lost).q_ = s.q_.pushBack m := rfl

@[simp] theorem stale_push : (s.push m lost).stale = lost := rfl

@[simp] theorem alive_push : (s.push m lost).alive = s.alive := by
  cases h : s.stale with
  | _ => simp [push, h]

@[simp] theorem turns_push : (s.push m lost).turns = s.turns := by
  cases h : s.stale with
  | _ => simp [push, h]

@[simp] theorem sinks_push : (s.push m lost).sinks = s.sinks := by
  cases h : s.stale with
  | _ => simp [push, h]

end PoolState

end CameraService.Spdlog
