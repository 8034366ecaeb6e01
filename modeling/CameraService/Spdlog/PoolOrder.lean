import CameraService.Spdlog.PoolInvariants

/-!
# No line is lost

What the pool of the log does with the messages, over whole runs.  The queue passes on
what is put into it in order, each thread's messages go in in the order in which it
logged them, and a worker hands to the sinks what it takes.  When the destructor has
returned nothing is left on the way.

With one worker, and loggers that wait for room, the sinks therefore get exactly the lines
that were logged, in the order in which they went into the queue.

## Main definitions

* `Event.calls`, `Event.settles`, `Event.takes`, `Event.handles` — what a step is about.
* `queue_in_order`, `thread_in_order`, `hands_empty` — what is passed on.
* `drained_of_destroyed` — after the destructor.
* `Sinks` — what handling a message does to the sinks.
* `pool_drains`, `log_complete` — the messages of whole runs.
-/

namespace CameraService.Spdlog

open Transition Monitor CircularQ PoolState

variable {μ δ : Type} {c : Loggers μ δ} {os : List (Pc μ)} {s s' : PoolState μ δ} {t t' : Pc μ}
  {e : Event μ} {d : Option Cv} {cap threads : ℕ} {sinks : δ} {p p' : Threads μ δ}
  {ls : List (Option (ℕ × Event μ))}

namespace Event

/-- What the thread begins to post. -/
def calls : Event μ → List (AsyncMsg μ)
  | call m => [m]
  | _ => []

/-- What the thread has posted, or not. -/
def settles : Event μ → List (AsyncMsg μ)
  | push m _ => [m]
  | discard m => [m]
  | _ => []

/-- What a worker takes out of the queue. -/
def takes : Event μ → List (AsyncMsg μ)
  | take m => [m]
  | _ => []

/-- What a worker has handled. -/
def handles : Event μ → List (AsyncMsg μ)
  | handle m => [m]
  | _ => []

end Event

namespace Pc

/-- What the thread is posting. -/
def toPost : Pc μ → List (AsyncMsg μ)
  | posting m _ | waiting m | discarding m => [m]
  | _ => []

/-- What the worker has taken and not handled. -/
def inHand : Pc μ → List (AsyncMsg μ)
  | dequeued m | handling m => [m]
  | _ => []

end Pc

/-! ## One step -/

theorem Act.posts (h : Act c os s t e s' t' d) : t.toPost ++ e.calls = e.settles ++ t'.toPost := by
  cases h with
  | discard | notifyPush =>
      rename_i m
      cases m with
      | _ => rfl
  | _ => rfl

theorem Act.hands (h : Act c os s t e s' t' d) : t.inHand ++ e.takes = e.handles ++ t'.inHand := by
  cases h with
  | discard | notifyPush =>
      rename_i m
      cases m with
      | _ => rfl
  | _ => rfl

theorem Act.takes_of_not_worker (h : Act c os s t e s' t' d) (ht : t.worker = false) :
    e.takes = [] := by
  cases h with
  | dequeue => cases ht
  | _ => rfl

theorem Act.handles_of_not_worker (h : Act c os s t e s' t' d) (ht : t.worker = false) :
    e.handles = [] := by
  cases h with
  | handleLog | handleFlush | handleTerminate => cases ht
  | _ => rfl

theorem wake_toPost {v : Cv} {u u' : Pc μ} (h : wake v u = some u') : u'.toPost = u.toPost := by
  rcases wake_eq_some h with ⟨m, rfl, rfl, rfl⟩ | ⟨rfl, rfl, rfl⟩
  · rfl
  · rfl

theorem wake_inHand {v : Cv} {u u' : Pc μ} (h : wake v u = some u') : u'.inHand = u.inHand := by
  rcases wake_eq_some h with ⟨m, rfl, rfl, rfl⟩ | ⟨rfl, rfl, rfl⟩
  · rfl
  · rfl

theorem wake_worker {v : Cv} {u u' : Pc μ} (h : wake v u = some u') : u'.worker = u.worker := by
  rcases wake_eq_some h with ⟨m, rfl, rfl, rfl⟩ | ⟨rfl, rfl, rfl⟩
  · rfl
  · rfl

/-! ## Runs -/

/-- **The queue is first in, first out**, over a whole run. -/
theorem queue_in_order (hm : 0 < p.shared.q_.max_items_) (h : Path (Step c) p ls p') :
    p.shared.queued ++ (events ls).flatMap Event.pushes =
      (events ls).flatMap Event.leaves ++ p'.shared.queued :=
  conserve_shared (I := fun s => 0 < s.q_.max_items_) (fun _ _ _ _ _ _ _ hI hact =>
    ⟨(hact.passes hI).1 ▸ hI, (hact.passes hI).2⟩) hm h

/-- **The messages of a thread keep their order.** -/
theorem thread_in_order (h : Path (Step c) p ls p') (i : ℕ) :
    ((p.threads[i]?).map Pc.toPost).getD [] ++ (eventsOf i ls).flatMap Event.calls =
      (eventsOf i ls).flatMap Event.settles ++ ((p'.threads[i]?).map Pc.toPost).getD [] :=
  conserve_thread (fun _ _ _ _ _ _ _ hact => hact.posts) (fun _ _ _ => wake_toPost) h i

/-- A worker handles what it takes, in order. -/
theorem worker_in_order (h : Path (Step c) p ls p') (i : ℕ) :
    ((p.threads[i]?).map Pc.inHand).getD [] ++ (eventsOf i ls).flatMap Event.takes =
      (eventsOf i ls).flatMap Event.handles ++ ((p'.threads[i]?).map Pc.inHand).getD [] :=
  conserve_thread (fun _ _ _ _ _ _ _ hact => hact.hands) (fun _ _ _ => wake_inHand) h i

/-- The workers together handle what they take. -/
theorem hands_of_path (h : Path (Step c) p ls p') :
    (p.threads.flatMap Pc.inHand ++ (events ls).flatMap Event.takes).Perm
      ((events ls).flatMap Event.handles ++ p'.threads.flatMap Pc.inHand) :=
  conserve_perm (fun _ _ _ _ _ _ _ hact => hact.hands) (fun _ _ _ => wake_inHand) h

/-! ## After the destructor -/

/-- How many threads are workers. -/
def workersOf (p : Threads μ δ) : ℕ := Pool.total (fun t => t.worker.toNat) p.threads

theorem workersOf_of_path (h : Path (Step c) p ls p') : workersOf p' = workersOf p := by
  refine h.reachable.induction (P := fun q => workersOf q = workersOf p) rfl ?_
  intro q l q' hq hs
  have := total_step (f := fun t : Pc μ => t.worker.toNat) (g := fun _ : PoolState μ δ => 0)
    (h := fun _ => workersOf p) (fun _ _ _ hv => by rw [wake_worker hv])
    (fun i t e s' t' d _ hact => by rw [hact.worker]) hq hs
  exact this

/-- Nothing is on its way. -/
structure Drained (p : Threads μ δ) : Prop where
  queued : p.shared.queued = []
  toPost : ∀ t ∈ p.threads, t.toPost = []
  inHand : ∀ t ∈ p.threads, t.inHand = []

/-- Beside a thread that has left the destructor there are stopped workers, and threads
that are outside. -/
theorem Apart.beside_destroyed {u : Pc μ} (ha : Apart .destroyed u) (hu : Own c s u)
    (hs : s.alive = false) : u.toPost = [] ∧ u.inHand = [] ∧ (u.worker = true → u = .stopped) := by
  have hstop := ha.left rfl
  have hd := ha.one rfl
  have hi : u.inside = false := by
    cases h : u.inside with
    | false => rfl
    | true => simp [hu.alive h] at hs
  cases u with
  | posting m | waiting m | discarding m =>
      cases m with
      | terminate => cases hd
      | _ => cases hi
  | dequeued | handling => cases hstop rfl
  | _ => exact ⟨rfl, rfl, hstop⟩

/-- **After the destructor nothing is on its way.** -/
theorem drained_of_destroyed (hp : (outline c cap).Holds p)
    (he : Pool.total Pc.ending p.threads + p.shared.endings = p.shared.turns)
    (hn : workersOf p = c.workers) (hd : .destroyed ∈ p.threads) : Drained p := by
  have hown := hp.own _ hd
  have halive := hown.dead rfl
  have hturns := hown.turns (Or.inr rfl)
  obtain ⟨i, hi⟩ := List.mem_iff_getElem?.mp hd
  have hbeside : ∀ t ∈ p.threads,
      t.toPost = [] ∧ t.inHand = [] ∧ (t.worker = true → t = .stopped) := by
    intro t ht
    obtain ⟨j, hj⟩ := List.mem_iff_getElem?.mp ht
    by_cases hij : i = j
    · subst hij
      obtain rfl : t = .destroyed := Option.some.inj (hj.symm.trans hi)
      exact ⟨rfl, rfl, nofun⟩
    · exact (hp.apart i j _ t hij hi hj).beside_destroyed (hp.own t ht) halive
  refine ⟨?_, fun t ht => (hbeside t ht).1, fun t ht => (hbeside t ht).2.1⟩
  -- All workers have stopped, so that every message that ends one was handled.
  have hle : workersOf p ≤ Pool.total Pc.ending p.threads := by
    refine Pool.total_le_total fun t ht => ?_
    cases hworker : t.worker with
    | false => exact Nat.zero_le _
    | true => simp [(hbeside t ht).2.2 hworker, Pc.ending]
  have hzero : p.shared.endings = 0 := by omega
  by_contra hq
  have hlast := List.getLast?_eq_some_getLast hq
  have hends := hown.last trivial _ hlast
  have hpos : 0 < p.shared.endings :=
    List.countP_pos_iff.mpr ⟨_, List.getLast_mem hq, hends⟩
  omega

/-! ## A run -/

/-- A step that notifies nobody. -/
theorem step_quiet {i : ℕ} (ht : p.threads[i]? = some t)
    (h : Act c (p.threads.eraseIdx i) p.shared t e s' t' none) :
    Step c p (some (i, e)) ⟨s', p.threads.set i t'⟩ := .step (.mk (.mk ht h) (.quiet _))

theorem step_unheard {i : ℕ} {v : Cv} (ht : p.threads[i]? = some t)
    (h : Act c (p.threads.eraseIdx i) p.shared t e s' t' (some v))
    (hn : ∀ u ∈ p.threads.set i t', wake v u = none) :
    Step c p (some (i, e)) ⟨s', p.threads.set i t'⟩ := .step (.mk (.mk ht h) (.unheard hn))

/-- A logger with one worker, which waits for room and appends to a list. -/
def appending : Loggers ℕ (List ℕ) where
  policy := fun p => p = .block
  sink := fun msg d d' => d' = d ++ [msg]
  flush := fun d d' => d' = d
  workers := 1

/-- A line is logged, and the pool destroyed. -/
def closing : List (Option (ℕ × Event ℕ)) :=
  [some (1, .call (.log 7)), some (1, .push (.log 7) none), some (1, .tau),
    some (0, .take (.log 7)), some (0, .tau), some (0, .handle (.log 7)), some (1, .destroy),
    some (1, .call .terminate), some (1, .push .terminate none), some (1, .tau), some (1, .tau),
    some (0, .take .terminate), some (0, .tau), some (0, .handle .terminate), some (1, .tau)]

/-- The queue of a run: two messages go through it. -/
theorem two_messages : ∃ q q' : CircularQ (AsyncMsg ℕ),
    ((new 1).pushBack (.log 7)).popFront = some q ∧ (q.pushBack .terminate).popFront = some q' ∧
      q.full = false ∧ (q.pushBack .terminate).empty = false ∧
      (q.pushBack .terminate).front = some .terminate :=
  ⟨_, _, rfl, rfl, rfl, rfl, rfl⟩

theorem path_closing (c : Loggers ℕ δ) (sinks : δ) {d : δ} (hone : c.workers = 1)
    (hpolicy : c.policy .block) (hsink : c.sink 7 sinks d) :
    ∃ p, Path (Step c) (start c 1 1 sinks) closing p ∧ p.threads = [.stopped, .destroyed] ∧
      p.shared.sinks = d := by
  obtain ⟨q, q', hq, hq', hfull, hempty, hfront⟩ := two_messages
  have hfull₀ : (new 1 : CircularQ (AsyncMsg ℕ)).full = false := rfl
  have hempty₀ : ((new 1 : CircularQ (AsyncMsg ℕ)).pushBack (.log 7)).empty = false := rfl
  have hfront₀ : ((new 1 : CircularQ (AsyncMsg ℕ)).pushBack (.log 7)).front = some (.log 7) := rfl
  have hstart : start c 1 1 sinks =
      ⟨⟨new 1, none, 0, true, 0, [], sinks⟩, [.dequeuing, .outside]⟩ := by
    rw [start, hone]
    rfl
  rw [hstart]
  refine ⟨_, .cons (step_quiet rfl (.log rfl hpolicy)) <|
    .cons (step_quiet rfl (.enqueue hfull₀)) <|
    .cons (step_unheard rfl .notifyPush ?_) <|
    .cons (step_quiet rfl (.dequeue hempty₀ hfront₀ hq)) <|
    .cons (step_unheard rfl .notifyPop ?_) <| .cons (step_quiet rfl (.handleLog hsink)) <|
    .cons (step_quiet rfl (.destroy rfl ?_)) <|
    .cons (step_quiet rfl (.terminate (Nat.zero_lt_one.trans_eq hone.symm))) <|
    .cons (step_quiet rfl (.enqueue hfull)) <| .cons (step_unheard rfl .notifyPush ?_) <|
    .cons (step_quiet rfl (.endLoop (Nat.not_lt.mpr hone.le))) <|
    .cons (step_quiet rfl (.dequeue hempty hfront hq')) <|
    .cons (step_unheard rfl .notifyPop ?_) <| .cons (step_quiet rfl .handleTerminate) <|
    .single (step_quiet rfl (.join ?_)), rfl, rfl⟩
  · simp [wake, Pc.after]
  · simp [wake, Pc.after]
  · simp [Pc.inside]
  · simp [wake, Pc.after]
  · simp [wake, Pc.after]
  · simp [Pc.worker]

/-! ## Whole runs -/

section Start
variable [Inhabited μ]

theorem queued_start (hcap : cap + 1 < 2 ^ 64) : (start c cap threads sinks).shared.queued = [] :=
  (keeps_new (α := AsyncMsg μ) hcap).items

theorem mem_start {t : Pc μ} (ht : t ∈ (start c cap threads sinks).threads) :
    t = .dequeuing ∨ t = .outside := by
  simp only [start, List.mem_append, List.mem_replicate] at ht
  exact ht.imp And.right And.right

theorem total_start (f : Pc μ → ℕ) : Pool.total f (start c cap threads sinks).threads =
    c.workers * f .dequeuing + threads * f .outside := by
  have happend : ∀ ts us : List (Pc μ),
      Pool.total f (ts ++ us) = Pool.total f ts + Pool.total f us := by
    intro ts us
    induction ts with
    | nil => simp [Pool.total]
    | cons t ts ih => simp only [List.cons_append, Pool.total, ih, Nat.add_assoc]
  have hreplicate : ∀ (n : ℕ) (t : Pc μ), Pool.total f (List.replicate n t) = n * f t := by
    intro n t
    induction n with
    | zero => simp [Pool.total]
    | succ n ih => rw [List.replicate_succ, Pool.total, ih, Nat.succ_mul, Nat.add_comm]
  rw [start, happend, hreplicate, hreplicate]

theorem getD_start {β : Type} (f : Pc μ → List β) (hw : f .dequeuing = []) (ho : f .outside = [])
    (i : ℕ) : (((start c cap threads sinks).threads[i]?).map f).getD [] = [] := by
  cases ht : (start c cap threads sinks).threads[i]? with
  | none => rfl
  | some t =>
      rcases mem_start (List.mem_of_getElem? ht) with rfl | rfl
      · simpa using hw
      · simpa using ho

theorem drained_of_path (hw : 0 < c.workers) (hcap : cap + 1 < 2 ^ 64)
    (h : Path (Step c) (start c cap threads sinks) ls p) (hd : .destroyed ∈ p.threads) :
    Drained p := by
  have hp : (outline c cap).Holds (start c cap threads sinks) := outline_start hcap
  refine drained_of_destroyed (outline_of_path hw hp h) (ends_of_path hw hp ?_ h) ?_ hd
  · rw [total_start, PoolState.endings, queued_start hcap]
    simp [Pc.ending, start]
  · rw [workersOf_of_path h, workersOf, total_start]
    simp [Pc.worker]

/-- All that went into the queue has left it, in order. -/
theorem leaves_eq_pushes (hcap : cap + 1 < 2 ^ 64)
    (h : Path (Step c) (start c cap threads sinks) ls p) (hp : Drained p) :
    (events ls).flatMap Event.leaves = (events ls).flatMap Event.pushes := by
  have hpos : 0 < (start c cap threads sinks).shared.q_.max_items_ := by
    rw [(outline_start hcap).inv.max_items]
    omega
  have hq := queue_in_order hpos h
  rw [queued_start hcap, hp.queued, List.nil_append, List.append_nil] at hq
  exact hq.symm

/-- All that was taken has been handled. -/
theorem handles_perm_takes (h : Path (Step c) (start c cap threads sinks) ls p) (hp : Drained p) :
    ((events ls).flatMap Event.handles).Perm ((events ls).flatMap Event.takes) := by
  have hhands := hands_of_path h
  have hstart : (start c cap threads sinks).threads.flatMap Pc.inHand = [] := by
    rw [List.flatMap_eq_nil_iff]
    intro t ht
    rcases mem_start ht with rfl | rfl <;> rfl
  rw [hstart, List.flatMap_eq_nil_iff.mpr hp.inHand, List.nil_append, List.append_nil] at hhands
  exact hhands.symm

/-- What a thread began to post it has posted, in order. -/
theorem settles_eq_calls (h : Path (Step c) (start c cap threads sinks) ls p) (hp : Drained p)
    (i : ℕ) : (eventsOf i ls).flatMap Event.settles = (eventsOf i ls).flatMap Event.calls := by
  have hposts := thread_in_order h i
  have hend : ((p.threads[i]?).map Pc.toPost).getD [] = [] := by
    cases ht : p.threads[i]? with
    | none => rfl
    | some t => simpa using hp.toPost t (List.mem_of_getElem? ht)
  rw [getD_start _ rfl rfl, hend, List.nil_append, List.append_nil] at hposts
  exact hposts.symm

/-- **The pool drains.**  When its destructor has returned, all messages that were put into
the queue have left it in the order in which they went in, those that were not overrun have
been handled, each once, and what each thread posted went in in its order, or was discarded. -/
theorem pool_drains (hw : 0 < c.workers) (hcap : cap + 1 < 2 ^ 64)
    (h : Path (Step c) (start c cap threads sinks) ls p) (hd : .destroyed ∈ p.threads) :
    (events ls).flatMap Event.leaves = (events ls).flatMap Event.pushes ∧
      ((events ls).flatMap Event.handles).Perm ((events ls).flatMap Event.takes) ∧
      ∀ i, (eventsOf i ls).flatMap Event.settles = (eventsOf i ls).flatMap Event.calls := by
  have hp := drained_of_path hw hcap h hd
  exact ⟨leaves_eq_pushes hcap h hp, handles_perm_takes h hp, settles_eq_calls h hp⟩

/-- One line, and the message that ends the worker. -/
theorem pool_drains_closing : ∃ p, Path (Step appending) (start appending 1 1 []) closing p ∧
    ((events closing).flatMap Event.handles).Perm ((events closing).flatMap Event.takes) := by
  obtain ⟨p, h, hthreads, -⟩ := path_closing appending [] rfl rfl rfl
  exact ⟨p, h, (pool_drains (by decide) (by decide) h (by simp [hthreads])).2.1⟩

end Start

/-! ## Sinks -/

/-- What handling a message does to the sinks. -/
def Sinks (c : Loggers μ δ) (d : δ) : AsyncMsg μ → δ → Prop
  | .log msg, d' => c.sink msg d d'
  | .flush _, d' => c.flush d d'
  | .terminate, d' => d' = d

theorem Act.feeds (h : Act c os s t e s' t' d) : Path (Sinks c) s.sinks e.handles s'.sinks := by
  cases h with
  | handleLog hd => exact .single hd
  | handleFlush hd => exact .single hd
  | handleTerminate => exact .single rfl
  | enqueue | enqueueNowait | enqueueIfHaveRoom | overrun =>
      rw [sinks_push]
      exact .nil _
  | discard =>
      rw [sinks_drop]
      exact .nil _
  | _ => exact .nil _

/-- **The sinks get the messages one after the other**, in the order in which they are handled. -/
theorem sinks_of_path (h : Path (Step c) p ls p') :
    Path (Sinks c) p.shared.sinks ((events ls).flatMap Event.handles) p'.shared.sinks :=
  project_shared (f := PoolState.sinks) (fun _ _ _ _ _ _ _ hact => hact.feeds) h

/-! ## Loggers that wait for room -/

/-- The thread waits for room if there is none. -/
def Pc.Waits : Pc μ → Prop
  | posting _ p => p = .block
  | discarding _ => False
  | _ => True

/-- The step loses no message. -/
def Event.Lossless (e : Event μ) : Prop := e.leaves = e.takes ∧ e.settles = e.pushes

theorem Act.waits (hp : ∀ p, c.policy p → p = .block) (ht : t.Waits) (h : Act c os s t e s' t' d) :
    t'.Waits ∧ e.Lossless := by
  cases h with
  | log _ hpolicy | flush _ hpolicy => exact ⟨hp _ hpolicy, rfl, rfl⟩
  | enqueueNowait | overrun | enqueueIfHaveRoom | noRoom => cases ht
  | discard => exact ht.elim
  | notifyPush =>
      rename_i m
      cases m with
      | _ => exact ⟨trivial, rfl, rfl⟩
  | terminate => exact ⟨rfl, rfl, rfl⟩
  | _ => exact ⟨trivial, rfl, rfl⟩

theorem wake_waits {v : Cv} {u u' : Pc μ} (h : wake v u = some u') (_ : u.Waits) : u'.Waits := by
  rcases wake_eq_some h with ⟨m, rfl, rfl, rfl⟩ | ⟨rfl, rfl, rfl⟩
  · rfl
  · trivial

theorem lossless_of_path [Inhabited μ] (hpolicy : ∀ p, c.policy p → p = .block)
    (h : Path (Step c) (start c cap threads sinks) ls p) : ∀ e ∈ events ls, e.Lossless := by
  refine forall_events (fun _ _ _ _ _ _ _ ht hact => hact.waits hpolicy ht)
    (fun _ _ _ => wake_waits) ?_ h
  intro t ht
  rcases mem_start ht with rfl | rfl
  · trivial
  · trivial

/-- With one worker, and loggers that wait for room, what goes into the queue is handled, in
order. -/
theorem handles_eq_pushes [Inhabited μ] (hpolicy : ∀ p, c.policy p → p = .block)
    (hone : c.workers = 1) (hcap : cap + 1 < 2 ^ 64)
    (h : Path (Step c) (start c cap threads sinks) ls p) (hd : .destroyed ∈ p.threads) :
    (events ls).flatMap Event.handles = (events ls).flatMap Event.pushes := by
  have hdrained := drained_of_path (by omega) hcap h hd
  -- The worker is the first thread.
  have hrole : ∀ j t, (start c cap threads sinks).threads[j]? = some t → j ≠ 0 →
      t.worker = false := by
    intro j t ht hj
    rw [start, hone, List.replicate_one, List.singleton_append, List.getElem?_cons,
      if_neg hj] at ht
    rw [List.eq_of_mem_replicate (List.mem_of_getElem? ht)]
    rfl
  have htakes : (events ls).flatMap Event.takes = (eventsOf 0 ls).flatMap Event.takes :=
    events_eq_eventsOf (fun _ _ _ _ _ _ _ hact => ⟨hact.worker, hact.takes_of_not_worker⟩)
      (fun _ _ _ => wake_worker) hrole h
  have hhandles : (events ls).flatMap Event.handles = (eventsOf 0 ls).flatMap Event.handles :=
    events_eq_eventsOf (fun _ _ _ _ _ _ _ hact => ⟨hact.worker, hact.handles_of_not_worker⟩)
      (fun _ _ _ => wake_worker) hrole h
  have hworker := worker_in_order h 0
  have hend : ((p.threads[0]?).map Pc.inHand).getD [] = [] := by
    cases ht : p.threads[0]? with
    | none => rfl
    | some t => simpa using hdrained.inHand t (List.mem_of_getElem? ht)
  rw [getD_start _ rfl rfl, hend, List.nil_append, List.append_nil] at hworker
  calc (events ls).flatMap Event.handles = (events ls).flatMap Event.takes := by
        rw [hhandles, htakes, hworker]
    _ = (events ls).flatMap Event.leaves :=
        List.flatMap_congr fun e he => (lossless_of_path hpolicy h e he).1.symm
    _ = (events ls).flatMap Event.pushes := leaves_eq_pushes hcap h hdrained

/-- Loggers that wait for room post what they were called with. -/
theorem pushes_eq_calls [Inhabited μ] (hpolicy : ∀ p, c.policy p → p = .block)
    (h : Path (Step c) (start c cap threads sinks) ls p) (hp : Drained p) (i : ℕ) :
    (eventsOf i ls).flatMap Event.pushes = (eventsOf i ls).flatMap Event.calls := by
  rw [← settles_eq_calls h hp i]
  exact List.flatMap_congr fun e he => (lossless_of_path hpolicy h e (mem_events he)).2.symm

/-- **The log is complete.**  With one worker, and loggers that wait for room, the sinks
have got, when the destructor of the pool has returned, all that was posted, one after the
other in the order in which it went into the queue, and what each thread posted went in in
its order. -/
theorem log_complete [Inhabited μ] (hpolicy : ∀ p, c.policy p → p = .block) (hone : c.workers = 1)
    (hcap : cap + 1 < 2 ^ 64) (h : Path (Step c) (start c cap threads sinks) ls p)
    (hd : .destroyed ∈ p.threads) :
    Path (Sinks c) sinks ((events ls).flatMap Event.pushes) p.shared.sinks ∧
      ∀ i, (eventsOf i ls).flatMap Event.pushes = (eventsOf i ls).flatMap Event.calls := by
  have hdrained := drained_of_path (by omega) hcap h hd
  have hhandles := handles_eq_pushes hpolicy hone hcap h hd
  exact ⟨hhandles ▸ sinks_of_path h, pushes_eq_calls hpolicy h hdrained⟩

/-- The line that was logged is in the sink. -/
theorem log_complete_closing : ∃ p, Path (Step appending) (start appending 1 1 []) closing p ∧
    Path (Sinks appending) [] [.log 7, .terminate] p.shared.sinks := by
  obtain ⟨p, h, hthreads, -⟩ := path_closing appending [] rfl rfl rfl
  exact ⟨p, h, (log_complete (fun _ hp => hp) rfl (by decide) h (by simp [hthreads])).1⟩

end CameraService.Spdlog
