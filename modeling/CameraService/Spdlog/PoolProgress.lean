import CameraService.Spdlog.PoolOrder

/-!
# The threads of the log come to rest

A thread that waits for room, or for a message, sleeps on a condition variable that wakes
one sleeper at a time.  No wakeup is lost, whatever the number of threads and the order of
their steps: while a thread waits for room, the room there is has been announced, or is
going to be, and so are the messages while a worker sleeps.

So the pool comes to rest, once nobody logs anything new, with nothing on its way.  A
destructor that has begun has returned then.  One thing can go wrong: a thread that
flushes, and whose message was overrun, waits until another message is written over it.

## Main definitions

* `Event.fresh`, `Works` — the steps that carry on with what was begun.
* `work_ends` — there are only finitely many of them.
* `attended_of_path` — no wakeup is lost.
* `located_of_path` — where the message of a flush is.
* `pool_rests` — the states in which no such step is possible.
-/

namespace CameraService.Spdlog

open Transition Monitor CircularQ PoolState

variable {μ δ : Type} {c : Loggers μ δ} {os : List (Pc μ)} {s s' : PoolState μ δ} {t t' : Pc μ}
  {e : Event μ} {d : Option Cv} {cap threads : ℕ} {sinks : δ} {p p' : Threads μ δ}
  {ls : List (Option (ℕ × Event μ))}

/-- The step begins something: a thread logs, or the destructor starts. -/
def Event.fresh : Event μ → Bool
  | call .terminate => false
  | call _ | refuse _ | destroy => true
  | _ => false

/-- A step that carries on with what was begun. -/
def Works (c : Loggers μ δ) (p : Threads μ δ) (l : ℕ × Event μ) (p' : Threads μ δ) : Prop :=
  Monitor.Step (Act c) wake p l p' ∧ l.2.fresh = false

/-! ## The work is finite -/

/-- How much a thread has left to do. -/
def Pc.weight : Pc μ → ℕ
  | outside | destroyed | idle | stopped => 0
  | awaiting _ | joining | dequeuing => 1
  | destroying | handling _ => 2
  | discarding _ => 3
  | posted _ | dequeued _ => 4
  | waiting _ => 8
  | posting _ _ => 9

/-- How much is left to do for the messages in the queue, and for the destructor. -/
def PoolState.weight (c : Loggers μ δ) (s : PoolState μ δ) : ℕ :=
  4 * s.q_.size + 8 * (c.workers - s.turns)

theorem weight_after (m : AsyncMsg μ) : (Pc.after m).weight ≤ 2 := by
  cases m with
  | _ => simp [Pc.after, Pc.weight]

/-- Pushing an item makes a queue longer by one at most. -/
theorem size_pushBack_le {α : Type} (q : CircularQ α) (x : α) :
    (q.pushBack x).size ≤ q.size + 1 := by
  by_cases hm : 0 < q.max_items_
  · have hm' : 0 < (q.pushBack x).max_items_ := by rwa [max_items_pushBack]
    rw [← length_items hm', ← length_items hm]
    cases hf : q.full with
    | false => simp [items_pushBack hm hf]
    | true => simp [items_pushBack_full hm hf]
  · simp [pushBack, hm]

theorem size_popFront {α : Type} {q q' : CircularQ α} (he : q.empty = false)
    (hq : q.popFront = some q') : q'.size + 1 = q.size := by
  have hm : 0 < q.max_items_ := by
    unfold popFront at hq
    split at hq
    · assumption
    · cases hq
  have hne : q.items ≠ [] := fun h => by simp [(empty_iff hm).mpr h] at he
  obtain ⟨q₁, hq₁, hmax, hitems, -⟩ := popFront_eq hm hne
  obtain rfl : q' = q₁ := Option.some.inj (hq.symm.trans hq₁)
  rw [← length_items (hmax ▸ hm), ← length_items hm, hitems, List.length_tail]
  have := List.length_pos_iff.mpr hne
  omega

theorem Act.weight_lt (h : Act c os s t e s' t' d) (he : e.fresh = false) :
    s'.weight c + t'.weight + (if d.isSome then 1 else 0) < s.weight c + t.weight := by
  cases h with
  | log | flush | refuse | destroy => cases he
  | enqueue | enqueueNowait | enqueueIfHaveRoom =>
      rename_i m _
      have := size_pushBack_le s.q_ m
      simp [PoolState.weight, Pc.weight]
      omega
  | overrun =>
      rename_i m _ _ _
      have := size_pushBack_le s.q_ m
      simp [PoolState.weight, Pc.weight]
      omega
  | notifyPush =>
      rename_i m
      have := weight_after m
      change s.weight c + (Pc.after m).weight + 1 < s.weight c + 4
      omega
  | discard =>
      rename_i m
      have := weight_after m
      have hsame : ({ s with discard_counter_ := s.discard_counter_ + 1 }.drop m).weight c =
          s.weight c := by simp [PoolState.weight]
      rw [hsame]
      change s.weight c + (Pc.after m).weight + 0 < s.weight c + 3
      omega
  | terminate hi =>
      simp [PoolState.weight, Pc.weight]
      omega
  | dequeue hemp hf hq =>
      have := size_popFront hemp hq
      simp [PoolState.weight, Pc.weight]
      omega
  | handleLog | handleFlush =>
      simp [PoolState.weight, Pc.weight]
  | _ => simp [Pc.weight]

theorem wake_weight {v : Cv} {u u' : Pc μ} (h : wake v u = some u') : u'.weight ≤ u.weight + 1 := by
  rcases wake_eq_some h with ⟨m, rfl, rfl, rfl⟩ | ⟨rfl, rfl, rfl⟩
  · exact Nat.le_refl _
  · exact Nat.le_refl _

/-- **What was begun ends**: there is no infinite run without new messages. -/
theorem work_ends (f : ℕ → Threads μ δ) : ¬ ∀ n, ∃ l, Works c (f n) l (f (n + 1)) := by
  refine no_infinite_run (r := (· < ·))
    (m := fun p => p.shared.weight c + Pool.total Pc.weight p.threads) ?_ f
  intro p l p' h
  have hs : Monitor.Step (fun os s t e s' t' d => Act c os s t e s' t' d ∧ e.fresh = false) wake
      p l p' := by
    obtain ⟨hst, hl⟩ := h
    obtain @⟨q, _, _, d, hst, hd⟩ := hst
    obtain @⟨i, t, t', e, s', ht, hst⟩ := hst
    exact .mk (.mk ht ⟨hst, hl⟩) hd
  exact weight_lt (fun _ _ _ => wake_weight)
    (fun _ _ _ _ _ _ _ hact => hact.1.weight_lt hact.2) hs

/-! ## No wakeup is lost -/

/-- The thread is awake to take room, or is going to announce some. -/
def Pc.seeksRoom : Pc μ → ℕ
  | posting _ _ | dequeued _ => 1
  | _ => 0

/-- The thread is awake to take a message, or is going to announce one. -/
def Pc.seeksMessage : Pc μ → ℕ
  | dequeuing | posted _ => 1
  | _ => 0

theorem wake_after (v : Cv) (m : AsyncMsg μ) : wake v (Pc.after m) = none := by
  cases m with
  | _ => cases v <;> rfl

theorem room_credits : Credits wake .pop (Pc.seeksRoom (μ := μ)) where
  awake := by
    intro v u u' h
    rcases wake_eq_some h with ⟨m, rfl, rfl, rfl⟩ | ⟨rfl, rfl, rfl⟩ <;> rfl
  mono := by
    intro v u u' h
    rcases wake_eq_some h with ⟨m, rfl, rfl, rfl⟩ | ⟨rfl, rfl, rfl⟩ <;> simp [Pc.seeksRoom]
  gain := by
    intro u u' h
    rcases wake_eq_some h with ⟨m, -, rfl, rfl⟩ | ⟨hv, -⟩
    · exact Nat.le_refl _
    · cases hv

theorem message_credits : Credits wake .push (Pc.seeksMessage (μ := μ)) where
  awake := by
    intro v u u' h
    rcases wake_eq_some h with ⟨m, rfl, rfl, rfl⟩ | ⟨rfl, rfl, rfl⟩ <;> rfl
  mono := by
    intro v u u' h
    rcases wake_eq_some h with ⟨m, rfl, rfl, rfl⟩ | ⟨rfl, rfl, rfl⟩ <;> simp [Pc.seeksMessage]
  gain := by
    intro u u' h
    rcases wake_eq_some h with ⟨m, hv, -⟩ | ⟨-, rfl, rfl⟩
    · cases hv
    · exact Nat.le_refl _

/-- A push takes room, and brings a message. -/
theorem room_push {m : AsyncMsg μ} {lost : Option (AsyncMsg μ)} (hm : 0 < s.q_.max_items_) :
    ((s.push m lost).room = 0 ∨ (s.push m lost).room + 1 ≤ s.room) ∧
      (s.push m lost).queued.length ≤ s.queued.length + 1 := by
  have hlen := length_queued hm
  cases hf : s.q_.full with
  | false =>
      have hroom : s.room ≠ 0 := fun h => by simp [(full_iff_room hm).mpr h] at hf
      have hq : (s.push m lost).queued = s.queued ++ [m] := queued_push hm hf
      simp only [room, q_push, max_items_pushBack, hq, List.length_append,
        List.length_singleton] at hroom ⊢
      omega
  | true =>
      have hroom := (full_iff_room hm).mp hf
      have hq : (s.push m lost).queued = (s.queued ++ [m]).tail := queued_push_full hm hf
      simp only [room, q_push, max_items_pushBack, hq, List.length_tail, List.length_append,
        List.length_singleton] at hroom ⊢
      omega

/-- Taking a message makes room. -/
theorem room_dequeue {m : AsyncMsg μ} {q : CircularQ (AsyncMsg μ)} (he : s.q_.empty = false)
    (hf : s.q_.front = some m) (hq : s.q_.popFront = some q) :
    ({ s with q_ := q } : PoolState μ δ).room ≤ s.room + 1 ∧
      ({ s with q_ := q } : PoolState μ δ).queued.length + 1 = s.queued.length := by
  obtain ⟨hqueued, hmax⟩ := queued_dequeue he hf hq
  simp only [room, hqueued, hmax, List.length_cons]
  change s.q_.max_items_ - 1 - q.items.length ≤ _ ∧ q.items.length + 1 = _
  omega

theorem room_pays : Pays (Act c) wake .pop PoolState.room Pc.seeksRoom
    fun s => 0 < s.q_.max_items_ where
  sleep := by
    intro os s t e s' t' d hm h hw
    cases h with
    | wait hf => exact (full_iff_room hm).mp hf
    | discard | notifyPush => exact absurd (wake_after .pop _) hw
    | _ => exact absurd rfl hw
  pay := by
    intro os s t e s' t' d hm h h0
    cases h with
    | wait hf | noRoom hf => exact absurd ((full_iff_room hm).mp hf) h0
    | enqueue | enqueueNowait | enqueueIfHaveRoom | overrun =>
        rcases (room_push hm).1 with hr | hr
        · exact absurd hr h0
        · simpa [Pc.seeksRoom] using hr
    | dequeue he hf hq => simpa [Pc.seeksRoom] using (room_dequeue he hf hq).1
    | _ => simp [Pc.seeksRoom, room, queued]

theorem message_pays : Pays (Act c) wake .push (fun s => s.queued.length) Pc.seeksMessage
    fun s => 0 < s.q_.max_items_ where
  sleep := by
    intro os s t e s' t' d hm h hw
    cases h with
    | sleep he => exact List.length_eq_zero_iff.mpr ((empty_iff hm).mp he)
    | discard | notifyPush => exact absurd (wake_after .push _) hw
    | _ => exact absurd rfl hw
  pay := by
    intro os s t e s' t' d hm h h0
    cases h with
    | sleep he => exact absurd (List.length_eq_zero_iff.mpr ((empty_iff hm).mp he)) h0
    | enqueue | enqueueNowait | enqueueIfHaveRoom | overrun =>
        simpa [Pc.seeksMessage] using (room_push hm).2
    | dequeue he hf hq =>
        have := (room_dequeue he hf hq).2
        simp only [Pc.seeksMessage]
        omega
    | _ => simp [Pc.seeksMessage, queued]

/-- The ring has a slot after each step. -/
theorem pos_of_step {l : Option (ℕ × Event μ)} (hm : 0 < p.shared.q_.max_items_)
    (hs : Step c p l p') : 0 < p'.shared.q_.max_items_ := by
  cases hs with
  | spurious hw => rwa [hw.shared_eq]
  | step hs =>
      obtain ⟨t, t', d, -, hst⟩ := hs.acts
      rwa [(hst.passes hm).1]

/-- Nobody sleeps while there is something to take that nobody was told of. -/
structure Awake (p : Threads μ δ) : Prop where
  room : Attended wake .pop PoolState.room Pc.seeksRoom p
  message : Attended wake .push (fun s => s.queued.length) Pc.seeksMessage p

/-- **No wakeup is lost.** -/
theorem attended_of_path (hm : 0 < p.shared.q_.max_items_) (hp : Awake p)
    (h : Path (Step c) p ls p') : Awake p' := by
  refine (h.reachable.induction (P := fun q => 0 < q.shared.q_.max_items_ ∧ Awake q)
    ⟨hm, hp⟩ ?_).2
  intro q l q' hq hs
  obtain ⟨hm, hq⟩ := hq
  exact ⟨pos_of_step hm hs, attended_step room_credits room_pays hm hq.room hs,
    attended_step message_credits message_pays hm hq.message hs⟩

/-! ## Where the message of a flush is -/

variable {k : ℕ}

/-- The promise is kept, or broken. -/
def PoolState.Settled (s : PoolState μ δ) (k : ℕ) : Prop := ∃ b, s.promises[k]? = some (some b)

/-- The promise that comes with the message. -/
def AsyncMsg.promise : AsyncMsg μ → Option ℕ
  | flush k => some k
  | _ => none

/-- The promise of the flush that the thread is at. -/
def Pc.promise : Pc μ → Option ℕ
  | posting m _ | waiting m | posted m | discarding m => m.promise
  | awaiting k => some k
  | _ => none

/-- The promise that the thread is going to wait for, or waits for. -/
def Pc.owed : Pc μ → Option ℕ
  | posted m => m.promise
  | awaiting k => some k
  | _ => none

theorem AsyncMsg.eq_flush {m : AsyncMsg μ} (h : m.promise = some k) : m = .flush k := by
  cases m with
  | flush j => rw [Option.some.inj h]
  | _ => cases h

/-- The message is on its way, or its promise is settled. -/
def Found (s : PoolState μ δ) (hand : List (AsyncMsg μ)) (k : ℕ) : Prop :=
  s.Settled k ∨ .flush k ∈ s.queued ∨ s.stale = some (.flush k) ∨ .flush k ∈ hand

theorem settled_set {s : PoolState μ δ} {j : ℕ} {b : Bool} (h : s.Settled k) :
    ({ s with promises := s.promises.set j (some b) } : PoolState μ δ).Settled k := by
  obtain ⟨b', hb⟩ := h
  by_cases hj : j = k
  · subst hj
    exact ⟨b, List.getElem?_set_self (List.getElem?_eq_some_iff.mp hb).1⟩
  · exact ⟨b', by rwa [List.getElem?_set_ne hj]⟩

theorem settled_drop {m : AsyncMsg μ} (h : s.Settled k) : (s.drop m).Settled k := by
  cases m with
  | flush j => exact settled_set h
  | _ => exact h

theorem settled_drop_flush (hk : k < s.promises.length) : (s.drop (.flush k)).Settled k :=
  ⟨false, List.getElem?_set_self hk⟩

theorem length_promises_drop (s : PoolState μ δ) (m : AsyncMsg μ) :
    (s.drop m).promises.length = s.promises.length := by
  cases m with
  | flush j => exact List.length_set
  | _ => rfl

/-- Promises are made, not taken back. -/
theorem Act.promises (h : Act c os s t e s' t' d) :
    s.promises.length ≤ s'.promises.length ∧ (s.Settled k → s'.Settled k) := by
  cases h with
  | flush =>
      refine ⟨by simp, ?_⟩
      intro hs
      obtain ⟨b, hb⟩ := hs
      exact ⟨b, by rw [List.getElem?_append_left (List.getElem?_eq_some_iff.mp hb).1, hb]⟩
  | enqueue | enqueueNowait | enqueueIfHaveRoom | overrun =>
      unfold PoolState.push
      cases s.stale with
      | none => exact ⟨Nat.le_refl _, id⟩
      | some m => exact ⟨(length_promises_drop s m).ge, settled_drop⟩
  | discard =>
      exact ⟨(length_promises_drop { s with discard_counter_ := s.discard_counter_ + 1 } _).ge,
        settled_drop (s := { s with discard_counter_ := s.discard_counter_ + 1 })⟩
  | handleFlush => exact ⟨List.length_set.ge, settled_set⟩
  | _ => exact ⟨Nat.le_refl _, id⟩

theorem settled_push {m : AsyncMsg μ} {lost : Option (AsyncMsg μ)} (hk : k < s.promises.length)
    (h : s.stale = some (.flush k)) : (s.push m lost).Settled k := by
  unfold PoolState.push
  rw [h]
  exact settled_drop_flush hk

/-- A message that is on its way stays on its way, until its promise is settled. -/
theorem Act.found (hm : 0 < s.q_.max_items_) (hk : k < s.promises.length)
    (h : Act c os s t e s' t' d) (hf : Found s t.inHand k ∨ .flush k ∈ e.pushes) :
    Found s' t'.inHand k := by
  have hpass := (h.passes hm).2
  have hqueue : ∀ {m : AsyncMsg μ}, m ∈ s.queued ∨ m ∈ e.pushes → m ∈ e.leaves ∨ m ∈ s'.queued := by
    intro m hq
    rw [← List.mem_append, ← hpass, List.mem_append]
    exact hq
  have hsettled := (h.promises (k := k)).2
  rcases hf with (hf | hf | hf | hf) | hf
  · exact Or.inl (hsettled hf)
  · rcases hqueue (Or.inl hf) with hl | hl
    · cases h with
      | overrun => exact Or.inr (Or.inr (Or.inl (by simpa [Event.leaves, eq_comm] using hl)))
      | dequeue => exact Or.inr (Or.inr (Or.inr hl))
      | _ => cases hl
    · exact Or.inr (Or.inl hl)
  · cases h with
    | enqueue | enqueueNowait | enqueueIfHaveRoom | overrun => exact Or.inl (settled_push hk hf)
    | discard => exact Or.inr (Or.inr (Or.inl (by simpa using hf)))
    | _ => exact Or.inr (Or.inr (Or.inl hf))
  · cases h with
    | notifyPop => exact Or.inr (Or.inr (Or.inr hf))
    | handleLog | handleTerminate => cases List.mem_singleton.mp hf
    | handleFlush =>
        cases List.mem_singleton.mp hf
        exact Or.inl ⟨true, List.getElem?_set_self hk⟩
    | _ => cases hf
  · rcases hqueue (Or.inr hf) with hl | hl
    · cases h with
      | overrun => exact Or.inr (Or.inr (Or.inl (by simpa [Event.leaves, eq_comm] using hl)))
      | enqueue | enqueueNowait | enqueueIfHaveRoom => cases hl
      | _ => cases hf
    · exact Or.inr (Or.inl hl)

/-- A promise that a thread goes to wait for was posted, or is broken. -/
theorem Act.owed (h : Act c os s t e s' t' d) (hk : t'.owed = some k)
    (hb : ∀ k, t.promise = some k → k < s.promises.length) :
    t.owed = some k ∨ (.flush k ∈ e.pushes ∧ t.promise = some k) ∨ s'.Settled k := by
  cases h with
  | enqueue | enqueueNowait | enqueueIfHaveRoom | overrun =>
      refine Or.inr (Or.inl ⟨?_, hk⟩)
      rw [AsyncMsg.eq_flush hk]
      exact List.mem_cons_self
  | discard =>
      rename_i m
      cases m with
      | flush j =>
          cases hk
          exact Or.inr (Or.inr (settled_drop_flush (hb _ rfl)))
      | _ => cases hk
  | notifyPush =>
      rename_i m
      cases m with
      | flush j => exact Or.inl hk
      | _ => cases hk
  | _ => cases hk

/-- The promises that the threads are at were made. -/
theorem Act.bound (h : Act c os s t e s' t' d) (hk : t'.promise = some k)
    (hb : t.promise = some k → k < s.promises.length) : k < s'.promises.length := by
  have hle := (h.promises (k := k)).1
  cases h with
  | flush =>
      cases hk
      simp
  | log | terminate => cases hk
  | discard | notifyPush =>
      rename_i m
      cases m with
      | flush j => exact Nat.lt_of_lt_of_le (hb hk) hle
      | _ => cases hk
  | wait | noRoom | enqueue | enqueueNowait | enqueueIfHaveRoom | overrun =>
      exact Nat.lt_of_lt_of_le (hb hk) hle
  | _ => cases hk

/-- Every thread that waits for a promise, or is going to, waits for a message that is on
its way, unless the promise is settled. -/
structure Promised (p : Threads μ δ) : Prop where
  bound : ∀ t ∈ p.threads, ∀ k, t.promise = some k → k < p.shared.promises.length
  located : ∀ t ∈ p.threads, ∀ k, t.owed = some k → Found p.shared (p.threads.flatMap Pc.inHand) k

theorem Pc.promise_of_owed (h : t.owed = some k) : t.promise = some k := by
  cases t with
  | posted | awaiting => exact h
  | _ => cases h

theorem Found.mono {h₁ h₂ : List (AsyncMsg μ)} (h : Found s h₁ k) (hsub : ∀ m ∈ h₁, m ∈ h₂) :
    Found s h₂ k :=
  h.imp_right fun h => h.imp_right fun h => h.imp_right fun h => hsub _ h

theorem Promised.woken {v : Cv} (hp : Promised p) (hw : Woken wake v p p') : Promised p' := by
  have hsub : ∀ m ∈ p.threads.flatMap Pc.inHand, m ∈ p'.threads.flatMap Pc.inHand := by
    obtain @⟨j, u, u', hu, hw⟩ := hw
    intro m hm
    rw [(Pool.flatMap_set_perm hu).mem_iff, wake_inHand hw]
    exact (Pool.flatMap_perm hu).mem_iff.mp hm
  have hthread : ∀ t' ∈ p'.threads, ∃ t ∈ p.threads, t'.promise = t.promise ∧ t'.owed = t.owed := by
    obtain @⟨j, u, u', hu, hw⟩ := hw
    intro t ht
    rcases (Pool.mem_set_iff hu).mp ht with rfl | ht
    · refine ⟨u, List.mem_of_getElem? hu, ?_⟩
      rcases wake_eq_some hw with ⟨m, rfl, rfl, rfl⟩ | ⟨rfl, rfl, rfl⟩ <;> exact ⟨rfl, rfl⟩
    · exact ⟨t, List.mem_of_mem_eraseIdx ht, rfl, rfl⟩
  constructor
  · intro t' ht' k hk
    obtain ⟨t, ht, hprom, -⟩ := hthread t' ht'
    rw [hw.shared_eq]
    exact hp.bound t ht k (hprom ▸ hk)
  · intro t' ht' k hk
    obtain ⟨t, ht, -, howed⟩ := hthread t' ht'
    rw [hw.shared_eq]
    exact (hp.located t ht k (howed ▸ hk)).mono hsub

/-- A message that was found is found after a step, whoever has it in hand. -/
theorem Found.acts {i : ℕ} (hm : 0 < p.shared.q_.max_items_) (hk : k < p.shared.promises.length)
    (ht : p.threads[i]? = some t)
    (hst : Act c (p.threads.eraseIdx i) p.shared t e s' t' d)
    (hf : Found p.shared (p.threads.flatMap Pc.inHand) k ∨ .flush k ∈ e.pushes) :
    Found s' ((p.threads.set i t').flatMap Pc.inHand) k := by
  have hmem : ∀ m, m ∈ (p.threads.set i t').flatMap Pc.inHand ↔
      m ∈ t'.inHand ++ (p.threads.eraseIdx i).flatMap Pc.inHand :=
    fun m => (Pool.flatMap_set_perm ht).mem_iff
  have hact := fun hf => (hst.found hm hk hf).mono fun m hm =>
    (hmem m).mpr (List.mem_append_left _ hm)
  rcases hf with (hf | hf | hf | hf) | hf
  · exact hact (Or.inl (Or.inl hf))
  · exact hact (Or.inl (Or.inr (Or.inl hf)))
  · exact hact (Or.inl (Or.inr (Or.inr (Or.inl hf))))
  · rcases List.mem_append.mp ((Pool.flatMap_perm ht).mem_iff.mp hf) with hf | hf
    · exact hact (Or.inl (Or.inr (Or.inr (Or.inr hf))))
    · exact Or.inr (Or.inr (Or.inr ((hmem _).mpr (List.mem_append_right _ hf))))
  · exact hact (Or.inr hf)

theorem Promised.acts {i : ℕ} (hm : 0 < p.shared.q_.max_items_) (hp : Promised p)
    (ht : p.threads[i]? = some t) (hst : Act c (p.threads.eraseIdx i) p.shared t e s' t' d) :
    Promised (⟨s', p.threads.set i t'⟩ : Threads μ δ) := by
  have htmem := List.mem_of_getElem? ht
  have hle := hst.promises (k := 0) |>.1
  constructor
  · intro u hu k hk
    rcases (Pool.mem_set_iff ht).mp hu with rfl | hu
    · exact hst.bound hk (hp.bound t htmem k)
    · exact Nat.lt_of_lt_of_le (hp.bound u (List.mem_of_mem_eraseIdx hu) k hk) hle
  · intro u hu k hk
    rcases (Pool.mem_set_iff ht).mp hu with rfl | hu
    · have hbound := hp.bound t htmem
      rcases hst.owed hk hbound with ht' | ⟨hpush, hprom⟩ | hset
      · have hk := hbound k (Pc.promise_of_owed ht')
        exact Found.acts hm hk ht hst (Or.inl (hp.located t htmem k ht'))
      · exact Found.acts hm (hbound k hprom) ht hst (Or.inr hpush)
      · exact Or.inl hset
    · have hu := List.mem_of_mem_eraseIdx hu
      have hk' := hp.bound u hu k (Pc.promise_of_owed hk)
      exact Found.acts hm hk' ht hst (Or.inl (hp.located u hu k hk))

theorem Promised.step {l : Option (ℕ × Event μ)} (hm : 0 < p.shared.q_.max_items_)
    (hp : Promised p) (hs : Step c p l p') : Promised p' := by
  cases hs with
  | spurious hw => exact hp.woken hw
  | step hs =>
      obtain @⟨q, _, _, d, hst, hd⟩ := hs
      obtain @⟨i, t, t', e, s', ht, hst⟩ := hst
      have hq := hp.acts hm ht hst
      cases hd with
      | quiet => exact hq
      | unheard => exact hq
      | woken hw => exact hq.woken hw

/-- **The message of a flush is not forgotten.** -/
theorem promised_of_path (hm : 0 < p.shared.q_.max_items_) (hp : Promised p)
    (h : Path (Step c) p ls p') : Promised p' := by
  refine (h.reachable.induction (P := fun q => 0 < q.shared.q_.max_items_ ∧ Promised q)
    ⟨hm, hp⟩ ?_).2
  intro q l q' hq hs
  exact ⟨pos_of_step hq.1 hs, hq.2.step hq.1 hs⟩

/-! ## Rest -/

/-- The thread can go on by itself. -/
def Pc.ready : Pc μ → Bool
  | posting _ _ | posted _ | discarding _ | destroying | dequeuing | dequeued _ | handling _ => true
  | _ => false

/-- The sinks always come to an end. -/
structure Loggers.Total (c : Loggers μ δ) : Prop where
  sink : ∀ msg d, ∃ d', c.sink msg d d'
  flush : ∀ d, ∃ d', c.flush d d'

/-- **A thread that is ready can take a step.** -/
theorem exists_act (hc : c.Total) (hm : 0 < s.q_.max_items_) (hr : t.ready = true) :
    ∃ e s' t' d, Act c os s t e s' t' d ∧ e.fresh = false := by
  cases t with
  | posting m policy =>
      cases hf : s.q_.full with
      | false =>
          cases policy with
          | block => exact ⟨_, _, _, _, .enqueue hf, rfl⟩
          | overrunOldest => exact ⟨_, _, _, _, .enqueueNowait hf, rfl⟩
          | discardNew => exact ⟨_, _, _, _, .enqueueIfHaveRoom hf, rfl⟩
      | true =>
          cases policy with
          | block => exact ⟨_, _, _, _, .wait hf, rfl⟩
          | overrunOldest =>
              have hne : s.queued ++ [m] ≠ [] := by simp
              obtain ⟨lost, hl⟩ := Option.ne_none_iff_exists'.mp (mt List.head?_eq_none_iff.mp hne)
              exact ⟨_, _, _, _, .overrun hf hl, rfl⟩
          | discardNew => exact ⟨_, _, _, _, .noRoom hf, rfl⟩
  | posted m => exact ⟨_, _, _, _, .notifyPush, rfl⟩
  | discarding m => exact ⟨_, _, _, _, .discard, rfl⟩
  | destroying =>
      by_cases hi : s.turns < c.workers
      · exact ⟨_, _, _, _, .terminate hi, rfl⟩
      · exact ⟨_, _, _, _, .endLoop hi, rfl⟩
  | dequeuing =>
      cases he : s.q_.empty with
      | true => exact ⟨_, _, _, _, .sleep he, rfl⟩
      | false =>
          have hne : s.q_.items ≠ [] := fun h => by simp [(empty_iff hm).mpr h] at he
          obtain ⟨q, hq, -⟩ := popFront_eq hm hne
          obtain ⟨m, hf⟩ := Option.ne_none_iff_exists'.mp
            (mt List.head?_eq_none_iff.mp hne)
          exact ⟨_, _, _, _, .dequeue he ((front_eq hne hm).trans hf) hq, rfl⟩
  | dequeued m => exact ⟨_, _, _, _, .notifyPop, rfl⟩
  | handling m =>
      cases m with
      | log msg =>
          obtain ⟨d, hd⟩ := hc.sink msg s.sinks
          exact ⟨_, _, _, _, .handleLog hd, rfl⟩
      | flush k =>
          obtain ⟨d, hd⟩ := hc.flush s.sinks
          exact ⟨_, _, _, _, .handleFlush hd, rfl⟩
      | terminate => exact ⟨_, _, _, _, .handleTerminate, rfl⟩
  | _ => cases hr

/-- No step carries on with what was begun. -/
def Resting (c : Loggers μ δ) (p : Threads μ δ) : Prop := ∀ l p', ¬ Works c p l p'

theorem Resting.not_act {i : ℕ} (h : Resting c p) (ht : p.threads[i]? = some t)
    (hact : Act c (p.threads.eraseIdx i) p.shared t e s' t' d) (he : e.fresh = false) : False := by
  obtain ⟨p', hp'⟩ : ∃ p', Monitor.Step (Act c) wake p (i, e) p' := exists_step ht hact
  exact h _ _ ⟨hp', he⟩

/-- A pool rests whose threads have all come to their end. -/
theorem Resting.of_over (h : ∀ t ∈ p.threads, t = .stopped ∨ t = .destroyed) : Resting c p := by
  rintro l p' ⟨⟨⟨ht, hact⟩, -⟩, -⟩
  rcases h _ (List.mem_of_getElem? ht) with rfl | rfl
  · cases hact
  · cases hact

theorem Resting.not_ready (hc : c.Total) (hm : 0 < p.shared.q_.max_items_) (h : Resting c p)
    (ht : t ∈ p.threads) : t.ready = false := by
  cases hr : t.ready with
  | false => rfl
  | true =>
      obtain ⟨i, hi⟩ := List.mem_iff_getElem?.mp ht
      obtain ⟨e, s', t', d, hact, he⟩ : ∃ e s' t' d,
          Act c (p.threads.eraseIdx i) p.shared t e s' t' d ∧ e.fresh = false :=
        exists_act hc hm hr
      exact (h.not_act hi hact he).elim

/-- Nobody sleeps in vain. -/
theorem Resting.sleepers (hc : c.Total) (hm : 0 < p.shared.q_.max_items_) (h : Resting c p)
    (hp : Awake p) :
    ((∃ m, .waiting m ∈ p.threads) → p.shared.room = 0) ∧
      (.idle ∈ p.threads → p.shared.queued = []) := by
  have hready := fun t (ht : t ∈ p.threads) => h.not_ready hc hm ht
  have hroom : Pool.total Pc.seeksRoom p.threads = 0 := Pool.total_eq_zero fun t ht => by
    have := hready t ht
    cases t with
    | posting | dequeued => cases this
    | _ => rfl
  have hmessage : Pool.total Pc.seeksMessage p.threads = 0 := Pool.total_eq_zero fun t ht => by
    have := hready t ht
    cases t with
    | posted | dequeuing => cases this
    | _ => rfl
  constructor
  · intro hw
    obtain ⟨m, hw⟩ := hw
    have := hp.room ⟨_, hw, by simp [wake]⟩
    omega
  · intro hw
    have hlen : p.shared.queued.length ≤ _ := hp.message ⟨_, hw, by simp [wake]⟩
    exact List.length_eq_zero_iff.mp (by omega)

theorem Act.destructs_eq (h : Act c os s t e s' t' d) :
    t'.destructs.toNat + s'.alive.toNat = t.destructs.toNat + s.alive.toNat := by
  cases h with
  | destroy ha => simp [Pc.destructs, ha]
  | discard | notifyPush =>
      rename_i m
      cases m with
      | _ => simp [Pc.destructs, Pc.after]
  | _ => simp [Pc.destructs]

/-- The pool is alive, or in the hands of one destructor. -/
theorem destructor_of_path
    (hp : Pool.total (fun t => t.destructs.toNat) p.threads + p.shared.alive.toNat = 1)
    (h : Path (Step c) p ls p') :
    Pool.total (fun t => t.destructs.toNat) p'.threads + p'.shared.alive.toNat = 1 := by
  refine h.reachable.induction (P := fun q : Threads μ δ =>
    Pool.total (fun t => t.destructs.toNat) q.threads + q.shared.alive.toNat = 1) hp ?_
  intro q l q' hq hs
  refine total_step (g := fun s : PoolState μ δ => s.alive.toNat) (h := fun _ => 1) ?_ ?_ hq hs
  · intro v u u' hv
    rcases wake_eq_some hv with ⟨m, rfl, rfl, rfl⟩ | ⟨rfl, rfl, rfl⟩
    · rfl
    · rfl
  · intro i t e s' t' d _ hact
    have := hact.destructs_eq
    omega

/-- What holds in every state of a run from the start. -/
structure Invariant (c : Loggers μ δ) (cap : ℕ) (p : Threads μ δ) : Prop where
  holds : (outline c cap).Holds p
  ends : Pool.total Pc.ending p.threads + p.shared.endings = p.shared.turns
  workers : workersOf p = c.workers
  destructor : Pool.total (fun t => t.destructs.toNat) p.threads + p.shared.alive.toNat = 1
  awake : Awake p
  promised : Promised p

theorem invariant_of_path [Inhabited μ] (hw : 0 < c.workers) (hcap : cap + 1 < 2 ^ 64)
    (h : Path (Step c) (start c cap threads sinks) ls p) : Invariant c cap p := by
  have hp : (outline c cap).Holds (start c cap threads sinks) := outline_start hcap
  have hm := hp.inv.pos
  refine ⟨outline_of_path hw hp h, ends_of_path hw hp ?_ h, ?_, destructor_of_path ?_ h,
    attended_of_path hm ⟨?_, ?_⟩ h, promised_of_path hm ⟨?_, ?_⟩ h⟩
  · rw [total_start, PoolState.endings, queued_start hcap]
    simp [Pc.ending, start]
  · rw [workersOf_of_path h, workersOf, total_start]
    simp [Pc.worker]
  · rw [total_start]
    simp [Pc.destructs, start]
  · intro hu
    obtain ⟨u, hu, hne⟩ := hu
    rcases mem_start hu with rfl | rfl <;> exact absurd rfl hne
  · intro hu
    obtain ⟨u, hu, hne⟩ := hu
    rcases mem_start hu with rfl | rfl <;> exact absurd rfl hne
  · intro t ht k hk
    rcases mem_start ht with rfl | rfl <;> cases hk
  · intro t ht k hk
    rcases mem_start ht with rfl | rfl <;> cases hk

/-- When all workers have stopped, the messages that ended them are all there were. -/
theorem Invariant.all_stopped (hi : Invariant c cap p)
    (hstop : ∀ t ∈ p.threads, t.worker = true → t = .stopped) :
    p.shared.turns = c.workers ∧ p.shared.endings = 0 ∧
      ∀ t ∈ p.threads, t.worker.toNat = t.ending := by
  have hpoint : ∀ t ∈ p.threads, t.worker.toNat ≤ t.ending := by
    intro t ht
    cases hworker : t.worker with
    | false => exact Nat.zero_le _
    | true => simp [hstop t ht hworker, Pc.ending]
  have hle : workersOf p ≤ Pool.total Pc.ending p.threads := Pool.total_le_total hpoint
  have hends := hi.ends
  have hworkers := hi.workers
  have hturns := hi.holds.inv.turns
  refine ⟨by omega, by omega, fun t ht => Pool.eq_of_total_eq hpoint ?_ ht⟩
  change workersOf p = _
  omega

/-- A pool at rest has an empty queue. -/
theorem Resting.queued (hc : c.Total) (hw : 0 < c.workers) (hi : Invariant c cap p)
    (h : Resting c p) : p.shared.queued = [] := by
  have hm := hi.holds.inv.pos
  by_contra hq
  have hready := fun t (ht : t ∈ p.threads) => h.not_ready hc hm ht
  have hidle : .idle ∉ p.threads := fun hidle => hq ((h.sleepers hc hm hi.awake).2 hidle)
  have hstop : ∀ t ∈ p.threads, t.worker = true → t = .stopped := by
    intro t ht hworker
    have hr := hready t ht
    cases t with
    | idle => exact absurd ht hidle
    | dequeuing | dequeued | handling => cases hr
    | stopped => rfl
    | _ => cases hworker
  obtain ⟨hturns, hendings, hpoint⟩ := hi.all_stopped hstop
  -- The pool is not alive, and the destructor is where all its messages are in the queue.
  have hdead : p.shared.alive = false := by
    cases ha : p.shared.alive with
    | false => rfl
    | true =>
        have := (hi.holds.inv.clean ha).1
        omega
  have hpos : 0 < Pool.total (fun t => t.destructs.toNat) p.threads := by
    have := hi.destructor
    rw [hdead] at this
    simp only [Bool.toNat_false, Nat.add_zero] at this
    omega
  obtain ⟨u, hu, hd⟩ := Pool.exists_of_total_pos hpos
  have hud : u.destructs = true := by simpa using hd
  have hlast : EndsWell p.shared.queued := by
    have hown := hi.holds.own u hu
    have hr := hready u hu
    cases u with
    | joining | destroyed => exact hown.last trivial
    | waiting m =>
        cases m with
        | terminate => cases hpoint _ hu
        | _ => cases hud
    | posting | posted | discarding | destroying => cases hr
    | _ => cases hud
  have hends := hlast _ (List.getLast?_eq_some_getLast hq)
  have : 0 < p.shared.endings := List.countP_pos_iff.mpr ⟨_, List.getLast_mem hq, hends⟩
  omega

/-- A thread of a pool at rest is outside or asleep, has stopped or has left the
destructor, or waits for a flush whose message was overrun. -/
def Rests (p : Threads μ δ) (t : Pc μ) : Prop :=
  t = .outside ∨ t = .idle ∨ t = .stopped ∨ t = .destroyed ∨
    ∃ k, t = .awaiting k ∧ p.shared.stale = some (.flush k)

theorem Resting.rests (hc : c.Total) (hw : 0 < c.workers) (hcap : 0 < cap) (hi : Invariant c cap p)
    (h : Resting c p) : ∀ t ∈ p.threads, Rests p t := by
  have hm := hi.holds.inv.pos
  have hq := h.queued hc hw hi
  have hready := fun t (ht : t ∈ p.threads) => h.not_ready hc hm ht
  have hwaiting : ∀ m, .waiting m ∉ p.threads := by
    intro m hwait
    have hroom := (h.sleepers hc hm hi.awake).1 ⟨m, hwait⟩
    rw [room, hq, hi.holds.inv.max_items] at hroom
    simp at hroom
    omega
  intro t ht
  have hr := hready t ht
  obtain ⟨i, hti⟩ := List.mem_iff_getElem?.mp ht
  cases t with
  | outside => exact Or.inl rfl
  | idle => exact Or.inr (Or.inl rfl)
  | stopped => exact Or.inr (Or.inr (Or.inl rfl))
  | destroyed => exact Or.inr (Or.inr (Or.inr (Or.inl rfl)))
  | waiting m => exact absurd ht (hwaiting m)
  | awaiting k =>
      refine Or.inr (Or.inr (Or.inr (Or.inr ⟨k, rfl, ?_⟩)))
      rcases hi.promised.located _ ht k rfl with ⟨b, hb⟩ | hf | hf | hf
      · exact (h.not_act hti (.await hb) rfl).elim
      · rw [hq] at hf
        cases hf
      · exact hf
      · obtain ⟨u, hu, hk⟩ := List.mem_flatMap.mp hf
        have hru := hready u hu
        cases u with
        | dequeued | handling => cases hru
        | _ => cases hk
  | joining =>
      -- As many messages have ended workers as there are workers.
      have hturns := (hi.holds.own _ ht).turns (Or.inl rfl)
      have hpoint : ∀ u ∈ p.threads, u.ending ≤ u.worker.toNat := by
        intro u hu
        have hru := hready u hu
        cases u with
        | posting | dequeued | handling => cases hru
        | waiting m => exact absurd hu (hwaiting m)
        | stopped => exact Nat.le_refl _
        | _ => exact Nat.zero_le _
      have hendings : p.shared.endings = 0 := by simp [PoolState.endings, hq]
      have htotal : Pool.total Pc.ending p.threads = workersOf p := by
        have := hi.ends
        have := hi.workers
        omega
      refine (h.not_act hti (.join fun u hu hworker => ?_) rfl).elim
      have hu' := List.mem_of_mem_eraseIdx hu
      have hending := Pool.eq_of_total_eq hpoint htotal hu'
      have hru := hready u hu'
      cases u with
      | stopped => rfl
      | idle => cases hending
      | dequeuing | dequeued | handling => cases hru
      | _ => cases hworker
  | _ => cases hr

/-- **The pool comes to rest.**  Whatever its threads have begun, and in whatever order they
go on, they do so finitely often; and when none of them can go on, the queue is empty, and
every thread is outside or asleep for want of messages, has stopped or has left the
destructor, but for one that flushes and whose message was overrun. -/
theorem pool_rests [Inhabited μ] (hc : c.Total) (hw : 0 < c.workers) (hpos : 0 < cap)
    (hcap : cap + 1 < 2 ^ 64) (h : Path (Step c) (start c cap threads sinks) ls p) :
    (∀ f : ℕ → Threads μ δ, f 0 = p → ¬ ∀ n, ∃ l, Works c (f n) l (f (n + 1))) ∧
      ((∀ l p', ¬ Works c p l p') → p.shared.queued = [] ∧ ∀ t ∈ p.threads, Rests p t) := by
  have hi := invariant_of_path hw hcap h
  refine ⟨fun f _ => work_ends f, fun hr => ⟨?_, ?_⟩⟩
  · exact Resting.queued hc hw hi hr
  · exact Resting.rests hc hw hpos hi hr

/-- A pool that was destroyed: it rests. -/
theorem pool_rests_closing : ∃ p, Path (Step appending) (start appending 1 1 []) closing p ∧
    p.threads = [.stopped, .destroyed] ∧ p.shared.queued = [] ∧ ∀ t ∈ p.threads, Rests p t := by
  obtain ⟨p, h, hthreads, -⟩ := path_closing appending [] rfl rfl rfl
  have htotal : appending.Total := ⟨fun _ _ => ⟨_, rfl⟩, fun _ => ⟨_, rfl⟩⟩
  have hrests : Resting appending p := .of_over (by simp [hthreads])
  exact ⟨p, h, hthreads, (pool_rests htotal (by decide) (by decide) (by decide) h).2 hrests⟩

end CameraService.Spdlog
