import CameraService.Spdlog.ThreadPool

/-!
# What holds of the threads of the log

What each step does to the queue of the pool, and the assertions that every interleaving
of its threads keeps: a thread inside finds the pool alive, the destructor runs once and
when nobody is inside, and its messages are the last in the queue.

## Main definitions

* `Event.pushes`, `Event.leaves` — what a step puts into the queue and takes out of it.
* `Act.passes` — the queue passes its messages on in order.
* `Own`, `outline` — the assertions.
* `outline_of_path` — they hold in every state of a run.
* `ends_of_path` — where the messages are that end the workers.
-/

namespace CameraService.Spdlog

open Transition Monitor CircularQ

variable {μ δ : Type} {c : Loggers μ δ} {os : List (Pc μ)} {s s' : PoolState μ δ} {t t' : Pc μ}
  {e : Event μ} {d : Option Cv} {m : AsyncMsg μ} {lost : Option (AsyncMsg μ)}

/-! ## The queue -/

/-- What the step puts into the queue. -/
def Event.pushes : Event μ → List (AsyncMsg μ)
  | push m _ => [m]
  | _ => []

/-- What leaves the queue in the step. -/
def Event.leaves : Event μ → List (AsyncMsg μ)
  | push _ lost => lost.toList
  | take m => [m]
  | _ => []

namespace PoolState

theorem length_queued (hm : 0 < s.q_.max_items_) : s.queued.length < s.q_.max_items_ := by
  rw [queued, length_items hm]
  exact size_lt hm

theorem full_iff_room (hm : 0 < s.q_.max_items_) : s.q_.full = true ↔ s.room = 0 := by
  have := length_queued hm
  rw [full_iff hm, room, ← length_items hm]
  change s.queued.length + 1 = s.q_.max_items_ ↔ s.q_.max_items_ - 1 - s.queued.length = 0
  omega

theorem queued_push (hm : 0 < s.q_.max_items_) (hf : s.q_.full = false) :
    (s.push m lost).queued = s.queued ++ [m] := items_pushBack hm hf

theorem queued_push_full (hm : 0 < s.q_.max_items_) (hf : s.q_.full = true) :
    (s.push m lost).queued = (s.queued ++ [m]).tail := items_pushBack_full hm hf

/-- What `dequeue` finds in a queue that is not empty. -/
theorem queued_dequeue {q : CircularQ (AsyncMsg μ)} (he : s.q_.empty = false)
    (hf : s.q_.front = some m) (hq : s.q_.popFront = some q) :
    s.queued = m :: q.items ∧ q.max_items_ = s.q_.max_items_ := by
  have hm : 0 < s.q_.max_items_ := by
    unfold popFront at hq
    split at hq
    · assumption
    · cases hq
  have hne : s.q_.items ≠ [] := fun h => by simp [(empty_iff hm).mpr h] at he
  obtain ⟨q', hq', hmax, hitems, -⟩ := popFront_eq hm hne
  obtain rfl : q = q' := Option.some.inj (hq.symm.trans hq')
  refine ⟨?_, hmax⟩
  rw [front_eq hne hm] at hf
  rw [hitems]
  exact (List.cons_head?_tail hf).symm

end PoolState

open PoolState

/-- **The queue passes on what is put into it, in order.** -/
theorem Act.passes (hm : 0 < s.q_.max_items_) (h : Act c os s t e s' t' d) :
    s'.q_.max_items_ = s.q_.max_items_ ∧ s.queued ++ e.pushes = e.leaves ++ s'.queued := by
  cases h with
  | enqueue hf | enqueueNowait hf | enqueueIfHaveRoom hf =>
      exact ⟨max_items_pushBack, (queued_push hm hf).symm⟩
  | overrun hf hl =>
      refine ⟨max_items_pushBack, ?_⟩
      rw [queued_push_full hm hf]
      exact (List.cons_head?_tail hl).symm
  | dequeue he hf hq =>
      obtain ⟨hqueued, hmax⟩ := queued_dequeue he hf hq
      exact ⟨hmax, (List.append_nil _).trans hqueued⟩
  | discard => exact ⟨by simp, by simp [Event.pushes, Event.leaves, queued]⟩
  | _ => exact ⟨rfl, List.append_nil _⟩

/-! ## The assertions -/

/-- The message ends a worker. -/
def AsyncMsg.ends : AsyncMsg μ → Bool
  | terminate => true
  | _ => false

/-- The newest message, if there is one, ends a worker. -/
def EndsWell (ms : List (AsyncMsg μ)) : Prop := ∀ m, ms.getLast? = some m → m.ends = true

theorem EndsWell.tail {ms : List (AsyncMsg μ)} (h : EndsWell (m :: ms)) : EndsWell ms := by
  intro m' hm
  cases ms with
  | nil => simp at hm
  | cons m₁ ms => exact h m' (by simpa using hm)

theorem endsWell_concat {ms : List (AsyncMsg μ)} (hm : m.ends = true) : EndsWell (ms ++ [m]) := by
  intro m' hm'
  simp only [List.getLast?_append, List.getLast?_singleton, Option.some_or,
    Option.some.injEq] at hm'
  exact hm' ▸ hm

/-- The destructor has put a message into the queue. -/
def Pc.closing (turns : ℕ) : Pc μ → Prop
  | posted .terminate | joining | destroyed => True
  | destroying => 0 < turns
  | _ => False

/-- What a thread relies on. -/
structure Own (c : Loggers μ δ) (s : PoolState μ δ) (t : Pc μ) : Prop where
  alive : t.inside = true → s.alive = true
  dead : t.destructs = true → s.alive = false
  blocks : ∀ p, t = .posting .terminate p → p = .block
  kept : t ≠ .discarding .terminate
  turns : t = .joining ∨ t = .destroyed → s.turns = c.workers
  last : t.closing s.turns → EndsWell s.queued

/-- What holds of the shared state. -/
structure Sound (c : Loggers μ δ) (cap : ℕ) (s : PoolState μ δ) : Prop where
  max_items : s.q_.max_items_ = cap + 1
  turns : s.turns ≤ c.workers
  clean : s.alive = true → s.turns = 0 ∧ ∀ m ∈ s.queued, m.ends = false

/-- One destructor, after which every worker has stopped. -/
structure Apart (t u : Pc μ) : Prop where
  one : t.destructs = true → u.destructs = false
  left : t = .destroyed → u.worker = true → u = .stopped
  right : u = .destroyed → t.worker = true → t = .stopped

theorem Apart.symm (h : Apart t t') : Apart t' t where
  one := fun ht => by
    cases hd : t.destructs with
    | false => rfl
    | true => exact absurd (h.one hd) (by simp [ht])
  left := h.right
  right := h.left

variable {cap : ℕ} {u : Pc μ}

theorem Sound.pos (h : Sound c cap s) : 0 < s.q_.max_items_ := by
  rw [h.max_items]
  omega

theorem Pc.destructs_of_closing {n : ℕ} (h : t.closing n) : t.destructs = true := by
  unfold Pc.closing at h
  split at h
  · rfl
  · rfl
  · rfl
  · rfl
  · cases h

/-- A thread outside of the destructor relies on the pool being alive only. -/
theorem Own.of_client (hk : t.destructs = false) (h : t.inside = true → s.alive = true) :
    Own c s t where
  alive := h
  dead := fun hd => by simp [hk] at hd
  blocks := by
    rintro p rfl
    simp [Pc.destructs] at hk
  kept := by
    rintro rfl
    simp [Pc.destructs] at hk
  turns := by
    rintro (rfl | rfl) <;> simp [Pc.destructs] at hk
  last := fun hl => by simp [Pc.destructs_of_closing hl] at hk

theorem Pc.inside_of_destructs (h : t.destructs = true) : t.inside = false := by
  unfold Pc.destructs at h
  split at h
  any_goals (split at h <;> simp_all [Pc.inside])
  any_goals rfl
  · cases h

/-- What the destructor relies on. -/
theorem Own.of_destructor (hk : t.destructs = true) (hd : s.alive = false)
    (hb : ∀ p, t = .posting .terminate p → p = .block) (hkept : t ≠ .discarding .terminate)
    (ht : t = .joining ∨ t = .destroyed → s.turns = c.workers)
    (hl : t.closing s.turns → EndsWell s.queued) : Own c s t where
  alive := fun hi => by simp [Pc.inside_of_destructs hk] at hi
  dead := fun _ => hd
  blocks := hb
  kept := hkept
  turns := ht
  last := hl

/-- What a thread relies on is not affected by a change of the rest. -/
theorem Own.mono (h : Own c s t) (ha : s'.alive = s.alive) (ht : s'.turns = s.turns)
    (hq : EndsWell s.queued → EndsWell s'.queued) : Own c s' t where
  alive := by rw [ha]; exact h.alive
  dead := by rw [ha]; exact h.dead
  blocks := h.blocks
  kept := h.kept
  turns := by rw [ht]; exact h.turns
  last := by rw [ht]; exact fun hl => hq (h.last hl)

/-- A thread that posts is inside, or is the destructor. -/
theorem Pc.inside_posting {p : OverflowPolicy} : (Pc.posting m p).inside = !m.ends := by
  cases m with
  | _ => rfl

theorem Pc.destructs_posting {p : OverflowPolicy} : (Pc.posting m p).destructs = m.ends := by
  cases m with
  | _ => rfl

/-- While the pool is alive nobody posts a message that ends a worker. -/
theorem Own.not_ends {p : OverflowPolicy} (h : Own c s (.posting m p)) (ha : s.alive = true) :
    m.ends = false := by
  cases hm : m.ends with
  | false => rfl
  | true => simp [h.dead (Pc.destructs_posting.trans hm)] at ha

/-- What is in the queue after a step was in it before, or was put into it. -/
theorem Act.mem_queued (hm : 0 < s.q_.max_items_) (h : Act c os s t e s' t' d)
    (hq : m ∈ s'.queued) : m ∈ s.queued ∨ m ∈ e.pushes := by
  rw [← List.mem_append, (h.passes hm).2]
  exact List.mem_append_right _ hq

theorem Act.sound (hs : Sound c cap s) (ht : Own c s t) (h : Act c os s t e s' t' d) :
    Sound c cap s' := by
  refine ⟨(h.passes hs.pos).1.trans hs.max_items, ?_, ?_⟩
  · have hle := hs.turns
    cases h with
    | terminate hi => exact hi
    | discard => simpa using hle
    | _ => simpa using hle
  · intro ha
    have hmem := fun m => h.mem_queued (m := m) hs.pos
    cases h with
    | destroy => cases ha
    | terminate => exact absurd (ht.dead rfl) (by simp [show s.alive = true from ha])
    | enqueue | enqueueNowait | enqueueIfHaveRoom | overrun =>
        rw [alive_push] at ha
        obtain ⟨hturns, hclean⟩ := hs.clean ha
        refine ⟨by rw [turns_push, hturns], fun m hm => ?_⟩
        rcases hmem m hm with hm | hm
        · exact hclean m hm
        · rw [List.mem_singleton.mp hm]
          exact ht.not_ends ha
    | discard =>
        rw [alive_drop] at ha
        simpa [queued] using hs.clean ha
    | dequeue =>
        obtain ⟨hturns, hclean⟩ := hs.clean ha
        exact ⟨hturns, fun m hm => hclean m ((hmem m hm).resolve_right List.not_mem_nil)⟩
    | _ => exact hs.clean ha

/-- Posting, by a thread that is inside or by the destructor. -/
theorem Own.post {p : OverflowPolicy} (hs : Sound c cap s) (ht : Own c s (.posting m p))
    (hf : m.ends = true → s.q_.full = false) : Own c (s.push m lost) (.posted m) := by
  cases m with
  | log | flush => exact .of_client rfl fun _ => (alive_push s _ lost).trans (ht.alive rfl)
  | terminate =>
      refine .of_destructor rfl ((alive_push s _ lost).trans (ht.dead rfl)) nofun nofun nofun ?_
      intro _
      rw [queued_push hs.pos (hf rfl)]
      exact endsWell_concat rfl

/-- What a thread relies on after its step. -/
theorem Act.own (hw : 0 < c.workers) (hs : Sound c cap s) (ht : Own c s t)
    (h : Act c os s t e s' t' d) : Own c s' t' := by
  cases h with
  | log ha | flush ha => exact .of_client rfl fun _ => ha
  | wait =>
      rename_i m _
      cases m with
      | log | flush => exact .of_client rfl fun _ => ht.alive rfl
      | terminate => exact .of_destructor rfl (ht.dead rfl) nofun nofun nofun nofun
  | enqueue hf | enqueueNowait hf | enqueueIfHaveRoom hf => exact ht.post hs fun _ => hf
  | overrun =>
      refine ht.post hs fun hm => ?_
      rename_i m _ _ _
      cases m with
      | terminate => cases ht.blocks _ rfl
      | _ => cases hm
  | noRoom =>
      rename_i m _
      cases m with
      | log | flush => exact .of_client rfl fun _ => ht.alive rfl
      | terminate => cases ht.blocks _ rfl
  | discard =>
      rename_i m
      cases m with
      | log => exact .of_client rfl nofun
      | flush => exact .of_client rfl fun _ => ht.alive rfl
      | terminate => exact absurd rfl ht.kept
  | notifyPush =>
      rename_i m
      cases m with
      | log => exact .of_client rfl nofun
      | flush => exact .of_client rfl fun _ => ht.alive rfl
      | terminate =>
          exact .of_destructor rfl (ht.dead rfl) nofun nofun nofun fun _ => ht.last trivial
  | destroy ha =>
      refine .of_destructor rfl rfl nofun nofun nofun fun hl => ?_
      have h0 : s.turns = 0 := (hs.clean ha).1
      exact absurd (show 0 < s.turns from hl) (by omega)
  | terminate hi =>
      refine .of_destructor rfl (ht.dead rfl) (fun p hp => ?_) nofun nofun nofun
      cases hp
      rfl
  | endLoop hi =>
      have hturns : s.turns = c.workers := Nat.le_antisymm hs.turns (Nat.le_of_not_lt hi)
      exact .of_destructor rfl (ht.dead rfl) nofun nofun (fun _ => hturns)
        fun _ => ht.last (show 0 < s.turns by omega)
  | join =>
      exact .of_destructor rfl (ht.dead rfl) nofun nofun (fun _ => ht.turns (Or.inl rfl))
        fun _ => ht.last trivial
  | handleLog | handleFlush => exact .of_client rfl nofun
  | _ => exact .of_client rfl nofun

/-- The workers stay workers, and the others others. -/
theorem Act.worker (h : Act c os s t e s' t' d) : t'.worker = t.worker := by
  cases h with
  | discard | notifyPush =>
      rename_i m
      cases m with
      | _ => rfl
  | _ => rfl

theorem Act.ne_stopped (h : Act c os s t e s' t' d) : t ≠ .stopped := by
  rintro rfl
  cases h

/-- Only the destructor goes on in it, or a thread that finds the pool alive. -/
theorem Act.destructs (h : Act c os s t e s' t' d) (hd : t'.destructs = true) :
    t.destructs = true ∨ s.alive = true := by
  cases h with
  | log ha | flush ha | destroy ha => exact Or.inr ha
  | terminate | endLoop | join => exact Or.inl rfl
  | discard | notifyPush =>
      rename_i m
      cases m with
      | terminate => exact Or.inl rfl
      | _ => cases hd
  | wait | noRoom | enqueue | enqueueNowait | enqueueIfHaveRoom | overrun => exact Or.inl hd
  | _ => cases hd

theorem Act.alive (h : Act c os s t e s' t' d) :
    s'.alive = s.alive ∨ ∀ u ∈ os, u.inside = false := by
  cases h with
  | destroy ha ho => exact Or.inr ho
  | enqueue | enqueueNowait | enqueueIfHaveRoom | overrun => exact Or.inl (alive_push ..)
  | discard => exact Or.inl (alive_drop ..)
  | _ => exact Or.inl rfl

/-- When the pool is not alive, a thread that is not the destructor leaves to the
destructor what it relies on. -/
theorem Act.frame (ht : Own c s t) (hk : t.destructs = false) (ha : s.alive = false)
    (h : Act c os s t e s' t' d) :
    s'.alive = s.alive ∧ s'.turns = s.turns ∧ (EndsWell s.queued → EndsWell s'.queued) := by
  have hpost : ∀ m p, t ≠ .posting m p := by
    rintro m p rfl
    have hi := ht.alive
    rw [Pc.inside_posting, ← Pc.destructs_posting (p := p), hk] at hi
    simp [ha] at hi
  cases h with
  | wait | noRoom | enqueue | enqueueNowait | enqueueIfHaveRoom | overrun =>
      exact absurd rfl (hpost _ _)
  | destroy ha' => simp [ha] at ha'
  | terminate => cases hk
  | discard => exact ⟨alive_drop .., turns_drop .., by simp [queued]⟩
  | dequeue he hf hq =>
      refine ⟨rfl, rfl, fun hl => ?_⟩
      rw [(queued_dequeue he hf hq).1] at hl
      exact hl.tail
  | _ => exact ⟨rfl, rfl, id⟩

/-- Another thread can rely on what it did before a step. -/
theorem Act.others (ht : Own c s t) (hu : Own c s u) (ha : Apart t u) (huos : u ∈ os)
    (h : Act c os s t e s' t' d) : Own c s' u ∧ Apart t' u := by
  constructor
  · cases hk : u.destructs with
    | false =>
        refine .of_client hk fun hi => ?_
        rcases h.alive with he | ho
        · rw [he]
          exact hu.alive hi
        · simp [ho u huos] at hi
    | true =>
        have htk : t.destructs = false := ha.symm.one hk
        obtain ⟨halive, hturns, hq⟩ := h.frame ht htk (hu.dead hk)
        exact hu.mono halive hturns hq
  · refine ⟨fun hd => ?_, ?_, ?_⟩
    · rcases h.destructs hd with hd | hal
      · exact ha.one hd
      · cases hk : u.destructs with
        | false => rfl
        | true => simp [hu.dead hk] at hal
    · intro he hw
      cases h with
      | join ho => exact ho u huos hw
      | discard | notifyPush =>
          rename_i m
          cases m with
          | _ => cases he
      | _ => cases he
    · intro he hw
      exact absurd (ha.right he (h.worker ▸ hw)) h.ne_stopped

/-- The assertions about a pool whose queue holds `cap` messages. -/
def outline (c : Loggers μ δ) (cap : ℕ) : Outline (PoolState μ δ) (Pc μ) where
  inv := Sound c cap
  own := Own c
  apart := Apart
  symm := fun _ _ h => h.symm

theorem outline_preserves (hw : 0 < c.workers) (d : Option Cv) :
    (outline c cap).Preserves fun os s t e s' t' => Act c os s t e s' t' d :=
  fun _ _ _ _ _ _ h hs ht hos =>
    ⟨h.sound hs ht, h.own hw hs ht, fun u hu => h.others ht (hos u hu).1 (hos u hu).2 hu⟩

/-- What a thread that sleeps does when it wakes. -/
theorem wake_eq_some {v : Cv} {u' : Pc μ} (h : wake v u = some u') :
    (∃ m, v = .pop ∧ u = .waiting m ∧ u' = .posting m .block) ∨
      (v = .push ∧ u = .idle ∧ u' = .dequeuing) := by
  unfold wake at h
  split at h
  · exact Or.inl ⟨_, rfl, rfl, (Option.some.inj h).symm⟩
  · exact Or.inr ⟨rfl, rfl, (Option.some.inj h).symm⟩
  · cases h

theorem rouses : Rouses (outline c cap) wake where
  own := by
    intro v u u' s h hu
    rcases wake_eq_some h with ⟨m, rfl, rfl, rfl⟩ | ⟨rfl, rfl, rfl⟩
    · cases m with
      | log | flush => exact Own.of_client rfl fun _ => hu.alive rfl
      | terminate =>
          refine Own.of_destructor rfl (hu.dead rfl) (fun p hp => ?_) nofun nofun nofun
          cases hp
          rfl
    · exact Own.of_client rfl nofun
  apart := by
    intro v u u' t h hu
    rcases wake_eq_some h with ⟨m, rfl, rfl, rfl⟩ | ⟨rfl, rfl, rfl⟩
    · exact ⟨hu.one, nofun, fun _ hw => by cases hw⟩
    · exact ⟨nofun, nofun, fun ht hw => absurd (hu.right ht hw) (by simp)⟩

variable {p p' : Threads μ δ} {ls : List (Option (ℕ × Event μ))} {threads : ℕ} {sinks : δ}

theorem outline_start [Inhabited μ] (hcap : cap + 1 < 2 ^ 64) :
    (outline c cap).Holds (start c cap threads sinks) := by
  have hkeeps := keeps_new (α := AsyncMsg μ) hcap
  have hclient : ∀ t ∈ (start c cap threads sinks).threads, t.destructs = false ∧
      t.inside = false ∧ t ≠ .destroyed := by
    intro t ht
    simp only [start, List.mem_append, List.mem_replicate] at ht
    rcases ht with ⟨-, rfl⟩ | ⟨-, rfl⟩
    · exact ⟨rfl, rfl, nofun⟩
    · exact ⟨rfl, rfl, nofun⟩
  refine ⟨⟨hkeeps.max_items, Nat.zero_le _, fun _ => ⟨rfl, ?_⟩⟩, ?_, ?_⟩
  · intro m hm
    change m ∈ (CircularQ.new cap).items at hm
    rw [hkeeps.items] at hm
    cases hm
  · intro t ht
    obtain ⟨hd, hi, -⟩ := hclient t ht
    exact .of_client hd fun h => by simp [hi] at h
  · intro i j t u _ ht hu
    obtain ⟨hd, -, hn⟩ := hclient t (List.mem_of_getElem? ht)
    obtain ⟨hd', -, hn'⟩ := hclient u (List.mem_of_getElem? hu)
    exact ⟨fun h => by simp [hd] at h, fun h => absurd h hn, fun h => absurd h hn'⟩

/-- **The assertions hold in every state.** -/
theorem outline_of_path (hw : 0 < c.workers) (hp : (outline c cap).Holds p)
    (h : Path (Step c) p ls p') : (outline c cap).Holds p' :=
  h.reachable.induction hp fun _ _ _ hq hs => rouses.restless (outline_preserves hw) hq hs

/-! ## The messages that end the workers -/

/-- The thread has such a message in hand, or has handled one. -/
def Pc.ending : Pc μ → ℕ
  | posting m _ | waiting m | dequeued m | handling m => m.ends.toNat
  | stopped => 1
  | _ => 0

/-- How many of them are in the queue. -/
def PoolState.endings (s : PoolState μ δ) : ℕ := s.queued.countP (·.ends)

theorem countP_ends (m : AsyncMsg μ) : [m].countP (·.ends) = m.ends.toNat := by
  cases m with
  | _ => rfl

/-- What a step does to their number. -/
theorem Act.endings (hs : Sound c cap s) (ht : Own c s t) (h : Act c os s t e s' t' d) :
    t'.ending + s'.endings + s.turns = t.ending + s.endings + s'.turns := by
  have hq := congrArg (List.countP (·.ends)) (h.passes hs.pos).2
  rw [List.countP_append, List.countP_append] at hq
  change s.endings + _ = _ + s'.endings at hq
  have hlocal : t'.ending + s.turns + e.pushes.countP (·.ends) =
      t.ending + s'.turns + e.leaves.countP (·.ends) := by
    cases h with
    | enqueue | enqueueNowait | enqueueIfHaveRoom =>
        simp only [Pc.ending, Event.pushes, Event.leaves, turns_push, countP_ends,
          Option.toList_none, List.countP_nil]
        omega
    | overrun hf hl =>
        rename_i m lost
        have hm : m.ends = false := by
          cases m with
          | terminate => cases ht.blocks _ rfl
          | _ => rfl
        have ha := ht.alive (by rw [Pc.inside_posting, hm]; rfl)
        have hlost : lost.ends = false := by
          rcases List.mem_append.mp (List.mem_of_head? hl) with hl | hl
          · exact (hs.clean ha).2 lost hl
          · rw [List.mem_singleton.mp hl, hm]
        simp [Pc.ending, Event.pushes, Event.leaves, hm, hlost]
    | noRoom =>
        rename_i m _
        cases m with
        | terminate => cases ht.blocks _ rfl
        | _ => rfl
    | discard | notifyPush =>
        rename_i m
        cases m with
        | _ => simp [Pc.ending, Pc.after, Event.pushes, Event.leaves]
    | terminate =>
        simp [Pc.ending, Event.pushes, Event.leaves, AsyncMsg.ends]
        omega
    | dequeue =>
        simp only [Pc.ending, Event.pushes, Event.leaves, countP_ends, List.countP_nil]
        omega
    | _ => simp [Pc.ending, Event.pushes, Event.leaves, AsyncMsg.ends]
  omega

variable {p p' : Threads μ δ} {ls : List (Option (ℕ × Event μ))}

/-- **None of them is lost**: those that were posted are in the queue, or in the hands of a
thread, or have stopped their worker. -/
theorem ends_of_path (hw : 0 < c.workers) (hp : (outline c cap).Holds p)
    (he : Pool.total Pc.ending p.threads + p.shared.endings = p.shared.turns)
    (h : Path (Step c) p ls p') :
    Pool.total Pc.ending p'.threads + p'.shared.endings = p'.shared.turns := by
  refine (h.reachable.induction (P := fun q => (outline c cap).Holds q ∧
    Pool.total Pc.ending q.threads + q.shared.endings = q.shared.turns) ⟨hp, he⟩ ?_).2
  intro q l q' hq hs
  refine ⟨rouses.restless (outline_preserves hw) hq.1 hs, total_step ?_ ?_ hq.2 hs⟩
  · intro v u u' hv
    rcases wake_eq_some hv with ⟨m, rfl, rfl, rfl⟩ | ⟨rfl, rfl, rfl⟩
    · rfl
    · rfl
  · intro i t e s' t' d ht hact
    exact hact.endings hq.1.inv (hq.1.own t (List.mem_of_getElem? ht))

end CameraService.Spdlog
