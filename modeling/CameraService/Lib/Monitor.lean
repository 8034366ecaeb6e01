import CameraService.Lib.Pool

/-!
# Threads that wait for one another

The threads of a pool share a state, and a thread that finds it not ready goes to
sleep on a condition.  A thread that may have made it ready notifies the condition,
which wakes one of the threads that sleep on it, or none if nobody does.  A thread may
also wake without having been notified.

Whether every sleeper is woken in time is a matter of counting.  Something is available
in the shared state, and threads that are awake to take it, or are going to notify, are
the credits that it needs; `attended_step` asks of each step only that it does not make
more available than it gives credit.

## Main definitions

* `Monitor.Action`, `Monitor.Step` — a pool whose threads notify.
* `Monitor.Woken`, `Monitor.Restless` — waking, notified or not.
* `Monitor.Attended`, `Monitor.attended_step` — no wakeup is lost.
* `Monitor.weight_lt` — a measure that goes down.
-/

namespace Monitor

open Transition Pool

variable {σ τ L C : Type}

/-- What one thread can do amid the others, and the condition that it notifies. -/
abbrev Action (σ τ L C : Type) : Type := List τ → σ → τ → L → σ → τ → Option C → Prop

/-- One thread that slept on `c` is awake. -/
inductive Woken (wake : C → τ → Option τ) (c : C) : Pool σ τ → Pool σ τ → Prop
  | mk {p : Pool σ τ} {j : ℕ} {u u' : τ} (hu : p.threads[j]? = some u) (hw : wake c u = some u') :
      Woken wake c p ⟨p.shared, p.threads.set j u'⟩

/-- What a notification does. -/
inductive Heard (wake : C → τ → Option τ) : Option C → Pool σ τ → Pool σ τ → Prop
  | quiet (p : Pool σ τ) : Heard wake none p p
  | woken {c : C} {p p' : Pool σ τ} (h : Woken wake c p p') : Heard wake (some c) p p'
  | unheard {c : C} {p : Pool σ τ} (h : ∀ u ∈ p.threads, wake c u = none) :
      Heard wake (some c) p p

/-- One thread takes a step, and somebody may be woken by it. -/
inductive Step (act : Action σ τ L C) (wake : C → τ → Option τ) :
    Pool σ τ → ℕ × L → Pool σ τ → Prop
  | mk {p q p' : Pool σ τ} {l : ℕ × L} {c : Option C}
      (h : Pool.Step (fun os s t l s' t' => act os s t l s' t' c) p l q) (hc : Heard wake c q p') :
      Step act wake p l p'

/-- A step, or a thread that wakes by itself. -/
inductive Restless (act : Action σ τ L C) (wake : C → τ → Option τ) :
    Pool σ τ → Option (ℕ × L) → Pool σ τ → Prop
  | step {p p' : Pool σ τ} {l : ℕ × L} (h : Step act wake p l p') : Restless act wake p (some l) p'
  | spurious {p p' : Pool σ τ} {c : C} (h : Woken wake c p p') : Restless act wake p none p'

variable {act : Action σ τ L C} {wake : C → τ → Option τ} {p p' q : Pool σ τ} {c : C}

/-! ## Assertions -/

/-- Waking keeps what an outline says. -/
structure Rouses (O : Outline σ τ) (wake : C → τ → Option τ) : Prop where
  own : ∀ c u u' s, wake c u = some u' → O.own s u → O.own s u'
  apart : ∀ c u u' t, wake c u = some u' → O.apart u t → O.apart u' t

theorem Rouses.woken {O : Outline σ τ} (hO : Rouses O wake) (h : O.Holds p)
    (hw : Woken wake c p p') : O.Holds p' := by
  obtain @⟨j, u, u', hu, hw⟩ := hw
  have hkeeps : O.Preserves fun _ s t (_ : Unit) s' t' => s' = s ∧ wake c t = some t' := by
    rintro os s t - s' t' ⟨rfl, ht⟩ hinv hown hos
    refine ⟨hinv, hO.own c t t' s' ht hown, fun v hv => ⟨(hos v hv).1, ?_⟩⟩
    exact hO.apart c t t' v ht (hos v hv).2
  exact Outline.holds_step (l := (j, ())) hkeeps h (.mk hu ⟨rfl, hw⟩)

theorem Rouses.heard {O : Outline σ τ} {c : Option C} (hO : Rouses O wake) (h : O.Holds p)
    (hc : Heard wake c p p') : O.Holds p' := by
  cases hc with
  | quiet => exact h
  | woken hw => exact hO.woken h hw
  | unheard => exact h

/-- **The invariant rule** for a pool whose threads notify. -/
theorem Rouses.restless {O : Outline σ τ} (hO : Rouses O wake)
    (hact : ∀ c, O.Preserves fun os s t l s' t' => act os s t l s' t' c) {l : Option (ℕ × L)}
    (h : O.Holds p) (hs : Restless act wake p l p') : O.Holds p' := by
  cases hs with
  | step hs =>
      obtain ⟨hst, hc⟩ := hs
      exact hO.heard (Outline.holds_step (hact _) h hst) hc
  | spurious hw => exact hO.woken h hw

/-! ## Wakeups -/

/-- While somebody sleeps on `c`, what is available has been credited. -/
def Attended (wake : C → τ → Option τ) (c : C) (avail : σ → ℕ) (credit : τ → ℕ)
    (p : Pool σ τ) : Prop :=
  (∃ u ∈ p.threads, wake c u ≠ none) → avail p.shared ≤ total credit p.threads

/-- The credits of the threads that wake. -/
structure Credits (wake : C → τ → Option τ) (c : C) (credit : τ → ℕ) : Prop where
  /-- Nobody wakes to a sleep on `c`. -/
  awake : ∀ d u u', wake d u = some u' → wake c u' = none
  mono : ∀ d u u', wake d u = some u' → credit u ≤ credit u'
  gain : ∀ u u', wake c u = some u' → credit u + 1 ≤ credit u'

variable {avail : σ → ℕ} {credit : τ → ℕ}

/-- Who still sleeps, slept before. -/
theorem Credits.sleeper {d : C} (hk : Credits wake c credit) (hw : Woken wake d p p')
    (h : ∃ u ∈ p'.threads, wake c u ≠ none) : ∃ u ∈ p.threads, wake c u ≠ none := by
  obtain @⟨j, u, u', hu, hw⟩ := hw
  obtain ⟨v, hv, hvc⟩ := h
  rcases (mem_set_iff hu).mp hv with rfl | hv
  · exact absurd (hk.awake d u v hw) hvc
  · exact ⟨v, List.mem_of_mem_eraseIdx hv, hvc⟩

theorem Credits.total_le {d : C} (hk : Credits wake c credit) (hw : Woken wake d p p') :
    total credit p.threads ≤ total credit p'.threads := by
  obtain @⟨j, u, u', hu, hw⟩ := hw
  have := hk.mono d u u' hw
  rw [total_eq hu, total_set hu]
  omega

theorem Credits.total_lt (hk : Credits wake c credit) (hw : Woken wake c p p') :
    total credit p.threads < total credit p'.threads := by
  obtain @⟨j, u, u', hu, hw⟩ := hw
  have := hk.gain u u' hw
  rw [total_eq hu, total_set hu]
  omega

theorem Woken.shared_eq (hw : Woken wake c p p') : p'.shared = p.shared := by
  cases hw
  rfl

theorem Credits.attended_woken {d : C} (hk : Credits wake c credit)
    (h : Attended wake c avail credit p) (hw : Woken wake d p p') :
    Attended wake c avail credit p' := by
  intro hu
  rw [hw.shared_eq]
  exact (h (hk.sleeper hw hu)).trans (hk.total_le hw)

/-- What a step has to do for the sleepers of `c`: nobody goes to sleep while something
is available, and what it makes available it credits, a notification being one credit. -/
structure Pays [DecidableEq C] (act : Action σ τ L C) (wake : C → τ → Option τ) (c : C)
    (avail : σ → ℕ) (credit : τ → ℕ) (I : σ → Prop) : Prop where
  sleep : ∀ os s t l s' t' d, I s → act os s t l s' t' d → wake c t' ≠ none → avail s' = 0
  pay : ∀ os s t l s' t' d, I s → act os s t l s' t' d → avail s' ≠ 0 →
    avail s' + credit t ≤ avail s + credit t' + if d = some c then 1 else 0

/-- **No wakeup is lost.** -/
theorem attended_step [DecidableEq C] {I : σ → Prop} (hk : Credits wake c credit)
    (hact : Pays act wake c avail credit I) {l : Option (ℕ × L)} (hI : I p.shared)
    (h : Attended wake c avail credit p) (hs : Restless act wake p l p') :
    Attended wake c avail credit p' := by
  cases hs with
  | spurious hw => exact hk.attended_woken h hw
  | step hs =>
      obtain @⟨q, _, _, d, hst, hd⟩ := hs
      obtain @⟨i, t, t', l, s', ht, hst⟩ := hst
      have hsleep := hact.sleep _ _ _ _ _ _ _ hI hst
      have hpay := hact.pay _ _ _ _ _ _ _ hI hst
      have htotal : total credit (p.threads.set i t') =
          credit t' + total credit (p.threads.eraseIdx i) := total_set ht
      -- Before the notification is heard it is owed, unless nobody sleeps.
      have hq : (∃ u ∈ p.threads.set i t', wake c u ≠ none) →
          avail s' ≤ total credit (p.threads.set i t') + if d = some c then 1 else 0 := by
        intro hu
        obtain ⟨u, hu, huc⟩ := hu
        by_cases h0 : avail s' = 0
        · omega
        · rcases (mem_set_iff ht).mp hu with rfl | hu
          · exact absurd (hsleep huc) h0
          · have hp := h ⟨u, List.mem_of_mem_eraseIdx hu, huc⟩
            have := hpay h0
            rw [total_eq ht] at hp
            omega
      cases hd with
      | quiet => exact fun hu => by simpa using hq hu
      | unheard hn =>
          rename_i d
          intro hu
          obtain ⟨u, hu, huc⟩ := hu
          have hne : d ≠ c := fun he => huc (he ▸ hn u hu)
          have := hq ⟨u, hu, huc⟩
          rwa [if_neg (fun he => hne (Option.some.inj he)), Nat.add_zero] at this
      | woken hw =>
          rename_i d
          intro hu
          have hq := hq (hk.sleeper hw hu)
          rw [hw.shared_eq]
          by_cases hd : d = c
          · subst hd
            have := hk.total_lt hw
            rw [if_pos rfl] at hq
            exact hq.trans this
          · rw [if_neg (fun he => hd (Option.some.inj he)), Nat.add_zero] at hq
            exact hq.trans (hk.total_le hw)

/-! ## What runs pass on -/

/-- What the threads did in a run. -/
def events (ls : List (Option (ℕ × L))) : List L := ls.flatMap fun l => (l.map Prod.snd).toList

/-- What the `i`-th thread did in a step. -/
def did (i : ℕ) : Option (ℕ × L) → List L
  | some (j, l) => if j = i then [l] else []
  | none => []

/-- What the `i`-th thread did. -/
def eventsOf (i : ℕ) (ls : List (Option (ℕ × L))) : List L := ls.flatMap (did i)

theorem mem_events {i : ℕ} {l : L} {ls : List (Option (ℕ × L))} (h : l ∈ eventsOf i ls) :
    l ∈ events ls := by
  obtain ⟨o, ho, hl⟩ := List.mem_flatMap.mp h
  refine List.mem_flatMap.mpr ⟨o, ho, ?_⟩
  cases o with
  | none => simp [did] at hl
  | some o =>
      obtain ⟨j, l'⟩ := o
      by_cases hj : j = i
      · simpa [did, hj] using hl
      · simp [did, hj] at hl

/-- What a step is: some thread acts, and the shared state is the one it leaves. -/
theorem Step.acts {l : ℕ × L} (hs : Step act wake p l p') :
    ∃ t t' d, p.threads[l.1]? = some t ∧
      act (p.threads.eraseIdx l.1) p.shared t l.2 p'.shared t' d := by
  obtain @⟨q, _, _, d, hst, hd⟩ := hs
  obtain @⟨i, t, t', l, s', ht, hst⟩ := hst
  have hp' : p'.shared = s' := by
    cases hd with
    | quiet => rfl
    | unheard => rfl
    | woken hw => exact hw.shared_eq
  exact ⟨t, t', d, ht, hp' ▸ hst⟩

/-- What a thread can do leads to a step, whether it is heard or not. -/
theorem exists_step {i : ℕ} {t t' : τ} {l : L} {s' : σ} {d : Option C}
    (ht : p.threads[i]? = some t)
    (h : act (p.threads.eraseIdx i) p.shared t l s' t' d) : ∃ p', Step act wake p (i, l) p' := by
  have hst : Pool.Step (fun os s t l s' t' => act os s t l s' t' d) p (i, l)
      ⟨s', p.threads.set i t'⟩ := .mk ht h
  cases d with
  | none => exact ⟨_, .mk hst (.quiet _)⟩
  | some c =>
      by_cases hn : ∀ u ∈ p.threads.set i t', wake c u = none
      · exact ⟨_, .mk hst (.unheard hn)⟩
      · push Not at hn
        obtain ⟨u, hu, hw⟩ := hn
        obtain ⟨j, hj⟩ := List.mem_iff_getElem?.mp hu
        obtain ⟨u', hu'⟩ := Option.ne_none_iff_exists'.mp hw
        exact ⟨_, .mk hst (.woken (.mk hj hu'))⟩

/-- **A part of the shared state makes a run of its own.** -/
theorem project_shared {ρ M : Type} {R : ρ → M → ρ → Prop} {f : σ → ρ} {g : L → List M}
    (hact : ∀ os s t l s' t' d, act os s t l s' t' d → Path R (f s) (g l) (f s'))
    {ls : List (Option (ℕ × L))} (h : Path (Restless act wake) p ls p') :
    Path R (f p.shared) ((events ls).flatMap g) (f p'.shared) := by
  induction h with
  | nil p => exact .nil _
  | @cons q q' _ l ls hl _ ih =>
      have hone : Path R (f q.shared) ((l.map Prod.snd).toList.flatMap g) (f q'.shared) := by
        cases hl with
        | spurious hw =>
            rw [hw.shared_eq]
            exact .nil _
        | step hs =>
            obtain ⟨t, t', d, ht, hst⟩ := hs.acts
            simpa using hact _ _ _ _ _ _ _ hst
      rw [events, List.flatMap_cons, List.flatMap_append]
      exact hone.append ih

/-- **The invariant rule for each thread by itself**, and what it gives for the events. -/
theorem forall_events {I : τ → Prop} {R : L → Prop}
    (hact : ∀ os s t l s' t' d, I t → act os s t l s' t' d → I t' ∧ R l)
    (hwake : ∀ c u u', wake c u = some u' → I u → I u') {ls : List (Option (ℕ × L))}
    (hI : ∀ t ∈ p.threads, I t) (h : Path (Restless act wake) p ls p') : ∀ l ∈ events ls, R l := by
  have hwoken : ∀ {c : C} {q q' : Pool σ τ}, Woken wake c q q' → (∀ t ∈ q.threads, I t) →
      ∀ t ∈ q'.threads, I t := by
    intro c q q' hw hq t ht
    obtain @⟨j, u, u', hu, hw⟩ := hw
    rcases (mem_set_iff hu).mp ht with rfl | ht
    · exact hwake c u t hw (hq u (List.mem_of_getElem? hu))
    · exact hq t (List.mem_of_mem_eraseIdx ht)
  have hlabels := Path.forall_labels (J := fun q : Pool σ τ => ∀ t ∈ q.threads, I t)
    (R := fun l => ∀ e ∈ l.map Prod.snd, R e) hI ?_ h
  · intro l hl
    obtain ⟨o, ho, hl⟩ := List.mem_flatMap.mp hl
    exact hlabels o ho l (by simpa using hl)
  · intro q l q' hq hs
    cases hs with
    | spurious hw => exact ⟨hwoken hw hq, by simp⟩
    | step hs =>
        obtain @⟨r, _, _, d, hst, hd⟩ := hs
        obtain @⟨i, t, t', l, s', ht, hst⟩ := hst
        obtain ⟨ht', hl⟩ := hact _ _ _ _ _ _ _ (hq t (List.mem_of_getElem? ht)) hst
        have hr : ∀ u ∈ q.threads.set i t', I u := by
          intro u hu
          rcases (mem_set_iff ht).mp hu with rfl | hu
          · exact ht'
          · exact hq u (List.mem_of_mem_eraseIdx hu)
        refine ⟨?_, by simpa using hl⟩
        cases hd with
        | quiet => exact hr
        | unheard => exact hr
        | woken hw => exact hwoken hw hr

section Conserve
variable {β : Type} {inp out : L → List β}

/-- What is kept in the shared state, in order. -/
theorem conserve_shared {I : σ → Prop} {f : σ → List β}
    (hact : ∀ os s t l s' t' d, I s → act os s t l s' t' d →
      I s' ∧ f s ++ inp l = out l ++ f s') {ls : List (Option (ℕ × L))} (hI : I p.shared)
    (h : Path (Restless act wake) p ls p') :
    f p.shared ++ (events ls).flatMap inp = (events ls).flatMap out ++ f p'.shared := by
  have hc := Path.conserve (J := fun q : Pool σ τ => I q.shared) (f := fun q => f q.shared)
    (g := fun l => (l.map Prod.snd).toList.flatMap inp)
    (k := fun l => (l.map Prod.snd).toList.flatMap out) hI ?_ h
  · simpa only [events, List.flatMap_assoc] using hc
  · intro q l q' hI hs
    cases hs with
    | spurious hw => exact ⟨hw.shared_eq ▸ hI, by simp [hw.shared_eq]⟩
    | step hs =>
        obtain ⟨t, t', d, ht, hst⟩ := hs.acts
        obtain ⟨hI', hf⟩ := hact _ _ _ _ _ _ _ hI hst
        exact ⟨hI', by simpa using hf⟩

/-- Waking a thread leaves what a thread has. -/
theorem Woken.getElem? {α : Type} {d : C} {f : τ → α}
    (hwake : ∀ c u u', wake c u = some u' → f u' = f u) (hw : Woken wake d p p') (i : ℕ) :
    (p'.threads[i]?).map f = (p.threads[i]?).map f := by
  obtain @⟨j, u, u', hu, hw⟩ := hw
  have hf := hwake d u u' hw
  by_cases hij : i = j
  · subst hij
    rw [List.getElem?_set_self (List.getElem?_eq_some_iff.mp hu).1, hu]
    simp [hf]
  · rw [List.getElem?_set_ne (Ne.symm hij)]

/-- What a thread has, after somebody's step. -/
theorem Step.getElem? {α : Type} {f : τ → α}
    (hwake : ∀ c u u', wake c u = some u' → f u' = f u) {j : ℕ} {l : L}
    (hs : Step act wake p (j, l) p') :
    ∃ os t s' t' d, p.threads[j]? = some t ∧ act os p.shared t l s' t' d ∧
      ∀ i, (p'.threads[i]?).map f = if i = j then some (f t') else (p.threads[i]?).map f := by
  obtain @⟨q, _, _, d, hst, hd⟩ := hs
  obtain @⟨_, t, t', _, s', ht, hst⟩ := hst
  refine ⟨_, t, s', t', d, ht, hst, fun i => ?_⟩
  have hset : ((p.threads.set j t')[i]?).map f =
      if i = j then some (f t') else (p.threads[i]?).map f := by
    by_cases hij : i = j
    · subst hij
      rw [if_pos rfl, List.getElem?_set_self (List.getElem?_eq_some_iff.mp ht).1, Option.map_some]
    · rw [if_neg hij, List.getElem?_set_ne (Ne.symm hij)]
  cases hd with
  | quiet => exact hset
  | unheard => exact hset
  | woken hw => exact (hw.getElem? hwake i).trans hset

/-- What one thread has in hand, in order. -/
theorem conserve_thread {f : τ → List β}
    (hact : ∀ os s t l s' t' d, act os s t l s' t' d → f t ++ inp l = out l ++ f t')
    (hwake : ∀ c u u', wake c u = some u' → f u' = f u) {ls : List (Option (ℕ × L))}
    (h : Path (Restless act wake) p ls p') (i : ℕ) :
    ((p.threads[i]?).map f).getD [] ++ (eventsOf i ls).flatMap inp =
      (eventsOf i ls).flatMap out ++ ((p'.threads[i]?).map f).getD [] := by
  have hc := Path.conserve (J := fun _ : Pool σ τ => True)
    (f := fun q => ((q.threads[i]?).map f).getD [])
    (g := fun l => (did i l).flatMap inp) (k := fun l => (did i l).flatMap out) trivial ?_ h
  · simpa only [eventsOf, List.flatMap_assoc] using hc
  · intro q l q' _ hs
    refine ⟨trivial, ?_⟩
    cases hs with
    | spurious hw => simp [did, hw.getElem? hwake i]
    | step hs =>
        rename_i l
        obtain ⟨j, l⟩ := l
        obtain ⟨os, t, s', t', d, ht, hst, hf⟩ := hs.getElem? hwake
        rw [hf i]
        by_cases hij : i = j
        · subst hij
          simpa [did, ht] using hact _ _ _ _ _ _ _ hst
        · simp [did, hij, Ne.symm hij]

/-- What all threads have in hand. -/
theorem conserve_perm {f : τ → List β}
    (hact : ∀ os s t l s' t' d, act os s t l s' t' d → f t ++ inp l = out l ++ f t')
    (hwake : ∀ c u u', wake c u = some u' → f u' = f u) {ls : List (Option (ℕ × L))}
    (h : Path (Restless act wake) p ls p') :
    (p.threads.flatMap f ++ (events ls).flatMap inp).Perm
      ((events ls).flatMap out ++ p'.threads.flatMap f) := by
  have hwoken : ∀ {c : C} {q q' : Pool σ τ}, Woken wake c q q' →
      (q'.threads.flatMap f).Perm (q.threads.flatMap f) := by
    intro c q q' hw
    obtain @⟨j, u, u', hu, hw⟩ := hw
    have hf := hwake c u u' hw
    exact (flatMap_set_perm hu).trans (hf ▸ (flatMap_perm hu).symm)
  have hc := Path.conserve_perm (f := fun q : Pool σ τ => q.threads.flatMap f)
    (g := fun l => (l.map Prod.snd).toList.flatMap inp)
    (k := fun l => (l.map Prod.snd).toList.flatMap out) ?_ h
  · simpa only [events, List.flatMap_assoc] using hc
  · intro q l q' hs
    cases hs with
    | spurious hw => simpa using (hwoken hw).symm
    | step hs =>
        obtain @⟨r, _, _, d, hst, hd⟩ := hs
        obtain @⟨i, t, t', l, s', ht, hst⟩ := hst
        have hf := hact _ _ _ _ _ _ _ hst
        have hr : (q.threads.flatMap f ++ inp l).Perm
            (out l ++ (q.threads.set i t').flatMap f) := by
          have hcomm : (f t ++ (q.threads.eraseIdx i).flatMap f ++ inp l).Perm
              (f t ++ inp l ++ (q.threads.eraseIdx i).flatMap f) := by
            rw [List.append_assoc, List.append_assoc]
            exact List.perm_append_comm.append_left _
          refine (((flatMap_perm ht).append_right _).trans hcomm).trans ?_
          rw [hf, List.append_assoc]
          exact ((flatMap_set_perm ht).symm).append_left _
        have hq : (q'.threads.flatMap f).Perm ((q.threads.set i t').flatMap f) := by
          cases hd with
          | quiet => exact .refl _
          | unheard => exact .refl _
          | woken hw => exact hwoken hw
        simpa using hr.trans (hq.symm.append_left _)

/-- What only threads of one role do, is done by the one thread that has it. -/
theorem events_eq_eventsOf {role : τ → Bool} {g : L → List β}
    (hact : ∀ os s t l s' t' d, act os s t l s' t' d →
      role t' = role t ∧ (role t = false → g l = []))
    (hwake : ∀ c u u', wake c u = some u' → role u' = role u) {ls : List (Option (ℕ × L))} {i : ℕ}
    (hi : ∀ j t, p.threads[j]? = some t → j ≠ i → role t = false)
    (h : Path (Restless act wake) p ls p') :
    (events ls).flatMap g = (eventsOf i ls).flatMap g := by
  have hlabels := Path.forall_labels
    (J := fun q : Pool σ τ => ∀ j, j ≠ i → (q.threads[j]?).map role ≠ some true)
    (R := fun l => (l.map Prod.snd).toList.flatMap g = (did i l).flatMap g) ?_ ?_ h
  · unfold events eventsOf
    clear h
    induction ls with
    | nil => rfl
    | cons l ls ih =>
        rw [List.flatMap_cons, List.flatMap_cons, List.flatMap_append, List.flatMap_append,
          hlabels l List.mem_cons_self, ih fun l hl => hlabels l (List.mem_cons_of_mem _ hl)]
  · intro j hj
    cases ht : p.threads[j]? with
    | none => simp
    | some t => simp [hi j t ht hj]
  · intro q l q' hJ hs
    cases hs with
    | spurious hw => exact ⟨fun j hj => hw.getElem? hwake j ▸ hJ j hj, rfl⟩
    | step hs =>
        rename_i l
        obtain ⟨k, l⟩ := l
        obtain ⟨os, t, s', t', d, ht, hst, hf⟩ := hs.getElem? hwake
        obtain ⟨hrole, hg⟩ := hact _ _ _ _ _ _ _ hst
        refine ⟨fun j hj => ?_, ?_⟩
        · rw [hf j]
          by_cases hjk : j = k
          · subst hjk
            have := hJ j hj
            rw [ht] at this
            simpa [hrole] using this
          · rw [if_neg hjk]
            exact hJ j hj
        · by_cases hki : k = i
          · simp [did, hki]
          · have hk := hJ k hki
            rw [ht] at hk
            have hl : g l = [] := hg (by simpa using hk)
            simp [did, hki, hl]

end Conserve

/-- A sum over the threads and the shared state. -/
theorem total_step {f : τ → ℕ} {g h : σ → ℕ} {l : Option (ℕ × L)}
    (hwake : ∀ c u u', wake c u = some u' → f u' = f u)
    (hact : ∀ i t l s' t' d, p.threads[i]? = some t →
      act (p.threads.eraseIdx i) p.shared t l s' t' d →
      f t' + g s' + h p.shared = f t + g p.shared + h s')
    (hp : total f p.threads + g p.shared = h p.shared) (hs : Restless act wake p l p') :
    total f p'.threads + g p'.shared = h p'.shared := by
  have hwoken : ∀ {d : C} {q q' : Pool σ τ}, Woken wake d q q' →
      total f q'.threads + g q'.shared = total f q.threads + g q.shared ∧ q'.shared = q.shared := by
    intro d q q' hw
    obtain @⟨j, u, u', hu, hw⟩ := hw
    have := hwake d u u' hw
    rw [total_eq hu, total_set hu, this]
    exact ⟨rfl, rfl⟩
  cases hs with
  | spurious hw =>
      obtain ⟨he, hsh⟩ := hwoken hw
      rw [he, hsh, hp]
  | step hs =>
      obtain @⟨q, _, _, d, hst, hd⟩ := hs
      obtain @⟨i, t, t', l, s', ht, hst⟩ := hst
      have ha := hact _ _ _ _ _ _ ht hst
      rw [total_eq ht] at hp
      have hq : total f (p.threads.set i t') + g s' = h s' := by
        rw [total_set ht]
        omega
      cases hd with
      | quiet => exact hq
      | unheard => exact hq
      | woken hw =>
          obtain ⟨he, hsh⟩ := hwoken hw
          rw [he, hsh]
          exact hq

/-! ## Measures -/

/-- A measure that goes down: a step that notifies pays for the thread that it wakes. -/
theorem weight_lt {base : σ → ℕ} {weight : τ → ℕ} {l : ℕ × L} {bound : ℕ}
    (hwake : ∀ c u u', wake c u = some u' → weight u' ≤ weight u + bound)
    (hact : ∀ os s t l s' t' (c : Option C), act os s t l s' t' c →
      base s' + weight t' + (if c.isSome then bound else 0) < base s + weight t)
    (hs : Step act wake p l p') :
    base p'.shared + total weight p'.threads < base p.shared + total weight p.threads := by
  obtain ⟨hst, hd⟩ := hs
  obtain @⟨i, t, t', l, s', ht, hst⟩ := hst
  have hlt := hact _ _ _ _ _ _ _ hst
  have htotal : total weight (p.threads.set i t') =
      weight t' + total weight (p.threads.eraseIdx i) := total_set ht
  rw [total_eq ht]
  cases hd with
  | quiet =>
      simp only [Option.isSome_none, Bool.false_eq_true, if_false] at hlt
      dsimp only
      omega
  | unheard =>
      simp only [Option.isSome_some, if_true] at hlt
      dsimp only
      omega
  | woken hw =>
      obtain @⟨j, u, u', hu, hw⟩ := hw
      have := hwake _ u u' hw
      have hj := total_eq (f := weight) hu
      simp only [Option.isSome_some, if_true] at hlt
      dsimp only at hj hu ⊢
      rw [total_set hu]
      omega

end Monitor
