import CameraService.Concurrent.Sections

/-!
# The invariant of the service

What holds in every reachable state, whichever requests are running and whatever
the SDK answers.  A device is opened by one request, which nobody else knows, and
published when it runs; from then on it is running or shut down.

## Main definitions

* `Service.Inv` — the map and the devices in it.
* `Relies` — what a request relies on between two sections.
* `outline`, `preserves_outline`, `outline_of_run` — the invariant.
-/

namespace CameraService

open Interaction Provider Transition

/-- The invariant of the shared state. -/
structure Service.Inv (S : Service) : Prop where
  /-- The map points to devices that were made for their key. -/
  made : ∀ k a, S.provider.cameras_list_.lookup k = some a →
    ∃ m, S.made a = some m ∧ m.key = k
  upper : ∀ a m, S.made a = some m → toUpper m.key = m.key
  settled : ∀ k a, S.provider.cameras_list_.lookup k = some a → (S.provider.heap a).Settled
  /-- Addresses are used in order. -/
  fresh : ∀ a, (S.made a).isSome = true ↔ a < S.provider.next

/-- What a request relies on between two sections. -/
def Relies (S : Service) (t : Thread) : Prop :=
  match t.pc with
  | .lookup sn _ | .findInfo sn _ | .create sn _ _ => toUpper sn = sn
  | .abandon a _ => a < S.provider.next ∧ ¬ S.provider.Published a
  | .publish sn a _ => toUpper sn = sn ∧ a < S.provider.next ∧ ¬ S.provider.Published a ∧
      (S.provider.heap a).Running ∧ ∃ m, S.made a = some m ∧ m.key = sn
  | .take a _ | .leave a _ _ | .closing a | .closeLeave a =>
      a < S.provider.next ∧ (S.provider.heap a).Settled
  | _ => True

/-- A device that one request has opened is no other request's. -/
def Apart (t u : Thread) : Prop :=
  ∀ a, (t.pc.opens a = true → u.pc.owns a = false) ∧ (u.pc.opens a = true → t.pc.owns a = false)

/-- The invariant of the system. -/
def outline : Outline Service Thread where
  inv := Service.Inv
  own := Relies
  apart := Apart
  symm := fun _ _ h a => ⟨(h a).2, (h a).1⟩

variable {S S' : Service} {t t' u : Thread} {os : List Thread} {tr : SdkTrace} {a b : DevId}
  {k sn : Key} {P P' : Provider} {pc pc' : Pc}

theorem Service.Inv.lt_next (h : S.Inv) (ha : S.provider.Published a) : a < S.provider.next := by
  obtain ⟨k, hk⟩ := published_iff.mp ha
  obtain ⟨m, hm, -⟩ := h.made k a hk
  rw [← h.fresh a, hm]
  rfl

/-- The keys of the map are in upper case. -/
theorem Service.Inv.key_upper (h : S.Inv) (hk : S.provider.cameras_list_.lookup k = some a) :
    toUpper k = k := by
  obtain ⟨m, hm, rfl⟩ := h.made k a hk
  exact h.upper a m hm

/-- The owner of a device knows its address. -/
theorem Relies.lt_next (h : Relies S t) (ha : t.pc.owns a = true) : a < S.provider.next := by
  rw [Relies] at h
  split at h
  all_goals simp_all [Pc.owns]

theorem heldBy_of_owns (hu : u ∈ os) (ha : u.pc.owns a = true) : heldBy os a = true :=
  List.any_eq_true.mpr ⟨u, hu, ha⟩

/-- The steps of the system, with the outcomes of the sections. -/
theorem section_of_act (h : act os S t tr S' t') :
    ∃ P' pc', Section (heldBy os) S.provider t.pc tr P' pc' ∧ S' = S.next t.pc P' ∧
      t' = ⟨pc', t.log ++ tr⟩ := by
  obtain ⟨hf, P', pc', hr, hS, ht⟩ := h
  exact ⟨P', pc', section_of_runs hf hr, hS, ht⟩

theorem step_cases {s s' : System} {i : ℕ} (h : Step s (i, tr) s') : ∃ t P' pc',
    s.threads[i]? = some t ∧
      Section (heldBy (s.threads.eraseIdx i)) s.shared.provider t.pc tr P' pc' ∧
      s' = ⟨s.shared.next t.pc P', s.threads.set i ⟨pc', t.log ++ tr⟩⟩ := by
  cases h with
  | mk ht h =>
      obtain ⟨P', pc', hs, rfl, rfl⟩ := section_of_act h
      exact ⟨_, P', pc', ht, hs, rfl⟩

/-- A record is made with the device, and never changed. -/
theorem Service.made_next (ha : a ≠ S.provider.next) : (S.next pc P').made a = S.made a := by
  cases pc <;> simp [Service.next, ha]

theorem Service.made_of_not_create (hpc : ∀ sn info data, pc ≠ .create sn info data) :
    (S.next pc P').made = S.made := by
  cases pc with
  | create sn info data => exact absurd rfl (hpc sn info data)
  | _ => rfl

/-! ## The shared state -/

/-- A settled device stays settled. -/
theorem Effect.settled {held : DevId → Bool} (h : Effect held P pc tr P') (ha : a < P.next)
    (hs : (P.heap a).Settled) : (P'.heap a).Settled := by
  cases h.touch a with
  | same he => rwa [he]
  | made hpc hb => exact absurd hb ha.ne
  | kept hpc hb hr hc => exact Or.inl hr
  | dropped hpc hr hc => exact Or.inr hr
  | closed hpc hr => exact Or.inr hr
  | released hr hb hp => exact Or.inr hr

theorem made_of_effect {held : DevId → Bool} (h : Effect held S.provider pc tr P')
    (hf : ∀ a, (S.made a).isSome = true ↔ a < S.provider.next) :
    ((S.next pc P').made a).isSome = true ↔ a < P'.next := by
  cases h with
  | edit hpc hm h =>
      rw [Service.made_of_not_create hpc, h.next]
      exact hf a
  | create h =>
      simp only [Service.next, withDevice]
      by_cases ha : a = S.provider.next
      · simp [ha]
      · rw [Function.update_of_ne ha, hf a, Nat.lt_succ_iff_lt_or_eq, or_iff_left ha]
  | take h => exact hf a
  | closing h => exact hf a
  | enumerate => exact hf a

/-- A step keeps the invariant of the shared state. -/
theorem Service.Inv.next {held : DevId → Bool} (hI : S.Inv) (ht : Relies S t)
    (h : Effect held S.provider t.pc tr P') : (S.next t.pc P').Inv where
  made := by
    intro k a hk
    rcases h.lookup_old hk with hk | ⟨data, hpc⟩
    · have ha : a ≠ S.provider.next := (hI.lt_next (published_iff.mpr ⟨k, hk⟩)).ne
      rw [made_next ha]
      exact hI.made k a hk
    · simp only [Relies, hpc] at ht
      rw [made_next ht.2.1.ne]
      exact ht.2.2.2.2
  upper := by
    intro a m hm
    by_cases hcreate : ∃ sn info data, t.pc = .create sn info data
    · obtain ⟨sn, info, data, hpc⟩ := hcreate
      by_cases ha : a = S.provider.next
      · simp only [Service.next, hpc, ha, Function.update_self, Option.some.injEq] at hm
        simp only [Relies, hpc] at ht
        rw [← hm]
        exact ht
      · exact hI.upper a m (by rwa [made_next ha] at hm)
    · push Not at hcreate
      exact hI.upper a m (by rwa [made_of_not_create hcreate] at hm)
  settled := by
    intro k a hk
    rcases h.lookup_old hk with hk | ⟨data, hpc⟩
    · exact h.settled (hI.lt_next (published_iff.mpr ⟨k, hk⟩)) (hI.settled k a hk)
    · simp only [Relies, hpc] at ht
      exact h.settled ht.2.1 (Or.inl ht.2.2.2.1)
  fresh := fun _ => made_of_effect h hI.fresh

/-! ## The requests -/

/-- A section does not disturb what another request relies on. -/
theorem Relies.stable (hu : Relies S u) (hmem : u ∈ os) (hap : Apart t u)
    (h : Effect (heldBy os) S.provider t.pc tr P') : Relies (S.next t.pc P') u := by
  have hlt : ∀ a, u.pc.owns a = true → a < P'.next := fun a ha =>
    (hu.lt_next ha).trans_le h.next_le
  have hset : ∀ a, a < S.provider.next → (S.provider.heap a).Settled → (P'.heap a).Settled :=
    fun a => h.settled
  -- a device that `u` has opened is not published by anyone else
  have hunp : ∀ a, u.pc.opens a = true → ¬ S.provider.Published a → ¬ P'.Published a := by
    intro a ha hp hp'
    obtain ⟨k, hk⟩ := published_iff.mp hp'
    rcases h.lookup_old hk with hk | ⟨data, hpc⟩
    · exact hp (published_iff.mpr ⟨k, hk⟩)
    · have := (hap a).1 (by simp [hpc, Pc.opens])
      rw [Pc.owns_of_opens ha] at this
      exact absurd this (by simp)
  unfold Relies at hu ⊢
  split at hu
  · exact hu
  · exact hu
  · exact hu
  · rename_i a data hpc
    exact ⟨hlt a (by simp [hpc, Pc.owns]), hunp a (by simp [hpc, Pc.opens]) hu.2⟩
  · rename_i sn a data hpc
    obtain ⟨hup, ha, hp, hr, hm⟩ := hu
    have hne : (S.next t.pc P').made a = S.made a := Service.made_next ha.ne
    refine ⟨hup, hlt a (by simp [hpc, Pc.owns]), hunp a (by simp [hpc, Pc.opens]) hp, ?_, ?_⟩
    · -- the others do not own the device, so nobody can touch it
      have hown : t.pc.owns a = false := (hap a).2 (by simp [hpc, Pc.opens])
      have hheld : heldBy os a = true := heldBy_of_owns hmem (by simp [hpc, Pc.owns])
      cases h.touch a with
      | same he => change (P'.heap a).Running; rwa [he]
      | made hpc' hb => exact absurd hb ha.ne
      | kept hpc' hb hr hc => exact hr
      | dropped hpc' hr hc => simp [hpc', Pc.owns] at hown
      | closed hpc' hr => simp [hpc', Pc.owns] at hown
      | released hr hb hp => simp [hheld] at hb
    · rwa [hne]
  · rename_i a data hpc
    exact ⟨hlt a (by simp [hpc, Pc.owns]), hset a hu.1 hu.2⟩
  · rename_i a ret data hpc
    exact ⟨hlt a (by simp [hpc, Pc.owns]), hset a hu.1 hu.2⟩
  · rename_i a hpc
    exact ⟨hlt a (by simp [hpc, Pc.owns]), hset a hu.1 hu.2⟩
  · rename_i a hpc
    exact ⟨hlt a (by simp [hpc, Pc.owns]), hset a hu.1 hu.2⟩
  · trivial

/-- What a request relies on after its own section. -/
theorem Relies.next {held : DevId → Bool} {log : SdkTrace} (hI : S.Inv) (ht : Relies S t)
    (h : Section held S.provider t.pc tr P' pc') : Relies (S.next t.pc P') ⟨pc', log⟩ := by
  have heff := h.effect
  have hold : ∀ {a}, a < S.provider.next → (S.provider.heap a).Settled →
      a < P'.next ∧ (P'.heap a).Settled := fun ha hs =>
    ⟨ha.trans_le heff.next_le, heff.settled ha hs⟩
  have hpub : ∀ {k a}, S.provider.cameras_list_.lookup k = some a →
      a < P'.next ∧ (P'.heap a).Settled := fun hk =>
    hold (hI.lt_next (published_iff.mpr ⟨_, hk⟩)) (hI.settled _ _ hk)
  have hfresh : ¬ S.provider.Published S.provider.next := fun hp => (hI.lt_next hp).false
  rw [Relies] at ht
  generalize t.pc = q at ht h heff
  cases h with
  | arrive h => exact toUpper_toUpper _
  | hit h => exact hpub h.published.1
  | miss h => exact ht
  | unknown h => trivial
  | known h => exact ht
  | failed h hr hd => exact ⟨Nat.lt_succ_self _, hfresh⟩
  | created h hd =>
      refine ⟨ht, Nat.lt_succ_self _, hfresh, ?_, _, Function.update_self .., rfl⟩
      simpa [Service.next, withDevice] using hd
  | abandon h => trivial
  | publish h => exact hold ht.2.1 (Or.inl ht.2.2.2.1)
  | take h => exact hold ht.1 ht.2
  | leave h => trivial
  | closeHit h => exact hpub h.published.1
  | closeMiss h => trivial
  | closing h => exact hold ht.1 ht.2
  | closeLeave h => trivial
  | enumFailed hr => trivial
  | enumerated => trivial
  | convert hp => trivial
  | converted hp => trivial

/-- A request that has opened a device shares it with no other. -/
theorem Apart.next {held : DevId → Bool} {log : SdkTrace} (hu : Relies S u)
    (hap : Apart t u) (h : Section held S.provider t.pc tr P' pc') : Apart ⟨pc', log⟩ u := by
  have hnew : u.pc.owns S.provider.next = false := by
    by_contra hown
    exact (hu.lt_next (by simpa using hown)).false
  intro a
  constructor
  · intro ha
    obtain ⟨rfl, -⟩ := h.opens ha
    exact hnew
  · intro ha
    by_contra hown
    rcases h.owns (by simpa using hown) with ho | hp | ⟨rfl, -⟩
    · simp [(hap a).2 ha] at ho
    · -- what `u` has opened is not published
      rw [Relies] at hu
      generalize u.pc = q at hu ha
      cases q with
      | abandon b data =>
          obtain rfl : b = a := by simpa [Pc.opens] using ha
          exact hu.2 hp
      | publish sn b data =>
          obtain rfl : b = a := by simpa [Pc.opens] using ha
          exact hu.2.2.1 hp
      | _ => simp [Pc.opens] at ha
    · simp [Pc.owns_of_opens ha] at hnew

/-- Nobody else holds a device that a request has opened. -/
theorem heldBy_of_opens (hos : ∀ u ∈ os, outline.own S u ∧ outline.apart t u)
    (ha : t.pc.opens a = true) : heldBy os a = false := by
  rw [heldBy]
  rw [List.any_eq_false]
  intro u hu
  have hu' : u.pc.owns a = false := ((hos u hu).2 a).1 ha
  simp [hu']

/-! ## Every run -/

theorem preserves_outline : outline.Preserves act := by
  intro os S t tr S' t' h hI ht hothers
  obtain ⟨P', pc', hs, rfl, rfl⟩ := section_of_act h
  refine ⟨hI.next ht hs.effect, ht.next hI hs, ?_⟩
  intro u hu
  obtain ⟨hur, hap⟩ := hothers u hu
  exact ⟨hur.stable hu hap hs.effect, hap.next hur hs⟩

theorem holds_start {list : InfoList} {reqs : List Request} : outline.Holds (start list reqs) where
  inv := by
    have hnone : ∀ k a, ¬ (start list reqs).shared.provider.cameras_list_.lookup k = some a := by
      intro k a hk
      simp [start, Service.initial, Provider.new] at hk
    have hmade : ∀ a m, ¬ (start list reqs).shared.made a = some m := by
      intro a m hm
      cases hm
    refine ⟨fun k a hk => absurd hk (hnone k a), fun a m hm => absurd hm (hmade a m),
      fun k a hk => absurd hk (hnone k a), fun a => ?_⟩
    simp [start, Service.initial, Provider.new]
  own := by
    intro t ht
    obtain ⟨r, -, rfl⟩ := List.mem_map.mp ht
    trivial
  apart := by
    intro i j t u hij ht hu a
    obtain ⟨r, -, rfl⟩ := List.mem_map.mp (List.mem_of_getElem? ht)
    obtain ⟨r', -, rfl⟩ := List.mem_map.mp (List.mem_of_getElem? hu)
    exact ⟨fun _ => rfl, fun _ => rfl⟩

/-- **The invariant holds in every reachable state.** -/
theorem outline_of_reachable {list : InfoList} {reqs : List Request} {s : System}
    (h : Reachable Step (start list reqs) s) : outline.Holds s :=
  Outline.holds_of_reachable preserves_outline holds_start h

end CameraService
