import CameraService.Concurrent.Records

/-!
# Listing the cameras while others enumerate

`to_camera_meta_info_list` walks the shared array after the lock was given up, and
reads its length anew in each iteration.  A listing that nobody disturbs is the
listing of one enumeration; an enumeration in the middle of it spoils the response,
as soon as the disturbed request goes on to its end.

## Main definitions

* `ListsOne` — every response lists one enumeration.
* `Undisturbed` — the step does not enumerate in the middle of a listing.
* `ReadsOne` — how far a listing has come, and of which enumeration.
* `listsOne_of_undisturbed` — the two along a run, and what a disturbance leads to.
-/

namespace CameraService

open Interaction Provider Transition

variable {S : Service} {t u : Thread} {tr : SdkTrace} {P P' : Provider} {pc pc' : Pc}
  {held : DevId → Bool} {s s' : System} {l : ℕ × SdkTrace} {i j e : ℕ}
  {infos : List CameraMetaInfo} {epochs : List ℕ}

/-- The response lists the enumeration `e`: its slots were read from `e`, all of them
and in order, and its entries are those of `e`.  `epochs` counts every slot that was read,
also one that gives no entry: a `NULL`, or a camera of an other layer. -/
def Lists (S : Service) (reply : MetasReply) (epochs : List ℕ) (e : ℕ) : Prop :=
  epochs = List.replicate (S.enumerated e).length e ∧
    reply.data = ((S.enumerated e).filterMap slotEntry).map toCameraMeta

/-- Every response lists one enumeration, or is empty because its own failed.  Entries that
look like those of one enumeration are not enough, when slots without an entry were read
from another. -/
def ListsOne (s : System) : Prop :=
  ∀ t ∈ s.threads, ∀ reply epochs, t.pc = .listed reply epochs →
    (reply.ret = .ok ∧ ∃ e, Lists s.shared reply epochs e) ∨
      (reply.ret ≠ .ok ∧ reply.data = [])

/-- An enumeration finds every other listing before its first slot, or past the end of
the array it replaces and of the one it stores. -/
def Undisturbed (s : System) (l : ℕ × SdkTrace) (s' : System) : Prop :=
  ∀ t ∈ s.threads[l.1]?, t.pc.enumerates = true →
    ∀ u ∈ s.threads, ∀ i ∈ u.pc.position,
      i = 0 ∨ (s.shared.provider.camera_info_list_.pDeviceInfo.length ≤ i ∧
        s'.shared.provider.camera_info_list_.pDeviceInfo.length ≤ i)

instance (s : System) (l : ℕ × SdkTrace) (s' : System) : Decidable (Undisturbed s l s') := by
  rw [Undisturbed]
  infer_instance

/-! ## How far a listing has come -/

/-- The slots read so far are the first ones of one enumeration.  That is the current
one, or all its slots were read and the loop is about to end. -/
def ReadsOne (S : Service) (t : Thread) : Prop :=
  match t.pc with
  | .convert i infos epochs => ∃ e ≤ S.provider.camera_info_list_.epoch,
      epochs = List.replicate i e ∧ i ≤ (S.enumerated e).length ∧
      infos = ((S.enumerated e).take i).filterMap slotEntry ∧
      (e = S.provider.camera_info_list_.epoch ∨
        (i = (S.enumerated e).length ∧ S.provider.camera_info_list_.pDeviceInfo.length ≤ i))
  | .listed reply epochs =>
      (reply.ret = .ok ∧ ∃ e ≤ S.provider.camera_info_list_.epoch, Lists S reply epochs e) ∨
        (reply.ret ≠ .ok ∧ reply.data = [])
  | _ => True

/-- The invariant of listings: the array is the result of the last enumeration. -/
structure Listing (s : System) : Prop where
  current : s.shared.enumerated s.shared.provider.camera_info_list_.epoch =
    s.shared.provider.camera_info_list_.pDeviceInfo
  reads : ∀ t ∈ s.threads, ReadsOne s.shared t

theorem Listing.listsOne (h : Listing s) : ListsOne s := by
  intro t ht reply epochs hpc
  have hr := h.reads t ht
  simp only [ReadsOne, hpc] at hr
  rcases hr with ⟨hok, e, -, he⟩ | herr
  · exact Or.inl ⟨hok, e, he⟩
  · exact Or.inr herr

/-- A section keeps the results of the enumerations so far. -/
theorem enumerated_next (hcur : S.enumerated S.provider.camera_info_list_.epoch =
      S.provider.camera_info_list_.pDeviceInfo) (h : Effect held S.provider pc tr P')
    (he : e ≤ S.provider.camera_info_list_.epoch) :
    (S.next pc P').enumerated e = S.enumerated e := by
  rcases h.records with hsame | ⟨-, hnew⟩
  · simp only [Service.next, hsame, ← hcur, Function.update_eq_self]
  · have hne : e ≠ P'.camera_info_list_.epoch := by omega
    simp [Service.next, hne]

theorem epoch_le (h : Effect held P pc tr P') :
    P.camera_info_list_.epoch ≤ P'.camera_info_list_.epoch := by
  rcases h.records with hsame | ⟨-, hnew⟩
  · rw [hsame]
  · omega

/-- One more slot of the same array. -/
theorem filterMap_take_succ {l : DeviceList} {p : Option DeviceInfo} (hp : l[i]? = some p) :
    (l.take (i + 1)).filterMap slotEntry =
      convertSlot ((l.take i).filterMap slotEntry) p := by
  rw [List.take_add_one, hp, List.filterMap_append, convertSlot_eq]
  cases h : slotEntry p <;> simp [h]

/-- A request goes on with its own listing. -/
theorem ReadsOne.next {log : SdkTrace}
    (hcur : S.enumerated S.provider.camera_info_list_.epoch =
      S.provider.camera_info_list_.pDeviceInfo)
    (ht : ReadsOne S t) (h : Section held S.provider t.pc tr P' pc') :
    ReadsOne (S.next t.pc P') ⟨pc', log⟩ := by
  have hkeep := fun e => enumerated_next (e := e) hcur h.effect
  rw [ReadsOne] at ht
  generalize t.pc = q at h ht hkeep
  cases h with
  | enumFailed hr => exact Or.inr ⟨hr, rfl⟩
  | enumerated => exact ⟨_, le_rfl, rfl, Nat.zero_le _, rfl, Or.inl rfl⟩
  | @convert i infos epochs p hp =>
      obtain ⟨e, hle, rfl, hi, rfl, he⟩ := ht
      have hlt : i < S.provider.camera_info_list_.pDeviceInfo.length :=
        (List.getElem?_eq_some_iff.mp hp).1
      obtain rfl : e = S.provider.camera_info_list_.epoch := by
        rcases he with he | ⟨-, hshort⟩
        · exact he
        · omega
      refine ⟨S.provider.camera_info_list_.epoch, le_rfl, List.replicate_succ'.symm, ?_, ?_,
        Or.inl rfl⟩
      · rw [hkeep _ le_rfl, hcur]
        omega
      · rw [hkeep _ le_rfl, hcur, filterMap_take_succ hp]
  | @converted i infos epochs hp =>
      obtain ⟨e, hle, rfl, hi, rfl, he⟩ := ht
      have hlen : S.provider.camera_info_list_.pDeviceInfo.length ≤ i :=
        List.getElem?_eq_none_iff.mp hp
      have hall : i = (S.enumerated e).length := by
        rcases he with rfl | ⟨hall, -⟩
        · rw [hcur] at hi ⊢
          omega
        · exact hall
      refine Or.inl ⟨rfl, e, hle, ?_, ?_⟩
      · rw [hkeep e hle, ← hall]
      · rw [hkeep e hle, hall, List.take_length]
  | _ => trivial

/-- Another request's section leaves a listing alone, if it does not enumerate in the
middle of it. -/
theorem ReadsOne.stable
    (hcur : S.enumerated S.provider.camera_info_list_.epoch =
      S.provider.camera_info_list_.pDeviceInfo)
    (hu : ReadsOne S u) (h : Effect held S.provider pc tr P')
    (hund : pc = .arrive .getCameraMetas → ∀ i ∈ u.pc.position, i = 0 ∨
      (S.provider.camera_info_list_.pDeviceInfo.length ≤ i ∧
        P'.camera_info_list_.pDeviceInfo.length ≤ i)) :
    ReadsOne (S.next pc P') u := by
  have hkeep := fun e => enumerated_next (e := e) hcur h
  have hle' := epoch_le h
  unfold ReadsOne at hu ⊢
  split at hu
  · rename_i i infos epochs hpc
    obtain ⟨e, hle, hep, hi, hin, he⟩ := hu
    rcases h.records with hsame | ⟨hpc', -⟩
    · refine ⟨e, hle.trans hle', hep, by rwa [hkeep e hle], by rwa [hkeep e hle], ?_⟩
      rw [hkeep e hle]
      change e = P'.camera_info_list_.epoch ∨ _ ∧ P'.camera_info_list_.pDeviceInfo.length ≤ i
      rwa [hsame]
    · rcases hund hpc' i (Pc.position_eq_some.mpr ⟨_, _, hpc⟩) with rfl | ⟨hold, hnew⟩
      · refine ⟨_, le_rfl, hep, Nat.zero_le _, by simpa using hin, Or.inl rfl⟩
      · have hall : i = (S.enumerated e).length := by
          rcases he with rfl | ⟨hall, -⟩
          · rw [hcur] at hi ⊢
            omega
          · exact hall
        exact ⟨e, hle.trans hle', hep, by rwa [hkeep e hle], by rwa [hkeep e hle],
          Or.inr ⟨by rwa [hkeep e hle], hnew⟩⟩
  · rename_i reply epochs hpc
    rcases hu with ⟨hok, e, hle, hl⟩ | herr
    · refine Or.inl ⟨hok, e, hle.trans hle', ?_⟩
      unfold Lists at hl ⊢
      rwa [hkeep e hle]
    · exact Or.inr herr
  · trivial

theorem listing_step (h : Listing s) (hs : Step s l s') (hund : Undisturbed s l s') :
    Listing s' := by
  obtain ⟨i, tr⟩ := l
  obtain ⟨t, P', pc', ht, hsec, rfl⟩ := step_cases hs
  constructor
  · exact Function.update_self ..
  · intro u hu
    rcases (Pool.mem_set_iff ht).mp hu with rfl | hu
    · exact (h.reads t (List.mem_of_getElem? ht)).next h.current hsec
    · obtain ⟨j, -, hju⟩ := Pool.mem_others.mp hu
      have hmem := List.mem_of_getElem? hju
      exact (h.reads u hmem).stable h.current hsec.effect fun hpc =>
        hund t ht (Pc.enumerates_iff.mpr hpc) u hmem

/-! ## A disturbed listing -/

/-- One iteration of the loop touches nothing that is shared. -/
theorem convert_step (hcur : s.shared.enumerated s.shared.provider.camera_info_list_.epoch =
      s.shared.provider.camera_info_list_.pDeviceInfo)
    (ht : s.threads[j]? = some t) (hpc : t.pc = .convert i infos epochs) :
    ∃ s' u, Step s (j, []) s' ∧ s'.shared = s.shared ∧ s'.threads[j]? = some u ∧
      u.pc = convertStep s.shared.provider.camera_info_list_ i infos epochs := by
  have hnext : s.shared.next t.pc s.shared.provider = s.shared := by
    rw [hpc]
    simp only [Service.next, ← hcur, Function.update_eq_self]
  have hrun : Runs (advance (heldBy (s.threads.eraseIdx j)) t.pc) s.shared.provider []
      s.shared.provider (convertStep s.shared.provider.camera_info_list_ i infos epochs) := by
    rw [hpc]
    simp only [advance, runs_get_bind, runs_pure, and_self]
  have hstep : Step s (j, []) ⟨s.shared, s.threads.set j
      ⟨convertStep s.shared.provider.camera_info_list_ i infos epochs, t.log ++ []⟩⟩ :=
    .mk ht ⟨by rw [hpc]; rfl, _, _, hrun, hnext.symm, rfl⟩
  exact ⟨_, _, hstep, rfl, (Pool.getElem?_set_iff ht).mpr (Or.inl ⟨rfl, rfl⟩), rfl⟩

/-- A request can finish its listing alone; the rest is read from the current array. -/
theorem exists_listed (hcur : s.shared.enumerated s.shared.provider.camera_info_list_.epoch =
      s.shared.provider.camera_info_list_.pDeviceInfo)
    (ht : s.threads[j]? = some t) (hpc : t.pc = .convert i infos epochs) :
    ∃ s' u reply, Reachable Step s s' ∧ s'.shared = s.shared ∧ s'.threads[j]? = some u ∧
      reply.ret = .ok ∧
      u.pc = .listed reply (epochs ++ List.replicate
        (s.shared.provider.camera_info_list_.pDeviceInfo.length - i)
        s.shared.provider.camera_info_list_.epoch) := by
  -- the induction is on the number of slots left to read
  induction hn : s.shared.provider.camera_info_list_.pDeviceInfo.length - i
    generalizing s t i infos epochs with
  | zero =>
      have hnone : s.shared.provider.camera_info_list_.pDeviceInfo[i]? = none :=
        List.getElem?_eq_none_iff.mpr (by omega)
      obtain ⟨s', u, hs, hshared, hu, hupc⟩ := convert_step hcur ht hpc
      rw [convertStep, hnone] at hupc
      exact ⟨s', u, _, .tail (.refl s) hs, hshared, hu, rfl, by simpa using hupc⟩
  | succ n ih =>
      have hlt : i < s.shared.provider.camera_info_list_.pDeviceInfo.length := by omega
      obtain ⟨s₁, u, hs, hshared, hu, hupc⟩ := convert_step hcur ht hpc
      rw [convertStep, List.getElem?_eq_getElem hlt] at hupc
      obtain ⟨s', v, reply, hr, hshared', hv, hok, hvpc⟩ :=
        ih (by rw [hshared]; exact hcur) hu hupc (by rw [hshared]; omega)
      refine ⟨s', v, reply, (Reachable.tail (.refl s) hs).trans hr, hshared'.trans hshared, hv,
        hok, ?_⟩
      rw [hvpc, hshared, List.replicate_succ, List.append_assoc, List.singleton_append]

/-- An enumeration in the middle of a listing spoils the response. -/
theorem not_listsOne_of_disturbed (h : Listing s) (hs : Step s l s')
    (hund : ¬ Undisturbed s l s') : ∃ s'', Reachable Step s' s'' ∧ ¬ ListsOne s'' := by
  obtain ⟨k, tr⟩ := l
  obtain ⟨t, P', pc', ht, hsec, rfl⟩ := step_cases hs
  rw [Undisturbed] at hund
  push Not at hund
  obtain ⟨t₁, ht₁, hpc, u, hu, i, hpos, hi, hbad⟩ := hund
  obtain rfl : t = t₁ := Option.some.inj (ht.symm.trans ht₁)
  rw [Pc.enumerates_iff] at hpc
  obtain ⟨infos, epochs, hupc⟩ := Pc.position_eq_some.mp hpos
  obtain ⟨j, hju⟩ := List.mem_iff_getElem?.mp hu
  have hjk : j ≠ k := by
    intro hjk
    subst hjk
    obtain rfl : t = u := Option.some.inj (ht.symm.trans hju)
    rw [hpc] at hupc
    cases hupc
  have hepoch : P'.camera_info_list_.epoch = s.shared.provider.camera_info_list_.epoch + 1 := by
    rw [hpc] at hsec
    cases hsec with
    | enumFailed hr => rfl
    | enumerated => rfl
  have hread := h.reads u hu
  simp only [ReadsOne, hupc] at hread
  obtain ⟨e, hle, rfl, hie, -, he⟩ := hread
  -- the disturbed request goes on alone
  have hcur' : (s.shared.next t.pc P').enumerated P'.camera_info_list_.epoch =
      P'.camera_info_list_.pDeviceInfo := Function.update_self ..
  have hju' : (s.threads.set k ⟨pc', t.log ++ tr⟩)[j]? = some u :=
    (Pool.getElem?_set_iff ht).mpr (Or.inr ⟨hjk, hju⟩)
  obtain ⟨s'', v, reply, hr, hshared, hv, hok, hvpc⟩ :=
    exists_listed (s := ⟨s.shared.next t.pc P', s.threads.set k ⟨pc', t.log ++ tr⟩⟩) hcur' hju' hupc
  refine ⟨s'', hr, fun hone => ?_⟩
  rcases hone v (List.mem_of_getElem? hv) reply _ hvpc with ⟨-, e', hlists, -⟩ | ⟨herr, -⟩
  · have hall : ∀ x ∈ List.replicate i e ++
        List.replicate (P'.camera_info_list_.pDeviceInfo.length - i) P'.camera_info_list_.epoch,
        x = e' := fun x hx => List.eq_of_mem_replicate (hlists ▸ hx)
    -- its first slot is from `e`, so all of them are
    obtain rfl : e = e' := hall e (by simp [hi])
    have hshort : P'.camera_info_list_.pDeviceInfo.length ≤ i := by
      by_contra hlong
      have := hall P'.camera_info_list_.epoch (by simp; omega)
      omega
    have hlen : i = (s.shared.enumerated e).length := by
      have := congrArg List.length hlists
      rw [hshared] at this
      simp only [List.length_append, List.length_replicate, Service.provider_next,
        enumerated_next h.current hsec.effect hle] at this
      omega
    have hlong : i < s.shared.provider.camera_info_list_.pDeviceInfo.length := by
      by_contra hlong
      exact absurd (hbad (by omega)) (by simpa using hshort)
    rcases he with rfl | ⟨-, hle'⟩
    · rw [h.current] at hlen
      omega
    · omega
  · exact herr hok

/-! ## Every run -/

/-- **A response lists one enumeration**, in every run of every list of requests in which
no enumeration lands in the middle of another listing; and one that does land there
leaves the disturbed request a way to a response that lists no enumeration: its slots are
not those of one, though the slots that differ may give no entry. -/
theorem listsOne_of_undisturbed (list : InfoList) (reqs : List Request)
    (es : List ((ℕ × SdkTrace) × System)) (h : Along Step (start list reqs) es)
    (hund : Along Undisturbed (start list reqs) es) :
    EveryState ListsOne (start list reqs) es ∧
      ∀ l s', Step (lastState (start list reqs) es) l s' →
        ¬ Undisturbed (lastState (start list reqs) es) l s' →
        ∃ s'', Reachable Step s' s'' ∧ ¬ ListsOne s'' := by
  have hstart : Listing (start list reqs) := by
    refine ⟨rfl, fun t ht => ?_⟩
    obtain ⟨r, -, rfl⟩ := List.mem_map.mp ht
    trivial
  have hall : EveryState Listing (start list reqs) es :=
    everyState_of_along hstart (fun s l t hl hq => listing_step hl hq.1 hq.2)
      (along_and.mpr ⟨h, hund⟩)
  exact ⟨hall.imp fun s hs => hs.listsOne,
    fun l s' hs hbad => not_listsOne_of_disturbed hall.last hs hbad⟩

/-- Two requests for the list of cameras. -/
def twoLists : System := start ⟨0, []⟩ [.getCameraMetas, .getCameraMetas]

/-- The second request enumerates before the first one reads a slot. -/
def undisturbedRun : List ((ℕ × SdkTrace) × System) :=
  playAll twoLists [(0, finding [some (usbCamera [71])]), (1, finding [some (usbCamera [72])]),
    (0, obliging), (0, obliging), (1, obliging), (1, obliging)]

theorem along_undisturbedRun : Along Step twoLists undisturbedRun := along_playAll twoLists _

theorem undisturbed_undisturbedRun : Along Undisturbed twoLists undisturbedRun := by
  decide +kernel

theorem listsOne_undisturbedRun : EveryState ListsOne twoLists undisturbedRun :=
  (listsOne_of_undisturbed _ _ _ along_undisturbedRun undisturbed_undisturbedRun).1

/-- The second request enumerates after the first one has read a slot, and finds the
cameras in the other order. -/
def disturbedRun : List ((ℕ × SdkTrace) × System) :=
  playAll twoLists [(0, finding [some (usbCamera [71]), some (usbCamera [72])]), (0, obliging),
    (1, finding [some (usbCamera [72]), some (usbCamera [71])]), (0, obliging), (0, obliging)]

theorem along_disturbedRun : Along Step twoLists disturbedRun := along_playAll twoLists _

/-- The first camera is listed twice, and the second one not at all. -/
theorem not_listsOne : ¬ ∀ (list : InfoList) (reqs : List Request)
    (es : List ((ℕ × SdkTrace) × System)), (∀ r ∈ reqs, r = .getCameraMetas) →
      Along Step (start list reqs) es → EveryState ListsOne (start list reqs) es := by
  intro h
  have hone := (h _ _ _ (by simp) along_disturbedRun).last
  have hresponse : ((lastState twoLists disturbedRun).threads.map fun t =>
      t.pc.response.map fun r => (r.1.ret, r.1.data.map CameraMeta.serialNumber, r.2))[0]? =
        some (some (.ok, [[71], [71]], [1, 2])) := by decide +kernel
  obtain ⟨t, ht, hr⟩ := Option.map_eq_some_iff.mp (List.getElem?_map ▸ hresponse)
  obtain ⟨r, hpc, hr⟩ := Option.map_eq_some_iff.mp hr
  simp only [Prod.mk.injEq] at hr
  rcases hone t (List.mem_of_getElem? ht) _ _ (Pc.response_eq_some.mp hpc) with
    ⟨-, e, hlists, -⟩ | ⟨herr, -⟩
  · rw [hr.2.2] at hlists
    have hmem : ∀ x ∈ [1, 2], x = e := fun x hx => List.eq_of_mem_replicate (hlists ▸ hx)
    have h1 := hmem 1 (by simp)
    have h2 := hmem 2 (by simp)
    omega
  · exact herr hr.1

end CameraService
