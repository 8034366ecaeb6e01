import CameraService.Concurrent.Invariant

/-!
# The records devices are started from

`find_camera_info_by_sn` hands out a pointer into the enumerated array and gives up
the lock.  The pointer is used by the next section of the request, and an enumeration
in between may release or rewrite what it points to.

## Main definitions

* `RecordsLive` — outstanding pointers are valid, and every device was started from a
  record with the serial number of its key.
* `OpensNamed` — a step opens only the camera that its request names.
* `KeepsRecords` — the condition on the steps.
* `keepsRecords_iff_recordsLive` — along a run the one amounts to the other.
-/

namespace CameraService

open Interaction Provider Transition

variable {S : Service} {t u : Thread} {tr : SdkTrace} {a b : DevId} {k sn : Key}
  {P P' : Provider} {pc pc' : Pc} {held : DevId → Bool} {s s' : System} {l : ℕ × SdkTrace}
  {info : RecordPtr} {data : Buff}

/-- The pointer leads to a record with this serial number. -/
def Live (P : Provider) (sn : Key) (info : RecordPtr) : Prop :=
  ∃ i, P.camera_info_list_.deref info = some i ∧ i.HasSerial sn

/-- Every outstanding pointer leads to a record with the serial number of its request,
and every device was started from such a record. -/
structure RecordsLive (s : System) : Prop where
  pending : ∀ t ∈ s.threads, ∀ sn info data, t.pc = .create sn info data →
    Live s.shared.provider sn info
  made : ∀ a m, s.shared.made a = some m → ∃ i, m.record = some i ∧ i.HasSerial m.key

/-- A request that starts a device opens no other camera than the one it names. -/
def OpensNamed (s : System) (l : ℕ × SdkTrace) (_ : System) : Prop :=
  ∀ t sn info data, s.threads[l.1]? = some t → t.pc = .create sn info data →
    ∀ e ∈ l.2, ∀ i, e.op = .createHandle i → i.HasSerial sn

/-- The step does not enumerate while another request holds a pointer to a record, and
does not hand out a pointer for a serial number with a terminator inside. -/
def KeepsRecords (s : System) (l : ℕ × SdkTrace) (_ : System) : Prop :=
  ∀ t, s.threads[l.1]? = some t →
    (t.pc = .arrive .getCameraMetas →
      ∀ u ∈ s.threads, ∀ sn info data, u.pc ≠ .create sn info data) ∧
    ∀ sn info data, t.pc = .findInfo sn data →
      s.shared.provider.camera_info_list_.findCameraInfoBySn (.ofString sn) = some info → 0 ∉ sn

/-! ## One step -/

theorem Effect.records (h : Effect held P pc tr P') :
    P'.camera_info_list_ = P.camera_info_list_ ∨
      (pc = .arrive .getCameraMetas ∧
        P'.camera_info_list_.epoch = P.camera_info_list_.epoch + 1) := by
  cases h with
  | edit hpc hm h => exact Or.inl h.info
  | create => exact Or.inl rfl
  | take h => exact Or.inl rfl
  | closing hd => exact Or.inl rfl
  | enumerate => exact Or.inr ⟨rfl, rfl⟩

/-- A pointer is handed out by the search. -/
theorem Section.pointer (h : Section held P pc tr P' (.create sn info data)) :
    P' = P ∧ pc = .findInfo sn data ∧
      P.camera_info_list_.findCameraInfoBySn (.ofString sn) = some info := by
  cases h with
  | known h => exact ⟨rfl, rfl, h⟩

theorem live_of_find (h0 : 0 ∉ sn)
    (h : P.camera_info_list_.findCameraInfoBySn (.ofString sn) = some info) : Live P sn info := by
  obtain ⟨-, i, hi, hs⟩ := InfoList.deref_of_find h
  rw [CharArray.text_ofString, cstr_of_notMem h0] at hs
  exact ⟨i, hi, hs⟩

theorem Live.congr (h : Live P sn info) (he : P'.camera_info_list_ = P.camera_info_list_) :
    Live P' sn info := by
  rw [Live]
  rwa [he]

theorem recordsLive_step (h : RecordsLive s) (hs : Step s l s') (hk : KeepsRecords s l s') :
    RecordsLive s' := by
  obtain ⟨i, tr⟩ := l
  obtain ⟨t, P', pc', ht, hsec, rfl⟩ := step_cases hs
  obtain ⟨henum, hfind⟩ := hk t ht
  have hmem := List.mem_of_getElem? ht
  constructor
  · intro u hu sn info data hpc
    rcases (Pool.mem_set_iff ht).mp hu with rfl | hu
    · obtain rfl : pc' = .create sn info data := hpc
      obtain ⟨rfl, hpc', hp⟩ := hsec.pointer
      exact live_of_find (hfind sn info data hpc' hp) hp
    · obtain ⟨j, -, hju⟩ := Pool.mem_others.mp hu
      have hu' := List.mem_of_getElem? hju
      rcases hsec.effect.records with he | ⟨hpc', -⟩
      · exact (h.pending u hu' sn info data hpc).congr he
      · exact absurd hpc (henum hpc' u hu' sn info data)
  · intro a m hm
    by_cases hcreate : ∃ sn info data, t.pc = .create sn info data
    · obtain ⟨sn, info, data, hpc⟩ := hcreate
      obtain ⟨r, hr, hs⟩ := h.pending t hmem sn info data hpc
      by_cases ha : a = s.shared.provider.next
      · simp only [Service.next, hpc, ha, Function.update_self, Option.some.injEq] at hm
        rw [← hm]
        exact ⟨r, hr, hs⟩
      · exact h.made a m (by rwa [Service.made_next ha] at hm)
    · push Not at hcreate
      exact h.made a m (by rwa [Service.made_of_not_create hcreate] at hm)

theorem keepsRecords_of_recordsLive (h : RecordsLive s) (hs : Step s l s') (h' : RecordsLive s') :
    KeepsRecords s l s' := by
  obtain ⟨i, tr⟩ := l
  obtain ⟨t, P', pc', ht, hsec, rfl⟩ := step_cases hs
  intro t₁ ht₁
  obtain rfl : t = t₁ := Option.some.inj (ht.symm.trans ht₁)
  constructor
  · -- an enumeration would leave the pointer behind
    intro hpc u hu sn info data hpcu
    obtain ⟨j, hju⟩ := List.mem_iff_getElem?.mp hu
    have hji : j ≠ i := by
      intro hji
      subst hji
      obtain rfl : t = u := Option.some.inj (ht.symm.trans hju)
      rw [hpc] at hpcu
      cases hpcu
    have hu' : u ∈ s.threads.set i ⟨pc', t.log ++ tr⟩ :=
      (Pool.mem_set_iff ht).mpr (Or.inr (Pool.mem_others.mpr ⟨j, hji, hju⟩))
    obtain ⟨r, hr, -⟩ := h.pending u hu sn info data hpcu
    obtain ⟨r', hr', -⟩ := h'.pending u hu' sn info data hpcu
    have hep : P'.camera_info_list_.epoch = s.shared.provider.camera_info_list_.epoch + 1 := by
      rw [hpc] at hsec
      cases hsec with
      | enumFailed hr => rfl
      | enumerated => rfl
    have he : info.epoch = s.shared.provider.camera_info_list_.epoch := by
      by_contra hne
      simp [InfoList.deref, hne] at hr
    have he' : info.epoch = P'.camera_info_list_.epoch := by
      by_contra hne
      change P'.camera_info_list_.deref info = some r' at hr'
      simp [InfoList.deref, hne] at hr'
    omega
  · -- the pointer is handed out for a string that no record can carry
    intro sn info data hpc hfind
    rw [hpc] at hsec
    cases hsec with
    | unknown h => simp [h] at hfind
    | @known _ _ info' h =>
        have hmem : (⟨.create sn info' data, t.log ++ []⟩ : Thread) ∈
            s.threads.set i ⟨.create sn info' data, t.log ++ []⟩ :=
          (Pool.mem_set_iff ht).mpr (Or.inl rfl)
        obtain ⟨r, -, hs⟩ := h'.pending _ hmem sn info' data rfl
        exact hs.zero_notMem

/-- A live record is the one that is opened. -/
theorem opensNamed_of_recordsLive (h : RecordsLive s) (hs : Step s l s') : OpensNamed s l s' := by
  obtain ⟨j, tr⟩ := l
  obtain ⟨t, P', pc', ht, hsec, rfl⟩ := step_cases hs
  intro t₁ sn info data ht₁ hpc e he i hop
  obtain rfl : t = t₁ := Option.some.inj (ht.symm.trans ht₁)
  obtain ⟨r, hr, hser⟩ := h.pending t (List.mem_of_getElem? ht) sn info data hpc
  have hrun : ∃ ret d, Runs (createDevice info) s.shared.provider tr
      (s.shared.provider.withDevice d) (ret, s.shared.provider.next) := by
    rw [hpc] at hsec
    cases hsec with
    | failed h hr hd => exact ⟨_, _, h⟩
    | created h hd => exact ⟨_, _, h⟩
  obtain ⟨ret, d, hrun⟩ := hrun
  obtain ⟨-, i', d', t₁, t₂, rfl, hread, hstart, -⟩ := createDevice_spec hrun
  rcases hread with ⟨hread, rfl⟩ | ⟨hread, -⟩
  · obtain rfl : r = i' := Option.some.inj (hr.symm.trans hread)
    have hc : CameraDevice.CreatesFor (some r) e.op :=
      CameraDevice.start_createsFor.run hstart e (by simpa using he)
    rw [hop] at hc
    obtain rfl : r = i := Option.some.inj hc
    exact hser
  · rw [hr] at hread
    cases hread

/-! ## Every run -/

/-- **A camera is opened from a live record with its serial number.**  Along every run
of every list of requests, each outstanding pointer is valid, each device was started
from a record with the serial number of its key, and each request opens the camera it
names, exactly when nobody enumerates while a pointer is outstanding and no pointer is
handed out for a serial number with a terminator inside. -/
theorem keepsRecords_iff_recordsLive (list : InfoList) (reqs : List Request)
    (es : List ((ℕ × SdkTrace) × System)) (h : Along Step (start list reqs) es) :
    Along KeepsRecords (start list reqs) es ↔
      EveryState RecordsLive (start list reqs) es ∧ Along OpensNamed (start list reqs) es := by
  have hstart : RecordsLive (start list reqs) := by
    constructor
    · intro t ht sn info data hpc
      obtain ⟨r, -, rfl⟩ := List.mem_map.mp ht
      cases hpc
    · intro a m hm
      cases hm
  have hiff : Along KeepsRecords (start list reqs) es ↔
      EveryState RecordsLive (start list reqs) es :=
    along_iff_everyState (J := fun _ => True) trivial (fun _ _ _ _ _ => trivial) hstart
      (fun s l t _ hP hs => ⟨fun hk => recordsLive_step hP hs hk,
        fun h' => keepsRecords_of_recordsLive hP hs h'⟩) h
  rw [hiff]
  refine ⟨fun hlive => ⟨hlive, ?_⟩, fun hlive => hlive.1⟩
  exact along_of_everyState hlive h fun s l t hs _ hst => opensNamed_of_recordsLive hs hst

/-- A request for an image of the camera `C`, and one for the list of cameras. -/
def imageAndList : System :=
  start ⟨0, [some (usbCamera [67])]⟩ [imageOf [67], .getCameraMetas]

/-- The second request enumerates while the first one holds a pointer; the memory it
points to then holds the record of the camera `D`. -/
def rewrittenRun : List ((ℕ × SdkTrace) × System) :=
  playAll imageAndList [(0, obliging), (0, obliging), (0, obliging),
    (1, finding [some (usbCamera [68]), some (usbCamera [67])]), (0, rewriting (usbCamera [68])),
    (0, obliging)]

theorem along_rewrittenRun : Along Step imageAndList rewrittenRun := along_playAll imageAndList _

/-- The second request enumerates before the first one searches the list. -/
def keptRun : List ((ℕ × SdkTrace) × System) :=
  playAll imageAndList [(0, obliging), (0, obliging), (1, finding [some (usbCamera [67])]),
    (0, obliging), (0, obliging), (1, obliging), (0, obliging), (0, obliging), (0, obliging)]

theorem keepsRecords_of_calm
    (henum : ∀ t ∈ s.threads[l.1]?, t.pc.enumerates = true → ∀ u ∈ s.threads, u.pc.starts = none)
    (hsearch : ∀ t ∈ s.threads[l.1]?, ∀ sn ∈ t.pc.searches, 0 ∉ sn) : KeepsRecords s l s' := by
  intro t ht
  refine ⟨fun hpc u hu sn info data hu' => ?_, fun sn info data hpc _ => ?_⟩
  · have hnone := henum t ht (by rw [hpc]; rfl) u hu
    simp [hu', Pc.starts] at hnone
  · exact hsearch t ht sn (by rw [hpc]; rfl)

/-- No pointer is outstanding when the list is replaced, and the camera is opened that the
request names. -/
theorem keepsRecords_iff_recordsLive_kept : Along KeepsRecords imageAndList keptRun ∧
    EveryState RecordsLive imageAndList keptRun ∧ Along OpensNamed imageAndList keptRun ∧
      ((lastState imageAndList keptRun).shared.made 0).isSome = true := by
  have henum : Along (fun s l _ => ∀ t ∈ s.threads[l.1]?, t.pc.enumerates = true →
      ∀ u ∈ s.threads, u.pc.starts = none) imageAndList keptRun := by
    decide +kernel
  have hsearch : Along (fun s l _ => ∀ t ∈ s.threads[l.1]?, ∀ sn ∈ t.pc.searches, 0 ∉ sn)
      imageAndList keptRun := by
    decide +kernel
  have hkeeps : Along KeepsRecords imageAndList keptRun :=
    (along_and.mpr ⟨henum, hsearch⟩).imp fun _ _ _ h => keepsRecords_of_calm h.1 h.2
  obtain ⟨hlive, hnamed⟩ := (keepsRecords_iff_recordsLive _ _ _ (along_playAll _ _)).mp hkeeps
  exact ⟨hkeeps, hlive, hnamed, by decide +kernel⟩

/-- The camera `D` is opened, and published as the camera `C`. -/
theorem not_recordsLive : ¬ ∀ (list : InfoList) (reqs : List Request)
    (es : List ((ℕ × SdkTrace) × System)),
    (∀ r ∈ reqs, r = .getCameraMetas ∨ ∃ sn shape, r = .getImage sn shape ∧ 0 ∉ sn) →
      Along Step (start list reqs) es → EveryState RecordsLive (start list reqs) es := by
  intro h
  have hlive := (h _ _ _ (by simp [imageOf]) along_rewrittenRun).last
  have hmade : ((lastState imageAndList rewrittenRun).shared.made 0).map Made.record =
      some none := by decide +kernel
  obtain ⟨m, hm, hrec⟩ := Option.map_eq_some_iff.mp hmade
  obtain ⟨i, hi, -⟩ := hlive.made 0 m hm
  rw [hrec] at hi
  cases hi

/-! ## The keys of one camera -/

/-- Whatever became of the array, a pointer that is still valid leads to a record whose
serial number is the C string of its request, and devices were started from such
records. -/
def keyOutline : Outline Service Thread where
  inv S := ∀ a m i, S.made a = some m → m.record = some i → i.HasSerial (cstr m.key)
  own S t := ∀ sn info data, t.pc = .create sn info data →
    info.epoch ≤ S.provider.camera_info_list_.epoch ∧
      ∀ i, S.provider.camera_info_list_.deref info = some i → i.HasSerial (cstr sn)
  apart _ _ := True
  symm _ _ _ := trivial

theorem preserves_keyOutline : keyOutline.Preserves act := by
  intro os S t tr S' t' h hI ht hothers
  obtain ⟨P', pc', hsec, rfl, rfl⟩ := section_of_act h
  refine ⟨?_, ?_, ?_⟩
  · intro a m i hm hi
    by_cases hcreate : ∃ sn info data, t.pc = .create sn info data
    · obtain ⟨sn, info, data, hpc⟩ := hcreate
      by_cases ha : a = S.provider.next
      · simp only [Service.next, hpc, ha, Function.update_self, Option.some.injEq] at hm
        subst hm
        exact (ht sn info data hpc).2 i hi
      · exact hI a m i (by rwa [Service.made_next ha] at hm) hi
    · push Not at hcreate
      exact hI a m i (by rwa [Service.made_of_not_create hcreate] at hm) hi
  · intro sn info data hpc
    obtain rfl : pc' = .create sn info data := hpc
    obtain ⟨rfl, -, hp⟩ := hsec.pointer
    obtain ⟨he, i, hi, hs⟩ := InfoList.deref_of_find hp
    refine ⟨he.le, fun i' hi' => ?_⟩
    obtain rfl : i = i' := Option.some.inj (hi.symm.trans hi')
    rwa [CharArray.text_ofString] at hs
  · intro u hu
    refine ⟨fun sn info data hpc => ?_, trivial⟩
    obtain ⟨hle, hd⟩ := (hothers u hu).1 sn info data hpc
    change info.epoch ≤ P'.camera_info_list_.epoch ∧
      ∀ i, P'.camera_info_list_.deref info = some i → i.HasSerial (cstr sn)
    rcases hsec.effect.records with he | ⟨-, he⟩
    · rw [he]
      exact ⟨hle, hd⟩
    · refine ⟨by omega, fun i hi => ?_⟩
      have hne : info.epoch ≠ P'.camera_info_list_.epoch := by omega
      simp [InfoList.deref, hne] at hi

theorem keyOutline_of_reachable {list : InfoList} {reqs : List Request}
    (h : Reachable Step (start list reqs) s) : keyOutline.Holds s := by
  refine Outline.holds_of_reachable preserves_keyOutline ⟨?_, ?_, fun _ _ _ _ _ _ _ => trivial⟩ h
  · intro a m i hm
    cases hm
  · intro t ht sn info data hpc
    obtain ⟨r, -, rfl⟩ := List.mem_map.mp ht
    cases hpc

/-- Two strings with the same C string differ in what follows it. -/
theorem toUpper_eq_iff_tail {s₁ s₂ : Bytes} (h : toUpper (cstr s₁) = toUpper (cstr s₂)) :
    toUpper s₁ = toUpper s₂ ↔ toUpper (afterCstr s₁) = toUpper (afterCstr s₂) := by
  have hsplit : ∀ s, toUpper s = toUpper (cstr s) ++ toUpper (afterCstr s) := by
    intro s
    rw [← toUpper_append, cstr_append_afterCstr]
  rw [hsplit s₁, hsplit s₂, h, List.append_cancel_left_eq]

/-- **One key for a camera.**  Two strings that find the same record are looked up under
the same key exactly when they agree, letter case aside, from the first terminator on;
and in every reachable state two entries whose devices were started from the same record
have the same key exactly when their keys agree from there on. -/
theorem sameKey_iff_sameTail (list : InfoList) :
    (∀ (s₁ s₂ : Bytes) (p : RecordPtr),
      list.findCameraInfoBySn (.ofString (toUpper s₁)) = some p →
      list.findCameraInfoBySn (.ofString (toUpper s₂)) = some p →
        (toUpper s₁ = toUpper s₂ ↔ toUpper (afterCstr s₁) = toUpper (afterCstr s₂))) ∧
    ∀ (reqs : List Request) (s : System),
      Reachable Step (start list reqs) s → ∀ k₁ a₁ m₁ k₂ a₂ m₂ i,
        s.shared.provider.cameras_list_.lookup k₁ = some a₁ → s.shared.made a₁ = some m₁ →
        s.shared.provider.cameras_list_.lookup k₂ = some a₂ → s.shared.made a₂ = some m₂ →
        m₁.record = some i → m₂.record = some i →
          (k₁ = k₂ ↔ toUpper (afterCstr k₁) = toUpper (afterCstr k₂)) := by
  have hserial : ∀ {i : DeviceInfo} {x y : Bytes}, i.HasSerial x → i.HasSerial y →
      toUpper x = toUpper y := by
    intro i x y hx hy
    obtain ⟨u, hu, hux⟩ := hx
    obtain ⟨v, hv, hvy⟩ := hy
    obtain rfl : u = v := Option.some.inj (hu.symm.trans hv)
    rw [← hux, hvy]
  constructor
  · intro s₁ s₂ p h₁ h₂
    obtain ⟨-, i₁, hi₁, hs₁⟩ := InfoList.deref_of_find h₁
    obtain ⟨-, i₂, hi₂, hs₂⟩ := InfoList.deref_of_find h₂
    obtain rfl : i₁ = i₂ := Option.some.inj (hi₁.symm.trans hi₂)
    rw [CharArray.text_ofString, cstr_toUpper] at hs₁ hs₂
    exact toUpper_eq_iff_tail (by simpa using hserial hs₁ hs₂)
  · intro reqs s h k₁ a₁ m₁ k₂ a₂ m₂ i hk₁ hm₁ hk₂ hm₂ hr₁ hr₂
    have hI : s.shared.Inv := (outline_of_reachable h).inv
    have hkeys := (keyOutline_of_reachable h).inv
    have hu₁ := hI.key_upper hk₁
    have hu₂ := hI.key_upper hk₂
    obtain ⟨m, hm, rfl⟩ := hI.made k₁ a₁ hk₁
    obtain rfl : m₁ = m := Option.some.inj (hm₁.symm.trans hm)
    obtain ⟨m', hm', rfl⟩ := hI.made k₂ a₂ hk₂
    obtain rfl : m₂ = m' := Option.some.inj (hm₂.symm.trans hm')
    have := toUpper_eq_iff_tail (hserial (hkeys a₁ m₁ i hm₁ hr₁) (hkeys a₂ m₂ i hm₂ hr₂))
    rwa [hu₁, hu₂] at this

theorem sameKey_iff_sameTail_usb : toUpper [69] = toUpper [101] ↔
    toUpper (afterCstr [69]) = toUpper (afterCstr [101]) :=
  (sameKey_iff_sameTail ⟨0, [some (usbCamera [69])]⟩).1 [69] [101] ⟨0, 0⟩ (by decide) (by decide)

/-- A terminator at the end of the string is enough: the search does not see it, and the
map does. -/
theorem not_sameKey : ¬ ∀ (l : InfoList) (s₁ s₂ : Bytes) (p : RecordPtr),
    ((l.pDeviceInfo.filterMap fun q => q.bind DeviceInfo.serial).map toUpper).Nodup →
      l.findCameraInfoBySn (.ofString (toUpper s₁)) = some p →
      l.findCameraInfoBySn (.ofString (toUpper s₂)) = some p → toUpper s₁ = toUpper s₂ := by
  intro h
  have h2 : toUpper [70] = toUpper [70, 0] :=
    h ⟨0, [some (usbCamera [70])]⟩ [70] [70, 0] ⟨0, 0⟩ (by decide) (by decide) (by decide)
  exact absurd h2 (by decide)

end CameraService
