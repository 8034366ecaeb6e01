import CameraService.BuffStore
import CameraService.Concurrent.Handles
import CameraService.Encoding
import CameraService.Requests
import Mathlib.Data.Prod.Lex

/-!
# Every request comes to an end

A request goes through a few sections; only the loop over the device records is as
long as the list, which other requests may replace while it runs.  An enumeration is
made once by each `GetCameraMetas`, so that counting first the enumerations to come
and then the sections every step of the system goes down.

An assertion that fails in a section aborts the process.  Whatever the SDK answers, a
request that is not answered yet takes its next section or aborts.  It aborts only where a
picture is taken.

## Main definitions

* `Pc.rank`, `work` — the sections that are left.
* `no_infinite_service` — no run is infinite.
* `Aborts` — a request fails an assertion.
* `advance_faults` — the section that can fail.
* `aborts_iff` — when it fails, and with which assertion.
* `requests_end` — the end of every request.
-/

namespace CameraService

open Interaction Provider Transition

variable {P P' : Provider} {held : DevId → Bool} {pc pc' : Pc} {tr : SdkTrace} {a : DevId}
  {s s' : System} {f : Fault} {sn : Key}

/-! ## The sections that are left -/

/-- How many sections are left, when `n` device records are listed.  A request that is
about to enumerate is counted by itself. -/
def Pc.rank (n : ℕ) : Pc → ℕ
  | arrive (.getImage _ _) => 7
  | arrive (.closeCamera _) => 3
  | arrive .getCameraMetas => 0
  | lookup _ _ => 6
  | findInfo _ _ => 5
  | create _ _ _ => 4
  | publish _ _ _ => 3
  | take _ _ => 2
  | closing _ => 2
  | abandon _ _ | leave _ _ _ | closeLeave _ => 1
  | convert i _ _ => n - i + 1
  | replied _ | closed | listed _ _ => 0

/-- The enumerations to come, and the sections that are left. -/
def work (s : System) : ℕ ×ₗ ℕ :=
  toLex (Pool.total (fun t => if t.pc.enumerates then 1 else 0) s.threads,
    Pool.total (fun t => t.pc.rank s.shared.provider.camera_info_list_.pDeviceInfo.length) s.threads)

theorem Section.not_enumerates (h : Section held P pc tr P' pc') : pc'.enumerates = false := by
  cases h <;> rfl

theorem Found.info {x : Option DevId} (h : Found held P sn tr P' x) :
    P'.camera_info_list_ = P.camera_info_list_ := by
  cases h with
  | hit hl hs => rfl
  | miss hl => rfl
  | evict hl hs h => exact (release_spec h).info

/-- A section that does not enumerate is one less to go. -/
theorem Section.rank_lt (h : Section held P pc tr P' pc') (hpc : pc.enumerates = false) :
    P'.camera_info_list_ = P.camera_info_list_ ∧
      pc'.rank P.camera_info_list_.pDeviceInfo.length <
        pc.rank P.camera_info_list_.pDeviceInfo.length := by
  cases h with
  | arrive h => exact ⟨rfl, by simp [Pc.rank]⟩
  | hit h => exact ⟨h.info, by simp [Pc.rank]⟩
  | miss h => exact ⟨h.info, by simp [Pc.rank]⟩
  | unknown h => exact ⟨rfl, by simp [Pc.rank]⟩
  | known h => exact ⟨rfl, by simp [Pc.rank]⟩
  | failed h hr hd => exact ⟨rfl, by simp [Pc.rank]⟩
  | created h hd => exact ⟨rfl, by simp [Pc.rank]⟩
  | abandon h => exact ⟨(release_spec h).info, by simp [Pc.rank]⟩
  | publish h => exact ⟨(addCameraDevice_spec h).info, by simp [Pc.rank]⟩
  | take h => exact ⟨rfl, by simp [Pc.rank]⟩
  | leave h => exact ⟨(release_spec h).info, by simp [Pc.rank]⟩
  | closeHit h => exact ⟨h.info, by simp [Pc.rank]⟩
  | closeMiss h => exact ⟨h.info, by simp [Pc.rank]⟩
  | closing h => exact ⟨rfl, by simp [Pc.rank]⟩
  | closeLeave h => exact ⟨(release_spec h).info, by simp [Pc.rank]⟩
  | enumFailed hr => simp [Pc.enumerates] at hpc
  | enumerated => simp [Pc.enumerates] at hpc
  | @convert i _ _ _ hp =>
      -- the index is below the length of the list
      have hi : i < P.camera_info_list_.pDeviceInfo.length := (List.getElem?_eq_some_iff.mp hp).1
      refine ⟨rfl, ?_⟩
      simp only [Pc.rank]
      omega
  | converted hp => exact ⟨rfl, by simp [Pc.rank]⟩

/-- A step of the system is one less to go. -/
theorem work_lt {l : ℕ × SdkTrace} (h : Step s l s') : work s' < work s := by
  obtain ⟨i, tr⟩ := l
  obtain ⟨t, P', pc', ht, hs, rfl⟩ := step_cases h
  rw [work, work, Prod.Lex.toLex_lt_toLex]
  simp only [Service.provider_next, Pool.total_eq ht, Pool.total_set ht, hs.not_enumerates]
  by_cases hpc : t.pc.enumerates = true
  · left
    rw [if_pos hpc, if_neg (by simp)]
    omega
  · right
    rw [Bool.not_eq_true] at hpc
    obtain ⟨hinfo, hlt⟩ := hs.rank_lt hpc
    rw [hpc, hinfo]
    exact ⟨rfl, by omega⟩

/-! ## The section that can fail -/

theorem release_faults (hc : (P.heap a).Coherent) : ¬ Faults (release held a) P tr f := by
  simp only [release, faults_get_bind]
  split
  · exact faults_pure
  · rw [onDevice, faults_zoom]
    exact CameraDevice.stopAndClose_faults_of_coherent hc

theorem lookup_faults (hc : ∀ a, (P.heap a).Coherent) :
    ¬ Faults (findCameraDeviceBySn held sn) P tr f := by
  simp only [findCameraDeviceBySn, faults_get_bind]
  split
  · exact faults_pure
  · split
    · rw [faults_modify_bind, faults_bind]
      rintro (h | ⟨_, _, _, _, -, -, h⟩)
      · refine release_faults ?_ h
        exact hc _
      · exact faults_pure h
    · exact faults_pure

theorem addCameraDevice_faults (hc : ∀ a, (P.heap a).Coherent) :
    ¬ Faults (addCameraDevice held sn a) P tr f := by
  simp only [addCameraDevice, faults_get_bind, faults_modify_bind]
  cases P.cameras_list_.lookup sn with
  | none => exact faults_pure
  | some old =>
      refine release_faults ?_
      exact hc old

/-- A section that is followed by a plain step fails where the section does. -/
theorem faults_bind_pure {α β : Type} {p : ProviderProc α} {g : α → ProviderProc β}
    (hg : ∀ x s t e, ¬ Faults (g x) s t e) (hp : ∀ t e, ¬ Faults p P t e) :
    ¬ Faults (p >>= g) P tr f := by
  rw [faults_bind]
  rintro (h | ⟨_, _, _, _, -, -, h⟩)
  · exact hp _ _ h
  · exact hg _ _ _ _ h

/-- **Only where a picture is taken can a section fail.** -/
theorem advance_faults (hc : ∀ a, (P.heap a).Coherent) (hpc : ∀ a data, pc ≠ .take a data) :
    ¬ Faults (advance held pc) P tr f := by
  cases pc with
  | arrive r =>
      cases r with
      | getImage sn shape =>
          exact faults_bind_pure (fun _ _ _ _ => faults_pure)
            fun _ _ => Buff.ensureSizeCopy_faults Buff.valid_empty
      | closeCamera sn =>
          refine faults_bind_pure (fun x _ _ _ => ?_) fun _ _ => lookup_faults hc
          cases x with
          | none => exact faults_pure
          | some a => exact faults_pure
      | getCameraMetas =>
          refine faults_bind_pure (fun _ _ _ _ => faults_pure) fun _ _ h => ?_
          simp [enumAllCamerasInfo, CMvCamera.enumDevices] at h
  | lookup sn data =>
      refine faults_bind_pure (fun x _ _ _ => ?_) fun _ _ => lookup_faults hc
      cases x with
      | none => exact faults_pure
      | some a => exact faults_pure
  | findInfo sn data =>
      simp only [advance, findCameraInfoBySn, bind_assoc, faults_get_bind, pure_bind]
      split
      · exact faults_pure
      · exact faults_pure
  | create sn info data =>
      exact faults_bind_pure (fun _ _ _ _ => faults_pure) fun _ _ => createDevice_faults
  | abandon a data =>
      exact faults_bind_pure (fun _ _ _ _ => faults_pure) fun _ _ => release_faults (hc a)
  | publish sn a data =>
      exact faults_bind_pure (fun _ _ _ _ => faults_pure) fun _ _ => addCameraDevice_faults hc
  | take a data => exact absurd rfl (hpc a data)
  | leave a ret data =>
      exact faults_bind_pure (fun _ _ _ _ => faults_pure) fun _ _ => release_faults (hc a)
  | replied reply => exact faults_pure
  | closing a =>
      refine faults_bind_pure (fun _ _ _ _ => faults_pure) fun _ _ => ?_
      rw [onDevice, faults_zoom]
      exact CameraDevice.stopAndClose_faults_of_coherent (hc a)
  | closeLeave a =>
      exact faults_bind_pure (fun _ _ _ _ => faults_pure) fun _ _ => release_faults (hc a)
  | closed => exact faults_pure
  | convert i infos epochs =>
      simp only [advance, faults_get_bind]
      exact faults_pure
  | listed reply epochs => exact faults_pure

/-! ## How a request goes on -/

theorem Works.coherent {heap heap' : DevId → CameraDevice} {next : DevId}
    (hc : ∀ a, (heap a).Coherent) (hw : Works heap next tr heap') : ∀ a, (heap' a).Coherent := by
  intro b
  cases hw with
  | idle htr => exact hc b
  | @member _ a call d' h =>
      by_cases hb : b = a
      · rw [hb, Function.update_self]
        exact (call.run_coherent (hc a) h).1
      · rw [Function.update_of_ne hb]
        exact hc b
  | @made _ _ call d' h₀ h =>
      by_cases hb : b = next
      · rw [hb, Function.update_self]
        exact (call.run_coherent (Or.inl CameraDevice.closed_new) h).1
      · rw [Function.update_of_ne hb]
        exact hc b

theorem coherent_step {l : ℕ × SdkTrace} (hc : ∀ a, (s.shared.provider.heap a).Coherent)
    (h : Step s l s') : ∀ a, (s'.shared.provider.heap a).Coherent := by
  obtain ⟨i, tr⟩ := l
  obtain ⟨t, P', pc', ht, hs, rfl⟩ := step_cases h
  exact hs.works.coherent hc

/-- The `i`-th request fails an assertion in its next section, after these calls. -/
def Aborts (s : System) (i : ℕ) (tr : SdkTrace) (f : Fault) : Prop :=
  ∃ t, s.threads[i]? = some t ∧ t.pc.finished = false ∧
    Faults (advance (heldBy (s.threads.eraseIdx i)) t.pc) s.shared.provider tr f

theorem advance_take_faults {data : Buff} : Faults (advance held (.take a data)) P tr f ↔
    Faults (CameraDevice.takePicture none data) (P.heap a) tr f := by
  simp only [advance, faults_bind]
  constructor
  · intro h
    rcases h with h | ⟨_, _, _, _, -, -, h⟩
    · exact faults_zoom.mp h
    · exact absurd h faults_pure
  · exact fun h => Or.inl (faults_zoom.mpr h)

/-- A device that was shut down fails the first assertion. -/
theorem takePicture_faults_of_closed {d : CameraDevice} {data : Buff} (hd : d.Closed) :
    Faults (CameraDevice.takePicture none data) d tr f ↔ tr = [] ∧ f = .assertCamera := by
  simp [CameraDevice.takePicture, hd.camera]

/-- **The assertions that can fail.**  A device that was shut down has no camera; a running one
fails where the encoder reports more than there was room for. -/
theorem aborts_iff {i : ℕ} {t : Thread} (hO : outline.Holds s)
    (hc : ∀ a, (s.shared.provider.heap a).Coherent) (ht : s.threads[i]? = some t) :
    Aborts s i tr f ↔ ∃ a data, t.pc = .take a data ∧
      ((s.shared.provider.heap a).Closed ∧ tr = [] ∧ f = .assertCamera ∨
        (s.shared.provider.heap a).Running ∧ f = .assertDataSize ∧
          Overruns (CameraDevice.takePicture none data) (s.shared.provider.heap a) tr) := by
  constructor
  · intro h
    obtain ⟨u, hu, -, h⟩ := h
    obtain rfl : t = u := Option.some.inj (ht.symm.trans hu)
    obtain ⟨a, data, hpc⟩ : ∃ a data, t.pc = .take a data := by
      by_contra hno
      push Not at hno
      exact advance_faults hc hno h
    rw [hpc, advance_take_faults] at h
    have hown : Relies s.shared t := hO.own t (List.mem_of_getElem? ht)
    simp only [Relies, hpc] at hown
    refine ⟨a, data, hpc, ?_⟩
    rcases hown.2 with hr | hcl
    · exact Or.inr ⟨hr, (takePicture_faults_iff hr).mp h⟩
    · exact Or.inl ⟨hcl, (takePicture_faults_of_closed hcl).mp h⟩
  · intro h
    obtain ⟨a, data, hpc, h⟩ := h
    refine ⟨t, ht, by rw [hpc]; rfl, ?_⟩
    rw [hpc, advance_take_faults]
    rcases h with ⟨hcl, h⟩ | ⟨hr, h⟩
    · exact (takePicture_faults_of_closed hcl).mpr h
    · exact (takePicture_faults_iff hr).mpr h

/-- **A request goes on**, whatever the answers: it takes its next section, or aborts. -/
theorem step_or_aborts {i : ℕ} {t : Thread} (o : Oracle sdk) (ht : s.threads[i]? = some t)
    (hf : t.pc.finished = false) :
    ∃ tr, o.Gives tr ∧ ((∃ s', Step s (i, tr) s') ∨ ∃ f, Aborts s i tr f) := by
  obtain ⟨tr, ho, ⟨P', pc', h⟩ | ⟨f, h⟩⟩ := runs_or_faults o
    (advance (heldBy (s.threads.eraseIdx i)) t.pc) s.shared.provider
  · exact ⟨tr, ho, Or.inl ⟨_, .mk ht ⟨hf, P', pc', h, rfl, rfl⟩⟩⟩
  · exact ⟨tr, ho, Or.inr ⟨f, t, ht, hf, h⟩⟩

/-- **Every request comes to an end.**  However the requests take turns and whatever the SDK
answers, no run is infinite, and a request that is not answered yet takes its next section or
aborts the process.  It aborts exactly in `take_picture`: on a device that was shut down in
the first assertion, and on a running one in that of `set_data_size`, where the encoder has
reported a length that is not below the size of its buffer. -/
theorem requests_end (list : InfoList) (reqs : List Request) :
    (∀ run : ℕ → System, run 0 = start list reqs →
        ¬ ∀ n, ∃ l, Step (run n) l (run (n + 1))) ∧
      ∀ s, Reachable Step (start list reqs) s → ∀ i t, s.threads[i]? = some t →
        t.pc.finished = false →
          (∀ o : Oracle sdk, ∃ tr, o.Gives tr ∧
            ((∃ s', Step s (i, tr) s') ∨ ∃ f, Aborts s i tr f)) ∧
          ∀ tr f, Aborts s i tr f ↔ ∃ a data, t.pc = .take a data ∧
            ((s.shared.provider.heap a).Closed ∧ tr = [] ∧ f = .assertCamera ∨
              (s.shared.provider.heap a).Running ∧ f = .assertDataSize ∧
                Overruns (CameraDevice.takePicture none data) (s.shared.provider.heap a) tr) := by
  have hwork : ∀ s l s', Step s l s' → work s' < work s := fun _ _ _ => work_lt
  refine ⟨fun run _ => no_infinite_run (r := (· < ·)) (m := work) hwork run,
    fun s hr i t ht hf => ⟨fun o => step_or_aborts o ht hf, fun tr f => ?_⟩⟩
  have hc : ∀ a, (s.shared.provider.heap a).Coherent :=
    hr.induction (fun _ => Or.inl CameraDevice.closed_new) fun _ _ _ hc h => coherent_step hc h
  exact aborts_iff (outline_of_reachable hr) hc ht

end CameraService
