import CameraService.DeviceStates
import CameraService.Provider

/-!
# What the sections of the provider do

One lemma for each locked section: which part of the state it can change, and
how.  Giving up a reference is the step that reaches furthest, since it may run a
destructor; `Released` says what it leaves alone.

## Main definitions

* `Provider.Released` — the effect of giving up references.
* `Provider.release_spec`, `Provider.findCameraDeviceBySn_spec`,
  `Provider.addCameraDevice_spec`, `Provider.createDevice_spec` — the sections.
-/

namespace CameraService

open Interaction

namespace Provider

variable {P P' : Provider} {held : DevId → Bool} {a b : DevId} {sn k : Key}
  {tr : SdkTrace} {r : Ret}

/-! ## The heap and the map -/

@[simp] theorem heap_set {d : CameraDevice} :
    ((deviceAt a).set d P).heap = Function.update P.heap a d := rfl

@[simp] theorem camera_info_list_set {d : CameraDevice} :
    ((deviceAt a).set d P).camera_info_list_ = P.camera_info_list_ := rfl

theorem published_iff : P.Published a ↔ ∃ k, P.cameras_list_.lookup k = some a := by
  constructor
  · intro h
    obtain ⟨⟨k, b⟩, he, rfl⟩ := h
    exact ⟨k, AList.mem_lookup_iff.mpr he⟩
  · intro h
    obtain ⟨k, hk⟩ := h
    exact ⟨⟨k, a⟩, AList.mem_lookup_iff.mp hk, rfl⟩

theorem lookup_erase_eq_some {m : AList fun _ : Key => DevId} :
    (m.erase sn).lookup k = some a ↔ k ≠ sn ∧ m.lookup k = some a := by
  by_cases h : k = sn
  · subst h; simp
  · simp [AList.lookup_erase_ne h, h]

theorem lookup_insert_eq_some {m : AList fun _ : Key => DevId} :
    (m.insert sn b).lookup k = some a ↔ (k = sn ∧ b = a) ∨ (k ≠ sn ∧ m.lookup k = some a) := by
  by_cases h : k = sn
  · subst h; simp
  · simp [AList.lookup_insert_ne h, h]

/-- An operation on a device, with the object it leaves. -/
theorem runs_onDevice {α : Type} {p : DeviceProc α} {x : α} :
    Runs (onDevice a p) P tr P' x ↔
      ∃ d, Runs p (P.heap a) tr d x ∧ P' = (deviceAt a).set d P := runs_zoom

/-! ## Giving up references -/

/-- Nothing has changed but devices without owners, which were shut down. -/
structure Released (held : DevId → Bool) (P P' : Provider) : Prop where
  info : P'.camera_info_list_ = P.camera_info_list_
  map : P'.cameras_list_ = P.cameras_list_
  next : P'.next = P.next
  heap : ∀ b, P'.heap b = P.heap b ∨
    ((P'.heap b).Closed ∧ held b = false ∧ ¬ P.Published b)
  cache : ∀ b, (P'.heap b).cache_data_ = (P.heap b).cache_data_

theorem Released.refl : Released held P P :=
  ⟨rfl, rfl, rfl, fun _ => Or.inl rfl, fun _ => rfl⟩

theorem Released.published (h : Released held P P') : P'.Published a ↔ P.Published a := by
  rw [published_iff, published_iff, h.map]

theorem Released.heap_of_published (h : Released held P P') (hb : P.Published b) :
    P'.heap b = P.heap b := by
  rcases h.heap b with h | ⟨-, -, h⟩
  · exact h
  · exact absurd hb h

/-- A device that was shut down stays so. -/
theorem Released.closed (h : Released held P P') (hb : (P.heap b).Closed) :
    (P'.heap b).Closed := by
  rcases h.heap b with h | ⟨h, -, -⟩
  · rwa [h]
  · exact h

theorem release_spec (h : Runs (release held a) P tr P' ()) : Released held P P' := by
  simp only [release, runs_get_bind] at h
  split at h
  · obtain ⟨-, rfl, -⟩ := runs_pure.mp h
    exact .refl
  · rename_i hn
    obtain ⟨d, hd, rfl⟩ := runs_onDevice.mp h
    refine ⟨rfl, rfl, rfl, fun b => ?_, fun b => ?_⟩
    · by_cases hb : b = a
      · subst hb
        have hn' : held b = false ∧ ¬ P.Published b := by simpa using hn
        exact Or.inr ⟨by simpa using CameraDevice.closed_of_stopAndClose hd, hn'⟩
      · exact Or.inl (by simp [hb])
    · by_cases hb : b = a
      · subst hb
        simp [(CameraDevice.stopAndClose_spec hd).1]
      · simp [hb]

/-- A device without owners is shut down. -/
theorem closed_of_release (ha : held a = false) (hp : ¬ P.Published a)
    (h : Runs (release held a) P tr P' ()) : (P'.heap a).Closed := by
  simp only [release, runs_get_bind, ha, hp, Bool.false_eq_true, or_self, if_false] at h
  obtain ⟨d, hd, rfl⟩ := runs_onDevice.mp h
  simpa using CameraDevice.closed_of_stopAndClose hd

/-! ## The map sections -/

/-- The three outcomes of `find_camera_device_by_sn`. -/
theorem findCameraDeviceBySn_spec {x : Option DevId}
    (h : Runs (findCameraDeviceBySn held sn) P tr P' x) :
    (P.cameras_list_.lookup sn = none ∧ x = none ∧ P' = P ∧ tr = []) ∨
      ∃ a, P.cameras_list_.lookup sn = some a ∧
        (((P.heap a).isShutdown = false ∧ x = some a ∧ P' = P ∧ tr = []) ∨
          ((P.heap a).isShutdown = true ∧ x = none ∧
            Runs (release held a) { P with cameras_list_ := P.cameras_list_.erase sn } tr P' ())) := by
  simp only [findCameraDeviceBySn, runs_get_bind] at h
  cases hl : P.cameras_list_.lookup sn with
  | none =>
      simp only [hl, runs_pure] at h
      exact Or.inl ⟨rfl, h.2.2, h.2.1, h.1⟩
  | some a =>
      refine Or.inr ⟨a, rfl, ?_⟩
      simp only [hl] at h
      split at h
      · rename_i hs
        simp only [runs_modify_bind] at h
        rw [runs_bind] at h
        obtain ⟨t₁, P₁, u, t₂, rfl, h₁, h₂⟩ := h
        obtain ⟨rfl, rfl, rfl⟩ := runs_pure.mp h₂
        exact Or.inr ⟨hs, rfl, by simpa using h₁⟩
      · rename_i hs
        obtain ⟨rfl, rfl, rfl⟩ := runs_pure.mp h
        exact Or.inl ⟨by simpa using hs, rfl, rfl, rfl⟩

theorem addCameraDevice_spec (h : Runs (addCameraDevice held sn a) P tr P' ()) :
    Released held { P with cameras_list_ := P.cameras_list_.insert sn a } P' := by
  simp only [addCameraDevice, runs_get_bind, runs_modify_bind] at h
  cases hl : P.cameras_list_.lookup sn with
  | none =>
      simp only [hl, releaseOld, runs_pure] at h
      rw [h.2.1]
      exact .refl
  | some old =>
      simp only [hl, releaseOld] at h
      exact release_spec h

/-! ## Making a device -/

/-- The state after a device was made and started. -/
def withDevice (P : Provider) (d : CameraDevice) : Provider :=
  { P with heap := Function.update P.heap P.next d, next := P.next + 1 }

theorem createDevice_spec {info : RecordPtr} (h : Runs (createDevice info) P tr P' (r, a)) :
    a = P.next ∧ ∃ i d t₁ t₂, tr = t₁ ++ t₂ ∧
      (P.camera_info_list_.deref info = some i ∧ t₁ = [] ∨
        P.camera_info_list_.deref info = none ∧ t₁ = [⟨.staleRecord, i⟩]) ∧
      Runs (CameraDevice.start (some i)) .new t₂ d r ∧ P' = P.withDevice d := by
  simp only [createDevice, makeDevice, bind_assoc, runs_get_bind, runs_modify_bind, pure_bind] at h
  rw [runs_bind] at h
  obtain ⟨t₁, P₁, i, t₂, rfl, h₁, h₂⟩ := h
  simp only [readRecord, runs_get_bind] at h₁
  rw [runs_bind] at h₂
  obtain ⟨t₃, P₂, r', t₄, rfl, h₂, h₃⟩ := h₂
  obtain ⟨d, hd, rfl⟩ := runs_onDevice.mp h₂
  obtain ⟨rfl, rfl, he⟩ := runs_pure.mp h₃
  obtain ⟨rfl, rfl⟩ := Prod.mk.inj he
  cases hi : P.camera_info_list_.deref info with
  | none =>
      simp only [hi, runs_call] at h₁
      obtain ⟨rfl, rfl⟩ := h₁
      refine ⟨rfl, i, d, _, t₃, by simp, Or.inr ⟨rfl, rfl⟩, by simpa using hd, ?_⟩
      simp [withDevice, deviceAt]
  | some j =>
      simp only [hi, runs_pure] at h₁
      obtain ⟨rfl, rfl, rfl⟩ := h₁
      refine ⟨rfl, i, d, [], t₃, by simp, Or.inl ⟨rfl, rfl⟩, by simpa using hd, ?_⟩
      simp [withDevice, deviceAt]

/-! ## Changes to other devices -/

/-- The state with other objects at some addresses. -/
def under (P : Provider) (L : DevId → Bool) (g : DevId → CameraDevice) : Provider :=
  { P with heap := fun b => if L b then g b else P.heap b }

section Under
variable {L : DevId → Bool} {g : DevId → CameraDevice}

theorem heap_under (hb : L b = false) : (P.under L g).heap b = P.heap b := by
  simp [under, hb]

theorem heap_under_of (hb : L b = true) : (P.under L g).heap b = g b := by
  simp [under, hb]

theorem set_under {d : CameraDevice} (ha : L a = false) :
    ((deviceAt a).set d P).under L g = (deviceAt a).set d (P.under L g) := by
  simp only [under, deviceAt, mk.injEq, true_and, and_true]
  funext b
  by_cases hb : b = a
  · subst hb
    simp [ha]
  · simp [hb]

theorem onDevice_frames {α : Type} {p : DeviceProc α} (ha : L a = false) :
    Frames (fun P => P.under L g) (onDevice a p) P :=
  frames_zoom (heap_under ha) fun _ => set_under ha

/-- Giving up a reference touches no device that is held. -/
theorem release_frames (hL : ∀ b, L b = true → held b = true) :
    Frames (fun P => P.under L g) (release held a) P := by
  refine frames_get_bind rfl ?_
  split
  · exact frames_pure
  · rename_i hn
    have hfree : held a = false := by
      rw [← Bool.not_eq_true]
      exact fun ha => hn (Or.inl ha)
    have ha : L a = false := by
      rw [← Bool.not_eq_true]
      intro ha
      simp [hL a ha] at hfree
    exact onDevice_frames ha

theorem findCameraDeviceBySn_frames (hL : ∀ b, L b = true → held b = true)
    (hfree : ∀ b, P.cameras_list_.lookup sn = some b → L b = false) :
    Frames (fun P => P.under L g) (findCameraDeviceBySn held sn) P := by
  refine frames_get_bind ?_ ?_
  · cases hl : P.cameras_list_.lookup sn with
    | none => simp [under, hl]
    | some a => simp [under, hl, hfree a hl]
  · split
    · exact frames_pure
    · split
      · refine Frames.bind (frames_modify ?_) fun _ _ _ _ =>
          (release_frames hL).bind fun _ _ _ _ => frames_pure
        rfl
      · exact frames_pure

theorem addCameraDevice_frames (hL : ∀ b, L b = true → held b = true) :
    Frames (fun P => P.under L g) (addCameraDevice held sn a) P := by
  refine frames_get_bind rfl (Frames.bind (frames_modify ?_) fun _ P' _ _ => ?_)
  · rfl
  · cases P.cameras_list_.lookup sn with
    | none => exact frames_pure
    | some old => exact release_frames hL

theorem createDevice_frames {info : RecordPtr} (hnext : L P.next = false) :
    Frames (fun P => P.under L g) (createDevice info) P := by
  have hmake : Frames (fun P => P.under L g) makeDevice P := by
    refine frames_get_bind rfl ((frames_modify ?_).bind fun _ _ _ _ => frames_pure)
    have hset := set_under (P := P) (g := g) (d := .new) hnext
    simp only [under, deviceAt, mk.injEq, true_and, and_true] at hset ⊢
    exact hset
  refine hmake.bind fun tr P₁ a h => ?_
  have ha : a = P.next := by
    simp only [makeDevice, runs_get_bind, runs_modify_bind, runs_pure] at h
    exact h.2.2
  have hread : Frames (fun P => P.under L g) (readRecord info) P₁ := by
    refine frames_get_bind rfl ?_
    split
    · exact frames_call
    · exact frames_pure
  refine hread.bind fun _ P₂ i _ => (onDevice_frames (ha ▸ hnext)).bind fun _ _ ret _ => ?_
  exact frames_pure

end Under

/-! ## Which calls a section makes -/

theorem release_harmless : Asks (I := sdk) CameraDevice.Harmless (release held a) := by
  refine asks_get.bind fun P => ?_
  split
  · exact asks_pure
  · exact CameraDevice.stopAndClose_harmless.zoom

theorem findCameraDeviceBySn_harmless :
    Asks (I := sdk) CameraDevice.Harmless (findCameraDeviceBySn held sn) := by
  refine asks_get.bind fun P => ?_
  split
  · exact asks_pure
  · split
    · exact asks_modify.bind fun _ => release_harmless.bind fun _ => asks_pure
    · exact asks_pure

theorem addCameraDevice_harmless :
    Asks (I := sdk) CameraDevice.Harmless (addCameraDevice held sn a) := by
  refine asks_get.bind fun P => asks_modify.bind fun _ => ?_
  cases P.cameras_list_.lookup sn with
  | none => exact asks_pure
  | some old => exact release_harmless

/-! ## The list of cameras -/

theorem enumAllCamerasInfo_spec (h : Runs enumAllCamerasInfo P tr P' r) :
    ∃ list, tr = [⟨.enumDevices [.gige, .usb], (r, list)⟩] ∧
      P' = { P with camera_info_list_ := ⟨P.camera_info_list_.epoch + 1, list⟩ } := by
  simp only [enumAllCamerasInfo, CMvCamera.enumDevices, runs_call_bind, runs_modify_bind,
    runs_pure] at h
  obtain ⟨⟨ret, list⟩, t, rfl, rfl, rfl, rfl⟩ := h
  exact ⟨list, rfl, rfl⟩

end Provider

end CameraService
