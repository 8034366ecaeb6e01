import CameraService.CameraDevice

/-!
# The states of one camera

Between two member calls a device is shut down, half open, or running: the two
flags and `camera_` take only three of their eight combinations.  Every public
member keeps this, whatever the SDK answers, and each lemma below says which of
the three states it leaves.

## Main definitions

* `CameraDevice.Running`, `CameraDevice.Closed`, `CameraDevice.HalfOpen`,
  `CameraDevice.Coherent` — the states.
* `CameraDevice.start_spec`, `CameraDevice.takePicture_spec`,
  `CameraDevice.closed_of_stopAndClose` — what each member does to them.
* `CameraDevice.takePicture_faults` — on a running device no assertion of
  `take_picture` itself fails.
-/

namespace CameraService

open Interaction

namespace CameraDevice

/-! ## The states of a device -/

/-- The three conditions that `take_picture` asserts. -/
structure Running (d : CameraDevice) : Prop where
  camera : d.camera_ ≠ none
  camera_open : d.camera_open_ = true
  grapping : d.grapping_ = true

/-- Shut down: no camera, and both flags are down. -/
structure Closed (d : CameraDevice) : Prop where
  camera : d.camera_ = none
  camera_open : d.camera_open_ = false
  grapping : d.grapping_ = false

/-- Opened, but grabbing could not be started. -/
structure HalfOpen (d : CameraDevice) : Prop where
  camera : d.camera_ ≠ none
  camera_open : d.camera_open_ = true
  grapping : d.grapping_ = false

/-- Running or shut down. -/
def Settled (d : CameraDevice) : Prop := d.Running ∨ d.Closed

/-- The states between two member calls. -/
def Coherent (d : CameraDevice) : Prop := d.Closed ∨ d.HalfOpen ∨ d.Running

instance (d : CameraDevice) : Decidable d.Running :=
  decidable_of_iff (d.camera_ ≠ none ∧ d.camera_open_ = true ∧ d.grapping_ = true)
    ⟨fun h => ⟨h.1, h.2.1, h.2.2⟩, fun h => ⟨h.camera, h.camera_open, h.grapping⟩⟩

theorem closed_new : new.Closed := ⟨rfl, rfl, rfl⟩

theorem Running.not_closed {d : CameraDevice} (h : d.Running) : ¬ d.Closed :=
  fun hc => h.camera hc.camera

theorem Running.not_isShutdown {d : CameraDevice} (h : d.Running) : d.isShutdown = false := by
  simpa [isShutdown, Option.isSome_iff_ne_none] using h.camera

theorem Closed.isShutdown {d : CameraDevice} (h : d.Closed) : d.isShutdown = true := by
  simp [CameraDevice.isShutdown, h.camera]

/-- A coherent device has a camera exactly when it is marked open. -/
theorem Coherent.camera_iff {d : CameraDevice} (h : d.Coherent) :
    d.camera_ ≠ none ↔ d.camera_open_ = true := by
  rcases h with h | h | h
  · simp [h.camera, h.camera_open]
  · simp [h.camera, h.camera_open]
  · simp [h.camera, h.camera_open]

/-! ## What the members do -/

section Specs
variable {d d' : CameraDevice} {tr : SdkTrace} {r : Ret} {c : CMvCamera} {α : Type}

@[simp] theorem runs_camera_bind {f : CMvCamera → DeviceProc α} {a : α} :
    Runs (camera >>= f) d tr d' a ↔ ∃ c, d.camera_ = some c ∧ Runs (f c) d tr d' a := by
  rw [camera]
  cases h : d.camera_ with
  | none => simp [h]
  | some c => simp [h]

@[simp] theorem awaits_camera_bind {f : CMvCamera → DeviceProc α} {op : Call} :
    Awaits (camera >>= f) d tr d' op ↔ ∃ c, d.camera_ = some c ∧ Awaits (f c) d tr d' op := by
  rw [camera]
  cases h : d.camera_ with
  | none => simp [h]
  | some c => simp [h]

theorem stopGrabbingRetry_spec {left : ℕ}
    (h : Runs (stopGrabbingRetry c left) d tr d' r) : d' = d := by
  induction left generalizing tr with
  | zero => exact (runs_call.mp h).2
  | succ left ih =>
      simp only [stopGrabbingRetry, CMvCamera.stopGrabbing, runs_call_bind] at h
      obtain ⟨ret, tr', rfl, h⟩ := h
      split at h
      · exact (runs_pure.mp h).2.1
      · exact ih h

/-- Grabbing is over after `_stop_grapping`, whatever the SDK answered. -/
theorem stopGrapping_spec (h : Runs stopGrapping d tr d' r) :
    d' = { d with grapping_ := false } ∧ (d.grapping_ = false → tr = []) := by
  simp only [stopGrapping, runs_get_bind] at h
  split at h
  · rename_i hg
    rw [runs_camera_bind] at h
    obtain ⟨c, -, h⟩ := h
    rw [runs_bind] at h
    obtain ⟨t₁, d₁, ret, t₂, rfl, h₁, h₂⟩ := h
    have hd : d₁ = d := stopGrabbingRetry_spec h₁
    subst hd
    rw [runs_modify_bind, runs_pure] at h₂
    exact ⟨h₂.2.1, fun hf => by simp [hf] at hg⟩
  · rename_i hg
    have hg' : d.grapping_ = false := by simpa using hg
    rw [runs_pure] at h
    refine ⟨?_, fun _ => h.1⟩
    rw [h.2.1, ← hg']

/-- The camera is gone after `_close_camera`, whatever the SDK answered. -/
theorem closeCamera_spec (h : Runs closeCamera d tr d' r) :
    d' = { d with camera_ := none, camera_open_ := false } ∧
      (d.camera_ = none → tr = []) := by
  simp only [closeCamera, runs_modify_bind, runs_get_bind] at h
  cases hc : d.camera_ with
  | none =>
      simp only [hc, runs_pure] at h
      exact ⟨by rw [h.2.1, ← hc], fun _ => h.1⟩
  | some c =>
      simp only [hc] at h
      rw [runs_bind] at h
      obtain ⟨t₁, d₁, ⟨ret, c'⟩, t₂, rfl, h₁, h₂⟩ := h
      rw [CMvCamera.close_state h₁, runs_modify_bind, runs_bind] at h₂
      obtain ⟨t₃, d₂, u, t₄, rfl, h₂, h₃⟩ := h₂
      rw [CMvCamera.delete_state h₂, runs_modify_bind, runs_pure] at h₃
      exact ⟨h₃.2.1, fun hn => by simp at hn⟩

/-- **`_stop_and_close` shuts the device down**, and makes no call when it is shut
down already. -/
theorem stopAndClose_spec (h : Runs stopAndClose d tr d' ()) :
    d' = { d with camera_ := none, camera_open_ := false, grapping_ := false } ∧
      (d.Closed → tr = []) := by
  simp only [stopAndClose, runs_bind, runs_pure] at h
  obtain ⟨t₁, d₁, r₁, t₂, rfl, h₁, t₃, d₂, r₂, t₄, rfl, h₂, rfl, rfl, -⟩ := h
  obtain ⟨rfl, hn₁⟩ := stopGrapping_spec h₁
  obtain ⟨rfl, hn₂⟩ := closeCamera_spec h₂
  refine ⟨rfl, fun hc => ?_⟩
  rw [hn₁ hc.grapping, hn₂ hc.camera]
  rfl

theorem closed_of_stopAndClose (h : Runs stopAndClose d tr d' ()) : d'.Closed := by
  rw [(stopAndClose_spec h).1]
  exact ⟨rfl, rfl, rfl⟩

theorem Closed.eq_self (hc : d.Closed) :
    { d with camera_ := none, camera_open_ := false, grapping_ := false } = d := by
  obtain ⟨hcamera, hopen, hgrapping⟩ := hc
  cases d
  simp_all

/-- Shutting down a device that is shut down changes nothing. -/
theorem stopAndClose_of_closed (hc : d.Closed) (h : Runs stopAndClose d tr d' ()) :
    d' = d ∧ tr = [] := by
  obtain ⟨hd, hn⟩ := stopAndClose_spec h
  exact ⟨hd.trans hc.eq_self, hn hc⟩

theorem runs_stopAndClose_closed (hc : d.Closed) :
    Runs stopAndClose d tr d' () ↔ tr = [] ∧ d' = d := by
  constructor
  · intro h
    exact (stopAndClose_of_closed hc h).symm
  · rintro ⟨rfl, rfl⟩
    simp [stopAndClose, stopGrapping, hc.grapping, closeCamera, hc.camera, hc.eq_self]

theorem configurePacketSize_spec {info : Option DeviceInfo}
    (h : Runs (configurePacketSize c info) d tr d' ()) : d' = d := by
  rw [configurePacketSize] at h
  split at h
  · simp only [setPacketSize, CMvCamera.getOptimalPacketSize, bind_assoc, runs_call_bind] at h
    obtain ⟨nRet, t₁, -, h⟩ := h
    split at h
    · simp only [pure_bind, reduceCtorEq, if_false, runs_pure] at h
      exact h.2.1
    · simp only [pure_bind, if_true, CMvCamera.setIntValue, runs_call_bind, runs_pure] at h
      obtain ⟨_, _, -, -, hd, -⟩ := h
      exact hd
  · exact (runs_pure.mp h).2.1

theorem initCamParams_spec (h : Runs (initCamParams c) d tr d' r) :
    ∃ n, d' = { d with default_buff_size_ := n } := by
  simp only [initCamParams, CMvCamera.setEnumValue, CMvCamera.getIntValue, runs_call_bind] at h
  obtain ⟨_, _, -, _, _, -, ⟨ret, n⟩, _, -, h⟩ := h
  split at h
  · rw [runs_modify_bind, runs_pure] at h
    exact ⟨_, h.2.1⟩
  · exact ⟨d.default_buff_size_, (runs_pure.mp h).2.1⟩

theorem configureCamera_spec {info : Option DeviceInfo}
    (h : Runs (configureCamera c info) d tr d' r) :
    r = .ok ∧ ∃ n, d' = { d with default_buff_size_ := n, camera_open_ := true } := by
  simp only [configureCamera, runs_bind] at h
  obtain ⟨t₁, d₁, u, t₂, rfl, h₁, t₃, d₂, r₂, t₄, rfl, h₂, h₃⟩ := h
  have hd₁ := configurePacketSize_spec h₁
  subst hd₁
  obtain ⟨n, rfl⟩ := initCamParams_spec h₂
  obtain ⟨t₅, d₃, u, t₆, rfl, h₃, h₄⟩ := h₃
  rw [runs_modify] at h₃
  rw [runs_pure] at h₄
  exact ⟨h₄.2.2, n, by rw [h₄.2.1, h₃.2]⟩

/-- Opening an open device does nothing. -/
theorem openCamera_of_open {info : Option DeviceInfo} (ho : d.camera_open_ ∨ d.camera_ ≠ none)
    (h : Runs (openCamera info) d tr d' r) : r = .ok ∧ d' = d ∧ tr = [] := by
  simp only [openCamera, runs_get_bind, ho, if_true, runs_pure] at h
  exact ⟨h.2.2, h.2.1, h.1⟩

/-- Opening a device that has no camera: the new camera is deleted again, or configured. -/
theorem openCamera_cases {info : Option DeviceInfo} (ho : ¬ (d.camera_open_ ∨ d.camera_ ≠ none))
    (h : Runs (openCamera info) d tr d' r) :
    ∃ t₁ ret c t₂, tr = t₁ ++ t₂ ∧ CMvCamera.Opening info t₁ ret c ∧
      ((ret ≠ .ok ∧ r = ret ∧ d' = { d with camera_ := none } ∧
          Runs c.delete { d with camera_ := some c } t₂ { d with camera_ := some c } ()) ∨
        (ret = .ok ∧ Runs (configureCamera c info) { d with camera_ := some c } t₂ d' r)) := by
  simp only [openCamera, runs_get_bind, ho, if_false, runs_modify_bind] at h
  obtain ⟨t₁, d₁, ⟨ret, c⟩, t₂, rfl, h₁, h₂⟩ := runs_bind.mp h
  obtain ⟨rfl, hopening⟩ := CMvCamera.opening_of_runs h₁
  rw [runs_modify_bind] at h₂
  refine ⟨t₁, ret, c, t₂, rfl, hopening, ?_⟩
  split at h₂
  · rename_i hret
    obtain ⟨t₃, d₂, u, t₄, rfl, h₃, h₄⟩ := runs_bind.mp h₂
    obtain rfl := CMvCamera.delete_state h₃
    rw [runs_modify_bind, runs_pure] at h₄
    obtain ⟨rfl, rfl, rfl⟩ := h₄
    exact Or.inl ⟨hret, rfl, rfl, by simpa using h₃⟩
  · rename_i hret
    exact Or.inr ⟨by simpa using hret, h₂⟩

/-- Opening a device that has no camera leaves none, or one that is marked open. -/
theorem openCamera_spec {info : Option DeviceInfo} (ho : ¬ (d.camera_open_ ∨ d.camera_ ≠ none))
    (h : Runs (openCamera info) d tr d' r) :
    (r ≠ .ok ∧ d' = { d with camera_ := none }) ∨
      (r = .ok ∧ ∃ c n, d' =
        { d with camera_ := some c, camera_open_ := true, default_buff_size_ := n }) := by
  obtain ⟨t₁, ret, c, t₂, -, -, ⟨hret, rfl, rfl, -⟩ | ⟨-, hconfigure⟩⟩ := openCamera_cases ho h
  · exact Or.inl ⟨hret, rfl⟩
  · obtain ⟨hr, n, hd⟩ := configureCamera_spec hconfigure
    exact Or.inr ⟨hr, c, n, hd⟩

/-- Grabbing is started in one call, unless it is on. -/
theorem startGrapping_cases (h : Runs startGrapping d tr d' r) :
    (tr = [] ∧ r = .ok ∧ d' = d ∧ d.grapping_ = true) ∨
      ∃ c, d.camera_ = some c ∧ d.grapping_ = false ∧ tr = [⟨.startGrabbing c.m_hDevHandle, r⟩] ∧
        ((r = .ok ∧ d' = { d with grapping_ := true }) ∨ (r ≠ .ok ∧ d' = d)) := by
  simp only [startGrapping, runs_get_bind] at h
  split at h
  · rename_i hg
    obtain ⟨rfl, rfl, rfl⟩ := runs_pure.mp h
    exact Or.inl ⟨rfl, rfl, rfl, hg⟩
  · rename_i hg
    rw [runs_camera_bind] at h
    obtain ⟨c, hc, h⟩ := h
    simp only [CMvCamera.startGrabbing, runs_call_bind] at h
    obtain ⟨ret, t₁, rfl, h⟩ := h
    refine Or.inr ⟨c, hc, by simpa using hg, ?_⟩
    split at h
    · rename_i hret
      obtain ⟨rfl, rfl, rfl⟩ := runs_pure.mp h
      exact ⟨rfl, Or.inr ⟨hret, rfl⟩⟩
    · rename_i hret
      have hok : ret = .ok := by simpa using hret
      subst hok
      rw [runs_modify_bind, runs_pure] at h
      obtain ⟨rfl, rfl, rfl⟩ := h
      exact ⟨rfl, Or.inl ⟨rfl, rfl⟩⟩

theorem startGrapping_spec (h : Runs startGrapping d tr d' r) :
    (r = .ok ∧ d' = { d with grapping_ := true }) ∨
      (r ≠ .ok ∧ d' = d ∧ d.grapping_ = false) := by
  rcases startGrapping_cases h with ⟨-, hr, rfl, hg⟩ | ⟨c, -, hg, -, hok | ⟨hr, rfl⟩⟩
  · exact Or.inl ⟨hr, by rw [← hg]⟩
  · exact Or.inl hok
  · exact Or.inr ⟨hr, rfl, hg⟩

/-- A start opens the camera, and then closes it again or starts grabbing. -/
theorem start_cases {info : Option DeviceInfo} (h : Runs (start info) d tr d' r) :
    ∃ t₁ d₁ t₂, tr = t₁ ++ t₂ ∧
      ((r ≠ .ok ∧ Runs (openCamera info) d t₁ d₁ r ∧ ∃ r₂, Runs closeCamera d₁ t₂ d' r₂) ∨
        (Runs (openCamera info) d t₁ d₁ .ok ∧ Runs startGrapping d₁ t₂ d' r)) := by
  obtain ⟨t₁, d₁, ret, t₂, rfl, h₁, h₂⟩ := runs_bind.mp h
  refine ⟨t₁, d₁, t₂, rfl, ?_⟩
  split at h₂
  · rename_i hret
    obtain ⟨r₂, hclose, rfl⟩ := runs_bind_pure.mp h₂
    exact Or.inl ⟨hret, h₁, r₂, hclose⟩
  · rename_i hret
    have hok : ret = .ok := by simpa using hret
    subst hok
    exact Or.inr ⟨h₁, h₂⟩

/-- **`start`** returns `0` on a running device.  After an error the device is shut
down or, when only grabbing failed, left half open. -/
theorem start_spec {info : Option DeviceInfo} (hd : d.Coherent)
    (h : Runs (start info) d tr d' r) :
    (r = .ok ∧ d'.Running) ∨ (r ≠ .ok ∧ (d'.Closed ∨ d'.HalfOpen)) := by
  obtain ⟨t₁, d₁, t₂, rfl, hrest⟩ := start_cases h
  -- `_open_camera` fails with no camera, or leaves one that is marked open
  have hopen : ∀ {ret}, Runs (openCamera info) d t₁ d₁ ret → (ret ≠ .ok ∧ d₁.Closed) ∨
      (ret = .ok ∧ d₁.camera_ ≠ none ∧ d₁.camera_open_ = true) := by
    intro ret h₁
    by_cases ho : d.camera_open_ ∨ d.camera_ ≠ none
    · obtain ⟨hr, rfl, -⟩ := openCamera_of_open ho h₁
      have hiff := hd.camera_iff
      exact Or.inr ⟨hr, by tauto, by tauto⟩
    · have hc : d.Closed := by
        rcases hd with hd | hd | hd
        · exact hd
        · exact absurd (Or.inr hd.camera) ho
        · exact absurd (Or.inr hd.camera) ho
      rcases openCamera_spec ho h₁ with ⟨hr, rfl⟩ | ⟨hr, c, n, rfl⟩
      · exact Or.inl ⟨hr, rfl, hc.camera_open, hc.grapping⟩
      · exact Or.inr ⟨hr, by simp, rfl⟩
  rcases hrest with ⟨hr, h₁, r₂, h₂⟩ | ⟨h₁, h₂⟩
  · rcases hopen h₁ with ⟨-, hc⟩ | ⟨hok, -⟩
    · rw [(closeCamera_spec h₂).1]
      exact Or.inr ⟨hr, Or.inl ⟨rfl, rfl, hc.grapping⟩⟩
    · exact absurd hok hr
  · rcases hopen h₁ with ⟨hbad, -⟩ | ⟨-, hcam, hop⟩
    · exact absurd rfl hbad
    · rcases startGrapping_spec h₂ with ⟨hr, rfl⟩ | ⟨hr, rfl, hg⟩
      · exact Or.inl ⟨hr, hcam, hop, rfl⟩
      · exact Or.inr ⟨hr, Or.inr ⟨hcam, hop, hg⟩⟩

/-- A start leaves the cache alone. -/
theorem start_cache {info : Option DeviceInfo} (h : Runs (start info) d tr d' r) :
    d'.cache_data_ = d.cache_data_ := by
  obtain ⟨t₁, d₁, t₂, -, hrest⟩ := start_cases h
  have hopen : ∀ {ret}, Runs (openCamera info) d t₁ d₁ ret → d₁.cache_data_ = d.cache_data_ := by
    intro ret h₁
    by_cases ho : d.camera_open_ ∨ d.camera_ ≠ none
    · rw [(openCamera_of_open ho h₁).2.1]
    · rcases openCamera_spec ho h₁ with ⟨-, rfl⟩ | ⟨-, c, n, rfl⟩
      · rfl
      · rfl
  rcases hrest with ⟨-, h₁, r₂, h₂⟩ | ⟨h₁, h₂⟩
  · rw [(closeCamera_spec h₂).1, ← hopen h₁]
  · rcases startGrapping_spec h₂ with ⟨-, rfl⟩ | ⟨-, rfl, -⟩
    · exact hopen h₁
    · exact hopen h₁

/-! ## What a picture does to its device -/

/-- An answer that makes `take_picture` shut the device down. -/
def closing : SdkEvent → Bool
  | ⟨.isDeviceConnected _, connected⟩ => !connected
  | ⟨.getOneFrame _ _ _ _, answer⟩ => answer.ret = .err .noData
  | _ => false

theorem growTo_spec {size : UInt32} {b b' : Buff} (h : Runs (growTo size b) d tr d' b') :
    d' = d ∧ (∀ e ∈ tr, ∃ n a, e = ⟨.malloc n, a⟩) ∧ Buff.Grown b b' := by
  rw [growTo] at h
  split at h
  · rw [runs_bind] at h
    obtain ⟨t₁, d₁, ⟨ret, b₁⟩, t₂, rfl, h₁, h₂⟩ := h
    obtain ⟨rfl, -⟩ := Buff.ensureSize_spec h₁
    obtain ⟨rfl, rfl, rfl⟩ := runs_pure.mp h₂
    exact ⟨rfl, by simpa using Buff.ensureSize_trace h₁, Buff.grown_of_ensureSize h₁⟩
  · obtain ⟨rfl, rfl, rfl⟩ := runs_pure.mp h
    exact ⟨rfl, by simp, Or.inl rfl⟩

/-- A fetch changes the cache only, and its only call besides allocations is the
one to `MV_CC_GetOneFrameTimeout`. -/
theorem fetchFrame_spec {answer : FrameAnswer} (h : Runs fetchFrame d tr d' answer) :
    ∃ (cache : Buff) (c : CMvCamera) (t₁ : SdkTrace), d.camera_ = some c ∧
      Buff.Grown d.cache_data_ cache ∧ d' = { d with cache_data_ := cache.write answer.bytes } ∧
      (∀ e ∈ t₁, ∃ n a, e = ⟨.malloc n, a⟩) ∧
      tr = t₁ ++ [⟨.getOneFrame c.m_hDevHandle cache.buff_.isSome cache.getBuffSize.toUInt32
        waitTimeout, answer⟩] := by
  simp only [fetchFrame, runs_get_bind] at h
  rw [runs_bind] at h
  obtain ⟨t₁, d₁, cache, t₂, rfl, h₁, h₂⟩ := h
  obtain ⟨rfl, hm, hg⟩ := growTo_spec h₁
  simp only [runs_modify_bind, runs_camera_bind, CMvCamera.getOneFrameTimeout, runs_call_bind,
    runs_pure] at h₂
  obtain ⟨c, hc, a, t₃, rfl, rfl, rfl, rfl⟩ := h₂
  exact ⟨cache, c, t₁, hc, hg, rfl, hm, rfl⟩

/-- An encoding leaves the device as it is.  Its only call besides allocations is
the one to `MV_CC_SaveImageEx3`, and only its success sets the data length. -/
theorem toJpg_spec {frame : FrameInfo} {param : Option ImageParameter} {data_ data' : Buff}
    (h : Runs (toJpg frame param data_) d tr d' (r, data')) :
    d' = d ∧ ∃ (grown : Buff) (c : CMvCamera) (t₁ : SdkTrace) (answer : SaveAnswer),
      d.camera_ = some c ∧ Buff.Grown data_ grown ∧ (∀ e ∈ t₁, ∃ n a, e = ⟨.malloc n, a⟩) ∧
      tr = t₁ ++ [⟨.saveImage c.m_hDevHandle (saveParam d.cache_data_ frame param grown),
        answer⟩] ∧ r = answer.ret ∧
      ((r ≠ .ok ∧ data' = grown.write answer.image) ∨
        (r = .ok ∧ answer.nImageLen < grown.buff_max_size_ ∧
          data' = { grown.write answer.image with data_size_t_ := answer.nImageLen })) := by
  simp only [toJpg, runs_get_bind] at h
  rw [runs_bind] at h
  obtain ⟨t₁, d₁, grown, t₂, rfl, h₁, h₂⟩ := h
  obtain ⟨rfl, hm, hg⟩ := growTo_spec h₁
  simp only [runs_camera_bind, CMvCamera.saveImage, runs_call_bind] at h₂
  obtain ⟨c, hc, answer, t₃, rfl, h₂⟩ := h₂
  split at h₂
  · rename_i hret
    simp only [Buff.setDataSize, bind_assoc, runs_require_bind, pure_bind, runs_pure,
      Prod.mk.injEq] at h₂
    obtain ⟨hlt, rfl, rfl, rfl, rfl⟩ := h₂
    exact ⟨rfl, grown, c, t₁, answer, hc, hg, hm, rfl, rfl, Or.inr ⟨hret, hlt, rfl⟩⟩
  · rename_i hret
    obtain ⟨rfl, rfl, he⟩ := runs_pure.mp h₂
    obtain ⟨rfl, rfl⟩ := Prod.mk.inj he
    exact ⟨rfl, grown, c, t₁, answer, hc, hg, hm, rfl, rfl, Or.inl ⟨hret, rfl⟩⟩

/-- What follows a failed fetch: the device is closed, or nothing. -/
theorem closeOnNoData_cases {ret : Ret} (h : Runs (closeOnNoData ret) d tr d' ()) :
    (ret = .err .noData ∧ Runs stopAndClose d tr d' ()) ∨
      (ret ≠ .err .noData ∧ tr = [] ∧ d' = d) := by
  rw [closeOnNoData] at h
  by_cases hno : ret = .err .noData
  · rw [if_pos hno] at h
    exact Or.inl ⟨hno, h⟩
  · rw [if_neg hno, runs_pure] at h
    exact Or.inr ⟨hno, h.1, h.2.1⟩

/-- The three ways through `take_picture`. -/
theorem takePicture_cases {param : Option ImageParameter} {data_ data' : Buff}
    (h : Runs (takePicture param data_) d tr d' (r, data')) :
    d.Running ∧ ∃ c t, d.camera_ = some c ∧
      ((tr = ⟨.isDeviceConnected c.m_hDevHandle, false⟩ :: t ∧ Runs stopAndClose d t d' () ∧
          r = .err .failure ∧ data' = data_) ∨
        ∃ t₁ d₁ answer t₂, t = t₁ ++ t₂ ∧ tr = ⟨.isDeviceConnected c.m_hDevHandle, true⟩ :: t ∧
          Runs fetchFrame d t₁ d₁ answer ∧
          ((answer.ret ≠ .ok ∧ Runs (closeOnNoData answer.ret) d₁ t₂ d' () ∧ r = answer.ret ∧
              data' = data_) ∨
            (answer.ret = .ok ∧ Runs (toJpg answer.info param data_) d₁ t₂ d' (r, data')))) := by
  simp only [takePicture, runs_get_bind, runs_require_bind, runs_camera_bind,
    CMvCamera.isDeviceConnected, runs_call_bind] at h
  obtain ⟨hc, ho, hg, c, hcam, connected, t, rfl, h⟩ := h
  refine ⟨⟨hc, ho, hg⟩, c, t, hcam, ?_⟩
  cases connected with
  | false =>
      simp only [Bool.false_eq_true, not_false_eq_true, if_true, runs_bind, runs_pure,
        Prod.mk.injEq] at h
      obtain ⟨t₁, d₁, u, t₂, rfl, h₁, rfl, rfl, rfl, rfl⟩ := h
      exact Or.inl ⟨by simp, by simpa using h₁, rfl, rfl⟩
  | true =>
      simp only [not_true_eq_false, if_false] at h
      rw [runs_bind] at h
      obtain ⟨t₁, d₁, answer, t₂, rfl, h₁, h₂⟩ := h
      refine Or.inr ⟨t₁, d₁, answer, t₂, rfl, rfl, h₁, ?_⟩
      split at h₂
      · rename_i hret
        simp only [runs_bind, runs_pure, Prod.mk.injEq] at h₂
        obtain ⟨t₃, d₃, u, t₄, rfl, h₂, rfl, rfl, rfl, rfl⟩ := h₂
        exact Or.inl ⟨hret, by simpa using h₂, rfl, rfl⟩
      · rename_i hret
        exact Or.inr ⟨by simpa using hret, h₂⟩

/-- **`take_picture`** runs on a running device only.  It shuts the device down
exactly when an answer says that the camera is gone, and keeps it running
otherwise. -/
theorem takePicture_spec {param : Option ImageParameter} {data_ data' : Buff}
    (h : Runs (takePicture param data_) d tr d' (r, data')) :
    d.Running ∧ ((tr.any closing = true ∧ d'.Closed ∧ r ≠ .ok) ∨
      (tr.any closing = false ∧ d'.Running)) := by
  obtain ⟨hd, c, t, hcam, hcases⟩ := takePicture_cases h
  refine ⟨hd, ?_⟩
  rcases hcases with ⟨rfl, h', rfl, rfl⟩ | ⟨t₁, d₁, answer, t₂, rfl, rfl, h₁, hrest⟩
  · exact Or.inl ⟨by simp [closing], closed_of_stopAndClose h', by simp⟩
  · have hmalloc : ∀ t : SdkTrace, (∀ e ∈ t, ∃ n a, e = ⟨.malloc n, a⟩) →
        t.any closing = false := by
      intro t ht
      rw [List.any_eq_false]
      intro e he
      obtain ⟨n, a, rfl⟩ := ht e he
      simp [closing]
    obtain ⟨cache, c₁, t₃, -, -, rfl, hm, rfl⟩ := fetchFrame_spec h₁
    rcases hrest with ⟨hret, h₂, rfl, rfl⟩ | ⟨hret, h₂⟩
    · obtain ⟨hno, h₂⟩ | ⟨hno, rfl, rfl⟩ := closeOnNoData_cases h₂
      · exact Or.inl ⟨by simp [closing, hno], closed_of_stopAndClose h₂, hret⟩
      · exact Or.inr ⟨by simp [closing, hno, hmalloc _ hm], hd.camera, hd.camera_open, hd.grapping⟩
    · obtain ⟨rfl, grown, c₂, t₄, saved, -, -, hm', rfl, -⟩ := toJpg_spec h₂
      have hno : answer.ret ≠ .err .noData := by simp [hret]
      exact Or.inr ⟨by simp [closing, hno, hmalloc _ hm, hmalloc _ hm'],
        hd.camera, hd.camera_open, hd.grapping⟩

/-! ## Which calls a member makes -/

/-- The calls whose answers decide nothing: the service ignores them, only logs them,
or reads a value from them. -/
def Harmless : Call → Prop
  | .malloc _ | .staleRecord | .closeDevice _ | .destroyHandle _ | .getOptimalPacketSize _
  | .setIntValue _ _ _ | .setEnumValue _ _ _ | .getIntValue _ _ | .stopGrabbing _ => True
  | _ => False

theorem camera_asks {Q : Call → Prop} : Asks (I := sdk) Q camera := by
  refine asks_get.bind fun d => ?_
  split
  · exact asks_fault
  · exact asks_pure

theorem delete_harmless : Asks (I := sdk) Harmless (c.delete : DeviceProc Unit) := by
  rw [CMvCamera.delete]
  split
  · exact asks_pure
  · exact (asks_call trivial).bind fun _ => asks_pure

theorem closeCamera_harmless : Asks (I := sdk) Harmless closeCamera := by
  refine asks_modify.bind fun _ => asks_get.bind fun d => ?_
  split
  · exact asks_pure
  · rename_i c hc
    have hclose : Asks (I := sdk) Harmless (c.close : DeviceProc (Ret × CMvCamera)) := by
      rw [CMvCamera.close]
      split
      · exact asks_pure
      · exact (asks_call trivial).bind fun _ => (asks_call trivial).bind fun _ => asks_pure
    exact hclose.bind fun _ => asks_modify.bind fun _ => delete_harmless.bind fun _ =>
      asks_modify.bind fun _ => asks_pure

theorem stopGrabbingRetry_harmless {left : ℕ} :
    Asks (I := sdk) Harmless (stopGrabbingRetry c left) := by
  induction left with
  | zero => exact asks_call trivial
  | succ left ih =>
      refine (asks_call trivial).bind fun ret => ?_
      split
      · exact asks_pure
      · exact ih

theorem stopAndClose_harmless : Asks (I := sdk) Harmless stopAndClose := by
  have hstop : Asks (I := sdk) Harmless stopGrapping := by
    refine asks_get.bind fun d => ?_
    split
    · exact camera_asks.bind fun c => stopGrabbingRetry_harmless.bind fun _ =>
        asks_modify.bind fun _ => asks_pure
    · exact asks_pure
  exact hstop.bind fun _ => closeCamera_harmless.bind fun _ => asks_pure

theorem configurePacketSize_asks {Q : Call → Prop} {i : Option DeviceInfo}
    (hpacket : Q (.getOptimalPacketSize c.m_hDevHandle))
    (hint : ∀ key n, Q (.setIntValue c.m_hDevHandle key n)) :
    Asks (I := sdk) Q (configurePacketSize c i) := by
  rw [configurePacketSize]
  split
  · have hsize : Asks (I := sdk) Q (c.getOptimalPacketSize : DeviceProc (Ret × ℤ)) := by
      refine (asks_call hpacket).bind fun n => ?_
      split
      · exact asks_pure
      · exact asks_pure
    refine hsize.bind fun x => ?_
    obtain ⟨ret, n⟩ := x
    dsimp only
    split
    · exact (asks_call (hint _ _)).bind fun _ => asks_pure
    · exact asks_pure
  · exact asks_pure

/-- Configuring a camera makes four kinds of calls. -/
theorem configureCamera_asks {Q : Call → Prop} {i : Option DeviceInfo}
    (hpacket : Q (.getOptimalPacketSize c.m_hDevHandle))
    (hint : ∀ key n, Q (.setIntValue c.m_hDevHandle key n))
    (henum : ∀ key v, Q (.setEnumValue c.m_hDevHandle key v))
    (hget : ∀ key, Q (.getIntValue c.m_hDevHandle key)) :
    Asks (I := sdk) Q (configureCamera c i) := by
  have hinit : Asks (I := sdk) Q (initCamParams c) := by
    refine (asks_call (henum _ _)).bind fun _ => (asks_call (henum _ _)).bind fun _ =>
      (asks_call (hget _)).bind fun x => ?_
    obtain ⟨ret, n⟩ := x
    dsimp only
    split
    · exact asks_modify.bind fun _ => asks_pure
    · exact asks_pure
  exact (configurePacketSize_asks hpacket hint).bind fun _ => hinit.bind fun _ =>
    asks_modify.bind fun _ => asks_pure

theorem configureCamera_harmless {i : Option DeviceInfo} :
    Asks (I := sdk) Harmless (configureCamera c i) :=
  configureCamera_asks trivial (fun _ _ => trivial) (fun _ _ => trivial) fun _ => trivial

/-- `Open` creates a handle for the record it is given, opens it, and may destroy it. -/
theorem open_asks {Q : Call → Prop} {info : Option DeviceInfo}
    (hcreate : ∀ i, info = some i → Q (.createHandle i)) (hopen : ∀ h, Q (.openDevice h))
    (hdestroy : ∀ h, Q (.destroyHandle h)) :
    Asks (I := sdk) Q (c.open info : DeviceProc (Ret × CMvCamera)) := by
  unfold CMvCamera.open
  split
  · exact asks_pure
  · rename_i i
    split
    · exact asks_pure
    · refine (asks_call (hcreate i rfl)).bind fun answer => ?_
      cases answer with
      | refused e left => exact asks_pure
      | created h =>
          refine (asks_call (hopen _)).bind fun nRet => ?_
          split
          · exact (asks_call (hdestroy (some h))).bind fun _ => asks_pure
          · exact asks_pure

/-- Opening makes harmless calls, and calls on the handle that it creates for the record
it is given. -/
theorem openCamera_asks {Q : Call → Prop} {info : Option DeviceInfo}
    (hharmless : ∀ op, Harmless op → Q op) (hcreate : ∀ i, info = some i → Q (.createHandle i))
    (hopen : ∀ h, Q (.openDevice h)) : Asks (I := sdk) Q (openCamera info) := by
  refine asks_get.bind fun d => ?_
  split
  · exact asks_pure
  · refine asks_modify.bind fun _ => Asks.bind ?_ fun x => asks_modify.bind fun _ => ?_
    · exact open_asks hcreate hopen fun h => hharmless _ trivial
    · split
      · exact (delete_harmless.imp hharmless).bind fun _ => asks_modify.bind fun _ => asks_pure
      · exact configureCamera_harmless.imp hharmless

/-- A start grabs, besides. -/
theorem start_asks {Q : Call → Prop} {info : Option DeviceInfo} (hharmless : ∀ op, Harmless op → Q op)
    (hcreate : ∀ i, info = some i → Q (.createHandle i)) (hopen : ∀ h, Q (.openDevice h))
    (hstart : ∀ h, Q (.startGrabbing h)) : Asks (I := sdk) Q (start info) := by
  refine (openCamera_asks hharmless hcreate hopen).bind fun ret => ?_
  split
  · exact (closeCamera_harmless.imp hharmless).bind fun _ => asks_pure
  · refine asks_get.bind fun d => ?_
    split
    · exact asks_pure
    · refine camera_asks.bind fun c => (asks_call (hstart _)).bind fun ret => ?_
      split
      · exact asks_pure
      · exact asks_modify.bind fun _ => asks_pure

/-- A call that creates a handle creates it for this record. -/
def CreatesFor (info : Option DeviceInfo) : Call → Prop
  | .createHandle i => info = some i
  | _ => True

/-- **`start` opens the camera of the record it is given**, and no other. -/
theorem start_createsFor {info : Option DeviceInfo} :
    Asks (I := sdk) (CreatesFor info) (start info) := by
  refine start_asks ?_ (fun i hi => hi) (fun _ => trivial) fun _ => trivial
  intro op h
  cases op with
  | createHandle i => exact h.elim
  | _ => trivial

/-! ## Faults -/

variable {f : Fault}

@[simp] theorem faults_camera_bind {g : CMvCamera → DeviceProc α} (hc : d.camera_ = some c) :
    Faults (camera >>= g) d tr f ↔ Faults (g c) d tr f := by
  rw [camera]
  simp [hc]

theorem growTo_faults {size : UInt32} {b : Buff} : ¬ Faults (growTo size b) d tr f := by
  rw [growTo]
  split
  · simp only [Buff.ensureSize, Buff.ensureSizeCopy, faults_bind, faults_pure, and_false,
      exists_false, or_false]
    split
    · simp
    · split
      · simp
      rw [faults_call_bind]
      intro h
      obtain ⟨m, t', -, h⟩ := h
      cases m with
      | none => simp at h
      | some bytes => simp [Buff.copyData] at h
  · simp

theorem stopGrabbingRetry_faults {left : ℕ} : ¬ Faults (stopGrabbingRetry c left) d tr f := by
  induction left generalizing tr with
  | zero => simp [stopGrabbingRetry, CMvCamera.stopGrabbing]
  | succ left ih =>
      simp only [stopGrabbingRetry, CMvCamera.stopGrabbing, faults_call_bind]
      intro h
      obtain ⟨ret, t', -, h⟩ := h
      split at h
      · simp at h
      · exact ih h

theorem delete_faults : ¬ Faults (c.delete : DeviceProc Unit) d tr f := by
  rw [CMvCamera.delete]
  split <;> simp

theorem closeCamera_faults : ¬ Faults closeCamera d tr f := by
  simp only [closeCamera, faults_modify_bind, faults_get_bind]
  cases hd : d.camera_ with
  | none => simp
  | some c =>
      have hclose : ∀ (s : CameraDevice) t, ¬ Faults c.close s t f := by
        intro s t
        rw [CMvCamera.close]
        split <;> simp
      simp [faults_bind, hclose, delete_faults]

/-- Shutting down a device with a camera goes through `NULL` nowhere. -/
theorem stopAndClose_faults (hc : d.camera_ = some c) : ¬ Faults stopAndClose d tr f := by
  have hstop : ∀ t, ¬ Faults stopGrapping d t f := by
    intro t
    simp only [stopGrapping, faults_get_bind]
    split
    · rw [faults_camera_bind hc]
      simp [faults_bind, stopGrabbingRetry_faults]
    · simp
  simp [stopAndClose, faults_bind, hstop, closeCamera_faults]

theorem stopAndClose_faults_of_coherent (hd : d.Coherent) : ¬ Faults stopAndClose d tr f := by
  rcases hd with hd | hd | hd
  · have hstop : ∀ t, ¬ Faults stopGrapping d t f := by
      intro t
      simp only [stopGrapping, faults_get_bind, hd.grapping, Bool.false_eq_true, if_false]
      exact faults_pure
    simp [stopAndClose, faults_bind, hstop, closeCamera_faults]
  · obtain ⟨c, hc⟩ := Option.ne_none_iff_exists'.mp hd.camera
    exact stopAndClose_faults hc
  · obtain ⟨c, hc⟩ := Option.ne_none_iff_exists'.mp hd.camera
    exact stopAndClose_faults hc

theorem openCamera_faults {info : Option DeviceInfo} : ¬ Faults (openCamera info) d tr f := by
  have hopen : ∀ (c : CMvCamera) (d : CameraDevice) t, ¬ Faults (c.open info) d t f := by
    intro c d t
    unfold CMvCamera.open
    split
    · simp
    · split
      · simp
      · intro h
        obtain ⟨answer, t', -, h⟩ := faults_call_bind.mp h
        cases answer with
        | refused e left => exact faults_pure h
        | created hdl =>
            obtain ⟨nRet, t', -, h⟩ := faults_call_bind.mp h
            split at h
            · simp at h
            · exact faults_pure h
  have hpacket : ∀ (c : CMvCamera) (d : CameraDevice) t,
      ¬ Faults (configurePacketSize c info) d t f := by
    intro c d t
    rw [configurePacketSize]
    split
    · simp only [setPacketSize, CMvCamera.getOptimalPacketSize, bind_assoc]
      intro h
      obtain ⟨n, t', -, h⟩ := faults_call_bind.mp h
      split at h
      · simp at h
      · simp [CMvCamera.setIntValue] at h
    · simp
  have hinit : ∀ (c : CMvCamera) (d : CameraDevice) t, ¬ Faults (initCamParams c) d t f := by
    intro c d t
    simp only [initCamParams, CMvCamera.setEnumValue, CMvCamera.getIntValue, faults_call_bind]
    intro h
    obtain ⟨-, -, -, -, -, -, ⟨ret, n⟩, t', -, h⟩ := h
    split at h
    · simp at h
    · exact faults_pure h
  simp only [openCamera, faults_get_bind]
  split
  · exact faults_pure
  · simp only [faults_modify_bind, faults_bind (p := CMvCamera.open _ _), hopen, false_or]
    intro h
    obtain ⟨t₁, d₁, ⟨ret, c⟩, t₂, -, -, h⟩ := h
    split at h
    · simp [faults_bind, delete_faults] at h
    · simp [configureCamera, faults_bind, hpacket, hinit] at h

/-- A start goes through `camera_ == NULL` nowhere. -/
theorem start_faults {info : Option DeviceInfo} (hd : d.Coherent) :
    ¬ Faults (start info) d tr f := by
  intro h
  rcases faults_bind.mp h with h | ⟨t₁, d₁, ret, t₂, -, h₁, h₂⟩
  · exact openCamera_faults h
  · split at h₂
    · simp [closeCamera_faults] at h₂
    · rename_i hret
      obtain ⟨c, hc⟩ : ∃ c, d₁.camera_ = some c := by
        by_cases ho : d.camera_open_ ∨ d.camera_ ≠ none
        · obtain ⟨-, rfl, -⟩ := openCamera_of_open ho h₁
          have hiff := hd.camera_iff
          exact Option.ne_none_iff_exists'.mp (by tauto)
        · rcases openCamera_spec ho h₁ with ⟨hbad, -⟩ | ⟨-, c, n, rfl⟩
          · exact absurd hbad hret
          · exact ⟨c, rfl⟩
      simp only [startGrapping, faults_get_bind] at h₂
      split at h₂
      · exact faults_pure h₂
      · rw [faults_camera_bind hc] at h₂
        simp only [CMvCamera.startGrabbing, faults_call_bind] at h₂
        obtain ⟨ret, t', -, h₂⟩ := h₂
        split at h₂
        · exact faults_pure h₂
        · simp at h₂

theorem fetchFrame_faults (hc : d.camera_ = some c) : ¬ Faults fetchFrame d tr f := by
  intro h
  simp only [fetchFrame, faults_get_bind] at h
  rw [faults_bind] at h
  rcases h with h | ⟨t₁, d₁, cache, t₂, -, h₁, h₂⟩
  · exact growTo_faults h
  · obtain ⟨rfl, -⟩ := growTo_spec h₁
    have hc' : { d₁ with cache_data_ := cache }.camera_ = some c := hc
    rw [faults_modify_bind, faults_camera_bind hc'] at h₂
    simp [CMvCamera.getOneFrameTimeout] at h₂

/-- The only assertion on the way of an encoding is the one on the data length. -/
theorem toJpg_faults {frame : FrameInfo} {param : Option ImageParameter} {data_ : Buff}
    (hc : d.camera_ = some c) (h : Faults (toJpg frame param data_) d tr f) :
    f = .assertDataSize := by
  simp only [toJpg, faults_get_bind] at h
  rw [faults_bind] at h
  rcases h with h | ⟨t₁, d₁, grown, t₂, -, h₁, h₂⟩
  · exact absurd h growTo_faults
  · obtain ⟨rfl, -⟩ := growTo_spec h₁
    rw [faults_camera_bind hc] at h₂
    simp only [CMvCamera.saveImage, faults_call_bind] at h₂
    obtain ⟨answer, t', -, h₂⟩ := h₂
    split at h₂
    · simp only [Buff.setDataSize, bind_assoc, faults_require_bind, pure_bind, faults_pure,
        and_false, or_false] at h₂
      exact h₂.2.2
    · simp at h₂

/-- A picture of a running device fails where its encoding does, after the fetch. -/
theorem takePicture_faults_cases {param : Option ImageParameter} {data_ : Buff} (hd : d.Running)
    (hc : d.camera_ = some c) : Faults (takePicture param data_) d tr f ↔
      ∃ t₁ d₁ answer t₂, tr = ⟨.isDeviceConnected c.m_hDevHandle, true⟩ :: (t₁ ++ t₂) ∧
        Runs fetchFrame d t₁ d₁ answer ∧ answer.ret = .ok ∧ d₁.camera_ = some c ∧
        Faults (toJpg answer.info param data_) d₁ t₂ f := by
  simp only [takePicture, faults_get_bind, faults_require_bind, hd.camera, hd.camera_open,
    hd.grapping, ne_eq, not_false_eq_true, not_true_eq_false, false_and, true_and, false_or,
    faults_camera_bind hc, CMvCamera.isDeviceConnected, faults_call_bind]
  constructor
  · intro h
    obtain ⟨connected, t, rfl, h⟩ := h
    cases connected with
    | false => simp [stopAndClose_faults hc] at h
    | true =>
        simp only [not_true_eq_false, if_false] at h
        rcases faults_bind.mp h with h₁ | ⟨t₁, d₁, answer, t₂, rfl, h₁, h₂⟩
        · exact absurd h₁ (fetchFrame_faults hc)
        · have hc' : d₁.camera_ = some c := by
            obtain ⟨cache, -, -, -, -, rfl, -⟩ := fetchFrame_spec h₁
            exact hc
          split at h₂
          · rcases faults_bind.mp h₂ with h₂ | ⟨_, _, _, _, -, -, h₂⟩
            · rw [closeOnNoData] at h₂
              split at h₂
              · exact absurd h₂ (stopAndClose_faults hc')
              · exact absurd h₂ faults_pure
            · exact absurd h₂ faults_pure
          · rename_i hret
            exact ⟨t₁, d₁, answer, t₂, rfl, h₁, by simpa using hret, hc', h₂⟩
  · intro h
    obtain ⟨t₁, d₁, answer, t₂, rfl, h₁, hret, -, h₂⟩ := h
    refine ⟨true, t₁ ++ t₂, rfl, ?_⟩
    rw [if_neg (by simp)]
    refine faults_bind.mpr (Or.inr ⟨t₁, d₁, answer, t₂, rfl, h₁, ?_⟩)
    rwa [if_neg (by simp [hret])]

/-- **On a running device** `take_picture` meets its three assertions, and goes
through `camera_ == NULL` nowhere.  What can fail is the assertion of
`set_data_size`. -/
theorem takePicture_faults {param : Option ImageParameter} {data_ : Buff} (hd : d.Running)
    (h : Faults (takePicture param data_) d tr f) : f = .assertDataSize := by
  obtain ⟨c, hc⟩ := Option.ne_none_iff_exists'.mp hd.camera
  obtain ⟨t₁, d₁, answer, t₂, -, -, -, hc₁, h₂⟩ := (takePicture_faults_cases hd hc).mp h
  exact toJpg_faults hc₁ h₂

end Specs

end CameraDevice

end CameraService
