import CameraService.DeviceStates
import CameraService.HandleProtocol

/-!
# A device uses its handles well

A session is a sequence of calls of the public members of a new `CameraDevice`,
ended by the destructor.  Between two members the device stands at one of three
phases of the protocol, and each member moves it along the protocol to another.
A session is therefore a trace of the protocol from its first phase back to it.

The SDK is trusted in one thing: a `MV_CC_CreateHandle` that fails leaves the handle
`NULL`.

## Main definitions

* `DeviceCall`, `session` — the calls of the public members.
* `Matches` — the phase at which a device stands.
* `session_wellFormed` — the trace of a session is well formed.
-/

namespace CameraService

open Interaction Transition

/-! ## Sessions -/

/-- A call of a public member of `CameraDevice`. -/
inductive DeviceCall
  | start (device_info : Option DeviceInfo)
  | isShutdown
  | stopAndClose
  | takePicture (param : Option ImageParameter) (data_ : Buff)

/-- The call, without its result. -/
def DeviceCall.run : DeviceCall → DeviceProc Unit
  | .start device_info => do
    let _ ← CameraDevice.start device_info
    pure ()
  | .isShutdown => do
    let _ ← CameraDevice.isShutdown <$> Proc.get
    pure ()
  | .stopAndClose => CameraDevice.stopAndClose
  | .takePicture param data_ => do
    let _ ← CameraDevice.takePicture param data_
    pure ()

/-- The calls in turn, and the destructor. -/
def session : List DeviceCall → DeviceProc Unit
  | [] => CameraDevice.stopAndClose
  | call :: calls => do
    call.run
    session calls

/-- A `MV_CC_CreateHandle` that fails leaves the handle `NULL`. -/
def leavesNull : SdkEvent → Bool
  | ⟨.createHandle _, .refused _ left⟩ => left.isNone
  | _ => true

/-- The phase at which a device stands between two members. -/
inductive Matches : CameraDevice → Phase → Prop
  | closed {d : CameraDevice} (hd : d.Closed) : Matches d .idle
  | halfOpen {d : CameraDevice} {h : Handle} (hd : d.HalfOpen) (hc : d.camera_ = some ⟨some h⟩) :
      Matches d (.opened h)
  | running {d : CameraDevice} {h : Handle} (hd : d.Running) (hc : d.camera_ = some ⟨some h⟩) :
      Matches d (.grabbing h)

namespace CameraDevice

variable {d d' : CameraDevice} {φ : Phase} {tr : SdkTrace} {r : Ret} {h : Handle}

/-! ## The private members -/

/-- Allocations are calls of every phase. -/
theorem path_of_malloc (htr : ∀ e ∈ tr, ∃ n a, e = ⟨.malloc n, a⟩) : Path Advance φ tr φ := by
  refine Path.of_forall fun e he => ?_
  obtain ⟨n, a, rfl⟩ := htr e he
  exact .malloc

/-- Allocations, then a call that a picture makes. -/
theorem path_of_picture {e : SdkEvent} (htr : ∀ e ∈ tr, ∃ n a, e = ⟨.malloc n, a⟩)
    (he : Pictures h e.op) : Path Advance (.grabbing h) (tr ++ [e]) (.grabbing h) :=
  (path_of_malloc htr).append (.single (.picture he))

/-- One more stop. -/
theorem advance_stop {n : ℕ} (hs : φ.Stopped h n) (hn : n < 6) :
    Advance φ ⟨.stopGrabbing (some h), r⟩ (.stopping h (n + 1)) := by
  cases hs with
  | grabbing => exact .stop
  | stopping => exact .retry hn

/-- The loop stops grabbing at least once, and at most once more than it has retries. -/
theorem stopGrabbingRetry_path {left n : ℕ} (hs : φ.Stopped h n) (hn : n + left < 6)
    (hr : Runs (stopGrabbingRetry ⟨some h⟩ left) d tr d' r) :
    ∃ m, Path Advance φ tr (.stopping h m) := by
  induction left generalizing φ n tr with
  | zero =>
      obtain ⟨rfl, -⟩ := runs_call.mp hr
      exact ⟨n + 1, .single (advance_stop hs (by omega))⟩
  | succ left ih =>
      simp only [stopGrabbingRetry, CMvCamera.stopGrabbing, runs_call_bind] at hr
      obtain ⟨ret, t, rfl, hr⟩ := hr
      have hstop : Advance φ ⟨.stopGrabbing (some h), ret⟩ (.stopping h (n + 1)) :=
        advance_stop hs (by omega)
      split at hr
      · obtain ⟨rfl, -⟩ := runs_pure.mp hr
        exact ⟨n + 1, .single hstop⟩
      · obtain ⟨m, hp⟩ := ih (n := n + 1) (.stopping ⟨by omega, by omega⟩) (by omega) hr
        exact ⟨m, .cons hstop hp⟩

/-- Closing a camera closes and destroys its handle. -/
theorem closeCamera_trace (hc : d.camera_ = some ⟨some h⟩) (hr : Runs closeCamera d tr d' r) :
    ∃ r₁ r₂, tr = [⟨.closeDevice (some h), r₁⟩, ⟨.destroyHandle (some h), r₂⟩] := by
  simp only [closeCamera, runs_modify_bind, runs_get_bind, hc, CMvCamera.close, bind_assoc,
    runs_call_bind, pure_bind, CMvCamera.delete, runs_pure] at hr
  obtain ⟨r₁, t₁, rfl, r₂, t₂, rfl, rfl, -⟩ := hr
  exact ⟨r₁, r₂, rfl⟩

/-- A device with a camera is shut down by stopping, closing and destroying. -/
theorem stopAndClose_trace (hc : d.camera_ = some ⟨some h⟩) (hr : Runs stopAndClose d tr d' ()) :
    ∃ t d₁ r r₁ r₂, Runs stopGrapping d t d₁ r ∧
      tr = t ++ [⟨.closeDevice (some h), r₁⟩, ⟨.destroyHandle (some h), r₂⟩] := by
  simp only [stopAndClose, runs_bind, runs_pure] at hr
  obtain ⟨t₁, d₁, r, t₂, rfl, h₁, t₃, d₂, r', t₄, rfl, h₂, rfl, -⟩ := hr
  have hc₁ : d₁.camera_ = some ⟨some h⟩ := by rw [(stopGrapping_spec h₁).1, hc]
  obtain ⟨r₁, r₂, rfl⟩ := closeCamera_trace hc₁ h₂
  exact ⟨t₁, d₁, r, r₁, r₂, h₁, by simp⟩

/-- **`_stop_and_close`** ends the life of the handle. -/
theorem stopAndClose_path (hm : Matches d φ) (hr : Runs stopAndClose d tr d' ()) :
    Path Advance φ tr .idle ∧ Matches d' .idle := by
  refine ⟨?_, .closed (closed_of_stopAndClose hr)⟩
  cases hm with
  | closed hd =>
      rw [(stopAndClose_of_closed hd hr).2]
      exact .nil _
  | halfOpen hd hc =>
      obtain ⟨t, d₁, r, r₁, r₂, h₁, rfl⟩ := stopAndClose_trace hc hr
      rw [(stopGrapping_spec h₁).2 hd.grapping]
      exact .cons .close (.single .destroy)
  | running hd hc =>
      obtain ⟨t, d₁, r, r₁, r₂, h₁, rfl⟩ := stopAndClose_trace hc hr
      simp only [stopGrapping, runs_get_bind, hd.grapping, if_true, runs_camera_bind, hc,
        Option.some.injEq, exists_eq_left'] at h₁
      rw [runs_bind] at h₁
      obtain ⟨t₁, d₂, ret, t₂, rfl, h₁, h₂⟩ := h₁
      rw [runs_modify_bind, runs_pure] at h₂
      obtain ⟨rfl, -⟩ := h₂
      obtain ⟨m, hp⟩ := stopGrabbingRetry_path .grabbing (by decide) h₁
      rw [List.append_nil]
      exact hp.append (.cons .closeStopped (.single .destroy))

/-- `Open` leaves an open device, or no handle. -/
theorem open_path {info : Option DeviceInfo} {c : CMvCamera} (hn : tr.all leavesNull = true)
    (ho : CMvCamera.Opening info tr r c) :
    (r ≠ .ok ∧ c = ⟨none⟩ ∧ Path Advance .idle tr .idle) ∨
      (r = .ok ∧ ∃ h, c = ⟨some h⟩ ∧ Path Advance .idle tr (.opened h)) := by
  cases ho with
  | noRecord => exact Or.inl ⟨by simp, rfl, .nil _⟩
  | @refused i e left =>
      have hleft : left = none := by simpa [leavesNull] using hn
      rw [hleft]
      exact Or.inl ⟨by simp, rfl, .single .refused⟩
  | failed hret =>
      exact Or.inl ⟨hret, rfl, .cons .create (.cons (.failed hret) (.single .destroyFailed))⟩
  | @opened i h => exact Or.inr ⟨rfl, h, rfl, .cons .create (.single .opened)⟩

/-- Configuring an open camera. -/
theorem configureCamera_path {info : Option DeviceInfo}
    (hr : Runs (configureCamera ⟨some h⟩ info) d tr d' r) :
    Path Advance (.opened h) tr (.opened h) := by
  have hasks : Asks (I := sdk) (Configures h) (configureCamera ⟨some h⟩ info) :=
    configureCamera_asks .getOptimalPacketSize (fun _ _ => .setIntValue)
      (fun _ _ => .setEnumValue) fun _ => .getIntValue
  exact Path.of_forall fun e he => .configure (hasks.run hr e he)

/-- `_open_camera` on a device that is shut down. -/
theorem openCamera_path {info : Option DeviceInfo} (hd : d.Closed) (hn : tr.all leavesNull = true)
    (hr : Runs (openCamera info) d tr d' r) :
    (r ≠ .ok ∧ d'.Closed ∧ Path Advance .idle tr .idle) ∨
      (r = .ok ∧ ∃ h, d'.HalfOpen ∧ d'.camera_ = some ⟨some h⟩ ∧
        Path Advance .idle tr (.opened h)) := by
  have ho : ¬ (d.camera_open_ = true ∨ d.camera_ ≠ none) := by simp [hd.camera, hd.camera_open]
  obtain ⟨t₁, ret, c, t₂, rfl, hopening, hrest⟩ := openCamera_cases ho hr
  rw [List.all_append, Bool.and_eq_true] at hn
  rcases open_path hn.1 hopening with ⟨hret, rfl, hp⟩ | ⟨rfl, h, rfl, hp⟩
  · rcases hrest with ⟨-, rfl, rfl, hdelete⟩ | ⟨hok, -⟩
    · obtain ⟨rfl, -⟩ := runs_pure.mp hdelete
      exact Or.inl ⟨hret, ⟨rfl, hd.camera_open, hd.grapping⟩, by simpa using hp⟩
    · exact absurd hok hret
  · rcases hrest with ⟨hbad, -⟩ | ⟨-, hconfigure⟩
    · exact absurd rfl hbad
    · obtain ⟨rfl, n, rfl⟩ := configureCamera_spec hconfigure
      exact Or.inr ⟨rfl, h, ⟨by simp, rfl, hd.grapping⟩, rfl,
        hp.append (configureCamera_path hconfigure)⟩

/-- `_start_grapping` on an open device. -/
theorem startGrapping_path (hd : d.HalfOpen) (hc : d.camera_ = some ⟨some h⟩)
    (hr : Runs startGrapping d tr d' r) :
    ∃ φ', Path Advance (.opened h) tr φ' ∧ Matches d' φ' := by
  rcases startGrapping_cases hr with ⟨-, -, -, hg⟩ | ⟨c, hc', -, rfl, ⟨rfl, rfl⟩ | ⟨hret, rfl⟩⟩
  · cases hd.grapping.symm.trans hg
  · cases hc.symm.trans hc'
    exact ⟨_, .single .start, .running ⟨by simp [hc], hd.camera_open, rfl⟩ hc⟩
  · cases hc.symm.trans hc'
    exact ⟨_, .single (.startFailed hret), .halfOpen hd hc⟩

/-! ## The public members -/

/-- **`start`** follows the protocol. -/
theorem start_path {info : Option DeviceInfo} (hm : Matches d φ) (hn : tr.all leavesNull = true)
    (hr : Runs (start info) d tr d' r) : ∃ φ', Path Advance φ tr φ' ∧ Matches d' φ' := by
  obtain ⟨t₁, d₁, t₂, rfl, hrest⟩ := start_cases hr
  rw [List.all_append, Bool.and_eq_true] at hn
  cases hm with
  | closed hd =>
      rcases hrest with ⟨hbad, h₁, r₂, h₂⟩ | ⟨h₁, h₂⟩
      · rcases openCamera_path hd hn.1 h₁ with ⟨-, hd₁, hp⟩ | ⟨hok, -⟩
        · obtain ⟨rfl, ht⟩ := closeCamera_spec h₂
          rw [ht hd₁.camera]
          exact ⟨.idle, by simpa using hp, .closed ⟨rfl, rfl, hd₁.grapping⟩⟩
        · exact absurd hok hbad
      · rcases openCamera_path hd hn.1 h₁ with ⟨hbad, -⟩ | ⟨-, h, hd₁, hc, hp⟩
        · exact absurd rfl hbad
        · obtain ⟨φ', hp', hm⟩ := startGrapping_path hd₁ hc h₂
          exact ⟨φ', hp.append hp', hm⟩
  | halfOpen hd hc =>
      rcases hrest with ⟨hbad, h₁, -⟩ | ⟨h₁, h₂⟩
      · exact absurd (openCamera_of_open (Or.inl hd.camera_open) h₁).1 hbad
      · obtain ⟨-, rfl, rfl⟩ := openCamera_of_open (Or.inl hd.camera_open) h₁
        exact startGrapping_path hd hc h₂
  | running hd hc =>
      rcases hrest with ⟨hbad, h₁, -⟩ | ⟨h₁, h₂⟩
      · exact absurd (openCamera_of_open (Or.inl hd.camera_open) h₁).1 hbad
      · obtain ⟨-, rfl, rfl⟩ := openCamera_of_open (Or.inl hd.camera_open) h₁
        rcases startGrapping_cases h₂ with ⟨rfl, -, rfl, -⟩ | ⟨c, -, hg, -⟩
        · exact ⟨_, .nil _, .running hd hc⟩
        · cases hd.grapping.symm.trans hg

/-- **`take_picture`** follows the protocol. -/
theorem takePicture_path {param : Option ImageParameter} {data_ data' : Buff} (hm : Matches d φ)
    (hr : Runs (takePicture param data_) d tr d' (r, data')) :
    ∃ φ', Path Advance φ tr φ' ∧ Matches d' φ' := by
  obtain ⟨hd, c, t, hcam, hcases⟩ := takePicture_cases hr
  cases hm with
  | closed hd' => exact absurd hd' hd.not_closed
  | halfOpen hd' hc => cases hd'.grapping.symm.trans hd.grapping
  | @running h _ hc =>
      cases hc.symm.trans hcam
      have hrun : Matches d (.grabbing h) := .running hd hc
      rcases hcases with ⟨rfl, h', -⟩ | ⟨t₁, d₁, answer, t₂, rfl, rfl, h₁, hrest⟩
      · obtain ⟨hp, hm⟩ := stopAndClose_path hrun h'
        exact ⟨.idle, .cons (.picture .isDeviceConnected) hp, hm⟩
      · obtain ⟨cache, c₁, t₃, hc₁, -, rfl, hmalloc, rfl⟩ := fetchFrame_spec h₁
        cases hc.symm.trans hc₁
        have hrun₁ : Matches { d with cache_data_ := cache.write answer.bytes } (.grabbing h) :=
          .running ⟨hd.camera, hd.camera_open, hd.grapping⟩ hc
        have hfetch : Path Advance (.grabbing h) (t₃ ++ [⟨.getOneFrame (some h)
            cache.buff_.isSome cache.getBuffSize.toUInt32 waitTimeout, answer⟩]) (.grabbing h) :=
          path_of_picture hmalloc .getOneFrame
        rcases hrest with ⟨-, h₂, -, -⟩ | ⟨-, h₂⟩
        · obtain ⟨-, h₂⟩ | ⟨-, rfl, rfl⟩ := closeOnNoData_cases h₂
          · obtain ⟨hp, hm⟩ := stopAndClose_path hrun₁ h₂
            exact ⟨.idle, .cons (.picture .isDeviceConnected) (hfetch.append hp), hm⟩
          · exact ⟨.grabbing h, .cons (.picture .isDeviceConnected) (by simpa using hfetch),
              hrun₁⟩
        · obtain ⟨rfl, grown, c₂, t₄, saved, hc₂, -, hmalloc', rfl, -⟩ := toJpg_spec h₂
          cases hc.symm.trans hc₂
          exact ⟨.grabbing h, .cons (.picture .isDeviceConnected)
            (hfetch.append (path_of_picture hmalloc' .saveImage)), hrun₁⟩

end CameraDevice

open CameraDevice

variable {d d' : CameraDevice} {φ : Phase} {tr : SdkTrace}

/-- Each public member follows the protocol. -/
theorem DeviceCall.run_path {call : DeviceCall} (hm : Matches d φ) (hn : tr.all leavesNull = true)
    (hr : Runs call.run d tr d' ()) : ∃ φ', Path Advance φ tr φ' ∧ Matches d' φ' := by
  cases call with
  | start info =>
      obtain ⟨t₁, d₁, r, t₂, rfl, h₁, h₂⟩ := runs_bind.mp hr
      obtain ⟨rfl, rfl, -⟩ := runs_pure.mp h₂
      rw [List.append_nil] at hn ⊢
      exact start_path hm hn h₁
  | isShutdown =>
      obtain ⟨rfl, rfl, -⟩ := runs_pure.mp hr
      exact ⟨φ, .nil φ, hm⟩
  | stopAndClose => exact ⟨.idle, stopAndClose_path hm hr⟩
  | takePicture param data_ =>
      obtain ⟨t₁, d₁, ⟨r, data'⟩, t₂, rfl, h₁, h₂⟩ := runs_bind.mp hr
      obtain ⟨rfl, rfl, -⟩ := runs_pure.mp h₂
      rw [List.append_nil]
      exact takePicture_path hm h₁

/-- A session follows the protocol to its end. -/
theorem session_path {calls : List DeviceCall} (hm : Matches d φ) (hn : tr.all leavesNull = true)
    (hr : Runs (session calls) d tr d' ()) : Path Advance φ tr .idle := by
  induction calls generalizing d φ tr with
  | nil => exact (stopAndClose_path hm hr).1
  | cons call calls ih =>
      obtain ⟨t₁, d₁, u, t₂, rfl, h₁, h₂⟩ := runs_bind.mp hr
      rw [List.all_append, Bool.and_eq_true] at hn
      obtain ⟨φ', hp, hm'⟩ := call.run_path hm hn.1 h₁
      exact hp.append (ih hm' hn.2 h₂)

/-- **The trace of a session is well formed**, whatever its calls and whatever the SDK
answers. -/
theorem session_wellFormed {calls : List DeviceCall} (hn : tr.all leavesNull = true)
    (hr : Runs (session calls) CameraDevice.new tr d' ()) : WellFormed tr :=
  wellFormed_of_path (session_path (.closed closed_new) hn hr)

/-- The camera is unplugged before a picture, and started once more. -/
def replugging : List DeviceCall :=
  [.start (some (.other 0)), .takePicture none .empty, .isShutdown, .start (some (.other 0))]

theorem session_wellFormed_replugging : ∃ tr d',
    Runs (session replugging) CameraDevice.new tr d' () ∧ WellFormed tr := by
  have hrun : Runs (session replugging) CameraDevice.new _ _ () := runs_of_exec (o := unplugged) rfl
  exact ⟨_, _, hrun, session_wellFormed rfl hrun⟩

end CameraService
