import CameraService.HandleProtocol
import CameraService.Lib.Respondents
import CameraService.Requests

/-!
# Requests to different cameras

A camera answers by the calls that were made on it.  A picture makes calls on one camera
only, the one of its key up to a NUL byte, and so two pictures with different cameras can
be taken in either order.  Keys with the same camera lead to the same record.  But each of
them keeps a running device for itself, and two devices of one camera are in each other's
way.

## Main definitions

* `Call.camera` — the camera that a call is made on.
* `HandsOut` — every handle belongs to one camera.
* `CameraDevice.Uses`, `Homed` — which camera a device uses, and the devices of the map.
* `Cameras` — cameras that answer by the calls made on them.
* `Independent` — the order of two requests makes no difference.
* `independent_iff` — when it makes none.
-/

namespace CameraService

open Interaction Provider

/-! ## The camera of a call -/

/-- The camera of a record: its serial number, letter case aside. -/
def DeviceInfo.camera (i : DeviceInfo) : Bytes := toUpper (i.serial.getD [])

theorem DeviceInfo.HasSerial.camera {i : DeviceInfo} {sn : Bytes} (h : i.HasSerial sn) :
    i.camera = toUpper sn := by
  obtain ⟨s, hs, he⟩ := h
  rw [DeviceInfo.camera, hs]
  exact he

/-- The camera that a call is made on, each handle belonging to its owner.  A call that
names no camera, such as an allocation, counts as one on the camera `q` of the request. -/
def Call.camera (owner : Handle → Bytes) (q : Bytes) (op : Call) : Bytes :=
  match op with
  | .createHandle i => i.camera
  | op =>
    match op.onHandle with
    | some (some h) => owner h
    | _ => q

/-- A handle that was created for a record belongs to its camera. -/
def HandsOut (owner : Handle → Bytes) : SdkEvent → Prop
  | ⟨.createHandle i, .created h⟩ => owner h = i.camera
  | ⟨.createHandle i, .refused _ (some h)⟩ => owner h = i.camera
  | _ => True

/-- The handle of a camera, or none. -/
def Belongs (owner : Handle → Bytes) (q : Bytes) (x : Option Handle) : Prop :=
  ∀ h, x = some h → owner h = q

section Locality
variable {owner : Handle → Bytes} {q : Bytes} {x : Option Handle} {op : Call}

theorem belongs_none : Belongs owner q none := fun _ h => nomatch h

theorem belongs_some {h : Handle} (hh : owner h = q) : Belongs owner q (some h) := by
  rintro h' ⟨⟩
  exact hh

/-- A call on a handle of the camera. -/
theorem camera_of_onHandle (hop : op.onHandle = some x) (hx : Belongs owner q x) :
    op.camera owner q = q := by
  have hcamera : op.camera owner q = match op.onHandle with
      | some (some h) => owner h
      | _ => q := by
    cases op <;> first | rfl | cases hop
  rw [hcamera, hop]
  cases x with
  | none => rfl
  | some h => exact hx h rfl

end Locality

namespace CameraDevice

variable {owner : Handle → Bytes} {q : Bytes} {d d' : CameraDevice} {tr : SdkTrace} {r : Ret}
  {c : CMvCamera} {info : Option DeviceInfo}

/-- The device has no handle of another camera. -/
def Uses (owner : Handle → Bytes) (q : Bytes) (d : CameraDevice) : Prop :=
  ∀ c, d.camera_ = some c → Belongs owner q c.m_hDevHandle

theorem uses_of_none (h : d.camera_ = none) : d.Uses owner q := by
  intro c hc
  rw [h] at hc
  cases hc

/-- As long as handles belong to the camera they were created for, a program makes calls on
one camera only. -/
def Stays (owner : Handle → Bytes) (q : Bytes) {σ α : Type} (p : Proc sdk σ α) (s : σ)
    (post : σ → α → Prop) : Prop :=
  Assures (HandsOut owner) (fun op => op.camera owner q = q) p s post

theorem delete_stays {σ : Type} {s : σ} (hc : Belongs owner q c.m_hDevHandle) :
    Stays owner q (c.delete : Proc sdk σ Unit) s fun s' _ => s' = s := by
  rw [CMvCamera.delete]
  cases hh : c.m_hDevHandle with
  | none => exact assures_pure rfl
  | some h =>
      rw [hh] at hc
      exact assures_call_bind (camera_of_onHandle rfl hc) fun _ _ => assures_pure rfl

theorem close_stays {σ : Type} {s : σ} (hc : Belongs owner q c.m_hDevHandle) :
    Stays owner q (c.close : Proc sdk σ (Ret × CMvCamera)) s fun s' x =>
      s' = s ∧ Belongs owner q x.2.m_hDevHandle := by
  rw [CMvCamera.close]
  cases hh : c.m_hDevHandle with
  | none =>
      rw [hh] at hc
      exact assures_pure ⟨rfl, by rw [hh]; exact hc⟩
  | some h =>
      rw [hh] at hc
      exact assures_call_bind (camera_of_onHandle rfl hc) fun _ _ =>
        assures_call_bind (camera_of_onHandle rfl hc) fun _ _ => assures_pure ⟨rfl, belongs_none⟩

/-- `Open` creates a handle for the camera of its record. -/
theorem open_stays {σ : Type} {s : σ} (hc : Belongs owner q c.m_hDevHandle)
    (hinfo : ∀ i, info = some i → i.camera = q) :
    Stays owner q (c.open info : Proc sdk σ (Ret × CMvCamera)) s fun s' x =>
      s' = s ∧ Belongs owner q x.2.m_hDevHandle := by
  unfold CMvCamera.open
  split
  · exact assures_pure ⟨rfl, hc⟩
  · rename_i i
    have hi : i.camera = q := hinfo i rfl
    split
    · exact assures_pure ⟨rfl, hc⟩
    refine assures_call_bind hi fun answer hans => ?_
    cases answer with
    | refused e left =>
        refine assures_pure ⟨rfl, fun h hh => ?_⟩
        dsimp only at hh
        rw [hh] at hans
        exact hans.trans hi
    | created h =>
        have hh : Belongs owner q (some h) := belongs_some (hans.trans hi)
        refine assures_call_bind (camera_of_onHandle rfl hh) fun nRet _ => ?_
        split
        · exact assures_call_bind (camera_of_onHandle rfl hh) fun _ _ =>
            assures_pure ⟨rfl, belongs_none⟩
        · exact assures_pure ⟨rfl, hh⟩

/-- Reading the camera of the device. -/
theorem camera_stays {α : Type} {f : CMvCamera → DeviceProc α} {post : CameraDevice → α → Prop}
    (h : ∀ c, d.camera_ = some c → Stays owner q (f c) d post) :
    Stays owner q (camera >>= f) d post := by
  intro tr s' a hr
  obtain ⟨c, hc, hr⟩ := runs_camera_bind.mp hr
  exact h c hc tr s' a hr

theorem stopGrabbingRetry_stays {left : ℕ} (hc : Belongs owner q c.m_hDevHandle) :
    Stays owner q (stopGrabbingRetry c left) d fun d' _ => d' = d := by
  induction left with
  | zero => exact assures_call (camera_of_onHandle rfl hc) fun _ _ => rfl
  | succ left ih =>
      refine assures_call_bind (camera_of_onHandle rfl hc) fun ret _ => ?_
      split
      · exact assures_pure rfl
      · exact ih

theorem stopGrapping_stays (hd : d.Uses owner q) :
    Stays owner q stopGrapping d fun d' _ => d'.Uses owner q := by
  refine assures_get_bind ?_
  split
  · refine camera_stays fun c hc => (stopGrabbingRetry_stays (hd c hc)).bind fun d₁ ret h₁ => ?_
    obtain rfl := h₁
    exact assures_modify_bind (assures_pure hd)
  · exact assures_pure hd

theorem closeCamera_stays (hd : d.Uses owner q) :
    Stays owner q closeCamera d fun d' _ => d'.Uses owner q := by
  refine assures_modify_bind (assures_get_bind ?_)
  split
  · exact assures_pure hd
  · rename_i c hc
    refine (close_stays (hd c hc)).bind fun d₁ x h₁ => ?_
    obtain ⟨ret, c'⟩ := x
    obtain ⟨rfl, hc'⟩ := h₁
    refine assures_modify_bind ((delete_stays hc').bind fun d₂ u h₂ => ?_)
    obtain rfl := h₂
    exact assures_modify_bind (assures_pure (uses_of_none rfl))

theorem stopAndClose_stays (hd : d.Uses owner q) :
    Stays owner q stopAndClose d fun d' _ => d'.Uses owner q :=
  (stopGrapping_stays hd).bind fun _ _ h₁ => (closeCamera_stays h₁).bind fun _ _ h₂ =>
    assures_pure h₂

/-- A member that leaves the camera of the device alone. -/
theorem Uses.of_camera_eq (hd : d.Uses owner q) (h : d'.camera_ = d.camera_) : d'.Uses owner q := by
  intro c hc
  rw [h] at hc
  exact hd c hc

theorem configureCamera_stays (hc : d.camera_ = some c) (hd : d.Uses owner q) :
    Stays owner q (configureCamera c info) d fun d' _ => d'.Uses owner q := by
  have hon : ∀ {op : Call}, op.onHandle = some c.m_hDevHandle → op.camera owner q = q :=
    fun hop => camera_of_onHandle hop (hd c hc)
  refine Asks.assures (configureCamera_asks ?_ ?_ ?_ ?_) fun tr d' r h => ?_
  · exact hon rfl
  · exact fun _ _ => hon rfl
  · exact fun _ _ => hon rfl
  · exact fun _ => hon rfl
  · obtain ⟨-, n, rfl⟩ := configureCamera_spec h
    exact hd.of_camera_eq rfl

/-- **Opening** stays on the camera of the record. -/
theorem openCamera_stays (hd : d.Uses owner q) (hinfo : ∀ i, info = some i → i.camera = q) :
    Stays owner q (openCamera info) d fun d' _ => d'.Uses owner q := by
  refine assures_get_bind ?_
  split
  · exact assures_pure hd
  · refine assures_modify_bind ((open_stays belongs_none hinfo).bind fun d₁ x h₁ => ?_)
    obtain ⟨ret, c⟩ := x
    obtain ⟨rfl, hc⟩ := h₁
    refine assures_modify_bind ?_
    split
    · refine (delete_stays hc).bind fun d₂ u h₂ => ?_
      obtain rfl := h₂
      exact assures_modify_bind (assures_pure (uses_of_none rfl))
    · refine configureCamera_stays rfl fun c' hc' => ?_
      obtain rfl := Option.some.inj hc'
      exact hc

theorem startGrapping_stays (hd : d.Uses owner q) :
    Stays owner q startGrapping d fun d' _ => d'.Uses owner q := by
  refine assures_get_bind ?_
  split
  · exact assures_pure hd
  · refine camera_stays fun c hc => assures_call_bind (camera_of_onHandle rfl (hd c hc)) fun ret _ => ?_
    split
    · exact assures_pure hd
    · exact assures_modify_bind (assures_pure (hd.of_camera_eq rfl))

/-- **`start`** stays on the camera of the record. -/
theorem start_stays (hd : d.Uses owner q) (hinfo : ∀ i, info = some i → i.camera = q) :
    Stays owner q (start info) d fun d' _ => d'.Uses owner q := by
  refine (openCamera_stays hd hinfo).bind fun d₁ ret h₁ => ?_
  split
  · exact (closeCamera_stays h₁).bind fun d₂ _ h₂ => assures_pure h₂
  · exact startGrapping_stays h₁

theorem growTo_stays {size : UInt32} {b : Buff} :
    Stays owner q (growTo size b) d fun d' _ => d' = d := by
  intro tr d' b' h _
  obtain ⟨rfl, hmalloc, -⟩ := growTo_spec h
  refine ⟨fun e he => ?_, rfl⟩
  obtain ⟨n, a, rfl⟩ := hmalloc e he
  rfl

theorem fetchFrame_stays (hd : d.Uses owner q) :
    Stays owner q fetchFrame d fun d' _ => d'.Uses owner q := by
  refine assures_get_bind (growTo_stays.bind fun d₁ cache h₁ => ?_)
  obtain rfl := h₁
  refine assures_modify_bind (camera_stays fun c hc => ?_)
  refine assures_call_bind (camera_of_onHandle rfl (hd c hc)) fun answer _ => ?_
  exact assures_modify_bind (assures_pure (hd.of_camera_eq rfl))

theorem toJpg_stays {frame : FrameInfo} {param : Option ImageParameter} {data_ : Buff}
    (hd : d.Uses owner q) : Stays owner q (toJpg frame param data_) d fun d' _ => d'.Uses owner q := by
  refine assures_get_bind (growTo_stays.bind fun d₁ grown h₁ => ?_)
  obtain rfl := h₁
  refine camera_stays fun c hc => assures_call_bind (camera_of_onHandle rfl (hd c hc)) fun answer _ => ?_
  split
  · simp only [Buff.setDataSize, bind_assoc, pure_bind]
    exact assures_require_bind fun _ => assures_pure hd
  · exact assures_pure hd

/-- **`take_picture`** stays on the camera of its device. -/
theorem takePicture_stays {param : Option ImageParameter} {data_ : Buff} (hd : d.Uses owner q) :
    Stays owner q (takePicture param data_) d fun d' _ => d'.Uses owner q := by
  refine assures_get_bind (assures_require_bind fun _ => assures_require_bind fun _ =>
    assures_require_bind fun _ => camera_stays fun c hc => ?_)
  refine assures_call_bind (camera_of_onHandle rfl (hd c hc)) fun connected _ => ?_
  split
  · exact (stopAndClose_stays hd).bind fun d₁ _ h₁ => assures_pure h₁
  · refine (fetchFrame_stays hd).bind fun d₁ answer h₁ => ?_
    split
    · have hclose : Stays owner q (closeOnNoData answer.ret) d₁ fun d' _ => d'.Uses owner q := by
        rw [closeOnNoData]
        split
        · exact stopAndClose_stays h₁
        · exact assures_pure h₁
      exact hclose.bind fun d₂ _ h₂ => assures_pure h₂
    · exact toJpg_stays h₁

end CameraDevice

/-! ## The cameras of the map -/

/-- Each device of the map uses the camera of its key. -/
def Homed (owner : Handle → Bytes) (P : Provider) : Prop :=
  ∀ k d, P.entry k = some d → d.Uses owner (cstr k)

section Homed
variable {owner : Handle → Bytes} {P P' : Provider} {tr : SdkTrace} {k : Key} {l : InfoList}
  {e e' : Option CameraDevice} {param : Option ImageParameter} {data_ : Buff} {res : Ret × Buff}

/-- A record that is found for a key is one of the camera of the key. -/
theorem camera_of_find {p : RecordPtr} {i : DeviceInfo} (hk : toUpper k = k)
    (hl : l.findCameraInfoBySn (.ofString k) = some p) (hi : l.deref p = some i) :
    i.camera = cstr k := by
  obtain ⟨-, i', hi', hs⟩ := InfoList.deref_of_find hl
  rw [hi] at hi'
  obtain rfl := Option.some.inj hi'
  have htext : (CharArray.ofString k).text = cstr k := cstr_append_zero k
  rw [hs.camera, htext, ← cstr_toUpper, hk]

/-- A device that is started for a key is one of the camera of the key. -/
theorem start_of_find_stays {p : RecordPtr} {i : DeviceInfo} {d : CameraDevice} {r : Ret}
    (hk : toUpper k = k) (hl : l.findCameraInfoBySn (.ofString k) = some p)
    (hi : l.deref p = some i) (h : Runs (CameraDevice.start (some i)) .new tr d r)
    (hR : ∀ ev ∈ tr, HandsOut owner ev) :
    (∀ ev ∈ tr, ev.op.camera owner (cstr k) = cstr k) ∧ d.Uses owner (cstr k) := by
  have hinfo : ∀ j, some i = some j → j.camera = cstr k := by
    rintro j ⟨⟩
    exact camera_of_find hk hl hi
  exact CameraDevice.start_stays (CameraDevice.uses_of_none rfl) hinfo _ _ _ h hR

/-- **A picture** makes calls on the camera of its key only, and leaves a device of it. -/
theorem Pictured.stays (h : Pictured l k param data_ e tr e' res) (hk : toUpper k = k)
    (he : ∀ d, e = some d → d.Uses owner (cstr k)) (hR : ∀ ev ∈ tr, HandsOut owner ev) :
    (∀ ev ∈ tr, ev.op.camera owner (cstr k) = cstr k) ∧
      ∀ d', e' = some d' → d'.Uses owner (cstr k) := by
  cases h with
  | hit hd h =>
      obtain ⟨hcalls, huses⟩ := CameraDevice.takePicture_stays (he _ rfl) _ _ _ h hR
      refine ⟨hcalls, ?_⟩
      rintro d' ⟨⟩
      exact huses
  | unknown hn hl => exact ⟨by simp, by simp⟩
  | @failed _ p i d d' t₁ t₂ r hn hl hi h₁ hr h₂ =>
      obtain ⟨hcalls₁, huses⟩ := start_of_find_stays hk hl hi h₁
        fun ev hev => hR ev (List.mem_append_left _ hev)
      obtain ⟨hcalls₂, -⟩ := CameraDevice.stopAndClose_stays huses _ _ _ h₂
        fun ev hev => hR ev (List.mem_append_right _ hev)
      refine ⟨fun ev hev => ?_, by simp⟩
      rcases List.mem_append.mp hev with hev | hev
      · exact hcalls₁ ev hev
      · exact hcalls₂ ev hev
  | @opened _ p i d d' t₁ t₂ _ hn hl hi h₁ h₂ =>
      obtain ⟨hcalls₁, huses⟩ := start_of_find_stays hk hl hi h₁
        fun ev hev => hR ev (List.mem_append_left _ hev)
      obtain ⟨hcalls₂, huses'⟩ := CameraDevice.takePicture_stays huses _ _ _ h₂
        fun ev hev => hR ev (List.mem_append_right _ hev)
      refine ⟨fun ev hev => ?_, ?_⟩
      · rcases List.mem_append.mp hev with hev | hev
        · exact hcalls₁ ev hev
        · exact hcalls₂ ev hev
      · rintro d'' ⟨⟩
        exact huses'

theorem homed_new : Homed owner .new := by
  intro k d h
  simp [entry, Provider.new] at h

theorem ProviderCall.run_homed {call : ProviderCall} (hs : P.Sound) (hP : Homed owner P)
    (h : Runs call.run P tr P' ()) (hR : ∀ ev ∈ tr, HandsOut owner ev) : Homed owner P' := by
  cases call with
  | takePicture sn param data_ =>
      obtain ⟨t₁, P₁, res, t₂, rfl, h₁, h₂⟩ := runs_bind.mp h
      obtain ⟨rfl, rfl, -⟩ := runs_pure.mp h₂
      obtain ⟨hpic, honly⟩ := pictured_of_runs hs h₁
      intro k d hd
      by_cases hk : k = toUpper sn
      · subst hk
        exact (hpic.stays (toUpper_toUpper sn) (hP _) (by simpa using hR)).2 d hd
      · rw [honly.others k hk] at hd
        exact hP k d hd
  | enumAllCameras =>
      obtain ⟨t₁, P₁, x, t₂, -, h₁, h₂⟩ := runs_bind.mp h
      obtain ⟨-, rfl, -⟩ := runs_pure.mp h₂
      obtain ⟨list, rfl⟩ := enumAllCameras_entries h₁
      exact hP
  | closeCamera sn =>
      obtain ⟨honly, hclosed⟩ := closeCamera_only hs h
      intro k d hd
      by_cases hk : k = sn.text
      · subst hk
        exact CameraDevice.uses_of_none (hclosed d hd).camera
      · rw [honly.others k hk] at hd
        exact hP k d hd

/-- **Between any two requests** the devices of the map use the cameras of their keys. -/
theorem serve_homed {calls : List ProviderCall} (hs : P.Sound) (hP : Homed owner P)
    (h : Runs (serve calls) P tr P' ()) (hR : ∀ ev ∈ tr, HandsOut owner ev) : Homed owner P' := by
  induction calls generalizing P tr with
  | nil =>
      obtain ⟨-, rfl, -⟩ := runs_pure.mp h
      exact hP
  | cons call calls ih =>
      obtain ⟨t₁, P₁, u, t₂, rfl, h₁, h₂⟩ := runs_bind.mp h
      exact ih (call.run_sound hs h₁)
        (call.run_homed hs hP h₁ fun ev hev => hR ev (List.mem_append_left _ hev)) h₂
        fun ev hev => hR ev (List.mem_append_right _ hev)

end Homed

/-! ## Two requests -/

/-- Cameras that answer by the calls made on them.  The handles they hand out are theirs. -/
structure Cameras (owner : Handle → Bytes) where
  answers : Answers sdk Bytes
  handsOut : ∀ i m, HandsOut owner ⟨.createHandle i, answers i.camera m (.createHandle i)⟩

theorem Cameras.answered_handsOut {owner : Handle → Bytes} (C : Cameras owner) {q : Bytes}
    {m : Memory sdk Bytes} {tr : SdkTrace}
    (h : Answered C.answers (Call.camera owner q) m tr) : ∀ e ∈ tr, HandsOut owner e := by
  refine h.all fun m op => ?_
  cases op with
  | createHandle i => exact C.handsOut i m
  | _ => trivial

/-- The arguments of a `take_picture`. -/
structure PictureRequest where
  sn : Bytes
  param : Option ImageParameter
  data_ : Buff

namespace PictureRequest

/-- The key of the request. -/
def key (x : PictureRequest) : Key := toUpper x.sn

/-- The camera of the request. -/
def camera (x : PictureRequest) : Bytes := cstr x.key

/-- `take_picture`. -/
def run (x : PictureRequest) : ProviderProc (Ret × Buff) :=
  Provider.takePicture nobody x.sn x.param x.data_

/-- The record that the request names. -/
def record (x : PictureRequest) (P : Provider) : Option RecordPtr :=
  P.camera_info_list_.findCameraInfoBySn (.ofString x.key)

end PictureRequest

/-- `camera_`, `camera_open_` and `grapping_`. -/
def CameraDevice.lifeCycle (d : CameraDevice) : Option CMvCamera × Bool × Bool :=
  (d.camera_, d.camera_open_, d.grapping_)

section Orders
variable {owner : Handle → Bytes}

/-- The request `x` is served, and then `y`, by cameras that have been asked nothing yet. -/
def InOrder (C : Cameras owner) (P : Provider) (x y : PictureRequest) (resx resy : Ret × Buff)
    (P' : Provider) : Prop :=
  ∃ t₁ P₁ t₂, Runs x.run P t₁ P₁ resx ∧ Runs y.run P₁ t₂ P' resy ∧
    Answered C.answers (Call.camera owner x.camera) .blank t₁ ∧
    Answered C.answers (Call.camera owner y.camera)
      (Memory.blank.after (Call.camera owner x.camera) t₁) t₂

/-- Neither `x` nor, after it, `y` touches the entry of the other one. -/
def Spares (P : Provider) (x y : PictureRequest) : Prop :=
  ∀ t₁ P₁ resx, Runs x.run P t₁ P₁ resx → P₁.entry y.key = P.entry y.key ∧
    ∀ t₂ P₂ resy, Runs y.run P₁ t₂ P₂ resy → P₂.entry x.key = P₁.entry x.key

/-- The order of the two requests makes no difference. -/
structure Independent (owner : Handle → Bytes) (P : Provider) (x y : PictureRequest) : Prop where
  /-- Both orders go through, or none. -/
  completes : ∀ C : Cameras owner, (∃ resx resy P', InOrder C P x y resx resy P') ↔
    ∃ resy resx P', InOrder C P y x resy resx P'
  /-- Each request has the same code and the same output in both. -/
  results : ∀ (C : Cameras owner) resx resy P₁ resx' resy' P₂, InOrder C P x y resx resy P₁ →
    InOrder C P y x resy' resx' P₂ →
      (resx'.1, resx'.2.data) = (resx.1, resx.2.data) ∧ (resy'.1, resy'.2.data) = (resy.1, resy.2.data)
  /-- They lead to the same map. -/
  entries : ∀ (C : Cameras owner) resx resy P₁ resx' resy' P₂, InOrder C P x y resx resy P₁ →
    InOrder C P y x resy' resx' P₂ → ∀ k,
      (P₂.entry k).map CameraDevice.lifeCycle = (P₁.entry k).map CameraDevice.lifeCycle
  spares : Spares P x y ∧ Spares P y x

variable {C : Cameras owner} {P P' : Provider} {x y : PictureRequest} {resx resy : Ret × Buff}

theorem spares_of_sound (hs : P.Sound) (hkeys : x.key ≠ y.key) : Spares P x y := by
  intro t₁ P₁ resx h₁
  have honly := (pictured_of_runs hs h₁).2
  refine ⟨honly.others _ hkeys.symm, fun t₂ P₂ resy h₂ => ?_⟩
  exact (pictured_of_runs honly.sound h₂).2.others _ hkeys

/-- A request that makes no call: there is neither a device nor a record for it. -/
def Idle (P : Provider) (x : PictureRequest) : Prop := ¬ Usable (P.entry x.key) ∧ x.record P = none

theorem pictured_silent {l : InfoList} {k : Key} {param : Option ImageParameter} {data_ : Buff}
    {e e' : Option CameraDevice} {tr : SdkTrace} {res : Ret × Buff} (he : ¬ Usable e)
    (hl : l.findCameraInfoBySn (.ofString k) = none) (h : Pictured l k param data_ e tr e' res) :
    tr = [] := by
  cases h with
  | hit hd h => exact absurd ⟨_, rfl, hd⟩ he
  | unknown hn hl => rfl
  | failed hn hl' hi h₁ hr h₂ =>
      rw [hl] at hl'
      cases hl'
  | opened hn hl' hi h₁ h₂ =>
      rw [hl] at hl'
      cases hl'

/-- The requests have different cameras, or one of them makes no call. -/
def Separate (P : Provider) (x y : PictureRequest) : Prop :=
  x.camera ≠ y.camera ∨ Idle P x ∨ Idle P y

theorem Separate.symm (h : Separate P x y) : Separate P y x := by
  rcases h with h | h | h
  · exact Or.inl h.symm
  · exact Or.inr (Or.inr h)
  · exact Or.inr (Or.inl h)

/-- **The requests can be exchanged.** -/
theorem InOrder.exchange (hs : P.Sound) (hP : Homed owner P) (hkeys : x.key ≠ y.key)
    (hseparate : Separate P x y) (h : InOrder C P x y resx resy P') :
    ∃ P'', InOrder C P y x resy resx P'' ∧ ∀ k, P''.entry k = P'.entry k := by
  obtain ⟨t₁, P₁, t₂, hx, hy, hax, hay⟩ := h
  obtain ⟨hpx, honlyx⟩ := pictured_of_runs hs hx
  obtain ⟨hpy, honlyy⟩ := pictured_of_runs honlyx.sound hy
  rw [honlyx.info] at hpy
  have hyentry : P₁.entry (toUpper y.sn) = P.entry (toUpper y.sn) := honlyx.others _ hkeys.symm
  rw [hyentry] at hpy
  obtain ⟨Q₁, hy', hey⟩ := runs_of_pictured hs hpy
  have honlyy' := (pictured_of_runs hs hy').2
  have hxentry : Q₁.entry (toUpper x.sn) = P.entry (toUpper x.sn) := honlyy'.others _ hkeys
  have hpx' := hpx
  rw [← honlyy'.info, ← hxentry] at hpx'
  obtain ⟨Q₂, hx', hex⟩ := runs_of_pictured honlyy'.sound hpx'
  have honlyx' := (pictured_of_runs honlyy'.sound hx').2
  have hcallsx := (hpx.stays (toUpper_toUpper x.sn) (hP _) (C.answered_handsOut hax)).1
  have hcallsy := (hpy.stays (toUpper_toUpper y.sn) (hP _) (C.answered_handsOut hay)).1
  refine ⟨Q₂, ⟨t₂, Q₁, t₁, hy', hx', ?_, ?_⟩, fun k => ?_⟩
  · rcases hseparate with hne | hidle | hidle
    · refine hay.of_local hcallsy (after_of_ne fun e he => ?_).symm
      rw [show e.op.camera owner x.camera = x.camera from hcallsx e he]
      exact hne
    · rw [pictured_silent hidle.1 hidle.2 hpx] at hay
      simpa using hay
    · rw [pictured_silent hidle.1 hidle.2 hpy]
      trivial
  · rcases hseparate with hne | hidle | hidle
    · refine hax.of_local hcallsx (after_of_ne fun e he => ?_)
      rw [show e.op.camera owner y.camera = y.camera from hcallsy e he]
      exact hne.symm
    · rw [pictured_silent hidle.1 hidle.2 hpx]
      trivial
    · rw [pictured_silent hidle.1 hidle.2 hpy]
      simpa using hax
  · by_cases hkx : k = x.key
    · subst hkx
      rw [show Q₂.entry x.key = P₁.entry x.key from hex]
      exact (honlyy.others _ hkeys).symm
    · rw [honlyx'.others k hkx]
      by_cases hky : k = y.key
      · subst hky
        exact hey
      · rw [honlyy'.others k hky, honlyy.others k hky, honlyx.others k hkx]

/-- The cameras determine what happens. -/
theorem InOrder.unique {resx' resy' : Ret × Buff} {P'' : Provider} (h : InOrder C P x y resx resy P')
    (h' : InOrder C P x y resx' resy' P'') : resx' = resx ∧ resy' = resy ∧ P'' = P' := by
  obtain ⟨t₁, P₁, t₂, hx, hy, hax, hay⟩ := h
  obtain ⟨t₁', P₁', t₂', hx', hy', hax', hay'⟩ := h'
  obtain ⟨rfl, rfl, rfl⟩ := hx.unique hx' hax hax'
  obtain ⟨rfl, rfl, rfl⟩ := hy.unique hy' hay hay'
  exact ⟨rfl, rfl, rfl⟩

theorem independent_of_separate (hs : P.Sound) (hP : Homed owner P) (hkeys : x.key ≠ y.key)
    (hseparate : Separate P x y) : Independent owner P x y where
  completes := by
    intro C
    constructor
    · rintro ⟨resx, resy, P', h⟩
      obtain ⟨P'', h', -⟩ := h.exchange hs hP hkeys hseparate
      exact ⟨resy, resx, P'', h'⟩
    · rintro ⟨resy, resx, P', h⟩
      obtain ⟨P'', h', -⟩ := h.exchange hs hP hkeys.symm hseparate.symm
      exact ⟨resx, resy, P'', h'⟩
  results := by
    intro C resx resy P₁ resx' resy' P₂ h h'
    obtain ⟨P'', hexchanged, -⟩ := h.exchange hs hP hkeys hseparate
    obtain ⟨rfl, rfl, -⟩ := hexchanged.unique h'
    exact ⟨rfl, rfl⟩
  entries := by
    intro C resx resy P₁ resx' resy' P₂ h h' k
    obtain ⟨P'', hexchanged, hentries⟩ := h.exchange hs hP hkeys hseparate
    obtain ⟨-, -, rfl⟩ := hexchanged.unique h'
    rw [hentries k]
  spares := ⟨spares_of_sound hs hkeys, spares_of_sound hs hkeys.symm⟩

/-! ### Two devices of one camera -/

/-- A camera seems to be gone when it is first asked; afterwards it is there, but delivers
no frame. -/
def flickers : Answers sdk Bytes := fun _ m op =>
  match op with
  | .isDeviceConnected _ => !m.isEmpty
  | .getOneFrame _ _ _ _ => ⟨.err (.other 1), ⟨0, 0, 0, 0⟩, []⟩
  | .createHandle _ => .refused (.other 1) none
  | op => obliging 0 op

/-- Such cameras. -/
def flickering (owner : Handle → Bytes) : Cameras owner := ⟨flickers, fun _ _ => trivial⟩

variable {d : CameraDevice} {q : Bytes} {m : Memory sdk Bytes} {param : Option ImageParameter}
  {data_ : Buff}

/-- The device that is asked first is shut down. -/
theorem flickers_first (hd : d.Running) (huses : d.Uses owner q) (hm : m q = []) :
    ∃ tr d', Runs (CameraDevice.takePicture param data_) d tr d' (.err .failure, data_) ∧
      Answered flickers (Call.camera owner q) m tr ∧ m.after (Call.camera owner q) tr q ≠ [] := by
  obtain ⟨c, hc⟩ := Option.ne_none_iff_exists'.mp hd.camera
  have hq : (Call.isDeviceConnected c.m_hDevHandle).camera owner q = q :=
    camera_of_onHandle rfl (huses c hc)
  obtain ⟨t, ht, ⟨d', u, hstop⟩ | ⟨f, hf⟩⟩ := exists_answered flickers (Call.camera owner q)
    (m.after (Call.camera owner q) [⟨.isDeviceConnected c.m_hDevHandle, false⟩])
    CameraDevice.stopAndClose d
  · refine ⟨⟨.isDeviceConnected c.m_hDevHandle, false⟩ :: t, d', ?_, ⟨?_, ht⟩, ?_⟩
    · simp only [CameraDevice.takePicture, runs_get_bind, runs_require_bind,
        CameraDevice.runs_camera_bind, CMvCamera.isDeviceConnected, runs_call_bind]
      refine ⟨hd.camera, hd.camera_open, hd.grapping, c, hc, false, t, rfl, ?_⟩
      exact runs_bind.mpr ⟨t, d', (), [], by simp, hstop, runs_pure.mpr ⟨rfl, rfl, rfl⟩⟩
    · simp only [hq, hm]
      rfl
    · simp [Memory.after, hq]
  · exact absurd hf (CameraDevice.stopAndClose_faults hc)

/-- The other one is not. -/
theorem flickers_second (hd : d.Running) (huses : d.Uses owner q) (hm : m q ≠ []) :
    ∃ tr d', Runs (CameraDevice.takePicture param data_) d tr d' (.err (.other 1), data_) ∧
      Answered flickers (Call.camera owner q) m tr := by
  obtain ⟨c, hc⟩ := Option.ne_none_iff_exists'.mp hd.camera
  have hq : (Call.isDeviceConnected c.m_hDevHandle).camera owner q = q :=
    camera_of_onHandle rfl (huses c hc)
  obtain ⟨t, ht, ⟨d', answer, hfetch⟩ | ⟨f, hf⟩⟩ := exists_answered flickers (Call.camera owner q)
    (m.after (Call.camera owner q) [⟨.isDeviceConnected c.m_hDevHandle, true⟩])
    CameraDevice.fetchFrame d
  · have hret : answer.ret = .err (.other 1) := by
      obtain ⟨cache, c', t₁, -, -, -, -, rfl⟩ := CameraDevice.fetchFrame_spec hfetch
      obtain ⟨-, hans, -⟩ := answered_append.mp ht
      exact congrArg FrameAnswer.ret hans
    refine ⟨⟨.isDeviceConnected c.m_hDevHandle, true⟩ :: t, d', ?_, ?_, ht⟩
    · simp only [CameraDevice.takePicture, runs_get_bind, runs_require_bind,
        CameraDevice.runs_camera_bind, CMvCamera.isDeviceConnected, runs_call_bind]
      refine ⟨hd.camera, hd.camera_open, hd.grapping, c, hc, true, t, rfl, ?_⟩
      refine runs_bind.mpr ⟨t, d', answer, [], by simp, hfetch, ?_⟩
      simp [hret, CameraDevice.closeOnNoData]
    · simp only [hq]
      simp [flickers, hm]
  · exact absurd hf (CameraDevice.fetchFrame_faults hc)

/-- Whichever request comes first fails in another way. -/
theorem flickering_inOrder (hs : P.Sound) (hP : Homed owner P) (hkeys : x.key ≠ y.key)
    (hcamera : x.camera = y.camera) (hx : Usable (P.entry x.key)) (hy : Usable (P.entry y.key)) :
    ∃ P', InOrder (flickering owner) P x y (.err .failure, x.data_) (.err (.other 1), y.data_)
      P' := by
  obtain ⟨dx, hdx, hrunx⟩ := hx
  obtain ⟨dy, hdy, hruny⟩ := hy
  obtain ⟨t₁, dx', htakex, hax, hm⟩ := flickers_first (m := .blank) hrunx (hP _ _ hdx) rfl
  have hpx : Pictured P.camera_info_list_ (toUpper x.sn) x.param x.data_ (P.entry x.key) t₁
      (some dx') (.err .failure, x.data_) := hdx ▸ .hit hrunx htakex
  obtain ⟨P₁, hx, -⟩ := runs_of_pictured hs hpx
  have honly := (pictured_of_runs hs hx).2
  have hdy₁ : P₁.entry y.key = some dy := (honly.others _ hkeys.symm).trans hdy
  have hm' : Memory.blank.after (Call.camera owner x.camera) t₁ y.camera ≠ [] := by
    rw [← hcamera]
    exact hm
  obtain ⟨t₂, dy', htakey, hay⟩ := flickers_second hruny (hP _ _ hdy) hm'
  have hpy : Pictured P₁.camera_info_list_ (toUpper y.sn) y.param y.data_ (P₁.entry y.key) t₂
      (some dy') (.err (.other 1), y.data_) := hdy₁ ▸ .hit hruny htakey
  obtain ⟨P₂, hy, -⟩ := runs_of_pictured honly.sound hpy
  exact ⟨P₂, t₁, P₁, t₂, hx, hy, hax, hay⟩

theorem not_independent_of_usable (hs : P.Sound) (hP : Homed owner P) (hkeys : x.key ≠ y.key)
    (hcamera : x.camera = y.camera) (hx : Usable (P.entry x.key)) (hy : Usable (P.entry y.key)) :
    ¬ Independent owner P x y := by
  intro h
  obtain ⟨P₁, hxy⟩ := flickering_inOrder hs hP hkeys hcamera hx hy
  obtain ⟨P₂, hyx⟩ := flickering_inOrder hs hP hkeys.symm hcamera.symm hy hx
  have hcode := congrArg Prod.fst (h.results _ _ _ _ _ _ _ hxy hyx).1
  cases hcode

/-- **When the order of two requests makes no difference.**  In every state that requests
lead to, one after the other, take two pictures whose keys differ and which do not name the
same record.  Let cameras answer by the calls made on them only.  The order of the two makes
no difference, unless their keys name the same camera and both have a running device. -/
theorem independent_iff {calls : List ProviderCall} {t : SdkTrace}
    (ht : Runs (serve calls) .new t P ()) (hhands : ∀ e ∈ t, HandsOut owner e)
    (hkeys : x.key ≠ y.key) (hrecord : ∀ p, x.record P = some p → y.record P ≠ some p) :
    Independent owner P x y ↔
      ¬ (x.camera = y.camera ∧ Usable (P.entry x.key) ∧ Usable (P.entry y.key)) := by
  have hs : P.Sound := serve_sound sound_new ht
  have hP : Homed owner P := serve_homed sound_new homed_new ht hhands
  constructor
  · rintro h ⟨hcamera, hx, hy⟩
    exact not_independent_of_usable hs hP hkeys hcamera hx hy h
  · intro hcond
    refine independent_of_separate hs hP hkeys ?_
    by_cases hcamera : x.camera = y.camera
    · -- the same record is found for both, and so none
      have htext : ∀ k : Key, (CharArray.ofString k).text = cstr k := cstr_append_zero
      have hsame : x.record P = y.record P := by
        apply InfoList.find_congr
        rw [htext, htext]
        exact hcamera
      have hnone : x.record P = none := by
        cases hx : x.record P with
        | none => rfl
        | some p => exact absurd (hsame ▸ hx) (hrecord p hx)
      by_cases hx : Usable (P.entry x.key)
      · have hy : ¬ Usable (P.entry y.key) := fun hy => hcond ⟨hcamera, hx, hy⟩
        exact Or.inr (Or.inr ⟨hy, hsame ▸ hnone⟩)
      · exact Or.inr (Or.inl ⟨hx, hnone⟩)
    · exact Or.inl hcamera

end Orders

/-! ### A camera with two keys -/

/-- Every handle is that of the one camera. -/
def oneOwner : Handle → Bytes := fun _ => [65]

/-- The camera is started. -/
def startOf (h : Handle) : SdkTrace :=
  [⟨.createHandle (usbCamera [65]), .created h⟩, ⟨.openDevice (some h), .ok⟩,
    ⟨.setEnumValue (some h) "TriggerMode" .triggerModeOff, .ok⟩,
    ⟨.setEnumValue (some h) "PixelFormat" .bgr8Packed, .ok⟩,
    ⟨.getIntValue (some h) "PayloadSize", (.ok, 0)⟩, ⟨.startGrabbing (some h), .ok⟩]

/-- No frame comes. -/
def pictureOf (h : Handle) : SdkTrace :=
  [⟨.isDeviceConnected (some h), true⟩,
    ⟨.getOneFrame (some h) false 0 4000, ⟨.err (.other 1), ⟨0, 0, 0, 0⟩, []⟩⟩]

/-- The device. -/
def startedOn (h : Handle) : CameraDevice :=
  { CameraDevice.new with camera_ := some ⟨some h⟩, camera_open_ := true, grapping_ := true }

/-- It opens as `h`, and delivers no frame. -/
def frameless (h : Handle) : Oracle sdk := fun n op =>
  match op with
  | .createHandle _ => .created h
  | .getOneFrame _ _ _ _ => ⟨.err (.other 1), ⟨0, 0, 0, 0⟩, []⟩
  | op => obliging n op

theorem runs_startOf (h : Handle) :
    Runs (CameraDevice.start (some (usbCamera [65]))) .new (startOf h) (startedOn h) .ok :=
  runs_of_exec (o := frameless h) rfl

theorem runs_pictureOf (h : Handle) : Runs (CameraDevice.takePicture none .empty) (startedOn h)
    (pictureOf h) (startedOn h) (.err (.other 1), .empty) :=
  runs_of_exec (o := frameless h) rfl

/-- A first picture of the camera leaves the device. -/
theorem exists_pictured {P : Provider} {p : RecordPtr} (h : Handle) (sn : Bytes) (hs : P.Sound)
    (he : ¬ Usable (P.entry (toUpper sn)))
    (hl : P.camera_info_list_.findCameraInfoBySn (.ofString (toUpper sn)) = some p)
    (hi : P.camera_info_list_.deref p = some (usbCamera [65])) :
    ∃ P', Runs (ProviderCall.takePicture sn none .empty).run P (startOf h ++ pictureOf h) P' () ∧
      P.Only (toUpper sn) P' ∧ P'.entry (toUpper sn) = some (startedOn h) := by
  obtain ⟨P', hrun, hentry⟩ := runs_of_pictured hs
    (Pictured.opened he hl hi (runs_startOf h) (runs_pictureOf h))
  refine ⟨P', ?_, (pictured_of_runs hs hrun).2, hentry⟩
  exact runs_bind.mpr ⟨_, P', _, [], by simp, hrun, runs_pure.mpr ⟨rfl, rfl, rfl⟩⟩

/-- The state after a listing. -/
def listed (P : Provider) (list : DeviceList) : Provider :=
  { P with camera_info_list_ := ⟨P.camera_info_list_.epoch + 1, list⟩ }

theorem runs_listed (P : Provider) (list : DeviceList) :
    Runs ProviderCall.enumAllCameras.run P [⟨.enumDevices [.gige, .usb], (.ok, list)⟩]
      (listed P list) () :=
  runs_of_exec (o := finding list) rfl

/-- Two keys of the camera are used, and then it is listed no more. -/
def crowding : List ProviderCall :=
  [.enumAllCameras, .takePicture [65] none .empty, .takePicture [65, 0] none .empty,
    .enumAllCameras]

theorem exists_crowded : ∃ t P, Runs (serve crowding) .new t P () ∧
    (∀ e ∈ t, HandsOut oneOwner e) ∧ P.camera_info_list_.pDeviceInfo = [] ∧
    Usable (P.entry [65]) ∧ Usable (P.entry [65, 0]) := by
  have hs : (listed .new [some (usbCamera [65])]).Sound :=
    ⟨sound_new.made, sound_new.settled, sound_new.apart, sound_new.upper⟩
  have hempty : ∀ k, ¬ Usable ((listed .new [some (usbCamera [65])]).entry k) := by
    rintro k ⟨d, hd, -⟩
    cases hd
  obtain ⟨P₂, h₂, honly₂, he₂⟩ := exists_pictured (p := ⟨1, 0⟩) 1 [65] hs (hempty _) rfl rfl
  have hfree : ¬ Usable (P₂.entry [65, 0]) := by
    rw [honly₂.others [65, 0] (by decide)]
    exact hempty _
  have hfind : P₂.camera_info_list_.findCameraInfoBySn (.ofString [65, 0]) = some ⟨1, 0⟩ := by
    rw [honly₂.info]
    rfl
  have hderef : P₂.camera_info_list_.deref ⟨1, 0⟩ = some (usbCamera [65]) := by
    rw [honly₂.info]
    rfl
  obtain ⟨P₃, h₃, honly₃, he₃⟩ := exists_pictured 2 [65, 0] honly₂.sound hfree hfind hderef
  have he : P₃.entry [65] = some (startedOn 1) := (honly₃.others [65] (by decide)).trans he₂
  have hserve : Runs (serve crowding) .new _ (listed P₃ []) () :=
    runs_bind.mpr ⟨_, _, (), _, rfl, runs_listed .new [some (usbCamera [65])],
      runs_bind.mpr ⟨_, _, (), _, rfl, h₂, runs_bind.mpr ⟨_, _, (), _, rfl, h₃,
        runs_bind.mpr ⟨_, _, (), _, rfl, runs_listed P₃ [], runs_pure.mpr ⟨rfl, rfl, rfl⟩⟩⟩⟩⟩
  refine ⟨_, listed P₃ [], hserve, ?_, rfl, ?_, ?_⟩
  · have hcamera : (usbCamera [65]).camera = [65] := by decide
    simp [startOf, pictureOf, HandsOut, oneOwner, hcamera]
  · exact ⟨_, he, by decide⟩
  · exact ⟨_, he₃, by decide⟩

/-- No record is named when none is listed. -/
theorem record_of_unlisted {P : Provider} (h : P.camera_info_list_.pDeviceInfo = [])
    (x : PictureRequest) : x.record P = none := by
  simp [PictureRequest.record, InfoList.findCameraInfoBySn, h]

/-- A request for the camera, and one for a camera that is not there. -/
theorem independent_iff_crowded : ∃ t P, Runs (serve crowding) .new t P () ∧
    (Independent oneOwner P ⟨[65], none, .empty⟩ ⟨[66], none, .empty⟩ ↔
      ¬ (PictureRequest.camera ⟨[65], none, .empty⟩ = PictureRequest.camera ⟨[66], none, .empty⟩ ∧
        Usable (P.entry [65]) ∧ Usable (P.entry [66]))) := by
  obtain ⟨t, P, ht, hhands, hlist, -, -⟩ := exists_crowded
  refine ⟨t, P, ht, independent_iff ht hhands (by decide) fun p hp => ?_⟩
  rw [record_of_unlisted hlist] at hp
  cases hp

/-- Two requests for the camera under its two keys. -/
theorem not_independent : ¬ ∀ (owner : Handle → Bytes) (calls : List ProviderCall) (t : SdkTrace)
    (P : Provider) (x y : PictureRequest), Runs (serve calls) .new t P () →
      (∀ e ∈ t, HandsOut owner e) → x.key ≠ y.key →
      (∀ p, x.record P = some p → y.record P ≠ some p) → Independent owner P x y := by
  intro hall
  obtain ⟨t, P, ht, hhands, hlist, hx, hy⟩ := exists_crowded
  have hs : P.Sound := serve_sound sound_new ht
  have hP : Homed oneOwner P := serve_homed sound_new homed_new ht hhands
  have hind : Independent oneOwner P ⟨[65], none, .empty⟩ ⟨[65, 0], none, .empty⟩ := by
    refine hall _ _ _ _ _ _ ht hhands (by decide) fun p hp => ?_
    rw [record_of_unlisted hlist] at hp
    cases hp
  exact not_independent_of_usable (x := ⟨[65], none, .empty⟩) (y := ⟨[65, 0], none, .empty⟩) hs hP
    (by decide) (by decide) hx hy hind

end CameraService
