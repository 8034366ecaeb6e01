import CameraService.Pictures
import CameraService.ProviderSpec

/-!
# What the client is told

A failure can start in some nine places between the SDK and the handler.  Each
layer hands it on, down to the code that the handler receives; the handler answers
`OK` all the same.  So the client is told the truth exactly when nothing failed.

## Main definitions

* `failing` — an answer of the SDK that makes a request fail.
* `Resolves` — the serial number leads to a camera.
* `getImage_ret`, `getCameraMetas_ret` — the code that reaches the handler.
* `status_iff_nothing_failed` — when the status is right.
-/

namespace CameraService

open Interaction Provider

/-- An answer of the SDK that makes a request fail. -/
def failing : SdkEvent → Bool
  | ⟨.enumDevices _, answer⟩ => answer.1 ≠ .ok
  | ⟨.createHandle _, .refused _ _⟩ => true
  | ⟨.openDevice _, ret⟩ => ret ≠ .ok
  | ⟨.startGrabbing _, ret⟩ => ret ≠ .ok
  | ⟨.isDeviceConnected _, connected⟩ => !connected
  | ⟨.getOneFrame _ _ _ _, answer⟩ => answer.ret ≠ .ok
  | ⟨.saveImage _ _, answer⟩ => answer.ret ≠ .ok
  | _ => false

/-- Nothing failed. -/
def Succeeded (tr : SdkTrace) : Prop := tr.any failing = false

@[simp] theorem succeeded_nil : Succeeded [] := rfl

@[simp] theorem succeeded_cons {e : SdkEvent} {tr : SdkTrace} :
    Succeeded (e :: tr) ↔ failing e = false ∧ Succeeded tr := by
  simp [Succeeded]

@[simp] theorem succeeded_append {t₁ t₂ : SdkTrace} :
    Succeeded (t₁ ++ t₂) ↔ Succeeded t₁ ∧ Succeeded t₂ := by
  simp [Succeeded]

theorem failing_of_harmless {e : SdkEvent} (h : CameraDevice.Harmless e.op) :
    failing e = false := by
  obtain ⟨op, ans⟩ := e
  cases op with
  | malloc _ | staleRecord | closeDevice _ | destroyHandle _ | getOptimalPacketSize _
  | setIntValue _ _ _ | setEnumValue _ _ _ | getIntValue _ _ | stopGrabbing _ => rfl
  | _ => exact h.elim

/-- A program all of whose calls are harmless does not fail. -/
theorem succeeded_of_harmless {σ α : Type} {p : Proc sdk σ α} {s s' : σ} {tr : SdkTrace} {x : α}
    (hp : Asks (I := sdk) CameraDevice.Harmless p) (h : Runs p s tr s' x) : Succeeded tr := by
  rw [Succeeded]
  rw [List.any_eq_false]
  intro e he
  simp [failing_of_harmless (hp.run h e he)]

/-! ## The device -/

namespace CameraDevice

variable {d d' : CameraDevice} {tr : SdkTrace} {r : Ret} {c c' : CMvCamera}

/-- `Open` on a new object. -/
theorem open_ok_iff {i : DeviceInfo} (h : CMvCamera.Opening (some i) tr r c) :
    r = .ok ↔ Succeeded tr := by
  cases h with
  | refused => simp [failing]
  | failed hret => simp [failing, hret]
  | opened => simp [failing]

/-- `start` on a new device. -/
theorem start_ok_iff {i : DeviceInfo} (h : Runs (start (some i)) .new tr d' r) :
    r = .ok ↔ Succeeded tr := by
  have ho : ¬ (new.camera_open_ = true ∨ new.camera_ ≠ none) := by simp [new]
  obtain ⟨t₁, d₁, t₂, rfl, hrest⟩ := start_cases h
  have hopen : ∀ {ret}, Runs (openCamera (some i)) new t₁ d₁ ret → (ret = .ok ↔ Succeeded t₁) := by
    intro ret h₁
    obtain ⟨t₃, ret', c, t₄, rfl, hopening, hrest⟩ := openCamera_cases ho h₁
    rw [succeeded_append, ← open_ok_iff hopening]
    rcases hrest with ⟨hne, rfl, -, -⟩ | ⟨rfl, hconfigure⟩
    · simp [hne]
    · have hs := succeeded_of_harmless configureCamera_harmless hconfigure
      have hr := (configureCamera_spec hconfigure).1
      simp [hr, hs]
  rw [succeeded_append]
  rcases hrest with ⟨hne, h₁, -⟩ | ⟨h₁, h₂⟩
  · simp [hne, ← hopen h₁]
  · rcases startGrapping_cases h₂ with ⟨rfl, rfl, -, -⟩ | ⟨c, -, -, rfl, -⟩
    · simp [← hopen h₁]
    · simp [failing, ← hopen h₁]

theorem succeeded_of_malloc {t : SdkTrace} (h : ∀ e ∈ t, ∃ n a, e = ⟨.malloc n, a⟩) :
    Succeeded t := by
  rw [Succeeded]
  rw [List.any_eq_false]
  intro e he
  obtain ⟨n, a, rfl⟩ := h e he
  simp [failing]

/-- `take_picture`. -/
theorem takePicture_ok_iff {param : Option ImageParameter} {data_ data' : Buff}
    (h : Runs (takePicture param data_) d tr d' (r, data')) : r = .ok ↔ Succeeded tr := by
  obtain ⟨-, c, t, -, hcases⟩ := takePicture_cases h
  rcases hcases with ⟨rfl, -, rfl, -⟩ | ⟨t₁, d₁, answer, t₂, rfl, rfl, h₁, hrest⟩
  · simp [failing]
  · obtain ⟨cache, c₁, t₃, -, -, -, hm, rfl⟩ := fetchFrame_spec h₁
    have hm' := succeeded_of_malloc hm
    rcases hrest with ⟨hret, -, rfl, -⟩ | ⟨hret, h₂⟩
    · simp [failing, hret]
    · obtain ⟨-, grown, c₂, t₄, saved, -, -, hg, rfl, rfl, -⟩ := toJpg_spec h₂
      simp [failing, hret, hm', succeeded_of_malloc hg]

end CameraDevice

/-! ## The provider -/

namespace Provider

variable {P P' : Provider} {held : DevId → Bool} {a : DevId} {sn : Bytes} {tr : SdkTrace}
  {x : Option DevId} {r : Ret} {data data' : Buff}

/-- The serial number leads to a camera: a device is cached for it that was not shut
down, or an enumerated record carries it. -/
def Resolves (P : Provider) (sn : Bytes) : Prop :=
  (∃ a, P.cameras_list_.lookup (toUpper sn) = some a ∧ (P.heap a).isShutdown = false) ∨
    (P.camera_info_list_.findCameraInfoBySn (.ofString (toUpper sn))).isSome = true

theorem createDevice_ok_iff {info : RecordPtr} (h : Runs (createDevice info) P tr P' (r, a)) :
    r = .ok ↔ Succeeded tr := by
  obtain ⟨-, i, d, t₁, t₂, rfl, hread, hstart, -⟩ := createDevice_spec h
  rw [succeeded_append, CameraDevice.start_ok_iff hstart]
  rcases hread with ⟨-, rfl⟩ | ⟨-, rfl⟩
  · simp
  · simp [failing]

/-- A device is created exactly when a record carries the key and nothing fails. -/
theorem createCameraDevice_isSome_iff {k : Key}
    (h : Runs (createCameraDevice held k) P tr P' x) :
    x.isSome = true ↔
      (P.camera_info_list_.findCameraInfoBySn (.ofString k)).isSome = true ∧ Succeeded tr := by
  simp only [createCameraDevice, findCameraInfoBySn, bind_assoc, runs_get_bind, pure_bind] at h
  cases hf : P.camera_info_list_.findCameraInfoBySn (.ofString k) with
  | none =>
      simp only [hf, runs_pure] at h
      simp [h.2.2]
  | some info =>
      simp only [hf] at h
      rw [runs_bind] at h
      obtain ⟨t₁, P₁, ⟨ret, a⟩, t₂, rfl, h₁, h₂⟩ := h
      have hret := createDevice_ok_iff h₁
      rw [succeeded_append, ← hret]
      split at h₂
      · rename_i hne
        rw [runs_bind] at h₂
        obtain ⟨t₃, P₃, u, t₄, rfl, h₃, h₄⟩ := h₂
        obtain ⟨rfl, -, rfl⟩ := runs_pure.mp h₄
        simp [hne]
      · rename_i hne
        rw [runs_bind] at h₂
        obtain ⟨t₃, P₃, u, t₄, rfl, h₃, h₄⟩ := h₂
        obtain ⟨rfl, -, rfl⟩ := runs_pure.mp h₄
        have hs := succeeded_of_harmless addCameraDevice_harmless h₃
        simpa [hs] using hne

theorem findOrCreateCameraDevice_isSome_iff
    (h : Runs (findOrCreateCameraDevice held sn) P tr P' x) :
    x.isSome = true ↔ P.Resolves sn ∧ Succeeded tr := by
  simp only [findOrCreateCameraDevice] at h
  rw [runs_bind] at h
  obtain ⟨t₁, P₁, y, t₂, rfl, h₁, h₂⟩ := h
  have hs := succeeded_of_harmless findCameraDeviceBySn_harmless h₁
  cases y with
  | some b =>
      obtain ⟨rfl, -, rfl⟩ := runs_pure.mp h₂
      rcases findCameraDeviceBySn_spec h₁ with ⟨-, hn, -⟩ | ⟨c, hl, ⟨hshut, -⟩ | ⟨-, hn, -⟩⟩
      · cases hn
      · simp only [Option.isSome_some, List.append_nil, hs, and_true, true_iff]
        exact Or.inl ⟨c, hl, hshut⟩
      · cases hn
  | none =>
      have hinfo : P₁.camera_info_list_ = P.camera_info_list_ ∧
          ¬ ∃ a, P.cameras_list_.lookup (toUpper sn) = some a ∧
            (P.heap a).isShutdown = false := by
        rcases findCameraDeviceBySn_spec h₁ with ⟨hl, -, rfl, -⟩ | ⟨c, hl, ⟨-, hn, -⟩ | ⟨hshut, -, hr⟩⟩
        · exact ⟨rfl, by simp [hl]⟩
        · cases hn
        · refine ⟨(release_spec hr).info, ?_⟩
          intro hex
          obtain ⟨a, ha, hrun⟩ := hex
          obtain rfl : c = a := Option.some.inj (hl.symm.trans ha)
          rw [hshut] at hrun
          cases hrun
      rw [createCameraDevice_isSome_iff h₂, hinfo.1, succeeded_append]
      simp [Resolves, hinfo.2, hs]

/-- The two ways through `take_picture`: there is no device, or one takes the picture. -/
theorem takePicture_cases {param : Option ImageParameter}
    (h : Runs (takePicture held sn param data) P tr P' (r, data')) :
    ∃ t₁ P₁ x t₂, tr = t₁ ++ t₂ ∧ Runs (findOrCreateCameraDevice held sn) P t₁ P₁ x ∧
      ((x = none ∧ t₂ = [] ∧ r = .err .failure ∧ data' = data) ∨
        ∃ a d t₃ P₃ t₄, x = some a ∧ t₂ = t₃ ++ t₄ ∧
          Runs (CameraDevice.takePicture param data) (P₁.heap a) t₃ d (r, data') ∧
          Runs (release held a) P₃ t₄ P' ()) := by
  obtain ⟨t₁, P₁, x, t₂, rfl, h₁, h₂⟩ := runs_bind.mp h
  refine ⟨t₁, P₁, x, t₂, rfl, h₁, ?_⟩
  cases x with
  | none =>
      obtain ⟨rfl, -, he⟩ := runs_pure.mp h₂
      obtain ⟨rfl, rfl⟩ := Prod.mk.inj he
      exact Or.inl ⟨rfl, rfl, rfl, rfl⟩
  | some a =>
      obtain ⟨t₃, P₃, res, t₄, rfl, h₃, h₄⟩ := runs_bind.mp h₂
      obtain ⟨t₅, P₅, u, t₆, rfl, h₅, h₆⟩ := runs_bind.mp h₄
      obtain ⟨rfl, rfl, rfl⟩ := runs_pure.mp h₆
      obtain ⟨d, hd, -⟩ := runs_onDevice.mp h₃
      rw [List.append_nil]
      exact Or.inr ⟨a, d, t₃, P₃, t₅, rfl, rfl, hd, h₅⟩

/-- **The code of `take_picture`** is `0` exactly when the serial number leads to a
camera and nothing failed on the way. -/
theorem takePicture_ok_iff {param : Option ImageParameter}
    (h : Runs (takePicture held sn param data) P tr P' (r, data')) :
    r = .ok ↔ P.Resolves sn ∧ Succeeded tr := by
  obtain ⟨t₁, P₁, x, t₂, rfl, h₁, hcases⟩ := takePicture_cases h
  rw [succeeded_append, ← and_assoc, ← findOrCreateCameraDevice_isSome_iff h₁]
  rcases hcases with ⟨rfl, -, rfl, -⟩ | ⟨a, d, t₃, P₃, t₄, rfl, rfl, hd, hr⟩
  · simp
  · simp [CameraDevice.takePicture_ok_iff hd, succeeded_of_harmless release_harmless hr]

/-- A failed `take_picture` leaves no data in the caller's buffer. -/
theorem takePicture_blank {param : Option ImageParameter} (hb : data.data_size_t_ = 0)
    (h : Runs (takePicture held sn param data) P tr P' (r, data')) (hr : r ≠ .ok) :
    data'.data_size_t_ = 0 := by
  obtain ⟨t₁, P₁, x, t₂, -, -, ⟨-, -, -, rfl⟩ | ⟨a, d, t₃, P₃, t₄, -, -, hd, -⟩⟩ :=
    takePicture_cases h
  · exact hb
  · exact CameraDevice.takePicture_blank hb hd hr

end Provider

/-! ## The handlers -/

section Handlers
variable {P P' : Provider} {held : DevId → Bool} {sn : Bytes} {shape : ImageShape}
  {tr : SdkTrace}

/-- `GetImage` makes room, takes a picture, and replies. -/
theorem getImage_cases {reply : ImageReply} (h : Runs (getImage held sn shape) P tr P' reply) :
    ∃ t₁ ret₁ data t₂ ret data', tr = t₁ ++ t₂ ∧
      Runs (Buff.empty.ensureSize defaultImageSize) P t₁ P (ret₁, data) ∧
      Runs (Provider.takePicture held sn none data) P t₂ P' (ret, data') ∧
      reply = imageReply ret data' := by
  obtain ⟨t₁, P₁, ⟨ret₁, data⟩, t₂, rfl, h₁, h₂⟩ := runs_bind.mp h
  obtain ⟨t₃, P₃, ⟨ret, data'⟩, t₄, rfl, h₃, h₄⟩ := runs_bind.mp h₂
  obtain ⟨rfl, rfl, rfl⟩ := runs_pure.mp h₄
  obtain ⟨rfl, -⟩ := Buff.ensureSize_spec h₁
  rw [List.append_nil]
  exact ⟨t₁, ret₁, data, t₃, ret, data', rfl, h₁, h₃, rfl⟩

/-- The code that reaches `GetImage`. -/
theorem getImage_ret {reply : ImageReply} (h : Runs (getImage held sn shape) P tr P' reply) :
    reply.ret = .ok ↔ P.Resolves sn ∧ Succeeded tr := by
  obtain ⟨t₁, ret₁, data, t₂, ret, data', rfl, h₁, h₃, rfl⟩ := getImage_cases h
  have hs := CameraDevice.succeeded_of_malloc (Buff.ensureSize_trace h₁)
  simp [takePicture_ok_iff h₃, hs]

/-- A failed `GetImage` answers `OK`, with an empty content. -/
theorem getImage_failed {reply : ImageReply} (h : Runs (getImage held sn shape) P tr P' reply)
    (hr : reply.ret ≠ .ok) : reply.status = .ok ∧ reply.content = [] := by
  obtain ⟨t₁, ret₁, data, t₂, ret, data', rfl, h₁, h₃, rfl⟩ := getImage_cases h
  have hblank : data.data_size_t_ = 0 := (Buff.grown_of_ensureSize h₁).blank rfl
  rw [imageReply_ret] at hr
  rw [imageReply_blank (takePicture_blank hblank h₃ hr)]
  exact ⟨rfl, rfl⟩

/-- The code that reaches `GetCameraMetas`. -/
theorem getCameraMetas_ret {reply : MetasReply} (h : Runs getCameraMetas P tr P' reply) :
    reply.ret = .ok ↔ Succeeded tr := by
  simp only [getCameraMetas, enumAllCameras, bind_assoc] at h
  rw [runs_bind] at h
  obtain ⟨t₁, P₁, ret, t₂, rfl, h₁, h₂⟩ := h
  obtain ⟨list, rfl, rfl⟩ := enumAllCamerasInfo_spec h₁
  split at h₂
  · rename_i hne
    simp only [pure_bind, runs_pure] at h₂
    obtain ⟨rfl, -, rfl⟩ := h₂
    simp [failing]
  · rename_i hne
    simp only [bind_assoc, runs_get_bind, pure_bind, runs_pure] at h₂
    obtain ⟨rfl, -, rfl⟩ := h₂
    simpa [failing] using hne

/-- `GetCameraMetas` always answers `OK`. -/
theorem getCameraMetas_status {reply : MetasReply} (h : Runs getCameraMetas P tr P' reply) :
    reply.status = .ok := by
  simp only [getCameraMetas] at h
  rw [runs_bind] at h
  obtain ⟨t₁, P₁, ⟨ret, infos⟩, t₂, -, -, h₂⟩ := h
  obtain ⟨-, -, rfl⟩ := runs_pure.mp h₂
  rfl

end Handlers

/-- **The status is right exactly when nothing failed.**  In every state of the provider,
for every request and all answers of the SDK: `GetImage` answers `OK` only if its
`take_picture` returned `0` exactly when the serial number leads to a camera and nothing
failed, and `GetCameraMetas` answers `OK` only if its enumeration succeeded exactly when
it did. -/
theorem status_iff_nothing_failed (P : Provider) (held : DevId → Bool) :
    (∀ sn shape tr P' reply, Runs (getImage held sn shape) P tr P' reply →
      ((reply.status = .ok → reply.ret = .ok) ↔ P.Resolves sn ∧ Succeeded tr)) ∧
    ∀ tr P' reply, Runs getCameraMetas P tr P' reply →
      ((reply.status = .ok → reply.ret = .ok) ↔ Succeeded tr) := by
  constructor
  · intro sn shape tr P' reply h
    rw [← getImage_ret h]
    refine ⟨fun hstatus => ?_, fun hret _ => hret⟩
    by_contra hne
    exact hne (hstatus (getImage_failed h hne).1)
  · intro tr P' reply h
    rw [← getCameraMetas_ret h]
    exact ⟨fun hstatus => hstatus (getCameraMetas_status h), fun hret _ => hret⟩

/-- A request to a server that has enumerated no camera. -/
theorem runs_stray : ∃ tr P', Runs (getImage nobody [88] ⟨0, 0, 0⟩) Provider.new tr P'
    ⟨.err .failure, .ok, []⟩ :=
  ⟨_, _, runs_of_exec (o := obliging) rfl⟩

theorem status_iff_nothing_failed_stray : ∃ tr P',
    Runs (getImage nobody [88] ⟨0, 0, 0⟩) Provider.new tr P' ⟨.err .failure, .ok, []⟩ ∧
      ((Status.ok = .ok → Ret.err .failure = .ok) ↔ Provider.new.Resolves [88] ∧ Succeeded tr) := by
  obtain ⟨tr, P', h⟩ := runs_stray
  exact ⟨tr, P', h, (status_iff_nothing_failed Provider.new nobody).1 _ _ tr P' _ h⟩

/-- The client asks for an unknown camera, and is answered `OK`. -/
theorem not_status_ok_only_if : ¬ ∀ (P : Provider) (held : DevId → Bool) (sn : Bytes)
    (shape : ImageShape) (tr : SdkTrace) (P' : Provider) (reply : ImageReply),
    Runs (getImage held sn shape) P tr P' reply → reply.status = .ok → reply.ret = .ok := by
  intro h
  obtain ⟨tr, P', hrun⟩ := runs_stray
  cases h _ _ _ _ _ _ _ hrun rfl

end CameraService
