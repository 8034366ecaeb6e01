import CameraService.BuffStore
import CameraService.Encoding
import CameraService.Ownership

/-!
# The buffer that a frame is fetched into

A camera tells the size of its frames when it is started, and each picture grows the
cache to that size before it fetches a frame.  `_open_camera` does not look at the result
of the query.  A camera that has told nothing is started like any other, and then fetches
into whatever cache there is.

## Main definitions

* `told` — the size that the camera has told.
* `pictures` — the pictures of a device.
* `Receives` — a fetch that is given a buffer for the whole frame.
* `receives_iff_capacity` — when all fetches are.
-/

namespace CameraService

open Interaction

/-! ## The size that was told -/

/-- The payload size that an answer tells. -/
def tells : SdkEvent → Option ℤ
  | ⟨.getIntValue _ key, (.ok, n)⟩ => if key = "PayloadSize" then some n else none
  | _ => none

/-- The size that is known after the answers of a trace, in 32 bits. -/
def told (size : UInt32) (tr : SdkTrace) : UInt32 :=
  tr.foldl (fun size e => match tells e with
    | some n => UInt32.ofNat (n % 2 ^ 32).toNat
    | none => size) size

theorem told_append (size : UInt32) (t₁ t₂ : SdkTrace) :
    told size (t₁ ++ t₂) = told (told size t₁) t₂ := List.foldl_append ..

/-- A call that tells nothing. -/
def Silent (op : Call) : Prop := ∀ a, tells ⟨op, a⟩ = none

theorem told_of_silent {size : UInt32} {tr : SdkTrace} (htr : ∀ e ∈ tr, Silent e.op) :
    told size tr = size := by
  induction tr with
  | nil => rfl
  | cons e tr ih =>
      have he : tells e = none := htr e (by simp) e.ans
      have hcons : told size (e :: tr) = told size tr := by simp [told, he]
      rw [hcons, ih fun e' he' => htr e' (by simp [he'])]

namespace CameraDevice

variable {d d' d₁ : CameraDevice} {tr : SdkTrace} {r : Ret} {c : CMvCamera}
  {info : Option DeviceInfo}

theorem initCamParams_told (h : Runs (initCamParams c) d tr d' r) :
    d'.default_buff_size_ = told d.default_buff_size_ tr := by
  simp only [initCamParams, CMvCamera.setEnumValue, CMvCamera.getIntValue, runs_call_bind] at h
  obtain ⟨r₁, _, rfl, r₂, _, rfl, ⟨ret, n⟩, _, rfl, h⟩ := h
  split at h
  · rename_i hret
    rw [runs_modify_bind, runs_pure] at h
    obtain ⟨rfl, rfl, -⟩ := h
    subst hret
    simp [told, tells]
  · rename_i hret
    obtain ⟨rfl, rfl, -⟩ := runs_pure.mp h
    cases ret with
    | ok => exact absurd rfl hret
    | err e => simp [told, tells]

theorem openCamera_told (h : Runs (openCamera info) d tr d' .ok) :
    d'.default_buff_size_ = told d.default_buff_size_ tr := by
  by_cases ho : d.camera_open_ ∨ d.camera_ ≠ none
  · obtain ⟨-, rfl, rfl⟩ := openCamera_of_open ho h
    rfl
  · obtain ⟨t₁, ret, c, t₂, rfl, hopening, hrest⟩ := openCamera_cases ho h
    have hopen : told d.default_buff_size_ t₁ = d.default_buff_size_ := by
      cases hopening with
      | noRecord | refused | failed | opened => rfl
    rw [told_append, hopen]
    rcases hrest with ⟨hret, hr, -⟩ | ⟨-, hconfigure⟩
    · exact absurd hr.symm hret
    · simp only [configureCamera] at hconfigure
      obtain ⟨t₃, d₃, u, t₄, rfl, h₃, h₄⟩ := runs_bind.mp hconfigure
      have hpacket : told d.default_buff_size_ t₃ = d.default_buff_size_ := by
        refine told_of_silent (Asks.run (configurePacketSize_asks ?_ ?_) h₃)
        · exact fun _ => rfl
        · exact fun _ _ _ => rfl
      obtain rfl := configurePacketSize_spec h₃
      obtain ⟨t₅, d₅, r₅, t₆, rfl, h₅, h₆⟩ := runs_bind.mp h₄
      rw [runs_modify_bind, runs_pure] at h₆
      obtain ⟨rfl, rfl, -⟩ := h₆
      have hinit := initCamParams_told h₅
      rw [List.append_nil, told_append, hpacket]
      exact hinit

/-- **The size that a started device knows** is the one that the camera has told. -/
theorem start_told (h : Runs (start info) d tr d' .ok) :
    d'.default_buff_size_ = told d.default_buff_size_ tr := by
  obtain ⟨t₁, d₁, t₂, rfl, ⟨hbad, -⟩ | ⟨h₁, h₂⟩⟩ := start_cases h
  · exact absurd rfl hbad
  · rw [told_append, ← openCamera_told h₁]
    rcases startGrapping_cases h₂ with ⟨rfl, -, rfl, -⟩ | ⟨c, -, -, rfl, ⟨-, rfl⟩ | ⟨hbad, -⟩⟩
    · rfl
    · rfl
    · exact absurd rfl hbad

/-! ## The cache -/

/-- The capacity of a buffer, once it is grown to the size. -/
def grownTo (b : Buff) (size : UInt32) : ℕ := max b.buff_max_size_.toNat size.toNat

/-- Growing reaches the size, unless an allocation fails, and then may reach it later. -/
theorem growTo_grown {size : UInt32} {b b' : Buff} (hv : b.Valid)
    (h : Runs (growTo size b) d tr d' b') : b'.Valid ∧ grownTo b' size = grownTo b size ∧
      (Allocates tr → b'.buff_max_size_.toNat = grownTo b size) := by
  rw [growTo] at h
  unfold grownTo
  split at h
  · rename_i hsize
    obtain ⟨t₁, d₁, ⟨ret, b₁⟩, t₂, rfl, h₁, h₂⟩ := runs_bind.mp h
    obtain ⟨rfl, rfl, rfl⟩ := runs_pure.mp h₂
    refine ⟨(Buff.keeps_ensureSizeCopy h₁).2.valid hv, ?_⟩
    obtain ⟨-, ⟨-, rfl, hn⟩ | ⟨-, -, hle, rfl, -⟩ | ⟨-, -, hle, block, -, rfl, -⟩⟩ :=
      Buff.ensureSizeCopy_cases h₁
    · refine ⟨rfl, fun hall => ?_⟩
      rcases hn with ⟨rfl, -⟩ | ⟨-, -, rfl⟩
      · exact absurd hsize (by decide)
      · exact absurd (by simp) (hall size)
    · rw [UInt32.le_iff_toNat_le] at hle
      exact ⟨rfl, fun _ => by omega⟩
    · rw [UInt32.le_iff_toNat_le] at hle
      exact ⟨by dsimp only; omega, fun _ => by dsimp only; omega⟩
  · rename_i hsize
    obtain ⟨rfl, rfl, rfl⟩ := runs_pure.mp h
    rw [UInt32.lt_iff_toNat_lt, UInt32.toNat_zero] at hsize
    exact ⟨hv, rfl, fun _ => by omega⟩

/-- What a picture leaves of the cache: its device still knows the size, and the cache
grows to the same capacity as before. -/
structure KeepsCache (d d' : CameraDevice) : Prop where
  valid : d.cache_data_.Valid → d'.cache_data_.Valid
  size : d'.default_buff_size_ = d.default_buff_size_
  grown : d.cache_data_.Valid →
    grownTo d'.cache_data_ d.default_buff_size_ = grownTo d.cache_data_ d.default_buff_size_

theorem KeepsCache.trans (h₁ : KeepsCache d d₁) (h₂ : KeepsCache d₁ d') : KeepsCache d d' := by
  refine ⟨fun hv => h₂.valid (h₁.valid hv), h₂.size.trans h₁.size, fun hv => ?_⟩
  have hgrown := h₂.grown (h₁.valid hv)
  rw [h₁.size] at hgrown
  exact hgrown.trans (h₁.grown hv)

theorem keepsCache_of_eq (hc : d'.cache_data_ = d.cache_data_)
    (hs : d'.default_buff_size_ = d.default_buff_size_) : KeepsCache d d' :=
  ⟨fun hv => hc ▸ hv, hs, fun _ => by rw [hc]⟩

theorem stopAndClose_keepsCache (h : Runs stopAndClose d tr d' ()) : KeepsCache d d' := by
  rw [(stopAndClose_spec h).1]
  exact keepsCache_of_eq rfl rfl

theorem fetchFrame_keepsCache {answer : FrameAnswer} (h : Runs fetchFrame d tr d' answer) :
    KeepsCache d d' := by
  simp only [fetchFrame, runs_get_bind] at h
  obtain ⟨t₁, d₁, cache, t₂, -, h₁, h₂⟩ := runs_bind.mp h
  obtain ⟨rfl, -⟩ := growTo_spec h₁
  simp only [runs_modify_bind, runs_camera_bind, CMvCamera.getOneFrameTimeout, runs_call_bind,
    runs_pure] at h₂
  obtain ⟨c, -, a, t₃, -, -, rfl, rfl⟩ := h₂
  exact ⟨fun hv => (growTo_grown hv h₁).1.write _, rfl, fun hv => (growTo_grown hv h₁).2.1⟩

theorem takePicture_keepsCache {param : Option ImageParameter} {data_ data' : Buff}
    (h : Runs (takePicture param data_) d tr d' (r, data')) : KeepsCache d d' := by
  obtain ⟨-, c, t, -, hcases⟩ := takePicture_cases h
  rcases hcases with ⟨-, h', -⟩ | ⟨t₁, d₁, answer, t₂, -, -, h₁, hrest⟩
  · exact stopAndClose_keepsCache h'
  · refine (fetchFrame_keepsCache h₁).trans ?_
    rcases hrest with ⟨-, h₂, -, -⟩ | ⟨-, h₂⟩
    · obtain ⟨-, h₂⟩ | ⟨-, -, rfl⟩ := closeOnNoData_cases h₂
      · exact stopAndClose_keepsCache h₂
      · exact keepsCache_of_eq rfl rfl
    · obtain ⟨rfl, -⟩ := toJpg_spec h₂
      exact keepsCache_of_eq rfl rfl

end CameraDevice

open CameraDevice

/-! ## The fetches of a device -/

/-- Pictures of one device, in turn. -/
def pictures : List (Option ImageParameter × Buff) → DeviceProc Unit
  | [] => pure ()
  | (param, data_) :: rest => do
    let _ ← takePicture param data_
    pictures rest

/-- A fetch is given a buffer for `payload` bytes, and is told its capacity. -/
structure Receives (payload : ℤ) (d : CameraDevice) (pData : Bool) (n : UInt32) : Prop where
  notNull : pData = true
  block : ∃ block, d.cache_data_.buff_ = some block ∧ block.size = n
  fits : payload ≤ n.toNat

section Fetches
variable {d d' d₁ : CameraDevice} {t tr : SdkTrace} {x : Option Handle} {pData : Bool}
  {n m : UInt32} {payload : ℤ}

/-- One fetch is right exactly when the grown cache is. -/
theorem receives_of_awaits {param : Option ImageParameter} {data_ : Buff}
    (hv : d.cache_data_.Valid) (hall : Allocates tr)
    (h : Awaits (takePicture param data_) d tr d₁ (.getOneFrame x pData n m)) :
    Receives payload d₁ pData n ↔ 0 < grownTo d.cache_data_ d.default_buff_size_ ∧
      payload ≤ grownTo d.cache_data_ d.default_buff_size_ := by
  obtain ⟨-, c, t, -, rfl, hfetch⟩ := takePicture_awaits h rfl
  rcases hfetch with hfetch | ⟨t₁, d₂, answer, t₂, rfl, h₁, -, h₂⟩
  · obtain ⟨cache, c', hgrow, rfl, -, hop⟩ := fetchFrame_awaits hfetch rfl
    cases hop
    obtain ⟨hv', -, hcap⟩ := growTo_grown hv hgrow
    have hsize : cache.getBuffSize.toUInt32 = cache.buff_max_size_ := by simp [Buff.getBuffSize]
    rw [hsize, ← hcap fun n hn => hall n (List.mem_cons_of_mem _ hn)]
    constructor
    · intro hr
      refine ⟨Nat.pos_of_ne_zero fun hzero => ?_, hr.fits⟩
      have hnone := hv'.null_iff.mpr (UInt32.toNat_inj.mp hzero)
      simpa [hnone] using hr.notNull
    · rintro ⟨hpos, hfits⟩
      have hs := hv'.sized
      rw [Buff.Sized] at hs
      cases hb : cache.buff_ with
      | none =>
          rw [hv'.null_iff.mp hb] at hpos
          exact absurd hpos (by decide)
      | some block =>
          simp only [hb] at hs
          exact ⟨rfl, ⟨block, hb, hs⟩, hfits⟩
  · rcases toJpg_asks _ _ _ _ h₂ with ⟨_, hop⟩ | ⟨_, _, hop⟩
    · cases hop
    · cases hop

/-- The fetches of a run of pictures all see the cache grown to the same capacity. -/
theorem receives_of_pictures {requests : List (Option ImageParameter × Buff)}
    (hv : d.cache_data_.Valid) (hall : Allocates tr)
    (h : Awaits (pictures requests) d tr d₁ (.getOneFrame x pData n m)) :
    Receives payload d₁ pData n ↔ 0 < grownTo d.cache_data_ d.default_buff_size_ ∧
      payload ≤ grownTo d.cache_data_ d.default_buff_size_ := by
  induction requests generalizing d tr with
  | nil => exact absurd h awaits_pure
  | cons request requests ih =>
      obtain ⟨param, data_⟩ := request
      rcases awaits_bind.mp h with h | ⟨t₁, d₂, ⟨r, data'⟩, t₂, rfl, h₁, h₂⟩
      · exact receives_of_awaits hv hall h
      · have hkeeps := takePicture_keepsCache h₁
        have hrest := ih (hkeeps.valid hv) (fun n hn => hall n (List.mem_append_right _ hn)) h₂
        rw [hkeeps.size, hkeeps.grown hv] at hrest
        exact hrest

/-- Growing can be done. -/
theorem exists_growTo (size : UInt32) (b : Buff) (d : CameraDevice) :
    ∃ t b', Allocates t ∧ Runs (growTo size b) d t d b' := by
  rw [growTo]
  split
  · rename_i hsize
    have hne : size ≠ 0 := by
      rintro rfl
      exact absurd hsize (by decide)
    simp only [Buff.ensureSize, Buff.ensureSizeCopy, hne, if_false]
    split
    · refine ⟨[], b, allocates_nil, ?_⟩
      exact runs_bind.mpr ⟨[], d, (.ok, b), [], rfl, runs_pure.mpr ⟨rfl, rfl, rfl⟩,
        runs_pure.mpr ⟨rfl, rfl, rfl⟩⟩
    · refine ⟨[⟨.malloc size, some fun _ => 0⟩], ⟨some ⟨size, fun _ => 0⟩, size, 0⟩, ?_, ?_⟩
      · intro n hn
        rw [List.mem_singleton] at hn
        cases hn
      · simp [Buff.copyData, Buff.freeBuff]
  · exact ⟨[], b, allocates_nil, runs_pure.mpr ⟨rfl, rfl, rfl⟩⟩

/-- A running device fetches a frame. -/
theorem exists_fetch (hd : d.Running) : ∃ tr d₁ x pData n m, Allocates tr ∧
    Awaits (takePicture none .empty) d tr d₁ (.getOneFrame x pData n m) := by
  obtain ⟨c, hc⟩ := Option.ne_none_iff_exists'.mp hd.camera
  obtain ⟨t, cache, hall, hgrow⟩ := exists_growTo d.default_buff_size_ d.cache_data_ d
  refine ⟨⟨.isDeviceConnected c.m_hDevHandle, true⟩ :: t, { d with cache_data_ := cache },
    c.m_hDevHandle, cache.buff_.isSome, cache.getBuffSize.toUInt32, waitTimeout, ?_, ?_⟩
  · intro n hn
    rcases List.mem_cons.mp hn with hn | hn
    · cases hn
    · exact hall n hn
  · simp only [takePicture, awaits_get_bind, awaits_require_bind, awaits_camera_bind,
      CMvCamera.isDeviceConnected, awaits_call_bind]
    refine ⟨hd.camera, hd.camera_open, hd.grapping, c, hc, Or.inr ⟨true, t, rfl, ?_⟩⟩
    simp only [not_true_eq_false, if_false]
    refine awaits_bind.mpr (Or.inl ?_)
    simp only [fetchFrame, awaits_get_bind]
    refine awaits_bind.mpr (Or.inr ⟨t, d, cache, [], by simp, hgrow, ?_⟩)
    simp only [awaits_modify_bind, awaits_camera_bind, CMvCamera.getOneFrameTimeout,
      awaits_call_bind]
    exact ⟨c, hc, Or.inl ⟨trivial, trivial, rfl⟩⟩

/-- A device keeps a valid cache. -/
theorem usage_valid {calls : List DeviceCall} (hv : d.cache_data_.Valid)
    (h : Runs (usage calls) d tr d' ()) : d'.cache_data_.Valid := by
  induction calls generalizing d tr with
  | nil =>
      obtain ⟨-, rfl, -⟩ := runs_pure.mp h
      exact hv
  | cons call calls ih =>
      obtain ⟨t₁, d₂, u, t₂, -, h₁, h₂⟩ := runs_bind.mp h
      refine ih ?_ h₂
      cases call with
      | start info =>
          obtain ⟨t₃, d₃, r, t₄, -, h₃, h₄⟩ := runs_bind.mp h₁
          obtain ⟨-, rfl, -⟩ := runs_pure.mp h₄
          rw [start_cache h₃]
          exact hv
      | isShutdown =>
          obtain ⟨-, rfl, -⟩ := runs_pure.mp h₁
          exact hv
      | stopAndClose => exact (stopAndClose_keepsCache h₁).valid hv
      | takePicture param data_ =>
          obtain ⟨t₃, d₃, ⟨r, data'⟩, t₄, -, h₃, h₄⟩ := runs_bind.mp h₁
          obtain ⟨-, rfl, -⟩ := runs_pure.mp h₄
          exact (takePicture_keepsCache h₃).valid hv

/-- The capacity that the cache of `d` can be grown to after the answers of a start. -/
def capacity (d : CameraDevice) (tr : SdkTrace) : ℕ :=
  grownTo d.cache_data_ (told d.default_buff_size_ tr)

/-- **Frames are fetched into a buffer of their size exactly when a size was told.**
Take a device that went through any calls, a start of it that returned `0`, and a camera
with the payload size `payload`.  As long as `malloc` succeeds, all fetches of all later
pictures are given a buffer for the payload exactly when the cache as it was, grown to the
size that the answers of the start have told, is not `NULL` and holds the payload. -/
theorem receives_iff_capacity {calls : List DeviceCall} {info : Option DeviceInfo}
    (ht : Runs (usage calls) .new t d ()) (h : Runs (CameraDevice.start info) d tr d' .ok)
    (payload : ℤ) :
    (∀ requests tr₂ d₁ x pData n m, Allocates tr₂ →
      Awaits (pictures requests) d' tr₂ d₁ (.getOneFrame x pData n m) →
        Receives payload d₁ pData n) ↔
      0 < capacity d tr ∧ payload ≤ capacity d tr := by
  obtain ⟨hd, -⟩ := usage_coherent (Or.inl closed_new) ht
  have hv : d'.cache_data_.Valid := by
    rw [start_cache h]
    exact usage_valid Buff.valid_empty ht
  have hcap : capacity d tr = grownTo d'.cache_data_ d'.default_buff_size_ := by
    rw [capacity, start_cache h, start_told h]
  rw [hcap]
  constructor
  · intro hall
    have hrun : d'.Running := by
      rcases start_spec hd h with ⟨-, hrun⟩ | ⟨hbad, -⟩
      · exact hrun
      · exact absurd rfl hbad
    obtain ⟨tr₂, d₁, x, pData, n, m, hmalloc, hfetch⟩ := exists_fetch hrun
    have hone : Awaits (pictures [(none, .empty)]) d' tr₂ d₁ (.getOneFrame x pData n m) :=
      awaits_bind.mpr (Or.inl hfetch)
    exact (receives_of_awaits hv hmalloc hfetch).mp (hall _ _ _ _ _ _ _ hmalloc hone)
  · intro hcond requests tr₂ d₁ x pData n m hmalloc hfetch
    exact (receives_of_pictures hv hmalloc hfetch).mpr hcond

end Fetches

theorem receives_iff_capacity_snapping : ∃ tr d',
    Runs (CameraDevice.start (some (.other 0))) .new tr d' .ok ∧
    ((∀ requests tr₂ d₁ x pData n m, Allocates tr₂ →
      Awaits (pictures requests) d' tr₂ d₁ (.getOneFrame x pData n m) →
        Receives 12 d₁ pData n) ↔
      0 < capacity .new tr ∧ (12 : ℤ) ≤ capacity .new tr) := by
  have hnew : Runs (usage []) .new [] .new () := runs_pure.mpr ⟨rfl, rfl, rfl⟩
  have hrun : Runs (CameraDevice.start (some (.other 0))) .new _ _ .ok :=
    runs_of_exec (o := snapping smallFrame) rfl
  exact ⟨_, _, hrun, receives_iff_capacity hnew hrun 12⟩

/-- The camera does not tell its payload size. -/
def secretive : Oracle sdk := fun n op =>
  match op with
  | .getIntValue _ _ => (.err (.other 1), 0)
  | op => obliging n op

/-- Started by a camera that has told nothing. -/
def toldNothing : CameraDevice :=
  { CameraDevice.new with camera_ := some ⟨some 1⟩, camera_open_ := true, grapping_ := true }

/-- The start of it: the query of the payload size fails. -/
def secretiveStart : SdkTrace :=
  [⟨.createHandle (.other 0), .created 1⟩, ⟨.openDevice (some 1), .ok⟩,
    ⟨.setEnumValue (some 1) "TriggerMode" .triggerModeOff, .ok⟩,
    ⟨.setEnumValue (some 1) "PixelFormat" .bgr8Packed, .ok⟩,
    ⟨.getIntValue (some 1) "PayloadSize", (.err (.other 1), 0)⟩,
    ⟨.startGrabbing (some 1), .ok⟩]

/-- A frame is fetched into `NULL`. -/
theorem not_receives : ¬ ∀ (calls : List DeviceCall) (info : Option DeviceInfo) (t tr : SdkTrace)
    (d d' : CameraDevice) (payload : ℤ), Runs (usage calls) .new t d () →
      Runs (CameraDevice.start info) d tr d' .ok → (∀ e ∈ tr, ∀ n, tells e = some n → n = payload) →
      ∀ requests tr₂ d₁ x pData n m, Allocates tr₂ →
        Awaits (pictures requests) d' tr₂ d₁ (.getOneFrame x pData n m) →
          Receives payload d₁ pData n := by
  intro hall
  have hnew : Runs (usage []) .new [] .new () := runs_pure.mpr ⟨rfl, rfl, rfl⟩
  have hstart : Runs (CameraDevice.start (some (.other 0))) .new secretiveStart toldNothing .ok :=
    runs_of_exec (o := secretive) rfl
  have hrunning : toldNothing.Running := ⟨by simp [toldNothing], rfl, rfl⟩
  have hquiet : ∀ e ∈ secretiveStart, ∀ n, tells e = some n → n = 12 := by
    simp [secretiveStart, tells]
  obtain ⟨tr₂, d₁, x, pData, n, m, hmalloc, hfetch⟩ := exists_fetch hrunning
  have hone : Awaits (pictures [(none, .empty)]) toldNothing tr₂ d₁ (.getOneFrame x pData n m) :=
    awaits_bind.mpr (Or.inl hfetch)
  have hreceives := hall _ _ _ _ _ _ 12 hnew hstart hquiet _ _ _ _ _ _ _ hmalloc hone
  have hcapacity := (receives_of_awaits Buff.valid_empty hmalloc hfetch).mp hreceives
  exact absurd hcapacity.1 (by decide)

end CameraService
