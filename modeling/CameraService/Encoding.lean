import CameraService.Pictures
import CameraService.ProviderSpec

/-!
# What the encoder is asked for

A picture is fetched as the camera delivers it, and encoded from the buffer it lies
in.  What `MV_CC_SaveImageEx3` is given decides what the client gets: the dimensions
limit the picture, the buffer bounds it, and the rows are read one after the other.

## Main definitions

* `CameraDevice.takePicture_awaits`, `CameraDevice.toJpg_awaits` — where the fetch and
  the encoding are called.
* `Honours` — the dimensions are those that the request asks for.
* `pixelAt`, `IsCrop` — the picture that the encoder sees.
* `honours_iff_fits`, `isCrop_iff_uncut`, `encoded_iff_lt` — when the calls are right.
-/

namespace CameraService

open Interaction Provider

/-! ## The calls of a picture -/

namespace Buff

/-- Growing stands at allocations only. -/
theorem ensureSize_asks {σ : Type} {b : Buff} {n : UInt32} :
    Asks (I := sdk) (fun op : Call => ∃ m, op = .malloc m) (b.ensureSize n : Proc sdk σ _) := by
  unfold ensureSize ensureSizeCopy
  split
  · exact asks_pure
  · split
    · exact asks_pure
    refine (asks_call ⟨n, rfl⟩).bind fun m => ?_
    cases m with
    | none => exact asks_pure
    | some bytes =>
        simp only [copyData, Bool.true_eq_false, and_false, if_false, pure_bind]
        exact asks_pure

end Buff

namespace CameraDevice

variable {d d' : CameraDevice} {tr : SdkTrace} {r : Ret} {data_ : Buff}
  {param : Option ImageParameter} {frame : FrameInfo} {op : Call} {p : SaveParam}
  {x : Option Handle}

theorem growTo_asks {size : UInt32} {b : Buff} :
    Asks (I := sdk) (fun op : Call => ∃ m, op = .malloc m) (growTo size b) := by
  rw [growTo]
  split
  · exact Buff.ensureSize_asks.bind fun _ => asks_pure
  · exact asks_pure

/-- Growing captures nothing. -/
theorem not_captures_of_growTo {size : UInt32} {b : Buff} (h : Awaits (growTo size b) d tr d' op) :
    op.captures = false := by
  obtain ⟨m, rfl⟩ := growTo_asks _ _ _ _ h
  rfl

/-- **Where the encoder is called**: on the frame in the cache, for the buffer of the
caller. -/
theorem toJpg_awaits (h : Awaits (toJpg frame param data_) d tr d' (.saveImage x p)) :
    d' = d ∧ ∃ grown c, Runs (growTo d.default_buff_size_ data_) d tr d grown ∧
      d.camera_ = some c ∧ x = c.m_hDevHandle ∧ p = saveParam d.cache_data_ frame param grown := by
  simp only [toJpg, awaits_get_bind] at h
  rcases awaits_bind.mp h with h | ⟨t₁, d₁, grown, t₂, rfl, h₁, h₂⟩
  · cases not_captures_of_growTo h
  · obtain ⟨rfl, -⟩ := growTo_spec h₁
    simp only [awaits_camera_bind, CMvCamera.saveImage, awaits_call_bind] at h₂
    obtain ⟨c, hc, ⟨rfl, rfl, he⟩ | ⟨answer, t₃, -, h₂⟩⟩ := h₂
    · cases he
      exact ⟨rfl, grown, c, by simpa using h₁, hc, rfl, rfl⟩
    · split at h₂
      · simp only [Buff.setDataSize, bind_assoc, awaits_require_bind, pure_bind, awaits_pure,
          and_false] at h₂
      · exact absurd h₂ awaits_pure

/-- Besides allocations an encoding asks for the encoder only. -/
theorem toJpg_asks : Asks (I := sdk) (fun op : Call => (∃ m, op = .malloc m) ∨
    ∃ x p, op = .saveImage x p) (toJpg frame param data_) := by
  refine asks_get.bind fun d => (growTo_asks.imp fun _ => Or.inl).bind fun grown => ?_
  refine camera_asks.bind fun c => (asks_call (Or.inr ⟨_, _, rfl⟩)).bind fun answer => ?_
  split
  · refine Asks.bind ?_ fun _ => asks_pure
    unfold Buff.setDataSize Proc.require
    split
    · exact asks_pure
    · exact asks_fault.bind fun _ => asks_pure
  · exact asks_pure

/-- **Where a frame is fetched**: into the cache, grown to the payload size. -/
theorem fetchFrame_awaits (h : Awaits fetchFrame d tr d' op) (hop : op.captures = true) :
    ∃ cache c, Runs (growTo d.default_buff_size_ d.cache_data_) d tr d cache ∧
      d' = { d with cache_data_ := cache } ∧ d.camera_ = some c ∧
      op = .getOneFrame c.m_hDevHandle cache.buff_.isSome cache.getBuffSize.toUInt32
        waitTimeout := by
  simp only [fetchFrame, awaits_get_bind] at h
  rcases awaits_bind.mp h with h | ⟨t₁, d₁, cache, t₂, rfl, h₁, h₂⟩
  · simp [not_captures_of_growTo h] at hop
  · obtain ⟨rfl, -⟩ := growTo_spec h₁
    simp only [awaits_modify_bind, awaits_camera_bind, CMvCamera.getOneFrameTimeout,
      awaits_call_bind] at h₂
    obtain ⟨c, hc, ⟨rfl, rfl, rfl⟩ | ⟨answer, t₃, -, h₂⟩⟩ := h₂
    · exact ⟨cache, c, by simpa using h₁, rfl, hc, rfl⟩
    · simp at h₂

/-- **The captures of `take_picture`** are those of the fetch, and after a frame was
fetched those of the encoding. -/
theorem takePicture_awaits (h : Awaits (takePicture param data_) d tr d' op)
    (hop : op.captures = true) :
    d.Running ∧ ∃ c t, d.camera_ = some c ∧
      tr = ⟨.isDeviceConnected c.m_hDevHandle, true⟩ :: t ∧
      (Awaits fetchFrame d t d' op ∨
        ∃ t₁ d₁ answer t₂, t = t₁ ++ t₂ ∧ Runs fetchFrame d t₁ d₁ answer ∧ answer.ret = .ok ∧
          Awaits (toJpg answer.info param data_) d₁ t₂ d' op) := by
  have hclose : ∀ {d t}, ¬ Awaits stopAndClose d t d' op := by
    intro d t h
    have hharmless := captures_of_harmless _ (stopAndClose_harmless _ _ _ _ h)
    simp [hop] at hharmless
  simp only [takePicture, awaits_get_bind, awaits_require_bind, awaits_camera_bind,
    CMvCamera.isDeviceConnected, awaits_call_bind] at h
  obtain ⟨hc, ho, hg, c, hcam, ⟨-, -, rfl⟩ | ⟨connected, t, rfl, h⟩⟩ := h
  · cases hop
  · cases connected with
    | false =>
        simp only [Bool.false_eq_true, not_false_eq_true, if_true] at h
        rcases awaits_bind.mp h with h | ⟨_, _, _, _, -, -, h⟩
        · exact absurd h hclose
        · exact absurd h awaits_pure
    | true =>
        refine ⟨⟨hc, ho, hg⟩, c, t, hcam, rfl, ?_⟩
        simp only [not_true_eq_false, if_false] at h
        rcases awaits_bind.mp h with h | ⟨t₁, d₁, answer, t₂, rfl, h₁, h₂⟩
        · exact Or.inl h
        · split at h₂
          · rcases awaits_bind.mp h₂ with h₂ | ⟨_, _, _, _, -, -, h₂⟩
            · rw [closeOnNoData] at h₂
              split at h₂
              · exact absurd h₂ hclose
              · exact absurd h₂ awaits_pure
            · exact absurd h₂ awaits_pure
          · rename_i hret
            exact Or.inr ⟨t₁, d₁, answer, t₂, rfl, h₁, by simpa using hret, h₂⟩

end CameraDevice

namespace Provider

variable {P P' : Provider} {held : DevId → Bool} {sn : Bytes} {tr : SdkTrace} {op : Call}

theorem createDevice_asks {info : RecordPtr} :
    Asks (I := sdk) (fun op : Call => op.captures = false) (createDevice info) := by
  have hmake : Asks (I := sdk) (fun op : Call => op.captures = false) makeDevice :=
    asks_get.bind fun P => asks_modify.bind fun _ => asks_pure
  have hread : Asks (I := sdk) (fun op : Call => op.captures = false) (readRecord info) := by
    refine asks_get.bind fun P => ?_
    split
    · exact asks_call rfl
    · exact asks_pure
  have hstart : ∀ i, Asks (I := sdk) (fun op : Call => op.captures = false)
      (CameraDevice.start (some i)) := fun i =>
    CameraDevice.start_asks captures_of_harmless (fun _ _ => rfl) (fun _ => rfl) fun _ => rfl
  exact hmake.bind fun a => hread.bind fun i => (hstart i).zoom.bind fun _ => asks_pure

/-- Finding or opening a camera captures nothing. -/
theorem findOrCreateCameraDevice_asks :
    Asks (I := sdk) (fun op : Call => op.captures = false) (findOrCreateCameraDevice held sn) := by
  have hcreate : Asks (I := sdk) (fun op : Call => op.captures = false)
      (createCameraDevice held (toUpper sn)) := by
    refine Asks.bind (asks_get.bind fun P => asks_pure) fun known => ?_
    cases known with
    | none => exact asks_pure
    | some info =>
        refine createDevice_asks.bind fun made => ?_
        obtain ⟨ret, a⟩ := made
        dsimp only
        split
        · exact (release_harmless.imp captures_of_harmless).bind fun _ => asks_pure
        · exact (addCameraDevice_harmless.imp captures_of_harmless).bind fun _ => asks_pure
  refine (findCameraDeviceBySn_harmless.imp captures_of_harmless).bind fun found => ?_
  cases found with
  | some a => exact asks_pure
  | none => exact hcreate

/-- The captures of a request are those of its picture. -/
theorem takePicture_awaits {param : Option ImageParameter} {data : Buff}
    (h : Awaits (takePicture held sn param data) P tr P' op) (hop : op.captures = true) :
    ∃ (t₁ : SdkTrace) (P₁ : Provider) (a : DevId) (t₂ : SdkTrace) (d : CameraDevice),
      tr = t₁ ++ t₂ ∧ captured t₁ = [] ∧
      Awaits (CameraDevice.takePicture param data) (P₁.heap a) t₂ d op := by
  rcases awaits_bind.mp h with h | ⟨t₁, P₁, found, t₂, rfl, h₁, h₂⟩
  · simp [findOrCreateCameraDevice_asks _ _ _ _ h] at hop
  · cases found with
    | none => exact absurd h₂ awaits_pure
    | some a =>
        rcases awaits_bind.mp h₂ with h₂ | ⟨t₃, P₃, result, t₄, rfl, h₃, h₄⟩
        · obtain ⟨d, hd, -⟩ := awaits_zoom.mp h₂
          exact ⟨t₁, P₁, a, t₂, d, rfl, captured_of_asks findOrCreateCameraDevice_asks h₁, hd⟩
        · rcases awaits_bind.mp h₄ with h₄ | ⟨t₅, P₅, u, t₆, rfl, h₅, h₆⟩
          · simp [captures_of_harmless _ (release_harmless _ _ _ _ h₄)] at hop
          · exact absurd h₆ awaits_pure

end Provider

/-! ## The dimensions -/

/-- A side of `n` pixels, limited to what was asked for; zero or less asks for all. -/
def limited (want : Int32) (n : UInt32) : ℤ :=
  if 0 < want.toInt then min want.toInt n.toNat else n.toNat

/-- The encoder is given the dimensions that the request asks for. -/
structure Honours (shape : ImageShape) (frame : FrameInfo) (p : SaveParam) : Prop where
  width : (p.nWidth.toNat : ℤ) = limited shape.width frame.nWidth
  height : (p.nHeight.toNat : ℤ) = limited shape.height frame.nHeight

/-- The request asks for no less than the whole frame. -/
structure Fits (shape : ImageShape) (frame : FrameInfo) : Prop where
  width : shape.width.toInt ≤ 0 ∨ (frame.nWidth.toNat : ℤ) ≤ shape.width.toInt
  height : shape.height.toInt ≤ 0 ∨ (frame.nHeight.toNat : ℤ) ≤ shape.height.toInt

theorem eq_limited_iff {want : Int32} {n : UInt32} :
    (n.toNat : ℤ) = limited want n ↔ want.toInt ≤ 0 ∨ (n.toNat : ℤ) ≤ want.toInt := by
  rw [limited]
  split
  · omega
  · omega

/-- `GetImage` encodes the one frame that it has fetched. -/
theorem getImage_awaits_save {held : DevId → Bool} {sn : Bytes} {shape : ImageShape}
    {P P' : Provider} {tr : SdkTrace} {x : Option Handle} {p : SaveParam}
    (h : Awaits (getImage held sn shape) P tr P' (.saveImage x p)) :
    ∃ y pData n m answer, captured tr = [⟨.getOneFrame y pData n m, answer⟩] ∧
      p.nWidth = answer.info.nWidth ∧ p.nHeight = answer.info.nHeight := by
  simp only [getImage] at h
  rcases awaits_bind.mp h with h | ⟨t₁, P₁, ⟨ret, data⟩, t₂, rfl, h₁, h₂⟩
  · obtain ⟨m, hm⟩ := Buff.ensureSize_asks _ _ _ _ h
    cases hm
  · have ht₁ : captured t₁ = [] := captured_of_malloc (Buff.ensureSize_trace h₁)
    rcases awaits_bind.mp h₂ with h₂ | ⟨_, _, _, _, -, -, h₂⟩
    · obtain ⟨t₃, P₃, a, t₄, d, rfl, ht₃, h₃⟩ := Provider.takePicture_awaits h₂ rfl
      obtain ⟨-, c, t, -, rfl, h₄⟩ := CameraDevice.takePicture_awaits h₃ rfl
      rcases h₄ with h₄ | ⟨t₅, d₅, answer, t₆, rfl, h₅, -, h₆⟩
      · obtain ⟨_, _, -, -, -, hop⟩ := CameraDevice.fetchFrame_awaits h₄ rfl
        cases hop
      · obtain ⟨cache, c₅, t₇, -, -, -, hm, rfl⟩ := CameraDevice.fetchFrame_spec h₅
        obtain ⟨-, grown, c₆, h₇, -, -, rfl⟩ := CameraDevice.toJpg_awaits h₆
        have ht₆ : captured t₆ = [] := captured_of_malloc (CameraDevice.growTo_spec h₇).2.1
        refine ⟨c₅.m_hDevHandle, cache.buff_.isSome, cache.getBuffSize.toUInt32,
          CameraDevice.waitTimeout, answer, ?_, rfl, rfl⟩
        simp only [captured_append, captured_cons, ht₁, ht₃, ht₆, captured_of_malloc hm]
        rfl
    · exact absurd h₂ awaits_pure

/-- The encoder of `GetImage` is given the dimensions of the frame that was fetched. -/
theorem dimensions_of_awaits {held : DevId → Bool} {sn : Bytes} {shape : ImageShape}
    {P P' : Provider} {tr : SdkTrace} {x y : Option Handle} {p : SaveParam} {pData : Bool}
    {n m : UInt32} {answer : FrameAnswer}
    (h : Awaits (getImage held sn shape) P tr P' (.saveImage x p))
    (hframe : ⟨.getOneFrame y pData n m, answer⟩ ∈ tr) :
    p.nWidth = answer.info.nWidth ∧ p.nHeight = answer.info.nHeight := by
  obtain ⟨y', pData', n', m', answer', htr, hw, hh⟩ := getImage_awaits_save h
  have hmem : (⟨.getOneFrame y pData n m, answer⟩ : SdkEvent) ∈ captured tr :=
    List.mem_filter.mpr ⟨hframe, rfl⟩
  rw [htr, List.mem_singleton] at hmem
  cases hmem
  exact ⟨hw, hh⟩

/-- **The requested shape is honoured exactly when it limits nothing.**  Whatever the
service's state, the request and the answers of the SDK: for the frame that the camera
delivers for it, a call of the encoder has the dimensions that the request asks for
exactly when these are no less than those of the frame. -/
theorem honours_iff_fits {held : DevId → Bool} {sn : Bytes} {shape : ImageShape}
    {P P' : Provider} {tr : SdkTrace} {x y : Option Handle} {p : SaveParam} {pData : Bool}
    {n m : UInt32} {answer : FrameAnswer}
    (h : Awaits (getImage held sn shape) P tr P' (.saveImage x p))
    (hframe : ⟨.getOneFrame y pData n m, answer⟩ ∈ tr) :
    Honours shape answer.info p ↔ Fits shape answer.info := by
  obtain ⟨hw, hh⟩ := dimensions_of_awaits h hframe
  constructor
  · intro hon
    have hwidth := hon.width
    have hheight := hon.height
    rw [hw] at hwidth
    rw [hh] at hheight
    exact ⟨eq_limited_iff.mp hwidth, eq_limited_iff.mp hheight⟩
  · intro hfit
    refine ⟨?_, ?_⟩
    · rw [hw]
      exact eq_limited_iff.mpr hfit.width
    · rw [hh]
      exact eq_limited_iff.mpr hfit.height

/-- A frame of `2 × 2` pixels. -/
def smallFrame : FrameAnswer := ⟨.ok, ⟨2, 2, 12, 0⟩, [0, 1, 2, 3, 4, 5, 6, 7, 8, 9, 10, 11]⟩

/-- A service that knows the camera with serial number `A`. -/
def knowingA : Provider := { Provider.new with camera_info_list_ := ⟨0, [some (usbCamera [65])]⟩ }

/-- A request for a part of a frame of four pixels. -/
theorem awaits_smallFrame (shape : ImageShape) : ∃ tr P' x p,
    Awaits (getImage nobody [65] shape) knowingA tr P' (.saveImage x p) ∧
      ∃ y pData n m, ⟨.getOneFrame y pData n m, smallFrame⟩ ∈ tr := by
  have hrun : Runs (getImage nobody [65] shape) knowingA _ _ _ :=
    runs_of_exec (o := snapping smallFrame) rfl
  obtain ⟨P', h⟩ := hrun.awaits (i := 10) rfl
  refine ⟨_, P', _, _, h, ?_⟩
  exact ⟨_, _, _, _, List.mem_of_getElem? (i := 9) rfl⟩

/-- A request for all four pixels is honoured, and one for the upper left pixel is not. -/
theorem honours_iff_fits_smallFrame :
    (∃ tr P' x p, Awaits (getImage nobody [65] ⟨2, 2, 3⟩) knowingA tr P' (.saveImage x p) ∧
      (∃ y pData n m, ⟨.getOneFrame y pData n m, smallFrame⟩ ∈ tr) ∧
        Honours ⟨2, 2, 3⟩ smallFrame.info p) ∧
      ∃ tr P' x p, Awaits (getImage nobody [65] ⟨1, 1, 3⟩) knowingA tr P' (.saveImage x p) ∧
        (∃ y pData n m, ⟨.getOneFrame y pData n m, smallFrame⟩ ∈ tr) ∧
          ¬ Honours ⟨1, 1, 3⟩ smallFrame.info p := by
  constructor
  · obtain ⟨tr, P', x, p, h, y, pData, n, m, hframe⟩ := awaits_smallFrame ⟨2, 2, 3⟩
    refine ⟨tr, P', x, p, h, ⟨y, pData, n, m, hframe⟩, (honours_iff_fits h hframe).mpr ?_⟩
    exact ⟨Or.inr (by decide), Or.inr (by decide)⟩
  · obtain ⟨tr, P', x, p, h, y, pData, n, m, hframe⟩ := awaits_smallFrame ⟨1, 1, 3⟩
    refine ⟨tr, P', x, p, h, ⟨y, pData, n, m, hframe⟩, fun hon => ?_⟩
    exact absurd ((honours_iff_fits h hframe).mp hon).width (by decide)

/-- The picture has all four pixels. -/
theorem not_honours : ¬ ∀ (held : DevId → Bool) (sn : Bytes) (shape : ImageShape) (P P' : Provider)
    (tr : SdkTrace) (x y : Option Handle) (p : SaveParam) (pData : Bool) (n m : UInt32)
    (answer : FrameAnswer), Awaits (getImage held sn shape) P tr P' (.saveImage x p) →
      ⟨.getOneFrame y pData n m, answer⟩ ∈ tr → Honours shape answer.info p := by
  intro hall
  obtain ⟨tr, P', x, p, h, y, pData, n, m, hframe⟩ := awaits_smallFrame ⟨1, 1, 3⟩
  have hwidth := (hall _ _ _ _ _ _ _ _ _ _ _ _ _ h hframe).width
  rw [(dimensions_of_awaits h hframe).1] at hwidth
  exact absurd hwidth (by decide)

/-! ## The pixels -/

/-- The three bytes of the pixel at `(x, y)`, when the rows have `stride` pixels. -/
def pixelAt (data : Bytes) (stride x y : ℕ) : Bytes := (data.drop (3 * (y * stride + x))).take 3

/-- The picture that the encoder reads is the upper left part of the frame. -/
def IsCrop (frame : FrameInfo) (data : Bytes) (p : SaveParam) : Prop :=
  ∀ x y, x < p.nWidth.toNat → y < p.nHeight.toNat →
    pixelAt (p.pData.getD []) p.nWidth.toNat x y = pixelAt data frame.nWidth.toNat x y

/-- The frame consists of packed pixels of three bytes. -/
def FrameInfo.Packed (frame : FrameInfo) : Prop :=
  frame.nFrameLen.toNat = 3 * (frame.nHeight.toNat * frame.nWidth.toNat)

/-- The width is not limited, or the picture has one row at most. -/
def Uncut (frame : FrameInfo) (param : Option ImageParameter) : Prop :=
  ∀ q, param = some q →
    q.width = 0 ∨ frame.nWidth ≤ q.width ∨ frame.nHeight ≤ 1 ∨ q.height = 1

/-- The first row does not depend on the length of the rows. -/
theorem pixelAt_zero (data : Bytes) (stride stride' x : ℕ) :
    pixelAt data stride x 0 = pixelAt data stride' x 0 := by
  simp [pixelAt]

/-- The second row begins where the first one ends. -/
theorem pixelAt_row_one {block : Block} {n stride : ℕ} (h : 3 * stride + 3 ≤ n) :
    pixelAt (block.read n) stride 0 1 =
      [block.bytes (3 * stride), block.bytes (3 * stride + 1), block.bytes (3 * stride + 2)] := by
  apply List.ext_getElem?
  intro i
  rcases i with _ | _ | _ | i
  · simp [pixelAt, Block.read, show 3 * stride < n by omega]
  · simp [pixelAt, Block.read, show 3 * stride + 1 < n by omega]
  · simp [pixelAt, Block.read, show 3 * stride + 2 < n by omega]
  · simp [pixelAt]

theorem toNat_min (a b : UInt32) : (min a b).toNat = min a.toNat b.toNat := by
  change (if a ≤ b then a else b).toNat = _
  simp only [UInt32.le_iff_toNat_le]
  split
  · omega
  · omega

/-- A picture that is not cut has the rows of the frame, or one row at most. -/
theorem rows_of_uncut (buff data_ : Buff) {frame : FrameInfo} {param : Option ImageParameter}
    (h : Uncut frame param) :
    (CameraDevice.saveParam buff frame param data_).nWidth = frame.nWidth ∨
      (CameraDevice.saveParam buff frame param data_).nHeight.toNat ≤ 1 := by
  cases param with
  | none => exact Or.inl rfl
  | some q =>
      rcases h q rfl with hw | hw | hh | hh
      · exact Or.inl (by simp [CameraDevice.saveParam, hw])
      · refine Or.inl ?_
        have hmin : min frame.nWidth q.width = frame.nWidth := by
          apply UInt32.toNat_inj.mp
          rw [toNat_min, Nat.min_eq_left (UInt32.le_iff_toNat_le.mp hw)]
        simp [CameraDevice.saveParam, hmin]
      · refine Or.inr ?_
        have hheight : frame.nHeight.toNat ≤ 1 := UInt32.le_iff_toNat_le.mp hh
        simp only [CameraDevice.saveParam]
        split
        · rw [toNat_min]
          omega
        · exact hheight
      · refine Or.inr ?_
        simp only [CameraDevice.saveParam, hh, show (0 : UInt32) < 1 by decide, if_true, toNat_min]
        exact Nat.min_le_right _ _

/-- A picture that is cut is narrower than the frame, and has a second row. -/
theorem rows_of_not_uncut (buff data_ : Buff) {frame : FrameInfo} {param : Option ImageParameter}
    (h : ¬ Uncut frame param) :
    0 < (CameraDevice.saveParam buff frame param data_).nWidth.toNat ∧
      (CameraDevice.saveParam buff frame param data_).nWidth.toNat < frame.nWidth.toNat ∧
      1 < (CameraDevice.saveParam buff frame param data_).nHeight.toNat ∧
      1 < frame.nHeight.toNat := by
  simp only [Uncut, not_forall, not_or] at h
  obtain ⟨q, rfl, hw, hwidth, hheight, hh⟩ := h
  have hw' : q.width.toNat ≠ 0 := fun h0 => hw (UInt32.toNat_inj.mp h0)
  have hh' : q.height.toNat ≠ 1 := fun h1 => hh (UInt32.toNat_inj.mp h1)
  have hpos : 0 < q.width := by
    rw [UInt32.lt_iff_toNat_lt]
    exact Nat.pos_of_ne_zero hw'
  have hlt : q.width.toNat < frame.nWidth.toNat := by
    rw [UInt32.le_iff_toNat_le] at hwidth
    omega
  have hrows : 1 < frame.nHeight.toNat := by
    rw [UInt32.le_iff_toNat_le] at hheight
    exact Nat.lt_of_not_le hheight
  have hwd : (CameraDevice.saveParam buff frame (some q) data_).nWidth.toNat = q.width.toNat := by
    simp only [CameraDevice.saveParam, hpos, if_true, toNat_min]
    omega
  refine ⟨by omega, by omega, ?_, hrows⟩
  simp only [CameraDevice.saveParam]
  split
  · rename_i hq
    have hq' : 0 < q.height.toNat := UInt32.lt_iff_toNat_lt.mp hq
    rw [toNat_min]
    omega
  · exact hrows

/-- The encoder reads the cache. -/
theorem isCrop_of_uncut {buff data_ : Buff} {frame : FrameInfo} {param : Option ImageParameter}
    {block : Block} (hb : buff.buff_ = some block) (h : Uncut frame param) :
    IsCrop frame (block.read frame.nFrameLen.toNat)
      (CameraDevice.saveParam buff frame param data_) := by
  intro x y hx hy
  have hdata : (CameraDevice.saveParam buff frame param data_).pData.getD [] =
      block.read frame.nFrameLen.toNat := by
    simp [CameraDevice.saveParam, hb]
  rw [hdata]
  rcases rows_of_uncut buff data_ h with hw | hh
  · rw [hw]
  · obtain rfl : y = 0 := by omega
    exact pixelAt_zero ..

/-- A frame whose only byte that is not zero is the first one of its second row. -/
def secondRow (frame : FrameInfo) : Block :=
  ⟨frame.nFrameLen, fun i => if i = 3 * frame.nWidth.toNat then 1 else 0⟩

/-- The second row of a picture that is cut is read too early. -/
theorem not_isCrop_of_cut {buff data_ : Buff} {frame : FrameInfo} {param : Option ImageParameter}
    (hf : frame.Packed) (hb : buff.buff_ = some (secondRow frame)) (h : ¬ Uncut frame param) :
    ¬ IsCrop frame ((secondRow frame).read frame.nFrameLen.toNat)
      (CameraDevice.saveParam buff frame param data_) := by
  obtain ⟨hpos, hlt, hrow, hrows⟩ := rows_of_not_uncut buff data_ h
  intro hcrop
  have hpixel := hcrop 0 1 hpos hrow
  have hdata : (CameraDevice.saveParam buff frame param data_).pData.getD [] =
      (secondRow frame).read frame.nFrameLen.toNat := by
    simp [CameraDevice.saveParam, hb]
  have hlen : 3 * frame.nWidth.toNat + 3 ≤ frame.nFrameLen.toNat := by
    have htwo := Nat.mul_le_mul_right frame.nWidth.toNat hrows
    rw [FrameInfo.Packed] at hf
    omega
  rw [hdata, pixelAt_row_one (by omega), pixelAt_row_one hlen] at hpixel
  have hbyte := (List.cons.inj hpixel).1
  simp only [secondRow] at hbyte
  rw [if_neg (by omega), if_pos trivial] at hbyte
  exact absurd hbyte (by decide)

/-- A device that is running, with this frame in its cache. -/
def CameraDevice.holding (block : Block) : CameraDevice where
  camera_ := some ⟨some 0⟩
  camera_open_ := true
  grapping_ := true
  default_buff_size_ := 0
  cache_data_ := ⟨some block, block.size, 0⟩

/-- On such a device the encoder is called at once. -/
theorem awaits_holding (block : Block) (frame : FrameInfo) (param : Option ImageParameter)
    (data_ : Buff) :
    Awaits (CameraDevice.toJpg frame param data_) (.holding block) [] (.holding block)
      (.saveImage (some 0)
        (CameraDevice.saveParam ⟨some block, block.size, 0⟩ frame param data_)) := by
  simp [CameraDevice.toJpg, CameraDevice.growTo, CameraDevice.holding, CMvCamera.saveImage]

/-- **A limited picture is a crop exactly when no row is cut short.**  For a frame of
packed pixels and a request: the encoder reads the upper left part of the frame, whatever
the frame shows and whichever device it came from, exactly when the request does not limit
the width of a picture of several rows. -/
theorem isCrop_iff_uncut (frame : FrameInfo) (param : Option ImageParameter)
    (hf : frame.Packed) :
    (∀ (d d' : CameraDevice) (block : Block) (data_ : Buff) (tr : SdkTrace) (x : Option Handle)
      (p : SaveParam), d.cache_data_.buff_ = some block →
        Awaits (CameraDevice.toJpg frame param data_) d tr d' (.saveImage x p) →
          IsCrop frame (block.read frame.nFrameLen.toNat) p) ↔ Uncut frame param := by
  constructor
  · intro hall
    by_contra hcut
    exact not_isCrop_of_cut hf rfl hcut
      (hall (.holding (secondRow frame)) _ _ .empty [] _ _ rfl (awaits_holding ..))
  · intro h d d' block data_ tr x p hb ha
    obtain ⟨-, grown, c, -, -, -, rfl⟩ := CameraDevice.toJpg_awaits ha
    exact isCrop_of_uncut hb h

theorem isCrop_iff_uncut_smallFrame :
    (∀ (d d' : CameraDevice) (block : Block) (data_ : Buff) (tr : SdkTrace) (x : Option Handle)
      (p : SaveParam), d.cache_data_.buff_ = some block →
        Awaits (CameraDevice.toJpg smallFrame.info (some ⟨2, 1, 2, 90, 0⟩) data_) d tr d'
          (.saveImage x p) →
          IsCrop smallFrame.info (block.read smallFrame.info.nFrameLen.toNat) p) ↔
      Uncut smallFrame.info (some ⟨2, 1, 2, 90, 0⟩) :=
  isCrop_iff_uncut smallFrame.info (some ⟨2, 1, 2, 90, 0⟩) rfl

/-- The left half of a frame of four pixels shows the first row of the frame. -/
theorem not_isCrop : ¬ ∀ (frame : FrameInfo) (param : Option ImageParameter), frame.Packed →
    ∀ (d d' : CameraDevice) (block : Block) (data_ : Buff) (tr : SdkTrace) (x : Option Handle)
      (p : SaveParam), d.cache_data_.buff_ = some block →
        Awaits (CameraDevice.toJpg frame param data_) d tr d' (.saveImage x p) →
          IsCrop frame (block.read frame.nFrameLen.toNat) p := by
  intro hall
  have hcut : ¬ Uncut smallFrame.info (some ⟨2, 1, 2, 90, 0⟩) := by
    intro h
    exact absurd (h _ rfl) (by decide)
  have hpacked : smallFrame.info.Packed := rfl
  exact not_isCrop_of_cut hpacked rfl hcut
    (hall _ _ hpacked (.holding (secondRow smallFrame.info)) _ _ .empty [] _ _ rfl
      (awaits_holding ..))

/-! ## The encoded picture -/

section Encoded
variable {d d' : CameraDevice} {tr : SdkTrace} {frame : FrameInfo}
  {param : Option ImageParameter} {data_ : Buff} {x : Option Handle} {p : SaveParam}
  {a : SaveAnswer}

/-- An `int` shows the lengths below `2 ^ 31`. -/
theorem toInt_toInt32_iff {n : UInt32} : n.toInt32.toInt = n.toNat ↔ n.toNat < 2 ^ 31 := by
  constructor
  · intro h
    have hlt := n.toInt32.toInt_lt
    omega
  · exact toInt_toInt32

theorem nBufferSize_saveParam {buff : Buff} :
    (CameraDevice.saveParam buff frame param data_).nBufferSize = data_.buff_max_size_ := by
  simp [CameraDevice.saveParam, Buff.getBuffSize]

/-- An encoding that completes has left its length in the buffer. -/
theorem lt_of_toJpg {d₁ : CameraDevice} {r : Ret} {data' : Buff}
    (h : Runs (CameraDevice.toJpg frame param data_) d (tr ++ [⟨.saveImage x p, a⟩]) d₁ (r, data'))
    (hok : a.ret = .ok) : a.nImageLen < p.nBufferSize ∧ data'.data_size_t_ = a.nImageLen := by
  obtain ⟨-, grown, c, t₁, answer, -, -, -, htr, hr, hcases⟩ := CameraDevice.toJpg_spec h
  obtain ⟨-, he⟩ := List.append_inj' htr rfl
  cases List.singleton_inj.mp he
  rcases hcases with ⟨hbad, -⟩ | ⟨-, hlt, rfl⟩
  · exact absurd (hr.trans hok) hbad
  · rw [nBufferSize_saveParam]
    exact ⟨hlt, rfl⟩

/-- An answer that reports less than the size of the buffer completes the encoding. -/
theorem toJpg_completes
    (h : Awaits (CameraDevice.toJpg frame param data_) d tr d' (.saveImage x p))
    (hok : a.ret = .ok) (hlt : a.nImageLen < p.nBufferSize) :
    ∃ data', Runs (CameraDevice.toJpg frame param data_) d (tr ++ [⟨.saveImage x p, a⟩]) d'
      (.ok, data') ∧ data'.data_size_t_ = a.nImageLen := by
  obtain ⟨rfl, grown, c, hg, hc, rfl, rfl⟩ := CameraDevice.toJpg_awaits h
  rw [nBufferSize_saveParam] at hlt
  have hlt' : a.nImageLen < (grown.write a.image).buff_max_size_ := hlt
  refine ⟨{ grown.write a.image with data_size_t_ := a.nImageLen }, ?_, rfl⟩
  simp only [CameraDevice.toJpg, runs_get_bind, runs_bind (p := CameraDevice.growTo _ _)]
  refine ⟨tr, d', grown, _, rfl, hg, ?_⟩
  simp only [CameraDevice.runs_camera_bind, CMvCamera.saveImage, runs_call_bind]
  refine ⟨c, hc, a, [], rfl, ?_⟩
  simp only [hok, if_true, Buff.setDataSize, bind_assoc, runs_require_bind, pure_bind]
  exact ⟨hlt', runs_pure.mpr ⟨rfl, rfl, rfl⟩⟩

/-- Any other one fails the assertion. -/
theorem toJpg_overruns
    (h : Awaits (CameraDevice.toJpg frame param data_) d tr d' (.saveImage x p))
    (hok : a.ret = .ok) (hge : ¬ a.nImageLen < p.nBufferSize) :
    Faults (CameraDevice.toJpg frame param data_) d (tr ++ [⟨.saveImage x p, a⟩])
      .assertDataSize := by
  obtain ⟨rfl, grown, c, hg, hc, rfl, rfl⟩ := CameraDevice.toJpg_awaits h
  rw [nBufferSize_saveParam] at hge
  have hge' : ¬ a.nImageLen < (grown.write a.image).buff_max_size_ := hge
  simp only [CameraDevice.toJpg, faults_get_bind]
  refine faults_bind.mpr (Or.inr ⟨tr, d', grown, _, rfl, hg, ?_⟩)
  rw [CameraDevice.faults_camera_bind hc]
  simp only [CMvCamera.saveImage, faults_call_bind]
  refine ⟨a, [], rfl, ?_⟩
  simp only [hok, if_true, Buff.setDataSize, bind_assoc, faults_require_bind]
  exact Or.inl ⟨hge', trivial, trivial⟩

/-- Run with these answers the program stands at the encoder, and at last the encoder reports
a success and a length that is not below the size of the buffer. -/
def Overruns {σ α : Type} (q : Proc sdk σ α) (s : σ) (tr : SdkTrace) : Prop :=
  ∃ t s' x p a, tr = t ++ [⟨.saveImage x p, a⟩] ∧ Awaits q s t s' (.saveImage x p) ∧
    a.ret = .ok ∧ ¬ a.nImageLen < p.nBufferSize

/-- **An encoding fails** exactly when the length that is reported overruns the buffer. -/
theorem toJpg_faults_iff {c : CMvCamera} {f : Fault} (hc : d.camera_ = some c) :
    Faults (CameraDevice.toJpg frame param data_) d tr f ↔
      f = .assertDataSize ∧ Overruns (CameraDevice.toJpg frame param data_) d tr := by
  constructor
  · intro h
    refine ⟨CameraDevice.toJpg_faults hc h, ?_⟩
    simp only [CameraDevice.toJpg, faults_get_bind] at h
    rcases faults_bind.mp h with h₁ | ⟨t, d₁, grown, t₂, rfl, hg, h₂⟩
    · exact absurd h₁ CameraDevice.growTo_faults
    · obtain ⟨rfl, -⟩ := CameraDevice.growTo_spec hg
      rw [CameraDevice.faults_camera_bind hc] at h₂
      simp only [CMvCamera.saveImage, faults_call_bind] at h₂
      obtain ⟨answer, t', rfl, h₃⟩ := h₂
      split at h₃
      · rename_i hok
        simp only [Buff.setDataSize, bind_assoc, faults_require_bind, pure_bind, faults_pure,
          and_false, or_false] at h₃
        obtain ⟨hge, rfl, -⟩ := h₃
        refine ⟨t, d₁, c.m_hDevHandle, _, answer, rfl, ?_, hok, ?_⟩
        · simp only [CameraDevice.toJpg, awaits_get_bind]
          refine awaits_bind.mpr (Or.inr ⟨t, d₁, grown, [], by simp, hg, ?_⟩)
          simp [CameraDevice.awaits_camera_bind, CMvCamera.saveImage, hc]
        · rwa [nBufferSize_saveParam]
      · exact absurd h₃ faults_pure
  · intro h
    obtain ⟨rfl, t, d', x, p, a, rfl, hawait, hok, hge⟩ := h
    exact toJpg_overruns hawait hok hge

/-- After the fetch a picture stands where its encoding stands. -/
theorem awaits_of_fetched {c : CMvCamera} {d₁ : CameraDevice} {answer : FrameAnswer}
    {t₁ t₂ : SdkTrace} {op : Call} (hd : d.Running) (hc : d.camera_ = some c)
    (h₁ : Runs CameraDevice.fetchFrame d t₁ d₁ answer) (hret : answer.ret = .ok)
    (h₂ : Awaits (CameraDevice.toJpg answer.info param data_) d₁ t₂ d' op) :
    Awaits (CameraDevice.takePicture param data_) d
      (⟨.isDeviceConnected c.m_hDevHandle, true⟩ :: (t₁ ++ t₂)) d' op := by
  simp only [CameraDevice.takePicture, awaits_get_bind, awaits_require_bind,
    CameraDevice.awaits_camera_bind, CMvCamera.isDeviceConnected, awaits_call_bind]
  refine ⟨hd.camera, hd.camera_open, hd.grapping, c, hc, Or.inr ⟨true, t₁ ++ t₂, rfl, ?_⟩⟩
  rw [if_neg (by simp)]
  refine awaits_bind.mpr (Or.inr ⟨t₁, d₁, answer, t₂, rfl, h₁, ?_⟩)
  rwa [if_neg (by simp [hret])]

/-- **A picture of a running device fails** exactly when its encoding overruns the buffer. -/
theorem takePicture_faults_iff {f : Fault} (hd : d.Running) :
    Faults (CameraDevice.takePicture param data_) d tr f ↔
      f = .assertDataSize ∧ Overruns (CameraDevice.takePicture param data_) d tr := by
  obtain ⟨c, hc⟩ := Option.ne_none_iff_exists'.mp hd.camera
  rw [CameraDevice.takePicture_faults_cases hd hc]
  constructor
  · intro h
    obtain ⟨t₁, d₁, answer, t₂, rfl, h₁, hret, hc₁, h₂⟩ := h
    obtain ⟨rfl, t, d₂, x, p, a, rfl, hawait, hok, hge⟩ := (toJpg_faults_iff hc₁).mp h₂
    exact ⟨rfl, _ :: (t₁ ++ t), d₂, x, p, a, by simp, awaits_of_fetched hd hc h₁ hret hawait,
      hok, hge⟩
  · intro h
    obtain ⟨rfl, t, d', x, p, a, rfl, hawait, hok, hge⟩ := h
    obtain ⟨-, c', t', hc', rfl, h₁ | ⟨t₁, d₁, answer, t₂, rfl, h₁, hret, h₂⟩⟩ :=
      CameraDevice.takePicture_awaits hawait rfl
    · obtain ⟨_, _, -, -, -, hop⟩ := CameraDevice.fetchFrame_awaits h₁ rfl
      cases hop
    · cases hc.symm.trans hc'
      refine ⟨t₁, d₁, answer, _, by simp, h₁, hret, ?_, toJpg_overruns h₂ hok hge⟩
      obtain ⟨cache, -, -, -, -, rfl, -⟩ := CameraDevice.fetchFrame_spec h₁
      exact hc

/-- **An encoding completes exactly when the picture does not fill the buffer.**  At the
call of the encoder, whatever the device, the buffer and the request: a success that
reports `nImageLen` bytes completes `_to_jpg`, with that length in the buffer, exactly when
a byte of the buffer is left over and the length is an `int`. -/
theorem encoded_iff_lt
    (h : Awaits (CameraDevice.toJpg frame param data_) d tr d' (.saveImage x p))
    (hok : a.ret = .ok) :
    (∃ d₁ r data', Runs (CameraDevice.toJpg frame param data_) d
        (tr ++ [⟨.saveImage x p, a⟩]) d₁ (r, data') ∧
      data'.getDataLen.toInt = a.nImageLen.toNat) ↔
      a.nImageLen < p.nBufferSize ∧ a.nImageLen.toNat < 2 ^ 31 := by
  constructor
  · rintro ⟨d₁, r, data', hr, hlen⟩
    obtain ⟨hlt, hsize⟩ := lt_of_toJpg hr hok
    rw [Buff.getDataLen, hsize] at hlen
    exact ⟨hlt, toInt_toInt32_iff.mp hlen⟩
  · rintro ⟨hlt, hint⟩
    obtain ⟨data', hr, hsize⟩ := toJpg_completes h hok hlt
    refine ⟨d', .ok, data', hr, ?_⟩
    rw [Buff.getDataLen, hsize]
    exact toInt_toInt32_iff.mpr hint

end Encoded

/-- A buffer of three bytes. -/
def threeBytes : Buff := ⟨some ⟨3, fun _ => 0⟩, 3, 0⟩

theorem encoded_iff_lt_threeBytes : ∃ d d' tr x p,
    Awaits (CameraDevice.toJpg smallFrame.info none threeBytes) d tr d' (.saveImage x p) ∧
    ((∃ d₁ r data', Runs (CameraDevice.toJpg smallFrame.info none threeBytes) d
        (tr ++ [⟨.saveImage x p, ⟨.ok, 2, [7, 8]⟩⟩]) d₁ (r, data') ∧
      data'.getDataLen.toInt = (2 : UInt32).toNat) ↔
      2 < p.nBufferSize ∧ (2 : UInt32).toNat < 2 ^ 31) :=
  ⟨_, _, _, _, _, awaits_holding (secondRow smallFrame.info) ..,
    encoded_iff_lt (awaits_holding ..) rfl⟩

/-- A picture of three bytes fills the buffer, and the assertion fails. -/
theorem not_encoded : ¬ ∀ (d d' : CameraDevice) (tr : SdkTrace) (frame : FrameInfo)
    (param : Option ImageParameter) (data_ : Buff) (x : Option Handle) (p : SaveParam)
    (a : SaveAnswer), d.Running →
      Awaits (CameraDevice.toJpg frame param data_) d tr d' (.saveImage x p) → a.ret = .ok →
      a.nImageLen ≤ p.nBufferSize →
      ¬ Faults (CameraDevice.toJpg frame param data_) d (tr ++ [⟨.saveImage x p, a⟩])
          .assertDataSize ∧
        ∃ d₁ r data', Runs (CameraDevice.toJpg frame param data_) d
            (tr ++ [⟨.saveImage x p, a⟩]) d₁ (r, data') ∧
          data'.getDataLen.toInt = a.nImageLen.toNat := by
  intro hall
  have hawait := awaits_holding (secondRow smallFrame.info) smallFrame.info none threeBytes
  obtain ⟨hsafe, -⟩ := hall _ _ _ _ _ _ _ _ ⟨.ok, 3, [7, 8, 9]⟩
    ⟨by simp [CameraDevice.holding], rfl, rfl⟩ hawait rfl (by decide)
  exact hsafe (toJpg_overruns hawait rfl (by decide))

end CameraService
