import CameraService.DeviceStates
import CameraService.GrpcServer

/-!
# From the frame to the response

A frame is fetched into the cache of its device, encoded into the buffer of the
request, and sent from there.  Only a successful encoding sets the length of the
data, so that a failed request sends nothing.

## Main definitions

* `Capture` — the two calls that make a picture.
* `CameraDevice.takePicture_capture` — a picture that succeeds is one such capture.
* `setContent_blank`, `setContent_write` — what is sent.
-/

namespace CameraService

open Interaction

/-! ## What is sent -/

/-- A buffer without data is sent as an empty content. -/
theorem setContent_blank {data : Buff} (h : data.data_size_t_ = 0) : setContent data = some [] := by
  have hlen : data.getDataLen = 0 := by simp [Buff.getDataLen, h]
  simp only [setContent, hlen]
  cases data.buff_ with
  | none => rfl
  | some block => rfl

theorem imageReply_blank {ret : Ret} {data : Buff} (h : data.data_size_t_ = 0) :
    imageReply ret data = ⟨ret, .ok, []⟩ := by
  rw [imageReply, setContent_blank h]

@[simp] theorem imageReply_ret {ret : Ret} {data : Buff} : (imageReply ret data).ret = ret := by
  rw [imageReply]
  split <;> rfl

/-- A length below `2 ^ 31` survives the conversion to `int`. -/
theorem toInt_toInt32 {n : UInt32} (h : n.toNat < 2 ^ 31) : n.toInt32.toInt = n.toNat := by
  have hlt : 2 * n.toBitVec.toNat < 2 ^ 32 := by
    change 2 * n.toNat < 2 ^ 32
    omega
  change n.toBitVec.toInt = n.toNat
  rw [BitVec.toInt_eq_toNat_of_lt hlt]
  rfl

/-- What was stored in a buffer is what is sent from it. -/
theorem setContent_write {b : Buff} {image : Bytes} {n : UInt32} (hs : b.Sized)
    (hlen : image.length = n.toNat) (hn : n.toNat < 2 ^ 31) (hlt : n < b.buff_max_size_) :
    setContent { b.write image with data_size_t_ := n } = some image := by
  have hint := toInt_toInt32 hn
  have hpos : ¬ n.toInt32 < 0 := by
    rw [Int32.lt_iff_toInt_lt, hint]
    simp
  have hlt' : n.toNat < b.buff_max_size_.toNat := UInt32.lt_iff_toNat_lt.mp hlt
  rw [Buff.Sized] at hs
  cases hb : b.buff_ with
  | none =>
      simp only [hb] at hs
      simp [hs] at hlt'
  | some block =>
      simp only [hb] at hs
      simp only [setContent, Buff.getDataLen, hpos, if_false, Buff.write, hb, Option.map_some,
        Option.getD_some, hint, Int.toNat_natCast, ← hlen]
      rw [Block.read_write (by rw [hs]; omega)]

/-! ## Captures -/

/-- The two calls that make a picture, with their answers. -/
structure Capture where
  handle : Option Handle
  pData : Bool
  nDataSize : UInt32
  nMsec : UInt32
  frame : FrameAnswer
  param : SaveParam
  saved : SaveAnswer

/-- The calls of a capture. -/
def Capture.events (c : Capture) : SdkTrace :=
  [⟨.getOneFrame c.handle c.pData c.nDataSize c.nMsec, c.frame⟩,
    ⟨.saveImage c.handle c.param, c.saved⟩]

/-- A fetch of a frame, or an encoding. -/
def Call.captures : Call → Bool
  | .getOneFrame _ _ _ _ | .saveImage _ _ => true
  | _ => false

/-- The fetches and encodings of a trace. -/
def captured (tr : SdkTrace) : SdkTrace := tr.filter fun e => e.op.captures

/-- The capture succeeded, and encoded the frame that it fetched: the encoder was given
the frame's data from the buffer that the frame was fetched into. -/
structure Capture.Own (c : Capture) : Prop where
  fetched : c.frame.ret = .ok
  encoded : c.saved.ret = .ok
  length : c.param.nDataLen = c.frame.info.nFrameLen
  /-- This supposes that the SDK stored the frame it announced, inside the buffer. -/
  data : c.frame.info.nFrameLen.toNat ≤ c.frame.bytes.length →
    c.frame.bytes.length ≤ c.nDataSize.toNat →
    c.param.pData.getD [] = c.frame.bytes.take c.frame.info.nFrameLen.toNat

/-- What the SDK promises of an encoding: it reports the number of bytes it stored, and
that number is an `int`. -/
def Capture.Promised (c : Capture) : Prop :=
  c.saved.image.length = c.saved.nImageLen.toNat ∧ c.saved.nImageLen.toNat < 2 ^ 31

theorem captured_cons {e : SdkEvent} {t : SdkTrace} :
    captured (e :: t) = if e.op.captures then e :: captured t else captured t := List.filter_cons

@[simp] theorem captured_append {t₁ t₂ : SdkTrace} :
    captured (t₁ ++ t₂) = captured t₁ ++ captured t₂ := List.filter_append ..

theorem captured_eq_nil {t : SdkTrace} (h : ∀ e ∈ t, e.op.captures = false) : captured t = [] := by
  rw [captured, List.filter_eq_nil_iff]
  intro e he
  simp [h e he]

theorem captured_of_malloc {t : SdkTrace} (h : ∀ e ∈ t, ∃ n a, e = ⟨.malloc n, a⟩) :
    captured t = [] := by
  refine captured_eq_nil fun e he => ?_
  obtain ⟨n, a, rfl⟩ := h e he
  rfl

/-- A program that asks for no capture makes none. -/
theorem captured_of_asks {σ α : Type} {p : Proc sdk σ α} {s s' : σ} {t : SdkTrace} {x : α}
    (hp : Asks (I := sdk) (fun op : Call => op.captures = false) p) (h : Runs p s t s' x) :
    captured t = [] :=
  captured_eq_nil (hp.run h)

theorem captures_of_harmless (op : Call) (h : CameraDevice.Harmless op) : op.captures = false := by
  cases op with
  | getOneFrame => exact h.elim
  | saveImage => exact h.elim
  | _ => rfl

/-- The frame that the encoder sees. -/
theorem read_write_cache {cache : Buff} {bytes : Bytes} {n : ℕ} (hs : cache.Sized)
    (hn : n ≤ bytes.length) (hfit : bytes.length ≤ cache.buff_max_size_.toNat) :
    ((cache.write bytes).buff_.map (·.read n)).getD [] = bytes.take n := by
  rw [Buff.Sized] at hs
  cases hb : cache.buff_ with
  | none =>
      simp only [hb] at hs
      simp only [hs, UInt32.toNat_zero, Nat.le_zero_eq] at hfit
      simp [Buff.write, hb, List.length_eq_zero_iff.mp hfit]
  | some block =>
      simp only [hb] at hs
      simp only [Buff.write, hb, Option.map_some, Option.getD_some]
      apply List.ext_getElem
      · simp [hn]
      · intro i hi hi'
        simp only [Block.length_read] at hi
        have hlt : i < block.size.toNat := by
          rw [hs]
          omega
        simp [Block.read, Block.write, hlt, show i < bytes.length by omega]

namespace CameraDevice

variable {d d' : CameraDevice} {tr : SdkTrace} {r : Ret} {data_ data' : Buff}
  {param : Option ImageParameter}

/-- The cache keeps its capacity. -/
theorem takePicture_sized (hs : d.cache_data_.Sized)
    (h : Runs (takePicture param data_) d tr d' (r, data')) : d'.cache_data_.Sized := by
  obtain ⟨-, c, t, -, hcases⟩ := takePicture_cases h
  rcases hcases with ⟨-, h', -, -⟩ | ⟨t₁, d₁, answer, t₂, -, -, h₁, hrest⟩
  · rw [(stopAndClose_spec h').1]
    exact hs
  · obtain ⟨cache, c₁, t₃, -, hg, rfl, -⟩ := fetchFrame_spec h₁
    have hcache : (cache.write answer.bytes).Sized := (hg.sized hs).write _
    rcases hrest with ⟨-, h₂, -, -⟩ | ⟨-, h₂⟩
    · obtain ⟨-, h₂⟩ | ⟨-, -, rfl⟩ := closeOnNoData_cases h₂
      · rw [(stopAndClose_spec h₂).1]
        exact hcache
      · exact hcache
    · rw [(toJpg_spec h₂).1]
      exact hcache

/-- A failed picture leaves no data in the buffer of the request. -/
theorem takePicture_blank (hb : data_.data_size_t_ = 0)
    (h : Runs (takePicture param data_) d tr d' (r, data')) (hr : r ≠ .ok) :
    data'.data_size_t_ = 0 := by
  obtain ⟨-, c, t, -, hcases⟩ := takePicture_cases h
  rcases hcases with ⟨-, -, -, rfl⟩ | ⟨t₁, d₁, answer, t₂, -, -, -, hrest⟩
  · exact hb
  · rcases hrest with ⟨-, -, -, rfl⟩ | ⟨-, h₂⟩
    · exact hb
    · obtain ⟨-, grown, c₂, t₄, saved, -, hgrown, -, -, -, hsaved⟩ := toJpg_spec h₂
      rcases hsaved with ⟨-, rfl⟩ | ⟨hok, -⟩
      · exact hgrown.blank hb
      · exact absurd hok hr

/-- **What a picture is made of.**  A successful `take_picture` has made one capture of
its own, and left the image in the buffer of the request. -/
theorem takePicture_capture (hs : d.cache_data_.Sized) (hd : data_.Sized)
    (h : Runs (takePicture param data_) d tr d' (.ok, data')) :
    ∃ c : Capture, captured tr = c.events ∧ c.Own ∧
      (c.Promised → setContent data' = some c.saved.image) := by
  obtain ⟨-, c, t, hcam, hcases⟩ := takePicture_cases h
  rcases hcases with ⟨-, -, hbad, -⟩ | ⟨t₁, d₁, answer, t₂, rfl, rfl, h₁, hrest⟩
  · cases hbad
  · obtain ⟨cache, c₁, t₃, hcam₁, hg, rfl, hm, rfl⟩ := fetchFrame_spec h₁
    rcases hrest with ⟨hbad, -, hok, -⟩ | ⟨hret, h₂⟩
    · exact absurd hok.symm hbad
    · obtain ⟨-, grown, c₂, t₄, saved, hcam₂, hgrown, hm', rfl, hok, hsaved⟩ := toJpg_spec h₂
      rcases hsaved with ⟨hbad, -⟩ | ⟨-, hlt, rfl⟩
      · exact absurd rfl hbad
      · -- the capture of this call, on the one camera of the device
        obtain rfl : c₁ = c₂ := Option.some.inj (hcam₁.symm.trans hcam₂)
        refine ⟨⟨c₁.m_hDevHandle, cache.buff_.isSome, cache.getBuffSize.toUInt32,
          waitTimeout, answer, saveParam (cache.write answer.bytes) answer.info param grown, saved⟩,
          ?_, ⟨hret, hok.symm, rfl, ?_⟩, ?_⟩
        · simp only [captured_cons, captured_append, captured_of_malloc hm, captured_of_malloc hm']
          rfl
        · intro hlen hfit
          have hsize : cache.getBuffSize.toUInt32 = cache.buff_max_size_ := by
            simp [Buff.getBuffSize]
          exact read_write_cache (hg.sized hs) hlen (hsize ▸ hfit)
        · intro hprom
          exact setContent_write (hgrown.sized hd) hprom.1 hprom.2 hlt

end CameraDevice

end CameraService
