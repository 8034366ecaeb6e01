import CameraService.Sdk

/-!
# The camera handle

`CMvCamera` of `MvCamera.cc`: the SDK handle of one camera.  A member function
takes the object and, where it changes `m_hDevHandle`, returns the new one.  The
member functions that the service does not use are left out.

## Main definitions

* `CMvCamera.open`, `CMvCamera.close`, `CMvCamera.delete` — the life of a handle.
* `CMvCamera.Opening` — the outcomes of `Open`.
-/

namespace CameraService

open Interaction

/-- `CMvCamera`; a handle of `none` is `MV_NULL`. -/
structure CMvCamera where
  m_hDevHandle : Option Handle
  deriving DecidableEq

namespace CMvCamera

variable {σ : Type}

/-- The constructor. -/
def new : CMvCamera := ⟨none⟩

/-- The destructor. -/
def delete (c : CMvCamera) : Proc sdk σ Unit :=
  match c.m_hDevHandle with
  | none => pure ()
  | some h => do
    let _ ← sdkCall (.destroyHandle (some h))
    pure ()

/-- `EnumDevices`. -/
def enumDevices (nTLayerType : List LayerType) : Proc sdk σ (Ret × DeviceList) :=
  sdkCall (.enumDevices nTLayerType)

/-- `Open`.  A handle whose device cannot be opened is destroyed at once. -/
def «open» (c : CMvCamera) (pstDeviceInfo : Option DeviceInfo) : Proc sdk σ (Ret × CMvCamera) :=
  match pstDeviceInfo with
  | none => pure (.err .parameter, c)
  | some info =>
    if c.m_hDevHandle.isSome then pure (.err .callOrder, c)
    else do
      match ← sdkCall (.createHandle info) with
      | .refused e left => pure (.err e, ⟨left⟩)
      | .created h => do
        let nRet ← sdkCall (.openDevice (some h))
        if nRet ≠ .ok then do
          let _ ← sdkCall (.destroyHandle (some h))
          pure (nRet, ⟨none⟩)
        else pure (nRet, ⟨some h⟩)

/-- `Close`. -/
def close (c : CMvCamera) : Proc sdk σ (Ret × CMvCamera) :=
  match c.m_hDevHandle with
  | none => pure (.err .handle, c)
  | some h => do
    let _ ← sdkCall (.closeDevice (some h))
    let nRet ← sdkCall (.destroyHandle (some h))
    pure (nRet, ⟨none⟩)

/-- `IsDeviceConnected`. -/
def isDeviceConnected (c : CMvCamera) : Proc sdk σ Bool :=
  sdkCall (.isDeviceConnected c.m_hDevHandle)

/-- `StartGrabbing`. -/
def startGrabbing (c : CMvCamera) : Proc sdk σ Ret := sdkCall (.startGrabbing c.m_hDevHandle)

/-- `StopGrabbing`. -/
def stopGrabbing (c : CMvCamera) : Proc sdk σ Ret := sdkCall (.stopGrabbing c.m_hDevHandle)

/-- `GetIntValue`; the second component is `nCurValue`. -/
def getIntValue (c : CMvCamera) (strKey : String) : Proc sdk σ (Ret × ℤ) :=
  sdkCall (.getIntValue c.m_hDevHandle strKey)

/-- `SetIntValue`. -/
def setIntValue (c : CMvCamera) (strKey : String) (nValue : ℤ) : Proc sdk σ Ret :=
  sdkCall (.setIntValue c.m_hDevHandle strKey nValue)

/-- `SetEnumValue`. -/
def setEnumValue (c : CMvCamera) (strKey : String) (nValue : EnumValue) : Proc sdk σ Ret :=
  sdkCall (.setEnumValue c.m_hDevHandle strKey nValue)

/-- `GetOptimalPacketSize`: the SDK answers with a size, or with a negative error
code. -/
def getOptimalPacketSize (c : CMvCamera) : Proc sdk σ (Ret × ℤ) := do
  let nRet ← sdkCall (.getOptimalPacketSize c.m_hDevHandle)
  if nRet < 0 then pure (.err (.other nRet.natAbs), 0)
  else pure (.ok, nRet)

/-- `SaveImage`. -/
def saveImage (c : CMvCamera) (pstParam : SaveParam) : Proc sdk σ SaveAnswer :=
  sdkCall (.saveImage c.m_hDevHandle pstParam)

/-- `GetOneFrameTimeout`; `pData` tells whether the buffer is not `NULL`. -/
def getOneFrameTimeout (c : CMvCamera) (pData : Bool) (nDataSize nMsec : UInt32) :
    Proc sdk σ FrameAnswer :=
  sdkCall (.getOneFrame c.m_hDevHandle pData nDataSize nMsec)

/-! ## Frames

A member function touches the SDK and its own object only. -/

section Frames
variable {c c' : CMvCamera} {s s' : σ} {tr : SdkTrace} {r : Ret}

theorem delete_state (h : Runs c.delete s tr s' ()) : s' = s := by
  rw [delete] at h
  split at h
  · exact (runs_pure.mp h).2.1
  · simp only [runs_call_bind, runs_pure] at h
    obtain ⟨_, _, -, -, hs, -⟩ := h
    exact hs

theorem close_state (h : Runs c.close s tr s' (r, c')) : s' = s := by
  rw [close] at h
  split at h
  · exact (runs_pure.mp h).2.1
  · simp only [runs_call_bind, runs_pure] at h
    obtain ⟨_, _, -, _, _, -, -, hs, -⟩ := h
    exact hs

/-- The outcomes of `Open` on a new object: no record, no handle, a device that does not
open, and an open one. -/
inductive Opening : Option DeviceInfo → SdkTrace → Ret → CMvCamera → Prop
  | noRecord : Opening none [] (.err .parameter) ⟨none⟩
  | refused {i : DeviceInfo} {e : Err} {left : Option Handle} :
      Opening (some i) [⟨.createHandle i, .refused e left⟩] (.err e) ⟨left⟩
  | failed {i : DeviceInfo} {h : Handle} {nRet ret : Ret} (hret : nRet ≠ .ok) :
      Opening (some i) [⟨.createHandle i, .created h⟩, ⟨.openDevice (some h), nRet⟩,
        ⟨.destroyHandle (some h), ret⟩] nRet ⟨none⟩
  | opened {i : DeviceInfo} {h : Handle} :
      Opening (some i) [⟨.createHandle i, .created h⟩, ⟨.openDevice (some h), .ok⟩] .ok ⟨some h⟩

theorem opening_of_runs {info : Option DeviceInfo} (h : Runs (new.open info) s tr s' (r, c')) :
    s' = s ∧ Opening info tr r c' := by
  unfold «open» at h
  cases info with
  | none =>
      obtain ⟨rfl, rfl, he⟩ := runs_pure.mp h
      obtain ⟨rfl, rfl⟩ := Prod.mk.inj he
      exact ⟨rfl, .noRecord⟩
  | some i =>
      simp only [new, Option.isSome_none, Bool.false_eq_true, if_false, runs_call_bind] at h
      obtain ⟨answer, t₁, rfl, h⟩ := h
      cases answer with
      | refused e left =>
          obtain ⟨rfl, rfl, he⟩ := runs_pure.mp h
          obtain ⟨rfl, rfl⟩ := Prod.mk.inj he
          exact ⟨rfl, .refused⟩
      | created hdl =>
          simp only [runs_call_bind] at h
          obtain ⟨nRet, t₂, rfl, h⟩ := h
          split at h
          · rename_i hret
            simp only [runs_call_bind, runs_pure, Prod.mk.injEq] at h
            obtain ⟨ret, t₃, rfl, rfl, rfl, rfl, rfl⟩ := h
            exact ⟨rfl, .failed hret⟩
          · rename_i hret
            have hok : nRet = .ok := by simpa using hret
            subst hok
            obtain ⟨rfl, rfl, he⟩ := runs_pure.mp h
            obtain ⟨rfl, rfl⟩ := Prod.mk.inj he
            exact ⟨rfl, .opened⟩

end Frames

end CMvCamera

end CameraService
