import CameraService.Lib.Interaction
import CameraService.Text

/-!
# The camera SDK as an environment

The SDK is not part of the repository: a call is an operation whose answer is
arbitrary.  The same holds for `malloc`, and for the memory a device record
occupied before a later enumeration released it.  What an operation passes in and
what its answer passes out are the values the service hands over and reads back.

Return codes keep their names instead of their numbers, which are defined in a
header of the SDK.  Zero is `Ret.ok`; every other code is an error.

## Main definitions

* `Ret`, `Err` — return codes.
* `DeviceInfo` — `MV_CC_DEVICE_INFO` with the record of its layer.
* `Call`, `Call.Ans` — the operations and their answers.
* `sdk` — the interface of the programs of this development.
-/

namespace CameraService

/-- The error codes the service returns or compares with. -/
inductive Err
  /-- `-1`, returned by the service itself. -/
  | failure
  /-- `MV_E_PARAMETER`. -/
  | parameter
  /-- `MV_E_CALLORDER`. -/
  | callOrder
  /-- `MV_E_HANDLE`. -/
  | handle
  /-- `MV_E_NODATA`. -/
  | noData
  /-- `MV_E_USB_WRITE`. -/
  | usbWrite
  /-- Any other error code. -/
  | other (code : ℕ)
  deriving DecidableEq

/-- A return code: `0`, also named `MV_OK`, or an error. -/
inductive Ret
  | ok
  | err (e : Err)
  deriving DecidableEq

/-! ## Device records -/

/-- The transport layers the service tells apart. -/
inductive LayerType
  /-- `MV_GIGE_DEVICE`. -/
  | gige
  /-- `MV_USB_DEVICE`. -/
  | usb
  | other (nTLayerType : ℕ)
  deriving DecidableEq

/-- The part of `SpecialInfo.stGigEInfo` that the service reads. -/
structure GigEInfo where
  nCurrentIp : UInt32
  chManufacturerName : CharArray
  chModelName : CharArray
  chDeviceVersion : CharArray
  chSerialNumber : CharArray
  chUserDefinedName : CharArray
  deriving DecidableEq

/-- The part of `SpecialInfo.stUsb3VInfo` that the service reads. -/
structure Usb3VInfo where
  chDeviceGUID : CharArray
  chManufacturerName : CharArray
  chModelName : CharArray
  chDeviceVersion : CharArray
  chSerialNumber : CharArray
  chUserDefinedName : CharArray
  deriving DecidableEq

/-- `MV_CC_DEVICE_INFO`: the layer selects the member of the union. -/
inductive DeviceInfo
  | gige (stGigEInfo : GigEInfo)
  | usb (stUsb3VInfo : Usb3VInfo)
  | other (nTLayerType : ℕ)
  deriving DecidableEq

/-- The layer of a record. -/
def DeviceInfo.nTLayerType : DeviceInfo → LayerType
  | .gige _ => .gige
  | .usb _ => .usb
  | .other n => .other n

/-- The array `pDeviceInfo[0 .. nDeviceNum)`; its entries may be `NULL`. -/
abbrev DeviceList : Type := List (Option DeviceInfo)

/-! ## Frames and pictures -/

/-- `MV_FRAME_OUT_INFO_EX`. -/
structure FrameInfo where
  nWidth : UInt32
  nHeight : UInt32
  nFrameLen : UInt32
  enPixelType : ℕ
  deriving DecidableEq

/-- The answer of `MV_CC_GetOneFrameTimeout`; `bytes` is what it stored, from the
start of the buffer it was given. -/
structure FrameAnswer where
  ret : Ret
  info : FrameInfo
  bytes : Bytes

/-- The inputs of `MV_SAVE_IMAGE_PARAM_EX3`. -/
structure SaveParam where
  /-- The `nDataLen` bytes at `pData`, unless that is `NULL`. -/
  pData : Option Bytes
  nDataLen : UInt32
  enPixelType : ℕ
  nWidth : UInt32
  nHeight : UInt32
  /-- Whether `pImageBuffer` is not `NULL`. -/
  pImageBuffer : Bool
  nBufferSize : UInt32
  enImageType : UInt32
  nJpgQuality : UInt32
  iMethodValue : UInt32
  deriving DecidableEq

/-- The answer of `MV_CC_SaveImageEx3`; `image` is what it stored, from the start
of the buffer it was given. -/
structure SaveAnswer where
  ret : Ret
  nImageLen : UInt32
  image : Bytes

/-! ## Operations -/

/-- The identity of a handle. -/
abbrev Handle : Type := ℕ

/-- The answer of `MV_CC_CreateHandle`: success with a handle, or an error code
and what it left in the out-parameter. -/
inductive CreateAnswer
  | created (h : Handle)
  | refused (e : Err) (left : Option Handle)

/-- The values `MV_CC_SetEnumValue` is called with. -/
inductive EnumValue
  /-- `MV_TRIGGER_MODE_OFF`. -/
  | triggerModeOff
  /-- `PixelType_Gvsp_BGR8_Packed`. -/
  | bgr8Packed
  deriving DecidableEq

/-- A call that leaves the service.  Operations on a handle take the value of
`m_hDevHandle`, which is `none` for `NULL`. -/
inductive Call
  | malloc (size : UInt32)
  /-- Reading a device record that a later enumeration has released. -/
  | staleRecord
  | enumDevices (nTLayerType : List LayerType)
  | createHandle (info : DeviceInfo)
  | openDevice (h : Option Handle)
  | closeDevice (h : Option Handle)
  | destroyHandle (h : Option Handle)
  | isDeviceConnected (h : Option Handle)
  | getOptimalPacketSize (h : Option Handle)
  | setIntValue (h : Option Handle) (key : String) (value : ℤ)
  | setEnumValue (h : Option Handle) (key : String) (value : EnumValue)
  | getIntValue (h : Option Handle) (key : String)
  | startGrabbing (h : Option Handle)
  | stopGrabbing (h : Option Handle)
  /-- `pData` tells whether the buffer is not `NULL`. -/
  | getOneFrame (h : Option Handle) (pData : Bool) (nDataSize : UInt32) (nMsec : UInt32)
  | saveImage (h : Option Handle) (param : SaveParam)
  deriving DecidableEq

/-- The answers. -/
abbrev Call.Ans : Call → Type
  | .malloc _ => Option (ℕ → UInt8)
  | .staleRecord => DeviceInfo
  | .enumDevices _ => Ret × DeviceList
  | .createHandle _ => CreateAnswer
  | .isDeviceConnected _ => Bool
  | .getOptimalPacketSize _ => ℤ
  | .getIntValue _ _ => Ret × ℤ
  | .getOneFrame _ _ _ _ => FrameAnswer
  | .saveImage _ _ => SaveAnswer
  | .openDevice _ | .closeDevice _ | .destroyHandle _ | .setIntValue _ _ _
  | .setEnumValue _ _ _ | .startGrabbing _ | .stopGrabbing _ => Ret

/-- The failed assertions, and the accesses through `NULL`. -/
inductive Fault
  /-- `assert(camera_ != NULL)`. -/
  | assertCamera
  /-- `assert(camera_open_)`. -/
  | assertCameraOpen
  /-- `assert(grapping_)`. -/
  | assertGrapping
  /-- `assert(size < buff_max_size_)`. -/
  | assertDataSize
  /-- A member call through `camera_ == NULL`. -/
  | nullCamera
  /-- A copy from `buff_ == NULL`. -/
  | nullBuffer
  /-- A `memcpy` of bytes that are not all there, past the end, or onto themselves. -/
  | badCopy
  deriving DecidableEq

/-- The interface of the service's programs. -/
abbrev sdk : Interaction.Interface := ⟨Call, Call.Ans, Fault⟩

/-- Call the SDK or the allocator. -/
abbrev sdkCall {σ : Type} (c : Call) : Interaction.Proc sdk σ c.Ans :=
  Interaction.Proc.call (I := sdk) c

/-- A call of a run with its answer. -/
abbrev SdkEvent : Type := Interaction.Event sdk

/-- The calls of a run with their answers. -/
abbrev SdkTrace : Type := List SdkEvent

/-- No allocation fails. -/
def Allocates (tr : SdkTrace) : Prop := ∀ n, (⟨.malloc n, none⟩ : SdkEvent) ∉ tr

theorem allocates_nil : Allocates [] := fun _ => List.not_mem_nil

theorem allocates_append {t₁ t₂ : SdkTrace} :
    Allocates (t₁ ++ t₂) ↔ Allocates t₁ ∧ Allocates t₂ := by
  simp only [Allocates, List.mem_append, not_or, forall_and]

/-! ## Some answers -/

/-- An SDK on which every call succeeds. -/
def obliging : Interaction.Oracle sdk := fun _ op =>
  match op with
  | .malloc _ => some fun _ => 0
  | .staleRecord => .other 0
  | .enumDevices _ => (.ok, [])
  | .createHandle _ => .created 1
  | .isDeviceConnected _ => true
  | .getOptimalPacketSize _ => 1500
  | .getIntValue _ _ => (.ok, 0)
  | .getOneFrame _ _ _ _ => ⟨.ok, ⟨1, 1, 3, 0⟩, [1, 2, 3]⟩
  | .saveImage _ _ => ⟨.ok, 2, [7, 8]⟩
  | .openDevice _ | .closeDevice _ | .destroyHandle _ | .setIntValue _ _ _
  | .setEnumValue _ _ _ | .startGrabbing _ | .stopGrabbing _ => .ok

/-- The camera was unplugged. -/
def unplugged : Interaction.Oracle sdk := fun n op =>
  match op with
  | .isDeviceConnected _ => false
  | op => obliging n op

/-- The camera delivers this frame, and has told its size. -/
def snapping (frame : FrameAnswer) : Interaction.Oracle sdk := fun n op =>
  match op with
  | .getIntValue _ _ => (.ok, frame.info.nFrameLen.toNat)
  | .getOneFrame _ _ _ _ => frame
  | op => obliging n op

/-- A released record was overwritten with this one. -/
def rewriting (info : DeviceInfo) : Interaction.Oracle sdk := fun n op =>
  match op with
  | .staleRecord => info
  | op => obliging n op

/-- The next enumeration finds these records. -/
def finding (list : DeviceList) : Interaction.Oracle sdk := fun n op =>
  match op with
  | .enumDevices _ => (.ok, list)
  | op => obliging n op

end CameraService
