import CameraService.Buffer
import CameraService.MvCamera

/-!
# One camera

`CameraDevice` of `camera_service.cc`: the object that owns a camera handle, the
flags `camera_open_` and `grapping_`, and the buffer frames are fetched into.
Every public member runs under the device's lock.  Clock readings, the averages
computed from them and the log lines are left out.

## Main definitions

* `CameraDevice` — the fields.
* `CameraDevice.start`, `CameraDevice.takePicture`, `CameraDevice.stopAndClose`,
  `CameraDevice.isShutdown` — the public members.
-/

namespace CameraService

open Interaction

/-- `ImageParameter`. -/
structure ImageParameter where
  imageType : UInt32
  width : UInt32
  height : UInt32
  quality : UInt32
  method : UInt32
  deriving DecidableEq

/-- `CameraDevice`. -/
structure CameraDevice where
  /-- The camera, unless `camera_` is `NULL`. -/
  camera_ : Option CMvCamera
  camera_open_ : Bool
  grapping_ : Bool
  default_buff_size_ : UInt32
  cache_data_ : Buff

/-- A program of the device. -/
abbrev DeviceProc (α : Type) : Type := Proc sdk CameraDevice α

namespace CameraDevice

/-- The constructor. -/
def new : CameraDevice := ⟨none, false, false, 0, .empty⟩

/-- `wait_timeout_`. -/
def waitTimeout : UInt32 := 4000

/-- `default_image_type_`, the picture type `MV_Image_Jpeg`. -/
def defaultImageType : UInt32 := 2

/-- `default_quality`. -/
def defaultQuality : UInt32 := 99

/-- `default_method`. -/
def defaultMethod : UInt32 := 3

/-- The object behind `camera_`. -/
def camera : DeviceProc CMvCamera := do
  let d ← Proc.get
  match d.camera_ with
  | none => Proc.fault .nullCamera
  | some c => pure c

/-- `_start_grapping`. -/
def startGrapping : DeviceProc Ret := do
  let d ← Proc.get
  if d.grapping_ then pure .ok
  else do
    let ret ← (← camera).startGrabbing
    if ret ≠ .ok then pure ret
    else do
      Proc.modify fun d => { d with grapping_ := true }
      pure .ok

/-- The retry loop of `_stop_grapping`, with `left` retries left.  A write error of
the USB layer means that the camera is gone, and ends the loop. -/
def stopGrabbingRetry (c : CMvCamera) : ℕ → DeviceProc Ret
  | 0 => c.stopGrabbing
  | left + 1 => do
    let ret ← c.stopGrabbing
    if ret = .ok ∨ ret = .err .usbWrite then pure ret
    else stopGrabbingRetry c left

/-- `_stop_grapping`. -/
def stopGrapping : DeviceProc Ret := do
  let d ← Proc.get
  if d.grapping_ then do
    let ret ← stopGrabbingRetry (← camera) 5
    Proc.modify fun d => { d with grapping_ := false }
    pure ret
  else pure .ok

/-- `_close_camera`. -/
def closeCamera : DeviceProc Ret := do
  Proc.modify fun d => { d with camera_open_ := false }
  let d ← Proc.get
  match d.camera_ with
  | none => pure .ok
  | some c => do
    let (_, c) ← c.close
    Proc.modify fun d => { d with camera_ := some c }
    c.delete
    Proc.modify fun d => { d with camera_ := none }
    pure .ok

/-- `_init_cam_params`.  A 64-bit payload size is stored in 32 bits. -/
def initCamParams (c : CMvCamera) : DeviceProc Ret := do
  let _ ← c.setEnumValue "TriggerMode" .triggerModeOff
  let _ ← c.setEnumValue "PixelFormat" .bgr8Packed
  let (ret, nCurValue) ← c.getIntValue "PayloadSize"
  if ret = .ok then do
    Proc.modify fun d => { d with default_buff_size_ := UInt32.ofNat (nCurValue % 2 ^ 32).toNat }
    pure ret
  else pure ret

/-- The packet size negotiation of `_open_camera`; its failures are only logged. -/
def setPacketSize (c : CMvCamera) : DeviceProc Unit := do
  let (ret, nPacketSize) ← c.getOptimalPacketSize
  if ret = .ok then do
    let _ ← c.setIntValue "GevSCPSPacketSize" nPacketSize
    pure ()
  else pure ()

/-- The packet size is negotiated for cameras of the GigE layer only. -/
def configurePacketSize (c : CMvCamera) (device_info : Option DeviceInfo) : DeviceProc Unit :=
  if device_info.map DeviceInfo.nTLayerType = some .gige then setPacketSize c else pure ()

/-- The part of `_open_camera` after the camera was opened. -/
def configureCamera (c : CMvCamera) (device_info : Option DeviceInfo) : DeviceProc Ret := do
  configurePacketSize c device_info
  let _ ← initCamParams c
  Proc.modify fun d => { d with camera_open_ := true }
  pure .ok

/-- `_open_camera`. -/
def openCamera (device_info : Option DeviceInfo) : DeviceProc Ret := do
  let d ← Proc.get
  if d.camera_open_ ∨ d.camera_ ≠ none then pure .ok
  else do
    Proc.modify fun d => { d with camera_ := some CMvCamera.new }
    let (ret, c) ← CMvCamera.new.open device_info
    Proc.modify fun d => { d with camera_ := some c }
    if ret ≠ .ok then do
      c.delete
      Proc.modify fun d => { d with camera_ := none }
      pure ret
    else configureCamera c device_info

/-- `_stop_and_close`, and the destructor. -/
def stopAndClose : DeviceProc Unit := do
  let _ ← stopGrapping
  let _ ← closeCamera
  pure ()

/-- `is_shutdown`. -/
def isShutdown (d : CameraDevice) : Bool := d.camera_.isNone

/-- `start`. -/
def start (device_info : Option DeviceInfo) : DeviceProc Ret := do
  let ret ← openCamera device_info
  if ret ≠ .ok then do
    let _ ← closeCamera
    pure ret
  else startGrapping

/-! ## Taking a picture -/

/-- The `SaveImage` arguments that `_to_jpg` computes from the frame, the buffer
it lies in and the request. -/
def saveParam (buff : Buff) (frame : FrameInfo) (param : Option ImageParameter)
    (data_ : Buff) : SaveParam where
  pData := buff.buff_.map (·.read frame.nFrameLen.toNat)
  nDataLen := frame.nFrameLen
  enPixelType := frame.enPixelType
  nWidth := match param with
    | none => frame.nWidth
    | some p => if 0 < p.width then min frame.nWidth p.width else frame.nWidth
  nHeight := match param with
    | none => frame.nHeight
    | some p => if 0 < p.height then min frame.nHeight p.height else frame.nHeight
  pImageBuffer := data_.buff_.isSome
  nBufferSize := data_.getBuffSize.toUInt32
  enImageType := match param with
    | none => defaultImageType
    | some p => if 1 ≤ p.imageType ∧ p.imageType ≤ 4 then p.imageType else defaultImageType
  nJpgQuality := match param with
    | none => defaultQuality
    | some p => if 50 ≤ p.quality ∧ p.quality < 100 then p.quality else defaultQuality
  iMethodValue := match param with
    | none => defaultMethod
    | some p => if p.method ≤ 3 then p.method else defaultMethod

/-- The growth of a buffer to the payload size, when the camera has told one. -/
def growTo (size : UInt32) (b : Buff) : DeviceProc Buff :=
  if 0 < size then do
    let (_, b) ← b.ensureSize size
    pure b
  else pure b

/-- `_to_jpg` on the frame in the cache; returns the caller's buffer with it. -/
def toJpg (frame : FrameInfo) (param : Option ImageParameter) (data_ : Buff) :
    DeviceProc (Ret × Buff) := do
  let d ← Proc.get
  let data_ ← growTo d.default_buff_size_ data_
  let answer ← (← camera).saveImage (saveParam d.cache_data_ frame param data_)
  let data_ := data_.write answer.image
  if answer.ret = .ok then do
    let data_ ← data_.setDataSize answer.nImageLen
    pure (answer.ret, data_)
  else pure (answer.ret, data_)

/-- The frame part of `take_picture`: the cache after the fetch, and the answer. -/
def fetchFrame : DeviceProc FrameAnswer := do
  let d ← Proc.get
  let cache ← growTo d.default_buff_size_ d.cache_data_
  Proc.modify fun d => { d with cache_data_ := cache }
  let answer ← (← camera).getOneFrameTimeout cache.buff_.isSome cache.getBuffSize.toUInt32
    waitTimeout
  Proc.modify fun d => { d with cache_data_ := d.cache_data_.write answer.bytes }
  pure answer

/-- The exits of `take_picture` on a frame error: no data means that a USB camera was
unplugged. -/
def closeOnNoData (ret : Ret) : DeviceProc Unit :=
  if ret = .err .noData then stopAndClose else pure ()

/-- `take_picture`; returns the caller's buffer with the code. -/
def takePicture (param : Option ImageParameter) (data_ : Buff) : DeviceProc (Ret × Buff) := do
  let d ← Proc.get
  Proc.require (d.camera_ ≠ none) .assertCamera
  Proc.require (d.camera_open_ = true) .assertCameraOpen
  Proc.require (d.grapping_ = true) .assertGrapping
  let connected ← (← camera).isDeviceConnected
  if ¬ connected then do
    stopAndClose
    pure (.err .failure, data_)
  else do
    let answer ← fetchFrame
    if answer.ret ≠ .ok then do
      closeOnNoData answer.ret
      pure (answer.ret, data_)
    else toJpg answer.info param data_

end CameraDevice

end CameraService
