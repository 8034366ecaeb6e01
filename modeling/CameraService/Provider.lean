import CameraService.CameraDevice
import CameraService.Listing
import Mathlib.Data.List.AList

/-!
# The provider

`CameraServiceProvider` of `camera_service.cc`: the enumerated device records and
the map from serial numbers to open cameras.  Devices are shared objects; they
live in a heap, and a `shared_ptr` is their address there.

The object behind a `shared_ptr` is destroyed with its last owner.  The map is one
owner, and the requests are the others: a member that gives up a reference takes
the predicate `held`, which tells whether some other request still owns the
device.

## Main definitions

* `Provider` — the state.
* `Provider.onDevice` — run a member of a device.
* `Provider.findCameraDeviceBySn`, `Provider.createDevice`,
  `Provider.addCameraDevice`, `Provider.release` — the locked sections.
* `Provider.findOrCreateCameraDevice`, `Provider.takePicture`,
  `Provider.closeCamera`, `Provider.enumAllCameras` — the public members.
* `Provider.delete` — the destructor.
-/

namespace CameraService

open Interaction

/-- A key of `cameras_list_`. -/
abbrev Key : Type := Bytes

/-- The address of a device object. -/
abbrev DevId : Type := ℕ

/-- The state of `CameraServiceProvider`. -/
structure Provider where
  camera_info_list_ : InfoList
  cameras_list_ : AList fun _ : Key => DevId
  /-- The device objects. -/
  heap : DevId → CameraDevice
  /-- The next free address. -/
  next : DevId

/-- A program of the provider. -/
abbrev ProviderProc (α : Type) : Type := Proc sdk Provider α

namespace Provider

/-- The provider after its constructor, with an enumeration still to come. -/
def new : Provider := ⟨⟨0, []⟩, ∅, fun _ => .new, 0⟩

/-- The object at an address. -/
def deviceAt (a : DevId) : Lens Provider CameraDevice where
  get P := P.heap a
  set d P := { P with heap := Function.update P.heap a d }
  get_set d P := by simp
  set_set d d' P := by simp
  set_get P := by simp

/-- Run a member of the device at `a`. -/
def onDevice {α : Type} (a : DevId) (p : DeviceProc α) : ProviderProc α :=
  p.zoom (deviceAt a)

/-- Some entry of the map points to the device. -/
def Published (P : Provider) (a : DevId) : Prop := ∃ e ∈ P.cameras_list_.entries, e.2 = a

instance (P : Provider) (a : DevId) : Decidable (P.Published a) :=
  inferInstanceAs (Decidable (∃ e ∈ P.cameras_list_.entries, e.2 = a))

/-- Give up a reference to `a`; the destructor shuts the device down when neither
the map nor another request owns it. -/
def release (held : DevId → Bool) (a : DevId) : ProviderProc Unit := do
  let P ← Proc.get
  if held a = true ∨ P.Published a then pure ()
  else onDevice a CameraDevice.stopAndClose

/-- `find_camera_device_by_sn`: a device that was shut down is evicted. -/
def findCameraDeviceBySn (held : DevId → Bool) (sn : Key) : ProviderProc (Option DevId) := do
  let P ← Proc.get
  match P.cameras_list_.lookup sn with
  | none => pure none
  | some a =>
    if (P.heap a).isShutdown then do
      Proc.modify fun P => { P with cameras_list_ := P.cameras_list_.erase sn }
      release held a
      pure none
    else pure (some a)

/-- Give up the reference that a map assignment overwrote. -/
def releaseOld (held : DevId → Bool) : Option DevId → ProviderProc Unit
  | none => pure ()
  | some a => release held a

/-- `add_camera_device`. -/
def addCameraDevice (held : DevId → Bool) (sn : Key) (a : DevId) : ProviderProc Unit := do
  let P ← Proc.get
  let old := P.cameras_list_.lookup sn
  Proc.modify fun P => { P with cameras_list_ := P.cameras_list_.insert sn a }
  releaseOld held old

/-- `std::make_shared<CameraDevice>()`. -/
def makeDevice : ProviderProc DevId := do
  let P ← Proc.get
  Proc.modify fun P =>
    { P with heap := Function.update P.heap P.next .new, next := P.next + 1 }
  pure P.next

/-- Read the record behind a pointer. -/
def readRecord (info : RecordPtr) : ProviderProc DeviceInfo := do
  let P ← Proc.get
  match P.camera_info_list_.deref info with
  | none => sdkCall .staleRecord
  | some i => pure i

/-- The part of `find_or_create_camera_device` that makes a device and starts it. -/
def createDevice (info : RecordPtr) : ProviderProc (Ret × DevId) := do
  let a ← makeDevice
  let i ← readRecord info
  let ret ← onDevice a (CameraDevice.start (some i))
  pure (ret, a)

/-- `find_camera_info_by_sn`, called with `sn.c_str()`. -/
def findCameraInfoBySn (sn : Key) : ProviderProc (Option RecordPtr) := do
  let P ← Proc.get
  pure (P.camera_info_list_.findCameraInfoBySn (CharArray.ofString sn))

/-- The part of `find_or_create_camera_device` after a fruitless lookup. -/
def createCameraDevice (held : DevId → Bool) (sn : Key) : ProviderProc (Option DevId) := do
  match ← findCameraInfoBySn sn with
  | none => pure none
  | some info => do
    let (ret, a) ← createDevice info
    if ret ≠ .ok then do
      release held a
      pure none
    else do
      addCameraDevice held sn a
      pure (some a)

/-- `find_or_create_camera_device`. -/
def findOrCreateCameraDevice (held : DevId → Bool) (sn1 : Bytes) :
    ProviderProc (Option DevId) := do
  let sn := toUpper sn1
  match ← findCameraDeviceBySn held sn with
  | some a => pure (some a)
  | none => createCameraDevice held sn

/-- `take_picture`; returns the caller's buffer with the code. -/
def takePicture (held : DevId → Bool) (sn : Bytes) (param : Option ImageParameter)
    (data_ : Buff) : ProviderProc (Ret × Buff) := do
  match ← findOrCreateCameraDevice held sn with
  | none => pure (.err .failure, data_)
  | some a => do
    let result ← onDevice a (CameraDevice.takePicture param data_)
    release held a
    pure result

/-- `close_camera`.  The serial number is used as it is. -/
def closeCamera (held : DevId → Bool) (sn : CharArray) : ProviderProc Unit := do
  match ← findCameraDeviceBySn held sn.text with
  | none => pure ()
  | some a => do
    onDevice a CameraDevice.stopAndClose
    release held a

/-- `enum_all_cameras_info`. -/
def enumAllCamerasInfo : ProviderProc Ret := do
  let (ret, list) ← CMvCamera.enumDevices [.gige, .usb]
  Proc.modify fun P =>
    { P with camera_info_list_ := ⟨P.camera_info_list_.epoch + 1, list⟩ }
  pure ret

/-- `enum_all_cameras`, starting from an empty vector. -/
def enumAllCameras : ProviderProc (Ret × List CameraMetaInfo) := do
  let ret ← enumAllCamerasInfo
  if ret ≠ .ok then pure (ret, [])
  else do
    let P ← Proc.get
    pure (.ok, toCameraMetaInfoList P.camera_info_list_.pDeviceInfo [])

/-- No request besides the running one. -/
def nobody : DevId → Bool := fun _ => false

/-- Destroy one entry of the map. -/
def dropEntry (sn : Key) : ProviderProc Unit := do
  let P ← Proc.get
  match P.cameras_list_.lookup sn with
  | none => pure ()
  | some a => do
    Proc.modify fun P => { P with cameras_list_ := P.cameras_list_.erase sn }
    release nobody a

/-- The destructor: the entries of `cameras_list_` are destroyed one after the other, in any
order here, and in that of the keys there. -/
def delete : List Key → ProviderProc Unit
  | [] => pure ()
  | sn :: order => do
    dropEntry sn
    delete order

end Provider

end CameraService
