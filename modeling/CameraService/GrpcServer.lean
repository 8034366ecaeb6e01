import CameraService.Provider

/-!
# The RPC handlers

`CameraServiceImpl` of `camera_grpc_server.cc`, one request at a time.  The code
that a handler drops stands next to its answer, so that it can be compared with
the status.

## Main definitions

* `getImage`, `getCameraMetas` — the handlers.
* `dumpCameras` — the enumeration before the first request.
* `setContent` — the assignment to the response of `GetImage`.
-/

namespace CameraService

open Interaction

/-- `grpc::Status`, as far as the handlers set it. -/
inductive Status
  | ok
  | cancelled
  deriving DecidableEq

/-- `ImageShape_`. -/
structure ImageShape where
  width : Int32
  height : Int32
  channel : Int32
  deriving DecidableEq

/-- `DEFAULT_IMAGE_SIZE`. -/
def defaultImageSize : UInt32 := 20 * 1024 * 1024

/-- The image parameters that `GetImage` fills from the request. -/
def ImageShape.toParameter (shape : ImageShape) : ImageParameter where
  imageType := 0
  width := shape.width.toUInt32
  height := shape.height.toUInt32
  quality := 99
  method := 3

/-- `response->set_content(data.get_buff(), data.get_data_len())`.  A negative length
is a huge `size_t`, and throws. -/
def setContent (data : Buff) : Option Bytes :=
  if data.getDataLen < 0 then none
  else some ((data.buff_.map (·.read data.getDataLen.toInt.toNat)).getD [])

/-- The answer to `GetImage`, with the code that the handler drops. -/
structure ImageReply where
  ret : Ret
  status : Status
  content : Bytes
  deriving DecidableEq

/-- The end of `GetImage`: a code other than `0` is not acted on, and an exception is
answered with `CANCELLED`. -/
def imageReply (ret : Ret) (data : Buff) : ImageReply :=
  match setContent data with
  | none => ⟨ret, .cancelled, []⟩
  | some content => ⟨ret, .ok, content⟩

/-- `GetImage`.  The parameters are computed, and `NULL` is passed in their place. -/
def getImage (held : DevId → Bool) (sn : Bytes) (shape : ImageShape) :
    ProviderProc ImageReply := do
  let _param := shape.toParameter
  let (_, data) ← Buff.empty.ensureSize defaultImageSize
  let (ret, data) ← Provider.takePicture held sn none data
  pure (imageReply ret data)

/-- `CameraMeta_`. -/
structure CameraMeta where
  serialNumber : Bytes
  modelName : Bytes
  manufactureName : Bytes
  deviceVersion : Bytes
  userDefinedName : Bytes
  cameraType : String
  info : List (String × Bytes)
  deriving DecidableEq

/-- The copy loop of `GetCameraMetas`. -/
def toCameraMeta (it : CameraMetaInfo) : CameraMeta where
  serialNumber := it.serialNumber
  modelName := it.modelName
  manufactureName := it.manufactureName
  deviceVersion := it.deviceVersion
  userDefinedName := it.userDefinedName
  cameraType := it.cameraType
  info := it.info

/-- The answer to `GetCameraMetas`, with the code that the handler drops. -/
structure MetasReply where
  ret : Ret
  status : Status
  data : List CameraMeta
  deriving DecidableEq

/-- `GetCameraMetas`. -/
def getCameraMetas : ProviderProc MetasReply := do
  let (ret, infos) ← Provider.enumAllCameras
  pure ⟨ret, .ok, infos.map toCameraMeta⟩

/-- `dump_cameras`, which logs what it finds. -/
def dumpCameras : ProviderProc Unit := do
  let (_, _) ← Provider.enumAllCameras
  pure ()

end CameraService
