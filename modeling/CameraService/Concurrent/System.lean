import CameraService.GrpcServer
import CameraService.Lib.Pool

/-!
# The service under concurrent requests

The server answers its requests on a pool of threads.  A request runs from one
locked section to the next; the sections are the steps of the system, and between
two of them the other requests may do what they like.

A thread owns the devices its `shared_ptr`s point to, which its program counter
tells.  The shared state carries two records besides the provider: for which
serial number and from which device record each camera was started, and what each
enumeration returned.

## Main definitions

* `Request`, `Pc`, `Thread` — a request and how far it has come.
* `advance` — the next section of a request.
* `Service`, `act`, `Step` — the shared state and the steps of the system.
* `start` — the server with a list of requests that have just arrived.
-/

namespace CameraService

open Interaction Provider

/-- A call of a client, or of `close_camera`. -/
inductive Request
  | getImage (sn : Bytes) (shape : ImageShape)
  | closeCamera (sn : CharArray)
  | getCameraMetas

/-- How far a request has come: the section that it enters next, with its local
variables. -/
inductive Pc
  | arrive (r : Request)
  /-- Before `find_camera_device_by_sn`. -/
  | lookup (sn : Key) (data : Buff)
  /-- Before `find_camera_info_by_sn`. -/
  | findInfo (sn : Key) (data : Buff)
  /-- Before `CameraDevice::start`. -/
  | create (sn : Key) (info : RecordPtr) (data : Buff)
  /-- The device could not be started. -/
  | abandon (a : DevId) (data : Buff)
  /-- Before `add_camera_device`. -/
  | publish (sn : Key) (a : DevId) (data : Buff)
  /-- Before `CameraDevice::take_picture`. -/
  | take (a : DevId) (data : Buff)
  | leave (a : DevId) (ret : Ret) (data : Buff)
  | replied (reply : ImageReply)
  /-- Before `stop_and_close`. -/
  | closing (a : DevId)
  | closeLeave (a : DevId)
  | closed
  /-- In the loop of `to_camera_meta_info_list`; `epochs` are the enumerations that
  the slots were read from. -/
  | convert (i : ℕ) (infos : List CameraMetaInfo) (epochs : List ℕ)
  | listed (reply : MetasReply) (epochs : List ℕ)

namespace Pc

/-- The request has been answered. -/
def finished : Pc → Bool
  | replied _ | closed | listed _ _ => true
  | _ => false

/-- The request holds a `shared_ptr` to the device. -/
def owns (a : DevId) : Pc → Bool
  | abandon b _ | publish _ b _ | take b _ | leave b _ _ | closing b | closeLeave b => b = a
  | _ => false

/-- The request has started the device and not yet published it. -/
def opens (a : DevId) : Pc → Bool
  | abandon b _ | publish _ b _ => b = a
  | _ => false

/-- The request is about to take a picture with the device. -/
def takes (a : DevId) : Pc → Bool
  | take b _ => b = a
  | _ => false

theorem takes_iff {a : DevId} {pc : Pc} : pc.takes a = true ↔ ∃ data, pc = .take a data := by
  cases pc with
  | take b data => simp [takes]
  | _ => simp [takes]

/-- The request enters `enum_all_cameras_info` next. -/
def enumerates : Pc → Bool
  | arrive .getCameraMetas => true
  | _ => false

/-- The serial number that `find_camera_info_by_sn` searches next. -/
def searches : Pc → Option Key
  | findInfo sn _ => some sn
  | _ => none

/-- The serial number for which a device is started next. -/
def starts : Pc → Option Key
  | create sn _ _ => some sn
  | _ => none

/-- The request has started a device that is not in the map yet. -/
def unpublished : Pc → Bool
  | abandon _ _ | publish _ _ _ => true
  | _ => false

/-- The next slot of a listing. -/
def position : Pc → Option ℕ
  | convert i _ _ => some i
  | _ => none

/-- The answer to `GetCameraMetas`, with the enumerations it was read from. -/
def response : Pc → Option (MetasReply × List ℕ)
  | listed reply epochs => some (reply, epochs)
  | _ => none

/-- The answer to `GetImage`. -/
def reply : Pc → Option ImageReply
  | replied r => some r
  | _ => none

theorem enumerates_iff {pc : Pc} : pc.enumerates = true ↔ pc = .arrive .getCameraMetas := by
  cases pc with
  | arrive r => cases r <;> simp [enumerates]
  | _ => simp [enumerates]

theorem position_eq_some {pc : Pc} {i : ℕ} :
    pc.position = some i ↔ ∃ infos epochs, pc = .convert i infos epochs := by
  cases pc with
  | convert j infos epochs => simp [position, eq_comm]
  | _ => simp [position]

theorem response_eq_some {pc : Pc} {r : MetasReply × List ℕ} :
    pc.response = some r ↔ pc = .listed r.1 r.2 := by
  cases pc with
  | listed reply epochs => simp [response, Prod.ext_iff]
  | _ => simp [response]

theorem owns_of_opens {a : DevId} {pc : Pc} (h : pc.opens a = true) : pc.owns a = true := by
  cases pc with
  | abandon b data => exact h
  | publish sn b data => exact h
  | _ => simp [opens] at h

end Pc

/-- One iteration of `to_camera_meta_info_list`, with its test on `nDeviceNum`. -/
def convertStep (l : InfoList) (i : ℕ) (infos : List CameraMetaInfo) (epochs : List ℕ) : Pc :=
  match l.pDeviceInfo[i]? with
  | some p => .convert (i + 1) (convertSlot infos p) (epochs ++ [l.epoch])
  | none => .listed ⟨.ok, .ok, infos.map toCameraMeta⟩ epochs

/-- The next section of a request. -/
def advance (held : DevId → Bool) : Pc → ProviderProc Pc
  | .arrive (.getImage sn _shape) => do
    let (_, data) ← Buff.empty.ensureSize defaultImageSize
    pure (.lookup (toUpper sn) data)
  | .arrive (.closeCamera sn) => do
    match ← findCameraDeviceBySn held sn.text with
    | none => pure .closed
    | some a => pure (.closing a)
  | .arrive .getCameraMetas => do
    let ret ← enumAllCamerasInfo
    pure (if ret ≠ .ok then .listed ⟨ret, .ok, []⟩ [] else .convert 0 [] [])
  | .lookup sn data => do
    match ← findCameraDeviceBySn held sn with
    | some a => pure (.take a data)
    | none => pure (.findInfo sn data)
  | .findInfo sn data => do
    match ← findCameraInfoBySn sn with
    | none => pure (.replied (imageReply (.err .failure) data))
    | some info => pure (.create sn info data)
  | .create sn info data => do
    let (ret, a) ← createDevice info
    pure (if ret ≠ .ok then .abandon a data else .publish sn a data)
  | .abandon a data => do
    release held a
    pure (.replied (imageReply (.err .failure) data))
  | .publish sn a data => do
    addCameraDevice held sn a
    pure (.take a data)
  | .take a data => do
    let (ret, data) ← onDevice a (CameraDevice.takePicture none data)
    pure (.leave a ret data)
  | .leave a ret data => do
    release held a
    pure (.replied (imageReply ret data))
  | .closing a => do
    onDevice a CameraDevice.stopAndClose
    pure (.closeLeave a)
  | .closeLeave a => do
    release held a
    pure .closed
  | .convert i infos epochs => do
    let P ← Proc.get
    pure (convertStep P.camera_info_list_ i infos epochs)
  | pc => pure pc

/-! ## The system -/

/-- A request in progress, with the SDK calls it has made. -/
structure Thread where
  pc : Pc
  log : SdkTrace

/-- Some request of the list owns the device. -/
def heldBy (ts : List Thread) (a : DevId) : Bool := ts.any fun t => t.pc.owns a

/-- For which key, and from which record, a device was started.  There is no record
when the pointer was stale. -/
structure Made where
  key : Key
  record : Option DeviceInfo

/-- What the requests share. -/
structure Service where
  provider : Provider
  /-- The devices started so far. -/
  made : DevId → Option Made
  /-- What the enumerations returned. -/
  enumerated : ℕ → DeviceList

namespace Service

/-- The records after a section that left the provider in `P'`. -/
def next (S : Service) (pc : Pc) (P' : Provider) : Service where
  provider := P'
  made := match pc with
    | .create sn info _ => Function.update S.made S.provider.next
        (some ⟨sn, S.provider.camera_info_list_.deref info⟩)
    | _ => S.made
  enumerated := Function.update S.enumerated P'.camera_info_list_.epoch
    P'.camera_info_list_.pDeviceInfo

@[simp] theorem provider_next {S : Service} {pc : Pc} {P' : Provider} :
    (S.next pc P').provider = P' := rfl

/-- The service before its first request; the cameras were enumerated already. -/
def initial (list : InfoList) : Service where
  provider := { Provider.new with camera_info_list_ := list }
  made := fun _ => none
  enumerated := fun _ => list.pDeviceInfo

end Service

/-- A request runs its next section; the others tell which devices are held. -/
def act : Pool.Action Service Thread SdkTrace := fun os S t tr S' t' =>
  t.pc.finished = false ∧ ∃ P' pc', Runs (advance (heldBy os) t.pc) S.provider tr P' pc' ∧
    S' = S.next t.pc P' ∧ t' = ⟨pc', t.log ++ tr⟩

/-- The states of the system. -/
abbrev System : Type := Pool Service Thread

/-- The steps of the system. -/
abbrev Step : System → ℕ × SdkTrace → System → Prop := Pool.Step act

/-- The system with requests that have just arrived. -/
def start (list : InfoList) (reqs : List Request) : System :=
  ⟨.initial list, reqs.map fun r => ⟨.arrive r, []⟩⟩

/-! ## Playing a schedule -/

/-- A request for an image from this camera. -/
def imageOf (sn : Bytes) : Request := .getImage sn ⟨0, 0, 0⟩

/-- The next section of the `i`-th request, with the answers of an oracle.  A request
that cannot go on leaves the system as it is. -/
def play (s : System) (i : ℕ) (o : Oracle sdk) : Option (SdkTrace × System) :=
  match s.threads[i]? with
  | none => none
  | some t =>
    if t.pc.finished then none
    else match (advance (heldBy (s.threads.eraseIdx i)) t.pc).exec o s.shared.provider with
      | (tr, .ok (P', pc')) =>
        some (tr, ⟨s.shared.next t.pc P', s.threads.set i ⟨pc', t.log ++ tr⟩⟩)
      | (_, .error _) => none

/-- The run of a schedule, up to the first request that cannot go on. -/
def playAll (s : System) : List (ℕ × Oracle sdk) → List ((ℕ × SdkTrace) × System)
  | [] => []
  | (i, o) :: sched =>
    match play s i o with
    | none => []
    | some (tr, s') => ((i, tr), s') :: playAll s' sched

theorem step_of_play {s s' : System} {i : ℕ} {o : Oracle sdk} {tr : SdkTrace}
    (h : play s i o = some (tr, s')) : Step s (i, tr) s' := by
  rw [play] at h
  split at h
  · cases h
  · rename_i t ht
    split at h
    · cases h
    · rename_i hf
      split at h
      · rename_i P' pc' he
        cases h
        exact .mk ht ⟨by simpa using hf, P', pc', runs_of_exec he, rfl, rfl⟩
      · cases h

/-- **What is played is a run of the system.** -/
theorem along_playAll (s : System) (sched : List (ℕ × Oracle sdk)) :
    Transition.Along Step s (playAll s sched) := by
  induction sched generalizing s with
  | nil => trivial
  | cons m sched ih =>
      obtain ⟨i, o⟩ := m
      rw [playAll]
      split
      · trivial
      · rename_i tr s' h
        exact ⟨step_of_play h, ih _⟩

end CameraService
