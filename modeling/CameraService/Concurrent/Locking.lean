import CameraService.Concurrent.System
import CameraService.Lib.Locks

/-!
# The service lock by lock

The sections of the requests once more, with the locks that they take, the reference counts
of the devices, and the destructor that runs when the last reference is given up.  Locking,
unlocking and every call is a step of its own.

`lock_cameras_list_` is held while `is_shutdown` or a destructor locks a device, and nothing
is locked under the lock of a device.  So nobody waits for himself in the end.

## Main definitions

* `Mutex`, `Shared` — the mutexes, and what the requests share.
* `Shared.copyRef`, `Shared.dropRef` — copying and destroying a `shared_ptr`.
* `Locking.findCameraDeviceBySn`, `Locking.addCameraDevice` — the members that lock.
* `segment` — a section of a request, lock by lock.
* `LockStep` — the steps of the requests.
* `no_deadlock` — somebody can always go on.
-/

namespace CameraService

open Interaction Provider

/-- The mutexes of the service. -/
inductive Mutex
  /-- `lock_camera_info_list_`. -/
  | cameraInfoList
  /-- `lock_cameras_list_`. -/
  | camerasList
  /-- `CameraDevice::lock_` of a device. -/
  | device (a : DevId)
  deriving DecidableEq

/-- What the requests share: the provider, and how many `shared_ptr`s point to each
device. -/
structure Shared where
  provider : Provider
  refs : DevId → ℕ

/-- A program of a request, with its locks. -/
abbrev LockProc (α : Type) : Type := Proc (locking sdk Mutex) Shared α

namespace Shared

/-- The provider. -/
def providerOf : Lens Shared Provider where
  get S := S.provider
  set P S := { S with provider := P }
  get_set _ _ := rfl
  set_set _ _ _ := rfl
  set_get _ := rfl

/-- A program of the provider that takes no lock. -/
def onProvider {α : Type} (p : ProviderProc α) : LockProc α := (p.zoom providerOf).lift

/-- A `shared_ptr` is copied. -/
def copyRef (S : Shared) (a : DevId) : Shared :=
  { S with refs := Function.update S.refs a (S.refs a + 1) }

/-- A `shared_ptr` is destroyed. -/
def dropRef (S : Shared) (a : DevId) : Shared :=
  { S with refs := Function.update S.refs a (S.refs a - 1) }

end Shared

namespace Locking

open Shared

/-- `stop_and_close`. -/
def stopAndClose (a : DevId) : LockProc Unit :=
  guarded (.device a) (onProvider (onDevice a CameraDevice.stopAndClose))

/-- `is_shutdown`. -/
def isShutdown (a : DevId) : LockProc Bool :=
  guarded (.device a) do
    let S ← Proc.get
    pure (S.provider.heap a).isShutdown

/-- `CameraDevice::start`, which reads the record behind the pointer. -/
def start (a : DevId) (info : RecordPtr) : LockProc Ret :=
  guarded (.device a) do
    let i ← onProvider (readRecord info)
    onProvider (onDevice a (CameraDevice.start (some i)))

/-- `CameraDevice::take_picture`. -/
def takePicture (a : DevId) (data_ : Buff) : LockProc (Ret × Buff) :=
  guarded (.device a) (onProvider (onDevice a (CameraDevice.takePicture none data_)))

/-- A `shared_ptr` goes out of scope.  The destructor of the device runs after the last. -/
def dropShared (a : DevId) : LockProc Unit := do
  yield
  Proc.modify fun S => S.dropRef a
  let S ← Proc.get
  if S.refs a = 0 then stopAndClose a else pure ()

/-- The `shared_ptr` that a map assignment overwrote. -/
def dropOld : Option DevId → LockProc Unit
  | none => pure ()
  | some a => dropShared a

/-- `find_camera_device_by_sn`. -/
def findCameraDeviceBySn (sn : Key) : LockProc (Option DevId) :=
  guarded .camerasList do
    let S ← Proc.get
    match S.provider.cameras_list_.lookup sn with
    | none => pure none
    | some a => do
      let down ← isShutdown a
      if down then do
        onProvider (Proc.modify fun P => { P with cameras_list_ := P.cameras_list_.erase sn })
        dropShared a
        pure none
      else do
        Proc.modify fun S => S.copyRef a
        pure (some a)

/-- `add_camera_device`, with its parameter passed by value. -/
def addCameraDevice (sn : Key) (a : DevId) : LockProc Unit := do
  Proc.modify fun S => S.copyRef a
  guarded .camerasList do
    let S ← Proc.get
    let old := S.provider.cameras_list_.lookup sn
    Proc.modify fun S => S.copyRef a
    onProvider (Proc.modify fun P => { P with cameras_list_ := P.cameras_list_.insert sn a })
    dropOld old
  dropShared a

/-- `find_camera_info_by_sn`. -/
def findCameraInfoBySn (sn : Key) : LockProc (Option RecordPtr) :=
  guarded .cameraInfoList (onProvider (Provider.findCameraInfoBySn sn))

/-- `enum_all_cameras_info`. -/
def enumAllCamerasInfo : LockProc Ret :=
  guarded .cameraInfoList (onProvider Provider.enumAllCamerasInfo)

/-- `std::make_shared<CameraDevice>()`. -/
def makeShared : LockProc DevId := do
  let a ← onProvider makeDevice
  Proc.modify fun S => S.copyRef a
  pure a

end Locking

/-- The next section of a request, lock by lock. -/
def segment : Pc → LockProc Pc
  | .arrive (.getImage sn _shape) => do
    let (_, data) ← Shared.onProvider (Buff.empty.ensureSize defaultImageSize)
    pure (.lookup (toUpper sn) data)
  | .arrive (.closeCamera sn) => do
    match ← Locking.findCameraDeviceBySn sn.text with
    | none => pure .closed
    | some a => pure (.closing a)
  | .arrive .getCameraMetas => do
    let ret ← Locking.enumAllCamerasInfo
    pure (if ret ≠ .ok then .listed ⟨ret, .ok, []⟩ [] else .convert 0 [] [])
  | .lookup sn data => do
    match ← Locking.findCameraDeviceBySn sn with
    | some a => pure (.take a data)
    | none => pure (.findInfo sn data)
  | .findInfo sn data => do
    match ← Locking.findCameraInfoBySn sn with
    | none => pure (.replied (imageReply (.err .failure) data))
    | some info => pure (.create sn info data)
  | .create sn info data => do
    let a ← Locking.makeShared
    let ret ← Locking.start a info
    pure (if ret ≠ .ok then .abandon a data else .publish sn a data)
  | .abandon a data => do
    Locking.dropShared a
    pure (.replied (imageReply (.err .failure) data))
  | .publish sn a data => do
    Locking.addCameraDevice sn a
    pure (.take a data)
  | .take a data => do
    let (ret, data) ← Locking.takePicture a data
    pure (.leave a ret data)
  | .leave a ret data => do
    Locking.dropShared a
    pure (.replied (imageReply ret data))
  | .closing a => do
    Locking.stopAndClose a
    pure (.closeLeave a)
  | .closeLeave a => do
    Locking.dropShared a
    pure .closed
  | .convert i infos epochs => do
    let S ← Proc.get
    pure (convertStep S.provider.camera_info_list_ i infos epochs)
  | pc => pure pc

/-- A request that goes from lock to lock. -/
abbrev LockTask : Type := Task sdk Mutex Shared Pc

/-- The requests and what they share. -/
abbrev LockSystem : Type := Pool Shared LockTask

/-- The steps of the requests. -/
abbrev LockStep : LockSystem → ℕ × Option SdkEvent → LockSystem → Prop :=
  Pool.Step (lockAct segment Pc.finished)

/-- The system with requests that have just arrived, the cameras having been enumerated. -/
def arrived (list : InfoList) (reqs : List Request) : LockSystem :=
  launch ⟨{ Provider.new with camera_info_list_ := list }, fun _ => 0⟩ (reqs.map Pc.arrive)

/-! ## The order of the locks -/

/-- `lock_cameras_list_` comes before the devices. -/
def Mutex.rank : Mutex → ℕ
  | .cameraInfoList | .camerasList => 0
  | .device _ => 1

namespace Locking

variable {H : List Mutex} {a : DevId} {sn : Key}

/-- No device is locked yet. -/
def NoDevice (H : List Mutex) : Prop := ∀ m ∈ H, m.rank < 1

theorem onProvider_disciplined {α : Type} (p : ProviderProc α) :
    Disciplined Mutex.rank H (Shared.onProvider p) H := disciplined_lift _

theorem stopAndClose_disciplined (hH : NoDevice H) :
    Disciplined Mutex.rank H (stopAndClose a) H :=
  .guarded hH (onProvider_disciplined _)

theorem isShutdown_disciplined (hH : NoDevice H) : Disciplined Mutex.rank H (isShutdown a) H :=
  .guarded hH (disciplined_get.bind fun _ => disciplined_pure)

/-- Destroying a `shared_ptr` may lock the device. -/
theorem dropShared_disciplined (hH : NoDevice H) : Disciplined Mutex.rank H (dropShared a) H := by
  refine disciplined_yield.bind fun _ => disciplined_modify.bind fun _ =>
    disciplined_get.bind fun S => ?_
  split
  · exact stopAndClose_disciplined hH
  · exact disciplined_pure

theorem noDevice_nil : NoDevice [] := by simp [NoDevice]

theorem noDevice_camerasList : NoDevice [.camerasList] := by simp [NoDevice, Mutex.rank]

/-- **`find_camera_device_by_sn`** locks devices under `lock_cameras_list_`. -/
theorem findCameraDeviceBySn_disciplined :
    Disciplined Mutex.rank [] (findCameraDeviceBySn sn) [] := by
  refine .guarded (by simp) (disciplined_get.bind fun S => ?_)
  split
  · exact disciplined_pure
  · refine (isShutdown_disciplined noDevice_camerasList).bind fun down => ?_
    split
    · exact (onProvider_disciplined _).bind fun _ =>
        (dropShared_disciplined noDevice_camerasList).bind fun _ => disciplined_pure
    · exact disciplined_modify.bind fun _ => disciplined_pure

/-- **`add_camera_device`** too, when it overwrites the last reference to a device. -/
theorem addCameraDevice_disciplined : Disciplined Mutex.rank [] (addCameraDevice sn a) [] := by
  have hold : ∀ old, Disciplined Mutex.rank [.camerasList] (dropOld old) [.camerasList] := by
    intro old
    cases old with
    | none => exact disciplined_pure
    | some b => exact dropShared_disciplined noDevice_camerasList
  have hassign : Disciplined Mutex.rank [] (guarded .camerasList do
      let S ← Proc.get
      let old := S.provider.cameras_list_.lookup sn
      Proc.modify fun S => S.copyRef a
      Shared.onProvider (Proc.modify fun P =>
        { P with cameras_list_ := P.cameras_list_.insert sn a })
      dropOld old) [] :=
    .guarded (by simp) (disciplined_get.bind fun S => disciplined_modify.bind fun _ =>
      (onProvider_disciplined _).bind fun _ => hold _)
  exact disciplined_modify.bind fun _ => hassign.bind fun _ => dropShared_disciplined noDevice_nil

end Locking

open Locking in
/-- **Every section locks in the order of the ranks**, and ends without a lock. -/
theorem segment_disciplined (pc : Pc) : Disciplined Mutex.rank [] (segment pc) [] := by
  cases pc with
  | arrive r =>
      cases r with
      | getImage sn shape => exact (onProvider_disciplined _).bind fun _ => disciplined_pure
      | closeCamera sn =>
          refine findCameraDeviceBySn_disciplined.bind fun x => ?_
          cases x with
          | none => exact disciplined_pure
          | some a => exact disciplined_pure
      | getCameraMetas =>
          have henum : Disciplined Mutex.rank [] enumAllCamerasInfo [] :=
            .guarded (by simp) (onProvider_disciplined _)
          exact henum.bind fun _ => disciplined_pure
  | lookup sn data =>
      refine findCameraDeviceBySn_disciplined.bind fun x => ?_
      cases x with
      | none => exact disciplined_pure
      | some a => exact disciplined_pure
  | findInfo sn data =>
      have hfind : Disciplined Mutex.rank [] (findCameraInfoBySn sn) [] :=
        .guarded (by simp) (onProvider_disciplined _)
      refine hfind.bind fun x => ?_
      cases x with
      | none => exact disciplined_pure
      | some info => exact disciplined_pure
  | create sn info data =>
      have hmake : Disciplined Mutex.rank [] makeShared [] :=
        (onProvider_disciplined _).bind fun _ => disciplined_modify.bind fun _ => disciplined_pure
      have hstart : ∀ a, Disciplined Mutex.rank [] (Locking.start a info) [] := fun a =>
        .guarded (by simp) ((onProvider_disciplined _).bind fun _ => onProvider_disciplined _)
      exact hmake.bind fun a => (hstart a).bind fun _ => disciplined_pure
  | abandon a data => exact (dropShared_disciplined noDevice_nil).bind fun _ => disciplined_pure
  | publish sn a data => exact addCameraDevice_disciplined.bind fun _ => disciplined_pure
  | take a data =>
      have htake : Disciplined Mutex.rank [] (takePicture a data) [] :=
        .guarded (by simp) (onProvider_disciplined _)
      exact htake.bind fun _ => disciplined_pure
  | leave a ret data => exact (dropShared_disciplined noDevice_nil).bind fun _ => disciplined_pure
  | replied reply => exact disciplined_pure
  | closing a => exact (stopAndClose_disciplined noDevice_nil).bind fun _ => disciplined_pure
  | closeLeave a => exact (dropShared_disciplined noDevice_nil).bind fun _ => disciplined_pure
  | closed => exact disciplined_pure
  | convert i infos epochs => exact disciplined_get.bind fun _ => disciplined_pure
  | listed reply epochs => exact disciplined_pure

/-- Of two lookups the first has locked `lock_cameras_list_`, and the second waits for it. -/
theorem exists_waitsFor (sn sn' : CharArray) : ∃ p, Transition.Reachable LockStep
    (arrived ⟨0, []⟩ [.closeCamera sn, .closeCamera sn']) p ∧ WaitsFor p 1 0 := by
  have harrived : ∀ u ∈ [(⟨[], .at (.arrive (.closeCamera sn'))⟩ : LockTask)],
      ¬ u.Faulted ∧ Mutex.camerasList ∉ u.held := by
    intro u hu
    obtain rfl := List.mem_singleton.mp hu
    refine ⟨?_, List.not_mem_nil⟩
    rintro ⟨f, hf⟩
    cases hf
  have hentered : Transition.Reachable LockStep _ _ :=
    .single ⟨(0, none), .mk (p := arrived ⟨0, []⟩ [.closeCamera sn, .closeCamera sn']) rfl
      ⟨fun u hu => (harrived u hu).1, .enter rfl⟩⟩
  have hlocked : Transition.Reachable LockStep _ _ :=
    Relation.ReflTransGen.tail hentered ⟨(0, none), .mk rfl
      ⟨fun u hu => (harrived u hu).1, .lock (fun u hu => (harrived u hu).2) List.not_mem_nil⟩⟩
  refine ⟨_, Relation.ReflTransGen.tail hlocked
    ⟨(1, none), .mk rfl ⟨fun u hu => ?_, .enter rfl⟩⟩, ?_⟩
  · obtain rfl := List.mem_singleton.mp hu
    rintro ⟨f, hf⟩
    cases hf
  · exact ⟨_, _, .camerasList, rfl, rfl, rfl, List.mem_singleton.mpr rfl⟩

/-- **There is no deadlock**, however many requests there are and in whatever order they take
their steps, every SDK call returning.  In every state that is reached the wait-for graph has
no cycle, and nobody waits for a mutex that he holds himself.  Unless a failed assertion has
ended the process, somebody can take a step as long as some request is unfinished. -/
theorem no_deadlock {list : InfoList} {reqs : List Request} {p : LockSystem}
    (hr : Transition.Reachable LockStep (arrived list reqs) p) :
    (∀ i, ¬ Relation.TransGen (WaitsFor p) i i) ∧
      (∀ t ∈ p.threads, ∀ m, t.requests = some m → m ∉ t.held) ∧
      ((∃ t ∈ p.threads, t.Faulted) ∨ (∀ t ∈ p.threads, ¬ t.Unfinished Pc.finished) ∨
        ∃ l p', LockStep p l p') := by
  have hp := orderly_of_reachable segment_disciplined hr
  refine ⟨acyclic_of_orderly hp, fun t ht m hm hheld => ?_, ?_⟩
  · exact absurd (rank_lt_of_requests (hp t ht) hm hheld) (Nat.lt_irrefl _)
  · by_cases hfault : ∃ t ∈ p.threads, t.Faulted
    · exact Or.inl hfault
    · by_cases hdone : ∀ t ∈ p.threads, ¬ t.Unfinished Pc.finished
      · exact Or.inr (Or.inl hdone)
      · push Not at hdone hfault
        obtain ⟨t, ht, hu⟩ := hdone
        exact Or.inr (Or.inr (progress_of_orderly (fun op => ⟨obliging 0 op⟩) hp hfault ht hu))

/-- It holds where a request waits for another. -/
theorem no_deadlock_contended : ∃ p : LockSystem, WaitsFor p 1 0 ∧
    (∀ i, ¬ Relation.TransGen (WaitsFor p) i i) ∧
      (∀ t ∈ p.threads, ∀ m, t.requests = some m → m ∉ t.held) ∧
      ((∃ t ∈ p.threads, t.Faulted) ∨ (∀ t ∈ p.threads, ¬ t.Unfinished Pc.finished) ∨
        ∃ l p', LockStep p l p') := by
  obtain ⟨p, hr, hw⟩ := exists_waitsFor (.ofString [48]) (.ofString [49])
  exact ⟨p, hw, no_deadlock hr⟩

end CameraService
