import CameraService.Ownership
import CameraService.ProviderSpec

/-!
# The provider, one request at a time

For a client that sends its requests one after the other the provider is a table: each
key has no device, a device that was shut down, or a running one.  A picture for one key
reads and writes the entry of that key and nothing else.  `Pictured` says what it does
there, and the provider does just that.

## Main definitions

* `ProviderCall`, `serve` — the requests of a client.
* `Provider.entry` — the table.
* `Provider.Sound` — the invariant that makes it one.
* `Pictured` — a picture, as an operation on one entry.
* `pictured_of_runs`, `runs_of_pictured` — the provider does just that.
* `findOrCreate_obtained` — what `find_or_create_camera_device` leaves.
-/

namespace CameraService

open Interaction Provider

/-! ## Requests in turn -/

/-- A call of a public member of `CameraServiceProvider`. -/
inductive ProviderCall
  | takePicture (sn : Bytes) (param : Option ImageParameter) (data_ : Buff)
  | enumAllCameras
  | closeCamera (sn : CharArray)

/-- The call, without its result. -/
def ProviderCall.run : ProviderCall → ProviderProc Unit
  | .takePicture sn param data_ => do
    let _ ← Provider.takePicture nobody sn param data_
    pure ()
  | .enumAllCameras => do
    let _ ← Provider.enumAllCameras
    pure ()
  | .closeCamera sn => Provider.closeCamera nobody sn

/-- The calls in turn. -/
def serve : List ProviderCall → ProviderProc Unit
  | [] => pure ()
  | call :: calls => do
    call.run
    serve calls

namespace Provider

variable {P P' : Provider} {a b : DevId} {k k' : Key} {tr : SdkTrace} {r : Ret}
  {x : Option DevId} {sn : Bytes}

/-- The device that the map holds for a key. -/
def entry (P : Provider) (k : Key) : Option CameraDevice :=
  (P.cameras_list_.lookup k).map P.heap

/-- The invariant between two requests. -/
structure Sound (P : Provider) : Prop where
  /-- The devices of the map were made. -/
  made : ∀ k a, P.cameras_list_.lookup k = some a → a < P.next
  /-- They are running, or were shut down. -/
  settled : ∀ k a, P.cameras_list_.lookup k = some a → (P.heap a).Settled
  /-- No device has two keys. -/
  apart : ∀ k k' a, P.cameras_list_.lookup k = some a → P.cameras_list_.lookup k' = some a → k = k'
  /-- The keys are upper-cased. -/
  upper : ∀ k a, P.cameras_list_.lookup k = some a → toUpper k = k

theorem sound_new : Sound new where
  made := by simp [new]
  settled := by simp [new]
  apart := by simp [new]
  upper := by simp [new]

/-- The state without the entry of a key. -/
def without (P : Provider) (k : Key) : Provider :=
  { P with cameras_list_ := P.cameras_list_.erase k }

theorem Sound.without (hs : P.Sound) (k : Key) : (P.without k).Sound where
  made := fun k' a h => hs.made k' a (lookup_erase_eq_some.mp h).2
  settled := fun k' a h => hs.settled k' a (lookup_erase_eq_some.mp h).2
  apart := fun k₁ k₂ a h₁ h₂ =>
    hs.apart k₁ k₂ a (lookup_erase_eq_some.mp h₁).2 (lookup_erase_eq_some.mp h₂).2
  upper := fun k' a h => hs.upper k' a (lookup_erase_eq_some.mp h).2

@[simp] theorem entry_without_self : (P.without k).entry k = none := by
  simp [entry, Provider.without]

theorem entry_without (h : k' ≠ k) : (P.without k).entry k' = P.entry k' := by
  simp [entry, Provider.without, AList.lookup_erase_ne h]

theorem without_of_none (h : P.cameras_list_.lookup k = none) : P.without k = P := by
  have hk : k ∉ P.cameras_list_.keys := by
    rw [← AList.mem_keys]
    exact AList.lookup_eq_none.mp h
  have hentries : (P.cameras_list_.erase k).entries = P.cameras_list_.entries :=
    List.kerase_of_notMem_keys hk
  rw [Provider.without, AList.ext hentries]

/-- There is a running device. -/
def Usable (e : Option CameraDevice) : Prop := ∃ d, e = some d ∧ d.Running

theorem usable_entry : Usable (P.entry k) ↔
    ∃ a, P.cameras_list_.lookup k = some a ∧ (P.heap a).Running := by
  unfold Usable Provider.entry
  cases P.cameras_list_.lookup k with
  | none => simp
  | some a => simp

/-- Nothing is left to shut down in a device that was shut down. -/
theorem runs_release_closed (ha : (P.heap a).Closed) :
    Runs (release nobody a) P tr P' () ↔ tr = [] ∧ P' = P := by
  simp only [release, runs_get_bind]
  split
  · simp
  · rw [runs_onDevice]
    constructor
    · rintro ⟨d, hd, rfl⟩
      obtain ⟨rfl, rfl⟩ := (CameraDevice.runs_stopAndClose_closed ha).mp hd
      exact ⟨rfl, (deviceAt a).set_get P⟩
    · rintro ⟨rfl, rfl⟩
      exact ⟨P'.heap a, (CameraDevice.runs_stopAndClose_closed ha).mpr ⟨rfl, rfl⟩,
        ((deviceAt a).set_get P').symm⟩

/-- **`find_camera_device_by_sn`** returns a running device, or leaves no entry. -/
theorem runs_find_iff (hs : P.Sound) : Runs (findCameraDeviceBySn nobody k) P tr P' x ↔
    tr = [] ∧ ((∃ a, P.cameras_list_.lookup k = some a ∧ (P.heap a).Running ∧ x = some a ∧ P' = P) ∨
      (¬ Usable (P.entry k) ∧ x = none ∧ P' = P.without k)) := by
  rw [usable_entry]
  simp only [findCameraDeviceBySn, runs_get_bind]
  cases hl : P.cameras_list_.lookup k with
  | none => simp [without_of_none hl, and_comm]
  | some a =>
      rcases hs.settled k a hl with ha | ha
      · simp [ha.not_isShutdown, ha, and_comm]
      · have hn : ¬ (P.heap a).Running := fun h => h.not_closed ha
        have ha' : ((P.without k).heap a).Closed := ha
        simp only [ha.isShutdown, if_true, runs_modify_bind, Option.some.injEq, exists_eq_left', hn,
          false_and, not_false_eq_true, true_and, false_or]
        rw [runs_bind]
        constructor
        · rintro ⟨t₁, P₁, u, t₂, rfl, h₁, h₂⟩
          obtain ⟨rfl, rfl⟩ := (runs_release_closed ha').mp h₁
          obtain ⟨rfl, rfl, rfl⟩ := runs_pure.mp h₂
          exact ⟨rfl, rfl, rfl⟩
        · rintro ⟨rfl, rfl, rfl⟩
          exact ⟨[], P.without k, (), [], rfl, (runs_release_closed ha').mpr ⟨rfl, rfl⟩,
            runs_pure.mpr ⟨rfl, rfl, rfl⟩⟩

/-- A device is made and started for the record. -/
theorem runs_createDevice_iff {info : RecordPtr} {i : DeviceInfo}
    (hi : P.camera_info_list_.deref info = some i) :
    Runs (createDevice info) P tr P' (r, a) ↔
      a = P.next ∧ ∃ d, Runs (CameraDevice.start (some i)) .new tr d r ∧ P' = P.withDevice d := by
  constructor
  · intro h
    obtain ⟨ha, j, d, t₁, t₂, rfl, ⟨hj, rfl⟩ | ⟨hj, -⟩, hd, hP⟩ := createDevice_spec h
    · rw [hi] at hj
      cases hj
      exact ⟨ha, d, hd, hP⟩
    · rw [hi] at hj
      cases hj
  · rintro ⟨rfl, d, hd, rfl⟩
    simp only [createDevice, makeDevice, bind_assoc, runs_get_bind, runs_modify_bind, pure_bind,
      readRecord, hi]
    rw [runs_bind]
    refine ⟨tr, P.withDevice d, r, [], by simp, runs_onDevice.mpr ⟨d, ?_, ?_⟩, ?_⟩
    · simpa using hd
    · simp [withDevice, deviceAt]
    · exact runs_pure.mpr ⟨rfl, rfl, rfl⟩

/-- The state with a new device under a key. -/
def opened (P : Provider) (k : Key) (d : CameraDevice) : Provider :=
  { P.withDevice d with cameras_list_ := P.cameras_list_.insert k P.next }

/-- **`find_or_create_camera_device` after a fruitless lookup**: there is no record, or
the start fails and the destructor ends what it has begun, or the device is published. -/
theorem runs_createCameraDevice_iff (hs : P.Sound) (hk : P.cameras_list_.lookup k = none) :
    Runs (createCameraDevice nobody k) P tr P' x ↔
      (P.camera_info_list_.findCameraInfoBySn (.ofString k) = none ∧ tr = [] ∧ x = none ∧ P' = P) ∨
      ∃ p i t₁ d r, P.camera_info_list_.findCameraInfoBySn (.ofString k) = some p ∧
        P.camera_info_list_.deref p = some i ∧ Runs (CameraDevice.start (some i)) .new t₁ d r ∧
        ((r ≠ .ok ∧ x = none ∧ ∃ t₂ d', tr = t₁ ++ t₂ ∧ Runs CameraDevice.stopAndClose d t₂ d' () ∧
            P' = P.withDevice d') ∨
          (r = .ok ∧ tr = t₁ ∧ x = some P.next ∧ P' = P.opened k d)) := by
  simp only [createCameraDevice, findCameraInfoBySn, bind_assoc, runs_get_bind, pure_bind]
  cases hf : P.camera_info_list_.findCameraInfoBySn (.ofString k) with
  | none => simp [and_comm]
  | some p =>
      obtain ⟨-, i, hi, -⟩ := InfoList.deref_of_find hf
      have hfree : ∀ d, ¬ (nobody P.next = true ∨ (P.withDevice d).Published P.next) := by
        rintro d (hheld | hpub)
        · cases hheld
        · obtain ⟨k', hk'⟩ := published_iff.mp hpub
          exact absurd (hs.made k' _ hk') (by simp)
      have hold : ∀ d, (P.withDevice d).cameras_list_.lookup k = none := fun _ => hk
      have hshut : ∀ {d t P'}, Runs (release nobody P.next) (P.withDevice d) t P' () ↔
          ∃ d', Runs CameraDevice.stopAndClose d t d' () ∧ P' = P.withDevice d' := by
        intro d t P'
        simp only [release, runs_get_bind, hfree, if_false, runs_onDevice]
        simp [withDevice, deviceAt]
      have hadd : ∀ {d t P'}, Runs (addCameraDevice nobody k P.next) (P.withDevice d) t P' () ↔
          t = [] ∧ P' = P.opened k d := by
        intro d t P'
        simp only [addCameraDevice, runs_get_bind, runs_modify_bind, hold, releaseOld, runs_pure,
          and_true]
        rfl
      simp only [reduceCtorEq, false_and, false_or, Option.some.injEq]
      rw [runs_bind]
      constructor
      · rintro ⟨t₁, P₁, ⟨r, a⟩, t₂, rfl, h₁, h₂⟩
        obtain ⟨rfl, d, hd, rfl⟩ := (runs_createDevice_iff hi).mp h₁
        refine ⟨p, i, t₁, d, r, rfl, hi, hd, ?_⟩
        split at h₂
        · rename_i hr
          obtain ⟨t₃, P₃, u, t₄, rfl, h₃, h₄⟩ := runs_bind.mp h₂
          obtain ⟨rfl, rfl, rfl⟩ := runs_pure.mp h₄
          obtain ⟨d', hd', rfl⟩ := hshut.mp h₃
          exact Or.inl ⟨hr, rfl, t₃, d', by simp, hd', rfl⟩
        · rename_i hr
          obtain ⟨t₃, P₃, u, t₄, rfl, h₃, h₄⟩ := runs_bind.mp h₂
          obtain ⟨rfl, rfl, rfl⟩ := runs_pure.mp h₄
          obtain ⟨rfl, rfl⟩ := hadd.mp h₃
          exact Or.inr ⟨by simpa using hr, by simp, rfl, rfl⟩
      · rintro ⟨_, j, t₁, d, r, rfl, hj, hd, hcases⟩
        obtain rfl := Option.some.inj (hi.symm.trans hj)
        rcases hcases with ⟨hr, rfl, t₂, d', rfl, hd', rfl⟩ | ⟨rfl, rfl, rfl, rfl⟩
        · refine ⟨t₁, P.withDevice d, (r, P.next), t₂, rfl,
            (runs_createDevice_iff hi).mpr ⟨rfl, d, hd, rfl⟩, ?_⟩
          simp only [hr, ne_eq, not_false_eq_true, if_true]
          exact runs_bind.mpr ⟨t₂, P.withDevice d', (), [], by simp, hshut.mpr ⟨d', hd', rfl⟩,
            runs_pure.mpr ⟨rfl, rfl, rfl⟩⟩
        · refine ⟨tr, P.withDevice d, (.ok, P.next), [], by simp,
            (runs_createDevice_iff hi).mpr ⟨rfl, d, hd, rfl⟩, ?_⟩
          simp only [ne_eq, not_true_eq_false, if_false]
          exact runs_bind.mpr ⟨[], P.opened k d, (), [], rfl, hadd.mpr ⟨rfl, rfl⟩,
            runs_pure.mpr ⟨rfl, rfl, rfl⟩⟩

/-- What follows `find_camera_device_by_sn` has the running device, or no entry. -/
theorem runs_find_bind {α : Type} {p : Option DevId → Proc sdk Provider α} {y : α}
    (hs : P.Sound) : Runs (findCameraDeviceBySn nobody k >>= p) P tr P' y ↔
      (∃ a, P.cameras_list_.lookup k = some a ∧ (P.heap a).Running ∧
        Runs (p (some a)) P tr P' y) ∨
      (¬ Usable (P.entry k) ∧ Runs (p none) (P.without k) tr P' y) := by
  rw [runs_bind]
  constructor
  · rintro ⟨t₁, P₁, x, t₂, rfl, h₁, h₂⟩
    obtain ⟨rfl, ⟨a, hl, ha, rfl, rfl⟩ | ⟨hn, rfl, rfl⟩⟩ := (runs_find_iff hs).mp h₁
    · exact Or.inl ⟨a, hl, ha, h₂⟩
    · exact Or.inr ⟨hn, h₂⟩
  · rintro (⟨a, hl, ha, h⟩ | ⟨hn, h⟩)
    · exact ⟨[], P, some a, tr, rfl,
        (runs_find_iff hs).mpr ⟨rfl, Or.inl ⟨a, hl, ha, rfl, rfl⟩⟩, h⟩
    · exact ⟨[], P.without k, none, tr, rfl,
        (runs_find_iff hs).mpr ⟨rfl, Or.inr ⟨hn, rfl, rfl⟩⟩, h⟩

/-- **`find_or_create_camera_device`** returns the running device, or makes one. -/
theorem runs_findOrCreate_iff (hs : P.Sound) :
    Runs (findOrCreateCameraDevice nobody sn) P tr P' x ↔
      (∃ a, P.cameras_list_.lookup (toUpper sn) = some a ∧ (P.heap a).Running ∧ x = some a ∧
        P' = P ∧ tr = []) ∨
      (¬ Usable (P.entry (toUpper sn)) ∧
        Runs (createCameraDevice nobody (toUpper sn)) (P.without (toUpper sn)) tr P' x) := by
  simp only [findOrCreateCameraDevice]
  rw [runs_find_bind hs]
  apply or_congr_left
  apply exists_congr
  intro a
  rw [runs_pure]
  constructor
  · rintro ⟨hl, ha, rfl, rfl, rfl⟩
    exact ⟨hl, ha, rfl, rfl, rfl⟩
  · rintro ⟨hl, ha, rfl, rfl, rfl⟩
    exact ⟨hl, ha, rfl, rfl, rfl⟩

/-! ## The table -/

section Table
variable {d : CameraDevice}

theorem Sound.withDevice (hs : P.Sound) (d : CameraDevice) : (P.withDevice d).Sound where
  made := fun k a h => Nat.lt_succ_of_lt (hs.made k a h)
  settled := by
    intro k a h
    have ha : a ≠ P.next := Nat.ne_of_lt (hs.made k a h)
    simpa [Provider.withDevice, ha] using hs.settled k a h
  apart := hs.apart
  upper := hs.upper

theorem Sound.opened (hs : P.Sound) (hd : d.Settled) (hk : toUpper k = k) :
    (P.opened k d).Sound where
  made := by
    intro k' a h
    rcases lookup_insert_eq_some.mp h with ⟨-, rfl⟩ | ⟨-, h⟩
    · exact Nat.lt_succ_self _
    · exact Nat.lt_succ_of_lt (hs.made k' a h)
  settled := by
    intro k' a h
    rcases lookup_insert_eq_some.mp h with ⟨-, rfl⟩ | ⟨-, h⟩
    · simpa [Provider.opened, Provider.withDevice] using hd
    · exact (hs.withDevice d).settled k' a h
  apart := by
    intro k₁ k₂ a h₁ h₂
    rcases lookup_insert_eq_some.mp h₁ with ⟨rfl, rfl⟩ | ⟨-, hold₁⟩
    · rcases lookup_insert_eq_some.mp h₂ with ⟨rfl, -⟩ | ⟨-, hold₂⟩
      · rfl
      · exact absurd (hs.made _ _ hold₂) (Nat.lt_irrefl _)
    · rcases lookup_insert_eq_some.mp h₂ with ⟨rfl, rfl⟩ | ⟨-, hold₂⟩
      · exact absurd (hs.made _ _ hold₁) (Nat.lt_irrefl _)
      · exact hs.apart _ _ _ hold₁ hold₂
  upper := by
    intro k' a h
    rcases lookup_insert_eq_some.mp h with ⟨rfl, -⟩ | ⟨-, h⟩
    · exact hk
    · exact hs.upper k' a h

theorem Sound.set (hs : P.Sound) (hd : d.Settled) : ((deviceAt a).set d P).Sound where
  made := hs.made
  settled := by
    intro k b h
    by_cases hb : b = a
    · subst hb
      simpa using hd
    · simpa [hb] using hs.settled k b h
  apart := hs.apart
  upper := hs.upper

theorem entry_of_lookup (h : P.cameras_list_.lookup k = some a) : P.entry k = some (P.heap a) := by
  simp [entry, h]

theorem entry_withDevice (hs : P.Sound) : (P.withDevice d).entry k = P.entry k := by
  unfold Provider.entry Provider.withDevice
  cases hl : P.cameras_list_.lookup k with
  | none => simp
  | some a =>
      have ha : a ≠ P.next := Nat.ne_of_lt (hs.made k a hl)
      simp [ha]

theorem entry_opened (hs : P.Sound) (hk : k' ≠ k) : (P.opened k d).entry k' = P.entry k' := by
  rw [← entry_withDevice hs (d := d)]
  simp [entry, Provider.opened, AList.lookup_insert_ne hk, Provider.withDevice]

theorem entry_set_self (h : P.cameras_list_.lookup k = some a) :
    ((deviceAt a).set d P).entry k = some d := by
  simp [entry, deviceAt, h]

theorem entry_set (hs : P.Sound) (h : P.cameras_list_.lookup k = some a) (hk : k' ≠ k) :
    ((deviceAt a).set d P).entry k' = P.entry k' := by
  unfold Provider.entry
  cases hl : P.cameras_list_.lookup k' with
  | none => simp [deviceAt, hl]
  | some b =>
      have hb : b ≠ a := by
        rintro rfl
        exact hk (hs.apart _ _ _ hl h)
      simp [deviceAt, hl, hb]

end Table

end Provider

/-! ## A picture on one entry -/

/-- A picture as an operation on the entry of its key: what it finds there, its calls,
what it leaves there, and its result. -/
inductive Pictured (l : InfoList) (k : Key) (param : Option ImageParameter) (data_ : Buff) :
    Option CameraDevice → SdkTrace → Option CameraDevice → Ret × Buff → Prop
  /-- A running device is used. -/
  | hit {d d' : CameraDevice} {tr : SdkTrace} {res : Ret × Buff} (hd : d.Running)
      (h : Runs (CameraDevice.takePicture param data_) d tr d' res) :
      Pictured l k param data_ (some d) tr (some d') res
  /-- There is none, and no record of the camera. -/
  | unknown {e : Option CameraDevice} (he : ¬ Usable e)
      (hl : l.findCameraInfoBySn (.ofString k) = none) :
      Pictured l k param data_ e [] none (.err .failure, data_)
  /-- The camera of the record cannot be started. -/
  | failed {e : Option CameraDevice} {p : RecordPtr} {i : DeviceInfo} {d d' : CameraDevice}
      {t₁ t₂ : SdkTrace} {r : Ret} (he : ¬ Usable e)
      (hl : l.findCameraInfoBySn (.ofString k) = some p) (hi : l.deref p = some i)
      (h₁ : Runs (CameraDevice.start (some i)) .new t₁ d r) (hr : r ≠ .ok)
      (h₂ : Runs CameraDevice.stopAndClose d t₂ d' ()) :
      Pictured l k param data_ e (t₁ ++ t₂) none (.err .failure, data_)
  /-- The camera of the record is started, and used. -/
  | opened {e : Option CameraDevice} {p : RecordPtr} {i : DeviceInfo} {d d' : CameraDevice}
      {t₁ t₂ : SdkTrace} {res : Ret × Buff} (he : ¬ Usable e)
      (hl : l.findCameraInfoBySn (.ofString k) = some p) (hi : l.deref p = some i)
      (h₁ : Runs (CameraDevice.start (some i)) .new t₁ d .ok)
      (h₂ : Runs (CameraDevice.takePicture param data_) d t₂ d' res) :
      Pictured l k param data_ e (t₁ ++ t₂) (some d') res

section Refinement
variable {P P' : Provider} {a : DevId} {k : Key} {tr : SdkTrace} {res : Ret × Buff} {sn : Bytes}
  {param : Option ImageParameter} {data_ : Buff} {e' : Option CameraDevice}

/-- What is left is the same table, but for one entry. -/
structure Provider.Only (k : Key) (P P' : Provider) : Prop where
  sound : P'.Sound
  info : P'.camera_info_list_ = P.camera_info_list_
  others : ∀ k', k' ≠ k → P'.entry k' = P.entry k'

/-- A device of the map is kept when a request gives up its reference. -/
theorem runs_release_set {d : CameraDevice} (hk : P.cameras_list_.lookup k = some a) :
    Runs (release nobody a) ((deviceAt a).set d P) tr P' () ↔
      tr = [] ∧ P' = (deviceAt a).set d P := by
  have hpub : ((deviceAt a).set d P).Published a := published_iff.mpr ⟨k, hk⟩
  simp [release, hpub]

/-- A picture on a device of the map. -/
theorem runs_onEntry_iff (hk : P.cameras_list_.lookup k = some a) :
    Runs (onDevice a (CameraDevice.takePicture param data_) >>= fun result => do
        release nobody a
        pure result) P tr P' res ↔
      ∃ d, Runs (CameraDevice.takePicture param data_) (P.heap a) tr d res ∧
        P' = (deviceAt a).set d P := by
  rw [runs_bind]
  constructor
  · rintro ⟨t₁, P₁, res, t₂, rfl, h₁, h₂⟩
    obtain ⟨d, hd, rfl⟩ := runs_onDevice.mp h₁
    obtain ⟨t₃, P₃, u, t₄, rfl, h₃, h₄⟩ := runs_bind.mp h₂
    obtain ⟨rfl, rfl⟩ := (runs_release_set hk).mp h₃
    obtain ⟨rfl, rfl, rfl⟩ := runs_pure.mp h₄
    exact ⟨d, by simpa using hd, rfl⟩
  · rintro ⟨d, hd, rfl⟩
    exact ⟨tr, (deviceAt a).set d P, res, [], by simp, runs_onDevice.mpr ⟨d, hd, rfl⟩,
      runs_bind.mpr ⟨[], (deviceAt a).set d P, (), [], rfl,
        (runs_release_set hk).mpr ⟨rfl, rfl⟩, runs_pure.mpr ⟨rfl, rfl, rfl⟩⟩⟩

/-- A picture leaves its device running or shut down. -/
theorem settled_of_takePicture {d d' : CameraDevice}
    (h : Runs (CameraDevice.takePicture param data_) d tr d' res) : d'.Settled := by
  rcases (CameraDevice.takePicture_spec h).2 with ⟨-, hd, -⟩ | ⟨-, hd⟩
  · exact Or.inr hd
  · exact Or.inl hd

theorem running_of_start {i : DeviceInfo} {d : CameraDevice}
    (h : Runs (CameraDevice.start (some i)) .new tr d .ok) : d.Running := by
  rcases CameraDevice.start_spec (Or.inl CameraDevice.closed_new) h with ⟨-, hd⟩ | ⟨hbad, -⟩
  · exact hd
  · exact absurd rfl hbad

theorem Provider.Only.set {d : CameraDevice} (hs : P.Sound) (hl : P.cameras_list_.lookup k = some a)
    (hd : d.Settled) : P.Only k ((deviceAt a).set d P) :=
  ⟨hs.set hd, rfl, fun _ hk => entry_set hs hl hk⟩

theorem Provider.Only.without (hs : P.Sound) : P.Only k (P.without k) :=
  ⟨hs.without k, rfl, fun _ hk => entry_without hk⟩

theorem Provider.Only.trans {P₁ : Provider} (h₁ : P.Only k P₁) (h₂ : P₁.Only k P') : P.Only k P' :=
  ⟨h₂.sound, h₂.info.trans h₁.info, fun k' hk => (h₂.others k' hk).trans (h₁.others k' hk)⟩

/-- **`take_picture` does what `Pictured` says** to the entry of its key, and nothing to
the others. -/
theorem pictured_of_runs (hs : P.Sound)
    (h : Runs (Provider.takePicture nobody sn param data_) P tr P' res) :
    Pictured P.camera_info_list_ (toUpper sn) param data_ (P.entry (toUpper sn)) tr
      (P'.entry (toUpper sn)) res ∧ P.Only (toUpper sn) P' := by
  obtain ⟨t₁, P₁, x, t₂, rfl, h₁, h₂⟩ := runs_bind.mp h
  rcases (runs_findOrCreate_iff hs).mp h₁ with ⟨a, hl, ha, rfl, rfl, rfl⟩ | ⟨hn, h₁⟩
  · obtain ⟨d, hd, rfl⟩ := (runs_onEntry_iff hl).mp h₂
    rw [entry_of_lookup hl, entry_set_self hl]
    exact ⟨.hit ha hd, .set hs hl (settled_of_takePicture hd)⟩
  · have hs' := hs.without (toUpper sn)
    have honly : P.Only (toUpper sn) (P.without (toUpper sn)) := .without hs
    have hk : (P.without (toUpper sn)).cameras_list_.lookup (toUpper sn) = none := by
      simp [Provider.without]
    rcases (runs_createCameraDevice_iff hs' hk).mp h₁ with ⟨hf, rfl, rfl, rfl⟩ |
      ⟨p, i, t₃, d, r, hf, hi, hd, hcases⟩
    · obtain ⟨rfl, rfl, rfl⟩ := runs_pure.mp h₂
      rw [entry_without_self]
      exact ⟨.unknown hn hf, honly⟩
    · rcases hcases with ⟨hr, rfl, t₄, d', rfl, hd', rfl⟩ | ⟨rfl, rfl, rfl, rfl⟩
      · obtain ⟨rfl, rfl, rfl⟩ := runs_pure.mp h₂
        rw [entry_withDevice hs', entry_without_self, List.append_nil]
        exact ⟨.failed hn hf hi hd hr hd', honly.trans ⟨hs'.withDevice d', rfl,
          fun _ _ => entry_withDevice hs'⟩⟩
      · have hrun := running_of_start hd
        have hlookup : ((P.without (toUpper sn)).opened (toUpper sn) d).cameras_list_.lookup
            (toUpper sn) = some (P.without (toUpper sn)).next := by
          simp [Provider.opened]
        have hopened : (P.without (toUpper sn)).Only (toUpper sn)
            ((P.without (toUpper sn)).opened (toUpper sn) d) :=
          ⟨hs'.opened (Or.inl hrun) (toUpper_toUpper sn), rfl, fun _ hk => entry_opened hs' hk⟩
        obtain ⟨d', hd', rfl⟩ := (runs_onEntry_iff hlookup).mp h₂
        rw [entry_set_self hlookup]
        refine ⟨.opened hn hf hi hd (by simpa [Provider.opened, Provider.withDevice] using hd'), ?_⟩
        exact (honly.trans hopened).trans (.set hopened.sound hlookup (settled_of_takePicture hd'))

/-- **What `Pictured` allows the provider does**, whatever its other entries. -/
theorem runs_of_pictured (hs : P.Sound)
    (h : Pictured P.camera_info_list_ (toUpper sn) param data_ (P.entry (toUpper sn)) tr e' res) :
    ∃ P', Runs (Provider.takePicture nobody sn param data_) P tr P' res ∧
      P'.entry (toUpper sn) = e' := by
  have hs' := hs.without (toUpper sn)
  have hk : (P.without (toUpper sn)).cameras_list_.lookup (toUpper sn) = none := by
    simp [Provider.without]
  have hnone : ∀ {t P₁}, ¬ Usable (P.entry (toUpper sn)) →
      Runs (createCameraDevice nobody (toUpper sn)) (P.without (toUpper sn)) t P₁ none →
      Runs (Provider.takePicture nobody sn param data_) P t P₁ (.err .failure, data_) := by
    intro t P₁ hn h₁
    exact runs_bind.mpr ⟨t, P₁, none, [], by simp,
      (runs_findOrCreate_iff hs).mpr (Or.inr ⟨hn, h₁⟩), runs_pure.mpr ⟨rfl, rfl, rfl⟩⟩
  generalize he : P.entry (toUpper sn) = e at h
  cases h with
  | @hit d d' _ _ hd h =>
      obtain ⟨a, hl, rfl⟩ := Option.map_eq_some_iff.mp he
      refine ⟨(deviceAt a).set d' P, ?_, entry_set_self hl⟩
      exact runs_bind.mpr ⟨[], P, some a, tr, rfl,
        (runs_findOrCreate_iff hs).mpr (Or.inl ⟨a, hl, hd, rfl, rfl, rfl⟩),
        (runs_onEntry_iff hl).mpr ⟨d', h, rfl⟩⟩
  | unknown hn hl =>
      refine ⟨P.without (toUpper sn), hnone (he ▸ hn) ?_, entry_without_self⟩
      exact (runs_createCameraDevice_iff hs' hk).mpr (Or.inl ⟨hl, rfl, rfl, rfl⟩)
  | @failed _ p i d d' t₁ t₂ r hn hl hi h₁ hr h₂ =>
      refine ⟨(P.without (toUpper sn)).withDevice d', hnone (he ▸ hn) ?_, ?_⟩
      · exact (runs_createCameraDevice_iff hs' hk).mpr
          (Or.inr ⟨p, i, t₁, d, r, hl, hi, h₁, Or.inl ⟨hr, rfl, t₂, d', rfl, h₂, rfl⟩⟩)
      · rw [entry_withDevice hs', entry_without_self]
  | @opened _ p i d d' t₁ t₂ _ hn hl hi h₁ h₂ =>
      have hlookup : ((P.without (toUpper sn)).opened (toUpper sn) d).cameras_list_.lookup
          (toUpper sn) = some (P.without (toUpper sn)).next := by
        simp [Provider.opened]
      refine ⟨_, ?_, entry_set_self (d := d') hlookup⟩
      refine runs_bind.mpr ⟨t₁, _, some (P.without (toUpper sn)).next, t₂, rfl,
        (runs_findOrCreate_iff hs).mpr (Or.inr ⟨he ▸ hn, ?_⟩),
        (runs_onEntry_iff hlookup).mpr ⟨d', ?_, rfl⟩⟩
      · exact (runs_createCameraDevice_iff hs' hk).mpr
          (Or.inr ⟨p, i, t₁, d, .ok, hl, hi, h₁, Or.inr ⟨rfl, rfl, rfl, rfl⟩⟩)
      · simpa [Provider.opened, Provider.withDevice] using h₂

/-! ## Every request -/

/-- `close_camera` stops and closes the running device of its key, or leaves no entry. -/
theorem runs_closeCamera_iff {sn : CharArray} (hs : P.Sound) :
    Runs (Provider.closeCamera nobody sn) P tr P' () ↔
      (∃ a d, P.cameras_list_.lookup sn.text = some a ∧ (P.heap a).Running ∧
        Runs CameraDevice.stopAndClose (P.heap a) tr d () ∧ P' = (deviceAt a).set d P) ∨
      (¬ Usable (P.entry sn.text) ∧ tr = [] ∧ P' = P.without sn.text) := by
  rw [Provider.closeCamera, runs_find_bind hs]
  constructor
  · rintro (⟨a, hl, ha, h⟩ | ⟨hn, h⟩)
    · obtain ⟨t₁, P₁, u, t₂, rfl, h₁, h₂⟩ := runs_bind.mp h
      obtain ⟨d, hd, rfl⟩ := runs_onDevice.mp h₁
      obtain ⟨rfl, rfl⟩ := (runs_release_set hl).mp h₂
      exact Or.inl ⟨a, d, hl, ha, by simpa using hd, rfl⟩
    · obtain ⟨rfl, rfl, -⟩ := runs_pure.mp h
      exact Or.inr ⟨hn, rfl, rfl⟩
  · rintro (⟨a, d, hl, ha, hd, rfl⟩ | ⟨hn, rfl, rfl⟩)
    · refine Or.inl ⟨a, hl, ha, ?_⟩
      exact runs_bind.mpr ⟨tr, _, (), [], by simp, runs_onDevice.mpr ⟨d, hd, rfl⟩,
        (runs_release_set hl).mpr ⟨rfl, rfl⟩⟩
    · exact Or.inr ⟨hn, runs_pure.mpr ⟨rfl, rfl, rfl⟩⟩

/-- **`close_camera`** shuts the running device of its key down, or leaves no entry. -/
theorem closeCamera_only {sn : CharArray} (hs : P.Sound)
    (h : Runs (Provider.closeCamera nobody sn) P tr P' ()) :
    P.Only sn.text P' ∧ ∀ d, P'.entry sn.text = some d → d.Closed := by
  obtain ⟨a, d, hl, -, hd, rfl⟩ | ⟨hn, -, rfl⟩ := (runs_closeCamera_iff hs).mp h
  · have hclosed := CameraDevice.closed_of_stopAndClose hd
    rw [entry_set_self hl]
    refine ⟨.set hs hl (Or.inr hclosed), ?_⟩
    rintro d' ⟨⟩
    exact hclosed
  · rw [entry_without_self]
    exact ⟨.without hs, by simp⟩

/-- **`enum_all_cameras`** replaces the list of records. -/
theorem enumAllCameras_entries {x : Ret × List CameraMetaInfo}
    (h : Runs enumAllCameras P tr P' x) :
    ∃ list, P' = { P with camera_info_list_ := ⟨P.camera_info_list_.epoch + 1, list⟩ } := by
  obtain ⟨t₁, P₁, r, t₂, -, h₁, h₂⟩ := runs_bind.mp h
  obtain ⟨list, -, rfl⟩ := enumAllCamerasInfo_spec h₁
  refine ⟨list, ?_⟩
  split at h₂
  · exact (runs_pure.mp h₂).2.1
  · rw [runs_get_bind, runs_pure] at h₂
    exact h₂.2.1

theorem ProviderCall.run_sound {call : ProviderCall} (hs : P.Sound)
    (h : Runs call.run P tr P' ()) : P'.Sound := by
  cases call with
  | takePicture sn param data_ =>
      obtain ⟨t₁, P₁, res, t₂, -, h₁, h₂⟩ := runs_bind.mp h
      obtain ⟨-, rfl, -⟩ := runs_pure.mp h₂
      exact (pictured_of_runs hs h₁).2.sound
  | enumAllCameras =>
      obtain ⟨t₁, P₁, x, t₂, -, h₁, h₂⟩ := runs_bind.mp h
      obtain ⟨-, rfl, -⟩ := runs_pure.mp h₂
      obtain ⟨list, rfl⟩ := enumAllCameras_entries h₁
      exact ⟨hs.made, hs.settled, hs.apart, hs.upper⟩
  | closeCamera sn => exact (closeCamera_only hs h).1.sound

/-- **The invariant holds between any two requests.** -/
theorem serve_sound {calls : List ProviderCall} (hs : P.Sound)
    (h : Runs (serve calls) P tr P' ()) : P'.Sound := by
  induction calls generalizing P tr with
  | nil =>
      obtain ⟨-, rfl, -⟩ := runs_pure.mp h
      exact hs
  | cons call calls ih =>
      obtain ⟨t₁, P₁, u, t₂, -, h₁, h₂⟩ := runs_bind.mp h
      exact ih (call.run_sound hs h₁) h₂

end Refinement

/-! ## What `find_or_create_camera_device` leaves -/

section Obtained
variable {P P' : Provider} {a : DevId} {k : Key} {tr t : SdkTrace} {x : Option DevId} {sn : Bytes}
  {f : Fault}

/-- The life of a device that was thrown away: it is shut down, and no handle is left. -/
structure Discarded (tr : SdkTrace) (d : CameraDevice) : Prop where
  closed : d.Closed
  none_alive : ∀ h, ¬ Alive tr h
  /-- Its handles were stopped, closed and destroyed, in this order. -/
  wellFormed : tr.all leavesNull = true → WellFormed tr

/-- What a call of `find_or_create_camera_device` should leave. -/
structure Obtained (P : Provider) (sn : Bytes) (tr : SdkTrace) (P' : Provider) (x : Option DevId) :
    Prop where
  some_iff : ∀ a, x = some a ↔
    P'.cameras_list_.lookup (toUpper sn) = some a ∧ (P'.heap a).Running
  none_left : x = none → P'.cameras_list_.lookup (toUpper sn) = none
  /-- The devices made on the way. -/
  discarded : x = none → ∀ a, P.next ≤ a → a < P'.next → Discarded tr (P'.heap a)
  others : ∀ k, k ≠ toUpper sn → P'.cameras_list_.lookup k = P.cameras_list_.lookup k ∧
    P'.entry k = P.entry k
  hit : ∀ a, P.cameras_list_.lookup (toUpper sn) = some a → (P.heap a).Running →
    x = some a ∧ tr = [] ∧ P' = P

/-- A failed start, and the destructor. -/
theorem discarded_of_start {i : DeviceInfo} {t₁ t₂ : SdkTrace} {d d' : CameraDevice} {r : Ret}
    (h₁ : Runs (CameraDevice.start (some i)) .new t₁ d r)
    (h₂ : Runs CameraDevice.stopAndClose d t₂ d' ()) : Discarded (t₁ ++ t₂) d' := by
  have hclosed := CameraDevice.closed_of_stopAndClose h₂
  have hown : Owns .new (t₁ ++ t₂) d' :=
    (CameraDevice.start_owns h₁).trans (CameraDevice.stopAndClose_owns h₂)
  refine ⟨hclosed, hown.none_alive hclosed.camera, fun hn => ?_⟩
  have hsession : Runs (session [.start (some i)]) CameraDevice.new (t₁ ++ t₂) d' () :=
    runs_bind.mpr ⟨t₁, d, (), t₂, rfl,
      runs_bind.mpr ⟨t₁, d, r, [], by simp, h₁, runs_pure.mpr ⟨rfl, rfl, rfl⟩⟩, h₂⟩
  exact session_wellFormed hn hsession

theorem findCamera_faults (hs : P.Sound) : ¬ Faults (findCameraDeviceBySn nobody k) P tr f := by
  simp only [findCameraDeviceBySn, faults_get_bind]
  cases hl : P.cameras_list_.lookup k with
  | none => simp
  | some a =>
      have hcoherent : (P.heap a).Coherent := by
        rcases hs.settled k a hl with ha | ha
        · exact Or.inr (Or.inr ha)
        · exact Or.inl ha
      have hrelease : ∀ t, ¬ Faults (release nobody a) (P.without k) t f := by
        intro t
        simp only [release, faults_get_bind]
        split
        · exact faults_pure
        · rw [onDevice, faults_zoom]
          exact CameraDevice.stopAndClose_faults_of_coherent hcoherent
      dsimp only
      split
      · rw [faults_modify_bind, faults_bind]
        rintro (h | ⟨_, _, _, _, -, -, h⟩)
        · exact hrelease _ h
        · exact faults_pure h
      · exact faults_pure

/-- What follows `find_camera_device_by_sn` is what can fault. -/
theorem faults_find_bind {α : Type} {p : Option DevId → Proc sdk Provider α} (hs : P.Sound)
    (h : Faults (findCameraDeviceBySn nobody k >>= p) P tr f) :
    (∃ a, P.cameras_list_.lookup k = some a ∧ (P.heap a).Running ∧ Faults (p (some a)) P tr f) ∨
      Faults (p none) (P.without k) tr f := by
  rcases faults_bind.mp h with h | ⟨t₁, P₁, y, t₂, rfl, h₁, h₂⟩
  · exact absurd h (findCamera_faults hs)
  · obtain ⟨rfl, ⟨a, hl, ha, rfl, rfl⟩ | ⟨-, rfl, rfl⟩⟩ := (runs_find_iff hs).mp h₁
    · exact Or.inl ⟨a, hl, ha, h₂⟩
    · exact Or.inr h₂

theorem closeCamera_faults {sn : CharArray} (hs : P.Sound) :
    ¬ Faults (Provider.closeCamera nobody sn) P tr f := by
  intro h
  rcases faults_find_bind hs h with ⟨a, hl, ha, h⟩ | h
  · rcases faults_bind.mp h with h | ⟨t₁, P₁, u, t₂, -, h₁, h₂⟩
    · rw [onDevice, faults_zoom] at h
      exact CameraDevice.stopAndClose_faults_of_coherent (Or.inr (Or.inr ha)) h
    · obtain ⟨d, -, rfl⟩ := runs_onDevice.mp h₁
      have hpub : ((deviceAt a).set d P).Published a := published_iff.mpr ⟨sn.text, hl⟩
      simp [release, hpub] at h₂
  · exact faults_pure h

theorem createDevice_faults {info : RecordPtr} : ¬ Faults (createDevice info) P tr f := by
  intro h
  simp only [createDevice, makeDevice, bind_assoc, faults_get_bind, faults_modify_bind,
    pure_bind] at h
  rcases faults_bind.mp h with h | ⟨t₁, P₁, i, t₂, -, h₁, h₂⟩
  · simp only [readRecord, faults_get_bind] at h
    split at h
    · exact faults_call h
    · exact faults_pure h
  · have hnew : P₁.heap P.next = .new := by
      simp only [readRecord, runs_get_bind] at h₁
      split at h₁
      · rw [(runs_call.mp h₁).2]
        simp
      · rw [(runs_pure.mp h₁).2.1]
        simp
    rcases faults_bind.mp h₂ with h₂ | ⟨_, _, _, _, -, -, h₂⟩
    · rw [onDevice, faults_zoom] at h₂
      refine CameraDevice.start_faults (d := P₁.heap P.next) (Or.inl ?_) h₂
      rw [hnew]
      exact CameraDevice.closed_new
    · exact faults_pure h₂

theorem findOrCreate_faults (hs : P.Sound) :
    ¬ Faults (findOrCreateCameraDevice nobody sn) P tr f := by
  intro h
  rcases faults_find_bind hs h with ⟨a, -, -, h⟩ | h
  · exact faults_pure h
  · simp only [createCameraDevice, findCameraInfoBySn, bind_assoc, faults_get_bind,
      pure_bind] at h
    split at h
    · exact faults_pure h
    · rename_i p hf
      obtain ⟨-, i, hi, -⟩ := InfoList.deref_of_find hf
      rcases faults_bind.mp h with h | ⟨t₁, P₁, ⟨r, a⟩, t₂, -, h₁, h₂⟩
      · exact createDevice_faults h
      · obtain ⟨rfl, d, hd, rfl⟩ := (runs_createDevice_iff hi).mp h₁
        have hlookup : ((P.without (toUpper sn)).withDevice d).cameras_list_.lookup
            (toUpper sn) = none := by
          simp [Provider.without, withDevice]
        split at h₂
        · rcases faults_bind.mp h₂ with h₂ | ⟨_, _, _, _, -, -, h₂⟩
          · simp only [release, faults_get_bind] at h₂
            split at h₂
            · exact faults_pure h₂
            · rw [onDevice, faults_zoom] at h₂
              refine CameraDevice.stopAndClose_faults_of_coherent ?_ h₂
              have hcoherent := CameraDevice.start_spec (Or.inl CameraDevice.closed_new) hd
              simp only [deviceAt, withDevice, Function.update_self]
              rw [CameraDevice.Coherent]
              tauto
          · exact faults_pure h₂
        · rcases faults_bind.mp h₂ with h₂ | ⟨_, _, _, _, -, -, h₂⟩
          · simp only [addCameraDevice, faults_get_bind, faults_modify_bind, hlookup,
              releaseOld] at h₂
            exact faults_pure h₂
          · exact faults_pure h₂

/-- The device that is running already. -/
theorem obtained_hit (hl : P.cameras_list_.lookup (toUpper sn) = some a) (ha : (P.heap a).Running) :
    Obtained P sn [] P (some a) where
  some_iff := by
    intro b
    constructor
    · rintro ⟨⟩
      exact ⟨hl, ha⟩
    · rintro ⟨hb, -⟩
      exact hl.symm.trans hb
  none_left := by simp
  discarded := by simp
  others := fun _ _ => ⟨rfl, rfl⟩
  hit := by
    intro b hb _
    exact ⟨hl.symm.trans hb, rfl, rfl⟩

/-- No device. -/
theorem obtained_none (hn : ¬ Usable (P.entry (toUpper sn)))
    (hmap : P'.cameras_list_ = (P.without (toUpper sn)).cameras_list_)
    (hheap : ∀ k, k ≠ toUpper sn → P'.entry k = P.entry k)
    (hd : ∀ a, P.next ≤ a → a < P'.next → Discarded tr (P'.heap a)) :
    Obtained P sn tr P' none where
  some_iff := by simp [hmap, Provider.without]
  none_left := by simp [hmap, Provider.without]
  discarded := fun _ => hd
  others := fun k hk => ⟨by rw [hmap, Provider.without, AList.lookup_erase_ne hk], hheap k hk⟩
  hit := by
    intro a hl ha
    exact absurd (usable_entry.mpr ⟨a, hl, ha⟩) hn

/-- A new device. -/
theorem obtained_opened {d : CameraDevice} (hs : P.Sound) (hn : ¬ Usable (P.entry (toUpper sn)))
    (hd : d.Running) :
    Obtained P sn tr ((P.without (toUpper sn)).opened (toUpper sn) d) (some P.next) where
  some_iff := by
    intro a
    simp only [Provider.opened, Provider.withDevice, Provider.without, AList.lookup_insert,
      Option.some.injEq]
    constructor
    · rintro rfl
      exact ⟨rfl, by simpa using hd⟩
    · rintro ⟨rfl, -⟩
      rfl
  none_left := by simp
  discarded := by simp
  others := by
    intro k hk
    refine ⟨?_, ?_⟩
    · simp [Provider.opened, Provider.without, AList.lookup_insert_ne hk, AList.lookup_erase_ne hk]
    · rw [entry_opened (hs.without _) hk, entry_without hk]
  hit := by
    intro a hl ha
    exact absurd (usable_entry.mpr ⟨a, hl, ha⟩) hn

/-- **`find_or_create_camera_device` finds the running device or makes one.**  In every
state that requests lead to, one after the other, and for whatever answers of the SDK, it
fails no assertion and leaves what `Obtained` says.  When a device is made, and what becomes
of it, is in `runs_createCameraDevice_iff`. -/
theorem findOrCreate_obtained {calls : List ProviderCall} (ht : Runs (serve calls) .new t P ())
    (sn : Bytes) : (∀ tr f, ¬ Faults (findOrCreateCameraDevice nobody sn) P tr f) ∧
      ∀ tr P' x, Runs (findOrCreateCameraDevice nobody sn) P tr P' x → Obtained P sn tr P' x := by
  have hs : P.Sound := serve_sound sound_new ht
  refine ⟨fun tr f => findOrCreate_faults hs, fun tr P' x h => ?_⟩
  rcases (runs_findOrCreate_iff hs).mp h with ⟨a, hl, ha, rfl, rfl, rfl⟩ | ⟨hn, h₁⟩
  · exact obtained_hit hl ha
  · have hs' := hs.without (toUpper sn)
    have hk : (P.without (toUpper sn)).cameras_list_.lookup (toUpper sn) = none := by
      simp [Provider.without]
    rcases (runs_createCameraDevice_iff hs' hk).mp h₁ with ⟨-, rfl, rfl, rfl⟩ |
      ⟨p, i, t₃, d, r, -, -, hd, ⟨-, rfl, t₄, d', rfl, hd', rfl⟩ | ⟨rfl, rfl, rfl, rfl⟩⟩
    · refine obtained_none hn rfl (fun _ hk => entry_without hk) ?_
      intro a hle hlt
      exact absurd hlt (Nat.not_lt.mpr hle)
    · refine obtained_none hn rfl (fun _ hk => ?_) ?_
      · rw [entry_withDevice hs', entry_without hk]
      · intro a hle hlt
        have ha : a = P.next := Nat.le_antisymm (Nat.lt_succ_iff.mp hlt) hle
        have hheap : ((P.without (toUpper sn)).withDevice d').heap a = d' := by
          simp [withDevice, ha, Provider.without]
        rw [hheap]
        exact discarded_of_start hd hd'
    · exact obtained_opened hs hn (running_of_start hd)

end Obtained

/-- A listed camera opens, but does not grab: no device is returned, and the one that was made
is shut down with its handle destroyed. -/
theorem findOrCreate_obtained_ungrabbing : ∃ (t : SdkTrace) (P : Provider) (tr : SdkTrace)
    (P' : Provider), Runs (serve [.enumAllCameras]) .new t P () ∧
      Runs (findOrCreateCameraDevice nobody [65]) P tr P' none ∧ P'.next = P.next + 1 ∧
        Discarded tr (P'.heap P.next) ∧ tr.countP (destroys 1) = 1 := by
  have hlist : Runs (serve [.enumAllCameras]) .new _
      { Provider.new with camera_info_list_ := ⟨1, [some (usbCamera [65])]⟩ } () :=
    runs_of_exec (o := finding [some (usbCamera [65])]) rfl
  have hfind : Runs (findOrCreateCameraDevice nobody [65])
      { Provider.new with camera_info_list_ := ⟨1, [some (usbCamera [65])]⟩ } _ _ none :=
    runs_of_exec (o := ungrabbing) rfl
  have hmade := ((findOrCreate_obtained hlist [65]).2 _ _ _ hfind).discarded rfl 0 le_rfl
  exact ⟨_, _, _, _, hlist, hfind, rfl, hmade Nat.zero_lt_one, by decide +kernel⟩

end CameraService
