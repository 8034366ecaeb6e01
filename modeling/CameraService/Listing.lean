import CameraService.Sdk
import Mathlib.Data.List.Basic

/-!
# Searching and listing the enumerated cameras

Two loops of `CameraServiceProvider` walk the same array of device records:
`find_camera_info_by_sn` looks for a serial number, and `to_camera_meta_info_list`
collects what a client is told.  Each has its own `NULL` test and its own dispatch
on the layer.

A pointer to a record is its slot together with the enumeration it was taken
from, because the records belong to the SDK and a later enumeration may release
them.

## Main definitions

* `InfoList`, `RecordPtr` — `camera_info_list_` and the pointers into it.
* `InfoList.findCameraInfoBySn` — the search.
* `CameraMetaInfo`, `toCameraMetaInfoList` — the listing.
* `findIdx_eq_some_iff` — the search returns the first record with that serial
  number.
* `toCameraMetaInfoList_eq` — the listing has one entry for each such record.
-/

namespace CameraService

/-- `camera_info_list_`.  `epoch` counts the enumerations. -/
structure InfoList where
  epoch : ℕ
  pDeviceInfo : DeviceList

/-- A pointer to a record, taken from the array of one enumeration. -/
structure RecordPtr where
  epoch : ℕ
  slot : ℕ
  deriving DecidableEq

/-- The record a pointer leads to, while its enumeration is the current one. -/
def InfoList.deref (l : InfoList) (p : RecordPtr) : Option DeviceInfo :=
  if p.epoch = l.epoch then l.pDeviceInfo[p.slot]?.join else none

/-! ## The search -/

/-- The body of the search loop: whether the entry is returned. -/
def matchesSn (sn : CharArray) : Option DeviceInfo → Bool
  | none => false
  | some (.gige g) => localStricmp g.chSerialNumber.bytes sn.bytes = some 0
  | some (.usb u) => localStricmp u.chSerialNumber.bytes sn.bytes = some 0
  | some (.other _) => false

/-- `find_camera_info_by_sn`. -/
def InfoList.findCameraInfoBySn (l : InfoList) (sn : CharArray) : Option RecordPtr :=
  (l.pDeviceInfo.findIdx? (matchesSn sn)).map fun i => ⟨l.epoch, i⟩

/-- The serial number of a record of a known layer. -/
def DeviceInfo.serial : DeviceInfo → Option Bytes
  | .gige g => some g.chSerialNumber.text
  | .usb u => some u.chSerialNumber.text
  | .other _ => none

/-- The record carries this serial number, letter case aside. -/
def DeviceInfo.HasSerial (info : DeviceInfo) (sn : Bytes) : Prop :=
  ∃ s, info.serial = some s ∧ toUpper s = toUpper sn

/-- The serial number of a record has no terminator inside. -/
theorem DeviceInfo.HasSerial.zero_notMem {info : DeviceInfo} {sn : Bytes}
    (h : info.HasSerial sn) : 0 ∉ sn := by
  obtain ⟨s, hs, he⟩ := h
  have hzero : 0 ∉ s := by
    cases info with
    | gige g =>
        obtain rfl := Option.some.inj hs
        exact zero_notMem_cstr _
    | usb u =>
        obtain rfl := Option.some.inj hs
        exact zero_notMem_cstr _
    | other n => cases hs
  rw [← zero_mem_toUpper, ← he, zero_mem_toUpper]
  exact hzero

theorem matchesSn_iff {sn : CharArray} {p : Option DeviceInfo} :
    matchesSn sn p = true ↔ ∃ info, p = some info ∧ info.HasSerial sn.text := by
  cases p with
  | none => simp [matchesSn]
  | some info =>
      cases info with
      | gige g => simp [matchesSn, DeviceInfo.HasSerial, DeviceInfo.serial, localStricmp_arrays]
      | usb u => simp [matchesSn, DeviceInfo.HasSerial, DeviceInfo.serial, localStricmp_arrays]
      | other n => simp [matchesSn, DeviceInfo.HasSerial, DeviceInfo.serial]

/-- The search looks at the serial number up to its end as a C string. -/
theorem InfoList.find_congr {l : InfoList} {sn sn' : CharArray} (h : sn.text = sn'.text) :
    l.findCameraInfoBySn sn = l.findCameraInfoBySn sn' := by
  have hmatch : matchesSn sn = matchesSn sn' := by
    funext p
    rw [Bool.eq_iff_iff, matchesSn_iff, matchesSn_iff, h]
  rw [findCameraInfoBySn, findCameraInfoBySn, hmatch]

/-- **The search returns the first record with the serial number.** -/
theorem findIdx_eq_some_iff {l : DeviceList} {sn : CharArray} {i : ℕ} :
    l.findIdx? (matchesSn sn) = some i ↔
      (∃ info, l[i]? = some (some info) ∧ info.HasSerial sn.text) ∧
        ∀ p ∈ l.take i, matchesSn sn p = false := by
  rw [List.findIdx?_eq_some_iff_getElem]
  constructor
  · intro h
    obtain ⟨hi, hm, hfirst⟩ := h
    obtain ⟨info, hp, hs⟩ := matchesSn_iff.mp hm
    refine ⟨⟨info, by rw [List.getElem?_eq_getElem hi, hp], hs⟩, ?_⟩
    intro p hp
    obtain ⟨j, hj, rfl⟩ := List.mem_iff_getElem.mp hp
    rw [List.length_take] at hj
    simpa using hfirst j (by omega)
  · intro h
    obtain ⟨⟨info, hp, hs⟩, hfirst⟩ := h
    obtain ⟨hi, hp⟩ := List.getElem?_eq_some_iff.mp hp
    refine ⟨hi, matchesSn_iff.mpr ⟨info, hp, hs⟩, ?_⟩
    intro j hj
    have hmem : l[j] ∈ l.take i :=
      List.mem_iff_getElem.mpr ⟨j, by rw [List.length_take]; omega, by simp⟩
    simp [hfirst _ hmem]

/-- A pointer that the search returned leads to a record with the serial number. -/
theorem InfoList.deref_of_find {l : InfoList} {sn : CharArray} {p : RecordPtr}
    (h : l.findCameraInfoBySn sn = some p) :
    p.epoch = l.epoch ∧ ∃ info, l.deref p = some info ∧ info.HasSerial sn.text := by
  rw [findCameraInfoBySn] at h
  obtain ⟨i, hi, rfl⟩ := Option.map_eq_some_iff.mp h
  obtain ⟨⟨info, hp, hs⟩, -⟩ := findIdx_eq_some_iff.mp hi
  exact ⟨rfl, info, by simp [deref, hp], hs⟩

/-! ## The listing -/

/-- `CameraMetaInfo`. -/
structure CameraMetaInfo where
  serialNumber : Bytes
  modelName : Bytes
  manufactureName : Bytes
  deviceVersion : Bytes
  userDefinedName : Bytes
  cameraType : String
  info : List (String × Bytes)
  deriving DecidableEq

/-- The text that `%d` prints for a number that is not negative. -/
def decimal (n : ℕ) : Bytes := (Nat.toDigits 10 n).map fun c => UInt8.ofNat c.toNat

/-- The dotted quad of `to_camera_meta_info_list`. -/
def dottedQuad (nCurrentIp : UInt32) : Bytes :=
  let nIp1 := ((nCurrentIp &&& 0xff000000) >>> 24).toNat
  let nIp2 := ((nCurrentIp &&& 0x00ff0000) >>> 16).toNat
  let nIp3 := ((nCurrentIp &&& 0x0000ff00) >>> 8).toNat
  let nIp4 := (nCurrentIp &&& 0x000000ff).toNat
  decimal nIp1 ++ 46 :: decimal nIp2 ++ 46 :: decimal nIp3 ++ 46 :: decimal nIp4

/-- The entry of a GigE camera. -/
def GigEInfo.toMeta (g : GigEInfo) : CameraMetaInfo where
  serialNumber := g.chSerialNumber.text
  modelName := g.chModelName.text
  manufactureName := g.chManufacturerName.text
  deviceVersion := g.chDeviceVersion.text
  userDefinedName := g.chUserDefinedName.text
  cameraType := "gige"
  info := [("ipAddr", dottedQuad g.nCurrentIp)]

/-- The entry of a USB camera. -/
def Usb3VInfo.toMeta (u : Usb3VInfo) : CameraMetaInfo where
  serialNumber := u.chSerialNumber.text
  modelName := u.chModelName.text
  manufactureName := u.chManufacturerName.text
  deviceVersion := u.chDeviceVersion.text
  userDefinedName := u.chUserDefinedName.text
  cameraType := "usb"
  info := [("deviceGUID", u.chDeviceGUID.text)]

/-- The body of the conversion loop. -/
def convertSlot (infos : List CameraMetaInfo) : Option DeviceInfo → List CameraMetaInfo
  | none => infos
  | some (.gige g) => infos ++ [g.toMeta]
  | some (.usb u) => infos ++ [u.toMeta]
  | some (.other _) => infos

/-- `to_camera_meta_info_list`, appending to `infos`; its result is always `0`. -/
def toCameraMetaInfoList (list : DeviceList) (infos : List CameraMetaInfo) :
    List CameraMetaInfo := list.foldl convertSlot infos

/-- The entry of an array slot, if it has one. -/
def slotEntry : Option DeviceInfo → Option CameraMetaInfo
  | some (.gige g) => some g.toMeta
  | some (.usb u) => some u.toMeta
  | _ => none

theorem convertSlot_eq (infos : List CameraMetaInfo) (p : Option DeviceInfo) :
    convertSlot infos p = infos ++ (slotEntry p).toList := by
  rcases p with - | (g | u | n)
  · simp [convertSlot, slotEntry]
  · simp [convertSlot, slotEntry]
  · simp [convertSlot, slotEntry]
  · simp [convertSlot, slotEntry]

/-- **The listing in one line**: the entries of the slots, in order. -/
theorem toCameraMetaInfoList_eq (l : DeviceList) (infos : List CameraMetaInfo) :
    toCameraMetaInfoList l infos = infos ++ l.filterMap slotEntry := by
  induction l generalizing infos with
  | nil => simp [toCameraMetaInfoList]
  | cons p l ih =>
      have h : toCameraMetaInfoList (p :: l) infos =
          toCameraMetaInfoList l (convertSlot infos p) := rfl
      rw [h, ih, convertSlot_eq, List.filterMap_cons]
      cases slotEntry p <;> simp

/-- A slot matches a serial number exactly when its entry shows it. -/
theorem matchesSn_iff_slotEntry {sn : CharArray} {p : Option DeviceInfo} :
    matchesSn sn p = true ↔
      ∃ e, slotEntry p = some e ∧ toUpper e.serialNumber = toUpper sn.text := by
  rw [matchesSn_iff]
  rcases p with - | (g | u | n)
  · simp [slotEntry]
  · simp [slotEntry, DeviceInfo.HasSerial, DeviceInfo.serial, GigEInfo.toMeta]
  · simp [slotEntry, DeviceInfo.HasSerial, DeviceInfo.serial, Usb3VInfo.toMeta]
  · simp [slotEntry, DeviceInfo.HasSerial, DeviceInfo.serial]

/-- **Listing and lookup agree.**  A serial number is found, in any letter case, exactly
when some listed entry shows it, and the record found is the one that produced the
first such entry. -/
theorem find_iff_listed (epoch : ℕ) (l : DeviceList) (sn : Bytes) (h0 : 0 ∉ sn) :
    (((InfoList.mk epoch l).findCameraInfoBySn (.ofString (toUpper sn))).isSome = true ↔
      ∃ e ∈ toCameraMetaInfoList l [], toUpper e.serialNumber = toUpper sn) ∧
    ∀ p, (InfoList.mk epoch l).findCameraInfoBySn (.ofString (toUpper sn)) = some p →
      ∃ before e after, toCameraMetaInfoList l [] = before ++ e :: after ∧
        toUpper e.serialNumber = toUpper sn ∧
        (∀ e' ∈ before, toUpper e'.serialNumber ≠ toUpper sn) ∧
        before = (l.take p.slot).filterMap slotEntry ∧
        ∃ info, (InfoList.mk epoch l).deref p = some info ∧ slotEntry (some info) = some e := by
  have htext : toUpper (CharArray.ofString (toUpper sn)).text = toUpper sn := by
    rw [CharArray.text_ofString, cstr_toUpper, cstr_of_notMem h0, toUpper_toUpper]
  have hmatch : ∀ p, matchesSn (.ofString (toUpper sn)) p = true ↔
      ∃ e, slotEntry p = some e ∧ toUpper e.serialNumber = toUpper sn := by
    intro p
    rw [matchesSn_iff_slotEntry, htext]
  simp only [toCameraMetaInfoList_eq, List.nil_append]
  constructor
  · rw [InfoList.findCameraInfoBySn, Option.isSome_map, List.findIdx?_isSome, List.any_eq_true]
    simp only [hmatch, List.mem_filterMap]
    constructor
    · intro h
      obtain ⟨p, hp, e, he, hs⟩ := h
      exact ⟨e, ⟨p, hp, he⟩, hs⟩
    · intro h
      obtain ⟨e, ⟨p, hp, he⟩, hs⟩ := h
      exact ⟨p, hp, e, he, hs⟩
  · intro p hp
    obtain ⟨i, hi, rfl⟩ := Option.map_eq_some_iff.mp hp
    obtain ⟨⟨info, hinfo, -⟩, hfirst⟩ := findIdx_eq_some_iff.mp hi
    obtain ⟨hlt, hget⟩ := List.getElem?_eq_some_iff.mp hinfo
    have hsplit : l = l.take i ++ some info :: l.drop (i + 1) := by
      rw [← hget, List.getElem_cons_drop, List.take_append_drop]
    have hm : matchesSn (.ofString (toUpper sn)) (some info) = true := by
      obtain ⟨hlt', hm, -⟩ := List.findIdx?_eq_some_iff_getElem.mp hi
      rwa [hget] at hm
    obtain ⟨e, he, hs⟩ := (hmatch _).mp hm
    refine ⟨(l.take i).filterMap slotEntry, e, (l.drop (i + 1)).filterMap slotEntry, ?_, hs, ?_,
      rfl, info, by simp [InfoList.deref, hinfo], he⟩
    · conv_lhs => rw [hsplit]
      rw [List.filterMap_append, List.filterMap_cons_some he]
    · intro e' he' hs'
      obtain ⟨q, hq, hqe⟩ := List.mem_filterMap.mp he'
      have := hfirst q hq
      rw [(hmatch q).mpr ⟨e', hqe, hs'⟩] at this
      cases this

/-- The record of a USB camera with this serial number. -/
def usbCamera (sn : Bytes) : DeviceInfo :=
  .usb ⟨.ofString [], .ofString [], .ofString [], .ofString [], .ofString sn, .ofString []⟩

theorem find_iff_listed_usb : ((InfoList.mk 0 [none, some (.other 7), some (usbCamera [97, 66])]
    ).findCameraInfoBySn (.ofString (toUpper [65, 98]))).isSome = true :=
  (find_iff_listed 0 _ [65, 98] (by decide)).1.mpr (by decide)

end CameraService
