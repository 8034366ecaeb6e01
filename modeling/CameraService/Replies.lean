import CameraService.MessageTransfer
import CameraService.Metas
import CameraService.ProviderSpec
import Mathlib.Data.Nat.Digits.Defs

/-!
# What a client receives

`GetCameraMetas` fills a message with the names that the SDK gave for the cameras.  A string
is checked for UTF-8 by the reader and not by the writer, and the names of the SDK are plain
bytes.  So the client receives the entry of every camera, as the records have it, or nothing
at all: one name that is not UTF-8 takes the other cameras along.

## Main definitions

* `CameraMeta.fill`, `response` — the message that the handler fills.
* `DeviceInfo.texts`, `DeviceInfo.told` — the strings of a record, and what a client is to
  hold of it.
* `getCameraMetas_received` — what the client receives.
-/

namespace CameraService

open Interaction Wire

/-! ## Filling the message -/

/-- One turn of the copy loop of `GetCameraMetas`, after `add_data()`. -/
def CameraMeta.fill (it : CameraMeta) : Pb.CameraMeta :=
  let m : Pb.CameraMeta :=
    { Pb.CameraMeta.new with
      serialnumber_ := it.serialNumber
      modelname_ := it.modelName
      manufacturename_ := it.manufactureName
      deviceversion_ := it.deviceVersion
      userdefinedname_ := it.userDefinedName
      cameratype_ := Pb.ofLiteral it.cameraType }
  it.info.foldl (fun m e => m.insertInfo (Pb.ofLiteral e.1) e.2) m

/-- The copy loop of `GetCameraMetas`. -/
def response (data : List CameraMeta) : Pb.CameraMetas :=
  data.foldl (fun m it => { m with data_ := m.data_ ++ [it.fill] }) .new

theorem response_eq (data : List CameraMeta) : response data = ⟨data.map (·.fill), 0, .empty⟩ := by
  have h : ∀ m : Pb.CameraMetas,
      data.foldl (fun m it => { m with data_ := m.data_ ++ [it.fill] }) m =
        { m with data_ := m.data_ ++ data.map (·.fill) } := by
    induction data with
    | nil => intro m; simp
    | cons it data ih => intro m; simp [ih]
  exact h .new

/-! ## Records -/

/-- The strings of a record that the entry of a camera shows. -/
def DeviceInfo.texts : DeviceInfo → List Bytes
  | .gige g => [g.chSerialNumber.text, g.chModelName.text, g.chManufacturerName.text,
      g.chDeviceVersion.text, g.chUserDefinedName.text]
  | .usb u => [u.chSerialNumber.text, u.chModelName.text, u.chManufacturerName.text,
      u.chDeviceVersion.text, u.chUserDefinedName.text, u.chDeviceGUID.text]
  | .other _ => []

/-- What a client is to hold of a record: the names under their numbers, and one detail. -/
def DeviceInfo.told : DeviceInfo → Pb.MetaValue
  | .gige g =>
    { names := fun n => (([(1, g.chSerialNumber.text), (2, g.chModelName.text),
        (3, g.chManufacturerName.text), (4, g.chDeviceVersion.text),
        (5, g.chUserDefinedName.text), (6, Pb.ofLiteral "gige")] :
          List (Number × Bytes)).lookup n).getD []
      info := Function.update (fun _ => none) (Pb.ofLiteral "ipAddr")
        (some (dottedQuad g.nCurrentIp)) }
  | .usb u =>
    { names := fun n => (([(1, u.chSerialNumber.text), (2, u.chModelName.text),
        (3, u.chManufacturerName.text), (4, u.chDeviceVersion.text),
        (5, u.chUserDefinedName.text), (6, Pb.ofLiteral "usb")] :
          List (Number × Bytes)).lookup n).getD []
      info := Function.update (fun _ => none) (Pb.ofLiteral "deviceGUID")
        (some u.chDeviceGUID.text) }
  | .other _ => ⟨fun _ => [], fun _ => none⟩

theorem decimal_ascii {n : ℕ} {b : UInt8} (h : b ∈ decimal n) : b.toNat < 128 := by
  obtain ⟨c, hc, rfl⟩ := List.mem_map.mp h
  have hdigit := toNat_of_isDigit (Nat.isDigit_of_mem_toDigits (by decide) (by decide) hc)
  rw [UInt8.toNat_ofNat_of_lt' (show c.toNat < 256 by omega)]
  omega

/-- A dotted quad can be received. -/
theorem isUtf8_dottedQuad (ip : UInt32) : Pb.isUtf8 (dottedQuad ip) = true := by
  apply Pb.isUtf8_of_ascii
  intro b hb
  have hdot : (46 : UInt8).toNat < 128 := by decide
  simp only [dottedQuad, List.mem_append, List.mem_cons] at hb
  rcases hb with ((hb | rfl | hb) | rfl | hb) | rfl | hb
  · exact decimal_ascii hb
  · exact hdot
  · exact decimal_ascii hb
  · exact hdot
  · exact decimal_ascii hb
  · exact hdot
  · exact decimal_ascii hb

/-- The entry of a record stands for what is to be told, and can be received when the strings
of the record are UTF-8. -/
def Tells (i : DeviceInfo) (it : CameraMeta) : Prop :=
  it.fill.value = ⟨i.told, []⟩ ∧ (it.fill.Utf8 ↔ ∀ s ∈ i.texts, Pb.isUtf8 s = true)

theorem lookup_insert_empty (k x : Bytes) :
    (fun j => ((∅ : Pb.StringMap).insert k x).lookup j) =
      Function.update (fun _ => none) k (some x) := by
  funext j
  by_cases hj : j = k
  · subst hj
    rw [AList.lookup_insert, Function.update_self]
  · rw [AList.lookup_insert_ne hj, Function.update_of_ne hj, AList.lookup_empty]

section

variable {it : CameraMeta} {k : String} {x : Bytes} (h : it.info = [(k, x)])

include h

/-- The message of an entry with one detail. -/
theorem fill_eq : it.fill =
    { Pb.CameraMeta.new with
      info_ := (∅ : Pb.StringMap).insert (Pb.ofLiteral k) x
      serialnumber_ := it.serialNumber
      modelname_ := it.modelName
      manufacturename_ := it.manufactureName
      deviceversion_ := it.deviceVersion
      userdefinedname_ := it.userDefinedName
      cameratype_ := Pb.ofLiteral it.cameraType } := by
  rw [CameraMeta.fill, h, List.foldl_cons, List.foldl_nil, Pb.CameraMeta.insertInfo]
  exact congrArg (fun info : Pb.StringMap => Pb.CameraMeta.mk info _ _ _ _ _ _ _ _)
    (if_neg (AList.notMem_empty _))

theorem fill_value : it.fill.value =
    ⟨{ names := fun n => (([(1, it.serialNumber), (2, it.modelName), (3, it.manufactureName),
          (4, it.deviceVersion), (5, it.userDefinedName), (6, Pb.ofLiteral it.cameraType)] :
            List (Number × Bytes)).lookup n).getD []
       info := Function.update (fun _ => none) (Pb.ofLiteral k) (some x) }, []⟩ := by
  rw [fill_eq h, ← lookup_insert_empty]
  rfl

theorem fill_utf8 : it.fill.Utf8 ↔
    (∀ s ∈ [it.serialNumber, it.modelName, it.manufactureName, it.deviceVersion,
      it.userDefinedName], Pb.isUtf8 s = true) ∧ Pb.isUtf8 x = true := by
  have hentries : it.fill.info_.entries = [⟨Pb.ofLiteral k, x⟩] := by
    rw [fill_eq h]
    rfl
  have hstrings : it.fill.strings = [(1, it.serialNumber), (2, it.modelName),
      (3, it.manufactureName), (4, it.deviceVersion), (5, it.userDefinedName),
      (6, Pb.ofLiteral it.cameraType)] := by
    rw [fill_eq h]
    rfl
  constructor
  · intro hu
    have hnames := hu.names
    have hinfo := hu.info
    rw [hstrings] at hnames
    rw [hentries] at hinfo
    simp_all
  · intro hu
    refine ⟨?_, ?_⟩
    · rw [hstrings]
      simpa using hu.1
    · rw [hentries]
      simpa using hu.2

/-- How long the message of an entry is. -/
theorem fill_length_le {r : Pb.Runtime} (hr : r.Lawful) {deterministic : Bool} {n : ℕ}
    (hn : n < 2 ^ 29) (hkey : (Pb.ofLiteral k).length ≤ n) (hvalue : x.length ≤ n)
    (htype : (Pb.ofLiteral it.cameraType).length ≤ n)
    (hnames : ∀ s ∈ [it.serialNumber, it.modelName, it.manufactureName, it.deviceVersion,
      it.userDefinedName], s.length ≤ n) :
    (encodeAll (it.fill.fields r deterministic)).length ≤ 7 * (2 * n + 30) := by
  have hentries : it.fill.info_.entries = [⟨Pb.ofLiteral k, x⟩] := by
    rw [fill_eq h]
    rfl
  have hstrings : it.fill.strings = [(1, it.serialNumber), (2, it.modelName),
      (3, it.manufactureName), (4, it.deviceVersion), (5, it.userDefinedName),
      (6, Pb.ofLiteral it.cameraType)] := by
    rw [fill_eq h]
    rfl
  have hu : it.fill._internal_metadata_.fields = [] := by
    rw [fill_eq h]
    rfl
  have hlength : (encodeAll (it.fill.fields r deterministic)).length ≤
      (6 + it.fill.info_.entries.length) * (2 * n + 30) :=
    Pb.CameraMeta.length_le hr hn ?_ ?_ hu
  · rwa [hentries] at hlength
  · rw [hstrings]
    simpa [htype] using hnames
  · rw [hentries]
    simpa using ⟨hkey, hvalue⟩

end

theorem tells_gige (g : GigEInfo) : Tells (.gige g) (toCameraMeta g.toMeta) := by
  refine ⟨fill_value rfl, (fill_utf8 rfl).trans ?_⟩
  rw [isUtf8_dottedQuad]
  exact and_iff_left rfl

theorem tells_usb (u : Usb3VInfo) : Tells (.usb u) (toCameraMeta u.toMeta) := by
  refine ⟨fill_value rfl, (fill_utf8 rfl).trans ?_⟩
  simp [DeviceInfo.texts, toCameraMeta, Usb3VInfo.toMeta, and_assoc]

/-- Each record has its entry. -/
theorem listing_tells (list : DeviceList) :
    List.Forall₂ Tells (records list) ((toCameraMetaInfoList list []).map toCameraMeta) := by
  rw [toCameraMetaInfoList_eq, List.nil_append]
  induction list with
  | nil => exact .nil
  | cons p list ih =>
      rcases p with - | (g | u | n)
      · exact ih
      · exact .cons (tells_gige g) ih
      · exact .cons (tells_usb u) ih
      · exact ih

theorem decimal_length_le (n : UInt32) : (decimal n.toNat).length ≤ 10 := by
  rw [decimal, List.length_map]
  exact Nat.toDigits_length 10 _ 10 (by decide) (by have := n.toNat_lt; omega)

theorem dottedQuad_length_le (ip : UInt32) : (dottedQuad ip).length ≤ 43 := by
  have h₁ := decimal_length_le ((ip &&& 0xff000000) >>> 24)
  have h₂ := decimal_length_le ((ip &&& 0x00ff0000) >>> 16)
  have h₃ := decimal_length_le ((ip &&& 0x0000ff00) >>> 8)
  have h₄ := decimal_length_le (ip &&& 0x000000ff)
  simp only [dottedQuad, List.length_append, List.length_cons]
  omega

/-- How long a list of messages is, from the longest of them. -/
theorem response_length_le {r : Pb.Runtime} {deterministic : Bool} {data : List CameraMeta}
    {n : ℕ} (hn : n < 2 ^ 31)
    (h : ∀ it ∈ data, (encodeAll (it.fill.fields r deterministic)).length ≤ n) :
    (encodeAll ((response data).fields r deterministic)).length ≤ data.length * (n + 10) := by
  have hfields : (response data).fields r deterministic =
      data.flatMap fun it => [Pb.messageField 1 (it.fill.fields r deterministic)] := by
    rw [response_eq, Pb.CameraMetas.fields, List.map_map, List.map_eq_flatMap]
    exact List.append_nil _
  rw [hfields]
  refine Pb.length_flatMap_le fun it hit => ?_
  have hlength := h it hit
  have := Pb.length_encode_bytes_le 1
    (s := encodeAll (it.fill.fields r deterministic)) (by omega)
  simp only [Pb.messageField, encodeAll_cons, encodeAll_nil, List.append_nil]
  omega

/-- How long the message of a record is, whose strings have 64 KiB at most. -/
theorem entry_length_le {r : Pb.Runtime} (hr : r.Lawful) {deterministic : Bool}
    {list : DeviceList} (harrays : ∀ i ∈ records list, ∀ s ∈ i.texts, s.length ≤ 2 ^ 16)
    {it : CameraMeta} (hit : it ∈ (list.filterMap slotEntry).map toCameraMeta) :
    (encodeAll (it.fill.fields r deterministic)).length ≤ 7 * (2 * 2 ^ 16 + 30) := by
  obtain ⟨e, he, rfl⟩ := List.mem_map.mp hit
  obtain ⟨slot, hslot, he⟩ := List.mem_filterMap.mp he
  have hrecord : ∀ i, slot = some i → slotEntry slot ≠ none → i ∈ records list := by
    rintro i rfl hne
    refine List.mem_filterMap.mpr ⟨some i, hslot, ?_⟩
    cases i with
    | gige | usb => rfl
    | other => exact absurd rfl hne
  rcases slot with - | (g | u | n)
  · cases he
  · cases he
    have hg := harrays _ (hrecord _ rfl (by simp [slotEntry]))
    have hquad := dottedQuad_length_le g.nCurrentIp
    have hkey : (Pb.ofLiteral "ipAddr").length ≤ 2 ^ 16 := by decide
    have htype : (Pb.ofLiteral "gige").length ≤ 2 ^ 16 := by decide
    exact fill_length_le rfl hr (by decide) hkey (by omega) htype hg
  · cases he
    have hu := harrays _ (hrecord _ rfl (by simp [slotEntry]))
    have hkey : (Pb.ofLiteral "deviceGUID").length ≤ 2 ^ 16 := by decide
    have htype : (Pb.ofLiteral "usb").length ≤ 2 ^ 16 := by decide
    exact fill_length_le rfl hr (by decide) hkey (hu _ (by simp [DeviceInfo.texts])) htype
      fun s hs => hu s (List.mem_append_left [u.chDeviceGUID.text] hs)
  · cases he

/-- **Every list of the SDK fits**: it has 256 records at most, of arrays that are far shorter
than this. -/
theorem within_response {r : Pb.Runtime} (hr : r.Lawful) {deterministic : Bool}
    {list : DeviceList} (hlist : list.length ≤ 256)
    (harrays : ∀ i ∈ records list, ∀ s ∈ i.texts, s.length ≤ 2 ^ 16) :
    Pb.Within ((response ((toCameraMetaInfoList list []).map toCameraMeta)).fields
      r deterministic) := by
  rw [toCameraMetaInfoList_eq, List.nil_append, Pb.Within]
  have hentry : ∀ it ∈ (list.filterMap slotEntry).map toCameraMeta,
      (encodeAll (it.fill.fields r deterministic)).length ≤ 7 * (2 * 2 ^ 16 + 30) :=
    fun _ hit => entry_length_le hr harrays hit
  have hlength := response_length_le (by norm_num) hentry
  have hcount : ((list.filterMap slotEntry).map toCameraMeta).length ≤ 256 := by
    rw [List.length_map]
    exact (List.length_filterMap_le _ _).trans hlist
  omega

/-- What the entries of a response stand for. -/
theorem value_response {is : List DeviceInfo} {data : List CameraMeta}
    (h : List.Forall₂ Tells is data) :
    (response data).value = ⟨is.map fun i => ⟨i.told, []⟩, []⟩ ∧
      ((response data).Utf8 ↔ ∀ i ∈ is, ∀ s ∈ i.texts, Pb.isUtf8 s = true) := by
  rw [response_eq]
  simp only [Pb.CameraMetas.value, Pb.CameraMetas.Utf8, List.map_map, List.forall_mem_map]
  induction h with
  | nil => simp [Pb.UnknownFieldSet.empty]
  | cons hi _ ih =>
      simp only [List.map_cons, List.forall_mem_cons, Function.comp_apply, hi.1, hi.2, ih.2,
        and_true]
      simpa using ih.1

/-! ## The replies on the wire -/

/-- The content of a picture is received as it is. -/
theorem image_received {r : Pb.Runtime} (hr : r.Lawful) {reply : ImageReply}
    (hfit : Pb.Within (Pb.BytesBody.new.setContent reply.content).fields) :
    Pb.BytesBody.schema.read ((Pb.BytesBody.new.setContent reply.content).sent r) =
      some ⟨reply.content, []⟩ := Pb.BytesBody.read_sent hr hfit

/-- A run of `GetCameraMetas`: the SDK is asked once, and an error of its is not told. -/
theorem getCameraMetas_cases {P P' : Provider} {tr : SdkTrace} {reply : MetasReply}
    (h : Runs getCameraMetas P tr P' reply) :
    ∃ ret list, tr = [⟨.enumDevices [.gige, .usb], (ret, list)⟩] ∧ reply.status = .ok ∧
      reply.data =
        if ret = .ok then (toCameraMetaInfoList list []).map toCameraMeta else [] := by
  simp only [getCameraMetas, Provider.enumAllCameras, bind_assoc] at h
  rw [runs_bind] at h
  obtain ⟨t₁, P₁, ret, t₂, rfl, h₁, h₂⟩ := h
  obtain ⟨list, rfl, rfl⟩ := Provider.enumAllCamerasInfo_spec h₁
  refine ⟨ret, list, ?_⟩
  by_cases hret : ret = .ok
  · rw [if_neg (not_not.mpr hret)] at h₂
    simp only [bind_assoc, runs_get_bind, pure_bind, runs_pure] at h₂
    obtain ⟨rfl, -, rfl⟩ := h₂
    exact ⟨rfl, rfl, by rw [if_pos hret]⟩
  · rw [if_pos hret] at h₂
    simp only [pure_bind, runs_pure] at h₂
    obtain ⟨rfl, -, rfl⟩ := h₂
    exact ⟨rfl, rfl, by rw [if_neg hret]; rfl⟩

/-- **A client receives every camera or none.**  Whatever the SDK answered, the status is `OK`
and the reply is as long as it was measured.  A client reads the entries of all GigE and USB
records, in their order, if all names are UTF-8; if one of them is not, it reads nothing.  Where
the SDK failed, it reads an empty list. -/
theorem getCameraMetas_received {r : Pb.Runtime} (hr : r.Lawful) {deterministic : Bool}
    {P P' : Provider} {tr : SdkTrace} {reply : MetasReply}
    (h : Runs getCameraMetas P tr P' reply)
    (hfit : Pb.Within ((response reply.data).fields r deterministic)) :
    ∃ ret list, tr = [⟨.enumDevices [.gige, .usb], (ret, list)⟩] ∧ reply.status = .ok ∧
      ((response reply.data).sent r deterministic).length =
        ((response reply.data).byteSizeLong r).1 ∧
      Pb.CameraMetas.schema.read ((response reply.data).sent r deterministic) =
        if ret ≠ .ok then some ⟨[], []⟩
        else if ∀ i ∈ records list, ∀ s ∈ i.texts, Pb.isUtf8 s = true then
          some ⟨(records list).map fun i => ⟨i.told, []⟩, []⟩
        else none := by
  obtain ⟨ret, list, htr, hstatus, hdata⟩ := getCameraMetas_cases h
  refine ⟨ret, list, htr, hstatus, ?_, ?_⟩
  · rw [Pb.CameraMetas.sent, (Pb.CameraMetas.measured_writes hr hfit).1,
      (Pb.CameraMetas.measured_writes hr hfit).2]
  · rw [Pb.CameraMetas.read_sent hr hfit, hdata]
    by_cases hret : ret = .ok
    · obtain ⟨hvalue, hutf8⟩ := value_response (listing_tells list)
      simp only [if_pos hret, if_neg (not_not.mpr hret), hvalue, hutf8]
    · obtain ⟨hvalue, hutf8⟩ := value_response (List.Forall₂.nil (R := Tells))
      rw [if_neg hret, if_pos hret, if_pos (hutf8.mpr (by simp)), hvalue]
      rfl

/-- Two cameras, of which one has a serial number that is not UTF-8. -/
def namesakes : DeviceList :=
  [some (usbCamera [65]), some (usbCamera [0xC4, 0xE3])]

theorem getCameraMetas_received_none :
    ∃ P' reply,
      Runs getCameraMetas .new [⟨.enumDevices [.gige, .usb], (.ok, namesakes)⟩] P' reply ∧
      reply.status = .ok ∧
      Pb.CameraMetas.schema.read ((response reply.data).sent .documented false) = none := by
  have hfit : Pb.Within ((response ((toCameraMetaInfoList namesakes []).map toCameraMeta)).fields
      .documented false) :=
    within_response Pb.Runtime.documented_lawful (by decide) (by decide +kernel)
  have hruns : Runs getCameraMetas .new [⟨.enumDevices [.gige, .usb], (.ok, namesakes)⟩] _ _ :=
    runs_getCameraMetas.mpr ⟨rfl, rfl⟩
  refine ⟨_, _, hruns, rfl, ?_⟩
  obtain ⟨ret, list, htr, -, -, hread⟩ :=
    getCameraMetas_received Pb.Runtime.documented_lawful hruns hfit
  cases htr
  exact hread.trans (if_neg (by decide +kernel))

end CameraService
