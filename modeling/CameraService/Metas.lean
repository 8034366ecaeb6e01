import CameraService.GrpcServer

/-!
# What a client is told about the cameras

`GetCameraMetas` copies the device records twice, from the SDK to `CameraMetaInfo` and from
there to the response.  The response has an entry for each record of a known layer, in the
order of the records, with the names of the record, its layer, and the one detail that the
layer has.  The address of a GigE camera can be read back from its dotted quad.

## Main definitions

* `parseDecimal`, `parseQuad` — reading a dotted quad.
* `records` — the records of a known layer.
* `DeviceInfo.Shown` — the entry of a record.
* `metas_shown` — the response.
-/

namespace CameraService

open Interaction

/-! ## Dotted quads -/

/-- The value of a decimal numeral. -/
def parseDecimal (s : Bytes) : Option ℕ :=
  let digits := s.map fun b => Char.ofNat b.toNat
  if digits ≠ [] ∧ digits.all Char.isDigit = true then some (Nat.ofDigitChars 10 digits 0)
  else none

/-- The address that four numerals below 256 stand for. -/
def parseQuad (s : Bytes) : Option UInt32 :=
  match (s.splitOn 46).map parseDecimal with
  | [some a, some b, some c, some d] =>
    if a < 256 ∧ b < 256 ∧ c < 256 ∧ d < 256 then
      some (UInt32.ofNat (((a * 256 + b) * 256 + c) * 256 + d))
    else none
  | _ => none

theorem toNat_of_isDigit {c : Char} (h : c.isDigit = true) : 48 ≤ c.toNat ∧ c.toNat ≤ 57 := by
  simp only [Char.isDigit, Bool.and_eq_true, decide_eq_true_eq, ge_iff_le, UInt32.le_iff_toNat_le]
    at h
  exact h

/-- The digits of a numeral are its bytes. -/
theorem chars_decimal (n : ℕ) :
    (decimal n).map (fun b => Char.ofNat b.toNat) = Nat.toDigits 10 n := by
  rw [decimal, List.map_map]
  conv_rhs => rw [← List.map_id (Nat.toDigits 10 n)]
  apply List.map_congr_left
  intro c hc
  have hdigit := toNat_of_isDigit (Nat.isDigit_of_mem_toDigits (by decide) (by decide) hc)
  have hbyte : (UInt8.ofNat c.toNat).toNat = c.toNat :=
    UInt8.toNat_ofNat_of_lt' (show c.toNat < 256 by omega)
  simp only [Function.comp_apply, hbyte, Char.ofNat_toNat, id]

/-- **A numeral is read back.** -/
theorem parseDecimal_decimal (n : ℕ) : parseDecimal (decimal n) = some n := by
  have hne : Nat.toDigits 10 n ≠ [] := Nat.toDigits_ne_nil
  have hall : (Nat.toDigits 10 n).all Char.isDigit = true := by
    apply List.all_eq_true.mpr
    intro c hc
    exact Nat.isDigit_of_mem_toDigits (by decide) (by decide) hc
  simp only [parseDecimal, chars_decimal]
  rw [if_pos ⟨hne, hall⟩, Nat.ofDigitChars_ten_toDigits]

/-- There is no dot in a numeral. -/
theorem dot_notMem_decimal (n : ℕ) : 46 ∉ decimal n := by
  intro h
  obtain ⟨c, hc, he⟩ := List.mem_map.mp h
  have hdigit := toNat_of_isDigit (Nat.isDigit_of_mem_toDigits (by decide) (by decide) hc)
  have hbyte : (UInt8.ofNat c.toNat).toNat = c.toNat :=
    UInt8.toNat_ofNat_of_lt' (show c.toNat < 256 by omega)
  rw [he] at hbyte
  have h46 : (46 : UInt8).toNat = 46 := rfl
  omega

/-- The parts of an address are its bytes. -/
theorem toNat_quad (ip : UInt32) :
    ((ip &&& 0xff000000) >>> 24).toNat = ip.toNat / 2 ^ 24 ∧
      ((ip &&& 0x00ff0000) >>> 16).toNat = ip.toNat / 2 ^ 16 % 256 ∧
        ((ip &&& 0x0000ff00) >>> 8).toNat = ip.toNat / 2 ^ 8 % 256 ∧
          (ip &&& 0x000000ff).toNat = ip.toNat % 256 := by
  have hlt : ip.toNat < 2 ^ 32 := UInt32.toNat_lt ip
  have hmask : ∀ x k, (x &&& (255 <<< k)) >>> k = x / 2 ^ k % 256 := by
    intro x k
    rw [Nat.shiftRight_and_distrib, Nat.shiftLeft_shiftRight, Nat.shiftRight_eq_div_pow]
    exact Nat.and_two_pow_sub_one_eq_mod _ 8
  refine ⟨?_, ?_, ?_, ?_⟩
  · have h := hmask ip.toNat 24
    simp only [UInt32.toNat_shiftRight, UInt32.toNat_and]
    rw [show (0xff000000 : UInt32).toNat = 255 <<< 24 from rfl,
      show (24 : UInt32).toNat % 32 = 24 from rfl, h]
    omega
  · exact hmask ip.toNat 16
  · exact hmask ip.toNat 8
  · exact Nat.and_two_pow_sub_one_eq_mod _ 8

/-- **An address is read back** from its dotted quad. -/
theorem parseQuad_dottedQuad (ip : UInt32) : parseQuad (dottedQuad ip) = some ip := by
  have hlt : ip.toNat < 2 ^ 32 := UInt32.toNat_lt ip
  obtain ⟨h₁, h₂, h₃, h₄⟩ := toNat_quad ip
  have hsplit : ∀ a b c d : ℕ,
      (decimal a ++ 46 :: decimal b ++ 46 :: decimal c ++ 46 :: decimal d).splitOn 46 =
        [decimal a, decimal b, decimal c, decimal d] := by
    intro a b c d
    have h : ([46].intercalate [decimal a, decimal b, decimal c, decimal d]).splitOn 46 =
        [decimal a, decimal b, decimal c, decimal d] :=
      List.splitOn_intercalate 46 (by simp [dot_notMem_decimal]) (by simp)
    simpa [List.intercalate_cons_cons] using h
  simp only [parseQuad, dottedQuad, hsplit, List.map_cons, List.map_nil, parseDecimal_decimal, h₁,
    h₂, h₃, h₄]
  rw [if_pos (by omega), Option.some_inj, ← UInt32.toNat_inj, UInt32.toNat_ofNat_of_lt']
  · omega
  · change _ < 2 ^ 32
    omega

/-! ## The response -/

/-- The records of a known layer, in order. -/
def records (list : DeviceList) : List DeviceInfo :=
  list.filterMap fun
    | some (.gige g) => some (.gige g)
    | some (.usb u) => some (.usb u)
    | _ => none

/-- The entry of a record: its names up to their first terminator, its layer, and an address
or a GUID. -/
def DeviceInfo.Shown : DeviceInfo → CameraMeta → Prop
  | .gige g, m => m.serialNumber = cstr g.chSerialNumber.bytes ∧
      m.modelName = cstr g.chModelName.bytes ∧
      m.manufactureName = cstr g.chManufacturerName.bytes ∧
      m.deviceVersion = cstr g.chDeviceVersion.bytes ∧
      m.userDefinedName = cstr g.chUserDefinedName.bytes ∧ m.cameraType = "gige" ∧
      ∃ quad, m.info = [("ipAddr", quad)] ∧ parseQuad quad = some g.nCurrentIp
  | .usb u, m => m.serialNumber = cstr u.chSerialNumber.bytes ∧
      m.modelName = cstr u.chModelName.bytes ∧
      m.manufactureName = cstr u.chManufacturerName.bytes ∧
      m.deviceVersion = cstr u.chDeviceVersion.bytes ∧
      m.userDefinedName = cstr u.chUserDefinedName.bytes ∧ m.cameraType = "usb" ∧
      m.info = [("deviceGUID", cstr u.chDeviceGUID.bytes)]
  | .other _, _ => False

theorem shown_gige (g : GigEInfo) : (DeviceInfo.gige g).Shown (toCameraMeta g.toMeta) :=
  ⟨rfl, rfl, rfl, rfl, rfl, rfl, _, rfl, parseQuad_dottedQuad _⟩

theorem shown_usb (u : Usb3VInfo) : (DeviceInfo.usb u).Shown (toCameraMeta u.toMeta) :=
  ⟨rfl, rfl, rfl, rfl, rfl, rfl, rfl⟩

/-- Each record has its entry. -/
theorem listing_shown (list : DeviceList) :
    List.Forall₂ DeviceInfo.Shown (records list)
      ((toCameraMetaInfoList list []).map toCameraMeta) := by
  rw [toCameraMetaInfoList_eq, List.nil_append]
  induction list with
  | nil => exact .nil
  | cons p list ih =>
      rcases p with - | (g | u | n)
      · exact ih
      · exact .cons (shown_gige g) ih
      · exact .cons (shown_usb u) ih
      · exact ih

/-- What `GetCameraMetas` answers when the enumeration succeeds. -/
theorem runs_getCameraMetas {P P' : Provider} {list : DeviceList} {reply : MetasReply} :
    Runs getCameraMetas P [⟨.enumDevices [.gige, .usb], (.ok, list)⟩] P' reply ↔
      P' = { P with camera_info_list_ := ⟨P.camera_info_list_.epoch + 1, list⟩ } ∧
        reply = ⟨.ok, .ok, (toCameraMetaInfoList list []).map toCameraMeta⟩ := by
  simp only [getCameraMetas, Provider.enumAllCameras, Provider.enumAllCamerasInfo,
    CMvCamera.enumDevices, bind_assoc, pure_bind]
  rw [runs_call_bind]
  constructor
  · rintro ⟨⟨r, l⟩, tr, he, h⟩
    obtain ⟨he, rfl⟩ := List.cons_eq_cons.mp he
    cases he
    simp only [runs_modify_bind, runs_get_bind, ne_eq, not_true_eq_false, if_false, bind_assoc,
      pure_bind, runs_pure] at h
    exact h.2
  · rintro ⟨rfl, rfl⟩
    refine ⟨(.ok, list), [], rfl, ?_⟩
    simp only [runs_modify_bind, runs_get_bind, ne_eq, not_true_eq_false, if_false, bind_assoc,
      pure_bind, runs_pure, and_self]

/-- **The response shows the records.**  For every list that the SDK may return, with any
mix of entries: the response that is built from it, and that `GetCameraMetas` answers with,
has one entry for each GigE or USB record, in the order of the list, and nothing else. -/
theorem metas_shown (list : DeviceList) :
    List.Forall₂ DeviceInfo.Shown (records list)
      ((toCameraMetaInfoList list []).map toCameraMeta) ∧
    ∀ P : Provider,
      (∃ P' reply, Runs getCameraMetas P [⟨.enumDevices [.gige, .usb], (.ok, list)⟩] P' reply) ∧
      ∀ P' reply, Runs getCameraMetas P [⟨.enumDevices [.gige, .usb], (.ok, list)⟩] P' reply →
        reply.status = .ok ∧ List.Forall₂ DeviceInfo.Shown (records list) reply.data := by
  refine ⟨listing_shown list, fun P => ⟨⟨_, _, runs_getCameraMetas.mpr ⟨rfl, rfl⟩⟩, ?_⟩⟩
  intro P' reply h
  obtain ⟨-, rfl⟩ := runs_getCameraMetas.mp h
  exact ⟨rfl, listing_shown list⟩

/-- A leading zero and the largest byte. -/
example : parseQuad (dottedQuad 0x000A00FF) = some 0x000A00FF := by decide

end CameraService
