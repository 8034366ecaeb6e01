import CameraService.Concurrent.System
import CameraService.ProviderSpec

/-!
# What a section can do

`Section` lists the outcomes of the sections, one constructor for each, and is all
that the invariants know about `advance`.  The lemmas after it sort the outcomes by
what they touch: one device, the map, the counters, the owners.

## Main definitions

* `Found` — the outcomes of `find_camera_device_by_sn`.
* `Section`, `section_of_runs` — the outcomes of all sections.
* `Touch`, `Section.touch` — what a section does to one device.
-/

namespace CameraService

open Interaction Provider

/-- The outcomes of `find_camera_device_by_sn`: a running device, none, or one that
was shut down and is evicted. -/
inductive Found (held : DevId → Bool) (P : Provider) (sn : Key) :
    SdkTrace → Provider → Option DevId → Prop
  | hit {a : DevId} (hl : P.cameras_list_.lookup sn = some a)
      (hs : (P.heap a).isShutdown = false) : Found held P sn [] P (some a)
  | miss (hl : P.cameras_list_.lookup sn = none) : Found held P sn [] P none
  | evict {a : DevId} {tr : SdkTrace} {P' : Provider} (hl : P.cameras_list_.lookup sn = some a)
      (hs : (P.heap a).isShutdown = true)
      (h : Runs (release held a) { P with cameras_list_ := P.cameras_list_.erase sn } tr P' ()) :
      Found held P sn tr P' none

/-- The outcomes of the sections. -/
inductive Section (held : DevId → Bool) (P : Provider) : Pc → SdkTrace → Provider → Pc → Prop
  | arrive {sn : Bytes} {shape : ImageShape} {tr : SdkTrace} {ret : Ret} {data : Buff}
      (h : Runs (Buff.empty.ensureSize defaultImageSize) P tr P (ret, data)) :
      Section held P (.arrive (.getImage sn shape)) tr P (.lookup (toUpper sn) data)
  | hit {sn : Key} {data : Buff} {tr : SdkTrace} {P' : Provider} {a : DevId}
      (h : Found held P sn tr P' (some a)) : Section held P (.lookup sn data) tr P' (.take a data)
  | miss {sn : Key} {data : Buff} {tr : SdkTrace} {P' : Provider}
      (h : Found held P sn tr P' none) : Section held P (.lookup sn data) tr P' (.findInfo sn data)
  | unknown {sn : Key} {data : Buff}
      (h : P.camera_info_list_.findCameraInfoBySn (.ofString sn) = none) :
      Section held P (.findInfo sn data) [] P (.replied (imageReply (.err .failure) data))
  | known {sn : Key} {data : Buff} {info : RecordPtr}
      (h : P.camera_info_list_.findCameraInfoBySn (.ofString sn) = some info) :
      Section held P (.findInfo sn data) [] P (.create sn info data)
  | failed {sn : Key} {info : RecordPtr} {data : Buff} {tr : SdkTrace} {d : CameraDevice}
      {ret : Ret} (h : Runs (createDevice info) P tr (P.withDevice d) (ret, P.next))
      (hr : ret ≠ .ok) (hd : d.Closed ∨ d.HalfOpen) :
      Section held P (.create sn info data) tr (P.withDevice d) (.abandon P.next data)
  | created {sn : Key} {info : RecordPtr} {data : Buff} {tr : SdkTrace} {d : CameraDevice}
      (h : Runs (createDevice info) P tr (P.withDevice d) (.ok, P.next)) (hd : d.Running) :
      Section held P (.create sn info data) tr (P.withDevice d) (.publish sn P.next data)
  | abandon {a : DevId} {data : Buff} {tr : SdkTrace} {P' : Provider}
      (h : Runs (release held a) P tr P' ()) :
      Section held P (.abandon a data) tr P' (.replied (imageReply (.err .failure) data))
  | publish {sn : Key} {a : DevId} {data : Buff} {tr : SdkTrace} {P' : Provider}
      (h : Runs (addCameraDevice held sn a) P tr P' ()) :
      Section held P (.publish sn a data) tr P' (.take a data)
  | take {a : DevId} {data data' : Buff} {tr : SdkTrace} {d : CameraDevice} {ret : Ret}
      (h : Runs (CameraDevice.takePicture none data) (P.heap a) tr d (ret, data')) :
      Section held P (.take a data) tr ((deviceAt a).set d P) (.leave a ret data')
  | leave {a : DevId} {ret : Ret} {data : Buff} {tr : SdkTrace} {P' : Provider}
      (h : Runs (release held a) P tr P' ()) :
      Section held P (.leave a ret data) tr P' (.replied (imageReply ret data))
  | closeHit {sn : CharArray} {tr : SdkTrace} {P' : Provider} {a : DevId}
      (h : Found held P sn.text tr P' (some a)) :
      Section held P (.arrive (.closeCamera sn)) tr P' (.closing a)
  | closeMiss {sn : CharArray} {tr : SdkTrace} {P' : Provider}
      (h : Found held P sn.text tr P' none) :
      Section held P (.arrive (.closeCamera sn)) tr P' .closed
  | closing {a : DevId} {tr : SdkTrace} {d : CameraDevice}
      (h : Runs CameraDevice.stopAndClose (P.heap a) tr d ()) :
      Section held P (.closing a) tr ((deviceAt a).set d P) (.closeLeave a)
  | closeLeave {a : DevId} {tr : SdkTrace} {P' : Provider}
      (h : Runs (release held a) P tr P' ()) : Section held P (.closeLeave a) tr P' .closed
  | enumFailed {list : DeviceList} {ret : Ret} (hr : ret ≠ .ok) :
      Section held P (.arrive .getCameraMetas) [⟨.enumDevices [.gige, .usb], (ret, list)⟩]
        { P with camera_info_list_ := ⟨P.camera_info_list_.epoch + 1, list⟩ }
        (.listed ⟨ret, .ok, []⟩ [])
  | enumerated {list : DeviceList} :
      Section held P (.arrive .getCameraMetas) [⟨.enumDevices [.gige, .usb], (.ok, list)⟩]
        { P with camera_info_list_ := ⟨P.camera_info_list_.epoch + 1, list⟩ }
        (.convert 0 [] [])
  | convert {i : ℕ} {infos : List CameraMetaInfo} {epochs : List ℕ} {p : Option DeviceInfo}
      (hp : P.camera_info_list_.pDeviceInfo[i]? = some p) :
      Section held P (.convert i infos epochs) [] P
        (.convert (i + 1) (convertSlot infos p) (epochs ++ [P.camera_info_list_.epoch]))
  | converted {i : ℕ} {infos : List CameraMetaInfo} {epochs : List ℕ}
      (hp : P.camera_info_list_.pDeviceInfo[i]? = none) :
      Section held P (.convert i infos epochs) [] P
        (.listed ⟨.ok, .ok, infos.map toCameraMeta⟩ epochs)

variable {held : DevId → Bool} {P P' : Provider} {pc pc' : Pc} {tr : SdkTrace} {a b : DevId}
  {sn k : Key}

theorem found_of_runs {x : Option DevId} (h : Runs (findCameraDeviceBySn held sn) P tr P' x) :
    Found held P sn tr P' x := by
  rcases findCameraDeviceBySn_spec h with ⟨hl, rfl, rfl, rfl⟩ | ⟨a, hl, hx⟩
  · exact .miss hl
  · rcases hx with ⟨hs, rfl, rfl, rfl⟩ | ⟨hs, rfl, hr⟩
    · exact .hit hl hs
    · exact .evict hl hs hr

/-- **Every section ends in one of the listed outcomes.** -/
theorem section_of_runs (hf : pc.finished = false) (h : Runs (advance held pc) P tr P' pc') :
    Section held P pc tr P' pc' := by
  cases pc with
  | arrive r =>
      cases r with
      | getImage sn shape =>
          simp only [advance] at h
          rw [runs_bind] at h
          obtain ⟨t₁, P₁, ⟨ret, data⟩, t₂, rfl, h₁, h₂⟩ := h
          obtain ⟨rfl, -⟩ := Buff.ensureSize_spec h₁
          obtain ⟨rfl, rfl, rfl⟩ := runs_pure.mp h₂
          rw [List.append_nil]
          exact .arrive h₁
      | closeCamera sn =>
          simp only [advance] at h
          rw [runs_bind] at h
          obtain ⟨t₁, P₁, x, t₂, rfl, h₁, h₂⟩ := h
          cases x with
          | none =>
              obtain ⟨rfl, rfl, rfl⟩ := runs_pure.mp h₂
              rw [List.append_nil]
              exact .closeMiss (found_of_runs h₁)
          | some a =>
              obtain ⟨rfl, rfl, rfl⟩ := runs_pure.mp h₂
              rw [List.append_nil]
              exact .closeHit (found_of_runs h₁)
      | getCameraMetas =>
          simp only [advance] at h
          rw [runs_bind] at h
          obtain ⟨t₁, P₁, ret, t₂, rfl, h₁, h₂⟩ := h
          obtain ⟨list, rfl, rfl⟩ := enumAllCamerasInfo_spec h₁
          obtain ⟨rfl, rfl, rfl⟩ := runs_pure.mp h₂
          split
          · rename_i hr
            exact .enumFailed hr
          · rename_i hr
            obtain rfl : ret = .ok := by simpa using hr
            exact .enumerated
  | lookup sn data =>
      simp only [advance] at h
      rw [runs_bind] at h
      obtain ⟨t₁, P₁, x, t₂, rfl, h₁, h₂⟩ := h
      cases x with
      | none =>
          obtain ⟨rfl, rfl, rfl⟩ := runs_pure.mp h₂
          rw [List.append_nil]
          exact .miss (found_of_runs h₁)
      | some a =>
          obtain ⟨rfl, rfl, rfl⟩ := runs_pure.mp h₂
          rw [List.append_nil]
          exact .hit (found_of_runs h₁)
  | findInfo sn data =>
      simp only [advance, findCameraInfoBySn, bind_assoc, runs_get_bind, pure_bind] at h
      cases hi : P.camera_info_list_.findCameraInfoBySn (.ofString sn) with
      | none =>
          simp only [hi, runs_pure] at h
          obtain ⟨rfl, rfl, rfl⟩ := h
          exact .unknown hi
      | some info =>
          simp only [hi, runs_pure] at h
          obtain ⟨rfl, rfl, rfl⟩ := h
          exact .known hi
  | create sn info data =>
      simp only [advance] at h
      rw [runs_bind] at h
      obtain ⟨t₁, P₁, ⟨ret, a⟩, t₂, rfl, h₁, h₂⟩ := h
      obtain ⟨rfl, i, d, t₃, t₄, -, -, hs, rfl⟩ := createDevice_spec h₁
      obtain ⟨rfl, rfl, rfl⟩ := runs_pure.mp h₂
      rw [List.append_nil]
      rcases CameraDevice.start_spec (Or.inl CameraDevice.closed_new) hs with ⟨rfl, hd⟩ | ⟨hr, hd⟩
      · rw [if_neg (by simp)]
        exact .created h₁ hd
      · rw [if_pos hr]
        exact .failed h₁ hr hd
  | abandon a data =>
      obtain ⟨u, h₁, rfl⟩ := runs_bind_pure.mp h
      exact .abandon h₁
  | publish sn a data =>
      obtain ⟨u, h₁, rfl⟩ := runs_bind_pure.mp h
      exact .publish h₁
  | take a data =>
      simp only [advance] at h
      rw [runs_bind] at h
      obtain ⟨t₁, P₁, ⟨ret, data'⟩, t₂, rfl, h₁, h₂⟩ := h
      obtain ⟨d, hd, rfl⟩ := runs_onDevice.mp h₁
      obtain ⟨rfl, rfl, rfl⟩ := runs_pure.mp h₂
      rw [List.append_nil]
      exact .take hd
  | leave a ret data =>
      obtain ⟨u, h₁, rfl⟩ := runs_bind_pure.mp h
      exact .leave h₁
  | replied reply => simp [Pc.finished] at hf
  | closing a =>
      obtain ⟨u, h₁, rfl⟩ := runs_bind_pure.mp h
      obtain ⟨d, hd, rfl⟩ := runs_onDevice.mp h₁
      exact .closing hd
  | closeLeave a =>
      obtain ⟨u, h₁, rfl⟩ := runs_bind_pure.mp h
      exact .closeLeave h₁
  | closed => simp [Pc.finished] at hf
  | convert i infos epochs =>
      simp only [advance, runs_get_bind, runs_pure] at h
      obtain ⟨rfl, rfl, rfl⟩ := h
      rw [convertStep]
      split
      · rename_i p hp
        exact .convert hp
      · rename_i hp
        exact .converted hp
  | listed reply epochs => simp [Pc.finished] at hf

/-! ## What a section touches -/

/-- The section is `find_camera_device_by_sn` for this key. -/
inductive Pc.LooksUp (sn : Key) : Pc → Prop
  | image {data : Buff} : LooksUp sn (.lookup sn data)
  | close {c : CharArray} (hc : c.text = sn) : LooksUp sn (.arrive (.closeCamera c))

/-- How a section edits the map: not at all, or at one key, where a device that was
shut down is erased or the thread's own device is inserted. -/
inductive Edit (P : Provider) (pc : Pc) : (AList fun _ : Key => DevId) → Prop
  | keep : Edit P pc P.cameras_list_
  | erase {sn : Key} {a : DevId} (hpc : pc.LooksUp sn) (hl : P.cameras_list_.lookup sn = some a)
      (hs : (P.heap a).isShutdown = true) : Edit P pc (P.cameras_list_.erase sn)
  | insert {sn : Key} {a : DevId} {data : Buff} (hpc : pc = .publish sn a data) :
      Edit P pc (P.cameras_list_.insert sn a)

/-- The sections by what they touch: the map, a new device, the own device, or the
array of records. -/
inductive Effect (held : DevId → Bool) (P : Provider) : Pc → SdkTrace → Provider → Prop
  | edit {pc : Pc} {tr : SdkTrace} {P' : Provider} {m : AList fun _ : Key => DevId}
      (hpc : ∀ sn info data, pc ≠ .create sn info data) (hm : Edit P pc m)
      (h : Released held { P with cameras_list_ := m } P') : Effect held P pc tr P'
  | create {sn : Key} {info : RecordPtr} {data : Buff} {tr : SdkTrace} {d : CameraDevice}
      {ret : Ret} (h : Runs (createDevice info) P tr (P.withDevice d) (ret, P.next)) :
      Effect held P (.create sn info data) tr (P.withDevice d)
  | take {a : DevId} {data data' : Buff} {tr : SdkTrace} {d : CameraDevice} {ret : Ret}
      (h : Runs (CameraDevice.takePicture none data) (P.heap a) tr d (ret, data')) :
      Effect held P (.take a data) tr ((deviceAt a).set d P)
  | closing {a : DevId} {tr : SdkTrace} {d : CameraDevice}
      (h : Runs CameraDevice.stopAndClose (P.heap a) tr d ()) :
      Effect held P (.closing a) tr ((deviceAt a).set d P)
  | enumerate {tr : SdkTrace} {list : DeviceList} :
      Effect held P (.arrive .getCameraMetas) tr
        { P with camera_info_list_ := ⟨P.camera_info_list_.epoch + 1, list⟩ }

theorem Found.effect {x : Option DevId} (hpc : pc.LooksUp sn) (h : Found held P sn tr P' x) :
    Effect held P pc tr P' := by
  have hne : ∀ sn info data, pc ≠ .create sn info data := by
    cases hpc <;> simp
  cases h with
  | hit hl hs => exact .edit hne .keep .refl
  | miss hl => exact .edit hne .keep .refl
  | evict hl hs h => exact .edit hne (.erase hpc hl hs) (release_spec h)

theorem Section.effect (h : Section held P pc tr P' pc') : Effect held P pc tr P' := by
  cases h with
  | arrive h => exact .edit (by simp) .keep .refl
  | hit h => exact h.effect .image
  | miss h => exact h.effect .image
  | unknown h => exact .edit (by simp) .keep .refl
  | known h => exact .edit (by simp) .keep .refl
  | failed h hr hd => exact .create h
  | created h hd => exact .create h
  | abandon h => exact .edit (by simp) .keep (release_spec h)
  | publish h => exact .edit (by simp) (.insert rfl) (addCameraDevice_spec h)
  | take h => exact .take h
  | leave h => exact .edit (by simp) .keep (release_spec h)
  | closeHit h => exact h.effect (.close rfl)
  | closeMiss h => exact h.effect (.close rfl)
  | closing h => exact .closing h
  | closeLeave h => exact .edit (by simp) .keep (release_spec h)
  | enumFailed hr => exact .enumerate
  | enumerated => exact .enumerate
  | convert hp => exact .edit (by simp) .keep .refl
  | converted hp => exact .edit (by simp) .keep .refl

/-- What a section does to the device at `b`: nothing, unless it makes the device,
takes a picture with it or shuts it down. -/
inductive Touch (held : DevId → Bool) (P : Provider) (pc : Pc) (tr : SdkTrace) (P' : Provider)
    (b : DevId) : Prop
  | same (h : P'.heap b = P.heap b)
  | made {sn : Key} {info : RecordPtr} {data : Buff} (hpc : pc = .create sn info data)
      (hb : b = P.next)
  | kept {data : Buff} (hpc : pc = .take b data) (hb : (P.heap b).Running)
      (hr : (P'.heap b).Running) (hc : tr.any CameraDevice.closing = false)
  | dropped {data : Buff} (hpc : pc = .take b data) (hr : (P'.heap b).Closed)
      (hc : tr.any CameraDevice.closing = true)
  | closed (hpc : pc = .closing b) (hr : (P'.heap b).Closed)
  | released (hr : (P'.heap b).Closed) (hb : held b = false) (hp : ¬ P'.Published b)

theorem Effect.touch (h : Effect held P pc tr P') (b : DevId) : Touch held P pc tr P' b := by
  cases h with
  | edit hpc hm h =>
      rcases h.heap b with hb | ⟨hc, hh, hp⟩
      · exact .same hb
      · exact .released hc hh (by rwa [h.published])
  | create h =>
      by_cases hb : b = P.next
      · exact .made rfl hb
      · exact .same (by simp [withDevice, hb])
  | @take a data data' _ d ret h =>
      by_cases hb : b = a
      · subst hb
        rcases (CameraDevice.takePicture_spec h).2 with ⟨hc, hd, -⟩ | ⟨hc, hd⟩
        · exact .dropped rfl (by simpa using hd) hc
        · exact .kept rfl (CameraDevice.takePicture_spec h).1 (by simpa using hd) hc
      · exact .same (by simp [hb])
  | @closing a _ d h =>
      by_cases hb : b = a
      · subst hb
        exact .closed rfl (by simpa using CameraDevice.closed_of_stopAndClose h)
      · exact .same (by simp [hb])
  | enumerate => exact .same rfl

theorem Effect.next_le (h : Effect held P pc tr P') : P.next ≤ P'.next := by
  cases h with
  | edit hpc hm h => exact (h.next).ge
  | create h => exact Nat.le_succ _
  | take h => exact le_rfl
  | closing h => exact le_rfl
  | enumerate => exact le_rfl

/-- Only a publication brings a new entry into the map. -/
theorem Effect.lookup_old (h : Effect held P pc tr P') (hk : P'.cameras_list_.lookup k = some a) :
    P.cameras_list_.lookup k = some a ∨ ∃ data, pc = .publish k a data := by
  cases h with
  | edit hpc hm h =>
      rw [h.map] at hk
      cases hm with
      | keep => exact Or.inl hk
      | erase hsn hl hs => exact Or.inl (lookup_erase_eq_some.mp hk).2
      | insert hpub =>
          rcases lookup_insert_eq_some.mp hk with ⟨rfl, rfl⟩ | ⟨-, hk⟩
          · exact Or.inr ⟨_, hpub⟩
          · exact Or.inl hk
  | create h => exact Or.inl hk
  | take h => exact Or.inl hk
  | closing h => exact Or.inl hk
  | enumerate => exact Or.inl hk

/-- **An entry leaves the map** when a request looks it up and finds its device shut
down, or when another device is published for its key. -/
theorem Effect.lookup_new (h : Effect held P pc tr P') (hk : P.cameras_list_.lookup k = some a) :
    P'.cameras_list_.lookup k = some a ∨ (pc.LooksUp k ∧ (P.heap a).isShutdown = true) ∨
      ∃ b data, pc = .publish k b data := by
  cases h with
  | edit hpc hm h =>
      rw [h.map]
      cases hm with
      | keep => exact Or.inl hk
      | @erase sn b hsn hl hs =>
          by_cases he : k = sn
          · subst he
            obtain rfl : a = b := Option.some.inj (hk.symm.trans hl)
            exact Or.inr (Or.inl ⟨hsn, hs⟩)
          · exact Or.inl (lookup_erase_eq_some.mpr ⟨he, hk⟩)
      | @insert sn b data hpub =>
          by_cases he : k = sn
          · subst he
            exact Or.inr (Or.inr ⟨b, data, hpub⟩)
          · exact Or.inl (lookup_insert_eq_some.mpr (Or.inr ⟨he, hk⟩))
  | create h => exact Or.inl hk
  | take h => exact Or.inl hk
  | closing h => exact Or.inl hk
  | enumerate => exact Or.inl hk

theorem Found.published (h : Found held P sn tr P' (some a)) :
    P.cameras_list_.lookup sn = some a ∧ (P.heap a).isShutdown = false ∧ P' = P := by
  cases h with
  | hit hl hs => exact ⟨hl, hs, rfl⟩

/-- A reference comes from the map or from a new device, if it is not an old one. -/
theorem Section.owns (h : Section held P pc tr P' pc') (ha : pc'.owns a = true) :
    pc.owns a = true ∨ P.Published a ∨
      (a = P.next ∧ ∃ sn info data, pc = .create sn info data) := by
  cases h with
  | hit h =>
      obtain rfl : _ = a := by simpa [Pc.owns] using ha
      exact Or.inr (Or.inl (published_iff.mpr ⟨_, h.published.1⟩))
  | closeHit h =>
      obtain rfl : _ = a := by simpa [Pc.owns] using ha
      exact Or.inr (Or.inl (published_iff.mpr ⟨_, h.published.1⟩))
  | failed h hr hd =>
      obtain rfl : _ = a := by simpa [Pc.owns] using ha
      exact Or.inr (Or.inr ⟨rfl, _, _, _, rfl⟩)
  | created h hd =>
      obtain rfl : _ = a := by simpa [Pc.owns] using ha
      exact Or.inr (Or.inr ⟨rfl, _, _, _, rfl⟩)
  | publish h => exact Or.inl ha
  | take h => exact Or.inl ha
  | closing h => exact Or.inl ha
  | _ => simp [Pc.owns] at ha

/-- A device is opened by the section that makes it. -/
theorem Section.opens (h : Section held P pc tr P' pc') (ha : pc'.opens a = true) :
    a = P.next ∧ ∃ sn info data, pc = .create sn info data := by
  cases h with
  | failed h hr hd =>
      obtain rfl : _ = a := by simpa [Pc.opens] using ha
      exact ⟨rfl, _, _, _, rfl⟩
  | created h hd =>
      obtain rfl : _ = a := by simpa [Pc.opens] using ha
      exact ⟨rfl, _, _, _, rfl⟩
  | _ => simp [Pc.opens] at ha

end CameraService
