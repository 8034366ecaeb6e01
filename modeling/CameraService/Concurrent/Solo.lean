import CameraService.Concurrent.System

/-!
# A request that nobody interrupts

The sections of a request, one after the other, are the handler: the program
counters of the concurrent system leave nothing of the code out.  `GetImage` and
`close_camera` are the very same program; of `GetCameraMetas` the runs are the
same, since its loop ends with the slots of the list that it finds.

## Main results

* `sections_getImage`, `sections_closeCamera` — the handler, section by section.
* `sections_getCameraMetas` — each run of the handler is one of its sections.
-/

namespace CameraService

open Interaction Provider

/-- At most `n` sections of a request, in a row. -/
def sections (held : DevId → Bool) : ℕ → Pc → ProviderProc Pc
  | 0, pc => pure pc
  | n + 1, pc => do
    let pc ← advance held pc
    sections held n pc

section Solo
variable {held : DevId → Bool} {pc : Pc} {n : ℕ} {P P' : Provider} {tr : SdkTrace}

/-- Nothing follows the answer. -/
theorem sections_of_finished (h : pc.finished = true) : sections held n pc = pure pc := by
  induction n with
  | zero => rfl
  | succ n ih =>
      have hadvance : advance held pc = pure pc := by
        cases pc with
        | replied reply => rfl
        | closed => rfl
        | listed reply epochs => rfl
        | _ => cases h
      rw [sections, hadvance, pure_bind, ih]

/-- **The sections of `GetImage`** are the handler. -/
theorem sections_getImage {sn : Bytes} {shape : ImageShape} :
    sections held 7 (.arrive (.getImage sn shape)) = Pc.replied <$> getImage held sn shape := by
  simp only [sections, advance, getImage, Provider.takePicture, findOrCreateCameraDevice,
    createCameraDevice, map_eq_pure_bind, bind_assoc, pure_bind]
  refine bind_congr fun x => bind_congr fun found => ?_
  cases found with
  | some a => simp only [pure_bind, bind_assoc]
  | none =>
      simp only [pure_bind, bind_assoc]
      refine bind_congr fun known => ?_
      cases known with
      | none => simp only [pure_bind]
      | some info =>
          simp only [pure_bind, bind_assoc]
          refine bind_congr fun made => ?_
          by_cases hr : made.1 = .ok
          · simp [hr]
          · simp [hr]

/-- **The sections of `close_camera`** are the function. -/
theorem sections_closeCamera {sn : CharArray} :
    sections held 3 (.arrive (.closeCamera sn)) =
      (do Provider.closeCamera held sn; pure .closed) := by
  simp only [sections, advance, Provider.closeCamera, bind_assoc]
  refine bind_congr fun found => ?_
  cases found with
  | none => simp only [pure_bind]
  | some a => simp only [pure_bind, bind_assoc]

/-- An iteration reads the list and calls nothing. -/
theorem runs_sections_convert_succ {i : ℕ} {infos : List CameraMetaInfo} {epochs : List ℕ} :
    Runs (sections held (n + 1) (.convert i infos epochs)) P tr P' pc ↔
      Runs (sections held n (convertStep P.camera_info_list_ i infos epochs)) P tr P' pc := by
  rw [sections, advance, bind_assoc, runs_get_bind, pure_bind]

/-- The loop of `to_camera_meta_info_list`, when the list stays: one section for each
slot that is left, and one for the test that ends it. -/
theorem runs_sections_convert {l : DeviceList} {i : ℕ} (infos : List CameraMetaInfo)
    (epochs : List ℕ) (hl : l = P.camera_info_list_.pDeviceInfo.drop i) :
    ∃ epochs', Runs (sections held (l.length + 1) (.convert i infos epochs)) P [] P
      (.listed ⟨.ok, .ok, (toCameraMetaInfoList l infos).map toCameraMeta⟩ epochs') := by
  induction l generalizing i infos epochs with
  | nil =>
      have hnone : P.camera_info_list_.pDeviceInfo[i]? = none := by
        rw [List.getElem?_eq_none_iff, ← List.drop_eq_nil_iff, hl]
      refine ⟨epochs, runs_sections_convert_succ.mpr ?_⟩
      rw [convertStep, hnone, sections_of_finished rfl]
      exact runs_pure.mpr ⟨rfl, rfl, rfl⟩
  | cons p l ih =>
      have hp : P.camera_info_list_.pDeviceInfo[i]? = some p := by
        rw [← List.head?_drop, ← hl, List.head?_cons]
      have hrest : l = P.camera_info_list_.pDeviceInfo.drop (i + 1) := by
        rw [← List.tail_drop, ← hl, List.tail_cons]
      obtain ⟨epochs', h⟩ :=
        ih (convertSlot infos p) (epochs ++ [P.camera_info_list_.epoch]) hrest
      refine ⟨epochs', runs_sections_convert_succ.mpr ?_⟩
      rw [convertStep, hp]
      exact h

/-- **The sections of `GetCameraMetas`** go through every run of the handler. -/
theorem sections_getCameraMetas {reply : MetasReply} (h : Runs getCameraMetas P tr P' reply) :
    ∃ epochs, Runs (sections held (P'.camera_info_list_.pDeviceInfo.length + 2)
      (.arrive .getCameraMetas)) P tr P' (.listed reply epochs) := by
  simp only [getCameraMetas, enumAllCameras, bind_assoc] at h
  obtain ⟨t₁, P₁, ret, t₂, rfl, henum, h⟩ := runs_bind.mp h
  by_cases hret : ret = .ok
  · simp only [hret, ne_eq, not_true_eq_false, if_false, bind_assoc, pure_bind, runs_get_bind,
      runs_pure] at h
    obtain ⟨rfl, rfl, rfl⟩ := h
    obtain ⟨epochs, hconv⟩ := runs_sections_convert [] []
      (List.drop_zero (l := P'.camera_info_list_.pDeviceInfo)).symm
    refine ⟨epochs, ?_⟩
    rw [sections, advance, bind_assoc]
    refine runs_bind.mpr ⟨t₁, P', ret, [], rfl, henum, ?_⟩
    rw [pure_bind, if_neg (not_not_intro hret)]
    exact hconv
  · rw [if_pos hret, pure_bind, runs_pure] at h
    obtain ⟨rfl, rfl, rfl⟩ := h
    refine ⟨[], ?_⟩
    rw [sections, advance, bind_assoc]
    refine runs_bind.mpr ⟨t₁, P', ret, [], rfl, henum, ?_⟩
    rw [pure_bind, if_pos hret, sections_of_finished rfl]
    exact runs_pure.mpr ⟨rfl, rfl, rfl⟩

end Solo

end CameraService
