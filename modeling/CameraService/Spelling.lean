import CameraService.Independence

/-!
# How a serial number is spelled

`take_picture` upper-cases the serial number before it looks anything up, and so pictures do
not depend on its spelling.  `close_camera` looks its argument up as it is.  The keys are
upper-cased, and a lower-case spelling closes nothing.

## Main definitions

* `ClosesAlike` — two spellings close the same.
* `ClosesUsed` — a spelling closes the device of a key.
* `closesAlike_iff_spelled` — when they do.
-/

namespace CameraService

open Interaction Provider

variable {P P' : Provider} {k : Key} {s₁ s₂ : Bytes} {tr : SdkTrace}

/-- Pictures of two spellings are one program. -/
theorem takePicture_spelling (held : DevId → Bool) (h : toUpper s₁ = toUpper s₂)
    (param : Option ImageParameter) (data_ : Buff) :
    takePicture held s₁ param data_ = takePicture held s₂ param data_ := by
  simp only [takePicture, findOrCreateCameraDevice, h]

/-- Two spellings close the same: under the same answers they leave the same state. -/
def ClosesAlike (P : Provider) (s₁ s₂ : Bytes) : Prop :=
  ∀ tr P', Runs (closeCamera nobody (.ofString s₁)) P tr P' () ↔
    Runs (closeCamera nobody (.ofString s₂)) P tr P' ()

/-- `close_camera` stops and closes the running device of the key, and touches nothing else. -/
structure ClosesUsed (P : Provider) (k : Key) (s : Bytes) : Prop where
  defined : ∀ tr f, ¬ Faults (closeCamera nobody (.ofString s)) P tr f
  closes : ∃ a, P.cameras_list_.lookup k = some a ∧ (P.heap a).Running ∧
    ∀ tr P', Runs (closeCamera nobody (.ofString s)) P tr P' () →
      Runs CameraDevice.stopAndClose (P.heap a) tr (P'.heap a) () ∧ (P'.heap a).Closed ∧
        (∀ b, b ≠ a → P'.heap b = P.heap b) ∧ P'.cameras_list_ = P.cameras_list_

/-- A spelling that is not upper-cased is not a key. -/
theorem Provider.Sound.lookup_none (hs : P.Sound) (h : toUpper k ≠ k) :
    P.cameras_list_.lookup k = none := by
  cases hl : P.cameras_list_.lookup k with
  | none => rfl
  | some a => exact absurd (hs.upper k a hl) h

/-- Closing what is not in the map does nothing. -/
theorem runs_closeCamera_of_none (hs : P.Sound) {s : Bytes}
    (h : P.cameras_list_.lookup (cstr s) = none) :
    Runs (closeCamera nobody (.ofString s)) P tr P' () ↔ tr = [] ∧ P' = P := by
  rw [runs_closeCamera_iff hs, CharArray.text_ofString, usable_entry, h, without_of_none h]
  simp

/-- Closing what is in the map changes the state. -/
theorem closeCamera_changes (hs : P.Sound) {s : Bytes}
    (h : P.cameras_list_.lookup (cstr s) ≠ none) :
    ¬ Runs (closeCamera nobody (.ofString s)) P tr P () := by
  rw [runs_closeCamera_iff hs, CharArray.text_ofString]
  rintro (⟨a, d, hl, ha, hd, hP⟩ | ⟨-, -, hP⟩)
  · have hheap : P.heap a = d := by
      rw [hP]
      simp
    rw [hheap] at ha
    exact ha.not_closed (CameraDevice.closed_of_stopAndClose hd)
  · rw [hP] at h
    simp [Provider.without] at h

/-- **Spellings close alike** when they are the same, when nothing has the key, or when
neither is upper-cased. -/
theorem closesAlike_iff (hs : P.Sound) (h : toUpper s₁ = toUpper s₂) :
    ClosesAlike P s₁ s₂ ↔ cstr s₁ = cstr s₂ ∨
      P.cameras_list_.lookup (toUpper (cstr s₁)) = none ∨
        (toUpper (cstr s₁) ≠ cstr s₁ ∧ toUpper (cstr s₂) ≠ cstr s₂) := by
  have hc : toUpper (cstr s₁) = toUpper (cstr s₂) := by rw [← cstr_toUpper, ← cstr_toUpper, h]
  -- a spelling of a missing key is missing
  have hnone : ∀ {s : Bytes}, P.cameras_list_.lookup (toUpper (cstr s)) = none ∨
      toUpper (cstr s) ≠ cstr s → P.cameras_list_.lookup (cstr s) = none := by
    rintro s (hl | hne)
    · by_cases he : toUpper (cstr s) = cstr s
      · rwa [he] at hl
      · exact hs.lookup_none he
    · exact hs.lookup_none hne
  have hboth : P.cameras_list_.lookup (cstr s₁) = none → P.cameras_list_.lookup (cstr s₂) = none →
      ClosesAlike P s₁ s₂ := by
    intro h₁ h₂ tr P'
    rw [runs_closeCamera_of_none hs h₁, runs_closeCamera_of_none hs h₂]
  constructor
  · intro hsame
    by_contra hnot
    push Not at hnot
    obtain ⟨hne, hl, hupper⟩ := hnot
    by_cases h₁ : toUpper (cstr s₁) = cstr s₁
    · have h₂ : toUpper (cstr s₂) ≠ cstr s₂ := fun h₂ => hne (h₁.symm.trans (hc.trans h₂))
      have hrun := (runs_closeCamera_of_none hs (hs.lookup_none h₂)).mpr ⟨rfl, rfl⟩
      rw [h₁] at hl
      exact closeCamera_changes hs hl ((hsame [] P).mpr hrun)
    · have h₂ := hupper h₁
      have hrun := (runs_closeCamera_of_none hs (hs.lookup_none h₁)).mpr ⟨rfl, rfl⟩
      rw [hc, h₂] at hl
      exact closeCamera_changes hs hl ((hsame [] P).mp hrun)
  · rintro (he | hl | ⟨h₁, h₂⟩)
    · intro tr P'
      rw [runs_closeCamera_iff hs, runs_closeCamera_iff hs, CharArray.text_ofString,
        CharArray.text_ofString, he]
    · exact hboth (hnone (Or.inl hl)) (hnone (Or.inl (hc ▸ hl)))
    · exact hboth (hnone (Or.inr h₁)) (hnone (Or.inr h₂))

/-- A picture that succeeded leaves its device running, under the upper-cased key. -/
theorem used_of_takePicture {param : Option ImageParameter} {data_ data' : Buff} (hs : P.Sound)
    (h : Runs (takePicture nobody s₁ param data_) P tr P' (.ok, data')) :
    P'.Sound ∧ ∃ a, P'.cameras_list_.lookup (toUpper s₁) = some a ∧ (P'.heap a).Running := by
  obtain ⟨hp, honly⟩ := pictured_of_runs hs h
  have hrunning : ∀ {d d' : CameraDevice} {t}, Runs (CameraDevice.takePicture param data_) d t d'
      (.ok, data') → d'.Running := by
    intro d d' t hd
    obtain ⟨-, ⟨-, -, hbad⟩ | ⟨-, hrun⟩⟩ := CameraDevice.takePicture_spec hd
    · exact absurd rfl hbad
    · exact hrun
  have husable : Usable (P'.entry (toUpper s₁)) := by
    generalize P.entry (toUpper s₁) = e at hp
    generalize P'.entry (toUpper s₁) = e' at hp ⊢
    cases hp with
    | hit hd hrun => exact ⟨_, rfl, hrunning hrun⟩
    | opened hn hl hi h₁ h₂ => exact ⟨_, rfl, hrunning h₂⟩
  exact ⟨honly.sound, usable_entry.mp husable⟩

/-- **The device of a key is closed** by the spelling of the key, and by no other. -/
theorem closesUsed_iff (hs : P.Sound) {a : DevId} (hl : P.cameras_list_.lookup k = some a)
    (ha : (P.heap a).Running) {s : Bytes} : ClosesUsed P k s ↔ cstr s = k := by
  have hdefined : ∀ tr f, ¬ Faults (closeCamera nobody (.ofString s)) P tr f := fun tr f =>
    closeCamera_faults hs
  constructor
  · intro h
    by_contra hne
    obtain ⟨b, hb, -, hcloses⟩ := h.closes
    obtain rfl : a = b := Option.some_inj.mp (hl.symm.trans hb)
    obtain ⟨tr, -, ⟨P', u, hrun⟩ | ⟨f, hf⟩⟩ := exists_each (R := fun _ => True) (obliging 0)
      (fun _ => trivial) (closeCamera nobody (.ofString s)) P
    · obtain ⟨-, hclosed, -, hmap⟩ := hcloses tr P' hrun
      have hothers := (closeCamera_only hs hrun).1.others k (by simpa using Ne.symm hne)
      simp only [Provider.entry, hmap, hl, Option.map_some, Option.some_inj] at hothers
      rw [hothers] at hclosed
      exact ha.not_closed hclosed
    · exact hdefined tr f hf
  · intro he
    refine ⟨hdefined, a, hl, ha, fun tr P' hrun => ?_⟩
    obtain ⟨b, d, hb, -, hd, rfl⟩ | ⟨hn, -, -⟩ := (runs_closeCamera_iff hs).mp hrun
    · rw [CharArray.text_ofString, he, hl, Option.some_inj] at hb
      subst hb
      refine ⟨by simpa using hd, by simpa using CameraDevice.closed_of_stopAndClose hd, ?_, rfl⟩
      intro b hb
      simp [deviceAt, hb]
    · rw [CharArray.text_ofString, he] at hn
      exact absurd (usable_entry.mpr ⟨a, hl, ha⟩) hn

/-- **The spelling of a serial number** does not matter to pictures.  It matters to
`close_camera`, for all reachable states and spellings: two spellings close alike exactly
when they are the same, nothing has the key, or neither is upper-cased; and after a picture
that succeeded, a spelling closes the device of the picture exactly when it is upper-cased. -/
theorem closesAlike_iff_spelled {calls : List ProviderCall} {t : SdkTrace}
    (ht : Runs (serve calls) .new t P ()) (h : toUpper s₁ = toUpper s₂) :
    (∀ param data_,
      (∀ tr P' x, Runs (takePicture nobody s₁ param data_) P tr P' x ↔
        Runs (takePicture nobody s₂ param data_) P tr P' x) ∧
      ∀ tr f, Faults (takePicture nobody s₁ param data_) P tr f ↔
        Faults (takePicture nobody s₂ param data_) P tr f) ∧
    (ClosesAlike P s₁ s₂ ↔ cstr s₁ = cstr s₂ ∨
      P.cameras_list_.lookup (toUpper (cstr s₁)) = none ∨
        (toUpper (cstr s₁) ≠ cstr s₁ ∧ toUpper (cstr s₂) ≠ cstr s₂)) ∧
    ∀ param data_ tr P' data', Runs (takePicture nobody s₁ param data_) P tr P' (.ok, data') →
      (ClosesUsed P' (toUpper s₁) s₂ ↔ cstr s₂ = toUpper s₂) := by
  have hs : P.Sound := serve_sound sound_new ht
  refine ⟨fun param data_ => ?_, closesAlike_iff hs h, fun param data_ tr P' data' hrun => ?_⟩
  · rw [takePicture_spelling nobody h]
    exact ⟨fun _ _ _ => Iff.rfl, fun _ _ => Iff.rfl⟩
  · obtain ⟨hs', a, hl, ha⟩ := used_of_takePicture hs hrun
    rw [closesUsed_iff hs' hl ha, h]

/-- A caller's buffer with room for the picture. -/
def roomFor16 : Buff := ⟨some ⟨16, fun _ => 0⟩, 16, 0⟩

/-- A picture of the started camera. -/
theorem runs_goodPicture : ∃ tr d data', Runs (CameraDevice.takePicture none roomFor16)
    (startedOn 1) tr d (.ok, data') := by
  have hrun : Runs (CameraDevice.takePicture none roomFor16) (startedOn 1) _ _ (.ok, _) :=
    runs_of_exec (o := obliging) rfl
  exact ⟨_, _, _, hrun⟩

/-- The camera `A` is listed, and pictured as `a`. -/
theorem exists_pictured_lower : ∃ t P tr P' data',
    Runs (serve [.enumAllCameras]) .new t P () ∧
      Runs (takePicture nobody [97] none roomFor16) P tr P' (.ok, data') := by
  have hs : (listed .new [some (usbCamera [65])]).Sound :=
    ⟨sound_new.made, sound_new.settled, sound_new.apart, sound_new.upper⟩
  have hempty : ¬ Usable ((listed .new [some (usbCamera [65])]).entry (toUpper [97])) := by
    rintro ⟨d, hd, -⟩
    cases hd
  obtain ⟨tr, d, data', hpicture⟩ := runs_goodPicture
  have hserve : Runs (serve [.enumAllCameras]) .new _ (listed .new [some (usbCamera [65])]) () :=
    runs_bind.mpr ⟨_, _, (), _, rfl, runs_listed .new [some (usbCamera [65])],
      runs_pure.mpr ⟨rfl, rfl, rfl⟩⟩
  have hpictured := Pictured.opened (p := ⟨1, 0⟩) (l := ⟨1, [some (usbCamera [65])]⟩)
    (k := toUpper [97]) hempty rfl rfl (runs_startOf 1) hpicture
  obtain ⟨P', hrun, -⟩ := runs_of_pictured (P := listed .new [some (usbCamera [65])]) hs hpictured
  exact ⟨_, _, _, P', data', hserve, hrun⟩

/-- The picture of `a` is closed as `A`. -/
theorem closesAlike_iff_spelled_upper : ∃ t P tr P' data',
    Runs (serve [.enumAllCameras]) .new t P () ∧
      Runs (takePicture nobody [97] none roomFor16) P tr P' (.ok, data') ∧
        ClosesUsed P' (toUpper [97]) [65] := by
  obtain ⟨t, P, tr, P', data', ht, hrun⟩ := exists_pictured_lower
  refine ⟨t, P, tr, P', data', ht, hrun, ?_⟩
  have h : toUpper [97] = toUpper [65] := by decide
  exact ((closesAlike_iff_spelled ht h).2.2 _ _ _ _ _ hrun).mpr (by decide)

/-- The picture of `a` is not closed as `a`: the camera keeps grabbing. -/
theorem not_closesAlike : ∃ t P tr P' data',
    Runs (serve [.enumAllCameras]) .new t P () ∧
      Runs (takePicture nobody [97] none roomFor16) P tr P' (.ok, data') ∧
        ¬ ClosesUsed P' (toUpper [97]) [97] ∧ ¬ ClosesAlike P' [97] [65] := by
  obtain ⟨t, P, tr, P', data', ht, hrun⟩ := exists_pictured_lower
  obtain ⟨hs', a, hl, ha⟩ := used_of_takePicture (serve_sound sound_new ht) hrun
  refine ⟨t, P, tr, P', data', ht, hrun, ?_, ?_⟩
  · rw [closesUsed_iff hs' hl ha]
    decide
  · rw [closesAlike_iff hs' (by decide)]
    rintro (he | hnone | hlower)
    · exact absurd he (by decide)
    · have hkey : toUpper (cstr [97]) = toUpper [97] := by decide
      rw [hkey, hl] at hnone
      cases hnone
    · exact absurd hlower.2 (by decide)

end CameraService
