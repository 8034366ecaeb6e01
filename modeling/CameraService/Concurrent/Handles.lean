import CameraService.Concurrent.Invariant
import CameraService.HandleFamily
import CameraService.Lifecycle

/-!
# Who holds the handles

The handles that are alive are held by the devices, each handle by one device, and
the device stands at the phase of its handle's protocol.  A device with a handle has
an owner: the map, or a request that is still running.

## Main definitions

* `Manned` — the devices hold the handles that are alive.
* `Works`, `Section.works` — the calls of a section: those of one member of one device.
* `Kept`, `Section.kept` — a device with a camera has an owner.
* `Accounted`, `accounted_step` — the invariant, and a step of the system.
-/

namespace CameraService

open Interaction Provider Transition

variable {heap heap' : DevId → CameraDevice} {Φ : Handle → Phase} {T tr t₀ t₁ : SdkTrace}
  {a b next : DevId} {d d' : CameraDevice} {φ : Phase} {h : Handle} {P P' : Provider}
  {held : DevId → Bool} {pc pc' : Pc} {sn : Key} {s s' : System}

/-! ## The devices and their handles -/

/-- The handles in use are held by the devices, each by one that stands at its phase. -/
structure Manned (heap : DevId → CameraDevice) (Φ : Handle → Phase) : Prop where
  stands : ∀ a, ∃ φ, Matches (heap a) φ ∧ ∀ h, φ.handle = some h → Φ h = φ
  apart : ∀ a b h, (heap a).camera_ = some ⟨some h⟩ → (heap b).camera_ = some ⟨some h⟩ → a = b
  known : ∀ h, Φ h ≠ .idle → ∃ a, (heap a).camera_ = some ⟨some h⟩

/-- A device holds the handle of its phase. -/
theorem Matches.camera_iff (hm : Matches d φ) :
    d.camera_ = some ⟨some h⟩ ↔ φ.handle = some h := by
  cases hm with
  | closed hd => simp [hd.camera, Phase.handle]
  | halfOpen hd hc => simp [hc, Phase.handle]
  | running hd hc => simp [hc, Phase.handle]

theorem ne_idle_of_handle (hh : φ.handle = some h) : φ ≠ .idle := by
  intro hφ
  rw [hφ] at hh
  cases hh

theorem manned_new : Manned (fun _ => .new) (fun _ => .idle) where
  stands := fun _ => ⟨.idle, .closed CameraDevice.closed_new, fun _ _ => rfl⟩
  apart := by
    intro a b h ha
    cases ha
  known := fun _ hne => absurd rfl hne

/-- A device that has no camera may be replaced by a new one. -/
theorem Manned.renew (hm : Manned heap Φ) (hc : (heap a).camera_ = none) :
    Manned (Function.update heap a .new) Φ where
  stands := by
    intro b
    by_cases hb : b = a
    · subst hb
      rw [Function.update_self]
      exact ⟨.idle, .closed CameraDevice.closed_new, fun h hh => by cases hh⟩
    · rw [Function.update_of_ne hb]
      exact hm.stands b
  apart := by
    intro b c h hb hc'
    by_cases hba : b = a
    · subst hba
      rw [Function.update_self] at hb
      cases hb
    · by_cases hca : c = a
      · subst hca
        rw [Function.update_self] at hc'
        cases hc'
      · rw [Function.update_of_ne hba] at hb
        rw [Function.update_of_ne hca] at hc'
        exact hm.apart b c h hb hc'
  known := by
    intro h hne
    obtain ⟨b, hb⟩ := hm.known h hne
    have hba : b ≠ a := by
      rintro rfl
      simp [hc] at hb
    exact ⟨b, by rwa [Function.update_of_ne hba]⟩

/-- **A member of one device** moves its handle, and leaves the others alone. -/
theorem Manned.call {c : DeviceCall} (hm : Manned heap Φ)
    (hT : Path Phases (fun _ => .idle) T Φ) (hf : Fresh (T ++ tr))
    (hn : tr.all leavesNull = true) (hr : Runs c.run (heap a) tr d' ()) :
    ∃ Φ', Path Phases (fun _ => .idle) (T ++ tr) Φ' ∧ Manned (Function.update heap a d') Φ' := by
  obtain ⟨φ, hφ, hΦ⟩ := hm.stands a
  obtain ⟨φ', hp, hφ'⟩ := c.run_path hφ hn hr
  -- what the other devices hold
  let Ψ : Handle → Phase := fun h => if φ.handle = some h then .idle else Φ h
  have hplace : place φ Ψ = Φ := by
    funext h
    by_cases hh : φ.handle = some h
    · rw [place_of_handle hh, hΦ h hh]
    · rw [place_of_ne hh]
      exact if_neg hh
  have hΨ : ∀ h, φ.handle = some h → Ψ h = .idle := fun h hh => if_pos hh
  obtain ⟨hpath, hfree⟩ := place_path (hplace.symm ▸ hT) hΨ hp hf
  have hother : ∀ b ψ h, b ≠ a → Matches (heap b) ψ → ψ.handle = some h → Φ h = ψ →
      Ψ h = ψ ∧ φ'.handle ≠ some h := by
    intro b ψ h hb hψ hh hval
    have hne : φ.handle ≠ some h := fun hφh =>
      hb (hm.apart b a h (hψ.camera_iff.mpr hh) (hφ.camera_iff.mpr hφh))
    have hΨh : Ψ h = ψ := (if_neg hne).trans hval
    refine ⟨hΨh, fun hφh => ?_⟩
    exact ne_idle_of_handle hh (hΨh.symm.trans (hfree h hφh))
  have hholder : ∀ b h, b ≠ a → (heap b).camera_ = some ⟨some h⟩ → φ'.handle ≠ some h := by
    intro b h hb hc
    obtain ⟨ψ, hψ, hval⟩ := hm.stands b
    have hh := hψ.camera_iff.mp hc
    exact (hother b ψ h hb hψ hh (hval h hh)).2
  refine ⟨place φ' Ψ, hpath, ?_, ?_, ?_⟩
  · intro b
    by_cases hb : b = a
    · subst hb
      rw [Function.update_self]
      exact ⟨φ', hφ', fun h hh => place_of_handle hh⟩
    · rw [Function.update_of_ne hb]
      obtain ⟨ψ, hψ, hval⟩ := hm.stands b
      refine ⟨ψ, hψ, fun h hh => ?_⟩
      obtain ⟨hΨh, hne⟩ := hother b ψ h hb hψ hh (hval h hh)
      rw [place_of_ne hne, hΨh]
  · intro b c h hb hc
    by_cases hba : b = a
    · subst hba
      rw [Function.update_self] at hb
      by_cases hcb : c = b
      · exact hcb.symm
      · rw [Function.update_of_ne hcb] at hc
        exact absurd (hφ'.camera_iff.mp hb) (hholder c h hcb hc)
    · rw [Function.update_of_ne hba] at hb
      by_cases hca : c = a
      · subst hca
        rw [Function.update_self] at hc
        exact absurd (hφ'.camera_iff.mp hc) (hholder b h hba hb)
      · rw [Function.update_of_ne hca] at hc
        exact hm.apart b c h hb hc
  · intro h hne
    by_cases hh : φ'.handle = some h
    · exact ⟨a, by rw [Function.update_self, hφ'.camera_iff.mpr hh]⟩
    · rw [place_of_ne hh] at hne
      have hφh : φ.handle ≠ some h := fun hφh => hne (hΨ h hφh)
      have hΦh : Φ h ≠ .idle := by
        rwa [show Ψ h = Φ h from if_neg hφh] at hne
      obtain ⟨b, hb⟩ := hm.known h hΦh
      have hba : b ≠ a := by
        rintro rfl
        exact hφh (hφ.camera_iff.mp hb)
      exact ⟨b, by rwa [Function.update_of_ne hba]⟩

/-! ## The calls of a section -/

/-- Giving up a reference does nothing, or shuts the device down. -/
theorem release_cases (h : Runs (release held a) P tr P' ()) :
    (tr = [] ∧ P' = P) ∨
      ∃ d, Runs CameraDevice.stopAndClose (P.heap a) tr d () ∧ P' = (deviceAt a).set d P := by
  simp only [release, runs_get_bind] at h
  split at h
  · obtain ⟨rfl, rfl, -⟩ := runs_pure.mp h
    exact Or.inl ⟨rfl, rfl⟩
  · obtain ⟨d, hd, rfl⟩ := runs_onDevice.mp h
    exact Or.inr ⟨d, hd, rfl⟩

/-- The calls of a section: those of a member of one device, which may be a new one, or
none.  Calls that concern no handle may come before. -/
inductive Works (heap : DevId → CameraDevice) (next : DevId) :
    SdkTrace → (DevId → CameraDevice) → Prop
  | idle {tr : SdkTrace} (htr : ∀ e ∈ tr, Neutral e) : Works heap next tr heap
  | member {tr : SdkTrace} {a : DevId} {c : DeviceCall} {d' : CameraDevice}
      (h : Runs c.run (heap a) tr d' ()) : Works heap next tr (Function.update heap a d')
  | made {t₀ t₁ : SdkTrace} {c : DeviceCall} {d' : CameraDevice} (h₀ : ∀ e ∈ t₀, Neutral e)
      (h : Runs c.run .new t₁ d' ()) :
      Works heap next (t₀ ++ t₁) (Function.update heap next d')

theorem Manned.works (hm : Manned heap Φ) (hT : Path Phases (fun _ => .idle) T Φ)
    (hf : Fresh (T ++ tr)) (hn : tr.all leavesNull = true) (hnext : (heap next).camera_ = none)
    (hw : Works heap next tr heap') :
    ∃ Φ', Path Phases (fun _ => .idle) (T ++ tr) Φ' ∧ Manned heap' Φ' := by
  cases hw with
  | idle htr => exact ⟨Φ, hT.append (phases_of_neutral htr), hm⟩
  | member h => exact hm.call hT hf hn h
  | @made t₀ t₁ call d' h₀ h =>
      rw [← List.append_assoc] at hf ⊢
      rw [List.all_append, Bool.and_eq_true] at hn
      have hstart : Runs call.run (Function.update heap next .new next) t₁ d' () := by
        rwa [Function.update_self]
      have hcall := (hm.renew hnext).call (hT.append (phases_of_neutral h₀)) hf hn.2 hstart
      rwa [Function.update_idem] at hcall

theorem release_works (h : Runs (release held a) P tr P' ()) (hP : P.heap = heap) :
    Works heap next tr P'.heap := by
  subst hP
  rcases release_cases h with ⟨rfl, rfl⟩ | ⟨d, hd, rfl⟩
  · exact .idle (by simp)
  · exact .member (c := .stopAndClose) hd

theorem addCameraDevice_works (h : Runs (addCameraDevice held sn a) P tr P' ()) :
    Works P.heap next tr P'.heap := by
  simp only [addCameraDevice, runs_get_bind, runs_modify_bind] at h
  cases hl : P.cameras_list_.lookup sn with
  | none =>
      simp only [hl, releaseOld, runs_pure] at h
      obtain ⟨rfl, rfl, -⟩ := h
      exact .idle (by simp)
  | some old =>
      simp only [hl, releaseOld] at h
      exact release_works h rfl

theorem createDevice_works {info : RecordPtr} {ret : Ret}
    (h : Runs (createDevice info) P tr P' (ret, a)) : Works P.heap P.next tr P'.heap := by
  obtain ⟨-, i, d, t₁, t₂, rfl, hread, hstart, rfl⟩ := createDevice_spec h
  refine .made (c := .start (some i)) ?_ (runs_bind_pure.mpr ⟨ret, hstart, rfl⟩)
  rcases hread with ⟨-, rfl⟩ | ⟨-, rfl⟩
  · simp
  · simpa using ⟨rfl, rfl⟩

theorem Found.works {x : Option DevId} (h : Found held P sn tr P' x) :
    Works P.heap next tr P'.heap := by
  cases h with
  | hit hl hs => exact .idle (by simp)
  | miss hl => exact .idle (by simp)
  | evict hl hs h => exact release_works h rfl

/-- **The calls of a section** are those of at most one member of one device. -/
theorem Section.works (h : Section held P pc tr P' pc') : Works P.heap P.next tr P'.heap := by
  cases h with
  | arrive h =>
      refine .idle fun e he => ?_
      obtain ⟨n, m, rfl⟩ := Buff.ensureSize_trace h e he
      exact ⟨rfl, rfl⟩
  | hit h => exact h.works
  | miss h => exact h.works
  | unknown h => exact .idle (by simp)
  | known h => exact .idle (by simp)
  | failed h hr hd => exact createDevice_works h
  | created h hd => exact createDevice_works h
  | abandon h => exact release_works h rfl
  | publish h => exact addCameraDevice_works h
  | @take a data data' _ d ret h =>
      exact .member (c := .takePicture none data) (runs_bind_pure.mpr ⟨_, h, rfl⟩)
  | leave h => exact release_works h rfl
  | closeHit h => exact h.works
  | closeMiss h => exact h.works
  | closing h => exact .member (c := .stopAndClose) h
  | closeLeave h => exact release_works h rfl
  | enumFailed hr => exact .idle (by simpa using ⟨rfl, rfl⟩)
  | enumerated => exact .idle (by simpa using ⟨rfl, rfl⟩)
  | convert hp => exact .idle (by simp)
  | converted hp => exact .idle (by simp)

/-! ## The owners of the devices -/

/-- A device with a camera is in the map or has another owner. -/
def Kept (P : Provider) (own : DevId → Prop) : Prop :=
  ∀ b, (P.heap b).camera_ ≠ none → P.Published b ∨ own b

theorem Kept.imp {own own' : DevId → Prop} (hk : Kept P own) (h : ∀ b, own b → own' b) :
    Kept P own' := fun b hb => (hk b hb).imp_right (h b)

/-- Who gives up a reference need not own the device. -/
theorem release_kept (hk : Kept P fun b => a = b ∨ held b = true)
    (h : Runs (release held a) P tr P' ()) : Kept P' fun b => held b = true := by
  intro b hb
  rw [(release_spec h).published]
  rcases (release_spec h).heap b with he | ⟨hc, -⟩
  · rw [he] at hb
    rcases hk b hb with hp | rfl | hh
    · exact Or.inl hp
    · by_contra hn
      rw [not_or, Bool.not_eq_true] at hn
      exact hb (he ▸ (closed_of_release hn.2 hn.1 h).camera)
    · exact Or.inr hh
  · exact absurd hc.camera hb

theorem Found.kept {x : Option DevId} (hk : Kept P fun b => held b = true)
    (h : Found held P sn tr P' x) : Kept P' fun b => held b = true := by
  cases h with
  | hit hl hs => exact hk
  | miss hl => exact hk
  | @evict a _ _ hl hs h =>
      refine release_kept (fun b hb => ?_) h
      rcases hk b hb with hp | hh
      · obtain ⟨k, hkb⟩ := published_iff.mp hp
        by_cases he : k = sn
        · -- the entry that is evicted has no camera
          subst he
          obtain rfl : a = b := Option.some.inj (hl.symm.trans hkb)
          exact absurd (by simpa [CameraDevice.isShutdown] using hs) hb
        · exact Or.inl (published_iff.mpr ⟨k, lookup_erase_eq_some.mpr ⟨he, hkb⟩⟩)
      · exact Or.inr (Or.inr hh)

theorem addCameraDevice_kept (hk : Kept P fun b => a = b ∨ held b = true)
    (h : Runs (addCameraDevice held sn a) P tr P' ()) : Kept P' fun b => held b = true := by
  have hinsert : Kept { P with cameras_list_ := P.cameras_list_.insert sn a }
      fun b => P.cameras_list_.lookup sn = some b ∨ held b = true := by
    intro b hb
    rcases hk b hb with hp | rfl | hh
    · obtain ⟨k, hkb⟩ := published_iff.mp hp
      by_cases he : k = sn
      · exact Or.inr (Or.inl (he ▸ hkb))
      · exact Or.inl (published_iff.mpr ⟨k, lookup_insert_eq_some.mpr (Or.inr ⟨he, hkb⟩)⟩)
    · exact Or.inl (published_iff.mpr ⟨sn, lookup_insert_eq_some.mpr (Or.inl ⟨rfl, rfl⟩)⟩)
    · exact Or.inr (Or.inr hh)
  simp only [addCameraDevice, runs_get_bind, runs_modify_bind] at h
  cases hl : P.cameras_list_.lookup sn with
  | none =>
      simp only [hl, releaseOld, runs_pure] at h
      rw [h.2.1]
      exact hinsert.imp (by simp [hl])
  | some old =>
      simp only [hl, releaseOld] at h
      exact release_kept (hinsert.imp (by simp [hl])) h

/-- **A device with a camera has an owner**, after every section. -/
theorem Section.kept (hk : Kept P fun b => pc.owns b = true ∨ held b = true)
    (h : Section held P pc tr P' pc') : Kept P' fun b => pc'.owns b = true ∨ held b = true := by
  have hheld : Kept P' (fun b => held b = true) →
      Kept P' fun b => pc'.owns b = true ∨ held b = true := fun hk' => hk'.imp fun _ => Or.inr
  cases h with
  | arrive h => exact hk
  | hit h => exact hheld (h.kept (by simpa [Pc.owns] using hk))
  | miss h => exact hheld (h.kept (by simpa [Pc.owns] using hk))
  | unknown h => exact hk
  | known h => exact hk
  | failed h hr hd =>
      intro b hb
      by_cases he : b = P.next
      · exact Or.inr (Or.inl (by simp [Pc.owns, he]))
      · exact (hk b (by simpa [withDevice, he] using hb)).imp_right fun ho =>
          Or.inr (by simpa [Pc.owns] using ho)
  | created h hd =>
      intro b hb
      by_cases he : b = P.next
      · exact Or.inr (Or.inl (by simp [Pc.owns, he]))
      · exact (hk b (by simpa [withDevice, he] using hb)).imp_right fun ho =>
          Or.inr (by simpa [Pc.owns] using ho)
  | abandon h => exact hheld (release_kept (by simpa [Pc.owns] using hk) h)
  | publish h => exact hheld (addCameraDevice_kept (by simpa [Pc.owns] using hk) h)
  | @take a _ _ _ _ _ h =>
      intro b hb
      by_cases he : b = a
      · exact Or.inr (Or.inl (by simp [Pc.owns, he]))
      · exact hk b (by simpa [he] using hb)
  | leave h => exact hheld (release_kept (by simpa [Pc.owns] using hk) h)
  | closeHit h => exact hheld (h.kept (by simpa [Pc.owns] using hk))
  | closeMiss h => exact hheld (h.kept (by simpa [Pc.owns] using hk))
  | @closing a _ _ h =>
      intro b hb
      by_cases he : b = a
      · exact Or.inr (Or.inl (by simp [Pc.owns, he]))
      · exact hk b (by simpa [he] using hb)
  | closeLeave h => exact hheld (release_kept (by simpa [Pc.owns] using hk) h)
  | enumFailed hr => exact hk
  | enumerated => exact hk
  | convert hp => exact hk
  | converted hp => exact hk

/-! ## A step of the system -/

/-- The handles that are alive are accounted for: each is held by a device, and the device
by the map or a request. -/
structure Accounted (s : System) (Φ : Handle → Phase) : Prop where
  manned : Manned s.shared.provider.heap Φ
  kept : Kept s.shared.provider fun b => heldBy s.threads b = true

/-- A device at an address that was not used yet has no camera. -/
theorem Accounted.next_camera (hA : Accounted s Φ) (hO : outline.Holds s) :
    (s.shared.provider.heap s.shared.provider.next).camera_ = none := by
  by_contra hne
  rcases hA.kept _ hne with hp | hh
  · exact (hO.inv.lt_next hp).false
  · obtain ⟨t, ht, ho⟩ := List.any_eq_true.mp hh
    exact (Relies.lt_next (hO.own t ht) ho).false

/-- **A step of the system** moves the handles along their protocols, and leaves those that
are alive accounted for. -/
theorem accounted_step {i : ℕ} (hO : outline.Holds s) (hA : Accounted s Φ)
    (hT : Path Phases (fun _ => .idle) T Φ) (hf : Fresh (T ++ tr)) (hn : tr.all leavesNull = true)
    (h : Step s (i, tr) s') :
    ∃ Φ', Path Phases (fun _ => .idle) (T ++ tr) Φ' ∧ Accounted s' Φ' := by
  have hnext := hA.next_camera hO
  obtain ⟨t, P', pc', ht, hs, rfl⟩ := step_cases h
  obtain ⟨Φ', hpath, hmanned⟩ := hA.manned.works hT hf hn hnext hs.works
  have hkept : Kept s.shared.provider
      fun b => t.pc.owns b = true ∨ heldBy (s.threads.eraseIdx i) b = true := by
    refine hA.kept.imp fun b hb => ?_
    obtain ⟨u, hu, ho⟩ := List.any_eq_true.mp hb
    obtain ⟨j, hj⟩ := List.mem_iff_getElem?.mp hu
    by_cases he : j = i
    · subst he
      obtain rfl : t = u := Option.some.inj (ht.symm.trans hj)
      exact Or.inl ho
    · exact Or.inr (heldBy_of_owns (Pool.mem_others.mpr ⟨j, he, hj⟩) ho)
  refine ⟨Φ', hpath, hmanned, (hs.kept hkept).imp fun b hb => ?_⟩
  rcases hb with ho | hh
  · exact heldBy_of_owns ((Pool.mem_set_iff ht).mpr (Or.inl rfl)) ho
  · obtain ⟨u, hu, ho⟩ := List.any_eq_true.mp hh
    exact heldBy_of_owns ((Pool.mem_set_iff ht).mpr (Or.inr hu)) ho

/-! ## The destructor -/

/-- Destroying an entry leaves the others, and no device without an owner. -/
theorem dropEntry_spec (hk : Kept P fun _ => False) (h : Runs (dropEntry sn) P tr P' ()) :
    Kept P' (fun _ => False) ∧ ∀ k a,
      P'.cameras_list_.lookup k = some a ↔ k ≠ sn ∧ P.cameras_list_.lookup k = some a := by
  simp only [dropEntry, runs_get_bind] at h
  cases hl : P.cameras_list_.lookup sn with
  | none =>
      simp only [hl, runs_pure] at h
      rw [h.2.1]
      refine ⟨hk, fun k a => ⟨fun hka => ⟨?_, hka⟩, fun hka => hka.2⟩⟩
      rintro rfl
      simp [hl] at hka
  | some a =>
      simp only [hl, runs_modify_bind] at h
      refine ⟨(release_kept (fun b hb => ?_) h).imp (by simp [nobody]), fun k a => ?_⟩
      swap
      · rw [(release_spec h).map]
        exact lookup_erase_eq_some
      obtain ⟨k, hkb⟩ := published_iff.mp ((hk b hb).resolve_right id)
      by_cases he : k = sn
      · exact Or.inr (Or.inl (Option.some.inj (hl.symm.trans (he ▸ hkb))))
      · exact Or.inl (published_iff.mpr ⟨k, lookup_erase_eq_some.mpr ⟨he, hkb⟩⟩)

/-- **The destructor** ends the life of every handle. -/
theorem delete_manned {order : List Key} (hm : Manned P.heap Φ) (hk : Kept P fun _ => False)
    (hT : Path Phases (fun _ => .idle) T Φ) (hf : Fresh (T ++ tr)) (hn : tr.all leavesNull = true)
    (ho : ∀ k a, P.cameras_list_.lookup k = some a → k ∈ order)
    (h : Runs (delete order) P tr P' ()) :
    Path Phases (fun _ => .idle) (T ++ tr) fun _ => .idle := by
  induction order generalizing P Φ T tr with
  | nil =>
      obtain ⟨rfl, rfl, -⟩ := runs_pure.mp h
      have hidle : Φ = fun _ => .idle := by
        funext x
        by_contra hne
        obtain ⟨a, ha⟩ := hm.known x hne
        obtain ⟨k, hka⟩ := published_iff.mp ((hk a (by simp [ha])).resolve_right id)
        exact absurd (ho k a hka) List.not_mem_nil
      simpa [hidle] using hT
  | cons sn order ih =>
      obtain ⟨t₁, P₁, u, t₂, rfl, h₁, h₂⟩ := runs_bind.mp h
      rw [List.all_append, Bool.and_eq_true] at hn
      rw [← List.append_assoc] at hf ⊢
      obtain ⟨hk₁, hmap⟩ := dropEntry_spec hk h₁
      have hstep : ∃ Φ₁, Path Phases (fun _ => .idle) (T ++ t₁) Φ₁ ∧ Manned P₁.heap Φ₁ := by
        simp only [dropEntry, runs_get_bind] at h₁
        cases hl : P.cameras_list_.lookup sn with
        | none =>
            simp only [hl, runs_pure] at h₁
            obtain ⟨rfl, rfl, -⟩ := h₁
            exact ⟨Φ, by rwa [List.append_nil], hm⟩
        | some a =>
            simp only [hl, runs_modify_bind] at h₁
            rcases release_cases h₁ with ⟨rfl, rfl⟩ | ⟨d, hd, rfl⟩
            · exact ⟨Φ, by rwa [List.append_nil], hm⟩
            · exact hm.call (c := .stopAndClose) hT hf.prefix hn.1 hd
      obtain ⟨Φ₁, hT₁, hm₁⟩ := hstep
      refine ih hm₁ hk₁ hT₁ hf hn.2 (fun k a hka => ?_) h₂
      obtain ⟨hne, hka⟩ := (hmap k a).mp hka
      exact (List.mem_cons.mp (ho k a hka)).resolve_left hne

end CameraService
