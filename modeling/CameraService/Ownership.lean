import CameraService.Lifecycle

/-!
# What a start leaves behind

A handle is alive from the answer that hands it out to the call that destroys it.
Whatever the members of a device do, a handle that is alive is the one that the device
holds; a device that is shut down has left none.  A start that fails should leave the
device shut down, and does so unless it was grabbing that failed.

## Main definitions

* `Owns` — handles are destroyed or held.
* `usage` — calls of the members, of a device that lives on.
* `Atomic` — what a start should leave.
* `atomic_iff_grabs` — when it does.
-/

namespace CameraService

open Interaction

/-! ## Handles that are alive -/

/-- A handle that is alive was handed out since, or before and not destroyed since. -/
theorem Alive.split {t₁ t₂ : SdkTrace} {h : Handle} (ha : Alive (t₁ ++ t₂) h) :
    Alive t₂ h ∨ (Alive t₁ h ∧ t₂.any (destroys h) = false) := by
  obtain ⟨before, e, after, htr, he, hn⟩ := ha
  rcases List.append_eq_append_iff.mp htr with ⟨rest, rfl, rfl⟩ | ⟨rest, rfl, hrest⟩
  · exact Or.inl ⟨rest, e, after, rfl, he, hn⟩
  · cases rest with
    | nil => exact Or.inl ⟨[], e, after, hrest.symm, he, hn⟩
    | cons e' rest =>
        rw [List.cons_append, List.cons.injEq] at hrest
        obtain ⟨rfl, rfl⟩ := hrest
        rw [List.any_append, Bool.or_eq_false_iff] at hn
        exact Or.inr ⟨⟨before, e, rest, rfl, he, hn.1⟩, hn.2⟩

/-- A call that hands out no handle. -/
def GivesNone (op : Call) : Prop := ∀ a h, gives h ⟨op, a⟩ = false

theorem givesNone_of_harmless (op : Call) (h : CameraDevice.Harmless op) : GivesNone op := by
  intro a h'
  cases op with
  | createHandle => exact h.elim
  | _ => rfl

theorem not_alive_of_givesNone {tr : SdkTrace} {h : Handle} (htr : ∀ e ∈ tr, GivesNone e.op) :
    ¬ Alive tr h := by
  intro ha
  obtain ⟨before, e, after, rfl, he, -⟩ := ha
  have hn := htr e (by simp) e.ans h
  exact absurd he (by rw [hn]; decide)

/-- A handle handed out in the trace is destroyed in it or held by the device afterwards,
and so is the one held before. -/
structure Owns (d : CameraDevice) (tr : SdkTrace) (d' : CameraDevice) : Prop where
  created : ∀ h, Alive tr h → d'.camera_ = some ⟨some h⟩
  kept : ∀ h, d.camera_ = some ⟨some h⟩ →
    tr.any (destroys h) = true ∨ d'.camera_ = some ⟨some h⟩

section Owns
variable {d d' d₁ : CameraDevice} {tr t₁ t₂ : SdkTrace} {e : SdkEvent}

theorem owns_of_givesNone (htr : ∀ e ∈ tr, GivesNone e.op) (hc : d'.camera_ = d.camera_) :
    Owns d tr d' :=
  ⟨fun _ ha => absurd ha (not_alive_of_givesNone htr), fun _ h => Or.inr (hc.trans h)⟩

theorem Owns.trans (h₁ : Owns d t₁ d₁) (h₂ : Owns d₁ t₂ d') : Owns d (t₁ ++ t₂) d' where
  created := by
    intro h ha
    rcases ha.split with ha | ⟨ha, hn⟩
    · exact h₂.created h ha
    · rcases h₂.kept h (h₁.created h ha) with hd | hc
      · simp [hn] at hd
      · exact hc
  kept := by
    intro h hc
    rw [List.any_append, Bool.or_eq_true]
    rcases h₁.kept h hc with hd | hc
    · exact Or.inl (Or.inl hd)
    · rcases h₂.kept h hc with hd | hc
      · exact Or.inl (Or.inr hd)
      · exact Or.inr hc

theorem Owns.cons (he : GivesNone e.op) (h : Owns d tr d') : Owns d (e :: tr) d' := by
  have hsingle : Owns d [e] d := owns_of_givesNone (by simpa using he) rfl
  exact hsingle.trans h

/-- A device that is shut down has left no handle. -/
theorem Owns.none_alive (h : Owns d tr d') (hc : d'.camera_ = none) (x : Handle) : ¬ Alive tr x := by
  intro ha
  have hheld := h.created x ha
  rw [hc] at hheld
  cases hheld

end Owns

namespace CameraDevice

variable {d d' : CameraDevice} {tr : SdkTrace} {r : Ret}

/-! ## The members -/

theorem closeCamera_owns (h : Runs closeCamera d tr d' r) : Owns d tr d' where
  created := fun _ ha => absurd ha (not_alive_of_givesNone
    fun e he => givesNone_of_harmless _ (closeCamera_harmless.run h e he))
  kept := by
    intro h' hc
    obtain ⟨r₁, r₂, rfl⟩ := closeCamera_trace hc h
    exact Or.inl (by simp [destroys])

theorem stopAndClose_owns (h : Runs stopAndClose d tr d' ()) : Owns d tr d' where
  created := fun _ ha => absurd ha (not_alive_of_givesNone
    fun e he => givesNone_of_harmless _ (stopAndClose_harmless.run h e he))
  kept := by
    intro h' hc
    obtain ⟨t, d₁, r, r₁, r₂, -, rfl⟩ := stopAndClose_trace hc h
    exact Or.inl (by simp [destroys])

/-- When only the first call hands out a handle, that one is alive, unless it is destroyed. -/
theorem alive_created {i : DeviceInfo} {h h' : Handle} {t : SdkTrace}
    (ht : ∀ e ∈ t, GivesNone e.op) (ha : Alive (⟨.createHandle i, .created h'⟩ :: t) h) :
    h' = h ∧ t.any (destroys h) = false := by
  have hsplit : Alive ([(⟨.createHandle i, .created h'⟩ : SdkEvent)] ++ t) h := ha
  rcases hsplit.split with ha | ⟨⟨before, g, after, htr, hg, -⟩, hn⟩
  · exact absurd ha (not_alive_of_givesNone ht)
  · have hmem : g ∈ [(⟨.createHandle i, .created h'⟩ : SdkEvent)] := by simp [htr]
    rw [List.mem_singleton] at hmem
    exact ⟨by simpa [hmem, gives] using hg, hn⟩

/-- The handle that `Open` leaves alive is the one it returns. -/
theorem open_alive {info : Option DeviceInfo} {c : CMvCamera} {h : Handle}
    (ho : CMvCamera.Opening info tr r c) (ha : Alive tr h) :
    r = .ok ∧ c = ⟨some h⟩ := by
  cases ho with
  | noRecord => exact absurd ha (not_alive_of_givesNone (by simp))
  | @refused i e left =>
      obtain ⟨before, g, after, htr, hg, -⟩ := ha
      have hmem : g ∈ [(⟨.createHandle i, .refused e left⟩ : SdkEvent)] := by simp [htr]
      rw [List.mem_singleton] at hmem
      simp [hmem, gives] at hg
  | failed hret =>
      obtain ⟨rfl, hn⟩ := alive_created (by simp [GivesNone, gives]) ha
      simp [destroys] at hn
  | opened =>
      obtain ⟨rfl, -⟩ := alive_created (by simp [GivesNone, gives]) ha
      exact ⟨rfl, rfl⟩

theorem openCamera_owns {info : Option DeviceInfo} (h : Runs (openCamera info) d tr d' r) :
    Owns d tr d' := by
  by_cases ho : d.camera_open_ ∨ d.camera_ ≠ none
  · obtain ⟨-, rfl, rfl⟩ := openCamera_of_open ho h
    exact owns_of_givesNone (by simp) rfl
  · have hnone : d.camera_ = none := by
      by_contra hc
      exact ho (Or.inr hc)
    obtain ⟨t₁, ret, c, t₂, rfl, hopening, hrest⟩ := openCamera_cases ho h
    refine ⟨fun h' ha => ?_, fun h' hc => by simp [hnone] at hc⟩
    rcases hrest with ⟨hret, -, -, hdelete⟩ | ⟨-, hconfigure⟩
    · have hnogift : ∀ e ∈ t₂, GivesNone e.op := fun e he =>
        givesNone_of_harmless _ (delete_harmless.run hdelete e he)
      rcases ha.split with ha | ⟨ha, -⟩
      · exact absurd ha (not_alive_of_givesNone hnogift)
      · exact absurd (open_alive hopening ha).1 hret
    · have hnogift : ∀ e ∈ t₂, GivesNone e.op := fun e he =>
        givesNone_of_harmless _ (configureCamera_harmless.run hconfigure e he)
      obtain ⟨-, n, rfl⟩ := configureCamera_spec hconfigure
      rcases ha.split with ha | ⟨ha, -⟩
      · exact absurd ha (not_alive_of_givesNone hnogift)
      · rw [(open_alive hopening ha).2]

theorem startGrapping_owns (h : Runs startGrapping d tr d' r) : Owns d tr d' := by
  rcases startGrapping_cases h with ⟨rfl, -, rfl, -⟩ | ⟨c, -, -, rfl, ⟨-, rfl⟩ | ⟨-, rfl⟩⟩
  · exact owns_of_givesNone (by simp) rfl
  · exact owns_of_givesNone (by simp [GivesNone, gives]) rfl
  · exact owns_of_givesNone (by simp [GivesNone, gives]) rfl

/-- **`start`** holds the handle that it leaves alive. -/
theorem start_owns {info : Option DeviceInfo} (h : Runs (start info) d tr d' r) :
    Owns d tr d' := by
  obtain ⟨t₁, d₁, t₂, rfl, ⟨-, h₁, r₂, h₂⟩ | ⟨h₁, h₂⟩⟩ := start_cases h
  · exact (openCamera_owns h₁).trans (closeCamera_owns h₂)
  · exact (openCamera_owns h₁).trans (startGrapping_owns h₂)

theorem givesNone_of_malloc (htr : ∀ e ∈ tr, ∃ n a, e = ⟨.malloc n, a⟩) :
    ∀ e ∈ tr, GivesNone e.op := by
  intro e he
  obtain ⟨n, a, rfl⟩ := htr e he
  exact givesNone_of_harmless (.malloc n) trivial

theorem fetchFrame_owns {answer : FrameAnswer} (h : Runs fetchFrame d tr d' answer) :
    Owns d tr d' := by
  obtain ⟨cache, c, t, -, -, rfl, hm, rfl⟩ := fetchFrame_spec h
  refine owns_of_givesNone ?_ rfl
  intro e he
  rcases List.mem_append.mp he with he | he
  · exact givesNone_of_malloc hm e he
  · rw [List.mem_singleton.mp he]
    exact fun _ _ => rfl

theorem toJpg_owns {frame : FrameInfo} {param : Option ImageParameter} {data_ data' : Buff}
    (h : Runs (toJpg frame param data_) d tr d' (r, data')) : Owns d tr d' := by
  obtain ⟨rfl, grown, c, t, answer, -, -, hm, rfl, -⟩ := toJpg_spec h
  refine owns_of_givesNone ?_ rfl
  intro e he
  rcases List.mem_append.mp he with he | he
  · exact givesNone_of_malloc hm e he
  · rw [List.mem_singleton.mp he]
    exact fun _ _ => rfl

/-- **`take_picture`** keeps its handle, or destroys it. -/
theorem takePicture_owns {param : Option ImageParameter} {data_ data' : Buff}
    (h : Runs (takePicture param data_) d tr d' (r, data')) : Owns d tr d' := by
  obtain ⟨-, c, t, -, hcases⟩ := takePicture_cases h
  rcases hcases with ⟨rfl, h', -⟩ | ⟨t₁, d₁, answer, t₂, rfl, rfl, h₁, hrest⟩
  · exact Owns.cons (fun _ _ => rfl) (stopAndClose_owns h')
  · refine Owns.cons (fun _ _ => rfl) ((fetchFrame_owns h₁).trans ?_)
    rcases hrest with ⟨-, h₂, -, -⟩ | ⟨-, h₂⟩
    · obtain ⟨-, h₂⟩ | ⟨-, rfl, rfl⟩ := closeOnNoData_cases h₂
      · exact stopAndClose_owns h₂
      · exact owns_of_givesNone (by simp) rfl
    · exact toJpg_owns h₂

/-- Opening starts no grabbing. -/
theorem openCamera_grabsNot {info : Option DeviceInfo} :
    Asks (I := sdk) (fun op : Call => ∀ x, op ≠ .startGrabbing x) (openCamera info) := by
  refine openCamera_asks ?_ (fun _ _ => by simp) fun _ => by simp
  rintro op h x rfl
  exact h

theorem closeCamera_grabsNot :
    Asks (I := sdk) (fun op : Call => ∀ x, op ≠ .startGrabbing x) closeCamera := by
  refine closeCamera_harmless.imp ?_
  rintro op h x rfl
  exact h

end CameraDevice

/-! ## The outcome of a start -/

/-- The event is a `MV_CC_StartGrabbing` that failed. -/
def failsToGrab : SdkEvent → Bool
  | ⟨.startGrabbing _, ret⟩ => ret ≠ .ok
  | _ => false

theorem not_failsToGrab {tr : SdkTrace} (htr : ∀ e ∈ tr, ∀ x, e.op ≠ .startGrabbing x) :
    tr.any failsToGrab = false := by
  rw [List.any_eq_false]
  rintro ⟨op, a⟩ he
  cases op with
  | startGrabbing x => exact absurd rfl (htr _ he x)
  | _ => simp [failsToGrab]

/-- What a start should leave, `t` being all the calls for the device so far: a running
device, or an error, a device that is shut down and no handle. -/
def Atomic (t : SdkTrace) (r : Ret) (d : CameraDevice) : Prop :=
  (r = .ok ∧ d.Running) ∨
    (r ≠ .ok ∧ d.Closed ∧ d.isShutdown = true ∧ ∀ h, ¬ Alive t h)

namespace CameraDevice

variable {d d' : CameraDevice} {tr : SdkTrace} {r : Ret}

/-- The three outcomes of a start.  When grabbing fails the camera stays open. -/
theorem start_outcome {info : Option DeviceInfo} (hd : d.Coherent)
    (h : Runs (start info) d tr d' r) :
    (tr.any failsToGrab = false ∧ ((r = .ok ∧ d'.Running) ∨ (r ≠ .ok ∧ d'.Closed))) ∨
      (tr.any failsToGrab = true ∧ r ≠ .ok ∧ d'.HalfOpen) := by
  have hspec := start_spec hd h
  have hopen : ∀ {t d₁ ret}, Runs (openCamera info) d t d₁ ret → t.any failsToGrab = false :=
    fun h₁ => not_failsToGrab (openCamera_grabsNot.run h₁)
  obtain ⟨t₁, d₁, t₂, rfl, ⟨hret, h₁, r₂, h₂⟩ | ⟨h₁, h₂⟩⟩ := start_cases h
  · have hclose : t₂.any failsToGrab = false := not_failsToGrab (closeCamera_grabsNot.run h₂)
    refine Or.inl ⟨by simp [hopen h₁, hclose], ?_⟩
    rcases hspec with ⟨hok, -⟩ | ⟨-, hd' | hd'⟩
    · exact absurd hok hret
    · exact Or.inr ⟨hret, hd'⟩
    · exact absurd (by rw [(closeCamera_spec h₂).1]) hd'.camera
  · rw [List.any_append, hopen h₁, Bool.false_or]
    rcases startGrapping_cases h₂ with ⟨rfl, hr, -⟩ | ⟨c, hc, -, rfl, ⟨hr, -⟩ | ⟨hr, rfl⟩⟩
    · refine Or.inl ⟨rfl, Or.inl ⟨hr, ?_⟩⟩
      rcases hspec with ⟨-, hd'⟩ | ⟨hbad, -⟩
      · exact hd'
      · exact absurd hr hbad
    · refine Or.inl ⟨by simp [failsToGrab, hr], Or.inl ⟨hr, ?_⟩⟩
      rcases hspec with ⟨-, hd'⟩ | ⟨hbad, -⟩
      · exact hd'
      · exact absurd hr hbad
    · refine Or.inr ⟨by simp [failsToGrab, hr], hr, ?_⟩
      rcases hspec with ⟨hok, -⟩ | ⟨-, hd' | hd'⟩
      · exact absurd hok hr
      · -- the camera that failed to grab is still there
        rw [hd'.camera] at hc
        cases hc
      · exact hd'

end CameraDevice

/-! ## Devices in use -/

/-- The calls in turn, of a device that lives on. -/
def usage : List DeviceCall → DeviceProc Unit
  | [] => pure ()
  | call :: calls => do
    call.run
    usage calls

section Usage
variable {d d' : CameraDevice} {t tr : SdkTrace} {r : Ret}

/-- Between two calls a device is in one of the three states, and owns its handle. -/
theorem DeviceCall.run_coherent {call : DeviceCall} (hd : d.Coherent)
    (h : Runs call.run d tr d' ()) : d'.Coherent ∧ Owns d tr d' := by
  cases call with
  | start info =>
      obtain ⟨t₁, d₁, r, t₂, rfl, h₁, h₂⟩ := runs_bind.mp h
      obtain ⟨rfl, rfl, -⟩ := runs_pure.mp h₂
      rw [List.append_nil]
      refine ⟨?_, CameraDevice.start_owns h₁⟩
      rcases CameraDevice.start_spec hd h₁ with ⟨-, hd'⟩ | ⟨-, hd' | hd'⟩
      · exact Or.inr (Or.inr hd')
      · exact Or.inl hd'
      · exact Or.inr (Or.inl hd')
  | isShutdown =>
      obtain ⟨rfl, rfl, -⟩ := runs_pure.mp h
      exact ⟨hd, owns_of_givesNone (by simp) rfl⟩
  | stopAndClose =>
      exact ⟨Or.inl (CameraDevice.closed_of_stopAndClose h), CameraDevice.stopAndClose_owns h⟩
  | takePicture param data_ =>
      obtain ⟨t₁, d₁, ⟨r, data'⟩, t₂, rfl, h₁, h₂⟩ := runs_bind.mp h
      obtain ⟨rfl, rfl, -⟩ := runs_pure.mp h₂
      rw [List.append_nil]
      refine ⟨?_, CameraDevice.takePicture_owns h₁⟩
      rcases (CameraDevice.takePicture_spec h₁).2 with ⟨-, hd', -⟩ | ⟨-, hd'⟩
      · exact Or.inl hd'
      · exact Or.inr (Or.inr hd')

theorem usage_coherent {calls : List DeviceCall} (hd : d.Coherent)
    (h : Runs (usage calls) d tr d' ()) : d'.Coherent ∧ Owns d tr d' := by
  induction calls generalizing d tr with
  | nil =>
      obtain ⟨rfl, rfl, -⟩ := runs_pure.mp h
      exact ⟨hd, owns_of_givesNone (by simp) rfl⟩
  | cons call calls ih =>
      obtain ⟨t₁, d₁, u, t₂, rfl, h₁, h₂⟩ := runs_bind.mp h
      obtain ⟨hd₁, ho₁⟩ := call.run_coherent hd h₁
      obtain ⟨hd', ho₂⟩ := ih hd₁ h₂
      exact ⟨hd', ho₁.trans ho₂⟩

/-- **A start is atomic exactly when grabbing does not fail.**  On a device that went
through any calls, a start fails no assertion; and for the record and the answers of the
SDK whatever they are, it leaves a running device or an error with nothing left open
exactly when no `MV_CC_StartGrabbing` of it is answered with an error. -/
theorem atomic_iff_grabs {calls : List DeviceCall} {info : Option DeviceInfo}
    (ht : Runs (usage calls) .new t d ()) :
    (∀ tr f, ¬ Faults (CameraDevice.start info) d tr f) ∧
      ∀ tr d' r, Runs (CameraDevice.start info) d tr d' r →
        (Atomic (t ++ tr) r d' ↔ tr.any failsToGrab = false) := by
  obtain ⟨hd, hown⟩ := usage_coherent (Or.inl CameraDevice.closed_new) ht
  refine ⟨fun tr f => CameraDevice.start_faults hd, fun tr d' r h => ?_⟩
  have hown' : Owns .new (t ++ tr) d' := hown.trans (CameraDevice.start_owns h)
  constructor
  · intro hatomic
    rcases CameraDevice.start_outcome hd h with ⟨hgrab, -⟩ | ⟨-, hbad, hd'⟩
    · exact hgrab
    · rcases hatomic with ⟨hok, -⟩ | ⟨-, hclosed, -⟩
      · exact absurd hok hbad
      · exact absurd hclosed.camera hd'.camera
  · intro hgrab
    rcases CameraDevice.start_outcome hd h with ⟨-, ⟨hok, hd'⟩ | ⟨hbad, hd'⟩⟩ | ⟨hfail, -⟩
    · exact Or.inl ⟨hok, hd'⟩
    · exact Or.inr ⟨hbad, hd', hd'.isShutdown, hown'.none_alive hd'.camera⟩
    · rw [hgrab] at hfail
      cases hfail

end Usage

/-- The camera opens, but does not grab. -/
def ungrabbing : Oracle sdk := fun n op =>
  match op with
  | .startGrabbing _ => .err (.other 1)
  | op => obliging n op

theorem atomic_iff_grabs_ungrabbing : ∃ t d,
    Runs (usage replugging) CameraDevice.new t d () ∧
    (∀ tr f, ¬ Faults (CameraDevice.start none) d tr f) ∧
      ∀ tr d' r, Runs (CameraDevice.start none) d tr d' r →
        (Atomic (t ++ tr) r d' ↔ tr.any failsToGrab = false) := by
  have hrun : Runs (usage replugging) CameraDevice.new _ _ () := runs_of_exec (o := unplugged) rfl
  exact ⟨_, _, hrun, atomic_iff_grabs hrun⟩

/-- A device whose camera does not grab stays open. -/
theorem not_atomic : ¬ ∀ (calls : List DeviceCall) (info : Option DeviceInfo) (t tr : SdkTrace)
    (d d' : CameraDevice) (r : Ret), Runs (usage calls) .new t d () →
      Runs (CameraDevice.start info) d tr d' r → Atomic (t ++ tr) r d' := by
  intro hall
  have hnew : Runs (usage []) .new [] .new () := runs_pure.mpr ⟨rfl, rfl, rfl⟩
  have hrun : Runs (CameraDevice.start (some (.other 0))) .new _ _ _ :=
    runs_of_exec (o := ungrabbing) rfl
  rcases hall _ _ _ _ _ _ _ hnew hrun with ⟨hok, -⟩ | ⟨-, -, hshut, -⟩
  · cases hok
  · cases hshut

end CameraService
