import CameraService.Concurrent.Invariant

/-!
# The first requests for a camera

`find_or_create_camera_device` looks a camera up, starts it and publishes it in three
sections.  Two requests that both look it up before either of them has published it
start it twice.  Whether that happens is decided where a device is started: the
lookup that found nothing has to be still true there.

## Main definitions

* `OpenFor` — the device was made for a key and is open.
* `AtMostOne`, `StartsAlone` — there is one open device for a key, and no second one
  is started or published over it.
* `StillMissing` — a started device is missing from the map, and nobody is about to
  publish one.
* `stillMissing_iff_atMostOne` — along a run the one amounts to the other.
-/

namespace CameraService

open Interaction Provider Transition

variable {S : Service} {t u : Thread} {tr : SdkTrace} {a b : DevId} {k sn : Key}
  {P P' : Provider} {pc pc' : Pc} {held : DevId → Bool} {s s' : System} {l : ℕ × SdkTrace}

/-- The device was made for the key, and is open. -/
def OpenFor (S : Service) (k : Key) (a : DevId) : Prop :=
  (∃ m, S.made a = some m ∧ m.key = k) ∧ (S.provider.heap a).camera_open_ = true

/-- At most one device made for a key is open. -/
def AtMostOne (s : System) : Prop :=
  ∀ k a b, OpenFor s.shared k a → OpenFor s.shared k b → a = b

/-- The step neither starts a device while another one made for its key is open, nor
replaces a running device in the map. -/
def StartsAlone (s : System) (l : ℕ × SdkTrace) (_ : System) : Prop :=
  ∀ t, s.threads[l.1]? = some t →
    (∀ k info data, t.pc = .create k info data → ∀ a, ¬ OpenFor s.shared k a) ∧
      ∀ k b data, t.pc = .publish k b data →
        ∀ a, s.shared.provider.cameras_list_.lookup k = some a →
          ¬ (s.shared.provider.heap a).Running

/-- If the step starts a device, then a lookup of its key would still find nothing, and
no other request has opened a device for that key without having published it. -/
def StillMissing (s : System) (l : ℕ × SdkTrace) (_ : System) : Prop :=
  ∀ t k info data, s.threads[l.1]? = some t → t.pc = .create k info data →
    (∀ a, s.shared.provider.cameras_list_.lookup k = some a →
      (s.shared.provider.heap a).isShutdown = true) ∧
    ∀ u ∈ s.threads, ∀ a, u.pc.opens a = true → ¬ OpenFor s.shared k a

/-! ## Where the open devices are -/

/-- An open device is published under its key, or its request is about to publish or
to drop it. -/
def Covered (s : System) : Prop :=
  ∀ k a, OpenFor s.shared k a →
    s.shared.provider.cameras_list_.lookup k = some a ∨ ∃ t ∈ s.threads, t.pc.opens a = true

/-- A device that is open after a section was open before, or has just been made. -/
theorem Effect.open_before (h : Effect held P pc tr P') (ho : (P'.heap a).camera_open_ = true) :
    (P.heap a).camera_open_ = true ∨ a = P.next := by
  cases h.touch a with
  | same he => exact Or.inl (he ▸ ho)
  | made hpc hb => exact Or.inr hb
  | kept hpc hb hr hc => exact Or.inl hb.camera_open
  | dropped hpc hr hc => simp [hr.camera_open] at ho
  | closed hpc hr => simp [hr.camera_open] at ho
  | released hr hb hp => simp [hr.camera_open] at ho

theorem OpenFor.before (hI : S.Inv) (h : Effect held S.provider pc tr P')
    (ho : OpenFor (S.next pc P') k a) :
    OpenFor S k a ∨ (a = S.provider.next ∧ ∃ info data, pc = .create k info data) := by
  obtain ⟨⟨m, hm, hk⟩, ho⟩ := ho
  have hopen := h.open_before ho
  by_cases ha : a = S.provider.next
  · refine Or.inr ⟨ha, ?_⟩
    cases pc with
    | create sn info data =>
        simp only [Service.next, ha, Function.update_self, Option.some.injEq] at hm
        exact ⟨info, data, by rw [← hk, ← hm]⟩
    | _ =>
        have hlt := (hI.fresh a).mp (by rw [show S.made a = some m from hm]; rfl)
        exact absurd ha hlt.ne
  · rw [Service.made_next ha] at hm
    rcases hopen with hopen | hopen
    · exact Or.inl ⟨⟨m, hm, hk⟩, hopen⟩
    · exact absurd hopen ha

/-- A request that is about to publish a device has it open. -/
theorem Relies.openFor {data : Buff} (h : Relies S t) (hpc : t.pc = .publish sn a data) :
    OpenFor S sn a := by
  simp only [Relies, hpc] at h
  exact ⟨h.2.2.2.2, h.2.2.2.1.camera_open⟩

/-- The key of an open device is the one it was made for. -/
theorem OpenFor.key_unique (h : OpenFor S k a) (h' : OpenFor S sn a) : k = sn := by
  obtain ⟨⟨m, hm, rfl⟩, -⟩ := h
  obtain ⟨⟨m', hm', rfl⟩, -⟩ := h'
  rw [Option.some.inj (hm.symm.trans hm')]

/-- Whoever makes a device opens it. -/
theorem Section.opens_next (h : Section held P (.create sn info data) tr P' pc') :
    pc'.opens P.next = true := by
  cases h with
  | failed h hr hd => simp [Pc.opens]
  | created h hd => simp [Pc.opens]

/-- **Open devices do not get lost.** -/
theorem covered_step (hO : outline.Holds s) (hone : AtMostOne s) (hcov : Covered s)
    (hs : Step s l s') : Covered s' := by
  obtain ⟨i, tr⟩ := l
  obtain ⟨t, P', pc', ht, hsec, rfl⟩ := step_cases hs
  have hI : s.shared.Inv := hO.inv
  have htr : Relies s.shared t := hO.own t (List.mem_of_getElem? ht)
  intro k a ho
  rcases ho.before hI hsec.effect with hold | ⟨rfl, info, data, hpc⟩
  · rcases hcov k a hold with hl | ⟨u, hu, hua⟩
    · -- the device is published, and remains so
      have hrun : (s.shared.provider.heap a).Running := by
        rcases hI.settled k a hl with hr | hc
        · exact hr
        · exact absurd (hc.camera_open.symm.trans hold.2) (by simp)
      rcases hsec.effect.lookup_new hl with hl' | ⟨-, hshut⟩ | ⟨b, data, hpc⟩
      · exact Or.inl hl'
      · simp [hrun.not_isShutdown] at hshut
      · obtain rfl := hone k a b hold (htr.openFor hpc)
        simp only [Relies, hpc] at htr
        exact absurd (published_iff.mpr ⟨k, hl⟩) htr.2.2.1
    · obtain ⟨j, hj⟩ := List.mem_iff_getElem?.mp hu
      by_cases hji : j = i
      · -- its own request publishes it, or has dropped it
        subst hji
        obtain rfl : t = u := Option.some.inj (ht.symm.trans hj)
        have hheld := heldBy_of_opens (hO.others ht) hua
        rw [Relies] at htr
        generalize t.pc = q at hsec htr hua
        cases hsec with
        | @publish sn b data _ _ h =>
            obtain rfl : b = a := by simpa [Pc.opens] using hua
            obtain rfl : k = sn := hold.key_unique ⟨htr.2.2.2.2, hold.2⟩
            refine Or.inl ?_
            change P'.cameras_list_.lookup k = some b
            rw [(addCameraDevice_spec h).map]
            exact lookup_insert_eq_some.mpr (Or.inl ⟨rfl, rfl⟩)
        | @abandon b data _ _ h =>
            obtain rfl : b = a := by simpa [Pc.opens] using hua
            have hc := closed_of_release hheld htr.2 h
            exact absurd (hc.camera_open.symm.trans ho.2) (by simp)
        | _ => simp [Pc.opens] at hua
      · exact Or.inr ⟨u, (Pool.mem_set_iff ht).mpr
          (Or.inr (Pool.mem_others.mpr ⟨j, hji, hj⟩)), hua⟩
  · refine Or.inr ⟨⟨pc', t.log ++ tr⟩, (Pool.mem_set_iff ht).mpr (Or.inl rfl), ?_⟩
    rw [hpc] at hsec
    exact hsec.opens_next

/-! ## Starting a device -/

/-- A device that is missing, and that nobody is about to publish, is not open. -/
theorem not_openFor_of_stillMissing (hO : outline.Holds s) (hcov : Covered s)
    (hm : StillMissing s l s') (ht : s.threads[l.1]? = some t) {info : RecordPtr} {data : Buff}
    (hpc : t.pc = .create k info data) (a : DevId) : ¬ OpenFor s.shared k a := by
  intro ho
  obtain ⟨hmiss, hopen⟩ := hm t k info data ht hpc
  rcases hcov k a ho with hl | ⟨u, hu, hua⟩
  · rcases hO.inv.settled k a hl with hr | hc
    · exact absurd (hmiss a hl) (by simp [hr.not_isShutdown])
    · exact absurd (hc.camera_open.symm.trans ho.2) (by simp)
  · exact hopen u hu a hua ho

theorem atMostOne_step (hO : outline.Holds s) (hone : AtMostOne s) (hcov : Covered s)
    (hs : Step s l s') (hm : StillMissing s l s') : AtMostOne s' := by
  obtain ⟨i, tr⟩ := l
  obtain ⟨t, P', pc', ht, hsec, rfl⟩ := step_cases hs
  intro k a b ha hb
  rcases ha.before hO.inv hsec.effect with ha | ⟨ha, info, data, hpc⟩
  · rcases hb.before hO.inv hsec.effect with hb | ⟨-, info, data, hpc⟩
    · exact hone k a b ha hb
    · exact absurd ha (not_openFor_of_stillMissing hO hcov hm ht hpc a)
  · rcases hb.before hO.inv hsec.effect with hb | ⟨hb, -⟩
    · exact absurd hb (not_openFor_of_stillMissing hO hcov hm ht hpc b)
    · rw [ha, hb]

/-- A device that is about to be published replaces no running one. -/
theorem startsAlone_of_stillMissing (hO : outline.Holds s) (hone : AtMostOne s)
    (hcov : Covered s) (hm : StillMissing s l s') : StartsAlone s l s' := by
  intro t ht
  have htr : Relies s.shared t := hO.own t (List.mem_of_getElem? ht)
  refine ⟨fun k info data hpc a => not_openFor_of_stillMissing hO hcov hm ht hpc a, ?_⟩
  intro k b data hpc a hl hr
  have hopen : OpenFor s.shared k a := ⟨hO.inv.made k a hl, hr.camera_open⟩
  obtain rfl := hone k a b hopen (htr.openFor hpc)
  simp only [Relies, hpc] at htr
  exact htr.2.2.1 (published_iff.mpr ⟨k, hl⟩)

theorem stillMissing_of_startsAlone (hO : outline.Holds s) (h : StartsAlone s l s') :
    StillMissing s l s' := by
  intro t k info data ht hpc
  have hnone := (h t ht).1 k info data hpc
  refine ⟨?_, fun u hu a hua => hnone a⟩
  intro a hl
  rcases hO.inv.settled k a hl with hr | hc
  · exact absurd ⟨hO.inv.made k a hl, hr.camera_open⟩ (hnone a)
  · exact hc.isShutdown

/-- **One open device for a key.**  Along every run of every list of requests, each key
has at most one open device, none is started while another is open, and none is
published over a running one, exactly when at every start of a device its key is still
missing. -/
theorem stillMissing_iff_atMostOne (list : InfoList) (reqs : List Request)
    (es : List ((ℕ × SdkTrace) × System)) (h : Along Step (start list reqs) es) :
    Along StillMissing (start list reqs) es ↔
      EveryState AtMostOne (start list reqs) es ∧ Along StartsAlone (start list reqs) es := by
  constructor
  · intro hm
    have hstart : ∀ k a, ¬ OpenFor (start list reqs).shared k a := by
      intro k a ho
      obtain ⟨⟨m, hm, -⟩, -⟩ := ho
      cases hm
    have hall : EveryState (fun s => outline.Holds s ∧ AtMostOne s ∧ Covered s)
        (start list reqs) es := by
      refine everyState_of_along ⟨holds_start, fun k a b ha => absurd ha (hstart k a),
        fun k a ha => absurd ha (hstart k a)⟩ ?_ (along_and.mpr ⟨h, hm⟩)
      intro s l t hinv hq
      obtain ⟨hO, hone, hcov⟩ := hinv
      exact ⟨Outline.holds_step preserves_outline hO hq.1,
        atMostOne_step hO hone hcov hq.1 hq.2, covered_step hO hone hcov hq.1⟩
    exact ⟨hall.imp fun s hs => hs.2.1, along_of_everyState hall hm
      fun s l t hs _ hq => startsAlone_of_stillMissing hs.1 hs.2.1 hs.2.2 hq⟩
  · intro hp
    have hall : EveryState outline.Holds (start list reqs) es :=
      everyState_of_along holds_start (fun s l t => Outline.holds_step preserves_outline) h
    exact along_of_everyState hall hp.2 fun s l t hs _ hq => stillMissing_of_startsAlone hs hq

/-- Two requests for the camera with serial number `B`, both of which look it up before
either of them has published it. -/
def firstUse : System := start ⟨0, [some (usbCamera [66])]⟩ [imageOf [66], imageOf [66]]

def overlappingRun : List ((ℕ × SdkTrace) × System) :=
  playAll firstUse [(0, obliging), (0, obliging), (0, obliging), (1, obliging), (1, obliging),
    (1, obliging), (0, obliging), (1, obliging)]

theorem along_overlappingRun : Along Step firstUse overlappingRun := along_playAll firstUse _

/-- The second request looks the camera up when the first one has published it. -/
def oneAfterOther : List ((ℕ × SdkTrace) × System) :=
  playAll firstUse [(0, obliging), (1, obliging), (0, obliging), (0, obliging), (0, obliging),
    (0, obliging), (1, obliging), (1, obliging), (0, obliging), (1, obliging), (0, obliging)]

/-- A start is alone when the key is not in the map and no other device is unpublished. -/
theorem stillMissing_of_lookup (h : ∀ t ∈ s.threads[l.1]?, ∀ k ∈ t.pc.starts,
    s.shared.provider.cameras_list_.lookup k = none ∧ ∀ u ∈ s.threads, u.pc.unpublished = false) :
    StillMissing s l s' := by
  intro t k info data ht hpc
  obtain ⟨hnone, hnew⟩ := h t ht k (by rw [hpc]; rfl)
  refine ⟨fun a ha => ?_, fun u hu a hopens => ?_⟩
  · cases hnone.symm.trans ha
  · have hun := hnew u hu
    cases hq : u.pc with
    | abandon => simp [hq, Pc.unpublished] at hun
    | publish => simp [hq, Pc.unpublished] at hun
    | _ => simp [hq, Pc.opens] at hopens

/-- The camera is started once, and both requests get a picture. -/
theorem stillMissing_iff_atMostOne_oneAfterOther :
    Along StillMissing firstUse oneAfterOther ∧ EveryState AtMostOne firstUse oneAfterOther ∧
      Along StartsAlone firstUse oneAfterOther ∧
        (lastState firstUse oneAfterOther).threads.all (fun t => t.pc.reply.isSome) = true := by
  have hlookup : Along (fun s l _ => ∀ t ∈ s.threads[l.1]?, ∀ k ∈ t.pc.starts,
      s.shared.provider.cameras_list_.lookup k = none ∧
        ∀ u ∈ s.threads, u.pc.unpublished = false) firstUse oneAfterOther := by
    decide +kernel
  have hmissing : Along StillMissing firstUse oneAfterOther :=
    hlookup.imp fun _ _ _ => stillMissing_of_lookup
  obtain ⟨hone, halone⟩ := (stillMissing_iff_atMostOne _ _ _ (along_playAll _ _)).mp hmissing
  exact ⟨hmissing, hone, halone, by decide +kernel⟩

/-- Both requests then hold an open device of their own. -/
theorem not_atMostOne : ¬ ∀ (list : InfoList) (reqs : List Request)
    (es : List ((ℕ × SdkTrace) × System)), (∀ r ∈ reqs, ∃ sn shape, r = .getImage sn shape) →
      Along Step (start list reqs) es →
      EveryState AtMostOne (start list reqs) es ∧ Along StartsAlone (start list reqs) es := by
  intro h
  have hone := (h _ _ _ (by simp [imageOf]) along_overlappingRun).1.last
  have hmade : (((lastState firstUse overlappingRun).shared.made 0).map Made.key = some [66] ∧
      ((lastState firstUse overlappingRun).shared.made 1).map Made.key = some [66]) ∧
      ((lastState firstUse overlappingRun).shared.provider.heap 0).camera_open_ = true ∧
      ((lastState firstUse overlappingRun).shared.provider.heap 1).camera_open_ = true := by
    decide +kernel
  have h01 : (0 : DevId) = 1 := hone [66] 0 1
    ⟨Option.map_eq_some_iff.mp hmade.1.1, hmade.2.1⟩
    ⟨Option.map_eq_some_iff.mp hmade.1.2, hmade.2.2⟩
  exact absurd h01 (by decide)

end CameraService
