import CameraService.Concurrent.Invariant

/-!
# Shutting devices down

A device that is shut down is never started again: it stays in the map until a
request evicts it or publishes another one in its place.  A request that found the
device before it was shut down goes on to take a picture with it all the same.

## Main definitions

* `TakesSafely` — every request about to take a picture has a running device.
* `SparesTakers` — a step shuts down no device that another request is about to use.
* `sparesTakers_iff_takesSafely` — along a run the one amounts to the other.
* `published_device_life` — what becomes of the devices in the map.
-/

namespace CameraService

open Interaction Provider Transition

variable {S : Service} {t u : Thread} {os : List Thread} {tr : SdkTrace} {a b : DevId}
  {k sn : Key} {P P' : Provider} {pc pc' : Pc} {held : DevId → Bool} {s s' : System}
  {list : InfoList} {reqs : List Request}

/-! ## The life of a published device -/

/-- A device that was shut down stays so. -/
theorem Effect.closed (h : Effect held P pc tr P') (ha : a < P.next) (hc : (P.heap a).Closed) :
    (P'.heap a).Closed := by
  cases h with
  | edit hpc hm h => exact h.closed hc
  | create h => simpa [withDevice, ha.ne] using hc
  | @take b data data' _ d ret h =>
      by_cases hb : a = b
      · subst hb
        exact absurd hc (CameraDevice.takePicture_spec h).1.not_closed
      · simpa [hb] using hc
  | @closing b _ d h =>
      by_cases hb : a = b
      · subst hb
        simpa using CameraDevice.closed_of_stopAndClose h
      · simpa [hb] using hc
  | enumerate => exact hc

theorem closed_of_step {l : ℕ × SdkTrace} (h : Step s l s') (ha : a < s.shared.provider.next)
    (hc : (s.shared.provider.heap a).Closed) :
    a < s'.shared.provider.next ∧ (s'.shared.provider.heap a).Closed := by
  obtain ⟨t, P', pc', -, hs, rfl⟩ := step_cases h
  exact ⟨ha.trans_le hs.effect.next_le, hs.effect.closed ha hc⟩

theorem closed_of_reachable (h : Reachable Step s s') (ha : a < s.shared.provider.next)
    (hc : (s.shared.provider.heap a).Closed) : (s'.shared.provider.heap a).Closed := by
  have hp : a < s'.shared.provider.next ∧ (s'.shared.provider.heap a).Closed :=
    h.induction (P := fun s => a < s.shared.provider.next ∧ (s.shared.provider.heap a).Closed)
      ⟨ha, hc⟩ fun s l t hp hs => closed_of_step hs hp.1 hp.2
  exact hp.2

/-- **The life of a published device.**  It was published under an upper-case key; it
is running or shut down; once shut down it stays so; and it leaves the map only when
a request looks its key up and finds it shut down, or publishes another device for
the key. -/
theorem published_device_life (h : Reachable Step (start list reqs) s)
    (hk : s.shared.provider.cameras_list_.lookup k = some a) :
    toUpper k = k ∧
      ((s.shared.provider.heap a).Running ∨ (s.shared.provider.heap a).Closed) ∧
      ((s.shared.provider.heap a).Closed →
        ∀ s', Reachable Step s s' → (s'.shared.provider.heap a).Closed) ∧
      ∀ i tr s' t, Step s (i, tr) s' → s.threads[i]? = some t →
        s'.shared.provider.cameras_list_.lookup k = some a ∨
          (t.pc.LooksUp k ∧ (s.shared.provider.heap a).isShutdown = true) ∨
          ∃ b data, t.pc = .publish k b data := by
  have hI : s.shared.Inv := (outline_of_reachable h).inv
  have ha := hI.lt_next (published_iff.mpr ⟨k, hk⟩)
  refine ⟨hI.key_upper hk, hI.settled k a hk, fun hc s' hr => closed_of_reachable hr ha hc, ?_⟩
  intro i tr s' t hs ht
  obtain ⟨u, P', pc', hu, hsec, rfl⟩ := step_cases hs
  obtain rfl : t = u := Option.some.inj (ht.symm.trans hu)
  exact hsec.effect.lookup_new hk

/-- Two requests for the camera with serial number `A`. -/
def twoImages : System := start ⟨0, [some (usbCamera [65])]⟩ [imageOf [65], imageOf [65]]

/-- The first request publishes the camera, the second one finds it running, and the
first one finds it unplugged. -/
def unpluggedRun : List ((ℕ × SdkTrace) × System) :=
  playAll twoImages [(0, obliging), (0, obliging), (0, obliging), (0, obliging), (0, obliging),
    (1, obliging), (1, obliging), (0, unplugged)]

theorem reachable_unplugged : Reachable Step twoImages (lastState twoImages unpluggedRun) :=
  reachable_lastState (along_playAll twoImages _)

theorem published_device_life_unplugged :
    ((lastState twoImages unpluggedRun).shared.provider.heap 0).Running ∨
      ((lastState twoImages unpluggedRun).shared.provider.heap 0).Closed := by
  have hk : (lastState twoImages unpluggedRun).shared.provider.cameras_list_.lookup [65] =
      some 0 := by decide +kernel
  exact (published_device_life reachable_unplugged hk).2.1

/-! ## Taking a picture -/

/-- In every state a request that is about to enter `take_picture` has a running
device, so that the only assertion that can fail is the one on the data length. -/
def TakesSafely (s : System) : Prop :=
  ∀ i t a data, s.threads[i]? = some t → t.pc = .take a data →
    (s.shared.provider.heap a).Running ∧
      ∀ tr f, Faults (advance (heldBy (s.threads.eraseIdx i)) t.pc) s.shared.provider tr f →
        f = .assertDataSize

/-- The section shuts down the device at `a`: its picture finds the camera gone, or it
is the section of `close_camera`. -/
inductive ShutsDown (a : DevId) : Pc → SdkTrace → Prop
  | take {data : Buff} {tr : SdkTrace} (hc : tr.any CameraDevice.closing = true) :
      ShutsDown a (.take a data) tr
  | closing {tr : SdkTrace} : ShutsDown a (.closing a) tr

/-- The step shuts down no device that another request is about to take a picture
with. -/
def SparesTakers (s : System) (l : ℕ × SdkTrace) (_ : System) : Prop :=
  ∀ t a, s.threads[l.1]? = some t → ShutsDown a t.pc l.2 →
    ∀ j u data, j ≠ l.1 → s.threads[j]? = some u → u.pc ≠ .take a data

/-- The conditions of `take_picture`, and what follows from them for its faults. -/
theorem takesSafely_iff : TakesSafely s ↔
    ∀ t ∈ s.threads, ∀ a data, t.pc = .take a data → (s.shared.provider.heap a).Running := by
  constructor
  · intro h t ht a data hpc
    obtain ⟨i, ht⟩ := List.mem_iff_getElem?.mp ht
    exact (h i t a data ht hpc).1
  · intro h i t a data ht hpc
    have hr := h t (List.mem_of_getElem? ht) a data hpc
    refine ⟨hr, fun tr f hf => ?_⟩
    rw [hpc] at hf
    simp only [advance] at hf
    rw [faults_bind] at hf
    rcases hf with hf | ⟨t₁, P₁, x, t₂, -, -, hf⟩
    · exact CameraDevice.takePicture_faults hr (faults_zoom.mp hf)
    · exact absurd hf faults_pure

/-- A request that is about to take a picture has just found its device running, or
published it. -/
theorem Section.takes {data : Buff} (hI : S.Inv) (ht : Relies S t)
    (h : Section held S.provider t.pc tr P' (.take a data)) : (P'.heap a).Running := by
  rw [Relies] at ht
  generalize t.pc = q at h ht
  cases h with
  | hit h =>
      obtain ⟨hl, hs, rfl⟩ := h.published
      rcases hI.settled _ _ hl with hr | hc
      · exact hr
      · simp [hc.isShutdown] at hs
  | @publish sn _ _ _ _ h =>
      have hp : Provider.Published
          { S.provider with cameras_list_ := S.provider.cameras_list_.insert sn a } a :=
        published_iff.mpr ⟨sn, lookup_insert_eq_some.mpr (Or.inl ⟨rfl, rfl⟩)⟩
      rw [(addCameraDevice_spec h).heap_of_published hp]
      exact ht.2.2.2.1

theorem Section.shutsDown (h : Section held P pc tr P' pc') (hs : ShutsDown a pc tr) :
    (P'.heap a).Closed := by
  cases hs with
  | take hc =>
      cases h with
      | take h =>
          rcases (CameraDevice.takePicture_spec h).2 with ⟨-, hd, -⟩ | ⟨hc', -⟩
          · simpa using hd
          · simp [hc] at hc'
  | closing =>
      cases h with
      | closing h => simpa using CameraDevice.closed_of_stopAndClose h

/-- The step lemma: the devices about to be used run after a step exactly when the
step spares them. -/
theorem sparesTakers_iff_step {l : ℕ × SdkTrace} (hO : outline.Holds s) (h : TakesSafely s)
    (hs : Step s l s') : SparesTakers s l s' ↔ TakesSafely s' := by
  obtain ⟨i, tr⟩ := l
  obtain ⟨t, P', pc', ht, hsec, rfl⟩ := step_cases hs
  rw [takesSafely_iff] at h ⊢
  constructor
  · intro hspare u hu a data hpc
    change (P'.heap a).Running
    rcases (Pool.mem_set_iff ht).mp hu with rfl | hu
    · obtain rfl : pc' = .take a data := hpc
      exact hsec.takes hO.inv (hO.own t (List.mem_of_getElem? ht))
    · obtain ⟨j, hj, hju⟩ := Pool.mem_others.mp hu
      have hmem := List.mem_of_getElem? hju
      have hown : u.pc.owns a = true := by simp [hpc, Pc.owns]
      have hnot : ¬ ShutsDown a t.pc tr := fun hd => hspare t a ht hd j u data hj hju hpc
      cases hsec.effect.touch a with
      | same he =>
          rw [he]
          exact h u hmem a data hpc
      | made hpc' hb => exact absurd hb ((hO.own u hmem).lt_next hown).ne
      | kept hpc' hb hr hc => exact hr
      | dropped hpc' hr hc => exact absurd (hpc' ▸ .take hc) hnot
      | closed hpc' hr => exact absurd (hpc' ▸ .closing) hnot
      | released hr hb hp => simp [heldBy_of_owns hu hown] at hb
  · intro hsafe t₁ a ht₁ hd j u data hj hju hpc
    obtain rfl : t = t₁ := Option.some.inj (ht.symm.trans ht₁)
    have hu : u ∈ s.threads.set i ⟨pc', t.log ++ tr⟩ :=
      (Pool.mem_set_iff ht).mpr (Or.inr (Pool.mem_others.mpr ⟨j, hj, hju⟩))
    exact (hsafe u hu a data hpc).not_closed (hsec.shutsDown hd)

/-- **A picture is safe exactly as long as nobody shuts its device down in between.**
Along every run of every list of requests, the conditions that `take_picture` asserts
hold whenever a request is about to enter it, exactly when no step shuts down a device
on which another request is about to enter. -/
theorem sparesTakers_iff_takesSafely (list : InfoList) (reqs : List Request)
    (es : List ((ℕ × SdkTrace) × System)) (h : Along Step (start list reqs) es) :
    Along SparesTakers (start list reqs) es ↔ EveryState TakesSafely (start list reqs) es := by
  refine along_iff_everyState holds_start
    (fun s l t hO hs => Outline.holds_step preserves_outline hO hs) ?_
    (fun s l t hO hP hs => sparesTakers_iff_step hO hP hs) h
  rw [takesSafely_iff]
  intro t ht a data hpc
  obtain ⟨r, -, rfl⟩ := List.mem_map.mp ht
  cases hpc

/-- The next section is that of `close_camera`. -/
def Pc.closes : Pc → Bool
  | closing _ => true
  | _ => false

theorem sparesTakers_of_calm {l : ℕ × SdkTrace} (hcalm : l.2.any CameraDevice.closing = false)
    (hpc : ∀ t ∈ s.threads[l.1]?, t.pc.closes = false) : SparesTakers s l s' := by
  intro t a ht hs
  have hcloses := hpc t ht
  generalize t.pc = q at hs hcloses
  cases hs with
  | take hc => simp [hcalm] at hc
  | closing => cases hcloses

/-- Both requests take their picture with the device that the first one has published. -/
def sharedRun : List ((ℕ × SdkTrace) × System) :=
  playAll twoImages [(0, obliging), (0, obliging), (0, obliging), (0, obliging), (0, obliging),
    (1, obliging), (1, obliging), (0, obliging), (1, obliging), (0, obliging), (1, obliging)]

/-- Nobody shuts the device down, and both pictures are safe. -/
theorem sparesTakers_iff_takesSafely_shared : Along SparesTakers twoImages sharedRun ∧
    EveryState TakesSafely twoImages sharedRun ∧
      (lastState twoImages sharedRun).threads.all (fun t => t.pc.reply.isSome) = true := by
  have hcalm : Along (fun s l _ => l.2.any CameraDevice.closing = false ∧
      ∀ t ∈ s.threads[l.1]?, t.pc.closes = false) twoImages sharedRun := by
    decide +kernel
  have hspares : Along SparesTakers twoImages sharedRun :=
    hcalm.imp fun _ _ _ h => sparesTakers_of_calm h.1 h.2
  refine ⟨hspares, ?_, by decide +kernel⟩
  exact (sparesTakers_iff_takesSafely _ _ _ (along_playAll _ _)).mp hspares

/-- Two requests for one camera are enough: the second enters `take_picture` on the
device that the first has just shut down. -/
theorem not_takesSafely : ¬ ∀ (list : InfoList) (reqs : List Request) (s : System),
    (∀ r ∈ reqs, ∃ sn shape, r = .getImage sn shape) → Reachable Step (start list reqs) s →
      TakesSafely s := by
  intro h
  have hsafe := h _ _ _ (by simp [imageOf]) reachable_unplugged
  have hfinal : ((lastState twoImages unpluggedRun).threads.any fun t => t.pc.takes 0) = true ∧
      ((lastState twoImages unpluggedRun).shared.provider.heap 0).camera_ = none := by
    decide +kernel
  obtain ⟨t, ht, htakes⟩ := List.any_eq_true.mp hfinal.1
  obtain ⟨data, hpc⟩ := Pc.takes_iff.mp htakes
  exact (takesSafely_iff.mp hsafe t ht 0 data hpc).camera hfinal.2

end CameraService
