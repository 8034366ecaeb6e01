import CameraService.Concurrent.Images
import Mathlib.Data.List.InsertIdx

/-!
# Inside `take_picture`

In `Step` a picture is one step.  Here it is taken call by call: a request that enters
`take_picture` locks the device, every answer of the SDK is a step, and between two of
them the other requests go on.  What needs the lock has to wait: another picture,
`close_camera`, and the lookups, which ask the device whether it was shut down.

Nobody can tell the difference.  Whatever is reached call by call is reached in the
coarser system too, where the requests inside `take_picture` have not entered yet; so
that what holds of a response there holds of it here.

## Main definitions

* `Worker`, `CallAct`, `CallStep` — the system with its pictures taken call by call.
* `Refines`, `refines_of_reachable` — the coarser system it refines.
* `reachable_lift` — it reaches everything the coarser system reaches.
* `content_of_reply` — whose image a response carries.
-/

namespace CameraService

open Interaction Provider Transition

/-! ## The system -/

/-- A picture in progress: `take_picture`, stopped at a call. -/
abbrev Picture : Type := Node sdk CameraDevice (Ret × Buff)

/-- A request with the picture that it is taking. -/
structure Worker where
  thread : Thread
  inside : Option Picture

/-- The request has locked the device. -/
def Worker.locks (w : Worker) (a : DevId) : Bool := w.inside.isSome && w.thread.pc.takes a

/-- Some request of the list has locked the device. -/
def lockedBy (ws : List Worker) (a : DevId) : Bool := ws.any fun w => w.locks a

/-- The section locks the device. -/
inductive Pc.Enters (P : Provider) (a : DevId) : Pc → Prop
  | lookup {sn : Key} {pc : Pc} (hpc : pc.LooksUp sn) (hl : P.cameras_list_.lookup sn = some a) :
      Enters P a pc
  | take {data : Buff} : Enters P a (.take a data)
  | closing : Enters P a (.closing a)

/-- The device as a stopped picture has left it. -/
def Service.store (S : Service) (a : DevId) (n : Picture) : Service :=
  match n.stored with
  | none => S
  | some d => { S with provider := (deviceAt a).set d S.provider }

/-- A request runs its next section, or takes its picture one call further. -/
inductive CallAct : Pool.Action Service Worker SdkTrace
  | run {os : List Worker} {S S' : Service} {t t' : Thread} {tr : SdkTrace}
      (ht : ∀ a, t.pc.takes a = false)
      (hfree : ∀ a, t.pc.Enters S.provider a → lockedBy os a = false)
      (h : act (os.map Worker.thread) S t tr S' t') : CallAct os S ⟨t, none⟩ tr S' ⟨t', none⟩
  | enter {os : List Worker} {S : Service} {a : DevId} {data : Buff} {log : SdkTrace} {n : Picture}
      (hfree : lockedBy os a = false)
      (hn : n = CameraDevice.takePicture none data (S.provider.heap a)) :
      CallAct os S ⟨⟨.take a data, log⟩, none⟩ [] (S.store a n) ⟨⟨.take a data, log⟩, some n⟩
  | answer {os : List Worker} {S : Service} {a : DevId} {data : Buff} {log : SdkTrace} {n : Picture}
      {d : CameraDevice} {op : Call} {k : op.Ans → CameraDevice → Picture} {r : op.Ans}
      (hn : n = k r (S.provider.heap a)) :
      CallAct os S ⟨⟨.take a data, log⟩, some (.call d op k)⟩ [⟨op, r⟩] (S.store a n)
        ⟨⟨.take a data, log ++ [⟨op, r⟩]⟩, some n⟩
  | leave {os : List Worker} {S : Service} {a : DevId} {data data' : Buff} {log : SdkTrace}
      {d : CameraDevice} {ret : Ret} :
      CallAct os S ⟨⟨.take a data, log⟩, some (.done d (ret, data'))⟩ []
        (S.next (.take a data) S.provider) ⟨⟨.leave a ret data', log⟩, none⟩

/-- The states of the system. -/
abbrev CallSystem : Type := Pool Service Worker

/-- The steps of the system. -/
abbrev CallStep : CallSystem → ℕ × SdkTrace → CallSystem → Prop := Pool.Step CallAct

/-- A state in which nobody is inside `take_picture`. -/
def lift (s : System) : CallSystem := ⟨s.shared, s.threads.map fun t => ⟨t, none⟩⟩

variable {S S' : Service} {w w' : Worker} {ws os : List Worker} {t u : Thread} {tr : SdkTrace}
  {a b : DevId} {sn : Key} {P P' C : Provider} {pc pc' : Pc} {held : DevId → Bool} {n : Picture}
  {L : DevId → Bool} {g : DevId → CameraDevice} {f f' : CallSystem} {c : System}

/-! ## Locks -/

theorem locks_iff : w.locks a = true ↔ w.inside.isSome = true ∧ ∃ data, w.thread.pc = .take a data := by
  rw [Worker.locks, Bool.and_eq_true, Pc.takes_iff]

theorem lockedBy_of_locks (hw : w ∈ ws) (ha : w.locks a = true) : lockedBy ws a = true :=
  List.any_eq_true.mpr ⟨w, hw, ha⟩

theorem lockedBy_set {i : ℕ} (hw : ws[i]? = some w) :
    lockedBy (ws.set i w') a = (w'.locks a || lockedBy (ws.eraseIdx i) a) := by
  rw [Bool.eq_iff_iff, Bool.or_eq_true, lockedBy, lockedBy, List.any_eq_true, List.any_eq_true]
  simp only [Pool.mem_set_iff hw]
  constructor
  · intro h
    obtain ⟨v, rfl | hv, ha⟩ := h
    · exact Or.inl ha
    · exact Or.inr ⟨v, hv, ha⟩
  · intro h
    rcases h with ha | ⟨v, hv, ha⟩
    · exact ⟨w', Or.inl rfl, ha⟩
    · exact ⟨v, Or.inr hv, ha⟩

theorem lockedBy_eq {i : ℕ} (hw : ws[i]? = some w) :
    lockedBy ws a = (w.locks a || lockedBy (ws.eraseIdx i) a) := by
  have hset : ws.set i w = ws := by
    obtain ⟨hi, rfl⟩ := List.getElem?_eq_some_iff.mp hw
    exact List.set_getElem_self hi
  have hlocked : lockedBy (ws.set i w) a = (w.locks a || lockedBy (ws.eraseIdx i) a) :=
    lockedBy_set hw
  rwa [hset] at hlocked

/-- A device that is locked is held. -/
theorem heldBy_of_lockedBy (h : lockedBy ws a = true) : heldBy (ws.map Worker.thread) a = true := by
  obtain ⟨w, hw, ha⟩ := List.any_eq_true.mp h
  obtain ⟨-, data, hpc⟩ := locks_iff.mp ha
  exact heldBy_of_owns (List.mem_map_of_mem hw) (by simp [hpc, Pc.owns])

/-! ## A section amid locked devices -/

/-- A section goes the same way whatever the objects at locked addresses are. -/
theorem advance_frames (hL : ∀ b, L b = true → held b = true) (hnext : L P.next = false)
    (hfree : ∀ b, pc.Enters P b → L b = false) :
    Frames (fun P => P.under L g) (advance held pc) P := by
  have hlookup : ∀ sn, pc.LooksUp sn → ∀ b, P.cameras_list_.lookup sn = some b → L b = false :=
    fun sn hpc b hl => hfree b (.lookup hpc hl)
  cases pc with
  | arrive r =>
      cases r with
      | getImage sn shape => exact Buff.ensureSize_frames.bind fun _ _ _ _ => frames_pure
      | closeCamera sn =>
          refine (findCameraDeviceBySn_frames hL (hlookup _ (.close rfl))).bind fun _ _ x _ => ?_
          cases x with
          | none => exact frames_pure
          | some a => exact frames_pure
      | getCameraMetas =>
          refine Frames.bind (Frames.bind frames_call fun _ _ _ _ =>
            (frames_modify ?_).bind fun _ _ _ _ => frames_pure) fun _ _ _ _ => frames_pure
          rfl
  | lookup sn data =>
      refine (findCameraDeviceBySn_frames hL (hlookup _ .image)).bind fun _ _ x _ => ?_
      cases x with
      | none => exact frames_pure
      | some a => exact frames_pure
  | findInfo sn data =>
      refine Frames.bind (frames_get_bind rfl frames_pure) fun _ _ x _ => ?_
      cases x with
      | none => exact frames_pure
      | some info => exact frames_pure
  | create sn info data => exact (createDevice_frames hnext).bind fun _ _ _ _ => frames_pure
  | abandon a data => exact (release_frames hL).bind fun _ _ _ _ => frames_pure
  | publish sn a data => exact (addCameraDevice_frames hL).bind fun _ _ _ _ => frames_pure
  | take a data => exact (onDevice_frames (hfree a .take)).bind fun _ _ _ _ => frames_pure
  | leave a ret data => exact (release_frames hL).bind fun _ _ _ _ => frames_pure
  | replied reply => exact frames_pure
  | closing a => exact (onDevice_frames (hfree a .closing)).bind fun _ _ _ _ => frames_pure
  | closeLeave a => exact (release_frames hL).bind fun _ _ _ _ => frames_pure
  | closed => exact frames_pure
  | convert i infos epochs => exact frames_get_bind rfl frames_pure
  | listed reply epochs => exact frames_pure

/-- A section leaves locked devices alone. -/
theorem heap_of_advance (hL : ∀ b, L b = true → held b = true) (hnext : L P.next = false)
    (hfree : ∀ b, pc.Enters P b → L b = false) (hf : pc.finished = false)
    (h : Runs (advance held pc) P tr P' pc') (hb : L b = true) : P'.heap b = P.heap b := by
  have hnot : ¬ pc.Enters P b := fun he => by simp [hfree b he] at hb
  cases (section_of_runs hf h).effect.touch b with
  | same he => exact he
  | made hpc he => simp [he, hnext] at hb
  | kept hpc _ _ _ => exact absurd (hpc ▸ .take) hnot
  | dropped hpc _ _ => exact absurd (hpc ▸ .take) hnot
  | closed hpc _ => exact absurd (hpc ▸ .closing) hnot
  | released _ hh _ => simp [hL b hb] at hh

/-! ## Refinement -/

/-- A request and what it is in the coarser system, where a picture in progress has not
begun: from the object the device is there, its answers so far lead to where it is. -/
inductive Tracks (P C : Provider) : Worker → Thread → Prop
  | outside {t : Thread} : Tracks P C ⟨t, none⟩ t
  | inside {a : DevId} {data : Buff} {log tr : SdkTrace} {n : Picture}
      (hn : Steps (CameraDevice.takePicture none data (C.heap a)) tr n)
      (hd : ∀ d, n.stored = some d → P.heap a = d) :
      Tracks P C ⟨⟨.take a data, log ++ tr⟩, some n⟩ ⟨.take a data, log⟩

/-- The two states agree but for the objects at some addresses. -/
structure AgreeOff (L : DevId → Bool) (P C : Provider) : Prop where
  info : C.camera_info_list_ = P.camera_info_list_
  map : C.cameras_list_ = P.cameras_list_
  next : C.next = P.next
  heap : ∀ b, L b = false → C.heap b = P.heap b

theorem AgreeOff.eq_under (h : AgreeOff L P C) : C = P.under L C.heap := by
  obtain ⟨info, map, heap, next⟩ := C
  obtain ⟨rfl, rfl, rfl, hheap⟩ := h
  simp only [under, mk.injEq, true_and, and_true]
  funext b
  cases hb : L b with
  | true => rfl
  | false => simpa using hheap b hb

/-- The two systems agree but for the pictures in progress. -/
structure Refines (f : CallSystem) (c : System) : Prop where
  pcs : f.threads.map (fun w => w.thread.pc) = c.threads.map Thread.pc
  tracks : ∀ (i : ℕ) (w : Worker) (u : Thread), f.threads[i]? = some w → c.threads[i]? = some u →
    Tracks f.shared.provider c.shared.provider w u
  exclusive : ∀ (i j : ℕ) (w v : Worker) (a : DevId), i ≠ j → f.threads[i]? = some w →
    f.threads[j]? = some v → w.locks a = true → v.locks a = false
  provider : AgreeOff (lockedBy f.threads) f.shared.provider c.shared.provider
  made : f.shared.made = c.shared.made
  enumerated : f.shared.enumerated = c.shared.enumerated

/-- The request that has locked a device tells nothing about another one. -/
theorem Tracks.imp {Q D : Provider} (h : Tracks P C w u)
    (hheap : ∀ a, w.locks a = true → Q.heap a = P.heap a ∧ D.heap a = C.heap a) :
    Tracks Q D w u := by
  cases h with
  | outside => exact .outside
  | @inside a data log tr n hn hd =>
      have ha := hheap a (by simp [Worker.locks, Pc.takes])
      exact .inside (ha.2.symm ▸ hn) fun d hs => ha.1.trans (hd d hs)

theorem Refines.partner {i : ℕ} (h : Refines f c) (hw : f.threads[i]? = some w) :
    ∃ u, c.threads[i]? = some u ∧ u.pc = w.thread.pc ∧
      Tracks f.shared.provider c.shared.provider w u := by
  have hpc : (c.threads.map Thread.pc)[i]? = some w.thread.pc := by
    rw [← h.pcs, List.getElem?_map, hw]
    rfl
  rw [List.getElem?_map, Option.map_eq_some_iff] at hpc
  obtain ⟨u, hu, hpc⟩ := hpc
  exact ⟨u, hu, hpc, h.tracks i w u hw hu⟩

/-- The others hold the same devices. -/
theorem Refines.heldBy (h : Refines f c) (i : ℕ) :
    heldBy ((f.threads.eraseIdx i).map Worker.thread) = heldBy (c.threads.eraseIdx i) := by
  have hpcs : (f.threads.eraseIdx i).map (fun w => w.thread.pc) =
      (c.threads.eraseIdx i).map Thread.pc := by
    rw [← List.eraseIdx_map, ← List.eraseIdx_map, h.pcs]
  funext a
  calc CameraService.heldBy ((f.threads.eraseIdx i).map Worker.thread) a
      = ((f.threads.eraseIdx i).map fun w => w.thread.pc).any (·.owns a) := by
        simp [CameraService.heldBy, List.any_map, Function.comp_def]
    _ = CameraService.heldBy (c.threads.eraseIdx i) a := by
        rw [hpcs]
        simp [CameraService.heldBy, List.any_map, Function.comp_def]

/-- A locked device was made before. -/
theorem Refines.lockedBy_next (h : Refines f c) (hO : outline.Holds c) :
    lockedBy f.threads f.shared.provider.next = false := by
  rw [← Bool.not_eq_true]
  intro hl
  obtain ⟨w, hw, ha⟩ := List.any_eq_true.mp hl
  obtain ⟨-, data, hpc⟩ := locks_iff.mp ha
  obtain ⟨i, hw⟩ := List.mem_iff_getElem?.mp hw
  obtain ⟨u, hu, hpcu, -⟩ := h.partner hw
  have hlt := (hO.own u (List.mem_of_getElem? hu)).lt_next
    (a := f.shared.provider.next) (by simp [hpcu, hpc, Pc.owns])
  rw [h.provider.next] at hlt
  exact hlt.false

/-- Where one request has moved, and the others are as before. -/
theorem Refines.move {i : ℕ} {w' : Worker} {u u' : Thread} (h : Refines f c)
    (hw : f.threads[i]? = some w) (hu : c.threads[i]? = some u) {S' T' : Service}
    (hpc : w'.thread.pc = u'.pc) (htr : Tracks S'.provider T'.provider w' u')
    (hold : ∀ j v a, j ≠ i → f.threads[j]? = some v → v.locks a = true →
      w'.locks a = false ∧ S'.provider.heap a = f.shared.provider.heap a ∧
        T'.provider.heap a = c.shared.provider.heap a)
    (hprov : AgreeOff (lockedBy (f.threads.set i w')) S'.provider T'.provider)
    (hmade : S'.made = T'.made) (henum : S'.enumerated = T'.enumerated) :
    Refines ⟨S', f.threads.set i w'⟩ ⟨T', c.threads.set i u'⟩ where
  pcs := by
    change (f.threads.set i w').map _ = (c.threads.set i u').map _
    rw [List.map_set, List.map_set, h.pcs, hpc]
  tracks := by
    intro j v x hv hx
    rcases (Pool.getElem?_set_iff hw).mp hv with ⟨rfl, rfl⟩ | ⟨hj, hv⟩
    · rcases (Pool.getElem?_set_iff hu).mp hx with ⟨-, rfl⟩ | ⟨hj, -⟩
      · exact htr
      · exact absurd rfl hj
    · rcases (Pool.getElem?_set_iff hu).mp hx with ⟨rfl, -⟩ | ⟨-, hx⟩
      · exact absurd rfl hj
      · exact (h.tracks j v x hv hx).imp fun a ha => (hold j v a hj hv ha).2
  exclusive := by
    intro j k v x a hjk hv hx ha
    rcases (Pool.getElem?_set_iff hw).mp hv with ⟨rfl, rfl⟩ | ⟨hj, hv'⟩
    · rcases (Pool.getElem?_set_iff hw).mp hx with ⟨rfl, -⟩ | ⟨hk, hx'⟩
      · exact absurd rfl hjk
      · rw [← Bool.not_eq_true]
        intro hxa
        simp [(hold k x a hk hx' hxa).1] at ha
    · rcases (Pool.getElem?_set_iff hw).mp hx with ⟨rfl, rfl⟩ | ⟨-, hx'⟩
      · exact (hold j v a hj hv' ha).1
      · exact h.exclusive j k v x a hjk hv' hx' ha
  provider := hprov
  made := hmade
  enumerated := henum

theorem heap_store {d : CameraDevice} (hd : n.stored = some d) :
    (S.store a n).provider.heap a = d := by
  simp [Service.store, hd]

theorem heap_store_of_ne (hb : b ≠ a) : (S.store a n).provider.heap b = S.provider.heap b := by
  rw [Service.store]
  split
  · rfl
  · simp [hb]

theorem store_eq : ∃ h, S.store a n = { S with provider := { S.provider with heap := h } } := by
  rw [Service.store]
  split
  · exact ⟨S.provider.heap, rfl⟩
  · exact ⟨_, rfl⟩

/-- A picture that goes on is none of the coarser system's business. -/
theorem Refines.stay {i : ℕ} {data : Buff} {log : SdkTrace} (h : Refines f c)
    (hw : f.threads[i]? = some w) (hu : c.threads[i]? = some ⟨.take a data, log⟩)
    (hfree : lockedBy (f.threads.eraseIdx i) a = false)
    (hn : Steps (CameraDevice.takePicture none data (c.shared.provider.heap a)) tr n) :
    Refines ⟨f.shared.store a n, f.threads.set i ⟨⟨.take a data, log ++ tr⟩, some n⟩⟩ c := by
  obtain ⟨x, hx, hpcx, -⟩ := h.partner hw
  obtain rfl : x = ⟨.take a data, log⟩ := Option.some.inj (hx.symm.trans hu)
  have hlocks : ∀ b, b ≠ a → w.locks b = false := by
    intro b hb
    simp [Worker.locks, ← hpcx, Pc.takes, Ne.symm hb]
  have hset : c.threads.set i ⟨.take a data, log⟩ = c.threads := by
    obtain ⟨hi, he⟩ := List.getElem?_eq_some_iff.mp hu
    rw [← he]
    exact List.set_getElem_self hi
  obtain ⟨hp, hstore⟩ := store_eq (S := f.shared) (a := a) (n := n)
  suffices hmove : Refines ⟨f.shared.store a n, f.threads.set i ⟨⟨.take a data, log ++ tr⟩, some n⟩⟩
      ⟨c.shared, c.threads.set i ⟨.take a data, log⟩⟩ by
    rw [hset] at hmove
    exact hmove
  refine h.move hw hu rfl (.inside hn fun d hd => heap_store hd) ?_ ?_ (by rw [hstore, ← h.made])
    (by rw [hstore, ← h.enumerated])
  · intro j v b hj hv hb
    have hne : b ≠ a := by
      intro hba
      subst hba
      have hl := lockedBy_of_locks (Pool.mem_others.mpr ⟨j, hj, hv⟩) hb
      simp [hfree] at hl
    exact ⟨by simp [Worker.locks, Pc.takes, Ne.symm hne], heap_store_of_ne hne, rfl⟩
  · refine ⟨by rw [hstore, h.provider.info], by rw [hstore, h.provider.map],
      by rw [hstore, h.provider.next], fun b hb => ?_⟩
    rw [lockedBy_set hw, Bool.or_eq_false_iff] at hb
    have hne : b ≠ a := by
      intro hba
      subst hba
      simp [Worker.locks, Pc.takes] at hb
    rw [heap_store_of_ne hne]
    exact h.provider.heap b (by rw [lockedBy_eq hw, hlocks b hne, hb.2]; rfl)

/-- A picture that is over is one step of the coarser system. -/
theorem Refines.finish {i : ℕ} {data data' : Buff} {log : SdkTrace} {d : CameraDevice} {ret : Ret}
    (h : Refines f c)
    (hw : f.threads[i]? = some ⟨⟨.take a data, log⟩, some (.done d (ret, data'))⟩) :
    ∃ c' tr, Step c (i, tr) c' ∧ Refines
      ⟨f.shared.next (.take a data) f.shared.provider,
        f.threads.set i ⟨⟨.leave a ret data', log⟩, none⟩⟩ c' := by
  obtain ⟨u, hu, -, htr⟩ := h.partner hw
  cases htr with
  | @inside _ _ log tr _ hn hd =>
      have hd : f.shared.provider.heap a = d := hd d rfl
      have hrun : Runs (advance (CameraService.heldBy (c.threads.eraseIdx i)) (.take a data))
          c.shared.provider tr ((deviceAt a).set d c.shared.provider) (.leave a ret data') := by
        simp only [advance]
        exact runs_bind.mpr ⟨tr, _, (ret, data'), [], by simp, runs_onDevice.mpr ⟨d, hn, rfl⟩,
          runs_pure.mpr ⟨rfl, rfl, rfl⟩⟩
      refine ⟨_, tr, .mk hu ⟨rfl, _, _, hrun, rfl, rfl⟩, ?_⟩
      refine h.move hw hu rfl .outside ?_ ?_ h.made ?_
      · intro j v b hj hv hb
        have hne : b ≠ a := by
          intro hba
          subst hba
          have hl := h.exclusive i j _ v b (Ne.symm hj) hw hv (by simp [Worker.locks, Pc.takes])
          simp [hb] at hl
        exact ⟨rfl, rfl, by simp [hne]⟩
      · refine ⟨h.provider.info, h.provider.map, h.provider.next, fun b hb => ?_⟩
        rw [lockedBy_set hw, Bool.or_eq_false_iff] at hb
        by_cases hba : b = a
        · subst hba
          simp [hd]
        · have hfree : lockedBy f.threads b = false := by
            rw [lockedBy_eq hw, hb.2]
            simp [Worker.locks, Pc.takes, Ne.symm hba]
          simpa [hba] using h.provider.heap b hfree
      · simp only [Service.next, h.enumerated, camera_info_list_set, h.provider.info]

/-- A section is the same section of the coarser system. -/
theorem Refines.run {i : ℕ} (h : Refines f c) (hO : outline.Holds c)
    (hw : f.threads[i]? = some ⟨t, none⟩) {t' : Thread}
    (hfree : ∀ a, t.pc.Enters f.shared.provider a → lockedBy (f.threads.eraseIdx i) a = false)
    (hact : act ((f.threads.eraseIdx i).map Worker.thread) f.shared t tr S' t') :
    ∃ c', Step c (i, tr) c' ∧ Refines ⟨S', f.threads.set i ⟨t', none⟩⟩ c' := by
  obtain ⟨u, hu, -, htr⟩ := h.partner hw
  cases htr
  obtain ⟨hf, P', pc', hr, rfl, rfl⟩ := hact
  have hlock : ∀ b, lockedBy f.threads b = lockedBy (f.threads.eraseIdx i) b := by
    intro b
    rw [lockedBy_eq hw]
    rfl
  have hlock' : ∀ {v : Thread} b,
      lockedBy (f.threads.set i ⟨v, none⟩) b = lockedBy f.threads b := by
    intro v b
    rw [lockedBy_set hw, hlock]
    rfl
  have hL : ∀ b, lockedBy f.threads b = true →
      CameraService.heldBy ((f.threads.eraseIdx i).map Worker.thread) b = true := by
    intro b hb
    rw [hlock] at hb
    exact heldBy_of_lockedBy hb
  have hnext := h.lockedBy_next hO
  have hfree' : ∀ b, t.pc.Enters f.shared.provider b → lockedBy f.threads b = false := by
    intro b hb
    rw [hlock]
    exact hfree b hb
  have hkeep := fun b => heap_of_advance (b := b) hL hnext hfree' hf hr
  -- the same section, among the objects of the coarser system
  have hrun := advance_frames (g := c.shared.provider.heap) hL hnext hfree' _ _ _ hr
  dsimp only at hrun
  rw [← h.provider.eq_under, h.heldBy i] at hrun
  refine ⟨_, .mk hu ⟨hf, _, _, hrun, rfl, rfl⟩, ?_⟩
  refine h.move hw hu rfl .outside ?_ ?_ ?_ ?_
  · intro j v b hj hv hb
    have hl := lockedBy_of_locks (List.mem_of_getElem? hv) hb
    exact ⟨rfl, hkeep b hl, heap_under_of hl⟩
  · exact ⟨rfl, rfl, rfl, fun b hb => heap_under (hlock' b ▸ hb)⟩
  · cases hpc : t.pc <;> simp [Service.next, h.made, h.provider.info, h.provider.next]
  · simp only [Service.next, h.enumerated, under]

/-- **A step is one of the coarser system, or none.** -/
theorem Refines.step {l : ℕ × SdkTrace} (h : Refines f c) (hO : outline.Holds c)
    (hs : CallStep f l f') : ∃ c', Reachable Step c c' ∧ Refines f' c' := by
  cases hs with
  | @mk i w w' tr S' hw hact =>
      cases hact with
      | run ht hfree hact =>
          obtain ⟨c', hstep, href⟩ := h.run hO hw hfree hact
          exact ⟨c', (Reachable.refl c).tail hstep, href⟩
      | @enter _ _ a data log n hfree hn =>
          obtain ⟨u, hu, -, htr⟩ := h.partner hw
          cases htr
          have ha : lockedBy f.threads a = false := by
            rw [lockedBy_eq hw, hfree]
            rfl
          have hsteps : Steps (CameraDevice.takePicture none data (c.shared.provider.heap a)) [] n := by
            rw [h.provider.heap a ha, ← hn]
            exact .refl n
          have hstay := h.stay hw hu hfree hsteps
          rw [List.append_nil] at hstay
          exact ⟨c, .refl c, hstay⟩
      | @answer _ _ a data _ n d op k r hn =>
          obtain ⟨u, hu, -, htr⟩ := h.partner hw
          cases htr with
          | @inside _ _ log tr _ hsteps hd =>
              have hfree : lockedBy (f.threads.eraseIdx i) a = false := by
                rw [lockedBy, List.any_eq_false]
                intro v hv
                obtain ⟨j, hj, hv⟩ := Pool.mem_others.mp hv
                have hl := h.exclusive i j _ v a (Ne.symm hj) hw hv
                  (by simp [Worker.locks, Pc.takes])
                simp [hl]
              have hd : f.shared.provider.heap a = d := hd d rfl
              rw [hd] at hn
              rw [List.append_assoc]
              exact ⟨c, .refl c, h.stay hw hu hfree (hn ▸ hsteps.snoc r)⟩
      | leave =>
          obtain ⟨c', tr, hstep, href⟩ := h.finish hw
          exact ⟨c', (Reachable.refl c).tail hstep, href⟩

end CameraService
