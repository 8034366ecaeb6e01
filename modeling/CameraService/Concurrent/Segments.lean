import CameraService.Concurrent.Locking
import CameraService.ProviderSpec

/-!
# Sections and their locks

A section of a request, taken lock by lock and left alone, does what `advance` says it does
in one step.  There the owners of a device are read off the map and the requests; here its
references are counted.  The two agree as long as the counts do.

## Main definitions

* `mapRefs`, `Counted` — every reference is one of the map's or of the requests'.
* `section_of_segment` — a section lock by lock is the section in one step.
* `serialAct`, `Abstracts`, `abstracts_of_reachable` — the system of these sections is
  simulated by `Step`.
-/

namespace CameraService

open Interaction Provider

variable {n : DevId → ℕ} {a b : DevId} {sn : Key} {P P' : Provider} {S S' : Shared}
  {tr : List (Event (locking sdk Mutex))}

/-! ## Counting references -/

/-- How many `shared_ptr`s of the map point to the device. -/
def mapRefs (P : Provider) (a : DevId) : ℕ := P.cameras_list_.entries.countP fun e => e.2 = a

/-- One reference more to the device. -/
def bump (n : DevId → ℕ) (a : DevId) : DevId → ℕ := Function.update n a (n a + 1)

/-- Every reference is one of the map's, or one of the `n` of the requests. -/
def Counted (n : DevId → ℕ) (S : Shared) : Prop := ∀ a, S.refs a = mapRefs S.provider a + n a

/-- The devices with a reference among the `n`. -/
def holding (n : DevId → ℕ) (a : DevId) : Bool := decide (0 < n a)

theorem bump_apply : bump n a b = n b + if b = a then 1 else 0 := by
  by_cases h : b = a
  · subst h
    simp [bump]
  · simp [bump, h]

theorem mapRefs_pos : 0 < mapRefs P a ↔ P.Published a := by
  simp [mapRefs, Published, List.countP_pos_iff]

theorem countP_kerase {l : List (Sigma fun _ : Key => DevId)} (h : l.dlookup sn = some b) :
    (l.countP fun e => e.2 = a) =
      ((l.kerase sn).countP fun e => e.2 = a) + if a = b then 1 else 0 := by
  induction l with
  | nil => cases h
  | cons e l ih =>
      obtain ⟨k, c⟩ := e
      by_cases hk : sn = k
      · subst hk
        obtain rfl : c = b := by simpa using h
        have hcons : List.kerase sn (⟨sn, c⟩ :: l) = l := List.kerase_cons_eq rfl
        rw [hcons, List.countP_cons]
        simp [eq_comm]
      · rw [List.dlookup_cons_ne _ _ hk] at h
        rw [List.kerase_cons_ne hk, List.countP_cons, List.countP_cons, ih h]
        omega

/-- The map gives up a reference with an entry. -/
theorem mapRefs_erase (h : P.cameras_list_.lookup sn = some b) : mapRefs P a =
    mapRefs { P with cameras_list_ := P.cameras_list_.erase sn } a + if a = b then 1 else 0 :=
  countP_kerase h

/-- The map takes a reference with an entry. -/
theorem mapRefs_insert : mapRefs { P with cameras_list_ := P.cameras_list_.insert sn b } a =
    mapRefs { P with cameras_list_ := P.cameras_list_.erase sn } a + if a = b then 1 else 0 := by
  have hentries : (P.cameras_list_.erase sn).entries = P.cameras_list_.entries.kerase sn := rfl
  simp only [mapRefs, AList.entries_insert, List.countP_cons, hentries]
  simp [eq_comm]

theorem mapRefs_erase_of_none (h : P.cameras_list_.lookup sn = none) :
    mapRefs { P with cameras_list_ := P.cameras_list_.erase sn } a = mapRefs P a := by
  have hentries : (P.cameras_list_.erase sn).entries = P.cameras_list_.entries :=
    List.kerase_of_notMem_keys (AList.lookup_eq_none.mp h)
  simp only [mapRefs, hentries]

@[simp] theorem holding_bump : holding (bump n a) a = true := by simp [holding, bump]

/-! ## The members that lock -/

theorem runs_onProvider {α : Type} {p : ProviderProc α} {x : α}
    (h : Runs (Shared.onProvider p) S tr S' x) :
    Runs p S.provider (bases tr) S'.provider x ∧ S'.refs = S.refs := by
  obtain ⟨P₁, hp, rfl⟩ := runs_zoom.mp (runs_of_lift h)
  exact ⟨hp, rfl⟩

theorem runs_onProvider_modify {g : Provider → Provider} {u : Unit}
    (h : Runs (Shared.onProvider (Proc.modify g)) S tr S' u) :
    S'.provider = g S.provider ∧ S'.refs = S.refs ∧ bases tr = [] := by
  obtain ⟨hm, hrefs⟩ := runs_onProvider h
  obtain ⟨hnil, hp⟩ := runs_modify.mp hm
  exact ⟨hp, hrefs, hnil⟩

theorem counted_of_map (hmap : S'.provider.cameras_list_ = S.provider.cameras_list_)
    (hrefs : S'.refs = S.refs) (hc : Counted n S) : Counted n S' := by
  intro a
  rw [hrefs, hc a, mapRefs, mapRefs, hmap]

theorem counted_copyRef (hc : Counted n S) : Counted (bump n a) (S.copyRef a) := by
  intro b
  have hcopy : (S.copyRef a).refs b = S.refs b + if b = a then 1 else 0 := bump_apply
  rw [hcopy, hc b, bump_apply, Nat.add_assoc]
  rfl

/-- A program that leaves the map alone leaves the counts alone. -/
theorem runs_guarded_onProvider {α : Type} {p : ProviderProc α} {x : α} {m : Mutex}
    (hmap : ∀ t P', Runs p S.provider t P' x → P'.cameras_list_ = S.provider.cameras_list_)
    (hc : Counted n S) (h : Runs (guarded m (Shared.onProvider p)) S tr S' x) :
    Runs p S.provider (bases tr) S'.provider x ∧ Counted n S' := by
  obtain ⟨t, ht, hb⟩ := runs_of_guarded h
  obtain ⟨hp, hrefs⟩ := runs_onProvider ht
  exact ⟨hb ▸ hp, counted_of_map (hmap _ _ hp) hrefs hc⟩

theorem map_of_onDevice {α : Type} {p : DeviceProc α} {x : α} {tr : SdkTrace}
    (h : Runs (onDevice a p) P tr P' x) : P'.cameras_list_ = P.cameras_list_ := by
  obtain ⟨d, -, rfl⟩ := runs_onDevice.mp h
  rfl

namespace Locking

theorem runs_stopAndClose (h : Runs (stopAndClose a) S tr S' ()) :
    Runs (onDevice a CameraDevice.stopAndClose) S.provider (bases tr) S'.provider () ∧
      S'.refs = S.refs := by
  obtain ⟨t, ht, hb⟩ := runs_of_guarded h
  rw [← hb]
  exact runs_onProvider ht

theorem runs_isShutdown {x : Bool} (h : Runs (isShutdown a) S tr S' x) :
    x = (S.provider.heap a).isShutdown ∧ S' = S ∧ bases tr = [] := by
  obtain ⟨t, ht, hb⟩ := runs_of_guarded h
  rw [runs_get_bind] at ht
  obtain ⟨rfl, rfl, rfl⟩ := runs_pure.mp ht
  exact ⟨rfl, rfl, hb.symm⟩

/-- `release` does nothing to a device that has an owner left. -/
theorem runs_release_of_owned {held : DevId → Bool} {tr : SdkTrace}
    (ha : held a = true ∨ P.Published a) : Runs (release held a) P tr P' () ↔ tr = [] ∧ P' = P := by
  simp [release, ha]

/-- **A `shared_ptr` that goes out of scope** is a reference less, and shuts the device down
when it was the last. -/
theorem runs_dropShared (hc : Counted (bump n a) S) (h : Runs (dropShared a) S tr S' ()) :
    Runs (release (holding n) a) S.provider (bases tr) S'.provider () ∧ Counted n S' := by
  obtain ⟨-, t₁, rfl, h₁⟩ := runs_call_bind.mp h
  rw [runs_modify_bind, runs_get_bind] at h₁
  have hrefs : (S.dropRef a).refs a = mapRefs S.provider a + n a := by
    simp [Shared.dropRef, hc a, bump]
  have hcount : Counted n (S.dropRef a) := by
    intro b
    by_cases hb : b = a
    · subst hb
      exact hrefs
    · simp [Shared.dropRef, hb, hc b, bump]
  split at h₁
  · rename_i hzero
    obtain ⟨hrun, heq⟩ := runs_stopAndClose h₁
    have hfree : ¬ (holding n a = true ∨ S.provider.Published a) := by
      rw [← mapRefs_pos, holding, decide_eq_true_iff]
      omega
    obtain ⟨d, hd, hS'⟩ := runs_onDevice.mp hrun
    refine ⟨?_, fun b => ?_⟩
    · rw [release, runs_get_bind, if_neg hfree]
      exact hrun
    · rw [heq, hS']
      exact hcount b
  · rename_i hzero
    obtain ⟨rfl, rfl, -⟩ := runs_pure.mp h₁
    have howned : holding n a = true ∨ S.provider.Published a := by
      rw [← mapRefs_pos, holding, decide_eq_true_iff]
      omega
    exact ⟨(runs_release_of_owned howned).mpr ⟨rfl, rfl⟩, hcount⟩

/-- The eviction of a device: the reference of the map goes with the entry. -/
theorem runs_evict {x : Option DevId} (hc : Counted n S)
    (hl : S.provider.cameras_list_.lookup sn = some a)
    (h : Runs (do
      Shared.onProvider (Proc.modify fun P => { P with cameras_list_ := P.cameras_list_.erase sn })
      dropShared a
      pure none) S tr S' x) :
    Runs (do
      Proc.modify fun P => { P with cameras_list_ := P.cameras_list_.erase sn }
      release (holding n) a
      pure none) S.provider (bases tr) S'.provider x ∧ x = none ∧ Counted n S' := by
  obtain ⟨t₁, S₁, u, t₂, rfl, h₁, h₂⟩ := runs_bind.mp h
  obtain ⟨hS₁, hrefs, hnil⟩ := runs_onProvider_modify h₁
  obtain ⟨t₃, S₂, v, t₄, rfl, h₃, h₄⟩ := runs_bind.mp h₂
  obtain ⟨rfl, rfl, rfl⟩ := runs_pure.mp h₄
  have hcount : Counted (bump n a) S₁ := by
    intro b
    rw [hrefs, hc b, mapRefs_erase hl, hS₁, bump_apply]
    omega
  obtain ⟨hrelease, hc'⟩ := runs_dropShared hcount h₃
  rw [hS₁] at hrelease
  refine ⟨?_, rfl, hc'⟩
  rw [runs_modify_bind, runs_bind]
  exact ⟨bases t₃, _, (), [], by simp [hnil], hrelease, runs_pure.mpr ⟨rfl, rfl, rfl⟩⟩

/-- `find_camera_device_by_sn` returns a reference. -/
theorem runs_findCameraDeviceBySn {x : Option DevId} (hc : Counted n S)
    (h : Runs (findCameraDeviceBySn sn) S tr S' x) :
    Runs (Provider.findCameraDeviceBySn (holding n) sn) S.provider (bases tr) S'.provider x ∧
      Counted (x.elim n (bump n)) S' := by
  obtain ⟨t, ht, hb⟩ := runs_of_guarded h
  rw [← hb]
  rw [runs_get_bind] at ht
  rw [Provider.findCameraDeviceBySn, runs_get_bind]
  cases hl : S.provider.cameras_list_.lookup sn with
  | none =>
      simp only [hl] at ht
      obtain ⟨rfl, rfl, rfl⟩ := runs_pure.mp ht
      exact ⟨runs_pure.mpr ⟨rfl, rfl, rfl⟩, hc⟩
  | some a =>
      simp only [hl] at ht
      obtain ⟨t₁, S₁, down, t₂, rfl, h₁, h₂⟩ := runs_bind.mp ht
      obtain ⟨rfl, rfl, hnil⟩ := runs_isShutdown h₁
      rw [bases_append, hnil, List.nil_append]
      cases hs : (S₁.provider.heap a).isShutdown with
      | true =>
          rw [hs, if_pos rfl] at h₂
          obtain ⟨hevict, hx, hc'⟩ := runs_evict hc hl h₂
          subst hx
          simp only [hs, if_true]
          exact ⟨hevict, hc'⟩
      | false =>
          rw [hs, if_neg (by simp)] at h₂
          rw [runs_modify_bind] at h₂
          obtain ⟨rfl, rfl, rfl⟩ := runs_pure.mp h₂
          refine ⟨?_, counted_copyRef hc⟩
          simp only [hs, Bool.false_eq_true, if_false]
          exact runs_pure.mpr ⟨rfl, rfl, rfl⟩

/-- The reference that the map gives up, when another takes its place. -/
theorem runs_dropOld {m : DevId → ℕ} {old : Option DevId} {u : Unit}
    (hc : Counted (old.elim m (bump m)) S) (h : Runs (dropOld old) S tr S' u) :
    Runs (releaseOld (holding m) old) S.provider (bases tr) S'.provider () ∧ Counted m S' := by
  cases old with
  | none =>
      obtain ⟨rfl, rfl, -⟩ := runs_pure.mp h
      exact ⟨runs_pure.mpr ⟨rfl, rfl, rfl⟩, hc⟩
  | some b => exact runs_dropShared hc h

/-- An owner that the others do not count does not matter to a device in the map. -/
theorem runs_releaseOld_published {m : DevId → ℕ} {old : Option DevId} {tr : SdkTrace}
    (ha : P.Published a) (hm : ∀ b, b ≠ a → holding m b = holding n b)
    (h : Runs (releaseOld (holding m) old) P tr P' ()) :
    Runs (releaseOld (holding n) old) P tr P' () := by
  cases old with
  | none => exact h
  | some b =>
      by_cases hb : b = a
      · subst hb
        exact (runs_release_of_owned (Or.inr ha)).mpr ((runs_release_of_owned (Or.inr ha)).mp h)
      · rw [releaseOld, release] at h ⊢
        rwa [hm b hb] at h

/-- `add_camera_device`, called with a reference that its caller keeps. -/
theorem runs_addCameraDevice (hc : Counted (bump n a) S)
    (h : Runs (addCameraDevice sn a) S tr S' ()) :
    Runs (Provider.addCameraDevice (holding n) sn a) S.provider (bases tr) S'.provider () ∧
      Counted (bump n a) S' := by
  rw [addCameraDevice, runs_modify_bind] at h
  obtain ⟨t₁, S₁, u, t₂, rfl, h₁, h₂⟩ := runs_bind.mp h
  obtain ⟨t, ht, hb⟩ := runs_of_guarded h₁
  rw [runs_get_bind, runs_modify_bind] at ht
  obtain ⟨t₃, S₂, v, t₄, rfl, h₃, h₄⟩ := runs_bind.mp ht
  obtain ⟨hS₂, hrefs, hnil⟩ : S₂.provider =
      { S.provider with cameras_list_ := S.provider.cameras_list_.insert sn a } ∧
        S₂.refs = bump (bump S.refs a) a ∧ bases t₃ = [] := runs_onProvider_modify h₃
  set m := bump (bump n a) a with hm
  have hcount : Counted ((S.provider.cameras_list_.lookup sn).elim m (bump m)) S₂ := by
    intro b
    have hcopies : S₂.refs b = S.refs b + (if b = a then 1 else 0) + if b = a then 1 else 0 := by
      rw [hrefs, bump_apply, bump_apply]
    rw [hcopies, hc b, hS₂, mapRefs_insert]
    cases hl : S.provider.cameras_list_.lookup sn with
    | none =>
        rw [mapRefs_erase_of_none hl]
        simp only [Option.elim, hm, bump_apply]
        omega
    | some c =>
        rw [mapRefs_erase hl]
        simp only [Option.elim, hm, bump_apply]
        omega
  obtain ⟨hold, hc₁⟩ := runs_dropOld hcount h₄
  obtain ⟨hparam, hc'⟩ := runs_dropShared hc₁ h₂
  obtain ⟨hnil', heq⟩ := (runs_release_of_owned (Or.inl holding_bump)).mp hparam
  refine ⟨?_, hc'⟩
  rw [Provider.addCameraDevice, runs_get_bind, runs_modify_bind]
  rw [bases_append, hnil', List.append_nil, ← hb, bases_append, hnil, List.nil_append, heq]
  rw [hS₂] at hold
  refine runs_releaseOld_published (a := a) ?_ ?_ hold
  · exact published_iff.mpr ⟨sn, AList.lookup_insert _⟩
  · intro b hb
    simp [holding, hm, bump_apply, hb]

/-- `make_shared` returns the only reference to a device. -/
theorem runs_makeShared (hc : Counted n S) (h : Runs makeShared S tr S' a) :
    Runs makeDevice S.provider (bases tr) S'.provider a ∧ Counted (bump n a) S' := by
  obtain ⟨t₁, S₁, b, t₂, rfl, h₁, h₂⟩ := runs_bind.mp h
  rw [runs_modify_bind] at h₂
  obtain ⟨rfl, rfl, rfl⟩ := runs_pure.mp h₂
  obtain ⟨hmake, hrefs⟩ := runs_onProvider h₁
  have hmap : S₁.provider.cameras_list_ = S.provider.cameras_list_ := by
    rw [makeDevice, runs_get_bind, runs_modify_bind] at hmake
    rw [(runs_pure.mp hmake).2.1]
  rw [List.append_nil]
  exact ⟨hmake, counted_copyRef (counted_of_map hmap hrefs hc)⟩

/-- `start` reads the record under the lock of the device. -/
theorem runs_start {info : RecordPtr} {ret : Ret} (hc : Counted n S)
    (h : Runs (Locking.start a info) S tr S' ret) :
    ∃ i t₁ t₂ P₁, bases tr = t₁ ++ t₂ ∧ Runs (readRecord info) S.provider t₁ P₁ i ∧
      Runs (onDevice a (CameraDevice.start (some i))) P₁ t₂ S'.provider ret ∧ Counted n S' := by
  obtain ⟨t, ht, hb⟩ := runs_of_guarded h
  obtain ⟨t₁, S₁, i, t₂, rfl, h₁, h₂⟩ := runs_bind.mp ht
  obtain ⟨hread, hrefs₁⟩ := runs_onProvider h₁
  obtain ⟨hstart, hrefs₂⟩ := runs_onProvider h₂
  have hmap₁ : S₁.provider.cameras_list_ = S.provider.cameras_list_ := by
    rw [readRecord, runs_get_bind] at hread
    split at hread
    · rw [(runs_call.mp hread).2]
    · rw [(runs_pure.mp hread).2.1]
  refine ⟨i, _, _, _, hb ▸ bases_append t₁ t₂, hread, hstart, ?_⟩
  exact counted_of_map ((map_of_onDevice hstart).trans hmap₁) (hrefs₂.trans hrefs₁) hc

/-- `make_shared` and `start`, one after the other. -/
theorem runs_createDevice {info : RecordPtr} {ret : Ret} {S₁ : Shared}
    {t₁ t₂ : List (Event (locking sdk Mutex))} (hc : Counted n S) (h₁ : Runs makeShared S t₁ S₁ a)
    (h₂ : Runs (Locking.start a info) S₁ t₂ S' ret) :
    Runs (createDevice info) S.provider (bases (t₁ ++ t₂)) S'.provider (ret, a) ∧
      Counted (bump n a) S' := by
  obtain ⟨hmake, hc₁⟩ := runs_makeShared hc h₁
  obtain ⟨i, t₃, t₄, P₁, ht, hread, hstart, hc₂⟩ := runs_start hc₁ h₂
  refine ⟨?_, hc₂⟩
  rw [createDevice, bases_append, runs_bind]
  refine ⟨_, _, a, bases t₂, rfl, hmake, ?_⟩
  rw [runs_bind]
  refine ⟨t₃, P₁, i, t₄, ht, hread, ?_⟩
  rw [runs_bind]
  exact ⟨t₄, _, ret, [], by simp, hstart, runs_pure.mpr ⟨rfl, rfl, rfl⟩⟩

end Locking

/-! ## The sections -/

/-- The references of the requests, the running one among them. -/
def withOwn (n : DevId → ℕ) (pc : Pc) (a : DevId) : ℕ := n a + if pc.owns a then 1 else 0

theorem withOwn_of_not_owns {pc : Pc} (h : ∀ a, pc.owns a = false) : withOwn n pc = n := by
  funext a
  simp [withOwn, h]

theorem withOwn_of_owns {pc : Pc} (h : ∀ b, pc.owns b = decide (a = b)) :
    withOwn n pc = bump n a := by
  funext b
  simp [withOwn, bump_apply, h, eq_comm]

/-- A program and then a control point. -/
theorem section_of_bind {α : Type} {p : LockProc α} {q : ProviderProc α} {f : α → LockProc Pc}
    {g : α → ProviderProc Pc} {m : α → DevId → ℕ} {pc' : Pc} (next : α → Pc)
    (hp : ∀ t S₁ x, Runs p S t S₁ x → Runs q S.provider (bases t) S₁.provider x ∧ Counted (m x) S₁)
    (hf : ∀ x, f x = pure (next x)) (hg : ∀ x, g x = pure (next x))
    (hm : ∀ x, withOwn n (next x) = m x) (h : Runs (p >>= f) S tr S' pc') :
    Runs (q >>= g) S.provider (bases tr) S'.provider pc' ∧ Counted (withOwn n pc') S' := by
  obtain ⟨t₁, S₁, x, t₂, rfl, h₁, h₂⟩ := runs_bind.mp h
  rw [hf] at h₂
  obtain ⟨rfl, rfl, rfl⟩ := runs_pure.mp h₂
  obtain ⟨hq, hc⟩ := hp _ _ _ h₁
  refine ⟨?_, (hm x).symm ▸ hc⟩
  rw [List.append_nil, runs_bind]
  refine ⟨bases t₁, _, x, [], by simp, hq, ?_⟩
  rw [hg]
  exact runs_pure.mpr ⟨rfl, rfl, rfl⟩

open Locking in
/-- **A section that runs lock by lock, and alone, is the section of `advance`**, with the
devices that the others count as the held ones; and the references stay counted. -/
theorem section_of_segment {pc pc' : Pc} (hc : Counted (withOwn n pc) S)
    (h : Runs (segment pc) S tr S' pc') :
    Runs (advance (holding n) pc) S.provider (bases tr) S'.provider pc' ∧
      Counted (withOwn n pc') S' := by
  have hnone : ∀ {pc : Pc}, (∀ a, pc.owns a = false) → withOwn n pc = n := withOwn_of_not_owns
  cases pc with
  | arrive r =>
      rw [hnone fun _ => rfl] at hc
      cases r with
      | getImage sn shape =>
          refine section_of_bind (fun x => .lookup (toUpper sn) x.2) (fun t S₁ x h => ?_)
            (fun _ => rfl) (fun _ => rfl) (fun _ => hnone fun _ => rfl) h
          obtain ⟨hrun, hrefs⟩ := runs_onProvider h
          obtain ⟨hS₁, -⟩ := Buff.ensureSize_spec hrun
          exact ⟨hrun, counted_of_map (congrArg Provider.cameras_list_ hS₁) hrefs hc⟩
      | closeCamera sn =>
          refine section_of_bind (fun x => x.elim .closed .closing)
            (fun _ _ _ h => runs_findCameraDeviceBySn hc h) (fun x => by cases x <;> rfl)
            (fun x => by cases x <;> rfl) (fun x => ?_) h
          cases x with
          | none => exact hnone fun _ => rfl
          | some a => exact withOwn_of_owns fun _ => rfl
      | getCameraMetas =>
          refine section_of_bind
            (fun ret => if ret ≠ .ok then .listed ⟨ret, .ok, []⟩ [] else .convert 0 [] [])
            (fun _ _ _ h => runs_guarded_onProvider (fun _ _ h => ?_) hc h)
            (fun _ => rfl) (fun _ => rfl) (fun ret => ?_) h
          · obtain ⟨list, -, rfl⟩ := enumAllCamerasInfo_spec h
            rfl
          · split
            · exact hnone fun _ => rfl
            · exact hnone fun _ => rfl
  | lookup sn data =>
      rw [hnone fun _ => rfl] at hc
      refine section_of_bind (fun x => x.elim (.findInfo sn data) fun a => .take a data)
        (fun _ _ _ h => runs_findCameraDeviceBySn hc h) (fun x => by cases x <;> rfl)
        (fun x => by cases x <;> rfl) (fun x => ?_) h
      cases x with
      | none => exact hnone fun _ => rfl
      | some a => exact withOwn_of_owns fun _ => rfl
  | findInfo sn data =>
      rw [hnone fun _ => rfl] at hc
      refine section_of_bind (fun x => x.elim (.replied (imageReply (.err .failure) data))
          fun info => .create sn info data)
        (fun _ _ _ h => runs_guarded_onProvider (fun _ _ h => ?_) hc h)
        (fun x => by cases x <;> rfl) (fun x => by cases x <;> rfl) (fun x => ?_) h
      · rw [Provider.findCameraInfoBySn, runs_get_bind] at h
        rw [(runs_pure.mp h).2.1]
      · cases x with
        | none => exact hnone fun _ => rfl
        | some info => exact hnone fun _ => rfl
  | create sn info data =>
      rw [hnone fun _ => rfl] at hc
      obtain ⟨t₁, S₁, a, t₂, rfl, h₁, h₂⟩ := runs_bind.mp h
      obtain ⟨t₃, S₂, ret, t₄, rfl, h₃, h₄⟩ := runs_bind.mp h₂
      obtain ⟨rfl, rfl, rfl⟩ := runs_pure.mp h₄
      obtain ⟨hcreate, hc'⟩ := runs_createDevice hc h₁ h₃
      refine ⟨?_, ?_⟩
      · rw [advance, runs_bind]
        exact ⟨bases (t₁ ++ t₃), _, (ret, a), [], by simp, hcreate, runs_pure.mpr ⟨rfl, rfl, rfl⟩⟩
      · split
        · rwa [withOwn_of_owns (a := a) fun _ => rfl]
        · rwa [withOwn_of_owns (a := a) fun _ => rfl]
  | abandon a data =>
      rw [withOwn_of_owns fun _ => rfl] at hc
      exact section_of_bind (fun _ => .replied (imageReply (.err .failure) data))
        (fun _ _ _ h => runs_dropShared hc h) (fun _ => rfl) (fun _ => rfl)
        (fun _ => hnone fun _ => rfl) h
  | publish sn a data =>
      rw [withOwn_of_owns fun _ => rfl] at hc
      exact section_of_bind (fun _ => .take a data) (fun _ _ _ h => runs_addCameraDevice hc h)
        (fun _ => rfl) (fun _ => rfl) (fun _ => withOwn_of_owns fun _ => rfl) h
  | take a data =>
      rw [withOwn_of_owns fun _ => rfl] at hc
      exact section_of_bind (fun x => .leave a x.1 x.2)
        (fun _ _ _ h => runs_guarded_onProvider (fun _ _ h => map_of_onDevice h) hc h)
        (fun _ => rfl) (fun _ => rfl) (fun _ => withOwn_of_owns fun _ => rfl) h
  | leave a ret data =>
      rw [withOwn_of_owns fun _ => rfl] at hc
      exact section_of_bind (fun _ => .replied (imageReply ret data))
        (fun _ _ _ h => runs_dropShared hc h) (fun _ => rfl) (fun _ => rfl)
        (fun _ => hnone fun _ => rfl) h
  | closing a =>
      rw [withOwn_of_owns fun _ => rfl] at hc
      exact section_of_bind (fun _ => .closeLeave a)
        (fun _ _ _ h => runs_guarded_onProvider (fun _ _ h => map_of_onDevice h) hc h)
        (fun _ => rfl) (fun _ => rfl) (fun _ => withOwn_of_owns fun _ => rfl) h
  | closeLeave a =>
      rw [withOwn_of_owns fun _ => rfl] at hc
      exact section_of_bind (fun _ => .closed) (fun _ _ _ h => runs_dropShared hc h)
        (fun _ => rfl) (fun _ => rfl) (fun _ => hnone fun _ => rfl) h
  | convert i infos epochs =>
      rw [hnone fun _ => rfl] at hc
      rw [segment, runs_get_bind] at h
      obtain ⟨hnil, rfl, rfl⟩ := runs_pure.mp h
      refine ⟨?_, ?_⟩
      · rw [advance, runs_get_bind, hnil]
        exact runs_pure.mpr ⟨rfl, rfl, rfl⟩
      · rw [convertStep]
        split
        · rwa [hnone fun _ => rfl]
        · rwa [hnone fun _ => rfl]
  | replied reply | closed | listed reply epochs =>
      obtain ⟨rfl, rfl, rfl⟩ := runs_pure.mp h
      exact ⟨runs_pure.mpr ⟨rfl, rfl, rfl⟩, hc⟩

/-! ## One section after the other -/

/-- The sections of the requests lock by lock, each of them without a break. -/
def serialAct : Pool.Action Shared Thread SdkTrace := fun _ S t l S' t' =>
  t.pc.finished = false ∧ ∃ tr pc', Runs (segment t.pc) S tr S' pc' ∧ l = bases tr ∧
    t' = ⟨pc', t.log ++ l⟩

/-- How many requests hold a reference to the device. -/
def owners (ts : List Thread) (a : DevId) : ℕ := ts.countP fun t => t.pc.owns a

theorem holding_owners (ts : List Thread) : holding (owners ts) = heldBy ts := by
  funext a
  rw [Bool.eq_iff_iff, holding, heldBy, decide_eq_true_iff, owners, List.countP_pos_iff,
    List.any_eq_true]

/-- One request and the others. -/
theorem owners_eq {ts : List Thread} {i : ℕ} {t : Thread} (ht : ts[i]? = some t) :
    owners ts = withOwn (owners (ts.eraseIdx i)) t.pc := by
  funext a
  simp only [owners, withOwn]
  induction ts generalizing i with
  | nil => cases ht
  | cons u ts ih =>
      cases i with
      | zero =>
          obtain rfl : u = t := by simpa using ht
          simp [List.countP_cons]
      | succ i =>
          rw [List.eraseIdx_cons_succ, List.countP_cons, List.countP_cons, ih (by simpa using ht)]
          omega

/-- The system in one step a section, and the one lock by lock. -/
structure Abstracts (s : System) (p : Pool Shared Thread) : Prop where
  threads : s.threads = p.threads
  provider : s.shared.provider = p.shared.provider
  counted : Counted (owners p.threads) p.shared

theorem Abstracts.step {s : System} {p p' : Pool Shared Thread} {l : ℕ × SdkTrace}
    (h : Abstracts s p) (hs : Pool.Step serialAct p l p') :
    ∃ s', Step s l s' ∧ Abstracts s' p' := by
  obtain @⟨i, t, t', l, S', ht, hf, tr, pc', hrun, rfl, rfl⟩ := hs
  have hi : i < p.threads.length := (List.getElem?_eq_some_iff.mp ht).1
  have hc : Counted (withOwn (owners (p.threads.eraseIdx i)) t.pc) p.shared :=
    owners_eq ht ▸ h.counted
  obtain ⟨hadvance, hc'⟩ := section_of_segment hc hrun
  rw [holding_owners, ← h.provider, ← h.threads] at hadvance
  refine ⟨⟨s.shared.next t.pc S'.provider, s.threads.set i ⟨pc', t.log ++ bases tr⟩⟩, ?_, ?_⟩
  · exact .mk (h.threads ▸ ht) ⟨hf, S'.provider, pc', hadvance, rfl, rfl⟩
  · refine ⟨by rw [h.threads], rfl, ?_⟩
    rw [owners_eq (List.getElem?_set_self hi), List.eraseIdx_set_eq]
    exact hc'

/-- **Requests that take their locked sections without a break** go through the states of
`Step`. -/
theorem abstracts_of_reachable {list : InfoList} {reqs : List Request} {p : Pool Shared Thread}
    (hr : Transition.Reachable (Pool.Step serialAct)
      ⟨(arrived list reqs).shared, (start list reqs).threads⟩ p) :
    ∃ s, Transition.Reachable Step (start list reqs) s ∧ Abstracts s p := by
  induction hr with
  | refl =>
      refine ⟨_, .refl _, rfl, rfl, fun a => ?_⟩
      have howners : owners (start list reqs).threads a = 0 := by
        simp [owners, start, Pc.owns]
      rw [howners]
      rfl
  | tail _ h ih =>
      obtain ⟨l, hstep⟩ := h
      obtain ⟨s, hs, ha⟩ := ih
      obtain ⟨s', hs', ha'⟩ := ha.step hstep
      exact ⟨s', Relation.ReflTransGen.tail hs ⟨l, hs'⟩, ha'⟩

end CameraService
