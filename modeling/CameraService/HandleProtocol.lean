import CameraService.Lib.Transition
import CameraService.Sdk

/-!
# How a camera handle is used

The SDK expects a handle to be created, opened, used, closed and destroyed in this
order, and grabbing to be started and stopped in between.  `WellFormed` says of a
trace what that means for the calls in it; `Advance` says which call may come next.
A trace of the protocol is well formed.

The SDK may hand out the same handle again after it was destroyed, so that a clause
about the calls on a handle is about those up to the next time it is handed out.

## Main definitions

* `WellFormed` — the clauses, each about the events of a trace.
* `Phase`, `Advance` — the phases of a handle and the calls that lead on.
* `wellFormed_of_path` — the one implies the other.
-/

namespace CameraService

open Interaction Transition

/-! ## The clauses -/

/-- The handle that a call is made on. -/
def Call.onHandle : Call → Option (Option Handle)
  | .openDevice h | .closeDevice h | .destroyHandle h | .isDeviceConnected h
  | .getOptimalPacketSize h | .setIntValue h _ _ | .setEnumValue h _ _ | .getIntValue h _
  | .startGrabbing h | .stopGrabbing h | .getOneFrame h _ _ _ | .saveImage h _ => some h
  | .malloc _ | .staleRecord | .enumDevices _ | .createHandle _ => none

/-- The event hands out the handle. -/
def gives (h : Handle) : SdkEvent → Bool
  | ⟨.createHandle _, .created h'⟩ => h' = h
  | _ => false

/-- The event is a `MV_CC_DestroyHandle` on the handle. -/
def destroys (h : Handle) : SdkEvent → Bool
  | ⟨.destroyHandle h', _⟩ => h' = some h
  | _ => false

/-- The event is a `MV_CC_CloseDevice` on the handle. -/
def closes (h : Handle) : SdkEvent → Bool
  | ⟨.closeDevice h', _⟩ => h' = some h
  | _ => false

/-- The event is a `MV_CC_StopGrabbing` on the handle. -/
def stops (h : Handle) : SdkEvent → Bool
  | ⟨.stopGrabbing h', _⟩ => h' = some h
  | _ => false

/-- The event is a `MV_CC_OpenDevice` on the handle that failed. -/
def failsToOpen (h : Handle) : SdkEvent → Bool
  | ⟨.openDevice h', ret⟩ => h' = some h ∧ ret ≠ .ok
  | _ => false

/-- The events up to the next one that hands out the handle. -/
def lifetime (h : Handle) (tr : SdkTrace) : SdkTrace := tr.takeWhile fun e => !gives h e

/-- The handle was handed out in the trace, and not destroyed since. -/
def Alive (tr : SdkTrace) (h : Handle) : Prop :=
  ∃ before e after, tr = before ++ e :: after ∧ gives h e = true ∧ after.any (destroys h) = false

/-- A well-formed use of handles. -/
structure WellFormed (tr : SdkTrace) : Prop where
  /-- Every handle is destroyed exactly once. -/
  destroyed_once : ∀ before i h after, tr = before ++ ⟨.createHandle i, .created h⟩ :: after →
    (lifetime h after).countP (destroys h) = 1
  /-- Every opened handle is closed exactly once, before it is destroyed. -/
  closed_once : ∀ before h after, tr = before ++ ⟨.openDevice (some h), .ok⟩ :: after →
    (lifetime h after).countP (closes h) = 1 ∧
      ∃ a c b d rest, lifetime h after = a ++ c :: b ++ d :: rest ∧ closes h c = true ∧
        destroys h d = true
  /-- Calls are made on handles that are alive: none on `NULL`, none after the destroy. -/
  used_alive : ∀ before e after x, tr = before ++ e :: after → e.op.onHandle = some x →
    ∃ h, x = some h ∧ Alive before h
  /-- A handle that was closed, or that could not be opened, is only destroyed. -/
  closed_unused : ∀ before i h life e after,
    tr = before ++ ⟨.createHandle i, .created h⟩ :: (life ++ e :: after) →
      life.any (destroys h) = false →
      (life.any (closes h) = true ∨ life.any (failsToOpen h) = true) →
      e.op.onHandle = some (some h) → destroys h e = true
  /-- Frames are fetched between a successful start of grabbing and the next stop. -/
  fetched_grabbing : ∀ before x p n m answer after,
    tr = before ++ ⟨.getOneFrame x p n m, answer⟩ :: after →
      ∃ h a b, x = some h ∧ before = a ++ ⟨.startGrabbing (some h), .ok⟩ :: b ∧
        b.any (stops h) = false ∧ b.any (destroys h) = false
  /-- Grabbing is stopped, in one to six calls, before the handle is closed. -/
  stopped : ∀ before h after, tr = before ++ ⟨.startGrabbing (some h), .ok⟩ :: after →
    ∃ a c b, after = a ++ c :: b ∧ closes h c = true ∧ a.any (closes h) = false ∧
      1 ≤ a.countP (stops h) ∧ a.countP (stops h) ≤ 6
  /-- No handle is left. -/
  none_left : ∀ h, ¬ Alive tr h

/-! ## The protocol -/

/-- How far the handle in use has come; `stopping` counts the stops so far. -/
inductive Phase
  | idle
  | created (h : Handle)
  | failed (h : Handle)
  | opened (h : Handle)
  | grabbing (h : Handle)
  | stopping (h : Handle) (n : ℕ)
  | closed (h : Handle)

/-- A call that configures an open camera. -/
inductive Configures (h : Handle) : Call → Prop
  | getOptimalPacketSize : Configures h (.getOptimalPacketSize (some h))
  | setIntValue {key : String} {n : ℤ} : Configures h (.setIntValue (some h) key n)
  | setEnumValue {key : String} {v : EnumValue} : Configures h (.setEnumValue (some h) key v)
  | getIntValue {key : String} : Configures h (.getIntValue (some h) key)

/-- A call that a picture makes. -/
inductive Pictures (h : Handle) : Call → Prop
  | isDeviceConnected : Pictures h (.isDeviceConnected (some h))
  | getOneFrame {p : Bool} {n m : UInt32} : Pictures h (.getOneFrame (some h) p n m)
  | saveImage {param : SaveParam} : Pictures h (.saveImage (some h) param)

/-- The calls that the protocol allows, and where they lead. -/
inductive Advance : Phase → SdkEvent → Phase → Prop
  | malloc {φ : Phase} {n : UInt32} {a : Call.Ans (.malloc n)} : Advance φ ⟨.malloc n, a⟩ φ
  | refused {i : DeviceInfo} {e : Err} : Advance .idle ⟨.createHandle i, .refused e none⟩ .idle
  | create {i : DeviceInfo} {h : Handle} :
      Advance .idle ⟨.createHandle i, .created h⟩ (.created h)
  | opened {h : Handle} : Advance (.created h) ⟨.openDevice (some h), .ok⟩ (.opened h)
  | failed {h : Handle} {r : Ret} (hr : r ≠ .ok) :
      Advance (.created h) ⟨.openDevice (some h), r⟩ (.failed h)
  | configure {h : Handle} {e : SdkEvent} (he : Configures h e.op) :
      Advance (.opened h) e (.opened h)
  | start {h : Handle} : Advance (.opened h) ⟨.startGrabbing (some h), .ok⟩ (.grabbing h)
  | startFailed {h : Handle} {r : Ret} (hr : r ≠ .ok) :
      Advance (.opened h) ⟨.startGrabbing (some h), r⟩ (.opened h)
  | picture {h : Handle} {e : SdkEvent} (he : Pictures h e.op) :
      Advance (.grabbing h) e (.grabbing h)
  | stop {h : Handle} {r : Ret} :
      Advance (.grabbing h) ⟨.stopGrabbing (some h), r⟩ (.stopping h 1)
  | retry {h : Handle} {n : ℕ} {r : Ret} (hn : n < 6) :
      Advance (.stopping h n) ⟨.stopGrabbing (some h), r⟩ (.stopping h (n + 1))
  | close {h : Handle} {r : Ret} : Advance (.opened h) ⟨.closeDevice (some h), r⟩ (.closed h)
  | closeStopped {h : Handle} {n : ℕ} {r : Ret} :
      Advance (.stopping h n) ⟨.closeDevice (some h), r⟩ (.closed h)
  | destroyFailed {h : Handle} {r : Ret} :
      Advance (.failed h) ⟨.destroyHandle (some h), r⟩ .idle
  | destroy {h : Handle} {r : Ret} : Advance (.closed h) ⟨.destroyHandle (some h), r⟩ .idle

/-- The handle in use. -/
def Phase.handle : Phase → Option Handle
  | idle => none
  | created h | failed h | opened h | grabbing h | stopping h _ | closed h => some h

/-- Nothing but the destroy may follow. -/
inductive Phase.Dead (h : Handle) : Phase → Prop
  | failed : Dead h (.failed h)
  | closed : Dead h (.closed h)

/-- The device of the handle is open. -/
inductive Phase.Live (h : Handle) : Phase → Prop
  | opened : Live h (.opened h)
  | grabbing : Live h (.grabbing h)
  | stopping {n : ℕ} : Live h (.stopping h n)

variable {φ φ' ψ : Phase} {e : SdkEvent} {h : Handle} {tr : SdkTrace}

/-! ## One call -/

/-- An event that neither begins nor ends anything in the life of a handle. -/
structure Quiet (e : SdkEvent) : Prop where
  gives : ∀ h, gives h e = false
  destroys : ∀ h, destroys h e = false
  closes : ∀ h, closes h e = false
  stops : ∀ h, stops h e = false
  failsToOpen : ∀ h, failsToOpen h e = false

theorem Configures.quiet (he : Configures h e.op) : Quiet e := by
  obtain ⟨op, ans⟩ := e
  cases he <;> exact ⟨fun _ => rfl, fun _ => rfl, fun _ => rfl, fun _ => rfl, fun _ => rfl⟩

theorem Pictures.quiet (he : Pictures h e.op) : Quiet e := by
  obtain ⟨op, ans⟩ := e
  cases he <;> exact ⟨fun _ => rfl, fun _ => rfl, fun _ => rfl, fun _ => rfl, fun _ => rfl⟩

theorem Configures.onHandle (he : Configures h e.op) : e.op.onHandle = some (some h) := by
  obtain ⟨op, ans⟩ := e
  cases he <;> rfl

theorem Pictures.onHandle (he : Pictures h e.op) : e.op.onHandle = some (some h) := by
  obtain ⟨op, ans⟩ := e
  cases he <;> rfl

theorem onHandle_of_destroys (he : destroys h e = true) : e.op.onHandle = some (some h) := by
  obtain ⟨op, ans⟩ := e
  cases op with
  | destroyHandle x => simpa [destroys, Call.onHandle] using he
  | _ => simp [destroys] at he

theorem onHandle_of_closes (he : closes h e = true) : e.op.onHandle = some (some h) := by
  obtain ⟨op, ans⟩ := e
  cases op with
  | closeDevice x => simpa [closes, Call.onHandle] using he
  | _ => simp [closes] at he

/-- A call is made on the handle in use. -/
theorem Advance.onHandle (ha : Advance φ e φ') {x : Option Handle} (hx : e.op.onHandle = some x) :
    ∃ h, x = some h ∧ φ.handle = some h := by
  cases ha with
  | configure he => exact ⟨_, Option.some.inj (hx.symm.trans he.onHandle), rfl⟩
  | picture he => exact ⟨_, Option.some.inj (hx.symm.trans he.onHandle), rfl⟩
  | malloc => cases hx
  | refused => cases hx
  | create => cases hx
  | _ => exact ⟨_, (Option.some.inj hx).symm, rfl⟩

/-- A handle is handed out only when none is in use. -/
theorem Advance.gives (ha : Advance φ e φ') (he : gives h e = true) :
    φ = .idle ∧ φ' = .created h := by
  cases ha with
  | create =>
      simp only [CameraService.gives, decide_eq_true_eq] at he
      exact ⟨rfl, by rw [he]⟩
  | configure hc => simp [hc.quiet.gives] at he
  | picture hc => simp [hc.quiet.gives] at he
  | _ => simp [CameraService.gives] at he

/-- The handle in use was in use before, or has just been handed out. -/
theorem Advance.handle_before (ha : Advance φ e φ') (hh : φ'.handle = some h) :
    (φ.handle = some h ∧ destroys h e = false) ∨ CameraService.gives h e = true := by
  cases ha with
  | create => exact Or.inr (by simpa [CameraService.gives, Phase.handle] using hh)
  | refused => cases hh
  | destroyFailed => cases hh
  | destroy => cases hh
  | configure hc => exact Or.inl ⟨hh, hc.quiet.destroys h⟩
  | picture hc => exact Or.inl ⟨hh, hc.quiet.destroys h⟩
  | _ => exact Or.inl ⟨hh, rfl⟩

/-- The handle in use stays in use until it is destroyed, which only a dead one is. -/
theorem Advance.handle_after (ha : Advance φ e φ') (hh : φ.handle = some h) :
    (φ'.handle = some h ∧ destroys h e = false) ∨
      (destroys h e = true ∧ φ' = .idle ∧ φ.Dead h) := by
  cases ha with
  | refused => cases hh
  | create => cases hh
  | destroyFailed =>
      cases hh
      exact Or.inr ⟨by simp [destroys], rfl, .failed⟩
  | destroy =>
      cases hh
      exact Or.inr ⟨by simp [destroys], rfl, .closed⟩
  | configure hc => exact Or.inl ⟨hh, hc.quiet.destroys h⟩
  | picture hc => exact Or.inl ⟨hh, hc.quiet.destroys h⟩
  | _ => exact Or.inl ⟨hh, rfl⟩

/-- A dead handle stays dead until it is destroyed, and no call is made on it. -/
theorem Advance.dead (ha : Advance φ e φ') (hd : φ.Dead h) :
    (φ' = φ ∧ e.op.onHandle = none) ∨ destroys h e = true := by
  cases hd with
  | failed =>
      cases ha with
      | malloc => exact Or.inl ⟨rfl, rfl⟩
      | destroyFailed => exact Or.inr (by simp [destroys])
  | closed =>
      cases ha with
      | malloc => exact Or.inl ⟨rfl, rfl⟩
      | destroy => exact Or.inr (by simp [destroys])

/-- A close, or a failed open, of the handle in use leaves it dead. -/
theorem Advance.dies (ha : Advance φ e φ') (he : closes h e = true ∨ failsToOpen h e = true) :
    φ'.Dead h := by
  cases ha with
  | failed hr =>
      simp only [closes, failsToOpen, Option.some.injEq, decide_eq_true_eq] at he
      have hh := he.resolve_left (by simp)
      exact hh.1 ▸ .failed
  | close =>
      simp only [closes, failsToOpen, Option.some.injEq, decide_eq_true_eq] at he
      exact he.resolve_right (by simp) ▸ .closed
  | closeStopped =>
      simp only [closes, failsToOpen, Option.some.injEq, decide_eq_true_eq] at he
      exact he.resolve_right (by simp) ▸ .closed
  | configure hc => simp [hc.quiet.closes, hc.quiet.failsToOpen] at he
  | picture hc => simp [hc.quiet.closes, hc.quiet.failsToOpen] at he
  | _ => simp [closes, failsToOpen] at he

/-- An open device stays open until it is closed. -/
theorem Advance.live (ha : Advance φ e φ') (hl : φ.Live h) :
    (φ'.Live h ∧ closes h e = false) ∨ (φ'.Dead h ∧ closes h e = true) := by
  cases hl with
  | opened =>
      cases ha with
      | malloc => exact Or.inl ⟨.opened, rfl⟩
      | configure hc => exact Or.inl ⟨.opened, hc.quiet.closes h⟩
      | start => exact Or.inl ⟨.grabbing, rfl⟩
      | startFailed => exact Or.inl ⟨.opened, rfl⟩
      | close => exact Or.inr ⟨.closed, by simp [closes]⟩
  | grabbing =>
      cases ha with
      | malloc => exact Or.inl ⟨.grabbing, rfl⟩
      | picture hc => exact Or.inl ⟨.grabbing, hc.quiet.closes h⟩
      | stop => exact Or.inl ⟨.stopping, rfl⟩
  | stopping =>
      cases ha with
      | malloc => exact Or.inl ⟨.stopping, rfl⟩
      | retry => exact Or.inl ⟨.stopping, rfl⟩
      | closeStopped => exact Or.inr ⟨.closed, by simp [closes]⟩

/-- Grabbing was on before, with neither a stop nor a destroy, or has just been started. -/
theorem Advance.grabbing_before (ha : Advance φ e (.grabbing h)) :
    (φ = .grabbing h ∧ stops h e = false ∧ destroys h e = false) ∨
      e = ⟨.startGrabbing (some h), .ok⟩ := by
  cases ha with
  | malloc => exact Or.inl ⟨rfl, rfl, rfl⟩
  | start => exact Or.inr rfl
  | picture hc => exact Or.inl ⟨rfl, hc.quiet.stops h, hc.quiet.destroys h⟩

/-- A frame is fetched while grabbing is on. -/
theorem Advance.fetches {x : Option Handle} {p : Bool} {n m : UInt32} {answer : FrameAnswer}
    (ha : Advance φ ⟨.getOneFrame x p n m, answer⟩ φ') : ∃ h, x = some h ∧ φ = .grabbing h := by
  cases ha with
  | configure hc => cases hc
  | picture hc =>
      cases hc
      exact ⟨_, rfl, rfl⟩

/-! ## A whole run -/

/-- The handle in use is alive. -/
theorem alive_of_path (hp : Path Advance φ tr φ') (hh : φ'.handle = some h) :
    (φ.handle = some h ∧ tr.any (destroys h) = false) ∨ Alive tr h := by
  induction tr generalizing φ with
  | nil =>
      rw [Path.nil_iff] at hp
      exact Or.inl ⟨hp ▸ hh, rfl⟩
  | cons e tr ih =>
      obtain ⟨ψ, ha, hp⟩ := Path.cons_iff.mp hp
      rcases ih hp with ⟨hψ, htr⟩ | ⟨before, g, after, rfl, hg, hafter⟩
      · rcases ha.handle_before hψ with ⟨hφ, he⟩ | he
        · exact Or.inl ⟨hφ, by simp only [List.any_cons, he, htr, Bool.or_self]⟩
        · exact Or.inr ⟨[], e, tr, rfl, he, htr⟩
      · exact Or.inr ⟨e :: before, g, after, rfl, hg, hafter⟩

/-- Before grabbing is on it was started, and neither stopped nor its handle destroyed
since. -/
theorem started_of_path (hp : Path Advance φ tr (.grabbing h)) :
    (φ = .grabbing h ∧ tr.any (stops h) = false ∧ tr.any (destroys h) = false) ∨
      ∃ a b, tr = a ++ ⟨.startGrabbing (some h), .ok⟩ :: b ∧ b.any (stops h) = false ∧
        b.any (destroys h) = false := by
  induction tr generalizing φ with
  | nil =>
      rw [Path.nil_iff] at hp
      exact Or.inl ⟨hp.symm, rfl, rfl⟩
  | cons e tr ih =>
      obtain ⟨ψ, ha, hp⟩ := Path.cons_iff.mp hp
      rcases ih hp with ⟨rfl, hs, hd⟩ | ⟨a, b, rfl, hb⟩
      · rcases ha.grabbing_before with ⟨rfl, hse, hde⟩ | rfl
        · exact Or.inl ⟨rfl, by simp [hse, hs], by simp [hde, hd]⟩
        · exact Or.inr ⟨[], tr, rfl, hs, hd⟩
      · exact Or.inr ⟨e :: a, b, rfl, hb⟩

/-- A handle that is not destroyed stays in use. -/
theorem handle_of_path (hp : Path Advance φ tr φ') (hh : φ.handle = some h)
    (hd : tr.any (destroys h) = false) : φ'.handle = some h := by
  induction tr generalizing φ with
  | nil => rwa [Path.nil_iff.mp hp]
  | cons e tr ih =>
      obtain ⟨ψ, ha, hp⟩ := Path.cons_iff.mp hp
      rw [List.any_cons, Bool.or_eq_false_iff] at hd
      rcases ha.handle_after hh with ⟨hψ, -⟩ | ⟨he, -⟩
      · exact ih hp hψ hd.2
      · simp [hd.1] at he

/-- A dead handle that is not destroyed stays dead, and is never called. -/
theorem dead_of_path (hp : Path Advance φ tr φ') (hd : φ.Dead h)
    (htr : tr.any (destroys h) = false) : φ'.Dead h ∧ tr.countP (closes h) = 0 := by
  induction tr generalizing φ with
  | nil =>
      rw [Path.nil_iff] at hp
      exact ⟨hp ▸ hd, rfl⟩
  | cons e tr ih =>
      obtain ⟨ψ, ha, hp⟩ := Path.cons_iff.mp hp
      rw [List.any_cons, Bool.or_eq_false_iff] at htr
      rcases ha.dead hd with ⟨hψ, he⟩ | he
      · have hc : closes h e ≠ true := by
          intro hc
          simp [onHandle_of_closes hc] at he
        rw [List.countP_cons_of_neg hc]
        exact ih hp (hψ ▸ hd) htr.2
      · simp [htr.1] at he

/-- After a close or a failed open the handle is dead until it is destroyed. -/
theorem dies_of_path (hp : Path Advance φ tr φ') (htr : tr.any (destroys h) = false)
    (hc : tr.any (closes h) = true ∨ tr.any (failsToOpen h) = true) : φ'.Dead h := by
  induction tr generalizing φ with
  | nil => simp at hc
  | cons e tr ih =>
      obtain ⟨ψ, ha, hp⟩ := Path.cons_iff.mp hp
      rw [List.any_cons, Bool.or_eq_false_iff] at htr
      by_cases he : closes h e = true ∨ failsToOpen h e = true
      · exact (dead_of_path hp (ha.dies he) htr.2).1
      · refine ih hp htr.2 ?_
        simp only [List.any_cons, Bool.or_eq_true] at hc
        tauto

/-- Between an open device and a dead handle lies one close. -/
theorem closed_of_path (hp : Path Advance φ tr φ') (hl : φ.Live h) (hd : φ'.Dead h)
    (htr : tr.any (destroys h) = false) : tr.countP (closes h) = 1 := by
  induction tr generalizing φ with
  | nil =>
      rw [Path.nil_iff] at hp
      subst hp
      cases hl <;> cases hd
  | cons e tr ih =>
      obtain ⟨ψ, ha, hp⟩ := Path.cons_iff.mp hp
      rw [List.any_cons, Bool.or_eq_false_iff] at htr
      rcases ha.live hl with ⟨hψ, he⟩ | ⟨hψ, he⟩
      · rw [List.countP_cons_of_neg (by simp [he])]
        exact ih hp hψ htr.2
      · rw [List.countP_cons_of_pos he, (dead_of_path hp hψ htr.2).2]

/-- The handle in use is dead when it is destroyed. -/
theorem destroyed_of_path (hp : Path Advance φ tr .idle) (hh : φ.handle = some h) :
    ∃ life d rest ψ, tr = life ++ d :: rest ∧ Path Advance φ life ψ ∧ ψ.Dead h ∧
      life.any (destroys h) = false ∧ destroys h d = true ∧ Path Advance .idle rest .idle ∧
      ∀ e ∈ life ++ [d], gives h e = false := by
  induction tr generalizing φ with
  | nil =>
      rw [Path.nil_iff] at hp
      subst hp
      cases hh
  | cons e tr ih =>
      obtain ⟨φ₁, ha, hp⟩ := Path.cons_iff.mp hp
      have hg : gives h e = false := by
        rw [← Bool.not_eq_true]
        intro hg
        rw [(ha.gives hg).1] at hh
        cases hh
      rcases ha.handle_after hh with ⟨h₁, he⟩ | ⟨he, rfl, hd⟩
      · obtain ⟨life, d, rest, ψ, rfl, hlife, hd, hn, hdd, hrest, hgs⟩ := ih hp h₁
        refine ⟨e :: life, d, rest, ψ, rfl, .cons ha hlife, hd, by simp [he, hn], hdd, hrest, ?_⟩
        intro g hge
        rcases List.mem_cons.mp hge with rfl | hge
        · exact hg
        · exact hgs g hge
      · exact ⟨[], e, tr, φ, rfl, .nil φ, hd, rfl, he, hp, by simpa using hg⟩

/-- No call is made on a handle that is not in use, up to the next time it is handed
out. -/
theorem silent_of_path (hp : Path Advance φ tr φ') (hh : φ.handle ≠ some h) :
    ∀ e ∈ lifetime h tr, e.op.onHandle ≠ some (some h) := by
  induction tr generalizing φ with
  | nil => simp [lifetime]
  | cons e tr ih =>
      obtain ⟨ψ, ha, hp⟩ := Path.cons_iff.mp hp
      by_cases hg : gives h e = true
      · simp [lifetime, hg]
      · have hψ : ψ.handle ≠ some h := by
          intro hψ
          rcases ha.handle_before hψ with ⟨hφ, -⟩ | he
          · exact hh hφ
          · exact hg he
        have he : e.op.onHandle ≠ some (some h) := by
          intro he
          obtain ⟨h', hx, hφ⟩ := ha.onHandle he
          exact hh (Option.some.inj hx ▸ hφ)
        rw [lifetime, List.takeWhile_cons_of_pos (by simpa using hg)]
        intro g hge
        rcases List.mem_cons.mp hge with rfl | hge
        · exact he
        · exact ih hp hψ g hge

/-- What remains of the life of a handle in use: the calls up to its destroy, where it
is dead, and none after. -/
theorem lifetime_of_path (hp : Path Advance φ tr .idle) (hh : φ.handle = some h) :
    ∃ life d rest ψ, lifetime h tr = life ++ d :: rest ∧ Path Advance φ life ψ ∧ ψ.Dead h ∧
      life.any (destroys h) = false ∧ destroys h d = true ∧
      ∀ e ∈ rest, e.op.onHandle ≠ some (some h) := by
  obtain ⟨life, d, rest, ψ, rfl, hlife, hd, hn, hdd, hrest, hg⟩ := destroyed_of_path hp hh
  refine ⟨life, d, lifetime h rest, ψ, ?_, hlife, hd, hn, hdd,
    silent_of_path hrest (by simp [Phase.handle])⟩
  have hall : ∀ e ∈ life ++ [d], (!gives h e) = true := by
    intro e he
    rw [hg e he]
    rfl
  calc lifetime h (life ++ d :: rest) = lifetime h ((life ++ [d]) ++ rest) := by simp
    _ = (life ++ [d]) ++ lifetime h rest := List.takeWhile_append_of_pos hall
    _ = life ++ d :: lifetime h rest := by simp

/-- How often grabbing was stopped since it was started. -/
inductive Phase.Stopped (h : Handle) : ℕ → Phase → Prop
  | grabbing : Stopped h 0 (.grabbing h)
  | stopping {n : ℕ} (hn : 0 < n ∧ n ≤ 6) : Stopped h n (.stopping h n)

/-- From the start of grabbing to the close there are stops, and at most six. -/
theorem Advance.stopped {n : ℕ} (ha : Advance φ e φ') (hs : φ.Stopped h n) :
    (φ'.Stopped h n ∧ stops h e = false ∧ closes h e = false) ∨
      (φ'.Stopped h (n + 1) ∧ stops h e = true ∧ closes h e = false) ∨
      (0 < n ∧ n ≤ 6 ∧ closes h e = true) := by
  cases hs with
  | grabbing =>
      cases ha with
      | malloc => exact Or.inl ⟨.grabbing, rfl, rfl⟩
      | picture hc => exact Or.inl ⟨.grabbing, hc.quiet.stops h, hc.quiet.closes h⟩
      | stop => exact Or.inr (Or.inl ⟨.stopping (by decide), by simp [stops], rfl⟩)
  | stopping hn =>
      cases ha with
      | malloc => exact Or.inl ⟨.stopping hn, rfl, rfl⟩
      | retry hlt => exact Or.inr (Or.inl ⟨.stopping ⟨by omega, hlt⟩, by simp [stops], rfl⟩)
      | closeStopped => exact Or.inr (Or.inr ⟨hn.1, hn.2, by simp [closes]⟩)

/-- Stops, at most six with those before, come between the start of grabbing and the
close. -/
theorem stopped_of_path {n : ℕ} (hp : Path Advance φ tr .idle) (hs : φ.Stopped h n) :
    ∃ a c b, tr = a ++ c :: b ∧ closes h c = true ∧ a.any (closes h) = false ∧
      0 < n + a.countP (stops h) ∧ n + a.countP (stops h) ≤ 6 := by
  induction tr generalizing φ n with
  | nil =>
      rw [Path.nil_iff] at hp
      subst hp
      cases hs
  | cons e tr ih =>
      obtain ⟨ψ, ha, hp⟩ := Path.cons_iff.mp hp
      rcases ha.stopped hs with ⟨hψ, he, hce⟩ | ⟨hψ, he, hce⟩ | ⟨hpos, hle, hce⟩
      · obtain ⟨a, c, b, rfl, hc, ha, hpos, hle⟩ := ih hp hψ
        have hcount : (e :: a).countP (stops h) = a.countP (stops h) :=
          List.countP_cons_of_neg (by simp [he])
        exact ⟨e :: a, c, b, rfl, hc, by simp [hce, ha], by omega, by omega⟩
      · obtain ⟨a, c, b, rfl, hc, ha, hpos, hle⟩ := ih hp hψ
        have hcount : (e :: a).countP (stops h) = a.countP (stops h) + 1 :=
          List.countP_cons_of_pos he
        exact ⟨e :: a, c, b, rfl, hc, by simp [hce, ha], by omega, by omega⟩
      · exact ⟨[], e, tr, rfl, hce, rfl, by simpa using hpos, by simpa using hle⟩

/-- A trace of the protocol in which the handle is handed out goes on from there. -/
theorem created_of_path {before after : SdkTrace} {i : DeviceInfo}
    (hp : Path Advance φ (before ++ ⟨.createHandle i, .created h⟩ :: after) φ') :
    Path Advance (.created h) after φ' := by
  obtain ⟨ψ, ψ', -, ha, hp⟩ := hp.split
  have he : gives h ⟨.createHandle i, .created h⟩ = true := by simp [gives]
  rwa [(ha.gives he).2] at hp

/-- **A trace of the protocol is well formed.** -/
theorem wellFormed_of_path (hp : Path Advance .idle tr .idle) : WellFormed tr where
  destroyed_once := by
    intro before i h after htr
    rw [htr] at hp
    have hafter := created_of_path hp
    obtain ⟨life, d, rest, ψ, hlife, -, -, hn, hd, hrest⟩ := lifetime_of_path hafter rfl
    have hrest' : rest.countP (destroys h) = 0 := by
      rw [List.countP_eq_zero]
      intro e he hde
      exact hrest e he (onHandle_of_destroys hde)
    have hlife' : life.countP (destroys h) = 0 := by
      rw [List.countP_eq_zero]
      simpa using hn
    rw [hlife, List.countP_append, List.countP_cons_of_pos hd, hrest', hlife']
  closed_once := by
    intro before h after htr
    rw [htr] at hp
    obtain ⟨φ, φ', -, ha, hafter⟩ := hp.split
    have hφ : φ' = .opened h := by
      cases ha with
      | opened => rfl
      | failed hr => exact absurd rfl hr
      | configure hc => cases hc
      | picture hc => cases hc
    subst hφ
    obtain ⟨life, d, rest, ψ, hlife, hpath, hdead, hn, hd, hrest⟩ := lifetime_of_path hafter rfl
    have hcount := closed_of_path hpath .opened hdead hn
    have hrest' : rest.countP (closes h) = 0 := by
      rw [List.countP_eq_zero]
      intro e he hce
      exact hrest e he (onHandle_of_closes hce)
    have hd' : closes h d ≠ true := by
      intro hcd
      obtain ⟨op, ans⟩ := d
      cases op with
      | closeDevice x => simp [destroys] at hd
      | _ => simp [closes] at hcd
    obtain ⟨c, hc, hce⟩ := List.countP_pos_iff.mp (hcount ▸ Nat.one_pos)
    obtain ⟨a, b, rfl⟩ := List.append_of_mem hc
    constructor
    · rw [hlife, List.countP_append, List.countP_cons_of_neg hd', hcount, hrest']
    · exact ⟨a, c, b, d, rest, by simp [hlife], hce, hd⟩
  used_alive := by
    intro before e after x htr hx
    rw [htr] at hp
    obtain ⟨φ, φ', hbefore, ha, -⟩ := hp.split
    obtain ⟨h, rfl, hφ⟩ := ha.onHandle hx
    refine ⟨h, rfl, ?_⟩
    rcases alive_of_path hbefore hφ with ⟨hidle, -⟩ | hal
    · cases hidle
    · exact hal
  closed_unused := by
    intro before i h life e after htr hn hc he
    rw [htr] at hp
    obtain ⟨φ, φ', hlife, ha, -⟩ := (created_of_path hp).split
    rcases ha.dead (dies_of_path hlife hn hc) with ⟨-, he'⟩ | he'
    · simp [he] at he'
    · exact he'
  fetched_grabbing := by
    intro before x p n m answer after htr
    rw [htr] at hp
    obtain ⟨φ, φ', hbefore, ha, -⟩ := hp.split
    obtain ⟨h, rfl, rfl⟩ := ha.fetches
    rcases started_of_path hbefore with ⟨hidle, -⟩ | ⟨a, b, hab, hb⟩
    · cases hidle
    · exact ⟨h, a, b, rfl, hab, hb⟩
  stopped := by
    intro before h after htr
    rw [htr] at hp
    obtain ⟨φ, φ', -, ha, hafter⟩ := hp.split
    have hφ : φ' = .grabbing h := by
      cases ha with
      | start => rfl
      | startFailed hr => exact absurd rfl hr
      | configure hc => cases hc
      | picture hc => cases hc
    subst hφ
    obtain ⟨a, c, b, hab, hc, hac, hpos, hle⟩ := stopped_of_path hafter .grabbing
    exact ⟨a, c, b, hab, hc, hac, by omega, by omega⟩
  none_left := by
    intro h hal
    obtain ⟨before, e, after, rfl, he, hn⟩ := hal
    obtain ⟨φ, φ', -, ha, hafter⟩ := hp.split
    rw [(ha.gives he).2] at hafter
    cases handle_of_path hafter rfl hn

end CameraService
