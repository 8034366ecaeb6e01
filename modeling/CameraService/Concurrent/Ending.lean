import CameraService.Concurrent.Program
import CameraService.Concurrent.Termination

/-!
# The end of the program

Once the program was signalled it comes to an end by itself, unless new requests keep
arriving before `Shutdown`.  The thread of `OnlyForShutdownGrpcServer` leaves its loop and
shuts the server down, the requests are answered, and the main thread returns from `Wait`.
When that thread could not be started nobody shuts the server down, and the main thread
waits for ever.  `Shutdown` is called without a deadline, so that it waits as long as a
client keeps a call to the health or reflection service open.

## Main definitions

* `Grpc.Prompt` — when the server returns.
* `Program.left` — how much is left.
* `signalled_ends` — the end of a program that was signalled.
-/

namespace CameraService

open Interaction Provider Transition

variable {P P' : Provider} {tr : SdkTrace} {f : Fault} {sn : Key} {held : DevId → Bool}

/-! ## The destructor -/

theorem release_coherent {a : DevId} (hc : ∀ b, (P.heap b).Coherent)
    (h : Runs (release held a) P tr P' ()) : ∀ b, (P'.heap b).Coherent := by
  rcases release_cases h with ⟨-, rfl⟩ | ⟨d, hd, rfl⟩
  · exact hc
  · intro b
    by_cases hb : b = a
    · subst hb
      simpa using (DeviceCall.stopAndClose.run_coherent (hc b) hd).1
    · simpa [hb] using hc b

theorem dropEntry_coherent (hc : ∀ a, (P.heap a).Coherent) (h : Runs (dropEntry sn) P tr P' ()) :
    ∀ a, (P'.heap a).Coherent := by
  simp only [dropEntry, runs_get_bind] at h
  cases hl : P.cameras_list_.lookup sn with
  | none =>
      simp only [hl, runs_pure] at h
      rwa [h.2.1]
  | some a =>
      simp only [hl, runs_modify_bind] at h
      refine release_coherent ?_ h
      exact hc

theorem dropEntry_faults (hc : ∀ a, (P.heap a).Coherent) : ¬ Faults (dropEntry sn) P tr f := by
  simp only [dropEntry, faults_get_bind]
  cases P.cameras_list_.lookup sn with
  | none => exact faults_pure
  | some a =>
      rw [faults_modify_bind]
      refine release_faults ?_
      exact hc a

/-- **The destructor** fails no assertion. -/
theorem delete_faults {order : List Key} (hc : ∀ a, (P.heap a).Coherent) :
    ¬ Faults (delete order) P tr f := by
  induction order generalizing P tr with
  | nil => exact faults_pure
  | cons sn order ih =>
      rw [delete, faults_bind]
      rintro (h | ⟨_, _, _, _, -, hrun, h⟩)
      · exact dropEntry_faults hc h
      · exact ih (dropEntry_coherent hc hrun) h

theorem exists_delete (order : List Key) (hc : ∀ a, (P.heap a).Coherent) :
    ∃ tr P', Runs (delete order) P tr P' () := by
  obtain ⟨tr, -, ⟨P', u, h⟩ | ⟨f, h⟩⟩ := runs_or_faults obliging (delete order) P
  · exact ⟨tr, P', h⟩
  · exact absurd h (delete_faults hc)

theorem exists_dumpCameras (P : Provider) : ∃ tr P', Runs dumpCameras P tr P' () :=
  ⟨_, _, runs_of_exec (o := obliging) rfl⟩

/-! ## What is left -/

/-- After `Shutdown` the server returns exactly when all its calls are finished. -/
def Grpc.Prompt (G : Grpc) : Prop :=
  ∀ (ts : List Thread) n, G.returns true ts n ↔ (∀ t ∈ ts, t.pc.finished = true) ∧ n = 0

/-- How far the main thread has to go; starting the other thread counts for its steps. -/
def MainPc.rank : MainPc → ℕ
  | dump => 12
  | build => 11
  | spawn => 10
  | wait => 3
  | join => 2
  | unwind => 1
  | exited | aborted => 0

/-- How far the other thread has to go, once the program was signalled. -/
def Watcher.rank : Watcher → ℕ
  | sleeping => 4
  | polling => 3
  | woken => 2
  | draining => 1
  | absent | done => 0

namespace Program

variable {G : Grpc} {p p' q : Program} {act : Act} {acts : List Act}

/-- What is left of a program that was signalled. -/
def left (p : Program) : ℕ ×ₗ (ℕ ×ₗ ℕ) :=
  toLex (p.main.rank + p.watcher.rank, work p.system)

/-- A step of the threads leaves less, once the program was signalled. -/
theorem left_lt (hI : Inv p) (hs : p.status_ = true) (h : Step G p (.calls tr) p') :
    p'.status_ = true ∧ left p' < left p := by
  rw [left, left, Prod.Lex.toLex_lt_toLex]
  cases h with
  | dump hm h => exact ⟨hs, Or.inl (by simp [hm, MainPc.rank])⟩
  | build hm => exact ⟨hs, Or.inl (by simp [hm, MainPc.rank])⟩
  | buildFailed hm => exact ⟨hs, Or.inl (by simp [hm, MainPc.rank])⟩
  | spawn hm =>
      have hw := hI.absent (Or.inr (Or.inr hm))
      exact ⟨hs, Or.inl (by simp [hm, hw, MainPc.rank, Watcher.rank])⟩
  | spawnFailed hm => exact ⟨hs, Or.inl (by simp [hm, MainPc.rank])⟩
  | waitNull hm hs' => exact ⟨hs, Or.inl (by simp [hm, MainPc.rank])⟩
  | wait hm hs' hr => exact ⟨hs, Or.inl (by simp [hm, MainPc.rank])⟩
  | join hm hw => exact ⟨hs, Or.inl (by simp [hm, MainPc.rank])⟩
  | joinAbsent hm hw => exact ⟨hs, Or.inl (by simp [hm, MainPc.rank])⟩
  | unwind hm ho h => exact ⟨hs, Or.inl (by simp [hm, MainPc.rank])⟩
  | poll hp hw => exact ⟨hs, Or.inl (by simp [hs, hw, Watcher.rank])⟩
  | wake hp hw => exact ⟨hs, Or.inl (by simp [hw, Watcher.rank])⟩
  | shutdown hp hw hs' => exact ⟨hs, Or.inl (by simp [hw, Watcher.rank])⟩
  | shutdownNull hp hw hs' => exact ⟨hs, Or.inl (by simp [hw, Watcher.rank])⟩
  | drained hp hw hs' hr => exact ⟨hs, Or.inl (by simp [hw, Watcher.rank])⟩
  | request hp h => exact ⟨hs, Or.inr ⟨rfl, work_lt h⟩⟩
  | abort hp ht hf h =>
      have hrank : 0 < p.main.rank := by
        cases hm : p.main with
        | exited => simp [hm, MainPc.running] at hp
        | aborted => simp [hm, MainPc.running] at hp
        | _ => simp [MainPc.rank]
      refine ⟨hs, Or.inl ?_⟩
      simpa [MainPc.rank] using hrank

/-- The devices of a run. -/
theorem Step.coherent (hc : ∀ a, (p.system.shared.provider.heap a).Coherent)
    (h : Step G p act p') : p'.main.running = true →
      ∀ a, (p'.system.shared.provider.heap a).Coherent := by
  cases h with
  | dump hm h =>
      obtain ⟨r, list, -, rfl⟩ := dumpCameras_spec h
      exact fun _ => hc
  | unwind hm ho h => simp [MainPc.running]
  | request hp h => exact fun _ => coherent_step hc h
  | _ => exact fun _ => hc

theorem Step.running (h : Step G p act p') : p.main.running = true := by
  cases h with
  | signal hp => exact hp
  | openStream hp hs ha => exact hp
  | closeStream hp hn => exact hp
  | poll hp hw => exact hp
  | wake hp hw => exact hp
  | shutdown hp hw hs => exact hp
  | shutdownNull hp hw hs => exact hp
  | drained hp hw hs hr => exact hp
  | arrive hp hs ha => exact hp
  | request hp h => exact hp
  | abort hp ht hf h => exact hp
  | _ => simp_all [MainPc.running]

/-- Once `Wait` or `Shutdown` has returned no call is open. -/
def Quiet (p : Program) : Prop :=
  Past p.main ∨ p.watcher = .done ∧ p.server = some true → p.streams = 0

theorem Quiet.step (hG : G.Promises) (hprompt : G.Prompt) (hI : Inv p) (hQ : Quiet p)
    (h : Step G p act p') : Quiet p' := by
  cases h with
  | signal hp => exact hQ
  | dump hm h => simp [Quiet, Past, hI.absent (Or.inl hm)]
  | build hm => simp [Quiet, Past]
  | buildFailed hm => simp [Quiet, Past]
  | spawn hm => simp [Quiet, Past]
  | spawnFailed hm => simp [Quiet, Past, hI.absent (Or.inr (Or.inr hm))]
  | waitNull hm hs => simp [Quiet, Past, hs]
  | @wait c hm hs hr =>
      obtain rfl := hG.shut c _ _ hr
      exact fun _ => ((hprompt _ _).mp hr).2
  | join hm hw => exact fun _ => hQ (Or.inl (by rw [hm]; trivial))
  | joinAbsent hm hw => simp [Quiet, Past, hw]
  | unwind hm ho h => exact fun _ => hQ (Or.inl (by rw [hm]; trivial))
  | poll hp hw =>
      obtain ⟨hm, -⟩ := hI.waits hp (by rw [hw]; rfl)
      cases hs : p.status_ with
      | false => simp [Quiet, Past, hm]
      | true => simp [Quiet, Past, hm]
  | wake hp hw =>
      obtain ⟨hm, -⟩ := hI.waits hp (by rw [hw]; rfl)
      simp [Quiet, Past, hm]
  | shutdown hp hw hs =>
      obtain ⟨hm, -⟩ := hI.waits hp (by rw [hw]; rfl)
      simp [Quiet, Past, hm]
  | shutdownNull hp hw hs =>
      obtain ⟨hm, -⟩ := hI.waits hp (by rw [hw]; rfl)
      simp [Quiet, Past, hm, hs]
  | @drained c hp hw hs hr =>
      obtain rfl := hG.shut c _ _ hr
      exact fun _ => ((hprompt _ _).mp hr).2
  | arrive hp hs ha => exact hQ
  | @openStream c hp hs ha =>
      -- the server accepts no call any more
      have hopen : p.server ≠ some true := by
        intro h
        cases hs.symm.trans h
        exact hG.refuses ha
      rintro (h | ⟨-, h⟩)
      · exact absurd (hI.late h).1 hopen
      · exact absurd h hopen
  | closeStream hp hn =>
      intro h
      have h0 := hQ h
      omega
  | request hp h => exact hQ
  | abort hp ht hf h =>
      rintro (h | h)
      · exact h.elim
      · exact hQ (Or.inr h)

/-- **Every run** keeps the invariants, and the devices coherent. -/
theorem inv_of_path (hG : G.Promises) (hprompt : G.Prompt) (hI : Inv p) (hQ : Quiet p)
    (hc : p.main.running = true → ∀ a, (p.system.shared.provider.heap a).Coherent)
    (h : Path (Step G) p acts q) : Inv q ∧ Quiet q ∧
      (q.main.running = true → ∀ a, (q.system.shared.provider.heap a).Coherent) := by
  induction h with
  | nil p => exact ⟨hI, hQ, hc⟩
  | cons hstep hrest ih =>
      exact ih (hI.step hG hstep) (hQ.step hG hprompt hI hstep) (hstep.coherent (hc hstep.running))

/-- **A program that cannot go on** has ended, or waits for a thread that never started, or for
a client. -/
theorem stopped (hprompt : G.Prompt) (hI : Inv p) (hQ : Quiet p)
    (hc : p.main.running = true → ∀ a, (p.system.shared.provider.heap a).Coherent)
    (hstuck : ∀ tr q, ¬ Step G p (.calls tr) q) :
    p.main.running = false ∨ p.main = .wait ∧ p.watcher = .absent ∨
      p.main = .wait ∧ p.watcher = .draining ∧ 0 < p.streams := by
  by_cases hp : p.main.running = true
  swap
  · exact Or.inl (by simpa using hp)
  refine Or.inr ?_
  -- an unfinished request takes its next section, or aborts the process
  have hfinished : ∀ t ∈ p.system.threads, t.pc.finished = true := by
    intro t ht
    by_contra hf
    rw [Bool.not_eq_true] at hf
    obtain ⟨i, ht⟩ := List.mem_iff_getElem?.mp ht
    obtain ⟨tr, -, ⟨s', h⟩ | ⟨f, u, hu, hf, h⟩⟩ := step_or_aborts obliging ht hf
    · exact hstuck _ _ (.request hp h)
    · exact hstuck _ _ (.abort hp hu hf h)
  have hreturns : p.streams = 0 → G.returns true p.system.threads p.streams :=
    fun h0 => (hprompt _ _).mpr ⟨hfinished, h0⟩
  have hwatcher : p.watcher = .absent ∨ p.watcher = .done ∨
      p.watcher = .draining ∧ 0 < p.streams := by
    cases hw : p.watcher with
    | absent => exact Or.inl rfl
    | done => exact Or.inr (Or.inl rfl)
    | polling => exact absurd (.poll hp hw) (hstuck _ _)
    | sleeping => exact absurd (.wake hp hw) (hstuck _ _)
    | woken =>
        cases hs : p.server with
        | none => exact absurd (.shutdownNull hp hw hs) (hstuck _ _)
        | some c => exact absurd (.shutdown hp hw hs) (hstuck _ _)
    | draining =>
        refine Or.inr (Or.inr ⟨rfl, Nat.pos_of_ne_zero fun h0 => ?_⟩)
        exact hstuck _ _ (.drained hp hw (hI.draining hw) (hreturns h0))
  cases hm : p.main with
  | dump =>
      obtain ⟨tr, P', h⟩ := exists_dumpCameras p.system.shared.provider
      exact absurd (.dump hm h) (hstuck _ _)
  | build => exact absurd (.build hm) (hstuck _ _)
  | spawn => exact absurd (.spawn hm) (hstuck _ _)
  | wait =>
      rcases hwatcher with hw | hw | hw
      · exact Or.inl ⟨rfl, hw⟩
      · cases hs : p.server with
        | none => exact absurd (.waitNull hm hs) (hstuck _ _)
        | some c =>
            cases c with
            | false => exact absurd hs (hI.ended hw)
            | true => exact absurd (.wait hm hs (hreturns (hQ (Or.inr ⟨hw, hs⟩)))) (hstuck _ _)
      · exact Or.inr ⟨rfl, hw⟩
  | join =>
      have h0 : p.streams = 0 := hQ (Or.inl (by rw [hm]; trivial))
      rcases hwatcher with hw | hw | ⟨-, hpos⟩
      · exact absurd (.joinAbsent hm hw) (hstuck _ _)
      · exact absurd (.join hm hw) (hstuck _ _)
      · exact absurd h0 hpos.ne'
  | unwind =>
      obtain ⟨tr, P', h⟩ := exists_delete p.system.shared.provider.cameras_list_.keys (hc hp)
      exact absurd (.unwind hm (.refl _) h) (hstuck _ _)
  | exited => simp [hm, MainPc.running] at hp
  | aborted => simp [hm, MainPc.running] at hp

/-- **A program that was signalled comes to an end.**  Whatever the order of its steps and the
answers of the SDK, its threads take finitely many steps, and where none can take another the
process has exited or aborted, or the thread that shuts the server down was never started, or
the server was shut down and waits for a client that keeps a call to the health or reflection
service open. -/
theorem signalled_ends (hG : G.Promises) (hprompt : G.Prompt)
    (h : Path (Step G) initial acts p) (hs : p.status_ = true) :
    (∀ run : ℕ → Program, run 0 = p → ¬ ∀ n, ∃ tr, Step G (run n) (.calls tr) (run (n + 1))) ∧
      ∀ (trs : List SdkTrace) q, Path (Step G) p (trs.map .calls) q →
        (∀ tr q', ¬ Step G q (.calls tr) q') →
        q.main.running = false ∨ q.main = .wait ∧ q.watcher = .absent ∨
          q.main = .wait ∧ q.watcher = .draining ∧ 0 < q.streams := by
  have hnew : ∀ a, (initial.system.shared.provider.heap a).Coherent :=
    fun _ => Or.inl CameraDevice.closed_new
  have hquiet : Quiet initial := fun _ => rfl
  obtain ⟨hI, hQ, hc⟩ := inv_of_path hG hprompt inv_initial hquiet (fun _ => hnew) h
  constructor
  · intro run hrun hforever
    have hgood : ∀ n, Inv (run n) ∧ (run n).status_ = true := by
      intro n
      induction n with
      | zero =>
          rw [hrun]
          exact ⟨hI, hs⟩
      | succ n ih =>
          obtain ⟨tr, hstep⟩ := hforever n
          exact ⟨ih.1.step hG hstep, (left_lt ih.1 ih.2 hstep).1⟩
    have hless : ∀ p tr p', (Inv p ∧ p.status_ = true) ∧ Step G p (.calls tr) p' →
        left p' < left p := fun p tr p' hstep => (left_lt hstep.1.1 hstep.1.2 hstep.2).2
    refine no_infinite_run (r := (· < ·)) (m := left) hless run fun n => ?_
    obtain ⟨tr, hstep⟩ := hforever n
    exact ⟨tr, hgood n, hstep⟩
  · intro trs q hq hstuck
    obtain ⟨hIq, hQq, hcq⟩ := inv_of_path hG hprompt hI hQ hc hq
    exact stopped hprompt hIq hQq hcq hstuck

/-- The process when a client watches its health, and it is signalled. -/
def watched : Program := { answered with streams := 1, status_ := true }

/-- The process when it waits for that client. -/
def waiting : Program := { watched with watcher := .draining, server := some true }

theorem waiting_stuck {q : Program} : ¬ Step prompt waiting (.calls tr) q := by
  have hfinished : ∀ t ∈ waiting.system.threads, t.pc.finished = true := by decide +kernel
  intro h
  cases h with
  | waitNull hm hs => cases hs
  | wait hm hs hr => cases hr.2.2
  | poll hp hw => cases hw
  | wake hp hw => cases hw
  | shutdown hp hw hs => cases hw
  | shutdownNull hp hw hs => cases hw
  | drained hp hw hs hr => cases hr.2.2
  | request hp h => exact not_step_of_finished hfinished h
  | abort hp ht hf h => simp [hfinished _ (List.mem_of_getElem? ht)] at hf
  | dump hm h => cases hm
  | unwind hm ho h => cases hm
  | build hm | buildFailed hm | spawn hm | spawnFailed hm => cases hm
  | join hm hw | joinAbsent hm hw => cases hm

/-- A process that waits for a client, after its threads have taken the steps they could. -/
theorem signalled_ends_watched :
    Path (Step prompt) initial (opening ++ [.openStream, .signal]) watched ∧
      Path (Step prompt) watched ([[], []].map .calls) waiting ∧
      (∀ tr q, ¬ Step prompt waiting (.calls tr) q) ∧
      waiting.main = .wait ∧ waiting.watcher = .draining ∧ 0 < waiting.streams := by
  have hwatched : Path (Step prompt) initial (opening ++ [.openStream, .signal]) watched :=
    path_opening.append (.cons (.openStream rfl rfl rfl) (.single (.signal rfl)))
  have hwaiting : Path (Step prompt) watched ([[], []].map .calls) waiting :=
    .cons (.poll rfl rfl) (.single (.shutdown rfl rfl rfl))
  have hprompt : prompt.Prompt := fun ts n => by simp [prompt]
  refine ⟨hwatched, hwaiting, fun _ _ => waiting_stuck, ?_⟩
  rcases (signalled_ends prompt_promises hprompt hwatched rfl).2 _ _ hwaiting fun _ _ =>
    waiting_stuck with h | h | h
  · cases h
  · cases h.2
  · exact h

end Program

end CameraService
