import CameraService.Concurrent.Handles

/-!
# The server program

`start_grpc_server`, with the threads around it.  The main thread builds the server,
starts the thread of `OnlyForShutdownGrpcServer`, waits for the server, joins that
thread and destroys its locals, the provider among them.  The other thread polls the
flag that `signal_handler` sets, and then shuts the server down.  Requests arrive as
long as the server accepts them.  The server also has the services that gRPC brings along
for health checks and reflection; a call of theirs lasts as long as its client likes.

The gRPC library is not part of the repository: when the server accepts a request, and
when `Wait` and `Shutdown` return, is a parameter.

## Main definitions

* `MainPc`, `Watcher`, `Program` — the threads and their state.
* `Grpc`, `Grpc.Promises` — the gRPC server.
* `Program.Step` — the steps of the program.
* `Program.Inv` — what holds in every state of every run.
* `exit_wellFormed` — the SDK calls of a run that exits.
* `alive_iff_held` — the handles in between.
-/

namespace CameraService

open Interaction Provider Transition

/-! ## The threads -/

/-- How far the main thread has come in `start_grpc_server`. -/
inductive MainPc
  /-- Before `dump_cameras`. -/
  | dump
  /-- Before `BuildAndStart`. -/
  | build
  /-- Before `s.start()`. -/
  | spawn
  /-- In `server->Wait()`. -/
  | wait
  /-- In `s.wait()`. -/
  | join
  /-- Before the destructors of the locals. -/
  | unwind
  /-- `main` has returned. -/
  | exited
  /-- The process was aborted. -/
  | aborted
  deriving DecidableEq

/-- The process still runs. -/
def MainPc.running : MainPc → Bool
  | exited | aborted => false
  | _ => true

theorem MainPc.ne_exited {m : MainPc} (h : m.running = true) : m ≠ .exited := by
  rintro rfl
  cases h

/-- How far the thread of `OnlyForShutdownGrpcServer` has come in `run`. -/
inductive Watcher
  /-- It was not started. -/
  | absent
  /-- Before the test of `status_` in `status_t::loop`. -/
  | polling
  /-- In `local_sleep(1000)`. -/
  | sleeping
  /-- Before `server->Shutdown()`. -/
  | woken
  /-- In `server->Shutdown()`. -/
  | draining
  | done
  deriving DecidableEq

/-- The thread runs, and has not called `Shutdown`. -/
def Watcher.watching : Watcher → Bool
  | polling | sleeping | woken => true
  | _ => false

/-- The process. -/
structure Program where
  main : MainPc
  watcher : Watcher
  /-- `MAIN_PROGRAM_LOOP.status_`. -/
  status_ : Bool
  /-- Whether `Shutdown` was called on the server, unless `server` is `NULL`. -/
  server : Option Bool
  /-- The open calls of the services for health checks and reflection. -/
  streams : ℕ
  system : System

/-- The process when `start_grpc_server` is entered. -/
def Program.initial : Program :=
  ⟨.dump, .absent, false, none, 0, start ⟨0, []⟩ []⟩

/-- What the gRPC library decides, for a server on which `Shutdown` was called or not. -/
structure Grpc where
  /-- A new request is handed to a thread. -/
  accepts : Bool → Prop
  /-- `Wait` and `Shutdown` return, with these requests and so many other calls. -/
  returns : Bool → List Thread → ℕ → Prop

/-- What gRPC promises: after `Shutdown` no request is accepted, and neither `Wait` nor
`Shutdown` returns before `Shutdown` was called and every request is finished. -/
structure Grpc.Promises (G : Grpc) : Prop where
  refuses : ¬ G.accepts true
  shut : ∀ c ts n, G.returns c ts n → c = true
  drained : ∀ c ts n, G.returns c ts n → ∀ t ∈ ts, t.pc.finished = true

/-- What happens in a step. -/
inductive Act
  /-- `SIGINT`. -/
  | signal
  | arrive (r : Request)
  /-- A client watches the health of the server, or calls its reflection. -/
  | openStream
  | closeStream
  /-- Some thread goes on, with these calls of the SDK. -/
  | calls (tr : SdkTrace)

/-- The calls of a step. -/
def Act.trace : Act → SdkTrace
  | calls tr => tr
  | _ => []

/-- The calls of a run. -/
def sdkCalls (acts : List Act) : SdkTrace := acts.flatMap Act.trace

/-- The device that the request holds a `shared_ptr` to. -/
def Pc.owner : Pc → Option DevId
  | abandon a _ | publish _ a _ | take a _ | leave a _ _ | closing a | closeLeave a => some a
  | _ => none

theorem Pc.owner_eq_some {pc : Pc} {a : DevId} : pc.owner = some a ↔ pc.owns a = true := by
  cases pc with
  | _ => simp [owner, owns]

/-- A finished request owns no device. -/
theorem Pc.owns_of_finished {pc : Pc} {a : DevId} (h : pc.finished = true) : pc.owns a = false := by
  cases pc with
  | replied r => rfl
  | closed => rfl
  | listed r list => rfl
  | _ => cases h

namespace Program

/-- The steps of the program. -/
inductive Step (G : Grpc) : Program → Act → Program → Prop
  | signal {p : Program} (hp : p.main.running = true) :
      Step G p .signal { p with status_ := true }
  | dump {p : Program} {tr : SdkTrace} {P' : Provider} (hm : p.main = .dump)
      (h : Runs dumpCameras p.system.shared.provider tr P' ()) :
      Step G p (.calls tr) { p with
        main := .build
        system := ⟨p.system.shared.next (.arrive .getCameraMetas) P', p.system.threads⟩ }
  | build {p : Program} (hm : p.main = .build) :
      Step G p (.calls []) { p with main := .spawn, server := some false }
  /-- The port is taken. -/
  | buildFailed {p : Program} (hm : p.main = .build) :
      Step G p (.calls []) { p with main := .spawn, server := none }
  | spawn {p : Program} (hm : p.main = .spawn) :
      Step G p (.calls []) { p with main := .wait, watcher := .polling }
  /-- `std::thread` throws, and the result of `start` is dropped. -/
  | spawnFailed {p : Program} (hm : p.main = .spawn) :
      Step G p (.calls []) { p with main := .wait }
  /-- `server->Wait()` on `NULL`. -/
  | waitNull {p : Program} (hm : p.main = .wait) (hs : p.server = none) :
      Step G p (.calls []) { p with main := .aborted }
  | wait {p : Program} {c : Bool} (hm : p.main = .wait) (hs : p.server = some c)
      (hr : G.returns c p.system.threads p.streams) : Step G p (.calls []) { p with main := .join }
  | join {p : Program} (hm : p.main = .join) (hw : p.watcher = .done) :
      Step G p (.calls []) { p with main := .unwind }
  /-- `join` throws on a thread that was not started. -/
  | joinAbsent {p : Program} (hm : p.main = .join) (hw : p.watcher = .absent) :
      Step G p (.calls []) { p with main := .aborted }
  | unwind {p : Program} {order : List Key} {tr : SdkTrace} {P' : Provider}
      (hm : p.main = .unwind) (ho : order.Perm p.system.shared.provider.cameras_list_.keys)
      (h : Runs (delete order) p.system.shared.provider tr P' ()) :
      Step G p (.calls tr) { p with
        main := .exited
        system := ⟨{ p.system.shared with provider := P' }, p.system.threads⟩ }
  | poll {p : Program} (hp : p.main.running = true) (hw : p.watcher = .polling) :
      Step G p (.calls []) { p with watcher := if p.status_ then .woken else .sleeping }
  | wake {p : Program} (hp : p.main.running = true) (hw : p.watcher = .sleeping) :
      Step G p (.calls []) { p with watcher := .polling }
  | shutdown {p : Program} {c : Bool} (hp : p.main.running = true) (hw : p.watcher = .woken)
      (hs : p.server = some c) :
      Step G p (.calls []) { p with watcher := .draining, server := some true }
  /-- `run` tests its pointer. -/
  | shutdownNull {p : Program} (hp : p.main.running = true) (hw : p.watcher = .woken)
      (hs : p.server = none) : Step G p (.calls []) { p with watcher := .done }
  | drained {p : Program} {c : Bool} (hp : p.main.running = true) (hw : p.watcher = .draining)
      (hs : p.server = some c) (hr : G.returns c p.system.threads p.streams) :
      Step G p (.calls []) { p with watcher := .done }
  | arrive {p : Program} {c : Bool} {r : Request} (hp : p.main.running = true)
      (hs : p.server = some c) (ha : G.accepts c) :
      Step G p (.arrive r) { p with
        system := ⟨p.system.shared, p.system.threads ++ [⟨.arrive r, []⟩]⟩ }
  | openStream {p : Program} {c : Bool} (hp : p.main.running = true) (hs : p.server = some c)
      (ha : G.accepts c) : Step G p .openStream { p with streams := p.streams + 1 }
  | closeStream {p : Program} {n : ℕ} (hp : p.main.running = true) (hn : p.streams = n + 1) :
      Step G p .closeStream { p with streams := n }
  | request {p : Program} {i : ℕ} {tr : SdkTrace} {s' : System} (hp : p.main.running = true)
      (h : CameraService.Step p.system (i, tr) s') :
      Step G p (.calls tr) { p with system := s' }
  /-- A failed assertion aborts the process. -/
  | abort {p : Program} {i : ℕ} {t : Thread} {tr : SdkTrace} {f : Fault}
      (hp : p.main.running = true) (ht : p.system.threads[i]? = some t)
      (hf : t.pc.finished = false)
      (h : Faults (advance (heldBy (p.system.threads.eraseIdx i)) t.pc)
        p.system.shared.provider tr f) :
      Step G p (.calls tr) { p with main := .aborted }

/-! ## The invariant -/

/-- The main thread is past `server->Wait()`. -/
def Past : MainPc → Prop
  | .join | .unwind | .exited => True
  | _ => False

/-- The threads of a process, whose requests are all finished once `Wait` has returned. -/
structure Inv (p : Program) : Prop where
  holds : p.main.running = true → outline.Holds p.system
  /-- Before the server is there. -/
  early : p.main = .dump ∨ p.main = .build → p.server = none ∧ p.system.threads = []
  absent : p.main = .dump ∨ p.main = .build ∨ p.main = .spawn → p.watcher = .absent
  late : Past p.main → p.server = some true ∧ ∀ t ∈ p.system.threads, t.pc.finished = true
  joined : p.main = .unwind ∨ p.main = .exited → p.watcher = .done
  shut : p.server = some true → p.watcher = .draining ∨ p.watcher = .done
  signalled : p.watcher = .woken ∨ p.watcher = .draining ∨ p.watcher = .done → p.status_ = true
  draining : p.watcher = .draining → p.server = some true
  ended : p.watcher = .done → p.server ≠ some false

variable {G : Grpc} {p p' : Program} {act : Act} {acts : List Act} {P P' : Provider}
  {tr T : SdkTrace} {Φ : Handle → Phase} {s : System}

theorem inv_initial : Inv initial where
  holds := fun _ => holds_start
  early := fun _ => ⟨rfl, rfl⟩
  absent := fun _ => rfl
  late := fun h => h.elim
  joined := by simp [initial]
  shut := by simp [initial]
  signalled := by simp [initial]
  draining := by simp [initial]
  ended := by simp [initial]

/-- An enumeration disturbs no request. -/
theorem dumpCameras_spec (h : Runs dumpCameras P tr P' ()) :
    ∃ r list, tr = [⟨.enumDevices [.gige, .usb], (r, list)⟩] ∧
      P' = { P with camera_info_list_ := ⟨P.camera_info_list_.epoch + 1, list⟩ } := by
  simp only [dumpCameras, enumAllCameras, bind_assoc] at h
  rw [runs_bind] at h
  obtain ⟨t₁, P₁, r, t₂, rfl, h₁, h₂⟩ := h
  obtain ⟨list, rfl, rfl⟩ := enumAllCamerasInfo_spec h₁
  split at h₂
  · simp only [pure_bind, runs_pure] at h₂
    obtain ⟨rfl, rfl, -⟩ := h₂
    exact ⟨r, list, rfl, rfl⟩
  · simp only [bind_assoc, runs_get_bind, pure_bind, runs_pure] at h₂
    obtain ⟨rfl, rfl, -⟩ := h₂
    exact ⟨r, list, rfl, rfl⟩

/-- A request that has just arrived disturbs no other. -/
theorem holds_arrive {r : Request} (hO : outline.Holds s) :
    outline.Holds ⟨s.shared, s.threads ++ [⟨.arrive r, []⟩]⟩ where
  inv := hO.inv
  own := by
    intro t ht
    rcases List.mem_append.mp ht with ht | ht
    · exact hO.own t ht
    · rw [List.mem_singleton.mp ht]
      trivial
  apart := by
    have hnew : ∀ u : Thread, Apart ⟨.arrive r, []⟩ u ∧ Apart u ⟨.arrive r, []⟩ := fun u =>
      ⟨fun a => ⟨fun h => by simp [Pc.opens] at h, fun _ => rfl⟩,
        fun a => ⟨fun _ => rfl, fun h => by simp [Pc.opens] at h⟩⟩
    have hlast : ∀ (k : ℕ) (u : Thread),
        (s.threads ++ [(⟨.arrive r, []⟩ : Thread)])[k]? = some u →
          s.threads[k]? = some u ∨ u = ⟨.arrive r, []⟩ := by
      intro k u hu
      by_cases hk : k < s.threads.length
      · exact Or.inl (by rwa [List.getElem?_append_left hk] at hu)
      · rw [List.getElem?_append_right (by omega)] at hu
        exact Or.inr (List.mem_singleton.mp (List.mem_of_getElem? hu))
    intro i j t u hij ht hu
    rcases hlast i t ht with ht | rfl
    · rcases hlast j u hu with hu | rfl
      · exact hO.apart i j t u hij ht hu
      · exact (hnew t).2
    · exact (hnew u).1

/-- An enumeration keeps what the requests rely on, when there is none. -/
theorem holds_dump (hO : outline.Holds s) (hts : s.threads = [])
    (h : Runs dumpCameras s.shared.provider tr P' ()) :
    outline.Holds ⟨s.shared.next (.arrive .getCameraMetas) P', s.threads⟩ where
  inv := by
    obtain ⟨r, list, rfl, rfl⟩ := dumpCameras_spec h
    exact ⟨hO.inv.made, hO.inv.upper, hO.inv.settled, hO.inv.fresh⟩
  own := by simp [hts]
  apart := by simp [hts]

/-- A request that is finished takes no step. -/
theorem not_step_of_finished {l : ℕ × SdkTrace} {s' : System}
    (hf : ∀ t ∈ s.threads, t.pc.finished = true) : ¬ CameraService.Step s l s' := by
  intro h
  cases h with
  | mk ht h =>
      have hunfinished := h.1
      simp [hf _ (List.mem_of_getElem? ht)] at hunfinished

/-- Until `Shutdown` is called the main thread waits for the server. -/
theorem Inv.waits (hI : Inv p) (hp : p.main.running = true) (hw : p.watcher.watching = true) :
    p.main = .wait ∧ p.server ≠ some true := by
  have hopen : p.server ≠ some true := by
    intro hs
    rcases hI.shut hs with h | h
    · simp [h, Watcher.watching] at hw
    · simp [h, Watcher.watching] at hw
  have hlate : ¬ Past p.main := fun h => hopen (hI.late h).1
  have hearly : ¬ (p.main = .dump ∨ p.main = .build ∨ p.main = .spawn) := by
    intro h
    simp [hI.absent h, Watcher.watching] at hw
  refine ⟨?_, hopen⟩
  cases hm : p.main with
  | wait => rfl
  | exited => simp [hm, MainPc.running] at hp
  | aborted => simp [hm, MainPc.running] at hp
  | join => simp [hm, Past] at hlate
  | unwind => simp [hm, Past] at hlate
  | dump => simp [hm] at hearly
  | build => simp [hm] at hearly
  | spawn => simp [hm] at hearly

/-- **A step of the program** keeps the invariant. -/
theorem Inv.step (hG : G.Promises) (hI : Inv p) (h : Step G p act p') : Inv p' := by
  cases h with
  | signal hp => exact { hI with signalled := fun _ => rfl }
  | dump hm h =>
      obtain ⟨hserver, hts⟩ := hI.early (Or.inl hm)
      have hw := hI.absent (Or.inl hm)
      have hO := hI.holds (by rw [hm]; rfl)
      refine ⟨fun _ => holds_dump hO hts h, fun _ => ⟨hserver, hts⟩, fun _ => hw, fun h => h.elim,
        by simp, by simp [hserver], by simp [hw], by simp [hw], by simp [hw]⟩
  | build hm =>
      have hw := hI.absent (Or.inr (Or.inl hm))
      refine ⟨fun _ => hI.holds (by rw [hm]; rfl), by simp, fun _ => hw, fun h => h.elim, by simp,
        by simp, by simp [hw], by simp [hw], by simp [hw]⟩
  | buildFailed hm =>
      have hw := hI.absent (Or.inr (Or.inl hm))
      refine ⟨fun _ => hI.holds (by rw [hm]; rfl), by simp, fun _ => hw, fun h => h.elim, by simp,
        by simp, by simp [hw], by simp [hw], by simp [hw]⟩
  | spawn hm =>
      have hw := hI.absent (Or.inr (Or.inr hm))
      have hopen : p.server ≠ some true := by
        intro hs
        simpa [hw] using hI.shut hs
      refine ⟨fun _ => hI.holds (by rw [hm]; rfl), by simp, by simp, fun h => h.elim, by simp,
        fun hs => absurd hs hopen, by simp, by simp, by simp⟩
  | spawnFailed hm =>
      refine ⟨fun _ => hI.holds (by rw [hm]; rfl), by simp, by simp, fun h => h.elim, by simp,
        hI.shut, hI.signalled, hI.draining, hI.ended⟩
  | waitNull hm hs =>
      exact ⟨by simp [MainPc.running], by simp, by simp, fun h => h.elim, by simp, hI.shut,
        hI.signalled, hI.draining, hI.ended⟩
  | @wait c hm hs hr =>
      obtain rfl := hG.shut c _ _ hr
      exact ⟨fun _ => hI.holds (by rw [hm]; rfl), by simp, by simp,
        fun _ => ⟨hs, hG.drained _ _ _ hr⟩, by simp, hI.shut, hI.signalled,
        hI.draining, hI.ended⟩
  | join hm hw =>
      exact ⟨fun _ => hI.holds (by rw [hm]; rfl), by simp, by simp,
        fun _ => hI.late (by rw [hm]; trivial), fun _ => hw, hI.shut, hI.signalled,
        hI.draining, hI.ended⟩
  | joinAbsent hm hw =>
      exact ⟨by simp [MainPc.running], by simp, by simp, fun h => h.elim, by simp, hI.shut,
        hI.signalled, hI.draining, hI.ended⟩
  | unwind hm ho h =>
      exact ⟨by simp [MainPc.running], by simp, by simp,
        fun _ => hI.late (by rw [hm]; trivial), fun _ => hI.joined (Or.inl hm), hI.shut,
        hI.signalled, hI.draining, hI.ended⟩
  | poll hp hw =>
      obtain ⟨hm, hopen⟩ := hI.waits hp (by rw [hw]; rfl)
      refine ⟨hI.holds, by simp [hm], by simp [hm], by simp [hm, Past], by simp [hm],
        fun hs => absurd hs hopen, ?_, ?_, ?_⟩
      · by_cases hs : p.status_ = true
        · exact fun _ => hs
        · simp [hs]
      · cases p.status_ <;> simp
      · cases p.status_ <;> simp
  | wake hp hw =>
      obtain ⟨hm, hopen⟩ := hI.waits hp (by rw [hw]; rfl)
      exact ⟨hI.holds, by simp [hm], by simp [hm], by simp [hm, Past], by simp [hm],
        fun hs => absurd hs hopen, by simp, by simp, by simp⟩
  | shutdown hp hw hs =>
      obtain ⟨hm, -⟩ := hI.waits hp (by rw [hw]; rfl)
      exact ⟨hI.holds, by simp [hm], by simp [hm], by simp [hm, Past], by simp [hm],
        fun _ => Or.inl rfl, fun _ => hI.signalled (Or.inl hw), fun _ => rfl, by simp⟩
  | shutdownNull hp hw hs =>
      have habsent := hI.absent
      rw [hw] at habsent
      exact ⟨hI.holds, hI.early, fun h => absurd (habsent h) (by simp), hI.late, fun _ => rfl,
        fun _ => Or.inr rfl, fun _ => hI.signalled (Or.inl hw), by simp, by simp [hs]⟩
  | drained hp hw hs hr =>
      have habsent := hI.absent
      rw [hw] at habsent
      exact ⟨hI.holds, hI.early, fun h => absurd (habsent h) (by simp), hI.late, fun _ => rfl,
        fun _ => Or.inr rfl, fun _ => hI.signalled (Or.inr (Or.inl hw)), by simp,
        fun _ => by simp [hI.draining hw]⟩
  | @arrive c r hp hs ha =>
      have hc : c ≠ true := by
        rintro rfl
        exact hG.refuses ha
      have hlate : ¬ Past p.main := by
        intro h
        exact hc (Option.some.inj (hs.symm.trans (hI.late h).1))
      refine ⟨fun _ => holds_arrive (hI.holds hp), fun h => ?_, hI.absent, fun h => absurd h hlate,
        hI.joined, hI.shut, hI.signalled, hI.draining, hI.ended⟩
      exact absurd (hI.early h).1 (by simp [hs])
  | openStream hp hs ha => exact { hI with }
  | closeStream hp hn => exact { hI with }
  | @request i tr s' hp h =>
      refine ⟨fun hp => Outline.holds_step preserves_outline (hI.holds hp) h, fun hm => ?_,
        hI.absent, fun hm => ?_, hI.joined, hI.shut, hI.signalled, hI.draining, hI.ended⟩
      · obtain ⟨hserver, hts⟩ := hI.early hm
        exact absurd h (not_step_of_finished (by simp [hts]))
      · exact absurd h (not_step_of_finished (hI.late hm).2)
  | abort hp ht hf h =>
      exact ⟨by simp [MainPc.running], by simp, by simp, fun h => h.elim, by simp, hI.shut,
        hI.signalled, hI.draining, hI.ended⟩

/-! ## The handles -/

/-- Where the handles stand after these calls: they are accounted for as long as the process
runs, and destroyed once it has exited. -/
structure Recorded (T : SdkTrace) (p : Program) : Prop where
  alive : p.main.running = true → ∃ Φ, Path Phases (fun _ => .idle) T Φ ∧ Accounted p.system Φ
  gone : p.main = .exited → Path Phases (fun _ => .idle) T fun _ => .idle

theorem recorded_initial : Recorded [] initial where
  alive := fun _ => ⟨_, .nil _, manned_new, fun a ha => absurd rfl ha⟩
  gone := by simp [initial]

/-- A step that leaves the requests alone. -/
theorem Recorded.still (hR : Recorded T p) (hp : p.main.running = true)
    (hs : p'.system = p.system) (hx : p'.main ≠ .exited) : Recorded (T ++ []) p' where
  alive := fun _ => by
    rw [List.append_nil, hs]
    exact hR.alive hp
  gone := fun h => absurd h hx

theorem not_heldBy_of_finished {ts : List Thread} {a : DevId}
    (hf : ∀ t ∈ ts, t.pc.finished = true) : heldBy ts a ≠ true := by
  intro h
  obtain ⟨t, ht, ho⟩ := List.any_eq_true.mp h
  simp [Pc.owns_of_finished (hf t ht)] at ho

/-- **A step of the program** accounts for the handles. -/
theorem Recorded.step (hI : Inv p) (hR : Recorded T p) (hf : Fresh (T ++ act.trace))
    (hn : act.trace.all leavesNull = true) (h : Step G p act p') :
    Recorded (T ++ act.trace) p' := by
  cases h with
  | signal hp => exact hR.still hp rfl (MainPc.ne_exited hp)
  | dump hm h =>
      obtain ⟨Φ, hT, hA⟩ := hR.alive (by rw [hm]; rfl)
      obtain ⟨r, list, rfl, rfl⟩ := dumpCameras_spec h
      have hneutral : Neutral ⟨.enumDevices [.gige, .usb], (r, list)⟩ := ⟨rfl, rfl⟩
      refine ⟨fun _ => ⟨Φ, hT.append (phases_of_neutral fun e he => ?_), hA.manned, hA.kept⟩,
        by simp⟩
      rw [List.mem_singleton.mp he]
      exact hneutral
  | build hm => exact hR.still (by rw [hm]; rfl) rfl (by simp)
  | buildFailed hm => exact hR.still (by rw [hm]; rfl) rfl (by simp)
  | spawn hm => exact hR.still (by rw [hm]; rfl) rfl (by simp)
  | spawnFailed hm => exact hR.still (by rw [hm]; rfl) rfl (by simp)
  | waitNull hm hs => exact hR.still (by rw [hm]; rfl) rfl (by simp)
  | wait hm hs hr => exact hR.still (by rw [hm]; rfl) rfl (by simp)
  | join hm hw => exact hR.still (by rw [hm]; rfl) rfl (by simp)
  | joinAbsent hm hw => exact hR.still (by rw [hm]; rfl) rfl (by simp)
  | @unwind order tr P' hm ho h =>
      obtain ⟨Φ, hT, hA⟩ := hR.alive (by rw [hm]; rfl)
      have hfinished := (hI.late (by rw [hm]; trivial)).2
      have hkept : Kept p.system.shared.provider fun _ => False :=
        hA.kept.imp fun _ => not_heldBy_of_finished hfinished
      refine ⟨by simp [MainPc.running], fun _ => ?_⟩
      refine delete_manned hA.manned hkept hT hf hn (fun k a hk => ?_) h
      exact ho.mem_iff.mpr (AList.lookup_isSome.mp (by rw [hk]; rfl))
  | poll hp hw => exact hR.still hp rfl (MainPc.ne_exited hp)
  | wake hp hw => exact hR.still hp rfl (MainPc.ne_exited hp)
  | shutdown hp hw hs => exact hR.still hp rfl (MainPc.ne_exited hp)
  | shutdownNull hp hw hs => exact hR.still hp rfl (MainPc.ne_exited hp)
  | drained hp hw hs hr => exact hR.still hp rfl (MainPc.ne_exited hp)
  | arrive hp hs ha =>
      obtain ⟨Φ, hT, hA⟩ := hR.alive hp
      refine ⟨fun _ => ⟨Φ, by simpa [Act.trace] using hT, hA.manned, ?_⟩,
        fun h => absurd h (MainPc.ne_exited hp)⟩
      refine hA.kept.imp fun a ha => ?_
      obtain ⟨t, ht, ho⟩ := List.any_eq_true.mp ha
      exact heldBy_of_owns (List.mem_append_left _ ht) ho
  | openStream hp hs ha => exact hR.still hp rfl (MainPc.ne_exited hp)
  | closeStream hp hn => exact hR.still hp rfl (MainPc.ne_exited hp)
  | request hp h =>
      obtain ⟨Φ, hT, hA⟩ := hR.alive hp
      exact ⟨fun _ => accounted_step (hI.holds hp) hA hT hf hn h,
        fun h => absurd h (MainPc.ne_exited hp)⟩
  | abort hp ht hf h => exact ⟨by simp [MainPc.running], by simp⟩

/-- **A run of the program** accounts for the handles. -/
theorem recorded_of_path (hG : G.Promises) (hI : Inv p) (hR : Recorded T p)
    (hf : Fresh (T ++ sdkCalls acts)) (hn : (sdkCalls acts).all leavesNull = true)
    (h : Path (Step G) p acts p') : Inv p' ∧ Recorded (T ++ sdkCalls acts) p' := by
  induction acts generalizing p T with
  | nil =>
      rw [Path.nil_iff.mp h]
      exact ⟨hI, by simpa [sdkCalls] using hR⟩
  | cons act acts ih =>
      obtain ⟨q, hstep, hrest⟩ := Path.cons_iff.mp h
      have hcalls : sdkCalls (act :: acts) = act.trace ++ sdkCalls acts := rfl
      rw [hcalls, ← List.append_assoc] at hf ⊢
      rw [hcalls, List.all_append, Bool.and_eq_true] at hn
      exact ih (hI.step hG hstep) (hR.step hI hf.prefix hn.1 hstep) hf hn.2 hrest

/-! ## A run that is signalled -/

/-- A server that returns as soon as it may. -/
def prompt : Grpc where
  accepts := fun c => c = false
  returns := fun c ts n => c = true ∧ (∀ t ∈ ts, t.pc.finished = true) ∧ n = 0

theorem prompt_promises : prompt.Promises where
  refuses := by simp [prompt]
  shut := fun c ts n h => h.1
  drained := fun c ts n h => h.2.1

/-- The requests go on while the process runs. -/
theorem path_requests {es : List ((ℕ × SdkTrace) × System)} (hp : p.main.running = true)
    (h : Along CameraService.Step p.system es) :
    Path (Step G) p (es.map fun e => .calls e.1.2)
      { p with system := lastState p.system es } := by
  induction es generalizing p with
  | nil => exact .nil p
  | cons e es ih =>
      exact .cons (.request hp h.1) (ih (p := { p with system := e.2 }) hp h.2)

/-- A camera was found, and a request for its image has arrived. -/
def serving : Program where
  main := .wait
  watcher := .polling
  status_ := false
  server := some false
  streams := 0
  system := ⟨(start ⟨0, []⟩ []).shared.next (.arrive .getCameraMetas)
    { Provider.new with camera_info_list_ := ⟨1, [some (usbCamera [65])]⟩ },
    [⟨.arrive (imageOf [65]), []⟩]⟩

/-- The request is answered. -/
def answering : List ((ℕ × SdkTrace) × System) :=
  playAll serving.system (List.replicate 7 (0, obliging))

/-- The process when the request has its answer. -/
def answered : Program := { serving with system := lastState serving.system answering }

/-- The run up to the answer. -/
def opening : List Act :=
  [.calls [⟨.enumDevices [.gige, .usb], (.ok, [some (usbCamera [65])])⟩], .calls [], .calls [],
    .arrive (imageOf [65])] ++ answering.map fun e => .calls e.1.2

theorem path_opening : Path (Step prompt) initial opening answered := by
  have hdump : Runs dumpCameras Provider.new _ _ () :=
    runs_of_exec (o := finding [some (usbCamera [65])]) rfl
  refine Path.append ?_ (path_requests rfl (along_playAll _ _))
  refine .cons (.dump rfl hdump) (.cons (.build rfl) (.cons (.spawn rfl) ?_))
  exact .single (.arrive rfl rfl rfl)

/-! ## What a run leaves -/

/-- **A run that exits** was signalled, answered every request, and left no handle: each was
destroyed exactly once, closed before if it was open, and stopped before if it was grabbing. -/
theorem exit_wellFormed (hG : G.Promises) (h : Path (Step G) initial acts p)
    (hp : p.main = .exited) (hf : Fresh (sdkCalls acts))
    (hn : (sdkCalls acts).all leavesNull = true) :
    WellFormed (sdkCalls acts) ∧ p.status_ = true ∧
      ∀ t ∈ p.system.threads, t.pc.finished = true := by
  obtain ⟨hI, hR⟩ := recorded_of_path hG inv_initial recorded_initial hf hn h
  rw [List.nil_append] at hR
  refine ⟨wellFormed_of_phases (hR.gone hp), ?_, (hI.late (by rw [hp]; trivial)).2⟩
  exact hI.signalled (Or.inr (Or.inr (hI.joined (Or.inr hp))))

/-- The process is signalled after its answer. -/
theorem exit_wellFormed_opening : ∃ acts p, Path (Step prompt) initial (opening ++ acts) p ∧
    p.main = .exited ∧ (sdkCalls (opening ++ acts)).any (destroys 1) = true ∧
      WellFormed (sdkCalls (opening ++ acts)) := by
  have hfinished : ∀ t ∈ answered.system.threads, t.pc.finished = true := by decide +kernel
  have hkeys : answered.system.shared.provider.cameras_list_.keys = [[65]] := by decide +kernel
  have hdelete : Runs (delete [[65]]) answered.system.shared.provider _ _ () :=
    runs_of_exec (o := obliging) rfl
  have hexit : Path (Step prompt) answered _ _ :=
    .cons (.signal rfl) (.cons (.poll rfl rfl) (.cons (.shutdown rfl rfl rfl)
      (.cons (.drained rfl rfl rfl ⟨rfl, hfinished, rfl⟩)
        (.cons (.wait rfl rfl ⟨rfl, hfinished, rfl⟩) (.cons (.join rfl rfl)
          (.single (.unwind rfl (.of_eq hkeys.symm) hdelete)))))))
  have hpath := path_opening.append hexit
  refine ⟨_, _, hpath, rfl, ?_, (exit_wellFormed prompt_promises hpath rfl (fresh_of_nodup ?_) ?_).1⟩
  · decide +kernel
  · decide +kernel
  · decide +kernel

/-- The handles of the devices that the map or a request owns. -/
def heldHandles (S : System) : List Handle :=
  (S.shared.provider.cameras_list_.entries.map (·.2) ++ S.threads.filterMap (·.pc.owner)).filterMap
    fun a => (S.shared.provider.heap a).camera_.bind (·.m_hDevHandle)

theorem mem_heldHandles {x : Handle} : x ∈ heldHandles s ↔
    ∃ a, (s.shared.provider.heap a).camera_ = some ⟨some x⟩ ∧
      (s.shared.provider.Published a ∨ heldBy s.threads a = true) := by
  have hcamera : ∀ a, (s.shared.provider.heap a).camera_.bind (·.m_hDevHandle) = some x ↔
      (s.shared.provider.heap a).camera_ = some ⟨some x⟩ := by
    intro a
    cases (s.shared.provider.heap a).camera_ with
    | none => simp
    | some c =>
        obtain ⟨hnd⟩ := c
        simp
  have howner : ∀ a, a ∈ s.shared.provider.cameras_list_.entries.map (·.2) ++
      s.threads.filterMap (·.pc.owner) ↔
        s.shared.provider.Published a ∨ heldBy s.threads a = true := by
    intro a
    rw [List.mem_append, List.mem_map, List.mem_filterMap, heldBy, List.any_eq_true]
    simp only [Pc.owner_eq_some]
    rfl
  rw [heldHandles, List.mem_filterMap]
  simp only [hcamera, howner, and_comm]

/-- A request that is finished holds no handle, and any other at most one. -/
theorem length_heldHandles : (heldHandles s).length ≤
    s.shared.provider.cameras_list_.keys.length + s.threads.countP fun t => !t.pc.finished := by
  have hthreads : (s.threads.filterMap (·.pc.owner)).length ≤
      s.threads.countP fun t => !t.pc.finished := by
    rw [List.length_filterMap_eq_countP]
    refine List.countP_mono_left fun t _ ho => ?_
    obtain ⟨a, ha⟩ := Option.isSome_iff_exists.mp ho
    by_contra hf
    have hnone := Pc.owns_of_finished (a := a) (by simpa using hf)
    simp [Pc.owner_eq_some.mp ha] at hnone
  calc (heldHandles s).length
      ≤ _ := List.length_filterMap_le _ _
    _ = s.shared.provider.cameras_list_.keys.length +
          (s.threads.filterMap (·.pc.owner)).length := by
        simp [AList.keys, List.keys]
    _ ≤ _ := Nat.add_le_add_left hthreads _

/-- **A handle is alive when one device has it**, and that device is in the map or belongs to
a request.  A service at rest holds at most one handle for each entry of its map. -/
theorem alive_iff_held (hG : G.Promises) (h : Path (Step G) initial acts p)
    (hp : p.main.running = true) (hf : Fresh (sdkCalls acts))
    (hn : (sdkCalls acts).all leavesNull = true) :
    (∀ x, Alive (sdkCalls acts) x ↔ ∃! a,
      (p.system.shared.provider.heap a).camera_ = some ⟨some x⟩ ∧
        (p.system.shared.provider.Published a ∨ heldBy p.system.threads a = true)) ∧
      ∃ xs : List Handle, (∀ x, x ∈ xs ↔ Alive (sdkCalls acts) x) ∧
        xs.length ≤ p.system.shared.provider.cameras_list_.keys.length +
          p.system.threads.countP fun t => !t.pc.finished := by
  obtain ⟨-, hR⟩ := recorded_of_path hG inv_initial recorded_initial hf hn h
  rw [List.nil_append] at hR
  obtain ⟨Φ, hT, hA⟩ := hR.alive hp
  have halive : ∀ x, Alive (sdkCalls acts) x ↔ x ∈ heldHandles p.system := by
    intro x
    rw [alive_iff hT, mem_heldHandles]
    constructor
    · intro hx
      obtain ⟨a, ha⟩ := hA.manned.known x hx
      exact ⟨a, ha, hA.kept a (by simp [ha])⟩
    · intro hx
      obtain ⟨a, ha, -⟩ := hx
      obtain ⟨φ, hφ, hΦ⟩ := hA.manned.stands a
      have hh := hφ.camera_iff.mp ha
      rw [hΦ x hh]
      exact ne_idle_of_handle hh
  refine ⟨fun x => ?_, heldHandles p.system, fun x => (halive x).symm, length_heldHandles⟩
  rw [halive, mem_heldHandles]
  constructor
  · intro hx
    obtain ⟨a, ha⟩ := hx
    exact ⟨a, ha, fun b hb => hA.manned.apart b a x hb.1 ha.1⟩
  · exact fun hx => hx.exists

/-- After the answer one handle is alive, which the device in the map has. -/
theorem alive_iff_held_opening : (∀ x, Alive (sdkCalls opening) x ↔ x = 1) ∧
    answered.system.shared.provider.Published 0 ∧
      (answered.system.shared.provider.heap 0).camera_ = some ⟨some 1⟩ := by
  obtain ⟨hiff, xs, hxs, hlen⟩ := alive_iff_held prompt_promises path_opening rfl
    (fresh_of_nodup (by decide +kernel)) (by decide +kernel)
  have hfinished : ∀ t ∈ answered.system.threads, t.pc.finished = true := by decide +kernel
  have hcamera : (answered.system.shared.provider.heap 0).camera_ = some ⟨some 1⟩ := by
    decide +kernel
  have hpublished : answered.system.shared.provider.Published 0 := by decide +kernel
  have hdevices : ∀ e ∈ answered.system.shared.provider.cameras_list_.entries, e.2 = 0 := by
    decide +kernel
  have halive : Alive (sdkCalls opening) 1 := by
    refine (hiff 1).mpr ⟨0, ⟨hcamera, Or.inl hpublished⟩, fun b hb => ?_⟩
    obtain ⟨e, he, rfl⟩ := hb.2.resolve_right (not_heldBy_of_finished hfinished)
    exact hdevices e he
  refine ⟨fun x => ⟨fun hx => ?_, fun hx => hx ▸ halive⟩, hpublished, hcamera⟩
  have hone : xs.length ≤ 1 := hlen
  obtain ⟨y, rfl⟩ := List.length_eq_one_iff.mp
    (hone.antisymm (List.length_pos_of_mem ((hxs 1).mpr halive)))
  rw [List.mem_singleton.mp ((hxs x).mpr hx), List.mem_singleton.mp ((hxs 1).mpr halive)]

end Program

end CameraService
