import CameraService.Spdlog.RotatingFile

/-!
# Opening the log

`set_log_level` and `init_logs` of `utils-logs.cpp`.  The log is opened before the server is
started, outside of every `try`, so that the process ends when `init_logs` throws.

The answers of the system are those of a sink.  Directories are left out of the files:
whether one is there is an answer of its own.

## Main definitions

* `setLogLevel` — `set_log_level`.
* `initLogs` — `init_logs`, with the logger that it leaves.
* `Opens`, `OpensTwice`, `LogsTo` — what the system answers when a file is opened, and when a
  log is.
* `initLogs_ok_iff` — when `init_logs` returns.
-/

namespace CameraService

open Spdlog RotatingFileSink

/-! ## The level -/

/-- The levels of the log. -/
inductive LogLevel
  | trace
  | debug
  | info
  | warn
  | err
  | critical
  | off
  deriving DecidableEq

/-- `set_log_level`. -/
def setLogLevel (level : List Char) : LogLevel :=
  if level = "trace".toList then .trace
  else if level = "debug".toList then .debug
  else if level = "info".toList then .info
  else if level = "warn".toList then .warn
  else if level = "error".toList then .err
  else if level = "fatal".toList then .critical
  else if level = "none".toList then .off
  else .info

/-! ## The files -/

/-- `file_exist`. -/
def fileExist (name : Filename) : Sys Bool := do
  if ← pathExists name then pure true else succeeds

/-- `mkpath_if_not_exist`, with its call of `mkdir`. -/
def mkpathIfNotExist (logpath : Filename) : Sys Bool := do
  if ← fileExist logpath then pure true else succeeds

/-- `path_join`, of a first path that is not empty. -/
def pathJoin (p1 p2 : Filename) : Filename :=
  if p1.getLast? = some '/' then p1 ++ p2 else p1 ++ '/' :: p2

/-! ## The loggers -/

/-- A `rotating_file_sink`, with a `file_helper` of its own. -/
def newSink (c : RotatingFileSink) : Sys Unit := do
  modify fun s => { s with fd_ := false, current_size_ := 0 }
  c.create false

/-- The threads of a `thread_pool`, each of which may fail to start. -/
def startThreads : ℕ → Sys Unit
  | 0 => pure ()
  | n + 1 => do
      if ← succeeds then startThreads n
      else throw "Resource temporarily unavailable".toList

/-- `init_thread_pool`, without the queue. -/
def initThreadPool (threads_n : ℕ) : Sys Unit :=
  if threads_n = 0 ∨ threads_n > 1000 then
    throw "spdlog::thread_pool(): invalid threads_n param (valid range is 1-1000)".toList
  else startThreads threads_n

/-- The default logger of spdlog. -/
inductive DefaultLogger
  /-- The one that spdlog starts with, which writes to the standard output. -/
  | stdout
  /-- The asynchronous one of `init_logs`, which writes to the standard output as well when
  `console` is given. -/
  | async (file : Filename) (console : Bool)
  deriving DecidableEq

/-- The sink of the log file, with its limits. -/
def logSink (full : Filename) : RotatingFileSink := ⟨full, 1048576 * 20, 20⟩

/-- `init_logs`, with the logger that is the default one afterwards. -/
def initLogs (logpath logname : Filename) (console : Bool) : Sys DefaultLogger := do
  if ← mkpathIfNotExist logpath then
    let full := pathJoin logpath logname
    -- The sink of `rotating_logger_mt`, to which nothing is logged.
    newSink (logSink full)
    initThreadPool 1
    newSink (logSink full)
    pure (.async full console)
  else pure .stdout

/-! ## What the system answers -/

/-- The `i`-th call fails. -/
def refused (answers : List Answer) (i : ℕ) : Bool :=
  match answers[i]? with
  | some (.failure _) => true
  | _ => false

/-- A file is opened by the `k`-th of five tries, and tells its size. -/
structure Opens (answers : List Answer) (k : ℕ) : Prop where
  tries : k < 5
  failed : ∀ j < k, refused answers j = true
  opened : refused answers k = false
  sized : refused answers (k + 1) = false

/-- A file is opened twice, and a thread is started in between. -/
def OpensTwice (answers : List Answer) : Prop :=
  ∃ k₁ k₂, Opens answers k₁ ∧ refused answers (k₁ + 2) = false ∧
    Opens (answers.drop (k₁ + 3)) k₂

/-- The directory of the log is there, or it is made, after so many calls. -/
inductive HasDirectory (s : SinkState) (logpath : Filename) : ℕ → Prop
  | file (h : (s.files logpath).isSome = true) : HasDirectory s logpath 0
  | found (h : (s.files logpath).isSome = false) (h₀ : refused s.answers 0 = false) :
      HasDirectory s logpath 1
  | made (h : (s.files logpath).isSome = false) (h₀ : refused s.answers 0 = true)
      (h₁ : refused s.answers 1 = false) : HasDirectory s logpath 2

/-- Which logger the system lets `init_logs` leave. -/
inductive LogsTo (logpath logname : Filename) (console : Bool) (s : SinkState) :
    DefaultLogger → Prop
  /-- The directory is not there and cannot be made. -/
  | stdout (h : (s.files logpath).isSome = false) (h₀ : refused s.answers 0 = true)
      (h₁ : refused s.answers 1 = true) : LogsTo logpath logname console s .stdout
  | async {m : ℕ} (hm : HasDirectory s logpath m) (h : OpensTwice (s.answers.drop m)) :
      LogsTo logpath logname console s (.async (pathJoin logpath logname) console)

variable {s : SinkState} {answers : List Answer} {i j k : ℕ} {logpath logname fname : Filename}
  {console : Bool} {c : RotatingFileSink} {logger : DefaultLogger}

theorem refused_drop : refused (answers.drop i) j = refused answers (i + j) := by
  rw [refused, refused, List.getElem?_drop]

/-- There is one first call that does not fail. -/
theorem eq_of_first {k' : ℕ} (hk : ∀ j < k, refused answers j = true)
    (h : refused answers k = false) (hk' : ∀ j < k', refused answers j = true)
    (h' : refused answers k' = false) : k = k' := by
  rcases lt_trichotomy k k' with hlt | heq | hgt
  · exact absurd (hk' k hlt) (by simp [h])
  · exact heq
  · exact absurd (hk k' hgt) (by simp [h'])

theorem Opens.unique {k' : ℕ} (h : Opens answers k) (h' : Opens answers k') : k = k' :=
  eq_of_first h.failed h.opened h'.failed h'.opened

theorem HasDirectory.unique {m m' : ℕ} (h : HasDirectory s logpath m)
    (h' : HasDirectory s logpath m') : m = m' := by
  cases h with
  | _ => cases h' <;> simp_all

theorem not_hasDirectory (h : (s.files logpath).isSome = false) (h₀ : refused s.answers 0 = true)
    (h₁ : refused s.answers 1 = true) {m : ℕ} : ¬ HasDirectory s logpath m := by
  intro hm
  cases hm with
  | _ => simp_all

/-- The logger is determined. -/
theorem LogsTo.unique {logger' : DefaultLogger} (h : LogsTo logpath logname console s logger)
    (h' : LogsTo logpath logname console s logger') : logger = logger' := by
  cases h with
  | stdout hf h₀ h₁ =>
      cases h' with
      | stdout => rfl
      | async hm => exact absurd hm (not_hasDirectory hf h₀ h₁)
  | async hm =>
      cases h' with
      | stdout hf h₀ h₁ => exact absurd hm (not_hasDirectory hf h₀ h₁)
      | async => rfl

/-! ## The calls -/

theorem exec_succeeds_eq :
    exec succeeds s = (.ok (!refused s.answers 0), { s with answers := s.answers.drop 1 }) := by
  obtain ⟨files, answers, fd_, current_size_⟩ := s
  rcases answers with _ | ⟨⟨⟩ | ⟨written⟩, as⟩
  · rfl
  · rfl
  · rfl

theorem exec_mkpathIfNotExist (logpath : Filename) :
    (∃ m s', exec (mkpathIfNotExist logpath) s = (.ok true, s') ∧ HasDirectory s logpath m ∧
      s'.answers = s.answers.drop m) ∨
    ∃ s', exec (mkpathIfNotExist logpath) s = (.ok false, s') ∧
      (s.files logpath).isSome = false ∧ refused s.answers 0 = true ∧
        refused s.answers 1 = true := by
  have hexist : exec (fileExist logpath) s = if (s.files logpath).isSome then (.ok true, s)
      else (.ok (!refused s.answers 0), { s with answers := s.answers.drop 1 }) := by
    rw [fileExist, exec_bind, pathExists, exec_bind, exec_get]
    dsimp only
    rw [exec_pure]
    dsimp only
    split
    · rfl
    · exact exec_succeeds_eq
  rw [mkpathIfNotExist, exec_bind, hexist]
  cases hfile : (s.files logpath).isSome with
  | true => exact Or.inl ⟨0, s, rfl, .file hfile, rfl⟩
  | false =>
      cases h₀ : refused s.answers 0 with
      | false => exact Or.inl ⟨1, _, rfl, .found hfile h₀, rfl⟩
      | true =>
          have hmkdir := exec_succeeds_eq (s := { s with answers := s.answers.drop 1 })
          rw [refused_drop, List.drop_drop] at hmkdir
          cases h₁ : refused s.answers 1 with
          | false => exact Or.inl ⟨2, _, by simpa [h₁] using hmkdir, .made hfile h₀ h₁, rfl⟩
          | true => exact Or.inr ⟨_, by simpa [h₁] using hmkdir, rfl, rfl, rfl⟩

theorem exec_openLoop_succ (n : ℕ) : exec (FileHelper.openLoop fname false (n + 1)) s =
    if refused s.answers 0 then
      exec (FileHelper.openLoop fname false n) { s with answers := s.answers.drop 1 }
    else (.ok (), { s with
      files := Function.update s.files fname (some ((s.files fname).getD []))
      answers := s.answers.drop 1
      fd_ := true }) := by
  have htruncated : FileHelper.truncated fname false = pure true := rfl
  rw [FileHelper.openLoop, htruncated, pure_bind, if_pos rfl, exec_bind, fopenAppend, exec_bind,
    exec_succeeds_eq]
  cases refused s.answers 0 with
  | _ => rfl

/-- The loop of `open` goes on until a try succeeds. -/
theorem exec_openLoop (fname : Filename) (n : ℕ) : (∃ k < n, (∀ j < k, refused s.answers j = true) ∧
      refused s.answers k = false ∧
        ∃ s', exec (FileHelper.openLoop fname false n) s = (.ok (), s') ∧ s'.fd_ = true ∧
          s'.answers = s.answers.drop (k + 1)) ∨
    (∀ j < n, refused s.answers j = true) ∧
      ∃ e s', exec (FileHelper.openLoop fname false n) s = (.error e, s') := by
  induction n generalizing s with
  | zero => exact Or.inr ⟨by simp, _, _, rfl⟩
  | succ n ih =>
      rw [exec_openLoop_succ]
      cases h₀ : refused s.answers 0 with
      | false => exact Or.inl ⟨0, by omega, by simp, h₀, _, rfl, rfl, rfl⟩
      | true =>
          -- the tries that are left, one call further on
          have hlater : ∀ k, (∀ j < k, refused (s.answers.drop 1) j = true) →
              ∀ j < k + 1, refused s.answers j = true := by
            intro k hk j hj
            cases j with
            | zero => exact h₀
            | succ j =>
                have h := hk j (by omega)
                rwa [refused_drop, Nat.add_comm] at h
          rcases ih (s := { s with answers := s.answers.drop 1 }) with
            ⟨k, hk, hfailed, hopened, s', hs', hfd, hanswers⟩ | ⟨hfailed, e, s', hs'⟩
          · rw [refused_drop, Nat.add_comm] at hopened
            rw [List.drop_drop, Nat.add_comm] at hanswers
            exact Or.inl ⟨k + 1, by omega, hlater k hfailed, hopened, s', hs', hfd, hanswers⟩
          · exact Or.inr ⟨hlater n hfailed, e, s', hs'⟩

theorem exec_size (hfd : s.fd_ = true) : exec (FileHelper.size fname) s =
    (if refused s.answers 0 then .error "Failed getting file size from fd".toList
      else .ok ((s.files fname).getD []).length, { s with answers := s.answers.drop 1 }) := by
  rw [FileHelper.size, exec_bind, exec_get]
  dsimp only
  rw [if_neg (by simp [hfd]), exec_bind, exec_succeeds_eq]
  cases refused s.answers 0 with
  | _ => rfl

/-- **A sink is made** exactly when its file is opened and tells its size. -/
theorem exec_newSink (hsize : c.max_size_ ≠ 0) (hfiles : c.max_files_ ≤ 200000) :
    (∃ k s', Opens s.answers k ∧ exec (newSink c) s = (.ok (), s') ∧
      s'.answers = s.answers.drop (k + 2)) ∨
    (¬ ∃ k, Opens s.answers k) ∧ ∃ e s', exec (newSink c) s = (.error e, s') := by
  rw [newSink, exec_bind, exec_modify]
  dsimp only
  rw [create, if_neg hsize, if_neg (by omega), exec_bind, FileHelper.open, exec_bind,
    FileHelper.close, exec_modify]
  dsimp only
  rcases exec_openLoop (s := { s with fd_ := false, current_size_ := 0 }) c.base_filename_ 5 with
    ⟨k, hk, hfailed, hopened, s₁, hs₁, hfd, hanswers⟩ | ⟨hfailed, e, s₁, hs₁⟩
  · rw [hs₁]
    dsimp only
    rw [exec_bind, exec_size hfd, hanswers, refused_drop]
    cases hsized : refused s.answers (k + 1) with
    | false =>
        refine Or.inl ⟨k, _, ⟨hk, hfailed, hopened, hsized⟩, rfl, ?_⟩
        rw [List.drop_drop]
    | true =>
        refine Or.inr ⟨fun h => ?_, _, _, rfl⟩
        obtain ⟨k', h⟩ := h
        obtain rfl := eq_of_first hfailed hopened h.failed h.opened
        exact absurd h.sized (by simp [hsized])
  · refine Or.inr ⟨fun h => ?_, ?_⟩
    · obtain ⟨k, h⟩ := h
      exact absurd (hfailed k h.tries) (by simp [h.opened])
    · rw [hs₁]
      exact ⟨_, _, rfl⟩

theorem exec_initThreadPool : exec (initThreadPool 1) s =
    (if refused s.answers 0 then .error "Resource temporarily unavailable".toList
      else .ok (), { s with answers := s.answers.drop 1 }) := by
  rw [initThreadPool, if_neg (by omega), startThreads, exec_bind, exec_succeeds_eq]
  cases refused s.answers 0 with
  | _ => rfl

/-- The loggers are made exactly when the file is opened twice. -/
theorem exec_openTwice {α : Type} (hsize : c.max_size_ ≠ 0) (hfiles : c.max_files_ ≤ 200000)
    (x : α) :
    (OpensTwice s.answers ∧ ∃ s', exec (do
      newSink c
      initThreadPool 1
      newSink c
      pure x) s = (.ok x, s')) ∨
    (¬ OpensTwice s.answers ∧ ∃ e s', exec (do
      newSink c
      initThreadPool 1
      newSink c
      pure x) s = (.error e, s')) := by
  rw [exec_bind]
  rcases exec_newSink (s := s) hsize hfiles with ⟨k₁, s₁, hk₁, hs₁, ha₁⟩ | ⟨hno, e, s₁, hs₁⟩
  swap
  · rw [hs₁]
    refine Or.inr ⟨fun h => ?_, _, _, rfl⟩
    obtain ⟨k₁, -, hk₁, -⟩ := h
    exact hno ⟨k₁, hk₁⟩
  rw [hs₁]
  dsimp only
  rw [exec_bind, exec_initThreadPool, ha₁, refused_drop, List.drop_drop, Nat.add_zero]
  cases ht : refused s.answers (k₁ + 2) with
  | true =>
      refine Or.inr ⟨fun h => ?_, _, _, rfl⟩
      obtain ⟨k, -, hk, ht', -⟩ := h
      obtain rfl := hk₁.unique hk
      exact absurd ht' (by simp [ht])
  | false =>
      simp only [Bool.false_eq_true, if_false]
      rw [exec_bind]
      rcases exec_newSink (s := { s₁ with answers := s.answers.drop (k₁ + 2 + 1) }) hsize hfiles
        with ⟨k₂, s₂, hk₂, hs₂, -⟩ | ⟨hno, e, s₂, hs₂⟩
      · rw [hs₂]
        exact Or.inl ⟨⟨k₁, k₂, hk₁, ht, hk₂⟩, _, rfl⟩
      · rw [hs₂]
        refine Or.inr ⟨fun h => ?_, _, _, rfl⟩
        obtain ⟨k, k₂, hk, -, hk₂⟩ := h
        obtain rfl := hk₁.unique hk
        exact hno ⟨k₂, hk₂⟩

/-- **`init_logs`** leaves a logger, or throws when the system lets it leave none. -/
theorem exec_initLogs (logpath logname : Filename) (console : Bool) :
    (∃ logger s', LogsTo logpath logname console s logger ∧
      exec (initLogs logpath logname console) s = (.ok logger, s')) ∨
    (∀ logger, ¬ LogsTo logpath logname console s logger) ∧
      ∃ e s', exec (initLogs logpath logname console) s = (.error e, s') := by
  rw [initLogs, exec_bind]
  rcases exec_mkpathIfNotExist (s := s) logpath with
    ⟨m, s₁, hs₁, hm, ha₁⟩ | ⟨s₁, hs₁, hfile, h₀, h₁⟩
  swap
  · rw [hs₁]
    exact Or.inl ⟨_, _, .stdout hfile h₀ h₁, rfl⟩
  have hsize : (logSink (pathJoin logpath logname)).max_size_ ≠ 0 := by simp [logSink]
  have hfiles : (logSink (pathJoin logpath logname)).max_files_ ≤ 200000 := by simp [logSink]
  rw [hs₁]
  dsimp only
  rw [if_pos rfl]
  rcases exec_openTwice (s := s₁) hsize hfiles
    (DefaultLogger.async (pathJoin logpath logname) console) with ⟨htwice, h⟩ | ⟨hno, h⟩
  · obtain ⟨s', h⟩ := h
    exact Or.inl ⟨_, s', .async hm (ha₁ ▸ htwice), h⟩
  · refine Or.inr ⟨fun logger hlogs => ?_, h⟩
    cases hlogs with
    | stdout hfile h₀ h₁ => exact absurd hm (not_hasDirectory hfile h₀ h₁)
    | async hm' htwice =>
        obtain rfl := hm.unique hm'
        exact hno (ha₁ ▸ htwice)

/-- **When `init_logs` returns**, and with which logger. -/
theorem initLogs_ok_iff : (exec (initLogs logpath logname console) s).1 = .ok logger ↔
    LogsTo logpath logname console s logger := by
  rcases exec_initLogs (s := s) logpath logname console with
    ⟨logger', s', hlogs, h⟩ | ⟨hno, e, s', h⟩
  · rw [h]
    constructor
    · intro he
      cases he
      exact hlogs
    · exact fun hl => congrArg _ (hlogs.unique hl)
  · rw [h]
    exact ⟨fun he => (by cases he), fun hl => absurd hl (hno logger)⟩

/-- A directory that is there, in which no file can be opened. -/
example : ∃ e, (exec (initLogs "/proc".toList "camera-service.log".toList false)
    ⟨fun _ => none, .success :: List.replicate 5 (.failure 0), false, 0⟩).1 = .error e := ⟨_, rfl⟩

end CameraService
