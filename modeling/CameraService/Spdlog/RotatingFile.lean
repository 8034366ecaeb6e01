import CameraService.Lib.Slots
import CameraService.Text
import Mathlib.Data.List.Infix

/-!
# The files of the log

`rotating_file_sink` of spdlog with its `file_helper`.  The lines of the log go to one
file; before it gets too long, it is renamed, and so are the files that were renamed
before, and the oldest one is deleted.

Every call to the system may fail.  `SinkState.answers` says what the calls that follow
come to.  The buffer of a stream is taken to be part of its file.  Directories are left
out, and so is the text of `errno` in what is thrown.

## Main definitions

* `splitByExtension`, `calcFilename` — the names of the files.
* `RotatingFileSink` — the sink, with what does not change.
* `SinkState`, `Sys` — the files and what changes, and the functions on them.
* `FileHelper` — `file_helper`, on the file of the sink.
* `RotatingFileSink.create`, `RotatingFileSink.rotate`, `RotatingFileSink.sinkIt` — its members.
* `RotatingFileSink.life`, `RotatingFileSink.kept` — a sink that is used, and what its files
  hold.
-/

namespace CameraService.Spdlog

open Function

/-- `filename_t`. -/
abbrev Filename : Type := List Char

/-! ## Names -/

/-- The last index of a character. -/
def rfind (c : Char) (s : Filename) : Option ℕ :=
  (s.reverse.findIdx? (· == c)).map fun i => s.length - 1 - i

/-- `file_helper::split_by_extension`. -/
def splitByExtension (fname : Filename) : Filename × Filename :=
  match rfind '.' fname with
  | none => (fname, [])
  | some ext_index =>
      if ext_index = 0 ∨ ext_index = fname.length - 1 then (fname, [])
      else
        match rfind '/' fname with
        | some folder_index =>
            -- A dot in a directory, or at the start of the last component, is no extension.
            if folder_index ≥ ext_index - 1 then (fname, [])
            else (fname.take ext_index, fname.drop ext_index)
        | none => (fname.take ext_index, fname.drop ext_index)

/-- `calc_filename`. -/
def calcFilename (filename : Filename) (index : ℕ) : Filename :=
  if index = 0 then filename
  else
    (splitByExtension filename).1 ++ '.' :: Nat.toDigits 10 index ++ (splitByExtension filename).2

theorem splitByExtension_append (fname : Filename) :
    (splitByExtension fname).1 ++ (splitByExtension fname).2 = fname := by
  unfold splitByExtension
  split
  · simp
  · split
    · simp
    · split
      · split
        · simp
        · simp
      · simp

/-- **Different files have different names.** -/
theorem calcFilename_injective (filename : Filename) : Injective (calcFilename filename) := by
  have hlen : ∀ i, i ≠ 0 → calcFilename filename i ≠ filename := by
    intro i hi h
    have hl := congrArg List.length h
    have hs := congrArg List.length (splitByExtension_append filename)
    rw [calcFilename, if_neg hi] at hl
    simp only [List.length_append, List.length_cons] at hl hs
    omega
  intro i j h
  by_cases hi : i = 0
  · subst hi
    by_contra hj
    exact hlen j (Ne.symm hj) (h.symm.trans (if_pos rfl))
  · by_cases hj : j = 0
    · subst hj
      exact absurd (h.trans (if_pos rfl)) (hlen i hi)
    · rw [calcFilename, calcFilename, if_neg hi, if_neg hj] at h
      have hd := List.append_cancel_left (List.append_cancel_right h)
      have hn := congrArg (Nat.ofDigitChars 10 · 0) (List.cons.inj hd).2
      simpa only [Nat.ofDigitChars_ten_toDigits] using hn

example : calcFilename "logs/a.log".toList 3 = "logs/a.3.log".toList := by decide

/-! ## The system -/

/-- What a call to the system comes to: a write that fails may have written a part. -/
inductive Answer
  | success
  | failure (written : ℕ)

/-- The files, and what changes of the sink. -/
structure SinkState where
  files : Filename → Option Bytes
  /-- What the calls that follow come to; the calls after these succeed. -/
  answers : List Answer
  /-- Whether there is a stream on the file of the sink. -/
  fd_ : Bool
  current_size_ : ℕ

/-- A function that may throw, and that the system takes part in. -/
abbrev Sys (α : Type) : Type := ExceptT (List Char) (StateM SinkState) α

/-- What a function comes to. -/
def exec {α : Type} (m : Sys α) (s : SinkState) : Except (List Char) α × SinkState := m.run.run s

/-- What the next call comes to. -/
def ask : Sys Answer := do
  let s ← get
  match s.answers with
  | [] => pure .success
  | a :: as =>
      set { s with answers := as }
      pure a

def succeeds : Sys Bool := do
  match ← ask with
  | .success => pure true
  | .failure _ => pure false

def setFile (fname : Filename) (content : Option Bytes) : Sys Unit :=
  modify fun s => { s with files := update s.files fname content }

/-- `path_exists`. -/
def pathExists (fname : Filename) : Sys Bool := do return ((← get).files fname).isSome

/-- `remove`, whose result is not used. -/
def remove (fname : Filename) : Sys Unit := do
  if ← succeeds then setFile fname none

/-- `rename`, of two names that differ. -/
def rename (filename1 filename2 : Filename) : Sys Bool := do
  match (← get).files filename1 with
  | none => pure false
  | some content =>
      if ← succeeds then
        setFile filename2 (some content)
        setFile filename1 none
        pure true
      else pure false

/-- `fopen` to write from the start. -/
def fopenTrunc (fname : Filename) : Sys Bool := do
  if ← succeeds then
    setFile fname (some [])
    pure true
  else pure false

/-- `fopen` to append. -/
def fopenAppend (fname : Filename) : Sys Bool := do
  if ← succeeds then
    setFile fname (some (((← get).files fname).getD []))
    pure true
  else pure false

/-! ## The file that is open -/

namespace FileHelper

/-- Before the file is opened to append, it may have to be emptied. -/
def truncated (fname : Filename) (truncate : Bool) : Sys Bool :=
  if truncate then fopenTrunc fname else pure true

/-- The loop of `open`, with `tries` rounds left. -/
def openLoop (fname : Filename) (truncate : Bool) : ℕ → Sys Unit
  | 0 => throw ("Failed opening file ".toList ++ fname ++ " for writing".toList)
  | tries + 1 => do
      if ← truncated fname truncate then
        if ← fopenAppend fname then modify fun s => { s with fd_ := true }
        else openLoop fname truncate tries
      else openLoop fname truncate tries

/-- `close`. -/
def close : Sys Unit := modify fun s => { s with fd_ := false }

/-- `open`. -/
def «open» (fname : Filename) (truncate : Bool) : Sys Unit := do
  close
  openLoop fname truncate 5

/-- `reopen`. -/
def reopen (fname : Filename) (truncate : Bool) : Sys Unit := do
  if fname = [] then throw "Failed re opening file - was not opened before".toList
  else «open» fname truncate

/-- `flush`. -/
def flush (fname : Filename) : Sys Unit := do
  if ← succeeds then pure ()
  else throw ("Failed flush to file ".toList ++ fname)

/-- `size`. -/
def size (fname : Filename) : Sys ℕ := do
  let s ← get
  if s.fd_ = false then throw ("Cannot use size() on closed file ".toList ++ fname)
  else if ← succeeds then pure ((s.files fname).getD []).length
  else throw "Failed getting file size from fd".toList

/-- `write`. -/
def write (fname : Filename) (buf : Bytes) : Sys Unit := do
  let s ← get
  if s.fd_ = false then pure ()
  else
    let content := (s.files fname).getD []
    match ← ask with
    | .success => setFile fname (some (content ++ buf))
    | .failure written =>
        setFile fname (some (content ++ buf.take written))
        if written < buf.length then throw ("Failed writing to file ".toList ++ fname)
        else pure ()

end FileHelper

/-! ## The sink -/

/-- `rotating_file_sink`, with what does not change. -/
structure RotatingFileSink where
  base_filename_ : Filename
  max_size_ : ℕ
  max_files_ : ℕ

namespace RotatingFileSink

open FileHelper

variable (c : RotatingFileSink)

/-- `calc_filename(base_filename_, index)`. -/
def name (index : ℕ) : Filename := calcFilename c.base_filename_ index

/-- `rename_file_`. -/
def renameFile (src target : Filename) : Sys Bool := do
  remove target
  rename src target

/-- What `rotate_` does when a file cannot be renamed. -/
def giveUp (src target : Filename) : Sys Unit := do
  -- The file is emptied anyway, so that it does not grow beyond its limit.
  reopen c.base_filename_ true
  modify fun s => { s with current_size_ := 0 }
  throw ("rotating_file_sink: failed renaming ".toList ++ src ++ " to ".toList ++ target)

/-- The loop of `rotate_`, from `i` on down. -/
def renames : ℕ → Sys Unit
  | 0 => pure ()
  | i + 1 => do
      if ← pathExists (c.name i) then
        if ← renameFile (c.name i) (c.name (i + 1)) then renames i
        -- The second try comes after a delay.
        else if ← renameFile (c.name i) (c.name (i + 1)) then renames i
        else c.giveUp (c.name i) (c.name (i + 1))
      else renames i

/-- `rotate_`. -/
def rotate : Sys Unit := do
  close
  c.renames c.max_files_
  reopen c.base_filename_ true

/-- The constructor. -/
def create (rotate_on_open : Bool) : Sys Unit := do
  if c.max_size_ = 0 then
    throw "rotating sink constructor: max_size arg cannot be zero".toList
  else if c.max_files_ > 200000 then
    throw "rotating sink constructor: max_files arg cannot exceed 200000".toList
  else
    «open» c.base_filename_ false
    let current_size ← size c.base_filename_
    modify fun s => { s with current_size_ := current_size }
    if rotate_on_open = true ∧ current_size > 0 then
      c.rotate
      modify fun s => { s with current_size_ := 0 }
    else pure ()

/-- `sink_it_` up to the write: the size that the file is going to have. -/
def makeRoom (formatted : Bytes) : Sys ℕ := do
  let s ← get
  let new_size := s.current_size_ + formatted.length
  if new_size > c.max_size_ then
    flush c.base_filename_
    let real_size ← size c.base_filename_
    if real_size > 0 then
      c.rotate
      pure formatted.length
    else pure new_size
  else pure new_size

/-- `sink_it_`, of a message that is formatted. -/
def sinkIt (formatted : Bytes) : Sys Unit := do
  let new_size ← c.makeRoom formatted
  write c.base_filename_ formatted
  modify fun s => { s with current_size_ := new_size }

/-- A call of a logger to the sink. -/
inductive SinkCall
  | log (formatted : Bytes)
  | flush

/-- `log` or `flush` of the sink. -/
def perform : SinkCall → Sys Unit
  | .log formatted => c.sinkIt formatted
  | .flush => flush c.base_filename_

/-- The bytes of a call. -/
def SinkCall.bytes : SinkCall → Bytes
  | .log formatted => formatted
  | .flush => []

/-- One call after the other.  The logger catches what is thrown. -/
def performAll (s : SinkState) (calls : List SinkCall) : SinkState :=
  calls.foldl (fun s call => (exec (c.perform call) s).2) s

/-- The sink is made, and if that is a success it is called. -/
def life (rotate_on_open : Bool) (s : SinkState) (calls : List SinkCall) : SinkState :=
  match exec (c.create rotate_on_open) s with
  | (.ok (), s') => c.performAll s' calls
  | (.error _, s') => s'

/-- What the files of the sink hold, by their index. -/
def slots (s : SinkState) : ℕ → Option Bytes := s.files ∘ c.name

/-- What they hold together, the oldest first. -/
def kept (s : SinkState) : Bytes := Slots.contents (c.slots s) (c.max_files_ + 1)

/-! ## Steps of a function -/

section Exec

variable {α β : Type} {s : SinkState}

@[simp] theorem exec_pure (a : α) : exec (pure a) s = (.ok a, s) := rfl

@[simp] theorem exec_throw (e : List Char) : exec (throw e : Sys α) s = (.error e, s) := rfl

@[simp] theorem exec_get : exec (get : Sys SinkState) s = (.ok s, s) := rfl

@[simp] theorem exec_modify (f : SinkState → SinkState) :
    exec (modify f : Sys Unit) s = (.ok (), f s) := rfl

/-- A function that throws is not continued. -/
theorem exec_bind (m : Sys α) (f : α → Sys β) :
    exec (m >>= f) s = match exec m s with
      | (.ok a, s') => exec (f a) s'
      | (.error e, s') => (.error e, s') := by
  have h : exec (m >>= f) s = (ExceptT.bindCont f (exec m s).1).run (exec m s).2 := rfl
  rw [h]
  obtain ⟨r, s'⟩ := exec m s
  cases r with
  | _ => rfl

theorem exec_ask : ∃ a as, exec ask s = (.ok a, { s with answers := as }) := by
  obtain ⟨files, answers, fd_, current_size_⟩ := s
  cases answers with
  | nil => exact ⟨.success, [], rfl⟩
  | cons a as => exact ⟨a, as, rfl⟩

theorem exec_succeeds : ∃ b as, exec succeeds s = (.ok b, { s with answers := as }) := by
  obtain ⟨a, as, h⟩ := exec_ask (s := s)
  rw [succeeds, exec_bind, h]
  cases a with
  | success => exact ⟨true, as, rfl⟩
  | failure => exact ⟨false, as, rfl⟩

end Exec

end RotatingFileSink

end CameraService.Spdlog
