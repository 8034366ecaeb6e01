import CameraService.Spdlog.RotatingLoss

/-!
# What the files of the log keep

While no call to the system fails, the files hold the end of all that was written: a
rotation loses at most what the oldest file held, since every other file is renamed to a
name that is free.  The file that is written does not grow beyond its limit, but for a
line that is longer.

## Main definitions

* `RotatingFileSink.Ready` — a sink none of whose calls to the system fails.
* `RotatingFileSink.exec_rotate_of_fine`, `RotatingFileSink.exec_sinkIt_of_ready` — one
  rotation, and one line.
* `RotatingFileSink.life_kept` — what the files hold, whatever happens and if nothing fails.
-/

namespace CameraService.Spdlog

open Function

namespace RotatingFileSink

open FileHelper

variable {c : RotatingFileSink} {s : SinkState} {i : ℕ}

theorem exec_ask_of_fine (hs : s.answers = []) : exec ask s = (.ok .success, s) := by
  obtain ⟨files, answers, fd_, current_size_⟩ := s
  cases hs
  rfl

theorem exec_succeeds_of_fine (hs : s.answers = []) : exec succeeds s = (.ok true, s) := by
  rw [succeeds, exec_bind, exec_ask_of_fine hs]
  rfl

theorem exec_renameFile_of_fine (hs : s.answers = []) {src target : Filename} (hne : src ≠ target)
    {content : Bytes} (hf : s.files src = some content) :
    exec (renameFile src target) s = (.ok true,
      { s with files := update (update s.files target (some content)) src none }) := by
  let s₁ : SinkState := { s with files := update s.files target none }
  have hremove : exec (remove target) s = (.ok (), s₁) := by
    rw [remove, exec_bind, exec_succeeds_of_fine hs]
    rfl
  have hsrc : s₁.files src = some content := (update_of_ne hne _ _).trans hf
  have hanswers : s₁.answers = [] := hs
  rw [renameFile, exec_bind, hremove]
  dsimp only
  rw [rename, exec_bind, exec_get]
  dsimp only
  rw [hsrc]
  dsimp only
  rw [exec_bind, exec_succeeds_of_fine hanswers]
  change (_, ({ s with
    files := update (update (update s.files target none) target (some content)) src none } :
      SinkState)) = _
  rw [update_idem]

theorem exec_fopenAppend_of_fine (hs : s.answers = []) (fname : Filename) :
    exec (fopenAppend fname) s = (.ok true,
      { s with files := update s.files fname (some ((s.files fname).getD [])) }) := by
  rw [fopenAppend, exec_bind, exec_succeeds_of_fine hs]
  rfl

theorem exec_truncated_of_fine (hs : s.answers = []) (fname : Filename) :
    exec (truncated fname true) s =
      (.ok true, { s with files := update s.files fname (some []) }) := by
  rw [truncated, if_pos rfl, fopenTrunc, exec_bind, exec_succeeds_of_fine hs]
  rfl

theorem exec_open_of_fine (hs : s.answers = []) (fname : Filename) (truncate : Bool) :
    exec («open» fname truncate) s = (.ok (), { s with
      files := update s.files fname
        (some (if truncate then [] else (s.files fname).getD [])), fd_ := true }) := by
  rw [«open», exec_bind, close, exec_modify]
  dsimp only
  rw [openLoop, exec_bind]
  cases truncate with
  | false =>
      rw [truncated, if_neg (by decide), exec_pure]
      dsimp only
      rw [if_pos rfl, exec_bind, exec_fopenAppend_of_fine (by exact hs)]
      rfl
  | true =>
      rw [exec_truncated_of_fine (by exact hs)]
      dsimp only
      rw [if_pos rfl, exec_bind, exec_fopenAppend_of_fine (by exact hs)]
      dsimp only
      rw [if_pos rfl, exec_modify]
      dsimp only
      rw [update_self, update_idem]
      rfl

theorem exec_reopen_of_fine (hs : s.answers = []) {fname : Filename} (hne : fname ≠ []) :
    exec (reopen fname true) s =
      (.ok (), { s with files := update s.files fname (some []), fd_ := true }) := by
  rw [reopen, if_neg hne, exec_open_of_fine hs, if_pos rfl]

theorem exec_flush_of_fine (hs : s.answers = []) (fname : Filename) :
    exec (flush fname) s = (.ok (), s) := by
  rw [flush, exec_bind, exec_succeeds_of_fine hs]
  rfl

theorem exec_size_of_fine (hs : s.answers = []) (hfd : s.fd_ = true) (fname : Filename) :
    exec (size fname) s = (.ok ((s.files fname).getD []).length, s) := by
  rw [size, exec_bind, exec_get]
  dsimp only
  rw [if_neg (by simp [hfd]), exec_bind, exec_succeeds_of_fine hs]
  rfl

theorem exec_write_of_fine (hs : s.answers = []) (hfd : s.fd_ = true) (fname : Filename)
    (buf : Bytes) : exec (write fname buf) s = (.ok (), { s with
      files := update s.files fname (some ((s.files fname).getD [] ++ buf)) }) := by
  rw [write, exec_bind, exec_get]
  dsimp only
  rw [if_neg (by simp [hfd]), exec_bind, exec_ask_of_fine hs]
  rfl

/-- The loop when the file before is there. -/
theorem exec_renames_of_some (hs : s.answers = []) {content : Bytes}
    (hf : s.files (c.name i) = some content) :
    exec (c.renames (i + 1)) s = exec (c.renames i) { s with
      files := update (update s.files (c.name (i + 1)) (some content)) (c.name i) none } := by
  have hne : c.name i ≠ c.name (i + 1) := name_injective.ne (by omega)
  rw [renames, exec_bind, pathExists, exec_bind, exec_get]
  dsimp only
  rw [exec_pure]
  dsimp only
  rw [if_pos (by simp [hf]), exec_bind, exec_renameFile_of_fine hs hne hf]
  rfl

theorem exec_renames_of_none (hf : s.files (c.name i) = none) :
    exec (c.renames (i + 1)) s = exec (c.renames i) s := by
  rw [renames, exec_bind, pathExists, exec_bind, exec_get]
  dsimp only
  rw [exec_pure]
  dsimp only
  rw [if_neg (by simp [hf])]

/-- **The loop** keeps what the files hold, from where a name is free. -/
theorem exec_renames_of_fine (hs : s.answers = []) (hi : i ≤ c.max_files_)
    (hfree : s.files (c.name i) = none) :
    ∃ s', exec (c.renames i) s = (.ok (), s') ∧ s'.answers = [] ∧ c.kept s' = c.kept s ∧
      s'.files (c.name 0) = none := by
  induction i generalizing s with
  | zero => exact ⟨s, rfl, hs, rfl, hfree⟩
  | succ i ih =>
      cases hf : s.files (c.name i) with
      | none =>
          rw [exec_renames_of_none hf]
          exact ih hs (by omega) hf
      | some content =>
          rw [exec_renames_of_some hs hf]
          obtain ⟨s', hs', hanswers, hkept, hzero⟩ := ih (s := { s with
            files := update (update s.files (c.name (i + 1)) (some content)) (c.name i) none })
            hs (by omega) (update_self _ _ _)
          refine ⟨s', hs', hanswers, hkept.trans ?_, hzero⟩
          rw [kept, slots_rename (by rw [hf]), Slots.contents_move (by omega) hfree, kept]

/-- The loop loses at most what the oldest file held. -/
theorem exec_renames_of_pos (hs : s.answers = []) {n : ℕ} (hn : c.max_files_ = n + 1) :
    ∃ s', exec (c.renames c.max_files_) s = (.ok (), s') ∧ s'.answers = [] ∧
      (c.kept s').IsSuffix (c.kept s) ∧ s'.files (c.name 0) = none := by
  rw [hn]
  cases hf : s.files (c.name n) with
  | none =>
      rw [exec_renames_of_none hf]
      obtain ⟨s', hs', hanswers, hkept, hzero⟩ := exec_renames_of_fine hs (by omega) hf
      exact ⟨s', hs', hanswers, hkept ▸ List.suffix_refl _, hzero⟩
  | some content =>
      rw [exec_renames_of_some hs hf]
      obtain ⟨s', hs', hanswers, hkept, hzero⟩ := exec_renames_of_fine (c := c) (i := n)
        (s := { s with
          files := update (update s.files (c.name (n + 1)) (some content)) (c.name n) none })
        hs (by omega) (update_self _ _ _)
      refine ⟨s', hs', hanswers, ?_, hzero⟩
      rw [hkept, kept, slots_rename (by rw [hf]), kept, hn]
      exact Slots.contents_move_last

/-- **Rotating** loses at most what the oldest file held. -/
theorem exec_rotate_of_fine (hs : s.answers = []) (hne : c.base_filename_ ≠ []) :
    ∃ s', exec c.rotate s = (.ok (), s') ∧ s'.answers = [] ∧ s'.fd_ = true ∧
      s'.files c.base_filename_ = some [] ∧ (c.kept s').IsSuffix (c.kept s) := by
  rw [rotate, exec_bind, close, exec_modify]
  dsimp only
  rw [exec_bind]
  cases hn : c.max_files_ with
  | zero =>
      rw [renames, exec_pure]
      dsimp only
      rw [exec_reopen_of_fine (by exact hs) hne]
      refine ⟨_, rfl, hs, rfl, update_self _ _ _, ?_⟩
      rw [kept, slots_update (i := 0) (by rw [name_zero]), hn]
      simp [Slots.contents]
  | succ n =>
      obtain ⟨s₁, hs₁, hanswers, hkept, hzero⟩ :=
        exec_renames_of_pos (c := c) (s := { s with fd_ := false }) hs hn
      rw [← hn, hs₁]
      dsimp only
      rw [exec_reopen_of_fine hanswers hne]
      refine ⟨_, rfl, hanswers, rfl, update_self _ _ _, ?_⟩
      rw [name_zero] at hzero
      rw [kept_open (s := s₁) (by rw [hzero]; rfl)]
      exact hkept

/-- The sink is open, and knows the size of its file. -/
structure Ready (c : RotatingFileSink) (s : SinkState) : Prop where
  answers : s.answers = []
  fd : s.fd_ = true
  size : ((s.files c.base_filename_).getD []).length = s.current_size_

/-- The line fits into the file, or the file is empty. -/
theorem exec_makeRoom_of_ready (hs : c.Ready s) (hne : c.base_filename_ ≠ []) (line : Bytes) :
    ∃ new_size s' x, exec (c.makeRoom line) s = (.ok new_size, s') ∧ s'.answers = [] ∧
      s'.fd_ = true ∧ (s'.files c.base_filename_).getD [] = x ∧
      new_size = x.length + line.length ∧ (c.kept s').IsSuffix (c.kept s) ∧
      (new_size ≤ c.max_size_ ∨ x = []) := by
  rw [makeRoom, exec_bind, exec_get]
  dsimp only
  split
  · rw [exec_bind, exec_flush_of_fine hs.answers]
    dsimp only
    rw [exec_bind, exec_size_of_fine hs.answers hs.fd]
    dsimp only
    split
    · obtain ⟨s₁, hs₁, hanswers, hfd, hfile, hkept⟩ := exec_rotate_of_fine hs.answers hne
      rw [exec_bind, hs₁]
      refine ⟨_, s₁, [], rfl, hanswers, hfd, by rw [hfile]; rfl, ?_, hkept, Or.inr rfl⟩
      simp
    · rename_i hempty
      have hx : (s.files c.base_filename_).getD [] = [] :=
        List.length_eq_zero_iff.mp (by omega)
      refine ⟨_, s, [], rfl, hs.answers, hs.fd, hx, ?_, List.suffix_refl _, Or.inr rfl⟩
      rw [← hs.size, hx]
  · rename_i hle
    refine ⟨_, s, _, rfl, hs.answers, hs.fd, rfl, ?_, List.suffix_refl _, Or.inl (by omega)⟩
    rw [← hs.size]

/-- **One line**, when no call fails. -/
theorem exec_sinkIt_of_ready (hs : c.Ready s) (hne : c.base_filename_ ≠ []) (line : Bytes) :
    ∃ s', exec (c.sinkIt line) s = (.ok (), s') ∧ c.Ready s' ∧
      (c.kept s').IsSuffix (c.kept s ++ line) ∧
      (((s'.files c.base_filename_).getD []).length ≤ c.max_size_ ∨
        s'.files c.base_filename_ = some line) := by
  obtain ⟨new_size, s₁, x, hs₁, hanswers, hfd, hx, hsize, hkept, hroom⟩ :=
    exec_makeRoom_of_ready hs hne line
  rw [sinkIt, exec_bind, hs₁]
  dsimp only
  rw [exec_bind, exec_write_of_fine hanswers hfd]
  refine ⟨_, rfl, ⟨hanswers, hfd, ?_⟩, ?_, ?_⟩
  · simp [hx, hsize]
  · rw [kept_append (s := s₁) hx (by rw [hx])]
    exact List.suffix_append_self_iff.mpr hkept
  · dsimp only
    rw [update_self, hx]
    rcases hroom with hroom | rfl
    · left
      rw [Option.getD_some, List.length_append]
      omega
    · exact Or.inr rfl

/-- **The constructor**, when no call fails. -/
theorem exec_create_of_fine (hs : s.answers = []) (hne : c.base_filename_ ≠ [])
    (hsize : 0 < c.max_size_) (hfiles : c.max_files_ ≤ 200000) (rotate_on_open : Bool) :
    ∃ s', exec (c.create rotate_on_open) s = (.ok (), s') ∧ c.Ready s' ∧
      (c.kept s').IsSuffix (c.kept s) := by
  let s₁ : SinkState := { s with
    files := update s.files c.base_filename_ (some ((s.files c.base_filename_).getD []))
    fd_ := true }
  have hopen : exec («open» c.base_filename_ false) s = (.ok (), s₁) := exec_open_of_fine hs _ _
  have hkept : c.kept s₁ = c.kept s := kept_open rfl
  let s₂ : SinkState := { s₁ with current_size_ := ((s₁.files c.base_filename_).getD []).length }
  have hkept₂ : c.kept s₂ = c.kept s := hkept
  rw [create, if_neg (by omega), if_neg (by omega), exec_bind, hopen]
  dsimp only
  rw [exec_bind, exec_size_of_fine (s := s₁) hs rfl]
  dsimp only
  rw [exec_bind, exec_modify]
  dsimp only
  split
  · obtain ⟨s₃, hs₃, hanswers, hfd, hfile, hrot⟩ :=
      exec_rotate_of_fine (c := c) (s := s₂) hs hne
    rw [exec_bind, hs₃]
    refine ⟨_, rfl, ⟨hanswers, hfd, ?_⟩, hkept₂ ▸ hrot⟩
    dsimp only
    rw [hfile]
    rfl
  · exact ⟨s₂, rfl, ⟨hs, rfl, rfl⟩, hkept₂ ▸ List.suffix_refl _⟩

/-- The limits that the constructor checks. -/
theorem limits_of_create {s' : SinkState} {rotate_on_open : Bool}
    (h : exec (c.create rotate_on_open) s = (.ok (), s')) :
    0 < c.max_size_ ∧ c.max_files_ ≤ 200000 := by
  by_cases hsize : c.max_size_ = 0
  · rw [create, if_pos hsize, exec_throw] at h
    cases h
  · by_cases hfiles : c.max_files_ > 200000
    · rw [create, if_neg hsize, if_pos hfiles, exec_throw] at h
      cases h
    · exact ⟨by omega, by omega⟩

/-- **All calls**, when no call to the system fails. -/
theorem performAll_of_ready (hs : c.Ready s) (hne : c.base_filename_ ≠ []) (calls : List SinkCall) :
    c.Ready (c.performAll s calls) ∧
      (c.kept (c.performAll s calls)).IsSuffix (c.kept s ++ calls.flatMap SinkCall.bytes) ∧
      ((∃ line, .log line ∈ calls) →
        (((c.performAll s calls).files c.base_filename_).getD []).length ≤ c.max_size_ ∨
          ∃ line, .log line ∈ calls ∧
            (c.performAll s calls).files c.base_filename_ = some line) := by
  induction calls using List.reverseRecOn with
  | nil => exact ⟨hs, by simp [performAll], fun h => by simp at h⟩
  | append_singleton calls call ih =>
      obtain ⟨hready, hkept, hlast⟩ := ih
      have hall : c.performAll s (calls ++ [call]) =
          (exec (c.perform call) (c.performAll s calls)).2 := by
        rw [performAll, List.foldl_append]
        rfl
      cases call with
      | flush =>
          have hsame : c.performAll s (calls ++ [.flush]) = c.performAll s calls := by
            rw [hall, perform, exec_flush_of_fine hready.answers]
          rw [hsame, List.flatMap_append]
          refine ⟨hready, by simpa [SinkCall.bytes] using hkept, fun h => ?_⟩
          simpa using hlast (by simpa using h)
      | log line =>
          obtain ⟨s', hs', hready', hkept', hfile⟩ := exec_sinkIt_of_ready hready hne line
          rw [hall, perform, hs']
          refine ⟨hready', hkept'.trans ?_, fun _ => ?_⟩
          · rw [List.flatMap_append, ← List.append_assoc, List.flatMap_singleton]
            exact List.suffix_append_self_iff.mpr hkept
          · rcases hfile with hfile | hfile
            · exact Or.inl hfile
            · exact Or.inr ⟨line, by simp, hfile⟩

/-! ## Everything together -/

/-- **What the files hold.**  Whatever the calls to the system come to, the files hold some
of what they held and of the lines, in order, and no other file is touched.  When no call
fails they hold the end of it, and the file that is written is not too long, or holds one
line. -/
theorem life_kept (rotate_on_open : Bool) (s : SinkState) (calls : List SinkCall) :
    (c.kept (c.life rotate_on_open s calls)).Sublist (c.kept s ++ calls.flatMap SinkCall.bytes) ∧
      (∀ fname, (∀ i ≤ c.max_files_, fname ≠ c.name i) →
        (c.life rotate_on_open s calls).files fname = s.files fname) ∧
      (s.answers = [] → c.base_filename_ ≠ [] → 0 < c.max_size_ → c.max_files_ ≤ 200000 →
        (c.kept (c.life rotate_on_open s calls)).IsSuffix
            (c.kept s ++ calls.flatMap SinkCall.bytes) ∧
          ((∃ line, .log line ∈ calls) →
            (((c.life rotate_on_open s calls).files c.base_filename_).getD []).length ≤
                c.max_size_ ∨
              ∃ line, .log line ∈ calls ∧
                (c.life rotate_on_open s calls).files c.base_filename_ = some line)) := by
  have hcreate : c.Lossy s (exec (c.create rotate_on_open) s).2 := loses_create rotate_on_open s
  have hgains : c.Gains (calls.flatMap SinkCall.bytes) s (c.life rotate_on_open s calls) := by
    unfold life
    split
    · rename_i s₁ hs₁
      rw [hs₁] at hcreate
      exact hcreate.trans_gains (performAll_gains calls s₁)
    · rename_i e s₁ hs₁
      rw [hs₁] at hcreate
      exact hcreate.gains
  refine ⟨hgains.kept, hgains.others, fun hs hne hsize hfiles => ?_⟩
  obtain ⟨s₁, hs₁, hready, hkept⟩ := exec_create_of_fine hs hne hsize hfiles rotate_on_open
  obtain ⟨-, hall, hfile⟩ := performAll_of_ready hready hne calls
  rw [life, hs₁]
  exact ⟨hall.trans (List.suffix_append_self_iff.mpr hkept), hfile⟩

/-- Three lines, of which two files of four bytes do not hold the first. -/
theorem life_kept_rotated :
    let c : RotatingFileSink := ⟨['l', '.', 't'], 4, 1⟩
    let s : SinkState := ⟨fun _ => none, [], false, 0⟩
    c.kept (c.life false s [.log [1, 2, 3], .log [4, 5, 6], .log [7, 8]]) = [4, 5, 6, 7, 8] ∧
      (c.kept (c.life false s [.log [1, 2, 3], .log [4, 5, 6], .log [7, 8]])).IsSuffix
        [1, 2, 3, 4, 5, 6, 7, 8] := by
  intro c s
  exact ⟨by decide +kernel, ((life_kept false s _).2.2 rfl (by decide) (by decide) (by decide)).1⟩

end RotatingFileSink

end CameraService.Spdlog
