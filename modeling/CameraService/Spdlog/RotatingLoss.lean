import CameraService.Spdlog.RotatingFile

/-!
# What the files of the log can lose

Whatever the calls to the system come to, the functions of `rotating_file_sink` lose lines,
but never mix them up.  Each function either leaves less in the files, or adds to the end
what it was given, or a part of that.  Other files are not touched.

## Main definitions

* `RotatingFileSink.Lossy`, `RotatingFileSink.Gains` — what becomes of the files.
* `RotatingFileSink.Loses` — a function that adds nothing.
* `RotatingFileSink.performAll_gains` — all calls of a logger.
-/

namespace CameraService.Spdlog

open Function

namespace RotatingFileSink

open FileHelper

variable {α β : Type} {c : RotatingFileSink} {s s' s'' : SinkState} {i : ℕ}

/-- The names of the files. -/
theorem name_injective : Injective c.name := calcFilename_injective c.base_filename_

theorem name_zero : c.name 0 = c.base_filename_ := by simp [name, calcFilename]

/-- The files of the sink hold no more than they did, and the others what they did. -/
structure Lossy (c : RotatingFileSink) (s s' : SinkState) : Prop where
  kept : (c.kept s').Sublist (c.kept s)
  others : ∀ fname, (∀ i ≤ c.max_files_, fname ≠ c.name i) → s'.files fname = s.files fname

theorem Lossy.of_files (h : s'.files = s.files) : c.Lossy s s' where
  kept := by
    rw [RotatingFileSink.kept, RotatingFileSink.kept, slots, slots, h]
  others := fun _ _ => by rw [h]

theorem Lossy.trans (h : c.Lossy s s') (h' : c.Lossy s' s'') : c.Lossy s s'' where
  kept := h'.kept.trans h.kept
  others := fun fname hn => (h'.others fname hn).trans (h.others fname hn)

/-- A change to one file of the sink. -/
theorem slots_update {content : Option Bytes}
    (h : s'.files = update s.files (c.name i) content) :
    c.slots s' = update (c.slots s) i content := by
  rw [slots, h, update_comp_eq_of_injective _ name_injective, slots]

theorem others_update {content : Option Bytes} (hi : i ≤ c.max_files_)
    (h : s'.files = update s.files (c.name i) content) (fname : Filename)
    (hn : ∀ i ≤ c.max_files_, fname ≠ c.name i) : s'.files fname = s.files fname := by
  rw [h, update_of_ne (hn i hi)]

/-- A file that holds less. -/
theorem Lossy.of_update {content : Option Bytes} (hi : i ≤ c.max_files_)
    (h : s'.files = update s.files (c.name i) content)
    (hsub : (content.getD []).Sublist ((s.files (c.name i)).getD [])) : c.Lossy s s' where
  kept := by
    rw [RotatingFileSink.kept, slots_update h]
    exact Slots.contents_update_sublist hsub
  others := others_update hi h

/-- What renaming a file to the next name does. -/
theorem slots_rename
    (h : s'.files = update (update s.files (c.name (i + 1)) (s.files (c.name i))) (c.name i) none) :
    c.slots s' = update (update (c.slots s) (i + 1) (c.slots s i)) i none := by
  rw [slots, h, update_comp_eq_of_injective _ name_injective,
    update_comp_eq_of_injective _ name_injective, slots, comp_apply]

theorem Lossy.of_rename (hi : i + 1 ≤ c.max_files_)
    (h : s'.files = update (update s.files (c.name (i + 1)) (s.files (c.name i))) (c.name i) none) :
    c.Lossy s s' where
  kept := by
    rw [RotatingFileSink.kept, slots_rename h]
    exact Slots.contents_move_sublist (by omega)
  others := by
    intro fname hn
    rw [h, update_of_ne (hn i (by omega)), update_of_ne (hn (i + 1) hi)]

/-- Whatever the system does, the function adds nothing. -/
def Loses (c : RotatingFileSink) (m : Sys α) : Prop := ∀ s, c.Lossy s (exec m s).2

/-! ## Functions that add nothing -/

theorem loses_bind {m : Sys α} {f : α → Sys β} (hm : c.Loses m) (hf : ∀ a, c.Loses (f a)) :
    c.Loses (m >>= f) := by
  intro s
  have h := hm s
  rw [exec_bind]
  split
  · rename_i a s' he
    rw [he] at h
    exact h.trans (hf a s')
  · rename_i e s' he
    rwa [he] at h

theorem loses_pure (a : α) : c.Loses (pure a) := fun _ => .of_files rfl

theorem loses_throw (e : List Char) : c.Loses (throw e : Sys α) := fun _ => .of_files rfl

theorem loses_get : c.Loses (get : Sys SinkState) := fun _ => .of_files rfl

theorem loses_modify {f : SinkState → SinkState} (h : ∀ s, (f s).files = s.files) :
    c.Loses (modify f : Sys Unit) := fun s => .of_files (h s)

theorem loses_succeeds : c.Loses succeeds := by
  intro s
  obtain ⟨b, as, h⟩ := exec_succeeds (s := s)
  rw [h]
  exact .of_files rfl

theorem loses_ite {p : Prop} [Decidable p] {m m' : Sys α} (hm : c.Loses m) (hm' : c.Loses m') :
    c.Loses (if p then m else m') := by
  split
  · exact hm
  · exact hm'

theorem loses_setFile {content : Option Bytes} (hi : i ≤ c.max_files_)
    (hc : content.getD [] = []) : c.Loses (setFile (c.name i) content) := by
  intro s
  refine .of_update hi rfl ?_
  rw [hc]
  exact List.nil_sublist _

theorem loses_remove (hi : i ≤ c.max_files_) : c.Loses (remove (c.name i)) :=
  loses_bind loses_succeeds fun _ => loses_ite (loses_setFile hi rfl) (loses_pure ())

theorem loses_rename (hi : i + 1 ≤ c.max_files_) :
    c.Loses (rename (c.name i) (c.name (i + 1))) := by
  intro s
  rw [rename, exec_bind, exec_get]
  dsimp only
  cases hf : s.files (c.name i) with
  | none => exact .of_files rfl
  | some content =>
      obtain ⟨b, as, hs⟩ := exec_succeeds (s := s)
      dsimp only
      rw [exec_bind, hs]
      cases b with
      | false => exact .of_files rfl
      | true => exact .of_rename hi (by rw [hf]; rfl)

theorem loses_fopenTrunc : c.Loses (fopenTrunc c.base_filename_) := by
  refine loses_bind loses_succeeds fun _ => loses_ite (loses_bind ?_ fun _ => loses_pure _)
    (loses_pure _)
  rw [← name_zero]
  exact loses_setFile (Nat.zero_le _) rfl

theorem loses_fopenAppend : c.Loses (fopenAppend c.base_filename_) := by
  refine loses_bind loses_succeeds fun _ => loses_ite ?_ (loses_pure _)
  intro s
  refine .of_update (i := 0) (Nat.zero_le _) (by rw [name_zero]; rfl) ?_
  rw [name_zero]
  exact .refl _

theorem loses_openLoop (truncate : Bool) (tries : ℕ) :
    c.Loses (openLoop c.base_filename_ truncate tries) := by
  induction tries with
  | zero => exact loses_throw _
  | succ tries ih =>
      have htruncated : c.Loses (truncated c.base_filename_ truncate) :=
        loses_ite loses_fopenTrunc (loses_pure true)
      refine loses_bind htruncated fun _ => loses_ite ?_ ih
      refine loses_bind loses_fopenAppend fun _ => ?_
      exact loses_ite (loses_modify fun _ => rfl) ih

theorem loses_close : c.Loses close := loses_modify fun _ => rfl

theorem loses_open (truncate : Bool) : c.Loses («open» c.base_filename_ truncate) :=
  loses_bind loses_close fun _ => loses_openLoop truncate 5

theorem loses_reopen (truncate : Bool) : c.Loses (reopen c.base_filename_ truncate) :=
  loses_ite (loses_throw _) (loses_open truncate)

theorem loses_flush : c.Loses (flush c.base_filename_) := by
  refine loses_bind loses_succeeds fun _ => ?_
  exact loses_ite (loses_pure ()) (loses_throw _)

theorem loses_size : c.Loses (size c.base_filename_) := by
  refine loses_bind loses_get fun s => loses_ite (loses_throw _) ?_
  refine loses_bind loses_succeeds fun _ => ?_
  exact loses_ite (loses_pure _) (loses_throw _)

theorem loses_renameFile (hi : i + 1 ≤ c.max_files_) :
    c.Loses (renameFile (c.name i) (c.name (i + 1))) :=
  loses_bind (loses_remove hi) fun _ => loses_rename hi

theorem loses_giveUp (src target : Filename) : c.Loses (c.giveUp src target) :=
  loses_bind (loses_reopen true) fun _ =>
    loses_bind (loses_modify fun _ => rfl) fun _ => loses_throw _

theorem loses_renames (hi : i ≤ c.max_files_) : c.Loses (c.renames i) := by
  induction i with
  | zero => exact loses_pure ()
  | succ i ih =>
      have hrest := ih (by omega)
      refine loses_bind (loses_bind loses_get fun _ => loses_pure _) fun _ => ?_
      refine loses_ite ?_ hrest
      refine loses_bind (loses_renameFile hi) fun _ => loses_ite hrest ?_
      exact loses_bind (loses_renameFile hi) fun _ => loses_ite hrest (loses_giveUp _ _)

theorem loses_rotate : c.Loses c.rotate :=
  loses_bind loses_close fun _ =>
    loses_bind (loses_renames (Nat.le_refl _)) fun _ => loses_reopen true

theorem loses_makeRoom (formatted : Bytes) : c.Loses (c.makeRoom formatted) := by
  refine loses_bind loses_get fun s => loses_ite ?_ (loses_pure _)
  refine loses_bind loses_flush fun _ => loses_bind loses_size fun _ => ?_
  exact loses_ite (loses_bind loses_rotate fun _ => loses_pure _) (loses_pure _)

theorem loses_create (rotate_on_open : Bool) : c.Loses (c.create rotate_on_open) := by
  refine loses_ite (loses_throw _) (loses_ite (loses_throw _) ?_)
  refine loses_bind (loses_open false) fun _ => loses_bind loses_size fun _ => ?_
  refine loses_bind (loses_modify fun _ => rfl) fun _ => ?_
  exact loses_ite (loses_bind loses_rotate fun _ => loses_modify fun _ => rfl) (loses_pure ())

/-! ## What is added -/

/-- Appending to the file of the sink. -/
theorem kept_append {x buf : Bytes} (hx : (s.files c.base_filename_).getD [] = x)
    (h : s'.files = update s.files c.base_filename_ (some (x ++ buf))) :
    c.kept s' = c.kept s ++ buf := by
  rw [← name_zero] at h
  rw [kept, slots_update h, Slots.contents_append, kept]
  rwa [slots, comp_apply, name_zero]

/-- Opening the file of the sink to append. -/
theorem kept_open
    (h : s'.files = update s.files c.base_filename_ (some ((s.files c.base_filename_).getD []))) :
    c.kept s' = c.kept s := by
  have hnil : s'.files = update s.files c.base_filename_
      (some ((s.files c.base_filename_).getD [] ++ [])) := by rw [List.append_nil, h]
  rw [kept_append rfl hnil, List.append_nil]

/-- The files of the sink hold no more than they did and what is new, and the others what
they did. -/
structure Gains (c : RotatingFileSink) (buf : Bytes) (s s' : SinkState) : Prop where
  kept : (c.kept s').Sublist (c.kept s ++ buf)
  others : ∀ fname, (∀ i ≤ c.max_files_, fname ≠ c.name i) → s'.files fname = s.files fname

theorem Lossy.gains {buf : Bytes} (h : c.Lossy s s') : c.Gains buf s s' :=
  ⟨h.kept.trans (List.sublist_append_left _ _), h.others⟩

theorem Lossy.trans_gains {buf : Bytes} (h : c.Lossy s s') (h' : c.Gains buf s' s'') :
    c.Gains buf s s'' where
  kept := h'.kept.trans (h.kept.append (.refl _))
  others := fun fname hn => (h'.others fname hn).trans (h.others fname hn)

theorem Gains.trans_lossy {buf : Bytes} (h : c.Gains buf s s') (h' : c.Lossy s' s'') :
    c.Gains buf s s'' where
  kept := h'.kept.trans h.kept
  others := fun fname hn => (h'.others fname hn).trans (h.others fname hn)

theorem Gains.of_append {x buf buf' : Bytes} (hx : (s.files c.base_filename_).getD [] = x)
    (hsub : buf'.Sublist buf)
    (h : s'.files = update s.files c.base_filename_ (some (x ++ buf'))) : c.Gains buf s s' where
  kept := kept_append hx h ▸ (List.Sublist.refl _).append hsub
  others := others_update (i := 0) (Nat.zero_le _) (by rw [name_zero]; exact h)

theorem write_gains (buf : Bytes) (s : SinkState) :
    c.Gains buf s (exec (write c.base_filename_ buf) s).2 := by
  rw [write, exec_bind, exec_get]
  dsimp only
  split
  · exact (Lossy.of_files rfl).gains
  · obtain ⟨a, as, ha⟩ := exec_ask (s := s)
    rw [exec_bind, ha]
    cases a with
    | success => exact .of_append rfl (.refl _) rfl
    | failure written =>
        have hpart : ∀ s', s'.files = update s.files c.base_filename_
            (some ((s.files c.base_filename_).getD [] ++ buf.take written)) → c.Gains buf s s' :=
          fun s' h => .of_append rfl (List.take_sublist _ _) h
        dsimp only
        rw [exec_bind]
        split
        · rename_i u s₁ hs₁
          cases hs₁
          split
          · exact hpart _ rfl
          · exact hpart _ rfl
        · rename_i hs₁
          cases hs₁

/-- **One line**: whatever the system does, the files hold no more than they did and the
line, or a part of it. -/
theorem sinkIt_gains (formatted : Bytes) (s : SinkState) :
    c.Gains formatted s (exec (c.sinkIt formatted) s).2 := by
  have hroom : c.Lossy s (exec (c.makeRoom formatted) s).2 := loses_makeRoom formatted s
  rw [sinkIt, exec_bind]
  split
  · rename_i new_size s₁ hs₁
    rw [hs₁] at hroom
    have hwrite : c.Gains formatted s₁ (exec (write c.base_filename_ formatted) s₁).2 :=
      write_gains formatted s₁
    rw [exec_bind]
    split
    · rename_i u s₂ hs₂
      rw [hs₂] at hwrite
      exact hroom.trans_gains (hwrite.trans_lossy (.of_files rfl))
    · rename_i e s₂ hs₂
      rw [hs₂] at hwrite
      exact hroom.trans_gains hwrite
  · rename_i e s₁ hs₁
    rw [hs₁] at hroom
    exact hroom.gains

theorem perform_gains (call : SinkCall) (s : SinkState) :
    c.Gains call.bytes s (exec (c.perform call) s).2 := by
  cases call with
  | log formatted => exact sinkIt_gains formatted s
  | flush => exact (loses_flush s).gains

/-- **All calls.** -/
theorem performAll_gains (calls : List SinkCall) (s : SinkState) :
    c.Gains (calls.flatMap SinkCall.bytes) s (c.performAll s calls) := by
  induction calls generalizing s with
  | nil => exact (Lossy.of_files rfl).gains
  | cons call calls ih =>
      have h := perform_gains (c := c) call s
      have hrest := ih (exec (c.perform call) s).2
      refine ⟨hrest.kept.trans ?_, fun fname hn => ?_⟩
      · rw [List.flatMap_cons, ← List.append_assoc]
        exact h.kept.append (.refl _)
      · exact (hrest.others fname hn).trans (h.others fname hn)

end RotatingFileSink

end CameraService.Spdlog
