import CameraService.BuffStore
import CameraService.Lib.Respondents
import Mathlib.Algebra.Order.BigOperators.Group.List
import Mathlib.Algebra.Order.Ring.Nat

/-!
# What buffers hold

The data of a `buff_t` is the first `data_size_t_` bytes of its block.  `ensure_size` is to
keep it when it moves to a larger block, and `copy_from` at an offset is to keep what is
in front of the offset.  Neither does.  `free_buff` resets the length of the data on the
way, and `copy_mem` does not ask for the bytes to be copied.

## Main definitions

* `Reached` — the states of a program's buffers.
* `Buff.Preserved` — what `ensure_size` is to keep.
* `Buffers.KeepsPrefix`, `Buffers.Concatenates` — what `copy_from` is to do, once and
  repeatedly.
-/

namespace CameraService

open Interaction

/-! ## The data -/

namespace Block

variable {b : Block} {offset n : ℕ} {bytes : Bytes}

theorem read_getElem? {i : ℕ} (h : i < n) : (b.read n)[i]? = some (b.bytes i) := by
  simp [read, h]

/-- Reading fewer bytes. -/
theorem take_read (h : offset ≤ n) : (b.read n).take offset = b.read offset := by
  rw [read, ← List.map_take, List.take_range, Nat.min_eq_left h, read]

/-- Bytes stored behind the first `offset` ones are read after these. -/
theorem read_splice :
    (b.splice offset bytes).read (offset + bytes.length) = b.read offset ++ bytes := by
  apply List.ext_getElem
  · simp
  · intro i hi hi'
    simp only [length_read] at hi
    by_cases hlt : i < offset
    · simp [read, splice, hlt, Nat.not_le_of_lt hlt]
    · have hle : offset ≤ i := Nat.le_of_not_lt hlt
      have hin : i - offset < bytes.length := by omega
      rw [List.getElem_append_right (by simpa using hle)]
      simp [read, splice, hle, List.getElem?_eq_getElem hin]

end Block

@[simp] theorem Buff.data_some {block : Block} {n m : UInt32} :
    Buff.data ⟨some block, n, m⟩ = block.read m.toNat := rfl

namespace Buff

variable {b b' : Buff}

/-- A buffer without a block has no data. -/
theorem Valid.data_size_of_none (hv : b.Valid) (hb : b.buff_ = none) : b.data_size_t_ = 0 := by
  have hle := hv.data_le
  rw [hv.null_iff.mp hb, UInt32.toNat_zero] at hle
  exact UInt32.toNat_inj.mp (Nat.le_zero.mp hle)

theorem Valid.length_data (hv : b.Valid) : b.data.length = b.data_size_t_.toNat := by
  cases hb : b.buff_ with
  | none => simp [data, hb, hv.data_size_of_none hb]
  | some block => simp [data, hb]

theorem Valid.data_eq_nil (hv : b.Valid) (h : b.data_size_t_.toNat = 0) : b.data = [] := by
  apply List.eq_nil_of_length_eq_zero
  rw [hv.length_data, h]

theorem Valid.data_ne_nil (hv : b.Valid) (h : 0 < b.data_size_t_.toNat) : b.data ≠ [] := by
  apply List.ne_nil_of_length_pos
  rw [hv.length_data]
  exact h

end Buff

/-- The buffers of a program: after operations, and after stores through `get_buff`. -/
inductive Reached {ι : Type} [DecidableEq ι] : Buffers ι → Prop
  | new : Reached fun _ => .empty
  | op {s s' : Buffers ι} {op : BuffOp ι} {tr : SdkTrace} {r : Ret} (h : Reached s)
    (hrun : Runs op.run s tr s' r) : Reached s'
  | stored {s : Buffers ι} (h : Reached s) (i : ι) (data : Bytes) :
    Reached (Function.update s i ((s i).write data))

theorem Reached.perform {ι : Type} [DecidableEq ι] {s s' : Buffers ι} {ops : List (BuffOp ι)}
    {tr : SdkTrace} (h : Reached s) (hrun : Runs (perform ops) s tr s' ()) : Reached s' := by
  induction ops generalizing s tr with
  | nil =>
      obtain ⟨-, rfl, -⟩ := runs_pure.mp hrun
      exact h
  | cons op ops ih =>
      obtain ⟨t₁, s₁, r, t₂, -, h₁, h₂⟩ := runs_bind.mp hrun
      exact ih (h.op h₁) h₂

theorem Reached.valid {ι : Type} [DecidableEq ι] {s : Buffers ι} (h : Reached s) :
    ∀ i, (s i).Valid := by
  induction h with
  | new => exact fun _ => Buff.valid_empty
  | op _ hrun ih => exact BuffOp.run_valid ih hrun
  | stored _ i data ih =>
      intro j
      by_cases hj : j = i
      · subst hj
        simpa using (ih j).write data
      · simpa [hj] using ih j

/-! ## `ensure_size` -/

namespace Buff

variable {σ : Type} {b b' : Buff} {n : UInt32} {s s' : σ} {tr : SdkTrace} {r : Ret}

/-- The length and the data are as before, and a buffer that was grown has the room. -/
structure Preserved (b : Buff) (n : UInt32) (r : Ret) (b' : Buff) : Prop where
  length : b'.getDataLen = b.getDataLen
  data : b'.data = b.data
  room : r = .ok → n ≤ b'.buff_max_size_

theorem preserved_refl (h : r = .ok → n ≤ b.buff_max_size_) : Preserved b n r b := ⟨rfl, rfl, h⟩

theorem data_size_of_getDataLen (h : b'.getDataLen = b.getDataLen) :
    b'.data_size_t_ = b.data_size_t_ := by
  have := congrArg Int32.toUInt32 h
  simpa [getDataLen] using this

/-- **`ensure_size` keeps the data** where it has nothing to do: there is room, there is no
data, or no memory. -/
theorem preserved_ensureSizeCopy (hv : b.Valid) (hn : 0 < n)
    (h : Runs (b.ensureSizeCopy n false) s tr s' (r, b')) :
    Preserved b n r b' ↔
      n ≤ b.buff_max_size_ ∨ b.data_size_t_ = 0 ∨ ⟨.malloc n, none⟩ ∈ tr := by
  obtain ⟨-, ⟨hbad, rfl, ⟨hzero, -⟩ | ⟨-, -, rfl⟩⟩ | ⟨-, -, hle, rfl, -⟩ |
    ⟨-, -, hle, block, hsize, rfl, bytes, rfl, -⟩⟩ := ensureSizeCopy_cases h
  · exact absurd hn (by simp [hzero])
  · exact iff_of_true (preserved_refl fun hok => absurd hok hbad)
      (Or.inr (Or.inr (List.mem_singleton_self _)))
  · exact iff_of_true (preserved_refl fun _ => hle) (Or.inl hle)
  · constructor
    · intro hp
      exact Or.inr (Or.inl (data_size_of_getDataLen hp.length).symm)
    · rintro (hroom | hzero | hmem)
      · exact absurd hroom hle
      · refine ⟨by simp [getDataLen, hzero], ?_, fun _ => UInt32.le_refl _⟩
        rw [hv.data_eq_nil (by rw [hzero, UInt32.toNat_zero])]
        rfl
      · cases List.mem_singleton.mp hmem

end Buff

/-- **Growing forgets the data.**  For every reachable buffer, every size and every answer of
`malloc`: `ensure_size` that is to copy the data returns, and has kept its length and its
bytes exactly when there was room, nothing to keep, or no memory. -/
theorem preserved_iff_room {ι : Type} [DecidableEq ι] {s : Buffers ι} {i : ι} {n : UInt32}
    (hs : Reached s) (hn : 0 < n) :
    (∀ tr f, ¬ Faults (BuffOp.run (.ensureSizeCopy i n false)) s tr f) ∧
      ∀ tr s' r, Runs (BuffOp.run (.ensureSizeCopy i n false)) s tr s' r →
        (Buff.Preserved (s i) n r (s' i) ↔
          n ≤ (s i).buff_max_size_ ∨ (s i).data_size_t_ = 0 ∨ ⟨.malloc n, none⟩ ∈ tr) := by
  have hv := hs.valid i
  constructor
  · intro tr f hf
    rw [BuffOp.run, onBuff_faults] at hf
    exact Buff.ensureSizeCopy_faults hv hf
  · intro tr s' r h
    simp only [BuffOp.run, Buffers.onBuff, runs_get_bind] at h
    obtain ⟨t₁, s₁, ⟨ret, b'⟩, t₂, rfl, h₁, h₂⟩ := runs_bind.mp h
    rw [runs_modify_bind, runs_pure] at h₂
    obtain ⟨rfl, rfl, rfl⟩ := h₂
    simpa using Buff.preserved_ensureSizeCopy hv hn h₁

/-- A buffer with three bytes. -/
def threeBytesHeld : Buffers Unit := fun _ => ⟨some ⟨3, fun i => [1, 2, 3][i]?.getD 0⟩, 3, 3⟩

theorem reached_threeBytesHeld : Reached threeBytesHeld := by
  have hrun : Runs (BuffOp.run (.copyMem () (.outside [1, 2, 3]) 3 0)) (fun _ => .empty) _ _ .ok :=
    runs_of_exec (o := obliging) rfl
  refine (congrArg Reached ?_).mp (Reached.new.op hrun)
  funext i
  simp [threeBytesHeld, Block.splice]

theorem preserved_iff_room_threeBytes : ∃ (tr : SdkTrace) (s' : Buffers Unit),
    Runs (BuffOp.run (.ensureSizeCopy () 2 false)) threeBytesHeld tr s' .ok ∧
      Buff.Preserved (threeBytesHeld ()) 2 .ok (s' ()) := by
  have hrun : Runs (BuffOp.run (.ensureSizeCopy () 2 false)) threeBytesHeld _ _ .ok :=
    runs_of_exec (o := obliging) rfl
  have h := (preserved_iff_room (i := ()) reached_threeBytesHeld (by decide : (0 : UInt32) < 2)).2
  exact ⟨_, _, hrun, (h _ _ _ hrun).mpr (Or.inl (by decide))⟩

/-- The three bytes are forgotten when the buffer grows to eight. -/
theorem not_preserved : ∃ (tr : SdkTrace) (s' : Buffers Unit), Reached threeBytesHeld ∧
    Runs (BuffOp.run (.ensureSizeCopy () 8 false)) threeBytesHeld tr s' .ok ∧
      ¬ Buff.Preserved (threeBytesHeld ()) 8 .ok (s' ()) := by
  have hrun : Runs (BuffOp.run (.ensureSizeCopy () 8 false)) threeBytesHeld _ _ .ok :=
    runs_of_exec (o := obliging) rfl
  refine ⟨_, _, reached_threeBytesHeld, hrun, fun h => ?_⟩
  exact absurd h.length (by decide)

/-! ## `copy_from` at an offset -/

namespace Buff

variable {σ : Type} {b b' : Buff} {mem : Pointer} {length offset : UInt32} {bytes : Bytes}
  {s s' : σ} {tr : SdkTrace} {r : Ret}

/-- The outcomes of a `copy_mem` whose bytes are there: an error, a copy into the block, or
one into a fresh block. -/
theorem copyMem_cases
    (hsource : ∀ grown, b.source grown mem length.toNat offset.toNat = some bytes)
    (h : Runs (b.copyMem mem length offset) s tr s' (r, b')) :
    s' = s ∧ ((r ≠ .ok ∧ b' = b ∧
        (length + offset = 0 ∨ tr = [⟨.malloc (length + offset), none⟩])) ∨
      (r = .ok ∧ length + offset ≤ b.buff_max_size_ ∧ tr = [] ∧ ∃ block : Block,
        b.buff_ = some block ∧ b' = ⟨some (block.splice offset.toNat bytes), b.buff_max_size_,
          length + offset⟩) ∨
      (r = .ok ∧ ¬ length + offset ≤ b.buff_max_size_ ∧ ∃ fresh,
        tr = [⟨.malloc (length + offset), some fresh⟩] ∧
          b' = ⟨some (Block.splice ⟨length + offset, fresh⟩ offset.toNat bytes), length + offset,
            length + offset⟩)) := by
  obtain ⟨t₁, s₁, ⟨ret, grown⟩, t₂, rfl, h₁, h₂⟩ := runs_bind.mp h
  dsimp only at h₂
  rw [hsource grown] at h₂
  obtain ⟨rfl, ⟨hbad, rfl, hwhy⟩ | ⟨rfl, -, hle, rfl, rfl⟩ |
    ⟨rfl, -, hle, ⟨size, fresh⟩, hsize, rfl, fresh', rfl, hfresh⟩⟩ := ensureSizeCopy_cases h₁
  · rw [if_pos hbad, runs_pure] at h₂
    obtain ⟨rfl, rfl, he⟩ := h₂
    obtain ⟨rfl, rfl⟩ := Prod.mk.inj he
    refine ⟨rfl, Or.inl ⟨hbad, rfl, hwhy.imp And.left fun hnone => ?_⟩⟩
    rw [hnone.2.2, List.append_nil]
  · rw [if_neg (fun hne => hne rfl)] at h₂
    cases hb : grown.buff_ with
    | none => simp [hb] at h₂
    | some block =>
        simp only [hb] at h₂
        split at h₂
        · obtain ⟨rfl, rfl, he⟩ := runs_pure.mp h₂
          obtain ⟨rfl, rfl⟩ := Prod.mk.inj he
          exact ⟨rfl, Or.inr (Or.inl ⟨rfl, hle, rfl, block, rfl, rfl⟩)⟩
        · exact absurd h₂ runs_fault
  · rw [if_neg (fun hne => hne rfl)] at h₂
    obtain rfl := hfresh rfl
    obtain rfl : size = length + offset := hsize
    dsimp only at h₂
    split at h₂
    · obtain ⟨rfl, rfl, he⟩ := runs_pure.mp h₂
      obtain ⟨rfl, rfl⟩ := Prod.mk.inj he
      exact ⟨rfl, Or.inr (Or.inr ⟨rfl, hle, _, rfl, rfl⟩)⟩
    · exact absurd h₂ runs_fault

/-- The sum of the lengths, when it does not wrap around. -/
theorem toNat_total {m : UInt32} (hsum : offset.toNat + m.toNat < 2 ^ 32) :
    (m + offset).toNat = offset.toNat + m.toNat := by
  rw [UInt32.toNat_add, Nat.mod_eq_of_lt (by omega)]
  omega

/-- The bytes of a block behind which the data of a buffer was stored. -/
theorem Valid.read_spliced (hv : b.Valid) (block : Block)
    (hsum : offset.toNat + b.data_size_t_.toNat < 2 ^ 32) :
    (block.splice offset.toNat b.data).read (b.data_size_t_ + offset).toNat =
      block.read offset.toNat ++ b.data := by
  rw [toNat_total hsum, ← hv.length_data, Block.read_splice]

/-- The first bytes of the data are those of the block. -/
theorem take_data {block : Block} (hb : b.buff_ = some block) (hoff : offset ≤ b.data_size_t_) :
    b.data.take offset.toNat = block.read offset.toNat := by
  rw [UInt32.le_iff_toNat_le] at hoff
  simp [data, hb, Block.take_read hoff]

end Buff

/-! ### Fresh memory -/

section Fresh
variable {σ : Type} {tr : SdkTrace}

/-- Fresh memory is filled with one byte. -/
def Fills (c : UInt8) (tr : SdkTrace) : Prop :=
  ∀ n m, (⟨.malloc n, m⟩ : SdkEvent) ∈ tr → m = some fun _ => c

theorem fills_append {c : UInt8} {t₁ t₂ : SdkTrace} :
    Fills c (t₁ ++ t₂) ↔ Fills c t₁ ∧ Fills c t₂ := by
  simp only [Fills, List.mem_append, or_imp, forall_and]

theorem Fills.allocates {c : UInt8} (h : Fills c tr) : Allocates tr := fun n hn => by
  cases h n none hn

/-- `malloc` fills memory with one byte. -/
def filling (c : UInt8) : Oracle sdk := fun n op =>
  match op with
  | .malloc _ => some fun _ => c
  | op => obliging n op

/-- There is a run in which fresh memory is filled with the byte. -/
theorem exists_fills {α : Type} (c : UInt8) (p : Proc sdk σ α) (s : σ)
    (hp : ∀ tr f, ¬ Faults p s tr f) : ∃ tr s' a, Fills c tr ∧ Runs p s tr s' a := by
  have hanswer : ∀ (op : Call) n m,
      (⟨op, filling c 0 op⟩ : SdkEvent) = ⟨.malloc n, m⟩ → m = some fun _ => c := by
    intro op n m he
    cases op <;> cases he
    rfl
  obtain ⟨tr, htr, hend⟩ :=
    exists_each (R := fun e : SdkEvent => ∀ n m, e = ⟨.malloc n, m⟩ → m = some fun _ => c)
      (filling c 0) hanswer p s
  rcases hend with ⟨s', a, hrun⟩ | ⟨f, hf⟩
  · exact ⟨tr, s', a, fun n m hm => htr _ hm n m rfl, hrun⟩
  · exact absurd hf (hp tr f)

end Fresh

namespace Buffers

variable {ι : Type} [DecidableEq ι] {s s' : Buffers ι} {i j : ι} {offset : UInt32} {tr : SdkTrace}
  {r : Ret}

/-- The bytes that `copy_from` reads are the data of the other buffer. -/
theorem source_getBuff (hv : (s j).Valid) (hij : j ≠ i) {b grown : Buff} {k : ℕ} :
    b.source grown (s.pointer i (s.getBuff j)) (s j).data_size_t_.toNat k = some (s j).data := by
  have hle := hv.data_le
  cases hb : (s j).buff_ with
  | none => simp [Buff.source, Buff.data, hb, hv.data_size_of_none hb]
  | some block =>
      rw [← hv.size_of_some hb] at hle
      simp only [getBuff, hb, pointer, if_neg hij, Buff.source, List.drop_zero, Block.length_read,
        hle, if_true, Block.take_read, Buff.data, Option.map_some, Option.getD_some]
      split
      · rename_i hzero
        simp [hzero, Block.read]
      · rfl

/-- The outcomes of `copy_from` between two buffers. -/
theorem copyFrom_cases (hv : (s j).Valid) (hij : i ≠ j)
    (h : Runs (copyFrom i (some j) offset) s tr s' r) :
    ∃ b', s' = Function.update s i b' ∧
      ((r ≠ .ok ∧ b' = s i ∧ ((s j).data_size_t_ + offset = 0 ∨
        tr = [⟨.malloc ((s j).data_size_t_ + offset), none⟩])) ∨
      (r = .ok ∧ (s j).data_size_t_ + offset ≤ (s i).buff_max_size_ ∧ tr = [] ∧ ∃ block : Block,
        (s i).buff_ = some block ∧ b' = ⟨some (block.splice offset.toNat (s j).data),
          (s i).buff_max_size_, (s j).data_size_t_ + offset⟩) ∨
      (r = .ok ∧ ¬ (s j).data_size_t_ + offset ≤ (s i).buff_max_size_ ∧ ∃ fresh,
        tr = [⟨.malloc ((s j).data_size_t_ + offset), some fresh⟩] ∧
          b' = ⟨some (Block.splice ⟨(s j).data_size_t_ + offset, fresh⟩ offset.toNat (s j).data),
            (s j).data_size_t_ + offset, (s j).data_size_t_ + offset⟩)) := by
  simp only [copyFrom, copyMem, onBuff, runs_get_bind, Buff.toUInt32_getDataLen] at h
  obtain ⟨t₁, s₁, ⟨ret, b'⟩, t₂, rfl, h₁, h₂⟩ := runs_bind.mp h
  rw [runs_modify_bind, runs_pure] at h₂
  obtain ⟨rfl, rfl, rfl⟩ := h₂
  obtain ⟨rfl, hcases⟩ := Buff.copyMem_cases (fun _ => source_getBuff hv (Ne.symm hij)) h₁
  refine ⟨b', rfl, ?_⟩
  rw [List.append_nil]
  exact hcases

/-- **A copy that stores**: there is something to copy, its end does not wrap around, and there
is memory.  It goes into the block, or into a fresh one. -/
theorem copyFrom_stores (hv : (s j).Valid) (hij : i ≠ j)
    (hsum : offset.toNat + (s j).data_size_t_.toNat < 2 ^ 32)
    (hpos : 0 < offset.toNat + (s j).data_size_t_.toNat) (hall : Allocates tr)
    (h : Runs (copyFrom i (some j) offset) s tr s' r) :
    r = .ok ∧ ((offset.toNat + (s j).data_size_t_.toNat ≤ (s i).buff_max_size_.toNat ∧
        ∃ block : Block, (s i).buff_ = some block ∧
          s' = Function.update s i ⟨some (block.splice offset.toNat (s j).data),
            (s i).buff_max_size_, (s j).data_size_t_ + offset⟩) ∨
      (¬ offset.toNat + (s j).data_size_t_.toNat ≤ (s i).buff_max_size_.toNat ∧ ∃ fresh,
        tr = [⟨.malloc ((s j).data_size_t_ + offset), some fresh⟩] ∧
          s' = Function.update s i
            ⟨some (Block.splice ⟨(s j).data_size_t_ + offset, fresh⟩ offset.toNat (s j).data),
              (s j).data_size_t_ + offset, (s j).data_size_t_ + offset⟩)) := by
  have htotal := Buff.toNat_total hsum
  obtain ⟨b', rfl, ⟨-, -, hwhy⟩ | ⟨hok, hle, -, block, hb, rfl⟩ | ⟨hok, hle, fresh, htr, rfl⟩⟩ :=
    copyFrom_cases hv hij h
  · rcases hwhy with hzero | rfl
    · rw [hzero, UInt32.toNat_zero] at htotal
      omega
    · exact absurd (List.mem_singleton_self _) (hall _)
  · rw [UInt32.le_iff_toNat_le, htotal] at hle
    exact ⟨hok, Or.inl ⟨hle, block, hb, rfl⟩⟩
  · rw [UInt32.le_iff_toNat_le, htotal] at hle
    exact ⟨hok, Or.inr ⟨hle, fresh, htr, rfl⟩⟩

/-- A copy between two buffers is defined when its end does not wrap around. -/
theorem copyFrom_defined (hv : ∀ i, (s i).Valid) (hij : i ≠ j)
    (hsum : offset.toNat + (s j).data_size_t_.toNat < 2 ^ 32) {f : Fault} :
    ¬ Faults (copyFrom i (some j) offset) s tr f := by
  intro hf
  have hrun : Faults (BuffOp.run (.copyFrom i (some j) offset)) s tr f := hf
  refine BuffOp.run_faults hv hrun ⟨hsum, ?_⟩
  have hle := (hv j).data_le
  cases hb : (s j).buff_ with
  | none => simp [(hv j).data_size_of_none hb]
  | some block =>
      rw [← (hv j).size_of_some hb] at hle
      simpa [getBuff, hb, pointer, Ne.symm hij] using Or.inr hle

/-- `copy_from` at an offset puts the data of `j` behind the first bytes of `i`, whatever
memory `malloc` finds, and leaves the other buffer alone. -/
structure KeepsPrefix (s : Buffers ι) (i j : ι) (offset : UInt32) : Prop where
  defined : ∀ tr f, ¬ Faults (copyFrom i (some j) offset) s tr f
  copies : ∀ tr s' r, Allocates tr → Runs (copyFrom i (some j) offset) s tr s' r →
    r = .ok ∧ (s' i).data = (s i).data.take offset.toNat ++ (s j).data ∧ s' j = s j

/-- **The prefix is kept** by a copy into the block. -/
theorem copyFrom_keeps_prefix (hv : ∀ i, (s i).Valid) (hij : i ≠ j)
    (hoff : offset ≤ (s i).data_size_t_)
    (hsum : offset.toNat + (s j).data_size_t_.toNat < 2 ^ 32)
    (hpos : 0 < offset.toNat + (s j).data_size_t_.toNat) (hall : Allocates tr)
    (hfits : offset = 0 ∨
      offset.toNat + (s j).data_size_t_.toNat ≤ (s i).buff_max_size_.toNat)
    (h : Runs (copyFrom i (some j) offset) s tr s' r) :
    r = .ok ∧ (s' i).data = (s i).data.take offset.toNat ++ (s j).data ∧ s' j = s j := by
  obtain ⟨hok, ⟨-, block, hb, rfl⟩ | ⟨hle, fresh, -, rfl⟩⟩ :=
    copyFrom_stores (hv j) hij hsum hpos hall h
  · refine ⟨hok, ?_, by simp [Ne.symm hij]⟩
    simpa [Buff.take_data hb hoff] using (hv j).read_spliced block hsum
  · obtain rfl := hfits.resolve_right hle
    refine ⟨hok, ?_, by simp [Ne.symm hij]⟩
    simpa [Block.read] using (hv j).read_spliced ⟨(s j).data_size_t_ + 0, fresh⟩ hsum

/-- The first byte after a copy behind it: that of the fresh block, if the buffer grew. -/
theorem head_copyFrom {c : UInt8} (hv : ∀ i, (s i).Valid) (hij : i ≠ j)
    (hoff : offset ≤ (s i).data_size_t_) (hpos : 0 < offset.toNat)
    (hsum : offset.toNat + (s j).data_size_t_.toNat < 2 ^ 32) (htr : Fills c tr)
    (h : Runs (copyFrom i (some j) offset) s tr s' r) :
    (s' i).data.head? =
      if offset.toNat + (s j).data_size_t_.toNat ≤ (s i).buff_max_size_.toNat
      then (s i).data.head? else some c := by
  have hread : ∀ block : Block, (block.read offset.toNat).head? = some (block.bytes 0) := by
    intro block
    rw [List.head?_eq_getElem?, Block.read_getElem? hpos]
  obtain ⟨-, ⟨hle, block, hb, rfl⟩ | ⟨hle, fresh, rfl, rfl⟩⟩ :=
    copyFrom_stores (hv j) hij hsum (by omega) htr.allocates h
  · have hold : (s i).data.head? = some (block.bytes 0) := by
      rw [UInt32.le_iff_toNat_le] at hoff
      simp only [Buff.data, hb, Option.map_some, Option.getD_some]
      rw [List.head?_eq_getElem?, Block.read_getElem? (by omega)]
    rw [if_pos hle, hold, Function.update_self, Buff.data_some, (hv j).read_spliced block hsum,
      List.head?_append, hread]
    rfl
  · obtain hfresh : fresh = fun _ => c := by
      simpa using htr _ _ (List.mem_singleton_self _)
    rw [if_neg hle, Function.update_self, Buff.data_some, (hv j).read_spliced _ hsum,
      List.head?_append, hread, hfresh]
    rfl

/-- **The prefix is lost** when the buffer grows, and only then. -/
theorem keepsPrefix_iff (hv : ∀ i, (s i).Valid) (hij : i ≠ j)
    (hoff : offset ≤ (s i).data_size_t_)
    (hsum : offset.toNat + (s j).data_size_t_.toNat < 2 ^ 32)
    (hpos : 0 < offset.toNat + (s j).data_size_t_.toNat) :
    KeepsPrefix s i j offset ↔
      offset = 0 ∨ offset.toNat + (s j).data_size_t_.toNat ≤ (s i).buff_max_size_.toNat := by
  constructor
  · intro h
    by_contra hnot
    push Not at hnot
    have hoffset : 0 < offset.toNat := by
      apply Nat.pos_of_ne_zero
      intro hzero
      exact hnot.1 (UInt32.toNat_inj.mp hzero)
    rw [UInt32.le_iff_toNat_le] at hoff
    have hdata : (s i).data ≠ [] := (hv i).data_ne_nil (by omega)
    -- the first byte of fresh memory is another one
    obtain ⟨tr, s', r, hfills, hrun⟩ :=
      exists_fills ((s i).data.head hdata + 1) _ s h.defined
    have hhead := head_copyFrom hv hij (UInt32.le_iff_toNat_le.mpr hoff) hoffset hsum hfills hrun
    rw [if_neg (by omega), (h.copies _ _ _ hfills.allocates hrun).2.1, List.head?_append,
      List.head?_take, if_neg (by omega), List.head?_eq_some_head hdata, Option.some_or,
      Option.some_inj] at hhead
    simp at hhead
  · intro hfits
    exact ⟨fun tr f => copyFrom_defined hv hij hsum,
      fun tr s' r hall hrun => copyFrom_keeps_prefix hv hij hoff hsum hpos hall hfits hrun⟩

/-! ### One copy after another -/

/-- Append buffers, each at the length that the data has then. -/
def appendAll (i : ι) : List ι → Proc sdk (Buffers ι) Unit
  | [] => pure ()
  | j :: js => do
    let s ← Proc.get
    let _ ← copyFrom i (some j) (s i).getDataLen.toUInt32
    appendAll i js

/-- Appending makes the concatenation, and leaves the other buffers alone. -/
structure Concatenates (s : Buffers ι) (i : ι) (js : List ι) : Prop where
  defined : ∀ tr f, ¬ Faults (appendAll i js) s tr f
  appends : ∀ tr s', Allocates tr → Runs (appendAll i js) s tr s' () →
    (s' i).data = (s i).data ++ (js.map fun j => (s j).data).flatten ∧ ∀ k, k ≠ i → s' k = s k

/-- The lengths of what is put together. -/
def pieces (s : Buffers ι) (i : ι) (js : List ι) : List ℕ :=
  (s i).data_size_t_.toNat :: js.map fun j => (s j).data_size_t_.toNat

/-- The pieces fit, or one piece is all there is. -/
def Fits (capacity : ℕ) (lengths : List ℕ) : Prop :=
  lengths.sum ≤ capacity ∨ lengths.sum ∈ lengths

/-- The first piece of an empty buffer may need a new block. -/
theorem fits_zero_cons {capacity n : ℕ} {l : List ℕ} :
    Fits capacity (0 :: n :: l) ↔ Fits (max capacity n) (n :: l) := by
  unfold Fits
  simp only [List.sum_cons, Nat.zero_add, List.mem_cons]
  constructor
  · rintro (h | h | h)
    · exact Or.inl (le_max_of_le_left h)
    · exact Or.inl (by omega)
    · exact Or.inr h
  · rintro (h | h)
    · rcases le_max_iff.mp h with h | h
      · exact Or.inl h
      · exact Or.inr (Or.inr (Or.inl (by omega)))
    · exact Or.inr (Or.inr h)

/-- Later pieces may not. -/
theorem fits_cons {capacity d n : ℕ} {l : List ℕ} (hd : 0 < d) (hle : d ≤ capacity) :
    Fits capacity (d :: n :: l) ↔ d + n ≤ capacity ∧ Fits capacity ((d + n) :: l) := by
  unfold Fits
  simp only [List.sum_cons, List.mem_cons]
  constructor
  · rintro (h | h | h | h)
    · exact ⟨by omega, Or.inl (by omega)⟩
    · exact ⟨by omega, Or.inl (by omega)⟩
    · omega
    · have := List.le_sum_of_mem h
      omega
  · rintro ⟨hfit, h | h | h⟩
    · exact Or.inl (by omega)
    · exact Or.inl (by omega)
    · have := List.le_sum_of_mem h
      omega

/-- What one append does when it keeps the prefix. -/
structure Appended (s : Buffers ι) (i j : ι) (s' : Buffers ι) : Prop where
  data : (s' i).data = (s i).data ++ (s j).data
  others : ∀ k, k ≠ i → s' k = s k
  length : (s' i).data_size_t_.toNat = (s i).data_size_t_.toNat + (s j).data_size_t_.toNat
  capacity : (s' i).buff_max_size_.toNat = max (s i).buff_max_size_.toNat
    ((s i).data_size_t_.toNat + (s j).data_size_t_.toNat)

theorem copyFrom_valid {other : Option ι} (hv : ∀ i, (s i).Valid)
    (h : Runs (copyFrom i other offset) s tr s' r) : ∀ i, (s' i).Valid := by
  have hrun : Runs (BuffOp.run (.copyFrom i other offset)) s tr s' r := h
  exact BuffOp.run_valid hv hrun

/-- An append into an empty buffer, or into the block. -/
theorem appended (hv : ∀ i, (s i).Valid) (hij : i ≠ j)
    (hsum : (s i).data_size_t_.toNat + (s j).data_size_t_.toNat < 2 ^ 32) (hall : Allocates tr)
    (hfits : (s i).data_size_t_.toNat = 0 ∨
      (s i).data_size_t_.toNat + (s j).data_size_t_.toNat ≤ (s i).buff_max_size_.toNat)
    (h : Runs (copyFrom i (some j) (s i).data_size_t_) s tr s' r) : Appended s i j s' := by
  have htotal := Buff.toNat_total hsum
  have hdata : (s' i).data = (s i).data ++ (s j).data := by
    by_cases hpos : 0 < (s i).data_size_t_.toNat + (s j).data_size_t_.toNat
    · have hkeeps := copyFrom_keeps_prefix hv hij (UInt32.le_refl _) hsum hpos hall
        (hfits.imp_left fun hzero => UInt32.toNat_inj.mp hzero) h
      rw [hkeeps.2.1, ← (hv i).length_data, List.take_length]
    · have hzero : (s j).data_size_t_ + (s i).data_size_t_ = 0 := by
        apply UInt32.toNat_inj.mp
        rw [htotal, UInt32.toNat_zero]
        omega
      have hnone : (s i).data = [] ∧ (s j).data = [] :=
        ⟨(hv i).data_eq_nil (by omega), (hv j).data_eq_nil (by omega)⟩
      obtain ⟨b', rfl, ⟨-, rfl, -⟩ | ⟨-, -, -, block, hb, rfl⟩ | ⟨-, hle, -⟩⟩ :=
        copyFrom_cases (hv j) hij h
      · simp [hnone]
      · simp [hnone, hzero, Block.read]
      · rw [hzero, UInt32.le_iff_toNat_le] at hle
        exact absurd (Nat.zero_le _) hle
  have hlength : (s' i).data_size_t_.toNat =
      (s i).data_size_t_.toNat + (s j).data_size_t_.toNat := by
    rw [← (copyFrom_valid hv h i).length_data, hdata, List.length_append, (hv i).length_data,
      (hv j).length_data]
  have hle := (hv i).data_le
  obtain ⟨b', rfl, ⟨-, rfl, hwhy⟩ | ⟨-, hroom, -, block, -, rfl⟩ | ⟨-, hroom, fresh, -, rfl⟩⟩ :=
    copyFrom_cases (hv j) hij h
  · refine ⟨hdata, by simp, hlength, ?_⟩
    rcases hwhy with hzero | rfl
    · rw [hzero, UInt32.toNat_zero] at htotal
      rw [Function.update_self]
      omega
    · exact absurd (List.mem_singleton_self _) (hall _)
  · rw [UInt32.le_iff_toNat_le, htotal] at hroom
    refine ⟨hdata, fun k hk => by simp [hk], hlength, ?_⟩
    rw [Function.update_self]
    exact (Nat.max_eq_left hroom).symm
  · rw [UInt32.le_iff_toNat_le, htotal] at hroom
    refine ⟨hdata, fun k hk => by simp [hk], hlength, ?_⟩
    rw [Function.update_self]
    dsimp only
    omega

section AppendAll
variable {js : List ι}

theorem runs_appendAll_cons :
    Runs (appendAll i (j :: js)) s tr s' () ↔ ∃ t₁ s₁ r t₂, tr = t₁ ++ t₂ ∧
      Runs (copyFrom i (some j) (s i).data_size_t_) s t₁ s₁ r ∧
        Runs (appendAll i js) s₁ t₂ s' () := by
  simp only [appendAll, runs_get_bind, Buff.toUInt32_getDataLen]
  exact runs_bind

/-- An append changes one length, which grows by no more than was appended. -/
theorem length_copyFrom (hv : (s j).Valid) (hij : i ≠ j)
    (hsum : (s i).data_size_t_.toNat + (s j).data_size_t_.toNat < 2 ^ 32)
    (h : Runs (copyFrom i (some j) (s i).data_size_t_) s tr s' r) :
    (∀ k, k ≠ i → s' k = s k) ∧ (s i).data_size_t_.toNat ≤ (s' i).data_size_t_.toNat ∧
      (s' i).data_size_t_.toNat ≤ (s i).data_size_t_.toNat + (s j).data_size_t_.toNat := by
  have htotal := Buff.toNat_total hsum
  obtain ⟨b', rfl, hcases⟩ := copyFrom_cases hv hij h
  refine ⟨fun k hk => by simp [hk], ?_⟩
  rw [Function.update_self]
  obtain ⟨-, rfl, -⟩ | ⟨-, -, -, block, -, rfl⟩ | ⟨-, -, fresh, -, rfl⟩ := hcases
  · omega
  · dsimp only
    omega
  · dsimp only
    omega

omit [DecidableEq ι] in
/-- What was not touched can be read from either state. -/
theorem map_eq_of_others {α : Type} (f : Buff → α) (hi : i ∉ js)
    (hothers : ∀ k, k ≠ i → s' k = s k) :
    js.map (fun k => f (s' k)) = js.map fun k => f (s k) := by
  apply List.map_congr_left
  intro k hk
  have hki : k ≠ i := fun hki => hi (hki ▸ hk)
  rw [hothers k hki]

omit [DecidableEq ι] in
theorem pair_le_sum_pieces : (s i).data_size_t_.toNat + (s j).data_size_t_.toNat ≤
    (pieces s i (j :: js)).sum := by
  simp only [pieces, List.map_cons, List.sum_cons]
  omega

omit [DecidableEq ι] in
/-- What is left to append is no more than before. -/
theorem sum_pieces_le (hi : i ∉ js) (hothers : ∀ k, k ≠ i → s' k = s k)
    (hlen : (s' i).data_size_t_.toNat ≤ (s i).data_size_t_.toNat + (s j).data_size_t_.toNat) :
    (pieces s' i js).sum ≤ (pieces s i (j :: js)).sum := by
  have hmap := map_eq_of_others (fun b => b.data_size_t_.toNat) hi hothers
  simp only [pieces, List.map_cons, List.sum_cons, hmap]
  omega

/-- Copies that do not wrap around are defined, with any answers of `malloc`. -/
theorem appendAll_defined (hv : ∀ i, (s i).Valid) (hi : i ∉ js)
    (hsum : (pieces s i js).sum < 2 ^ 32) {f : Fault} : ¬ Faults (appendAll i js) s tr f := by
  induction js generalizing s tr with
  | nil => exact faults_pure
  | cons j js ih =>
      obtain ⟨hij, hi⟩ := not_or.mp (mt List.mem_cons.mpr hi)
      intro hf
      have htwo := lt_of_le_of_lt pair_le_sum_pieces hsum
      simp only [appendAll, faults_get_bind, Buff.toUInt32_getDataLen] at hf
      rcases faults_bind.mp hf with hf | ⟨t₁, s₁, r, t₂, -, h₁, hf⟩
      · exact copyFrom_defined hv hij htwo hf
      · obtain ⟨hothers, -, hle⟩ := length_copyFrom (hv j) hij htwo h₁
        have hsum₁ := sum_pieces_le hi hothers hle
        exact ih (copyFrom_valid hv h₁) hi (by omega) hf

/-- The first byte of fresh memory stays in front. -/
theorem head_appendAll {c : UInt8} (hv : ∀ i, (s i).Valid) (hi : i ∉ js)
    (hpos : 0 < (s i).data_size_t_.toNat) (hsum : (pieces s i js).sum < 2 ^ 32)
    (htr : Fills c tr) (hc : (s i).data.head? = some c)
    (h : Runs (appendAll i js) s tr s' ()) : (s' i).data.head? = some c := by
  induction js generalizing s tr with
  | nil =>
      obtain ⟨-, rfl, -⟩ := runs_pure.mp h
      exact hc
  | cons j js ih =>
      obtain ⟨hij, hi⟩ := not_or.mp (mt List.mem_cons.mpr hi)
      obtain ⟨t₁, s₁, r, t₂, rfl, h₁, h₂⟩ := runs_appendAll_cons.mp h
      have htwo := lt_of_le_of_lt pair_le_sum_pieces hsum
      obtain ⟨htr₁, htr₂⟩ := fills_append.mp htr
      obtain ⟨hothers, hge, hle⟩ := length_copyFrom (hv j) hij htwo h₁
      have hsum₁ := sum_pieces_le hi hothers hle
      have hhead := head_copyFrom hv hij (UInt32.le_refl _) hpos htwo htr₁ h₁
      rw [hc, ite_self] at hhead
      exact ih (copyFrom_valid hv h₁) hi (by omega) (by omega) htr₂ hhead h₂

/-- After an append that keeps the prefix, the rest has to be appended. -/
theorem concatenates_cons (hv : ∀ i, (s i).Valid) (hi : i ∉ j :: js)
    (hsum : (pieces s i (j :: js)).sum < 2 ^ 32)
    (hfits : (s i).data_size_t_.toNat = 0 ∨
      (s i).data_size_t_.toNat + (s j).data_size_t_.toNat ≤ (s i).buff_max_size_.toNat) :
    Concatenates s i (j :: js) ↔ ∀ t₁ s₁ r, Allocates t₁ →
      Runs (copyFrom i (some j) (s i).data_size_t_) s t₁ s₁ r → Concatenates s₁ i js := by
  obtain ⟨hij, hi'⟩ := not_or.mp (mt List.mem_cons.mpr hi)
  have htwo := lt_of_le_of_lt pair_le_sum_pieces hsum
  -- the rest is to be put behind the first two pieces
  have hgoal : ∀ {s₁ s' : Buffers ι}, Appended s i j s₁ →
      (((s' i).data = (s i).data ++ ((j :: js).map fun j => (s j).data).flatten ∧
        ∀ k, k ≠ i → s' k = s k) ↔
      ((s' i).data = (s₁ i).data ++ (js.map fun j => (s₁ j).data).flatten ∧
        ∀ k, k ≠ i → s' k = s₁ k)) := by
    intro s₁ s' hstep
    have hmap := map_eq_of_others Buff.data hi' hstep.others
    rw [hstep.data, hmap, List.map_cons, List.flatten_cons, List.append_assoc]
    refine and_congr_right fun _ => forall_congr' fun k => imp_congr_right fun hk => ?_
    rw [hstep.others k hk]
  constructor
  · intro h t₁ s₁ r hall h₁
    have hstep := appended hv hij htwo hall hfits h₁
    have hsum₁ := sum_pieces_le hi' hstep.others hstep.length.le
    refine ⟨fun tr f => appendAll_defined (copyFrom_valid hv h₁) hi' (by omega), ?_⟩
    intro t₂ s' hall₂ h₂
    apply (hgoal hstep).mp
    have hrun := runs_appendAll_cons.mpr ⟨_, _, _, _, rfl, h₁, h₂⟩
    exact h.appends (t₁ ++ t₂) s' (allocates_append.mpr ⟨hall, hall₂⟩) hrun
  · intro h
    refine ⟨fun tr f => appendAll_defined hv hi hsum, fun tr s' hall hrun => ?_⟩
    obtain ⟨t₁, s₁, r, t₂, rfl, h₁, h₂⟩ := runs_appendAll_cons.mp hrun
    obtain ⟨hall₁, hall₂⟩ := allocates_append.mp hall
    apply (hgoal (appended hv hij htwo hall₁ hfits h₁)).mpr
    exact (h t₁ s₁ r hall₁ h₁).appends t₂ s' hall₂ h₂

/-- An append that moves data to a new block leaves another first byte. -/
theorem not_concatenates_cons (hv : ∀ i, (s i).Valid) (hi : i ∉ j :: js)
    (hsum : (pieces s i (j :: js)).sum < 2 ^ 32) (hpos : 0 < (s i).data_size_t_.toNat)
    (hgrow : (s i).buff_max_size_.toNat <
      (s i).data_size_t_.toNat + (s j).data_size_t_.toNat) : ¬ Concatenates s i (j :: js) := by
  intro h
  obtain ⟨hij, hi'⟩ := not_or.mp (mt List.mem_cons.mpr hi)
  have htwo := lt_of_le_of_lt pair_le_sum_pieces hsum
  have hdata : (s i).data ≠ [] := (hv i).data_ne_nil hpos
  obtain ⟨tr, s', _, hfills, hrun⟩ := exists_fills ((s i).data.head hdata + 1) _ s h.defined
  have hconcat := (h.appends tr s' hfills.allocates hrun).1
  obtain ⟨t₁, s₁, r, t₂, rfl, h₁, h₂⟩ := runs_appendAll_cons.mp hrun
  obtain ⟨hfills₁, hfills₂⟩ := fills_append.mp hfills
  obtain ⟨hothers, hge, hle⟩ := length_copyFrom (hv j) hij htwo h₁
  have hsum₁ := sum_pieces_le hi' hothers hle
  have hhead := head_copyFrom hv hij (UInt32.le_refl _) hpos htwo hfills₁ h₁
  rw [if_neg (by omega)] at hhead
  have hlast := head_appendAll (copyFrom_valid hv h₁) hi' (by omega) (by omega) hfills₂ hhead h₂
  rw [hconcat, List.head?_append, List.head?_eq_some_head hdata, Option.some_or,
    Option.some_inj] at hlast
  simp at hlast

/-- **Appends concatenate** as long as the data need not move. -/
theorem concatenates_iff (hv : ∀ i, (s i).Valid) (hi : i ∉ js)
    (hsum : (pieces s i js).sum < 2 ^ 32) :
    Concatenates s i js ↔ Fits (s i).buff_max_size_.toNat (pieces s i js) := by
  induction js generalizing s with
  | nil =>
      refine iff_of_true ⟨fun tr f => faults_pure, fun tr s' _ h => ?_⟩ (Or.inr (by simp [pieces]))
      obtain ⟨-, rfl, -⟩ := runs_pure.mp h
      simp
  | cons j js ih =>
      obtain ⟨hij, hi'⟩ := not_or.mp (mt List.mem_cons.mpr hi)
      have htwo := lt_of_le_of_lt pair_le_sum_pieces hsum
      have hle := (hv i).data_le
      by_cases hfits : (s i).data_size_t_.toNat = 0 ∨
          (s i).data_size_t_.toNat + (s j).data_size_t_.toNat ≤ (s i).buff_max_size_.toNat
      · rw [concatenates_cons hv hi hsum hfits]
        have hrest : ∀ {t₁ s₁ r}, Allocates t₁ →
            Runs (copyFrom i (some j) (s i).data_size_t_) s t₁ s₁ r →
              (Concatenates s₁ i js ↔ Fits (s i).buff_max_size_.toNat (pieces s i (j :: js))) := by
          intro t₁ s₁ r hall h₁
          have hstep := appended hv hij htwo hall hfits h₁
          have hsum₁ := sum_pieces_le hi' hstep.others hstep.length.le
          have hmap := map_eq_of_others (fun b => b.data_size_t_.toNat) hi' hstep.others
          rw [ih (copyFrom_valid hv h₁) hi' (by omega)]
          simp only [pieces, hstep.length, hstep.capacity, hmap, List.map_cons]
          rcases hfits with hzero | hroom
          · rw [hzero, fits_zero_cons, Nat.zero_add]
          · rw [Nat.max_eq_left hroom]
            by_cases hpos : 0 < (s i).data_size_t_.toNat
            · rw [fits_cons hpos hle]
              exact (and_iff_right hroom).symm
            · have hzero : (s i).data_size_t_.toNat = 0 := by omega
              rw [hzero, fits_zero_cons, Nat.zero_add, Nat.max_eq_left (by omega)]
        constructor
        · intro h
          obtain ⟨t₁, s₁, r, hfills, h₁⟩ := exists_fills 0 _ s fun _ _ =>
            copyFrom_defined hv hij htwo
          exact (hrest hfills.allocates h₁).mp (h t₁ s₁ r hfills.allocates h₁)
        · intro h t₁ s₁ r hall h₁
          exact (hrest hall h₁).mpr h
      · push Not at hfits
        have hpos : 0 < (s i).data_size_t_.toNat := Nat.pos_of_ne_zero hfits.1
        refine iff_of_false (not_concatenates_cons hv hi hsum hpos hfits.2) fun h => ?_
        simp only [pieces, List.map_cons] at h
        exact absurd ((fits_cons hpos hle).mp h).1 (by omega)

end AppendAll

end Buffers

/-- **Copies behind data lose it when they grow the buffer.**  For all reachable buffers: a
copy that ends below `2^32` keeps the prefix exactly when there is none, or the copy fits in
the capacity.  Buffers that are appended one after another make their concatenation exactly
when all of it fits in the capacity, or no more than one of the pieces has any data. -/
theorem keepsPrefix_iff_fits {ι : Type} [DecidableEq ι] {s : Buffers ι} (hs : Reached s) :
    (∀ (i j : ι) (offset : UInt32), i ≠ j → offset ≤ (s i).data_size_t_ →
      offset.toNat + (s j).data_size_t_.toNat < 2 ^ 32 →
      0 < offset.toNat + (s j).data_size_t_.toNat →
        (Buffers.KeepsPrefix s i j offset ↔ offset = 0 ∨
          offset.toNat + (s j).data_size_t_.toNat ≤ (s i).buff_max_size_.toNat)) ∧
      ∀ (i : ι) (js : List ι), i ∉ js → (Buffers.pieces s i js).sum < 2 ^ 32 →
        (Buffers.Concatenates s i js ↔ (Buffers.pieces s i js).sum ≤ (s i).buff_max_size_.toNat ∨
          (Buffers.pieces s i js).sum ∈ Buffers.pieces s i js) :=
  ⟨fun _ _ _ hij hoff hsum hpos => Buffers.keepsPrefix_iff hs.valid hij hoff hsum hpos,
    fun _ _ hi hsum => Buffers.concatenates_iff hs.valid hi hsum⟩

/-- A buffer with one byte and room for three more, and one with two. -/
def roomForTwo : Buffers Bool
  | true => ⟨some ⟨4, fun i => [7][i]?.getD 0⟩, 4, 1⟩
  | false => ⟨some ⟨2, fun i => [8, 9][i]?.getD 0⟩, 2, 2⟩

theorem reached_roomForTwo : Reached roomForTwo := by
  have hrun : Runs (perform
      [.ensureSize true 4, .copyMem true (.outside [7]) 1 0, .copyMem false (.outside [8, 9]) 2 0])
      (fun _ => .empty) _ _ () := runs_of_exec (o := obliging) rfl
  refine (congrArg Reached ?_).mp (Reached.new.perform hrun)
  funext i
  cases i <;> simp [roomForTwo, Block.splice]

/-- Two bytes are appended to one, behind which there is room for them. -/
theorem keepsPrefix_iff_fits_apart : Buffers.KeepsPrefix roomForTwo true false 1 ∧
    Buffers.Concatenates roomForTwo true [false] := by
  have h := keepsPrefix_iff_fits reached_roomForTwo
  exact ⟨(h.1 true false 1 (by decide) (by decide) (by decide) (by decide)).mpr
    (Or.inr (by decide)), (h.2 true [false] (by decide) (by decide)).mpr (Or.inl (by decide))⟩

/-- A buffer with one byte and one with two. -/
def oneAndTwo : Buffers Bool
  | true => ⟨some ⟨1, fun i => [7][i]?.getD 0⟩, 1, 1⟩
  | false => ⟨some ⟨2, fun i => [8, 9][i]?.getD 0⟩, 2, 2⟩

theorem reached_oneAndTwo : Reached oneAndTwo := by
  have hrun : Runs (perform
      [.copyMem true (.outside [7]) 1 0, .copyMem false (.outside [8, 9]) 2 0])
      (fun _ => .empty) _ _ () := runs_of_exec (o := obliging) rfl
  refine (congrArg Reached ?_).mp (Reached.new.perform hrun)
  funext i
  cases i <;> simp [oneAndTwo, Block.splice]

/-- Two bytes are appended to one, which is lost. -/
theorem not_keepsPrefix : Reached oneAndTwo ∧ ¬ Buffers.KeepsPrefix oneAndTwo true false 1 ∧
    ¬ Buffers.Concatenates oneAndTwo true [false] := by
  have hv := reached_oneAndTwo.valid
  refine ⟨reached_oneAndTwo, ?_, ?_⟩
  · rw [Buffers.keepsPrefix_iff hv (by decide) (by decide) (by decide) (by decide)]
    decide
  · rw [Buffers.concatenates_iff hv (by decide) (by decide)]
    rintro (h | h)
    · exact absurd h (by decide)
    · exact absurd h (by decide)

end CameraService
