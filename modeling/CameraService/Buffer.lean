import CameraService.Sdk

/-!
# Byte buffers

`buff_t` of `utils.cpp`: a heap block with its capacity and the length of the
data in it.  The three fields are kept apart as in the source.  A block records
the size `malloc` was asked for; fresh memory holds arbitrary bytes.

## Main definitions

* `Block` — an allocated block of memory.
* `Buff` — `buff_t`.
* `Buff.ensureSize`, `Buff.setDataSize`, `Buff.freeBuff`, `Buff.emptyBuff`, `Buff.setByte`,
  `Buff.copyMem` — its operations.
* `Buff.Valid` — what they keep.
-/

namespace CameraService

open Interaction

/-- A block of memory and its contents. -/
structure Block where
  size : UInt32
  bytes : ℕ → UInt8

namespace Block

/-- The first `n` bytes. -/
def read (b : Block) (n : ℕ) : Bytes := (List.range n).map b.bytes

/-- Store bytes at the start of a block.  Whoever fills a block was told its size
and stores nothing past it. -/
def write (b : Block) (data : Bytes) : Block :=
  { b with bytes := fun i => if i < b.size.toNat then data[i]?.getD (b.bytes i) else b.bytes i }

/-- The block with other bytes from `offset` on. -/
def splice (b : Block) (offset : ℕ) (data : Bytes) : Block :=
  { b with bytes := fun i =>
      if offset ≤ i then data[i - offset]?.getD (b.bytes i) else b.bytes i }

@[simp] theorem size_splice (b : Block) (offset : ℕ) (data : Bytes) :
    (b.splice offset data).size = b.size := rfl

@[simp] theorem length_read (b : Block) (n : ℕ) : (b.read n).length = n := by simp [read]

@[simp] theorem size_write (b : Block) (data : Bytes) : (b.write data).size = b.size := rfl

/-- What was stored is read back. -/
theorem read_write {b : Block} {data : Bytes} (h : data.length ≤ b.size.toNat) :
    (b.write data).read data.length = data := by
  apply List.ext_getElem
  · simp
  · intro i hi hi'
    have : i < b.size.toNat := by omega
    simp [read, write, this, List.getElem?_eq_getElem hi']

end Block

/-- `buff_t`. -/
structure Buff where
  /-- The block, unless `buff_` is `NULL`. -/
  buff_ : Option Block
  buff_max_size_ : UInt32
  data_size_t_ : UInt32

namespace Buff

variable {σ : Type}

/-- The constructor of `buff_t`. -/
def empty : Buff := ⟨none, 0, 0⟩

/-- `set_data_size`, without the old length it returns, which no caller reads. -/
def setDataSize (b : Buff) (size : UInt32) : Proc sdk σ Buff := do
  Proc.require (size < b.buff_max_size_) .assertDataSize
  pure { b with data_size_t_ := size }

/-- `free_buff`. -/
def freeBuff (_ : Buff) : Buff := ⟨none, 0, 0⟩

/-- What `ensure_size` copies into the new block: the data, unless there is none
or the caller ignores it. -/
def copyData (b : Buff) (ignore_copy : Bool) (fresh : Block) : Proc sdk σ Block :=
  if 0 < b.data_size_t_ ∧ ignore_copy = false then
    match b.buff_ with
    | none => Proc.fault .nullBuffer
    | some old => pure
        { fresh with
          bytes := fun i => if i < b.data_size_t_.toNat then old.bytes i else fresh.bytes i }
  else pure fresh

/-- `ensure_size(new_size, ignore_copy)`. -/
def ensureSizeCopy (b : Buff) (new_size : UInt32) (ignore_copy : Bool) :
    Proc sdk σ (Ret × Buff) :=
  if new_size = 0 then pure (.err .failure, b)
  else if new_size ≤ b.buff_max_size_ then pure (.ok, b)
  else do
    match ← sdkCall (.malloc new_size) with
    | none => pure (.err .failure, b)
    | some bytes => do
      let fresh ← b.copyData ignore_copy ⟨new_size, bytes⟩
      let b := b.freeBuff
      pure (.ok, { b with buff_ := some fresh, buff_max_size_ := new_size })

/-- `ensure_size(new_size)`, which ignores the old contents. -/
def ensureSize (b : Buff) (new_size : UInt32) : Proc sdk σ (Ret × Buff) :=
  b.ensureSizeCopy new_size true

/-- `empty_buff`. -/
def emptyBuff (b : Buff) : Buff :=
  { b with buff_ := b.buff_.map fun block => { block with bytes := fun _ => 0 }, data_size_t_ := 0 }

/-- `set_byte`. -/
def setByte (b : Buff) (pos : UInt32) (val : UInt8) : Proc sdk σ (Ret × Buff) :=
  if b.buff_max_size_ ≤ pos then pure (.err .failure, b)
  else
    match b.buff_ with
    | none => Proc.fault .nullBuffer
    | some block => pure (.ok, { b with buff_ := some (block.splice pos.toNat [val]) })

/-- Where a pointer leads, for a `memcpy` into a buffer. -/
inductive Pointer
  | null
  /-- Memory outside of the buffer's block, with the bytes that are there. -/
  | outside (bytes : Bytes)
  /-- The buffer's own block, from this position on. -/
  | own (pos : ℕ)

/-- The bytes that `memcpy` reads at `mem`, `grown` being the buffer after `ensure_size`.
A pointer into a block that was replaced leads nowhere, and what is read must not overlap
with what is written. -/
def source (b grown : Buff) (mem : Pointer) (length offset : ℕ) : Option Bytes :=
  if length = 0 then some []
  else
    match mem, grown.buff_ with
    | .outside bytes, _ => if length ≤ bytes.length then some (bytes.take length) else none
    | .own pos, some block =>
      if grown.buff_max_size_ = b.buff_max_size_ ∧ pos + length ≤ block.size.toNat ∧
          (pos + length ≤ offset ∨ offset + length ≤ pos) then
        some ((block.read (pos + length)).drop pos)
      else none
    | _, _ => none

/-- `copy_mem`.  The sum of the lengths has 32 bits. -/
def copyMem (b : Buff) (mem : Pointer) (length offset : UInt32) : Proc sdk σ (Ret × Buff) := do
  let total := length + offset
  let (ret, grown) ← b.ensureSize total
  if ret ≠ .ok then pure (ret, grown)
  else
    match grown.buff_, b.source grown mem length.toNat offset.toNat with
    | some block, some bytes =>
      if offset.toNat + length.toNat ≤ block.size.toNat then
        pure (.ok, { grown with
          buff_ := some (block.splice offset.toNat bytes), data_size_t_ := total })
      else Proc.fault .badCopy
    | _, _ => Proc.fault .badCopy

/-- `get_buff_size`, an `int`. -/
def getBuffSize (b : Buff) : Int32 := b.buff_max_size_.toInt32

/-- `get_data_len`, an `int`. -/
def getDataLen (b : Buff) : Int32 := b.data_size_t_.toInt32

@[simp] theorem toUInt32_getDataLen (b : Buff) : b.getDataLen.toUInt32 = b.data_size_t_ := by
  simp [getDataLen]

/-- The bytes that a buffer holds. -/
def data (b : Buff) : Bytes := (b.buff_.map (·.read b.data_size_t_.toNat)).getD []

/-- The memory behind `get_buff()` after somebody stored bytes there. -/
def write (b : Buff) (data : Bytes) : Buff := { b with buff_ := b.buff_.map (·.write data) }

/-- The block has the recorded capacity, and `NULL` stands for capacity zero. -/
def Sized (b : Buff) : Prop :=
  match b.buff_ with
  | none => b.buff_max_size_ = 0
  | some block => block.size = b.buff_max_size_

theorem sized_empty : empty.Sized := rfl

/-- **The invariant**: `NULL` stands for capacity zero, and the data is in the block. -/
structure Valid (b : Buff) : Prop where
  null_iff : b.buff_ = none ↔ b.buff_max_size_ = 0
  sized : b.Sized
  data_le : b.data_size_t_.toNat ≤ b.buff_max_size_.toNat

theorem valid_empty : empty.Valid := ⟨by simp [empty], sized_empty, Nat.le_refl _⟩

theorem Valid.size_of_some {b : Buff} {block : Block} (hv : b.Valid) (hb : b.buff_ = some block) :
    block.size = b.buff_max_size_ := by
  have hs := hv.sized
  simpa [Sized, hb] using hs

/-- What growing a buffer can leave: the buffer as it was, or a fresh empty one. -/
def Grown (b b' : Buff) : Prop := b' = b ∨ ∃ n bytes, b' = ⟨some ⟨n, bytes⟩, n, 0⟩

theorem Grown.sized {b b' : Buff} (h : Grown b b') (hb : b.Sized) : b'.Sized := by
  rcases h with rfl | ⟨n, bytes, rfl⟩
  · exact hb
  · rfl

theorem Grown.blank {b b' : Buff} (h : Grown b b') (hb : b.data_size_t_ = 0) :
    b'.data_size_t_ = 0 := by
  rcases h with rfl | ⟨n, bytes, rfl⟩
  · exact hb
  · rfl

theorem Sized.write {b : Buff} (h : b.Sized) (data : Bytes) : (b.write data).Sized := by
  unfold Sized at h ⊢
  cases hb : b.buff_ <;> simp_all [Buff.write]

theorem Valid.write {b : Buff} (hv : b.Valid) (data : Bytes) : (b.write data).Valid :=
  ⟨by simpa [Buff.write] using hv.null_iff, hv.sized.write data, hv.data_le⟩

section Specs
variable {b b' : Buff} {n : UInt32} {s s' : σ} {tr : SdkTrace} {r : Ret} {f : Fault}

/-- Growing without a copy: either nothing happens, or the buffer is a fresh
empty one of the requested capacity. -/
theorem ensureSize_spec (h : Runs (b.ensureSize n) s tr s' (r, b')) :
    s' = s ∧ (b' = b ∨ ∃ bytes, tr = [⟨.malloc n, some bytes⟩] ∧ r = .ok ∧
      b' = ⟨some ⟨n, bytes⟩, n, 0⟩) := by
  unfold ensureSize ensureSizeCopy at h
  split at h
  · simp only [runs_pure, Prod.mk.injEq] at h
    exact ⟨h.2.1, Or.inl h.2.2.2⟩
  · split at h
    · simp only [runs_pure, Prod.mk.injEq] at h
      exact ⟨h.2.1, Or.inl h.2.2.2⟩
    rw [runs_call_bind] at h
    obtain ⟨m, tr', rfl, h⟩ := h
    cases m with
    | none =>
        simp only [runs_pure, Prod.mk.injEq] at h
        exact ⟨h.2.1, Or.inl h.2.2.2⟩
    | some bytes =>
        simp only [copyData, Bool.true_eq_false, and_false, if_false, pure_bind, runs_pure,
          Prod.mk.injEq] at h
        obtain ⟨rfl, rfl, rfl, rfl⟩ := h
        exact ⟨rfl, Or.inr ⟨bytes, rfl, rfl, rfl⟩⟩

theorem grown_of_ensureSize (h : Runs (b.ensureSize n) s tr s' (r, b')) : Grown b b' := by
  rcases (ensureSize_spec h).2 with hb | ⟨bytes, -, -, hb⟩
  · exact Or.inl hb
  · exact Or.inr ⟨n, bytes, hb⟩

/-- Growing does not look at the state. -/
theorem ensureSize_frames {g : σ → σ} : Frames g (b.ensureSize n) s := by
  unfold ensureSize ensureSizeCopy
  split
  · exact frames_pure
  · split
    · exact frames_pure
    refine frames_call.bind fun tr s' m _ => ?_
    cases m with
    | none => exact frames_pure
    | some bytes =>
        simp only [copyData, Bool.true_eq_false, and_false, if_false, pure_bind]
        exact frames_pure

/-- Growing calls the allocator only. -/
theorem ensureSize_trace (h : Runs (b.ensureSize n) s tr s' (r, b')) :
    ∀ e ∈ tr, ∃ n a, e = ⟨.malloc n, a⟩ := by
  unfold ensureSize ensureSizeCopy at h
  split at h
  · simp [(runs_pure.mp h).1]
  · split at h
    · simp [(runs_pure.mp h).1]
    rw [runs_call_bind] at h
    obtain ⟨m, tr', rfl, h⟩ := h
    have htr : tr' = [] := by
      cases m with
      | none => exact (runs_pure.mp h).1
      | some bytes =>
          simp only [copyData, Bool.true_eq_false, and_false, if_false, pure_bind] at h
          exact (runs_pure.mp h).1
    subst htr
    intro e he
    rw [List.mem_singleton] at he
    exact ⟨n, m, he⟩

end Specs

end Buff

end CameraService
