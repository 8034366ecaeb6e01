import CameraService.Buffer

/-!
# Buffers that copy from one another

Any number of `buff_t` objects, and the operations that `utils.cpp` has for them.  Two of
these take a second buffer, which may be the first one, and a pointer may lead into a
buffer that is being replaced.  Whatever the operations, their arguments and the answers
of `malloc`, the buffers stay valid, and an operation that reports an error has changed
nothing.

What C leaves undefined ends a run: a `memcpy` outside of its blocks, and a member call
through `NULL`.

## Main definitions

* `Address`, `Buffers.pointer` — the pointers of a program with many buffers.
* `Buffers.copyMem`, `Buffers.copyFrom`, `Buffers.copyTo` — the operations on two.
* `BuffOp`, `perform` — a sequence of operations.
* `Buff.Keeps` — what an operation does to its buffer.
* `buffers_kept` — the invariant, over every sequence.
-/

namespace CameraService

open Interaction

/-- The buffers of a program. -/
abbrev Buffers (ι : Type) : Type := ι → Buff

/-- A pointer of the program. -/
inductive Address (ι : Type)
  | null
  /-- Memory of no buffer, with the bytes that are there. -/
  | outside (bytes : Bytes)
  /-- The block of a buffer, from this position on. -/
  | inside (j : ι) (pos : ℕ)

namespace Buffers

variable {ι : Type} [DecidableEq ι]

/-- Where an address leads, seen from the buffer `i`. -/
def pointer (s : Buffers ι) (i : ι) : Address ι → Buff.Pointer
  | .null => .null
  | .outside bytes => .outside bytes
  | .inside j pos =>
    if j = i then .own pos
    else
      match (s j).buff_ with
      | none => .null
      | some block => .outside ((block.read block.size.toNat).drop pos)

/-- `get_buff`. -/
def getBuff (s : Buffers ι) (j : ι) : Address ι :=
  match (s j).buff_ with
  | none => .null
  | some _ => .inside j 0

/-- Run an operation of one buffer. -/
def onBuff (i : ι) (f : Buff → Proc sdk (Buffers ι) (Ret × Buff)) : Proc sdk (Buffers ι) Ret := do
  let s ← Proc.get
  let (ret, b) ← f (s i)
  Proc.modify fun s => Function.update s i b
  pure ret

/-- `copy_mem`. -/
def copyMem (i : ι) (mem : Address ι) (length offset : UInt32) : Proc sdk (Buffers ι) Ret := do
  let s ← Proc.get
  onBuff i fun b => b.copyMem (s.pointer i mem) length offset

/-- `copy_from`. -/
def copyFrom (i : ι) (other : Option ι) (offset : UInt32) : Proc sdk (Buffers ι) Ret :=
  match other with
  | none => Proc.fault .nullBuffer
  | some j => do
    let s ← Proc.get
    copyMem i (s.getBuff j) (s j).getDataLen.toUInt32 offset

/-- `copy_to`. -/
def copyTo (i : ι) (to_ : Option ι) : Proc sdk (Buffers ι) Ret :=
  match to_ with
  | none => pure (.err .failure)
  | some j => copyFrom j (some i) 0

end Buffers

/-- An operation of `buff_t`. -/
inductive BuffOp (ι : Type)
  | setDataSize (i : ι) (size : UInt32)
  | setByte (i : ι) (pos : UInt32) (val : UInt8)
  | freeBuff (i : ι)
  | emptyBuff (i : ι)
  | ensureSize (i : ι) (new_size : UInt32)
  | ensureSizeCopy (i : ι) (new_size : UInt32) (ignore_copy : Bool)
  | copyMem (i : ι) (mem : Address ι) (length offset : UInt32)
  | copyFrom (i : ι) (other : Option ι) (offset : UInt32)
  | copyTo (i : ι) (to_ : Option ι)

section Ops
variable {ι : Type} [DecidableEq ι]

/-- The operation, with its result; that of `set_data_size` is never negative. -/
def BuffOp.run : BuffOp ι → Proc sdk (Buffers ι) Ret
  | .setDataSize i size => Buffers.onBuff i fun b => do
    let b ← b.setDataSize size
    pure (.ok, b)
  | .setByte i pos val => Buffers.onBuff i fun b => b.setByte pos val
  | .freeBuff i => Buffers.onBuff i fun b => pure (.ok, b.freeBuff)
  | .emptyBuff i => Buffers.onBuff i fun b => pure (.ok, b.emptyBuff)
  | .ensureSize i new_size => Buffers.onBuff i fun b => b.ensureSize new_size
  | .ensureSizeCopy i new_size ignore_copy =>
    Buffers.onBuff i fun b => b.ensureSizeCopy new_size ignore_copy
  | .copyMem i mem length offset => Buffers.copyMem i mem length offset
  | .copyFrom i other offset => Buffers.copyFrom i other offset
  | .copyTo i to_ => Buffers.copyTo i to_

/-- The operations in turn. -/
def perform : List (BuffOp ι) → Proc sdk (Buffers ι) Unit
  | [] => pure ()
  | op :: ops => do
    let _ ← op.run
    perform ops

end Ops

/-! ## One buffer -/

namespace Buff

variable {σ : Type} {b b' : Buff} {n length offset : UInt32} {s s' : σ} {tr : SdkTrace} {r : Ret}
  {mem : Pointer}

/-- What an operation does to its buffer, `free_buff` apart. -/
structure Keeps (b : Buff) (r : Ret) (b' : Buff) : Prop where
  valid : b.Valid → b'.Valid
  grows : b.buff_max_size_ ≤ b'.buff_max_size_
  fails : r ≠ .ok → b' = b

theorem keeps_refl : Keeps b r b := ⟨id, UInt32.le_refl _, fun _ => rfl⟩

/-- A fresh block of the capacity that was asked for. -/
theorem keeps_fresh {block : Block} {m : UInt32} (hsize : block.size = n) (hn : 0 < n)
    (hgrow : b.buff_max_size_ ≤ n) (hm : m.toNat ≤ n.toNat) : Keeps b .ok ⟨some block, n, m⟩ := by
  refine ⟨fun _ => ⟨?_, hsize, hm⟩, hgrow, fun h => absurd rfl h⟩
  have hne : n ≠ 0 := by
    rintro rfl
    exact absurd hn (by decide)
  simp [hne]

theorem keeps_setDataSize (h : Runs (b.setDataSize n) s tr s' b') : s' = s ∧ Keeps b .ok b' := by
  simp only [setDataSize, runs_require_bind, runs_pure] at h
  obtain ⟨hlt, rfl, rfl, rfl⟩ := h
  refine ⟨rfl, fun hv => ⟨hv.null_iff, hv.sized, ?_⟩, UInt32.le_refl _, fun h => absurd rfl h⟩
  exact Nat.le_of_lt (UInt32.lt_iff_toNat_lt.mp hlt)

theorem keeps_emptyBuff : Keeps b .ok b.emptyBuff := by
  refine ⟨fun hv => ⟨?_, ?_, ?_⟩, UInt32.le_refl _, fun h => absurd rfl h⟩
  · simpa [emptyBuff] using hv.null_iff
  · have hs := hv.sized
    unfold Sized at hs ⊢
    cases hb : b.buff_ <;> simp_all [emptyBuff]
  · simp [emptyBuff]

theorem keeps_setByte {pos : UInt32} {val : UInt8} (h : Runs (b.setByte pos val) s tr s' (r, b')) :
    s' = s ∧ Keeps b r b' := by
  rw [setByte] at h
  split at h
  · obtain ⟨-, rfl, he⟩ := runs_pure.mp h
    obtain ⟨rfl, rfl⟩ := Prod.mk.inj he
    exact ⟨rfl, keeps_refl⟩
  · cases hb : b.buff_ with
    | none => simp [hb] at h
    | some block =>
        simp only [hb, runs_pure, Prod.mk.injEq] at h
        obtain ⟨-, rfl, rfl, rfl⟩ := h
        refine ⟨rfl, fun hv => ⟨?_, ?_, hv.data_le⟩, UInt32.le_refl _, fun h => absurd rfl h⟩
        · simpa [hb] using hv.null_iff
        · have hs := hv.sized
          simpa [Sized, hb] using hs

/-- The outcomes of `ensure_size`: an error, room enough, or a fresh block. -/
theorem ensureSizeCopy_cases {ignore_copy : Bool}
    (h : Runs (b.ensureSizeCopy n ignore_copy) s tr s' (r, b')) :
    s' = s ∧ ((r ≠ .ok ∧ b' = b ∧ ((n = 0 ∧ tr = []) ∨
        (0 < n ∧ ¬ n ≤ b.buff_max_size_ ∧ tr = [⟨.malloc n, none⟩]))) ∨
      (r = .ok ∧ 0 < n ∧ n ≤ b.buff_max_size_ ∧ b' = b ∧ tr = []) ∨
      (r = .ok ∧ 0 < n ∧ ¬ n ≤ b.buff_max_size_ ∧ ∃ block : Block, block.size = n ∧
        b' = ⟨some block, n, 0⟩ ∧ ∃ bytes, tr = [⟨.malloc n, some bytes⟩] ∧
          (ignore_copy = true → block.bytes = bytes))) := by
  rw [ensureSizeCopy] at h
  split at h
  · rename_i hn
    obtain ⟨rfl, rfl, he⟩ := runs_pure.mp h
    obtain ⟨rfl, rfl⟩ := Prod.mk.inj he
    exact ⟨rfl, Or.inl ⟨by simp, rfl, Or.inl ⟨hn, rfl⟩⟩⟩
  · rename_i hn
    have hpos : 0 < n := by
      rw [UInt32.lt_iff_toNat_lt, UInt32.toNat_zero]
      exact Nat.pos_of_ne_zero fun h0 => hn (UInt32.toNat_inj.mp h0)
    split at h
    · rename_i hle
      obtain ⟨rfl, rfl, he⟩ := runs_pure.mp h
      obtain ⟨rfl, rfl⟩ := Prod.mk.inj he
      exact ⟨rfl, Or.inr (Or.inl ⟨rfl, hpos, hle, rfl, rfl⟩)⟩
    · rename_i hle
      rw [runs_call_bind] at h
      obtain ⟨m, tr', rfl, h⟩ := h
      cases m with
      | none =>
          obtain ⟨rfl, rfl, he⟩ := runs_pure.mp h
          obtain ⟨rfl, rfl⟩ := Prod.mk.inj he
          exact ⟨rfl, Or.inl ⟨by simp, rfl, Or.inr ⟨hpos, hle, rfl⟩⟩⟩
      | some bytes =>
          obtain ⟨t₁, s₁, fresh, t₂, rfl, h₁, h₂⟩ := runs_bind.mp h
          obtain ⟨rfl, rfl, he⟩ := runs_pure.mp h₂
          obtain ⟨rfl, rfl⟩ := Prod.mk.inj he
          -- the copy keeps the size of the block
          have hcopy : t₁ = [] ∧ s' = s ∧ fresh.size = n ∧
              (ignore_copy = true → fresh.bytes = bytes) := by
            rw [copyData] at h₁
            split at h₁
            · rename_i hdata
              split at h₁
              · exact absurd h₁ runs_fault
              · obtain ⟨ht, hs, rfl⟩ := runs_pure.mp h₁
                exact ⟨ht, hs, rfl, fun hi => by simp [hi] at hdata⟩
            · obtain ⟨ht, hs, rfl⟩ := runs_pure.mp h₁
              exact ⟨ht, hs, rfl, fun _ => rfl⟩
          obtain ⟨rfl, rfl, hsize, hbytes⟩ := hcopy
          exact ⟨rfl, Or.inr (Or.inr ⟨rfl, hpos, hle, fresh, hsize, rfl, bytes, rfl, hbytes⟩)⟩

theorem keeps_ensureSizeCopy {ignore_copy : Bool}
    (h : Runs (b.ensureSizeCopy n ignore_copy) s tr s' (r, b')) : s' = s ∧ Keeps b r b' := by
  obtain ⟨hs, ⟨-, rfl, -⟩ | ⟨-, -, -, rfl, -⟩ | ⟨rfl, hpos, hle, block, hsize, rfl, -⟩⟩ :=
    ensureSizeCopy_cases h
  · exact ⟨hs, keeps_refl⟩
  · exact ⟨hs, keeps_refl⟩
  · refine ⟨hs, keeps_fresh hsize hpos ?_ (Nat.zero_le _)⟩
    rw [UInt32.le_iff_toNat_le] at hle ⊢
    omega

/-- A copy that is done has written inside the grown block, and its length is that of the
data. -/
theorem keeps_copyMem (h : Runs (b.copyMem mem length offset) s tr s' (r, b')) :
    s' = s ∧ Keeps b r b' := by
  obtain ⟨t₁, s₁, ⟨ret, grown⟩, t₂, -, h₁, h₂⟩ := runs_bind.mp h
  obtain ⟨rfl, hgrown⟩ := keeps_ensureSizeCopy h₁
  dsimp only at h₂
  split at h₂
  · obtain ⟨-, rfl, he⟩ := runs_pure.mp h₂
    obtain ⟨rfl, rfl⟩ := Prod.mk.inj he
    exact ⟨rfl, hgrown⟩
  · rename_i hret
    have hok : ret = .ok := by simpa using hret
    subst hok
    split at h₂
    · rename_i block bytes hb hsource
      split at h₂
      · rename_i hfit
        obtain ⟨-, rfl, he⟩ := runs_pure.mp h₂
        obtain ⟨rfl, rfl⟩ := Prod.mk.inj he
        refine ⟨rfl, fun hv => ?_, hgrown.grows, fun h => absurd rfl h⟩
        have hv' := hgrown.valid hv
        have hsize := hv'.sized
        refine ⟨by simpa [hb] using hv'.null_iff, by simpa [Sized, hb] using hsize, ?_⟩
        simp only [Sized, hb] at hsize
        rw [← hsize]
        calc (length + offset).toNat = (length.toNat + offset.toNat) % 2 ^ 32 :=
              UInt32.toNat_add ..
          _ ≤ length.toNat + offset.toNat := Nat.mod_le ..
          _ ≤ block.size.toNat := by omega
      · exact absurd h₂ runs_fault
    · exact absurd h₂ runs_fault

/-! ## Undefined accesses -/

/-- The accesses of a `copy_mem` are defined: the copy ends inside of what 32 bits can
count, and its bytes are there, outside of what is written. -/
def CopyDefined (b : Buff) (mem : Pointer) (length offset : UInt32) : Prop :=
  offset.toNat + length.toNat < 2 ^ 32 ∧ (length.toNat = 0 ∨
    match mem with
    | .null => False
    | .outside bytes => length.toNat ≤ bytes.length
    | .own pos => offset.toNat + length.toNat ≤ b.buff_max_size_.toNat ∧
        pos + length.toNat ≤ b.buff_max_size_.toNat ∧
        (pos + length.toNat ≤ offset.toNat ∨ offset.toNat + length.toNat ≤ pos))

variable {f : Fault}

theorem setByte_faults {pos : UInt32} {val : UInt8} (hv : b.Valid) :
    ¬ Faults (b.setByte pos val) s tr f := by
  rw [setByte]
  split
  · exact faults_pure
  · rename_i hpos
    cases hb : b.buff_ with
    | none =>
        rw [hv.null_iff.mp hb, UInt32.le_iff_toNat_le] at hpos
        exact absurd (Nat.zero_le _) hpos
    | some block => exact faults_pure

/-- The data that `ensure_size` copies is there. -/
theorem ensureSizeCopy_faults {ignore_copy : Bool} (hv : b.Valid) :
    ¬ Faults (b.ensureSizeCopy n ignore_copy) s tr f := by
  have hcopy : ∀ {fresh : Block} {s : σ} {t}, ¬ Faults (b.copyData ignore_copy fresh) s t f := by
    intro fresh s t
    rw [copyData]
    split
    · rename_i hdata
      cases hb : b.buff_ with
      | none =>
          have hzero := hv.null_iff.mp hb
          have hle := hv.data_le
          have hlt := UInt32.lt_iff_toNat_lt.mp hdata.1
          rw [hzero, UInt32.toNat_zero] at hle
          rw [UInt32.toNat_zero] at hlt
          omega
      | some old => exact faults_pure
    · exact faults_pure
  rw [ensureSizeCopy]
  split
  · exact faults_pure
  · split
    · exact faults_pure
    · rw [faults_call_bind]
      rintro ⟨m, t, -, h⟩
      cases m with
      | none => exact faults_pure h
      | some bytes =>
          rcases faults_bind.mp h with h | ⟨_, _, _, _, -, -, h⟩
          · exact hcopy h
          · exact faults_pure h

/-- What is to be copied is there. -/
theorem exists_source {grown : Buff} {block : Block} (hdef : b.CopyDefined mem length offset)
    (hb : grown.buff_ = some block) (hsize : block.size = grown.buff_max_size_)
    (hown : offset.toNat + length.toNat ≤ b.buff_max_size_.toNat → grown = b) :
    ∃ bytes, b.source grown mem length.toNat offset.toNat = some bytes := by
  obtain ⟨-, hmem⟩ := hdef
  unfold source
  split
  · exact ⟨[], rfl⟩
  · rename_i hlen
    have hmem := hmem.resolve_left hlen
    cases mem with
    | null => exact hmem.elim
    | outside bytes => exact ⟨_, if_pos hmem⟩
    | own pos =>
        obtain ⟨htotal, hpos, hapart⟩ := hmem
        obtain rfl := hown htotal
        simp only [hb]
        exact ⟨_, if_pos ⟨trivial, by rwa [hsize], hapart⟩⟩

/-- A `copy_mem` ends abnormally only where C leaves it undefined. -/
theorem copyMem_faults (hv : b.Valid) (h : Faults (b.copyMem mem length offset) s tr f) :
    ¬ b.CopyDefined mem length offset := by
  intro hdef
  have htotal : (length + offset).toNat = offset.toNat + length.toNat := by
    rw [UInt32.toNat_add, Nat.mod_eq_of_lt (by have := hdef.1; omega)]
    omega
  rcases faults_bind.mp h with h | ⟨t₁, s₁, ⟨ret, grown⟩, t₂, -, h₁, h₂⟩
  · exact ensureSizeCopy_faults hv h
  · dsimp only at h₂
    split at h₂
    · exact faults_pure h₂
    · rename_i hret
      have hok : ret = .ok := by simpa using hret
      -- the grown buffer has a block with room for the copy
      have hgrown : ∃ block : Block, grown.buff_ = some block ∧ block.size = grown.buff_max_size_ ∧
          offset.toNat + length.toNat ≤ block.size.toNat ∧
          (offset.toNat + length.toNat ≤ b.buff_max_size_.toNat → grown = b) := by
        obtain ⟨-, ⟨hbad, -⟩ | ⟨-, hpos, hle, rfl, -⟩ | ⟨-, -, hle, block, hsize, rfl, -⟩⟩ :=
          ensureSizeCopy_cases h₁
        · exact absurd hok hbad
        · rw [UInt32.le_iff_toNat_le] at hle
          rw [UInt32.lt_iff_toNat_lt, UInt32.toNat_zero] at hpos
          have hs := hv.sized
          rw [Sized] at hs
          cases hb : grown.buff_ with
          | none =>
              simp only [hb] at hs
              rw [hs, UInt32.toNat_zero] at hle
              omega
          | some block =>
              simp only [hb] at hs
              exact ⟨block, rfl, hs, by rw [hs]; omega, fun _ => rfl⟩
        · rw [UInt32.le_iff_toNat_le] at hle
          exact ⟨block, rfl, hsize, by rw [hsize]; omega, fun hfit => by omega⟩
      obtain ⟨block, hb, hsize, hfit, hown⟩ := hgrown
      obtain ⟨bytes, hsource⟩ := exists_source hdef hb hsize hown
      simp only [hb, hsource, hfit, if_true] at h₂
      exact faults_pure h₂

end Buff

/-! ## All buffers -/

section Store
variable {ι : Type} [DecidableEq ι] {s s' : Buffers ι} {i : ι} {tr : SdkTrace} {r : Ret}
  {op : BuffOp ι}

/-- An operation of one buffer keeps that one, and leaves the others alone. -/
theorem onBuff_keeps {f : Buff → Proc sdk (Buffers ι) (Ret × Buff)} {R : Buff → Ret → Buff → Prop}
    (hf : ∀ {b s tr s' r b'}, Runs (f b) s tr s' (r, b') → s' = s ∧ R b r b')
    (h : Runs (Buffers.onBuff i f) s tr s' r) :
    ∃ b', R (s i) r b' ∧ s' = Function.update s i b' := by
  simp only [Buffers.onBuff, runs_get_bind] at h
  obtain ⟨t₁, s₁, ⟨ret, b'⟩, t₂, -, h₁, h₂⟩ := runs_bind.mp h
  obtain ⟨rfl, hb⟩ := hf h₁
  rw [runs_modify_bind, runs_pure] at h₂
  obtain ⟨-, rfl, rfl⟩ := h₂
  exact ⟨b', hb, rfl⟩

theorem copyMem_keeps {mem : Address ι} {length offset : UInt32}
    (h : Runs (Buffers.copyMem i mem length offset) s tr s' r) :
    ∃ b', Buff.Keeps (s i) r b' ∧ s' = Function.update s i b' := by
  simp only [Buffers.copyMem, runs_get_bind] at h
  exact onBuff_keeps Buff.keeps_copyMem h

theorem copyFrom_keeps {other : Option ι} {offset : UInt32}
    (h : Runs (Buffers.copyFrom i other offset) s tr s' r) :
    ∃ b', Buff.Keeps (s i) r b' ∧ s' = Function.update s i b' := by
  cases other with
  | none => exact absurd h runs_fault
  | some j =>
      simp only [Buffers.copyFrom, runs_get_bind] at h
      exact copyMem_keeps h

/-- **One operation** keeps one buffer, or is the `free_buff` of one. -/
theorem BuffOp.run_keeps (h : Runs op.run s tr s' r) :
    (∃ i b', Buff.Keeps (s i) r b' ∧ s' = Function.update s i b') ∨
      ∃ i, op = .freeBuff i ∧ r = .ok ∧ s' = Function.update s i .empty := by
  cases op with
  | setDataSize i size =>
      have hset : ∀ {b : Buff} {s : Buffers ι} {tr s' r b'},
          Runs (do let b ← b.setDataSize size; pure (Ret.ok, b)) s tr s' (r, b') →
            s' = s ∧ Buff.Keeps b r b' := by
        intro b s tr s' r b' h
        obtain ⟨b₁, h₁, he⟩ := runs_bind_pure.mp h
        obtain ⟨rfl, rfl⟩ := Prod.mk.inj he
        exact Buff.keeps_setDataSize h₁
      exact Or.inl ⟨i, onBuff_keeps hset h⟩
  | setByte i pos val => exact Or.inl ⟨i, onBuff_keeps Buff.keeps_setByte h⟩
  | freeBuff i =>
      simp only [run, Buffers.onBuff, runs_get_bind, pure_bind, runs_modify_bind, runs_pure] at h
      exact Or.inr ⟨i, rfl, h.2.2, h.2.1⟩
  | emptyBuff i =>
      simp only [run, Buffers.onBuff, runs_get_bind, pure_bind, runs_modify_bind, runs_pure] at h
      obtain ⟨-, rfl, rfl⟩ := h
      exact Or.inl ⟨i, _, Buff.keeps_emptyBuff, rfl⟩
  | ensureSize i n => exact Or.inl ⟨i, onBuff_keeps Buff.keeps_ensureSizeCopy h⟩
  | ensureSizeCopy i n ignore => exact Or.inl ⟨i, onBuff_keeps Buff.keeps_ensureSizeCopy h⟩
  | copyMem i mem length offset => exact Or.inl ⟨i, copyMem_keeps h⟩
  | copyFrom i other offset => exact Or.inl ⟨i, copyFrom_keeps h⟩
  | copyTo i to_ =>
      cases to_ with
      | none =>
          obtain ⟨-, rfl, rfl⟩ := runs_pure.mp h
          exact Or.inl ⟨i, s' i, Buff.keeps_refl, by simp⟩
      | some j =>
          have hcopy : Runs (Buffers.copyFrom j (some i) 0) s tr s' r := h
          exact Or.inl ⟨j, copyFrom_keeps hcopy⟩

/-- The caller meets the obligations of the operation: the assertion of `set_data_size`,
a buffer to copy from, and copies that C defines. -/
def BuffOp.Defined (s : Buffers ι) : BuffOp ι → Prop
  | .setDataSize i size => size < (s i).buff_max_size_
  | .copyMem i mem length offset => (s i).CopyDefined (s.pointer i mem) length offset
  | .copyFrom _ none _ => False
  | .copyFrom i (some j) offset =>
    (s i).CopyDefined (s.pointer i (s.getBuff j)) (s j).data_size_t_ offset
  | .copyTo _ none => True
  | .copyTo i (some j) => (s j).CopyDefined (s.pointer j (s.getBuff i)) (s i).data_size_t_ 0
  | _ => True

theorem onBuff_faults {f : Buff → Proc sdk (Buffers ι) (Ret × Buff)} {e : Fault} :
    Faults (Buffers.onBuff i f) s tr e ↔ Faults (f (s i)) s tr e := by
  simp only [Buffers.onBuff, faults_get_bind]
  rw [faults_bind]
  simp

theorem BuffOp.run_faults {f : Fault} (hv : ∀ i, (s i).Valid) (h : Faults op.run s tr f) :
    ¬ op.Defined s := by
  have hcopy : ∀ {i mem length offset}, Faults (Buffers.copyMem i mem length offset) s tr f →
      ¬ (s i).CopyDefined (s.pointer i mem) length offset := by
    intro i mem length offset h
    simp only [Buffers.copyMem, faults_get_bind] at h
    exact Buff.copyMem_faults (hv i) (onBuff_faults.mp h)
  have hfrom : ∀ {i j offset}, Faults (Buffers.copyFrom i (some j) offset) s tr f →
      ¬ (s i).CopyDefined (s.pointer i (s.getBuff j)) (s j).data_size_t_ offset := by
    intro i j offset h
    simp only [Buffers.copyFrom, faults_get_bind] at h
    rw [Buff.toUInt32_getDataLen] at h
    exact hcopy h
  cases op with
  | setDataSize i size =>
      rw [run, onBuff_faults] at h
      simp only [Buff.setDataSize, bind_assoc, faults_require_bind, pure_bind, faults_pure,
        and_false, or_false] at h
      exact h.1
  | setByte i pos val =>
      rw [run, onBuff_faults] at h
      exact absurd h (Buff.setByte_faults (hv i))
  | freeBuff i =>
      rw [run, onBuff_faults] at h
      exact absurd h faults_pure
  | emptyBuff i =>
      rw [run, onBuff_faults] at h
      exact absurd h faults_pure
  | ensureSize i n =>
      rw [run, onBuff_faults] at h
      exact absurd h (Buff.ensureSizeCopy_faults (hv i))
  | ensureSizeCopy i n ignore =>
      rw [run, onBuff_faults] at h
      exact absurd h (Buff.ensureSizeCopy_faults (hv i))
  | copyMem i mem length offset => exact hcopy h
  | copyFrom i other offset =>
      cases other with
      | none => exact id
      | some j => exact hfrom h
  | copyTo i to_ =>
      cases to_ with
      | none => exact absurd h faults_pure
      | some j => exact hfrom h

theorem BuffOp.run_valid (hv : ∀ i, (s i).Valid) (h : Runs op.run s tr s' r) :
    ∀ i, (s' i).Valid := by
  have hset : ∀ {i b'}, b'.Valid → ∀ j, (Function.update s i b' j).Valid := by
    intro i b' hb j
    by_cases hj : j = i
    · subst hj
      simpa using hb
    · simpa [hj] using hv j
  rcases op.run_keeps h with ⟨i, b', hb, rfl⟩ | ⟨i, -, -, rfl⟩
  · exact hset (hb.valid (hv i))
  · exact hset Buff.valid_empty

theorem perform_valid {ops : List (BuffOp ι)} (hv : ∀ i, (s i).Valid)
    (h : Runs (perform ops) s tr s' ()) : ∀ i, (s' i).Valid := by
  induction ops generalizing s tr with
  | nil =>
      obtain ⟨-, rfl, -⟩ := runs_pure.mp h
      exact hv
  | cons op ops ih =>
      obtain ⟨t₁, s₁, ret, t₂, -, h₁, h₂⟩ := runs_bind.mp h
      exact ih (op.run_valid hv h₁) h₂

/-- **Buffers stay valid.**  After any operations on any number of new buffers, with any
arguments and any answers of `malloc`, all of them are valid; one more operation leaves
them valid, shrinks no capacity but in `free_buff`, and has changed nothing when it
reports an error.  It ends abnormally only where its caller broke an obligation. -/
theorem buffers_kept {ops : List (BuffOp ι)} {t : SdkTrace}
    (h : Runs (perform ops) (fun _ => .empty) t s ()) :
    (∀ i, (s i).Valid) ∧ ∀ op : BuffOp ι,
      (∀ tr s' r, Runs op.run s tr s' r → (∀ i, (s' i).Valid) ∧
        (∀ i, op ≠ .freeBuff i → (s i).buff_max_size_ ≤ (s' i).buff_max_size_) ∧
        (r ≠ .ok → s' = s)) ∧
      ∀ tr f, Faults op.run s tr f → ¬ op.Defined s := by
  have hv : ∀ i, (s i).Valid := perform_valid (fun _ => Buff.valid_empty) h
  refine ⟨hv, fun op => ⟨fun tr s' r hr => ⟨op.run_valid hv hr, ?_, ?_⟩, fun tr f hf =>
    op.run_faults hv hf⟩⟩
  · intro j hj
    rcases op.run_keeps hr with ⟨i, b', hb, rfl⟩ | ⟨i, rfl, -, rfl⟩
    · by_cases hji : j = i
      · subst hji
        simpa using hb.grows
      · simp [hji]
    · have hji : j ≠ i := fun hji => hj (hji ▸ rfl)
      simp [hji]
  · intro hbad
    rcases op.run_keeps hr with ⟨i, b', hb, rfl⟩ | ⟨i, -, hok, -⟩
    · rw [hb.fails hbad, Function.update_eq_self]
    · exact absurd hok hbad

end Store

/-- A buffer is filled, grown and copied to another one. -/
def fillAndCopy : List (BuffOp Bool) :=
  [.copyMem true (.outside [1, 2, 3]) 3 0, .copyMem true (.inside true 0) 1 2,
    .ensureSizeCopy true 8 false, .copyTo true (some false), .setByte false 9 0, .freeBuff true]

theorem buffers_kept_fillAndCopy : ∃ (t : SdkTrace) (s : Buffers Bool),
    Runs (perform fillAndCopy) (fun _ => .empty) t s () ∧ ∀ i, (s i).Valid := by
  have hrun : Runs (perform fillAndCopy) (fun _ => .empty) _ _ () :=
    runs_of_exec (o := obliging) rfl
  exact ⟨_, _, hrun, (buffers_kept hrun).1⟩

end CameraService
