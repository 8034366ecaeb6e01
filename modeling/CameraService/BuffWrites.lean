import CameraService.BuffContents

/-!
# Where `copy_mem` writes

The end of a copy is a sum of 32 bits, and `ensure_size` makes room for that sum.  When it
wraps around, `memcpy` writes past the block.  C leaves this undefined, and the model of
`copy_mem` ends there.  Here is a machine on which the call goes on and returns `0`, as it
does on a real one.

## Main definitions

* `Buff.copyMemUnchecked` — `copy_mem` on that machine.
* `Buff.WritesInside` — the copy ends in the buffer, and its length is that of the data.
* `Buff.Bounded` — the end of the copy has 32 bits.
-/

namespace CameraService

open Interaction

namespace Buff

variable {σ : Type} {b b' : Buff} {mem : Pointer} {length offset : UInt32} {peek : ℕ → UInt8}
  {s s' : σ} {tr : SdkTrace} {r : Ret}

/-- `copy_mem` on a machine that goes on when `memcpy` ends outside of the block: `peek` is
what it reads, and each byte is stored where it belongs. -/
def copyMemUnchecked (b : Buff) (peek : ℕ → UInt8) (length offset : UInt32) :
    Proc sdk σ (Ret × Buff) := do
  let total := length + offset
  let (ret, grown) ← b.ensureSize total
  if ret ≠ .ok then pure (ret, grown)
  else
    pure (.ok, { grown with
      buff_ := grown.buff_.map
        (·.splice offset.toNat ((List.range length.toNat).map peek)),
      data_size_t_ := total })

/-- When the call returns `0`, `memcpy` has written inside of the capacity, and the length of
the data is where it ended. -/
def WritesInside (length offset : UInt32) (r : Ret) (b' : Buff) : Prop :=
  r = .ok → offset.toNat + length.toNat ≤ b'.buff_max_size_.toNat ∧
    b'.data_size_t_.toNat = offset.toNat + length.toNat

/-- The end of the copy has 32 bits, or the call ends before it copies: what is left of the
end is zero, or there is no memory. -/
def Bounded (length offset : UInt32) (tr : SdkTrace) : Prop :=
  offset.toNat + length.toNat < 2 ^ 32 ∨ length + offset = 0 ∨
    ⟨.malloc (length + offset), none⟩ ∈ tr

theorem writesInside_iff (h : Runs (b.copyMemUnchecked peek length offset) s tr s' (r, b')) :
    WritesInside length offset r b' ↔ Bounded length offset tr := by
  obtain ⟨t₁, s₁, ⟨ret, grown⟩, t₂, rfl, h₁, h₂⟩ := runs_bind.mp h
  have hcap : grown.buff_max_size_.toNat < 2 ^ 32 := UInt32.toNat_lt _
  have hmod : (length + offset).toNat = (length.toNat + offset.toNat) % 2 ^ 32 :=
    UInt32.toNat_add ..
  obtain ⟨rfl, ⟨hbad, rfl, hwhy⟩ | ⟨rfl, hpos, hle, rfl, rfl⟩ |
    ⟨rfl, hpos, -, block, -, rfl, fresh, rfl, -⟩⟩ := ensureSizeCopy_cases h₁ <;> dsimp only at h₂
  · rw [if_pos hbad, runs_pure] at h₂
    obtain ⟨rfl, -, he⟩ := h₂
    obtain ⟨rfl, rfl⟩ := Prod.mk.inj he
    refine iff_of_true (fun hok => absurd hok hbad) (Or.inr ?_)
    exact hwhy.imp And.left fun hnone => by simp [hnone.2.2]
  · rw [if_neg (fun hne => hne rfl), runs_pure] at h₂
    obtain ⟨rfl, -, he⟩ := h₂
    obtain ⟨rfl, rfl⟩ := Prod.mk.inj he
    rw [UInt32.le_iff_toNat_le] at hle
    constructor
    · intro hw
      have := (hw rfl).1
      dsimp only at this
      exact Or.inl (by omega)
    · rintro (hlt | hzero | hmem)
      · have htotal := toNat_total hlt
        intro _
        dsimp only
        omega
      · exact absurd hpos (by simp [hzero])
      · exact absurd hmem (by simp)
  · rw [if_neg (fun hne => hne rfl), runs_pure] at h₂
    obtain ⟨rfl, -, he⟩ := h₂
    obtain ⟨rfl, rfl⟩ := Prod.mk.inj he
    constructor
    · intro hw
      have := (hw rfl).1
      dsimp only at this hcap
      exact Or.inl (by omega)
    · rintro (hlt | hzero | hmem)
      · have htotal := toNat_total hlt
        intro _
        dsimp only
        omega
      · exact absurd hpos (by simp [hzero])
      · simp at hmem

/-- As many bytes are read as are to be copied. -/
theorem length_source {grown : Buff} {bytes : Bytes} {m k : ℕ}
    (h : b.source grown mem m k = some bytes) : bytes.length = m := by
  unfold source at h
  split at h
  · rename_i hzero
    cases h
    exact hzero.symm
  · split at h
    · rename_i outside
      by_cases hle : m ≤ outside.length
      · rw [if_pos hle, Option.some_inj] at h
        rw [← h, List.length_take, Nat.min_eq_left hle]
      · rw [if_neg hle] at h
        cases h
    · rename_i pos block _
      split at h
      · rw [Option.some_inj] at h
        rw [← h, List.length_drop, Block.length_read]
        omega
      · cases h
    · cases h

/-- Where `copy_mem` is defined, the machine does the same. -/
theorem copyMem_unchecked (h : Runs (b.copyMem mem length offset) s tr s' (r, b')) :
    ∃ peek, Runs (b.copyMemUnchecked peek length offset) s tr s' (r, b') := by
  obtain ⟨t₁, s₁, ⟨ret, grown⟩, t₂, rfl, h₁, h₂⟩ := runs_bind.mp h
  dsimp only at h₂
  split at h₂
  · rename_i hret
    refine ⟨fun _ => 0, runs_bind.mpr ⟨t₁, s₁, _, t₂, rfl, h₁, ?_⟩⟩
    simpa only [if_pos hret] using h₂
  · rename_i hret
    split at h₂
    · rename_i block bytes hb hsource
      split at h₂
      · have hpeek : (List.range length.toNat).map (fun i => bytes[i]?.getD 0) = bytes := by
          rw [← length_source hsource]
          apply List.ext_getElem
          · simp
          · intro i hi hi'
            simp [List.getElem?_eq_getElem hi']
        refine ⟨fun i => bytes[i]?.getD 0, runs_bind.mpr ⟨t₁, s₁, _, t₂, rfl, h₁, ?_⟩⟩
        simpa only [if_neg hret, hpeek, hb, Option.map_some] using h₂
      · exact absurd h₂ runs_fault
    · exact absurd h₂ runs_fault

/-- Where the machine writes outside, `copy_mem` is undefined. -/
theorem copyMem_faults_outside (hv : b.Valid)
    (h : Runs (b.copyMemUnchecked peek length offset) s tr s' (r, b'))
    (hout : ¬ WritesInside length offset r b') :
    Faults (b.copyMem mem length offset) s tr .badCopy := by
  have hwrap : ¬ offset.toNat + length.toNat < 2 ^ 32 := fun hlt =>
    hout ((writesInside_iff h).mpr (Or.inl hlt))
  obtain ⟨t₁, s₁, ⟨ret, grown⟩, t₂, rfl, h₁, h₂⟩ := runs_bind.mp h
  have hv' := (keeps_ensureSizeCopy h₁).2.valid hv
  refine faults_bind.mpr (Or.inr ⟨t₁, s₁, _, t₂, rfl, h₁, ?_⟩)
  dsimp only at h₂ ⊢
  split at h₂
  · rename_i hret
    obtain ⟨-, -, he⟩ := runs_pure.mp h₂
    obtain ⟨rfl, rfl⟩ := Prod.mk.inj he
    exact absurd (fun hok => absurd hok hret) hout
  · rename_i hret
    obtain ⟨rfl, rfl, -⟩ := runs_pure.mp h₂
    rw [if_neg hret]
    split
    · rename_i block bytes hb hsource
      have hsize : block.size.toNat < 2 ^ 32 := UInt32.toNat_lt _
      rw [if_neg (by omega), faults_fault]
      exact ⟨rfl, rfl⟩
    · rw [faults_fault]
      exact ⟨rfl, rfl⟩

end Buff

namespace Buffers

variable {ι : Type} [DecidableEq ι]

/-- `copy_mem` on the machine; `peek` is the memory behind an address. -/
def copyMemUnchecked (peek : Address ι → ℕ → UInt8) (i : ι) (mem : Address ι)
    (length offset : UInt32) : Proc sdk (Buffers ι) Ret :=
  onBuff i fun b => b.copyMemUnchecked (peek mem) length offset

/-- `copy_from` on the machine. -/
def copyFromUnchecked (peek : Address ι → ℕ → UInt8) (i : ι) (other : Option ι)
    (offset : UInt32) : Proc sdk (Buffers ι) Ret :=
  match other with
  | none => Proc.fault .nullBuffer
  | some j => do
    let s ← Proc.get
    copyMemUnchecked peek i (s.getBuff j) (s j).getDataLen.toUInt32 offset

/-- `copy_to` on the machine. -/
def copyToUnchecked (peek : Address ι → ℕ → UInt8) (i : ι) (to_ : Option ι) :
    Proc sdk (Buffers ι) Ret :=
  match to_ with
  | none => pure (.err .failure)
  | some j => copyFromUnchecked peek j (some i) 0

variable {peek : Address ι → ℕ → UInt8} {s s' : Buffers ι} {i j : ι} {mem : Address ι}
  {length offset : UInt32} {tr : SdkTrace} {r : Ret}

theorem copyMemUnchecked_inside (h : Runs (copyMemUnchecked peek i mem length offset) s tr s' r) :
    Buff.WritesInside length offset r (s' i) ↔ Buff.Bounded length offset tr := by
  simp only [copyMemUnchecked, onBuff, runs_get_bind] at h
  obtain ⟨t₁, s₁, ⟨ret, b'⟩, t₂, rfl, h₁, h₂⟩ := runs_bind.mp h
  rw [runs_modify_bind, runs_pure] at h₂
  obtain ⟨rfl, rfl, rfl⟩ := h₂
  simpa using Buff.writesInside_iff h₁

theorem copyFromUnchecked_inside (h : Runs (copyFromUnchecked peek i (some j) offset) s tr s' r) :
    Buff.WritesInside (s j).data_size_t_ offset r (s' i) ↔
      Buff.Bounded (s j).data_size_t_ offset tr := by
  simp only [copyFromUnchecked, runs_get_bind, Buff.toUInt32_getDataLen] at h
  exact copyMemUnchecked_inside h

end Buffers

/-- **`copy_mem` writes inside of its buffer** exactly when the end of the copy has 32 bits.
For all buffers, all lengths and offsets, and all answers of `malloc`; so does `copy_from`,
and `copy_to`, which copies to the start, always does. -/
theorem writesInside_iff_bounded {ι : Type} [DecidableEq ι] (peek : Address ι → ℕ → UInt8)
    (s : Buffers ι) :
    (∀ i mem length offset tr s' r,
      Runs (Buffers.copyMemUnchecked peek i mem length offset) s tr s' r →
      (Buff.WritesInside length offset r (s' i) ↔ Buff.Bounded length offset tr)) ∧
    (∀ i j offset tr s' r, Runs (Buffers.copyFromUnchecked peek i (some j) offset) s tr s' r →
      (Buff.WritesInside (s j).data_size_t_ offset r (s' i) ↔
        Buff.Bounded (s j).data_size_t_ offset tr)) ∧
    ∀ i j tr s' r, Runs (Buffers.copyToUnchecked peek i (some j)) s tr s' r →
      Buff.WritesInside (s i).data_size_t_ 0 r (s' j) := by
  refine ⟨fun i mem length offset tr s' r h => Buffers.copyMemUnchecked_inside h,
    fun i j offset tr s' r h => Buffers.copyFromUnchecked_inside h, fun i j tr s' r h => ?_⟩
  have hfrom : Runs (Buffers.copyFromUnchecked peek j (some i) 0) s tr s' r := h
  apply (Buffers.copyFromUnchecked_inside hfrom).mpr
  refine Or.inl ?_
  rw [UInt32.toNat_zero, Nat.zero_add]
  exact UInt32.toNat_lt _

/-- A buffer for sixteen bytes. -/
def sixteen : Buffers Unit := fun _ => ⟨some ⟨16, fun _ => 0⟩, 16, 0⟩

/-- Three bytes are copied behind the first eight positions. -/
theorem writesInside_iff_bounded_three : ∃ (tr : SdkTrace) (s' : Buffers Unit),
    Runs (Buffers.copyMemUnchecked (fun _ _ => 1) () (.outside []) 3 8) sixteen tr s' .ok ∧
      Buff.WritesInside 3 8 .ok (s' ()) := by
  have hrun : Runs (Buffers.copyMemUnchecked (fun _ _ => 1) () (.outside []) 3 8) sixteen _ _ .ok :=
    runs_of_exec (o := obliging) rfl
  refine ⟨_, _, hrun, ?_⟩
  exact ((writesInside_iff_bounded (fun _ _ => 1) sixteen).1 _ _ _ _ _ _ _ hrun).mpr
    (Or.inl (by decide))

/-- Sixteen bytes for the last eight positions that 32 bits can count: the call returns `0`
after a write far outside of the block. -/
theorem not_writesInside : ∃ (peek : Address Unit → ℕ → UInt8) (tr : SdkTrace) (s' : Buffers Unit),
    Reached sixteen ∧
      Runs (Buffers.copyMemUnchecked peek () (.outside []) 0x10 0xFFFFFFF8) sixteen tr s' .ok ∧
        ¬ Buff.WritesInside 0x10 0xFFFFFFF8 .ok (s' ()) := by
  have hmade : Runs (BuffOp.run (.ensureSize () 16)) (fun _ => .empty) _ _ .ok :=
    runs_of_exec (o := obliging) rfl
  have hreached : Reached sixteen := by
    refine (congrArg Reached ?_).mp (Reached.new.op hmade)
    funext i
    simp [sixteen, Buff.freeBuff]
  have hrun : Runs (Buffers.copyMemUnchecked (fun _ _ => 0) () (.outside []) 0x10 0xFFFFFFF8)
      sixteen _ _ .ok := runs_of_exec (o := obliging) rfl
  refine ⟨_, _, _, hreached, hrun, fun h => ?_⟩
  exact absurd (h rfl).1 (by decide)

end CameraService
