import CameraService.BuffStore
import CameraService.Lib.Respondents

/-!
# Arrays

`array_t` of `utils.h`: an array of any element type in a `buff_t`, which is to grow as
elements are appended.  `ensure_size` answers `0` when there is room.  `append` gives up on
that answer, and so no array ever has an element.

## Main definitions

* `Layout` — an element type as it lies in memory.
* `ArrayT`, `ArrayT.ensureSize`, `ArrayT.freeBuff`, `ArrayT.set`, `ArrayT.append` — the class.
* `ArrayOp`, `ArrayT.perform` — a sequence of operations.
* `ArrayT.Refines` — the sequence does what it does to a list.
* `ArrayT.Barren` — what the operations keep.
-/

namespace CameraService

open Interaction

/-- How the values of an element type lie in memory: `sizeof(T)`, and their bytes. -/
structure Layout (T : Type) where
  size : ℕ
  encode : T → Bytes
  decode : Bytes → T
  size_pos : 0 < size
  length_encode : ∀ v, (encode v).length = size
  decode_encode : ∀ v, decode (encode v) = v

/-- `array_t`. -/
structure ArrayT where
  buff_ : Buff
  /-- Whether `header_` is the block of the buffer; it is not until `ensure_size` was called. -/
  header_ : Bool
  max_size_ : UInt32
  end_ : UInt32

/-- An operation of `array_t`. -/
inductive ArrayOp (T : Type)
  | append (val : T)
  | set (pos : UInt32) (val : T)

namespace ArrayT

/-- A program of the array. -/
abbrev ArrayProc (α : Type) : Type := Proc sdk ArrayT α

/-- No elements, and no buffer. -/
def empty : ArrayT := ⟨.empty, false, 0, 0⟩

section Operations
variable {T : Type} (L : Layout T)

/-- `ensure_size`.  The length has 32 bits. -/
def ensureSize (new_element_size : UInt32) : ArrayProc Ret := do
  let new_element_size := new_element_size <<< 1
  let len := UInt32.ofNat (L.size * new_element_size.toNat)
  let a ← Proc.get
  let (ret, b) ← a.buff_.ensureSize len
  Proc.modify fun a => { a with buff_ := b }
  if ret ≠ .ok then pure ret
  else do
    Proc.modify fun a => { a with max_size_ := new_element_size, header_ := true }
    pure ret

/-- `free_buff`, which leaves a `header_` that dangles. -/
def freeBuff : ArrayProc Unit :=
  Proc.modify fun a => { a with buff_ := a.buff_.freeBuff, header_ := false }

/-- `header_[pos] = val`. -/
def store (pos : UInt32) (val : T) : ArrayProc Unit := do
  let a ← Proc.get
  match a.header_, a.buff_.buff_ with
  | true, some block =>
    if L.size * (pos.toNat + 1) ≤ block.size.toNat then
      Proc.modify fun a => { a with
        buff_ := { a.buff_ with buff_ := some (block.splice (L.size * pos.toNat) (L.encode val)) } }
    else Proc.fault .badCopy
  | _, _ => Proc.fault .nullBuffer

/-- `set`. -/
def set (pos : UInt32) (val : T) : ArrayProc Ret := do
  let a ← Proc.get
  if a.max_size_ ≤ pos then pure (.err .failure)
  else do
    store L pos val
    pure .ok

/-- `append`.  The test is that of the source: it takes the answer `0` for a failure. -/
def append (val : T) : ArrayProc Ret := do
  let a ← Proc.get
  let ret ← ensureSize L (a.end_ + 1)
  if ret = .ok then pure (.err .failure)
  else do
    store L a.end_ val
    Proc.modify fun a => { a with end_ := a.end_ + 1 }
    let a ← Proc.get
    let b ← a.buff_.setDataSize (UInt32.ofNat (a.end_.toNat * L.size))
    Proc.modify fun a => { a with buff_ := b }
    pure .ok

/-- `get_element_size`. -/
def getElementSize (a : ArrayT) : UInt32 := a.end_

/-- The element at a position of `get_buff()`. -/
def element (a : ArrayT) (i : ℕ) : Option T :=
  a.buff_.buff_.map fun block => L.decode ((block.read (L.size * (i + 1))).drop (L.size * i))

end Operations

end ArrayT

section Sequences
variable {T : Type} (L : Layout T)

/-- The operation, with its result. -/
def ArrayOp.run : ArrayOp T → ArrayT.ArrayProc Ret
  | .append val => ArrayT.append L val
  | .set pos val => ArrayT.set L pos val

/-- The operation on a list. -/
def ArrayOp.apply (l : List T) : ArrayOp T → List T
  | .append val => l ++ [val]
  | .set pos val => l.set pos.toNat val

/-- The list that a sequence of operations makes. -/
def contents (ops : List (ArrayOp T)) : List T := ops.foldl ArrayOp.apply []

/-- How often a sequence appends. -/
def appends : List (ArrayOp T) → ℕ
  | [] => 0
  | .append _ :: ops => appends ops + 1
  | .set _ _ :: ops => appends ops

/-- The operations in turn, with their results. -/
def ArrayT.perform : List (ArrayOp T) → ArrayT.ArrayProc (List Ret)
  | [] => pure []
  | op :: ops => do
    let ret ← op.run L
    let rets ← ArrayT.perform ops
    pure (ret :: rets)

/-- The array has the elements of the list. -/
structure ArrayT.Represents (a : ArrayT) (l : List T) : Prop where
  length : a.getElementSize.toNat = l.length
  elements : ∀ i (hi : i < l.length), a.element L i = some l[i]

/-- From the empty array, whenever no allocation fails, the operations are defined, every
`append` returns `0`, and the array has the elements of the list that they make. -/
def ArrayT.Refines (ops : List (ArrayOp T)) : Prop :=
  ∀ tr, Allocates tr → (∀ f, ¬ Faults (ArrayT.perform L ops) .empty tr f) ∧
    ∀ (a : ArrayT) (rets : List Ret), Runs (ArrayT.perform L ops) .empty tr a rets →
      (∀ (i : ℕ) (val : T), ops[i]? = some (ArrayOp.append val) → rets[i]? = some Ret.ok) ∧
        a.Represents L (contents ops)

end Sequences

/-! ## Nothing is ever appended -/

namespace ArrayT

variable {T : Type} {L : Layout T} {a a' : ArrayT} {tr : SdkTrace} {r : Ret} {f : Fault}

/-- What the operations keep: no elements, and no room or that for the two that the first
`append` asks for. -/
inductive Barren (L : Layout T) : ArrayT → Prop
  | empty : Barren L .empty
  | grown (block : Block) (hsize : block.size = UInt32.ofNat (L.size * 2)) :
    Barren L ⟨⟨some block, block.size, 0⟩, true, 2, 0⟩

theorem Barren.end_eq (h : Barren L a) : a.end_ = 0 := by
  cases h <;> rfl

/-- Room for two elements is not nothing. -/
theorem room_ne_zero (hsize : L.size * 2 < 2 ^ 32) : UInt32.ofNat (L.size * 2) ≠ 0 := by
  intro h0
  have hpos := L.size_pos
  have hroom : (UInt32.ofNat (L.size * 2)).toNat = L.size * 2 := UInt32.toNat_ofNat_of_lt' hsize
  rw [h0, UInt32.toNat_zero] at hroom
  omega

theorem ensureSize_faults (hv : a.buff_.Valid) {n : UInt32} :
    ¬ Faults (ensureSize L n) a tr f := by
  intro hf
  simp only [ensureSize, faults_get_bind] at hf
  rcases faults_bind.mp hf with hf | ⟨t₁, a₁, ⟨ret, b⟩, t₂, -, -, hf⟩
  · exact Buff.ensureSizeCopy_faults hv hf
  · rw [faults_modify_bind] at hf
    split at hf
    · exact absurd hf faults_pure
    · rw [faults_modify_bind] at hf
      exact absurd hf faults_pure

/-- Room is made for the first element, unless an allocation fails. -/
theorem Barren.ensureSize (h : Barren L a) (hsize : L.size * 2 < 2 ^ 32) (hall : Allocates tr)
    (hrun : Runs (ensureSize L 1) a tr a' r) : r = .ok ∧ Barren L a' := by
  simp only [ArrayT.ensureSize, runs_get_bind] at hrun
  obtain ⟨t₁, a₁, ⟨ret, b⟩, t₂, rfl, h₁, h₂⟩ := runs_bind.mp hrun
  rw [runs_modify_bind] at h₂
  obtain ⟨rfl, hcases⟩ := Buff.ensureSizeCopy_cases h₁
  have htwo : ((1 : UInt32) <<< 1).toNat = 2 := by decide
  rw [htwo] at hcases
  have hroom := room_ne_zero hsize
  rcases hcases with ⟨-, -, hn⟩ | ⟨rfl, -, hle, rfl, -⟩ | ⟨rfl, -, hle, block, hblock, rfl, -⟩
  · rcases hn with ⟨hn, -⟩ | ⟨-, -, rfl⟩
    · exact absurd hn hroom
    · exact absurd (by simp) (hall (UInt32.ofNat (L.size * 2)))
  · simp only [ne_eq, not_true_eq_false, if_false, runs_modify_bind, runs_pure] at h₂
    obtain ⟨-, rfl, rfl⟩ := h₂
    cases h with
    | empty =>
        rw [UInt32.le_iff_toNat_le] at hle
        exact absurd (UInt32.toNat_inj.mp (Nat.le_zero.mp hle)) hroom
    | grown block hblock => exact ⟨rfl, .grown block hblock⟩
  · simp only [ne_eq, not_true_eq_false, if_false, runs_modify_bind, runs_pure] at h₂
    obtain ⟨-, rfl, rfl⟩ := h₂
    have hgrown : Barren L ⟨⟨some block, block.size, 0⟩, true, 2, 0⟩ := .grown block hblock
    rw [hblock] at hgrown
    rw [h.end_eq]
    exact ⟨rfl, hgrown⟩

/-- **`append` fails** whenever it could have succeeded. -/
theorem Barren.append {val : T} (h : Barren L a) (hsize : L.size * 2 < 2 ^ 32)
    (hall : Allocates tr) (hrun : Runs (append L val) a tr a' r) :
    r = .err .failure ∧ Barren L a' := by
  simp only [ArrayT.append, runs_get_bind, h.end_eq] at hrun
  obtain ⟨t₁, a₁, ret, t₂, rfl, h₁, h₂⟩ := runs_bind.mp hrun
  obtain ⟨rfl, hbarren⟩ := h.ensureSize hsize (fun n hn => hall n (List.mem_append_left _ hn)) h₁
  rw [if_pos rfl, runs_pure] at h₂
  obtain ⟨-, rfl, rfl⟩ := h₂
  exact ⟨rfl, hbarren⟩

/-- Storing an element touches the bytes of the block only. -/
theorem Barren.store {pos : UInt32} {val : T} {u : Unit} (h : Barren L a)
    (hrun : Runs (store L pos val) a tr a' u) : Barren L a' := by
  cases h with
  | empty =>
      simp only [ArrayT.store, runs_get_bind, ArrayT.empty] at hrun
      exact absurd hrun runs_fault
  | grown block hblock =>
      simp only [ArrayT.store, runs_get_bind] at hrun
      split at hrun
      · obtain ⟨-, rfl, -⟩ := runs_modify.mp hrun
        exact .grown (block.splice (L.size * pos.toNat) (L.encode val)) hblock
      · exact absurd hrun runs_fault

theorem Barren.set {pos : UInt32} {val : T} (h : Barren L a)
    (hrun : Runs (ArrayT.set L pos val) a tr a' r) : Barren L a' := by
  simp only [ArrayT.set, runs_get_bind] at hrun
  split at hrun
  · obtain ⟨-, rfl, -⟩ := runs_pure.mp hrun
    exact h
  · obtain ⟨t₁, a₁, u, t₂, -, h₁, h₂⟩ := runs_bind.mp hrun
    obtain ⟨-, rfl, -⟩ := runs_pure.mp h₂
    exact h.store h₁

/-! ### Sequences -/

variable {ops : List (ArrayOp T)} {rets : List Ret}

/-- Every `append` of a sequence fails. -/
theorem Barren.perform (h : Barren L a) (hsize : L.size * 2 < 2 ^ 32) (hall : Allocates tr)
    (hrun : Runs (perform L ops) a tr a' rets) :
    ∀ (i : ℕ) (val : T), ops[i]? = some (ArrayOp.append val) → rets[i]? = some (.err .failure) := by
  induction ops generalizing a tr rets with
  | nil => simp
  | cons op ops ih =>
      obtain ⟨t₁, a₁, r, t₂, rfl, h₁, h₂⟩ := runs_bind.mp hrun
      obtain ⟨t₃, a₂, rets', t₄, rfl, h₃, h₄⟩ := runs_bind.mp h₂
      obtain ⟨rfl, rfl, rfl⟩ := runs_pure.mp h₄
      rw [List.append_nil, allocates_append] at hall
      obtain ⟨hall₁, hall₃⟩ := hall
      intro i val hi
      cases op with
      | append v =>
          obtain ⟨rfl, hbarren⟩ := h.append hsize hall₁ h₁
          cases i with
          | zero => rfl
          | succ i => exact ih hbarren hall₃ h₃ i val hi
      | set pos v =>
          cases i with
          | zero => cases hi
          | succ i => exact ih (h.set h₁) hall₃ h₃ i val hi

/-- Without an `append` nothing happens. -/
theorem perform_empty (hops : ∀ val, ArrayOp.append val ∉ ops) :
    (∀ tr f, ¬ Faults (ArrayT.perform L ops) empty tr f) ∧
      ∀ tr a rets, Runs (ArrayT.perform L ops) empty tr a rets → a = empty := by
  induction ops with
  | nil =>
      refine ⟨fun tr f => faults_pure, fun tr a rets h => ?_⟩
      exact (runs_pure.mp h).2.1
  | cons op ops ih =>
      have hrest := ih fun val hval => hops val (List.mem_cons_of_mem _ hval)
      cases op with
      | append v => exact absurd List.mem_cons_self (hops v)
      | set pos v =>
          have hroom : empty.max_size_ ≤ pos := by
            rw [UInt32.le_iff_toNat_le]
            exact Nat.zero_le _
          have hset : ∀ {t a₁ r}, Runs (ArrayOp.run L (.set pos v)) empty t a₁ r → a₁ = empty := by
            intro t a₁ r h
            simp only [ArrayOp.run, ArrayT.set, runs_get_bind, if_pos hroom, runs_pure] at h
            exact h.2.1
          refine ⟨fun tr f hf => ?_, fun tr a rets h => ?_⟩
          · rcases faults_bind.mp hf with hf | ⟨t₁, a₁, r, t₂, -, h₁, hf⟩
            · simp only [ArrayOp.run, ArrayT.set, faults_get_bind, if_pos hroom, faults_pure] at hf
            · rw [hset h₁] at hf
              rcases faults_bind.mp hf with hf | ⟨t₃, a₂, rets, t₄, -, -, hf⟩
              · exact hrest.1 _ _ hf
              · exact absurd hf faults_pure
          · obtain ⟨t₁, a₁, r, t₂, -, h₁, h₂⟩ := runs_bind.mp h
            obtain ⟨t₃, a₂, rets', t₄, -, h₃, h₄⟩ := runs_bind.mp h₂
            obtain ⟨-, rfl, -⟩ := runs_pure.mp h₄
            rw [hset h₁] at h₃
            exact hrest.2 _ _ _ h₃

/-- What a sequence without an `append` makes of a list. -/
theorem contents_of_sets (hops : ∀ val, ArrayOp.append val ∉ ops) : contents ops = [] := by
  rw [contents]
  induction ops with
  | nil => rfl
  | cons op ops ih =>
      have hrest := ih fun val hval => hops val (List.mem_cons_of_mem _ hval)
      cases op with
      | append v => exact absurd List.mem_cons_self (hops v)
      | set pos v => simpa [ArrayOp.apply] using hrest

theorem appends_pos {val : T} (h : ArrayOp.append val ∈ ops) : 0 < appends ops := by
  induction ops with
  | nil => cases h
  | cons op ops ih =>
      cases op with
      | append v => exact Nat.succ_pos _
      | set pos v =>
          rcases List.mem_cons.mp h with h | h
          · cases h
          · exact ih h

/-- An operation that appends breaks the refinement. -/
theorem not_refines_of_append {val : T} (hsize : L.size * 2 < 2 ^ 32)
    (hval : ArrayOp.append val ∈ ops) : ¬ Refines L ops := by
  intro h
  have hanswer : ∀ (op : Call) n, (⟨op, obliging 0 op⟩ : SdkEvent) ≠ ⟨.malloc n, none⟩ := by
    intro op n hn
    have hop : op = .malloc n := congrArg Event.op hn
    subst hop
    cases hn
  obtain ⟨tr, htr, hend⟩ := exists_each (R := fun e : SdkEvent => ∀ n, e ≠ ⟨.malloc n, none⟩)
    (obliging 0) hanswer (ArrayT.perform L ops) empty
  have hall : Allocates tr := fun n hn => htr _ hn n rfl
  rcases hend with ⟨a, rets, hrun⟩ | ⟨f, hf⟩
  · obtain ⟨i, hi⟩ := List.mem_iff_getElem?.mp hval
    have hok := ((h tr hall).2 a rets hrun).1 i val hi
    have hfail := Barren.empty.perform hsize hall hrun i val hi
    rw [hok] at hfail
    cases hfail
  · exact (h tr hall).1 f hf

/-- **No array ever has an element.**  For every element type and every sequence of
operations for which no size has more than 32 bits, with any positions: an array refines
a list exactly when nothing is appended. -/
theorem refines_iff_no_append (L : Layout T) (ops : List (ArrayOp T))
    (hsize : L.size * (2 * appends ops) < 2 ^ 32) :
    Refines L ops ↔ ∀ val, ArrayOp.append val ∉ ops := by
  constructor
  · intro h val hval
    have hpos := appends_pos hval
    have hroom : L.size * 2 ≤ L.size * (2 * appends ops) :=
      Nat.mul_le_mul_left _ (by omega)
    exact not_refines_of_append (by omega) hval h
  · intro hops tr _
    obtain ⟨hfaults, hempty⟩ := perform_empty (L := L) hops
    refine ⟨hfaults tr, fun a rets hrun => ⟨?_, ?_⟩⟩
    · intro i val hi
      exact absurd (List.mem_of_getElem? hi) (hops val)
    · rw [hempty tr a rets hrun, contents_of_sets hops]
      exact ⟨rfl, fun i hi => absurd hi (Nat.not_lt_zero i)⟩

/-- The layout of `unsigned char`. -/
def byteLayout : Layout UInt8 where
  size := 1
  encode v := [v]
  decode bytes := bytes.headD 0
  size_pos := Nat.one_pos
  length_encode _ := rfl
  decode_encode _ := rfl

/-- One element, appended to the empty array. -/
def oneAppend : List (ArrayOp UInt8) := [.append 7]

theorem refines_iff_no_append_bytes : byteLayout.size * (2 * appends oneAppend) < 2 ^ 32 ∧
    (Refines byteLayout oneAppend ↔ ∀ val, ArrayOp.append val ∉ oneAppend) :=
  ⟨by decide, refines_iff_no_append byteLayout oneAppend (by decide)⟩

/-- The element is not appended. -/
theorem not_refines : byteLayout.size * (2 * appends oneAppend) < 2 ^ 32 ∧
    ¬ Refines byteLayout oneAppend :=
  ⟨by decide, not_refines_of_append (by decide) (List.mem_singleton.mpr rfl)⟩

end ArrayT

end CameraService
