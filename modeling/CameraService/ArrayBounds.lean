import CameraService.ArrayT
import CameraService.Lib.Transition

/-!
# The room of an array

`array_t` keeps the number of elements that it has room for in a field of its own, beside
the capacity of its `buff_t`.  `ensure_size` computes the capacity in 32 bits, and
`free_buff` does not touch the field.  Either way the array takes itself to be larger than
its buffer.

## Main definitions

* `ArrayCall`, `ArrayT.Step` — the operations, and the steps of an array.
* `ArrayT.Inside` — there is room for `max_size_` elements.
* `ArrayT.Meets`, `ArrayT.MeetsStore` — what an operation has to meet to keep it so, and to
  store where there is room.
-/

namespace CameraService

open Interaction Transition

/-- An operation of `array_t`, of those that change it. -/
inductive ArrayCall (T : Type)
  | ensureSize (new_element_size : UInt32)
  | set (pos : UInt32) (val : T)
  | append (val : T)
  | freeBuff

namespace ArrayT

section Steps
variable {T : Type} (L : Layout T)

/-- The operation, with its result; `free_buff` has none. -/
def runCall : ArrayCall T → ArrayProc Ret
  | .ensureSize n => ensureSize L n
  | .set pos val => set L pos val
  | .append val => append L val
  | .freeBuff => do
    freeBuff
    pure .ok

/-- An operation returns, with some answers of `malloc`. -/
def Step (a : ArrayT) (l : ArrayCall T × SdkTrace) (a' : ArrayT) : Prop :=
  ∃ r, Runs (runCall L l.1) a l.2 a' r

/-- The capacity has room for `max_size_` elements. -/
def Inside (a : ArrayT) : Prop :=
  L.size * a.max_size_.toNat ≤ a.buff_.buff_max_size_.toNat

/-- The length that `ensure_size` asks the buffer for. -/
def askedFor (n : UInt32) : UInt32 := UInt32.ofNat (L.size * (n <<< 1).toNat)

/-- `ensure_size` fails: it asks for nothing, or there is no memory. -/
def GrowFails (a : ArrayT) (n : UInt32) (tr : SdkTrace) : Prop :=
  (askedFor L n = 0 ∧ tr = []) ∨
    (askedFor L n ≠ 0 ∧ ¬ askedFor L n ≤ a.buff_.buff_max_size_ ∧
      tr = [⟨.malloc (askedFor L n), none⟩])

/-- The length that `ensure_size` is to ask for has 32 bits, or it fails. -/
def Grows (a : ArrayT) (n : UInt32) (tr : SdkTrace) : Prop :=
  L.size * (n <<< 1).toNat < 2 ^ 32 ∨ GrowFails L a n tr

/-- What keeps the array in its buffer: no length is cut, and only an array without room is
freed. -/
def Meets (a : ArrayT) : ArrayCall T × SdkTrace → Prop
  | (.ensureSize n, tr) => Grows L a n tr
  | (.append _, tr) => Grows L a (a.end_ + 1) tr
  | (.set _ _, _) => True
  | (.freeBuff, _) => a.max_size_ = 0

/-- There is room for the element at `end_`. -/
def Room (a : ArrayT) : Prop :=
  a.header_ = true ∧ L.size * (a.end_.toNat + 1) ≤ a.buff_.buff_max_size_.toNat

/-- What makes an operation store inside: `append` stores when it could not grow. -/
def MeetsStore (a : ArrayT) : ArrayCall T × SdkTrace → Prop
  | (.append _, tr) => ¬ GrowFails L a (a.end_ + 1) tr ∨ Room L a
  | _ => True

/-- The operation does not store outside of the block; it may end in an assertion. -/
def StoresInside (a : ArrayT) (l : ArrayCall T × SdkTrace) : Prop :=
  ∀ f, Faults (runCall L l.1) a l.2 f → f = .assertDataSize

end Steps

/-- What holds in every run: the buffer is valid, and `header_` is its block, if any. -/
structure Attached (a : ArrayT) : Prop where
  valid : a.buff_.Valid
  header : a.buff_.buff_ ≠ none → a.header_ = true

theorem attached_empty : Attached .empty := ⟨Buff.valid_empty, fun h => absurd rfl h⟩

variable {T : Type} {L : Layout T} {a a' : ArrayT} {n : UInt32} {tr : SdkTrace} {r : Ret}
  {f : Fault}

/-- The outcomes of `ensure_size`: nothing, or room for the length that it asked for. -/
theorem ensureSize_cases (ha : Attached a) (h : Runs (ensureSize L n) a tr a' r) :
    (r ≠ .ok ∧ a' = a ∧ GrowFails L a n tr) ∨
      (r = .ok ∧ ¬ GrowFails L a n tr ∧ Attached a' ∧ a'.max_size_ = n <<< 1 ∧
        askedFor L n ≤ a'.buff_.buff_max_size_) := by
  simp only [ensureSize, runs_get_bind] at h
  obtain ⟨t₁, a₁, ⟨ret, b⟩, t₂, rfl, h₁, h₂⟩ := runs_bind.mp h
  rw [runs_modify_bind] at h₂
  have hvalid := (Buff.keeps_ensureSizeCopy h₁).2.valid ha.valid
  rw [Buff.ensureSize] at h₁
  by_cases hret : ret = .ok
  · subst hret
    rw [if_neg (fun hne => hne rfl), runs_modify_bind, runs_pure] at h₂
    obtain ⟨rfl, rfl, rfl⟩ := h₂
    obtain ⟨-, ⟨hbad, -⟩ | ⟨-, hpos, hle, rfl, rfl⟩ | ⟨-, hpos, -, block, -, rfl, m, rfl, -⟩⟩ :=
      Buff.ensureSizeCopy_cases h₁
    · exact absurd rfl hbad
    · refine Or.inr ⟨rfl, ?_, ⟨hvalid, fun _ => rfl⟩, rfl, hle⟩
      rintro (⟨hzero, -⟩ | ⟨-, hnot, -⟩)
      · exact absurd hpos (by simp [← hzero, askedFor])
      · exact hnot hle
    · refine Or.inr ⟨rfl, ?_, ⟨hvalid, fun _ => rfl⟩, rfl, UInt32.le_refl _⟩
      rintro (⟨hzero, -⟩ | ⟨-, -, htr⟩)
      · exact absurd hpos (by simp [← hzero, askedFor])
      · simp at htr
  · rw [if_pos hret, runs_pure] at h₂
    obtain ⟨rfl, rfl, rfl⟩ := h₂
    obtain ⟨rfl, ⟨-, rfl, hwhy⟩ | ⟨hok, -⟩ | ⟨hok, -⟩⟩ := Buff.ensureSizeCopy_cases h₁
    · rw [List.append_nil]
      refine Or.inl ⟨hret, rfl, hwhy.imp_right fun ⟨hpos, hnot, ht⟩ => ⟨?_, hnot, ht⟩⟩
      intro hzero
      exact absurd hpos (by simp [← hzero, askedFor])
    · exact absurd hok hret
    · exact absurd hok hret

/-- Where `ensure_size` fails, it does. -/
theorem runs_ensureSize_fails (h : GrowFails L a n tr) :
    Runs (ensureSize L n) a tr a (.err .failure) := by
  have hbuff : Runs (a.buff_.ensureSize (askedFor L n)) a tr a (.err .failure, a.buff_) := by
    unfold Buff.ensureSize Buff.ensureSizeCopy
    obtain ⟨hzero, rfl⟩ | ⟨hne, hnot, rfl⟩ := h
    · rw [if_pos hzero]
      exact runs_pure.mpr ⟨rfl, rfl, rfl⟩
    · rw [if_neg hne, if_neg hnot, runs_call_bind]
      exact ⟨none, [], rfl, runs_pure.mpr ⟨rfl, rfl, rfl⟩⟩
  simp only [ensureSize, runs_get_bind]
  refine runs_bind.mpr ⟨tr, a, _, [], (List.append_nil _).symm, hbuff, ?_⟩
  rw [runs_modify_bind, if_pos (by simp), runs_pure]
  exact ⟨rfl, rfl, rfl⟩

theorem ensureSize_attached (ha : Attached a) (h : Runs (ensureSize L n) a tr a' r) :
    Attached a' := by
  obtain ⟨-, rfl, -⟩ | ⟨-, -, ha', -⟩ := ensureSize_cases ha h
  · exact ha
  · exact ha'

/-- **Growing keeps the array inside** exactly when the length was not cut. -/
theorem inside_ensureSize (ha : Attached a) (hin : Inside L a)
    (h : Runs (ensureSize L n) a tr a' r) : Grows L a n tr ↔ Inside L a' := by
  obtain ⟨-, rfl, hfails⟩ | ⟨-, hnot, -, hmax, hle⟩ := ensureSize_cases ha h
  · exact iff_of_true (Or.inr hfails) hin
  · have hcap : a'.buff_.buff_max_size_.toNat < 2 ^ 32 := UInt32.toNat_lt _
    rw [Grows, or_iff_left hnot, Inside, hmax]
    constructor
    · intro hlt
      have hasked : (askedFor L n).toNat = L.size * (n <<< 1).toNat :=
        UInt32.toNat_ofNat_of_lt' hlt
      rw [UInt32.le_iff_toNat_le, hasked] at hle
      exact hle
    · intro hin'
      omega

/-- A store changes bytes of the block only. -/
theorem store_keeps {pos : UInt32} {val : T} {u : Unit} (ha : Attached a)
    (h : Runs (store L pos val) a tr a' u) :
    tr = [] ∧ Attached a' ∧ a'.max_size_ = a.max_size_ ∧
      a'.buff_.buff_max_size_ = a.buff_.buff_max_size_ := by
  simp only [store, runs_get_bind] at h
  split at h
  · rename_i block hheader hblock
    split at h
    · obtain ⟨rfl, rfl, -⟩ := runs_modify.mp h
      have hv := ha.valid
      refine ⟨rfl, ⟨⟨?_, ?_, hv.data_le⟩, fun _ => hheader⟩, rfl, rfl⟩
      · simpa [hblock] using hv.null_iff
      · have hs := hv.sized
        simpa [Buff.Sized, hblock] using hs
    · exact absurd h runs_fault
  · exact absurd h runs_fault

/-- An element is stored where there is room for it, and only there. -/
theorem store_faults_iff {pos : UInt32} {val : T} (ha : Attached a) :
    (∃ f, Faults (store L pos val) a tr f) ↔ tr = [] ∧
      ¬ (a.header_ = true ∧ L.size * (pos.toNat + 1) ≤ a.buff_.buff_max_size_.toNat) := by
  have hpos := L.size_pos
  have hsize : 0 < L.size * (pos.toNat + 1) := Nat.mul_pos hpos (Nat.succ_pos _)
  simp only [store, faults_get_bind]
  cases hh : a.header_ with
  | false => simp
  | true =>
      cases hb : a.buff_.buff_ with
      | none =>
          have hzero := ha.valid.null_iff.mp hb
          have hnone : ¬ L.size * (pos.toNat + 1) ≤ 0 := by omega
          simp [hzero, hnone]
      | some block =>
          rw [← ha.valid.size_of_some hb]
          dsimp only
          split
          · rename_i hfits
            simp [hfits]
          · rename_i hfits
            simp [hfits]

/-- A bad store is not the assertion. -/
theorem store_fault_ne {pos : UInt32} {val : T} (h : Faults (store L pos val) a tr f) :
    f ≠ .assertDataSize := by
  simp only [store, faults_get_bind] at h
  split at h
  · split at h
    · exact absurd h faults_modify
    · obtain ⟨-, rfl⟩ := faults_fault.mp h
      simp
  · obtain ⟨-, rfl⟩ := faults_fault.mp h
    simp

theorem set_keeps {pos : UInt32} {val : T} (ha : Attached a)
    (h : Runs (set L pos val) a tr a' r) : Attached a' ∧ (Inside L a' ↔ Inside L a) := by
  simp only [set, runs_get_bind] at h
  split at h
  · obtain ⟨-, rfl, -⟩ := runs_pure.mp h
    exact ⟨ha, Iff.rfl⟩
  · obtain ⟨t₁, a₁, u, t₂, -, h₁, h₂⟩ := runs_bind.mp h
    obtain ⟨-, rfl, -⟩ := runs_pure.mp h₂
    obtain ⟨-, ha', hmax, hcap⟩ := store_keeps ha h₁
    exact ⟨ha', by rw [Inside, Inside, hmax, hcap]⟩

/-- The outcomes of `append`: it has grown, or has stored because it could not. -/
theorem append_cases {val : T} (ha : Attached a) (h : Runs (append L val) a tr a' r) :
    Runs (ensureSize L (a.end_ + 1)) a tr a' .ok ∨
      (GrowFails L a (a.end_ + 1) tr ∧ Attached a' ∧ (Inside L a' ↔ Inside L a)) := by
  simp only [append, runs_get_bind] at h
  obtain ⟨t₁, a₁, ret, t₂, rfl, h₁, h₂⟩ := runs_bind.mp h
  by_cases hret : ret = .ok
  · rw [if_pos hret, runs_pure] at h₂
    obtain ⟨rfl, rfl, -⟩ := h₂
    subst hret
    rw [List.append_nil]
    exact Or.inl h₁
  · rw [if_neg hret] at h₂
    obtain ⟨-, rfl, hfails⟩ | ⟨hok, -⟩ := ensureSize_cases ha h₁
    · obtain ⟨t₃, a₂, u, t₄, rfl, h₃, h₄⟩ := runs_bind.mp h₂
      obtain ⟨rfl, ha₂, hmax, hcap⟩ := store_keeps ha h₃
      simp only [Buff.setDataSize, runs_modify_bind, runs_get_bind, bind_assoc, pure_bind,
        runs_require_bind, runs_pure] at h₄
      obtain ⟨hlt, rfl, rfl, -⟩ := h₄
      rw [List.append_nil, List.append_nil]
      refine Or.inr ⟨hfails, ⟨⟨ha₂.valid.null_iff, ha₂.valid.sized, ?_⟩, ha₂.header⟩, ?_⟩
      · exact Nat.le_of_lt (UInt32.lt_iff_toNat_lt.mp hlt)
      · rw [Inside, Inside, ← hmax, ← hcap]
    · exact absurd hok hret

/-! ## Steps and runs -/

theorem Step.attached {l : ArrayCall T × SdkTrace} (ha : Attached a) (h : Step L a l a') :
    Attached a' := by
  obtain ⟨op, tr⟩ := l
  obtain ⟨r, hr⟩ := h
  cases op with
  | ensureSize n => exact ensureSize_attached ha hr
  | set pos val => exact (set_keeps ha hr).1
  | append val =>
      obtain hgrown | ⟨-, ha', -⟩ := append_cases ha hr
      · exact ensureSize_attached ha hgrown
      · exact ha'
  | freeBuff =>
      simp only [runCall, freeBuff, runs_modify_bind, runs_pure] at hr
      obtain ⟨-, rfl, -⟩ := hr
      exact ⟨Buff.valid_empty, fun h => absurd rfl h⟩

/-- **One operation** leaves the array inside exactly when it meets its condition. -/
theorem Step.meets_iff {l : ArrayCall T × SdkTrace} (ha : Attached a) (hin : Inside L a)
    (h : Step L a l a') : Meets L a l ↔ Inside L a' := by
  obtain ⟨op, tr⟩ := l
  obtain ⟨r, hr⟩ := h
  cases op with
  | ensureSize n => exact inside_ensureSize ha hin hr
  | set pos val => exact iff_of_true trivial ((set_keeps ha hr).2.mpr hin)
  | append val =>
      obtain hgrown | ⟨hfails, -, hsame⟩ := append_cases ha hr
      · exact inside_ensureSize ha hin hgrown
      · exact iff_of_true (Or.inr hfails) (hsame.mpr hin)
  | freeBuff =>
      simp only [runCall, freeBuff, runs_modify_bind, runs_pure] at hr
      obtain ⟨-, rfl, -⟩ := hr
      have hpos := L.size_pos
      simp only [Meets, Inside, Buff.freeBuff, UInt32.toNat_zero]
      constructor
      · intro hzero
        rw [hzero, UInt32.toNat_zero, Nat.mul_zero]
      · intro hle
        have hmul := Nat.mul_eq_zero.mp (Nat.le_zero.mp hle)
        exact UInt32.toNat_inj.mp (hmul.resolve_left (by omega))

/-- A position below `max_size_` is in the block. -/
theorem Inside.room {pos : UInt32} (ha : Attached a) (hin : Inside L a)
    (hpos : pos < a.max_size_) :
    a.header_ = true ∧ L.size * (pos.toNat + 1) ≤ a.buff_.buff_max_size_.toNat := by
  rw [UInt32.lt_iff_toNat_lt] at hpos
  have hsize := L.size_pos
  have hroom : L.size * (pos.toNat + 1) ≤ a.buff_.buff_max_size_.toNat :=
    le_trans (Nat.mul_le_mul_left _ hpos) hin
  refine ⟨ha.header fun hnone => ?_, hroom⟩
  have hmul : 0 < L.size * (pos.toNat + 1) := Nat.mul_pos hsize (Nat.succ_pos _)
  rw [ha.valid.null_iff.mp hnone, UInt32.toNat_zero] at hroom
  omega

/-- **One operation** stores inside exactly when it meets its condition. -/
theorem storesInside_iff {l : ArrayCall T × SdkTrace} (ha : Attached a) (hin : Inside L a) :
    StoresInside L a l ↔ MeetsStore L a l := by
  obtain ⟨op, tr⟩ := l
  cases op with
  | ensureSize n => exact iff_of_true (fun f hf => absurd hf (ensureSize_faults ha.valid)) trivial
  | set pos val =>
      refine iff_of_true (fun f hf => ?_) trivial
      simp only [runCall, set, faults_get_bind] at hf
      split at hf
      · exact absurd hf faults_pure
      · rename_i hpos
        rw [UInt32.not_le] at hpos
        rcases faults_bind.mp hf with hf | ⟨t₁, a₁, u, t₂, -, -, hf⟩
        · exact absurd (hin.room ha hpos) (store_faults_iff ha |>.mp ⟨f, hf⟩).2
        · exact absurd hf faults_pure
  | append val =>
      constructor
      · intro hinside
        by_contra hnot
        simp only [MeetsStore, not_or, not_not] at hnot
        have hstore : ∃ f, Faults (store L a.end_ val) a [] f :=
          (store_faults_iff ha).mpr ⟨rfl, hnot.2⟩
        obtain ⟨f, hf⟩ := hstore
        refine store_fault_ne hf (hinside f ?_)
        simp only [runCall, append, faults_get_bind]
        refine faults_bind.mpr (Or.inr ⟨tr, a, _, [], (List.append_nil _).symm,
          runs_ensureSize_fails hnot.1, ?_⟩)
        rw [if_neg (by simp)]
        exact faults_bind.mpr (Or.inl hf)
      · intro hmeets f hf
        simp only [runCall, append, faults_get_bind] at hf
        rcases faults_bind.mp hf with hf | ⟨t₁, a₁, ret, t₂, rfl, h₁, hf⟩
        · exact absurd hf (ensureSize_faults ha.valid)
        · split at hf
          · exact absurd hf faults_pure
          · rename_i hret
            obtain ⟨-, rfl, hfails⟩ | ⟨hok, -⟩ := ensureSize_cases ha h₁
            · rcases faults_bind.mp hf with hf | ⟨t₃, a₂, u, t₄, -, -, hf⟩
              · obtain ⟨rfl, hroom⟩ := (store_faults_iff ha).mp ⟨f, hf⟩
                rw [List.append_nil] at hmeets
                exact absurd hmeets (not_or.mpr ⟨not_not.mpr hfails, hroom⟩)
              · simp only [Buff.setDataSize, faults_modify_bind, faults_get_bind, bind_assoc,
                  pure_bind, faults_require_bind, faults_pure, and_false, or_false] at hf
                exact hf.2.2
            · exact absurd hok hret
  | freeBuff =>
      refine iff_of_true (fun f hf => ?_) trivial
      simp only [runCall, freeBuff, faults_modify_bind, faults_pure] at hf

theorem inside_empty : Inside L .empty := by simp [Inside, empty, Buff.empty]

/-- **When an array stays in its buffer.**  For every element type, every sequence of
operations from the empty array and all answers of `malloc`: there is room for `max_size_`
elements in every state exactly when every step meets its condition, and from such a run an
operation stores inside exactly when it meets its own. -/
theorem inside_iff_meets (L : Layout T) {es : List ((ArrayCall T × SdkTrace) × ArrayT)}
    (h : Along (Step L) .empty es) :
    (EveryState (Inside L) .empty es ↔ Along (fun a l _ => Meets L a l) .empty es) ∧
      (Along (fun a l _ => Meets L a l) .empty es → ∀ l,
        (StoresInside L (lastState .empty es) l ↔ MeetsStore L (lastState .empty es) l)) := by
  have hiff := along_iff_everyState (J := Attached) attached_empty
    (fun a l a' ha hstep => Step.attached ha hstep) inside_empty
    (fun a l a' ha hin hstep => Step.meets_iff ha hin hstep) h
  have hattached : EveryState Attached .empty es :=
    everyState_of_along attached_empty (fun a l a' ha hstep => Step.attached ha hstep) h
  exact ⟨hiff.symm, fun hmeets l => storesInside_iff hattached.last (hiff.mp hmeets).last⟩

/-- A run that makes room for two bytes. -/
def roomForTwo : List ((ArrayCall UInt8 × SdkTrace) × ArrayT) :=
  [((.ensureSize 1, [⟨.malloc 2, some fun _ => 0⟩]),
    ⟨⟨some ⟨2, fun _ => 0⟩, 2, 0⟩, true, 2, 0⟩)]

theorem along_roomForTwo : Along (Step byteLayout) .empty roomForTwo := by
  refine ⟨⟨.ok, ?_⟩, trivial⟩
  have hrun : Runs (runCall byteLayout (.ensureSize 1)) .empty _ _ .ok :=
    runs_of_exec (o := obliging) rfl
  exact hrun

theorem inside_iff_meets_two : EveryState (Inside byteLayout) .empty roomForTwo ∧
    StoresInside byteLayout (lastState .empty roomForTwo) (.set 1 7, []) := by
  have h := inside_iff_meets byteLayout along_roomForTwo
  have hmeets : Along (fun a l _ => Meets byteLayout a l) .empty roomForTwo :=
    ⟨Or.inl (by decide), trivial⟩
  exact ⟨h.1.mpr hmeets, (h.2 hmeets _).mpr trivial⟩

/-- The same run, and then the buffer is freed. -/
def roomFreed : List ((ArrayCall UInt8 × SdkTrace) × ArrayT) :=
  roomForTwo ++ [((.freeBuff, []), ⟨⟨none, 0, 0⟩, false, 2, 0⟩)]

/-- The layout of two bytes. -/
def pairLayout : Layout (UInt8 × UInt8) where
  size := 2
  encode v := [v.1, v.2]
  decode bytes := (bytes.headD 0, bytes.tail.headD 0)
  size_pos := Nat.two_pos
  length_encode _ := rfl
  decode_encode _ := rfl

/-- Room for so many pairs that the length wraps around to four. -/
def roomCut : List ((ArrayCall (UInt8 × UInt8) × SdkTrace) × ArrayT) :=
  [((.ensureSize 0x40000001, [⟨.malloc 4, some fun _ => 0⟩]),
    ⟨⟨some ⟨4, fun _ => 0⟩, 4, 0⟩, true, 0x80000002, 0⟩)]

theorem along_roomCut : Along (Step pairLayout) .empty roomCut := by
  refine ⟨⟨.ok, ?_⟩, trivial⟩
  have hrun : Runs (runCall pairLayout (.ensureSize 0x40000001)) .empty _ _ .ok :=
    runs_of_exec (o := obliging) rfl
  exact hrun

/-- After `free_buff`, and after a length that was cut, the array is larger than its buffer,
and `set` stores outside. -/
theorem not_inside :
    (Along (Step byteLayout) .empty roomFreed ∧ ¬ EveryState (Inside byteLayout) .empty roomFreed ∧
      ¬ StoresInside byteLayout (lastState .empty roomFreed) (.set 1 7, [])) ∧
    (Along (Step pairLayout) .empty roomCut ∧ ¬ EveryState (Inside pairLayout) .empty roomCut ∧
      ¬ StoresInside pairLayout (lastState .empty roomCut) (.set 2 (7, 8), [])) := by
  refine ⟨⟨⟨along_roomForTwo.1, ⟨.ok, ?_⟩, trivial⟩, ?_, ?_⟩, along_roomCut, ?_, ?_⟩
  · have hrun : Runs (runCall byteLayout .freeBuff) (lastState .empty roomForTwo) _ _ .ok :=
      runs_of_exec (o := obliging) rfl
    exact hrun
  · intro h
    exact absurd h.last (by unfold Inside; decide)
  · intro h
    have hset : Faults (runCall byteLayout (.set 1 7)) (lastState .empty roomFreed) []
        .nullBuffer := .refl _
    exact absurd (h .nullBuffer hset) (by decide)
  · intro h
    exact absurd h.last (by unfold Inside; decide)
  · intro h
    have hset : Faults (runCall pairLayout (.set 2 (7, 8))) (lastState .empty roomCut) []
        .badCopy := .refl _
    exact absurd (h .badCopy hset) (by decide)

end ArrayT

end CameraService
