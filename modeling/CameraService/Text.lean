import Mathlib.Data.List.TakeWhile
import Mathlib.Algebra.Order.Ring.Int
import Mathlib.Tactic.Common

/-!
# Serial numbers as byte strings

The service compares serial numbers in two ways.  Map keys are whole
`std::string` values, upper-cased by `to_upper`; device records are searched with
`local_stricmp`, which walks two C strings and stops at a terminator.  Bytes are
those of the C locale: only the ASCII letters have a case.

`localStricmp` works on the memory behind its two pointers and has no result
when it would read past the end of it.

## Main definitions

* `toUpper`, `localStricmp` — the two functions of `utils.cpp`.
* `cstr` — what a memory holds when it is read as a C string.
* `CharArray` — a character array of the SDK, terminated.
* `localStricmp_eq_zero_iff` — the comparison succeeds exactly on C strings that
  agree after upper-casing.
-/

namespace CameraService

/-- A byte string. -/
abbrev Bytes : Type := List UInt8

/-- `toupper` of the C locale on one byte. -/
def toupper (b : UInt8) : UInt8 := if 97 ≤ b ∧ b ≤ 122 then b - 32 else b

/-- `to_upper`: upper-case every byte of a `std::string`, NUL bytes included. -/
def toUpper (input : Bytes) : Bytes := input.map toupper

/-- The C string stored in a memory: the bytes before the first terminator. -/
def cstr (mem : Bytes) : Bytes := mem.takeWhile (· ≠ 0)

/-- `local_stricmp` on the memory behind `a` and `b`; `none` is a read past its
end. -/
def localStricmp : Bytes → Bytes → Option ℤ
  | a :: as, b :: bs =>
      let ca := toupper a
      let cb := toupper b
      -- `while (ca == cb && ca != '\0')`
      if ca = cb ∧ ca ≠ 0 then localStricmp as bs
      else some ((ca.toNat : ℤ) - (cb.toNat : ℤ))
  | _, _ => none

/-! ## Upper-casing -/

/-- The letters `a` to `z` move down by 32. -/
theorem toNat_toupper (b : UInt8) : (toupper b).toNat =
    if 97 ≤ b.toNat ∧ b.toNat ≤ 122 then b.toNat - 32 else b.toNat := by
  have h97 : (97 : UInt8) ≤ b ↔ 97 ≤ b.toNat := UInt8.le_iff_toNat_le
  have h122 : b ≤ 122 ↔ b.toNat ≤ 122 := UInt8.le_iff_toNat_le
  simp only [toupper, h97, h122]
  split
  · rename_i h
    have h32 : (32 : UInt8) ≤ b := UInt8.le_iff_toNat_le.mpr (show 32 ≤ b.toNat by omega)
    exact UInt8.toNat_sub_of_le b 32 h32
  · rfl

@[simp] theorem toupper_toupper (b : UInt8) : toupper (toupper b) = toupper b := by
  rw [← UInt8.toNat_inj]
  rw [toNat_toupper (toupper b), toNat_toupper b]
  grind

@[simp] theorem toupper_eq_zero (b : UInt8) : toupper b = 0 ↔ b = 0 := by
  simp only [← UInt8.toNat_inj, toNat_toupper, UInt8.toNat_zero]
  split <;> omega

@[simp] theorem toUpper_nil : toUpper [] = [] := rfl

@[simp] theorem toUpper_cons (b : UInt8) (s : Bytes) :
    toUpper (b :: s) = toupper b :: toUpper s := rfl

@[simp] theorem toUpper_append (s t : Bytes) : toUpper (s ++ t) = toUpper s ++ toUpper t :=
  List.map_append

/-- A map key is its own upper-cased image. -/
@[simp] theorem toUpper_toUpper (s : Bytes) : toUpper (toUpper s) = toUpper s := by
  simp [toUpper]

/-! ## C strings -/

@[simp] theorem cstr_zero_cons (s : Bytes) : cstr (0 :: s) = [] := by simp [cstr]

theorem cstr_cons {b : UInt8} (hb : b ≠ 0) (s : Bytes) : cstr (b :: s) = b :: cstr s := by
  simp [cstr, hb]

/-- Without a NUL byte the C string is the whole memory. -/
theorem cstr_of_notMem {s : Bytes} (h : 0 ∉ s) : cstr s = s := by
  refine List.takeWhile_eq_self_iff.mpr fun b hb => ?_
  have : b ≠ 0 := fun he => h (he ▸ hb)
  simpa using this

/-- A `std::string` read through `c_str()` ends at its first NUL byte. -/
@[simp] theorem cstr_append_zero (s : Bytes) : cstr (s ++ [0]) = cstr s := by
  induction s with
  | nil => rfl
  | cons b s ih =>
      by_cases hb : b = 0
      · subst hb; simp
      · rw [List.cons_append, cstr_cons hb, cstr_cons hb, ih]

/-- Upper-casing moves no terminator. -/
theorem zero_notMem_cstr (s : Bytes) : 0 ∉ cstr s := by
  intro h
  simpa using List.mem_takeWhile_imp h

theorem zero_mem_toUpper {s : Bytes} : 0 ∈ toUpper s ↔ 0 ∈ s := by
  simp [toUpper]

theorem cstr_toUpper (s : Bytes) : cstr (toUpper s) = toUpper (cstr s) := by
  induction s with
  | nil => rfl
  | cons b s ih =>
      by_cases hb : b = 0
      · subst hb; rfl
      · have hb' : toupper b ≠ 0 := fun h => hb ((toupper_eq_zero b).mp h)
        rw [toUpper_cons, cstr_cons hb', cstr_cons hb, toUpper_cons, ih]

/-- What follows the C string in a memory, the terminator included. -/
def afterCstr (mem : Bytes) : Bytes := mem.dropWhile (· ≠ 0)

theorem cstr_append_afterCstr (s : Bytes) : cstr s ++ afterCstr s = s :=
  List.takeWhile_append_dropWhile

/-! ## The comparison -/

section Comparison
variable {x y : UInt8} {a b : Bytes}

/-- Where the bytes differ, or both strings are over. -/
theorem localStricmp_stop (h : ¬ (toupper x = toupper y ∧ toupper x ≠ 0)) :
    localStricmp (x :: a) (y :: b) = some (((toupper x).toNat : ℤ) - ((toupper y).toNat : ℤ)) :=
  if_neg h

theorem localStricmp_step (hxy : toupper x = toupper y) (hx : x ≠ 0) :
    localStricmp (x :: a) (y :: b) = localStricmp a b :=
  if_pos ⟨hxy, fun h => hx ((toupper_eq_zero x).mp h)⟩

/-- The loop over two terminated strings: it stops, or it goes on with the next bytes. -/
theorem terminated_induction {motive : Bytes → Bytes → Prop}
    (stop : ∀ x a y b, ¬ (toupper x = toupper y ∧ toupper x ≠ 0) → motive (x :: a) (y :: b))
    (step : ∀ x a y b, toupper x = toupper y → x ≠ 0 → y ≠ 0 → 0 ∈ a → 0 ∈ b → motive a b →
      motive (x :: a) (y :: b))
    (ha : 0 ∈ a) (hb : 0 ∈ b) : motive a b := by
  induction a generalizing b with
  | nil => simp at ha
  | cons x a ih =>
      cases b with
      | nil => simp at hb
      | cons y b =>
          by_cases h : toupper x = toupper y ∧ toupper x ≠ 0
          · have hx : x ≠ 0 := fun hx => h.2 ((toupper_eq_zero x).mpr hx)
            have hy : y ≠ 0 := fun hy => h.2 (h.1 ▸ (toupper_eq_zero y).mpr hy)
            have ha' : 0 ∈ a := by simpa [Ne.symm hx] using ha
            have hb' : 0 ∈ b := by simpa [Ne.symm hy] using hb
            exact step x a y b h.1 hx hy ha' hb' (ih ha' hb')
          · exact stop x a y b h

/-- A comparison of terminated strings reads no byte past a terminator. -/
theorem exists_localStricmp (ha : 0 ∈ a) (hb : 0 ∈ b) : ∃ n, localStricmp a b = some n := by
  apply terminated_induction (motive := fun a b => ∃ n, localStricmp a b = some n) _ _ ha hb
  · intro x a y b h
    exact ⟨_, localStricmp_stop h⟩
  · intro x a y b hxy hx hy _ _ ih
    rw [localStricmp_step hxy hx]
    exact ih

/-- Where the loop stops, the strings agree when the bytes do: both are over. -/
theorem toUpper_cstr_eq_iff (h : ¬ (toupper x = toupper y ∧ toupper x ≠ 0)) :
    toUpper (cstr (x :: a)) = toUpper (cstr (y :: b)) ↔ toupper x = toupper y := by
  by_cases hx : x = 0
  · subst hx
    have h0 : toupper 0 = 0 := by decide
    rw [h0, eq_comm (a := (0 : UInt8)), toupper_eq_zero]
    by_cases hy : y = 0
    · subst hy
      simp
    · simp [hy, cstr_cons hy]
  · have hne : toupper x ≠ toupper y := fun hxy => h ⟨hxy, fun h => hx ((toupper_eq_zero x).mp h)⟩
    rw [cstr_cons hx, toUpper_cons]
    by_cases hy : y = 0
    · subst hy
      have h0 : toupper 0 = 0 := by decide
      rw [h0] at hne ⊢
      simp [hne]
    · simp [cstr_cons hy, hne]

/-- **`local_stricmp` returns `0` exactly on C strings that agree after
upper-casing.** -/
theorem localStricmp_eq_zero_iff (ha : 0 ∈ a) (hb : 0 ∈ b) :
    localStricmp a b = some 0 ↔ toUpper (cstr a) = toUpper (cstr b) := by
  apply terminated_induction
    (motive := fun a b => localStricmp a b = some 0 ↔ toUpper (cstr a) = toUpper (cstr b)) _ _ ha hb
  · intro x a y b h
    rw [localStricmp_stop h, toUpper_cstr_eq_iff h, Option.some_inj, sub_eq_zero, Nat.cast_inj,
      UInt8.toNat_inj]
  · intro x a y b hxy hx hy _ _ ih
    rw [localStricmp_step hxy hx, ih, cstr_cons hx, cstr_cons hy, toUpper_cons, toUpper_cons, hxy,
      List.cons_inj_right]

end Comparison

/-! ## Character arrays -/

/-- A character array of an SDK record.  The SDK terminates what it stores. -/
structure CharArray where
  /-- The bytes of the array. -/
  bytes : Bytes
  /-- One of them is a terminator. -/
  terminated : 0 ∈ bytes
  deriving DecidableEq

namespace CharArray

/-- The string an array holds. -/
def text (a : CharArray) : Bytes := cstr a.bytes

/-- The memory behind `std::string::c_str()`. -/
def ofString (s : Bytes) : CharArray := ⟨s ++ [0], by simp⟩

@[simp] theorem text_ofString (s : Bytes) : (ofString s).text = cstr s := cstr_append_zero s

end CharArray

/-- The comparison on arrays: both strings agree ignoring case. -/
theorem localStricmp_arrays (a b : CharArray) :
    localStricmp a.bytes b.bytes = some 0 ↔ toUpper a.text = toUpper b.text :=
  localStricmp_eq_zero_iff a.terminated b.terminated

end CameraService
