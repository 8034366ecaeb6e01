import CameraService.Text

/-!
# The order of serial numbers

`local_stricmp` returns the difference of the first bytes that differ after upper-casing.
Its sign is the lexicographic order of the upper-cased strings, on unsigned bytes, a proper
prefix first.  Its loop tests one of the two terminators only.  The other one differs from
the byte beside it, and ends the loop as well.

## Main definitions

* `localStricmp_take` — the loop stops at the first terminator.
* `localStricmp_neg_iff`, `localStricmp_swap` — the sign.
* `localStricmp_collates` — the order.
-/

namespace CameraService

variable {a b : Bytes} {n : ℤ}

/-! ## The bytes that are read -/

/-- **The loop stops at the first terminator of either string**: what lies behind it may be
missing. -/
theorem localStricmp_take (ha : 0 ∈ a) (hb : 0 ∈ b) :
    localStricmp (a.take (min (cstr a).length (cstr b).length + 1))
        (b.take (min (cstr a).length (cstr b).length + 1)) = localStricmp a b := by
  apply terminated_induction (motive := fun a b =>
    localStricmp (a.take (min (cstr a).length (cstr b).length + 1))
        (b.take (min (cstr a).length (cstr b).length + 1)) = localStricmp a b) _ _ ha hb
  · intro x a y b h
    rw [List.take_succ_cons, List.take_succ_cons, localStricmp_stop h, localStricmp_stop h]
  · intro x a y b hxy hx hy _ _ ih
    rw [List.take_succ_cons, List.take_succ_cons, localStricmp_step hxy hx,
      localStricmp_step hxy hx, cstr_cons hx, cstr_cons hy, List.length_cons, List.length_cons,
      Nat.add_min_add_right]
    exact ih

/-! ## The sign -/

/-- With its arguments swapped the difference changes its sign. -/
theorem localStricmp_swap (ha : 0 ∈ a) (hb : 0 ∈ b) :
    localStricmp b a = (localStricmp a b).map (- ·) := by
  apply terminated_induction
    (motive := fun a b => localStricmp b a = (localStricmp a b).map (- ·)) _ _ ha hb
  · intro x a y b h
    have h' : ¬ (toupper y = toupper x ∧ toupper y ≠ 0) := fun ⟨hyx, hy⟩ => h ⟨hyx.symm, hyx ▸ hy⟩
    rw [localStricmp_stop h, localStricmp_stop h', Option.map_some, neg_sub]
  · intro x a y b hxy hx hy _ _ ih
    rw [localStricmp_step hxy hx, localStricmp_step hxy.symm hy]
    exact ih

/-- Where the loop stops, the order is that of the bytes: a terminator comes first. -/
theorem toUpper_cstr_lt_iff {x y : UInt8} (h : ¬ (toupper x = toupper y ∧ toupper x ≠ 0)) :
    toUpper (cstr (x :: a)) < toUpper (cstr (y :: b)) ↔ toupper x < toupper y := by
  have h0 : toupper 0 = 0 := by decide
  by_cases hy : y = 0
  · subst hy
    simp [h0]
  · rw [cstr_cons hy, toUpper_cons]
    by_cases hx : x = 0
    · subst hx
      have hpos : (0 : UInt8) < toupper y := by
        rw [UInt8.lt_iff_toNat_lt, UInt8.toNat_zero]
        apply Nat.pos_of_ne_zero
        intro hzero
        exact hy ((toupper_eq_zero y).mp (UInt8.toNat_inj.mp hzero))
      simp [h0, hpos]
    · have hne : toupper x ≠ toupper y := fun hxy => h ⟨hxy, fun h => hx ((toupper_eq_zero x).mp h)⟩
      rw [cstr_cons hx, toUpper_cons, List.cons_lt_cons_iff]
      simp [hne]

/-- **The result is negative** exactly when the first string comes first. -/
theorem localStricmp_neg_iff (ha : 0 ∈ a) (hb : 0 ∈ b) (h : localStricmp a b = some n) :
    n < 0 ↔ toUpper (cstr a) < toUpper (cstr b) := by
  revert h
  apply terminated_induction (motive := fun a b => localStricmp a b = some n →
    (n < 0 ↔ toUpper (cstr a) < toUpper (cstr b))) _ _ ha hb
  · intro x a y b h hn
    rw [localStricmp_stop h, Option.some_inj] at hn
    rw [toUpper_cstr_lt_iff h, UInt8.lt_iff_toNat_lt]
    omega
  · intro x a y b hxy hx hy _ _ ih hn
    rw [localStricmp_step hxy hx] at hn
    rw [ih hn, cstr_cons hx, cstr_cons hy, toUpper_cons, toUpper_cons, List.cons_lt_cons_iff, hxy]
    simp

/-- **`local_stricmp` collates.**  For all terminated arrays it reads nothing behind the first
terminator of either, and its sign is the order of the upper-cased strings.  So it changes
with the order of its arguments, and is transitive. -/
theorem localStricmp_collates (a b c : CharArray) : ∃ ab ba bc ac : ℤ,
    localStricmp a.bytes b.bytes = some ab ∧ localStricmp b.bytes a.bytes = some ba ∧
    localStricmp b.bytes c.bytes = some bc ∧ localStricmp a.bytes c.bytes = some ac ∧
    localStricmp (a.bytes.take (min a.text.length b.text.length + 1))
      (b.bytes.take (min a.text.length b.text.length + 1)) = some ab ∧
    (ab = 0 ↔ toUpper a.text = toUpper b.text) ∧
    (ab < 0 ↔ toUpper a.text < toUpper b.text) ∧ (0 < ab ↔ toUpper b.text < toUpper a.text) ∧
    ab.sign = - ba.sign ∧ (ab ≤ 0 → bc ≤ 0 → ac ≤ 0) := by
  obtain ⟨ab, hab⟩ := exists_localStricmp a.terminated b.terminated
  obtain ⟨bc, hbc⟩ := exists_localStricmp b.terminated c.terminated
  obtain ⟨ac, hac⟩ := exists_localStricmp a.terminated c.terminated
  have hswap : ∀ {x y : CharArray} {m : ℤ}, localStricmp x.bytes y.bytes = some m →
      localStricmp y.bytes x.bytes = some (-m) := by
    intro x y m hm
    rw [localStricmp_swap x.terminated y.terminated, hm, Option.map_some]
  have hpos : ∀ {x y : CharArray} {m : ℤ}, localStricmp x.bytes y.bytes = some m →
      (0 < m ↔ toUpper y.text < toUpper x.text) := by
    intro x y m hm
    have hneg := localStricmp_neg_iff y.terminated x.terminated (hswap hm)
    rw [← neg_lt_zero]
    exact hneg
  refine ⟨ab, -ab, bc, ac, hab, hswap hab, hbc, hac, ?_, ?_, ?_, hpos hab, ?_, ?_⟩
  · exact (localStricmp_take a.terminated b.terminated).trans hab
  · have hzero := localStricmp_eq_zero_iff a.terminated b.terminated
    rw [hab, Option.some_inj] at hzero
    exact hzero
  · exact localStricmp_neg_iff a.terminated b.terminated hab
  · simp
  · intro h₁ h₂
    have hle₁ : toUpper a.text ≤ toUpper b.text := fun hlt => absurd ((hpos hab).mpr hlt) (by omega)
    have hle₂ : toUpper b.text ≤ toUpper c.text := fun hlt => absurd ((hpos hbc).mpr hlt) (by omega)
    by_contra hac'
    exact List.le_trans hle₁ hle₂ ((hpos hac).mp (by omega))

end CameraService
