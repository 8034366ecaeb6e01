import CameraService.CmdlineGrammar

/-!
# What the parser of the command line accepts

`Parser.parse` first builds the table of the short options, which fails when two options
have a short name in common.  It accepts the arguments that spell some items, if every
option that is needed was given.

## Main definitions

* `Parser.Unambiguous` — the short names tell the options apart.
* `Parser.shortNames_options` — when there is a table.
* `Parser.parse_spec` — what `parse` accepts, and what it leaves.
-/

namespace CameraService.Cmdline.Parser

variable {p : Parser} {n : Str} {o : OptionBase} {c : Char} {items : List Item}
  {os : List OptionBase} {lookup table : List (Char × Str)} {args : List Str}

/-! ## The table of short options -/

/-- No two options have a short name in common. -/
def Unambiguous (D : List Declared) : Prop := ∀ c n m, Short D c n → Short D c m → n = m

theorem short_declared {c : Char} : Short p.declared c n ↔
    ∃ o ∈ p.ordered, o.nam = n ∧ n ≠ [] ∧ o.snam = some c := by
  simp [Short, declared, OptionBase.declared]

theorem lookup_concat {c initial : Char} : (lookup ++ [(initial, n)]).lookup c =
    (lookup.lookup c).or (if c = initial then some n else none) := by
  rw [List.lookup_append]
  by_cases hc : c = initial
  · simp [hc]
  · have hne : (c == initial) = false := by simpa using hc
    simp [hc, List.lookup_cons, hne]

/-- The name is in the table, or that of an option to come. -/
def Named (lookup : List (Char × Str)) (os : List OptionBase) (c : Char) (n : Str) : Prop :=
  lookup.lookup c = some n ∨ ∃ o ∈ os, o.nam = n ∧ n ≠ [] ∧ o.snam = some c

/-- An option that has no short name. -/
theorem named_skip {c : Char} (h : o.nam = [] ∨ o.snam = none) :
    Named lookup (o :: os) c n ↔ Named lookup os c n := by
  have hno : ¬ (o.nam = n ∧ n ≠ [] ∧ o.snam = some c) := by
    rintro ⟨hn, hne, hs⟩
    rcases h with h | h
    · exact hne (hn ▸ h)
    · simp [h] at hs
  rw [Named, Named, List.exists_mem_cons_iff, or_iff_right hno]

/-- An option with a new short name. -/
theorem named_concat {c initial : Char} (hl : lookup.lookup initial = none) (hne : o.nam ≠ [])
    (hs : o.snam = some initial) :
    Named lookup (o :: os) c n ↔ Named (lookup ++ [(initial, o.nam)]) os c n := by
  rw [Named, Named, List.exists_mem_cons_iff, lookup_concat, ← or_assoc]
  refine or_congr_left ?_
  by_cases hc : c = initial
  · subst hc
    rw [hl, Option.none_or, if_pos rfl, hs]
    constructor
    · intro h
      rcases h with h | h
      · cases h
      · rw [h.1]
    · intro h
      obtain rfl := Option.some.inj h
      exact Or.inr ⟨rfl, hne, rfl⟩
  · simp [hc, hs, Ne.symm hc]

/-- The table names the options that it was built from. -/
theorem lookup_shortNames (h : shortNames os lookup = .ok table) {c : Char} :
    table.lookup c = some n ↔ Named lookup os c n := by
  induction os generalizing lookup with
  | nil =>
      obtain rfl : lookup = table := by simpa [shortNames] using h
      simp [Named]
  | cons o os ih =>
      rw [shortNames] at h
      by_cases hnil : o.nam = []
      · rw [if_pos hnil] at h
        rw [ih h, named_skip (Or.inl hnil)]
      · rw [if_neg hnil] at h
        cases hs : o.snam with
        | none =>
            simp only [hs] at h
            rw [ih h, named_skip (Or.inr hs)]
        | some initial =>
            simp only [hs] at h
            by_cases hl : (lookup.lookup initial).isSome = true
            · simp [hl] at h
            · rw [if_neg hl] at h
              rw [ih h, named_concat (Option.not_isSome_iff_eq_none.mp hl) hnil hs]

/-- A table is built when no two options have a short name in common. -/
theorem exists_shortNames (hd : (os.map (·.nam)).Nodup)
    (hl : ∀ c n, lookup.lookup c = some n → n ∉ os.map (·.nam))
    (hu : ∀ c n m, Named lookup os c n → Named lookup os c m → n = m) :
    ∃ table, shortNames os lookup = .ok table := by
  induction os generalizing lookup with
  | nil => exact ⟨lookup, rfl⟩
  | cons o os ih =>
      obtain ⟨hnew, hd⟩ := List.nodup_cons.mp hd
      have hl' : ∀ c n, lookup.lookup c = some n → n ∉ os.map (·.nam) := fun c n h hm =>
        hl c n h (List.mem_cons_of_mem _ hm)
      rw [shortNames]
      by_cases hnil : o.nam = []
      · rw [if_pos hnil]
        simp only [named_skip (Or.inl hnil)] at hu
        exact ih hd hl' hu
      · rw [if_neg hnil]
        cases hs : o.snam with
        | none =>
            simp only [named_skip (Or.inr hs)] at hu
            exact ih hd hl' hu
        | some initial =>
            have hfree : lookup.lookup initial = none := by
              by_contra hsome
              obtain ⟨m, hm⟩ := Option.ne_none_iff_exists'.mp hsome
              have heq := hu initial m o.nam (Or.inl hm)
                (Or.inr ⟨o, List.mem_cons_self, rfl, hnil, hs⟩)
              exact hl initial m hm (heq ▸ List.mem_cons_self)
            simp only [hfree, Option.isSome_none, Bool.false_eq_true, if_false]
            simp only [named_concat hfree hnil hs] at hu
            refine ih hd (fun c n h => ?_) hu
            rw [lookup_concat, Option.or_eq_some_iff] at h
            rcases h with h | ⟨-, h⟩
            · exact hl' c n h
            · by_cases hc : c = initial
              · rw [if_pos hc] at h
                exact Option.some.inj h ▸ hnew
              · simp [hc] at h

theorem mem_options : o ∈ p.options ↔ o ∈ p.ordered := List.mem_insertionSort _

/-- **The table of the short options** is built unless two options have a short name in
common. -/
theorem shortNames_options : (∃ table, shortNames p.options [] = .ok table) ↔
    Unambiguous p.declared := by
  have hnamed : ∀ c n, Named [] p.options c n ↔ Short p.declared c n := fun c n => by
    simp [Named, short_declared, mem_options]
  constructor
  · intro h
    obtain ⟨table, h⟩ := h
    intro c n m hn hm
    rw [← hnamed, ← lookup_shortNames h] at hn hm
    exact Option.some.inj (hn.symm.trans hm)
  · intro hu
    refine exists_shortNames ?_ (by simp) ?_
    swap
    · exact fun c n m hn hm => hu c n m ((hnamed c n).mp hn) ((hnamed c m).mp hm)
    exact ((List.perm_insertionSort _ _).map _).nodup_iff.mpr p.nodup

theorem agrees_options (h : shortNames p.options [] = .ok table) : Agrees table p.declared := by
  intro c n
  rw [lookup_shortNames h]
  simp [Named, short_declared, mem_options]

/-! ## The result -/

theorem declared_started {arg0 : Str} : (p.started arg0).declared = p.declared := rfl

/-- The result of `parse`, when there is a table of short options. -/
theorem parse_of_table {arg0 : Str} (h : shortNames p.options [] = .ok table) :
    p.parse (arg0 :: args) = (let r := ((p.started arg0).scan table args).needed
      (r.errors.isEmpty, r)) := by
  have h' : shortNames (p.started arg0).options [] = .ok table := h
  simp only [parse, h']

theorem parse_of_spells (arg0 : Str) (hu : Unambiguous p.declared)
    (hs : Spells p.declared args items) :
    ((p.parse (arg0 :: args)).1 = true ↔ ∀ o ∈ p.ordered, (o.after items).valid = true) ∧
      (p.parse (arg0 :: args)).2.ordered = p.ordered.map (·.after items) ∧
      (p.parse (arg0 :: args)).2.rest = items.filterMap Item.kept := by
  obtain ⟨table, htable⟩ := shortNames_options.mpr hu
  have hscan := scan_of_spells (p := p.started arg0) (agrees_options htable) hs declared_started
  obtain ⟨ho, hk, he⟩ := foldl_give (p := p.started arg0) (fits_of_spells hs)
  rw [parse_of_table htable, hscan]
  refine ⟨?_, ho, hk⟩
  have herrors : (p.started arg0).errors = [] := rfl
  have hordered : (p.started arg0).ordered = p.ordered := rfl
  simp only [needed, he, herrors, List.nil_append, List.isEmpty_iff, List.map_eq_nil_iff,
    List.filter_eq_nil_iff, mem_options, ho, hordered]
  simp

/-- **What `parse` accepts, and what it leaves.**  The arguments are accepted when they spell
some items, and every option that is needed was given.  The options are left as the items
say. -/
theorem parse_spec (p : Parser) (arg0 : Str) (args : List Str) :
    ((p.parse (arg0 :: args)).1 = true ↔ Unambiguous p.declared ∧
        ∃ items, Spells p.declared args items ∧ ∀ o ∈ p.ordered, (o.after items).valid = true) ∧
      ∀ items, Unambiguous p.declared → Spells p.declared args items →
        (p.parse (arg0 :: args)).2.ordered = p.ordered.map (·.after items) ∧
          (p.parse (arg0 :: args)).2.rest = items.filterMap Item.kept := by
  refine ⟨⟨fun h => ?_, fun h => ?_⟩, fun items hu hs => (parse_of_spells arg0 hu hs).2⟩
  · cases htable : shortNames p.options [] with
    | error e =>
        have htable' : shortNames (p.started arg0).options [] = .error e := htable
        simp [parse, htable'] at h
    | ok table =>
        have hu : Unambiguous p.declared := shortNames_options.mp ⟨table, htable⟩
        have hr := h
        simp only [parse_of_table htable, needed, List.isEmpty_iff, List.append_eq_nil_iff] at hr
        obtain ⟨-, items, hs⟩ :=
          spells_of_scan (p := p.started arg0) (agrees_options htable) declared_started hr.1
        exact ⟨hu, items, hs, (parse_of_spells arg0 hu hs).1.mp h⟩
  · obtain ⟨hu, items, hs, hvalid⟩ := h
    exact (parse_of_spells arg0 hu hs).1.mpr hvalid

theorem declared_parse {argv : List Str} : (p.parse argv).2.declared = p.declared := by
  cases argv with
  | nil => rfl
  | cons arg0 args =>
      rw [parse]
      split
      · rfl
      · exact declared_scan

/-! ## Checking the result -/

theorem exists_exist (h : ∃ d ∈ p.declared, d.nam = n) : ∃ b, p.exist n = .ok b := by
  obtain ⟨d, hd, hn⟩ := h
  obtain ⟨o, ho, rfl⟩ := List.mem_map.mp hd
  rw [exist, find_eq_some.mpr ⟨ho, hn⟩]
  exact ⟨_, rfl⟩

theorem check_accepted {argc : ℕ} {help : Bool} (hh : p.exist "help".toList = .ok help) :
    p.check argc true = .ok (if help then some ⟨0, p.usage⟩ else none) := by
  rw [check, if_neg (by simp), hh]
  cases help <;> rfl

theorem check_refused {argc : ℕ} {help : Bool} (hh : p.exist "help".toList = .ok help) :
    p.check argc false = .ok (some (if argc = 1 ∨ help = true then ⟨0, p.usage⟩
      else ⟨1, p.error ++ "\n".toList ++ p.usage⟩)) := by
  rw [check, hh]
  by_cases hargc : argc = 1
  · simp [hargc]
    rfl
  · cases help with
    | true => simp [hargc]; rfl
    | false => simp [hargc]; rfl

end CameraService.Cmdline.Parser
