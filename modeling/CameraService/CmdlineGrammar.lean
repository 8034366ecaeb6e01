import CameraService.Cmdline

/-!
# What the command line means

The arguments that the loop of `Parser.parse` reads without a message are those that spell a
list of items, and what it leaves in the options is what the items say: an option was
given when some item names it, and has the last of its values.

## Main definitions

* `Item` — an option, an option with its value, or another argument.
* `Spells` — the ways to write items.
* `OptionBase.after` — what items leave in an option.
* `Parser.scan_of_spells`, `Parser.spells_of_scan` — the loop over the arguments.
-/

namespace CameraService.Cmdline

/-! ## Items -/

/-- What is declared about an option: an option without a value has no reader. -/
structure Declared where
  nam : Str
  snam : Option Char
  reader : Option (Str → Option Str)

def OptionBase.declared (o : OptionBase) : Declared := ⟨o.nam, o.snam, o.value.map (·.reader)⟩

def Parser.declared (p : Parser) : List Declared := p.ordered.map (·.declared)

/-- What an argument says. -/
inductive Item
  | flag (name : Str)
  | value (name val : Str)
  | other (arg : Str)
  deriving DecidableEq

namespace Item

/-- The item gives the option. -/
def gives (n : Str) : Item → Bool
  | flag m => m = n
  | value m _ => m = n
  | other _ => false

/-- The value that the item gives the option. -/
def valueFor (n : Str) : Item → Option Str
  | value m v => if m = n then some v else none
  | _ => none

def kept : Item → Option Str
  | other a => some a
  | _ => none

end Item

/-- An option without a value has this name. -/
def Flag (D : List Declared) (n : Str) : Prop := ∃ d ∈ D, d.nam = n ∧ d.reader = none

/-- An option with a value has this name, and its reader takes the value. -/
def Takes (D : List Declared) (n v : Str) : Prop :=
  ∃ d ∈ D, d.nam = n ∧ ∃ r, d.reader = some r ∧ (r v).isSome = true

/-- The short name of an option. -/
def Short (D : List Declared) (c : Char) (n : Str) : Prop :=
  ∃ d ∈ D, d.nam = n ∧ n ≠ [] ∧ d.snam = some c

/-- The arguments that say these items. -/
inductive Spells (D : List Declared) : List Str → List Item → Prop
  | nil : Spells D [] []
  | other {a : Str} {args : List Str} {items : List Item} (ha : a.head? ≠ some '-')
      (h : Spells D args items) : Spells D (a :: args) (.other a :: items)
  | dash {args : List Str} {items : List Item} (h : Spells D args items) :
      Spells D (['-'] :: args) items
  /-- `--name` -/
  | flag {n : Str} {args : List Str} {items : List Item} (hn : Flag D n) (he : '=' ∉ n)
      (h : Spells D args items) : Spells D (('-' :: '-' :: n) :: args) (.flag n :: items)
  /-- `--name=value` -/
  | assign {n v : Str} {args : List Str} {items : List Item} (hn : Takes D n v) (he : '=' ∉ n)
      (h : Spells D args items) :
      Spells D (('-' :: '-' :: (n ++ '=' :: v)) :: args) (.value n v :: items)
  /-- `--name value` -/
  | value {n v : Str} {args : List Str} {items : List Item} (hn : Takes D n v) (he : '=' ∉ n)
      (h : Spells D args items) : Spells D (('-' :: '-' :: n) :: v :: args) (.value n v :: items)
  /-- `-xyz` -/
  | shorts {cs : Str} {ns : List Str} {c : Char} {n : Str} {args : List Str} {items : List Item}
      (hd : (cs ++ [c]).head? ≠ some '-')
      (hs : List.Forall₂ (fun c n => Short D c n ∧ Flag D n) cs ns) (hc : Short D c n)
      (hn : Flag D n) (h : Spells D args items) :
      Spells D (('-' :: (cs ++ [c])) :: args) (ns.map .flag ++ .flag n :: items)
  /-- `-xyz value` -/
  | shortsValue {cs : Str} {ns : List Str} {c : Char} {n v : Str} {args : List Str}
      {items : List Item} (hd : (cs ++ [c]).head? ≠ some '-')
      (hs : List.Forall₂ (fun c n => Short D c n ∧ Flag D n) cs ns) (hc : Short D c n)
      (hn : Takes D n v) (h : Spells D args items) :
      Spells D (('-' :: (cs ++ [c])) :: v :: args) (ns.map .flag ++ .value n v :: items)

theorem ne_nil_of_short {D : List Declared} {c : Char} {n : Str} (h : Short D c n) : n ≠ [] := by
  obtain ⟨d, -, -, hne, -⟩ := h
  exact hne

variable {D : List Declared} {o : OptionBase} {item : Item} {items items' : List Item}

/-! ## What items leave in an option -/

/-- The option after some items: it was given when one of them names it, and has the last of
its values. -/
def OptionBase.after (o : OptionBase) (items : List Item) : OptionBase :=
  { o with
    has := o.has || items.any (·.gives o.nam)
    value := o.value.map fun u => { u with
      actual := (items.filterMap fun i => (i.valueFor o.nam).bind u.reader).getLast?.getD u.actual } }

/-- An item for the options as they are declared. -/
def Item.Fits (D : List Declared) : Item → Prop
  | .flag n => Flag D n
  | .value n v => Takes D n v
  | .other _ => True

theorem fits_of_shorts {cs : Str} {ns : List Str}
    (hs : List.Forall₂ (fun c n => Short D c n ∧ Flag D n) cs ns) :
    ∀ i ∈ ns.map Item.flag, i.Fits D := by
  induction hs with
  | nil => simp
  | cons h hs ih => exact List.forall_mem_cons.mpr ⟨h.2, ih⟩

theorem fits_of_spells {args : List Str} (h : Spells D args items) : ∀ i ∈ items, i.Fits D := by
  induction h with
  | nil => simp
  | other ha h ih => exact List.forall_mem_cons.mpr ⟨trivial, ih⟩
  | dash h ih => exact ih
  | flag hn he h ih => exact List.forall_mem_cons.mpr ⟨hn, ih⟩
  | assign hn he h ih => exact List.forall_mem_cons.mpr ⟨hn, ih⟩
  | value hn he h ih => exact List.forall_mem_cons.mpr ⟨hn, ih⟩
  | shorts hd hs hc hn h ih =>
      exact List.forall_mem_append.mpr ⟨fits_of_shorts hs, List.forall_mem_cons.mpr ⟨hn, ih⟩⟩
  | shortsValue hd hs hc hn h ih =>
      exact List.forall_mem_append.mpr ⟨fits_of_shorts hs, List.forall_mem_cons.mpr ⟨hn, ih⟩⟩

theorem OptionBase.after_nil : o.after [] = o := by
  obtain ⟨nam, snam, desc, has, value⟩ := o
  cases value <;> simp [after]

theorem OptionBase.after_append : o.after (items ++ items') = (o.after items).after items' := by
  obtain ⟨nam, snam, desc, has, value⟩ := o
  cases value with
  | none => simp [after, Bool.or_assoc]
  | some u => simp [after, Bool.or_assoc, List.getLast?_append, Option.getD_or]

/-- An item for another option. -/
theorem OptionBase.after_of_not_gives (h : item.gives o.nam = false) : o.after [item] = o := by
  have hv : item.valueFor o.nam = none := by
    cases item with
    | flag m => rfl
    | value m v => simpa [Item.gives, Item.valueFor] using h
    | other a => rfl
  obtain ⟨nam, snam, desc, has, value⟩ := o
  cases value with
  | none => simp_all [after]
  | some u => simp_all [after]

namespace Parser

variable {p q : Parser} {n v : Str} {o' : OptionBase} {e : ParseError} {c last : Char}
  {cs : List Char} {os : List OptionBase} {lookup table : List (Char × Str)} {args : List Str}

/-! ## Writing an option -/

theorem find_eq_some : p.find n = some o ↔ o ∈ p.ordered ∧ o.nam = n := by
  rw [find]
  constructor
  · intro h
    exact ⟨List.mem_of_find?_eq_some h, by simpa using List.find?_some h⟩
  · intro h
    obtain ⟨ho, rfl⟩ := h
    have huniq : ∀ x ∈ p.ordered, x.nam = o.nam → x = o := fun x hx he =>
      List.inj_on_of_nodup_map p.nodup hx ho he
    cases hf : p.ordered.find? (·.nam = o.nam) with
    | none =>
        have hne := List.find?_eq_none.mp hf o ho
        simp at hne
    | some x =>
        rw [huniq x (List.mem_of_find?_eq_some hf) (by simpa using List.find?_some hf)]

theorem declared_store (ho : p.find o'.nam = some o) (hd : o'.declared = o.declared) :
    (p.store o').declared = p.declared := by
  obtain ⟨hmem, hnam⟩ := find_eq_some.mp ho
  rw [declared, declared, store, List.map_map]
  refine List.map_congr_left fun x hx => ?_
  by_cases hxn : x.nam = o'.nam
  · have hx : x = o := List.inj_on_of_nodup_map p.nodup hx hmem (hxn.trans hnam.symm)
    rw [Function.comp_apply, if_pos hxn, hd, hx]
  · simp [hxn]

/-! ## Setting an option -/

/-- What an item does. -/
def give (p : Parser) : Item → Parser
  | .flag n => p.setOption n
  | .value n v => p.setOptionTo n v
  | .other a => { p with others := p.others ++ [a] }

theorem flag_iff : Flag p.declared n ↔ ∃ o, p.find n = some o ∧ o.value = none := by
  constructor
  · intro h
    obtain ⟨d, hd, hn, hr⟩ := h
    obtain ⟨o, ho, rfl⟩ := List.mem_map.mp hd
    exact ⟨o, find_eq_some.mpr ⟨ho, hn⟩, by simpa [OptionBase.declared] using hr⟩
  · intro h
    obtain ⟨o, ho, hv⟩ := h
    obtain ⟨ho, hn⟩ := find_eq_some.mp ho
    exact ⟨o.declared, List.mem_map_of_mem ho, hn, by simp [OptionBase.declared, hv]⟩

theorem takes_iff : Takes p.declared n v ↔
    ∃ o u a, p.find n = some o ∧ o.value = some u ∧ u.reader v = some a := by
  constructor
  · intro h
    obtain ⟨d, hd, hn, r, hr, hv⟩ := h
    obtain ⟨o, ho, rfl⟩ := List.mem_map.mp hd
    obtain ⟨u, hu, rfl⟩ := Option.map_eq_some_iff.mp hr
    obtain ⟨a, ha⟩ := Option.isSome_iff_exists.mp hv
    exact ⟨o, u, a, find_eq_some.mpr ⟨ho, hn⟩, hu, ha⟩
  · intro h
    obtain ⟨o, u, a, ho, hu, ha⟩ := h
    obtain ⟨ho, hn⟩ := find_eq_some.mp ho
    refine ⟨o.declared, List.mem_map_of_mem ho, hn, u.reader, ?_, by simp [ha]⟩
    simp [OptionBase.declared, hu]

/-- A setter writes an option that is declared so, or leaves a message. -/
theorem setOption_cases : (∃ o, p.find n = some o ∧ o.value = none ∧
      p.setOption n = p.store { o with has := true }) ∨
    ¬ Flag p.declared n ∧ ∃ e, p.setOption n = p.addError e := by
  rw [flag_iff, setOption]
  cases hf : p.find n with
  | none => exact Or.inr ⟨by simp, _, rfl⟩
  | some o =>
      cases hv : o.value with
      | none => exact Or.inl ⟨o, rfl, hv, by simp [OptionBase.set, hv]⟩
      | some u => exact Or.inr ⟨by simp [hv], _, by simp [OptionBase.set, hv]; rfl⟩

theorem setOptionTo_cases : (∃ o u a, p.find n = some o ∧ o.value = some u ∧
      u.reader v = some a ∧ p.setOptionTo n v =
        p.store { o with has := true, value := some { u with actual := a } }) ∨
    ¬ Takes p.declared n v ∧ ∃ e, p.setOptionTo n v = p.addError e := by
  rw [takes_iff, setOptionTo]
  cases hf : p.find n with
  | none => exact Or.inr ⟨by simp, _, rfl⟩
  | some o =>
      cases hv : o.value with
      | none => exact Or.inr ⟨by simp [hv], _, by simp [OptionBase.setTo, hv]; rfl⟩
      | some u =>
          cases ha : u.reader v with
          | none =>
              exact Or.inr ⟨by simp [hv, ha], _, by simp [OptionBase.setTo, hv, ha]; rfl⟩
          | some a => exact Or.inl ⟨o, u, a, rfl, hv, ha, by simp [OptionBase.setTo, hv, ha]⟩

theorem declared_setOption : (p.setOption n).declared = p.declared := by
  rcases setOption_cases (p := p) (n := n) with ⟨o, ho, hv, he⟩ | ⟨-, e, he⟩
  · obtain rfl := (find_eq_some.mp ho).2
    rw [he]
    exact declared_store ho rfl
  · rw [he]
    rfl

theorem declared_setOptionTo : (p.setOptionTo n v).declared = p.declared := by
  rcases setOptionTo_cases (p := p) (n := n) (v := v) with ⟨o, u, a, ho, hv, -, he⟩ | ⟨-, e, he⟩
  · obtain rfl := (find_eq_some.mp ho).2
    rw [he]
    exact declared_store ho (by simp [OptionBase.declared, hv])
  · rw [he]
    rfl

theorem errors_setOption : (p.setOption n).errors = [] ↔ p.errors = [] ∧ Flag p.declared n := by
  rcases setOption_cases (p := p) (n := n) with ⟨o, ho, hv, he⟩ | ⟨hf, e, he⟩
  · have hflag : Flag p.declared n := flag_iff.mpr ⟨o, ho, hv⟩
    simp [he, hflag, store]
  · simp [he, hf, addError]

theorem errors_setOptionTo :
    (p.setOptionTo n v).errors = [] ↔ p.errors = [] ∧ Takes p.declared n v := by
  rcases setOptionTo_cases (p := p) (n := n) (v := v) with ⟨o, u, a, ho, hv, ha, he⟩ | ⟨hf, e, he⟩
  · have htakes : Takes p.declared n v := takes_iff.mpr ⟨o, u, a, ho, hv, ha⟩
    simp [he, htakes, store]
  · simp [he, hf, addError]

/-! ## Short options -/

/-- The table of the short options is that of the declared ones. -/
def Agrees (lookup : List (Char × Str)) (D : List Declared) : Prop :=
  ∀ c n, lookup.lookup c = some n ↔ Short D c n

theorem setShort_of_short (hl : Agrees lookup D) (h : Short D c n) :
    p.setShort lookup c = p.setOption n := by
  obtain ⟨x, xs, rfl⟩ := List.exists_cons_of_ne_nil (ne_nil_of_short h)
  simp [setShort, (hl c _).mpr h]

theorem declared_setShort : (p.setShort lookup c).declared = p.declared := by
  rw [setShort]
  split
  · rfl
  · rfl
  · exact declared_setOption

theorem errors_setShort (hl : Agrees lookup p.declared) : (p.setShort lookup c).errors = [] ↔
    p.errors = [] ∧ ∃ n, Short p.declared c n ∧ Flag p.declared n := by
  cases h : lookup.lookup c with
  | none =>
      have hno : ∀ n, ¬ Short p.declared c n := fun n hn => by simp [(hl c n).mpr hn] at h
      simp [setShort, h, hno, addError]
  | some n =>
      have hs := (hl c n).mp h
      have huniq : ∀ m, Short p.declared c m → m = n := fun m hm =>
        Option.some.inj (((hl c m).mpr hm).symm.trans h)
      rw [setShort_of_short hl hs, errors_setOption]
      constructor
      · exact fun hf => ⟨hf.1, n, hs, hf.2⟩
      · intro hf
        obtain ⟨he, m, hm, hflag⟩ := hf
        exact ⟨he, huniq m hm ▸ hflag⟩

theorem declared_cluster : (p.cluster lookup last cs).1.declared = p.declared := by
  induction cs generalizing p last with
  | nil => rfl
  | cons c cs ih =>
      rw [cluster, ih]
      exact declared_setShort

theorem cluster_last : (p.cluster lookup last cs).2 = (last :: cs).getLast (by simp) := by
  induction cs generalizing p last with
  | nil => rfl
  | cons c cs ih =>
      rw [cluster, ih]
      rfl

theorem cluster_of_shorts {ns : List Str} (hl : Agrees lookup D)
    (h : List.Forall₂ (fun c n => Short D c n ∧ Flag D n) (last :: cs).dropLast ns) :
    (p.cluster lookup last cs).1 = (ns.map .flag).foldl give p := by
  induction cs generalizing p last ns with
  | nil =>
      cases h
      rfl
  | cons c cs ih =>
      rw [List.dropLast_cons_of_ne_nil (by simp)] at h
      cases h with
      | cons hn hs =>
          rw [cluster, ih hs, setShort_of_short hl hn.1]
          rfl

theorem errors_cluster (hl : Agrees lookup p.declared) :
    (p.cluster lookup last cs).1.errors = [] → p.errors = [] ∧ ∃ ns, List.Forall₂
      (fun c n => Short p.declared c n ∧ Flag p.declared n) (last :: cs).dropLast ns := by
  intro h
  induction cs generalizing p last with
  | nil => exact ⟨h, [], .nil⟩
  | cons c cs ih =>
      rw [cluster] at h
      obtain ⟨he, ns, hns⟩ := ih (by rwa [declared_setShort]) h
      rw [declared_setShort] at hns
      obtain ⟨he, n, hn⟩ := (errors_setShort hl).mp he
      rw [List.dropLast_cons_of_ne_nil (by simp)]
      exact ⟨he, n :: ns, .cons hn hns⟩

/-! ## The loop -/

theorem declared_give : (p.give item).declared = p.declared := by
  cases item with
  | flag n => exact declared_setOption
  | value n v => exact declared_setOptionTo
  | other a => rfl

theorem declared_foldl_give : (items.foldl give p).declared = p.declared := by
  induction items generalizing p with
  | nil => rfl
  | cons item items ih => rw [List.foldl_cons, ih, declared_give]

theorem scan_long {body : Str} : p.scan lookup (('-' :: '-' :: body) :: args) =
    if '=' ∈ body then (p.setOptionTo (body.takeWhile (· ≠ '=')) (body.dropWhile (· ≠ '=')).tail
      ).scan lookup args
    else match p.find body with
      | none => (p.addError (.undefinedOption body)).scan lookup args
      | some o =>
        if o.hasValue then
          match args with
          | [] => p.addError (.needsValue body)
          | val :: args => (p.setOptionTo body val).scan lookup args
        else (p.setOption body).scan lookup args := by
  cases args with
  | nil => exact scan.eq_2 ..
  | cons v args => exact scan.eq_3 ..

theorem scan_flag (hn : Flag p.declared n) (he : '=' ∉ n) :
    p.scan lookup (('-' :: '-' :: n) :: args) = (p.setOption n).scan lookup args := by
  obtain ⟨o, ho, hv⟩ := flag_iff.mp hn
  simp [scan_long, he, ho, OptionBase.hasValue, hv]

theorem scan_value (hn : Takes p.declared n v) (he : '=' ∉ n) :
    p.scan lookup (('-' :: '-' :: n) :: v :: args) = (p.setOptionTo n v).scan lookup args := by
  obtain ⟨o, u, a, ho, hv, -⟩ := takes_iff.mp hn
  simp [scan_long, he, ho, OptionBase.hasValue, hv]

theorem scan_assign (he : '=' ∉ n) :
    p.scan lookup (('-' :: '-' :: (n ++ '=' :: v)) :: args) =
      (p.setOptionTo n v).scan lookup args := by
  have hall : ∀ x ∈ n, (fun x : Char => decide (x ≠ '=')) x = true := fun x hx => by
    simpa using fun h : x = '=' => he (h ▸ hx)
  have htake : (n ++ '=' :: v).takeWhile (· ≠ '=') = n := by
    rw [List.takeWhile_append_of_pos hall]
    simp
  have hdrop : (n ++ '=' :: v).dropWhile (· ≠ '=') = '=' :: v := by
    rw [List.dropWhile_append_of_pos hall]
    simp
  rw [scan_long, if_pos (by simp), htake, hdrop]
  rfl

theorem scan_other {a : Str} (ha : a.head? ≠ some '-') :
    p.scan lookup (a :: args) = (p.give (.other a)).scan lookup args := by
  cases a with
  | nil => rfl
  | cons c cs =>
      have hc : c ≠ '-' := by simpa using ha
      rw [scan]
      · rfl
      all_goals simp [hc]

/-- An argument of short options is read up to the last one. -/
theorem scan_shorts (hc : c ≠ '-') (hl : lookup.lookup last = some n) (hne : n ≠ [])
    (hlast : (c :: cs).getLast (by simp) = last) :
    p.scan lookup (('-' :: c :: cs) :: args) = match args with
      | [] => (p.cluster lookup c cs).1.setOption n
      | v :: args' => if ((p.cluster lookup c cs).1.find n).any OptionBase.hasValue
        then ((p.cluster lookup c cs).1.setOptionTo n v).scan lookup args'
        else ((p.cluster lookup c cs).1.setOption n).scan lookup (v :: args') := by
  obtain ⟨x, xs, rfl⟩ := List.exists_cons_of_ne_nil hne
  rw [scan]
  · simp only [cluster_last, hlast, hl]
    cases args <;> rfl
  all_goals simp [hc]


/-- The short options of an argument, whose last one is set as declared. -/
theorem cluster_eq {ns : List Str} {cs' : List Char} (hl : Agrees lookup p.declared)
    (hs : List.Forall₂ (fun c n => Short p.declared c n ∧ Flag p.declared n) cs ns)
    (hcs : cs ++ [c] = last :: cs') :
    (p.cluster lookup last cs').1 = (ns.map .flag).foldl give p ∧
      (last :: cs').getLast (by simp) = c := by
  have hdrop : (last :: cs').dropLast = cs := by
    rw [← hcs, List.dropLast_concat]
  refine ⟨cluster_of_shorts hl (hdrop.symm ▸ hs), ?_⟩
  simp [← hcs]

theorem scan_shorts_flag {ns : List Str} (hl : Agrees lookup p.declared)
    (hd : (cs ++ [c]).head? ≠ some '-')
    (hs : List.Forall₂ (fun c n => Short p.declared c n ∧ Flag p.declared n) cs ns)
    (hc : Short p.declared c n) (hn : Flag p.declared n) :
    p.scan lookup (('-' :: (cs ++ [c])) :: args) =
      ((ns.map Item.flag ++ [Item.flag n]).foldl give p).scan lookup args := by
  obtain ⟨c₀, cs', hcs⟩ := List.exists_cons_of_ne_nil (show cs ++ [c] ≠ [] by simp)
  obtain ⟨hq, hlast⟩ := cluster_eq hl hs hcs
  rw [hcs] at hd ⊢
  have hdecl : (p.cluster lookup c₀ cs').1.declared = p.declared := declared_cluster
  rw [← hdecl] at hn
  obtain ⟨o, ho, hv⟩ := flag_iff.mp hn
  rw [scan_shorts (by simpa using hd) ((hl c n).mpr hc) (ne_nil_of_short hc) hlast,
    List.foldl_append, ← hq]
  cases args with
  | nil => rfl
  | cons v args =>
      simp only [ho, Option.any_some, OptionBase.hasValue, hv]
      rfl

theorem scan_shorts_value {ns : List Str} (hl : Agrees lookup p.declared)
    (hd : (cs ++ [c]).head? ≠ some '-')
    (hs : List.Forall₂ (fun c n => Short p.declared c n ∧ Flag p.declared n) cs ns)
    (hc : Short p.declared c n) (hn : Takes p.declared n v) :
    p.scan lookup (('-' :: (cs ++ [c])) :: v :: args) =
      ((ns.map Item.flag ++ [Item.value n v]).foldl give p).scan lookup args := by
  obtain ⟨c₀, cs', hcs⟩ := List.exists_cons_of_ne_nil (show cs ++ [c] ≠ [] by simp)
  obtain ⟨hq, hlast⟩ := cluster_eq hl hs hcs
  rw [hcs] at hd ⊢
  have hdecl : (p.cluster lookup c₀ cs').1.declared = p.declared := declared_cluster
  rw [← hdecl] at hn
  obtain ⟨o, u, a, ho, hv, -⟩ := takes_iff.mp hn
  rw [scan_shorts (by simpa using hd) ((hl c n).mpr hc) (ne_nil_of_short hc) hlast,
    List.foldl_append, ← hq]
  simp only [ho, Option.any_some, OptionBase.hasValue, hv]
  rfl

/-- **What spells items has their effect.** -/
theorem scan_of_spells (hl : Agrees lookup D) (hs : Spells D args items)
    (hp : p.declared = D) : p.scan lookup args = items.foldl give p := by
  induction hs generalizing p with
  | nil => rfl
  | other ha h ih =>
      rw [scan_other ha, ih (by rw [declared_give, hp])]
      rfl
  | dash h ih => rw [scan, ih hp]
  | flag hn he h ih =>
      rw [scan_flag (hp ▸ hn) he, ih (by rw [declared_setOption, hp])]
      rfl
  | assign hn he h ih =>
      rw [scan_assign he, ih (by rw [declared_setOptionTo, hp])]
      rfl
  | value hn he h ih =>
      rw [scan_value (hp ▸ hn) he, ih (by rw [declared_setOptionTo, hp])]
      rfl
  | shorts hd hs hc hn h ih =>
      subst hp
      rw [scan_shorts_flag hl hd hs hc hn, ih declared_foldl_give, ← List.foldl_append]
      simp
  | shortsValue hd hs hc hn h ih =>
      subst hp
      rw [scan_shorts_value hl hd hs hc hn, ih declared_foldl_give, ← List.foldl_append]
      simp

/-- What comes before and after the first `=`. -/
theorem split_assign {body : Str} (h : '=' ∈ body) :
    body = body.takeWhile (· ≠ '=') ++ '=' :: (body.dropWhile (· ≠ '=')).tail ∧
      '=' ∉ body.takeWhile (· ≠ '=') := by
  induction body with
  | nil => simp at h
  | cons c body ih =>
      by_cases hc : c = '='
      · simp [hc]
      · obtain ⟨hsplit, hfree⟩ := ih ((List.mem_cons.mp h).resolve_left (Ne.symm hc))
        rw [List.takeWhile_cons_of_pos (by simpa using hc),
          List.dropWhile_cons_of_pos (by simpa using hc), List.cons_append, ← hsplit]
        refine ⟨rfl, fun hmem => ?_⟩
        exact (List.mem_cons.mp hmem).elim (Ne.symm hc) hfree

theorem cluster_declared (hq : p.cluster lookup c cs = (q, last)) : q.declared = p.declared := by
  have hq₁ : q = (p.cluster lookup c cs).1 := by rw [hq]
  rw [hq₁, declared_cluster]

/-- An argument of short options that left no message. -/
theorem cluster_read (hl : Agrees lookup p.declared) (hc : c ≠ '-')
    (hq : p.cluster lookup c cs = (q, last)) (he : q.errors = []) :
    p.errors = [] ∧ ∃ cs₀ ns, c :: cs = cs₀ ++ [last] ∧
      (cs₀ ++ [last]).head? ≠ some '-' ∧
        List.Forall₂ (fun c n => Short p.declared c n ∧ Flag p.declared n) cs₀ ns := by
  have hq₁ : q = (p.cluster lookup c cs).1 := by rw [hq]
  have hlast : (p.cluster lookup c cs).2 = (c :: cs).getLast (by simp) := cluster_last
  rw [hq] at hlast
  have hsplit : c :: cs = (c :: cs).dropLast ++ [last] := by
    rw [show last = _ from hlast, List.dropLast_append_getLast]
  obtain ⟨hp, ns, hns⟩ := errors_cluster hl (hq₁ ▸ he)
  refine ⟨hp, (c :: cs).dropLast, ns, hsplit, ?_, hns⟩
  rw [← hsplit]
  simpa using hc

/-- **What is read without a message spells items.** -/
theorem spells_of_scan (hl : Agrees lookup D) (hp : p.declared = D)
    (h : (p.scan lookup args).errors = []) : p.errors = [] ∧ ∃ items, Spells D args items := by
  fun_induction scan lookup args p with
  | case1 p => exact ⟨h, [], .nil⟩
  | case2 body args p heq ih =>
      obtain ⟨he, items, hs⟩ := ih (by rw [declared_setOptionTo, hp]) h
      obtain ⟨he, hn⟩ := errors_setOptionTo.mp he
      obtain ⟨hbody, hfree⟩ := split_assign heq
      rw [hbody]
      exact ⟨he, _, .assign (hp ▸ hn) hfree hs⟩
  | case3 body args p heq hf ih =>
      have he := (ih hp h).1
      simp [addError] at he
  | case4 body p heq o ho hv => simp [addError] at h
  | case5 body p heq o ho hv val args ih =>
      obtain ⟨he, items, hs⟩ := ih (by rw [declared_setOptionTo, hp]) h
      obtain ⟨he, hn⟩ := errors_setOptionTo.mp he
      exact ⟨he, _, .value (hp ▸ hn) heq hs⟩
  | case6 body args p heq o ho hv ih =>
      obtain ⟨he, items, hs⟩ := ih (by rw [declared_setOption, hp]) h
      obtain ⟨he, hn⟩ := errors_setOption.mp he
      exact ⟨he, _, .flag (hp ▸ hn) heq hs⟩
  | case7 args p ih =>
      obtain ⟨he, items, hs⟩ := ih hp h
      exact ⟨he, _, .dash hs⟩
  | case8 c cs args p hc q last hq hnone ih =>
      have he := (ih ((cluster_declared hq).trans hp) h).1
      simp [addError] at he
  | case9 c cs args p hc q last hq hempty ih =>
      have he := (ih ((cluster_declared hq).trans hp) h).1
      simp [addError] at he
  | case10 c cs p hc q last hq name hne hname =>
      obtain ⟨he, hn⟩ := errors_setOption.mp h
      subst hp
      obtain ⟨he, cs₀, ns, hcs, hd, hs⟩ := cluster_read hl hc hq he
      rw [hcs]
      rw [cluster_declared hq] at hn
      exact ⟨he, _, .shorts hd hs ((hl _ _).mp hname) hn .nil⟩
  | case11 c cs p hc q last hq name hne hname val args hv ih =>
      obtain ⟨he, items, hrest⟩ := ih (by rw [declared_setOptionTo, cluster_declared hq, hp]) h
      obtain ⟨he, hn⟩ := errors_setOptionTo.mp he
      subst hp
      obtain ⟨he, cs₀, ns, hcs, hd, hs⟩ := cluster_read hl hc hq he
      rw [hcs]
      rw [cluster_declared hq] at hn
      exact ⟨he, _, .shortsValue hd hs ((hl _ _).mp hname) hn hrest⟩
  | case12 c cs p hc q last hq name hne hname val args hv ih =>
      obtain ⟨he, items, hrest⟩ := ih (by rw [declared_setOption, cluster_declared hq, hp]) h
      obtain ⟨he, hn⟩ := errors_setOption.mp he
      subst hp
      obtain ⟨he, cs₀, ns, hcs, hd, hs⟩ := cluster_read hl hc hq he
      rw [hcs]
      rw [cluster_declared hq] at hn
      exact ⟨he, _, .shorts hd hs ((hl _ _).mp hname) hn hrest⟩
  | case13 arg args p hlong hdash hshort ih =>
      obtain ⟨he, items, hs⟩ := ih hp h
      refine ⟨he, _, .other (fun hd => ?_) hs⟩
      cases arg with
      | nil => simp at hd
      | cons x xs =>
          obtain rfl : x = '-' := by simpa using hd
          cases xs with
          | nil => exact hdash rfl
          | cons c cs => exact hshort c cs rfl

/-- The loop declares nothing. -/
theorem declared_scan : (p.scan lookup args).declared = p.declared := by
  fun_induction scan lookup args p with
  | case1 p => rfl
  | case2 body args p heq ih => rw [ih, declared_setOptionTo]
  | case3 body args p heq hf ih => exact ih
  | case4 body p heq o ho hv => rfl
  | case5 body p heq o ho hv val args ih => rw [ih, declared_setOptionTo]
  | case6 body args p heq o ho hv ih => rw [ih, declared_setOption]
  | case7 args p ih => exact ih
  | case8 c cs args p hc q last hq hnone ih =>
      rw [ih, ← cluster_declared hq]
      rfl
  | case9 c cs args p hc q last hq hempty ih =>
      rw [ih, ← cluster_declared hq]
      rfl
  | case10 c cs p hc q last hq name hne hname => rw [declared_setOption, cluster_declared hq]
  | case11 c cs p hc q last hq name hne hname val args hv ih =>
      rw [ih, declared_setOptionTo, cluster_declared hq]
  | case12 c cs p hc q last hq name hne hname val args hv ih =>
      rw [ih, declared_setOption, cluster_declared hq]
  | case13 arg args p hlong hdash hshort ih => exact ih

/-! ## What items leave in the options -/

theorem ordered_store (ho : p.find n = some o) (hn : o'.nam = n)
    (hafter : o' = o.after [item]) (hothers : ∀ m, m ≠ n → item.gives m = false) :
    (p.store o').ordered = p.ordered.map (·.after [item]) := by
  obtain ⟨hmem, hnam⟩ := find_eq_some.mp ho
  refine List.map_congr_left fun x hx => ?_
  by_cases hxn : x.nam = o'.nam
  · obtain rfl : x = o := List.inj_on_of_nodup_map p.nodup hx hmem (by rw [hxn, hn, hnam])
    rw [if_pos hxn, hafter]
  · rw [if_neg hxn, OptionBase.after_of_not_gives (hothers _ (hn ▸ hxn))]

theorem ordered_give (hi : item.Fits p.declared) :
    (p.give item).ordered = p.ordered.map (·.after [item]) ∧
      (p.give item).others = p.others ++ ([item].filterMap Item.kept) ∧ (p.give item).errors = p.errors := by
  cases item with
  | flag n =>
      rcases setOption_cases (p := p) (n := n) with ⟨o, ho, hv, he⟩ | ⟨hf, e, he⟩
      · have hn := (find_eq_some.mp ho).2
        rw [give, he]
        refine ⟨ordered_store ho hn ?_ (by simp [Item.gives, eq_comm]), by simp [store, Item.kept], rfl⟩
        simp [OptionBase.after, Item.gives, hn, hv]
      · exact absurd hi hf
  | value n v =>
      rcases setOptionTo_cases (p := p) (n := n) (v := v) with ⟨o, u, a, ho, hv, ha, he⟩ | ⟨hf, e, he⟩
      · have hn := (find_eq_some.mp ho).2
        rw [give, he]
        refine ⟨ordered_store ho hn ?_ (by simp [Item.gives, eq_comm]), by simp [store, Item.kept], rfl⟩
        simp [OptionBase.after, Item.gives, Item.valueFor, hn, hv, ha]
      · exact absurd hi hf
  | other a =>
      refine ⟨?_, rfl, rfl⟩
      have hsame : ∀ x : OptionBase, x.after [Item.other a] = x := fun x =>
        OptionBase.after_of_not_gives rfl
      exact (List.map_id'' hsame p.ordered).symm

/-- What items leave behind. -/
theorem foldl_give (hi : ∀ i ∈ items, i.Fits p.declared) :
    (items.foldl give p).ordered = p.ordered.map (·.after items) ∧
      (items.foldl give p).others = p.others ++ items.filterMap Item.kept ∧
      (items.foldl give p).errors = p.errors := by
  induction items generalizing p with
  | nil => simp [OptionBase.after_nil]
  | cons item items ih =>
      obtain ⟨hitem, hi⟩ := List.forall_mem_cons.mp hi
      obtain ⟨hordered, hothers, herrors⟩ := ordered_give hitem
      obtain ⟨hordered', hothers', herrors'⟩ := ih (p := p.give item) (by rwa [declared_give])
      have hafter : ∀ o : OptionBase, (o.after [item]).after items = o.after (item :: items) :=
        fun o => by
          rw [← OptionBase.after_append]
          rfl
      refine ⟨?_, ?_, herrors'.trans herrors⟩
      · rw [List.foldl_cons, hordered', hordered, List.map_map]
        exact List.map_congr_left fun o _ => hafter o
      · rw [List.foldl_cons, hothers', hothers, List.append_assoc, ← List.filterMap_append]
        rfl

end Parser

end CameraService.Cmdline
