import Mathlib.Data.List.Sort

/-!
# The command line

The vendored parser of the command line, `cmdline::parser`.  An argument `--name` or
`--name=value` names an option, `-x` gives its short name, and short names may be joined;
an option that takes a value may find it in the next argument.  Every other argument is
kept.

Options with a value are modelled at the type `std::string`, the only one in use, with any
reader.

## Main definitions

* `OptionBase` — an option and what was given for it.
* `Parser.add`, `Parser.addValue` — declaring an option.
* `Parser.parse` — reading the arguments.
* `Parser.check` — what `parse_check` does with the result.
-/

namespace CameraService.Cmdline

/-- The characters of a `std::string`. -/
abbrev Str : Type := List Char

/-- The order of `std::string`. -/
def le : Str → Str → Bool
  | [], _ => true
  | _ :: _, [] => false
  | a :: as, b :: bs => if a = b then le as bs else a.toNat < b.toNat

/-! ## Options -/

/-- What an option with a value has besides. -/
structure Valued where
  need : Bool
  /-- Reads a value, or throws. -/
  reader : Str → Option Str
  actual : Str

/-- `option_base`; an option without a value has no `value`. -/
structure OptionBase where
  nam : Str
  /-- `none` for `'\0'`. -/
  snam : Option Char
  desc : Str
  has : Bool
  value : Option Valued

namespace OptionBase

/-- `full_description`. -/
def fullDescription (need : Bool) (deflt desc : Str) : Str :=
  desc ++ " (string".toList ++ (if need then [] else " [=".toList ++ deflt ++ "]".toList) ++
    ")".toList

def withoutValue (name : Str) (short_name : Option Char) (desc : Str) : OptionBase :=
  ⟨name, short_name, desc, false, none⟩

def withValue (name : Str) (short_name : Option Char) (desc : Str) (need : Bool) (deflt : Str)
    (reader : Str → Option Str) : OptionBase :=
  ⟨name, short_name, fullDescription need deflt desc, false, some ⟨need, reader, deflt⟩⟩

def hasValue (o : OptionBase) : Bool := o.value.isSome

/-- `set()`. -/
def set (o : OptionBase) : Option OptionBase :=
  match o.value with
  | none => some { o with has := true }
  | some _ => none

/-- `set(value)`. -/
def setTo (o : OptionBase) (val : Str) : Option OptionBase :=
  match o.value with
  | none => none
  | some v => (v.reader val).map fun a => { o with has := true, value := some { v with actual := a } }

def must (o : OptionBase) : Bool := o.value.any (·.need)

def valid (o : OptionBase) : Bool := !(o.must && !o.has)

def shortDescription (o : OptionBase) : Str :=
  "--".toList ++ o.nam ++ (if o.hasValue then "=string".toList else [])

end OptionBase

/-! ## The parser -/

/-- The messages of `parse`. -/
inductive ParseError
  | argumentNumber
  | ambiguousShortOption (c : Char)
  | undefinedOption (name : Str)
  | needsValue (name : Str)
  | undefinedShort (c : Char)
  | ambiguousShort (c : Char)
  | invalidValue (name value : Str)
  | needOption (name : Str)
  deriving DecidableEq

def ParseError.text : ParseError → Str
  | argumentNumber => "argument number must be longer than 0".toList
  | ambiguousShortOption c => "short option '".toList ++ c :: "' is ambiguous".toList
  | undefinedOption name => "undefined option: --".toList ++ name
  | needsValue name => "option needs value: --".toList ++ name
  | undefinedShort c => "undefined short option: -".toList ++ [c]
  | ambiguousShort c => "ambiguous short option: -".toList ++ [c]
  | invalidValue name value => "option value is invalid: --".toList ++ name ++ '=' :: value
  | needOption name => "need option: --".toList ++ name

/-- A `cmdline_error`. -/
inductive CmdlineError
  | multipleDefinition (name : Str)
  | noFlag (name : Str)
  | typeMismatch (name : Str)
  deriving DecidableEq

def CmdlineError.what : CmdlineError → Str
  | multipleDefinition name => "multiple definition: ".toList ++ name
  | noFlag name => "there is no flag: --".toList ++ name
  | typeMismatch name => "type mismatch flag '".toList ++ name ++ "'".toList

/-- `cmdline::parser`.  The map `options` has the entries of `ordered`, by name. -/
structure Parser where
  ordered : List OptionBase
  ftr : Str
  prog_name : Str
  others : List Str
  errors : List ParseError
  nodup : (ordered.map (·.nam)).Nodup

namespace Parser

def new : Parser := ⟨[], [], [], [], [], by simp⟩

/-- `options[name]`. -/
def find (p : Parser) (name : Str) : Option OptionBase := p.ordered.find? (·.nam = name)

/-- The options in the order of the map. -/
def options (p : Parser) : List OptionBase := p.ordered.insertionSort fun o o' => le o.nam o'.nam = true

/-- Both `add`s. -/
def addOption (p : Parser) (o : OptionBase) : Except CmdlineError Parser :=
  if h : o.nam ∈ p.ordered.map (·.nam) then .error (.multipleDefinition o.nam)
  else .ok { p with
    ordered := p.ordered ++ [o]
    nodup := by
      rw [List.map_append, List.map_singleton]
      exact List.nodup_append.mpr ⟨p.nodup, by simp, by simpa using h⟩ }

def add (p : Parser) (name : Str) (short_name : Option Char) (desc : Str) :
    Except CmdlineError Parser := p.addOption (.withoutValue name short_name desc)

def addValue (p : Parser) (name : Str) (short_name : Option Char) (desc : Str) (need : Bool)
    (deflt : Str) (reader : Str → Option Str) : Except CmdlineError Parser :=
  p.addOption (.withValue name short_name desc need deflt reader)

def exist (p : Parser) (name : Str) : Except CmdlineError Bool :=
  match p.find name with
  | none => .error (.noFlag name)
  | some o => .ok o.has

/-- `get<std::string>`. -/
def get (p : Parser) (name : Str) : Except CmdlineError Str :=
  match p.find name with
  | none => .error (.noFlag name)
  | some o =>
    match o.value with
    | none => .error (.typeMismatch name)
    | some v => .ok v.actual

def rest (p : Parser) : List Str := p.others

/-- Write the option of this name. -/
def store (p : Parser) (o' : OptionBase) : Parser :=
  { p with
    ordered := p.ordered.map fun o => if o.nam = o'.nam then o' else o
    nodup := by
      have hnames : (p.ordered.map fun o => if o.nam = o'.nam then o' else o).map (·.nam) =
          p.ordered.map (·.nam) := by
        rw [List.map_map]
        refine List.map_congr_left fun o _ => ?_
        by_cases h : o.nam = o'.nam
        · simp [h]
        · simp [h]
      exact hnames ▸ p.nodup }

def addError (p : Parser) (e : ParseError) : Parser := { p with errors := p.errors ++ [e] }

/-- `set_option(name)`. -/
def setOption (p : Parser) (name : Str) : Parser :=
  match p.find name with
  | none => p.addError (.undefinedOption name)
  | some o =>
    match o.set with
    | none => p.addError (.needsValue name)
    | some o' => p.store o'

/-- `set_option(name, value)`. -/
def setOptionTo (p : Parser) (name value : Str) : Parser :=
  match p.find name with
  | none => p.addError (.undefinedOption name)
  | some o =>
    match o.setTo value with
    | none => p.addError (.invalidValue name value)
    | some o' => p.store o'

/-! ## Reading the arguments -/

/-- The names of the short options, or the first one that is declared twice. -/
def shortNames : List OptionBase → List (Char × Str) → Except ParseError (List (Char × Str))
  | [], lookup => .ok lookup
  | o :: os, lookup =>
    if o.nam = [] then shortNames os lookup
    else match o.snam with
      | none => shortNames os lookup
      | some initial =>
        if (lookup.lookup initial).isSome then .error (.ambiguousShortOption initial)
        else shortNames os (lookup ++ [(initial, o.nam)])

/-- A short option that is not the last of its argument. -/
def setShort (lookup : List (Char × Str)) (c : Char) (p : Parser) : Parser :=
  match lookup.lookup c with
  | none => p.addError (.undefinedShort c)
  | some [] => p.addError (.ambiguousShort c)
  | some name => p.setOption name

/-- The short options of an argument up to the last one, and the last one. -/
def cluster (lookup : List (Char × Str)) (last : Char) : List Char → Parser → Parser × Char
  | [], p => (p, last)
  | c :: cs, p => cluster lookup c cs (p.setShort lookup last)

/-- The loop over the arguments. -/
def scan (lookup : List (Char × Str)) : List Str → Parser → Parser
  | [], p => p
  | ('-' :: '-' :: body) :: args, p =>
    if '=' ∈ body then
      scan lookup args
        (p.setOptionTo (body.takeWhile (· ≠ '=')) (body.dropWhile (· ≠ '=')).tail)
    else match p.find body with
      | none => scan lookup args (p.addError (.undefinedOption body))
      | some o =>
        if o.hasValue then
          match args with
          | [] => p.addError (.needsValue body)
          | val :: args => scan lookup args (p.setOptionTo body val)
        else scan lookup args (p.setOption body)
  | ['-'] :: args, p => scan lookup args p
  | ('-' :: c :: cs) :: args, p =>
    let (p, last) := p.cluster lookup c cs
    match lookup.lookup last with
    | none => scan lookup args (p.addError (.undefinedShort last))
    | some [] => scan lookup args (p.addError (.ambiguousShort last))
    | some name =>
      match args with
      | [] => p.setOption name
      | val :: args' =>
        if (p.find name).any (·.hasValue) then scan lookup args' (p.setOptionTo name val)
        else scan lookup (val :: args') (p.setOption name)
  | arg :: args, p => scan lookup args { p with others := p.others ++ [arg] }

/-- The parser when the loop is entered. -/
def started (p : Parser) (arg0 : Str) : Parser :=
  { p with
    errors := []
    others := []
    prog_name := if p.prog_name = [] then arg0 else p.prog_name }

/-- A message for every option that is needed and was not given. -/
def needed (p : Parser) : Parser :=
  { p with errors := p.errors ++ (p.options.filter (!·.valid)).map (.needOption ·.nam) }

/-- `parse(argc, argv)`. -/
def parse (p : Parser) (argv : List Str) : Bool × Parser :=
  match argv with
  | [] => (false, { p with errors := [.argumentNumber], others := [] })
  | arg0 :: args =>
    let p := p.started arg0
    match shortNames p.options [] with
    | .error e => (false, p.addError e)
    | .ok lookup =>
      let p := (p.scan lookup args).needed
      (p.errors.isEmpty, p)

/-! ## Checking -/

/-- `error`. -/
def error (p : Parser) : Str := (p.errors.head?.map (·.text)).getD []

/-- `usage`. -/
def usage (p : Parser) : Str :=
  let max_width := (p.ordered.map (·.nam.length)).foldr max 0
  "usage: ".toList ++ p.prog_name ++ " ".toList ++
    (p.ordered.filter (·.must)).flatMap (fun o => o.shortDescription ++ " ".toList) ++
    "[options] ... ".toList ++ p.ftr ++ "\noptions:\n".toList ++
    p.ordered.flatMap fun o =>
      (match o.snam with
        | some c => "  -".toList ++ c :: ", ".toList
        | none => "      ".toList) ++
      "--".toList ++ o.nam ++ List.replicate (max_width + 4 - o.nam.length) ' ' ++ o.desc ++
      "\n".toList

/-- The process exits with this code and message. -/
structure Exit where
  code : ℤ
  stderr : Str

/-- `check`. -/
def check (p : Parser) (argc : ℕ) (ok : Bool) : Except CmdlineError (Option Exit) := do
  if ← (if argc = 1 ∧ ¬ ok then pure true else p.exist "help".toList) then
    return some ⟨0, p.usage⟩
  if ¬ ok then return some ⟨1, p.error ++ "\n".toList ++ p.usage⟩
  return none

/-- `parse_check`: the process exits, or goes on with what was given. -/
def parseCheck (p : Parser) (argv : List Str) : Except CmdlineError (Except Exit Parser) := do
  let p ← if (p.find "help".toList).isSome then pure p
    else p.add "help".toList (some '?') "print this message".toList
  let (ok, p) := p.parse argv
  match ← p.check argv.length ok with
  | some e => return .error e
  | none => return .ok p

end Parser

end CameraService.Cmdline
