import CameraService.Lib.Stores
import Mathlib.Algebra.Order.Ring.Int
import Mathlib.Data.List.ReduceOption

/-!
# The configuration file

`load_config` stores the defaults, and then overwrites what it finds in the file, a key at a
time.  `yaml-cpp` throws when a scalar is subscripted and when a value has the wrong type, and
`load_config` catches it and returns -1.

## Main definitions

* `Yaml` — what `YAML::LoadFile` returns, with `subscript`, `asString` and `asInt`.
* `loadConfig` — the defaults and the three readers.
* `Setting` — the four keys that are read, with `Setting.fetch`.
* `readConfig_stores` — the readers store the settings, and stop at the first that throws.
* `Reflects`, `loadConfig_settles` — what the configuration is afterwards.
-/

namespace CameraService

open Stores

/-! ## Nodes -/

/-- A node of a document. -/
inductive Yaml
  | null
  | scalar (text : String)
  | sequence (items : List Yaml)
  | map (pairs : List (Yaml × Yaml))

/-- What `yaml-cpp` throws. -/
inductive YamlError
  /-- The file cannot be read or parsed. -/
  | badFile
  | badSubscript (key : String)
  | badConversion

namespace Yaml

/-- `node::equals` for a string. -/
def equals (n : Yaml) (rhs : String) : Bool :=
  match n with
  | scalar text => text == rhs
  | _ => false

/-- `node_data::get`.  A node that is not there is undefined, which is `false` in a
condition.  The `operator[]` of a node that is not `const` also inserts it, under a key that is
not looked up again. -/
def subscript (n : Yaml) (key : String) : Except YamlError (Option Yaml) :=
  match n with
  | map pairs => .ok ((pairs.find? fun m => m.1.equals key).map Prod.snd)
  | scalar _ => .error (.badSubscript key)
  | null => .ok none
  | sequence _ => .ok none

/-- `as<std::string>`. -/
def asString : Yaml → Except YamlError String
  | null => .ok "null"
  | scalar text => .ok text
  | _ => .error .badConversion

end Yaml

/-- `std::ws` in the C locale. -/
def isSpace (c : Char) : Bool := c.toNat == 32 || (9 ≤ c.toNat && c.toNat ≤ 13)

/-- The value of a digit. -/
def digitValue (base : ℕ) (c : Char) : Option ℕ :=
  let d :=
    if 48 ≤ c.toNat ∧ c.toNat ≤ 57 then c.toNat - 48
    else if 97 ≤ c.toNat ∧ c.toNat ≤ 102 then c.toNat - 87
    else if 65 ≤ c.toNat ∧ c.toNat ≤ 70 then c.toNat - 55
    else 16
  if d < base then some d else none

/-- The sign of a number, and what follows it. -/
def takeSign : List Char → Bool × List Char
  | '-' :: rest => (true, rest)
  | '+' :: rest => (false, rest)
  | rest => (false, rest)

/-- The base of a number, and its digits.  No base is set on the stream. -/
def takeBase : List Char → ℕ × List Char
  | '0' :: 'x' :: rest => (16, rest)
  | '0' :: 'X' :: rest => (16, rest)
  | '0' :: rest => (8, '0' :: rest)
  | rest => (10, rest)

/-- `ConvertStreamTo` for an `int`: the number, and blanks up to the end. -/
def streamInt (input : String) : Option ℤ :=
  let (negative, rest) := takeSign input.toList
  let (base, rest) := takeBase rest
  let digits := ((rest.map (digitValue base)).takeWhile Option.isSome).reduceOption
  let n := digits.foldl (fun n d => n * base + d) 0
  let rhs : ℤ := if negative then -n else n
  if digits ≠ [] ∧ (rest.drop digits.length).all isSpace ∧ -2147483648 ≤ rhs ∧ rhs ≤ 2147483647
  then some rhs
  else none

/-- `as<int>`. -/
def Yaml.asInt : Yaml → Except YamlError ℤ
  | .scalar text =>
    match streamInt text with
    | some rhs => .ok rhs
    | none => .error .badConversion
  | _ => .error .badConversion

/-! ## The configuration -/

structure LogConfig where
  base : String
  level : String
  deriving DecidableEq

structure GrpcService where
  host : String
  port : ℤ
  deriving DecidableEq

structure CameraProviderConfig where
  deriving DecidableEq

structure CameraServiceConfig where
  service : GrpcService
  logs : LogConfig
  provider_config : CameraProviderConfig
  deriving DecidableEq

/-- `load_default_config`. -/
def loadDefaultConfig (config : CameraServiceConfig) : CameraServiceConfig :=
  { config with
    logs := { config.logs with base := "./logs", level := "error" }
    service := { config.service with port := 45575, host := "localhost" } }

/-! ## The readers -/

/-- One key of a section: `if (node) config->key = node.as<T>()`. -/
def readKey {α σ : Type} (data : Yaml) (key : String) (as : Yaml → Except YamlError α)
    (put : α → σ → σ) : EStateM YamlError σ PUnit := do
  match ← ofExcept (data.subscript key) with
  | some node =>
      let v ← ofExcept (as node)
      modify (put v)
  | none => pure ()

/-- `read_provider_config`: the port is looked up, and not used. -/
def readProviderConfig (data : Option Yaml) : EStateM YamlError CameraProviderConfig ℤ := do
  match data with
  | some data =>
      let _port ← ofExcept (data.subscript "port")
      return 0
  | none => return 0

/-- `read_service_config`. -/
def readServiceConfig (data : Option Yaml) : EStateM YamlError GrpcService ℤ := do
  match data with
  | some data =>
      readKey data "port" Yaml.asInt fun port config => { config with port }
      readKey data "host" Yaml.asString fun host config => { config with host }
      return 0
  | none => return 0

/-- `read_logs_config`. -/
def readLogsConfig (data : Option Yaml) : EStateM YamlError LogConfig ℤ := do
  match data with
  | some data =>
      readKey data "base" Yaml.asString fun base config => { config with base }
      readKey data "level" Yaml.asString fun level config => { config with level }
      return 0
  | none => return 0

/-- The `try` block of `load_config`.  The readers get pointers into the configuration. -/
def readConfig (file : Except YamlError Yaml) : EStateM YamlError CameraServiceConfig ℤ := do
  let data ← ofExcept file
  match ← ofExcept (data.subscript "camera-service") with
  | some camera_service =>
      let _ ← onField CameraServiceConfig.provider_config
        (fun provider_config config => { config with provider_config })
        (readProviderConfig (← ofExcept (camera_service.subscript "provider")))
      let _ ← onField CameraServiceConfig.logs (fun logs config => { config with logs })
        (readLogsConfig (← ofExcept (camera_service.subscript "logs")))
      let _ ← onField CameraServiceConfig.service (fun service config => { config with service })
        (readServiceConfig (← ofExcept (camera_service.subscript "service")))
      return 0
  | none => return 0

/-- `load_config` of a file that `YAML::LoadFile` reads as `file`. -/
def loadConfig (file : Except YamlError Yaml) (config : CameraServiceConfig) :
    ℤ × CameraServiceConfig :=
  match (readConfig file).run (loadDefaultConfig config) with
  | .ok ret config => (ret, config)
  | .error _ config => (-1, config)

/-! ## Settings -/

/-- The value of a setting. -/
inductive Value
  | text (s : String)
  | number (n : ℤ)
  deriving DecidableEq

/-- The keys of the file that end up in the configuration. -/
inductive Setting
  | base
  | level
  | port
  | host
  deriving DecidableEq

namespace Setting

/-- The section of a setting. -/
def part : Setting → String
  | base => "logs"
  | level => "logs"
  | port => "service"
  | host => "service"

/-- Its key in the section. -/
def key : Setting → String
  | base => "base"
  | level => "level"
  | port => "port"
  | host => "host"

/-- Its default. -/
def initial : Setting → Value
  | base => .text "./logs"
  | level => .text "error"
  | port => .number 45575
  | host => .text "localhost"

/-- The value that a node stands for. -/
def convert : Setting → Yaml → Except YamlError Value
  | port, n => Value.number <$> n.asInt
  | _, n => Value.text <$> n.asString

/-- The value of a setting in a configuration. -/
def get (config : CameraServiceConfig) : Setting → Value
  | base => .text config.logs.base
  | level => .text config.logs.level
  | port => .number config.service.port
  | host => .text config.service.host

/-- The order in which they are read. -/
def order : List Setting := [base, level, port, host]

theorem mem_order (k : Setting) : k ∈ order := by cases k <;> decide

theorem get_loadDefaultConfig (config : CameraServiceConfig) :
    get (loadDefaultConfig config) = initial := by
  funext k
  cases k <;> rfl

end Setting

/-- The node under a key of a map. -/
def Yaml.under (n : Yaml) (key : String) : Option Yaml :=
  match n with
  | .map pairs => (pairs.find? fun m => m.1.equals key).map Prod.snd
  | _ => none

/-- The node of a setting, when it is present. -/
def Setting.node (k : Setting) (doc : Yaml) : Option Yaml := do
  let camera_service ← doc.under "camera-service"
  let part ← camera_service.under k.part
  part.under k.key

/-- **The configuration has what the file has** for a setting, or the default. -/
def Reflects (file : Except YamlError Yaml) (config : CameraServiceConfig) (k : Setting) : Prop :=
  ∃ doc, file = .ok doc ∧
    match k.node doc with
    | some n => k.convert n = .ok (k.get config)
    | none => k.get config = k.initial

/-! ## Fetching a setting -/

/-- The section `camera-service`, after the provider's port has been looked up. -/
def Yaml.opened (doc : Yaml) : Except YamlError (Option Yaml) := do
  match ← doc.subscript "camera-service" with
  | some camera_service =>
      match ← camera_service.subscript "provider" with
      | some provider =>
          let _port ← provider.subscript "port"
          return some camera_service
      | none => return some camera_service
  | none => return none

/-- The value of a setting in its section. -/
def Setting.fetchIn (k : Setting) (data : Option Yaml) : Except YamlError (Option Value) := do
  match data with
  | some data =>
      match ← data.subscript k.key with
      | some n => return some (← k.convert n)
      | none => return none
  | none => return none

/-- The value of a setting in the file. -/
def Setting.fetch (file : Except YamlError Yaml) (k : Setting) :
    Except YamlError (Option Value) := do
  match ← (← file).opened with
  | some camera_service => k.fetchIn (← camera_service.subscript k.part)
  | none => return none

/-! ## The readers store the settings -/

section Readers
variable {α σ : Type} {data : Yaml} {k : Setting}

theorem fetchIn_error {e : YamlError} (h : data.subscript k.key = .error e) :
    k.fetchIn (some data) = .error e := by
  rw [Setting.fetchIn, h]
  rfl

theorem fetchIn_none (h : data.subscript k.key = .ok none) : k.fetchIn (some data) = .ok none := by
  rw [Setting.fetchIn, h]
  rfl

theorem fetchIn_some {n : Yaml} (h : data.subscript k.key = .ok (some n)) :
    k.fetchIn (some data) = some <$> k.convert n := by
  rw [Setting.fetchIn, h]
  rfl

/-- **A key is read** as its setting is stored. -/
theorem readKey_simulates {f : σ → Setting → Value} {as : Yaml → Except YamlError α}
    {put : α → σ → σ} {wrap : α → Value} (hconvert : ∀ n, k.convert n = wrap <$> as n)
    (hput : ∀ v s, f (put v s) = Function.update (f s) k (wrap v)) :
    Simulates f (readKey data k.key as put) (store (fun k => k.fetchIn (some data)) k) := by
  intro s
  cases hsub : data.subscript k.key with
  | error e =>
      rw [readKey, store, hsub, fetchIn_error hsub]
      rfl
  | ok found =>
      cases found with
      | none =>
          rw [readKey, store, hsub, fetchIn_none hsub]
          rfl
      | some n =>
          rw [readKey, store, hsub, fetchIn_some hsub, hconvert]
          cases has : as n with
          | error e =>
              show mapState f ((ofExcept (as n) >>= fun v => modify (put v) :
                EStateM YamlError σ PUnit).run s) = _
              rw [has]
              rfl
          | ok v =>
              show mapState f ((ofExcept (as n) >>= fun v => modify (put v) :
                EStateM YamlError σ PUnit).run s) = _
              rw [has]
              show EStateM.Result.ok PUnit.unit (f (put v s)) = _
              rw [hput]
              rfl

end Readers

/-- `read_logs_config` stores the settings of its section. -/
theorem readLogsConfig_simulates (data : Option Yaml) (config : CameraServiceConfig) :
    Simulates (fun logs => Setting.get { config with logs }) (readLogsConfig data) (do
      storeAll (fun k => k.fetchIn data) [.base, .level]
      return 0) := by
  cases data with
  | none => exact fun _ => rfl
  | some data =>
      simp only [storeAll, bind_assoc, pure_bind]
      refine .bind (readKey_simulates (k := .base) (fun _ => rfl) ?_) fun _ =>
        .bind (readKey_simulates (k := .level) (fun _ => rfl) ?_) fun _ => .pure 0
      all_goals
        intro v logs
        funext k
        cases k <;> rfl

/-- `read_service_config` stores the settings of its section. -/
theorem readServiceConfig_simulates (data : Option Yaml) (config : CameraServiceConfig) :
    Simulates (fun service => Setting.get { config with service }) (readServiceConfig data) (do
      storeAll (fun k => k.fetchIn data) [.port, .host]
      return 0) := by
  cases data with
  | none => exact fun _ => rfl
  | some data =>
      simp only [storeAll, bind_assoc, pure_bind]
      refine .bind (readKey_simulates (k := .port) (fun _ => rfl) ?_) fun _ =>
        .bind (readKey_simulates (k := .host) (fun _ => rfl) ?_) fun _ => .pure 0
      all_goals
        intro v service
        funext k
        cases k <;> rfl

/-- A reader stores the settings of the section that it is given. -/
theorem section_simulates {σ : Type} {get : CameraServiceConfig → σ}
    {set : σ → CameraServiceConfig → CameraServiceConfig}
    {reader : Option Yaml → EStateM YamlError σ ℤ} {camera_service : Yaml} {part : String}
    {fetch : Setting → Except YamlError (Option Value)} {k : Setting} {ks : List Setting}
    (hset : ∀ config, set (get config) config = config)
    (hreader : ∀ data config, Simulates (fun t => Setting.get (set t config)) (reader data) (do
      storeAll (fun k => k.fetchIn data) (k :: ks)
      return 0))
    (hfetch : ∀ j ∈ k :: ks, fetch j = camera_service.subscript part >>= j.fetchIn) :
    Simulates Setting.get (do
      let data ← ofExcept (camera_service.subscript part)
      onField get set (reader data)) (do
      storeAll fetch (k :: ks)
      return 0) := by
  cases hpart : camera_service.subscript part with
  | error e =>
      have hk : fetch k = .error e := by
        rw [hfetch k List.mem_cons_self, hpart]
        rfl
      rw [storeAll_cons_error hk]
      exact fun _ => rfl
  | ok data =>
      have hdata : ∀ j ∈ k :: ks, fetch j = j.fetchIn data := by
        intro j hj
        rw [hfetch j hj, hpart]
        rfl
      rw [storeAll_congr hdata]
      exact .onField hset (hreader data)

/-- Up to the two sections that are stored, only the lookups matter. -/
theorem readConfig_eq (file : Except YamlError Yaml) : readConfig file = (do
    match ← ofExcept (file >>= Yaml.opened) with
    | some camera_service =>
        let _ ← (do
          let data ← ofExcept (camera_service.subscript "logs")
          onField CameraServiceConfig.logs (fun logs config => { config with logs })
            (readLogsConfig data))
        let _ ← (do
          let data ← ofExcept (camera_service.subscript "service")
          onField CameraServiceConfig.service (fun service config => { config with service })
            (readServiceConfig data))
        return 0
    | none => return 0) := by
  rw [readConfig, ofExcept_bind, bind_assoc]
  congr 1
  funext doc
  rw [Yaml.opened, ofExcept_bind, bind_assoc]
  congr 1
  funext found
  cases found with
  | none => rfl
  | some camera_service =>
      simp only [bind_assoc]
      rw [ofExcept_bind, bind_assoc]
      congr 1
      funext provider
      cases provider with
      | none => rfl
      | some provider =>
          rw [ofExcept_bind, bind_assoc, readProviderConfig]
          cases provider.subscript "port" <;> rfl

theorem fetch_eq (file : Except YamlError Yaml) (k : Setting) : k.fetch file = (do
    match ← file >>= Yaml.opened with
    | some camera_service => k.fetchIn (← camera_service.subscript k.part)
    | none => return none) := by
  cases file <;> rfl

/-- **The `try` block stores the settings** in their order, and stops at the first that cannot be
fetched. -/
theorem readConfig_stores (file : Except YamlError Yaml) :
    Simulates Setting.get (readConfig file) (do
      storeAll (Setting.fetch file) Setting.order
      return 0) := by
  rw [readConfig_eq]
  cases hopened : file >>= Yaml.opened with
  | error e =>
      have hfetch : Setting.fetch file .base = .error e := by
        rw [fetch_eq, hopened]
        rfl
      rw [Setting.order, storeAll_cons_error hfetch]
      exact fun _ => rfl
  | ok found =>
      cases found with
      | none =>
          have hfetch : ∀ k ∈ Setting.order, Setting.fetch file k = .ok none := by
            intro k _
            rw [fetch_eq, hopened]
            rfl
          rw [storeAll_congr hfetch]
          exact fun _ => rfl
      | some camera_service =>
          have hfetch : ∀ k, Setting.fetch file k =
              camera_service.subscript k.part >>= k.fetchIn := by
            intro k
            rw [fetch_eq, hopened]
            rfl
          have hsplit : (do
              storeAll (Setting.fetch file) Setting.order
              return 0 : EStateM YamlError (Setting → Value) ℤ) = (do
              let _ ← (do
                storeAll (Setting.fetch file) [.base, .level]
                return (0 : ℤ))
              let _ ← (do
                storeAll (Setting.fetch file) [.port, .host]
                return (0 : ℤ))
              return 0) := by
            rw [show Setting.order = [.base, .level] ++ [.port, .host] from rfl, storeAll_append]
            simp only [bind_assoc, pure_bind]
          rw [hsplit]
          refine .bind (section_simulates (fun _ => rfl) readLogsConfig_simulates ?_) fun _ =>
            .bind (section_simulates (fun _ => rfl) readServiceConfig_simulates ?_) fun _ => .pure 0
          all_goals
            intro j hj
            rw [hfetch j]
            simp only [List.mem_cons, List.not_mem_nil, or_false] at hj
            rcases hj with rfl | rfl <;> rfl

/-! ## After the readers -/

/-- What is found is the node under the key. -/
theorem under_of_subscript {n : Yaml} {key : String} {found : Option Yaml}
    (h : n.subscript key = .ok found) : n.under key = found := by
  cases n with
  | scalar text => cases h
  | map pairs => exact Except.ok.inj h
  | null => exact Except.ok.inj h
  | sequence items => exact Except.ok.inj h

/-- The provider's section is not returned. -/
theorem subscript_of_opened {doc : Yaml} {found : Option Yaml} (h : doc.opened = .ok found) :
    doc.subscript "camera-service" = .ok found := by
  rw [Yaml.opened] at h
  obtain ⟨root, hroot, h⟩ := bind_eq_ok.mp h
  cases root with
  | none => exact hroot.trans h
  | some camera_service =>
      obtain ⟨provider, -, h⟩ := bind_eq_ok.mp h
      cases provider with
      | none => exact hroot.trans h
      | some provider =>
          obtain ⟨port, -, h⟩ := bind_eq_ok.mp h
          exact hroot.trans h

/-- What is fetched in a section is the value of the node. -/
theorem node_of_fetchIn {data : Option Yaml} {k : Setting} {o : Option Value}
    (h : k.fetchIn data = .ok o) :
    match data >>= fun part => part.under k.key with
    | some n => ∃ v, k.convert n = .ok v ∧ o = some v
    | none => o = none := by
  cases data with
  | none => exact (Except.ok.inj h).symm
  | some data =>
      rw [Setting.fetchIn] at h
      obtain ⟨found, hkey, h⟩ := bind_eq_ok.mp h
      show match data.under k.key with
        | some n => ∃ v, k.convert n = .ok v ∧ o = some v
        | none => o = none
      rw [under_of_subscript hkey]
      cases found with
      | none => exact (Except.ok.inj h).symm
      | some n =>
          obtain ⟨v, hconvert, h⟩ := bind_eq_ok.mp h
          exact ⟨v, hconvert, (Except.ok.inj h).symm⟩

/-- **A setting that is fetched** is the one of the file, or absent. -/
theorem node_of_fetch {doc : Yaml} {k : Setting} {o : Option Value}
    (h : k.fetch (.ok doc) = .ok o) :
    match k.node doc with
    | some n => ∃ v, k.convert n = .ok v ∧ o = some v
    | none => o = none := by
  rw [fetch_eq] at h
  obtain ⟨found, hopened, h⟩ := bind_eq_ok.mp h
  rw [Setting.node, under_of_subscript (subscript_of_opened hopened)]
  cases found with
  | none => exact (Except.ok.inj h).symm
  | some camera_service =>
      obtain ⟨data, hpart, h⟩ := bind_eq_ok.mp h
      have hnode := node_of_fetchIn h
      rw [← under_of_subscript hpart] at hnode
      exact hnode

/-- The settings that are reached are those of the file. -/
theorem reflects_of_mem {file : Except YamlError Yaml} {config : CameraServiceConfig} {k : Setting}
    (hget : Setting.get config = settled (Setting.fetch file) Setting.order Setting.initial)
    (hk : k ∈ reached (Setting.fetch file) Setting.order) : Reflects file config k := by
  obtain ⟨o, hfetch, hvalue⟩ := settled_of_mem (s := Setting.initial) hk
  rw [← hget] at hvalue
  cases file with
  | error e => cases hfetch
  | ok doc =>
      refine ⟨doc, rfl, ?_⟩
      have hnode := node_of_fetch hfetch
      cases hdoc : k.node doc with
      | none =>
          rw [hdoc] at hnode
          rw [hvalue, hnode]
          rfl
      | some n =>
          rw [hdoc] at hnode
          obtain ⟨v, hconvert, rfl⟩ := hnode
          rw [hvalue]
          exact hconvert

/-- What is left in the configuration, and what is returned. -/
theorem loadConfig_settled (file : Except YamlError Yaml) (config : CameraServiceConfig) :
    Setting.get (loadConfig file config).2 =
      settled (Setting.fetch file) Setting.order Setting.initial ∧
    ((loadConfig file config).1 = 0 ∧ reached (Setting.fetch file) Setting.order = Setting.order ∨
    (loadConfig file config).1 = -1 ∧ ∃ k : Setting, ∃ e, k.fetch file = .error e) := by
  have hsim := readConfig_stores file (loadDefaultConfig config)
  rw [Setting.get_loadDefaultConfig, EStateM.run_bind] at hsim
  rw [loadConfig]
  rcases storeAll_run (Setting.fetch file) Setting.order Setting.initial with
    ⟨hall, hrun⟩ | ⟨k, -, e, hk, hrun⟩
  · rw [hrun] at hsim
    cases hread : (readConfig file).run (loadDefaultConfig config) with
    | ok ret config' =>
        rw [hread] at hsim
        obtain ⟨hret, hstate⟩ := EStateM.Result.ok.inj hsim
        exact ⟨hstate, .inl ⟨hret, hall⟩⟩
    | error e config' =>
        rw [hread] at hsim
        cases hsim
  · rw [hrun] at hsim
    cases hread : (readConfig file).run (loadDefaultConfig config) with
    | ok ret config' =>
        rw [hread] at hsim
        cases hsim
    | error e' config' =>
        rw [hread] at hsim
        obtain ⟨-, hstate⟩ := EStateM.Result.error.inj hsim
        exact ⟨hstate, .inr ⟨rfl, k, e, hk⟩⟩

/-- **After `load_config`** every setting is the one of the file, and it returns 0.  Or something
throws: then it returns -1, the settings before it are those of the file, and the others are the
defaults. -/
theorem loadConfig_settles (file : Except YamlError Yaml) (config : CameraServiceConfig) :
    ((loadConfig file config).1 = 0 ∧ ∀ k, Reflects file (loadConfig file config).2 k) ∨
    ((loadConfig file config).1 = -1 ∧ (∃ k : Setting, ∃ e, k.fetch file = .error e) ∧
      (∀ k ∈ reached (Setting.fetch file) Setting.order,
        Reflects file (loadConfig file config).2 k) ∧
      ∀ k ∉ reached (Setting.fetch file) Setting.order,
        k.get (loadConfig file config).2 = k.initial) := by
  obtain ⟨hget, ⟨hret, hall⟩ | ⟨hret, hthrow⟩⟩ := loadConfig_settled file config
  · refine .inl ⟨hret, fun k => reflects_of_mem hget ?_⟩
    rw [hall]
    exact k.mem_order
  · refine .inr ⟨hret, hthrow, fun k hk => reflects_of_mem hget hk, fun k hk => ?_⟩
    rw [hget, settled_of_notMem hk]

/-- The file is accepted as a whole, or not at all. -/
def AllOrNothing (file : Except YamlError Yaml) (r : ℤ × CameraServiceConfig) : Prop :=
  (r.1 = 0 ∧ ∀ k, Reflects file r.2 k) ∨ (r.1 = -1 ∧ ∀ k : Setting, k.get r.2 = k.initial)

/-- A file with a directory for the logs, and a port that is no number. -/
def badPort : Yaml :=
  .map [(.scalar "camera-service", .map [
    (.scalar "logs", .map [(.scalar "base", .scalar "/var/log")]),
    (.scalar "service", .map [(.scalar "port", .scalar "abc")])])]

/-- The directory stays although the file is rejected. -/
theorem not_allOrNothing :
    ¬ AllOrNothing (.ok badPort) (loadConfig (.ok badPort) ⟨⟨"", 0⟩, ⟨"", ""⟩, ⟨⟩⟩) := by
  rintro (⟨hret, -⟩ | ⟨-, hinitial⟩)
  · exact absurd hret (by decide)
  · exact absurd (hinitial .base) (by decide)

end CameraService
