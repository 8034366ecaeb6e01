import CameraService.CmdlineParse
import CameraService.Config
import CameraService.Logs

/-!
# The entry of the program

`main` reads the command line and the configuration file, opens the log and starts the
server.  What `start_grpc_server` does from there is in the module of the program.

The contents of the configuration file are a parameter, and so is the configuration before
`load_config`, whose port is not initialized.  Opening the log may throw, and nothing in
`main` catches what is thrown: the process is terminated.

## Main definitions

* `declareOptions` — the options of the command line.
* `main` — what becomes of the process.
* `main_spec` — when the server is started, and with which settings, and when the process is
  terminated instead.
-/

namespace CameraService

open Cmdline Spdlog RotatingFileSink

/-! ## The options -/

/-- The options that `main` declares. -/
def declareOptions : Except CmdlineError Parser := do
  let opt ← Parser.new.addValue "conf".toList (some 'f') "config file".toList false
    "config.yaml".toList some
  let opt ← opt.addValue "log-path".toList (some 'p') "log file path".toList false "".toList some
  let opt ← opt.addValue "log-level".toList (some 'l')
    "log level [debug|info|warn|error|fatal|none]".toList false "".toList some
  let opt ← opt.add "console".toList none "log output console".toList
  opt.add "version".toList (some 'v') "display version".toList

/-- What `main` takes from the command line. -/
structure Arguments where
  loglevel : Str
  fileName : Str
  logpath : Str
  version_exist : Bool
  console_exist : Bool

def readArguments (opt : Parser) : Except CmdlineError Arguments := do
  let loglevel ← opt.get "log-level".toList
  let fileName ← opt.get "conf".toList
  let logpath ← opt.get "log-path".toList
  let version_exist ← opt.exist "version".toList
  let console_exist ← opt.exist "console".toList
  return { loglevel, fileName, logpath, version_exist, console_exist }

/-! ## The entry -/

/-- With what the server is started. -/
structure Serving where
  config : CameraServiceConfig
  logger : DefaultLogger
  level : LogLevel
  deriving DecidableEq

/-- What becomes of the process, unless something is thrown. -/
inductive MainResult
  /-- `exit` is called. -/
  | exits (e : Parser.Exit)
  /-- `main` returns before the server is started. -/
  | returns (code : ℤ)
  | serves (s : Serving)

/-- The first of two strings, unless it is empty. -/
def orElse (s t : Str) : Str := if s = [] then t else s

/-- Where the log goes, when the file was loaded. -/
def Arguments.logDirectory (a : Arguments) (config : CameraServiceConfig) : Str :=
  orElse (orElse a.logpath config.logs.base.toList) "./logs".toList

/-- What is logged, when the file was loaded. -/
def Arguments.level (a : Arguments) (config : CameraServiceConfig) : LogLevel :=
  setLogLevel (orElse a.loglevel config.logs.level.toList)

/-- `DEFAULT_LOG_NAME`. -/
def defaultLogName : Str := "camera-service.log".toList

/-- The rest of `main`, with what was given on the command line. -/
def startService (a : Arguments) (file : Str → Except YamlError Yaml)
    (config : CameraServiceConfig) : Sys MainResult :=
  if a.version_exist then pure (.returns 0)
  else if a.fileName = [] then pure (.returns (-1))
  else
    let (ret, config) := loadConfig (file a.fileName) config
    if ret ≠ 0 then pure (.returns (-1))
    else do
      let logger ← initLogs (a.logDirectory config) defaultLogName a.console_exist
      pure (.serves ⟨config, logger, a.level config⟩)

def main (argv : List Str) (file : Str → Except YamlError Yaml) (config : CameraServiceConfig) :
    Sys MainResult :=
  match declareOptions >>= fun opt => opt.parseCheck argv with
  | .error _ => pure (.returns (-1))
  | .ok (.error e) => pure (.exits e)
  | .ok (.ok opt) =>
    match readArguments opt with
    | .error _ => pure (.returns (-1))
    | .ok a => startService a file config

/-! ## What was given -/

/-- The options of the program, with that of `parse_check`. -/
def programOptions : Parser where
  ordered := [
    .withValue "conf".toList (some 'f') "config file".toList false "config.yaml".toList some,
    .withValue "log-path".toList (some 'p') "log file path".toList false "".toList some,
    .withValue "log-level".toList (some 'l')
      "log level [debug|info|warn|error|fatal|none]".toList false "".toList some,
    .withoutValue "console".toList none "log output console".toList,
    .withoutValue "version".toList (some 'v') "display version".toList,
    .withoutValue "help".toList (some '?') "print this message".toList]
  ftr := []
  prog_name := []
  others := []
  errors := []
  nodup := by decide

/-- The last value given to an option, or its default. -/
def lastGiven (n deflt : Str) (items : List Item) : Str :=
  (items.filterMap (·.valueFor n)).getLast?.getD deflt

/-- Some item gives the option. -/
def given (n : Str) (items : List Item) : Bool := items.any (·.gives n)

/-- What the items say to `main`. -/
def argumentsOf (items : List Item) : Arguments where
  loglevel := lastGiven "log-level".toList [] items
  fileName := lastGiven "conf".toList "config.yaml".toList items
  logpath := lastGiven "log-path".toList [] items
  version_exist := given "version".toList items
  console_exist := given "console".toList items

variable {argv args : List Str} {arg0 : Str} {items : List Item} {p q : Parser} {n : Str}
  {file : Str → Except YamlError Yaml} {config : CameraServiceConfig} {s : SinkState}
  {x : Serving} {a : Arguments}

theorem parseCheck_declareOptions : (declareOptions >>= fun opt => opt.parseCheck argv) = (do
    match ← (programOptions.parse argv).2.check argv.length (programOptions.parse argv).1 with
    | some e => return .error e
    | none => return .ok (programOptions.parse argv).2) := rfl

theorem find_of_ordered (h : q.ordered = p.ordered.map (·.after items)) :
    q.find n = (p.find n).map (·.after items) := by
  rw [Parser.find, h, List.find?_map]
  rfl

theorem get_of_ordered {o : OptionBase} {deflt : Str}
    (h : q.ordered = p.ordered.map (·.after items)) (ho : p.find n = some o)
    (hv : o.value = some ⟨false, some, deflt⟩) : q.get n = .ok (lastGiven n deflt items) := by
  have hn := (Parser.find_eq_some.mp ho).2
  rw [Parser.get, find_of_ordered h, ho]
  simp [OptionBase.after, hv, hn, lastGiven]

theorem exist_of_ordered {o : OptionBase} (h : q.ordered = p.ordered.map (·.after items))
    (ho : p.find n = some o) (hh : o.has = false) : q.exist n = .ok (given n items) := by
  have hn := (Parser.find_eq_some.mp ho).2
  rw [Parser.exist, find_of_ordered h, ho]
  simp [OptionBase.after, hh, hn, given]

theorem readArguments_of_ordered (h : q.ordered = programOptions.ordered.map (·.after items)) :
    readArguments q = .ok (argumentsOf items) := by
  rw [readArguments, get_of_ordered h rfl rfl, get_of_ordered h rfl rfl, get_of_ordered h rfl rfl,
    exist_of_ordered h rfl rfl, exist_of_ordered h rfl rfl]
  rfl

theorem unambiguous_programOptions : Parser.Unambiguous programOptions.declared :=
  Parser.shortNames_options.mp ⟨_, rfl⟩

/-- No option is needed. -/
theorem valid_programOptions : ∀ o ∈ programOptions.ordered, (o.after items).valid = true := by
  have hmust : ∀ o ∈ programOptions.ordered, o.must = false := by decide
  intro o ho
  have h := hmust o ho
  obtain ⟨nam, snam, desc, has, value⟩ := o
  cases value with
  | none => rfl
  | some u => simpa [OptionBase.after, OptionBase.valid, OptionBase.must] using Or.inl h

/-! ## The start of the server -/

/-- A command line that spells some items. -/
theorem main_of_spells (hs : Spells programOptions.declared args items) :
    main (arg0 :: args) file config =
      if given "help".toList items then
        pure (.exits ⟨0, (programOptions.parse (arg0 :: args)).2.usage⟩)
      else startService (argumentsOf items) file config := by
  obtain ⟨haccept, hordered, -⟩ :=
    Parser.parse_of_spells arg0 unambiguous_programOptions hs
  have hok := haccept.mpr valid_programOptions
  have hhelp := exist_of_ordered (n := "help".toList) hordered rfl rfl
  have hchecked : (declareOptions >>= fun opt => opt.parseCheck (arg0 :: args)) =
      .ok (if given "help".toList items then
        .error ⟨0, (programOptions.parse (arg0 :: args)).2.usage⟩
      else .ok (programOptions.parse (arg0 :: args)).2) := by
    rw [parseCheck_declareOptions, hok, Parser.check_accepted hhelp]
    cases given "help".toList items <;> rfl
  rw [main, hchecked]
  cases given "help".toList items with
  | true => rfl
  | false =>
      change (match readArguments (programOptions.parse (arg0 :: args)).2 with
        | .error _ => pure (MainResult.returns (-1))
        | .ok a => startService a file config) = _
      rw [readArguments_of_ordered hordered]
      rfl

/-- Any other command line. -/
theorem main_of_not_spells (hs : ¬ ∃ items, Spells programOptions.declared args items) :
    ∃ e, main (arg0 :: args) file config = pure (.exits e) := by
  have hok : (programOptions.parse (arg0 :: args)).1 = false := by
    by_contra h
    rw [Bool.not_eq_false] at h
    obtain ⟨-, items, hitems, -⟩ := (Parser.parse_spec _ _ _).1.mp h
    exact hs ⟨items, hitems⟩
  have hdeclared : ∃ d ∈ programOptions.declared, d.nam = "help".toList :=
    List.mem_map.mp (by decide)
  rw [← Parser.declared_parse] at hdeclared
  obtain ⟨help, hhelp⟩ := Parser.exists_exist hdeclared
  rw [main, parseCheck_declareOptions, hok, Parser.check_refused hhelp]
  exact ⟨_, rfl⟩

/-- The arguments and the file make `main` open the log, with this configuration. -/
def Arguments.Opening (a : Arguments) (file : Str → Except YamlError Yaml)
    (config loaded : CameraServiceConfig) : Prop :=
  a.version_exist = false ∧ a.fileName ≠ [] ∧ loadConfig (file a.fileName) config = (0, loaded)

/-- What `startService` comes to besides a return is what comes after `load_config`. -/
theorem startService_eq_iff {r : Except (List Char) MainResult}
    (hr : ∀ code, r ≠ .ok (.returns code)) :
    (exec (startService a file config) s).1 = r ↔ ∃ loaded, a.Opening file config loaded ∧
      (exec (initLogs (a.logDirectory loaded) defaultLogName a.console_exist) s).1.map
        (fun logger => MainResult.serves ⟨loaded, logger, a.level loaded⟩) = r := by
  rcases hload : loadConfig (file a.fileName) config with ⟨ret, loaded⟩
  rw [startService, hload]
  dsimp only
  by_cases hv : a.version_exist = true
  · simp [Arguments.Opening, hv, (hr 0).symm]
  by_cases hf : a.fileName = []
  · simp [Arguments.Opening, hv, hf, (hr _).symm]
  by_cases hret : ret = 0
  swap
  · simp [Arguments.Opening, hv, hf, hret, hload, (hr _).symm]
  subst hret
  have hwith : ∀ loaded', a.Opening file config loaded' ↔ loaded = loaded' := by
    simp [Arguments.Opening, hv, hf, hload]
  rw [if_neg hv, if_neg hf, if_neg (by simp), exec_bind]
  simp only [hwith, exists_eq_left']
  obtain ⟨r', s'⟩ := exec (initLogs (a.logDirectory loaded) defaultLogName a.console_exist) s
  cases r' with
  | _ => rfl

theorem startService_serves_iff : (exec (startService a file config) s).1 = .ok (.serves x) ↔
    ∃ loaded, a.Opening file config loaded ∧
      ∃ logger, LogsTo (a.logDirectory loaded) defaultLogName a.console_exist s logger ∧
        x = ⟨loaded, logger, a.level loaded⟩ := by
  rw [startService_eq_iff (by simp)]
  refine exists_congr fun loaded => and_congr_right fun _ => ?_
  simp only [← initLogs_ok_iff]
  cases (exec (initLogs (a.logDirectory loaded) defaultLogName a.console_exist) s).1 with
  | ok logger => simp [Except.map, eq_comm]
  | error e => simp [Except.map]

/-- What is thrown is thrown by `init_logs`. -/
theorem startService_throws_iff : (∃ e, (exec (startService a file config) s).1 = .error e) ↔
    ∃ loaded, a.Opening file config loaded ∧
      ¬ ∃ logger, LogsTo (a.logDirectory loaded) defaultLogName a.console_exist s logger := by
  constructor
  · intro h
    obtain ⟨e, h⟩ := h
    obtain ⟨loaded, hopen, h⟩ := (startService_eq_iff (by simp)).mp h
    refine ⟨loaded, hopen, fun hlogs => ?_⟩
    obtain ⟨logger, hlogs⟩ := hlogs
    rw [initLogs_ok_iff.mpr hlogs] at h
    cases h
  · intro h
    obtain ⟨loaded, hopen, hno⟩ := h
    rcases exec_initLogs (s := s) (a.logDirectory loaded) defaultLogName a.console_exist with
      ⟨logger, s', hlogs, -⟩ | ⟨-, e, s', he⟩
    · exact absurd ⟨logger, hlogs⟩ hno
    · refine ⟨e, (startService_eq_iff (by simp)).mpr ⟨loaded, hopen, ?_⟩⟩
      exact congrArg (fun r => Except.map _ r.1) he

/-- What `main` comes to besides `exit` is what comes after the command line. -/
theorem main_eq_iff {r : Except (List Char) MainResult} (hr : ∀ e, r ≠ .ok (.exits e)) :
    (exec (main (arg0 :: args) file config) s).1 = r ↔ ∃ items,
      Spells programOptions.declared args items ∧ given "help".toList items = false ∧
        (exec (startService (argumentsOf items) file config) s).1 = r := by
  constructor
  · intro h
    by_cases hs : ∃ items, Spells programOptions.declared args items
    · obtain ⟨items, hs⟩ := hs
      rw [main_of_spells hs] at h
      cases hhelp : given "help".toList items with
      | true =>
          rw [hhelp, if_pos rfl] at h
          exact absurd h.symm (hr _)
      | false =>
          rw [hhelp, if_neg (by simp)] at h
          exact ⟨items, hs, hhelp, h⟩
    · obtain ⟨e, he⟩ := main_of_not_spells hs
      rw [he] at h
      exact absurd h.symm (hr e)
  · intro h
    obtain ⟨items, hs, hhelp, h⟩ := h
    rwa [main_of_spells hs, hhelp, if_neg (by simp)]

/-- **The server is started** when the command line spells items that ask for neither help nor
the version and name a file, the file can be loaded, and the system lets `init_logs` leave a
logger.  What the command line gives goes before what the file gives, and that before the
defaults.  Where the system lets `init_logs` leave no logger, the process is terminated. -/
theorem main_spec (arg0 : Str) (args : List Str) (file : Str → Except YamlError Yaml)
    (config : CameraServiceConfig) (s : SinkState) :
    (∀ x, (exec (main (arg0 :: args) file config) s).1 = .ok (.serves x) ↔ ∃ items,
      Spells programOptions.declared args items ∧ given "help".toList items = false ∧
        ∃ loaded, (argumentsOf items).Opening file config loaded ∧
          ∃ logger, LogsTo ((argumentsOf items).logDirectory loaded) defaultLogName
            (argumentsOf items).console_exist s logger ∧
              x = ⟨loaded, logger, (argumentsOf items).level loaded⟩) ∧
      ((∃ e, (exec (main (arg0 :: args) file config) s).1 = .error e) ↔ ∃ items,
        Spells programOptions.declared args items ∧ given "help".toList items = false ∧
          ∃ loaded, (argumentsOf items).Opening file config loaded ∧
            ¬ ∃ logger, LogsTo ((argumentsOf items).logDirectory loaded) defaultLogName
              (argumentsOf items).console_exist s logger) := by
  constructor
  · intro x
    rw [main_eq_iff (by simp)]
    simp only [startService_serves_iff]
  · simp only [main_eq_iff (r := .error _) (by simp), ← startService_throws_iff]
    rw [exists_comm]
    simp only [exists_and_left]

end CameraService
