import Mathlib.Data.List.Basic
import RExecOp.Redaction
import RExecOp.TargetLock
import RExecOp.Value

/-! Allowlisted commands (`connectors/command_shape.py`), their execution specs
(`execution/typed_spec.py`) and the connectors that run them (`connectors/local_shell.py`,
`connectors/ssh_readonly.py`). -/

namespace RExecOp.Commands

open Redaction (Registry TextPattern redactText redactEntries registerSecretValue)

/-- What the language does with texts and numbers; its floats are `F`. -/
structure Language (F : Type) where
  /-- `str` of a value that is not a text -/
  text : Value → String
  lower : String → String
  float : Value → Option F
  int : Value → Option Int
  lower_empty : lower "" = ""

/-- `RExecOpValidationError`, `ValueError` and what neither handler catches. -/
inductive Raised where
  | validation (message : String)
  | value (message : String)
  | other (message : String)
  deriving DecidableEq

def ensure (condition : Prop) [Decidable condition] (error : Raised) : Except Raised Unit :=
  if condition then .ok () else .error error

def orRaise {α : Type} (value : Option α) (error : Raised) : Except Raised α :=
  match value with
  | some result => .ok result
  | none => .error error

def asList : Value → Option (List Value)
  | .list items => some items
  | _ => none

section Shape

variable {F : Type} (language : Language F)

def str : Value → String := TargetLock.str language.text

def normalizeTool (tool : String) : String := language.lower (strip tool)

def pathName (tool : String) : String :=
  let parts := (tool.toList.splitOn '/').map String.ofList
  ((parts.filter fun part => part != "" && part != ".").getLast?).getD ""

def firstPositionalWithIndex (tokens : List String) : Int × String :=
  match tokens.findIdx? fun token => token != "" && !("-".toList.isPrefixOf token.toList) with
  | some index => (index, tokens.getD index "")
  | none => (-1, "")

def firstPositional (tokens : List String) : String := (firstPositionalWithIndex tokens).2

def systemctlActions : List String := ["start", "stop", "restart", "reload", "enable", "disable"]

def serviceActions : List String := ["start", "stop", "restart", "reload"]

def dockerActions : List String :=
  ["exec", "restart", "start", "stop", "kill", "rm", "run", "update"]

def composeActions : List String := ["up", "down", "restart"]

def restrictedPattern (tool : String) (args : List String) : Option String :=
  let name := pathName (normalizeTool language tool)
  let tokens := args.map (normalizeTool language)
  let action := firstPositional tokens
  let composeAction := firstPositional
    (tokens.drop ((firstPositionalWithIndex tokens).1 + 1).toNat)
  if name = "sudo" ∨ "sudo" ∈ tokens then some "sudo"
  else if name ∈ ["bash", "dash", "sh", "zsh"] ∧ ("-c" ∈ tokens ∨ "--command" ∈ tokens) then
    some "shell_command"
  else if name = "systemctl" ∧ action ∈ systemctlActions then some ("systemctl_" ++ action)
  else if name = "service" ∧ ∃ token ∈ tokens, token ∈ serviceActions then
    some "service_mutation"
  else if name = "docker" ∧ action ∈ dockerActions then some ("docker_" ++ action)
  else if name = "docker" ∧ action = "compose" ∧ composeAction ∈ composeActions then
    some ("docker_compose_" ++ composeAction)
  else if name = "docker-compose" ∧ action ∈ composeActions then
    some ("docker_compose_" ++ action)
  else none

def normalizeAllowlistedArgv (tool : String) (args : List Value) (allowedTools : List String) :
    Except Raised (List String) :=
  let normalizedTool := normalizeTool language tool
  let allowed := (allowedTools.filter fun item => strip item != "").map (normalizeTool language)
  let given := args.map (str language)
  let normalizedArgs :=
    if normalizedTool = "curl" ∧ "-q" ∉ given ∧ "--disable" ∉ given then "-q" :: given
    else given
  if normalizedTool = "" then .error (.value "missing_tool")
  else if normalizedTool ∉ allowed then .error (.value ("tool_not_allowed:" ++ normalizedTool))
  else match restrictedPattern language normalizedTool normalizedArgs with
    | some pattern =>
      .error (.value ("tool_restricted_pattern:" ++ normalizedTool ++ ":" ++ pattern))
    | none => .ok (normalizedTool :: normalizedArgs)

def entryTool (entry : Entries) : String :=
  strip (str language (Value.orElse (Value.get entry "command") (.str "")))

def allowedTools (allowlist : List Value) : List String :=
  allowlist.filterMap fun item => match item with
    | .dict entry =>
      if entryTool language entry = "" then none
      else some (normalizeTool language (str language (Value.get entry "command")))
    | _ => none

/-- The argument vector of an entry; `notList` is the text of its error. -/
def entryArgv (notList : String) (allowlist : List Value) (entry : Entries) :
    Except Raised (List String) :=
  match asList (Value.orElse (Value.get entry "args") (.list [])) with
  | some args =>
    normalizeAllowlistedArgv language (entryTool language entry) args
      (allowedTools language allowlist)
  | none => .error (.validation notList)

def findEntry (key : Entries → String) (action : String) : List Value → Option Entries
  | [] => none
  | .dict entry :: rest => if key entry = action then some entry else findEntry key action rest
  | _ :: rest => findEntry key action rest

end Shape

def readOnlyModes : List String := ["dry_run", "observe", "emergency_readonly"]

structure ConnectorRequest where
  connector : String
  action : String
  target : String
  mode : String
  metadata : Entries

structure ConnectorResponse where
  connector : String
  action : String
  success : Bool
  data : Entries
  error : String

def ConnectorRequest.failed (request : ConnectorRequest) (error errorClass : String) :
    ConnectorResponse where
  connector := request.connector
  action := request.action
  success := false
  data := [("error_class", .str errorClass)]
  error := error

structure CapturedStream where
  text : String
  digest : String
  totalBytes : Nat
  truncated : Bool

structure BoundedSubprocessResult where
  returncode : Int
  stdout : CapturedStream
  stderr : CapturedStream
  outputLimitExceeded : Bool

/-- How `capture_runtime.run` ends: `none` is `TimeoutExpired`. -/
abbrev ProcessOutcome := Option BoundedSubprocessResult

structure ProcessCall (F : Type) where
  argv : List String
  timeout : F
  maxOutputBytes : Int

inductive Invocation (F : Type) where
  | answered (response : ConnectorResponse)
  | raised (error : Raised)
  | started (call : ProcessCall F) (respond : ProcessOutcome → ConnectorResponse)

def Invocation.isStarted {F : Type} : Invocation F → Bool
  | .started _ _ => true
  | _ => false

theorem Invocation.exists_of_isStarted {F : Type} {invocation : Invocation F}
    (started : invocation.isStarted = true) :
    ∃ call respond, invocation = .started call respond := by
  cases invocation with
  | started call respond => exact ⟨call, respond, rfl⟩
  | _ => cases started

section Controls

variable {F : Type} [Zero F] [LT F] [DecidableLT F] [LE F] [DecidableLE F]
variable (language : Language F)

def executionControl (request : ConnectorRequest) (name : String) : Except Raised F :=
  match Value.get request.metadata "execution_controls" with
  | .dict controls =>
    match language.float (Value.orElse (Value.get controls name) (.float 0)) with
    | none => .error (.value ("invalid execution control: " ++ name))
    | some value =>
      if value < 0 then .error (.value ("invalid execution control: " ++ name)) else .ok value
  | _ => .ok 0

def effectiveTimeoutSeconds (request : ConnectorRequest) (config : Entries) (default : Int) :
    Except Raised F := do
  let configured ← orRaise
    (language.float (Value.orElse (Value.get config "timeout_seconds") (.int default)))
    (.other "float")
  let policy ← executionControl language request "timeout_seconds"
  if policy ≤ 0 then pure configured
  else if policy < configured then pure policy else pure configured

def validateOutputLimit : Value → Option Int
  | .int n => if n ≤ 0 then none else some n
  | _ => none

def outputLimit (request : ConnectorRequest) (config : Entries) : Option Int := do
  let configured ← validateOutputLimit ((config.lookup "max_output_bytes").getD (.int 65536))
  match Value.get request.metadata "execution_controls" with
  | .dict controls =>
    match controls.lookup "max_output_bytes" with
    | some raw => do
      let policy ← validateOutputLimit raw
      pure (min configured policy)
    | none => pure configured
  | _ => pure configured

structure Wording where
  refusesMode : String
  timedOut : String
  limitExceeded : String
  failed : String
  defaultTimeout : Int

def commandResponse (wording : Wording) (registry : Registry) (patterns : List TextPattern)
    (request : ConnectorRequest) (extra : Entries) (limit : Int) :
    ProcessOutcome → ConnectorResponse
  | none => request.failed wording.timedOut "timeout"
  | some result =>
    let success := result.returncode == 0 && !result.outputLimitExceeded
    let stderr := redactText registry patterns result.stderr.text
    let data : Entries :=
      [("stdout", .str result.stdout.text), ("stderr", .str result.stderr.text),
        ("returncode", .int result.returncode)] ++ extra ++
      [("max_output_bytes", .int limit),
        ("output_limit_exceeded", .bool result.outputLimitExceeded),
        ("output_digests", .dict [("stdout", .str result.stdout.digest),
          ("stderr", .str result.stderr.digest)]),
        ("output_truncated", .dict [("stdout", .bool result.stdout.truncated),
          ("stderr", .bool result.stderr.truncated)]),
        ("output_sizes", .dict [("stdout_bytes", .int result.stdout.totalBytes),
          ("stderr_bytes", .int result.stderr.totalBytes),
          ("total_bytes", .int (result.stdout.totalBytes + result.stderr.totalBytes))])] ++
      if result.outputLimitExceeded then [("error_class", .str "output_limit_exceeded")] else []
    { connector := request.connector
      action := request.action
      success := success
      data := redactEntries registry patterns data
      error :=
        if success then ""
        else if result.outputLimitExceeded then wording.limitExceeded
        else orElse stderr wording.failed }

def startProcess (wording : Wording) (registry : Registry) (patterns : List TextPattern)
    (request : ConnectorRequest) (config extra : Entries) (argv : List String) : Invocation F :=
  match effectiveTimeoutSeconds language request config wording.defaultTimeout with
  | .error error => .raised error
  | .ok timeout =>
    match outputLimit request config with
    | none => .answered (request.failed "invalid max_output_bytes" "validation_failed")
    | some limit =>
      .started ⟨argv, timeout, limit⟩
        (commandResponse wording registry patterns request extra limit)

/-- The key of an entry for the connectors: `str(action or command)`. -/
def runtimeKey (entry : Entries) : String :=
  str language (Value.orElse (Value.get entry "action") (Value.get entry "command"))

def withEntry (wording : Wording) (name : String) (config : Entries)
    (request : ConnectorRequest) (run : List Value → Entries → Invocation F) : Invocation F :=
  if request.connector ≠ name then
    .answered (request.failed "connector mismatch" "unsupported")
  else if request.mode ∉ readOnlyModes then
    .answered (request.failed wording.refusesMode "policy_denied")
  else match asList (Value.get config "allowlist") with
    | none => .answered (request.failed "allowlist missing" "validation_failed")
    | some allowlist =>
      match findEntry (runtimeKey language) request.action allowlist with
      | none => .answered (request.failed "command not allowlisted" "capability_undeclared")
      | some entry => run allowlist entry

end Controls

namespace LocalShell

variable {F : Type} [Zero F] [LT F] [DecidableLT F] [LE F] [DecidableLE F]
variable (language : Language F)

def wording : Wording where
  refusesMode := "local_shell_readonly refuses mutating operation modes"
  timedOut := "local shell timeout"
  limitExceeded := "local shell output limit exceeded"
  failed := "command failed"
  defaultTimeout := 10

def invoke (registry : Registry) (patterns : List TextPattern) (name : String)
    (config : Entries) (request : ConnectorRequest) : Invocation F :=
  withEntry language wording name config request fun allowlist entry =>
    match entryArgv language "allowlist args must be a list" allowlist entry with
    | .error (.validation message) => .answered (request.failed message "validation_failed")
    | .error (.value message) => .answered (request.failed message "validation_failed")
    | .error error => .raised error
    | .ok command => startProcess language wording registry patterns request config [] command

end LocalShell

namespace Ssh

variable {F : Type} [Zero F] [LT F] [DecidableLT F] [LE F] [DecidableLE F]
variable (language : Language F)

structure FileInfo where
  symlink : Bool
  regular : Bool
  uid : Nat
  mode : Nat

structure Machine where
  lstat : String → Option FileInfo
  homeUid : Nat
  resolve : String → Except Raised String

def wording : Wording where
  refusesMode := "ssh_readonly refuses mutating operation modes"
  timedOut := "ssh command timeout"
  limitExceeded := "ssh command output limit exceeded"
  failed := "ssh command failed"
  defaultTimeout := 15

def isBare (c : Char) : Bool :=
  c.isAlphanum || c ∈ ['_', '@', '%', '+', '=', ':', ',', '.', '/', '-']

def quote (part : String) : String :=
  if part = "" then "''"
  else if part.toList.all isBare then part
  else
    let inner := part.toList.flatMap fun c => if c = '\'' then "'\"'\"'".toList else [c]
    "'" ++ String.ofList inner ++ "'"

def quotedJoin (argv : List String) : String := " ".intercalate (argv.map quote)

def buildRemoteCommand (allowlist : List Value) (entry : Entries) : Except Raised String :=
  match entryArgv language "ssh allowlist args must be a list" allowlist entry with
  | .error error => .error error
  | .ok argv => .ok (quotedJoin argv)

def validateDestination (label value : String) : Except Raised Unit :=
  if "-".toList.isPrefixOf value.toList ∨ value.toList.any isSpace then
    .error (.validation ("ssh " ++ label ++ " is malformed"))
  else if value.toList.any (· ∈ ['@', '\x00', '/', '\\']) then
    .error (.validation ("ssh " ++ label ++ " is malformed"))
  else .ok ()

/-- `forbidden` is `0o077` for an identity and `0o022` for known hosts. -/
def validateOperatorFile (machine : Machine) (path kind : String) (forbidden : Nat) :
    Except Raised Unit :=
  match machine.lstat path with
  | none => .error (.validation "ssh operator file is unavailable")
  | some info =>
    if info.symlink ∨ ¬ info.regular then
      .error (.validation "ssh operator file must be a regular non-symlink")
    else if info.uid ≠ machine.homeUid then
      .error (.validation "ssh operator file has unexpected owner")
    else if info.mode &&& forbidden ≠ 0 then
      .error (.validation ("ssh " ++ kind ++ " file permissions are too broad"))
    else .ok ()

def setting (config : Entries) (key default : String) : String :=
  strip (str language (Value.orElse (Value.get config key) (.str default)))

def knownHostsOptions (machine : Machine) (policy file : String) :
    Except Raised (List String) :=
  if file = "" then
    if policy = "strict" then .error (.validation "strict ssh_readonly requires known_hosts_file")
    else .ok []
  else do
    validateOperatorFile machine file "known_hosts" 0o022
    pure ["-o", "UserKnownHostsFile=" ++ file]

def portOptions (config : Entries) : Except Raised (List String) :=
  match Value.get config "port" with
  | .null => .ok []
  | port =>
    match language.int port with
    | none => .error (.validation "ssh port must be an integer")
    | some n =>
      if 1 ≤ n ∧ n ≤ 65535 then .ok ["-p", toString n]
      else .error (.validation "ssh port is outside 1..65535")

def identityOptions (machine : Machine) (registry : Registry) (config : Entries) :
    Except Raised (List String × Registry) :=
  match setting language config "identity_file_secret_ref" "" with
  | "" => .ok ([], registry)
  | reference => do
    let file ← machine.resolve reference
    validateOperatorFile machine file "identity" 0o077
    pure (["-i", file], registerSecretValue registry file)

def buildSshArgv (machine : Machine) (registry : Registry) (config : Entries)
    (remoteCommand : String) : Except Raised (List String × Registry) := do
  let host := setting language config "host" ""
  let user := setting language config "user" ""
  ensure (host ≠ "" ∧ user ≠ "") (.validation "ssh_readonly requires host and user")
  validateDestination "host" host
  validateDestination "user" user
  let posture := language.lower (setting language config "deployment_posture" "stable")
  let policy := setting language config "known_hosts_policy" "strict"
  ensure (policy ∈ ["accept-new", "strict", "no"])
    (.validation ("unsupported known_hosts_policy: " ++ policy))
  ensure (posture ∈ ["stable", "lab", "fixture"])
    (.validation ("unsupported deployment_posture: " ++ posture))
  ensure (posture = "stable" → policy = "strict")
    (.validation "stable ssh_readonly requires strict known-host verification")
  let sshPolicy := if policy = "strict" then "yes" else policy
  let knownHosts ← knownHostsOptions machine policy
    (setting language config "known_hosts_file" "")
  let port ← portOptions language config
  let (identity, registered) ← identityOptions language machine registry config
  pure (["ssh", "-o", "BatchMode=yes", "-o", "StrictHostKeyChecking=" ++ sshPolicy] ++
    knownHosts ++ port ++ identity ++ [user ++ "@" ++ host, remoteCommand], registered)

def invoke (machine : Machine) (registry : Registry) (patterns : List TextPattern)
    (name : String) (config : Entries) (request : ConnectorRequest) : Invocation F :=
  withEntry language wording name config request fun allowlist entry =>
    let built := do
      let remoteCommand ← buildRemoteCommand language allowlist entry
      let (argv, registered) ← buildSshArgv language machine registry config remoteCommand
      pure (remoteCommand, argv, registered)
    match built with
    | .error (.validation message) => .answered (request.failed message "validation_failed")
    | .error (.value message) => .answered (request.failed message "validation_failed")
    | .error error => .raised error
    | .ok (remoteCommand, argv, registered) =>
      startProcess language wording registered patterns request config
        [("remote_command", .str remoteCommand)] argv

end Ssh

section Spec

variable {F : Type} (language : Language F)

structure CommandExecutionSpec (F : Type) where
  schema : String
  schemaVersion : String
  backend : String
  connector : String
  action : String
  argv : List String
  argvDigest : String
  maxOutputBytes : Int
  timeoutSeconds : F
  readOnly : Bool
  deriving DecidableEq

def typedExecutionSchemaVersion : String := "v0.1"

/-- `SUPPORTED_TYPED_EXECUTION_SCHEMAS`, each in its one version. -/
def supportedTypedExecutionSchemas : List String :=
  ["rexecop.step_execution_spec.v0.1", "rexecop.command_execution_spec.v0.1",
    "rexecop.http_action_execution_spec.v0.1", "rexecop.static_fixture_execution_spec.v0.1",
    "rexecop.profile_connector_execution_spec.v0.1"]

def validateTypedExecutionSchemaVersion (schemaText versionText : String) :
    Except Raised Unit :=
  let schema := strip schemaText
  let version := strip versionText
  if schema ∉ supportedTypedExecutionSchemas then
    .error (.validation ("unsupported typed execution schema: " ++ orElse schema "missing"))
  else if version ≠ typedExecutionSchemaVersion then
    let major := (splitDots version).headD ""
    if version ≠ "" ∧ major ≠ "v0" ∧ major ≠ "" then
      .error (.validation ("unsupported typed execution schema major version: " ++ version))
    else .error (.validation ("unsupported typed execution schema version: " ++ version))
  else .ok ()

def specKey (entry : Entries) : String :=
  str language
    (Value.orElse (Value.get entry "action") (Value.orElse (Value.get entry "command") (.str "")))

/-- `digest` is `canonical_digest({"argv": argv})`. -/
def compileCommandExecutionSpec (digest : List String → String)
    (connector action backend : String) (config : Entries) (mode : String) :
    Except Raised (CommandExecutionSpec F) := do
  ensure (mode ∈ readOnlyModes ∨ ¬ "_readonly".toList.isSuffixOf backend.toList)
    (.validation ("readonly backend " ++ backend ++ " refuses mutating mode " ++ mode))
  let allowlist ← orRaise (asList (Value.get config "allowlist"))
    (.validation ("command allowlist missing for connector " ++ connector))
  let entry ← orRaise (findEntry (specKey language) action allowlist)
    (.validation ("command not allowlisted: " ++ connector ++ "." ++ action))
  let argv ← entryArgv language "allowlist args must be a list" allowlist entry
  let maxOutputBytes ← orRaise
    (language.int (Value.orElse (Value.get config "max_output_bytes") (.int 65536))) (.other "int")
  let timeoutSeconds ← orRaise
    (language.float (Value.orElse (Value.get config "timeout_seconds") (.int 10))) (.other "float")
  let schema := "rexecop.command_execution_spec.v0.1"
  validateTypedExecutionSchemaVersion schema typedExecutionSchemaVersion
  pure
    { schema := schema
      schemaVersion := typedExecutionSchemaVersion
      backend := backend
      connector := connector
      action := action
      argv := argv
      argvDigest := "sha256:" ++ digest argv
      maxOutputBytes := maxOutputBytes
      timeoutSeconds := timeoutSeconds
      readOnly := true }

end Spec

section

variable {F : Type} (language : Language F)
  {config entry : Entries} {allowlist : List Value} {notList : String} {argv : List String}

theorem ok_of_bind {α β : Type} {first : Except Raised α} {next : α → Except Raised β}
    {result : β} (ended : first >>= next = .ok result) :
    ∃ value, first = .ok value ∧ next value = .ok result := by
  cases first with
  | error error => cases ended
  | ok value => exact ⟨value, rfl, ended⟩

theorem eq_some_of_orRaise {α : Type} {value : Option α} {error : Raised} {result : α}
    (given : orRaise value error = .ok result) : value = some result := by
  cases value with
  | none => cases given
  | some found =>
    cases given
    rfl

theorem truthy_of_entryArgv (built : entryArgv language notList allowlist entry = .ok argv) :
    (Value.get entry "command").truthy = true := by
  by_contra falsy
  have tool : entryTool language entry = "" := by
    rw [entryTool, Value.orElse, if_neg falsy]
    rfl
  have missing : normalizeTool language "" = "" := language.lower_empty
  simp only [entryArgv, tool, normalizeAllowlistedArgv, missing, if_pos] at built
  split at built <;> cases built

theorem entryArgv_notList (other : String)
    (built : entryArgv language notList allowlist entry = .ok argv) :
    entryArgv language other allowlist entry = .ok argv := by
  unfold entryArgv at built ⊢
  split at built
  · exact built
  · cases built

theorem runtimeKey_eq_specKey (named : (Value.get entry "command").truthy = true) :
    runtimeKey language entry = specKey language entry := by
  rw [runtimeKey, specKey]
  congr 2
  rw [Value.orElse, if_pos named]

theorem findEntry_agree {action : String} {bound run : Entries}
    (specFound : findEntry (specKey language) action allowlist = some bound)
    (bounded : (Value.get bound "command").truthy = true)
    (runFound : findEntry (runtimeKey language) action allowlist = some run)
    (runnable : (Value.get run "command").truthy = true) : run = bound := by
  induction allowlist with
  | nil => cases specFound
  | cons item rest ih =>
    cases item with
    | dict entry =>
      simp only [findEntry] at specFound runFound
      by_cases named : (Value.get entry "command").truthy = true
      · rw [runtimeKey_eq_specKey language named] at runFound
        split at specFound
        · next same =>
          rw [if_pos same] at runFound
          rw [← Option.some.inj runFound, Option.some.inj specFound]
        · next differs =>
          rw [if_neg differs] at runFound
          exact ih specFound runFound
      · -- neither side stopped at an entry without a command
        split at specFound
        · rw [Option.some.inj specFound] at named
          exact absurd bounded named
        · split at runFound
          · rw [Option.some.inj runFound] at named
            exact absurd runnable named
          · exact ih specFound runFound
    | _ => exact ih specFound runFound

theorem compiled_entry {digest : List String → String} {connector action backend mode : String}
    {spec : CommandExecutionSpec F}
    (compiled : compileCommandExecutionSpec language digest connector action backend config mode
      = .ok spec) :
    ∃ allowlist entry, asList (Value.get config "allowlist") = some allowlist ∧
      findEntry (specKey language) action allowlist = some entry ∧
      entryArgv language "allowlist args must be a list" allowlist entry = .ok spec.argv := by
  obtain ⟨-, -, compiled⟩ := ok_of_bind compiled
  obtain ⟨allowlist, listed, compiled⟩ := ok_of_bind compiled
  obtain ⟨entry, found, compiled⟩ := ok_of_bind compiled
  obtain ⟨argv, built, compiled⟩ := ok_of_bind compiled
  obtain ⟨bytes, -, compiled⟩ := ok_of_bind compiled
  obtain ⟨seconds, -, compiled⟩ := ok_of_bind compiled
  obtain ⟨-, -, compiled⟩ := ok_of_bind compiled
  cases compiled
  exact ⟨allowlist, entry, eq_some_of_orRaise listed, eq_some_of_orRaise found, built⟩

theorem started_withEntry {wording : Wording} {name : String} {request : ConnectorRequest}
    {run : List Value → Entries → Invocation F} {call : ProcessCall F}
    {respond : ProcessOutcome → ConnectorResponse}
    (started : withEntry language wording name config request run = .started call respond) :
    ∃ allowlist entry, asList (Value.get config "allowlist") = some allowlist ∧
      findEntry (runtimeKey language) request.action allowlist = some entry ∧
      run allowlist entry = .started call respond := by
  unfold withEntry at started
  split at started
  · cases started
  split at started
  · cases started
  split at started
  · cases started
  · next allowlist listed =>
    split at started
    · cases started
    · next entry found => exact ⟨allowlist, entry, listed, found, started⟩

theorem built_eq_bound {digest : List String → String} {connector action backend mode : String}
    {spec : CommandExecutionSpec F}
    (compiled : compileCommandExecutionSpec language digest connector action backend config mode
      = .ok spec) (listed : asList (Value.get config "allowlist") = some allowlist)
    (found : findEntry (runtimeKey language) action allowlist = some entry)
    (built : entryArgv language notList allowlist entry = .ok argv) : argv = spec.argv := by
  obtain ⟨boundList, bound, boundListed, boundFound, boundBuilt⟩ :=
    compiled_entry language compiled
  obtain rfl : allowlist = boundList := Option.some.inj (listed.symm.trans boundListed)
  have same : entry = bound := findEntry_agree language boundFound
    (truthy_of_entryArgv language boundBuilt) found (truthy_of_entryArgv language built)
  rw [same] at built
  have reread := entryArgv_notList language "allowlist args must be a list" built
  rw [boundBuilt] at reread
  cases reread
  rfl

end

section

variable {F : Type} [Zero F] [LT F] [DecidableLT F] [LE F] [DecidableLE F]
variable (language : Language F)

theorem argv_startProcess {wording : Wording} {registry : Registry}
    {patterns : List TextPattern} {request : ConnectorRequest} {config extra : Entries}
    {argv : List String} {call : ProcessCall F} {respond : ProcessOutcome → ConnectorResponse}
    (started : startProcess language wording registry patterns request config extra argv
      = .started call respond) : call.argv = argv := by
  unfold startProcess at started
  split at started
  · cases started
  split at started
  · cases started
  · cases started
    rfl

theorem LocalShell.started_invoke {registry : Registry} {patterns : List TextPattern}
    {name : String} {config : Entries} {request : ConnectorRequest} {call : ProcessCall F}
    {respond : ProcessOutcome → ConnectorResponse}
    (started : LocalShell.invoke language registry patterns name config request
      = .started call respond) :
    ∃ allowlist entry, asList (Value.get config "allowlist") = some allowlist ∧
      findEntry (runtimeKey language) request.action allowlist = some entry ∧
      entryArgv language "allowlist args must be a list" allowlist entry = .ok call.argv := by
  obtain ⟨allowlist, entry, listed, found, ran⟩ := started_withEntry language started
  refine ⟨allowlist, entry, listed, found, ?_⟩
  split at ran
  · cases ran
  · cases ran
  · cases ran
  · next command built => rw [built, argv_startProcess language ran]

end

namespace Ssh

theorem getLast?_buildSshArgv {F : Type} (language : Language F) {machine : Machine}
    {registry registered : Registry} {config : Entries} {remoteCommand : String}
    {argv : List String}
    (built : buildSshArgv language machine registry config remoteCommand
      = .ok (argv, registered)) : argv.getLast? = some remoteCommand := by
  obtain ⟨-, -, built⟩ := ok_of_bind built
  obtain ⟨-, -, built⟩ := ok_of_bind built
  obtain ⟨-, -, built⟩ := ok_of_bind built
  obtain ⟨-, -, built⟩ := ok_of_bind built
  obtain ⟨-, -, built⟩ := ok_of_bind built
  obtain ⟨-, -, built⟩ := ok_of_bind built
  obtain ⟨knownHosts, -, built⟩ := ok_of_bind built
  obtain ⟨port, -, built⟩ := ok_of_bind built
  obtain ⟨⟨identity, _⟩, -, built⟩ := ok_of_bind built
  cases built
  rw [List.getLast?_append_of_ne_nil _ (List.cons_ne_nil _ _)]
  rfl

variable {F : Type} [Zero F] [LT F] [DecidableLT F] [LE F] [DecidableLE F]
variable (language : Language F)

theorem started_invoke {machine : Machine} {registry : Registry}
    {patterns : List TextPattern} {name : String} {config : Entries}
    {request : ConnectorRequest} {call : ProcessCall F}
    {respond : ProcessOutcome → ConnectorResponse}
    (started : invoke language machine registry patterns name config request
      = .started call respond) :
    ∃ allowlist entry argv, asList (Value.get config "allowlist") = some allowlist ∧
      findEntry (runtimeKey language) request.action allowlist = some entry ∧
      entryArgv language "ssh allowlist args must be a list" allowlist entry = .ok argv ∧
      call.argv.getLast? = some (quotedJoin argv) := by
  obtain ⟨allowlist, entry, listed, found, ran⟩ := started_withEntry language started
  simp only at ran
  split at ran
  · cases ran
  · cases ran
  · cases ran
  · next remoteCommand argv registered built =>
    obtain ⟨command, remote, built⟩ := ok_of_bind built
    obtain ⟨⟨sshArgv, _⟩, ssh, built⟩ := ok_of_bind built
    cases built
    rw [buildRemoteCommand] at remote
    split at remote
    · cases remote
    · next vector vectorBuilt =>
      cases remote
      refine ⟨allowlist, entry, vector, listed, found, vectorBuilt, ?_⟩
      rw [argv_startProcess language ran]
      exact getLast?_buildSshArgv language ssh

end Ssh

section

variable {F : Type} [Zero F] [LT F] [DecidableLT F] [LE F] [DecidableLE F]
variable (language : Language F)

/-- The command a spec is bound to is the one either connector runs with the same configuration. -/
theorem bound_command_executed (digest : List String → String)
    (connector action backend mode : String) (config : Entries)
    (spec : CommandExecutionSpec F)
    (compiled : compileCommandExecutionSpec language digest connector action backend config mode
      = .ok spec)
    (registry : Registry) (patterns : List TextPattern) (name : String)
    (request : ConnectorRequest) (same : request.action = action) :
    (∀ call respond,
      LocalShell.invoke language registry patterns name config request
        = .started call respond → call.argv = spec.argv) ∧
    ∀ machine call respond,
      Ssh.invoke language machine registry patterns name config request
        = .started call respond →
      call.argv.getLast? = some (Ssh.quotedJoin spec.argv) := by
  subst same
  constructor
  · intro call respond started
    obtain ⟨allowlist, entry, listed, found, built⟩ := LocalShell.started_invoke language started
    exact built_eq_bound language compiled listed found built
  · intro machine call respond started
    obtain ⟨allowlist, entry, argv, listed, found, built, last⟩ :=
      Ssh.started_invoke language started
    rw [last, built_eq_bound language compiled listed found built]

end

def sampleLanguage : Language Int where
  text _ := "None"
  lower s := String.ofList (s.toList.map Char.toLower)
  float
    | .int n => some n
    | _ => none
  int
    | .int n => some n
    | _ => none
  lower_empty := rfl

def sampleConfig : Entries :=
  [("allowlist", .list [.dict [],
      .dict [("action", .str "show"), ("command", .str " Uptime"),
        ("args", .list [.str "-p", .str "a b"])],
      .dict [("action", .str "show"), ("command", .str "hostname")]]),
    ("host", .str "db-1"), ("user", .str "ops"), ("deployment_posture", .str "lab"),
    ("known_hosts_policy", .str "no")]

def sampleMachine : Ssh.Machine where
  lstat _ := none
  homeUid := 1000
  resolve _ := .error (.validation "secret not found")

def sampleRequest : ConnectorRequest := ⟨"shell", "show", "db-1", "observe", []⟩

def sampleSpec : CommandExecutionSpec Int where
  schema := "rexecop.command_execution_spec.v0.1"
  schemaVersion := "v0.1"
  backend := "local_shell_readonly"
  connector := "shell"
  action := "show"
  argv := ["uptime", "-p", "a b"]
  argvDigest := "sha256:"
  maxOutputBytes := 65536
  timeoutSeconds := 10
  readOnly := true

theorem sampleConfig_executed :
    (∃ call respond, LocalShell.invoke sampleLanguage Registry.empty [] "shell" sampleConfig
      sampleRequest = .started call respond ∧ call.argv = ["uptime", "-p", "a b"]) ∧
    ∃ call respond, Ssh.invoke sampleLanguage sampleMachine Registry.empty [] "shell"
      sampleConfig sampleRequest = .started call respond ∧
      call.argv.getLast? = some "uptime -p 'a b'" := by
  have bound := bound_command_executed sampleLanguage (fun _ => "") "shell" "show"
    "local_shell_readonly" "observe" sampleConfig sampleSpec (by decide +kernel)
    Registry.empty [] "shell" sampleRequest rfl
  obtain ⟨call, respond, started⟩ := (LocalShell.invoke sampleLanguage Registry.empty []
    "shell" sampleConfig sampleRequest).exists_of_isStarted (by decide +kernel)
  obtain ⟨sshCall, sshRespond, sshStarted⟩ := (Ssh.invoke sampleLanguage sampleMachine
    Registry.empty [] "shell" sampleConfig sampleRequest).exists_of_isStarted (by decide +kernel)
  refine ⟨⟨call, respond, started, bound.1 call respond started⟩, sshCall, sshRespond,
    sshStarted, ?_⟩
  have quoted : Ssh.quotedJoin sampleSpec.argv = "uptime -p 'a b'" := by decide +kernel
  rw [bound.2 sampleMachine sshCall sshRespond sshStarted, quoted]

end RExecOp.Commands
