import Mathlib
import EnigmaMemory.Lib.FileTree
import EnigmaMemory.Spec.Json

/-!
# The connector engine of the desktop app

`connector/engine.rs`: the `enigma` entry in the configuration file of an AI client, how it is
detected, planned, written with a backup, repaired and rolled back.

Names of files are lists of characters, which are ordered as their UTF-8 bytes are, and a path
lists its names from the file up to the root. Texts that go into JSON are strings of code
units. A parsed configuration has no key twice. What the engine takes from its libraries and
from its machine is in `Host`; a failing system call leaves no partly written file.
-/

namespace EnigmaMemory.Connector

open Json

abbrev FileName := List Char

abbrev Path := List FileName

abbrev Files := FileTree FileName

/-! ## Paths -/

def fileName : Path → FileName
  | [] => []
  | name :: _ => name

def withFileName (path : Path) (name : FileName) : Path := name :: path.tail

/-- The text before the last point of a name and the text behind it. -/
def lastPoint (name : FileName) : Option (FileName × FileName) :=
  match name.reverse.dropWhile (· ≠ '.') with
  | [] => none
  | _ :: before => some (before.reverse, (name.reverse.takeWhile (· ≠ '.')).reverse)

/-- The stem and the extension of a name; a point in front starts no extension. -/
def splitExtension (name : FileName) : FileName × Option FileName :=
  match lastPoint name with
  | some (before, after) => if before = [] ∨ name = "..".toList then (name, none) else (before, some after)
  | none => (name, none)

def fileStem (path : Path) : FileName := (splitExtension (fileName path)).1

/-- `path.extension().unwrap_or_default()` -/
def extension (path : Path) : FileName := (splitExtension (fileName path)).2.getD []

def withExtension (path : Path) (ext : FileName) : Path :=
  match path with
  | [] => []
  | _ :: dir => (if ext = [] then fileStem path else fileStem path ++ '.' :: ext) :: dir

/-! ## Clients -/

inductive ClientId where
  | claudeDesktop
  | cursor
  | kimi
  | vscodeCline
  | roo
  | opencode
  | generic
  deriving DecidableEq, Repr

def ClientId.asStr : ClientId → JsString
  | claudeDesktop => js "claude-desktop"
  | cursor => js "cursor"
  | kimi => js "kimi-code"
  | vscodeCline => js "vscode-cline"
  | roo => js "roo"
  | opencode => js "opencode"
  | generic => js "generic-mcp"

/-- The operating system. -/
inductive Os where
  | win32
  | darwin
  | linux
  deriving DecidableEq, Repr

structure EngineContext where
  platform : Os
  homeDir : Path
  appDataDir : Path
  bundlePath : Path
  mcpCommand : JsString
  redactPaths : Bool
  now : Option ℤ

structure ClientProfile where
  displayName : JsString
  defaultConfigPath : Path
  publicConfigLabel : JsString
  serverContainerPath : List JsString
  serverName : JsString
  restartGuidance : JsString

def joinTargetPath (base : Path) (segments : List String) : Path :=
  segments.foldl (fun path segment => segment.toList :: path) base

/-- Where the extensions of VS Code keep their settings. -/
def codeStorage (platform : Os) (home appData : Path) : Path :=
  match platform with
  | .win32 => appData
  | .darwin => joinTargetPath home ["Library", "Application Support"]
  | .linux => joinTargetPath home [".config"]

def resolveDefaultConfigPath (client : ClientId) (platform : Os) (home appData : Path) : Path :=
  match client, platform with
  | .claudeDesktop, .win32 => joinTargetPath appData ["Claude", "claude_desktop_config.json"]
  | .claudeDesktop, .darwin =>
    joinTargetPath home ["Library", "Application Support", "Claude", "claude_desktop_config.json"]
  | .claudeDesktop, .linux => joinTargetPath home [".config", "Claude", "claude_desktop_config.json"]
  | .cursor, _ => joinTargetPath home [".cursor", "mcp.json"]
  | .kimi, .win32 => joinTargetPath appData ["Kimi Code", "mcp.json"]
  | .kimi, .darwin => joinTargetPath home ["Library", "Application Support", "Kimi Code", "mcp.json"]
  | .kimi, .linux => joinTargetPath home [".config", "kimi-code", "mcp.json"]
  | .vscodeCline, platform =>
    joinTargetPath (codeStorage platform home appData)
      ["Code", "User", "globalStorage", "saoudrizwan.claude-dev", "settings", "cline_mcp_settings.json"]
  | .roo, platform =>
    joinTargetPath (codeStorage platform home appData)
      ["Code", "User", "globalStorage", "rooveterinaryinc.roo-cline", "settings", "mcp_settings.json"]
  | .opencode, .win32 => joinTargetPath appData ["opencode", "opencode.json"]
  | .opencode, .darwin => joinTargetPath home ["Library", "Application Support", "opencode", "opencode.json"]
  | .opencode, .linux => joinTargetPath home [".config", "opencode", "opencode.json"]
  | .generic, .win32 => joinTargetPath appData ["Enigma", "mcp.json"]
  | .generic, .darwin => joinTargetPath home ["Library", "Application Support", "Enigma", "mcp.json"]
  | .generic, .linux => joinTargetPath home [".config", "enigma", "mcp.json"]

/-- The texts of a profile: its display name, its public label and its restart guidance. -/
def profileTexts : ClientId → JsString × JsString × JsString
  | .claudeDesktop => (js "Claude Desktop", js "Claude Desktop config", js "Fully quit and reopen Claude Desktop.")
  | .cursor => (js "Cursor", js "Cursor MCP config", js "Reload or restart Cursor.")
  | .kimi => (js "Kimi Code", js "Kimi Code MCP config", js "Restart Kimi Code.")
  | .vscodeCline => (js "VS Code Cline", js "VS Code/Cline MCP config", js "Reload the VS Code window.")
  | .roo => (js "Roo Code", js "Roo MCP config", js "Reload or restart the Roo host.")
  | .opencode => (js "OpenCode", js "OpenCode config", js "Restart or reload MCP servers in OpenCode.")
  | .generic => (js "Generic MCP Client", js "Selected MCP config", js "Restart or reload the chosen MCP client.")

def buildProfile (client : ClientId) (ctx : EngineContext) : ClientProfile where
  displayName := (profileTexts client).1
  defaultConfigPath := resolveDefaultConfigPath client ctx.platform ctx.homeDir ctx.appDataDir
  publicConfigLabel := (profileTexts client).2.1
  serverContainerPath := [js "mcpServers"]
  serverName := js "enigma"
  restartGuidance := (profileTexts client).2.2

def resolveConfigPath (profile : ClientProfile) (overridePath : Option Path) : Path :=
  overridePath.getD profile.defaultConfigPath

/-! ## Options, results and errors -/

structure ConnectOptions where
  dryRun : Bool := false
  confirmed : Bool := false
  commandOverride : Option JsString := none
  args : List JsString := []
  env : List (JsString × JsString) := []
  configPathOverride : Option Path := none

structure RollbackOptions where
  backupPath : Option Path := none
  confirmed : Bool := false

inductive ConnectorError where
  | configParse (message : JsString)
  | configType
  | consentRequired
  | noBackup
  | io (e : IoError)
  | other (message : JsString)

/-- What the engine takes from its libraries (`serde_json`, `chrono`) and its machine: the text
of a path, the texts of system errors, UTF-8 JSON read and printed, a timestamp to the second
in RFC 3339, its process and the time. -/
structure Host where
  display : Path → JsString
  ioMessage : IoError → JsString
  fromStr : List UInt8 → Except JsString { v : Json // v.UniqueKeys }
  toStringPretty : Json → List UInt8
  toRfc3339 : ℤ → List Char
  processId : ℕ
  utcNow : ℤ

def ConnectorError.message (H : Host) : ConnectorError → JsString
  | configParse message => js "config parse error: " ++ message
  | configType => js "config type error: connector config must be a JSON object"
  | consentRequired => js "write blocked: explicit user consent is required"
  | noBackup => js "rollback failed: no usable backup found"
  | io e => js "I/O error: " ++ H.ioMessage e
  | other message => message

inductive Action where
  | missingClientConfig
  | connect
  | repair
  | alreadyConfigured
  | disconnect
  | alreadyDisconnected
  | rollback
  | test
  deriving DecidableEq, Repr

inductive RepairReason where
  | clientConfigMissing
  | enigmaServerMissing
  | commandMismatch
  | argsMismatch
  | bundleEnvMissing
  | bundleEnvMismatch
  | envMismatch
  | configJsonInvalid
  | configJsonNotObject
  | configUnreadable
  deriving DecidableEq, Repr

inductive WriteKind where
  | backup
  | write
  | restore
  deriving DecidableEq, Repr

structure PlannedWrite where
  kind : WriteKind
  path : JsString
  contentPreview : Option JsString

structure Plan where
  action : Action
  clientId : JsString
  configPath : JsString
  serverName : JsString
  changed : Bool
  dryRun : Bool
  writesPerformed : Bool
  backupId : Option FileName
  plannedWrites : List PlannedWrite
  config : Json
  generatedJson : List UInt8
  restartGuidance : JsString
  rawBackupPath : Option Path

structure InstalledState where
  installed : Bool
  serverEntryExists : Bool
  commandOk : Bool
  argsOk : Bool
  bundleEnvPresent : Bool
  bundleEnvOk : Bool
  envOk : Bool
  deriving DecidableEq

structure DetectResult where
  ok : Bool
  clientId : JsString
  displayName : JsString
  platform : Os
  configPath : JsString
  exists_ : Bool
  state : InstalledState
  action : Action
  repairReasons : List RepairReason
  parseError : Bool
  error : Option JsString
  restartGuidance : JsString

structure TestResult where
  ok : Bool
  parseOk : Bool
  entryPresent : Bool
  entryCorrect : Bool
  bundleOk : Bool
  restartNeeded : Bool
  details : List JsString

structure RepairResult where
  ok : Bool
  action : Action
  plan : Option Plan
  test : Option TestResult

/-- An operation of the engine on the files of the machine. -/
abbrev Engine := EStateM ConnectorError Files

/-- `result?` on the result of a system call. -/
def io {α : Type} (x : FileTree.Io FileName α) : Engine α := fun t =>
  match x t with
  | .ok a t => .ok a t
  | .error e t => .error (.io e) t

/-- The result of an operation as a value. -/
def attempt {α : Type} (x : Engine α) : Engine (Except ConnectorError α) := fun t =>
  match x t with
  | .ok a t => .ok (.ok a) t
  | .error e t => .ok (.error e) t

def liftExcept {α : Type} : Except ConnectorError α → Engine α
  | .ok a => pure a
  | .error e => throw e

/-! ## Redaction -/

/-- `s.replace(needle, text)`, with enough fuel for the length of `s`. -/
def replaceAll (needle text : JsString) : ℕ → JsString → JsString
  | 0, s => s
  | _, [] => []
  | n + 1, c :: s =>
    if needle.isPrefixOf (c :: s) then text ++ replaceAll needle text n ((c :: s).drop needle.length)
    else c :: replaceAll needle text n s

def redactPath (H : Host) (path : Path) (label : JsString) (redact : Bool) : JsString :=
  if redact then js "[redacted:" ++ label ++ js "]" else H.display path

def redactErrorMessage (H : Host) (message : JsString) (configPath : Path) (ctx : EngineContext) : JsString :=
  if ctx.redactPaths = false then message
  else
    let candidates := [configPath, ctx.homeDir, ctx.appDataDir, ctx.bundlePath].map H.display
    let redacted := (candidates.filter (· ≠ [])).foldl
      (fun text candidate => replaceAll candidate (js "[redacted:path]") text.length text) message
    replaceAll (js "[redacted:path]") (js "[redacted:config_path]") redacted.length redacted

/-! ## Configurations -/

mutual
/-- `a == b` on values: arrays item by item, objects key by key in whatever order. -/
def jsonEqual : Json → Json → Bool
  | .null, .null => true
  | .bool a, .bool b => a == b
  | .num a, .num b => a == b
  | .str a, .str b => a == b
  | .arr xs, .arr ys => jsonEqualItems xs ys
  | .obj fs, .obj gs => fs.length == gs.length && jsonEqualFields fs gs
  | _, _ => false

def jsonEqualItems : List Json → List Json → Bool
  | [], [] => true
  | x :: xs, y :: ys => jsonEqual x y && jsonEqualItems xs ys
  | _, _ => false

def jsonEqualFields : List (JsString × Json) → List (JsString × Json) → Bool
  | [], _ => true
  | (key, x) :: fs, gs =>
    (match gs.lookup key with
    | some y => jsonEqual x y
    | none => false) && jsonEqualFields fs gs
end

/-- A configuration from the bytes of its file. -/
def parseConfig (H : Host) (bytes : List UInt8) : Except ConnectorError Json :=
  match H.fromStr bytes with
  | .error message => .error (.configParse message)
  | .ok value => if value.1.isPlainRecord then .ok value.1 else .error .configType

def readExistingConfig (H : Host) (path : Path) : Engine (Option Json) := do
  let bytes ← io (FileTree.read path)
  let config ← liftExcept (parseConfig H bytes)
  return some config

/-- The configuration in a file, if there is a file. -/
def readJsonConfig (H : Host) (path : Path) : Engine (Option Json) := fun t =>
  if t.hasEntry path then readExistingConfig H path t else .ok none t

/-- The container at a path of keys, and the value with another container in its place. -/
def ensureContainer : Json → List JsString → Bool → Option (Json × (Json → Json))
  | cursor, [], _ => some (cursor, id)
  | cursor, segment :: path, create =>
    if cursor.isPlainRecord = false then none
    else
      match (cursor.get segment).or (if create then some (.obj []) else none) with
      | none => none
      | some child =>
        if child.isPlainRecord = false then none
        else (ensureContainer child path create).map fun c => (c.1, fun x => cursor.set segment (c.2 x))

def applyServer (config : Json) (profile : ClientProfile) (serverName : JsString) (serverEntry : Json) :
    Except ConnectorError Json :=
  match ensureContainer config profile.serverContainerPath true with
  | none => .error .configType
  | some (container, put) => .ok (put (container.set serverName serverEntry))

def removeServer (config : Json) (profile : ClientProfile) (serverName : JsString) : Json :=
  match ensureContainer config profile.serverContainerPath false with
  | none => config
  | some (container, put) => if container.isPlainRecord then put (container.without serverName) else config

def buildServerEntry (H : Host) (ctx : EngineContext) (opts : ConnectOptions) : Json :=
  let env : Json := opts.env.foldl (fun env e => env.set e.1 (.str e.2)) (.obj [])
  .obj [(js "command", .str (opts.commandOverride.getD ctx.mcpCommand)), (js "args", .arr (opts.args.map .str)),
    (js "env", env.set (js "ENIGMA_BUNDLE") (.str (H.display ctx.bundlePath)))]

def emptyInstalledState : InstalledState := ⟨false, false, false, false, false, false, false⟩

/-- `value.and_then(|v| v.as_str()).unwrap_or("")` -/
def asStr : Option Json → JsString
  | some (.str s) => s
  | _ => []

/-- The texts of an array, an item that is no string as the empty one. -/
def asStrings : Option Json → List JsString
  | some (.arr xs) => xs.map fun x => asStr (some x)
  | _ => []

/-- What an entry has of the entry that is expected. -/
def entryState (entry expected : Json) : InstalledState :=
  let actualEnv := (entry.get (js "env")).getD (.obj [])
  let expectedEnv := (expected.get (js "env")).getD (.obj [])
  let actualBundle := asStr (actualEnv.get (js "ENIGMA_BUNDLE"))
  { installed := true
    serverEntryExists := true
    commandOk := decide (asStr (entry.get (js "command")) = asStr (expected.get (js "command")))
    argsOk := decide (asStrings (entry.get (js "args")) = asStrings (expected.get (js "args")))
    bundleEnvPresent := decide (actualBundle ≠ [])
    bundleEnvOk := decide (actualBundle = asStr (expectedEnv.get (js "ENIGMA_BUNDLE")))
    envOk := jsonEqual actualEnv expectedEnv }

def installedState (H : Host) (config : Json) (profile : ClientProfile) (ctx : EngineContext) (opts : ConnectOptions) :
    InstalledState :=
  match ensureContainer config profile.serverContainerPath false with
  | none => emptyInstalledState
  | some (container, _) =>
    match container.get profile.serverName with
    | some (.obj fs) => entryState (.obj fs) (buildServerEntry H ctx opts)
    | _ => emptyInstalledState

def recommendedAction (state : InstalledState) (error : Option ConnectorError) : Action :=
  if error.isSome then .repair
  else if state.installed = false then .connect
  else if state.commandOk && state.argsOk && state.envOk then .alreadyConfigured
  else .repair

def repairReasons (hasConfig : Bool) (state : InstalledState) (error : Option ConnectorError) : List RepairReason :=
  match error with
  | some (.configParse _) => [.configJsonInvalid]
  | some .configType => [.configJsonNotObject]
  | some _ => [.configUnreadable]
  | none =>
    if hasConfig = false then [.clientConfigMissing]
    else if state.installed = false then [.enigmaServerMissing]
    else
      (if state.commandOk then [] else [.commandMismatch]) ++ (if state.argsOk then [] else [.argsMismatch]) ++
        if state.bundleEnvPresent = false then [.bundleEnvMissing]
        else if state.bundleEnvOk = false then [.bundleEnvMismatch]
        else if state.envOk = false then [.envMismatch]
        else []

/-! ## Backups -/

/-- The timestamp without its colons and points. -/
def timestampSuffix (H : Host) (now : ℤ) : FileName := (H.toRfc3339 now).filter fun c => c ≠ ':' ∧ c ≠ '.'

def backupPathFor (H : Host) (configPath : Path) (now : ℤ) : Path :=
  withExtension configPath (extension configPath ++ ".bak.".toList ++ timestampSuffix H now)

/-- The further names of one second. -/
def backupCandidate (H : Host) (configPath : Path) (now : ℤ) (index : ℕ) : Path :=
  withExtension configPath
    (extension configPath ++ ".bak.".toList ++ timestampSuffix H now ++ '.' :: (Nat.repr index).toList)

def unusedBackupPath (H : Host) (t : Files) (configPath : Path) (ctx : EngineContext) : Except ConnectorError Path :=
  let now := ctx.now.getD H.utcNow
  let base := backupPathFor H configPath now
  if t.hasEntry base = false then .ok base
  else
    match (List.range' 1 999).find? fun index => !t.hasEntry (backupCandidate H configPath now index) with
    | some index => .ok (backupCandidate H configPath now index)
    | none => .error (.other (js "Cannot allocate a unique backup path"))

def backupIdFromPath (path : Path) : FileName := fileStem path

/-- The names beside the configuration that begin as its backups do. -/
def backupCandidates (t : Files) (configPath : Path) : List FileName :=
  (t.readDir configPath.tail).filter fun name => (fileName configPath ++ ".bak.".toList).isPrefixOf name

/-- The last of the candidates in the order of names. -/
def findLatestBackup (t : Files) (configPath : Path) : Except ConnectorError Path :=
  match ((backupCandidates t configPath).insertionSort (· ≤ ·)).getLast? with
  | some name => .ok (name :: configPath.tail)
  | none => .error .noBackup

/-! ## Plans -/

def buildPlannedWrites (H : Host) (ctx : EngineContext) (label : JsString) (hasConfig changed dryRun : Bool)
    (configPath : Path) (nextConfig : Json) (backupPath : Option Path) : List PlannedWrite :=
  if dryRun || !changed then []
  else
    let preview := (path (some nextConfig) ["mcpServers", "enigma"]).map fun _ => js "Enigma MCP server entry"
    let write := ⟨.write, redactPath H configPath label ctx.redactPaths, preview⟩
    match hasConfig, backupPath with
    | true, some bp => [⟨.backup, redactPath H bp (js "backup") ctx.redactPaths, none⟩, write]
    | _, _ => [write]

/-- The backup of a plan that replaces a file, if it may take one. -/
def allocatedBackup (H : Host) (t : Files) (needed : Bool) (configPath : Path) (ctx : EngineContext) :
    Except ConnectorError (Option Path) :=
  if needed then (unusedBackupPath H t configPath ctx).map some else .ok none

/-- The plan that turns `existing`, if the file is there, into `nextConfig`. `actions` names a
plan that changes something and one that does not. -/
def planOf (H : Host) (client : ClientId) (ctx : EngineContext) (opts : ConnectOptions) (actions : Action × Action)
    (existing : Option Json) (nextConfig : Json) (rawBackupPath : Option Path) : Plan :=
  let profile := buildProfile client ctx
  let configPath := resolveConfigPath profile opts.configPathOverride
  let changed := !jsonEqual (existing.getD (.obj [])) nextConfig
  { action := if changed then actions.1 else actions.2
    clientId := client.asStr
    configPath := redactPath H configPath profile.publicConfigLabel ctx.redactPaths
    serverName := profile.serverName
    changed := changed
    dryRun := opts.dryRun
    writesPerformed := !opts.dryRun && changed
    backupId := rawBackupPath.map backupIdFromPath
    plannedWrites := buildPlannedWrites H ctx profile.publicConfigLabel existing.isSome changed opts.dryRun
      configPath nextConfig rawBackupPath
    config := nextConfig
    generatedJson := H.toStringPretty nextConfig ++ [10]
    restartGuidance := profile.restartGuidance
    rawBackupPath := rawBackupPath }

/-- What the two plan builders share; `next` is the configuration that they plan. -/
def planTo (H : Host) (client : ClientId) (ctx : EngineContext) (opts : ConnectOptions) (allocateBackup : Bool)
    (actions : Action × Action) (next : Json → Except ConnectorError Json) : Engine Plan := do
  let configPath := resolveConfigPath (buildProfile client ctx) opts.configPathOverride
  let existing ← readJsonConfig H configPath
  let nextConfig ← liftExcept (next (existing.getD (.obj [])))
  let changed := !jsonEqual (existing.getD (.obj [])) nextConfig
  let rawBackupPath ←
    liftExcept (allocatedBackup H (← get) (existing.isSome && changed && allocateBackup) configPath ctx)
  return planOf H client ctx opts actions existing nextConfig rawBackupPath

def buildConnectPlan (H : Host) (client : ClientId) (ctx : EngineContext) (opts : ConnectOptions)
    (allocateBackup : Bool) : Engine Plan :=
  planTo H client ctx opts allocateBackup (.connect, .alreadyConfigured) fun existing =>
    applyServer existing (buildProfile client ctx) (buildProfile client ctx).serverName (buildServerEntry H ctx opts)

def buildDisconnectPlan (H : Host) (client : ClientId) (ctx : EngineContext) (opts : ConnectOptions)
    (allocateBackup : Bool) : Engine Plan :=
  planTo H client ctx opts allocateBackup (.disconnect, .alreadyDisconnected) fun existing =>
    .ok (removeServer existing (buildProfile client ctx) (buildProfile client ctx).serverName)

def tempName (H : Host) (configPath : Path) (ctx : EngineContext) : FileName :=
  fileName configPath ++ ".tmp.".toList ++ (toString H.processId).toList ++ '.' :: (toString (ctx.now.getD 0)).toList ++
    ".tmp".toList

/-- The copy of the configuration that a plan keeps. -/
def backUp (configPath : Path) (backup : Option Path) : FileTree.Io FileName Unit := fun t =>
  match backup with
  | some backup => if t.hasEntry configPath then FileTree.copy configPath backup t else .ok () t
  | none => .ok () t

/-- The new text goes to a file beside the configuration, the old one to the backup, and then
the new file takes the place of the old one. -/
def replaceConfig (tempPath configPath : Path) (backup : Option Path) (json : List UInt8) : FileTree.Io FileName Unit := do
  FileTree.write tempPath json
  backUp configPath backup
  FileTree.rename tempPath configPath

/-- The error of an operation, after the file that it leaves behind has been removed. -/
def removedOnError (tempPath : Path) (x : FileTree.Io FileName Unit) : FileTree.Io FileName Unit := fun t =>
  match x t with
  | .ok u t => .ok u t
  | .error e t => .error e ((FileTree.removeFile tempPath).after t)

def writePlan (H : Host) (plan : Plan) (client : ClientId) (ctx : EngineContext) (opts : ConnectOptions) : Engine Plan := do
  let profile := buildProfile client ctx
  let configPath := resolveConfigPath profile opts.configPathOverride
  io (FileTree.createDirAll configPath.tail)
  let tempPath := withFileName configPath (tempName H configPath ctx)
  io (removedOnError tempPath (replaceConfig tempPath configPath plan.rawBackupPath plan.generatedJson))
  return { plan with writesPerformed := true }

/-! ## The operations -/

variable (H : Host) (client : ClientId) (ctx : EngineContext)

def detectBase : DetectResult :=
  let profile := buildProfile client ctx
  let configPath := resolveConfigPath profile none
  { ok := false
    clientId := client.asStr
    displayName := profile.displayName
    platform := ctx.platform
    configPath := redactPath H configPath profile.publicConfigLabel ctx.redactPaths
    exists_ := false
    state := emptyInstalledState
    action := .missingClientConfig
    repairReasons := [.clientConfigMissing]
    parseError := false
    error := none
    restartGuidance := profile.restartGuidance }

def ConnectorError.isParse : ConnectorError → Bool
  | configParse _ => true
  | configType => true
  | _ => false

/-- What is detected, from what reading the configuration has given. -/
def detected : Except ConnectorError (Option Json) → DetectResult
  | .ok none => detectBase H client ctx
  | .ok (some config) =>
    let state := installedState H config (buildProfile client ctx) ctx {}
    let action := recommendedAction state none
    { detectBase H client ctx with
      ok := decide (action = .alreadyConfigured ∨ action = .missingClientConfig)
      exists_ := true
      state := state
      action := action
      repairReasons := repairReasons true state none }
  | .error e =>
    { detectBase H client ctx with
      exists_ := true
      parseError := e.isParse
      action := recommendedAction emptyInstalledState (some e)
      repairReasons := repairReasons true emptyInstalledState (some e)
      error := some (redactErrorMessage H (e.message H) (resolveConfigPath (buildProfile client ctx) none) ctx) }

def detect : Engine DetectResult := do
  return detected H client ctx (← attempt (readJsonConfig H (resolveConfigPath (buildProfile client ctx) none)))

def previewConnect (opts : ConnectOptions) : Engine Plan := buildConnectPlan H client ctx opts false

/-- What `connect` and `disconnect` do with their plan. -/
def carryOut (opts : ConnectOptions) (plan : Plan) : Engine Plan :=
  if plan.dryRun || !plan.changed then pure plan
  else if opts.confirmed = false then throw .consentRequired
  else writePlan H plan client ctx opts

def connect (opts : ConnectOptions) : Engine Plan := do
  let plan ← buildConnectPlan H client ctx opts true
  carryOut H client ctx opts plan

def previewDisconnect (opts : ConnectOptions) : Engine Plan := buildDisconnectPlan H client ctx opts false

def disconnect (opts : ConnectOptions) : Engine Plan := do
  let plan ← buildDisconnectPlan H client ctx opts true
  carryOut H client ctx opts plan

/-- The backup that is restored. -/
def chosenBackup (t : Files) (configPath : Path) (opts : RollbackOptions) : Except ConnectorError Path := do
  let backupPath ← match opts.backupPath with
    | some p => .ok p
    | none => findLatestBackup t configPath
  if t.hasEntry backupPath then .ok backupPath else .error .noBackup

def rollbackInternal (opts : RollbackOptions) : Engine Plan := do
  let profile := buildProfile client ctx
  let configPath := resolveConfigPath profile none
  let backupPath ← liftExcept (chosenBackup (← get) configPath opts)
  io (FileTree.copy backupPath configPath)
  return {
    action := .rollback
    clientId := client.asStr
    configPath := redactPath H configPath profile.publicConfigLabel ctx.redactPaths
    serverName := profile.serverName
    changed := true
    dryRun := false
    writesPerformed := true
    backupId := some (backupIdFromPath backupPath)
    plannedWrites := [⟨.restore, redactPath H backupPath (js "backup") ctx.redactPaths, none⟩]
    config := .null
    generatedJson := []
    restartGuidance := profile.restartGuidance
    rawBackupPath := some backupPath }

def rollback (opts : RollbackOptions) : Engine Plan :=
  if opts.confirmed = false then throw .consentRequired else rollbackInternal H client ctx opts

/-- The result of a test, from what reading the configuration has given. -/
def tested (bundleOk : Bool) (config : Except ConnectorError (Option Json)) : TestResult :=
  let state := match config with
    | .ok (some config) => installedState H config (buildProfile client ctx) ctx {}
    | _ => emptyInstalledState
  let parseOk := match config with
    | .ok _ => true
    | .error _ => false
  let present := state.serverEntryExists
  let correct := state.commandOk && state.argsOk && state.envOk
  { ok := parseOk && present && correct && bundleOk
    parseOk := parseOk
    entryPresent := present
    entryCorrect := correct
    bundleOk := bundleOk
    restartNeeded := false
    details :=
      (match config with
        | .ok none => [js "Config file does not exist."]
        | .ok (some _) => js "Config file parsed successfully." ::
          (if present then [js "Enigma MCP server entry is present."] else []) ++
            if correct then [js "Enigma MCP server entry matches expected values."] else []
        | .error e => [js "Config parse failed: " ++
          redactErrorMessage H (e.message H) (resolveConfigPath (buildProfile client ctx) none) ctx]) ++
        [if bundleOk then js "Local vault bundle is reachable." else js "Local vault bundle is missing."] }

def test : Engine TestResult := do
  let config ← attempt (readJsonConfig H (resolveConfigPath (buildProfile client ctx) none))
  return tested H client ctx ((← get).hasEntry ctx.bundlePath) config

def repair (opts : ConnectOptions) : Engine RepairResult := do
  let detection ← detect H client ctx
  if detection.parseError then
    let latest ← liftExcept (findLatestBackup (← get) (resolveConfigPath (buildProfile client ctx) none))
    let plan ← rollbackInternal H client ctx ⟨some latest, opts.confirmed⟩
    return ⟨true, .rollback, some plan, none⟩
  else if detection.action = .alreadyConfigured then
    let result ← test H client ctx
    return ⟨result.ok, .test, none, some result⟩
  else
    let plan ← connect H client ctx opts
    return ⟨true, .connect, some plan, none⟩

end EnigmaMemory.Connector

/-!
## The configuration of a client

`packages/connectors/src/index.js`: how the command line puts the entry of the server into the configuration of a client and
takes it out again. A configuration is parsed JSON, so its clone is the configuration itself.
-/

namespace EnigmaMemory.ClientConfig

open Json

def MCP_CONTAINER_PATH : List JsString := [js "mcpServers"]

def DEFAULT_SERVER_NAME : JsString := js "enigma"

def invalidConfig (segment : JsString) (text : String) : JsError :=
  ⟨.error, js "Invalid connector config: " ++ segment ++ js text⟩

/-- The container at a path of keys, if there is one, and the value with another container in its place. -/
def ensureContainer : Json → List JsString → Bool → Except JsError (Option (Json × (Json → Json)))
  | cursor, [], _ => .ok (some (cursor, id))
  | cursor, segment :: path, create =>
    if cursor.isPlainRecord = false then .error (invalidConfig segment " parent is not an object.")
    else
      match (cursor.get segment).or (if create then some (.obj []) else none) with
      | none => .ok none
      | some child =>
        if child.isPlainRecord = false then .error (invalidConfig segment " is not an object.")
        else (ensureContainer child path create).map (Option.map fun c => (c.1, fun x => cursor.set segment (c.2 x)))

def applyServer (config : Json) (path : List JsString) (serverName : JsString) (serverEntry : Json) : Except JsError Json := do
  match ← ensureContainer config path true with
  | some (container, put) => return put (container.set serverName serverEntry)
  -- a container that is created is never undefined
  | none => .error ⟨.typeError, []⟩

def removeServer (config : Json) (path : List JsString) (serverName : JsString) : Except JsError Json := do
  match ← ensureContainer config path false with
  | some (container, put) => return if (container.get serverName).isSome then put (container.without serverName) else config
  | none => return config

end EnigmaMemory.ClientConfig
