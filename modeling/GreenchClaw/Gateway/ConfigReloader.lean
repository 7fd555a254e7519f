import GreenchClaw.Gateway.ConfigDiff

/-!
# What a change of the configuration asks for

`src/gateway/config-reload-plan.ts`, `src/gateway/config-reload-settings.ts` and the decision of
`applySnapshot` in `src/gateway/config-reload.ts`: the first rule that matches a changed path says
whether the gateway restarts, reloads a part of itself or does nothing.
-/

namespace GreenchClaw.Gateway

open GreenchClaw.Js
open GreenchClaw.Config (JsonValue ParsedConfig)

/-! ## Rules -/

inductive ReloadAction where
  | reloadHooks
  | restartGmailWatcher
  | restartCron
  | restartHeartbeat
  | restartHealthMonitor
  | reloadPlugins
  | disposeMcpRuntimes
  | restartChannel (channel : JsString)
  deriving DecidableEq

inductive ReloadKind where
  | restart
  | hot
  | none
  deriving DecidableEq

structure ReloadRule where
  path : JsString
  kind : ReloadKind
  actions : List ReloadAction := []
  deriving DecidableEq

def rule (path : String) (kind : ReloadKind) (actions : List ReloadAction) : ReloadRule :=
  { path := js path, kind, actions }

def BASE_RELOAD_RULES : List ReloadRule :=
  [rule "gateway.remote" .none [], rule "gateway.reload" .none [],
    rule "gateway.channelHealthCheckMinutes" .hot [.restartHealthMonitor],
    rule "gateway.channelStaleEventThresholdMinutes" .hot [.restartHealthMonitor],
    rule "gateway.channelMaxRestartsPerHour" .hot [.restartHealthMonitor],
    rule "diagnostics.stuckSessionWarnMs" .none [],
    rule "diagnostics.stuckSessionAbortMs" .none [],
    rule "hooks.gmail" .hot [.restartGmailWatcher], rule "hooks" .hot [.reloadHooks],
    rule "agents.defaults.heartbeat" .hot [.restartHeartbeat],
    rule "agents.defaults.models" .hot [.restartHeartbeat],
    rule "agents.defaults.model" .hot [.restartHeartbeat], rule "models.pricing" .restart [],
    rule "models" .hot [.restartHeartbeat], rule "agents.list" .hot [.restartHeartbeat],
    rule "agent.heartbeat" .hot [.restartHeartbeat], rule "cron" .hot [.restartCron],
    rule "mcp" .hot [.disposeMcpRuntimes], rule "plugins.load" .restart [],
    rule "plugins.installs" .restart []]

def BASE_RELOAD_RULES_TAIL : List ReloadRule :=
  [rule "meta" .none [], rule "identity" .none [], rule "wizard" .none [],
    rule "logging" .none [], rule "agents" .none [], rule "tools" .none [],
    rule "bindings" .none [], rule "audio" .none [], rule "agent" .none [],
    rule "routing" .none [], rule "messages" .none [], rule "session" .none [],
    rule "talk" .none [], rule "skills" .none [], rule "secrets" .none [],
    rule "plugins" .hot [.reloadPlugins, .disposeMcpRuntimes], rule "ui" .none [],
    rule "gateway" .restart [], rule "discovery" .restart []]

structure ChannelPlugin where
  id : JsString
  configPrefixes : List JsString := []
  noopPrefixes : List JsString := []

structure ReloadRegistration where
  restartPrefixes : List JsString := []
  hotPrefixes : List JsString := []
  noopPrefixes : List JsString := []

structure ReloadRegistry where
  channelPlugins : List ChannelPlugin := []
  reloads : List ReloadRegistration := []

def listReloadRules (registry : ReloadRegistry) : List ReloadRule :=
  let channelReloadRules := registry.channelPlugins.flatMap fun plugin =>
    (plugin.configPrefixes.map fun path =>
      { path, kind := .hot, actions := [.restartChannel plugin.id] }) ++
    plugin.noopPrefixes.map fun path => { path, kind := .none }
  let channelPluginStateRules := registry.channelPlugins.map fun plugin =>
    { path := js "plugins.entries." ++ plugin.id
      kind := .hot
      actions := [.reloadPlugins, .disposeMcpRuntimes, .restartChannel plugin.id] }
  let pluginReloadRules := registry.reloads.flatMap fun registration =>
    (registration.restartPrefixes.map fun path => { path, kind := .restart }) ++
    (registration.hotPrefixes.map fun path => { path, kind := .hot }) ++
    registration.noopPrefixes.map fun path => { path, kind := .none }
  BASE_RELOAD_RULES ++ pluginReloadRules ++ channelReloadRules ++ channelPluginStateRules ++
    BASE_RELOAD_RULES_TAIL

def matchRule (rules : List ReloadRule) (path : JsString) : Option ReloadRule :=
  rules.find? fun rule => path = rule.path || (rule.path ++ js ".").isPrefixOf path

/-! ## Records of installed plugins -/

section Installs

variable {N : Type} [DecidableEq N]

def member (value : Option (JsonValue N)) (key : String) : Option (JsonValue N) :=
  match value with
  | some (.object entries) => Record.get entries (js key)
  | _ => none

abbrev PluginInstallRecords (N : Type) := Record (JsonValue N)

def asPluginInstallConfig (records : PluginInstallRecords N) : JsonValue N :=
  .object [(js "plugins", .object [(js "installs", .object records)])]

def getPluginInstallRecords (config : JsonValue N) : PluginInstallRecords N :=
  match member (member (some config) "plugins") "installs" with
  | some (.object installs) => installs
  | _ => []

def isPluginInstallTimestampPath (path : JsString) : Bool :=
  let start := js "plugins.installs."
  let isLineEnd (u : CodeUnit) : Bool := u == 10 || u == 13 || u == 0x2028 || u == 0x2029
  [js ".installedAt", js ".resolvedAt"].any fun tail =>
    let name := (path.drop start.length).take (path.length - start.length - tail.length)
    start.isPrefixOf path && path == start ++ name ++ tail && name ≠ [] && !name.any isLineEnd

def recordIds (prev next : PluginInstallRecords N) : List JsString :=
  (prev.map Prod.fst ++ next.map Prod.fst).dedup

/-- `prevRecord[key] === nextRecord[key]`: two containers are never the same object. -/
def sameMember (prev next : Option (JsonValue N)) : Bool :=
  match prev, next with
  | none, none => true
  | some a, some b => samePrimitive a b
  | _, _ => false

def listPluginInstallTimestampMetadataPaths (prevConfig nextConfig : JsonValue N) :
    List JsString :=
  let prevInstalls := getPluginInstallRecords prevConfig
  let nextInstalls := getPluginInstallRecords nextConfig
  (recordIds prevInstalls nextInstalls).flatMap fun id =>
    match prevInstalls.get id, nextInstalls.get id with
    | some (.object prevRecord), some (.object nextRecord) =>
        ["installedAt", "resolvedAt"].filterMap fun key =>
          if sameMember (Record.get prevRecord (js key)) (Record.get nextRecord (js key)) then none
          else some (js "plugins.installs." ++ id ++ js "." ++ js key)
    | _, _ => []

def listPluginInstallWholeRecordPaths (prevConfig nextConfig : JsonValue N) : List JsString :=
  let prevInstalls := getPluginInstallRecords prevConfig
  let nextInstalls := getPluginInstallRecords nextConfig
  (recordIds prevInstalls nextInstalls).filterMap fun id =>
    match prevInstalls.get id, nextInstalls.get id with
    | some (.object _), some (.object _) => none
    | _, _ => some (js "plugins.installs." ++ id)

end Installs

/-! ## The plan -/

structure GatewayReloadPlan where
  changedPaths : List JsString
  restartGateway : Bool := false
  restartReasons : List JsString := []
  hotReasons : List JsString := []
  reloadHooks : Bool := false
  restartGmailWatcher : Bool := false
  restartCron : Bool := false
  restartHeartbeat : Bool := false
  restartHealthMonitor : Bool := false
  reloadPlugins : Bool := false
  restartChannels : List JsString := []
  disposeMcpRuntimes : Bool := false
  noopPaths : List JsString := []

namespace GatewayReloadPlan

def applyAction (plan : GatewayReloadPlan) : ReloadAction → GatewayReloadPlan
  | .reloadHooks => { plan with reloadHooks := true }
  | .restartGmailWatcher => { plan with restartGmailWatcher := true }
  | .restartCron => { plan with restartCron := true }
  | .restartHeartbeat => { plan with restartHeartbeat := true }
  | .restartHealthMonitor => { plan with restartHealthMonitor := true }
  | .reloadPlugins => { plan with reloadPlugins := true }
  | .disposeMcpRuntimes => { plan with disposeMcpRuntimes := true }
  | .restartChannel channel =>
      { plan with restartChannels := plan.restartChannels.insert channel }

def requireRestart (plan : GatewayReloadPlan) (reason : JsString) : GatewayReloadPlan :=
  { plan with
    restartGateway := true
    restartReasons := plan.restartReasons ++ [reason] }

def addPath (rules : List ReloadRule) (noopPaths forceChangedPaths : List JsString)
    (plan : GatewayReloadPlan) (path : JsString) : GatewayReloadPlan :=
  let isTimestampNoop := !forceChangedPaths.contains path &&
    (if noopPaths.isEmpty then isPluginInstallTimestampPath path else noopPaths.contains path)
  if isTimestampNoop then { plan with noopPaths := plan.noopPaths ++ [path] }
  else
    match matchRule rules path with
    | none => plan.requireRestart path
    | some rule =>
        match rule.kind with
        | .restart => plan.requireRestart path
        | .none => { plan with noopPaths := plan.noopPaths ++ [path] }
        | .hot =>
            rule.actions.foldl applyAction { plan with hotReasons := plan.hotReasons ++ [path] }

def isNoop (plan : GatewayReloadPlan) : Bool :=
  !plan.restartGateway && plan.hotReasons.isEmpty && !plan.reloadHooks &&
    !plan.restartGmailWatcher && !plan.restartCron && !plan.restartHeartbeat &&
    !plan.restartHealthMonitor && !plan.reloadPlugins && !plan.disposeMcpRuntimes &&
    plan.restartChannels.isEmpty

end GatewayReloadPlan

def buildGatewayReloadPlan (rules : List ReloadRule)
    (changedPaths noopPaths forceChangedPaths : List JsString) : GatewayReloadPlan :=
  let plan := changedPaths.foldl (GatewayReloadPlan.addPath rules noopPaths forceChangedPaths)
    { changedPaths }
  if plan.restartGmailWatcher then { plan with reloadHooks := true } else plan

/-! ## The decision -/

inductive GatewayReloadMode where
  | off
  | restart
  | hot
  | hybrid
  deriving DecidableEq

def reloadMode {N : Type} (cfg : JsonValue N) : GatewayReloadMode :=
  match member (member (member (some cfg) "gateway") "reload") "mode" with
  | some (.string text) =>
      if text = js "off" then .off
      else if text = js "restart" then .restart
      else if text = js "hot" then .hot
      else .hybrid
  | _ => .hybrid

inductive ConfigWriteAfterWrite where
  | auto
  | restart (reason : JsString)
  | none (reason : JsString)
  deriving DecidableEq

/-- The call of a handler that a change asks for, with the plan. -/
inductive ReloadRequest where
  | hotReload (plan : GatewayReloadPlan)
  | restart (plan : GatewayReloadPlan)

/-- The end of `applySnapshot`. -/
def reloadRequest (mode : GatewayReloadMode) (afterWrite : ConfigWriteAfterWrite)
    (changedPaths : List JsString) (plan : GatewayReloadPlan) : Option ReloadRequest :=
  if changedPaths = [] then none
  else
    match afterWrite with
    | .none _ => none
    | .restart reason =>
        if mode = .off then none
        else some (.restart (plan.requireRestart reason))
    | .auto =>
        if plan.isNoop then none
        else
          match mode with
          | .off => none
          | .restart => some (.restart plan)
          | .hot => if plan.restartGateway then none else some (.hotReload plan)
          | .hybrid => if plan.restartGateway then some (.restart plan) else some (.hotReload plan)

/-!
## The config reloader

`startGatewayConfigReloader` in `src/gateway/config-reload.ts`, between two of its awaits at a
time.  Watcher events and notifications of writes of this process share one timer; a run takes the
pending write, or it reads the file.
-/

/-- What a text of the config file stands for; no text is a missing file. -/
structure ReloadHost (R N H : Type) where
  hash : Option R → H
  hash_injective : Function.Injective hash
  valid : Option R → Bool
  config : Option R → ParsedConfig N
  sourceConfig : Option R → ParsedConfig N
  registry : ReloadRegistry

structure InProcessWrite (R N : Type) where
  serial : ℕ
  file : R
  runtimeConfig : ParsedConfig N
  afterWrite : ConfigWriteAfterWrite

/-- The arguments of `applySnapshot`, and the write they come from. -/
structure ReloadTarget (N : Type) where
  config : ParsedConfig N
  compareConfig : ParsedConfig N
  afterWrite : ConfigWriteAfterWrite := .auto
  serial : Option ℕ := none

/-- One run of `applySnapshot` past its await. -/
structure Application (N : Type) where
  target : ReloadTarget N
  prev : ParsedConfig N
  prevRecords : PluginInstallRecords N
  nextRecords : PluginInstallRecords N
  passed : Bool := false

inductive ReloadRun (R N : Type) where
  | reading
  | read (file : Option R)
  | applying (target : ReloadTarget N)
  | hotReloading (application : ℕ)
  | promoting

structure ConfigReloader (R N H : Type) where
  disk : Option R
  /-- The edits whose watcher event is still to come. -/
  undelivered : ℕ := 0
  /-- The writes whose notification is still to come. -/
  unnotified : List (InProcessWrite R N) := []
  nextSerial : ℕ := 0
  currentCompareConfig : ParsedConfig N
  currentPluginInstallRecords : PluginInstallRecords N
  debounceTimer : Bool := false
  pending : Bool := false
  run : Option (ReloadRun R N) := none
  restartQueued : Bool := false
  /-- The application whose `onRestart` is awaited. -/
  restartCall : Option ℕ := none
  missingConfigRetries : ℕ := 0
  pendingInProcessConfig : Option (InProcessWrite R N) := none
  lastAppliedWriteHash : Option H := none
  applied : List (Application N) := []
  failed : List ℕ := []

variable {R N H : Type} [DecidableEq N] [DecidableEq H] (host : ReloadHost R N H)

namespace Application

variable (app : Application N)

def configChangedPaths : List JsString :=
  diffConfigPaths [] app.prev.value app.target.compareConfig.value

def recordChangedPaths : List JsString :=
  diffConfigPaths [] (asPluginInstallConfig app.prevRecords) (asPluginInstallConfig app.nextRecords)

def changedPaths : List JsString := app.configChangedPaths ++ app.recordChangedPaths

def plan : GatewayReloadPlan :=
  let prevInstalls := asPluginInstallConfig app.prevRecords
  let nextInstalls := asPluginInstallConfig app.nextRecords
  buildGatewayReloadPlan (listReloadRules host.registry) app.changedPaths
    (listPluginInstallTimestampMetadataPaths app.prev.value app.target.compareConfig.value ++
      listPluginInstallTimestampMetadataPaths prevInstalls nextInstalls)
    (listPluginInstallWholeRecordPaths app.prev.value app.target.compareConfig.value ++
      listPluginInstallWholeRecordPaths prevInstalls nextInstalls)

def request : Option ReloadRequest :=
  reloadRequest (reloadMode app.target.config.value) app.target.afterWrite app.changedPaths
    (app.plan host)

end Application

namespace ConfigReloader

def MISSING_CONFIG_MAX_RETRIES : ℕ := 2

variable (s : ConfigReloader R N H)

/-- The end of `runReload`. -/
def finish : ConfigReloader R N H :=
  if s.pending then { s with run := none, pending := false, debounceTimer := true }
  else { s with run := none }

def runReload : ConfigReloader R N H :=
  match s.run with
  | some _ => { s with pending := true }
  | none =>
      match s.pendingInProcessConfig with
      | some write =>
          { s with
            debounceTimer := false
            pendingInProcessConfig := none
            missingConfigRetries := 0
            run := some (.applying
              { config := write.runtimeConfig
                compareConfig := host.sourceConfig (some write.file)
                afterWrite := write.afterWrite
                serial := some write.serial }) }
      | none => { s with debounceTimer := false, run := some .reading }

def resumeRead (file : Option R) : ConfigReloader R N H :=
  if s.lastAppliedWriteHash = some (host.hash file) then s.finish
  else
    match file with
    | none =>
        if s.missingConfigRetries < MISSING_CONFIG_MAX_RETRIES then
          finish
            { s with
              lastAppliedWriteHash := none
              missingConfigRetries := s.missingConfigRetries + 1
              debounceTimer := true }
        else finish { s with lastAppliedWriteHash := none }
    | some _ =>
        if host.valid file then
          { s with
            lastAppliedWriteHash := none
            missingConfigRetries := 0
            run := some (.applying
              { config := host.config file, compareConfig := host.sourceConfig file }) }
        else finish { s with lastAppliedWriteHash := none, missingConfigRetries := 0 }

/-- The application that `applySnapshot` makes, with the records when they could be read. -/
def application (target : ReloadTarget N) (records : Option (PluginInstallRecords N)) :
    Application N :=
  { target
    prev := s.currentCompareConfig
    prevRecords := s.currentPluginInstallRecords
    nextRecords := records.getD s.currentPluginInstallRecords }

def advance (app : Application N) : ConfigReloader R N H :=
  { s with
    currentCompareConfig := app.target.compareConfig
    currentPluginInstallRecords := app.nextRecords
    applied := s.applied ++ [app]
    run := some .promoting }

/-- `applySnapshot` past its await.  A restart that is queued keeps others from being queued. -/
def applySnapshot (app : Application N) : ConfigReloader R N H :=
  match app.request host with
  | none => s.advance app
  | some (.hotReload _) =>
      { s.advance { app with passed := true } with
        run := some (.hotReloading s.applied.length) }
  | some (.restart _) =>
      if s.restartQueued then s.advance app
      else
        { s.advance { app with passed := true } with
          restartQueued := true
          restartCall := some s.applied.length }

structure Quiescent : Prop where
  debounceTimer : s.debounceTimer = false
  run : s.run = none
  pending : s.pending = false
  pendingInProcessConfig : s.pendingInProcessConfig = none
  undelivered : s.undelivered = 0

end ConfigReloader

/-! ## Runs -/

inductive ReloadOp (R N : Type) where
  | edit (file : Option R)
  | write (file : R) (runtimeConfig : ParsedConfig N) (afterWrite : ConfigWriteAfterWrite)
  | notify (serial : ℕ)
  /-- The watcher event of an edit or a write. -/
  | watch
  | timer
  | read
  | resume
  /-- The install records were read, or they could not be. -/
  | records (records : Option (PluginInstallRecords N))
  | hotReloaded (succeeds : Bool)
  | restarted (succeeds : Bool)
  | promoted

def reloadStep (s : ConfigReloader R N H) : ReloadOp R N → Option (ConfigReloader R N H)
  | .edit file => some { s with disk := file, undelivered := s.undelivered + 1 }
  | .write file runtimeConfig afterWrite =>
      some
        { s with
          disk := some file
          undelivered := s.undelivered + 1
          unnotified := s.unnotified ++ [{ serial := s.nextSerial, file, runtimeConfig, afterWrite }]
          nextSerial := s.nextSerial + 1 }
  | .notify serial =>
      match s.unnotified.find? fun write => write.serial = serial with
      | none => none
      | some write =>
          some
            { s with
              unnotified := s.unnotified.filter fun write => write.serial ≠ serial
              pendingInProcessConfig := some write
              lastAppliedWriteHash := some (host.hash (some write.file))
              debounceTimer := true }
  | .watch =>
      if s.undelivered = 0 then none
      else some { s with undelivered := s.undelivered - 1, debounceTimer := true }
  | .timer =>
      if s.debounceTimer then some (ConfigReloader.runReload host { s with debounceTimer := false })
      else none
  | .read =>
      match s.run with
      | some .reading => some { s with run := some (.read s.disk) }
      | _ => none
  | .resume =>
      match s.run with
      | some (.read file) => some (s.resumeRead host file)
      | _ => none
  | .records records =>
      match s.run with
      | some (.applying target) => some (s.applySnapshot host (s.application target records))
      | _ => none
  | .hotReloaded succeeds =>
      match s.run with
      | some (.hotReloading application) =>
          if succeeds then some { s with run := some .promoting }
          else some (ConfigReloader.finish { s with failed := s.failed ++ [application] })
      | _ => none
  | .restarted succeeds =>
      match s.restartCall with
      | none => none
      | some application =>
          if succeeds then some { s with restartCall := none }
          else
            some
              { s with
                restartCall := none
                restartQueued := false
                failed := s.failed ++ [application] }
  | .promoted =>
      match s.run with
      | some .promoting => some s.finish
      | _ => none

def startGatewayConfigReloader (file : R) (records : PluginInstallRecords N)
    (internalWrite : Bool) : ConfigReloader R N H :=
  { disk := some file
    currentCompareConfig := host.sourceConfig (some file)
    currentPluginInstallRecords := records
    lastAppliedWriteHash := if internalWrite then some (host.hash (some file)) else none }

end GreenchClaw.Gateway
