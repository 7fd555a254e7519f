import GreenchClaw.Approvals.ExecApprovalManager
import GreenchClaw.Config.EnvSubstitution
import GreenchClaw.Js.Record

/-!
# What an approval binds

`src/infra/system-run-approval-binding.ts` and `src/infra/system-run-approval-context.ts`: the
command line, the directory, the agent, the session and the environment that a `system.run`
approval is for, and the comparison of a request with them.
-/

namespace GreenchClaw.Approvals

open GreenchClaw.Js
open GreenchClaw.Config (JsonValue)

variable {N : Type}

structure GuardError (N : Type) where
  message : JsString
  details : Record (JsonValue N) := []

structure RunHost (N : Type) where
  /-- `String(value)`. -/
  valueText : JsonValue N → JsString
  valueText_string : ∀ text, valueText (.string text) = text
  isFinite : N → Bool
  /-- `Number.isInteger(value) && value >= 0`. -/
  isIndex : N → Bool
  /-- `left.localeCompare(right) <= 0`. -/
  localeLe : JsString → JsString → Bool
  /-- The SHA-256 digest of the JSON text of the entries. -/
  hashEntries : List (JsString × JsString) → JsString
  /-- `validateSystemRunCommandConsistency`, for the text of the command. -/
  validateCommand : List JsString → Option JsString → Except (GuardError N) JsString

/-! ## Values -/

def normalizeNullableString (value : Option (JsonValue N)) : Option JsString :=
  match value with
  | some (.string text) => normalizeOptionalString (some text)
  | _ => none

def normalizeNonEmptyString (value : Option (JsonValue N)) : Option JsString :=
  normalizeNullableString value

def normalizeStringArray (host : RunHost N) (value : Option (JsonValue N)) : List JsString :=
  match value with
  | some (.array items) => items.map host.valueText
  | _ => []

/-! ## Plans -/

structure SystemRunApprovalFileOperand (N : Type) where
  argvIndex : N
  path : JsString
  sha256 : JsString

structure SystemRunApprovalPlan (N : Type) where
  argv : List JsString
  cwd : Option JsString := none
  commandText : JsString
  commandPreview : Option JsString := none
  agentId : Option JsString := none
  sessionKey : Option JsString := none
  /-- Absent, `null` or an operand. -/
  mutableFileOperand : Option (Option (SystemRunApprovalFileOperand N)) := none

def normalizeSystemRunApprovalFileOperand (host : RunHost N)
    (candidate : SystemRunApprovalFileOperand N) : Option (SystemRunApprovalFileOperand N) :=
  match normalizeOptionalString (some candidate.path),
      normalizeOptionalString (some candidate.sha256) with
  | some path, some sha256 =>
      if host.isIndex candidate.argvIndex then some { argvIndex := candidate.argvIndex, path, sha256 }
      else none
  | _, _ => none

def normalizeSystemRunApprovalPlan (host : RunHost N) (plan : SystemRunApprovalPlan N) :
    Option (SystemRunApprovalPlan N) :=
  let operand := plan.mutableFileOperand.map fun candidate =>
    candidate.bind (normalizeSystemRunApprovalFileOperand host)
  match normalizeOptionalString (some plan.commandText) with
  | none => none
  | some commandText =>
      if plan.argv = [] then none
      else if operand.any Option.isNone then none
      else
        some
          { argv := plan.argv
            cwd := normalizeOptionalString plan.cwd
            commandText
            commandPreview := normalizeOptionalString plan.commandPreview
            agentId := normalizeOptionalString plan.agentId
            sessionKey := normalizeOptionalString plan.sessionKey
            mutableFileOperand := operand }

def optionalString (value : Option JsString) : JsonValue N :=
  match value with
  | none => .null
  | some text => .string text

def SystemRunApprovalFileOperand.toJson (operand : SystemRunApprovalFileOperand N) : JsonValue N :=
  .object
    [(js "argvIndex", .number operand.argvIndex), (js "path", .string operand.path),
      (js "sha256", .string operand.sha256)]

def SystemRunApprovalPlan.toJson (plan : SystemRunApprovalPlan N) : JsonValue N :=
  .object
    ([(js "argv", .array (plan.argv.map .string)), (js "cwd", optionalString plan.cwd),
      (js "commandText", .string plan.commandText),
      (js "commandPreview", optionalString plan.commandPreview),
      (js "agentId", optionalString plan.agentId),
      (js "sessionKey", optionalString plan.sessionKey)] ++
      (plan.mutableFileOperand.bind id).toList.map fun operand =>
        (js "mutableFileOperand", operand.toJson))

/-! ## Bindings -/

structure SystemRunApprovalBinding where
  argv : List JsString
  cwd : Option JsString := none
  agentId : Option JsString := none
  sessionKey : Option JsString := none
  envHash : Option JsString := none
  deriving DecidableEq

def isLetter (u : CodeUnit) : Bool :=
  (unit 'A' ≤ u && u ≤ unit 'Z') || (unit 'a' ≤ u && u ≤ unit 'z') || u == unit '_'

def isPortableKeyUnit (u : CodeUnit) : Bool := isLetter u || (unit '0' ≤ u && u ≤ unit '9')

/-- The text matches `/^[A-Za-z_]unit*$/`. -/
def matchesEnvVarKey (isUnit : CodeUnit → Bool) : JsString → Bool
  | [] => false
  | u :: rest => isLetter u && rest.all isUnit

def normalizeHostOverrideEnvVarKey (rawKey : JsString) : Option JsString :=
  let key := trim rawKey
  if key = [] then none
  else if matchesEnvVarKey isPortableKeyUnit key ||
      matchesEnvVarKey (fun u => isPortableKeyUnit u || u == unit '(' || u == unit ')') key then
    some key
  else none

def normalizeSystemRunEnvEntries (host : RunHost N) (env : Option (JsonValue N)) :
    List (JsString × JsString) :=
  match env with
  | some (.object entries) =>
      (entries.filterMap fun entry =>
        match entry.2 with
        | .string value => (normalizeHostOverrideEnvVarKey entry.1).map fun key => (key, value)
        | _ => none).mergeSort fun left right => host.localeLe left.1 right.1
  | _ => []

def hashSystemRunEnvEntries (host : RunHost N) (entries : List (JsString × JsString)) :
    Option JsString :=
  if entries = [] then none else some (host.hashEntries entries)

def buildSystemRunApprovalBinding (host : RunHost N) (argv : List JsString)
    (cwd agentId sessionKey : Option JsString) (env : Option (JsonValue N)) :
    SystemRunApprovalBinding × List JsString :=
  let entries := normalizeSystemRunEnvEntries host env
  ({ argv
     cwd := normalizeOptionalString cwd
     agentId := normalizeOptionalString agentId
     sessionKey := normalizeOptionalString sessionKey
     envHash := hashSystemRunEnvEntries host entries },
    entries.map Prod.fst)

inductive SystemRunApprovalMatchResult (N : Type) where
  | ok
  | mismatch (code message : JsString) (details : Record (JsonValue N))

def requestMismatch (details : Record (JsonValue N)) : SystemRunApprovalMatchResult N :=
  .mismatch (js "APPROVAL_REQUEST_MISMATCH") (js "approval id does not match request") details

def envKeysDetail (envKeys : List JsString) : Record (JsonValue N) :=
  [(js "envKeys", .array (envKeys.map .string))]

def matchSystemRunApprovalEnvHash (expectedEnvHash actualEnvHash : Option JsString)
    (actualEnvKeys : List JsString) : SystemRunApprovalMatchResult N :=
  let bindingMissing := SystemRunApprovalMatchResult.mismatch (js "APPROVAL_ENV_BINDING_MISSING")
    (js "approval id missing env binding for requested env overrides") (envKeysDetail actualEnvKeys)
  if expectedEnvHash.getD [] = [] ∧ actualEnvHash.getD [] = [] ∧ actualEnvKeys ≠ [] then
    bindingMissing
  else if expectedEnvHash.getD [] = [] ∧ actualEnvHash.getD [] = [] then .ok
  else if expectedEnvHash.getD [] = [] then bindingMissing
  else if expectedEnvHash ≠ actualEnvHash then
    .mismatch (js "APPROVAL_ENV_MISMATCH") (js "approval id env binding mismatch")
      (envKeysDetail actualEnvKeys ++
        [(js "expectedEnvHash", optionalString expectedEnvHash),
          (js "actualEnvHash", optionalString actualEnvHash)])
  else .ok

def matchSystemRunApprovalBinding (expected actual : SystemRunApprovalBinding)
    (actualEnvKeys : List JsString) : SystemRunApprovalMatchResult N :=
  if expected.argv = [] ∨ expected.argv ≠ actual.argv then requestMismatch []
  else if expected.cwd ≠ actual.cwd then requestMismatch []
  else if expected.agentId ≠ actual.agentId then requestMismatch []
  else if expected.sessionKey ≠ actual.sessionKey then requestMismatch []
  else matchSystemRunApprovalEnvHash expected.envHash actual.envHash actualEnvKeys

def SystemRunApprovalBinding.Agrees (expected actual : SystemRunApprovalBinding) : Prop :=
  expected.argv = actual.argv ∧ expected.cwd = actual.cwd ∧ expected.agentId = actual.agentId ∧
    expected.sessionKey = actual.sessionKey ∧
    expected.envHash.getD [] = actual.envHash.getD []

theorem agrees_of_match {expected actual : SystemRunApprovalBinding} {actualEnvKeys : List JsString}
    (h : matchSystemRunApprovalBinding (N := N) expected actual actualEnvKeys = .ok) :
    expected.Agrees actual := by
  rw [matchSystemRunApprovalBinding] at h
  split at h
  · exact absurd h (by simp [requestMismatch])
  · rename_i hargv
    rw [not_or, not_not] at hargv
    split at h
    · exact absurd h (by simp [requestMismatch])
    · rename_i hcwd
      split at h
      · exact absurd h (by simp [requestMismatch])
      · rename_i hagent
        split at h
        · exact absurd h (by simp [requestMismatch])
        · rename_i hsession
          refine ⟨hargv.2, not_not.mp hcwd, not_not.mp hagent, not_not.mp hsession, ?_⟩
          rw [matchSystemRunApprovalEnvHash] at h
          split at h
          · exact absurd h (by simp)
          · split at h
            · rename_i hnone
              rw [hnone.1, hnone.2]
            · split at h
              · exact absurd h (by simp)
              · split at h
                · exact absurd h (by simp)
                · rename_i hsame
                  rw [not_not.mp hsame]

/-! ## The context of a request -/

abbrev SystemRunParams (N : Type) := Record (JsonValue N)

def normalizeRawCommandText (rawCommand : Option (JsonValue N)) : Option JsString :=
  normalizeNullableString rawCommand

def resolveSystemRunCommandRequest (host : RunHost N) (command rawCommand : Option (JsonValue N)) :
    Except (GuardError N) (List JsString × JsString) :=
  let raw := normalizeRawCommandText rawCommand
  match normalizeStringArray host command with
  | [] =>
      match raw with
      | some _ =>
          .error
            { message := js "rawCommand requires params.command"
              details := [(js "code", .string (js "MISSING_COMMAND"))] }
      | none => .ok ([], [])
  | arg :: rest =>
      (host.validateCommand (arg :: rest) raw).map fun commandText => (arg :: rest, commandText)

structure SystemRunApprovalRuntimeContext (N : Type) where
  plan : Option (SystemRunApprovalPlan N)
  argv : List JsString
  cwd : Option JsString
  agentId : Option JsString
  sessionKey : Option JsString
  commandText : JsString

/-- A plan of the record is taken in place of the values of the request. -/
def resolveSystemRunApprovalRuntimeContext (host : RunHost N)
    (plan : Option (SystemRunApprovalPlan N)) (p : SystemRunParams N) :
    Except (GuardError N) (SystemRunApprovalRuntimeContext N) :=
  match plan.bind (normalizeSystemRunApprovalPlan host) with
  | some plan =>
      .ok
        { plan := some plan
          argv := plan.argv
          cwd := plan.cwd
          agentId := plan.agentId
          sessionKey := plan.sessionKey
          commandText := plan.commandText }
  | none =>
      (resolveSystemRunCommandRequest host (p.get (js "command")) (p.get (js "rawCommand"))).map
        fun command =>
          { plan := none
            argv := command.1
            cwd := normalizeNonEmptyString (p.get (js "cwd"))
            agentId := normalizeNonEmptyString (p.get (js "agentId"))
            sessionKey := normalizeNonEmptyString (p.get (js "sessionKey"))
            commandText := command.2 }

/-!
## Forwarding `system.run` to a node

`src/gateway/node-invoke-system-run-approval.ts`: the approval flags of a request are stripped,
and they are added again only when an approval record allows it.
-/

structure ExecApprovalRequestPayload (N : Type) where
  host : Option JsString := none
  nodeId : Option JsString := none
  systemRunBinding : Option SystemRunApprovalBinding := none
  systemRunPlan : Option (SystemRunApprovalPlan N) := none
  agentId : Option JsString := none
  sessionKey : Option JsString := none
  turnSourceChannel : Option JsString := none
  turnSourceTo : Option JsString := none
  turnSourceAccountId : Option JsString := none
  /-- A string or a number. -/
  turnSourceThreadId : Option (JsonValue N) := none

abbrev Snapshot (N : Type) := ExecApprovalRecord (ExecApprovalRequestPayload N)

structure ApprovalClient where
  connId : Option JsString := none
  isDeviceTokenAuth : Bool := false
  scopes : List JsString := []
  clientId : Option JsString := none
  clientMode : Option JsString := none
  deviceId : Option JsString := none
  deriving DecidableEq

def CONTROL_UI : JsString := js "GreenchClaw-control-ui"

def WEBCHAT_UI : JsString := js "webchat-ui"

def WEBCHAT : JsString := js "webchat"

def GATEWAY_CLIENT : JsString := js "gateway-client"

def BACKEND_MODE : JsString := js "backend"

def BACKEND_BRIDGEABLE_NO_DEVICE_REQUEST_CLIENT_IDS : List JsString :=
  [CONTROL_UI, WEBCHAT_UI, WEBCHAT, GATEWAY_CLIENT]

inductive AllowDecision where
  | allowOnce
  | allowAlways
  deriving DecidableEq

def AllowDecision.text : AllowDecision → JsString
  | .allowOnce => js "allow-once"
  | .allowAlways => js "allow-always"

def normalizeApprovalDecision (value : Option (JsonValue N)) : Option AllowDecision :=
  let s := normalizeNullableString value
  if s = some (js "allow-once") then some .allowOnce
  else if s = some (js "allow-always") then some .allowAlways
  else none

def clientHasApprovals (client : Option ApprovalClient) : Bool :=
  let scopes := (client.map ApprovalClient.scopes).getD []
  scopes.contains (js "operator.admin") || scopes.contains (js "operator.approvals")

def isTrustedBackendApprovalClient (client : Option ApprovalClient) : Bool :=
  clientHasApprovals client &&
    decide (client.bind ApprovalClient.clientId = some GATEWAY_CLIENT) &&
    decide (client.bind ApprovalClient.clientMode = some BACKEND_MODE) &&
    !(client.any ApprovalClient.isDeviceTokenAuth)

section Bridges

variable [UnicodeCase] (host : RunHost N)

def normalizeComparableString (value : Option (JsonValue N)) (lowercase : Bool) :
    Option JsString :=
  let normalized :=
    match value with
    | some (.number n) =>
        if host.isFinite n then some (host.valueText (.number n)) else none
    | _ => normalizeNullableString value
  -- an empty text counts as none
  match normalized with
  | none => none
  | some text => if text = [] then none
      else if lowercase then some (UnicodeCase.toLowerCase text) else some text

def matchesRequiredString (expected actual : Option (JsonValue N)) (lowercase : Bool) : Bool :=
  match normalizeComparableString host expected lowercase with
  | none => false
  | some expected =>
      expected ≠ [] && decide (some expected = normalizeComparableString host actual lowercase)

def matchesOptionalString (expected actual : Option (JsonValue N)) (lowercase : Bool) : Bool :=
  match normalizeComparableString host expected lowercase with
  | none => true
  | some expected =>
      expected = [] || decide (some expected = normalizeComparableString host actual lowercase)

def jsonString (value : Option JsString) : Option (JsonValue N) := value.map .string

def hasChatApprovalReplayBinding (request : ExecApprovalRequestPayload N) : Bool :=
  (normalizeComparableString host (jsonString request.turnSourceChannel) true).isSome ||
    (normalizeComparableString host (jsonString request.turnSourceTo) false).isSome ||
    (normalizeComparableString host (jsonString request.turnSourceAccountId) false).isSome ||
    (normalizeComparableString host request.turnSourceThreadId false).isSome

def canBridgeNoDeviceApprovalFromBackend (snapshot : Snapshot N)
    (client : Option ApprovalClient) : Bool :=
  let requestedByClientId := normalizeOptionalString snapshot.requestedByClientId
  snapshot.requestedByDeviceId.isNone && !snapshot.requestedByDeviceTokenAuth &&
    !hasChatApprovalReplayBinding host snapshot.request &&
    requestedByClientId.any BACKEND_BRIDGEABLE_NO_DEVICE_REQUEST_CLIENT_IDS.contains &&
    isTrustedBackendApprovalClient client

def canBridgeNoDeviceChatApprovalFromBackend (snapshot : Snapshot N) (rawParams : SystemRunParams N)
    (client : Option ApprovalClient) : Bool :=
  let request := snapshot.request
  let plan := request.systemRunPlan
  if snapshot.requestedByDeviceId.isSome || snapshot.requestedByDeviceTokenAuth ||
      !isTrustedBackendApprovalClient client then false
  else
    matchesRequiredString host (jsonString request.turnSourceChannel)
        (rawParams.get (js "turnSourceChannel")) true &&
      matchesRequiredString host (jsonString request.turnSourceTo)
        (rawParams.get (js "turnSourceTo")) false &&
      matchesRequiredString host (jsonString (plan.bind (·.sessionKey) <|> request.sessionKey))
        (rawParams.get (js "sessionKey")) false &&
      matchesOptionalString host (jsonString (plan.bind (·.agentId) <|> request.agentId))
        (rawParams.get (js "agentId")) false &&
      matchesOptionalString host (jsonString request.turnSourceAccountId)
        (rawParams.get (js "turnSourceAccountId")) false &&
      matchesOptionalString host request.turnSourceThreadId
        (rawParams.get (js "turnSourceThreadId")) false

end Bridges

/-! ## The guards -/

def systemRunApprovalGuardError (code message : JsString) (runId : Option JsString) :
    GuardError N :=
  { message
    details := (js "code", .string code) ::
      runId.toList.map fun runId => (js "runId", .string runId) }

def systemRunApprovalRequired (runId : JsString) : GuardError N :=
  systemRunApprovalGuardError (js "APPROVAL_REQUIRED") (js "approval required") (some runId)

def forwardedKeys : List JsString :=
  [js "command", js "rawCommand", js "systemRunPlan", js "cwd", js "env", js "timeoutMs",
    js "needsScreenRecording", js "agentId", js "sessionKey", js "runId",
    js "suppressNotifyOnExit"]

def pickSystemRunParams (raw : SystemRunParams N) : SystemRunParams N :=
  forwardedKeys.filterMap fun key => (raw.get key).map fun value => (key, value)

/-- A request to forward `system.run`. -/
structure ForwardCall (N : Type) where
  nodeId : Option JsString
  rawParams : JsonValue N
  client : Option ApprovalClient
  nowMs : ℤ

section Guards

variable [UnicodeCase] (host : RunHost N)

/-- The device or the connection that asked for the approval, or a backend in its place.  A
record that names neither lets everyone pass. -/
def requesterAllowed (snapshot : Snapshot N) (p : SystemRunParams N)
    (client : Option ApprovalClient) : Except JsString Unit :=
  if snapshot.requestedByDeviceId.getD [] ≠ [] then
    if snapshot.requestedByDeviceId ≠ client.bind ApprovalClient.deviceId then
      .error (js "APPROVAL_DEVICE_MISMATCH")
    else .ok ()
  else if snapshot.requestedByConnId.getD [] ≠ [] ∧
      snapshot.requestedByConnId ≠ client.bind ApprovalClient.connId ∧
      canBridgeNoDeviceApprovalFromBackend host snapshot client = false ∧
      canBridgeNoDeviceChatApprovalFromBackend host snapshot p client = false then
    .error (js "APPROVAL_CLIENT_MISMATCH")
  else .ok ()

def checkSnapshot (call : ForwardCall N) (p : SystemRunParams N) (runId : JsString)
    (snapshot : Snapshot N) : Except (GuardError N) Unit :=
  if snapshot.expiresAtMs < call.nowMs then
    .error (systemRunApprovalGuardError (js "APPROVAL_EXPIRED") (js "approval expired") (some runId))
  else
    match normalizeOptionalString call.nodeId with
    | none =>
        .error (systemRunApprovalGuardError (js "MISSING_NODE_ID")
          (js "node.invoke requires nodeId") (some runId))
    | some targetNodeId =>
        match normalizeOptionalString snapshot.request.nodeId with
        | none =>
            .error (systemRunApprovalGuardError (js "APPROVAL_NODE_BINDING_MISSING")
              (js "approval id missing node binding") (some runId))
        | some approvalNodeId =>
            if approvalNodeId ≠ targetNodeId then
              .error (systemRunApprovalGuardError (js "APPROVAL_NODE_MISMATCH")
                (js "approval id not valid for this node") (some runId))
            else
              match requesterAllowed host snapshot p call.client with
              | .ok () => .ok ()
              | .error code =>
                  .error (systemRunApprovalGuardError code
                    (if code = js "APPROVAL_DEVICE_MISMATCH" then
                      js "approval id not valid for this device"
                    else js "approval id not valid for this client") (some runId))

def setOrDelete (next : SystemRunParams N) (key : JsString) (value : Option JsString) :
    SystemRunParams N :=
  match value with
  | none => next.delete key
  | some text => if text = [] then next.delete key else next.set key (.string text)

/-- The values of a plan take the place of those of the request. -/
def applyPlan (next : SystemRunParams N) (context : SystemRunApprovalRuntimeContext N) :
    SystemRunParams N :=
  match context.plan with
  | none => next
  | some plan =>
      let next := next.set (js "command") (.array (plan.argv.map .string))
      let next := next.set (js "systemRunPlan") plan.toJson
      let next := setOrDelete next (js "rawCommand") (some context.commandText)
      let next := setOrDelete next (js "cwd") context.cwd
      let next := setOrDelete next (js "agentId") context.agentId
      setOrDelete next (js "sessionKey") context.sessionKey

def evaluateSystemRunApprovalMatch (request : ExecApprovalRequestPayload N)
    (context : SystemRunApprovalRuntimeContext N) (env : Option (JsonValue N)) :
    SystemRunApprovalMatchResult N :=
  if request.host ≠ some (js "node") then requestMismatch []
  else
    let actual := buildSystemRunApprovalBinding host context.argv context.cwd context.agentId
      context.sessionKey env
    match request.systemRunBinding with
    | none => requestMismatch (envKeysDetail actual.2)
    | some expected => matchSystemRunApprovalBinding expected actual.1 actual.2

def toSystemRunApprovalMismatchError (runId code message : JsString)
    (details : Record (JsonValue N)) : GuardError N :=
  { message
    details := [(js "code", .string code), (js "runId", .string runId)] ++ details }

def approvedParams (call : ForwardCall N) (p : SystemRunParams N) (runId : JsString)
    (snapshot : Snapshot N) : Except (GuardError N) (SystemRunParams N) :=
  match checkSnapshot host call p runId snapshot with
  | .error error => .error error
  | .ok () =>
      match resolveSystemRunApprovalRuntimeContext host snapshot.request.systemRunPlan p with
      | .error error => .error error
      | .ok context =>
          match evaluateSystemRunApprovalMatch host snapshot.request context
              (p.get (js "env")) with
          | .mismatch code message details =>
              .error (toSystemRunApprovalMismatchError runId code message details)
          | .ok => .ok (applyPlan (pickSystemRunParams p) context)

def withApproval (next : SystemRunParams N) (decision : AllowDecision) : JsonValue N :=
  .object ((next.set (js "approved") (.bool true)).set (js "approvalDecision")
    (.string decision.text))

def timedOut (snapshot : Snapshot N) : Bool :=
  snapshot.resolvedAtMs.isSome && snapshot.decision.isNone &&
    decide (snapshot.resolvedBy = some none)

def enforceDecision (m : ExecApprovalManager (ExecApprovalRequestPayload N)) (call : ForwardCall N)
    (p : SystemRunParams N) (runId : JsString) (snapshot : Snapshot N)
    (next : SystemRunParams N) :
    ExecApprovalManager (ExecApprovalRequestPayload N) × Except (GuardError N) (JsonValue N) :=
  if snapshot.decision = some .allowOnce then
    if (m.consumeAllowOnce runId).2 then
      ((m.consumeAllowOnce runId).1, .ok (withApproval next .allowOnce))
    else ((m.consumeAllowOnce runId).1, .error (systemRunApprovalRequired runId))
  else if snapshot.decision = some .allowAlways then (m, .ok (withApproval next .allowAlways))
  else
    match p.get (js "approved") with
    | some (.bool true) =>
        if timedOut snapshot = true ∧
            normalizeApprovalDecision (p.get (js "approvalDecision")) = some .allowOnce ∧
            clientHasApprovals call.client = true then
          (m, .ok (withApproval next .allowOnce))
        else (m, .error (systemRunApprovalRequired runId))
    | _ => (m, .error (systemRunApprovalRequired runId))

def wantsApprovalOverride (p : SystemRunParams N) : Bool :=
  (match p.get (js "approved") with
    | some (.bool true) => true
    | _ => false) ||
    (normalizeApprovalDecision (p.get (js "approvalDecision"))).isSome

def sanitizeParams (m : ExecApprovalManager (ExecApprovalRequestPayload N)) (call : ForwardCall N)
    (p : SystemRunParams N) :
    ExecApprovalManager (ExecApprovalRequestPayload N) × Except (GuardError N) (JsonValue N) :=
  if wantsApprovalOverride p = false then
    match resolveSystemRunCommandRequest host (p.get (js "command")) (p.get (js "rawCommand")) with
    | .error error => (m, .error error)
    | .ok _ => (m, .ok (.object (pickSystemRunParams p)))
  else
    match normalizeNullableString (p.get (js "runId")) with
    | none =>
        (m, .error (systemRunApprovalGuardError (js "MISSING_RUN_ID")
          (js "approval override requires params.runId") none))
    | some runId =>
        match m.getSnapshot runId with
        | none =>
            (m, .error (systemRunApprovalGuardError (js "UNKNOWN_APPROVAL_ID")
              (js "unknown or expired approval id") (some runId)))
        | some snapshot =>
            match approvedParams host call p runId snapshot with
            | .error error => (m, .error error)
            | .ok next => enforceDecision m call p runId snapshot next

def sanitizeSystemRunParamsForForwarding
    (m : ExecApprovalManager (ExecApprovalRequestPayload N)) (call : ForwardCall N) :
    ExecApprovalManager (ExecApprovalRequestPayload N) × Except (GuardError N) (JsonValue N) :=
  match call.rawParams with
  | .object p => sanitizeParams host m call p
  | rawParams => (m, .ok rawParams)

end Guards

end GreenchClaw.Approvals
