import GreenchClaw.Js.Record

/-!
# Repair of tool results in a transcript

`repairToolUseResultPairing` of `src/agents/session-transcript-repair.ts` with the two extractions of
`src/agents/tool-call-id.ts`.  A field is `none` when it is missing or not a string; everything that
the repair does not read is the `rest` of a message.
-/

namespace GreenchClaw.Agents

open GreenchClaw.Js

section Results

variable {α : Type}

structure ContentBlock where
  type : Option JsString := none
  id : Option JsString := none
  name : Option JsString := none
  deriving DecidableEq

structure AssistantMessage (α : Type) where
  /-- `none` when it is no array; a block is `none` when it is no object. -/
  content : Option (List (Option ContentBlock))
  stopReason : Option JsString
  rest : α
  deriving DecidableEq

structure ToolResultMessage (α : Type) where
  toolCallId : Option JsString
  toolUseId : Option JsString
  toolName : Option JsString
  rest : α
  deriving DecidableEq

inductive AgentMessage (α : Type) where
  | notObject (value : α)
  | assistant (message : AssistantMessage α)
  | toolResult (message : ToolResultMessage α)
  | other (value : α)
  deriving DecidableEq

structure ToolCallLike where
  id : JsString
  name : Option JsString
  deriving DecidableEq

def TOOL_CALL_TYPES : List JsString := [js "toolCall", js "toolUse", js "functionCall"]

def extractToolCallsFromAssistant (msg : AssistantMessage α) : List ToolCallLike :=
  (msg.content.getD []).filterMap fun block =>
    block.bind fun rec =>
      (truthy rec.id).bind fun id =>
        if rec.type.any TOOL_CALL_TYPES.contains = true then some { id, name := rec.name } else none

def extractToolResultId (msg : ToolResultMessage α) : Option JsString :=
  (truthy msg.toolCallId).or (truthy msg.toolUseId)

structure ToolUseResultPairingOptions where
  /-- Whether `erroredAssistantResultPolicy` is `drop`. -/
  shouldDropErroredAssistantResults : Bool := false
  missingToolResultText : Option JsString := none
  deriving DecidableEq

def MISSING_TOOL_RESULT_TEXT : JsString :=
  js "[GreenchClaw] missing tool result in session history; inserted synthetic error result for transcript repair."

/-- The message that stands for a missing result; `body` is its content with the text, its error flag
and its timestamp. -/
def makeMissingToolResult (body : JsString → α) (call : ToolCallLike) (text : Option JsString) :
    ToolResultMessage α where
  toolCallId := some call.id
  toolUseId := none
  toolName := some (call.name.getD (js "unknown"))
  rest := body (text.getD MISSING_TOOL_RESULT_TEXT)

def normalizeToolResultName (message : ToolResultMessage α) (fallbackName : Option JsString) :
    ToolResultMessage α :=
  match normalizeOptionalString message.toolName with
  | some normalizedToolName =>
      if message.toolName = some normalizedToolName then message
      else { message with toolName := some normalizedToolName }
  | none =>
      match normalizeOptionalString fallbackName with
      | some normalizedFallback => { message with toolName := some normalizedFallback }
      | none =>
          if message.toolName.isSome = true then { message with toolName := some (js "unknown") }
          else message

def assistantHasToolCalls : AgentMessage α → Bool
  | .assistant message => !(extractToolCallsFromAssistant message).isEmpty
  | _ => false

def isErrored (assistant : AssistantMessage α) : Bool :=
  assistant.stopReason = some (js "error") || assistant.stopReason = some (js "aborted")

/-- What the inner loop collects from the messages up to the next turn with tool calls. -/
structure SpanScan (α : Type) where
  spanResultsById : Record (ToolResultMessage α) := []
  remainder : List (AgentMessage α) := []
  droppedDuplicateCount : ℕ := 0
  droppedOrphanCount : ℕ := 0
  changed : Bool := false

def scanNext (seen : List JsString) (toolCallIds : List JsString)
    (toolCallNamesById : Record JsString) (scan : SpanScan α) (next : AgentMessage α) :
    SpanScan α :=
  match next with
  | .toolResult toolResult =>
      match (extractToolResultId toolResult).filter toolCallIds.contains with
      | some id =>
          if id ∈ seen then
            { scan with droppedDuplicateCount := scan.droppedDuplicateCount + 1, changed := true }
          else
            let normalized := normalizeToolResultName toolResult (toolCallNamesById.get id)
            { scan with
              changed := scan.changed || decide (normalized.toolName ≠ toolResult.toolName)
              spanResultsById :=
                if (scan.spanResultsById.get id).isSome = true then scan.spanResultsById
                else scan.spanResultsById.set id normalized }
      | none => { scan with droppedOrphanCount := scan.droppedOrphanCount + 1, changed := true }
  | next => { scan with remainder := scan.remainder ++ [next] }

structure ToolUseRepair (α : Type) where
  out : List (AgentMessage α) := []
  added : List (ToolResultMessage α) := []
  seenToolResultIds : List JsString := []
  droppedDuplicateCount : ℕ := 0
  droppedOrphanCount : ℕ := 0
  moved : Bool := false
  changed : Bool := false

namespace ToolUseRepair

variable (s : ToolUseRepair α)

def push (msg : AgentMessage α) : ToolUseRepair α := { s with out := s.out ++ [msg] }

def pushToolResult (msg : ToolResultMessage α) : ToolUseRepair α :=
  match extractToolResultId msg with
  | none => s.push (.toolResult msg)
  | some id =>
      if id ∈ s.seenToolResultIds then
        { s with droppedDuplicateCount := s.droppedDuplicateCount + 1, changed := true }
      else { s.push (.toolResult msg) with seenToolResultIds := s.seenToolResultIds ++ [id] }

def pushKnown (results : Record (ToolResultMessage α)) :
    List ToolCallLike → ToolUseRepair α → ToolUseRepair α
  | [], s => s
  | call :: calls, s =>
      match results.get call.id with
      | none => pushKnown results calls s
      | some result => pushKnown results calls (s.pushToolResult result)

def pushAnswers (body : JsString → α) (text : Option JsString)
    (results : Record (ToolResultMessage α)) :
    List ToolCallLike → ToolUseRepair α → ToolUseRepair α
  | [], s => s
  | call :: calls, s =>
      match results.get call.id with
      | some existing => pushAnswers body text results calls (s.pushToolResult existing)
      | none =>
          let missing := makeMissingToolResult body call text
          let added : ToolUseRepair α := { s with added := s.added ++ [missing], changed := true }
          pushAnswers body text results calls (added.pushToolResult missing)

def repairTurn (options : ToolUseResultPairingOptions) (body : JsString → α)
    (assistant : AssistantMessage α) (span : List (AgentMessage α)) : ToolUseRepair α :=
  let toolCalls := extractToolCallsFromAssistant assistant
  let toolCallNamesById : Record JsString := toolCalls.foldl
    (fun names call =>
      match call.name with
      | some name => Record.set names call.id name
      | none => names) []
  let scan := span.foldl
    (scanNext s.seenToolResultIds (toolCalls.map ToolCallLike.id) toolCallNamesById) {}
  let s : ToolUseRepair α :=
    { s with
      droppedDuplicateCount := s.droppedDuplicateCount + scan.droppedDuplicateCount
      droppedOrphanCount := s.droppedOrphanCount + scan.droppedOrphanCount
      changed := s.changed || scan.changed }
  if isErrored assistant = true then
    let s : ToolUseRepair α :=
      if options.shouldDropErroredAssistantResults = true then { s with changed := true }
      else pushKnown scan.spanResultsById toolCalls (s.push (.assistant assistant))
    { s with out := s.out ++ scan.remainder }
  else
    let s := s.push (.assistant assistant)
    let s : ToolUseRepair α :=
      if scan.spanResultsById ≠ [] ∧ scan.remainder ≠ [] then
        { s with moved := true, changed := true }
      else s
    let s := pushAnswers body options.missingToolResultText scan.spanResultsById toolCalls s
    { s with out := s.out ++ scan.remainder }

end ToolUseRepair

def repairLoop (options : ToolUseResultPairingOptions) (body : JsString → α) :
    ℕ → List (AgentMessage α) → ToolUseRepair α → ToolUseRepair α
  | _, [], s => s
  | skip + 1, _ :: rest, s => repairLoop options body skip rest s
  | 0, .assistant assistant :: rest, s =>
      if (extractToolCallsFromAssistant assistant).isEmpty = true then
        repairLoop options body 0 rest (s.push (.assistant assistant))
      else
        let span := rest.takeWhile fun next => !assistantHasToolCalls next
        repairLoop options body span.length rest (s.repairTurn options body assistant span)
  | 0, .toolResult _ :: rest, s =>
      repairLoop options body 0 rest
        { s with droppedOrphanCount := s.droppedOrphanCount + 1, changed := true }
  | 0, msg :: rest, s => repairLoop options body 0 rest (s.push msg)

structure ToolUseRepairReport (α : Type) where
  messages : List (AgentMessage α)
  added : List (ToolResultMessage α)
  droppedDuplicateCount : ℕ
  droppedOrphanCount : ℕ
  moved : Bool

def repairToolUseResultPairing (options : ToolUseResultPairingOptions) (body : JsString → α)
    (messages : List (AgentMessage α)) : ToolUseRepairReport α :=
  let s := repairLoop options body 0 messages {}
  let changedOrMoved := s.changed || s.moved
  { messages := if changedOrMoved = true then s.out else messages
    added := s.added
    droppedDuplicateCount := s.droppedDuplicateCount
    droppedOrphanCount := s.droppedOrphanCount
    moved := changedOrMoved }

end Results

/-!
## Tool calls that a turn may keep

`sanitizeToolCallInputs` of `src/agents/session-transcript-repair.ts` for one assistant message, as the
guard of the session manager calls it, with the names of `src/agents/tool-call-shared.ts`.
-/

/-- A block with the fields that the repair of its inputs reads; `α` is a value of the call. -/
structure ToolCallBlock (α : Type) extends ContentBlock where
  /-- `call_id`, `toolCallId`, `toolUseId`, `tool_call_id` and `tool_use_id`. -/
  aliasIds : List (Option JsString) := []
  /-- `none` when it is missing or `null`. -/
  input : Option α := none
  arguments : Option α := none

structure SessionAssistant (α : Type) where
  /-- `none` when it is no array; a block is `none` when it is no object. -/
  content : Option (List (Option (ToolCallBlock α)))
  stopReason : Option JsString := none
  provider : Option JsString := none
  model : Option JsString := none
  rest : α

def SessionAssistant.toMessage {α : Type} (message : SessionAssistant α) : AssistantMessage α where
  content := message.content.map fun content =>
    content.map fun block => block.map ToolCallBlock.toContentBlock
  stopReason := message.stopReason
  rest := message.rest

def RAW_TOOL_CALL_BLOCK_TYPES : List JsString :=
  [js "toolCall", js "toolUse", js "functionCall", js "tool_call", js "tool_use",
    js "function_call"]

def TOOL_CALL_NAME_MAX_CHARS : ℕ := 64

def isToolNameUnit (u : CodeUnit) : Bool :=
  (65 ≤ u && u ≤ 90) || (97 ≤ u && u ≤ 122) || (48 ≤ u && u ≤ 57) || u == unit '_' ||
    u == unit ':' || u == unit '.' || u == unit '-'

section Blocks

variable {α : Type} (block : ToolCallBlock α)

def isRawToolCallBlock : Bool := block.type.any RAW_TOOL_CALL_BLOCK_TYPES.contains

def hasToolCallInput : Bool := block.input.isSome || block.arguments.isSome

def hasNonEmptyStringField (value : Option JsString) : Bool := value.any fun text => trim text ≠ []

def hasToolCallId : Bool := (block.id :: block.aliasIds).any hasNonEmptyStringField

variable [UnicodeCase]

/-- `null` when no name is left. -/
def normalizeAllowedToolNames (allowedToolNames : Option (List JsString)) : Option (List JsString) :=
  let normalized := (allowedToolNames.getD []).filterMap fun name =>
    normalizeOptionalLowercaseString (some name)
  if normalized = [] then none else some normalized

def isAllowedToolCallName (name : Option JsString) (allowedToolNames : Option (List JsString)) :
    Bool :=
  match normalizeOptionalString name with
  | none => false
  | some trimmed =>
      decide (trimmed.length ≤ TOOL_CALL_NAME_MAX_CHARS) && trimmed.all isToolNameUnit &&
        allowedToolNames.all fun allowed =>
          allowed.contains (normalizeLowercaseStringOrEmpty (some trimmed))

def isRefused (allowedToolNames : Option (List JsString)) : Bool :=
  isRawToolCallBlock block &&
    (!hasToolCallInput block || !hasToolCallId block ||
      !isAllowedToolCallName block.name allowedToolNames)

def sanitizeToolCallBlock (redactSessionsSpawnArgs : α → α) : ToolCallBlock α :=
  if isRawToolCallBlock block = true then
    let renamed := { block with name := (normalizeOptionalString block.name).or block.name }
    if normalizeLowercaseStringOrEmpty block.name = js "sessions_spawn" then
      { renamed with
        arguments := block.arguments.map redactSessionsSpawnArgs
        input := block.input.map redactSessionsSpawnArgs }
    else renamed
  else block

def sanitizeToolCallInputs (redactSessionsSpawnArgs : α → α)
    (allowedToolNames : Option (List JsString)) (message : SessionAssistant α) :
    Option (SessionAssistant α) :=
  match message.content with
  | none => some message
  | some content =>
      let allowed := normalizeAllowedToolNames allowedToolNames
      let kept := content.filter fun block => !block.any (isRefused · allowed)
      let nextContent := kept.map fun block =>
        block.map (sanitizeToolCallBlock · redactSessionsSpawnArgs)
      if kept.length < content.length ∧ nextContent = [] then none
      else some { message with content := some nextContent }

end Blocks

end GreenchClaw.Agents
