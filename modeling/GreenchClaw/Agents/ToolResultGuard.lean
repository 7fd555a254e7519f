import GreenchClaw.Agents.TranscriptRepair
import GreenchClaw.Js.Map
import GreenchClaw.Lib.Transition

/-!
# The guard of tool results

`src/agents/session-tool-result-guard.ts` over `src/agents/session-tool-result-state.ts`: what the
guarded `appendMessage` of a session manager persists, and the tool calls that it waits for.
-/

namespace GreenchClaw.ToolResultGuard

open GreenchClaw.Js GreenchClaw.Agents

variable {α : Type}

inductive SessionMessage (α : Type) where
  | assistant (message : SessionAssistant α)
  | toolResult (message : ToolResultMessage α)
  | user (value : α)
  | other (value : α)

structure ResultMeta where
  toolCallId : Option JsString
  toolName : Option JsString
  isSynthetic : Bool

structure HookResult (α : Type) where
  block : Bool := false
  message : Option (SessionMessage α) := none

/-- The options of the guard, and what it calls: the redaction of arguments, the caps on the content
and the details of a result, and the rest of a result that is missing. -/
structure GuardOptions (α : Type) where
  transformMessageForPersistence : SessionMessage α → SessionMessage α := id
  transformToolResultForPersistence : SessionMessage α → ResultMeta → SessionMessage α :=
    fun message _ => message
  allowSyntheticToolResults : Bool := true
  missingToolResultText : Option JsString := none
  allowedToolNames : Option (List JsString) := none
  beforeMessageWriteHook : Option (SessionMessage α → Option (HookResult α)) := none
  maxToolResultChars : Option ℕ := none
  suppressNextUserMessagePersistence : Bool := false
  redactSessionsSpawnArgs : α → α
  capRest : ℕ → α → α
  missingRest : JsString → α

/-- A message that was persisted, with whether the guard made it itself, or the mark that the calls it
waited for were dropped. -/
inductive LogEntry (α : Type) where
  | persisted (message : SessionMessage α) (synthetic : Bool)
  | dropped

structure GuardState (α : Type) where
  pending : Map (Option JsString)
  suppressNextUserMessagePersistence : Bool
  log : List (LogEntry α)

inductive Action (α : Type) where
  | appendMessage (message : SessionMessage α)
  | flushPendingToolResults
  | clearPendingToolResults

def GuardState.transcript (s : GuardState α) : List (SessionMessage α) :=
  s.log.filterMap fun entry =>
    match entry with
    | .persisted message _ => some message
    | .dropped => none

def GuardState.getPendingIds (s : GuardState α) : List JsString := s.pending.entries.map Prod.fst

def GuardState.write (s : GuardState α) (message : SessionMessage α) (synthetic : Bool) :
    GuardState α :=
  { s with log := s.log ++ [.persisted message synthetic] }

def trackToolCalls (pending : Map (Option JsString)) (calls : List ToolCallLike) :
    Map (Option JsString) :=
  calls.foldl (fun pending call => pending.set call.id call.name) pending

def shouldFlushBeforeNonToolResult (pending : Map (Option JsString)) (nextIsAssistant : Bool)
    (toolCallCount : ℕ) : Bool :=
  0 < pending.entries.length && (toolCallCount = 0 || !nextIsAssistant)

def shouldFlushBeforeNewToolCalls (pending : Map (Option JsString)) (toolCallCount : ℕ) : Bool :=
  0 < pending.entries.length && 0 < toolCallCount

def DEFAULT_MAX_LIVE_TOOL_RESULT_CHARS : ℕ := 16000

def normalizePersistedToolResultName (message : SessionMessage α)
    (fallbackName : Option JsString) : SessionMessage α :=
  match message with
  | .toolResult result => .toolResult (normalizeToolResultName result fallbackName)
  | message => message

def isTranscriptOnlyGreenchClawAssistantMessage (message : SessionMessage α) : Bool :=
  match message with
  | .assistant assistant =>
      let provider := (normalizeOptionalString assistant.provider).getD []
      let model := (normalizeOptionalString assistant.model).getD []
      decide (provider = js "GreenchClaw") &&
        (decide (model = js "delivery-mirror") || decide (model = js "gateway-injected"))
  | _ => false

/-- The calls that a message waits for: none when the turn was aborted or ended in an error. -/
def toolCallsOf (message : SessionMessage α) : List ToolCallLike :=
  match message with
  | .assistant assistant =>
      if isErrored assistant.toMessage = true then []
      else extractToolCallsFromAssistant assistant.toMessage
  | _ => []

def SessionMessage.isAssistant : SessionMessage α → Bool
  | .assistant _ => true
  | _ => false

def isUserAgentMessage : SessionMessage α → Bool
  | .user _ => true
  | _ => false

section Guard

variable (opts : GuardOptions α)

def capToolResultForPersistence (message : SessionMessage α) : SessionMessage α :=
  match message with
  | .toolResult result =>
      let maxChars := max 1 (opts.maxToolResultChars.getD DEFAULT_MAX_LIVE_TOOL_RESULT_CHARS)
      .toolResult { result with rest := opts.capRest maxChars result.rest }
  | message => message

def applyBeforeWriteHook (message : SessionMessage α) : Option (SessionMessage α) :=
  match opts.beforeMessageWriteHook.bind fun hook => hook message with
  | none => some message
  | some result => if result.block = true then none else some (result.message.getD message)

def persistMissing (s : GuardState α) (entry : JsString × Option JsString) : GuardState α :=
  let synthetic := SessionMessage.toolResult
    (makeMissingToolResult opts.missingRest ⟨entry.1, entry.2⟩ opts.missingToolResultText)
  let flushed := applyBeforeWriteHook opts
    (opts.transformToolResultForPersistence (opts.transformMessageForPersistence synthetic)
      ⟨some entry.1, entry.2, true⟩)
  match flushed with
  | none => s
  | some flushed => s.write (capToolResultForPersistence opts flushed) true

def flushPendingToolResults (s : GuardState α) : GuardState α :=
  if s.pending.entries.length = 0 then s
  else
    let flushed : GuardState α :=
      if opts.allowSyntheticToolResults = true then s.pending.entries.foldl (persistMissing opts) s
      else { s with log := s.log ++ [.dropped] }
    { flushed with pending := Map.empty }

def clearPendingToolResults (s : GuardState α) : GuardState α :=
  { s with pending := Map.empty, log := s.log ++ [.dropped] }

def appendToolResult (s : GuardState α) (result : ToolResultMessage α) : GuardState α :=
  let id := extractToolResultId result
  let toolName := (id.bind s.pending.get).join
  let s : GuardState α :=
    match id with
    | some id => { s with pending := s.pending.delete id }
    | none => s
  let normalized := normalizePersistedToolResultName (.toolResult result) toolName
  let capped := capToolResultForPersistence opts (opts.transformMessageForPersistence normalized)
  match applyBeforeWriteHook opts
    (opts.transformToolResultForPersistence capped ⟨id, toolName, false⟩) with
  | none => s
  | some persisted => s.write (capToolResultForPersistence opts persisted) false

def flushBefore (s : GuardState α) (nextMessage : SessionMessage α) : GuardState α :=
  let toolCalls := toolCallsOf nextMessage
  let transcriptOnlyAssistant :=
    nextMessage.isAssistant && decide (toolCalls.length = 0) &&
      isTranscriptOnlyGreenchClawAssistantMessage nextMessage
  let s :=
    if (!transcriptOnlyAssistant &&
        shouldFlushBeforeNonToolResult s.pending nextMessage.isAssistant toolCalls.length) = true then
      flushPendingToolResults opts s
    else s
  -- new calls arrive while older ones are pending
  if shouldFlushBeforeNewToolCalls s.pending toolCalls.length = true then
    flushPendingToolResults opts s
  else s

def appendOther (s : GuardState α) (nextMessage : SessionMessage α) : GuardState α :=
  let s := flushBefore opts s nextMessage
  match applyBeforeWriteHook opts (opts.transformMessageForPersistence nextMessage) with
  | none => s
  | some finalMessage =>
      if (isUserAgentMessage finalMessage && s.suppressNextUserMessagePersistence) = true then
        { s with suppressNextUserMessagePersistence := false }
      else
        { s.write finalMessage false with
          pending := trackToolCalls s.pending (toolCallsOf nextMessage) }

variable [UnicodeCase]

def guardedAppend (s : GuardState α) (message : SessionMessage α) : GuardState α :=
  match message with
  | .assistant assistant =>
      match sanitizeToolCallInputs opts.redactSessionsSpawnArgs opts.allowedToolNames assistant with
      | none => flushPendingToolResults opts s
      | some sanitized => appendOther opts s (.assistant sanitized)
  | .toolResult result => appendToolResult opts s result
  | message => appendOther opts s message

def act (s : GuardState α) (action : Action α) : GuardState α :=
  match action with
  | .appendMessage message => guardedAppend opts s message
  | .flushPendingToolResults => flushPendingToolResults opts s
  | .clearPendingToolResults => clearPendingToolResults s

def installSessionToolResultGuard : GuardState α where
  pending := Map.empty
  suppressNextUserMessagePersistence := opts.suppressNextUserMessagePersistence
  log := []

def run (actions : List (Action α)) : GuardState α :=
  actions.foldl (act opts) (installSessionToolResultGuard opts)

end Guard

end GreenchClaw.ToolResultGuard
