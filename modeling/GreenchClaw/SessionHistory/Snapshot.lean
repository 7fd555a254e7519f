import GreenchClaw.Js.Text

/-!
# Which messages of a transcript are shown

`projectChatDisplayMessages` of `src/gateway/chat-display-projection.ts` with the checks of
`src/auto-reply/heartbeat-filter.ts`.  What the projection does to the texts of a message, and the
tests on a text alone, are those of a `DisplayHost`.
-/

namespace GreenchClaw.SessionHistory

open GreenchClaw.Js

inductive AssistantPhase where
  | commentary
  | finalAnswer
  deriving DecidableEq

structure HistoryBlock (β : Type) where
  type : Option JsString := none
  text : Option JsString := none
  /-- The phase of its text signature. -/
  phase : Option AssistantPhase := none
  rest : β

inductive HistoryContent (β : Type) where
  | missing
  | null
  | text (value : JsString)
  /-- An array; a block is `none` when it is no object. -/
  | blocks (list : List (Option (HistoryBlock β)))
  | other

structure HistoryMessage (β : Type) where
  role : Option JsString
  content : HistoryContent β
  text : HistoryContent β := .missing
  phase : Option AssistantPhase := none
  /-- `seq` of its transcript meta data, when it is a positive number. -/
  seq : Option ℕ
  rest : β

structure DisplayHost (β : Type) where
  /-- `stripEnvelopeFromMessage` and `sanitizeChatHistoryMessage`, for the fields beside role and
  transcript meta data. -/
  stripFields : HistoryMessage β → HistoryMessage β
  sanitizeFields : ℕ → HistoryMessage β → HistoryMessage β
  /-- `stripHeartbeatToken(text, { mode: "heartbeat" }).shouldSkip` of a text with more than spaces. -/
  skipsHeartbeat : JsString → Bool
  isSuppressedControlReplyText : JsString → Bool
  /-- The provenance of a message is an announcement of a subagent. -/
  announced : β → Bool

def HEARTBEAT_TRANSCRIPT_PROMPT : JsString := js "[GreenchClaw heartbeat poll]"

def HEARTBEAT_PROMPT : JsString :=
  js "Read HEARTBEAT.md if it exists (workspace context). Follow it strictly. Do not infer or repeat old tasks from prior chats. If nothing needs attention, reply HEARTBEAT_OK."

def HEARTBEAT_TASK_PROMPT_PREFIX : JsString :=
  js "Run the following periodic tasks (only those due based on their intervals):"

def HEARTBEAT_TASK_PROMPT_ACK : JsString := js "After completing all due tasks, reply HEARTBEAT_OK."

def INTER_SESSION_PROMPT_PREFIX_BASE : JsString := js "[Inter-session message]"

variable {β : Type}

/-! ## Contents -/

section Contents

variable (content : HistoryContent β)

def HistoryContent.orElse (fallback : HistoryContent β) : HistoryContent β :=
  match content with
  | .missing | .null => fallback
  | content => content

def resolveMessageText : JsString × Bool :=
  match content with
  | .text value => (value, false)
  | .missing | .null => ([], false)
  | .other => ([], true)
  | .blocks list =>
      let textOf (block : Option (HistoryBlock β)) : Option JsString :=
        block.bind fun block => if block.type = some (js "text") then block.text else none
      (list.flatMap fun block => (textOf block).getD [], list.any fun block => (textOf block).isNone)

def isEmptyTextOnlyContent : Bool :=
  match content with
  | .text value => trim value = []
  | .blocks list =>
      list.all fun block => block.any fun block =>
        block.type = some (js "text") ∧ block.text.any fun text => trim text = []
  | _ => false

def extractProjectedText : JsString :=
  match content with
  | .text value => value
  | .blocks list =>
      [unit '\n'].intercalate (list.filterMap fun block => block.bind fun block => block.text)
  | _ => []

def isToolHistoryBlockType [UnicodeCase] (type : Option JsString) : Bool :=
  type.any fun type =>
    [js "toolcall", js "tool_call", js "tooluse", js "tool_use", js "toolresult",
      js "tool_result"].contains (UnicodeCase.toLowerCase (trim type))

def hasAssistantNonTextContent : Bool :=
  match content with
  | .blocks list => list.any fun block => block.any fun block => block.type ≠ some (js "text")
  | _ => false

def hasAssistantMixedToolVisibleText [UnicodeCase] : Bool :=
  match content with
  | .blocks list =>
      (list.any fun block => block.any fun block => isToolHistoryBlockType block.type) &&
        list.any fun block => block.any fun block =>
          block.type = some (js "text") ∧ block.text.any fun text => trim text ≠ []
  | _ => false

end Contents

/-! ## One message -/

section Message

variable (host : DisplayHost β) (message : HistoryMessage β)

def resolveAssistantMessagePhase : Option AssistantPhase :=
  match message.phase, message.content with
  | some phase, _ => some phase
  | none, .blocks list =>
      let phases := (list.filterMap fun block => block.bind fun block =>
        if block.type = some (js "text") then block.phase else none).dedup
      if phases.length = 1 then phases.head? else none
  | none, _ => none

def extractAssistantTextForSilentCheck : Option JsString :=
  match message.text, message.content with
  | .text value, _ => some value
  | _, .text value => some value
  | _, .blocks list =>
      let texts := list.mapM fun block => block.bind fun block =>
        if block.type = some (js "text") then block.text else none
      (texts.filter fun texts => texts ≠ []).map fun texts => [unit '\n'].intercalate texts
  | _, _ => none

def shouldDropAssistantHistoryMessage [UnicodeCase] : Bool :=
  if message.role ≠ some (js "assistant") then false
  else if resolveAssistantMessagePhase message = some .commentary then
    !hasAssistantMixedToolVisibleText message.content
  else
    (extractAssistantTextForSilentCheck message).any host.isSuppressedControlReplyText &&
      !hasAssistantNonTextContent message.content

def stripEnvelopeFromMessage : HistoryMessage β :=
  { host.stripFields message with role := message.role, seq := message.seq }

def sanitizeChatHistoryMessage (maxChars : ℕ) : HistoryMessage β :=
  { host.sanitizeFields maxChars message with role := message.role, seq := message.seq }

def asRoleContentMessage [UnicodeCase] : Option (JsString × HistoryContent β) :=
  let role := (message.role.map UnicodeCase.toLowerCase).getD []
  if role = [] then none
  else
    match message.content with
    | .missing => some (role, message.text)
    | content => some (role, content)

def isHeartbeatUserMessage (roleContent : JsString × HistoryContent β) : Bool :=
  let trimmed := trim (resolveMessageText roleContent.2).1
  decide (roleContent.1 = js "user") && decide (trimmed ≠ []) &&
    (decide (trimmed = HEARTBEAT_TRANSCRIPT_PROMPT) || (trim HEARTBEAT_PROMPT).isPrefixOf trimmed ||
      (HEARTBEAT_TASK_PROMPT_PREFIX.isPrefixOf trimmed && includes trimmed HEARTBEAT_TASK_PROMPT_ACK))

/-- An answer to a prompt of the heartbeat that says no more than that all is well. -/
def isHeartbeatOkResponse (roleContent : JsString × HistoryContent β) : Bool :=
  let (text, hasNonTextContent) := resolveMessageText roleContent.2
  decide (roleContent.1 = js "assistant") && !hasNonTextContent &&
    (decide (trim text = []) || host.skipsHeartbeat text)

def isSubagentAnnounceInterSessionUserMessage : Bool :=
  let text := extractProjectedText (message.content.orElse message.text)
  host.announced message.rest ||
    (includes text INTER_SESSION_PROMPT_PREFIX_BASE &&
      includes text (js "sourceTool=subagent_announce"))

def shouldHideProjectedHistoryMessage [UnicodeCase] : Bool :=
  match asRoleContentMessage message with
  | none => false
  | some roleContent =>
      let empty := isEmptyTextOnlyContent (message.content.orElse message.text)
      if decide (roleContent.1 = js "user") && isSubagentAnnounceInterSessionUserMessage host message then
        true
      else if decide (roleContent.1 = js "user") && empty then true
      else if decide (roleContent.1 = js "assistant") && empty then false
      else isHeartbeatUserMessage roleContent || isHeartbeatOkResponse host roleContent

end Message

/-! ## A list of messages -/

section Messages

variable (host : DisplayHost β) [UnicodeCase]

def sanitizeChatHistoryMessages (maxChars : ℕ) (messages : List (Option (HistoryMessage β))) :
    List (Option (HistoryMessage β)) :=
  messages.filterMap fun message =>
    match message with
    | none => some none
    | some message =>
        let sanitized := sanitizeChatHistoryMessage host message maxChars
        if (shouldDropAssistantHistoryMessage host message ||
            shouldDropAssistantHistoryMessage host sanitized) = true then none
        else some (some sanitized)

def isPrompt (message : HistoryMessage β) : Bool :=
  (asRoleContentMessage message).any isHeartbeatUserMessage

def isOkResponse (message : HistoryMessage β) : Bool :=
  (asRoleContentMessage message).any (isHeartbeatOkResponse host)

/-- The loop over the messages: a prompt of the heartbeat is hidden together with its answer. -/
def filterVisibleProjectedHistoryMessages : List (HistoryMessage β) → List (HistoryMessage β)
  | [] => []
  | [current] => if shouldHideProjectedHistoryMessage host current = true then [] else [current]
  | current :: next :: rest =>
      if (isPrompt current && isOkResponse host next) = true then
        filterVisibleProjectedHistoryMessages rest
      else if shouldHideProjectedHistoryMessage host current = true then
        filterVisibleProjectedHistoryMessages (next :: rest)
      else current :: filterVisibleProjectedHistoryMessages (next :: rest)

/-- A message is `none` when it is no object, or an array. -/
def projectChatDisplayMessages (maxChars : ℕ) (messages : List (Option (HistoryMessage β))) :
    List (HistoryMessage β) :=
  let source := messages.map fun message => message.map (stripEnvelopeFromMessage host)
  filterVisibleProjectedHistoryMessages host
    ((sanitizeChatHistoryMessages host maxChars source).filterMap id)

end Messages

/-!
## Pages of a session's history

`src/gateway/session-history-state.ts`: the page before a cursor, the snapshot of a transcript or of its
tail, and the history to which messages are appended one by one.
-/

structure PaginatedSessionHistory (β : Type) where
  messages : List (HistoryMessage β)
  nextCursor : Option JsString := none
  hasMore : Bool

structure SessionHistorySnapshot (β : Type) where
  history : PaginatedSessionHistory β
  rawTranscriptSeq : ℕ

/-- `maxMessages` of `resolveSessionHistoryTailReadOptions`. -/
def resolveSessionHistoryTailReadOptions (limit : ℕ) : ℕ := max 1 limit * 20 + 20

/-! ## Numbers -/

def numberText (n : ℕ) : JsString := (Nat.toDigits 10 n).map unit

/-- `Number.parseInt(text, 10)`; `none` when there is no digit or a minus sign before it. -/
def parseDecimal (text : JsString) : Option ℕ :=
  let trimmed := text.dropWhile isSpace
  let unsigned := if trimmed.head? = some (unit '+') then trimmed.tail else trimmed
  let digits := unsigned.takeWhile isDigit
  if digits = [] then none
  else some (digits.foldl (fun value u => 10 * value + (u.toNat - 48)) 0)

def resolveCursorSeq (cursor : Option JsString) : Option ℕ :=
  (cursor.filter fun cursor => cursor ≠ []).bind fun cursor =>
    let normalized := if (js "seq:").isPrefixOf cursor then cursor.drop 4 else cursor
    (parseDecimal normalized).filter fun value => 0 < value

/-! ## Pages -/

section Pages

def resolveMessageSeq (message : Option (HistoryMessage β)) : Option ℕ :=
  message.bind fun message => message.seq.filter fun seq => 0 < seq

def endBefore (messages : List (HistoryMessage β)) (cursorSeq : ℕ) : ℕ :=
  (messages.zipIdx.findIdx? fun entry =>
    match resolveMessageSeq (some entry.1) with
    | some seq => decide (cursorSeq ≤ seq)
    | none => decide (cursorSeq ≤ entry.2 + 1)).getD messages.length

def paginateSessionMessages (messages : List (HistoryMessage β)) (limit : Option ℕ)
    (cursor : Option JsString) : PaginatedSessionHistory β :=
  let endExclusive :=
    match resolveCursorSeq cursor with
    | some cursorSeq => endBefore messages cursorSeq
    | none => messages.length
  let start :=
    match limit.filter fun limit => 0 < limit with
    | some limit => endExclusive - limit
    | none => 0
  let paginatedMessages := (messages.take endExclusive).drop start
  { messages := paginatedMessages
    hasMore := decide (0 < start)
    nextCursor :=
      if 0 < start then (resolveMessageSeq paginatedMessages.head?).map numberText else none }

def DEFAULT_CHAT_HISTORY_TEXT_MAX_CHARS : ℕ := 8000

variable (host : DisplayHost β) [UnicodeCase]

def buildSessionHistorySnapshot (rawMessages : List (Option (HistoryMessage β)))
    (maxChars limit : Option ℕ) (cursor : Option JsString)
    (rawTranscriptSeq totalRawMessages : Option ℕ) : SessionHistorySnapshot β :=
  let visibleMessages := projectChatDisplayMessages host
    (maxChars.getD DEFAULT_CHAT_HISTORY_TEXT_MAX_CHARS) rawMessages
  let history := paginateSessionMessages visibleMessages limit cursor
  let isTail := (cursor.filter fun cursor => cursor ≠ []).isNone &&
    (totalRawMessages.any fun total => rawMessages.length < total) && !history.messages.isEmpty
  let rawHistoryMessages := rawMessages.filterMap id
  { history :=
      if isTail = true then
        { history with
          hasMore := true
          nextCursor :=
            ((resolveMessageSeq history.messages.head?).map numberText).or history.nextCursor }
      else history
    rawTranscriptSeq :=
      (rawTranscriptSeq.or (resolveMessageSeq rawHistoryMessages.getLast?)).getD
        rawHistoryMessages.length }

def tailSnapshot (rawMessages : List (Option (HistoryMessage β))) (maxChars : Option ℕ) (limit : ℕ) :
    SessionHistorySnapshot β :=
  buildSessionHistorySnapshot host
    (rawMessages.drop (rawMessages.length - resolveSessionHistoryTailReadOptions limit)) maxChars
    (some limit) none (some rawMessages.length) (some rawMessages.length)

def fullSnapshot (rawMessages : List (Option (HistoryMessage β))) (maxChars limit : Option ℕ)
    (cursor : Option JsString) : SessionHistorySnapshot β :=
  buildSessionHistorySnapshot host rawMessages maxChars limit cursor none none

def followPages (rawMessages : List (Option (HistoryMessage β))) (maxChars : Option ℕ) (limit : ℕ) :
    ℕ → PaginatedSessionHistory β → Option (List (PaginatedSessionHistory β))
  | requests, page =>
      if page.hasMore = false then some [page]
      else
        match requests with
        | 0 => none
        | requests + 1 =>
            (followPages rawMessages maxChars limit requests
              (fullSnapshot host rawMessages maxChars (some limit) page.nextCursor).history).map
                fun pages => page :: pages

end Pages

/-! ## The history of a stream -/

structure SessionHistorySseState (β : Type) where
  maxChars : ℕ
  limit : Option ℕ
  cursor : Option JsString
  sentHistory : PaginatedSessionHistory β
  rawTranscriptSeq : ℕ

section Stream

variable (host : DisplayHost β) [UnicodeCase]

def fromRawSnapshot (rawMessages : List (Option (HistoryMessage β)))
    (rawTranscriptSeq totalRawMessages maxChars limit : Option ℕ) (cursor : Option JsString) :
    SessionHistorySseState β :=
  let maxChars := maxChars.getD DEFAULT_CHAT_HISTORY_TEXT_MAX_CHARS
  let snapshot := buildSessionHistorySnapshot host rawMessages (some maxChars) limit cursor
    rawTranscriptSeq totalRawMessages
  { maxChars
    limit
    cursor
    sentHistory := snapshot.history
    rawTranscriptSeq := snapshot.rawTranscriptSeq }

def appendInlineMessage (state : SessionHistorySseState β) (message : Option (HistoryMessage β)) :
    SessionHistorySseState β × Option (HistoryMessage β × Option ℕ) :=
  if state.limit.isSome || state.cursor.isSome then (state, none)
  else
    let seq := state.rawTranscriptSeq + 1
    let state := { state with rawTranscriptSeq := seq }
    let nextMessage := message.map fun message => { message with seq := some seq }
    match (projectChatDisplayMessages host state.maxChars [nextMessage]).head? with
    | none => (state, none)
    | some sanitizedMessage =>
        ({ state with
            sentHistory :=
              { messages := state.sentHistory.messages ++ [sanitizedMessage], hasMore := false } },
          some (sanitizedMessage, resolveMessageSeq (some sanitizedMessage)))

/-- `refreshAsync` for a stream without limit and cursor, which reads the whole transcript. -/
def refresh (state : SessionHistorySseState β) (rawMessages : List (Option (HistoryMessage β))) :
    SessionHistorySseState β :=
  let snapshot := buildSessionHistorySnapshot host rawMessages (some state.maxChars) state.limit
    state.cursor none none
  { state with sentHistory := snapshot.history, rawTranscriptSeq := snapshot.rawTranscriptSeq }

end Stream

end GreenchClaw.SessionHistory
