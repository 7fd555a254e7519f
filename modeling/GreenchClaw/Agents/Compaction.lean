import GreenchClaw.Agents.TranscriptRepair
import Mathlib.Algebra.Order.Ring.Rat

/-!
# Compaction

`splitMessagesByTokenShare`, `pruneHistoryForContextShare` and `chunkMessagesByMaxTokens` of
`src/agents/compaction.ts`: chunks of about the same number of tokens, a history that loses chunks until
it fits its share of the context, and chunks of bounded size.
-/

namespace GreenchClaw.Agents

open GreenchClaw.Js

variable {α : Type}

/-! ## Tokens -/

/-- What the estimate reads of a message: whether it is the custom message of a runtime context, what a
result is without its details, and the estimate of the agent library. -/
structure TokenHost (α : Type) where
  isRuntimeContext : α → Bool
  withoutDetails : α → α
  estimateTokens : AgentMessage α → ℚ

section Tokens

variable (host : TokenHost α)

def isGreenchClawRuntimeContextCustomMessage : AgentMessage α → Bool
  | .other value => host.isRuntimeContext value
  | _ => false

def stripRuntimeContextCustomMessages (messages : List (AgentMessage α)) : List (AgentMessage α) :=
  messages.filter fun message => !isGreenchClawRuntimeContextCustomMessage host message

def stripToolResultDetails (messages : List (AgentMessage α)) : List (AgentMessage α) :=
  messages.map fun message =>
    match message with
    | .toolResult result => .toolResult { result with rest := host.withoutDetails result.rest }
    | message => message

def estimateMessagesTokens (messages : List (AgentMessage α)) : ℚ :=
  ((stripToolResultDetails host (stripRuntimeContextCustomMessages host messages)).map
    host.estimateTokens).sum

def estimateCompactionMessageTokens (message : AgentMessage α) : ℚ :=
  estimateMessagesTokens host [message]

end Tokens

/-! ## Chunks -/

def DEFAULT_PARTS : ℚ := 2

def normalizeParts (parts : Option ℚ) (messageCount : ℕ) : ℕ :=
  match parts with
  | none => 1
  | some parts => if parts ≤ 1 then 1 else min (max 1 parts.floor.toNat) (max 1 messageCount)

structure SplitState (α : Type) where
  chunks : List (List (AgentMessage α)) := []
  current : List (AgentMessage α) := []
  currentTokens : ℚ := 0
  pendingToolCallIds : List JsString := []
  pendingChunkStartIndex : Option ℕ := none

section Split

variable (host : TokenHost α) (normalizedParts : ℕ) (targetTokens : ℚ)

namespace SplitState

variable (s : SplitState α)

def mayClose : Bool := s.chunks.length < normalizedParts - 1

def splitCurrentAtPendingBoundary : SplitState α :=
  match s.pendingChunkStartIndex with
  | none => s
  | some start =>
      if start = 0 ∨ !s.mayClose normalizedParts then s
      else
        let current := s.current.drop start
        { s with
          chunks := s.chunks ++ [s.current.take start]
          current
          currentTokens := (current.map (estimateCompactionMessageTokens host)).sum
          pendingChunkStartIndex := some 0 }

def splitBefore (messageTokens : ℚ) : SplitState α :=
  if s.pendingToolCallIds.length = 0 ∧ s.mayClose normalizedParts ∧ 0 < s.current.length ∧
      targetTokens < s.currentTokens + messageTokens then
    { s with
      chunks := s.chunks ++ [s.current]
      current := []
      currentTokens := 0
      pendingChunkStartIndex := none }
  else s

def pushMessage (message : AgentMessage α) (messageTokens : ℚ) : SplitState α :=
  { s with
    current := s.current ++ [message]
    currentTokens := s.currentTokens + messageTokens }

def awaitResults (assistant : AssistantMessage α) : SplitState α :=
  let toolCalls := extractToolCallsFromAssistant assistant
  if !isErrored assistant ∧ 0 < toolCalls.length then
    { s with
      pendingToolCallIds := toolCalls.map ToolCallLike.id
      pendingChunkStartIndex := some (s.current.length - 1) }
  else { s with pendingToolCallIds := [], pendingChunkStartIndex := none }

def takeResult (result : ToolResultMessage α) : SplitState α :=
  match extractToolResultId result with
  | none => { s with pendingToolCallIds := [], pendingChunkStartIndex := none }
  | some resultId =>
      { s with pendingToolCallIds := s.pendingToolCallIds.filter fun id => id ≠ resultId }

/-- After the last result of a turn a chunk that has become too large is closed before the turn. -/
def settle : SplitState α :=
  if s.pendingToolCallIds.length = 0 ∧ s.mayClose normalizedParts ∧ targetTokens < s.currentTokens then
    { s.splitCurrentAtPendingBoundary host normalizedParts with pendingChunkStartIndex := none }
  else s

def receive (message : AgentMessage α) : SplitState α :=
  let messageTokens := estimateCompactionMessageTokens host message
  (s.splitBefore normalizedParts targetTokens messageTokens).pushMessage message messageTokens

def splitNext (message : AgentMessage α) : SplitState α :=
  let s := s.receive host normalizedParts targetTokens message
  match message with
  | .assistant assistant => s.awaitResults assistant
  | .toolResult result =>
      if 0 < s.pendingToolCallIds.length then
        (s.takeResult result).settle host normalizedParts targetTokens
      else s
  | _ => s

def finish : List (List (AgentMessage α)) :=
  let s :=
    if 0 < s.pendingToolCallIds.length ∧ targetTokens < s.currentTokens then
      s.splitCurrentAtPendingBoundary host normalizedParts
    else s
  if 0 < s.current.length then s.chunks ++ [s.current] else s.chunks

end SplitState

end Split

def splitMessagesByTokenShare (host : TokenHost α) (messages : List (AgentMessage α))
    (parts : Option ℚ) : List (List (AgentMessage α)) :=
  if messages.length = 0 then []
  else
    let normalizedParts := normalizeParts parts messages.length
    if normalizedParts ≤ 1 then [messages]
    else
      let targetTokens := estimateMessagesTokens host messages / normalizedParts
      (messages.foldl (fun (s : SplitState α) => s.splitNext host normalizedParts targetTokens) {}).finish
        host normalizedParts targetTokens

/-! ## Pruning -/

structure PruneParams where
  maxContextTokens : ℚ
  maxHistoryShare : Option ℚ := none
  /-- `none` when it is not given, `some none` for a number that is not finite. -/
  parts : Option (Option ℚ) := none
  isHandoff : Bool := false

structure PrunedHistory (α : Type) where
  messages : List (AgentMessage α)
  droppedMessagesList : List (AgentMessage α) := []
  droppedChunks : ℕ := 0
  droppedMessages : ℕ := 0
  droppedTokens : ℚ := 0

section Prune

variable (host : TokenHost α) (body : JsString → α)

def budgetTokens (params : PruneParams) : ℤ :=
  let defaultShare : ℚ := if params.isHandoff then 1 / 5 else 1 / 2
  max 1 (params.maxContextTokens * params.maxHistoryShare.getD defaultShare).floor

def pruneOnce (parts : ℕ) (budget : ℤ) (history : PrunedHistory α) : Option (PrunedHistory α) :=
  if history.messages.length = 0 ∨ estimateMessagesTokens host history.messages ≤ budget then none
  else
    match splitMessagesByTokenShare host history.messages (some parts) with
    | dropped :: next :: rest =>
        let repairReport := repairToolUseResultPairing {} body (next :: rest).flatten
        some
          { messages := repairReport.messages
            droppedMessagesList := history.droppedMessagesList ++ dropped
            droppedChunks := history.droppedChunks + 1
            droppedMessages :=
              history.droppedMessages + dropped.length + repairReport.droppedOrphanCount
            droppedTokens := history.droppedTokens + estimateMessagesTokens host dropped }
    | _ => none

def pruneLoop (parts : ℕ) (budget : ℤ) : ℕ → PrunedHistory α → Option (PrunedHistory α)
  | 0, _ => none
  | fuel + 1, history =>
      match pruneOnce host body parts budget history with
      | none => some history
      | some next => pruneLoop parts budget fuel next

def pruneHistoryForContextShare (params : PruneParams) (fuel : ℕ) (messages : List (AgentMessage α)) :
    Option (PrunedHistory α) :=
  let parts := normalizeParts (params.parts.getD (some DEFAULT_PARTS)) messages.length
  pruneLoop host body parts (budgetTokens params) fuel { messages }

end Prune

/-! ## Chunks of bounded size -/

structure ChunkState (α : Type) where
  chunks : List (List (AgentMessage α)) := []
  currentChunk : List (AgentMessage α) := []
  currentTokens : ℚ := 0

namespace ChunkState

section Loop

variable (host : TokenHost α) (effectiveMax : ℚ) (s : ChunkState α)

def flush : ChunkState α := { chunks := s.chunks ++ [s.currentChunk] }

/-- The body of the loop; a message that is too large by itself ends its chunk. -/
def next (message : AgentMessage α) : ChunkState α :=
  let messageTokens := estimateCompactionMessageTokens host message
  let s := if s.currentChunk ≠ [] ∧ effectiveMax < s.currentTokens + messageTokens then s.flush else s
  let s := { s with
    currentChunk := s.currentChunk ++ [message]
    currentTokens := s.currentTokens + messageTokens }
  if effectiveMax < messageTokens then s.flush else s

end Loop

def FitsTokens (host : TokenHost α) (effectiveMax : ℚ) (chunk : List (AgentMessage α)) : Prop :=
  chunk ≠ [] ∧ ((chunk.map (estimateCompactionMessageTokens host)).sum ≤ effectiveMax ∨ chunk.length = 1)

variable {host : TokenHost α} {effectiveMax : ℚ} {s : ChunkState α} {seen : List (AgentMessage α)}

structure Chunked (host : TokenHost α) (effectiveMax : ℚ) (seen : List (AgentMessage α))
    (s : ChunkState α) : Prop where
  all : s.chunks.flatten ++ s.currentChunk = seen
  fits : ∀ chunk ∈ s.chunks, FitsTokens host effectiveMax chunk
  tokens : s.currentTokens = (s.currentChunk.map (estimateCompactionMessageTokens host)).sum
  small : s.currentTokens ≤ effectiveMax

theorem Chunked.flush (h : s.Chunked host effectiveMax seen) (hne : s.currentChunk ≠ [])
    (hpos : 0 ≤ effectiveMax) : s.flush.Chunked host effectiveMax seen where
  all := by simpa [ChunkState.flush] using h.all
  fits := List.forall_mem_append.mpr
    ⟨h.fits, List.forall_mem_singleton.mpr ⟨hne, .inl (h.tokens ▸ h.small)⟩⟩
  tokens := rfl
  small := hpos

theorem Chunked.next (h : s.Chunked host effectiveMax seen) (hpos : 0 ≤ effectiveMax)
    (message : AgentMessage α) :
    (s.next host effectiveMax message).Chunked host effectiveMax (seen ++ [message]) := by
  unfold ChunkState.next
  generalize htokens : estimateCompactionMessageTokens host message = messageTokens
  obtain ⟨start, hstart, hchunked, hroom⟩ : ∃ start,
      (if s.currentChunk ≠ [] ∧ effectiveMax < s.currentTokens + messageTokens then s.flush else s) =
        start ∧ start.Chunked host effectiveMax seen ∧
      (start.currentChunk = [] ∨ start.currentTokens + messageTokens ≤ effectiveMax) := by
    refine ⟨_, rfl, ?_⟩
    split_ifs with hfull
    · exact ⟨h.flush hfull.1 hpos, .inl rfl⟩
    · rw [not_and_or, not_not, not_lt] at hfull
      exact ⟨h, hfull⟩
  have hsum : start.currentTokens + messageTokens =
      ((start.currentChunk ++ [message]).map (estimateCompactionMessageTokens host)).sum := by
    simp [hchunked.tokens, htokens]
  have hall : start.chunks.flatten ++ (start.currentChunk ++ [message]) = seen ++ [message] := by
    rw [← List.append_assoc, hchunked.all]
  simp only [hstart]
  split_ifs with hlarge
  · have hfits : FitsTokens host effectiveMax (start.currentChunk ++ [message]) := by
      refine ⟨by simp, ?_⟩
      rcases hroom with hnil | hroom
      · exact .inr (by rw [hnil]; rfl)
      · exact .inl (hsum ▸ hroom)
    constructor
    · simpa [ChunkState.flush] using hall
    · exact List.forall_mem_append.mpr ⟨hchunked.fits, List.forall_mem_singleton.mpr hfits⟩
    · rfl
    · exact hpos
  · refine ⟨hall, hchunked.fits, hsum, ?_⟩
    rcases hroom with hnil | hroom
    · rw [hchunked.tokens, hnil, List.map_nil, List.sum_nil, zero_add]
      exact not_lt.mp hlarge
    · exact hroom

theorem chunked_run (hpos : 0 ≤ effectiveMax) (messages : List (AgentMessage α))
    (h : s.Chunked host effectiveMax seen) :
    (messages.foldl (fun s => s.next host effectiveMax) s).Chunked host effectiveMax
      (seen ++ messages) := by
  induction messages generalizing s seen with
  | nil => rwa [List.append_nil]
  | cons message messages ih =>
      rw [List.append_cons]
      exact ih (h.next hpos message)

end ChunkState

/-- `scaled` is `Math.floor(maxTokens / SAFETY_MARGIN)`, a division of doubles. -/
def chunkMessagesByMaxTokens (host : TokenHost α) (scaled : ℚ) (messages : List (AgentMessage α)) :
    List (List (AgentMessage α)) :=
  let s : ChunkState α := messages.foldl (fun s => s.next host (max 1 scaled)) {}
  if s.currentChunk ≠ [] then s.chunks ++ [s.currentChunk] else s.chunks

/-- The chunks are the messages in their order, and each is within the limit or a single message. -/
theorem chunks_by_tokens (host : TokenHost α) (scaled : ℚ) (messages : List (AgentMessage α)) :
    (chunkMessagesByMaxTokens host scaled messages).flatten = messages ∧
      ∀ chunk ∈ chunkMessagesByMaxTokens host scaled messages,
        ChunkState.FitsTokens host (max 1 scaled) chunk := by
  have hpos : 0 ≤ max 1 scaled := le_max_of_le_left zero_le_one
  have hstart : ChunkState.Chunked host (max 1 scaled) [] {} :=
    ⟨rfl, fun _ hchunk => absurd hchunk List.not_mem_nil, rfl, hpos⟩
  have hchunked := ChunkState.chunked_run hpos messages hstart
  rw [chunkMessagesByMaxTokens]
  generalize messages.foldl _ _ = s at hchunked
  split_ifs with hopen
  · exact ⟨by simpa using hchunked.all, (hchunked.flush hopen hpos).fits⟩
  · rw [not_not] at hopen
    exact ⟨by simpa [hopen] using hchunked.all, hchunked.fits⟩

end GreenchClaw.Agents
