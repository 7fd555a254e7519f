import GreenchClaw.Js.Text
import GreenchClaw.Lib.JoinedText
import Mathlib.Algebra.BigOperators.Group.List.Basic
import Mathlib.Data.Rat.Defs
import Mathlib.Algebra.Ring.Int.Defs

/-!
# Context pruning

Before a request the old tool results of the context are trimmed to their ends, and, when that is
not enough, cleared from the oldest one on.
-/

namespace GreenchClaw.ContextPruning

open GreenchClaw.Js

/-! ## Estimates of a text -/

/-- The units of `NON_LATIN_RE` in the basic plane. -/
def isNonLatinUnit (u : CodeUnit) : Bool :=
  (0x2E80 ≤ u && u ≤ 0x9FFF) || (0xA000 ≤ u && u ≤ 0xA4FF) || (0xAC00 ≤ u && u ≤ 0xD7AF) ||
    (0xF900 ≤ u && u ≤ 0xFAFF)

/-- The surrogate pairs of `NON_LATIN_RE`: U+20000 to U+2FA1F. -/
def isNonLatinPair (high low : CodeUnit) : Bool :=
  0xD840 ≤ high && high ≤ 0xD87E && 0xDC00 ≤ low && low ≤ 0xDFFF &&
    (high < 0xD87E || low ≤ 0xDE1F)

/-- The matches of `CJK_SURROGATE_HIGH_RE`. -/
def isCjkSurrogatePair (high low : CodeUnit) : Bool :=
  0xD840 ≤ high && high ≤ 0xD87E && 0xDC00 ≤ low && low ≤ 0xDFFF

def countPairs (p : CodeUnit → CodeUnit → Bool) : JsString → ℕ
  | high :: low :: rest => (if p high low then 1 else 0) + countPairs p (low :: rest)
  | _ => 0

def estimateStringChars (text : JsString) : ℕ :=
  let nonLatinCount := text.countP isNonLatinUnit + countPairs isNonLatinPair text
  let codePointLength :=
    if nonLatinCount = 0 then text.length else text.length - countPairs isCjkSurrogatePair text
  codePointLength + nonLatinCount * 3

/-! ## Messages -/

/-- A block of a user message or a tool result; a text block without a text is known by its JSON. -/
inductive ContentBlock (δ : Type) where
  | text (text : JsString)
  | malformedText (serialized : JsString)
  | image (data : δ)
  | other (data : δ)
deriving DecidableEq

inductive AssistantBlock (δ : Type) where
  | text (text : JsString)
  | thinking (redacted : Bool) (thinking data thinkingSignature : Option JsString)
  | toolCall (serialized : Option JsString) (data : δ)
  | other (data : δ)
deriving DecidableEq

inductive UserContent (δ : Type) where
  | text (text : JsString)
  | blocks (blocks : List (ContentBlock δ))
deriving DecidableEq

/-- `AgentMessage`; the fields that pruning does not read are `rest`. -/
inductive AgentMessage (δ : Type) where
  | user (content : UserContent δ) (rest : δ)
  | assistant (content : List (AssistantBlock δ)) (rest : δ)
  | toolResult (toolName : JsString) (content : List (ContentBlock δ)) (rest : δ)
  | other (rest : δ)
deriving DecidableEq

structure SoftTrimSettings where
  maxChars : ℤ
  headChars : ℤ
  tailChars : ℤ

structure HardClearSettings where
  enabled : Bool
  placeholder : JsString

structure EffectiveContextPruningSettings where
  keepLastAssistants : ℤ
  softTrimRatio : ℚ
  hardClearRatio : ℚ
  minPrunableToolChars : ℤ
  softTrim : SoftTrimSettings
  hardClear : HardClearSettings

/-- The parameters of `pruneContextMessages` beside the messages and the settings; `divide` is the
division of doubles. -/
structure PruneParams where
  modelContextWindow : Option ℚ
  contextWindowTokensOverride : Option ℚ := none
  isToolPrunable : JsString → Bool
  dropThinkingBlocksForEstimate : Bool := false
  divide : ℤ → ℚ → ℚ

variable {δ : Type}

/-! ## Blocks -/

def coerceTextBlock : ContentBlock δ → Option JsString
  | .text text => some text
  | .malformedText serialized => some serialized
  | _ => none

def isImageBlock : ContentBlock δ → Bool
  | .image _ => true
  | _ => false

def prunedContextImageMarker : JsString := js "[image removed during context pruning]"

def collectTextSegments (content : List (ContentBlock δ)) : List JsString :=
  content.filterMap coerceTextBlock

def collectPrunableToolResultSegments (content : List (ContentBlock δ)) : List JsString :=
  content.filterMap fun block =>
    (coerceTextBlock block).or (if isImageBlock block then some prunedContextImageMarker else none)

def hasImageBlocks (content : List (ContentBlock δ)) : Bool := content.any isImageBlock

def imageCharEstimate : ℕ := 8000

def estimateTextAndImageChars (content : List (ContentBlock δ)) : ℕ :=
  (content.map fun block =>
    match coerceTextBlock block with
    | some text => estimateStringChars text
    | none => if isImageBlock block then imageCharEstimate else 0).sum

def estimateAssistantBlock : AssistantBlock δ → ℕ
  | .text text => estimateStringChars text
  | .thinking redacted thinking data thinkingSignature =>
      (thinking.map estimateStringChars).getD 0 +
        (if redacted then (data.map estimateStringChars).getD 0 else 0) +
        (thinkingSignature.map estimateStringChars).getD 0
  | .toolCall serialized _ => (serialized.map List.length).getD 128
  | .other _ => 0

def estimateMessageChars : AgentMessage δ → ℕ
  | .user (.text text) _ => estimateStringChars text
  | .user (.blocks content) _ => estimateTextAndImageChars content
  | .assistant content _ => (content.map estimateAssistantBlock).sum
  | .toolResult _ content _ => estimateTextAndImageChars content
  | .other _ => 256

def estimateContextChars (messages : List (AgentMessage δ)) : ℤ :=
  (messages.map fun message => (estimateMessageChars message : ℤ)).sum

/-! ## Thinking blocks -/

def isAssistant : AgentMessage δ → Bool
  | .assistant _ _ => true
  | _ => false

def isUser : AgentMessage δ → Bool
  | .user _ _ => true
  | _ => false

def isThinkingBlock : AssistantBlock δ → Bool
  | .thinking _ _ _ _ => true
  | _ => false

def buildOmittedAssistantReasoningContent : List (AssistantBlock δ) :=
  [.text (js "[assistant reasoning omitted]")]

def withoutThinking : AgentMessage δ → AgentMessage δ
  | .assistant content rest =>
      if content.any isThinkingBlock then
        let nextContent := content.filter fun block => !isThinkingBlock block
        .assistant (if nextContent = [] then buildOmittedAssistantReasoningContent else nextContent)
          rest
      else .assistant content rest
  | message => message

def dropThinkingBlocks : List (AgentMessage δ) → List (AgentMessage δ)
  | [] => []
  | message :: messages =>
      (if messages.any isAssistant then withoutThinking message else message) ::
        dropThinkingBlocks messages

/-! ## The range -/

/-- The loop of `findAssistantCutoffIndex` from the last message on: how many messages stand before
the one that is found. -/
def cutoffFromEnd : List (AgentMessage δ) → ℤ → Option ℕ
  | [], _ => none
  | message :: earlier, remaining =>
      if isAssistant message then
        if remaining - 1 = 0 then some earlier.length else cutoffFromEnd earlier (remaining - 1)
      else cutoffFromEnd earlier remaining

def findAssistantCutoffIndex (messages : List (AgentMessage δ)) (keepLastAssistants : ℤ) : Option ℕ :=
  if keepLastAssistants ≤ 0 then some messages.length
  else cutoffFromEnd messages.reverse keepLastAssistants

def findFirstUserIndex (messages : List (AgentMessage δ)) : Option ℕ := messages.findIdx? isUser

/-! ## Trimming -/

def lineBreak : CodeUnit := 10

def takeHeadFromJoinedText (parts : List JsString) (maxChars : ℤ) : JsString :=
  if maxChars ≤ 0 then [] else JoinedText.head lineBreak parts maxChars.toNat

def takeTailFromJoinedText (parts : List JsString) (maxChars : ℤ) : JsString :=
  if maxChars ≤ 0 then [] else JoinedText.tail lineBreak parts maxChars.toNat

def estimateJoinedTextLength (parts : List JsString) : ℕ :=
  if parts = [] then 0 else (parts.map List.length).sum + (parts.length - 1)

def trimNote (headChars tailChars rawLen : ℕ) : JsString :=
  js "\n\n[Tool result trimmed: kept first " ++ js (toString headChars) ++ js " chars and last " ++
    js (toString tailChars) ++ js " chars of " ++ js (toString rawLen) ++ js " chars.]"

def trimSegments (content : List (ContentBlock δ)) : List JsString :=
  if hasImageBlocks content then collectPrunableToolResultSegments content
  else collectTextSegments content

def softTrimToolResultMessage (settings : EffectiveContextPruningSettings)
    (content : List (ContentBlock δ)) : Option (List (ContentBlock δ)) :=
  let parts := trimSegments content
  let rawLen := estimateJoinedTextLength parts
  let headChars := max 0 settings.softTrim.headChars
  let tailChars := max 0 settings.softTrim.tailChars
  if rawLen ≤ settings.softTrim.maxChars ∨ rawLen ≤ headChars + tailChars then
    if hasImageBlocks content then some [.text (JoinedText.joined lineBreak parts)] else none
  else
    let head := takeHeadFromJoinedText parts headChars
    let tail := takeTailFromJoinedText parts tailChars
    some [.text (head ++ js "\n...\n" ++ tail ++ trimNote headChars.toNat tailChars.toNat rawLen)]

/-! ## `pruneContextMessages` -/

structure PruneState (δ : Type) where
  prunableToolIndexes : List ℕ := []
  next : List (AgentMessage δ)
  totalChars : ℤ

def softTrimStep (settings : EffectiveContextPruningSettings) (isToolPrunable : JsString → Bool)
    (messages : List (AgentMessage δ)) (s : PruneState δ) (i : ℕ) : PruneState δ :=
  match messages[i]? with
  | some (.toolResult toolName content rest) =>
      if isToolPrunable toolName then
        let indexes := s.prunableToolIndexes ++ [i]
        match softTrimToolResultMessage settings content with
        | none => { s with prunableToolIndexes := indexes }
        | some updated =>
            { prunableToolIndexes := indexes
              next := s.next.set i (.toolResult toolName updated rest)
              totalChars := s.totalChars +
                (estimateTextAndImageChars updated - estimateTextAndImageChars content : ℤ) }
      else s
  | _ => s

/-- The last loop: it stops when the ratio is low enough. -/
def hardClearLoop (isBelow : ℤ → Bool) (placeholder : JsString) :
    List ℕ → List (AgentMessage δ) × ℤ → List (AgentMessage δ) × ℤ
  | [], s => s
  | i :: indexes, (next, totalChars) =>
      if isBelow totalChars then (next, totalChars)
      else
        match next[i]? with
        | some (.toolResult toolName content rest) =>
            let cleared : List (ContentBlock δ) := [.text placeholder]
            hardClearLoop isBelow placeholder indexes
              (next.set i (.toolResult toolName cleared rest),
                totalChars +
                  (estimateTextAndImageChars cleared - estimateTextAndImageChars content : ℤ))
        | _ => hardClearLoop isBelow placeholder indexes (next, totalChars)

def prunableToolChars (next : List (AgentMessage δ)) (indexes : List ℕ) : ℤ :=
  (indexes.map fun i =>
    match next[i]? with
    | some (.toolResult _ content _) => (estimateTextAndImageChars content : ℤ)
    | _ => 0).sum

def contextWindowTokens (params : PruneParams) : Option ℚ :=
  match params.contextWindowTokensOverride.filter (0 < ·) with
  | some tokens => some tokens
  | none => params.modelContextWindow.filter (0 < ·)

def estimatedMessages (params : PruneParams) (messages : List (AgentMessage δ)) :
    List (AgentMessage δ) :=
  if params.dropThinkingBlocksForEstimate then dropThinkingBlocks messages else messages

def pruneRange (messages : List (AgentMessage δ)) (cutoffIndex : ℕ) : List ℕ :=
  let pruneStartIndex := (findFirstUserIndex messages).getD messages.length
  List.range' pruneStartIndex (cutoffIndex - pruneStartIndex)

def softTrimmed (settings : EffectiveContextPruningSettings) (params : PruneParams)
    (messages : List (AgentMessage δ)) (cutoffIndex : ℕ) : PruneState δ :=
  (pruneRange messages cutoffIndex).foldl (softTrimStep settings params.isToolPrunable messages)
    { next := messages, totalChars := estimateContextChars (estimatedMessages params messages) }

def pruneRun (settings : EffectiveContextPruningSettings) (params : PruneParams)
    (messages : List (AgentMessage δ)) : Option (List (AgentMessage δ) × ℤ) :=
  match contextWindowTokens params with
  | none => none
  | some tokens =>
      match findAssistantCutoffIndex messages settings.keepLastAssistants with
      | none => none
      | some cutoffIndex =>
          let ratio := fun totalChars => params.divide totalChars (tokens * 4)
          let totalCharsBefore := estimateContextChars (estimatedMessages params messages)
          if ratio totalCharsBefore < settings.softTrimRatio then none
          else
            let trimmed := softTrimmed settings params messages cutoffIndex
            if ratio trimmed.totalChars < settings.hardClearRatio then
              some (trimmed.next, trimmed.totalChars)
            else if !settings.hardClear.enabled then some (trimmed.next, trimmed.totalChars)
            else if prunableToolChars trimmed.next trimmed.prunableToolIndexes <
                settings.minPrunableToolChars then
              some (trimmed.next, trimmed.totalChars)
            else
              some (hardClearLoop (fun totalChars => ratio totalChars < settings.hardClearRatio)
                settings.hardClear.placeholder trimmed.prunableToolIndexes
                (trimmed.next, trimmed.totalChars))

def pruneContextMessages (settings : EffectiveContextPruningSettings) (params : PruneParams)
    (messages : List (AgentMessage δ)) : List (AgentMessage δ) :=
  match pruneRun settings params messages with
  | some (next, _) => next
  | none => messages

end GreenchClaw.ContextPruning
