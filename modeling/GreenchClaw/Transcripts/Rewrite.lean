import GreenchClaw.Js.Map
import GreenchClaw.Js.Text

/-!
# The state of a transcript file

`TranscriptFileState` of `src/agents/pi-embedded-runner/transcript-file-state.ts`: the entries of a session
in the order of the file, each with the id of its parent, and the leaf of the active branch.
-/

namespace GreenchClaw.Transcripts

open GreenchClaw.Js

/-! ## Entries -/

/-- What an entry holds, by its `type`: `μ` are messages and `δ` the values of fields without a type. -/
inductive SessionEntryData (μ δ : Type) where
  | message (message : μ)
  | thinkingLevelChange (thinkingLevel : JsString)
  | modelChange (provider modelId : JsString)
  | compaction (summary firstKeptEntryId : JsString) (tokensBefore : ℕ) (details : Option δ)
      (fromHook : Option Bool)
  | custom (customType : JsString) (data : Option δ)
  | customMessage (customType : JsString) (content : δ) (display : Bool) (details : Option δ)
  | sessionInfo (name : Option JsString)
  | branchSummary (fromId summary : JsString) (details : Option δ) (fromHook : Option Bool)
  | label (targetId : JsString) (label : Option JsString)

structure SessionEntry (μ δ : Type) where
  id : JsString
  parentId : Option JsString
  timestamp : JsString
  data : SessionEntryData μ δ

structure EntryHost where
  /-- The texts of `randomUUID`, one after the other. -/
  randomUUID : ℕ → JsString
  randomUUID_injective : Function.Injective randomUUID
  /-- A UUID is longer than the part of it that is used as an id. -/
  length_randomUUID : ∀ n, 8 < (randomUUID n).length
  /-- `new Date().toISOString()` when there are so many entries. -/
  now : ℕ → JsString

/-- The indexes over the entries are functions of these; labels are not read here. -/
structure TranscriptFileState (μ δ : Type) where
  entries : List (SessionEntry μ δ) := []
  leafId : Option JsString := none
  /-- How many UUIDs were drawn. -/
  drawn : ℕ := 0

inductive TranscriptError where
  | thrown (text : JsString)
  /-- A loop over parents that does not end. -/
  | endless
  deriving DecidableEq

def entryNotFound (id : JsString) : TranscriptError := .thrown (js "Entry " ++ id ++ js " not found")

variable {μ δ : Type}

/-- `byId.get`: the last entry with the id. -/
def byId (entries : List (SessionEntry μ δ)) (id : JsString) : Option (SessionEntry μ δ) :=
  entries.reverse.find? fun entry => entry.id = id

/-! ## Reading -/

def entryOf (entries : List (SessionEntry μ δ)) (id : Option JsString) : Option (SessionEntry μ δ) :=
  (id.filter fun id => id ≠ []).bind (byId entries)

/-- The loop of `getBranch`, so many rounds at most. -/
def branchUpwards (entries : List (SessionEntry μ δ)) :
    ℕ → Option (SessionEntry μ δ) → Option (List (SessionEntry μ δ))
  | _, none => some []
  | 0, some _ => none
  | rounds + 1, some current =>
      (branchUpwards entries rounds (entryOf entries current.parentId)).map fun branch =>
        current :: branch

namespace TranscriptFileState

variable (state : TranscriptFileState μ δ)

def ids : List JsString := state.entries.map SessionEntry.id

/-- A loop of more rounds than there are entries meets an entry again, so it does not end. -/
def getBranch (fromId : Option JsString) : Option (List (SessionEntry μ δ)) :=
  (branchUpwards state.entries state.entries.length
    (entryOf state.entries (fromId.or state.leafId))).map List.reverse

/-! ## Writing -/

def branch (branchFromId : JsString) : Except TranscriptError (TranscriptFileState μ δ) :=
  if (byId state.entries branchFromId).isNone then .error (entryNotFound branchFromId)
  else .ok { state with leafId := some branchFromId }

def resetLeaf : TranscriptFileState μ δ := { state with leafId := none }

def appendEntry (entry : SessionEntry μ δ) : TranscriptFileState μ δ × SessionEntry μ δ :=
  ({ state with entries := state.entries ++ [entry], leafId := some entry.id }, entry)

variable (host : EntryHost)

/-- The id, and how many UUIDs were drawn afterwards. -/
def generateEntryId : JsString × ℕ :=
  match (List.range 100).find? fun attempt =>
      (byId state.entries ((host.randomUUID (state.drawn + attempt)).take 8)).isNone with
  | some attempt => ((host.randomUUID (state.drawn + attempt)).take 8, state.drawn + attempt + 1)
  | none => (host.randomUUID (state.drawn + 100), state.drawn + 101)

def appendData (data : SessionEntryData μ δ) : TranscriptFileState μ δ × SessionEntry μ δ :=
  let (id, drawn) := state.generateEntryId host
  { state with drawn }.appendEntry
    { id, parentId := state.leafId, timestamp := host.now state.entries.length, data }

def appendMessage (message : μ) : TranscriptFileState μ δ × SessionEntry μ δ :=
  state.appendData host (.message message)

def appendThinkingLevelChange (thinkingLevel : JsString) :
    TranscriptFileState μ δ × SessionEntry μ δ :=
  state.appendData host (.thinkingLevelChange thinkingLevel)

def appendModelChange (provider modelId : JsString) : TranscriptFileState μ δ × SessionEntry μ δ :=
  state.appendData host (.modelChange provider modelId)

def appendCompaction (summary firstKeptEntryId : JsString) (tokensBefore : ℕ) (details : Option δ)
    (fromHook : Option Bool) : TranscriptFileState μ δ × SessionEntry μ δ :=
  state.appendData host (.compaction summary firstKeptEntryId tokensBefore details fromHook)

def appendCustomEntry (customType : JsString) (data : Option δ) :
    TranscriptFileState μ δ × SessionEntry μ δ :=
  state.appendData host (.custom customType data)

def appendSessionInfo (name : JsString) : TranscriptFileState μ δ × SessionEntry μ δ :=
  state.appendData host (.sessionInfo (some (trim name)))

def appendCustomMessageEntry (customType : JsString) (content : δ) (display : Bool)
    (details : Option δ) : TranscriptFileState μ δ × SessionEntry μ δ :=
  state.appendData host (.customMessage customType content display details)

def appendLabelChange (targetId : JsString) (label : Option JsString) :
    Except TranscriptError (TranscriptFileState μ δ × SessionEntry μ δ) :=
  if (byId state.entries targetId).isNone then .error (entryNotFound targetId)
  else .ok (state.appendData host (.label targetId label))

def branchWithSummary (branchFromId : Option JsString) (summary : JsString) (details : Option δ)
    (fromHook : Option Bool) : Except TranscriptError (TranscriptFileState μ δ × SessionEntry μ δ) :=
  match branchFromId.filter fun id => (byId state.entries id).isNone with
  | some missing => .error (entryNotFound missing)
  | none =>
      .ok ({ state with leafId := branchFromId }.appendData host
        (.branchSummary (branchFromId.getD (js "root")) summary details fromHook))

end TranscriptFileState

/-!
## Rewriting messages of a transcript

`rewriteTranscriptEntriesInState` of `src/agents/pi-embedded-runner/transcript-rewrite.ts`: the active branch
is left before the first message that is replaced, and what follows is appended again.
-/

structure TranscriptRewriteReplacement (μ : Type) where
  entryId : JsString
  message : μ

structure TranscriptRewriteResult (μ δ : Type) where
  changed : Bool
  bytesFreed : ℕ := 0
  rewrittenEntries : ℕ := 0
  reason : Option JsString := none
  appendedEntries : List (SessionEntry μ δ) := []

def remapEntryId (entryId : Option JsString) (rewrittenEntryIds : Map JsString) : Option JsString :=
  (entryId.filter fun id => id ≠ []).map fun id => (rewrittenEntryIds.get id).getD id

section Append

variable (host : EntryHost) (state : TranscriptFileState μ δ)

def appendTranscriptStateBranchEntry (entry : SessionEntry μ δ) (rewrittenEntryIds : Map JsString) :
    Except TranscriptError (TranscriptFileState μ δ × SessionEntry μ δ) :=
  match entry.data with
  | .message message => .ok (state.appendMessage host message)
  | .compaction summary firstKeptEntryId tokensBefore details fromHook =>
      .ok (state.appendCompaction host summary
        ((remapEntryId (some firstKeptEntryId) rewrittenEntryIds).getD firstKeptEntryId) tokensBefore
        details fromHook)
  | .thinkingLevelChange thinkingLevel => .ok (state.appendThinkingLevelChange host thinkingLevel)
  | .modelChange provider modelId => .ok (state.appendModelChange host provider modelId)
  | .custom customType data => .ok (state.appendCustomEntry host customType data)
  | .customMessage customType content display details =>
      .ok (state.appendCustomMessageEntry host customType content display details)
  | .sessionInfo name => .ok (state.appendSessionInfo host (name.getD []))
  | .branchSummary _ summary details fromHook =>
      state.branchWithSummary host (remapEntryId entry.parentId rewrittenEntryIds) summary details fromHook
  | .label targetId label =>
      state.appendLabelChange host ((remapEntryId (some targetId) rewrittenEntryIds).getD targetId) label

def replacementFor (replacementsById : Map μ) (entry : SessionEntry μ δ) : Option μ :=
  match entry.data with
  | .message _ => replacementsById.get entry.id
  | _ => none

def appendNewEntry (replacementsById : Map μ) (entry : SessionEntry μ δ)
    (rewrittenEntryIds : Map JsString) :
    Except TranscriptError (TranscriptFileState μ δ × SessionEntry μ δ) :=
  match replacementFor replacementsById entry with
  | none => appendTranscriptStateBranchEntry host state entry rewrittenEntryIds
  | some replacement => .ok (state.appendMessage host replacement)

/-- The loop over the entries of the branch from the first match: the state and the new entries. -/
def appendRewritten (replacementsById : Map μ) :
    List (SessionEntry μ δ) → TranscriptFileState μ δ → Map JsString →
      Except TranscriptError (TranscriptFileState μ δ × List (SessionEntry μ δ))
  | [], state, _ => .ok (state, [])
  | entry :: rest, state, rewrittenEntryIds => do
      let (state, newEntry) ← appendNewEntry host state replacementsById entry rewrittenEntryIds
      let (state, appendedEntries) ←
        appendRewritten replacementsById rest state (rewrittenEntryIds.set entry.id newEntry.id)
      return (state, newEntry :: appendedEntries)

end Append

def replacementsById (replacements : List (TranscriptRewriteReplacement μ)) : Map μ :=
  (replacements.filter fun replacement => trim replacement.entryId ≠ []).foldl
    (fun map replacement => map.set replacement.entryId replacement.message) .empty

def bytesSaved (estimateMessageBytes : μ → ℕ) (replacementsById : Map μ) (entry : SessionEntry μ δ) : ℕ :=
  match entry.data, replacementFor replacementsById entry with
  | .message message, some replacement =>
      estimateMessageBytes message - estimateMessageBytes replacement
  | _, _ => 0

def branchBefore (state : TranscriptFileState μ δ) (firstMatchedEntry : SessionEntry μ δ) :
    Except TranscriptError (TranscriptFileState μ δ) :=
  match firstMatchedEntry.parentId.filter fun id => id ≠ [] with
  | none => .ok state.resetLeaf
  | some parentId => state.branch parentId

def rewriteTranscriptEntriesInState (host : EntryHost) (estimateMessageBytes : μ → ℕ)
    (state : TranscriptFileState μ δ) (replacements : List (TranscriptRewriteReplacement μ)) :
    Except TranscriptError (TranscriptFileState μ δ × TranscriptRewriteResult μ δ) :=
  let replacementsById := replacementsById replacements
  if replacementsById.entries = [] then
    .ok (state, { changed := false, reason := some (js "no replacements requested") })
  else
    match state.getBranch none with
    | none => .error .endless
    | some [] => .ok (state, { changed := false, reason := some (js "empty session") })
    | some branch =>
        let matched := fun entry => (replacementFor replacementsById entry).isSome
        match branch.dropWhile fun entry => !matched entry with
        | [] => .ok (state, { changed := false, reason := some (js "no matching message entries") })
        | firstMatchedEntry :: rest => do
            let start ← branchBefore state firstMatchedEntry
            let (final, appendedEntries) ←
              appendRewritten host replacementsById (firstMatchedEntry :: rest) start .empty
            return (final,
              { changed := true
                bytesFreed := (branch.map (bytesSaved estimateMessageBytes replacementsById)).sum
                rewrittenEntries := branch.countP matched
                appendedEntries })

end GreenchClaw.Transcripts
