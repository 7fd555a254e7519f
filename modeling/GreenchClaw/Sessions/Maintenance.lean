import GreenchClaw.Js.Map
import GreenchClaw.Lib.Ranking
import GreenchClaw.Routing.SessionKey
import Mathlib.Algebra.Order.Ring.Rat
import Mathlib.Order.WithBot

/-!
# Maintenance of the session store

`src/config/sessions/store-maintenance.ts`: stale entries are pruned, the number of entries is capped, and the
active session is warned about both. The order of a store is the one of `Object.keys`.
-/

namespace GreenchClaw.SessionMaintenance

open GreenchClaw.Js GreenchClaw.Routing

/-- The fields that maintenance reads; `updatedAt` can be missing in a store that was written by hand. -/
structure SessionEntry where
  updatedAt : Option ℚ := none
  chatType : Option JsString := none
  originChatType : Option JsString := none
  deriving DecidableEq

/-- `messaging.resolveSessionConversation` of the channel plugins that are loaded: the id and the thread of a
raw conversation. -/
class ConversationHost where
  resolveSessionConversation : JsString → JsString → JsString → Option (JsString × Option JsString)

/-! ## Session keys -/

def lastIndexOf (text part : JsString) : Option ℕ :=
  (List.range (text.length + 1)).reverse.find? fun index => part.isPrefixOf (text.drop index)

section Keys

variable [UnicodeCase]

/-- Whether the key, or what follows the agent in it, starts so. -/
def restStartsWith (start : String) (rest : JsString) : Bool :=
  (normalizeOptionalLowercaseString (some rest)).any (js start).isPrefixOf

def isCronSessionKey (sessionKey : JsString) : Bool :=
  (parseAgentSessionKey sessionKey).any fun parsed => restStartsWith "cron:" parsed.rest

def isSubagentSessionKey (sessionKey : JsString) : Bool :=
  match normalizeOptionalString (some sessionKey) with
  | none => false
  | some raw =>
      restStartsWith "subagent:" raw ||
        (parseAgentSessionKey raw).any fun parsed => restStartsWith "subagent:" parsed.rest

def isAcpSessionKey (sessionKey : JsString) : Bool :=
  match normalizeOptionalString (some sessionKey) with
  | none => false
  | some raw =>
      (js "acp:").isPrefixOf (normalizeLowercaseStringOrEmpty (some raw)) ||
        (parseAgentSessionKey raw).any fun parsed => restStartsWith "acp:" parsed.rest

def parseThreadSessionSuffix (sessionKey : JsString) : Option JsString :=
  match normalizeOptionalString (some sessionKey) with
  | none => none
  | some raw =>
      match lastIndexOf (normalizeLowercaseStringOrEmpty (some raw)) (js ":thread:") with
      | none => none
      | some index => normalizeOptionalString (some (raw.drop (index + 8)))

structure RawSessionConversationRef where
  channel : JsString
  kind : JsString
  rawId : JsString

def parseRawSessionConversationRef (sessionKey : JsString) : Option RawSessionConversationRef :=
  match normalizeOptionalString (some sessionKey) with
  | none => none
  | some raw =>
      let rawParts := (splitColons raw).filter fun part => part ≠ []
      let bodyStartIndex :=
        if 3 ≤ rawParts.length ∧
          (rawParts.head?.bind fun part => normalizeOptionalLowercaseString (some part)) = some (js "agent")
        then 2 else 0
      match rawParts.drop bodyStartIndex with
      | first :: second :: third :: parts =>
          match normalizeOptionalLowercaseString (some first), normalizeOptionalLowercaseString (some second),
              normalizeOptionalString (some (joinColons (third :: parts))),
              normalizeOptionalString (some (joinColons (rawParts.take (bodyStartIndex + 2)))) with
          | some channel, some kind, some rawId, some _ =>
              if kind = js "group" ∨ kind = js "channel" then some { channel, kind, rawId } else none
          | _, _, _, _ => none
      | _ => none

def lowerRest (sessionKey : JsString) : JsString :=
  normalizeLowercaseStringOrEmpty (some (((parseAgentSessionKey sessionKey).map (·.rest)).getD sessionKey))

def isSyntheticSessionMaintenanceKey (sessionKey : JsString) : Bool :=
  let rest := lowerRest sessionKey
  isSubagentSessionKey sessionKey || isAcpSessionKey sessionKey || isCronSessionKey sessionKey ||
    (js "hook:").isPrefixOf rest || (js "node:").isPrefixOf rest || rest = js "heartbeat" ||
    (js ":heartbeat").isSuffixOf rest || includes rest (js ":heartbeat:")

def isTelegramTopicSessionKey (sessionKey : JsString) : Bool :=
  let rest := lowerRest sessionKey
  let topic := rest.rtakeWhile (· ≠ 58)
  let before := rest.take (rest.length - topic.length)
  topic ≠ [] && (js ":topic:").isSuffixOf before &&
    ["telegram:group:", "telegram:channel:", "telegram:direct:", "telegram:dm:"].any fun start =>
      let middle := (before.take (before.length - 7)).drop start.length
      (js start).isPrefixOf (before.take (before.length - 7)) && middle ≠ [] &&
        middle.all fun unit => !isLineTerminator unit

def isExternalGroupOrChannelSessionKey (sessionKey : JsString) : Bool :=
  let rest := lowerRest sessionKey
  let channel := rest.takeWhile (· ≠ 58)
  let after := rest.drop channel.length
  channel ≠ [] && [":group:", ":channel:"].any fun kind =>
    let id := after.drop kind.length
    (js kind).isPrefixOf after && id ≠ [] && id.all fun unit => !isLineTerminator unit

variable [ConversationHost]

def parseSessionThreadInfoFast (sessionKey : JsString) : Option JsString :=
  let resolved :=
    match parseRawSessionConversationRef sessionKey with
    | none => none
    | some raw =>
        if trim raw.rawId = [] then none
        else
          match ConversationHost.resolveSessionConversation raw.channel raw.kind (trim raw.rawId) with
          | none => none
          | some (id, threadId) => if trim id = [] then none else some (normalizeOptionalString threadId)
  resolved.getD (parseThreadSessionSuffix sessionKey)

def isProtectedSessionMaintenanceEntry (sessionKey : JsString) (entry : SessionEntry) : Bool :=
  if isSyntheticSessionMaintenanceKey sessionKey then false
  else if (parseSessionThreadInfoFast sessionKey).isSome then true
  else if isTelegramTopicSessionKey sessionKey then true
  else if isExternalGroupOrChannelSessionKey sessionKey then true
  else
    let chatType := normalizeLowercaseStringOrEmpty (entry.chatType.or entry.originChatType)
    chatType = js "group" || chatType = js "channel" || chatType = js "thread"

end Keys

/-! ## Pruning and capping -/

section Maintenance

variable [UnicodeCase] [ConversationHost]

def shouldPreserveMaintenanceEntry (preserveKeys : List JsString) (key : JsString) (entry : SessionEntry) : Bool :=
  key ∈ preserveKeys || isProtectedSessionMaintenanceEntry key entry

def isOlderThan (cutoffMs : ℚ) (entry : SessionEntry) : Bool := entry.updatedAt.any (· < cutoffMs)

def pruneStaleEntries (store : Map SessionEntry) (maxAgeMs now : ℚ) (preserveKeys : List JsString) :
    Map SessionEntry where
  entries := store.entries.filter fun item =>
    shouldPreserveMaintenanceEntry preserveKeys item.1 item.2 || !isOlderThan (now - maxAgeMs) item.2
  distinct := store.distinct.sublist (List.filter_sublist.map _)

/-- A missing time counts as the oldest one. -/
def getEntryUpdatedAt (entry : SessionEntry) : WithBot ℚ := entry.updatedAt

/-- The keys that `capEntryCount` removes: those behind the newest ones that there is room for. -/
def cappedKeys (store : Map SessionEntry) (maxEntries : ℤ) (preserveKeys : List JsString) : List JsString :=
  let preservedCount := store.entries.countP fun item => shouldPreserveMaintenanceEntry preserveKeys item.1 item.2
  let maxRemovableEntries := (maxEntries - preservedCount).toNat
  let removable := store.entries.filter fun item => !shouldPreserveMaintenanceEntry preserveKeys item.1 item.2
  if removable.length ≤ maxRemovableEntries then []
  else ((Ranking.newestFirst (fun item : JsString × SessionEntry => getEntryUpdatedAt item.2) removable).drop
    maxRemovableEntries).map Prod.fst

def capEntryCount (store : Map SessionEntry) (maxEntries : ℤ) (preserveKeys : List JsString) : Map SessionEntry where
  entries := store.entries.filter fun item => item.1 ∉ cappedKeys store maxEntries preserveKeys
  distinct := store.distinct.sublist (List.filter_sublist.map _)

/-! ## The warning -/

/-- The loop of `wouldCapActiveSession`: it ends once enough entries stand before the active one. -/
def countsUpTo (activeSessionKey : JsString) (activeUpdatedAt : WithBot ℚ) (maxRemovableEntries : ℕ) :
    List (JsString × SessionEntry) → Bool → ℕ → Bool
  | [], _, _ => false
  | (key, entry) :: rest, seenActive, newerOrTieBeforeActive =>
      if key = activeSessionKey then countsUpTo activeSessionKey activeUpdatedAt maxRemovableEntries rest true
        newerOrTieBeforeActive
      else if isProtectedSessionMaintenanceEntry key entry then
        countsUpTo activeSessionKey activeUpdatedAt maxRemovableEntries rest seenActive newerOrTieBeforeActive
      else if activeUpdatedAt < getEntryUpdatedAt entry ∨
          (seenActive = false ∧ getEntryUpdatedAt entry = activeUpdatedAt) then
        if maxRemovableEntries ≤ newerOrTieBeforeActive + 1 then true
        else countsUpTo activeSessionKey activeUpdatedAt maxRemovableEntries rest seenActive
          (newerOrTieBeforeActive + 1)
      else countsUpTo activeSessionKey activeUpdatedAt maxRemovableEntries rest seenActive newerOrTieBeforeActive

def wouldCapActiveSession (store : Map SessionEntry) (activeEntry : SessionEntry) (activeSessionKey : JsString)
    (maxEntries : ℤ) : Bool :=
  if (store.entries.length : ℤ) ≤ maxEntries then false
  else if maxEntries ≤ 0 then true
  else
    let protectedCount := store.entries.countP fun item =>
      item.1 ≠ activeSessionKey && isProtectedSessionMaintenanceEntry item.1 item.2
    let maxRemovableEntries := (maxEntries - protectedCount).toNat
    if maxRemovableEntries = 0 then true
    else countsUpTo activeSessionKey (getEntryUpdatedAt activeEntry) maxRemovableEntries store.entries false 0

structure SessionMaintenanceWarning where
  activeSessionKey : JsString
  activeUpdatedAt : Option ℚ
  totalEntries : ℕ
  pruneAfterMs : ℚ
  maxEntries : ℤ
  wouldPrune : Bool
  wouldCap : Bool

def getActiveSessionMaintenanceWarning (store : Map SessionEntry) (activeSessionKey : JsString)
    (pruneAfterMs : ℚ) (maxEntries : ℤ) (now : ℚ) : Option SessionMaintenanceWarning :=
  let activeSessionKey := trim activeSessionKey
  if activeSessionKey = [] then none
  else
    match store.get activeSessionKey with
    | none => none
    | some activeEntry =>
        if isProtectedSessionMaintenanceEntry activeSessionKey activeEntry then none
        else
          let wouldPrune := isOlderThan (now - pruneAfterMs) activeEntry
          let wouldCap := wouldCapActiveSession store activeEntry activeSessionKey maxEntries
          if wouldPrune = false ∧ wouldCap = false then none
          else some {
            activeSessionKey
            activeUpdatedAt := activeEntry.updatedAt
            totalEntries := store.entries.length
            pruneAfterMs
            maxEntries
            wouldPrune
            wouldCap }

end Maintenance

end GreenchClaw.SessionMaintenance
