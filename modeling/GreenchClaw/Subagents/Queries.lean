import GreenchClaw.Js.Map
import GreenchClaw.Js.Number
import GreenchClaw.Lib.Extremum
import GreenchClaw.Lib.Memo
import GreenchClaw.Lib.Worklist

/-!
# Queries on the runs of subagents

`src/agents/subagent-registry-queries.ts` with `src/agents/subagent-run-liveness.ts`: the queries that scan
all runs, and the index that is built once and answers the same questions. Times are in milliseconds.
-/

namespace GreenchClaw.Subagents

open GreenchClaw.Js

structure SubagentRunRecord where
  runId : JsString
  childSessionKey : JsString
  controllerSessionKey : Option JsString := none
  requesterSessionKey : JsString
  createdAt : ℚ
  startedAt : Option JsNumber := none
  sessionStartedAt : Option JsNumber := none
  endedAt : Option JsNumber := none
  cleanupCompletedAt : Option JsNumber := none
  runTimeoutSeconds : Option JsNumber := none
  deriving DecidableEq

/-! ## Liveness -/

def STALE_UNENDED_SUBAGENT_RUN_MS : ℚ := 2 * 60 * 60 * 1000

def EXPLICIT_TIMEOUT_STALE_GRACE_MS : ℚ := 60000

/-- `Date.UTC(2020, 0, 1)`. -/
def MIN_REALISTIC_RUN_TIMESTAMP_MS : ℚ := 1577836800000

def finiteValue : Option JsNumber → Option ℚ
  | some (.finite value) => some value
  | _ => none

namespace SubagentRunRecord

variable (entry : SubagentRunRecord)

def hasSubagentRunEnded : Bool := (finiteValue entry.endedAt).isSome

def getSubagentSessionStartedAt : ℚ :=
  ((finiteValue entry.sessionStartedAt).or (finiteValue entry.startedAt)).getD entry.createdAt

def resolveStaleCutoffMs : ℚ :=
  match finiteValue entry.runTimeoutSeconds with
  | some timeoutSeconds =>
      if 0 < timeoutSeconds then
        max STALE_UNENDED_SUBAGENT_RUN_MS (⌊timeoutSeconds⌋ * 1000 + EXPLICIT_TIMEOUT_STALE_GRACE_MS)
      else STALE_UNENDED_SUBAGENT_RUN_MS
  | none => STALE_UNENDED_SUBAGENT_RUN_MS

def isStaleUnendedSubagentRun (now : ℚ) : Bool :=
  if entry.hasSubagentRunEnded then false
  else if entry.getSubagentSessionStartedAt < MIN_REALISTIC_RUN_TIMESTAMP_MS then false
  else entry.resolveStaleCutoffMs < now - entry.getSubagentSessionStartedAt

def isLiveUnendedSubagentRun (now : ℚ) : Bool :=
  !entry.hasSubagentRunEnded && !entry.isStaleUnendedSubagentRun now

def resolveControllerSessionKey : JsString :=
  match entry.controllerSessionKey with
  | some key => if trim key = [] then entry.requesterSessionKey else trim key
  | none => entry.requesterSessionKey

end SubagentRunRecord

open SubagentRunRecord

structure LatestRunPair where
  runId : JsString
  entry : SubagentRunRecord
  deriving DecidableEq

def rememberLatestRunEntry (map : Map SubagentRunRecord) (key : JsString) (entry : SubagentRunRecord) :
    Map SubagentRunRecord :=
  match map.get key with
  | none => map.set key entry
  | some existing => if existing.createdAt < entry.createdAt then map.set key entry else map

def rememberLatestRunPair (map : Map LatestRunPair) (key runId : JsString) (entry : SubagentRunRecord) :
    Map LatestRunPair :=
  match map.get key with
  | none => map.set key ⟨runId, entry⟩
  | some existing =>
      if existing.entry.createdAt < entry.createdAt then map.set key ⟨runId, entry⟩ else map

/-! ## Queries -/

section Queries

variable (runs : Map SubagentRunRecord)

def values : List SubagentRunRecord := runs.entries.map Prod.snd

def findLatestRunForChildSession (childSessionKey : JsString) : Option SubagentRunRecord :=
  if trim childSessionKey = [] then none
  else (values runs).foldl
    (fun (latest : Option SubagentRunRecord) entry =>
      if entry.childSessionKey = trim childSessionKey then Newest.keep createdAt latest entry else latest)
    none

def getSubagentRunByChildSessionKeyFromRuns (now : ℚ) (childSessionKey : JsString) : Option SubagentRunRecord :=
  if trim childSessionKey = [] then none
  else
    let latest := (values runs).foldl
      (fun (latest : Option SubagentRunRecord × Option SubagentRunRecord) entry =>
        if entry.childSessionKey = trim childSessionKey then
          if entry.isLiveUnendedSubagentRun now then (Newest.keep createdAt latest.1 entry, latest.2)
          else (latest.1, Newest.keep createdAt latest.2 entry)
        else latest)
      (none, none)
    latest.1.or latest.2

def latestByChildSessionKey (requester : JsString) : Map LatestRunPair :=
  runs.entries.foldl
    (fun (map : Map LatestRunPair) run =>
      if run.2.requesterSessionKey = requester then
        rememberLatestRunPair map (trim run.2.childSessionKey) run.1 run.2
      else map)
    Map.empty

def visitOf (requester : JsString) (pair : LatestRunPair) : Option (JsString × LatestRunPair) :=
  match findLatestRunForChildSession runs pair.entry.childSessionKey with
  | none => none
  | some latest =>
      if latest.runId = pair.runId ∧ latest.requesterSessionKey = requester then
        some (trim pair.entry.childSessionKey, pair)
      else none

def descendantsOf (requester : JsString) : List (JsString × LatestRunPair) :=
  (latestByChildSessionKey runs requester).entries.filterMap fun item => visitOf runs requester item.2

/-- The runs that `forEachDescendantRun` visits, none below a blank key. -/
def forEachDescendantRun (fuel : ℕ) (rootSessionKey : JsString) : Option (List LatestRunPair) :=
  if trim rootSessionKey = [] then some []
  else Worklist.run (descendantsOf runs) fuel [trim rootSessionKey] [trim rootSessionKey]

def countActiveDescendantRunsFromRuns (fuel : ℕ) (now : ℚ) (rootSessionKey : JsString) : Option ℕ :=
  (forEachDescendantRun runs fuel rootSessionKey).map fun visited =>
    visited.countP fun pair => pair.entry.isLiveUnendedSubagentRun now

def isRunPending (now : ℚ) (entry : SubagentRunRecord) : Bool :=
  if entry.hasSubagentRunEnded then entry.cleanupCompletedAt.isNone else entry.isLiveUnendedSubagentRun now

def countPendingDescendantRunsInternal (fuel : ℕ) (now : ℚ) (rootSessionKey : JsString)
    (excludeRunId : Option JsString) : Option ℕ :=
  (forEachDescendantRun runs fuel rootSessionKey).map fun visited =>
    visited.countP fun pair => isRunPending now pair.entry && some pair.runId ≠ excludeRunId.map trim

def countPendingDescendantRunsFromRuns (fuel : ℕ) (now : ℚ) (rootSessionKey : JsString) : Option ℕ :=
  countPendingDescendantRunsInternal runs fuel now rootSessionKey none

def countPendingDescendantRunsExcludingRunFromRuns (fuel : ℕ) (now : ℚ) (rootSessionKey excludeRunId : JsString) :
    Option ℕ :=
  countPendingDescendantRunsInternal runs fuel now rootSessionKey (some excludeRunId)

end Queries

/-! ## The index -/

structure InMemoryDisplay where
  latestInMemoryActive : Option SubagentRunRecord := none
  latestInMemoryEnded : Option SubagentRunRecord := none

def InMemoryDisplay.choose (display : InMemoryDisplay) : Option SubagentRunRecord :=
  match display.latestInMemoryEnded, display.latestInMemoryActive with
  | some ended, some active => if active.createdAt < ended.createdAt then some ended else some active
  | some ended, none => some ended
  | none, active => active

structure SubagentRunReadIndex where
  now : ℚ
  inMemoryDisplayByChildSessionKey : Map InMemoryDisplay := Map.empty
  latestSnapshotActiveByChildSessionKey : Map SubagentRunRecord := Map.empty
  latestSnapshotEndedByChildSessionKey : Map SubagentRunRecord := Map.empty
  latestRunByChildSessionKey : Map LatestRunPair := Map.empty
  runsByControllerSessionKey : Map (List SubagentRunRecord) := Map.empty
  latestRunByRequesterAndChildSessionKey : Map (Map LatestRunPair) := Map.empty
  activeDescendantCountBySessionKey : Memo.Table JsString ℕ := ∅

namespace SubagentRunReadIndex

variable (index : SubagentRunReadIndex)

def addInMemory (entry : SubagentRunRecord) : SubagentRunReadIndex :=
  let key := trim entry.childSessionKey
  if key = [] then index
  else
    let display := (index.inMemoryDisplayByChildSessionKey.get key).getD {}
    let display :=
      if entry.hasSubagentRunEnded then
        { display with latestInMemoryEnded := Newest.keep createdAt display.latestInMemoryEnded entry }
      else { display with latestInMemoryActive := Newest.keep createdAt display.latestInMemoryActive entry }
    { index with inMemoryDisplayByChildSessionKey := index.inMemoryDisplayByChildSessionKey.set key display }

def addController (entry : SubagentRunRecord) : Map (List SubagentRunRecord) :=
  let key := entry.resolveControllerSessionKey
  if key = [] then index.runsByControllerSessionKey
  else
    index.runsByControllerSessionKey.set key (((index.runsByControllerSessionKey.get key).getD []) ++ [entry])

def addRun (runId : JsString) (entry : SubagentRunRecord) : SubagentRunReadIndex :=
  let key := trim entry.childSessionKey
  let index := { index with runsByControllerSessionKey := index.addController entry }
  if key = [] then index
  else
    let live := entry.isLiveUnendedSubagentRun index.now
    let active := index.latestSnapshotActiveByChildSessionKey
    let ended := index.latestSnapshotEndedByChildSessionKey
    let byRequester := index.latestRunByRequesterAndChildSessionKey
    let requester := entry.requesterSessionKey
    { index with
      latestSnapshotActiveByChildSessionKey := if live then rememberLatestRunEntry active key entry else active
      latestSnapshotEndedByChildSessionKey := if live then ended else rememberLatestRunEntry ended key entry
      latestRunByChildSessionKey := rememberLatestRunPair index.latestRunByChildSessionKey key runId entry
      latestRunByRequesterAndChildSessionKey :=
        if requester = [] then byRequester
        else byRequester.set requester
          (rememberLatestRunPair ((byRequester.get requester).getD Map.empty) key runId entry) }

end SubagentRunReadIndex

def buildSubagentRunReadIndexFromRuns (runs : Map SubagentRunRecord) (inMemoryRuns : List SubagentRunRecord)
    (now : ℚ) : SubagentRunReadIndex :=
  runs.entries.foldl (fun (index : SubagentRunReadIndex) run => index.addRun run.1 run.2)
    (inMemoryRuns.foldl SubagentRunReadIndex.addInMemory { now })

namespace SubagentRunReadIndex

variable (index : SubagentRunReadIndex)

def getDisplaySubagentRun (childSessionKey : JsString) : Option SubagentRunRecord :=
  let key := trim childSessionKey
  if key = [] then none
  else
    (((index.inMemoryDisplayByChildSessionKey.get key).bind InMemoryDisplay.choose).or
      (index.latestSnapshotActiveByChildSessionKey.get key)).or
      (index.latestSnapshotEndedByChildSessionKey.get key)

def descendantsOf (requester : JsString) : List (JsString × LatestRunPair) :=
  match index.latestRunByRequesterAndChildSessionKey.get requester with
  | none => []
  | some latestByChild =>
      latestByChild.entries.filter fun item =>
        (index.latestRunByChildSessionKey.get item.1).any fun latest =>
          latest.runId = item.2.runId ∧ latest.entry.requesterSessionKey = requester

/-- The count below a root, with the index that remembers it. -/
def countActiveDescendantRuns (fuel : ℕ) (rootSessionKey : JsString) : Option (ℕ × SubagentRunReadIndex) :=
  let root := trim rootSessionKey
  if root = [] then some (0, index)
  else
    match index.activeDescendantCountBySessionKey.lookup root with
    | some count => some (count, index)
    | none =>
        (Worklist.run index.descendantsOf fuel [root] [root]).map fun visited =>
          let count := visited.countP fun pair => pair.entry.isLiveUnendedSubagentRun index.now
          (count, { index with
            activeDescendantCountBySessionKey :=
              index.activeDescendantCountBySessionKey.insert root count })

def afterCounts (fuel : ℕ) (index : SubagentRunReadIndex) (asked : List JsString) :
    Option SubagentRunReadIndex :=
  asked.foldlM (fun index key => (index.countActiveDescendantRuns fuel key).map Prod.snd) index

end SubagentRunReadIndex

end GreenchClaw.Subagents
