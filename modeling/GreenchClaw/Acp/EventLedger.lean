import GreenchClaw.Config.JsonText
import GreenchClaw.Js.Number
import GreenchClaw.Js.Record
import Mathlib.Data.List.Sort

/-!
# The ACP event ledger

The updates of the sessions, kept within limits, in memory and in a file.  The file holds a JSON
value; its text matters for the limit on bytes alone.
-/

namespace GreenchClaw.Acp

open GreenchClaw.Js
open GreenchClaw.Config (JsonValue NumberText stringify)

/-! ## The store -/

structure SessionUpdate where
  fields : Record (JsonValue ℚ)
  isUpdate : ∃ kind, fields.get (js "sessionUpdate") = some (.string kind)

structure AcpEventLedgerEntry where
  seq : ℕ
  recordedAt : ℚ
  sessionId : JsString
  sessionKey : JsString
  runId : Option JsString
  update : SessionUpdate

structure LedgerSession where
  sessionId : JsString
  sessionKey : JsString
  cwd : JsString
  complete : Bool
  createdAt : ℚ
  updatedAt : ℚ
  nextSeq : ℕ
  events : List AcpEventLedgerEntry

abbrev Sessions := Record LedgerSession

structure AcpEventLedgerReplay where
  complete : Bool
  sessionId : Option JsString := none
  sessionKey : Option JsString := none
  events : List AcpEventLedgerEntry := []

structure LedgerOptions where
  maxSessions : Option JsNumber := none
  maxEventsPerSession : Option JsNumber := none
  maxSerializedBytes : Option JsNumber := none

structure LedgerLimits where
  maxSessions : JsNumber
  maxEventsPerSession : JsNumber
  maxSerializedBytes : JsNumber

def LEDGER_VERSION : ℚ := 1

def DEFAULT_MAX_SESSIONS : ℕ := 200

def DEFAULT_MAX_EVENTS_PER_SESSION : ℕ := 5000

def DEFAULT_MAX_SERIALIZED_BYTES : ℕ := 16 * 1024 * 1024

def normalizeLimit (least fallback : ℕ) (value : Option JsNumber) : JsNumber :=
  JsNumber.max (JsNumber.ofInt least) (value.getD (JsNumber.ofInt fallback)).floor

def normalizeLedgerOptions (options : LedgerOptions) : LedgerLimits :=
  { maxSessions := normalizeLimit 1 DEFAULT_MAX_SESSIONS options.maxSessions
    maxEventsPerSession :=
      normalizeLimit 1 DEFAULT_MAX_EVENTS_PER_SESSION options.maxEventsPerSession
    maxSerializedBytes :=
      normalizeLimit 1024 DEFAULT_MAX_SERIALIZED_BYTES options.maxSerializedBytes }

/-! ## The serialized store -/

def AcpEventLedgerEntry.toJson (entry : AcpEventLedgerEntry) : JsonValue ℚ :=
  .object <|
    [(js "seq", .number entry.seq), (js "at", .number entry.recordedAt),
      (js "sessionId", .string entry.sessionId), (js "sessionKey", .string entry.sessionKey)] ++
      (match entry.runId with
        | some runId => [(js "runId", .string runId)]
        | none => []) ++
      [(js "update", .object entry.update.fields)]

def LedgerSession.toJson (session : LedgerSession) : JsonValue ℚ :=
  .object
    [(js "sessionId", .string session.sessionId), (js "sessionKey", .string session.sessionKey),
      (js "cwd", .string session.cwd), (js "complete", .bool session.complete),
      (js "createdAt", .number session.createdAt), (js "updatedAt", .number session.updatedAt),
      (js "nextSeq", .number session.nextSeq),
      (js "events", .array (session.events.map AcpEventLedgerEntry.toJson))]

/-- What `serializeLedgerStore` writes, as a value. -/
def storeJson (sessions : Sessions) : JsonValue ℚ :=
  .object
    [(js "version", .number LEDGER_VERSION),
      (js "sessions", .object (sessions.map fun entry => (entry.1, entry.2.toJson)))]

def getSerializedLedgerByteLength [NumberText ℚ] (sessions : Sessions) : ℕ :=
  (utf8Encode (stringify (storeJson sessions))).length

/-! ## Reading a serialized store -/

def asRecord : JsonValue ℚ → Option (Record (JsonValue ℚ))
  | .object fields => some fields
  | _ => none

def stringField (fields : Record (JsonValue ℚ)) (name : String) : Option JsString :=
  match fields.get (js name) with
  | some (.string value) => some value
  | _ => none

def numberField (fields : Record (JsonValue ℚ)) (name : String) : Option ℚ :=
  match fields.get (js name) with
  | some (.number value) => some value
  | _ => none

def integerField (fields : Record (JsonValue ℚ)) (name : String) (least : ℕ) : Option ℕ :=
  match numberField fields name with
  | some value => if value.den = 1 ∧ least ≤ value.num then some value.num.toNat else none
  | none => none

def updateField (fields : Record (JsonValue ℚ)) : Option SessionUpdate :=
  match fields.get (js "update") with
  | some (.object update) =>
      match hkind : Record.get update (js "sessionUpdate") with
      | some (.string kind) => some { fields := update, isUpdate := ⟨kind, hkind⟩ }
      | _ => none
  | _ => none

def normalizeEvent (raw : JsonValue ℚ) : Option AcpEventLedgerEntry := do
  let fields ← asRecord raw
  let update ← updateField fields
  let seq ← integerField fields "seq" 0
  let recordedAt ← numberField fields "at"
  let sessionId ← stringField fields "sessionId"
  let sessionKey ← stringField fields "sessionKey"
  return {
    seq := seq
    recordedAt := recordedAt
    sessionId := sessionId
    sessionKey := sessionKey
    runId := (stringField fields "runId").filter fun runId => runId ≠ []
    update := update }

def normalizeSession (raw : JsonValue ℚ) : Option LedgerSession := do
  let fields ← asRecord raw
  let sessionId ← stringField fields "sessionId"
  let sessionKey ← stringField fields "sessionKey"
  let cwd ← stringField fields "cwd"
  let createdAt ← numberField fields "createdAt"
  let updatedAt ← numberField fields "updatedAt"
  let nextSeq ← integerField fields "nextSeq" 1
  let events :=
    match fields.get (js "events") with
    | some (.array events) => events.filterMap normalizeEvent
    | _ => []
  let complete :=
    match fields.get (js "complete") with
    | some (.bool complete) => complete
    | _ => false
  return {
    sessionId := sessionId
    sessionKey := sessionKey
    cwd := cwd
    complete := complete
    createdAt := createdAt
    updatedAt := updatedAt
    nextSeq := nextSeq
    events := events }

def addSession (sessions : Sessions) (entry : JsString × JsonValue ℚ) : Sessions :=
  match normalizeSession entry.2 with
  | some session =>
      if session.sessionId = entry.1 then sessions.set entry.1 session else sessions
  | none => sessions

def normalizeStore (raw : Option (JsonValue ℚ)) : Sessions :=
  match raw.bind asRecord with
  | none => []
  | some fields =>
      match numberField fields "version", (fields.get (js "sessions")).bind asRecord with
      | some version, some sessions =>
          if version = LEDGER_VERSION then sessions.foldl addSession [] else []
      | _, _ => []

/-! ## Mutations -/

structure SessionParams where
  sessionId : JsString
  sessionKey : JsString
  cwd : JsString
  complete : Bool
  reset : Bool

/-- What is passed to `appendUpdate`. -/
structure UpdateParams where
  sessionId : JsString
  sessionKey : JsString
  runId : Option JsString
  update : SessionUpdate

def getOrCreateSession (sessions : Sessions) (params : SessionParams) (now : ℚ) :
    Sessions × LedgerSession :=
  let session :=
    match (sessions.get params.sessionId).filter fun _ => !params.reset with
    | some existing =>
        { existing with
          sessionKey := params.sessionKey
          cwd := if params.cwd = [] then existing.cwd else params.cwd
          complete := existing.complete || params.complete
          updatedAt := now }
    | none =>
        { sessionId := params.sessionId
          sessionKey := params.sessionKey
          cwd := params.cwd
          complete := params.complete
          createdAt := now
          updatedAt := now
          nextSeq := 1
          events := [] }
  (sessions.set params.sessionId session, session)

def lastEvents (limit : JsNumber) (events : List AcpEventLedgerEntry) : List AcpEventLedgerEntry :=
  match limit with
  | .finite value => events.drop (events.length - value.floor.toNat)
  | _ => events

def trimSession (limits : LedgerLimits) (session : LedgerSession) : LedgerSession :=
  if (JsNumber.ofInt session.events.length).le limits.maxEventsPerSession then session
  else
    { session with
      events := lastEvents limits.maxEventsPerSession session.events
      complete := false }

def exceeds (count : ℕ) (limit : JsNumber) : Bool := limit.lt (JsNumber.ofInt count)

def sliceFrom {α : Type} (limit : JsNumber) (list : List α) : List α :=
  match limit with
  | .finite value => list.drop value.floor.toNat
  | .posInfinity => []
  | _ => list

def newestFirst (sessions : Sessions) : Sessions :=
  sessions.insertionSort fun a b => b.2.updatedAt ≤ a.2.updatedAt

def oldestFirst (sessions : Sessions) : Sessions :=
  sessions.insertionSort fun a b => a.2.updatedAt ≤ b.2.updatedAt

def trimSessions (limits : LedgerLimits) (sessions : Sessions) : Sessions :=
  if exceeds sessions.length limits.maxSessions then
    (sliceFrom limits.maxSessions (newestFirst sessions)).foldl
      (fun sessions entry => sessions.delete entry.2.sessionId) sessions
  else sessions

def eventCount (sessions : Sessions) : ℕ := (sessions.map fun entry => entry.2.events.length).sum

section Bytes

variable [NumberText ℚ]

def trimEvents (limits : LedgerLimits) : ℕ → Sessions → Sessions
  | 0, sessions => sessions
  | rounds + 1, sessions =>
      if exceeds (getSerializedLedgerByteLength sessions) limits.maxSerializedBytes then
        match (oldestFirst (sessions.filter fun entry => !entry.2.events.isEmpty)).head? with
        | none => sessions
        | some (key, session) =>
            trimEvents limits rounds (sessions.set key
              { session with events := session.events.tail, complete := false })
      else sessions

def deleteOldest (limits : LedgerLimits) : ℕ → Sessions → Sessions
  | 0, sessions => sessions
  | rounds + 1, sessions =>
      if exceeds (getSerializedLedgerByteLength sessions) limits.maxSerializedBytes then
        match (oldestFirst sessions).head? with
        | none => sessions
        | some (_, session) => deleteOldest limits rounds (sessions.delete session.sessionId)
      else sessions

def trimLedger (limits : LedgerLimits) (sessions : Sessions) : Sessions :=
  let sessions := sessions.map fun entry => (entry.1, trimSession limits entry.2)
  let sessions := trimSessions limits sessions
  let sessions := trimEvents limits (eventCount sessions) sessions
  deleteOldest limits sessions.length sessions

def appendUpdate (limits : LedgerLimits) (sessions : Sessions) (params : UpdateParams)
    (foundAt now : ℚ) : Sessions :=
  let (sessions, session) := getOrCreateSession sessions
    { sessionId := params.sessionId
      sessionKey := params.sessionKey
      cwd := []
      complete := false
      reset := false } foundAt
  let event :=
    { seq := session.nextSeq
      recordedAt := now
      sessionId := params.sessionId
      sessionKey := params.sessionKey
      runId := params.runId.filter fun runId => runId ≠ []
      update := params.update }
  trimLedger limits (sessions.set params.sessionId
    { session with
      updatedAt := now
      events := session.events ++ [event]
      nextSeq := session.nextSeq + 1 })

/-! ## The ledger -/

def startSession (limits : LedgerLimits) (sessions : Sessions) (params : SessionParams)
    (now : ℚ) : Sessions :=
  trimLedger limits (getOrCreateSession sessions params now).1

def createUserPromptUpdate (content : JsonValue ℚ) : SessionUpdate :=
  { fields := [(js "sessionUpdate", .string (js "user_message_chunk")), (js "content", content)]
    isUpdate := ⟨js "user_message_chunk", rfl⟩ }

structure PromptBlock where
  content : JsonValue ℚ
  foundAt : ℚ
  now : ℚ

def recordUserPrompt (limits : LedgerLimits) (sessions : Sessions)
    (sessionId sessionKey runId : JsString) (prompt : List PromptBlock) : Sessions :=
  prompt.foldl (fun sessions block =>
    appendUpdate limits sessions
      { sessionId := sessionId
        sessionKey := sessionKey
        runId := some runId
        update := createUserPromptUpdate block.content } block.foundAt block.now) sessions

end Bytes

def markIncomplete (sessions : Sessions) (sessionId sessionKey : JsString) (now : ℚ) : Sessions :=
  match sessions.get sessionId with
  | none => sessions
  | some session =>
      if session.sessionKey ≠ sessionKey then sessions
      else sessions.set sessionId { session with complete := false, updatedAt := now }

def buildReplay (session : LedgerSession) : AcpEventLedgerReplay :=
  { complete := true
    sessionId := some session.sessionId
    sessionKey := some session.sessionKey
    events := session.events }

def readReplay (sessions : Sessions) (sessionId sessionKey : JsString) : AcpEventLedgerReplay :=
  match sessions.get sessionId with
  | none => { complete := false }
  | some session =>
      if session.sessionKey ≠ sessionKey ∨ session.complete = false then { complete := false }
      else buildReplay session

def readReplayBySessionId (sessions : Sessions) (sessionId : JsString) : AcpEventLedgerReplay :=
  match sessions.get sessionId with
  | none => { complete := false }
  | some session => if session.complete = false then { complete := false } else buildReplay session

def readReplayBySessionKey (sessions : Sessions) (sessionKey : JsString) : AcpEventLedgerReplay :=
  match (newestFirst (sessions.filter fun entry =>
      decide (entry.2.sessionKey = sessionKey) && entry.2.complete)).head? with
  | none => { complete := false }
  | some (_, session) => buildReplay session

/-!
## The file of the ledger

Loading what was written gives back the sessions.
-/

/-- An event as `appendUpdate` makes it: a run id is not empty. -/
def AcpEventLedgerEntry.Written (entry : AcpEventLedgerEntry) : Prop := entry.runId ≠ some []

structure LedgerSession.Written (session : LedgerSession) : Prop where
  nextSeq : 1 ≤ session.nextSeq
  events : ∀ event ∈ session.events, event.Written

theorem integerField_natCast {fields : Record (JsonValue ℚ)} {name : String} {least n : ℕ}
    (h : numberField fields name = some (n : ℚ)) (hle : least ≤ n) :
    integerField fields name least = some n := by
  have hnum : (n : ℚ).num = n := Rat.num_natCast n
  rw [integerField, h]
  dsimp only
  rw [if_pos ⟨Rat.den_natCast n, by rw [hnum]; exact_mod_cast hle⟩, hnum, Int.toNat_natCast]

theorem updateField_eq {fields : Record (JsonValue ℚ)} {update : SessionUpdate}
    (h : fields.get (js "update") = some (.object update.fields)) :
    updateField fields = some update := by
  obtain ⟨kind, hkind⟩ := update.isUpdate
  rw [updateField, h]
  dsimp only
  split
  · rfl
  · rename_i hother
    exact absurd hkind (hother kind)

theorem normalizeEvent_toJson {entry : AcpEventLedgerEntry} (h : entry.Written) :
    normalizeEvent entry.toJson = some entry := by
  obtain ⟨seq, recordedAt, sessionId, sessionKey, runId, update⟩ := entry
  cases runId with
  | none =>
      rw [normalizeEvent, AcpEventLedgerEntry.toJson, asRecord]
      dsimp only
      simp only [Option.bind_eq_bind, Option.bind_some]
      rw [@updateField_eq _ update rfl, integerField_natCast (n := seq) rfl (Nat.zero_le _)]
      rfl
  | some runId =>
      have hrunId : runId ≠ [] := fun heq => h (congrArg some heq)
      rw [normalizeEvent, AcpEventLedgerEntry.toJson, asRecord]
      dsimp only
      simp only [Option.bind_eq_bind, Option.bind_some]
      rw [@updateField_eq _ update rfl, integerField_natCast (n := seq) rfl (Nat.zero_le _)]
      show some (AcpEventLedgerEntry.mk seq recordedAt sessionId sessionKey
        ((some runId).filter fun runId => runId ≠ []) update) = _
      rw [Option.filter_some_pos (by simpa using hrunId)]

theorem normalizeSession_toJson {session : LedgerSession} (h : session.Written) :
    normalizeSession session.toJson = some session := by
  obtain ⟨sessionId, sessionKey, cwd, complete, createdAt, updatedAt, nextSeq, events⟩ := session
  have hevents : (events.map AcpEventLedgerEntry.toJson).filterMap normalizeEvent = events := by
    rw [List.filterMap_map]
    have hall : ∀ event ∈ events, (normalizeEvent ∘ AcpEventLedgerEntry.toJson) event = some event :=
      fun event hevent => normalizeEvent_toJson (h.events event hevent)
    rw [List.filterMap_congr hall, List.filterMap_some]
  rw [normalizeSession, LedgerSession.toJson, asRecord]
  dsimp only
  simp only [Option.bind_eq_bind, Option.bind_some]
  rw [integerField_natCast (n := nextSeq) rfl h.nextSeq]
  show some (LedgerSession.mk sessionId sessionKey cwd complete createdAt updatedAt nextSeq
    ((events.map AcpEventLedgerEntry.toJson).filterMap normalizeEvent)) = _
  rw [hevents]

theorem foldl_addSession {sessions added : Sessions}
    (hkeys : ((added ++ sessions).map Prod.fst).Nodup)
    (hids : ∀ entry ∈ sessions, entry.2.sessionId = entry.1 ∧ entry.2.Written) :
    (sessions.map fun entry => (entry.1, entry.2.toJson)).foldl addSession added =
      added ++ sessions := by
  induction sessions generalizing added with
  | nil => simp
  | cons entry sessions ih =>
      obtain ⟨hid, hwritten⟩ := hids entry List.mem_cons_self
      have hnew : entry.1 ∉ added.map Prod.fst := by
        rw [List.map_append, List.map_cons, List.nodup_append] at hkeys
        intro hmem
        exact hkeys.2.2 _ hmem _ List.mem_cons_self rfl
      have hset : added.set entry.1 entry.2 = added ++ [entry] := by
        rw [Record.set, if_neg]
        intro hany
        obtain ⟨other, hother, heq⟩ := List.any_eq_true.mp hany
        exact hnew (List.mem_map.mpr ⟨other, hother, of_decide_eq_true heq⟩)
      rw [List.map_cons, List.foldl_cons, addSession, normalizeSession_toJson hwritten]
      dsimp only
      rw [if_pos hid, hset, ih]
      · simp
      · simpa using hkeys
      · exact fun other hother => hids other (List.mem_cons_of_mem _ hother)

theorem normalizeStore_storeJson {sessions : Sessions} (hkeys : (sessions.map Prod.fst).Nodup)
    (hids : ∀ entry ∈ sessions, entry.2.sessionId = entry.1 ∧ entry.2.Written) :
    normalizeStore (some (storeJson sessions)) = sessions := by
  have hfold := @foldl_addSession sessions [] hkeys hids
  show (if LEDGER_VERSION = LEDGER_VERSION then
    (sessions.map fun entry => (entry.1, entry.2.toJson)).foldl addSession [] else []) = _
  rw [if_pos rfl, hfold, List.nil_append]

end GreenchClaw.Acp
