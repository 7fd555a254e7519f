import GreenchClaw.Acp.LedgerTrim

/-!
# What a replay shows

Runs of the ledger beside the lives of its sessions: what was recorded since a session was created
or reset.
-/

namespace GreenchClaw.Acp

open GreenchClaw.Js
open GreenchClaw.Config (JsonValue NumberText)

/-! ## Lives -/

structure Recorded where
  recordedAt : ℚ
  sessionKey : JsString
  runId : Option JsString
  update : SessionUpdate

/-- A session since it was created or reset: the key that it was last used under, whether it was
created as complete, whether it was started as complete again after it had lost events, and what
was recorded, oldest first. -/
structure Life where
  sessionKey : JsString
  createdComplete : Bool
  revived : Bool
  recorded : List Recorded

def Life.entries (life : Life) (sessionId : JsString) : List AcpEventLedgerEntry :=
  life.recorded.mapIdx fun index recorded =>
    { seq := index + 1
      recordedAt := recorded.recordedAt
      sessionId := sessionId
      sessionKey := recorded.sessionKey
      runId := recorded.runId.filter fun runId => runId ≠ []
      update := recorded.update }

structure LedgerRun where
  sessions : Sessions := []
  lives : Record Life := []

def LedgerRun.started (run : LedgerRun) (params : SessionParams) : Record Life :=
  match (run.sessions.get params.sessionId).filter fun _ => !params.reset,
      run.lives.get params.sessionId with
  | some existing, some life =>
      run.lives.set params.sessionId
        { life with
          sessionKey := params.sessionKey
          revived := life.revived ||
            (params.complete && decide (existing.events.length < life.recorded.length)) }
  | _, _ =>
      run.lives.set params.sessionId
        { sessionKey := params.sessionKey
          createdComplete := params.complete
          revived := false
          recorded := [] }

def LedgerRun.recorded (run : LedgerRun) (params : UpdateParams) (now : ℚ) : Record Life :=
  let lives := run.started
    { sessionId := params.sessionId
      sessionKey := params.sessionKey
      cwd := []
      complete := false
      reset := false }
  match lives.get params.sessionId with
  | none => lives
  | some life =>
      lives.set params.sessionId
        { life with
          recorded := life.recorded ++
            [{ recordedAt := now
               sessionKey := params.sessionKey
               runId := params.runId
               update := params.update }] }

/-! ## Runs -/

inductive Mutation where
  | startSession (params : SessionParams) (now : ℚ)
  | recordUserPrompt (sessionId sessionKey runId : JsString) (prompt : List PromptBlock)
  | recordUpdate (params : UpdateParams) (foundAt now : ℚ)
  | markIncomplete (sessionId sessionKey : JsString) (now : ℚ)

structure Action where
  options : LedgerOptions
  mutation : Mutation

def Mutation.trims : Mutation → Bool
  | .startSession _ _ | .recordUpdate _ _ _ => true
  | .recordUserPrompt _ _ _ prompt => !prompt.isEmpty
  | .markIncomplete _ _ _ => false

/-! ## The invariant -/

structure Follows (sessionId : JsString) (session : LedgerSession) (life : Life) : Prop where
  sessionKey : session.sessionKey = life.sessionKey
  nextSeq : session.nextSeq = life.recorded.length + 1
  events : ∃ lost, session.events = (life.entries sessionId).drop lost
  complete : session.complete = true → life.createdComplete = true → life.revived = false →
    session.events = life.entries sessionId

structure Invariant (run : LedgerRun) : Prop where
  keyed : WellKeyed run.sessions
  follows : ∀ entry ∈ run.sessions,
    ∃ life, run.lives.get entry.1 = some life ∧ Follows entry.1 entry.2 life

theorem length_entries (life : Life) (sessionId : JsString) :
    (life.entries sessionId).length = life.recorded.length := by
  rw [Life.entries, List.length_mapIdx]

theorem Follows.trimmed {sessionId : JsString} {session left : LedgerSession} {life : Life}
    (h : Follows sessionId session life) (htrimmed : Trimmed session left) :
    Follows sessionId left life := by
  rcases htrimmed with heq | ⟨count, heq⟩
  · exact heq ▸ h
  · obtain ⟨lost, hevents⟩ := h.events
    rw [heq]
    refine ⟨h.sessionKey, h.nextSeq, ⟨lost + count, ?_⟩, nofun⟩
    dsimp only
    rw [hevents, List.drop_drop]

theorem Invariant.set {run : LedgerRun} (hinv : Invariant run) {sessionId : JsString}
    {session : LedgerSession} {lives : Record Life} {life : Life}
    (hid : session.sessionId = sessionId) (hlife : lives.get sessionId = some life)
    (hothers : ∀ other, other ≠ sessionId → lives.get other = run.lives.get other)
    (hfollows : Follows sessionId session life) :
    Invariant { sessions := run.sessions.set sessionId session, lives := lives } := by
  refine ⟨⟨Record.nodup_set hinv.keyed.nodup _ _, ?_⟩, ?_⟩
  · intro entry hentry
    rcases Record.mem_set hentry with hnew | ⟨hold, _⟩
    · rw [hnew]
      exact hid
    · exact hinv.keyed.sessionId entry hold
  · intro entry hentry
    rcases Record.mem_set hentry with hnew | ⟨hold, hne⟩
    · rw [hnew]
      exact ⟨life, hlife, hfollows⟩
    · obtain ⟨other, hother, hfollows⟩ := hinv.follows entry hold
      refine ⟨other, ?_, hfollows⟩
      rw [hothers _ hne]
      exact hother

theorem Invariant.setBoth {run : LedgerRun} (hinv : Invariant run) {sessionId : JsString}
    {session : LedgerSession} {life : Life} (hid : session.sessionId = sessionId)
    (hfollows : Follows sessionId session life) :
    Invariant { sessions := run.sessions.set sessionId session
                lives := run.lives.set sessionId life } :=
  hinv.set hid (Record.get_set_self _ _ _) (fun _ hne => Record.get_set_other _ _ hne) hfollows

theorem Invariant.getOrCreate {run : LedgerRun} (hinv : Invariant run) (params : SessionParams)
    (now : ℚ) :
    ∃ life, run.started params = run.lives.set params.sessionId life ∧
      (getOrCreateSession run.sessions params now).1 =
        run.sessions.set params.sessionId (getOrCreateSession run.sessions params now).2 ∧
      (getOrCreateSession run.sessions params now).2.sessionId = params.sessionId ∧
      Follows params.sessionId (getOrCreateSession run.sessions params now).2 life := by
  rw [LedgerRun.started, getOrCreateSession]
  dsimp only
  cases hexisting : (run.sessions.get params.sessionId).filter fun _ => !params.reset with
  | none => exact ⟨_, rfl, rfl, rfl, rfl, rfl, ⟨0, rfl⟩, fun _ _ _ => rfl⟩
  | some existing =>
      have hget := (Option.filter_eq_some_iff.mp hexisting).1
      have hmem := Record.mem_of_get hget
      obtain ⟨life, hlife, hfollows⟩ := hinv.follows _ hmem
      rw [hlife]
      refine ⟨_, rfl, rfl, hinv.keyed.sessionId _ hmem, rfl, hfollows.nextSeq, hfollows.events, ?_⟩
      obtain ⟨lost, hevents⟩ := hfollows.events
      intro hcompleted hcreated hrevived
      rw [Bool.or_eq_false_iff] at hrevived
      rcases Bool.or_eq_true _ _ |>.mp hcompleted with hbefore | hstarted
      · exact hfollows.complete hbefore hcreated hrevived.1
      · have hkept := hrevived.2
        rw [hstarted, Bool.true_and, decide_eq_false_iff_not] at hkept
        have hlength : (life.entries params.sessionId).length ≤ existing.events.length := by
          rw [length_entries]
          exact Nat.le_of_not_lt hkept
        rw [hevents]
        apply List.IsSuffix.eq_of_length_le (List.drop_suffix _ _)
        rw [← hevents]
        exact hlength

theorem entries_append (life : Life) (sessionId : JsString) (recorded : Recorded) :
    Life.entries { life with recorded := life.recorded ++ [recorded] } sessionId =
      life.entries sessionId ++
        [{ seq := life.recorded.length + 1
           recordedAt := recorded.recordedAt
           sessionId := sessionId
           sessionKey := recorded.sessionKey
           runId := recorded.runId.filter fun runId => runId ≠ []
           update := recorded.update }] := by
  rw [Life.entries, List.mapIdx_concat]
  rfl

theorem Invariant.mark {run : LedgerRun} (hinv : Invariant run) (sessionId sessionKey : JsString)
    (now : ℚ) :
    Invariant { run with sessions := markIncomplete run.sessions sessionId sessionKey now } := by
  rw [markIncomplete]
  cases hget : run.sessions.get sessionId with
  | none => exact hinv
  | some session =>
      have hmem := Record.mem_of_get hget
      obtain ⟨life, hlife, hfollows⟩ := hinv.follows _ hmem
      dsimp only
      split
      · exact hinv
      · have hmarked : Follows sessionId { session with complete := false, updatedAt := now } life :=
          ⟨hfollows.sessionKey, hfollows.nextSeq, hfollows.events, nofun⟩
        exact hinv.set (by exact hinv.keyed.sessionId _ hmem) hlife (fun _ _ => rfl) hmarked

theorem written_of_follows {sessionId : JsString} {session : LedgerSession} {life : Life}
    (h : Follows sessionId session life) : session.Written where
  nextSeq := by
    rw [h.nextSeq]
    omega
  events := by
    intro event hevent
    obtain ⟨lost, hevents⟩ := h.events
    rw [hevents] at hevent
    obtain ⟨index, hindex, heq⟩ := List.mem_mapIdx.mp (List.mem_of_mem_drop hevent)
    rw [← heq, AcpEventLedgerEntry.Written]
    intro hempty
    exact absurd rfl (of_decide_eq_true (Option.filter_eq_some_iff.mp hempty).2)

/-- The replay is of the session under the key that it was last used under, and shows all that was
recorded in its life if the session was created as complete and not started as complete again
after it had lost events. -/
def Shows (run : LedgerRun) (sessionId : JsString) (replay : AcpEventLedgerReplay) : Prop :=
  ∃ life, run.lives.get sessionId = some life ∧ replay.sessionId = some sessionId ∧
    replay.sessionKey = some life.sessionKey ∧
    (life.createdComplete = true → life.revived = false →
      replay.events = life.entries sessionId)

theorem shows_buildReplay {run : LedgerRun} (hinv : Invariant run) {sessionId : JsString}
    {session : LedgerSession} (hmem : (sessionId, session) ∈ run.sessions)
    (hcomplete : session.complete = true) : Shows run sessionId (buildReplay session) := by
  obtain ⟨life, hlife, hfollows⟩ := hinv.follows _ hmem
  refine ⟨life, hlife, ?_, ?_, hfollows.complete hcomplete⟩
  · exact congrArg some (hinv.keyed.sessionId _ hmem)
  · exact congrArg some hfollows.sessionKey

/-! ## Acting -/

variable [NumberText ℚ]

def mutate (limits : LedgerLimits) (sessions : Sessions) : Mutation → Sessions
  | .startSession params now => startSession limits sessions params now
  | .recordUserPrompt sessionId sessionKey runId prompt =>
      recordUserPrompt limits sessions sessionId sessionKey runId prompt
  | .recordUpdate params foundAt now => appendUpdate limits sessions params foundAt now
  | .markIncomplete sessionId sessionKey now => markIncomplete sessions sessionId sessionKey now

def LedgerRun.append (run : LedgerRun) (limits : LedgerLimits) (params : UpdateParams)
    (foundAt now : ℚ) : LedgerRun :=
  { sessions := appendUpdate limits run.sessions params foundAt now
    lives := run.recorded params now }

def PromptBlock.params (block : PromptBlock) (sessionId sessionKey runId : JsString) :
    UpdateParams :=
  { sessionId := sessionId
    sessionKey := sessionKey
    runId := some runId
    update := createUserPromptUpdate block.content }

def act (run : LedgerRun) (action : Action) : LedgerRun :=
  let limits := normalizeLedgerOptions action.options
  match action.mutation with
  | .startSession params now =>
      { sessions := startSession limits run.sessions params now
        lives := run.started params }
  | .recordUserPrompt sessionId sessionKey runId prompt =>
      prompt.foldl (fun run block =>
        run.append limits (block.params sessionId sessionKey runId) block.foundAt block.now) run
  | .recordUpdate params foundAt now => run.append limits params foundAt now
  | .markIncomplete sessionId sessionKey now =>
      { run with sessions := markIncomplete run.sessions sessionId sessionKey now }

def actOnFile (file : Option (JsonValue ℚ)) (action : Action) : Option (JsonValue ℚ) :=
  some (storeJson
    (mutate (normalizeLedgerOptions action.options) (normalizeStore file) action.mutation))

theorem act_sessions (run : LedgerRun) (action : Action) :
    (act run action).sessions =
      mutate (normalizeLedgerOptions action.options) run.sessions action.mutation := by
  rw [act, mutate.eq_def]
  cases action.mutation with
  | startSession params now => rfl
  | recordUserPrompt sessionId sessionKey runId prompt =>
      dsimp only
      rw [recordUserPrompt]
      induction prompt generalizing run with
      | nil => rfl
      | cons block prompt ih =>
          rw [List.foldl_cons, List.foldl_cons]
          exact ih _
  | recordUpdate params foundAt now => rfl
  | markIncomplete sessionId sessionKey now => rfl

/-! ## Runs keep the invariant -/

theorem Invariant.trim {run : LedgerRun} (hinv : Invariant run) (limits : LedgerLimits) :
    Invariant { run with sessions := trimLedger limits run.sessions } := by
  have hstep := step_trimLedger limits run.sessions
  refine ⟨hstep.wellKeyed hinv.keyed, ?_⟩
  intro entry hentry
  obtain ⟨session, hsession, htrimmed⟩ := hstep.trims entry hentry
  obtain ⟨life, hlife, hfollows⟩ := hinv.follows _ hsession
  exact ⟨life, hlife, hfollows.trimmed htrimmed⟩

theorem append_eq {run : LedgerRun} (hinv : Invariant run) (limits : LedgerLimits)
    (params : UpdateParams) (foundAt now : ℚ) :
    ∃ before, Invariant before ∧ run.append limits params foundAt now =
      { before with sessions := trimLedger limits before.sessions } := by
  obtain ⟨life, hlives, hsessions, hid, hfollows⟩ := hinv.getOrCreate
    { sessionId := params.sessionId
      sessionKey := params.sessionKey
      cwd := []
      complete := false
      reset := false } foundAt
  rw [LedgerRun.append, LedgerRun.recorded, hlives, appendUpdate]
  rcases hget : getOrCreateSession run.sessions
    { sessionId := params.sessionId
      sessionKey := params.sessionKey
      cwd := []
      complete := false
      reset := false } foundAt with ⟨sessions, session⟩
  rw [hget] at hsessions hid hfollows
  dsimp only at hsessions hid hfollows ⊢
  have hfound := hinv.setBoth hid hfollows
  obtain ⟨lost, hevents⟩ := hfollows.events
  rw [Record.get_set_self, hsessions]
  refine ⟨_, hfound.setBoth (by exact hid) ?_, rfl⟩
  refine ⟨hfollows.sessionKey, ?_, ⟨min lost life.recorded.length, ?_⟩, ?_⟩
  · rw [List.length_append]
    exact congrArg (· + 1) hfollows.nextSeq
  · have hlength := length_entries life params.sessionId
    have hdrop : (life.entries params.sessionId).drop (min lost life.recorded.length) =
        session.events := by
      rw [hevents, ← hlength]
      by_cases hle : lost ≤ (life.entries params.sessionId).length
      · rw [Nat.min_eq_left hle]
      · rw [Nat.min_eq_right (by omega), List.drop_length, List.drop_eq_nil_of_le (by omega)]
    rw [entries_append, List.drop_append_of_le_length (by omega), hdrop, hfollows.nextSeq]
  · intro hcomplete hcreated hrevived
    rw [entries_append, hfollows.nextSeq]
    exact congrArg (· ++ _) (hfollows.complete hcomplete hcreated hrevived)

theorem Invariant.append {run : LedgerRun} (hinv : Invariant run) (limits : LedgerLimits)
    (params : UpdateParams) (foundAt now : ℚ) : Invariant (run.append limits params foundAt now) := by
  obtain ⟨before, hbefore, heq⟩ := append_eq hinv limits params foundAt now
  rw [heq]
  exact hbefore.trim limits

theorem Invariant.prompt {run : LedgerRun} (hinv : Invariant run) (limits : LedgerLimits)
    (params : PromptBlock → UpdateParams) (prompt : List PromptBlock) :
    Invariant (prompt.foldl (fun run block =>
      run.append limits (params block) block.foundAt block.now) run) := by
  induction prompt generalizing run with
  | nil => exact hinv
  | cons block prompt ih => exact ih (hinv.append _ _ _ _)

theorem Invariant.act {run : LedgerRun} (hinv : Invariant run) (action : Action) :
    Invariant (act run action) := by
  rw [Acp.act]
  cases action.mutation with
  | startSession params now =>
      obtain ⟨life, hlives, hsessions, hid, hfollows⟩ := hinv.getOrCreate params now
      dsimp only
      rw [startSession, hlives, hsessions]
      exact (hinv.setBoth hid hfollows).trim _
  | recordUserPrompt sessionId sessionKey runId prompt => exact hinv.prompt _ _ prompt
  | recordUpdate params foundAt now => exact hinv.append _ _ _ _
  | markIncomplete sessionId sessionKey now => exact hinv.mark _ _ _

theorem invariant_run (actions : List Action) : Invariant (actions.foldl act {}) := by
  have hstart : Invariant {} :=
    ⟨⟨List.nodup_nil, fun _ h => nomatch h⟩, fun _ h => nomatch h⟩
  have hrun (run : LedgerRun) (hinv : Invariant run) : Invariant (actions.foldl act run) := by
    induction actions generalizing run with
    | nil => exact hinv
    | cons action actions ih => exact ih _ (hinv.act action)
  exact hrun {} hstart

/-! ## The file -/

theorem file_eq_memory (actions : List Action) :
    normalizeStore (actions.foldl actOnFile none) = (actions.foldl act {}).sessions := by
  have hstep {run : LedgerRun} (hinv : Invariant run) :
      normalizeStore (some (storeJson run.sessions)) = run.sessions := by
    apply normalizeStore_storeJson hinv.keyed.nodup
    intro entry hentry
    obtain ⟨life, _, hfollows⟩ := hinv.follows entry hentry
    exact ⟨hinv.keyed.sessionId entry hentry, written_of_follows hfollows⟩
  induction actions using List.reverseRecOn with
  | nil => rfl
  | append_singleton actions action ih =>
      rw [List.foldl_append, List.foldl_append, List.foldl_cons, List.foldl_nil, List.foldl_cons,
        List.foldl_nil, actOnFile, ih, ← act_sessions]
      exact hstep ((invariant_run actions).act action)

/-! ## The limits -/

theorem append_withinLimits (hone : NumberText.text (1 : ℚ) = js "1") {run : LedgerRun}
    (hinv : Invariant run) (options : LedgerOptions) (params : UpdateParams) (foundAt now : ℚ) :
    WithinLimits (normalizeLedgerOptions options)
      (run.append (normalizeLedgerOptions options) params foundAt now).sessions := by
  obtain ⟨before, hbefore, heq⟩ :=
    append_eq hinv (normalizeLedgerOptions options) params foundAt now
  rw [heq]
  exact trimLedger_withinLimits options hone hbefore.keyed

theorem act_withinLimits (hone : NumberText.text (1 : ℚ) = js "1") {run : LedgerRun}
    (hinv : Invariant run) {action : Action} (htrims : action.mutation.trims = true) :
    WithinLimits (normalizeLedgerOptions action.options) (act run action).sessions := by
  rw [act]
  cases hmutation : action.mutation with
  | startSession params now =>
      obtain ⟨life, _, hsessions, hid, hfollows⟩ := hinv.getOrCreate params now
      dsimp only
      rw [startSession, hsessions]
      exact trimLedger_withinLimits action.options hone (hinv.setBoth hid hfollows).keyed
  | recordUserPrompt sessionId sessionKey runId prompt =>
      dsimp only
      rcases List.eq_nil_or_concat prompt with hempty | ⟨blocks, last, hprompt⟩
      · rw [hmutation, hempty] at htrims
        exact absurd htrims nofun
      · rw [hprompt, List.concat_eq_append, List.foldl_append]
        exact append_withinLimits hone (hinv.prompt _ _ blocks) action.options _ _ _
  | recordUpdate params foundAt now => exact append_withinLimits hone hinv action.options _ _ _
  | markIncomplete sessionId sessionKey now =>
      rw [hmutation] at htrims
      exact absurd htrims nofun

theorem act_events {run : LedgerRun} (hinv : Invariant run) {action : Action}
    (hkeeps : action.mutation.trims = false) :
    (act run action).sessions.map (fun entry => (entry.1, entry.2.events)) =
      run.sessions.map fun entry => (entry.1, entry.2.events) := by
  rw [act]
  cases hmutation : action.mutation with
  | startSession params now =>
      rw [hmutation] at hkeeps
      exact absurd hkeeps nofun
  | recordUpdate params foundAt now =>
      rw [hmutation] at hkeeps
      exact absurd hkeeps nofun
  | recordUserPrompt sessionId sessionKey runId prompt =>
      rw [hmutation, Mutation.trims] at hkeeps
      have hempty : prompt = [] := by simpa using hkeeps
      rw [hempty]
      rfl
  | markIncomplete sessionId sessionKey now =>
      dsimp only
      rw [markIncomplete]
      cases hget : run.sessions.get sessionId with
      | none => rfl
      | some session =>
          dsimp only
          split
          · rfl
          · have hmem := Record.mem_of_get hget
            have hany : (run.sessions.any fun entry => decide (entry.1 = sessionId)) = true :=
              List.any_eq_true.mpr ⟨_, hmem, decide_eq_true rfl⟩
            rw [Record.set, if_pos hany, List.map_map]
            apply List.map_congr_left
            intro entry hentry
            rw [Function.comp_apply]
            split
            · rename_i hkey
              have heq := List.inj_on_of_nodup_map hinv.keyed.nodup hentry hmem hkey
              rw [heq]
            · rfl

/-! ## Replays -/

structure LedgerRight (actions : List Action) : Prop where
  readReplay : ∀ sessionId sessionKey,
    (readReplay (actions.foldl act {}).sessions sessionId sessionKey).complete = true →
      Shows (actions.foldl act {}) sessionId
        (readReplay (actions.foldl act {}).sessions sessionId sessionKey) ∧
      (readReplay (actions.foldl act {}).sessions sessionId sessionKey).sessionKey =
        some sessionKey
  readReplayBySessionId : ∀ sessionId,
    (readReplayBySessionId (actions.foldl act {}).sessions sessionId).complete = true →
      Shows (actions.foldl act {}) sessionId
        (readReplayBySessionId (actions.foldl act {}).sessions sessionId)
  readReplayBySessionKey : ∀ sessionKey,
    (readReplayBySessionKey (actions.foldl act {}).sessions sessionKey).complete = true →
      (∃ sessionId, Shows (actions.foldl act {}) sessionId
        (readReplayBySessionKey (actions.foldl act {}).sessions sessionKey)) ∧
      (readReplayBySessionKey (actions.foldl act {}).sessions sessionKey).sessionKey =
        some sessionKey
  limits : ∀ action : Action, action.mutation.trims = true →
    WithinLimits (normalizeLedgerOptions action.options)
      (act (actions.foldl act {}) action).sessions
  keeps : ∀ action : Action, action.mutation.trims = false →
    (act (actions.foldl act {}) action).sessions.map (fun entry => (entry.1, entry.2.events)) =
      (actions.foldl act {}).sessions.map fun entry => (entry.1, entry.2.events)
  file : normalizeStore (actions.foldl actOnFile none) = (actions.foldl act {}).sessions

theorem ledger_right (hone : NumberText.text (1 : ℚ) = js "1") (actions : List Action) :
    LedgerRight actions := by
  have hinv := invariant_run actions
  constructor
  · intro sessionId sessionKey hcomplete
    rw [readReplay.eq_def] at hcomplete ⊢
    split
    · rename_i hnone
      rw [hnone] at hcomplete
      exact absurd hcomplete nofun
    · rename_i session hget
      rw [hget] at hcomplete
      dsimp only at hcomplete
      split
      · rename_i hincomplete
        rw [if_pos hincomplete] at hcomplete
        exact absurd hcomplete nofun
      · rename_i hok
        rw [not_or, not_not, Bool.not_eq_false] at hok
        exact ⟨shows_buildReplay hinv (Record.mem_of_get hget) hok.2, congrArg some hok.1⟩
  · intro sessionId hcomplete
    rw [readReplayBySessionId.eq_def] at hcomplete ⊢
    split
    · rename_i hnone
      rw [hnone] at hcomplete
      exact absurd hcomplete nofun
    · rename_i session hget
      rw [hget] at hcomplete
      dsimp only at hcomplete
      split
      · rename_i hincomplete
        rw [if_pos hincomplete] at hcomplete
        exact absurd hcomplete nofun
      · rename_i hok
        rw [Bool.not_eq_false] at hok
        exact shows_buildReplay hinv (Record.mem_of_get hget) hok
  · intro sessionKey hcomplete
    rw [readReplayBySessionKey.eq_def] at hcomplete ⊢
    split
    · rename_i hnone
      rw [hnone] at hcomplete
      exact absurd hcomplete nofun
    · rename_i sessionId session hfirst
      have hmem := (List.perm_insertionSort _ _).mem_iff.mp (List.mem_of_mem_head? hfirst)
      rw [List.mem_filter, Bool.and_eq_true, decide_eq_true_eq] at hmem
      exact ⟨⟨sessionId, shows_buildReplay hinv hmem.1 hmem.2.2⟩, congrArg some hmem.2.1⟩
  · exact fun action htrims => act_withinLimits hone hinv htrims
  · exact fun action hkeeps => act_events hinv hkeeps
  · exact file_eq_memory actions

/-! ## A session whose key becomes canonical -/

@[reducible]
def integerText : NumberText ℚ where
  text value := js (toString value.num)

def agentUpdate : SessionUpdate :=
  { fields := [(js "sessionUpdate", .string (js "agent_message_chunk"))]
    isUpdate := ⟨js "agent_message_chunk", rfl⟩ }

/-- A session that is created as complete under a provisional key gets a prompt under that key and
an answer under its canonical one. -/
def canonicalKey : List Action :=
  [⟨{}, .startSession
      { sessionId := js "session-1"
        sessionKey := js "acp:session-1"
        cwd := js "/work"
        complete := true
        reset := false } 1⟩,
    ⟨{}, .recordUserPrompt (js "session-1") (js "acp:session-1") (js "run-1")
      [{ content := .string (js "Question"), foundAt := 1, now := 1 }]⟩,
    ⟨{}, .recordUpdate
      { sessionId := js "session-1"
        sessionKey := js "agent:main:session-1"
        runId := some (js "run-1")
        update := agentUpdate } 2 2⟩]

omit [NumberText ℚ] in
theorem ledger_right_canonicalKey : @LedgerRight integerText canonicalKey :=
  @ledger_right integerText (by decide) canonicalKey

omit [NumberText ℚ] in
/-- The replay of a session that was created as complete is complete and holds an event that was
recorded under another key than the one asked for. -/
theorem replay_keeps_other_key :
    (readReplay (canonicalKey.foldl (@act integerText) {}).sessions (js "session-1")
        (js "agent:main:session-1")).complete = true ∧
      ((canonicalKey.foldl (@act integerText) {}).lives.get (js "session-1")).any
        (fun life => life.createdComplete) = true ∧
      ¬∀ event ∈ (readReplay (canonicalKey.foldl (@act integerText) {}).sessions (js "session-1")
        (js "agent:main:session-1")).events, event.sessionKey = js "agent:main:session-1" := by
  decide +kernel

end GreenchClaw.Acp
