import GreenchClaw.Agents.RepairedPairing
import GreenchClaw.Agents.ToolResultGuard

/-!
# Guarded transcripts

With synthetic results and nothing that changes a message, the pending calls of the guard are the calls
of its log that are open, and none is open where another message is persisted.
-/

namespace GreenchClaw.ToolResultGuard

open GreenchClaw.Js GreenchClaw.Agents

variable {α : Type}

/-! ## Open calls -/

def opens (id : JsString) : LogEntry α → Prop
  | .persisted message _ => id ∈ (toolCallsOf message).map ToolCallLike.id
  | .dropped => False

def settles (id : JsString) : LogEntry α → Prop
  | .persisted (.toolResult result) _ => extractToolResultId result = some id
  | .persisted _ _ => False
  | .dropped => True

/-- A call of a persisted turn without a result since, that was not dropped. -/
def Open (id : JsString) (log : List (LogEntry α)) : Prop :=
  Logs.Outstanding (opens id) (settles id) log

def endsWait (message : SessionMessage α) : Bool :=
  match message with
  | .toolResult _ => false
  | message => !isTranscriptOnlyGreenchClawAssistantMessage message

def Closed (before : List (LogEntry α)) (entry : LogEntry α) : Prop :=
  match entry with
  | .persisted message _ => endsWait message = true → ∀ id, ¬ Open id before
  | .dropped => True

def AnswersOpen (before : List (LogEntry α)) (entry : LogEntry α) : Prop :=
  match entry with
  | .persisted (.toolResult result) synthetic =>
      ∀ id, extractToolResultId result = some id → synthetic = true → Open id before
  | .persisted _ _ => True
  | .dropped => True

structure PlainOptions (opts : GuardOptions α) : Prop where
  transform : ∀ message, opts.transformMessageForPersistence message = message
  transformResult : ∀ message info, opts.transformToolResultForPersistence message info = message
  hook : ∀ message, applyBeforeWriteHook opts message = some message
  synthetic : opts.allowSyntheticToolResults = true

structure Guarded (s : GuardState α) : Prop where
  pending : ∀ id, id ∈ s.getPendingIds ↔ Open id s.log
  closed : Logs.Each Closed s.log
  answers : Logs.Each AnswersOpen s.log

section Open

variable {id : JsString} {log : List (LogEntry α)}

theorem id_ne_nil_of_open (h : Open id log) : id ≠ [] := by
  obtain ⟨-, entry, -, -, hopens, -⟩ := h
  cases entry with
  | dropped => exact hopens.elim
  | persisted message synthetic =>
      obtain ⟨call, hcall, rfl⟩ := List.mem_map.mp hopens
      cases message with
      | assistant assistant =>
          simp only [toolCallsOf] at hcall
          split at hcall
          · exact absurd hcall List.not_mem_nil
          · exact id_ne_nil hcall
      | toolResult _ => exact absurd hcall List.not_mem_nil
      | user _ => exact absurd hcall List.not_mem_nil
      | other _ => exact absurd hcall List.not_mem_nil

theorem open_result {result : ToolResultMessage α} {synthetic : Bool} :
    Open id (log ++ [.persisted (.toolResult result) synthetic]) ↔
      Open id log ∧ extractToolResultId result ≠ some id := by
  rw [Open, Logs.outstanding_snoc]
  simp only [opens, settles, toolCallsOf, List.map_nil, List.not_mem_nil, false_or]
  rfl

theorem open_other {message : SessionMessage α} {synthetic : Bool}
    (h : ∀ result, message ≠ .toolResult result) :
    Open id (log ++ [.persisted message synthetic]) ↔
      id ∈ (toolCallsOf message).map ToolCallLike.id ∨ Open id log := by
  rw [Open, Logs.outstanding_snoc]
  have hunsettled : ¬ settles id (.persisted message synthetic) := by
    cases message with
    | toolResult result => exact absurd rfl (h result)
    | assistant _ => exact not_false
    | user _ => exact not_false
    | other _ => exact not_false
  rw [and_iff_left hunsettled]
  rfl

theorem not_open_dropped : ¬ Open id (log ++ [.dropped]) := by
  rw [Open, Logs.outstanding_snoc]
  rintro (hopens | ⟨-, hunsettled⟩)
  · exact hopens
  · exact hunsettled trivial

theorem not_open_settled {start rest : List (LogEntry α)}
    (hresult : ∃ result made, .persisted (.toolResult result) made ∈ rest ∧
      extractToolResultId result = some id)
    (hlater : ∀ later made, .persisted later made ∈ rest →
      id ∉ (toolCallsOf later).map ToolCallLike.id) : ¬ Open id (start ++ rest) := by
  obtain ⟨result, made, hmem, hid⟩ := hresult
  refine Logs.not_outstanding_settled ?_ ⟨_, hmem, hid⟩
  intro entry hentry hopens
  cases entry with
  | dropped => exact hopens
  | persisted later made => exact hlater later made hentry hopens

end Open

/-! ## Pending calls -/

section Pending

variable {pending : Map (Option JsString)} {id : JsString}

theorem mem_keys_iff : id ∈ pending.entries.map Prod.fst ↔ (pending.get id).isSome = true := by
  rw [← not_iff_not, Bool.not_eq_true, Option.isSome_eq_false_iff, Option.isNone_iff_eq_none]
  exact Record.get_eq_none_iff.symm

theorem mem_keys_delete {other : JsString} :
    id ∈ (pending.delete other).entries.map Prod.fst ↔
      id ∈ pending.entries.map Prod.fst ∧ other ≠ id := by
  rw [mem_keys_iff, mem_keys_iff, Map.get_delete]
  by_cases hsame : other = id
  · simp [hsame]
  · simp [hsame]

theorem mem_keys_track (calls : List ToolCallLike) :
    id ∈ (trackToolCalls pending calls).entries.map Prod.fst ↔
      id ∈ calls.map ToolCallLike.id ∨ id ∈ pending.entries.map Prod.fst := by
  induction calls generalizing pending with
  | nil => simp [trackToolCalls]
  | cons call calls ih =>
      have hset : id ∈ (pending.set call.id call.name).entries.map Prod.fst ↔
          call.id = id ∨ id ∈ pending.entries.map Prod.fst := by
        rw [mem_keys_iff, mem_keys_iff, Map.get_set]
        by_cases hsame : call.id = id
        · simp [hsame]
        · simp [hsame]
      show id ∈ (trackToolCalls (pending.set call.id call.name) calls).entries.map Prod.fst ↔ _
      rw [ih, hset, List.map_cons, List.mem_cons, or_left_comm, or_assoc, eq_comm]

end Pending

/-! ## One action -/

section Steps

variable {opts : GuardOptions α} (hplain : PlainOptions opts) {s : GuardState α}

theorem extract_named_capped (result : ToolResultMessage α) (name : Option JsString) (rest : α) :
    extractToolResultId { normalizeToolResultName result name with rest } =
      extractToolResultId result :=
  extractToolResultId_normalize result name

theorem Guarded.of_eq {s' : GuardState α} (h : Guarded s) (hpending : s'.pending = s.pending)
    (hlog : s'.log = s.log) : Guarded s' where
  pending id := by
    rw [GuardState.getPendingIds, hpending, hlog]
    exact h.pending id
  closed := hlog ▸ h.closed
  answers := hlog ▸ h.answers

theorem guarded_installed : Guarded (installSessionToolResultGuard opts) where
  pending id := by
    constructor
    · intro hmem
      exact absurd hmem List.not_mem_nil
    · intro hopen
      exact absurd hopen Logs.not_outstanding_nil
  closed := Logs.each_nil
  answers := Logs.each_nil

theorem Guarded.clear (h : Guarded s) : Guarded (clearPendingToolResults s) where
  pending id := by
    constructor
    · intro hmem
      exact absurd hmem List.not_mem_nil
    · intro hopen
      exact absurd hopen not_open_dropped
  closed := h.closed.snoc trivial
  answers := h.answers.snoc trivial

include hplain

theorem persistMissing_plain (entry : JsString × Option JsString) :
    ∃ result : ToolResultMessage α, persistMissing opts s entry = s.write (.toolResult result) true ∧
      extractToolResultId result = truthy (some entry.1) := by
  rw [persistMissing, hplain.transform, hplain.transformResult, hplain.hook]
  refine ⟨_, rfl, ?_⟩
  simp [extractToolResultId, makeMissingToolResult, truthy]

theorem persistMissing_all {entries : List (JsString × Option JsString)}
    (hdistinct : (entries.map Prod.fst).Nodup)
    (hopen : ∀ id, id ∈ entries.map Prod.fst ↔ Open id s.log)
    (hclosed : Logs.Each Closed s.log) (hanswers : Logs.Each AnswersOpen s.log) :
    let flushed := entries.foldl (persistMissing opts) s
    (∀ id, ¬ Open id flushed.log) ∧ Logs.Each Closed flushed.log ∧
      Logs.Each AnswersOpen flushed.log := by
  induction entries generalizing s with
  | nil => exact ⟨fun id hid => absurd ((hopen id).mpr hid) List.not_mem_nil, hclosed, hanswers⟩
  | cons entry entries ih =>
      rw [List.map_cons, List.nodup_cons] at hdistinct
      obtain ⟨result, hwrite, hid⟩ := persistMissing_plain hplain (s := s) entry
      have hfirst : Open entry.1 s.log := (hopen entry.1).mp List.mem_cons_self
      have hsome : extractToolResultId result = some entry.1 := by
        rw [hid, truthy, Option.filter_some, if_pos (decide_eq_true (id_ne_nil_of_open hfirst))]
      rw [List.foldl_cons, hwrite]
      apply ih hdistinct.2
      · intro id
        rw [GuardState.write, open_result, ← hopen id, hsome, List.map_cons, List.mem_cons,
          ne_eq, Option.some.injEq]
        constructor
        · intro hrest
          exact ⟨Or.inr hrest, fun hsame => hdistinct.1 (hsame ▸ hrest)⟩
        · rintro ⟨hsame | hrest, hother⟩
          · exact absurd hsame.symm hother
          · exact hrest
      · exact hclosed.snoc fun hends => absurd hends Bool.false_ne_true
      · refine hanswers.snoc fun id hsame _ => ?_
        rw [hsome, Option.some.injEq] at hsame
        exact hsame ▸ hfirst

theorem Guarded.flush (h : Guarded s) :
    Guarded (flushPendingToolResults opts s) ∧
      (flushPendingToolResults opts s).pending.entries = [] := by
  rw [flushPendingToolResults]
  split
  · rename_i hempty
    exact ⟨h, List.length_eq_zero_iff.mp hempty⟩
  · rw [if_pos hplain.synthetic]
    obtain ⟨hnone, hclosed, hanswers⟩ := persistMissing_all hplain s.pending.distinct h.pending
      h.closed h.answers
    refine ⟨⟨fun id => ?_, hclosed, hanswers⟩, rfl⟩
    constructor
    · intro hmem
      exact absurd hmem List.not_mem_nil
    · intro hopen
      exact absurd hopen (hnone id)

theorem Guarded.appendToolResult (h : Guarded s) (result : ToolResultMessage α) :
    Guarded (appendToolResult opts s result) := by
  rw [ToolResultGuard.appendToolResult]
  simp only [hplain.transform, hplain.transformResult, hplain.hook, normalizePersistedToolResultName,
    capToolResultForPersistence]
  have hid := extract_named_capped result
  constructor
  · intro id
    cases hresult : extractToolResultId result with
    | none =>
        simp only [GuardState.write, GuardState.getPendingIds]
        rw [open_result, hid, hresult, ← h.pending id, GuardState.getPendingIds]
        exact (and_iff_left (by simp)).symm
    | some other =>
        simp only [GuardState.write, GuardState.getPendingIds]
        rw [open_result, hid, hresult, ← h.pending id, GuardState.getPendingIds, mem_keys_delete,
          ne_eq, ne_eq, Option.some.injEq]
  · cases hresult : extractToolResultId result <;>
      exact h.closed.snoc fun hends => absurd hends Bool.false_ne_true
  · cases hresult : extractToolResultId result <;>
      exact h.answers.snoc fun _ _ hsynthetic => absurd hsynthetic Bool.false_ne_true

theorem Guarded.flushBefore (h : Guarded s) (nextMessage : SessionMessage α) :
    Guarded (flushBefore opts s nextMessage) ∧
      (endsWait nextMessage = true ∧ (∀ result, nextMessage ≠ .toolResult result) ∨
          toolCallsOf nextMessage ≠ [] →
        (ToolResultGuard.flushBefore opts s nextMessage).pending.entries = []) := by
  rw [ToolResultGuard.flushBefore]
  cases hcalls : toolCallsOf nextMessage with
  | cons call calls =>
      have hassistant : nextMessage.isAssistant = true := by
        cases nextMessage with
        | assistant _ => rfl
        | toolResult _ => exact absurd hcalls.symm (List.cons_ne_nil _ _)
        | user _ => exact absurd hcalls.symm (List.cons_ne_nil _ _)
        | other _ => exact absurd hcalls.symm (List.cons_ne_nil _ _)
      -- new calls: the first flush is for messages without calls
      simp only [hassistant, shouldFlushBeforeNonToolResult, List.length_cons, Nat.succ_ne_zero,
        decide_false, Bool.not_true, Bool.or_self, Bool.and_false, Bool.false_eq_true, if_false,
        shouldFlushBeforeNewToolCalls, Nat.zero_lt_succ, decide_true, Bool.and_true,
        decide_eq_true_eq]
      split
      · exact ⟨(h.flush hplain).1, fun _ => (h.flush hplain).2⟩
      · rename_i hempty
        exact ⟨h, fun _ => List.length_eq_zero_iff.mp (Nat.eq_zero_of_not_pos hempty)⟩
  | nil =>
      simp only [List.length_nil, decide_true, Bool.and_true, shouldFlushBeforeNonToolResult,
        Bool.true_or, shouldFlushBeforeNewToolCalls, Nat.lt_irrefl, decide_false, Bool.and_false,
        Bool.false_eq_true, if_false, ne_eq, not_true_eq_false, or_false]
      split
      · exact ⟨(h.flush hplain).1, fun _ => (h.flush hplain).2⟩
      · rename_i hkept
        refine ⟨h, ?_⟩
        rintro ⟨hends, hresult⟩
        have hwaits : (nextMessage.isAssistant &&
            isTranscriptOnlyGreenchClawAssistantMessage nextMessage) = false := by
          cases nextMessage with
          | toolResult result => exact absurd rfl (hresult result)
          | assistant _ =>
              rw [endsWait, Bool.not_eq_true'] at hends
              · rw [hends, Bool.and_false]
              · exact hresult
          | user _ => rfl
          | other _ => rfl
        rw [hwaits, Bool.not_false, Bool.true_and, decide_eq_true_eq] at hkept
        exact List.length_eq_zero_iff.mp (Nat.eq_zero_of_not_pos hkept)

theorem Guarded.appendOther (h : Guarded s) {nextMessage : SessionMessage α}
    (hresult : ∀ result, nextMessage ≠ .toolResult result) :
    Guarded (appendOther opts s nextMessage) := by
  obtain ⟨hflushed, hempty⟩ := h.flushBefore hplain nextMessage
  rw [ToolResultGuard.appendOther, hplain.transform, hplain.hook]
  generalize ToolResultGuard.flushBefore opts s nextMessage = flushed at hflushed hempty
  show Guarded (if (isUserAgentMessage nextMessage &&
    flushed.suppressNextUserMessagePersistence) = true then _ else _)
  split
  · exact hflushed.of_eq rfl rfl
  · constructor
    · intro id
      simp only [GuardState.write, GuardState.getPendingIds]
      rw [mem_keys_track, open_other hresult, ← hflushed.pending id, GuardState.getPendingIds]
    · refine hflushed.closed.snoc ?_
      intro hends id hopen
      have hpending := (hflushed.pending id).mpr hopen
      rw [GuardState.getPendingIds, hempty (Or.inl ⟨hends, hresult⟩)] at hpending
      exact absurd hpending List.not_mem_nil
    · refine hflushed.answers.snoc ?_
      cases nextMessage with
      | toolResult result => exact absurd rfl (hresult result)
      | assistant _ => exact trivial
      | user _ => exact trivial
      | other _ => exact trivial

theorem Guarded.act [UnicodeCase] (h : Guarded s) (action : Action α) :
    Guarded (act opts s action) := by
  cases action with
  | flushPendingToolResults => exact (h.flush hplain).1
  | clearPendingToolResults => exact h.clear
  | appendMessage message =>
      cases message with
      | toolResult result => exact h.appendToolResult hplain result
      | user value => exact h.appendOther hplain (by simp)
      | other value => exact h.appendOther hplain (by simp)
      | assistant assistant =>
          show Guarded (guardedAppend opts s (.assistant assistant))
          rw [guardedAppend]
          split
          · exact (h.flush hplain).1
          · exact h.appendOther hplain (by simp)

theorem guarded_run [UnicodeCase] (actions : List (Action α)) : Guarded (run opts actions) := by
  rw [run]
  generalize hinstalled : installSessionToolResultGuard opts = s
  have hguarded : Guarded s := hinstalled ▸ guarded_installed
  clear hinstalled
  induction actions generalizing s with
  | nil => exact hguarded
  | cons action actions ih => exact ih (ToolResultGuard.act opts s action) (hguarded.act hplain action)

end Steps

/-! ## What an action persists -/

def madeEntries (results : List (ToolResultMessage α)) : List (LogEntry α) :=
  results.map fun result => .persisted (.toolResult result) true

def givenResult : LogEntry α → Option (Option JsString)
  | .persisted (.toolResult result) false => some (extractToolResultId result)
  | _ => none

def appendedResult : Action α → Option (Option JsString)
  | .appendMessage (.toolResult result) => some (extractToolResultId result)
  | _ => none

section Persisted

variable {opts : GuardOptions α} (hplain : PlainOptions opts) {s : GuardState α}

theorem givenResult_made (results : List (ToolResultMessage α)) :
    (madeEntries results).filterMap givenResult = [] := by
  rw [List.filterMap_eq_nil_iff]
  intro entry hentry
  obtain ⟨result, -, rfl⟩ := List.mem_map.mp hentry
  rfl

theorem dropped_notMem_made (results : List (ToolResultMessage α)) :
    LogEntry.dropped ∉ madeEntries results := by
  intro hmem
  obtain ⟨result, -, hentry⟩ := List.mem_map.mp hmem
  exact absurd hentry (by simp)

include hplain

theorem flush_log :
    ∃ results, (flushPendingToolResults opts s).log = s.log ++ madeEntries results := by
  have hfold (entries : List (JsString × Option JsString)) (s : GuardState α) :
      ∃ results, (entries.foldl (persistMissing opts) s).log = s.log ++ madeEntries results := by
    induction entries generalizing s with
    | nil => exact ⟨[], (List.append_nil _).symm⟩
    | cons entry entries ih =>
        obtain ⟨result, hwrite, -⟩ := persistMissing_plain hplain (s := s) entry
        obtain ⟨results, hlog⟩ := ih (persistMissing opts s entry)
        refine ⟨result :: results, ?_⟩
        rw [List.foldl_cons, hlog, hwrite, GuardState.write, List.append_assoc]
        rfl
  rw [flushPendingToolResults]
  by_cases hempty : s.pending.entries.length = 0
  · rw [if_pos hempty]
    exact ⟨[], (List.append_nil _).symm⟩
  · rw [if_neg hempty, if_pos hplain.synthetic]
    exact hfold s.pending.entries s

theorem flushBefore_log (nextMessage : SessionMessage α) :
    ∃ results, (flushBefore opts s nextMessage).log = s.log ++ madeEntries results := by
  have hflush (flush : Bool) (s : GuardState α) :
      ∃ results, (if flush = true then flushPendingToolResults opts s else s).log =
        s.log ++ madeEntries results := by
    split
    · exact flush_log hplain
    · exact ⟨[], (List.append_nil _).symm⟩
  obtain ⟨first, hfirst⟩ := hflush (!(nextMessage.isAssistant &&
      decide ((toolCallsOf nextMessage).length = 0) &&
        isTranscriptOnlyGreenchClawAssistantMessage nextMessage) &&
    shouldFlushBeforeNonToolResult s.pending nextMessage.isAssistant
      (toolCallsOf nextMessage).length) s
  obtain ⟨second, hsecond⟩ := hflush (shouldFlushBeforeNewToolCalls _ (toolCallsOf nextMessage).length) _
  refine ⟨first ++ second, ?_⟩
  rw [flushBefore]
  refine hsecond.trans ?_
  rw [hfirst, List.append_assoc, madeEntries, madeEntries, madeEntries, List.map_append]

theorem appendOther_log (nextMessage : SessionMessage α) :
    ∃ results rest, (appendOther opts s nextMessage).log = s.log ++ madeEntries results ++ rest ∧
      (rest = [] ∨ rest = [.persisted nextMessage false]) := by
  obtain ⟨results, hflushed⟩ := flushBefore_log hplain (s := s) nextMessage
  rw [appendOther, hplain.transform, hplain.hook]
  generalize flushBefore opts s nextMessage = flushed at hflushed
  show ∃ results rest, GuardState.log (if (isUserAgentMessage nextMessage &&
    flushed.suppressNextUserMessagePersistence) = true then _ else _) = _ ∧ _
  split
  · exact ⟨results, [], by rw [List.append_nil]; exact hflushed, Or.inl rfl⟩
  · refine ⟨results, [.persisted nextMessage false], ?_, Or.inr rfl⟩
    rw [← hflushed]
    rfl

theorem appendToolResult_log (result : ToolResultMessage α) :
    ∃ persisted, (appendToolResult opts s result).log =
        s.log ++ [.persisted (.toolResult persisted) false] ∧
      extractToolResultId persisted = extractToolResultId result := by
  rw [appendToolResult]
  simp only [hplain.transform, hplain.transformResult, hplain.hook, normalizePersistedToolResultName,
    capToolResultForPersistence]
  have hid := extract_named_capped result
  cases hresult : extractToolResultId result <;> exact ⟨_, rfl, (hid _ _).trans hresult⟩

/-- Only results that are appended are persisted as such, and only `clearPendingToolResults` gives up
the wait for calls. -/
theorem act_log [UnicodeCase] (action : Action α) :
    ∃ entries, (act opts s action).log = s.log ++ entries ∧
      entries.filterMap givenResult = (appendedResult action).toList ∧
        (action ≠ .clearPendingToolResults → LogEntry.dropped ∉ entries) := by
  have hother (message : SessionMessage α) (hresult : ∀ result, message ≠ .toolResult result) :
      ∃ entries, (appendOther opts s message).log = s.log ++ entries ∧
        entries.filterMap givenResult = [] ∧ LogEntry.dropped ∉ entries := by
    obtain ⟨results, rest, hlog, hrest⟩ := appendOther_log hplain (s := s) message
    refine ⟨madeEntries results ++ rest, by rw [hlog, List.append_assoc], ?_, ?_⟩
    · rw [List.filterMap_append, givenResult_made, List.nil_append]
      rcases hrest with rfl | rfl
      · rfl
      · cases message with
        | toolResult result => exact absurd rfl (hresult result)
        | assistant _ => rfl
        | user _ => rfl
        | other _ => rfl
    · rw [List.mem_append]
      rintro (hmade | hmem)
      · exact dropped_notMem_made results hmade
      · rcases hrest with rfl | rfl
        · exact absurd hmem List.not_mem_nil
        · exact absurd (List.mem_singleton.mp hmem) (by simp)
  have hflush : ∃ entries, (flushPendingToolResults opts s).log = s.log ++ entries ∧
      entries.filterMap givenResult = [] ∧ LogEntry.dropped ∉ entries := by
    obtain ⟨results, hlog⟩ := flush_log hplain (s := s)
    exact ⟨madeEntries results, hlog, givenResult_made results, dropped_notMem_made results⟩
  have hunconditional {next : GuardState α} (h : ∃ entries, next.log = s.log ++ entries ∧
      entries.filterMap givenResult = [] ∧ LogEntry.dropped ∉ entries) :
      ∃ entries, next.log = s.log ++ entries ∧ entries.filterMap givenResult = [] ∧
        (action ≠ .clearPendingToolResults → LogEntry.dropped ∉ entries) := by
    obtain ⟨entries, hlog, hgiven, hdropped⟩ := h
    exact ⟨entries, hlog, hgiven, fun _ => hdropped⟩
  cases action with
  | flushPendingToolResults => exact hunconditional hflush
  | clearPendingToolResults => exact ⟨[.dropped], rfl, rfl, fun hclear => absurd rfl hclear⟩
  | appendMessage message =>
      cases message with
      | user value => exact hunconditional (hother _ (by simp))
      | other value => exact hunconditional (hother _ (by simp))
      | toolResult result =>
          obtain ⟨persisted, hlog, hid⟩ := appendToolResult_log hplain (s := s) result
          refine ⟨_, hlog, ?_, fun _ hmem => absurd (List.mem_singleton.mp hmem) (by simp)⟩
          show [extractToolResultId persisted] = [extractToolResultId result]
          rw [hid]
      | assistant assistant =>
          rw [act, guardedAppend]
          split
          · exact hunconditional hflush
          · exact hunconditional (hother _ (by simp))

theorem run_log [UnicodeCase] (actions : List (Action α)) :
    (run opts actions).log.filterMap givenResult = actions.filterMap appendedResult ∧
      ((∀ action ∈ actions, action ≠ .clearPendingToolResults) →
        LogEntry.dropped ∉ (run opts actions).log) := by
  induction actions using List.reverseRecOn with
  | nil => exact ⟨rfl, fun _ => List.not_mem_nil⟩
  | append_singleton actions action ih =>
      obtain ⟨entries, hlog, hgiven, hdropped⟩ :=
        act_log hplain (s := run opts actions) action
      have hrun : run opts (actions ++ [action]) = act opts (run opts actions) action := by
        rw [run, List.foldl_append]
        rfl
      rw [hrun, hlog]
      constructor
      · rw [List.filterMap_append, ih.1, hgiven, List.filterMap_append]
        congr 1
      · intro hclear
        rw [List.mem_append]
        rintro (hmem | hmem)
        · exact ih.2 (fun other hother => hclear other (List.mem_append_left _ hother)) hmem
        · exact hdropped (hclear action (List.mem_append_right _ List.mem_cons_self)) hmem

end Persisted

/-! ## Runs -/

/-- The calls of a guarded transcript: each has a result before a message that ends the wait, unless
the wait was given up; a result that the guard makes is for an open call, so that a second result of
a call is one that was appended, as every other result is; the pending calls are the open ones. -/
structure CallsAnswered (actions : List (Action α)) (s : GuardState α) : Prop where
  answered : ∀ before turn made between message made' after,
    s.log = before ++ .persisted turn made :: (between ++ .persisted message made' :: after) →
      endsWait message = true → ∀ call ∈ toolCallsOf turn,
        (∃ result made, .persisted (.toolResult result) made ∈ between ∧
            extractToolResultId result = some call.id) ∨ .dropped ∈ between
  madeForOpen : ∀ before result after,
    s.log = before ++ .persisted (.toolResult result) true :: after →
      ∀ id, extractToolResultId result = some id → Open id before
  secondGiven : ∀ before turn made between result synthetic after,
    s.log = before ++ .persisted turn made ::
        (between ++ .persisted (.toolResult result) synthetic :: after) →
      ∀ call ∈ toolCallsOf turn, extractToolResultId result = some call.id →
        (∃ first made, .persisted (.toolResult first) made ∈ between ∧
          extractToolResultId first = some call.id) →
        (∀ later made, .persisted later made ∈ between →
          call.id ∉ (toolCallsOf later).map ToolCallLike.id) →
          synthetic = false
  given : s.log.filterMap givenResult = actions.filterMap appendedResult
  undropped : (∀ action ∈ actions, action ≠ .clearPendingToolResults) → LogEntry.dropped ∉ s.log
  pending : ∀ id, id ∈ s.getPendingIds ↔ Open id s.log
  distinct : s.getPendingIds.Nodup

/-- Every run of the guard answers the calls of its transcript. -/
theorem guard_answers_calls [UnicodeCase] {opts : GuardOptions α} (hplain : PlainOptions opts)
    (actions : List (Action α)) : CallsAnswered actions (run opts actions) := by
  have hguarded := guarded_run hplain actions
  obtain ⟨hgiven, hundropped⟩ := run_log hplain actions
  constructor
  · intro before turn made between message made' after hlog hends call hcall
    have hsplit : (run opts actions).log = (before ++ .persisted turn made :: between) ++
        .persisted message made' :: after := by
      rw [hlog, List.append_assoc, List.cons_append]
    have hclosed := hguarded.closed _ _ _ hsplit hends call.id
    have hopens : opens call.id (.persisted turn made) := List.mem_map_of_mem hcall
    obtain ⟨later, hlater, hsettles⟩ := Logs.exists_settles hopens hclosed
    cases later with
    | dropped => exact Or.inr hlater
    | persisted other synthetic =>
        cases other with
        | toolResult result => exact Or.inl ⟨result, synthetic, hlater, hsettles⟩
        | assistant _ => exact absurd hsettles not_false
        | user _ => exact absurd hsettles not_false
        | other _ => exact absurd hsettles not_false
  · intro before result after hlog id hid
    exact hguarded.answers before _ after hlog id hid rfl
  · intro before turn made between result synthetic after hlog call _ hid hfirst hlater
    rw [← Bool.not_eq_true]
    intro hsynthetic
    have hsplit : (run opts actions).log = (before ++ .persisted turn made :: between) ++
        .persisted (.toolResult result) synthetic :: after := by
      rw [hlog, List.append_assoc, List.cons_append]
    have hopen := hguarded.answers _ _ _ hsplit call.id hid hsynthetic
    rw [List.append_cons] at hopen
    refine not_open_settled ?_ hlater hopen
    exact hfirst
  · exact hgiven
  · exact hundropped
  · exact hguarded.pending
  · exact (run opts actions).pending.distinct

/-! ## Runs -/

section Samples

attribute [local instance] asciiCase

def sampleOptions : GuardOptions Unit where
  redactSessionsSpawnArgs := id
  capRest _ rest := rest
  missingRest _ := ()

theorem sampleOptions_plain : PlainOptions sampleOptions :=
  ⟨fun _ => rfl, fun _ _ => rfl, fun _ => rfl, rfl⟩

def callTurn (id : JsString) : SessionMessage Unit :=
  .assistant
    { content := some [some
        { type := some (js "toolCall"), id := some id, name := some (js "read"), input := some () }]
      rest := () }

def resultOf (id : JsString) : SessionMessage Unit :=
  .toolResult { toolCallId := some id, toolUseId := none, toolName := none, rest := () }

def lateResult : List (Action Unit) :=
  [.appendMessage (callTurn (js "call_1")), .appendMessage (.user ()),
    .appendMessage (resultOf (js "call_1"))]

theorem guard_answers_calls_late : PlainOptions sampleOptions ∧
    CallsAnswered lateResult (run sampleOptions lateResult) :=
  ⟨sampleOptions_plain, guard_answers_calls sampleOptions_plain lateResult⟩

def isResultOf (id : JsString) (message : SessionMessage Unit) : Bool :=
  match message with
  | .toolResult result => extractToolResultId result = some id
  | _ => false

theorem late_result_persisted :
    ((run sampleOptions lateResult).transcript.filter fun message =>
        !(toolCallsOf message).isEmpty).length = 1 ∧
      ((run sampleOptions lateResult).transcript.filter (isResultOf (js "call_1"))).length = 2 := by
  decide +kernel

end Samples

end GreenchClaw.ToolResultGuard
