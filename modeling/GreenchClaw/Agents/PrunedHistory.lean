import GreenchClaw.Agents.RepairCounts

/-!
# Pruned histories

The loop that drops the first chunk of a history and repairs the rest ends, and what it keeps, lists and
counts.
-/

namespace GreenchClaw.Agents

open GreenchClaw.Js

variable {α : Type}

/-! ## What a pass does -/

def startsWithResult (messages : List (AgentMessage α)) : Bool := messages.head?.any isToolResult

def pruneMeasure (messages : List (AgentMessage α)) : ℕ :=
  messages.countP (fun msg => !isToolResult msg) + if startsWithResult messages = true then 1 else 0

structure Pruned (messages : List (AgentMessage α)) (history : PrunedHistory α) : Prop where
  kept : history.droppedMessagesList.filter (fun msg => !isToolResult msg) ++
      history.messages.filter (fun msg => !isToolResult msg) =
    messages.filter fun msg => !isToolResult msg
  /-- Once something is dropped, no result is an orphan and the calls are answered. -/
  answered : history = { messages } ∨ AnsweredHistory history.messages
  /-- With the results in place, what is dropped is counted and results are results of the messages. -/
  counted : Paired messages → Paired history.messages ∧
    history.droppedMessages + history.messages.length = messages.length ∧
    ∀ r, .toolResult r ∈ history.messages →
      ∃ found, .toolResult found ∈ messages ∧ r = { found with toolName := r.toolName }

section Pass

variable {host : TokenHost α} {body : JsString → α} {parts : ℕ} {budget : ℤ}
  {messages : List (AgentMessage α)} {history next : PrunedHistory α}

theorem pruned_start (messages : List (AgentMessage α)) : Pruned messages { messages } := by
  refine ⟨rfl, Or.inl rfl, fun hpaired => ⟨hpaired, Nat.zero_add _, fun r hr => ⟨r, hr, rfl⟩⟩⟩

theorem pruneOnce_cases (h : pruneOnce host body parts budget history = some next) :
    ∃ dropped rest, history.messages = dropped ++ rest ∧ dropped ≠ [] ∧
      next.messages = (repairToolUseResultPairing {} body rest).messages ∧
      next.droppedMessagesList = history.droppedMessagesList ++ dropped ∧
      next.droppedMessages = history.droppedMessages + dropped.length +
        (repairToolUseResultPairing {} body rest).droppedOrphanCount := by
  rw [pruneOnce] at h
  split at h
  · exact absurd h nofun
  · obtain ⟨hjoined, hnonempty, -, -⟩ := chunks_whole host history.messages (some parts)
    split at h
    · rename_i dropped second rest hchunks
      rw [hchunks] at hjoined hnonempty
      refine ⟨dropped, (second :: rest).flatten, hjoined.symm, hnonempty dropped List.mem_cons_self, ?_⟩
      rw [← Option.some.inj h]
      exact ⟨rfl, rfl, rfl⟩
    · exact absurd h nofun

theorem AnsweredHistory.start (h : AnsweredHistory messages) : startsWithResult messages = false := by
  cases messages with
  | nil => rfl
  | cons msg rest =>
      have hfront := h.placed.1
      show isToolResult msg = false
      by_cases hcalls : assistantHasToolCalls msg = true
      · obtain ⟨assistant, rfl⟩ := assistant_of_hasToolCalls hcalls
        rfl
      · rw [turns_cons_plain (eq_false_of_ne_true hcalls)] at hfront
        exact hfront msg List.mem_cons_self

theorem pruneMeasure_repair (rest : List (AgentMessage α)) :
    pruneMeasure (repairToolUseResultPairing {} body rest).messages =
      rest.countP fun msg => !isToolResult msg := by
  have hkept := congrArg List.length (@kept_repair α body rest)
  rw [← List.countP_eq_length_filter, ← List.countP_eq_length_filter] at hkept
  rw [pruneMeasure, answered_repair.start, if_neg Bool.false_ne_true, Nat.add_zero, hkept]

theorem pruneMeasure_lt (h : pruneOnce host body parts budget history = some next) :
    pruneMeasure next.messages < pruneMeasure history.messages := by
  obtain ⟨dropped, rest, hsplit, hnonempty, hnext, -, -⟩ := pruneOnce_cases h
  rw [hnext, pruneMeasure_repair, hsplit, pruneMeasure, List.countP_append]
  cases dropped with
  | nil => exact absurd rfl hnonempty
  | cons msg dropped =>
      have hstart : startsWithResult (msg :: dropped ++ rest) = isToolResult msg := rfl
      rw [hstart, List.countP_cons]
      cases isToolResult msg with
      | true =>
          simp only [if_true]
          omega
      | false =>
          simp only [Bool.not_false, if_true]
          omega

theorem pruneMeasure_le (messages : List (AgentMessage α)) : pruneMeasure messages ≤ messages.length := by
  rw [pruneMeasure]
  cases messages with
  | nil => exact Nat.le_refl 0
  | cons msg rest =>
      have hrest : rest.countP (fun msg => !isToolResult msg) ≤ rest.length := List.countP_le_length
      have hstart : startsWithResult (msg :: rest) = isToolResult msg := rfl
      rw [hstart, List.countP_cons, List.length_cons]
      cases isToolResult msg with
      | true =>
          simp only [Bool.not_true, Bool.false_eq_true, if_false, if_true]
          omega
      | false =>
          simp only [Bool.not_false, Bool.false_eq_true, if_false, if_true]
          omega

theorem Pruned.pass (hpruned : Pruned messages history)
    (h : pruneOnce host body parts budget history = some next) : Pruned messages next := by
  obtain ⟨dropped, rest, hsplit, -, hnext, hlist, hcount⟩ := pruneOnce_cases h
  refine ⟨?_, Or.inr (hnext ▸ answered_repair), fun hpaired => ?_⟩
  · have hkept := hpruned.kept
    rw [hsplit, List.filter_append] at hkept
    rw [hlist, hnext, kept_repair, List.filter_append, List.append_assoc]
    exact hkept
  · obtain ⟨hhistory, htotal, hreal⟩ := hpruned.counted hpaired
    rw [hsplit] at hhistory
    have hrest : Paired rest := hhistory.sublist
    refine ⟨hnext ▸ hrest.repair, ?_, fun r hr => ?_⟩
    · have hlength := @Paired.length_repair α body rest hrest
      have hjoined := congrArg List.length hsplit
      rw [List.length_append] at hjoined
      rw [hcount, hnext]
      omega
    · rw [hnext] at hr
      obtain ⟨found, hfound, hsame⟩ := hrest.real hr
      have hin : .toolResult found ∈ history.messages := hsplit ▸ List.mem_append_right _ hfound
      obtain ⟨original, horiginal, hfirst⟩ := hreal found hin
      refine ⟨original, horiginal, ?_⟩
      rw [hsame, hfirst]

/-- The loop ends, after the same pass for every number of passes that is large enough. -/
theorem Pruned.loop (hpruned : Pruned messages history) : ∃ last,
    (∀ fuel, pruneMeasure history.messages < fuel →
      pruneLoop host body parts budget fuel history = some last) ∧ Pruned messages last := by
  induction hmeasure : pruneMeasure history.messages using Nat.strongRecOn generalizing history with
  | ind measure ih =>
      cases hpass : pruneOnce host body parts budget history with
      | none =>
          refine ⟨history, fun fuel hfuel => ?_, hpruned⟩
          cases fuel with
          | zero => exact absurd hfuel (Nat.not_lt_zero _)
          | succ fuel => rw [pruneLoop, hpass]
      | some next =>
          have hless := pruneMeasure_lt hpass
          obtain ⟨last, hlast, hfinal⟩ := ih _ (hmeasure ▸ hless) (hpruned.pass hpass) rfl
          refine ⟨last, fun fuel hfuel => ?_, hfinal⟩
          cases fuel with
          | zero => exact absurd hfuel (Nat.not_lt_zero _)
          | succ fuel =>
              rw [pruneLoop, hpass]
              exact hlast fuel (by omega)

end Pass

theorem prune_accounts (host : TokenHost α) (body : JsString → α) (params : PruneParams)
    (messages : List (AgentMessage α)) : ∃ history,
    (∀ fuel, messages.length < fuel →
      pruneHistoryForContextShare host body params fuel messages = some history) ∧
    Pruned messages history := by
  obtain ⟨last, hlast, hpruned⟩ := @Pruned.loop α host body
    (normalizeParts (params.parts.getD (some DEFAULT_PARTS)) messages.length) (budgetTokens params) messages _
    (pruned_start messages)
  refine ⟨last, fun fuel hfuel => ?_, hpruned⟩
  rw [pruneHistoryForContextShare]
  exact hlast fuel (Nat.lt_of_le_of_lt (pruneMeasure_le messages) hfuel)

/-! ## Turns stay whole -/

/-- The chunks of a transcript keep its turns whole, and pruning accounts for every message. -/
theorem compaction_keeps_turns (host : TokenHost α) (body : JsString → α) (params : PruneParams)
    (parts : Option ℚ) (messages : List (AgentMessage α)) :
    ((splitMessagesByTokenShare host messages parts).flatten = messages ∧
      (∀ chunk ∈ splitMessagesByTokenShare host messages parts, chunk ≠ []) ∧
      (splitMessagesByTokenShare host messages parts).length ≤ askedParts parts ∧
      (TurnsFollowed messages → KeepsTurns (splitMessagesByTokenShare host messages parts))) ∧
    ∃ history,
      (∀ fuel, messages.length < fuel →
        pruneHistoryForContextShare host body params fuel messages = some history) ∧
      Pruned messages history :=
  ⟨chunks_whole host messages parts, prune_accounts host body params messages⟩

section Samples

def oneTokenEach : TokenHost ℕ where
  isRuntimeContext _ := false
  withoutDetails rest := rest
  estimateTokens _ := 1

def erroredTurn : AgentMessage ℕ :=
  .assistant
    { content := some [some { type := some (js "toolCall"), id := some (js "call"),
                              name := some (js "read") }]
      stopReason := some (js "error")
      rest := 0 }

/-- No parts still are one chunk, and a turn that ended in an error is separated from its result. -/
theorem compaction_splits_errored :
    (splitMessagesByTokenShare oneTokenEach [readTurn, readResult 1] (some 0)).length = 1 ∧
      splitMessagesByTokenShare oneTokenEach [erroredTurn, readResult 1] (some 2) =
        [[erroredTurn], [readResult 1]] := by
  exact ⟨by decide +kernel, by decide +kernel⟩

end Samples

end GreenchClaw.Agents
