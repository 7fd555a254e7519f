import GreenchClaw.Agents.Compaction
import GreenchClaw.Agents.WellPaired
import GreenchClaw.Lib.Transition

/-!
# Chunks keep turns whole

The chunks of a transcript are the transcript again, and none of them ends between a turn and its results.
-/

namespace GreenchClaw.Agents

open GreenchClaw.Js

variable {α : Type}

/-! ## Turns and their results -/

def resultId : AgentMessage α → Option JsString
  | .toolResult r => extractToolResultId r
  | _ => none

def resultsAfter (after : List (AgentMessage α)) : List (AgentMessage α) := after.takeWhile isToolResult

structure FollowedByResults (assistant : AssistantMessage α) (after : List (AgentMessage α)) : Prop where
  placed : ∀ msg ∈ resultsAfter after, ∃ id ∈ callIds assistant, resultId msg = some id
  once : ((resultsAfter after).filterMap resultId).Nodup
  answered : ∀ id ∈ callIds assistant, ∃ msg ∈ resultsAfter after, resultId msg = some id

def TurnsFollowed (messages : List (AgentMessage α)) : Prop :=
  ∀ turn ∈ (turns messages).2, isErrored turn.1 = false → FollowedByResults turn.1 turn.2

def CutKeepsTurns (front back : List (AgentMessage α)) : Prop :=
  ∀ before assistant results later result after,
    front = before ++ .assistant assistant :: results → back = later ++ .toolResult result :: after →
      isErrored assistant = false → (∀ msg ∈ results ++ later, isToolResult msg = true) →
        ∀ id ∈ callIds assistant, extractToolResultId result ≠ some id

def KeepsTurns (chunks : List (List (AgentMessage α))) : Prop :=
  ∀ front back, chunks = front ++ back → CutKeepsTurns front.flatten back.flatten

theorem resultsAfter_span (rest : List (AgentMessage α)) :
    resultsAfter (turns rest).1 = resultsAfter rest := by
  induction rest using turnInduction with
  | nil => rfl
  | turn assistant rest hcalls ih =>
      rw [turns_cons_turn hcalls]
      rfl
  | plain msg rest hplain ih =>
      rw [turns_cons_plain hplain, resultsAfter, resultsAfter,
        List.takeWhile_cons, List.takeWhile_cons]
      rw [resultsAfter, resultsAfter] at ih
      rw [ih]

theorem turns_append_subset (before after : List (AgentMessage α)) :
    (turns after).2 ⊆ (turns (before ++ after)).2 := by
  induction before using turnInduction with
  | nil => exact List.Subset.refl _
  | turn assistant before hcalls ih =>
      rw [List.cons_append]
      rw [turns_cons_turn hcalls]
      exact List.subset_cons_of_subset _ ih
  | plain msg before hplain ih =>
      rw [List.cons_append]
      rw [turns_cons_plain hplain]
      exact ih

theorem TurnsFollowed.of_split {messages before after : List (AgentMessage α)}
    {assistant : AssistantMessage α} (h : TurnsFollowed messages)
    (hsplit : messages = before ++ .assistant assistant :: after) (herrored : isErrored assistant = false)
    (hcalls : callIds assistant ≠ []) : FollowedByResults assistant after := by
  have hturn : (assistant, (turns after).1) ∈ (turns messages).2 := by
    rw [hsplit]
    apply turns_append_subset before
    rw [turns_cons_turn (hasToolCalls_of_callIds hcalls)]
    exact List.mem_cons_self
  have hfollowed := h _ hturn herrored
  refine ⟨?_, ?_, ?_⟩
  · rw [← resultsAfter_span]
    exact hfollowed.placed
  · rw [← resultsAfter_span]
    exact hfollowed.once
  · rw [← resultsAfter_span]
    exact hfollowed.answered

theorem TurnsFollowed.suffix {before after : List (AgentMessage α)} (h : TurnsFollowed (before ++ after)) :
    TurnsFollowed after :=
  fun turn hturn => h turn (turns_append_subset before after hturn)

/-! ## The chunks of the loop -/

structure Splitting (normalizedParts : ℕ) (read : List (AgentMessage α)) (s : SplitState α) : Prop where
  joined : s.chunks.flatten ++ s.current = read
  nonempty : ∀ chunk ∈ s.chunks, chunk ≠ []
  bounded : s.chunks.length ≤ normalizedParts - 1
  /-- The current chunk can be cut before the turn that waits for results. -/
  boundary : ∀ start ∈ s.pendingChunkStartIndex,
    ∃ assistant, s.current[start]? = some (.assistant assistant)

section Loop

variable {host : TokenHost α} {normalizedParts : ℕ} {targetTokens : ℚ} {read : List (AgentMessage α)}
  {s : SplitState α}

theorem mayClose_iff : s.mayClose normalizedParts = true ↔ s.chunks.length < normalizedParts - 1 :=
  decide_eq_true_iff

theorem lt_length_of_get {list : List (AgentMessage α)} {start : ℕ} {msg : AgentMessage α}
    (h : list[start]? = some msg) : start < list.length := (List.getElem?_eq_some_iff.mp h).1

theorem splitCurrent_cases (s : SplitState α) :
    s.splitCurrentAtPendingBoundary host normalizedParts = s ∨
      ∃ start, s.pendingChunkStartIndex = some start ∧ 0 < start ∧ s.mayClose normalizedParts = true ∧
        (s.splitCurrentAtPendingBoundary host normalizedParts).chunks =
          s.chunks ++ [s.current.take start] ∧
        (s.splitCurrentAtPendingBoundary host normalizedParts).current = s.current.drop start ∧
        (s.splitCurrentAtPendingBoundary host normalizedParts).pendingToolCallIds =
          s.pendingToolCallIds ∧
        (s.splitCurrentAtPendingBoundary host normalizedParts).pendingChunkStartIndex = some 0 := by
  rw [SplitState.splitCurrentAtPendingBoundary]
  cases hstart : s.pendingChunkStartIndex with
  | none => exact Or.inl rfl
  | some start =>
      by_cases hskip : start = 0 ∨ !s.mayClose normalizedParts
      · simp only [if_pos hskip]
        exact Or.inl trivial
      · simp only [if_neg hskip]
        rw [not_or] at hskip
        refine Or.inr ⟨start, rfl, Nat.pos_of_ne_zero hskip.1, ?_, rfl, rfl, trivial, trivial⟩
        simpa using hskip.2

theorem Splitting.splitCurrent (h : Splitting normalizedParts read s) :
    Splitting normalizedParts read (s.splitCurrentAtPendingBoundary host normalizedParts) := by
  rcases @splitCurrent_cases α host normalizedParts s with hsame | ⟨start, hstart, hpos, hclose,
    hchunks, hcurrent, -, hindex⟩
  · rw [hsame]
    exact h
  · obtain ⟨assistant, hget⟩ := h.boundary start hstart
    have hlt := lt_length_of_get hget
    refine ⟨?_, ?_, ?_, ?_⟩
    · rw [hchunks, hcurrent, List.flatten_append, List.flatten_singleton, List.append_assoc,
        List.take_append_drop]
      exact h.joined
    · intro chunk hmem
      rw [hchunks, List.mem_append, List.mem_singleton] at hmem
      rcases hmem with hold | hnew
      · exact h.nonempty chunk hold
      · rw [hnew, ← List.length_pos_iff, List.length_take]
        omega
    · rw [hchunks, List.length_append, List.length_singleton]
      have hless := mayClose_iff.mp hclose
      omega
    · intro first hfirst
      rw [hindex, Option.mem_some_iff] at hfirst
      refine ⟨assistant, ?_⟩
      rw [hcurrent, List.getElem?_drop, ← hfirst]
      exact hget

theorem Splitting.splitBefore (h : Splitting normalizedParts read s) (messageTokens : ℚ) :
    Splitting normalizedParts read (s.splitBefore normalizedParts targetTokens messageTokens) := by
  rw [SplitState.splitBefore]
  split
  · rename_i hclose
    have hless := mayClose_iff.mp hclose.2.1
    refine ⟨?_, ?_, ?_, fun start hstart => absurd hstart (by simp)⟩
    · rw [List.flatten_append, List.flatten_singleton, List.append_nil]
      exact h.joined
    · intro chunk hmem
      rw [List.mem_append, List.mem_singleton] at hmem
      rcases hmem with hold | hnew
      · exact h.nonempty chunk hold
      · rw [hnew]
        exact List.length_pos_iff.mp hclose.2.2.1
    · rw [List.length_append, List.length_singleton]
      omega
  · exact h

theorem Splitting.pushMessage (h : Splitting normalizedParts read s) (message : AgentMessage α)
    (messageTokens : ℚ) :
    Splitting normalizedParts (read ++ [message]) (s.pushMessage message messageTokens) := by
  refine ⟨?_, h.nonempty, h.bounded, ?_⟩
  · rw [SplitState.pushMessage, ← List.append_assoc, h.joined]
  · intro start hstart
    obtain ⟨assistant, hget⟩ := h.boundary start hstart
    refine ⟨assistant, ?_⟩
    rw [SplitState.pushMessage, List.getElem?_append_left (lt_length_of_get hget)]
    exact hget

theorem Splitting.awaitResults {assistant : AssistantMessage α} {earlier : List (AgentMessage α)}
    (h : Splitting normalizedParts read s) (hlast : s.current = earlier ++ [.assistant assistant]) :
    Splitting normalizedParts read (s.awaitResults assistant) := by
  simp only [SplitState.awaitResults]
  split
  · refine ⟨h.joined, h.nonempty, h.bounded, ?_⟩
    intro start hstart
    rw [Option.mem_some_iff] at hstart
    refine ⟨assistant, ?_⟩
    rw [← hstart, hlast, List.length_append, List.length_singleton, Nat.add_sub_cancel,
      List.getElem?_append_right (Nat.le_refl _), Nat.sub_self]
    rfl
  · exact ⟨h.joined, h.nonempty, h.bounded, fun start hstart => absurd hstart (by simp)⟩

theorem Splitting.takeResult (h : Splitting normalizedParts read s) (result : ToolResultMessage α) :
    Splitting normalizedParts read (s.takeResult result) := by
  rw [SplitState.takeResult]
  split
  · exact ⟨h.joined, h.nonempty, h.bounded, fun start hstart => absurd hstart (by simp)⟩
  · exact ⟨h.joined, h.nonempty, h.bounded, h.boundary⟩

theorem Splitting.settle (h : Splitting normalizedParts read s) :
    Splitting normalizedParts read (s.settle host normalizedParts targetTokens) := by
  rw [SplitState.settle]
  split
  · have hsplit := @Splitting.splitCurrent α host normalizedParts read s h
    exact ⟨hsplit.joined, hsplit.nonempty, hsplit.bounded, fun start hstart => absurd hstart (by simp)⟩
  · exact h

theorem Splitting.receive (h : Splitting normalizedParts read s) (message : AgentMessage α) :
    Splitting normalizedParts (read ++ [message])
      (s.receive host normalizedParts targetTokens message) :=
  (h.splitBefore _).pushMessage message _

theorem current_receive (s : SplitState α) (message : AgentMessage α) : ∃ earlier,
    (s.receive host normalizedParts targetTokens message).current = earlier ++ [message] := ⟨_, rfl⟩

theorem Splitting.splitNext (h : Splitting normalizedParts read s) (message : AgentMessage α) :
    Splitting normalizedParts (read ++ [message])
      (s.splitNext host normalizedParts targetTokens message) := by
  have hreceived := @Splitting.receive α host normalizedParts targetTokens read s h message
  obtain ⟨earlier, hcurrent⟩ := @current_receive α host normalizedParts targetTokens s message
  cases message with
  | assistant assistant => exact hreceived.awaitResults hcurrent
  | toolResult result =>
      rw [SplitState.splitNext]
      split
      · exact (hreceived.takeResult result).settle
      · exact hreceived
  | notObject value => exact hreceived
  | other value => exact hreceived

theorem Splitting.fold (h : Splitting normalizedParts read s) (rest : List (AgentMessage α)) :
    Splitting normalizedParts (read ++ rest)
      (rest.foldl (fun (s : SplitState α) => s.splitNext host normalizedParts targetTokens) s) := by
  induction rest generalizing read s with
  | nil =>
      rw [List.append_nil]
      exact h
  | cons message rest ih =>
      rw [List.foldl_cons, List.append_cons]
      exact ih (h.splitNext message)

/-- The chunks are the messages again, none is empty, and there are not too many. -/
theorem Splitting.finish (h : Splitting normalizedParts read s) (hparts : 1 < normalizedParts)  :
    (s.finish host normalizedParts targetTokens).flatten = read ∧
      (∀ chunk ∈ s.finish host normalizedParts targetTokens, chunk ≠ []) ∧
      (s.finish host normalizedParts targetTokens).length ≤ normalizedParts := by
  have hlast : ∀ {s : SplitState α}, Splitting normalizedParts read s →
      (if 0 < s.current.length then s.chunks ++ [s.current] else s.chunks).flatten = read ∧
        (∀ chunk ∈ if 0 < s.current.length then s.chunks ++ [s.current] else s.chunks, chunk ≠ []) ∧
        (if 0 < s.current.length then s.chunks ++ [s.current] else s.chunks).length ≤ normalizedParts := by
    intro s h
    have hbounded := h.bounded
    split
    · rename_i hcurrent
      refine ⟨?_, ?_, ?_⟩
      · rw [List.flatten_append, List.flatten_singleton]
        exact h.joined
      · intro chunk hmem
        rcases List.mem_append.mp hmem with hold | hnew
        · exact h.nonempty chunk hold
        · rw [List.mem_singleton.mp hnew]
          exact List.length_pos_iff.mp hcurrent
      · rw [List.length_append, List.length_singleton]
        omega
    · rename_i hcurrent
      have hnil : s.current = [] := List.length_eq_zero_iff.mp (by omega)
      refine ⟨?_, h.nonempty, by omega⟩
      rw [← h.joined, hnil, List.append_nil]
  rw [SplitState.finish]
  split
  · exact hlast h.splitCurrent
  · exact hlast h

/-! ## The cuts -/

def Waiting (read : List (AgentMessage α)) (pending : List JsString) : Prop :=
  ∀ before assistant results, read = before ++ .assistant assistant :: results →
    isErrored assistant = false → (∀ msg ∈ results, isToolResult msg = true ∧ (resultId msg).isSome = true) →
      ∀ id, id ∈ pending ↔ id ∈ callIds assistant ∧ ∀ msg ∈ results, resultId msg ≠ some id

def CutsKeepTurns (chunks : List (List (AgentMessage α))) (tail : List (AgentMessage α)) : Prop :=
  ∀ front back, chunks = front ++ back → CutKeepsTurns front.flatten (back.flatten ++ tail)

theorem cutsKeepTurns_nil (tail : List (AgentMessage α)) : CutsKeepTurns [] tail := by
  intro front back hsplit
  have hfront : front = [] := (List.append_eq_nil_iff.mp hsplit.symm).1
  rw [hfront]
  intro before assistant results later result after hread
  exact absurd hread (by simp)

theorem cutsKeepTurns_close {chunks : List (List (AgentMessage α))} {chunk tail : List (AgentMessage α)}
    (h : CutsKeepTurns chunks (chunk ++ tail)) (hcut : CutKeepsTurns (chunks.flatten ++ chunk) tail) :
    CutsKeepTurns (chunks ++ [chunk]) tail := by
  intro front back hsplit
  cases back with
  | nil =>
      rw [List.append_nil] at hsplit
      rw [← hsplit, List.flatten_append, List.flatten_singleton]
      exact hcut
  | cons first back =>
      rcases Logs.split_snoc hsplit with ⟨hfront, hfirst, hback⟩ | ⟨rest, hback, hchunks⟩
      · rw [hfirst, hfront, hback, List.flatten_singleton]
        have hnil := h chunks [] (List.append_nil _).symm
        exact hnil
      · have hkept := h front (first :: rest) hchunks
        rw [hback, List.flatten_cons, List.flatten_append, List.flatten_singleton, List.append_assoc,
          List.append_assoc]
        rw [List.flatten_cons, List.append_assoc] at hkept
        exact hkept

theorem cut_before_assistant {front back : List (AgentMessage α)} {next : AssistantMessage α} :
    CutKeepsTurns front (.assistant next :: back) := by
  intro before assistant results later result after _ hback _ hresults id _
  cases later with
  | nil =>
      rw [List.nil_append] at hback
      exact absurd (List.cons.inj hback).1 (by simp)
  | cons first later =>
      rw [List.cons_append] at hback
      have hfirst := hresults first (by simp)
      rw [← (List.cons.inj hback).1] at hfirst
      exact absurd hfirst (by simp [isToolResult])

theorem cut_settled {front back : List (AgentMessage α)} (hfollowed : TurnsFollowed (front ++ back))
    (hwaiting : Waiting front []) : CutKeepsTurns front back := by
  intro before assistant results later result after hfront hback herrored hresults id hid hresult
  have hcalls : callIds assistant ≠ [] := List.ne_nil_of_mem hid
  have hsplit : front ++ back =
      before ++ .assistant assistant :: (results ++ (later ++ .toolResult result :: after)) := by
    rw [hfront, hback, List.append_assoc, List.cons_append]
  have hturn := hfollowed.of_split hsplit herrored hcalls
  have hafter : resultsAfter (results ++ (later ++ .toolResult result :: after)) =
      results ++ (later ++ .toolResult result :: resultsAfter after) := by
    rw [← List.append_assoc, resultsAfter, List.takeWhile_append_of_pos hresults,
      List.takeWhile_cons_of_pos rfl, List.append_assoc]
    rfl
  -- the answer read already and the one behind the cut have one id
  have hhas : ∀ msg ∈ results, isToolResult msg = true ∧ (resultId msg).isSome = true := by
    intro msg hmem
    refine ⟨hresults msg (List.mem_append_left _ hmem), ?_⟩
    obtain ⟨called, -, hcalled⟩ := hturn.placed msg (hafter ▸ List.mem_append_left _ hmem)
    rw [hcalled]
    rfl
  have hanswered : ∃ msg ∈ results, resultId msg = some id := by
    by_contra hnone
    have hwaits := (hwaiting before assistant results hfront herrored hhas id).mpr
      ⟨hid, fun msg hmem heq => hnone ⟨msg, hmem, heq⟩⟩
    exact absurd hwaits List.not_mem_nil
  obtain ⟨msg, hmem, hmsg⟩ := hanswered
  have honce := hturn.once
  rw [hafter, List.filterMap_append, List.nodup_append] at honce
  apply honce.2.2 id (List.mem_filterMap.mpr ⟨msg, hmem, hmsg⟩) id _ rfl
  apply List.mem_filterMap.mpr
  exact ⟨.toolResult result, List.mem_append_right _ List.mem_cons_self, hresult⟩

theorem Waiting.nothing : Waiting ([] : List (AgentMessage α)) [] := by
  intro before assistant results hread
  exact absurd hread (by simp)

theorem Waiting.other {message : AgentMessage α} (hresult : isToolResult message = false)
    (hassistant : ∀ assistant, message ≠ .assistant assistant) (pending : List JsString) :
    Waiting (read ++ [message]) pending := by
  intro before assistant results hread _ hresults id
  rcases Logs.split_snoc hread with ⟨-, hlast, -⟩ | ⟨rest, hrest, -⟩
  · exact absurd hlast.symm (hassistant assistant)
  · have hlast := (hresults message (by rw [hrest]; simp)).1
    rw [hresult] at hlast
    exact absurd hlast (by simp)

theorem Waiting.assistant (read : List (AgentMessage α)) (assistant : AssistantMessage α) :
    Waiting (read ++ [.assistant assistant]) (s.awaitResults assistant).pendingToolCallIds := by
  intro before other results hread herrored hresults id
  rcases Logs.split_snoc hread with ⟨-, hlast, hresultsNil⟩ | ⟨rest, hrest, -⟩
  · have hother : other = assistant := AgentMessage.assistant.inj hlast
    rw [hother] at herrored
    have hpending : (s.awaitResults assistant).pendingToolCallIds = callIds assistant := by
      simp only [SplitState.awaitResults, herrored]
      by_cases hcalls : 0 < (extractToolCallsFromAssistant assistant).length
      · simp only [Bool.not_false, hcalls, and_self, if_true]
        rfl
      · simp only [hcalls, and_false, if_false]
        have hnone : extractToolCallsFromAssistant assistant = [] := List.length_eq_zero_iff.mp (by omega)
        rw [callIds, hnone]
        rfl
    rw [hpending, hother, hresultsNil]
    simp
  · have hlast := (hresults (.assistant assistant) (by rw [hrest]; simp)).1
    exact absurd hlast (by simp [isToolResult])

theorem Waiting.result (h : Waiting read s.pendingToolCallIds) (result : ToolResultMessage α) :
    Waiting (read ++ [.toolResult result]) (if 0 < s.pendingToolCallIds.length then
      (s.takeResult result).pendingToolCallIds else s.pendingToolCallIds) := by
  intro before assistant results hread herrored hresults id
  rcases Logs.split_snoc hread with ⟨-, hlast, -⟩ | ⟨rest, hrest, hread'⟩
  · exact absurd hlast (by simp)
  · have hbefore := h before assistant rest hread' herrored fun msg hmem =>
      hresults msg (by rw [hrest]; exact List.mem_append_left _ hmem)
    have hlastId := (hresults (.toolResult result) (by rw [hrest]; simp)).2
    obtain ⟨answered, hanswered⟩ := Option.isSome_iff_exists.mp hlastId
    have hextract : extractToolResultId result = some answered := hanswered
    have hall : (∀ msg ∈ results, resultId msg ≠ some id) ↔
        (∀ msg ∈ rest, resultId msg ≠ some id) ∧ answered ≠ id := by
      rw [hrest]
      simp only [List.mem_append, List.mem_singleton, or_imp, forall_and, forall_eq, hanswered, ne_eq,
        Option.some.injEq]
    rw [hall, ← and_assoc, ← hbefore id]
    by_cases hpending : 0 < s.pendingToolCallIds.length
    · rw [if_pos hpending, SplitState.takeResult, hextract]
      simp only [List.mem_filter, decide_eq_true_eq, ne_comm]
    · rw [if_neg hpending]
      have hnil : s.pendingToolCallIds = [] := List.length_eq_zero_iff.mp (by omega)
      rw [hnil]
      simp

structure Whole (read rest : List (AgentMessage α)) (s : SplitState α) : Prop where
  waiting : Waiting read s.pendingToolCallIds
  cuts : CutsKeepTurns s.chunks (s.current ++ rest)

variable {rest : List (AgentMessage α)} {message : AgentMessage α}

theorem cuts_receive (h : Splitting normalizedParts read s) (hwhole : Whole read (message :: rest) s)
    (hfollowed : TurnsFollowed (read ++ message :: rest)) :
    CutsKeepTurns (s.receive host normalizedParts targetTokens message).chunks
        ((s.receive host normalizedParts targetTokens message).current ++ rest) ∧
      (s.receive host normalizedParts targetTokens message).pendingToolCallIds =
        s.pendingToolCallIds := by
  simp only [SplitState.receive, SplitState.pushMessage, SplitState.splitBefore]
  split
  · rename_i hclose
    have hnone : s.pendingToolCallIds = [] := List.length_eq_zero_iff.mp hclose.1
    refine ⟨?_, rfl⟩
    apply cutsKeepTurns_close hwhole.cuts
    rw [h.joined]
    exact cut_settled hfollowed (hnone ▸ hwhole.waiting)
  · refine ⟨?_, rfl⟩
    rw [List.append_assoc]
    exact hwhole.cuts

theorem cuts_splitCurrent (h : Splitting normalizedParts read s)
    (hcuts : CutsKeepTurns s.chunks (s.current ++ rest)) :
    CutsKeepTurns (s.splitCurrentAtPendingBoundary host normalizedParts).chunks
        ((s.splitCurrentAtPendingBoundary host normalizedParts).current ++ rest) ∧
      (s.splitCurrentAtPendingBoundary host normalizedParts).pendingToolCallIds =
        s.pendingToolCallIds := by
  rcases @splitCurrent_cases α host normalizedParts s with hsame | ⟨start, hstart, -, -, hchunks, hcurrent,
    hpending, -⟩
  · rw [hsame]
    exact ⟨hcuts, rfl⟩
  · obtain ⟨assistant, hget⟩ := h.boundary start hstart
    have hdrop : s.current.drop start = .assistant assistant :: s.current.drop (start + 1) := by
      obtain ⟨hlt, hvalue⟩ := List.getElem?_eq_some_iff.mp hget
      rw [List.drop_eq_getElem_cons hlt, hvalue]
    rw [hchunks, hcurrent, hpending]
    refine ⟨?_, rfl⟩
    apply cutsKeepTurns_close
    · rw [← List.append_assoc, List.take_append_drop]
      exact hcuts
    · rw [hdrop]
      exact cut_before_assistant

theorem cuts_settle (h : Splitting normalizedParts read s)
    (hcuts : CutsKeepTurns s.chunks (s.current ++ rest)) :
    CutsKeepTurns (s.settle host normalizedParts targetTokens).chunks
        ((s.settle host normalizedParts targetTokens).current ++ rest) ∧
      (s.settle host normalizedParts targetTokens).pendingToolCallIds = s.pendingToolCallIds := by
  rw [SplitState.settle]
  split
  · exact @cuts_splitCurrent α host normalizedParts read s rest h hcuts
  · exact ⟨hcuts, rfl⟩

theorem Whole.splitNext (hwhole : Whole read (message :: rest) s) (h : Splitting normalizedParts read s)
    (hfollowed : TurnsFollowed (read ++ message :: rest)) :
    Whole (read ++ [message]) rest (s.splitNext host normalizedParts targetTokens message) := by
  have hreceived := @Splitting.receive α host normalizedParts targetTokens read s h message
  obtain ⟨hcuts, hpending⟩ := @cuts_receive α host normalizedParts targetTokens read s rest message h
    hwhole hfollowed
  cases message with
  | assistant assistant =>
      refine ⟨Waiting.assistant read assistant, ?_⟩
      simp only [SplitState.splitNext, SplitState.awaitResults]
      split
      · exact hcuts
      · exact hcuts
  | toolResult result =>
      have hwaiting := (hpending ▸ hwhole.waiting).result result
      rw [SplitState.splitNext]
      split
      · rename_i hsome
        rw [if_pos hsome] at hwaiting
        have htaken : CutsKeepTurns
            ((s.receive host normalizedParts targetTokens (.toolResult result)).takeResult result).chunks
            (((s.receive host normalizedParts targetTokens (.toolResult result)).takeResult
              result).current ++ rest) := by
          rw [SplitState.takeResult]
          split
          · exact hcuts
          · exact hcuts
        obtain ⟨hsettled, hkept⟩ := @cuts_settle α host normalizedParts targetTokens _ _ rest
          (hreceived.takeResult result) htaken
        exact ⟨hkept ▸ hwaiting, hsettled⟩
      · rename_i hnone
        rw [if_neg hnone] at hwaiting
        exact ⟨hwaiting, hcuts⟩
  | notObject value => exact ⟨Waiting.other rfl (by simp) _, hcuts⟩
  | other value => exact ⟨Waiting.other rfl (by simp) _, hcuts⟩

theorem Whole.fold (hwhole : Whole read rest s) (h : Splitting normalizedParts read s)
    (hfollowed : TurnsFollowed (read ++ rest)) :
    Whole (read ++ rest) []
      (rest.foldl (fun (s : SplitState α) => s.splitNext host normalizedParts targetTokens) s) := by
  induction rest generalizing read s with
  | nil =>
      rw [List.append_nil]
      exact hwhole
  | cons message rest ih =>
      rw [List.foldl_cons, List.append_cons]
      apply ih (hwhole.splitNext h hfollowed) (h.splitNext message)
      rw [← List.append_cons]
      exact hfollowed

theorem keepsTurns_finish (h : Splitting normalizedParts read s) (hcuts : CutsKeepTurns s.chunks s.current) :
    KeepsTurns (s.finish host normalizedParts targetTokens) := by
  have hlast : ∀ {s : SplitState α}, CutsKeepTurns s.chunks s.current →
      KeepsTurns (if 0 < s.current.length then s.chunks ++ [s.current] else s.chunks) := by
    intro s hcuts
    split
    · intro front back hsplit
      have hclosed : CutsKeepTurns (s.chunks ++ [s.current]) [] := by
        apply cutsKeepTurns_close
        · rw [List.append_nil]
          exact hcuts
        · intro before assistant results later result after _ hback
          exact absurd hback (by simp)
      have hcut := hclosed front back hsplit
      rw [List.append_nil] at hcut
      exact hcut
    · rename_i hcurrent
      intro front back hsplit
      have hnil : s.current = [] := List.length_eq_zero_iff.mp (by omega)
      have hcut := hcuts front back hsplit
      rw [hnil, List.append_nil] at hcut
      exact hcut
  rw [SplitState.finish]
  split
  · have hclosed := (@cuts_splitCurrent α host normalizedParts read s [] h
      (by rw [List.append_nil]; exact hcuts)).1
    rw [List.append_nil] at hclosed
    exact hlast hclosed
  · exact hlast hcuts

end Loop

/-! ## The chunks -/

/-- How many chunks are asked for: a whole number, and one at least. -/
def askedParts (parts : Option ℚ) : ℕ := max 1 (parts.getD 1).floor.toNat

theorem normalizeParts_le (parts : Option ℚ) (messageCount : ℕ) :
    normalizeParts parts messageCount ≤ askedParts parts := by
  cases parts with
  | none => exact Nat.le_max_left _ _
  | some parts =>
      rw [normalizeParts, askedParts, Option.getD_some]
      split
      · exact Nat.le_max_left _ _
      · exact Nat.min_le_left _ _

theorem chunks_whole (host : TokenHost α) (messages : List (AgentMessage α)) (parts : Option ℚ) :
    (splitMessagesByTokenShare host messages parts).flatten = messages ∧
      (∀ chunk ∈ splitMessagesByTokenShare host messages parts, chunk ≠ []) ∧
      (splitMessagesByTokenShare host messages parts).length ≤ askedParts parts ∧
      (TurnsFollowed messages → KeepsTurns (splitMessagesByTokenShare host messages parts)) := by
  rw [splitMessagesByTokenShare]
  by_cases hnil : messages.length = 0
  · rw [if_pos hnil, List.length_eq_zero_iff.mp hnil]
    refine ⟨rfl, fun chunk h => absurd h List.not_mem_nil, Nat.zero_le _, fun _ front back hsplit => ?_⟩
    have hcut := cutsKeepTurns_nil ([] : List (AgentMessage α)) front back hsplit
    rw [List.append_nil] at hcut
    exact hcut
  · rw [if_neg hnil]
    have hasked := normalizeParts_le parts messages.length
    by_cases hone : normalizeParts parts messages.length ≤ 1
    · simp only [if_pos hone]
      refine ⟨List.flatten_singleton, ?_, (Nat.le_max_left _ _), ?_⟩
      · intro chunk hmem
        rw [List.mem_singleton.mp hmem]
        exact fun h => hnil (List.length_eq_zero_iff.mpr h)
      · intro hfollowed front back hsplit
        have hclosed : CutsKeepTurns ([] ++ [messages]) [] := by
          apply cutsKeepTurns_close (cutsKeepTurns_nil _)
          intro before assistant results later result after _ hback
          exact absurd hback (by simp)
        have hcut := hclosed front back hsplit
        rw [List.append_nil] at hcut
        exact hcut
    · simp only [if_neg hone]
      have hinit : Splitting (normalizeParts parts messages.length) ([] : List (AgentMessage α)) {} :=
        ⟨rfl, fun chunk h => absurd h List.not_mem_nil, Nat.zero_le _,
          fun start h => absurd h (by simp)⟩
      have hfold := @Splitting.fold α host _
        (estimateMessagesTokens host messages / normalizeParts parts messages.length) [] {} hinit messages
      obtain ⟨hjoined, hnonempty, hlength⟩ := @Splitting.finish α host _
        (estimateMessagesTokens host messages / normalizeParts parts messages.length) _ _ hfold (by omega)
      refine ⟨hjoined, hnonempty, hlength.trans hasked, ?_⟩
      intro hfollowed
      have hwhole : Whole [] messages ({} : SplitState α) := ⟨Waiting.nothing, cutsKeepTurns_nil _⟩
      have hkept := @Whole.fold α host _
        (estimateMessagesTokens host messages / normalizeParts parts messages.length) [] {} messages
        hwhole hinit hfollowed
      apply keepsTurns_finish hfold
      have hcuts := hkept.cuts
      rw [List.append_nil] at hcuts
      exact hcuts

end GreenchClaw.Agents
