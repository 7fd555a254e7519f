import GreenchClaw.Agents.RepairAgain
import GreenchClaw.Agents.WholeTurns

/-!
# What the repair of a transcript counts

How many results the repair drops as orphans, and what it makes of a transcript whose turns are directly
followed by their results.
-/

namespace GreenchClaw.Agents

open GreenchClaw.Js

variable {α : Type}

/-! ## Orphans -/

def isOrphan (ids : List JsString) (msg : AgentMessage α) : Bool :=
  isToolResult msg && !(resultId msg).any ids.contains

def orphans (messages : List (AgentMessage α)) : ℕ :=
  (turns messages).1.countP isToolResult +
    ((turns messages).2.map fun turn => turn.2.countP (isOrphan (callIds turn.1))).sum

section Orphans

variable (options : ToolUseResultPairingOptions) (body : JsString → α)

theorem scan_orphans (seen ids : List JsString) (names : Record JsString) (span : List (AgentMessage α))
    (scan : SpanScan α) :
    (span.foldl (scanNext seen ids names) scan).droppedOrphanCount =
      scan.droppedOrphanCount + span.countP (isOrphan ids) := by
  induction span generalizing scan with
  | nil => rfl
  | cons msg span ih =>
      rw [List.foldl_cons, ih, List.countP_cons]
      cases msg with
      | toolResult r =>
          have horphan : isOrphan ids (.toolResult r) =
              ((extractToolResultId r).filter ids.contains).isNone := by
            rw [isOrphan, isToolResult, Bool.true_and, resultId]
            cases extractToolResultId r with
            | none => rfl
            | some id =>
                rw [Option.any_some, Option.filter_some]
                cases ids.contains id with
                | true => rfl
                | false => rfl
          rw [horphan, scanNext]
          cases (extractToolResultId r).filter ids.contains with
          | none =>
              simp only [Option.isNone_none, if_true]
              omega
          | some id =>
              simp only [Option.isNone_some, Bool.false_eq_true, if_false]
              rw [Nat.add_zero]
              split
              · rfl
              · rfl
      | notObject value =>
          show scan.droppedOrphanCount + _ = _
          simp [isOrphan, isToolResult]
      | assistant message =>
          show scan.droppedOrphanCount + _ = _
          simp [isOrphan, isToolResult]
      | other value =>
          show scan.droppedOrphanCount + _ = _
          simp [isOrphan, isToolResult]

theorem pushToolResult_orphans (s : ToolUseRepair α) (msg : ToolResultMessage α) :
    (s.pushToolResult msg).droppedOrphanCount = s.droppedOrphanCount := by
  rw [ToolUseRepair.pushToolResult]
  split
  · rfl
  · split
    · rfl
    · rfl

theorem pushKnown_orphans (results : Record (ToolResultMessage α)) (calls : List ToolCallLike)
    (s : ToolUseRepair α) :
    (ToolUseRepair.pushKnown results calls s).droppedOrphanCount = s.droppedOrphanCount := by
  induction calls generalizing s with
  | nil => rfl
  | cons call calls ih =>
      rw [ToolUseRepair.pushKnown]
      cases results.get call.id with
      | none => exact ih s
      | some result => exact (ih _).trans (pushToolResult_orphans s result)

theorem pushAnswers_orphans (text : Option JsString) (results : Record (ToolResultMessage α))
    (calls : List ToolCallLike) (s : ToolUseRepair α) :
    (ToolUseRepair.pushAnswers body text results calls s).droppedOrphanCount = s.droppedOrphanCount := by
  induction calls generalizing s with
  | nil => rfl
  | cons call calls ih =>
      rw [ToolUseRepair.pushAnswers]
      cases results.get call.id with
      | none => exact (ih _).trans (pushToolResult_orphans _ _)
      | some result => exact (ih _).trans (pushToolResult_orphans s result)

theorem repairTurn_orphans (s : ToolUseRepair α) (turn : Turn α) :
    (s.repairTurn options body turn.1 turn.2).droppedOrphanCount =
      s.droppedOrphanCount + turn.2.countP (isOrphan (callIds turn.1)) := by
  rw [ToolUseRepair.repairTurn]
  simp only
  split
  · split
    · simp only [scan_orphans]
      rw [Nat.zero_add]
      rfl
    · simp only [pushKnown_orphans, ToolUseRepair.push, scan_orphans]
      rw [Nat.zero_add]
      rfl
  · simp only [pushAnswers_orphans]
    split
    · simp only [ToolUseRepair.push, scan_orphans]
      rw [Nat.zero_add]
      rfl
    · simp only [ToolUseRepair.push, scan_orphans]
      rw [Nat.zero_add]
      rfl

theorem lead_orphans (s : ToolUseRepair α) (front : List (AgentMessage α)) :
    (s.lead front).droppedOrphanCount = s.droppedOrphanCount + front.countP isToolResult := by
  induction front generalizing s with
  | nil => rfl
  | cons msg front ih =>
      rw [List.countP_cons]
      cases msg with
      | toolResult r =>
          rw [ToolUseRepair.lead, ih]
          simp only [isToolResult, if_true]
          omega
      | notObject value => exact ih (s.push (.notObject value))
      | assistant message => exact ih (s.push (.assistant message))
      | other value => exact ih (s.push (.other value))

theorem fold_orphans (s : ToolUseRepair α) (list : List (Turn α)) :
    (list.foldl (fun s turn => s.repairTurn options body turn.1 turn.2) s).droppedOrphanCount =
      s.droppedOrphanCount + (list.map fun turn => turn.2.countP (isOrphan (callIds turn.1))).sum := by
  induction list generalizing s with
  | nil => rfl
  | cons turn list ih =>
      rw [List.foldl_cons, ih, repairTurn_orphans, List.map_cons, List.sum_cons, Nat.add_assoc]

theorem repair_orphans (messages : List (AgentMessage α)) :
    (repairToolUseResultPairing options body messages).droppedOrphanCount = orphans messages := by
  show (repairLoop options body 0 messages {}).droppedOrphanCount = _
  rw [repairLoop_eq, fold_orphans, lead_orphans, orphans]
  show 0 + _ + _ = _
  rw [Nat.zero_add]

end Orphans

/-! ## Results in place -/

def spanIds (turn : Turn α) : List JsString := turn.2.filterMap resultId

def calledIds (turn : Turn α) : List JsString :=
  (spanIds turn).filter fun id => (callIds turn.1).contains id

structure Paired (messages : List (AgentMessage α)) : Prop where
  followed : TurnsFollowed messages
  once : (messages.filterMap resultId).Nodup

section Paired

variable {body : JsString → α} {seen : List JsString} {turn : Turn α}

theorem mem_spanIds {id : JsString} : id ∈ spanIds turn ↔ hasResult turn.2 id = true := by
  rw [spanIds, List.mem_filterMap, hasResult_iff]
  constructor
  · rintro ⟨msg, hmem, hmsg⟩
    cases msg with
    | toolResult r => exact ⟨r, hmem, hmsg⟩
    | notObject value => exact absurd hmsg (by simp [resultId])
    | assistant message => exact absurd hmsg (by simp [resultId])
    | other value => exact absurd hmsg (by simp [resultId])
  · rintro ⟨r, hmem, hid⟩
    exact ⟨.toolResult r, hmem, hid⟩

theorem mem_calledIds {id : JsString} : id ∈ calledIds turn ↔ id ∈ spanIds turn ∧ id ∈ callIds turn.1 := by
  show id ∈ (spanIds turn).filter _ ↔ _
  rw [List.mem_filter, List.contains_iff_mem]

theorem countP_results (span : List (AgentMessage α)) (ids : List JsString) :
    span.countP isToolResult =
      span.countP (isOrphan ids) + ((span.filterMap resultId).filter fun id => ids.contains id).length := by
  induction span with
  | nil => rfl
  | cons msg span ih =>
      rw [List.countP_cons, List.countP_cons, ih, List.filterMap_cons]
      cases msg with
      | toolResult r =>
          rw [isOrphan, isToolResult, Bool.true_and, resultId]
          cases extractToolResultId r with
          | none =>
              simp only [if_true, Option.any_none, Bool.not_false]
              omega
          | some id =>
              simp only [if_true, Option.any_some]
              rw [List.filter_cons]
              by_cases hid : ids.contains id = true
              · simp only [hid, Bool.not_true, Bool.false_eq_true, if_false, if_true, List.length_cons]
                omega
              · simp only [hid, Bool.not_false, if_true, Bool.false_eq_true, if_false]
                omega
      | notObject value => simp [isOrphan, isToolResult, resultId]
      | assistant message => simp [isOrphan, isToolResult, resultId]
      | other value => simp [isOrphan, isToolResult, resultId]

theorem blockIds_perm (hfresh : ∀ id ∈ seen, id ∉ spanIds turn) (honce : (spanIds turn).Nodup)
    (hanswered : isErrored turn.1 = false → ∀ id ∈ callIds turn.1, id ∈ spanIds turn) :
    ((blockOf {} body seen turn).filterMap extractToolResultId).Perm (calledIds turn) := by
  have hids : ∀ call ∈ extractToolCallsFromAssistant turn.1, ∀ r,
      answerFor {} body turn call = some r → extractToolResultId r = some call.id :=
    fun call hcall r hanswer => extract_answerFor (id_ne_nil hcall) hanswer
  have hcount : ∀ id, ((blockOf {} body seen turn).filterMap extractToolResultId).count id =
      if id ∉ seen ∧ ∃ call ∈ extractToolCallsFromAssistant turn.1,
        call.id = id ∧ (answerFor {} body turn call).isSome then 1 else 0 := by
    intro id
    rw [List.count_filterMap, ← count_block hids id]
    apply List.countP_congr
    intro r _
    simp
  have hnodup : ((blockOf {} body seen turn).filterMap extractToolResultId).Nodup := by
    rw [List.nodup_iff_count_le_one]
    intro id
    rw [hcount]
    split
    · exact Nat.le_refl 1
    · exact Nat.zero_le 1
  apply (List.perm_ext_iff_of_nodup hnodup (honce.filter _)).mpr
  intro id
  rw [← List.count_pos_iff, hcount]
  apply Iff.trans _ mem_calledIds.symm
  constructor
  · intro hpos
    split at hpos
    · rename_i hmem
      obtain ⟨-, call, hcall, heq, hsome⟩ := hmem
      have hid : id ∈ callIds turn.1 := List.mem_map.mpr ⟨call, hcall, heq⟩
      refine ⟨?_, hid⟩
      cases herrored : isErrored turn.1 with
      | false => exact hanswered herrored id hid
      | true =>
          rw [answerFor] at hsome
          cases hfirst : firstResult call.id turn.2 with
          | none =>
              rw [hfirst, herrored] at hsome
              exact absurd hsome (by simp)
          | some r =>
              rw [mem_spanIds, hasResult, ← heq, hfirst]
              rfl
    · exact absurd hpos (by omega)
  · rintro ⟨hspan, hid⟩
    obtain ⟨call, hcall, heq⟩ := List.mem_map.mp hid
    rw [if_pos]
    · exact Nat.one_pos
    · refine ⟨fun hin => hfresh id hin hspan, call, hcall, heq, ?_⟩
      rw [mem_spanIds, hasResult, ← heq] at hspan
      obtain ⟨r, hfirst⟩ := Option.isSome_iff_exists.mp hspan
      rw [answerFor, hfirst]
      rfl

theorem length_blockOf :
    ((blockOf {} body seen turn).filterMap extractToolResultId).length = (blockOf {} body seen turn).length := by
  rw [List.filterMap_length_eq_length]
  intro r hr
  obtain ⟨call, -, -, -, hid⟩ := extract_blockOf {} body seen turn hr
  rw [hid]
  rfl

end Paired

section Turns

variable {body : JsString → α} {seen : List JsString} {turn : Turn α} {list : List (Turn α)}

structure PairedTurns (seen : List JsString) (list : List (Turn α)) : Prop where
  fresh : ∀ id ∈ seen, ∀ turn ∈ list, id ∉ spanIds turn
  once : (list.flatMap spanIds).Nodup
  answered : ∀ turn ∈ list, isErrored turn.1 = false → ∀ id ∈ callIds turn.1, id ∈ spanIds turn

theorem mem_answeredIds {id : JsString} (hanswered : isErrored turn.1 = false →
    ∀ id ∈ callIds turn.1, id ∈ spanIds turn) (h : id ∈ answeredIds {} turn) : id ∈ spanIds turn := by
  rw [answeredIds] at h
  cases herrored : isErrored turn.1 with
  | false =>
      rw [herrored, if_neg Bool.false_ne_true] at h
      exact hanswered herrored id h
  | true =>
      rw [herrored, if_pos rfl, if_neg Bool.false_ne_true] at h
      exact mem_spanIds.mpr (List.mem_filter.mp h).2

theorem PairedTurns.head (h : PairedTurns seen (turn :: list)) :
    ((blockOf {} body seen turn).filterMap extractToolResultId).Perm (calledIds turn) := by
  apply blockIds_perm
  · exact fun id hid => h.fresh id hid turn List.mem_cons_self
  · have honce := h.once
    rw [List.flatMap_cons] at honce
    exact (List.nodup_append.mp honce).1
  · exact h.answered turn List.mem_cons_self

theorem PairedTurns.tail (h : PairedTurns seen (turn :: list)) :
    PairedTurns (seen ++ answeredIds {} turn) list := by
  have honce := h.once
  rw [List.flatMap_cons, List.nodup_append] at honce
  constructor
  · intro id hid other hother
    rcases List.mem_append.mp hid with hseen | hnow
    · exact h.fresh id hseen other (List.mem_cons_of_mem turn hother)
    · intro hin
      have hspan := mem_answeredIds (h.answered turn List.mem_cons_self) hnow
      exact honce.2.2 id hspan id (List.mem_flatMap.mpr ⟨other, hother, hin⟩) rfl
  · exact honce.2.1
  · exact fun other hother => h.answered other (List.mem_cons_of_mem turn hother)

theorem not_isDropped (turn : Turn α) : ¬isDropped {} turn = true := by
  simp [isDropped]

theorem resultIds_plain {list : List (AgentMessage α)} (h : ∀ msg ∈ list, isToolResult msg = false) :
    list.filterMap resultId = [] := by
  rw [List.filterMap_eq_nil_iff]
  intro msg hmsg
  cases msg with
  | toolResult r => exact absurd (h _ hmsg) (by simp [isToolResult])
  | notObject value => rfl
  | assistant message => rfl
  | other value => rfl

theorem restOf_results (turn : Turn α) : ∀ msg ∈ restOf turn, isToolResult msg = false :=
  fun msg hmsg => by simpa using (List.mem_filter.mp hmsg).2

theorem PairedTurns.ids_perm (h : PairedTurns seen list) :
    ((outOf {} body seen list).filterMap resultId).Perm (list.flatMap calledIds) := by
  induction list generalizing seen with
  | nil => exact List.Perm.refl _
  | cons turn list ih =>
      rw [outOf, if_neg (not_isDropped turn), List.flatMap_cons,
        List.filterMap_append, List.filterMap_append, List.filterMap_cons]
      have hblock : ((blockOf {} body seen turn).map AgentMessage.toolResult).filterMap resultId =
          (blockOf {} body seen turn).filterMap extractToolResultId := List.filterMap_map
      have hself : resultId (.assistant turn.1 : AgentMessage α) = none := rfl
      rw [hself, hblock, resultIds_plain (restOf_results turn), List.append_nil]
      exact h.head.append (ih h.tail)

theorem PairedTurns.length_out (h : PairedTurns seen list) :
    (outOf {} body seen list).length +
        (list.map fun turn => turn.2.countP (isOrphan (callIds turn.1))).sum =
      (list.flatMap Turn.messages).length := by
  induction list generalizing seen with
  | nil => rfl
  | cons turn list ih =>
      have hblock := (@PairedTurns.head α body seen turn list h).length_eq
      rw [length_blockOf] at hblock
      have hresults : turn.2.countP isToolResult =
          turn.2.countP (isOrphan (callIds turn.1)) + (calledIds turn).length :=
        countP_results turn.2 (callIds turn.1)
      have hspan : turn.2.length = _ + _ := List.length_eq_countP_add_countP isToolResult
      have hrest : (restOf turn).length = turn.2.countP fun m => !isToolResult m :=
        List.countP_eq_length_filter.symm
      have hlater := ih h.tail
      rw [outOf, if_neg (not_isDropped turn), List.map_cons, List.sum_cons,
        List.flatMap_cons, Turn.messages, List.length_append, List.length_append, List.length_append,
        List.length_cons, List.length_map, List.length_cons]
      simp only [Bool.not_eq_true, Bool.decide_eq_false] at hspan
      omega

theorem PairedTurns.followed (h : PairedTurns seen list) :
    ∀ turn ∈ (outTurns {} body seen list).2, isErrored turn.1 = false →
      FollowedByResults turn.1 turn.2 := by
  induction list generalizing seen with
  | nil => exact fun turn hturn => absurd hturn List.not_mem_nil
  | cons turn list ih =>
      rw [outTurns]
      simp only [if_neg (not_isDropped turn)]
      rw [List.forall_mem_cons]
      refine ⟨?_, ih h.tail⟩
      intro herrored
      have hafter : resultsAfter ((blockOf {} body seen turn).map AgentMessage.toolResult ++
          (restOf turn ++ (outTurns {} body (seen ++ answeredIds {} turn) list).1)) =
          (blockOf {} body seen turn).map AgentMessage.toolResult :=
        (takeWhile_block (tail_plain turn _ list)).1
      have hids : (resultsAfter ((blockOf {} body seen turn).map AgentMessage.toolResult ++
          (restOf turn ++ (outTurns {} body (seen ++ answeredIds {} turn) list).1))).filterMap resultId =
          (blockOf {} body seen turn).filterMap extractToolResultId := by
        rw [hafter]
        exact List.filterMap_map
      have honce := h.once
      rw [List.flatMap_cons] at honce
      constructor
      · rw [hafter]
        intro msg hmsg
        obtain ⟨r, hr, rfl⟩ := List.mem_map.mp hmsg
        obtain ⟨call, hcall, -, -, hid⟩ := extract_blockOf {} body seen turn hr
        exact ⟨call.id, List.mem_map_of_mem hcall, hid⟩
      · rw [hids]
        exact h.head.nodup_iff.mpr ((List.nodup_append.mp honce).1.filter _)
      · intro id hid
        have hcalled : id ∈ calledIds turn :=
          mem_calledIds.mpr ⟨h.answered turn List.mem_cons_self herrored id hid, hid⟩
        rw [← (@PairedTurns.head α body seen turn list h).mem_iff, ← hids] at hcalled
        exact List.mem_filterMap.mp hcalled

theorem normalizeToolResultName_eq (r : ToolResultMessage α) (name : Option JsString) :
    normalizeToolResultName r name = { r with toolName := (normalizeToolResultName r name).toolName } := by
  rw [normalizeToolResultName]
  split
  · split <;> rfl
  · split
    · rfl
    · split <;> rfl

theorem answerFor_real {call : ToolCallLike} {r : ToolResultMessage α}
    (hanswered : isErrored turn.1 = false → ∀ id ∈ callIds turn.1, id ∈ spanIds turn)
    (hcall : call ∈ extractToolCallsFromAssistant turn.1) (h : answerFor {} body turn call = some r) :
    ∃ found, .toolResult found ∈ turn.2 ∧ r = { found with toolName := r.toolName } := by
  rw [answerFor] at h
  cases hfirst : firstResult call.id turn.2 with
  | some found =>
      rw [hfirst] at h
      obtain ⟨msg, hmem, hmsg⟩ := List.exists_of_findSome?_eq_some hfirst
      cases msg with
      | toolResult here =>
          rw [resultFor] at hmsg
          split at hmsg
          · rw [Option.some.inj hmsg] at hmem
            refine ⟨found, hmem, ?_⟩
            rw [← Option.some.inj h]
            exact normalizeToolResultName_eq found _
          · cases hmsg
      | notObject value => cases hmsg
      | assistant message => cases hmsg
      | other value => cases hmsg
  | none =>
      rw [hfirst] at h
      cases herrored : isErrored turn.1 with
      | true =>
          rw [herrored] at h
          exact absurd h (by simp)
      | false =>
          have hspan := hanswered herrored call.id (List.mem_map_of_mem hcall)
          rw [mem_spanIds, hasResult, hfirst] at hspan
          exact absurd hspan Bool.false_ne_true

theorem PairedTurns.real (h : PairedTurns seen list) {r : ToolResultMessage α}
    (hr : .toolResult r ∈ outOf {} body seen list) :
    ∃ found, .toolResult found ∈ list.flatMap Turn.messages ∧ r = { found with toolName := r.toolName } := by
  induction list generalizing seen with
  | nil => exact absurd hr List.not_mem_nil
  | cons turn list ih =>
      rw [outOf, if_neg (not_isDropped turn)] at hr
      rw [List.flatMap_cons]
      rcases List.mem_append.mp hr with hhead | hlater
      · rcases List.mem_append.mp hhead with hblock | hrest
        · rcases List.mem_cons.mp hblock with hself | hblock
          · exact absurd hself (by simp)
          · obtain ⟨found, hfound, heq⟩ := List.mem_map.mp hblock
            obtain ⟨call, hcall, -, hanswer, -⟩ := extract_blockOf {} body seen turn hfound
            rw [AgentMessage.toolResult.inj heq] at hanswer
            obtain ⟨original, hmem, hsame⟩ := answerFor_real (h.answered turn List.mem_cons_self) hcall hanswer
            exact ⟨original, List.mem_append_left _ (List.mem_cons_of_mem _ hmem), hsame⟩
        · exact absurd (restOf_results turn _ hrest) (by simp [isToolResult])
      · obtain ⟨found, hmem, hsame⟩ := ih h.tail hlater
        exact ⟨found, List.mem_append_right _ hmem, hsame⟩

end Turns

/-! ## The repair of a transcript with its results in place -/

section Repair

variable {body : JsString → α} {messages : List (AgentMessage α)}

theorem resultIds_turns (messages : List (AgentMessage α)) :
    messages.filterMap resultId =
      (turns messages).1.filterMap resultId ++ (turns messages).2.flatMap spanIds := by
  have hturn : ∀ turn : Turn α, turn.messages.filterMap resultId = spanIds turn := fun turn => rfl
  conv_lhs => rw [← turns_join messages]
  rw [List.filterMap_append, List.filterMap_flatMap]
  simp only [hturn]

theorem Paired.turns (h : Paired messages) : PairedTurns [] (turns messages).2 := by
  constructor
  · exact fun id hid => absurd hid List.not_mem_nil
  · have honce := h.once
    rw [resultIds_turns] at honce
    exact (List.nodup_append.mp honce).2.1
  · intro turn hturn herrored id hid
    obtain ⟨msg, hmsg, heq⟩ := (h.followed turn hturn herrored).answered id hid
    exact List.mem_filterMap.mpr ⟨msg, List.takeWhile_subset _ hmsg, heq⟩

theorem Paired.sublist {earlier later : List (AgentMessage α)} (h : Paired (earlier ++ later)) :
    Paired later := by
  refine ⟨h.followed.suffix, ?_⟩
  have honce := h.once
  rw [List.filterMap_append] at honce
  exact (List.nodup_append.mp honce).2.1

theorem calledIds_sublist (list : List (Turn α)) :
    (list.flatMap calledIds).Sublist (list.flatMap spanIds) := by
  induction list with
  | nil => exact List.Sublist.refl _
  | cons turn list ih =>
      rw [List.flatMap_cons, List.flatMap_cons]
      exact List.filter_sublist.append ih

theorem Tidy.orphans (h : Tidy {} messages) : orphans messages = 0 := by
  have hfront : (Agents.turns messages).1.countP isToolResult = 0 :=
    List.countP_eq_zero.mpr fun msg hmsg => h.1 msg hmsg ▸ Bool.false_ne_true
  have hspans : ∀ turn ∈ (Agents.turns messages).2, turn.2.countP (isOrphan (callIds turn.1)) = 0 := by
    intro turn hturn
    obtain ⟨seen, hquiet⟩ := h.2.forall turn hturn
    rw [List.countP_eq_zero]
    intro msg hmsg horphan
    cases msg with
    | toolResult r =>
        obtain ⟨⟨id, hid, hresult⟩, -⟩ := hquiet.real hmsg
        rw [isOrphan, resultId, hresult, Option.any_some, List.contains_iff_mem.mpr hid] at horphan
        exact absurd horphan (by simp)
    | notObject value => exact absurd horphan (by simp [isOrphan, isToolResult])
    | assistant message => exact absurd horphan (by simp [isOrphan, isToolResult])
    | other value => exact absurd horphan (by simp [isOrphan, isToolResult])
  rw [Agents.orphans, hfront, Nat.zero_add]
  apply List.sum_eq_zero_iff_forall_eq_nat.mpr
  intro count hcount
  obtain ⟨turn, hturn, rfl⟩ := List.mem_map.mp hcount
  exact hspans turn hturn

theorem Paired.length_repair (h : Paired messages) :
    (repairToolUseResultPairing {} body messages).messages.length +
      (repairToolUseResultPairing {} body messages).droppedOrphanCount = messages.length := by
  rw [repair_orphans]
  rcases repair_eq {} body messages with ⟨htidy, hsame⟩ | ⟨-, hout⟩
  · rw [hsame, htidy.orphans, Nat.add_zero]
  · have hturns := @PairedTurns.length_out α body [] (Agents.turns messages).2 h.turns
    have hfront : (Agents.turns messages).1.length = _ + _ :=
      List.length_eq_countP_add_countP isToolResult
    have hrest : ((Agents.turns messages).1.filter fun m => !isToolResult m).length =
        (Agents.turns messages).1.countP fun m => !isToolResult m := List.countP_eq_length_filter.symm
    have hjoin := congrArg List.length (turns_join messages)
    rw [List.length_append] at hjoin
    rw [hout, repairedOut, List.length_append, orphans]
    simp only [Bool.not_eq_true, Bool.decide_eq_false] at hfront
    omega

theorem Paired.repair (h : Paired messages) :
    Paired (repairToolUseResultPairing {} body messages).messages := by
  rcases repair_eq {} body messages with ⟨-, hsame⟩ | ⟨-, hout⟩
  · rw [hsame]
    exact h
  · rw [hout]
    constructor
    · intro turn hturn
      rw [turns_repairedOut] at hturn
      exact h.turns.followed turn hturn
    · have hfront : ((Agents.turns messages).1.filter fun m => !isToolResult m).filterMap resultId = [] := by
        apply resultIds_plain
        exact fun msg hmsg => by simpa using (List.mem_filter.mp hmsg).2
      rw [repairedOut, List.filterMap_append, hfront, List.nil_append, h.turns.ids_perm.nodup_iff]
      exact h.turns.once.sublist (calledIds_sublist _)

theorem Paired.real (h : Paired messages) {r : ToolResultMessage α}
    (hr : .toolResult r ∈ (repairToolUseResultPairing {} body messages).messages) :
    ∃ found, .toolResult found ∈ messages ∧ r = { found with toolName := r.toolName } := by
  rcases repair_eq {} body messages with ⟨-, hsame⟩ | ⟨-, hout⟩
  · rw [hsame] at hr
    exact ⟨r, hr, rfl⟩
  · rw [hout, repairedOut] at hr
    rcases List.mem_append.mp hr with hfront | hturns
    · exact absurd (List.mem_filter.mp hfront).2 (by simp [isToolResult])
    · obtain ⟨found, hmem, heq⟩ := h.turns.real hturns
      refine ⟨found, ?_, heq⟩
      rw [← turns_join messages]
      exact List.mem_append_right _ hmem

end Repair

/-! ## The repair of any transcript -/

structure AnsweredHistory (messages : List (AgentMessage α)) : Prop where
  placed : (∀ msg ∈ (turns messages).1, isToolResult msg = false) ∧
    ∀ turn ∈ (turns messages).2, ∀ r, .toolResult r ∈ turn.2 →
      ∃ id ∈ callIds turn.1, extractToolResultId r = some id
  answered : ∀ before turn after, (turns messages).2 = before ++ turn :: after →
    isErrored turn.1 = false → ∀ id ∈ callIds turn.1, id ∈ (before ++ [turn]).flatMap spanIds

section Answered

variable {body : JsString → α} {seen : List JsString} {list : List (Turn α)}

theorem mem_spanIds_block {turn : Turn α} {tail : List (AgentMessage α)} {id : JsString}
    (h : id ∈ answeredIds {} turn) (hnew : id ∉ seen) :
    id ∈ spanIds (turn.1, (blockOf {} body seen turn).map AgentMessage.toolResult ++ tail) := by
  have hcall : ∃ call ∈ extractToolCallsFromAssistant turn.1,
      call.id = id ∧ (answerFor {} body turn call).isSome := by
    rw [answeredIds] at h
    cases herrored : isErrored turn.1 with
    | false =>
        rw [herrored, if_neg Bool.false_ne_true] at h
        obtain ⟨call, hcall, heq⟩ := List.mem_map.mp h
        exact ⟨call, hcall, heq, answerFor_isSome {} body turn herrored call⟩
    | true =>
        rw [herrored, if_pos rfl, if_neg Bool.false_ne_true] at h
        obtain ⟨hid, hresult⟩ := List.mem_filter.mp h
        obtain ⟨call, hcall, rfl⟩ := List.mem_map.mp hid
        refine ⟨call, hcall, rfl, ?_⟩
        obtain ⟨r, hfirst⟩ := Option.isSome_iff_exists.mp hresult
        rw [answerFor, hfirst]
        rfl
  have hcount : (blockOf {} body seen turn).countP (fun r => decide (extractToolResultId r = some id)) = 1 := by
    rw [blockOf, count_block fun call hcall r hanswer => extract_answerFor (id_ne_nil hcall) hanswer]
    exact if_pos ⟨hnew, hcall⟩
  have hpos : 0 < (blockOf {} body seen turn).countP (fun r => decide (extractToolResultId r = some id)) := by
    rw [hcount]
    exact Nat.one_pos
  obtain ⟨r, hr, hid⟩ := List.countP_pos_iff.mp hpos
  apply List.mem_filterMap.mpr
  refine ⟨.toolResult r, List.mem_append_left _ (List.mem_map_of_mem hr), of_decide_eq_true hid⟩

theorem answered_outTurns {earlier : List (Turn α)} (hseen : ∀ id ∈ seen, id ∈ earlier.flatMap spanIds) :
    ∀ before turn after, (outTurns {} body seen list).2 = before ++ turn :: after →
      isErrored turn.1 = false → ∀ id ∈ callIds turn.1, id ∈ (earlier ++ before ++ [turn]).flatMap spanIds := by
  induction list generalizing seen earlier with
  | nil => exact fun before turn after h => absurd h (by simp [outTurns])
  | cons put list ih =>
      intro before turn after hsplit herrored id hid
      rw [outTurns] at hsplit
      simp only [if_neg (not_isDropped put)] at hsplit
      cases before with
      | nil =>
          rw [List.nil_append, List.cons.injEq] at hsplit
          rw [← hsplit.1] at herrored hid ⊢
          rw [List.append_nil, List.flatMap_append, List.mem_append]
          by_cases hin : id ∈ seen
          · exact Or.inl (hseen id hin)
          · right
            rw [List.flatMap_singleton]
            apply mem_spanIds_block _ hin
            rw [answeredIds, if_neg (by rw [herrored]; exact Bool.false_ne_true)]
            exact hid
      | cons first before =>
          rw [List.cons_append, List.cons.injEq] at hsplit
          have hlater := @ih (seen ++ answeredIds {} put) (earlier ++ [first]) ?_ before turn after hsplit.2
            herrored id hid
          · rw [List.append_assoc earlier, List.singleton_append] at hlater
            exact hlater
          · intro other hother
            rw [List.flatMap_append, List.mem_append, List.flatMap_singleton]
            by_cases hin : other ∈ seen
            · exact Or.inl (hseen other hin)
            · right
              rw [← hsplit.1]
              apply mem_spanIds_block _ hin
              exact (List.mem_append.mp hother).resolve_left hin

variable {messages : List (AgentMessage α)}

theorem answered_repair : AnsweredHistory (repairToolUseResultPairing {} body messages).messages := by
  rcases repair_eq {} body messages with ⟨htidy, hsame⟩ | ⟨-, hout⟩
  · rw [hsame]
    refine ⟨⟨htidy.1, fun turn hturn r hr => ?_⟩, fun before turn after hsplit herrored id hid => ?_⟩
    · obtain ⟨seen, hquiet⟩ := htidy.2.forall turn hturn
      exact (hquiet.real hr).1
    · have hturn : turn ∈ (turns messages).2 := by
        rw [hsplit]
        exact List.mem_append_right _ List.mem_cons_self
      obtain ⟨seen, hquiet⟩ := htidy.2.forall turn hturn
      rw [List.flatMap_append, List.flatMap_singleton]
      exact List.mem_append_right _ (mem_spanIds.mpr (hquiet.answered herrored id hid).2)
  · rw [hout]
    constructor
    · rw [turns_repairedOut]
      constructor
      · intro msg hmsg
        rcases List.mem_append.mp hmsg with hfront | hlater
        · simpa using (List.mem_filter.mp hfront).2
        · exact outTurns_fst {} body [] _ msg hlater
      · exact fun turn hturn => (placed_outTurns turn hturn).2
    · rw [turns_repairedOut]
      have hall := @answered_outTurns α body [] (turns messages).2 [] fun id hid => absurd hid List.not_mem_nil
      exact hall

theorem kept_repair : (repairToolUseResultPairing {} body messages).messages.filter
    (fun msg => !isToolResult msg) = messages.filter fun msg => !isToolResult msg := by
  rcases repair_eq {} body messages with ⟨-, hsame⟩ | ⟨-, hout⟩
  · rw [hsame]
  · rw [hout, kept_repairedOut]
    apply List.filter_congr
    intro msg _
    have hstays : isTakenOut {} msg = false := by
      cases msg with
      | assistant assistant => exact Bool.and_false _
      | notObject value => rfl
      | toolResult r => rfl
      | other value => rfl
    rw [hstays, Bool.not_false, Bool.and_true]

end Answered

end GreenchClaw.Agents
