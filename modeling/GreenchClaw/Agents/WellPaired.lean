import GreenchClaw.Agents.RepairedPairing

/-!
# Well-paired transcripts

When the repair of a transcript leaves every call answered once, directly after its turn.
-/

namespace GreenchClaw.Agents

open GreenchClaw.Js

variable {α : Type}

/-! ## The whole output -/

def restOf (turn : Turn α) : List (AgentMessage α) := turn.2.filter fun m => !isToolResult m

def outOf (options : ToolUseResultPairingOptions) (body : JsString → α) :
    List JsString → List (Turn α) → List (AgentMessage α)
  | _, [] => []
  | seen, turn :: rest =>
      (if isDropped options turn = true then []
        else .assistant turn.1 ::
          (blockOf options body seen turn).map AgentMessage.toolResult) ++ restOf turn ++
        outOf options body (seen ++ answeredIds options turn) rest

def AllQuiet (options : ToolUseResultPairingOptions) : List JsString → List (Turn α) → Prop
  | _, [] => True
  | seen, turn :: rest =>
      Quiet options seen turn ∧ AllQuiet options (seen ++ answeredIds options turn) rest

def Tidy (options : ToolUseResultPairingOptions) (messages : List (AgentMessage α)) : Prop :=
  (∀ msg ∈ (turns messages).1, isToolResult msg = false) ∧
    AllQuiet options [] (turns messages).2

section Seen

variable {seen seen' : List JsString} (h : ∀ id, id ∈ seen ↔ id ∈ seen')

theorem block_seen (answer : ToolCallLike → Option (ToolResultMessage α))
    (h : ∀ id, id ∈ seen ↔ id ∈ seen') (calls : List ToolCallLike) :
    block answer seen calls = block answer seen' calls := by
  induction calls generalizing seen seen' with
  | nil => rfl
  | cons call calls ih =>
      rw [block, block]
      by_cases hseen : call.id ∈ seen
      · rw [if_pos hseen, if_pos ((h _).mp hseen), ih h]
      · rw [if_neg hseen, if_neg fun hin => hseen ((h _).mpr hin)]
        cases answer call with
        | none => exact ih h
        | some r =>
            refine congrArg (r :: ·) (ih ?_)
            intro id
            rw [List.mem_append, List.mem_append, h id]

theorem isNoisy_seen (h : ∀ id, id ∈ seen ↔ id ∈ seen') (ids : List JsString)
    (names : Record JsString) (msg : AgentMessage α) :
    isNoisy seen ids names msg = isNoisy seen' ids names msg := by
  cases msg with
  | toolResult r =>
      rw [isNoisy, isNoisy]
      cases (extractToolResultId r).filter ids.contains with
      | none => rfl
      | some id => simp only [h id]
  | notObject value => rfl
  | assistant message => rfl
  | other value => rfl

theorem Quiet.of_seen {options : ToolUseResultPairingOptions} {turn : Turn α}
    (hquiet : Quiet options seen turn) (h : ∀ id, id ∈ seen ↔ id ∈ seen') :
    Quiet options seen' turn where
  results msg hmsg := isNoisy_seen h _ _ msg ▸ hquiet.results msg hmsg
  kept := hquiet.kept
  once := hquiet.once
  answered herrored id hid := by
    obtain ⟨hnew, hresult⟩ := hquiet.answered herrored id hid
    exact ⟨fun hin => hnew ((h id).mpr hin), hresult⟩
  together := hquiet.together

end Seen

theorem fold_repairTurn (options : ToolUseResultPairingOptions) (body : JsString → α)
    (seen : List JsString) {list : List (Turn α)} (hcalls : ∀ turn ∈ list, callIds turn.1 ≠ [])
    (s : ToolUseRepair α) (hseen : ∀ id, id ∈ s.seenToolResultIds ↔ id ∈ seen)
    (hmoved : s.moved = true → s.changed = true) :
    (list.foldl (fun s turn => s.repairTurn options body turn.1 turn.2) s).out =
      s.out ++ outOf options body seen list ∧
    ((list.foldl (fun s turn => s.repairTurn options body turn.1 turn.2) s).moved = true →
      (list.foldl (fun s turn => s.repairTurn options body turn.1 turn.2) s).changed = true) ∧
    ((list.foldl (fun s turn => s.repairTurn options body turn.1 turn.2) s).changed = false ↔
      s.changed = false ∧ AllQuiet options seen list) := by
  induction list generalizing seen s with
  | nil => exact ⟨(List.append_nil _).symm, hmoved, (and_iff_left trivial).symm⟩
  | cons turn list ih =>
      have hturn := turnRepaired options body s (hcalls turn List.mem_cons_self)
      have hnext : ∀ id, id ∈ (s.repairTurn options body turn.1 turn.2).seenToolResultIds ↔
          id ∈ seen ++ answeredIds options turn := by
        intro id
        rw [hturn.seen id, hseen id, List.mem_append]
      obtain ⟨hout, hafter, hchanged⟩ := ih _
        (fun t ht => hcalls t (List.mem_cons_of_mem turn ht)) _ hnext (hturn.moved hmoved)
      rw [List.foldl_cons]
      refine ⟨?_, hafter, ?_⟩
      · rw [hout, hturn.out, outOf, blockOf, blockOf, block_seen _ hseen]
        simp only [List.append_assoc]
        rfl
      · rw [hchanged, hturn.changed, AllQuiet, and_assoc]
        refine and_congr_right fun _ => and_congr_left fun _ => ?_
        constructor
        · exact fun hquiet => hquiet.of_seen hseen
        · exact fun hquiet => hquiet.of_seen fun id => (hseen id).symm

theorem lead_eq (s : ToolUseRepair α) (front : List (AgentMessage α)) :
    (s.lead front).out = s.out ++ front.filter (fun m => !isToolResult m) ∧
      (s.lead front).seenToolResultIds = s.seenToolResultIds ∧
      (s.lead front).moved = s.moved ∧
      ((s.lead front).changed = false ↔
        s.changed = false ∧ ∀ msg ∈ front, isToolResult msg = false) := by
  induction front generalizing s with
  | nil => exact ⟨(List.append_nil _).symm, rfl, rfl, by simp [ToolUseRepair.lead]⟩
  | cons msg front ih =>
      have hpush (hplain : isToolResult msg = false)
          (hlead : s.lead (msg :: front) = (s.push msg).lead front) :
          (s.lead (msg :: front)).out =
              s.out ++ (msg :: front).filter (fun m => !isToolResult m) ∧
            (s.lead (msg :: front)).seenToolResultIds = s.seenToolResultIds ∧
            (s.lead (msg :: front)).moved = s.moved ∧
            ((s.lead (msg :: front)).changed = false ↔
              s.changed = false ∧ ∀ m ∈ msg :: front, isToolResult m = false) := by
        obtain ⟨hout, hseen, hmoved, hchanged⟩ := ih (s.push msg)
        rw [hlead]
        refine ⟨?_, hseen, hmoved, ?_⟩
        · rw [hout, List.filter_cons_of_pos (by simp [hplain]), ToolUseRepair.push,
            List.append_assoc]
          rfl
        · rw [hchanged, List.forall_mem_cons, and_iff_right hplain]
          rfl
      cases msg with
      | toolResult r =>
          obtain ⟨hout, hseen, hmoved, hchanged⟩ := ih
            { s with droppedOrphanCount := s.droppedOrphanCount + 1, changed := true }
          refine ⟨hout, hseen, hmoved, ?_⟩
          rw [ToolUseRepair.lead, hchanged]
          apply iff_of_false
          · exact fun h => Bool.noConfusion h.1
          · exact fun h => Bool.noConfusion (h.2 _ List.mem_cons_self)
      | notObject value => exact hpush rfl rfl
      | assistant message => exact hpush rfl rfl
      | other value => exact hpush rfl rfl

theorem turns_callIds (messages : List (AgentMessage α)) :
    ∀ turn ∈ (turns messages).2, callIds turn.1 ≠ [] := by
  induction messages using turnInduction with
  | nil => exact fun turn h => absurd h List.not_mem_nil
  | turn assistant rest hcalls ih =>
      rw [turns_cons_turn hcalls]
      intro turn hturn
      rcases List.mem_cons.mp hturn with rfl | hrest
      · rw [assistantHasToolCalls, Bool.not_eq_true', List.isEmpty_eq_false_iff] at hcalls
        exact fun hnil => hcalls (List.map_eq_nil_iff.mp hnil)
      · exact ih turn hrest
  | plain msg rest hplain ih =>
      rw [turns_cons_plain hplain]
      exact ih

def repairedOut (options : ToolUseResultPairingOptions) (body : JsString → α)
    (messages : List (AgentMessage α)) : List (AgentMessage α) :=
  (turns messages).1.filter (fun m => !isToolResult m) ++
    outOf options body [] (turns messages).2

theorem repair_eq (options : ToolUseResultPairingOptions) (body : JsString → α)
    (messages : List (AgentMessage α)) :
    (Tidy options messages ∧
      (repairToolUseResultPairing options body messages).messages = messages) ∨
    (¬Tidy options messages ∧ (repairToolUseResultPairing options body messages).messages =
      repairedOut options body messages) := by
  obtain ⟨hout, hseen, hmoved, hchanged⟩ := lead_eq ({} : ToolUseRepair α) (turns messages).1
  obtain ⟨hfold, hafter, hquiet⟩ := fold_repairTurn options body []
    (turns_callIds messages) (ToolUseRepair.lead {} (turns messages).1)
    (fun id => by rw [hseen]) (fun h => absurd (h.symm.trans hmoved) nofun)
  have htidy : (repairLoop options body 0 messages {}).changed = false ↔
      Tidy options messages := by
    rw [repairLoop_eq, hquiet, hchanged, Tidy]
    exact ⟨fun h => ⟨h.1.2, h.2⟩, fun h => ⟨⟨rfl, h.1⟩, h.2⟩⟩
  rw [repairToolUseResultPairing]
  dsimp only
  by_cases hclean : (repairLoop options body 0 messages {}).changed = false
  · left
    have hstill : (repairLoop options body 0 messages {}).moved = false := by
      by_contra hnot
      have hmv := eq_true_of_ne_false hnot
      rw [repairLoop_eq] at hmv hclean
      exact absurd ((hafter hmv).symm.trans hclean) nofun
    rw [hclean, hstill]
    exact ⟨htidy.mp hclean, rfl⟩
  · right
    refine ⟨fun h => hclean (htidy.mpr h), ?_⟩
    rw [if_pos (by rw [eq_true_of_ne_false hclean]; rfl), repairLoop_eq, hfold, hout]
    rfl

/-! ## The turns of the output -/

def outTurns (options : ToolUseResultPairingOptions) (body : JsString → α) :
    List JsString → List (Turn α) → List (AgentMessage α) × List (Turn α)
  | _, [] => ([], [])
  | seen, turn :: rest =>
      let later := outTurns options body (seen ++ answeredIds options turn) rest
      if isDropped options turn = true then (restOf turn ++ later.1, later.2)
      else
        ([], (turn.1, (blockOf options body seen turn).map AgentMessage.toolResult ++
          (restOf turn ++ later.1)) :: later.2)

def AreTurns (list : List (Turn α)) : Prop :=
  ∀ turn ∈ list, callIds turn.1 ≠ [] ∧ ∀ msg ∈ turn.2, assistantHasToolCalls msg = false

theorem areTurns_turns (messages : List (AgentMessage α)) : AreTurns (turns messages).2 := by
  induction messages using turnInduction with
  | nil => exact fun turn h => absurd h List.not_mem_nil
  | turn assistant rest hcalls ih =>
      intro turn hturn
      refine ⟨turns_callIds _ turn hturn, ?_⟩
      rw [turns_cons_turn hcalls] at hturn
      rcases List.mem_cons.mp hturn with rfl | hrest
      · exact turns_fst_plain rest
      · exact (ih turn hrest).2
  | plain msg rest hplain ih =>
      intro turn hturn
      refine ⟨turns_callIds _ turn hturn, ?_⟩
      rw [turns_cons_plain hplain] at hturn
      exact (ih turn hturn).2

theorem AreTurns.tail {turn : Turn α} {list : List (Turn α)} (h : AreTurns (turn :: list)) :
    AreTurns list := fun t ht => h t (List.mem_cons_of_mem turn ht)

theorem hasToolCalls_of_callIds {assistant : AssistantMessage α} (h : callIds assistant ≠ []) :
    assistantHasToolCalls (.assistant assistant) = true := by
  rw [assistantHasToolCalls, Bool.not_eq_true', List.isEmpty_eq_false_iff]
  exact fun hnil => h (List.map_eq_nil_iff.mpr hnil)

theorem restOf_plain {turn : Turn α} (h : ∀ msg ∈ turn.2, assistantHasToolCalls msg = false) :
    ∀ msg ∈ restOf turn, assistantHasToolCalls msg = false :=
  fun msg hmsg => h msg (List.mem_of_mem_filter hmsg)

theorem turns_outOf (options : ToolUseResultPairingOptions) (body : JsString → α)
    (seen : List JsString) {list : List (Turn α)} (h : AreTurns list) :
    turns (outOf options body seen list) = outTurns options body seen list := by
  induction list generalizing seen with
  | nil => rfl
  | cons turn list ih =>
      obtain ⟨hcalls, hspan⟩ := h turn List.mem_cons_self
      have hrest := turns_append_plain (restOf_plain hspan)
        (outOf options body (seen ++ answeredIds options turn) list)
      rw [outOf, outTurns]
      by_cases hdropped : isDropped options turn = true
      · simp only [if_pos hdropped]
        rw [List.nil_append, hrest, ih _ h.tail]
      · simp only [if_neg hdropped]
        have hblock : ∀ msg ∈ (blockOf options body seen turn).map AgentMessage.toolResult,
            assistantHasToolCalls msg = false := by
          intro msg hmsg
          obtain ⟨r, -, rfl⟩ := List.mem_map.mp hmsg
          rfl
        rw [List.append_assoc, List.cons_append, turns_cons_turn (hasToolCalls_of_callIds hcalls),
          turns_append_plain hblock, hrest, ih _ h.tail]

theorem outTurns_fst (options : ToolUseResultPairingOptions) (body : JsString → α)
    (seen : List JsString) (list : List (Turn α)) :
    ∀ msg ∈ (outTurns options body seen list).1, isToolResult msg = false := by
  induction list generalizing seen with
  | nil => exact fun msg h => absurd h List.not_mem_nil
  | cons turn list ih =>
      rw [outTurns]
      split
      · intro msg hmsg
        rcases List.mem_append.mp hmsg with hrest | hlater
        · simpa using (List.mem_filter.mp hrest).2
        · exact ih _ msg hlater
      · exact fun msg h => absurd h List.not_mem_nil

theorem turns_repairedOut (options : ToolUseResultPairingOptions) (body : JsString → α)
    (messages : List (AgentMessage α)) :
    turns (repairedOut options body messages) =
      ((turns messages).1.filter (fun m => !isToolResult m) ++
        (outTurns options body [] (turns messages).2).1,
        (outTurns options body [] (turns messages).2).2) := by
  rw [repairedOut, turns_append_plain, turns_outOf options body [] (areTurns_turns messages)]
  intro msg hmsg
  exact turns_fst_plain messages msg (List.mem_of_mem_filter hmsg)

/-! ## What is asked of the output -/

def answersTo (turn : Turn α) (id : JsString) : ℕ :=
  (turn.2.takeWhile isToolResult).countP fun msg => (resultFor id msg).isSome

def isTakenOut (options : ToolUseResultPairingOptions) : AgentMessage α → Bool
  | .assistant assistant =>
      !(extractToolCallsFromAssistant assistant).isEmpty && isErrored assistant &&
        options.shouldDropErroredAssistantResults
  | _ => false

def Genuine (options : ToolUseResultPairingOptions) (body : JsString → α) (turn : Turn α)
    (r : ToolResultMessage α) : Prop :=
  (∃ found name, .toolResult found ∈ turn.2 ∧ r = normalizeToolResultName found name) ∨
    ∃ call ∈ extractToolCallsFromAssistant turn.1,
      r = makeMissingToolResult body call options.missingToolResultText ∧
        hasResult turn.2 call.id = false

structure WellPaired (options : ToolUseResultPairingOptions) (body : JsString → α)
    (messages out : List (AgentMessage α)) : Prop where
  /-- Each call of a turn that did not end in an error is answered once, directly after the turn. -/
  answered : ∀ turn ∈ (turns out).2, isErrored turn.1 = false →
    ∀ id ∈ callIds turn.1, answersTo turn id = 1
  /-- A result stands in the block after a turn that calls it. -/
  placed : (∀ msg ∈ (turns out).1, isToolResult msg = false) ∧
    ∀ turn ∈ (turns out).2,
      (∀ msg ∈ turn.2.dropWhile isToolResult, isToolResult msg = false) ∧
      ∀ r, .toolResult r ∈ turn.2 → ∃ id ∈ callIds turn.1, extractToolResultId r = some id
  /-- The other messages are kept in their order, but for the turns that the options take out. -/
  kept : out.filter (fun msg => !isToolResult msg) =
    messages.filter fun msg => !isToolResult msg && !isTakenOut options msg
  /-- A synthetic result stands only for a call that has no result in the span of its turn. -/
  genuine : List.Forall₂
    (fun turn put => turn.1 = put.1 ∧
      ∀ r, .toolResult r ∈ put.2 → Genuine options body turn r)
    ((turns messages).2.filter fun turn => !isDropped options turn) (turns out).2
  stable : ∀ body', (repairToolUseResultPairing options body' out).messages = out

def Fresh (options : ToolUseResultPairingOptions) : List JsString → List (Turn α) → Prop
  | _, [] => True
  | seen, turn :: rest =>
      (isErrored turn.1 = false → ∀ id ∈ callIds turn.1, id ∉ seen) ∧
        Fresh options (seen ++ answeredIds options turn) rest

def NamedWell (turn : Turn α) : Prop :=
  isErrored turn.1 = false → ∀ call ∈ extractToolCallsFromAssistant turn.1,
    (extractToolCallsFromAssistant turn.1).find? (fun c => c.id = call.id) = some call →
    hasResult turn.2 call.id = false →
      call.name = none ∨ normalizeOptionalString call.name = call.name

/-- No two results of the span are for one call, unless the turn ended in an error, and the results
of the span come first. -/
def InPlace (turn : Turn α) : Prop :=
  (isErrored turn.1 = false → ∀ id ∈ callIds turn.1,
    turn.2.countP (fun msg => (resultFor id msg).isSome) ≤ 1) ∧
    ∀ msg ∈ turn.2.dropWhile isToolResult, isToolResult msg = false

structure Repairable (options : ToolUseResultPairingOptions) (messages : List (AgentMessage α)) :
    Prop where
  fresh : Fresh options [] (turns messages).2
  named : ∀ turn ∈ (turns messages).2, NamedWell turn
  inPlace : Tidy options messages → ∀ turn ∈ (turns messages).2, InPlace turn

/-! ## The blocks of the output -/

theorem mem_block {answer : ToolCallLike → Option (ToolResultMessage α)} {seen : List JsString}
    {calls : List ToolCallLike} {r : ToolResultMessage α} (h : r ∈ block answer seen calls) :
    ∃ call ∈ calls, call.id ∉ seen ∧ answer call = some r := by
  induction calls generalizing seen with
  | nil => exact absurd h List.not_mem_nil
  | cons call calls ih =>
      rw [block] at h
      split at h
      · obtain ⟨c, hc, hnew, hanswer⟩ := ih h
        exact ⟨c, List.mem_cons_of_mem call hc, hnew, hanswer⟩
      · rename_i hnew
        cases hanswer : answer call with
        | none =>
            rw [hanswer] at h
            obtain ⟨c, hc, hnot, hother⟩ := ih h
            exact ⟨c, List.mem_cons_of_mem call hc, hnot, hother⟩
        | some found =>
            rw [hanswer] at h
            rcases List.mem_cons.mp h with rfl | hrest
            · exact ⟨call, List.mem_cons_self, hnew, hanswer⟩
            · obtain ⟨c, hc, hnot, hother⟩ := ih hrest
              refine ⟨c, List.mem_cons_of_mem call hc, ?_, hother⟩
              exact fun hin => hnot (List.mem_append_left _ hin)

theorem count_block {answer : ToolCallLike → Option (ToolResultMessage α)} {seen : List JsString}
    {calls : List ToolCallLike}
    (hids : ∀ call ∈ calls, ∀ r, answer call = some r → extractToolResultId r = some call.id)
    (id : JsString) :
    (block answer seen calls).countP (fun r => decide (extractToolResultId r = some id)) =
      if id ∉ seen ∧ ∃ call ∈ calls, call.id = id ∧ (answer call).isSome then 1 else 0 := by
  induction calls generalizing seen with
  | nil => simp [block]
  | cons call calls ih =>
      have htail (seen : List JsString) :=
        @ih seen fun c hc => hids c (List.mem_cons_of_mem call hc)
      rw [block]
      by_cases hseen : call.id ∈ seen
      · rw [if_pos hseen, htail]
        apply if_congr _ rfl rfl
        refine and_congr_right fun hnew => ?_
        rw [List.exists_mem_cons_iff]
        refine (or_iff_right ?_).symm
        rintro ⟨heq, _⟩
        exact hnew (heq ▸ hseen)
      · rw [if_neg hseen]
        cases hanswer : answer call with
        | none =>
            rw [htail]
            apply if_congr _ rfl rfl
            refine and_congr_right fun _ => ?_
            rw [List.exists_mem_cons_iff, hanswer]
            exact (or_iff_right fun h => absurd h.2 Bool.false_ne_true).symm
        | some r =>
            rw [List.countP_cons, htail, hids call List.mem_cons_self r hanswer]
            by_cases hid : call.id = id
            · rw [if_neg fun h => h.1 (hid ▸ List.mem_append_right _ (List.mem_singleton.mpr rfl)),
                if_pos (by rw [hid]; exact decide_eq_true rfl), if_pos]
              exact ⟨hid ▸ hseen, call, List.mem_cons_self, hid, hanswer ▸ rfl⟩
            · have hzero : (if decide (some call.id = some id) = true then 1 else 0) = 0 :=
                if_neg (by simpa using hid)
              rw [hzero, Nat.add_zero]
              apply if_congr _ rfl rfl
              rw [List.mem_append, List.mem_singleton, not_or, List.exists_mem_cons_iff,
                and_iff_left fun h => hid h.symm, or_iff_right fun h => hid h.1]

section Block

variable (options : ToolUseResultPairingOptions) (body : JsString → α) (seen : List JsString)
  (turn : Turn α)

theorem extract_blockOf {r : ToolResultMessage α} (h : r ∈ blockOf options body seen turn) :
    ∃ call ∈ extractToolCallsFromAssistant turn.1, call.id ∉ seen ∧
      answerFor options body turn call = some r ∧ extractToolResultId r = some call.id := by
  obtain ⟨call, hcall, hnew, hanswer⟩ := mem_block h
  exact ⟨call, hcall, hnew, hanswer, extract_answerFor (id_ne_nil hcall) hanswer⟩

theorem takeWhile_block {results : List (ToolResultMessage α)} {tail : List (AgentMessage α)}
    (htail : ∀ msg ∈ tail, isToolResult msg = false) :
    (results.map AgentMessage.toolResult ++ tail).takeWhile isToolResult =
        results.map AgentMessage.toolResult ∧
      (results.map AgentMessage.toolResult ++ tail).dropWhile isToolResult = tail := by
  induction results with
  | nil =>
      cases tail with
      | nil => exact ⟨rfl, rfl⟩
      | cons msg tail =>
          have hmsg : ¬isToolResult msg = true := htail msg List.mem_cons_self ▸ Bool.false_ne_true
          exact ⟨List.takeWhile_cons_of_neg hmsg, List.dropWhile_cons_of_neg hmsg⟩
  | cons r results ih =>
      rw [List.map_cons, List.cons_append, List.takeWhile_cons_of_pos rfl,
        List.dropWhile_cons_of_pos rfl, ih.1]
      exact ⟨rfl, ih.2⟩

theorem answersTo_block {tail : List (AgentMessage α)}
    (htail : ∀ msg ∈ tail, isToolResult msg = false) (id : JsString) :
    answersTo (turn.1, (blockOf options body seen turn).map AgentMessage.toolResult ++ tail) id =
      if id ∉ seen ∧ ∃ call ∈ extractToolCallsFromAssistant turn.1,
        call.id = id ∧ (answerFor options body turn call).isSome then 1 else 0 := by
  rw [answersTo, (takeWhile_block htail).1, List.countP_map, blockOf, ← count_block]
  · apply List.countP_congr
    intro r _
    rw [Function.comp_apply, resultFor]
    by_cases hid : extractToolResultId r = some id
    · simp [hid]
    · simp [hid]
  · exact fun call hcall r hanswer => extract_answerFor (id_ne_nil hcall) hanswer

theorem answerFor_isSome (herrored : isErrored turn.1 = false) (call : ToolCallLike) :
    (answerFor options body turn call).isSome = true := by
  rw [answerFor]
  cases firstResult call.id turn.2 with
  | some r => rfl
  | none => rw [herrored, if_neg Bool.false_ne_true]; rfl

end Block

/-! ## The parts of the result -/

section Parts

variable {options : ToolUseResultPairingOptions} {body : JsString → α} {seen : List JsString}
  {list : List (Turn α)}

theorem tail_plain (turn : Turn α) (seen : List JsString) (list : List (Turn α)) :
    ∀ msg ∈ restOf turn ++ (outTurns options body seen list).1, isToolResult msg = false := by
  intro msg hmsg
  rcases List.mem_append.mp hmsg with hrest | hlater
  · simpa using (List.mem_filter.mp hrest).2
  · exact outTurns_fst options body seen list msg hlater

theorem answered_iff_fresh :
    (∀ turn ∈ (outTurns options body seen list).2, isErrored turn.1 = false →
      ∀ id ∈ callIds turn.1, answersTo turn id = 1) ↔ Fresh options seen list := by
  induction list generalizing seen with
  | nil => exact iff_of_true (fun turn h => absurd h List.not_mem_nil) trivial
  | cons turn list ih =>
      rw [outTurns, Fresh, ← ih]
      by_cases hdropped : isDropped options turn = true
      · have herrored : isErrored turn.1 = true := (Bool.and_eq_true_iff.mp hdropped).1
        simp only [if_pos hdropped]
        exact (and_iff_right fun (h : isErrored turn.1 = false) =>
          absurd (herrored.symm.trans h) nofun).symm
      · simp only [if_neg hdropped]
        rw [List.forall_mem_cons]
        refine and_congr_left fun _ => ?_
        refine imp_congr_right fun herrored => ?_
        refine forall₂_congr fun id hid => ?_
        rw [answersTo_block options body seen turn (tail_plain turn _ list)]
        constructor
        · intro h hin
          rw [if_neg fun hboth => hboth.1 hin] at h
          exact absurd h nofun
        · intro hnew
          obtain ⟨call, hcall, rfl⟩ := List.mem_map.mp hid
          exact if_pos ⟨hnew, call, hcall, rfl, answerFor_isSome options body turn herrored call⟩

theorem placed_outTurns :
    ∀ turn ∈ (outTurns options body seen list).2,
      (∀ msg ∈ turn.2.dropWhile isToolResult, isToolResult msg = false) ∧
      ∀ r, .toolResult r ∈ turn.2 → ∃ id ∈ callIds turn.1, extractToolResultId r = some id := by
  induction list generalizing seen with
  | nil => exact fun turn h => absurd h List.not_mem_nil
  | cons turn list ih =>
      rw [outTurns]
      by_cases hdropped : isDropped options turn = true
      · simp only [if_pos hdropped]
        exact ih
      · simp only [if_neg hdropped]
        rw [List.forall_mem_cons]
        refine ⟨⟨?_, ?_⟩, ih⟩
        · rw [(takeWhile_block (tail_plain turn _ list)).2]
          exact tail_plain turn _ list
        · intro r hr
          rcases List.mem_append.mp hr with hblock | htail
          · obtain ⟨found, hfound, heq⟩ := List.mem_map.mp hblock
            obtain ⟨call, hcall, -, -, hid⟩ := extract_blockOf options body seen turn hfound
            rw [AgentMessage.toolResult.inj heq] at hid
            exact ⟨call.id, List.mem_map_of_mem hcall, hid⟩
          · exact absurd (tail_plain turn _ list _ htail) nofun

theorem genuine_outTurns :
    List.Forall₂
      (fun turn put => turn.1 = put.1 ∧
        ∀ r, .toolResult r ∈ put.2 → Genuine options body turn r)
      (list.filter fun turn => !isDropped options turn) (outTurns options body seen list).2 := by
  induction list generalizing seen with
  | nil => exact List.Forall₂.nil
  | cons turn list ih =>
      rw [outTurns]
      by_cases hdropped : isDropped options turn = true
      · rw [List.filter_cons_of_neg (by simp [hdropped])]
        simp only [if_pos hdropped]
        exact ih
      · rw [List.filter_cons_of_pos (by simp [hdropped])]
        simp only [if_neg hdropped]
        refine List.Forall₂.cons ⟨rfl, ?_⟩ ih
        intro r hr
        rcases List.mem_append.mp hr with hblock | htail
        · obtain ⟨found, hfound, heq⟩ := List.mem_map.mp hblock
          obtain ⟨call, hcall, -, hanswer, -⟩ := extract_blockOf options body seen turn hfound
          rw [AgentMessage.toolResult.inj heq] at hanswer
          rw [answerFor] at hanswer
          cases hfirst : firstResult call.id turn.2 with
          | some original =>
              rw [hfirst] at hanswer
              obtain ⟨msg, hmem, hmsg⟩ := List.exists_of_findSome?_eq_some hfirst
              cases msg with
              | toolResult here =>
                  rw [resultFor] at hmsg
                  split at hmsg
                  · rw [Option.some.inj hmsg] at hmem
                    exact Or.inl ⟨original, _, hmem, (Option.some.inj hanswer).symm⟩
                  · cases hmsg
              | notObject value => cases hmsg
              | assistant message => cases hmsg
              | other value => cases hmsg
          | none =>
              rw [hfirst] at hanswer
              dsimp only at hanswer
              split at hanswer
              · cases hanswer
              · refine Or.inr ⟨call, hcall, (Option.some.inj hanswer).symm, ?_⟩
                rw [hasResult, hfirst]
                rfl
        · exact Bool.noConfusion (tail_plain turn _ list _ htail)

end Parts

end GreenchClaw.Agents
