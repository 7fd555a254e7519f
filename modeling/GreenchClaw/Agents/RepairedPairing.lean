import Mathlib.Data.List.Forall2
import GreenchClaw.Agents.TranscriptRepair

/-!
# What the repair of a transcript puts out

A transcript is a list of turns with tool calls, each with the messages up to the next one.  The
repair is read off turn by turn: the turn, a block of results, and what is left of its span.
-/

namespace GreenchClaw.Agents

open GreenchClaw.Js

variable {α : Type}

/-! ## Turns -/

/-- A turn with tool calls and the messages up to the next such turn. -/
abbrev Turn (α : Type) := AssistantMessage α × List (AgentMessage α)

def turns : List (AgentMessage α) → List (AgentMessage α) × List (Turn α)
  | [] => ([], [])
  | msg :: rest =>
      match msg with
      | .assistant assistant =>
          if (extractToolCallsFromAssistant assistant).isEmpty = true then
            (msg :: (turns rest).1, (turns rest).2)
          else ([], (assistant, (turns rest).1) :: (turns rest).2)
      | _ => (msg :: (turns rest).1, (turns rest).2)

def Turn.messages (turn : Turn α) : List (AgentMessage α) := .assistant turn.1 :: turn.2

def isToolResult : AgentMessage α → Bool
  | .toolResult _ => true
  | _ => false

theorem turns_cons_plain {msg : AgentMessage α} (h : assistantHasToolCalls msg = false)
    (rest : List (AgentMessage α)) :
    turns (msg :: rest) = (msg :: (turns rest).1, (turns rest).2) := by
  cases msg with
  | assistant assistant =>
      rw [assistantHasToolCalls, Bool.not_eq_false'] at h
      exact if_pos h
  | notObject value => rfl
  | toolResult message => rfl
  | other value => rfl

theorem turns_cons_turn {assistant : AssistantMessage α}
    (h : assistantHasToolCalls (.assistant assistant) = true) (rest : List (AgentMessage α)) :
    turns (.assistant assistant :: rest) =
      ([], (assistant, (turns rest).1) :: (turns rest).2) := by
  rw [assistantHasToolCalls, Bool.not_eq_true'] at h
  exact if_neg (h ▸ Bool.false_ne_true)

theorem assistant_of_hasToolCalls {msg : AgentMessage α} (h : assistantHasToolCalls msg = true) :
    ∃ assistant, msg = .assistant assistant := by
  cases msg with
  | assistant assistant => exact ⟨assistant, rfl⟩
  | notObject value => exact absurd h Bool.false_ne_true
  | toolResult message => exact absurd h Bool.false_ne_true
  | other value => exact absurd h Bool.false_ne_true

/-- A message with tool calls begins a turn, and any other goes to the turn before it. -/
@[elab_as_elim]
theorem turnInduction {motive : List (AgentMessage α) → Prop} (messages : List (AgentMessage α))
    (nil : motive [])
    (turn : ∀ assistant rest, assistantHasToolCalls (.assistant assistant) = true → motive rest →
      motive (.assistant assistant :: rest))
    (plain : ∀ msg rest, assistantHasToolCalls msg = false → motive rest → motive (msg :: rest)) :
    motive messages := by
  induction messages with
  | nil => exact nil
  | cons msg rest ih =>
      by_cases hcalls : assistantHasToolCalls msg = true
      · obtain ⟨assistant, rfl⟩ := assistant_of_hasToolCalls hcalls
        exact turn assistant rest hcalls ih
      · exact plain msg rest (eq_false_of_ne_true hcalls) ih

theorem turns_join (messages : List (AgentMessage α)) :
    (turns messages).1 ++ (turns messages).2.flatMap Turn.messages = messages := by
  induction messages using turnInduction with
  | nil => rfl
  | turn assistant rest hcalls ih =>
      rw [turns_cons_turn hcalls, List.flatMap_cons, Turn.messages, List.nil_append]
      exact congrArg (AgentMessage.assistant assistant :: ·) ih
  | plain msg rest hplain ih =>
      rw [turns_cons_plain hplain]
      exact congrArg (msg :: ·) ih

theorem turns_append_plain {front : List (AgentMessage α)}
    (h : ∀ msg ∈ front, assistantHasToolCalls msg = false) (rest : List (AgentMessage α)) :
    turns (front ++ rest) = (front ++ (turns rest).1, (turns rest).2) := by
  induction front with
  | nil => rfl
  | cons msg front ih =>
      rw [List.cons_append, turns_cons_plain (h msg List.mem_cons_self),
        ih fun m hm => h m (List.mem_cons_of_mem msg hm)]
      rfl

theorem turns_fst_plain (messages : List (AgentMessage α)) :
    ∀ msg ∈ (turns messages).1, assistantHasToolCalls msg = false := by
  induction messages using turnInduction with
  | nil => exact fun msg h => absurd h List.not_mem_nil
  | turn assistant rest hcalls ih =>
      rw [turns_cons_turn hcalls]
      exact fun m h => absurd h List.not_mem_nil
  | plain msg rest hplain ih =>
      rw [turns_cons_plain hplain]
      intro m hm
      rcases List.mem_cons.mp hm with rfl | hrest
      · exact hplain
      · exact ih m hrest

theorem span_eq (rest : List (AgentMessage α)) :
    rest.takeWhile (fun next => !assistantHasToolCalls next) = (turns rest).1 ∧
      turns (rest.drop (turns rest).1.length) = ([], (turns rest).2) := by
  induction rest using turnInduction with
  | nil => exact ⟨rfl, rfl⟩
  | turn assistant rest hcalls ih =>
      rw [turns_cons_turn hcalls, List.takeWhile_cons_of_neg (by simp [hcalls])]
      exact ⟨rfl, turns_cons_turn hcalls rest⟩
  | plain msg rest hplain ih =>
      rw [turns_cons_plain hplain, List.takeWhile_cons_of_pos (by simp [hplain]), ih.1]
      exact ⟨rfl, ih.2⟩

/-! ## The loop, turn by turn -/

def ToolUseRepair.lead (s : ToolUseRepair α) : List (AgentMessage α) → ToolUseRepair α
  | [] => s
  | .toolResult _ :: rest =>
      ToolUseRepair.lead
        { s with droppedOrphanCount := s.droppedOrphanCount + 1, changed := true } rest
  | msg :: rest => (s.push msg).lead rest

theorem repairLoop_skip (options : ToolUseResultPairingOptions) (body : JsString → α) (skip : ℕ)
    (messages : List (AgentMessage α)) (s : ToolUseRepair α) :
    repairLoop options body skip messages s = repairLoop options body 0 (messages.drop skip) s := by
  induction messages generalizing skip with
  | nil => cases skip <;> rfl
  | cons msg rest ih =>
      cases skip with
      | zero => rfl
      | succ skip =>
          rw [List.drop_succ_cons, ← ih skip]
          rfl

theorem repairLoop_eq (options : ToolUseResultPairingOptions) (body : JsString → α)
    (messages : List (AgentMessage α)) (s : ToolUseRepair α) :
    repairLoop options body 0 messages s =
      (turns messages).2.foldl (fun s turn => s.repairTurn options body turn.1 turn.2)
        (s.lead (turns messages).1) := by
  induction hlength : messages.length using Nat.strong_induction_on generalizing messages s with
  | _ n ih =>
      cases messages with
      | nil => rfl
      | cons msg rest =>
          have hrest : rest.length < n := by
            rw [← hlength, List.length_cons]
            omega
          by_cases hcalls : assistantHasToolCalls msg = true
          · obtain ⟨assistant, rfl⟩ := assistant_of_hasToolCalls hcalls
            have hfull : (extractToolCallsFromAssistant assistant).isEmpty = false := by
              rw [assistantHasToolCalls, Bool.not_eq_true'] at hcalls
              exact hcalls
            obtain ⟨hspan, hafter⟩ := span_eq rest
            have hshort : (rest.drop (turns rest).1.length).length < n := by
              rw [List.length_drop]
              omega
            rw [repairLoop, hfull, if_neg Bool.false_ne_true, hspan, repairLoop_skip,
              ih _ hshort _ _ rfl, hafter, turns_cons_turn hcalls, List.foldl_cons]
            rfl
          · have hplain := eq_false_of_ne_true hcalls
            rw [turns_cons_plain hplain]
            cases msg with
            | assistant assistant =>
                rw [assistantHasToolCalls, Bool.not_eq_false'] at hplain
                rw [repairLoop, if_pos hplain, ih _ hrest _ _ rfl]
                rfl
            | notObject value =>
                rw [repairLoop, ih _ hrest _ _ rfl]
                · rfl
                all_goals nofun
            | toolResult message =>
                rw [repairLoop, ih _ hrest _ _ rfl]
                rfl
            | other value =>
                rw [repairLoop, ih _ hrest _ _ rfl]
                · rfl
                all_goals nofun

/-! ## The span of a turn -/

def toolCallNames (assistant : AssistantMessage α) : Record JsString :=
  (extractToolCallsFromAssistant assistant).foldl
    (fun names call =>
      match call.name with
      | some name => Record.set names call.id name
      | none => names) []

def callIds (assistant : AssistantMessage α) : List JsString :=
  (extractToolCallsFromAssistant assistant).map ToolCallLike.id

def resultFor (id : JsString) : AgentMessage α → Option (ToolResultMessage α)
  | .toolResult r => if extractToolResultId r = some id then some r else none
  | _ => none

def firstResult (id : JsString) (span : List (AgentMessage α)) : Option (ToolResultMessage α) :=
  span.findSome? (resultFor id)

def isNoisy (seen ids : List JsString) (names : Record JsString) : AgentMessage α → Bool
  | .toolResult r =>
      match (extractToolResultId r).filter ids.contains with
      | some id =>
          decide (id ∈ seen) ||
            decide ((normalizeToolResultName r (names.get id)).toolName ≠ r.toolName)
      | none => true
  | _ => false

theorem extractToolResultId_normalize (r : ToolResultMessage α) (name : Option JsString) :
    extractToolResultId (normalizeToolResultName r name) = extractToolResultId r := by
  rw [normalizeToolResultName]
  split
  · split <;> rfl
  · split
    · rfl
    · split <;> rfl

theorem scanNext_remainder (seen ids : List JsString) (names : Record JsString)
    (scan : SpanScan α) (msg : AgentMessage α) :
    (scanNext seen ids names scan msg).remainder =
      scan.remainder ++ [msg].filter fun m => !isToolResult m := by
  cases msg with
  | toolResult r =>
      have hnone : ([AgentMessage.toolResult r].filter fun m => !isToolResult m) = [] := rfl
      rw [hnone, List.append_nil, scanNext]
      split
      · split <;> rfl
      · rfl
  | notObject value => rfl
  | assistant message => rfl
  | other value => rfl

theorem scanNext_changed (seen ids : List JsString) (names : Record JsString)
    (scan : SpanScan α) (msg : AgentMessage α) :
    (scanNext seen ids names scan msg).changed = (scan.changed || isNoisy seen ids names msg) := by
  cases msg with
  | toolResult r =>
      rw [scanNext, isNoisy]
      cases (extractToolResultId r).filter ids.contains with
      | none => simp
      | some id =>
          by_cases hseen : id ∈ seen
          · simp [hseen]
          · simp [hseen]
  | notObject value => simp [scanNext, isNoisy]
  | assistant message => simp [scanNext, isNoisy]
  | other value => simp [scanNext, isNoisy]

/-- The first result for an id that is called and not yet answered is kept. -/
theorem scanNext_get (seen ids : List JsString) (names : Record JsString)
    (scan : SpanScan α) (msg : AgentMessage α) (id : JsString) :
    (scanNext seen ids names scan msg).spanResultsById.get id =
      (scan.spanResultsById.get id).or
        (if id ∈ ids ∧ id ∉ seen then
          (resultFor id msg).map fun r => normalizeToolResultName r (names.get id)
        else none) := by
  cases msg with
  | toolResult r =>
      rw [scanNext, resultFor]
      rcases Option.eq_none_or_eq_some ((extractToolResultId r).filter ids.contains)
        with hnone | ⟨found, hfound⟩
      · rw [hnone]
        by_cases hid : extractToolResultId r = some id
        · rw [hid, Option.filter_some] at hnone
          have hnot : id ∉ ids := by
            intro hmem
            rw [if_pos (List.contains_iff_mem.mpr hmem)] at hnone
            cases hnone
          simp [hnot]
        · simp [hid]
      · obtain ⟨hextract, hcontains⟩ := Option.filter_eq_some_iff.mp hfound
        have hmem : found ∈ ids := List.contains_iff_mem.mp hcontains
        rw [hfound, hextract]
        by_cases hsame : found = id
        · rw [hsame] at hmem ⊢
          by_cases hseen : id ∈ seen
          · simp [hseen]
          · simp only [hseen, if_false, hmem, not_false_eq_true, and_self, if_true, Option.map_some]
            by_cases hget : (scan.spanResultsById.get id).isSome = true
            · rw [if_pos hget, Option.or_of_isSome hget]
            · have hnone : scan.spanResultsById.get id = none := by simpa using hget
              rw [if_neg hget, hnone, Option.none_or, Record.get_set_self]
        · have hother : ¬some found = some id := fun h => hsame (Option.some.inj h)
          by_cases hseen : found ∈ seen
          · simp [hseen, hother]
          · simp only [hseen, if_false, hother, Option.map_none, ite_self, Option.or_none]
            split
            · rfl
            · exact Record.get_set_other _ _ (fun h => hsame h.symm)
  | notObject value => simp [scanNext, resultFor]
  | assistant message => simp [scanNext, resultFor]
  | other value => simp [scanNext, resultFor]

theorem scan_remainder (seen ids : List JsString) (names : Record JsString)
    (scan : SpanScan α) (span : List (AgentMessage α)) :
    (span.foldl (scanNext seen ids names) scan).remainder =
      scan.remainder ++ span.filter fun m => !isToolResult m := by
  induction span generalizing scan with
  | nil => rw [List.foldl_nil, List.filter_nil, List.append_nil]
  | cons msg span ih =>
      rw [List.foldl_cons, ih, scanNext_remainder, List.append_assoc, ← List.filter_append,
        List.singleton_append]

theorem scan_changed (seen ids : List JsString) (names : Record JsString)
    (scan : SpanScan α) (span : List (AgentMessage α)) :
    (span.foldl (scanNext seen ids names) scan).changed =
      (scan.changed || span.any (isNoisy seen ids names)) := by
  induction span generalizing scan with
  | nil => rw [List.foldl_nil, List.any_nil, Bool.or_false]
  | cons msg span ih => rw [List.foldl_cons, ih, scanNext_changed, List.any_cons, Bool.or_assoc]

theorem scan_get (seen ids : List JsString) (names : Record JsString)
    (scan : SpanScan α) (span : List (AgentMessage α)) (id : JsString) :
    (span.foldl (scanNext seen ids names) scan).spanResultsById.get id =
      (scan.spanResultsById.get id).or
        (if id ∈ ids ∧ id ∉ seen then
          (firstResult id span).map fun r => normalizeToolResultName r (names.get id)
        else none) := by
  induction span generalizing scan with
  | nil => rw [List.foldl_nil, firstResult, List.findSome?_nil, Option.map_none, ite_self,
      Option.or_none]
  | cons msg span ih =>
      rw [List.foldl_cons, ih, scanNext_get, Option.or_assoc]
      congr 1
      split
      · rw [firstResult, firstResult, List.findSome?_cons]
        cases resultFor id msg with
        | none => rfl
        | some r => rfl
      · rfl

def hasResult (span : List (AgentMessage α)) (id : JsString) : Bool := (firstResult id span).isSome

theorem extract_firstResult {id : JsString} {span : List (AgentMessage α)}
    {r : ToolResultMessage α} (h : firstResult id span = some r) :
    extractToolResultId r = some id := by
  obtain ⟨msg, -, hmsg⟩ := List.exists_of_findSome?_eq_some h
  cases msg with
  | toolResult found =>
      rw [resultFor] at hmsg
      split at hmsg
      · rename_i hid
        rw [← Option.some.inj hmsg]
        exact hid
      · exact absurd hmsg nofun
  | notObject value => exact absurd hmsg nofun
  | assistant message => exact absurd hmsg nofun
  | other value => exact absurd hmsg nofun

theorem hasResult_iff {id : JsString} {span : List (AgentMessage α)} :
    hasResult span id = true ↔
      ∃ r, .toolResult r ∈ span ∧ extractToolResultId r = some id := by
  rw [hasResult, firstResult, List.findSome?_isSome_iff]
  constructor
  · intro ⟨msg, hmem, hsome⟩
    cases msg with
    | toolResult found =>
        rw [resultFor] at hsome
        split at hsome
        · rename_i hid
          exact ⟨found, hmem, hid⟩
        · exact absurd hsome Bool.false_ne_true
    | notObject value => exact absurd hsome Bool.false_ne_true
    | assistant message => exact absurd hsome Bool.false_ne_true
    | other value => exact absurd hsome Bool.false_ne_true
  · intro ⟨r, hmem, hid⟩
    refine ⟨_, hmem, ?_⟩
    rw [resultFor, if_pos hid]
    rfl

/-! ## The block of a turn -/

def block (answer : ToolCallLike → Option (ToolResultMessage α)) :
    List JsString → List ToolCallLike → List (ToolResultMessage α)
  | _, [] => []
  | seen, call :: calls =>
      if call.id ∈ seen then block answer seen calls
      else
        match answer call with
        | none => block answer seen calls
        | some r => r :: block answer (seen ++ [call.id]) calls

/-- What is put out for a call: the first result of the span, and in its absence a synthetic one
unless the turn ended in an error. -/
def answerFor (options : ToolUseResultPairingOptions) (body : JsString → α) (turn : Turn α)
    (call : ToolCallLike) : Option (ToolResultMessage α) :=
  match firstResult call.id turn.2 with
  | some r => some (normalizeToolResultName r ((toolCallNames turn.1).get call.id))
  | none =>
      if isErrored turn.1 = true then none
      else some (makeMissingToolResult body call options.missingToolResultText)

def blockOf (options : ToolUseResultPairingOptions) (body : JsString → α) (seen : List JsString)
    (turn : Turn α) : List (ToolResultMessage α) :=
  block (answerFor options body turn) seen (extractToolCallsFromAssistant turn.1)

def isDropped (options : ToolUseResultPairingOptions) (turn : Turn α) : Bool :=
  isErrored turn.1 && options.shouldDropErroredAssistantResults

theorem id_ne_nil {assistant : AssistantMessage α} {call : ToolCallLike}
    (h : call ∈ extractToolCallsFromAssistant assistant) : call.id ≠ [] := by
  obtain ⟨block, -, hblock⟩ := List.mem_filterMap.mp h
  obtain ⟨rec, -, hrec⟩ := Option.bind_eq_some_iff.mp hblock
  obtain ⟨id, hid, hcall⟩ := Option.bind_eq_some_iff.mp hrec
  have hne := (Option.filter_eq_some_iff.mp hid).2
  split at hcall
  · rw [← Option.some.inj hcall]
    exact of_decide_eq_true hne
  · exact absurd hcall nofun

theorem extract_makeMissing (body : JsString → α) (text : Option JsString) {call : ToolCallLike}
    (h : call.id ≠ []) : extractToolResultId (makeMissingToolResult body call text) = some call.id := by
  simp [extractToolResultId, makeMissingToolResult, truthy, h]

theorem extract_answerFor {options : ToolUseResultPairingOptions} {body : JsString → α}
    {turn : Turn α} {call : ToolCallLike} {r : ToolResultMessage α} (hne : call.id ≠ [])
    (h : answerFor options body turn call = some r) : extractToolResultId r = some call.id := by
  rw [answerFor] at h
  split at h
  · rename_i found hfound
    rw [← Option.some.inj h, extractToolResultId_normalize]
    exact extract_firstResult hfound
  · split at h
    · exact absurd h nofun
    · rw [← Option.some.inj h]
      exact extract_makeMissing body _ hne

theorem block_congr {answer : ToolCallLike → Option (ToolResultMessage α)}
    (answer' : ToolCallLike → Option (ToolResultMessage α)) {seen : List JsString} {calls : List ToolCallLike}
    (h : ∀ call ∈ calls, call.id ∉ seen → answer call = answer' call) :
    block answer seen calls = block answer' seen calls := by
  induction calls generalizing seen with
  | nil => rfl
  | cons call calls ih =>
      have htail (seen' : List JsString) (hsub : ∀ id ∈ seen, id ∈ seen') :
          block answer seen' calls = block answer' seen' calls := by
        apply ih
        intro c hc hnot
        exact h c (List.mem_cons_of_mem call hc) fun hmem => hnot (hsub c.id hmem)
      rw [block, block]
      by_cases hseen : call.id ∈ seen
      · rw [if_pos hseen, if_pos hseen, htail seen fun _ hid => hid]
      · rw [if_neg hseen, if_neg hseen, h call List.mem_cons_self hseen]
        cases answer' call with
        | none => exact htail seen fun _ hid => hid
        | some r =>
            exact congrArg (r :: ·) (htail _ fun _ hid => List.mem_append_left _ hid)

structure Answered (answer : ToolCallLike → Option (ToolResultMessage α))
    (quiet : ToolCallLike → Prop) (calls : List ToolCallLike) (s s' : ToolUseRepair α) : Prop where
  out : s'.out = s.out ++ (block answer s.seenToolResultIds calls).map AgentMessage.toolResult
  seen : ∀ id, id ∈ s'.seenToolResultIds ↔
    id ∈ s.seenToolResultIds ∨ ∃ call ∈ calls, call.id = id ∧ (answer call).isSome
  moved : s'.moved = s.moved
  changed : s'.changed = false ↔ s.changed = false ∧ (∀ call ∈ calls, quiet call) ∧
    ((calls.filter fun call => (answer call).isSome).map ToolCallLike.id).Nodup ∧
    ∀ call ∈ calls, (answer call).isSome → call.id ∉ s.seenToolResultIds

section Answered

variable {answer : ToolCallLike → Option (ToolResultMessage α)} {quiet : ToolCallLike → Prop}
  {call : ToolCallLike} {calls : List ToolCallLike} {s s' : ToolUseRepair α}

theorem Answered.none (hnone : answer call = none) (hquiet : quiet call)
    (h : Answered answer quiet calls s s') : Answered answer quiet (call :: calls) s s' where
  out := by
    rw [h.out, block, hnone]
    split <;> rfl
  seen id := by
    rw [h.seen id]
    simp [hnone]
  moved := h.moved
  changed := by
    rw [h.changed]
    simp [hnone, hquiet]

theorem Answered.some {r : ToolResultMessage α} (mark : Bool) (hsome : answer call = some r)
    (hid : extractToolResultId r = some call.id) (s₀ : ToolUseRepair α)
    (hout : s₀.out = s.out) (hseen : s₀.seenToolResultIds = s.seenToolResultIds)
    (hmoved : s₀.moved = s.moved) (hchanged : s₀.changed = (s.changed || mark))
    (hquiet : quiet call ↔ mark = false)
    (h : Answered answer quiet calls (s₀.pushToolResult r) s') :
    Answered answer quiet (call :: calls) s s' := by
  have hpush : s₀.pushToolResult r =
      if call.id ∈ s₀.seenToolResultIds then
        { s₀ with droppedDuplicateCount := s₀.droppedDuplicateCount + 1, changed := true }
      else { s₀.push (.toolResult r) with
        seenToolResultIds := s₀.seenToolResultIds ++ [call.id] } := by
    rw [ToolUseRepair.pushToolResult, hid]
  rw [hpush] at h
  by_cases hmem : call.id ∈ s.seenToolResultIds
  · rw [if_pos (hseen ▸ hmem)] at h
    constructor
    · rw [h.out, block, if_pos hmem, ← hout, ← hseen]
    · intro id
      rw [h.seen id]
      simp only [hseen, List.mem_cons, exists_eq_or_imp, hsome, Option.isSome_some, and_true]
      constructor
      · rintro (hin | hin)
        · exact Or.inl hin
        · exact Or.inr (Or.inr hin)
      · rintro (hin | heq | hin)
        · exact Or.inl hin
        · exact Or.inl (heq ▸ hmem)
        · exact Or.inr hin
    · exact h.moved.trans hmoved
    · rw [h.changed]
      apply iff_of_false
      · exact fun hfalse => absurd hfalse.1 nofun
      · intro hfalse
        exact hfalse.2.2.2 call List.mem_cons_self (hsome ▸ rfl) hmem
  · rw [if_neg (hseen ▸ hmem)] at h
    have htail := h.changed
    constructor
    · rw [h.out, block, if_neg hmem, hsome]
      simp [ToolUseRepair.push, hout, hseen]
    · intro id
      rw [h.seen id]
      have hcomm : id = call.id ↔ call.id = id := eq_comm
      simp only [hseen, List.mem_append, List.mem_cons, List.not_mem_nil, or_false, exists_eq_or_imp,
        hsome, Option.isSome_some, and_true, or_assoc, hcomm]
    · exact h.moved.trans hmoved
    · rw [htail]
      simp only [ToolUseRepair.push, hchanged, hseen, Bool.or_eq_false_iff, List.forall_mem_cons,
        hquiet, List.filter_cons, hsome, Option.isSome_some, if_true, List.map_cons,
        List.nodup_cons, List.mem_append, List.mem_singleton, not_or, List.mem_map,
        List.mem_filter]
      constructor
      · intro ⟨⟨hc, hm⟩, hq, hnodup, hfresh⟩
        refine ⟨hc, ⟨hm, hq⟩, ⟨?_, hnodup⟩, ⟨fun _ => hmem, fun c hc hs => (hfresh c hc hs).1⟩⟩
        rintro ⟨c, ⟨hc, hs⟩, heq⟩
        exact (hfresh c hc hs).2 heq
      · intro ⟨hc, ⟨hm, hq⟩, ⟨hnot, hnodup⟩, ⟨_, hfresh⟩⟩
        refine ⟨⟨hc, hm⟩, hq, hnodup, fun c hc hs => ⟨hfresh c hc hs, fun heq => ?_⟩⟩
        exact hnot ⟨c, ⟨hc, hs⟩, heq⟩

end Answered

theorem answered_pushKnown {results : Record (ToolResultMessage α)} (calls : List ToolCallLike)
    (hids : ∀ id r, results.get id = some r → extractToolResultId r = some id)
    (s : ToolUseRepair α) :
    Answered (fun call => results.get call.id) (fun _ => True) calls s
      (ToolUseRepair.pushKnown results calls s) := by
  induction calls generalizing s with
  | nil => exact ⟨by simp [ToolUseRepair.pushKnown, block], by simp [ToolUseRepair.pushKnown], rfl,
      by simp [ToolUseRepair.pushKnown]⟩
  | cons call calls ih =>
      rw [ToolUseRepair.pushKnown]
      cases hget : results.get call.id with
      | none => exact Answered.none hget trivial (ih s)
      | some r =>
          exact Answered.some false hget (hids _ _ hget) s rfl rfl rfl
            (Bool.or_false _).symm (iff_of_true trivial rfl) (ih _)

theorem answered_pushAnswers (body : JsString → α) (text : Option JsString)
    {results : Record (ToolResultMessage α)} (calls : List ToolCallLike)
    (hids : ∀ id r, results.get id = some r → extractToolResultId r = some id)
    (hne : ∀ call ∈ calls, call.id ≠ []) (s : ToolUseRepair α) :
    Answered
      (fun call => (results.get call.id).or (some (makeMissingToolResult body call text)))
      (fun call => (results.get call.id).isSome) calls s
      (ToolUseRepair.pushAnswers body text results calls s) := by
  induction calls generalizing s with
  | nil => exact ⟨by simp [ToolUseRepair.pushAnswers, block], by simp [ToolUseRepair.pushAnswers],
      rfl, by simp [ToolUseRepair.pushAnswers]⟩
  | cons call calls ih =>
      have htail := fun s => ih (fun c hc => hne c (List.mem_cons_of_mem call hc)) s
      rw [ToolUseRepair.pushAnswers]
      cases hget : results.get call.id with
      | none =>
          have hextract := extract_makeMissing body text (hne call List.mem_cons_self)
          exact Answered.some true (by rw [hget, Option.none_or]) hextract
            { s with
              added := s.added ++ [makeMissingToolResult body call text]
              changed := true }
            rfl rfl rfl (Bool.or_true _).symm (by rw [hget]; exact iff_of_false nofun nofun)
            (htail _)
      | some r =>
          exact Answered.some false (by rw [hget, Option.some_or]) (hids _ _ hget) s rfl rfl rfl
            (Bool.or_false _).symm (by rw [hget]; exact iff_of_true rfl rfl) (htail _)

/-! ## One turn -/

def answeredIds (options : ToolUseResultPairingOptions) (turn : Turn α) : List JsString :=
  if isErrored turn.1 = true then
    if options.shouldDropErroredAssistantResults = true then []
    else (callIds turn.1).filter (hasResult turn.2)
  else callIds turn.1

/-- A turn that the repair leaves as it is: every result of its span is for one of its calls, not
answered before and named as it should be, no call id is answered twice, and a turn that did not end
in an error has a result for each call and nothing else in its span. -/
structure Quiet (options : ToolUseResultPairingOptions) (seen : List JsString) (turn : Turn α) :
    Prop where
  results : ∀ msg ∈ turn.2, isNoisy seen (callIds turn.1) (toolCallNames turn.1) msg = false
  kept : isDropped options turn = false
  once : ((callIds turn.1).filter (hasResult turn.2)).Nodup
  answered : isErrored turn.1 = false →
    ∀ id ∈ callIds turn.1, id ∉ seen ∧ hasResult turn.2 id = true
  together : isErrored turn.1 = false → ∀ msg ∈ turn.2, isToolResult msg = true

structure TurnRepaired (options : ToolUseResultPairingOptions) (body : JsString → α)
    (turn : Turn α) (s s' : ToolUseRepair α) : Prop where
  out : s'.out = s.out ++
    (if isDropped options turn = true then []
      else .assistant turn.1 ::
        (blockOf options body s.seenToolResultIds turn).map AgentMessage.toolResult) ++
    turn.2.filter fun m => !isToolResult m
  seen : ∀ id, id ∈ s'.seenToolResultIds ↔
    id ∈ s.seenToolResultIds ∨ id ∈ answeredIds options turn
  moved : (s.moved = true → s.changed = true) → s'.moved = true → s'.changed = true
  changed : s'.changed = false ↔ s.changed = false ∧ Quiet options s.seenToolResultIds turn

section Scan

variable {seen : List JsString} {turn : Turn α}

def scanOf (seen : List JsString) (turn : Turn α) : SpanScan α :=
  turn.2.foldl (scanNext seen (callIds turn.1) (toolCallNames turn.1)) {}

theorem scanOf_get (id : JsString) :
    (scanOf seen turn).spanResultsById.get id =
      if id ∈ callIds turn.1 ∧ id ∉ seen then
        (firstResult id turn.2).map fun r =>
          normalizeToolResultName r ((toolCallNames turn.1).get id)
      else none := by
  have hempty : Record.get ([] : Record (ToolResultMessage α)) id = none := rfl
  rw [scanOf, scan_get, hempty, Option.none_or]

theorem extract_scanOf {id : JsString} {r : ToolResultMessage α}
    (h : (scanOf seen turn).spanResultsById.get id = some r) :
    extractToolResultId r = some id := by
  rw [scanOf_get] at h
  split at h
  · obtain ⟨found, hfound, rfl⟩ := Option.map_eq_some_iff.mp h
    rw [extractToolResultId_normalize]
    exact extract_firstResult hfound
  · exact absurd h nofun

theorem scanOf_isSome {id : JsString} (hid : id ∈ callIds turn.1) :
    ((scanOf seen turn).spanResultsById.get id).isSome = true ↔
      id ∉ seen ∧ hasResult turn.2 id = true := by
  rw [scanOf_get]
  by_cases hseen : id ∈ seen
  · rw [if_neg fun h => h.2 hseen]
    exact iff_of_false nofun fun h => h.1 hseen
  · rw [if_pos ⟨hid, hseen⟩, Option.isSome_map, hasResult]
    exact (and_iff_right hseen).symm

theorem scanOf_remainder (seen : List JsString) :
    (scanOf seen turn).remainder = turn.2.filter fun m => !isToolResult m :=
  scan_remainder _ _ _ {} turn.2

theorem scanOf_changed : (scanOf seen turn).changed = false ↔
    ∀ msg ∈ turn.2, isNoisy seen (callIds turn.1) (toolCallNames turn.1) msg = false := by
  rw [scanOf, scan_changed, Bool.false_or, List.any_eq_false]
  simp only [Bool.not_eq_true]

end Scan

theorem isNoisy_eq_false_iff {seen ids : List JsString} {names : Record JsString}
    {r : ToolResultMessage α} :
    isNoisy seen ids names (.toolResult r) = false ↔
      ∃ id, extractToolResultId r = some id ∧ id ∈ ids ∧ id ∉ seen ∧
        (normalizeToolResultName r (names.get id)).toolName = r.toolName := by
  rw [isNoisy]
  rcases Option.eq_none_or_eq_some ((extractToolResultId r).filter ids.contains)
    with hnone | ⟨found, hfound⟩
  · rw [hnone]
    apply iff_of_false Bool.noConfusion
    rintro ⟨id, hid, hmem, _⟩
    rw [hid, Option.filter_some, if_pos (List.contains_iff_mem.mpr hmem)] at hnone
    cases hnone
  · obtain ⟨hextract, hcontains⟩ := Option.filter_eq_some_iff.mp hfound
    rw [hfound, hextract]
    simp only [Bool.or_eq_false_iff, decide_eq_false_iff_not, not_not, Option.some.injEq]
    constructor
    · rintro ⟨hseen, hname⟩
      exact ⟨found, rfl, List.contains_iff_mem.mp hcontains, hseen, hname⟩
    · rintro ⟨id, rfl, _, hseen, hname⟩
      exact ⟨hseen, hname⟩

theorem not_seen_of_results {seen : List JsString} {turn : Turn α}
    (h : ∀ msg ∈ turn.2, isNoisy seen (callIds turn.1) (toolCallNames turn.1) msg = false)
    {id : JsString} (hresult : hasResult turn.2 id = true) : id ∉ seen := by
  obtain ⟨r, hmem, hid⟩ := hasResult_iff.mp hresult
  obtain ⟨found, hfound, -, hseen, -⟩ := isNoisy_eq_false_iff.mp (h _ hmem)
  rw [hid] at hfound
  exact Option.some.inj hfound ▸ hseen

theorem map_filter_calls {calls : List ToolCallLike} {p : ToolCallLike → Bool}
    (q : JsString → Bool) (h : ∀ call ∈ calls, p call = q call.id) :
    (calls.filter p).map ToolCallLike.id = (calls.map ToolCallLike.id).filter q := by
  rw [List.filter_map]
  congr 1
  exact List.filter_congr h

theorem turnRepaired_dropped {options : ToolUseResultPairingOptions} {body : JsString → α}
    {turn : Turn α} (s : ToolUseRepair α) (herrored : isErrored turn.1 = true)
    (hdrop : options.shouldDropErroredAssistantResults = true) :
    TurnRepaired options body turn s (s.repairTurn options body turn.1 turn.2) := by
  have hdropped : isDropped options turn = true := by rw [isDropped, herrored, hdrop]; rfl
  rw [ToolUseRepair.repairTurn, if_pos herrored, if_pos hdrop]
  constructor
  · rw [if_pos hdropped, List.append_nil, ← scanOf_remainder s.seenToolResultIds]
    rfl
  · intro id
    rw [answeredIds, if_pos herrored, if_pos hdrop]
    simp
  · exact fun _ _ => rfl
  · apply iff_of_false nofun
    intro h
    exact absurd (hdropped.symm.trans h.2.kept) nofun

/-- The span of the turn has been scanned, and its assistant message written. -/
def ToolUseRepair.writeTurn (s : ToolUseRepair α) (turn : Turn α) : ToolUseRepair α :=
  ToolUseRepair.push
    { s with
      droppedDuplicateCount := s.droppedDuplicateCount +
        (scanOf s.seenToolResultIds turn).droppedDuplicateCount
      droppedOrphanCount := s.droppedOrphanCount +
        (scanOf s.seenToolResultIds turn).droppedOrphanCount
      changed := s.changed || (scanOf s.seenToolResultIds turn).changed }
    (.assistant turn.1)

/-- Results that are put before other messages have been moved. -/
def ToolUseRepair.startTurn (s : ToolUseRepair α) (turn : Turn α) : ToolUseRepair α :=
  if (scanOf s.seenToolResultIds turn).spanResultsById ≠ [] ∧
      (scanOf s.seenToolResultIds turn).remainder ≠ [] then
    { s.writeTurn turn with moved := true, changed := true }
  else s.writeTurn turn

theorem startTurn_spec (s : ToolUseRepair α) (turn : Turn α) :
    (s.startTurn turn).out = s.out ++ [.assistant turn.1] ∧
      (s.startTurn turn).seenToolResultIds = s.seenToolResultIds ∧
      ((s.moved = true → s.changed = true) →
        (s.startTurn turn).moved = true → (s.startTurn turn).changed = true) ∧
      ((s.startTurn turn).changed = false ↔ s.changed = false ∧
        (scanOf s.seenToolResultIds turn).changed = false ∧
        ¬((scanOf s.seenToolResultIds turn).spanResultsById ≠ [] ∧
          (scanOf s.seenToolResultIds turn).remainder ≠ [])) := by
  unfold ToolUseRepair.startTurn
  split
  · rename_i hboth
    exact ⟨rfl, rfl, fun _ _ => rfl, iff_of_false nofun fun h => h.2.2 hboth⟩
  · rename_i hnot
    refine ⟨rfl, rfl, ?_, ?_⟩
    · intro hmoved h
      exact Bool.or_eq_true_iff.mpr (Or.inl (hmoved h))
    · refine Bool.or_eq_false_iff.trans ?_
      rw [and_iff_left hnot]

theorem mem_callIds {assistant : AssistantMessage α} {call : ToolCallLike}
    (hcall : call ∈ extractToolCallsFromAssistant assistant) : call.id ∈ callIds assistant :=
  List.mem_map_of_mem hcall

theorem forall_scanOf_isSome (seen : List JsString) (turn : Turn α) :
    (∀ call ∈ extractToolCallsFromAssistant turn.1,
        ((scanOf seen turn).spanResultsById.get call.id).isSome = true) ↔
      ∀ id ∈ callIds turn.1, id ∉ seen ∧ hasResult turn.2 id = true := by
  constructor
  · intro h id hid
    obtain ⟨call, hcall, rfl⟩ := List.mem_map.mp hid
    exact (scanOf_isSome hid).mp (h call hcall)
  · intro h call hcall
    exact (scanOf_isSome (mem_callIds hcall)).mpr (h call.id (mem_callIds hcall))

theorem turnRepaired_errored {options : ToolUseResultPairingOptions} {body : JsString → α}
    {turn : Turn α} (s : ToolUseRepair α) (herrored : isErrored turn.1 = true)
    (hkeep : options.shouldDropErroredAssistantResults = false) :
    TurnRepaired options body turn s (s.repairTurn options body turn.1 turn.2) := by
  have hkept : isDropped options turn = false := by rw [isDropped, herrored, hkeep]; rfl
  have hfalse : ¬options.shouldDropErroredAssistantResults = true := hkeep ▸ Bool.false_ne_true
  rw [ToolUseRepair.repairTurn, if_pos herrored, if_neg hfalse]
  have hpushed := answered_pushKnown (extractToolCallsFromAssistant turn.1)
    (fun id r h => @extract_scanOf α s.seenToolResultIds turn id r h)
    (s.writeTurn turn)
  constructor
  · rw [if_neg (hkept ▸ Bool.false_ne_true), ← scanOf_remainder s.seenToolResultIds]
    refine congrArg (· ++ _) (hpushed.out.trans ?_)
    rw [blockOf, block_congr (answerFor options body turn)]
    · exact List.append_assoc s.out [.assistant turn.1] _
    · intro call hcall hnew
      rw [scanOf_get, if_pos ⟨mem_callIds hcall, hnew⟩, answerFor, if_pos herrored]
      cases firstResult call.id turn.2 with
      | none => rfl
      | some r => rfl
  · intro id
    rw [answeredIds, if_pos herrored, if_neg hfalse, List.mem_filter]
    refine (hpushed.seen id).trans ?_
    constructor
    · rintro (hin | ⟨call, hcall, rfl, hsome⟩)
      · exact Or.inl hin
      · exact Or.inr ⟨mem_callIds hcall, ((scanOf_isSome (mem_callIds hcall)).mp hsome).2⟩
    · rintro (hin | ⟨hid, hresult⟩)
      · exact Or.inl hin
      · by_cases hseen : id ∈ s.seenToolResultIds
        · exact Or.inl hseen
        · obtain ⟨call, hcall, rfl⟩ := List.mem_map.mp hid
          exact Or.inr ⟨call, hcall, rfl, (scanOf_isSome hid).mpr ⟨hseen, hresult⟩⟩
  · intro hmoved h
    have hs : s.changed = true := hmoved (hpushed.moved ▸ h)
    by_contra hnot
    have hquiet := hpushed.changed.mp (eq_false_of_ne_true hnot)
    exact absurd (Bool.or_eq_false_iff.mp hquiet.1).1 (hs ▸ nofun)
  · refine hpushed.changed.trans ?_
    have hfirst : (s.changed || (scanOf s.seenToolResultIds turn).changed) = false ↔
        s.changed = false ∧ ∀ msg ∈ turn.2,
          isNoisy s.seenToolResultIds (callIds turn.1) (toolCallNames turn.1) msg = false := by
      rw [Bool.or_eq_false_iff, scanOf_changed]
    constructor
    · intro ⟨hclean, _, hnodup, _⟩
      obtain ⟨hs, hresults⟩ := hfirst.mp hclean
      refine ⟨hs, ⟨hresults, hkept, ?_, ?_, ?_⟩⟩
      · rw [map_filter_calls (hasResult turn.2)] at hnodup
        · exact hnodup
        · intro call hcall
          rw [Bool.eq_iff_iff, scanOf_isSome (mem_callIds hcall)]
          exact and_iff_right_of_imp fun hresult => not_seen_of_results hresults hresult
      · exact fun hother => absurd (herrored.symm.trans hother) nofun
      · exact fun hother => absurd (herrored.symm.trans hother) nofun
    · intro ⟨hs, hquiet⟩
      refine ⟨hfirst.mpr ⟨hs, hquiet.results⟩, fun _ _ => trivial, ?_, ?_⟩
      · rw [map_filter_calls (hasResult turn.2)]
        · exact hquiet.once
        · intro call hcall
          rw [Bool.eq_iff_iff, scanOf_isSome (mem_callIds hcall)]
          exact and_iff_right_of_imp fun hresult => not_seen_of_results hquiet.results hresult
      · intro call hcall hsome
        exact ((scanOf_isSome (mem_callIds hcall)).mp hsome).1

theorem turnRepaired_answered {options : ToolUseResultPairingOptions} {body : JsString → α}
    {turn : Turn α} (s : ToolUseRepair α) (hcalls : callIds turn.1 ≠ [])
    (herrored : isErrored turn.1 = false) :
    TurnRepaired options body turn s (s.repairTurn options body turn.1 turn.2) := by
  have hkept : isDropped options turn = false := by rw [isDropped, herrored]; rfl
  have hfalse : ¬isErrored turn.1 = true := herrored ▸ Bool.false_ne_true
  obtain ⟨hout, hseen, hmoved, hchanged⟩ := startTurn_spec s turn
  have hpushed := answered_pushAnswers body options.missingToolResultText
    (extractToolCallsFromAssistant turn.1)
    (fun id r h => @extract_scanOf α s.seenToolResultIds turn id r h)
    (fun call hcall => id_ne_nil hcall) (s.startTurn turn)
  have hrepair : s.repairTurn options body turn.1 turn.2 =
      { ToolUseRepair.pushAnswers body options.missingToolResultText
          (scanOf s.seenToolResultIds turn).spanResultsById
          (extractToolCallsFromAssistant turn.1) (s.startTurn turn) with
        out := (ToolUseRepair.pushAnswers body options.missingToolResultText
          (scanOf s.seenToolResultIds turn).spanResultsById
          (extractToolCallsFromAssistant turn.1) (s.startTurn turn)).out ++
            (scanOf s.seenToolResultIds turn).remainder } := by
    rw [ToolUseRepair.repairTurn, if_neg hfalse]
    rfl
  rw [hrepair]
  constructor
  · rw [if_neg (hkept ▸ Bool.false_ne_true), ← scanOf_remainder s.seenToolResultIds]
    refine congrArg (· ++ _) (hpushed.out.trans ?_)
    rw [blockOf, hout, hseen, block_congr (answerFor options body turn)]
    · exact List.append_assoc s.out [.assistant turn.1] _
    · intro call hcall hnew
      rw [scanOf_get, if_pos ⟨mem_callIds hcall, hnew⟩, answerFor, if_neg hfalse]
      cases firstResult call.id turn.2 with
      | none => rfl
      | some r => rfl
  · intro id
    rw [answeredIds, if_neg hfalse]
    refine (hpushed.seen id).trans ?_
    rw [hseen]
    constructor
    · rintro (hin | ⟨call, hcall, rfl, -⟩)
      · exact Or.inl hin
      · exact Or.inr (mem_callIds hcall)
    · rintro (hin | hid)
      · exact Or.inl hin
      · obtain ⟨call, hcall, rfl⟩ := List.mem_map.mp hid
        exact Or.inr ⟨call, hcall, rfl, by simp⟩
  · intro hs h
    have hfirst : (s.startTurn turn).changed = true := hmoved hs (hpushed.moved ▸ h)
    by_contra hnot
    have hclean := (hpushed.changed.mp (eq_false_of_ne_true hnot)).1
    exact absurd hclean (hfirst ▸ nofun)
  · refine hpushed.changed.trans ?_
    have hids : (extractToolCallsFromAssistant turn.1).filter (fun call =>
        (((scanOf s.seenToolResultIds turn).spanResultsById.get call.id).or
          (some (makeMissingToolResult body call options.missingToolResultText))).isSome) =
        extractToolCallsFromAssistant turn.1 := by
      apply List.filter_eq_self.mpr
      intro call _
      simp
    rw [hids, hchanged, forall_scanOf_isSome, hseen, scanOf_changed, scanOf_remainder]
    constructor
    · intro ⟨⟨hs, hresults, hapart⟩, hanswered, hnodup, _⟩
      refine ⟨hs, ⟨hresults, hkept, ?_, fun _ => hanswered, fun _ => ?_⟩⟩
      · rw [List.filter_eq_self.mpr fun id hid => (hanswered id hid).2]
        exact hnodup
      · obtain ⟨id, hid⟩ := List.exists_mem_of_ne_nil _ hcalls
        have hsome := (scanOf_isSome hid).mpr (hanswered id hid)
        have hne : (scanOf s.seenToolResultIds turn).spanResultsById ≠ [] := by
          intro hnil
          rw [hnil] at hsome
          exact absurd hsome nofun
        have hrest : (turn.2.filter fun m => !isToolResult m) = [] := by
          by_contra hother
          exact hapart ⟨hne, hother⟩
        intro msg hmsg
        have hnone := List.filter_eq_nil_iff.mp hrest msg hmsg
        simpa using hnone
    · intro ⟨hs, hquiet⟩
      have hanswered := hquiet.answered herrored
      refine ⟨⟨hs, hquiet.results, ?_⟩, hanswered, ?_, ?_⟩
      · intro ⟨_, hrest⟩
        apply hrest
        apply List.filter_eq_nil_iff.mpr
        intro msg hmsg
        rw [hquiet.together herrored msg hmsg]
        exact Bool.false_ne_true
      · have honce := hquiet.once
        rw [List.filter_eq_self.mpr fun id hid => (hanswered id hid).2] at honce
        exact honce
      · intro call hcall _
        exact (hanswered call.id (mem_callIds hcall)).1

theorem turnRepaired (options : ToolUseResultPairingOptions) (body : JsString → α)
    {turn : Turn α} (s : ToolUseRepair α) (hcalls : callIds turn.1 ≠ []) :
    TurnRepaired options body turn s (s.repairTurn options body turn.1 turn.2) := by
  rcases Bool.eq_false_or_eq_true (isErrored turn.1) with herrored | hanswered
  · rcases Bool.eq_false_or_eq_true options.shouldDropErroredAssistantResults with hdrop | hkeep
    · exact turnRepaired_dropped s herrored hdrop
    · exact turnRepaired_errored s herrored hkeep
  · exact turnRepaired_answered s hcalls hanswered

end GreenchClaw.Agents
