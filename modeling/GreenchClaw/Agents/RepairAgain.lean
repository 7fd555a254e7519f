import GreenchClaw.Agents.WellPaired

/-!
# Repairing again

What a second repair makes of the output of the first, and the theorem on the whole.
-/

namespace GreenchClaw.Agents

open GreenchClaw.Js

variable {α : Type}

/-! ## What is kept -/

theorem isTakenOut_plain {options : ToolUseResultPairingOptions} {msg : AgentMessage α}
    (h : assistantHasToolCalls msg = false) : isTakenOut options msg = false := by
  cases msg with
  | assistant assistant =>
      have hcalls : (!(extractToolCallsFromAssistant assistant).isEmpty) = false := h
      rw [isTakenOut, hcalls]
      rfl
  | notObject value => rfl
  | toolResult r => rfl
  | other value => rfl

theorem filter_plain (options : ToolUseResultPairingOptions) {front : List (AgentMessage α)}
    (h : ∀ msg ∈ front, assistantHasToolCalls msg = false) :
    front.filter (fun msg => !isToolResult msg && !isTakenOut options msg) =
      front.filter fun msg => !isToolResult msg := by
  apply List.filter_congr
  intro msg hmsg
  rw [isTakenOut_plain (h msg hmsg), Bool.not_false, Bool.and_true]

theorem kept_outOf (options : ToolUseResultPairingOptions) (body : JsString → α)
    (seen : List JsString) {list : List (Turn α)} (h : AreTurns list) :
    (outOf options body seen list).filter (fun msg => !isToolResult msg) =
      (list.flatMap Turn.messages).filter fun msg =>
        !isToolResult msg && !isTakenOut options msg := by
  induction list generalizing seen with
  | nil => rfl
  | cons turn list ih =>
      obtain ⟨hcalls, hspan⟩ := h turn List.mem_cons_self
      have hfull : (extractToolCallsFromAssistant turn.1).isEmpty = false :=
        List.isEmpty_eq_false_iff.mpr fun hnil => hcalls (List.map_eq_nil_iff.mpr hnil)
      have hout : isTakenOut options (.assistant turn.1) = isDropped options turn := by
        rw [isTakenOut, hfull, isDropped]
        rfl
      have hblock : ((blockOf options body seen turn).map AgentMessage.toolResult).filter
          (fun msg => !isToolResult msg) = [] := by
        apply List.filter_eq_nil_iff.mpr
        intro msg hmsg
        obtain ⟨r, -, rfl⟩ := List.mem_map.mp hmsg
        exact Bool.false_ne_true
      have hrest : (restOf turn).filter (fun msg => !isToolResult msg) =
          turn.2.filter fun msg => !isToolResult msg && !isTakenOut options msg := by
        rw [restOf, List.filter_filter, filter_plain options hspan]
        simp only [Bool.and_self]
      have hself : isToolResult (AgentMessage.assistant turn.1) = false := rfl
      rw [outOf, List.flatMap_cons, Turn.messages, List.filter_append, List.filter_append,
        ih _ h.tail, hrest, List.filter_append]
      refine congrArg (· ++ _) ?_
      rw [List.filter_cons, hout, hself]
      by_cases hdropped : isDropped options turn = true
      · simp [hdropped]
      · rw [if_neg hdropped, List.filter_cons_of_pos rfl, hblock, eq_false_of_ne_true hdropped]
        rfl

theorem kept_repairedOut (options : ToolUseResultPairingOptions) (body : JsString → α)
    (messages : List (AgentMessage α)) :
    (repairedOut options body messages).filter (fun msg => !isToolResult msg) =
      messages.filter fun msg => !isToolResult msg && !isTakenOut options msg := by
  have hsplit := congrArg (List.filter fun msg => !isToolResult msg && !isTakenOut options msg)
    (turns_join messages)
  rw [← hsplit, repairedOut, List.filter_append, List.filter_append,
    kept_outOf options body [] (areTurns_turns messages),
    filter_plain options (turns_fst_plain messages), List.filter_filter]
  simp only [Bool.and_self]

/-! ## A block that is repaired again -/

theorem normalizeOptionalString_of_eq_some {value : Option JsString} {s : JsString}
    (h : normalizeOptionalString value = some s) : normalizeOptionalString (some s) = some s := by
  cases value with
  | none => cases h
  | some text =>
      rw [normalizeOptionalString] at h
      split at h
      · cases h
      · rename_i hne
        rw [← Option.some.inj h, normalizeOptionalString, trim_trim, if_neg hne]

theorem normalizeToolResultName_twice (r : ToolResultMessage α) (name : Option JsString) :
    normalizeToolResultName (normalizeToolResultName r name) name =
      normalizeToolResultName r name := by
  have hnamed {s : JsString} (h : normalizeOptionalString (some s) = some s) :
      normalizeToolResultName { r with toolName := some s } name =
        { r with toolName := some s } := by
    rw [normalizeToolResultName, h]
    exact if_pos rfl
  have hunknown : normalizeOptionalString (some (js "unknown")) = some (js "unknown") := by
    decide +kernel
  rcases Option.eq_none_or_eq_some (normalizeOptionalString r.toolName) with hblank | ⟨s, hs⟩
  · rcases Option.eq_none_or_eq_some (normalizeOptionalString name) with hno | ⟨f, hf⟩
    · by_cases hstring : r.toolName.isSome = true
      · have hfirst : normalizeToolResultName r name =
            { r with toolName := some (js "unknown") } := by
          rw [normalizeToolResultName, hblank, hno]
          exact if_pos hstring
        rw [hfirst, hnamed hunknown]
      · have hfirst : normalizeToolResultName r name = r := by
          rw [normalizeToolResultName, hblank, hno]
          exact if_neg hstring
        rw [hfirst, hfirst]
    · have hfirst : normalizeToolResultName r name = { r with toolName := some f } := by
        rw [normalizeToolResultName, hblank, hf]
      rw [hfirst, hnamed (normalizeOptionalString_of_eq_some hf)]
  · have hfirst : normalizeToolResultName r name = { r with toolName := some s } := by
      rw [normalizeToolResultName, hs]
      dsimp only
      split
      · rename_i hsame
        rw [← hsame]
      · rfl
    rw [hfirst, hnamed (normalizeOptionalString_of_eq_some hs)]

theorem normalize_makeMissing_iff (body : JsString → α) (call : ToolCallLike)
    (text name : Option JsString) :
    normalizeToolResultName (makeMissingToolResult body call text) name =
        makeMissingToolResult body call text ↔
      (call.name = none ∨ normalizeOptionalString call.name = call.name) := by
  have hunknown : normalizeOptionalString (some (js "unknown")) = some (js "unknown") := by
    decide +kernel
  cases hname : call.name with
  | none =>
      apply iff_of_true _ (Or.inl rfl)
      have htool : (makeMissingToolResult body call text).toolName = some (js "unknown") := by
        rw [makeMissingToolResult, hname]
        rfl
      rw [normalizeToolResultName, htool, hunknown]
      exact if_pos rfl
  | some n =>
      have htool : (makeMissingToolResult body call text).toolName = some n := by
        rw [makeMissingToolResult, hname]
        rfl
      rw [normalizeToolResultName, htool]
      rcases Option.eq_none_or_eq_some (normalizeOptionalString (some n)) with hblank | ⟨s, hs⟩
      · rw [hblank]
        apply iff_of_false
        · intro heq
          have hfield := congrArg ToolResultMessage.toolName heq
          rw [htool] at hfield
          rcases Option.eq_none_or_eq_some (normalizeOptionalString name) with hno | ⟨f, hf⟩
          · rw [hno] at hfield
            have hn : some (js "unknown") = some n := hfield
            rw [← hn, hunknown] at hblank
            cases hblank
          · rw [hf] at hfield
            have hn : some f = some n := hfield
            rw [← hn] at hblank
            have hagain := normalizeOptionalString_of_eq_some hf
            rw [hagain] at hblank
            cases hblank
        · rintro (hnone | hsame)
          · cases hnone
          · cases hsame
      · rw [hs]
        dsimp only
        constructor
        · intro heq
          right
          by_contra hne
          rw [if_neg fun h => hne h.symm] at heq
          have hfield := congrArg ToolResultMessage.toolName heq
          rw [htool] at hfield
          exact hne hfield
        · rintro (hnone | hsame)
          · cases hnone
          · exact if_pos hsame.symm

def renamed (assistant : AssistantMessage α) (r : ToolResultMessage α) : ToolResultMessage α :=
  normalizeToolResultName r ((extractToolResultId r).bind fun id => (toolCallNames assistant).get id)

theorem block_again {answer answer' : ToolCallLike → Option (ToolResultMessage α)}
    {f : ToolResultMessage α → ToolResultMessage α} (total done : List (ToolResultMessage α))
    {seen : List JsString} {calls : List ToolCallLike}
    (hids : ∀ call ∈ calls, ∀ r, answer call = some r → extractToolResultId r = some call.id)
    (hsame : ∀ call ∈ calls, ∀ other ∈ calls, call.id = other.id →
      (answer call = none ↔ answer other = none))
    (htotal : total = done ++ block answer seen calls)
    (hdone : ∀ r ∈ done, ∀ id, extractToolResultId r = some id → id ∈ seen)
    (hfound : ∀ call ∈ calls, ∀ r, total.find? (fun r => extractToolResultId r = some call.id) =
      some r → answer' call = some (f r))
    (hmissing : ∀ call ∈ calls, total.find? (fun r => extractToolResultId r = some call.id) = none →
      answer call = none → answer' call = none) :
    block answer' seen calls = (block answer seen calls).map f := by
  induction calls generalizing seen done with
  | nil => rfl
  | cons call calls ih =>
      have hmem {c : ToolCallLike} (hc : c ∈ calls) : c ∈ call :: calls :=
        List.mem_cons_of_mem call hc
      have htail {seen : List JsString} (done : List (ToolResultMessage α))
          (htotal : total = done ++ block answer seen calls)
          (hdone : ∀ r ∈ done, ∀ id, extractToolResultId r = some id → id ∈ seen) :
          block answer' seen calls = (block answer seen calls).map f :=
        ih done (fun c hc => hids c (hmem hc))
          (fun c hc other ho => hsame c (hmem hc) other (hmem ho)) htotal hdone
          (fun c hc => hfound c (hmem hc)) (fun c hc => hmissing c (hmem hc))
      have hnotDone (hseen : call.id ∉ seen) :
          done.find? (fun r => extractToolResultId r = some call.id) = none := by
        apply List.find?_eq_none.mpr
        intro r hr hid
        exact hseen (hdone r hr call.id (of_decide_eq_true hid))
      rw [block] at htotal
      rw [block, block]
      by_cases hseen : call.id ∈ seen
      · rw [if_pos hseen] at htotal ⊢
        rw [if_pos hseen]
        exact htail done htotal hdone
      · rw [if_neg hseen] at htotal ⊢
        rw [if_neg hseen]
        cases hanswer : answer call with
        | none =>
            rw [hanswer] at htotal
            have hnowhere : total.find? (fun r => extractToolResultId r = some call.id) = none := by
              rw [htotal, List.find?_append, hnotDone hseen, Option.none_or]
              apply List.find?_eq_none.mpr
              intro r hr hid
              obtain ⟨c, hc, -, hc'⟩ := mem_block hr
              have hcid := hids c (hmem hc) r hc'
              rw [of_decide_eq_true hid] at hcid
              have hnone := (hsame call List.mem_cons_self c (hmem hc)
                (Option.some.inj hcid)).mp hanswer
              rw [hnone] at hc'
              cases hc'
            rw [hmissing call List.mem_cons_self hnowhere hanswer]
            exact htail done htotal hdone
        | some r =>
            rw [hanswer] at htotal
            have hid := hids call List.mem_cons_self r hanswer
            have hhere : total.find? (fun r => extractToolResultId r = some call.id) = some r := by
              rw [htotal, List.find?_append, hnotDone hseen, Option.none_or,
                List.find?_cons_of_pos (by simp [hid])]
            rw [hfound call List.mem_cons_self r hhere]
            refine congrArg (f r :: ·) (htail (done ++ [r]) ?_ ?_)
            · rw [htotal, List.append_assoc]
              rfl
            · intro found hmemdone id hfid
              rcases List.mem_append.mp hmemdone with hold | hnew
              · exact List.mem_append_left _ (hdone found hold id hfid)
              · rw [List.mem_singleton.mp hnew, hid] at hfid
                rw [← Option.some.inj hfid]
                exact List.mem_append_right _ (List.mem_singleton.mpr rfl)

section Again

variable (options : ToolUseResultPairingOptions) (body body' : JsString → α)
  (seen : List JsString) (turn : Turn α) {tail : List (AgentMessage α)}

def withBlock (tail : List (AgentMessage α)) : Turn α :=
  (turn.1, (blockOf options body seen turn).map AgentMessage.toolResult ++ tail)

theorem firstResult_withBlock (htail : ∀ msg ∈ tail, isToolResult msg = false) (id : JsString) :
    firstResult id (withBlock options body seen turn tail).2 =
      (blockOf options body seen turn).find? fun r => extractToolResultId r = some id := by
  have hnone : tail.findSome? (resultFor id) = none := by
    apply List.findSome?_eq_none_iff.mpr
    intro msg hmsg
    have hplain := htail msg hmsg
    cases msg with
    | toolResult r => exact absurd hplain nofun
    | notObject value => rfl
    | assistant message => rfl
    | other value => rfl
  rw [firstResult, withBlock, List.findSome?_append, hnone, Option.or_none]
  induction blockOf options body seen turn with
  | nil => rfl
  | cons r rest ih =>
      rw [List.map_cons, List.findSome?_cons, List.find?_cons, resultFor]
      by_cases hid : extractToolResultId r = some id
      · simp [hid]
      · simp [hid, ih]

theorem answerFor_eq_none_iff (call : ToolCallLike) :
    answerFor options body turn call = none ↔
      firstResult call.id turn.2 = none ∧ isErrored turn.1 = true := by
  rw [answerFor]
  cases firstResult call.id turn.2 with
  | some r => simp
  | none => simp

theorem blockOf_withBlock (htail : ∀ msg ∈ tail, isToolResult msg = false) :
    blockOf options body' seen (withBlock options body seen turn tail) =
      (blockOf options body seen turn).map (renamed turn.1) := by
  apply block_again (blockOf options body seen turn) []
  · exact fun call hcall r h => extract_answerFor (id_ne_nil hcall) h
  · intro call _ other _ hid
    rw [answerFor_eq_none_iff, answerFor_eq_none_iff, hid]
  · rfl
  · exact fun r hr => absurd hr List.not_mem_nil
  · intro call _ r hfind
    rw [answerFor, firstResult_withBlock options body seen turn htail, hfind]
    have hid : extractToolResultId r = some call.id := by simpa using List.find?_some hfind
    rw [renamed, hid]
    rfl
  · intro call _ hfind hnone
    rw [answerFor, firstResult_withBlock options body seen turn htail, hfind]
    exact if_pos ((answerFor_eq_none_iff options body turn call).mp hnone).2

theorem restOf_withBlock (htail : ∀ msg ∈ tail, isToolResult msg = false) :
    restOf (withBlock options body seen turn tail) = tail := by
  have hblock : ((blockOf options body seen turn).map AgentMessage.toolResult).filter
      (fun msg => !isToolResult msg) = [] := by
    apply List.filter_eq_nil_iff.mpr
    intro msg hmsg
    obtain ⟨r, -, rfl⟩ := List.mem_map.mp hmsg
    exact Bool.false_ne_true
  rw [restOf, withBlock, List.filter_append, hblock, List.nil_append]
  apply List.filter_eq_self.mpr
  intro msg hmsg
  rw [htail msg hmsg]
  rfl

theorem answeredIds_withBlock (hkept : isDropped options turn = false)
    (htail : ∀ msg ∈ tail, isToolResult msg = false) (id : JsString) :
    (id ∈ seen ∨ id ∈ answeredIds options (withBlock options body seen turn tail)) ↔
      (id ∈ seen ∨ id ∈ answeredIds options turn) := by
  by_cases herrored : isErrored turn.1 = true
  · have hkeep : ¬options.shouldDropErroredAssistantResults = true := by
      intro hdrop
      rw [isDropped, herrored, hdrop] at hkept
      cases hkept
    have hself : isErrored (withBlock options body seen turn tail).1 = true := herrored
    rw [answeredIds, answeredIds, if_pos hself, if_pos herrored, if_neg hkeep, if_neg hkeep,
      List.mem_filter, List.mem_filter]
    by_cases hseen : id ∈ seen
    · exact iff_of_true (Or.inl hseen) (Or.inl hseen)
    · rw [or_iff_right hseen, or_iff_right hseen]
      refine and_congr_right fun hid => ?_
      obtain ⟨call, hcall, rfl⟩ := List.mem_map.mp hid
      rw [hasResult, firstResult_withBlock options body seen turn htail, hasResult,
        List.find?_isSome]
      constructor
      · rintro ⟨r, hr, hrid⟩
        obtain ⟨found, -, -, hanswer, hfid⟩ := extract_blockOf options body seen turn hr
        rw [of_decide_eq_true hrid] at hfid
        by_contra hnone
        have hgone : answerFor options body turn found = none := by
          rw [answerFor_eq_none_iff, ← Option.some.inj hfid]
          exact ⟨by simpa using hnone, herrored⟩
        rw [hgone] at hanswer
        cases hanswer
      · intro hsome
        have hids : ∀ c ∈ extractToolCallsFromAssistant turn.1, ∀ r,
            answerFor options body turn c = some r → extractToolResultId r = some c.id :=
          fun c hc r h => extract_answerFor (id_ne_nil hc) h
        have hcount := @count_block α _ seen _ hids call.id
        rw [if_pos] at hcount
        · have hpos : 0 < (block (answerFor options body turn) seen
              (extractToolCallsFromAssistant turn.1)).countP
                (fun r => decide (extractToolResultId r = some call.id)) := by omega
          obtain ⟨r, hr, hrid⟩ := List.countP_pos_iff.mp hpos
          exact ⟨r, hr, hrid⟩
        · refine ⟨hseen, call, hcall, rfl, ?_⟩
          rw [Option.isSome_iff_ne_none]
          intro hnone
          have hgone := ((answerFor_eq_none_iff options body turn call).mp hnone).1
          rw [hgone] at hsome
          cases hsome
  · have hself : ¬isErrored (withBlock options body seen turn tail).1 = true := herrored
    rw [answeredIds, answeredIds, if_neg hself, if_neg herrored]
    exact Iff.rfl

end Again

/-! ## A second repair -/

def KeepNames (options : ToolUseResultPairingOptions) (body : JsString → α) :
    List JsString → List (Turn α) → Prop
  | _, [] => True
  | seen, turn :: rest =>
      (isDropped options turn = false →
        ∀ r ∈ blockOf options body seen turn, renamed turn.1 r = r) ∧
        KeepNames options body (seen ++ answeredIds options turn) rest

theorem outOf_again_iff (options : ToolUseResultPairingOptions) (body body' : JsString → α)
    {seen seen' : List JsString} (hseen : ∀ id, id ∈ seen' ↔ id ∈ seen) (list : List (Turn α)) :
    (outTurns options body seen list).1 ++
        outOf options body' seen' (outTurns options body seen list).2 =
      outOf options body seen list ↔ KeepNames options body seen list := by
  induction list generalizing seen seen' with
  | nil => exact iff_of_true rfl trivial
  | cons turn list ih =>
      rw [outOf, outTurns, KeepNames]
      by_cases hdropped : isDropped options turn = true
      · simp only [if_pos hdropped]
        have hnext : ∀ id, id ∈ seen' ↔ id ∈ seen ++ answeredIds options turn := by
          have herrored := (Bool.and_eq_true_iff.mp hdropped).1
          have hdrop := (Bool.and_eq_true_iff.mp hdropped).2
          intro id
          rw [answeredIds, if_pos herrored, if_pos hdrop, List.append_nil, hseen id]
        rw [List.nil_append, List.append_assoc, List.append_cancel_left_eq, ih hnext]
        exact (and_iff_right fun (h : isDropped options turn = false) =>
          Bool.noConfusion (hdropped.symm.trans h)).symm
      · have hkept := eq_false_of_ne_true hdropped
        simp only [if_neg hdropped]
        have htail := @tail_plain α options body turn
          (seen ++ answeredIds options turn) list
        have hnext : ∀ id, id ∈ seen' ++ answeredIds options
            (withBlock options body seen turn (restOf turn ++
              (outTurns options body (seen ++ answeredIds options turn) list).1)) ↔
            id ∈ seen ++ answeredIds options turn := by
          intro id
          rw [List.mem_append, List.mem_append, hseen id,
            answeredIds_withBlock options body seen turn hkept htail]
        have hself : isDropped options (withBlock options body seen turn (restOf turn ++
            (outTurns options body (seen ++ answeredIds options turn) list).1)) = false := hkept
        have hsecond := ih hnext
        have hblock := blockOf_withBlock options body body' seen turn htail
        have hfirst : outOf options body' seen' ((turn.1,
            (blockOf options body seen turn).map AgentMessage.toolResult ++ (restOf turn ++
              (outTurns options body (seen ++ answeredIds options turn) list).1)) ::
            (outTurns options body (seen ++ answeredIds options turn) list).2) =
            AgentMessage.assistant turn.1 ::
              (((blockOf options body seen turn).map (renamed turn.1)).map
                AgentMessage.toolResult ++
              (restOf turn ++ ((outTurns options body (seen ++ answeredIds options turn) list).1 ++
                outOf options body' (seen' ++ answeredIds options
                  (withBlock options body seen turn (restOf turn ++
                    (outTurns options body (seen ++ answeredIds options turn) list).1)))
                  (outTurns options body (seen ++ answeredIds options turn) list).2))) := by
          have hcons := outOf.eq_2 options body' seen' (withBlock options body seen turn
            (restOf turn ++ (outTurns options body (seen ++ answeredIds options turn) list).1))
            (outTurns options body (seen ++ answeredIds options turn) list).2
          rw [if_neg (hself ▸ Bool.false_ne_true),
            restOf_withBlock options body seen turn htail] at hcons
          refine hcons.trans ?_
          rw [blockOf, block_seen _ hseen, ← blockOf, hblock]
          simp only [List.cons_append, List.append_assoc]
          rfl
        rw [List.nil_append, hfirst, List.append_assoc, List.cons_append, List.cons.injEq,
          and_iff_right rfl]
        constructor
        · intro heq
          have hlength : (((blockOf options body seen turn).map (renamed turn.1)).map
              AgentMessage.toolResult).length =
              ((blockOf options body seen turn).map
                (AgentMessage.toolResult (α := α))).length := by
            simp only [List.length_map]
          obtain ⟨hblocks, hrests⟩ := List.append_inj heq hlength
          refine ⟨fun _ r hr => ?_, hsecond.mp (List.append_cancel_left hrests)⟩
          have hsame : (blockOf options body seen turn).map (renamed turn.1) =
              blockOf options body seen turn := by
            apply List.map_injective_iff.mpr _ hblocks
            intro a b hab
            exact AgentMessage.toolResult.inj hab
          have hself' : (blockOf options body seen turn).map (renamed turn.1) =
              (blockOf options body seen turn).map id := by rw [hsame, List.map_id]
          exact List.map_inj_left.mp hself' r hr
        · rintro ⟨hnames, hrest⟩
          have hsame : (blockOf options body seen turn).map (renamed turn.1) =
              blockOf options body seen turn := by
            calc
              _ = (blockOf options body seen turn).map id := List.map_inj_left.mpr (hnames hkept)
              _ = _ := List.map_id _
          rw [hsame, hsecond.mpr hrest]

theorem mem_block_iff {answer : ToolCallLike → Option (ToolResultMessage α)}
    {seen : List JsString} {calls : List ToolCallLike} {r : ToolResultMessage α}
    (hall : ∀ call ∈ calls, (answer call).isSome = true) :
    r ∈ block answer seen calls ↔ ∃ call ∈ calls, call.id ∉ seen ∧
      calls.find? (fun c => c.id = call.id) = some call ∧ answer call = some r := by
  induction calls generalizing seen with
  | nil => simp [block]
  | cons call calls ih =>
      have htail := fun c hc => hall c (List.mem_cons_of_mem call hc)
      have hfind (c : ToolCallLike) :
          (call :: calls).find? (fun other => other.id = c.id) =
            if call.id = c.id then some call else calls.find? fun other => other.id = c.id := by
        rw [List.find?_cons]
        by_cases hid : call.id = c.id
        · simp [hid]
        · simp [hid]
      rw [block]
      by_cases hseen : call.id ∈ seen
      · rw [if_pos hseen, ih htail]
        constructor
        · rintro ⟨c, hc, hnew, hfirst, hanswer⟩
          refine ⟨c, List.mem_cons_of_mem call hc, hnew, ?_, hanswer⟩
          have hother : ¬call.id = c.id := fun heq => hnew (heq ▸ hseen)
          rw [hfind, if_neg hother]
          exact hfirst
        · rintro ⟨c, hc, hnew, hfirst, hanswer⟩
          have hother : ¬call.id = c.id := fun h => hnew (h ▸ hseen)
          rw [hfind, if_neg hother] at hfirst
          exact ⟨c, List.mem_of_find?_eq_some hfirst, hnew, hfirst, hanswer⟩
      · rw [if_neg hseen]
        obtain ⟨found, hfound⟩ := Option.isSome_iff_exists.mp (hall call List.mem_cons_self)
        rw [hfound]
        dsimp only
        rw [List.mem_cons, ih htail]
        constructor
        · rintro (rfl | ⟨c, hc, hnew, hfirst, hanswer⟩)
          · exact ⟨call, List.mem_cons_self, hseen, by rw [hfind, if_pos rfl], hfound⟩
          · rw [List.mem_append, List.mem_singleton, not_or] at hnew
            refine ⟨c, List.mem_cons_of_mem call hc, hnew.1, ?_, hanswer⟩
            rw [hfind, if_neg fun h => hnew.2 h.symm]
            exact hfirst
        · rintro ⟨c, hc, hnew, hfirst, hanswer⟩
          rw [hfind] at hfirst
          by_cases hid : call.id = c.id
          · rw [if_pos hid] at hfirst
            rw [← Option.some.inj hfirst, hfound] at hanswer
            exact Or.inl (Option.some.inj hanswer).symm
          · rw [if_neg hid] at hfirst
            refine Or.inr ⟨c, List.mem_of_find?_eq_some hfirst, ?_, hfirst, hanswer⟩
            rw [List.mem_append, List.mem_singleton, not_or]
            exact ⟨hnew, fun h => hid h.symm⟩

theorem renamed_real {options : ToolUseResultPairingOptions} {body : JsString → α}
    {turn : Turn α} {call : ToolCallLike} {found r : ToolResultMessage α}
    (hfirst : firstResult call.id turn.2 = some found)
    (hanswer : answerFor options body turn call = some r) : renamed turn.1 r = r := by
  have hr : normalizeToolResultName found ((toolCallNames turn.1).get call.id) = r := by
    rw [answerFor, hfirst] at hanswer
    exact Option.some.inj hanswer
  rw [renamed, ← hr, extractToolResultId_normalize, extract_firstResult hfirst]
  exact normalizeToolResultName_twice _ _

theorem keepsNames_turn_iff (options : ToolUseResultPairingOptions) (body : JsString → α)
    {seen : List JsString} {turn : Turn α}
    (hfresh : isErrored turn.1 = false → ∀ id ∈ callIds turn.1, id ∉ seen) :
    (isDropped options turn = false →
      ∀ r ∈ blockOf options body seen turn, renamed turn.1 r = r) ↔ NamedWell turn := by
  have hreal {call : ToolCallLike} {r : ToolResultMessage α}
      (hresult : hasResult turn.2 call.id = true)
      (hanswer : answerFor options body turn call = some r) : renamed turn.1 r = r := by
    obtain ⟨found, hfound⟩ := Option.isSome_iff_exists.mp hresult
    exact renamed_real hfound hanswer
  by_cases herrored : isErrored turn.1 = true
  · apply iff_of_true
    · intro _ r hr
      obtain ⟨call, -, -, hanswer, -⟩ := extract_blockOf options body seen turn hr
      apply hreal _ hanswer
      by_contra hnone
      have hgone : answerFor options body turn call = none := by
        rw [answerFor_eq_none_iff]
        refine ⟨?_, herrored⟩
        rw [hasResult] at hnone
        simpa using hnone
      rw [hgone] at hanswer
      cases hanswer
    · exact fun h => Bool.noConfusion (herrored.symm.trans h)
  · have hclean := eq_false_of_ne_true herrored
    have hkept : isDropped options turn = false := by rw [isDropped, hclean]; rfl
    have hall : ∀ call ∈ extractToolCallsFromAssistant turn.1,
        (answerFor options body turn call).isSome = true :=
      fun call _ => answerFor_isSome options body turn hclean call
    have hmissing {call : ToolCallLike} (hcall : call ∈ extractToolCallsFromAssistant turn.1)
        (hresult : hasResult turn.2 call.id = false) :
        answerFor options body turn call =
            some (makeMissingToolResult body call options.missingToolResultText) ∧
          (renamed turn.1 (makeMissingToolResult body call options.missingToolResultText) =
            makeMissingToolResult body call options.missingToolResultText ↔
              (call.name = none ∨ normalizeOptionalString call.name = call.name)) := by
      have hnone : firstResult call.id turn.2 = none := by
        rw [hasResult] at hresult
        simpa using hresult
      refine ⟨?_, ?_⟩
      · rw [answerFor, hnone]
        exact if_neg herrored
      · rw [renamed, extract_makeMissing body _ (id_ne_nil hcall)]
        exact normalize_makeMissing_iff body call _ _
    constructor
    · intro h _ call hcall hfirst hresult
      obtain ⟨hanswer, hiff⟩ := hmissing hcall hresult
      apply hiff.mp
      apply h hkept
      apply (mem_block_iff hall).mpr
      exact ⟨call, hcall, hfresh hclean _ (List.mem_map_of_mem hcall), hfirst, hanswer⟩
    · intro h _ r hr
      obtain ⟨call, hcall, -, hfirst, hanswer⟩ := (mem_block_iff hall).mp hr
      rcases Bool.eq_false_or_eq_true (hasResult turn.2 call.id) with hresult | hresult
      · exact hreal hresult hanswer
      · obtain ⟨hmade, hiff⟩ := hmissing hcall hresult
        rw [hmade] at hanswer
        rw [← Option.some.inj hanswer]
        exact hiff.mpr (h hclean call hcall hfirst hresult)

theorem keepNames_iff (options : ToolUseResultPairingOptions) (body : JsString → α)
    {seen : List JsString} {list : List (Turn α)} (hfresh : Fresh options seen list) :
    KeepNames options body seen list ↔ ∀ turn ∈ list, NamedWell turn := by
  induction list generalizing seen with
  | nil => exact iff_of_true trivial fun turn h => absurd h List.not_mem_nil
  | cons turn list ih =>
      rw [KeepNames, keepsNames_turn_iff options body hfresh.1, ih hfresh.2, List.forall_mem_cons]

/-! ## The theorem -/

theorem AllQuiet.forall {options : ToolUseResultPairingOptions} {seen : List JsString}
    {list : List (Turn α)} (h : AllQuiet options seen list) :
    ∀ turn ∈ list, ∃ seen, Quiet options seen turn := by
  induction list generalizing seen with
  | nil => exact fun turn hturn => absurd hturn List.not_mem_nil
  | cons turn list ih =>
      intro t ht
      rcases List.mem_cons.mp ht with rfl | hrest
      · exact ⟨seen, h.1⟩
      · exact ih h.2 t hrest

theorem AllQuiet.fresh {options : ToolUseResultPairingOptions} {seen : List JsString}
    {list : List (Turn α)} (h : AllQuiet options seen list) : Fresh options seen list := by
  induction list generalizing seen with
  | nil => trivial
  | cons turn list ih =>
      exact ⟨fun herrored id hid => (h.1.answered herrored id hid).1, ih h.2⟩

theorem Quiet.namedWell {options : ToolUseResultPairingOptions} {seen : List JsString}
    {turn : Turn α} (h : Quiet options seen turn) : NamedWell turn := by
  intro herrored call hcall _ hnone
  have hresult := (h.answered herrored call.id (List.mem_map_of_mem hcall)).2
  exact absurd (hresult.symm.trans hnone) nofun

theorem Quiet.real {options : ToolUseResultPairingOptions} {seen : List JsString} {turn : Turn α}
    (h : Quiet options seen turn) {r : ToolResultMessage α} (hr : .toolResult r ∈ turn.2) :
    (∃ id ∈ callIds turn.1, extractToolResultId r = some id) ∧ renamed turn.1 r = r := by
  obtain ⟨id, hid, hmem, -, hname⟩ := isNoisy_eq_false_iff.mp (h.results _ hr)
  refine ⟨⟨id, hmem, hid⟩, ?_⟩
  have hsame (name : Option JsString)
      (hname : (normalizeToolResultName r name).toolName = r.toolName) :
      normalizeToolResultName r name = r := by
    have hother : normalizeToolResultName r name =
        { r with toolName := (normalizeToolResultName r name).toolName } := by
      rw [normalizeToolResultName]
      split
      · split <;> rfl
      · split
        · rfl
        · split <;> rfl
    rw [hother, hname]
  rw [renamed, hid]
  exact hsame _ hname

theorem Tidy.kept {options : ToolUseResultPairingOptions} {messages : List (AgentMessage α)}
    (h : Tidy options messages) :
    messages.filter (fun msg => !isToolResult msg) =
      messages.filter fun msg => !isToolResult msg && !isTakenOut options msg := by
  apply List.filter_congr
  intro msg hmsg
  have hstays : isTakenOut options msg = false := by
    rw [← turns_join messages] at hmsg
    rcases List.mem_append.mp hmsg with hlead | hturns
    · exact isTakenOut_plain (turns_fst_plain messages msg hlead)
    · obtain ⟨turn, hturn, hin⟩ := List.mem_flatMap.mp hturns
      obtain ⟨seen, hquiet⟩ := h.2.forall turn hturn
      rcases List.mem_cons.mp hin with rfl | hspan
      · have hkept := hquiet.kept
        rw [isDropped] at hkept
        rw [isTakenOut, Bool.and_assoc, hkept, Bool.and_false]
      · exact isTakenOut_plain ((areTurns_turns messages turn hturn).2 msg hspan)
  rw [hstays, Bool.not_false, Bool.and_true]

theorem takeWhile_together {span : List (AgentMessage α)}
    (h : ∀ msg ∈ span, isToolResult msg = true) : span.takeWhile isToolResult = span :=
  List.takeWhile_eq_self_iff.mpr h

theorem wellPaired_tidy_iff (options : ToolUseResultPairingOptions) (body : JsString → α)
    {messages : List (AgentMessage α)} (h : Tidy options messages) :
    WellPaired options body messages messages ↔ ∀ turn ∈ (turns messages).2, InPlace turn := by
  constructor
  · intro hpaired turn hturn
    obtain ⟨seen, hquiet⟩ := h.2.forall turn hturn
    refine ⟨?_, (hpaired.placed.2 turn hturn).1⟩
    intro herrored id hid
    have honce := hpaired.answered turn hturn herrored id hid
    rw [answersTo, takeWhile_together (hquiet.together herrored)] at honce
    exact Nat.le_of_eq honce
  · intro hplace
    constructor
    · intro turn hturn herrored id hid
      obtain ⟨seen, hquiet⟩ := h.2.forall turn hturn
      have hmost := (hplace turn hturn).1 herrored id hid
      have hresult := (hquiet.answered herrored id hid).2
      rw [hasResult, firstResult, List.findSome?_isSome_iff] at hresult
      obtain ⟨msg, hmem, hsome⟩ := hresult
      have hleast : 0 < turn.2.countP fun msg => (resultFor id msg).isSome :=
        List.countP_pos_iff.mpr ⟨msg, hmem, hsome⟩
      rw [answersTo, takeWhile_together (hquiet.together herrored)]
      omega
    · refine ⟨h.1, fun turn hturn => ⟨(hplace turn hturn).2, fun r hr => ?_⟩⟩
      obtain ⟨seen, hquiet⟩ := h.2.forall turn hturn
      exact (hquiet.real hr).1
    · exact h.kept
    · have hall : (turns messages).2.filter (fun turn => !isDropped options turn) =
          (turns messages).2 := by
        apply List.filter_eq_self.mpr
        intro turn hturn
        obtain ⟨seen, hquiet⟩ := h.2.forall turn hturn
        rw [hquiet.kept]
        rfl
      rw [hall, List.forall₂_same]
      intro turn hturn
      obtain ⟨seen, hquiet⟩ := h.2.forall turn hturn
      exact ⟨rfl, fun r hr => Or.inl ⟨r, _, hr, (hquiet.real hr).2.symm⟩⟩
    · intro body'
      rcases repair_eq options body' messages with ⟨-, hsame⟩ | ⟨hnot, -⟩
      · exact hsame
      · exact absurd h hnot

theorem keepNames_of_renamed {options : ToolUseResultPairingOptions} {body : JsString → α}
    {seen : List JsString} {list : List (Turn α)}
    (h : ∀ put ∈ (outTurns options body seen list).2,
      ∀ r, .toolResult r ∈ put.2 → renamed put.1 r = r) :
    KeepNames options body seen list := by
  induction list generalizing seen with
  | nil => trivial
  | cons turn list ih =>
      rw [outTurns] at h
      by_cases hdropped : isDropped options turn = true
      · simp only [if_pos hdropped] at h
        exact ⟨fun hkept => Bool.noConfusion (hdropped.symm.trans hkept), ih h⟩
      · simp only [if_neg hdropped] at h
        rw [List.forall_mem_cons] at h
        refine ⟨fun _ r hr => ?_, ih h.2⟩
        exact h.1 r (List.mem_append_left _ (List.mem_map_of_mem hr))

theorem stable_iff (options : ToolUseResultPairingOptions) (body : JsString → α)
    (messages : List (AgentMessage α)) :
    (∀ body', (repairToolUseResultPairing options body' (repairedOut options body messages)).messages
        = repairedOut options body messages) ↔
      KeepNames options body [] (turns messages).2 := by
  have hturns := turns_repairedOut options body messages
  have hfront : ((turns messages).1.filter (fun m => !isToolResult m) ++
      (outTurns options body [] (turns messages).2).1).filter (fun m => !isToolResult m) =
      (turns messages).1.filter (fun m => !isToolResult m) ++
        (outTurns options body [] (turns messages).2).1 := by
    apply List.filter_eq_self.mpr
    intro msg hmsg
    rcases List.mem_append.mp hmsg with hlead | hlater
    · exact (List.mem_filter.mp hlead).2
    · rw [outTurns_fst options body [] _ msg hlater]
      rfl
  have hagain (body' : JsString → α) :
      repairedOut options body' (repairedOut options body messages) =
          repairedOut options body messages ↔ KeepNames options body [] (turns messages).2 := by
    rw [← outOf_again_iff options body body' (fun _ => Iff.rfl), repairedOut, hturns]
    dsimp only
    rw [hfront, repairedOut, List.append_assoc, List.append_cancel_left_eq]
  constructor
  · intro hstable
    rcases repair_eq options body (repairedOut options body messages) with
      ⟨htidy, -⟩ | ⟨-, hother⟩
    · apply keepNames_of_renamed
      intro put hput r hr
      have hquiet := htidy.2
      rw [hturns] at hquiet
      obtain ⟨seen, hturn⟩ := hquiet.forall put hput
      exact (hturn.real hr).2
    · exact (hagain body).mp (hother.symm.trans (hstable body))
  · intro hnames body'
    rcases repair_eq options body' (repairedOut options body messages) with
      ⟨-, hsame⟩ | ⟨-, hother⟩
    · exact hsame
    · exact hother.trans ((hagain body').mpr hnames)

/-- The repair of a transcript is well paired exactly when no call id of a turn that did not end in
an error is answered before, no name of a call that needs a synthetic result changes when it is
trimmed, and the results are in place already where nothing else is there to repair. -/
theorem repair_wellPaired_iff (options : ToolUseResultPairingOptions) (body : JsString → α)
    (messages : List (AgentMessage α)) :
    WellPaired options body messages
        (repairToolUseResultPairing options body messages).messages ↔
      Repairable options messages := by
  rcases repair_eq options body messages with ⟨htidy, hsame⟩ | ⟨hnot, hout⟩
  · rw [hsame, wellPaired_tidy_iff options body htidy]
    constructor
    · intro hplace
      refine ⟨htidy.2.fresh, fun turn hturn => ?_, fun _ => hplace⟩
      obtain ⟨seen, hquiet⟩ := htidy.2.forall turn hturn
      exact hquiet.namedWell
    · exact fun hrepairable => hrepairable.inPlace htidy
  · rw [hout]
    have hturns := turns_repairedOut options body messages
    constructor
    · intro hpaired
      have hanswered := hpaired.answered
      rw [hturns] at hanswered
      have hfresh := answered_iff_fresh.mp hanswered
      refine ⟨hfresh, ?_, fun htidy => absurd htidy hnot⟩
      exact (keepNames_iff options body hfresh).mp
        ((stable_iff options body messages).mp hpaired.stable)
    · intro hrepairable
      constructor
      · rw [hturns]
        exact answered_iff_fresh.mpr hrepairable.fresh
      · rw [hturns]
        refine ⟨?_, placed_outTurns⟩
        intro msg hmsg
        rcases List.mem_append.mp hmsg with hlead | hlater
        · simpa using (List.mem_filter.mp hlead).2
        · exact outTurns_fst options body [] _ msg hlater
      · exact kept_repairedOut options body messages
      · rw [hturns]
        exact genuine_outTurns
      · exact (stable_iff options body messages).mpr
          ((keepNames_iff options body hrepairable.fresh).mpr hrepairable.named)

def readTurn : AgentMessage ℕ :=
  .assistant
    { content := some [some { type := some (js "toolCall"), id := some (js "call"),
                              name := some (js "read") }]
      stopReason := none
      rest := 0 }

def readResult (text : ℕ) : AgentMessage ℕ :=
  .toolResult
    { toolCallId := some (js "call"), toolUseId := none, toolName := some (js "read"), rest := text }

/-- A second turn that uses the id again is left without an answer, and a second result of one turn
stays when there is nothing else to repair. -/
theorem repair_not_wellPaired :
    ¬WellPaired {} (fun _ => 9)
        [readTurn, readResult 1, readTurn, readResult 2]
        (repairToolUseResultPairing {} (fun _ => 9)
          [readTurn, readResult 1, readTurn, readResult 2]).messages ∧
      ¬WellPaired {} (fun _ => 9) [readTurn, readResult 1, readResult 2]
        (repairToolUseResultPairing {} (fun _ => 9)
          [readTurn, readResult 1, readResult 2]).messages := by
  have hreused : (repairToolUseResultPairing {} (fun _ => 9)
      [readTurn, readResult 1, readTurn, readResult 2]).messages =
        [readTurn, readResult 1, readTurn] := by decide +kernel
  have hdoubled : (repairToolUseResultPairing {} (fun _ => 9)
      [readTurn, readResult 1, readResult 2]).messages =
        [readTurn, readResult 1, readResult 2] := by decide +kernel
  rw [hreused, hdoubled]
  constructor
  · intro h
    have hanswered : ∀ turn ∈ (turns [readTurn, readResult 1, readTurn]).2,
        isErrored turn.1 = false → ∀ id ∈ callIds turn.1, answersTo turn id = 1 := h.answered
    revert hanswered
    decide +kernel
  · intro h
    have hanswered : ∀ turn ∈ (turns [readTurn, readResult 1, readResult 2]).2,
        isErrored turn.1 = false → ∀ id ∈ callIds turn.1, answersTo turn id = 1 := h.answered
    revert hanswered
    decide +kernel

end GreenchClaw.Agents
