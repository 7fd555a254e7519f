import GreenchClaw.Agents.ContextPruning
import Mathlib.Algebra.Order.BigOperators.Group.List
import Mathlib.Data.Rat.Floor

/-!
# The pruned context

Pruning changes the content of prunable tool results and nothing else, the running total is the
estimate of what it returns, and it clears from the oldest result on.  Nothing compares a replacement
with what it replaces, so the context may also grow.
-/

namespace GreenchClaw.ContextPruning

open GreenchClaw.Js

section Pruned

variable {δ : Type} {settings : EffectiveContextPruningSettings} {params : PruneParams}
  {messages next : List (AgentMessage δ)} {content updated : List (ContentBlock δ)}

/-! ## One message -/

theorem estimateJoinedTextLength_eq (parts : List JsString) :
    estimateJoinedTextLength parts = (JoinedText.joined lineBreak parts).length := by
  rw [estimateJoinedTextLength, JoinedText.length_joined]
  by_cases hnil : parts = []
  · rw [if_pos hnil, hnil]
    rfl
  · rw [if_neg hnil]

theorem takeHeadFromJoinedText_eq (parts : List JsString) (maxChars : ℤ) :
    takeHeadFromJoinedText parts maxChars =
      (JoinedText.joined lineBreak parts).take maxChars.toNat := by
  rw [takeHeadFromJoinedText]
  by_cases hnone : maxChars ≤ 0
  · rw [if_pos hnone, Int.toNat_of_nonpos hnone, List.take_zero]
  · rw [if_neg hnone, JoinedText.head_eq]

theorem takeTailFromJoinedText_eq (parts : List JsString) (maxChars : ℤ) :
    takeTailFromJoinedText parts maxChars =
      JoinedText.lastChars (JoinedText.joined lineBreak parts) maxChars.toNat := by
  rw [takeTailFromJoinedText]
  by_cases hnone : maxChars ≤ 0
  · rw [if_pos hnone, Int.toNat_of_nonpos hnone, JoinedText.lastChars_zero]
  · rw [if_neg hnone, JoinedText.tail_eq]

def joinedText (content : List (ContentBlock δ)) : JsString :=
  JoinedText.joined lineBreak (trimSegments content)

def ImagesTakenOut (content updated : List (ContentBlock δ)) : Prop :=
  hasImageBlocks content = true ∧ updated = [.text (joinedText content)]

def TrimmedToEnds (settings : EffectiveContextPruningSettings)
    (content updated : List (ContentBlock δ)) : Prop :=
  settings.softTrim.headChars.toNat + settings.softTrim.tailChars.toNat <
      (joinedText content).length ∧
    updated = [.text ((joinedText content).take settings.softTrim.headChars.toNat ++ js "\n...\n" ++
      JoinedText.lastChars (joinedText content) settings.softTrim.tailChars.toNat ++
      trimNote settings.softTrim.headChars.toNat settings.softTrim.tailChars.toNat
        (joinedText content).length)]

theorem toNat_max_zero (n : ℤ) : (max 0 n).toNat = n.toNat := by omega

theorem softTrim_cases (h : softTrimToolResultMessage settings content = some updated) :
    ImagesTakenOut content updated ∨ TrimmedToEnds settings content updated := by
  unfold softTrimToolResultMessage at h
  simp only [estimateJoinedTextLength_eq, takeHeadFromJoinedText_eq, takeTailFromJoinedText_eq,
    toNat_max_zero] at h
  split at h
  · by_cases himages : hasImageBlocks content = true
    · rw [if_pos himages] at h
      exact Or.inl ⟨himages, (Option.some.inj h).symm⟩
    · rw [if_neg himages] at h
      exact absurd h (by simp)
  · rename_i hlong
    have hends := (not_or.mp hlong).2
    have hlength : ((joinedText content).length : ℤ) =
        (JoinedText.joined lineBreak (trimSegments content)).length := rfl
    refine Or.inr ⟨?_, (Option.some.inj h).symm⟩
    omega

/-! ## The running total -/

theorem sum_set {α : Type} (f : α → ℤ) {l : List α} {i : ℕ} {old : α} (h : l[i]? = some old)
    (new : α) : ((l.set i new).map f).sum = (l.map f).sum + (f new - f old) := by
  induction l generalizing i with
  | nil => exact absurd h (by simp)
  | cons first l ih =>
      cases i with
      | zero =>
          have hfirst : first = old := Option.some.inj h
          rw [List.set_cons_zero, List.map_cons, List.map_cons, List.sum_cons, List.sum_cons, hfirst]
          omega
      | succ i =>
          rw [List.set_cons_succ, List.map_cons, List.map_cons, List.sum_cons, List.sum_cons,
            ih (by simpa using h)]
          omega

theorem any_isAssistant_set {i : ℕ} {toolName : JsString} {rest : δ}
    (h : messages[i]? = some (.toolResult toolName content rest)) (toolName' : JsString)
    (updated : List (ContentBlock δ)) (rest' : δ) :
    (messages.set i (.toolResult toolName' updated rest')).any isAssistant =
      messages.any isAssistant := by
  induction messages generalizing i with
  | nil => rfl
  | cons first messages ih =>
      cases i with
      | zero =>
          have hfirst : first = .toolResult toolName content rest := Option.some.inj h
          rw [List.set_cons_zero, List.any_cons, List.any_cons, hfirst]
          rfl
      | succ i =>
          rw [List.set_cons_succ, List.any_cons, List.any_cons, ih (by simpa using h)]

theorem dropThinkingBlocks_set {i : ℕ} {toolName : JsString} {rest : δ}
    (h : messages[i]? = some (.toolResult toolName content rest)) (toolName' : JsString)
    (updated : List (ContentBlock δ)) (rest' : δ) :
    (dropThinkingBlocks messages)[i]? = some (.toolResult toolName content rest) ∧
      dropThinkingBlocks (messages.set i (.toolResult toolName' updated rest')) =
        (dropThinkingBlocks messages).set i (.toolResult toolName' updated rest') := by
  induction messages generalizing i with
  | nil => exact absurd h (by simp)
  | cons first messages ih =>
      cases i with
      | zero =>
          have hfirst : first = .toolResult toolName content rest := Option.some.inj h
          rw [hfirst, List.set_cons_zero, dropThinkingBlocks, dropThinkingBlocks]
          constructor
          · split <;> rfl
          · split <;> rfl
      | succ i =>
          have hrest : messages[i]? = some (.toolResult toolName content rest) := by simpa using h
          obtain ⟨hget, hset⟩ := ih hrest
          rw [List.set_cons_succ, dropThinkingBlocks, dropThinkingBlocks, any_isAssistant_set hrest,
            hset]
          exact ⟨by simpa using hget, rfl⟩

def contextEstimate (params : PruneParams) (messages : List (AgentMessage δ)) : ℤ :=
  estimateContextChars (estimatedMessages params messages)

theorem contextEstimate_set (params : PruneParams) {i : ℕ} {toolName : JsString} {rest : δ}
    (h : messages[i]? = some (.toolResult toolName content rest))
    (updated : List (ContentBlock δ)) :
    contextEstimate params (messages.set i (.toolResult toolName updated rest)) =
      contextEstimate params messages +
        (estimateTextAndImageChars updated - estimateTextAndImageChars content : ℤ) := by
  unfold contextEstimate estimatedMessages estimateContextChars
  split
  · obtain ⟨hget, hset⟩ := dropThinkingBlocks_set h toolName updated rest
    rw [hset]
    exact sum_set _ hget _
  · exact sum_set _ h _

/-! ## The loops -/

def softTrimmedMessage (settings : EffectiveContextPruningSettings) (isToolPrunable : JsString → Bool) :
    AgentMessage δ → AgentMessage δ
  | .toolResult toolName content rest =>
      if isToolPrunable toolName then
        .toolResult toolName ((softTrimToolResultMessage settings content).getD content) rest
      else .toolResult toolName content rest
  | message => message

def isPrunableAt (isToolPrunable : JsString → Bool) (messages : List (AgentMessage δ)) (i : ℕ) : Bool :=
  match messages[i]? with
  | some (.toolResult toolName _ _) => isToolPrunable toolName
  | _ => false

theorem softTrimStep_spec {s : PruneState δ} {i : ℕ} (hget : s.next[i]? = messages[i]?)
    (htotal : s.totalChars = contextEstimate params s.next) :
    let t := softTrimStep settings params.isToolPrunable messages s i
    t.prunableToolIndexes = s.prunableToolIndexes ++
        (if isPrunableAt params.isToolPrunable messages i then [i] else []) ∧
      t.next[i]? = messages[i]?.map (softTrimmedMessage settings params.isToolPrunable) ∧
      (∀ j, i ≠ j → t.next[j]? = s.next[j]?) ∧ t.next.length = s.next.length ∧
      t.totalChars = contextEstimate params t.next := by
  have hstay : ∀ message, messages[i]? = some message →
      softTrimmedMessage settings params.isToolPrunable message = message →
      s.next[i]? = messages[i]?.map (softTrimmedMessage settings params.isToolPrunable) := by
    intro message hmessage hsame
    rw [hget, hmessage, Option.map_some, hsame]
  unfold softTrimStep isPrunableAt
  cases hmessage : messages[i]? with
  | none => exact ⟨by simp, by rw [hget, hmessage]; rfl, fun _ _ => rfl, rfl, htotal⟩
  | some message =>
      cases message with
      | user content rest =>
          exact ⟨by simp, by rw [hget, hmessage]; rfl, fun _ _ => rfl, rfl, htotal⟩
      | assistant content rest =>
          exact ⟨by simp, by rw [hget, hmessage]; rfl, fun _ _ => rfl, rfl, htotal⟩
      | other rest =>
          exact ⟨by simp, by rw [hget, hmessage]; rfl, fun _ _ => rfl, rfl, htotal⟩
      | toolResult toolName content rest =>
          by_cases hprunable : params.isToolPrunable toolName = true
          · simp only [hprunable, if_true, Option.map_some, softTrimmedMessage]
            cases hsoft : softTrimToolResultMessage settings content with
            | none =>
                refine ⟨rfl, ?_, fun _ _ => rfl, rfl, htotal⟩
                rw [hget, hmessage, Option.getD_none]
            | some updated =>
                have hlt : i < s.next.length := by
                  have hsome : s.next[i]? = some (.toolResult toolName content rest) := by
                    rw [hget, hmessage]
                  exact (List.getElem?_eq_some_iff.mp hsome).1
                refine ⟨rfl, ?_, ?_, List.length_set, ?_⟩
                · rw [Option.getD_some]
                  exact List.getElem?_set_self hlt
                · exact fun j hj => List.getElem?_set_ne hj
                · rw [contextEstimate_set params (hget.trans hmessage), htotal]
          · rw [Bool.not_eq_true] at hprunable
            simp only [hprunable, Bool.false_eq_true, if_false, Option.map_some, softTrimmedMessage]
            exact ⟨(List.append_nil _).symm, hget.trans hmessage, fun _ _ => trivial, trivial, htotal⟩

theorem softTrimLoop_spec (indexes : List ℕ) (hnodup : indexes.Nodup) (s : PruneState δ)
    (hget : ∀ i ∈ indexes, s.next[i]? = messages[i]?)
    (htotal : s.totalChars = contextEstimate params s.next) :
    let t := indexes.foldl (softTrimStep settings params.isToolPrunable messages) s
    t.prunableToolIndexes = s.prunableToolIndexes ++
        indexes.filter (isPrunableAt params.isToolPrunable messages) ∧
      (∀ i ∈ indexes, t.next[i]? =
        messages[i]?.map (softTrimmedMessage settings params.isToolPrunable)) ∧
      (∀ j, j ∉ indexes → t.next[j]? = s.next[j]?) ∧ t.next.length = s.next.length ∧
      t.totalChars = contextEstimate params t.next := by
  induction indexes generalizing s with
  | nil =>
      exact ⟨(List.append_nil _).symm, fun i hi => absurd hi List.not_mem_nil, fun _ _ => rfl, rfl,
        htotal⟩
  | cons i indexes ih =>
      obtain ⟨hnew, hrest⟩ := List.nodup_cons.mp hnodup
      obtain ⟨hindexes, hself, hothers, hlength, htotal'⟩ :=
        @softTrimStep_spec δ settings params messages s i (hget i List.mem_cons_self) htotal
      have hget' : ∀ j ∈ indexes,
          (softTrimStep settings params.isToolPrunable messages s i).next[j]? = messages[j]? := by
        intro j hj
        have hne : i ≠ j := fun heq => hnew (heq ▸ hj)
        rw [hothers j hne]
        exact hget j (List.mem_cons_of_mem i hj)
      obtain ⟨hindexes', hselves, hothers', hlength', hlast⟩ := ih hrest _ hget' htotal'
      rw [List.foldl_cons]
      refine ⟨?_, ?_, ?_, hlength'.trans hlength, hlast⟩
      · rw [hindexes', hindexes, List.filter_cons, List.append_assoc]
        split <;> rfl
      · intro j hj
        rcases List.mem_cons.mp hj with hji | hjs
        · rw [hji, hothers' i hnew]
          exact hself
        · exact hselves j hjs
      · intro j hj
        rw [List.mem_cons, not_or] at hj
        rw [hothers' j hj.2]
        exact hothers j (Ne.symm hj.1)

def clearedMessage (placeholder : JsString) : AgentMessage δ → AgentMessage δ
  | .toolResult toolName _ rest => .toolResult toolName [.text placeholder] rest
  | message => message

/-- The last loop clears its first indexes, up to a total that is low enough. -/
theorem hardClearLoop_spec (isBelow : ℤ → Bool) (placeholder : JsString) (indexes : List ℕ)
    (hnodup : indexes.Nodup) (next : List (AgentMessage δ)) (totalChars : ℤ)
    (htools : ∀ i ∈ indexes, ∃ toolName content rest,
      next[i]? = some (.toolResult toolName content rest))
    (htotal : totalChars = contextEstimate params next) :
    let t := hardClearLoop isBelow placeholder indexes (next, totalChars)
    ∃ cleared kept, indexes = cleared ++ kept ∧
      (∀ i ∈ cleared, t.1[i]? = next[i]?.map (clearedMessage placeholder)) ∧
      (∀ j, j ∉ cleared → t.1[j]? = next[j]?) ∧ t.1.length = next.length ∧
      t.2 = contextEstimate params t.1 ∧ (kept = [] ∨ isBelow t.2 = true) := by
  induction indexes generalizing next totalChars with
  | nil =>
      exact ⟨[], [], rfl, fun i hi => absurd hi List.not_mem_nil, fun _ _ => rfl, rfl, htotal,
        Or.inl rfl⟩
  | cons i indexes ih =>
      obtain ⟨hnew, hrest⟩ := List.nodup_cons.mp hnodup
      rw [hardClearLoop]
      by_cases hbelow : isBelow totalChars = true
      · rw [if_pos hbelow]
        exact ⟨[], i :: indexes, rfl, fun i hi => absurd hi List.not_mem_nil, fun _ _ => rfl, rfl,
          htotal, Or.inr hbelow⟩
      · rw [if_neg hbelow]
        obtain ⟨toolName, content, rest, hmessage⟩ := htools i List.mem_cons_self
        simp only [hmessage]
        have htotal' := contextEstimate_set params hmessage [.text placeholder]
        rw [← htotal] at htotal'
        have htools' : ∀ j ∈ indexes, ∃ toolName' content' rest',
            (next.set i (.toolResult toolName [.text placeholder] rest))[j]? =
              some (.toolResult toolName' content' rest') := by
          intro j hj
          have hne : i ≠ j := fun heq => hnew (heq ▸ hj)
          rw [List.getElem?_set_ne hne]
          exact htools j (List.mem_cons_of_mem i hj)
        obtain ⟨cleared, kept, hsplit, hcleared, hothers, hlength, hlast, hstop⟩ :=
          ih hrest _ _ htools' htotal'.symm
        have hnot : i ∉ cleared := by
          intro hmem
          rw [hsplit] at hnew
          exact hnew (List.mem_append_left _ hmem)
        have hlt : i < next.length := (List.getElem?_eq_some_iff.mp hmessage).1
        refine ⟨i :: cleared, kept, by rw [hsplit, List.cons_append], ?_, ?_,
          hlength.trans List.length_set, hlast, hstop⟩
        · intro j hj
          rcases List.mem_cons.mp hj with hji | hjs
          · rw [hji, hothers i hnot, List.getElem?_set_self hlt, hmessage]
            rfl
          · have hne : i ≠ j := fun heq => hnot (heq ▸ hjs)
            rw [hcleared j hjs, List.getElem?_set_ne hne]
        · intro j hj
          rw [List.mem_cons, not_or] at hj
          rw [hothers j hj.2, List.getElem?_set_ne (Ne.symm hj.1)]

/-! ## The range -/

structure Located (settings : EffectiveContextPruningSettings) (isToolPrunable : JsString → Bool)
    (messages : List (AgentMessage δ)) (i : ℕ) (toolName : JsString) : Prop where
  prunable : isToolPrunable toolName = true
  afterUser : ∃ first < i, ∃ message, messages[first]? = some message ∧ isUser message = true
  beforeLast : settings.keepLastAssistants ≤ (messages.drop (i + 1)).countP isAssistant

theorem cutoffFromEnd_spec {newest : List (AgentMessage δ)} {remaining : ℤ} {cutoffIndex : ℕ}
    (h : cutoffFromEnd newest remaining = some cutoffIndex) :
    ∃ newer message older, newest = newer ++ message :: older ∧ isAssistant message = true ∧
      older.length = cutoffIndex ∧ (newer.countP isAssistant : ℤ) + 1 = remaining := by
  induction newest generalizing remaining with
  | nil => exact absurd h (by simp [cutoffFromEnd])
  | cons message earlier ih =>
      rw [cutoffFromEnd] at h
      by_cases hassistant : isAssistant message = true
      · rw [if_pos hassistant] at h
        by_cases hlast : remaining - 1 = 0
        · rw [if_pos hlast] at h
          refine ⟨[], message, earlier, rfl, hassistant, Option.some.inj h, ?_⟩
          rw [List.countP_nil]
          omega
        · rw [if_neg hlast] at h
          obtain ⟨newer, last, older, hsplit, hlastAssistant, hlength, hcount⟩ := ih h
          refine ⟨message :: newer, last, older, by rw [hsplit, List.cons_append], hlastAssistant,
            hlength, ?_⟩
          rw [List.countP_cons_of_pos hassistant]
          omega
      · rw [if_neg hassistant] at h
        obtain ⟨newer, last, older, hsplit, hlastAssistant, hlength, hcount⟩ := ih h
        refine ⟨message :: newer, last, older, by rw [hsplit, List.cons_append], hlastAssistant,
          hlength, ?_⟩
        rw [List.countP_cons_of_neg hassistant]
        exact hcount

theorem lt_cutoff_iff {keepLastAssistants : ℤ} {cutoffIndex i : ℕ}
    (h : findAssistantCutoffIndex messages keepLastAssistants = some cutoffIndex)
    (hi : i < messages.length) :
    i < cutoffIndex ↔ keepLastAssistants ≤ (messages.drop (i + 1)).countP isAssistant := by
  rw [findAssistantCutoffIndex] at h
  by_cases hnone : keepLastAssistants ≤ 0
  · rw [if_pos hnone] at h
    rw [← Option.some.inj h]
    exact ⟨fun _ => hnone.trans (Int.natCast_nonneg _), fun _ => hi⟩
  · rw [if_neg hnone] at h
    obtain ⟨newer, message, older, hsplit, hassistant, hlength, hcount⟩ := cutoffFromEnd_spec h
    have hmessages : messages = older.reverse ++ message :: newer.reverse := by
      rw [← List.reverse_reverse messages, hsplit]
      simp
    have hcutoff : older.reverse.length = cutoffIndex := by rw [List.length_reverse, hlength]
    have hfrom : messages.drop cutoffIndex = message :: newer.reverse := by
      rw [hmessages, ← hcutoff, List.drop_left]
    have hbehind : messages.drop (cutoffIndex + 1) = newer.reverse := by
      rw [← List.drop_drop, hfrom, List.drop_one, List.tail_cons]
    have hall : (message :: newer.reverse).countP isAssistant = newer.countP isAssistant + 1 := by
      rw [List.countP_cons_of_pos hassistant, List.countP_reverse]
    constructor
    · intro hlt
      have hdrop : messages.drop cutoffIndex =
          (messages.drop (i + 1)).drop (cutoffIndex - (i + 1)) := by
        rw [List.drop_drop, show i + 1 + (cutoffIndex - (i + 1)) = cutoffIndex by omega]
      have hle : (messages.drop cutoffIndex).countP isAssistant ≤
          (messages.drop (i + 1)).countP isAssistant := by
        rw [hdrop]
        exact (List.drop_sublist _ _).countP_le
      rw [hfrom, hall] at hle
      omega
    · intro hkeep
      by_contra hge
      have hdrop : messages.drop (i + 1) =
          (messages.drop (cutoffIndex + 1)).drop (i - cutoffIndex) := by
        rw [List.drop_drop, show cutoffIndex + 1 + (i - cutoffIndex) = i + 1 by omega]
      have hle : (messages.drop (i + 1)).countP isAssistant ≤
          (messages.drop (cutoffIndex + 1)).countP isAssistant := by
        rw [hdrop]
        exact (List.drop_sublist _ _).countP_le
      rw [hbehind, List.countP_reverse] at hle
      omega

theorem isPrunableAt_iff {isToolPrunable : JsString → Bool} {i : ℕ} :
    isPrunableAt isToolPrunable messages i = true ↔
      ∃ toolName content rest, messages[i]? = some (.toolResult toolName content rest) ∧
        isToolPrunable toolName = true := by
  rw [isPrunableAt]
  constructor
  · intro h
    split at h
    · rename_i toolName content rest hmessage
      exact ⟨toolName, content, rest, hmessage, h⟩
    · exact absurd h Bool.false_ne_true
  · intro h
    obtain ⟨toolName, content, rest, hmessage, hprunable⟩ := h
    rw [hmessage]
    exact hprunable

theorem mem_pruneRange_iff {cutoffIndex i : ℕ} {toolName : JsString} {rest : δ}
    (hcutoff : findAssistantCutoffIndex messages settings.keepLastAssistants = some cutoffIndex)
    (hmessage : messages[i]? = some (.toolResult toolName content rest)) :
    i ∈ pruneRange messages cutoffIndex ↔
      (∃ first < i, ∃ message, messages[first]? = some message ∧ isUser message = true) ∧
        settings.keepLastAssistants ≤ (messages.drop (i + 1)).countP isAssistant := by
  have hlt : i < messages.length := (List.getElem?_eq_some_iff.mp hmessage).1
  rw [← lt_cutoff_iff hcutoff hlt, pruneRange, List.mem_range'_1]
  cases hfirst : findFirstUserIndex messages with
  | none =>
      rw [Option.getD_none]
      constructor
      · intro hi
        omega
      · intro h
        obtain ⟨⟨first, -, message, hget, huser⟩, -⟩ := h
        have hnone := List.findIdx?_eq_none_iff.mp hfirst message (List.mem_of_getElem? hget)
        rw [huser] at hnone
        exact absurd hnone (by decide)
  | some first =>
      rw [Option.getD_some]
      obtain ⟨hbound, huser, hbefore⟩ := List.findIdx?_eq_some_iff_getElem.mp hfirst
      have hget : messages[first]? = some messages[first] := List.getElem?_eq_getElem hbound
      have hne : first ≠ i := by
        intro heq
        have hsame : some messages[first] = some (.toolResult toolName content rest) := by
          rw [← hget, heq, hmessage]
        rw [Option.some.inj hsame] at huser
        exact absurd huser Bool.false_ne_true
      constructor
      · intro hi
        exact ⟨⟨first, by omega, messages[first], hget, huser⟩, by omega⟩
      · intro h
        obtain ⟨⟨other, hother, message, hmsg, hisUser⟩, hcut⟩ := h
        have hle : first ≤ other := by
          by_contra hnot
          obtain ⟨hlen, heq⟩ := List.getElem?_eq_some_iff.mp hmsg
          have hnotUser := hbefore other (by omega)
          rw [heq] at hnotUser
          exact hnotUser hisUser
        omega

def prunableIndexes (params : PruneParams) (messages : List (AgentMessage δ)) (cutoffIndex : ℕ) :
    List ℕ :=
  (pruneRange messages cutoffIndex).filter (isPrunableAt params.isToolPrunable messages)

theorem mem_prunableIndexes {cutoffIndex i : ℕ}
    (hcutoff : findAssistantCutoffIndex messages settings.keepLastAssistants = some cutoffIndex) :
    i ∈ prunableIndexes params messages cutoffIndex ↔
      ∃ toolName content rest, messages[i]? = some (.toolResult toolName content rest) ∧
        Located settings params.isToolPrunable messages i toolName := by
  rw [prunableIndexes, List.mem_filter, isPrunableAt_iff]
  constructor
  · intro h
    obtain ⟨hrange, toolName, content, rest, hmessage, hprunable⟩ := h
    obtain ⟨huser, hlast⟩ := (mem_pruneRange_iff hcutoff hmessage).mp hrange
    exact ⟨toolName, content, rest, hmessage, hprunable, huser, hlast⟩
  · intro h
    obtain ⟨toolName, content, rest, hmessage, hlocated⟩ := h
    exact ⟨(mem_pruneRange_iff hcutoff hmessage).mpr ⟨hlocated.afterUser, hlocated.beforeLast⟩,
      toolName, content, rest, hmessage, hlocated.prunable⟩

/-! ## The run -/

theorem clearedMessage_softTrimmedMessage (settings : EffectiveContextPruningSettings)
    (isToolPrunable : JsString → Bool) (placeholder : JsString) (message : AgentMessage δ) :
    clearedMessage placeholder (softTrimmedMessage settings isToolPrunable message) =
      clearedMessage placeholder message := by
  cases message with
  | toolResult toolName content rest =>
      rw [softTrimmedMessage]
      split <;> rfl
  | user content rest => rfl
  | assistant content rest => rfl
  | other rest => rfl

theorem softTrimmedMessage_of_not {isToolPrunable : JsString → Bool} {i : ℕ}
    (h : isPrunableAt isToolPrunable messages i ≠ true) :
    messages[i]?.map (softTrimmedMessage settings isToolPrunable) = messages[i]? := by
  rw [isPrunableAt] at h
  cases hmessage : messages[i]? with
  | none => rfl
  | some message =>
      rw [hmessage] at h
      cases message with
      | toolResult toolName content rest => rw [Option.map_some, softTrimmedMessage, if_neg h]
      | user content rest => rfl
      | assistant content rest => rfl
      | other rest => rfl

structure ClearsOldest (settings : EffectiveContextPruningSettings) (params : PruneParams)
    (messages next : List (AgentMessage δ)) (cleared kept : List ℕ) : Prop where
  ordered : (cleared ++ kept).Pairwise (· < ·)
  all : ∀ i, i ∈ cleared ++ kept ↔
    ∃ toolName content rest, messages[i]? = some (.toolResult toolName content rest) ∧
      Located settings params.isToolPrunable messages i toolName
  clears : ∀ i ∈ cleared,
    next[i]? = messages[i]?.map (clearedMessage settings.hardClear.placeholder)
  trims : ∀ i ∈ kept,
    next[i]? = messages[i]?.map (softTrimmedMessage settings params.isToolPrunable)
  others : ∀ i, i ∉ cleared ++ kept → next[i]? = messages[i]?
  length : next.length = messages.length

def ClearingGated (settings : EffectiveContextPruningSettings) (params : PruneParams)
    (messages : List (AgentMessage δ)) (cutoffIndex : ℕ) : Prop :=
  settings.hardClear.enabled = false ∨
    prunableToolChars (softTrimmed settings params messages cutoffIndex).next
        (prunableIndexes params messages cutoffIndex) < settings.minPrunableToolChars

theorem softTrimmed_spec {cutoffIndex : ℕ}
    (hcutoff : findAssistantCutoffIndex messages settings.keepLastAssistants = some cutoffIndex) :
    (softTrimmed settings params messages cutoffIndex).prunableToolIndexes =
        prunableIndexes params messages cutoffIndex ∧
      ClearsOldest settings params messages (softTrimmed settings params messages cutoffIndex).next []
        (prunableIndexes params messages cutoffIndex) ∧
      (softTrimmed settings params messages cutoffIndex).totalChars =
        contextEstimate params (softTrimmed settings params messages cutoffIndex).next := by
  have hspec := @softTrimLoop_spec δ settings params messages
    (pruneRange messages cutoffIndex) List.nodup_range'
    { next := messages, totalChars := estimateContextChars (estimatedMessages params messages) }
    (fun _ _ => rfl) rfl
  obtain ⟨hindexes, hselves, hothers, hlength, htotal⟩ := hspec
  refine ⟨hindexes, ⟨?_, fun i => mem_prunableIndexes hcutoff, ?_, ?_, ?_, hlength⟩, htotal⟩
  · exact List.Pairwise.sublist List.filter_sublist List.pairwise_lt_range'
  · exact fun i hi => absurd hi List.not_mem_nil
  · exact fun i hi => hselves i (List.mem_filter.mp hi).1
  · intro i hi
    by_cases hrange : i ∈ pruneRange messages cutoffIndex
    · have hnot : isPrunableAt params.isToolPrunable messages i ≠ true :=
        fun hprunable => hi (List.mem_filter.mpr ⟨hrange, hprunable⟩)
      exact (hselves i hrange).trans (softTrimmedMessage_of_not hnot)
    · exact hothers i hrange

theorem hardCleared_spec {cutoffIndex : ℕ}
    (hcutoff : findAssistantCutoffIndex messages settings.keepLastAssistants = some cutoffIndex)
    (isBelow : ℤ → Bool) :
    let s := softTrimmed settings params messages cutoffIndex
    let t := hardClearLoop isBelow settings.hardClear.placeholder s.prunableToolIndexes
      (s.next, s.totalChars)
    ∃ cleared kept, ClearsOldest settings params messages t.1 cleared kept ∧
      t.2 = contextEstimate params t.1 ∧ (kept = [] ∨ isBelow t.2 = true) := by
  obtain ⟨hindexes, hsoft, htotal⟩ := @softTrimmed_spec δ settings params messages cutoffIndex hcutoff
  have hnodup : (prunableIndexes params messages cutoffIndex).Nodup :=
    List.Nodup.sublist List.filter_sublist List.nodup_range'
  have htools : ∀ i ∈ prunableIndexes params messages cutoffIndex, ∃ toolName content rest,
      (softTrimmed settings params messages cutoffIndex).next[i]? =
        some (.toolResult toolName content rest) := by
    intro i hi
    obtain ⟨toolName, content, rest, hmessage, hlocated⟩ := (mem_prunableIndexes hcutoff).mp hi
    refine ⟨toolName, (softTrimToolResultMessage settings content).getD content, rest, ?_⟩
    rw [hsoft.trims i hi, hmessage, Option.map_some, softTrimmedMessage, if_pos hlocated.prunable]
  obtain ⟨cleared, kept, hsplit, hcleared, hothers, hlength, hlast, hstop⟩ :=
    hardClearLoop_spec isBelow settings.hardClear.placeholder
      (prunableIndexes params messages cutoffIndex) hnodup _ _ htools htotal
  simp only [hindexes]
  refine ⟨cleared, kept, ?_, hlast, hstop⟩
  have hordered := hsoft.ordered
  have hall := hsoft.all
  have hsame := hsoft.others
  rw [List.nil_append, hsplit] at hordered hall hsame
  have hdisjoint := List.nodup_append.mp (hsplit ▸ hnodup)
  refine ⟨hordered, hall, ?_, ?_, ?_, hlength.trans hsoft.length⟩
  · intro i hi
    have hmem : i ∈ prunableIndexes params messages cutoffIndex := by
      rw [hsplit]
      exact List.mem_append_left _ hi
    rw [hcleared i hi, hsoft.trims i hmem, Option.map_map]
    congr 1
    funext message
    exact clearedMessage_softTrimmedMessage _ _ _ message
  · intro i hi
    have hmem : i ∈ prunableIndexes params messages cutoffIndex := by
      rw [hsplit]
      exact List.mem_append_right _ hi
    have hnot : i ∉ cleared := fun hc => hdisjoint.2.2 i hc i hi rfl
    exact (hothers i hnot).trans (hsoft.trims i hmem)
  · intro i hi
    have hnot : i ∉ cleared := fun hc => hi (List.mem_append_left _ hc)
    exact (hothers i hnot).trans (hsame i hi)

/-- What a run returns: its total is the estimate, and it clears until the ratio is low enough or
nothing is left, unless it does not clear at all. -/
theorem pruneRun_spec {next : List (AgentMessage δ)} {totalChars : ℤ}
    (h : pruneRun settings params messages = some (next, totalChars)) :
    ∃ tokens cutoffIndex cleared kept, contextWindowTokens params = some tokens ∧
      findAssistantCutoffIndex messages settings.keepLastAssistants = some cutoffIndex ∧
      ClearsOldest settings params messages next cleared kept ∧
      totalChars = contextEstimate params next ∧
      (kept = [] ∨ params.divide totalChars (tokens * 4) < settings.hardClearRatio ∨
        (cleared = [] ∧ ClearingGated settings params messages cutoffIndex)) := by
  unfold pruneRun at h
  split at h
  · exact absurd h (by simp)
  · rename_i tokens htokens
    split at h
    · exact absurd h (by simp)
    · rename_i cutoffIndex hcutoff
      obtain ⟨hindexes, hsoft, htotal⟩ :=
        @softTrimmed_spec δ settings params messages cutoffIndex hcutoff
      have huncleared : ∀ {pruned : List (AgentMessage δ) × ℤ},
          pruned = ((softTrimmed settings params messages cutoffIndex).next,
            (softTrimmed settings params messages cutoffIndex).totalChars) →
          pruned = (next, totalChars) →
          ClearsOldest settings params messages next []
              (prunableIndexes params messages cutoffIndex) ∧
            totalChars = contextEstimate params next := by
        intro pruned hsame hnext
        obtain ⟨hnexts, htotals⟩ := Prod.mk.inj (hsame.symm.trans hnext)
        rw [← hnexts, ← htotals]
        exact ⟨hsoft, htotal⟩
      refine ⟨tokens, cutoffIndex, ?_⟩
      simp only [hindexes] at h
      split at h
      · exact absurd h (by simp)
      · split at h
        · rename_i hbelow
          obtain ⟨hkept, hestimate⟩ := huncleared rfl (Option.some.inj h)
          have htotals : (softTrimmed settings params messages cutoffIndex).totalChars = totalChars :=
            congrArg Prod.snd (Option.some.inj h)
          rw [htotals] at hbelow
          exact ⟨[], _, htokens, hcutoff, hkept, hestimate, Or.inr (Or.inl hbelow)⟩
        · split at h
          · rename_i hoff
            obtain ⟨hkept, hestimate⟩ := huncleared rfl (Option.some.inj h)
            exact ⟨[], _, htokens, hcutoff, hkept, hestimate,
              Or.inr (Or.inr ⟨rfl, Or.inl ((Bool.not_eq_true' _).mp hoff)⟩)⟩
          · split at h
            · rename_i hfew
              obtain ⟨hkept, hestimate⟩ := huncleared rfl (Option.some.inj h)
              exact ⟨[], _, htokens, hcutoff, hkept, hestimate,
                Or.inr (Or.inr ⟨rfl, Or.inr hfew⟩)⟩
            · obtain ⟨cleared, kept, hclears, hestimate, hstop⟩ :=
                @hardCleared_spec δ settings params messages cutoffIndex hcutoff
                  (fun totalChars => params.divide totalChars (tokens * 4) < settings.hardClearRatio)
              simp only [hindexes] at hclears hestimate hstop
              rw [Option.some.inj h] at hclears hestimate hstop
              refine ⟨cleared, kept, htokens, hcutoff, hclears, hestimate, ?_⟩
              rcases hstop with hnone | hlow
              · exact Or.inl hnone
              · exact Or.inr (Or.inl (of_decide_eq_true hlow))

/-! ## The result -/

def Replaced (settings : EffectiveContextPruningSettings)
    (content updated : List (ContentBlock δ)) : Prop :=
  ImagesTakenOut content updated ∨ TrimmedToEnds settings content updated ∨
    updated = [.text settings.hardClear.placeholder]

def OnlyReplaces (settings : EffectiveContextPruningSettings) (params : PruneParams)
    (messages next : List (AgentMessage δ)) : Prop :=
  ∀ i, next[i]? = messages[i]? ∨ ∃ toolName content updated rest,
    messages[i]? = some (.toolResult toolName content rest) ∧
      next[i]? = some (.toolResult toolName updated rest) ∧
      Located settings params.isToolPrunable messages i toolName ∧ Replaced settings content updated

theorem ClearsOldest.onlyReplaces {next : List (AgentMessage δ)} {cleared kept : List ℕ}
    (h : ClearsOldest settings params messages next cleared kept) :
    OnlyReplaces settings params messages next := by
  intro i
  by_cases hmem : i ∈ cleared ++ kept
  · obtain ⟨toolName, content, rest, hmessage, hlocated⟩ := (h.all i).mp hmem
    rcases List.mem_append.mp hmem with hcleared | hkept
    · right
      refine ⟨toolName, content, _, rest, hmessage, ?_, hlocated, Or.inr (Or.inr rfl)⟩
      rw [h.clears i hcleared, hmessage]
      rfl
    · have hnext := h.trims i hkept
      rw [hmessage, Option.map_some, softTrimmedMessage, if_pos hlocated.prunable] at hnext
      cases hsoft : softTrimToolResultMessage settings content with
      | none =>
          left
          rw [hnext, hsoft, Option.getD_none, hmessage]
      | some updated =>
          right
          rw [hsoft, Option.getD_some] at hnext
          refine ⟨toolName, content, updated, rest, hmessage, hnext, hlocated, ?_⟩
          rcases softTrim_cases hsoft with himages | htrimmed
          · exact Or.inl himages
          · exact Or.inr (Or.inl htrimmed)
  · exact Or.inl (h.others i hmem)

theorem estimateContextChars_le {next : List (AgentMessage δ)}
    (hlength : next.length = messages.length)
    (h : ∀ (i : ℕ) (message changed : AgentMessage δ), messages[i]? = some message →
      next[i]? = some changed →
      estimateMessageChars changed ≤ estimateMessageChars message) :
    estimateContextChars next ≤ estimateContextChars messages := by
  induction messages generalizing next with
  | nil =>
      rw [List.length_eq_zero_iff.mp hlength]
  | cons message messages ih =>
      cases next with
      | nil => exact absurd hlength (by simp)
      | cons changed next =>
          have hfirst := h 0 message changed rfl rfl
          have hrest := ih (by simpa using hlength) fun i old new hold hnew => h (i + 1) old new
            (by simpa using hold) (by simpa using hnew)
          rw [estimateContextChars, estimateContextChars, List.map_cons, List.map_cons,
            List.sum_cons, List.sum_cons]
          rw [estimateContextChars, estimateContextChars] at hrest
          omega

def ReplacementsFit (settings : EffectiveContextPruningSettings) (params : PruneParams)
    (messages : List (AgentMessage δ)) : Prop :=
  ∀ i toolName content rest, messages[i]? = some (.toolResult toolName content rest) →
    Located settings params.isToolPrunable messages i toolName →
    ∀ updated, Replaced settings content updated →
      estimateTextAndImageChars updated ≤ estimateTextAndImageChars content

theorem OnlyReplaces.estimate_le {next : List (AgentMessage δ)}
    (h : OnlyReplaces settings params messages next) (hlength : next.length = messages.length)
    (hfit : ReplacementsFit settings params messages) :
    estimateContextChars next ≤ estimateContextChars messages := by
  apply estimateContextChars_le hlength
  intro i message changed hmessage hchanged
  rcases h i with hsame | ⟨toolName, content, updated, rest, hold, hnew, hlocated, hreplaced⟩
  · have hequal : some changed = some message := by rw [← hchanged, hsame, hmessage]
    rw [Option.some.inj hequal]
  · rw [Option.some.inj (hmessage.symm.trans hold), Option.some.inj (hchanged.symm.trans hnew)]
    exact hfit i toolName content rest hold hlocated updated hreplaced

end Pruned

section Samples

/-- Five characters are kept at each end of a text of more than ten. -/
def shortSettings : EffectiveContextPruningSettings where
  keepLastAssistants := 0
  softTrimRatio := 0
  hardClearRatio := 1 / 2
  minPrunableToolChars := 0
  softTrim := { maxChars := 10, headChars := 5, tailChars := 5 }
  hardClear := { enabled := true, placeholder := js "[Old tool result content cleared]" }

def wideParams : PruneParams where
  modelContextWindow := some 1000
  isToolPrunable := fun _ => true
  divide := fun total window => total / window

def shortResult : List (AgentMessage Unit) :=
  [.user (.text (js "hi")) (), .toolResult (js "read") [.text (js "hello world")] ()]

def longResult : List (AgentMessage Unit) :=
  [.user (.text (js "hi")) (), .toolResult (js "read") [.text (List.replicate 200 (unit 'a'))] ()]

theorem replacementsFit_longResult : ReplacementsFit shortSettings wideParams longResult := by
  intro i toolName content rest hmessage _ updated hreplaced
  have hcontent : content = [.text (List.replicate 200 (unit 'a'))] := by
    match i, hmessage with
    | 0, hmessage => exact absurd hmessage (by simp [longResult])
    | 1, hmessage =>
        have hsame := (AgentMessage.toolResult.inj (Option.some.inj hmessage)).2.1
        exact hsame.symm
    | i + 2, hmessage => exact absurd hmessage (by simp [longResult])
  rw [hcontent] at hreplaced ⊢
  rcases hreplaced with ⟨himages, -⟩ | ⟨-, htrimmed⟩ | hcleared
  · exact absurd himages (by decide)
  · rw [htrimmed]
    decide +kernel
  · rw [hcleared]
    decide +kernel

end Samples

end GreenchClaw.ContextPruning
