import GreenchClaw.SessionHistory.Snapshot

/-!
# Visible messages

The projection of a transcript read message by message: whether a message is shown depends on itself
and on whether a prompt of the heartbeat is shown before it.
-/

namespace GreenchClaw.SessionHistory

open GreenchClaw.Js

section Visible

variable {β : Type} (host : DisplayHost β) [UnicodeCase]

/-! ## One message after the other -/

/-- What a message becomes before messages are hidden; `none` when it is dropped. -/
def candidate (maxChars : ℕ) (message : Option (HistoryMessage β)) : Option (HistoryMessage β) :=
  message.bind fun message =>
    let stripped := stripEnvelopeFromMessage host message
    let sanitized := sanitizeChatHistoryMessage host stripped maxChars
    if (shouldDropAssistantHistoryMessage host stripped ||
        shouldDropAssistantHistoryMessage host sanitized) = true then none
    else some sanitized

def candidates (maxChars : ℕ) (messages : List (Option (HistoryMessage β))) :
    List (HistoryMessage β) :=
  messages.filterMap (candidate host maxChars)

def answersPrompt (afterPrompt : Bool) (message : HistoryMessage β) : Bool :=
  afterPrompt && isOkResponse host message && !shouldHideProjectedHistoryMessage host message

def visibleAfter : Bool → List (HistoryMessage β) → List (HistoryMessage β)
  | _, [] => []
  | afterPrompt, message :: rest =>
      if (answersPrompt host afterPrompt message || shouldHideProjectedHistoryMessage host message) = true
      then visibleAfter (isPrompt message) rest
      else message :: visibleAfter (isPrompt message) rest

def endsInPrompt (afterPrompt : Bool) (messages : List (HistoryMessage β)) : Bool :=
  (messages.getLast?.map isPrompt).getD afterPrompt

theorem candidates_append (maxChars : ℕ) (first second : List (Option (HistoryMessage β))) :
    candidates host maxChars (first ++ second) =
      candidates host maxChars first ++ candidates host maxChars second :=
  List.filterMap_append

section Facts

variable {host} {message : HistoryMessage β}

theorem hidden_of_isPrompt (h : isPrompt message = true) :
    shouldHideProjectedHistoryMessage host message = true := by
  obtain ⟨roleContent, hrole, huser⟩ := (Option.any_eq_true _ _).mp h
  have hname : roleContent.1 = js "user" := by
    simp only [isHeartbeatUserMessage, Bool.and_eq_true, decide_eq_true_eq] at huser
    exact huser.1.1
  have hother : decide (roleContent.1 = js "assistant") = false := by
    rw [hname]
    decide
  simp only [shouldHideProjectedHistoryMessage, hrole, hother, huser, Bool.false_and, Bool.true_or,
    Bool.false_eq_true, if_false]
  split
  · rfl
  · split <;> rfl

theorem not_isPrompt_of_isOkResponse (h : isOkResponse host message = true) :
    isPrompt message = false := by
  obtain ⟨roleContent, hrole, hok⟩ := (Option.any_eq_true _ _).mp h
  have hname : roleContent.1 = js "assistant" := by
    simp only [isHeartbeatOkResponse, Bool.and_eq_true, decide_eq_true_eq] at hok
    exact hok.1.1
  have hother : decide (roleContent.1 = js "user") = false := by
    rw [hname]
    decide
  rw [isPrompt, hrole, Option.any_some, isHeartbeatUserMessage, hother, Bool.false_and,
    Bool.false_and]

theorem visibleAfter_cons {afterPrompt : Bool} (rest : List (HistoryMessage β))
    (h : (afterPrompt && isOkResponse host message) = false) :
    visibleAfter host afterPrompt (message :: rest) = visibleAfter host false (message :: rest) := by
  rw [visibleAfter, visibleAfter, answersPrompt, answersPrompt, h, Bool.false_and, Bool.false_and,
    Bool.false_and]

theorem filterVisible_eq (messages : List (HistoryMessage β)) :
    filterVisibleProjectedHistoryMessages host messages = visibleAfter host false messages := by
  induction messages using filterVisibleProjectedHistoryMessages.induct host with
  | case1 => rfl
  | case2 current hhidden =>
      rw [filterVisibleProjectedHistoryMessages, if_pos hhidden, visibleAfter, hhidden, Bool.or_true,
        if_pos rfl]
      rfl
  | case3 current hshown =>
      rw [filterVisibleProjectedHistoryMessages, if_neg hshown, visibleAfter, answersPrompt,
        Bool.false_and, Bool.false_and, Bool.false_or, if_neg hshown]
      rfl
  | case4 current next rest hpair ih =>
      rw [Bool.and_eq_true] at hpair
      rw [filterVisibleProjectedHistoryMessages, if_pos (Bool.and_eq_true_iff.mpr hpair), ih,
        visibleAfter, hidden_of_isPrompt hpair.1, Bool.or_true, if_pos rfl, hpair.1, visibleAfter,
        answersPrompt, hpair.2, Bool.true_and, Bool.true_and, Bool.not_or_self, if_pos rfl,
        not_isPrompt_of_isOkResponse hpair.2]
  | case5 current next rest hpair hhidden ih =>
      rw [Bool.not_eq_true] at hpair
      rw [filterVisibleProjectedHistoryMessages, hpair, if_neg Bool.false_ne_true, if_pos hhidden, ih,
        visibleAfter.eq_def host false (current :: next :: rest)]
      simp only [hhidden, Bool.or_true, if_true]
      exact (visibleAfter_cons rest hpair).symm
  | case6 current next rest hpair hshown ih =>
      rw [Bool.not_eq_true] at hpair
      rw [filterVisibleProjectedHistoryMessages, hpair, if_neg Bool.false_ne_true, if_neg hshown, ih,
        visibleAfter.eq_def host false (current :: next :: rest)]
      simp only [answersPrompt, Bool.false_and, Bool.false_or, hshown]
      exact congrArg (current :: ·) (visibleAfter_cons rest hpair).symm

theorem project_eq (maxChars : ℕ) (messages : List (Option (HistoryMessage β))) :
    projectChatDisplayMessages host maxChars messages =
      visibleAfter host false (candidates host maxChars messages) := by
  have hcandidates : (sanitizeChatHistoryMessages host maxChars
      (messages.map fun message => message.map (stripEnvelopeFromMessage host))).filterMap id =
        candidates host maxChars messages := by
    rw [sanitizeChatHistoryMessages, candidates, List.filterMap_filterMap, List.filterMap_map]
    congr 1
    funext message
    cases message with
    | none => rfl
    | some message =>
        simp only [Function.comp_apply, Option.map_some, candidate, Option.bind_some]
        split <;> rfl
  rw [projectChatDisplayMessages, filterVisible_eq, hcandidates]

theorem endsInPrompt_cons (afterPrompt : Bool) (rest : List (HistoryMessage β)) :
    endsInPrompt afterPrompt (message :: rest) = endsInPrompt (isPrompt message) rest := by
  cases rest with
  | nil => rfl
  | cons next rest =>
      rw [endsInPrompt, endsInPrompt, List.getLast?_cons_cons]
      cases hlast : (next :: rest).getLast? with
      | none => exact absurd (List.getLast?_eq_none_iff.mp hlast) (List.cons_ne_nil _ _)
      | some last => rfl

theorem visibleAfter_append (afterPrompt : Bool) (first second : List (HistoryMessage β)) :
    visibleAfter host afterPrompt (first ++ second) =
      visibleAfter host afterPrompt first ++
        visibleAfter host (endsInPrompt afterPrompt first) second := by
  induction first generalizing afterPrompt with
  | nil => rfl
  | cons message first ih =>
      rw [List.cons_append, visibleAfter, visibleAfter, endsInPrompt_cons, ih]
      split
      · rfl
      · rfl

theorem visibleAfter_sublist (afterPrompt : Bool) (messages : List (HistoryMessage β)) :
    (visibleAfter host afterPrompt messages).Sublist messages := by
  induction messages generalizing afterPrompt with
  | nil => exact List.Sublist.refl _
  | cons message rest ih =>
      rw [visibleAfter]
      split
      · exact (ih _).cons message
      · exact (ih _).cons_cons message

theorem visibleAfter_prompt (messages : List (HistoryMessage β)) :
    visibleAfter host true messages =
      if messages.head?.any (answersPrompt host true) = true then
        (visibleAfter host false messages).tail
      else visibleAfter host false messages := by
  cases messages with
  | nil => rfl
  | cons message rest =>
      rw [List.head?_cons, Option.any_some]
      cases hanswers : answersPrompt host true message with
      | true =>
          have hshown : shouldHideProjectedHistoryMessage host message = false := by
            rw [answersPrompt, Bool.and_eq_true, Bool.not_eq_true'] at hanswers
            exact hanswers.2
          rw [if_pos rfl, visibleAfter, visibleAfter, hanswers, hshown, answersPrompt, Bool.false_and,
            Bool.false_and, Bool.true_or, if_pos rfl, Bool.or_self, if_neg Bool.false_ne_true,
            List.tail_cons]
      | false =>
          rw [if_neg Bool.false_ne_true, visibleAfter, visibleAfter, hanswers, answersPrompt,
            Bool.false_and, Bool.false_and]

end Facts

end Visible

/-!
## Numbered transcripts

The texts of cursors, and the pages before a cursor of messages with increasing numbers.
-/

/-! ## The text of a number -/

theorem toNat_unit_of_isDigit {c : Char} (h : c.isDigit = true) :
    (unit c).toNat = c.toNat ∧ 48 ≤ c.toNat ∧ c.toNat ≤ 57 := by
  have hrange : 48 ≤ c.toNat ∧ c.toNat ≤ 57 := by
    simp only [Char.isDigit, Bool.and_eq_true, decide_eq_true_eq, ge_iff_le, UInt32.le_iff_toNat_le] at h
    exact h
  have hunit : (unit c).toNat = c.toNat := by
    show c.toNat % 2 ^ 16 = c.toNat
    omega
  exact ⟨hunit, hrange⟩

theorem isDigit_unit {c : Char} (h : c.isDigit = true) : isDigit (unit c) = true := by
  have hunit := toNat_unit_of_isDigit h
  simp only [isDigit, Bool.and_eq_true, decide_eq_true_eq, UInt16.le_iff_toNat_le]
  rw [hunit.1]
  exact hunit.2

theorem isSpace_of_isDigit {u : CodeUnit} (h : isDigit u = true) : isSpace u = false := by
  simp only [isDigit, Bool.and_eq_true, decide_eq_true_eq, UInt16.le_iff_toNat_le] at h
  have hlow : 48 ≤ u.toNat := h.1
  have hhigh : u.toNat ≤ 57 := h.2
  simp only [isSpace, Bool.or_eq_false_iff, Bool.and_eq_false_iff, decide_eq_false_iff_not,
    beq_eq_false_iff_ne, ne_eq, UInt16.le_iff_toNat_le, ← UInt16.toNat_inj]
  simp
  omega

theorem isDigit_of_mem_numberText {n : ℕ} {u : CodeUnit} (h : u ∈ numberText n) :
    isDigit u = true := by
  obtain ⟨c, hc, rfl⟩ := List.mem_map.mp h
  exact isDigit_unit (Nat.isDigit_of_mem_toDigits (by decide) (by decide) hc)

theorem numberText_ne_nil (n : ℕ) : numberText n ≠ [] := by
  rw [numberText, Ne, List.map_eq_nil_iff]
  exact Nat.toDigits_ne_nil

theorem foldl_digits (digits : List Char) (h : ∀ c ∈ digits, c.isDigit = true) (value : ℕ) :
    (digits.map unit).foldl (fun value u => 10 * value + (u.toNat - 48)) value =
      Nat.ofDigitChars 10 digits value := by
  induction digits generalizing value with
  | nil => simp
  | cons c digits ih =>
      have hunit := (toNat_unit_of_isDigit (h c List.mem_cons_self)).1
      rw [List.map_cons, List.foldl_cons, Nat.ofDigitChars_cons, hunit,
        ih (fun d hd => h d (List.mem_cons_of_mem _ hd))]
      rfl

theorem parseDecimal_numberText (n : ℕ) : parseDecimal (numberText n) = some n := by
  have hdigits : ∀ u ∈ numberText n, isDigit u = true := fun u hu =>
    isDigit_of_mem_numberText hu
  cases htext : numberText n with
  | nil => exact absurd htext (numberText_ne_nil n)
  | cons u rest =>
      rw [htext] at hdigits
      have hfirst : isDigit u = true := hdigits u List.mem_cons_self
      have hspace : (u :: rest).dropWhile isSpace = u :: rest := by
        rw [List.dropWhile_cons_of_neg]
        rw [isSpace_of_isDigit hfirst]
        exact Bool.false_ne_true
      have hplus : (u :: rest).head? ≠ some (unit '+') := by
        intro heq
        rw [List.head?_cons, Option.some.injEq] at heq
        rw [heq] at hfirst
        exact absurd hfirst (by decide)
      have htake : (u :: rest).takeWhile isDigit = u :: rest :=
        List.takeWhile_eq_self_iff.mpr hdigits
      have hvalue := foldl_digits (Nat.toDigits 10 n)
        (fun c hc => Nat.isDigit_of_mem_toDigits (by decide) (by decide) hc) 0
      rw [Nat.ofDigitChars_ten_toDigits] at hvalue
      change (numberText n).foldl _ 0 = n at hvalue
      rw [htext] at hvalue
      rw [parseDecimal, hspace]
      simp only [if_neg hplus, htake, hvalue, List.cons_ne_nil, if_false]

@[simp] theorem resolveCursorSeq_none : resolveCursorSeq none = none := rfl

theorem resolveCursorSeq_numberText {n : ℕ} (h : 0 < n) :
    resolveCursorSeq (some (numberText n)) = some n := by
  have hlabel : (js "seq:").isPrefixOf (numberText n) = false := by
    cases htext : numberText n with
    | nil => exact absurd htext (numberText_ne_nil n)
    | cons u rest =>
        have hfirst : isDigit u = true :=
          isDigit_of_mem_numberText (htext ▸ List.mem_cons_self)
        have hother : (unit 's' == u) = false := by
          rw [beq_eq_false_iff_ne]
          intro heq
          rw [← heq] at hfirst
          exact absurd hfirst (by decide)
        show ((unit 's' == u) && _) = false
        rw [hother, Bool.false_and]
  rw [resolveCursorSeq, Option.filter_some, if_pos (by simpa using numberText_ne_nil n),
    Option.bind_some, hlabel]
  simp only [Bool.false_eq_true, if_false, parseDecimal_numberText, Option.filter_some, h,
    decide_true, if_true]

/-! ## Numbers of messages -/

variable {β : Type}

structure Numbered (messages : List (Option (HistoryMessage β))) : Prop where
  isSome : ∀ message ∈ messages, (resolveMessageSeq message).isSome = true
  increasing : messages.Pairwise fun first second =>
    ∀ i ∈ resolveMessageSeq first, ∀ j ∈ resolveMessageSeq second, i < j

theorem Numbered.sublist {first second : List (Option (HistoryMessage β))} (h : Numbered second)
    (hsub : first.Sublist second) : Numbered first :=
  { isSome := fun message hmem => h.isSome message (hsub.subset hmem)
    increasing := h.increasing.sublist hsub }

theorem pos_of_resolveMessageSeq {message : Option (HistoryMessage β)} {seq : ℕ}
    (h : resolveMessageSeq message = some seq) : 0 < seq := by
  obtain ⟨found, -, hfound⟩ := Option.bind_eq_some_iff.mp h
  have hpos := (Option.filter_eq_some_iff.mp hfound).2
  simpa using hpos

theorem endBefore_append {before after : List (HistoryMessage β)} {cursorSeq : ℕ}
    (hbefore : ∀ message ∈ before, ∃ seq, resolveMessageSeq (some message) = some seq ∧ seq < cursorSeq)
    (hafter : ∀ message ∈ after, ∃ seq, resolveMessageSeq (some message) = some seq ∧ cursorSeq ≤ seq) :
    endBefore (before ++ after) cursorSeq = before.length := by
  rw [endBefore, List.zipIdx_append, List.findIdx?_append,
    (List.findIdx?_eq_none_iff.mpr ?_ : List.findIdx? _ before.zipIdx = none), Option.none_or]
  · cases after with
    | nil => simp
    | cons message after =>
        obtain ⟨seq, hseq, hle⟩ := hafter message List.mem_cons_self
        rw [List.zipIdx_cons, List.findIdx?_cons]
        simp [hseq, hle]
  · intro entry hentry
    obtain ⟨seq, hseq, hlt⟩ := hbefore entry.1 (List.fst_mem_of_mem_zipIdx hentry)
    rw [hseq]
    exact decide_eq_false (by omega)

theorem paginate_before {before after : List (HistoryMessage β)} {cursorSeq : ℕ} (limit : Option ℕ)
    (hpos : 0 < cursorSeq)
    (hbefore : ∀ message ∈ before, ∃ seq, resolveMessageSeq (some message) = some seq ∧ seq < cursorSeq)
    (hafter : ∀ message ∈ after, ∃ seq, resolveMessageSeq (some message) = some seq ∧ cursorSeq ≤ seq) :
    paginateSessionMessages (before ++ after) limit (some (numberText cursorSeq)) =
      paginateSessionMessages before limit none := by
  have hend := endBefore_append hbefore hafter
  have htake : (before ++ after).take before.length = before := List.take_left
  rw [paginateSessionMessages, paginateSessionMessages]
  simp only [resolveCursorSeq_numberText hpos, resolveCursorSeq_none, hend, htake, List.take_length]
  rfl

theorem paginate_end (messages : List (HistoryMessage β)) {limit : ℕ} (h : 0 < limit) :
    (paginateSessionMessages messages (some limit) none).messages =
        messages.drop (messages.length - limit) ∧
      (paginateSessionMessages messages (some limit) none).hasMore =
        decide (limit < messages.length) := by
  have hlimit : (some limit).filter (fun limit => decide (0 < limit)) = some limit := by
    rw [Option.filter_some, if_pos (decide_eq_true h)]
  have hsub : (0 < messages.length - limit) ↔ limit < messages.length := by omega
  simp only [paginateSessionMessages, resolveCursorSeq_none, hlimit,
    List.take_length, hsub, and_self]

theorem paginate_nextCursor {before after : List (HistoryMessage β)} {message : HistoryMessage β}
    {limit seq : ℕ} (h : 0 < limit) (hlength : (message :: after).length = limit)
    (hbefore : before ≠ []) (hseq : resolveMessageSeq (some message) = some seq) :
    (paginateSessionMessages (before ++ message :: after) (some limit) none).nextCursor =
      some (numberText seq) := by
  have hlimit : (some limit).filter (fun limit => decide (0 < limit)) = some limit := by
    rw [Option.filter_some, if_pos (decide_eq_true h)]
  have hstart : (before ++ message :: after).length - limit = before.length := by
    rw [List.length_append]
    omega
  have hpos : 0 < before.length := List.length_pos_iff.mpr hbefore
  simp only [paginateSessionMessages, resolveCursorSeq_none, hlimit,
    List.take_length, hstart, hpos, if_true, List.drop_left, List.head?_cons, hseq, Option.map_some]

section Projection

variable (host : DisplayHost β) [UnicodeCase] {maxChars : ℕ}

theorem resolveMessageSeq_candidate {message : Option (HistoryMessage β)}
    {shown : HistoryMessage β} (h : candidate host maxChars message = some shown) :
    resolveMessageSeq (some shown) = resolveMessageSeq message := by
  obtain ⟨message, rfl, hshown⟩ := Option.bind_eq_some_iff.mp h
  simp only at hshown
  split at hshown
  · exact absurd hshown (by simp)
  · rw [← Option.some.inj hshown]
    rfl

theorem Numbered.candidates {messages : List (Option (HistoryMessage β))} (h : Numbered messages) :
    Numbered ((candidates host maxChars messages).map some) := by
  constructor
  · intro message hmem
    obtain ⟨shown, hshown, rfl⟩ := List.mem_map.mp hmem
    obtain ⟨raw, hraw, hcandidate⟩ := List.mem_filterMap.mp hshown
    rw [resolveMessageSeq_candidate host hcandidate]
    exact h.isSome raw hraw
  · rw [List.pairwise_map]
    apply List.Pairwise.filterMap _ _ h.increasing
    intro first second hlt shown hshown next hnext i hi j hj
    rw [resolveMessageSeq_candidate host hshown] at hi
    rw [resolveMessageSeq_candidate host hnext] at hj
    exact hlt i hi j hj

theorem Numbered.visibleAfter {messages : List (HistoryMessage β)} (h : Numbered (messages.map some))
    (afterPrompt : Bool) : Numbered ((visibleAfter host afterPrompt messages).map some) :=
  h.sublist ((visibleAfter_sublist afterPrompt messages).map some)

end Projection

theorem Numbered.split {before after : List (HistoryMessage β)} {message : HistoryMessage β}
    {seq : ℕ} (h : Numbered ((before ++ message :: after).map some))
    (hseq : resolveMessageSeq (some message) = some seq) :
    (∀ other ∈ before, ∃ i, resolveMessageSeq (some other) = some i ∧ i < seq) ∧
      (∀ other ∈ after, ∃ i, resolveMessageSeq (some other) = some i ∧ seq < i) := by
  have hsome : ∀ other ∈ before ++ message :: after, ∃ i, resolveMessageSeq (some other) = some i :=
    fun other hmem => Option.isSome_iff_exists.mp (h.isSome _ (List.mem_map_of_mem hmem))
  have hincreasing := h.increasing
  rw [List.pairwise_map, List.pairwise_append, List.pairwise_cons] at hincreasing
  constructor
  · intro other hmem
    obtain ⟨i, hi⟩ := hsome other (List.mem_append_left _ hmem)
    exact ⟨i, hi, hincreasing.2.2 other hmem message List.mem_cons_self i hi seq hseq⟩
  · intro other hmem
    obtain ⟨i, hi⟩ := hsome other (List.mem_append_right _ (List.mem_cons_of_mem _ hmem))
    exact ⟨i, hi, hincreasing.2.1.1 other hmem seq hseq i hi⟩

end GreenchClaw.SessionHistory
