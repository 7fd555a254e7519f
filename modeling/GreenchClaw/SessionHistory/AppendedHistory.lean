import GreenchClaw.SessionHistory.PagesComplete

/-!
# Messages appended one by one

The history of a stream to which messages are appended, beside the one that is read again from the whole
transcript.
-/

namespace GreenchClaw.SessionHistory

open GreenchClaw.Js

variable {β : Type}

def numberFrom : ℕ → List (HistoryMessage β) → List (Option (HistoryMessage β))
  | _, [] => []
  | seq, message :: rest => some { message with seq := some seq } :: numberFrom (seq + 1) rest

section Runs

variable (host : DisplayHost β) [UnicodeCase]

def appendInlineMessages (state : SessionHistorySseState β) (messages : List (HistoryMessage β)) :
    SessionHistorySseState β :=
  messages.foldl (fun state message => (appendInlineMessage host state (some message)).1) state

def wholeStream (raw : List (Option (HistoryMessage β))) (maxChars : Option ℕ) :
    SessionHistorySseState β :=
  fromRawSnapshot host raw none none maxChars none none

def writtenTranscript (raw : List (Option (HistoryMessage β))) (maxChars : Option ℕ)
    (messages : List (HistoryMessage β)) : List (Option (HistoryMessage β)) :=
  raw ++ numberFrom ((wholeStream host raw maxChars).rawTranscriptSeq + 1) messages

def AppendsAgree (raw : List (Option (HistoryMessage β))) (maxChars : Option ℕ)
    (messages : List (HistoryMessage β)) : Prop :=
  let appended := appendInlineMessages host (wholeStream host raw maxChars) messages
  refresh host appended (writtenTranscript host raw maxChars messages) = appended

def Unanswered : Bool → List (HistoryMessage β) → Prop
  | _, [] => True
  | afterPrompt, message :: rest =>
      answersPrompt host afterPrompt message = false ∧ Unanswered (isPrompt message) rest

def NewMessagesUnanswered (raw : List (Option (HistoryMessage β))) (maxChars : Option ℕ)
    (messages : List (HistoryMessage β)) : Prop :=
  let chars := maxChars.getD DEFAULT_CHAT_HISTORY_TEXT_MAX_CHARS
  Unanswered host (endsInPrompt false (candidates host chars raw))
    (candidates host chars
      (numberFrom ((wholeStream host raw maxChars).rawTranscriptSeq + 1) messages))

end Runs

/-! ## Numbers -/

def lastSeq (raw : List (Option (HistoryMessage β))) : ℕ :=
  (resolveMessageSeq (raw.filterMap id).getLast?).getD (raw.filterMap id).length

theorem lastSeq_concat (raw : List (Option (HistoryMessage β))) {message : HistoryMessage β} {seq : ℕ}
    (hpos : 0 < seq) (hseq : message.seq = some seq) : lastSeq (raw ++ [some message]) = seq := by
  have hlast : ((raw ++ [some message]).filterMap id).getLast? = some message := by
    rw [List.filterMap_append]
    exact List.getLast?_concat
  rw [lastSeq, hlast, resolveMessageSeq, Option.bind_some, hseq, Option.filter_some,
    if_pos (decide_eq_true hpos), Option.getD_some]

theorem lastSeq_append (raw : List (Option (HistoryMessage β))) (messages : List (HistoryMessage β)) :
    lastSeq (raw ++ numberFrom (lastSeq raw + 1) messages) = lastSeq raw + messages.length := by
  induction messages generalizing raw with
  | nil => rw [numberFrom, List.append_nil, List.length_nil, Nat.add_zero]
  | cons message messages ih =>
      have hone : lastSeq (raw ++ [some { message with seq := some (lastSeq raw + 1) }]) =
          lastSeq raw + 1 := lastSeq_concat raw (Nat.succ_pos _) rfl
      have hrest := ih (raw ++ [some { message with seq := some (lastSeq raw + 1) }])
      rw [hone, List.append_assoc, List.singleton_append] at hrest
      rw [numberFrom, hrest, List.length_cons]
      omega

section Facts

variable (host : DisplayHost β) [UnicodeCase]

/-! ## Both histories -/

def shownAlone (messages : List (HistoryMessage β)) : List (HistoryMessage β) :=
  messages.filter fun message => !shouldHideProjectedHistoryMessage host message

theorem project_one (maxChars : ℕ) (message : Option (HistoryMessage β)) :
    projectChatDisplayMessages host maxChars [message] =
      shownAlone host (candidates host maxChars [message]) := by
  rw [project_eq, candidates, List.filterMap_cons, List.filterMap_nil]
  cases candidate host maxChars message with
  | none => rfl
  | some shown =>
      cases hhidden : shouldHideProjectedHistoryMessage host shown with
      | true => simp [visibleAfter, shownAlone, answersPrompt, hhidden]
      | false => simp [visibleAfter, shownAlone, answersPrompt, hhidden]

theorem appendInlineMessage_fst {state : SessionHistorySseState β} (message : HistoryMessage β)
    (hlimit : state.limit = none) (hcursor : state.cursor = none) {messages : List (HistoryMessage β)}
    (hsent : state.sentHistory = { messages, hasMore := false }) :
    (appendInlineMessage host state (some message)).1 =
      { state with
        sentHistory :=
          { messages := messages ++ shownAlone host (candidates host state.maxChars
              [some { message with seq := some (state.rawTranscriptSeq + 1) }])
            hasMore := false }
        rawTranscriptSeq := state.rawTranscriptSeq + 1 } := by
  have hopen : (state.limit.isSome || state.cursor.isSome) = false := by
    rw [hlimit, hcursor]
    rfl
  rw [appendInlineMessage, hopen, if_neg Bool.false_ne_true]
  simp only [Option.map_some, project_one]
  rw [candidates, List.filterMap_cons, List.filterMap_nil]
  cases candidate host state.maxChars
      (some { message with seq := some (state.rawTranscriptSeq + 1) }) with
  | none => simp [shownAlone, hsent]
  | some shown =>
      cases hhidden : shouldHideProjectedHistoryMessage host shown with
      | true => simp [shownAlone, hhidden, hsent]
      | false => simp [shownAlone, hhidden, hsent]

theorem appendInlineMessages_eq {state : SessionHistorySseState β}
    (messages : List (HistoryMessage β)) (hlimit : state.limit = none) (hcursor : state.cursor = none)
    {sent : List (HistoryMessage β)} (hsent : state.sentHistory = { messages := sent, hasMore := false }) :
    appendInlineMessages host state messages =
      { state with
        sentHistory :=
          { messages := sent ++ shownAlone host (candidates host state.maxChars
              (numberFrom (state.rawTranscriptSeq + 1) messages))
            hasMore := false }
        rawTranscriptSeq := state.rawTranscriptSeq + messages.length } := by
  induction messages generalizing state sent with
  | nil =>
      rw [numberFrom, candidates, List.filterMap_nil, shownAlone, List.filter_nil, List.append_nil,
        ← hsent]
      rfl
  | cons message messages ih =>
      have hstep := appendInlineMessage_fst host message hlimit hcursor hsent
      have hrest : appendInlineMessages host (appendInlineMessage host state (some message)).1
          messages = _ :=
        ih (by rw [hstep]; exact hlimit) (by rw [hstep]; exact hcursor) (by rw [hstep])
      rw [appendInlineMessages] at hrest ⊢
      rw [List.foldl_cons, hrest, hstep]
      have hsplit : candidates host state.maxChars
          (numberFrom (state.rawTranscriptSeq + 1) (message :: messages)) =
            candidates host state.maxChars
              [some { message with seq := some (state.rawTranscriptSeq + 1) }] ++
            candidates host state.maxChars (numberFrom (state.rawTranscriptSeq + 1 + 1) messages) := by
        rw [← candidates_append]
        rfl
      have hcount : state.rawTranscriptSeq + 1 + messages.length =
          state.rawTranscriptSeq + (message :: messages).length := by
        rw [List.length_cons]
        omega
      simp only [hsplit, hcount, shownAlone, List.filter_append, List.append_assoc]

section Alone

variable {host}

theorem shownAlone_cons_of_hidden {message : HistoryMessage β}
    (h : shouldHideProjectedHistoryMessage host message = true) (rest : List (HistoryMessage β)) :
    shownAlone host (message :: rest) = shownAlone host rest := by
  rw [shownAlone, List.filter_cons, h]
  rfl

theorem shownAlone_cons_of_shown {message : HistoryMessage β}
    (h : shouldHideProjectedHistoryMessage host message = false) (rest : List (HistoryMessage β)) :
    shownAlone host (message :: rest) = message :: shownAlone host rest := by
  rw [shownAlone, List.filter_cons, h]
  rfl

theorem visibleAfter_sublist_shownAlone (afterPrompt : Bool) (messages : List (HistoryMessage β)) :
    (visibleAfter host afterPrompt messages).Sublist (shownAlone host messages) := by
  induction messages generalizing afterPrompt with
  | nil => exact List.Sublist.refl _
  | cons message rest ih =>
      rw [visibleAfter]
      cases hhidden : shouldHideProjectedHistoryMessage host message with
      | true =>
          rw [Bool.or_true, if_pos rfl, shownAlone_cons_of_hidden hhidden]
          exact ih _
      | false =>
          rw [shownAlone_cons_of_shown hhidden]
          split
          · exact (ih _).cons message
          · exact (ih _).cons_cons message

theorem visibleAfter_eq_shownAlone_iff (afterPrompt : Bool) (messages : List (HistoryMessage β)) :
    visibleAfter host afterPrompt messages = shownAlone host messages ↔
      Unanswered host afterPrompt messages := by
  induction messages generalizing afterPrompt with
  | nil => exact iff_of_true rfl trivial
  | cons message rest ih =>
      rw [visibleAfter, Unanswered]
      cases hhidden : shouldHideProjectedHistoryMessage host message with
      | true =>
          have hanswer : answersPrompt host afterPrompt message = false := by
            rw [answersPrompt, hhidden, Bool.not_true, Bool.and_false]
          rw [Bool.or_true, if_pos rfl, shownAlone_cons_of_hidden hhidden, ih, hanswer]
          exact (and_iff_right rfl).symm
      | false =>
          rw [shownAlone_cons_of_shown hhidden, Bool.or_false]
          cases hanswer : answersPrompt host afterPrompt message with
          | true =>
              -- An answer is missing, and the rest shows no more than each message alone.
              have hlength : (visibleAfter host (isPrompt message) rest).length ≤
                  (shownAlone host rest).length := (visibleAfter_sublist_shownAlone _ rest).length_le
              rw [if_pos rfl]
              apply iff_of_false
              · intro heq
                have hcount := congrArg List.length heq
                rw [List.length_cons] at hcount
                omega
              · exact fun h => absurd h.1 (by simp)
          | false =>
              rw [if_neg Bool.false_ne_true, List.cons.injEq, ih]
              exact and_congr_left fun _ => iff_of_true rfl rfl

end Alone

/-! ## Agreement -/

theorem wholeStream_eq (raw : List (Option (HistoryMessage β))) (maxChars : Option ℕ) :
    wholeStream host raw maxChars =
      { maxChars := maxChars.getD DEFAULT_CHAT_HISTORY_TEXT_MAX_CHARS
        limit := none
        cursor := none
        sentHistory := { messages := shownMessages host raw maxChars, hasMore := false }
        rawTranscriptSeq := lastSeq raw } := by
  simp [wholeStream, fromRawSnapshot, buildSessionHistorySnapshot, paginateSessionMessages,
    shownMessages, lastSeq]

theorem refresh_eq {state : SessionHistorySseState β} (raw : List (Option (HistoryMessage β)))
    (hlimit : state.limit = none) (hcursor : state.cursor = none) :
    refresh host state raw =
      { state with
        sentHistory :=
          { messages := projectChatDisplayMessages host state.maxChars raw, hasMore := false }
        rawTranscriptSeq := lastSeq raw } := by
  simp [refresh, buildSessionHistorySnapshot, paginateSessionMessages, lastSeq, hlimit, hcursor]

theorem appendsAgree_iff (raw : List (Option (HistoryMessage β))) (maxChars : Option ℕ)
    (messages : List (HistoryMessage β)) :
    AppendsAgree host raw maxChars messages ↔ NewMessagesUnanswered host raw maxChars messages := by
  have hstream := wholeStream_eq host raw maxChars
  have happended : appendInlineMessages host (wholeStream host raw maxChars) messages = _ :=
    appendInlineMessages_eq host messages (by rw [hstream]) (by rw [hstream]) (by rw [hstream])
  have hwritten : writtenTranscript host raw maxChars messages =
      raw ++ numberFrom (lastSeq raw + 1) messages := by
    rw [writtenTranscript, hstream]
  have hshown : projectChatDisplayMessages host (maxChars.getD DEFAULT_CHAT_HISTORY_TEXT_MAX_CHARS)
      (raw ++ numberFrom (lastSeq raw + 1) messages) =
        shownMessages host raw maxChars ++
          visibleAfter host (endsInPrompt false (candidates host
              (maxChars.getD DEFAULT_CHAT_HISTORY_TEXT_MAX_CHARS) raw))
            (candidates host (maxChars.getD DEFAULT_CHAT_HISTORY_TEXT_MAX_CHARS)
              (numberFrom (lastSeq raw + 1) messages)) := by
    rw [project_eq, candidates_append, visibleAfter_append, shownMessages, project_eq]
  rw [hstream] at happended
  rw [AppendsAgree, NewMessagesUnanswered, ← visibleAfter_eq_shownAlone_iff, hstream, happended,
    refresh_eq host _ rfl rfl, hwritten]
  simp only [hshown, lastSeq_append, SessionHistorySseState.mk.injEq,
    PaginatedSessionHistory.mk.injEq, List.append_cancel_left_eq, true_and, and_true]

end Facts

/-! ## The histories of a session -/

/-- Following the cursors from the tail shows a numbered transcript exactly when its window suffices, and
messages that are appended agree with it exactly when none of them is an answer to a prompt before it. -/
theorem history_agrees_iff (host : DisplayHost β) [UnicodeCase]
    (raw : List (Option (HistoryMessage β))) (maxChars : Option ℕ) (limit : ℕ)
    (messages : List (HistoryMessage β)) (hnumbered : Numbered raw) (hlimit : 1 ≤ limit) :
    (PagesReachEverything host raw maxChars limit ↔ WindowSuffices host raw maxChars limit) ∧
      (AppendsAgree host raw maxChars messages ↔
        NewMessagesUnanswered host raw maxChars messages) := by
  constructor
  · exact pagesReachEverything_iff host hnumbered hlimit
  · exact appendsAgree_iff host raw maxChars messages

section Samples

attribute [local instance] asciiCase

def plainHost : DisplayHost Unit :=
  { stripFields := id
    sanitizeFields := fun _ message => message
    skipsHeartbeat := fun text => trim text = js "HEARTBEAT_OK"
    isSuppressedControlReplyText := fun _ => false
    announced := fun _ => false }

def textMessage (role text : JsString) (seq : ℕ) : HistoryMessage Unit :=
  { role := some role, content := .text text, seq := some seq, rest := () }

def polledTranscript (later : List (HistoryMessage Unit)) : List (Option (HistoryMessage Unit)) :=
  (textMessage (js "user") (js "hello") 1 ::
    (List.range 40).map (fun i => textMessage (js "user") HEARTBEAT_TRANSCRIPT_PROMPT (i + 2)) ++
      later).map some

theorem polledTranscript_numbered (later : List (HistoryMessage Unit))
    (h : (polledTranscript later).all (fun message => (resolveMessageSeq message).isSome) = true)
    (hlt : ((polledTranscript later).filterMap resolveMessageSeq).Pairwise (· < ·)) :
    Numbered (polledTranscript later) := by
  constructor
  · exact List.all_eq_true.mp h
  · rw [List.pairwise_filterMap] at hlt
    exact hlt

/-- A message after the polls is on the first page, and the one before them on the second. -/
theorem history_agrees_iff_polled :
    PagesReachEverything plainHost
        (polledTranscript [textMessage (js "user") (js "news") 42]) none 1 ∧
      AppendsAgree plainHost (polledTranscript [textMessage (js "user") (js "news") 42]) none
        [textMessage (js "assistant") (js "fine") 1] := by
  have hboth := history_agrees_iff plainHost
    (polledTranscript [textMessage (js "user") (js "news") 42]) none 1
    [textMessage (js "assistant") (js "fine") 1]
    (polledTranscript_numbered _ (by decide +kernel) (by decide +kernel)) (Nat.le_refl 1)
  constructor
  · rw [hboth.1]
    right
    constructor
    · intro hnone
      exact absurd (congrArg List.length hnone) (by decide +kernel)
    · intro hanswer
      exact absurd hanswer (by decide +kernel)
  · rw [hboth.2]
    exact ⟨by decide +kernel, trivial⟩

/-- The window of the tail holds the polls alone, so the first page is the last one; and an empty answer
to a poll stays in a stream that shows no poll. -/
theorem history_misses_polled :
    Numbered (polledTranscript []) ∧ ¬PagesReachEverything plainHost (polledTranscript []) none 1 ∧
      ¬AppendsAgree plainHost (polledTranscript []) none [textMessage (js "assistant") [] 1] := by
  have hnumbered : Numbered (polledTranscript []) :=
    polledTranscript_numbered [] (by decide +kernel) (by decide +kernel)
  have hwindow : (shownMessages plainHost (tailWindow (polledTranscript []) 1) none).length = 0 := by
    decide +kernel
  refine ⟨hnumbered, ?_, ?_⟩
  · rw [pagesReachEverything_iff plainHost hnumbered (Nat.le_refl 1)]
    intro hsuffices
    cases hsuffices with
    | inl hshort => exact absurd hshort (by decide +kernel)
    | inr hshows =>
        have hnone := hshows.1 (List.eq_nil_of_length_eq_zero hwindow)
        exact absurd (congrArg List.length hnone) (by decide +kernel)
  · rw [appendsAgree_iff]
    intro hunanswered
    exact absurd hunanswered.1 (by decide +kernel)

end Samples

end GreenchClaw.SessionHistory
