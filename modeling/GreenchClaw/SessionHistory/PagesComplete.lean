import GreenchClaw.SessionHistory.Numbered

/-!
# Pages of a whole history

Following the cursors from any page shows everything before it.  Only the first page, which is that of a
window, and the messages that are appended one by one can disagree with the whole transcript.
-/

namespace GreenchClaw.SessionHistory

open GreenchClaw.Js

variable {β : Type}

/-- The messages of pages that were followed from the newest one, the oldest message first. -/
def pagesMessages (pages : List (PaginatedSessionHistory β)) : List (HistoryMessage β) :=
  pages.reverse.flatMap fun page => page.messages

@[simp] theorem pagesMessages_cons (page : PaginatedSessionHistory β)
    (pages : List (PaginatedSessionHistory β)) :
    pagesMessages (page :: pages) = pagesMessages pages ++ page.messages := by
  simp [pagesMessages]

theorem exists_page (messages : List (HistoryMessage β)) {limit : ℕ} (hlimit : 0 < limit)
    (hmessages : messages ≠ []) :
    ∃ rest message page, messages = rest ++ message :: page ∧
      messages.drop (messages.length - limit) = message :: page ∧
      rest.length = messages.length - limit := by
  have hlength : 0 < messages.length := List.length_pos_iff.mpr hmessages
  cases hpage : messages.drop (messages.length - limit) with
  | nil =>
      have hle := List.drop_eq_nil_iff.mp hpage
      omega
  | cons message page =>
      refine ⟨messages.take (messages.length - limit), message, page, ?_, rfl, ?_⟩
      · rw [← hpage, List.take_append_drop]
      · rw [List.length_take]
        omega

section Follow

variable (host : DisplayHost β) [UnicodeCase]
variable {raw : List (Option (HistoryMessage β))} {maxChars : Option ℕ} {limit : ℕ}

def shownMessages (raw : List (Option (HistoryMessage β))) (maxChars : Option ℕ) :
    List (HistoryMessage β) :=
  projectChatDisplayMessages host (maxChars.getD DEFAULT_CHAT_HISTORY_TEXT_MAX_CHARS) raw

theorem fullSnapshot_history (cursor : Option JsString) (limit : Option ℕ) :
    (fullSnapshot host raw maxChars limit cursor).history =
      paginateSessionMessages (shownMessages host raw maxChars) limit cursor := by
  simp [fullSnapshot, buildSessionHistorySnapshot, shownMessages]

theorem followPages_stop {page : PaginatedSessionHistory β} (requests : ℕ)
    (h : page.hasMore = false) :
    followPages host raw maxChars limit requests page = some [page] := by
  cases requests with
  | zero => rw [followPages, if_pos h]
  | succ requests => rw [followPages, if_pos h]

theorem followPages_more {page : PaginatedSessionHistory β} {before after : List (HistoryMessage β)}
    {seq : ℕ} (requests : ℕ) (hmore : page.hasMore = true)
    (hcursor : page.nextCursor = some (numberText seq)) (hpos : 0 < seq)
    (hshown : shownMessages host raw maxChars = before ++ after)
    (hbefore : ∀ message ∈ before, ∃ i, resolveMessageSeq (some message) = some i ∧ i < seq)
    (hafter : ∀ message ∈ after, ∃ i, resolveMessageSeq (some message) = some i ∧ seq ≤ i) :
    followPages host raw maxChars limit (requests + 1) page =
      (followPages host raw maxChars limit requests
        (paginateSessionMessages before (some limit) none)).map fun pages => page :: pages := by
  have hnext : (fullSnapshot host raw maxChars (some limit) page.nextCursor).history =
      paginateSessionMessages before (some limit) none := by
    rw [fullSnapshot_history, hshown, hcursor]
    exact paginate_before (some limit) hpos hbefore hafter
  rw [followPages, if_neg (by simp [hmore])]
  simp only [hnext]

theorem followPages_step {before after : List (HistoryMessage β)} (requests : ℕ)
    (hnumbered : Numbered ((shownMessages host raw maxChars).map some))
    (hshown : shownMessages host raw maxChars = before ++ after) (hlimit : 0 < limit)
    (hlong : limit < before.length) :
    ∃ rest page, before = rest ++ page ∧ rest.length < before.length ∧
      (paginateSessionMessages before (some limit) none).messages = page ∧
      followPages host raw maxChars limit (requests + 1)
          (paginateSessionMessages before (some limit) none) =
        (followPages host raw maxChars limit requests
          (paginateSessionMessages rest (some limit) none)).map fun pages =>
            paginateSessionMessages before (some limit) none :: pages := by
  have hbefore : before ≠ [] := List.length_pos_iff.mp (by omega)
  obtain ⟨rest, message, page, hrest, hpage, hlength⟩ := exists_page before hlimit hbefore
  have hmessages := (paginate_end before hlimit).1
  have hmore : (paginateSessionMessages before (some limit) none).hasMore = true := by
    rw [(paginate_end before hlimit).2]
    exact decide_eq_true hlong
  have hpageLength : (message :: page).length = limit := by
    have htotal : before.length = rest.length + (message :: page).length := by
      rw [hrest, List.length_append]
    omega
  have hwhole : shownMessages host raw maxChars = rest ++ message :: (page ++ after) := by
    rw [hshown, hrest, List.append_assoc, List.cons_append]
  have hsome : (resolveMessageSeq (some message)).isSome = true := by
    apply hnumbered.isSome
    rw [hwhole]
    simp
  obtain ⟨seq, hseq⟩ := Option.isSome_iff_exists.mp hsome
  have hrestNil : rest ≠ [] := List.length_pos_iff.mp (by omega)
  have hcursor : (paginateSessionMessages before (some limit) none).nextCursor =
      some (numberText seq) := by
    rw [hrest]
    exact paginate_nextCursor hlimit hpageLength hrestNil hseq
  have hsplit : _ ∧ _ := Numbered.split (hwhole ▸ hnumbered) hseq
  refine ⟨rest, message :: page, hrest, by omega, hmessages.trans hpage, ?_⟩
  apply followPages_more host requests hmore hcursor (pos_of_resolveMessageSeq hseq) hwhole hsplit.1
  intro other hmem
  cases hmem with
  | head => exact ⟨seq, hseq, Nat.le_refl seq⟩
  | tail _ hmem =>
      obtain ⟨i, hi, hlt⟩ := hsplit.2 other hmem
      exact ⟨i, hi, Nat.le_of_lt hlt⟩

theorem followPages_messages {before after : List (HistoryMessage β)} (requests : ℕ)
    (hnumbered : Numbered ((shownMessages host raw maxChars).map some))
    (hshown : shownMessages host raw maxChars = before ++ after) (hlimit : 0 < limit)
    {pages : List (PaginatedSessionHistory β)}
    (hpages : followPages host raw maxChars limit requests
      (paginateSessionMessages before (some limit) none) = some pages) :
    pagesMessages pages = before := by
  induction requests generalizing before after pages with
  | zero =>
      rw [followPages] at hpages
      split at hpages
      · rename_i hstop
        rw [(paginate_end before hlimit).2, decide_eq_false_iff_not] at hstop
        have hzero : before.length - limit = 0 := by omega
        rw [← Option.some.inj hpages, pagesMessages_cons, (paginate_end before hlimit).1, hzero]
        rfl
      · exact absurd hpages (by simp)
  | succ requests ih =>
      by_cases hlong : limit < before.length
      · obtain ⟨rest, page, hrest, -, hmessages, hfollow⟩ :=
          followPages_step host requests hnumbered hshown hlimit hlong
        rw [hfollow] at hpages
        obtain ⟨older, holder, rfl⟩ := Option.map_eq_some_iff.mp hpages
        have hwhole : shownMessages host raw maxChars = rest ++ (page ++ after) := by
          rw [hshown, hrest, List.append_assoc]
        rw [pagesMessages_cons, ih hwhole holder, hmessages]
        exact hrest.symm
      · have hstop : (paginateSessionMessages before (some limit) none).hasMore = false := by
          rw [(paginate_end before hlimit).2]
          exact decide_eq_false hlong
        have hzero : before.length - limit = 0 := by omega
        rw [followPages_stop host _ hstop] at hpages
        rw [← Option.some.inj hpages, pagesMessages_cons, (paginate_end before hlimit).1, hzero]
        rfl

theorem followPages_isSome {before after : List (HistoryMessage β)} (requests : ℕ)
    (hnumbered : Numbered ((shownMessages host raw maxChars).map some))
    (hshown : shownMessages host raw maxChars = before ++ after) (hlimit : 0 < limit)
    (henough : before.length ≤ requests) :
    (followPages host raw maxChars limit requests
      (paginateSessionMessages before (some limit) none)).isSome = true := by
  induction requests generalizing before after with
  | zero =>
      rw [followPages_stop host _ (by rw [(paginate_end before hlimit).2]; exact decide_eq_false (by omega))]
      rfl
  | succ requests ih =>
      by_cases hlong : limit < before.length
      · obtain ⟨rest, page, hrest, hlt, -, hfollow⟩ :=
          followPages_step host requests hnumbered hshown hlimit hlong
        have hwhole : shownMessages host raw maxChars = rest ++ (page ++ after) := by
          rw [hshown, hrest, List.append_assoc]
        rw [hfollow, Option.isSome_map]
        exact ih hwhole (by omega)
      · rw [followPages_stop host _ (by rw [(paginate_end before hlimit).2]; exact decide_eq_false hlong)]
        rfl

end Follow

/-! ## The page of the tail -/

section Tail

variable (host : DisplayHost β) [UnicodeCase]
variable (raw : List (Option (HistoryMessage β))) (maxChars : Option ℕ) (limit : ℕ)

def beforeTail : List (Option (HistoryMessage β)) :=
  raw.take (raw.length - resolveSessionHistoryTailReadOptions limit)

def tailWindow : List (Option (HistoryMessage β)) :=
  raw.drop (raw.length - resolveSessionHistoryTailReadOptions limit)

def windowStartsWithAnswer : Bool :=
  let maxChars := maxChars.getD DEFAULT_CHAT_HISTORY_TEXT_MAX_CHARS
  (candidates host maxChars (tailWindow raw limit)).head?.any
    (answersPrompt host (endsInPrompt false (candidates host maxChars (beforeTail raw limit))))

/-- Following the cursors from the tail ends, and shows every visible message once, in order. -/
def PagesReachEverything : Prop :=
  ∃ requests pages,
    followPages host raw maxChars limit requests (tailSnapshot host raw maxChars limit).history =
        some pages ∧
      pagesMessages pages = shownMessages host raw maxChars

/-- The window is the transcript; or it shows something if the transcript does, and more than a page
where it shows an answer that the transcript does not show. -/
def WindowSuffices : Prop :=
  raw.length ≤ resolveSessionHistoryTailReadOptions limit ∨
    (shownMessages host (tailWindow raw limit) maxChars = [] → shownMessages host raw maxChars = []) ∧
      (windowStartsWithAnswer host raw maxChars limit = true →
        limit < (shownMessages host (tailWindow raw limit) maxChars).length)

section Facts

variable {raw maxChars limit}

omit [UnicodeCase] in
theorem beforeTail_append : beforeTail raw limit ++ tailWindow raw limit = raw :=
  List.take_append_drop _ raw

theorem shownMessages_tail :
    shownMessages host raw maxChars =
      shownMessages host (beforeTail raw limit) maxChars ++
        if windowStartsWithAnswer host raw maxChars limit = true then
          (shownMessages host (tailWindow raw limit) maxChars).tail
        else shownMessages host (tailWindow raw limit) maxChars := by
  have hcandidates : ∀ chars, candidates host chars raw =
      candidates host chars (beforeTail raw limit) ++ candidates host chars (tailWindow raw limit) := by
    intro chars
    rw [← candidates_append, beforeTail_append]
  rw [shownMessages, shownMessages, shownMessages, project_eq, project_eq, project_eq, hcandidates,
    visibleAfter_append, windowStartsWithAnswer]
  congr 1
  cases endsInPrompt false (candidates host (maxChars.getD DEFAULT_CHAT_HISTORY_TEXT_MAX_CHARS)
    (beforeTail raw limit)) with
  | true => exact visibleAfter_prompt _
  | false =>
      have hnone : ∀ first : Option (HistoryMessage β),
          first.any (answersPrompt host false) = false := by
        intro first
        cases first <;> rfl
      rw [hnone, if_neg Bool.false_ne_true]

theorem tailWindow_ne_nil (h : windowStartsWithAnswer host raw maxChars limit = true) :
    shownMessages host (tailWindow raw limit) maxChars ≠ [] := by
  obtain ⟨message, hfirst, hanswer⟩ := (Option.any_eq_true _ _).mp h
  obtain ⟨rest, hrest⟩ := List.head?_eq_some_iff.mp hfirst
  rw [answersPrompt, Bool.and_eq_true, Bool.not_eq_true'] at hanswer
  rw [shownMessages, project_eq, hrest, visibleAfter, answersPrompt, Bool.false_and, Bool.false_and,
    Bool.false_or, if_neg (by simp [hanswer.2])]
  exact List.cons_ne_nil _ _

theorem numbered_tail (h : Numbered raw) :
    Numbered ((shownMessages host (beforeTail raw limit) maxChars ++
      shownMessages host (tailWindow raw limit) maxChars).map some) := by
  have hcandidates : Numbered ((candidates host
      (maxChars.getD DEFAULT_CHAT_HISTORY_TEXT_MAX_CHARS) raw).map some) := h.candidates host
  apply hcandidates.sublist
  apply List.Sublist.map
  have hsplit : candidates host (maxChars.getD DEFAULT_CHAT_HISTORY_TEXT_MAX_CHARS) raw =
      candidates host (maxChars.getD DEFAULT_CHAT_HISTORY_TEXT_MAX_CHARS) (beforeTail raw limit) ++
        candidates host (maxChars.getD DEFAULT_CHAT_HISTORY_TEXT_MAX_CHARS) (tailWindow raw limit) := by
    rw [← candidates_append, beforeTail_append]
  rw [hsplit, shownMessages, shownMessages, project_eq, project_eq]
  exact (visibleAfter_sublist false _).append (visibleAfter_sublist false _)

theorem tailSnapshot_of_short (h : raw.length ≤ resolveSessionHistoryTailReadOptions limit) :
    (tailSnapshot host raw maxChars limit).history =
      paginateSessionMessages (shownMessages host raw maxChars) (some limit) none := by
  have hzero : raw.length - resolveSessionHistoryTailReadOptions limit = 0 := by omega
  simp [tailSnapshot, buildSessionHistorySnapshot, shownMessages, hzero]

theorem tailSnapshot_of_nil (hlimit : 0 < limit)
    (hwindow : shownMessages host (tailWindow raw limit) maxChars = []) :
    (tailSnapshot host raw maxChars limit).history.messages = [] ∧
      (tailSnapshot host raw maxChars limit).history.hasMore = false := by
  have hpage := paginate_end (projectChatDisplayMessages host
    (maxChars.getD DEFAULT_CHAT_HISTORY_TEXT_MAX_CHARS)
    (raw.drop (raw.length - resolveSessionHistoryTailReadOptions limit))) hlimit
  rw [shownMessages, tailWindow] at hwindow
  rw [hwindow] at hpage
  rw [tailSnapshot, buildSessionHistorySnapshot]
  simp [hwindow, hpage]

theorem tailSnapshot_of_cons (h : resolveSessionHistoryTailReadOptions limit < raw.length)
    (hlimit : 0 < limit) {page : List (HistoryMessage β)} {message : HistoryMessage β} {seq : ℕ}
    (hpage : (shownMessages host (tailWindow raw limit) maxChars).drop
      ((shownMessages host (tailWindow raw limit) maxChars).length - limit) = message :: page)
    (hseq : resolveMessageSeq (some message) = some seq) :
    (tailSnapshot host raw maxChars limit).history.messages = message :: page ∧
      (tailSnapshot host raw maxChars limit).history.hasMore = true ∧
      (tailSnapshot host raw maxChars limit).history.nextCursor = some (numberText seq) := by
  have hmessages : (paginateSessionMessages (projectChatDisplayMessages host
      (maxChars.getD DEFAULT_CHAT_HISTORY_TEXT_MAX_CHARS)
      (raw.drop (raw.length - resolveSessionHistoryTailReadOptions limit))) (some limit) none).messages =
        message :: page := by
    rw [(paginate_end _ hlimit).1]
    exact hpage
  have hshort : (raw.drop (raw.length - resolveSessionHistoryTailReadOptions limit)).length <
      raw.length := by
    have hwindow : 0 < resolveSessionHistoryTailReadOptions limit := by
      rw [resolveSessionHistoryTailReadOptions]
      omega
    rw [List.length_drop]
    omega
  rw [tailSnapshot, buildSessionHistorySnapshot]
  simp only [hmessages, hshort, Option.filter_none, Option.isNone_none, Option.any_some, decide_true,
    List.isEmpty_cons, Bool.not_false, Bool.and_self, if_true, List.head?_cons, hseq, Option.map_some,
    Option.some_or, and_self]

theorem pages_of_tail {before after page : List (HistoryMessage β)} {seq : ℕ}
    (hnumbered : Numbered raw) (hlimit : 0 < limit)
    (hmessages : (tailSnapshot host raw maxChars limit).history.messages = page)
    (hmore : (tailSnapshot host raw maxChars limit).history.hasMore = true)
    (hcursor : (tailSnapshot host raw maxChars limit).history.nextCursor = some (numberText seq))
    (hpos : 0 < seq) (hshown : shownMessages host raw maxChars = before ++ after)
    (hbefore : ∀ message ∈ before, ∃ i, resolveMessageSeq (some message) = some i ∧ i < seq)
    (hafter : ∀ message ∈ after, ∃ i, resolveMessageSeq (some message) = some i ∧ seq ≤ i) :
    PagesReachEverything host raw maxChars limit ↔ after = page := by
  have hvisible : Numbered ((shownMessages host raw maxChars).map some) := by
    rw [shownMessages, project_eq]
    exact (hnumbered.candidates host).visibleAfter host false
  have hstep : ∀ requests, followPages host raw maxChars limit (requests + 1)
      (tailSnapshot host raw maxChars limit).history = _ := fun requests =>
    followPages_more host requests hmore hcursor hpos hshown hbefore hafter
  constructor
  · rintro ⟨requests, pages, hpages, hall⟩
    cases requests with
    | zero =>
        rw [followPages, if_neg (by simp [hmore])] at hpages
        exact absurd hpages (by simp)
    | succ requests =>
        rw [hstep] at hpages
        obtain ⟨older, holder, rfl⟩ := Option.map_eq_some_iff.mp hpages
        have hfront := followPages_messages host requests hvisible hshown hlimit holder
        rw [pagesMessages_cons, hfront, hmessages, hshown] at hall
        exact (List.append_cancel_left hall).symm
  · intro heq
    have hsome := followPages_isSome host before.length hvisible hshown hlimit (Nat.le_refl _)
    obtain ⟨older, holder⟩ := Option.isSome_iff_exists.mp hsome
    refine ⟨before.length + 1, (tailSnapshot host raw maxChars limit).history :: older, ?_, ?_⟩
    · rw [hstep, holder]
      rfl
    · rw [pagesMessages_cons, followPages_messages host _ hvisible hshown hlimit holder, hmessages,
        hshown, heq]

theorem pagesReachEverything_iff (hnumbered : Numbered raw) (hlimit : 1 ≤ limit) :
    PagesReachEverything host raw maxChars limit ↔ WindowSuffices host raw maxChars limit := by
  have hvisible : Numbered ((shownMessages host raw maxChars).map some) := by
    rw [shownMessages, project_eq]
    exact (hnumbered.candidates host).visibleAfter host false
  by_cases hshort : raw.length ≤ resolveSessionHistoryTailReadOptions limit
  · have hwhole : shownMessages host raw maxChars = shownMessages host raw maxChars ++ [] :=
      (List.append_nil _).symm
    have hsome := followPages_isSome host (shownMessages host raw maxChars).length hvisible hwhole hlimit
      (Nat.le_refl _)
    obtain ⟨pages, hpages⟩ := Option.isSome_iff_exists.mp hsome
    apply iff_of_true _ (Or.inl hshort)
    refine ⟨(shownMessages host raw maxChars).length, pages, ?_,
      followPages_messages host _ hvisible hwhole hlimit hpages⟩
    rw [tailSnapshot_of_short host hshort]
    exact hpages
  · rw [WindowSuffices, or_iff_right hshort]
    have hshown := @shownMessages_tail _ host _ raw maxChars limit
    by_cases hwindow : shownMessages host (tailWindow raw limit) maxChars = []
    · have hpage := tailSnapshot_of_nil host hlimit hwindow
      have hanswer : ¬windowStartsWithAnswer host raw maxChars limit = true := fun h =>
        tailWindow_ne_nil host h hwindow
      constructor
      · rintro ⟨requests, pages, hpages, hall⟩
        rw [followPages_stop host requests hpage.2] at hpages
        rw [← Option.some.inj hpages, pagesMessages_cons, hpage.1] at hall
        exact ⟨fun _ => hall.symm, fun h => absurd h hanswer⟩
      · intro h
        refine ⟨0, [(tailSnapshot host raw maxChars limit).history], followPages_stop host 0 hpage.2, ?_⟩
        rw [pagesMessages_cons, hpage.1, h.1 hwindow]
        rfl
    · obtain ⟨rest, message, page, hrest, hpage, hlength⟩ := exists_page _ hlimit hwindow
      have htogether := @numbered_tail _ host _ raw maxChars limit hnumbered
      rw [hrest, ← List.append_assoc] at htogether
      have hsome : (resolveMessageSeq (some message)).isSome = true := by
        apply htogether.isSome
        simp
      obtain ⟨seq, hseq⟩ := Option.isSome_iff_exists.mp hsome
      obtain ⟨hmessages, hmore, hcursor⟩ :=
        tailSnapshot_of_cons host (Nat.lt_of_not_le hshort) hlimit hpage hseq
      have hsplit := htogether.split hseq
      have hafter : ∀ other ∈ message :: page,
          ∃ i, resolveMessageSeq (some other) = some i ∧ seq ≤ i := by
        intro other hmem
        cases hmem with
        | head => exact ⟨seq, hseq, Nat.le_refl seq⟩
        | tail _ hmem =>
            obtain ⟨i, hi, hlt⟩ := hsplit.2 other hmem
            exact ⟨i, hi, Nat.le_of_lt hlt⟩
      have hpages := fun before after =>
        @pages_of_tail _ host _ raw maxChars limit before after _ _ hnumbered hlimit hmessages hmore
          hcursor (pos_of_resolveMessageSeq hseq)
      cases hanswer : windowStartsWithAnswer host raw maxChars limit with
      | false =>
          rw [hanswer, if_neg Bool.false_ne_true, hrest, ← List.append_assoc] at hshown
          apply iff_of_true ((hpages _ _ hshown hsplit.1 hafter).mpr rfl)
          exact ⟨fun h => absurd h hwindow, fun h => absurd h Bool.false_ne_true⟩
      | true =>
          rw [hanswer, if_pos rfl, hrest] at hshown
          cases rest with
          | nil =>
              have hle : (shownMessages host (tailWindow raw limit) maxChars).length ≤ limit := by
                rw [List.length_nil] at hlength
                omega
              rw [List.nil_append, List.tail_cons] at hshown
              have hbefore := fun other hmem => hsplit.1 other (List.mem_append_left _ hmem)
              have hrest' := fun other hmem => hafter other (List.mem_cons_of_mem message hmem)
              apply iff_of_false
              · rw [hpages _ _ hshown hbefore hrest']
                exact fun heq => absurd (congrArg List.length heq) (by simp)
              · exact fun h => absurd (h.2 rfl) (by omega)
          | cons first rest =>
              have hlong : limit < (shownMessages host (tailWindow raw limit) maxChars).length := by
                rw [List.length_cons] at hlength
                omega
              rw [List.cons_append, List.tail_cons, ← List.append_assoc] at hshown
              have hbefore : ∀ other ∈ shownMessages host (beforeTail raw limit) maxChars ++ rest,
                  ∃ i, resolveMessageSeq (some other) = some i ∧ i < seq := by
                intro other hmem
                apply hsplit.1
                rw [List.mem_append] at hmem ⊢
                exact hmem.imp_right (List.mem_cons_of_mem first)
              apply iff_of_true ((hpages _ _ hshown hbefore hafter).mpr rfl)
              exact ⟨fun h => absurd h hwindow, fun _ => hlong⟩

end Facts

end Tail

end GreenchClaw.SessionHistory
