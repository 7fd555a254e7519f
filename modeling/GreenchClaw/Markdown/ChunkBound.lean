import GreenchClaw.Markdown.MarkdownChunks

/-!
# The length of markdown chunks

A chunk is longer than the limit exactly when its window ends in a fence and the floor of the break
leaves no room for the close line.
-/

namespace GreenchClaw.Markdown

open GreenchClaw.Js

/-! ## Fences -/

theorem marker_length_of_match {line : JsString} {found : FenceMatch} (h : matchFence line = some found) :
    3 ≤ found.marker.length := by
  rw [matchFence] at h
  split at h
  · rw [matchMarker.eq_def] at h
    split at h
    · exact absurd h nofun
    · simp only at h
      split at h
      · rename_i hmarker
        rw [← Option.some.inj h]
        exact hmarker.2.1
      · exact absurd h nofun
  · exact absurd h nofun

theorem marker_length_fenceLoop {bufferLength : ℕ} {open? : Option OpenFence} {offset : ℕ}
    {lines : List JsString} (hopen : ∀ fence, open? = some fence → 3 ≤ fence.marker.length) :
    ∀ span ∈ fenceLoop bufferLength open? offset lines, 3 ≤ span.marker.length := by
  induction lines generalizing open? offset with
  | nil =>
      cases open? with
      | none => exact fun span hspan => absurd hspan List.not_mem_nil
      | some fence =>
          intro span hspan
          rw [List.mem_singleton.mp hspan]
          exact hopen fence rfl
  | cons line lines ih =>
      cases open? with
      | none =>
          rw [fenceLoop]
          split
          · rename_i found hfound
            apply ih
            intro fence hfence
            rw [← Option.some.inj hfence]
            exact marker_length_of_match hfound
          · exact @ih none _ fun fence h => absurd h (Option.some_ne_none fence).symm
      | some fence =>
          rw [fenceLoop]
          split
          · split
            · intro span hspan
              rcases List.mem_cons.mp hspan with hfirst | hrest
              · rw [hfirst]
                exact hopen fence rfl
              · exact @ih none _ (fun fence h => absurd h (Option.some_ne_none fence).symm) span hrest
            · exact ih hopen
          · exact ih hopen

theorem closeLine_pos {text : JsString} {fence : FenceSpan} (h : fence ∈ parseFenceSpans text) :
    3 ≤ fence.closeLine.length := by
  have hmarker := @marker_length_fenceLoop _ none _ _ nofun fence h
  rw [FenceSpan.closeLine, List.length_append]
  omega

/-! ## Breaks -/

section Breaks

variable {text : JsString} {limit : ℕ} {spans : List FenceSpan} {s : ChunkState} {fence : FenceSpan}

theorem lastNewlineUpTo_spec (text : JsString) (i : ℕ) :
    (∀ j, lastNewlineUpTo text i = some j → j ≤ i ∧ text[j]? = some newline) ∧
      ∀ j ≤ i, text[j]? = some newline → ∃ k, lastNewlineUpTo text i = some k ∧ j ≤ k := by
  induction i with
  | zero =>
      rw [lastNewlineUpTo]
      constructor
      · intro j hj
        split at hj
        · rename_i hfirst
          rw [← Option.some.inj hj]
          exact ⟨Nat.le_refl 0, hfirst⟩
        · exact absurd hj nofun
      · intro j hj hnewline
        rw [Nat.le_zero.mp hj] at hnewline ⊢
        exact ⟨0, if_pos hnewline, Nat.le_refl 0⟩
  | succ i ih =>
      rw [lastNewlineUpTo]
      by_cases hlast : text[i + 1]? = some newline
      · rw [if_pos hlast]
        constructor
        · intro j hj
          rw [← Option.some.inj hj]
          exact ⟨Nat.le_refl _, hlast⟩
        · intro j hj _
          exact ⟨i + 1, rfl, hj⟩
      · rw [if_neg hlast]
        constructor
        · intro j hj
          obtain ⟨hle, hnewline⟩ := ih.1 j hj
          exact ⟨Nat.le_succ_of_le hle, hnewline⟩
        · intro j hj hnewline
          apply ih.2 j ?_ hnewline
          rcases Nat.le_succ_iff.mp hj with hle | hsame
          · exact hle
          · rw [hsame] at hnewline
            exact absurd hnewline hlast

/-- The search ends with the last line break in the fence above the floor, if there is one. -/
theorem pickNewline_spec (hfloor : 2 ≤ minProgressIdx text s fence) {fuel i : ℕ} (hfuel : i + 1 < fuel) :
    ∃ picked, pickNewline text spans s fence fuel (lastNewlineUpTo text i) = some picked ∧
      (∀ b, picked = some b → minProgressIdx text s fence ≤ b ∧ s.start < b ∧ b ≤ i + 1 ∧
        text[b - 1]? = some newline) ∧
      (picked = none → ∀ j ≤ i, s.start ≤ j → minProgressIdx text s fence ≤ j + 1 →
        text[j]? = some newline → (sameFenceAt spans fence (j + 1)).isSome = false) := by
  induction fuel generalizing i with
  | zero => exact absurd hfuel (Nat.not_lt_zero _)
  | succ fuel ih =>
      obtain ⟨hfound, hlast⟩ := lastNewlineUpTo_spec text i
      cases hnewline : lastNewlineUpTo text i with
      | none =>
          refine ⟨none, rfl, nofun, ?_⟩
          intro _ j hj _ _ hat
          obtain ⟨k, hk, -⟩ := hlast j hj hat
          rw [hnewline] at hk
          exact absurd hk nofun
      | some lastNewline =>
          obtain ⟨hle, hat⟩ := hfound lastNewline hnewline
          have hupto : ∀ j ≤ i, text[j]? = some newline → j ≤ lastNewline := by
            intro j hj hj'
            obtain ⟨k, hk, hjk⟩ := hlast j hj hj'
            rw [hnewline, Option.some.injEq] at hk
            rw [hk]
            exact hjk
          rw [pickNewline]
          by_cases hbefore : lastNewline < s.start
          · rw [if_pos hbefore]
            refine ⟨none, rfl, nofun, ?_⟩
            intro _ j hj hstart _ hj'
            have := hupto j hj hj'
            omega
          · rw [if_neg hbefore]
            simp only
            by_cases hunder : lastNewline + 1 < minProgressIdx text s fence
            · rw [if_pos hunder]
              refine ⟨none, rfl, nofun, ?_⟩
              intro _ j hj _ habove hj'
              have := hupto j hj hj'
              omega
            · rw [if_neg hunder]
              by_cases hsame : (sameFenceAt spans fence (lastNewline + 1)).isSome = true
              · rw [if_pos hsame]
                refine ⟨some (lastNewline + 1), rfl, ?_, nofun⟩
                intro b hb
                rw [← Option.some.inj hb]
                refine ⟨by omega, by omega, by omega, ?_⟩
                rw [Nat.add_sub_cancel]
                exact hat
              · rw [if_neg hsame]
                obtain ⟨picked, hpicked, hsome, hnone⟩ := @ih (lastNewline - 1) (by omega)
                refine ⟨picked, hpicked, ?_, ?_⟩
                · intro b hb
                  obtain ⟨hfrom, hstart, hbound, hbreak⟩ := hsome b hb
                  exact ⟨hfrom, hstart, by omega, hbreak⟩
                · intro hnil j hj hstart habove hj'
                  rcases Nat.lt_or_ge j lastNewline with hlt | hge
                  · exact hnone hnil j (by omega) hstart habove hj'
                  · have hjl : j = lastNewline := Nat.le_antisymm (hupto j hj hj') hge
                    rw [hjl]
                    exact (Bool.not_eq_true _).mp hsame

theorem scanBreakpoints_spec (isAllowed : ℕ → Bool) (rest : JsString) (i depth : ℕ) (found : Breakpoints) :
    ((scanBreakpoints isAllowed i rest depth found).lastNewline = found.lastNewline ∨
      ∃ j, (scanBreakpoints isAllowed i rest depth found).lastNewline = (j : ℕ) ∧ i ≤ j ∧
        j < i + rest.length ∧ isAllowed j = true) ∧
    ((scanBreakpoints isAllowed i rest depth found).lastWhitespace = found.lastWhitespace ∨
      ∃ j, (scanBreakpoints isAllowed i rest depth found).lastWhitespace = (j : ℕ) ∧ i ≤ j ∧
        j < i + rest.length ∧ isAllowed j = true) := by
  induction rest generalizing i depth found with
  | nil => exact ⟨Or.inl rfl, Or.inl rfl⟩
  | cons char rest ih =>
      have hlater : ∀ (depth : ℕ) (last : Breakpoints),
          (last.lastNewline = found.lastNewline ∨ last.lastNewline = (i : ℤ) ∧ isAllowed i = true) →
          (last.lastWhitespace = found.lastWhitespace ∨ last.lastWhitespace = (i : ℤ) ∧ isAllowed i = true) →
          ((scanBreakpoints isAllowed (i + 1) rest depth last).lastNewline = found.lastNewline ∨
            ∃ j, (scanBreakpoints isAllowed (i + 1) rest depth last).lastNewline = (j : ℕ) ∧ i ≤ j ∧
              j < i + (char :: rest).length ∧ isAllowed j = true) ∧
          ((scanBreakpoints isAllowed (i + 1) rest depth last).lastWhitespace = found.lastWhitespace ∨
            ∃ j, (scanBreakpoints isAllowed (i + 1) rest depth last).lastWhitespace = (j : ℕ) ∧ i ≤ j ∧
              j < i + (char :: rest).length ∧ isAllowed j = true) := by
        intro depth last hnewline hwhitespace
        obtain ⟨hfirst, hsecond⟩ := ih (i + 1) depth last
        rw [List.length_cons]
        constructor
        · rcases hfirst with hsame | ⟨j, hj, hfrom, hupto, hallowed⟩
          · rw [hsame]
            rcases hnewline with hold | ⟨hnew, hallowed⟩
            · exact Or.inl hold
            · exact Or.inr ⟨i, hnew, Nat.le_refl i, by omega, hallowed⟩
          · exact Or.inr ⟨j, hj, by omega, by omega, hallowed⟩
        · rcases hsecond with hsame | ⟨j, hj, hfrom, hupto, hallowed⟩
          · rw [hsame]
            rcases hwhitespace with hold | ⟨hnew, hallowed⟩
            · exact Or.inl hold
            · exact Or.inr ⟨i, hnew, Nat.le_refl i, by omega, hallowed⟩
          · exact Or.inr ⟨j, hj, by omega, by omega, hallowed⟩
      rw [scanBreakpoints]
      by_cases hallowed : isAllowed i = false
      · rw [if_pos hallowed]
        exact hlater _ _ (Or.inl rfl) (Or.inl rfl)
      · have hallow : isAllowed i = true := (Bool.not_eq_false _).mp hallowed
        rw [if_neg hallowed]
        split
        · exact hlater _ _ (Or.inl rfl) (Or.inl rfl)
        · split
          · exact hlater _ _ (Or.inl rfl) (Or.inl rfl)
          · split
            · exact hlater _ _ (Or.inl rfl) (Or.inl rfl)
            · split
              · exact hlater _ _ (Or.inr ⟨rfl, hallow⟩) (Or.inl rfl)
              · split
                · exact hlater _ _ (Or.inl rfl) (Or.inr ⟨rfl, hallow⟩)
                · exact hlater _ _ (Or.inl rfl) (Or.inl rfl)

theorem pickSafeBreakIndex_spec {start end_ : ℕ} (h : start < pickSafeBreakIndex text spans start end_) :
    ∃ j : ℕ, pickSafeBreakIndex text spans start end_ = j ∧
      j < start + ((text.drop start).take (end_ - start)).length ∧ isSafeFenceBreak spans j = true := by
  obtain ⟨hnewline, hwhitespace⟩ := scanBreakpoints_spec (isSafeFenceBreak spans)
    ((text.drop start).take (end_ - start)) start 0 {}
  have hfound : ∀ found : ℤ, start < found →
      (found = -1 ∨ ∃ j : ℕ, found = j ∧ start ≤ j ∧
        j < start + ((text.drop start).take (end_ - start)).length ∧ isSafeFenceBreak spans j = true) →
      ∃ j : ℕ, found = j ∧ j < start + ((text.drop start).take (end_ - start)).length ∧
        isSafeFenceBreak spans j = true := by
    intro found hafter hcases
    rcases hcases with hnone | ⟨j, hj, -, hupto, hallowed⟩
    · omega
    · exact ⟨j, hj, hupto, hallowed⟩
  unfold pickSafeBreakIndex scanParenAwareBreakpoints at h ⊢
  by_cases hfirst : (start : ℤ) < (scanBreakpoints (isSafeFenceBreak spans) start
      ((text.drop start).take (end_ - start)) 0 {}).lastNewline
  · simp only [if_pos hfirst]
    exact hfound _ hfirst hnewline
  · simp only [if_neg hfirst] at h ⊢
    by_cases hsecond : (start : ℤ) < (scanBreakpoints (isSafeFenceBreak spans) start
        ((text.drop start).take (end_ - start)) 0 {}).lastWhitespace
    · rw [if_pos hsecond]
      exact hfound _ hsecond hwhitespace
    · rw [if_neg hsecond] at h
      omega

theorem softBreakIndex_spec (hlong : contentLimit limit s < text.length - s.start) :
    s.start < softBreakIndex text limit spans s ∧
      softBreakIndex text limit spans s ≤ s.start + contentLimit limit s ∧
      (findFenceSpanAt spans (softBreakIndex text limit spans s) ≠ none →
        softBreakIndex text limit spans s = s.start + contentLimit limit s) := by
  have hwindow : windowEnd text limit s = s.start + contentLimit limit s := by
    unfold windowEnd
    omega
  have hpos : 0 < contentLimit limit s := Nat.lt_of_lt_of_le Nat.one_pos (Nat.le_max_left _ _)
  rw [softBreakIndex]
  by_cases hpicked : (s.start : ℤ) < pickSafeBreakIndex text spans s.start (windowEnd text limit s)
  · obtain ⟨j, hj, hupto, hallowed⟩ := pickSafeBreakIndex_spec hpicked
    rw [List.length_take, List.length_drop, hwindow] at hupto
    simp only [if_pos hpicked]
    rw [hj] at hpicked ⊢
    rw [Int.toNat_natCast]
    refine ⟨by omega, by omega, ?_⟩
    intro hfence
    rw [isSafeFenceBreak, Option.isNone_iff_eq_none] at hallowed
    exact absurd hallowed hfence
  · simp only [if_neg hpicked]
    rw [hwindow]
    exact ⟨by omega, Nat.le_refl _, fun _ => rfl⟩

/-! ## Length -/

def newlineCost (text : JsString) (breakIdx : ℕ) : ℕ := if text[breakIdx - 1]? = some newline then 0 else 1

/-- The floor of the break leaves no room for the close line of the fence. -/
def Squeezed (text : JsString) (limit : ℕ) (s : ChunkState) (fence : FenceSpan) : Prop :=
  contentLimit limit s ≤ fence.closeLine.length + 1 ∨
    maxIdxIfAlreadyNewline limit s fence < minProgressIdx text s fence ∨
    (maxIdxIfAlreadyNewline limit s fence = minProgressIdx text s fence ∧
      text[minProgressIdx text s fence - 1]? ≠ some newline)

theorem sameFenceAt_eq (hspans : SpansInOrder spans) (hvalid : ∀ span ∈ spans, span.start ≤ span.end_)
    (hfence : fence ∈ spans) {index : ℕ} {found : FenceSpan} (h : sameFenceAt spans fence index = some found) :
    found = fence := by
  obtain ⟨hfound, hstart⟩ := Option.filter_eq_some_iff.mp h
  exact eq_of_start_eq hspans hvalid (findFenceSpanAt_sound hfound).1 hfence (of_decide_eq_true hstart)

theorem sameFenceAt_of_inside (hspans : SpansInOrder spans) (hvalid : ∀ span ∈ spans, span.start ≤ span.end_)
    (hfence : fence ∈ spans) {index : ℕ} (hstart : fence.start < index) (hend : index < fence.end_) :
    sameFenceAt spans fence index = some fence := by
  rw [sameFenceAt, findFenceSpanAt_complete hspans hvalid hfence hstart hend]
  exact if_pos (decide_eq_true rfl)

theorem fenceBreakIndex_spec (hspans : SpansInOrder spans)
    (hvalid : ∀ span ∈ spans, span.start ≤ span.end_) (hfence : fence ∈ spans)
    (hclose : 1 ≤ fence.closeLine.length) (hlong : contentLimit limit s < text.length - s.start)
    (hstart : fence.start < s.start + contentLimit limit s)
    (hend : s.start + contentLimit limit s < fence.end_) :
    ∃ b, fenceBreakIndex text limit spans s fence = some b ∧ s.start < b ∧
      b ≤ s.start + contentLimit limit s ∧
      ((∀ found, sameFenceAt spans fence b = some found →
        (b - s.start) + newlineCost text b + fence.closeLine.length ≤ contentLimit limit s) ↔
        ¬ Squeezed text limit s fence) := by
  have hwindow : windowEnd text limit s = s.start + contentLimit limit s := by
    unfold windowEnd
    omega
  have hpos : 0 < contentLimit limit s := Nat.lt_of_lt_of_le Nat.one_pos (Nat.le_max_left _ _)
  -- A break at the end of the window leaves no room.
  have hfull : Squeezed text limit s fence → s.start < s.start + contentLimit limit s ∧
      s.start + contentLimit limit s ≤ s.start + contentLimit limit s ∧
      ((∀ found, sameFenceAt spans fence (s.start + contentLimit limit s) = some found →
        (s.start + contentLimit limit s - s.start) + newlineCost text (s.start + contentLimit limit s) +
          fence.closeLine.length ≤ contentLimit limit s) ↔ ¬ Squeezed text limit s fence) := by
    intro hsqueezed
    refine ⟨by omega, Nat.le_refl _, ?_⟩
    constructor
    · intro hfits
      have hbound := hfits fence (sameFenceAt_of_inside hspans hvalid hfence hstart hend)
      omega
    · intro hnot
      exact absurd hsqueezed hnot
  have hfloorStart : s.start + 1 ≤ minProgressIdx text s fence := by
    unfold minProgressIdx
    omega
  have hfloor : 2 ≤ minProgressIdx text s fence := by
    unfold minProgressIdx
    omega
  rw [fenceBreakIndex]
  by_cases hneed : maxIdxIfNeedNewline limit s fence ≤ s.start
  · rw [if_pos hneed, hwindow]
    refine ⟨_, rfl, hfull (Or.inl ?_)⟩
    unfold maxIdxIfNeedNewline at hneed
    omega
  · rw [if_neg hneed]
    have hroom : fence.closeLine.length + 2 ≤ contentLimit limit s := by
      unfold maxIdxIfNeedNewline at hneed
      omega
    have hceiling : maxIdxIfAlreadyNewline limit s fence =
        ((s.start + (contentLimit limit s - fence.closeLine.length) : ℕ) : ℤ) := by
      unfold maxIdxIfAlreadyNewline
      omega
    have hneedNewline : maxIdxIfNeedNewline limit s fence =
        ((s.start + (contentLimit limit s - fence.closeLine.length) - 1 : ℕ) : ℤ) := by
      unfold maxIdxIfNeedNewline
      omega
    have hfrom : (max (s.start : ℤ) (maxIdxIfAlreadyNewline limit s fence - 1)).toNat =
        s.start + (contentLimit limit s - fence.closeLine.length) - 1 := by
      rw [hceiling]
      omega
    obtain ⟨picked, hpicked, hsome, hnone⟩ := @pickNewline_spec text spans s fence hfloor
      (text.length + 2) (s.start + (contentLimit limit s - fence.closeLine.length) - 1) (by omega)
    rw [hfrom, hpicked]
    cases picked with
    | some b =>
        obtain ⟨habove, hafter, hupto, hnewline⟩ := hsome b rfl
        refine ⟨b, rfl, hafter, by omega, ?_⟩
        constructor
        · rintro - (hsmall | hunder | ⟨hsame, hother⟩)
          · omega
          · omega
          · have hb : b = minProgressIdx text s fence := by
              omega
            rw [hb] at hnewline
            exact hother hnewline
        · intro _ found _
          rw [newlineCost, if_pos hnewline]
          omega
    | none =>
        simp only
        by_cases hunder : maxIdxIfAlreadyNewline limit s fence < minProgressIdx text s fence
        · rw [if_pos hunder, hwindow]
          exact ⟨_, rfl, hfull (Or.inr (Or.inl hunder))⟩
        · rw [if_neg hunder, hneedNewline]
          rw [hceiling] at hunder
          generalize hb : (max (minProgressIdx text s fence : ℤ)
            ((s.start + (contentLimit limit s - fence.closeLine.length) - 1 : ℕ) : ℤ)).toNat = b
          have hbounds : s.start < b ∧ b ≤ s.start + (contentLimit limit s - fence.closeLine.length) := by
            omega
          refine ⟨b, rfl, hbounds.1, by omega, ?_⟩
          constructor
          · rintro hfits (hsmall | hless | ⟨hsame, hother⟩)
            · omega
            · rw [hceiling] at hless
              omega
            · rw [hceiling] at hsame
              have hbsame : b = minProgressIdx text s fence := by
                omega
              have hinside : sameFenceAt spans fence b = some fence := by
                apply sameFenceAt_of_inside hspans hvalid hfence
                · rw [hbsame]
                  unfold minProgressIdx
                  omega
                · omega
              have hbound := hfits fence hinside
              rw [newlineCost, hbsame, if_neg hother] at hbound
              omega
          · intro hnot found hfound
            simp only [Squeezed, not_or, not_and, not_not] at hnot
            obtain ⟨-, -, hequal⟩ := hnot
            rw [hceiling] at hequal
            by_cases hsame : s.start + (contentLimit limit s - fence.closeLine.length) =
                minProgressIdx text s fence
            · have hbsame : b = minProgressIdx text s fence := by
                omega
              have hnewline := hequal (by exact_mod_cast hsame)
              have hother := hnone rfl (b - 1) (by omega) (by omega) (by omega) (by rw [hbsame]; exact hnewline)
              rw [Nat.sub_add_cancel (by omega), hfound] at hother
              exact absurd hother nofun
            · have hcost : newlineCost text b ≤ 1 := by
                unfold newlineCost
                split <;> omega
              omega

end Breaks

/-! ## Runs -/

def Tight (text : JsString) (limit : ℕ) (spans : List FenceSpan) (s : ChunkState) : Prop :=
  contentLimit limit s < text.length - s.start ∧
    ∃ fence, findFenceSpanAt spans (softBreakIndex text limit spans s) = some fence ∧
      Squeezed text limit s fence

inductive Reaches (text : JsString) (limit : ℕ) (spans : List FenceSpan) : ChunkState → ChunkState → Prop
  | here (s : ChunkState) : Reaches text limit spans s s
  | there (s next last : ChunkState) (chunk : JsString)
      (hmove : chunkMove text limit spans s = some (.cuts chunk next))
      (h : Reaches text limit spans next last) : Reaches text limit spans s last

def ChunkMove.chunks : ChunkMove → List JsString
  | .ends chunks => chunks
  | .cuts chunk _ => [chunk]

def RoomForFences (text : JsString) (limit : ℕ) : Prop :=
  0 < limit ∧ ∀ fence ∈ parseFenceSpans text, fence.openLine.length + fence.closeLine.length + 3 ≤ limit

section Runs

variable {text : JsString} {limit : ℕ} {s : ChunkState}

def ReopensFence (text : JsString) (s : ChunkState) : Prop :=
  ∀ fence, s.reopenFence = some fence → fence ∈ parseFenceSpans text

theorem prefix_add_contentLimit (hroom : RoomForFences text limit) (hreopen : ReopensFence text s) :
    (reopenPrefix s).length + contentLimit limit s = limit := by
  have hpositive := hroom.1
  unfold contentLimit reopenPrefix
  cases hfence : s.reopenFence with
  | none =>
      simp only [List.length_nil]
      omega
  | some fence =>
      have hbound := hroom.2 fence (hreopen fence hfence)
      simp only [List.length_append, List.length_singleton]
      omega

theorem length_closeChunk (rawChunk : JsString) (fence : FenceSpan) :
    (closeChunk rawChunk fence).length =
      rawChunk.length + (if rawChunk.getLast? = some newline then 0 else 1) + fence.closeLine.length := by
  rw [closeChunk]
  split
  · rw [List.length_append, Nat.add_zero]
  · rw [List.length_append, List.length_cons]
    omega

theorem getLast?_slice {start b : ℕ} (hstart : start < b) (hb : b ≤ text.length) (front : JsString) :
    (front ++ (text.drop start).take (b - start)).getLast? = text[b - 1]? := by
  have hlength : ((text.drop start).take (b - start)).length = b - start := by
    rw [List.length_take, List.length_drop]
    omega
  have hne : (text.drop start).take (b - start) ≠ [] := by
    apply List.ne_nil_of_length_pos
    omega
  rw [List.getLast?_append_of_ne_nil _ hne, List.getLast?_eq_getElem?, hlength, List.getElem?_take,
    if_pos (by omega), List.getElem?_drop]
  congr 1
  omega

/-- A cut inside the window goes on further in the text, and its chunk fits if there is room for the
close line. -/
theorem chunkCut_spec (hbudget : (reopenPrefix s).length + contentLimit limit s = limit)
    (hlong : contentLimit limit s < text.length - s.start) {b : ℕ} (hstart : s.start < b)
    (hwindow : b ≤ s.start + contentLimit limit s) (fenceToSplit : Option FenceSpan) :
    ∃ chunk next, chunkCut text s b fenceToSplit = .cuts chunk next ∧ s.start < next.start ∧
      next.reopenFence = fenceToSplit ∧
      (chunk.length ≤ limit ↔ ∀ found, fenceToSplit = some found →
        (b - s.start) + newlineCost text b + found.closeLine.length ≤ contentLimit limit s) := by
  have hlength : ((text.drop s.start).take (b - s.start)).length = b - s.start := by
    rw [List.length_take, List.length_drop]
    omega
  have hne : (text.drop s.start).take (b - s.start) ≠ [] := by
    apply List.ne_nil_of_length_pos
    omega
  have hnext : s.start < min text.length (b + if (text[b]?).any isSpace = true then 1 else 0) := by
    split <;> omega
  rw [chunkCut]
  simp only [if_neg hne]
  cases fenceToSplit with
  | none =>
      refine ⟨_, _, rfl, Nat.lt_of_lt_of_le hnext (Nat.le_add_right _ _), rfl, ?_⟩
      constructor
      · exact fun _ => nofun
      · intro _
        rw [List.length_append, hlength]
        omega
  | some fence =>
      have hcost : (closeChunk (reopenPrefix s ++ (text.drop s.start).take (b - s.start)) fence).length =
          (reopenPrefix s).length + (b - s.start) + newlineCost text b + fence.closeLine.length := by
        rw [length_closeChunk, getLast?_slice hstart (by omega), List.length_append, hlength]
        rfl
      refine ⟨_, _, rfl, hnext, rfl, ?_⟩
      rw [hcost]
      constructor
      · intro hbound found hfound
        rw [← Option.some.inj hfound]
        omega
      · intro hroom
        have hbound := hroom fence rfl
        omega

theorem chunkBreak_spec (hlong : contentLimit limit s < text.length - s.start) :
    ∃ b fenceToSplit, chunkBreak text limit (parseFenceSpans text) s = some (b, fenceToSplit) ∧
      s.start < b ∧ b ≤ s.start + contentLimit limit s ∧
      (∀ found, fenceToSplit = some found → found ∈ parseFenceSpans text) ∧
      ((∀ found, fenceToSplit = some found →
          (b - s.start) + newlineCost text b + found.closeLine.length ≤ contentLimit limit s) ↔
        ¬ Tight text limit (parseFenceSpans text) s) := by
  obtain ⟨hafter, hupto, hwhole⟩ := @softBreakIndex_spec text limit (parseFenceSpans text) s hlong
  obtain ⟨hspans, hvalid⟩ := parseFenceSpans_inOrder text
  rw [chunkBreak]
  cases hinitial : findFenceSpanAt (parseFenceSpans text)
      (softBreakIndex text limit (parseFenceSpans text) s) with
  | none =>
      refine ⟨_, none, rfl, hafter, hupto, nofun, ?_⟩
      constructor
      · rintro - ⟨-, fence, hfence, -⟩
        rw [hinitial] at hfence
        exact absurd hfence nofun
      · exact fun _ => nofun
  | some fence =>
      have hwindow := hwhole (by rw [hinitial]; exact nofun)
      obtain ⟨hmem, hstart, hend⟩ := findFenceSpanAt_sound hinitial
      rw [hwindow] at hstart hend
      obtain ⟨b, hb, hbstart, hbend, hfits⟩ := fenceBreakIndex_spec hspans hvalid hmem
        (Nat.le_trans (by decide) (closeLine_pos hmem)) hlong hstart hend
      have hfound : ∀ found, sameFenceAt (parseFenceSpans text) fence b = some found → found = fence :=
        fun found hsame => sameFenceAt_eq hspans hvalid hmem hsame
      have htight : Tight text limit (parseFenceSpans text) s ↔ Squeezed text limit s fence := by
        constructor
        · rintro ⟨-, other, hother, hsqueezed⟩
          rw [hinitial, Option.some.injEq] at hother
          rw [hother]
          exact hsqueezed
        · intro hsqueezed
          exact ⟨hlong, fence, hinitial, hsqueezed⟩
      refine ⟨b, sameFenceAt (parseFenceSpans text) fence b, ?_, hbstart, hbend, ?_, ?_⟩
      · simp only [hb, Option.map_some]
      · intro found hsame
        rw [hfound found hsame]
        exact hmem
      · rw [htight, ← hfits]
        constructor
        · intro hall found hsame
          have hbound := hall found hsame
          rw [hfound found hsame] at hbound
          exact hbound
        · intro hall found hsame
          rw [hfound found hsame]
          exact hall found hsame

/-- One turn ends, its chunk fits if and only if the turn is not tight, and the loop goes on further in
the text. -/
theorem chunkMove_spec (hroom : RoomForFences text limit) (hreopen : ReopensFence text s) :
    ∃ move, chunkMove text limit (parseFenceSpans text) s = some move ∧
      ((∀ chunk ∈ move.chunks, chunk.length ≤ limit) ↔ ¬ Tight text limit (parseFenceSpans text) s) ∧
      ∀ chunk next, move = .cuts chunk next →
        s.start < next.start ∧ s.start < text.length ∧ ReopensFence text next := by
  have hbudget := prefix_add_contentLimit hroom hreopen
  rw [chunkMove]
  by_cases hdone : text.length ≤ s.start
  · rw [if_pos hdone]
    refine ⟨_, rfl, ?_, nofun⟩
    constructor
    · rintro - ⟨hlong, -⟩
      omega
    · intro _ chunk hchunk
      exact absurd hchunk List.not_mem_nil
  · rw [if_neg hdone]
    by_cases hlast : text.length - s.start ≤ contentLimit limit s
    · rw [if_pos hlast]
      refine ⟨_, rfl, ?_, nofun⟩
      constructor
      · rintro - ⟨hlong, -⟩
        omega
      · intro _ chunk hchunk
        have hfinal : chunk = reopenPrefix s ++ text.drop s.start := by
          simp only [ChunkMove.chunks] at hchunk
          split at hchunk
          · exact List.mem_singleton.mp hchunk
          · exact absurd hchunk List.not_mem_nil
        rw [hfinal, List.length_append, List.length_drop]
        omega
    · rw [if_neg hlast]
      have hlong : contentLimit limit s < text.length - s.start := Nat.lt_of_not_le hlast
      obtain ⟨b, fenceToSplit, hbreak, hstart, hwindow, hmem, hfits⟩ := chunkBreak_spec hlong
      obtain ⟨chunk, next, hcut, hnext, hfence, hbound⟩ :=
        chunkCut_spec hbudget hlong hstart hwindow fenceToSplit
      rw [hbreak, Option.map_some]
      refine ⟨_, congrArg some hcut, ?_, ?_⟩
      · rw [← hfits, ← hbound, ChunkMove.chunks]
        exact List.forall_mem_singleton
      · intro other last hmove
        obtain ⟨-, hlast⟩ := ChunkMove.cuts.inj hmove
        rw [← hlast]
        refine ⟨hnext, by omega, ?_⟩
        intro found hfound
        rw [hfence] at hfound
        exact hmem found hfound

theorem chunkLoop_spec (hroom : RoomForFences text limit) (hreopen : ReopensFence text s) :
    ∃ chunks, (∀ fuel, text.length - s.start < fuel →
        chunkLoop text limit (parseFenceSpans text) fuel s = some chunks) ∧
      ((∀ chunk ∈ chunks, chunk.length ≤ limit) ↔
        ∀ t, Reaches text limit (parseFenceSpans text) s t → ¬ Tight text limit (parseFenceSpans text) t) := by
  induction hleft : text.length - s.start using Nat.strongRecOn generalizing s with
  | ind left ih =>
      obtain ⟨move, hmove, hfits, hnext⟩ := chunkMove_spec hroom hreopen
      cases move with
      | ends chunks =>
          refine ⟨chunks, ?_, ?_⟩
          · intro fuel hfuel
            obtain ⟨more, hmore⟩ := Nat.exists_eq_succ_of_ne_zero (Nat.ne_of_gt (Nat.zero_lt_of_lt hfuel))
            rw [hmore, chunkLoop, hmove]
          · rw [show (∀ chunk ∈ chunks, chunk.length ≤ limit) ↔ _ from hfits]
            constructor
            · intro htight t hreaches
              cases hreaches with
              | here => exact htight
              | there _ _ _ _ hcuts _ =>
                  rw [hmove] at hcuts
                  exact absurd hcuts nofun
            · intro hall
              exact hall s (Reaches.here s)
      | cuts chunk next =>
          obtain ⟨hstart, hinside, hreopens⟩ := hnext chunk next rfl
          obtain ⟨chunks, hloop, hrest⟩ := ih (text.length - next.start) (by omega) hreopens rfl
          refine ⟨chunk :: chunks, ?_, ?_⟩
          · intro fuel hfuel
            obtain ⟨more, hmore⟩ := Nat.exists_eq_succ_of_ne_zero (Nat.ne_of_gt (Nat.zero_lt_of_lt hfuel))
            rw [hmore, chunkLoop, hmove]
            simp only
            rw [hloop more (by omega)]
            rfl
          · rw [List.forall_mem_cons, hrest]
            have hfirst : chunk.length ≤ limit ↔ ¬ Tight text limit (parseFenceSpans text) s := by
              rw [← hfits, ChunkMove.chunks]
              exact (@List.forall_mem_singleton _ (fun chunk : JsString => chunk.length ≤ limit) chunk).symm
            rw [hfirst]
            constructor
            · rintro ⟨htight, hlater⟩ t hreaches
              cases hreaches with
              | here => exact htight
              | there _ other _ _ hcuts hreaches =>
                  rw [hmove, Option.some.injEq] at hcuts
                  rw [← (ChunkMove.cuts.inj hcuts).2] at hreaches
                  exact hlater t hreaches
            · intro hall
              exact ⟨hall s (Reaches.here s),
                fun t hreaches => hall t (Reaches.there s next t chunk hmove hreaches)⟩

end Runs

/-- The loop ends, and no chunk is longer than the limit if and only if no turn of it is tight. -/
theorem markdown_chunks_bounded (text : JsString) (limit : ℕ) (hroom : RoomForFences text limit) :
    ∃ chunks, (∀ fuel, text.length < fuel → chunkMarkdownText fuel text limit = some chunks) ∧
      ((∀ chunk ∈ chunks, chunk.length ≤ limit) ↔
        ∀ s, Reaches text limit (parseFenceSpans text) {} s → ¬ Tight text limit (parseFenceSpans text) s) := by
  obtain ⟨chunks, hloop, hfits⟩ := @chunkLoop_spec text limit {} hroom nofun
  by_cases hshort : text.length ≤ limit
  · -- A short text is its only chunk, as in the loop.
    have hwhole : ∀ fuel, text.length < fuel → chunkMarkdownText fuel text limit =
        chunkLoop text limit (parseFenceSpans text) fuel {} := by
      intro fuel hfuel
      obtain ⟨more, hmore⟩ := Nat.exists_eq_succ_of_ne_zero (Nat.ne_of_gt (Nat.zero_lt_of_lt hfuel))
      rw [chunkMarkdownText, hmore, chunkLoop, chunkMove]
      by_cases hnil : text = []
      · rw [if_pos hnil, hnil]
        rfl
      · have hpos := List.length_pos_of_ne_nil hnil
        have hcontent : text.length - 0 ≤ contentLimit limit {} := by
          unfold contentLimit reopenPrefix
          simp only [List.length_nil]
          omega
        rw [if_neg hnil, if_pos (Or.inr hshort), if_neg (Nat.not_le.mpr hpos), if_pos hcontent]
        simp only [reopenPrefix, List.nil_append, List.drop_zero, if_pos hpos]
    refine ⟨chunks, ?_, hfits⟩
    intro fuel hfuel
    rw [hwhole fuel hfuel]
    exact hloop fuel hfuel
  · refine ⟨chunks, ?_, hfits⟩
    intro fuel hfuel
    have hpos := hroom.1
    have hne : text ≠ [] := List.ne_nil_of_length_pos (by omega)
    rw [chunkMarkdownText, if_neg hne, if_neg (by omega)]
    exact hloop fuel hfuel

section Samples

def fencedText : JsString := js "```\nabcdefgh\n```"

theorem markdown_chunks_bounded_fencedText :
    RoomForFences fencedText 9 ∧
      ∃ chunks, (∀ fuel, fencedText.length < fuel → chunkMarkdownText fuel fencedText 9 = some chunks) ∧
        chunks = [js "```\na\n```", js "```\nb\n```", js "```\nc\n```", js "```\nd\n```",
          js "```\ne\n```", js "```\nf\n```", js "```\ng\n```", js "```\nh\n```"] := by
  have hroom : RoomForFences fencedText 9 := ⟨by decide, by decide +kernel⟩
  obtain ⟨chunks, hchunks, -⟩ := markdown_chunks_bounded fencedText 9 hroom
  refine ⟨hroom, chunks, hchunks, ?_⟩
  have hrun := hchunks 20 (by decide +kernel)
  rw [← Option.some.injEq, ← hrun]
  decide +kernel

def parenthesizedFence : JsString := js "(\n```\nabcdefgh\n```"

/-- The first chunk has 13 characters. -/
theorem markdown_chunk_exceeds :
    RoomForFences parenthesizedFence 9 ∧
      chunkMarkdownText 19 parenthesizedFence 9 = some [js "(\n```\nabc\n```", js "```\nd\n```",
        js "```\ne\n```", js "```\nf\n```", js "```\ng\n```", js "```\nh\n```"] ∧
      ¬ (js "(\n```\nabc\n```").length ≤ 9 := by
  refine ⟨⟨by decide, by decide +kernel⟩, by decide +kernel, by decide +kernel⟩

end Samples

end GreenchClaw.Markdown
