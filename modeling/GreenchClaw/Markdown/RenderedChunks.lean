import GreenchClaw.Markdown.StyledText

/-!
# Rendered chunks

The loops of `renderMarkdownIRChunksWithinLimit` end, a chunk that renders beyond the limit has no part
from its start that does not, and the characters keep the styles that `chunkMarkdownIR` gives them.
-/

namespace GreenchClaw.Markdown

open GreenchClaw.Js

/-! ## Split indices -/

structure SplitScan.UpTo (scan : SplitScan) (index : ℕ) : Prop where
  outsideNewline : scan.lastOutsideParenNewlineBreak ≤ index
  outsideBreak : scan.lastOutsideParenWhitespaceBreak ≤ index
  outsideRun : scan.lastOutsideParenWhitespaceRunStart ≤ index
  anyNewline : scan.lastAnyNewlineBreak ≤ index
  anyBreak : scan.lastAnyWhitespaceBreak ≤ index
  anyRun : scan.lastAnyWhitespaceRunStart ≤ index

section Splits

variable {text : JsString} {start limit : ℕ}

theorem SplitScan.UpTo.succ {scan : SplitScan} {index : ℕ} (h : scan.UpTo index) : scan.UpTo (index + 1) := by
  obtain ⟨h1, h2, h3, h4, h5, h6⟩ := h
  constructor <;> omega

theorem SplitScan.UpTo.read {scan : SplitScan} {index : ℕ} (h : scan.UpTo index)
    (previous : Option CodeUnit) (char : CodeUnit) : (scan.read index previous char).UpTo (index + 1) := by
  have hsucc := h.succ
  have hrun := h.anyRun
  rw [SplitScan.read]
  split
  · exact ⟨hsucc.1, hsucc.2, hsucc.3, hsucc.4, hsucc.5, hsucc.6⟩
  · split
    · exact ⟨hsucc.1, hsucc.2, hsucc.3, hsucc.4, hsucc.5, hsucc.6⟩
    · split
      · exact ⟨hsucc.1, hsucc.2, hsucc.3, hsucc.4, hsucc.5, hsucc.6⟩
      · split
        · exact hsucc
        · have hstart : (if previous.any isSpace = true then scan.lastAnyWhitespaceRunStart else (index : ℤ)) ≤
              ((index + 1 : ℕ) : ℤ) := by
            split <;> omega
          have hnext : (index : ℤ) + 1 ≤ ((index + 1 : ℕ) : ℤ) := by
            omega
          split
          · refine ⟨?_, hsucc.2, hsucc.3, hnext, hsucc.5, hsucc.6⟩
            by_cases hdepth : scan.parenDepth = 0
            · simp only [if_pos hdepth]
              exact hnext
            · simp only [if_neg hdepth]
              exact hsucc.1
          · refine ⟨hsucc.1, ?_, ?_, hsucc.4, hnext, hstart⟩
            · by_cases hdepth : scan.parenDepth = 0
              · simp only [if_pos hdepth]
                exact hnext
              · simp only [if_neg hdepth]
                exact hsucc.2
            · by_cases hdepth : scan.parenDepth = 0
              · simp only [if_pos hdepth]
                exact hstart
              · simp only [if_neg hdepth]
                exact hsucc.3

theorem SplitScan.UpTo.scanSplit {scan : SplitScan} {index : ℕ} (h : scan.UpTo index)
    (previous : Option CodeUnit) (rest : JsString) :
    (Markdown.scanSplit index previous rest scan).UpTo (index + rest.length) := by
  induction rest generalizing scan index previous with
  | nil => exact h
  | cons char rest ih =>
      have hlater := ih (h.read previous char) (some char)
      rw [Markdown.scanSplit, List.length_cons, Nat.add_comm rest.length, ← Nat.add_assoc]
      exact hlater

theorem resolveWhitespaceBreak_spec {breakIndex runStart : ℤ} {bound : ℕ} (hafter : start < breakIndex)
    (hbreak : breakIndex ≤ bound) (hrun : runStart ≤ bound) :
    start < resolveWhitespaceBreak text start breakIndex runStart ∧
      resolveWhitespaceBreak text start breakIndex runStart ≤ bound := by
  unfold resolveWhitespaceBreak
  split
  · omega
  · split
    · omega
    · split <;> omega

theorem findMarkdownIRPreservedSplitIndex_spec (hstart : start < text.length) (hlimit : 0 < limit) :
    start < findMarkdownIRPreservedSplitIndex text start limit ∧
      findMarkdownIRPreservedSplitIndex text start limit ≤ text.length ∧
      (start + limit < text.length → findMarkdownIRPreservedSplitIndex text start limit ≤ start + limit) := by
  rw [findMarkdownIRPreservedSplitIndex]
  simp only
  by_cases hshort : text.length ≤ min text.length (start + limit)
  · rw [if_pos hshort]
    exact ⟨hstart, Nat.le_refl _, by omega⟩
  · rw [if_neg hshort]
    have hbound : (scanSplit start none
        ((text.drop start).take (min text.length (start + limit) - start)) {}).UpTo (start + limit) := by
      have hfirst : ({} : SplitScan).UpTo start := by
        constructor <;> simp only <;> omega
      have hall := hfirst.scanSplit none ((text.drop start).take (min text.length (start + limit) - start))
      rw [List.length_take, List.length_drop] at hall
      obtain ⟨h1, h2, h3, h4, h5, h6⟩ := hall
      constructor <;> omega
    generalize scanSplit start none
      ((text.drop start).take (min text.length (start + limit) - start)) {} = scan at hbound
    obtain ⟨h1, h2, h3, h4, h5, h6⟩ := hbound
    split
    · omega
    · split
      · rename_i hafter
        have hresolved := @resolveWhitespaceBreak_spec text start _ _ (start + limit) hafter h2 h3
        omega
      · split
        · omega
        · split
          · rename_i hafter
            have hresolved := @resolveWhitespaceBreak_spec text start _ _ (start + limit) hafter h5 h6
            omega
          · omega

end Splits

/-! ## Pieces -/

def CutFrom (ir : MarkdownIR) : ℕ → List MarkdownIR → Prop
  | cursor, [] => ir.text.length ≤ cursor
  | cursor, piece :: pieces =>
      ∃ end_, cursor < end_ ∧ end_ ≤ ir.text.length ∧ piece = sliceMarkdownIR ir cursor end_ ∧
        CutFrom ir end_ pieces

def turns (chunks : List MarkdownIR) : ℕ := (chunks.map fun chunk => 2 * chunk.text.length - 1).sum

section Pieces

variable {ir : MarkdownIR} {pieces : List MarkdownIR} {cursor limit : ℕ}

theorem splitFrom_spec (hlimit : 0 < limit) {fuel : ℕ} (hfuel : ir.text.length - cursor < fuel) :
    ∃ pieces, splitFrom ir limit fuel cursor = some pieces ∧ CutFrom ir cursor pieces ∧
      (cursor + limit < ir.text.length → 2 ≤ pieces.length) := by
  induction fuel generalizing cursor with
  | zero => exact absurd hfuel (Nat.not_lt_zero _)
  | succ fuel ih =>
      rw [splitFrom]
      by_cases hinside : cursor < ir.text.length
      · rw [if_pos hinside]
        obtain ⟨hafter, hbound, hwithin⟩ := findMarkdownIRPreservedSplitIndex_spec hinside hlimit
        obtain ⟨pieces, hpieces, hcut, -⟩ :=
          @ih (findMarkdownIRPreservedSplitIndex ir.text cursor limit) (by omega)
        refine ⟨sliceMarkdownIR ir cursor (findMarkdownIRPreservedSplitIndex ir.text cursor limit) :: pieces,
          ?_, ⟨_, hafter, hbound, rfl, hcut⟩, ?_⟩
        · simp only [hpieces, Option.map_some]
        · intro hmore
          cases pieces with
          | nil =>
              have hend : ir.text.length ≤ findMarkdownIRPreservedSplitIndex ir.text cursor limit := hcut
              have hless := hwithin hmore
              omega
          | cons piece more =>
              rw [List.length_cons, List.length_cons]
              omega
      · rw [if_neg hinside]
        exact ⟨[], rfl, Nat.le_of_not_lt hinside, by omega⟩

theorem CutFrom.styled (h : CutFrom ir cursor pieces) :
    pieces.flatMap styledText = styledBy (styleSet ir.styles) cursor (ir.text.drop cursor) := by
  induction pieces generalizing cursor with
  | nil =>
      rw [List.drop_eq_nil_of_le h]
      rfl
  | cons piece pieces ih =>
      obtain ⟨end_, hafter, hbound, hpiece, hrest⟩ := h
      have hlength : ((ir.text.drop cursor).take (end_ - cursor)).length = end_ - cursor := by
        rw [List.length_take, List.length_drop]
        omega
      have hsplit : ir.text.drop cursor = (ir.text.drop cursor).take (end_ - cursor) ++ ir.text.drop end_ := by
        have hdrop : (ir.text.drop cursor).drop (end_ - cursor) = ir.text.drop end_ := by
          rw [List.drop_drop, Nat.add_sub_cancel' (Nat.le_of_lt hafter)]
        rw [← hdrop, List.take_append_drop]
      rw [List.flatMap_cons, ih hrest, hpiece, styledText_slice hbound, hsplit, styledBy_append, hlength,
        ← hsplit, Nat.add_sub_cancel' (Nat.le_of_lt hafter)]

theorem CutFrom.neat (h : CutFrom ir cursor pieces) :
    ∀ piece ∈ pieces, Neat piece ∧ 0 < piece.text.length := by
  induction pieces generalizing cursor with
  | nil => exact nofun
  | cons piece pieces ih =>
      obtain ⟨end_, hafter, hbound, hpiece, hrest⟩ := h
      intro other hother
      rcases List.mem_cons.mp hother with hfirst | hlater
      · rw [hfirst, hpiece, length_sliceMarkdownIR hbound]
        exact ⟨neat_sliceMarkdownIR hbound, by omega⟩
      · exact ih hrest other hlater

theorem CutFrom.turns (h : CutFrom ir cursor pieces) (hcursor : cursor ≤ ir.text.length) :
    turns pieces + pieces.length = 2 * (ir.text.length - cursor) := by
  induction pieces generalizing cursor with
  | nil =>
      have hend : ir.text.length ≤ cursor := h
      show 0 + 0 = _
      omega
  | cons piece pieces ih =>
      obtain ⟨end_, hafter, hbound, hpiece, hrest⟩ := h
      have hlater := ih hrest hbound
      rw [Markdown.turns] at hlater
      rw [Markdown.turns, List.map_cons, List.sum_cons, List.length_cons, hpiece, length_sliceMarkdownIR hbound]
      omega

theorem largestFitting_spec (isFitting : ℕ → Bool) (bound : ℕ) :
    largestFitting isFitting bound ≤ bound ∧
      (largestFitting isFitting bound = 0 → ∀ n, 0 < n → n ≤ bound → isFitting n = false) ∧
      (largestFitting isFitting bound ≠ 0 → isFitting (largestFitting isFitting bound) = true) := by
  induction bound with
  | zero =>
      refine ⟨Nat.le_refl 0, ?_, fun hne => absurd rfl hne⟩
      intro _ n hpos hle
      omega
  | succ bound ih =>
      obtain ⟨hle, hnone, hsome⟩ := ih
      rw [largestFitting]
      by_cases hfit : isFitting (bound + 1) = true
      · rw [if_pos hfit]
        exact ⟨Nat.le_refl _, fun hzero => absurd hzero (Nat.succ_ne_zero _), fun _ => hfit⟩
      · rw [if_neg hfit]
        refine ⟨Nat.le_succ_of_le hle, ?_, hsome⟩
        intro hzero n hpos hn
        rcases Nat.le_succ_iff.mp hn with hle | hlast
        · exact hnone hzero n hpos hle
        · rw [hlast]
          exact (Bool.not_eq_true _).mp hfit

end Pieces

/-! ## The pending chunks -/

section Finalize

variable {R : Type} {options : RenderResolver R} {limit : ℕ} {chunk : MarkdownIR}

def Settled (options : RenderResolver R) (limit : ℕ) (chunk : MarkdownIR) : Prop :=
  fits options limit chunk = true ∨
    ∀ n, 0 < n → n < chunk.text.length → fits options limit (sliceMarkdownIR chunk 0 n) = false

theorem splitMarkdownIRByRenderedLimit_spec (hlong : 1 < chunk.text.length) :
    ∃ split, splitMarkdownIRByRenderedLimit options limit chunk = some split ∧
      ((split = [chunk] ∧ Settled options limit chunk) ∨ (CutFrom chunk 0 split ∧ 2 ≤ split.length)) := by
  have hsearch := largestFitting_spec (fun candidateLength =>
    fits options limit (sliceMarkdownIR chunk 0 candidateLength)) (chunk.text.length - 1)
  have hlargest : findLargestChunkTextLengthWithinRenderedLimit options limit chunk =
      largestFitting (fun candidateLength => fits options limit (sliceMarkdownIR chunk 0 candidateLength))
        (chunk.text.length - 1) :=
    if_neg (Nat.not_le.mpr hlong)
  rw [← hlargest] at hsearch
  obtain ⟨hbound, hnone, -⟩ := hsearch
  rw [splitMarkdownIRByRenderedLimit, if_neg (Nat.not_le.mpr hlong)]
  generalize findLargestChunkTextLengthWithinRenderedLimit options limit chunk = splitLimit at hbound hnone
  by_cases hzero : splitLimit = 0
  · simp only [if_pos hzero]
    refine ⟨_, rfl, Or.inl ⟨rfl, Or.inr ?_⟩⟩
    intro n hpos hn
    exact hnone hzero n hpos (by omega)
  · simp only [if_neg hzero]
    obtain ⟨pieces, hpieces, hcut, hmany⟩ := @splitFrom_spec chunk 0 (max 1 splitLimit) (by omega)
      (chunk.text.length + 1) (by omega)
    have hsplit : splitMarkdownIRPreserveWhitespace chunk splitLimit = some pieces := by
      rw [splitMarkdownIRPreserveWhitespace, if_neg (List.ne_nil_of_length_pos (by omega)),
        if_neg (by omega), hpieces]
    rw [hsplit, Option.map_some]
    have hhalves : CutFrom chunk 0
        [sliceMarkdownIR chunk 0 splitLimit, sliceMarkdownIR chunk splitLimit chunk.text.length] :=
      ⟨splitLimit, by omega, by omega, rfl, chunk.text.length, by omega, Nat.le_refl _, rfl, Nat.le_refl _⟩
    refine ⟨_, rfl, Or.inr ?_⟩
    split
    · exact ⟨hcut, hmany (by omega)⟩
    · exact ⟨hhalves, Nat.le_refl 2⟩

def NeatOrSingle (chunks : List MarkdownIR) : Prop := (∀ chunk ∈ chunks, Neat chunk) ∨ chunks.length ≤ 1

theorem finalizeChunks_spec {pending : List MarkdownIR} (hpos : ∀ chunk ∈ pending, 0 < chunk.text.length)
    {fuel : ℕ} (hfuel : turns pending < fuel) :
    ∃ finalized, finalizeChunks options limit fuel pending = some finalized ∧
      finalized.flatMap styledText = pending.flatMap styledText ∧
      (∀ chunk ∈ finalized, Settled options limit chunk) ∧
      ((∀ chunk ∈ pending, Neat chunk) → ∀ chunk ∈ finalized, Neat chunk) ∧
      (pending.length ≤ 1 → NeatOrSingle finalized) := by
  induction fuel generalizing pending with
  | zero => exact absurd hfuel (Nat.not_lt_zero _)
  | succ fuel ih =>
      cases pending with
      | nil => exact ⟨[], rfl, rfl, nofun, fun _ => nofun, fun _ => Or.inl nofun⟩
      | cons chunk pending =>
          have hchunk := hpos chunk List.mem_cons_self
          have hpending : ∀ other ∈ pending, 0 < other.text.length := fun other hother =>
            hpos other (List.mem_cons_of_mem _ hother)
          rw [turns, List.map_cons, List.sum_cons] at hfuel
          -- The chunk is finalized as it is.
          have hkeep : Settled options limit chunk → ∃ finalized,
              (finalizeChunks options limit fuel pending).map (chunk :: ·) = some finalized ∧
              finalized.flatMap styledText = (chunk :: pending).flatMap styledText ∧
              (∀ other ∈ finalized, Settled options limit other) ∧
              ((∀ other ∈ chunk :: pending, Neat other) → ∀ other ∈ finalized, Neat other) ∧
              ((chunk :: pending).length ≤ 1 → NeatOrSingle finalized) := by
            intro hsettled
            obtain ⟨finalized, hloop, hstyled, hall, hneat, -⟩ :=
              ih hpending (show turns pending < fuel by rw [turns]; omega)
            refine ⟨chunk :: finalized, ?_, ?_, ?_, ?_, ?_⟩
            · rw [hloop, Option.map_some]
            · rw [List.flatMap_cons, List.flatMap_cons, hstyled]
            · intro other hother
              rcases List.mem_cons.mp hother with hfirst | hlater
              · rw [hfirst]
                exact hsettled
              · exact hall other hlater
            · intro hneats other hother
              rcases List.mem_cons.mp hother with hfirst | hlater
              · rw [hfirst]
                exact hneats chunk List.mem_cons_self
              · exact hneat (fun last hlast => hneats last (List.mem_cons_of_mem _ hlast)) other hlater
            · intro hsingle
              have hnil : pending = [] := List.eq_nil_of_length_eq_zero (by
                rw [List.length_cons] at hsingle
                omega)
              rw [hnil] at hloop
              have hnone : finalized = [] := by
                cases fuel with
                | zero => exact absurd hloop nofun
                | succ fuel => exact (Option.some.inj hloop).symm
              rw [hnone]
              exact Or.inr (Nat.le_refl 1)
          rw [finalizeChunks]
          by_cases hdone : fits options limit chunk = true ∨ chunk.text.length ≤ 1
          · rw [if_pos hdone]
            apply hkeep
            rcases hdone with hfits | hshort
            · exact Or.inl hfits
            · exact Or.inr fun n hn hlt => by omega
          · rw [if_neg hdone]
            have hlong : 1 < chunk.text.length := Nat.lt_of_not_le fun hshort => hdone (Or.inr hshort)
            obtain ⟨split, hsplit, hcases⟩ := @splitMarkdownIRByRenderedLimit_spec R options limit chunk hlong
            rw [hsplit]
            rcases hcases with ⟨hsame, hsettled⟩ | ⟨hcut, hmany⟩
            · rw [hsame]
              exact hkeep hsettled
            · simp only
              rw [if_neg (by omega)]
              have hturns := hcut.turns (Nat.zero_le _)
              have hneats := hcut.neat
              obtain ⟨finalized, hloop, hstyled, hall, hneat, -⟩ := @ih (split ++ pending) (by
                intro other hother
                rcases List.mem_append.mp hother with hnew | hold
                · exact (hneats other hnew).2
                · exact hpending other hold) (by
                rw [turns, List.map_append, List.sum_append]
                rw [turns] at hturns
                omega)
              have hwhole : split.flatMap styledText = styledText chunk := hcut.styled
              refine ⟨finalized, hloop, ?_, hall, ?_, ?_⟩
              · rw [hstyled, List.flatMap_append, List.flatMap_cons, hwhole]
              · intro hpendingNeat
                apply hneat
                intro other hother
                rcases List.mem_append.mp hother with hnew | hold
                · exact (hneats other hnew).1
                · exact hpendingNeat other (List.mem_cons_of_mem _ hold)
              · intro hsingle
                have hnil : pending = [] := List.eq_nil_of_length_eq_zero (by
                  rw [List.length_cons] at hsingle
                  omega)
                left
                apply hneat
                intro other hother
                rw [hnil, List.append_nil] at hother
                exact (hneats other hother).1

theorem finalizeChunks_mono {pending finalized : List MarkdownIR} {fuel more : ℕ} (hle : fuel ≤ more)
    (h : finalizeChunks options limit fuel pending = some finalized) :
    finalizeChunks options limit more pending = some finalized := by
  induction fuel generalizing pending finalized more with
  | zero => exact absurd h nofun
  | succ fuel ih =>
      cases more with
      | zero => exact absurd hle (Nat.not_succ_le_zero _)
      | succ more =>
          have hnext := Nat.le_of_succ_le_succ hle
          cases pending with
          | nil => exact h
          | cons chunk pending =>
              have hkeep : (finalizeChunks options limit fuel pending).map (chunk :: ·) = some finalized →
                  (finalizeChunks options limit more pending).map (chunk :: ·) = some finalized := by
                intro hmap
                obtain ⟨rest, hrest, hcons⟩ := Option.map_eq_some_iff.mp hmap
                rw [ih hnext hrest, ← hcons]
                rfl
              rw [finalizeChunks] at h ⊢
              split
              · rename_i hdone
                rw [if_pos hdone] at h
                exact hkeep h
              · rename_i hopen
                rw [if_neg hopen] at h
                cases hsplit : splitMarkdownIRByRenderedLimit options limit chunk with
                | none =>
                    rw [hsplit] at h
                    exact absurd h nofun
                | some split =>
                    rw [hsplit] at h
                    simp only at h ⊢
                    by_cases hone : split.length ≤ 1
                    · rw [if_pos hone] at h ⊢
                      exact hkeep h
                    · rw [if_neg hone] at h ⊢
                      exact ih hnext h

end Finalize

/-! ## White space between chunks -/

section Coalesce

variable {R : Type} {options : RenderResolver R} {limit : ℕ} {coalesced : List MarkdownIR}
  {chunk : MarkdownIR} {next : Option MarkdownIR}

theorem spaces_of_trim_nil {text : JsString} (h : ¬ 0 < (trim text).length) : Spaces text := by
  have hnil : trimEnd (trimStart text) = [] := List.eq_nil_of_length_eq_zero (Nat.eq_zero_of_not_pos h)
  obtain ⟨gap, hgap, hsplit⟩ := exists_trimStart text
  rw [hsplit]
  exact hgap.append (trimEnd_eq_nil.mp hnil)

theorem styledText_spaces {ir : MarkdownIR} (h : Spaces ir.text) : styledText ir = [] :=
  styledBy_spaces _ 0 h

theorem styledText_slice_spaces {ir : MarkdownIR} (h : Spaces ir.text) (start end_ : ℕ) :
    styledText (sliceMarkdownIR ir start end_) = [] := by
  apply styledText_spaces
  intro u hu
  exact h u (List.mem_of_mem_drop (List.mem_of_mem_take hu))

inductive CoalesceTurn (options : RenderResolver R) (limit : ℕ) (coalesced : List MarkdownIR)
    (chunk : MarkdownIR) : Option MarkdownIR → List MarkdownIR × Option MarkdownIR → Prop
  | pushed (next : Option MarkdownIR) : CoalesceTurn options limit coalesced chunk next (coalesced ++ [chunk], next)
  | dropped (next : Option MarkdownIR) (hblank : Spaces chunk.text) :
      CoalesceTurn options limit coalesced chunk next (coalesced, next)
  | toPrev (next : Option MarkdownIR) (before : List MarkdownIR) (prev : MarkdownIR) (hblank : Spaces chunk.text)
      (hprev : coalesced = before ++ [prev])
      (hfits : fits options limit (mergeMarkdownIRChunks prev chunk) = true) :
      CoalesceTurn options limit coalesced chunk next (before ++ [mergeMarkdownIRChunks prev chunk], next)
  | toNext (following : MarkdownIR) (hblank : Spaces chunk.text)
      (hfits : fits options limit (mergeMarkdownIRChunks chunk following) = true) :
      CoalesceTurn options limit coalesced chunk (some following)
        (coalesced, some (mergeMarkdownIRChunks chunk following))
  | shared (before : List MarkdownIR) (prev following : MarkdownIR) (share : ℕ) (hblank : Spaces chunk.text)
      (hprev : coalesced = before ++ [prev]) (hshare : share ≤ chunk.text.length)
      (hfits : fits options limit (mergeMarkdownIRChunks prev (sliceMarkdownIR chunk 0 share)) = true)
      (hfitsNext : fits options limit (mergeMarkdownIRChunks
        (sliceMarkdownIR chunk share chunk.text.length) following) = true) :
      CoalesceTurn options limit coalesced chunk (some following)
        (before ++ [mergeMarkdownIRChunks prev (sliceMarkdownIR chunk 0 share)],
          some (mergeMarkdownIRChunks (sliceMarkdownIR chunk share chunk.text.length) following))

theorem shareWhitespace_some {prev following : MarkdownIR} {merged : MarkdownIR × MarkdownIR}
    (h : shareWhitespace options limit prev chunk following = some merged) :
    ∃ share ≤ chunk.text.length,
      merged = (mergeMarkdownIRChunks prev (sliceMarkdownIR chunk 0 share),
        mergeMarkdownIRChunks (sliceMarkdownIR chunk share chunk.text.length) following) ∧
      fits options limit merged.1 = true ∧ fits options limit merged.2 = true := by
  rw [shareWhitespace] at h
  split at h
  · exact absurd h nofun
  · rename_i hne
    obtain ⟨hle, -, hsome⟩ := largestFitting_spec (fun prefixLength =>
      fits options limit (mergeMarkdownIRChunks prev (sliceMarkdownIR chunk 0 prefixLength)) &&
      fits options limit (mergeMarkdownIRChunks
        (sliceMarkdownIR chunk prefixLength chunk.text.length) following)) (chunk.text.length - 1)
    have hboth := hsome hne
    rw [Bool.and_eq_true] at hboth
    rw [← Option.some.inj h]
    exact ⟨_, by omega, rfl, hboth⟩

theorem coalesceStep_turn (options : RenderResolver R) (limit : ℕ) (coalesced : List MarkdownIR)
    (chunk : MarkdownIR) (next : Option MarkdownIR) :
    CoalesceTurn options limit coalesced chunk next (coalesceStep options limit coalesced chunk next) := by
  unfold coalesceStep
  by_cases hink : 0 < (trim chunk.text).length
  · rw [if_pos hink]
    exact CoalesceTurn.pushed next
  · rw [if_neg hink]
    have hblank := spaces_of_trim_nil hink
    have hlast : ∀ prev, coalesced.getLast? = some prev → coalesced = coalesced.dropLast ++ [prev] :=
      fun prev hprev => (List.dropLast_append_getLast? prev hprev).symm
    simp only
    split
    · rename_i merged _ hmerged
      obtain ⟨hmap, hfits⟩ := Option.filter_eq_some_iff.mp hmerged
      obtain ⟨prev, hprev, hsame⟩ := Option.map_eq_some_iff.mp hmap
      rw [← hsame] at hfits ⊢
      exact CoalesceTurn.toPrev next _ prev hblank (hlast prev hprev) hfits
    · rename_i merged hmerged
      obtain ⟨hmap, hfits⟩ := Option.filter_eq_some_iff.mp hmerged
      obtain ⟨following, hnext, hsame⟩ := Option.map_eq_some_iff.mp hmap
      rw [← hsame] at hfits ⊢
      rw [hnext]
      exact CoalesceTurn.toNext following hblank hfits
    · cases hprev : coalesced.getLast? with
      | none => exact CoalesceTurn.dropped _ hblank
      | some prev =>
          cases next with
          | none => exact CoalesceTurn.dropped _ hblank
          | some following =>
              simp only
              split
              · rename_i mergedPrev mergedNext hshared
                obtain ⟨share, hshare, hmerged, hfits, hfitsNext⟩ := shareWhitespace_some hshared
                rw [hmerged] at hfits hfitsNext
                rw [(Prod.mk.inj hmerged).1, (Prod.mk.inj hmerged).2]
                exact CoalesceTurn.shared _ prev following share hblank (hlast prev hprev) hshare hfits
                  hfitsNext
              · exact CoalesceTurn.dropped _ hblank

variable {result : List MarkdownIR × Option MarkdownIR}

theorem CoalesceTurn.keeps {p : MarkdownIR → Prop} (hp : ∀ ir, fits options limit ir = true → p ir)
    (h : CoalesceTurn options limit coalesced chunk next result) (hcoalesced : ∀ ir ∈ coalesced, p ir)
    (hchunk : p chunk) (hnext : ∀ ir ∈ next, p ir) : (∀ ir ∈ result.1, p ir) ∧ ∀ ir ∈ result.2, p ir := by
  have hsnoc : ∀ (before : List MarkdownIR) (last : MarkdownIR), (∀ ir ∈ before, p ir) → p last →
      ∀ ir ∈ before ++ [last], p ir := by
    intro before last hbefore hlast ir hir
    rcases List.mem_append.mp hir with hold | hnew
    · exact hbefore ir hold
    · rw [List.mem_singleton.mp hnew]
      exact hlast
  have hfront : ∀ (before : List MarkdownIR) (prev : MarkdownIR), coalesced = before ++ [prev] →
      ∀ ir ∈ before, p ir := by
    intro before prev hprev ir hir
    apply hcoalesced
    rw [hprev]
    exact List.mem_append_left _ hir
  cases h with
  | pushed => exact ⟨hsnoc _ _ hcoalesced hchunk, hnext⟩
  | dropped => exact ⟨hcoalesced, hnext⟩
  | toPrev _ before prev hblank hprev hfits => exact ⟨hsnoc _ _ (hfront before prev hprev) (hp _ hfits), hnext⟩
  | toNext following hblank hfits =>
      refine ⟨hcoalesced, ?_⟩
      intro ir hir
      rw [← Option.some.inj hir]
      exact hp _ hfits
  | shared before prev following share hblank hprev hshare hfits hfitsNext =>
      refine ⟨hsnoc _ _ (hfront before prev hprev) (hp _ hfits), ?_⟩
      intro ir hir
      rw [← Option.some.inj hir]
      exact hp _ hfitsNext

theorem CoalesceTurn.styled (h : CoalesceTurn options limit coalesced chunk next result)
    (hcoalesced : ∀ ir ∈ coalesced, Neat ir) (hchunk : Neat chunk) (hnext : ∀ ir ∈ next, Neat ir) :
    (∀ ir ∈ result.1, Neat ir) ∧ (∀ ir ∈ result.2, Neat ir) ∧
      result.1.flatMap styledText ++ result.2.toList.flatMap styledText =
        coalesced.flatMap styledText ++ (styledText chunk ++ next.toList.flatMap styledText) := by
  have hsnoc : ∀ (before : List MarkdownIR) (last : MarkdownIR), (∀ ir ∈ before, Neat ir) → Neat last →
      ∀ ir ∈ before ++ [last], Neat ir := by
    intro before last hbefore hlast ir hir
    rcases List.mem_append.mp hir with hold | hnew
    · exact hbefore ir hold
    · rw [List.mem_singleton.mp hnew]
      exact hlast
  have hfront : ∀ (before : List MarkdownIR) (prev : MarkdownIR), coalesced = before ++ [prev] →
      (∀ ir ∈ before, Neat ir) ∧ Neat prev := by
    intro before prev hprev
    rw [hprev] at hcoalesced
    exact ⟨fun ir hir => hcoalesced ir (List.mem_append_left _ hir),
      hcoalesced prev (List.mem_append_right _ List.mem_cons_self)⟩
  cases h with
  | pushed =>
      refine ⟨hsnoc _ _ hcoalesced hchunk, hnext, ?_⟩
      simp only [List.flatMap_append, List.flatMap_singleton, List.append_assoc]
  | dropped _ hblank =>
      refine ⟨hcoalesced, hnext, ?_⟩
      rw [styledText_spaces hblank, List.nil_append]
  | toPrev _ before prev hblank hprev hfits =>
      obtain ⟨hbefore, hneat⟩ := hfront before prev hprev
      refine ⟨hsnoc _ _ hbefore (neat_mergeMarkdownIRChunks hneat hchunk), hnext, ?_⟩
      simp only [hprev, List.flatMap_append, List.flatMap_singleton, styledText_merge hneat hchunk,
        List.append_assoc]
  | toNext following hblank hfits =>
      have hneat := hnext following rfl
      refine ⟨hcoalesced, ?_, ?_⟩
      · intro ir hir
        rw [← Option.some.inj hir]
        exact neat_mergeMarkdownIRChunks hchunk hneat
      · simp only [Option.toList_some, List.flatMap_singleton, styledText_merge hchunk hneat]
  | shared before prev following share hblank hprev hshare hfits hfitsNext =>
      obtain ⟨hbefore, hneat⟩ := hfront before prev hprev
      have hfollowing := hnext following rfl
      have hfirst : Neat (sliceMarkdownIR chunk 0 share) := neat_sliceMarkdownIR hshare
      have hsecond : Neat (sliceMarkdownIR chunk share chunk.text.length) := neat_sliceMarkdownIR (Nat.le_refl _)
      refine ⟨hsnoc _ _ hbefore (neat_mergeMarkdownIRChunks hneat hfirst), ?_, ?_⟩
      · intro ir hir
        rw [← Option.some.inj hir]
        exact neat_mergeMarkdownIRChunks hsecond hfollowing
      · simp only [hprev, Option.toList_some, List.flatMap_append, List.flatMap_singleton,
          styledText_merge hneat hfirst, styledText_merge hsecond hfollowing,
          styledText_slice_spaces hblank, styledText_spaces hblank, List.append_nil, List.nil_append]

theorem CoalesceTurn.next_some (h : CoalesceTurn options limit coalesced chunk next result) :
    result.2.isSome = next.isSome := by
  cases h <;> rfl

theorem coalesceStep_next (coalesced : List MarkdownIR) (chunk following : MarkdownIR) :
    (coalesceStep options limit coalesced chunk (some following)).2 =
      some ((coalesceStep options limit coalesced chunk (some following)).2.getD following) := by
  have hsome := (coalesceStep_turn options limit coalesced chunk (some following)).next_some
  obtain ⟨after, hafter⟩ := Option.isSome_iff_exists.mp hsome
  rw [hafter]
  rfl

theorem coalesceFrom_keeps {p : MarkdownIR → Prop} (hp : ∀ ir, fits options limit ir = true → p ir)
    {rest : List MarkdownIR} (hcoalesced : ∀ ir ∈ coalesced, p ir) (hchunk : p chunk)
    (hrest : ∀ ir ∈ rest, p ir) : ∀ ir ∈ coalesceFrom options limit coalesced chunk rest, p ir := by
  induction rest generalizing coalesced chunk with
  | nil => exact ((coalesceStep_turn options limit coalesced chunk none).keeps hp hcoalesced hchunk nofun).1
  | cons following rest ih =>
      have hfollowing : ∀ ir ∈ some following, p ir := by
        intro ir hir
        rw [← Option.some.inj hir]
        exact hrest following List.mem_cons_self
      obtain ⟨hfirst, hnext⟩ := (coalesceStep_turn options limit coalesced chunk (some following)).keeps hp
        hcoalesced hchunk hfollowing
      rw [coalesceFrom]
      apply ih hfirst
      · exact hnext _ (coalesceStep_next coalesced chunk following)
      · exact fun ir hir => hrest ir (List.mem_cons_of_mem _ hir)

theorem coalesce_fits (chunks : List MarkdownIR) :
    ∀ ir ∈ coalesceWhitespaceOnlyMarkdownIRChunks options limit chunks,
      ir ∈ chunks ∨ fits options limit ir = true := by
  cases chunks with
  | nil => exact nofun
  | cons chunk rest =>
      have hkeeps := @coalesceFrom_keeps R options limit [] chunk
        (fun ir => ir ∈ chunk :: rest ∨ fits options limit ir = true) (fun _ => Or.inr) rest nofun
        (Or.inl List.mem_cons_self) fun ir hir => Or.inl (List.mem_cons_of_mem _ hir)
      exact hkeeps

theorem coalesceFrom_styled {rest : List MarkdownIR} (hcoalesced : ∀ ir ∈ coalesced, Neat ir)
    (hchunk : Neat chunk) (hrest : ∀ ir ∈ rest, Neat ir) :
    (coalesceFrom options limit coalesced chunk rest).flatMap styledText =
      coalesced.flatMap styledText ++ (styledText chunk ++ rest.flatMap styledText) := by
  induction rest generalizing coalesced chunk with
  | nil =>
      obtain ⟨-, -, hstyled⟩ := (coalesceStep_turn options limit coalesced chunk none).styled hcoalesced hchunk
        nofun
      have hnone : (coalesceStep options limit coalesced chunk none).2 = none :=
        Option.isNone_iff_eq_none.mp (by
          rw [← Option.not_isSome, (coalesceStep_turn options limit coalesced chunk none).next_some]
          rfl)
      rw [hnone] at hstyled
      rw [coalesceFrom, ← List.append_nil (List.flatMap _ _)]
      exact hstyled
  | cons following rest ih =>
      have hfollowing : ∀ ir ∈ some following, Neat ir := by
        intro ir hir
        rw [← Option.some.inj hir]
        exact hrest following List.mem_cons_self
      obtain ⟨hfirst, hnext, hstyled⟩ :=
        (coalesceStep_turn options limit coalesced chunk (some following)).styled hcoalesced hchunk hfollowing
      rw [coalesceStep_next coalesced chunk following] at hstyled
      rw [coalesceFrom, ih hfirst (hnext _ (coalesceStep_next coalesced chunk following))
        fun ir hir => hrest ir (List.mem_cons_of_mem _ hir)]
      simp only [Option.toList_some, List.flatMap_singleton] at hstyled
      rw [← List.append_assoc, hstyled, List.flatMap_cons, List.append_assoc, List.append_assoc]

theorem coalesce_styled {chunks : List MarkdownIR} (h : NeatOrSingle chunks) :
    (coalesceWhitespaceOnlyMarkdownIRChunks options limit chunks).flatMap styledText =
      chunks.flatMap styledText := by
  cases chunks with
  | nil => rfl
  | cons chunk rest =>
      rcases h with hneat | hsingle
      · have hnone : ∀ ir ∈ ([] : List MarkdownIR), Neat ir := nofun
        rw [coalesceWhitespaceOnlyMarkdownIRChunks, coalesceFrom_styled hnone (hneat chunk List.mem_cons_self)
          fun ir hir => hneat ir (List.mem_cons_of_mem _ hir)]
        rw [List.flatMap_cons]
        rfl
      · have hnil : rest = [] := List.eq_nil_of_length_eq_zero (by
          rw [List.length_cons] at hsingle
          omega)
        rw [hnil, coalesceWhitespaceOnlyMarkdownIRChunks, coalesceFrom]
        unfold coalesceStep
        by_cases hink : 0 < (trim chunk.text).length
        · rw [if_pos hink]
          rfl
        · rw [if_neg hink, List.flatMap_singleton, styledText_spaces (spaces_of_trim_nil hink)]
          rfl

end Coalesce

end GreenchClaw.Markdown
