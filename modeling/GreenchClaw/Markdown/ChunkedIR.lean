import GreenchClaw.Markdown.Render
import GreenchClaw.Markdown.TextChunks

/-!
# Chunks of a markdown IR

`chunkMarkdownIR` of `src/markdown/ir.ts` cuts the text with `chunkText` and finds the places of the
chunks again by skipping white space. The places are right unless the first cut leaves only white space.
-/

namespace GreenchClaw.Markdown

open GreenchClaw.Js

/-! ## The source -/

def nameRank : MarkdownStyle → ℕ
  | .blockquote => 0
  | .bold => 1
  | .code => 2
  | .codeBlock => 3
  | .italic => 4
  | .spoiler => 5
  | .strikethrough => 6

def MergedBefore (a b : MarkdownStyleSpan) : Prop :=
  if a.start ≠ b.start then a.start < b.start
  else if a.end_ ≠ b.end_ then a.end_ < b.end_
  else nameRank a.style ≤ nameRank b.style

instance : DecidableRel MergedBefore := fun a b => by
  unfold MergedBefore
  infer_instance

def mergeFrom (merges : MarkdownStyleSpan → MarkdownStyleSpan → Bool) (prev : MarkdownStyleSpan) :
    List MarkdownStyleSpan → List MarkdownStyleSpan
  | [] => [prev]
  | span :: rest =>
      if merges prev span = true then mergeFrom merges { prev with end_ := max prev.end_ span.end_ } rest
      else prev :: mergeFrom merges span rest

def mergeSpans (merges : MarkdownStyleSpan → MarkdownStyleSpan → Bool) :
    List MarkdownStyleSpan → List MarkdownStyleSpan
  | [] => []
  | first :: rest => mergeFrom merges first rest

def mergesWith (prev span : MarkdownStyleSpan) : Bool :=
  prev.style = span.style ∧
    (span.start < prev.end_ ∨ (span.start = prev.end_ ∧ span.style ≠ .blockquote))

def mergeStyleSpans (spans : List MarkdownStyleSpan) : List MarkdownStyleSpan :=
  mergeSpans mergesWith (spans.insertionSort MergedBefore)

def resolveSliceBounds (spanStart spanEnd start end_ : ℕ) : Option (ℕ × ℕ) :=
  let sliceStart := max spanStart start
  let sliceEnd := min spanEnd end_
  if sliceEnd ≤ sliceStart then none else some (sliceStart, sliceEnd)

def sliceStyleSpans (spans : List MarkdownStyleSpan) (start end_ : ℕ) : List MarkdownStyleSpan :=
  mergeStyleSpans (spans.filterMap fun span =>
    (resolveSliceBounds span.start span.end_ start end_).map fun bounds =>
      { start := bounds.1 - start, end_ := bounds.2 - start, style := span.style })

def sliceLinkSpans (spans : List MarkdownLinkSpan) (start end_ : ℕ) : List MarkdownLinkSpan :=
  spans.filterMap fun span =>
    (resolveSliceBounds span.start span.end_ start end_).map fun bounds =>
      { start := bounds.1 - start, end_ := bounds.2 - start, href := span.href }

structure ChunkSlice where
  text : JsString
  start : ℕ
  end_ : ℕ
  deriving DecidableEq

/-- The loop of `chunkMarkdownIR` over the chunks. -/
def alignChunks (text : JsString) : ℕ → Bool → List JsString → List ChunkSlice
  | _, _, [] => []
  | cursor, isFirst, chunk :: chunks =>
      if chunk = [] then alignChunks text cursor false chunks
      else
        let start := if isFirst = true then cursor else cursor + leadingSpaces (text.drop cursor)
        let end_ := min text.length (start + chunk.length)
        { text := chunk, start, end_ } :: alignChunks text end_ false chunks

def chunkSlices (text : JsString) (limit : ℕ) : List ChunkSlice :=
  if text = [] then []
  else if limit = 0 ∨ text.length ≤ limit then [{ text, start := 0, end_ := text.length }]
  else alignChunks text 0 true (chunkText text limit)

def chunkMarkdownIR (ir : MarkdownIR) (limit : ℕ) : List MarkdownIR :=
  if ir.text = [] then []
  else if limit = 0 ∨ ir.text.length ≤ limit then [ir]
  else
    (chunkSlices ir.text limit).map fun slice =>
      { text := slice.text
        styles := sliceStyleSpans ir.styles slice.start slice.end_
        links := sliceLinkSpans ir.links slice.start slice.end_ }

/-! ## Spans at a place -/

def HasStyle (spans : List MarkdownStyleSpan) (style : MarkdownStyle) (i : ℕ) : Prop :=
  ∃ span ∈ spans, span.style = style ∧ span.start ≤ i ∧ i < span.end_

def linksAt (spans : List MarkdownLinkSpan) (i : ℕ) : List JsString :=
  (spans.filter fun span => span.start ≤ i ∧ i < span.end_).map MarkdownLinkSpan.href

section Spans

variable {style : MarkdownStyle} {i start end_ : ℕ}

theorem hasStyle_cons (span : MarkdownStyleSpan) (spans : List MarkdownStyleSpan) :
    HasStyle (span :: spans) style i ↔
      (span.style = style ∧ span.start ≤ i ∧ i < span.end_) ∨ HasStyle spans style i := by
  constructor
  · rintro ⟨other, hmem, hother⟩
    rcases List.mem_cons.mp hmem with hsame | hrest
    · rw [hsame] at hother
      exact Or.inl hother
    · exact Or.inr ⟨other, hrest, hother⟩
  · rintro (hspan | ⟨other, hmem, hother⟩)
    · exact ⟨span, List.mem_cons_self, hspan⟩
    · exact ⟨other, List.mem_cons_of_mem _ hmem, hother⟩

theorem mergedBefore_start {a b : MarkdownStyleSpan} (h : MergedBefore a b) : a.start ≤ b.start := by
  unfold MergedBefore at h
  split at h
  · exact Nat.le_of_lt h
  · omega

instance : Std.Total MergedBefore where
  total a b := by
    unfold MergedBefore
    split_ifs <;> omega

instance : IsTrans MarkdownStyleSpan MergedBefore where
  trans a b c hab hbc := by
    unfold MergedBefore at hab hbc ⊢
    split_ifs at hab hbc ⊢ <;> omega

def MergesTouching (merges : MarkdownStyleSpan → MarkdownStyleSpan → Bool) : Prop :=
  ∀ prev span, merges prev span = true → prev.style = span.style ∧ span.start ≤ prev.end_

theorem mergesTouching_mergesWith : MergesTouching mergesWith := by
  intro prev span hmerge
  have hboth := of_decide_eq_true hmerge
  exact ⟨hboth.1, by omega⟩

theorem covered_merged {prev span : MarkdownStyleSpan}
    (htouch : prev.style = span.style ∧ span.start ≤ prev.end_) (hstart : prev.start ≤ span.start) :
    (prev.style = style ∧ prev.start ≤ i ∧ i < max prev.end_ span.end_) ↔
      (prev.style = style ∧ prev.start ≤ i ∧ i < prev.end_) ∨
        (span.style = style ∧ span.start ≤ i ∧ i < span.end_) := by
  rw [← htouch.1]
  constructor
  · rintro ⟨hstyle, hfrom, hupto⟩
    by_cases hfirst : i < prev.end_
    · exact Or.inl ⟨hstyle, hfrom, hfirst⟩
    · exact Or.inr ⟨hstyle, by omega, by omega⟩
  · rintro (⟨hstyle, hfrom, hupto⟩ | ⟨hstyle, hfrom, hupto⟩)
    · exact ⟨hstyle, hfrom, by omega⟩
    · exact ⟨hstyle, by omega, by omega⟩

def StartsInOrder (spans : List MarkdownStyleSpan) : Prop := spans.Pairwise fun a b => a.start ≤ b.start

theorem hasStyle_mergeFrom {merges : MarkdownStyleSpan → MarkdownStyleSpan → Bool}
    (hmerges : MergesTouching merges) (prev : MarkdownStyleSpan) (spans : List MarkdownStyleSpan)
    (hsorted : StartsInOrder (prev :: spans)) :
    HasStyle (mergeFrom merges prev spans) style i ↔ HasStyle (prev :: spans) style i := by
  induction spans generalizing prev with
  | nil => rfl
  | cons span rest ih =>
      obtain ⟨hprev, hrest⟩ := List.pairwise_cons.mp hsorted
      obtain ⟨hspan, hlater⟩ := List.pairwise_cons.mp hrest
      have hstart := hprev span List.mem_cons_self
      rw [mergeFrom]
      by_cases hmerge : merges prev span = true
      · rw [if_pos hmerge, ih]
        · rw [hasStyle_cons, hasStyle_cons, hasStyle_cons, ← or_assoc,
            ← covered_merged (hmerges prev span hmerge) hstart]
        · apply List.pairwise_cons.mpr
          exact ⟨fun other hother => hprev other (List.mem_cons_of_mem _ hother), hlater⟩
      · rw [if_neg hmerge, hasStyle_cons, ih span hrest, hasStyle_cons prev]

theorem hasStyle_mergeSpans {merges : MarkdownStyleSpan → MarkdownStyleSpan → Bool}
    (hmerges : MergesTouching merges) {spans : List MarkdownStyleSpan} (hsorted : StartsInOrder spans) :
    HasStyle (mergeSpans merges spans) style i ↔ HasStyle spans style i := by
  cases spans with
  | nil => rfl
  | cons first rest => exact hasStyle_mergeFrom hmerges first rest hsorted

theorem startsInOrder_sorted (spans : List MarkdownStyleSpan) :
    StartsInOrder (spans.insertionSort MergedBefore) :=
  (List.pairwise_insertionSort MergedBefore spans).imp fun h => mergedBefore_start h

theorem hasStyle_mergeStyleSpans (spans : List MarkdownStyleSpan) :
    HasStyle (mergeStyleSpans spans) style i ↔ HasStyle spans style i := by
  rw [mergeStyleSpans, hasStyle_mergeSpans mergesTouching_mergesWith (startsInOrder_sorted spans)]
  unfold HasStyle
  simp only [List.mem_insertionSort]

theorem sliceBounds_cover (spanStart spanEnd : ℕ) (h : i < end_ - start) :
    (∃ bounds, resolveSliceBounds spanStart spanEnd start end_ = some bounds ∧
      bounds.1 - start ≤ i ∧ i < bounds.2 - start) ↔ spanStart ≤ start + i ∧ start + i < spanEnd := by
  unfold resolveSliceBounds
  simp only
  split
  · constructor
    · rintro ⟨bounds, hnone, -⟩
      exact absurd hnone nofun
    · intro hcover
      omega
  · constructor
    · rintro ⟨bounds, hsome, hcover⟩
      rw [← Option.some.inj hsome] at hcover
      omega
    · intro hcover
      exact ⟨_, rfl, by omega, by omega⟩

theorem hasStyle_sliceStyleSpans (spans : List MarkdownStyleSpan) (h : i < end_ - start) :
    HasStyle (sliceStyleSpans spans start end_) style i ↔ HasStyle spans style (start + i) := by
  rw [sliceStyleSpans, hasStyle_mergeStyleSpans]
  constructor
  · rintro ⟨sliced, hmem, hstyle, hcover⟩
    obtain ⟨span, hspan, hmap⟩ := List.mem_filterMap.mp hmem
    obtain ⟨bounds, hbounds, hsliced⟩ := Option.map_eq_some_iff.mp hmap
    rw [← hsliced] at hstyle hcover
    exact ⟨span, hspan, hstyle, (sliceBounds_cover _ _ h).mp ⟨bounds, hbounds, hcover⟩⟩
  · rintro ⟨span, hspan, hstyle, hcover⟩
    obtain ⟨bounds, hbounds, hsliced⟩ := (sliceBounds_cover _ _ h).mpr hcover
    refine ⟨{ start := bounds.1 - start, end_ := bounds.2 - start, style := span.style },
      List.mem_filterMap.mpr ⟨span, hspan, ?_⟩, hstyle, hsliced⟩
    rw [hbounds]
    rfl

theorem linksAt_sliceLinkSpans (spans : List MarkdownLinkSpan) (h : i < end_ - start) :
    linksAt (sliceLinkSpans spans start end_) i = linksAt spans (start + i) := by
  induction spans with
  | nil => rfl
  | cons span rest ih =>
      have hcover := @sliceBounds_cover i start end_ span.start span.end_ h
      rw [linksAt, sliceLinkSpans, linksAt, List.filter_cons, List.filterMap_cons]
      rw [linksAt, sliceLinkSpans, linksAt] at ih
      cases hbounds : resolveSliceBounds span.start span.end_ start end_ with
      | none =>
          have hout : ¬ (span.start ≤ start + i ∧ start + i < span.end_) := by
            intro hin
            obtain ⟨bounds, hsome, -⟩ := hcover.mpr hin
            rw [hbounds] at hsome
            exact absurd hsome nofun
          rw [if_neg (by rw [decide_eq_true_eq]; exact hout)]
          exact ih
      | some bounds =>
          simp only [Option.map_some, List.filter_cons]
          by_cases hin : span.start ≤ start + i ∧ start + i < span.end_
          · obtain ⟨other, hsome, hsliced⟩ := hcover.mpr hin
            rw [hbounds, Option.some.injEq] at hsome
            rw [← hsome] at hsliced
            rw [if_pos (decide_eq_true hsliced), if_pos (decide_eq_true hin), List.map_cons, List.map_cons, ih]
          · have hout : ¬ (bounds.1 - start ≤ i ∧ i < bounds.2 - start) := fun hsliced =>
              hin (hcover.mp ⟨bounds, hbounds, hsliced⟩)
            rw [if_neg (by rw [decide_eq_true_eq]; exact hout), if_neg (by rw [decide_eq_true_eq]; exact hin)]
            exact ih

end Spans

/-! ## Alignment -/

/-- The slices are cut out of the text, one after the other, with only white space left out. -/
def SlicesFrom (text : JsString) : ℕ → List ChunkSlice → Prop
  | cursor, [] => Spaces (text.drop cursor)
  | cursor, slice :: slices =>
      cursor ≤ slice.start ∧ slice.start ≤ slice.end_ ∧ slice.end_ ≤ text.length ∧
        Spaces ((text.drop cursor).take (slice.start - cursor)) ∧
        slice.text = (text.drop slice.start).take (slice.end_ - slice.start) ∧
        SlicesFrom text slice.end_ slices

structure Carries (ir : MarkdownIR) (slice : ChunkSlice) (chunk : MarkdownIR) : Prop where
  text : chunk.text = slice.text
  styles : ∀ i < slice.end_ - slice.start, ∀ style,
    HasStyle chunk.styles style i ↔ HasStyle ir.styles style (slice.start + i)
  links : ∀ i < slice.end_ - slice.start,
    linksAt chunk.links i = linksAt ir.links (slice.start + i)

def FirstChunkKept (text : JsString) (limit : ℕ) : Prop :=
  text.length ≤ limit ∨ Spaces text ∨
    leadingSpaces text < breakIndex resolveTextBreak limit (text.take limit)

section Alignment

variable {text rest : JsString} {limit : ℕ} {chunks : List JsString}

theorem leadingSpaces_append {gap : JsString} (hgap : Spaces gap) (hhead : NoLeadingSpace rest) :
    leadingSpaces (gap ++ rest) = gap.length := by
  have hrest : rest.takeWhile isSpace = [] := by
    cases hcons : rest with
    | nil => rfl
    | cons u tail =>
        apply List.takeWhile_cons_of_neg
        rw [hhead u tail hcons]
        exact Bool.false_ne_true
  rw [leadingSpaces, List.takeWhile_append_of_pos hgap, hrest, List.append_nil]

/-- The bounds of the chunks are found again from the end of the chunk before. -/
theorem slicesFrom_alignChunks (htiled : Tiled rest chunks) {cursor : ℕ} {gap : JsString} {isFirst : Bool}
    (hdrop : text.drop cursor = gap ++ rest) (hgap : Spaces gap)
    (hfirst : isFirst = true → gap = []) (hlater : isFirst = false → NoLeadingSpace rest) :
    SlicesFrom text cursor (alignChunks text cursor isFirst chunks) := by
  induction htiled generalizing cursor gap isFirst with
  | blank blank hblank =>
      rw [alignChunks, SlicesFrom, hdrop]
      exact hgap.append hblank
  | piece chunk left rest chunks hne hleft hrest hhead ih =>
      rw [alignChunks, if_neg hne]
      have hstart : (if isFirst = true then cursor else cursor + leadingSpaces (text.drop cursor)) =
          cursor + gap.length := by
        by_cases htrue : isFirst = true
        · rw [if_pos htrue, hfirst htrue, List.length_nil, Nat.add_zero]
        · rw [if_neg htrue, hdrop,
            leadingSpaces_append hgap (hlater ((Bool.not_eq_true _).mp htrue))]
      have hat : text.drop (cursor + gap.length) = chunk ++ (left ++ rest) := by
        rw [← List.drop_drop, hdrop, List.drop_left]
      have hlength := congrArg List.length hat
      rw [List.length_drop, List.length_append] at hlength
      have hpos := List.length_pos_of_ne_nil hne
      have hend : min text.length (cursor + gap.length + chunk.length) =
          cursor + gap.length + chunk.length := by
        omega
      simp only [hstart, hend]
      have hinside : cursor + gap.length + chunk.length ≤ text.length := by
        omega
      refine ⟨Nat.le_add_right _ _, Nat.le_add_right _ _, hinside, ?_, ?_, ?_⟩
      · rw [Nat.add_sub_cancel_left, hdrop, List.take_left]
        exact hgap
      · rw [Nat.add_sub_cancel_left, hat, List.take_left]
      · apply ih
        · rw [← List.drop_drop, hat, List.drop_left]
        · exact hleft
        · intro htrue
          exact absurd htrue Bool.false_ne_true
        · intro _
          exact hhead

theorem Tiled.chunks_of_nil (h : Tiled text chunks) (hnil : text = []) : chunks = [] := by
  cases h with
  | blank => rfl
  | piece chunk gap rest chunks hne =>
      exact absurd (List.append_eq_nil_iff.mp hnil).1 hne

theorem chunkText_long (hlimit : 0 < limit) (hlong : limit < text.length) :
    chunkText text limit = chunkRemaining resolveTextBreak limit text.length text := by
  have hne : text ≠ [] := List.ne_nil_of_length_pos (Nat.zero_lt_of_lt hlong)
  have hcut : ¬ (limit = 0 ∨ text.length ≤ limit) := by
    omega
  rw [chunkText, if_neg hne, if_neg hcut, chunkTextByBreakResolver, if_neg hne, if_neg hcut]

theorem chunkText_cut (hlimit : 0 < limit) (hlong : limit < text.length) :
    ∃ chunks, Tiled (trimStart (text.drop (breakIndex resolveTextBreak limit (text.take limit)))) chunks ∧
      chunkText text limit =
        pushChunk (trimEnd (text.take (breakIndex resolveTextBreak limit (text.take limit)))) chunks := by
  obtain ⟨fuel, hfuel⟩ := Nat.exists_eq_succ_of_ne_zero (Nat.ne_of_gt (Nat.zero_lt_of_lt hlong))
  refine ⟨chunkRemaining resolveTextBreak limit fuel
    (trimStart (text.drop (breakIndex resolveTextBreak limit (text.take limit)))), ?_, ?_⟩
  · apply tiled_chunkRemaining resolveTextBreak hlimit ?_ (noLeadingSpace_trimStart _)
    exact length_trimStart_drop (breakIndex_pos resolveTextBreak hlimit _) (Nat.le_of_eq hfuel)
  · rw [chunkText_long hlimit hlong, hfuel]
    exact chunkRemaining_cut resolveTextBreak fuel hlong

theorem slicesFrom_of_kept (hlimit : 0 < limit) (hkept : FirstChunkKept text limit) :
    SlicesFrom text 0 (chunkSlices text limit) := by
  rw [chunkSlices]
  by_cases hnil : text = []
  · rw [if_pos hnil, SlicesFrom, hnil]
    exact Spaces.nil
  · rw [if_neg hnil]
    by_cases hshort : text.length ≤ limit
    · rw [if_pos (Or.inr hshort)]
      refine ⟨Nat.le_refl 0, Nat.zero_le _, Nat.le_refl _, Spaces.nil, ?_, ?_⟩
      · exact List.take_length.symm
      · rw [SlicesFrom, List.drop_length]
        exact Spaces.nil
    · have hlong : limit < text.length := Nat.lt_of_not_le hshort
      rw [if_neg (by omega)]
      obtain ⟨chunks, htiled, hchunks⟩ := chunkText_cut hlimit hlong
      have hle : breakIndex resolveTextBreak limit (text.take limit) ≤ text.length :=
        Nat.le_trans (breakIndex_le _ _ _) (Nat.le_of_lt hlong)
      rw [hchunks]
      by_cases hblank : trimEnd (text.take (breakIndex resolveTextBreak limit (text.take limit))) = []
      · have hspaces : Spaces text := by
          rcases hkept with hfits | hspaces | hbreak
          · exact absurd hfits hshort
          · exact hspaces
          · rw [trimEnd_eq_nil, spaces_take_iff hle] at hblank
            omega
        have hrest : trimStart (text.drop (breakIndex resolveTextBreak limit (text.take limit))) = [] := by
          apply List.dropWhile_eq_nil_iff.mpr
          intro u hu
          exact hspaces u (List.mem_of_mem_drop hu)
        rw [hrest] at htiled
        rw [hblank, pushChunk_nil]
        rw [htiled.chunks_of_nil rfl]
        exact hspaces
      · rw [pushChunk_cons hblank]
        apply slicesFrom_alignChunks (tiled_cut hblank htiled)
          (show text.drop 0 = [] ++ text from rfl) Spaces.nil
        · intro _
          rfl
        · intro hfalse
          exact absurd hfalse.symm Bool.false_ne_true

/-- When the first cut leaves only white space, the first chunk is taken at the start of the text. -/
theorem chunkSlices_dropped (hlimit : 0 < limit) (hkept : ¬ FirstChunkKept text limit) :
    ∃ first tail slice slices u more, text = first :: tail ∧ isSpace first = true ∧
      chunkSlices text limit = slice :: slices ∧ slice.start = 0 ∧ 0 < slice.end_ ∧
        slice.text = u :: more ∧ isSpace u = false := by
  simp only [FirstChunkKept, not_or, Nat.not_le, Nat.not_lt] at hkept
  obtain ⟨hlong, hfull, hbreak⟩ := hkept
  have hle : breakIndex resolveTextBreak limit (text.take limit) ≤ text.length :=
    Nat.le_trans (breakIndex_le _ _ _) (Nat.le_of_lt hlong)
  have hpos := breakIndex_pos resolveTextBreak hlimit (text.take limit)
  have hspaces := (spaces_take_iff hle).mpr hbreak
  obtain ⟨chunks, htiled, hchunks⟩ := chunkText_cut hlimit hlong
  rw [trimEnd_eq_nil.mpr hspaces, pushChunk_nil] at hchunks
  rw [chunkSlices, if_neg (List.ne_nil_of_length_pos (Nat.zero_lt_of_lt hlong)), if_neg (by omega), hchunks]
  obtain ⟨first, tail, htext⟩ := List.exists_cons_of_length_pos (Nat.zero_lt_of_lt hlong)
  have hfirst : isSpace first = true := by
    apply hspaces
    obtain ⟨count, hcount⟩ := Nat.exists_eq_succ_of_ne_zero (Nat.ne_of_gt hpos)
    rw [hcount, htext]
    exact List.mem_cons_self
  generalize hrest : trimStart (text.drop (breakIndex resolveTextBreak limit (text.take limit))) = rest
    at htiled
  have hhead : NoLeadingSpace rest := by
    rw [← hrest]
    exact noLeadingSpace_trimStart _
  cases htiled with
  | blank _ hblank =>
      -- then the whole text is blank
      refine absurd ?_ hfull
      intro u hu
      rw [← List.take_append_drop (breakIndex resolveTextBreak limit (text.take limit)) text] at hu
      rcases List.mem_append.mp hu with hleft | hright
      · exact hspaces u hleft
      · obtain ⟨gap, hgap, hsplit⟩ := exists_trimStart
          (text.drop (breakIndex resolveTextBreak limit (text.take limit)))
        rw [hsplit, hrest] at hright
        exact (hgap.append hblank) u hright
  | piece chunk gap rest chunks hne =>
      obtain ⟨u, more, hcons⟩ := List.exists_cons_of_ne_nil hne
      have hu : isSpace u = false := hhead u (more ++ (gap ++ rest)) (by rw [hcons]; rfl)
      rw [alignChunks, if_neg hne]
      refine ⟨first, tail, _, _, u, more, htext, hfirst, rfl, rfl, ?_, hcons, hu⟩
      have hlength := List.length_pos_of_ne_nil hne
      simp only [if_true]
      omega

theorem not_slicesFrom_of_dropped (hlimit : 0 < limit) (hkept : ¬ FirstChunkKept text limit) :
    ¬ SlicesFrom text 0 (chunkSlices text limit) := by
  obtain ⟨first, tail, slice, slices, u, more, htext, hfirst, hslices, hstart, -, hcons, hu⟩ :=
    chunkSlices_dropped hlimit hkept
  rw [hslices, SlicesFrom]
  rintro ⟨-, -, -, -, htake, -⟩
  have hget := congrArg List.head? htake
  rw [hstart, List.drop_zero, hcons, List.head?_cons, htext, List.head?_take] at hget
  split at hget
  · exact absurd hget nofun
  · rw [List.head?_cons, Option.some.injEq] at hget
    rw [hget, hfirst] at hu
    exact absurd hu.symm Bool.false_ne_true

theorem carries_chunks (ir : MarkdownIR) (limit : ℕ) :
    List.Forall₂ (Carries ir) (chunkSlices ir.text limit) (chunkMarkdownIR ir limit) := by
  rw [chunkMarkdownIR]
  by_cases hnil : ir.text = []
  · rw [if_pos hnil, chunkSlices, if_pos hnil]
    exact List.Forall₂.nil
  · rw [if_neg hnil]
    by_cases hshort : limit = 0 ∨ ir.text.length ≤ limit
    · rw [if_pos hshort, chunkSlices, if_neg hnil, if_pos hshort]
      apply List.Forall₂.cons ?_ List.Forall₂.nil
      constructor
      · rfl
      · intro i _ style
        rw [Nat.zero_add]
      · intro i _
        rw [Nat.zero_add]
    · rw [if_neg hshort, List.forall₂_map_right_iff, List.forall₂_same]
      intro slice _
      constructor
      · rfl
      · intro i hi style
        exact hasStyle_sliceStyleSpans ir.styles hi
      · intro i hi
        exact linksAt_sliceLinkSpans ir.links hi

end Alignment

/-- The chunks of an IR are slices of it with their styles and links, and only white space is left out,
if and only if the first cut leaves more than white space or nothing is to be cut. -/
theorem markdown_chunks_aligned (ir : MarkdownIR) (limit : ℕ) (hlimit : 0 < limit) :
    (SlicesFrom ir.text 0 (chunkSlices ir.text limit) ∧
        List.Forall₂ (Carries ir) (chunkSlices ir.text limit) (chunkMarkdownIR ir limit)) ↔
      FirstChunkKept ir.text limit := by
  constructor
  · intro haligned
    by_contra hdropped
    exact not_slicesFrom_of_dropped hlimit hdropped haligned.1
  · intro hkept
    exact ⟨slicesFrom_of_kept hlimit hkept, carries_chunks ir limit⟩

section Samples

def twoWords : MarkdownIR :=
  { text := js "ab cd", styles := [{ start := 3, end_ := 5, style := .bold }], links := [] }

theorem markdown_chunks_aligned_twoWords :
    0 < 3 ∧ (chunkMarkdownIR twoWords 3).map MarkdownIR.text = [js "ab", js "cd"] ∧
      SlicesFrom twoWords.text 0 (chunkSlices twoWords.text 3) := by
  refine ⟨by decide, by decide +kernel, ((markdown_chunks_aligned twoWords 3 (by decide)).mpr ?_).1⟩
  exact Or.inr (Or.inr (by decide +kernel))

def indentedWord : MarkdownIR :=
  { text := js "  abcdef", styles := [{ start := 2, end_ := 8, style := .bold }], links := [] }

/-- The first two characters of the word are not bold in its first chunk. -/
theorem markdown_chunks_shifted :
    (chunkMarkdownIR indentedWord 4).map (fun chunk => (chunk.text, chunk.styles)) =
        [(js "abcd", [{ start := 2, end_ := 4, style := .bold }]),
          (js "ef", [{ start := 0, end_ := 2, style := .bold }])] ∧
      ¬ SlicesFrom indentedWord.text 0 (chunkSlices indentedWord.text 4) := by
  refine ⟨by decide +kernel, ?_⟩
  have hslices : chunkSlices indentedWord.text 4 =
      [{ text := js "abcd", start := 0, end_ := 4 }, { text := js "ef", start := 4, end_ := 6 }] := by
    decide +kernel
  rw [hslices]
  intro haligned
  exact absurd haligned.2.2.2.2.1 (by decide +kernel)

end Samples

end GreenchClaw.Markdown
