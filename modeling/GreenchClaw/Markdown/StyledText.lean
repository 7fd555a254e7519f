import GreenchClaw.Markdown.ChunkedIR
import Mathlib.Data.Rat.Floor

/-!
# Render-aware chunking

`renderMarkdownIRChunksWithinLimit` of `src/markdown/render-aware-chunking.ts`: chunks that render beyond
the limit are split again, and chunks of white space are merged with their neighbours.
-/

namespace GreenchClaw.Markdown

open GreenchClaw.Js

structure RenderResolver (R : Type) where
  measureRendered : R → ℕ
  renderChunk : MarkdownIR → R

structure RenderedMarkdownChunk (R : Type) where
  rendered : R
  source : MarkdownIR

def sliceMarkdownIR (ir : MarkdownIR) (start end_ : ℕ) : MarkdownIR :=
  { text := (ir.text.drop start).take (end_ - start)
    styles := sliceStyleSpans ir.styles start end_
    links := sliceLinkSpans ir.links start end_ }

/-! ## Splits -/

/-- The variables of the loop of `findMarkdownIRPreservedSplitIndex`. -/
structure SplitScan where
  lastOutsideParenNewlineBreak : ℤ := -1
  lastOutsideParenWhitespaceBreak : ℤ := -1
  lastOutsideParenWhitespaceRunStart : ℤ := -1
  lastAnyNewlineBreak : ℤ := -1
  lastAnyWhitespaceBreak : ℤ := -1
  lastAnyWhitespaceRunStart : ℤ := -1
  parenDepth : ℕ := 0
  sawNonWhitespace : Bool := false

def SplitScan.read (scan : SplitScan) (index : ℕ) (previous : Option CodeUnit) (char : CodeUnit) :
    SplitScan :=
  if char = unit '(' then { scan with sawNonWhitespace := true, parenDepth := scan.parenDepth + 1 }
  else if char = unit ')' ∧ 0 < scan.parenDepth then
    { scan with sawNonWhitespace := true, parenDepth := scan.parenDepth - 1 }
  else if isSpace char = false then { scan with sawNonWhitespace := true }
  else if scan.sawNonWhitespace = false then scan
  else if char = unit '\n' then
    { scan with
      lastAnyNewlineBreak := index + 1
      lastOutsideParenNewlineBreak :=
        if scan.parenDepth = 0 then index + 1 else scan.lastOutsideParenNewlineBreak }
  else
    let whitespaceRunStart :=
      if previous.any isSpace = true then scan.lastAnyWhitespaceRunStart else (index : ℤ)
    { scan with
      lastAnyWhitespaceBreak := index + 1
      lastAnyWhitespaceRunStart := whitespaceRunStart
      lastOutsideParenWhitespaceBreak :=
        if scan.parenDepth = 0 then index + 1 else scan.lastOutsideParenWhitespaceBreak
      lastOutsideParenWhitespaceRunStart :=
        if scan.parenDepth = 0 then whitespaceRunStart else scan.lastOutsideParenWhitespaceRunStart }

def scanSplit : ℕ → Option CodeUnit → JsString → SplitScan → SplitScan
  | _, _, [], scan => scan
  | index, previous, char :: rest, scan =>
      scanSplit (index + 1) (some char) rest (scan.read index previous char)

def resolveWhitespaceBreak (text : JsString) (start : ℕ) (breakIndex runStart : ℤ) : ℤ :=
  if breakIndex ≤ start then breakIndex
  else if runStart ≤ start then breakIndex
  else if (text[breakIndex.toNat]?).any isSpace = true then runStart
  else breakIndex

def findMarkdownIRPreservedSplitIndex (text : JsString) (start limit : ℕ) : ℕ :=
  let maxEnd := min text.length (start + limit)
  if text.length ≤ maxEnd then text.length
  else
    let scan := scanSplit start none ((text.drop start).take (maxEnd - start)) {}
    if start < scan.lastOutsideParenNewlineBreak then scan.lastOutsideParenNewlineBreak.toNat
    else if start < scan.lastOutsideParenWhitespaceBreak then
      (resolveWhitespaceBreak text start scan.lastOutsideParenWhitespaceBreak
        scan.lastOutsideParenWhitespaceRunStart).toNat
    else if start < scan.lastAnyNewlineBreak then scan.lastAnyNewlineBreak.toNat
    else if start < scan.lastAnyWhitespaceBreak then
      (resolveWhitespaceBreak text start scan.lastAnyWhitespaceBreak scan.lastAnyWhitespaceRunStart).toNat
    else maxEnd

/-- The loop of `splitMarkdownIRPreserveWhitespace`; `none` when the turns are not enough. -/
def splitFrom (ir : MarkdownIR) (limit : ℕ) : ℕ → ℕ → Option (List MarkdownIR)
  | 0, _ => none
  | fuel + 1, cursor =>
      if cursor < ir.text.length then
        let end_ := findMarkdownIRPreservedSplitIndex ir.text cursor limit
        (splitFrom ir limit fuel end_).map (sliceMarkdownIR ir cursor end_ :: ·)
      else some []

def splitMarkdownIRPreserveWhitespace (ir : MarkdownIR) (limit : ℕ) : Option (List MarkdownIR) :=
  if ir.text = [] then some []
  else if ir.text.length ≤ max 1 limit then some [ir]
  else splitFrom ir (max 1 limit) (ir.text.length + 1) 0

/-- The loop that tries candidates from a length down to 1; 0 when none of them will do. -/
def largestFitting (isFitting : ℕ → Bool) : ℕ → ℕ
  | 0 => 0
  | candidate + 1 => if isFitting (candidate + 1) = true then candidate + 1 else largestFitting isFitting candidate

section Resolver

variable {R : Type} (options : RenderResolver R) (renderedLimit : ℕ)

def fits (ir : MarkdownIR) : Bool := options.measureRendered (options.renderChunk ir) ≤ renderedLimit

def findLargestChunkTextLengthWithinRenderedLimit (chunk : MarkdownIR) : ℕ :=
  if chunk.text.length ≤ 1 then chunk.text.length
  else
    largestFitting (fun candidateLength => fits options renderedLimit (sliceMarkdownIR chunk 0 candidateLength))
      (chunk.text.length - 1)

def splitMarkdownIRByRenderedLimit (chunk : MarkdownIR) : Option (List MarkdownIR) :=
  if chunk.text.length ≤ 1 then some [chunk]
  else
    let splitLimit := findLargestChunkTextLengthWithinRenderedLimit options renderedLimit chunk
    if splitLimit = 0 then some [chunk]
    else
      (splitMarkdownIRPreserveWhitespace chunk splitLimit).map fun split =>
        if split.head?.any (fits options renderedLimit) = true then split
        else [sliceMarkdownIR chunk 0 splitLimit, sliceMarkdownIR chunk splitLimit chunk.text.length]

def finalizeChunks : ℕ → List MarkdownIR → Option (List MarkdownIR)
  | 0, _ => none
  | _ + 1, [] => some []
  | fuel + 1, chunk :: pending =>
      if fits options renderedLimit chunk = true ∨ chunk.text.length ≤ 1 then
        (finalizeChunks fuel pending).map (chunk :: ·)
      else
        match splitMarkdownIRByRenderedLimit options renderedLimit chunk with
        | none => none
        | some split =>
            if split.length ≤ 1 then (finalizeChunks fuel pending).map (chunk :: ·)
            else finalizeChunks fuel (split ++ pending)

end Resolver

/-! ## Merges -/

def mergesAdjacent (last span : MarkdownStyleSpan) : Bool := last.style = span.style ∧ span.start ≤ last.end_

def mergeAdjacentStyleSpans (styles : List MarkdownStyleSpan) : List MarkdownStyleSpan :=
  mergeSpans mergesAdjacent styles

/-- The loop of `mergeAdjacentLinkSpans`; `last` is the last link so far. -/
def mergeLinksFrom (last : MarkdownLinkSpan) : List MarkdownLinkSpan → List MarkdownLinkSpan
  | [] => [last]
  | link :: rest =>
      if last.href = link.href ∧ link.start ≤ last.end_ then
        mergeLinksFrom { last with end_ := max last.end_ link.end_ } rest
      else last :: mergeLinksFrom link rest

def mergeAdjacentLinkSpans : List MarkdownLinkSpan → List MarkdownLinkSpan
  | [] => []
  | first :: rest => mergeLinksFrom first rest

def MarkdownStyleSpan.shift (span : MarkdownStyleSpan) (offset : ℕ) : MarkdownStyleSpan :=
  { span with start := span.start + offset, end_ := span.end_ + offset }

def MarkdownLinkSpan.shift (link : MarkdownLinkSpan) (offset : ℕ) : MarkdownLinkSpan :=
  { link with start := link.start + offset, end_ := link.end_ + offset }

def mergeMarkdownIRChunks (left right : MarkdownIR) : MarkdownIR :=
  let offset := left.text.length
  { text := left.text ++ right.text
    styles := mergeAdjacentStyleSpans (left.styles ++ right.styles.map fun span => span.shift offset)
    links := mergeAdjacentLinkSpans (left.links ++ right.links.map fun link => link.shift offset) }

section Coalesce

variable {R : Type} (options : RenderResolver R) (renderedLimit : ℕ)

def shareWhitespace (prev chunk next : MarkdownIR) : Option (MarkdownIR × MarkdownIR) :=
  let chunkLength := chunk.text.length
  let prefixLength := largestFitting
    (fun prefixLength =>
      fits options renderedLimit (mergeMarkdownIRChunks prev (sliceMarkdownIR chunk 0 prefixLength)) &&
      fits options renderedLimit
        (mergeMarkdownIRChunks (sliceMarkdownIR chunk prefixLength chunkLength) next))
    (chunkLength - 1)
  if prefixLength = 0 then none
  else
    some (mergeMarkdownIRChunks prev (sliceMarkdownIR chunk 0 prefixLength),
      mergeMarkdownIRChunks (sliceMarkdownIR chunk prefixLength chunkLength) next)

def coalesceStep (coalesced : List MarkdownIR) (chunk : MarkdownIR) (next : Option MarkdownIR) :
    List MarkdownIR × Option MarkdownIR :=
  if 0 < (trim chunk.text).length then (coalesced ++ [chunk], next)
  else
    let mergedPrev := (coalesced.getLast?.map fun prev => mergeMarkdownIRChunks prev chunk).filter
      (fits options renderedLimit)
    let mergedNext := (next.map fun next => mergeMarkdownIRChunks chunk next).filter (fits options renderedLimit)
    match mergedPrev, mergedNext with
    | some merged, _ => (coalesced.dropLast ++ [merged], next)
    | none, some merged => (coalesced, some merged)
    | none, none =>
        match coalesced.getLast?, next with
        | some prev, some following =>
            match shareWhitespace options renderedLimit prev chunk following with
            | some (mergedPrev, mergedNext) => (coalesced.dropLast ++ [mergedPrev], some mergedNext)
            | none => (coalesced, next)
        | _, _ => (coalesced, next)

def coalesceFrom (coalesced : List MarkdownIR) (chunk : MarkdownIR) : List MarkdownIR → List MarkdownIR
  | [] => (coalesceStep options renderedLimit coalesced chunk none).1
  | following :: rest =>
      let turn := coalesceStep options renderedLimit coalesced chunk (some following)
      coalesceFrom turn.1 (turn.2.getD following) rest

def coalesceWhitespaceOnlyMarkdownIRChunks : List MarkdownIR → List MarkdownIR
  | [] => []
  | chunk :: chunks => coalesceFrom options renderedLimit [] chunk chunks

end Coalesce

/-! ## The function -/

def normalizedLimit (limit : ℚ) : ℕ := (max 1 ⌊limit⌋).toNat

def renderMarkdownIRChunksWithinLimit {R : Type} (fuel : ℕ) (options : RenderResolver R) (ir : MarkdownIR)
    (limit : ℚ) : Option (List (RenderedMarkdownChunk R)) :=
  if ir.text = [] then some []
  else
    (finalizeChunks options (normalizedLimit limit) fuel (chunkMarkdownIR ir (normalizedLimit limit))).map
      fun finalized =>
        (coalesceWhitespaceOnlyMarkdownIRChunks options (normalizedLimit limit) finalized).map fun source =>
          { source, rendered := options.renderChunk source }

/-!
## Styled text

The characters of an IR that are not white space, each with its styles, and what slices, splits and
merges do to them.
-/

/-! ## Characters and places -/

def ink (text : JsString) : JsString := text.filter fun u => !isSpace u

def inkPlaces : ℕ → JsString → List ℕ
  | _, [] => []
  | i, u :: rest => if isSpace u = true then inkPlaces (i + 1) rest else i :: inkPlaces (i + 1) rest

def styleSet (spans : List MarkdownStyleSpan) (i : ℕ) (style : MarkdownStyle) : Bool :=
  spans.any fun span => span.style = style ∧ span.start ≤ i ∧ i < span.end_

/-- Each character that is not white space, with what belongs to its place. -/
def styledBy (styles : ℕ → MarkdownStyle → Bool) : ℕ → JsString → List (CodeUnit × (MarkdownStyle → Bool))
  | _, [] => []
  | i, u :: rest =>
      if isSpace u = true then styledBy styles (i + 1) rest else (u, styles i) :: styledBy styles (i + 1) rest

def styledText (ir : MarkdownIR) : List (CodeUnit × (MarkdownStyle → Bool)) :=
  styledBy (styleSet ir.styles) 0 ir.text

section Styled

variable {styles other : ℕ → MarkdownStyle → Bool} {i j : ℕ} {text : JsString}

theorem styleSet_iff (spans : List MarkdownStyleSpan) (i : ℕ) (style : MarkdownStyle) :
    styleSet spans i style = true ↔ HasStyle spans style i := by
  unfold styleSet HasStyle
  rw [List.any_eq_true]
  simp only [decide_eq_true_eq]

theorem styleSet_congr {spans others : List MarkdownStyleSpan}
    (h : ∀ style, HasStyle spans style i ↔ HasStyle others style j) :
    styleSet spans i = styleSet others j := by
  funext style
  rw [Bool.eq_iff_iff, styleSet_iff, styleSet_iff]
  exact h style

theorem styledBy_append (styles : ℕ → MarkdownStyle → Bool) (i : ℕ) (text rest : JsString) :
    styledBy styles i (text ++ rest) = styledBy styles i text ++ styledBy styles (i + text.length) rest := by
  induction text generalizing i with
  | nil => rfl
  | cons u text ih =>
      have hplace : i + 1 + text.length = i + (u :: text).length := by
        rw [List.length_cons]
        omega
      rw [List.cons_append, styledBy, styledBy, ih, hplace]
      split
      · rfl
      · rfl

theorem styledBy_congr (h : ∀ k < text.length, styles (i + k) = other (j + k)) :
    styledBy styles i text = styledBy other j text := by
  induction text generalizing i j with
  | nil => rfl
  | cons u text ih =>
      have hrest : styledBy styles (i + 1) text = styledBy other (j + 1) text := by
        apply ih
        intro k hk
        have hlater := h (k + 1) (Nat.succ_lt_succ hk)
        rw [Nat.add_assoc, Nat.add_assoc, Nat.add_comm 1 k]
        exact hlater
      rw [styledBy, styledBy, hrest, show styles i = other j from h 0 (Nat.succ_pos _)]

theorem styledBy_spaces (styles : ℕ → MarkdownStyle → Bool) (i : ℕ) (h : Spaces text) :
    styledBy styles i text = [] := by
  induction text generalizing i with
  | nil => rfl
  | cons u text ih =>
      rw [styledBy, if_pos (h u List.mem_cons_self)]
      exact ih (i + 1) fun v hv => h v (List.mem_cons_of_mem _ hv)

theorem length_inkPlaces (i : ℕ) (text : JsString) : (inkPlaces i text).length = (ink text).length := by
  induction text generalizing i with
  | nil => rfl
  | cons u text ih =>
      rw [inkPlaces, ink, List.filter_cons]
      by_cases hspace : isSpace u = true
      · rw [if_pos hspace, hspace]
        exact ih (i + 1)
      · rw [if_neg hspace, (Bool.not_eq_true _).mp hspace]
        exact congrArg Nat.succ (ih (i + 1))

theorem inkPlaces_bound (i : ℕ) (text : JsString) : ∀ place ∈ inkPlaces i text, place < i + text.length := by
  induction text generalizing i with
  | nil => exact nofun
  | cons u text ih =>
      intro place hplace
      rw [List.length_cons]
      rw [inkPlaces] at hplace
      split at hplace
      · have hbound := ih (i + 1) place hplace
        omega
      · rcases List.mem_cons.mp hplace with hfirst | hrest
        · omega
        · have hbound := ih (i + 1) place hrest
          omega

theorem styledBy_eq_zip (styles : ℕ → MarkdownStyle → Bool) (i : ℕ) (text : JsString) :
    styledBy styles i text = (ink text).zip ((inkPlaces i text).map styles) := by
  induction text generalizing i with
  | nil => rfl
  | cons u text ih =>
      rw [styledBy, inkPlaces, ink, List.filter_cons]
      by_cases hspace : isSpace u = true
      · rw [if_pos hspace, if_pos hspace, hspace]
        exact ih (i + 1)
      · rw [if_neg hspace, if_neg hspace, (Bool.not_eq_true _).mp hspace, ih (i + 1)]
        rfl

end Styled

/-! ## Slices -/

structure Neat (ir : MarkdownIR) : Prop where
  ordered : StartsInOrder ir.styles
  inside : ∀ span ∈ ir.styles, span.start ≤ span.end_ ∧ span.end_ ≤ ir.text.length

section Slices

variable {merges : MarkdownStyleSpan → MarkdownStyleSpan → Bool} {spans : List MarkdownStyleSpan}

theorem mergeFrom_neat (prev : MarkdownStyleSpan) (hsorted : StartsInOrder (prev :: spans)) {bound : ℕ}
    (hbound : ∀ span ∈ prev :: spans, span.start ≤ span.end_ ∧ span.end_ ≤ bound) :
    StartsInOrder (mergeFrom merges prev spans) ∧
      ∀ span ∈ mergeFrom merges prev spans,
        prev.start ≤ span.start ∧ span.start ≤ span.end_ ∧ span.end_ ≤ bound := by
  induction spans generalizing prev with
  | nil =>
      refine ⟨List.pairwise_singleton _ _, ?_⟩
      intro span hspan
      rw [List.mem_singleton.mp hspan]
      exact ⟨Nat.le_refl _, hbound prev List.mem_cons_self⟩
  | cons span rest ih =>
      obtain ⟨hprev, hrest⟩ := List.pairwise_cons.mp hsorted
      have hprevBound := hbound prev List.mem_cons_self
      have hspanBound := hbound span (List.mem_cons_of_mem _ List.mem_cons_self)
      have hrestBound : ∀ other ∈ rest, other.start ≤ other.end_ ∧ other.end_ ≤ bound := fun other hother =>
        hbound other (List.mem_cons_of_mem _ (List.mem_cons_of_mem _ hother))
      rw [mergeFrom]
      split
      · apply ih { prev with end_ := max prev.end_ span.end_ }
        · exact List.pairwise_cons.mpr ⟨fun other hother => hprev other (List.mem_cons_of_mem _ hother),
            (List.pairwise_cons.mp hrest).2⟩
        · intro other hother
          rcases List.mem_cons.mp hother with hfirst | hlater
          · rw [hfirst]
            exact ⟨Nat.le_trans hprevBound.1 (Nat.le_max_left _ _),
              Nat.max_le.mpr ⟨hprevBound.2, hspanBound.2⟩⟩
          · exact hrestBound other hlater
      · obtain ⟨horder, hall⟩ := ih span hrest fun other hother => hbound other (List.mem_cons_of_mem _ hother)
        have hstart := hprev span List.mem_cons_self
        constructor
        · apply List.pairwise_cons.mpr
          exact ⟨fun other hother => Nat.le_trans hstart (hall other hother).1, horder⟩
        · intro other hother
          rcases List.mem_cons.mp hother with hfirst | hlater
          · rw [hfirst]
            exact ⟨Nat.le_refl _, hprevBound⟩
          · exact ⟨Nat.le_trans hstart (hall other hlater).1, (hall other hlater).2⟩

theorem mergeSpans_neat (hsorted : StartsInOrder spans) {bound : ℕ}
    (hbound : ∀ span ∈ spans, span.start ≤ span.end_ ∧ span.end_ ≤ bound) :
    StartsInOrder (mergeSpans merges spans) ∧
      ∀ span ∈ mergeSpans merges spans, span.start ≤ span.end_ ∧ span.end_ ≤ bound := by
  cases spans with
  | nil => exact ⟨List.Pairwise.nil, nofun⟩
  | cons first rest =>
      obtain ⟨horder, hall⟩ := @mergeFrom_neat merges rest first hsorted bound hbound
      exact ⟨horder, fun span hspan => (hall span hspan).2⟩

theorem sliceStyleSpans_neat (spans : List MarkdownStyleSpan) (start end_ : ℕ) :
    StartsInOrder (sliceStyleSpans spans start end_) ∧
      ∀ span ∈ sliceStyleSpans spans start end_,
        span.start ≤ span.end_ ∧ span.end_ ≤ end_ - start := by
  apply mergeSpans_neat (startsInOrder_sorted _)
  intro span hspan
  rw [List.mem_insertionSort] at hspan
  obtain ⟨source, -, hmap⟩ := List.mem_filterMap.mp hspan
  obtain ⟨bounds, hbounds, hsliced⟩ := Option.map_eq_some_iff.mp hmap
  unfold resolveSliceBounds at hbounds
  simp only at hbounds
  split at hbounds
  · exact absurd hbounds nofun
  · rw [← hsliced, ← Option.some.inj hbounds]
    simp only
    omega

variable {ir : MarkdownIR} {start end_ : ℕ}

theorem length_sliceMarkdownIR (hend : end_ ≤ ir.text.length) :
    (sliceMarkdownIR ir start end_).text.length = end_ - start := by
  show ((ir.text.drop start).take (end_ - start)).length = _
  rw [List.length_take, List.length_drop]
  omega

theorem neat_sliceMarkdownIR (hend : end_ ≤ ir.text.length) : Neat (sliceMarkdownIR ir start end_) := by
  obtain ⟨horder, hbound⟩ := sliceStyleSpans_neat ir.styles start end_
  refine ⟨horder, ?_⟩
  rw [length_sliceMarkdownIR hend]
  exact hbound

theorem styledText_slice (hend : end_ ≤ ir.text.length) :
    styledText (sliceMarkdownIR ir start end_) =
      styledBy (styleSet ir.styles) start ((ir.text.drop start).take (end_ - start)) := by
  apply styledBy_congr
  intro k hk
  have hinside : k < end_ - start := by
    rw [← length_sliceMarkdownIR hend]
    exact hk
  apply styleSet_congr
  intro style
  rw [Nat.zero_add]
  exact hasStyle_sliceStyleSpans ir.styles hinside

end Slices

/-! ## Merges -/

section Merges

variable {left right : MarkdownIR}

theorem mergesTouching_mergesAdjacent : MergesTouching mergesAdjacent := fun _ _ hmerge =>
  of_decide_eq_true hmerge

theorem neat_joined (hleft : Neat left) (hright : Neat right) :
    StartsInOrder (left.styles ++ right.styles.map fun span => span.shift left.text.length) ∧
      ∀ span ∈ left.styles ++ right.styles.map fun span => span.shift left.text.length,
        span.start ≤ span.end_ ∧ span.end_ ≤ (left.text ++ right.text).length := by
  rw [List.length_append]
  constructor
  · apply List.pairwise_append.mpr
    refine ⟨hleft.ordered, ?_, ?_⟩
    · apply List.pairwise_map.mpr
      apply hright.ordered.imp
      intro a b hab
      exact Nat.add_le_add_right hab _
    · intro a ha b hb
      obtain ⟨span, -, hshift⟩ := List.mem_map.mp hb
      obtain ⟨hvalid, hinside⟩ := hleft.inside a ha
      rw [← hshift]
      exact Nat.le_trans (Nat.le_trans hvalid hinside) (Nat.le_add_left _ _)
  · intro span hspan
    rcases List.mem_append.mp hspan with hold | hnew
    · obtain ⟨hvalid, hinside⟩ := hleft.inside span hold
      exact ⟨hvalid, by omega⟩
    · obtain ⟨source, hsource, hshift⟩ := List.mem_map.mp hnew
      obtain ⟨hvalid, hinside⟩ := hright.inside source hsource
      rw [← hshift]
      unfold MarkdownStyleSpan.shift
      simp only
      omega

theorem neat_mergeMarkdownIRChunks (hleft : Neat left) (hright : Neat right) :
    Neat (mergeMarkdownIRChunks left right) := by
  obtain ⟨hordered, hinside⟩ := neat_joined hleft hright
  obtain ⟨hstarts, hbounds⟩ := @mergeSpans_neat mergesAdjacent _ hordered _ hinside
  exact ⟨hstarts, hbounds⟩

theorem hasStyle_merge (hleft : Neat left) (hright : Neat right) (i : ℕ) (style : MarkdownStyle) :
    HasStyle (mergeMarkdownIRChunks left right).styles style i ↔
      if i < left.text.length then HasStyle left.styles style i
      else HasStyle right.styles style (i - left.text.length) := by
  show HasStyle (mergeAdjacentStyleSpans _) style i ↔ _
  rw [mergeAdjacentStyleSpans,
    hasStyle_mergeSpans mergesTouching_mergesAdjacent (neat_joined hleft hright).1]
  constructor
  · rintro ⟨span, hspan, hstyle, hfrom, hupto⟩
    rcases List.mem_append.mp hspan with hold | hnew
    · rw [if_pos (Nat.lt_of_lt_of_le hupto (hleft.inside span hold).2)]
      exact ⟨span, hold, hstyle, hfrom, hupto⟩
    · obtain ⟨source, hsource, hshift⟩ := List.mem_map.mp hnew
      rw [← hshift] at hstyle hfrom hupto
      simp only [MarkdownStyleSpan.shift] at hstyle hfrom hupto
      rw [if_neg (by omega)]
      exact ⟨source, hsource, hstyle, by omega, by omega⟩
  · split
    · rintro ⟨span, hspan, hcover⟩
      exact ⟨span, List.mem_append_left _ hspan, hcover⟩
    · rintro ⟨span, hspan, hstyle, hfrom, hupto⟩
      refine ⟨span.shift left.text.length, List.mem_append_right _ (List.mem_map.mpr ⟨span, hspan, rfl⟩),
        hstyle, ?_, ?_⟩
      · show span.start + left.text.length ≤ i
        omega
      · show i < span.end_ + left.text.length
        omega

theorem styledText_merge (hleft : Neat left) (hright : Neat right) :
    styledText (mergeMarkdownIRChunks left right) = styledText left ++ styledText right := by
  rw [styledText]
  show styledBy _ 0 (left.text ++ right.text) = _
  rw [styledBy_append]
  congr 1
  · apply styledBy_congr
    intro k hk
    apply styleSet_congr
    intro style
    rw [hasStyle_merge hleft hright, if_pos (by omega)]
  · apply styledBy_congr
    intro k _
    apply styleSet_congr
    intro style
    rw [hasStyle_merge hleft hright, if_neg (by omega), Nat.zero_add, Nat.zero_add, Nat.add_sub_cancel_left]

end Merges

end GreenchClaw.Markdown
