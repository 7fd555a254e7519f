import GreenchClaw.Markdown.TextChunks
import Mathlib.Data.Int.Order.Basic
import Mathlib.Order.Lattice

/-!
# Code fences

`parseFenceSpans`, `findFenceSpanAt` and `isSafeFenceBreak` of `src/markdown/fences.ts`.
-/

namespace GreenchClaw.Markdown

open GreenchClaw.Js

/-! ## The source -/

structure FenceSpan where
  start : ℕ
  end_ : ℕ
  openLine : JsString
  marker : JsString
  indent : JsString
  deriving DecidableEq

structure FenceMatch where
  indent : JsString
  marker : JsString
  deriving DecidableEq

def matchMarker (indent rest : JsString) : Option FenceMatch :=
  match rest with
  | [] => none
  | markerChar :: _ =>
      let marker := rest.takeWhile fun u => u == markerChar
      if (markerChar = unit (Char.ofNat 96) ∨ markerChar = unit '~') ∧ 3 ≤ marker.length ∧
          (rest.drop marker.length).all (fun u => !isLineTerminator u) = true then
        some { indent, marker }
      else none

def matchFence (line : JsString) : Option FenceMatch :=
  let indent := line.takeWhile fun u => u == unit ' '
  if indent.length ≤ 3 then matchMarker indent (line.drop indent.length) else none

structure OpenFence where
  start : ℕ
  openLine : JsString
  marker : JsString
  indent : JsString
  deriving DecidableEq

def FenceMatch.opens (found : FenceMatch) (offset : ℕ) (line : JsString) : OpenFence :=
  { start := offset, openLine := line, marker := found.marker, indent := found.indent }

def OpenFence.span (fence : OpenFence) (end_ : ℕ) : FenceSpan :=
  { start := fence.start, end_, openLine := fence.openLine, marker := fence.marker, indent := fence.indent }

def OpenFence.closedBy (fence : OpenFence) (marker : JsString) : Bool :=
  fence.marker.head? == marker.head? && fence.marker.length ≤ marker.length

def fenceLoop (bufferLength : ℕ) : Option OpenFence → ℕ → List JsString → List FenceSpan
  | none, _, [] => []
  | some fence, _, [] => [fence.span bufferLength]
  | none, offset, line :: lines =>
      match matchFence line with
      | some found =>
          fenceLoop bufferLength (some (found.opens offset line)) (offset + line.length + 1) lines
      | none => fenceLoop bufferLength none (offset + line.length + 1) lines
  | some fence, offset, line :: lines =>
      match matchFence line with
      | some found =>
          if fence.closedBy found.marker = true then
            fence.span (offset + line.length) :: fenceLoop bufferLength none (offset + line.length + 1) lines
          else fenceLoop bufferLength (some fence) (offset + line.length + 1) lines
      | none => fenceLoop bufferLength (some fence) (offset + line.length + 1) lines

def parseFenceSpans (buffer : JsString) : List FenceSpan :=
  fenceLoop buffer.length none 0 (buffer.splitOn (unit '\n'))

/-- The binary search of `findFenceSpanAt`; each turn leaves fewer spans between `low` and `high`. -/
def searchFence (spans : List FenceSpan) (index : ℕ) : ℕ → ℤ → ℤ → Option FenceSpan
  | 0, _, _ => none
  | fuel + 1, low, high =>
      if low ≤ high then
        let mid := (low + high) / 2
        match spans[mid.toNat]? with
        | none => none
        | some span =>
            if index ≤ span.start then searchFence spans index fuel low (mid - 1)
            else if span.end_ ≤ index then searchFence spans index fuel (mid + 1) high
            else some span
      else none

def findFenceSpanAt (spans : List FenceSpan) (index : ℕ) : Option FenceSpan :=
  searchFence spans index spans.length 0 (spans.length - 1)

def isSafeFenceBreak (spans : List FenceSpan) (index : ℕ) : Bool := (findFenceSpanAt spans index).isNone

/-! ## Spans -/

section Spans

variable {spans : List FenceSpan} {index : ℕ} {span : FenceSpan}

theorem searchFence_sound {fuel : ℕ} {low high : ℤ} (h : searchFence spans index fuel low high = some span) :
    span ∈ spans ∧ span.start < index ∧ index < span.end_ := by
  induction fuel generalizing low high with
  | zero => exact absurd h nofun
  | succ fuel ih =>
      rw [searchFence] at h
      split at h
      · simp only at h
        split at h
        · exact absurd h nofun
        · rename_i found hfound
          split at h
          · exact ih h
          · split at h
            · exact ih h
            · rename_i hafter hbefore
              rw [← Option.some.inj h]
              exact ⟨List.mem_of_getElem? hfound, Nat.lt_of_not_le hafter, Nat.lt_of_not_le hbefore⟩
      · exact absurd h nofun

theorem findFenceSpanAt_sound (h : findFenceSpanAt spans index = some span) :
    span ∈ spans ∧ span.start < index ∧ index < span.end_ :=
  searchFence_sound h

def SpansInOrder (spans : List FenceSpan) : Prop := spans.Pairwise fun a b => a.end_ < b.start

theorem searchFence_complete (hspans : SpansInOrder spans) (hvalid : ∀ span ∈ spans, span.start ≤ span.end_)
    {i : ℕ} (hi : spans[i]? = some span) (hstart : span.start < index) (hend : index < span.end_) {fuel : ℕ}
    {low high : ℤ} (hlow : 0 ≤ low) (hli : low ≤ i) (hih : i ≤ high) (hhigh : high < spans.length)
    (hfuel : high - low < fuel) : searchFence spans index fuel low high = some span := by
  induction fuel generalizing low high with
  | zero => omega
  | succ fuel ih =>
      obtain ⟨hilt, hget⟩ := List.getElem?_eq_some_iff.mp hi
      have hmidlt : ((low + high) / 2).toNat < spans.length := by
        omega
      rw [searchFence, if_pos (by omega)]
      simp only
      rw [List.getElem?_eq_getElem hmidlt]
      simp only
      have horder := fun (j k : ℕ) (hj : j < spans.length) (hk : k < spans.length) (hjk : j < k) =>
        List.pairwise_iff_getElem.mp hspans j k hj hk hjk
      have hmidvalid := hvalid _ (List.getElem_mem hmidlt)
      rcases Nat.lt_trichotomy ((low + high) / 2).toNat i with hleft | hsame | hright
      · -- The span in the middle ends before the index.
        have hbefore := horder _ i hmidlt hilt hleft
        rw [hget] at hbefore
        rw [if_neg (by omega), if_pos (by omega)]
        apply ih <;> omega
      · have hmid : spans[((low + high) / 2).toNat] = span := by
          rw [← hget]
          congr 1
        rw [hmid, if_neg (by omega), if_neg (by omega)]
      · have hafter := horder i _ hilt hmidlt hright
        rw [hget] at hafter
        rw [if_pos (by omega)]
        apply ih <;> omega

theorem findFenceSpanAt_complete (hspans : SpansInOrder spans)
    (hvalid : ∀ span ∈ spans, span.start ≤ span.end_) (hmem : span ∈ spans) (hstart : span.start < index)
    (hend : index < span.end_) : findFenceSpanAt spans index = some span := by
  obtain ⟨i, hi⟩ := List.mem_iff_getElem?.mp hmem
  obtain ⟨hilt, -⟩ := List.getElem?_eq_some_iff.mp hi
  apply searchFence_complete hspans hvalid hi hstart hend <;> omega

theorem fenceLoop_spans {bufferLength : ℕ} {open? : Option OpenFence} {offset : ℕ} {lines : List JsString}
    (hlines : (lines.map List.length).sum + lines.length + offset ≤ bufferLength + 1)
    (hopen : ∀ fence, open? = some fence → fence.start < offset ∧ offset ≤ bufferLength + 1) :
    SpansInOrder (fenceLoop bufferLength open? offset lines) ∧
      ∀ span ∈ fenceLoop bufferLength open? offset lines, span.start ≤ span.end_ ∧
        ((∀ fence, open? = some fence → fence.start ≤ span.start) ∧ (open? = none → offset ≤ span.start)) := by
  induction lines generalizing open? offset with
  | nil =>
      cases open? with
      | none => exact ⟨List.Pairwise.nil, nofun⟩
      | some fence =>
          obtain ⟨hbefore, hinside⟩ := hopen fence rfl
          refine ⟨List.pairwise_singleton _ _, ?_⟩
          intro span hspan
          rw [List.mem_singleton.mp hspan]
          refine ⟨?_, ?_, nofun⟩
          · show fence.start ≤ bufferLength
            omega
          · intro other hother
            rw [← Option.some.inj hother]
            exact Nat.le_refl _
  | cons line lines ih =>
      rw [List.map_cons, List.sum_cons, List.length_cons] at hlines
      have hnext : (lines.map List.length).sum + lines.length + (offset + line.length + 1) ≤
          bufferLength + 1 := by
        omega
      cases open? with
      | none =>
          rw [fenceLoop]
          split
          · rename_i found hfound
            obtain ⟨horder, hall⟩ := @ih (some (found.opens offset line)) _ hnext (by
              intro fence hfence
              rw [← Option.some.inj hfence]
              show offset < _ ∧ _
              omega)
            refine ⟨horder, ?_⟩
            intro span hspan
            refine ⟨(hall span hspan).1, nofun, ?_⟩
            intro _
            exact (hall span hspan).2.1 _ rfl
          · obtain ⟨horder, hall⟩ := @ih none _ hnext nofun
            refine ⟨horder, ?_⟩
            intro span hspan
            refine ⟨(hall span hspan).1, nofun, ?_⟩
            intro _
            have hlater := (hall span hspan).2.2 rfl
            omega
      | some fence =>
          obtain ⟨hbefore, hinside⟩ := hopen fence rfl
          have hstays := @ih (some fence) _ hnext (by
            intro other hother
            rw [← Option.some.inj hother]
            omega)
          rw [fenceLoop]
          split
          · split
            · obtain ⟨horder, hall⟩ := @ih none _ hnext nofun
              constructor
              · apply List.pairwise_cons.mpr
                refine ⟨?_, horder⟩
                intro span hspan
                have hlater := (hall span hspan).2.2 rfl
                show offset + line.length < span.start
                omega
              · intro span hspan
                rcases List.mem_cons.mp hspan with hfirst | hrest
                · rw [hfirst]
                  refine ⟨?_, ?_, nofun⟩
                  · show fence.start ≤ offset + line.length
                    omega
                  · intro other hother
                    rw [← Option.some.inj hother]
                    exact Nat.le_refl _
                · refine ⟨(hall span hrest).1, ?_, nofun⟩
                  intro other hother
                  rw [← Option.some.inj hother]
                  have hlater := (hall span hrest).2.2 rfl
                  omega
            · exact ⟨hstays.1, fun span hspan => ⟨(hstays.2 span hspan).1, (hstays.2 span hspan).2.1, nofun⟩⟩
          · exact ⟨hstays.1, fun span hspan => ⟨(hstays.2 span hspan).1, (hstays.2 span hspan).2.1, nofun⟩⟩

theorem length_splitOn (buffer : JsString) (sep : CodeUnit) :
    ((buffer.splitOn sep).map List.length).sum + (buffer.splitOn sep).length = buffer.length + 1 := by
  induction buffer with
  | nil => rfl
  | cons u rest ih =>
      rw [List.splitOn, List.splitOnP_cons_eq_if_modifyHead]
      split
      · rw [List.map_cons, List.sum_cons, List.length_cons, List.length_cons]
        rw [List.splitOn] at ih
        simp only [List.length_nil]
        omega
      · cases hsplit : rest.splitOnP (· == sep) with
        | nil => exact absurd hsplit (List.splitOnP_ne_nil _ _)
        | cons line lines =>
            rw [List.splitOn, hsplit, List.map_cons, List.sum_cons, List.length_cons] at ih
            rw [List.modifyHead_cons, List.map_cons, List.sum_cons, List.length_cons, List.length_cons,
              List.length_cons]
            omega

theorem parseFenceSpans_inOrder (buffer : JsString) :
    SpansInOrder (parseFenceSpans buffer) ∧ ∀ span ∈ parseFenceSpans buffer, span.start ≤ span.end_ := by
  have hall := @fenceLoop_spans buffer.length none 0 (buffer.splitOn (unit '\n'))
    (Nat.le_of_eq (length_splitOn buffer (unit '\n'))) nofun
  exact ⟨hall.1, fun span hspan => (hall.2 span hspan).1⟩

theorem eq_of_start_eq (hspans : SpansInOrder spans) (hvalid : ∀ span ∈ spans, span.start ≤ span.end_)
    {other : FenceSpan} (hspan : span ∈ spans) (hother : other ∈ spans) (h : span.start = other.start) :
    span = other := by
  obtain ⟨i, hi, hget⟩ := List.mem_iff_getElem.mp hspan
  obtain ⟨j, hj, hget'⟩ := List.mem_iff_getElem.mp hother
  have hfirst := hvalid span hspan
  have hsecond := hvalid other hother
  rcases Nat.lt_trichotomy i j with hlt | heq | hgt
  · have hbefore := List.pairwise_iff_getElem.mp hspans i j hi hj hlt
    rw [hget, hget'] at hbefore
    omega
  · rw [← hget, ← hget']
    congr 1
  · have hbefore := List.pairwise_iff_getElem.mp hspans j i hj hi hgt
    rw [hget, hget'] at hbefore
    omega

end Spans

/-!
## Chunks of a markdown text

`chunkMarkdownText` of `src/auto-reply/chunk.ts`: a text is cut where no fence is open, or else inside a
fence, which is closed at the end of the chunk and opened again at the start of the next one.
-/

structure ChunkState where
  start : ℕ := 0
  reopenFence : Option FenceSpan := none
  deriving DecidableEq

/-- One turn of the loop: the last chunk, or a chunk and how the loop goes on. -/
inductive ChunkMove where
  | ends (chunks : List JsString)
  | cuts (chunk : JsString) (next : ChunkState)
  deriving DecidableEq

def FenceSpan.closeLine (fence : FenceSpan) : JsString := fence.indent ++ fence.marker

/-- `text.lastIndexOf("\n", from)`; a negative `from` counts as 0. -/
def lastNewlineUpTo (text : JsString) : ℕ → Option ℕ
  | 0 => if text[0]? = some newline then some 0 else none
  | i + 1 => if text[i + 1]? = some newline then some (i + 1) else lastNewlineUpTo text i

def skipLeadingNewlines (value : JsString) (start : ℕ) : ℕ :=
  start + ((value.drop start).takeWhile fun u => u == newline).length

section Chunker

variable (text : JsString) (limit : ℕ) (spans : List FenceSpan)

def reopenPrefix (s : ChunkState) : JsString :=
  match s.reopenFence with
  | some fence => fence.openLine ++ [newline]
  | none => []

def contentLimit (s : ChunkState) : ℕ := max 1 (limit - (reopenPrefix s).length)

def windowEnd (s : ChunkState) : ℕ := min text.length (s.start + contentLimit limit s)

def pickSafeBreakIndex (start end_ : ℕ) : ℤ :=
  let found := scanParenAwareBreakpoints text start end_ (isSafeFenceBreak spans)
  if start < found.lastNewline then found.lastNewline
  else if start < found.lastWhitespace then found.lastWhitespace
  else -1

def softBreakIndex (s : ChunkState) : ℕ :=
  let softBreak := pickSafeBreakIndex text spans s.start (windowEnd text limit s)
  if s.start < softBreak then softBreak.toNat else windowEnd text limit s

def sameFenceAt (fence : FenceSpan) (index : ℕ) : Option FenceSpan :=
  (findFenceSpanAt spans index).filter fun found => found.start = fence.start

def minProgressIdx (s : ChunkState) (fence : FenceSpan) : ℕ :=
  min text.length (max (s.start + 1) (fence.start + fence.openLine.length + 2))

def maxIdxIfAlreadyNewline (s : ChunkState) (fence : FenceSpan) : ℤ :=
  s.start + ((contentLimit limit s : ℤ) - fence.closeLine.length)

def maxIdxIfNeedNewline (s : ChunkState) (fence : FenceSpan) : ℤ :=
  s.start + ((contentLimit limit s : ℤ) - (fence.closeLine.length + 1))

def pickNewline (s : ChunkState) (fence : FenceSpan) : ℕ → Option ℕ → Option (Option ℕ)
  | 0, _ => none
  | _ + 1, none => some none
  | fuel + 1, some lastNewline =>
      if lastNewline < s.start then some none
      else
        let candidateBreak := lastNewline + 1
        if candidateBreak < minProgressIdx text s fence then some none
        else if (sameFenceAt spans fence candidateBreak).isSome = true then some (some candidateBreak)
        else pickNewline s fence fuel (lastNewlineUpTo text (lastNewline - 1))

/-- Where a window that ends in a fence is cut. What the branches set `fenceToSplit` to is overwritten
after them. -/
def fenceBreakIndex (s : ChunkState) (fence : FenceSpan) : Option ℕ :=
  if maxIdxIfNeedNewline limit s fence ≤ s.start then some (windowEnd text limit s)
  else
    match pickNewline text spans s fence (text.length + 2)
        (lastNewlineUpTo text (max (s.start : ℤ) (maxIdxIfAlreadyNewline limit s fence - 1)).toNat) with
    | none => none
    | some (some candidateBreak) => some candidateBreak
    | some none =>
        if maxIdxIfAlreadyNewline limit s fence < minProgressIdx text s fence then
          some (windowEnd text limit s)
        else some (max (minProgressIdx text s fence : ℤ) (maxIdxIfNeedNewline limit s fence)).toNat

def chunkBreak (s : ChunkState) : Option (ℕ × Option FenceSpan) :=
  let breakIdx := softBreakIndex text limit spans s
  match findFenceSpanAt spans breakIdx with
  | none => some (breakIdx, none)
  | some initialFence =>
      (fenceBreakIndex text limit spans s initialFence).map fun breakIdx =>
        (breakIdx, sameFenceAt spans initialFence breakIdx)

def closeChunk (rawChunk : JsString) (fence : FenceSpan) : JsString :=
  if rawChunk.getLast? = some newline then rawChunk ++ fence.closeLine
  else rawChunk ++ newline :: fence.closeLine

def chunkCut (s : ChunkState) (breakIdx : ℕ) (fenceToSplit : Option FenceSpan) : ChunkMove :=
  let rawContent := (text.drop s.start).take (breakIdx - s.start)
  if rawContent = [] then .ends []
  else
    let rawChunk := reopenPrefix s ++ rawContent
    let brokeOnSeparator := (text[breakIdx]?).any isSpace
    let nextStart := min text.length (breakIdx + if brokeOnSeparator = true then 1 else 0)
    match fenceToSplit with
    | some fence => .cuts (closeChunk rawChunk fence) { start := nextStart, reopenFence := some fence }
    | none => .cuts rawChunk { start := skipLeadingNewlines text nextStart, reopenFence := none }

/-- One turn of the loop; `none` when the search for a line break does not end. -/
def chunkMove (s : ChunkState) : Option ChunkMove :=
  if text.length ≤ s.start then some (.ends [])
  else if text.length - s.start ≤ contentLimit limit s then
    let finalChunk := reopenPrefix s ++ text.drop s.start
    some (.ends (if 0 < finalChunk.length then [finalChunk] else []))
  else
    (chunkBreak text limit spans s).map fun (breakIdx, fenceToSplit) => chunkCut text s breakIdx fenceToSplit

def chunkLoop : ℕ → ChunkState → Option (List JsString)
  | 0, _ => none
  | fuel + 1, s =>
      match chunkMove text limit spans s with
      | none => none
      | some (.ends chunks) => some chunks
      | some (.cuts chunk next) => (chunkLoop fuel next).map (chunk :: ·)

end Chunker

def chunkMarkdownText (fuel : ℕ) (text : JsString) (limit : ℕ) : Option (List JsString) :=
  if text = [] then some []
  else if limit = 0 ∨ text.length ≤ limit then some [text]
  else chunkLoop text limit (parseFenceSpans text) fuel {}

end GreenchClaw.Markdown
