import GreenchClaw.Js.Text

/-!
# Chunks of a text

`chunkTextByBreakResolver` of `src/shared/text-chunking.ts` and `chunkText` of
`src/auto-reply/chunk.ts`: a text is cut at white space where there is some, and the chunks are trimmed.
-/

namespace GreenchClaw.Markdown

open GreenchClaw.Js

/-! ## The source -/

structure Breakpoints where
  lastNewline : ℤ := -1
  lastWhitespace : ℤ := -1
  deriving DecidableEq

/-- The loop of `scanParenAwareBreakpoints` from an index on. -/
def scanBreakpoints (isAllowed : ℕ → Bool) : ℕ → JsString → ℕ → Breakpoints → Breakpoints
  | _, [], _, found => found
  | i, char :: rest, depth, found =>
      if isAllowed i = false then scanBreakpoints isAllowed (i + 1) rest depth found
      else if char = unit '(' then scanBreakpoints isAllowed (i + 1) rest (depth + 1) found
      else if char = unit ')' ∧ 0 < depth then scanBreakpoints isAllowed (i + 1) rest (depth - 1) found
      else if depth ≠ 0 then scanBreakpoints isAllowed (i + 1) rest depth found
      else if char = unit '\n' then
        scanBreakpoints isAllowed (i + 1) rest depth { found with lastNewline := i }
      else if isSpace char = true then
        scanBreakpoints isAllowed (i + 1) rest depth { found with lastWhitespace := i }
      else scanBreakpoints isAllowed (i + 1) rest depth found

def scanParenAwareBreakpoints (text : JsString) (start end_ : ℕ) (isAllowed : ℕ → Bool) : Breakpoints :=
  scanBreakpoints isAllowed start ((text.drop start).take (end_ - start)) 0 {}

def trimStart (text : JsString) : JsString := text.dropWhile isSpace

def breakIndex (resolveBreakIndex : JsString → ℤ) (limit : ℕ) (window : JsString) : ℕ :=
  let candidateBreak := resolveBreakIndex window
  if 0 < candidateBreak ∧ candidateBreak ≤ limit then candidateBreak.toNat else limit

def pushChunk (chunk : JsString) (chunks : List JsString) : List JsString :=
  if chunk.length > 0 then chunk :: chunks else chunks

/-- The loop over what remains; the fuel bounds how often the text is cut. -/
def chunkRemaining (resolveBreakIndex : JsString → ℤ) (limit : ℕ) : ℕ → JsString → List JsString
  | 0, remaining => pushChunk remaining []
  | fuel + 1, remaining =>
      if limit < remaining.length then
        let breakIdx := breakIndex resolveBreakIndex limit (remaining.take limit)
        let chunk := trimEnd (remaining.take breakIdx)
        let brokeOnSeparator := (remaining[breakIdx]?).any isSpace
        let nextStart := min remaining.length (breakIdx + if brokeOnSeparator = true then 1 else 0)
        pushChunk chunk
          (chunkRemaining resolveBreakIndex limit fuel (trimStart (remaining.drop nextStart)))
      else pushChunk remaining []

def chunkTextByBreakResolver (text : JsString) (limit : ℕ) (resolveBreakIndex : JsString → ℤ) :
    List JsString :=
  if text = [] then []
  else if limit = 0 ∨ text.length ≤ limit then [text]
  else chunkRemaining resolveBreakIndex limit text.length text

/-- The resolver of `chunkText`: a line break, or else other white space, outside parentheses. -/
def resolveTextBreak (window : JsString) : ℤ :=
  let found := scanParenAwareBreakpoints window 0 window.length fun _ => true
  if 0 < found.lastNewline then found.lastNewline else found.lastWhitespace

def chunkText (text : JsString) (limit : ℕ) : List JsString :=
  if text = [] then []
  else if limit = 0 ∨ text.length ≤ limit then [text]
  else chunkTextByBreakResolver text limit resolveTextBreak

/-! ## Trimming -/

section Trim

variable {text : JsString}

theorem exists_trimStart (text : JsString) : ∃ gap, Spaces gap ∧ text = gap ++ trimStart text := by
  refine ⟨text.takeWhile isSpace, ?_, (List.takeWhile_append_dropWhile).symm⟩
  intro u hu
  exact List.mem_takeWhile_imp hu

theorem exists_trimEnd (text : JsString) : ∃ gap, Spaces gap ∧ text = trimEnd text ++ gap := by
  refine ⟨text.rtakeWhile isSpace, ?_, (List.rdropWhile_append_rtakeWhile).symm⟩
  intro u hu
  exact List.mem_rtakeWhile_imp hu

/-- Nothing, or something else than white space comes first. -/
def NoLeadingSpace (text : JsString) : Prop := ∀ u rest, text = u :: rest → isSpace u = false

theorem noLeadingSpace_trimStart (text : JsString) : NoLeadingSpace (trimStart text) := by
  induction text with
  | nil =>
      intro u rest h
      exact absurd h nofun
  | cons v tail ih =>
      by_cases hspace : isSpace v = true
      · rw [trimStart, List.dropWhile_cons_of_pos hspace]
        exact ih
      · intro u rest h
        rw [trimStart, List.dropWhile_cons_of_neg hspace, List.cons.injEq] at h
        rw [← h.1]
        exact (Bool.not_eq_true _).mp hspace

theorem NoLeadingSpace.trimEnd_ne_nil (h : NoLeadingSpace text) (hne : text ≠ []) : trimEnd text ≠ [] := by
  intro hnil
  obtain ⟨gap, hgap, hsplit⟩ := exists_trimEnd text
  rw [hnil, List.nil_append] at hsplit
  obtain ⟨u, rest, hcons⟩ := List.exists_cons_of_ne_nil hne
  have hspace := hgap u (by rw [← hsplit, hcons]; exact List.mem_cons_self)
  rw [h u rest hcons] at hspace
  exact absurd hspace Bool.false_ne_true

theorem NoLeadingSpace.take (h : NoLeadingSpace text) (count : ℕ) : NoLeadingSpace (text.take count) := by
  intro u rest htake
  cases htext : text with
  | nil =>
      rw [htext, List.take_nil] at htake
      exact absurd htake nofun
  | cons v tail =>
      cases count with
      | zero => exact absurd htake nofun
      | succ count =>
          rw [htext, List.take_succ_cons, List.cons.injEq] at htake
          rw [← htake.1]
          exact h v tail htext

theorem trimEnd_eq_nil : trimEnd text = [] ↔ Spaces text := by
  rw [trimEnd, List.rdropWhile_eq_nil_iff]
  rfl

/-- How much white space a text begins with. -/
def leadingSpaces (text : JsString) : ℕ := (text.takeWhile isSpace).length

theorem spaces_take_iff {count : ℕ} (h : count ≤ text.length) :
    Spaces (text.take count) ↔ count ≤ leadingSpaces text := by
  induction text generalizing count with
  | nil => exact ⟨fun _ => h, fun _ => by rw [List.take_nil]; exact Spaces.nil⟩
  | cons u rest ih =>
      cases count with
      | zero => exact ⟨fun _ => Nat.zero_le _, fun _ => Spaces.nil⟩
      | succ count =>
          rw [List.take_succ_cons, leadingSpaces]
          by_cases hspace : isSpace u = true
          · rw [List.takeWhile_cons_of_pos hspace, List.length_cons, Nat.succ_le_succ_iff]
            rw [← leadingSpaces, ← ih (Nat.le_of_succ_le_succ h)]
            constructor
            · intro hall v hv
              exact hall v (List.mem_cons_of_mem _ hv)
            · intro hall v hv
              rcases List.mem_cons.mp hv with hfirst | hlater
              · rw [hfirst]
                exact hspace
              · exact hall v hlater
          · rw [List.takeWhile_cons_of_neg hspace]
            constructor
            · intro hall
              exact absurd (hall u List.mem_cons_self) hspace
            · intro hzero
              exact absurd hzero (Nat.not_succ_le_zero _)

end Trim

/-! ## Tiles -/

inductive Tiled : JsString → List JsString → Prop
  | blank (gap : JsString) (hgap : Spaces gap) : Tiled gap []
  | piece (chunk gap rest : JsString) (chunks : List JsString) (hne : chunk ≠ []) (hgap : Spaces gap)
      (hrest : Tiled rest chunks) (hhead : NoLeadingSpace rest) :
      Tiled (chunk ++ (gap ++ rest)) (chunk :: chunks)

section Tiles

variable {resolveBreakIndex : JsString → ℤ} {limit : ℕ} {text : JsString}

theorem breakIndex_le (resolveBreakIndex : JsString → ℤ) (limit : ℕ) (window : JsString) :
    breakIndex resolveBreakIndex limit window ≤ limit := by
  unfold breakIndex
  simp only
  split <;> omega

theorem breakIndex_pos (resolveBreakIndex : JsString → ℤ) (hlimit : 0 < limit) (window : JsString) :
    0 < breakIndex resolveBreakIndex limit window := by
  unfold breakIndex
  simp only
  split <;> omega

/-- The separator that the loop skips would be trimmed anyway. -/
theorem trimStart_drop_separator (text : JsString) (breakIdx : ℕ) :
    trimStart (text.drop (min text.length
      (breakIdx + if (text[breakIdx]?).any isSpace = true then 1 else 0))) =
      trimStart (text.drop breakIdx) := by
  by_cases hspace : (text[breakIdx]?).any isSpace = true
  · rw [if_pos hspace]
    obtain ⟨u, hu, hseparator⟩ := (Option.any_eq_true _ _).mp hspace
    obtain ⟨hlt, hget⟩ := List.getElem?_eq_some_iff.mp hu
    rw [Nat.min_eq_right hlt, List.drop_eq_getElem_cons hlt, hget]
    exact (List.dropWhile_cons_of_pos hseparator).symm
  · rw [if_neg hspace, Nat.add_zero]
    by_cases hlt : breakIdx ≤ text.length
    · rw [Nat.min_eq_right hlt]
    · have hle : text.length ≤ breakIdx := Nat.le_of_not_le hlt
      rw [Nat.min_eq_left hle, List.drop_length, List.drop_eq_nil_of_le hle]

theorem chunkRemaining_cut (resolveBreakIndex : JsString → ℤ) (fuel : ℕ) (h : limit < text.length) :
    chunkRemaining resolveBreakIndex limit (fuel + 1) text =
      pushChunk (trimEnd (text.take (breakIndex resolveBreakIndex limit (text.take limit))))
        (chunkRemaining resolveBreakIndex limit fuel
          (trimStart (text.drop (breakIndex resolveBreakIndex limit (text.take limit))))) := by
  rw [chunkRemaining, if_pos h]
  simp only
  rw [trimStart_drop_separator]

theorem pushChunk_nil (chunks : List JsString) : pushChunk [] chunks = chunks := rfl

theorem pushChunk_cons {chunk : JsString} (h : chunk ≠ []) (chunks : List JsString) :
    pushChunk chunk chunks = chunk :: chunks :=
  if_pos (List.length_pos_of_ne_nil h)

theorem tiled_cut {breakIdx : ℕ} {chunks : List JsString} (hne : trimEnd (text.take breakIdx) ≠ [])
    (hrest : Tiled (trimStart (text.drop breakIdx)) chunks) :
    Tiled text (trimEnd (text.take breakIdx) :: chunks) := by
  obtain ⟨left, hleft, hfirst⟩ := exists_trimEnd (text.take breakIdx)
  obtain ⟨right, hright, hsecond⟩ := exists_trimStart (text.drop breakIdx)
  have htiled := Tiled.piece (trimEnd (text.take breakIdx)) (left ++ right) _ chunks hne
    (hleft.append hright) hrest (noLeadingSpace_trimStart _)
  have htext : text = trimEnd (text.take breakIdx) ++ ((left ++ right) ++ trimStart (text.drop breakIdx)) := by
    rw [List.append_assoc, ← hsecond, ← List.append_assoc, ← hfirst, List.take_append_drop]
  rw [← htext] at htiled
  exact htiled

theorem length_trimStart_drop {breakIdx fuel : ℕ} (hpos : 0 < breakIdx) (hfuel : text.length ≤ fuel + 1) :
    (trimStart (text.drop breakIdx)).length ≤ fuel := by
  have htrim : (trimStart (text.drop breakIdx)).length ≤ (text.drop breakIdx).length :=
    (List.dropWhile_sublist isSpace).length_le
  rw [List.length_drop] at htrim
  omega

theorem tiled_chunkRemaining (resolveBreakIndex : JsString → ℤ) (hlimit : 0 < limit) {fuel : ℕ}
    (hfuel : text.length ≤ fuel) (hhead : NoLeadingSpace text) :
    Tiled text (chunkRemaining resolveBreakIndex limit fuel text) := by
  induction fuel generalizing text with
  | zero =>
      rw [List.eq_nil_of_length_eq_zero (Nat.le_zero.mp hfuel)]
      exact Tiled.blank [] Spaces.nil
  | succ fuel ih =>
      by_cases hlong : limit < text.length
      · rw [chunkRemaining_cut resolveBreakIndex fuel hlong]
        generalize hbreak : breakIndex resolveBreakIndex limit (text.take limit) = breakIdx
        have hpos : 0 < breakIdx := by
          rw [← hbreak]
          exact breakIndex_pos resolveBreakIndex hlimit _
        have hne : trimEnd (text.take breakIdx) ≠ [] := by
          apply (hhead.take breakIdx).trimEnd_ne_nil
          apply List.ne_nil_of_length_pos
          rw [List.length_take]
          omega
        rw [pushChunk_cons hne]
        exact tiled_cut hne (ih (length_trimStart_drop hpos hfuel) (noLeadingSpace_trimStart _))
      · rw [chunkRemaining, if_neg hlong]
        by_cases hnil : text = []
        · rw [hnil]
          exact Tiled.blank [] Spaces.nil
        · rw [pushChunk_cons hnil]
          have htiled := Tiled.piece text [] [] [] hnil Spaces.nil (Tiled.blank [] Spaces.nil) nofun
          rw [List.nil_append, List.append_nil] at htiled
          exact htiled

end Tiles

end GreenchClaw.Markdown
