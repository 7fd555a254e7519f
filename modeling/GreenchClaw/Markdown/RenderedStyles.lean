import GreenchClaw.Markdown.RenderedChunks

/-!
# The styles of rendered chunks

`chunkMarkdownIR` takes the styles of a character from the place where its cursor stands. The rendered
chunks keep the styles of the IR when the places taken have the styles of the right ones.
-/

namespace GreenchClaw.Markdown

open GreenchClaw.Js

/-! ## Places -/

def ChunkSlice.place (slice : ChunkSlice) (i : ℕ) : Option ℕ :=
  if i < slice.end_ - slice.start then some (slice.start + i) else none

/-- The places that the slices of a text take for its characters that are not white space. -/
def takenPlaces (text : JsString) (limit : ℕ) : List (Option ℕ) :=
  (chunkSlices text limit).flatMap fun slice => (inkPlaces 0 slice.text).map slice.place

def stylesTaken (spans : List MarkdownStyleSpan) : Option ℕ → MarkdownStyle → Bool
  | some place => styleSet spans place
  | none => fun _ => false

def TakenRight (ir : MarkdownIR) (limit : ℕ) : Prop :=
  (takenPlaces ir.text limit).map (stylesTaken ir.styles) = (inkPlaces 0 ir.text).map (styleSet ir.styles)

section Places

variable {text rest : JsString} {chunks : List JsString} {limit : ℕ}

theorem ink_append (text rest : JsString) : ink (text ++ rest) = ink text ++ ink rest := List.filter_append _ _

theorem ink_spaces (h : Spaces text) : ink text = [] := by
  apply List.filter_eq_nil_iff.mpr
  intro u hu
  rw [h u hu]
  exact Bool.false_ne_true

theorem Tiled.ink (h : Tiled text chunks) : chunks.flatMap Markdown.ink = Markdown.ink text := by
  induction h with
  | blank gap hgap => exact (ink_spaces hgap).symm
  | piece chunk gap rest chunks hne hgap hrest hhead ih =>
      rw [List.flatMap_cons, ih, ink_append, ink_append, ink_spaces hgap, List.nil_append]

theorem Tiled.lengths (h : Tiled text chunks) :
    (chunks.map List.length).sum ≤ text.length ∧ ∀ chunk ∈ chunks, chunk ≠ [] := by
  induction h with
  | blank gap hgap => exact ⟨Nat.zero_le _, nofun⟩
  | piece chunk gap rest chunks hne hgap hrest hhead ih =>
      obtain ⟨hsum, hall⟩ := ih
      constructor
      · rw [List.map_cons, List.sum_cons, List.length_append, List.length_append]
        omega
      · intro other hother
        rcases List.mem_cons.mp hother with hfirst | hlater
        · rw [hfirst]
          exact hne
        · exact hall other hlater

theorem chunkText_tiled (hlimit : 0 < limit) (hlong : limit < text.length) :
    ∃ lead rest, text = lead ++ rest ∧ Spaces lead ∧ Tiled rest (chunkText text limit) := by
  obtain ⟨chunks, htiled, hchunks⟩ := chunkText_cut hlimit hlong
  rw [hchunks]
  by_cases hblank : trimEnd (text.take (breakIndex resolveTextBreak limit (text.take limit))) = []
  · obtain ⟨gap, hgap, hsplit⟩ :=
      exists_trimStart (text.drop (breakIndex resolveTextBreak limit (text.take limit)))
    rw [hblank, pushChunk_nil]
    refine ⟨_, _, ?_, (trimEnd_eq_nil.mp hblank).append hgap, htiled⟩
    rw [List.append_assoc, ← hsplit, List.take_append_drop]
  · rw [pushChunk_cons hblank]
    exact ⟨[], text, rfl, Spaces.nil, tiled_cut hblank htiled⟩

theorem alignChunks_texts (hne : ∀ chunk ∈ chunks, chunk ≠ []) (cursor : ℕ) (isFirst : Bool) :
    (alignChunks text cursor isFirst chunks).map ChunkSlice.text = chunks := by
  induction chunks generalizing cursor isFirst with
  | nil => rfl
  | cons chunk chunks ih =>
      rw [alignChunks, if_neg (hne chunk List.mem_cons_self)]
      exact congrArg (chunk :: ·) (ih (fun other hother => hne other (List.mem_cons_of_mem _ hother)) _ _)

theorem chunkSlices_ink (hlimit : 0 < limit) (text : JsString) :
    (chunkSlices text limit).flatMap (fun slice => ink slice.text) = ink text ∧
      ((chunkSlices text limit).map fun slice => slice.text.length).sum ≤ text.length ∧
      ∀ slice ∈ chunkSlices text limit, slice.text ≠ [] := by
  rw [chunkSlices]
  by_cases hnil : text = []
  · rw [if_pos hnil, hnil]
    exact ⟨rfl, Nat.le_refl _, fun slice hslice => absurd hslice List.not_mem_nil⟩
  · rw [if_neg hnil]
    by_cases hshort : limit = 0 ∨ text.length ≤ limit
    · rw [if_pos hshort]
      refine ⟨List.append_nil _, Nat.le_refl _, ?_⟩
      intro slice hslice
      rw [List.mem_singleton.mp hslice]
      exact hnil
    · rw [if_neg hshort]
      obtain ⟨lead, rest, htext, hlead, htiled⟩ := @chunkText_tiled text limit hlimit (by omega)
      obtain ⟨hsum, hne⟩ := htiled.lengths
      have htexts := @alignChunks_texts text _ hne 0 true
      refine ⟨?_, ?_, ?_⟩
      · have hmap := htiled.ink
        rw [← htexts, List.flatMap_map] at hmap
        rw [hmap, htext, ink_append, ink_spaces hlead, List.nil_append]
      · have hlengths : ((alignChunks text 0 true (chunkText text limit)).map fun slice =>
            slice.text.length) = (chunkText text limit).map List.length := by
          rw [← congrArg (List.map List.length) htexts, List.map_map]
          rfl
        rw [hlengths]
        have htotal := congrArg List.length htext
        rw [List.length_append] at htotal
        omega
      · intro slice hslice
        apply hne
        rw [← htexts]
        exact List.mem_map_of_mem hslice

theorem flatMap_zip {α β γ : Type} (items : List α) (first : α → List β) (second : α → List γ)
    (hlength : ∀ item ∈ items, (first item).length = (second item).length) :
    items.flatMap (fun item => (first item).zip (second item)) =
        (items.flatMap first).zip (items.flatMap second) ∧
      (items.flatMap first).length = (items.flatMap second).length := by
  induction items with
  | nil => exact ⟨rfl, rfl⟩
  | cons item items ih =>
      obtain ⟨hzip, hlengths⟩ := ih fun other hother => hlength other (List.mem_cons_of_mem _ hother)
      have hfirst := hlength item List.mem_cons_self
      constructor
      · rw [List.flatMap_cons, List.flatMap_cons, List.flatMap_cons, hzip, List.zip_append hfirst]
      · rw [List.flatMap_cons, List.flatMap_cons, List.length_append, List.length_append, hfirst, hlengths]

end Places

/-! ## The pending chunks -/

section Pending

variable {limit : ℕ} {ir : MarkdownIR}

theorem styledText_of_slice (ir : MarkdownIR) (slice : ChunkSlice) :
    styledText { text := slice.text
                 styles := sliceStyleSpans ir.styles slice.start slice.end_
                 links := sliceLinkSpans ir.links slice.start slice.end_ } =
      (ink slice.text).zip (((inkPlaces 0 slice.text).map slice.place).map (stylesTaken ir.styles)) := by
  rw [List.map_map, ← styledBy_eq_zip]
  apply styledBy_congr
  intro i _
  funext style
  rw [Nat.zero_add, Function.comp_apply, ChunkSlice.place, Bool.eq_iff_iff, styleSet_iff]
  by_cases hinside : i < slice.end_ - slice.start
  · rw [if_pos hinside, stylesTaken, styleSet_iff]
    exact hasStyle_sliceStyleSpans ir.styles hinside
  · rw [if_neg hinside]
    constructor
    · rintro ⟨span, hspan, -, -, hupto⟩
      have hbound := ((sliceStyleSpans_neat ir.styles slice.start slice.end_).2 span hspan).2
      omega
    · intro hfalse
      exact absurd hfalse Bool.false_ne_true

theorem styledText_pending (hlimit : 0 < limit) (ir : MarkdownIR) :
    (chunkMarkdownIR ir limit).flatMap styledText =
        (ink ir.text).zip ((takenPlaces ir.text limit).map (stylesTaken ir.styles)) ∧
      (takenPlaces ir.text limit).length = (ink ir.text).length := by
  have hzip := flatMap_zip (chunkSlices ir.text limit) (fun slice => ink slice.text)
    (fun slice => ((inkPlaces 0 slice.text).map slice.place).map (stylesTaken ir.styles)) (by
      intro slice _
      rw [List.length_map, List.length_map, length_inkPlaces])
  have hink := (chunkSlices_ink hlimit ir.text).1
  rw [hink] at hzip
  have htaken : (chunkSlices ir.text limit).flatMap (fun slice =>
      ((inkPlaces 0 slice.text).map slice.place).map (stylesTaken ir.styles)) =
        (takenPlaces ir.text limit).map (stylesTaken ir.styles) := by
    rw [takenPlaces, List.map_flatMap]
  rw [htaken] at hzip
  constructor
  · rw [← hzip.1, chunkMarkdownIR]
    by_cases hnil : ir.text = []
    · rw [if_pos hnil, chunkSlices, if_pos hnil]
      rfl
    · rw [if_neg hnil]
      by_cases hshort : limit = 0 ∨ ir.text.length ≤ limit
      · rw [if_pos hshort, chunkSlices, if_neg hnil, if_pos hshort, List.flatMap_singleton,
          List.flatMap_singleton, styledText, styledBy_eq_zip]
        congr 1
        rw [List.map_map]
        apply List.map_congr_left
        intro place hplace
        have hbound := inkPlaces_bound 0 ir.text place hplace
        rw [Function.comp_apply, ChunkSlice.place]
        simp only
        rw [if_pos (by omega), Nat.zero_add]
        rfl
      · rw [if_neg hshort, List.flatMap_map]
        congr 1
        funext slice
        exact styledText_of_slice ir slice
  · have hlength := hzip.2
    rw [List.length_map] at hlength
    exact hlength.symm

theorem pending_iff_takenRight (hlimit : 0 < limit) (ir : MarkdownIR) :
    (chunkMarkdownIR ir limit).flatMap styledText = styledText ir ↔ TakenRight ir limit := by
  obtain ⟨hstyled, hlength⟩ := styledText_pending hlimit ir
  rw [hstyled, styledText, styledBy_eq_zip, TakenRight]
  constructor
  · intro hzip
    have hseconds := congrArg (List.map Prod.snd) hzip
    rw [List.map_snd_zip (by rw [List.length_map, hlength]),
      List.map_snd_zip (by rw [List.length_map, length_inkPlaces])] at hseconds
    exact hseconds
  · intro htaken
    rw [htaken]

theorem inkPlaces_append (i : ℕ) (text rest : JsString) :
    inkPlaces i (text ++ rest) = inkPlaces i text ++ inkPlaces (i + text.length) rest := by
  induction text generalizing i with
  | nil => rfl
  | cons u text ih =>
      have hplace : i + 1 + text.length = i + (u :: text).length := by
        rw [List.length_cons]
        omega
      rw [List.cons_append, inkPlaces, inkPlaces, ih, hplace]
      split <;> rfl

theorem inkPlaces_spaces (i : ℕ) {text : JsString} (h : Spaces text) : inkPlaces i text = [] := by
  rw [← List.length_eq_zero_iff, length_inkPlaces, ink_spaces h, List.length_nil]

theorem inkPlaces_shift (i k : ℕ) (text : JsString) :
    inkPlaces (k + i) text = (inkPlaces i text).map (k + ·) := by
  induction text generalizing i with
  | nil => rfl
  | cons u text ih =>
      rw [inkPlaces, inkPlaces, Nat.add_assoc, ih]
      split <;> rfl

theorem taken_of_slicesFrom {text : JsString} {slices : List ChunkSlice} {cursor : ℕ}
    (h : SlicesFrom text cursor slices) :
    (slices.flatMap fun slice => (inkPlaces 0 slice.text).map slice.place) =
      (inkPlaces cursor (text.drop cursor)).map some := by
  induction slices generalizing cursor with
  | nil => rw [List.flatMap_nil, inkPlaces_spaces cursor h, List.map_nil]
  | cons slice slices ih =>
      obtain ⟨hstart, hend, hinside, hgap, htext, hrest⟩ := h
      have hlength : slice.text.length = slice.end_ - slice.start := by
        rw [htext, List.length_take, List.length_drop]
        omega
      have hsplit : text.drop cursor =
          (text.drop cursor).take (slice.start - cursor) ++ (slice.text ++ text.drop slice.end_) := by
        have hpiece := List.take_append_drop (slice.end_ - slice.start) (text.drop slice.start)
        rw [← htext, List.drop_drop, Nat.add_sub_cancel' hend] at hpiece
        have hlead := List.take_append_drop (slice.start - cursor) (text.drop cursor)
        rw [List.drop_drop, Nat.add_sub_cancel' hstart] at hlead
        rw [hpiece, hlead]
      have htaken : (inkPlaces 0 slice.text).map slice.place =
          (inkPlaces slice.start slice.text).map some := by
        have hshift := inkPlaces_shift 0 slice.start slice.text
        rw [Nat.add_zero] at hshift
        rw [hshift, List.map_map]
        apply List.map_congr_left
        intro place hplace
        have hbound := inkPlaces_bound 0 slice.text place hplace
        rw [ChunkSlice.place, if_pos (by omega)]
        rfl
      have hlead : cursor + ((text.drop cursor).take (slice.start - cursor)).length = slice.start := by
        rw [List.length_take, List.length_drop]
        omega
      have hnext : slice.start + slice.text.length = slice.end_ := by
        omega
      rw [List.flatMap_cons, ih hrest, htaken, ← List.map_append, hsplit, inkPlaces_append, hlead,
        inkPlaces_spaces cursor hgap, List.nil_append, inkPlaces_append, hnext]

/-- Where the first cut leaves more than white space the places are right, whatever the styles are, and
elsewhere they are wrong for some styles. -/
theorem takenRight_iff_kept (hlimit : 0 < limit) (ir : MarkdownIR) :
    (∀ styles, TakenRight { ir with styles } limit) ↔ FirstChunkKept ir.text limit := by
  constructor
  · intro htaken
    by_contra hdropped
    obtain ⟨first, tail, slice, slices, u, more, htext, hfirst, hslices, hstart, hend, hcons, hu⟩ :=
      chunkSlices_dropped hlimit hdropped
    have hplaces : ∃ places, takenPlaces ir.text limit = some 0 :: places := by
      rw [takenPlaces, hslices, List.flatMap_cons, hcons, inkPlaces, if_neg (by rw [hu]; exact Bool.false_ne_true),
        List.map_cons, ChunkSlice.place, if_pos (by omega), hstart]
      exact ⟨_, rfl⟩
    have hlater : ∀ place ∈ inkPlaces 0 ir.text, 1 ≤ place := by
      intro place hplace
      rw [htext, inkPlaces, if_pos hfirst, inkPlaces_shift 0 1] at hplace
      obtain ⟨before, -, rfl⟩ := List.mem_map.mp hplace
      exact Nat.le_add_right 1 before
    obtain ⟨places, hplaces⟩ := hplaces
    -- the first character of the text is given a style that no other character has
    have hfirst := htaken [{ start := 0, end_ := 1, style := .bold }]
    rw [TakenRight, hplaces, List.map_cons] at hfirst
    obtain ⟨place, hplace, hsame⟩ := List.mem_map.mp (hfirst ▸ List.mem_cons_self)
    have hpos := hlater place hplace
    have hbold := congrFun hsame .bold
    simp only [styleSet, stylesTaken, List.any_cons, List.any_nil, Bool.or_false, Nat.zero_le, true_and,
      decide_true, decide_eq_true_eq, Nat.lt_one_iff] at hbold
    omega
  · intro hkept styles
    have hplaces := taken_of_slicesFrom (slicesFrom_of_kept hlimit hkept)
    rw [TakenRight, takenPlaces]
    simp only
    rw [hplaces, List.drop_zero, List.map_map]
    rfl

end Pending

/-! ## The result -/

theorem normalizedLimit_pos (limit : ℚ) : 0 < normalizedLimit limit := by
  unfold normalizedLimit
  omega

theorem alignChunks_bounds {text : JsString} {cursor : ℕ} {isFirst : Bool} {chunks : List JsString} :
    ∀ slice ∈ alignChunks text cursor isFirst chunks, slice.end_ - slice.start ≤ slice.text.length := by
  induction chunks generalizing cursor isFirst with
  | nil => exact nofun
  | cons chunk chunks ih =>
      rw [alignChunks]
      split
      · exact ih
      · intro slice hslice
        rcases List.mem_cons.mp hslice with hfirst | hlater
        · rw [hfirst]
          simp only
          omega
        · exact ih slice hlater

theorem pending_chunks {limit : ℕ} (hlimit : 0 < limit) (ir : MarkdownIR) :
    (∀ chunk ∈ chunkMarkdownIR ir limit, 0 < chunk.text.length) ∧
      turns (chunkMarkdownIR ir limit) ≤ 2 * ir.text.length ∧
      ((∀ chunk ∈ chunkMarkdownIR ir limit, Neat chunk) ∨ (chunkMarkdownIR ir limit).length ≤ 1) := by
  obtain ⟨-, hsum, hne⟩ := chunkSlices_ink hlimit ir.text
  have htexts : (chunkMarkdownIR ir limit).map MarkdownIR.text =
      (chunkSlices ir.text limit).map ChunkSlice.text := by
    have heach : ∀ {slices : List ChunkSlice} {chunks : List MarkdownIR},
        List.Forall₂ (Carries ir) slices chunks → chunks.map MarkdownIR.text = slices.map ChunkSlice.text := by
      intro slices chunks hcarries
      induction hcarries with
      | nil => rfl
      | cons hfirst _ ih => rw [List.map_cons, List.map_cons, ih, hfirst.text]
    exact heach (carries_chunks ir limit)
  have hlengths : ((chunkMarkdownIR ir limit).map fun chunk => chunk.text.length) =
      (chunkSlices ir.text limit).map fun slice => slice.text.length := by
    have hmap := congrArg (List.map List.length) htexts
    rw [List.map_map, List.map_map] at hmap
    exact hmap
  refine ⟨?_, ?_, ?_⟩
  · intro chunk hchunk
    have hmem : chunk.text ∈ (chunkSlices ir.text limit).map ChunkSlice.text := by
      rw [← htexts]
      exact List.mem_map_of_mem hchunk
    obtain ⟨slice, hslice, hsame⟩ := List.mem_map.mp hmem
    rw [← hsame]
    exact List.length_pos_of_ne_nil (hne slice hslice)
  · have hdouble : ∀ chunks : List MarkdownIR,
        turns chunks ≤ 2 * (chunks.map fun chunk => chunk.text.length).sum := by
      intro chunks
      induction chunks with
      | nil => exact Nat.le_refl 0
      | cons chunk chunks ih =>
          rw [turns] at ih
          rw [turns, List.map_cons, List.sum_cons, List.map_cons, List.sum_cons]
          omega
    have hbound := hdouble (chunkMarkdownIR ir limit)
    rw [hlengths] at hbound
    omega
  · rw [chunkMarkdownIR]
    by_cases hnil : ir.text = []
    · rw [if_pos hnil]
      exact Or.inl fun chunk hchunk => absurd hchunk List.not_mem_nil
    · rw [if_neg hnil]
      by_cases hshort : limit = 0 ∨ ir.text.length ≤ limit
      · rw [if_pos hshort]
        exact Or.inr (Nat.le_refl 1)
      · rw [if_neg hshort, chunkSlices, if_neg hnil, if_neg hshort]
        left
        intro chunk hchunk
        obtain ⟨slice, hslice, hsame⟩ := List.mem_map.mp hchunk
        obtain ⟨hordered, hinside⟩ := sliceStyleSpans_neat ir.styles slice.start slice.end_
        have hbound := alignChunks_bounds slice hslice
        rw [← hsame]
        refine ⟨hordered, ?_⟩
        intro span hspan
        obtain ⟨hvalid, hend⟩ := hinside span hspan
        exact ⟨hvalid, Nat.le_trans hend hbound⟩

/-- The loops end; each chunk renders within the limit or no part of it from its start does; merging white
space takes no chunk beyond the limit; the characters keep their styles if and only if the places taken for
them are right; and these are right whatever the styles are if and only if the first cut leaves more than
white space or nothing is to be cut. -/
theorem rendered_chunks_within_limit {R : Type} (options : RenderResolver R) (ir : MarkdownIR) (limit : ℚ) :
    ∃ chunks, (∀ fuel, 2 * ir.text.length < fuel →
        renderMarkdownIRChunksWithinLimit fuel options ir limit = some chunks) ∧
      (∀ chunk ∈ chunks, chunk.rendered = options.renderChunk chunk.source ∧
        Settled options (normalizedLimit limit) chunk.source) ∧
      (∀ finalized, ∀ source ∈ coalesceWhitespaceOnlyMarkdownIRChunks options (normalizedLimit limit) finalized,
        source ∈ finalized ∨ fits options (normalizedLimit limit) source = true) ∧
      (chunks.flatMap (fun chunk => styledText chunk.source) = styledText ir ↔
        TakenRight ir (normalizedLimit limit)) ∧
      ((∀ styles, TakenRight { ir with styles } (normalizedLimit limit)) ↔
        FirstChunkKept ir.text (normalizedLimit limit)) := by
  have hlimit := normalizedLimit_pos limit
  obtain ⟨hpos, hturns, hneat⟩ := pending_chunks hlimit ir
  obtain ⟨finalized, hfinalized, hstyled, hsettled, hneats, hsingle⟩ :=
    @finalizeChunks_spec R options (normalizedLimit limit) _ hpos (2 * ir.text.length + 1)
      (Nat.lt_succ_of_le hturns)
  have hkind : NeatOrSingle finalized := by
    rcases hneat with hall | hone
    · exact Or.inl (hneats hall)
    · exact hsingle hone
  refine ⟨(coalesceWhitespaceOnlyMarkdownIRChunks options (normalizedLimit limit) finalized).map fun source =>
    { source, rendered := options.renderChunk source }, ?_, ?_, ?_, ?_,
    takenRight_iff_kept hlimit ir⟩
  · intro fuel hfuel
    have hrun := finalizeChunks_mono hfuel hfinalized
    rw [renderMarkdownIRChunksWithinLimit]
    by_cases hnil : ir.text = []
    · have hnone : chunkMarkdownIR ir (normalizedLimit limit) = [] := if_pos hnil
      rw [hnone] at hrun
      obtain ⟨more, hmore⟩ := Nat.exists_eq_succ_of_ne_zero (Nat.ne_of_gt (Nat.zero_lt_of_lt hfuel))
      rw [hmore, finalizeChunks, Option.some.injEq] at hrun
      rw [if_pos hnil, ← hrun]
      rfl
    · rw [if_neg hnil, hrun]
      rfl
  · intro chunk hchunk
    obtain ⟨source, hsource, hsame⟩ := List.mem_map.mp hchunk
    rw [← hsame]
    refine ⟨rfl, ?_⟩
    rcases coalesce_fits finalized source hsource with hmem | hfits
    · exact hsettled source hmem
    · exact Or.inl hfits
  · exact fun finalized => coalesce_fits finalized
  · rw [List.flatMap_map, ← pending_iff_takenRight hlimit ir, ← hstyled, ← coalesce_styled hkind]

section Samples

def plainText : RenderResolver JsString where
  measureRendered text := text.length
  renderChunk ir := ir.text

/-- The first two characters of the indented bold word lose their style. -/
theorem rendered_chunks_unstyled :
    (renderMarkdownIRChunksWithinLimit 17 plainText indentedWord 4).any (fun chunks =>
        decide (chunks.map (fun chunk => chunk.source.text) = [js "abcd", js "ef"] ∧
          (chunks.flatMap fun chunk => styledText chunk.source).map (fun styled => styled.2 .bold) =
            [false, false, true, true, true, true])) = true ∧
      (styledText indentedWord).map (fun styled => styled.2 .bold) =
        [true, true, true, true, true, true] := by
  exact ⟨by decide +kernel, by decide +kernel⟩

end Samples

end GreenchClaw.Markdown
