import GreenchClaw.ApplyPatch.Grammar
import Mathlib.Order.Bounds.Basic

/-!
# What an update means

Where the chunks of an update belong in the lines of a file, and the text that they make of it, stated
without the search and the splices of the code.  Chunks whose places overlap mean nothing.
-/

namespace GreenchClaw.ApplyPatch

open GreenchClaw.Js

/-! ## Places -/

def MatchesAt (normalize : JsString → JsString) (lines pattern : List JsString) (place : ℕ) : Prop :=
  ∃ front piece back, lines = front ++ (piece ++ back) ∧ front.length = place ∧
    piece.map normalize = pattern.map normalize

def candidates (normalize : JsString → JsString) (lines pattern : List JsString) (start : ℕ)
    (eof : Bool) : Set ℕ :=
  {place | MatchesAt normalize lines pattern place ∧
    if eof = true then place + pattern.length = lines.length else start ≤ place}

/-- The first place of the strictest comparison under which there is one. -/
inductive Sought (lines pattern : List JsString) (start : ℕ) (eof : Bool) : ℕ → Prop
  | nothing : pattern = [] → Sought lines pattern start eof start
  | found {stricter laxer : List (JsString → JsString)} {normalize : JsString → JsString} {place : ℕ} :
      pattern ≠ [] → comparisons = stricter ++ normalize :: laxer →
      (∀ other ∈ stricter, candidates other lines pattern start eof = ∅) →
      IsLeast (candidates normalize lines pattern start eof) place →
      Sought lines pattern start eof place

/-- `front` is what is before an empty last line, or everything. -/
inductive BeforeBlank : List JsString → List JsString → Prop
  | blank (front : List JsString) : BeforeBlank (front ++ [[]]) front
  | whole {lines : List JsString} : lines.getLast? ≠ some [] → BeforeBlank lines lines

inductive Anchored (lines : List JsString) : Option JsString → ℕ → ℕ → Prop
  | here (start : ℕ) : Anchored lines none start start
  | empty (start : ℕ) : Anchored lines (some []) start start
  | context {context : JsString} {start place : ℕ} : context ≠ [] →
      Sought lines [context] start false place → Anchored lines (some context) start (place + 1)

/-- A chunk replaces what it finds from a line on, and the next chunk is looked for after it. -/
inductive PlacedChunk (lines : List JsString) (chunk : TextChunk) (start : ℕ) : Replacement → ℕ → Prop
  | inserted {front : List JsString} : chunk.oldLines = [] → BeforeBlank lines front →
      PlacedChunk lines chunk start ⟨front.length, 0, chunk.newLines⟩ start
  | found {place : ℕ} : chunk.oldLines ≠ [] →
      Sought lines chunk.oldLines start chunk.isEndOfFile place →
      PlacedChunk lines chunk start ⟨place, chunk.oldLines.length, chunk.newLines⟩
        (place + chunk.oldLines.length)
  | withoutBlank {old new : List JsString} {place : ℕ} : chunk.oldLines = old ++ [[]] →
      (∀ other, ¬ Sought lines chunk.oldLines start chunk.isEndOfFile other) →
      BeforeBlank chunk.newLines new → Sought lines old start chunk.isEndOfFile place →
      PlacedChunk lines chunk start ⟨place, old.length, new⟩ (place + old.length)

inductive PlacedChunks (lines : List JsString) : ℕ → List TextChunk → List Replacement → Prop
  | done (start : ℕ) : PlacedChunks lines start [] []
  | chunk {start anchor next : ℕ} {chunk : TextChunk} {chunks : List TextChunk} {edit : Replacement}
      {edits : List Replacement} : Anchored lines chunk.changeContext start anchor →
      PlacedChunk lines chunk anchor edit next → PlacedChunks lines next chunks edits →
      PlacedChunks lines start (chunk :: chunks) (edit :: edits)

/-! ## The text of an update -/

/-- The lines of a text without the empty one after its last newline. -/
inductive FileLines (contents : JsString) (lines : List JsString) : Prop
  | mk {pieces : List JsString} : pieces ≠ [] → (∀ piece ∈ pieces, newline ∉ piece) →
      contents = joinLines pieces → BeforeBlank pieces lines → FileLines contents lines

def byPlace (edits : List Replacement) : List Replacement :=
  edits.insertionSort fun a b => a.start ≤ b.start

/-- From this line on, the lines outside the edits stay and the edits bring theirs. -/
inductive Woven : ℕ → List Replacement → List JsString → List JsString → Prop
  | rest (line : ℕ) (lines : List JsString) : Woven line [] lines lines
  | edit {line : ℕ} {edit : Replacement} {edits : List Replacement}
      {gap old back result : List JsString} : edit.start = line + gap.length →
      edit.oldLen = old.length → Woven (edit.start + edit.oldLen) edits back result →
      Woven line (edit :: edits) (gap ++ (old ++ back)) (gap ++ (edit.newLines ++ result))

/-- The text ends with a newline. -/
inductive EndsLine : List JsString → List JsString → Prop
  | ended (front : List JsString) : EndsLine (front ++ [[]]) (front ++ [[]])
  | unended {lines : List JsString} : lines.getLast? ≠ some [] → EndsLine lines (lines ++ [[]])

inductive UpdateMeans (contents : JsString) (chunks : List TextChunk) : JsString → Prop
  | mk {lines result pieces : List JsString} {edits : List Replacement} : FileLines contents lines →
      PlacedChunks lines 0 chunks edits → Woven 0 (byPlace edits) lines result →
      EndsLine result pieces → UpdateMeans contents chunks (joinLines pieces)

/-- Each chunk is placed behind the end of the one before it in the file. -/
def PlacesApart (contents : JsString) (chunks : List TextChunk) : Prop :=
  ∀ lines edits, FileLines contents lines → PlacedChunks lines 0 chunks edits →
    (byPlace edits).Pairwise fun a b => a.start + a.oldLen ≤ b.start

/-! ## The search -/

section Search

variable {lines pattern : List JsString} {start place : ℕ} {eof : Bool} {normalize : JsString → JsString}

theorem linesMatch_iff (hne : pattern ≠ []) :
    linesMatch lines pattern place normalize = true ↔ MatchesAt normalize lines pattern place := by
  rw [linesMatch, decide_eq_true_eq]
  constructor
  · intro hmatch
    have hlength := congrArg List.length hmatch
    rw [List.length_map, List.length_map, List.length_take, List.length_drop] at hlength
    have hpositive := List.length_pos_iff.mpr hne
    refine ⟨lines.take place, (lines.drop place).take pattern.length,
      (lines.drop place).drop pattern.length, ?_, ?_, hmatch⟩
    · rw [List.take_append_drop, List.take_append_drop]
    · rw [List.length_take]
      omega
  · rintro ⟨front, piece, back, rfl, rfl, hmatch⟩
    have hlength := congrArg List.length hmatch
    rw [List.length_map, List.length_map] at hlength
    rw [List.drop_left, ← hlength, List.take_left, hmatch]

theorem MatchesAt.bound (h : MatchesAt normalize lines pattern place) :
    place + pattern.length ≤ lines.length := by
  obtain ⟨front, piece, back, rfl, rfl, hmatch⟩ := h
  have hlength := congrArg List.length hmatch
  rw [List.length_map, List.length_map] at hlength
  rw [List.length_append, List.length_append]
  omega

theorem mem_candidates_iff (hne : pattern ≠ []) (hlong : pattern.length ≤ lines.length) :
    place ∈ candidates normalize lines pattern start eof ↔
      place < lines.length - pattern.length + 1 ∧
        (if eof = true then lines.length - pattern.length else start) ≤ place ∧
          linesMatch lines pattern place normalize = true := by
  rw [linesMatch_iff hne]
  constructor
  · rintro ⟨hmatch, hplace⟩
    have hbound := hmatch.bound
    refine ⟨by omega, ?_, hmatch⟩
    cases eof with
    | true =>
        rw [if_pos rfl] at hplace ⊢
        omega
    | false => exact hplace
  · rintro ⟨hlast, hplace, hmatch⟩
    refine ⟨hmatch, ?_⟩
    cases eof with
    | true =>
        rw [if_pos rfl] at hplace ⊢
        omega
    | false => exact hplace

def searched (lines pattern : List JsString) (start : ℕ) (eof : Bool)
    (normalize : JsString → JsString) : Option ℕ :=
  ((List.range (lines.length - pattern.length + 1)).filter fun place =>
    (if eof = true then lines.length - pattern.length else start) ≤ place).find? fun place =>
      linesMatch lines pattern place normalize

theorem searched_eq_some_iff (hne : pattern ≠ []) (hlong : pattern.length ≤ lines.length) :
    searched lines pattern start eof normalize = some place ↔
      IsLeast (candidates normalize lines pattern start eof) place := by
  rw [searched, List.find?_filter, List.find?_range_eq_some]
  simp only [List.mem_range, Bool.not_eq_true', decide_eq_true_eq, decide_eq_false_iff_not]
  constructor
  · rintro ⟨⟨hstart, hmatch⟩, hlast, hearlier⟩
    refine ⟨(mem_candidates_iff hne hlong).mpr ⟨hlast, hstart, hmatch⟩, ?_⟩
    intro other hother
    obtain ⟨-, hfrom, hmatches⟩ := (mem_candidates_iff hne hlong).mp hother
    by_contra hlt
    exact hearlier other (Nat.lt_of_not_le hlt) ⟨hfrom, hmatches⟩
  · rintro ⟨hmem, hleast⟩
    obtain ⟨hlast, hstart, hmatch⟩ := (mem_candidates_iff hne hlong).mp hmem
    refine ⟨⟨hstart, hmatch⟩, hlast, ?_⟩
    intro other hlt hfound
    have hother := (mem_candidates_iff hne hlong).mpr ⟨by omega, hfound.1, hfound.2⟩
    exact absurd (hleast hother) (by omega)

theorem searched_eq_none_iff (hne : pattern ≠ []) (hlong : pattern.length ≤ lines.length) :
    searched lines pattern start eof normalize = none ↔
      candidates normalize lines pattern start eof = ∅ := by
  rw [searched, List.find?_eq_none, Set.eq_empty_iff_forall_notMem]
  constructor
  · intro hnone place hmem
    obtain ⟨hlast, hstart, hmatch⟩ := (mem_candidates_iff hne hlong).mp hmem
    exact hnone place (List.mem_filter.mpr ⟨List.mem_range.mpr hlast, decide_eq_true hstart⟩) hmatch
  · intro hempty place hplace hmatch
    obtain ⟨hlast, hstart⟩ := List.mem_filter.mp hplace
    exact hempty place ((mem_candidates_iff hne hlong).mpr
      ⟨List.mem_range.mp hlast, of_decide_eq_true hstart, hmatch⟩)

theorem seekSequence_iff :
    seekSequence lines pattern start eof = some place ↔ Sought lines pattern start eof place := by
  by_cases hne : pattern = []
  · rw [seekSequence, if_pos (by rw [hne]; rfl)]
    constructor
    · intro hstart
      rw [← Option.some.inj hstart]
      exact .nothing hne
    · intro hsought
      cases hsought with
      | nothing => rfl
      | found hnonempty => exact absurd hne hnonempty
  · rw [seekSequence, if_neg (by simpa using hne)]
    by_cases hlong : lines.length < pattern.length
    · rw [if_pos hlong]
      constructor
      · exact fun h => absurd h (by simp)
      · intro hsought
        cases hsought with
        | nothing hnil => exact absurd hnil hne
        | found _ _ _ hleast => exact absurd hleast.1.1.bound (by omega)
    · have hlong := Nat.le_of_not_lt hlong
      rw [if_neg (Nat.not_lt.mpr hlong)]
      show comparisons.findSome? (searched lines pattern start eof) = some place ↔ _
      rw [List.findSome?_eq_some_iff]
      simp only [searched_eq_some_iff hne hlong, searched_eq_none_iff hne hlong]
      constructor
      · rintro ⟨stricter, normalize, laxer, hsplit, hleast, hstricter⟩
        exact .found hne hsplit hstricter hleast
      · intro hsought
        cases hsought with
        | nothing hnil => exact absurd hnil hne
        | found _ hsplit hstricter hleast => exact ⟨_, _, _, hsplit, hleast, hstricter⟩

theorem not_sought_iff :
    (∀ place, ¬ Sought lines pattern start eof place) ↔ seekSequence lines pattern start eof = none := by
  simp only [← seekSequence_iff]
  exact Option.eq_none_iff_forall_ne_some.symm

end Search

/-! ## The places of the chunks -/

section Places

variable {lines : List JsString} {filePath : JsString}

theorem beforeBlank_iff {front : List JsString} :
    BeforeBlank lines front ↔ front = if lines.getLast? = some [] then lines.dropLast else lines := by
  constructor
  · intro hbefore
    cases hbefore with
    | blank => rw [List.getLast?_concat, if_pos rfl, List.dropLast_concat]
    | whole hlast => rw [if_neg hlast]
  · rintro rfl
    split
    · rename_i hlast
      obtain ⟨front, rfl⟩ := List.getLast?_eq_some_iff.mp hlast
      rw [List.dropLast_concat]
      exact .blank front
    · rename_i hlast
      exact .whole hlast

theorem beforeBlank_length {front : List JsString} (h : BeforeBlank lines front) :
    front.length = insertionIndex lines := by
  rw [beforeBlank_iff.mp h, insertionIndex]
  split
  · exact List.length_dropLast
  · rfl

theorem anchored_iff {chunk : TextChunk} {start anchor : ℕ} :
    Anchored lines chunk.changeContext start anchor ↔
      seekContext lines filePath chunk.toChunk start = .ok anchor := by
  have hcontext : chunk.toChunk.changeContext = chunk.changeContext := rfl
  rw [seekContext, hcontext]
  generalize chunk.changeContext = changeContext
  constructor
  · intro hanchored
    cases hanchored with
    | here => rfl
    | empty => rfl
    | @context context _ place hne hsought =>
        rw [Option.filter_some_pos (by simpa using hne)]
        simp only [seekSequence_iff.mpr hsought]
  · intro hseek
    cases changeContext with
    | none =>
        rw [← Except.ok.inj hseek]
        exact .here start
    | some context =>
        by_cases hempty : context = []
        · rw [hempty] at hseek ⊢
          rw [← Except.ok.inj hseek]
          exact .empty start
        · rw [Option.filter_some_pos (by simpa using hempty)] at hseek
          cases hfound : seekSequence lines [context] start false with
          | none =>
              simp only [hfound] at hseek
              exact absurd hseek (by simp)
          | some place =>
              simp only [hfound] at hseek
              rw [← Except.ok.inj hseek]
              exact .context hempty (seekSequence_iff.mp hfound)

theorem placedChunk_inserted {chunk : TextChunk} {start next : ℕ} {edit : Replacement}
    (hnil : chunk.oldLines = []) :
    PlacedChunk lines chunk start edit next ↔
      edit = ⟨insertionIndex lines, 0, chunk.newLines⟩ ∧ next = start := by
  constructor
  · intro hplaced
    cases hplaced with
    | inserted _ hfront => exact ⟨by rw [beforeBlank_length hfront], rfl⟩
    | found hne => exact absurd hnil hne
    | withoutBlank hold => exact absurd (hold.symm.trans hnil) (by simp)
  · rintro ⟨rfl, rfl⟩
    have hfront := beforeBlank_iff.mpr (rfl : _ = if lines.getLast? = some [] then lines.dropLast else lines)
    rw [← beforeBlank_length hfront]
    exact .inserted hnil hfront

theorem placedChunk_found {chunk : TextChunk} {start next : ℕ} {edit : Replacement}
    (hne : chunk.oldLines ≠ []) :
    PlacedChunk lines chunk start edit next ↔
      findChunk lines chunk.toChunk start = some edit ∧ next = edit.start + edit.oldLen := by
  have hold : chunk.toChunk.oldLines = chunk.oldLines := rfl
  have hnew : chunk.toChunk.newLines = chunk.newLines := rfl
  have heof : chunk.toChunk.isEndOfFile = chunk.isEndOfFile := rfl
  rw [findChunk, hold, hnew, heof]
  constructor
  · intro hplaced
    cases hplaced with
    | inserted hnil => exact absurd hnil hne
    | found _ hsought =>
        rw [seekSequence_iff.mpr hsought]
        exact ⟨rfl, rfl⟩
    | withoutBlank hold hnone hnew hsought =>
        rw [not_sought_iff.mp hnone]
        simp [hold, ← beforeBlank_iff.mp hnew, seekSequence_iff.mpr hsought]
  · rintro ⟨hfind, rfl⟩
    cases hseek : seekSequence lines chunk.oldLines start chunk.isEndOfFile with
    | some found =>
        simp only [hseek] at hfind
        rw [← Option.some.inj hfind]
        exact .found hne (seekSequence_iff.mp hseek)
    | none =>
        simp only [hseek] at hfind
        split at hfind
        · rename_i hlast
          obtain ⟨old, hsplit⟩ := List.getLast?_eq_some_iff.mp hlast
          rw [hsplit, List.dropLast_concat] at hfind
          obtain ⟨place, hplace, rfl⟩ := Option.map_eq_some_iff.mp hfind
          exact .withoutBlank hsplit (not_sought_iff.mpr hseek) (beforeBlank_iff.mpr rfl)
            (seekSequence_iff.mp hplace)
        · exact absurd hfind (by simp)

theorem placedChunks_cons {chunk : TextChunk} {chunks : List TextChunk} {start : ℕ}
    {edits : List Replacement} :
    PlacedChunks lines start (chunk :: chunks) edits ↔
      ∃ anchor edit next rest, Anchored lines chunk.changeContext start anchor ∧
        PlacedChunk lines chunk anchor edit next ∧ PlacedChunks lines next chunks rest ∧
        edits = edit :: rest := by
  constructor
  · intro hplaced
    cases hplaced with
    | chunk hanchor hchunk hrest => exact ⟨_, _, _, _, hanchor, hchunk, hrest, rfl⟩
  · rintro ⟨anchor, edit, next, rest, hanchor, hchunk, hrest, rfl⟩
    exact .chunk hanchor hchunk hrest

theorem placedChunks_iff {chunks : List TextChunk} {start : ℕ} {edits : List Replacement} :
    PlacedChunks lines start chunks edits ↔
      collectReplacements lines filePath start (chunks.map TextChunk.toChunk) = .ok edits := by
  induction chunks generalizing start edits with
  | nil =>
      constructor
      · intro hplaced
        cases hplaced
        rfl
      · intro hcollect
        rw [← Except.ok.inj hcollect]
        exact .done start
  | cons chunk chunks ih =>
      have hold : chunk.toChunk.oldLines = chunk.oldLines := rfl
      have hnew : chunk.toChunk.newLines = chunk.newLines := rfl
      rw [placedChunks_cons, List.map_cons, collectReplacements]
      simp only [@anchored_iff lines filePath, ih]
      cases hseek : seekContext lines filePath chunk.toChunk start with
      | error err => simp
      | ok anchor =>
          by_cases hnil : chunk.oldLines = []
          · simp only [placedChunk_inserted hnil, hold, hnil, List.length_nil, if_true]
            cases hrest : collectReplacements lines filePath anchor (chunks.map TextChunk.toChunk) with
            | error err => simp [Except.map, hrest]
            | ok rest => simp [Except.map, hrest, hnew, eq_comm]
          · simp only [placedChunk_found hnil, hold, List.length_eq_zero_iff, hnil, if_false]
            cases hfind : findChunk lines chunk.toChunk anchor with
            | none => simp [hfind]
            | some edit =>
                cases hrest : collectReplacements lines filePath (edit.start + edit.oldLen)
                  (chunks.map TextChunk.toChunk) with
                | error err => simp [Except.map, hfind, hrest]
                | ok rest => simp [Except.map, hfind, hrest, eq_comm]

theorem Sought.bound {pattern : List JsString} {start place : ℕ} {eof : Bool}
    (h : Sought lines pattern start eof place) (hstart : start ≤ lines.length) :
    place + pattern.length ≤ lines.length := by
  cases h with
  | nothing hnil =>
      rw [hnil]
      exact hstart
  | found _ _ _ hleast => exact hleast.1.1.bound

theorem Anchored.bound {changeContext : Option JsString} {start anchor : ℕ}
    (h : Anchored lines changeContext start anchor) (hstart : start ≤ lines.length) :
    anchor ≤ lines.length := by
  cases h with
  | here => exact hstart
  | empty => exact hstart
  | context _ hsought => exact hsought.bound hstart

theorem PlacedChunk.bound {chunk : TextChunk} {start next : ℕ} {edit : Replacement}
    (h : PlacedChunk lines chunk start edit next) (hstart : start ≤ lines.length) :
    edit.start + edit.oldLen ≤ lines.length ∧ next ≤ lines.length := by
  cases h with
  | @inserted front _ hfront =>
      refine ⟨?_, hstart⟩
      have hlength : front.length ≤ lines.length := by
        rw [beforeBlank_length hfront, insertionIndex]
        split <;> omega
      exact hlength
  | found _ hsought => exact ⟨hsought.bound hstart, hsought.bound hstart⟩
  | withoutBlank _ _ _ hsought => exact ⟨hsought.bound hstart, hsought.bound hstart⟩

theorem PlacedChunks.bound {chunks : List TextChunk} {start : ℕ} {edits : List Replacement}
    (h : PlacedChunks lines start chunks edits) (hstart : start ≤ lines.length) :
    ∀ edit ∈ edits, edit.start + edit.oldLen ≤ lines.length := by
  induction h with
  | done => simp
  | chunk hanchor hchunk _ ih =>
      obtain ⟨hedit, hnext⟩ := hchunk.bound (hanchor.bound hstart)
      exact List.forall_mem_cons.mpr ⟨hedit, ih hnext⟩

end Places

/-! ## Weaving -/

section Weaving

variable {line : ℕ} {edits : List Replacement} {lines result : List JsString}

theorem Woven.pairwise (h : Woven line edits lines result) :
    edits.Pairwise (fun a b => a.start + a.oldLen ≤ b.start) ∧ ∀ edit ∈ edits, line ≤ edit.start := by
  induction h with
  | rest => exact ⟨.nil, by simp⟩
  | edit hstart _ _ ih =>
      refine ⟨List.pairwise_cons.mpr ⟨ih.2, ih.1⟩, ?_⟩
      rw [List.forall_mem_cons]
      refine ⟨by omega, fun other hother => ?_⟩
      have := ih.2 other hother
      omega

theorem woven_of_pairwise (hpair : edits.Pairwise fun a b => a.start + a.oldLen ≤ b.start)
    (hwithin : ∀ edit ∈ edits, line ≤ edit.start ∧ edit.start + edit.oldLen ≤ line + lines.length) :
    ∃ result, Woven line edits lines result := by
  induction edits generalizing line lines with
  | nil => exact ⟨lines, .rest line lines⟩
  | cons edit edits ih =>
      obtain ⟨hafter, hpair⟩ := List.pairwise_cons.mp hpair
      obtain ⟨⟨hfrom, hto⟩, hrest⟩ := List.forall_mem_cons.mp hwithin
      obtain ⟨result, hresult⟩ := @ih (edit.start + edit.oldLen)
        ((lines.drop (edit.start - line)).drop edit.oldLen) hpair (by
          intro other hother
          refine ⟨hafter other hother, ?_⟩
          have := (hrest other hother).2
          rw [List.length_drop, List.length_drop]
          omega)
      refine ⟨lines.take (edit.start - line) ++ (edit.newLines ++ result), ?_⟩
      have hwoven := @Woven.edit line edit edits (lines.take (edit.start - line))
        ((lines.drop (edit.start - line)).take edit.oldLen) _ result (by
          rw [List.length_take]
          omega) (by
          rw [List.length_take, List.length_drop]
          omega) hresult
      rwa [List.take_append_drop, List.take_append_drop] at hwoven

theorem Woven.applyReplacements (h : Woven line edits lines result) {before : List JsString}
    (hbefore : before.length = line) :
    applyReplacements (before ++ lines) edits = before ++ result := by
  induction h generalizing before with
  | rest => rfl
  | @edit line edit edits gap old back result hstart hold _ ih =>
      have hrest := @ih (before ++ (gap ++ old)) (by
        rw [List.length_append, List.length_append]
        omega)
      have hfront : (before ++ gap).length = edit.start := by
        rw [List.length_append]
        omega
      simp only [List.append_assoc] at hrest
      rw [ApplyPatch.applyReplacements, List.reverse_cons, List.foldl_append]
      rw [ApplyPatch.applyReplacements] at hrest
      rw [hrest, List.foldl_cons, List.foldl_nil, splice, ← List.append_assoc before, ← hfront, hold,
        List.take_left, ← List.drop_drop, List.drop_left, List.drop_left]
      simp only [List.append_assoc]

end Weaving

/-! ## The update -/

section Update

variable {contents filePath text : JsString} {chunks : List TextChunk} {lines : List JsString}

def fileLines (contents : JsString) : List JsString :=
  if (splitAtNewlines contents).getLast? = some [] then (splitAtNewlines contents).dropLast
  else splitAtNewlines contents

theorem not_mem_splitAtNewlines (contents : JsString) :
    ∀ piece ∈ splitAtNewlines contents, newline ∉ piece := by
  rw [splitAtNewlines]
  induction contents with
  | nil => simp
  | cons u contents ih =>
      rw [List.splitOn_cons_eq_if_modifyHead]
      split
      · exact List.forall_mem_cons.mpr ⟨List.not_mem_nil, ih⟩
      · rename_i hother
        obtain ⟨piece, rest, hpieces⟩ := List.exists_cons_of_ne_nil (List.splitOn_ne_nil newline contents)
        rw [hpieces] at ih ⊢
        obtain ⟨hpiece, hrest⟩ := List.forall_mem_cons.mp ih
        refine List.forall_mem_cons.mpr ⟨?_, hrest⟩
        rw [List.mem_cons, not_or]
        exact ⟨fun heq => hother (beq_iff_eq.mpr heq.symm), hpiece⟩

theorem fileLines_iff : FileLines contents lines ↔ lines = fileLines contents := by
  constructor
  · rintro ⟨hne, hpieces, rfl, hlines⟩
    rw [fileLines, splitAtNewlines, joinLines, List.splitOn_intercalate newline hpieces hne]
    exact beforeBlank_iff.mp hlines
  · rintro rfl
    exact .mk (List.splitOn_ne_nil newline contents) (not_mem_splitAtNewlines contents)
      (List.intercalate_splitOn newline).symm (beforeBlank_iff.mpr rfl)

theorem endsLine_iff {pieces : List JsString} :
    EndsLine lines pieces ↔ pieces = if lines.getLast? = some [] then lines else lines ++ [[]] := by
  constructor
  · intro hends
    cases hends with
    | ended => rw [List.getLast?_concat, if_pos rfl]
    | unended hlast => rw [if_neg hlast]
  · rintro rfl
    split
    · rename_i hlast
      obtain ⟨front, rfl⟩ := List.getLast?_eq_some_iff.mp hlast
      exact .ended front
    · rename_i hlast
      exact .unended hlast

def splicedText (lines : List JsString) (ordered : List Replacement) : JsString :=
  let newLines := applyReplacements lines ordered
  joinLines (if newLines.getLast? = some [] then newLines else newLines ++ [[]])

theorem applyUpdateHunk_eq (parsed : List UpdateFileChunk) :
    applyUpdateHunk filePath contents parsed =
      ((collectReplacements (fileLines contents) filePath 0 parsed).map byPlace).map
        (splicedText (fileLines contents)) := rfl

theorem splicedText_woven {ordered : List Replacement} {result pieces : List JsString}
    (hwoven : Woven 0 ordered lines result) (hends : EndsLine result pieces) :
    splicedText lines ordered = joinLines pieces := by
  have hspliced := @Woven.applyReplacements _ _ _ _ hwoven [] rfl
  rw [List.nil_append, List.nil_append] at hspliced
  rw [splicedText, hspliced, endsLine_iff.mp hends]

theorem updateMeans_iff :
    UpdateMeans contents chunks text ↔
      applyUpdateHunk filePath contents (chunks.map TextChunk.toChunk) = .ok text ∧
        PlacesApart contents chunks := by
  rw [applyUpdateHunk_eq]
  constructor
  · rintro ⟨hlines, hplaced, hwoven, hends⟩
    rw [fileLines_iff] at hlines
    subst hlines
    have hcollect := (@placedChunks_iff _ filePath _ _ _).mp hplaced
    constructor
    · rw [hcollect]
      exact congrArg Except.ok (splicedText_woven hwoven hends)
    · intro lines edits hlines hplaced'
      rw [fileLines_iff] at hlines
      subst hlines
      rw [@placedChunks_iff _ filePath, hcollect] at hplaced'
      rw [← Except.ok.inj hplaced']
      exact hwoven.pairwise.1
  · rintro ⟨happly, hapart⟩
    cases hcollect : collectReplacements (fileLines contents) filePath 0
        (chunks.map TextChunk.toChunk) with
    | error err =>
        rw [hcollect] at happly
        exact absurd happly (by simp [Except.map])
    | ok edits =>
        rw [hcollect] at happly
        have hlines := fileLines_iff.mpr (rfl : fileLines contents = _)
        have hplaced := placedChunks_iff.mpr hcollect
        have hwithin : ∀ edit ∈ byPlace edits, 0 ≤ edit.start ∧
            edit.start + edit.oldLen ≤ 0 + (fileLines contents).length := by
          intro edit hedit
          rw [Nat.zero_add]
          exact ⟨Nat.zero_le _, hplaced.bound (Nat.zero_le _) edit ((List.mem_insertionSort _).mp hedit)⟩
        obtain ⟨result, hwoven⟩ := woven_of_pairwise (hapart _ edits hlines hplaced) hwithin
        have hends := endsLine_iff.mpr (rfl : _ = if result.getLast? = some [] then result else result ++ [[]])
        rw [← Except.ok.inj happly, splicedText_woven hwoven hends]
        exact .mk hlines hplaced hwoven hends

end Update

end GreenchClaw.ApplyPatch
