import GreenchClaw.ApplyPatch.Apply
import GreenchClaw.Lib.Results

/-!
# The grammar of a patch

The lines that spell a patch, stated without the parser: the envelope, the blocks of the hunks and the
chunks of an update.  Then `parsePatchText` reads exactly the patches of the grammar.
-/

namespace GreenchClaw.ApplyPatch

open GreenchClaw.Js

inductive ChunkLine where
  | context (content : JsString)
  | added (content : JsString)
  | removed (content : JsString)

structure TextChunk where
  changeContext : Option JsString
  lines : List ChunkLine
  isEndOfFile : Bool

inductive TextHunk where
  | add (path : JsString) (lines : List JsString)
  | delete (path : JsString)
  | update (path : JsString) (movePath : Option JsString) (chunks : List TextChunk)

def ChunkLine.old : ChunkLine → Option JsString
  | .context content => some content
  | .added _ => none
  | .removed content => some content

def ChunkLine.new : ChunkLine → Option JsString
  | .context content => some content
  | .added content => some content
  | .removed _ => none

def TextChunk.oldLines (chunk : TextChunk) : List JsString := chunk.lines.filterMap ChunkLine.old

def TextChunk.newLines (chunk : TextChunk) : List JsString := chunk.lines.filterMap ChunkLine.new

/-! ## Spelling -/

/-- An empty line stands for an empty line of context. -/
inductive ChunkLine.Spells : ChunkLine → JsString → Prop
  | context (content : JsString) : Spells (.context content) (unit ' ' :: content)
  | blank : Spells (.context []) []
  | added (content : JsString) : Spells (.added content) (unit '+' :: content)
  | removed (content : JsString) : Spells (.removed content) (unit '-' :: content)

def IsChunkLine (line : JsString) : Prop := ∃ chunkLine : ChunkLine, chunkLine.Spells line

/-- The first chunk of an update may do without its header. -/
inductive SpellsHeader : Bool → Option JsString → List JsString → Prop
  | plain (first : Bool) : SpellsHeader first none [EMPTY_CHANGE_CONTEXT_MARKER]
  | context (first : Bool) (changeContext : JsString) :
      SpellsHeader first (some changeContext) [CHANGE_CONTEXT_MARKER ++ changeContext]
  | missing : SpellsHeader true none []

def eofLines (isEndOfFile : Bool) : List JsString := if isEndOfFile then [EOF_MARKER] else []

/-- Chunks with lines of white space between them.  A chunk takes all lines that look like lines of a
chunk, so directly after one without the marker of the end of the file (`inside`) none is left. -/
inductive SpellsChunks : Bool → Bool → List TextChunk → List JsString → Prop
  | done (first inside : Bool) : SpellsChunks first inside [] []
  | blank {first inside : Bool} {chunks : List TextChunk} {line : JsString} {lines : List JsString} :
      trim line = [] → (inside = true → ¬ IsChunkLine line) →
      SpellsChunks first false chunks lines → SpellsChunks first inside chunks (line :: lines)
  | chunk {first inside : Bool} {chunk : TextChunk} {chunks : List TextChunk}
      {header body lines : List JsString} : SpellsHeader first chunk.changeContext header →
      (header = [] → ∀ line ∈ body.head?, trim line ≠ []) →
      List.Forall₂ ChunkLine.Spells chunk.lines body → body ≠ [] →
      SpellsChunks false (!chunk.isEndOfFile) chunks lines →
      SpellsChunks first inside (chunk :: chunks)
        (header ++ body ++ eofLines chunk.isEndOfFile ++ lines)

inductive SpellsMove : Option JsString → List JsString → Prop
  | stay : SpellsMove none []
  | move {path line : JsString} : trim line = MOVE_TO_MARKER ++ path → SpellsMove (some path) [line]

inductive SpellsHunks : List TextHunk → List JsString → Prop
  | done : SpellsHunks [] []
  | add {path line : JsString} {added lines : List JsString} {hunks : List TextHunk} :
      trim line = ADD_FILE_MARKER ++ path → SpellsHunks hunks lines →
      SpellsHunks (.add path added :: hunks) (line :: (added.map (unit '+' :: ·) ++ lines))
  | delete {path line : JsString} {lines : List JsString} {hunks : List TextHunk} :
      trim line = DELETE_FILE_MARKER ++ path → SpellsHunks hunks lines →
      SpellsHunks (.delete path :: hunks) (line :: lines)
  | update {path line : JsString} {movePath : Option JsString} {moveLines chunkLines lines : List JsString}
      {chunks : List TextChunk} {hunks : List TextHunk} :
      trim line = UPDATE_FILE_MARKER ++ path → SpellsMove movePath moveLines →
      (movePath = none → ∀ next ∈ chunkLines.head?, ¬ MOVE_TO_MARKER <+: trim next) →
      SpellsChunks true false chunks chunkLines → chunks ≠ [] →
      (∀ next ∈ lines.head?, js "***" <+: next) → SpellsHunks hunks lines →
      SpellsHunks (.update path movePath chunks :: hunks)
        (line :: (moveLines ++ (chunkLines ++ lines)))

def Enclosed (hunkLines lines : List JsString) : Prop :=
  ∃ opening closing, trim opening = BEGIN_PATCH_MARKER ∧ trim closing = END_PATCH_MARKER ∧
    lines = opening :: (hunkLines ++ [closing])

inductive Enveloped (hunkLines : List JsString) : List JsString → Prop
  | plain {lines : List JsString} : Enclosed hunkLines lines → Enveloped hunkLines lines
  | hereDocument {start stop : JsString} {lines : List JsString} :
      start = js "<<EOF" ∨ start = js "<<'EOF'" ∨ start = js "<<\"EOF\"" → js "EOF" <:+ stop →
      Enclosed hunkLines lines → Enveloped hunkLines (start :: (lines ++ [stop]))

def SpellsPatch (input : JsString) (hunks : List TextHunk) : Prop :=
  ∃ hunkLines, Enveloped hunkLines (splitLines (trim input)) ∧ SpellsHunks hunks hunkLines

/-! ## What is read from the text -/

def TextChunk.toChunk (chunk : TextChunk) : UpdateFileChunk where
  changeContext := chunk.changeContext
  oldLines := chunk.oldLines
  newLines := chunk.newLines
  isEndOfFile := chunk.isEndOfFile

def TextHunk.toHunk : TextHunk → Hunk
  | .add path lines => .add path (lines.flatMap fun line => line ++ [newline])
  | .delete path => .delete path
  | .update path movePath chunks => .update path movePath (chunks.map TextChunk.toChunk)

/-! ## The lines of a chunk -/

section ChunkLines

variable {lineNumber parsedLines : ℕ} {chunk : UpdateFileChunk}

theorem isChunkLine_cons {marker : CodeUnit} {content : JsString} :
    IsChunkLine (marker :: content) ↔
      marker = unit ' ' ∨ marker = unit '+' ∨ marker = unit '-' := by
  constructor
  · rintro ⟨chunkLine, hspells⟩
    cases hspells with
    | context => exact Or.inl rfl
    | added => exact Or.inr (Or.inl rfl)
    | removed => exact Or.inr (Or.inr rfl)
  · rintro (rfl | rfl | rfl)
    · exact ⟨_, .context content⟩
    · exact ⟨_, .added content⟩
    · exact ⟨_, .removed content⟩

theorem EOF_not_chunkLine : ¬ IsChunkLine EOF_MARKER :=
  fun h => absurd (isChunkLine_cons.mp h) (by decide)

theorem parseChunkLines_marker (rest : List JsString) :
    parseChunkLines lineNumber parsedLines chunk (EOF_MARKER :: rest) =
      if parsedLines = 0 then .error (invalidHunk (lineNumber + 1) noLines)
      else .ok ({ chunk with isEndOfFile := true }, parsedLines + 1) := by
  rw [parseChunkLines.eq_def]
  exact if_pos rfl

/-- A chunk with the lines that were read behind its own. -/
def UpdateFileChunk.extend (chunk : UpdateFileChunk) (lines : List ChunkLine) : UpdateFileChunk :=
  { chunk with
    oldLines := chunk.oldLines ++ lines.filterMap ChunkLine.old
    newLines := chunk.newLines ++ lines.filterMap ChunkLine.new }

theorem UpdateFileChunk.extend_cons (chunk : UpdateFileChunk) (line : ChunkLine)
    (lines : List ChunkLine) : chunk.extend (line :: lines) = (chunk.extend [line]).extend lines := by
  have hsplit : line :: lines = [line] ++ lines := rfl
  simp only [extend, hsplit, List.filterMap_append, List.append_assoc]

theorem parseChunkLines_one {chunkLine : ChunkLine} {line : JsString} (h : chunkLine.Spells line)
    (rest : List JsString) :
    parseChunkLines lineNumber parsedLines chunk (line :: rest) =
      parseChunkLines lineNumber (parsedLines + 1) (chunk.extend [chunkLine]) rest := by
  have hmarker : line ≠ EOF_MARKER := by
    rintro rfl
    exact EOF_not_chunkLine ⟨_, h⟩
  rw [parseChunkLines.eq_def]
  simp only [if_neg hmarker]
  cases h <;> simp [UpdateFileChunk.extend, List.filterMap_cons, ChunkLine.old, ChunkLine.new, unit]

theorem parseChunkLines_body {lines : List ChunkLine} {body : List JsString}
    (h : List.Forall₂ ChunkLine.Spells lines body) (rest : List JsString) :
    parseChunkLines lineNumber parsedLines chunk (body ++ rest) =
      parseChunkLines lineNumber (parsedLines + body.length) (chunk.extend lines) rest := by
  induction h generalizing parsedLines chunk with
  | nil => simp [UpdateFileChunk.extend]
  | cons hline _ ih =>
      rw [List.cons_append, parseChunkLines_one hline, ih, List.length_cons]
      rw [← UpdateFileChunk.extend_cons, Nat.add_right_comm, Nat.add_assoc]

theorem parseChunkLines_other {line : JsString} {rest : List JsString} (hmarker : line ≠ EOF_MARKER)
    (hother : ¬ IsChunkLine line) :
    parseChunkLines lineNumber parsedLines chunk (line :: rest) =
      if parsedLines = 0 then .error (invalidHunk (lineNumber + 1) (unexpectedLine line))
      else .ok (chunk, parsedLines) := by
  rw [parseChunkLines.eq_def]
  simp only [if_neg hmarker]
  cases line with
  | nil => exact absurd ⟨_, .blank⟩ hother
  | cons marker content =>
      rw [isChunkLine_cons, not_or, not_or] at hother
      simp only [hother.1, hother.2.1, hother.2.2, if_false]

/-- What follows the lines of a chunk that has no marker of the end of the file. -/
def Stops (lines : List JsString) : Prop :=
  ∀ line ∈ lines.head?, ¬ IsChunkLine line ∧ line ≠ EOF_MARKER

theorem parseChunkLines_stops {lines : List JsString} (hstops : Stops lines) (hread : parsedLines ≠ 0) :
    parseChunkLines lineNumber parsedLines chunk lines = .ok (chunk, parsedLines) := by
  cases lines with
  | nil => rfl
  | cons line rest =>
      obtain ⟨hother, hmarker⟩ := hstops line rfl
      rw [parseChunkLines_other hmarker hother, if_neg hread]

theorem body_split (lines : List JsString) :
    ∃ chunkLines body rest, lines = body ++ rest ∧ List.Forall₂ ChunkLine.Spells chunkLines body ∧
      ∀ line ∈ rest.head?, ¬ IsChunkLine line := by
  induction lines with
  | nil => exact ⟨[], [], [], rfl, .nil, by simp⟩
  | cons line rest ih =>
      by_cases hline : IsChunkLine line
      · obtain ⟨chunkLine, hspells⟩ := hline
        obtain ⟨chunkLines, body, rest', heq, hbody, hrest⟩ := ih
        exact ⟨chunkLine :: chunkLines, line :: body, rest', by rw [heq]; rfl, .cons hspells hbody, hrest⟩
      · exact ⟨[], [], line :: rest, rfl, .nil, by simpa using hline⟩

theorem parseChunkLines_spelled (lineNumber : ℕ) {lines : List ChunkLine} {body rest : List JsString}
    {isEndOfFile : Bool} (hbody : List.Forall₂ ChunkLine.Spells lines body) (hne : body ≠ [])
    (hstops : isEndOfFile = false → Stops rest) (changeContext : Option JsString) :
    parseChunkLines lineNumber 0 { changeContext } (body ++ (eofLines isEndOfFile ++ rest)) =
      .ok (TextChunk.toChunk ⟨changeContext, lines, isEndOfFile⟩,
        (body ++ eofLines isEndOfFile).length) := by
  have hread : 0 + body.length ≠ 0 := by
    have := List.length_pos_iff.mpr hne
    omega
  rw [parseChunkLines_body hbody]
  cases isEndOfFile with
  | false =>
      rw [eofLines, if_neg Bool.false_ne_true, List.nil_append, List.append_nil,
        parseChunkLines_stops (hstops rfl) hread, Nat.zero_add]
      rfl
  | true =>
      rw [eofLines, if_pos rfl, List.singleton_append, parseChunkLines_marker, if_neg hread,
        List.length_append, Nat.zero_add]
      rfl

theorem parseChunkLines_ok {changeContext : Option JsString} {lines : List JsString}
    {used : ℕ} (h : parseChunkLines lineNumber 0 { changeContext } lines = .ok (chunk, used))
    (hlines : lines ≠ []) :
    ∃ text : TextChunk, ∃ body rest, text.changeContext = changeContext ∧ text.toChunk = chunk ∧
      lines = body ++ eofLines text.isEndOfFile ++ rest ∧
      List.Forall₂ ChunkLine.Spells text.lines body ∧ body ≠ [] ∧
      used = (body ++ eofLines text.isEndOfFile).length ∧
      (text.isEndOfFile = false → Stops rest) := by
  obtain ⟨chunkLines, body, rest, rfl, hbody, hrest⟩ := body_split lines
  by_cases hne : body = []
  · -- the first line ends the chunk, which is an error
    subst hne
    cases rest with
    | nil => exact absurd rfl hlines
    | cons line rest =>
        rw [List.nil_append] at h
        by_cases hmarker : line = EOF_MARKER
        · rw [hmarker, parseChunkLines_marker, if_pos rfl] at h
          exact absurd h (by simp)
        · rw [parseChunkLines_other hmarker (hrest line rfl), if_pos rfl] at h
          exact absurd h (by simp)
  · have hspelled := fun isEndOfFile rest hstops => @parseChunkLines_spelled lineNumber chunkLines body
      rest isEndOfFile hbody hne hstops changeContext
    by_cases hmarker : rest.head? = some EOF_MARKER
    · obtain ⟨line, after, rfl⟩ : ∃ line after, rest = line :: after := by
        cases rest with
        | nil => exact absurd hmarker (by simp)
        | cons line after => exact ⟨line, after, rfl⟩
      obtain rfl : line = EOF_MARKER := Option.some.inj hmarker
      have heq := hspelled true after (by simp)
      rw [eofLines, if_pos rfl, List.singleton_append, h] at heq
      obtain ⟨rfl, rfl⟩ := Prod.mk.inj (Except.ok.inj heq)
      exact ⟨⟨changeContext, chunkLines, true⟩, body, after, rfl, rfl, by simp [eofLines], hbody, hne,
        rfl, by simp⟩
    · have hstops : Stops rest := by
        intro line hline
        refine ⟨hrest line hline, ?_⟩
        rintro rfl
        exact hmarker hline
      have heq := hspelled false rest fun _ => hstops
      rw [eofLines, if_neg Bool.false_ne_true, List.nil_append, h] at heq
      obtain ⟨rfl, rfl⟩ := Prod.mk.inj (Except.ok.inj heq)
      exact ⟨⟨changeContext, chunkLines, false⟩, body, rest, rfl, rfl, by simp [eofLines], hbody, hne,
        rfl, fun _ => hstops⟩

end ChunkLines

/-! ## One chunk -/

/-- These lines begin with a chunk, and `rest` comes after it. -/
structure ChunkBlock (first : Bool) (text : TextChunk) (header body rest lines : List JsString) :
    Prop where
  headed : SpellsHeader first text.changeContext header
  bare : header = [] → ∀ line ∈ body.head?, trim line ≠ []
  spelled : List.Forall₂ ChunkLine.Spells text.lines body
  nonempty : body ≠ []
  stops : text.isEndOfFile = false → Stops rest
  split : lines = header ++ (body ++ (eofLines text.isEndOfFile ++ rest))

theorem trim_cons_ne_nil {u : CodeUnit} (h : isSpace u = false) (rest : JsString) :
    trim (u :: rest) ≠ [] := by
  rw [trim, List.dropWhile_cons_of_neg (by simp [h]), Ne, List.rdropWhile_eq_nil_iff]
  intro hall
  exact absurd (hall u List.mem_cons_self) (by simp [h])

section OneChunk

variable {first : Bool} {line : JsString} {lines header body rest : List JsString} {lineNumber : ℕ}
  {text : TextChunk}

theorem header_cases {changeContext : Option JsString} (h : SpellsHeader first changeContext header) :
    (header = [EMPTY_CHANGE_CONTEXT_MARKER] ∧ changeContext = none) ∨
      (∃ context, header = [CHANGE_CONTEXT_MARKER ++ context] ∧ changeContext = some context) ∨
      header = [] ∧ first = true ∧ changeContext = none := by
  cases h with
  | plain => exact Or.inl ⟨rfl, rfl⟩
  | context _ context => exact Or.inr (Or.inl ⟨context, rfl, rfl⟩)
  | missing => exact Or.inr (Or.inr ⟨rfl, rfl, rfl⟩)

theorem head_spelled {chunkLines : List ChunkLine} (h : List.Forall₂ ChunkLine.Spells chunkLines body)
    (hne : body ≠ []) : ∃ line rest, body = line :: rest ∧ IsChunkLine line := by
  cases h with
  | nil => exact absurd rfl hne
  | cons hline _ => exact ⟨_, _, rfl, _, hline⟩

theorem chunkLine_unmarked {after : JsString} (h : IsChunkLine line) : line ≠ unit '@' :: after := by
  rintro rfl
  exact absurd (isChunkLine_cons.mp h) (by decide)

theorem not_context_of_chunkLine (h : IsChunkLine line) :
    line ≠ EMPTY_CHANGE_CONTEXT_MARKER ∧ ¬ CHANGE_CONTEXT_MARKER.isPrefixOf line = true := by
  refine ⟨chunkLine_unmarked h, fun hstarts => ?_⟩
  obtain ⟨after, hafter⟩ := List.isPrefixOf_iff_prefix.mp hstarts
  exact chunkLine_unmarked h hafter.symm

theorem context_ne_plain (context : JsString) :
    CHANGE_CONTEXT_MARKER ++ context ≠ EMPTY_CHANGE_CONTEXT_MARKER := by
  intro heq
  exact absurd (congrArg List.length heq) (by
    simp [CHANGE_CONTEXT_MARKER, EMPTY_CHANGE_CONTEXT_MARKER, js])

theorem context_starts (context : JsString) :
    CHANGE_CONTEXT_MARKER.isPrefixOf (CHANGE_CONTEXT_MARKER ++ context) = true :=
  List.isPrefixOf_iff_prefix.mpr (List.prefix_append _ _)

theorem parseUpdateFileChunk_block (h : ChunkBlock first text header body rest (line :: lines)) :
    parseUpdateFileChunk line lines lineNumber first =
      .ok (text.toChunk, (header ++ (body ++ eofLines text.isEndOfFile)).length) := by
  have hlines := parseChunkLines_spelled lineNumber h.spelled h.nonempty h.stops text.changeContext
  have hsplit := h.split
  have hne : body ++ (eofLines text.isEndOfFile ++ rest) ≠ [] := by
    intro hnil
    exact h.nonempty (List.append_eq_nil_iff.mp hnil).1
  have hafter : (if lines = [] then .error (invalidHunk (lineNumber + 1) noLines)
      else (parseChunkLines lineNumber 0 { changeContext := text.changeContext } lines).map fun parsed =>
        (parsed.1, parsed.2 + 1)) = parseUpdateFileChunk line lines lineNumber first →
      lines = body ++ (eofLines text.isEndOfFile ++ rest) →
      parseUpdateFileChunk line lines lineNumber first =
        .ok (text.toChunk, (body ++ eofLines text.isEndOfFile).length + 1) := by
    intro hheaded hrest
    rw [← hheaded, hrest, if_neg hne, hlines]
    rfl
  rw [parseUpdateFileChunk] at hafter ⊢
  rcases header_cases h.headed with ⟨rfl, hcontext⟩ | ⟨context, rfl, hcontext⟩ | ⟨rfl, rfl, hcontext⟩
  · obtain ⟨rfl, hrest⟩ := List.cons.inj hsplit
    refine hafter ?_ hrest
    rw [if_pos rfl, hcontext]
  · obtain ⟨rfl, hrest⟩ := List.cons.inj hsplit
    refine hafter ?_ hrest
    rw [if_neg (context_ne_plain context), if_pos (context_starts context), List.drop_left, hcontext]
  · obtain ⟨headLine, others, rfl, hchunkLine⟩ := head_spelled h.spelled h.nonempty
    obtain ⟨rfl, -⟩ := List.cons.inj hsplit
    obtain ⟨hplain, hstarts⟩ := not_context_of_chunkLine hchunkLine
    rw [hcontext] at hlines
    rw [if_neg hplain, if_neg hstarts, if_neg (by simp), hsplit, List.nil_append, hlines, List.nil_append,
      ← hcontext]

theorem parseUpdateFileChunk_ok {chunk : UpdateFileChunk} {used : ℕ} (hline : trim line ≠ [])
    (h : parseUpdateFileChunk line lines lineNumber first = .ok (chunk, used)) :
    ∃ text header body rest, ChunkBlock first text header body rest (line :: lines) ∧
      text.toChunk = chunk ∧ used = (header ++ (body ++ eofLines text.isEndOfFile)).length := by
  have hafter : ∀ changeContext, SpellsHeader first changeContext [line] →
      (if lines = [] then .error (invalidHunk (lineNumber + 1) noLines)
        else (parseChunkLines lineNumber 0 { changeContext } lines).map fun parsed =>
          (parsed.1, parsed.2 + 1)) = Except.ok (chunk, used) →
      ∃ text header body rest, ChunkBlock first text header body rest (line :: lines) ∧
        text.toChunk = chunk ∧ used = (header ++ (body ++ eofLines text.isEndOfFile)).length := by
    intro changeContext hheader hparsed
    split at hparsed
    · exact absurd hparsed (by simp)
    · rename_i hne
      cases hlines : parseChunkLines lineNumber 0 { changeContext } lines with
      | error err =>
          rw [hlines] at hparsed
          exact absurd hparsed (by simp [Except.map])
      | ok read =>
          rw [hlines] at hparsed
          obtain ⟨rfl, rfl⟩ := Prod.mk.inj (Except.ok.inj hparsed)
          obtain ⟨text, body, rest, rfl, htext, hsplit, hbody, hbodyNe, hused, hstops⟩ :=
            parseChunkLines_ok hlines hne
          refine ⟨text, [line], body, rest, ⟨hheader, by simp, hbody, hbodyNe, hstops, ?_⟩, htext, ?_⟩
          · rw [hsplit, List.append_assoc]
            rfl
          · rw [hused]
            rfl
  rw [parseUpdateFileChunk] at h
  split at h
  · rename_i hplain
    exact hafter none (hplain ▸ .plain first) h
  · split at h
    · rename_i hstarts
      obtain ⟨context, hcontext⟩ := List.isPrefixOf_iff_prefix.mp hstarts
      refine hafter (some context) (hcontext ▸ .context first context) ?_
      rw [← hcontext, List.drop_left] at h
      exact h
    · split at h
      · exact absurd h (by simp)
      · rename_i hfirst
        rw [Bool.not_eq_false] at hfirst
        obtain ⟨text, body, rest, hcontext, htext, hsplit, hbody, hne, hused, hstops⟩ :=
          parseChunkLines_ok h (by simp)
        refine ⟨text, [], body, rest, ⟨?_, ?_, hbody, hne, hstops, ?_⟩, htext, hused⟩
        · rw [hcontext, hfirst]
          exact .missing
        · intro _ headLine hhead
          obtain ⟨_, _, rfl, -⟩ := head_spelled hbody hne
          obtain ⟨rfl, -⟩ := List.cons.inj hsplit
          rw [← Option.some.inj hhead]
          exact hline
        · rw [hsplit, List.append_assoc]
          rfl

end OneChunk

/-! ## The chunks of an update -/

section Chunks

variable {lineNumber : ℕ}

theorem parseChunks_skip (consumed : ℕ) (parsed : List UpdateFileChunk) (taken rest : List JsString) :
    parseChunks lineNumber taken.length consumed parsed (taken ++ rest) =
      parseChunks lineNumber 0 (consumed + taken.length) parsed rest := by
  induction taken generalizing consumed with
  | nil => rfl
  | cons line taken ih =>
      rw [List.length_cons, List.cons_append, parseChunks, ih, Nat.add_assoc, Nat.add_comm 1]

theorem parseChunks_blank {consumed : ℕ} {parsed : List UpdateFileChunk} {line : JsString}
    {lines : List JsString} (hline : trim line = []) :
    parseChunks lineNumber 0 consumed parsed (line :: lines) =
      parseChunks lineNumber 0 (consumed + 1) parsed lines := by
  rw [parseChunks, if_pos hline]

theorem not_stars_of_cons {u : CodeUnit} (h : u ≠ unit '*') (rest : JsString) :
    ¬ (js "***").isPrefixOf (u :: rest) = true := by
  intro hstarts
  obtain ⟨after, hafter⟩ := List.isPrefixOf_iff_prefix.mp hstarts
  have hcons : js "***" ++ after = unit '*' :: (js "**" ++ after) := rfl
  exact h (List.cons.inj (hcons.symm.trans hafter)).1.symm

theorem not_stars_of_chunkLine {line : JsString} (h : IsChunkLine line) :
    ¬ (js "***").isPrefixOf line = true := by
  cases line with
  | nil => exact Bool.false_ne_true
  | cons marker content =>
      refine not_stars_of_cons ?_ content
      rintro rfl
      exact absurd (isChunkLine_cons.mp h) (by decide)

theorem ChunkBlock.begins {first : Bool} {text : TextChunk} {header body rest lines : List JsString}
    {line : JsString} (h : ChunkBlock first text header body rest (line :: lines)) :
    trim line ≠ [] ∧ ¬ (js "***").isPrefixOf line = true := by
  have hmarked : ∀ after, line = unit '@' :: after →
      trim line ≠ [] ∧ ¬ (js "***").isPrefixOf line = true := by
    rintro after rfl
    exact ⟨trim_cons_ne_nil (by decide) after, not_stars_of_cons (by decide) after⟩
  have hsplit := h.split
  rcases header_cases h.headed with ⟨rfl, -⟩ | ⟨context, rfl, -⟩ | ⟨rfl, -, -⟩
  · exact hmarked _ (List.cons.inj hsplit).1
  · exact hmarked _ (List.cons.inj hsplit).1
  · obtain ⟨headLine, others, rfl, hchunkLine⟩ := head_spelled h.spelled h.nonempty
    obtain ⟨rfl, -⟩ := List.cons.inj hsplit
    exact ⟨h.bare rfl line rfl, not_stars_of_chunkLine hchunkLine⟩

theorem parseChunks_block {consumed : ℕ} {parsed : List UpdateFileChunk} {text : TextChunk}
    {header body rest lines : List JsString}
    (h : ChunkBlock parsed.isEmpty text header body rest lines) :
    parseChunks lineNumber 0 consumed parsed lines =
      parseChunks lineNumber 0
        (consumed + (header ++ (body ++ eofLines text.isEndOfFile)).length)
        (parsed ++ [text.toChunk]) rest := by
  have hne : header ++ (body ++ eofLines text.isEndOfFile) ≠ [] := by
    intro hnil
    exact h.nonempty (List.append_eq_nil_iff.mp (List.append_eq_nil_iff.mp hnil).2).1
  obtain ⟨line, taken, htaken⟩ := List.exists_cons_of_ne_nil hne
  have hlines : lines = line :: (taken ++ rest) := by
    rw [h.split, ← List.append_assoc body, ← List.append_assoc header, htaken]
    rfl
  rw [hlines] at h ⊢
  obtain ⟨hblank, hstars⟩ := h.begins
  rw [parseChunks, if_neg hblank, if_neg hstars, parseUpdateFileChunk_block h, htaken]
  simp only [List.length_cons, Nat.add_sub_cancel]
  rw [parseChunks_skip, Nat.add_assoc, Nat.add_comm 1]

/-- What may follow the chunks of an update. -/
def EndsUpdate (lines : List JsString) : Prop :=
  ∀ line ∈ lines.head?, js "***" <+: line ∧ line ≠ EOF_MARKER

theorem EndsUpdate.stops {lines : List JsString} (h : EndsUpdate lines) : Stops lines := by
  intro line hline
  refine ⟨?_, (h line hline).2⟩
  intro hchunkLine
  exact not_stars_of_chunkLine hchunkLine (List.isPrefixOf_iff_prefix.mpr (h line hline).1)

theorem parseChunks_end {consumed : ℕ} {parsed : List UpdateFileChunk} {lines : List JsString}
    (h : EndsUpdate lines) :
    parseChunks lineNumber 0 consumed parsed lines = .ok (parsed, consumed) := by
  cases lines with
  | nil => rfl
  | cons line rest =>
      have hstars := (h line rfl).1
      have hblank : trim line ≠ [] := by
        obtain ⟨after, rfl⟩ := hstars
        exact trim_cons_ne_nil (by decide) _
      rw [parseChunks, if_neg hblank, if_pos (List.isPrefixOf_iff_prefix.mpr hstars)]

theorem SpellsChunks.stops {first : Bool} {texts : List TextChunk} {lines rest : List JsString}
    (h : SpellsChunks first true texts lines) (hfirst : first = false) (hrest : EndsUpdate rest) :
    Stops (lines ++ rest) := by
  cases h with
  | done => exact hrest.stops
  | blank hline hother _ =>
      intro line hhead
      obtain rfl := Option.some.inj hhead
      refine ⟨hother rfl, ?_⟩
      rintro rfl
      exact absurd hline (by decide)
  | chunk hheader _ _ _ _ =>
      intro line hhead
      rcases header_cases hheader with ⟨rfl, -⟩ | ⟨context, rfl, -⟩ | ⟨-, hmissing, -⟩
      · obtain rfl := Option.some.inj hhead
        exact ⟨fun hchunkLine => chunkLine_unmarked hchunkLine rfl, by decide⟩
      · obtain rfl := Option.some.inj hhead
        refine ⟨fun hchunkLine => chunkLine_unmarked hchunkLine rfl, ?_⟩
        intro heq
        exact absurd (List.cons.inj heq).1 (by decide)
      · rw [hfirst] at hmissing
        exact absurd hmissing Bool.false_ne_true

theorem parseChunks_spelled {first inside : Bool} {texts : List TextChunk} {lines rest : List JsString}
    (h : SpellsChunks first inside texts lines) (hrest : EndsUpdate rest) (consumed : ℕ)
    (parsed : List UpdateFileChunk) (hfirst : first = parsed.isEmpty) :
    parseChunks lineNumber 0 consumed parsed (lines ++ rest) =
      .ok (parsed ++ texts.map TextChunk.toChunk, consumed + lines.length) := by
  induction h generalizing consumed parsed with
  | done => simpa using parseChunks_end hrest
  | blank hline _ _ ih =>
      rw [List.cons_append, parseChunks_blank hline, ih _ _ hfirst, List.length_cons]
      simp only [Nat.add_assoc, Nat.add_comm 1]
  | @chunk first inside text texts header body lines hheader hbare hbody hne hlines ih =>
      have hblock : ChunkBlock parsed.isEmpty text header body (lines ++ rest)
          (header ++ body ++ eofLines text.isEndOfFile ++ lines ++ rest) := by
        refine ⟨hfirst ▸ hheader, hbare, hbody, hne, ?_, by simp only [List.append_assoc]⟩
        intro heof
        rw [heof] at hlines
        exact hlines.stops rfl hrest
      rw [parseChunks_block hblock, ih _ _ (by simp)]
      simp only [List.append_assoc, List.singleton_append, List.map_cons, List.length_append,
        Nat.add_assoc]

theorem parseChunks_ok {inside : Bool} {consumed used : ℕ} {parsed chunks : List UpdateFileChunk}
    {lines : List JsString} (h : parseChunks lineNumber 0 consumed parsed lines = .ok (chunks, used))
    (hinside : inside = true → ∀ line ∈ lines.head?, ¬ IsChunkLine line) :
    ∃ texts read rest, lines = read ++ rest ∧ SpellsChunks parsed.isEmpty inside texts read ∧
      chunks = parsed ++ texts.map TextChunk.toChunk ∧ used = consumed + read.length ∧
      ∀ next ∈ rest.head?, js "***" <+: next := by
  induction hlength : lines.length using Nat.strong_induction_on
    generalizing inside consumed parsed lines with
  | _ length ih =>
    cases lines with
    | nil =>
        obtain ⟨rfl, rfl⟩ := Prod.mk.inj (Except.ok.inj h)
        exact ⟨[], [], [], rfl, .done _ _, by simp, rfl, by simp⟩
    | cons line after =>
        by_cases hblank : trim line = []
        · rw [parseChunks_blank hblank] at h
          obtain ⟨texts, read, rest, rfl, hspells, hchunks, hused, hrest⟩ :=
            ih after.length (by simp [← hlength]) h (fun hopen => absurd hopen Bool.false_ne_true) rfl
          refine ⟨texts, line :: read, rest, rfl, .blank hblank (fun hin => hinside hin line rfl) hspells,
            hchunks, ?_, hrest⟩
          rw [hused, List.length_cons]
          omega
        · by_cases hstars : (js "***").isPrefixOf line = true
          · rw [parseChunks, if_neg hblank, if_pos hstars] at h
            obtain ⟨rfl, rfl⟩ := Prod.mk.inj (Except.ok.inj h)
            refine ⟨[], [], line :: after, rfl, .done _ _, by simp, rfl, ?_⟩
            intro next hnext
            rw [← Option.some.inj hnext]
            exact List.isPrefixOf_iff_prefix.mp hstars
          · cases hparse : parseUpdateFileChunk line after (lineNumber + consumed) parsed.isEmpty with
            | error err =>
                rw [parseChunks, if_neg hblank, if_neg hstars, hparse] at h
                exact absurd h (by simp)
            | ok read =>
                obtain ⟨text, header, body, rest, hblock, -, -⟩ := parseUpdateFileChunk_ok hblank hparse
                rw [parseChunks_block hblock] at h
                have hshorter : rest.length < length := by
                  have hsplit := congrArg List.length hblock.split
                  have hbody := List.length_pos_iff.mpr hblock.nonempty
                  simp only [List.length_append] at hsplit
                  omega
                have hstops : (!text.isEndOfFile) = true → ∀ next ∈ rest.head?, ¬ IsChunkLine next := by
                  intro hopen next hnext
                  exact (hblock.stops (by simpa using hopen) next hnext).1
                obtain ⟨texts, read, rest', rfl, hspells, hchunks, hused, hrest⟩ :=
                  ih rest.length hshorter h hstops rfl
                refine ⟨text :: texts, header ++ body ++ eofLines text.isEndOfFile ++ read, rest', ?_,
                  .chunk hblock.headed hblock.bare hblock.spelled hblock.nonempty ?_, ?_, ?_, hrest⟩
                · rw [hblock.split]
                  simp only [List.append_assoc]
                · have hlater : (parsed ++ [text.toChunk]).isEmpty = false := by simp
                  rwa [hlater] at hspells
                · rw [hchunks]
                  simp
                · rw [hused]
                  simp only [List.length_append]
                  omega

end Chunks

/-! ## Hunks -/

def IsHunkHeader (line : JsString) : Prop :=
  ∃ marker ∈ [ADD_FILE_MARKER, DELETE_FILE_MARKER, UPDATE_FILE_MARKER], marker <+: trim line

theorem trim_cons {u : CodeUnit} (h : isSpace u = false) (rest : JsString) :
    (trim (u :: rest)).head? = some u := by
  have hstarts : trim (u :: rest) <+: u :: rest := by
    rw [trim, List.dropWhile_cons_of_neg (by simp [h])]
    exact List.rdropWhile_prefix _ _
  obtain ⟨v, after, htrim⟩ := List.exists_cons_of_ne_nil (trim_cons_ne_nil h rest)
  obtain ⟨tail, htail⟩ := hstarts
  rw [htrim] at htail ⊢
  rw [(List.cons.inj htail).1]
  rfl

theorem IsHunkHeader.head {line : JsString} (h : IsHunkHeader line) :
    (trim line).head? = some (unit '*') := by
  obtain ⟨marker, hmarker, after, hafter⟩ := h
  simp only [List.mem_cons, List.not_mem_nil, or_false] at hmarker
  rcases hmarker with rfl | rfl | rfl <;> (rw [← hafter]; rfl)

theorem IsHunkHeader.not_added {line : JsString} (h : IsHunkHeader line) :
    line.head? ≠ some (unit '+') := by
  intro hplus
  obtain ⟨rest, rfl⟩ := List.head?_eq_some_iff.mp hplus
  have hhead := trim_cons (show isSpace (unit '+') = false by decide) rest
  rw [h.head] at hhead
  exact absurd hhead (by decide)

theorem IsHunkHeader.not_marker {line : JsString} (h : IsHunkHeader line) : line ≠ EOF_MARKER := by
  rintro rfl
  obtain ⟨marker, hmarker, hstarts⟩ := h
  revert marker
  decide

theorem SpellsHunks.headed {hunks : List TextHunk} {lines : List JsString} (h : SpellsHunks hunks lines) :
    ∀ line ∈ lines.head?, IsHunkHeader line := by
  have hfound : ∀ marker ∈ [ADD_FILE_MARKER, DELETE_FILE_MARKER, UPDATE_FILE_MARKER],
      ∀ path line, trim line = marker ++ path → IsHunkHeader line := by
    intro marker hmarker path line hline
    exact ⟨marker, hmarker, hline ▸ List.prefix_append _ _⟩
  intro line hhead
  cases h with
  | done => exact absurd hhead (by simp)
  | add hline _ => exact hfound _ (by simp) _ _ (Option.some.inj hhead ▸ hline)
  | delete hline _ => exact hfound _ (by simp) _ _ (Option.some.inj hhead ▸ hline)
  | update hline => exact hfound _ (by simp) _ _ (Option.some.inj hhead ▸ hline)

section Hunks

variable {lineNumber : ℕ} {line path : JsString} {lines : List JsString}

theorem drop_marker {marker path text : JsString} (h : text = marker ++ path) :
    marker.isPrefixOf text = true ∧ text.drop marker.length = path := by
  rw [h]
  exact ⟨List.isPrefixOf_iff_prefix.mpr (List.prefix_append _ _), List.drop_left⟩

theorem takeWhile_added (added : List JsString)
    (hrest : ∀ next ∈ lines.head?, next.head? ≠ some (unit '+')) :
    (added.map (unit '+' :: ·) ++ lines).takeWhile (fun addLine => addLine.head? = some (unit '+')) =
      added.map (unit '+' :: ·) := by
  rw [List.takeWhile_append_of_pos (by simp)]
  cases lines with
  | nil => simp
  | cons next lines => simp [hrest next rfl]

theorem added_of_takeWhile (lines : List JsString) :
    ((lines.takeWhile fun addLine => addLine.head? = some (unit '+')).map List.tail).map
      (unit '+' :: ·) = lines.takeWhile fun addLine => addLine.head? = some (unit '+') := by
  conv_rhs => rw [← List.map_id (lines.takeWhile _)]
  rw [List.map_map]
  apply List.map_congr_left
  intro addLine hmem
  have hplus := List.mem_takeWhile_imp hmem
  obtain ⟨rest, rfl⟩ := List.head?_eq_some_iff.mp (of_decide_eq_true hplus)
  rfl

theorem parseOneHunk_add {added : List JsString} (hline : trim line = ADD_FILE_MARKER ++ path)
    (hrest : ∀ next ∈ lines.head?, next.head? ≠ some (unit '+')) :
    parseOneHunk line (added.map (unit '+' :: ·) ++ lines) lineNumber =
      .ok (TextHunk.toHunk (.add path added), (added.map (unit '+' :: ·)).length + 1) := by
  obtain ⟨hstarts, hdrop⟩ := drop_marker hline
  rw [parseOneHunk, if_pos hstarts, hdrop, takeWhile_added added hrest]
  simp [TextHunk.toHunk, List.flatMap_map]

theorem parseOneHunk_delete (hline : trim line = DELETE_FILE_MARKER ++ path) :
    parseOneHunk line lines lineNumber = .ok (TextHunk.toHunk (.delete path), 1) := by
  obtain ⟨hstarts, hdrop⟩ := drop_marker hline
  have hadd : ¬ ADD_FILE_MARKER.isPrefixOf (trim line) = true := by
    rw [hline]
    exact Bool.false_ne_true
  rw [parseOneHunk, if_neg hadd, if_pos hstarts, hdrop]
  rfl

theorem SpellsChunks.lines_ne_nil {first inside : Bool} {chunks : List TextChunk}
    (h : SpellsChunks first inside chunks lines) (hne : chunks ≠ []) : lines ≠ [] := by
  cases h with
  | done => exact absurd rfl hne
  | blank => simp
  | chunk _ _ _ hbody _ => simp [hbody]

theorem movePath_read {movePath : Option JsString} {moveLines rest : List JsString}
    (hmove : SpellsMove movePath moveLines)
    (hstay : movePath = none → ∀ next ∈ rest.head?, ¬ MOVE_TO_MARKER <+: trim next) :
    (((moveLines ++ rest).head?.map trim).bind fun moveCandidate =>
      if MOVE_TO_MARKER.isPrefixOf moveCandidate then
        some (moveCandidate.drop MOVE_TO_MARKER.length)
      else none) = movePath ∧ (if movePath.isSome = true then 2 else 1) = moveLines.length + 1 := by
  cases hmove with
  | stay =>
      refine ⟨?_, rfl⟩
      rw [List.nil_append]
      cases hhead : rest.head? with
      | none => rfl
      | some next =>
          rw [Option.map_some, Option.bind_some, if_neg]
          rw [List.isPrefixOf_iff_prefix]
          exact hstay rfl next hhead
  | move hto =>
      obtain ⟨hstarts, hdrop⟩ := drop_marker hto
      refine ⟨?_, rfl⟩
      rw [List.singleton_append, List.head?_cons, Option.map_some, Option.bind_some, if_pos hstarts, hdrop]

theorem move_split (lines : List JsString) : ∃ movePath moveLines rest, SpellsMove movePath moveLines ∧
    lines = moveLines ++ rest ∧
      (movePath = none → ∀ next ∈ rest.head?, ¬ MOVE_TO_MARKER <+: trim next) := by
  cases lines with
  | nil => exact ⟨none, [], [], .stay, rfl, by simp⟩
  | cons line rest =>
      by_cases hstarts : MOVE_TO_MARKER <+: trim line
      · obtain ⟨path, hpath⟩ := hstarts
        exact ⟨some path, [line], rest, .move hpath.symm, rfl, by simp⟩
      · refine ⟨none, [], line :: rest, .stay, rfl, ?_⟩
        intro _ next hnext
        rwa [← Option.some.inj hnext]

theorem parseOneHunk_update {movePath : Option JsString} {moveLines chunkLines : List JsString}
    {chunks : List TextChunk} (hline : trim line = UPDATE_FILE_MARKER ++ path)
    (hmove : SpellsMove movePath moveLines)
    (hstay : movePath = none → ∀ next ∈ chunkLines.head?, ¬ MOVE_TO_MARKER <+: trim next)
    (hchunks : SpellsChunks true false chunks chunkLines) (hne : chunks ≠ []) (hrest : EndsUpdate lines) :
    parseOneHunk line (moveLines ++ (chunkLines ++ lines)) lineNumber =
      .ok (TextHunk.toHunk (.update path movePath chunks), (moveLines ++ chunkLines).length + 1) := by
  obtain ⟨hstarts, hdrop⟩ := drop_marker hline
  have hadd : ¬ ADD_FILE_MARKER.isPrefixOf (trim line) = true := by
    rw [hline]
    exact Bool.false_ne_true
  have hdelete : ¬ DELETE_FILE_MARKER.isPrefixOf (trim line) = true := by
    rw [hline]
    exact Bool.false_ne_true
  have hlength : ¬ (chunks.map TextChunk.toChunk).length = 0 := by
    simpa using hne
  have hhead : (chunkLines ++ lines).head? = chunkLines.head? := by
    obtain ⟨next, others, rfl⟩ := List.exists_cons_of_ne_nil (hchunks.lines_ne_nil hne)
    rfl
  obtain ⟨hpath, hheader⟩ := @movePath_read movePath moveLines (chunkLines ++ lines) hmove (by rwa [hhead])
  have hread : parseChunks lineNumber 0 (moveLines.length + 1) [] (chunkLines ++ lines) = _ :=
    parseChunks_spelled hchunks hrest _ [] rfl
  rw [parseOneHunk, if_neg hadd, if_neg hdelete, if_pos hstarts, hdrop]
  simp only [hpath, hheader, Nat.add_sub_cancel, List.drop_left, hread, List.nil_append, if_neg hlength]
  rw [List.length_append, Nat.add_right_comm]
  rfl

theorem parseOneHunk_ok {hunk : Hunk} {used : ℕ} (h : parseOneHunk line lines lineNumber = .ok (hunk, used)) :
    ∃ text : TextHunk, ∃ taken rest, lines = taken ++ rest ∧ used = taken.length + 1 ∧ text.toHunk = hunk ∧
      ∀ hunks, SpellsHunks hunks rest → SpellsHunks (text :: hunks) (line :: lines) := by
  rw [parseOneHunk] at h
  split at h
  · rename_i hstarts
    obtain ⟨path, hpath⟩ := List.isPrefixOf_iff_prefix.mp hstarts
    obtain ⟨rfl, rfl⟩ := Prod.mk.inj (Except.ok.inj h)
    have hsplit := List.takeWhile_append_dropWhile (p := fun addLine : JsString =>
      addLine.head? = some (unit '+')) (l := lines)
    refine ⟨.add path ((lines.takeWhile fun addLine => addLine.head? = some (unit '+')).map List.tail),
      lines.takeWhile fun addLine => addLine.head? = some (unit '+'),
      lines.dropWhile fun addLine => addLine.head? = some (unit '+'), hsplit.symm, rfl, ?_, ?_⟩
    · rw [← hpath, List.drop_left, TextHunk.toHunk, List.flatMap_map]
    · intro hunks hrest
      have hadded := @SpellsHunks.add path line
        ((lines.takeWhile fun addLine => addLine.head? = some (unit '+')).map List.tail) _ hunks
        hpath.symm hrest
      rwa [added_of_takeWhile, hsplit] at hadded
  · split at h
    · rename_i hstarts
      obtain ⟨path, hpath⟩ := List.isPrefixOf_iff_prefix.mp hstarts
      obtain ⟨rfl, rfl⟩ := Prod.mk.inj (Except.ok.inj h)
      refine ⟨.delete path, [], lines, rfl, rfl, ?_, fun hunks hrest => .delete hpath.symm hrest⟩
      rw [← hpath, List.drop_left]
      rfl
    · split at h
      · rename_i hstarts
        obtain ⟨path, hpath⟩ := List.isPrefixOf_iff_prefix.mp hstarts
        obtain ⟨movePath, moveLines, after, hmove, rfl, hstay⟩ := move_split lines
        obtain ⟨hmovePath, hheader⟩ := movePath_read hmove hstay
        simp only [hmovePath, hheader, Nat.add_sub_cancel, List.drop_left] at h
        cases hchunks : parseChunks lineNumber 0 (moveLines.length + 1) [] after with
        | error err =>
            rw [hchunks] at h
            exact absurd h (by simp)
        | ok read =>
            obtain ⟨texts, chunkLines, rest, rfl, hspells, hread, hused, hends⟩ :=
              parseChunks_ok hchunks fun hopen => absurd hopen Bool.false_ne_true
            simp only [hchunks] at h
            split at h
            · exact absurd h (by simp)
            · rename_i hlength
              have hne : texts ≠ [] := by
                rintro rfl
                exact hlength (by rw [hread]; rfl)
              obtain ⟨rfl, rfl⟩ := Prod.mk.inj (Except.ok.inj h)
              refine ⟨.update path movePath texts, moveLines ++ chunkLines, rest,
                by rw [List.append_assoc], ?_, ?_, ?_⟩
              · rw [hused, List.length_append, Nat.add_right_comm]
              · rw [hread, ← hpath, List.drop_left]
                rfl
              · intro hunks hrest
                refine .update hpath.symm hmove ?_ hspells hne hends hrest
                intro hnone next hnext
                obtain ⟨_, _, rfl⟩ := List.exists_cons_of_ne_nil (hspells.lines_ne_nil hne)
                exact hstay hnone next hnext
      · exact absurd h (by simp)

theorem parseHunks_skip (taken rest : List JsString) (number : ℕ) :
    parseHunks taken.length number (taken ++ rest) = parseHunks 0 (number + taken.length) rest := by
  induction taken generalizing number with
  | nil => rfl
  | cons line taken ih =>
      rw [List.length_cons, List.cons_append, parseHunks, ih, Nat.add_assoc, Nat.add_comm 1]

theorem parseHunks_one {hunk : Hunk} {taken rest : List JsString}
    (h : parseOneHunk line (taken ++ rest) lineNumber = .ok (hunk, taken.length + 1)) :
    parseHunks 0 lineNumber (line :: (taken ++ rest)) =
      (parseHunks 0 (lineNumber + (taken.length + 1)) rest).map fun hunks => hunk :: hunks := by
  rw [parseHunks, h]
  simp only [Nat.add_sub_cancel]
  rw [parseHunks_skip, Nat.add_assoc, Nat.add_comm 1]

theorem parseHunks_spelled {texts : List TextHunk} (h : SpellsHunks texts lines) (number : ℕ) :
    parseHunks 0 number lines = .ok (texts.map TextHunk.toHunk) := by
  induction h generalizing number with
  | done => rfl
  | add hline hrest ih =>
      rw [parseHunks_one (parseOneHunk_add hline fun next hnext => (hrest.headed next hnext).not_added), ih]
      rfl
  | @delete path line lines hunks hline hrest ih =>
      have hone := @parseHunks_one number line _ [] lines (parseOneHunk_delete hline)
      rw [List.nil_append] at hone
      rw [hone, ih]
      rfl
  | @update path line movePath moveLines chunkLines lines chunks hunks hline hmove hstay hchunks hne hends
      hrest ih =>
      have hrest' : EndsUpdate lines := fun next hnext =>
        ⟨hends next hnext, (hrest.headed next hnext).not_marker⟩
      have hone := @parseHunks_one number line _ (moveLines ++ chunkLines) lines (by
        rw [List.append_assoc]
        exact parseOneHunk_update hline hmove hstay hchunks hne hrest')
      rw [List.append_assoc] at hone
      rw [hone, ih]
      rfl

theorem parseHunks_ok {hunks : List Hunk} (h : parseHunks 0 lineNumber lines = .ok hunks) :
    ∃ texts : List TextHunk, SpellsHunks texts lines ∧ texts.map TextHunk.toHunk = hunks := by
  induction hlength : lines.length using Nat.strong_induction_on
    generalizing lineNumber lines hunks with
  | _ length ih =>
    cases lines with
    | nil => exact ⟨[], .done, by rw [← Except.ok.inj h]; rfl⟩
    | cons line after =>
        cases hparse : parseOneHunk line after lineNumber with
        | error err =>
            rw [parseHunks, hparse] at h
            exact absurd h (by simp)
        | ok read =>
            obtain ⟨text, taken, rest, rfl, hused, htext, hspells⟩ := parseOneHunk_ok hparse
            have hone : parseOneHunk line (taken ++ rest) lineNumber = .ok (read.1, taken.length + 1) := by
              rw [hparse, ← hused]
            rw [parseHunks_one hone] at h
            cases hrest : parseHunks 0 (lineNumber + (taken.length + 1)) rest with
            | error err =>
                rw [hrest] at h
                exact absurd h (by simp [Except.map])
            | ok others =>
                rw [hrest] at h
                have hshorter : rest.length < length := by
                  rw [← hlength, List.length_cons, List.length_append]
                  omega
                obtain ⟨texts, hothers, hmap⟩ := ih rest.length hshorter hrest rfl
                refine ⟨text :: texts, hspells texts hothers, ?_⟩
                rw [← Except.ok.inj h, List.map_cons, hmap, htext]

end Hunks

/-! ## The envelope -/

section Envelope

variable {lines hunkLines : List JsString}

theorem checkStrict_none_iff :
    checkPatchBoundariesStrict lines = none ↔
      lines.head?.map trim = some BEGIN_PATCH_MARKER ∧ lines.getLast?.map trim = some END_PATCH_MARKER := by
  rw [checkPatchBoundariesStrict]
  split
  · rename_i hboth
    simpa using hboth
  · rename_i hnot
    split <;> simpa using hnot

theorem Enclosed.strict (h : Enclosed hunkLines lines) :
    checkPatchBoundariesStrict lines = none ∧ lines.tail.dropLast = hunkLines ∧ 2 ≤ lines.length := by
  obtain ⟨opening, closing, hopening, hclosing, rfl⟩ := h
  refine ⟨checkStrict_none_iff.mpr ⟨by rw [List.head?_cons, Option.map_some, hopening], ?_⟩, ?_, ?_⟩
  · rw [← List.cons_append, List.getLast?_concat, Option.map_some, hclosing]
  · rw [List.tail_cons, List.dropLast_concat]
  · rw [List.length_cons, List.length_append, List.length_singleton]
    omega

theorem enclosed_of_strict (h : checkPatchBoundariesStrict lines = none) :
    Enclosed lines.tail.dropLast lines := by
  obtain ⟨hhead, hlast⟩ := checkStrict_none_iff.mp h
  cases lines with
  | nil => exact absurd hhead (by simp)
  | cons opening rest =>
      have hopening : trim opening = BEGIN_PATCH_MARKER := Option.some.inj hhead
      rcases List.eq_nil_or_concat rest with rfl | ⟨inner, closing, rfl⟩
      · have hclosing : trim opening = END_PATCH_MARKER := Option.some.inj hlast
        rw [hopening] at hclosing
        exact absurd hclosing (by decide)
      · rw [List.concat_eq_append] at hlast ⊢
        rw [← List.cons_append, List.getLast?_concat] at hlast
        refine ⟨opening, closing, hopening, Option.some.inj hlast, ?_⟩
        rw [List.tail_cons, List.dropLast_concat]

theorem Enveloped.lenient (h : Enveloped hunkLines lines) :
    ∃ validated, checkPatchBoundariesLenient lines = .ok validated ∧
      validated.tail.dropLast = hunkLines := by
  cases h with
  | plain hlines =>
      obtain ⟨hstrict, hinner, -⟩ := hlines.strict
      exact ⟨lines, by rw [checkPatchBoundariesLenient, hstrict], hinner⟩
  | @hereDocument start stop inner hstart hstop hlines =>
      obtain ⟨hstrict, hinner, hlength⟩ := hlines.strict
      refine ⟨inner, ?_, hinner⟩
      have hopen : trim start ≠ BEGIN_PATCH_MARKER := by
        rcases hstart with rfl | rfl | rfl <;> decide
      cases hfail : checkPatchBoundariesStrict (start :: (inner ++ [stop])) with
      | none => exact absurd (Option.some.inj (checkStrict_none_iff.mp hfail).1) hopen
      | some strictError =>
          have hlong : ¬ (start :: (inner ++ [stop])).length < 4 := by
            rw [List.length_cons, List.length_append, List.length_singleton]
            omega
          have hmarks : ((start :: (inner ++ [stop])).head?.any (fun first =>
              first = js "<<EOF" ∨ first = js "<<'EOF'" ∨ first = js "<<\"EOF\"") &&
                (start :: (inner ++ [stop])).getLast?.any fun last =>
                  (js "EOF").isSuffixOf last) = true := by
            rw [← List.cons_append, List.getLast?_concat, Bool.and_eq_true]
            exact ⟨by simpa using hstart, by simpa using hstop⟩
          rw [checkPatchBoundariesLenient, hfail]
          simp only [if_neg hlong, if_pos hmarks, List.tail_cons, List.dropLast_concat, hstrict]

theorem enveloped_of_lenient {validated : List JsString}
    (h : checkPatchBoundariesLenient lines = .ok validated) :
    Enveloped validated.tail.dropLast lines := by
  rw [checkPatchBoundariesLenient] at h
  cases hstrict : checkPatchBoundariesStrict lines with
  | none =>
      simp only [hstrict] at h
      rw [← Except.ok.inj h]
      exact .plain (enclosed_of_strict hstrict)
  | some strictError =>
      simp only [hstrict] at h
      split at h
      · exact absurd h (by simp)
      · rename_i hlong
        split at h
        · rename_i hmarks
          rw [Bool.and_eq_true] at hmarks
          cases hinner : checkPatchBoundariesStrict lines.tail.dropLast with
          | some innerError =>
              simp only [hinner] at h
              exact absurd h (by simp)
          | none =>
              simp only [hinner] at h
              rw [← Except.ok.inj h]
              cases lines with
              | nil => exact absurd hmarks.1 (by simp)
              | cons start rest =>
                  rcases List.eq_nil_or_concat rest with rfl | ⟨inner, stop, rfl⟩
                  · exact absurd (by simp) hlong
                  · rw [List.concat_eq_append] at hinner hmarks ⊢
                    rw [← List.cons_append, List.getLast?_concat] at hmarks
                    rw [List.tail_cons, List.dropLast_concat] at hinner ⊢
                    refine .hereDocument (by simpa using hmarks.1) ?_ (enclosed_of_strict hinner)
                    simpa using hmarks.2
        · exact absurd h (by simp)

end Envelope

theorem parse_of_spells {input : JsString} {texts : List TextHunk} (h : SpellsPatch input texts) :
    ∃ parsed, parsePatchText input = .ok parsed ∧ parsed.hunks = texts.map TextHunk.toHunk := by
  obtain ⟨hunkLines, henvelope, hhunks⟩ := h
  have hne : trim input ≠ [] := by
    intro hnil
    rw [hnil] at henvelope
    obtain ⟨validated, hvalid, -⟩ := henvelope.lenient
    have hfails : (checkPatchBoundariesLenient (splitLines [])).toOption = none := by decide +kernel
    rw [hvalid] at hfails
    exact absurd hfails (by simp [Except.toOption])
  obtain ⟨validated, hvalid, hinner⟩ := henvelope.lenient
  refine ⟨⟨texts.map TextHunk.toHunk, joinLines validated⟩, ?_, rfl⟩
  rw [parsePatchText]
  simp only [if_neg hne, hvalid, hinner, parseHunks_spelled hhunks]
  rfl

theorem spells_of_parse {input : JsString} {parsed : ParsedPatch} (h : parsePatchText input = .ok parsed) :
    ∃ texts, SpellsPatch input texts := by
  rw [parsePatchText] at h
  split at h
  · exact absurd h (by simp)
  · cases hvalid : checkPatchBoundariesLenient (splitLines (trim input)) with
    | error err =>
        simp only [hvalid] at h
        exact absurd h (by simp)
    | ok validated =>
        simp only [hvalid] at h
        cases hhunks : parseHunks 0 2 validated.tail.dropLast with
        | error err =>
            rw [hhunks] at h
            exact absurd h (by simp [Except.map])
        | ok hunks =>
            obtain ⟨texts, hspells, -⟩ := parseHunks_ok hhunks
            exact ⟨texts, validated.tail.dropLast, enveloped_of_lenient hvalid, hspells⟩

end GreenchClaw.ApplyPatch
