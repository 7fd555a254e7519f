import GreenchClaw.Js.Map
import GreenchClaw.Js.Text
import Mathlib.Data.List.Sort

/-!
# The text of a patch

`parsePatchText` of `src/agents/apply-patch.ts`: the envelope, also as a here-document, and the hunks
that it holds.
-/

namespace GreenchClaw.ApplyPatch

open GreenchClaw.Js

def BEGIN_PATCH_MARKER : JsString := js "*** Begin Patch"

def END_PATCH_MARKER : JsString := js "*** End Patch"

def ADD_FILE_MARKER : JsString := js "*** Add File: "

def DELETE_FILE_MARKER : JsString := js "*** Delete File: "

def UPDATE_FILE_MARKER : JsString := js "*** Update File: "

def MOVE_TO_MARKER : JsString := js "*** Move to: "

def EOF_MARKER : JsString := js "*** End of File"

def CHANGE_CONTEXT_MARKER : JsString := js "@@ "

def EMPTY_CHANGE_CONTEXT_MARKER : JsString := js "@@"

structure UpdateFileChunk where
  changeContext : Option JsString := none
  oldLines : List JsString := []
  newLines : List JsString := []
  isEndOfFile : Bool := false

inductive Hunk where
  | add (path contents : JsString)
  | delete (path : JsString)
  | update (path : JsString) (movePath : Option JsString) (chunks : List UpdateFileChunk)

structure ParsedPatch where
  hunks : List Hunk
  patch : JsString

def joinLines (lines : List JsString) : JsString := [newline].intercalate lines

def splitAtNewlines (text : JsString) : List JsString := text.splitOn newline

def splitLines (text : JsString) : List JsString :=
  let pieces := splitAtNewlines text
  (pieces.dropLast.map fun piece =>
    if piece.getLast? = some (unit '\r') then piece.dropLast else piece) ++ pieces.getLast?.toList

def decimal (n : ℕ) : JsString := js (toString n)

/-! ## The envelope -/

def checkPatchBoundariesStrict (lines : List JsString) : Option JsString :=
  let firstLine := lines.head?.map trim
  let lastLine := lines.getLast?.map trim
  if firstLine = some BEGIN_PATCH_MARKER ∧ lastLine = some END_PATCH_MARKER then none
  else if firstLine ≠ some BEGIN_PATCH_MARKER then
    some (js "The first line of the patch must be '*** Begin Patch'")
  else some (js "The last line of the patch must be '*** End Patch'")

def checkPatchBoundariesLenient (lines : List JsString) : Except JsString (List JsString) :=
  match checkPatchBoundariesStrict lines with
  | none => .ok lines
  | some strictError =>
      if lines.length < 4 then .error strictError
      else
        let opening := lines.head?.any fun first =>
          first = js "<<EOF" ∨ first = js "<<'EOF'" ∨ first = js "<<\"EOF\""
        let closing := lines.getLast?.any fun last => (js "EOF").isSuffixOf last
        if (opening && closing) = true then
          let inner := lines.tail.dropLast
          match checkPatchBoundariesStrict inner with
          | none => .ok inner
          | some innerError => .error innerError
        else .error strictError

/-! ## Hunks -/

def invalidHunk (lineNumber : ℕ) (text : JsString) : JsString :=
  js "Invalid patch hunk at line " ++ decimal lineNumber ++ js ": " ++ text

def noLines : JsString := js "Update hunk does not contain any lines"

def unexpectedLine (line : JsString) : JsString :=
  js "Unexpected line found in update hunk: '" ++ line ++
    js "'. Every line should start with ' ' (context line), '+' (added line), or '-' (removed line)"

def parseChunkLines (lineNumber : ℕ) :
    ℕ → UpdateFileChunk → List JsString → Except JsString (UpdateFileChunk × ℕ)
  | parsedLines, chunk, [] => .ok (chunk, parsedLines)
  | parsedLines, chunk, line :: rest =>
      if line = EOF_MARKER then
        if parsedLines = 0 then .error (invalidHunk (lineNumber + 1) noLines)
        else .ok ({ chunk with isEndOfFile := true }, parsedLines + 1)
      else
        match line with
        | [] =>
            parseChunkLines lineNumber (parsedLines + 1)
              { chunk with
                oldLines := chunk.oldLines ++ [[]]
                newLines := chunk.newLines ++ [[]] } rest
        | marker :: content =>
            if marker = unit ' ' then
              parseChunkLines lineNumber (parsedLines + 1)
                { chunk with
                  oldLines := chunk.oldLines ++ [content]
                  newLines := chunk.newLines ++ [content] } rest
            else if marker = unit '+' then
              parseChunkLines lineNumber (parsedLines + 1)
                { chunk with newLines := chunk.newLines ++ [content] } rest
            else if marker = unit '-' then
              parseChunkLines lineNumber (parsedLines + 1)
                { chunk with oldLines := chunk.oldLines ++ [content] } rest
            else if parsedLines = 0 then
              .error (invalidHunk (lineNumber + 1) (unexpectedLine line))
            else .ok (chunk, parsedLines)

def parseUpdateFileChunk (line : JsString) (rest : List JsString) (lineNumber : ℕ)
    (allowMissingContext : Bool) : Except JsString (UpdateFileChunk × ℕ) :=
  let afterContext (changeContext : Option JsString) : Except JsString (UpdateFileChunk × ℕ) :=
    if rest = [] then .error (invalidHunk (lineNumber + 1) noLines)
    else (parseChunkLines lineNumber 0 { changeContext } rest).map fun parsed =>
      (parsed.1, parsed.2 + 1)
  if line = EMPTY_CHANGE_CONTEXT_MARKER then afterContext none
  else if CHANGE_CONTEXT_MARKER.isPrefixOf line then
    afterContext (some (line.drop CHANGE_CONTEXT_MARKER.length))
  else if allowMissingContext = false then
    .error (invalidHunk lineNumber
      (js "Expected update hunk to start with a @@ context marker, got: '" ++ line ++ js "'"))
  else parseChunkLines lineNumber 0 {} (line :: rest)

/-- The chunks of an update from the first of these lines on, and how many lines they take.  A chunk is
read when its first line comes; `skip` counts the lines that it has taken already. -/
def parseChunks (lineNumber : ℕ) :
    ℕ → ℕ → List UpdateFileChunk → List JsString → Except JsString (List UpdateFileChunk × ℕ)
  | skip + 1, consumed, chunks, _ :: rest => parseChunks lineNumber skip (consumed + 1) chunks rest
  | _, consumed, chunks, [] => .ok (chunks, consumed)
  | 0, consumed, chunks, line :: rest =>
      if trim line = [] then parseChunks lineNumber 0 (consumed + 1) chunks rest
      else if (js "***").isPrefixOf line then .ok (chunks, consumed)
      else
        match parseUpdateFileChunk line rest (lineNumber + consumed) chunks.isEmpty with
        | .error err => .error err
        | .ok (chunk, chunkLines) =>
            parseChunks lineNumber (chunkLines - 1) (consumed + 1) (chunks ++ [chunk]) rest

def parseOneHunk (line : JsString) (rest : List JsString) (lineNumber : ℕ) :
    Except JsString (Hunk × ℕ) :=
  let firstLine := trim line
  if ADD_FILE_MARKER.isPrefixOf firstLine then
    let addLines := rest.takeWhile fun addLine => addLine.head? = some (unit '+')
    let contents := addLines.flatMap fun addLine => addLine.tail ++ [newline]
    .ok (.add (firstLine.drop ADD_FILE_MARKER.length) contents, addLines.length + 1)
  else if DELETE_FILE_MARKER.isPrefixOf firstLine then
    .ok (.delete (firstLine.drop DELETE_FILE_MARKER.length), 1)
  else if UPDATE_FILE_MARKER.isPrefixOf firstLine then
    let targetPath := firstLine.drop UPDATE_FILE_MARKER.length
    let movePath := (rest.head?.map trim).bind fun moveCandidate =>
      if MOVE_TO_MARKER.isPrefixOf moveCandidate then
        some (moveCandidate.drop MOVE_TO_MARKER.length)
      else none
    let header := if movePath.isSome = true then 2 else 1
    match parseChunks lineNumber 0 header [] (rest.drop (header - 1)) with
    | .error err => .error err
    | .ok (chunks, consumed) =>
        if chunks.length = 0 then
          .error (invalidHunk lineNumber
            (js "Update file hunk for path '" ++ targetPath ++ js "' is empty"))
        else .ok (.update targetPath movePath chunks, consumed)
  else
    .error (invalidHunk lineNumber (js "'" ++ line ++ js
      "' is not a valid hunk header. Valid hunk headers: '*** Add File: \x7bpath\x7d', '*** Delete File: \x7bpath\x7d', '*** Update File: \x7bpath\x7d'"))

def parseHunks : ℕ → ℕ → List JsString → Except JsString (List Hunk)
  | skip + 1, lineNumber, _ :: rest => parseHunks skip (lineNumber + 1) rest
  | _, _, [] => .ok []
  | 0, lineNumber, line :: rest =>
      match parseOneHunk line rest lineNumber with
      | .error err => .error err
      | .ok (hunk, consumed) =>
          (parseHunks (consumed - 1) (lineNumber + 1) rest).map fun hunks => hunk :: hunks

def parsePatchText (input : JsString) : Except JsString ParsedPatch :=
  let trimmed := trim input
  if trimmed = [] then .error (js "Invalid patch: input is empty.")
  else
    match checkPatchBoundariesLenient (splitLines trimmed) with
    | .error err => .error err
    | .ok validated =>
        (parseHunks 0 2 validated.tail.dropLast).map fun hunks =>
          { hunks, patch := joinLines validated }

/-!
## The result of an update

`src/agents/apply-patch-update.ts`: where the chunks of an update are found in the lines of a file, and
what replaces them.
-/

structure Replacement where
  start : ℕ
  oldLen : ℕ
  newLines : List JsString

def apostrophe : CodeUnit := 39

def quotationMark : CodeUnit := 34

/-- The hyphen, quote or space that a character stands for. -/
def normalizeChar (u : CodeUnit) : CodeUnit :=
  if (0x2010 ≤ u ∧ u ≤ 0x2015) ∨ u = 0x2212 then unit '-'
  else if 0x2018 ≤ u ∧ u ≤ 0x201B then apostrophe
  else if 0x201C ≤ u ∧ u ≤ 0x201F then quotationMark
  else if u = 0x00A0 ∨ (0x2002 ≤ u ∧ u ≤ 0x200A) ∨ u = 0x202F ∨ u = 0x205F ∨ u = 0x3000 then unit ' '
  else u

def normalizePunctuation (value : JsString) : JsString := value.map normalizeChar

def linesMatch (lines pattern : List JsString) (start : ℕ) (normalize : JsString → JsString) : Bool :=
  ((lines.drop start).take pattern.length).map normalize = pattern.map normalize

/-- The comparisons of `seekSequence`, the strictest first. -/
def comparisons : List (JsString → JsString) :=
  [id, trimEnd, trim, fun value => normalizePunctuation (trim value)]

def seekSequence (lines pattern : List JsString) (start : ℕ) (eof : Bool) : Option ℕ :=
  if pattern.length = 0 then some start
  else if lines.length < pattern.length then none
  else
    let maxStart := lines.length - pattern.length
    let searchStart := if eof = true then maxStart else start
    let places := (List.range (maxStart + 1)).filter fun place => searchStart ≤ place
    comparisons.findSome? fun normalize =>
      places.find? fun place => linesMatch lines pattern place normalize

section Replacements

variable (originalLines : List JsString) (filePath : JsString)

def insertionIndex : ℕ :=
  if originalLines.getLast? = some [] then originalLines.length - 1 else originalLines.length

def findChunk (chunk : UpdateFileChunk) (lineIndex : ℕ) : Option Replacement :=
  match seekSequence originalLines chunk.oldLines lineIndex chunk.isEndOfFile with
  | some found => some ⟨found, chunk.oldLines.length, chunk.newLines⟩
  | none =>
      if chunk.oldLines.getLast? = some [] then
        let pattern := chunk.oldLines.dropLast
        let newSlice :=
          if chunk.newLines.getLast? = some [] then chunk.newLines.dropLast else chunk.newLines
        (seekSequence originalLines pattern lineIndex chunk.isEndOfFile).map fun found =>
          ⟨found, pattern.length, newSlice⟩
      else none

def seekContext (chunk : UpdateFileChunk) (lineIndex : ℕ) : Except JsString ℕ :=
  match chunk.changeContext.filter fun context => context ≠ [] with
  | none => .ok lineIndex
  | some context =>
      match seekSequence originalLines [context] lineIndex false with
      | some ctxIndex => .ok (ctxIndex + 1)
      | none => .error (js "Failed to find context '" ++ context ++ js "' in " ++ filePath)

def collectReplacements : ℕ → List UpdateFileChunk → Except JsString (List Replacement)
  | _, [] => .ok []
  | lineIndex, chunk :: chunks =>
      match seekContext originalLines filePath chunk lineIndex with
      | .error err => .error err
      | .ok lineIndex =>
          if chunk.oldLines.length = 0 then
            (collectReplacements lineIndex chunks).map fun rest =>
              ⟨insertionIndex originalLines, 0, chunk.newLines⟩ :: rest
          else
            match findChunk originalLines chunk lineIndex with
            | none =>
                .error (js "Failed to find expected lines in " ++ filePath ++ js ":\n" ++
                  joinLines chunk.oldLines)
            | some replacement =>
                (collectReplacements (replacement.start + replacement.oldLen) chunks).map fun rest =>
                  replacement :: rest

def computeReplacements (chunks : List UpdateFileChunk) : Except JsString (List Replacement) :=
  (collectReplacements originalLines filePath 0 chunks).map fun replacements =>
    replacements.insertionSort fun a b => a.start ≤ b.start

end Replacements

def splice (result : List JsString) (replacement : Replacement) : List JsString :=
  result.take replacement.start ++ replacement.newLines ++
    result.drop (replacement.start + replacement.oldLen)

def applyReplacements (lines : List JsString) (replacements : List Replacement) : List JsString :=
  replacements.reverse.foldl splice lines

def applyUpdateHunk (filePath originalContents : JsString) (chunks : List UpdateFileChunk) :
    Except JsString JsString :=
  let split := splitAtNewlines originalContents
  let originalLines := if split.getLast? = some [] then split.dropLast else split
  (computeReplacements originalLines filePath chunks).map fun replacements =>
    let newLines := applyReplacements originalLines replacements
    joinLines (if newLines.getLast? = some [] then newLines else newLines ++ [[]])

/-!
## Applying a patch

`applyPatch` of `src/agents/apply-patch.ts`: the hunks one after the other on a map of files, and the
summary of what they did.
-/

/-- `PATH_ALIAS_POLICIES`. -/
inductive PathAliasPolicy where
  | strict
  | unlinkTarget

structure PatchTarget where
  resolved : JsString
  display : JsString

/-- The files that a patch works on: paths are resolved and checked, and a file operation fails with a
text or is carried out. -/
structure PatchHost where
  resolvePatchPath : JsString → PathAliasPolicy → Except JsString PatchTarget
  assertPatchParentPath : JsString → Except JsString Unit
  /-- The text of a read that fails; it does where there is no file. -/
  readFailure : Map JsString → JsString → Option JsString
  missingFile : JsString → JsString
  /-- The text of a directory that cannot be made or a write that fails. -/
  writeFailure : Map JsString → JsString → Option JsString
  removeFailure : Map JsString → JsString → Option JsString
  /-- Whether the signal is aborted before the hunk with this number. -/
  aborted : ℕ → Bool

structure ApplyPatchSummary where
  added : List JsString := []
  modified : List JsString := []
  deleted : List JsString := []

structure ApplyPatchResult where
  summary : ApplyPatchSummary
  text : JsString

structure PatchState where
  files : Map JsString
  summary : ApplyPatchSummary := {}

inductive SummaryBucket where
  | added
  | modified
  | deleted

def record (bucket : List JsString) (value : JsString) : List JsString :=
  if value ∈ bucket then bucket else bucket ++ [value]

def recordSummary (summary : ApplyPatchSummary) (bucket : SummaryBucket) (value : JsString) :
    ApplyPatchSummary :=
  match bucket with
  | .added => { summary with added := record summary.added value }
  | .modified => { summary with modified := record summary.modified value }
  | .deleted => { summary with deleted := record summary.deleted value }

def formatSummary (summary : ApplyPatchSummary) : JsString :=
  joinLines (js "Success. Updated the following files:" ::
    (summary.added.map (js "A " ++ ·) ++ summary.modified.map (js "M " ++ ·) ++
      summary.deleted.map (js "D " ++ ·)))

section Hunks

variable (host : PatchHost)

def readFile (files : Map JsString) (path : JsString) : Except JsString JsString :=
  match host.readFailure files path, files.get path with
  | none, some contents => .ok contents
  | none, none => .error (host.missingFile path)
  | some err, _ => .error err

def writeFile (files : Map JsString) (path contents : JsString) : Except JsString (Map JsString) :=
  match host.writeFailure files path with
  | none => .ok (files.set path contents)
  | some err => .error err

def remove (files : Map JsString) (path : JsString) : Except JsString (Map JsString) :=
  match host.removeFailure files path with
  | none => .ok (files.delete path)
  | some err => .error err

def updatedContents (files : Map JsString) (path : JsString) (chunks : List UpdateFileChunk) :
    Except JsString JsString := do
  let contents ← (readFile host files path).mapError fun err =>
    js "Failed to read file to update " ++ path ++ js ": " ++ err
  applyUpdateHunk path contents chunks

def applyHunk (s : PatchState) (hunk : Hunk) : Except JsString PatchState :=
  match hunk with
  | .add path contents => do
      let target ← host.resolvePatchPath path .strict
      host.assertPatchParentPath path
      let files ← writeFile host s.files target.resolved contents
      .ok { files, summary := recordSummary s.summary .added target.display }
  | .delete path => do
      let target ← host.resolvePatchPath path .unlinkTarget
      let files ← remove host s.files target.resolved
      .ok { files, summary := recordSummary s.summary .deleted target.display }
  | .update path movePath chunks => do
      let target ← host.resolvePatchPath path .strict
      let applied ← updatedContents host s.files target.resolved chunks
      match movePath.filter fun moved => moved ≠ [] with
      | some movePath =>
          let moveTarget ← host.resolvePatchPath movePath .strict
          host.assertPatchParentPath movePath
          let files ← writeFile host s.files moveTarget.resolved applied
          let files ← remove host files target.resolved
          .ok { files, summary := recordSummary s.summary .modified moveTarget.display }
      | none =>
          let files ← writeFile host s.files target.resolved applied
          .ok { files, summary := recordSummary s.summary .modified target.display }

def applyHunks : ℕ → PatchState → List Hunk → Except JsString PatchState
  | _, s, [] => .ok s
  | number, s, hunk :: hunks =>
      if host.aborted number = true then .error (js "Aborted")
      else
        match applyHunk host s hunk with
        | .error err => .error err
        | .ok next => applyHunks (number + 1) next hunks

def applyPatch (input : JsString) (files : Map JsString) :
    Except JsString (Map JsString × ApplyPatchResult) := do
  let parsed ← parsePatchText input
  if parsed.hunks.length = 0 then .error (js "No files were modified.")
  else
    let s ← applyHunks host 0 { files } parsed.hunks
    .ok (s.files, { summary := s.summary, text := formatSummary s.summary })

end Hunks

end GreenchClaw.ApplyPatch
