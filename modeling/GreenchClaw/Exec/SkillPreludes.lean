import GreenchClaw.Exec.Analysis

/-!
# Skill preludes in a command chain

Before a skill runs, its document is shown: `cat …/skills/<id>/SKILL.md`, then a marker.  The
allowlist has neither command, so a chain of commands is looked at from its end and such a part is
let through when the skill runs behind it.
-/

namespace GreenchClaw.Exec

open GreenchClaw.Js

/-! ## Evaluations -/

/-- `ExecSegmentSatisfiedBy`; `none` is a segment that nothing satisfies. -/
inductive ExecSegmentSatisfiedBy where
  | allowlist
  | safeBins
  | inlineChain
  | skills
  | skillPrelude
deriving DecidableEq, Repr

structure ExecAllowlistEvaluation (Entry : Type) where
  allowlistSatisfied : Bool
  allowlistMatches : List Entry
  segmentAllowlistEntries : List (Option Entry)
  segmentSatisfiedBy : List (Option ExecSegmentSatisfiedBy)
deriving DecidableEq

structure ExecAllowlistAnalysis (Entry : Type) where
  analysisOk : Bool := false
  allowlistSatisfied : Bool := false
  allowlistMatches : List Entry := []
  segments : List ExecCommandSegment := []
  segmentAllowlistEntries : List (Option Entry) := []
  segmentSatisfiedBy : List (Option ExecSegmentSatisfiedBy) := []
deriving DecidableEq

structure PathHost where
  expandHomePrefix : JsString → JsString
  isAbsolute : JsString → Bool
  resolve : List JsString → JsString
  processCwd : JsString

/-- The parameters of `evaluateShellAllowlist` beside the command: `evaluateExecAllowlist` is the
evaluation of one analysed part under the allowlist, the safe binaries and the skills. -/
structure ShellAllowlistContext (Entry : Type) where
  host : ExecHost
  path : PathHost
  cwd : Option JsString
  platform : Option JsString
  evaluateExecAllowlist : ExecCommandAnalysis → ExecAllowlistEvaluation Entry

variable {Entry : Type}

/-! ## Executable names -/

def slash : CodeUnit := unit '/'

/-- The last part of a path: separators at its end do not count. -/
def basename (isSeparator : CodeUnit → Bool) (token : JsString) : JsString :=
  (token.rdropWhile isSeparator).rtakeWhile fun ch => !isSeparator ch

def isAsciiLetter (ch : CodeUnit) : Bool :=
  (unit 'a' ≤ ch && ch ≤ unit 'z') || (unit 'A' ≤ ch && ch ≤ unit 'Z')

def posixBasename (token : JsString) : JsString := basename (· == slash) token

def win32Basename (token : JsString) : JsString :=
  let isSeparator := fun ch => ch == slash || ch == backslash
  match token with
  | letter :: colon :: rest =>
      if isAsciiLetter letter && colon == unit ':' then basename isSeparator rest
      else basename isSeparator token
  | _ => basename isSeparator token

def basenameLower [UnicodeCase] (token : JsString) : JsString :=
  let win := win32Basename token
  let posix := posixBasename token
  normalizeLowercaseStringOrEmpty (some (if win.length < posix.length then win else posix))

def windowsExecutableSuffixes : List JsString := [js ".exe", js ".cmd", js ".bat", js ".com"]

def stripWindowsExecutableSuffix (value : JsString) : JsString :=
  match windowsExecutableSuffixes.find? fun suffix => suffix.isSuffixOf value with
  | some suffix => value.take (value.length - suffix.length)
  | none => value

def normalizeExecutableToken [UnicodeCase] (token : JsString) : JsString :=
  stripWindowsExecutableSuffix (basenameLower token)

def resolveExecutionTargetResolution (segment : ExecCommandSegment) :
    Option ExecutableResolution := segment.resolution.map CommandResolution.execution

/-! ## Preludes -/

section Preludes

variable [UnicodeCase]

def resolveSkillPreludePath (path : PathHost) (cwd : Option JsString) (rawPath : JsString) :
    JsString :=
  let expanded := if rawPath.head? = some (unit '~') then path.expandHomePrefix rawPath else rawPath
  if path.isAbsolute expanded then path.resolve [expanded]
  else path.resolve [(normalizeOptionalString cwd).getD path.processCwd, expanded]

def lowerPathParts (filePath : JsString) : JsString × List JsString :=
  let normalized := filePath.map fun ch => if ch == backslash then slash else ch
  let lowerNormalized := normalizeLowercaseStringOrEmpty (some normalized)
  (lowerNormalized, (lowerNormalized.splitOn slash).filter (· ≠ []))

def directoryIndices (parts : List JsString) : List Nat := (List.range (parts.length - 1)).reverse

def isSkillMarkdownPreludePath (filePath : JsString) : Bool :=
  let (lowerNormalized, parts) := lowerPathParts filePath
  (js "/skill.md").isSuffixOf lowerNormalized && decide (2 ≤ parts.length) &&
    (directoryIndices parts).any fun index =>
      parts[index]? == some (js "skills") &&
        (parts.length - index - 1 == 1 || parts.length - index - 1 == 2)

def resolveSkillMarkdownPreludeId (filePath : JsString) : Option JsString :=
  let (lowerNormalized, parts) := lowerPathParts filePath
  if !(js "/skill.md").isSuffixOf lowerNormalized || decide (parts.length < 3) then none
  else
    match (directoryIndices parts).find? fun index =>
      parts[index]? == some (js "skills") && parts.length - index - 1 == 2 with
    | some index => normalizeOptionalString parts[index + 1]?
    | none => none

def preludeExecutable (segment : ExecCommandSegment) : JsString :=
  normalizeLowercaseStringOrEmpty
    ((resolveExecutionTargetResolution segment).map ExecutableResolution.executableName)

def preludeReadPath (path : PathHost) (cwd : Option JsString) (segment : ExecCommandSegment) :
    Option JsString :=
  (normalizeOptionalString segment.argv[1]?).map (resolveSkillPreludePath path cwd)

def isSkillPreludeReadSegment (path : PathHost) (cwd : Option JsString)
    (segment : ExecCommandSegment) : Bool :=
  preludeExecutable segment == js "cat" && segment.argv.length == 2 &&
    (preludeReadPath path cwd segment).any isSkillMarkdownPreludePath

def isSkillPreludeMarkerSegment (segment : ExecCommandSegment) : Bool :=
  preludeExecutable segment == js "printf" && segment.argv.length == 2 &&
    (segment.argv[1]? == some (js "\\n---CMD---\\n") ||
      segment.argv[1]? == some (js "\n---CMD---\n"))

def isSkillPreludeSegment (path : PathHost) (cwd : Option JsString)
    (segment : ExecCommandSegment) : Bool :=
  isSkillPreludeReadSegment path cwd segment || isSkillPreludeMarkerSegment segment

def isSkillPreludeOnlyEvaluation (path : PathHost) (cwd : Option JsString)
    (segments : List ExecCommandSegment) : Bool :=
  !segments.isEmpty && segments.all (isSkillPreludeSegment path cwd)

def resolveSkillPreludeIds (path : PathHost) (cwd : Option JsString)
    (segments : List ExecCommandSegment) : List JsString :=
  (segments.filterMap fun segment =>
    if isSkillPreludeReadSegment path cwd segment then
      (preludeReadPath path cwd segment).bind resolveSkillMarkdownPreludeId
    else none).dedup

/-! ## Trusted executions -/

def resolveAllowlistedSkillWrapperId (segment : ExecCommandSegment) : Option JsString :=
  let execution := resolveExecutionTargetResolution segment
  let executableName := normalizeExecutableToken
    (((execution.map ExecutableResolution.executableName).or segment.argv.head?).getD [])
  if (js "-wrapper").isSuffixOf executableName then
    normalizeOptionalString
      (some (executableName.take (executableName.length - (js "-wrapper").length)))
  else none

def trustedSkillId (segment : ExecCommandSegment) :
    Option ExecSegmentSatisfiedBy → Option JsString
  | some .skills =>
      let execution := resolveExecutionTargetResolution segment
      let executableName := normalizeExecutableToken
        (((execution.map ExecutableResolution.executableName).or segment.argv.head?).getD [])
      if executableName = [] then none else some executableName
  | some .allowlist => resolveAllowlistedSkillWrapperId segment
  | _ => none

def resolveTrustedSkillExecutionIds (analysis : ExecCommandAnalysis)
    (evaluation : ExecAllowlistEvaluation Entry) : List JsString :=
  if evaluation.allowlistSatisfied then
    ((analysis.segments.zip evaluation.segmentSatisfiedBy).filterMap fun (segment, satisfiedBy) =>
      trustedSkillId segment satisfiedBy).dedup
  else []

/-! ## The chain -/

structure ChainEvaluation (Entry : Type) where
  analysis : ExecCommandAnalysis
  evaluation : ExecAllowlistEvaluation Entry
  opToNext : Option ShellChainOperator

namespace ChainEvaluation

def trustedSkillIds (part : ChainEvaluation Entry) : List JsString :=
  resolveTrustedSkillExecutionIds part.analysis part.evaluation

def isPreludeOnly (path : PathHost) (cwd : Option JsString) (part : ChainEvaluation Entry) : Bool :=
  !part.evaluation.allowlistSatisfied &&
    isSkillPreludeOnlyEvaluation path cwd part.analysis.segments

def preludeSkillIds (path : PathHost) (cwd : Option JsString) (part : ChainEvaluation Entry) :
    List JsString :=
  if part.isPreludeOnly path cwd then resolveSkillPreludeIds path cwd part.analysis.segments
  else []

end ChainEvaluation

def reachesTrustedSkillExecution (path : PathHost) (cwd : Option JsString)
    (part : ChainEvaluation Entry) (reachableSkillIds : List JsString) : Bool :=
  part.opToNext == some .and &&
    if part.preludeSkillIds path cwd = [] then !reachableSkillIds.isEmpty
    else (part.preludeSkillIds path cwd).any (reachableSkillIds.contains ·)

/-- The body of the loop: whether the part is in `allowSkillPreludeAtIndex` comes before what is
known of the parts behind it, and `reachableSkillIds` is taken over, filled or cleared. -/
def scanPart (path : PathHost) (cwd : Option JsString) (part : ChainEvaluation Entry)
    (behind : List Bool × List JsString) : List Bool × List JsString :=
  if part.trustedSkillIds ≠ [] then (false :: behind.1, behind.2 ∪ part.trustedSkillIds)
  else if part.isPreludeOnly path cwd && reachesTrustedSkillExecution path cwd part behind.2 then
    (true :: behind.1, behind.2)
  else (false :: behind.1, [])

def scanPreludes (path : PathHost) (cwd : Option JsString) :
    List (ChainEvaluation Entry) → List Bool × List JsString
  | [] => ([], [])
  | part :: later => scanPart path cwd part (scanPreludes path cwd later)

/-- The last loop: the result is filled part by part, up to a part that is not satisfied. -/
def collectParts (result : ExecAllowlistAnalysis Entry) :
    List (ChainEvaluation Entry × Bool) → ExecAllowlistAnalysis Entry
  | [] => { result with allowlistSatisfied := true }
  | (part, allowed) :: later =>
      let segments := part.analysis.segments
      let next : ExecAllowlistAnalysis Entry :=
        { analysisOk := true
          allowlistSatisfied := false
          allowlistMatches := result.allowlistMatches ++ part.evaluation.allowlistMatches
          segments := result.segments ++ segments
          segmentAllowlistEntries := result.segmentAllowlistEntries ++
            if allowed then segments.map fun _ => none else part.evaluation.segmentAllowlistEntries
          segmentSatisfiedBy := result.segmentSatisfiedBy ++
            if allowed then segments.map fun _ => some .skillPrelude
            else part.evaluation.segmentSatisfiedBy }
      if !part.evaluation.allowlistSatisfied && !allowed then next else collectParts next later

def hasShellLineContinuation : JsString → Bool
  | ch :: next :: rest =>
      (ch == backslash && isNewline next) || hasShellLineContinuation (next :: rest)
  | _ => false

def evaluatePart (context : ShellAllowlistContext Entry) (link : ShellChainPart) :
    Option (ChainEvaluation Entry) :=
  match analyzeShellCommand context.host context.platform link.part with
  | .error _ => none
  | .ok analysis => some ⟨analysis, context.evaluateExecAllowlist analysis, link.opToNext⟩

def chainEvaluations (context : ShellAllowlistContext Entry) (command : JsString) :
    Option (Option (List (ChainEvaluation Entry))) :=
  let chainParts :=
    if isWindowsPlatform context.platform then none else splitCommandChainWithOperators command
  chainParts.map (·.mapM (evaluatePart context))

def evaluateShellAllowlist (context : ShellAllowlistContext Entry) (command : JsString) :
    ExecAllowlistAnalysis Entry :=
  if hasShellLineContinuation command then {}
  else
    match chainEvaluations context command with
    | none =>
        match analyzeShellCommand context.host context.platform command with
        | .error _ => {}
        | .ok analysis =>
            let evaluation := context.evaluateExecAllowlist analysis
            { analysisOk := true
              allowlistSatisfied := evaluation.allowlistSatisfied
              allowlistMatches := evaluation.allowlistMatches
              segments := analysis.segments
              segmentAllowlistEntries := evaluation.segmentAllowlistEntries
              segmentSatisfiedBy := evaluation.segmentSatisfiedBy }
    | some none => {}
    | some (some parts) =>
        collectParts { analysisOk := true }
          (parts.zip (scanPreludes context.path context.cwd parts).1)

end Preludes

end GreenchClaw.Exec
