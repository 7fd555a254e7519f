import GreenchClaw.Js.Text
import GreenchClaw.Lib.Scanner

/-!
# Splitting a shell command

The approval of a shell command rests on three scanners: one splits a command at the chain
operators, one splits a part at its pipes and passes over here-document bodies, and one
takes the argument vector from a pipeline segment.  Reasons of a rejection are the texts
that the scanners report.
-/

namespace GreenchClaw.Exec

open GreenchClaw.Js

/-! ## Characters -/

def backslash : CodeUnit := unit '\\'
def singleQuote : CodeUnit := unit '\''
def doubleQuote : CodeUnit := unit '"'
def hash : CodeUnit := unit '#'
def ampersand : CodeUnit := unit '&'
def pipe : CodeUnit := unit '|'
def semicolon : CodeUnit := unit ';'
def dollar : CodeUnit := unit '$'
def backquote : CodeUnit := 96
def less : CodeUnit := unit '<'
def greater : CodeUnit := unit '>'
def openParen : CodeUnit := unit '('
def closeParen : CodeUnit := unit ')'
def lineFeed : CodeUnit := 10
def carriageReturn : CodeUnit := 13
def tab : CodeUnit := 9
def blank : CodeUnit := 32
def minus : CodeUnit := unit '-'

def isNewline (ch : CodeUnit) : Bool := ch == lineFeed || ch == carriageReturn

def disallowedPipelineTokens : List CodeUnit :=
  [greater, less, backquote, lineFeed, carriageReturn, openParen, closeParen]

def isDoubleQuoteEscape (next : Option CodeUnit) : Bool :=
  next == some backslash || next == some doubleQuote || next == some dollar ||
    next == some backquote

def isEscapedLineContinuation (next : Option CodeUnit) : Bool :=
  next == some lineFeed || next == some carriageReturn

def isShellCommentStart (prev : Option CodeUnit) (ch : CodeUnit) : Bool :=
  ch == hash && prev.all isSpace

/-! ## The chain splitter -/

inductive ShellChainOperator where
  | and
  | or
  | semi
deriving DecidableEq, Repr

structure ShellChainPart where
  part : JsString
  opToNext : Option ShellChainOperator
deriving DecidableEq

/-- The variables of `splitCommandChainWithOperators`. -/
structure ChainScan where
  parts : List ShellChainPart := []
  buf : JsString := []
  inSingle : Bool := false
  inDouble : Bool := false
  escaped : Bool := false
  foundChain : Bool := false
  invalidChain : Bool := false
deriving DecidableEq

namespace ChainScan

def put (s : ChainScan) (text : JsString) : ChainScan := { s with buf := s.buf ++ text }

def pushPart (s : ChainScan) (op : ShellChainOperator) : ChainScan :=
  if trim s.buf = [] then { s with buf := [], foundChain := true, invalidChain := true }
  else
    { s with
      parts := s.parts ++ [⟨trim s.buf, some op⟩]
      buf := []
      foundChain := true }

end ChainScan

/-- The loop body of `splitCommandChainWithOperators`. -/
def chainStep : Scanner.Step CodeUnit ChainScan JsString := fun prev ch rest s =>
  let next := rest.head?
  if s.escaped then .advance 0 { s.put [ch] with escaped := false }
  else if !s.inSingle && !s.inDouble && ch == backslash then
    .advance 0 { s.put [ch] with escaped := true }
  else if s.inSingle then
    .advance 0 { s.put [ch] with inSingle := ch != singleQuote }
  else if s.inDouble then
    if ch == backslash && isEscapedLineContinuation next then
      .stop { s with invalidChain := true }
    else if ch == backslash && isDoubleQuoteEscape next then
      .advance 1 (s.put (ch :: next.toList))
    else .advance 0 { s.put [ch] with inDouble := ch != doubleQuote }
  else if ch == singleQuote then .advance 0 { s.put [ch] with inSingle := true }
  else if ch == doubleQuote then .advance 0 { s.put [ch] with inDouble := true }
  else if isShellCommentStart prev ch then .stop s
  else if ch == ampersand && next == some ampersand then .advance 1 (s.pushPart .and)
  else if ch == pipe && next == some pipe then .advance 1 (s.pushPart .or)
  else if ch == semicolon then .advance 0 (s.pushPart .semi)
  else .advance 0 (s.put [ch])

/-- What is left of `splitCommandChainWithOperators` after its loop. -/
def ChainScan.finish (s : ChainScan) : Option (List ShellChainPart) :=
  if s.foundChain = false then none
  else if trim s.buf = [] then none
  else if s.invalidChain then none
  else some (s.parts ++ [⟨trim s.buf, none⟩])

def splitCommandChainWithOperators (command : JsString) : Option (List ShellChainPart) :=
  match Scanner.scan chainStep {} command with
  | .error _ => none
  | .ok s => s.finish

def splitCommandChain (command : JsString) : Option (List JsString) :=
  (splitCommandChainWithOperators command).map (·.map ShellChainPart.part)

/-! ## Here-documents -/

structure HeredocSpec where
  delimiter : JsString
  stripTabs : Bool
  quoted : Bool
deriving DecidableEq

/-- The text up to the closing quote of a quoted delimiter, and how much of the source it
takes with that quote. -/
def quotedDelimiter (quote : CodeUnit) : JsString → Option (JsString × Nat)
  | [] => none
  | ch :: rest =>
      if isNewline ch then none
      else if quote == doubleQuote && ch == backslash then
        match rest with
        | [] => none
        | next :: rest =>
            (quotedDelimiter quote rest).map fun (text, taken) => (next :: text, taken + 2)
      else if ch == quote then some ([], 1)
      else (quotedDelimiter quote rest).map fun (text, taken) => (ch :: text, taken + 1)

def endsDelimiter (ch : CodeUnit) : Bool :=
  isSpace ch || ch == pipe || ch == ampersand || ch == semicolon || ch == less ||
    ch == greater

/-- The result of `parseHeredocDelimiter`; `taken` is `end - start`. -/
structure HeredocDelimiter where
  delimiter : JsString
  taken : Nat
  quoted : Bool
deriving DecidableEq

def parseHeredocDelimiter (source : JsString) : Option HeredocDelimiter :=
  let lead := source.takeWhile fun ch => ch == blank || ch == tab
  match source.dropWhile fun ch => ch == blank || ch == tab with
  | [] => none
  | first :: rest =>
      if first == singleQuote || first == doubleQuote then
        (quotedDelimiter first rest).map fun (text, taken) =>
          ⟨text, lead.length + (taken + 1), true⟩
      else
        let delimiter := (first :: rest).takeWhile fun ch => !endsDelimiter ch
        if delimiter = [] then none
        else some ⟨delimiter, lead.length + delimiter.length, false⟩

/-- What a `$` expands before, in an unquoted here-document. -/
def startsExpansion (next : CodeUnit) : Bool :=
  next == openParen || next == unit '\x7b' || next == unit '[' ||
    (unit 'A' ≤ next && next ≤ unit 'Z') || (unit 'a' ≤ next && next ≤ unit 'z') ||
    next == unit '_' || (unit '0' ≤ next && next ≤ unit '9') ||
    (js "@*?!$#-").contains next

/-- The loop of `hasUnquotedHeredocExpansionToken`; `odd` says whether an odd number of
backslashes stands right before the rest of the line. -/
def expansionTokenFrom (odd : Bool) : JsString → Bool
  | [] => false
  | ch :: rest =>
      (!odd && ch == backquote) || (!odd && ch == dollar && rest.head?.any startsExpansion) ||
        expansionTokenFrom (ch == backslash && !odd) rest

def hasUnquotedHeredocExpansionToken (line : JsString) : Bool := expansionTokenFrom false line

def stripUnquotedHeredocLineContinuation (line : JsString) : JsString × Bool :=
  let trailingSlashes := (line.reverse.takeWhile (· == backslash)).length
  if trailingSlashes % 2 = 1 then (line.dropLast, true) else (line, false)

def maxUnquotedHeredocContinuationLines : Nat := 1024
def maxUnquotedHeredocLogicalLineLength : Nat := 64 * 1024

/-! ## The pipeline splitter -/

/-- The variables of `splitShellPipeline`. -/
structure PipelineScan where
  segments : List JsString := []
  buf : JsString := []
  inSingle : Bool := false
  inDouble : Bool := false
  escaped : Bool := false
  emptySegment : Bool := false
  pendingHeredocs : List HeredocSpec := []
  inHeredocBody : Bool := false
  heredocLine : JsString := []
  unquotedHeredocLogicalChunks : List JsString := []
  unquotedHeredocLogicalLength : Nat := 0
deriving DecidableEq

namespace PipelineScan

def put (s : PipelineScan) (text : JsString) : PipelineScan :=
  { s with buf := s.buf ++ text, emptySegment := false }

def pushPart (s : PipelineScan) : PipelineScan :=
  { s with
    segments := if trim s.buf = [] then s.segments else s.segments ++ [trim s.buf]
    buf := [] }

def heredocText (current : HeredocSpec) (line : JsString) : JsString :=
  if current.stripTabs then line.dropWhile (· == tab) else line

/-- A complete line of the body of the first pending here-document. -/
def endHeredocLine (s : PipelineScan) : Except JsString PipelineScan :=
  match s.pendingHeredocs with
  | [] => .ok s
  | current :: others =>
      let line := heredocText current s.heredocLine
      if current.quoted then
        .ok (if line = current.delimiter then { s with pendingHeredocs := others } else s)
      else if line = current.delimiter ∧ s.unquotedHeredocLogicalChunks = [] then
        .ok { s with pendingHeredocs := others }
      else
        let (text, continues) := stripUnquotedHeredocLineContinuation line
        let chunks := s.unquotedHeredocLogicalChunks ++ [text]
        let length := s.unquotedHeredocLogicalLength + text.length
        if maxUnquotedHeredocContinuationLines < chunks.length then
          .error (js "heredoc continuation too long")
        else if maxUnquotedHeredocLogicalLineLength < length then
          .error (js "heredoc logical line too large")
        else if continues then
          .ok { s with
            unquotedHeredocLogicalChunks := chunks
            unquotedHeredocLogicalLength := length }
        else if hasUnquotedHeredocExpansionToken chunks.flatten then
          .error (js "shell expansion in unquoted heredoc")
        else
          .ok { s with unquotedHeredocLogicalChunks := [], unquotedHeredocLogicalLength := 0 }

end PipelineScan

def unsupportedShellToken (token : JsString) : JsString := js "unsupported shell token: " ++ token

/-- How far a line break reaches beyond its first character. -/
def crlfSkip (ch : CodeUnit) (next : Option CodeUnit) : Nat :=
  if ch == carriageReturn && next == some lineFeed then 1 else 0

/-- `<<`, with `rest` behind the first `<`.  A dash that no delimiter follows is written to
the buffer here and read again by the next round. -/
def PipelineScan.startHeredoc (s : PipelineScan) (rest : JsString) :
    Scanner.Move PipelineScan JsString :=
  let source := rest.tail
  let stripTabs := source.head? == some minus
  let operator := less :: less :: if stripTabs then [minus] else []
  let source := if stripTabs then source.tail else source
  match parseHeredocDelimiter source with
  | none => .advance 1 (s.put operator)
  | some parsed =>
      .advance (operator.length - 1 + parsed.taken)
        { s.put (operator ++ source.take parsed.taken) with
          pendingHeredocs := s.pendingHeredocs ++ [⟨parsed.delimiter, stripTabs, parsed.quoted⟩] }

/-- The loop body of `splitShellPipeline`. -/
def pipelineStep : Scanner.Step CodeUnit PipelineScan JsString := fun prev ch rest s =>
  let next := rest.head?
  if s.inHeredocBody then
    if isNewline ch then
      match s.endHeredocLine with
      | .error reason => .reject reason
      | .ok s =>
          .advance (crlfSkip ch next)
            { s with heredocLine := [], inHeredocBody := !s.pendingHeredocs.isEmpty }
    else .advance 0 { s with heredocLine := s.heredocLine ++ [ch] }
  else if s.escaped then .advance 0 { s.put [ch] with escaped := false }
  else if !s.inSingle && !s.inDouble && ch == backslash then
    .advance 0 { s.put [ch] with escaped := true }
  else if s.inSingle then .advance 0 { s.put [ch] with inSingle := ch != singleQuote }
  else if s.inDouble then
    if ch == backslash && isEscapedLineContinuation next then
      .reject (unsupportedShellToken (js "newline"))
    else if ch == backslash && isDoubleQuoteEscape next then
      .advance 1 (s.put (ch :: next.toList))
    else if ch == dollar && next == some openParen then
      .reject (unsupportedShellToken (js "$()"))
    else if ch == backquote then .reject (unsupportedShellToken [backquote])
    else if isNewline ch then .reject (unsupportedShellToken (js "newline"))
    else .advance 0 { s.put [ch] with inDouble := ch != doubleQuote }
  else if ch == singleQuote then .advance 0 { s.put [ch] with inSingle := true }
  else if ch == doubleQuote then .advance 0 { s.put [ch] with inDouble := true }
  else if isShellCommentStart prev ch then .stop s
  else if isNewline ch && !s.pendingHeredocs.isEmpty then
    .advance (crlfSkip ch next) { s with inHeredocBody := true, heredocLine := [] }
  else if ch == pipe && next == some pipe then .reject (unsupportedShellToken (js "||"))
  else if ch == pipe && next == some ampersand then .reject (unsupportedShellToken (js "|&"))
  else if ch == pipe then .advance 0 { s.pushPart with emptySegment := true }
  else if ch == ampersand || ch == semicolon then .reject (unsupportedShellToken [ch])
  else if ch == less && next == some less then s.startHeredoc rest
  else if disallowedPipelineTokens.contains ch then .reject (unsupportedShellToken [ch])
  else if ch == dollar && next == some openParen then .reject (unsupportedShellToken (js "$()"))
  else .advance 0 (s.put [ch])

namespace PipelineScan

/-- The line that the text ends in may still close the here-document, unless a continued
line is pending. -/
def endHeredocTail (s : PipelineScan) : Except JsString PipelineScan :=
  match s.inHeredocBody, s.pendingHeredocs with
  | true, current :: others =>
      let line := heredocText current s.heredocLine
      if current.quoted = false ∧ s.unquotedHeredocLogicalChunks ≠ [] then
        let logical :=
          s.unquotedHeredocLogicalChunks ++ [(stripUnquotedHeredocLineContinuation line).1]
        if hasUnquotedHeredocExpansionToken logical.flatten then
          .error (js "shell expansion in unquoted heredoc")
        else .ok s
      else if line = current.delimiter then
        .ok { s with
          pendingHeredocs := others
          unquotedHeredocLogicalChunks := []
          unquotedHeredocLogicalLength := 0
          inHeredocBody := !others.isEmpty }
      else .ok s
  | _, _ => .ok s

/-- What is left of `splitShellPipeline` after the here-documents. -/
def finish (s : PipelineScan) : Except JsString (List JsString) :=
  if !s.pendingHeredocs.isEmpty || s.inHeredocBody then .error (js "unterminated heredoc")
  else if s.escaped || s.inSingle || s.inDouble then
    .error (js "unterminated shell quote/escape")
  else if s.pushPart.segments = [] then .error (js "empty command")
  else if s.emptySegment then .error (js "empty pipeline segment")
  else .ok s.pushPart.segments

end PipelineScan

/-- `splitShellPipeline`: the segments, or the reason why there are none. -/
def splitShellPipeline (command : JsString) : Except JsString (List JsString) := do
  let s ← Scanner.scan pipelineStep {} command
  let s ← s.endHeredocTail
  s.finish

/-! ## The argument vector -/

def isArgDoubleQuoteEscape (next : Option CodeUnit) : Bool :=
  isDoubleQuoteEscape next || isEscapedLineContinuation next

/-- The variables of `splitShellArgs`. -/
structure ArgScan where
  tokens : List JsString := []
  buf : JsString := []
  inSingle : Bool := false
  inDouble : Bool := false
  escaped : Bool := false
deriving DecidableEq

namespace ArgScan

def put (s : ArgScan) (text : JsString) : ArgScan := { s with buf := s.buf ++ text }

def pushToken (s : ArgScan) : ArgScan :=
  if s.buf = [] then s else { s with tokens := s.tokens ++ [s.buf], buf := [] }

end ArgScan

/-- The loop body of `splitShellArgs`. -/
def argStep : Scanner.Step CodeUnit ArgScan JsString := fun _ ch rest s =>
  let next := rest.head?
  if s.escaped then .advance 0 { s.put [ch] with escaped := false }
  else if !s.inSingle && !s.inDouble && ch == backslash then .advance 0 { s with escaped := true }
  else if s.inSingle then
    if ch == singleQuote then .advance 0 { s with inSingle := false }
    else .advance 0 (s.put [ch])
  else if s.inDouble then
    if ch == backslash && isArgDoubleQuoteEscape next then .advance 1 (s.put next.toList)
    else if ch == doubleQuote then .advance 0 { s with inDouble := false }
    else .advance 0 (s.put [ch])
  else if ch == singleQuote then .advance 0 { s with inSingle := true }
  else if ch == doubleQuote then .advance 0 { s with inDouble := true }
  else if ch == hash && s.buf.isEmpty then .stop s
  else if isSpace ch then .advance 0 s.pushToken
  else .advance 0 (s.put [ch])

def splitShellArgs (raw : JsString) : Option (List JsString) :=
  match Scanner.scan argStep {} raw with
  | .error _ => none
  | .ok s =>
      if s.escaped || s.inSingle || s.inDouble then none else some s.pushToken.tokens

/-!
## Analysis of a shell command

A command is analysed into segments, each with its argument vector and the resolution of
its executable.
-/

/-! ## Segments -/

structure ExecutableResolution where
  rawExecutable : JsString := []
  executableName : JsString := []
  resolvedPath : Option JsString := none
  resolvedRealPath : Option JsString := none
deriving DecidableEq

structure CommandResolution where
  execution : ExecutableResolution := {}
  effectiveArgv : Option (List JsString) := none
  policyBlocked : Bool := false
deriving DecidableEq

structure ExecCommandSegment where
  raw : JsString
  argv : List JsString
  resolution : Option CommandResolution
deriving DecidableEq

structure ExecCommandAnalysis where
  segments : List ExecCommandSegment
  chains : Option (List (List ExecCommandSegment))
deriving DecidableEq

/-- What the analysis asks the host: the resolution of executables in its file system and
environment, the shell wrappers among the argument vectors, and the wrappers of a Windows
command line. -/
structure ExecHost where
  resolveCommandResolutionFromArgv : List JsString → Option CommandResolution
  extractShellWrapperInlineCommand : List JsString → Option JsString
  resolveShellWrapperTransportArgv : List JsString → Option (List JsString)
  stripWindowsShellWrapper : JsString → JsString

/-! ## Windows command lines -/

def windowsUnsupportedTokens : List CodeUnit :=
  [ampersand, pipe, less, greater, semicolon, unit '^', openParen, closeParen, unit '%',
    unit '!', backquote, lineFeed, carriageReturn]

def windowsAlwaysUnsafeTokens : List CodeUnit := [lineFeed, carriageReturn, unit '%', backquote]

def startsPowerShellExpansion (next : CodeUnit) : Bool :=
  (unit 'A' ≤ next && next ≤ unit 'Z') || (unit 'a' ≤ next && next ≤ unit 'z') ||
    (js "_(?$").contains next || next == unit '\x7b'

/-- The loop of `findWindowsUnsupportedToken`. -/
def windowsUnsupportedTokenFrom (inDouble : Bool) : JsString → Option JsString
  | [] => none
  | ch :: rest =>
      if ch == doubleQuote then windowsUnsupportedTokenFrom (!inDouble) rest
      else if ch == dollar then
        if rest.head?.any startsPowerShellExpansion then some [dollar]
        else windowsUnsupportedTokenFrom inDouble rest
      else if windowsUnsupportedTokens.contains ch then
        if inDouble && !windowsAlwaysUnsafeTokens.contains ch then
          windowsUnsupportedTokenFrom inDouble rest
        else some (if isNewline ch then js "newline" else [ch])
      else windowsUnsupportedTokenFrom inDouble rest

def findWindowsUnsupportedToken (command : JsString) : Option JsString :=
  windowsUnsupportedTokenFrom false command

/-- The variables of `tokenizeWindowsSegment`. -/
structure WindowsScan where
  tokens : List JsString := []
  buf : JsString := []
  inDouble : Bool := false
  inSingle : Bool := false
  wasQuoted : Bool := false
deriving DecidableEq

def WindowsScan.pushToken (s : WindowsScan) : WindowsScan :=
  if s.buf.isEmpty && !s.wasQuoted then { s with wasQuoted := false }
  else { s with tokens := s.tokens ++ [s.buf], buf := [], wasQuoted := false }

/-- The loop body of `tokenizeWindowsSegment`. -/
def windowsStep : Scanner.Step CodeUnit WindowsScan JsString := fun _ ch rest s =>
  if ch == doubleQuote && !s.inSingle then
    .advance 0 { s with wasQuoted := s.wasQuoted || !s.inDouble, inDouble := !s.inDouble }
  else if ch == singleQuote && !s.inDouble then
    if s.inSingle && rest.head? == some singleQuote then
      .advance 1 { s with buf := s.buf ++ [singleQuote] }
    else .advance 0 { s with wasQuoted := s.wasQuoted || !s.inSingle, inSingle := !s.inSingle }
  else if !s.inDouble && !s.inSingle && isSpace ch then .advance 0 s.pushToken
  else .advance 0 { s with buf := s.buf ++ [ch] }

def tokenizeWindowsSegment (segment : JsString) : Option (List JsString) :=
  match Scanner.scan windowsStep {} segment with
  | .error _ => none
  | .ok s =>
      if s.inDouble || s.inSingle then none
      else if s.pushToken.tokens = [] then none
      else some s.pushToken.tokens

def isWindowsPlatform [UnicodeCase] (platform : Option JsString) : Bool :=
  (js "win").isPrefixOf (normalizeLowercaseStringOrEmpty platform)

/-! ## The analysis -/

def parseSegmentsFromParts (host : ExecHost) :
    List JsString → Except JsString (List ExecCommandSegment)
  | [] => .ok []
  | raw :: parts =>
      match splitShellArgs raw with
      | none | some [] => .error (js "unable to parse shell segment")
      | some (exe :: args) => do
          let segments ← parseSegmentsFromParts host parts
          return ⟨raw, exe :: args, host.resolveCommandResolutionFromArgv (exe :: args)⟩ ::
            segments

def analyzePipeline (host : ExecHost) (part : JsString) :
    Except JsString (List ExecCommandSegment) := do
  parseSegmentsFromParts host (← splitShellPipeline part)

def analyzeWindowsShellCommand (host : ExecHost) (command : JsString) :
    Except JsString ExecCommandAnalysis :=
  let effective := host.stripWindowsShellWrapper (trim command)
  match findWindowsUnsupportedToken effective with
  | some unsupported => .error (js "unsupported windows shell token: " ++ unsupported)
  | none =>
      match tokenizeWindowsSegment effective with
      | none => .error (js "unable to parse windows command")
      | some argv =>
          .ok ⟨[⟨command, argv, host.resolveCommandResolutionFromArgv argv⟩], none⟩

def analyzeShellCommand [UnicodeCase] (host : ExecHost) (platform : Option JsString)
    (command : JsString) : Except JsString ExecCommandAnalysis :=
  if isWindowsPlatform platform then analyzeWindowsShellCommand host command
  else
    match splitCommandChain command with
    | some chainParts => do
        let chains ← chainParts.mapM (analyzePipeline host)
        return ⟨chains.flatten, some chains⟩
    | none => do
        let segments ← analyzePipeline host command
        return ⟨segments, none⟩

/-! ## Quoting -/

def hasWindowsUnsafeCmdMeta : JsString → Bool
  | [] => false
  | ch :: rest =>
      ch == unit '%' || ch == backquote ||
        (ch == dollar && rest.head?.any startsPowerShellExpansion) ||
        hasWindowsUnsafeCmdMeta rest

def isWindowsSafe (ch : CodeUnit) : Bool :=
  (unit 'a' ≤ ch && ch ≤ unit 'z') || (unit 'A' ≤ ch && ch ≤ unit 'Z') ||
    (unit '0' ≤ ch && ch ≤ unit '9') || (js "_./:~\\=-").contains ch

def windowsEscapeArg (value : JsString) : Option JsString :=
  if value = [] then some [doubleQuote, doubleQuote]
  else if hasWindowsUnsafeCmdMeta value then none
  else if value.all isWindowsSafe then some value
  else
    some ([doubleQuote] ++
      (value.flatMap fun ch => if ch == doubleQuote then [ch, ch] else [ch]) ++ [doubleQuote])

def joinBlank (texts : List JsString) : JsString := [blank].intercalate texts

/-- `renderWindowsQuotedArgv`, without the reason of a failure, which no caller here
reports. -/
def renderWindowsQuotedArgv (argv : List JsString) : Option JsString :=
  (argv.mapM windowsEscapeArg).map joinBlank

end GreenchClaw.Exec
