import GreenchClaw.Exec.SkillPreludes
import GreenchClaw.Js.Map

/-!
# Safe binaries

A safe binary runs without approval as long as its arguments keep it to its standard input.  A
profile says how many operands it takes, which flags take a value and which flags are denied;
arguments that the profile does not account for are refused.
-/

namespace GreenchClaw.Exec

open GreenchClaw.Js

/-! ## Profiles -/

structure SafeBinProfileFixture where
  minPositional : Option ℕ := none
  maxPositional : Option ℕ := none
  allowedValueFlags : List JsString := []
  deniedFlags : List JsString := []

def collectKnownLongFlags (allowedValueFlags deniedFlags : List JsString) : List JsString :=
  ((allowedValueFlags ++ deniedFlags).filter fun flag => (js "--").isPrefixOf flag).eraseDups

/-- One length of the inner loop of `buildLongFlagPrefixMap`: a prefix of a second flag is
ambiguous from then on. -/
def addFlagPrefix (flag : JsString) (prefixMap : Map (Option JsString)) (length : ℕ) :
    Map (Option JsString) :=
  match prefixMap.get (flag.take length) with
  | none => prefixMap.set (flag.take length) (some flag)
  | some existing =>
    if existing ≠ some flag then prefixMap.set (flag.take length) none else prefixMap

/-- The lengths of the prefixes of a flag: a letter behind the dashes at least. -/
def flagPrefixLengths (flag : JsString) : List ℕ :=
  if (js "--").isPrefixOf flag && decide (2 < flag.length) then
    List.range' 3 (flag.length - 2)
  else []

def buildLongFlagPrefixMap (knownLongFlags : List JsString) : Map (Option JsString) :=
  knownLongFlags.foldl
    (fun prefixMap flag => (flagPrefixLengths flag).foldl (addFlagPrefix flag) prefixMap) Map.empty

structure SafeBinProfile where
  minPositional : Option ℕ := none
  maxPositional : Option ℕ := none
  allowedValueFlags : Option (List JsString) := none
  deniedFlags : Option (List JsString) := none
  knownLongFlags : Option (List JsString) := none
  knownLongFlagsSet : Option (List JsString) := none
  longFlagPrefixMap : Option (Map (Option JsString)) := none
  knownLongFlags_eq : ∀ flags ∈ knownLongFlags,
    flags = collectKnownLongFlags (allowedValueFlags.getD []) (deniedFlags.getD [])
  knownLongFlagsSet_eq : ∀ flags ∈ knownLongFlagsSet,
    flags = collectKnownLongFlags (allowedValueFlags.getD []) (deniedFlags.getD [])
  longFlagPrefixMap_eq : ∀ prefixMap ∈ longFlagPrefixMap,
    prefixMap = buildLongFlagPrefixMap
      (collectKnownLongFlags (allowedValueFlags.getD []) (deniedFlags.getD []))

def compileSafeBinProfile (fixture : SafeBinProfileFixture) : SafeBinProfile where
  minPositional := fixture.minPositional
  maxPositional := fixture.maxPositional
  allowedValueFlags := some fixture.allowedValueFlags
  deniedFlags := some fixture.deniedFlags
  knownLongFlags := some (collectKnownLongFlags fixture.allowedValueFlags fixture.deniedFlags)
  knownLongFlagsSet := some (collectKnownLongFlags fixture.allowedValueFlags fixture.deniedFlags)
  longFlagPrefixMap := some
    (buildLongFlagPrefixMap (collectKnownLongFlags fixture.allowedValueFlags fixture.deniedFlags))
  knownLongFlags_eq := by
    intro flags hflags
    exact (Option.some.inj hflags).symm
  knownLongFlagsSet_eq := by
    intro flags hflags
    exact (Option.some.inj hflags).symm
  longFlagPrefixMap_eq := by
    intro prefixMap hmap
    exact (Option.some.inj hmap).symm

/-! ## Tokens -/

inductive ExecArgvToken where
  | empty
  | terminator
  | stdin
  | positional (raw : JsString)
  | long (flag : JsString) (inlineValue : Option JsString)
  | shortCluster (cluster : JsString)
deriving DecidableEq

def parseExecArgvToken (raw : JsString) : ExecArgvToken :=
  if raw = [] then .empty
  else if raw = js "--" then .terminator
  else if raw = js "-" then .stdin
  else if !(js "-").isPrefixOf raw then .positional raw
  else if (js "--").isPrefixOf raw then
    match raw.idxOf? (unit '=') with
    | some eqIndex =>
      if 0 < eqIndex then .long (raw.take eqIndex) (some (raw.drop (eqIndex + 1)))
      else .long raw none
    | none => .long raw none
  else .shortCluster (raw.drop 1)

/-- The drive in front of `^[A-Za-z]:[\\/]`. -/
def hasDrivePrefix : JsString → Bool
  | letter :: colon :: separator :: _ =>
    isAsciiLetter letter && colon == unit ':' && (separator == backslash || separator == slash)
  | _ => false

def isPathLikeToken (value : JsString) : Bool :=
  let trimmed := trim value
  if trimmed = [] then false
  else if trimmed = js "-" then false
  else if (js "./").isPrefixOf trimmed || (js "../").isPrefixOf trimmed ||
      (js "~").isPrefixOf trimmed then true
  else if (js "/").isPrefixOf trimmed then true
  else hasDrivePrefix trimmed

def hasGlobToken (value : JsString) : Bool := value.any fun u => (js "*?[]").contains u

def hasShellExpansionToken : JsString → Bool
  | dollar :: next :: rest =>
    (dollar == unit '$' && (isWordUnit next || (js "@*?!$#-\x7b([").contains next)) ||
      hasShellExpansionToken (next :: rest)
  | _ => false

def isSafeLiteralToken (value : JsString) : Bool :=
  if value = [] ∨ value = js "-" then true
  else !hasGlobToken value && !hasShellExpansionToken value && !isPathLikeToken value

def isInvalidValueToken (value : Option JsString) : Bool :=
  match value with
  | none => true
  | some value => decide (value = []) || !isSafeLiteralToken value

/-! ## Options -/

structure SafeBinFlags where
  allowedValueFlags : List JsString
  deniedFlags : List JsString
  knownLongFlagsSet : List JsString
  longFlagPrefixMap : Map (Option JsString)

/-- The first lines of `collectPositionalTokens`. -/
def SafeBinProfile.flags (profile : SafeBinProfile) : SafeBinFlags :=
  let allowedValueFlags := profile.allowedValueFlags.getD []
  let deniedFlags := profile.deniedFlags.getD []
  let knownLongFlags :=
    profile.knownLongFlags.getD (collectKnownLongFlags allowedValueFlags deniedFlags)
  { allowedValueFlags
    deniedFlags
    knownLongFlagsSet := profile.knownLongFlagsSet.getD knownLongFlags
    longFlagPrefixMap := profile.longFlagPrefixMap.getD (buildLongFlagPrefixMap knownLongFlags) }

def resolveCanonicalLongFlag (flags : SafeBinFlags) (flag : JsString) : Option JsString :=
  if !(js "--").isPrefixOf flag || decide (flag.length ≤ 2) then none
  else if flag ∈ flags.knownLongFlagsSet then some flag
  else (flags.longFlagPrefixMap.get flag).getD none

/-- `consumeLongOptionToken`: how many of the following arguments belong to the option, and `none`
when it is refused. -/
def consumeLongOptionToken (flags : SafeBinFlags) (next : Option JsString) (flag : JsString)
    (inlineValue : Option JsString) : Option ℕ :=
  match resolveCanonicalLongFlag flags flag with
  | none => none
  | some canonicalFlag =>
    if canonicalFlag = [] then none
    else if canonicalFlag ∈ flags.deniedFlags then none
    else
      match inlineValue with
      | some value =>
        if canonicalFlag ∉ flags.allowedValueFlags then none
        else if isSafeLiteralToken value then some 0 else none
      | none =>
        if canonicalFlag ∉ flags.allowedValueFlags then some 0
        else if isInvalidValueToken next then none else some 1

def consumeShortOptionClusterToken (flags : SafeBinFlags) (next : Option JsString) :
    JsString → Option ℕ
  | [] => none
  | entry :: inlineValue =>
    if [unit '-', entry] ∈ flags.deniedFlags then none
    else if [unit '-', entry] ∉ flags.allowedValueFlags then
      consumeShortOptionClusterToken flags next inlineValue
    else if inlineValue ≠ [] then
      if isSafeLiteralToken inlineValue then some 0 else none
    else if isInvalidValueToken next then none else some 1

/-! ## Operands -/

def collectTerminatedTokens : List JsString → Option (List JsString)
  | [] => some []
  | token :: rest =>
    if token = [] ∨ token = js "-" then collectTerminatedTokens rest
    else if isSafeLiteralToken token then
      (collectTerminatedTokens rest).map fun positional => token :: positional
    else none

/-- `collectPositionalTokens`, behind so many arguments that belong to an option. -/
def collectPositionalTokens (flags : SafeBinFlags) : ℕ → List JsString → Option (List JsString)
  | _, [] => some []
  | consumed + 1, _ :: rest => collectPositionalTokens flags consumed rest
  | 0, rawToken :: rest =>
    match parseExecArgvToken rawToken with
    | .empty | .stdin => collectPositionalTokens flags 0 rest
    | .terminator => collectTerminatedTokens rest
    | .positional raw =>
      if isSafeLiteralToken raw then
        (collectPositionalTokens flags 0 rest).map fun positional => raw :: positional
      else none
    | .long flag inlineValue =>
      match consumeLongOptionToken flags rest.head? flag inlineValue with
      | none => none
      | some consumed => collectPositionalTokens flags consumed rest
    | .shortCluster cluster =>
      match consumeShortOptionClusterToken flags rest.head? cluster with
      | none => none
      | some consumed => collectPositionalTokens flags consumed rest

def validatePositionalCount (positional : List JsString) (profile : SafeBinProfile) : Bool :=
  if positional.length < profile.minPositional.getD 0 then false
  else
    match profile.maxPositional with
    | some maxPositional => !decide (maxPositional < positional.length)
    | none => true

/-! ## Rules of single binaries -/

/-- `JQ_ENV_FILTER_PATTERN.test`, behind the unit `previous`. -/
def jqEnvFilterFrom (previous : Option CodeUnit) : JsString → Bool
  | [] => false
  | u :: rest =>
    (previous.all (fun u => !isWordUnit u && u ≠ unit '.' && u ≠ unit '$') &&
      (js "env").isPrefixOf (u :: rest) && ((u :: rest)[3]?).all fun u => !isWordUnit u) ||
    jqEnvFilterFrom (some u) rest

def hasJqEnvVariable (token : JsString) : Bool :=
  token.tails.any fun tail => (js "$ENV").isPrefixOf tail && (tail[4]?).all fun u => !isWordUnit u

def normalizeSafeBinName [UnicodeCase] (raw : JsString) : JsString :=
  let trimmed := normalizeLowercaseStringOrEmpty (some raw)
  let normalized := trimmed.rtakeWhile fun ch => !(ch == slash || ch == backslash)
  let ending := (normalized.drop (normalized.length - 4)).map asciiLower
  if ending ∈ windowsExecutableSuffixes then normalized.take (normalized.length - 4)
  else normalized

def safeBinSemanticRule (name : JsString) : Option (List JsString → Bool) :=
  if name = js "jq" then
    some fun positional =>
      !positional.any fun token => jqEnvFilterFrom none token || hasJqEnvVariable token
  else if name ∈ [js "awk", js "gawk", js "mawk", js "nawk", js "sed", js "gsed"] then
    some fun _ => false
  else none

def validateSafeBinSemantics [UnicodeCase] (binName : Option JsString)
    (positional : List JsString) : Bool :=
  match binName with
  | none => true
  | some binName =>
    match safeBinSemanticRule (normalizeSafeBinName binName) with
    | some validate => validate positional
    | none => true

def validateSafeBinArgv [UnicodeCase] (args : List JsString) (profile : SafeBinProfile)
    (binName : Option JsString) : Bool :=
  match collectPositionalTokens profile.flags 0 args with
  | none => false
  | some positional =>
    if validatePositionalCount positional profile then
      validateSafeBinSemantics binName positional
    else false

end GreenchClaw.Exec
