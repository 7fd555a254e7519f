import GreenchClaw.Exec.ArgPatterns
import GreenchClaw.Js.Map
import GreenchClaw.Routing.SessionKey

/-!
# The exec allowlist

An agent of the approvals file has a list of entries, each with a pattern for the executable and perhaps one
for the arguments.  Here are the match of a command against the list and the two functions that add entries,
and what an added entry changes for the others.
-/

namespace GreenchClaw.Exec

open GreenchClaw.Js
open GreenchClaw.Routing (DEFAULT_AGENT_ID)

/-! ## The approvals file -/

inductive AllowlistSource where
  | allowAlways
deriving DecidableEq

structure ExecAllowlistEntry where
  id : Option JsString := none
  pattern : JsString
  source : Option AllowlistSource := none
  commandText : Option JsString := none
  argPattern : Option JsString := none
  lastUsedAt : Option ℕ := none
  lastUsedCommand : Option JsString := none
  lastResolvedPath : Option JsString := none
deriving DecidableEq

inductive ExecSecurity where
  | deny
  | allowlist
  | full
deriving DecidableEq

inductive ExecAsk where
  | off
  | onMiss
  | always
deriving DecidableEq

structure ExecApprovalsDefaults where
  security : Option ExecSecurity := none
  ask : Option ExecAsk := none
  askFallback : Option ExecSecurity := none
  autoAllowSkills : Option Bool := none
deriving DecidableEq

structure ExecApprovalsAgent where
  policy : ExecApprovalsDefaults := {}
  allowlist : Option (List ExecAllowlistEntry) := none
deriving DecidableEq

structure ExecApprovalsSocket where
  path : Option JsString := none
  token : Option JsString := none
deriving DecidableEq

structure ExecApprovalsFile where
  socket : ExecApprovalsSocket := {}
  defaults : ExecApprovalsDefaults := {}
  agents : Option (Map ExecApprovalsAgent) := none

def ExecApprovalsFile.allowlistOf (approvals : ExecApprovalsFile) (target : JsString) :
    List ExecAllowlistEntry :=
  (((approvals.agents.getD Map.empty).get target).getD {}).allowlist.getD []

/-! ## Matching -/

/-- What the match asks the host beside the argument patterns: the file system, the home directory and the
case folding of regular expressions. -/
structure AllowlistHost extends ArgPatternHost where
  tryRealpath : JsString → Option JsString
  expandHomePrefix : JsString → JsString
  canonicalize : CodeUnit → CodeUnit

inductive GlobPart where
  /-- `.*` -/
  | anything
  /-- `[^/]*` -/
  | segment
  /-- `[^/]` -/
  | one
  | literal (u : CodeUnit)
deriving DecidableEq

/-- The parts that `compileGlobRegex` puts into its regular expression. -/
def globParts : JsString → List GlobPart
  | [] => []
  | u :: rest =>
    if u = unit '*' then
      match rest with
      | v :: rest => if v = unit '*' then .anything :: globParts rest else .segment :: globParts (v :: rest)
      | [] => [.segment]
    else if u = unit '?' then .one :: globParts rest
    else .literal u :: globParts rest

variable (host : AllowlistHost)

def AllowlistHost.isWin32 : Bool := host.processPlatform == js "win32"

def globTest : List GlobPart → JsString → Bool
  | [], text => text.isEmpty
  | .anything :: parts, text =>
    text.tails.any fun rest =>
      (text.take (text.length - rest.length)).all (fun u => !isLineTerminator u) && globTest parts rest
  | .segment :: parts, text =>
    text.tails.any fun rest =>
      (text.take (text.length - rest.length)).all (fun u => u != slash) && globTest parts rest
  | .one :: parts, u :: text => u != slash && globTest parts text
  | .literal v :: parts, u :: text =>
    (if host.isWin32 then host.canonicalize v == host.canonicalize u else v == u) && globTest parts text
  | .one :: _, [] => false
  | .literal _ :: _, [] => false

def stripDevicePrefix : JsString → JsString
  | a :: b :: c :: d :: rest =>
    if a = backslash ∧ b = backslash ∧ (c = unit '?' ∨ c = unit '.') ∧ d = backslash then rest
    else a :: b :: c :: d :: rest
  | value => value

/-- `value.replace(/\\\\/g, "/")`: two backslashes become a slash. -/
def slashDoubled : JsString → JsString
  | a :: b :: rest =>
    if a = backslash ∧ b = backslash then slash :: slashDoubled rest else a :: slashDoubled (b :: rest)
  | value => value

def normalizeMatchTarget [UnicodeCase] (value : JsString) : JsString :=
  if host.isWin32 then
    normalizeLowercaseStringOrEmpty
      (some ((stripDevicePrefix value).map fun u => if u = backslash then slash else u))
  else slashDoubled value

def matchesExecAllowlistPattern [UnicodeCase] (pattern target : JsString) : Bool :=
  let trimmed := trim pattern
  if trimmed = [] then false
  else
    let expanded := if trimmed.head? = some (unit '~') then host.expandHomePrefix trimmed else trimmed
    let hasWildcard := expanded.any fun u => u == unit '*' || u == unit '?'
    let real := fun value =>
      if host.isWin32 && !hasWildcard then (host.tryRealpath value).getD value else value
    globTest host (globParts (normalizeMatchTarget host (real expanded)))
      (normalizeMatchTarget host (real target))

def hasPathSelector (value : JsString) : Bool :=
  value.contains slash || value.contains backslash || value.contains (unit '~')

def matchesExecutableBasenamePattern [UnicodeCase] (pattern : JsString)
    (resolution : ExecutableResolution) : Bool :=
  if hasPathSelector resolution.rawExecutable then false
  else
    let name := if resolution.executableName = [] then [] else [resolution.executableName]
    let base := match resolution.resolvedPath with
      | some path => if path = [] then [] else [host.basename path]
      | none => []
    (name ++ base).any fun candidate => matchesExecAllowlistPattern host pattern candidate

def ExecAllowlistEntry.hasArgPattern (entry : ExecAllowlistEntry) : Bool :=
  match entry.argPattern with
  | some argPattern => !argPattern.isEmpty
  | none => false

def isBareWild (entry : ExecAllowlistEntry) : Bool :=
  decide (trim entry.pattern = [unit '*']) && !entry.hasArgPattern

def patternMatches [UnicodeCase] (pattern : JsString) (resolution : ExecutableResolution)
    (resolvedPath : JsString) : Bool :=
  if hasPathSelector pattern then matchesExecAllowlistPattern host pattern resolvedPath
  else decide (pattern ≠ [unit '*']) && matchesExecutableBasenamePattern host pattern resolution

def matchEntries [UnicodeCase] (resolution : ExecutableResolution) (resolvedPath : JsString)
    (argv : Option (List JsString)) (platform : Option JsString) :
    Option ExecAllowlistEntry → List ExecAllowlistEntry → Option ExecAllowlistEntry
  | pathOnlyMatch, [] => pathOnlyMatch
  | pathOnlyMatch, entry :: entries =>
    let pattern := trim entry.pattern
    if pattern = [] then matchEntries resolution resolvedPath argv platform pathOnlyMatch entries
    else if !patternMatches host pattern resolution resolvedPath then
      matchEntries resolution resolvedPath argv platform pathOnlyMatch entries
    else if !entry.hasArgPattern then
      matchEntries resolution resolvedPath argv platform (pathOnlyMatch.or (some entry)) entries
    else if argv.any fun argv =>
        matchArgPattern host.toArgPatternHost (entry.argPattern.getD []) argv platform then some entry
    else matchEntries resolution resolvedPath argv platform pathOnlyMatch entries

def matchAllowlist [UnicodeCase] (entries : List ExecAllowlistEntry)
    (resolution : Option ExecutableResolution) (argv : Option (List JsString))
    (platform : Option JsString) : Option ExecAllowlistEntry :=
  match entries.find? isBareWild, resolution with
  | some bareWild, some _ => some bareWild
  | _, none => none
  | none, some resolution =>
    match resolution.resolvedPath with
    | none => none
    | some resolvedPath =>
      if resolvedPath = [] then none
      else matchEntries host resolution resolvedPath argv platform none entries

/-! ## Adding -/

structure AddOptions where
  argPattern : Option JsString := none
  source : Option AllowlistSource := none

structure Stamp where
  now : ℕ
  randomUUID : JsString

def addAllowlistEntry (approvals : ExecApprovalsFile) (agentId : Option JsString) (pattern : JsString)
    (options : AddOptions) (stamp : Stamp) : ExecApprovalsFile :=
  let target := agentId.getD DEFAULT_AGENT_ID
  let agents := approvals.agents.getD Map.empty
  let existing := (agents.get target).getD {}
  let allowlist := existing.allowlist.getD []
  let trimmed := trim pattern
  if trimmed = [] then approvals
  else
    let trimmedArgPattern := normalizeOptionalString options.argPattern
    let existingEntry := allowlist.find? fun entry =>
      decide (entry.pattern = trimmed ∧ entry.argPattern = trimmedArgPattern)
    let save := fun nextAllowlist =>
      { approvals with
        agents := some (agents.set target { existing with allowlist := some nextAllowlist }) }
    match existingEntry with
    | some existingEntry =>
      if options.source.isNone || decide (existingEntry.source = options.source) then approvals
      else
        save (allowlist.map fun entry =>
          if entry.pattern = trimmed then
            { entry with
              argPattern := trimmedArgPattern
              source := options.source.or entry.source
              lastUsedAt := some stamp.now }
          else entry)
    | none =>
      save (allowlist ++
        [{ id := some stamp.randomUUID
           pattern := trimmed
           argPattern := trimmedArgPattern
           source := options.source
           lastUsedAt := some stamp.now }])

structure AllowAlwaysPattern where
  pattern : JsString
  argPattern : Option JsString := none

/-- `persistAllowAlwaysPatterns`, given the patterns of the segments; the calls are counted for the clock and
the random ids. -/
def persistAllowAlwaysPatterns (agentId : Option JsString) (stamps : ℕ → Stamp) :
    ℕ → ExecApprovalsFile → List AllowAlwaysPattern → ExecApprovalsFile
  | _, approvals, [] => approvals
  | calls, approvals, pattern :: patterns =>
    if pattern.pattern = [] then persistAllowAlwaysPatterns agentId stamps calls approvals patterns
    else
      persistAllowAlwaysPatterns agentId stamps (calls + 1)
        (addAllowlistEntry approvals agentId pattern.pattern
          { argPattern := pattern.argPattern, source := some .allowAlways } (stamps calls)) patterns

/-! ## What a list accepts -/

abbrev PatternPair := JsString × Option JsString

def ExecAllowlistEntry.pair (entry : ExecAllowlistEntry) : PatternPair := (entry.pattern, entry.argPattern)

def entryOf (pair : PatternPair) : ExecAllowlistEntry := { pattern := pair.1, argPattern := pair.2 }

def addedPair (pattern : JsString) (argPattern : Option JsString) : PatternPair :=
  (trim pattern, normalizeOptionalString argPattern)

section Accepts

variable [UnicodeCase]

def Accepts (entries : List ExecAllowlistEntry) (resolution : Option ExecutableResolution)
    (argv : Option (List JsString)) (platform : Option JsString) : Prop :=
  (matchAllowlist host entries resolution argv platform).isSome = true

def EntryMatches (entry : ExecAllowlistEntry) (resolution : ExecutableResolution) (resolvedPath : JsString)
    (argv : Option (List JsString)) (platform : Option JsString) : Prop :=
  trim entry.pattern ≠ [] ∧ patternMatches host (trim entry.pattern) resolution resolvedPath = true ∧
    (entry.hasArgPattern = true →
      (argv.any fun argv =>
        matchArgPattern host.toArgPatternHost (entry.argPattern.getD []) argv platform) = true)

def EntryAccepts (entry : ExecAllowlistEntry) (resolution : Option ExecutableResolution)
    (argv : Option (List JsString)) (platform : Option JsString) : Prop :=
  ∃ resolved, resolution = some resolved ∧
    (isBareWild entry = true ∨
      ∃ resolvedPath, resolved.resolvedPath = some resolvedPath ∧ resolvedPath ≠ [] ∧
        EntryMatches host entry resolved resolvedPath argv platform)

variable {host}

theorem matchEntries_isSome (resolution : ExecutableResolution) (resolvedPath : JsString)
    (argv : Option (List JsString)) (platform : Option JsString)
    (pathOnlyMatch : Option ExecAllowlistEntry) (entries : List ExecAllowlistEntry) :
    (matchEntries host resolution resolvedPath argv platform pathOnlyMatch entries).isSome = true ↔
      pathOnlyMatch.isSome = true ∨
        ∃ entry ∈ entries, EntryMatches host entry resolution resolvedPath argv platform := by
  induction entries generalizing pathOnlyMatch with
  | nil => simp [matchEntries]
  | cons entry entries ih =>
      unfold matchEntries
      simp only [List.exists_mem_cons_iff]
      by_cases hblank : trim entry.pattern = []
      · have hnot : ¬ EntryMatches host entry resolution resolvedPath argv platform :=
          fun h => h.1 hblank
        rw [if_pos hblank, ih, or_iff_right hnot]
      · rw [if_neg hblank]
        by_cases hpattern : patternMatches host (trim entry.pattern) resolution resolvedPath = true
        · rw [hpattern, Bool.not_true, if_neg Bool.false_ne_true]
          by_cases hargs : entry.hasArgPattern = true
          · rw [hargs, Bool.not_true, if_neg Bool.false_ne_true]
            by_cases hmatch : (argv.any fun argv =>
                matchArgPattern host.toArgPatternHost (entry.argPattern.getD []) argv platform) = true
            · have hentry : EntryMatches host entry resolution resolvedPath argv platform :=
                ⟨hblank, hpattern, fun _ => hmatch⟩
              rw [if_pos hmatch]
              exact iff_of_true rfl (Or.inr (Or.inl hentry))
            · have hnot : ¬ EntryMatches host entry resolution resolvedPath argv platform :=
                fun h => hmatch (h.2.2 hargs)
              rw [if_neg hmatch, ih, or_iff_right hnot]
          · have hentry : EntryMatches host entry resolution resolvedPath argv platform :=
              ⟨hblank, hpattern, fun h => absurd h hargs⟩
            rw [Bool.not_eq_true] at hargs
            rw [hargs, Bool.not_false, if_pos rfl, ih]
            have hor : (pathOnlyMatch.or (some entry)).isSome = true := by
              cases pathOnlyMatch <;> rfl
            exact iff_of_true (Or.inl hor) (Or.inr (Or.inl hentry))
        · have hnot : ¬ EntryMatches host entry resolution resolvedPath argv platform :=
            fun h => hpattern h.2.1
          rw [Bool.not_eq_true] at hpattern
          rw [hpattern, Bool.not_false, if_pos rfl, ih, or_iff_right hnot]

theorem accepts_iff {entries : List ExecAllowlistEntry} {resolution : Option ExecutableResolution}
    {argv : Option (List JsString)} {platform : Option JsString} :
    Accepts host entries resolution argv platform ↔
      ∃ entry ∈ entries, EntryAccepts host entry resolution argv platform := by
  unfold Accepts matchAllowlist
  cases resolution with
  | none =>
      have hnone : ¬ ∃ entry ∈ entries, EntryAccepts host entry none argv platform := by
        intro h
        obtain ⟨_, _, _, habsurd, _⟩ := h
        exact nomatch habsurd
      cases entries.find? isBareWild with
      | none => exact iff_of_false Bool.false_ne_true hnone
      | some bareWild => exact iff_of_false Bool.false_ne_true hnone
  | some resolved =>
      cases hfind : entries.find? isBareWild with
      | some bareWild =>
          have hwild := List.find?_some hfind
          exact iff_of_true rfl
            ⟨bareWild, List.mem_of_find?_eq_some hfind, resolved, rfl, Or.inl hwild⟩
      | none =>
          have hnotWild : ∀ entry ∈ entries, isBareWild entry ≠ true := List.find?_eq_none.mp hfind
          have hpath : (∃ entry ∈ entries, EntryAccepts host entry (some resolved) argv platform) ↔
              ∃ resolvedPath, resolved.resolvedPath = some resolvedPath ∧ resolvedPath ≠ [] ∧
                ∃ entry ∈ entries, EntryMatches host entry resolved resolvedPath argv platform := by
            constructor
            · intro h
              obtain ⟨entry, hentry, other, hother, haccepts⟩ := h
              rw [← Option.some.inj hother] at haccepts
              cases haccepts with
              | inl hwild => exact absurd hwild (hnotWild entry hentry)
              | inr hmatch =>
                  obtain ⟨resolvedPath, hresolved, hne, hmatch⟩ := hmatch
                  exact ⟨resolvedPath, hresolved, hne, entry, hentry, hmatch⟩
            · intro h
              obtain ⟨resolvedPath, hresolved, hne, entry, hentry, hmatch⟩ := h
              exact ⟨entry, hentry, resolved, rfl, Or.inr ⟨resolvedPath, hresolved, hne, hmatch⟩⟩
          rw [hpath]
          simp only
          cases hresolved : resolved.resolvedPath with
          | none => simp
          | some resolvedPath =>
              by_cases hempty : resolvedPath = []
              · simp [hempty]
              · simp only [Option.some.injEq]
                rw [if_neg hempty, matchEntries_isSome]
                simp [hempty]

theorem accepts_iff_pair {entries : List ExecAllowlistEntry} {resolution : Option ExecutableResolution}
    {argv : Option (List JsString)} {platform : Option JsString} :
    Accepts host entries resolution argv platform ↔
      ∃ pair ∈ entries.map ExecAllowlistEntry.pair,
        EntryAccepts host (entryOf pair) resolution argv platform := by
  rw [accepts_iff]
  constructor
  · intro h
    obtain ⟨entry, hentry, haccepts⟩ := h
    exact ⟨entry.pair, List.mem_map_of_mem hentry, haccepts⟩
  · intro h
    obtain ⟨pair, hpair, haccepts⟩ := h
    obtain ⟨entry, hentry, heq⟩ := List.mem_map.mp hpair
    rw [← heq] at haccepts
    exact ⟨entry, hentry, haccepts⟩

theorem accepts_append {entries added : List ExecAllowlistEntry}
    {resolution : Option ExecutableResolution} {argv : Option (List JsString)}
    {platform : Option JsString} :
    Accepts host (entries ++ added) resolution argv platform ↔
      Accepts host entries resolution argv platform ∨ Accepts host added resolution argv platform := by
  simp only [accepts_iff, List.mem_append, or_and_right, exists_or]

theorem not_entryAccepts_blank {entry : ExecAllowlistEntry} (hblank : trim entry.pattern = [])
    {resolution : Option ExecutableResolution} {argv : Option (List JsString)}
    {platform : Option JsString} : ¬ EntryAccepts host entry resolution argv platform := by
  intro h
  obtain ⟨resolved, _, haccepts⟩ := h
  cases haccepts with
  | inl hwild =>
      rw [isBareWild, hblank] at hwild
      exact absurd hwild (by simp)
  | inr hmatch =>
      obtain ⟨_, _, _, hmatches⟩ := hmatch
      exact hmatches.1 hblank

theorem not_accepts_blank {pairs : List PatternPair} (hblank : ∀ pair ∈ pairs, trim pair.1 = [])
    {resolution : Option ExecutableResolution} {argv : Option (List JsString)}
    {platform : Option JsString} : ¬ Accepts host (pairs.map entryOf) resolution argv platform := by
  intro haccepts
  obtain ⟨entry, hentry, haccepts⟩ := accepts_iff.mp haccepts
  obtain ⟨pair, hpair, heq⟩ := List.mem_map.mp hentry
  have hpattern : trim entry.pattern = [] := by
    rw [← heq]
    exact hblank pair hpair
  exact not_entryAccepts_blank hpattern haccepts

end Accepts

/-! ## What a call changes -/

/-- The file after entries for these pairs were added to an agent, and nothing else was changed in what
entries stand for. -/
structure AddsOnly [UnicodeCase] (target : JsString) (pairs : List PatternPair)
    (before after : ExecApprovalsFile) : Prop where
  others : ∀ (i : ℕ) (entry : ExecAllowlistEntry), (before.allowlistOf target)[i]? = some entry →
    entry.pair ∉ pairs → (after.allowlistOf target)[i]? = some entry
  agents : ∀ other, other ≠ target →
    (after.agents.getD Map.empty).get other = (before.agents.getD Map.empty).get other
  distinct : ((before.allowlistOf target).map ExecAllowlistEntry.pair).Nodup →
    ((after.allowlistOf target).map ExecAllowlistEntry.pair).Nodup
  accepts : ∀ resolution argv platform,
    Accepts host (after.allowlistOf target) resolution argv platform ↔
      Accepts host (before.allowlistOf target) resolution argv platform ∨
        Accepts host (pairs.map entryOf) resolution argv platform

/-- The pair is listed already, first with another source than the one given, and some other entry has the
same pattern with other arguments. -/
def RewritesOthers (approvals : ExecApprovalsFile) (agentId : Option JsString) (pattern : JsString)
    (options : AddOptions) : Prop :=
  trim pattern ≠ [] ∧ options.source ≠ none ∧
    (∃ existingEntry : ExecAllowlistEntry,
      ((approvals.allowlistOf (agentId.getD DEFAULT_AGENT_ID)).find? fun entry : ExecAllowlistEntry =>
        decide (entry.pair = addedPair pattern options.argPattern)) = some existingEntry ∧
      existingEntry.source ≠ options.source) ∧
    ∃ entry ∈ approvals.allowlistOf (agentId.getD DEFAULT_AGENT_ID),
      entry.pattern = trim pattern ∧ entry.argPattern ≠ normalizeOptionalString options.argPattern

def ExecAllowlistEntry.updated (entry : ExecAllowlistEntry) (trimmedArgPattern : Option JsString)
    (options : AddOptions) (stamp : Stamp) : ExecAllowlistEntry :=
  { entry with
    argPattern := trimmedArgPattern
    source := options.source.or entry.source
    lastUsedAt := some stamp.now }

section Adding

variable {host} {approvals : ExecApprovalsFile} {agentId : Option JsString} {pattern : JsString}
  {options : AddOptions} {stamp : Stamp}

inductive AddEffect (entries : List ExecAllowlistEntry) (pattern : JsString) (options : AddOptions)
    (stamp : Stamp) : List ExecAllowlistEntry → Prop
  | blank : trim pattern = [] → AddEffect entries pattern options stamp entries
  | listed : addedPair pattern options.argPattern ∈ entries.map ExecAllowlistEntry.pair →
      AddEffect entries pattern options stamp entries
  | updated : trim pattern ≠ [] →
      addedPair pattern options.argPattern ∈ entries.map ExecAllowlistEntry.pair →
      options.source ≠ none →
      (∃ existingEntry : ExecAllowlistEntry, (entries.find? fun entry =>
          decide (entry.pair = addedPair pattern options.argPattern)) = some existingEntry ∧
        existingEntry.source ≠ options.source) →
      AddEffect entries pattern options stamp (entries.map fun entry =>
        if entry.pattern = trim pattern then
          entry.updated (normalizeOptionalString options.argPattern) options stamp
        else entry)
  | appended (entry : ExecAllowlistEntry) :
      addedPair pattern options.argPattern ∉ entries.map ExecAllowlistEntry.pair →
      entry.pair = addedPair pattern options.argPattern →
      AddEffect entries pattern options stamp (entries ++ [entry])

theorem allowlistOf_saved (agents : Map ExecApprovalsAgent) (target : JsString)
    (agent : ExecApprovalsAgent) (entries : List ExecAllowlistEntry)
    (hallowlist : agent.allowlist = some entries) :
    ({ approvals with agents := some (agents.set target agent) } : ExecApprovalsFile).allowlistOf target =
      entries := by
  rw [ExecApprovalsFile.allowlistOf]
  simp only [Option.getD_some]
  rw [Map.get_set, if_pos rfl, Option.getD_some, hallowlist, Option.getD_some]

theorem find_pair (entries : List ExecAllowlistEntry) (pattern : JsString) (argPattern : Option JsString) :
    (entries.find? fun entry => decide (entry.pattern = trim pattern ∧
      entry.argPattern = normalizeOptionalString argPattern)) =
    entries.find? fun entry => decide (entry.pair = addedPair pattern argPattern) := by
  congr 1
  funext entry
  exact decide_eq_decide.mpr (iff_of_eq (Prod.mk.injEq ..).symm)

theorem pair_mem_of_find {entries : List ExecAllowlistEntry} {pair : PatternPair}
    {existingEntry : ExecAllowlistEntry}
    (h : (entries.find? fun entry => decide (entry.pair = pair)) = some existingEntry) :
    pair ∈ entries.map ExecAllowlistEntry.pair := by
  have hpair := List.find?_some h
  rw [decide_eq_true_eq] at hpair
  rw [← hpair]
  exact List.mem_map_of_mem (List.mem_of_find?_eq_some h)

theorem addAllowlistEntry_agents (other : JsString) (hother : other ≠ agentId.getD DEFAULT_AGENT_ID) :
    ((addAllowlistEntry approvals agentId pattern options stamp).agents.getD Map.empty).get other =
      (approvals.agents.getD Map.empty).get other := by
  have hsaved : ∀ agent : ExecApprovalsAgent,
      ((approvals.agents.getD Map.empty).set (agentId.getD DEFAULT_AGENT_ID) agent).get other =
        (approvals.agents.getD Map.empty).get other := by
    intro agent
    rw [Map.get_set, if_neg (Ne.symm hother)]
  unfold addAllowlistEntry
  simp only
  by_cases hblank : trim pattern = []
  · rw [if_pos hblank]
  · rw [if_neg hblank]
    split
    · split
      · rfl
      · exact hsaved _
    · exact hsaved _

theorem addAllowlistEntry_effect :
    AddEffect (approvals.allowlistOf (agentId.getD DEFAULT_AGENT_ID)) pattern options stamp
      ((addAllowlistEntry approvals agentId pattern options stamp).allowlistOf
        (agentId.getD DEFAULT_AGENT_ID)) := by
  have hentries : ((((approvals.agents.getD Map.empty).get
      (agentId.getD DEFAULT_AGENT_ID)).getD {}).allowlist.getD []) =
        approvals.allowlistOf (agentId.getD DEFAULT_AGENT_ID) := rfl
  unfold addAllowlistEntry
  simp only
  rw [hentries, find_pair]
  by_cases hblank : trim pattern = []
  · rw [if_pos hblank]
    exact .blank hblank
  · rw [if_neg hblank]
    cases hfind : (approvals.allowlistOf (agentId.getD DEFAULT_AGENT_ID)).find? fun entry =>
        decide (entry.pair = addedPair pattern options.argPattern) with
    | none =>
        simp only
        rw [allowlistOf_saved _ _ _ _ rfl]
        apply AddEffect.appended
        · intro hmem
          obtain ⟨entry, hentry, hpair⟩ := List.mem_map.mp hmem
          exact List.find?_eq_none.mp hfind entry hentry (decide_eq_true hpair)
        · rfl
    | some existingEntry =>
        simp only
        by_cases hsource : (options.source.isNone || decide (existingEntry.source = options.source)) = true
        · rw [if_pos hsource]
          exact .listed (pair_mem_of_find hfind)
        · rw [if_neg hsource, allowlistOf_saved _ _ _ _ rfl]
          rw [Bool.or_eq_true, not_or, decide_eq_true_eq, Option.isNone_iff_eq_none] at hsource
          exact .updated hblank (pair_mem_of_find hfind) hsource.1 ⟨existingEntry, hfind, hsource.2⟩

theorem updated_pair {entries : List ExecAllowlistEntry}
    (hsame : ∀ entry ∈ entries, entry.pattern = trim pattern →
      entry.argPattern = normalizeOptionalString options.argPattern) :
    (entries.map fun entry =>
      if entry.pattern = trim pattern then
        entry.updated (normalizeOptionalString options.argPattern) options stamp
      else entry).map ExecAllowlistEntry.pair = entries.map ExecAllowlistEntry.pair := by
  rw [List.map_map]
  apply List.map_congr_left
  intro entry hentry
  rw [Function.comp_apply]
  by_cases hpattern : entry.pattern = trim pattern
  · rw [if_pos hpattern, ExecAllowlistEntry.pair, ExecAllowlistEntry.pair, hsame entry hentry hpattern]
    rfl
  · rw [if_neg hpattern]

variable [UnicodeCase]

theorem accepts_congr {entries others : List ExecAllowlistEntry}
    (h : entries.map ExecAllowlistEntry.pair = others.map ExecAllowlistEntry.pair)
    {resolution : Option ExecutableResolution} {argv : Option (List JsString)}
    {platform : Option JsString} :
    Accepts host entries resolution argv platform ↔ Accepts host others resolution argv platform := by
  rw [accepts_iff_pair, accepts_iff_pair, h]

theorem accepts_listed {entries : List ExecAllowlistEntry} {pair : PatternPair}
    (h : pair ∈ entries.map ExecAllowlistEntry.pair) {resolution : Option ExecutableResolution}
    {argv : Option (List JsString)} {platform : Option JsString}
    (haccepts : Accepts host ([pair].map entryOf) resolution argv platform) :
    Accepts host entries resolution argv platform := by
  rw [accepts_iff_pair] at haccepts ⊢
  obtain ⟨other, hother, haccepts⟩ := haccepts
  rw [List.mem_singleton.mp hother] at haccepts
  exact ⟨pair, h, haccepts⟩

theorem AddsOnly.of_call (h : ¬ RewritesOthers approvals agentId pattern options) :
    AddsOnly host (agentId.getD DEFAULT_AGENT_ID) [addedPair pattern options.argPattern] approvals
      (addAllowlistEntry approvals agentId pattern options stamp) := by
  have heffect : AddEffect (approvals.allowlistOf (agentId.getD DEFAULT_AGENT_ID)) pattern options stamp
      ((addAllowlistEntry approvals agentId pattern options stamp).allowlistOf
        (agentId.getD DEFAULT_AGENT_ID)) := addAllowlistEntry_effect
  generalize hafter : (addAllowlistEntry approvals agentId pattern options stamp).allowlistOf
    (agentId.getD DEFAULT_AGENT_ID) = entries at heffect
  suffices hlist :
      (∀ (i : ℕ) (entry : ExecAllowlistEntry),
        (approvals.allowlistOf (agentId.getD DEFAULT_AGENT_ID))[i]? = some entry →
          entry.pair ∉ [addedPair pattern options.argPattern] → entries[i]? = some entry) ∧
      (((approvals.allowlistOf (agentId.getD DEFAULT_AGENT_ID)).map ExecAllowlistEntry.pair).Nodup →
        (entries.map ExecAllowlistEntry.pair).Nodup) ∧
      ∀ resolution argv platform, Accepts host entries resolution argv platform ↔
        Accepts host (approvals.allowlistOf (agentId.getD DEFAULT_AGENT_ID)) resolution argv platform ∨
          Accepts host ([addedPair pattern options.argPattern].map entryOf) resolution argv platform by
    constructor
    · rw [hafter]
      exact hlist.1
    · exact addAllowlistEntry_agents
    · rw [hafter]
      exact hlist.2.1
    · rw [hafter]
      exact hlist.2.2
  generalize hentries : approvals.allowlistOf (agentId.getD DEFAULT_AGENT_ID) = before at heffect
  cases heffect with
  | blank hblank =>
      have hpair : ∀ pair ∈ [addedPair pattern options.argPattern], trim pair.1 = [] := by
        intro pair hmem
        rw [List.mem_singleton.mp hmem]
        show trim (trim pattern) = []
        rw [trim_trim, hblank]
      exact ⟨fun _ _ hentry _ => hentry, id, fun _ _ _ => (or_iff_left (not_accepts_blank hpair)).symm⟩
  | listed hlisted =>
      exact ⟨fun _ _ hentry _ => hentry, id, fun resolution argv platform =>
        (or_iff_left_of_imp (accepts_listed hlisted)).symm⟩
  | updated hpattern hlisted hgiven hfind =>
      have hsame : ∀ entry ∈ before, entry.pattern = trim pattern →
          entry.argPattern = normalizeOptionalString options.argPattern := by
        intro entry hentry heq
        apply Decidable.of_not_not
        intro hdifferent
        apply h
        rw [RewritesOthers, hentries]
        exact ⟨hpattern, hgiven, hfind, entry, hentry, heq, hdifferent⟩
      refine ⟨?_, ?_, ?_⟩
      · intro i entry hentry hother
        rw [List.getElem?_map, hentry, Option.map_some, if_neg]
        intro heq
        apply hother
        rw [List.mem_singleton, ExecAllowlistEntry.pair, addedPair, heq,
          hsame entry (List.mem_of_getElem? hentry) heq]
      · rw [updated_pair hsame]
        exact id
      · intro resolution argv platform
        rw [accepts_congr (updated_pair hsame)]
        exact (or_iff_left_of_imp (accepts_listed hlisted)).symm
  | appended entry hnew hpair =>
      refine ⟨?_, ?_, ?_⟩
      · intro i old hold _
        obtain ⟨hlt, _⟩ := List.getElem?_eq_some_iff.mp hold
        rw [List.getElem?_append_left hlt, hold]
      · intro hnodup
        rw [List.map_append, List.map_singleton, hpair]
        exact hnodup.append (List.nodup_singleton _) (List.disjoint_singleton.mpr hnew)
      · intro resolution argv platform
        have hadded : [entry].map ExecAllowlistEntry.pair =
            ([addedPair pattern options.argPattern].map entryOf).map ExecAllowlistEntry.pair := by
          rw [List.map_singleton, hpair]
          rfl
        rw [accepts_append, accepts_congr hadded]

theorem not_addsOnly_of_rewritesOthers (h : RewritesOthers approvals agentId pattern options) :
    ¬ AddsOnly host (agentId.getD DEFAULT_AGENT_ID) [addedPair pattern options.argPattern] approvals
      (addAllowlistEntry approvals agentId pattern options stamp) := by
  obtain ⟨hpattern, hgiven, ⟨existingEntry, hfind, hsource⟩, entry, hentry, heq, hdifferent⟩ := h
  intro hadds
  have hafter : (addAllowlistEntry approvals agentId pattern options stamp).allowlistOf
      (agentId.getD DEFAULT_AGENT_ID) =
        (approvals.allowlistOf (agentId.getD DEFAULT_AGENT_ID)).map fun entry =>
          if entry.pattern = trim pattern then
            entry.updated (normalizeOptionalString options.argPattern) options stamp
          else entry := by
    have hentries : ((((approvals.agents.getD Map.empty).get
        (agentId.getD DEFAULT_AGENT_ID)).getD {}).allowlist.getD []) =
          approvals.allowlistOf (agentId.getD DEFAULT_AGENT_ID) := rfl
    have hupdates : ¬ (options.source.isNone || decide (existingEntry.source = options.source)) = true := by
      rw [Bool.or_eq_true, not_or, decide_eq_true_eq, Option.isNone_iff_eq_none]
      exact ⟨hgiven, hsource⟩
    unfold addAllowlistEntry
    simp only
    rw [hentries, find_pair, hfind, if_neg hpattern]
    simp only
    rw [if_neg hupdates, allowlistOf_saved _ _ _ _ rfl]
    rfl
  obtain ⟨i, hi⟩ := List.mem_iff_getElem?.mp hentry
  have hother : entry.pair ∉ [addedPair pattern options.argPattern] := by
    intro hmem
    exact hdifferent (congrArg Prod.snd (List.mem_singleton.mp hmem))
  have hkept := hadds.others i entry hi hother
  rw [hafter, List.getElem?_map, hi, Option.map_some, if_pos heq, Option.some.injEq] at hkept
  exact hdifferent (congrArg ExecAllowlistEntry.argPattern hkept).symm

theorem AddsOnly.append {target : JsString} {pairs more : List PatternPair}
    {before middle after : ExecApprovalsFile} (hfirst : AddsOnly host target pairs before middle)
    (hsecond : AddsOnly host target more middle after) :
    AddsOnly host target (pairs ++ more) before after where
  others i entry hentry hother := by
    rw [List.mem_append, not_or] at hother
    exact hsecond.others i entry (hfirst.others i entry hentry hother.1) hother.2
  agents other hother := (hsecond.agents other hother).trans (hfirst.agents other hother)
  distinct hnodup := hsecond.distinct (hfirst.distinct hnodup)
  accepts resolution argv platform := by
    rw [hsecond.accepts, hfirst.accepts, List.map_append, accepts_append, or_assoc]

theorem AddsOnly.refl (target : JsString) (pairs : List PatternPair) (before : ExecApprovalsFile)
    (hblank : ∀ pair ∈ pairs, trim pair.1 = []) : AddsOnly host target pairs before before where
  others _ _ hentry _ := hentry
  agents _ _ := rfl
  distinct hnodup := hnodup
  accepts _ _ _ := (or_iff_left (not_accepts_blank hblank)).symm

end Adding

def NeverRewrites (agentId : Option JsString) (stamps : ℕ → Stamp) :
    ℕ → ExecApprovalsFile → List AllowAlwaysPattern → Prop
  | _, _, [] => True
  | calls, approvals, pattern :: patterns =>
    if pattern.pattern = [] then NeverRewrites agentId stamps calls approvals patterns
    else
      ¬ RewritesOthers approvals agentId pattern.pattern
          { argPattern := pattern.argPattern, source := some .allowAlways } ∧
        NeverRewrites agentId stamps (calls + 1)
          (addAllowlistEntry approvals agentId pattern.pattern
            { argPattern := pattern.argPattern, source := some .allowAlways } (stamps calls)) patterns

def persistedPairs (patterns : List AllowAlwaysPattern) : List PatternPair :=
  patterns.map fun pattern => addedPair pattern.pattern pattern.argPattern

theorem AddsOnly.of_run [UnicodeCase] {host : AllowlistHost} {agentId : Option JsString}
    {stamps : ℕ → Stamp} {calls : ℕ} {approvals : ExecApprovalsFile}
    {patterns : List AllowAlwaysPattern} (h : NeverRewrites agentId stamps calls approvals patterns) :
    AddsOnly host (agentId.getD DEFAULT_AGENT_ID) (persistedPairs patterns) approvals
      (persistAllowAlwaysPatterns agentId stamps calls approvals patterns) := by
  induction patterns generalizing calls approvals with
  | nil => exact AddsOnly.refl _ _ _ fun _ hmem => absurd hmem List.not_mem_nil
  | cons pattern patterns ih =>
      have hpairs : persistedPairs (pattern :: patterns) =
          [addedPair pattern.pattern pattern.argPattern] ++ persistedPairs patterns := rfl
      unfold NeverRewrites at h
      unfold persistAllowAlwaysPatterns
      rw [hpairs]
      by_cases hempty : pattern.pattern = []
      · rw [if_pos hempty] at h ⊢
        have hblank : AddsOnly host (agentId.getD DEFAULT_AGENT_ID)
            [addedPair pattern.pattern pattern.argPattern] approvals approvals := by
          apply AddsOnly.refl
          intro pair hpair
          rw [List.mem_singleton.mp hpair, hempty]
          rfl
        exact hblank.append (ih h)
      · rw [if_neg hempty] at h ⊢
        exact (AddsOnly.of_call h.1).append (ih h.2)

/-- A call adds its pair and changes nothing for the other entries, unless it rewrites them; and so does a run
whose calls rewrite no others. -/
theorem added_entries_leave_others [UnicodeCase] (approvals : ExecApprovalsFile)
    (agentId : Option JsString) :
    (∀ pattern options stamp,
      AddsOnly host (agentId.getD DEFAULT_AGENT_ID) [addedPair pattern options.argPattern] approvals
          (addAllowlistEntry approvals agentId pattern options stamp) ↔
        ¬ RewritesOthers approvals agentId pattern options) ∧
      ∀ stamps calls patterns, NeverRewrites agentId stamps calls approvals patterns →
        AddsOnly host (agentId.getD DEFAULT_AGENT_ID) (persistedPairs patterns) approvals
          (persistAllowAlwaysPatterns agentId stamps calls approvals patterns) := by
  constructor
  · intro pattern options stamp
    constructor
    · intro hadds hrewrites
      exact not_addsOnly_of_rewritesOthers hrewrites hadds
    · exact AddsOnly.of_call
  · intro stamps calls patterns hnever
    exact AddsOnly.of_run hnever

section Samples

attribute [local instance] asciiCase

def sampleAllowlistHost : AllowlistHost :=
  { sampleArgPatternHost with
    tryRealpath := fun _ => none
    expandHomePrefix := id
    canonicalize := id }

/-- Two entries for one executable, the first one entered by hand. -/
def sampleApprovals : ExecApprovalsFile where
  agents := some (Map.empty.set DEFAULT_AGENT_ID
    { allowlist := some
        [{ pattern := js "git.exe", argPattern := some (js "^status$") },
         { pattern := js "git.exe", argPattern := some (js "^log$"), source := some .allowAlways }] })

/-- Adding the first entry again with a source turns the second entry into it, too. -/
theorem other_arguments_overwritten :
    ¬ AddsOnly sampleAllowlistHost DEFAULT_AGENT_ID [(js "git.exe", some (js "^status$"))] sampleApprovals
      (addAllowlistEntry sampleApprovals none (js "git.exe")
        { argPattern := some (js "^status$"), source := some .allowAlways } ⟨5, js "id"⟩) := by
  intro hadds
  have hkept := hadds.others 1
    { pattern := js "git.exe", argPattern := some (js "^log$"), source := some .allowAlways }
    (by decide) (by decide)
  exact absurd hkept (by decide)

end Samples

end GreenchClaw.Exec
