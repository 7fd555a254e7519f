import GreenchClaw.Exec.SkillPreludes
import GreenchClaw.Lib.AnchoredPattern
import GreenchClaw.Lib.JoinedText

/-!
# Argument patterns

An approval that is given for always remembers the arguments of the command as a regular expression, each
argument with a NUL behind it.  Here are the patterns that are built and how they are matched, and which
argument lists a pattern accepts.
-/

namespace GreenchClaw.Exec

open GreenchClaw.Js JoinedText

/-! ## Regular expressions -/

/-- The characters that `escapeRegExpLiteral` escapes, which are all the syntax characters. -/
def regExpSyntax : List CodeUnit := js ".*+?^$\x7b\x7d()|[]\\"

def regExpSigns : AnchoredPattern.Signs CodeUnit where
  start := unit '^'
  stop := unit '$'
  escape := backslash
  special u := regExpSyntax.contains u
  special_start := by decide
  special_stop := by decide
  special_escape := by decide

/-- What the patterns ask the host: the process, `node:path`, and `RegExp` for patterns with other syntax
than anchors and escaped characters. -/
structure ArgPatternHost where
  processPlatform : JsString
  processCwd : JsString
  isAbsolute : JsString → Bool
  resolve : JsString → JsString → JsString
  basename : JsString → JsString
  otherRegExp : JsString → Option (JsString → Bool)

variable (host : ArgPatternHost)

def newRegExp (pattern : JsString) : Option (JsString → Bool) :=
  match AnchoredPattern.read regExpSigns pattern with
  | some terms => some (AnchoredPattern.test terms)
  | none => host.otherRegExp pattern

/-! ## Building -/

def escapeRegExpLiteral (input : JsString) : JsString := AnchoredPattern.escaped regExpSigns input

def nul : CodeUnit := 0

def backslashed (text : JsString) : JsString := text.map fun u => if u == slash then backslash else u

def noArgsPattern : JsString := unit '^' :: nul :: nul :: [unit '$']

def scriptArgsOf [UnicodeCase] (argv : List JsString) (scriptPath : JsString) (cwd : Option JsString) :
    List JsString :=
  let scriptBase := normalizeLowercaseStringOrEmpty (some (host.basename scriptPath))
  let base := (normalizeOptionalString cwd).getD host.processCwd
  let resolveArgPath := fun arg => if host.isAbsolute arg then arg else host.resolve base arg
  let scriptIdx :=
    (argv.findIdx? fun arg => decide (resolveArgPath arg = scriptPath)).or
      (argv.findIdx? fun arg =>
        decide (normalizeLowercaseStringOrEmpty (some (host.basename arg)) = scriptBase))
  match scriptIdx with
  | some scriptIdx => argv.drop (scriptIdx + 1)
  | none => []

def buildScriptArgPatternFromArgv [UnicodeCase] (argv : List JsString) (scriptPath : JsString)
    (cwd platform : Option JsString) : Option JsString :=
  if !isWindowsPlatform (some (platform.getD host.processPlatform)) then none
  else
    let normalized := (scriptArgsOf host argv scriptPath cwd).map backslashed
    if normalized.length = 0 then some noArgsPattern
    else
      some (unit '^' :: (joined nul (normalized.map escapeRegExpLiteral) ++
        [nul, unit '$']))

def buildArgPatternFromArgv [UnicodeCase] (argv : List JsString) (platform : Option JsString) :
    Option JsString :=
  if !isWindowsPlatform (some (platform.getD host.processPlatform)) then none
  else
    let normalized := (argv.drop 1).map backslashed
    if normalized.length = 0 then some noArgsPattern
    else some (unit '^' :: (escapeRegExpLiteral (joined nul normalized) ++ [nul, unit '$']))

/-! ## Matching -/

/-- The redirections that `TRAILING_SHELL_REDIRECTIONS_RE` finds at an end. -/
def trailingRedirections : List JsString :=
  [js "1>&1", js "1>&2", js "2>&1", js "2>&2", js "1>/dev/null", js "2>/dev/null"]

/-- One round of `stripTrailingRedirections`: a redirection at the end with the white space around it. -/
def stripTrailingRedirection (value : JsString) : Option JsString :=
  let trimmed := value.rdropWhile isSpace
  match trailingRedirections.find? fun redirection => redirection.isSuffixOf trimmed with
  | none => none
  | some redirection =>
    let front := trimmed.take (trimmed.length - redirection.length)
    let stripped := front.rdropWhile isSpace
    if stripped.length < front.length then some stripped else none

def stripRounds : ℕ → JsString → JsString
  | 0, value => value
  | rounds + 1, value =>
    match stripTrailingRedirection value with
    | some stripped => stripRounds rounds stripped
    | none => value

def stripTrailingRedirections (value : JsString) : JsString := stripRounds value.length value

def argsStringOf (argPattern : JsString) (argsSlice : List JsString) : JsString :=
  if argPattern.contains nul then
    if argsSlice.length = 0 then [nul, nul] else joined nul argsSlice ++ [nul]
  else joined blank argsSlice

def matchArgPattern [UnicodeCase] (argPattern : JsString) (argv : List JsString)
    (platform : Option JsString) : Bool :=
  let argsString := argsStringOf argPattern (argv.drop 1)
  match newRegExp host argPattern with
  | none => false
  | some test =>
    test argsString ||
      (isWindowsPlatform (some (platform.getD host.processPlatform)) &&
        (backslashed argsString != argsString && test (backslashed argsString))) ||
      (!argPattern.contains nul &&
        (stripTrailingRedirections argsString != argsString &&
          test (stripTrailingRedirections argsString)))

/-! ## What a pattern accepts -/

inductive PatternFor [UnicodeCase] (platform : Option JsString) (argPattern : JsString) :
    List JsString → Prop
  | argv (argv : List JsString) : buildArgPatternFromArgv host argv platform = some argPattern →
      PatternFor platform argPattern (argv.drop 1)
  | script (argv : List JsString) (scriptPath : JsString) (cwd : Option JsString) :
      buildScriptArgPatternFromArgv host argv scriptPath cwd platform = some argPattern →
      PatternFor platform argPattern (scriptArgsOf host argv scriptPath cwd)

def encodedArgs (args : List JsString) : JsString :=
  if args.length = 0 then [nul, nul] else joined nul args ++ [nul]

def comparedArgs [UnicodeCase] (platform : Option JsString) (args : List JsString) : List JsString :=
  if isWindowsPlatform (some (platform.getD host.processPlatform)) then args.map backslashed else args

/-- No arguments and two empty ones, in either order. -/
def SameEncoding (args others : List JsString) : Prop :=
  (args = [] ∧ others = [[], []]) ∨ (args = [[], []] ∧ others = [])

section Encoding

variable {host} {args others : List JsString}

theorem encodedArgs_eq (h : args ≠ []) : encodedArgs args = terminated nul args := by
  rw [encodedArgs, if_neg (fun hlength => h (List.length_eq_zero_iff.mp hlength)),
    joined_terminated h]

theorem encodedArgs_inj (hargs : ∀ arg ∈ args, nul ∉ arg) (hothers : ∀ arg ∈ others, nul ∉ arg) :
    encodedArgs args = encodedArgs others ↔ args = others ∨ SameEncoding args others := by
  have htwo : terminated nul ([[], []] : List JsString) = [nul, nul] := rfl
  have hplain : ∀ arg ∈ ([[], []] : List JsString), nul ∉ arg := by decide
  by_cases hnil : args = []
  · by_cases hnil' : others = []
    · rw [hnil, hnil']
      exact iff_of_true rfl (Or.inl rfl)
    · have hempty : encodedArgs ([] : List JsString) = terminated nul [[], []] := rfl
      rw [hnil, encodedArgs_eq hnil', hempty]
      constructor
      · intro h
        exact Or.inr (Or.inl ⟨rfl, (terminated_inj hplain hothers h).symm⟩)
      · intro h
        cases h with
        | inl heq => exact absurd heq.symm hnil'
        | inr hsame =>
            cases hsame with
            | inl htwo' => rw [htwo'.2]
            | inr htwo' => exact absurd htwo'.2 hnil'
  · by_cases hnil' : others = []
    · have hempty : encodedArgs ([] : List JsString) = terminated nul [[], []] := rfl
      rw [hnil', encodedArgs_eq hnil, hempty]
      constructor
      · intro h
        exact Or.inr (Or.inr ⟨terminated_inj hargs hplain h, rfl⟩)
      · intro h
        cases h with
        | inl heq => exact absurd heq hnil
        | inr hsame =>
            cases hsame with
            | inl htwo' => exact absurd htwo'.1 hnil
            | inr htwo' => rw [htwo'.1]
    · rw [encodedArgs_eq hnil, encodedArgs_eq hnil']
      constructor
      · exact fun h => Or.inl (terminated_inj hargs hothers h)
      · intro h
        cases h with
        | inl heq => rw [heq]
        | inr hsame =>
            exact hsame.elim (fun hboth => absurd hboth.1 hnil) fun hboth => absurd hboth.2 hnil'

theorem backslashed_append (first second : JsString) :
    backslashed (first ++ second) = backslashed first ++ backslashed second := List.map_append

theorem backslashed_joined (args : List JsString) :
    backslashed (joined nul args) = joined nul (args.map backslashed) := by
  induction args with
  | nil => rfl
  | cons arg args ih =>
      cases args with
      | nil => rw [List.map_singleton, joined_singleton, joined_singleton]
      | cons second args =>
          have hrest : (second :: args).map backslashed ≠ [] := List.cons_ne_nil _ _
          rw [joined_cons arg (List.cons_ne_nil _ _), backslashed_append, List.map_cons,
            joined_cons (backslashed arg) hrest, ← ih]
          rfl

theorem backslashed_encodedArgs (args : List JsString) :
    backslashed (encodedArgs args) = encodedArgs (args.map backslashed) := by
  unfold encodedArgs
  rw [List.length_map]
  by_cases hlength : args.length = 0
  · rw [if_pos hlength, if_pos hlength]
    rfl
  · rw [if_neg hlength, if_neg hlength, backslashed_append, backslashed_joined]
    rfl

theorem backslashed_backslashed (text : JsString) : backslashed (backslashed text) = backslashed text := by
  rw [backslashed, backslashed, List.map_map]
  apply List.map_congr_left
  intro u _
  by_cases hu : (u == slash) = true
  · simp only [Function.comp_apply, hu, if_true]
    decide
  · simp only [Function.comp_apply, if_neg hu]

theorem map_backslashed_twice (args : List JsString) :
    (args.map backslashed).map backslashed = args.map backslashed := by
  rw [List.map_map]
  exact List.map_congr_left fun arg _ => backslashed_backslashed arg

theorem nul_not_mem_backslashed {text : JsString} (h : nul ∉ text) : nul ∉ backslashed text := by
  intro hmem
  obtain ⟨u, hu, heq⟩ := List.mem_map.mp hmem
  by_cases hslash : (u == slash) = true
  · rw [if_pos hslash] at heq
    exact absurd heq (by decide)
  · rw [if_neg hslash] at heq
    exact h (heq ▸ hu)

theorem backslashed_eq_nil {text : JsString} : backslashed text = [] ↔ text = [] := List.map_eq_nil_iff

theorem map_backslashed_eq_two : args.map backslashed = [[], []] ↔ args = [[], []] := by
  rw [List.map_eq_cons_iff]
  constructor
  · intro h
    obtain ⟨first, rest, hargs, hfirst, hrest⟩ := h
    obtain ⟨second, last, hrest', hsecond, hlast⟩ := List.map_eq_cons_iff.mp hrest
    rw [hargs, hrest', backslashed_eq_nil.mp hfirst, backslashed_eq_nil.mp hsecond,
      List.map_eq_nil_iff.mp hlast]
  · intro h
    exact ⟨[], [[]], h, rfl, rfl⟩

theorem SameEncoding.ne (h : SameEncoding args others) : args ≠ others := by
  intro heq
  cases h with
  | inl hempty =>
      rw [hempty.1, hempty.2] at heq
      exact nomatch heq
  | inr htwo =>
      rw [htwo.1, htwo.2] at heq
      exact nomatch heq

theorem sameEncoding_compared [UnicodeCase] (host : ArgPatternHost) (platform : Option JsString)
    (args others : List JsString) :
    SameEncoding (comparedArgs host platform others) (args.map backslashed) ↔
      SameEncoding args others := by
  have hnil : comparedArgs host platform others = [] ↔ others = [] := by
    unfold comparedArgs
    by_cases hwindows : isWindowsPlatform (some (platform.getD host.processPlatform)) = true
    · rw [if_pos hwindows, List.map_eq_nil_iff]
    · rw [if_neg hwindows]
  have htwo : comparedArgs host platform others = [[], []] ↔ others = [[], []] := by
    unfold comparedArgs
    by_cases hwindows : isWindowsPlatform (some (platform.getD host.processPlatform)) = true
    · rw [if_pos hwindows, map_backslashed_eq_two]
    · rw [if_neg hwindows]
  rw [SameEncoding, SameEncoding, hnil, htwo, List.map_eq_nil_iff, map_backslashed_eq_two,
    and_comm (a := others = []), and_comm (a := others = [[], []]), or_comm]

/-! ### Patterns -/

theorem escapeRegExpLiteral_joined (args : List JsString) :
    joined nul (args.map escapeRegExpLiteral) =
      escapeRegExpLiteral (joined nul args) := by
  induction args with
  | nil => rfl
  | cons arg args ih =>
      cases args with
      | nil => rw [List.map_singleton, joined_singleton, joined_singleton]
      | cons second args =>
          rw [List.map_cons, joined_cons _ (by simp), ih,
            joined_cons arg (List.cons_ne_nil _ _), escapeRegExpLiteral,
            escapeRegExpLiteral, escapeRegExpLiteral, AnchoredPattern.escaped,
            AnchoredPattern.escaped, AnchoredPattern.escaped, List.flatMap_append,
            List.flatMap_cons]
          rfl

theorem newRegExp_anchored (literal : JsString) :
    newRegExp host (unit '^' :: (escapeRegExpLiteral literal ++ [nul, unit '$'])) =
      some fun text => decide (text = literal ++ [nul]) := by
  have hend : AnchoredPattern.read regExpSigns [nul, unit '$'] = some [.symbol nul, .stop] := by
    decide
  have hread : AnchoredPattern.read regExpSigns
      (unit '^' :: (escapeRegExpLiteral literal ++ [nul, unit '$'])) =
        some (.start :: ((literal ++ [nul]).map AnchoredPattern.Term.symbol ++ [.stop])) := by
    rw [AnchoredPattern.read.eq_def]
    simp only
    rw [if_neg (by decide), if_pos (show unit '^' = regExpSigns.start from rfl), escapeRegExpLiteral, AnchoredPattern.read_escaped, hend,
      List.map_append, List.append_assoc]
    rfl
  rw [newRegExp, hread]
  simp only [Option.some.injEq]
  funext text
  exact AnchoredPattern.test_anchored (literal ++ [nul]) text

theorem newRegExp_noArgs : newRegExp host noArgsPattern =
    some fun text => decide (text = [nul, nul]) := by
  have hpattern : noArgsPattern = unit '^' :: (escapeRegExpLiteral [nul] ++ [nul, unit '$']) := by decide
  rw [hpattern, newRegExp_anchored]
  rfl

variable [UnicodeCase] {platform : Option JsString} {argPattern : JsString}

theorem PatternFor.accepts (h : PatternFor host platform argPattern args) :
    argPattern.contains nul = true ∧
      newRegExp host argPattern =
        some fun text => decide (text = encodedArgs (args.map backslashed)) := by
  have hcontains : ∀ front : JsString,
      (unit '^' :: (front ++ [nul, unit '$'])).contains nul = true := by
    intro front
    rw [List.contains_iff_mem]
    exact List.mem_cons_of_mem _ (List.mem_append_right _ List.mem_cons_self)
  have hnone : ∀ args : List JsString, (args.map backslashed).length = 0 →
      noArgsPattern.contains nul = true ∧
        newRegExp host noArgsPattern =
          some fun text => decide (text = encodedArgs (args.map backslashed)) := by
    intro args hlength
    rw [newRegExp_noArgs, encodedArgs, if_pos hlength]
    exact ⟨by decide, rfl⟩
  have hsome : ∀ args : List JsString, (args.map backslashed).length ≠ 0 →
      newRegExp host (unit '^' :: (escapeRegExpLiteral (joined nul (args.map backslashed)) ++
        [nul, unit '$'])) =
          some fun text => decide (text = encodedArgs (args.map backslashed)) := by
    intro args hlength
    rw [newRegExp_anchored, encodedArgs, if_neg hlength]
  cases h with
  | argv argv hbuilt =>
      unfold buildArgPatternFromArgv at hbuilt
      by_cases hwindows : (!isWindowsPlatform (some (platform.getD host.processPlatform))) = true
      · rw [if_pos hwindows] at hbuilt
        exact nomatch hbuilt
      · rw [if_neg hwindows] at hbuilt
        simp only at hbuilt
        by_cases hlength : ((argv.drop 1).map backslashed).length = 0
        · rw [if_pos hlength, Option.some.injEq] at hbuilt
          rw [← hbuilt]
          exact hnone _ hlength
        · rw [if_neg hlength, Option.some.injEq] at hbuilt
          rw [← hbuilt]
          exact ⟨hcontains _, hsome _ hlength⟩
  | script argv scriptPath cwd hbuilt =>
      unfold buildScriptArgPatternFromArgv at hbuilt
      by_cases hwindows : (!isWindowsPlatform (some (platform.getD host.processPlatform))) = true
      · rw [if_pos hwindows] at hbuilt
        exact nomatch hbuilt
      · rw [if_neg hwindows] at hbuilt
        simp only at hbuilt
        by_cases hlength : ((scriptArgsOf host argv scriptPath cwd).map backslashed).length = 0
        · rw [if_pos hlength, Option.some.injEq] at hbuilt
          rw [← hbuilt]
          exact hnone _ hlength
        · rw [if_neg hlength, Option.some.injEq, escapeRegExpLiteral_joined] at hbuilt
          rw [← hbuilt]
          exact ⟨hcontains _, hsome _ hlength⟩

theorem matchArgPattern_eq (h : PatternFor host platform argPattern args) (argv : List JsString)
    (platform' : Option JsString) :
    matchArgPattern host argPattern argv platform' = true ↔
      encodedArgs (comparedArgs host platform' (argv.drop 1)) = encodedArgs (args.map backslashed) := by
  obtain ⟨hcontains, hregExp⟩ := h.accepts
  have htext : argsStringOf argPattern (argv.drop 1) = encodedArgs (argv.drop 1) := by
    rw [argsStringOf, if_pos hcontains, encodedArgs]
  have hstable : backslashed (encodedArgs (args.map backslashed)) = encodedArgs (args.map backslashed) := by
    rw [backslashed_encodedArgs, map_backslashed_twice]
  rw [matchArgPattern, hregExp]
  simp only
  rw [htext, hcontains, Bool.not_true, Bool.false_and, Bool.or_false, Bool.or_eq_true,
    decide_eq_true_eq]
  unfold comparedArgs
  by_cases hwindows : isWindowsPlatform (some (platform'.getD host.processPlatform)) = true
  · rw [hwindows, Bool.true_and, if_pos rfl, Bool.and_eq_true, decide_eq_true_eq, bne_iff_ne,
      ← backslashed_encodedArgs (argv.drop 1)]
    constructor
    · intro hmatch
      cases hmatch with
      | inl heq => rw [heq, hstable]
      | inr hboth => exact hboth.2
    · intro heq
      by_cases hsame : backslashed (encodedArgs (argv.drop 1)) = encodedArgs (argv.drop 1)
      · exact Or.inl (hsame.symm.trans heq)
      · exact Or.inr ⟨hsame, heq⟩
  · rw [if_neg hwindows]
    rw [Bool.not_eq_true] at hwindows
    rw [hwindows, Bool.false_and]
    simp

/-- A pattern accepts the arguments that it was built for and no others, apart from slashes on Windows,
unless the one list is empty and the other one consists of two empty arguments. -/
theorem arg_pattern_exact (h : PatternFor host platform argPattern args)
    (hargs : ∀ arg ∈ args, nul ∉ arg) (argv : List JsString)
    (hargv : ∀ arg ∈ argv.drop 1, nul ∉ arg) (platform' : Option JsString) :
    (matchArgPattern host argPattern argv platform' = true ↔
        comparedArgs host platform' (argv.drop 1) = args.map backslashed) ↔
      ¬ SameEncoding args (argv.drop 1) := by
  have hnul : ∀ args : List JsString, (∀ arg ∈ args, nul ∉ arg) →
      ∀ arg ∈ args.map backslashed, nul ∉ arg := by
    intro args hplain arg harg
    obtain ⟨before, hbefore, heq⟩ := List.mem_map.mp harg
    rw [← heq]
    exact nul_not_mem_backslashed (hplain before hbefore)
  have hcompared : ∀ arg ∈ comparedArgs host platform' (argv.drop 1), nul ∉ arg := by
    unfold comparedArgs
    by_cases hwindows : isWindowsPlatform (some (platform'.getD host.processPlatform)) = true
    · rw [if_pos hwindows]
      exact hnul _ hargv
    · rw [if_neg hwindows]
      exact hargv
  rw [matchArgPattern_eq h, encodedArgs_inj hcompared (hnul args hargs),
    ← sameEncoding_compared host platform' args (argv.drop 1)]
  constructor
  · intro hexact hsame
    exact hsame.ne (hexact.mp (Or.inr hsame))
  · intro hnot
    exact or_iff_left hnot

end Encoding

section Samples

attribute [local instance] asciiCase

/-- A Windows host whose current directory is the root. -/
def sampleArgPatternHost : ArgPatternHost where
  processPlatform := js "win32"
  processCwd := js "C:\\"
  isAbsolute arg := arg.contains (unit ':')
  resolve base arg := base ++ backslash :: arg
  basename path := (path.reverse.takeWhile (· != backslash)).reverse
  otherRegExp _ := none

/-- The pattern of `run.exe in/a.txt` accepts the file with either slash. -/
theorem arg_pattern_exact_run : ∃ argPattern : JsString,
    buildArgPatternFromArgv sampleArgPatternHost [js "run.exe", js "in/a.txt"] none = some argPattern ∧
      (matchArgPattern sampleArgPatternHost argPattern [js "run.exe", js "in\\a.txt"] none = true ↔
        comparedArgs sampleArgPatternHost none [js "in\\a.txt"] = [js "in/a.txt"].map backslashed) := by
  have hbuilt : (buildArgPatternFromArgv sampleArgPatternHost [js "run.exe", js "in/a.txt"] none).isSome =
      true := by decide
  obtain ⟨argPattern, hpattern⟩ := Option.isSome_iff_exists.mp hbuilt
  have hexact := arg_pattern_exact (PatternFor.argv [js "run.exe", js "in/a.txt"] hpattern)
    (by decide) [js "run.exe", js "in\\a.txt"] (by decide) none
  have hdifferent : ¬ SameEncoding ([js "run.exe", js "in/a.txt"].drop 1)
      ([js "run.exe", js "in\\a.txt"].drop 1) := by
    rw [SameEncoding]
    decide
  exact ⟨argPattern, hpattern, hexact.mpr hdifferent⟩

/-- The pattern of a command without arguments accepts two empty arguments. -/
theorem empty_args_pattern_accepts_two : ∃ argPattern : JsString,
    buildArgPatternFromArgv sampleArgPatternHost [js "run.exe"] none = some argPattern ∧
      matchArgPattern sampleArgPatternHost argPattern [js "run.exe", [], []] none = true ∧
      comparedArgs sampleArgPatternHost none [[], []] ≠ ([] : List JsString).map backslashed :=
  ⟨noArgsPattern, by decide, by decide, by decide⟩

end Samples

end GreenchClaw.Exec
