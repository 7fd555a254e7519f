import GreenchClaw.Exec.Analysis

/-!
# Rendered Windows command lines

What the tokenizer reads of a command line that was rendered from accepted tokens: the tokens without
their double quotes, since a doubled quote closes and opens the quoting but stands for no character.
-/

namespace GreenchClaw.Exec

open GreenchClaw.Js Scanner

def withoutQuotes (token : JsString) : JsString := token.filter fun ch => ch != doubleQuote

def doubledQuotes (value : JsString) : JsString :=
  value.flatMap fun ch => if ch == doubleQuote then [ch, ch] else [ch]

section Steps

variable {s : WindowsScan} {ch : CodeUnit}

theorem isWindowsSafe_range (h : isWindowsSafe ch = true) : 45 ≤ ch ∧ ch ≤ 126 := by
  unfold isWindowsSafe at h
  rw [Bool.or_eq_true, Bool.or_eq_true, Bool.or_eq_true, Bool.and_eq_true, Bool.and_eq_true,
    Bool.and_eq_true, decide_eq_true_eq, decide_eq_true_eq, decide_eq_true_eq, decide_eq_true_eq,
    decide_eq_true_eq, decide_eq_true_eq] at h
  have hletters : unit 'a' = 97 ∧ unit 'z' = 122 ∧ unit 'A' = 65 ∧ unit 'Z' = 90 ∧
      unit '0' = 48 ∧ unit '9' = 57 := by decide
  obtain ⟨ha, hz, hA, hZ, h0, h9⟩ := hletters
  rw [ha, hz, hA, hZ, h0, h9] at h
  rcases h with ((h | h) | h) | h
  · grind
  · grind
  · grind
  · have hmem := List.contains_iff_mem.mp h
    have hall : (js "_./:~\\=-").all (fun u => decide (45 ≤ u ∧ u ≤ 126)) = true := by decide
    exact of_decide_eq_true (List.all_eq_true.mp hall ch hmem)

theorem isWindowsSafe_plain (h : isWindowsSafe ch = true) :
    (ch == doubleQuote) = false ∧ (ch == singleQuote) = false ∧ isSpace ch = false := by
  have hrange := isWindowsSafe_range h
  have hquotes : doubleQuote = 34 ∧ singleQuote = 39 := by decide
  rw [UInt16.le_iff_toNat_le, UInt16.le_iff_toNat_le] at hrange
  have hlow : 45 ≤ ch.toNat := hrange.1
  have hhigh : ch.toNat ≤ 126 := hrange.2
  rw [hquotes.1, hquotes.2, beq_eq_false_iff_ne, beq_eq_false_iff_ne, Ne, Ne, ← UInt16.toNat_inj,
    ← UInt16.toNat_inj]
  refine ⟨?_, ?_, ?_⟩
  · show ¬ ch.toNat = 34
    omega
  · show ¬ ch.toNat = 39
    omega
  · simp only [isSpace, Bool.or_eq_false_iff, Bool.and_eq_false_iff, decide_eq_false_iff_not,
      beq_eq_false_iff_ne, ne_eq, UInt16.le_iff_toNat_le, ← UInt16.toNat_inj]
    simp
    omega

end Steps

/-! ## One token -/

section Tokens

variable (tokens : List JsString) (buf ahead : JsString) (prev : Option CodeUnit)

def plainScan (wasQuoted : Bool) : WindowsScan := ⟨tokens, buf, false, false, wasQuoted⟩

def quotedScan : WindowsScan := ⟨tokens, buf, true, false, true⟩

theorem feed_safe {text : JsString} (h : text.all isWindowsSafe = true) :
    ∃ prev', Scanner.feed windowsStep ahead (.reading prev 0 (plainScan tokens buf false)) text =
      .reading prev' 0 (plainScan tokens (buf ++ text) false) := by
  induction text generalizing buf prev with
  | nil =>
      refine ⟨prev, ?_⟩
      rw [feed_nil, List.append_nil]
  | cons ch rest ih =>
      rw [List.all_cons, Bool.and_eq_true] at h
      obtain ⟨hdouble, hsingle, hspace⟩ := isWindowsSafe_plain h.1
      have hstep : windowsStep prev ch (rest ++ ahead) (plainScan tokens buf false) =
          .advance 0 (plainScan tokens (buf ++ [ch]) false) := by
        rw [windowsStep, hdouble, hsingle, hspace, Bool.and_false]
        rfl
      obtain ⟨prev', hrest⟩ := ih (buf ++ [ch]) (some ch) h.2
      refine ⟨prev', ?_⟩
      rw [List.append_assoc] at hrest
      rw [feed_cons, read_step, hstep]
      exact hrest

theorem feed_doubledQuotes (text : JsString) :
    ∃ prev', Scanner.feed windowsStep ahead (.reading prev 0 (quotedScan tokens buf))
        (doubledQuotes text) =
      .reading prev' 0 (quotedScan tokens (buf ++ withoutQuotes text)) := by
  induction text generalizing buf prev with
  | nil =>
      refine ⟨prev, ?_⟩
      rw [withoutQuotes, List.filter_nil, List.append_nil]
      rfl
  | cons ch rest ih =>
      by_cases hch : (ch == doubleQuote) = true
      · -- the first of the two quotes closes, the second one opens again
        obtain ⟨prev', hrest⟩ := ih buf (some doubleQuote)
        have htext : doubledQuotes (ch :: rest) =
            doubleQuote :: doubleQuote :: doubledQuotes rest := by
          rw [doubledQuotes, List.flatMap_cons, if_pos hch, beq_iff_eq.mp hch]
          rfl
        have hkept : withoutQuotes (ch :: rest) = withoutQuotes rest := by
          rw [withoutQuotes, List.filter_cons_of_neg (by rw [bne, hch]; decide), withoutQuotes]
        refine ⟨prev', ?_⟩
        rw [htext, hkept, feed_cons, feed_cons]
        exact hrest
      · rw [Bool.not_eq_true] at hch
        obtain ⟨prev', hrest⟩ := ih (buf ++ [ch]) (some ch)
        have htext : doubledQuotes (ch :: rest) = ch :: doubledQuotes rest := by
          rw [doubledQuotes, List.flatMap_cons, hch]
          rfl
        have hkept : withoutQuotes (ch :: rest) = ch :: withoutQuotes rest := by
          rw [withoutQuotes, List.filter_cons_of_pos (by rw [bne, hch]; decide), withoutQuotes]
        have hstep : windowsStep prev ch (doubledQuotes rest ++ ahead) (quotedScan tokens buf) =
            .advance 0 (quotedScan tokens (buf ++ [ch])) := by
          rw [windowsStep, hch, Bool.false_and, if_neg Bool.false_ne_true,
            if_neg (by rw [quotedScan, Bool.not_true, Bool.and_false]; exact Bool.false_ne_true)]
          rfl
        refine ⟨prev', ?_⟩
        rw [List.append_assoc] at hrest
        rw [htext, hkept, feed_cons, read_step, hstep]
        exact hrest

theorem withoutQuotes_of_safe {text : JsString} (h : text.all isWindowsSafe = true) :
    withoutQuotes text = text := by
  rw [withoutQuotes, List.filter_eq_self]
  intro ch hch
  rw [bne, (isWindowsSafe_plain (List.all_eq_true.mp h ch hch)).1]
  rfl

/-- What the tokenizer holds behind a rendered token: the token without its double quotes, and a quote
was seen when nothing is left of it. -/
theorem feed_escaped {token escaped : JsString} (h : windowsEscapeArg token = some escaped) :
    ∃ prev' wasQuoted,
      Scanner.feed windowsStep ahead (.reading prev 0 (plainScan tokens [] false)) escaped =
        .reading prev' 0 (plainScan tokens (withoutQuotes token) wasQuoted) ∧
      (withoutQuotes token = [] → wasQuoted = true) := by
  unfold windowsEscapeArg at h
  by_cases hnil : token = []
  · rw [if_pos hnil, Option.some.injEq] at h
    rw [← h, hnil]
    exact ⟨some doubleQuote, true, rfl, fun _ => rfl⟩
  · rw [if_neg hnil] at h
    by_cases hunsafe : hasWindowsUnsafeCmdMeta token = true
    · rw [if_pos hunsafe] at h
      exact nomatch h
    · rw [if_neg hunsafe] at h
      by_cases hsafe : token.all isWindowsSafe = true
      · rw [if_pos hsafe, Option.some.injEq] at h
        obtain ⟨prev', hfeed⟩ := feed_safe tokens [] ahead prev hsafe
        rw [← h, withoutQuotes_of_safe hsafe]
        exact ⟨prev', false, hfeed, fun hempty => absurd hempty hnil⟩
      · rw [if_neg hsafe, Option.some.injEq] at h
        obtain ⟨prev', hfeed⟩ := feed_doubledQuotes tokens [] ([doubleQuote] ++ ahead)
          (some doubleQuote) token
        rw [List.nil_append] at hfeed
        refine ⟨some doubleQuote, true, ?_, fun _ => rfl⟩
        have htext : escaped = doubleQuote :: (doubledQuotes token ++ [doubleQuote]) := by
          rw [← h]
          rfl
        rw [htext, feed_cons]
        show Scanner.feed windowsStep ahead (.reading (some doubleQuote) 0 (quotedScan tokens []))
          (doubledQuotes token ++ [doubleQuote]) = _
        rw [feed_append, hfeed]
        rfl

end Tokens

/-! ## A command line -/

theorem pushToken_plain (tokens : List JsString) {buf : JsString} {wasQuoted : Bool}
    (h : buf = [] → wasQuoted = true) :
    (plainScan tokens buf wasQuoted).pushToken = plainScan (tokens ++ [buf]) [] false := by
  rw [WindowsScan.pushToken, if_neg]
  · rfl
  · rw [plainScan, Bool.and_eq_true, List.isEmpty_iff, not_and]
    intro hbuf
    rw [h hbuf]
    exact Bool.false_ne_true

theorem feed_rendered {argv parts : List JsString} (h : argv.mapM windowsEscapeArg = some parts)
    (hne : argv ≠ []) (tokens : List JsString) (prev : Option CodeUnit) :
    ∃ prev' s, Scanner.feed windowsStep [] (.reading prev 0 (plainScan tokens [] false))
        (joinBlank parts) = .reading prev' 0 s ∧ s.inDouble = false ∧ s.inSingle = false ∧
      s.pushToken.tokens = tokens ++ argv.map withoutQuotes := by
  induction argv generalizing parts tokens prev with
  | nil => exact absurd rfl hne
  | cons token argv ih =>
      rw [List.mapM_cons, Option.bind_eq_bind, Option.bind_eq_some_iff] at h
      obtain ⟨escaped, hescaped, h⟩ := h
      rw [Option.bind_eq_bind, Option.bind_eq_some_iff] at h
      obtain ⟨others, hothers, hparts⟩ := h
      have hcons : parts = escaped :: others := (Option.some.inj hparts).symm
      cases hargv : argv with
      | nil =>
          rw [hargv, List.mapM_nil] at hothers
          have hnil : others = [] := (Option.some.inj hothers).symm
          obtain ⟨prev', wasQuoted, hfeed, hquoted⟩ := feed_escaped tokens [] prev hescaped
          have htext : joinBlank parts = escaped := by
            rw [hcons, hnil, joinBlank, List.intercalate_singleton]
          refine ⟨prev', plainScan tokens (withoutQuotes token) wasQuoted, ?_, rfl, rfl, ?_⟩
          · rw [htext]
            exact hfeed
          · rw [pushToken_plain tokens hquoted]
            rfl
      | cons next rest =>
          obtain ⟨first, last, hlast⟩ : ∃ first last, others = first :: last := by
            have hnext := hothers
            rw [hargv, List.mapM_cons, Option.bind_eq_bind, Option.bind_eq_some_iff] at hnext
            obtain ⟨first, _, hnext⟩ := hnext
            rw [Option.bind_eq_bind, Option.bind_eq_some_iff] at hnext
            obtain ⟨last, _, hcons'⟩ := hnext
            exact ⟨first, last, (Option.some.inj hcons').symm⟩
          have htext : joinBlank parts = escaped ++ (blank :: joinBlank others) := by
            rw [hcons, hlast, joinBlank, joinBlank, List.intercalate_cons_cons, List.append_assoc]
            rfl
          obtain ⟨prev', wasQuoted, hfeed, hquoted⟩ :=
            feed_escaped tokens (blank :: joinBlank others ++ []) prev hescaped
          have hblank : windowsStep prev' blank (joinBlank others ++ [])
              (plainScan tokens (withoutQuotes token) wasQuoted) =
                .advance 0 (plainScan (tokens ++ [withoutQuotes token]) [] false) := by
            rw [← pushToken_plain tokens hquoted]
            rfl
          obtain ⟨prev'', s, hrest, hdouble, hsingle, htokens⟩ := ih hothers
            (by rw [hargv]; exact List.cons_ne_nil _ _) (tokens ++ [withoutQuotes token]) (some blank)
          refine ⟨prev'', s, ?_, hdouble, hsingle, ?_⟩
          · rw [htext, feed_append, hfeed, feed_cons, read_step, hblank]
            exact hrest
          · rw [htokens, ← hargv, List.map_cons, List.append_assoc]
            rfl

theorem tokenize_rendered {argv : List JsString} {rendered : JsString}
    (h : renderWindowsQuotedArgv argv = some rendered) (hne : argv ≠ []) :
    tokenizeWindowsSegment rendered = some (argv.map withoutQuotes) := by
  rw [renderWindowsQuotedArgv, Option.map_eq_some_iff] at h
  obtain ⟨parts, hparts, hrendered⟩ := h
  obtain ⟨prev, s, hfeed, hdouble, hsingle, htokens⟩ := feed_rendered hparts hne [] none
  have hscan : Scanner.scan windowsStep {} rendered = .ok s := by
    rw [Scanner.scan, ← hrendered]
    exact congrArg Scanner.Cursor.outcome hfeed
  rw [List.nil_append] at htokens
  have hfilled : s.pushToken.tokens ≠ [] := by
    rw [htokens]
    exact fun hnil => hne (List.map_eq_nil_iff.mp hnil)
  rw [tokenizeWindowsSegment, hscan]
  simp only
  rw [hdouble, hsingle, Bool.or_false, if_neg Bool.false_ne_true, if_neg hfilled, htokens]

theorem withoutQuotes_eq_self (token : JsString) :
    withoutQuotes token = token ↔ doubleQuote ∉ token := by
  rw [withoutQuotes, List.filter_eq_self]
  constructor
  · intro h hmem
    exact absurd (h doubleQuote hmem) (by decide)
  · intro h ch hch
    rw [bne_iff_ne]
    exact fun heq => h (heq ▸ hch)

/-- A rendered command line is read back exactly when there is a token and none of the tokens contains a
double quote. -/
theorem rendered_argv_read_back {argv : List JsString} {rendered : JsString}
    (h : renderWindowsQuotedArgv argv = some rendered) :
    tokenizeWindowsSegment rendered = some argv ↔
      argv ≠ [] ∧ ∀ token ∈ argv, doubleQuote ∉ token := by
  by_cases hnil : argv = []
  · rw [hnil] at h ⊢
    have hempty : rendered = [] := (Option.some.inj h).symm
    rw [hempty]
    exact iff_of_false (by decide) fun hboth => hboth.1 rfl
  · rw [tokenize_rendered h hnil, Option.some.injEq, and_iff_right hnil]
    have hsame : argv.map withoutQuotes = argv.map id ↔ ∀ token ∈ argv, withoutQuotes token = token :=
      List.map_inj_left
    rw [List.map_id] at hsame
    rw [hsame]
    exact forall₂_congr fun token _ => withoutQuotes_eq_self token

theorem rendered_argv_read_back_echo :
    renderWindowsQuotedArgv [js "echo", js "a b"] = some (js "echo \"a b\"") ∧
      (tokenizeWindowsSegment (js "echo \"a b\"") = some [js "echo", js "a b"] ↔
        [js "echo", js "a b"] ≠ [] ∧ ∀ token ∈ [js "echo", js "a b"], doubleQuote ∉ token) :=
  ⟨by decide, rendered_argv_read_back (by decide)⟩

/-- A quote inside a token is lost. -/
theorem quoted_token_altered :
    renderWindowsQuotedArgv [js "echo", js "say \"hi\""] = some (js "echo \"say \"\"hi\"\"\"") ∧
      tokenizeWindowsSegment (js "echo \"say \"\"hi\"\"\"") = some [js "echo", js "say hi"] := by
  decide

end GreenchClaw.Exec
