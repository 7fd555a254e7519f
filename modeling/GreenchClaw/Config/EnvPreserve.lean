import GreenchClaw.Config.EnvSubstitution

/-!
# Writing environment references back

`restoreEnvVarRefs` puts the references of the parsed config back into a resolved one.  It
resolves each parsed text with a scanner of its own, which gives up on a missing variable, while
the substitution with `onMissing` goes on.
-/

namespace GreenchClaw.Config

open GreenchClaw.Js

variable {N : Type}

/-! ## The code -/

/-- `ENV_VAR_PATTERN` at the start of a text. -/
def startsWithEnvVar : JsString → Bool
  | a :: b :: c :: rest =>
      a == dollar && b == openBrace && isNameStart c &&
        (rest.dropWhile isNameUnit).head? == some closeBrace
  | _ => false

/-- `ENV_VAR_PATTERN.test`. -/
def hasEnvVarRef (value : JsString) : Bool := value.tails.any startsWithEnvVar

def escapedNameAfter : JsString → Option JsString
  | a :: b :: rest => if a = dollar && b = openBrace then closedName rest else none
  | _ => none

def referenceNameAfter : JsString → Option JsString
  | a :: rest => if a = openBrace then closedName rest else none
  | [] => none

/-- The loop of `tryResolveString`, which writes the scanner of the substitution out again. -/
def tryResolveFrom (env : ProcessEnv) : ℕ → JsString → Option JsString
  | _, [] => some []
  | skip + 1, _ :: rest => tryResolveFrom env skip rest
  | 0, char :: rest =>
      if char = dollar then
        match escapedNameAfter rest with
        | some name => (tryResolveFrom env (name.length + 3) rest).map (envRef name ++ ·)
        | none =>
            match referenceNameAfter rest with
            | some name =>
                match envValue env name with
                | some value => (tryResolveFrom env (name.length + 2) rest).map (value ++ ·)
                | none => none
            | none => (tryResolveFrom env 0 rest).map (char :: ·)
      else
        (tryResolveFrom env 0 rest).map (char :: ·)

def tryResolveString (env : ProcessEnv) (template : JsString) : Option JsString :=
  tryResolveFrom env 0 template

def restoreString (env : ProcessEnv) (incoming parsed : JsString) : JsString :=
  if hasEnvVarRef parsed && decide (tryResolveString env parsed = some incoming) then
    parsed
  else
    incoming

mutual

def restoreEnvVarRefs (env : ProcessEnv) : JsonValue N → JsonValue N → JsonValue N
  | .string incoming, .string parsed => .string (restoreString env incoming parsed)
  | .array incoming, .array parsed => .array (restoreItems env incoming parsed)
  | .object incoming, .object parsed => .object (restoreEntries env incoming parsed)
  | incoming, _ => incoming

def restoreItems (env : ProcessEnv) :
    List (JsonValue N) → List (JsonValue N) → List (JsonValue N)
  | item :: rest, parsed :: parsedRest =>
      restoreEnvVarRefs env item parsed :: restoreItems env rest parsedRest
  | items, [] => items
  | [], _ => []

def restoreEntries (env : ProcessEnv) :
    List (JsString × JsonValue N) → List (JsString × JsonValue N) → List (JsString × JsonValue N)
  | [], _ => []
  | (key, value) :: rest, parsed =>
      let restored :=
        match parsed.lookup key with
        | some parsedValue => restoreEnvVarRefs env value parsedValue
        | none => value
      if key = protoKey then
        restoreEntries env rest parsed
      else
        (key, restored) :: restoreEntries env rest parsed

end

/-! ## Pieces -/

inductive EnvPiece where
  | text (u : CodeUnit)
  | token (t : EnvToken)
  deriving DecidableEq

def EnvToken.source : EnvToken → JsString
  | escaped name => dollar :: envRef name
  | substitution name => envRef name

def EnvPiece.source : EnvPiece → JsString
  | .text u => [u]
  | .token t => t.source

/-- What a piece stands for: a variable that is not set keeps its reference. -/
def EnvPiece.expansion (env : ProcessEnv) : EnvPiece → JsString
  | .text u => [u]
  | .token (.escaped name) => envRef name
  | .token (.substitution name) => (envValue env name).getD (envRef name)

def EnvPiece.isMissing (env : ProcessEnv) : EnvPiece → Bool
  | .token (.substitution name) => (envValue env name).isNone
  | _ => false

def pieces : ℕ → JsString → List EnvPiece
  | _, [] => []
  | skip + 1, _ :: rest => pieces skip rest
  | 0, u :: rest =>
      match parseEnvTokenAt (u :: rest) with
      | some t => .token t :: pieces t.tail rest
      | none => .text u :: pieces 0 rest

def expansion (env : ProcessEnv) (s : JsString) : JsString :=
  (pieces 0 s).flatMap (EnvPiece.expansion env)

/-- The text has a reference to a variable that is not set. -/
def hasMissing (env : ProcessEnv) (s : JsString) : Bool :=
  (pieces 0 s).any (EnvPiece.isMissing env)

section Tokens

theorem closedName_spec {s name : JsString} (h : closedName s = some name) :
    isEnvVarName name = true ∧ ∃ rest, s = name ++ closeBrace :: rest := by
  unfold closedName at h
  dsimp only at h
  split at h
  · rename_i hclosed
    rw [Bool.and_eq_true, decide_eq_true_eq] at hclosed
    obtain rfl := Option.some.inj h
    refine ⟨hclosed.2, ?_⟩
    have hsplit := List.takeWhile_append_dropWhile (p := fun u => decide (u ≠ closeBrace)) (l := s)
    cases hdrop : s.dropWhile fun u => decide (u ≠ closeBrace) with
    | nil =>
        rw [hdrop, List.append_nil] at hsplit
        rw [hsplit] at hclosed
        exact absurd hclosed.1 (lt_irrefl _)
    | cons u rest =>
        have hne : s.dropWhile (fun u => decide (u ≠ closeBrace)) ≠ [] := by
          rw [hdrop]
          exact List.cons_ne_nil u rest
        have hhead := List.head_dropWhile_not (fun u => decide (u ≠ closeBrace)) hne
        have hu : u = closeBrace := by
          simp only [hdrop, List.head_cons] at hhead
          simpa using hhead
        rw [hdrop, hu] at hsplit
        exact ⟨rest, hsplit.symm⟩
  · cases h

theorem parseEnvTokenAt_eq (u : CodeUnit) (rest : JsString) :
    parseEnvTokenAt (u :: rest) =
      if u = dollar then
        ((escapedNameAfter rest).map .escaped).or ((referenceNameAfter rest).map .substitution)
      else
        none := by
  have hbrace : dollar ≠ openBrace := by decide
  cases rest with
  | nil => simp [parseEnvTokenAt, escapedNameAfter, referenceNameAfter]
  | cons b rest =>
      by_cases hu : u = dollar
      · by_cases hb : b = dollar
        · cases rest with
          | nil =>
              simp [parseEnvTokenAt, escapedNameAfter, referenceNameAfter, hu, hb, hbrace]
          | cons c name =>
              by_cases hc : c = openBrace <;>
                simp [parseEnvTokenAt, escapedNameAfter, referenceNameAfter, hu, hb, hc, hbrace]
        · cases rest <;>
            by_cases hopen : b = openBrace <;>
              simp [parseEnvTokenAt, escapedNameAfter, referenceNameAfter, hu, hb, hopen,
                hbrace.symm]
      · simp [parseEnvTokenAt, hu]

theorem source_of_escapedNameAfter {rest name : JsString}
    (h : escapedNameAfter rest = some name) :
    isEnvVarName name = true ∧ ∃ after, rest = envRef name ++ after := by
  unfold escapedNameAfter at h
  split at h
  · split at h
    · rename_i hab
      rw [Bool.and_eq_true, decide_eq_true_eq, decide_eq_true_eq] at hab
      obtain ⟨hname, after, hafter⟩ := closedName_spec h
      refine ⟨hname, after, ?_⟩
      rw [hab.1, hab.2, hafter, envRef]
      simp
    · cases h
  · cases h

theorem source_of_referenceNameAfter {rest name : JsString}
    (h : referenceNameAfter rest = some name) :
    isEnvVarName name = true ∧ ∃ after, dollar :: rest = envRef name ++ after := by
  unfold referenceNameAfter at h
  split at h
  · split at h
    · rename_i hopen
      obtain ⟨hname, after, hafter⟩ := closedName_spec h
      refine ⟨hname, after, ?_⟩
      rw [hopen, hafter, envRef]
      simp
    · cases h
  · cases h

theorem source_of_parseEnvTokenAt {u : CodeUnit} {rest : JsString} {t : EnvToken}
    (h : parseEnvTokenAt (u :: rest) = some t) : ∃ after, u :: rest = t.source ++ after := by
  rw [parseEnvTokenAt_eq] at h
  split at h
  · rename_i hu
    rw [hu]
    cases hescaped : escapedNameAfter rest with
    | some name =>
        obtain ⟨_, after, hafter⟩ := source_of_escapedNameAfter hescaped
        rw [hescaped, Option.map_some, Option.some_or] at h
        obtain rfl := Option.some.inj h
        exact ⟨after, congrArg (dollar :: ·) hafter⟩
    | none =>
        rw [hescaped, Option.map_none, Option.none_or] at h
        obtain ⟨name, hname, rfl⟩ := Option.map_eq_some_iff.mp h
        exact (source_of_referenceNameAfter hname).2
  · cases h

theorem length_source (t : EnvToken) : t.source.length = t.tail + 1 := by
  cases t <;> simp [EnvToken.source, EnvToken.tail, envRef]

theorem pieces_drop (skip : ℕ) (s : JsString) : pieces skip s = pieces 0 (s.drop skip) := by
  induction skip generalizing s with
  | zero => rfl
  | succ skip ih =>
      cases s with
      | nil => rfl
      | cons u rest => exact ih rest

theorem source_pieces (s : JsString) : (pieces 0 s).flatMap EnvPiece.source = s := by
  induction hlength : s.length using Nat.strong_induction_on generalizing s with
  | _ n ih =>
      cases s with
      | nil => rfl
      | cons u rest =>
          rw [pieces]
          split
          · rename_i t ht
            obtain ⟨after, hafter⟩ := source_of_parseEnvTokenAt ht
            have hdrop : rest.drop t.tail = after := by
              have hcons : (u :: rest).drop (t.tail + 1) = after := by
                rw [hafter, ← length_source, List.drop_left]
              exact hcons
            have hshort : (rest.drop t.tail).length < n := by
              rw [← hlength, List.length_drop, List.length_cons]
              omega
            rw [List.flatMap_cons, pieces_drop, ih _ hshort _ rfl, hdrop]
            exact hafter.symm
          · rw [List.flatMap_cons, ih rest.length (by rw [← hlength]; simp) rest rfl]
            rfl

end Tokens

/-! ## The two scanners -/

section Scanners

variable (env : ProcessEnv)

theorem substituteFrom_ok (onMissing : Bool) (configPath : JsString) (skip : ℕ) (s : JsString)
    (h : onMissing = true ∨ (pieces skip s).any (EnvPiece.isMissing env) = false) :
    ∃ warnings, substituteFrom env onMissing configPath skip s =
      .ok ⟨(pieces skip s).flatMap (EnvPiece.expansion env), warnings⟩ := by
  induction s generalizing skip with
  | nil => cases skip <;> exact ⟨[], rfl⟩
  | cons u rest ih =>
      cases skip with
      | succ skip => exact ih skip h
      | zero =>
          rw [substituteFrom]
          rw [pieces] at h ⊢
          cases ht : parseEnvTokenAt (u :: rest) with
          | some t =>
              rw [ht, List.any_cons, Bool.or_eq_false_iff] at h
              rw [List.flatMap_cons]
              obtain ⟨warnings, hrest⟩ := ih t.tail (h.imp_right And.right)
              cases t with
              | escaped name =>
                  exact ⟨[] ++ warnings, by simp only [hrest, pushChunk]; rfl⟩
              | substitution name =>
                  dsimp only
                  cases hvalue : envValue env name with
                  | some value =>
                      have hexpansion : EnvPiece.expansion env (.token (.substitution name)) = value :=
                        by rw [EnvPiece.expansion, hvalue]; rfl
                      exact ⟨[] ++ warnings, by simp only [hrest, pushChunk, hexpansion]; rfl⟩
                  | none =>
                      have hon : onMissing = true := by
                        apply h.resolve_right
                        intro hmissing
                        rw [EnvPiece.isMissing, hvalue] at hmissing
                        cases hmissing.1
                      have hexpansion :
                          EnvPiece.expansion env (.token (.substitution name)) = envRef name := by
                        rw [EnvPiece.expansion, hvalue]
                        rfl
                      subst hon
                      exact ⟨[⟨name, configPath⟩] ++ warnings, by
                        simp only [hrest, ↓reduceIte, pushChunk, hexpansion]
                        rfl⟩
          | none =>
              rw [ht, List.any_cons, Bool.or_eq_false_iff] at h
              obtain ⟨warnings, hrest⟩ := ih 0 (h.imp_right And.right)
              exact ⟨[] ++ warnings, by simp only [hrest, pushChunk, List.flatMap_cons]; rfl⟩

theorem substituteFrom_error (configPath : JsString) (skip : ℕ) (s : JsString)
    (h : (pieces skip s).any (EnvPiece.isMissing env) = true) :
    ∃ err, substituteFrom env false configPath skip s = .error err := by
  induction s generalizing skip with
  | nil => cases skip <;> cases h
  | cons u rest ih =>
      cases skip with
      | succ skip => exact ih skip h
      | zero =>
          rw [substituteFrom]
          rw [pieces] at h
          cases ht : parseEnvTokenAt (u :: rest) with
          | some t =>
              rw [ht, List.any_cons, Bool.or_eq_true] at h
              cases t with
              | escaped name =>
                  obtain ⟨err, hrest⟩ := ih _ (h.resolve_left Bool.false_ne_true)
                  exact ⟨err, by simp only [hrest, pushChunk]; rfl⟩
              | substitution name =>
                  dsimp only
                  cases hvalue : envValue env name with
                  | some value =>
                      have hset : EnvPiece.isMissing env (.token (.substitution name)) = false := by
                        rw [EnvPiece.isMissing, hvalue]
                        rfl
                      rw [hset] at h
                      obtain ⟨err, hrest⟩ := ih _ (h.resolve_left Bool.false_ne_true)
                      exact ⟨err, by simp only [hrest, pushChunk]; rfl⟩
                  | none => exact ⟨⟨name, configPath⟩, rfl⟩
          | none =>
              rw [ht, List.any_cons, Bool.or_eq_true] at h
              obtain ⟨err, hrest⟩ := ih 0 (h.resolve_left Bool.false_ne_true)
              exact ⟨err, by simp only [hrest, pushChunk]; rfl⟩

/-- The restorer's scanner agrees, except that it gives up on a missing variable. -/
theorem tryResolveFrom_eq (skip : ℕ) (s : JsString) :
    tryResolveFrom env skip s =
      if (pieces skip s).any (EnvPiece.isMissing env) then
        none
      else
        some ((pieces skip s).flatMap (EnvPiece.expansion env)) := by
  induction s generalizing skip with
  | nil => cases skip <;> rfl
  | cons u rest ih =>
      cases skip with
      | succ skip => exact ih skip
      | zero =>
          rw [tryResolveFrom, pieces, parseEnvTokenAt_eq]
          by_cases hu : u = dollar
          · rw [if_pos hu, if_pos hu]
            cases hescaped : escapedNameAfter rest with
            | some name =>
                simp only [ih, Option.map_some, Option.some_or, List.any_cons, List.flatMap_cons,
                  EnvPiece.isMissing, Bool.false_or, EnvToken.tail]
                split <;> rfl
            | none =>
                cases hreference : referenceNameAfter rest with
                | none =>
                    simp only [ih, Option.map_none, Option.none_or, List.any_cons,
                      List.flatMap_cons, EnvPiece.isMissing, Bool.false_or]
                    split <;> rfl
                | some name =>
                    simp only [ih, Option.map_none, Option.none_or, Option.map_some,
                      List.any_cons, List.flatMap_cons, EnvPiece.isMissing, EnvToken.tail,
                      EnvPiece.expansion]
                    cases envValue env name with
                    | none => rfl
                    | some value =>
                        simp only [Option.isNone_some, Bool.false_or]
                        split <;> rfl
          · rw [if_neg hu, if_neg hu]
            simp only [ih, List.any_cons, List.flatMap_cons, EnvPiece.isMissing, Bool.false_or]
            split <;> rfl

end Scanners

end GreenchClaw.Config
