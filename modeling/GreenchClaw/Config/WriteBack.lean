import GreenchClaw.Config.EnvPreserve

/-!
# An unmodified read and write

A config that is resolved and written back without a change is the config as it was parsed,
unless one of its texts mixes a missing variable with something that the substitution changes, or
one of its objects has an entry `__proto__`.
-/

namespace GreenchClaw.Config

open GreenchClaw.Js

section Unmodified

variable {N : Type}

theorem JsonValue.induction {P : JsonValue N → Prop} (null : P .null)
    (bool : ∀ value, P (.bool value)) (number : ∀ value, P (.number value))
    (string : ∀ value, P (.string value))
    (array : ∀ items, (∀ item ∈ items, P item) → P (.array items))
    (object : ∀ entries, (∀ entry ∈ entries, P entry.2) → P (.object entries)) (v : JsonValue N) :
    P v := by
  apply @JsonValue.rec N P (fun items => ∀ item ∈ items, P item)
    (fun entries => ∀ entry ∈ entries, P entry.2) (fun entry => P entry.2)
  · exact null
  · exact bool
  · exact number
  · exact string
  · exact array
  · exact object
  · exact fun item hitem => absurd hitem List.not_mem_nil
  · exact fun head rest hhead hrest => List.forall_mem_cons.mpr ⟨hhead, hrest⟩
  · exact fun entry hentry => absurd hentry List.not_mem_nil
  · exact fun head rest hhead hrest => List.forall_mem_cons.mpr ⟨hhead, hrest⟩
  · exact fun key value hvalue => hvalue

/-! ## The resolved value -/

mutual

def expandValue (env : ProcessEnv) : JsonValue N → JsonValue N
  | .string value => .string (expansion env value)
  | .array items => .array (expandItems env items)
  | .object entries => .object (expandEntries env entries)
  | v => v

def expandItems (env : ProcessEnv) : List (JsonValue N) → List (JsonValue N)
  | [] => []
  | item :: rest => expandValue env item :: expandItems env rest

def expandEntries (env : ProcessEnv) :
    List (JsString × JsonValue N) → List (JsString × JsonValue N)
  | [] => []
  | (key, value) :: rest =>
      if key = protoKey then
        expandEntries env rest
      else
        (key, expandValue env value) :: expandEntries env rest

end

mutual

/-- Some text of the value has a reference to a variable that is not set. -/
def anyMissing (env : ProcessEnv) : JsonValue N → Bool
  | .string value => hasMissing env value
  | .array items => anyMissingItems env items
  | .object entries => anyMissingEntries env entries
  | _ => false

def anyMissingItems (env : ProcessEnv) : List (JsonValue N) → Bool
  | [] => false
  | item :: rest => anyMissing env item || anyMissingItems env rest

def anyMissingEntries (env : ProcessEnv) : List (JsString × JsonValue N) → Bool
  | [] => false
  | (_, value) :: rest => anyMissing env value || anyMissingEntries env rest

end

mutual

/-- No object has an entry `__proto__`, and in a text with a missing variable the escapes and the
variables that are set stand for what is written there. -/
def KeepsReferences (env : ProcessEnv) : JsonValue N → Prop
  | .string value => hasMissing env value = true → expansion env value = value
  | .array items => keepsReferencesItems env items
  | .object entries => keepsReferencesEntries env entries
  | _ => True

def keepsReferencesItems (env : ProcessEnv) : List (JsonValue N) → Prop
  | [] => True
  | item :: rest => KeepsReferences env item ∧ keepsReferencesItems env rest

def keepsReferencesEntries (env : ProcessEnv) : List (JsString × JsonValue N) → Prop
  | [] => True
  | (key, value) :: rest =>
      key ≠ protoKey ∧ KeepsReferences env value ∧ keepsReferencesEntries env rest

end

/-! ## Texts -/

theorem startsWithEnvVar_envRef {name : JsString} (hname : isEnvVarName name = true)
    (after : JsString) : startsWithEnvVar (envRef name ++ after) = true := by
  cases name with
  | nil => cases hname
  | cons u rest =>
      rw [isEnvVarName, Bool.and_eq_true] at hname
      have hclose : isNameUnit closeBrace = false := by decide
      have hrest : ∀ v ∈ rest, isNameUnit v = true := List.all_eq_true.mp hname.2
      have hdrop : (rest ++ closeBrace :: after).dropWhile isNameUnit = closeBrace :: after := by
        rw [List.dropWhile_append_of_pos hrest, List.dropWhile_cons_of_neg (by simp [hclose])]
      have htext : envRef (u :: rest) ++ after =
          dollar :: openBrace :: u :: (rest ++ closeBrace :: after) := by
        simp [envRef]
      rw [htext, startsWithEnvVar, hdrop, hname.1]
      simp

theorem hasEnvVarRef_cons (u : CodeUnit) (rest : JsString) :
    hasEnvVarRef (u :: rest) = (startsWithEnvVar (u :: rest) || hasEnvVarRef rest) := by
  rw [hasEnvVarRef, List.tails, List.any_cons]
  rfl

theorem hasEnvVarRef_of_token {u : CodeUnit} {rest : JsString} {t : EnvToken}
    (h : parseEnvTokenAt (u :: rest) = some t) : hasEnvVarRef (u :: rest) = true := by
  rw [parseEnvTokenAt_eq] at h
  split at h
  · rename_i hu
    rw [hu]
    cases hescaped : escapedNameAfter rest with
    | some name =>
        obtain ⟨hname, after, rfl⟩ := source_of_escapedNameAfter hescaped
        have hstart := startsWithEnvVar_envRef hname after
        have htext : envRef name ++ after =
            dollar :: (openBrace :: (name ++ [closeBrace]) ++ after) := rfl
        rw [hasEnvVarRef_cons, htext, hasEnvVarRef_cons, ← htext, hstart]
        simp
    | none =>
        rw [hescaped, Option.map_none, Option.none_or] at h
        obtain ⟨name, hreference, _⟩ := Option.map_eq_some_iff.mp h
        obtain ⟨hname, after, hafter⟩ := source_of_referenceNameAfter hreference
        rw [hasEnvVarRef_cons, hafter, startsWithEnvVar_envRef hname after]
        rfl
  · cases h

theorem pieces_of_no_ref {s : JsString} (h : hasEnvVarRef s = false) :
    pieces 0 s = s.map .text := by
  induction s with
  | nil => rfl
  | cons u rest ih =>
      have hnone : parseEnvTokenAt (u :: rest) = none := by
        by_contra hsome
        obtain ⟨t, ht⟩ := Option.ne_none_iff_exists'.mp hsome
        rw [hasEnvVarRef_of_token ht] at h
        cases h
      rw [hasEnvVarRef_cons, Bool.or_eq_false_iff] at h
      rw [pieces, hnone, List.map_cons, ih h.2]

theorem expansion_of_texts {env : ProcessEnv} {s : JsString} (h : pieces 0 s = s.map .text) :
    expansion env s = s := by
  rw [expansion, h, List.flatMap_map]
  exact List.flatMap_singleton' s

theorem hasMissing_of_texts {env : ProcessEnv} {s : JsString} (h : pieces 0 s = s.map .text) :
    hasMissing env s = false := by
  rw [hasMissing, h, List.any_map]
  exact List.any_eq_false.mpr fun u hu => Bool.false_ne_true

theorem pieces_of_no_dollar {s : JsString} (h : dollar ∉ s) : pieces 0 s = s.map .text := by
  induction s with
  | nil => rfl
  | cons u rest ih =>
      rw [List.mem_cons, not_or] at h
      rw [pieces, parseEnvTokenAt_eq, if_neg (Ne.symm h.1), List.map_cons, ih h.2]

theorem substituteString_ok (env : ProcessEnv) (onMissing : Bool) (value configPath : JsString)
    (h : onMissing = true ∨ hasMissing env value = false) :
    ∃ warnings, substituteString env onMissing value configPath =
      .ok ⟨expansion env value, warnings⟩ := by
  unfold substituteString
  split
  · exact substituteFrom_ok env onMissing configPath 0 value h
  · rename_i hdollar
    rw [List.contains_iff_mem] at hdollar
    rw [expansion_of_texts (pieces_of_no_dollar hdollar)]
    exact ⟨[], rfl⟩

theorem substituteString_error (env : ProcessEnv) (value configPath : JsString)
    (h : hasMissing env value = true) :
    ∃ err, substituteString env false value configPath = .error err := by
  unfold substituteString
  split
  · exact substituteFrom_error env configPath 0 value h
  · rename_i hdollar
    rw [List.contains_iff_mem] at hdollar
    rw [hasMissing_of_texts (pieces_of_no_dollar hdollar)] at h
    cases h

/-- A text is restored unless a missing variable keeps the restorer from recognising what the
substitution has changed. -/
theorem restoreString_expansion_iff (env : ProcessEnv) (s : JsString) :
    restoreString env (expansion env s) s = s ↔
      (hasMissing env s = true → expansion env s = s) := by
  have hresolve : tryResolveString env s =
      if hasMissing env s then none else some (expansion env s) := tryResolveFrom_eq env 0 s
  unfold restoreString
  rw [hresolve]
  cases hmissing : hasMissing env s with
  | true => simp
  | false =>
      cases href : hasEnvVarRef s with
      | true => simp
      | false => simp [expansion_of_texts (pieces_of_no_ref href)]

/-- Both scanners read a text as the same pieces, of which nothing is lost: the restorer resolves it to the
expansions of the pieces unless a variable is missing, which is when the substituter fails without
`onMissing`, and both give the same value. -/
theorem scanners_agree (env : ProcessEnv) (template configPath value : JsString) :
    (pieces 0 template).flatMap EnvPiece.source = template ∧
      tryResolveString env template =
        (if (pieces 0 template).any (EnvPiece.isMissing env) = true then none
        else some ((pieces 0 template).flatMap (EnvPiece.expansion env))) ∧
      (tryResolveString env template = some value ↔
        ∃ warnings, substituteString env false template configPath = .ok ⟨value, warnings⟩) ∧
      ∃ warnings, substituteString env true template configPath =
        .ok ⟨(pieces 0 template).flatMap (EnvPiece.expansion env), warnings⟩ := by
  have hresolve : tryResolveString env template =
      if hasMissing env template then none else some (expansion env template) :=
    tryResolveFrom_eq env 0 template
  refine ⟨source_pieces template, hresolve, ?_,
    substituteString_ok env true template configPath (.inl rfl)⟩
  rw [hresolve]
  cases hmissing : hasMissing env template with
  | true =>
      obtain ⟨err, herr⟩ := substituteString_error env template configPath hmissing
      simp [herr]
  | false =>
      obtain ⟨warnings, hok⟩ := substituteString_ok env false template configPath (.inr hmissing)
      simp [hok]

/-! ## Values -/

theorem substituteAny_ok (env : ProcessEnv) (onMissing : Bool) (path : JsString) (v : JsonValue N)
    (h : onMissing = true ∨ anyMissing env v = false) :
    ∃ warnings, substituteAny env onMissing path v = .ok ⟨expandValue env v, warnings⟩ := by
  induction v using JsonValue.induction generalizing path with
  | null => exact ⟨[], rfl⟩
  | bool value => exact ⟨[], rfl⟩
  | number value => exact ⟨[], rfl⟩
  | string value =>
      obtain ⟨warnings, hok⟩ := substituteString_ok env onMissing value path h
      exact ⟨warnings, by rw [substituteAny, hok]; rfl⟩
  | array items ih =>
      have hitems : ∀ index, ∃ warnings, substituteItems env onMissing path index items =
          .ok ⟨expandItems env items, warnings⟩ := by
        rw [anyMissing] at h
        induction items with
        | nil => exact fun index => ⟨[], rfl⟩
        | cons item rest ihrest =>
            intro index
            rw [anyMissingItems, Bool.or_eq_false_iff] at h
            obtain ⟨hitem, hmore⟩ := List.forall_mem_cons.mp ih
            obtain ⟨first, hfirst⟩ := hitem (itemPath path index) (h.imp_right And.left)
            obtain ⟨more, hrest⟩ := ihrest hmore (h.imp_right And.right) (index + 1)
            exact ⟨first ++ more, by rw [substituteItems, hfirst, hrest]; rfl⟩
      obtain ⟨warnings, hok⟩ := hitems 0
      exact ⟨warnings, by rw [substituteAny, hok]; rfl⟩
  | object entries ih =>
      have hentries : ∃ warnings, substituteEntries env onMissing path entries =
          .ok ⟨expandEntries env entries, warnings⟩ := by
        rw [anyMissing] at h
        induction entries with
        | nil => exact ⟨[], rfl⟩
        | cons entry rest ihrest =>
            obtain ⟨key, value⟩ := entry
            rw [anyMissingEntries, Bool.or_eq_false_iff] at h
            obtain ⟨hvalue, hmore⟩ := List.forall_mem_cons.mp ih
            obtain ⟨first, hfirst⟩ := hvalue (childPath path key) (h.imp_right And.left)
            obtain ⟨more, hrest⟩ := ihrest hmore (h.imp_right And.right)
            exact ⟨first ++ more, by rw [substituteEntries, hfirst, hrest, expandEntries]; rfl⟩
      obtain ⟨warnings, hok⟩ := hentries
      exact ⟨warnings, by rw [substituteAny, hok]; rfl⟩

theorem substituteAny_error (env : ProcessEnv) (path : JsString) (v : JsonValue N)
    (h : anyMissing env v = true) : ∃ err, substituteAny env false path v = .error err := by
  induction v using JsonValue.induction generalizing path with
  | null => cases h
  | bool value => cases h
  | number value => cases h
  | string value =>
      obtain ⟨err, herr⟩ := substituteString_error env value path h
      exact ⟨err, by rw [substituteAny, herr]; rfl⟩
  | array items ih =>
      have hitems : ∀ index, ∃ err, substituteItems env false path index items = .error err := by
        rw [anyMissing] at h
        induction items with
        | nil => cases h
        | cons item rest ihrest =>
            intro index
            rw [anyMissingItems, Bool.or_eq_true] at h
            obtain ⟨hitem, hmore⟩ := List.forall_mem_cons.mp ih
            cases hhead : anyMissing env item with
            | true =>
                obtain ⟨err, herr⟩ := hitem (itemPath path index) hhead
                exact ⟨err, by rw [substituteItems, herr]⟩
            | false =>
                rw [hhead] at h
                obtain ⟨first, hfirst⟩ :=
                  substituteAny_ok env false (itemPath path index) item (.inr hhead)
                obtain ⟨err, herr⟩ :=
                  ihrest hmore (h.resolve_left Bool.false_ne_true) (index + 1)
                exact ⟨err, by rw [substituteItems, hfirst, herr]; rfl⟩
      obtain ⟨err, herr⟩ := hitems 0
      exact ⟨err, by rw [substituteAny, herr]; rfl⟩
  | object entries ih =>
      have hentries : ∃ err, substituteEntries env false path entries = .error err := by
        rw [anyMissing] at h
        induction entries with
        | nil => cases h
        | cons entry rest ihrest =>
            obtain ⟨key, value⟩ := entry
            rw [anyMissingEntries, Bool.or_eq_true] at h
            obtain ⟨hvalue, hmore⟩ := List.forall_mem_cons.mp ih
            cases hhead : anyMissing env value with
            | true =>
                obtain ⟨err, herr⟩ := hvalue (childPath path key) hhead
                exact ⟨err, by rw [substituteEntries, herr]⟩
            | false =>
                rw [hhead] at h
                obtain ⟨first, hfirst⟩ :=
                  substituteAny_ok env false (childPath path key) value (.inr hhead)
                obtain ⟨err, herr⟩ := ihrest hmore (h.resolve_left Bool.false_ne_true)
                exact ⟨err, by rw [substituteEntries, hfirst, herr]; rfl⟩
      obtain ⟨err, herr⟩ := hentries
      exact ⟨err, by rw [substituteAny, herr]; rfl⟩

theorem lookup_of_mem {entries : List (JsString × JsonValue N)} {key : JsString}
    {value : JsonValue N} (hkeys : (entries.map Prod.fst).Nodup) (hmem : (key, value) ∈ entries) :
    entries.lookup key = some value := by
  induction entries with
  | nil => cases hmem
  | cons entry rest ih =>
      rw [List.map_cons, List.nodup_cons] at hkeys
      rcases List.mem_cons.mp hmem with rfl | hrest
      · exact List.lookup_cons_self
      · have hother : key ≠ entry.1 := fun heq =>
          hkeys.1 (heq ▸ List.mem_map_of_mem hrest)
        have hbeq : (key == entry.1) = false := beq_eq_false_iff_ne.mpr hother
        rw [List.lookup_cons, hbeq]
        exact ih hkeys.2 hrest

theorem protoKey_notMem_restoreEntries (env : ProcessEnv)
    (incoming parsed : List (JsString × JsonValue N)) :
    protoKey ∉ (restoreEntries env incoming parsed).map Prod.fst := by
  induction incoming with
  | nil => exact List.not_mem_nil
  | cons entry rest ih =>
      obtain ⟨key, value⟩ := entry
      rw [restoreEntries]
      split
      · exact ih
      · rename_i hkey
        rw [List.map_cons, List.mem_cons, not_or]
        exact ⟨Ne.symm hkey, ih⟩

theorem restore_expandValue_iff (env : ProcessEnv) {v : JsonValue N} (hv : v.distinctKeys) :
    restoreEnvVarRefs env (expandValue env v) v = v ↔ KeepsReferences env v := by
  induction v using JsonValue.induction with
  | null => simp [expandValue, restoreEnvVarRefs, KeepsReferences]
  | bool value => simp [expandValue, restoreEnvVarRefs, KeepsReferences]
  | number value => simp [expandValue, restoreEnvVarRefs, KeepsReferences]
  | string value =>
      rw [expandValue, restoreEnvVarRefs, JsonValue.string.injEq, KeepsReferences]
      exact restoreString_expansion_iff env value
  | array items ih =>
      rw [expandValue, restoreEnvVarRefs, JsonValue.array.injEq, KeepsReferences]
      rw [JsonValue.distinctKeys] at hv
      induction items with
      | nil => simp [expandItems, restoreItems, keepsReferencesItems]
      | cons item rest ihrest =>
          rw [distinctKeysItems] at hv
          obtain ⟨hitem, hmore⟩ := List.forall_mem_cons.mp ih
          rw [expandItems, restoreItems, List.cons.injEq, keepsReferencesItems, hitem hv.1,
            ihrest hmore hv.2]
  | object entries ih =>
      rw [expandValue, restoreEnvVarRefs, JsonValue.object.injEq, KeepsReferences]
      rw [JsonValue.distinctKeys] at hv
      have hsuffix : ∀ rest, rest ⊆ entries → distinctKeysEntries rest →
          (restoreEntries env (expandEntries env rest) entries = rest ↔
            keepsReferencesEntries env rest) := by
        intro rest
        induction rest with
        | nil => simp [expandEntries, restoreEntries, keepsReferencesEntries]
        | cons entry rest ihrest =>
            obtain ⟨key, value⟩ := entry
            intro hsubset hdistinct
            rw [List.cons_subset] at hsubset
            rw [distinctKeysEntries] at hdistinct
            have hrest := ihrest hsubset.2 hdistinct.2
            rw [expandEntries, keepsReferencesEntries]
            split
            · rename_i hkey
              refine iff_of_false (fun heq => ?_) (fun hkeeps => hkeeps.1 hkey)
              apply protoKey_notMem_restoreEntries env (expandEntries env rest) entries
              rw [heq, hkey]
              exact List.mem_cons_self
            · rename_i hkey
              rw [restoreEntries, lookup_of_mem hv.1 hsubset.1]
              dsimp only
              rw [if_neg hkey, List.cons.injEq, Prod.mk.injEq, ih _ hsubset.1 hdistinct.1, hrest]
              simp [hkey]
      exact hsuffix entries (List.Subset.refl entries) hv.2

/-! ## The config file -/

/-- Whatever the resolution of the config gives, restoring it gives the config back. -/
def SurvivesWrite (env : ProcessEnv) (onMissing : Bool) (parsed : ParsedConfig N) : Prop :=
  ∀ resolved, resolveConfigEnvVars env onMissing parsed.value = .ok resolved →
    restoreEnvVarRefs env resolved.value parsed.value = parsed.value

/-- An unmodified read and write keeps the config exactly when resolving it throws, or it has no
entry `__proto__` and no text in which a missing variable stands beside something that the
substitution changes. -/
theorem env_refs_survive_write_iff (parsed : ParsedConfig N) (env : ProcessEnv)
    (onMissing : Bool) :
    SurvivesWrite env onMissing parsed ↔
      (onMissing = false ∧ anyMissing env parsed.value = true) ∨
        KeepsReferences env parsed.value := by
  by_cases hthrows : onMissing = false ∧ anyMissing env parsed.value = true
  · obtain ⟨rfl, hmissing⟩ := hthrows
    obtain ⟨err, herr⟩ := substituteAny_error env [] parsed.value hmissing
    refine iff_of_true (fun resolved hresolved => ?_) (.inl ⟨rfl, hmissing⟩)
    rw [resolveConfigEnvVars, herr] at hresolved
    cases hresolved
  · have hresolves : onMissing = true ∨ anyMissing env parsed.value = false := by
      cases onMissing <;> simp_all
    obtain ⟨warnings, hok⟩ := substituteAny_ok env onMissing [] parsed.value hresolves
    rw [or_iff_right hthrows, ← restore_expandValue_iff env parsed.distinctKeys]
    constructor
    · intro hsurvives
      exact hsurvives _ hok
    · intro hrestored resolved hresolved
      rw [resolveConfigEnvVars, hok] at hresolved
      cases hresolved
      exact hrestored

def keyOnlyEnv : ProcessEnv := fun name =>
  if name = js "API_KEY" then some (js "s3cret") else none

def keyAndHost : ParsedConfig ℤ where
  value := .string (js "$\x7bAPI_KEY\x7d@$\x7bAPI_HOST\x7d")
  distinctKeys := trivial

/-- The key of a half resolved text is written out in place of its reference. -/
theorem secret_written_beside_missing : ¬ SurvivesWrite keyOnlyEnv true keyAndHost := by
  intro hsurvives
  obtain ⟨warnings, hok⟩ := substituteAny_ok keyOnlyEnv true [] keyAndHost.value (.inl rfl)
  have hkeeps := (restore_expandValue_iff keyOnlyEnv keyAndHost.distinctKeys).mp
    (hsurvives _ hok)
  have hmissing : hasMissing keyOnlyEnv (js "$\x7bAPI_KEY\x7d@$\x7bAPI_HOST\x7d") = true := by
    decide +kernel
  have hchanged : expansion keyOnlyEnv (js "$\x7bAPI_KEY\x7d@$\x7bAPI_HOST\x7d") =
      js "s3cret@$\x7bAPI_HOST\x7d" := by
    decide +kernel
  rw [keyAndHost, KeepsReferences, hchanged] at hkeeps
  exact absurd (hkeeps hmissing) (by decide +kernel)

end Unmodified

/-!
## Equality of JSON values

Whether two values are the same, entry by entry, is decided by recursion.
-/

variable {N : Type} [DecidableEq N]

mutual

def sameValue : JsonValue N → JsonValue N → Bool
  | .null, .null => true
  | .bool a, .bool b => decide (a = b)
  | .number a, .number b => decide (a = b)
  | .string a, .string b => decide (a = b)
  | .array xs, .array ys => sameItems xs ys
  | .object xs, .object ys => sameEntries xs ys
  | _, _ => false

def sameItems : List (JsonValue N) → List (JsonValue N) → Bool
  | [], [] => true
  | x :: xs, y :: ys => sameValue x y && sameItems xs ys
  | _, _ => false

def sameEntries : List (JsString × JsonValue N) → List (JsString × JsonValue N) → Bool
  | [], [] => true
  | (key, x) :: xs, (other, y) :: ys => decide (key = other) && sameValue x y && sameEntries xs ys
  | _, _ => false

end

theorem sameItems_iff {xs ys : List (JsonValue N)}
    (h : ∀ x ∈ xs, ∀ y, sameValue x y = true ↔ x = y) : sameItems xs ys = true ↔ xs = ys := by
  induction xs generalizing ys with
  | nil => cases ys <;> simp [sameItems]
  | cons x xs ih =>
      obtain ⟨hx, hxs⟩ := List.forall_mem_cons.mp h
      cases ys with
      | nil => simp [sameItems]
      | cons y ys => rw [sameItems, Bool.and_eq_true, hx, ih hxs, List.cons.injEq]

theorem sameEntries_iff {xs ys : List (JsString × JsonValue N)}
    (h : ∀ x ∈ xs, ∀ y, sameValue x.2 y = true ↔ x.2 = y) :
    sameEntries xs ys = true ↔ xs = ys := by
  induction xs generalizing ys with
  | nil => cases ys <;> simp [sameEntries]
  | cons x xs ih =>
      obtain ⟨hx, hxs⟩ := List.forall_mem_cons.mp h
      cases ys with
      | nil => simp [sameEntries]
      | cons y ys =>
          rw [sameEntries, Bool.and_eq_true, Bool.and_eq_true, decide_eq_true_eq, hx, ih hxs,
            List.cons.injEq, Prod.mk.injEq]

theorem sameValue_iff (a : JsonValue N) : ∀ b, sameValue a b = true ↔ a = b := by
  induction a using JsonValue.induction with
  | null =>
      intro b
      cases b <;> simp [sameValue]
  | bool value =>
      intro b
      cases b <;> simp [sameValue]
  | number value =>
      intro b
      cases b <;> simp [sameValue]
  | string value =>
      intro b
      cases b <;> simp [sameValue]
  | array items ih =>
      intro b
      cases b with
      | array other => rw [sameValue, sameItems_iff ih, JsonValue.array.injEq]
      | _ => simp [sameValue]
  | object entries ih =>
      intro b
      cases b with
      | object other => rw [sameValue, sameEntries_iff ih, JsonValue.object.injEq]
      | _ => simp [sameValue]

instance : DecidableEq (JsonValue N) := fun a b =>
  decidable_of_iff (sameValue a b = true) (sameValue_iff a b)

instance : DecidableEq (ParsedConfig N) := fun a b =>
  decidable_of_iff (a.value = b.value) (by
    constructor
    · intro h
      cases a
      cases b
      simpa using h
    · exact congrArg ParsedConfig.value)

end GreenchClaw.Config
