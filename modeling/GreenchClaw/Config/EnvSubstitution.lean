import GreenchClaw.Js.Text

/-!
# Environment references in config values

`${NAME}` stands for the value of an environment variable and `$${NAME}` for the text `${NAME}`.
The scanner of the source walks over the indices of a text and moves its index to the end of a
token; here it walks over the units with the number of units that are still to be skipped.
-/

namespace GreenchClaw.Config

open GreenchClaw.Js

/-! ## Config values -/

/-- A value of the parsed config.  `N` is the type of the numbers, which nothing here reads. -/
inductive JsonValue (N : Type) where
  | null
  | bool (value : Bool)
  | number (value : N)
  | string (value : JsString)
  | array (items : List (JsonValue N))
  | object (entries : List (JsString × JsonValue N))

/-- The environment: a variable may be missing. -/
abbrev ProcessEnv := JsString → Option JsString

/-- An assignment to the key `__proto__` sets the prototype and creates no entry. -/
def protoKey : JsString := js "__proto__"

variable {N : Type}

mutual

def JsonValue.distinctKeys : JsonValue N → Prop
  | .array items => distinctKeysItems items
  | .object entries => (entries.map Prod.fst).Nodup ∧ distinctKeysEntries entries
  | _ => True

def distinctKeysItems : List (JsonValue N) → Prop
  | [] => True
  | item :: rest => item.distinctKeys ∧ distinctKeysItems rest

def distinctKeysEntries : List (JsString × JsonValue N) → Prop
  | [] => True
  | (_, value) :: rest => value.distinctKeys ∧ distinctKeysEntries rest

end

structure ParsedConfig (N : Type) where
  value : JsonValue N
  distinctKeys : value.distinctKeys

/-! ## Tokens -/

def dollar : CodeUnit := unit '$'

def openBrace : CodeUnit := unit '{'

def closeBrace : CodeUnit := unit '}'

def isNameStart (u : CodeUnit) : Bool := (unit 'A' ≤ u && u ≤ unit 'Z') || u == unit '_'

def isNameUnit (u : CodeUnit) : Bool := isNameStart u || (unit '0' ≤ u && u ≤ unit '9')

/-- `ENV_VAR_NAME_PATTERN`. -/
def isEnvVarName : JsString → Bool
  | [] => false
  | u :: rest => isNameStart u && rest.all isNameUnit

def envRef (name : JsString) : JsString := dollar :: openBrace :: (name ++ [closeBrace])

def closedName (s : JsString) : Option JsString :=
  let name := s.takeWhile fun u => u ≠ closeBrace
  if name.length < s.length && isEnvVarName name then some name else none

inductive EnvToken where
  | escaped (name : JsString)
  | substitution (name : JsString)
  deriving DecidableEq

/-- The units of a token after its first one, `end - index`. -/
def EnvToken.tail : EnvToken → ℕ
  | escaped name => name.length + 3
  | substitution name => name.length + 2

def parseEnvTokenAt : JsString → Option EnvToken
  | a :: b :: rest =>
      if a ≠ dollar then
        none
      else if b = dollar then
        match rest with
        | c :: name => if c = openBrace then (closedName name).map .escaped else none
        | [] => none
      else if b = openBrace then
        (closedName rest).map .substitution
      else
        none
  | _ => none

/-! ## Substitution -/

structure MissingEnvVarError where
  varName : JsString
  configPath : JsString
  deriving DecidableEq

structure EnvSubstitutionWarning where
  varName : JsString
  configPath : JsString
  deriving DecidableEq

/-- A substituted value and the calls of `onMissing` on the way to it. -/
structure Substituted (α : Type) where
  value : α
  warnings : List EnvSubstitutionWarning
  deriving DecidableEq

def Substituted.map {α β : Type} (f : α → β) (s : Substituted α) : Substituted β :=
  { value := f s.value, warnings := s.warnings }

def pushChunk (chunk : JsString) (warnings : List EnvSubstitutionWarning)
    (rest : Except MissingEnvVarError (Substituted JsString)) :
    Except MissingEnvVarError (Substituted JsString) :=
  rest.map fun s => { value := chunk ++ s.value, warnings := warnings ++ s.warnings }

/-- The value of a variable that is set to a non-empty text. -/
def envValue (env : ProcessEnv) (name : JsString) : Option JsString :=
  match env name with
  | some (u :: rest) => some (u :: rest)
  | _ => none

section Substitute

variable (env : ProcessEnv) (onMissing : Bool)

def substituteFrom (configPath : JsString) :
    ℕ → JsString → Except MissingEnvVarError (Substituted JsString)
  | _, [] => .ok ⟨[], []⟩
  | skip + 1, _ :: rest => substituteFrom configPath skip rest
  | 0, char :: rest =>
      match parseEnvTokenAt (char :: rest) with
      | some (.escaped name) =>
          pushChunk (envRef name) [] (substituteFrom configPath (EnvToken.escaped name).tail rest)
      | some (.substitution name) =>
          match envValue env name with
          | some value =>
              pushChunk value [] (substituteFrom configPath (EnvToken.substitution name).tail rest)
          | none =>
              if onMissing then
                pushChunk (envRef name) [⟨name, configPath⟩]
                  (substituteFrom configPath (EnvToken.substitution name).tail rest)
              else
                .error ⟨name, configPath⟩
      | none => pushChunk [char] [] (substituteFrom configPath 0 rest)

def substituteString (value configPath : JsString) :
    Except MissingEnvVarError (Substituted JsString) :=
  if value.contains dollar then
    substituteFrom env onMissing configPath 0 value
  else
    .ok ⟨value, []⟩

def itemPath (path : JsString) (index : ℕ) : JsString :=
  path ++ js "[" ++ js (toString index) ++ js "]"

def childPath (path key : JsString) : JsString :=
  if path = [] then key else path ++ js "." ++ key

mutual

def substituteAny (path : JsString) :
    JsonValue N → Except MissingEnvVarError (Substituted (JsonValue N))
  | .string value => (substituteString env onMissing value path).map (Substituted.map .string)
  | .array items => (substituteItems path 0 items).map (Substituted.map .array)
  | .object entries => (substituteEntries path entries).map (Substituted.map .object)
  | .null => .ok ⟨.null, []⟩
  | .bool value => .ok ⟨.bool value, []⟩
  | .number value => .ok ⟨.number value, []⟩

def substituteItems (path : JsString) :
    ℕ → List (JsonValue N) → Except MissingEnvVarError (Substituted (List (JsonValue N)))
  | _, [] => .ok ⟨[], []⟩
  | index, item :: rest =>
      match substituteAny (itemPath path index) item with
      | .error err => .error err
      | .ok head =>
          (substituteItems path (index + 1) rest).map fun tail =>
            { value := head.value :: tail.value, warnings := head.warnings ++ tail.warnings }

/-- The loop over `Object.entries`: the keys are distinct, so each assignment but one to
`__proto__` appends an entry. -/
def substituteEntries (path : JsString) :
    List (JsString × JsonValue N) →
      Except MissingEnvVarError (Substituted (List (JsString × JsonValue N)))
  | [] => .ok ⟨[], []⟩
  | (key, value) :: rest =>
      match substituteAny (childPath path key) value with
      | .error err => .error err
      | .ok head =>
          (substituteEntries path rest).map fun tail =>
            { value := if key = protoKey then tail.value else (key, head.value) :: tail.value
              warnings := head.warnings ++ tail.warnings }

end

def resolveConfigEnvVars (obj : JsonValue N) :
    Except MissingEnvVarError (Substituted (JsonValue N)) :=
  substituteAny env onMissing [] obj

end Substitute

end GreenchClaw.Config
