import GreenchClaw.Exec.Allowlist

/-!
# Normalising the approvals file

What is read from the disk may be of an older version or was changed by hand: entries that are only a text,
policies that are no policies, and the agent `default` of former times, which is merged into `main`.  Here is
which patterns survive this.
-/

namespace GreenchClaw.Exec

open GreenchClaw.Js
open GreenchClaw.Routing (DEFAULT_AGENT_ID)

/-! ## What is read -/

/-- A field that should be a text; of another value only its truth matters. -/
inductive RawText where
  | text (text : JsString)
  | other (truthy : Bool)
deriving DecidableEq

/-- An object in an allowlist, with the fields that no function here reads. -/
structure RawEntry (R : Type) where
  id : Option RawText := none
  pattern : Option RawText := none
  commandText : Option RawText := none
  argPattern : Option RawText := none
  rest : Option R := none
deriving DecidableEq

inductive RawItem (R : Type) where
  | text (text : JsString)
  | entry (entry : RawEntry R)
  | null
  /-- A number, a truth value or an array. -/
  | other
deriving DecidableEq

inductive RawAllowlist (R : Type) where
  | items (items : List (RawItem R))
  /-- No array; a text can be iterated all the same. -/
  | other (iterable : Bool)
deriving DecidableEq

structure RawPolicy where
  security : Option RawText := none
  ask : Option RawText := none
  askFallback : Option RawText := none
  autoAllowSkills : Option Bool := none
deriving DecidableEq

structure RawAgent (R : Type) where
  policy : RawPolicy := {}
  allowlist : Option (RawAllowlist R) := none
deriving DecidableEq

structure RawApprovals (R : Type) where
  socketPath : Option JsString := none
  socketToken : Option JsString := none
  defaults : Option RawPolicy := none
  agents : Option (Map (RawAgent R)) := none

/-- The random ids, by the agent and the place in its list. -/
structure IdSource where
  randomUUID : JsString → ℕ → JsString
  randomUUID_ne : ∀ key i, randomUUID key i ≠ []

variable {R : Type}

/-! ## The passes -/

def normalizeAllowlistPattern [UnicodeCase] (value : Option RawText) : Option JsString :=
  match value with
  | some (.text text) =>
    let lower := normalizeLowercaseStringOrEmpty (normalizeOptionalString (some text))
    if lower = [] then none else some lower
  | _ => none

/-- The key of an item in `mergeLegacyAgent`, if it has a pattern; reading `null` and trimming what is no text
throws. -/
def mergeKey [UnicodeCase] : RawItem R → Option (Option JsString)
  | .null => none
  | .text _ => some none
  | .other => some none
  | .entry entry =>
    match normalizeAllowlistPattern entry.pattern with
    | none => some none
    | some patternKey =>
      match entry.argPattern with
      | none => some (some (patternKey ++ [nul]))
      | some (.text argPattern) => some (some (patternKey ++ nul :: trim argPattern))
      | some (.other _) => none

/-- The calls of `pushEntry`: what they push after these keys were seen. -/
def pushEntries [UnicodeCase] : List JsString → List (RawItem R) → Option (List (RawItem R))
  | _, [] => some []
  | seen, item :: items =>
    match mergeKey item with
    | none => none
    | some none => pushEntries seen items
    | some (some key) =>
      if key ∈ seen then pushEntries seen items
      else (pushEntries (seen ++ [key]) items).map (item :: ·)

/-- The items over which `for (const entry of allowlist ?? [])` goes.  Those of a text have no pattern. -/
def iterated : Option (RawAllowlist R) → Option (List (RawItem R))
  | none => some []
  | some (.items items) => some items
  | some (.other iterable) => if iterable then some [] else none

def mergeLegacyAgent [UnicodeCase] (current legacy : RawAgent R) : Option (RawAgent R) := do
  let currentItems ← iterated current.allowlist
  let legacyItems ← iterated legacy.allowlist
  let allowlist ← pushEntries [] (currentItems ++ legacyItems)
  return {
    policy := {
      security := current.policy.security.or legacy.policy.security
      ask := current.policy.ask.or legacy.policy.ask
      askFallback := current.policy.askFallback.or legacy.policy.askFallback
      autoAllowSkills := current.policy.autoAllowSkills.or legacy.policy.autoAllowSkills }
    allowlist := if allowlist = [] then none else some (.items allowlist) }

/-- What the loop of `coerceAllowlistEntries` makes of an item. -/
def coerceItem : RawItem R → Option (RawEntry R)
  | .text text => if trim text = [] then none else some { pattern := some (.text (trim text)) }
  | .entry entry =>
    match entry.pattern with
    | some (.text pattern) => if trim pattern = [] then none else some entry
    | _ => none
  | .null => none
  | .other => none

def coerceAllowlistEntries : Option (RawAllowlist R) → Option (List (RawEntry R))
  | some (.items []) => some []
  | some (.items (item :: items)) =>
    let result := (item :: items).filterMap coerceItem
    if result = [] then none else some result
  | _ => none

def RawEntry.hasId (entry : RawEntry R) : Bool :=
  match entry.id with
  | some (.text id) => !id.isEmpty
  | some (.other truthy) => truthy
  | none => false

def ensureAllowlistIds (newId : ℕ → JsString) (allowlist : List (RawEntry R)) : List (RawEntry R) :=
  allowlist.mapIdx fun i entry => if entry.hasId then entry else { entry with id := some (.text (newId i)) }

/-- What `stripAllowlistCommandText` makes of an entry. -/
def RawEntry.withoutCommandText (entry : RawEntry R) : RawEntry R :=
  match entry.commandText with
  | some (.text _) => { entry with commandText := none }
  | _ => entry

def stripAllowlistCommandText (allowlist : List (RawEntry R)) : List (RawEntry R) :=
  allowlist.map RawEntry.withoutCommandText

def sanitizeField (values : List JsString) (field : Option RawText) : Option RawText :=
  match field with
  | some (.text text) => if trim text ∈ values then some (.text (trim text)) else none
  | _ => none

def sanitizeExecApprovalPolicy (policy : RawPolicy) : RawPolicy where
  security := sanitizeField [js "deny", js "allowlist", js "full"] policy.security
  ask := sanitizeField [js "off", js "on-miss", js "always"] policy.ask
  askFallback := sanitizeField [js "deny", js "allowlist", js "full"] policy.askFallback
  autoAllowSkills := policy.autoAllowSkills

/-- The loop body of `normalizeExecApprovals`; the source keeps the object when nothing in it changes. -/
def normalizeAgent (newId : ℕ → JsString) (agent : RawAgent R) : RawAgent R where
  policy := sanitizeExecApprovalPolicy agent.policy
  allowlist := (coerceAllowlistEntries agent.allowlist).map fun coerced =>
    .items ((stripAllowlistCommandText (ensureAllowlistIds newId coerced)).map .entry)

/-- The loop of `normalizeExecApprovals` over the agents. -/
def normalizeAgents (ids : IdSource) (agents : Map (RawAgent R)) : Map (RawAgent R) where
  entries := agents.entries.map fun entry => (entry.1, normalizeAgent (ids.randomUUID entry.1) entry.2)
  distinct := by
    rw [List.map_map]
    exact agents.distinct

def legacyKey : JsString := js "default"

def mergeDefault [UnicodeCase] (agents : Map (RawAgent R)) : Option (Map (RawAgent R)) :=
  match agents.get legacyKey with
  | none => some agents
  | some legacyDefault =>
    match agents.get DEFAULT_AGENT_ID with
    | none => some ((agents.set DEFAULT_AGENT_ID legacyDefault).delete legacyKey)
    | some main =>
      (mergeLegacyAgent main legacyDefault).map fun merged =>
        (agents.set DEFAULT_AGENT_ID merged).delete legacyKey

def normalizeExecApprovals [UnicodeCase] (ids : IdSource) (file : RawApprovals R) :
    Option (RawApprovals R) :=
  (mergeDefault (file.agents.getD Map.empty)).map fun agents =>
    { socketPath := normalizeOptionalString file.socketPath
      socketToken := normalizeOptionalString file.socketToken
      defaults := some (sanitizeExecApprovalPolicy (file.defaults.getD {}))
      agents := some (normalizeAgents ids agents) }

/-! ## Patterns -/

/-- The pattern of an item without the white space around it, if it is not blank. -/
def patternOf : RawItem R → Option JsString
  | .text text => normalizeOptionalString (some text)
  | .entry entry =>
    match entry.pattern with
    | some (.text pattern) => normalizeOptionalString (some pattern)
    | _ => none
  | .null => none
  | .other => none

def RawAgent.items (agent : RawAgent R) : List (RawItem R) :=
  match agent.allowlist with
  | some (.items items) => items
  | _ => []

def RawApprovals.patterns (file : RawApprovals R) (key : JsString) : List JsString :=
  ((((file.agents.getD Map.empty).get key).getD {}).items).filterMap patternOf

def normalizedKey (key : JsString) : JsString := if key = legacyKey then DEFAULT_AGENT_ID else key

structure LosesNothing [UnicodeCase] (ids : IdSource) (file out : RawApprovals R) : Prop where
  normalized : normalizeExecApprovals ids file = some out
  patterns : ∀ key, ∀ pattern ∈ file.patterns key, pattern ∈ out.patterns (normalizedKey key)
  again : ∀ others, normalizeExecApprovals others out = some out

def FirstOfKey [UnicodeCase] (items : List (RawItem R)) (item : RawItem R) : Prop :=
  ∃ before after key, items = before ++ item :: after ∧ mergeKey item = some (some key) ∧
    ∀ earlier ∈ before, mergeKey earlier ≠ some (some key)

def MergeKeeps [UnicodeCase] (current legacy : RawAgent R) : Prop :=
  ∃ currentItems legacyItems, iterated current.allowlist = some currentItems ∧
    iterated legacy.allowlist = some legacyItems ∧
    ∀ item ∈ currentItems ++ legacyItems, mergeKey item ≠ none ∧
      ∀ pattern, patternOf item = some pattern →
        ∃ first, FirstOfKey (currentItems ++ legacyItems) first ∧ patternOf first = some pattern

/-! ### One agent -/

theorem normalizeOptionalString_some (text : JsString) :
    normalizeOptionalString (some text) = if trim text = [] then none else some (trim text) := rfl

theorem sanitizeField_twice (values : List JsString) (field : Option RawText) :
    sanitizeField values (sanitizeField values field) = sanitizeField values field := by
  cases field with
  | none => rfl
  | some field =>
      cases field with
      | other truthy => rfl
      | text text =>
          by_cases hmem : trim text ∈ values
          · rw [sanitizeField, if_pos hmem, sanitizeField, trim_trim, if_pos hmem]
          · rw [sanitizeField, if_neg hmem]
            rfl

theorem sanitizeExecApprovalPolicy_twice (policy : RawPolicy) :
    sanitizeExecApprovalPolicy (sanitizeExecApprovalPolicy policy) = sanitizeExecApprovalPolicy policy := by
  unfold sanitizeExecApprovalPolicy
  simp only [sanitizeField_twice]

theorem patternOf_entry_congr {entry other : RawEntry R} (h : entry.pattern = other.pattern) :
    patternOf (.entry entry) = patternOf (.entry other) := by
  rcases entry with ⟨id, pattern, commandText, argPattern, rest⟩
  simp only at h
  rw [h]
  rfl

theorem coerceItem_text (text : JsString) :
    coerceItem (.text text : RawItem R) =
      (normalizeOptionalString (some text)).map fun pattern => { pattern := some (.text pattern) } := by
  show (if trim text = [] then none else some _) = _
  rw [normalizeOptionalString_some]
  by_cases hblank : trim text = []
  · rw [if_pos hblank, if_pos hblank]
    rfl
  · rw [if_neg hblank, if_neg hblank]
    rfl

theorem coerceItem_entry (entry : RawEntry R) :
    coerceItem (.entry entry) = (patternOf (.entry entry)).map fun _ => entry := by
  rcases entry with ⟨id, pattern, commandText, argPattern, rest⟩
  cases pattern with
  | none => rfl
  | some field =>
      cases field with
      | other truthy => rfl
      | text pattern =>
          show (if trim pattern = [] then none else some _) = (normalizeOptionalString (some pattern)).map _
          rw [normalizeOptionalString_some]
          by_cases hblank : trim pattern = []
          · rw [if_pos hblank, if_pos hblank]
            rfl
          · rw [if_neg hblank, if_neg hblank]
            rfl

theorem bind_patternOf_coerceItem (item : RawItem R) :
    ((coerceItem item).bind fun entry => patternOf (.entry entry)) = patternOf item := by
  cases item with
  | null => rfl
  | other => rfl
  | text text =>
      rw [coerceItem_text, Option.bind_map]
      show _ = normalizeOptionalString (some text)
      cases hnormal : normalizeOptionalString (some text) with
      | none => rfl
      | some pattern =>
          have hagain := normalizeOptionalString_idem (some text)
          rw [hnormal] at hagain
          exact hagain
  | entry entry =>
      rw [coerceItem_entry, Option.bind_map]
      cases hpattern : patternOf (.entry entry) with
      | none => rfl
      | some pattern => exact hpattern

theorem filterMap_patternOf_coerced (items : List (RawItem R)) :
    ((items.filterMap coerceItem).map RawItem.entry).filterMap patternOf = items.filterMap patternOf := by
  rw [List.filterMap_map, List.filterMap_filterMap]
  apply List.filterMap_congr
  intro item _
  exact bind_patternOf_coerceItem item

def RawEntry.Settled (entry : RawEntry R) : Prop :=
  coerceItem (.entry entry) = some entry ∧ entry.hasId = true ∧ entry.withoutCommandText = entry

def RawEntry.completed (entry : RawEntry R) (id : JsString) : RawEntry R :=
  (if entry.hasId then entry else { entry with id := some (.text id) }).withoutCommandText

theorem RawEntry.withoutCommandText_id (entry : RawEntry R) : entry.withoutCommandText.id = entry.id := by
  unfold withoutCommandText
  split <;> rfl

theorem RawEntry.withoutCommandText_pattern (entry : RawEntry R) :
    entry.withoutCommandText.pattern = entry.pattern := by
  unfold withoutCommandText
  split <;> rfl

theorem RawEntry.withoutCommandText_twice (entry : RawEntry R) :
    entry.withoutCommandText.withoutCommandText = entry.withoutCommandText := by
  rcases entry with ⟨id, pattern, commandText, argPattern, rest⟩
  cases commandText with
  | none => rfl
  | some text => cases text <;> rfl

theorem RawEntry.completed_pattern (entry : RawEntry R) (id : JsString) :
    (entry.completed id).pattern = entry.pattern := by
  rw [completed, withoutCommandText_pattern]
  split <;> rfl

theorem completed_eq (newId : ℕ → JsString) (coerced : List (RawEntry R)) :
    stripAllowlistCommandText (ensureAllowlistIds newId coerced) =
      coerced.mapIdx fun i entry => entry.completed (newId i) := by
  rw [stripAllowlistCommandText, ensureAllowlistIds, List.mapIdx_eq_zipIdx_map,
    List.mapIdx_eq_zipIdx_map, List.map_map]
  rfl

theorem filterMap_patternOf_completed (newId : ℕ → JsString) (coerced : List (RawEntry R)) :
    ((coerced.mapIdx fun i entry => entry.completed (newId i)).map RawItem.entry).filterMap patternOf =
      (coerced.map RawItem.entry).filterMap patternOf := by
  induction coerced generalizing newId with
  | nil => rfl
  | cons entry coerced ih =>
      have hrest := ih fun i => newId (i + 1)
      rw [List.mapIdx_cons, List.map_cons, List.map_cons, List.filterMap_cons, List.filterMap_cons,
        patternOf_entry_congr (entry.completed_pattern (newId 0))]
      cases patternOf (.entry entry) with
      | none => exact hrest
      | some pattern => exact congrArg (pattern :: ·) hrest

theorem items_normalizeAgent (newId : ℕ → JsString) (agent : RawAgent R) :
    (normalizeAgent newId agent).items =
      ((agent.items.filterMap coerceItem).mapIdx fun i entry => entry.completed (newId i)).map .entry := by
  rcases agent with ⟨policy, allowlist⟩
  cases allowlist with
  | none => rfl
  | some allowlist =>
      cases allowlist with
      | other iterable => rfl
      | items items =>
          cases items with
          | nil => rfl
          | cons item items =>
              unfold normalizeAgent coerceAllowlistEntries RawAgent.items
              simp only
              by_cases hnothing : (item :: items).filterMap coerceItem = []
              · rw [if_pos hnothing, hnothing]
                rfl
              · rw [if_neg hnothing, Option.map_some, completed_eq]

theorem patterns_normalizeAgent (newId : ℕ → JsString) (agent : RawAgent R) :
    (normalizeAgent newId agent).items.filterMap patternOf = agent.items.filterMap patternOf := by
  rw [items_normalizeAgent, filterMap_patternOf_completed, filterMap_patternOf_coerced]

theorem coerceItem_entry_self {entry : RawEntry R} (h : (patternOf (.entry entry)).isSome = true) :
    coerceItem (.entry entry) = some entry := by
  obtain ⟨pattern, hpattern⟩ := Option.isSome_iff_exists.mp h
  rw [coerceItem_entry, hpattern, Option.map_some]

theorem patternOf_coerced {item : RawItem R} {entry : RawEntry R} (h : coerceItem item = some entry) :
    (patternOf (.entry entry)).isSome = true := by
  have hbind := bind_patternOf_coerceItem item
  rw [h, Option.bind_some] at hbind
  cases item with
  | null => exact nomatch h
  | other => exact nomatch h
  | text text =>
      rw [coerceItem_text, Option.map_eq_some_iff] at h
      obtain ⟨pattern, hpattern, _⟩ := h
      rw [hbind, patternOf, hpattern]
      rfl
  | entry old =>
      rw [coerceItem_entry, Option.map_eq_some_iff] at h
      obtain ⟨pattern, hpattern, _⟩ := h
      rw [hbind, hpattern]
      rfl

theorem RawEntry.settled_completed {entry : RawEntry R} (h : (patternOf (.entry entry)).isSome = true)
    {id : JsString} (hid : id ≠ []) : (entry.completed id).Settled := by
  have hpattern : (patternOf (.entry (entry.completed id))).isSome = true := by
    rw [patternOf_entry_congr (entry.completed_pattern id)]
    exact h
  refine ⟨coerceItem_entry_self hpattern, ?_, ?_⟩
  · rw [hasId, completed, withoutCommandText_id]
    by_cases hhas : entry.hasId = true
    · rw [if_pos hhas]
      exact hhas
    · rw [if_neg hhas]
      show (!id.isEmpty) = true
      rw [List.isEmpty_eq_false_iff.mpr hid]
      rfl
  · rw [completed, withoutCommandText_twice]

theorem RawEntry.Settled.completed_eq {entry : RawEntry R} (h : entry.Settled) (id : JsString) :
    entry.completed id = entry := by
  rw [completed, if_pos h.2.1, h.2.2]

theorem settled_completed_items (ids : ℕ → JsString) (hids : ∀ i, ids i ≠ []) (items : List (RawItem R)) :
    ∀ entry ∈ (items.filterMap coerceItem).mapIdx fun i entry => entry.completed (ids i),
      entry.Settled := by
  intro entry hentry
  obtain ⟨i, hi, heq⟩ := List.mem_mapIdx.mp hentry
  rw [← heq]
  obtain ⟨item, _, hcoerced⟩ := List.mem_filterMap.mp (List.getElem_mem hi)
  exact RawEntry.settled_completed (patternOf_coerced hcoerced) (hids i)

theorem filterMap_coerceItem_settled {entries : List (RawEntry R)} (h : ∀ entry ∈ entries, entry.Settled) :
    (entries.map RawItem.entry).filterMap coerceItem = entries := by
  rw [List.filterMap_map]
  calc entries.filterMap (coerceItem ∘ RawItem.entry)
      = entries.filterMap some := List.filterMap_congr fun entry hentry => (h entry hentry).1
    _ = entries := List.filterMap_some

theorem mapIdx_completed_settled {entries : List (RawEntry R)} (h : ∀ entry ∈ entries, entry.Settled)
    (newId : ℕ → JsString) :
    (entries.mapIdx fun i entry => entry.completed (newId i)) = entries := by
  apply List.ext_getElem List.length_mapIdx
  intro i _ hi
  rw [List.getElem_mapIdx]
  exact (h _ (List.getElem_mem hi)).completed_eq (newId i)

theorem normalizeAllowlist_settled {entries : List (RawEntry R)} (h : ∀ entry ∈ entries, entry.Settled)
    (newId : ℕ → JsString) :
    ((coerceAllowlistEntries (some (.items (entries.map RawItem.entry)))).map fun coerced =>
      RawAllowlist.items ((stripAllowlistCommandText (ensureAllowlistIds newId coerced)).map .entry)) =
      some (.items (entries.map RawItem.entry)) := by
  cases entries with
  | nil => rfl
  | cons entry entries =>
      have hcoerced := filterMap_coerceItem_settled h
      rw [List.map_cons] at hcoerced ⊢
      unfold coerceAllowlistEntries
      simp only
      rw [hcoerced, if_neg (List.cons_ne_nil _ _), Option.map_some, completed_eq,
        mapIdx_completed_settled h]
      rfl

theorem normalizeAgent_twice (ids : ℕ → JsString) (hids : ∀ i, ids i ≠ []) (others : ℕ → JsString)
    (agent : RawAgent R) : normalizeAgent others (normalizeAgent ids agent) = normalizeAgent ids agent := by
  have hallowlist : ∃ entries : List (RawEntry R), (∀ entry ∈ entries, entry.Settled) ∧
      ((normalizeAgent ids agent).allowlist = none ∨
        (normalizeAgent ids agent).allowlist = some (.items (entries.map RawItem.entry))) := by
    refine ⟨_, settled_completed_items ids hids agent.items, ?_⟩
    have hitems := items_normalizeAgent ids agent
    cases hlist : coerceAllowlistEntries agent.allowlist with
    | none =>
        left
        rw [normalizeAgent, hlist]
        rfl
    | some coerced =>
        right
        rw [← hitems, normalizeAgent, hlist]
        rfl
  obtain ⟨entries, hsettled, hallowlist⟩ := hallowlist
  rw [normalizeAgent, RawAgent.mk.injEq]
  constructor
  · exact sanitizeExecApprovalPolicy_twice agent.policy
  · cases hallowlist with
    | inl hnone =>
        rw [hnone]
        rfl
    | inr hsome =>
        rw [hsome]
        exact normalizeAllowlist_settled hsettled others

/-! ### All agents -/

theorem get_normalizeAgents (ids : IdSource) (agents : Map (RawAgent R)) (key : JsString) :
    (normalizeAgents ids agents).get key = (agents.get key).map (normalizeAgent (ids.randomUUID key)) := by
  rcases agents with ⟨entries, distinct⟩
  show Record.get (entries.map fun entry => (entry.1, normalizeAgent (ids.randomUUID entry.1) entry.2)) key =
    (Record.get entries key).map _
  clear distinct
  induction entries with
  | nil => rfl
  | cons entry entries ih =>
      rw [List.map_cons, Record.get_cons, ih]
      rcases entry with ⟨other, agent⟩
      rw [Record.get_cons]
      by_cases hkey : other = key
      · rw [if_pos hkey, if_pos hkey, hkey, Option.map_some]
      · rw [if_neg hkey, if_neg hkey]

theorem normalizeAgents_twice (ids others : IdSource) (agents : Map (RawAgent R)) :
    normalizeAgents others (normalizeAgents ids agents) = normalizeAgents ids agents := by
  unfold normalizeAgents
  rw [Map.mk.injEq, List.map_map]
  apply List.map_congr_left
  intro entry _
  rw [Function.comp_apply]
  exact congrArg (Prod.mk entry.1) (normalizeAgent_twice _ (ids.randomUUID_ne entry.1) _ _)

theorem mergeDefault_get_legacy [UnicodeCase] {agents merged : Map (RawAgent R)}
    (h : mergeDefault agents = some merged) : merged.get legacyKey = none := by
  unfold mergeDefault at h
  cases hdefault : agents.get legacyKey with
  | none =>
      rw [hdefault] at h
      rw [← Option.some.inj h]
      exact hdefault
  | some legacyDefault =>
      rw [hdefault] at h
      simp only at h
      cases hmain : agents.get DEFAULT_AGENT_ID with
      | none =>
          rw [hmain] at h
          rw [← Option.some.inj h, Map.get_delete, if_pos rfl]
      | some main =>
          rw [hmain, Option.map_eq_some_iff] at h
          obtain ⟨agent, _, heq⟩ := h
          rw [← heq, Map.get_delete, if_pos rfl]

theorem normalizeExecApprovals_twice [UnicodeCase] {ids : IdSource} {file out : RawApprovals R}
    (h : normalizeExecApprovals ids file = some out) (others : IdSource) :
    normalizeExecApprovals others out = some out := by
  rw [normalizeExecApprovals, Option.map_eq_some_iff] at h
  obtain ⟨merged, hmerged, hout⟩ := h
  have hnone : (normalizeAgents ids merged).get legacyKey = none := by
    rw [get_normalizeAgents, mergeDefault_get_legacy hmerged, Option.map_none]
  have hagain : mergeDefault (normalizeAgents ids merged) = some (normalizeAgents ids merged) := by
    rw [mergeDefault, hnone]
  rw [← hout, normalizeExecApprovals]
  simp only [Option.getD_some]
  rw [hagain, Option.map_some, normalizeAgents_twice, normalizeOptionalString_idem,
    normalizeOptionalString_idem, sanitizeExecApprovalPolicy_twice]

/-! ### The merge -/

section Merge

variable [UnicodeCase] {items : List (RawItem R)}

theorem pushEntries_isSome (seen : List JsString) :
    (pushEntries seen items).isSome = true ↔ ∀ item ∈ items, mergeKey item ≠ none := by
  induction items generalizing seen with
  | nil => simp [pushEntries]
  | cons item items ih =>
      rw [pushEntries, List.forall_mem_cons]
      cases hkey : mergeKey item with
      | none => simp
      | some key =>
          cases key with
          | none => simp [ih]
          | some key =>
              by_cases hseen : key ∈ seen
              · simp [hseen, ih]
              · simp [hseen, ih]

def FirstNew (seen : List JsString) (items : List (RawItem R)) (item : RawItem R) : Prop :=
  ∃ before after key, items = before ++ item :: after ∧ mergeKey item = some (some key) ∧
    key ∉ seen ∧ ∀ earlier ∈ before, mergeKey earlier ≠ some (some key)

theorem firstNew_cons {seen : List JsString} {head item : RawItem R} :
    FirstNew seen (head :: items) item ↔
      (item = head ∧ ∃ key, mergeKey head = some (some key) ∧ key ∉ seen) ∨
        ∃ before after key, items = before ++ item :: after ∧ mergeKey item = some (some key) ∧
          key ∉ seen ∧ mergeKey head ≠ some (some key) ∧
            ∀ earlier ∈ before, mergeKey earlier ≠ some (some key) := by
  constructor
  · intro h
    obtain ⟨before, after, key, hitems, hkey, hseen, hearlier⟩ := h
    cases before with
    | nil =>
        rw [List.nil_append, List.cons.injEq] at hitems
        rw [hitems.1]
        exact Or.inl ⟨rfl, key, hkey, hseen⟩
    | cons first before =>
        rw [List.cons_append, List.cons.injEq] at hitems
        rw [← hitems.1, List.forall_mem_cons] at hearlier
        exact Or.inr ⟨before, after, key, hitems.2, hkey, hseen, hearlier.1, hearlier.2⟩
  · intro h
    cases h with
    | inl hhead =>
        obtain ⟨heq, key, hkey, hseen⟩ := hhead
        rw [heq]
        exact ⟨[], items, key, rfl, hkey, hseen, fun _ hearlier => absurd hearlier List.not_mem_nil⟩
    | inr hlater =>
        obtain ⟨before, after, key, hitems, hkey, hseen, hhead, hearlier⟩ := hlater
        exact ⟨head :: before, after, key, by rw [hitems, List.cons_append], hkey, hseen,
          List.forall_mem_cons.mpr ⟨hhead, hearlier⟩⟩

theorem mem_pushEntries {seen : List JsString} {kept : List (RawItem R)}
    (h : pushEntries seen items = some kept) (item : RawItem R) :
    item ∈ kept ↔ FirstNew seen items item := by
  induction items generalizing seen kept with
  | nil =>
      rw [pushEntries, Option.some.injEq] at h
      rw [← h]
      apply iff_of_false List.not_mem_nil
      intro hfirst
      obtain ⟨before, after, _, hitems, _⟩ := hfirst
      exact absurd hitems.symm (by simp)
  | cons head items ih =>
      rw [pushEntries] at h
      rw [firstNew_cons]
      cases hkey : mergeKey head with
      | none =>
          rw [hkey] at h
          cases h
      | some headKey =>
          rw [hkey] at h
          cases headKey with
          | none =>
              rw [ih h, FirstNew]
              simp
          | some headKey =>
              simp only at h
              by_cases hseen : headKey ∈ seen
              · rw [if_pos hseen] at h
                rw [ih h, FirstNew]
                have hne : ∀ key, key ∉ seen → headKey ≠ key := fun key hnew heq => hnew (heq ▸ hseen)
                simp only [ne_eq, Option.some.injEq, exists_eq_left', hseen, not_true_eq_false,
                  and_false, false_or]
                constructor
                · intro hfirst
                  obtain ⟨before, after, key, hitems, hitem, hnew, hearlier⟩ := hfirst
                  exact ⟨before, after, key, hitems, hitem, hnew, hne key hnew, hearlier⟩
                · intro hfirst
                  obtain ⟨before, after, key, hitems, hitem, hnew, _, hearlier⟩ := hfirst
                  exact ⟨before, after, key, hitems, hitem, hnew, hearlier⟩
              · rw [if_neg hseen, Option.map_eq_some_iff] at h
                obtain ⟨rest, hrest, heq⟩ := h
                rw [← heq, List.mem_cons, ih hrest, FirstNew]
                simp only [Option.some.injEq, exists_eq_left', hseen, not_false_eq_true, and_true,
                  List.mem_append, List.mem_singleton, not_or, and_assoc, ne_eq, eq_comm]

omit [UnicodeCase] in
theorem items_of_iterated {agent : RawAgent R} (h : iterated agent.allowlist = some items) :
    agent.items = items := by
  rcases agent with ⟨policy, allowlist⟩
  cases allowlist with
  | none => exact Option.some.inj h
  | some allowlist =>
      cases allowlist with
      | items others => exact Option.some.inj h
      | other iterable =>
          cases iterable with
          | true => exact Option.some.inj h
          | false => exact nomatch h

theorem mergeLegacyAgent_items {current legacy merged : RawAgent R}
    (h : mergeLegacyAgent current legacy = some merged) :
    ∃ currentItems legacyItems, iterated current.allowlist = some currentItems ∧
      iterated legacy.allowlist = some legacyItems ∧
        pushEntries [] (currentItems ++ legacyItems) = some merged.items := by
  rw [mergeLegacyAgent, Option.bind_eq_bind, Option.bind_eq_some_iff] at h
  obtain ⟨currentItems, hcurrent, h⟩ := h
  rw [Option.bind_eq_some_iff] at h
  obtain ⟨legacyItems, hlegacy, h⟩ := h
  rw [Option.bind_eq_some_iff] at h
  obtain ⟨kept, hkept, h⟩ := h
  refine ⟨currentItems, legacyItems, hcurrent, hlegacy, ?_⟩
  rw [hkept, ← Option.some.inj h, RawAgent.items]
  simp only
  by_cases hempty : kept = []
  · rw [if_pos hempty, hempty]
  · rw [if_neg hempty]

theorem mergeLegacyAgent_isSome {current legacy : RawAgent R} {currentItems legacyItems : List (RawItem R)}
    (hcurrent : iterated current.allowlist = some currentItems)
    (hlegacy : iterated legacy.allowlist = some legacyItems)
    (hkeys : ∀ item ∈ currentItems ++ legacyItems, mergeKey item ≠ none) :
    (mergeLegacyAgent current legacy).isSome = true := by
  obtain ⟨kept, hkept⟩ := Option.isSome_iff_exists.mp ((pushEntries_isSome []).mpr hkeys)
  rw [mergeLegacyAgent, hcurrent, hlegacy]
  simp only [Option.bind_eq_bind, Option.bind_some]
  rw [hkept]
  rfl

theorem firstOfKey_iff_mem {kept : List (RawItem R)} (h : pushEntries [] items = some kept)
    (item : RawItem R) : FirstOfKey items item ↔ item ∈ kept := by
  rw [mem_pushEntries h, FirstNew, FirstOfKey]
  simp only [List.not_mem_nil, not_false_eq_true, true_and]

theorem mergeKeeps_iff {current legacy : RawAgent R} :
    MergeKeeps current legacy ↔ ∃ merged, mergeLegacyAgent current legacy = some merged ∧
      ∀ pattern ∈ (current.items ++ legacy.items).filterMap patternOf,
        pattern ∈ merged.items.filterMap patternOf := by
  constructor
  · intro h
    obtain ⟨currentItems, legacyItems, hcurrent, hlegacy, hitems⟩ := h
    obtain ⟨merged, hmerged⟩ := Option.isSome_iff_exists.mp
      (mergeLegacyAgent_isSome hcurrent hlegacy fun item hitem => (hitems item hitem).1)
    obtain ⟨currentItems', legacyItems', hcurrent', hlegacy', hpushed⟩ := mergeLegacyAgent_items hmerged
    rw [hcurrent, Option.some.injEq] at hcurrent'
    rw [hlegacy, Option.some.injEq] at hlegacy'
    rw [← hcurrent', ← hlegacy'] at hpushed
    refine ⟨merged, hmerged, ?_⟩
    intro pattern hpattern
    rw [items_of_iterated hcurrent, items_of_iterated hlegacy] at hpattern
    obtain ⟨item, hitem, hof⟩ := List.mem_filterMap.mp hpattern
    obtain ⟨first, hfirst, hof⟩ := (hitems item hitem).2 pattern hof
    exact List.mem_filterMap.mpr ⟨first, (firstOfKey_iff_mem hpushed first).mp hfirst, hof⟩
  · intro h
    obtain ⟨merged, hmerged, hpatterns⟩ := h
    obtain ⟨currentItems, legacyItems, hcurrent, hlegacy, hpushed⟩ := mergeLegacyAgent_items hmerged
    rw [items_of_iterated hcurrent, items_of_iterated hlegacy] at hpatterns
    refine ⟨currentItems, legacyItems, hcurrent, hlegacy, ?_⟩
    intro item hitem
    constructor
    · exact (pushEntries_isSome []).mp (Option.isSome_iff_exists.mpr ⟨_, hpushed⟩) item hitem
    · intro pattern hof
      have hkept := hpatterns pattern (List.mem_filterMap.mpr ⟨item, hitem, hof⟩)
      obtain ⟨first, hfirst, hof⟩ := List.mem_filterMap.mp hkept
      exact ⟨first, (firstOfKey_iff_mem hpushed first).mpr hfirst, hof⟩

end Merge

theorem patterns_of_normalized [UnicodeCase] {ids : IdSource} {file out : RawApprovals R}
    {merged : Map (RawAgent R)} (hmerged : mergeDefault (file.agents.getD Map.empty) = some merged)
    (h : normalizeExecApprovals ids file = some out) (key : JsString) :
    out.patterns key = ((merged.get key).getD {}).items.filterMap patternOf := by
  rw [normalizeExecApprovals, hmerged, Option.map_some, Option.some.injEq] at h
  rw [← h, RawApprovals.patterns]
  simp only [Option.getD_some]
  rw [get_normalizeAgents]
  cases merged.get key with
  | none => rfl
  | some agent => exact patterns_normalizeAgent _ agent

theorem mem_patterns_of_get {file : RawApprovals R} {key : JsString} {agent : RawAgent R}
    (h : (file.agents.getD Map.empty).get key = some agent) {pattern : JsString} :
    pattern ∈ file.patterns key ↔ pattern ∈ agent.items.filterMap patternOf := by
  rw [RawApprovals.patterns, h, Option.getD_some]

theorem patterns_of_get_none {file : RawApprovals R} {key : JsString}
    (h : (file.agents.getD Map.empty).get key = none) : file.patterns key = [] := by
  rw [RawApprovals.patterns, h]
  rfl

/-- Normalising a file loses nothing, unless `default` stands beside `main` and the merge of the two does. -/
theorem normalization_loses_nothing [UnicodeCase] (ids : IdSource) (file : RawApprovals R) :
    (∃ out, LosesNothing ids file out) ↔
      ∀ main legacyDefault, (file.agents.getD Map.empty).get DEFAULT_AGENT_ID = some main →
        (file.agents.getD Map.empty).get legacyKey = some legacyDefault →
          MergeKeeps main legacyDefault := by
  have hmainKey : normalizedKey DEFAULT_AGENT_ID = DEFAULT_AGENT_ID := if_neg (by decide)
  have hlegacyKey : normalizedKey legacyKey = DEFAULT_AGENT_ID := if_pos rfl
  have hkeys : legacyKey ≠ DEFAULT_AGENT_ID := by decide
  have hdone : ∀ merged, mergeDefault (file.agents.getD Map.empty) = some merged →
      (∀ key, ∀ pattern ∈ file.patterns key,
        pattern ∈ ((merged.get (normalizedKey key)).getD {}).items.filterMap patternOf) →
          ∃ out, LosesNothing ids file out := by
    intro merged hmerged hpatterns
    have hout : (normalizeExecApprovals ids file).isSome = true := by
      rw [normalizeExecApprovals, hmerged]
      rfl
    obtain ⟨out, hout⟩ := Option.isSome_iff_exists.mp hout
    refine ⟨out, hout, ?_, normalizeExecApprovals_twice hout⟩
    intro key pattern hpattern
    rw [patterns_of_normalized hmerged hout]
    exact hpatterns key pattern hpattern
  constructor
  · intro hloses main legacyDefault hmain hdefault
    obtain ⟨out, hloses⟩ := hloses
    rw [mergeKeeps_iff]
    have hnormalized := hloses.normalized
    rw [normalizeExecApprovals, Option.map_eq_some_iff] at hnormalized
    obtain ⟨agents, hagents, _⟩ := hnormalized
    have hpatterns := patterns_of_normalized hagents hloses.normalized DEFAULT_AGENT_ID
    rw [mergeDefault, hdefault] at hagents
    simp only at hagents
    rw [hmain, Option.map_eq_some_iff] at hagents
    obtain ⟨merged, hmerge, hagents⟩ := hagents
    refine ⟨merged, hmerge, ?_⟩
    rw [← hagents, Map.get_delete, if_neg hkeys, Map.get_set, if_pos rfl, Option.getD_some] at hpatterns
    intro pattern hpattern
    rw [← hpatterns]
    rw [List.filterMap_append, List.mem_append] at hpattern
    cases hpattern with
    | inl hcurrent =>
        have hkept := hloses.patterns DEFAULT_AGENT_ID pattern ((mem_patterns_of_get hmain).mpr hcurrent)
        rwa [hmainKey] at hkept
    | inr hlegacy =>
        have hkept := hloses.patterns legacyKey pattern ((mem_patterns_of_get hdefault).mpr hlegacy)
        rwa [hlegacyKey] at hkept
  · intro hkeeps
    cases hdefault : (file.agents.getD Map.empty).get legacyKey with
    | none =>
        have hmerged : mergeDefault (file.agents.getD Map.empty) = some (file.agents.getD Map.empty) := by
          rw [mergeDefault, hdefault]
        apply hdone _ hmerged
        intro key pattern hpattern
        by_cases hkey : key = legacyKey
        · rw [hkey, patterns_of_get_none hdefault] at hpattern
          exact absurd hpattern List.not_mem_nil
        · rw [normalizedKey, if_neg hkey]
          exact hpattern
    | some legacyDefault =>
        -- what is left when `main` becomes this agent
        have hsaved : ∀ agent : RawAgent R,
            mergeDefault (file.agents.getD Map.empty) =
              some (((file.agents.getD Map.empty).set DEFAULT_AGENT_ID agent).delete legacyKey) →
            (∀ pattern, pattern ∈ file.patterns DEFAULT_AGENT_ID ∨ pattern ∈ file.patterns legacyKey →
              pattern ∈ agent.items.filterMap patternOf) → ∃ out, LosesNothing ids file out := by
          intro agent hmerged hpatterns
          apply hdone _ hmerged
          intro key pattern hpattern
          by_cases hkey : key = legacyKey
          · rw [hkey, hlegacyKey, Map.get_delete, if_neg hkeys, Map.get_set, if_pos rfl, Option.getD_some]
            exact hpatterns pattern (Or.inr (hkey ▸ hpattern))
          · rw [normalizedKey, if_neg hkey, Map.get_delete, if_neg (Ne.symm hkey), Map.get_set]
            by_cases hmain : DEFAULT_AGENT_ID = key
            · rw [if_pos hmain, Option.getD_some]
              exact hpatterns pattern (Or.inl (hmain ▸ hpattern))
            · rw [if_neg hmain]
              exact hpattern
        cases hmain : (file.agents.getD Map.empty).get DEFAULT_AGENT_ID with
        | none =>
            apply hsaved legacyDefault
            · rw [mergeDefault, hdefault]
              simp only
              rw [hmain]
            · intro pattern hpattern
              rw [patterns_of_get_none hmain, mem_patterns_of_get hdefault] at hpattern
              exact hpattern.resolve_left List.not_mem_nil
        | some main =>
            obtain ⟨merged, hmerge, hpatterns⟩ := mergeKeeps_iff.mp (hkeeps main legacyDefault hmain hdefault)
            apply hsaved merged
            · rw [mergeDefault, hdefault]
              simp only
              rw [hmain]
              simp only
              rw [hmerge, Option.map_some]
            · intro pattern hpattern
              apply hpatterns
              rw [mem_patterns_of_get hmain, mem_patterns_of_get hdefault] at hpattern
              rw [List.filterMap_append, List.mem_append]
              exact hpattern

section Samples

attribute [local instance] asciiCase

def sampleIds : IdSource where
  randomUUID _ _ := js "id"
  randomUUID_ne _ _ := by decide

/-- A text in the list of `main` is lost when there is a `default` beside it. -/
theorem text_entry_lost :
    ¬ ∃ out : RawApprovals Unit, LosesNothing sampleIds
      { agents := some ((Map.empty.set DEFAULT_AGENT_ID
          { allowlist := some (.items [.text (js "ls")]) }).set legacyKey {}) } out := by
  intro h
  obtain ⟨out, hloses⟩ := h
  have hkept := hloses.patterns DEFAULT_AGENT_ID (js "ls") (by decide)
  rw [patterns_of_normalized rfl hloses.normalized] at hkept
  exact absurd hkept (by decide)

end Samples

end GreenchClaw.Exec
