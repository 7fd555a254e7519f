import GreenchClaw.Js.Text
import Mathlib.Data.List.Infix
import Mathlib.Data.List.Sort

/-!
# Roles and scopes of paired devices

`src/shared/operator-scope-compat.ts`, `src/shared/device-auth.ts` and the bootstrap profile: when
a scope is granted by a list of scopes.  Lists of scopes are sets of trimmed strings in the order
of their insertion.
-/

namespace GreenchClaw.Pairing

open GreenchClaw.Js

def OPERATOR_ROLE : JsString := js "operator"

def OPERATOR_SCOPE_PREFIX : JsString := js "operator."

def OPERATOR_ADMIN_SCOPE : JsString := js "operator.admin"

def OPERATOR_READ_SCOPE : JsString := js "operator.read"

def OPERATOR_WRITE_SCOPE : JsString := js "operator.write"

/-! ## Sets of trimmed strings -/

/-- `Set.add` of the trimmed text, unless nothing is left of it. -/
def addTrimmed (out : List JsString) (text : JsString) : List JsString :=
  if trim text = [] ∨ trim text ∈ out then out else out ++ [trim text]

/-- `normalizeScopeList`. -/
def trimmedSet (texts : List JsString) : List JsString := texts.foldl addTrimmed []

theorem mem_foldl_addTrimmed {texts out : List JsString} {s : JsString} :
    s ∈ texts.foldl addTrimmed out ↔ s ∈ out ∨ s ≠ [] ∧ ∃ text ∈ texts, trim text = s := by
  induction texts generalizing out with
  | nil => simp
  | cons text rest ih =>
      rw [List.foldl_cons, ih, addTrimmed]
      split
      · rename_i hskip
        simp only [List.mem_cons, exists_eq_or_imp]
        constructor
        · rintro (hout | ⟨hne, hrest⟩)
          · exact Or.inl hout
          · exact Or.inr ⟨hne, Or.inr hrest⟩
        · rintro (hout | ⟨hne, htext | hrest⟩)
          · exact Or.inl hout
          · rw [htext] at hskip
            exact Or.inl (hskip.resolve_left hne)
          · exact Or.inr ⟨hne, hrest⟩
      · rename_i hadd
        simp only [not_or] at hadd
        simp only [List.mem_append, List.mem_cons, List.not_mem_nil, or_false, exists_eq_or_imp]
        constructor
        · rintro ((hout | htext) | ⟨hne, hrest⟩)
          · exact Or.inl hout
          · rw [htext]
            exact Or.inr ⟨hadd.1, Or.inl rfl⟩
          · exact Or.inr ⟨hne, Or.inr hrest⟩
        · rintro (hout | ⟨hne, htext | hrest⟩)
          · exact Or.inl (Or.inl hout)
          · exact Or.inl (Or.inr htext.symm)
          · exact Or.inr ⟨hne, hrest⟩

theorem mem_trimmedSet {texts : List JsString} {s : JsString} :
    s ∈ trimmedSet texts ↔ s ≠ [] ∧ ∃ text ∈ texts, trim text = s := by
  rw [trimmedSet, mem_foldl_addTrimmed]
  simp

theorem trim_of_mem_trimmedSet {texts : List JsString} {s : JsString} (h : s ∈ trimmedSet texts) :
    trim s = s := by
  obtain ⟨-, text, -, rfl⟩ := mem_trimmedSet.mp h
  exact trim_trim text

theorem mem_trimmedSet_self {texts : List JsString} {s : JsString} (hs : s ∈ texts)
    (hne : s ≠ []) (htrim : trim s = s) : s ∈ trimmedSet texts :=
  mem_trimmedSet.mpr ⟨hne, s, hs, htrim⟩

theorem mem_trimmedSet_flatten {items : List (List JsString)} {s : JsString} :
    s ∈ trimmedSet items.flatten ↔ ∃ item ∈ items, s ∈ trimmedSet item := by
  simp only [mem_trimmedSet, List.mem_flatten]
  constructor
  · rintro ⟨hne, text, ⟨item, hitem, htext⟩, htrim⟩
    exact ⟨item, hitem, hne, text, htext, htrim⟩
  · rintro ⟨item, hitem, hne, text, htext, htrim⟩
    exact ⟨hne, text, ⟨item, hitem, htext⟩, htrim⟩

def mergeRoles (items : List (List JsString)) : Option (List JsString) :=
  if trimmedSet items.flatten = [] then none else some (trimmedSet items.flatten)

theorem mem_mergeRoles {items : List (List JsString)} {role : JsString} :
    role ∈ (mergeRoles items).getD [] ↔ role ∈ trimmedSet items.flatten := by
  rw [mergeRoles]
  split
  · rename_i hnil
    simp [hnil]
  · rfl

def mergeScopes (items : List (Option (List JsString))) : Option (List JsString) :=
  let scopes := trimmedSet (items.map fun item => item.getD []).flatten
  if scopes = [] then (if items.any Option.isSome then some [] else none) else some scopes

theorem mem_mergeScopes {items : List (Option (List JsString))} {scope : JsString} :
    scope ∈ (mergeScopes items).getD [] ↔ ∃ item ∈ items, scope ∈ trimmedSet (item.getD []) := by
  have hitems : (∃ item ∈ items, scope ∈ trimmedSet (item.getD [])) ↔
      scope ∈ trimmedSet (items.map fun item => item.getD []).flatten := by
    rw [mem_trimmedSet_flatten]
    simp
  rw [hitems, mergeScopes]
  split
  · rename_i hnil
    rw [hnil]
    split <;> simp
  · rfl

theorem mem_trimmedSet_mergeScopes {items : List (Option (List JsString))} {scope : JsString}
    (h : scope ∈ trimmedSet ((mergeScopes items).getD [])) :
    ∃ item ∈ items, scope ∈ trimmedSet (item.getD []) := by
  obtain ⟨-, text, htext, htrim⟩ := mem_trimmedSet.mp h
  obtain ⟨item, hitem, hmem⟩ := mem_mergeScopes.mp htext
  rw [trim_of_mem_trimmedSet hmem] at htrim
  exact ⟨item, hitem, htrim ▸ hmem⟩

theorem mergeScopes_isSome {items : List (Option (List JsString))}
    (h : items.any Option.isSome = true) : (mergeScopes items).isSome = true := by
  rw [mergeScopes]
  simp only [h, ↓reduceIte]
  split <;> rfl

/-! ## Granted scopes -/

/-- `scope.startsWith("operator.")`. -/
def isOperatorScope (scope : JsString) : Bool := OPERATOR_SCOPE_PREFIX.isPrefixOf scope

def operatorScopeSatisfied (requestedScope : JsString) (granted : List JsString) : Bool :=
  if !isOperatorScope requestedScope then false
  else if granted.contains OPERATOR_ADMIN_SCOPE then true
  else if requestedScope = OPERATOR_READ_SCOPE then
    granted.contains OPERATOR_READ_SCOPE || granted.contains OPERATOR_WRITE_SCOPE
  else if requestedScope = OPERATOR_WRITE_SCOPE then granted.contains OPERATOR_WRITE_SCOPE
  else granted.contains requestedScope

def roleScopesAllow (role : JsString) (requestedScopes allowedScopes : List JsString) : Bool :=
  let requested := trimmedSet requestedScopes
  let allowed := trimmedSet allowedScopes
  if requested = [] then true
  else if allowed = [] then false
  else if trim role ≠ OPERATOR_ROLE then
    requested.all fun scope =>
      (trim role ++ [unit '.']).isPrefixOf scope && allowed.contains scope
  else requested.all fun scope => operatorScopeSatisfied scope allowed

def resolveMissingRequestedScope (role : JsString) (requestedScopes allowedScopes : List JsString) :
    Option JsString :=
  requestedScopes.find? fun scope => !roleScopesAllow role [scope] allowedScopes

def resolveScopeOutsideRequestedRoles (requestedRoles requestedScopes : List JsString) :
    Option JsString :=
  requestedScopes.find? fun scope =>
    !requestedRoles.any fun role => roleScopesAllow role [scope] [scope]

def ScopeImplies (granted scope : JsString) : Prop :=
  granted = OPERATOR_ADMIN_SCOPE ∨ granted = scope ∨
    granted = OPERATOR_WRITE_SCOPE ∧ scope = OPERATOR_READ_SCOPE

theorem ScopeImplies.trans {a b c : JsString} (hab : ScopeImplies a b) (hbc : ScopeImplies b c) :
    ScopeImplies a c := by
  rcases hab with hadmin | rfl | ⟨ha, hb⟩
  · exact Or.inl hadmin
  · exact hbc
  · rcases hbc with hadmin | rfl | ⟨hwrite, -⟩
    · rw [hb] at hadmin
      exact absurd hadmin (by decide)
    · exact Or.inr (Or.inr ⟨ha, hb⟩)
    · rw [hb] at hwrite
      exact absurd hwrite (by decide)

theorem ScopeImplies.isOperatorScope {granted scope : JsString} (h : ScopeImplies granted scope)
    (hscope : isOperatorScope scope = true) : Pairing.isOperatorScope granted = true := by
  rcases h with rfl | rfl | ⟨rfl, -⟩
  · decide
  · exact hscope
  · decide

theorem operatorScopeSatisfied_iff {scope : JsString} {granted : List JsString} :
    operatorScopeSatisfied scope granted = true ↔
      isOperatorScope scope = true ∧ ∃ given ∈ granted, ScopeImplies given scope := by
  cases hoperator : isOperatorScope scope with
  | false => simp [operatorScopeSatisfied, hoperator]
  | true =>
      rw [operatorScopeSatisfied, hoperator]
      simp only [Bool.not_true, Bool.false_eq_true, ↓reduceIte, true_and]
      split
      · rename_i hadmin
        simp only [true_iff]
        exact ⟨OPERATOR_ADMIN_SCOPE, List.contains_iff_mem.mp hadmin, Or.inl rfl⟩
      · rename_i hadmin
        have hnotAdmin : OPERATOR_ADMIN_SCOPE ∉ granted := by simpa using hadmin
        have himplied : (∃ given ∈ granted, ScopeImplies given scope) ↔
            scope ∈ granted ∨ OPERATOR_WRITE_SCOPE ∈ granted ∧ scope = OPERATOR_READ_SCOPE := by
          constructor
          · rintro ⟨given, hgiven, rfl | rfl | ⟨rfl, hread⟩⟩
            · exact absurd hgiven hnotAdmin
            · exact Or.inl hgiven
            · exact Or.inr ⟨hgiven, hread⟩
          · rintro (hscope | ⟨hwrite, hread⟩)
            · exact ⟨scope, hscope, Or.inr (Or.inl rfl)⟩
            · exact ⟨OPERATOR_WRITE_SCOPE, hwrite, Or.inr (Or.inr ⟨rfl, hread⟩)⟩
        rw [himplied]
        split
        · rename_i hread
          simp [hread]
        · rename_i hread
          split
          · rename_i hwrite
            have hne : OPERATOR_WRITE_SCOPE ≠ OPERATOR_READ_SCOPE := by decide
            simp [hwrite, hne]
          · simp [hread]

theorem operatorScopeSatisfied_of_mem {scope : JsString} {granted : List JsString}
    (hscope : isOperatorScope scope = true) (hmem : scope ∈ granted) :
    operatorScopeSatisfied scope granted = true :=
  operatorScopeSatisfied_iff.mpr ⟨hscope, scope, hmem, Or.inr (Or.inl rfl)⟩

theorem operatorScopeSatisfied_implied {scope implied : JsString} {granted : List JsString}
    (h : operatorScopeSatisfied scope granted = true) (himplies : ScopeImplies scope implied)
    (himplied : isOperatorScope implied = true) :
    operatorScopeSatisfied implied granted = true := by
  obtain ⟨-, given, hgiven, hscope⟩ := operatorScopeSatisfied_iff.mp h
  exact operatorScopeSatisfied_iff.mpr ⟨himplied, given, hgiven, hscope.trans himplies⟩

theorem operatorScopeSatisfied_trans {scope : JsString} {middle granted : List JsString}
    (hmiddle : ∀ given ∈ middle, isOperatorScope given = true →
      operatorScopeSatisfied given granted = true)
    (h : operatorScopeSatisfied scope middle = true) :
    operatorScopeSatisfied scope granted = true := by
  obtain ⟨hscope, given, hgiven, himplies⟩ := operatorScopeSatisfied_iff.mp h
  have hsatisfied := hmiddle given hgiven (himplies.isOperatorScope hscope)
  exact operatorScopeSatisfied_implied hsatisfied himplies hscope

theorem roleScopesAllow_operator {requested allowed : List JsString}
    (h : roleScopesAllow OPERATOR_ROLE requested allowed = true) {scope : JsString}
    (hscope : scope ∈ trimmedSet requested) :
    operatorScopeSatisfied scope (trimmedSet allowed) = true := by
  rw [roleScopesAllow] at h
  split at h
  · rename_i hnil
    simp [hnil] at hscope
  · split at h
    · exact absurd h (by simp)
    · split at h
      · rename_i hrole
        exact absurd (by decide) hrole
      · exact List.all_eq_true.mp h scope hscope

theorem roleScopesAllow_other {role : JsString} {requested allowed : List JsString}
    (hrole : trim role ≠ OPERATOR_ROLE) (h : roleScopesAllow role requested allowed = true)
    {scope : JsString} (hscope : scope ∈ trimmedSet requested) :
    trim role ++ [unit '.'] <+: scope := by
  rw [roleScopesAllow] at h
  split at h
  · rename_i hnil
    simp [hnil] at hscope
  · split at h
    · exact absurd h (by simp)
    · have hboth := List.all_eq_true.mp h scope hscope
      simp only [Bool.and_eq_true] at hboth
      exact List.isPrefixOf_iff_prefix.mp hboth.1

theorem missing_eq_none {role : JsString} {requested allowed : List JsString}
    (h : resolveMissingRequestedScope role requested allowed = none) {scope : JsString}
    (hscope : scope ∈ requested) : roleScopesAllow role [scope] allowed = true := by
  have hnone := List.find?_eq_none.mp h scope hscope
  simpa using hnone

/-! ## Normalised scopes -/

/-- The scopes that `normalizeDeviceAuthScopes` adds. -/
def addImplied (out : List JsString) : List JsString :=
  if OPERATOR_ADMIN_SCOPE ∈ out then
    addTrimmed (addTrimmed out OPERATOR_READ_SCOPE) OPERATOR_WRITE_SCOPE
  else if OPERATOR_WRITE_SCOPE ∈ out then addTrimmed out OPERATOR_READ_SCOPE
  else out

def sortStrings (texts : List JsString) : List JsString :=
  texts.mergeSort fun a b => !decide (b < a)

def normalizeDeviceAuthScopes (scopes : Option (List JsString)) : List JsString :=
  match scopes with
  | none => []
  | some scopes => sortStrings (addImplied (trimmedSet scopes))

theorem mem_sortStrings {texts : List JsString} {s : JsString} :
    s ∈ sortStrings texts ↔ s ∈ texts := List.mem_mergeSort

theorem mem_addTrimmed {out : List JsString} {text s : JsString} (htext : trim text = text)
    (hne : text ≠ []) : s ∈ addTrimmed out text ↔ s ∈ out ∨ s = text := by
  rw [addTrimmed, htext]
  split
  · rename_i hskip
    have hmem : text ∈ out := hskip.resolve_left hne
    constructor
    · exact Or.inl
    · rintro (hout | rfl)
      · exact hout
      · exact hmem
  · simp

theorem mem_addImplied {out : List JsString} {s : JsString} :
    s ∈ addImplied out ↔
      s ∈ out ∨ OPERATOR_ADMIN_SCOPE ∈ out ∧ (s = OPERATOR_READ_SCOPE ∨ s = OPERATOR_WRITE_SCOPE) ∨
        OPERATOR_WRITE_SCOPE ∈ out ∧ s = OPERATOR_READ_SCOPE := by
  have hread : trim OPERATOR_READ_SCOPE = OPERATOR_READ_SCOPE := by decide
  have hwrite : trim OPERATOR_WRITE_SCOPE = OPERATOR_WRITE_SCOPE := by decide
  rw [addImplied]
  split
  · rename_i hadmin
    rw [mem_addTrimmed hwrite (by decide), mem_addTrimmed hread (by decide)]
    grind
  · split
    · rw [mem_addTrimmed hread (by decide)]
      grind
    · grind

theorem mem_normalizeDeviceAuthScopes_of_trimmed {scopes : List JsString} {s : JsString}
    (h : s ∈ trimmedSet scopes) : s ∈ normalizeDeviceAuthScopes (some scopes) := by
  rw [normalizeDeviceAuthScopes, mem_sortStrings, mem_addImplied]
  exact Or.inl h

theorem exists_of_mem_normalizeDeviceAuthScopes {scopes : List JsString} {s : JsString}
    (h : s ∈ normalizeDeviceAuthScopes (some scopes)) :
    ∃ given ∈ trimmedSet scopes, ScopeImplies given s := by
  rw [normalizeDeviceAuthScopes, mem_sortStrings, mem_addImplied] at h
  rcases h with hmem | ⟨hadmin, -⟩ | ⟨hwrite, hread⟩
  · exact ⟨s, hmem, Or.inr (Or.inl rfl)⟩
  · exact ⟨OPERATOR_ADMIN_SCOPE, hadmin, Or.inl rfl⟩
  · exact ⟨OPERATOR_WRITE_SCOPE, hwrite, Or.inr (Or.inr ⟨rfl, hread⟩)⟩

theorem mem_trimmedSet_normalized {scopes : Option (List JsString)} {s : JsString} :
    s ∈ trimmedSet (normalizeDeviceAuthScopes scopes) ↔ s ∈ normalizeDeviceAuthScopes scopes := by
  have htrimmed : ∀ text ∈ normalizeDeviceAuthScopes scopes, trim text = text ∧ text ≠ [] := by
    intro text htext
    cases scopes with
    | none => simp [normalizeDeviceAuthScopes] at htext
    | some scopes =>
        rw [normalizeDeviceAuthScopes, mem_sortStrings, mem_addImplied] at htext
        rcases htext with hmem | ⟨-, rfl | rfl⟩ | ⟨-, rfl⟩
        · exact ⟨trim_of_mem_trimmedSet hmem, (mem_trimmedSet.mp hmem).1⟩
        · exact ⟨by decide, by decide⟩
        · exact ⟨by decide, by decide⟩
        · exact ⟨by decide, by decide⟩
  constructor
  · intro h
    obtain ⟨-, text, htext, rfl⟩ := mem_trimmedSet.mp h
    rw [(htrimmed text htext).1]
    exact htext
  · intro h
    exact mem_trimmedSet_self h (htrimmed s h).2 (htrimmed s h).1

/-! ## Bootstrap profiles -/

structure DeviceBootstrapProfile where
  roles : List JsString
  scopes : List JsString
  deriving DecidableEq

def BOOTSTRAP_HANDOFF_OPERATOR_SCOPES : List JsString :=
  [js "operator.approvals", OPERATOR_READ_SCOPE, js "operator.talk.secrets", OPERATOR_WRITE_SCOPE]

def resolveBootstrapProfileScopesForRole (role : JsString) (scopes : List JsString) :
    List JsString :=
  if trim role = OPERATOR_ROLE then
    (normalizeDeviceAuthScopes (some scopes)).filter BOOTSTRAP_HANDOFF_OPERATOR_SCOPES.contains
  else
    []

def resolveBootstrapProfileScopesForRoles (roles scopes : List JsString) : List JsString :=
  normalizeDeviceAuthScopes
    (some (roles.flatMap fun role => resolveBootstrapProfileScopesForRole role scopes))

theorem operatorScopeSatisfied_normalized {scope : JsString} {scopes : Option (List JsString)} :
    operatorScopeSatisfied scope (trimmedSet (normalizeDeviceAuthScopes scopes)) = true ↔
      operatorScopeSatisfied scope (normalizeDeviceAuthScopes scopes) = true := by
  rw [operatorScopeSatisfied_iff, operatorScopeSatisfied_iff]
  simp only [mem_trimmedSet_normalized]

theorem exists_of_mem_bootstrapScopes {roles scopes : List JsString} {scope : JsString}
    (h : scope ∈ resolveBootstrapProfileScopesForRoles roles scopes) :
    (∃ role ∈ roles, trim role = OPERATOR_ROLE) ∧
      ∃ given ∈ trimmedSet scopes, ScopeImplies given scope := by
  obtain ⟨handed, hhanded, himplies⟩ := exists_of_mem_normalizeDeviceAuthScopes h
  obtain ⟨-, text, htext, htrim⟩ := mem_trimmedSet.mp hhanded
  obtain ⟨role, hrole, hmem⟩ := List.mem_flatMap.mp htext
  rw [resolveBootstrapProfileScopesForRole] at hmem
  split at hmem
  · rename_i hoperator
    obtain ⟨hnormalized, -⟩ := List.mem_filter.mp hmem
    have hself := trim_of_mem_trimmedSet (mem_trimmedSet_normalized.mpr hnormalized)
    rw [hself] at htrim
    rw [htrim] at hnormalized
    obtain ⟨given, hgiven, hhands⟩ := exists_of_mem_normalizeDeviceAuthScopes hnormalized
    exact ⟨⟨role, hrole, hoperator⟩, given, hgiven, hhands.trans himplies⟩
  · simp at hmem

end GreenchClaw.Pairing
