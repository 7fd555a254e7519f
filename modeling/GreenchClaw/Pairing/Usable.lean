import GreenchClaw.Pairing.Effects

/-!
# Tokens that stay usable

A live token is accepted for its own role and scopes as long as its scopes lie inside the
approved baseline of its device.  Ordinary approvals, bootstrap approvals, `ensure` and
`rotate` compute the scopes of a token and the baseline by different formulas; this module
says when the two still fit.
-/

namespace GreenchClaw.Pairing

open GreenchClaw.Js Transition Record

/-! ## Scopes inside a list of scopes -/

def GrantedTo (role scope : JsString) (allowed : List JsString) : Prop :=
  if role = OPERATOR_ROLE then operatorScopeSatisfied scope allowed = true
  else role ++ [unit '.'] <+: scope ∧ scope ∈ allowed

theorem roleScopesAllow_iff {role : JsString} {requested allowed : List JsString}
    (hrole : trim role = role) :
    roleScopesAllow role requested allowed = true ↔
      ∀ scope ∈ trimmedSet requested, GrantedTo role scope (trimmedSet allowed) := by
  rw [roleScopesAllow, hrole]
  simp only [GrantedTo]
  split
  · rename_i hnil
    simp [hnil]
  · rename_i hne
    obtain ⟨first, hfirst⟩ := List.exists_mem_of_ne_nil _ hne
    split
    · rename_i hnone
      constructor
      · intro h
        exact absurd h (by simp)
      · intro h
        have hgranted := h first hfirst
        rw [hnone] at hgranted
        split at hgranted
        · rw [operatorScopeSatisfied_iff] at hgranted
          simp at hgranted
        · simp at hgranted
    · by_cases hoperator : role = OPERATOR_ROLE
      · simp [hoperator]
      · simp [hoperator, List.isPrefixOf_iff_prefix]

theorem GrantedTo.mono {role scope : JsString} {allowed allowed' : List JsString}
    (hsub : ∀ given ∈ allowed, given ∈ allowed') (h : GrantedTo role scope allowed) :
    GrantedTo role scope allowed' := by
  rw [GrantedTo] at h ⊢
  split
  · rename_i hoperator
    rw [if_pos hoperator, operatorScopeSatisfied_iff] at h
    obtain ⟨hscope, given, hgiven, himplies⟩ := h
    exact operatorScopeSatisfied_iff.mpr ⟨hscope, given, hsub given hgiven, himplies⟩
  · rename_i hother
    rw [if_neg hother] at h
    exact ⟨h.1, hsub scope h.2⟩

theorem mem_normalized_other {scopes : List JsString} {scope : JsString}
    (h : scope ∈ normalizeDeviceAuthScopes (some scopes))
    (hother : isOperatorScope scope = false) : scope ∈ trimmedSet scopes := by
  rw [normalizeDeviceAuthScopes, mem_sortStrings, mem_addImplied] at h
  rcases h with hmem | ⟨-, rfl | rfl⟩ | ⟨-, rfl⟩
  · exact hmem
  · exact absurd hother (by decide)
  · exact absurd hother (by decide)
  · exact absurd hother (by decide)

theorem granted_of_normalized {role : JsString} {scopes allowed : List JsString}
    (h : ∀ scope ∈ trimmedSet scopes, GrantedTo role scope allowed) {scope : JsString}
    (hscope : scope ∈ normalizeDeviceAuthScopes (some scopes)) :
    GrantedTo role scope allowed := by
  by_cases hmem : scope ∈ trimmedSet scopes
  · exact h scope hmem
  · -- what is added is implied by an operator scope that was there
    obtain ⟨given, hgiven, himplies⟩ := exists_of_mem_normalizeDeviceAuthScopes hscope
    have hne : given ≠ scope := fun heq => hmem (heq ▸ hgiven)
    have hoperatorScope : isOperatorScope scope = true := by
      by_contra hother
      rw [Bool.not_eq_true] at hother
      exact hmem (mem_normalized_other hscope hother)
    have hgranted := h given hgiven
    rw [GrantedTo] at hgranted ⊢
    split
    · rename_i hoperator
      rw [if_pos hoperator] at hgranted
      exact operatorScopeSatisfied_implied hgranted himplies hoperatorScope
    · rename_i hother
      rw [if_neg hother] at hgranted
      exact absurd (operator_of_prefix_of_implies himplies hne hgranted.1) hother

theorem roleScopesAllow_self {role : JsString} {scopes allowed : List JsString}
    (hrole : trim role = role) (h : roleScopesAllow role scopes allowed = true) :
    roleScopesAllow role (normalizeDeviceAuthScopes (some scopes)) scopes = true := by
  rw [roleScopesAllow_iff hrole] at h ⊢
  intro scope hscope
  apply granted_of_normalized _ (mem_trimmedSet_normalized.mp hscope)
  intro given hgiven
  have hgranted := h given hgiven
  rw [GrantedTo] at hgranted ⊢
  split
  · rename_i hoperator
    rw [if_pos hoperator, operatorScopeSatisfied_iff] at hgranted
    exact operatorScopeSatisfied_of_mem hgranted.1 hgiven
  · rename_i hother
    rw [if_neg hother] at hgranted
    exact ⟨hgranted.1, hgiven⟩

/-! ## Usable tokens -/

structure UsableToken (device : PairedDevice) (role : JsString) (entry : DeviceAuthToken) :
    Prop where
  approved : role ∈ device.approvedRoles
  within : scopesWithinApprovedDeviceBaseline role entry.scopes device = true
  sameRole : entry.role = role
  token : trim entry.token ≠ []

structure UsableDevice (deviceId : JsString) (device : PairedDevice) : Prop where
  trimmed : trim deviceId = deviceId
  deviceId : device.deviceId = deviceId
  tokens : ∀ role entry, device.tokens.get role = some entry → entry.revoked = false →
    UsableToken device role entry

/-- What the operations keep when every approval fits. -/
structure TokensUsable (s : PairingState) : Prop where
  devices : ∀ deviceId device, s.pairedByDeviceId.get deviceId = some device →
    UsableDevice deviceId device
  pending : ∀ entry ∈ s.pendingById, trim entry.2.deviceId = entry.2.deviceId

theorem verify_usable {s : PairingState} {deviceId role : JsString} {device : PairedDevice}
    {entry : DeviceAuthToken} (hdevice : s.pairedByDeviceId.get deviceId = some device)
    (husable : UsableDevice deviceId device) (hentry : device.tokens.get role = some entry)
    (hlive : entry.revoked = false) :
    s.verifyDeviceToken deviceId entry.token role entry.scopes = .ok (device, role, entry) := by
  have htoken := husable.tokens role entry hentry hlive
  have hrole : trim role = role := trim_of_mem_listedRoles htoken.approved
  have hne : role ≠ [] := (mem_listedRoles.mp htoken.approved).1
  have hnormal : normalizeRole (some role) = some role := by
    rw [normalizeRole, hrole, if_neg hne]
  have hself : roleScopesAllow role (normalizeDeviceAuthScopes (some entry.scopes))
      entry.scopes = true := by
    have hwithin := htoken.within
    rw [scopesWithinApprovedDeviceBaseline] at hwithin
    cases hbaseline : device.baseline with
    | none => simp [hbaseline] at hwithin
    | some baseline =>
        rw [hbaseline] at hwithin
        exact roleScopesAllow_self hrole hwithin
  rw [PairingState.verifyDeviceToken, husable.trimmed, hdevice]
  simp only [hnormal, hentry, hlive, htoken.within, hself]
  simp [htoken.token]

/-! ## Approvals that fit -/

def tokensBefore (existing : Option PairedDevice) : Record DeviceAuthToken :=
  (existing.map PairedDevice.tokens).getD []

def mergedBaseline (existing : Option PairedDevice) (pending : PendingRequest) :
    Option (List JsString) :=
  mergeScopes [existing.bind PairedDevice.baseline, pending.scopes]

def gainedScopes (role : JsString) (existing : Option PairedDevice) (pending : PendingRequest) :
    List JsString :=
  if resolveRoleScopedDeviceTokenScopes role pending.scopes ≠ [] then
    requestedScopeDelta role pending ((tokensBefore existing).get role) existing
  else if ((tokensBefore existing).get role).isSome then []
  else resolveRoleScopedDeviceTokenScopes role (mergedBaseline existing pending)

/-- The token that an ordinary approval mints for a role lies inside the new baseline: some
scopes were stated for the device, a revoked token of the role has none outside the baseline,
and the token of a role other than the operator takes none of another role. -/
def ApprovalFits (existing : Option PairedDevice) (pending : PendingRequest) (role : JsString) :
    Prop :=
  (mergedBaseline existing pending).isSome = true ∧
    (∀ entry ∈ (tokensBefore existing).get role, entry.revoked = true →
      roleScopesAllow role entry.scopes
        (normalizeDeviceAuthScopes (mergedBaseline existing pending)) = true) ∧
    (role ≠ OPERATOR_ROLE →
      ∀ scope ∈ gainedScopes role existing pending, role ++ [unit '.'] <+: scope)

def handoffBaseline (existing : Option PairedDevice) (pending : PendingRequest)
    (profile : DeviceBootstrapProfile) : List JsString :=
  let roles := (mergeRoles [profile.roles]).getD []
  resolveBootstrapProfileScopesForRoles roles
    ((mergeScopes [existing.bind PairedDevice.baseline, pending.scopes,
      some (resolveBootstrapProfileScopesForRoles roles profile.scopes)]).getD [])

/-- The handoff scopes still cover the live tokens of the roles that the profile does not
name. -/
def BootstrapFits (existing : Option PairedDevice) (pending : PendingRequest)
    (profile : DeviceBootstrapProfile) : Prop :=
  ∀ entry ∈ tokensBefore existing, entry.2.revoked = false →
    entry.1 ∉ (mergeRoles [profile.roles]).getD [] →
      roleScopesAllow entry.1 entry.2.scopes
        (normalizeDeviceAuthScopes (some (handoffBaseline existing pending profile))) = true

def PairingState.KeepsTokensUsable (s : PairingState) (step : ℤ × PairingOp) : Prop :=
  (∀ token ∈ drawnTokens step.2, trim token ≠ []) ∧
    match step.2 with
    | .approve requestId callerScopes freshTokens =>
        (s.approveDevicePairing step.1 requestId callerScopes freshTokens).2 = .approved →
          ∀ pending ∈ (pruneExpiredPending s.pendingById step.1).get requestId,
            ∀ role ∈ pending.requestedRoles,
              ApprovalFits (s.pairedByDeviceId.get pending.deviceId) pending role
    | .approveBootstrap requestId profile freshTokens =>
        (s.approveBootstrapDevicePairing step.1 requestId profile freshTokens).2 = .approved →
          ∀ pending ∈ (pruneExpiredPending s.pendingById step.1).get requestId,
            BootstrapFits (s.pairedByDeviceId.get pending.deviceId) pending profile
    | _ => True

instance (existing : Option PairedDevice) (pending : PendingRequest) (role : JsString) :
    Decidable (ApprovalFits existing pending role) := by
  unfold ApprovalFits
  infer_instance

instance (existing : Option PairedDevice) (pending : PendingRequest)
    (profile : DeviceBootstrapProfile) : Decidable (BootstrapFits existing pending profile) := by
  unfold BootstrapFits
  infer_instance

instance (s : PairingState) (step : ℤ × PairingOp) : Decidable (s.KeepsTokensUsable step) := by
  unfold PairingState.KeepsTokensUsable
  split <;> infer_instance

/-! ## What an ordinary approval mints -/

theorem mem_resolveRoleScoped_other {role : JsString} {scopes : Option (List JsString)}
    {scope : JsString} (hother : role ≠ OPERATOR_ROLE) :
    scope ∈ resolveRoleScopedDeviceTokenScopes role scopes ↔
      scope ∈ normalizeDeviceAuthScopes scopes ∧ isOperatorScope scope = false := by
  rw [resolveRoleScopedDeviceTokenScopes, if_neg hother, List.mem_filter]
  simp

theorem mem_normalized_of_resolveRoleScoped {role scope : JsString}
    {scopes : Option (List JsString)}
    (h : scope ∈ resolveRoleScopedDeviceTokenScopes role scopes) :
    scope ∈ normalizeDeviceAuthScopes scopes := by
  by_cases hoperator : role = OPERATOR_ROLE
  · rw [hoperator] at h
    exact (mem_resolveRoleScoped_operator.mp h).1
  · exact ((mem_resolveRoleScoped_other hoperator).mp h).1

theorem mem_mergedBaseline {existing : Option PairedDevice} {pending : PendingRequest}
    {scope : JsString} (h : scope ∈ trimmedSet (pending.scopes.getD [])) :
    scope ∈ normalizeDeviceAuthScopes (mergedBaseline existing pending) := by
  apply mem_normalizeDeviceAuthScopes_of_mem
  apply mem_trimmedSet_self _ (mem_trimmedSet.mp h).1 (trim_of_mem_trimmedSet h)
  rw [mergedBaseline, mem_mergeScopes]
  exact ⟨pending.scopes, by simp, h⟩

theorem granted_requested {existing : Option PairedDevice} {pending : PendingRequest}
    {role scope : JsString}
    (hscope : scope ∈ resolveRoleScopedDeviceTokenScopes role pending.scopes)
    (hown : role ≠ OPERATOR_ROLE → role ++ [unit '.'] <+: scope) :
    GrantedTo role scope (normalizeDeviceAuthScopes (mergedBaseline existing pending)) := by
  rw [GrantedTo]
  split
  · rename_i hoperator
    rw [hoperator] at hscope
    obtain ⟨hmem, hscopeOperator⟩ := mem_resolveRoleScoped_operator.mp hscope
    obtain ⟨given, hgiven, himplies⟩ := exists_implies_of_mem_normalized hmem
    have hgranted : given ∈ normalizeDeviceAuthScopes (mergedBaseline existing pending) :=
      mem_mergedBaseline hgiven
    exact operatorScopeSatisfied_iff.mpr ⟨hscopeOperator, given, hgranted, himplies⟩
  · rename_i hother
    obtain ⟨hmem, hscopeOther⟩ := (mem_resolveRoleScoped_other hother).mp hscope
    refine ⟨hown hother, ?_⟩
    cases hscopes : pending.scopes with
    | none => simp [hscopes, normalizeDeviceAuthScopes] at hmem
    | some scopes =>
        rw [hscopes] at hmem
        apply mem_mergedBaseline
        rw [hscopes]
        exact mem_normalized_other hmem hscopeOther

theorem granted_baseline {existing : Option PairedDevice} {pending : PendingRequest}
    {role scope : JsString}
    (hscope : scope ∈ resolveRoleScopedDeviceTokenScopes role (mergedBaseline existing pending))
    (hown : role ≠ OPERATOR_ROLE → role ++ [unit '.'] <+: scope) :
    GrantedTo role scope (normalizeDeviceAuthScopes (mergedBaseline existing pending)) := by
  rw [GrantedTo]
  split
  · rename_i hoperator
    rw [hoperator] at hscope
    obtain ⟨hmem, hscopeOperator⟩ := mem_resolveRoleScoped_operator.mp hscope
    exact operatorScopeSatisfied_of_mem hscopeOperator hmem
  · rename_i hother
    exact ⟨hown hother, ((mem_resolveRoleScoped_other hother).mp hscope).1⟩

theorem roleScopesAllow_normalized {role : JsString} {requested : List JsString}
    {allowed : Option (List JsString)} (hrole : trim role = role) :
    roleScopesAllow role requested (normalizeDeviceAuthScopes allowed) = true ↔
      ∀ scope ∈ trimmedSet requested,
        GrantedTo role scope (normalizeDeviceAuthScopes allowed) := by
  rw [roleScopesAllow_iff hrole]
  constructor
  · intro h scope hscope
    exact (h scope hscope).mono fun _ => mem_trimmedSet_normalized.mp
  · intro h scope hscope
    exact (h scope hscope).mono fun _ => mem_trimmedSet_normalized.mpr

theorem granted_approvedTokenScopes {existing : Option PairedDevice} {pending : PendingRequest}
    {role scope : JsString} (hrole : trim role = role)
    (hfits : ApprovalFits existing pending role)
    (hkept : ∀ entry ∈ (tokensBefore existing).get role,
      roleScopesAllow role entry.scopes
        (normalizeDeviceAuthScopes (mergedBaseline existing pending)) = true)
    (h : scope ∈ resolveApprovedTokenScopes role pending ((tokensBefore existing).get role)
      (mergedBaseline existing pending) existing) :
    GrantedTo role scope (normalizeDeviceAuthScopes (mergedBaseline existing pending)) := by
  obtain ⟨hstated, -, hown⟩ := hfits
  rw [gainedScopes] at hown
  have hentry (entry : DeviceAuthToken) (hget : (tokensBefore existing).get role = some entry) :
      ∀ given ∈ trimmedSet entry.scopes,
        GrantedTo role given (normalizeDeviceAuthScopes (mergedBaseline existing pending)) :=
    (roleScopesAllow_normalized hrole).mp (hkept entry hget)
  have hold (hmem : scope ∈ resolveRoleScopedDeviceTokenScopes role
      (((tokensBefore existing).get role).map DeviceAuthToken.scopes)) :
      GrantedTo role scope (normalizeDeviceAuthScopes (mergedBaseline existing pending)) := by
    have hnormal := mem_normalized_of_resolveRoleScoped hmem
    cases hget : (tokensBefore existing).get role with
    | none => simp [hget, normalizeDeviceAuthScopes] at hnormal
    | some entry =>
        rw [hget] at hnormal
        exact granted_of_normalized (hentry entry hget) hnormal
  rw [resolveApprovedTokenScopes] at h
  by_cases hrequested : resolveRoleScopedDeviceTokenScopes role pending.scopes = []
  · -- the request names no scope for the role
    rw [if_neg (by simp [hrequested])] at h
    cases hget : (tokensBefore existing).get role with
    | some entry =>
        rw [hget] at h hold
        exact hold h
    | none =>
        obtain ⟨merged, hmerged⟩ := Option.isSome_iff_exists.mp hstated
        rw [hget, hmerged] at h
        rw [hget, if_neg (by simp [hrequested])] at hown
        simp only [Option.isSome_none, Bool.false_eq_true, ↓reduceIte] at hown
        apply granted_baseline (hmerged ▸ h)
        intro hother
        exact hown hother scope (hmerged ▸ h)
  · rw [if_pos hrequested] at h
    rw [if_pos hrequested] at hown
    simp only at h
    split at h
    · exact hold h
    · have hsome : (mergeScopes [((tokensBefore existing).get role).map DeviceAuthToken.scopes,
          some (requestedScopeDelta role pending ((tokensBefore existing).get role)
            existing)]).isSome = true := mergeScopes_isSome (by simp)
      obtain ⟨merged, hmerged⟩ := Option.isSome_iff_exists.mp hsome
      have hnormal := mem_normalized_of_resolveRoleScoped h
      rw [hmerged] at hnormal
      apply granted_of_normalized _ hnormal
      intro given hgiven
      have hmem : given ∈ trimmedSet ((mergeScopes
          [((tokensBefore existing).get role).map DeviceAuthToken.scopes,
            some (requestedScopeDelta role pending ((tokensBefore existing).get role)
              existing)]).getD []) := by
        rw [hmerged]
        exact hgiven
      obtain ⟨item, hitem, hmem⟩ := mem_trimmedSet_mergeScopes hmem
      simp only [List.mem_cons, List.not_mem_nil, or_false] at hitem
      rcases hitem with rfl | rfl
      · cases hget : (tokensBefore existing).get role with
        | none => simp [hget, trimmedSet] at hmem
        | some entry =>
            rw [hget] at hmem
            exact hentry entry hget given hmem
      · -- a scope of the delta is one of the request
        obtain ⟨-, text, htext, htrim⟩ := mem_trimmedSet.mp hmem
        have hpending : text ∈ resolveRoleScopedDeviceTokenScopes role pending.scopes := by
          rw [requestedScopeDelta] at htext
          split at htext
          · exact List.mem_of_mem_filter htext
          · exact htext
        have htrimmed := mem_trimmedSet_normalized.mpr
          (mem_normalized_of_resolveRoleScoped hpending)
        rw [trim_of_mem_trimmedSet htrimmed] at htrim
        rw [← htrim]
        apply granted_requested hpending
        intro hother
        exact hown hother text htext

/-! ## Storing an approved device -/

theorem get_setTokens {tokens : Record DeviceAuthToken}
    {minted : List (JsString × DeviceAuthToken)} {role : JsString} {entry : DeviceAuthToken}
    (h : (setTokens tokens minted).get role = some entry) :
    (role, entry) ∈ minted ∨ tokens.get role = some entry ∧ role ∉ minted.map Prod.fst := by
  induction minted generalizing tokens with
  | nil => exact Or.inr ⟨h, by simp⟩
  | cons first rest ih =>
      rw [setTokens] at h
      rcases ih h with hrest | ⟨hget, hnot⟩
      · exact Or.inl (List.mem_cons_of_mem first hrest)
      · by_cases hfirst : role = first.1
        · rw [hfirst, get_set_self] at hget
          have hentry := Option.some.inj hget
          rw [hfirst, ← hentry]
          exact Or.inl List.mem_cons_self
        · rw [get_set_other _ _ hfirst] at hget
          refine Or.inr ⟨hget, ?_⟩
          rw [List.map_cons, List.mem_cons, not_or]
          exact ⟨hfirst, hnot⟩

theorem entry_mintTokens {roles freshTokens : List JsString}
    {scopesOf : JsString → List JsString} {tokens : Record DeviceAuthToken} {now : ℤ}
    {entry : JsString × DeviceAuthToken}
    (h : entry ∈ mintTokens roles freshTokens scopesOf tokens now) :
    entry.1 ∈ roles ∧ entry.2.role = entry.1 ∧ entry.2.scopes = scopesOf entry.1 ∧
      entry.2.token ∈ freshTokens := by
  obtain ⟨pair, hpair, rfl⟩ := List.mem_map.mp h
  exact ⟨(List.of_mem_zip hpair).1, rfl, rfl, (List.of_mem_zip hpair).2⟩

theorem mem_mintTokens_roles {roles freshTokens : List JsString}
    {scopesOf : JsString → List JsString} {tokens : Record DeviceAuthToken} {now : ℤ}
    (hlength : roles.length ≤ freshTokens.length) :
    (mintTokens roles freshTokens scopesOf tokens now).map Prod.fst = roles := by
  rw [mintTokens, List.map_map]
  have hfst : (Prod.fst ∘ fun pair : JsString × JsString =>
      (pair.1, buildDeviceAuthToken pair.2 pair.1 (scopesOf pair.1) (tokens.get pair.1) now
        ((tokens.get pair.1).map fun _ => now))) = Prod.fst := rfl
  calc
    _ = (roles.zip freshTokens).map Prod.fst := by rw [← hfst]
    _ = roles := List.map_fst_zip hlength

theorem tokensUsable_storeApproved {s : PairingState} (hs : TokensUsable s) {now : ℤ}
    {requestId : JsString} {existing : Option PairedDevice} {device : PairedDevice}
    {approval : Approval} {minted : List (JsString × DeviceAuthToken)}
    (htrim : trim device.deviceId = device.deviceId)
    (htokens : ∀ role entry,
      (setTokens (tokensBefore existing) minted).get role = some entry →
        entry.revoked = false → UsableToken device role entry) :
    TokensUsable (s.storeApproved now requestId existing device approval minted) := by
  constructor
  · intro deviceId stored hget
    by_cases hid : deviceId = device.deviceId
    · rw [hid, PairingState.storeApproved, get_set_self] at hget
      rw [← Option.some.inj hget, hid]
      refine ⟨htrim, rfl, ?_⟩
      intro role entry hentry hlive
      have husable := htokens role entry hentry hlive
      exact ⟨husable.approved, husable.within, husable.sameRole, husable.token⟩
    · rw [PairingState.storeApproved, get_set_other _ _ hid] at hget
      exact hs.devices deviceId stored hget
  · intro entry hentry
    exact hs.pending entry (mem_prune (mem_delete.mp hentry).1)

theorem tokensBefore_usable {s : PairingState} (hs : TokensUsable s) {deviceId role : JsString}
    {entry : DeviceAuthToken}
    (hget : (tokensBefore (s.pairedByDeviceId.get deviceId)).get role = some entry)
    (hlive : entry.revoked = false) :
    ∃ device, s.pairedByDeviceId.get deviceId = some device ∧ UsableToken device role entry := by
  cases hdevice : s.pairedByDeviceId.get deviceId with
  | none =>
      rw [hdevice] at hget
      exact absurd hget (by simp [tokensBefore, Record.get])
  | some device =>
      rw [hdevice] at hget
      exact ⟨device, rfl, (hs.devices deviceId device hdevice).tokens role entry hget hlive⟩

theorem normalizeDeviceAuthScopes_mono {scopes scopes' : List JsString}
    (hsub : ∀ given ∈ trimmedSet scopes, given ∈ trimmedSet scopes') {scope : JsString}
    (h : scope ∈ normalizeDeviceAuthScopes (some scopes)) :
    scope ∈ normalizeDeviceAuthScopes (some scopes') := by
  rw [normalizeDeviceAuthScopes, mem_sortStrings, mem_addImplied] at h ⊢
  rcases h with hmem | ⟨hadmin, hscope⟩ | ⟨hwrite, hscope⟩
  · exact Or.inl (hsub scope hmem)
  · exact Or.inr (Or.inl ⟨hsub _ hadmin, hscope⟩)
  · exact Or.inr (Or.inr ⟨hsub _ hwrite, hscope⟩)

theorem within_mergedBaseline {device : PairedDevice} (pending : PendingRequest)
    {role : JsString} {scopes : List JsString} (hrole : trim role = role)
    (hwithin : scopesWithinApprovedDeviceBaseline role scopes device = true) :
    roleScopesAllow role scopes
      (normalizeDeviceAuthScopes (mergedBaseline (some device) pending)) = true := by
  rw [scopesWithinApprovedDeviceBaseline] at hwithin
  cases hbaseline : device.baseline with
  | none => simp [hbaseline] at hwithin
  | some baseline =>
      rw [hbaseline] at hwithin
      have hsome : (mergedBaseline (some device) pending).isSome = true :=
        mergeScopes_isSome (by simp [hbaseline])
      obtain ⟨merged, hmerged⟩ := Option.isSome_iff_exists.mp hsome
      have hsub : ∀ given ∈ trimmedSet baseline, given ∈ trimmedSet merged := by
        intro given hgiven
        apply mem_trimmedSet_self _ (mem_trimmedSet.mp hgiven).1 (trim_of_mem_trimmedSet hgiven)
        have hmem : given ∈ (mergedBaseline (some device) pending).getD [] := by
          rw [mergedBaseline, mem_mergeScopes]
          refine ⟨some baseline, ?_, hgiven⟩
          simp [hbaseline]
        rw [hmerged] at hmem
        exact hmem
      rw [hmerged]
      rw [roleScopesAllow_normalized hrole] at hwithin ⊢
      intro scope hscope
      exact (hwithin scope hscope).mono fun _ => normalizeDeviceAuthScopes_mono hsub

theorem within_of_baseline {device : PairedDevice} {role : JsString} {scopes : List JsString}
    (hstated : device.baseline.isSome = true)
    (h : roleScopesAllow role scopes (normalizeDeviceAuthScopes device.baseline) = true) :
    scopesWithinApprovedDeviceBaseline role scopes device = true := by
  obtain ⟨baseline, hbaseline⟩ := Option.isSome_iff_exists.mp hstated
  rw [hbaseline] at h
  rw [scopesWithinApprovedDeviceBaseline, hbaseline]
  exact h

theorem mem_listedRoles_of_merged {items : List (List JsString)} {role : Option JsString}
    {named : JsString} (h : named ∈ trimmedSet items.flatten) :
    named ∈ listedRoles (mergeRoles items) role :=
  mem_listedRoles_of_roles (mem_trimmedSet.mp h).1 (mem_mergeRoles.mpr h)
    (trim_of_mem_trimmedSet h)

theorem mem_merged_of_listed {items : List (List JsString)} {roles : Option (List JsString)}
    {role : Option JsString} {named : JsString} (h : named ∈ listedRoles roles role)
    (hroles : roles.getD [] ∈ items) (hrole : role.toList ∈ items) :
    named ∈ trimmedSet items.flatten := by
  obtain ⟨hne, text, htext, htrim⟩ := mem_listedRoles.mp h
  refine mem_trimmedSet.mpr ⟨hne, text, ?_, htrim⟩
  rw [List.mem_flatten]
  rcases htext with htext | htext
  · exact ⟨roles.getD [], hroles, htext⟩
  · exact ⟨role.toList, hrole, by simpa using htext⟩

theorem approvedTokenScopes_scoped (role : JsString) (pending : PendingRequest)
    (existingToken : Option DeviceAuthToken) (approvedScopes : Option (List JsString))
    (existing : Option PairedDevice) :
    ∃ scopes, resolveApprovedTokenScopes role pending existingToken approvedScopes existing =
      resolveRoleScopedDeviceTokenScopes role scopes := by
  rw [resolveApprovedTokenScopes]
  split
  · simp only
    split
    · exact ⟨_, rfl⟩
    · exact ⟨_, rfl⟩
  · exact ⟨_, rfl⟩

variable {s : PairingState} {now : ℤ}

theorem approve_usable (hs : TokensUsable s) (requestId : JsString)
    (callerScopes : Option (List JsString)) (freshTokens : List JsString)
    (hblank : ∀ token ∈ freshTokens, trim token ≠ [])
    (hfits : (s.approveDevicePairing now requestId callerScopes freshTokens).2 = .approved →
      ∀ pending ∈ (pruneExpiredPending s.pendingById now).get requestId,
        ∀ role ∈ pending.requestedRoles,
          ApprovalFits (s.pairedByDeviceId.get pending.deviceId) pending role) :
    TokensUsable (s.approveDevicePairing now requestId callerScopes freshTokens).1 := by
  unfold PairingState.approveDevicePairing at hfits ⊢
  cases hget : (pruneExpiredPending s.pendingById now).get requestId with
  | none => exact hs
  | some pending =>
      simp only [hget] at hfits ⊢
      cases hroles : resolveScopeOutsideRequestedRoles pending.requestedRoles
          (normalizeDeviceAuthScopes pending.scopes) with
      | some scope => exact hs
      | none =>
          simp only [hroles] at hfits ⊢
          split
          · exact hs
          · rename_i hdenied
            simp only [hdenied] at hfits
            have hfits := hfits trivial pending rfl
            apply tokensUsable_storeApproved hs
            · exact hs.pending _ (mem_prune (mem_of_get hget))
            · intro role entry hentry hlive
              rcases get_setTokens hentry with hminted | ⟨hold, -⟩
              · obtain ⟨hrole, hsame, hscopes, htoken⟩ := entry_mintTokens hminted
                have htrim : trim role = role := trim_of_mem_listedRoles hrole
                have hfit := hfits role hrole
                have hkept : ∀ old ∈ (tokensBefore
                    (s.pairedByDeviceId.get pending.deviceId)).get role,
                    roleScopesAllow role old.scopes (normalizeDeviceAuthScopes
                      (mergedBaseline (s.pairedByDeviceId.get pending.deviceId) pending)) =
                        true := by
                  intro old hold
                  cases hrevoked : old.revoked with
                  | true => exact hfit.2.1 old hold hrevoked
                  | false =>
                      obtain ⟨device, hdevice, husable⟩ := tokensBefore_usable hs hold hrevoked
                      rw [hdevice]
                      exact within_mergedBaseline pending htrim husable.within
                refine ⟨?_, ?_, hsame, hblank _ htoken⟩
                · apply mem_listedRoles_of_merged
                  exact mem_merged_of_listed hrole (by simp) (by simp)
                · apply within_of_baseline
                  · rw [baseline_of_eq rfl]
                    exact hfit.1
                  · rw [baseline_of_eq rfl]
                    refine (roleScopesAllow_normalized htrim).mpr ?_
                    intro scope hscope
                    obtain ⟨-, text, htext, hscopeTrim⟩ := mem_trimmedSet.mp hscope
                    rw [hscopes] at htext
                    have hgranted := granted_approvedTokenScopes htrim hfit hkept htext
                    obtain ⟨given, hgiven⟩ := approvedTokenScopes_scoped role pending
                      ((tokensBefore (s.pairedByDeviceId.get pending.deviceId)).get role)
                      (mergedBaseline (s.pairedByDeviceId.get pending.deviceId) pending)
                      (s.pairedByDeviceId.get pending.deviceId)
                    have hnormal := mem_normalized_of_resolveRoleScoped (hgiven ▸ htext)
                    rw [trim_of_mem_trimmedSet (mem_trimmedSet_normalized.mpr hnormal)]
                      at hscopeTrim
                    exact hscopeTrim ▸ hgranted
              · obtain ⟨device, hdevice, husable⟩ := tokensBefore_usable hs hold hlive
                have htrim : trim role = role := trim_of_mem_listedRoles husable.approved
                have hallow := within_mergedBaseline pending htrim husable.within
                rw [hdevice]
                refine ⟨?_, ?_, husable.sameRole, husable.token⟩
                · apply mem_listedRoles_of_merged
                  exact mem_merged_of_listed husable.approved (by simp) (by simp)
                · apply within_of_baseline
                  · rw [baseline_of_eq rfl]
                    apply mergeScopes_isSome
                    have hwithin := husable.within
                    rw [scopesWithinApprovedDeviceBaseline] at hwithin
                    cases hbaseline : device.baseline with
                    | none => simp [hbaseline] at hwithin
                    | some baseline => simp [hbaseline]
                  · rw [baseline_of_eq rfl]
                    exact hallow

theorem granted_bootstrapTokenScopes {roles scopes merged : List JsString} {scope : JsString}
    (hroles : OPERATOR_ROLE ∈ roles)
    (hsub : ∀ given ∈ trimmedSet scopes, given ∈ trimmedSet merged)
    (hscope : scope ∈ resolveBootstrapProfileScopesForRole OPERATOR_ROLE scopes) :
    GrantedTo OPERATOR_ROLE scope (resolveBootstrapProfileScopesForRoles roles merged) := by
  have hname : trim OPERATOR_ROLE = OPERATOR_ROLE := by decide
  rw [resolveBootstrapProfileScopesForRole, if_pos hname, List.mem_filter] at hscope
  have hoperator : isOperatorScope scope = true := by
    have hhandoff : ∀ handed ∈ BOOTSTRAP_HANDOFF_OPERATOR_SCOPES,
        isOperatorScope handed = true := List.all_eq_true.mp (by decide)
    exact hhandoff scope (List.contains_iff_mem.mp hscope.2)
  have hmerged : scope ∈ resolveBootstrapProfileScopesForRole OPERATOR_ROLE merged := by
    rw [resolveBootstrapProfileScopesForRole, if_pos hname, List.mem_filter]
    exact ⟨normalizeDeviceAuthScopes_mono hsub hscope.1, hscope.2⟩
  have htrimmed := mem_trimmedSet_normalized.mpr hscope.1
  have hmem : scope ∈ resolveBootstrapProfileScopesForRoles roles merged := by
    apply mem_normalizeDeviceAuthScopes_of_trimmed
    apply mem_trimmedSet_self _ (mem_trimmedSet.mp htrimmed).1 (trim_of_mem_trimmedSet htrimmed)
    exact List.mem_flatMap.mpr ⟨OPERATOR_ROLE, hroles, hmerged⟩
  rw [GrantedTo, if_pos rfl]
  exact operatorScopeSatisfied_of_mem hoperator hmem

theorem bootstrap_usable (hs : TokensUsable s) (requestId : JsString)
    (profile : DeviceBootstrapProfile) (freshTokens : List JsString)
    (hblank : ∀ token ∈ freshTokens, trim token ≠ [])
    (hlength : ((mergeRoles [profile.roles]).getD []).length ≤ freshTokens.length)
    (hfits : (s.approveBootstrapDevicePairing now requestId profile freshTokens).2 = .approved →
      ∀ pending ∈ (pruneExpiredPending s.pendingById now).get requestId,
        BootstrapFits (s.pairedByDeviceId.get pending.deviceId) pending profile) :
    TokensUsable (s.approveBootstrapDevicePairing now requestId profile freshTokens).1 := by
  unfold PairingState.approveBootstrapDevicePairing at hfits ⊢
  cases hget : (pruneExpiredPending s.pendingById now).get requestId with
  | none => exact hs
  | some pending =>
      simp only [hget] at hfits ⊢
      split
      · exact hs
      · rename_i hroles
        simp only [hroles] at hfits
        split
        · exact hs
        · rename_i hmissing
          simp only [hmissing] at hfits
          have hfits := hfits trivial pending rfl
          apply tokensUsable_storeApproved hs
          · exact hs.pending _ (mem_prune (mem_of_get hget))
          · intro role entry hentry hlive
            have hbaseline (scopes : List JsString)
                (hallow : roleScopesAllow role scopes (normalizeDeviceAuthScopes
                  (some (handoffBaseline (s.pairedByDeviceId.get pending.deviceId) pending
                    profile))) = true) (device : PairedDevice)
                (hdevice : device.baseline = some (handoffBaseline
                  (s.pairedByDeviceId.get pending.deviceId) pending profile)) :
                scopesWithinApprovedDeviceBaseline role scopes device = true := by
              apply within_of_baseline
              · rw [hdevice]
                rfl
              · rw [hdevice]
                exact hallow
            rcases get_setTokens hentry with hminted | ⟨hold, hnot⟩
            · obtain ⟨hrole, hsame, hscopes, htoken⟩ := entry_mintTokens hminted
              have hmember := mem_mergeRoles.mp hrole
              have htrim : trim role = role := trim_of_mem_trimmedSet hmember
              refine ⟨?_, hbaseline _ ?_ _ rfl, hsame, hblank _ htoken⟩
              · apply mem_listedRoles_of_merged
                obtain ⟨hne, text, htext, htextTrim⟩ := mem_trimmedSet.mp hmember
                refine mem_trimmedSet.mpr ⟨hne, role, ?_, htrim⟩
                simp only [List.flatten_cons, List.mem_append]
                exact Or.inr (Or.inr (Or.inr (Or.inr (Or.inl hrole))))
              · refine (roleScopesAllow_normalized htrim).mpr ?_
                intro scope hscope
                obtain ⟨-, text, htext, hscopeTrim⟩ := mem_trimmedSet.mp hscope
                rw [hscopes] at htext
                simp only at htext
                split at htext
                · rename_i hoperator
                  have hoperator : role = OPERATOR_ROLE := hoperator
                  subst hoperator
                  have htextTrim : trim text = text := by
                    have hmem := htext
                    rw [resolveBootstrapProfileScopesForRole, if_pos htrim, List.mem_filter]
                      at hmem
                    exact trim_of_mem_trimmedSet (mem_trimmedSet_normalized.mpr hmem.1)
                  rw [htextTrim] at hscopeTrim
                  subst hscopeTrim
                  have hgranted : GrantedTo OPERATOR_ROLE text (handoffBaseline
                      (s.pairedByDeviceId.get pending.deviceId) pending profile) := by
                    rw [handoffBaseline]
                    apply granted_bootstrapTokenScopes hrole _ htext
                    intro given hgiven
                    apply mem_trimmedSet_self _ (mem_trimmedSet.mp hgiven).1
                      (trim_of_mem_trimmedSet hgiven)
                    rw [mem_mergeScopes]
                    refine ⟨some (resolveBootstrapProfileScopesForRoles
                      ((mergeRoles [profile.roles]).getD []) profile.scopes), ?_, hgiven⟩
                    simp
                  apply hgranted.mono
                  intro given hgiven
                  rw [handoffBaseline] at hgiven ⊢
                  apply mem_normalizeDeviceAuthScopes_of_trimmed
                  exact mem_trimmedSet_normalized.mpr hgiven
                · simp at htext
            · obtain ⟨device, hdevice, husable⟩ := tokensBefore_usable hs hold hlive
              have hother : role ∉ (mergeRoles [profile.roles]).getD [] := by
                rw [mem_mintTokens_roles hlength] at hnot
                exact hnot
              have hallow := hfits (role, entry) (mem_of_get hold) hlive hother
              refine ⟨?_, hbaseline _ hallow _ rfl, husable.sameRole, husable.token⟩
              apply mem_listedRoles_of_merged
              rw [hdevice]
              exact mem_merged_of_listed husable.approved (by simp) (by simp)

/-! ## The other operations -/

theorem tokensUsable_putToken (hs : TokensUsable s) {deviceId : JsString} (role : JsString)
    {device : PairedDevice} (entry : DeviceAuthToken)
    (hdevice : s.pairedByDeviceId.get deviceId = some device)
    (hentry : entry.revoked = false → UsableToken device role entry) :
    TokensUsable (s.putToken device role entry) := by
  have husable := hs.devices deviceId device hdevice
  constructor
  · intro id stored hget
    rw [PairingState.putToken, husable.deviceId] at hget
    by_cases hid : id = deviceId
    · rw [hid, get_set_self] at hget
      rw [← Option.some.inj hget, hid]
      refine ⟨husable.trimmed, rfl, ?_⟩
      intro other found hfound hlive
      by_cases hrole : other = role
      · rw [hrole, get_set_self] at hfound
        rw [← Option.some.inj hfound] at hlive ⊢
        rw [hrole]
        have hnew := hentry hlive
        exact ⟨hnew.approved, hnew.within, hnew.sameRole, hnew.token⟩
      · rw [get_set_other _ _ hrole] at hfound
        have hold := husable.tokens other found hfound hlive
        exact ⟨hold.approved, hold.within, hold.sameRole, hold.token⟩
    · rw [get_set_other _ _ hid] at hget
      exact hs.devices id stored hget
  · exact hs.pending

theorem tokensUsable_forgetDevice (hs : TokensUsable s) (deviceId : JsString)
    (device : PairedDevice) {pendingById : Record PendingRequest}
    (hpending : ∀ entry ∈ pendingById, entry ∈ s.pendingById) :
    TokensUsable { s.forgetDevice deviceId device with pendingById := pendingById } := by
  constructor
  · intro id stored hget
    by_cases hid : id = deviceId
    · rw [hid] at hget
      exact absurd hget (by simp [PairingState.forgetDevice, get_delete_self])
    · have hkept : s.pairedByDeviceId.get id = some stored := by
        rw [← get_delete_other _ hid]
        exact hget
      exact hs.devices id stored hkept
  · intro entry hentry
    exact hs.pending entry (hpending entry hentry)

theorem ensure_usable (hs : TokensUsable s) (deviceId role : JsString) (scopes : List JsString)
    {freshToken : JsString} (hblank : trim freshToken ≠ []) :
    TokensUsable (s.ensureDeviceToken now deviceId role scopes freshToken).1 := by
  rw [PairingState.ensureDeviceToken]
  cases hcontext : s.tokenUpdateContext deviceId role with
  | none => exact hs
  | some context =>
      obtain ⟨hdevice, hrole⟩ := tokenUpdateContext_eq_some hcontext
      simp only
      split
      · exact hs
      · rename_i hwithin
        rw [Bool.not_eq_true', Bool.not_eq_false] at hwithin
        split
        · exact hs
        · have hput := tokensUsable_putToken hs context.2
            (buildDeviceAuthToken freshToken context.2
              (normalizeDeviceAuthScopes (some scopes)) (context.1.tokens.get context.2) now
              ((context.1.tokens.get context.2).map fun _ => now))
            hdevice fun _ => ⟨hrole, hwithin, rfl, hblank⟩
          exact ⟨hput.devices, hput.pending⟩

theorem rotate_usable (hs : TokensUsable s) (deviceId role : JsString)
    (scopes callerScopes : Option (List JsString)) {freshToken : JsString}
    (hblank : trim freshToken ≠ []) :
    TokensUsable (s.rotateDeviceToken now deviceId role scopes callerScopes freshToken).1 := by
  rw [PairingState.rotateDeviceToken]
  cases hcontext : s.tokenUpdateContext deviceId role with
  | none => exact hs
  | some context =>
      obtain ⟨hdevice, hrole⟩ := tokenUpdateContext_eq_some hcontext
      simp only
      split
      · exact hs
      · split
        · exact hs
        · rename_i hwithin
          rw [Bool.not_eq_true', Bool.not_eq_false] at hwithin
          split
          · exact hs
          · have hput := tokensUsable_putToken hs context.2
              (buildDeviceAuthToken freshToken context.2
                (normalizeDeviceAuthScopes
                  (scopes <|> (context.1.tokens.get context.2).map DeviceAuthToken.scopes <|>
                    context.1.scopes))
                (context.1.tokens.get context.2) now (some now))
              hdevice fun _ => ⟨hrole, hwithin, rfl, hblank⟩
            exact ⟨hput.devices, hput.pending⟩

theorem revoke_usable (hs : TokensUsable s) (hnow : 0 < now) (deviceId role : JsString)
    (callerScopes : Option (List JsString)) :
    TokensUsable (s.revokeDeviceToken now deviceId role callerScopes).1 := by
  rw [PairingState.revokeDeviceToken]
  cases hcontext : s.tokenUpdateContext deviceId role with
  | none => exact hs
  | some context =>
      obtain ⟨hdevice, -⟩ := tokenUpdateContext_eq_some hcontext
      simp only
      cases hentry : context.1.tokens.get context.2 with
      | none => exact hs
      | some entry =>
          simp only
          split
          · exact hs
          · have hrevoked : DeviceAuthToken.revoked { entry with revokedAtMs := some now } =
                true := by
              have hne : now ≠ 0 := by omega
              simp [DeviceAuthToken.revoked, hne]
            have hput := tokensUsable_putToken hs context.2
              { entry with revokedAtMs := some now } hdevice
              fun hlive => absurd hlive (by rw [hrevoked]; decide)
            exact ⟨hput.devices, hput.pending⟩

theorem noteTokenUse_usable (hs : TokensUsable s) (deviceId token role : JsString)
    (scopes : List JsString) : TokensUsable (s.noteTokenUse now deviceId token role scopes) := by
  rw [PairingState.noteTokenUse]
  cases hverify : s.verifyDeviceToken deviceId token role scopes with
  | error _ => exact hs
  | ok accepted =>
      have haccepted := accepted_of_verify hverify
      apply tokensUsable_putToken hs _ _ haccepted.storedDevice
      intro hlive
      have husable := (hs.devices _ _ haccepted.storedDevice).tokens _ _ haccepted.storedEntry
        haccepted.live
      exact ⟨husable.approved, husable.within, husable.sameRole, husable.token⟩

theorem trim_reconcile {existing : List PendingRequest} {deviceId : JsString}
    (hid : ∀ old ∈ existing, trim old.deviceId = old.deviceId)
    (htrim : trim deviceId = deviceId) (req : PairingRequest) (requestId : JsString)
    (isRepair : Bool) (now : ℤ) :
    trim (reconcile existing req requestId deviceId isRepair now).1.deviceId =
      (reconcile existing req requestId deviceId isRepair now).1.deviceId := by
  unfold reconcile
  simp only
  split
  · rename_i single
    split
    · exact hid single List.mem_cons_self
    · exact htrim
  · exact htrim

theorem request_usable (hs : TokensUsable s) (requestId : JsString) (req : PairingRequest) :
    TokensUsable (s.requestDevicePairing now requestId req) := by
  rw [PairingState.requestDevicePairing]
  simp only
  split
  · exact hs
  · refine ⟨hs.devices, ?_⟩
    generalize hexisting : List.mergeSort _ _ = existing
    have hid : ∀ old ∈ existing, trim old.deviceId = old.deviceId := by
      intro old hold
      rw [← hexisting, List.mem_mergeSort, List.mem_filter] at hold
      have hname : old.deviceId = trim req.deviceId := by simpa using hold.2
      rw [hname, trim_trim]
    have hrequest := trim_reconcile hid (trim_trim req.deviceId) req requestId
      (s.pairedByDeviceId.get (trim req.deviceId)).isSome now
    intro entry hentry
    simp only at hentry
    split at hentry
    · rcases mem_set hentry with hnew | ⟨hkept, -⟩
      · rw [hnew]
        exact hrequest
      · exact hs.pending entry (mem_prune (mem_of_foldl_delete hkept))
    · rcases mem_set hentry with hnew | ⟨hkept, -⟩
      · rw [hnew]
        exact hrequest
      · exact hs.pending entry (mem_prune hkept)

theorem reject_usable (hs : TokensUsable s) (requestId : JsString) :
    TokensUsable (s.rejectDevicePairing now requestId) := by
  rw [PairingState.rejectDevicePairing]
  split
  · exact hs
  · refine ⟨hs.devices, ?_⟩
    intro entry hentry
    exact hs.pending entry (mem_prune (mem_delete.mp hentry).1)

theorem remove_usable (hs : TokensUsable s) (deviceId : JsString) :
    TokensUsable (s.removePairedDevice now deviceId) := by
  rw [PairingState.removePairedDevice]
  split
  · exact hs
  · split
    · exact hs
    · apply tokensUsable_forgetDevice hs
      intro entry hentry
      exact mem_prune (List.mem_of_mem_filter hentry)

theorem clear_usable (hs : TokensUsable s) (deviceId : JsString) :
    TokensUsable (s.clearDevicePairing deviceId) := by
  rw [PairingState.clearDevicePairing]
  split
  · exact hs
  · exact tokensUsable_forgetDevice hs _ _ fun _ hentry => hentry

/-! ## Runs -/

theorem step_usable {step : ℤ × PairingOp} {next : PairingState} (hs : TokensUsable s)
    (hkeeps : s.KeepsTokensUsable step) (hstep : pairingStep s step = some next) :
    TokensUsable next := by
  rw [pairingStep] at hstep
  split at hstep
  · rename_i hdraws
    obtain ⟨now, op⟩ := step
    rw [← Option.some.inj hstep]
    cases op with
    | request requestId req => exact request_usable hs requestId req
    | approve requestId callerScopes freshTokens =>
        exact approve_usable hs requestId callerScopes freshTokens hkeeps.1 hkeeps.2
    | approveBootstrap requestId profile freshTokens =>
        exact bootstrap_usable hs requestId profile freshTokens hkeeps.1 hdraws.2.2.2.2 hkeeps.2
    | reject requestId => exact reject_usable hs requestId
    | remove deviceId => exact remove_usable hs deviceId
    | clear deviceId => exact clear_usable hs deviceId
    | ensure deviceId role scopes freshToken =>
        exact ensure_usable hs deviceId role scopes (hkeeps.1 freshToken (by simp
          [PairingState.drawnTokens]))
    | rotate deviceId role scopes callerScopes freshToken =>
        exact rotate_usable hs deviceId role scopes callerScopes (hkeeps.1 freshToken (by simp
          [PairingState.drawnTokens]))
    | revoke deviceId role callerScopes =>
        exact revoke_usable hs hdraws.1 deviceId role callerScopes
    | verify deviceId token role scopes => exact noteTokenUse_usable hs deviceId token role scopes
  · exact absurd hstep (by simp)

theorem tokensUsable_empty : TokensUsable {} := by
  constructor
  · intro deviceId device hget
    exact absurd hget (by simp [Record.get])
  · intro entry hentry
    exact absurd hentry (by simp)

def handoffSteps : List (ℤ × PairingOp) :=
  [(1, .request (js "first")
      { deviceId := js "phone", publicKey := js "key", role := some (js "node"),
        scopes := some [js "node.exec"] }),
    (2, .approve (js "first") (some []) [js "nodeToken"]),
    (3, .request (js "second")
      { deviceId := js "phone", publicKey := js "key", role := some (js "node"),
        scopes := some [] }),
    (4, .approveBootstrap (js "second")
      { roles := [js "node", OPERATOR_ROLE], scopes := [OPERATOR_READ_SCOPE] }
      [js "nodeToken2", js "operatorToken"])]

def PairingState.deniesOwnToken (s : PairingState) (deviceId role : JsString) : Bool :=
  (s.pairedByDeviceId.get deviceId).any fun device =>
    (device.tokens.get role).any fun entry =>
      !entry.revoked &&
        match s.verifyDeviceToken deviceId entry.token role entry.scopes with
        | .ok _ => false
        | .error reason => decide (reason = .scopeMismatch)

def twoRoleSteps : List (ℤ × PairingOp) :=
  [(1, .request (js "first")
      { deviceId := js "phone", publicKey := js "key",
        roles := some [js "node", js "camera"],
        scopes := some [js "node.exec"] }),
    (2, .approve (js "first") (some []) [js "nodeToken", js "cameraToken"])]

def nodeHandoffSteps : List (ℤ × PairingOp) :=
  [(1, .request (js "first")
      { deviceId := js "laptop", publicKey := js "key", role := some OPERATOR_ROLE,
        scopes := some [OPERATOR_READ_SCOPE] }),
    (2, .approve (js "first") (some [OPERATOR_READ_SCOPE]) [js "operatorToken"]),
    (3, .request (js "second")
      { deviceId := js "laptop", publicKey := js "key", role := some (js "node"),
        scopes := some [] }),
    (4, .approveBootstrap (js "second") { roles := [js "node"], scopes := [] }
      [js "nodeToken"])]

end GreenchClaw.Pairing
