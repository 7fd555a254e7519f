import GreenchClaw.Pairing.DevicePairing

/-!
# What a pairing operation can do

Every operation leaves the state alone, changes the pending requests, stores an approved device,
forgets a device, or changes one token of a device.  Each way comes with the facts that the
operation has checked.
-/

namespace GreenchClaw.Pairing

open GreenchClaw.Js

def Approval.names (approval : Approval) (role : JsString) : Prop :=
  role ∈ approval.roles ∨
    match approval.approver with
    | .caller _ => False
    | .bootstrap profile => role ∈ (mergeRoles [profile.roles]).getD []

def Approval.covers (approval : Approval) (scope : JsString) : Prop :=
  match approval.approver with
  | .caller callerScopes =>
      operatorScopeSatisfied scope approval.scopes = true ∧
        ∃ allowed, callerScopes = some allowed ∧
          operatorScopeSatisfied scope (trimmedSet allowed) = true
  | .bootstrap profile =>
      operatorScopeSatisfied scope
        (resolveBootstrapProfileScopesForRoles ((mergeRoles [profile.roles]).getD [])
          profile.scopes) = true

theorem Approval.covers_implied {approval : Approval} {scope implied : JsString}
    (h : approval.covers scope) (himplies : ScopeImplies scope implied)
    (himplied : isOperatorScope implied = true) : approval.covers implied := by
  cases approval with
  | mk deviceId roles scopes approver =>
      cases approver with
      | caller callerScopes =>
          obtain ⟨hscopes, allowed, hallowed, hcaller⟩ := h
          have hsatisfied := operatorScopeSatisfied_implied hcaller himplies himplied
          exact ⟨operatorScopeSatisfied_implied hscopes himplies himplied, allowed, hallowed,
            hsatisfied⟩
      | bootstrap profile => exact operatorScopeSatisfied_implied h himplies himplied

def Approval.shadows (approval : Approval) (scope : JsString) : Prop :=
  ∃ role, approval.names role ∧ role ≠ OPERATOR_ROLE ∧ role ++ [unit '.'] <+: scope

def Approval.vouches (approval : Approval) (scope : JsString) : Prop :=
  approval.names OPERATOR_ROLE ∧ approval.covers scope ∨ approval.shadows scope

theorem operator_of_prefix_of_implies {granted scope role : JsString}
    (himplies : ScopeImplies granted scope) (hne : granted ≠ scope)
    (hrole : role ++ [unit '.'] <+: granted) : role = OPERATOR_ROLE := by
  have hparts : ∀ part ∈ OPERATOR_ADMIN_SCOPE.inits ++ OPERATOR_WRITE_SCOPE.inits,
      part.getLast? = some (unit '.') → part.dropLast = OPERATOR_ROLE := by decide
  have hmem : role ++ [unit '.'] ∈ OPERATOR_ADMIN_SCOPE.inits ++ OPERATOR_WRITE_SCOPE.inits := by
    rw [List.mem_append, List.mem_inits, List.mem_inits]
    rcases himplies with rfl | heq | ⟨rfl, -⟩
    · exact Or.inl hrole
    · exact absurd heq hne
    · exact Or.inr hrole
  have hdrop := hparts _ hmem (by simp)
  rwa [List.dropLast_concat] at hdrop

theorem Approval.vouches_implied {approval : Approval} {scope implied : JsString}
    (h : approval.vouches scope) (himplies : ScopeImplies scope implied)
    (himplied : isOperatorScope implied = true) : approval.vouches implied := by
  rcases h with ⟨hnames, hcovers⟩ | ⟨role, hnames, hother, hrole⟩
  · exact Or.inl ⟨hnames, approval.covers_implied hcovers himplies himplied⟩
  · by_cases heq : scope = implied
    · rw [heq] at hrole
      exact Or.inr ⟨role, hnames, hother, hrole⟩
    · exact absurd (operator_of_prefix_of_implies himplies heq hrole) hother

theorem mem_listedRoles {roles : Option (List JsString)} {role : Option JsString}
    {named : JsString} :
    named ∈ listedRoles roles role ↔
      named ≠ [] ∧ ∃ text, (text ∈ roles.getD [] ∨ text ∈ role) ∧ trim text = named := by
  rw [listedRoles, mem_mergeRoles, mem_trimmedSet]
  simp [List.mem_append]

/-! ## The scopes of an approved device -/

theorem trim_of_mem_listedRoles {roles : Option (List JsString)} {role : Option JsString}
    {named : JsString} (h : named ∈ listedRoles roles role) : trim named = named := by
  obtain ⟨-, text, -, rfl⟩ := mem_listedRoles.mp h
  exact trim_trim text

theorem mem_resolveRoleScoped_operator {scopes : Option (List JsString)} {scope : JsString} :
    scope ∈ resolveRoleScopedDeviceTokenScopes OPERATOR_ROLE scopes ↔
      scope ∈ normalizeDeviceAuthScopes scopes ∧ isOperatorScope scope = true := by
  rw [resolveRoleScopedDeviceTokenScopes, if_pos rfl, List.mem_filter]

theorem mem_normalizeDeviceAuthScopes_of_mem {scopes : Option (List JsString)} {scope : JsString}
    (h : scope ∈ trimmedSet (scopes.getD [])) : scope ∈ normalizeDeviceAuthScopes scopes := by
  cases scopes with
  | none => simp [trimmedSet] at h
  | some scopes => exact mem_normalizeDeviceAuthScopes_of_trimmed h

theorem exists_implies_of_mem_normalized {scopes : Option (List JsString)} {scope : JsString}
    (h : scope ∈ normalizeDeviceAuthScopes scopes) :
    ∃ given ∈ trimmedSet (scopes.getD []), ScopeImplies given scope := by
  cases scopes with
  | none => simp [normalizeDeviceAuthScopes] at h
  | some scopes => exact exists_of_mem_normalizeDeviceAuthScopes h

theorem baseline_of_eq {device : PairedDevice} (h : device.approvedScopes = device.scopes) :
    device.baseline = device.scopes := by
  rw [PairedDevice.baseline, h]
  cases device.scopes <;> rfl

theorem requested_of_operatorScope {roles scopes : List JsString} {scope : JsString}
    (htrim : ∀ role ∈ roles, trim role = role)
    (hroles : resolveScopeOutsideRequestedRoles roles scopes = none) (hscope : scope ∈ scopes)
    (hself : scope ∈ trimmedSet [scope]) :
    OPERATOR_ROLE ∈ roles ∨
      ∃ role ∈ roles, role ≠ OPERATOR_ROLE ∧ role ++ [unit '.'] <+: scope := by
  have hsome := List.find?_eq_none.mp hroles scope hscope
  simp only [Bool.not_eq_true', Bool.not_eq_false, List.any_eq_true] at hsome
  obtain ⟨role, hrole, hallow⟩ := hsome
  have hname := htrim role hrole
  by_cases hoperator : role = OPERATOR_ROLE
  · exact Or.inl (hoperator ▸ hrole)
  · have hpre : trim role ++ [unit '.'] <+: scope := by
      apply roleScopesAllow_other _ hallow hself
      rw [hname]
      exact hoperator
    rw [hname] at hpre
    exact Or.inr ⟨role, hrole, hoperator, hpre⟩

theorem satisfied_of_checkCallerScopes {pending : PendingRequest} {nextScopes : List JsString}
    {callerScopes : Option (List JsString)} {scope : JsString}
    (h : PairingState.checkCallerScopes pending nextScopes callerScopes = none)
    (hscope : scope ∈ resolveRoleScopedDeviceTokenScopes OPERATOR_ROLE pending.scopes) :
    ∃ allowed, callerScopes = some allowed ∧
      operatorScopeSatisfied scope (trimmedSet allowed) = true := by
  cases callerScopes with
  | none => exact absurd h (by simp [PairingState.checkCallerScopes])
  | some allowed =>
      refine ⟨allowed, rfl, ?_⟩
      simp only [PairingState.checkCallerScopes, Option.map_eq_none_iff] at h
      have htrimmed : scope ∈ trimmedSet (normalizeDeviceAuthScopes pending.scopes) :=
        mem_trimmedSet_normalized.mpr (mem_resolveRoleScoped_operator.mp hscope).1
      obtain ⟨hne, -⟩ := mem_trimmedSet.mp htrimmed
      have htrim := trim_of_mem_trimmedSet htrimmed
      have hrequired : scope ∈ (mergeScopes
          [some (resolveRoleScopedDeviceTokenScopes OPERATOR_ROLE pending.scopes),
            some nextScopes]).getD nextScopes := by
        have hmerged : scope ∈ (mergeScopes
            [some (resolveRoleScopedDeviceTokenScopes OPERATOR_ROLE pending.scopes),
              some nextScopes]).getD [] := by
          rw [mem_mergeScopes]
          exact ⟨_, List.mem_cons_self, mem_trimmedSet_self hscope hne htrim⟩
        have hsome : (mergeScopes
            [some (resolveRoleScopedDeviceTokenScopes OPERATOR_ROLE pending.scopes),
              some nextScopes]).isSome = true := mergeScopes_isSome rfl
        obtain ⟨merged, hmerge⟩ := Option.isSome_iff_exists.mp hsome
        rw [hmerge] at hmerged ⊢
        exact hmerged
      have hallow := missing_eq_none h hrequired
      exact roleScopesAllow_operator hallow (mem_trimmedSet_self (by simp) hne htrim)

theorem mem_baseline_of_nothing_granted {pending : PendingRequest}
    {existingToken : Option DeviceAuthToken} {approvedScopes : Option (List JsString)}
    {existing : Option PairedDevice} {scope : JsString}
    (hnothing : resolveApprovedTokenScopes OPERATOR_ROLE pending existingToken approvedScopes
      existing = [])
    (hscope : scope ∈ resolveRoleScopedDeviceTokenScopes OPERATOR_ROLE pending.scopes) :
    scope ∈ normalizeDeviceAuthScopes (existing.bind PairedDevice.baseline) := by
  have hoperator := (mem_resolveRoleScoped_operator.mp hscope).2
  have htrimmed : scope ∈ trimmedSet (normalizeDeviceAuthScopes pending.scopes) :=
    mem_trimmedSet_normalized.mpr (mem_resolveRoleScoped_operator.mp hscope).1
  obtain ⟨hne, -⟩ := mem_trimmedSet.mp htrimmed
  have htrim := trim_of_mem_trimmedSet htrimmed
  -- a scope of the delta would be granted
  have hgranted (items : List (Option (List JsString))) (delta : List JsString)
      (hitem : some delta ∈ items) (hdelta : scope ∈ delta) :
      resolveRoleScopedDeviceTokenScopes OPERATOR_ROLE (mergeScopes items) ≠ [] := by
    apply List.ne_nil_of_mem (a := scope)
    rw [mem_resolveRoleScoped_operator]
    refine ⟨?_, hoperator⟩
    apply mem_normalizeDeviceAuthScopes_of_mem
    apply mem_trimmedSet_self _ hne htrim
    rw [mem_mergeScopes]
    exact ⟨some delta, hitem, mem_trimmedSet_self hdelta hne htrim⟩
  by_contra hmissing
  have hdelta : scope ∈ requestedScopeDelta OPERATOR_ROLE pending existingToken existing := by
    rw [requestedScopeDelta]
    split
    · rw [List.mem_filter]
      refine ⟨hscope, ?_⟩
      have hnotBaseline : scope ∉ resolveRoleScopedDeviceTokenScopes OPERATOR_ROLE
          (existing.bind PairedDevice.baseline) := by
        intro hmem
        exact hmissing (mem_resolveRoleScoped_operator.mp hmem).1
      simpa using hnotBaseline
    · exact hscope
  rw [resolveApprovedTokenScopes, if_pos (List.ne_nil_of_mem hscope)] at hnothing
  simp only at hnothing
  split at hnothing
  · rename_i hnil
    rw [hnil.1] at hdelta
    exact absurd hdelta (by simp)
  · exact hgranted _ _ (by simp) hdelta hnothing

/-! ## The roles of an approved device -/

theorem mem_listedRoles_merge {items : List (List JsString)} {role : Option JsString}
    {named : JsString} (h : named ∈ listedRoles (mergeRoles items) role) :
    named ≠ [] ∧ ((∃ item ∈ items, ∃ text ∈ item, trim text = named) ∨
      ∃ text ∈ role, trim text = named) := by
  obtain ⟨hne, text, htext | htext, htrim⟩ := mem_listedRoles.mp h
  · obtain ⟨-, inner, hinner, rfl⟩ := mem_trimmedSet.mp (mem_mergeRoles.mp htext)
    obtain ⟨item, hitem, hmem⟩ := List.mem_flatten.mp hinner
    rw [trim_trim] at htrim
    exact ⟨hne, Or.inl ⟨item, hitem, inner, hmem, htrim⟩⟩
  · exact ⟨hne, Or.inr ⟨text, htext, htrim⟩⟩

theorem mem_listedRoles_of_roles {roles : Option (List JsString)} {role : Option JsString}
    {text named : JsString} (hne : named ≠ []) (htext : text ∈ roles.getD [])
    (htrim : trim text = named) : named ∈ listedRoles roles role :=
  mem_listedRoles.mpr ⟨hne, text, Or.inl htext, htrim⟩

theorem mem_listedRoles_of_role {roles : Option (List JsString)} {role : Option JsString}
    {text named : JsString} (hne : named ≠ []) (htext : text ∈ role)
    (htrim : trim text = named) : named ∈ listedRoles roles role :=
  mem_listedRoles.mpr ⟨hne, text, Or.inr htext, htrim⟩

structure ApprovalFacts (pending : PendingRequest) (existing : Option PairedDevice)
    (device : PairedDevice) (approval : Approval) (minted : List (JsString × DeviceAuthToken))
    (freshTokens : List JsString) : Prop where
  deviceId : device.deviceId = pending.deviceId
  approvalDevice : approval.deviceId = pending.deviceId
  mintedNamed : ∀ entry ∈ minted, approval.names entry.1
  mintedDrawn : (minted.map fun entry => entry.2.token).Sublist freshTokens
  mintedLive : ∀ entry ∈ minted, entry.2.revoked = false
  rolesNamed : ∀ role ∈ device.approvedRoles,
    approval.names role ∨ ∃ old ∈ existing, role ∈ old.approvedRoles
  baseline : ∀ scope ∈ device.baseline.getD [], scope ≠ [] ∧ trim scope = scope ∧
    (isOperatorScope scope = true → approval.vouches scope ∨
      ∃ given ∈ trimmedSet ((existing.bind PairedDevice.baseline).getD []),
        ScopeImplies given scope)

theorem mem_mintTokens {roles freshTokens : List JsString} {scopesOf : JsString → List JsString}
    {tokens : Record DeviceAuthToken} {now : ℤ} {entry : JsString × DeviceAuthToken}
    (h : entry ∈ mintTokens roles freshTokens scopesOf tokens now) :
    entry.1 ∈ roles ∧ entry.2.revoked = false := by
  obtain ⟨pair, hpair, rfl⟩ := List.mem_map.mp h
  exact ⟨(List.of_mem_zip hpair).1, rfl⟩

theorem token_mintTokens (roles freshTokens : List JsString) (scopesOf : JsString → List JsString)
    (tokens : Record DeviceAuthToken) (now : ℤ) :
    ((mintTokens roles freshTokens scopesOf tokens now).map fun entry => entry.2.token).Sublist
      freshTokens := by
  rw [mintTokens]
  induction roles generalizing freshTokens with
  | nil => simp
  | cons role rest ih =>
      cases freshTokens with
      | nil => simp
      | cons token others => exact (ih others).cons_cons token

theorem mem_requestedRoles_merge {items : List (List JsString)} {pending : PendingRequest}
    {existing : Option PairedDevice} {named : JsString}
    (h : named ∈ listedRoles
      (mergeRoles
        ([(existing.bind PairedDevice.roles).getD [], (existing.bind PairedDevice.role).toList,
          pending.roles.getD [], pending.role.toList] ++ items)) pending.role) :
    named ∈ pending.requestedRoles ∨ (∃ old ∈ existing, named ∈ old.approvedRoles) ∨
      ∃ item ∈ items, named ∈ trimmedSet item := by
  obtain ⟨hne, ⟨item, hitem, text, htext, htrim⟩ | ⟨text, htext, htrim⟩⟩ :=
    mem_listedRoles_merge h
  · rcases List.mem_append.mp hitem with hown | hother
    · simp only [List.mem_cons, List.not_mem_nil, or_false] at hown
      rcases hown with rfl | rfl | rfl | rfl
      · cases existing with
        | none => simp at htext
        | some old => exact Or.inr (Or.inl ⟨old, rfl, mem_listedRoles_of_roles hne htext htrim⟩)
      · cases existing with
        | none => simp at htext
        | some old =>
            have hrole : text ∈ old.role := by simpa using htext
            exact Or.inr (Or.inl ⟨old, rfl, mem_listedRoles_of_role hne hrole htrim⟩)
      · exact Or.inl (mem_listedRoles_of_roles hne htext htrim)
      · exact Or.inl (mem_listedRoles_of_role hne (by simpa using htext) htrim)
    · exact Or.inr (Or.inr ⟨item, hother, mem_trimmedSet.mpr ⟨hne, text, htext, htrim⟩⟩)
  · exact Or.inl (mem_listedRoles_of_role hne htext htrim)

/-! ## Approvals -/

variable (s : PairingState)

theorem vouches_of_approve {pending : PendingRequest} {callerScopes : Option (List JsString)}
    {nextScopes : List JsString} {existingToken : Option DeviceAuthToken}
    {approvedScopes : Option (List JsString)} {existing : Option PairedDevice}
    {scope : JsString}
    (hroles : resolveScopeOutsideRequestedRoles pending.requestedRoles
      (normalizeDeviceAuthScopes pending.scopes) = none)
    (hnext : nextScopes = resolveApprovedTokenScopes OPERATOR_ROLE pending existingToken
      approvedScopes existing)
    (hdenied : (if pending.requestedRoles.contains OPERATOR_ROLE && decide (nextScopes ≠ []) then
      PairingState.checkCallerScopes pending nextScopes callerScopes else none) = none)
    (hscope : scope ∈ normalizeDeviceAuthScopes pending.scopes)
    (hoperator : isOperatorScope scope = true) :
    Approval.vouches
        { deviceId := pending.deviceId, roles := pending.requestedRoles,
          scopes := normalizeDeviceAuthScopes pending.scopes, approver := .caller callerScopes }
        scope ∨
      scope ∈ normalizeDeviceAuthScopes (existing.bind PairedDevice.baseline) := by
  have htrimmed := mem_trimmedSet_normalized.mpr hscope
  have hself : scope ∈ trimmedSet [scope] :=
    mem_trimmedSet_self (by simp) (mem_trimmedSet.mp htrimmed).1 (trim_of_mem_trimmedSet htrimmed)
  have hresolved := mem_resolveRoleScoped_operator.mpr ⟨hscope, hoperator⟩
  rcases requested_of_operatorScope (fun _ => trim_of_mem_listedRoles) hroles hscope hself with
    hrole | ⟨role, hrole, hother⟩
  · by_cases hnothing : nextScopes = []
    · right
      rw [hnext] at hnothing
      exact mem_baseline_of_nothing_granted hnothing hresolved
    · have hcontains : pending.requestedRoles.contains OPERATOR_ROLE = true :=
        List.contains_iff_mem.mpr hrole
      rw [hcontains, if_pos (by simp [hnothing])] at hdenied
      obtain ⟨allowed, hallowed, hcaller⟩ := satisfied_of_checkCallerScopes hdenied hresolved
      have hcovered := operatorScopeSatisfied_of_mem hoperator hscope
      exact Or.inl (Or.inl ⟨Or.inl hrole, hcovered, allowed, hallowed, hcaller⟩)
  · exact Or.inl (Or.inr ⟨role, Or.inl hrole, hother⟩)

theorem approveDevicePairing_effect (now : ℤ) (requestId : JsString)
    (callerScopes : Option (List JsString)) (freshTokens : List JsString) :
    (s.approveDevicePairing now requestId callerScopes freshTokens).1 = s ∨
      ∃ pending device approval minted,
        (pruneExpiredPending s.pendingById now).get requestId = some pending ∧
        ApprovalFacts pending (s.pairedByDeviceId.get pending.deviceId) device approval minted
          freshTokens ∧
        (s.approveDevicePairing now requestId callerScopes freshTokens).1 =
          s.storeApproved now requestId (s.pairedByDeviceId.get pending.deviceId) device approval
            minted := by
  unfold PairingState.approveDevicePairing
  cases hget : (pruneExpiredPending s.pendingById now).get requestId with
  | none => exact Or.inl rfl
  | some pending =>
      simp only
      cases hroles : resolveScopeOutsideRequestedRoles pending.requestedRoles
          (normalizeDeviceAuthScopes pending.scopes) with
      | some scope => exact Or.inl rfl
      | none =>
          simp only
          split
          · exact Or.inl rfl
          · rename_i hdenied
            refine Or.inr ⟨pending, _, _, _, rfl, ?_, rfl⟩
            constructor
            · rfl
            · rfl
            · intro entry hentry
              exact Or.inl (mem_mintTokens hentry).1
            · exact token_mintTokens _ _ _ _ _
            · intro entry hentry
              exact (mem_mintTokens hentry).2
            · intro role hrole
              have hmerge := @mem_requestedRoles_merge [] _ _ _ hrole
              rcases hmerge with hown | hold | hnone
              · exact Or.inl (Or.inl hown)
              · exact Or.inr hold
              · simp at hnone
            · intro scope hscope
              rw [baseline_of_eq rfl, mem_mergeScopes] at hscope
              obtain ⟨item, hitem, hmem⟩ := hscope
              refine ⟨(mem_trimmedSet.mp hmem).1, trim_of_mem_trimmedSet hmem, ?_⟩
              intro hoperator
              simp only [List.mem_cons, List.not_mem_nil, or_false] at hitem
              rcases hitem with rfl | rfl
              · exact Or.inr ⟨scope, hmem, Or.inr (Or.inl rfl)⟩
              · have hrequested := mem_normalizeDeviceAuthScopes_of_mem hmem
                rcases vouches_of_approve hroles rfl hdenied hrequested hoperator with
                  hvouched | hbaseline
                · exact Or.inl hvouched
                · exact Or.inr (exists_implies_of_mem_normalized hbaseline)

theorem vouches_of_bootstrap {pending : PendingRequest} {profile : DeviceBootstrapProfile}
    {existing : Option PairedDevice} {approvedRoles approvedScopes : List JsString}
    {scope : JsString} (hroles : approvedRoles = (mergeRoles [profile.roles]).getD [])
    (hscopes : approvedScopes = resolveBootstrapProfileScopesForRoles approvedRoles profile.scopes)
    (hmissing : resolveMissingRequestedScope OPERATOR_ROLE
      ((normalizeDeviceAuthScopes pending.scopes).filter isOperatorScope) approvedScopes = none)
    (hscope : scope ∈ resolveBootstrapProfileScopesForRoles approvedRoles
      ((mergeScopes [existing.bind PairedDevice.baseline, pending.scopes,
        some approvedScopes]).getD []))
    (hoperator : isOperatorScope scope = true) :
    Approval.vouches
        { deviceId := pending.deviceId, roles := pending.requestedRoles,
          scopes := normalizeDeviceAuthScopes pending.scopes, approver := .bootstrap profile }
        scope ∨
      ∃ given ∈ trimmedSet ((existing.bind PairedDevice.baseline).getD []),
        ScopeImplies given scope := by
  obtain ⟨⟨role, hrole, hname⟩, given, hgiven, himplies⟩ := exists_of_mem_bootstrapScopes hscope
  have hgivenOperator := himplies.isOperatorScope hoperator
  have hnames : OPERATOR_ROLE ∈ (mergeRoles [profile.roles]).getD [] := by
    rw [hroles] at hrole
    have htrim := trim_of_mem_trimmedSet (mem_mergeRoles.mp hrole)
    rw [htrim] at hname
    exact hname ▸ hrole
  have hcovers (hsatisfied : operatorScopeSatisfied given approvedScopes = true) :
      operatorScopeSatisfied scope
        (resolveBootstrapProfileScopesForRoles ((mergeRoles [profile.roles]).getD [])
          profile.scopes) = true := by
    rw [hscopes, hroles] at hsatisfied
    exact operatorScopeSatisfied_implied hsatisfied himplies hoperator
  obtain ⟨item, hitem, hmem⟩ := mem_trimmedSet_mergeScopes hgiven
  simp only [List.mem_cons, List.not_mem_nil, or_false] at hitem
  rcases hitem with rfl | rfl | rfl
  · exact Or.inr ⟨given, hmem, himplies⟩
  · have hrequested := mem_normalizeDeviceAuthScopes_of_mem hmem
    have hallow := missing_eq_none hmissing (List.mem_filter.mpr ⟨hrequested, hgivenOperator⟩)
    have hself : given ∈ trimmedSet [given] :=
      mem_trimmedSet_self (by simp) (mem_trimmedSet.mp hmem).1 (trim_of_mem_trimmedSet hmem)
    have hsatisfied := roleScopesAllow_operator hallow hself
    rw [hscopes] at hsatisfied
    have hgranted := operatorScopeSatisfied_normalized.mp hsatisfied
    exact Or.inl (Or.inl ⟨Or.inr hnames, hcovers (hscopes ▸ hgranted)⟩)
  · have hgranted : given ∈ approvedScopes := by
      rw [hscopes] at hmem ⊢
      exact mem_trimmedSet_normalized.mp hmem
    have hsatisfied := operatorScopeSatisfied_of_mem hgivenOperator hgranted
    exact Or.inl (Or.inl ⟨Or.inr hnames, hcovers hsatisfied⟩)

theorem approveBootstrapDevicePairing_effect (now : ℤ) (requestId : JsString)
    (profile : DeviceBootstrapProfile) (freshTokens : List JsString) :
    (s.approveBootstrapDevicePairing now requestId profile freshTokens).1 = s ∨
      ∃ pending device approval minted,
        (pruneExpiredPending s.pendingById now).get requestId = some pending ∧
        ApprovalFacts pending (s.pairedByDeviceId.get pending.deviceId) device approval minted
          freshTokens ∧
        (s.approveBootstrapDevicePairing now requestId profile freshTokens).1 =
          s.storeApproved now requestId (s.pairedByDeviceId.get pending.deviceId) device approval
            minted := by
  unfold PairingState.approveBootstrapDevicePairing
  cases hget : (pruneExpiredPending s.pendingById now).get requestId with
  | none => exact Or.inl rfl
  | some pending =>
      simp only
      split
      · exact Or.inl rfl
      · split
        · exact Or.inl rfl
        · rename_i hmissing
          refine Or.inr ⟨pending, _, _, _, rfl, ?_, rfl⟩
          constructor
          · rfl
          · rfl
          · intro entry hentry
            exact Or.inr (mem_mintTokens hentry).1
          · exact token_mintTokens _ _ _ _ _
          · intro entry hentry
            exact (mem_mintTokens hentry).2
          · intro role hrole
            rcases mem_requestedRoles_merge hrole with hown | hold | ⟨item, hitem, hmem⟩
            · exact Or.inl (Or.inl hown)
            · exact Or.inr hold
            · have heq := List.mem_singleton.mp hitem
              rw [heq] at hmem
              obtain ⟨-, text, htext, htrim⟩ := mem_trimmedSet.mp hmem
              rw [trim_of_mem_trimmedSet (mem_mergeRoles.mp htext)] at htrim
              exact Or.inl (Or.inr (htrim ▸ htext))
          · intro scope hscope
            rw [baseline_of_eq rfl] at hscope
            have hgranted : scope ∈ resolveBootstrapProfileScopesForRoles _ _ := hscope
            have htrimmed := mem_trimmedSet_normalized.mpr hgranted
            refine ⟨(mem_trimmedSet.mp htrimmed).1, trim_of_mem_trimmedSet htrimmed, ?_⟩
            intro hoperator
            exact vouches_of_bootstrap rfl rfl hmissing hgranted hoperator

/-! ## Every operation -/

/-- The ways in which an operation changes the state. -/
inductive PairingEffect (now : ℤ) (op : PairingOp) (s : PairingState) : PairingState → Prop where
  | unchanged : PairingEffect now op s s
  | dropped (pendingById : Record PendingRequest)
      (hpending : ∀ entry ∈ pendingById, entry ∈ s.pendingById) :
      PairingEffect now op s { s with pendingById := pendingById }
  | requested (request : PendingRequest) (pendingById : Record PendingRequest)
      (hdrawn : request.requestId ∈ PairingState.drawnRequestIds op)
      (hpending : ∀ entry ∈ pendingById,
        entry ∈ s.pendingById ∨ entry = (request.requestId, request)) :
      PairingEffect now op s
        { s with
          pendingById := pendingById
          issuedRequests := s.issuedRequests ++ [(request.requestId, request.grant)] }
  | refreshed (old : JsString × PendingRequest) (request : PendingRequest)
      (pendingById : Record PendingRequest) (hold : old ∈ s.pendingById)
      (hid : request.requestId = old.2.requestId) (hgrant : request.grant = old.2.grant)
      (hpending : ∀ entry ∈ pendingById,
        entry ∈ s.pendingById ∨ entry = (request.requestId, request)) :
      PairingEffect now op s { s with pendingById := pendingById }
  | approved (requestId : JsString) (pending : PendingRequest) (device : PairedDevice)
      (approval : Approval) (minted : List (JsString × DeviceAuthToken))
      (hpending : (requestId, pending) ∈ s.pendingById)
      (hfacts : ApprovalFacts pending (s.pairedByDeviceId.get pending.deviceId) device approval
        minted (PairingState.drawnTokens op)) :
      PairingEffect now op s
        (s.storeApproved now requestId (s.pairedByDeviceId.get pending.deviceId) device approval
          minted)
  | forgotten (deviceId : JsString) (device : PairedDevice)
      (hdevice : s.pairedByDeviceId.get deviceId = some device)
      (pendingById : Record PendingRequest)
      (hpending : ∀ entry ∈ pendingById, entry ∈ s.pendingById) :
      PairingEffect now op s { s.forgetDevice deviceId device with pendingById := pendingById }
  | used (deviceId : JsString) (device : PairedDevice) (role : JsString)
      (entry next : DeviceAuthToken)
      (hdevice : s.pairedByDeviceId.get deviceId = some device)
      (hentry : device.tokens.get role = some entry)
      (htoken : next.token = entry.token) (hrevoked : next.revoked = entry.revoked) :
      PairingEffect now op s (s.putToken device role next)
  | revoked (deviceId : JsString) (device : PairedDevice) (role : JsString)
      (entry next : DeviceAuthToken)
      (hdevice : s.pairedByDeviceId.get deviceId = some device)
      (hentry : device.tokens.get role = some entry)
      (htoken : next.token = entry.token) (hrevoked : next.revoked = true) :
      PairingEffect now op s
        { s.putToken device role next with
          retiredTokens := s.retiredTokens ++ [entry.token] }
  | replaced (deviceId : JsString) (device : PairedDevice) (role : JsString)
      (entry : DeviceAuthToken)
      (hdevice : s.pairedByDeviceId.get deviceId = some device)
      (hrole : role ∈ device.approvedRoles)
      (hdrawn : entry.token ∈ PairingState.drawnTokens op) (hlive : entry.revoked = false) :
      PairingEffect now op s (s.replaceToken device role entry)

variable {s} {now : ℤ}

theorem mem_prune {pendingById : Record PendingRequest} {entry : JsString × PendingRequest}
    (h : entry ∈ pruneExpiredPending pendingById now) : entry ∈ pendingById :=
  List.mem_of_mem_filter h

theorem mem_of_foldl_delete {existing : List PendingRequest} {pending : Record PendingRequest}
    {entry : JsString × PendingRequest}
    (h : entry ∈ existing.foldl (fun pending old => pending.delete old.requestId) pending) :
    entry ∈ pending := by
  induction existing generalizing pending with
  | nil => exact h
  | cons old rest ih => exact (Record.mem_delete.mp (ih h)).1

theorem reconcile_cases {existing : List PendingRequest} {incoming : PairingRequest}
    {requestId deviceId : JsString} {isRepair : Bool} {request : PendingRequest} {created : Bool}
    (h : reconcile existing incoming requestId deviceId isRepair now = (request, created)) :
    (created = true ∧ request.requestId = requestId) ∨
      (created = false ∧ ∃ old ∈ existing, request.requestId = old.requestId ∧
        request.grant = old.grant) := by
  unfold reconcile at h
  simp only at h
  split at h
  · rename_i single
    split at h
    · rename_i hsame
      simp only [Prod.mk.injEq] at h
      obtain ⟨rfl, rfl⟩ := h
      simp only [samePendingApprovalSnapshot, Bool.and_eq_true, decide_eq_true_eq] at hsame
      refine Or.inr ⟨rfl, single, List.mem_singleton.mpr rfl, rfl, ?_⟩
      show RequestGrant.mk incoming.publicKey single.role single.roles single.scopes = single.grant
      rw [← hsame.1.1.1]
      rfl
    · simp only [Prod.mk.injEq] at h
      obtain ⟨rfl, rfl⟩ := h
      exact Or.inl ⟨rfl, rfl⟩
  · simp only [Prod.mk.injEq] at h
    obtain ⟨rfl, rfl⟩ := h
    exact Or.inl ⟨rfl, rfl⟩

theorem requestDevicePairing_effect (requestId : JsString) (req : PairingRequest) :
    PairingEffect now (.request requestId req) s (s.requestDevicePairing now requestId req) := by
  rw [PairingState.requestDevicePairing]
  simp only
  split
  · exact .unchanged
  · generalize hexisting : List.mergeSort _ _ = existing
    cases hreconcile : reconcile existing req requestId (trim req.deviceId)
        (s.pairedByDeviceId.get (trim req.deviceId)).isSome now with
    | mk request created =>
        simp only
        rcases reconcile_cases hreconcile with ⟨rfl, hid⟩ | ⟨rfl, old, hold, hid, hgrant⟩
        · simp only [↓reduceIte]
          apply PairingEffect.requested
          · exact List.mem_singleton.mpr hid
          · intro entry hentry
            rcases Record.mem_set hentry with hnew | ⟨hkept, -⟩
            · exact Or.inr hnew
            · exact Or.inl (mem_prune (mem_of_foldl_delete hkept))
        · simp only [Bool.false_eq_true, ↓reduceIte]
          rw [← hexisting, List.mem_mergeSort, List.mem_filter] at hold
          obtain ⟨stored, hstored, rfl⟩ := List.mem_map.mp hold.1
          apply PairingEffect.refreshed stored request _ (mem_prune hstored) hid hgrant
          intro entry hentry
          rcases Record.mem_set hentry with hnew | ⟨hkept, -⟩
          · exact Or.inr hnew
          · exact Or.inl (mem_prune hkept)

theorem reject_effect (requestId : JsString) :
    PairingEffect now (.reject requestId) s (s.rejectDevicePairing now requestId) := by
  rw [PairingState.rejectDevicePairing]
  split
  · exact .unchanged
  · apply PairingEffect.dropped
    intro entry hentry
    exact mem_prune (Record.mem_delete.mp hentry).1

theorem remove_effect (deviceId : JsString) :
    PairingEffect now (.remove deviceId) s (s.removePairedDevice now deviceId) := by
  rw [PairingState.removePairedDevice]
  cases hdevice : s.pairedByDeviceId.get (trim deviceId) with
  | none => exact .unchanged
  | some device =>
      simp only
      split
      · exact .unchanged
      · apply PairingEffect.forgotten _ _ hdevice
        intro entry hentry
        exact mem_prune (List.mem_of_mem_filter hentry)

theorem clear_effect (deviceId : JsString) :
    PairingEffect now (.clear deviceId) s (s.clearDevicePairing deviceId) := by
  rw [PairingState.clearDevicePairing]
  cases hdevice : s.pairedByDeviceId.get (trim deviceId) with
  | none => exact .unchanged
  | some device => exact .forgotten _ _ hdevice s.pendingById fun _ hentry => hentry

theorem tokenUpdateContext_eq_some {deviceId role : JsString} {device : PairedDevice}
    {name : JsString} (h : s.tokenUpdateContext deviceId role = some (device, name)) :
    s.pairedByDeviceId.get (trim deviceId) = some device ∧ name ∈ device.approvedRoles := by
  simp only [PairingState.tokenUpdateContext, Option.bind_eq_some_iff] at h
  obtain ⟨found, hdevice, role, hrole, hcontext⟩ := h
  split at hcontext
  · rename_i happroved
    simp only [Option.some.injEq, Prod.mk.injEq] at hcontext
    obtain ⟨rfl, rfl⟩ := hcontext
    exact ⟨hdevice, List.contains_iff_mem.mp happroved⟩
  · exact absurd hcontext (by simp)

theorem ensure_effect (deviceId role : JsString) (scopes : List JsString)
    (freshToken : JsString) :
    PairingEffect now (.ensure deviceId role scopes freshToken) s
      (s.ensureDeviceToken now deviceId role scopes freshToken).1 := by
  rw [PairingState.ensureDeviceToken]
  cases hcontext : s.tokenUpdateContext deviceId role with
  | none => exact .unchanged
  | some context =>
      obtain ⟨hdevice, hrole⟩ := tokenUpdateContext_eq_some hcontext
      simp only
      split
      · exact .unchanged
      · split
        · exact .unchanged
        · exact .replaced _ _ _ _ hdevice hrole (List.mem_singleton.mpr rfl) rfl

theorem rotate_effect (deviceId role : JsString) (scopes callerScopes : Option (List JsString))
    (freshToken : JsString) :
    PairingEffect now (.rotate deviceId role scopes callerScopes freshToken) s
      (s.rotateDeviceToken now deviceId role scopes callerScopes freshToken).1 := by
  rw [PairingState.rotateDeviceToken]
  cases hcontext : s.tokenUpdateContext deviceId role with
  | none => exact .unchanged
  | some context =>
      obtain ⟨hdevice, hrole⟩ := tokenUpdateContext_eq_some hcontext
      simp only
      split
      · exact .unchanged
      · split
        · exact .unchanged
        · split
          · exact .unchanged
          · exact .replaced _ _ _ _ hdevice hrole (List.mem_singleton.mpr rfl) rfl

theorem revoke_effect (hnow : 0 < now) (deviceId role : JsString)
    (callerScopes : Option (List JsString)) :
    PairingEffect now (.revoke deviceId role callerScopes) s
      (s.revokeDeviceToken now deviceId role callerScopes).1 := by
  rw [PairingState.revokeDeviceToken]
  cases hcontext : s.tokenUpdateContext deviceId role with
  | none => exact .unchanged
  | some context =>
      obtain ⟨hdevice, -⟩ := tokenUpdateContext_eq_some hcontext
      simp only
      cases hentry : context.1.tokens.get context.2 with
      | none => exact .unchanged
      | some entry =>
          simp only
          split
          · exact .unchanged
          · refine .revoked _ _ _ entry _ hdevice hentry rfl ?_
            have hne : now ≠ 0 := by omega
            simp [DeviceAuthToken.revoked, hne]

structure Accepted (s : PairingState) (deviceId token role : JsString) (scopes : List JsString)
    (device : PairedDevice) (name : JsString) (entry : DeviceAuthToken) : Prop where
  storedDevice : s.pairedByDeviceId.get (trim deviceId) = some device
  trimmedRole : name = trim role
  storedEntry : device.tokens.get name = some entry
  live : entry.revoked = false
  sameToken : token = entry.token
  inBaseline : scopesWithinApprovedDeviceBaseline name entry.scopes device = true
  allowed : roleScopesAllow name (normalizeDeviceAuthScopes (some scopes)) entry.scopes = true

theorem accepted_of_verify {deviceId token role : JsString} {scopes : List JsString}
    {device : PairedDevice} {name : JsString} {entry : DeviceAuthToken}
    (h : s.verifyDeviceToken deviceId token role scopes = .ok (device, name, entry)) :
    Accepted s deviceId token role scopes device name entry := by
  rw [PairingState.verifyDeviceToken] at h
  cases hdevice : s.pairedByDeviceId.get (trim deviceId) with
  | none => simp [hdevice] at h
  | some found =>
      cases hrole : normalizeRole (some role) with
      | none => simp [hdevice, hrole] at h
      | some normal =>
          cases hentry : found.tokens.get normal with
          | none => simp [hdevice, hrole, hentry] at h
          | some stored =>
              simp only [hdevice, hrole, hentry] at h
              split at h
              · simp at h
              · rename_i hlive
                split at h
                · simp at h
                · rename_i htoken
                  split at h
                  · simp at h
                  · rename_i hbaseline
                    split at h
                    · simp at h
                    · rename_i hscopes
                      simp only [Except.ok.injEq, Prod.mk.injEq] at h
                      obtain ⟨rfl, rfl, rfl⟩ := h
                      simp only [not_or, not_not] at htoken
                      have hname : normal = trim role := by
                        rw [normalizeRole] at hrole
                        split at hrole <;> simp_all
                      exact ⟨hdevice, hname, hentry, by simpa using hlive, htoken.2.2,
                        by simpa using hbaseline, by simpa using hscopes⟩

theorem verify_effect (deviceId token role : JsString) (scopes : List JsString) :
    PairingEffect now (.verify deviceId token role scopes) s
      (s.noteTokenUse now deviceId token role scopes) := by
  rw [PairingState.noteTokenUse]
  cases hverify : s.verifyDeviceToken deviceId token role scopes with
  | error _ => exact .unchanged
  | ok accepted =>
      have haccepted := accepted_of_verify hverify
      exact .used _ _ _ _ _ haccepted.storedDevice haccepted.storedEntry rfl rfl

theorem apply_effect {op : PairingOp} (hdraws : s.Draws now op) :
    PairingEffect now op s (s.apply now op) := by
  cases op with
  | request requestId req => exact requestDevicePairing_effect requestId req
  | approve requestId callerScopes freshTokens =>
      rw [PairingState.apply]
      rcases approveDevicePairing_effect s now requestId callerScopes freshTokens with
        hsame | ⟨pending, device, approval, minted, hget, hfacts, heq⟩
      · rw [hsame]
        exact .unchanged
      · rw [heq]
        exact .approved requestId pending device approval minted
          (mem_prune (Record.mem_of_get hget)) hfacts
  | approveBootstrap requestId profile freshTokens =>
      rw [PairingState.apply]
      rcases approveBootstrapDevicePairing_effect s now requestId profile freshTokens with
        hsame | ⟨pending, device, approval, minted, hget, hfacts, heq⟩
      · rw [hsame]
        exact .unchanged
      · rw [heq]
        exact .approved requestId pending device approval minted
          (mem_prune (Record.mem_of_get hget)) hfacts
  | reject requestId => exact reject_effect requestId
  | remove deviceId => exact remove_effect deviceId
  | clear deviceId => exact clear_effect deviceId
  | ensure deviceId role scopes freshToken => exact ensure_effect deviceId role scopes freshToken
  | rotate deviceId role scopes callerScopes freshToken =>
      exact rotate_effect deviceId role scopes callerScopes freshToken
  | revoke deviceId role callerScopes => exact revoke_effect hdraws.1 deviceId role callerScopes
  | verify deviceId token role scopes => exact verify_effect deviceId token role scopes

end GreenchClaw.Pairing
