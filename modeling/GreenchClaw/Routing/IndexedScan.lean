import GreenchClaw.Routing.IndexBridge

/-!
# Choosing a route

The tiers of `resolveAgentRoute` and the route built from the binding they choose.  The tiers
are written over a parameter that gives each tier its candidates, so that the indexed search
and the search through all bindings are two values of one definition.
-/

namespace GreenchClaw.Routing

open GreenchClaw.Js FirstMatch

inductive MatchedBy where
  | bindingPeer
  | bindingPeerParent
  | bindingPeerWildcard
  | bindingGuildRoles
  | bindingGuild
  | bindingTeam
  | bindingAccount
  | bindingChannel
  | default
  deriving DecidableEq, Repr

inductive LastRoutePolicy where
  | main
  | session
  deriving DecidableEq, Repr

structure ResolvedAgentRoute where
  agentId : JsString
  channel : JsString
  accountId : JsString
  sessionKey : JsString
  mainSessionKey : JsString
  lastRoutePolicy : LastRoutePolicy
  matchedBy : MatchedBy
  deriving DecidableEq, Repr

structure BindingScope where
  peer : Option ScopePeer
  guildId : JsString
  teamId : JsString
  memberRoleIds : List JsString
  deriving DecidableEq, Repr

/-- The normalised input of a call and the scope of direct messages that the configuration
sets. -/
structure RouteScope where
  channel : JsString
  accountId : JsString
  peer : Option ScopePeer
  parentPeer : Option ScopePeer
  guildId : JsString
  teamId : JsString
  memberRoleIds : List JsString
  dmScope : DmScope
  deriving DecidableEq, Repr

/-! ## Matching a binding -/

def scopeIdMatches (constraint : Option JsString) (exact groupSpace : JsString) : Bool :=
  match constraint with
  | none => true
  | some constraint => constraint = [] || constraint = exact || constraint = groupSpace

def hasAnyRouteBindingRole (roles memberRoleIds : List JsString) : Bool :=
  roles.any fun role => role ∈ memberRoleIds

def routeBindingScopeMatches (constraint : NormalizedBindingMatch) (scope : BindingScope) :
    Bool :=
  let guildId := normalizeRouteBindingId (some (.text scope.guildId))
  let teamId := normalizeRouteBindingId (some (.text scope.teamId))
  let groupSpace := normalizeRouteBindingId none
  if ¬ scopeIdMatches constraint.guildId guildId groupSpace then false
  else if ¬ scopeIdMatches constraint.teamId teamId groupSpace then false
  else
    match normalizeRouteBindingRoles constraint.roles with
    | none => true
    | some roles => hasAnyRouteBindingRole roles scope.memberRoleIds

def matchesBindingScope (bindingMatch : NormalizedBindingMatch) (scope : BindingScope) : Bool :=
  match bindingMatch.peer, scope.peer with
  | .invalid, _ => false
  | .valid kind id, some peer =>
      peerKindMatches kind peer.kind && peer.id = id &&
        routeBindingScopeMatches bindingMatch scope
  | .valid _ _, none => false
  | .wildcardKind kind, some peer =>
      peerKindMatches kind peer.kind && routeBindingScopeMatches bindingMatch scope
  | .wildcardKind _, none => false
  | .none, _ => routeBindingScopeMatches bindingMatch scope

def hasGuildConstraint (bindingMatch : NormalizedBindingMatch) : Bool :=
  bindingMatch.guildId.isSome

def hasTeamConstraint (bindingMatch : NormalizedBindingMatch) : Bool :=
  bindingMatch.teamId.isSome

def hasRolesConstraint (bindingMatch : NormalizedBindingMatch) : Bool :=
  bindingMatch.roles.isSome

/-! ## The tiers -/

def RouteScope.parentWithId (scope : RouteScope) : Option ScopePeer :=
  scope.parentPeer.filter fun parentPeer => parentPeer.id ≠ []

def RouteScope.bindingScope (scope : RouteScope) (scopePeer : Option ScopePeer) :
    BindingScope where
  peer := scopePeer
  guildId := scope.guildId
  teamId := scope.teamId
  memberRoleIds := scope.memberRoleIds

def routeTier (scope : RouteScope) (candidates : MatchedBy → List EvaluatedBinding)
    (matchedBy : MatchedBy) (enabled : Bool) (scopePeer : Option ScopePeer)
    (predicate : NormalizedBindingMatch → Bool) : Tier EvaluatedBinding MatchedBy where
  label := matchedBy
  enabled := enabled
  candidates := candidates matchedBy
  wanted candidate := predicate candidate.bindingMatch &&
    matchesBindingScope candidate.bindingMatch (scope.bindingScope scopePeer)

section Tiers

variable (scope : RouteScope) (candidates : MatchedBy → List EvaluatedBinding)

def peerTier : Tier EvaluatedBinding MatchedBy :=
  routeTier scope candidates .bindingPeer scope.peer.isSome scope.peer isValidPeer

def parentPeerTier : Tier EvaluatedBinding MatchedBy :=
  routeTier scope candidates .bindingPeerParent scope.parentWithId.isSome scope.parentWithId
    isValidPeer

def wildcardPeerTier : Tier EvaluatedBinding MatchedBy :=
  routeTier scope candidates .bindingPeerWildcard scope.peer.isSome scope.peer isWildcardPeer

def guildRolesTier : Tier EvaluatedBinding MatchedBy :=
  routeTier scope candidates .bindingGuildRoles (scope.guildId ≠ [] ∧ scope.memberRoleIds ≠ [])
    scope.peer fun m => hasGuildConstraint m && hasRolesConstraint m

def guildTier : Tier EvaluatedBinding MatchedBy :=
  routeTier scope candidates .bindingGuild (scope.guildId ≠ []) scope.peer
    fun m => hasGuildConstraint m && !hasRolesConstraint m

def teamTier : Tier EvaluatedBinding MatchedBy :=
  routeTier scope candidates .bindingTeam (scope.teamId ≠ []) scope.peer hasTeamConstraint

def accountTier : Tier EvaluatedBinding MatchedBy :=
  routeTier scope candidates .bindingAccount true scope.peer
    fun m => m.accountPattern ≠ js "*"

def channelTier : Tier EvaluatedBinding MatchedBy :=
  routeTier scope candidates .bindingChannel true scope.peer
    fun m => m.accountPattern = js "*"

def routeTiers : List (Tier EvaluatedBinding MatchedBy) :=
  [ peerTier scope candidates,
    parentPeerTier scope candidates,
    wildcardPeerTier scope candidates,
    guildRolesTier scope candidates,
    guildTier scope candidates,
    teamTier scope candidates,
    accountTier scope candidates,
    channelTier scope candidates ]

end Tiers

def indexedCandidates (index : EvaluatedBindingsIndex) (scope : RouteScope)
    (matchedBy : MatchedBy) : List EvaluatedBinding :=
  match matchedBy with
  | .bindingPeer => collectPeerIndexedBindings index scope.peer
  | .bindingPeerParent => collectPeerIndexedBindings index scope.parentPeer
  | .bindingPeerWildcard => index.byPeerWildcard
  | .bindingGuildRoles =>
      if scope.guildId = [] then [] else group index.byGuildWithRoles scope.guildId
  | .bindingGuild => if scope.guildId = [] then [] else group index.byGuild scope.guildId
  | .bindingTeam => if scope.teamId = [] then [] else group index.byTeam scope.teamId
  | .bindingAccount => index.byAccount
  | .bindingChannel => index.byChannel
  | .default => []

/-! ## The route -/

section Route

variable [UnicodeCase]

def normalizeScopePeer (peer : RoutePeer) : ScopePeer where
  kind := (normalizeChatType (some peer.kind.text)).getD peer.kind
  id := normalizeRouteBindingId (some peer.id)

def sessionDmScope (cfg : RoutingConfig) : DmScope :=
  (cfg.session.bind fun session => session.dmScope).getD .main

def sessionIdentityLinks (cfg : RoutingConfig) : Option IdentityLinks :=
  cfg.session.bind fun session => session.identityLinks

def routeScope (cfg : RoutingConfig) (input : ResolveAgentRouteInput) : RouteScope where
  channel := normalizeToken (some input.channel)
  accountId := normalizeAccountId input.accountId
  peer := input.peer.map normalizeScopePeer
  parentPeer := input.parentPeer.map normalizeScopePeer
  guildId := normalizeRouteBindingId input.guildId
  teamId := normalizeRouteBindingId input.teamId
  memberRoleIds := input.memberRoleIds.getD []
  dmScope := sessionDmScope cfg

def deriveLastRoutePolicy (sessionKey mainSessionKey : JsString) : LastRoutePolicy :=
  if sessionKey = mainSessionKey then .main else .session

def buildAgentSessionKey (agentId channel accountId : JsString) (peer : Option ScopePeer)
    (dmScope : DmScope) (identityLinks : Option IdentityLinks) : JsString :=
  let channel := normalizeToken (some channel)
  buildAgentPeerSessionKey
    { agentId := agentId
      mainKey := some DEFAULT_MAIN_KEY
      channel := if channel = [] then js "unknown" else channel
      accountId := some accountId
      peerKind := some ((peer.map ScopePeer.kind).getD .direct)
      peerId := peer.map fun peer =>
        let id := normalizeRouteBindingId (some (.text peer.id))
        if id = [] then js "unknown" else id
      dmScope := some dmScope
      identityLinks := identityLinks }

def chooseRoute (cfg : RoutingConfig) (scope : RouteScope) (agentId : JsString)
    (matchedBy : MatchedBy) (sessionOverride : Option DmScope) : ResolvedAgentRoute :=
  let resolvedAgentId := pickFirstExistingAgentId cfg agentId
  let effectiveDmScope := sessionOverride.getD scope.dmScope
  let sessionKey := normalizeLowercaseStringOrEmpty
    (some (buildAgentSessionKey resolvedAgentId scope.channel scope.accountId scope.peer
      effectiveDmScope (sessionIdentityLinks cfg)))
  let mainSessionKey := normalizeLowercaseStringOrEmpty
    (some (buildAgentMainSessionKey resolvedAgentId (some DEFAULT_MAIN_KEY)))
  { agentId := resolvedAgentId
    channel := scope.channel
    accountId := scope.accountId
    sessionKey := sessionKey
    mainSessionKey := mainSessionKey
    lastRoutePolicy := deriveLastRoutePolicy sessionKey mainSessionKey
    matchedBy := matchedBy }

def routeOfMatch (cfg : RoutingConfig) (scope : RouteScope)
    (matched : Option (MatchedBy × EvaluatedBinding)) : ResolvedAgentRoute :=
  match matched with
  | some (matchedBy, candidate) =>
      chooseRoute cfg scope candidate.binding.agentId matchedBy candidate.binding.sessionDmScope
  | none => chooseRoute cfg scope (resolveDefaultAgentId cfg) .default none

def indexedRoute (cfg : RoutingConfig) (index : EvaluatedBindingsIndex) (scope : RouteScope) :
    ResolvedAgentRoute :=
  routeOfMatch cfg scope (firstMatch (routeTiers scope (indexedCandidates index scope)))

/-- The search without an index: every tier walks all bindings of the channel and account in
the order of the configuration. -/
def plainRoute (cfg : RoutingConfig) (scope : RouteScope) : ResolvedAgentRoute :=
  routeOfMatch cfg scope
    (firstMatch (routeTiers scope fun _ => scopedBindings cfg scope.channel scope.accountId))

end Route

/-!
## The indexed search and the plain scan

A tier of the indexed search sees one bucket of the scoped bindings.  A binding outside the
bucket that the tier would take is one an earlier tier takes, so both searches find the same
first match.
-/

/-! ## What a match says of the binding -/

structure NormalizedBindingMatch.Normal (m : NormalizedBindingMatch) : Prop where
  guildId : m.guildId ≠ some []
  teamId : m.teamId ≠ some []
  roles : m.roles ≠ some []

theorem orNull_ne_some_nil (value : JsString) : orNull value ≠ some [] := by
  unfold orNull
  split <;> simp_all

theorem normalizeRouteBindingRoles_ne_some_nil (roles : Option (List JsString)) :
    normalizeRouteBindingRoles roles ≠ some [] := by
  unfold normalizeRouteBindingRoles
  split <;> simp_all

theorem scopeIdMatches_some {id exact : JsString} (hid : id ≠ [])
    (h : scopeIdMatches (some id) exact [] = true) : id = exact := by
  simpa [scopeIdMatches, hid] using h

theorem routeBindingScopeMatches_of_matches {m : NormalizedBindingMatch} {scope : BindingScope}
    (h : matchesBindingScope m scope = true) : routeBindingScopeMatches m scope = true := by
  unfold matchesBindingScope at h
  split at h <;> simp_all

section Matching

variable {m : NormalizedBindingMatch} {scope : BindingScope}

theorem guildId_of_matches (hm : m.Normal) (h : matchesBindingScope m scope = true)
    {guildId : JsString} (hguild : m.guildId = some guildId) : guildId = trim scope.guildId := by
  have hscope := routeBindingScopeMatches_of_matches h
  have hne : guildId ≠ [] := by
    rintro rfl
    exact hm.guildId hguild
  by_cases hid : scopeIdMatches m.guildId (trim scope.guildId) [] = true
  · rw [hguild] at hid
    exact scopeIdMatches_some hne hid
  · simp [routeBindingScopeMatches, normalizeRouteBindingId, hid] at hscope

theorem teamId_of_matches (hm : m.Normal) (h : matchesBindingScope m scope = true)
    {teamId : JsString} (hteam : m.teamId = some teamId) : teamId = trim scope.teamId := by
  have hscope := routeBindingScopeMatches_of_matches h
  have hne : teamId ≠ [] := by
    rintro rfl
    exact hm.teamId hteam
  by_cases hid : scopeIdMatches m.teamId (trim scope.teamId) [] = true
  · rw [hteam] at hid
    exact scopeIdMatches_some hne hid
  · simp [routeBindingScopeMatches, normalizeRouteBindingId, hid] at hscope

theorem memberRoleIds_of_matches (hm : m.Normal) (h : matchesBindingScope m scope = true)
    (hroles : m.roles.isSome = true) : scope.memberRoleIds ≠ [] := by
  have hscope := routeBindingScopeMatches_of_matches h
  obtain ⟨roles, hsome⟩ := Option.isSome_iff_exists.mp hroles
  intro hnone
  have hnormal : normalizeRouteBindingRoles (some roles) = some roles := by
    cases roles with
    | nil => exact absurd hsome hm.roles
    | cons role rest => rfl
  simp [routeBindingScopeMatches, hsome, hnormal, hasAnyRouteBindingRole, hnone] at hscope

theorem indexedForPeer_of_matches {evaluated : EvaluatedBinding}
    (hvalid : isValidPeer evaluated.bindingMatch = true)
    (h : matchesBindingScope evaluated.bindingMatch scope = true) :
    indexedForPeer scope.peer evaluated = true := by
  unfold indexedForPeer
  unfold matchesBindingScope at h
  unfold isValidPeer at hvalid
  cases hstate : evaluated.bindingMatch.peer <;> cases hpeer : scope.peer <;> simp_all

theorem peer_isSome_of_matches (hpeer : isPeerless m = false)
    (h : matchesBindingScope m scope = true) : scope.peer.isSome = true := by
  unfold matchesBindingScope at h
  unfold isPeerless at hpeer
  cases hstate : m.peer <;> cases hscope : scope.peer <;> simp_all

theorem isPeerless_or (m : NormalizedBindingMatch) :
    isPeerless m = true ∨ isValidPeer m = true ∨ isWildcardPeer m = true := by
  unfold isPeerless isValidPeer isWildcardPeer
  cases m.peer <;> simp

end Matching

/-! ## A binding left out is caught before -/

section Caught

variable {scope : RouteScope} (candidates : MatchedBy → List EvaluatedBinding)
  {earlier : List (Tier EvaluatedBinding MatchedBy)} {evaluated : EvaluatedBinding}

theorem peerless_or_caught (hpeer : peerTier scope candidates ∈ earlier)
    (hwildcard : wildcardPeerTier scope candidates ∈ earlier)
    (h : matchesBindingScope evaluated.bindingMatch (scope.bindingScope scope.peer) = true) :
    isPeerless evaluated.bindingMatch = true ∨ CaughtBy earlier evaluated := by
  cases hpeerless : isPeerless evaluated.bindingMatch with
  | true => exact Or.inl rfl
  | false =>
      have hsome : scope.peer.isSome = true := peer_isSome_of_matches hpeerless h
      have hkind := isPeerless_or evaluated.bindingMatch
      rw [hpeerless] at hkind
      rcases hkind with habsurd | hvalid | hwild
      · exact absurd habsurd (by decide)
      · exact Or.inr (caughtBy_of_mem hpeer hsome (by simp [peerTier, routeTier, hvalid, h]))
      · exact Or.inr
          (caughtBy_of_mem hwildcard hsome (by simp [wildcardPeerTier, routeTier, hwild, h]))

theorem guildless_or_caught (hroles : guildRolesTier scope candidates ∈ earlier)
    (hguild : guildTier scope candidates ∈ earlier)
    (hnormal : evaluated.bindingMatch.Normal) (hscope : trim scope.guildId = scope.guildId)
    (h : matchesBindingScope evaluated.bindingMatch (scope.bindingScope scope.peer) = true) :
    evaluated.bindingMatch.guildId = none ∨ CaughtBy earlier evaluated := by
  cases hid : evaluated.bindingMatch.guildId with
  | none => exact Or.inl rfl
  | some guildId =>
      have hguildId : guildId = scope.guildId := by
        rw [guildId_of_matches hnormal h hid]
        exact hscope
      have hne : scope.guildId ≠ [] := by
        rw [← hguildId]
        rintro rfl
        exact hnormal.guildId hid
      cases hr : evaluated.bindingMatch.roles with
      | some roles =>
          have hmembers : scope.memberRoleIds ≠ [] :=
            memberRoleIds_of_matches hnormal h (by simp [hr])
          refine Or.inr (caughtBy_of_mem hroles ?_ ?_)
          · simp [guildRolesTier, routeTier, hne, hmembers]
          · simp [guildRolesTier, routeTier, hasGuildConstraint, hasRolesConstraint, hid, hr, h]
      | none =>
          refine Or.inr (caughtBy_of_mem hguild ?_ ?_)
          · simp [guildTier, routeTier, hne]
          · simp [guildTier, routeTier, hasGuildConstraint, hasRolesConstraint, hid, hr, h]

theorem teamless_or_caught (hteam : teamTier scope candidates ∈ earlier)
    (hnormal : evaluated.bindingMatch.Normal) (hscope : trim scope.teamId = scope.teamId)
    (h : matchesBindingScope evaluated.bindingMatch (scope.bindingScope scope.peer) = true) :
    evaluated.bindingMatch.teamId = none ∨ CaughtBy earlier evaluated := by
  cases hid : evaluated.bindingMatch.teamId with
  | none => exact Or.inl rfl
  | some teamId =>
      have hteamId : teamId = scope.teamId := by
        rw [teamId_of_matches hnormal h hid]
        exact hscope
      have hne : scope.teamId ≠ [] := by
        rw [← hteamId]
        rintro rfl
        exact hnormal.teamId hid
      refine Or.inr (caughtBy_of_mem hteam ?_ ?_)
      · simp [teamTier, routeTier, hne]
      · simp [teamTier, routeTier, hasTeamConstraint, hid, h]

end Caught

/-! ## The two searches -/

def keptFor (scope : RouteScope) : MatchedBy → EvaluatedBinding → Bool
  | .bindingPeer => indexedForPeer scope.peer
  | .bindingPeerParent => indexedForPeer scope.parentPeer
  | .bindingPeerWildcard => fun b => isWildcardPeer b.bindingMatch
  | .bindingGuildRoles => fun b =>
      scope.guildId ≠ [] && (isPeerless b.bindingMatch &&
        (b.bindingMatch.guildId = some scope.guildId && b.bindingMatch.roles.isSome))
  | .bindingGuild => fun b =>
      scope.guildId ≠ [] && (isPeerless b.bindingMatch &&
        (b.bindingMatch.guildId = some scope.guildId && b.bindingMatch.roles.isNone))
  | .bindingTeam => fun b =>
      scope.teamId ≠ [] && (isPeerless b.bindingMatch &&
        (b.bindingMatch.guildId.isNone && b.bindingMatch.teamId = some scope.teamId))
  | .bindingAccount => fun b =>
      isUnscoped b.bindingMatch && b.bindingMatch.accountPattern ≠ js "*"
  | .bindingChannel => fun b =>
      isUnscoped b.bindingMatch && b.bindingMatch.accountPattern = js "*"
  | .default => fun _ => false

theorem candidates_of_mem_routeTiers {scope : RouteScope}
    {candidates : MatchedBy → List EvaluatedBinding} {tier : Tier EvaluatedBinding MatchedBy}
    (h : tier ∈ routeTiers scope candidates) : tier.candidates = candidates tier.label := by
  simp only [routeTiers, List.mem_cons, List.not_mem_nil, or_false] at h
  rcases h with rfl | rfl | rfl | rfl | rfl | rfl | rfl | rfl <;> rfl

theorem indexedCandidates_eq {index : EvaluatedBindingsIndex}
    {bindings : List EvaluatedBinding} (h : index.Describes bindings)
    (hnodup : bindings.Nodup) (scope : RouteScope) (matchedBy : MatchedBy) :
    indexedCandidates index scope matchedBy = bindings.filter (keptFor scope matchedBy) := by
  cases matchedBy with
  | bindingPeer => exact collectPeerIndexedBindings_eq h hnodup scope.peer
  | bindingPeerParent => exact collectPeerIndexedBindings_eq h hnodup scope.parentPeer
  | bindingPeerWildcard => exact h.byPeerWildcard
  | bindingGuildRoles =>
      by_cases hid : scope.guildId = []
      · simp [indexedCandidates, keptFor, hid]
      · simp [indexedCandidates, keptFor, hid, h.byGuildWithRoles]
  | bindingGuild =>
      by_cases hid : scope.guildId = []
      · simp [indexedCandidates, keptFor, hid]
      · simp [indexedCandidates, keptFor, hid, h.byGuild]
  | bindingTeam =>
      by_cases hid : scope.teamId = []
      · simp [indexedCandidates, keptFor, hid]
      · simp [indexedCandidates, keptFor, hid, h.byTeam]
  | bindingAccount => exact h.byAccount
  | bindingChannel => exact h.byChannel
  | default => simp [indexedCandidates, keptFor]

theorem isUnscoped_or_caught {scope : RouteScope}
    (candidates : MatchedBy → List EvaluatedBinding)
    {earlier : List (Tier EvaluatedBinding MatchedBy)} {evaluated : EvaluatedBinding}
    (hearlier : (routeTiers scope candidates).take 6 ⊆ earlier)
    (hnormal : evaluated.bindingMatch.Normal)
    (hguild : trim scope.guildId = scope.guildId) (hteam : trim scope.teamId = scope.teamId)
    (h : matchesBindingScope evaluated.bindingMatch (scope.bindingScope scope.peer) = true) :
    isUnscoped evaluated.bindingMatch = true ∨ CaughtBy earlier evaluated := by
  have hmem : ∀ tier ∈ (routeTiers scope candidates).take 6, tier ∈ earlier :=
    fun tier htier => hearlier htier
  simp only [routeTiers, List.take, List.forall_mem_cons] at hmem
  obtain ⟨hpeer, _, hwildcard, hroles, hguildTier, hteamTier, _⟩ := hmem
  rcases peerless_or_caught candidates hpeer hwildcard h with hpeerless | hcaught
  · rcases guildless_or_caught candidates hroles hguildTier hnormal hguild h with
      hguildless | hcaught
    · rcases teamless_or_caught candidates hteamTier hnormal hteam h with hteamless | hcaught
      · exact Or.inl (by simp [isUnscoped, hpeerless, hguildless, hteamless])
      · exact Or.inr hcaught
    · exact Or.inr hcaught
  · exact Or.inr hcaught

theorem leftOutCaught_routeTiers (scope : RouteScope)
    (candidates : MatchedBy → List EvaluatedBinding) (bindings : List EvaluatedBinding)
    (hnormal : ∀ evaluated ∈ bindings, evaluated.bindingMatch.Normal)
    (hguild : trim scope.guildId = scope.guildId) (hteam : trim scope.teamId = scope.teamId) :
    LeftOutCaught bindings (keptFor scope) [] (routeTiers scope candidates) := by
  refine ⟨?_, ?_, ?_, ?_, ?_, ?_, ?_, ?_, trivial⟩
  · -- The peer itself: a matching binding has one of its keys.
    intro evaluated _ _ hwanted
    simp only [peerTier, routeTier, Bool.and_eq_true] at hwanted
    exact Or.inl (indexedForPeer_of_matches hwanted.1 hwanted.2)
  · -- The parent peer, which the tier looks at only when it has an id.
    intro evaluated _ _ hwanted
    simp only [parentPeerTier, routeTier, Bool.and_eq_true] at hwanted
    have hparent := indexedForPeer_of_matches hwanted.1 hwanted.2
    refine Or.inl ?_
    show indexedForPeer scope.parentPeer evaluated = true
    rw [RouteScope.bindingScope, RouteScope.parentWithId] at hparent
    cases hpeer : scope.parentPeer with
    | none => simp [hpeer, indexedForPeer] at hparent
    | some parentPeer =>
        by_cases hid : parentPeer.id = []
        · simp [hpeer, Option.filter_some, hid, indexedForPeer] at hparent
        · simpa [hpeer, Option.filter_some, hid] using hparent
  · intro evaluated _ _ hwanted
    simp only [wildcardPeerTier, routeTier, Bool.and_eq_true] at hwanted
    exact Or.inl hwanted.1
  · -- Guild and roles: a binding for a peer is left to the tiers of the peer.
    intro evaluated hmem henabled hwanted
    simp only [guildRolesTier, routeTier, Bool.and_eq_true, hasGuildConstraint,
      hasRolesConstraint, decide_eq_true_eq] at hwanted henabled
    obtain ⟨⟨hid, hroles⟩, hmatches⟩ := hwanted
    obtain ⟨guildId, hguildId⟩ := Option.isSome_iff_exists.mp hid
    have hsame := guildId_of_matches (hnormal evaluated hmem) hmatches hguildId
    refine (peerless_or_caught candidates (by simp) (by simp) hmatches).imp_left ?_
    intro hpeerless
    simp [guildRolesTier, routeTier, keptFor, hpeerless, hroles, henabled.1, hguildId, hsame,
      RouteScope.bindingScope, hguild]
  · intro evaluated hmem henabled hwanted
    simp only [guildTier, routeTier, Bool.and_eq_true, hasGuildConstraint,
      hasRolesConstraint, decide_eq_true_eq, Bool.not_eq_true'] at hwanted henabled
    obtain ⟨⟨hid, hroles⟩, hmatches⟩ := hwanted
    obtain ⟨guildId, hguildId⟩ := Option.isSome_iff_exists.mp hid
    have hsame := guildId_of_matches (hnormal evaluated hmem) hmatches hguildId
    refine (peerless_or_caught candidates (by simp) (by simp) hmatches).imp_left ?_
    intro hpeerless
    simp only [Option.isSome_eq_false_iff] at hroles
    simp [guildTier, routeTier, keptFor, hpeerless, hroles, henabled, hguildId, hsame,
      RouteScope.bindingScope, hguild]
  · -- A team binding with a guild is left to the tiers of the guild.
    intro evaluated hmem henabled hwanted
    simp only [teamTier, routeTier, Bool.and_eq_true, hasTeamConstraint,
      decide_eq_true_eq] at hwanted henabled
    obtain ⟨hid, hmatches⟩ := hwanted
    obtain ⟨teamId, hteamId⟩ := Option.isSome_iff_exists.mp hid
    have hsame := teamId_of_matches (hnormal evaluated hmem) hmatches hteamId
    refine (peerless_or_caught candidates (by simp) (by simp) hmatches).elim ?_ Or.inr
    intro hpeerless
    refine (guildless_or_caught candidates (by simp) (by simp) (hnormal evaluated hmem) hguild
      hmatches).imp_left ?_
    intro hguildless
    simp [teamTier, routeTier, keptFor, hpeerless, hguildless, henabled, hteamId, hsame,
      RouteScope.bindingScope, hteam]
  · intro evaluated hmem _ hwanted
    simp only [accountTier, routeTier, Bool.and_eq_true] at hwanted
    refine (isUnscoped_or_caught candidates (by simp [routeTiers]) (hnormal evaluated hmem)
      hguild hteam hwanted.2).imp_left ?_
    intro hunscoped
    simpa [accountTier, routeTier, keptFor, hunscoped] using hwanted.1
  · intro evaluated hmem _ hwanted
    simp only [channelTier, routeTier, Bool.and_eq_true] at hwanted
    refine (isUnscoped_or_caught candidates (by simp [routeTiers]) (hnormal evaluated hmem)
      hguild hteam hwanted.2).imp_left ?_
    intro hunscoped
    simpa [channelTier, routeTier, keptFor, hunscoped] using hwanted.1

/-! ## The routes -/

section Routes

variable [UnicodeCase]

theorem normal_normalizeBindingMatch (bindingMatch : AgentBindingMatch) :
    (normalizeBindingMatch bindingMatch).Normal where
  guildId := orNull_ne_some_nil _
  teamId := orNull_ne_some_nil _
  roles := normalizeRouteBindingRoles_ne_some_nil _

theorem normal_of_mem_evaluateBindings {bindings : List AgentBinding} {order : Nat}
    {evaluated : EvaluatedBinding} (h : evaluated ∈ evaluateBindings order bindings) :
    evaluated.bindingMatch.Normal := by
  induction bindings generalizing order with
  | nil => simp [evaluateBindings] at h
  | cons binding rest ih =>
      rw [evaluateBindings] at h
      split at h
      · exact ih h
      · rcases List.mem_cons.mp h with rfl | hrest
        · exact normal_normalizeBindingMatch _
        · exact ih hrest

theorem nodup_scopedBindings (cfg : RoutingConfig) (channel accountId : JsString) :
    (scopedBindings cfg channel accountId).Nodup := by
  apply List.Nodup.filter
  refine (pairwise_order_evaluateBindings (listBindings cfg) 0).imp ?_
  rintro a b hlt rfl
  exact Nat.lt_irrefl _ hlt

theorem trim_guildId_routeScope (cfg : RoutingConfig) (input : ResolveAgentRouteInput) :
    trim (routeScope cfg input).guildId = (routeScope cfg input).guildId :=
  trim_normalizeRouteBindingId input.guildId

theorem trim_teamId_routeScope (cfg : RoutingConfig) (input : ResolveAgentRouteInput) :
    trim (routeScope cfg input).teamId = (routeScope cfg input).teamId :=
  trim_normalizeRouteBindingId input.teamId

theorem indexedRoute_eq_plainRoute (cfg : RoutingConfig) (input : ResolveAgentRouteInput) :
    indexedRoute cfg
        (buildEvaluatedBindingsIndex (scopedBindings cfg (routeScope cfg input).channel
          (routeScope cfg input).accountId))
        (routeScope cfg input) =
      plainRoute cfg (routeScope cfg input) := by
  have hguild := trim_guildId_routeScope cfg input
  have hteam := trim_teamId_routeScope cfg input
  generalize routeScope cfg input = scope at *
  let bindings := scopedBindings cfg scope.channel scope.accountId
  have hnormal : ∀ evaluated ∈ bindings, evaluated.bindingMatch.Normal := by
    intro evaluated hmem
    exact normal_of_mem_evaluateBindings (List.mem_filter.mp hmem).1
  have hcandidates := indexedCandidates_eq (describes_buildEvaluatedBindingsIndex bindings)
    (nodup_scopedBindings cfg scope.channel scope.accountId) scope
  have hfirst := firstMatch_restrict bindings (keptFor scope) []
    (routeTiers scope (indexedCandidates (buildEvaluatedBindingsIndex bindings) scope))
    (by
      intro tier htier
      rw [candidates_of_mem_routeTiers htier]
      exact hcandidates tier.label)
    (by
      rintro evaluated _ ⟨tier, htier, _⟩
      simp at htier)
    (leftOutCaught_routeTiers scope _ bindings hnormal hguild hteam)
  unfold indexedRoute plainRoute
  rw [hfirst]
  rfl

end Routes

end GreenchClaw.Routing
