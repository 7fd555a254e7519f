import GreenchClaw.Routing.Cache

/-!
# When the route cache is transparent

The key of the route cache joins its fields with tabs and writes a dash for an empty one, so
two inputs that route differently can share a key.  A sequence of calls gets its own routes
when the calls that share a key have the same routing data, which the key decides as long as
no field holds a separator or a placeholder.
-/

namespace GreenchClaw.Routing

open GreenchClaw.Js FirstMatch

structure SameRouting (s t : RouteScope) : Prop where
  channel : s.channel = t.channel
  accountId : s.accountId = t.accountId
  peer : s.peer = t.peer
  parentWithId : s.parentWithId = t.parentWithId
  guildId : s.guildId = t.guildId
  teamId : s.teamId = t.teamId
  memberRoleIds : ∀ role, role ∈ s.memberRoleIds ↔ role ∈ t.memberRoleIds
  dmScope : s.dmScope = t.dmScope

/-! ## The routing data decide the route -/

section SameRouting

variable {s t : RouteScope}

theorem SameRouting.hasRole (h : SameRouting s t) (roles : List JsString) :
    hasAnyRouteBindingRole roles s.memberRoleIds =
      hasAnyRouteBindingRole roles t.memberRoleIds := by
  simp only [hasAnyRouteBindingRole, h.memberRoleIds]

theorem SameRouting.memberRoleIds_eq_nil (h : SameRouting s t) :
    s.memberRoleIds = [] ↔ t.memberRoleIds = [] := by
  simp only [List.eq_nil_iff_forall_not_mem, h.memberRoleIds]

theorem SameRouting.matches_eq (h : SameRouting s t) (m : NormalizedBindingMatch)
    (peer : Option ScopePeer) :
    matchesBindingScope m (s.bindingScope peer) = matchesBindingScope m (t.bindingScope peer) := by
  have hscope : routeBindingScopeMatches m (s.bindingScope peer) =
      routeBindingScopeMatches m (t.bindingScope peer) := by
    simp only [routeBindingScopeMatches, RouteScope.bindingScope, h.guildId, h.teamId, h.hasRole]
    rfl
  simp only [matchesBindingScope, hscope]
  rfl

theorem SameRouting.routeTier_eq (h : SameRouting s t)
    (candidates : MatchedBy → List EvaluatedBinding) (matchedBy : MatchedBy) (enabled : Bool)
    (peer : Option ScopePeer) (predicate : NormalizedBindingMatch → Bool) :
    routeTier s candidates matchedBy enabled peer predicate =
      routeTier t candidates matchedBy enabled peer predicate := by
  simp only [routeTier, h.matches_eq]

theorem SameRouting.routeTiers_eq (h : SameRouting s t)
    (candidates : MatchedBy → List EvaluatedBinding) :
    routeTiers s candidates = routeTiers t candidates := by
  simp only [routeTiers, peerTier, parentPeerTier, wildcardPeerTier, guildRolesTier, guildTier,
    teamTier, accountTier, channelTier, h.routeTier_eq, h.peer, h.parentWithId, h.guildId,
    h.teamId, ne_eq, h.memberRoleIds_eq_nil]

theorem SameRouting.plainRoute_eq [UnicodeCase] (h : SameRouting s t) (cfg : RoutingConfig) :
    plainRoute cfg s = plainRoute cfg t := by
  have hchoose : ∀ agentId matchedBy override, chooseRoute cfg s agentId matchedBy override =
      chooseRoute cfg t agentId matchedBy override := by
    intro agentId matchedBy override
    simp only [chooseRoute, h.channel, h.accountId, h.peer, h.dmScope]
  simp only [plainRoute, h.channel, h.accountId, h.routeTiers_eq, routeOfMatch, hchoose]

end SameRouting

/-! ## The fields of a key -/

/-- No field of the key is empty where an empty one has a placeholder, is a placeholder itself,
or holds a separator. -/
structure RouteScope.Unambiguous (scope : RouteScope) : Prop where
  peer : ∀ peer ∈ scope.peer, peer.id ≠ [] ∧ TAB ∉ peer.id
  parentPeer : ∀ peer ∈ scope.parentPeer, TAB ∉ peer.id
  guildId : scope.guildId ≠ js "-" ∧ TAB ∉ scope.guildId
  teamId : scope.teamId ≠ js "-" ∧ TAB ∉ scope.teamId
  memberRoleIds : ∀ role ∈ scope.memberRoleIds, role ≠ js "-" ∧ TAB ∉ role ∧ COMMA ∉ role

theorem orDash_injective {left right : JsString} (hleft : left ≠ js "-")
    (hright : right ≠ js "-") (h : orDash left = orDash right) : left = right := by
  unfold orDash at h
  split at h <;> split at h <;> simp_all

theorem tab_notMem_orDash {value : JsString} (h : TAB ∉ value) : TAB ∉ orDash value := by
  unfold orDash
  split
  · decide
  · exact h

theorem tab_notMem_formatRouteCachePeer {peer : Option ScopePeer}
    (h : ∀ p ∈ peer, TAB ∉ p.id) : TAB ∉ formatRouteCachePeer peer := by
  have hkind : ∀ kind : ChatType, TAB ∉ kind.text := by
    intro kind
    cases kind <;> decide
  cases peer with
  | none => decide
  | some peer =>
      by_cases hid : peer.id = []
      · simp only [formatRouteCachePeer, hid, if_true]
        decide
      · simp only [formatRouteCachePeer, hid, if_false, peerKey, List.mem_append, not_or]
        exact ⟨⟨hkind peer.kind, by decide⟩, h peer rfl⟩

theorem peerKey_ne_dash (kind : ChatType) (id : JsString) : peerKey kind id ≠ js "-" := by
  cases kind <;> simp [peerKey, ChatType.text, js, unit]

theorem formatRouteCachePeer_injective {left right : Option ScopePeer}
    (h : formatRouteCachePeer left = formatRouteCachePeer right) :
    left.filter (fun peer => peer.id ≠ []) = right.filter fun peer => peer.id ≠ [] := by
  have hformat : ∀ peer : Option ScopePeer,
      peer.filter (fun peer => peer.id ≠ []) = none ∧ formatRouteCachePeer peer = js "-" ∨
      ∃ p, peer.filter (fun peer => peer.id ≠ []) = some p ∧
        formatRouteCachePeer peer = peerKey p.kind p.id := by
    intro peer
    cases peer with
    | none => exact Or.inl ⟨rfl, rfl⟩
    | some p =>
        by_cases hid : p.id = []
        · exact Or.inl ⟨by simp [Option.filter_some, hid], by simp [formatRouteCachePeer, hid]⟩
        · exact Or.inr
            ⟨p, by simp [Option.filter_some, hid], by simp [formatRouteCachePeer, hid]⟩
  obtain ⟨hl, hltext⟩ | ⟨p, hl, hltext⟩ := hformat left
  · obtain ⟨hr, _⟩ | ⟨q, _, hrtext⟩ := hformat right
    · rw [hl, hr]
    · rw [hltext, hrtext] at h
      exact absurd h.symm (peerKey_ne_dash q.kind q.id)
  · obtain ⟨_, hrtext⟩ | ⟨q, hr, hrtext⟩ := hformat right
    · rw [hltext, hrtext] at h
      exact absurd h (peerKey_ne_dash p.kind p.id)
    · rw [hltext, hrtext] at h
      obtain ⟨hkind, hid⟩ := peerKey_injective h
      rw [hl, hr]
      cases p
      cases q
      simp_all

theorem formatRoleIdsCacheKey_eq (roleIds : List JsString) :
    (roleIds = [] ∧ formatRoleIdsCacheKey roleIds = js "-") ∨
      ∃ sorted, sorted ≠ [] ∧ (∀ role, role ∈ sorted ↔ role ∈ roleIds) ∧
        formatRoleIdsCacheKey roleIds = Fields.join COMMA sorted := by
  match roleIds with
  | [] => exact Or.inl ⟨rfl, rfl⟩
  | [role] => exact Or.inr ⟨[role], by simp, by simp, rfl⟩
  | [first, second] =>
      refine Or.inr ?_
      simp only [formatRoleIdsCacheKey]
      split
      · exact ⟨[first, second], by simp, by simp, rfl⟩
      · exact ⟨[second, first], by simp, by simp [or_comm], rfl⟩
  | first :: second :: third :: rest =>
      refine Or.inr ⟨(first :: second :: third :: rest).insertionSort (· ≤ ·), ?_, ?_, rfl⟩
      · intro hnil
        have hlength := congrArg List.length hnil
        rw [List.length_insertionSort] at hlength
        simp at hlength
      · intro role
        exact (List.perm_insertionSort _ _).mem_iff

theorem tab_notMem_formatRoleIdsCacheKey {roleIds : List JsString}
    (h : ∀ role ∈ roleIds, TAB ∉ role) : TAB ∉ formatRoleIdsCacheKey roleIds := by
  obtain ⟨-, htext⟩ | ⟨sorted, -, hmem, htext⟩ := formatRoleIdsCacheKey_eq roleIds
  · rw [htext]
    decide
  · rw [htext]
    intro htab
    obtain hsep | ⟨role, hrole, hin⟩ := Fields.mem_join htab
    · exact absurd hsep (by decide)
    · exact h role ((hmem role).mp hrole) hin

theorem formatRoleIdsCacheKey_injective {left right : List JsString}
    (hleft : ∀ role ∈ left, role ≠ js "-" ∧ COMMA ∉ role)
    (hright : ∀ role ∈ right, role ≠ js "-" ∧ COMMA ∉ role)
    (h : formatRoleIdsCacheKey left = formatRoleIdsCacheKey right) (role : JsString) :
    role ∈ left ↔ role ∈ right := by
  -- A list that writes a dash reads back as the list of the dash alone.
  have hdash : ∀ sorted : List JsString, sorted ≠ [] →
      (∀ role ∈ sorted, role ≠ js "-" ∧ COMMA ∉ role) → js "-" ≠ Fields.join COMMA sorted := by
    intro sorted hne hroles hjoin
    have hcomma : ∀ field ∈ [js "-"], COMMA ∉ field := by decide
    have hsingle : [js "-"] = sorted := Fields.join_injective (by simp) hne hcomma
      (fun role hrole => (hroles role hrole).2) hjoin
    exact (hroles (js "-") (by rw [← hsingle]; simp)).1 rfl
  obtain ⟨hl, hltext⟩ | ⟨sorted, hne, hmem, hltext⟩ := formatRoleIdsCacheKey_eq left
  · obtain ⟨hr, _⟩ | ⟨sorted', hne', hmem', hrtext⟩ := formatRoleIdsCacheKey_eq right
    · rw [hl, hr]
    · rw [hltext, hrtext] at h
      exact absurd h (hdash sorted' hne' fun r hr => hright r ((hmem' r).mp hr))
  · obtain ⟨_, hrtext⟩ | ⟨sorted', hne', hmem', hrtext⟩ := formatRoleIdsCacheKey_eq right
    · rw [hltext, hrtext] at h
      exact absurd h.symm (hdash sorted hne fun r hr => hleft r ((hmem r).mp hr))
    · rw [hltext, hrtext] at h
      have hsorted : sorted = sorted' := Fields.join_injective hne hne'
        (fun r hr => (hleft r ((hmem r).mp hr)).2) (fun r hr => (hright r ((hmem' r).mp hr)).2) h
      rw [← hmem role, ← hmem' role, hsorted]

theorem dmScope_text_injective {left right : DmScope} (h : left.text = right.text) :
    left = right := by
  cases left <;> cases right <;> first | rfl | exact absurd h (by decide)

theorem sameRouting_of_cacheKey_eq {s t : RouteScope} (hs : s.Unambiguous) (ht : t.Unambiguous)
    (hsaccount : TAB ∉ s.accountId) (htaccount : TAB ∉ t.accountId)
    (h : buildResolvedRouteCacheKey s = buildResolvedRouteCacheKey t) : SameRouting s t := by
  have htext : ∀ dmScope : DmScope, TAB ∉ dmScope.text := by
    intro dmScope
    cases dmScope <;> decide
  have hfilter : ∀ peer : Option ScopePeer, (∀ p ∈ peer, p.id ≠ [] ∧ TAB ∉ p.id) →
      peer.filter (fun p => p.id ≠ []) = peer := by
    intro peer hpeer
    cases peer with
    | none => rfl
    | some p => simp [Option.filter_some, (hpeer p rfl).1]
  -- The fields are read back from the last to the first.
  unfold buildResolvedRouteCacheKey at h
  obtain ⟨h, hdmScope⟩ := Fields.sep_append_inj (htext _) (htext _) h
  obtain ⟨h, hroles⟩ := Fields.sep_append_inj
    (tab_notMem_formatRoleIdsCacheKey fun role hrole => (hs.memberRoleIds role hrole).2.1)
    (tab_notMem_formatRoleIdsCacheKey fun role hrole => (ht.memberRoleIds role hrole).2.1) h
  obtain ⟨h, hteam⟩ := Fields.sep_append_inj
    (tab_notMem_orDash hs.teamId.2) (tab_notMem_orDash ht.teamId.2) h
  obtain ⟨h, hguild⟩ := Fields.sep_append_inj
    (tab_notMem_orDash hs.guildId.2) (tab_notMem_orDash ht.guildId.2) h
  obtain ⟨h, hparent⟩ := Fields.sep_append_inj
    (tab_notMem_formatRouteCachePeer hs.parentPeer)
    (tab_notMem_formatRouteCachePeer ht.parentPeer) h
  obtain ⟨h, hpeer⟩ := Fields.sep_append_inj
    (tab_notMem_formatRouteCachePeer fun p hp => (hs.peer p hp).2)
    (tab_notMem_formatRouteCachePeer fun p hp => (ht.peer p hp).2) h
  obtain ⟨hchannel, haccount⟩ := Fields.sep_append_inj hsaccount htaccount h
  exact {
    channel := hchannel
    accountId := haccount
    peer := by
      rw [← hfilter s.peer hs.peer, ← hfilter t.peer ht.peer]
      exact formatRouteCachePeer_injective hpeer
    parentWithId := formatRouteCachePeer_injective hparent
    guildId := orDash_injective hs.guildId.1 ht.guildId.1 hguild
    teamId := orDash_injective hs.teamId.1 ht.teamId.1 hteam
    memberRoleIds := formatRoleIdsCacheKey_injective
      (fun role hrole => ⟨(hs.memberRoleIds role hrole).1, (hs.memberRoleIds role hrole).2.2⟩)
      (fun role hrole => ⟨(ht.memberRoleIds role hrole).1, (ht.memberRoleIds role hrole).2.2⟩)
      hroles
    dmScope := dmScope_text_injective hdmScope }

/-! ## Transparency -/

section Transparency

variable [UnicodeCase]

def CollidingCallsAgree (cfg : RoutingConfig) (calls : List RouteCall) : Prop :=
  ∀ a ∈ calls, ∀ b ∈ calls, usesRouteCache cfg a = true → usesRouteCache cfg b = true →
    buildResolvedRouteCacheKey (routeScope cfg a.input) =
      buildResolvedRouteCacheKey (routeScope cfg b.input) →
    SameRouting (routeScope cfg a.input) (routeScope cfg b.input)

theorem collidingCallsAgree_of_unambiguous {cfg : RoutingConfig} {calls : List RouteCall}
    (h : ∀ call ∈ calls, (routeScope cfg call.input).Unambiguous) :
    CollidingCallsAgree cfg calls := by
  intro a ha b hb _ _ hkey
  exact sameRouting_of_cacheKey_eq (h a ha) (h b hb) (tab_notMem_normalizeAccountId _)
    (tab_notMem_normalizeAccountId _) hkey

theorem resolveAll_eq_map {cfg : RoutingConfig} {earlier calls : List RouteCall}
    {caches : RoutingCaches} (hafter : caches.After cfg earlier)
    (h : CollidingCallsAgree cfg (earlier ++ calls)) :
    (resolveAll cfg calls caches).1 =
      calls.map fun call => plainRoute cfg (routeScope cfg call.input) := by
  induction calls generalizing earlier caches with
  | nil => rfl
  | cons call rest ih =>
      obtain ⟨hroute, hnext⟩ := resolveAgentRoute_spec hafter call
      have hthis : (resolveAgentRoute cfg call caches).1 =
          plainRoute cfg (routeScope cfg call.input) := by
        rcases hroute with hown | ⟨huses, other, hother, hcached, hkey, hvalue⟩
        · exact hown
        · -- A hit on the key of another call is harmless: the two agree.
          have hsame := h call (by simp) other (by simp [hother]) huses hcached hkey
          rw [hvalue, hsame.plainRoute_eq cfg]
      have hrest := ih hnext (by simpa using h)
      simp only [resolveAll, List.map_cons, hthis, hrest]

/-- When the calls that share a key have the same routing data, every call of the sequence
returns the route that it returns with empty caches, and a shared key means a shared route. -/
theorem route_cache_transparent (cfg : RoutingConfig) (calls : List RouteCall)
    (h : CollidingCallsAgree cfg calls) :
    (resolveAll cfg calls RoutingCaches.empty).1 = calls.map (uncachedRoute cfg) ∧
      ∀ a ∈ calls, ∀ b ∈ calls, usesRouteCache cfg a = true → usesRouteCache cfg b = true →
        buildResolvedRouteCacheKey (routeScope cfg a.input) =
          buildResolvedRouteCacheKey (routeScope cfg b.input) →
        uncachedRoute cfg a = uncachedRoute cfg b := by
  constructor
  · rw [resolveAll_eq_map (after_nil cfg) (by simpa using h)]
    exact List.map_congr_left fun call _ => (uncachedRoute_eq_plainRoute cfg call).symm
  · intro a ha b hb hausesCache hbusesCache hkey
    rw [uncachedRoute_eq_plainRoute, uncachedRoute_eq_plainRoute,
      (h a ha b hb hausesCache hbusesCache hkey).plainRoute_eq cfg]

theorem resolveAll_of_shared_key (cfg : RoutingConfig) (a b : RouteCall)
    (ha : usesRouteCache cfg a = true) (hb : usesRouteCache cfg b = true)
    (hkey : buildResolvedRouteCacheKey (routeScope cfg a.input) =
      buildResolvedRouteCacheKey (routeScope cfg b.input)) :
    (resolveAll cfg [a, b] RoutingCaches.empty).1 = [uncachedRoute cfg a, uncachedRoute cfg a] := by
  have hfirst : (resolveAgentRoute cfg a RoutingCaches.empty).2.resolvedRoutes =
      some (Memo.store MAX_RESOLVED_ROUTE_CACHE_KEYS ∅
        (buildResolvedRouteCacheKey (routeScope cfg a.input)) (uncachedRoute cfg a)) := by
    simp [resolveAgentRoute, uncachedRoute, ha, RoutingCaches.empty]
  have hsecond : (resolveAgentRoute cfg b (resolveAgentRoute cfg a RoutingCaches.empty).2).1 =
      uncachedRoute cfg a := by
    rw [hkey] at hfirst
    rw [resolveAgentRoute]
    simp [hb, hfirst, Memo.lookup_store]
  simp only [resolveAll, hsecond]
  rfl

end Transparency

/-! ## A collision -/

def emptyConfig : RoutingConfig where
  agents := []
  bindings := []
  session := none

def discordCall (peer : Option RoutePeer) : RouteCall where
  verbose := false
  input :=
    { channel := js "discord"
      accountId := none
      peer := peer
      parentPeer := none
      guildId := none
      teamId := none
      memberRoleIds := none }

/-- A call without a peer, then one from a group without an id: both keys write a dash. -/
def collidingCalls : List RouteCall :=
  [discordCall none, discordCall (some { kind := .group, id := .text [] })]

theorem route_cache_not_transparent :
    ¬ ∀ (cfg : RoutingConfig) (calls : List RouteCall),
      (@resolveAll asciiCase cfg calls RoutingCaches.empty).1 =
        calls.map (@uncachedRoute asciiCase cfg) := by
  intro h
  have hrun := h emptyConfig collidingCalls
  rw [collidingCalls, @resolveAll_of_shared_key asciiCase _ _ _ (by decide) (by decide)
    (by decide)] at hrun
  simp only [List.map_cons, List.map_nil, List.cons.injEq, and_true, true_and,
    @uncachedRoute_eq_plainRoute asciiCase] at hrun
  exact absurd (congrArg ResolvedAgentRoute.sessionKey hrun) (by decide +kernel)

def groupCalls : List RouteCall :=
  [discordCall (some { kind := .group, id := .text (js "42") }),
    discordCall (some { kind := .channel, id := .text (js "42") }),
    discordCall (some { kind := .group, id := .text (js "42") })]

theorem route_cache_transparent_groupCalls :
    (@resolveAll asciiCase emptyConfig groupCalls RoutingCaches.empty).1 =
      groupCalls.map (@uncachedRoute asciiCase emptyConfig) := by
  have hunambiguous : ∀ call ∈ groupCalls,
      (@routeScope asciiCase emptyConfig call.input).Unambiguous := by
    intro call hcall
    simp only [groupCalls, List.mem_cons, List.not_mem_nil, or_false] at hcall
    rcases hcall with rfl | rfl | rfl <;> constructor <;> decide
  exact (@route_cache_transparent asciiCase emptyConfig groupCalls
    (@collidingCallsAgree_of_unambiguous asciiCase _ _ hunambiguous)).1

end GreenchClaw.Routing
