import Mathlib.Data.List.Sort
import GreenchClaw.Lib.Fields
import GreenchClaw.Lib.Memo
import GreenchClaw.Routing.IndexedScan

/-!
# The caches of the router

`resolveAgentRoute` keeps the evaluated bindings of a channel and account, and the routes it
has resolved, in maps that belong to the configuration object.  The model is for one such
object, so the references that would drop a cache of another one never change.
-/

namespace GreenchClaw.Routing

open GreenchClaw.Js FirstMatch

/-! ## Keys -/

def TAB : CodeUnit := unit '\t'

def COMMA : CodeUnit := unit ','

def evaluatedCacheKey (channel accountId : JsString) : JsString :=
  channel ++ TAB :: accountId

def formatRouteCachePeer (peer : Option ScopePeer) : JsString :=
  match peer with
  | none => js "-"
  | some peer => if peer.id = [] then js "-" else peerKey peer.kind peer.id

def formatRoleIdsCacheKey (roleIds : List JsString) : JsString :=
  match roleIds with
  | [] => js "-"
  | [role] => role
  | [first, second] =>
      if first ≤ second then Fields.join COMMA [first, second]
      else Fields.join COMMA [second, first]
  | roleIds => Fields.join COMMA (roleIds.insertionSort (· ≤ ·))

def orDash (value : JsString) : JsString :=
  if value = [] then js "-" else value

def buildResolvedRouteCacheKey (scope : RouteScope) : JsString :=
  scope.channel ++ TAB :: scope.accountId ++ TAB :: formatRouteCachePeer scope.peer ++
    TAB :: formatRouteCachePeer scope.parentPeer ++ TAB :: orDash scope.guildId ++
    TAB :: orDash scope.teamId ++ TAB :: formatRoleIdsCacheKey scope.memberRoleIds ++
    TAB :: scope.dmScope.text

/-! ## The caches -/

def MAX_EVALUATED_BINDINGS_CACHE_KEYS : Nat := 2000

def MAX_RESOLVED_ROUTE_CACHE_KEYS : Nat := 4000

structure EvaluatedBindingsCache where
  byChannel : AList fun _ : JsString => EvaluatedBindingsByChannel
  byChannelAccount : Memo.Table JsString (List EvaluatedBinding)
  byChannelAccountIndex : Memo.Table JsString EvaluatedBindingsIndex

/-- What the two weak maps hold for the configuration object. -/
structure RoutingCaches where
  evaluatedBindings : Option EvaluatedBindingsCache
  resolvedRoutes : Option (Memo.Table JsString ResolvedAgentRoute)

def RoutingCaches.empty : RoutingCaches where
  evaluatedBindings := none
  resolvedRoutes := none

section Resolve

variable [UnicodeCase]

def getEvaluatedBindingsForChannelAccount (cfg : RoutingConfig) (channel accountId : JsString)
    (existing : Option EvaluatedBindingsCache) :
    List EvaluatedBinding × EvaluatedBindingsCache :=
  let cache := existing.getD
    { byChannel := buildEvaluatedBindingsByChannel cfg
      byChannelAccount := ∅
      byChannelAccountIndex := ∅ }
  let cacheKey := evaluatedCacheKey channel accountId
  match cache.byChannelAccount.lookup cacheKey with
  | some hit => (hit, cache)
  | none =>
      let evaluated := mergeEvaluatedBindingsInSourceOrder
        (accountScopedOf cache.byChannel channel accountId)
        (anyAccountOf cache.byChannel channel)
      let index := buildEvaluatedBindingsIndex evaluated
      let byChannelAccount := cache.byChannelAccount.insert cacheKey evaluated
      let byChannelAccountIndex := cache.byChannelAccountIndex.insert cacheKey index
      -- Both maps are emptied by the size of the first.
      if MAX_EVALUATED_BINDINGS_CACHE_KEYS < byChannelAccount.entries.length then
        (evaluated,
          { cache with
            byChannelAccount := (∅ : Memo.Table _ _).insert cacheKey evaluated
            byChannelAccountIndex := (∅ : Memo.Table _ _).insert cacheKey index })
      else
        (evaluated,
          { cache with
            byChannelAccount := byChannelAccount
            byChannelAccountIndex := byChannelAccountIndex })

def getEvaluatedBindingIndexForChannelAccount (cfg : RoutingConfig)
    (channel accountId : JsString) (existing : Option EvaluatedBindingsCache) :
    EvaluatedBindingsIndex × EvaluatedBindingsCache :=
  let (bindings, cache) := getEvaluatedBindingsForChannelAccount cfg channel accountId existing
  let cacheKey := evaluatedCacheKey channel accountId
  match cache.byChannelAccountIndex.lookup cacheKey with
  | some indexed => (indexed, cache)
  | none =>
      let built := buildEvaluatedBindingsIndex bindings
      (built,
        { cache with byChannelAccountIndex := cache.byChannelAccountIndex.insert cacheKey built })

def routeThroughIndex (cfg : RoutingConfig) (scope : RouteScope)
    (existing : Option EvaluatedBindingsCache) : ResolvedAgentRoute × EvaluatedBindingsCache :=
  let (_, cache) :=
    getEvaluatedBindingsForChannelAccount cfg scope.channel scope.accountId existing
  let (index, cache) :=
    getEvaluatedBindingIndexForChannelAccount cfg scope.channel scope.accountId (some cache)
  (indexedRoute cfg index scope, cache)

structure RouteCall where
  verbose : Bool
  input : ResolveAgentRouteInput

def usesRouteCache (cfg : RoutingConfig) (call : RouteCall) : Bool :=
  !call.verbose && (sessionIdentityLinks cfg).isNone

def resolveAgentRoute (cfg : RoutingConfig) (call : RouteCall) (caches : RoutingCaches) :
    ResolvedAgentRoute × RoutingCaches :=
  let scope := routeScope cfg call.input
  if usesRouteCache cfg call then
    let routeCache := caches.resolvedRoutes.getD ∅
    let routeCacheKey := buildResolvedRouteCacheKey scope
    match routeCache.lookup routeCacheKey with
    | some cachedRoute => (cachedRoute, { caches with resolvedRoutes := some routeCache })
    | none =>
        let (route, evaluatedBindings) := routeThroughIndex cfg scope caches.evaluatedBindings
        (route,
          { evaluatedBindings := some evaluatedBindings
            resolvedRoutes :=
              some (Memo.store MAX_RESOLVED_ROUTE_CACHE_KEYS routeCache routeCacheKey route) })
  else
    let (route, evaluatedBindings) := routeThroughIndex cfg scope caches.evaluatedBindings
    (route, { caches with evaluatedBindings := some evaluatedBindings })

def resolveAll (cfg : RoutingConfig) : List RouteCall → RoutingCaches →
    List ResolvedAgentRoute × RoutingCaches
  | [], caches => ([], caches)
  | call :: calls, caches =>
      let (route, caches) := resolveAgentRoute cfg call caches
      let (routes, caches) := resolveAll cfg calls caches
      (route :: routes, caches)

def uncachedRoute (cfg : RoutingConfig) (call : RouteCall) : ResolvedAgentRoute :=
  (resolveAgentRoute cfg call RoutingCaches.empty).1

/-! ## The evaluated bindings are kept faithfully -/

structure EvaluatedBindingsCache.Faithful (cfg : RoutingConfig)
    (cache : EvaluatedBindingsCache) : Prop where
  byChannel : cache.byChannel = buildEvaluatedBindingsByChannel cfg
  byChannelAccount : Memo.Holds
    (fun key bindings => ∀ channel accountId, TAB ∉ accountId →
      key = evaluatedCacheKey channel accountId →
        bindings = scopedBindings cfg channel accountId)
    cache.byChannelAccount
  byChannelAccountIndex : Memo.Holds
    (fun key index => ∀ channel accountId, TAB ∉ accountId →
      key = evaluatedCacheKey channel accountId →
        index = buildEvaluatedBindingsIndex (scopedBindings cfg channel accountId))
    cache.byChannelAccountIndex

theorem tab_notMem_normalizeAccountId (accountId : Option JsString) :
    TAB ∉ normalizeAccountId accountId := by
  intro hmem
  exact absurd (isIdUnit_of_mem_normalizeAccountId hmem) (by decide)

variable {cfg : RoutingConfig} (channel : JsString) {accountId : JsString}

theorem faithful_new :
    EvaluatedBindingsCache.Faithful cfg
      { byChannel := buildEvaluatedBindingsByChannel cfg
        byChannelAccount := ∅
        byChannelAccountIndex := ∅ } where
  byChannel := rfl
  byChannelAccount := Memo.holds_empty _
  byChannelAccountIndex := Memo.holds_empty _

omit [UnicodeCase] in
theorem faithful_entry {ν : Type} (value : JsString → JsString → ν)
    (haccount : TAB ∉ accountId) :
    ∀ channel' accountId', TAB ∉ accountId' →
      evaluatedCacheKey channel accountId = evaluatedCacheKey channel' accountId' →
        value channel accountId = value channel' accountId' := by
  intro channel' accountId' haccount' hkey
  obtain ⟨rfl, rfl⟩ := Fields.sep_append_inj haccount haccount' hkey
  rfl

theorem getEvaluatedBindings_spec {existing : Option EvaluatedBindingsCache}
    (hexisting : ∀ cache ∈ existing, cache.Faithful cfg) (haccount : TAB ∉ accountId) :
    let result := getEvaluatedBindingsForChannelAccount cfg channel accountId existing
    result.1 = scopedBindings cfg channel accountId ∧ result.2.Faithful cfg := by
  have hcache : (existing.getD
      { byChannel := buildEvaluatedBindingsByChannel cfg
        byChannelAccount := ∅
        byChannelAccountIndex := ∅ }).Faithful cfg := by
    cases existing with
    | none => exact faithful_new
    | some cache => exact hexisting cache rfl
  unfold getEvaluatedBindingsForChannelAccount
  generalize existing.getD _ = cache at hcache ⊢
  cases hhit : cache.byChannelAccount.lookup (evaluatedCacheKey channel accountId) with
  | some hit =>
      simp only [hhit]
      exact ⟨hcache.byChannelAccount _ _ hhit channel accountId haccount rfl, hcache⟩
  | none =>
      have hmerge := merge_byChannel cfg channel accountId
      rw [← hcache.byChannel] at hmerge
      simp only [hhit, hmerge]
      have hentry := faithful_entry channel (scopedBindings cfg) haccount
      have hindex := faithful_entry channel
        (fun channel accountId => buildEvaluatedBindingsIndex (scopedBindings cfg channel accountId))
        haccount
      split
      · refine ⟨rfl, hcache.byChannel, ?_, ?_⟩
        · exact Memo.holds_insert (Memo.holds_empty _) hentry
        · exact Memo.holds_insert (Memo.holds_empty _) hindex
      · refine ⟨rfl, hcache.byChannel, ?_, ?_⟩
        · exact Memo.holds_insert hcache.byChannelAccount hentry
        · exact Memo.holds_insert hcache.byChannelAccountIndex hindex

theorem getEvaluatedBindingIndex_spec {existing : Option EvaluatedBindingsCache}
    (hexisting : ∀ cache ∈ existing, cache.Faithful cfg) (haccount : TAB ∉ accountId) :
    let result := getEvaluatedBindingIndexForChannelAccount cfg channel accountId existing
    result.1 = buildEvaluatedBindingsIndex (scopedBindings cfg channel accountId) ∧
      result.2.Faithful cfg := by
  obtain ⟨hbindings, hcache⟩ :=
    getEvaluatedBindings_spec channel hexisting haccount
  unfold getEvaluatedBindingIndexForChannelAccount
  generalize getEvaluatedBindingsForChannelAccount cfg channel accountId existing = got at *
  obtain ⟨bindings, cache⟩ := got
  simp only at hbindings hcache ⊢
  cases hindexed : cache.byChannelAccountIndex.lookup (evaluatedCacheKey channel accountId) with
  | some indexed =>
      exact ⟨hcache.byChannelAccountIndex _ _ hindexed channel accountId haccount rfl, hcache⟩
  | none =>
      simp only [hbindings]
      refine ⟨trivial, hcache.byChannel, hcache.byChannelAccount, ?_⟩
      exact Memo.holds_insert hcache.byChannelAccountIndex (faithful_entry channel
        (fun channel accountId => buildEvaluatedBindingsIndex (scopedBindings cfg channel accountId))
        haccount)

/-- Whatever faithful entries the caches hold, the search through the index finds the route of
the plain scan. -/
theorem routeThroughIndex_spec (input : ResolveAgentRouteInput)
    {existing : Option EvaluatedBindingsCache}
    (hexisting : ∀ cache ∈ existing, cache.Faithful cfg) :
    let result := routeThroughIndex cfg (routeScope cfg input) existing
    result.1 = plainRoute cfg (routeScope cfg input) ∧ result.2.Faithful cfg := by
  have haccount : TAB ∉ (routeScope cfg input).accountId :=
    tab_notMem_normalizeAccountId input.accountId
  obtain ⟨-, hfirst⟩ := getEvaluatedBindings_spec (routeScope cfg input).channel hexisting haccount
  unfold routeThroughIndex
  generalize getEvaluatedBindingsForChannelAccount cfg (routeScope cfg input).channel
    (routeScope cfg input).accountId existing = got at *
  obtain ⟨hindex, hsecond⟩ := getEvaluatedBindingIndex_spec (routeScope cfg input).channel
    (fun cache (hcache : cache ∈ some got.2) => by
      rw [Option.mem_def, Option.some.injEq] at hcache
      exact hcache ▸ hfirst)
    haccount
  refine ⟨?_, hsecond⟩
  rw [← indexedRoute_eq_plainRoute cfg input, ← hindex]

/-! ## Sequences of calls -/

def RouteOfCall (cfg : RoutingConfig) (calls : List RouteCall) (key : JsString)
    (route : ResolvedAgentRoute) : Prop :=
  ∃ call ∈ calls, usesRouteCache cfg call = true ∧
    key = buildResolvedRouteCacheKey (routeScope cfg call.input) ∧
      route = plainRoute cfg (routeScope cfg call.input)

structure RoutingCaches.After (cfg : RoutingConfig) (earlier : List RouteCall)
    (caches : RoutingCaches) : Prop where
  evaluatedBindings : ∀ cache ∈ caches.evaluatedBindings, cache.Faithful cfg
  resolvedRoutes : ∀ table ∈ caches.resolvedRoutes, Memo.Holds (RouteOfCall cfg earlier) table

theorem after_nil (cfg : RoutingConfig) : RoutingCaches.empty.After cfg [] where
  evaluatedBindings := by simp [RoutingCaches.empty]
  resolvedRoutes := by simp [RoutingCaches.empty]

theorem RouteOfCall.append {earlier : List RouteCall} {key : JsString}
    {route : ResolvedAgentRoute} (h : RouteOfCall cfg earlier key route)
    (calls : List RouteCall) : RouteOfCall cfg (earlier ++ calls) key route := by
  obtain ⟨call, hcall, hrest⟩ := h
  exact ⟨call, List.mem_append_left calls hcall, hrest⟩

theorem resolveAgentRoute_spec {earlier : List RouteCall} {caches : RoutingCaches}
    (h : caches.After cfg earlier) (call : RouteCall) :
    let result := resolveAgentRoute cfg call caches
    (result.1 = plainRoute cfg (routeScope cfg call.input) ∨
      usesRouteCache cfg call = true ∧ RouteOfCall cfg earlier
        (buildResolvedRouteCacheKey (routeScope cfg call.input)) result.1) ∧
      result.2.After cfg (earlier ++ [call]) := by
  obtain ⟨hroute, hfaithful⟩ := routeThroughIndex_spec call.input h.evaluatedBindings
  unfold resolveAgentRoute
  cases huses : usesRouteCache cfg call with
  | false =>
      refine ⟨Or.inl hroute, ?_, ?_⟩
      · rintro cache ⟨⟩
        exact hfaithful
      · intro table htable
        exact (h.resolvedRoutes table htable).mono fun _ _ hentry => hentry.append [call]
  | true =>
      have htable : Memo.Holds (RouteOfCall cfg earlier) (caches.resolvedRoutes.getD ∅) := by
        cases hroutes : caches.resolvedRoutes with
        | none => exact Memo.holds_empty _
        | some table => exact h.resolvedRoutes table hroutes
      have htable' := htable.mono fun _ _ hentry => hentry.append [call]
      simp only [if_true]
      cases hlookup : (caches.resolvedRoutes.getD ∅).lookup
          (buildResolvedRouteCacheKey (routeScope cfg call.input)) with
      | some cachedRoute =>
          refine ⟨Or.inr ⟨trivial, htable _ _ hlookup⟩, h.evaluatedBindings, ?_⟩
          rintro table ⟨⟩
          exact htable'
      | none =>
          refine ⟨Or.inl hroute, ?_, ?_⟩
          · rintro cache ⟨⟩
            exact hfaithful
          · rintro table ⟨⟩
            apply Memo.holds_store htable'
            exact ⟨call, by simp, huses, rfl, hroute⟩

theorem after_resolveAll {earlier : List RouteCall} {caches : RoutingCaches}
    (h : caches.After cfg earlier) (calls : List RouteCall) :
    (resolveAll cfg calls caches).2.After cfg (earlier ++ calls) := by
  induction calls generalizing earlier caches with
  | nil => simpa [resolveAll] using h
  | cons call rest ih =>
      have hrest := ih (resolveAgentRoute_spec h call).2
      rw [List.append_assoc, List.singleton_append] at hrest
      exact hrest

theorem uncachedRoute_eq_plainRoute (cfg : RoutingConfig) (call : RouteCall) :
    uncachedRoute cfg call = plainRoute cfg (routeScope cfg call.input) := by
  obtain ⟨hroute | ⟨_, other, hother, _⟩, _⟩ := resolveAgentRoute_spec (after_nil cfg) call
  · exact hroute
  · exact absurd hother List.not_mem_nil

/-- For every configuration and input, whatever calls came before, the search through the
index of the bindings finds the route of the plain scan; a call that finds the route cache
empty returns it. -/
theorem indexed_routing_equals_plain_scan (cfg : RoutingConfig) (earlier : List RouteCall)
    (call : RouteCall) :
    (routeThroughIndex cfg (routeScope cfg call.input)
        (resolveAll cfg earlier RoutingCaches.empty).2.evaluatedBindings).1 =
      plainRoute cfg (routeScope cfg call.input) ∧
    uncachedRoute cfg call = plainRoute cfg (routeScope cfg call.input) := by
  have hafter := after_resolveAll (after_nil cfg) earlier
  refine ⟨?_, uncachedRoute_eq_plainRoute cfg call⟩
  exact (routeThroughIndex_spec call.input hafter.evaluatedBindings).1

end Resolve

end GreenchClaw.Routing
