import GreenchClaw.Sessions.RouteNormal

/-!
# The route that an update saves

An update joins the route it names with the fallback that the session gives, and the save fills
what is then still missing from the channel and the origin of the entry.
-/

namespace GreenchClaw.Sessions

open GreenchClaw.Js GreenchClaw.Routing Transition

/-! ## The route that should be saved -/

/-- What an update that names `route` is to save over the route `previous`: a field it leaves out
comes from the previous route on the same channel, and its thread from nowhere else. -/
def expectedRoute (route previous : DeliveryContext) : DeliveryContext :=
  if route.channel = none ∨ route.channel = previous.channel then
    { channel := route.channel.or previous.channel
      target := route.target.or previous.target
      accountId := route.accountId.or previous.accountId
      threadId := route.threadId }
  else route

def DeliveryContext.OtherChannel (route other : DeliveryContext) : Prop :=
  route.channel.isSome ∧ other.channel.isSome ∧ route.channel ≠ other.channel

instance (route other : DeliveryContext) : Decidable (route.OtherChannel other) :=
  inferInstanceAs (Decidable (_ ∧ _ ∧ _))

section Joined

variable {α : Type} {route previous fallback : DeliveryContext}

theorem or_inj_iff (a b c : Option α) : a.or b = a.or c ↔ (a.isSome ∨ b = c) := by
  cases a with
  | none => simp
  | some a => simp

theorem expectedRoute_channel (route previous : DeliveryContext) :
    (expectedRoute route previous).channel = route.channel.or previous.channel := by
  rw [expectedRoute]
  split
  · rfl
  · rename_i hother
    have hsome := Option.isSome_iff_ne_none.mpr (not_or.mp hother).1
    exact (Option.or_of_isSome hsome).symm

theorem expectedRoute_target (route previous : DeliveryContext) :
    (expectedRoute route previous).target =
      if route.channel = none ∨ route.channel = previous.channel then
        route.target.or previous.target
      else route.target := by
  rw [expectedRoute]
  split <;> rfl

theorem expectedRoute_accountId (route previous : DeliveryContext) :
    (expectedRoute route previous).accountId =
      if route.channel = none ∨ route.channel = previous.channel then
        route.accountId.or previous.accountId
      else route.accountId := by
  rw [expectedRoute]
  split <;> rfl

theorem expectedRoute_threadId (route previous : DeliveryContext) :
    (expectedRoute route previous).threadId = route.threadId := by
  rw [expectedRoute]
  split <;> rfl

/-- A field that is joined is the one that should be saved unless the fallback fills it from
elsewhere than the previous route on the same channel. -/
theorem joined_field_iff (hchannel : ∃ x, fallback.channel = previous.channel.or x)
    (u f p : Option α) :
    ((if route.OtherChannel fallback then u else u.or f) =
        if route.channel = none ∨ route.channel = previous.channel then u.or p else u) ↔
      (route.OtherChannel fallback ∨ u.isSome ∨
        f = if route.channel = none ∨ previous.channel.isSome then p else none) := by
  obtain ⟨x, hx⟩ := hchannel
  by_cases hother : route.OtherChannel fallback
  · have hnot : ¬(route.channel = none ∨ route.channel = previous.channel) := by
      obtain ⟨hsome, hsome', hne⟩ := hother
      rintro (hnone | hsame)
      · exact Option.isSome_iff_ne_none.mp hsome hnone
      · rw [hx, Option.or_of_isSome (hsame ▸ hsome)] at hne
        exact hne hsame
    rw [if_pos hother, if_neg hnot]
    exact iff_of_true rfl (Or.inl hother)
  · have hfilled : (route.channel = none ∨ route.channel = previous.channel) ↔
        (route.channel = none ∨ previous.channel.isSome) := by
      constructor
      · rintro (hnone | hsame)
        · exact Or.inl hnone
        · rcases Option.eq_none_or_eq_some route.channel with hnone | ⟨name, hname⟩
          · exact Or.inl hnone
          · rw [← hsame, hname]
            exact Or.inr rfl
      · rintro (hnone | hsome)
        · exact Or.inl hnone
        · by_contra hnot
          obtain ⟨hne, hdiffer⟩ := not_or.mp hnot
          have hfallback : fallback.channel = previous.channel := by
            rw [hx, Option.or_of_isSome hsome]
          apply hother
          rw [DeliveryContext.OtherChannel, hfallback]
          exact ⟨Option.isSome_iff_ne_none.mpr hne, hsome, hdiffer⟩
    have hleft : (if route.channel = none ∨ route.channel = previous.channel then u.or p else u) =
        u.or (if route.channel = none ∨ previous.channel.isSome then p else none) := by
      simp only [hfilled]
      split
      · rfl
      · rw [Option.or_none]
    rw [if_neg hother, hleft, or_inj_iff]
    exact (or_iff_right hother).symm

end Joined

variable [UnicodeCase] [ChannelNames]

/-! ## The two sides of an update -/

def LastRouteParams.route (params : LastRouteParams) : DeliveryContext :=
  params.mergedInput.getD {}

def previousRoute (existing : Option SessionEntry) : DeliveryContext :=
  (existing.bind SessionEntry.deliveryContext).getD {}

def fallbackRoute (existing : Option SessionEntry) : DeliveryContext :=
  (deliveryContextFromSession existing).getD {}

/-- The entry with what the message says about its channel and its origin. -/
def LastRouteParams.patched (params : LastRouteParams) (existing : Option SessionEntry) :
    SessionEntry :=
  applyMetaPatch (existing.getD {}) (params.metaPatch existing)

theorem normal_route (hlower : LowerCaseTwice) (hnames : NamesStable) (params : LastRouteParams) :
    params.route.normal = params.route := by
  rw [LastRouteParams.route, LastRouteParams.mergedInput, mergeDeliveryContext_eq hlower hnames,
    getD_wrap]
  exact normal_join (normal_normal hlower hnames _) (normal_normal hlower hnames _)

theorem normal_fallbackRoute (hlower : LowerCaseTwice) (hnames : NamesStable)
    (existing : Option SessionEntry) :
    (fallbackRoute existing).normal = fallbackRoute existing := by
  cases existing with
  | none => exact normal_empty
  | some entry =>
      rw [fallbackRoute, deliveryContextFromSession, normalizeSessionDeliveryFields_eq hlower hnames,
        getD_wrap]
      exact normal_join (normal_normal hlower hnames _) (normal_normal hlower hnames _)

theorem fallbackRoute_eq (hlower : LowerCaseTwice) (hnames : NamesStable) {entry : SessionEntry}
    {route : DeliveryContext} (h : entry.HasRoute route) (hnormal : route.normal = route) :
    fallbackRoute (some entry) =
      { channel := route.channel.or
          (routeChannel (entry.channel.or (entry.origin.bind SessionOrigin.provider)))
        target := route.target
        accountId := route.accountId.or
          (normalizeOptionalAccountId
            (normalizeOptionalAccountId (entry.origin.bind SessionOrigin.accountId)))
        threadId := route.threadId.or
          (normalizeOptionalThreadValue (entry.origin.bind SessionOrigin.threadId)) } := by
  have hchannel : routeChannel route.channel = route.channel :=
    congrArg DeliveryContext.channel hnormal
  have hthread : normalizeOptionalThreadValue route.threadId = route.threadId :=
    congrArg DeliveryContext.threadId hnormal
  have htarget : normalizeOptionalString route.target = route.target :=
    congrArg DeliveryContext.target hnormal
  have haccount : normalizeOptionalAccountId (normalizeOptionalAccountId route.accountId) =
      route.accountId := congrArg DeliveryContext.accountId hnormal
  rw [fallbackRoute, deliveryContextFromSession, normalizeSessionDeliveryFields_eq hlower hnames,
    getD_wrap]
  simp only [h.deliveryContext, h.lastChannel, h.lastTo, h.lastAccountId, h.lastThreadId,
    threadId_of_getD h.deliveryContext, Option.or_self, hnormal]
  simp only [DeliveryContext.normal, map_or routeChannel hchannel,
    map_or normalizeOptionalThreadValue hthread, htarget,
    map_or (fun id => normalizeOptionalAccountId (normalizeOptionalAccountId id)) haccount]
  exact route.join_self_fill _ _ _

def LastRouteParams.fallback (params : LastRouteParams) (existing : Option SessionEntry) :
    DeliveryContext :=
  if params.clearThreadFromFallback = true then
    { fallbackRoute existing with threadId := none }
  else fallbackRoute existing

theorem normal_fallback (hlower : LowerCaseTwice) (hnames : NamesStable)
    (params : LastRouteParams) (existing : Option SessionEntry) :
    (params.fallback existing).normal = params.fallback existing := by
  have hnormal := normal_fallbackRoute hlower hnames existing
  rw [LastRouteParams.fallback]
  split
  · have hchannel := congrArg DeliveryContext.channel hnormal
    have htarget := congrArg DeliveryContext.target hnormal
    have haccount := congrArg DeliveryContext.accountId hnormal
    simp only [DeliveryContext.normal] at hchannel htarget haccount ⊢
    rw [hchannel, htarget, haccount]
    rfl
  · exact hnormal

omit [UnicodeCase] [ChannelNames] in
theorem hasRoute_applyMetaPatch {entry : SessionEntry} {route : DeliveryContext}
    (h : entry.HasRoute route) (patch : Option SessionMetaPatch) :
    (applyMetaPatch entry patch).HasRoute route := by
  cases patch with
  | none => exact h
  | some patch => exact ⟨h.1, h.2, h.3, h.4, h.5⟩

theorem hasRoute_updateLastRoute (hlower : LowerCaseTwice) (hnames : NamesStable)
    {existing : Option SessionEntry} {params : LastRouteParams} {entry : SessionEntry}
    (h : updateLastRoute existing params = some entry) :
    entry.HasRoute (params.route.join (params.fallback existing)) ∧
      entry.channel = (params.patched existing).channel ∧
      entry.origin = (params.patched existing).origin := by
  have hcleared : ∀ context : Option DeliveryContext,
      (removeThreadFromDeliveryContext context).getD {} =
        { context.getD {} with threadId := none } := by
    intro context
    cases context with
    | none => rfl
    | some context => rfl
  have hfallback : (if params.clearThreadFromFallback = true then
      removeThreadFromDeliveryContext (deliveryContextFromSession existing)
    else deliveryContextFromSession existing).getD {} = params.fallback existing := by
    rw [LastRouteParams.fallback]
    split
    · exact hcleared _
    · rfl
  have hnormal := normal_join (normal_route hlower hnames params)
    (normal_fallback hlower hnames params existing)
  have hempty : DeliveryContext.join {} (params.route.join (params.fallback existing)) =
      params.route.join (params.fallback existing) := rfl
  rw [updateLastRoute] at h
  split at h
  · exact absurd h nofun
  · dsimp only at h
    rw [mergeDeliveryContext_eq hlower hnames, getD_wrap, hfallback] at h
    rw [show params.mergedInput.getD {} = params.route from rfl, normal_route hlower hnames,
      normal_fallback hlower hnames, normalizeSessionDeliveryFields_eq hlower hnames,
      Option.getD_some, hnormal] at h
    rw [show DeliveryContext.normal
      { channel := (none : Option JsString).or none } = {} from normal_empty, hempty, getD_wrap] at h
    rw [← Option.some.inj h]
    refine ⟨?_, ?_, ?_⟩
    · apply hasRoute_applyMetaPatch
      exact ⟨getD_wrap _, rfl, rfl, rfl, rfl⟩
    · rw [LastRouteParams.patched]
      cases params.metaPatch existing with
      | none => rfl
      | some patch => rfl
    · rw [LastRouteParams.patched]
      cases params.metaPatch existing with
      | none => rfl
      | some patch => rfl

/-! ## Whether the route is kept -/

def LastRouteParams.NamesOtherChannel (params : LastRouteParams) (existing : Option SessionEntry) :
    Prop :=
  params.route.OtherChannel (fallbackRoute existing)

instance (params : LastRouteParams) (existing : Option SessionEntry) :
    Decidable (params.NamesOtherChannel existing) :=
  inferInstanceAs (Decidable (params.route.OtherChannel _))

structure LastRouteParams.KeepsRoute (params : LastRouteParams) (existing : Option SessionEntry) :
    Prop where
  channel : params.route.channel.isSome ∨ (previousRoute existing).channel.isSome ∨
    ((fallbackRoute existing).channel = none ∧
      routeChannel (params.patched existing).channel = none)
  target : params.NamesOtherChannel existing ∨ params.route.target.isSome ∨
    (fallbackRoute existing).target =
      if params.route.channel = none ∨ (previousRoute existing).channel.isSome then
        (previousRoute existing).target
      else none
  accountId : params.NamesOtherChannel existing ∨ params.route.accountId.isSome ∨
    (fallbackRoute existing).accountId =
      if params.route.channel = none ∨ (previousRoute existing).channel.isSome then
        (previousRoute existing).accountId
      else none
  threadId : params.route.threadId.isSome ∨
    (normalizeOptionalThreadValue
        ((params.patched existing).origin.bind SessionOrigin.threadId) = none ∧
      (params.explicitThreadValue = none ∨ params.NamesOtherChannel existing ∨
        (fallbackRoute existing).threadId = none))

def Loaded (existing : Option SessionEntry) : Prop :=
  ∀ entry, existing = some entry → entry.HasRoute (previousRoute existing) ∧
    (previousRoute existing).normal = previousRoute existing

theorem loaded_normalize (hlower : LowerCaseTwice) (hnames : NamesStable)
    (stored : Option SessionEntry) : Loaded (stored.map normalizeSessionEntryDelivery) := by
  intro entry hentry
  obtain ⟨source, -, rfl⟩ := Option.map_eq_some_iff.mp hentry
  have hroute := (hasRoute_normalize hlower hnames source).1
  have hprevious : previousRoute (some (normalizeSessionEntryDelivery source)) =
      source.savedRoute := hroute.deliveryContext
  rw [hentry, hprevious]
  exact ⟨hroute, normal_savedRoute hlower hnames source⟩

theorem fallbackRoute_channel (hlower : LowerCaseTwice) (hnames : NamesStable)
    {existing : Option SessionEntry} (h : Loaded existing) :
    ∃ x, (fallbackRoute existing).channel = (previousRoute existing).channel.or x := by
  cases existing with
  | none => exact ⟨none, rfl⟩
  | some entry =>
      obtain ⟨hroute, hnormal⟩ := h entry rfl
      rw [fallbackRoute_eq hlower hnames hroute hnormal]
      exact ⟨_, rfl⟩

omit [UnicodeCase] [ChannelNames] in
theorem hasRoute_iff_eq {entry : SessionEntry} {route other : DeliveryContext}
    (h : entry.HasRoute route) : entry.HasRoute other ↔ route = other := by
  constructor
  · intro hother
    rw [← h.deliveryContext, hother.deliveryContext]
  · intro heq
    exact heq ▸ h

omit [UnicodeCase] [ChannelNames] in
theorem deliveryContext_eq_iff {route other : DeliveryContext} :
    route = other ↔ route.channel = other.channel ∧ route.target = other.target ∧
      route.accountId = other.accountId ∧ route.threadId = other.threadId := by
  cases route
  cases other
  exact DeliveryContext.mk.injEq .. ▸ Iff.rfl

theorem fallback_fields (params : LastRouteParams) (existing : Option SessionEntry) :
    (params.fallback existing).channel = (fallbackRoute existing).channel ∧
      (params.fallback existing).target = (fallbackRoute existing).target ∧
      (params.fallback existing).accountId = (fallbackRoute existing).accountId ∧
      (params.fallback existing).threadId =
        if params.clearThreadFromFallback = true then none
        else (fallbackRoute existing).threadId := by
  rw [LastRouteParams.fallback]
  split
  · exact ⟨rfl, rfl, rfl, rfl⟩
  · exact ⟨rfl, rfl, rfl, rfl⟩

theorem joined_fallback (params : LastRouteParams) (existing : Option SessionEntry) :
    params.route.join (params.fallback existing) =
      { channel := params.route.channel.or (fallbackRoute existing).channel
        target := if params.NamesOtherChannel existing then params.route.target
          else params.route.target.or (fallbackRoute existing).target
        accountId := if params.NamesOtherChannel existing then params.route.accountId
          else params.route.accountId.or (fallbackRoute existing).accountId
        threadId := if params.NamesOtherChannel existing then params.route.threadId
          else params.route.threadId.or
            (if params.clearThreadFromFallback = true then none
              else (fallbackRoute existing).threadId) } := by
  obtain ⟨hchannel, htarget, haccount, hthread⟩ := fallback_fields params existing
  rw [DeliveryContext.join, hchannel, htarget, haccount, hthread]
  by_cases hother : params.NamesOtherChannel existing
  · have hconflict : params.route.channel.isSome ∧ (fallbackRoute existing).channel.isSome ∧
        params.route.channel ≠ (fallbackRoute existing).channel := hother
    simp only [if_pos hother, if_pos hconflict, Option.or_of_isSome hconflict.1]
  · have hconflict : ¬(params.route.channel.isSome ∧ (fallbackRoute existing).channel.isSome ∧
        params.route.channel ≠ (fallbackRoute existing).channel) := hother
    simp only [if_neg hother, if_neg hconflict]

/-- An update that names a route saves the one that it should exactly when the condition holds of
what was loaded. -/
theorem updateLastRoute_saves_iff (hlower : LowerCaseTwice) (hnames : NamesStable)
    {existing : Option SessionEntry} {params : LastRouteParams} {entry : SessionEntry}
    (hloaded : Loaded existing) (hroute : params.explicitRouteProvided = true)
    (h : updateLastRoute existing params = some entry) :
    (normalizeSessionEntryDelivery entry).HasRoute
        (expectedRoute params.route (previousRoute existing)) ↔
      params.KeepsRoute existing := by
  obtain ⟨hjoined, hchannel, horigin⟩ := hasRoute_updateLastRoute hlower hnames h
  have hnormal := normal_join (normal_route hlower hnames params)
    (normal_fallback hlower hnames params existing)
  have hclear : params.clearThreadFromFallback = true ↔ params.explicitThreadValue = none := by
    rw [LastRouteParams.clearThreadFromFallback, hroute, Bool.true_and, Option.isNone_iff_eq_none]
  have hfallback := fallbackRoute_channel hlower hnames hloaded
  have hthread (c : Prop) [Decidable c] (u f t : Option ThreadId) :
      ((if c then u else
        u.or (if params.clearThreadFromFallback = true then none else f)).or t = u ↔
        (u.isSome ∨ (t = none ∧ (params.explicitThreadValue = none ∨ c ∨ f = none)))) := by
    rw [← hclear]
    by_cases hc : c
    · simp [hc, or_eq_left_iff]
    · by_cases hcleared : params.clearThreadFromFallback = true
      · simp [hc, hcleared, or_eq_left_iff]
      · simp [hc, hcleared, Option.or_assoc, or_eq_left_iff, and_comm]
  rw [hasRoute_iff_eq (hasRoute_normalize hlower hnames entry).1,
    savedRoute_of_hasRoute hjoined hnormal, joined_fallback, hchannel, horigin,
    deliveryContext_eq_iff]
  have hfirst : ((params.route.channel.or (fallbackRoute existing).channel).or
      (routeChannel (params.patched existing).channel) =
        params.route.channel.or (previousRoute existing).channel) ↔
      (params.route.channel.isSome ∨ (previousRoute existing).channel.isSome ∨
        ((fallbackRoute existing).channel = none ∧
          routeChannel (params.patched existing).channel = none)) := by
    obtain ⟨x, hx⟩ := hfallback
    rw [Option.or_assoc, or_inj_iff, hx]
    cases (previousRoute existing).channel with
    | none => simp
    | some name => simp
  simp only
  rw [expectedRoute_channel, expectedRoute_target, expectedRoute_accountId,
    expectedRoute_threadId, hthread, hfirst]
  constructor
  · intro ⟨hc, ht, ha, hi⟩
    exact ⟨hc, (joined_field_iff hfallback _ _ _).mp ht, (joined_field_iff hfallback _ _ _).mp ha,
      hi⟩
  · intro hkeeps
    exact ⟨hkeeps.channel, (joined_field_iff hfallback _ _ _).mpr hkeeps.target,
      (joined_field_iff hfallback _ _ _).mpr hkeeps.accountId, hkeeps.threadId⟩

/-!
## Runs of route updates

What a session's entry holds after any sequence of updates and of messages that are recorded.
-/

/-! ## One call -/

def loaded (stored : Option SessionEntry) : Option SessionEntry :=
  stored.map normalizeSessionEntryDelivery

/-- The entry with what a recorded message says about its channel and its origin. -/
def recordedEntry (existing : Option SessionEntry) (ctx : MsgContext) : SessionEntry :=
  applyMetaPatch (existing.getD {}) (deriveSessionMetaPatch ctx existing)

theorem record_cases {existing : Option SessionEntry} {ctx : MsgContext} {createIfMissing : Bool}
    {entry : SessionEntry}
    (h : recordSessionMetaFromInbound existing ctx createIfMissing = some entry) :
    entry = recordedEntry existing ctx := by
  rw [recordSessionMetaFromInbound] at h
  rw [recordedEntry]
  split at h
  · rename_i hnone
    rw [hnone, h]
    rfl
  · rename_i patch hpatch
    split at h
    · exact absurd h nofun
    · rw [hpatch]
      exact (Option.some.inj h).symm

theorem hasRoute_recordedEntry {existing : Option SessionEntry} (h : Loaded existing)
    (ctx : MsgContext) :
    (recordedEntry existing ctx).HasRoute (previousRoute existing) ∧
      (previousRoute existing).normal = previousRoute existing := by
  cases existing with
  | none =>
      refine ⟨hasRoute_applyMetaPatch ?_ _, normal_empty⟩
      exact ⟨rfl, rfl, rfl, rfl, rfl⟩
  | some entry =>
      obtain ⟨hroute, hnormal⟩ := h entry rfl
      exact ⟨hasRoute_applyMetaPatch hroute _, hnormal⟩

structure RecordKeepsRoute (existing : Option SessionEntry) (ctx : MsgContext) : Prop where
  channel : (previousRoute existing).channel.isSome ∨
    routeChannel (recordedEntry existing ctx).channel = none
  threadId : (previousRoute existing).threadId.isSome ∨
    normalizeOptionalThreadValue
      ((recordedEntry existing ctx).origin.bind SessionOrigin.threadId) = none

theorem record_saves_iff (hlower : LowerCaseTwice) (hnames : NamesStable)
    {existing : Option SessionEntry} (hloaded : Loaded existing) (ctx : MsgContext) :
    (normalizeSessionEntryDelivery (recordedEntry existing ctx)).HasRoute
        (previousRoute existing) ↔ RecordKeepsRoute existing ctx := by
  obtain ⟨hroute, hnormal⟩ := hasRoute_recordedEntry hloaded ctx
  rw [hasRoute_iff_eq (hasRoute_normalize hlower hnames _).1, savedRoute_of_hasRoute hroute hnormal,
    deliveryContext_eq_iff]
  simp only [or_eq_left_iff]
  constructor
  · intro ⟨hc, _, _, hi⟩
    exact ⟨hc, hi⟩
  · intro hkeeps
    exact ⟨hkeeps.channel, trivial, trivial, hkeeps.threadId⟩

theorem normalize_settled (hlower : LowerCaseTwice) (hnames : NamesStable) {entry : SessionEntry}
    {route : DeliveryContext} (h : entry.HasRoute route) (hnormal : route.normal = route) :
    normalizeSessionEntryDelivery (normalizeSessionEntryDelivery entry) =
      normalizeSessionEntryDelivery entry := by
  have hfilled {α : Type} (a b : Option α) : (a.or b).isSome ∨ b = none := by
    cases b with
    | none => exact Or.inr rfl
    | some b => simp
  obtain ⟨hroute, hchannel, horigin⟩ := hasRoute_normalize hlower hnames entry
  rw [settled_of_hasRoute hlower hnames hroute (normal_savedRoute hlower hnames entry), hchannel,
    horigin, savedRoute_of_hasRoute h hnormal]
  exact ⟨hfilled _ _, hfilled _ _⟩

theorem perform_settled (hlower : LowerCaseTwice) (hnames : NamesStable)
    {stored : Option SessionEntry} {action : Action} {entry : SessionEntry}
    (h : perform stored action = some entry) : normalizeSessionEntryDelivery entry = entry := by
  have hloaded := loaded_normalize hlower hnames stored
  obtain ⟨next, hnext, rfl⟩ := Option.map_eq_some_iff.mp h
  cases action with
  | updateLastRoute params =>
      have hroute := (hasRoute_updateLastRoute hlower hnames hnext).1
      apply normalize_settled hlower hnames hroute
      exact normal_join (normal_route hlower hnames params) (normal_fallback hlower hnames params _)
  | recordSessionMetaFromInbound ctx createIfMissing =>
      rw [record_cases hnext]
      obtain ⟨hroute, hnormal⟩ := hasRoute_recordedEntry hloaded ctx
      exact normalize_settled hlower hnames hroute hnormal

/-! ## Runs -/

/-- An update that names a channel or a target leaves the route that it should, and recording a
message leaves the route of the session as it was. -/
def RouteRight (stored : Option SessionEntry) (action : Action) : Prop :=
  ∀ entry, perform stored action = some entry →
    match action with
    | .updateLastRoute params =>
        params.explicitRouteProvided = true →
          entry.HasRoute (expectedRoute params.route (previousRoute (loaded stored)))
    | .recordSessionMetaFromInbound _ _ =>
        stored.isSome → entry.HasRoute (previousRoute (loaded stored))

def KeepsRoute (stored : Option SessionEntry) : Action → Prop
  | .updateLastRoute params =>
      (stored = none ∧ params.createIfMissing = false) ∨ params.explicitRouteProvided = false ∨
        params.KeepsRoute (loaded stored)
  | .recordSessionMetaFromInbound ctx _ =>
      stored = none ∨ RecordKeepsRoute (loaded stored) ctx

instance (params : LastRouteParams) (existing : Option SessionEntry) :
    Decidable (params.KeepsRoute existing) :=
  decidable_of_iff (_ ∧ _ ∧ _ ∧ _)
    ⟨fun ⟨hc, ht, ha, hi⟩ => ⟨hc, ht, ha, hi⟩, fun h => ⟨h.channel, h.target, h.accountId, h.threadId⟩⟩

instance (existing : Option SessionEntry) (ctx : MsgContext) :
    Decidable (RecordKeepsRoute existing ctx) :=
  decidable_of_iff (_ ∧ _) ⟨fun ⟨hc, hi⟩ => ⟨hc, hi⟩, fun h => ⟨h.channel, h.threadId⟩⟩

instance (stored : Option SessionEntry) (action : Action) : Decidable (KeepsRoute stored action) :=
  match action with
  | .updateLastRoute params =>
      inferInstanceAs (Decidable ((_ ∧ _) ∨ _ ∨ params.KeepsRoute (loaded stored)))
  | .recordSessionMetaFromInbound ctx _ =>
      inferInstanceAs (Decidable (_ ∨ RecordKeepsRoute (loaded stored) ctx))

theorem updateLastRoute_isSome {existing : Option SessionEntry} {params : LastRouteParams}
    (h : ¬(existing = none ∧ params.createIfMissing = false)) :
    ∃ entry, updateLastRoute existing params = some entry := by
  rw [updateLastRoute, if_neg h]
  exact ⟨_, rfl⟩

theorem record_isSome (entry : SessionEntry) (ctx : MsgContext) (createIfMissing : Bool) :
    ∃ next, recordSessionMetaFromInbound (some entry) ctx createIfMissing = some next := by
  rw [recordSessionMetaFromInbound]
  cases deriveSessionMetaPatch ctx (some entry) with
  | none => exact ⟨entry, rfl⟩
  | some patch => exact ⟨_, if_neg fun h => absurd h.1 nofun⟩

theorem routeRight_update_iff (hlower : LowerCaseTwice) (hnames : NamesStable)
    (stored : Option SessionEntry) (params : LastRouteParams) :
    RouteRight stored (.updateLastRoute params) ↔ KeepsRoute stored (.updateLastRoute params) := by
  have hloaded : Loaded (loaded stored) := loaded_normalize hlower hnames stored
  by_cases hmissing : loaded stored = none ∧ params.createIfMissing = false
  · have hnone : stored = none := Option.map_eq_none_iff.mp hmissing.1
    have hgone : perform stored (.updateLastRoute params) = none := by
      have hskip : updateLastRoute (loaded stored) params = none := if_pos hmissing
      rw [perform]
      exact congrArg (Option.map normalizeSessionEntryDelivery) hskip
    apply iff_of_true
    · intro entry hentry
      rw [hgone] at hentry
      exact absurd hentry nofun
    · exact Or.inl ⟨hnone, hmissing.2⟩
  · obtain ⟨next, hnext⟩ := updateLastRoute_isSome hmissing
    have hsaved : perform stored (.updateLastRoute params) =
        some (normalizeSessionEntryDelivery next) :=
      congrArg (Option.map normalizeSessionEntryDelivery) hnext
    have hpresent : ¬(stored = none ∧ params.createIfMissing = false) := by
      intro ⟨hnone, hcreate⟩
      rw [hnone] at hmissing
      exact hmissing ⟨rfl, hcreate⟩
    by_cases hroute : params.explicitRouteProvided = true
    · have hiff := updateLastRoute_saves_iff hlower hnames hloaded hroute hnext
      constructor
      · intro hright
        exact Or.inr (Or.inr (hiff.mp (hright _ hsaved hroute)))
      · rintro (hnone | hother | hkeeps) entry hentry -
        · exact absurd hnone hpresent
        · exact absurd (hother ▸ hroute) Bool.false_ne_true
        · rw [← Option.some.inj (hsaved.symm.trans hentry)]
          exact hiff.mpr hkeeps
    · apply iff_of_true
      · intro entry _ hnamed
        exact absurd hnamed hroute
      · exact Or.inr (Or.inl (eq_false_of_ne_true hroute))

theorem routeRight_record_iff (hlower : LowerCaseTwice) (hnames : NamesStable)
    (stored : Option SessionEntry) (ctx : MsgContext) (createIfMissing : Bool) :
    RouteRight stored (.recordSessionMetaFromInbound ctx createIfMissing) ↔
      KeepsRoute stored (.recordSessionMetaFromInbound ctx createIfMissing) := by
  have hloaded : Loaded (loaded stored) := loaded_normalize hlower hnames stored
  cases stored with
  | none =>
      apply iff_of_true
      · intro entry _ hsome
        exact absurd hsome Bool.false_ne_true
      · exact Or.inl rfl
  | some source =>
      obtain ⟨next, hnext⟩ :=
        record_isSome (normalizeSessionEntryDelivery source) ctx createIfMissing
      have hsaved : perform (some source) (.recordSessionMetaFromInbound ctx createIfMissing) =
          some (normalizeSessionEntryDelivery next) :=
        congrArg (Option.map normalizeSessionEntryDelivery) hnext
      have hiff := record_saves_iff hlower hnames hloaded ctx
      have hrecorded : next = recordedEntry (loaded (some source)) ctx := record_cases hnext
      constructor
      · intro hright
        have hroute := hright _ hsaved rfl
        rw [hrecorded] at hroute
        exact Or.inr (hiff.mp hroute)
      · rintro (hnone | hkeeps) entry hentry -
        · exact absurd hnone nofun
        · rw [← Option.some.inj (hsaved.symm.trans hentry), hrecorded]
          exact hiff.mpr hkeeps

theorem routeRight_iff (hlower : LowerCaseTwice) (hnames : NamesStable)
    (stored : Option SessionEntry) (action : Action) :
    RouteRight stored action ↔ KeepsRoute stored action := by
  cases action with
  | updateLastRoute params => exact routeRight_update_iff hlower hnames stored params
  | recordSessionMetaFromInbound ctx createIfMissing =>
      exact routeRight_record_iff hlower hnames stored ctx createIfMissing

theorem exec_settled (hlower : LowerCaseTwice) (hnames : NamesStable)
    {stored s : Option SessionEntry} {actions : List Action} (hne : actions ≠ [])
    (hexec : exec step stored actions = some s) :
    ∀ entry, s = some entry → normalizeSessionEntryDelivery entry = entry := by
  cases actions with
  | nil => exact absurd rfl hne
  | cons action rest =>
      obtain ⟨first, hfirst, hrest⟩ := exec_cons hexec
      have hstep (stored : Option SessionEntry) (action : Action) (s : Option SessionEntry)
          (h : step stored action = some s) :
          ∀ entry, s = some entry → normalizeSessionEntryDelivery entry = entry := by
        intro entry hentry
        have hsaved : perform stored action = some entry := (Option.some.inj h).trans hentry
        exact perform_settled hlower hnames hsaved
      exact invariant_exec_all
        (fun s => ∀ entry, s = some entry → normalizeSessionEntryDelivery entry = entry)
        (fun s a s' _ h => hstep s a s' h) (hstep _ _ _ hfirst) hrest

/-- The normalisation is idempotent on the entries without blanks, leaves an entry with a normalised
route alone when nothing fills it, and a run keeps the route of the session right when its calls
meet the condition, and only then. -/
theorem reply_route_kept (hlower : LowerCaseTwice) (hnames : NamesStable) :
    (∀ entry, normalizeSessionEntryDelivery (normalizeSessionEntryDelivery entry) =
      normalizeSessionEntryDelivery entry ↔ entry.Unblank) ∧
    (∀ entry route, entry.HasRoute route → route.normal = route →
      (normalizeSessionEntryDelivery entry = entry ↔
        (route.channel.isSome ∨ routeChannel entry.channel = none) ∧
          (route.threadId.isSome ∨
            normalizeOptionalThreadValue (entry.origin.bind SessionOrigin.threadId) = none))) ∧
    ∀ stored actions s, exec step stored actions = some s →
      (StepsMeet step RouteRight stored actions ↔
        StepsMeet step KeepsRoute stored actions) ∧
      (actions ≠ [] →
        ∀ entry, s = some entry → normalizeSessionEntryDelivery entry = entry) := by
  refine ⟨normalize_twice_iff hlower hnames, ?_, ?_⟩
  · intro entry route hroute hnormal
    exact settled_of_hasRoute hlower hnames hroute hnormal
  · intro stored actions s hexec
    exact ⟨stepsMeet_congr (routeRight_iff hlower hnames) stored actions,
      fun hne => exec_settled hlower hnames hne hexec⟩

omit [UnicodeCase] [ChannelNames] in
theorem reply_route_kept_otherThread :
    @StepsMeet _ _ (@step asciiCase noChannelNames) (@RouteRight asciiCase noChannelNames)
      none
      [.recordSessionMetaFromInbound
          { originatingChannel := some (js "telegram"), messageThreadId := some (.number (some 42)) }
          true,
        .updateLastRoute
          { channel := some (js "telegram")
            target := some (js "222")
            threadId := some (.number (some 7)) }] :=
  ((@reply_route_kept asciiCase noChannelNames lowerCaseTwice_ascii fun _ _ h => nomatch h).2.2
    none _ _ rfl).1.mpr (by decide +kernel)

def threadMessage : MsgContext where
  originatingChannel := some (js "telegram")
  originatingTo := some (js "111")
  messageThreadId := some (.number (some 42))

def otherChat : LastRouteParams where
  channel := some (js "telegram")
  target := some (js "222")

omit [UnicodeCase] [ChannelNames] in
/-- The thread of a recorded message goes along with the route to another chat, and a blank last
channel hides the channel of the entry from the first save only. -/
theorem stale_thread_kept :
    (∃ entry, @exec _ _ (@step asciiCase noChannelNames) none
        [.recordSessionMetaFromInbound threadMessage true, .updateLastRoute otherChat] =
          some (some entry) ∧
      entry.lastTo = some (js "222") ∧ entry.lastThreadId = some (.number (some 42)) ∧
      otherChat.threadId = none) ∧
    ∃ entry : SessionEntry,
      @normalizeSessionEntryDelivery asciiCase noChannelNames
        (@normalizeSessionEntryDelivery asciiCase noChannelNames entry) ≠
          @normalizeSessionEntryDelivery asciiCase noChannelNames entry := by
  have hrun : (@exec _ _ (@step asciiCase noChannelNames) none
      [.recordSessionMetaFromInbound threadMessage true, .updateLastRoute otherChat]).any
        (fun stored => stored.any fun entry =>
          decide (entry.lastTo = some (js "222") ∧
            entry.lastThreadId = some (.number (some 42)))) = true := by
    decide +kernel
  obtain ⟨stored, hexec, hstored⟩ := Option.any_eq_true _ _ |>.mp hrun
  obtain ⟨entry, hentry, hfields⟩ := Option.any_eq_true _ _ |>.mp hstored
  obtain ⟨hto, hthread⟩ := of_decide_eq_true hfields
  refine ⟨⟨entry, hentry ▸ hexec, hto, hthread, rfl⟩, ?_⟩
  exact ⟨{ channel := some (js "telegram"), lastChannel := some (js " ") }, by decide +kernel⟩

end GreenchClaw.Sessions
