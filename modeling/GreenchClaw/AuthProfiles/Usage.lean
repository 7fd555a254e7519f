import GreenchClaw.Config.ProviderIds
import GreenchClaw.Js.Map
import GreenchClaw.Lib.Transition
import Mathlib.Algebra.Order.Ring.Rat

/-!
# When an auth profile is unusable

`src/agents/auth-profiles/usage-state.ts`: the three windows of a profile (blocked, cooling down and
disabled), the model that a cooldown is for, and the clearing of windows that have passed.
-/

namespace GreenchClaw.AuthProfiles

open GreenchClaw.Js
open GreenchClaw.Config (normalizeProviderId)

inductive AuthProfileFailureReason where
  | auth
  | authPermanent
  | format
  | overloaded
  | rateLimit
  | billing
  | timeout
  | modelNotFound
  | sessionExpired
  | emptyResponse
  | noErrorDetails
  | unclassified
  | unknown
  deriving DecidableEq

inductive AuthProfileBlockedReason where
  | subscriptionLimit
  deriving DecidableEq

inductive AuthProfileBlockedSource where
  | codexRateLimits
  | wham
  deriving DecidableEq

structure ProfileUsageStats where
  lastUsed : Option ℚ := none
  blockedUntil : Option ℚ := none
  blockedReason : Option AuthProfileBlockedReason := none
  blockedSource : Option AuthProfileBlockedSource := none
  blockedModel : Option JsString := none
  cooldownUntil : Option ℚ := none
  cooldownReason : Option AuthProfileFailureReason := none
  cooldownModel : Option JsString := none
  disabledUntil : Option ℚ := none
  disabledReason : Option AuthProfileFailureReason := none
  errorCount : ℕ := 0
  failureCounts : AuthProfileFailureReason → ℕ := fun _ => 0
  lastFailureAt : Option ℚ := none

structure AuthProfileCredential where
  provider : JsString

structure AuthProfileStore where
  profiles : Map AuthProfileCredential
  usageStats : Map ProfileUsageStats

section Provider

variable [UnicodeCase]

def isAuthCooldownBypassedForProvider (provider : JsString) : Bool :=
  normalizeProviderId provider = js "openrouter" || normalizeProviderId provider = js "kilocode"

end Provider

/-! ## Windows -/

section Windows

variable (stats : ProfileUsageStats)

def ProfileUsageStats.windows : List ℚ :=
  [stats.blockedUntil, stats.cooldownUntil, stats.disabledUntil].filterMap fun value =>
    value.filter fun until_ => 0 < until_

def resolveProfileUnusableUntil : Option ℚ := stats.windows.max?

def isActiveUnusableWindow (until_ : Option ℚ) (now : ℚ) : Bool :=
  until_.any fun value => 0 < value ∧ now < value

def shouldBypassModelScopedCooldown (now : ℚ) (forModel : Option JsString) : Bool :=
  match truthy forModel, truthy stats.cooldownModel with
  | some model, some scope =>
      stats.cooldownReason = some .rateLimit && scope ≠ model &&
        !isActiveUnusableWindow stats.disabledUntil now
  | _, _ => false

end Windows

section Store

variable [UnicodeCase] (store : AuthProfileStore)

def AuthProfileStore.stats (profileId : JsString) : ProfileUsageStats :=
  (store.usageStats.get profileId).getD {}

def AuthProfileStore.bypassed (profileId : JsString) : Bool :=
  isAuthCooldownBypassedForProvider ((store.profiles.get profileId).elim [] (·.provider))

def isProfileInCooldown (profileId : JsString) (now : ℚ) (forModel : Option JsString) : Bool :=
  if store.bypassed profileId then false
  else
    match store.usageStats.get profileId with
    | none => false
    | some stats =>
        if shouldBypassModelScopedCooldown stats now forModel then false
        else (resolveProfileUnusableUntil stats).any fun until_ => now < until_

def expired (until_ : Option ℚ) (now : ℚ) : Bool :=
  until_.any fun value => 0 < value ∧ value ≤ now

def clearExpiredStats (now : ℚ) (stats : ProfileUsageStats) : ProfileUsageStats :=
  let cooldownExpired := expired stats.cooldownUntil now
  let blockedExpired := expired stats.blockedUntil now
  let disabledExpired := expired stats.disabledUntil now
  let profileMutated := cooldownExpired || blockedExpired || disabledExpired
  let stats :=
    if cooldownExpired then
      { stats with cooldownUntil := none, cooldownReason := none, cooldownModel := none }
    else stats
  let stats :=
    if blockedExpired then
      { stats with
        blockedUntil := none
        blockedReason := none
        blockedSource := none
        blockedModel := none }
    else stats
  let stats :=
    if disabledExpired then { stats with disabledUntil := none, disabledReason := none } else stats
  if profileMutated && resolveProfileUnusableUntil stats = none then
    { stats with errorCount := 0, failureCounts := fun _ => 0 }
  else stats

def clearExpiredCooldowns (now : ℚ) : AuthProfileStore :=
  { store with
    usageStats := store.usageStats.filterMap fun stats => some (clearExpiredStats now stats) }

end Store

/-!
## Failures of an auth profile

`src/agents/auth-profiles/usage.ts`, and `markAuthProfileSuccess` of
`src/agents/auth-profiles/profiles.ts`: what a failure, a block, a success and a reset write to the
store in memory and to the one on disk.  The answer of the probe of the usage service is an input.
-/

/-! ## Backoff -/

structure AuthCooldowns where
  billingBackoffHours : Option ℚ := none
  billingBackoffHoursByProvider : Record ℚ := []
  billingMaxHours : Option ℚ := none
  authPermanentBackoffMinutes : Option ℚ := none
  authPermanentMaxMinutes : Option ℚ := none
  failureWindowHours : Option ℚ := none

structure ResolvedAuthCooldownConfig where
  billingBackoffMs : ℚ
  billingMaxMs : ℚ
  authPermanentBackoffMs : ℚ
  authPermanentMaxMs : ℚ
  failureWindowMs : ℚ

def resolvePositiveNumber (value : Option ℚ) (fallback : ℚ) : ℚ :=
  (value.filter fun number => 0 < number).getD fallback

section Backoff

variable [UnicodeCase]

def resolveAuthCooldownConfig (cooldowns : AuthCooldowns) (providerId : JsString) :
    ResolvedAuthCooldownConfig :=
  let billingOverride := (cooldowns.billingBackoffHoursByProvider.find? fun entry =>
    normalizeProviderId entry.1 = providerId).map Prod.snd
  { billingBackoffMs :=
      resolvePositiveNumber (billingOverride.or cooldowns.billingBackoffHours) 5 * 60 * 60 * 1000
    billingMaxMs := resolvePositiveNumber cooldowns.billingMaxHours 24 * 60 * 60 * 1000
    authPermanentBackoffMs :=
      resolvePositiveNumber cooldowns.authPermanentBackoffMinutes 10 * 60 * 1000
    authPermanentMaxMs := resolvePositiveNumber cooldowns.authPermanentMaxMinutes 60 * 60 * 1000
    failureWindowMs := resolvePositiveNumber cooldowns.failureWindowHours 24 * 60 * 60 * 1000 }

end Backoff

def calculateAuthProfileCooldownMs (errorCount : ℕ) : ℚ :=
  if errorCount ≤ 1 then 30000 else if errorCount ≤ 2 then 60000 else 5 * 60000

def calculateDisabledLaneBackoffMs (errorCount : ℕ) (baseMs maxMs : ℚ) : ℚ :=
  let baseMs := max 60000 baseMs
  let maxMs := max baseMs maxMs
  min maxMs (baseMs * 2 ^ min (max 1 errorCount - 1) 10)

inductive DisabledFailureReason where
  | billing
  | authPermanent
  deriving DecidableEq

def DisabledFailureReason.toReason : DisabledFailureReason → AuthProfileFailureReason
  | .billing => .billing
  | .authPermanent => .authPermanent

def disabledFailureReason : AuthProfileFailureReason → Option DisabledFailureReason
  | .billing => some .billing
  | .authPermanent => some .authPermanent
  | _ => none

def resolveDisabledFailureBackoffMs (reason : DisabledFailureReason) (errorCount : ℕ)
    (cfg : ResolvedAuthCooldownConfig) : ℚ :=
  match reason with
  | .billing => calculateDisabledLaneBackoffMs errorCount cfg.billingBackoffMs cfg.billingMaxMs
  | .authPermanent =>
      calculateDisabledLaneBackoffMs errorCount cfg.authPermanentBackoffMs cfg.authPermanentMaxMs

/-! ## The next stats -/

def keepActiveWindowOrRecompute (existingUntil : Option ℚ) (now recomputedUntil : ℚ) : ℚ :=
  (existingUntil.filter fun until_ => now < until_).getD recomputedUntil

def nextCooldownModel (existingModel modelId : Option JsString)
    (reason : AuthProfileFailureReason) : Option JsString :=
  let hasScope := (truthy existingModel).isSome
  let known := (truthy modelId).isSome
  -- another model fails: the cooldown is for all of them
  if hasScope && known && existingModel ≠ modelId then none
  else if reason = .rateLimit && !known && hasScope then none
  else if reason ≠ .rateLimit then none
  else existingModel

def computeNextProfileUsageStats (existing : ProfileUsageStats) (now : ℚ)
    (reason : AuthProfileFailureReason) (cfg : ResolvedAuthCooldownConfig)
    (modelId : Option JsString) : ProfileUsageStats :=
  let windowExpired := existing.lastFailureAt.any fun last =>
    0 < last ∧ cfg.failureWindowMs < now - last
  let previousCooldownExpired := (resolveProfileUnusableUntil existing).any fun until_ => until_ ≤ now
  let shouldResetCounters := windowExpired || previousCooldownExpired
  let nextErrorCount := (if shouldResetCounters then 0 else existing.errorCount) + 1
  let baseCounts := if shouldResetCounters then fun _ => 0 else existing.failureCounts
  let failureCounts := fun other => if other = reason then baseCounts other + 1 else baseCounts other
  let updatedStats :=
    { existing with errorCount := nextErrorCount, failureCounts, lastFailureAt := some now }
  match disabledFailureReason reason with
  | some disabled =>
      let backoffMs :=
        resolveDisabledFailureBackoffMs disabled (failureCounts disabled.toReason) cfg
      { updatedStats with
        disabledUntil := some (keepActiveWindowOrRecompute existing.disabledUntil now (now + backoffMs))
        disabledReason := some disabled.toReason }
  | none =>
      let backoffMs := calculateAuthProfileCooldownMs nextErrorCount
      let existingCooldownActive := existing.cooldownUntil.any fun until_ => now < until_
      { updatedStats with
        cooldownUntil := some (keepActiveWindowOrRecompute existing.cooldownUntil now (now + backoffMs))
        cooldownReason := some reason
        cooldownModel :=
          if existingCooldownActive then nextCooldownModel existing.cooldownModel modelId reason
          else if reason = .rateLimit then modelId else none }

/-! ## The probe -/

structure WhamCooldownProbeResult where
  cooldownMs : ℚ
  blockedUntil : Option ℚ := none
  blockedSource : Option AuthProfileBlockedSource := none

def WHAM_REASONS : List AuthProfileFailureReason :=
  [.rateLimit, .emptyResponse, .noErrorDetails, .unclassified, .unknown]

def shouldProbeWhamForFailure [UnicodeCase] (provider : JsString)
    (reason : AuthProfileFailureReason) : Bool :=
  normalizeProviderId provider = js "openai-codex" && WHAM_REASONS.contains reason

def activeUntil (existingUntil : Option ℚ) (now : ℚ) : ℚ :=
  (existingUntil.filter fun until_ => now < until_).getD 0

def applyWhamCooldownResult (existing computed : ProfileUsageStats) (now : ℚ)
    (whamResult : WhamCooldownProbeResult) : ProfileUsageStats :=
  match whamResult.blockedUntil.filter fun until_ => until_ ≠ 0 with
  | some blockedUntil =>
      { computed with
        blockedUntil := some (max (activeUntil existing.blockedUntil now) blockedUntil)
        blockedReason := some .subscriptionLimit
        blockedSource := some (whamResult.blockedSource.getD .wham)
        blockedModel := none
        cooldownUntil := none
        cooldownReason := none
        cooldownModel := none }
  | none =>
      { computed with
        cooldownUntil :=
          some (max (activeUntil existing.cooldownUntil now) (now + whamResult.cooldownMs)) }

def failureStats [UnicodeCase] (provider : JsString) (existing : ProfileUsageStats) (now : ℚ)
    (reason : AuthProfileFailureReason) (cooldowns : AuthCooldowns) (modelId : Option JsString)
    (whamResult : Option WhamCooldownProbeResult) : ProfileUsageStats :=
  let cfg := resolveAuthCooldownConfig cooldowns (normalizeProviderId provider)
  let computed := computeNextProfileUsageStats existing now reason cfg modelId
  match whamResult.filter fun _ => shouldProbeWhamForFailure provider reason with
  | some result => applyWhamCooldownResult existing computed now result
  | none => computed

def blockedStats (existing : ProfileUsageStats) (now blockedUntil : ℚ)
    (source : AuthProfileBlockedSource) (modelId : Option JsString) : ProfileUsageStats :=
  { existing with
    blockedUntil := some (max (activeUntil existing.blockedUntil now) blockedUntil)
    blockedReason := some .subscriptionLimit
    blockedSource := some source
    blockedModel := modelId
    cooldownUntil := none
    cooldownReason := none
    cooldownModel := none
    lastFailureAt := some now
    failureCounts := fun other =>
      if other = .rateLimit then existing.failureCounts other + 1 else existing.failureCounts other }

def resetUsageStats (existing : ProfileUsageStats) : ProfileUsageStats :=
  { lastUsed := existing.lastUsed, lastFailureAt := existing.lastFailureAt }

def resetSuccessfulUsageStats (existing : ProfileUsageStats) (lastUsed : ℚ) : ProfileUsageStats :=
  { resetUsageStats existing with lastUsed := some lastUsed }

/-! ## Calls -/

inductive Operation where
  | markAuthProfileFailure (reason : AuthProfileFailureReason) (cooldowns : AuthCooldowns)
      (modelId : Option JsString) (probe : Option WhamCooldownProbeResult)
  /-- The end is compared with the clock before the store is locked. -/
  | markAuthProfileBlockedUntil (blockedUntil checkedAt : ℚ) (source : AuthProfileBlockedSource)
      (modelId : Option JsString)
  | clearExpiredCooldowns
  | markAuthProfileSuccess (provider : JsString) (lastUsed : ℚ)
  | clearAuthProfileCooldown

structure UsageCall where
  now : ℚ
  profileId : JsString
  operation : Operation
  /-- Whether the lock of the store on disk was taken. -/
  locked : Bool := true

def AuthProfileStore.update (store : AuthProfileStore) (profileId : JsString)
    (updater : ProfileUsageStats → ProfileUsageStats) : AuthProfileStore :=
  { store with usageStats := store.usageStats.set profileId (updater (store.stats profileId)) }

/-- The store in memory and the one on disk, with the time of the last call.  `openedBy` is history:
the reason of the failure that opened the last window for which a profile is disabled. -/
structure AuthStores where
  memory : AuthProfileStore
  disk : AuthProfileStore
  clock : ℚ
  clock_nonneg : 0 ≤ clock
  openedBy : JsString → Option AuthProfileFailureReason

def updateAuthProfileStoreWithLock (memory disk : AuthProfileStore) (locked : Bool)
    (updater fallback : AuthProfileStore → Option AuthProfileStore) :
    AuthProfileStore × AuthProfileStore :=
  if locked then
    let updated := (updater disk).getD disk
    ({ memory with usageStats := updated.usageStats }, updated)
  else
    match fallback memory with
    | none => (memory, disk)
    | some saved => (saved, { disk with usageStats := saved.usageStats })

section Calls

variable [UnicodeCase] (resolveProviderIdForAuth : JsString → JsString)

def AuthProfileStore.counted (store : AuthProfileStore) (profileId : JsString) : Bool :=
  (store.profiles.get profileId).isSome && !store.bypassed profileId

def AuthProfileStore.provider (store : AuthProfileStore) (profileId : JsString) : JsString :=
  (store.profiles.get profileId).elim [] (·.provider)

def updatedStats (memory store : AuthProfileStore) (call : UsageCall) :
    Option (ProfileUsageStats → ProfileUsageStats) :=
  match call.operation with
  | .markAuthProfileFailure reason cooldowns modelId probe =>
      let whamResult :=
        probe.filter fun _ => shouldProbeWhamForFailure (memory.provider call.profileId) reason
      if memory.counted call.profileId && store.counted call.profileId then
        some fun existing =>
          failureStats (store.provider call.profileId) existing call.now reason cooldowns modelId
            whamResult
      else none
  | .markAuthProfileBlockedUntil blockedUntil checkedAt source modelId =>
      if memory.counted call.profileId && store.counted call.profileId && checkedAt < blockedUntil then
        some fun existing => blockedStats existing call.now blockedUntil source modelId
      else none
  | .clearExpiredCooldowns => none
  | .markAuthProfileSuccess provider lastUsed =>
      if (store.profiles.get call.profileId).any fun profile =>
          resolveProviderIdForAuth profile.provider = resolveProviderIdForAuth provider then
        some fun existing => resetSuccessfulUsageStats existing lastUsed
      else none
  | .clearAuthProfileCooldown =>
      if (store.usageStats.get call.profileId).isSome then some resetUsageStats else none

def returnsEarly (memory : AuthProfileStore) (call : UsageCall) : Bool :=
  match call.operation with
  | .markAuthProfileFailure _ _ _ _ => !memory.counted call.profileId
  | .markAuthProfileBlockedUntil blockedUntil checkedAt _ _ =>
      !memory.counted call.profileId || decide (blockedUntil ≤ checkedAt)
  | _ => false

def applyCall (memory disk : AuthProfileStore) (call : UsageCall) :
    AuthProfileStore × AuthProfileStore :=
  match call.operation with
  | .clearExpiredCooldowns => (clearExpiredCooldowns memory call.now, disk)
  | _ =>
      if returnsEarly memory call then (memory, disk)
      else
        let updater := fun store =>
          (updatedStats resolveProviderIdForAuth memory store call).map (store.update call.profileId)
        updateAuthProfileStoreWithLock memory disk call.locked updater updater

def readStore (memory disk : AuthProfileStore) (call : UsageCall) : AuthProfileStore :=
  if call.locked then disk else memory

def opensDisabled (memory disk : AuthProfileStore) (call : UsageCall) :
    Option AuthProfileFailureReason :=
  match call.operation with
  | .markAuthProfileFailure reason _ _ _ =>
      let store := readStore memory disk call
      if memory.counted call.profileId && store.counted call.profileId &&
          !isActiveUnusableWindow (store.stats call.profileId).disabledUntil call.now then
        (disabledFailureReason reason).map DisabledFailureReason.toReason
      else none
  | _ => none

/-- Calls come at non-decreasing times; a block is checked before its store is updated. -/
def step (stores : AuthStores) (call : UsageCall) : Option AuthStores :=
  if h : stores.clock ≤ call.now then
    let (memory, disk) := applyCall resolveProviderIdForAuth stores.memory stores.disk call
    some
      { memory, disk
        clock := call.now
        clock_nonneg := stores.clock_nonneg.trans h
        openedBy := fun profileId =>
          if profileId = call.profileId then
            (opensDisabled stores.memory stores.disk call).or (stores.openedBy profileId)
          else stores.openedBy profileId }
  else none

end Calls

end GreenchClaw.AuthProfiles
