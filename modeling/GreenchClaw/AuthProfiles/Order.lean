import GreenchClaw.AuthProfiles.Usage
import Mathlib.Data.List.Sort

/-!
# The order of auth profiles

`src/agents/auth-profiles/order.ts`, with `credential-state.ts` and `profile-list.ts`: which profiles of a
provider can be used and in which order they are tried.  The aliases of providers come from the manifests
of plugins and are a parameter.
-/

namespace GreenchClaw.AuthProfiles.Order

open GreenchClaw.Js
open GreenchClaw.Config (normalizeProviderId)

/-! ## Credentials -/

inductive SecretRefSource where
  | env
  | file
  | exec
  deriving DecidableEq

structure SecretRef where
  source : SecretRefSource
  provider : Option JsString
  id : JsString

inductive Credential where
  | apiKey (key : Option JsString) (keyRef : Option SecretRef)
  | token (token : Option JsString) (tokenRef : Option SecretRef) (expires : Option ℚ)
  | oauth (access refresh : Option JsString)

inductive AuthProfileMode where
  | apiKey
  | awsSdk
  | oauth
  | token
  deriving DecidableEq

def Credential.type : Credential → AuthProfileMode
  | .apiKey _ _ => .apiKey
  | .token _ _ _ => .token
  | .oauth _ _ => .oauth

structure StoredCredential extends AuthProfileCredential where
  credential : Credential

inductive TokenExpiryState where
  | missing
  | valid
  | expired
  | invalidExpires
  deriving DecidableEq

def resolveTokenExpiryState (expires : Option ℚ) (now : ℚ) : TokenExpiryState :=
  match expires with
  | none => .missing
  | some expires =>
      if expires ≤ 0 then .invalidExpires else if expires - now ≤ 0 then .expired else .valid

def normalizeSecretInputString (value : Option JsString) : Option JsString :=
  (value.map trim).filter fun trimmed => trimmed ≠ []

def hasConfiguredSecretString (value : Option JsString) : Bool := (normalizeSecretInputString value).isSome

/-- Whether `coerceSecretRef` takes the value for a reference. -/
def hasConfiguredSecretRef (value : Option SecretRef) : Bool :=
  value.any fun ref => trim ref.id ≠ [] ∧ ref.provider.all fun provider => trim provider ≠ []

inductive AuthProfileEligibilityReasonCode where
  | ok
  | missingCredential
  | invalidExpires
  | expired
  | profileMissing
  | providerMismatch
  | modeMismatch
  deriving DecidableEq

structure AuthProfileEligibility where
  eligible : Bool
  reasonCode : AuthProfileEligibilityReasonCode

def evaluateStoredCredentialEligibility (credential : Credential) (now : ℚ) : AuthProfileEligibility :=
  match credential with
  | .apiKey key keyRef =>
      if !hasConfiguredSecretString key && !hasConfiguredSecretRef keyRef then
        ⟨false, .missingCredential⟩
      else ⟨true, .ok⟩
  | .token token tokenRef expires =>
      if !hasConfiguredSecretString token && !hasConfiguredSecretRef tokenRef then
        ⟨false, .missingCredential⟩
      else
        match resolveTokenExpiryState expires now with
        | .invalidExpires => ⟨false, .invalidExpires⟩
        | .expired => ⟨false, .expired⟩
        | _ => ⟨true, .ok⟩
  | .oauth access refresh =>
      if normalizeSecretInputString access = none ∧ normalizeSecretInputString refresh = none then
        ⟨false, .missingCredential⟩
      else ⟨true, .ok⟩

/-! ## Stores and configurations -/

structure AuthProfileConfig where
  provider : JsString
  mode : AuthProfileMode

/-- `auth.order`, `auth.profiles` and the `auth` of `models.providers` of a configuration. -/
structure AuthConfig where
  order : Map (List JsString) := .empty
  profiles : Map AuthProfileConfig := .empty
  providers : Map (Option JsString) := .empty

structure OrderStore where
  profiles : Map StoredCredential
  order : Map (List JsString) := .empty
  usageStats : Map ProfileUsageStats := .empty

/-- `resolveProviderAuthAliasMap` for the configuration at hand and without one. -/
structure ProviderAuthAliases where
  configured : JsString → Option JsString
  unconfigured : JsString → Option JsString

def OrderStore.usage (store : OrderStore) : AuthProfileStore :=
  { profiles := store.profiles.map StoredCredential.toAuthProfileCredential
    usageStats := store.usageStats }

def OrderStore.clear (store : OrderStore) (now : ℚ) : OrderStore :=
  { store with usageStats := (clearExpiredCooldowns store.usage now).usageStats }

def OPENAI_PROVIDER_ID : JsString := js "openai"

def OPENAI_CODEX_PROVIDER_ID : JsString := js "openai-codex"

def dedupeProfileIds (profileIds : List JsString) : List JsString := profileIds.eraseDups

section Providers

variable [UnicodeCase]

def findNormalizedProviderValue {α : Type} (entries : Map α) (provider : JsString) : Option α :=
  (entries.entries.find? fun entry => normalizeProviderId entry.1 = normalizeProviderId provider).map
    Prod.snd

def resolveProviderIdForAuth (aliases : JsString → Option JsString) (provider : JsString) : JsString :=
  let normalized := normalizeProviderId provider
  if normalized = [] then normalized else (aliases normalized).getD normalized

variable (aliases : ProviderAuthAliases) (cfg : AuthConfig)

def isOpenAIApiKeyCompatibleWithCodexAuth (providerAuthKey profileProvider : JsString)
    (mode : Option AuthProfileMode) : Bool :=
  providerAuthKey = OPENAI_CODEX_PROVIDER_ID &&
    (resolveProviderIdForAuth aliases.configured profileProvider = OPENAI_PROVIDER_ID &&
      mode = some .apiKey)

def isCredentialProviderCompatibleWithAuthProvider (providerAuthKey : JsString)
    (credential : StoredCredential) : Bool :=
  resolveProviderIdForAuth aliases.configured credential.provider = providerAuthKey ||
    isOpenAIApiKeyCompatibleWithCodexAuth aliases providerAuthKey credential.provider
      (some credential.credential.type)

def isConfiguredProfileCompatibleWithAuthProvider (providerAuthKey : JsString)
    (profile : AuthProfileConfig) (credential : Option StoredCredential) : Bool :=
  resolveProviderIdForAuth aliases.configured profile.provider = providerAuthKey ||
    isOpenAIApiKeyCompatibleWithCodexAuth aliases providerAuthKey profile.provider
      ((credential.map fun stored => stored.credential.type).or (some profile.mode))

def listProfilesForProvider (store : OrderStore) (provider : JsString) : List JsString :=
  let providerKey := resolveProviderIdForAuth aliases.unconfigured provider
  (store.profiles.entries.filter fun entry =>
    resolveProviderIdForAuth aliases.unconfigured entry.2.provider = providerKey).map Prod.fst

def listProfilesCompatibleWithAuthProvider (store : OrderStore) (provider providerAuthKey : JsString) :
    List JsString :=
  if providerAuthKey ≠ OPENAI_CODEX_PROVIDER_ID then listProfilesForProvider aliases store provider
  else
    (store.profiles.entries.filter fun entry =>
      isCredentialProviderCompatibleWithAuthProvider aliases providerAuthKey entry.2).map Prod.fst

def resolveProviderAuthMode (provider : JsString) : Option JsString :=
  (findNormalizedProviderValue cfg.providers provider).bind id

def providerAllowsAwsSdkAuth (provider : JsString) : Bool :=
  let authMode := resolveProviderAuthMode cfg provider
  authMode = some (js "aws-sdk") ||
    (authMode = none && normalizeProviderId provider = js "amazon-bedrock")

def isConfiguredAwsSdkAuthProfileForProvider (provider profileId : JsString) : Bool :=
  match cfg.profiles.get profileId with
  | none => false
  | some profileConfig =>
      if profileConfig.mode ≠ .awsSdk then false
      else if resolveProviderIdForAuth aliases.configured profileConfig.provider ≠
          resolveProviderIdForAuth aliases.configured provider then false
      else providerAllowsAwsSdkAuth cfg provider

def configMismatch (providerAuthKey profileId : JsString) (stored : StoredCredential) :
    Option AuthProfileEligibilityReasonCode :=
  match cfg.profiles.get profileId with
  | none => none
  | some profileConfig =>
      if !isConfiguredProfileCompatibleWithAuthProvider aliases providerAuthKey profileConfig
          (some stored) then some .providerMismatch
      else if profileConfig.mode ≠ stored.credential.type ∧
          ¬(profileConfig.mode = .oauth ∧ stored.credential.type = .token) then some .modeMismatch
      else none

def resolveAuthProfileEligibility (store : OrderStore) (provider profileId : JsString) (now : ℚ) :
    AuthProfileEligibility :=
  let providerAuthKey := resolveProviderIdForAuth aliases.configured provider
  match store.profiles.get profileId with
  | none =>
      if isConfiguredAwsSdkAuthProfileForProvider aliases cfg provider profileId then ⟨true, .ok⟩
      else ⟨false, .profileMissing⟩
  | some stored =>
      if !isCredentialProviderCompatibleWithAuthProvider aliases providerAuthKey stored then
        ⟨false, .providerMismatch⟩
      else
        match configMismatch aliases cfg providerAuthKey profileId stored with
        | some reasonCode => ⟨false, reasonCode⟩
        | none => evaluateStoredCredentialEligibility stored.credential now

/-! ## Sources of the order -/

def mergeAliasOrderWithNativeProfiles (aliasOrder nativeProfiles : List JsString) : List JsString :=
  let aliasHasNativeProfile := aliasOrder.any fun profileId => nativeProfiles.contains profileId
  dedupeProfileIds
    (if aliasHasNativeProfile then aliasOrder ++ nativeProfiles else nativeProfiles ++ aliasOrder)

def isNativeCredentialProviderCompatibleWithAuthProvider (providerAuthKey : JsString)
    (credential : Option StoredCredential) : Bool :=
  credential.any fun stored =>
    resolveProviderIdForAuth aliases.configured stored.provider = providerAuthKey

def openAIOrderAliasProvider (provider : JsString) : Option JsString :=
  if resolveProviderIdForAuth aliases.configured provider = OPENAI_CODEX_PROVIDER_ID ∨
      normalizeProviderId provider = OPENAI_CODEX_PROVIDER_ID then some OPENAI_PROVIDER_ID
  else none

def directOrder (order : Map (List JsString)) (provider : JsString) : Option (List JsString) :=
  (findNormalizedProviderValue order (resolveProviderIdForAuth aliases.configured provider)).or
    (findNormalizedProviderValue order (normalizeProviderId provider))

def aliasOrder (order : Map (List JsString)) (provider : JsString) : Option (List JsString) :=
  (openAIOrderAliasProvider aliases provider).bind fun aliasProvider =>
    findNormalizedProviderValue order aliasProvider

def explicitProfiles (store : OrderStore) (provider : JsString) : List JsString :=
  (cfg.profiles.entries.filter fun entry =>
    isConfiguredProfileCompatibleWithAuthProvider aliases
      (resolveProviderIdForAuth aliases.configured provider) entry.2
      (store.profiles.get entry.1)).map Prod.fst

def storeProfiles (store : OrderStore) (provider : JsString) : List JsString :=
  listProfilesCompatibleWithAuthProvider aliases store provider
    (resolveProviderIdForAuth aliases.configured provider)

def nativeStoreProfiles (store : OrderStore) (provider : JsString) : List JsString :=
  let providerAuthKey := resolveProviderIdForAuth aliases.configured provider
  if (openAIOrderAliasProvider aliases provider).isSome ∧ providerAuthKey = OPENAI_CODEX_PROVIDER_ID then
    (storeProfiles aliases store provider).filter fun profileId =>
      isNativeCredentialProviderCompatibleWithAuthProvider aliases providerAuthKey
        (store.profiles.get profileId)
  else []

def explicitOrder (store : OrderStore) (provider : JsString) : Option (List JsString) :=
  ((directOrder aliases store.order provider).or (directOrder aliases cfg.order provider)).or
    (((aliasOrder aliases store.order provider).or (aliasOrder aliases cfg.order provider)).map
      fun order => mergeAliasOrderWithNativeProfiles order (nativeStoreProfiles aliases store provider))

def baseOrder (store : OrderStore) (provider : JsString) : List JsString :=
  (explicitOrder aliases cfg store provider).getD
    (if 0 < (explicitProfiles aliases cfg store provider).length then
      explicitProfiles aliases cfg store provider
    else storeProfiles aliases store provider)

/-! ## The order -/

def typeScore (store : OrderStore) (profileId : JsString) : ℕ :=
  match store.profiles.get profileId with
  | none => 3
  | some stored =>
      match stored.credential.type with
      | .oauth => 0
      | .token => 1
      | .apiKey => 2
      | .awsSdk => 3

def lastUsed (store : OrderStore) (profileId : JsString) : ℚ :=
  ((store.usageStats.get profileId).bind (·.lastUsed)).getD 0

def cooldownUntil (store : OrderStore) (now : ℚ) (profileId : JsString) : ℚ :=
  (resolveProfileUnusableUntil (store.usage.stats profileId)).getD now

def sortByCooldown (store : OrderStore) (now : ℚ) (profileIds : List JsString) : List JsString :=
  profileIds.insertionSort fun a b => cooldownUntil store now a ≤ cooldownUntil store now b

def inCooldown (store : OrderStore) (now : ℚ) (profileId : JsString) : Bool :=
  isProfileInCooldown store.usage profileId now none

def orderProfilesByMode (order : List JsString) (store : OrderStore) (now : ℚ) : List JsString :=
  let available := order.filter fun profileId => !inCooldown store now profileId
  let cooling := order.filter fun profileId => inCooldown store now profileId
  let sorted := available.insertionSort fun a b =>
    typeScore store a < typeScore store b ∨
      (typeScore store a = typeScore store b ∧ lastUsed store a ≤ lastUsed store b)
  sorted ++ sortByCooldown store now cooling

def orderExplicitly (order : List JsString) (store : OrderStore) (now : ℚ) : List JsString :=
  let available := order.filter fun profileId => !inCooldown store now profileId
  let cooling := order.filter fun profileId => inCooldown store now profileId
  available ++ sortByCooldown store now cooling

def preferredFirst (preferredProfile : Option JsString) (ordered : List JsString) : List JsString :=
  match preferredProfile.filter fun profileId => profileId ≠ [] ∧ profileId ∈ ordered with
  | some profileId => profileId :: ordered.filter fun other => other ≠ profileId
  | none => ordered

def eligibleProfiles (store : OrderStore) (provider : JsString) (now : ℚ) : List JsString :=
  let isValidProfile := fun profileId =>
    (resolveAuthProfileEligibility aliases cfg store provider profileId now).eligible
  let base := baseOrder aliases cfg store provider
  let filtered := base.filter isValidProfile
  let allBaseProfilesMissing := base.all fun profileId => (store.profiles.get profileId).isNone
  if filtered.length = 0 ∧ 0 < (explicitProfiles aliases cfg store provider).length ∧
      allBaseProfilesMissing then
    (storeProfiles aliases store provider).filter isValidProfile
  else filtered

def resolveAuthProfileOrder (store : OrderStore) (provider : JsString)
    (preferredProfile : Option JsString) (now : ℚ) : List JsString × OrderStore :=
  let store := store.clear now
  if (baseOrder aliases cfg store provider).length = 0 then ([], store)
  else
    let deduped := dedupeProfileIds (eligibleProfiles aliases cfg store provider now)
    let ordered :=
      if (explicitOrder aliases cfg store provider).any fun order => 0 < order.length then
        orderExplicitly deduped store now
      else orderProfilesByMode deduped store now
    (preferredFirst preferredProfile ordered, store)

end Providers

end GreenchClaw.AuthProfiles.Order
