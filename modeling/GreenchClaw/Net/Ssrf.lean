import GreenchClaw.Net.IpAddress

/-!
# Pinned hostnames

`src/infra/net/ssrf.ts` and `src/infra/net/hostname.ts`: a hostname is checked before and after its
lookup, and later lookups are answered from the addresses that were checked.
-/

namespace GreenchClaw.Net

open GreenchClaw.Js

variable [UnicodeCase]

/-- `replace(/\\.$/, "")`. -/
def dropTrailingDot (text : JsString) : JsString :=
  if text.getLast? = some (unit '.') then text.dropLast else text

def normalizeHostname (hostname : JsString) : JsString :=
  stripIpv6Brackets (dropTrailingDot (normalizeLowercaseStringOrEmpty (some hostname)))

structure SsrFPolicy where
  allowPrivateNetwork : Bool := false
  dangerouslyAllowPrivateNetwork : Bool := false
  allowRfc2544BenchmarkRange : Bool := false
  allowIpv6UniqueLocalRange : Bool := false
  allowedHostnames : List JsString := []
  hostnameAllowlist : List JsString := []

/-! ## Policies -/

def BLOCKED_HOSTNAMES : List JsString :=
  [js "localhost", js "localhost.localdomain", js "metadata.google.internal"]

def normalizeHostnameSet (values : List JsString) : List JsString :=
  (values.map normalizeHostname).filter fun value => value ≠ []

def normalizeHostnameAllowlist (values : List JsString) : List JsString :=
  ((values.map normalizeHostname).filter fun value =>
    value ≠ js "*" && value ≠ js "*." && value ≠ []).dedup

def isPrivateNetworkAllowedByPolicy (policy : SsrFPolicy) : Bool :=
  policy.dangerouslyAllowPrivateNetwork || policy.allowPrivateNetwork

def shouldSkipPrivateNetworkChecks (hostname : JsString) (policy : SsrFPolicy) : Bool :=
  isPrivateNetworkAllowedByPolicy policy ||
    (normalizeHostnameSet policy.allowedHostnames).contains hostname

/-- `resolveIpv4SpecialUseBlockOptions` and `resolveIpv6SpecialUseBlockOptions`. -/
def SsrFPolicy.blockOptions (policy : SsrFPolicy) : SpecialUseOptions :=
  { allowRfc2544BenchmarkRange := policy.allowRfc2544BenchmarkRange
    allowUniqueLocalRange := policy.allowIpv6UniqueLocalRange }

def isHostnameAllowedByPattern (hostname pattern : JsString) : Bool :=
  if (js "*.").isPrefixOf pattern then
    let suffix := pattern.drop 2
    if suffix = [] ∨ hostname = suffix then false
    else (js "." ++ suffix).isSuffixOf hostname
  else hostname = pattern

def matchesHostnameAllowlist (hostname : JsString) (allowlist : List JsString) : Bool :=
  allowlist.isEmpty || allowlist.any (isHostnameAllowedByPattern hostname)

/-! ## Classification -/

def looksLikeUnsupportedIpv4Literal (address : JsString) : Bool :=
  let parts := dotParts address
  if 4 < parts.length then false
  else if parts.any fun part => part = [] then true
  else parts.all fun part => part.all isDigit || startsWithHexMark part

section Classify

variable (lib : IpAddrLib)

def isPrivateIpAddress (address : JsString) (policy : SsrFPolicy) : Bool :=
  let normalized := normalizeHostname address
  if normalized = [] then false
  else
    match parseCanonicalIpAddress lib normalized with
    | some (.ipv4 strictIp) => isBlockedSpecialUseIpv4Address lib policy.blockOptions strictIp
    | some (.ipv6 strictIp) =>
        if isBlockedSpecialUseIpv6Address lib policy.blockOptions strictIp then true
        else
          match extractEmbeddedIpv4FromIpv6 lib strictIp with
          | some embeddedIpv4 => isBlockedSpecialUseIpv4Address lib policy.blockOptions embeddedIpv4
          | none => false
    | none =>
        -- a malformed literal fails closed
        if unit ':' ∈ normalized ∧ parseLooseIpAddress lib normalized = none then true
        else if isCanonicalDottedDecimalIPv4 lib normalized = false ∧
            isLegacyIpv4Literal lib normalized = true then true
        else looksLikeUnsupportedIpv4Literal normalized

def isBlockedHostnameNormalized (normalized : JsString) : Bool :=
  BLOCKED_HOSTNAMES.contains normalized || (js ".localhost").isSuffixOf normalized ||
    (js ".local").isSuffixOf normalized || (js ".internal").isSuffixOf normalized

def isBlockedHostname (hostname : JsString) : Bool :=
  let normalized := normalizeHostname hostname
  normalized ≠ [] && isBlockedHostnameNormalized normalized

def isBlockedHostnameOrIp (hostname : JsString) (policy : SsrFPolicy) : Bool :=
  let normalized := normalizeHostname hostname
  normalized ≠ [] &&
    (isBlockedHostnameNormalized normalized || isPrivateIpAddress lib normalized policy)

/-! ## Resolution -/

structure LookupAddress where
  address : JsString
  family : ℤ
  deriving DecidableEq

def BLOCKED_HOST_OR_IP_MESSAGE : JsString :=
  js "Blocked hostname or private/internal/special-use IP address"

def BLOCKED_RESOLVED_IP_MESSAGE : JsString :=
  js "Blocked: resolves to private/internal/special-use IP address"

/-- The normalised hostname, and whether the checks of addresses are skipped. -/
def resolveHostnamePolicyChecks (hostname : JsString) (policy : SsrFPolicy) :
    Except JsString (JsString × Bool) :=
  let normalized := normalizeHostname hostname
  if normalized = [] then .error (js "Invalid hostname")
  else
    let skipPrivateNetworkChecks := shouldSkipPrivateNetworkChecks normalized policy
    if matchesHostnameAllowlist normalized
        (normalizeHostnameAllowlist policy.hostnameAllowlist) = false then
      .error (js "Blocked hostname (not in allowlist): " ++ hostname)
    else if skipPrivateNetworkChecks = false ∧ isBlockedHostnameOrIp lib normalized policy = true
      then .error BLOCKED_HOST_OR_IP_MESSAGE
    else .ok (normalized, skipPrivateNetworkChecks)

def assertAllowedResolvedAddressesOrThrow (results : List LookupAddress) (policy : SsrFPolicy) :
    Except JsString Unit :=
  if results.any fun entry => isBlockedHostnameOrIp lib entry.address policy then
    .error BLOCKED_RESOLVED_IP_MESSAGE
  else .ok ()

def dedupeAndPreferIpv4 (results : List LookupAddress) : List JsString :=
  let unique := results.foldl (fun (seen : List LookupAddress) entry =>
    if seen.any fun other => other.address = entry.address then seen else seen ++ [entry]) []
  (unique.filter fun entry => entry.family = 4).map LookupAddress.address ++
    (unique.filter fun entry => entry.family ≠ 4).map LookupAddress.address

structure PinnedHostname where
  hostname : JsString
  addresses : List JsString
  deriving DecidableEq

def resolvePinnedHostnameWithPolicy (hostname : JsString) (policy : SsrFPolicy)
    (results : List LookupAddress) : Except JsString PinnedHostname :=
  match resolveHostnamePolicyChecks lib hostname policy with
  | .error error => .error error
  | .ok (normalized, skipPrivateNetworkChecks) =>
      if results = [] then .error (js "Unable to resolve hostname: " ++ hostname)
      else
        let checked :=
          if skipPrivateNetworkChecks then .ok ()
          else assertAllowedResolvedAddressesOrThrow lib results policy
        match checked with
        | .error error => .error error
        | .ok () =>
            let addresses := dedupeAndPreferIpv4 results
            if addresses = [] then .error (js "Unable to resolve hostname: " ++ hostname)
            else .ok { hostname := normalized, addresses }

end Classify

/-! ## Pinned lookups -/

structure PinnedLookup where
  normalizedHost : JsString
  records : List LookupAddress
  index : ℕ := 0
  deriving DecidableEq

def addressRecord (address : JsString) : LookupAddress :=
  { address, family := if unit ':' ∈ address then 6 else 4 }

def createPinnedLookup (hostname : JsString) (addresses : List JsString) :
    Except JsString PinnedLookup :=
  if addresses = [] then
    .error (js "Pinned lookup requires at least one address for " ++ hostname)
  else
    .ok { normalizedHost := normalizeHostname hostname, records := addresses.map addressRecord }

inductive LookupOptions where
  | none
  | family (family : ℤ)
  | object (family : Option ℤ) (all : Bool)
  deriving DecidableEq

namespace LookupOptions

def requestedFamily : LookupOptions → ℤ
  | .none => 0
  | .family requested => requested
  | .object requested _ => requested.getD 0

def all : LookupOptions → Bool
  | .object _ wantsAll => wantsAll
  | _ => false

end LookupOptions

structure LookupCall where
  host : JsString
  options : LookupOptions
  deriving DecidableEq

inductive LookupAnswer where
  | fallback
  | addresses (addresses : List LookupAddress)
  deriving DecidableEq

namespace PinnedLookup

variable (lookup : PinnedLookup)

def automaticRecords : List LookupAddress :=
  let ipv4Records := lookup.records.filter fun entry => entry.family = 4
  if ipv4Records = [] then lookup.records else ipv4Records

def usable (requestedFamily : ℤ) : List LookupAddress :=
  let candidates :=
    if requestedFamily = 4 ∨ requestedFamily = 6 then
      lookup.records.filter fun entry => entry.family = requestedFamily
    else lookup.automaticRecords
  if candidates = [] then lookup.automaticRecords else candidates

def call (request : LookupCall) : LookupAnswer × PinnedLookup :=
  let normalized := normalizeHostname request.host
  if normalized = [] ∨ normalized ≠ lookup.normalizedHost then (.fallback, lookup)
  else
    let usable := lookup.usable request.options.requestedFamily
    if request.options.all then (.addresses usable, lookup)
    else
      (.addresses (usable[lookup.index % usable.length]?).toList,
        { lookup with index := lookup.index + 1 })

def calls : PinnedLookup → List LookupCall → List LookupAnswer
  | _, [] => []
  | lookup, request :: rest => (lookup.call request).1 :: (lookup.call request).2.calls rest

end PinnedLookup

def resolvePinnedDispatcherLookup (lib : IpAddrLib) (pinned : PinnedHostname)
    (override : Option PinnedHostname) (policy : SsrFPolicy) : Except JsString PinnedLookup :=
  match override with
  | none => createPinnedLookup pinned.hostname pinned.addresses
  | some override =>
      let normalizedOverrideHost := normalizeHostname override.hostname
      if normalizedOverrideHost = [] ∨ normalizedOverrideHost ≠ pinned.hostname then
        .error (js "Pinned dispatcher override hostname mismatch: expected " ++ pinned.hostname ++
          js ", got " ++ override.hostname)
      else
        let records := override.addresses.map addressRecord
        let checked :=
          if shouldSkipPrivateNetworkChecks pinned.hostname policy then .ok ()
          else assertAllowedResolvedAddressesOrThrow lib records policy
        match checked with
        | .error error => .error error
        | .ok () => createPinnedLookup pinned.hostname override.addresses

end GreenchClaw.Net
