import GreenchClaw.Js.Record
import GreenchClaw.Lib.Transition
import GreenchClaw.Pairing.Scopes

/-!
# Device pairing

`src/infra/device-pairing.ts`: the files of pending requests and of paired devices, and the
operations on them.  Every operation runs under one lock, so it is one step; it reads the clock
and draws its request ids and tokens from a generator that never repeats itself.  The state also
records the approvals of each device since its last removal, the tokens that were revoked or
replaced, and what each request id was issued for.
-/

namespace GreenchClaw.Pairing

open GreenchClaw.Js

/-- `DevicePairingPendingRequest`, but for what is only displayed. -/
structure PendingRequest where
  requestId : JsString
  deviceId : JsString
  publicKey : JsString
  role : Option JsString
  roles : Option (List JsString)
  scopes : Option (List JsString)
  silent : Bool
  isRepair : Bool
  ts : ℤ
  deriving DecidableEq

structure PairingRequest where
  deviceId : JsString
  publicKey : JsString
  role : Option JsString := none
  roles : Option (List JsString) := none
  scopes : Option (List JsString) := none
  silent : Bool := false
  deriving DecidableEq

structure DeviceAuthToken where
  token : JsString
  role : JsString
  scopes : List JsString
  createdAtMs : ℤ
  rotatedAtMs : Option ℤ
  revokedAtMs : Option ℤ
  lastUsedAtMs : Option ℤ
  deriving DecidableEq

structure PairedDevice where
  deviceId : JsString
  publicKey : JsString
  role : Option JsString
  roles : Option (List JsString)
  scopes : Option (List JsString)
  approvedScopes : Option (List JsString)
  tokens : Record DeviceAuthToken
  deriving DecidableEq

/-- Who approved a request: a caller with its scopes, when it states them, or a bootstrap
profile. -/
inductive Approver where
  | caller (scopes : Option (List JsString))
  | bootstrap (profile : DeviceBootstrapProfile)
  deriving DecidableEq

structure Approval where
  deviceId : JsString
  roles : List JsString
  scopes : List JsString
  approver : Approver
  deriving DecidableEq

structure RequestGrant where
  publicKey : JsString
  role : Option JsString
  roles : Option (List JsString)
  scopes : Option (List JsString)
  deriving DecidableEq

structure IssuedToken where
  token : JsString
  deviceId : JsString
  role : JsString
  deriving DecidableEq

structure PairingState where
  pendingById : Record PendingRequest := []
  pairedByDeviceId : Record PairedDevice := []
  /-- The approvals of a device since it was last removed. -/
  approvals : List Approval := []
  issuedTokens : List IssuedToken := []
  /-- The tokens that were revoked, replaced or removed. -/
  retiredTokens : List JsString := []
  issuedRequests : List (JsString × RequestGrant) := []
  deriving DecidableEq

def PENDING_TTL_MS : ℤ := 5 * 60 * 1000

def pruneExpiredPending (pendingById : Record PendingRequest) (now : ℤ) : Record PendingRequest :=
  pendingById.filter fun entry => !decide (PENDING_TTL_MS < now - entry.2.ts)

def normalizeRole (role : Option JsString) : Option JsString :=
  match role with
  | none => none
  | some role => if trim role = [] then none else some (trim role)

def listedRoles (roles : Option (List JsString)) (role : Option JsString) : List JsString :=
  (mergeRoles [roles.getD [], role.toList]).getD []

def PendingRequest.requestedRoles (pending : PendingRequest) : List JsString :=
  listedRoles pending.roles pending.role

def PairedDevice.approvedRoles (device : PairedDevice) : List JsString :=
  listedRoles device.roles device.role

def PairedDevice.baseline (device : PairedDevice) : Option (List JsString) :=
  device.approvedScopes <|> device.scopes

def PendingRequest.grant (pending : PendingRequest) : RequestGrant where
  publicKey := pending.publicKey
  role := pending.role
  roles := pending.roles
  scopes := pending.scopes

def sameStringSet (left right : List JsString) : Bool :=
  decide (left.length = right.length) && left.all right.contains

/-! ## Requests -/

def samePendingApprovalSnapshot (existing : PendingRequest) (incoming : PairingRequest) : Bool :=
  decide (existing.publicKey = incoming.publicKey) &&
    decide (normalizeRole existing.role = normalizeRole incoming.role) &&
    sameStringSet existing.requestedRoles (listedRoles incoming.roles incoming.role) &&
    sameStringSet (normalizeDeviceAuthScopes existing.scopes)
      (normalizeDeviceAuthScopes incoming.scopes)

def refreshPendingDevicePairingRequest (existing : PendingRequest) (incoming : PairingRequest)
    (isRepair : Bool) : PendingRequest :=
  { existing with
    publicKey := incoming.publicKey
    silent := existing.silent && incoming.silent
    isRepair := existing.isRepair || isRepair }

def buildPendingDevicePairingRequest (requestId deviceId : JsString) (isRepair : Bool)
    (req : PairingRequest) (now : ℤ) : PendingRequest :=
  let role := normalizeRole req.role
  { requestId, deviceId
    publicKey := req.publicKey
    role
    roles := mergeRoles [req.roles.getD [], role.toList]
    scopes := mergeScopes [req.scopes]
    silent := req.silent
    isRepair
    ts := now }

/-- `buildReplacement`: the new request takes over the roles and scopes of the ones it
supersedes. -/
def buildReplacement (existing : List PendingRequest) (incoming : PairingRequest)
    (requestId deviceId : JsString) (isRepair : Bool) (now : ℤ) : PendingRequest :=
  buildPendingDevicePairingRequest requestId deviceId isRepair
    { incoming with
      role := normalizeRole incoming.role <|> existing.head?.bind PendingRequest.role
      roles :=
        mergeRoles
          (existing.flatMap (fun pending => [pending.roles.getD [], pending.role.toList]) ++
            [incoming.roles.getD [], incoming.role.toList])
      scopes := mergeScopes (existing.map PendingRequest.scopes ++ [incoming.scopes])
      silent := incoming.silent && existing.all PendingRequest.silent }
    now

def reconcile (existing : List PendingRequest) (incoming : PairingRequest)
    (requestId deviceId : JsString) (isRepair : Bool) (now : ℤ) : PendingRequest × Bool :=
  let replacement := buildReplacement existing incoming requestId deviceId isRepair now
  match existing with
  | [single] =>
      if samePendingApprovalSnapshot single incoming then
        (refreshPendingDevicePairingRequest single incoming isRepair, false)
      else (replacement, true)
  | _ => (replacement, true)

/-! ## Tokens -/

def DeviceAuthToken.revoked (entry : DeviceAuthToken) : Bool :=
  entry.revokedAtMs.any fun at_ => at_ ≠ 0

def buildDeviceAuthToken (token role : JsString) (scopes : List JsString)
    (existing : Option DeviceAuthToken) (now : ℤ) (rotatedAtMs : Option ℤ) : DeviceAuthToken where
  token := token
  role := role
  scopes := scopes
  createdAtMs := (existing.map DeviceAuthToken.createdAtMs).getD now
  rotatedAtMs := rotatedAtMs
  revokedAtMs := none
  lastUsedAtMs := existing.bind DeviceAuthToken.lastUsedAtMs

/-- A new token for each role, from the tokens that `newToken` draws. -/
def mintTokens (roles freshTokens : List JsString) (scopesOf : JsString → List JsString)
    (tokens : Record DeviceAuthToken) (now : ℤ) : List (JsString × DeviceAuthToken) :=
  (roles.zip freshTokens).map fun (role, token) =>
    (role,
      buildDeviceAuthToken token role (scopesOf role) (tokens.get role) now
        ((tokens.get role).map fun _ => now))

def resolveRoleScopedDeviceTokenScopes (role : JsString) (scopes : Option (List JsString)) :
    List JsString :=
  if role = OPERATOR_ROLE then (normalizeDeviceAuthScopes scopes).filter isOperatorScope
  else (normalizeDeviceAuthScopes scopes).filter fun scope => !isOperatorScope scope

def requestedScopeDelta (role : JsString) (pending : PendingRequest)
    (existingToken : Option DeviceAuthToken) (existing : Option PairedDevice) : List JsString :=
  let pendingScopes := resolveRoleScopedDeviceTokenScopes role pending.scopes
  let approvedBaseline :=
    resolveRoleScopedDeviceTokenScopes role (existing.bind PairedDevice.baseline)
  if existingToken.isSome ∧ approvedBaseline ≠ [] then
    pendingScopes.filter fun scope => !approvedBaseline.contains scope
  else pendingScopes

def resolveApprovedTokenScopes (role : JsString) (pending : PendingRequest)
    (existingToken : Option DeviceAuthToken) (approvedScopes : Option (List JsString))
    (existing : Option PairedDevice) : List JsString :=
  if resolveRoleScopedDeviceTokenScopes role pending.scopes ≠ [] then
    let delta := requestedScopeDelta role pending existingToken existing
    if delta = [] ∧ existingToken.isSome then
      resolveRoleScopedDeviceTokenScopes role (existingToken.map DeviceAuthToken.scopes)
    else
      resolveRoleScopedDeviceTokenScopes role
        (mergeScopes [existingToken.map DeviceAuthToken.scopes, some delta])
  else
    resolveRoleScopedDeviceTokenScopes role
      (existingToken.map DeviceAuthToken.scopes <|> approvedScopes <|>
        existing.bind PairedDevice.baseline)

def scopesWithinApprovedDeviceBaseline (role : JsString) (scopes : List JsString)
    (device : PairedDevice) : Bool :=
  match device.baseline with
  | none => false
  | some baseline => roleScopesAllow role scopes (normalizeDeviceAuthScopes (some baseline))

def setTokens (tokens : Record DeviceAuthToken) :
    List (JsString × DeviceAuthToken) → Record DeviceAuthToken
  | [] => tokens
  | (role, entry) :: rest => setTokens (tokens.set role entry) rest

def tokensOf (device : Option PairedDevice) (roles : List JsString) : List JsString :=
  ((device.map PairedDevice.tokens).getD []).filterMap fun entry =>
    if roles.contains entry.1 then some entry.2.token else none

/-! ## Operations -/

inductive DevicePairingForbiddenReason where
  | callerScopesRequired
  | callerMissingScope
  | scopeOutsideRequestedRoles
  | bootstrapRoleNotAllowed
  | bootstrapScopeNotAllowed
  deriving DecidableEq

inductive ApproveResult where
  | approved
  /-- The reason, with the scope or the role that it is about. -/
  | forbidden (reason : DevicePairingForbiddenReason) (subject : Option JsString)
  | notFound
  deriving DecidableEq

inductive VerifyDenyReason where
  | deviceNotPaired
  | roleMissing
  | tokenMissing
  | tokenRevoked
  | tokenMismatch
  | scopeMismatch
  deriving DecidableEq

inductive TokenDenyReason where
  | unknownDeviceOrRole
  | missingApprovedScopeBaseline
  | scopeOutsideApprovedBaseline
  | callerMissingScope (scope : JsString)
  deriving DecidableEq

namespace PairingState

variable (s : PairingState)

def requestDevicePairing (now : ℤ) (requestId : JsString) (req : PairingRequest) : PairingState :=
  let deviceId := trim req.deviceId
  if deviceId = [] then s
  else
    let pendingById := pruneExpiredPending s.pendingById now
    let existing :=
      ((pendingById.map Prod.snd).filter fun pending => pending.deviceId = deviceId).mergeSort
        fun left right => decide (right.ts ≤ left.ts)
    let isRepair := (s.pairedByDeviceId.get deviceId).isSome
    let (request, created) := reconcile existing req requestId deviceId isRepair now
    { s with
      pendingById :=
        if created then
          (existing.foldl (fun pending old => pending.delete old.requestId) pendingById).set
            request.requestId request
        else
          pendingById.set request.requestId request
      issuedRequests :=
        if created then s.issuedRequests ++ [(request.requestId, request.grant)]
        else s.issuedRequests }

/-- The caller's scopes cover what an operator would be granted; the denial otherwise. -/
def checkCallerScopes (pending : PendingRequest) (nextScopes : List JsString)
    (callerScopes : Option (List JsString)) : Option ApproveResult :=
  let callerRequiredScopes :=
    (mergeScopes
      [some (resolveRoleScopedDeviceTokenScopes OPERATOR_ROLE pending.scopes),
        some nextScopes]).getD nextScopes
  match callerScopes with
  | none => some (.forbidden .callerScopesRequired callerRequiredScopes.head?)
  | some callerScopes =>
      (resolveMissingRequestedScope OPERATOR_ROLE callerRequiredScopes callerScopes).map
        fun scope => .forbidden .callerMissingScope (some scope)

def storeApproved (now : ℤ) (requestId : JsString) (existing : Option PairedDevice)
    (device : PairedDevice) (approval : Approval) (tokens : List (JsString × DeviceAuthToken)) :
    PairingState :=
  { s with
    pendingById := (pruneExpiredPending s.pendingById now).delete requestId
    pairedByDeviceId :=
      s.pairedByDeviceId.set device.deviceId
        { device with
          tokens := setTokens ((existing.map PairedDevice.tokens).getD []) tokens }
    approvals := s.approvals ++ [approval]
    issuedTokens :=
      s.issuedTokens ++
        tokens.map fun entry =>
          { token := entry.2.token, deviceId := device.deviceId, role := entry.1 }
    retiredTokens := s.retiredTokens ++ tokensOf existing (tokens.map Prod.fst) }

def approveDevicePairing (now : ℤ) (requestId : JsString) (callerScopes : Option (List JsString))
    (freshTokens : List JsString) : PairingState × ApproveResult :=
  match (pruneExpiredPending s.pendingById now).get requestId with
  | none => (s, .notFound)
  | some pending =>
      let requestedRoles := pending.requestedRoles
      let requestedScopes := normalizeDeviceAuthScopes pending.scopes
      match resolveScopeOutsideRequestedRoles requestedRoles requestedScopes with
      | some scope => (s, .forbidden .scopeOutsideRequestedRoles (some scope))
      | none =>
          let existing := s.pairedByDeviceId.get pending.deviceId
          let tokens := (existing.map PairedDevice.tokens).getD []
          let approvedScopes := mergeScopes [existing.bind PairedDevice.baseline, pending.scopes]
          let nextScopes (role : JsString) : List JsString :=
            resolveApprovedTokenScopes role pending (tokens.get role) approvedScopes existing
          let denied :=
            if requestedRoles.contains OPERATOR_ROLE && decide (nextScopes OPERATOR_ROLE ≠ []) then
              checkCallerScopes pending (nextScopes OPERATOR_ROLE) callerScopes
            else none
          match denied with
          | some result => (s, result)
          | none =>
              (s.storeApproved now requestId existing
                { deviceId := pending.deviceId
                  publicKey := pending.publicKey
                  role := pending.role
                  roles :=
                    mergeRoles
                      [(existing.bind PairedDevice.roles).getD [],
                        (existing.bind PairedDevice.role).toList,
                        pending.roles.getD [], pending.role.toList]
                  scopes := approvedScopes
                  approvedScopes := approvedScopes
                  tokens := [] }
                { deviceId := pending.deviceId
                  roles := requestedRoles
                  scopes := requestedScopes
                  approver := .caller callerScopes }
                (mintTokens requestedRoles freshTokens nextScopes tokens now), .approved)

def approveBootstrapDevicePairing (now : ℤ) (requestId : JsString)
    (profile : DeviceBootstrapProfile) (freshTokens : List JsString) :
    PairingState × ApproveResult :=
  let approvedRoles := (mergeRoles [profile.roles]).getD []
  let approvedScopes := resolveBootstrapProfileScopesForRoles approvedRoles profile.scopes
  match (pruneExpiredPending s.pendingById now).get requestId with
  | none => (s, .notFound)
  | some pending =>
      let requestedRoles := pending.requestedRoles
      match requestedRoles.find? fun role => !approvedRoles.contains role with
      | some role => (s, .forbidden .bootstrapRoleNotAllowed (some role))
      | none =>
          let requestedOperatorScopes :=
            (normalizeDeviceAuthScopes pending.scopes).filter isOperatorScope
          match resolveMissingRequestedScope OPERATOR_ROLE requestedOperatorScopes
              approvedScopes with
          | some scope => (s, .forbidden .bootstrapScopeNotAllowed (some scope))
          | none =>
              let existing := s.pairedByDeviceId.get pending.deviceId
              let tokens := (existing.map PairedDevice.tokens).getD []
              let nextApprovedScopes :=
                mergeScopes
                  [existing.bind PairedDevice.baseline, pending.scopes, some approvedScopes]
              let sanitizedApprovedScopes :=
                resolveBootstrapProfileScopesForRoles approvedRoles
                  (nextApprovedScopes.getD [])
              let tokenScopes (role : JsString) : List JsString :=
                if role = OPERATOR_ROLE then
                  resolveBootstrapProfileScopesForRole role approvedScopes
                else []
              (s.storeApproved now requestId existing
                { deviceId := pending.deviceId
                  publicKey := pending.publicKey
                  role := pending.role
                  roles :=
                    mergeRoles
                      [(existing.bind PairedDevice.roles).getD [],
                        (existing.bind PairedDevice.role).toList,
                        pending.roles.getD [], pending.role.toList, approvedRoles]
                  scopes := some sanitizedApprovedScopes
                  approvedScopes := some sanitizedApprovedScopes
                  tokens := [] }
                { deviceId := pending.deviceId
                  roles := requestedRoles
                  scopes := normalizeDeviceAuthScopes pending.scopes
                  approver := .bootstrap profile }
                (mintTokens approvedRoles freshTokens tokenScopes tokens now), .approved)

def rejectDevicePairing (now : ℤ) (requestId : JsString) : PairingState :=
  let pendingById := pruneExpiredPending s.pendingById now
  match pendingById.get requestId with
  | none => s
  | some _ => { s with pendingById := pendingById.delete requestId }

def forgetDevice (deviceId : JsString) (device : PairedDevice) : PairingState :=
  { s with
    pairedByDeviceId := s.pairedByDeviceId.delete deviceId
    approvals := s.approvals.filter fun approval => approval.deviceId ≠ deviceId
    retiredTokens := s.retiredTokens ++ device.tokens.map fun entry => entry.2.token }

def removePairedDevice (now : ℤ) (deviceId : JsString) : PairingState :=
  match s.pairedByDeviceId.get (trim deviceId) with
  | none => s
  | some device =>
      if trim deviceId = [] then s
      else
        { s.forgetDevice (trim deviceId) device with
          pendingById :=
            (pruneExpiredPending s.pendingById now).filter fun entry =>
              entry.2.deviceId ≠ trim deviceId }

def clearDevicePairing (deviceId : JsString) : PairingState :=
  match s.pairedByDeviceId.get (trim deviceId) with
  | none => s
  | some device => s.forgetDevice (trim deviceId) device

/-- `verifyDeviceToken`, without the note of the last use: the entry that it accepts. -/
def verifyDeviceToken (deviceId token : JsString) (role : JsString) (scopes : List JsString) :
    Except VerifyDenyReason (PairedDevice × JsString × DeviceAuthToken) :=
  match s.pairedByDeviceId.get (trim deviceId) with
  | none => .error .deviceNotPaired
  | some device =>
      match normalizeRole (some role) with
      | none => .error .roleMissing
      | some role =>
          match device.tokens.get role with
          | none => .error .tokenMissing
          | some entry =>
              if entry.revoked then .error .tokenRevoked
              else if trim token = [] ∨ trim entry.token = [] ∨ token ≠ entry.token then
                .error .tokenMismatch
              else if !scopesWithinApprovedDeviceBaseline role entry.scopes device then
                .error .scopeMismatch
              else if !roleScopesAllow role (normalizeDeviceAuthScopes (some scopes))
                  entry.scopes then
                .error .scopeMismatch
              else .ok (device, role, entry)

def putToken (device : PairedDevice) (role : JsString) (entry : DeviceAuthToken) : PairingState :=
  { s with
    pairedByDeviceId :=
      s.pairedByDeviceId.set device.deviceId { device with tokens := device.tokens.set role entry } }

def noteTokenUse (now : ℤ) (deviceId token : JsString) (role : JsString)
    (scopes : List JsString) : PairingState :=
  match s.verifyDeviceToken deviceId token role scopes with
  | .error _ => s
  | .ok (device, role, entry) => s.putToken device role { entry with lastUsedAtMs := some now }

/-- `resolveDeviceTokenUpdateContext`. -/
def tokenUpdateContext (deviceId role : JsString) : Option (PairedDevice × JsString) :=
  (s.pairedByDeviceId.get (trim deviceId)).bind fun device =>
    (normalizeRole (some role)).bind fun role =>
      if device.approvedRoles.contains role then some (device, role) else none

def replaceToken (device : PairedDevice) (role : JsString) (entry : DeviceAuthToken) :
    PairingState :=
  { s.putToken device role entry with
    issuedTokens :=
      s.issuedTokens ++ [{ token := entry.token, deviceId := device.deviceId, role }]
    retiredTokens := s.retiredTokens ++ tokensOf (some device) [role] }

def ensureDeviceToken (now : ℤ) (deviceId role : JsString) (scopes : List JsString)
    (freshToken : JsString) : PairingState × Option DeviceAuthToken :=
  match s.tokenUpdateContext deviceId role with
  | none => (s, none)
  | some (device, role) =>
      let requestedScopes := normalizeDeviceAuthScopes (some scopes)
      let existing := device.tokens.get role
      let usable (entry : DeviceAuthToken) : Bool :=
        !entry.revoked && scopesWithinApprovedDeviceBaseline role entry.scopes device &&
          roleScopesAllow role requestedScopes entry.scopes
      if !scopesWithinApprovedDeviceBaseline role requestedScopes device then (s, none)
      else if existing.any usable then (s, existing)
      else
        let next :=
          buildDeviceAuthToken freshToken role requestedScopes existing now
            (existing.map fun _ => now)
        (s.replaceToken device role next, some next)

def missingCallerScope (role : JsString) (scopes : List JsString)
    (callerScopes : Option (List JsString)) : Option JsString :=
  callerScopes.bind (resolveMissingRequestedScope role scopes)

def rotateDeviceToken (now : ℤ) (deviceId role : JsString) (scopes : Option (List JsString))
    (callerScopes : Option (List JsString)) (freshToken : JsString) :
    PairingState × Except TokenDenyReason DeviceAuthToken :=
  match s.tokenUpdateContext deviceId role with
  | none => (s, .error .unknownDeviceOrRole)
  | some (device, role) =>
      let existing := device.tokens.get role
      let requestedScopes :=
        normalizeDeviceAuthScopes
          (scopes <|> existing.map DeviceAuthToken.scopes <|> device.scopes)
      if device.baseline.isNone then (s, .error .missingApprovedScopeBaseline)
      else if !scopesWithinApprovedDeviceBaseline role requestedScopes device then
        (s, .error .scopeOutsideApprovedBaseline)
      else
        match missingCallerScope role requestedScopes callerScopes with
        | some scope => (s, .error (.callerMissingScope scope))
        | none =>
            let next :=
              buildDeviceAuthToken freshToken role requestedScopes existing now (some now)
            (s.replaceToken device role next, .ok next)

def revokeDeviceToken (now : ℤ) (deviceId role : JsString)
    (callerScopes : Option (List JsString)) :
    PairingState × Except TokenDenyReason DeviceAuthToken :=
  match s.tokenUpdateContext deviceId role with
  | none => (s, .error .unknownDeviceOrRole)
  | some (device, role) =>
      match device.tokens.get role with
      | none => (s, .error .unknownDeviceOrRole)
      | some entry =>
          match missingCallerScope role (normalizeDeviceAuthScopes (some entry.scopes))
              callerScopes with
          | some scope => (s, .error (.callerMissingScope scope))
          | none =>
              let next := { entry with revokedAtMs := some now }
              ({ s.putToken device role next with
                  retiredTokens := s.retiredTokens ++ [entry.token] }, .ok next)

end PairingState

inductive PairingOp where
  | request (requestId : JsString) (req : PairingRequest)
  | approve (requestId : JsString) (callerScopes : Option (List JsString))
      (freshTokens : List JsString)
  | approveBootstrap (requestId : JsString) (profile : DeviceBootstrapProfile)
      (freshTokens : List JsString)
  | reject (requestId : JsString)
  | remove (deviceId : JsString)
  | clear (deviceId : JsString)
  | ensure (deviceId role : JsString) (scopes : List JsString) (freshToken : JsString)
  | rotate (deviceId role : JsString) (scopes callerScopes : Option (List JsString))
      (freshToken : JsString)
  | revoke (deviceId role : JsString) (callerScopes : Option (List JsString))
  | verify (deviceId token role : JsString) (scopes : List JsString)
  deriving DecidableEq

namespace PairingState

variable (s : PairingState)

def drawnTokens : PairingOp → List JsString
  | .approve _ _ freshTokens | .approveBootstrap _ _ freshTokens => freshTokens
  | .ensure _ _ _ freshToken | .rotate _ _ _ _ freshToken => [freshToken]
  | _ => []

def drawnRequestIds : PairingOp → List JsString
  | .request requestId _ => [requestId]
  | _ => []

def EnoughTokens (now : ℤ) : PairingOp → Prop
  | .approve requestId _ freshTokens =>
      ∀ pending ∈ (pruneExpiredPending s.pendingById now).get requestId,
        pending.requestedRoles.length ≤ freshTokens.length
  | .approveBootstrap _ profile freshTokens =>
      ((mergeRoles [profile.roles]).getD []).length ≤ freshTokens.length
  | _ => True

instance (now : ℤ) (op : PairingOp) : Decidable (s.EnoughTokens now op) := by
  unfold EnoughTokens
  split <;> infer_instance

def Draws (now : ℤ) (op : PairingOp) : Prop :=
  0 < now ∧ (drawnTokens op).Nodup ∧
    (∀ token ∈ drawnTokens op, token ∉ s.issuedTokens.map IssuedToken.token) ∧
    (∀ requestId ∈ drawnRequestIds op, requestId ∉ s.issuedRequests.map Prod.fst) ∧
    s.EnoughTokens now op

instance (now : ℤ) (op : PairingOp) : Decidable (s.Draws now op) :=
  inferInstanceAs (Decidable (_ ∧ _ ∧ _ ∧ _ ∧ _))

def apply (now : ℤ) : PairingOp → PairingState
  | .request requestId req => s.requestDevicePairing now requestId req
  | .approve requestId callerScopes freshTokens =>
      (s.approveDevicePairing now requestId callerScopes freshTokens).1
  | .approveBootstrap requestId profile freshTokens =>
      (s.approveBootstrapDevicePairing now requestId profile freshTokens).1
  | .reject requestId => s.rejectDevicePairing now requestId
  | .remove deviceId => s.removePairedDevice now deviceId
  | .clear deviceId => s.clearDevicePairing deviceId
  | .ensure deviceId role scopes freshToken =>
      (s.ensureDeviceToken now deviceId role scopes freshToken).1
  | .rotate deviceId role scopes callerScopes freshToken =>
      (s.rotateDeviceToken now deviceId role scopes callerScopes freshToken).1
  | .revoke deviceId role callerScopes => (s.revokeDeviceToken now deviceId role callerScopes).1
  | .verify deviceId token role scopes => s.noteTokenUse now deviceId token role scopes

end PairingState

def pairingStep (s : PairingState) (step : ℤ × PairingOp) : Option PairingState :=
  if s.Draws step.1 step.2 then some (s.apply step.1 step.2) else none

end GreenchClaw.Pairing
