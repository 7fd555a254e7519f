import GreenchClaw.Js.Record
import GreenchClaw.Lib.Transition
import GreenchClaw.Pairing.Scopes
import Mathlib.Data.List.Dedup
import Mathlib.Data.List.Perm.Subperm

/-!
# Pairing of nodes

`src/infra/node-pairing.ts`, `src/infra/pairing-files.ts` and
`src/gateway/node-connect-reconcile.ts`: a node declares capabilities, commands and permissions
when it connects, an operator approves them, and the live surface is what is both declared and
approved.  The state is the two pairing files; beside them the requests that were issued and the
approvals are kept.
-/

namespace GreenchClaw.Pairing

open GreenchClaw.Js

/-! ## Surfaces -/

structure NodeDeclaredSurface where
  nodeId : JsString
  caps : Option (List JsString) := none
  commands : Option (List JsString) := none
  permissions : Option (Record Bool) := none
  deriving DecidableEq

structure NodePairingRequestInput extends NodeDeclaredSurface where
  silent : Option Bool := none
  deriving DecidableEq

structure NodePairingPendingRequest extends NodePairingRequestInput where
  requestId : JsString
  ts : ℤ
  deriving DecidableEq

structure NodePairingPairedNode extends NodeDeclaredSurface where
  token : JsString
  createdAtMs : ℤ
  approvedAtMs : ℤ
  deriving DecidableEq

def normalizeTrimmedStringList (value : List JsString) : List JsString :=
  value.filterMap fun entry => normalizeOptionalString (some entry)

/-- `normalizeArrayBackedTrimmedStringList(value) ?? []`. -/
def normalizeApprovalSurfaceList (value : Option (List JsString)) : List JsString :=
  (value.map normalizeTrimmedStringList).getD []

def sameApprovalSurfaceSet (left right : Option (List JsString)) : Bool :=
  let normalizedLeft := (normalizeApprovalSurfaceList left).dedup
  let normalizedRight := (normalizeApprovalSurfaceList right).dedup
  normalizedLeft.length = normalizedRight.length && normalizedLeft.all normalizedRight.contains

section Permissions

-- `left.localeCompare(right) <= 0`, which the language leaves to the locale
variable (localeLe : JsString → JsString → Bool)

def sortEntries (entries : Record Bool) : Record Bool :=
  entries.mergeSort fun left right => localeLe left.1 right.1

def normalizePermissionMap (value : Option (Record Bool)) : Option (Record Bool) :=
  match value with
  | none => none
  | some value => if sortEntries localeLe value = [] then none else some (sortEntries localeLe value)

def samePermissions (left right : Option (Record Bool)) : Bool :=
  sortEntries localeLe (left.getD []) = sortEntries localeLe (right.getD [])

end Permissions

def intersectApprovalSurfaceList (approved : Option (List JsString)) (declared : List JsString) :
    List JsString :=
  (normalizeTrimmedStringList declared).filter (normalizeApprovalSurfaceList approved).contains

def intersectPermissionSurface (approved declared : Option (Record Bool)) : Option (Record Bool) :=
  let entries := (declared.getD []).filterMap fun entry =>
    if entry.2 = false then some (entry.1, false)
    else ((approved.getD []).get entry.1).map fun approvedValue => (entry.1, approvedValue)
  if entries = [] then none else some entries

/-! ## Requests -/

structure RequestNodePairingResult where
  request : NodePairingPendingRequest
  created : Bool
  superseded : List (JsString × JsString) := []
  deriving DecidableEq

structure NodeApproval where
  requestId : JsString
  surface : NodeDeclaredSurface
  callerScopes : List JsString
  deriving DecidableEq

structure NodePairingState where
  pendingById : Record NodePairingPendingRequest := []
  pairedByNodeId : Record NodePairingPairedNode := []
  issued : List (JsString × NodeDeclaredSurface) := []
  approvals : List NodeApproval := []
  deriving DecidableEq

def NODE_PENDING_TTL_MS : ℤ := 5 * 60 * 1000

section Requests

variable (localeLe : JsString → JsString → Bool)

def samePendingApprovalSurface (existing : NodePairingPendingRequest)
    (incoming : NodePairingRequestInput) : Bool :=
  let incomingCaps := incoming.caps.map normalizeTrimmedStringList <|> existing.caps
  let incomingCommands := incoming.commands.map normalizeTrimmedStringList <|> existing.commands
  let incomingPermissions := incoming.permissions <|> existing.permissions
  sameApprovalSurfaceSet existing.caps incomingCaps &&
    sameApprovalSurfaceSet existing.commands incomingCommands &&
    samePermissions localeLe existing.permissions incomingPermissions

def refreshPendingNodePairingRequest (existing : NodePairingPendingRequest)
    (incoming : NodePairingRequestInput) (now : ℤ) : NodePairingPendingRequest :=
  { existing with
    caps := incoming.caps.map normalizeTrimmedStringList <|> existing.caps
    commands := incoming.commands.map normalizeTrimmedStringList <|> existing.commands
    permissions := incoming.permissions <|> existing.permissions
    silent := some (existing.silent.getD false && incoming.silent.getD false)
    ts := now }

def mergeNodePairingReplacementInput (existing : List NodePairingPendingRequest)
    (incoming : NodePairingRequestInput) : NodePairingRequestInput :=
  let latest := existing.head?
  { nodeId := incoming.nodeId
    caps := incoming.caps <|> latest.bind (·.caps)
    commands := incoming.commands <|> latest.bind (·.commands)
    permissions := incoming.permissions <|> latest.bind (·.permissions)
    silent := some (incoming.silent.getD false &&
      existing.all fun pending => decide (pending.silent = some true)) }

def buildPendingNodePairingRequest (requestId : JsString) (req : NodePairingRequestInput)
    (now : ℤ) : NodePairingPendingRequest :=
  { nodeId := req.nodeId
    caps := req.caps.map normalizeTrimmedStringList
    commands := req.commands.map normalizeTrimmedStringList
    permissions := req.permissions
    silent := req.silent
    requestId
    ts := now }

namespace NodePairingState

variable (s : NodePairingState) (now : ℤ)

/-- `pruneExpiredPending` of what is read from disk. -/
def loadPending : Record NodePairingPendingRequest :=
  s.pendingById.filter fun entry => !decide (NODE_PENDING_TTL_MS < now - entry.2.ts)

def pendingForNode (nodeId : JsString) : List NodePairingPendingRequest :=
  (((s.loadPending now).map Prod.snd).filter fun pending => decide (pending.nodeId = nodeId)).mergeSort
    fun left right => decide (right.ts ≤ left.ts)

def getPairedNode (nodeId : JsString) : Option NodePairingPairedNode :=
  s.pairedByNodeId.get (trim nodeId)

def requestNodePairing (requestId : JsString) (req : NodePairingRequestInput) :
    Except JsString (NodePairingState × RequestNodePairingResult) :=
  let nodeId := trim req.nodeId
  let incoming := { req with nodeId }
  let existing := s.pendingForNode now nodeId
  let replaced :=
    let pendingById := existing.foldl (fun pendingById pending =>
      pendingById.delete pending.requestId) (s.loadPending now)
    let request := buildPendingNodePairingRequest requestId
      (mergeNodePairingReplacementInput existing incoming) now
    ({ s with
        pendingById := pendingById.set request.requestId request
        issued := s.issued ++ [(request.requestId, request.toNodeDeclaredSurface)] },
      { request
        created := true
        superseded := (existing.filter fun pending => pending.requestId ≠ requestId).map
          fun pending => (pending.requestId, pending.nodeId) })
  if nodeId = [] then .error (js "nodeId required")
  else
    match existing with
    | [single] =>
        if samePendingApprovalSurface localeLe single incoming then
          let refreshed := refreshPendingNodePairingRequest single incoming now
          .ok ({ s with
                  pendingById := (s.loadPending now).set refreshed.requestId refreshed },
                { request := refreshed, created := false })
        else .ok replaced
    | _ => .ok replaced

end NodePairingState

end Requests

/-! ## Decisions -/

def OPERATOR_PAIRING_SCOPE : JsString := js "operator.pairing"

def NODE_SYSTEM_RUN_COMMANDS : List JsString :=
  [js "system.run.prepare", js "system.run", js "system.which"]

def resolveNodePairApprovalScopes (commands : Option (List JsString)) : List JsString :=
  let normalized := commands.getD []
  if normalized.any NODE_SYSTEM_RUN_COMMANDS.contains then
    [OPERATOR_PAIRING_SCOPE, OPERATOR_ADMIN_SCOPE]
  else if normalized = [] then [OPERATOR_PAIRING_SCOPE]
  else [OPERATOR_PAIRING_SCOPE, OPERATOR_WRITE_SCOPE]

inductive ApproveNodePairingResult where
  | missing
  | forbidden (missingScope : JsString)
  | approved (node : NodePairingPairedNode)
  deriving DecidableEq

namespace NodePairingState

variable (s : NodePairingState) (now : ℤ)

def approveNodePairing (requestId : JsString) (callerScopes : Option (List JsString))
    (token : JsString) : NodePairingState × ApproveNodePairingResult :=
  match (s.loadPending now).get requestId with
  | none => (s, .missing)
  | some pending =>
      match resolveMissingRequestedScope OPERATOR_ROLE
          (resolveNodePairApprovalScopes pending.commands) (callerScopes.getD []) with
      | some missingScope => (s, .forbidden missingScope)
      | none =>
          let existing := s.pairedByNodeId.get pending.nodeId
          let node : NodePairingPairedNode :=
            { toNodeDeclaredSurface := pending.toNodeDeclaredSurface
              token
              createdAtMs := (existing.map (·.createdAtMs)).getD now
              approvedAtMs := now }
          ({ s with
              pendingById := (s.loadPending now).delete requestId
              pairedByNodeId := s.pairedByNodeId.set pending.nodeId node
              approvals := ⟨requestId, pending.toNodeDeclaredSurface, callerScopes.getD []⟩ ::
                s.approvals },
            .approved node)

def rejectNodePairing (requestId : JsString) : NodePairingState × Option JsString :=
  match (s.loadPending now).get requestId with
  | none => (s, none)
  | some pending =>
      ({ s with pendingById := (s.loadPending now).delete requestId }, some pending.nodeId)

def removePairedNode (nodeId : JsString) : NodePairingState × Option JsString :=
  let normalized := trim nodeId
  if normalized = [] ∨ s.pairedByNodeId.get normalized = none then (s, none)
  else
    ({ s with
        pendingById := s.loadPending now
        pairedByNodeId := s.pairedByNodeId.delete normalized },
      some normalized)

end NodePairingState

/-! ## Connecting -/

structure NodeConnectParams where
  deviceId : Option JsString := none
  clientId : JsString
  caps : Option (List JsString) := none
  commands : Option (List JsString) := none
  permissions : Option (Record Bool) := none
  deriving DecidableEq

def NodeConnectParams.nodeId (params : NodeConnectParams) : JsString :=
  params.deviceId.getD params.clientId

def normalizeDeclaredNodeCommands (declaredCommands : Option (List JsString))
    (allowlist : List JsString) : List JsString :=
  (trimmedSet (declaredCommands.getD [])).filter allowlist.contains

structure NodeConnectPairingReconcileResult where
  effectiveCaps : List JsString
  effectiveCommands : List JsString
  effectivePermissions : Option (Record Bool)
  /-- The request that is handed to `requestPairing`. -/
  pairingRequest : Option NodePairingRequestInput
  deriving DecidableEq

section Connect

variable (localeLe : JsString → JsString → Bool)

/-- `reconcileNodePairingOnConnect`, for the allowlist that the configuration and the platform
of the node give. -/
def reconcileNodePairingOnConnect (allowlist : List JsString) (params : NodeConnectParams)
    (pairedNode : Option NodePairingPairedNode) : NodeConnectPairingReconcileResult :=
  let declared := normalizeDeclaredNodeCommands params.commands allowlist
  let declaredCaps := normalizeApprovalSurfaceList params.caps
  let declaredPermissions := normalizePermissionMap localeLe params.permissions
  let requestInput (permissions : Option (Record Bool)) : NodePairingRequestInput :=
    { nodeId := params.nodeId
      caps := some declaredCaps
      commands := some declared
      permissions }
  match pairedNode with
  | none =>
      { effectiveCaps := declaredCaps
        effectiveCommands := declared
        effectivePermissions := declaredPermissions
        pairingRequest := some (requestInput declaredPermissions) }
  | some node =>
      let approvedCommands := normalizeDeclaredNodeCommands node.commands allowlist
      let approvedCaps := normalizeApprovalSurfaceList node.caps
      let approvedPermissions := normalizePermissionMap localeLe node.permissions
      let hasCommandUpgrade := declared.any fun command => !approvedCommands.contains command
      let hasCapabilityChange := !sameApprovalSurfaceSet node.caps (some declaredCaps)
      let hasPermissionChange := !samePermissions localeLe node.permissions declaredPermissions
      if hasCommandUpgrade || hasCapabilityChange || hasPermissionChange then
        { effectiveCaps := intersectApprovalSurfaceList (some approvedCaps) declaredCaps
          effectiveCommands := intersectApprovalSurfaceList (some approvedCommands) declared
          effectivePermissions := intersectPermissionSurface approvedPermissions declaredPermissions
          pairingRequest := some (requestInput
            (declaredPermissions <|> if hasPermissionChange then some [] else none)) }
      else
        { effectiveCaps := declaredCaps
          effectiveCommands := declared
          effectivePermissions := declaredPermissions
          pairingRequest := none }

def NodePairingState.connectNode (s : NodePairingState) (now : ℤ) (requestId : JsString)
    (allowlist : List JsString) (params : NodeConnectParams) :
    Except JsString (NodePairingState × NodeConnectPairingReconcileResult) :=
  let result := reconcileNodePairingOnConnect localeLe allowlist params
    (s.getPairedNode params.nodeId)
  match result.pairingRequest with
  | none => .ok (s, result)
  | some input =>
      (s.requestNodePairing localeLe now requestId input).map fun requested => (requested.1, result)

/-! ## Runs -/

inductive NodePairingOp where
  | connect (requestId : JsString) (allowlist : List JsString) (params : NodeConnectParams)
  | request (requestId : JsString) (req : NodePairingRequestInput)
  | approve (requestId : JsString) (callerScopes : Option (List JsString)) (token : JsString)
  | reject (requestId : JsString)
  | remove (nodeId : JsString)

def NodePairingOp.drawnRequestId : NodePairingOp → Option JsString
  | .connect requestId _ _ => some requestId
  | .request requestId _ => some requestId
  | _ => none

def NodePairingState.apply (s : NodePairingState) (now : ℤ) : NodePairingOp → NodePairingState
  | .connect requestId allowlist params =>
      ((s.connectNode localeLe now requestId allowlist params).map Prod.fst).toOption.getD s
  | .request requestId req =>
      ((s.requestNodePairing localeLe now requestId req).map Prod.fst).toOption.getD s
  | .approve requestId callerScopes token =>
      (s.approveNodePairing now requestId callerScopes token).1
  | .reject requestId => (s.rejectNodePairing now requestId).1
  | .remove nodeId => (s.removePairedNode now nodeId).1

/-- One operation at a time of the clock; the request id that it draws is new. -/
def nodePairingStep (s : NodePairingState) (step : ℤ × NodePairingOp) :
    Option NodePairingState :=
  if ∀ requestId ∈ step.2.drawnRequestId, requestId ∉ s.issued.map Prod.fst then
    some (s.apply localeLe step.1 step.2)
  else none

end Connect

/-!
## The live surface of a node

A paired node gets what it declares and what was last approved for it, and what a request id
stands for does not change until it is approved.  A connect that asks for more leaves a request
for what it declares, unless an earlier request of the node lends it its permissions.
-/

/-! ## Lists as sets -/

theorem mem_normalizeTrimmedStringList {value : List JsString} {x : JsString} :
    x ∈ normalizeTrimmedStringList value ↔ x ≠ [] ∧ ∃ entry ∈ value, trim entry = x := by
  rw [normalizeTrimmedStringList, List.mem_filterMap]
  constructor
  · rintro ⟨entry, hentry, hx⟩
    rw [normalizeOptionalString] at hx
    split at hx
    · exact absurd hx (by simp)
    · rename_i hne
      have htrim : trim entry = x := Option.some.inj hx
      exact ⟨htrim ▸ hne, entry, hentry, htrim⟩
  · rintro ⟨hne, entry, hentry, htrim⟩
    refine ⟨entry, hentry, ?_⟩
    simp [normalizeOptionalString, htrim, hne]

theorem mem_normalize_normalize {value : List JsString} {x : JsString} :
    x ∈ normalizeTrimmedStringList (normalizeTrimmedStringList value) ↔
      x ∈ normalizeTrimmedStringList value := by
  rw [mem_normalizeTrimmedStringList]
  constructor
  · intro ⟨_, entry, hentry, htrim⟩
    obtain ⟨_, text, _, htext⟩ := mem_normalizeTrimmedStringList.mp hentry
    rw [← htext, trim_trim, htext] at htrim
    exact htrim ▸ hentry
  · intro hx
    obtain ⟨hne, text, _, htext⟩ := mem_normalizeTrimmedStringList.mp hx
    refine ⟨hne, x, hx, ?_⟩
    rw [← htext, trim_trim]

theorem mem_declaredCommands {commands : Option (List JsString)} {allowlist : List JsString}
    {command : JsString} : command ∈ normalizeDeclaredNodeCommands commands allowlist ↔
      command ∈ normalizeApprovalSurfaceList commands ∧ command ∈ allowlist := by
  have hset : command ∈ trimmedSet (commands.getD []) ↔
      command ∈ normalizeApprovalSurfaceList commands := by
    cases commands with
    | none => simp [normalizeApprovalSurfaceList, mem_trimmedSet]
    | some commands =>
        show command ∈ trimmedSet commands ↔ command ∈ normalizeTrimmedStringList commands
        rw [mem_trimmedSet, mem_normalizeTrimmedStringList]
  rw [normalizeDeclaredNodeCommands, List.mem_filter, List.contains_iff_mem, hset]

theorem mem_normalize_declaredCommands {commands : Option (List JsString)}
    {allowlist : List JsString} {command : JsString} :
    command ∈ normalizeTrimmedStringList (normalizeDeclaredNodeCommands commands allowlist) ↔
      command ∈ normalizeDeclaredNodeCommands commands allowlist := by
  have htrim : ∀ text ∈ normalizeDeclaredNodeCommands commands allowlist,
      text ≠ [] ∧ trim text = text := by
    intro text htext
    have hmem := (List.mem_filter.mp htext).1
    exact ⟨(mem_trimmedSet.mp hmem).1, trim_of_mem_trimmedSet hmem⟩
  rw [mem_normalizeTrimmedStringList]
  constructor
  · intro ⟨_, text, htext, heq⟩
    rw [(htrim text htext).2] at heq
    exact heq ▸ htext
  · intro hmem
    exact ⟨(htrim command hmem).1, command, hmem, (htrim command hmem).2⟩

theorem mem_normalize_caps {caps : Option (List JsString)} {cap : JsString} :
    cap ∈ normalizeTrimmedStringList (normalizeApprovalSurfaceList caps) ↔
      cap ∈ normalizeApprovalSurfaceList caps := by
  cases caps with
  | none => simp [normalizeApprovalSurfaceList, mem_normalizeTrimmedStringList]
  | some caps => exact mem_normalize_normalize

theorem mem_of_sameApprovalSurfaceSet {left right : Option (List JsString)}
    (h : sameApprovalSurfaceSet left right = true) {x : JsString} :
    x ∈ normalizeApprovalSurfaceList left ↔ x ∈ normalizeApprovalSurfaceList right := by
  rw [sameApprovalSurfaceSet] at h
  simp only [Bool.and_eq_true, decide_eq_true_eq, List.all_eq_true] at h
  obtain ⟨hlength, hall⟩ := h
  have hsubset : (normalizeApprovalSurfaceList left).dedup ⊆
      (normalizeApprovalSurfaceList right).dedup := by
    intro y hy
    exact List.contains_iff_mem.mp (hall y hy)
  have hsubperm := List.subperm_of_subset (List.nodup_dedup _) hsubset
  have hperm := hsubperm.perm_of_length_le (by omega)
  rw [← List.mem_dedup, hperm.mem_iff, List.mem_dedup]

/-! ## Permissions -/

section Permissions

variable {localeLe : JsString → JsString → Bool}

theorem mem_sortEntries {entries : Record Bool} {entry : JsString × Bool} :
    entry ∈ sortEntries localeLe entries ↔ entry ∈ entries := List.mem_mergeSort

theorem sortEntries_eq_nil {entries : Record Bool} :
    sortEntries localeLe entries = [] ↔ entries = [] := by
  constructor
  · intro h
    have hlength : (sortEntries localeLe entries).length = entries.length :=
      List.length_mergeSort entries
    rw [h] at hlength
    exact List.length_eq_zero_iff.mp hlength.symm
  · intro h
    simp [h, sortEntries]

theorem mem_of_samePermissions {left right : Option (Record Bool)}
    (h : samePermissions localeLe left right = true) {entry : JsString × Bool} :
    entry ∈ left.getD [] ↔ entry ∈ right.getD [] := by
  rw [samePermissions, decide_eq_true_eq] at h
  calc entry ∈ left.getD []
      ↔ entry ∈ sortEntries localeLe (left.getD []) := mem_sortEntries.symm
    _ ↔ entry ∈ sortEntries localeLe (right.getD []) := by rw [h]
    _ ↔ entry ∈ right.getD [] := mem_sortEntries

theorem samePermissions_none {permissions : Option (Record Bool)} :
    samePermissions localeLe permissions none = true ↔ permissions.getD [] = [] := by
  rw [samePermissions, decide_eq_true_eq, Option.getD_none, sortEntries_eq_nil.mpr rfl,
    sortEntries_eq_nil]

theorem normalizePermissionMap_none {value : Option (Record Bool)} :
    normalizePermissionMap localeLe value = none ↔ value.getD [] = [] := by
  cases value with
  | none => simp [normalizePermissionMap]
  | some value =>
      rw [normalizePermissionMap, Option.getD_some]
      split
      · rename_i hnil
        simp [sortEntries_eq_nil.mp hnil]
      · rename_i hne
        rw [sortEntries_eq_nil] at hne
        simp [hne]

theorem mem_normalizePermissionMap {value : Option (Record Bool)} {entry : JsString × Bool} :
    entry ∈ (normalizePermissionMap localeLe value).getD [] ↔ entry ∈ value.getD [] := by
  cases value with
  | none => rfl
  | some value =>
      rw [normalizePermissionMap, Option.getD_some]
      split
      · rename_i hnil
        rw [sortEntries_eq_nil.mp hnil]
        rfl
      · rw [Option.getD_some, mem_sortEntries]

theorem mem_intersectPermissionSurface {approved declared : Option (Record Bool)} {key : JsString}
    (h : (key, true) ∈ (intersectPermissionSurface approved declared).getD []) :
    (key, true) ∈ declared.getD [] ∧ (key, true) ∈ approved.getD [] := by
  rw [intersectPermissionSurface] at h
  split at h
  · exact absurd h (by simp)
  · rw [Option.getD_some, List.mem_filterMap] at h
    obtain ⟨entry, hentry, hkept⟩ := h
    split at hkept
    · exact absurd (Option.some.inj hkept) (by simp)
    · rename_i hvalue
      rw [Bool.not_eq_false] at hvalue
      obtain ⟨value, hget, heq⟩ := Option.map_eq_some_iff.mp hkept
      obtain ⟨hkey, hgranted⟩ := Prod.mk.inj heq
      have happroved := Record.mem_of_get hget
      rw [hkey, hgranted] at happroved
      have hdeclared : entry = (key, true) := Prod.ext hkey hvalue
      exact ⟨hdeclared ▸ hentry, happroved⟩

end Permissions

/-! ## Surfaces -/

namespace NodeDeclaredSurface

structure Same (a b : NodeDeclaredSurface) : Prop where
  nodeId : a.nodeId = b.nodeId
  caps : ∀ cap, cap ∈ normalizeApprovalSurfaceList a.caps ↔
    cap ∈ normalizeApprovalSurfaceList b.caps
  commands : ∀ command, command ∈ normalizeApprovalSurfaceList a.commands ↔
    command ∈ normalizeApprovalSurfaceList b.commands
  permissions : ∀ entry, entry ∈ a.permissions.getD [] ↔ entry ∈ b.permissions.getD []

structure Within (a b : NodeDeclaredSurface) : Prop where
  caps : ∀ cap ∈ normalizeApprovalSurfaceList a.caps, cap ∈ normalizeApprovalSurfaceList b.caps
  commands : ∀ command ∈ normalizeApprovalSurfaceList a.commands,
    command ∈ normalizeApprovalSurfaceList b.commands
  permissions : ∀ key, (key, true) ∈ a.permissions.getD [] → (key, true) ∈ b.permissions.getD []

theorem Same.refl (a : NodeDeclaredSurface) : a.Same a :=
  ⟨rfl, fun _ => Iff.rfl, fun _ => Iff.rfl, fun _ => Iff.rfl⟩

theorem Same.trans {a b c : NodeDeclaredSurface} (hab : a.Same b) (hbc : b.Same c) : a.Same c := by
  constructor
  · exact hab.nodeId.trans hbc.nodeId
  · exact fun cap => (hab.caps cap).trans (hbc.caps cap)
  · exact fun command => (hab.commands command).trans (hbc.commands command)
  · exact fun entry => (hab.permissions entry).trans (hbc.permissions entry)

end NodeDeclaredSurface

section Connect

variable {localeLe : JsString → JsString → Bool}

def declaredSurface (localeLe : JsString → JsString → Bool) (allowlist : List JsString)
    (params : NodeConnectParams) : NodeDeclaredSurface :=
  { nodeId := trim params.nodeId
    caps := some (normalizeApprovalSurfaceList params.caps)
    commands := some (normalizeDeclaredNodeCommands params.commands allowlist)
    permissions := normalizePermissionMap localeLe params.permissions }

def NodeConnectPairingReconcileResult.surface (result : NodeConnectPairingReconcileResult)
    (nodeId : JsString) : NodeDeclaredSurface :=
  { nodeId
    caps := some result.effectiveCaps
    commands := some result.effectiveCommands
    permissions := result.effectivePermissions }

def approvedSurface (pairedNode : Option NodePairingPairedNode) (nodeId : JsString) :
    NodeDeclaredSurface :=
  (pairedNode.map (·.toNodeDeclaredSurface)).getD { nodeId }

variable {allowlist : List JsString} {params : NodeConnectParams} {node : NodePairingPairedNode}

theorem mem_intersect {approved : List JsString} {declared : List JsString} {x : JsString}
    (h : x ∈ normalizeApprovalSurfaceList (some (intersectApprovalSurfaceList (some approved)
      declared))) :
    x ∈ normalizeTrimmedStringList declared ∧ x ∈ normalizeTrimmedStringList approved := by
  obtain ⟨_, text, htext, htrim⟩ := mem_normalizeTrimmedStringList.mp h
  obtain ⟨hdeclared, happroved⟩ := List.mem_filter.mp htext
  obtain ⟨_, raw, _, hraw⟩ := mem_normalizeTrimmedStringList.mp hdeclared
  rw [← hraw, trim_trim, hraw] at htrim
  rw [← htrim]
  exact ⟨hdeclared, List.contains_iff_mem.mp happroved⟩

theorem declared_within_of_unchanged
    (hcommands : ((normalizeDeclaredNodeCommands params.commands allowlist).any fun command =>
      !(normalizeDeclaredNodeCommands node.commands allowlist).contains command) = false)
    (hcaps : sameApprovalSurfaceSet node.caps
      (some (normalizeApprovalSurfaceList params.caps)) = true)
    (hpermissions : samePermissions localeLe node.permissions
      (normalizePermissionMap localeLe params.permissions) = true) :
    (declaredSurface localeLe allowlist params).Within node.toNodeDeclaredSurface := by
  constructor
  · intro cap hcap
    exact (mem_of_sameApprovalSurfaceSet hcaps).mpr hcap
  · intro command hcommand
    have hdeclared := mem_normalize_declaredCommands.mp hcommand
    have hnot := List.any_eq_false.mp hcommands command hdeclared
    simp only [Bool.not_eq_true', Bool.not_eq_false, List.contains_iff_mem] at hnot
    exact (mem_declaredCommands.mp hnot).1
  · intro key hkey
    exact (mem_of_samePermissions hpermissions).mpr hkey

theorem reconcile_within (result : NodeConnectPairingReconcileResult)
    (hresult : reconcileNodePairingOnConnect localeLe allowlist params (some node) = result)
    (nodeId : JsString) :
    (result.surface nodeId).Within (declaredSurface localeLe allowlist params) ∧
      (∀ command ∈ result.effectiveCommands, command ∈ allowlist) ∧
      (result.surface nodeId).Within node.toNodeDeclaredSurface := by
  rw [reconcileNodePairingOnConnect] at hresult
  simp only at hresult
  split at hresult
  · rw [← hresult]
    refine ⟨?_, ?_, ?_⟩
    · constructor
      · intro cap hcap
        exact (mem_intersect hcap).1
      · intro command hcommand
        exact (mem_intersect hcommand).1
      · intro key hkey
        exact (mem_intersectPermissionSurface hkey).1
    · intro command hcommand
      have hdeclared := (List.mem_filter.mp hcommand).1
      exact (mem_declaredCommands.mp (mem_normalize_declaredCommands.mp hdeclared)).2
    · constructor
      · intro cap hcap
        exact mem_normalize_caps.mp (mem_intersect hcap).2
      · intro command hcommand
        have happroved := mem_normalize_declaredCommands.mp (mem_intersect hcommand).2
        exact (mem_declaredCommands.mp happroved).1
      · intro key hkey
        exact mem_normalizePermissionMap.mp (mem_intersectPermissionSurface hkey).2
  · rename_i hunchanged
    simp only [Bool.or_eq_true, not_or, Bool.not_eq_true, Bool.not_eq_false'] at hunchanged
    have hwithin := declared_within_of_unchanged hunchanged.1.1 hunchanged.1.2 hunchanged.2
    rw [← hresult]
    refine ⟨?_, ?_, ?_⟩
    · exact ⟨fun _ h => h, fun _ h => h, fun _ h => h⟩
    · intro command hcommand
      exact (mem_declaredCommands.mp hcommand).2
    · exact ⟨hwithin.caps, hwithin.commands, hwithin.permissions⟩

/-- The permissions that a connect sends with its request: an absence is sent to a paired node
that has permissions, and is left open otherwise. -/
def sentPermissions (localeLe : JsString → JsString → Bool) (params : NodeConnectParams)
    (pairedNode : Option NodePairingPairedNode) : Option (Record Bool) :=
  normalizePermissionMap localeLe params.permissions <|>
    if (approvedSurface pairedNode []).permissions.getD [] = [] then none else some []

theorem reconcile_request {pairedNode : Option NodePairingPairedNode}
    (hnot : ¬ (declaredSurface localeLe allowlist params).Within
      (approvedSurface pairedNode (trim params.nodeId))) :
    (reconcileNodePairingOnConnect localeLe allowlist params pairedNode).pairingRequest =
      some
        { nodeId := params.nodeId
          caps := (declaredSurface localeLe allowlist params).caps
          commands := (declaredSurface localeLe allowlist params).commands
          permissions := sentPermissions localeLe params pairedNode } := by
  cases pairedNode with
  | none =>
      simp [reconcileNodePairingOnConnect, declaredSurface, sentPermissions, approvedSurface]
  | some node =>
      rw [reconcileNodePairingOnConnect]
      simp only
      split
      · simp only [declaredSurface, sentPermissions, approvedSurface, Option.map_some,
          Option.getD_some]
        cases hdeclared : normalizePermissionMap localeLe params.permissions with
        | some permissions => rfl
        | none =>
            by_cases hnil : node.permissions.getD [] = []
            · simp [samePermissions_none.mpr hnil, hnil]
            · have hchange : samePermissions localeLe node.permissions none = false := by
                rw [← Bool.not_eq_true, samePermissions_none]
                exact hnil
              simp [hchange, hnil]
      · rename_i hunchanged
        simp only [Bool.or_eq_true, not_or, Bool.not_eq_true, Bool.not_eq_false'] at hunchanged
        exact absurd (declared_within_of_unchanged hunchanged.1.1 hunchanged.1.2 hunchanged.2) hnot

end Connect

end GreenchClaw.Pairing
