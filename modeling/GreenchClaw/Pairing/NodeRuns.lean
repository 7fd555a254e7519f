import GreenchClaw.Pairing.NodePairing

/-!
# Runs of the pairing of nodes

What one request leaves on disk, the invariant of the runs, and what a connect does in a state
that a run reaches.
-/

namespace GreenchClaw.Pairing

open GreenchClaw.Js Transition Record

variable {localeLe : JsString → JsString → Bool}

/-! ## One request -/

section Request

variable {s s' : NodePairingState} {now : ℤ} {requestId : JsString}
  {req : NodePairingRequestInput}

theorem mem_loadPending {entry : JsString × NodePairingPendingRequest}
    (h : entry ∈ s.loadPending now) : entry ∈ s.pendingById := (List.mem_filter.mp h).1

theorem mem_pendingForNode {nodeId : JsString} {pending : NodePairingPendingRequest} :
    pending ∈ s.pendingForNode now nodeId ↔
      pending.nodeId = nodeId ∧ ∃ key, (key, pending) ∈ s.loadPending now := by
  rw [NodePairingState.pendingForNode, List.mem_mergeSort, List.mem_filter, List.mem_map]
  constructor
  · intro ⟨⟨entry, hentry, hpending⟩, hnode⟩
    refine ⟨of_decide_eq_true hnode, entry.1, ?_⟩
    rw [← hpending]
    exact hentry
  · intro ⟨hnode, key, hmem⟩
    exact ⟨⟨(key, pending), hmem, rfl⟩, decide_eq_true hnode⟩

theorem mem_foldl_delete {existing : List NodePairingPendingRequest}
    {pendingById : Record NodePairingPendingRequest}
    {entry : JsString × NodePairingPendingRequest} :
    entry ∈ existing.foldl (fun pendingById pending => pendingById.delete pending.requestId)
        pendingById ↔
      entry ∈ pendingById ∧ ∀ pending ∈ existing, entry.1 ≠ pending.requestId := by
  induction existing generalizing pendingById with
  | nil => simp
  | cons pending rest ih =>
      rw [List.foldl_cons, ih, mem_delete, List.forall_mem_cons, and_assoc]

structure RequestLeaves (s s' : NodePairingState) (now : ℤ) (requestId : JsString)
    (req : NodePairingRequestInput) (request : NodePairingPendingRequest) : Prop where
  nodeId : request.nodeId = trim req.nodeId
  caps : ∀ cap, cap ∈ normalizeApprovalSurfaceList request.caps ↔
    cap ∈ normalizeApprovalSurfaceList
      (req.caps <|> (s.pendingForNode now (trim req.nodeId)).head?.bind (·.caps))
  commands : ∀ command, command ∈ normalizeApprovalSurfaceList request.commands ↔
    command ∈ normalizeApprovalSurfaceList
      (req.commands <|> (s.pendingForNode now (trim req.nodeId)).head?.bind (·.commands))
  permissions : request.permissions =
    (req.permissions <|> (s.pendingForNode now (trim req.nodeId)).head?.bind (·.permissions))
  stored : (request.requestId, request) ∈ s'.pendingById
  others : ∀ entry ∈ s'.pendingById, entry = (request.requestId, request) ∨
    entry ∈ s.pendingById ∧ entry.2.nodeId ≠ trim req.nodeId
  paired : s'.pairedByNodeId = s.pairedByNodeId
  approvals : s'.approvals = s.approvals
  issued : (request.requestId = requestId ∧
      s'.issued = s.issued ++ [(requestId, request.toNodeDeclaredSurface)]) ∨
    s'.issued = s.issued ∧ ∃ old, (request.requestId, old) ∈ s.pendingById ∧
      old.toNodeDeclaredSurface.Same request.toNodeDeclaredSurface

theorem mem_normalize_map {value : Option (List JsString)} {x : JsString} :
    x ∈ normalizeApprovalSurfaceList (value.map normalizeTrimmedStringList) ↔
      x ∈ normalizeApprovalSurfaceList value := by
  cases value with
  | none => rfl
  | some value => exact mem_normalize_normalize

theorem mem_normalize_orElse {value kept : Option (List JsString)} {x : JsString} :
    x ∈ normalizeApprovalSurfaceList (value.map normalizeTrimmedStringList <|> kept) ↔
      x ∈ normalizeApprovalSurfaceList (value <|> kept) := by
  cases value with
  | none => rfl
  | some value => exact mem_normalize_normalize

theorem refresh_leaves {single : NodePairingPendingRequest}
    (hkeys : ∀ entry ∈ s.pendingById, entry.2.requestId = entry.1)
    (hexisting : s.pendingForNode now (trim req.nodeId) = [single])
    (hsame : samePendingApprovalSurface localeLe single { req with nodeId := trim req.nodeId } =
      true) :
    RequestLeaves s
      { s with
        pendingById := (s.loadPending now).set single.requestId
          (refreshPendingNodePairingRequest single { req with nodeId := trim req.nodeId } now) }
      now requestId req
      (refreshPendingNodePairingRequest single { req with nodeId := trim req.nodeId } now) := by
  have hsingle : single ∈ s.pendingForNode now (trim req.nodeId) := by
    rw [hexisting]
    exact List.mem_cons_self
  obtain ⟨hnode, key, hmem⟩ := mem_pendingForNode.mp hsingle
  have hkey : single.requestId = key := hkeys _ (mem_loadPending hmem)
  constructor
  · exact hnode
  · intro cap
    rw [hexisting]
    exact mem_normalize_orElse
  · intro command
    rw [hexisting]
    exact mem_normalize_orElse
  · rw [hexisting]
    rfl
  · exact mem_of_get (get_set_self _ _ _)
  · intro entry hentry
    rcases mem_set hentry with hnew | ⟨hold, hne⟩
    · exact Or.inl hnew
    · right
      refine ⟨mem_loadPending hold, ?_⟩
      intro hsameNode
      have hother := mem_pendingForNode.mpr ⟨hsameNode, entry.1, hold⟩
      rw [hexisting, List.mem_singleton] at hother
      apply hne
      rw [← hkeys entry (mem_loadPending hold), hother]
  · rfl
  · rfl
  · right
    refine ⟨rfl, single, ?_, ?_⟩
    · show (single.requestId, single) ∈ s.pendingById
      rw [hkey]
      exact mem_loadPending hmem
    · rw [samePendingApprovalSurface] at hsame
      simp only [Bool.and_eq_true] at hsame
      constructor
      · rfl
      · exact fun cap => mem_of_sameApprovalSurfaceSet hsame.1.1
      · exact fun command => mem_of_sameApprovalSurfaceSet hsame.1.2
      · exact fun entry => mem_of_samePermissions hsame.2

theorem replace_leaves (hkeys : ∀ entry ∈ s.pendingById, entry.2.requestId = entry.1)
    {request : NodePairingPendingRequest}
    (hrequest : request = buildPendingNodePairingRequest requestId
      (mergeNodePairingReplacementInput (s.pendingForNode now (trim req.nodeId))
        { req with nodeId := trim req.nodeId }) now) :
    RequestLeaves s
      { s with
        pendingById := ((s.pendingForNode now (trim req.nodeId)).foldl
          (fun pendingById pending => pendingById.delete pending.requestId)
          (s.loadPending now)).set request.requestId request
        issued := s.issued ++ [(request.requestId, request.toNodeDeclaredSurface)] }
      now requestId req request := by
  subst hrequest
  constructor
  · rfl
  · exact fun cap => mem_normalize_map
  · exact fun command => mem_normalize_map
  · rfl
  · exact mem_of_get (get_set_self _ _ _)
  · intro entry hentry
    rcases mem_set hentry with hnew | ⟨hold, -⟩
    · exact Or.inl hnew
    · right
      obtain ⟨hloaded, hkept⟩ := mem_foldl_delete.mp hold
      refine ⟨mem_loadPending hloaded, ?_⟩
      intro hsameNode
      have hother := mem_pendingForNode.mpr ⟨hsameNode, entry.1, hloaded⟩
      exact hkept entry.2 hother (hkeys entry (mem_loadPending hloaded)).symm
  · rfl
  · rfl
  · exact Or.inl ⟨rfl, rfl⟩

theorem request_leaves (hkeys : ∀ entry ∈ s.pendingById, entry.2.requestId = entry.1)
    {result : RequestNodePairingResult}
    (h : s.requestNodePairing localeLe now requestId req = .ok (s', result)) :
    ∃ request, RequestLeaves s s' now requestId req request := by
  rw [NodePairingState.requestNodePairing] at h
  split at h
  · exact absurd h (by simp)
  · split at h
    · rename_i single hexisting
      split at h
      · rename_i hsame
        rw [← (Prod.mk.inj (Except.ok.inj h)).1]
        exact ⟨_, refresh_leaves hkeys hexisting hsame⟩
      · rw [← (Prod.mk.inj (Except.ok.inj h)).1]
        exact ⟨_, replace_leaves hkeys rfl⟩
    · rw [← (Prod.mk.inj (Except.ok.inj h)).1]
      exact ⟨_, replace_leaves hkeys rfl⟩

end Request

/-! ## The invariant -/

def NodePairingState.lastApproval (s : NodePairingState) (nodeId : JsString) :
    Option NodeApproval :=
  s.approvals.find? fun approval => approval.surface.nodeId = nodeId

def NodeApproval.HoldsScopes (approval : NodeApproval) : Prop :=
  ∀ scope ∈ resolveNodePairApprovalScopes approval.surface.commands,
    roleScopesAllow OPERATOR_ROLE [scope] approval.callerScopes = true

structure NodesSound (s : NodePairingState) : Prop where
  requestId : ∀ entry ∈ s.pendingById, entry.2.requestId = entry.1
  issued : ∀ entry ∈ s.pendingById, ∃ surface, (entry.1, surface) ∈ s.issued ∧
    surface.Same entry.2.toNodeDeclaredSurface
  distinct : (s.issued.map Prod.fst).Nodup
  paired : ∀ nodeId node, s.pairedByNodeId.get nodeId = some node →
    ∃ approval, s.lastApproval nodeId = some approval ∧
      approval.surface = node.toNodeDeclaredSurface
  approvals : ∀ approval ∈ s.approvals, approval.HoldsScopes ∧
    ∃ surface, (approval.requestId, surface) ∈ s.issued ∧ surface.Same approval.surface

section Steps

variable {s s' : NodePairingState} {now : ℤ}

theorem NodesSound.leaves (hs : NodesSound s) {requestId : JsString}
    {req : NodePairingRequestInput} {request : NodePairingPendingRequest}
    (hfresh : requestId ∉ s.issued.map Prod.fst)
    (h : RequestLeaves s s' now requestId req request) : NodesSound s' := by
  have hmono : ∀ issue ∈ s.issued, issue ∈ s'.issued := by
    intro issue hissue
    rcases h.issued with ⟨-, hissued⟩ | ⟨hissued, -⟩
    · rw [hissued]
      exact List.mem_append_left _ hissue
    · rw [hissued]
      exact hissue
  constructor
  · intro entry hentry
    rcases h.others entry hentry with rfl | ⟨hold, -⟩
    · rfl
    · exact hs.requestId entry hold
  · intro entry hentry
    rcases h.others entry hentry with rfl | ⟨hold, -⟩
    · rcases h.issued with ⟨hid, hissued⟩ | ⟨-, old, hold, hsame⟩
      · refine ⟨request.toNodeDeclaredSurface, ?_, NodeDeclaredSurface.Same.refl _⟩
        rw [hissued, hid]
        simp
      · obtain ⟨surface, hsurface, hissuedFor⟩ := hs.issued _ hold
        exact ⟨surface, hmono _ hsurface, hissuedFor.trans hsame⟩
    · obtain ⟨surface, hsurface, hsame⟩ := hs.issued entry hold
      exact ⟨surface, hmono _ hsurface, hsame⟩
  · rcases h.issued with ⟨-, hissued⟩ | ⟨hissued, -⟩
    · rw [hissued, List.map_append]
      apply List.nodup_append.mpr
      refine ⟨hs.distinct, by simp, ?_⟩
      intro id hid other hother
      rw [List.map_cons, List.map_nil, List.mem_singleton] at hother
      rw [hother]
      rintro rfl
      exact hfresh hid
    · rw [hissued]
      exact hs.distinct
  · intro nodeId node hnode
    rw [h.paired] at hnode
    rw [NodePairingState.lastApproval, h.approvals]
    exact hs.paired nodeId node hnode
  · rw [h.approvals]
    intro approval happroval
    obtain ⟨hholds, surface, hsurface, hsame⟩ := hs.approvals approval happroval
    exact ⟨hholds, surface, hmono _ hsurface, hsame⟩

theorem request_sound (hs : NodesSound s) {requestId : JsString} {req : NodePairingRequestInput}
    (hfresh : requestId ∉ s.issued.map Prod.fst) :
    NodesSound (((s.requestNodePairing localeLe now requestId req).map
      Prod.fst).toOption.getD s) := by
  cases h : s.requestNodePairing localeLe now requestId req with
  | error _ => exact hs
  | ok result =>
      obtain ⟨request, hleaves⟩ := request_leaves hs.requestId h
      exact hs.leaves hfresh hleaves

theorem connect_sound (hs : NodesSound s) {requestId : JsString} (allowlist : List JsString)
    (params : NodeConnectParams) (hfresh : requestId ∉ s.issued.map Prod.fst) :
    NodesSound (((s.connectNode localeLe now requestId allowlist params).map
      Prod.fst).toOption.getD s) := by
  rw [NodePairingState.connectNode]
  cases hrequest : (reconcileNodePairingOnConnect localeLe allowlist params
      (s.getPairedNode params.nodeId)).pairingRequest with
  | none => exact hs
  | some input =>
      have hsound : NodesSound (((s.requestNodePairing localeLe now requestId input).map
          Prod.fst).toOption.getD s) := request_sound hs hfresh
      simp only
      cases h : s.requestNodePairing localeLe now requestId input with
      | error _ => exact hs
      | ok result =>
          rw [h] at hsound
          exact hsound

theorem NodesSound.drop (hs : NodesSound s) (pendingById : Record NodePairingPendingRequest)
    (hpending : ∀ entry ∈ pendingById, entry ∈ s.pendingById) :
    NodesSound { s with pendingById } := by
  constructor
  · exact fun entry hentry => hs.requestId entry (hpending entry hentry)
  · exact fun entry hentry => hs.issued entry (hpending entry hentry)
  · exact hs.distinct
  · exact hs.paired
  · exact hs.approvals

theorem approve_sound (hs : NodesSound s) (requestId : JsString)
    (callerScopes : Option (List JsString)) (token : JsString) :
    NodesSound (s.approveNodePairing now requestId callerScopes token).1 := by
  rw [NodePairingState.approveNodePairing]
  cases hget : (s.loadPending now).get requestId with
  | none => exact hs
  | some pending =>
      have hmem := mem_loadPending (mem_of_get hget)
      simp only
      cases hmissing : resolveMissingRequestedScope OPERATOR_ROLE
          (resolveNodePairApprovalScopes pending.commands) (callerScopes.getD []) with
      | some missingScope => exact hs
      | none =>
          have hdropped := hs.drop ((s.loadPending now).delete requestId)
            fun entry hentry => mem_loadPending (mem_delete.mp hentry).1
          constructor
          · exact hdropped.requestId
          · exact hdropped.issued
          · exact hs.distinct
          · intro nodeId node hnode
            show ∃ approval, List.find? _ (_ :: s.approvals) = some approval ∧ _
            by_cases hid : nodeId = pending.nodeId
            · rw [hid, get_set_self] at hnode
              rw [← Option.some.inj hnode, hid, List.find?_cons_of_pos (by simp)]
              exact ⟨_, rfl, rfl⟩
            · rw [get_set_other _ _ hid] at hnode
              rw [List.find?_cons_of_neg (by simpa using Ne.symm hid)]
              exact hs.paired nodeId node hnode
          · intro approval happroval
            rcases List.mem_cons.mp happroval with rfl | hold
            · constructor
              · exact fun scope hscope => missing_eq_none hmissing hscope
              · exact hs.issued _ hmem
            · exact hs.approvals approval hold

theorem remove_sound (hs : NodesSound s) (nodeId : JsString) :
    NodesSound (s.removePairedNode now nodeId).1 := by
  rw [NodePairingState.removePairedNode]
  split
  · exact hs
  · have hdropped := hs.drop (s.loadPending now) fun _ => mem_loadPending
    constructor
    · exact hdropped.requestId
    · exact hdropped.issued
    · exact hs.distinct
    · intro other node hnode
      by_cases hid : other = trim nodeId
      · rw [hid, get_delete_self] at hnode
        exact absurd hnode (by simp)
      · rw [get_delete_other _ hid] at hnode
        exact hs.paired other node hnode
    · exact hs.approvals

theorem step_sound (step : ℤ × NodePairingOp) (hs : NodesSound s)
    (hstep : nodePairingStep localeLe s step = some s') : NodesSound s' := by
  rw [nodePairingStep] at hstep
  split at hstep
  · rename_i hfresh
    rw [← Option.some.inj hstep]
    obtain ⟨now, op⟩ := step
    cases op with
    | connect requestId allowlist params =>
        exact connect_sound hs allowlist params (hfresh requestId rfl)
    | request requestId req => exact request_sound hs (hfresh requestId rfl)
    | approve requestId callerScopes token => exact approve_sound hs requestId callerScopes token
    | reject requestId =>
        show NodesSound (s.rejectNodePairing now requestId).1
        rw [NodePairingState.rejectNodePairing]
        cases (s.loadPending now).get requestId with
        | none => exact hs
        | some pending =>
            exact hs.drop _ fun entry hentry => mem_loadPending (mem_delete.mp hentry).1
    | remove nodeId => exact remove_sound hs nodeId
  · exact absurd hstep (by simp)

theorem nodesSound_empty : NodesSound {} := by
  constructor
  · exact fun _ hentry => absurd hentry (by simp)
  · exact fun _ hentry => absurd hentry (by simp)
  · exact List.nodup_nil
  · exact fun _ _ hnode => absurd hnode (by simp [Record.get])
  · exact fun _ happroval => absurd happroval (by simp)

end Steps

/-! ## Connecting in a state that is reached -/

section Reached

variable {s next : NodePairingState} {now : ℤ} {requestId : JsString} {allowlist : List JsString}
  {params : NodeConnectParams} {result : NodeConnectPairingReconcileResult}

/-- The node declares a permission, or its absence is a change to what was approved, or no
earlier request of the node has one. -/
def NodePairingState.PermissionsSettled (s : NodePairingState) (now : ℤ)
    (params : NodeConnectParams) : Prop :=
  params.permissions.getD [] ≠ [] ∨
    (approvedSurface (s.getPairedNode params.nodeId) []).permissions.getD [] ≠ [] ∨
    ∀ latest, (s.pendingForNode now (trim params.nodeId)).head? = some latest →
      latest.permissions.getD [] = []

theorem connect_leaves (hs : NodesSound s)
    (hconnect : s.connectNode localeLe now requestId allowlist params = .ok (next, result))
    (hnot : ¬ (declaredSurface localeLe allowlist params).Within
      (approvedSurface (s.getPairedNode params.nodeId) (trim params.nodeId))) :
    ∃ request, RequestLeaves s next now requestId
      { nodeId := params.nodeId
        caps := (declaredSurface localeLe allowlist params).caps
        commands := (declaredSurface localeLe allowlist params).commands
        permissions := sentPermissions localeLe params (s.getPairedNode params.nodeId) }
      request := by
  rw [NodePairingState.connectNode] at hconnect
  simp only [reconcile_request hnot] at hconnect
  cases hrequest : s.requestNodePairing localeLe now requestId
      { nodeId := params.nodeId
        caps := (declaredSurface localeLe allowlist params).caps
        commands := (declaredSurface localeLe allowlist params).commands
        permissions := sentPermissions localeLe params (s.getPairedNode params.nodeId) } with
  | error _ =>
      rw [hrequest] at hconnect
      exact absurd hconnect (by simp [Except.map])
  | ok requested =>
      rw [hrequest] at hconnect
      have hnext : requested.1 = next := (Prod.mk.inj (Except.ok.inj hconnect)).1
      rw [← hnext]
      exact request_leaves hs.requestId hrequest

theorem sentPermissions_iff :
    (∀ entry, entry ∈ (normalizePermissionMap localeLe params.permissions).getD [] ↔
      entry ∈ (sentPermissions localeLe params (s.getPairedNode params.nodeId) <|>
        (s.pendingForNode now (trim params.nodeId)).head?.bind (·.permissions)).getD []) ↔
      s.PermissionsSettled now params := by
  rw [sentPermissions, NodePairingState.PermissionsSettled]
  cases hdeclared : normalizePermissionMap localeLe params.permissions with
  | some permissions =>
      have hne : params.permissions.getD [] ≠ [] := by
        intro hnil
        rw [normalizePermissionMap_none.mpr hnil] at hdeclared
        exact absurd hdeclared (by simp)
      simp [hne]
  | none =>
      have hnil : params.permissions.getD [] = [] := normalizePermissionMap_none.mp hdeclared
      by_cases happroved :
          (approvedSurface (s.getPairedNode params.nodeId) []).permissions.getD [] = []
      · simp only [hnil, happroved, if_true, ne_eq, not_true_eq_false, false_or]
        cases hlatest : (s.pendingForNode now (trim params.nodeId)).head? with
        | none => simp
        | some latest =>
            show (∀ entry, entry ∈ [] ↔ entry ∈ latest.permissions.getD []) ↔ _
            constructor
            · intro hsame other hother
              rw [← Option.some.inj hother]
              apply List.eq_nil_iff_forall_not_mem.mpr
              intro entry hentry
              exact absurd ((hsame entry).mpr hentry) (by simp)
            · intro hnone entry
              rw [hnone latest rfl]
      · simp [happroved]

/-- An approval is for what its request was issued for, by a caller who holds the scopes.  A
paired node gets only what it declares, what is allowed and what was last approved for it.  A
connect that declares more leaves a request for exactly that, when its permissions are settled
and only then. -/
theorem node_surface_approved {steps : List (ℤ × NodePairingOp)}
    (hexec : exec (nodePairingStep localeLe) {} steps = some s) :
    (∀ approval ∈ s.approvals, approval.HoldsScopes ∧
      (∃ surface, (approval.requestId, surface) ∈ s.issued) ∧
      ∀ surface, (approval.requestId, surface) ∈ s.issued → surface.Same approval.surface) ∧
    ∀ now requestId allowlist params next result,
      s.connectNode localeLe now requestId allowlist params = .ok (next, result) →
        (∀ node, s.getPairedNode params.nodeId = some node →
          (result.surface params.nodeId).Within (declaredSurface localeLe allowlist params) ∧
            (∀ command ∈ result.effectiveCommands, command ∈ allowlist) ∧
            ∃ approval, s.lastApproval (trim params.nodeId) = some approval ∧
              approval.HoldsScopes ∧
              (result.surface params.nodeId).Within approval.surface) ∧
        (¬ (declaredSurface localeLe allowlist params).Within
            (approvedSurface (s.getPairedNode params.nodeId) (trim params.nodeId)) →
          ((∃ entry ∈ next.pendingById, (declaredSurface localeLe allowlist params).Same
              entry.2.toNodeDeclaredSurface) ↔
            s.PermissionsSettled now params)) := by
  have hs := invariant_exec_all NodesSound (fun _ step _ => step_sound step)
    nodesSound_empty hexec
  constructor
  · intro approval happroval
    obtain ⟨hholds, surface, hsurface, hsame⟩ := hs.approvals approval happroval
    refine ⟨hholds, ⟨surface, hsurface⟩, ?_⟩
    intro other hother
    have heq : (approval.requestId, other) = (approval.requestId, surface) :=
      List.inj_on_of_nodup_map hs.distinct hother hsurface rfl
    rw [(Prod.mk.inj heq).2]
    exact hsame
  · intro now requestId allowlist params next result hconnect
    constructor
    · intro node hnode
      have hreconcile : reconcileNodePairingOnConnect localeLe allowlist params (some node) =
          result := by
        rw [NodePairingState.connectNode, hnode] at hconnect
        cases hrequest : (reconcileNodePairingOnConnect localeLe allowlist params
            (some node)).pairingRequest with
        | none =>
            simp only [hrequest] at hconnect
            exact (Prod.mk.inj (Except.ok.inj hconnect)).2
        | some input =>
            simp only [hrequest] at hconnect
            cases hstate : s.requestNodePairing localeLe now requestId input with
            | error _ =>
                rw [hstate] at hconnect
                exact absurd hconnect (by simp [Except.map])
            | ok requested =>
                rw [hstate] at hconnect
                exact (Prod.mk.inj (Except.ok.inj hconnect)).2
      obtain ⟨hdeclared, hallowed, happroved⟩ := reconcile_within result hreconcile params.nodeId
      obtain ⟨approval, hlast, hsurface⟩ := hs.paired _ node hnode
      refine ⟨hdeclared, hallowed, approval, hlast, ?_, ?_⟩
      · exact (hs.approvals approval (List.mem_of_find?_eq_some hlast)).1
      · rw [hsurface]
        exact happroved
    · intro hnot
      obtain ⟨request, hleaves⟩ := connect_leaves hs hconnect hnot
      apply Iff.trans _ (@sentPermissions_iff localeLe _ _ _)
      rw [← hleaves.permissions]
      constructor
      · intro ⟨entry, hentry, hsame⟩
        rcases hleaves.others entry hentry with rfl | ⟨-, hother⟩
        · exact hsame.permissions
        · exact absurd hsame.nodeId.symm hother
      · intro hpermissions
        refine ⟨_, hleaves.stored, ?_⟩
        constructor
        · exact hleaves.nodeId.symm
        · exact fun cap => (hleaves.caps cap).symm
        · exact fun command => (hleaves.commands command).symm
        · exact hpermissions

end Reached

/-! ## A permission that outlives its declaration -/

def codeUnitLe (left right : JsString) : Bool := !decide (right < left)

def canvasParams : NodeConnectParams :=
  { clientId := js "node-host", caps := some [js "talk", js "canvas"] }

def cameraSteps : List (ℤ × NodePairingOp) :=
  [(1, .connect (js "first") [] { clientId := js "node-host", caps := some [js "talk"] }),
    (2, .approve (js "first") (some [OPERATOR_PAIRING_SCOPE]) (js "token")),
    (3, .connect (js "second") []
      { clientId := js "node-host"
        caps := some [js "talk"]
        permissions := some [(js "camera", true)] })]

/-- The request that the node leaves when it connects with the capability asks for the permission
of the time before. -/
theorem undeclared_permission_requested :
    ∃ s next result, exec (nodePairingStep codeUnitLe) {} cameraSteps = some s ∧
      s.connectNode codeUnitLe 4 (js "third") [] canvasParams = .ok (next, result) ∧
      ¬ (declaredSurface codeUnitLe [] canvasParams).Within
        (approvedSurface (s.getPairedNode canvasParams.nodeId) (trim canvasParams.nodeId)) ∧
      ¬ ∃ entry ∈ next.pendingById, (declaredSurface codeUnitLe [] canvasParams).Same
        entry.2.toNodeDeclaredSurface := by
  have hrun : (exec (nodePairingStep codeUnitLe) {} cameraSteps).any (fun s =>
      (s.connectNode codeUnitLe 4 (js "third") [] canvasParams).toOption.any fun connected =>
        decide (js "canvas" ∉ normalizeApprovalSurfaceList
            (approvedSurface (s.getPairedNode canvasParams.nodeId)
              (trim canvasParams.nodeId)).caps ∧
          ∀ entry ∈ connected.1.pendingById,
            (js "camera", true) ∈ entry.2.permissions.getD [])) = true := by
    decide +kernel
  obtain ⟨s, hexec, hconnects⟩ := Option.any_eq_true _ _ |>.mp hrun
  obtain ⟨connected, hconnected, hboth⟩ := Option.any_eq_true _ _ |>.mp hconnects
  obtain ⟨hcaps, hcamera⟩ := of_decide_eq_true hboth
  refine ⟨s, connected.1, connected.2, hexec, ?_, ?_, ?_⟩
  · cases hconnect : s.connectNode codeUnitLe 4 (js "third") [] canvasParams with
    | error _ =>
        rw [hconnect] at hconnected
        exact absurd hconnected (by simp [Except.toOption])
    | ok value =>
        rw [hconnect] at hconnected
        rw [← Option.some.inj hconnected]
  · intro hwithin
    exact hcaps (hwithin.caps (js "canvas") (by decide))
  · intro ⟨entry, hentry, hsame⟩
    have hdeclared := (hsame.permissions (js "camera", true)).mpr (hcamera entry hentry)
    exact absurd hdeclared (by decide)

def cameraParams : NodeConnectParams :=
  { canvasParams with permissions := some [(js "camera", true)] }

theorem node_surface_approved_camera :
    ∃ s next result, exec (nodePairingStep codeUnitLe) {} cameraSteps = some s ∧
      s.connectNode codeUnitLe 4 (js "third") [] cameraParams = .ok (next, result) ∧
      ∃ entry ∈ next.pendingById, (declaredSurface codeUnitLe [] cameraParams).Same
        entry.2.toNodeDeclaredSurface := by
  have hrun : (exec (nodePairingStep codeUnitLe) {} cameraSteps).any (fun s =>
      decide (js "canvas" ∉ normalizeApprovalSurfaceList
        (approvedSurface (s.getPairedNode cameraParams.nodeId)
          (trim cameraParams.nodeId)).caps) &&
      (s.connectNode codeUnitLe 4 (js "third") [] cameraParams).toOption.isSome) = true := by
    decide +kernel
  obtain ⟨s, hexec, hboth⟩ := Option.any_eq_true _ _ |>.mp hrun
  rw [Bool.and_eq_true] at hboth
  have hcaps := of_decide_eq_true hboth.1
  cases hconnect : s.connectNode codeUnitLe 4 (js "third") [] cameraParams with
  | error _ =>
      rw [hconnect] at hboth
      exact absurd hboth.2 (by simp [Except.toOption])
  | ok connected =>
      refine ⟨s, connected.1, connected.2, hexec, hconnect, ?_⟩
      have hnot : ¬ (declaredSurface codeUnitLe [] cameraParams).Within
          (approvedSurface (s.getPairedNode cameraParams.nodeId)
            (trim cameraParams.nodeId)) := by
        intro hwithin
        exact hcaps (hwithin.caps (js "canvas") (by decide))
      have hsettled : s.PermissionsSettled 4 cameraParams := Or.inl (by decide)
      exact (((node_surface_approved hexec).2 4 (js "third") [] cameraParams connected.1
        connected.2 hconnect).2 hnot).mpr hsettled

end GreenchClaw.Pairing
