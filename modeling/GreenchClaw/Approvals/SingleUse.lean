import GreenchClaw.Approvals.SystemRunForwarding
import GreenchClaw.Lib.Transition

/-!
# What a forwarding with `approved: true` rests on

The values that are forwarded have the binding of the record, and the record allows them.  A
decision for one use is used once when it names its resolver; without one the consumed record
looks like a record that timed out.
-/

namespace GreenchClaw.Approvals

open GreenchClaw.Js Transition Record
open GreenchClaw.Config (JsonValue)

variable {N : Type}

/-! ## The forwarded values -/

def forwardedBinding (host : RunHost N) (next : SystemRunParams N) : SystemRunApprovalBinding :=
  (buildSystemRunApprovalBinding host (normalizeStringArray host (next.get (js "command")))
    (normalizeNonEmptyString (next.get (js "cwd")))
    (normalizeNonEmptyString (next.get (js "agentId")))
    (normalizeNonEmptyString (next.get (js "sessionKey"))) (next.get (js "env"))).1

theorem get_pick {keys : List JsString} {raw : SystemRunParams N} {key : JsString} :
    Record.get (keys.filterMap fun key => (raw.get key).map fun value => (key, value)) key =
      if key ∈ keys then raw.get key else none := by
  induction keys with
  | nil => rfl
  | cons other rest ih =>
      rw [List.filterMap_cons]
      by_cases hkey : key = other
      · rw [hkey] at ih ⊢
        cases hget : raw.get other with
        | none =>
            simp only [Option.map_none, ih, List.mem_cons, true_or, hget, ite_self]
        | some value => simp [Record.get]
      · cases hget : raw.get other with
        | none => simp only [Option.map_none, ih, List.mem_cons, hkey, false_or]
        | some value =>
            have hcons : Record.get ((other, value) :: rest.filterMap fun key =>
                (raw.get key).map fun value => (key, value)) key =
                  Record.get (rest.filterMap fun key =>
                    (raw.get key).map fun value => (key, value)) key := by
              rw [Record.get, List.find?_cons_of_neg (by simpa using Ne.symm hkey), Record.get]
            rw [Option.map_some, hcons, ih]
            simp [hkey]

theorem get_pickSystemRunParams (raw : SystemRunParams N) {key : JsString}
    (hkey : key ∈ forwardedKeys) : (pickSystemRunParams raw).get key = raw.get key := by
  rw [pickSystemRunParams, get_pick, if_pos hkey]

theorem get_setOrDelete_other (next : SystemRunParams N) {key other : JsString}
    (value : Option JsString) (hne : other ≠ key) :
    (setOrDelete next key value).get other = next.get other := by
  unfold setOrDelete
  split
  · exact get_delete_other _ hne
  · split
    · exact get_delete_other _ hne
    · exact get_set_other _ _ hne

theorem normalize_setOrDelete (next : SystemRunParams N) (key : JsString)
    {value : Option JsString} (hvalue : normalizeOptionalString value = value) :
    normalizeNonEmptyString ((setOrDelete next key value).get key) = value := by
  unfold setOrDelete
  cases value with
  | none => rw [get_delete_self]; rfl
  | some text =>
      have hne : text ≠ [] := by
        rintro rfl
        simp [normalizeOptionalString] at hvalue
      simp only [hne, if_false, get_set_self]
      exact hvalue

section Context

variable {host : RunHost N} {plan : Option (SystemRunApprovalPlan N)} {p : SystemRunParams N}
  {context : SystemRunApprovalRuntimeContext N}

theorem context_cases (h : resolveSystemRunApprovalRuntimeContext host plan p = .ok context) :
    (∃ normalized, context.plan = some normalized ∧ context.argv = normalized.argv) ∧
        normalizeOptionalString context.cwd = context.cwd ∧
        normalizeOptionalString context.agentId = context.agentId ∧
        normalizeOptionalString context.sessionKey = context.sessionKey ∨
      context.plan = none ∧
        context.argv = normalizeStringArray host (p.get (js "command")) ∧
        context.cwd = normalizeNonEmptyString (p.get (js "cwd")) ∧
        context.agentId = normalizeNonEmptyString (p.get (js "agentId")) ∧
        context.sessionKey = normalizeNonEmptyString (p.get (js "sessionKey")) := by
  rw [resolveSystemRunApprovalRuntimeContext] at h
  split at h
  · rename_i normalized hplan
    left
    obtain ⟨given, -, hgiven⟩ := Option.bind_eq_some_iff.mp hplan
    rw [normalizeSystemRunApprovalPlan] at hgiven
    rw [← Except.ok.inj h]
    refine ⟨⟨normalized, rfl, rfl⟩, ?_⟩
    split at hgiven
    · exact absurd hgiven (by simp)
    · split at hgiven
      · exact absurd hgiven (by simp)
      · split at hgiven
        · exact absurd hgiven (by simp)
        · rw [← Option.some.inj hgiven]
          exact ⟨normalizeOptionalString_idem _, normalizeOptionalString_idem _,
            normalizeOptionalString_idem _⟩
  · right
    cases hcommand : resolveSystemRunCommandRequest host (p.get (js "command"))
        (p.get (js "rawCommand")) with
    | error error =>
        rw [hcommand] at h
        exact absurd h (by simp [Except.map])
    | ok command =>
        rw [hcommand] at h
        rw [← Except.ok.inj h]
        refine ⟨rfl, ?_, rfl, rfl, rfl⟩
        rw [resolveSystemRunCommandRequest] at hcommand
        split at hcommand
        · rename_i hnil
          split at hcommand
          · exact absurd hcommand (by simp)
          · rw [← Except.ok.inj hcommand, hnil]
        · rename_i arg rest hargs
          rw [hargs]
          cases hvalid : host.validateCommand (arg :: rest)
              (normalizeRawCommandText (p.get (js "rawCommand"))) with
          | error error =>
              rw [hvalid] at hcommand
              exact absurd hcommand (by simp [Except.map])
          | ok commandText =>
              rw [hvalid] at hcommand
              rw [← Except.ok.inj hcommand]

theorem forwardedBinding_eq
    (h : resolveSystemRunApprovalRuntimeContext host plan p = .ok context) {value : JsonValue N}
    {decision : JsonValue N} :
    forwardedBinding host (((applyPlan (pickSystemRunParams p) context).set (js "approved")
        value).set (js "approvalDecision") decision) =
      (buildSystemRunApprovalBinding host context.argv context.cwd context.agentId
        context.sessionKey (p.get (js "env"))).1 := by
  rw [forwardedBinding]
  have hget {key : JsString} (hkey : key ∈ forwardedKeys) :
      (((applyPlan (pickSystemRunParams p) context).set (js "approved") value).set
        (js "approvalDecision") decision).get key =
          (applyPlan (pickSystemRunParams p) context).get key := by
    have happroved : key ≠ js "approved" := by
      rintro rfl
      exact absurd hkey (by decide)
    have hdecision : key ≠ js "approvalDecision" := by
      rintro rfl
      exact absurd hkey (by decide)
    rw [get_set_other _ _ hdecision, get_set_other _ _ happroved]
  rw [hget (by decide), hget (by decide), hget (by decide), hget (by decide), hget (by decide)]
  rcases context_cases h with ⟨⟨normalized, hplan, hargv⟩, hcwd, hagent, hsession⟩ |
      ⟨hplan, hargv, hcwd, hagent, hsession⟩
  · rw [applyPlan]
    simp only [hplan]
    have hcommand : normalizeStringArray host
        (some (.array (normalized.argv.map .string))) = context.argv := by
      rw [normalizeStringArray, List.map_map, hargv]
      conv_rhs => rw [← List.map_id normalized.argv]
      apply List.map_congr_left
      intro arg _
      exact host.valueText_string arg
    have hcommandGet : (js "command") ≠ js "systemRunPlan" := by decide
    rw [normalize_setOrDelete _ _ hsession]
    rw [get_setOrDelete_other _ _ (by decide), get_setOrDelete_other _ _ (by decide),
      get_setOrDelete_other _ _ (by decide), get_setOrDelete_other _ _ (by decide),
      get_set_other _ _ hcommandGet, get_set_self, hcommand]
    rw [get_setOrDelete_other _ _ (by decide : js "cwd" ≠ js "sessionKey"),
      get_setOrDelete_other _ _ (by decide : js "cwd" ≠ js "agentId"),
      normalize_setOrDelete _ _ hcwd]
    rw [get_setOrDelete_other _ _ (by decide : js "agentId" ≠ js "sessionKey"),
      normalize_setOrDelete _ _ hagent]
    rw [get_setOrDelete_other _ _ (by decide), get_setOrDelete_other _ _ (by decide),
      get_setOrDelete_other _ _ (by decide), get_setOrDelete_other _ _ (by decide),
      get_set_other _ _ (by decide), get_set_other _ _ (by decide),
      get_pickSystemRunParams p (by decide)]
  · rw [applyPlan]
    simp only [hplan]
    rw [get_pickSystemRunParams p (by decide), get_pickSystemRunParams p (by decide),
      get_pickSystemRunParams p (by decide), get_pickSystemRunParams p (by decide),
      get_pickSystemRunParams p (by decide), hargv, hcwd, hagent, hsession]

end Context

/-! ## What one forwarding has checked -/

section Forward

variable [UnicodeCase] {host : RunHost N}

/-- The caller is the device or the connection that asked, or a backend that may stand in. -/
inductive RequesterMatches (host : RunHost N) (snapshot : Snapshot N) (p : SystemRunParams N)
    (client : Option ApprovalClient) : Prop where
  | device (deviceId : JsString) (hne : deviceId ≠ [])
      (hrecord : snapshot.requestedByDeviceId = some deviceId)
      (hclient : client.bind ApprovalClient.deviceId = some deviceId)
  | connection (connId : JsString) (hne : connId ≠ [])
      (hrecord : snapshot.requestedByConnId = some connId)
      (hclient : client.bind ApprovalClient.connId = some connId)
  | backend (hbridge : canBridgeNoDeviceApprovalFromBackend host snapshot client = true ∨
      canBridgeNoDeviceChatApprovalFromBackend host snapshot p client = true)

def NamesRequester (deviceId connId : Option JsString) : Prop :=
  deviceId.getD [] ≠ [] ∨ connId.getD [] ≠ []

/-- The record was decided for the request, or it timed out and the caller may use approvals. -/
def Allows (resolution : Option Resolution) (client : Option ApprovalClient) : Prop :=
  (∃ resolvedBy, resolution = some (.decided .allowOnce resolvedBy)) ∨
    (∃ resolvedBy, resolution = some (.decided .allowAlways resolvedBy)) ∨
    (∃ resolvedBy, resolution = some (.expired resolvedBy)) ∧ clientHasApprovals client = true

/-- What a forwarding that carries `approved: true` rests on. -/
structure ForwardSound (host : RunHost N) (entry : PendingEntry (ExecApprovalRequestPayload N))
    (call : ForwardCall N) (p next : SystemRunParams N) : Prop where
  unexpired : call.nowMs ≤ entry.record.expiresAtMs
  node : ∃ nodeId, normalizeOptionalString call.nodeId = some nodeId ∧
    normalizeOptionalString entry.record.request.nodeId = some nodeId
  requester : RequesterMatches host entry.record p call.client
  bound : ∃ binding, entry.record.request.systemRunBinding = some binding ∧
    binding.Agrees (forwardedBinding host next)
  allowed : Allows entry.resolution call.client

theorem requester_matches {snapshot : Snapshot N} {p : SystemRunParams N}
    {client : Option ApprovalClient} (h : requesterAllowed host snapshot p client = .ok ())
    (hnames : NamesRequester snapshot.requestedByDeviceId snapshot.requestedByConnId) :
    RequesterMatches host snapshot p client := by
  rw [requesterAllowed] at h
  split at h
  · rename_i hdevice
    split at h
    · exact absurd h (by simp)
    · rename_i hsame
      rw [not_not] at hsame
      cases hid : snapshot.requestedByDeviceId with
      | none =>
          rw [hid] at hdevice
          exact absurd rfl hdevice
      | some deviceId =>
          rw [hid] at hdevice hsame
          exact .device deviceId hdevice hid hsame.symm
  · rename_i hdevice
    have hconn := hnames.resolve_left hdevice
    split at h
    · exact absurd h (by simp)
    · rename_i hallowed
      cases hid : snapshot.requestedByConnId with
      | none =>
          rw [hid] at hconn
          exact absurd rfl hconn
      | some connId =>
          rw [hid] at hconn hallowed
          by_cases hsame : some connId = client.bind ApprovalClient.connId
          · exact .connection connId hconn hid hsame.symm
          · apply RequesterMatches.backend
            by_contra hnot
            rw [not_or, Bool.not_eq_true, Bool.not_eq_true] at hnot
            exact hallowed ⟨hconn, hsame, hnot⟩

theorem checkSnapshot_ok {call : ForwardCall N} {p : SystemRunParams N} {runId : JsString}
    {snapshot : Snapshot N} (h : checkSnapshot host call p runId snapshot = .ok ()) :
    call.nowMs ≤ snapshot.expiresAtMs ∧
      (∃ nodeId, normalizeOptionalString call.nodeId = some nodeId ∧
        normalizeOptionalString snapshot.request.nodeId = some nodeId) ∧
      requesterAllowed host snapshot p call.client = .ok () := by
  rw [checkSnapshot] at h
  split at h
  · exact absurd h (by simp)
  · rename_i htime
    refine ⟨by omega, ?_⟩
    split at h
    · exact absurd h (by simp)
    · rename_i targetNodeId htarget
      split at h
      · exact absurd h (by simp)
      · rename_i approvalNodeId happroval
        split at h
        · exact absurd h (by simp)
        · rename_i hsame
          rw [not_not] at hsame
          split at h
          · rename_i hrequester
            exact ⟨⟨targetNodeId, htarget, hsame ▸ happroval⟩, hrequester⟩
          · exact absurd h (by simp)

theorem approvedParams_ok {call : ForwardCall N} {p next : SystemRunParams N} {runId : JsString}
    {snapshot : Snapshot N} (h : approvedParams host call p runId snapshot = .ok next) :
    checkSnapshot host call p runId snapshot = .ok () ∧
      ∃ binding, snapshot.request.systemRunBinding = some binding ∧
        ∀ value decision, binding.Agrees (forwardedBinding host
          ((next.set (js "approved") value).set (js "approvalDecision") decision)) := by
  rw [approvedParams] at h
  split at h
  · exact absurd h (by simp)
  · rename_i hcheck
    refine ⟨hcheck, ?_⟩
    split at h
    · exact absurd h (by simp)
    · rename_i context hcontext
      split at h
      · exact absurd h (by simp)
      · rename_i hmatch
        rw [evaluateSystemRunApprovalMatch] at hmatch
        split at hmatch
        · exact absurd hmatch (by simp [requestMismatch])
        · cases hbinding : snapshot.request.systemRunBinding with
          | none =>
              rw [hbinding] at hmatch
              exact absurd hmatch (by simp [requestMismatch])
          | some binding =>
              rw [hbinding] at hmatch
              refine ⟨binding, rfl, ?_⟩
              intro value decision
              rw [← Except.ok.inj h, forwardedBinding_eq hcontext]
              exact agrees_of_match hmatch

/-- The decisions that add the flags, and what becomes of the manager. -/
inductive Enforced (m : ExecApprovalManager (ExecApprovalRequestPayload N)) (call : ForwardCall N)
    (runId : JsString) (snapshot : Snapshot N) (next : SystemRunParams N) :
    ExecApprovalManager (ExecApprovalRequestPayload N) → JsonValue N → Prop where
  | once (hdecision : snapshot.decision = some .allowOnce)
      (hconsumed : (m.consumeAllowOnce runId).2 = true) :
      Enforced m call runId snapshot next (m.consumeAllowOnce runId).1 (withApproval next .allowOnce)
  | always (hdecision : snapshot.decision = some .allowAlways) :
      Enforced m call runId snapshot next m (withApproval next .allowAlways)
  | fallback (hdecision : snapshot.decision ≠ some .allowOnce) (htimedOut : timedOut snapshot = true)
      (happrovals : clientHasApprovals call.client = true) :
      Enforced m call runId snapshot next m (withApproval next .allowOnce)

omit [UnicodeCase] in
theorem enforceDecision_ok {m m' : ExecApprovalManager (ExecApprovalRequestPayload N)}
    {call : ForwardCall N} {p next : SystemRunParams N} {runId : JsString} {snapshot : Snapshot N}
    {value : JsonValue N} (h : enforceDecision m call p runId snapshot next = (m', .ok value)) :
    Enforced m call runId snapshot next m' value := by
  rw [enforceDecision] at h
  split at h
  · rename_i hdecision
    split at h
    · rename_i hconsumed
      obtain ⟨hm, hvalue⟩ := Prod.mk.inj h
      rw [← hm, ← Except.ok.inj hvalue]
      exact .once hdecision hconsumed
    · exact absurd (Prod.mk.inj h).2 (by simp)
  · rename_i honce
    split at h
    · rename_i hdecision
      obtain ⟨hm, hvalue⟩ := Prod.mk.inj h
      rw [← hm, ← Except.ok.inj hvalue]
      exact .always hdecision
    · split at h
      · split at h
        · rename_i hfallback
          obtain ⟨hm, hvalue⟩ := Prod.mk.inj h
          rw [← hm, ← Except.ok.inj hvalue]
          exact .fallback honce hfallback.1 hfallback.2.2
        · exact absurd (Prod.mk.inj h).2 (by simp)
      · exact absurd (Prod.mk.inj h).2 (by simp)

def CarriesApproval (value : JsonValue N) : Prop :=
  ∃ next : SystemRunParams N, value = .object next ∧ next.get (js "approved") = some (.bool true)

theorem sanitize_approved {m m' : ExecApprovalManager (ExecApprovalRequestPayload N)}
    {call : ForwardCall N} {value : JsonValue N}
    (h : sanitizeSystemRunParamsForForwarding host m call = (m', .ok value))
    (happroved : CarriesApproval value) :
    ∃ (p : SystemRunParams N) (runId : JsString) (snapshot : Snapshot N) (next : SystemRunParams N),
      call.rawParams = .object p ∧ normalizeNullableString (p.get (js "runId")) = some runId ∧
        m.getSnapshot runId = some snapshot ∧
        approvedParams host call p runId snapshot = .ok next ∧
        Enforced m call runId snapshot next m' value := by
  obtain ⟨given, hgiven, hflag⟩ := happroved
  rw [sanitizeSystemRunParamsForForwarding] at h
  split at h
  · rename_i p hraw
    rw [sanitizeParams] at h
    split at h
    · split at h
      · exact absurd (Prod.mk.inj h).2 (by simp)
      · have hvalue := Except.ok.inj (Prod.mk.inj h).2
        rw [hgiven] at hvalue
        rw [← JsonValue.object.inj hvalue, pickSystemRunParams, get_pick,
          if_neg (by decide)] at hflag
        exact absurd hflag (by simp)
    · split at h
      · exact absurd (Prod.mk.inj h).2 (by simp)
      · rename_i runId hrunId
        split at h
        · exact absurd (Prod.mk.inj h).2 (by simp)
        · rename_i snapshot hsnapshot
          split at h
          · exact absurd (Prod.mk.inj h).2 (by simp)
          · rename_i next hnext
            exact ⟨p, runId, snapshot, next, hraw, hrunId, hsnapshot, hnext, enforceDecision_ok h⟩
  · rename_i hnot
    have hvalue := Except.ok.inj (Prod.mk.inj h).2
    rw [hgiven] at hvalue
    exact absurd hvalue (hnot given)

end Forward

/-! ## Runs -/

structure ApprovalRequest (N : Type) where
  request : ExecApprovalRequestPayload N
  timeoutMs : ℤ
  id : Option JsString := none
  randomId : JsString
  requestedByConnId : Option JsString := none
  requestedByDeviceId : Option JsString := none
  requestedByClientId : Option JsString := none
  requestedByDeviceTokenAuth : Bool := false

def ApprovalRequest.record (req : ApprovalRequest N) (now : ℤ) : Snapshot N :=
  { create req.request req.timeoutMs now req.id req.randomId with
    requestedByConnId := req.requestedByConnId
    requestedByDeviceId := req.requestedByDeviceId
    requestedByClientId := req.requestedByClientId
    requestedByDeviceTokenAuth := req.requestedByDeviceTokenAuth }

inductive ApprovalOp (N : Type) where
  | register (req : ApprovalRequest N)
  | resolve (recordId : JsString) (decision : ExecApprovalDecision) (resolvedBy : Option JsString)
  | expire (recordId : JsString) (resolvedBy : Option JsString)
  | consume (recordId : JsString)
  | cleanup (scheduled : JsString × ℕ)
  | forward (call : ForwardCall N)

abbrev Manager (N : Type) := ExecApprovalManager (ExecApprovalRequestPayload N)

section Runs

variable [UnicodeCase] (host : RunHost N)

def forwardSystemRun (m : Manager N) (call : ForwardCall N) : Manager N :=
  match sanitizeSystemRunParamsForForwarding host m call, call.rawParams with
  | (next, .ok (.object forwarded)), .object p =>
      match Record.get forwarded (js "approved"), normalizeNullableString (Record.get p (js "runId"))
        with
      | some (.bool true), some runId => next.countUse runId
      | _, _ => next
  | (next, _), _ => next

/-- One operation at a time of the clock; a deletion runs when it is scheduled. -/
def approvalStep (m : Manager N) (step : ℤ × ApprovalOp N) : Option (Manager N) :=
  match step.2 with
  | .register req => some ((m.register (req.record step.1)).toOption.getD m)
  | .resolve recordId decision resolvedBy =>
      some (m.resolve step.1 recordId decision resolvedBy).1
  | .expire recordId resolvedBy => some (m.expire step.1 recordId resolvedBy).1
  | .consume recordId => some (m.consumeAllowOnce recordId).1
  | .cleanup scheduled => if scheduled ∈ m.cleanups then some (m.cleanup scheduled) else none
  | .forward call => some (forwardSystemRun host m call)

/-- A registered record names who asked, and a decision for one use names its resolver. -/
def NamesParties (_ : Manager N) (step : ℤ × ApprovalOp N) : Prop :=
  match step.2 with
  | .register req => NamesRequester req.requestedByDeviceId req.requestedByConnId
  | .resolve _ decision resolvedBy => decision = .allowOnce → resolvedBy ≠ none
  | _ => True

instance (m : Manager N) (step : ℤ × ApprovalOp N) : Decidable (NamesParties m step) :=
  match step with
  | (_, .register req) =>
      inferInstanceAs (Decidable (req.requestedByDeviceId.getD [] ≠ [] ∨
        req.requestedByConnId.getD [] ≠ []))
  | (_, .resolve _ decision resolvedBy) =>
      inferInstanceAs (Decidable (decision = .allowOnce → resolvedBy ≠ none))
  | (_, .expire _ _) => isTrue trivial
  | (_, .consume _) => isTrue trivial
  | (_, .cleanup _) => isTrue trivial
  | (_, .forward _) => isTrue trivial

end Runs

/-! ## The invariant -/

structure EntryNamed (entry : PendingEntry (ExecApprovalRequestPayload N)) : Prop where
  sound : EntrySound entry
  requester : NamesRequester entry.record.requestedByDeviceId entry.record.requestedByConnId
  resolver : ∀ resolvedBy, entry.resolution = some (.decided .allowOnce resolvedBy) →
    resolvedBy ≠ none

structure EntriesAre {P : Type} (property : PendingEntry P → Prop) (m : ExecApprovalManager P) :
    Prop where
  pending : ∀ recordId entry, m.pending.get recordId = some entry → property entry
  deleted : ∀ entry ∈ m.deleted, property entry

namespace EntriesAre

variable {P : Type} {property : PendingEntry P → Prop} {m : ExecApprovalManager P}

theorem put (h : EntriesAre property m) {m' : ExecApprovalManager P} (recordId : JsString)
    (entry : PendingEntry P) (hpending : m'.pending = m.pending.set recordId entry)
    (hdeleted : m'.deleted = m.deleted) (hentry : property entry) : EntriesAre property m' := by
  constructor
  · intro other stored hget
    rw [hpending] at hget
    by_cases hid : other = recordId
    · rw [hid, get_set_self] at hget
      exact Option.some.inj hget ▸ hentry
    · rw [get_set_other _ _ hid] at hget
      exact h.pending other stored hget
  · rw [hdeleted]
    exact h.deleted

theorem cleanup (h : EntriesAre property m) (scheduled : JsString × ℕ) :
    EntriesAre property (m.cleanup scheduled) := by
  rw [ExecApprovalManager.cleanup]
  cases hget : m.pending.get scheduled.1 with
  | none => exact ⟨h.pending, h.deleted⟩
  | some entry =>
      simp only
      split
      · constructor
        · intro other stored hother
          by_cases hid : other = scheduled.1
          · rw [hid, get_delete_self] at hother
            exact absurd hother (by simp)
          · rw [get_delete_other _ hid] at hother
            exact h.pending other stored hother
        · intro stored hstored
          rcases List.mem_append.mp hstored with hold | hnew
          · exact h.deleted stored hold
          · rw [List.mem_singleton.mp hnew]
            exact h.pending _ _ hget
      · exact ⟨h.pending, h.deleted⟩

end EntriesAre

section Steps

variable {m : Manager N} {now : ℤ}

theorem register_named (hm : EntriesAre EntryNamed m) {req : ApprovalRequest N}
    (hnames : NamesRequester req.requestedByDeviceId req.requestedByConnId) :
    EntriesAre EntryNamed ((m.register (req.record now)).toOption.getD m) := by
  rw [ExecApprovalManager.register]
  cases hget : m.pending.get (req.record now).id with
  | some existing =>
      simp only
      split <;> exact hm
  | none =>
      show EntriesAre EntryNamed
        { m with
          pending := m.pending.set (req.record now).id
            { record := req.record now, serial := m.nextSerial }
          nextSerial := m.nextSerial + 1 }
      apply hm.put (req.record now).id { record := req.record now, serial := m.nextSerial }
      · rfl
      · rfl
      · exact ⟨EntrySound.new _ _ rfl rfl, hnames, fun _ h => absurd h (by simp)⟩

theorem resolve_named (hm : EntriesAre EntryNamed m) (recordId : JsString)
    {decision : ExecApprovalDecision} {resolvedBy : Option JsString}
    (hnames : decision = .allowOnce → resolvedBy ≠ none) :
    EntriesAre EntryNamed (m.resolve now recordId decision resolvedBy).1 := by
  rw [ExecApprovalManager.resolve]
  cases hget : m.pending.get recordId with
  | none => exact hm
  | some entry =>
      have hentry := hm.pending recordId entry hget
      simp only
      split
      · exact hm
      · rename_i hopen
        rw [not_not] at hopen
        show EntriesAre EntryNamed (m.settle recordId entry (entry.resolve now decision resolvedBy))
        apply hm.put recordId (entry.resolve now decision resolvedBy)
        · rfl
        · rfl
        · refine ⟨hentry.sound.resolve hopen now decision resolvedBy, hentry.requester, ?_⟩
          intro other hother
          obtain ⟨honce, hby⟩ := Resolution.decided.inj (Option.some.inj hother)
          rw [← hby]
          exact hnames honce

theorem expire_named (hm : EntriesAre EntryNamed m) (recordId : JsString)
    (resolvedBy : Option JsString) :
    EntriesAre EntryNamed (m.expire now recordId resolvedBy).1 := by
  rw [ExecApprovalManager.expire]
  cases hget : m.pending.get recordId with
  | none => exact hm
  | some entry =>
      have hentry := hm.pending recordId entry hget
      simp only
      split
      · exact hm
      · show EntriesAre EntryNamed (m.settle recordId entry (entry.expire now resolvedBy))
        apply hm.put recordId (entry.expire now resolvedBy)
        · rfl
        · rfl
        · refine ⟨EntrySound.expire now resolvedBy, hentry.requester, ?_⟩
          exact fun _ hother => absurd hother (by simp [PendingEntry.expire])

theorem consumeAllowOnce_of_decision {recordId : JsString}
    {entry : PendingEntry (ExecApprovalRequestPayload N)}
    (hget : m.pending.get recordId = some entry)
    (hdecision : entry.record.decision = some .allowOnce) :
    m.consumeAllowOnce recordId =
      ({ m with pending := m.pending.set recordId entry.consume }, true) := by
  rw [ExecApprovalManager.consumeAllowOnce, hget]
  simp [hdecision]

theorem consume_named (hm : EntriesAre EntryNamed m) (recordId : JsString) :
    EntriesAre EntryNamed (m.consumeAllowOnce recordId).1 := by
  cases hget : m.pending.get recordId with
  | none =>
      rw [ExecApprovalManager.consumeAllowOnce, hget]
      exact hm
  | some entry =>
      have hentry := hm.pending recordId entry hget
      by_cases hdecision : entry.record.decision = some .allowOnce
      · rw [consumeAllowOnce_of_decision hget hdecision]
        show EntriesAre EntryNamed { m with pending := m.pending.set recordId entry.consume }
        apply hm.put recordId entry.consume
        · rfl
        · rfl
        · exact ⟨hentry.sound.consume hdecision, hentry.requester, hentry.resolver⟩
      · rw [ExecApprovalManager.consumeAllowOnce, hget]
        simp only [ne_eq, hdecision, not_false_eq_true, if_true]
        exact hm

theorem getSnapshot_eq_some {recordId : JsString} {snapshot : Snapshot N}
    (h : m.getSnapshot recordId = some snapshot) :
    ∃ entry, m.pending.get recordId = some entry ∧ entry.record = snapshot :=
  Option.map_eq_some_iff.mp h

theorem expired_of_timedOut {entry : PendingEntry (ExecApprovalRequestPayload N)}
    (hentry : EntryNamed entry) (htimedOut : timedOut entry.record = true) :
    ∃ resolvedBy, entry.resolution = some (.expired resolvedBy) := by
  rw [timedOut] at htimedOut
  simp only [Bool.and_eq_true, decide_eq_true_eq, Option.isNone_iff_eq_none] at htimedOut
  obtain ⟨⟨hresolved, hdecision⟩, hby⟩ := htimedOut
  cases hresolution : entry.resolution with
  | none =>
      rw [(hentry.sound.open_ hresolution).1] at hresolved
      exact absurd hresolved (by simp)
  | some resolution =>
      cases resolution with
      | expired resolvedBy => exact ⟨resolvedBy, rfl⟩
      | decided decision resolvedBy =>
          obtain ⟨hsame, ⟨hother, -⟩ | ⟨honce, -, -⟩⟩ :=
            hentry.sound.decided decision resolvedBy hresolution
          · rw [hdecision] at hother
            exact absurd hother (by simp)
          · rw [hby] at hsame
            rw [honce] at hresolution
            exact absurd (Option.some.inj hsame).symm (hentry.resolver resolvedBy hresolution)

theorem allows_of_enforced {m' : Manager N} {call : ForwardCall N} {runId : JsString}
    {next : SystemRunParams N} {value : JsonValue N}
    {entry : PendingEntry (ExecApprovalRequestPayload N)} (hentry : EntryNamed entry)
    (h : Enforced m call runId entry.record next m' value) :
    Allows entry.resolution call.client := by
  cases h with
  | once hdecision hconsumed =>
      obtain ⟨resolvedBy, hresolution, -⟩ := hentry.sound.resolution_of_decision hdecision
      exact Or.inl ⟨resolvedBy, hresolution⟩
  | always hdecision =>
      obtain ⟨resolvedBy, hresolution, -⟩ := hentry.sound.resolution_of_decision hdecision
      exact Or.inr (Or.inl ⟨resolvedBy, hresolution⟩)
  | fallback hdecision htimedOut happrovals =>
      exact Or.inr (Or.inr ⟨expired_of_timedOut hentry htimedOut, happrovals⟩)

theorem enforced_object {m' : Manager N} {call : ForwardCall N} {runId : JsString}
    {snapshot : Snapshot N} {next : SystemRunParams N} {value : JsonValue N}
    (h : Enforced m call runId snapshot next m' value) :
    ∃ decision : AllowDecision, value = withApproval next decision := by
  cases h with
  | once _ _ => exact ⟨_, rfl⟩
  | always _ => exact ⟨_, rfl⟩
  | fallback _ _ _ => exact ⟨_, rfl⟩

theorem enforced_named (hm : EntriesAre EntryNamed m) {m' : Manager N} {call : ForwardCall N}
    {runId : JsString} {next : SystemRunParams N} {value : JsonValue N}
    {entry : PendingEntry (ExecApprovalRequestPayload N)}
    (hget : m.pending.get runId = some entry)
    (h : Enforced m call runId entry.record next m' value) :
    EntriesAre EntryNamed (m'.countUse runId) := by
  have hentry := hm.pending runId entry hget
  have hused (hnot : entry.record.decision ≠ some .allowOnce)
      (hclosed : entry.resolution ≠ none)
      (hother : ∀ resolvedBy, resolvedBy ≠ none →
        entry.resolution ≠ some (.decided .allowOnce resolvedBy)) :
      EntriesAre EntryNamed (m.countUse runId) := by
    rw [ExecApprovalManager.countUse, hget]
    show EntriesAre EntryNamed { m with pending := m.pending.set runId entry.use }
    apply hm.put runId entry.use
    · rfl
    · rfl
    · exact ⟨hentry.sound.use_other hclosed hother hnot, hentry.requester, hentry.resolver⟩
  cases h with
  | once hdecision hconsumed =>
      rw [consumeAllowOnce_of_decision hget hdecision, ExecApprovalManager.countUse]
      simp only [get_set_self]
      have hm' : EntriesAre EntryNamed
          { m with pending := m.pending.set runId entry.consume } := by
        apply hm.put runId entry.consume
        · rfl
        · rfl
        · exact ⟨hentry.sound.consume hdecision, hentry.requester, hentry.resolver⟩
      show EntriesAre EntryNamed
        { m with
          pending := (m.pending.set runId entry.consume).set runId entry.consume.use }
      apply hm'.put runId entry.consume.use
      · rfl
      · rfl
      · exact ⟨hentry.sound.use_consumed hdecision, hentry.requester, hentry.resolver⟩
  | always hdecision =>
      obtain ⟨resolvedBy, hresolution, -⟩ := hentry.sound.resolution_of_decision hdecision
      apply hused
      · rw [hdecision]
        decide
      · rw [hresolution]
        simp
      · intro other _
        rw [hresolution]
        simp
  | fallback hdecision htimedOut happrovals =>
      obtain ⟨resolvedBy, hresolution⟩ := expired_of_timedOut hentry htimedOut
      apply hused hdecision
      · rw [hresolution]
        simp
      · intro other _
        rw [hresolution]
        simp

variable [UnicodeCase] {host : RunHost N}

theorem sanitize_unapproved (host : RunHost N) (m : Manager N) (call : ForwardCall N) :
    (sanitizeSystemRunParamsForForwarding host m call).1 = m ∨
      ∃ recordId, (sanitizeSystemRunParamsForForwarding host m call).1 =
        (m.consumeAllowOnce recordId).1 := by
  rw [sanitizeSystemRunParamsForForwarding]
  split
  · rw [sanitizeParams]
    split
    · split <;> exact Or.inl rfl
    · split
      · exact Or.inl rfl
      · rename_i runId hrunId
        split
        · exact Or.inl rfl
        · split
          · exact Or.inl rfl
          · rw [enforceDecision]
            split
            · split <;> exact Or.inr ⟨runId, rfl⟩
            · split
              · exact Or.inl rfl
              · split
                · split <;> exact Or.inl rfl
                · exact Or.inl rfl
  · exact Or.inl rfl

theorem forward_named (hm : EntriesAre EntryNamed m) (call : ForwardCall N) :
    EntriesAre EntryNamed (forwardSystemRun host m call) := by
  have hplain : EntriesAre EntryNamed (sanitizeSystemRunParamsForForwarding host m call).1 := by
    rcases sanitize_unapproved host m call with hsame | ⟨recordId, hconsumed⟩
    · rw [hsame]
      exact hm
    · rw [hconsumed]
      exact consume_named hm recordId
  rw [forwardSystemRun]
  split
  · rename_i next forwarded p hresult hraw
    rw [hresult] at hplain
    split
    · rename_i runId hflag hrunId
      obtain ⟨p', runId', snapshot, values, hraw', hrunId', hsnapshot, -, henforced⟩ :=
        sanitize_approved hresult ⟨forwarded, rfl, hflag⟩
      rw [hraw] at hraw'
      rw [← JsonValue.object.inj hraw'] at hrunId'
      have hid : runId = runId' := Option.some.inj (hrunId.symm.trans hrunId')
      obtain ⟨entry, hget, hrecord⟩ := getSnapshot_eq_some hsnapshot
      rw [← hrecord] at henforced
      rw [hid]
      exact enforced_named hm hget henforced
    · exact hplain
  · rename_i next result hresult _
    rw [hresult] at hplain
    exact hplain

theorem step_named {m' : Manager N} (step : ℤ × ApprovalOp N) (hm : EntriesAre EntryNamed m)
    (hnames : NamesParties m step) (hstep : approvalStep host m step = some m') :
    EntriesAre EntryNamed m' := by
  obtain ⟨now, op⟩ := step
  rw [approvalStep] at hstep
  cases op with
  | register req =>
      rw [← Option.some.inj hstep]
      exact register_named hm hnames
  | resolve recordId decision resolvedBy =>
      rw [← Option.some.inj hstep]
      exact resolve_named hm recordId hnames
  | expire recordId resolvedBy =>
      rw [← Option.some.inj hstep]
      exact expire_named hm recordId resolvedBy
  | consume recordId =>
      rw [← Option.some.inj hstep]
      exact consume_named hm recordId
  | cleanup scheduled =>
      simp only at hstep
      split at hstep
      · rw [← Option.some.inj hstep]
        exact hm.cleanup scheduled
      · exact absurd hstep (by simp)
  | forward call =>
      rw [← Option.some.inj hstep]
      exact forward_named hm call

end Steps

/-! ## What a run leaves -/

section Reached

theorem entriesAre_empty : EntriesAre EntryNamed ({} : Manager N) := by
  constructor
  · exact fun _ _ hget => absurd hget (by simp [Record.get])
  · exact fun _ hmem => absurd hmem (List.not_mem_nil)

variable [UnicodeCase] {host : RunHost N} {m : Manager N}

/-- In a run whose records name who asked and whose decisions for one use name their resolver,
each decision for one use is used at most once, and what is forwarded next rests on a record. -/
theorem approved_forwardings_rest {steps : List (ℤ × ApprovalOp N)}
    (hnames : StepsMeet (approvalStep host) NamesParties {} steps)
    (hexec : exec (approvalStep host) {} steps = some m) :
    (∀ entry, m.Registered entry → ∀ resolvedBy,
      entry.resolution = some (.decided .allowOnce resolvedBy) → entry.uses ≤ 1) ∧
    ∀ call m' value, sanitizeSystemRunParamsForForwarding host m call = (m', .ok value) →
      CarriesApproval value →
        ∃ p runId entry next, call.rawParams = .object p ∧
          normalizeNullableString (Record.get p (js "runId")) = some runId ∧
          m.pending.get runId = some entry ∧ value = .object next ∧
          ForwardSound host entry call p next := by
  have hm : EntriesAre EntryNamed m :=
    invariant_exec (EntriesAre EntryNamed)
      (fun _ step _ hs hok hstep => step_named step hs hok hstep) entriesAre_empty hnames hexec
  constructor
  · intro entry hregistered resolvedBy hresolution
    have hentry : EntryNamed entry := by
      rcases hregistered with ⟨recordId, hget⟩ | hdeleted
      · exact hm.pending recordId entry hget
      · exact hm.deleted entry hdeleted
    obtain ⟨-, ⟨-, hzero⟩ | ⟨-, -, hone⟩⟩ :=
      hentry.sound.decided .allowOnce resolvedBy hresolution
    · have huses := hzero rfl
      omega
    · exact hone (hentry.resolver resolvedBy hresolution)
  · intro call m' value hforward hcarries
    obtain ⟨p, runId, snapshot, next, hraw, hrunId, hsnapshot, happroved, henforced⟩ :=
      sanitize_approved hforward hcarries
    obtain ⟨entry, hget, hrecord⟩ := getSnapshot_eq_some hsnapshot
    have hentry := hm.pending runId entry hget
    obtain ⟨decision, hvalue⟩ := enforced_object henforced
    rw [← hrecord] at happroved henforced
    obtain ⟨hcheck, binding, hbinding, hagrees⟩ := approvedParams_ok happroved
    obtain ⟨htime, hnode, hrequester⟩ := checkSnapshot_ok hcheck
    refine ⟨p, runId, entry, _, hraw, hrunId, hget, hvalue, ?_⟩
    constructor
    · exact htime
    · exact hnode
    · exact requester_matches hrequester hentry.requester
    · exact ⟨binding, hbinding, hagrees _ _⟩
    · exact allows_of_enforced hentry henforced

end Reached

/-! ## A decision for one use that is used twice -/

def natHost : RunHost ℕ where
  valueText
    | .string text => text
    | _ => []
  valueText_string _ := rfl
  isFinite _ := true
  isIndex _ := true
  localeLe left right := !decide (right < left)
  hashEntries entries := entries.flatMap fun entry => entry.1 ++ entry.2
  validateCommand argv _ := .ok ((argv.intersperse (js " ")).flatten)

def lsRequest : ApprovalRequest ℕ :=
  { request :=
      { host := some (js "node")
        nodeId := some (js "node-1")
        systemRunBinding := some { argv := [js "ls"] } }
    timeoutMs := 1000
    id := some (js "run-1")
    randomId := js "random"
    requestedByDeviceId := some (js "phone") }

def lsCall : ForwardCall ℕ :=
  { nodeId := some (js "node-1")
    rawParams := .object
      [(js "command", .array [.string (js "ls")]), (js "runId", .string (js "run-1")),
        (js "approved", .bool true), (js "approvalDecision", .string (js "allow-once"))]
    client := some { scopes := [js "operator.approvals"], deviceId := some (js "phone") }
    nowMs := 3 }

def lsApproved (resolvedBy : Option JsString) : List (ℤ × ApprovalOp ℕ) :=
  [(1, .register lsRequest), (2, .resolve (js "run-1") .allowOnce resolvedBy)]

/-- Nobody is named as the resolver: the consumed record passes for one that timed out. -/
theorem consumed_decision_replayed :
    ∃ m entry, exec (@approvalStep ℕ asciiCase natHost) {}
        (lsApproved none ++ [(3, .forward lsCall), (3, .forward lsCall)]) = some m ∧
      m.Registered entry ∧ entry.resolution = some (.decided .allowOnce none) ∧
      ¬ entry.uses ≤ 1 := by
  have hrun : (exec (@approvalStep ℕ asciiCase natHost) {}
      (lsApproved none ++ [(3, .forward lsCall), (3, .forward lsCall)])).any (fun m =>
        (m.pending.get (js "run-1")).any fun entry =>
          decide (entry.resolution = some (.decided .allowOnce none) ∧ ¬ entry.uses ≤ 1)) =
            true := by
    decide +kernel
  obtain ⟨m, hexec, hentry⟩ := Option.any_eq_true _ _ |>.mp hrun
  obtain ⟨entry, hget, huses⟩ := Option.any_eq_true _ _ |>.mp hentry
  exact ⟨m, entry, hexec, Or.inl ⟨js "run-1", hget⟩, of_decide_eq_true huses⟩

def carriesApproval : JsonValue ℕ → Bool
  | .object next =>
      match Record.get next (js "approved") with
      | some (.bool true) => true
      | _ => false
  | _ => false

theorem carriesApproval_spec {value : JsonValue ℕ} (h : carriesApproval value = true) :
    CarriesApproval value := by
  unfold carriesApproval at h
  split at h
  · rename_i next
    refine ⟨next, rfl, ?_⟩
    split at h
    · assumption
    · cases h
  · cases h

theorem approved_forwardings_rest_phone :
    ∃ m m' value, exec (@approvalStep ℕ asciiCase natHost) {}
        (lsApproved (some (js "owner"))) = some m ∧
      @sanitizeSystemRunParamsForForwarding ℕ asciiCase natHost m lsCall = (m', .ok value) ∧
      CarriesApproval value ∧
      ∃ p runId entry next, lsCall.rawParams = .object p ∧
        normalizeNullableString (Record.get p (js "runId")) = some runId ∧
        m.pending.get runId = some entry ∧ value = .object next ∧
        @ForwardSound ℕ asciiCase natHost entry lsCall p next := by
  have hrun : (exec (@approvalStep ℕ asciiCase natHost) {}
      (lsApproved (some (js "owner")))).any (fun m =>
        (@sanitizeSystemRunParamsForForwarding ℕ asciiCase natHost m lsCall).2.toOption.any
          carriesApproval) = true := by
    decide +kernel
  obtain ⟨m, hexec, hforwards⟩ := Option.any_eq_true _ _ |>.mp hrun
  obtain ⟨value, hvalue, hflag⟩ := Option.any_eq_true _ _ |>.mp hforwards
  have hcarries : CarriesApproval value := carriesApproval_spec hflag
  cases hforward : @sanitizeSystemRunParamsForForwarding ℕ asciiCase natHost m lsCall with
  | mk m' result =>
      rw [hforward] at hvalue
      cases result with
      | error _ => exact absurd hvalue (by simp [Except.toOption])
      | ok other =>
          have hsame : other = value := Option.some.inj hvalue
          rw [hsame] at hforward
          refine ⟨m, m', value, hexec, hforward, hcarries, ?_⟩
          exact (@approved_forwardings_rest ℕ asciiCase natHost m
            (lsApproved (some (js "owner"))) (by decide +kernel) hexec).2 lsCall m' value hforward
              hcarries

end GreenchClaw.Approvals
