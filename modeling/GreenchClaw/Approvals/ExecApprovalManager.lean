import GreenchClaw.Js.Record

/-!
# The manager of exec approvals

`src/gateway/exec-approval-manager.ts`: a record is registered under its id, resolved or expired
once, and deleted some time later.  An entry also remembers how it was resolved and how many
forwardings it has approved; entries that were deleted are kept apart.
-/

namespace GreenchClaw.Approvals

open GreenchClaw.Js

inductive ExecApprovalDecision where
  | allowOnce
  | allowAlways
  | deny
  deriving DecidableEq

structure ExecApprovalRecord (P : Type) where
  id : JsString
  request : P
  createdAtMs : ℤ
  expiresAtMs : ℤ
  requestedByConnId : Option JsString := none
  requestedByDeviceId : Option JsString := none
  requestedByClientId : Option JsString := none
  requestedByDeviceTokenAuth : Bool := false
  resolvedAtMs : Option ℤ := none
  decision : Option ExecApprovalDecision := none
  consumedDecision : Option ExecApprovalDecision := none
  /-- Absent until the record is resolved, then a resolver or `null`. -/
  resolvedBy : Option (Option JsString) := none
  deriving DecidableEq

inductive Resolution where
  | decided (decision : ExecApprovalDecision) (resolvedBy : Option JsString)
  | expired (resolvedBy : Option JsString)
  deriving DecidableEq

/-- An entry of the map.  The serial number stands for the identity of the object; the resolution
and the uses are not part of the source. -/
structure PendingEntry (P : Type) where
  record : ExecApprovalRecord P
  serial : ℕ
  resolution : Option Resolution := none
  /-- The forwardings that carried `approved: true` for the record. -/
  uses : ℕ := 0
  deriving DecidableEq

structure ExecApprovalManager (P : Type) where
  pending : Record (PendingEntry P) := []
  /-- The deletions that are scheduled for resolved entries. -/
  cleanups : List (JsString × ℕ) := []
  /-- The entries that were deleted. -/
  deleted : List (PendingEntry P) := []
  nextSerial : ℕ := 0
  deriving DecidableEq

variable {P : Type}

def create (request : P) (timeoutMs now : ℤ) (id : Option JsString) (randomId : JsString) :
    ExecApprovalRecord P :=
  let resolvedId :=
    match id with
    | none => randomId
    | some id => if trim id = [] then randomId else trim id
  { id := resolvedId
    request
    createdAtMs := now
    expiresAtMs := now + timeoutMs }

namespace PendingEntry

variable (entry : PendingEntry P)

def resolve (now : ℤ) (decision : ExecApprovalDecision) (resolvedBy : Option JsString) :
    PendingEntry P :=
  { entry with
    record :=
      { entry.record with
        resolvedAtMs := some now
        decision := some decision
        resolvedBy := some resolvedBy }
    resolution := some (.decided decision resolvedBy) }

def expire (now : ℤ) (resolvedBy : Option JsString) : PendingEntry P :=
  { entry with
    record :=
      { entry.record with
        resolvedAtMs := some now
        decision := none
        resolvedBy := some resolvedBy }
    resolution := some (.expired resolvedBy) }

def consume : PendingEntry P :=
  { entry with
    record :=
      { entry.record with
        consumedDecision := entry.record.decision
        decision := none } }

/-- One more forwarding carries `approved: true`. -/
def use : PendingEntry P := { entry with uses := entry.uses + 1 }

end PendingEntry

namespace ExecApprovalManager

variable (m : ExecApprovalManager P)

def register (record : ExecApprovalRecord P) : Except JsString (ExecApprovalManager P) :=
  match m.pending.get record.id with
  | some existing =>
      if existing.record.resolvedAtMs = none then .ok m
      else .error (js "approval id '" ++ record.id ++ js "' already resolved")
  | none =>
      .ok
        { m with
          pending := m.pending.set record.id { record, serial := m.nextSerial }
          nextSerial := m.nextSerial + 1 }

def settle (recordId : JsString) (entry next : PendingEntry P) : ExecApprovalManager P :=
  { m with
    pending := m.pending.set recordId next
    cleanups := m.cleanups ++ [(recordId, entry.serial)] }

def resolve (now : ℤ) (recordId : JsString) (decision : ExecApprovalDecision)
    (resolvedBy : Option JsString) : ExecApprovalManager P × Bool :=
  match m.pending.get recordId with
  | none => (m, false)
  | some entry =>
      if entry.record.resolvedAtMs ≠ none then (m, false)
      else (m.settle recordId entry (entry.resolve now decision resolvedBy), true)

def expire (now : ℤ) (recordId : JsString) (resolvedBy : Option JsString) :
    ExecApprovalManager P × Bool :=
  match m.pending.get recordId with
  | none => (m, false)
  | some entry =>
      if entry.record.resolvedAtMs ≠ none then (m, false)
      else (m.settle recordId entry (entry.expire now resolvedBy), true)

def cleanup (scheduled : JsString × ℕ) : ExecApprovalManager P :=
  let rest := { m with cleanups := m.cleanups.erase scheduled }
  match m.pending.get scheduled.1 with
  | none => rest
  | some entry =>
      if entry.serial = scheduled.2 then
        { rest with
          pending := m.pending.delete scheduled.1
          deleted := m.deleted ++ [entry] }
      else rest

def getSnapshot (recordId : JsString) : Option (ExecApprovalRecord P) :=
  (m.pending.get recordId).map PendingEntry.record

def consumeAllowOnce (recordId : JsString) : ExecApprovalManager P × Bool :=
  match m.pending.get recordId with
  | none => (m, false)
  | some entry =>
      if entry.record.decision ≠ some .allowOnce then (m, false)
      else ({ m with pending := m.pending.set recordId entry.consume }, true)

def countUse (recordId : JsString) : ExecApprovalManager P :=
  match m.pending.get recordId with
  | none => m
  | some entry => { m with pending := m.pending.set recordId entry.use }

def Registered (entry : PendingEntry P) : Prop :=
  (∃ recordId, m.pending.get recordId = some entry) ∨ entry ∈ m.deleted

end ExecApprovalManager

/-! ## What holds of an entry -/

/-- The fields of the record tell how it was resolved; a decision that was made for one use has
been used at most once, when it names its resolver. -/
structure EntrySound (entry : PendingEntry P) : Prop where
  open_ : entry.resolution = none →
    entry.record.resolvedAtMs = none ∧ entry.record.decision = none ∧ entry.uses = 0
  closed : entry.resolution ≠ none → entry.record.resolvedAtMs ≠ none
  decided : ∀ decision resolvedBy, entry.resolution = some (.decided decision resolvedBy) →
    entry.record.resolvedBy = some resolvedBy ∧
      (entry.record.decision = some decision ∧ (decision = .allowOnce → entry.uses = 0) ∨
        decision = .allowOnce ∧ entry.record.decision = none ∧
          (resolvedBy ≠ none → entry.uses ≤ 1))
  expired : ∀ resolvedBy, entry.resolution = some (.expired resolvedBy) →
    entry.record.decision = none ∧ entry.record.resolvedBy = some resolvedBy

namespace EntrySound

variable {entry : PendingEntry P}

theorem new (record : ExecApprovalRecord P) (serial : ℕ) (hresolved : record.resolvedAtMs = none)
    (hdecision : record.decision = none) : EntrySound { record, serial } := by
  constructor
  · exact fun _ => ⟨hresolved, hdecision, rfl⟩
  · exact fun h => absurd rfl h
  · exact fun _ _ h => absurd h (by simp)
  · exact fun _ h => absurd h (by simp)

theorem resolve (h : EntrySound entry) (hopen : entry.record.resolvedAtMs = none) (now : ℤ)
    (decision : ExecApprovalDecision) (resolvedBy : Option JsString) :
    EntrySound (entry.resolve now decision resolvedBy) := by
  have hunresolved : entry.resolution = none := by
    by_contra hresolution
    exact h.closed hresolution hopen
  have huses := (h.open_ hunresolved).2.2
  constructor
  · exact fun hnone => absurd hnone (by simp [PendingEntry.resolve])
  · exact fun _ => by simp [PendingEntry.resolve]
  · intro other by' hother
    obtain ⟨rfl, rfl⟩ := Resolution.decided.inj (Option.some.inj hother)
    exact ⟨rfl, Or.inl ⟨rfl, fun _ => huses⟩⟩
  · exact fun _ hother => absurd hother (by simp [PendingEntry.resolve])

theorem expire (now : ℤ) (resolvedBy : Option JsString) :
    EntrySound (entry.expire now resolvedBy) := by
  constructor
  · exact fun hnone => absurd hnone (by simp [PendingEntry.expire])
  · exact fun _ => by simp [PendingEntry.expire]
  · exact fun _ _ hother => absurd hother (by simp [PendingEntry.expire])
  · intro other hother
    rw [← Resolution.expired.inj (Option.some.inj hother)]
    exact ⟨rfl, rfl⟩

theorem resolution_of_decision (h : EntrySound entry) {decision : ExecApprovalDecision}
    (hdecision : entry.record.decision = some decision) :
    ∃ resolvedBy, entry.resolution = some (.decided decision resolvedBy) ∧
      (decision = .allowOnce → entry.uses = 0) := by
  cases hresolution : entry.resolution with
  | none =>
      rw [(h.open_ hresolution).2.1] at hdecision
      exact absurd hdecision (by simp)
  | some resolution =>
      cases resolution with
      | expired resolvedBy =>
          rw [(h.expired resolvedBy hresolution).1] at hdecision
          exact absurd hdecision (by simp)
      | decided other resolvedBy =>
          obtain ⟨-, ⟨hother, huses⟩ | ⟨-, hnone, -⟩⟩ := h.decided other resolvedBy hresolution
          · rw [hother] at hdecision
            obtain rfl := Option.some.inj hdecision
            exact ⟨resolvedBy, rfl, huses⟩
          · rw [hnone] at hdecision
            exact absurd hdecision (by simp)

theorem consume (h : EntrySound entry) (hdecision : entry.record.decision = some .allowOnce) :
    EntrySound entry.consume := by
  obtain ⟨resolvedBy, hresolution, huses⟩ := h.resolution_of_decision hdecision
  constructor
  · intro hnone
    have hresolved : entry.resolution = none := hnone
    rw [hresolution] at hresolved
    exact absurd hresolved (by simp)
  · exact h.closed
  · intro other by' hother
    obtain ⟨hby, -⟩ := h.decided other by' hother
    have hsame : entry.resolution = some (.decided other by') := hother
    rw [hresolution] at hsame
    obtain ⟨rfl, -⟩ := Resolution.decided.inj (Option.some.inj hsame)
    refine ⟨hby, Or.inr ⟨rfl, rfl, ?_⟩⟩
    intro _
    have hzero : entry.consume.uses = 0 := huses rfl
    omega
  · intro other hother
    have hsame : entry.resolution = some (.expired other) := hother
    rw [hresolution] at hsame
    exact absurd hsame (by simp)

theorem use_consumed (h : EntrySound entry) (hdecision : entry.record.decision = some .allowOnce) :
    EntrySound entry.consume.use := by
  obtain ⟨resolvedBy, hresolution, huses⟩ := h.resolution_of_decision hdecision
  have hconsumed := h.consume hdecision
  constructor
  · intro hnone
    have hresolved : entry.resolution = none := hnone
    rw [hresolution] at hresolved
    exact absurd hresolved (by simp)
  · exact hconsumed.closed
  · intro other by' hother
    obtain ⟨hby, -⟩ := hconsumed.decided other by' hother
    have hsame : entry.resolution = some (.decided other by') := hother
    rw [hresolution] at hsame
    obtain ⟨rfl, -⟩ := Resolution.decided.inj (Option.some.inj hsame)
    refine ⟨hby, Or.inr ⟨rfl, rfl, ?_⟩⟩
    intro _
    have hone : entry.consume.use.uses = entry.uses + 1 := rfl
    have hzero := huses rfl
    omega
  · exact hconsumed.expired

theorem use_other (h : EntrySound entry) (hclosed : entry.resolution ≠ none)
    (hother : ∀ resolvedBy, resolvedBy ≠ none →
      entry.resolution ≠ some (.decided .allowOnce resolvedBy))
    (hdecision : entry.record.decision ≠ some .allowOnce) : EntrySound entry.use := by
  constructor
  · exact fun hnone => absurd hnone hclosed
  · exact h.closed
  · intro decision resolvedBy hresolution
    obtain ⟨hby, ⟨hsome, -⟩ | ⟨honce, hnone, -⟩⟩ := h.decided decision resolvedBy hresolution
    · refine ⟨hby, Or.inl ⟨hsome, ?_⟩⟩
      rintro rfl
      exact absurd hsome hdecision
    · refine ⟨hby, Or.inr ⟨honce, hnone, ?_⟩⟩
      intro hsome
      rw [honce] at hresolution
      exact absurd hresolution (hother resolvedBy hsome)
  · exact h.expired

end EntrySound

end GreenchClaw.Approvals
