import GreenchClaw.Pairing.Effects

/-!
# Where the scopes of a token come from

Three invariants of the runs: a pending request asks for what its id was issued for, a token that
is stored is the one that was issued for its device and role, and the roles and the approved
scopes of a device go back to its approvals since it was last removed.
-/

namespace GreenchClaw.Pairing

open GreenchClaw.Js Transition Record

/-! ## Requests -/

structure RequestsSound (s : PairingState) : Prop where
  requestId : ∀ entry ∈ s.pendingById, entry.2.requestId = entry.1
  issued : ∀ entry ∈ s.pendingById, (entry.1, entry.2.grant) ∈ s.issuedRequests
  distinct : (s.issuedRequests.map Prod.fst).Nodup

theorem RequestsSound.of_subset {s s' : PairingState} (h : RequestsSound s)
    (hpending : ∀ entry ∈ s'.pendingById, entry ∈ s.pendingById)
    (hissued : s'.issuedRequests = s.issuedRequests) : RequestsSound s' := by
  constructor
  · intro entry hentry
    exact h.requestId entry (hpending entry hentry)
  · intro entry hentry
    rw [hissued]
    exact h.issued entry (hpending entry hentry)
  · rw [hissued]
    exact h.distinct

theorem RequestsSound.effect {now : ℤ} {op : PairingOp} {s s' : PairingState}
    (h : RequestsSound s)
    (hfresh : ∀ requestId ∈ PairingState.drawnRequestIds op,
      requestId ∉ s.issuedRequests.map Prod.fst)
    (heffect : PairingEffect now op s s') : RequestsSound s' := by
  cases heffect with
  | unchanged => exact h
  | dropped pendingById hpending => exact h.of_subset hpending rfl
  | requested request pendingById hdrawn hpending =>
      constructor
      · intro entry hentry
        rcases hpending entry hentry with hold | rfl
        · exact h.requestId entry hold
        · rfl
      · intro entry hentry
        rcases hpending entry hentry with hold | rfl
        · exact List.mem_append_left _ (h.issued entry hold)
        · exact List.mem_append_right _ (List.mem_singleton.mpr rfl)
      · show ((s.issuedRequests ++ [(request.requestId, request.grant)]).map Prod.fst).Nodup
        rw [List.map_append, List.nodup_append]
        refine ⟨h.distinct, by simp, ?_⟩
        intro requestId hrequestId other hother
        rw [List.map_cons, List.map_nil, List.mem_singleton] at hother
        rw [hother]
        rintro rfl
        exact hfresh _ hdrawn hrequestId
  | refreshed old request pendingById hold hid hgrant hpending =>
      constructor
      · intro entry hentry
        rcases hpending entry hentry with hkept | rfl
        · exact h.requestId entry hkept
        · rfl
      · intro entry hentry
        rcases hpending entry hentry with hkept | rfl
        · exact h.issued entry hkept
        · have hissued := h.issued old hold
          rw [← h.requestId old hold, ← hid, ← hgrant] at hissued
          exact hissued
      · exact h.distinct
  | approved requestId pending device approval minted hpending hfacts =>
      apply h.of_subset
      · intro entry hentry
        exact mem_prune (mem_delete.mp hentry).1
      · rfl
  | forgotten deviceId device hdevice pendingById hpending => exact h.of_subset hpending rfl
  | used => exact h.of_subset (fun _ hentry => hentry) rfl
  | revoked => exact h.of_subset (fun _ hentry => hentry) rfl
  | replaced => exact h.of_subset (fun _ hentry => hentry) rfl

theorem RequestsSound.grant_eq {s : PairingState} (h : RequestsSound s)
    {entry : JsString × PendingRequest} (hentry : entry ∈ s.pendingById)
    {issued : JsString × RequestGrant} (hissued : issued ∈ s.issuedRequests)
    (hid : issued.1 = entry.1) : issued.2 = entry.2.grant := by
  have heq : issued = (entry.1, entry.2.grant) :=
    List.inj_on_of_nodup_map h.distinct hissued (h.issued entry hentry) hid
  rw [heq]

/-! ## Tokens -/

structure TokensSound (s : PairingState) : Prop where
  deviceId : ∀ device ∈ s.pairedByDeviceId, device.2.deviceId = device.1
  issued : ∀ device ∈ s.pairedByDeviceId, ∀ entry ∈ device.2.tokens,
    IssuedToken.mk entry.2.token device.1 entry.1 ∈ s.issuedTokens
  live : ∀ device ∈ s.pairedByDeviceId, ∀ entry ∈ device.2.tokens,
    entry.2.revoked = false → entry.2.token ∉ s.retiredTokens
  distinct : (s.issuedTokens.map IssuedToken.token).Nodup
  retired : ∀ token ∈ s.retiredTokens, token ∈ s.issuedTokens.map IssuedToken.token

theorem TokensSound.frame {s s' : PairingState} (h : TokensSound s)
    (hpaired : s'.pairedByDeviceId = s.pairedByDeviceId)
    (hissued : s'.issuedTokens = s.issuedTokens)
    (hretired : s'.retiredTokens = s.retiredTokens) : TokensSound s' := by
  constructor
  · rw [hpaired]
    exact h.deviceId
  · rw [hpaired, hissued]
    exact h.issued
  · rw [hpaired, hretired]
    exact h.live
  · rw [hissued]
    exact h.distinct
  · rw [hretired, hissued]
    exact h.retired

/-- Tokens of some roles of one device are retired and fresh ones are issued.  An entry that is
stored afterwards is a fresh one, or it was issued before and is dead or of another role. -/
theorem TokensSound.change {s s' : PairingState} (h : TokensSound s) (deviceId : JsString)
    (roles : JsString → Prop) (minted : List IssuedToken) (gone : List JsString)
    (hissued : s'.issuedTokens = s.issuedTokens ++ minted)
    (hretired : s'.retiredTokens = s.retiredTokens ++ gone)
    (hdistinct : (minted.map IssuedToken.token).Nodup)
    (hfresh : ∀ token ∈ minted.map IssuedToken.token,
      token ∉ s.issuedTokens.map IssuedToken.token)
    (hgone : ∀ token ∈ gone, ∃ role, roles role ∧
      IssuedToken.mk token deviceId role ∈ s.issuedTokens)
    (hdevice : ∀ device ∈ s'.pairedByDeviceId, device.2.deviceId = device.1)
    (hentries : ∀ device ∈ s'.pairedByDeviceId, ∀ entry ∈ device.2.tokens,
      IssuedToken.mk entry.2.token device.1 entry.1 ∈ minted ∨
        IssuedToken.mk entry.2.token device.1 entry.1 ∈ s.issuedTokens ∧
          (entry.2.revoked = false →
            entry.2.token ∉ s.retiredTokens ∧ (device.1 = deviceId → ¬ roles entry.1))) :
    TokensSound s' := by
  have hgoneIssued : ∀ token ∈ gone, token ∈ s.issuedTokens.map IssuedToken.token := by
    intro token htoken
    obtain ⟨role, -, hrole⟩ := hgone token htoken
    exact List.mem_map.mpr ⟨_, hrole, rfl⟩
  constructor
  · exact hdevice
  · intro device hmem entry hentry
    rw [hissued, List.mem_append]
    rcases hentries device hmem entry hentry with hnew | ⟨hold, -⟩
    · exact Or.inr hnew
    · exact Or.inl hold
  · intro device hmem entry hentry hlive
    rw [hretired, List.mem_append]
    rintro (hretiredOld | hretiredNew)
    · rcases hentries device hmem entry hentry with hnew | ⟨-, hkept⟩
      · exact hfresh _ (List.mem_map.mpr ⟨_, hnew, rfl⟩) (h.retired _ hretiredOld)
      · exact (hkept hlive).1 hretiredOld
    · rcases hentries device hmem entry hentry with hnew | ⟨hold, hkept⟩
      · exact hfresh _ (List.mem_map.mpr ⟨_, hnew, rfl⟩) (hgoneIssued _ hretiredNew)
      · -- the token was issued once, so it is the one of the retired role
        obtain ⟨role, hrole, hrow⟩ := hgone _ hretiredNew
        have heq := List.inj_on_of_nodup_map h.distinct hold hrow rfl
        simp only [IssuedToken.mk.injEq, true_and] at heq
        rw [← heq.2] at hrole
        exact (hkept hlive).2 heq.1 hrole
  · rw [hissued, List.map_append, List.nodup_append]
    refine ⟨h.distinct, hdistinct, ?_⟩
    intro old hold new hnew
    rintro rfl
    exact hfresh _ hnew hold
  · intro token htoken
    rw [hretired, List.mem_append] at htoken
    rw [hissued, List.map_append, List.mem_append]
    rcases htoken with hold | hnew
    · exact Or.inl (h.retired token hold)
    · exact Or.inl (hgoneIssued token hnew)

theorem mem_setTokens {minted : List (JsString × DeviceAuthToken)}
    {tokens : Record DeviceAuthToken} {entry : JsString × DeviceAuthToken}
    (h : entry ∈ setTokens tokens minted) :
    entry ∈ minted ∨ entry ∈ tokens ∧ entry.1 ∉ minted.map Prod.fst := by
  induction minted generalizing tokens with
  | nil => exact Or.inr ⟨h, by simp⟩
  | cons first rest ih =>
      rcases ih h with hrest | ⟨hset, hother⟩
      · exact Or.inl (List.mem_cons_of_mem _ hrest)
      · rcases mem_set hset with rfl | ⟨hold, hne⟩
        · exact Or.inl List.mem_cons_self
        · have hnotMinted : entry.1 ∉ (first :: rest).map Prod.fst := by
            rw [List.map_cons, List.mem_cons, not_or]
            exact ⟨hne, hother⟩
          exact Or.inr ⟨hold, hnotMinted⟩

theorem mem_tokensOf {device : Option PairedDevice} {roles : List JsString} {token : JsString}
    (h : token ∈ tokensOf device roles) :
    ∃ found ∈ device, ∃ entry ∈ found.tokens, entry.1 ∈ roles ∧ entry.2.token = token := by
  cases device with
  | none => simp [tokensOf] at h
  | some device =>
      obtain ⟨entry, hentry, htoken⟩ := List.mem_filterMap.mp h
      split at htoken
      · rename_i hrole
        exact ⟨device, rfl, entry, hentry, List.contains_iff_mem.mp hrole,
          Option.some.inj htoken⟩
      · simp at htoken

theorem TokensSound.putToken {s : PairingState} (h : TokensSound s) {deviceId : JsString}
    {device : PairedDevice} (hdevice : s.pairedByDeviceId.get deviceId = some device)
    {role : JsString} {next : DeviceAuthToken} {found : JsString × PairedDevice}
    (hfound : found ∈ (s.putToken device role next).pairedByDeviceId) :
    found.2.deviceId = found.1 ∧ ∀ entry ∈ found.2.tokens,
      (found.1 = deviceId ∧ entry = (role, next)) ∨
        IssuedToken.mk entry.2.token found.1 entry.1 ∈ s.issuedTokens ∧
          (entry.2.revoked = false →
            entry.2.token ∉ s.retiredTokens ∧ (found.1 = deviceId → entry.1 ≠ role)) := by
  have hstored := mem_of_get hdevice
  have hkey : device.deviceId = deviceId := h.deviceId _ hstored
  rcases mem_set hfound with rfl | ⟨hold, hne⟩
  · refine ⟨rfl, ?_⟩
    intro entry hentry
    rcases mem_set hentry with hnew | ⟨hkept, hother⟩
    · exact Or.inl ⟨hkey, hnew⟩
    · have hissued := h.issued _ hstored entry hkept
      rw [← hkey] at hissued
      exact Or.inr ⟨hissued, fun hlive => ⟨h.live _ hstored entry hkept hlive, fun _ => hother⟩⟩
  · refine ⟨h.deviceId found hold, ?_⟩
    intro entry hentry
    rw [hkey] at hne
    exact Or.inr ⟨h.issued found hold entry hentry,
      fun hlive => ⟨h.live found hold entry hentry hlive, fun hsame => absurd hsame hne⟩⟩

theorem TokensSound.approved {s : PairingState} (h : TokensSound s) {now : ℤ}
    {requestId : JsString} {pending : PendingRequest} {device : PairedDevice} {approval : Approval}
    {minted : List (JsString × DeviceAuthToken)} {drawn : List JsString} (hnodup : drawn.Nodup)
    (hfresh : ∀ token ∈ drawn, token ∉ s.issuedTokens.map IssuedToken.token)
    (hfacts : ApprovalFacts pending (s.pairedByDeviceId.get pending.deviceId) device approval
      minted drawn) :
    TokensSound (s.storeApproved now requestId (s.pairedByDeviceId.get pending.deviceId) device
      approval minted) := by
  have hkey := hfacts.deviceId
  have htokens : (minted.map fun entry =>
      IssuedToken.mk entry.2.token device.deviceId entry.1).map IssuedToken.token =
      minted.map fun entry => entry.2.token := by
    rw [List.map_map]
    rfl
  apply h.change pending.deviceId (fun role => role ∈ minted.map Prod.fst)
    (minted.map fun entry => IssuedToken.mk entry.2.token device.deviceId entry.1)
    (tokensOf (s.pairedByDeviceId.get pending.deviceId) (minted.map Prod.fst))
  · rfl
  · rfl
  · rw [htokens]
    exact hfacts.mintedDrawn.nodup hnodup
  · intro token htoken
    rw [htokens] at htoken
    exact hfresh token (hfacts.mintedDrawn.subset htoken)
  · intro token htoken
    obtain ⟨found, hfound, entry, hentry, hrole, rfl⟩ := mem_tokensOf htoken
    exact ⟨entry.1, hrole, h.issued _ (mem_of_get hfound) entry hentry⟩
  · intro found hfound
    rcases mem_set hfound with rfl | ⟨hold, -⟩
    · rfl
    · exact h.deviceId found hold
  · intro found hfound entry hentry
    rcases mem_set hfound with rfl | ⟨hold, hne⟩
    · rcases mem_setTokens hentry with hnew | ⟨hkept, hother⟩
      · exact Or.inl (List.mem_map.mpr ⟨entry, hnew, rfl⟩)
      · cases hexisting : s.pairedByDeviceId.get pending.deviceId with
        | none => simp [hexisting] at hkept
        | some existing =>
            rw [hexisting] at hkept
            have hstored := mem_of_get hexisting
            have hissued := h.issued _ hstored entry hkept
            rw [← hkey] at hissued
            exact Or.inr ⟨hissued,
              fun hlive => ⟨h.live _ hstored entry hkept hlive, fun _ => hother⟩⟩
    · rw [hkey] at hne
      exact Or.inr ⟨h.issued found hold entry hentry,
        fun hlive => ⟨h.live found hold entry hentry hlive, fun hsame => absurd hsame hne⟩⟩

theorem TokensSound.effect {now : ℤ} {op : PairingOp} {s s' : PairingState} (h : TokensSound s)
    (hnodup : (PairingState.drawnTokens op).Nodup)
    (hfresh : ∀ token ∈ PairingState.drawnTokens op,
      token ∉ s.issuedTokens.map IssuedToken.token)
    (heffect : PairingEffect now op s s') : TokensSound s' := by
  cases heffect with
  | unchanged => exact h
  | dropped => exact h.frame rfl rfl rfl
  | requested => exact h.frame rfl rfl rfl
  | refreshed => exact h.frame rfl rfl rfl
  | approved requestId pending device approval minted hpending hfacts =>
      exact h.approved hnodup hfresh hfacts
  | forgotten deviceId device hdevice pendingById hpending =>
      have hstored := mem_of_get hdevice
      apply h.change deviceId (fun _ => True) [] (device.tokens.map fun entry => entry.2.token)
      · exact (List.append_nil _).symm
      · rfl
      · exact List.nodup_nil
      · simp
      · intro token htoken
        obtain ⟨entry, hentry, rfl⟩ := List.mem_map.mp htoken
        exact ⟨entry.1, trivial, h.issued _ hstored entry hentry⟩
      · intro found hfound
        exact h.deviceId found (mem_delete.mp hfound).1
      · intro found hfound entry hentry
        obtain ⟨hold, hne⟩ := mem_delete.mp hfound
        exact Or.inr ⟨h.issued found hold entry hentry,
          fun hlive => ⟨h.live found hold entry hentry hlive, fun hsame => absurd hsame hne⟩⟩
  | used deviceId device role entry next hdevice hentry htoken hrevoked =>
      have hstored := mem_of_get hdevice
      have hheld := mem_of_get hentry
      apply h.change deviceId (fun _ => False) [] []
      · exact (List.append_nil _).symm
      · exact (List.append_nil _).symm
      · exact List.nodup_nil
      · simp
      · simp
      · intro found hfound
        exact (h.putToken hdevice hfound).1
      · intro found hfound stored hmem
        rcases (h.putToken hdevice hfound).2 stored hmem with ⟨hsame, rfl⟩ | ⟨hissued, hkept⟩
        · rw [hsame, htoken, hrevoked]
          exact Or.inr ⟨h.issued _ hstored _ hheld,
            fun hlive => ⟨h.live _ hstored _ hheld hlive, fun _ => not_false⟩⟩
        · exact Or.inr ⟨hissued, fun hlive => ⟨(hkept hlive).1, fun _ => not_false⟩⟩
  | revoked deviceId device role entry next hdevice hentry htoken hrevoked =>
      have hstored := mem_of_get hdevice
      have hheld := mem_of_get hentry
      apply h.change deviceId (fun name => name = role) [] [entry.token]
      · exact (List.append_nil _).symm
      · rfl
      · exact List.nodup_nil
      · simp
      · intro token hgone
        rw [List.mem_singleton.mp hgone]
        exact ⟨role, rfl, h.issued _ hstored _ hheld⟩
      · intro found hfound
        exact (h.putToken hdevice hfound).1
      · intro found hfound stored hmem
        rcases (h.putToken hdevice hfound).2 stored hmem with ⟨hsame, rfl⟩ | hold
        · rw [hsame, htoken]
          right
          refine ⟨h.issued _ hstored _ hheld, ?_⟩
          intro hlive
          rw [hrevoked] at hlive
          exact absurd hlive (by simp)
        · exact Or.inr hold
  | replaced deviceId device role entry hdevice hrole hdrawn hlive =>
      have hstored := mem_of_get hdevice
      have hkey : device.deviceId = deviceId := h.deviceId _ hstored
      apply h.change deviceId (fun name => name = role) [⟨entry.token, device.deviceId, role⟩]
        (tokensOf (some device) [role])
      · rfl
      · rfl
      · exact List.nodup_singleton _
      · intro token htoken
        rw [List.map_cons, List.map_nil, List.mem_singleton] at htoken
        rw [htoken]
        exact hfresh _ hdrawn
      · intro token htoken
        obtain ⟨found, hfound, old, hold, hname, rfl⟩ := mem_tokensOf htoken
        rw [← Option.some.inj hfound] at hold
        exact ⟨old.1, List.mem_singleton.mp hname, h.issued _ hstored old hold⟩
      · intro found hfound
        exact (h.putToken hdevice hfound).1
      · intro found hfound stored hmem
        rcases (h.putToken hdevice hfound).2 stored hmem with ⟨hsame, rfl⟩ | hold
        · rw [hsame, ← hkey]
          exact Or.inl (List.mem_singleton.mpr rfl)
        · exact Or.inr hold

/-! ## Grants -/

def ApprovedBy (approvals : List Approval) (deviceId : JsString) (p : Approval → Prop) : Prop :=
  ∃ approval ∈ approvals, approval.deviceId = deviceId ∧ p approval

theorem ApprovedBy.imp {approvals : List Approval} {deviceId : JsString}
    {p q : Approval → Prop} (h : ApprovedBy approvals deviceId p)
    (himp : ∀ approval, p approval → q approval) : ApprovedBy approvals deviceId q := by
  obtain ⟨approval, hmem, hdevice, hp⟩ := h
  exact ⟨approval, hmem, hdevice, himp approval hp⟩

theorem ApprovedBy.mono {approvals others : List Approval} {deviceId : JsString}
    {p : Approval → Prop} (h : ApprovedBy approvals deviceId p)
    (hmono : ∀ approval ∈ approvals, approval.deviceId = deviceId → approval ∈ others) :
    ApprovedBy others deviceId p := by
  obtain ⟨approval, hmem, hdevice, hp⟩ := h
  exact ⟨approval, hmono approval hmem hdevice, hdevice, hp⟩

structure DeviceSound (approvals : List Approval) (deviceId : JsString) (device : PairedDevice) :
    Prop where
  tokens : ∀ entry ∈ device.tokens,
    ApprovedBy approvals deviceId fun approval => approval.names entry.1
  roles : ∀ role ∈ device.approvedRoles,
    ApprovedBy approvals deviceId fun approval => approval.names role
  trimmed : ∀ scope ∈ device.baseline.getD [], scope ≠ [] ∧ trim scope = scope
  baseline : ∀ scope ∈ device.baseline.getD [], isOperatorScope scope = true →
    ApprovedBy approvals deviceId fun approval => approval.vouches scope

theorem DeviceSound.mono {approvals others : List Approval} {deviceId : JsString}
    {device : PairedDevice} (h : DeviceSound approvals deviceId device)
    (hmono : ∀ approval ∈ approvals, approval.deviceId = deviceId → approval ∈ others) :
    DeviceSound others deviceId device := by
  constructor
  · intro entry hentry
    exact (h.tokens entry hentry).mono hmono
  · intro role hrole
    exact (h.roles role hrole).mono hmono
  · exact h.trimmed
  · intro scope hscope hoperator
    exact (h.baseline scope hscope hoperator).mono hmono

theorem DeviceSound.setToken {approvals : List Approval} {deviceId : JsString}
    {device : PairedDevice} (h : DeviceSound approvals deviceId device) {role : JsString}
    {next : DeviceAuthToken}
    (hrole : ApprovedBy approvals deviceId fun approval => approval.names role) :
    DeviceSound approvals deviceId { device with tokens := device.tokens.set role next } := by
  constructor
  · intro entry hentry
    rcases mem_set hentry with rfl | ⟨hold, -⟩
    · exact hrole
    · exact h.tokens entry hold
  · exact h.roles
  · exact h.trimmed
  · exact h.baseline

theorem DeviceSound.vouches {approvals : List Approval} {deviceId : JsString}
    {device : PairedDevice} (h : DeviceSound approvals deviceId device) {given scope : JsString}
    (hgiven : given ∈ trimmedSet (device.baseline.getD [])) (himplies : ScopeImplies given scope)
    (hoperator : isOperatorScope scope = true) :
    ApprovedBy approvals deviceId fun approval => approval.vouches scope := by
  obtain ⟨-, text, htext, htrim⟩ := mem_trimmedSet.mp hgiven
  rw [(h.trimmed text htext).2] at htrim
  rw [htrim] at htext
  have hvouched := h.baseline given htext (himplies.isOperatorScope hoperator)
  apply hvouched.imp
  intro approval hgranted
  exact approval.vouches_implied hgranted himplies hoperator

def GrantsSound (s : PairingState) : Prop :=
  ∀ device ∈ s.pairedByDeviceId, DeviceSound s.approvals device.1 device.2

theorem DeviceSound.approved {approvals : List Approval} {pending : PendingRequest}
    {existing : Option PairedDevice} {device : PairedDevice} {approval : Approval}
    {minted : List (JsString × DeviceAuthToken)} {freshTokens : List JsString}
    (hfacts : ApprovalFacts pending existing device approval minted freshTokens)
    (hexisting : ∀ old ∈ existing, DeviceSound approvals device.deviceId old) :
    DeviceSound (approvals ++ [approval]) device.deviceId
      { device with tokens := setTokens ((existing.map PairedDevice.tokens).getD []) minted } := by
  have hnew {p : Approval → Prop} (hp : p approval) :
      ApprovedBy (approvals ++ [approval]) device.deviceId p :=
    ⟨approval, by simp, hfacts.approvalDevice.trans hfacts.deviceId.symm, hp⟩
  have hold (old : PairedDevice) (hmem : old ∈ existing) :
      DeviceSound (approvals ++ [approval]) device.deviceId old :=
    (hexisting old hmem).mono fun _ hmem _ => List.mem_append_left _ hmem
  constructor
  · intro entry hentry
    rcases mem_setTokens hentry with hminted | ⟨hkept, -⟩
    · exact hnew (hfacts.mintedNamed entry hminted)
    · cases existing with
      | none => simp at hkept
      | some old => exact (hold old rfl).tokens entry hkept
  · intro role hrole
    rcases hfacts.rolesNamed role hrole with hnamed | ⟨old, hmem, hkept⟩
    · exact hnew hnamed
    · exact (hold old hmem).roles role hkept
  · intro scope hscope
    obtain ⟨hne, htrim, -⟩ := hfacts.baseline scope hscope
    exact ⟨hne, htrim⟩
  · intro scope hscope hoperator
    obtain ⟨-, -, hvouches⟩ := hfacts.baseline scope hscope
    rcases hvouches hoperator with hvouched | ⟨given, hgiven, himplies⟩
    · exact hnew hvouched
    · cases existing with
      | none => simp [trimmedSet] at hgiven
      | some old => exact (hold old rfl).vouches hgiven himplies hoperator

theorem GrantsSound.putToken {s : PairingState} (h : GrantsSound s) {deviceId : JsString}
    {device : PairedDevice} (hdevice : s.pairedByDeviceId.get deviceId = some device)
    (hkey : device.deviceId = deviceId) {role : JsString} {next : DeviceAuthToken}
    (hrole : ApprovedBy s.approvals deviceId fun approval => approval.names role)
    {found : JsString × PairedDevice}
    (hfound : found ∈ (s.putToken device role next).pairedByDeviceId) :
    DeviceSound s.approvals found.1 found.2 := by
  rcases mem_set hfound with rfl | ⟨hold, -⟩
  · rw [← hkey] at hrole hdevice
    exact (h _ (mem_of_get hdevice)).setToken hrole
  · exact h found hold

theorem GrantsSound.effect {now : ℤ} {op : PairingOp} {s s' : PairingState} (h : GrantsSound s)
    (hkeys : ∀ device ∈ s.pairedByDeviceId, device.2.deviceId = device.1)
    (heffect : PairingEffect now op s s') : GrantsSound s' := by
  cases heffect with
  | unchanged => exact h
  | dropped => exact h
  | requested => exact h
  | refreshed => exact h
  | approved requestId pending device approval minted hpending hfacts =>
      intro found hfound
      rcases mem_set hfound with rfl | ⟨hold, -⟩
      · apply DeviceSound.approved hfacts
        intro old hexisting
        rw [hfacts.deviceId]
        exact h _ (mem_of_get hexisting)
      · exact (h found hold).mono fun _ hmem _ => List.mem_append_left _ hmem
  | forgotten deviceId device hdevice pendingById hpending =>
      intro found hfound
      obtain ⟨hold, hne⟩ := mem_delete.mp hfound
      apply (h found hold).mono
      intro approval hmem hsame
      rw [← hsame] at hne
      exact List.mem_filter.mpr ⟨hmem, decide_eq_true hne⟩
  | used deviceId device role entry next hdevice hentry =>
      have hstored := mem_of_get hdevice
      have hnamed := (h _ hstored).tokens _ (mem_of_get hentry)
      intro found hfound
      exact h.putToken hdevice (hkeys _ hstored) hnamed hfound
  | revoked deviceId device role entry next hdevice hentry =>
      have hstored := mem_of_get hdevice
      have hnamed := (h _ hstored).tokens _ (mem_of_get hentry)
      intro found hfound
      exact h.putToken hdevice (hkeys _ hstored) hnamed hfound
  | replaced deviceId device role entry hdevice hrole =>
      have hstored := mem_of_get hdevice
      have hnamed := (h _ hstored).roles role hrole
      intro found hfound
      exact h.putToken hdevice (hkeys _ hstored) hnamed hfound

/-! ## Runs -/

structure PairingSound (s : PairingState) : Prop where
  requests : RequestsSound s
  tokens : TokensSound s
  grants : GrantsSound s

theorem pairingSound_init : PairingSound {} := by
  constructor
  · constructor <;> simp
  · constructor <;> simp
  · intro device hdevice
    simp at hdevice

theorem pairingSound_step {s s' : PairingState} {step : ℤ × PairingOp} (h : PairingSound s)
    (hstep : pairingStep s step = some s') : PairingSound s' := by
  rw [pairingStep] at hstep
  split at hstep
  · rename_i hdraws
    have heffect := apply_effect hdraws
    rw [Option.some.inj hstep] at heffect
    obtain ⟨-, hnodup, hfreshTokens, hfreshRequests, -⟩ := hdraws
    constructor
    · exact h.requests.effect hfreshRequests heffect
    · exact h.tokens.effect hnodup hfreshTokens heffect
    · exact h.grants.effect h.tokens.deviceId heffect
  · simp at hstep

theorem pairingSound_run {s : PairingState} {steps : List (ℤ × PairingOp)}
    (hrun : exec pairingStep {} steps = some s) : PairingSound s :=
  invariant_exec_all PairingSound (fun _ _ _ h hstep => pairingSound_step h hstep)
    pairingSound_init hrun

theorem vouches_of_accepted {s : PairingState} (h : PairingSound s)
    {deviceId token role : JsString} {scopes : List JsString} {device : PairedDevice}
    {name : JsString} {entry : DeviceAuthToken}
    (haccepted : Accepted s deviceId token role scopes device name entry) {scope : JsString}
    (hscope : scope ∈ normalizeDeviceAuthScopes (some scopes))
    (hoperator : isOperatorScope scope = true) :
    ApprovedBy s.approvals (trim deviceId) fun approval =>
      approval.names name ∧ approval.covers scope ∨ approval.shadows scope := by
  have hstored := mem_of_get haccepted.storedDevice
  have hdevice := h.grants _ hstored
  have hnamed := hdevice.tokens _ (mem_of_get haccepted.storedEntry)
  have hrequested := mem_trimmedSet_normalized.mpr hscope
  by_cases hname : name = OPERATOR_ROLE
  · have hallowed := haccepted.allowed
    have hinside := haccepted.inBaseline
    rw [hname] at hallowed hinside ⊢
    cases hbaseline : device.baseline with
    | none => simp [scopesWithinApprovedDeviceBaseline, hbaseline] at hinside
    | some baseline =>
        simp only [scopesWithinApprovedDeviceBaseline, hbaseline] at hinside
        have hentry := roleScopesAllow_operator hallowed hrequested
        have hgranted := operatorScopeSatisfied_trans
          (fun given hgiven _ => roleScopesAllow_operator hinside hgiven) hentry
        rw [operatorScopeSatisfied_normalized, operatorScopeSatisfied_iff] at hgranted
        obtain ⟨-, middle, hmiddle, hstands⟩ := hgranted
        obtain ⟨given, hgiven, himplies⟩ := exists_of_mem_normalizeDeviceAuthScopes hmiddle
        apply hdevice.vouches _ (himplies.trans hstands) hoperator
        rw [hbaseline]
        exact hgiven
  · have htrim : trim name = name := by
      rw [haccepted.trimmedRole]
      exact trim_trim role
    have hpre : trim name ++ [unit '.'] <+: scope := by
      apply roleScopesAllow_other _ haccepted.allowed hrequested
      rw [htrim]
      exact hname
    rw [htrim] at hpre
    apply hnamed.imp
    intro approval hnames
    exact Or.inr ⟨name, hnames, hname, hpre⟩

/-- In every run, an accepted token was not revoked or replaced; its role is named by an approval
of the device since it was last removed, of the request or of its bootstrap profile; an operator
scope that no other approved role begins is covered by such an approval and by its approver; and a
request asks for what its id was issued for. -/
theorem verifyDeviceToken_provenance {s : PairingState} {steps : List (ℤ × PairingOp)}
    (hrun : exec pairingStep {} steps = some s) :
    (∀ deviceId token role scopes accepted,
      s.verifyDeviceToken deviceId token role scopes = .ok accepted →
        token ∉ s.retiredTokens ∧
        (ApprovedBy s.approvals (trim deviceId) fun approval => approval.names (trim role)) ∧
        ∀ scope ∈ normalizeDeviceAuthScopes (some scopes), isOperatorScope scope = true →
          ApprovedBy s.approvals (trim deviceId) fun approval =>
            approval.names (trim role) ∧ approval.covers scope ∨ approval.shadows scope) ∧
      ∀ entry ∈ s.pendingById, ∀ issued ∈ s.issuedRequests, issued.1 = entry.1 →
        entry.2.grant = issued.2 := by
  have hsound := pairingSound_run hrun
  constructor
  · intro deviceId token role scopes accepted hverify
    have haccepted := accepted_of_verify hverify
    have hstored := mem_of_get haccepted.storedDevice
    have hheld := mem_of_get haccepted.storedEntry
    have hrole := haccepted.trimmedRole
    refine ⟨?_, ?_, ?_⟩
    · rw [haccepted.sameToken]
      exact hsound.tokens.live _ hstored _ hheld haccepted.live
    · rw [← hrole]
      exact (hsound.grants _ hstored).tokens _ hheld
    · intro scope hscope hoperator
      rw [← hrole]
      exact vouches_of_accepted hsound haccepted hscope hoperator
  · intro entry hentry issued hissued hid
    exact (hsound.requests.grant_eq hentry hissued hid).symm

def operatorSteps : List (ℤ × PairingOp) :=
  [(1, .request (js "first")
      { deviceId := js "laptop", publicKey := js "key", role := some OPERATOR_ROLE,
        scopes := some [OPERATOR_READ_SCOPE] }),
    (2, .approve (js "first") (some [OPERATOR_ADMIN_SCOPE]) [js "token"]),
    (3, .request (js "second")
      { deviceId := js "laptop", publicKey := js "key", role := some OPERATOR_ROLE,
        scopes := some [OPERATOR_WRITE_SCOPE] })]

theorem verifyDeviceToken_provenance_operator :
    ∃ s, exec pairingStep {} operatorSteps = some s ∧
      js "token" ∉ s.retiredTokens ∧
      (ApprovedBy s.approvals (js "laptop") fun approval => approval.names OPERATOR_ROLE) ∧
      (ApprovedBy s.approvals (js "laptop") fun approval =>
        approval.names OPERATOR_ROLE ∧ approval.covers OPERATOR_READ_SCOPE ∨
          approval.shadows OPERATOR_READ_SCOPE) ∧
      ∀ entry ∈ s.pendingById, ∀ issued ∈ s.issuedRequests, issued.1 = entry.1 →
        entry.2.grant = issued.2 := by
  have hrun : (exec pairingStep {} operatorSteps).any (fun s =>
      (s.verifyDeviceToken (js "laptop") (js "token") OPERATOR_ROLE
        [OPERATOR_READ_SCOPE]).toBool) = true := by decide +kernel
  obtain ⟨s, hexec, hverify⟩ := Option.any_eq_true _ _ |>.mp hrun
  obtain ⟨haccepted, hgrants⟩ := verifyDeviceToken_provenance hexec
  cases hresult : s.verifyDeviceToken (js "laptop") (js "token") OPERATOR_ROLE
      [OPERATOR_READ_SCOPE] with
  | error reason => simp [hresult, Except.toBool] at hverify
  | ok accepted =>
      have hlaptop : trim (js "laptop") = js "laptop" := by decide
      have hrole : trim OPERATOR_ROLE = OPERATOR_ROLE := by decide
      obtain ⟨hlive, hnamed, hcovered⟩ := haccepted _ _ _ _ _ hresult
      have hread := hcovered OPERATOR_READ_SCOPE (by decide +kernel) (by decide)
      rw [hlaptop, hrole] at hnamed hread
      exact ⟨s, hexec, hlive, hnamed, hread, hgrants⟩

def bootstrapSteps : List (ℤ × PairingOp) :=
  [(1, .request (js "first")
      { deviceId := js "phone", publicKey := js "key", role := some (js "node") }),
    (2, .approveBootstrap (js "first")
      { roles := [js "node", OPERATOR_ROLE], scopes := [OPERATOR_READ_SCOPE] }
      [js "nodeToken", js "operatorToken"])]

/-- The operator token of the profile is accepted, although no approved request named the
operator or one of its scopes. -/
theorem operator_accepted_without_request :
    ∃ s, exec pairingStep {} bootstrapSteps = some s ∧
      (∃ accepted, s.verifyDeviceToken (js "phone") (js "operatorToken") OPERATOR_ROLE
        [OPERATOR_READ_SCOPE] = .ok accepted) ∧
      ∀ approval ∈ s.approvals, OPERATOR_ROLE ∉ approval.roles ∧ approval.scopes = [] := by
  have hrun : (exec pairingStep {} bootstrapSteps).any (fun s =>
      (s.verifyDeviceToken (js "phone") (js "operatorToken") OPERATOR_ROLE
        [OPERATOR_READ_SCOPE]).toBool &&
      decide (∀ approval ∈ s.approvals, OPERATOR_ROLE ∉ approval.roles ∧
        approval.scopes = [])) = true := by decide +kernel
  obtain ⟨s, hexec, hboth⟩ := Option.any_eq_true _ _ |>.mp hrun
  rw [Bool.and_eq_true, decide_eq_true_eq] at hboth
  obtain ⟨hverify, happrovals⟩ := hboth
  cases hresult : s.verifyDeviceToken (js "phone") (js "operatorToken") OPERATOR_ROLE
      [OPERATOR_READ_SCOPE] with
  | error reason => simp [hresult, Except.toBool] at hverify
  | ok accepted => exact ⟨s, hexec, ⟨accepted, hresult⟩, happrovals⟩

end GreenchClaw.Pairing
