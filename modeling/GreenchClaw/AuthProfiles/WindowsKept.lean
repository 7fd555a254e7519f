import GreenchClaw.AuthProfiles.Windows

/-!
# No window of an auth profile ends early

The calls that cut a window short, scope a cooldown to a model during a block or name a new reason for
a profile that is disabled are told by the stats that they read.  In a run without them every window
lasts until it has passed.
-/

namespace GreenchClaw.AuthProfiles

open GreenchClaw.Js Transition

section Kept

variable [UnicodeCase] (resolveProviderIdForAuth : JsString → JsString)

/-! ## The condition -/

def windowsKept (stores : AuthStores) (call : UsageCall) : Bool :=
  let store := readStore stores.memory stores.disk call
  let existing := store.stats call.profileId
  !(stores.memory.counted call.profileId && store.counted call.profileId) ||
    match call.operation with
    | .markAuthProfileFailure reason _ modelId probe =>
        failureKept (store.provider call.profileId) existing call.now reason modelId
          (probe.filter fun _ =>
            shouldProbeWhamForFailure (stores.memory.provider call.profileId) reason)
    | .markAuthProfileBlockedUntil blockedUntil checkedAt _ _ =>
        decide (blockedUntil ≤ checkedAt) || blockCovers existing call.now blockedUntil
    | _ => true

def UsageCall.releases (call : UsageCall) (profileId : JsString) : Bool :=
  call.profileId = profileId &&
    match call.operation with
    | .markAuthProfileSuccess _ _ => true
    | .clearAuthProfileCooldown => true
    | _ => false

/-! ## What one call does to the stats that it reads -/

section Effect

variable {resolveProviderIdForAuth} {memory store : AuthProfileStore} {call : UsageCall}
  {updater : ProfileUsageStats → ProfileUsageStats}

theorem bypassed_of_counted {profileId : JsString} (h : store.counted profileId = true) :
    store.bypassed profileId = false := by
  rw [AuthProfileStore.counted, Bool.and_eq_true, Bool.not_eq_true'] at h
  exact h.2

theorem updatedStats_cases
    (h : updatedStats resolveProviderIdForAuth memory store call = some updater) :
    (∃ reason cooldowns modelId probe,
      call.operation = .markAuthProfileFailure reason cooldowns modelId probe ∧
        memory.counted call.profileId = true ∧ store.counted call.profileId = true ∧
          updater = fun existing =>
            failureStats (store.provider call.profileId) existing call.now reason cooldowns modelId
              (probe.filter fun _ =>
                shouldProbeWhamForFailure (memory.provider call.profileId) reason)) ∨
    (∃ blockedUntil checkedAt source modelId,
      call.operation = .markAuthProfileBlockedUntil blockedUntil checkedAt source modelId ∧
        memory.counted call.profileId = true ∧ store.counted call.profileId = true ∧
          checkedAt < blockedUntil ∧
            updater = fun existing => blockedStats existing call.now blockedUntil source modelId) ∨
    (call.releases call.profileId = true ∧ (∀ reason cooldowns modelId probe,
      call.operation ≠ .markAuthProfileFailure reason cooldowns modelId probe) ∧
        ∀ existing, (updater existing).blockedUntil = none ∧
          (updater existing).disabledUntil = none) := by
  rw [updatedStats] at h
  cases hop : call.operation with
  | markAuthProfileFailure reason cooldowns modelId probe =>
      simp only [hop, Option.ite_none_right_eq_some, Bool.and_eq_true, Option.some.injEq] at h
      exact Or.inl ⟨reason, cooldowns, modelId, probe, rfl, h.1.1, h.1.2, h.2.symm⟩
  | markAuthProfileBlockedUntil blockedUntil checkedAt source modelId =>
      simp only [hop, Option.ite_none_right_eq_some, Bool.and_eq_true, decide_eq_true_eq,
        Option.some.injEq] at h
      obtain ⟨⟨⟨hmemory, hstore⟩, hlate⟩, hupdater⟩ := h
      exact Or.inr (Or.inl
        ⟨blockedUntil, checkedAt, source, modelId, rfl, hmemory, hstore, hlate, hupdater.symm⟩)
  | clearExpiredCooldowns => simp [hop] at h
  | markAuthProfileSuccess provider lastUsed =>
      simp only [hop, Option.ite_none_right_eq_some, Option.some.injEq] at h
      refine Or.inr (Or.inr ⟨by simp [UsageCall.releases, hop], by simp, fun existing => ?_⟩)
      rw [← h.2]
      exact ⟨rfl, rfl⟩
  | clearAuthProfileCooldown =>
      simp only [hop, Option.ite_none_right_eq_some, Option.some.injEq] at h
      refine Or.inr (Or.inr ⟨by simp [UsageCall.releases, hop], by simp, fun existing => ?_⟩)
      rw [← h.2]
      exact ⟨rfl, rfl⟩

variable {stores : AuthStores} {profileId : JsString}

theorem opensDisabled_of_none
    (h : updatedStats resolveProviderIdForAuth stores.memory
      (readStore stores.memory stores.disk call) call = none) :
    opensDisabled stores.memory stores.disk call = none := by
  rw [updatedStats] at h
  rw [opensDisabled]
  cases hop : call.operation with
  | markAuthProfileFailure reason cooldowns modelId probe =>
      simp only [hop, ite_eq_right_iff, reduceCtorEq, imp_false] at h
      simp only [Bool.and_eq_true, ite_eq_right_iff, and_imp]
      intro hmemory hstore
      exact absurd (Bool.and_eq_true_iff.mpr ⟨hmemory, hstore⟩) h
  | _ => rfl

theorem callEffect_none
    (h : updatedStats resolveProviderIdForAuth stores.memory
      (readStore stores.memory stores.disk call) call = none) (stats : ProfileUsageStats) :
    callEffect resolveProviderIdForAuth stores call profileId stats = stats := by
  rw [callEffect, h]

theorem callEffect_other (h : call.profileId ≠ profileId) (stats : ProfileUsageStats) :
    callEffect resolveProviderIdForAuth stores call profileId stats = stats := by
  rw [callEffect]
  split
  · rw [if_neg h]
  · rfl

theorem callEffect_same
    (h : updatedStats resolveProviderIdForAuth stores.memory
      (readStore stores.memory stores.disk call) call = some updater) (stats : ProfileUsageStats) :
    callEffect resolveProviderIdForAuth stores call call.profileId stats = updater stats := by
  rw [callEffect, h]
  exact if_pos rfl

/-- A call that is kept leaves windows that last, unless it is a success or a reset. -/
theorem callEffect_keeps (hnow : 0 ≤ call.now) (hkept : windowsKept stores call = true)
    (hheld : call.releases profileId = false) :
    let stats := (readStore stores.memory stores.disk call).stats profileId
    Keeps call.now stats (callEffect resolveProviderIdForAuth stores call profileId stats) := by
  intro stats
  have hsame : Keeps call.now stats stats := fun until_ hmem _ => ⟨until_, hmem, le_rfl⟩
  by_cases hprofile : call.profileId = profileId
  · subst hprofile
    cases hupdated : updatedStats resolveProviderIdForAuth stores.memory
        (readStore stores.memory stores.disk call) call with
    | none =>
        rw [callEffect_none hupdated]
        exact hsame
    | some updater =>
        rw [callEffect_same hupdated]
        rw [windowsKept] at hkept
        rcases updatedStats_cases hupdated with
          ⟨reason, cooldowns, modelId, probe, hop, hmemory, hstore, rfl⟩ |
          ⟨blockedUntil, checkedAt, source, modelId, hop, hmemory, hstore, hlate, rfl⟩ |
          ⟨hreleases, -⟩
        · simp only [hmemory, hstore, hop, Bool.and_self, Bool.not_true, Bool.false_or,
            failureKept] at hkept
          cases hblock : probedBlock ((readStore stores.memory stores.disk call).provider call.profileId)
              reason (probe.filter fun _ =>
                shouldProbeWhamForFailure (stores.memory.provider call.profileId) reason) with
          | some blockedUntil =>
              rw [hblock] at hkept
              obtain ⟨hblocked, -, hdisabled, -⟩ := failureStats_block hblock
              exact keeps_of_block hnow hkept hblocked hdisabled
          | none => exact (failureStats_other hblock).1
        · simp only [hmemory, hstore, hop, Bool.and_self, Bool.not_true, Bool.false_or,
            Bool.or_eq_true, decide_eq_true_eq] at hkept
          have hcovers := hkept.resolve_left (not_le.mpr hlate)
          exact keeps_of_block hnow hcovers rfl rfl
        · rw [hheld] at hreleases
          exact absurd hreleases Bool.false_ne_true
  · rw [callEffect_other hprofile]
    exact hsame

def nextOpenedBy (stores : AuthStores) (call : UsageCall) (profileId : JsString) :
    Option AuthProfileFailureReason :=
  if profileId = call.profileId then
    (opensDisabled stores.memory stores.disk call).or (stores.openedBy profileId)
  else stores.openedBy profileId

theorem callEffect_sound (hkept : windowsKept stores call = true)
    (h : Sound call.now (stores.memory.bypassed profileId) (stores.openedBy profileId)
      ((readStore stores.memory stores.disk call).stats profileId)) :
    Sound call.now (stores.memory.bypassed profileId) (nextOpenedBy stores call profileId)
      (callEffect resolveProviderIdForAuth stores call profileId
        ((readStore stores.memory stores.disk call).stats profileId)) := by
  by_cases hprofile : call.profileId = profileId
  · subst hprofile
    rw [nextOpenedBy, if_pos rfl]
    cases hupdated : updatedStats resolveProviderIdForAuth stores.memory
        (readStore stores.memory stores.disk call) call with
    | none =>
        rw [callEffect_none hupdated, opensDisabled_of_none hupdated, Option.none_or]
        exact h
    | some updater =>
        rw [callEffect_same hupdated]
        rw [windowsKept] at hkept
        rcases updatedStats_cases hupdated with
          ⟨reason, cooldowns, modelId, probe, hop, hmemory, hstore, rfl⟩ |
          ⟨blockedUntil, checkedAt, source, modelId, hop, hmemory, hstore, -, rfl⟩ |
          ⟨-, -, hwindowless⟩
        · simp only [hmemory, hstore, hop, Bool.and_self, Bool.not_true, Bool.false_or] at hkept
          rw [bypassed_of_counted hmemory] at h ⊢
          have hopens : opensDisabled stores.memory stores.disk call =
              if isActiveUnusableWindow ((readStore stores.memory stores.disk call).stats
                  call.profileId).disabledUntil call.now then none
              else (disabledFailureReason reason).map DisabledFailureReason.toReason := by
            rw [opensDisabled, hop]
            simp only [hmemory, hstore, Bool.and_self, Bool.true_and, Bool.not_eq_true']
            cases isActiveUnusableWindow ((readStore stores.memory stores.disk call).stats
              call.profileId).disabledUntil call.now <;> rfl
          rw [hopens]
          exact h.failure hkept
        · have hopens : opensDisabled stores.memory stores.disk call = none := by
            rw [opensDisabled, hop]
          rw [bypassed_of_counted hmemory] at h ⊢
          rw [hopens, Option.none_or]
          exact h.block rfl rfl rfl
        · obtain ⟨hblocked, hdisabled⟩ := hwindowless
            ((readStore stores.memory stores.disk call).stats call.profileId)
          exact sound_of_windowless hblocked hdisabled
  · rw [callEffect_other hprofile, nextOpenedBy, if_neg (Ne.symm hprofile)]
    exact h

end Effect

/-! ## Runs -/

structure WindowsSound (stores : AuthStores) : Prop where
  memory : ∀ profileId, Sound stores.clock (stores.memory.bypassed profileId)
    (stores.openedBy profileId) (stores.memory.stats profileId)
  disk : ∀ profileId, Sound stores.clock (stores.memory.bypassed profileId)
    (stores.openedBy profileId) (stores.disk.stats profileId)
  behind : ∀ profileId,
    Behind stores.clock (stores.memory.stats profileId) (stores.disk.stats profileId)

section Runs

variable {resolveProviderIdForAuth} {stores next : AuthStores} {call : UsageCall}

theorem WindowsSound.read (h : WindowsSound stores) (profileId : JsString) :
    Sound stores.clock (stores.memory.bypassed profileId) (stores.openedBy profileId)
      ((readStore stores.memory stores.disk call).stats profileId) := by
  rw [readStore]
  split
  · exact h.disk profileId
  · exact h.memory profileId

theorem windowsSound_of_no_stats (hmemory : stores.memory.usageStats = Map.empty)
    (hdisk : stores.disk.usageStats = Map.empty) : WindowsSound stores := by
  have hstats (profileId : JsString) :
      stores.memory.stats profileId = {} ∧ stores.disk.stats profileId = {} := by
    rw [AuthProfileStore.stats, AuthProfileStore.stats, hmemory, hdisk]
    exact ⟨rfl, rfl⟩
  constructor
  · intro profileId
    rw [(hstats profileId).1]
    exact sound_of_windowless rfl rfl
  · intro profileId
    rw [(hstats profileId).2]
    exact sound_of_windowless rfl rfl
  · intro profileId
    rw [(hstats profileId).1, (hstats profileId).2]
    exact Behind.refl _

theorem step_fields (h : step resolveProviderIdForAuth stores call = some next) :
    stores.clock ≤ call.now ∧ next.clock = call.now ∧
      (next.memory, next.disk) =
        applyCall resolveProviderIdForAuth stores.memory stores.disk call ∧
      next.openedBy = nextOpenedBy stores call := by
  rw [step] at h
  split at h
  · rename_i hclock
    rw [Option.some.injEq] at h
    subst h
    exact ⟨hclock, rfl, rfl, rfl⟩
  · exact absurd h (by simp)

theorem nextOpenedBy_of_none (h : opensDisabled stores.memory stores.disk call = none) :
    nextOpenedBy stores call = stores.openedBy := by
  ext profileId : 1
  rw [nextOpenedBy, h, Option.none_or, ite_self]

theorem windowsSound_step (h : WindowsSound stores) (hkept : windowsKept stores call = true)
    (hstep : step resolveProviderIdForAuth stores call = some next) : WindowsSound next := by
  obtain ⟨hclock, hnow, hresult, hopened⟩ := step_fields hstep
  obtain ⟨hprofiles, hcases⟩ := @applyCall_cases _ resolveProviderIdForAuth stores call
  rw [← hresult] at hprofiles hcases
  have hexempt (profileId : JsString) :
      next.memory.bypassed profileId = stores.memory.bypassed profileId := by
    rw [AuthProfileStore.bypassed, AuthProfileStore.bypassed, hprofiles]
  rcases hcases with ⟨hcleared, hop⟩ | ⟨hunchanged, hnone⟩ | hsynced
  · obtain ⟨hmemory, hdisk⟩ := Prod.mk.inj hcleared
    have hopens : opensDisabled stores.memory stores.disk call = none := by
      rw [opensDisabled, hop]
    constructor
    · intro profileId
      rw [hnow, hexempt, hopened, nextOpenedBy_of_none hopens, hmemory, stats_clearExpired]
      exact ((h.memory profileId).later hclock).clear
    · intro profileId
      rw [hnow, hexempt, hopened, nextOpenedBy_of_none hopens, hdisk]
      exact (h.disk profileId).later hclock
    · intro profileId
      rw [hnow, hmemory, hdisk, stats_clearExpired]
      exact (h.behind profileId).clear hclock
  · have hopens := opensDisabled_of_none hnone
    constructor
    · intro profileId
      rw [hnow, hexempt, hopened, nextOpenedBy_of_none hopens, (hunchanged profileId).1]
      exact (h.memory profileId).later hclock
    · intro profileId
      rw [hnow, hexempt, hopened, nextOpenedBy_of_none hopens, (hunchanged profileId).2]
      exact (h.disk profileId).later hclock
    · intro profileId
      rw [hnow, (hunchanged profileId).1, (hunchanged profileId).2]
      exact (h.behind profileId).later hclock
  · have hsound (profileId : JsString) : Sound call.now (stores.memory.bypassed profileId)
        (nextOpenedBy stores call profileId) (next.disk.stats profileId) := by
      rw [(hsynced profileId).2]
      exact callEffect_sound hkept ((h.read profileId).later hclock)
    constructor
    · intro profileId
      rw [hnow, hexempt, hopened, (hsynced profileId).1]
      exact hsound profileId
    · intro profileId
      rw [hnow, hexempt, hopened]
      exact hsound profileId
    · intro profileId
      rw [(hsynced profileId).1]
      exact Behind.refl _

theorem keeps_step {profileId : JsString} (h : WindowsSound stores)
    (hkept : windowsKept stores call = true) (hheld : call.releases profileId = false)
    (hstep : step resolveProviderIdForAuth stores call = some next) :
    Keeps next.clock (stores.memory.stats profileId) (next.memory.stats profileId) := by
  obtain ⟨hclock, hnow, hresult, -⟩ := step_fields hstep
  obtain ⟨-, hcases⟩ := @applyCall_cases _ resolveProviderIdForAuth stores call
  rw [← hresult] at hcases
  rw [hnow]
  rcases hcases with ⟨hcleared, -⟩ | ⟨hunchanged, -⟩ | hsynced
  · rw [(Prod.mk.inj hcleared).1, stats_clearExpired]
    exact clearExpired_keeps _
  · rw [(hunchanged profileId).1]
    exact fun until_ hmem _ => ⟨until_, hmem, le_rfl⟩
  · have hkeeps := @callEffect_keeps _ resolveProviderIdForAuth call stores profileId
      (stores.clock_nonneg.trans hclock) hkept hheld
    have hread {until_ : ℚ} (hmem : until_ ∈ (stores.memory.stats profileId).windows) :
        until_ ∈ ((readStore stores.memory stores.disk call).stats profileId).windows := by
      rw [readStore]
      split
      · exact (h.behind profileId).windows hmem
      · exact hmem
    rw [(hsynced profileId).1, (hsynced profileId).2]
    exact fun until_ hmem => hkeeps until_ (hread hmem)

theorem keeps_run {profileId : JsString} {calls : List UsageCall} {last : AuthStores}
    (h : WindowsSound stores)
    (hkept : StepsMeet (step resolveProviderIdForAuth)
      (fun stores call => windowsKept stores call = true) stores calls)
    (hheld : ∀ call ∈ calls, call.releases profileId = false)
    (hexec : exec (step resolveProviderIdForAuth) stores calls = some last) :
    stores.clock ≤ last.clock ∧
      Keeps last.clock (stores.memory.stats profileId) (last.memory.stats profileId) := by
  induction calls generalizing stores with
  | nil =>
      have hlast : stores = last := by simpa [exec] using hexec
      rw [hlast]
      exact ⟨le_rfl, fun until_ hmem _ => ⟨until_, hmem, le_rfl⟩⟩
  | cons call calls ih =>
      obtain ⟨next, hstep, hrest⟩ := exec_cons hexec
      have hsound := windowsSound_step h hkept.1 hstep
      have hfirst := keeps_step h hkept.1 (hheld call List.mem_cons_self) hstep
      obtain ⟨hclock, hsecond⟩ := ih hsound (hkept.2 next hstep)
        (fun other hother => hheld other (List.mem_cons_of_mem call hother)) hrest
      obtain ⟨hlater, hnow, -⟩ := step_fields hstep
      rw [← hnow] at hlater
      refine ⟨hlater.trans hclock, fun until_ hmem hlast => ?_⟩
      obtain ⟨middle, hmiddle, hle⟩ := hfirst until_ hmem (lt_of_le_of_lt hclock hlast)
      obtain ⟨final, hfinal, hle'⟩ := hsecond middle hmiddle (lt_of_lt_of_le hlast hle)
      exact ⟨final, hfinal, hle.trans hle'⟩

end Runs

/-! ## What the readers of the store see -/

section Readers

variable {resolveProviderIdForAuth}

theorem inCooldown_of_active {store : AuthProfileStore} {profileId : JsString} {clock now : ℚ}
    {opened : Option AuthProfileFailureReason}
    (h : Sound clock (store.bypassed profileId) opened (store.stats profileId)) (hnow : clock ≤ now)
    (hactive : isActiveUnusableWindow (store.stats profileId).blockedUntil now = true ∨
      isActiveUnusableWindow (store.stats profileId).disabledUntil now = true)
    (forModel : Option JsString) : isProfileInCooldown store profileId now forModel = true := by
  have hwindow : ∃ end_ ∈ (store.stats profileId).windows, now < end_ := by
    rcases hactive with hblocked | hdisabled
    · obtain ⟨end_, hfield, hpos, hlast⟩ := active_iff.mp hblocked
      exact ⟨end_, mem_windows.mpr ⟨hpos, Or.inl hfield⟩, hlast⟩
    · obtain ⟨end_, hfield, hpos, hlast⟩ := active_iff.mp hdisabled
      exact ⟨end_, mem_windows.mpr ⟨hpos, Or.inr (Or.inr hfield)⟩, hlast⟩
  have hcounts : store.bypassed profileId = false := by
    rw [← Bool.not_eq_true]
    intro hexempt
    obtain ⟨hblocked, hdisabled⟩ := h.exempt hexempt
    rw [hblocked, hdisabled] at hactive
    simp [isActiveUnusableWindow] at hactive
  have hhonoured : shouldBypassModelScopedCooldown (store.stats profileId) now forModel = false := by
    rw [shouldBypassModelScopedCooldown]
    rcases hactive with hblocked | hdisabled
    · rw [h.scope (active_earlier hblocked hnow)]
      cases truthy forModel <;> rfl
    · rw [hdisabled]
      cases truthy forModel <;> cases truthy (store.stats profileId).cooldownModel <;> simp
  obtain ⟨end_, hmem, hlast⟩ := hwindow
  obtain ⟨unusable, hunusable, hle⟩ := exists_unusable hmem
  rw [isProfileInCooldown, hcounts, if_neg Bool.false_ne_true]
  cases hstats : store.usageStats.get profileId with
  | none =>
      rw [AuthProfileStore.stats, hstats] at hmem
      exact absurd hmem List.not_mem_nil
  | some stats =>
      have hsame : store.stats profileId = stats := by
        rw [AuthProfileStore.stats, hstats]
        rfl
      rw [hsame] at hhonoured hunusable
      simp only [hhonoured, Bool.false_eq_true, if_false, hunusable, Option.any_some,
        decide_eq_true_eq]
      exact lt_of_lt_of_le hlast hle

structure WindowsHeld (before after : AuthStores) (profileId : JsString) : Prop where
  neverEarlier : ∀ until_, resolveProfileUnusableUntil (before.memory.stats profileId) = some until_ →
    after.clock < until_ →
      ∃ later, resolveProfileUnusableUntil (after.memory.stats profileId) = some later ∧
        until_ ≤ later
  inCooldown : ∀ now forModel, after.clock ≤ now →
    isActiveUnusableWindow (after.memory.stats profileId).blockedUntil now = true ∨
      isActiveUnusableWindow (after.memory.stats profileId).disabledUntil now = true →
        isProfileInCooldown after.memory profileId now forModel = true
  disabledReason :
    isActiveUnusableWindow (after.memory.stats profileId).disabledUntil after.clock = true →
      (after.openedBy profileId).isSome = true ∧
        (after.memory.stats profileId).disabledReason = after.openedBy profileId

/-- No window of a profile ends early when every failure and every block of the run is kept: without a
success or a reset between two moments the profile is unusable for as long at the second. -/
theorem windows_never_end_early {start before after : AuthStores} {first second : List UsageCall}
    (hmemory : start.memory.usageStats = Map.empty) (hdisk : start.disk.usageStats = Map.empty)
    (hbefore : exec (step resolveProviderIdForAuth) start first = some before)
    (hafter : exec (step resolveProviderIdForAuth) before second = some after)
    (hfirst : StepsMeet (step resolveProviderIdForAuth)
      (fun stores call => windowsKept stores call = true) start first)
    (hsecond : StepsMeet (step resolveProviderIdForAuth)
      (fun stores call => windowsKept stores call = true) before second)
    {profileId : JsString} (hheld : ∀ call ∈ second, call.releases profileId = false) :
    WindowsHeld before after profileId := by
  have hkeep (stores : AuthStores) (call : UsageCall) (next : AuthStores) (h : WindowsSound stores)
      (hkept : windowsKept stores call = true)
      (hstep : step resolveProviderIdForAuth stores call = some next) : WindowsSound next :=
    windowsSound_step h hkept hstep
  have hmiddle := invariant_exec WindowsSound hkeep
    (windowsSound_of_no_stats hmemory hdisk) hfirst hbefore
  have hend := invariant_exec WindowsSound hkeep hmiddle hsecond hafter
  obtain ⟨-, hwindows⟩ := keeps_run hmiddle hsecond hheld hafter
  constructor
  · intro until_ hunusable hlast
    obtain ⟨later, hlater, hle⟩ := hwindows until_ (mem_of_unusable hunusable) hlast
    obtain ⟨unusable, hsome, hle'⟩ := exists_unusable hlater
    exact ⟨unusable, hsome, hle.trans hle'⟩
  · intro now forModel hnow hactive
    exact inCooldown_of_active (hend.memory profileId) hnow hactive forModel
  · exact (hend.memory profileId).reason

end Readers

end Kept

/-! ## Runs -/

section Samples

attribute [local instance] asciiCase

def workProfiles : Map AuthProfileCredential := Map.empty.set (js "work") ⟨js "anthropic"⟩

def unusedStores : AuthStores :=
  { memory := ⟨workProfiles, .empty⟩
    disk := ⟨workProfiles, .empty⟩
    clock := 0
    clock_nonneg := le_rfl
    openedBy := fun _ => none }

def failureAt (now : ℚ) (reason : AuthProfileFailureReason) (modelId : Option JsString) : UsageCall :=
  { now, profileId := js "work", operation := .markAuthProfileFailure reason {} modelId none }

def blockAt (now blockedUntil : ℚ) : UsageCall :=
  { now
    profileId := js "work"
    operation := .markAuthProfileBlockedUntil blockedUntil now .codexRateLimits none }

def clearAt (now : ℚ) : UsageCall :=
  { now, profileId := js "work", operation := .clearExpiredCooldowns }

/-- A billing failure disables the profile; the cooldown of a model passes and the account is blocked. -/
def blockedLater : List UsageCall :=
  [failureAt 2000 .rateLimit (some (js "large")), clearAt 40000, blockAt 50000 100000]

theorem windows_never_end_early_blocked : ∃ before after,
    exec (step id) unusedStores [failureAt 1000 .billing none] = some before ∧
      exec (step id) before blockedLater = some after ∧
        WindowsHeld before after (js "work") := by
  have hfirst : (exec (step id) unusedStores [failureAt 1000 .billing none]).isSome = true := by
    decide +kernel
  obtain ⟨before, hbefore⟩ := Option.isSome_iff_exists.mp hfirst
  have hrun : ((exec (step id) unusedStores [failureAt 1000 .billing none]).bind fun stores =>
      exec (step id) stores blockedLater).isSome = true := by
    decide +kernel
  rw [hbefore, Option.bind_some] at hrun
  obtain ⟨after, hafter⟩ := Option.isSome_iff_exists.mp hrun
  have hkept : StepsMeet (step id) (fun stores call => windowsKept stores call = true)
      unusedStores (failureAt 1000 .billing none :: blockedLater) := by
    decide +kernel
  obtain ⟨next, hstep, hrest⟩ := exec_cons hbefore
  have hnext : next = before := by simpa [exec] using hrest
  have hsecond := hkept.2 next hstep
  rw [hnext] at hsecond
  exact ⟨before, after, hbefore, hafter,
    windows_never_end_early rfl rfl hbefore hafter ⟨hkept.1, fun _ _ => trivial⟩ hsecond
      (by decide +kernel)⟩

def Breaks (first second : List UsageCall) : Prop :=
  ∃ before after, exec (step id) unusedStores first = some before ∧
    exec (step id) before second = some after ∧
      (∀ call ∈ second, call.releases (js "work") = false) ∧ ¬ WindowsHeld before after (js "work")

theorem breaks_of_run {first second : List UsageCall}
    (hheld : ∀ call ∈ second, call.releases (js "work") = false)
    (hrun : ((exec (step id) unusedStores first).bind fun before =>
      exec (step id) before second).isSome = true)
    (hbroken : ∀ before after, exec (step id) unusedStores first = some before →
      exec (step id) before second = some after →
        ¬ WindowsHeld before after (js "work")) : Breaks first second := by
  obtain ⟨after, hafter⟩ := Option.isSome_iff_exists.mp hrun
  obtain ⟨before, hfirst, hsecond⟩ := Option.bind_eq_some_iff.mp hafter
  exact ⟨before, after, hfirst, hsecond, hheld, hbroken before after hfirst hsecond⟩

/-- A block for three seconds ends a cooldown of thirty; a rate limit of one model lets another model
through a block; a refused login renames the window that a billing failure opened. -/
theorem windows_broken :
    Breaks [failureAt 1000 .timeout none] [blockAt 2000 5000] ∧
      Breaks [blockAt 1000 90000] [failureAt 2000 .rateLimit (some (js "large"))] ∧
        Breaks [failureAt 1000 .billing none] [failureAt 2000 .authPermanent none] := by
  refine ⟨breaks_of_run (by decide +kernel) (by decide +kernel) ?_,
    breaks_of_run (by decide +kernel) (by decide +kernel) ?_,
    breaks_of_run (by decide +kernel) (by decide +kernel) ?_⟩
  · intro before after hbefore hafter hheld
    have hcut : (exec (step id) unusedStores [failureAt 1000 .timeout none]).all fun stores =>
        decide (resolveProfileUnusableUntil (stores.memory.stats (js "work")) = some 31000) &&
          (exec (step id) stores [blockAt 2000 5000]).all fun stores =>
            decide (stores.clock < 31000) &&
              decide (resolveProfileUnusableUntil (stores.memory.stats (js "work")) = some 5000) := by
      decide +kernel
    rw [hbefore, Option.all_some, hafter, Option.all_some, Bool.and_eq_true, Bool.and_eq_true] at hcut
    obtain ⟨later, hlater, hle⟩ := hheld.neverEarlier 31000 (of_decide_eq_true hcut.1)
      (of_decide_eq_true hcut.2.1)
    rw [of_decide_eq_true hcut.2.2, Option.some.injEq] at hlater
    rw [← hlater] at hle
    exact absurd hle (by decide +kernel)
  · intro before after hbefore hafter hheld
    have hopen : ((exec (step id) unusedStores [blockAt 1000 90000]).bind fun stores =>
        exec (step id) stores [failureAt 2000 .rateLimit (some (js "large"))]).all
          fun stores => decide (stores.clock ≤ 3000) &&
            isActiveUnusableWindow (stores.memory.stats (js "work")).blockedUntil 3000 &&
              !isProfileInCooldown stores.memory (js "work") 3000 (some (js "small")) := by
      decide +kernel
    rw [hbefore, Option.bind_some, hafter, Option.all_some, Bool.and_eq_true, Bool.and_eq_true] at hopen
    have hin := hheld.inCooldown 3000 (some (js "small")) (of_decide_eq_true hopen.1.1)
      (Or.inl hopen.1.2)
    rw [hin] at hopen
    exact absurd hopen.2 (by decide)
  · intro before after hbefore hafter hheld
    have hrenamed : ((exec (step id) unusedStores [failureAt 1000 .billing none]).bind
        fun stores => exec (step id) stores [failureAt 2000 .authPermanent none]).all
          fun stores =>
            isActiveUnusableWindow (stores.memory.stats (js "work")).disabledUntil stores.clock &&
              decide ((stores.memory.stats (js "work")).disabledReason ≠
                stores.openedBy (js "work")) := by
      decide +kernel
    rw [hbefore, Option.bind_some, hafter, Option.all_some, Bool.and_eq_true] at hrenamed
    exact of_decide_eq_true hrenamed.2 (hheld.disabledReason hrenamed.1).2

end Samples

end GreenchClaw.AuthProfiles
