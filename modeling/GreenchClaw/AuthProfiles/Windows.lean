import GreenchClaw.AuthProfiles.Usage

/-!
# The windows of an auth profile

What a failure, a block and the clearing of expired windows do to the windows that last.
-/

namespace GreenchClaw.AuthProfiles

open GreenchClaw.Js

/-! ## The latest window -/

section Latest

variable {stats : ProfileUsageStats} {until_ now later : ℚ}

theorem mem_windows :
    until_ ∈ stats.windows ↔ 0 < until_ ∧
      (stats.blockedUntil = some until_ ∨ stats.cooldownUntil = some until_ ∨
        stats.disabledUntil = some until_) := by
  have hvalue (value : Option ℚ) :
      (value.filter fun end_ => decide (0 < end_)) = some until_ ↔
        value = some until_ ∧ 0 < until_ := by
    rw [Option.filter_eq_some_iff, decide_eq_true_eq]
  simp only [ProfileUsageStats.windows, List.mem_filterMap, List.mem_cons, List.not_mem_nil,
    or_false, exists_eq_or_imp, exists_eq_left, hvalue]
  constructor
  · rintro (h | h | h)
    · exact ⟨h.2, Or.inl h.1⟩
    · exact ⟨h.2, Or.inr (Or.inl h.1)⟩
    · exact ⟨h.2, Or.inr (Or.inr h.1)⟩
  · rintro ⟨hpos, h | h | h⟩
    · exact Or.inl ⟨h, hpos⟩
    · exact Or.inr (Or.inl ⟨h, hpos⟩)
    · exact Or.inr (Or.inr ⟨h, hpos⟩)

theorem mem_of_unusable (h : resolveProfileUnusableUntil stats = some until_) :
    until_ ∈ stats.windows :=
  List.max?_mem h

theorem exists_unusable (h : until_ ∈ stats.windows) :
    ∃ last, resolveProfileUnusableUntil stats = some last ∧ until_ ≤ last := by
  cases hlast : resolveProfileUnusableUntil stats with
  | none =>
      have hnil : stats.windows = [] := List.max?_eq_none_iff.mp hlast
      rw [hnil] at h
      exact absurd h List.not_mem_nil
  | some last => exact ⟨last, rfl, (List.max?_eq_some_iff.mp hlast).2 until_ h⟩

theorem active_iff {value : Option ℚ} :
    isActiveUnusableWindow value now = true ↔ ∃ end_, value = some end_ ∧ 0 < end_ ∧ now < end_ := by
  cases value with
  | none => simp [isActiveUnusableWindow]
  | some end_ => simp [isActiveUnusableWindow]

theorem active_earlier {value : Option ℚ} (h : isActiveUnusableWindow value later = true)
    (hnow : now ≤ later) : isActiveUnusableWindow value now = true := by
  obtain ⟨end_, hvalue, hpos, hlast⟩ := active_iff.mp h
  exact active_iff.mpr ⟨end_, hvalue, hpos, lt_of_le_of_lt hnow hlast⟩

theorem not_expired_of_lt {value : Option ℚ} (h : value = some until_) (hnow : now < until_) :
    expired value now = false := by
  simp [expired, h, hnow]

theorem keepActive_some (hnow : now < until_) (recomputed : ℚ) :
    keepActiveWindowOrRecompute (some until_) now recomputed = until_ := by
  simp [keepActiveWindowOrRecompute, Option.filter_some, hnow]

theorem activeUntil_some (hnow : now < until_) : activeUntil (some until_) now = until_ := by
  simp [activeUntil, Option.filter_some, hnow]

end Latest

/-! ## What a call keeps -/

def Keeps (now : ℚ) (old new : ProfileUsageStats) : Prop :=
  ∀ until_ ∈ old.windows, now < until_ → ∃ last ∈ new.windows, until_ ≤ last

def blockCovers (existing : ProfileUsageStats) (now blockedUntil : ℚ) : Bool :=
  existing.cooldownUntil.all fun until_ =>
    decide (until_ ≤ now) || decide (until_ ≤ max (activeUntil existing.blockedUntil now) blockedUntil) ||
      existing.disabledUntil.any fun disabled => until_ ≤ disabled

section Keeps

variable {existing new : ProfileUsageStats} {now blockedUntil : ℚ}

theorem keeps_of_block (hnow : 0 ≤ now) (hcovers : blockCovers existing now blockedUntil = true)
    (hblocked : new.blockedUntil = some (max (activeUntil existing.blockedUntil now) blockedUntil))
    (hdisabled : new.disabledUntil = existing.disabledUntil) : Keeps now existing new := by
  intro until_ hmem hlast
  have hpos : 0 < until_ := lt_of_le_of_lt hnow hlast
  -- a block that ends late enough is a window of the new stats
  have hblock (hle : until_ ≤ max (activeUntil existing.blockedUntil now) blockedUntil) :
      ∃ last ∈ new.windows, until_ ≤ last :=
    ⟨_, mem_windows.mpr ⟨lt_of_lt_of_le hpos hle, Or.inl hblocked⟩, hle⟩
  rcases (mem_windows.mp hmem).2 with hfield | hfield | hfield
  · apply hblock
    rw [hfield, activeUntil_some hlast]
    exact le_max_left _ _
  · rw [blockCovers, hfield, Option.all_some, Bool.or_eq_true, Bool.or_eq_true, decide_eq_true_eq,
      decide_eq_true_eq] at hcovers
    rcases hcovers with (hpast | hle) | hlonger
    · exact absurd hlast (not_lt.mpr hpast)
    · exact hblock hle
    · obtain ⟨disabled, hvalue, hle⟩ := (Option.any_eq_true _ _).mp hlonger
      have hle := of_decide_eq_true hle
      refine ⟨disabled, mem_windows.mpr ⟨lt_of_lt_of_le hpos hle, ?_⟩, hle⟩
      exact Or.inr (Or.inr (hdisabled.trans hvalue))
  · exact ⟨until_, mem_windows.mpr ⟨hpos, Or.inr (Or.inr (hdisabled.trans hfield))⟩, le_rfl⟩

theorem keeps_of_fields (hblocked : new.blockedUntil = existing.blockedUntil)
    (hcooldown : ∀ until_, existing.cooldownUntil = some until_ → now < until_ →
      ∃ last, new.cooldownUntil = some last ∧ until_ ≤ last)
    (hdisabled : ∀ until_, existing.disabledUntil = some until_ → now < until_ →
      new.disabledUntil = some until_) : Keeps now existing new := by
  intro until_ hmem hlast
  obtain ⟨hpos, hfield | hfield | hfield⟩ := mem_windows.mp hmem
  · exact ⟨until_, mem_windows.mpr ⟨hpos, Or.inl (hblocked.trans hfield)⟩, le_rfl⟩
  · obtain ⟨last, hnew, hle⟩ := hcooldown until_ hfield hlast
    exact ⟨last, mem_windows.mpr ⟨lt_of_lt_of_le hpos hle, Or.inr (Or.inl hnew)⟩, hle⟩
  · exact ⟨until_, mem_windows.mpr ⟨hpos, Or.inr (Or.inr (hdisabled until_ hfield hlast))⟩, le_rfl⟩

end Keeps

/-! ## Failures -/

section Failures

variable {existing : ProfileUsageStats} {now : ℚ} {reason : AuthProfileFailureReason}
  {cfg : ResolvedAuthCooldownConfig} {modelId : Option JsString}

theorem computeNext_blocked :
    (computeNextProfileUsageStats existing now reason cfg modelId).blockedUntil =
      existing.blockedUntil := by
  rw [computeNextProfileUsageStats]
  cases disabledFailureReason reason <;> rfl

theorem computeNext_disabled {disabled : DisabledFailureReason}
    (h : disabledFailureReason reason = some disabled) :
    let next := computeNextProfileUsageStats existing now reason cfg modelId
    next.cooldownUntil = existing.cooldownUntil ∧ next.cooldownModel = existing.cooldownModel ∧
      next.disabledReason = some disabled.toReason ∧
      ∃ recomputed, next.disabledUntil =
        some (keepActiveWindowOrRecompute existing.disabledUntil now recomputed) := by
  simp only [computeNextProfileUsageStats, h, true_and]
  exact ⟨_, rfl⟩

theorem computeNext_cooldown (h : disabledFailureReason reason = none) :
    let next := computeNextProfileUsageStats existing now reason cfg modelId
    next.disabledUntil = existing.disabledUntil ∧ next.disabledReason = existing.disabledReason ∧
      (∃ recomputed, next.cooldownUntil =
        some (keepActiveWindowOrRecompute existing.cooldownUntil now recomputed)) ∧
      next.cooldownModel =
        if existing.cooldownUntil.any fun until_ => now < until_ then
          nextCooldownModel existing.cooldownModel modelId reason
        else if reason = .rateLimit then modelId else none := by
  simp only [computeNextProfileUsageStats, h, true_and, and_true]
  exact ⟨_, rfl⟩

theorem computeNext_keeps :
    Keeps now existing (computeNextProfileUsageStats existing now reason cfg modelId) := by
  cases h : disabledFailureReason reason with
  | some disabled =>
      obtain ⟨hcooldown, -, -, recomputed, hdisabled⟩ :=
        @computeNext_disabled existing now reason cfg modelId disabled h
      refine keeps_of_fields computeNext_blocked ?_ ?_
      · intro until_ hfield _
        exact ⟨until_, hcooldown.trans hfield, le_rfl⟩
      · intro until_ hfield hlast
        rw [hdisabled, hfield, keepActive_some hlast]
  | none =>
      obtain ⟨hdisabled, -, ⟨recomputed, hcooldown⟩, -⟩ :=
        @computeNext_cooldown existing now reason cfg modelId h
      refine keeps_of_fields computeNext_blocked ?_ ?_
      · intro until_ hfield hlast
        rw [hcooldown, hfield, keepActive_some hlast]
        exact ⟨until_, rfl, le_rfl⟩
      · intro until_ hfield _
        exact hdisabled.trans hfield

end Failures

/-! ## Failures with a probe -/

section Probes

variable [UnicodeCase]

def probedBlock (provider : JsString) (reason : AuthProfileFailureReason)
    (whamResult : Option WhamCooldownProbeResult) : Option ℚ :=
  ((whamResult.filter fun _ => shouldProbeWhamForFailure provider reason).bind
    (·.blockedUntil)).filter fun until_ => until_ ≠ 0

variable {provider : JsString} {existing : ProfileUsageStats} {now : ℚ}
  {reason : AuthProfileFailureReason} {cooldowns : AuthCooldowns} {modelId : Option JsString}
  {whamResult : Option WhamCooldownProbeResult}

theorem not_disabled_of_probe (h : shouldProbeWhamForFailure provider reason = true) :
    disabledFailureReason reason = none := by
  rw [shouldProbeWhamForFailure, Bool.and_eq_true] at h
  cases reason <;> first | rfl | exact absurd h.2 (by decide)

theorem failureStats_block {blockedUntil : ℚ}
    (h : probedBlock provider reason whamResult = some blockedUntil) :
    let next := failureStats provider existing now reason cooldowns modelId whamResult
    next.blockedUntil = some (max (activeUntil existing.blockedUntil now) blockedUntil) ∧
      next.cooldownModel = none ∧ next.disabledUntil = existing.disabledUntil ∧
        next.disabledReason = existing.disabledReason := by
  rw [probedBlock, Option.filter_eq_some_iff, Option.bind_eq_some_iff] at h
  obtain ⟨⟨result, hresult, hblocked⟩, hzero⟩ := h
  have hprobe := (Option.filter_eq_some_iff.mp hresult).2
  obtain ⟨hdisabled, hreason, -⟩ := @computeNext_cooldown existing now reason
    (resolveAuthCooldownConfig cooldowns (Config.normalizeProviderId provider)) modelId
    (not_disabled_of_probe hprobe)
  simp only [failureStats, hresult, applyWhamCooldownResult, hblocked, Option.filter_some, hzero,
    if_true, true_and]
  exact ⟨hdisabled, hreason⟩

theorem failureStats_other (h : probedBlock provider reason whamResult = none) :
    let computed := computeNextProfileUsageStats existing now reason
      (resolveAuthCooldownConfig cooldowns (Config.normalizeProviderId provider)) modelId
    let next := failureStats provider existing now reason cooldowns modelId whamResult
    Keeps now existing next ∧ next.blockedUntil = existing.blockedUntil ∧
      next.cooldownModel = computed.cooldownModel ∧ next.disabledUntil = computed.disabledUntil ∧
        next.disabledReason = computed.disabledReason := by
  intro computed next
  cases hresult : whamResult.filter fun _ => shouldProbeWhamForFailure provider reason with
  | none =>
      have hnext : next = computed := by
        show failureStats provider existing now reason cooldowns modelId whamResult = computed
        rw [failureStats, hresult]
      rw [hnext]
      exact ⟨computeNext_keeps, computeNext_blocked, rfl, rfl, rfl⟩
  | some result =>
      have hprobe := (Option.filter_eq_some_iff.mp hresult).2
      obtain ⟨hdisabled, -⟩ := @computeNext_cooldown existing now reason
        (resolveAuthCooldownConfig cooldowns (Config.normalizeProviderId provider)) modelId
        (not_disabled_of_probe hprobe)
      have hblocked : (result.blockedUntil.filter fun until_ => decide (until_ ≠ 0)) = none := by
        rw [probedBlock, hresult] at h
        exact h
      have hnext : next = { computed with
          cooldownUntil :=
            some (max (activeUntil existing.cooldownUntil now) (now + result.cooldownMs)) } := by
        show failureStats provider existing now reason cooldowns modelId whamResult = _
        rw [failureStats, hresult]
        simp only [applyWhamCooldownResult, hblocked]
        rfl
      rw [hnext]
      refine ⟨keeps_of_fields computeNext_blocked ?_ ?_, computeNext_blocked, rfl, rfl, rfl⟩
      · intro until_ hfield hlast
        refine ⟨_, rfl, ?_⟩
        rw [hfield, activeUntil_some hlast]
        exact le_max_left _ _
      · intro until_ hfield _
        exact hdisabled.trans hfield

end Probes

/-! ## What the windows say -/

structure Sound (clock : ℚ) (exempt : Bool) (opened : Option AuthProfileFailureReason)
    (stats : ProfileUsageStats) : Prop where
  scope : isActiveUnusableWindow stats.blockedUntil clock = true → truthy stats.cooldownModel = none
  reason : isActiveUnusableWindow stats.disabledUntil clock = true →
    opened.isSome = true ∧ stats.disabledReason = opened
  exempt : exempt = true → stats.blockedUntil = none ∧ stats.disabledUntil = none

def failureKept [UnicodeCase] (provider : JsString) (existing : ProfileUsageStats) (now : ℚ)
    (reason : AuthProfileFailureReason) (modelId : Option JsString)
    (whamResult : Option WhamCooldownProbeResult) : Bool :=
  match probedBlock provider reason whamResult with
  | some blockedUntil => blockCovers existing now blockedUntil
  | none =>
      (decide (reason ≠ .rateLimit) || (truthy modelId).isNone ||
        !isActiveUnusableWindow existing.blockedUntil now ||
          existing.cooldownUntil.any fun until_ => now < until_) &&
        (disabledFailureReason reason).all fun disabled =>
          !isActiveUnusableWindow existing.disabledUntil now ||
            existing.disabledReason = some disabled.toReason

section Sound

variable {clock now moment : ℚ} {exempt : Bool} {opened : Option AuthProfileFailureReason}
  {existing new : ProfileUsageStats}

theorem Sound.later (h : Sound clock exempt opened existing) (hmoment : clock ≤ moment) :
    Sound moment exempt opened existing where
  scope hactive := h.scope (active_earlier hactive hmoment)
  reason hactive := h.reason (active_earlier hactive hmoment)
  exempt := h.exempt

theorem sound_of_windowless (hblocked : new.blockedUntil = none) (hdisabled : new.disabledUntil = none) :
    Sound clock exempt opened new where
  scope hactive := by
    rw [hblocked] at hactive
    exact absurd hactive (by simp [isActiveUnusableWindow])
  reason hactive := by
    rw [hdisabled] at hactive
    exact absurd hactive (by simp [isActiveUnusableWindow])
  exempt _ := ⟨hblocked, hdisabled⟩

theorem Sound.block (h : Sound now false opened existing) (hmodel : new.cooldownModel = none)
    (hdisabled : new.disabledUntil = existing.disabledUntil)
    (hreason : new.disabledReason = existing.disabledReason) : Sound now false opened new where
  scope _ := by
    rw [hmodel]
    rfl
  reason hactive := by
    rw [hdisabled] at hactive
    exact ⟨(h.reason hactive).1, hreason.trans (h.reason hactive).2⟩
  exempt hexempt := absurd hexempt Bool.false_ne_true

theorem nextCooldownModel_unscoped {existingModel : Option JsString} (h : truthy existingModel = none)
    (modelId : Option JsString) (reason : AuthProfileFailureReason) :
    truthy (nextCooldownModel existingModel modelId reason) = none := by
  simp only [nextCooldownModel, h, Option.isSome_none, Bool.false_and, Bool.and_false,
    Bool.false_eq_true, if_false]
  split
  · rfl
  · exact h

variable [UnicodeCase]

theorem Sound.failure {provider : JsString} {reason : AuthProfileFailureReason}
    {cooldowns : AuthCooldowns} {modelId : Option JsString}
    {whamResult : Option WhamCooldownProbeResult} (h : Sound now false opened existing)
    (hkept : failureKept provider existing now reason modelId whamResult = true) :
    Sound now false
      ((if isActiveUnusableWindow existing.disabledUntil now then none
        else (disabledFailureReason reason).map DisabledFailureReason.toReason).or opened)
      (failureStats provider existing now reason cooldowns modelId whamResult) := by
  rw [failureKept] at hkept
  cases hblock : probedBlock provider reason whamResult with
  | some blockedUntil =>
      obtain ⟨-, hmodel, hdisabled, hreason⟩ := @failureStats_block _ provider existing now reason
        cooldowns modelId whamResult blockedUntil hblock
      rw [probedBlock, Option.filter_eq_some_iff, Option.bind_eq_some_iff] at hblock
      obtain ⟨⟨result, hresult, -⟩, -⟩ := hblock
      have hprobe := (Option.filter_eq_some_iff.mp hresult).2
      have hnone : (if isActiveUnusableWindow existing.disabledUntil now then none
          else (disabledFailureReason reason).map DisabledFailureReason.toReason) = none := by
        rw [not_disabled_of_probe hprobe, Option.map_none, ite_self]
      rw [hnone, Option.none_or]
      exact h.block hmodel hdisabled hreason
  | none =>
      rw [hblock] at hkept
      simp only [Bool.and_eq_true, Bool.or_eq_true] at hkept
      obtain ⟨-, hblocked, hmodel, hdisabled, hreason⟩ := @failureStats_other _ provider existing now
        reason cooldowns modelId whamResult hblock
      refine ⟨?_, ?_, fun hexempt => absurd hexempt Bool.false_ne_true⟩
      · intro hactive
        rw [hblocked] at hactive
        have hunscoped := h.scope hactive
        rw [hmodel]
        cases hcase : disabledFailureReason reason with
        | some disabled =>
            obtain ⟨-, hsame, -⟩ := @computeNext_disabled existing now reason
              (resolveAuthCooldownConfig cooldowns (Config.normalizeProviderId provider)) modelId
              disabled hcase
            rw [hsame]
            exact hunscoped
        | none =>
            obtain ⟨-, -, -, hscope⟩ := @computeNext_cooldown existing now reason
              (resolveAuthCooldownConfig cooldowns (Config.normalizeProviderId provider)) modelId
              hcase
            rw [hscope]
            split
            · exact nextCooldownModel_unscoped hunscoped modelId reason
            · rename_i hinactive
              split
              · rename_i hrate
                -- no cooldown for one model is opened during a block
                rcases hkept.1 with ((hother | hunknown) | hnot) | hcooldown
                · exact absurd hrate (of_decide_eq_true hother)
                · exact Option.isNone_iff_eq_none.mp hunknown
                · rw [hactive] at hnot
                  exact absurd hnot (by simp)
                · exact absurd hcooldown hinactive
              · rfl
      · intro hactive
        rw [hdisabled] at hactive
        rw [hreason]
        cases hcase : disabledFailureReason reason with
        | none =>
            obtain ⟨hsame, hsameReason, -⟩ := @computeNext_cooldown existing now reason
              (resolveAuthCooldownConfig cooldowns (Config.normalizeProviderId provider)) modelId
              hcase
            rw [hsame] at hactive
            rw [hsameReason, Option.map_none, ite_self, Option.none_or]
            exact h.reason hactive
        | some disabled =>
            obtain ⟨-, -, hnew, -⟩ := @computeNext_disabled existing now reason
              (resolveAuthCooldownConfig cooldowns (Config.normalizeProviderId provider)) modelId
              disabled hcase
            rw [hnew]
            cases hopen : isActiveUnusableWindow existing.disabledUntil now with
            | false => exact ⟨rfl, rfl⟩
            | true =>
                have hsame := hkept.2
                rw [hcase, Option.all_some, hopen, Bool.not_true, Bool.false_or,
                  decide_eq_true_eq] at hsame
                obtain ⟨hsome, hopened⟩ := h.reason hopen
                rw [if_pos rfl, Option.none_or]
                exact ⟨hsome, hsame.symm.trans hopened⟩

end Sound

/-!
## Runs of the auth profile store

The store in memory may be ahead of the one on disk by the windows that it has cleared.  In every run
whose failures are kept the windows of every profile are sound and none ends early.
-/

/-! ## The two stores -/

section Stores

theorem stats_update (store : AuthProfileStore) (profileId other : JsString)
    (updater : ProfileUsageStats → ProfileUsageStats) :
    (store.update profileId updater).stats other =
      if profileId = other then updater (store.stats other) else store.stats other := by
  rw [AuthProfileStore.stats, AuthProfileStore.update, Map.get_set]
  by_cases hsame : profileId = other
  · rw [if_pos hsame, if_pos hsame, hsame]
    rfl
  · rw [if_neg hsame, if_neg hsame]
    rfl

theorem clearExpired_fields (now : ℚ) (stats : ProfileUsageStats) :
    let cleared := clearExpiredStats now stats
    cleared.blockedUntil = (if expired stats.blockedUntil now then none else stats.blockedUntil) ∧
      cleared.cooldownUntil =
        (if expired stats.cooldownUntil now then none else stats.cooldownUntil) ∧
      cleared.cooldownModel =
        (if expired stats.cooldownUntil now then none else stats.cooldownModel) ∧
      cleared.disabledUntil =
        (if expired stats.disabledUntil now then none else stats.disabledUntil) ∧
      cleared.disabledReason =
        (if expired stats.disabledUntil now then none else stats.disabledReason) := by
  simp only [clearExpiredStats]
  cases expired stats.blockedUntil now <;> cases expired stats.cooldownUntil now <;>
    cases expired stats.disabledUntil now <;> simp <;> split <;> simp

theorem stats_clearExpired (store : AuthProfileStore) (now : ℚ) (profileId : JsString) :
    (clearExpiredCooldowns store now).stats profileId =
      clearExpiredStats now (store.stats profileId) := by
  rw [AuthProfileStore.stats, clearExpiredCooldowns, Map.get_filterMap, AuthProfileStore.stats]
  cases store.usageStats.get profileId with
  | none => rfl
  | some stats => rfl

end Stores

structure Behind (clock : ℚ) (memory disk : ProfileUsageStats) : Prop where
  blocked : memory.blockedUntil = disk.blockedUntil ∨
    memory.blockedUntil = none ∧ expired disk.blockedUntil clock = true
  cooldown : memory.cooldownUntil = disk.cooldownUntil ∨
    memory.cooldownUntil = none ∧ expired disk.cooldownUntil clock = true
  disabled : memory.disabledUntil = disk.disabledUntil ∨
    memory.disabledUntil = none ∧ expired disk.disabledUntil clock = true

section Behind

variable {clock now : ℚ} {memory disk : ProfileUsageStats}

theorem Behind.refl (stats : ProfileUsageStats) : Behind clock stats stats :=
  ⟨Or.inl rfl, Or.inl rfl, Or.inl rfl⟩

theorem expired_later {value : Option ℚ} (h : expired value clock = true) (hnow : clock ≤ now) :
    expired value now = true := by
  cases value with
  | none => exact absurd h (by simp [expired])
  | some until_ =>
      simp only [expired, Option.any_some, decide_eq_true_eq] at h ⊢
      exact ⟨h.1, h.2.trans hnow⟩

theorem behind_field {value other : Option ℚ}
    (h : value = other ∨ value = none ∧ expired other clock = true) (hnow : clock ≤ now) :
    (if expired value now then none else value) = other ∨
      (if expired value now then none else value) = none ∧ expired other now = true := by
  rcases h with rfl | ⟨rfl, hexpired⟩
  · cases hcase : expired value now with
    | true => exact Or.inr ⟨rfl, rfl⟩
    | false => exact Or.inl rfl
  · exact Or.inr ⟨ite_self none, expired_later hexpired hnow⟩

theorem Behind.later (h : Behind clock memory disk) (hnow : clock ≤ now) :
    Behind now memory disk where
  blocked := h.blocked.imp_right fun hcleared => ⟨hcleared.1, expired_later hcleared.2 hnow⟩
  cooldown := h.cooldown.imp_right fun hcleared => ⟨hcleared.1, expired_later hcleared.2 hnow⟩
  disabled := h.disabled.imp_right fun hcleared => ⟨hcleared.1, expired_later hcleared.2 hnow⟩

theorem Behind.clear (h : Behind clock memory disk) (hnow : clock ≤ now) :
    Behind now (clearExpiredStats now memory) disk := by
  obtain ⟨hblocked, hcooldown, -, hdisabled, -⟩ := clearExpired_fields now memory
  constructor
  · rw [hblocked]
    exact behind_field h.blocked hnow
  · rw [hcooldown]
    exact behind_field h.cooldown hnow
  · rw [hdisabled]
    exact behind_field h.disabled hnow

theorem Behind.windows (h : Behind clock memory disk) {until_ : ℚ} (hmem : until_ ∈ memory.windows) :
    until_ ∈ disk.windows := by
  have hfield {value other : Option ℚ}
      (hsame : value = other ∨ value = none ∧ expired other clock = true)
      (hvalue : value = some until_) : other = some until_ := by
    rcases hsame with hsame | ⟨hnone, -⟩
    · exact hsame.symm.trans hvalue
    · exact absurd (hnone.symm.trans hvalue) (by simp)
  obtain ⟨hpos, hblocked | hcooldown | hdisabled⟩ := mem_windows.mp hmem
  · exact mem_windows.mpr ⟨hpos, Or.inl (hfield h.blocked hblocked)⟩
  · exact mem_windows.mpr ⟨hpos, Or.inr (Or.inl (hfield h.cooldown hcooldown))⟩
  · exact mem_windows.mpr ⟨hpos, Or.inr (Or.inr (hfield h.disabled hdisabled))⟩

theorem clearExpired_keeps (stats : ProfileUsageStats) :
    Keeps now stats (clearExpiredStats now stats) := by
  obtain ⟨hblocked, hcooldown, -, hdisabled, -⟩ := clearExpired_fields now stats
  intro until_ hmem hlast
  obtain ⟨hpos, hfield | hfield | hfield⟩ := mem_windows.mp hmem
  · rw [not_expired_of_lt hfield hlast, if_neg Bool.false_ne_true] at hblocked
    exact ⟨until_, mem_windows.mpr ⟨hpos, Or.inl (hblocked.trans hfield)⟩, le_rfl⟩
  · rw [not_expired_of_lt hfield hlast, if_neg Bool.false_ne_true] at hcooldown
    exact ⟨until_, mem_windows.mpr ⟨hpos, Or.inr (Or.inl (hcooldown.trans hfield))⟩, le_rfl⟩
  · rw [not_expired_of_lt hfield hlast, if_neg Bool.false_ne_true] at hdisabled
    exact ⟨until_, mem_windows.mpr ⟨hpos, Or.inr (Or.inr (hdisabled.trans hfield))⟩, le_rfl⟩

theorem Sound.clear {exempt : Bool} {opened : Option AuthProfileFailureReason}
    {stats : ProfileUsageStats} (h : Sound now exempt opened stats) :
    Sound now exempt opened (clearExpiredStats now stats) := by
  obtain ⟨hblocked, -, hmodel, hdisabled, hreason⟩ := clearExpired_fields now stats
  constructor
  · intro hactive
    rw [hmodel]
    split
    · rfl
    · rw [hblocked] at hactive
      split at hactive
      · exact absurd hactive (by simp [isActiveUnusableWindow])
      · exact h.scope hactive
  · intro hactive
    rw [hdisabled] at hactive
    split at hactive
    · exact absurd hactive (by simp [isActiveUnusableWindow])
    · rename_i hlive
      rw [hreason, if_neg hlive]
      exact h.reason hactive
  · intro hexempt
    obtain ⟨hnone, hnever⟩ := h.exempt hexempt
    rw [hblocked, hdisabled, hnone, hnever]
    exact ⟨ite_self none, ite_self none⟩

end Behind

/-! ## One call -/

variable [UnicodeCase] (resolveProviderIdForAuth : JsString → JsString)

def callEffect (stores : AuthStores) (call : UsageCall) (profileId : JsString)
    (stats : ProfileUsageStats) : ProfileUsageStats :=
  let store := readStore stores.memory stores.disk call
  match updatedStats resolveProviderIdForAuth stores.memory store call with
  | some updater => if call.profileId = profileId then updater stats else stats
  | none => stats

section Step

variable {resolveProviderIdForAuth} {stores next : AuthStores} {call : UsageCall}

def Unchanged (stores : AuthStores) (result : AuthProfileStore × AuthProfileStore) : Prop :=
  ∀ profileId, result.1.stats profileId = stores.memory.stats profileId ∧
    result.2.stats profileId = stores.disk.stats profileId

def Synced (resolveProviderIdForAuth : JsString → JsString) (stores : AuthStores) (call : UsageCall)
    (result : AuthProfileStore × AuthProfileStore) : Prop :=
  ∀ profileId, result.1.stats profileId = result.2.stats profileId ∧
    result.2.stats profileId = callEffect resolveProviderIdForAuth stores call profileId
      ((readStore stores.memory stores.disk call).stats profileId)

theorem lock_cases (stores : AuthStores) (call : UsageCall) :
    let updater := fun store =>
      (updatedStats resolveProviderIdForAuth stores.memory store call).map (store.update call.profileId)
    let result := updateAuthProfileStoreWithLock stores.memory stores.disk call.locked updater updater
    result.1.profiles = stores.memory.profiles ∧
      (Unchanged stores result ∧ updatedStats resolveProviderIdForAuth stores.memory
          (readStore stores.memory stores.disk call) call = none ∨
        Synced resolveProviderIdForAuth stores call result) := by
  intro updater result
  cases hlocked : call.locked with
  | true =>
      have hread : readStore stores.memory stores.disk call = stores.disk := by
        rw [readStore, hlocked, if_pos rfl]
      have hresult : result = ({ stores.memory with
          usageStats := ((updater stores.disk).getD stores.disk).usageStats },
            (updater stores.disk).getD stores.disk) := by
        show updateAuthProfileStoreWithLock _ _ call.locked _ _ = _
        rw [updateAuthProfileStoreWithLock, hlocked, if_pos rfl]
      refine ⟨by rw [hresult], Or.inr fun profileId => ?_⟩
      rw [hresult, hread]
      refine ⟨rfl, ?_⟩
      simp only [updater, callEffect, hread]
      cases updatedStats resolveProviderIdForAuth stores.memory stores.disk call with
      | none => rfl
      | some change => exact stats_update stores.disk call.profileId profileId change
  | false =>
      have hread : readStore stores.memory stores.disk call = stores.memory := by
        rw [readStore, hlocked, if_neg Bool.false_ne_true]
      have hkept (hnone : updater stores.memory = none) : result = (stores.memory, stores.disk) := by
        show updateAuthProfileStoreWithLock _ _ call.locked _ _ = _
        rw [updateAuthProfileStoreWithLock, hlocked, hnone]
        exact if_neg Bool.false_ne_true
      have hsaved {saved : AuthProfileStore} (hsome : updater stores.memory = some saved) :
          result = (saved, { stores.disk with usageStats := saved.usageStats }) := by
        show updateAuthProfileStoreWithLock _ _ call.locked _ _ = _
        rw [updateAuthProfileStoreWithLock, hlocked, hsome]
        exact if_neg Bool.false_ne_true
      cases hupdated : updatedStats resolveProviderIdForAuth stores.memory stores.memory call with
      | none =>
          have hnone : updater stores.memory = none := by
            show (updatedStats _ _ _ _).map _ = none
            rw [hupdated, Option.map_none]
          rw [hkept hnone, hread]
          exact ⟨rfl, Or.inl ⟨fun profileId => ⟨rfl, rfl⟩, hupdated⟩⟩
      | some change =>
          have hsome : updater stores.memory = some (stores.memory.update call.profileId change) := by
            show (updatedStats _ _ _ _).map _ = _
            rw [hupdated, Option.map_some]
          rw [hsaved hsome]
          refine ⟨rfl, Or.inr fun profileId => ⟨rfl, ?_⟩⟩
          rw [callEffect, hread, hupdated]
          exact stats_update stores.memory call.profileId profileId change

theorem updatedStats_early (h : returnsEarly stores.memory call = true) (store : AuthProfileStore) :
    updatedStats resolveProviderIdForAuth stores.memory store call = none := by
  rw [returnsEarly] at h
  rw [updatedStats]
  cases hop : call.operation with
  | markAuthProfileFailure reason cooldowns modelId probe =>
      simp only [hop, Bool.not_eq_true'] at h
      simp [h]
  | markAuthProfileBlockedUntil blockedUntil checkedAt source modelId =>
      simp only [hop, Bool.or_eq_true, Bool.not_eq_true', decide_eq_true_eq] at h
      rcases h with huncounted | hpast
      · simp [huncounted]
      · simp [not_lt.mpr hpast]
  | clearExpiredCooldowns => rfl
  | markAuthProfileSuccess provider lastUsed => simp [hop] at h
  | clearAuthProfileCooldown => simp [hop] at h

theorem applyCall_cases (stores : AuthStores) (call : UsageCall) :
    let result := applyCall resolveProviderIdForAuth stores.memory stores.disk call
    result.1.profiles = stores.memory.profiles ∧
      (result = (clearExpiredCooldowns stores.memory call.now, stores.disk) ∧
          call.operation = .clearExpiredCooldowns ∨
        Unchanged stores result ∧ updatedStats resolveProviderIdForAuth stores.memory
          (readStore stores.memory stores.disk call) call = none ∨
        Synced resolveProviderIdForAuth stores call result) := by
  have hlock := @lock_cases _ resolveProviderIdForAuth stores call
  have hother : (if returnsEarly stores.memory call then (stores.memory, stores.disk)
      else updateAuthProfileStoreWithLock stores.memory stores.disk call.locked
        (fun store => (updatedStats resolveProviderIdForAuth stores.memory store call).map
          (store.update call.profileId))
        (fun store => (updatedStats resolveProviderIdForAuth stores.memory store call).map
          (store.update call.profileId))) =
      applyCall resolveProviderIdForAuth stores.memory stores.disk call ∨
        call.operation = .clearExpiredCooldowns := by
    rw [applyCall]
    cases call.operation <;> first | exact Or.inr rfl | exact Or.inl rfl
  rcases hother with hresult | hop
  · rw [← hresult]
    split
    · rename_i hearly
      exact ⟨rfl, Or.inr (Or.inl ⟨fun profileId => ⟨rfl, rfl⟩, updatedStats_early hearly _⟩)⟩
    · exact ⟨hlock.1, Or.inr hlock.2⟩
  · have hresult : applyCall resolveProviderIdForAuth stores.memory stores.disk call =
        (clearExpiredCooldowns stores.memory call.now, stores.disk) := by
      rw [applyCall, hop]
    rw [hresult]
    exact ⟨rfl, Or.inl ⟨rfl, hop⟩⟩

end Step

end GreenchClaw.AuthProfiles
