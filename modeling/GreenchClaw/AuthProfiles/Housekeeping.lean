import GreenchClaw.AuthProfiles.Windows
import Mathlib.Tactic.NormNum
import Mathlib.Tactic.Positivity

/-!
# Housekeeping and failures

Whether windows that have passed were cleared before a failure makes no difference to what the failure
leaves open, and failures in a window do not move its end.
-/

namespace GreenchClaw.AuthProfiles

open GreenchClaw.Js

/-! ## Open windows -/

def openWindow {α : Type} (now : ℚ) (until_ : Option ℚ) (about : α) : Option (ℚ × α) :=
  (until_.filter fun value => now < value).map fun value => (value, about)

structure OpenWindows where
  blocked : Option (ℚ × Option AuthProfileBlockedReason × Option AuthProfileBlockedSource ×
    Option JsString)
  cooldown : Option (ℚ × Option AuthProfileFailureReason × Option JsString)
  disabled : Option (ℚ × Option AuthProfileFailureReason)

def ProfileUsageStats.openWindows (stats : ProfileUsageStats) (now : ℚ) : OpenWindows :=
  { blocked :=
      openWindow now stats.blockedUntil (stats.blockedReason, stats.blockedSource, stats.blockedModel)
    cooldown := openWindow now stats.cooldownUntil (stats.cooldownReason, stats.cooldownModel)
    disabled := openWindow now stats.disabledUntil stats.disabledReason }

section Clear

variable {t₁ t₂ : ℚ} {stats : ProfileUsageStats}

theorem openWindow_expired {α : Type} {until_ : Option ℚ} (h : expired until_ t₁ = true) (hle : t₁ ≤ t₂)
    (about : α) : openWindow t₂ until_ about = none := by
  cases until_ with
  | none => rfl
  | some value =>
      simp only [expired, Option.any_some, decide_eq_true_eq] at h
      have hpassed : ¬t₂ < value := not_lt.mpr (h.2.trans hle)
      rw [openWindow, Option.filter_some, if_neg (by simpa using hpassed)]
      rfl

theorem openWindow_clear {α : Type} (until_ : Option ℚ) (about other : α) (hle : t₁ ≤ t₂) :
    openWindow t₂ (if expired until_ t₁ = true then none else until_)
        (if expired until_ t₁ = true then other else about) = openWindow t₂ until_ about := by
  by_cases h : expired until_ t₁ = true
  · rw [if_pos h, if_pos h, openWindow_expired h hle]
    rfl
  · rw [if_neg h, if_neg h]

theorem clearExpired_about (now : ℚ) (stats : ProfileUsageStats) :
    let cleared := clearExpiredStats now stats
    (cleared.blockedReason, cleared.blockedSource, cleared.blockedModel) =
        (if expired stats.blockedUntil now = true then (none, none, none)
          else (stats.blockedReason, stats.blockedSource, stats.blockedModel)) ∧
      (cleared.cooldownReason, cleared.cooldownModel) =
        (if expired stats.cooldownUntil now = true then (none, none)
          else (stats.cooldownReason, stats.cooldownModel)) ∧
      cleared.lastFailureAt = stats.lastFailureAt := by
  simp only [clearExpiredStats]
  cases expired stats.blockedUntil now <;> cases expired stats.cooldownUntil now <;>
    cases expired stats.disabledUntil now <;> simp <;> split <;> simp

theorem openWindows_clear (stats : ProfileUsageStats) (hle : t₁ ≤ t₂) :
    (clearExpiredStats t₁ stats).openWindows t₂ = stats.openWindows t₂ := by
  obtain ⟨hblockedUntil, hcooldownUntil, -, hdisabledUntil, hdisabledReason⟩ :=
    clearExpired_fields t₁ stats
  obtain ⟨hblocked, hcooldown, -⟩ := clearExpired_about t₁ stats
  rw [ProfileUsageStats.openWindows, ProfileUsageStats.openWindows, OpenWindows.mk.injEq]
  refine ⟨?_, ?_, ?_⟩
  · rw [hblockedUntil, hblocked]
    exact openWindow_clear _ _ _ hle
  · rw [hcooldownUntil, hcooldown]
    exact openWindow_clear _ _ _ hle
  · rw [hdisabledUntil, hdisabledReason]
    exact openWindow_clear _ _ _ hle

theorem mem_windows_clear {until_ : ℚ} :
    until_ ∈ (clearExpiredStats t₁ stats).windows ↔ until_ ∈ stats.windows ∧ t₁ < until_ := by
  obtain ⟨hblocked, hcooldown, -, hdisabled, -⟩ := clearExpired_fields t₁ stats
  have hfield (value : Option ℚ) (hpos : 0 < until_) :
      (if expired value t₁ then none else value) = some until_ ↔ value = some until_ ∧ t₁ < until_ := by
    cases value with
    | none => simp
    | some other =>
        by_cases heq : other = until_
        · simp [expired, heq, hpos]
        · simp only [Option.some.injEq, heq, false_and, iff_false]
          split
          · simp
          · exact fun h => heq (Option.some.inj h)
  rw [mem_windows, mem_windows, hblocked, hcooldown, hdisabled]
  constructor
  · rintro ⟨hpos, h | h | h⟩
    · obtain ⟨hvalue, hlt⟩ := (hfield _ hpos).mp h
      exact ⟨⟨hpos, Or.inl hvalue⟩, hlt⟩
    · obtain ⟨hvalue, hlt⟩ := (hfield _ hpos).mp h
      exact ⟨⟨hpos, Or.inr (Or.inl hvalue)⟩, hlt⟩
    · obtain ⟨hvalue, hlt⟩ := (hfield _ hpos).mp h
      exact ⟨⟨hpos, Or.inr (Or.inr hvalue)⟩, hlt⟩
  · rintro ⟨⟨hpos, h | h | h⟩, hlt⟩
    · exact ⟨hpos, Or.inl ((hfield _ hpos).mpr ⟨h, hlt⟩)⟩
    · exact ⟨hpos, Or.inr (Or.inl ((hfield _ hpos).mpr ⟨h, hlt⟩))⟩
    · exact ⟨hpos, Or.inr (Or.inr ((hfield _ hpos).mpr ⟨h, hlt⟩))⟩

/-! ## Counters -/

def ProfileUsageStats.counters (stats : ProfileUsageStats) (now : ℚ) (cfg : ResolvedAuthCooldownConfig) :
    ℕ × (AuthProfileFailureReason → ℕ) :=
  let windowExpired := stats.lastFailureAt.any fun last => 0 < last ∧ cfg.failureWindowMs < now - last
  let previousCooldownExpired := (resolveProfileUnusableUntil stats).any fun until_ => until_ ≤ now
  if windowExpired || previousCooldownExpired then (0, fun _ => 0)
  else (stats.errorCount, stats.failureCounts)

theorem unusable_passed_iff {now : ℚ} :
    (resolveProfileUnusableUntil stats).any (fun until_ => decide (until_ ≤ now)) = true ↔
      stats.windows ≠ [] ∧ ∀ until_ ∈ stats.windows, until_ ≤ now := by
  cases hlast : resolveProfileUnusableUntil stats with
  | none =>
      have hnil : stats.windows = [] := List.max?_eq_none_iff.mp hlast
      simp [hnil]
  | some last =>
      have hmem := mem_of_unusable hlast
      simp only [Option.any_some, decide_eq_true_eq]
      constructor
      · intro hle
        exact ⟨List.ne_nil_of_mem hmem, fun until_ h => ((List.max?_eq_some_iff.mp hlast).2 until_ h).trans hle⟩
      · exact fun h => h.2 last hmem

theorem clearExpired_eq (now : ℚ) (stats : ProfileUsageStats) :
    ∃ after : ProfileUsageStats,
      clearExpiredStats now stats =
        (if ((expired stats.cooldownUntil now || expired stats.blockedUntil now ||
              expired stats.disabledUntil now) &&
            decide (resolveProfileUnusableUntil after = none)) = true then
          { after with errorCount := 0, failureCounts := fun _ => 0 }
        else after) ∧
      after.errorCount = stats.errorCount ∧ after.failureCounts = stats.failureCounts := by
  refine ⟨_, rfl, ?_, ?_⟩
  · split <;> split <;> split <;> rfl
  · split <;> split <;> split <;> rfl

theorem windows_of_expired {now : ℚ}
    (h : (expired stats.cooldownUntil now || expired stats.blockedUntil now ||
      expired stats.disabledUntil now) = true) : stats.windows ≠ [] := by
  have hfield {value : Option ℚ} (hvalue : expired value now = true) :
      ∃ until_, value = some until_ ∧ 0 < until_ := by
    cases value with
    | none => exact absurd hvalue (by simp [expired])
    | some until_ =>
        simp only [expired, Option.any_some, decide_eq_true_eq] at hvalue
        exact ⟨until_, rfl, hvalue.1⟩
  rw [Bool.or_eq_true, Bool.or_eq_true] at h
  rcases h with (h | h) | h
  · obtain ⟨until_, hvalue, hpos⟩ := hfield h
    exact List.ne_nil_of_mem (mem_windows.mpr ⟨hpos, Or.inr (Or.inl hvalue)⟩)
  · obtain ⟨until_, hvalue, hpos⟩ := hfield h
    exact List.ne_nil_of_mem (mem_windows.mpr ⟨hpos, Or.inl hvalue⟩)
  · obtain ⟨until_, hvalue, hpos⟩ := hfield h
    exact List.ne_nil_of_mem (mem_windows.mpr ⟨hpos, Or.inr (Or.inr hvalue)⟩)

theorem expired_of_passed {now until_ : ℚ} (hmem : until_ ∈ stats.windows) (hle : until_ ≤ now) :
    (expired stats.cooldownUntil now || expired stats.blockedUntil now ||
      expired stats.disabledUntil now) = true := by
  obtain ⟨hpos, h | h | h⟩ := mem_windows.mp hmem
  · simp [h, expired, hpos, hle]
  · simp [h, expired, hpos, hle]
  · simp [h, expired, hpos, hle]

theorem counters_of_clear (now : ℚ) (stats : ProfileUsageStats) :
    ((clearExpiredStats now stats).errorCount, (clearExpiredStats now stats).failureCounts) =
      if (clearExpiredStats now stats).windows = [] ∧ stats.windows ≠ [] then (0, fun _ => 0)
      else (stats.errorCount, stats.failureCounts) := by
  obtain ⟨after, heq, herrors, hcounts⟩ := clearExpired_eq now stats
  have hwindows : (clearExpiredStats now stats).windows = after.windows := by
    rw [heq]
    split
    · rfl
    · rfl
  have hnone : resolveProfileUnusableUntil after = none ↔ after.windows = [] := List.max?_eq_none_iff
  have hiff : ((expired stats.cooldownUntil now || expired stats.blockedUntil now ||
      expired stats.disabledUntil now) && decide (resolveProfileUnusableUntil after = none)) = true ↔
        (clearExpiredStats now stats).windows = [] ∧ stats.windows ≠ [] := by
    rw [Bool.and_eq_true, decide_eq_true_eq, hnone, hwindows]
    constructor
    · exact fun h => ⟨h.2, windows_of_expired h.1⟩
    · intro h
      obtain ⟨until_, hmem⟩ := List.exists_mem_of_ne_nil _ h.2
      have hle : until_ ≤ now := by
        by_contra hlt
        have hkept : until_ ∈ (clearExpiredStats now stats).windows :=
          mem_windows_clear.mpr ⟨hmem, not_le.mp hlt⟩
        rw [hwindows, h.1] at hkept
        exact absurd hkept List.not_mem_nil
      exact ⟨expired_of_passed hmem hle, h.1⟩
  rw [← if_congr hiff rfl rfl, heq]
  split
  · rfl
  · rw [herrors, hcounts]

theorem passed_of_clear_nil (hle : t₁ ≤ t₂) (hnone : (clearExpiredStats t₁ stats).windows = [])
    {until_ : ℚ} (hmem : until_ ∈ stats.windows) : until_ ≤ t₂ := by
  by_contra hlt
  have hkept : until_ ∈ (clearExpiredStats t₁ stats).windows :=
    mem_windows_clear.mpr ⟨hmem, hle.trans_lt (not_le.mp hlt)⟩
  rw [hnone] at hkept
  exact absurd hkept List.not_mem_nil

theorem passed_clear_iff (hle : t₁ ≤ t₂) (hsome : (clearExpiredStats t₁ stats).windows ≠ []) :
    (resolveProfileUnusableUntil (clearExpiredStats t₁ stats)).any (fun until_ => decide (until_ ≤ t₂)) =
      (resolveProfileUnusableUntil stats).any fun until_ => decide (until_ ≤ t₂) := by
  rw [Bool.eq_iff_iff, unusable_passed_iff, unusable_passed_iff]
  constructor
  · intro h
    obtain ⟨until_, hmem⟩ := List.exists_mem_of_ne_nil _ h.1
    have hwindows : stats.windows ≠ [] := List.ne_nil_of_mem (mem_windows_clear.mp hmem).1
    refine ⟨hwindows, ?_⟩
    intro other hother
    by_cases hlt : t₁ < other
    · exact h.2 other (mem_windows_clear.mpr ⟨hother, hlt⟩)
    · exact (not_lt.mp hlt).trans hle
  · intro h
    exact ⟨hsome, fun until_ hmem => h.2 until_ (mem_windows_clear.mp hmem).1⟩

theorem counters_clear (stats : ProfileUsageStats) (cfg : ResolvedAuthCooldownConfig) (hle : t₁ ≤ t₂) :
    (clearExpiredStats t₁ stats).counters t₂ cfg = stats.counters t₂ cfg := by
  have hlast := (clearExpired_about t₁ stats).2.2
  have hcounters := counters_of_clear t₁ stats
  rw [ProfileUsageStats.counters, ProfileUsageStats.counters, hlast, hcounters]
  by_cases hnone : (clearExpiredStats t₁ stats).windows = []
  · by_cases hold : stats.windows = []
    · rw [if_neg (fun h : _ ∧ stats.windows ≠ [] => h.2 hold), resolveProfileUnusableUntil,
        resolveProfileUnusableUntil, hnone, hold]
    · -- what is left is no window, so all have passed
      have hyes := unusable_passed_iff.mpr ⟨hold, fun _ => passed_of_clear_nil hle hnone⟩
      rw [if_pos (show _ ∧ stats.windows ≠ [] from ⟨hnone, hold⟩), hyes]
      simp only [Bool.or_true, if_true, ite_self]
  · rw [if_neg (fun h : _ ∧ stats.windows ≠ [] => hnone h.1), passed_clear_iff hle hnone]

end Clear

/-! ## A failure -/

section Failure

variable {now : ℚ} {first second : ProfileUsageStats} {reason : AuthProfileFailureReason}
  {cfg : ResolvedAuthCooldownConfig} {modelId : Option JsString}

theorem compute_eq (stats : ProfileUsageStats) :
    computeNextProfileUsageStats stats now reason cfg modelId =
      let failureCounts := fun other => if other = reason then (stats.counters now cfg).2 other + 1
        else (stats.counters now cfg).2 other
      let updatedStats :=
        { stats with
          errorCount := (stats.counters now cfg).1 + 1
          failureCounts
          lastFailureAt := some now }
      match disabledFailureReason reason with
      | some disabled =>
          { updatedStats with
            disabledUntil := some (keepActiveWindowOrRecompute stats.disabledUntil now
              (now + resolveDisabledFailureBackoffMs disabled (failureCounts disabled.toReason) cfg))
            disabledReason := some disabled.toReason }
      | none =>
          { updatedStats with
            cooldownUntil := some (keepActiveWindowOrRecompute stats.cooldownUntil now
              (now + calculateAuthProfileCooldownMs ((stats.counters now cfg).1 + 1)))
            cooldownReason := some reason
            cooldownModel :=
              if (stats.cooldownUntil.any fun until_ => decide (now < until_)) = true then
                nextCooldownModel stats.cooldownModel modelId reason
              else if reason = .rateLimit then modelId else none } := by
  have hcounters : stats.counters now cfg =
      (if ((stats.lastFailureAt.any fun last => decide (0 < last ∧ cfg.failureWindowMs < now - last)) ||
          (resolveProfileUnusableUntil stats).any fun until_ => decide (until_ ≤ now)) = true then 0
        else stats.errorCount,
       if ((stats.lastFailureAt.any fun last => decide (0 < last ∧ cfg.failureWindowMs < now - last)) ||
          (resolveProfileUnusableUntil stats).any fun until_ => decide (until_ ≤ now)) = true then fun _ => 0
        else stats.failureCounts) := by
    rw [ProfileUsageStats.counters]
    split
    · rfl
    · rfl
  rw [hcounters]
  rfl

theorem filter_of_openWindow {α : Type} {until_ other : Option ℚ} {about aboutOther : α}
    (h : openWindow now until_ about = openWindow now other aboutOther) :
    (until_.filter fun value => now < value) = other.filter fun value => now < value := by
  have hfst := congrArg (Option.map Prod.fst) h
  simpa only [openWindow, Option.map_map, Function.comp_def, Option.map_id'] using hfst

theorem about_of_openWindow {α : Type} {until_ other : Option ℚ} {about aboutOther : α}
    (h : openWindow now until_ about = openWindow now other aboutOther)
    (hopen : (until_.any fun value => decide (now < value)) = true) : about = aboutOther := by
  cases until_ with
  | none => exact absurd hopen (by simp)
  | some value =>
      rw [Option.any_some] at hopen
      rw [openWindow, Option.filter_some, if_pos hopen, Option.map_some] at h
      rw [openWindow] at h
      cases hother : other.filter fun value => decide (now < value) with
      | none =>
          rw [hother] at h
          exact absurd h (by simp)
      | some found =>
          rw [hother, Option.map_some, Option.some.injEq, Prod.mk.injEq] at h
          exact h.2

theorem any_of_filter {until_ other : Option ℚ}
    (h : (until_.filter fun value => decide (now < value)) = other.filter fun value => decide (now < value)) :
    (until_.any fun value => decide (now < value)) = other.any fun value => decide (now < value) := by
  have hany : ∀ value : Option ℚ,
      (value.any fun value => decide (now < value)) =
        (value.filter fun value => decide (now < value)).isSome := by
    intro value
    cases value with
    | none => rfl
    | some value =>
        rw [Option.any_some, Option.filter_some]
        cases decide (now < value) <;> rfl
  rw [hany, hany, h]

theorem compute_openWindows (hopen : first.openWindows now = second.openWindows now)
    (hcounters : first.counters now cfg = second.counters now cfg) :
    (computeNextProfileUsageStats first now reason cfg modelId).openWindows now =
      (computeNextProfileUsageStats second now reason cfg modelId).openWindows now := by
  rw [ProfileUsageStats.openWindows, ProfileUsageStats.openWindows, OpenWindows.mk.injEq] at hopen
  obtain ⟨hblocked, hcooldown, hdisabled⟩ := hopen
  have hcounts : (first.counters now cfg).1 = (second.counters now cfg).1 := by rw [hcounters]
  have hreasons : (first.counters now cfg).2 = (second.counters now cfg).2 := by rw [hcounters]
  have hcooldownEnd := filter_of_openWindow hcooldown
  have hdisabledEnd := filter_of_openWindow hdisabled
  rw [compute_eq, compute_eq, hcounts, hreasons]
  cases disabledFailureReason reason with
  | none =>
      have hscope : (if (first.cooldownUntil.any fun until_ => decide (now < until_)) = true then
            nextCooldownModel first.cooldownModel modelId reason
          else if reason = .rateLimit then modelId else none) =
          if (second.cooldownUntil.any fun until_ => decide (now < until_)) = true then
            nextCooldownModel second.cooldownModel modelId reason
          else if reason = .rateLimit then modelId else none := by
        rw [← any_of_filter hcooldownEnd]
        by_cases hactive : (first.cooldownUntil.any fun until_ => decide (now < until_)) = true
        · have habout := about_of_openWindow hcooldown hactive
          rw [Prod.mk.injEq] at habout
          rw [if_pos hactive, if_pos hactive, habout.2]
        · rw [if_neg hactive, if_neg hactive]
      rw [ProfileUsageStats.openWindows, ProfileUsageStats.openWindows, OpenWindows.mk.injEq]
      refine ⟨hblocked, ?_, hdisabled⟩
      simp only [keepActiveWindowOrRecompute, hcooldownEnd, hscope]
  | some disabled =>
      rw [ProfileUsageStats.openWindows, ProfileUsageStats.openWindows, OpenWindows.mk.injEq]
      refine ⟨hblocked, hcooldown, ?_⟩
      simp only [keepActiveWindowOrRecompute, hdisabledEnd]

theorem compute_counts (stats : ProfileUsageStats) :
    (computeNextProfileUsageStats stats now reason cfg modelId).errorCount =
        (stats.counters now cfg).1 + 1 ∧
      (computeNextProfileUsageStats stats now reason cfg modelId).failureCounts =
        fun other => if other = reason then (stats.counters now cfg).2 other + 1
          else (stats.counters now cfg).2 other := by
  rw [compute_eq]
  cases disabledFailureReason reason with
  | none => exact ⟨rfl, rfl⟩
  | some disabled => exact ⟨rfl, rfl⟩

def ownWindow (stats : ProfileUsageStats) (reason : AuthProfileFailureReason) : Option ℚ :=
  match disabledFailureReason reason with
  | some _ => stats.disabledUntil
  | none => stats.cooldownUntil

theorem keepActive_lt {existing : Option ℚ} {recomputed : ℚ} (h : now < recomputed) :
    now < keepActiveWindowOrRecompute existing now recomputed := by
  rw [keepActiveWindowOrRecompute]
  cases hactive : existing.filter fun until_ => decide (now < until_) with
  | none => exact h
  | some until_ =>
      have hlt := (Option.filter_eq_some_iff.mp hactive).2
      exact of_decide_eq_true hlt

theorem cooldownMs_pos (errorCount : ℕ) : 0 < calculateAuthProfileCooldownMs errorCount := by
  rw [calculateAuthProfileCooldownMs]
  split
  · norm_num
  · split
    · norm_num
    · norm_num

theorem backoffMs_pos (disabled : DisabledFailureReason) (errorCount : ℕ) :
    0 < resolveDisabledFailureBackoffMs disabled errorCount cfg := by
  have hlane (baseMs maxMs : ℚ) : 0 < calculateDisabledLaneBackoffMs errorCount baseMs maxMs := by
    have hbase : (0 : ℚ) < max 60000 baseMs := lt_max_of_lt_left (by norm_num)
    rw [calculateDisabledLaneBackoffMs]
    exact lt_min (lt_max_of_lt_left hbase) (by positivity)
  cases disabled with
  | billing => exact hlane _ _
  | authPermanent => exact hlane _ _

theorem ownWindow_compute (stats : ProfileUsageStats) : ∃ until_, now < until_ ∧
    ownWindow (computeNextProfileUsageStats stats now reason cfg modelId) reason = some until_ := by
  rw [compute_eq, ownWindow]
  cases disabledFailureReason reason with
  | none => exact ⟨_, keepActive_lt (lt_add_of_pos_right now (cooldownMs_pos _)), rfl⟩
  | some disabled => exact ⟨_, keepActive_lt (lt_add_of_pos_right now (backoffMs_pos disabled _)), rfl⟩

theorem mem_windows_of_own {until_ : ℚ} {stats : ProfileUsageStats}
    (h : ownWindow stats reason = some until_) (hpos : 0 < until_) : until_ ∈ stats.windows := by
  rw [ownWindow] at h
  split at h
  · exact mem_windows.mpr ⟨hpos, Or.inr (Or.inr h)⟩
  · exact mem_windows.mpr ⟨hpos, Or.inr (Or.inl h)⟩

/-- The profile is usable again at the same moment when the windows that end later are the same and
either there is one or no window has passed. -/
theorem unusable_eq (hsame : ∀ until_, now < until_ → (until_ ∈ first.windows ↔ until_ ∈ second.windows))
    (hlater : now < 0 ∨ ∃ until_ ∈ first.windows, now < until_) :
    resolveProfileUnusableUntil first = resolveProfileUnusableUntil second := by
  rcases hlater with hnow | ⟨later, hmem, hlt⟩
  · have hall : ∀ until_, until_ ∈ first.windows ↔ until_ ∈ second.windows := by
      intro until_
      constructor
      · exact fun h => (hsame until_ (hnow.trans (mem_windows.mp h).1)).mp h
      · exact fun h => (hsame until_ (hnow.trans (mem_windows.mp h).1)).mpr h
    ext last
    rw [resolveProfileUnusableUntil, resolveProfileUnusableUntil, List.max?_eq_some_iff,
      List.max?_eq_some_iff]
    simp only [hall]
  · obtain ⟨last, hlast, hle⟩ := exists_unusable hmem
    have hmemLast := mem_of_unusable hlast
    rw [hlast]
    symm
    apply List.max?_eq_some_iff.mpr
    constructor
    · exact (hsame last (hlt.trans_le hle)).mp hmemLast
    · intro other hother
      by_cases hother' : now < other
      · exact (List.max?_eq_some_iff.mp hlast).2 other ((hsame other hother').mpr hother)
      · exact (not_lt.mp hother').trans (hlt.le.trans hle)

theorem openWindow_some {α : Type} {until_ : Option ℚ} {about : α} {value : ℚ} (hlt : now < value) :
    until_ = some value ↔ (openWindow now until_ about).map Prod.fst = some value := by
  cases until_ with
  | none => simp [openWindow]
  | some other =>
      rw [openWindow, Option.filter_some]
      by_cases hother : now < other
      · simp [hother]
      · have hne : other ≠ value := fun heq => hother (heq ▸ hlt)
        simp [hother, hne]

theorem mem_windows_of_open (hopen : first.openWindows now = second.openWindows now) {until_ : ℚ}
    (hlt : now < until_) : until_ ∈ first.windows ↔ until_ ∈ second.windows := by
  rw [ProfileUsageStats.openWindows, ProfileUsageStats.openWindows, OpenWindows.mk.injEq] at hopen
  rw [mem_windows, mem_windows, openWindow_some hlt, hopen.1, ← openWindow_some hlt,
    @openWindow_some now _ first.cooldownUntil _ until_ hlt, hopen.2.1, ← openWindow_some hlt,
    @openWindow_some now _ first.disabledUntil _ until_ hlt, hopen.2.2, ← openWindow_some hlt]

end Failure

/-! ## Retries -/

/-- A failure of one reason, or a clearing of the windows that have passed. -/
inductive Retry where
  | failure (now : ℚ) (cfg : ResolvedAuthCooldownConfig) (modelId : Option JsString)
  | clear (now : ℚ)

def Retry.now : Retry → ℚ
  | .failure now _ _ => now
  | .clear now => now

def retry (reason : AuthProfileFailureReason) (stats : ProfileUsageStats) : Retry → ProfileUsageStats
  | .failure now cfg modelId => computeNextProfileUsageStats stats now reason cfg modelId
  | .clear now => clearExpiredStats now stats

section Retries

variable {reason : AuthProfileFailureReason} {until_ : ℚ} {stats : ProfileUsageStats}

theorem keepActive_of_lt {now : ℚ} {existing : Option ℚ} (h : existing = some until_)
    (hlt : now < until_) (recomputed : ℚ) :
    some (keepActiveWindowOrRecompute existing now recomputed) = existing := by
  rw [h, keepActive_some hlt]

theorem windows_compute {now : ℚ} (cfg : ResolvedAuthCooldownConfig) (modelId : Option JsString)
    (hown : ownWindow stats reason = some until_) (hlt : now < until_) :
    ownWindow (computeNextProfileUsageStats stats now reason cfg modelId) reason = some until_ ∧
      (computeNextProfileUsageStats stats now reason cfg modelId).windows = stats.windows := by
  rw [compute_eq]
  rw [ownWindow] at hown
  rw [ownWindow]
  cases hreason : disabledFailureReason reason with
  | none =>
      rw [hreason] at hown
      have hkept := keepActive_of_lt hown hlt
      simp only [ProfileUsageStats.windows, hkept]
      exact ⟨hown, trivial⟩
  | some disabled =>
      rw [hreason] at hown
      have hkept := keepActive_of_lt hown hlt
      simp only [ProfileUsageStats.windows, hkept]
      exact ⟨hown, trivial⟩

theorem ownWindow_clear {now : ℚ} (hown : ownWindow stats reason = some until_) (hlt : now < until_) :
    ownWindow (clearExpiredStats now stats) reason = some until_ := by
  obtain ⟨-, hcooldown, -, hdisabled, -⟩ := clearExpired_fields now stats
  rw [ownWindow] at hown ⊢
  cases hreason : disabledFailureReason reason with
  | none =>
      rw [hreason] at hown
      simp only at hown ⊢
      rw [hcooldown, not_expired_of_lt hown hlt]
      exact hown
  | some disabled =>
      rw [hreason] at hown
      simp only at hown ⊢
      rw [hdisabled, not_expired_of_lt hown hlt]
      exact hown

theorem retry_kept (op : Retry) (hown : ownWindow stats reason = some until_) (hlt : op.now < until_) :
    ownWindow (retry reason stats op) reason = some until_ ∧
      resolveProfileUnusableUntil (retry reason stats op) = resolveProfileUnusableUntil stats := by
  cases op with
  | failure now cfg modelId =>
      have hnow : now < until_ := hlt
      obtain ⟨hafter, hwindows⟩ := windows_compute cfg modelId hown hnow
      rw [retry, resolveProfileUnusableUntil, resolveProfileUnusableUntil, hwindows]
      exact ⟨hafter, rfl⟩
  | clear now =>
      have hafter := ownWindow_clear hown hlt
      refine ⟨hafter, @unusable_eq now _ _ ?_ ?_⟩
      · intro other hother
        rw [retry, mem_windows_clear]
        exact and_iff_left hother
      · by_cases hnow : now < 0
        · exact Or.inl hnow
        · have hpos : 0 < until_ := (not_lt.mp hnow).trans_lt hlt
          exact Or.inr ⟨until_, mem_windows_of_own hafter hpos, hlt⟩

theorem retries_kept (ops : List Retry) (hown : ownWindow stats reason = some until_)
    (hlt : ∀ op ∈ ops, op.now < until_) :
    ownWindow (ops.foldl (retry reason) stats) reason = some until_ ∧
      resolveProfileUnusableUntil (ops.foldl (retry reason) stats) = resolveProfileUnusableUntil stats := by
  induction ops generalizing stats with
  | nil => exact ⟨hown, rfl⟩
  | cons op ops ih =>
      obtain ⟨hafter, hunusable⟩ := retry_kept op hown (hlt op List.mem_cons_self)
      rw [List.foldl_cons]
      obtain ⟨hend, hsame⟩ := ih hafter fun later hlater => hlt later (List.mem_cons_of_mem op hlater)
      exact ⟨hend, hsame.trans hunusable⟩

end Retries

/-! ## The store -/

/-- Clearing the store before a failure makes no difference to the windows that the failure leaves open,
to the moment from which the profile is usable again or to the counters. The failure leaves its window
open, and while the window of a reason is open, failures of that reason move neither its end nor that
moment. -/
theorem failure_ignores_housekeeping (store : AuthProfileStore) (profileId : JsString) {t₁ t₂ : ℚ}
    (hle : t₁ ≤ t₂) (reason : AuthProfileFailureReason) (cfg : ResolvedAuthCooldownConfig)
    (modelId : Option JsString) :
    let cleaned :=
      computeNextProfileUsageStats ((clearExpiredCooldowns store t₁).stats profileId) t₂ reason cfg modelId
    let uncleaned := computeNextProfileUsageStats (store.stats profileId) t₂ reason cfg modelId
    (cleaned.openWindows t₂ = uncleaned.openWindows t₂ ∧
      resolveProfileUnusableUntil cleaned = resolveProfileUnusableUntil uncleaned ∧
      cleaned.errorCount = uncleaned.errorCount ∧ cleaned.failureCounts = uncleaned.failureCounts) ∧
    (∃ until_, t₂ < until_ ∧ ownWindow uncleaned reason = some until_) ∧
    ∀ stats until_, ownWindow stats reason = some until_ →
      ∀ retries : List Retry, (∀ op ∈ retries, op.now < until_) →
        ownWindow (retries.foldl (retry reason) stats) reason = some until_ ∧
          resolveProfileUnusableUntil (retries.foldl (retry reason) stats) =
            resolveProfileUnusableUntil stats := by
  intro cleaned uncleaned
  have hclean : (clearExpiredCooldowns store t₁).stats profileId =
      clearExpiredStats t₁ (store.stats profileId) := stats_clearExpired store t₁ profileId
  have hcounters := counters_clear (store.stats profileId) cfg hle
  have hopen : cleaned.openWindows t₂ = uncleaned.openWindows t₂ := by
    apply compute_openWindows
    · rw [hclean]
      exact openWindows_clear (store.stats profileId) hle
    · rw [hclean]
      exact hcounters
  obtain ⟨herrors, hfailures⟩ := @compute_counts t₂ reason cfg modelId (store.stats profileId)
  obtain ⟨herrors', hfailures'⟩ :=
    @compute_counts t₂ reason cfg modelId ((clearExpiredCooldowns store t₁).stats profileId)
  rw [hclean, hcounters] at herrors' hfailures'
  obtain ⟨until_, hlt, hown⟩ := @ownWindow_compute t₂ reason cfg modelId (store.stats profileId)
  refine ⟨⟨hopen, ?_, ?_, ?_⟩, ⟨until_, hlt, hown⟩,
    fun stats until_ hopen retries hretries => retries_kept retries hopen hretries⟩
  · symm
    apply unusable_eq (fun other hother => (mem_windows_of_open hopen hother).symm)
    by_cases hnow : t₂ < 0
    · exact Or.inl hnow
    · exact Or.inr ⟨until_, mem_windows_of_own hown ((not_lt.mp hnow).trans_lt hlt), hlt⟩
  · show (computeNextProfileUsageStats ((clearExpiredCooldowns store t₁).stats profileId) t₂ reason cfg
      modelId).errorCount = _
    rw [hclean, herrors']
    exact herrors.symm
  · show (computeNextProfileUsageStats ((clearExpiredCooldowns store t₁).stats profileId) t₂ reason cfg
      modelId).failureCounts = _
    rw [hclean, hfailures']
    exact hfailures.symm

section Samples

def cooledStore : AuthProfileStore :=
  { profiles := .empty
    usageStats := Map.empty.set (js "work")
      { cooldownUntil := some 1000
        cooldownReason := some .timeout
        disabledUntil := some 90000
        disabledReason := some .billing
        errorCount := 2
        failureCounts := fun _ => 1
        lastFailureAt := some 500 } }

def hourlyCooldowns : ResolvedAuthCooldownConfig :=
  { billingBackoffMs := 3600000
    billingMaxMs := 3600000
    authPermanentBackoffMs := 3600000
    authPermanentMaxMs := 3600000
    failureWindowMs := 3600000 }

theorem failure_ignores_housekeeping_cooled :
    let cleaned := computeNextProfileUsageStats
      ((clearExpiredCooldowns cooledStore 2000).stats (js "work")) 3000 .billing hourlyCooldowns none
    let uncleaned :=
      computeNextProfileUsageStats (cooledStore.stats (js "work")) 3000 .billing hourlyCooldowns none
    (cleaned.openWindows 3000 = uncleaned.openWindows 3000 ∧
      resolveProfileUnusableUntil cleaned = resolveProfileUnusableUntil uncleaned ∧
      cleaned.errorCount = uncleaned.errorCount ∧ cleaned.failureCounts = uncleaned.failureCounts) ∧
    (∃ until_, 3000 < until_ ∧ ownWindow uncleaned .billing = some until_) ∧
    ∀ stats until_, ownWindow stats .billing = some until_ →
      ∀ retries : List Retry, (∀ op ∈ retries, op.now < until_) →
        ownWindow (retries.foldl (retry .billing) stats) .billing = some until_ ∧
          resolveProfileUnusableUntil (retries.foldl (retry .billing) stats) =
            resolveProfileUnusableUntil stats :=
  failure_ignores_housekeeping cooledStore (js "work") (by decide +kernel) .billing hourlyCooldowns none

theorem passed_window_stays :
    (computeNextProfileUsageStats ((clearExpiredCooldowns cooledStore 2000).stats (js "work")) 3000
        .billing hourlyCooldowns none).cooldownUntil = none ∧
      (computeNextProfileUsageStats (cooledStore.stats (js "work")) 3000 .billing hourlyCooldowns
        none).cooldownUntil = some 1000 := by
  constructor
  · decide +kernel
  · decide +kernel

end Samples

end GreenchClaw.AuthProfiles
