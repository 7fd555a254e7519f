import GreenchClaw.AuthProfiles.Housekeeping
import GreenchClaw.AuthProfiles.Order

/-!
# A fair order

The order of the profiles of a provider lists each eligible profile once, those in cooldown last, and
profiles of one type take turns.
-/

namespace GreenchClaw.AuthProfiles.Order

open GreenchClaw.Js

/-! ## Lists without repetition -/

section Dedupe

variable {profileIds : List JsString}

theorem nodup_dedupe (profileIds : List JsString) : (dedupeProfileIds profileIds).Nodup := by
  rw [dedupeProfileIds]
  induction hlength : profileIds.length using Nat.strongRecOn generalizing profileIds with
  | ind length ih =>
      cases profileIds with
      | nil => exact List.nodup_nil
      | cons first rest =>
          rw [List.eraseDups_cons, List.nodup_cons, List.mem_eraseDups]
          have hshorter : (rest.filter fun other => !other == first).length < length := by
            have hle := List.length_filter_le (fun other => !other == first) rest
            rw [List.length_cons] at hlength
            omega
          constructor
          · intro hmem
            have hne := (List.mem_filter.mp hmem).2
            exact absurd hne (by simp)
          · exact ih _ hshorter _ rfl

theorem dedupe_filter (p : JsString → Bool) (profileIds : List JsString) :
    dedupeProfileIds (profileIds.filter p) = (dedupeProfileIds profileIds).filter p := by
  rw [dedupeProfileIds, dedupeProfileIds]
  induction hlength : profileIds.length using Nat.strongRecOn generalizing profileIds with
  | ind length ih =>
      cases profileIds with
      | nil => rfl
      | cons first rest =>
          have hshorter : (rest.filter fun other => !other == first).length < length := by
            have hle := List.length_filter_le (fun other => !other == first) rest
            rw [List.length_cons] at hlength
            omega
          have hrest := ih _ hshorter (rest.filter fun other => !other == first) rfl
          rw [List.filter_filter] at hrest
          rw [List.eraseDups_cons, List.filter_cons, List.filter_cons]
          by_cases hfirst : p first = true
          · rw [if_pos hfirst, if_pos hfirst, List.eraseDups_cons, List.filter_filter, ← hrest]
            simp only [Bool.and_comm]
          · rw [if_neg hfirst, if_neg hfirst, ← hrest]
            congr 1
            apply List.filter_congr
            intro other _
            by_cases hsame : other = first
            · rw [hsame]
              simpa using hfirst
            · simp [hsame]

end Dedupe

/-! ## What clearing changes -/

section Clear

variable {store : OrderStore} {now : ℚ} {profileId : JsString}

theorem stats_clear (store : OrderStore) (now : ℚ) (profileId : JsString) :
    (store.clear now).usage.stats profileId = clearExpiredStats now (store.usage.stats profileId) :=
  stats_clearExpired store.usage now profileId

theorem usageStats_clear (store : OrderStore) (now : ℚ) (profileId : JsString) :
    (store.clear now).usageStats.get profileId =
      (store.usageStats.get profileId).map (clearExpiredStats now) := by
  show ((clearExpiredCooldowns store.usage now).usageStats).get profileId = _
  rw [clearExpiredCooldowns, Map.get_filterMap]
  show (store.usageStats.get profileId).bind _ = _
  cases store.usageStats.get profileId with
  | none => rfl
  | some stats => rfl

theorem lastUsed_clearExpired (now : ℚ) (stats : ProfileUsageStats) :
    (clearExpiredStats now stats).lastUsed = stats.lastUsed := by
  simp only [clearExpiredStats]
  split <;> split <;> split <;> split <;> rfl

theorem lastUsed_clear (store : OrderStore) (now : ℚ) (profileId : JsString) :
    lastUsed (store.clear now) profileId = lastUsed store profileId := by
  rw [lastUsed, lastUsed, usageStats_clear]
  cases store.usageStats.get profileId with
  | none => rfl
  | some stats =>
      rw [Option.map_some, Option.bind_some, Option.bind_some, lastUsed_clearExpired]

theorem unusable_open_iff {stats : ProfileUsageStats} :
    (resolveProfileUnusableUntil stats).any (fun until_ => decide (now < until_)) = true ↔
      ∃ until_ ∈ stats.windows, now < until_ := by
  rw [Option.any_eq_true]
  constructor
  · rintro ⟨last, hlast, hlt⟩
    exact ⟨last, mem_of_unusable hlast, of_decide_eq_true hlt⟩
  · rintro ⟨until_, hmem, hlt⟩
    obtain ⟨last, hlast, hle⟩ := exists_unusable hmem
    exact ⟨last, hlast, decide_eq_true (hlt.trans_le hle)⟩

theorem inCooldown_eq (store : OrderStore) (now : ℚ) (profileId : JsString) [UnicodeCase] :
    inCooldown store now profileId =
      (!store.usage.bypassed profileId &&
        (resolveProfileUnusableUntil (store.usage.stats profileId)).any fun until_ => decide (now < until_)) := by
  rw [inCooldown, isProfileInCooldown, AuthProfileStore.stats]
  by_cases hbypassed : store.usage.bypassed profileId = true
  · rw [if_pos hbypassed, hbypassed]
    rfl
  · rw [if_neg hbypassed, Bool.eq_false_iff.mpr hbypassed]
    cases store.usage.usageStats.get profileId with
    | none => rfl
    | some stats =>
        have hbypass : shouldBypassModelScopedCooldown stats now none = false := by
          rw [shouldBypassModelScopedCooldown]
          rfl
        simp only [hbypass, Option.getD_some, Bool.not_false, Bool.true_and]
        rfl

theorem inCooldown_clear [UnicodeCase] (store : OrderStore) (now : ℚ) (profileId : JsString) :
    inCooldown (store.clear now) now profileId = inCooldown store now profileId := by
  have hopen : (resolveProfileUnusableUntil (clearExpiredStats now (store.usage.stats profileId))).any
      (fun until_ => decide (now < until_)) =
        (resolveProfileUnusableUntil (store.usage.stats profileId)).any
          fun until_ => decide (now < until_) := by
    rw [Bool.eq_iff_iff, unusable_open_iff, unusable_open_iff]
    simp only [mem_windows_clear, and_assoc, and_self]
  rw [inCooldown_eq, inCooldown_eq, stats_clear, hopen]
  rfl

theorem cooldownUntil_clear [UnicodeCase] (h : inCooldown store now profileId = true) :
    cooldownUntil (store.clear now) now profileId = cooldownUntil store now profileId := by
  rw [inCooldown_eq, Bool.and_eq_true, unusable_open_iff] at h
  obtain ⟨until_, hmem, hlt⟩ := h.2
  rw [cooldownUntil, cooldownUntil, stats_clear]
  congr 1
  apply @unusable_eq now
  · intro other hother
    rw [mem_windows_clear]
    exact and_iff_left hother
  · exact Or.inr ⟨until_, mem_windows_clear.mpr ⟨hmem, hlt⟩, hlt⟩

end Clear

/-! ## Sorting -/

section Sorting

theorem sortByCooldown_perm (store : OrderStore) (now : ℚ) (profileIds : List JsString) :
    (sortByCooldown store now profileIds).Perm profileIds := List.perm_insertionSort _ _

theorem pairwise_sortByCooldown (store : OrderStore) (now : ℚ) (profileIds : List JsString) :
    (sortByCooldown store now profileIds).Pairwise fun a b =>
      cooldownUntil store now a ≤ cooldownUntil store now b := by
  have htotal : Std.Total fun a b => cooldownUntil store now a ≤ cooldownUntil store now b :=
    ⟨fun a b => le_total _ _⟩
  have htrans : IsTrans JsString fun a b => cooldownUntil store now a ≤ cooldownUntil store now b :=
    ⟨fun a b c => le_trans⟩
  exact List.pairwise_insertionSort _ profileIds

def UsedBefore (store : OrderStore) (a b : JsString) : Prop :=
  typeScore store a < typeScore store b ∨
    (typeScore store a = typeScore store b ∧ lastUsed store a ≤ lastUsed store b)

instance (store : OrderStore) : DecidableRel (UsedBefore store) := fun a b =>
  inferInstanceAs (Decidable (typeScore store a < typeScore store b ∨
    (typeScore store a = typeScore store b ∧ lastUsed store a ≤ lastUsed store b)))

instance (store : OrderStore) : Std.Total (UsedBefore store) := by
  constructor
  intro a b
  rcases Nat.lt_trichotomy (typeScore store a) (typeScore store b) with hlt | heq | hgt
  · exact Or.inl (Or.inl hlt)
  · rcases le_total (lastUsed store a) (lastUsed store b) with hle | hle
    · exact Or.inl (Or.inr ⟨heq, hle⟩)
    · exact Or.inr (Or.inr ⟨heq.symm, hle⟩)
  · exact Or.inr (Or.inl hgt)

instance (store : OrderStore) : IsTrans JsString (UsedBefore store) := by
  constructor
  rintro a b c (hab | ⟨hab, hle⟩) (hbc | ⟨hbc, hle'⟩)
  · exact Or.inl (hab.trans hbc)
  · exact Or.inl (hbc ▸ hab)
  · exact Or.inl (hab ▸ hbc)
  · exact Or.inr ⟨hab.trans hbc, hle.trans hle'⟩

theorem preferredFirst_perm {preferredProfile : Option JsString} {ordered : List JsString}
    (hnodup : ordered.Nodup) : (preferredFirst preferredProfile ordered).Perm ordered := by
  rw [preferredFirst]
  cases hpreferred : preferredProfile.filter fun profileId => profileId ≠ [] ∧ profileId ∈ ordered with
  | none => exact List.Perm.refl ordered
  | some profileId =>
      have hmem := (of_decide_eq_true (Option.filter_eq_some_iff.mp hpreferred).2).2
      have herase : (ordered.filter fun other => decide (other ≠ profileId)) = ordered.erase profileId := by
        rw [hnodup.erase_eq_filter]
        apply List.filter_congr
        intro other _
        by_cases hsame : other = profileId
        · simp [hsame]
        · simp [hsame]
      simp only [herase]
      exact (List.perm_cons_erase hmem).symm

theorem preferredFirst_others (preferredProfile : Option JsString) (ordered : List JsString) :
    ((preferredFirst preferredProfile ordered).filter fun profileId => some profileId ≠ preferredProfile) =
      ordered.filter fun profileId => some profileId ≠ preferredProfile := by
  rw [preferredFirst]
  cases hpreferred : preferredProfile.filter fun profileId => profileId ≠ [] ∧ profileId ∈ ordered with
  | none => rfl
  | some profileId =>
      have hsome := (Option.filter_eq_some_iff.mp hpreferred).1
      have hself : ¬some profileId ≠ preferredProfile := fun hne => hne hsome.symm
      simp only
      rw [List.filter_cons, if_neg (by simpa using hself), List.filter_filter]
      apply List.filter_congr
      intro other _
      rw [hsome]
      by_cases hsame : other = profileId
      · simp [hsame]
      · simp [hsame]

theorem preferredFirst_head {preferredProfile : Option JsString} {ordered : List JsString}
    {profileId : JsString} (hpreferred : preferredProfile = some profileId) (hne : profileId ≠ [])
    (hmem : profileId ∈ ordered) : (preferredFirst preferredProfile ordered).head? = some profileId := by
  have hfilter : (preferredProfile.filter fun profileId => profileId ≠ [] ∧ profileId ∈ ordered) =
      some profileId := Option.filter_eq_some_iff.mpr ⟨hpreferred, decide_eq_true ⟨hne, hmem⟩⟩
  rw [preferredFirst, hfilter]
  rfl

end Sorting

/-! ## The order -/

section Order

variable [UnicodeCase] (aliases : ProviderAuthAliases) (cfg : AuthConfig) (store : OrderStore)
  (provider : JsString) (now : ℚ)

def isEligible (profileId : JsString) : Bool :=
  (resolveAuthProfileEligibility aliases cfg store provider profileId now).eligible

def Repaired : Prop :=
  (∀ profileId ∈ baseOrder aliases cfg store provider,
      store.profiles.get profileId = none ∧ isEligible aliases cfg store provider now profileId = false) ∧
    baseOrder aliases cfg store provider ≠ [] ∧ explicitProfiles aliases cfg store provider ≠ []

inductive Source : List JsString → Prop where
  | base (h : ¬Repaired aliases cfg store provider now) : Source (baseOrder aliases cfg store provider)
  | repaired (h : Repaired aliases cfg store provider now) : Source (storeProfiles aliases store provider)

def AvailableInOrder (source available : List JsString) : Prop :=
  match explicitOrder aliases cfg store provider with
  | some _ => available.Sublist (dedupeProfileIds source)
  | none => available.Pairwise fun a b => typeScore store a < typeScore store b ∨
      (typeScore store a = typeScore store b ∧ lastUsed store a ≤ lastUsed store b)

structure FairlyOrdered (preferredProfile : Option JsString) (source order : List JsString) : Prop where
  nodup : order.Nodup
  perm : order.Perm
    (dedupeProfileIds (source.filter fun profileId => isEligible aliases cfg store provider now profileId))
  preferred : ∀ profileId ∈ preferredProfile, profileId ≠ [] → profileId ∈ order →
    order.head? = some profileId
  others : ∃ available cooling,
    (order.filter fun profileId => some profileId ≠ preferredProfile) = available ++ cooling ∧
      (∀ profileId ∈ available, inCooldown store now profileId = false) ∧
      (∀ profileId ∈ cooling, inCooldown store now profileId = true) ∧
      (cooling.Pairwise fun a b => cooldownUntil store now a ≤ cooldownUntil store now b) ∧
      AvailableInOrder aliases cfg store provider source available

variable {aliases cfg store provider now}

theorem eligibleProfiles_source (hbase : baseOrder aliases cfg store provider ≠ []) : ∃ source, Source aliases cfg store provider now source ∧
    eligibleProfiles aliases cfg store provider now =
      source.filter fun profileId => isEligible aliases cfg store provider now profileId := by
  rw [eligibleProfiles]
  by_cases hrepaired : Repaired aliases cfg store provider now
  · refine ⟨_, .repaired hrepaired, ?_⟩
    obtain ⟨hgone, -, hexplicit⟩ := hrepaired
    apply if_pos
    refine ⟨?_, List.length_pos_iff.mpr hexplicit, ?_⟩
    · rw [List.length_eq_zero_iff, List.filter_eq_nil_iff]
      intro profileId hmem heligible
      have hnot := (hgone profileId hmem).2
      rw [isEligible, heligible] at hnot
      exact absurd hnot (by simp)
    · rw [List.all_eq_true]
      intro profileId hmem
      rw [(hgone profileId hmem).1]
      rfl
  · refine ⟨_, .base hrepaired, ?_⟩
    apply if_neg
    rintro ⟨hfiltered, hexplicit, hmissing⟩
    apply hrepaired
    refine ⟨?_, hbase, List.length_pos_iff.mp hexplicit⟩
    intro profileId hmem
    rw [List.length_eq_zero_iff, List.filter_eq_nil_iff] at hfiltered
    have hgone := List.all_eq_true.mp hmissing profileId hmem
    exact ⟨Option.isNone_iff_eq_none.mp hgone, Bool.eq_false_iff.mpr (hfiltered profileId hmem)⟩

theorem ordered_parts {deduped : List JsString} :
    ∃ available cooling,
      (if (explicitOrder aliases cfg store provider).any fun order => decide (0 < order.length) then
          orderExplicitly deduped (store.clear now) now
        else orderProfilesByMode deduped (store.clear now) now) = available ++ cooling ∧
      (available ++ cooling).Perm deduped ∧
      (∀ profileId ∈ available, inCooldown store now profileId = false) ∧
      (∀ profileId ∈ cooling, inCooldown store now profileId = true) ∧
      (cooling.Pairwise fun a b => cooldownUntil store now a ≤ cooldownUntil store now b) ∧
      if (explicitOrder aliases cfg store provider).any fun order => decide (0 < order.length) then
        available.Sublist deduped
      else available.Pairwise (UsedBefore store) := by
  have hclear : ∀ profileId, inCooldown (store.clear now) now profileId = inCooldown store now profileId :=
    inCooldown_clear store now
  have hsplit : ((deduped.filter fun profileId => !inCooldown store now profileId) ++
      deduped.filter fun profileId => inCooldown store now profileId).Perm deduped :=
    List.perm_append_comm.trans (List.filter_append_perm _ deduped)
  have havailable : ∀ profileId ∈ deduped.filter fun profileId => !inCooldown store now profileId,
      inCooldown store now profileId = false := by
    intro profileId hmem
    simpa using (List.mem_filter.mp hmem).2
  have hcoolingPerm := sortByCooldown_perm (store.clear now) now
    (deduped.filter fun profileId => inCooldown store now profileId)
  have hcooling : ∀ profileId ∈ sortByCooldown (store.clear now) now
      (deduped.filter fun profileId => inCooldown store now profileId),
        inCooldown store now profileId = true := by
    intro profileId hmem
    exact (List.mem_filter.mp (hcoolingPerm.mem_iff.mp hmem)).2
  have hexpiry : (sortByCooldown (store.clear now) now
      (deduped.filter fun profileId => inCooldown store now profileId)).Pairwise fun a b =>
        cooldownUntil store now a ≤ cooldownUntil store now b := by
    apply (pairwise_sortByCooldown _ _ _).imp_of_mem
    intro a b ha hb hle
    rw [cooldownUntil_clear (hcooling a ha), cooldownUntil_clear (hcooling b hb)] at hle
    exact hle
  by_cases hexplicit :
      ((explicitOrder aliases cfg store provider).any fun order => decide (0 < order.length)) = true
  · refine ⟨_, _, ?_, ?_, havailable, hcooling, hexpiry, ?_⟩
    · rw [if_pos hexplicit, orderExplicitly]
      simp only [hclear]
    · exact (List.Perm.append_left _ hcoolingPerm).trans hsplit
    · rw [if_pos hexplicit]
      exact List.filter_sublist
  · have hsortedPerm := List.perm_insertionSort (UsedBefore (store.clear now))
      (deduped.filter fun profileId => !inCooldown store now profileId)
    refine ⟨(deduped.filter fun profileId => !inCooldown store now profileId).insertionSort
      (UsedBefore (store.clear now)), _, ?_, ?_, ?_, hcooling, hexpiry, ?_⟩
    · rw [if_neg hexplicit, orderProfilesByMode]
      simp only [hclear]
      rfl
    · exact (hsortedPerm.append hcoolingPerm).trans hsplit
    · intro profileId hmem
      exact havailable profileId (hsortedPerm.mem_iff.mp hmem)
    · rw [if_neg hexplicit]
      apply (List.pairwise_insertionSort (UsedBefore (store.clear now)) _).imp
      intro a b hbefore
      rw [UsedBefore, lastUsed_clear, lastUsed_clear] at hbefore
      exact hbefore

theorem order_is_fair (aliases : ProviderAuthAliases) (cfg : AuthConfig) (store : OrderStore)
    (provider : JsString) (preferredProfile : Option JsString) (now : ℚ) :
    ∃ source, Source aliases cfg store provider now source ∧
      FairlyOrdered aliases cfg store provider now preferredProfile source
        (resolveAuthProfileOrder aliases cfg store provider preferredProfile now).1 := by
  by_cases hbase : baseOrder aliases cfg store provider = []
  · have hnil : (resolveAuthProfileOrder aliases cfg store provider preferredProfile now).1 = [] := by
      rw [resolveAuthProfileOrder]
      exact congrArg Prod.fst (if_pos (congrArg List.length hbase))
    have hnot : ¬Repaired aliases cfg store provider now := fun h => h.2.1 hbase
    refine ⟨_, .base hnot, ?_⟩
    rw [hnil, hbase]
    refine ⟨List.nodup_nil, List.Perm.refl _, ?_, [], [], rfl, ?_, ?_, List.Pairwise.nil, ?_⟩
    · exact fun _ _ _ h => absurd h List.not_mem_nil
    · exact fun _ h => absurd h List.not_mem_nil
    · exact fun _ h => absurd h List.not_mem_nil
    · rw [AvailableInOrder]
      split
      · exact List.nil_sublist _
      · exact List.Pairwise.nil
  · obtain ⟨source, hsource, heligible⟩ := eligibleProfiles_source hbase
    refine ⟨source, hsource, ?_⟩
    have horder : (resolveAuthProfileOrder aliases cfg store provider preferredProfile now).1 =
        preferredFirst preferredProfile
          (if (explicitOrder aliases cfg store provider).any fun order => decide (0 < order.length) then
            orderExplicitly (dedupeProfileIds (eligibleProfiles aliases cfg store provider now))
              (store.clear now) now
          else orderProfilesByMode (dedupeProfileIds (eligibleProfiles aliases cfg store provider now))
            (store.clear now) now) := by
      rw [resolveAuthProfileOrder]
      exact congrArg Prod.fst (if_neg fun h => hbase (List.length_eq_zero_iff.mp h))
    obtain ⟨available, cooling, hparts, hperm, havailable, hcooling, hexpiry, hlisted⟩ :=
      @ordered_parts _ aliases cfg store provider now
        (dedupeProfileIds (eligibleProfiles aliases cfg store provider now))
    rw [hparts] at horder
    have hnodup : (available ++ cooling).Nodup := hperm.nodup_iff.mpr (nodup_dedupe _)
    have hpermOrder := @preferredFirst_perm preferredProfile _ hnodup
    rw [horder]
    refine ⟨hpermOrder.nodup_iff.mpr hnodup, ?_, ?_, ?_⟩
    · rw [← heligible]
      exact hpermOrder.trans hperm
    · intro profileId hpreferred hne hmem
      exact preferredFirst_head hpreferred hne (hpermOrder.mem_iff.mp hmem)
    · refine ⟨available.filter fun profileId => some profileId ≠ preferredProfile,
        cooling.filter fun profileId => some profileId ≠ preferredProfile, ?_, ?_, ?_, ?_, ?_⟩
      · rw [preferredFirst_others, List.filter_append]
      · exact fun profileId h => havailable profileId (List.mem_of_mem_filter h)
      · exact fun profileId h => hcooling profileId (List.mem_of_mem_filter h)
      · exact hexpiry.sublist List.filter_sublist
      · rw [AvailableInOrder]
        cases hexplicit : explicitOrder aliases cfg store provider with
        | none =>
            rw [hexplicit] at hlisted
            have hpairwise : available.Pairwise (UsedBefore store) := hlisted
            exact hpairwise.sublist List.filter_sublist
        | some order =>
            have hlength : 0 < order.length := by
              rw [List.length_pos_iff]
              intro hnil
              rw [baseOrder, hexplicit] at hbase
              exact hbase hnil
            rw [hexplicit, Option.any_some, decide_eq_true hlength, if_pos rfl, heligible,
              dedupe_filter] at hlisted
            exact List.filter_sublist.trans (hlisted.trans List.filter_sublist)

end Order

end GreenchClaw.AuthProfiles.Order
