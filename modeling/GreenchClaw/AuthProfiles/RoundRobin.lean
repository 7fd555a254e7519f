import GreenchClaw.AuthProfiles.FairOrder

/-!
# Round robin

Runs in which the first profile of each order is used and stamped with a later time: profiles of one type
that are available take turns.
-/

namespace GreenchClaw.AuthProfiles.Order

open GreenchClaw.Js Transition

/-! ## Runs -/

structure QuietUpdate where
  updater : ProfileUsageStats → ProfileUsageStats
  quiet : ∀ stats, (updater stats).lastUsed = stats.lastUsed

/-- A failure keeps the time of the last use. -/
def QuietUpdate.failure (now : ℚ) (reason : AuthProfileFailureReason) (cfg : ResolvedAuthCooldownConfig)
    (modelId : Option JsString) : QuietUpdate where
  updater stats := computeNextProfileUsageStats stats now reason cfg modelId
  quiet stats := by
    rw [computeNextProfileUsageStats]
    simp only
    split <;> rfl

inductive RotationStep where
  /-- The order is asked for at `now`; its first profile is used and stamped. -/
  | use (now stamp : ℚ)
  | update (profileId : JsString) (change : QuietUpdate)

structure Use where
  profileId : JsString
  stamp : ℚ
  now : ℚ
  order : List JsString
  store : OrderStore

structure Rotation where
  store : OrderStore
  uses : List Use := []

def OrderStore.stats (store : OrderStore) (profileId : JsString) : ProfileUsageStats :=
  (store.usageStats.get profileId).getD {}

def OrderStore.update (store : OrderStore) (profileId : JsString)
    (updater : ProfileUsageStats → ProfileUsageStats) : OrderStore :=
  { store with usageStats := store.usageStats.set profileId (updater (store.stats profileId)) }

section Runs

variable [UnicodeCase] (aliases : ProviderAuthAliases) (cfg : AuthConfig) (provider : JsString)

def rotate (rotation : Rotation) : RotationStep → Option Rotation
  | .use now stamp =>
      let (order, store) := resolveAuthProfileOrder aliases cfg rotation.store provider none now
      match order with
      | [] => some { rotation with store }
      | profileId :: _ =>
          some
            { store := store.update profileId fun stats => resetSuccessfulUsageStats stats stamp
              uses := rotation.uses ++ [{ profileId, stamp, now, order, store := rotation.store }] }
  | .update profileId change =>
      some { rotation with store := rotation.store.update profileId change.updater }

def laterStamp (rotation : Rotation) : RotationStep → Bool
  | .use _ stamp =>
      0 < stamp && rotation.store.usageStats.entries.all fun entry => entry.2.lastUsed.getD 0 < stamp
  | .update _ _ => true

end Runs

/-! ## Stamps -/

section Stamps

variable {store : OrderStore} {profileId other : JsString}

theorem lastUsed_eq (store : OrderStore) (profileId : JsString) :
    lastUsed store profileId = (store.stats profileId).lastUsed.getD 0 := by
  rw [lastUsed, OrderStore.stats]
  cases store.usageStats.get profileId with
  | none => rfl
  | some stats => rfl

theorem stats_updateOrder (store : OrderStore) (profileId other : JsString)
    (updater : ProfileUsageStats → ProfileUsageStats) :
    (store.update profileId updater).stats other =
      if profileId = other then updater (store.stats other) else store.stats other := by
  rw [OrderStore.stats, OrderStore.update, Map.get_set]
  by_cases hsame : profileId = other
  · rw [if_pos hsame, if_pos hsame, hsame]
    rfl
  · rw [if_neg hsame, if_neg hsame]
    rfl

theorem lastUsed_quiet (change : QuietUpdate) :
    lastUsed (store.update profileId change.updater) other = lastUsed store other := by
  rw [lastUsed_eq, lastUsed_eq, stats_updateOrder]
  split
  · rw [change.quiet]
  · rfl

theorem lastUsed_stamp (stamp : ℚ) :
    lastUsed (store.update profileId fun stats => resetSuccessfulUsageStats stats stamp) other =
      if profileId = other then stamp else lastUsed store other := by
  rw [lastUsed_eq, lastUsed_eq, stats_updateOrder]
  split
  · rfl
  · rfl

theorem lastUsed_lt {rotation : Rotation} {now stamp : ℚ}
    (h : laterStamp rotation (.use now stamp) = true) (profileId : JsString) :
    lastUsed rotation.store profileId < stamp := by
  rw [laterStamp, Bool.and_eq_true, List.all_eq_true] at h
  rw [lastUsed_eq, OrderStore.stats]
  cases hstats : rotation.store.usageStats.get profileId with
  | none => exact of_decide_eq_true h.1
  | some stats =>
      have hmem := Record.mem_of_get hstats
      have hless := h.2 _ hmem
      rw [decide_eq_true_eq] at hless
      exact hless

end Stamps

/-! ## Turns -/

section Turns

variable [UnicodeCase] {aliases : ProviderAuthAliases} {cfg : AuthConfig} {provider : JsString}

def Use.couldUse (use : Use) (profileId : JsString) : Prop :=
  profileId ∈ use.order ∧ inCooldown use.store use.now profileId = false ∧
    typeScore use.store profileId = typeScore use.store use.profileId

def TakeTurns (uses : List Use) : Prop :=
  ∀ before first between second after, uses = before ++ first :: between ++ second :: after →
    first.profileId = second.profileId →
      ∀ profileId, second.couldUse profileId → profileId ≠ second.profileId →
        profileId ∈ between.map (·.profileId)

/-- What holds in every state of a run: stamps are not older than the uses, and profiles that were not
used since an earlier one have older stamps. -/
structure Rotating (initial : OrderStore) (rotation : Rotation) : Prop where
  profiles : rotation.store.profiles = initial.profiles
  order : rotation.store.order = initial.order
  used : ∀ before use after, rotation.uses = before ++ use :: after →
    use.stamp ≤ lastUsed rotation.store use.profileId
  older : ∀ before use after, rotation.uses = before ++ use :: after →
    ∀ profileId, profileId ∉ (use :: after).map (·.profileId) →
      lastUsed rotation.store profileId < use.stamp
  turns : TakeTurns rotation.uses

theorem explicitOrder_congr {first second : OrderStore} (hprofiles : first.profiles = second.profiles)
    (horder : first.order = second.order) :
    explicitOrder aliases cfg first provider = explicitOrder aliases cfg second provider := by
  cases first
  cases second
  simp only at hprofiles horder
  rw [hprofiles, horder]
  rfl

theorem first_oldest {store : OrderStore} {now : ℚ} {profileId other : JsString} {rest : List JsString}
    (hexplicit : explicitOrder aliases cfg store provider = none)
    (horder : (resolveAuthProfileOrder aliases cfg store provider none now).1 = profileId :: rest)
    (hmem : other ∈ profileId :: rest) (havailable : inCooldown store now other = false)
    (htype : typeScore store other = typeScore store profileId) :
    lastUsed store profileId ≤ lastUsed store other := by
  obtain ⟨source, -, hfair⟩ := order_is_fair aliases cfg store provider none now
  obtain ⟨available, cooling, hparts, -, hcooling, -, hlisted⟩ := hfair.others
  rw [horder, List.filter_eq_self.mpr (by simp)] at hparts
  rw [AvailableInOrder, hexplicit] at hlisted
  have hother : other ∈ available := by
    rw [hparts, List.mem_append] at hmem
    rcases hmem with h | h
    · exact h
    · rw [hcooling other h] at havailable
      exact absurd havailable (by simp)
  cases available with
  | nil => exact absurd hother List.not_mem_nil
  | cons first available =>
      have hfirst : profileId = first := (List.cons.inj hparts).1
      rw [← hfirst] at hother hlisted
      rcases List.mem_cons.mp hother with heq | hlater
      · rw [heq]
      · rcases (List.pairwise_cons.mp hlisted).1 other hlater with hlt | ⟨-, hle⟩
        · omega
        · exact hle

variable {initial : OrderStore} {rotation next : Rotation} {action : RotationStep}

theorem turns_use {store : OrderStore} {uses : List Use} {now stamp : ℚ} {profileId : JsString}
    {rest : List JsString} (h : Rotating initial { store, uses })
    (hexplicit : explicitOrder aliases cfg initial provider = none)
    (horder : (resolveAuthProfileOrder aliases cfg store provider none now).1 = profileId :: rest) :
    TakeTurns (uses ++ [⟨profileId, stamp, now, profileId :: rest, store⟩]) := by
  intro before first between second after hsplit hsame other hcould hne
  rcases Logs.split_snoc hsplit with ⟨huses, hsecond, -⟩ | ⟨later, -, huses⟩
  · -- the second use is the new one
    subst hsecond
    have hexplicit' : explicitOrder aliases cfg store provider = none :=
      (explicitOrder_congr h.profiles h.order).trans hexplicit
    have hle := first_oldest hexplicit' horder hcould.1 hcould.2.1 hcould.2.2
    have hused := h.used before first between huses.symm
    by_contra hnot
    have hnotIn : other ∉ (first :: between).map (·.profileId) := by
      rw [List.map_cons, List.mem_cons, not_or]
      exact ⟨fun heq => hne (heq.trans hsame), hnot⟩
    have holder := h.older before first between huses.symm other hnotIn
    have hstamp : first.stamp ≤ lastUsed store profileId := by
      rw [hsame] at hused
      exact hused
    exact absurd (hstamp.trans hle) (not_le.mpr holder)
  · exact h.turns before first between second later huses hsame other hcould hne

theorem rotating_step (hexplicit : explicitOrder aliases cfg initial provider = none)
    (h : Rotating initial rotation) (hlater : laterStamp rotation action = true)
    (hstep : rotate aliases cfg provider rotation action = some next) : Rotating initial next := by
  obtain ⟨store, uses⟩ := rotation
  cases action with
  | update profileId change =>
      have hnext : next = { store := store.update profileId change.updater, uses } :=
        (Option.some.inj hstep).symm
      subst hnext
      refine ⟨h.profiles, h.order, ?_, ?_, h.turns⟩
      · intro before use after hsplit
        rw [lastUsed_quiet]
        exact h.used before use after hsplit
      · intro before use after hsplit other hnot
        rw [lastUsed_quiet]
        exact h.older before use after hsplit other hnot
  | use now stamp =>
      have hcleared : (resolveAuthProfileOrder aliases cfg store provider none now).2 = store.clear now := by
        rw [resolveAuthProfileOrder]
        split
        · rfl
        · rfl
      rw [rotate] at hstep
      cases horder : (resolveAuthProfileOrder aliases cfg store provider none now).1 with
      | nil =>
          simp only [horder, hcleared, Option.some.injEq] at hstep
          subst hstep
          refine ⟨h.profiles, h.order, ?_, ?_, h.turns⟩
          · intro before use after hsplit
            rw [lastUsed_clear]
            exact h.used before use after hsplit
          · intro before use after hsplit other hnot
            rw [lastUsed_clear]
            exact h.older before use after hsplit other hnot
      | cons profileId rest =>
          simp only [horder, hcleared, Option.some.injEq] at hstep
          subst hstep
          have hstamped : ∀ other, lastUsed ((store.clear now).update profileId fun stats =>
              resetSuccessfulUsageStats stats stamp) other =
                if profileId = other then stamp else lastUsed store other := by
            intro other
            rw [lastUsed_stamp, lastUsed_clear]
          refine ⟨h.profiles, h.order, ?_, ?_, turns_use h hexplicit horder⟩
          · intro before use after hsplit
            rw [hstamped]
            rcases Logs.split_snoc hsplit with ⟨-, huse, -⟩ | ⟨later, -, huses⟩
            · rw [huse, if_pos rfl]
            · have hused := h.used before use later huses
              split
              · exact hused.trans (lastUsed_lt hlater use.profileId).le
              · exact hused
          · intro before use after hsplit other hnot
            rw [hstamped]
            rcases Logs.split_snoc hsplit with ⟨-, huse, hafter⟩ | ⟨later, hafter, huses⟩
            · have hne : profileId ≠ other := by
                intro heq
                apply hnot
                rw [huse, heq]
                exact List.mem_cons_self
              rw [if_neg hne, huse]
              exact lastUsed_lt hlater other
            · rw [hafter, ← List.cons_append, List.map_append, List.mem_append, not_or] at hnot
              have hne : profileId ≠ other := fun heq => hnot.2 (List.mem_singleton.mpr heq.symm)
              rw [if_neg hne]
              exact h.older before use later huses other hnot.1

theorem rotating_run {actions : List RotationStep} {last : Rotation}
    (hexplicit : explicitOrder aliases cfg initial provider = none)
    (hlater : StepsMeet (rotate aliases cfg provider)
      (fun rotation action => laterStamp rotation action = true) { store := initial } actions)
    (hexec : exec (rotate aliases cfg provider) { store := initial } actions = some last) :
    Rotating initial last := by
  apply invariant_exec (Rotating initial) _ _ hlater hexec
  · exact fun rotation action next h hok hstep => rotating_step hexplicit h hok hstep
  · have hnone : ∀ (before : List Use) use after, ([] : List Use) ≠ before ++ use :: after := by
      intro before use after hsplit
      exact absurd hsplit.symm (by simp)
    refine ⟨rfl, rfl, ?_, ?_, ?_⟩
    · exact fun before use after hsplit => absurd hsplit (hnone before use after)
    · exact fun before use after hsplit => absurd hsplit (hnone before use after)
    · intro before first between second after hsplit
      have hsplit' : ([] : List Use) = before ++ first :: (between ++ second :: after) := by
        rw [← List.cons_append, ← List.append_assoc]
        exact hsplit
      exact absurd hsplit' (hnone before first _)

end Turns

/-- The order of the profiles of a provider is fair: it lists each eligible profile of the base order once
(of the store, when the profiles named for the provider are gone), the preferred one first, then those that
are not in cooldown in the explicit order or else by type and last use, then those in cooldown by the end
of it.  Without an explicit order, profiles of one type that are available take turns. -/
theorem profiles_take_turns [UnicodeCase] (aliases : ProviderAuthAliases) (cfg : AuthConfig)
    (provider : JsString) :
    (∀ store preferredProfile now, ∃ source, Source aliases cfg store provider now source ∧
      FairlyOrdered aliases cfg store provider now preferredProfile source
        (resolveAuthProfileOrder aliases cfg store provider preferredProfile now).1) ∧
    ∀ initial actions last, explicitOrder aliases cfg initial provider = none →
      StepsMeet (rotate aliases cfg provider)
        (fun rotation action => laterStamp rotation action = true) { store := initial } actions →
      exec (rotate aliases cfg provider) { store := initial } actions = some last →
        TakeTurns last.uses := by
  constructor
  · intro store preferredProfile now
    exact order_is_fair aliases cfg store provider preferredProfile now
  · intro initial actions last hexplicit hlater hexec
    exact (rotating_run hexplicit hlater hexec).turns

section Samples

attribute [local instance] asciiCase

def noAliases : ProviderAuthAliases := ⟨fun _ => none, fun _ => none⟩

def apiKeyOf (key : JsString) : StoredCredential :=
  { provider := js "anthropic", credential := .apiKey (some key) none }

def twoKeys : OrderStore :=
  { profiles := (Map.empty.set (js "first") (apiKeyOf (js "k1"))).set (js "second") (apiKeyOf (js "k2")) }

/-- The keys take turns until the second one fails; then the first is used again. -/
def turnsWithFailure : List RotationStep :=
  [.use 1000 1001, .use 2000 2001, .use 3000 3001,
    .update (js "second") (.failure 3500 .auth (resolveAuthCooldownConfig {} (js "anthropic")) none),
    .use 4000 4001]

theorem profiles_take_turns_two : ∃ last,
    exec (rotate noAliases {} (js "anthropic")) { store := twoKeys } turnsWithFailure = some last ∧
      (last.uses.map (·.profileId)) = [js "first", js "second", js "first", js "first"] ∧
      TakeTurns last.uses := by
  have hrun : (exec (rotate noAliases {} (js "anthropic")) { store := twoKeys }
      turnsWithFailure).any (fun last => last.uses.map (·.profileId) =
        [js "first", js "second", js "first", js "first"]) = true := by
    decide +kernel
  obtain ⟨last, hexec, huses⟩ := (Option.any_eq_true _ _).mp hrun
  have hlater : StepsMeet (rotate noAliases {} (js "anthropic"))
      (fun rotation action => laterStamp rotation action = true) { store := twoKeys } turnsWithFailure := by
    decide +kernel
  exact ⟨last, hexec, of_decide_eq_true huses,
    (profiles_take_turns noAliases {} (js "anthropic")).2 twoKeys turnsWithFailure last (by decide +kernel)
      hlater hexec⟩

def namedGone : AuthConfig :=
  { profiles := Map.empty.set (js "gone") { provider := js "anthropic", mode := .apiKey } }

def pinnedKeys : OrderStore :=
  { twoKeys with order := Map.empty.set (js "anthropic") [js "first", js "second"] }

/-- The order lists profiles that the base order does not name, and with an explicit order one profile is
used twice while the other, of the same type, is available. -/
theorem repaired_and_pinned :
    ((resolveAuthProfileOrder noAliases namedGone twoKeys (js "anthropic") none 1000).1 =
        [js "first", js "second"] ∧
      (baseOrder noAliases namedGone twoKeys (js "anthropic")).filter (fun profileId =>
        isEligible noAliases namedGone twoKeys (js "anthropic") 1000 profileId) = []) ∧
    ∃ last, exec (rotate noAliases {} (js "anthropic")) { store := pinnedKeys }
        [.use 1000 1001, .use 2000 2001] = some last ∧ ¬TakeTurns last.uses := by
  refine ⟨⟨by decide +kernel, by decide +kernel⟩, ?_⟩
  have hrun : (exec (rotate noAliases {} (js "anthropic")) { store := pinnedKeys }
      [.use 1000 1001, .use 2000 2001]).any (fun last => last.uses.length = 2 ∧
        last.uses.all fun use => use.profileId = js "first" ∧ use.order.contains (js "second") ∧
          inCooldown use.store use.now (js "second") = false ∧
            typeScore use.store (js "second") = typeScore use.store use.profileId) = true := by
    decide +kernel
  obtain ⟨last, hexec, huses⟩ := (Option.any_eq_true _ _).mp hrun
  refine ⟨last, hexec, ?_⟩
  intro hturns
  obtain ⟨hlength, hall⟩ := of_decide_eq_true huses
  rw [List.all_eq_true] at hall
  obtain ⟨first, second, hpair⟩ := List.length_eq_two.mp hlength
  have hfirst := of_decide_eq_true (hall first (by rw [hpair]; simp))
  have hsecond := of_decide_eq_true (hall second (by rw [hpair]; simp))
  have hused := hturns [] first [] second [] (by rw [hpair]; rfl) (hfirst.1.trans hsecond.1.symm)
    (js "second") ⟨List.contains_iff_mem.mp hsecond.2.1, hsecond.2.2⟩ (by rw [hsecond.1]; decide)
  exact absurd hused List.not_mem_nil

end Samples

end GreenchClaw.AuthProfiles.Order
