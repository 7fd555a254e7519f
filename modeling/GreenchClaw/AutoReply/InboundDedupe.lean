import GreenchClaw.AutoReply.Followup
import GreenchClaw.Config.JsonText
import GreenchClaw.Js.Map
import GreenchClaw.Lib.Recency
import GreenchClaw.Lib.Transition
import Mathlib.Algebra.Order.Ring.Rat
import Mathlib.Tactic.Linarith

/-!
# The dedupe cache

`createDedupeCache` of `src/infra/dedupe.ts`: the keys that were seen last, each for some time.
-/

namespace GreenchClaw.AutoReply

open GreenchClaw.Js GreenchClaw.Routing Transition

structure DedupeCacheOptions where
  ttlMs : ℚ
  maxSize : ℚ

namespace DedupeCacheOptions

variable (options : DedupeCacheOptions)

/-- How long a key stays; for ever when it is zero. -/
def ttl : ℚ := max 0 options.ttlMs

def limit : ℕ := (max 0 options.maxSize.floor).toNat

end DedupeCacheOptions

/-- When each key was seen, in the order of these times. -/
abbrev DedupeCache := Map ℚ

namespace DedupeCache

variable (options : DedupeCacheOptions) (cache : DedupeCache) (key : JsString) (now : ℚ)

def touch : DedupeCache := (cache.delete key).set key now

/-- The oldest keys go while there are more than `limit`. -/
def pruneMapToMaxSize (limit : ℕ) : DedupeCache := cache.drop (cache.entries.length - limit)

def prune : DedupeCache :=
  let kept :=
    if 0 < options.ttl then
      cache.filterMap fun seen => if seen < now - options.ttl then none else some seen
    else cache
  if options.limit ≤ 0 then Map.empty else pruneMapToMaxSize kept options.limit

/-- Whether the key was seen and is not expired, and the cache after looking. -/
def hasUnexpired (touchOnRead : Bool) : Bool × DedupeCache :=
  match cache.get key with
  | none => (false, cache)
  | some existing =>
      if 0 < options.ttl ∧ options.ttl ≤ now - existing then (false, cache.delete key)
      else (true, if touchOnRead = true then touch cache key now else cache)

def check : Bool × DedupeCache :=
  if key = [] then (false, cache)
  else
    let seen := hasUnexpired options cache key now true
    if seen.1 = true then (true, seen.2) else (false, prune options (touch seen.2 key now) now)

def peek : Bool × DedupeCache :=
  if key = [] then (false, cache) else hasUnexpired options cache key now false

/-! ## What the cache holds -/

def Fresh (clock seen : ℚ) : Prop := options.ttl = 0 ∨ clock < seen + options.ttl

/-- The cache holds the keys that were written last and are not expired, and it is not too large. -/
structure Keeps (clock : ℚ) (writes : List (JsString × ℚ)) : Prop where
  holds : Recency.Holds options.limit (Fresh options clock) writes cache.entries
  bounded : cache.entries.length ≤ options.limit

variable {options cache key now} {clock : ℚ} {writes : List (JsString × ℚ)}

theorem Fresh.earlier {later seen : ℚ} (hle : clock ≤ later) (h : Fresh options later seen) :
    Fresh options clock seen := by
  rcases h with hforever | hlater
  · exact Or.inl hforever
  · exact Or.inr (lt_of_le_of_lt hle hlater)

theorem not_expired {seen : ℚ} (h : Fresh options now seen) :
    ¬(0 < options.ttl ∧ options.ttl ≤ now - seen) := by
  rintro ⟨hpos, hexpired⟩
  rcases h with hforever | hlater
  · exact absurd hforever hpos.ne'
  · linarith

theorem touch_entries (cache : DedupeCache) (key : JsString) (now : ℚ) :
    (touch cache key now).entries = Recency.write cache.entries key now := by
  show Record.set (Record.delete cache.entries key) key now = _
  rw [Record.set, if_neg]
  · rfl
  · intro hany
    obtain ⟨entry, hentry, hkey⟩ := List.any_eq_true.mp hany
    have hne := (List.mem_filter.mp hentry).2
    rw [decide_eq_true_eq] at hkey hne
    exact hne hkey

theorem delete_entries (cache : DedupeCache) (key : JsString) :
    (cache.delete key).entries = cache.entries.filter fun entry => entry.1 ≠ key := rfl

theorem Keeps.empty (clock : ℚ) : Keeps options Map.empty clock [] :=
  ⟨Recency.holds_nil, Nat.zero_le _⟩

theorem Keeps.later {later : ℚ} (h : Keeps options cache clock writes) (hle : clock ≤ later) :
    Keeps options cache later writes :=
  ⟨h.holds.mono fun _ => Fresh.earlier hle, h.bounded⟩

theorem Keeps.delete {seen : ℚ} (h : Keeps options cache now writes) (hget : cache.get key = some seen)
    (hexpired : 0 < options.ttl ∧ options.ttl ≤ now - seen) : Keeps options (cache.delete key) now writes := by
  constructor
  · rw [delete_entries]
    apply h.holds.filter
    intro entry hentry hfresh
    rw [decide_eq_true_eq]
    intro hkey
    have hsame : cache.get entry.1 = some entry.2 := Record.get_of_mem cache.distinct hentry
    rw [hkey, hget] at hsame
    exact not_expired (Option.some.inj hsame ▸ hfresh) hexpired
  · rw [delete_entries]
    exact (List.length_filter_le _ _).trans h.bounded

theorem Keeps.look (h : Keeps options cache now writes) :
    Keeps options (hasUnexpired options cache key now false).2 now writes := by
  rw [hasUnexpired]
  cases hget : cache.get key with
  | none => exact h
  | some seen =>
      simp only
      split
      · rename_i hexpired
        exact h.delete hget hexpired
      · exact h

theorem prune_entries (hlimit : 0 < options.limit) : ∃ p : JsString × ℚ → Bool,
    (prune options cache now).entries = Recency.newest options.limit (cache.entries.filter p) ∧
      ∀ entry, Fresh options now entry.2 → p entry = true := by
  rw [prune]
  simp only [if_neg (Nat.not_le.mpr hlimit)]
  split
  · rename_i hpos
    refine ⟨fun entry => !decide (entry.2 < now - options.ttl), ?_, fun entry hfresh => ?_⟩
    · have hfilter : (cache.filterMap fun seen =>
          if seen < now - options.ttl then none else some seen).entries =
          cache.entries.filter fun entry => !decide (entry.2 < now - options.ttl) := by
        show cache.entries.filterMap _ = _
        rw [← List.filterMap_eq_filter]
        congr 1
        funext entry
        by_cases hold : entry.2 < now - options.ttl
        · simp [hold, Option.guard]
        · simp [hold, Option.guard]
      show List.drop _ _ = _
      rw [hfilter]
      rfl
    · rw [Bool.not_eq_true', decide_eq_false_iff_not]
      intro hold
      apply not_expired hfresh
      exact ⟨hpos, by linarith⟩
  · refine ⟨fun _ => true, ?_, fun _ _ => rfl⟩
    rw [List.filter_true]
    rfl

theorem Keeps.prune (h : Recency.Holds options.limit (Fresh options now) writes cache.entries) :
    Keeps options (prune options cache now) now writes := by
  rcases Nat.eq_zero_or_pos options.limit with hzero | hpos
  · have hempty : DedupeCache.prune options cache now = Map.empty := by
      rw [DedupeCache.prune, hzero]
      rfl
    rw [hempty]
    refine ⟨⟨List.nil_sublist _, fun before entry after _ hfew => ?_⟩, Nat.zero_le _⟩
    rw [hzero] at hfew
    exact absurd hfew (Nat.not_lt_zero _)
  · obtain ⟨p, hentries, hp⟩ := @prune_entries options cache now hpos
    constructor
    · rw [hentries]
      exact (h.filter fun entry _ => hp entry).newest
    · rw [hentries]
      exact Recency.length_newest _ _

theorem Keeps.check (h : Keeps options cache now writes) (hkey : key ≠ []) :
    Keeps options (check options cache key now).2 now (writes ++ [(key, now)]) := by
  rw [DedupeCache.check, if_neg hkey, hasUnexpired]
  cases hget : cache.get key with
  | none =>
      apply Keeps.prune
      rw [touch_entries]
      exact h.holds.write key now
  | some seen =>
      simp only
      split
      · rename_i hexpired
        apply Keeps.prune
        rw [touch_entries]
        exact (h.delete hget hexpired).holds.write key now
      · refine ⟨?_, ?_⟩
        · show Recency.Holds _ _ _ (touch cache key now).entries
          rw [touch_entries]
          exact h.holds.write key now
        · show (touch cache key now).entries.length ≤ _
          have hmem := Record.mem_of_get hget
          have hless : (cache.entries.filter fun entry => entry.1 ≠ key).length < cache.entries.length := by
            apply List.length_filter_lt_length_iff_exists.mpr
            exact ⟨_, hmem, by simp⟩
          have hbounded := h.bounded
          rw [touch_entries, Recency.write, List.length_append, List.length_singleton]
          omega

theorem Keeps.found (h : Keeps options cache clock writes) {early later : List (JsString × ℚ)} {seen : ℚ}
    (hkey : key ≠ []) (hsplit : writes = early ++ (key, seen) :: later)
    (hlast : key ∉ later.map Prod.fst) (hle : clock ≤ now) (hfresh : Fresh options now seen)
    (hfew : (later.map Prod.fst).dedup.length < options.limit) : (peek options cache key now).1 = true := by
  have hmem := h.holds.mem hsplit hlast (hfresh.earlier hle) hfew
  have hget : cache.get key = some seen := Record.get_of_mem cache.distinct hmem
  rw [peek, if_neg hkey, hasUnexpired, hget]
  simp only [if_neg (not_expired hfresh)]

theorem get_peek (h : (peek options cache key now).1 = false) (hkey : key ≠ []) :
    (peek options cache key now).2.get key = none := by
  rw [peek, if_neg hkey, hasUnexpired] at h ⊢
  cases hget : cache.get key with
  | none => exact hget
  | some seen =>
      rw [hget] at h
      simp only at h ⊢
      split
      · rw [Map.get_delete, if_pos rfl]
      · rename_i hfresh
        rw [if_neg hfresh] at h
        exact absurd h (by simp)

theorem get_peek_other {other : JsString} (h : cache.get other = none) :
    (peek options cache key now).2.get other = none := by
  rw [peek]
  split
  · exact h
  · rw [hasUnexpired]
    cases cache.get key with
    | none => exact h
    | some seen =>
        simp only
        split
        · rw [Map.get_delete, h, ite_self]
        · exact h

theorem get_check_other {other : JsString} (hne : key ≠ other) (h : cache.get other = none) :
    (check options cache key now).2.get other = none := by
  have htouch : ∀ kept : DedupeCache, kept.get other = none → (touch kept key now).get other = none := by
    intro kept hkept
    rw [touch, Map.get_set, if_neg hne, Map.get_delete, if_neg hne]
    exact hkept
  have hprune : ∀ kept : DedupeCache, kept.get other = none →
      (DedupeCache.prune options kept now).get other = none := by
    intro kept hkept
    have hdrop : ∀ kept : DedupeCache, kept.get other = none →
        (pruneMapToMaxSize kept options.limit).get other = none := by
      intro kept hkept
      show Record.get (List.drop _ _) other = none
      have hnone : Record.get kept.entries other = none := hkept
      rw [Record.get_eq_none_iff] at hnone ⊢
      exact fun hin => hnone (((List.drop_sublist _ _).map Prod.fst).subset hin)
    rw [DedupeCache.prune]
    split
    · exact Map.get_empty other
    · apply hdrop
      split
      · rw [Map.get_filterMap, hkept, Option.bind_none]
      · exact hkept
  rw [check]
  split
  · exact h
  · rw [hasUnexpired]
    cases cache.get key with
    | none => exact hprune _ (htouch _ h)
    | some seen =>
        simp only
        split
        · refine hprune _ (htouch _ ?_)
          rw [Map.get_delete, if_neg hne]
          exact h
        · exact htouch _ h

end DedupeCache

/-!
## Claims of inbound messages

`src/auto-reply/reply/inbound-dedupe.ts`: the key of an inbound message, the claims that are in flight,
and the cache of the keys that were committed.
-/

/-! ## Keys -/

structure MsgContext where
  originatingChannel : Option JsString := none
  provider : Option JsString := none
  surface : Option JsString := none
  originatingTo : Option JsString := none
  to? : Option JsString := none
  from? : Option JsString := none
  sessionKey : Option JsString := none
  commandSource : Option JsString := none
  commandTargetSessionKey : Option JsString := none
  accountId : Option JsString := none
  messageThreadId : Option ThreadId := none
  messageSid : Option JsString := none

section Keys

variable [UnicodeCase]

def resolveInboundPeerId (ctx : MsgContext) : Option JsString :=
  ctx.originatingTo <|> ctx.to? <|> ctx.from? <|> ctx.sessionKey

def resolveInboundDedupeSessionScope (ctx : MsgContext) : JsString :=
  let target :=
    if ctx.commandSource = some (js "native") then normalizeOptionalString ctx.commandTargetSessionKey
    else none
  match target <|> normalizeOptionalString ctx.sessionKey with
  | none => []
  | some sessionKey =>
      match parseAgentSessionKey sessionKey with
      | none => sessionKey
      | some parsed => js "agent:" ++ parsed.agentId

def inboundRoute (ctx : MsgContext) : OriginRouting where
  originatingChannel :=
    normalizeOptionalLowercaseString (ctx.originatingChannel <|> ctx.provider <|> ctx.surface)
  originatingTo := resolveInboundPeerId ctx
  originatingAccountId := normalizeOptionalString ctx.accountId
  originatingThreadId := ctx.messageThreadId

def RouteKey.text (key : RouteKey) : JsString :=
  Config.stringifyTexts [key.channel, key.target, key.accountId, key.threadId]

def buildInboundDedupeKey (ctx : MsgContext) : Option JsString :=
  match (inboundRoute ctx).originatingChannel, normalizeOptionalString ctx.messageSid with
  | some _, some messageId =>
      if truthy (resolveInboundPeerId ctx) = none then none
      else
        let sessionScope := resolveInboundDedupeSessionScope ctx
        let routeKey := (channelRouteDedupeKey (inboundRoute ctx)).text
        some (Config.stringifyTexts [sessionScope, routeKey, messageId])
  | _, _ => none

end Keys

/-! ## Claims -/

inductive InboundDedupeClaimResult where
  | invalid
  | duplicate (key : JsString)
  | inflight (key : JsString)
  | claimed (key : JsString)
  deriving DecidableEq

structure InboundDedupe where
  cache : DedupeCache := Map.empty
  inFlight : List JsString := []

section Claims

variable [UnicodeCase] (options : DedupeCacheOptions)

def claimInboundDedupe (ctx : MsgContext) (now : ℚ) (s : InboundDedupe) :
    InboundDedupeClaimResult × InboundDedupe :=
  match buildInboundDedupeKey ctx with
  | none => (.invalid, s)
  | some key =>
      let seen := s.cache.peek options key now
      let s := { s with cache := seen.2 }
      if seen.1 = true then (.duplicate key, s)
      else if s.inFlight.contains key then (.inflight key, s)
      else (.claimed key, { s with inFlight := s.inFlight ++ [key] })

omit [UnicodeCase] in
def releaseInboundDedupe (key : JsString) (s : InboundDedupe) : InboundDedupe :=
  { s with inFlight := s.inFlight.filter fun other => other ≠ key }

omit [UnicodeCase] in
def commitInboundDedupe (key : JsString) (now : ℚ) (s : InboundDedupe) : InboundDedupe :=
  releaseInboundDedupe key { s with cache := (s.cache.check options key now).2 }

end Claims

/-! ## Runs -/

inductive DedupeAction where
  | claim (ctx : MsgContext) (now : ℚ)
  | commit (key : JsString) (now : ℚ)
  | release (key : JsString)

/-- The state of a run, with the keys of the claims that are open, the commits so far and the time of
the last call. -/
structure DedupeRun extends InboundDedupe where
  openClaims : List JsString := []
  commits : List (JsString × ℚ) := []
  clock : ℚ

section Runs

variable [UnicodeCase] (options : DedupeCacheOptions)

/-- Time does not go back, and a commit or a release ends a claim that is open. -/
def dedupeStep (run : DedupeRun) : DedupeAction → Option DedupeRun
  | .claim ctx now =>
      if run.clock ≤ now then
        let claim := claimInboundDedupe options ctx now run.toInboundDedupe
        some { run with
          toInboundDedupe := claim.2
          openClaims :=
            match claim.1 with
            | .claimed key => run.openClaims ++ [key]
            | _ => run.openClaims
          clock := now }
      else none
  | .commit key now =>
      if run.clock ≤ now ∧ key ∈ run.openClaims then
        some { run with
          toInboundDedupe := commitInboundDedupe options key now run.toInboundDedupe
          openClaims := run.openClaims.erase key
          commits := run.commits ++ [(key, now)]
          clock := now }
      else none
  | .release key =>
      if key ∈ run.openClaims then
        some { run with
          toInboundDedupe := releaseInboundDedupe key run.toInboundDedupe
          openClaims := run.openClaims.erase key }
      else none

structure DedupeRun.Sound (run : DedupeRun) : Prop where
  once : run.openClaims.Nodup
  inFlight : run.inFlight = run.openClaims
  keyed : ∀ key ∈ run.openClaims, key ≠ []
  absent : ∀ key ∈ run.openClaims, run.cache.get key = none
  keeps : run.cache.Keeps options run.clock run.commits
  committed : ∀ entry ∈ run.commits, entry.1 ≠ [] ∧ entry.2 ≤ run.clock
  ordered : (run.commits.map Prod.snd).Pairwise (· ≤ ·)

variable {options} {run next : DedupeRun} {ctx : MsgContext} {key : JsString} {now : ℚ}

omit [UnicodeCase] in
theorem stringifyTexts_ne_nil (texts : List JsString) : Config.stringifyTexts texts ≠ [] := by
  rw [Config.stringifyTexts, Config.stringify]
  exact List.append_ne_nil_of_right_ne_nil _ (List.cons_ne_nil _ _)

theorem key_ne_nil (h : buildInboundDedupeKey ctx = some key) : key ≠ [] := by
  rw [buildInboundDedupeKey] at h
  split at h
  · split at h
    · exact absurd h nofun
    · rw [← Option.some.inj h]
      exact stringifyTexts_ne_nil _
  · exact absurd h nofun

theorem key_determines {other : MsgContext} (h : buildInboundDedupeKey ctx = some key)
    (hother : buildInboundDedupeKey other = some key) :
    resolveInboundDedupeSessionScope ctx = resolveInboundDedupeSessionScope other ∧
      channelRouteDedupeKey (inboundRoute ctx) = channelRouteDedupeKey (inboundRoute other) ∧
      normalizeOptionalString ctx.messageSid = normalizeOptionalString other.messageSid := by
  have hparts : ∀ ctx : MsgContext, buildInboundDedupeKey ctx = some key → ∃ messageId,
      normalizeOptionalString ctx.messageSid = some messageId ∧
      key = Config.stringifyTexts [resolveInboundDedupeSessionScope ctx,
        (channelRouteDedupeKey (inboundRoute ctx)).text, messageId] := by
    intro ctx h
    rw [buildInboundDedupeKey] at h
    split at h
    · rename_i messageId _ hmessage
      split at h
      · exact absurd h nofun
      · exact ⟨messageId, hmessage, (Option.some.inj h).symm⟩
    · exact absurd h nofun
  obtain ⟨messageId, hmessage, hkey⟩ := hparts ctx h
  obtain ⟨otherId, hotherId, hotherKey⟩ := hparts other hother
  have htexts := Config.stringifyTexts_injective (hkey.symm.trans hotherKey)
  simp only [List.cons.injEq, and_true] at htexts
  obtain ⟨hscope, hroute, hid⟩ := htexts
  have hfour := Config.stringifyTexts_injective hroute
  simp only [List.cons.injEq, and_true] at hfour
  obtain ⟨hchannel, htarget, haccount, hthread⟩ := hfour
  refine ⟨hscope, ?_, ?_⟩
  · ext1
    · exact hchannel
    · exact htarget
    · exact haccount
    · exact hthread
  · rw [hmessage, hotherId, hid]

theorem claim_cases (s : InboundDedupe) :
    (claimInboundDedupe options ctx now s = (.invalid, s) ∧ buildInboundDedupeKey ctx = none) ∨
    ∃ key, buildInboundDedupeKey ctx = some key ∧
      ((claimInboundDedupe options ctx now s =
          (.duplicate key, { s with cache := (s.cache.peek options key now).2 }) ∧
          (s.cache.peek options key now).1 = true) ∨
        ((s.cache.peek options key now).1 = false ∧ key ∈ s.inFlight ∧
          claimInboundDedupe options ctx now s =
            (.inflight key, { s with cache := (s.cache.peek options key now).2 })) ∨
        ((s.cache.peek options key now).1 = false ∧ key ∉ s.inFlight ∧
          claimInboundDedupe options ctx now s = (.claimed key,
            { cache := (s.cache.peek options key now).2, inFlight := s.inFlight ++ [key] }))) := by
  rw [claimInboundDedupe]
  cases hkey : buildInboundDedupeKey ctx with
  | none => exact Or.inl ⟨rfl, rfl⟩
  | some key =>
      refine Or.inr ⟨key, rfl, ?_⟩
      simp only
      cases hpeek : (s.cache.peek options key now).1 with
      | true => exact Or.inl ⟨if_pos rfl, rfl⟩
      | false =>
          right
          rw [if_neg Bool.false_ne_true]
          by_cases hin : key ∈ s.inFlight
          · exact Or.inl ⟨rfl, hin, if_pos (List.contains_iff_mem.mpr hin)⟩
          · exact Or.inr ⟨rfl, hin, if_neg fun hcontains => hin (List.contains_iff_mem.mp hcontains)⟩

omit [UnicodeCase] in
theorem keeps_peek {cache : DedupeCache} {commits : List (JsString × ℚ)}
    (h : cache.Keeps options now commits) : (cache.peek options key now).2.Keeps options now commits := by
  rw [DedupeCache.peek]
  split
  · exact h
  · exact h.look

theorem Sound_claim (h : run.Sound options) (hnow : run.clock ≤ now)
    (hstep : dedupeStep options run (.claim ctx now) = some next) : next.Sound options := by
  rw [dedupeStep, if_pos hnow] at hstep
  have hlater := h.keeps.later hnow
  have hcommitted : ∀ entry ∈ run.commits, entry.1 ≠ [] ∧ entry.2 ≤ now := fun entry hentry =>
    ⟨(h.committed entry hentry).1, (h.committed entry hentry).2.trans hnow⟩
  rcases @claim_cases _ options ctx now run.toInboundDedupe with ⟨hclaim, -⟩ | ⟨key, hkey, hcases⟩
  · rw [hclaim] at hstep
    rw [← Option.some.inj hstep]
    exact ⟨h.once, h.inFlight, h.keyed, h.absent, hlater, hcommitted, h.ordered⟩
  · have habsent : ∀ other ∈ run.openClaims, (run.cache.peek options key now).2.get other = none :=
      fun other hother => DedupeCache.get_peek_other (h.absent other hother)
    rcases hcases with ⟨hclaim, -⟩ | ⟨-, -, hclaim⟩ | ⟨hpeek, hnew, hclaim⟩
    · rw [hclaim] at hstep
      rw [← Option.some.inj hstep]
      exact ⟨h.once, h.inFlight, h.keyed, habsent, keeps_peek hlater, hcommitted, h.ordered⟩
    · rw [hclaim] at hstep
      rw [← Option.some.inj hstep]
      exact ⟨h.once, h.inFlight, h.keyed, habsent, keeps_peek hlater, hcommitted, h.ordered⟩
    · rw [hclaim] at hstep
      rw [← Option.some.inj hstep]
      rw [h.inFlight] at hnew
      refine ⟨?_, congrArg (· ++ [key]) h.inFlight, ?_, ?_, keeps_peek hlater, hcommitted, h.ordered⟩
      · rw [List.nodup_append]
        refine ⟨h.once, List.nodup_singleton key, fun other hother last hlast heq => ?_⟩
        rw [List.mem_singleton.mp hlast] at heq
        exact hnew (heq ▸ hother)
      · intro other hother
        rcases List.mem_append.mp hother with hopen | hlast
        · exact h.keyed other hopen
        · rw [List.mem_singleton.mp hlast]
          exact key_ne_nil hkey
      · intro other hother
        rcases List.mem_append.mp hother with hopen | hlast
        · exact habsent other hopen
        · rw [List.mem_singleton.mp hlast]
          exact DedupeCache.get_peek hpeek (key_ne_nil hkey)

omit [UnicodeCase] in
theorem filter_eq_erase {keys : List JsString} (h : keys.Nodup) (key : JsString) :
    keys.filter (fun other => other ≠ key) = keys.erase key := by
  rw [h.erase_eq_filter]
  apply List.filter_congr
  intro other _
  by_cases hkey : other = key
  · simp [hkey]
  · simp [hkey]

theorem Sound_commit (h : run.Sound options) (hnow : run.clock ≤ now) (hopen : key ∈ run.openClaims)
    (hstep : dedupeStep options run (.commit key now) = some next) : next.Sound options := by
  rw [dedupeStep, if_pos ⟨hnow, hopen⟩] at hstep
  rw [← Option.some.inj hstep]
  have hne := h.keyed key hopen
  refine ⟨h.once.erase key, ?_, ?_, ?_, (h.keeps.later hnow).check hne, ?_, ?_⟩
  · show run.inFlight.filter _ = _
    rw [h.inFlight]
    exact filter_eq_erase h.once key
  · exact fun other hother => h.keyed other (List.mem_of_mem_erase hother)
  · intro other hother
    have hother := (h.once.mem_erase_iff).mp hother
    exact DedupeCache.get_check_other (Ne.symm hother.1) (h.absent other hother.2)
  · intro entry hentry
    rcases List.mem_append.mp hentry with hbefore | hlast
    · exact ⟨(h.committed entry hbefore).1, (h.committed entry hbefore).2.trans hnow⟩
    · rw [List.mem_singleton.mp hlast]
      exact ⟨hne, le_refl now⟩
  · rw [List.map_append, List.pairwise_append]
    refine ⟨h.ordered, List.pairwise_singleton _ _, fun time htime last hlast => ?_⟩
    obtain ⟨entry, hentry, rfl⟩ := List.mem_map.mp htime
    rw [List.mem_singleton.mp hlast]
    exact (h.committed entry hentry).2.trans hnow

theorem Sound_release (h : run.Sound options) (hopen : key ∈ run.openClaims)
    (hstep : dedupeStep options run (.release key) = some next) : next.Sound options := by
  rw [dedupeStep, if_pos hopen] at hstep
  rw [← Option.some.inj hstep]
  refine ⟨h.once.erase key, ?_, ?_, ?_, h.keeps, h.committed, h.ordered⟩
  · show run.inFlight.filter _ = _
    rw [h.inFlight]
    exact filter_eq_erase h.once key
  · exact fun other hother => h.keyed other (List.mem_of_mem_erase hother)
  · exact fun other hother => h.absent other (List.mem_of_mem_erase hother)

theorem Sound_step {action : DedupeAction} (h : run.Sound options)
    (hstep : dedupeStep options run action = some next) : next.Sound options := by
  cases action with
  | claim ctx now =>
      by_cases hnow : run.clock ≤ now
      · exact Sound_claim h hnow hstep
      · rw [dedupeStep, if_neg hnow] at hstep
        exact absurd hstep nofun
  | commit key now =>
      by_cases hboth : run.clock ≤ now ∧ key ∈ run.openClaims
      · exact Sound_commit h hboth.1 hboth.2 hstep
      · rw [dedupeStep, if_neg hboth] at hstep
        exact absurd hstep nofun
  | release key =>
      by_cases hopen : key ∈ run.openClaims
      · exact Sound_release h hopen hstep
      · rw [dedupeStep, if_neg hopen] at hstep
        exact absurd hstep nofun

theorem sound_run {start : ℚ} {actions : List DedupeAction}
    (hrun : exec (dedupeStep options) { clock := start } actions = some run) :
    run.Sound options := by
  have hstart : DedupeRun.Sound options { clock := start } :=
    ⟨List.nodup_nil, rfl, fun key h => absurd h List.not_mem_nil, fun key h => absurd h List.not_mem_nil,
      DedupeCache.Keeps.empty start, fun entry h => absurd h List.not_mem_nil, List.Pairwise.nil⟩
  exact invariant_exec_all _ (fun _ _ _ h hstep => Sound_step h hstep) hstart hrun

theorem duplicate_after_commit (h : run.Sound options) {early later : List (JsString × ℚ)} {seen : ℚ}
    (hsplit : run.commits = early ++ (key, seen) :: later) (hkey : buildInboundDedupeKey ctx = some key)
    (hnow : run.clock ≤ now) (hfresh : options.ttl = 0 ∨ now < seen + options.ttl)
    (hfew : ((later.map Prod.fst).filter fun other => other ≠ key).dedup.length < options.limit) :
    (claimInboundDedupe options ctx now run.toInboundDedupe).1 = .duplicate key := by
  have hfound : (run.cache.peek options key now).1 = true := by
    obtain ⟨first, latest, last, hlast, hnot⟩ :=
      @Recency.exists_last_write _ _ ((key, seen) :: later) key List.mem_cons_self
    have hall : run.commits = (early ++ first) ++ (key, latest) :: last := by
      rw [hsplit, hlast, List.append_assoc]
    -- the last commit of the key is no earlier, and no more keys follow it
    have hparts : seen ≤ latest ∧ last.Sublist later := by
      cases first with
      | nil =>
          rw [List.nil_append, List.cons.injEq, Prod.mk.injEq] at hlast
          rw [hlast.1.2, hlast.2]
          exact ⟨le_refl latest, List.Sublist.refl last⟩
      | cons entry first =>
          rw [List.cons_append, List.cons.injEq] at hlast
          have hordered := h.ordered
          rw [hsplit, List.map_append, List.pairwise_append, List.map_cons, List.pairwise_cons] at hordered
          have hmem : (key, latest) ∈ later := by
            rw [hlast.2]
            exact List.mem_append_right _ List.mem_cons_self
          refine ⟨hordered.2.1.1 latest (List.mem_map_of_mem hmem), ?_⟩
          rw [hlast.2]
          exact (List.sublist_cons_self _ _).trans (List.sublist_append_right _ _)
    have hkeys : last.map Prod.fst ⊆ (later.map Prod.fst).filter fun other => other ≠ key := by
      intro other hother
      refine List.mem_filter.mpr ⟨(hparts.2.map Prod.fst).subset hother, decide_eq_true fun heq => ?_⟩
      exact hnot (heq ▸ hother)
    have hlength : (last.map Prod.fst).dedup.length ≤
        ((later.map Prod.fst).filter fun other => other ≠ key).dedup.length := by
      apply List.Subperm.length_le
      apply List.Nodup.subperm (List.nodup_dedup _)
      intro other hother
      exact List.mem_dedup.mpr (hkeys (List.mem_dedup.mp hother))
    apply h.keeps.found (key_ne_nil hkey) hall hnot hnow _ (Nat.lt_of_le_of_lt hlength hfew)
    rcases hfresh with hforever | hsoon
    · exact Or.inl hforever
    · exact Or.inr (lt_of_lt_of_le hsoon (by linarith [hparts.1]))
  rw [claimInboundDedupe, hkey]
  simp only [hfound, if_true]

theorem claimed_after_release (h : run.Sound options) (hopen : key ∈ run.openClaims)
    (hkey : buildInboundDedupeKey ctx = some key) :
    (claimInboundDedupe options ctx now (releaseInboundDedupe key run.toInboundDedupe)).1 =
      .claimed key := by
  have hmissed : (run.cache.peek options key now).1 = false := by
    rw [DedupeCache.peek, if_neg (key_ne_nil hkey), DedupeCache.hasUnexpired, h.absent key hopen]
  have hgone : (run.inFlight.filter fun other => other ≠ key).contains key = false := by
    rw [List.contains_eq_mem, decide_eq_false_iff_not]
    exact fun hin => absurd rfl (of_decide_eq_true (List.mem_filter.mp hin).2)
  rw [claimInboundDedupe, hkey, releaseInboundDedupe]
  simp only [hmissed, hgone, Bool.false_eq_true, if_false]

end Runs

/-! ## Claims are exclusive -/

/-- In every run at most one claim of a key is open, a committed key is a duplicate until it expires or
that many other keys are committed, a released key can be claimed again at once, the cache is not too
large, and a key is for one scope, route and message. -/
theorem inbound_claims_exclusive [UnicodeCase] (options : DedupeCacheOptions) {start : ℚ}
    {actions : List DedupeAction} {run : DedupeRun}
    (hrun : exec (dedupeStep options) { clock := start } actions = some run) :
    run.openClaims.Nodup ∧
    (∀ early key seen later, run.commits = early ++ (key, seen) :: later → ∀ ctx now,
      buildInboundDedupeKey ctx = some key → run.clock ≤ now →
      (options.ttl = 0 ∨ now < seen + options.ttl) →
      ((later.map Prod.fst).filter fun other => other ≠ key).dedup.length < options.limit →
      (claimInboundDedupe options ctx now run.toInboundDedupe).1 = .duplicate key) ∧
    (∀ key ∈ run.openClaims, ∀ ctx now, buildInboundDedupeKey ctx = some key →
      (claimInboundDedupe options ctx now (releaseInboundDedupe key run.toInboundDedupe)).1 =
        .claimed key) ∧
    run.cache.entries.length ≤ options.limit ∧
    ∀ ctx other key, buildInboundDedupeKey ctx = some key → buildInboundDedupeKey other = some key →
      resolveInboundDedupeSessionScope ctx = resolveInboundDedupeSessionScope other ∧
        channelRouteDedupeKey (inboundRoute ctx) = channelRouteDedupeKey (inboundRoute other) ∧
        normalizeOptionalString ctx.messageSid = normalizeOptionalString other.messageSid := by
  have hsound := sound_run hrun
  refine ⟨hsound.once, ?_, ?_, hsound.keeps.bounded, ?_⟩
  · intro early key seen later hsplit ctx now hkey hnow hfresh hfew
    exact duplicate_after_commit hsound hsplit hkey hnow hfresh hfew
  · exact fun key hopen ctx now hkey => claimed_after_release hsound hopen hkey
  · exact fun ctx other key hkey hother => key_determines hkey hother

section Samples

attribute [local instance] asciiCase

def discordMessage (messageSid : String) : MsgContext where
  originatingChannel := some (js "discord")
  originatingTo := some (js "channel:c1")
  sessionKey := some (js "agent:main:discord:channel:c1")
  messageSid := some (js messageSid)

def discordKey (messageSid : String) : JsString := (buildInboundDedupeKey (discordMessage messageSid)).getD []

def discordActions : List DedupeAction :=
  [.claim (discordMessage "msg-1") 0, .claim (discordMessage "msg-2") 5, .commit (discordKey "msg-1") 10,
    .release (discordKey "msg-2"), .claim (discordMessage "msg-2") 11]

theorem inbound_claims_exclusive_discord :
    ∃ run, exec (dedupeStep { ttlMs := 1200000, maxSize := 5000 }) { clock := 0 }
        discordActions = some run ∧
      (claimInboundDedupe { ttlMs := 1200000, maxSize := 5000 } (discordMessage "msg-1") 600000
        run.toInboundDedupe).1 = .duplicate (discordKey "msg-1") := by
  have hsome : (exec (dedupeStep { ttlMs := 1200000, maxSize := 5000 }) { clock := 0 }
      discordActions).any (fun run => run.commits = [(discordKey "msg-1", 10)] ∧ run.clock = 11) = true := by
    decide +kernel
  obtain ⟨run, hrun, hcommits⟩ := (Option.any_eq_true _ _).mp hsome
  rw [decide_eq_true_eq] at hcommits
  refine ⟨run, hrun, ?_⟩
  apply (inbound_claims_exclusive { ttlMs := 1200000, maxSize := 5000 } hrun).2.1 [] (discordKey "msg-1") 10 []
  · exact hcommits.1
  · decide +kernel
  · rw [hcommits.2]
    decide +kernel
  · exact Or.inr (by decide +kernel)
  · decide +kernel

end Samples

end GreenchClaw.AutoReply
