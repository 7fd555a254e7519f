import GreenchClaw.Acp.EventLedger
import GreenchClaw.Lib.Keyed

/-!
# Trimming the ledger

What trimming leaves of a session, and that the limits hold after it.
-/

namespace GreenchClaw.Acp

open GreenchClaw.Js
open GreenchClaw.Config (NumberText stringify stringifyEntries)

/-! ## What is left of a session -/

def Trimmed (session left : LedgerSession) : Prop :=
  left = session ∨
    ∃ count, left = { session with events := session.events.drop count, complete := false }

theorem Trimmed.refl (session : LedgerSession) : Trimmed session session := Or.inl rfl

theorem Trimmed.trans {a b c : LedgerSession} (hab : Trimmed a b) (hbc : Trimmed b c) :
    Trimmed a c := by
  rcases hab with hab | ⟨count, hab⟩
  · exact hab ▸ hbc
  · rcases hbc with hbc | ⟨more, hbc⟩
    · exact Or.inr ⟨count, hbc.trans hab⟩
    · refine Or.inr ⟨count + more, ?_⟩
      rw [hbc, hab, List.drop_drop]

theorem Trimmed.sessionId {a b : LedgerSession} (h : Trimmed a b) : b.sessionId = a.sessionId := by
  rcases h with h | ⟨count, h⟩
  · rw [h]
  · rw [h]

theorem Trimmed.length_le {a b : LedgerSession} (h : Trimmed a b) :
    b.events.length ≤ a.events.length := by
  rcases h with h | ⟨count, h⟩
  · rw [h]
  · rw [h, List.length_drop]
    omega

structure WellKeyed (sessions : Sessions) : Prop where
  nodup : (sessions.map Prod.fst).Nodup
  sessionId : ∀ entry ∈ sessions, entry.2.sessionId = entry.1

def Trims (sessions left : Sessions) : Prop :=
  ∀ entry ∈ left, ∃ session, (entry.1, session) ∈ sessions ∧ Trimmed session entry.2

theorem Trims.refl (sessions : Sessions) : Trims sessions sessions :=
  fun entry hentry => ⟨entry.2, hentry, Trimmed.refl _⟩

theorem Trims.trans {a b c : Sessions} (hab : Trims a b) (hbc : Trims b c) : Trims a c := by
  intro entry hentry
  obtain ⟨session, hsession, htrimmed⟩ := hbc entry hentry
  obtain ⟨first, hfirst, hbefore⟩ := hab _ hsession
  exact ⟨first, hfirst, hbefore.trans htrimmed⟩

structure Step (sessions left : Sessions) : Prop where
  trims : Trims sessions left
  keys : (left.map Prod.fst).Sublist (sessions.map Prod.fst)

theorem Step.refl (sessions : Sessions) : Step sessions sessions :=
  ⟨Trims.refl _, List.Sublist.refl _⟩

theorem Step.trans {a b c : Sessions} (hab : Step a b) (hbc : Step b c) : Step a c :=
  ⟨hab.trims.trans hbc.trims, hbc.keys.trans hab.keys⟩

theorem Step.wellKeyed {sessions left : Sessions} (h : Step sessions left)
    (hkeyed : WellKeyed sessions) : WellKeyed left where
  nodup := hkeyed.nodup.sublist h.keys
  sessionId := by
    intro entry hentry
    obtain ⟨session, hsession, htrimmed⟩ := h.trims entry hentry
    rw [htrimmed.sessionId]
    exact hkeyed.sessionId _ hsession

theorem Step.length_le {sessions left : Sessions} (h : Step sessions left) :
    left.length ≤ sessions.length := by
  have hkeys := h.keys.length_le
  rwa [List.length_map, List.length_map] at hkeys

theorem Step.delete (sessions : Sessions) (key : JsString) : Step sessions (sessions.delete key) where
  trims := fun entry hentry => ⟨entry.2, List.mem_of_mem_filter hentry, Trimmed.refl _⟩
  keys := List.filter_sublist.map _

theorem Step.foldl_delete (sessions : Sessions) (gone : Sessions) :
    Step sessions (gone.foldl (fun sessions entry => sessions.delete entry.2.sessionId) sessions) := by
  induction gone generalizing sessions with
  | nil => exact Step.refl _
  | cons entry gone ih => exact (Step.delete sessions _).trans (ih _)

theorem map_fst_set_of_mem {α : Type} {record : Record α} {key : JsString}
    (h : key ∈ record.map Prod.fst) (value : α) :
    (record.set key value).map Prod.fst = record.map Prod.fst := by
  have hany : (record.any fun entry => decide (entry.1 = key)) = true := by
    obtain ⟨entry, hentry, hkey⟩ := List.mem_map.mp h
    exact List.any_eq_true.mpr ⟨entry, hentry, decide_eq_true hkey⟩
  rw [Record.set, if_pos hany, List.map_map]
  apply List.map_congr_left
  intro entry _
  rw [Function.comp_apply]
  split
  · rename_i hkey
    exact hkey.symm
  · rfl

theorem Step.set {sessions : Sessions} {key : JsString} {session left : LedgerSession}
    (hmem : (key, session) ∈ sessions) (htrimmed : Trimmed session left) :
    Step sessions (sessions.set key left) where
  trims := by
    intro entry hentry
    rcases Record.mem_set hentry with hnew | ⟨hold, _⟩
    · rw [hnew]
      exact ⟨session, hmem, htrimmed⟩
    · exact ⟨entry.2, hold, Trimmed.refl _⟩
  keys := by
    have hkey : key ∈ sessions.map Prod.fst := List.mem_map.mpr ⟨_, hmem, rfl⟩
    rw [map_fst_set_of_mem hkey]

/-! ## The steps of trimming -/

theorem lastEvents_eq_drop (limit : JsNumber) (events : List AcpEventLedgerEntry) :
    ∃ count, lastEvents limit events = events.drop count := by
  cases limit with
  | finite value => exact ⟨_, rfl⟩
  | nan => exact ⟨0, rfl⟩
  | negInfinity => exact ⟨0, rfl⟩
  | posInfinity => exact ⟨0, rfl⟩

theorem trimSession_trimmed (limits : LedgerLimits) (session : LedgerSession) :
    Trimmed session (trimSession limits session) := by
  rw [trimSession]
  split
  · exact Or.inl rfl
  · obtain ⟨count, hcount⟩ := lastEvents_eq_drop limits.maxEventsPerSession session.events
    rw [hcount]
    exact Or.inr ⟨count, rfl⟩

theorem step_trimSession (limits : LedgerLimits) (sessions : Sessions) :
    Step sessions (sessions.map fun entry => (entry.1, trimSession limits entry.2)) where
  trims := by
    intro entry hentry
    obtain ⟨before, hbefore, heq⟩ := List.mem_map.mp hentry
    rw [← heq]
    exact ⟨before.2, hbefore, trimSession_trimmed limits before.2⟩
  keys := by
    rw [List.map_map]
    exact List.Sublist.refl _

theorem step_trimSessions (limits : LedgerLimits) (sessions : Sessions) :
    Step sessions (trimSessions limits sessions) := by
  rw [trimSessions]
  split
  · exact Step.foldl_delete _ _
  · exact Step.refl _

theorem mem_of_head?_oldestFirst {sessions : Sessions} {entry : JsString × LedgerSession}
    (h : (oldestFirst sessions).head? = some entry) : entry ∈ sessions :=
  (List.perm_insertionSort _ _).mem_iff.mp (List.mem_of_mem_head? h)

section Bytes

variable [NumberText ℚ]

theorem step_trimEvents (limits : LedgerLimits) (rounds : ℕ) (sessions : Sessions) :
    Step sessions (trimEvents limits rounds sessions) := by
  induction rounds generalizing sessions with
  | zero => exact Step.refl _
  | succ rounds ih =>
      rw [trimEvents]
      split
      · split
        · exact Step.refl _
        · rename_i key session hfirst
          have hmem := List.mem_of_mem_filter (mem_of_head?_oldestFirst hfirst)
          apply (Step.set hmem (Or.inr ⟨1, ?_⟩)).trans (ih _)
          rw [List.drop_one]
      · exact Step.refl _

theorem step_deleteOldest (limits : LedgerLimits) (rounds : ℕ) (sessions : Sessions) :
    Step sessions (deleteOldest limits rounds sessions) := by
  induction rounds generalizing sessions with
  | zero => exact Step.refl _
  | succ rounds ih =>
      rw [deleteOldest]
      split
      · split
        · exact Step.refl _
        · exact (Step.delete _ _).trans (ih _)
      · exact Step.refl _

theorem step_trimLedger (limits : LedgerLimits) (sessions : Sessions) :
    Step sessions (trimLedger limits sessions) :=
  (((step_trimSession limits sessions).trans (step_trimSessions limits _)).trans
    (step_trimEvents limits _ _)).trans (step_deleteOldest limits _ _)

end Bytes

/-! ## The limits -/

/-- A limit that `normalizeLimit` returns. -/
inductive NormalLimit (least : ℕ) : JsNumber → Prop where
  | nan : NormalLimit least .nan
  | infinite : NormalLimit least .posInfinity
  | finite (value : ℚ) (h : (least : ℚ) ≤ value) : NormalLimit least (.finite value)

theorem normalizeLimit_normal (least fallback : ℕ) (value : Option JsNumber) :
    NormalLimit least (normalizeLimit least fallback value) := by
  have hmax (number : JsNumber) : NormalLimit least (JsNumber.max (JsNumber.ofInt least) number) := by
    rw [JsNumber.max, JsNumber.ofInt]
    cases number with
    | nan =>
        rw [if_pos (Or.inr rfl)]
        exact .nan
    | negInfinity =>
        rw [if_neg (by simp), if_neg (by simp [JsNumber.lt])]
        exact .finite _ (by simp)
    | posInfinity =>
        rw [if_neg (by simp), if_pos (by simp [JsNumber.lt])]
        exact .infinite
    | finite number =>
        rw [if_neg (by simp)]
        split
        · rename_i hlt
          simp only [JsNumber.lt, decide_eq_true_eq] at hlt
          exact .finite _ (by exact_mod_cast hlt.le)
        · exact .finite _ (by simp)
  exact hmax _

theorem exceeds_infinite (count : ℕ) : exceeds count .posInfinity = false := rfl

theorem exceeds_nan (count : ℕ) : exceeds count .nan = false := rfl

theorem not_exceeds_finite {count : ℕ} {value : ℚ} :
    exceeds count (.finite value) = false ↔ (count : ℚ) ≤ value := by
  simp [exceeds, JsNumber.lt, JsNumber.ofInt]

theorem exceeds_of_le {count more : ℕ} {limit : JsNumber} (hle : count ≤ more)
    (h : exceeds more limit = false) : exceeds count limit = false := by
  cases limit with
  | nan => exact exceeds_nan count
  | negInfinity => exact absurd h nofun
  | posInfinity => exact exceeds_infinite count
  | finite value =>
      rw [not_exceeds_finite] at h ⊢
      have hcast : (count : ℚ) ≤ more := by exact_mod_cast hle
      exact hcast.trans h

theorem not_exceeds_least {least count : ℕ} {limit : JsNumber} (h : NormalLimit least limit)
    (hle : count ≤ least) : exceeds count limit = false := by
  cases h with
  | nan => exact exceeds_nan count
  | infinite => exact exceeds_infinite count
  | finite value hvalue =>
      rw [not_exceeds_finite]
      have hcast : (count : ℚ) ≤ least := by exact_mod_cast hle
      exact hcast.trans hvalue

theorem toNat_floor_le {value : ℚ} (h : 0 ≤ value) : (value.floor.toNat : ℚ) ≤ value := by
  have hfloor : 0 ≤ value.floor := Int.floor_nonneg.mpr h
  have hcast : ((value.floor.toNat : ℤ) : ℚ) ≤ value := by
    rw [Int.toNat_of_nonneg hfloor]
    exact Int.floor_le value
  exact_mod_cast hcast

theorem exceeds_trimSession {limits : LedgerLimits} {least : ℕ}
    (h : NormalLimit least limits.maxEventsPerSession) (session : LedgerSession) :
    exceeds (trimSession limits session).events.length limits.maxEventsPerSession = false := by
  rw [trimSession]
  cases hlimit : limits.maxEventsPerSession with
  | nan => exact exceeds_nan _
  | posInfinity => exact exceeds_infinite _
  | negInfinity =>
      rw [hlimit] at h
      exact absurd h nofun
  | finite value =>
      rw [not_exceeds_finite]
      split
      · rename_i hle
        simp only [JsNumber.le, JsNumber.lt, JsNumber.ofInt, Bool.or_eq_true, decide_eq_true_eq,
          JsNumber.finite.injEq] at hle
        rcases hle with heq | hlt
        · exact_mod_cast heq.le
        · exact_mod_cast hlt.le
      · have hvalue : 0 ≤ value := by
          rw [hlimit] at h
          cases h with
          | finite _ hleast => exact (Nat.cast_nonneg least).trans hleast
        dsimp only
        rw [lastEvents, List.length_drop]
        have hkept : session.events.length - (session.events.length - value.floor.toNat) ≤
            value.floor.toNat := by omega
        have hcast : ((session.events.length - (session.events.length - value.floor.toNat) : ℕ) : ℚ) ≤
            (value.floor.toNat : ℚ) := by exact_mod_cast hkept
        exact hcast.trans (toNat_floor_le hvalue)

theorem foldl_delete_eq (gone sessions : Sessions) :
    gone.foldl (fun sessions entry => sessions.delete entry.2.sessionId) sessions =
      sessions.filter fun entry => entry.1 ∉ gone.map fun entry => entry.2.sessionId := by
  induction gone generalizing sessions with
  | nil => simp
  | cons first gone ih =>
      rw [List.foldl_cons, ih, Record.delete, List.filter_filter]
      apply List.filter_congr
      intro entry _
      simp only [List.map_cons, List.mem_cons, not_or]
      rw [Bool.and_comm, ← Bool.decide_and]

theorem exceeds_trimSessions {limits : LedgerLimits} {least : ℕ}
    (h : NormalLimit least limits.maxSessions) {sessions : Sessions}
    (hkeyed : WellKeyed sessions) :
    exceeds (trimSessions limits sessions).length limits.maxSessions = false := by
  rw [trimSessions]
  split
  · rename_i hexceeds
    cases hlimit : limits.maxSessions with
    | nan =>
        rw [hlimit] at hexceeds
        exact absurd hexceeds nofun
    | posInfinity =>
        rw [hlimit] at hexceeds
        exact absurd hexceeds nofun
    | negInfinity =>
        rw [hlimit] at h
        exact absurd h nofun
    | finite value =>
        have hvalue : 0 ≤ value := by
          rw [hlimit] at h
          cases h with
          | finite _ hleast => exact (Nat.cast_nonneg least).trans hleast
        rw [sliceFrom, foldl_delete_eq, not_exceeds_finite]
        have hperm : (newestFirst sessions).Perm sessions := List.perm_insertionSort _ _
        have hsub : (newestFirst sessions).drop value.floor.toNat ⊆ sessions := by
          intro entry hentry
          exact hperm.mem_iff.mp (List.mem_of_mem_drop hentry)
        have hids : ((newestFirst sessions).drop value.floor.toNat).map
            (fun entry => entry.2.sessionId) =
            ((newestFirst sessions).drop value.floor.toNat).map Prod.fst := by
          apply List.map_congr_left
          intro entry hentry
          exact hkeyed.sessionId entry (hsub hentry)
        have hgone : (((newestFirst sessions).drop value.floor.toNat).map Prod.fst).Nodup :=
          ((hperm.map Prod.fst).nodup_iff.mpr hkeyed.nodup).sublist
            ((List.drop_sublist _ _).map Prod.fst)
        have hcount := Keyed.length_filter_notMem hkeyed.nodup hgone (List.map_subset _ hsub)
        rw [List.filter_map, List.length_map, List.length_map, List.length_map, List.length_drop,
          hperm.length_eq] at hcount
        rw [hids]
        have hkept : (sessions.filter fun entry => entry.1 ∉
            ((newestFirst sessions).drop value.floor.toNat).map Prod.fst).length ≤
            value.floor.toNat := by
          have hbound (count : ℕ)
              (h : count + (sessions.length - value.floor.toNat) = sessions.length) :
              count ≤ value.floor.toNat := by omega
          apply hbound
          convert hcount using 4
          ext entry
          exact decide_eq_decide.mpr Iff.rfl
        have hcast : ((sessions.filter fun entry => entry.1 ∉
            ((newestFirst sessions).drop value.floor.toNat).map Prod.fst).length : ℚ) ≤
            (value.floor.toNat : ℚ) := by exact_mod_cast hkept
        exact hcast.trans (toNat_floor_le hvalue)
  · rename_i hfits
    simpa using hfits

section Serialized

variable [NumberText ℚ]

theorem deleteOldest_ends {limits : LedgerLimits}
    (hlimit : NormalLimit 1024 limits.maxSerializedBytes)
    (hone : NumberText.text (1 : ℚ) = js "1") (rounds : ℕ) {sessions : Sessions}
    (hkeyed : WellKeyed sessions) (hrounds : sessions.length ≤ rounds) :
    exceeds (getSerializedLedgerByteLength (deleteOldest limits rounds sessions))
      limits.maxSerializedBytes = false := by
  have hempty : exceeds (getSerializedLedgerByteLength []) limits.maxSerializedBytes = false := by
    apply not_exceeds_least hlimit
    rw [getSerializedLedgerByteLength, storeJson, LEDGER_VERSION]
    simp only [List.map_nil, stringify, stringifyEntries, hone]
    decide
  induction rounds generalizing sessions with
  | zero =>
      rw [List.length_eq_zero_iff.mp (Nat.le_zero.mp hrounds)]
      exact hempty
  | succ rounds ih =>
      rw [deleteOldest]
      split
      · split
        · rename_i hnone
          have hsorted := List.head?_eq_none_iff.mp hnone
          have hperm := List.perm_insertionSort
            (fun a b : JsString × LedgerSession => a.2.updatedAt ≤ b.2.updatedAt) sessions
          rw [oldestFirst] at hsorted
          rw [hsorted] at hperm
          rw [hperm.nil_eq.symm]
          exact hempty
        · rename_i key session hfirst
          have hmem := mem_of_head?_oldestFirst hfirst
          apply ih ((Step.delete _ _).wellKeyed hkeyed)
          have hid := hkeyed.sessionId _ hmem
          have hlt : (sessions.delete session.sessionId).length < sessions.length := by
            rw [Record.delete]
            apply List.length_filter_lt_length_iff_exists.mpr
            exact ⟨_, hmem, by simpa using hid.symm⟩
          omega
      · rename_i hfits
        simpa using hfits

structure WithinLimits (limits : LedgerLimits) (sessions : Sessions) : Prop where
  count : exceeds sessions.length limits.maxSessions = false
  events : ∀ entry ∈ sessions,
    exceeds entry.2.events.length limits.maxEventsPerSession = false
  bytes : exceeds (getSerializedLedgerByteLength sessions) limits.maxSerializedBytes = false

theorem trimLedger_withinLimits (options : LedgerOptions)
    (hone : NumberText.text (1 : ℚ) = js "1") {sessions : Sessions} (hkeyed : WellKeyed sessions) :
    WithinLimits (normalizeLedgerOptions options)
      (trimLedger (normalizeLedgerOptions options) sessions) := by
  have hsessions : NormalLimit 1 (normalizeLedgerOptions options).maxSessions :=
    normalizeLimit_normal _ _ _
  have hevents : NormalLimit 1 (normalizeLedgerOptions options).maxEventsPerSession :=
    normalizeLimit_normal _ _ _
  have hbytes : NormalLimit 1024 (normalizeLedgerOptions options).maxSerializedBytes :=
    normalizeLimit_normal _ _ _
  generalize normalizeLedgerOptions options = limits at *
  rw [trimLedger]
  have hfirst := (step_trimSession limits sessions).wellKeyed hkeyed
  have hfit (entry) (hentry : entry ∈ sessions.map fun entry => (entry.1, trimSession limits entry.2)) :
      exceeds entry.2.events.length limits.maxEventsPerSession = false := by
    obtain ⟨before, _, heq⟩ := List.mem_map.mp hentry
    rw [← heq]
    exact exceeds_trimSession hevents before.2
  generalize sessions.map (fun entry => (entry.1, trimSession limits entry.2)) = first at *
  have hsecond := step_trimSessions limits first
  have hcount := exceeds_trimSessions hsessions hfirst
  generalize trimSessions limits first = second at *
  have hthird := step_trimEvents limits (eventCount second) second
  generalize trimEvents limits (eventCount second) second = third at *
  have hlast := hthird.trans (step_deleteOldest limits third.length third)
  constructor
  · exact exceeds_of_le hlast.length_le hcount
  · intro entry hentry
    obtain ⟨session, hsession, htrimmed⟩ := (hsecond.trans hlast).trims entry hentry
    exact exceeds_of_le htrimmed.length_le (hfit _ hsession)
  · exact deleteOldest_ends hbytes hone _ ((hsecond.trans hthird).wellKeyed hfirst) (Nat.le_refl _)

end Serialized

end GreenchClaw.Acp
