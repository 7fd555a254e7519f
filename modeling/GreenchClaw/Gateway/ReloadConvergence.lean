import GreenchClaw.Config.WriteBack
import GreenchClaw.Gateway.ConfigReloader
import GreenchClaw.Lib.Transition
import Mathlib.Data.List.Perm.Subperm

/-!
# The reloader converges

A run that takes a pending write does not read the file.  While each such write is what the file
holds, or an event of a later edit is still to come, the config that a quiescent reloader holds is
that of the file.
-/

namespace GreenchClaw.Gateway

open GreenchClaw.Js Transition
open GreenchClaw.Config (JsonValue ParsedConfig)

variable {R N H : Type} [DecidableEq N] [DecidableEq H] (host : ReloadHost R N H)

/-! ## What a run needs -/

def ReloadRequest.isRestart : ReloadRequest → Bool
  | .restart _ => true
  | .hotReload _ => false

namespace ConfigReloader

variable (s : ConfigReloader R N H)

def asked (records : Option (PluginInstallRecords N)) : Option ReloadRequest :=
  match s.run with
  | some (.applying target) => (s.application target records).request host
  | _ => none

def TakesCurrent : Prop :=
  s.run = none → ∀ write ∈ s.pendingInProcessConfig,
    0 < s.undelivered ∨ host.sourceConfig (some write.file) = host.sourceConfig s.disk

/-- The files are valid, the pending write is current when it is taken, no restart is asked for
while one is queued, and the handlers succeed. -/
def Undisturbed : ReloadOp R N → Prop
  | .edit file => file.isSome = true ∧ host.valid file = true
  | .write file _ _ => host.valid (some file) = true
  | .timer => s.TakesCurrent host
  | .records records =>
      (s.asked host records).any ReloadRequest.isRestart = true → s.restartQueued = false
  | .hotReloaded succeeds => succeeds = true
  | .restarted succeeds => succeeds = true
  | _ => True

instance (op : ReloadOp R N) : Decidable (s.Undisturbed host op) :=
  match op with
  | .edit file => inferInstanceAs (Decidable (file.isSome = true ∧ host.valid file = true))
  | .write file _ _ => inferInstanceAs (Decidable (host.valid (some file) = true))
  | .timer =>
      inferInstanceAs (Decidable (s.run = none → ∀ write ∈ s.pendingInProcessConfig,
        0 < s.undelivered ∨ host.sourceConfig (some write.file) = host.sourceConfig s.disk))
  | .records records =>
      inferInstanceAs (Decidable ((s.asked host records).any ReloadRequest.isRestart = true →
        s.restartQueued = false))
  | .hotReloaded succeeds => inferInstanceAs (Decidable (succeeds = true))
  | .restarted succeeds => inferInstanceAs (Decidable (succeeds = true))
  | .notify _ => isTrue trivial
  | .watch => isTrue trivial
  | .read => isTrue trivial
  | .resume => isTrue trivial
  | .promoted => isTrue trivial

/-! ## The config in force -/

/-- The config in force once a started application is done. -/
def comparing : ParsedConfig N :=
  match s.run with
  | some (.applying target) => target.compareConfig
  | _ => s.currentCompareConfig

def Current : Prop :=
  match s.run with
  | some .reading => True
  | some (.read file) => file = s.disk
  | _ => s.comparing = host.sourceConfig s.disk

/-- Either something is outstanding, or the file is in force; the hash of a write is kept only
while its config is. -/
structure Converging : Prop where
  valid : s.disk.isSome = true ∧ host.valid s.disk = true
  slot : s.pendingInProcessConfig ≠ none → s.debounceTimer = true ∨ s.pending = true
  hash : ∀ h, s.lastAppliedWriteHash = some h →
    (∃ write, s.pendingInProcessConfig = some write ∧ h = host.hash (some write.file)) ∨
      s.pendingInProcessConfig = none ∧
        ∃ file, h = host.hash file ∧ s.comparing = host.sourceConfig file
  fresh : 0 < s.undelivered ∨ s.debounceTimer = true ∨ s.pending = true ∨ s.Current host

end ConfigReloader

namespace ConfigReloader

variable {host} {s : ConfigReloader R N H}

omit [DecidableEq N] [DecidableEq H] in
theorem runReload_running {run : ReloadRun R N} (hrun : s.run = some run) :
    runReload host { s with debounceTimer := false } =
      { s with debounceTimer := false, pending := true } := by
  rw [runReload, hrun]

omit [DecidableEq N] [DecidableEq H] in
theorem runReload_reading (hrun : s.run = none) (hslot : s.pendingInProcessConfig = none) :
    runReload host { s with debounceTimer := false } =
      { s with debounceTimer := false, run := some .reading } := by
  rw [runReload, hrun, hslot]

def writeTarget (host : ReloadHost R N H) (write : InProcessWrite R N) : ReloadTarget N :=
  { config := write.runtimeConfig
    compareConfig := host.sourceConfig (some write.file)
    afterWrite := write.afterWrite
    serial := some write.serial }

omit [DecidableEq N] [DecidableEq H] in
theorem runReload_writing {write : InProcessWrite R N} (hrun : s.run = none)
    (hslot : s.pendingInProcessConfig = some write) :
    runReload host { s with debounceTimer := false } =
      { s with
        debounceTimer := false
        pendingInProcessConfig := none
        missingConfigRetries := 0
        run := some (.applying (writeTarget host write)) } := by
  rw [runReload, hrun, hslot]
  rfl

namespace Converging

omit [DecidableEq N] [DecidableEq H] in
theorem finish (hs : s.Converging host) (hcomparing : s.comparing = s.currentCompareConfig)
    (hfresh : 0 < s.undelivered ∨ s.debounceTimer = true ∨ s.pending = true ∨
      s.currentCompareConfig = host.sourceConfig s.disk) :
    s.finish.Converging host := by
  rw [ConfigReloader.finish]
  have hhashes : ∀ h, s.lastAppliedWriteHash = some h →
      (∃ write, s.pendingInProcessConfig = some write ∧ h = host.hash (some write.file)) ∨
        s.pendingInProcessConfig = none ∧
          ∃ file, h = host.hash file ∧ s.currentCompareConfig = host.sourceConfig file :=
    hcomparing ▸ hs.hash
  split
  · constructor
    · exact hs.valid
    · exact fun _ => Or.inl rfl
    · exact hhashes
    · exact Or.inr (Or.inl rfl)
  · rename_i hpending
    constructor
    · exact hs.valid
    · exact hs.slot
    · exact hhashes
    · rcases hfresh with hedit | htimer | hpend | hcurrent
      · exact Or.inl hedit
      · exact Or.inr (Or.inl htimer)
      · exact absurd hpend hpending
      · exact Or.inr (Or.inr (Or.inr hcurrent))

omit [DecidableEq N] [DecidableEq H] in
theorem edit (hs : s.Converging host) {file : Option R} {unnotified : List (InProcessWrite R N)}
    {nextSerial : ℕ} (hvalid : file.isSome = true ∧ host.valid file = true) :
    Converging host
      { s with
        disk := file
        undelivered := s.undelivered + 1
        unnotified
        nextSerial } := by
  constructor
  · exact hvalid
  · exact hs.slot
  · exact hs.hash
  · exact Or.inl (Nat.succ_pos _)

omit [DecidableEq N] [DecidableEq H] in
theorem notify (hs : s.Converging host) {unnotified : List (InProcessWrite R N)}
    (write : InProcessWrite R N) :
    Converging host
      { s with
        unnotified
        pendingInProcessConfig := some write
        lastAppliedWriteHash := some (host.hash (some write.file))
        debounceTimer := true } := by
  constructor
  · exact hs.valid
  · exact fun _ => Or.inl rfl
  · intro h hhash
    exact Or.inl ⟨write, rfl, (Option.some.inj hhash).symm⟩
  · exact Or.inr (Or.inl rfl)

omit [DecidableEq N] [DecidableEq H] in
theorem watch (hs : s.Converging host) {undelivered : ℕ} :
    Converging host { s with undelivered, debounceTimer := true } := by
  constructor
  · exact hs.valid
  · exact fun _ => Or.inl rfl
  · exact hs.hash
  · exact Or.inr (Or.inl rfl)

omit [DecidableEq N] [DecidableEq H] in
theorem timer (hs : s.Converging host) (htakes : s.TakesCurrent host) :
    Converging host (runReload host { s with debounceTimer := false }) := by
  rcases Option.eq_none_or_eq_some s.run with hrun | ⟨run, hrun⟩
  · rcases Option.eq_none_or_eq_some s.pendingInProcessConfig with hslot | ⟨write, hslot⟩
    · rw [runReload_reading hrun hslot]
      constructor
      · exact hs.valid
      · exact fun hsome => absurd hslot hsome
      · have hkept := hs.hash
        rw [comparing, hrun] at hkept
        exact hkept
      · exact Or.inr (Or.inr (Or.inr trivial))
    · rw [runReload_writing hrun hslot]
      constructor
      · exact hs.valid
      · exact fun hsome => absurd rfl hsome
      · intro h hhash
        right
        refine ⟨rfl, some write.file, ?_, rfl⟩
        rcases hs.hash h hhash with ⟨other, hother, hsame⟩ | ⟨hnone, -⟩
        · rw [hslot] at hother
          rw [hsame, ← Option.some.inj hother]
        · rw [hslot] at hnone
          exact absurd hnone (by simp)
      · rcases htakes hrun write hslot with hedit | hcurrent
        · exact Or.inl hedit
        · exact Or.inr (Or.inr (Or.inr hcurrent))
  · rw [runReload_running hrun]
    constructor
    · exact hs.valid
    · exact fun _ => Or.inr rfl
    · exact hs.hash
    · exact Or.inr (Or.inr (Or.inl rfl))

omit [DecidableEq N] [DecidableEq H] in
theorem read (hs : s.Converging host) (hrun : s.run = some .reading) :
    Converging host { s with run := some (.read s.disk) } := by
  constructor
  · exact hs.valid
  · exact hs.slot
  · have hkept := hs.hash
    rw [comparing, hrun] at hkept
    exact hkept
  · rcases hs.fresh with hedit | htimer | hpend | -
    · exact Or.inl hedit
    · exact Or.inr (Or.inl htimer)
    · exact Or.inr (Or.inr (Or.inl hpend))
    · exact Or.inr (Or.inr (Or.inr rfl))

omit [DecidableEq N] [DecidableEq H] in
theorem forget (hs : s.Converging host) {missingConfigRetries : ℕ} :
    Converging host { s with lastAppliedWriteHash := none, missingConfigRetries } := by
  constructor
  · exact hs.valid
  · exact hs.slot
  · exact fun _ hhash => absurd hhash (by simp)
  · exact hs.fresh

omit [DecidableEq N] in
/-- A run that read the file skips it when its config is in force already, and applies it
otherwise. -/
theorem resumeRead (hs : s.Converging host) {file : Option R} (hrun : s.run = some (.read file)) :
    (s.resumeRead host file).Converging host := by
  have hcomparing : s.comparing = s.currentCompareConfig := by
    rw [comparing, hrun]
  have hread : 0 < s.undelivered ∨ s.debounceTimer = true ∨ s.pending = true ∨ file = s.disk := by
    have hfresh := hs.fresh
    rw [Current, hrun] at hfresh
    exact hfresh
  unfold ConfigReloader.resumeRead
  split
  · rename_i hskip
    apply hs.finish hcomparing
    -- the hash is that of a write that waits for its run, or of the config in force
    rcases hs.hash _ hskip with ⟨write, hslot, -⟩ | ⟨-, other, hother, hsame⟩
    · have hwaits := hs.slot (by simp [hslot])
      exact Or.inr (hwaits.imp_right Or.inl)
    · rcases hread with hedit | htimer | hpend | hfile
      · exact Or.inl hedit
      · exact Or.inr (Or.inl htimer)
      · exact Or.inr (Or.inr (Or.inl hpend))
      · right; right; right
        rw [← hcomparing, hsame, ← host.hash_injective hother, hfile]
  · have hvalid : 0 < s.undelivered ∨ s.debounceTimer = true ∨ s.pending = true ∨
        file.isSome = true ∧ host.valid file = true := by
      rcases hread with hedit | htimer | hpend | hfile
      · exact Or.inl hedit
      · exact Or.inr (Or.inl htimer)
      · exact Or.inr (Or.inr (Or.inl hpend))
      · rw [hfile]
        exact Or.inr (Or.inr (Or.inr hs.valid))
    split
    · have hpending : 0 < s.undelivered ∨ s.debounceTimer = true ∨ s.pending = true ∨
          s.currentCompareConfig = host.sourceConfig s.disk := by
        rcases hvalid with hedit | htimer | hpend | ⟨hsome, -⟩
        · exact Or.inl hedit
        · exact Or.inr (Or.inl htimer)
        · exact Or.inr (Or.inr (Or.inl hpend))
        · exact absurd hsome (by simp)
      split
      · have hforgot : Converging host
            { s with
              lastAppliedWriteHash := none
              missingConfigRetries := s.missingConfigRetries + 1
              debounceTimer := true } := hs.forget.watch
        exact hforgot.finish hcomparing (Or.inr (Or.inl rfl))
      · have hforgot : Converging host
            { s with
              lastAppliedWriteHash := none
              missingConfigRetries := s.missingConfigRetries } := hs.forget
        exact hforgot.finish hcomparing hpending
    · split
      · constructor
        · exact hs.valid
        · exact hs.slot
        · exact fun _ hhash => absurd hhash (by simp)
        · rcases hread with hedit | htimer | hpend | hfile
          · exact Or.inl hedit
          · exact Or.inr (Or.inl htimer)
          · exact Or.inr (Or.inr (Or.inl hpend))
          · right; right; right
            show host.sourceConfig _ = host.sourceConfig s.disk
            rw [hfile]
      · rename_i hinvalid
        have hforgot : Converging host
            { s with lastAppliedWriteHash := none, missingConfigRetries := 0 } := hs.forget
        apply hforgot.finish hcomparing
        rcases hvalid with hedit | htimer | hpend | ⟨-, hok⟩
        · exact Or.inl hedit
        · exact Or.inr (Or.inl htimer)
        · exact Or.inr (Or.inr (Or.inl hpend))
        · exact absurd hok hinvalid

omit [DecidableEq N] [DecidableEq H] in
/-- What happens to the run alone, and leaves the config in force as it is. -/
theorem of_same (hs : s.Converging host) {s' : ConfigReloader R N H} (hdisk : s'.disk = s.disk)
    (hundelivered : s'.undelivered = s.undelivered) (htimer : s'.debounceTimer = s.debounceTimer)
    (hpending : s'.pending = s.pending)
    (hslot : s'.pendingInProcessConfig = s.pendingInProcessConfig)
    (hhash : s'.lastAppliedWriteHash = s.lastAppliedWriteHash)
    (hcomparing : s'.comparing = s.comparing) (hcurrent : s.Current host → s'.Current host) :
    s'.Converging host := by
  constructor
  · rw [hdisk]
    exact hs.valid
  · rw [hslot, htimer, hpending]
    exact hs.slot
  · rw [hhash, hslot, hcomparing]
    exact hs.hash
  · rw [hundelivered, htimer, hpending]
    exact hs.fresh.imp_right (Or.imp_right (Or.imp_right hcurrent))

omit [DecidableEq H] in
theorem applySnapshot (hs : s.Converging host) {app : Application N}
    (hrun : s.run = some (.applying app.target)) :
    (s.applySnapshot host app).Converging host := by
  have hcomparing : s.comparing = app.target.compareConfig := by
    rw [comparing, hrun]
  have hcurrent : s.Current host → app.target.compareConfig = host.sourceConfig s.disk := by
    rw [Current, hrun, hcomparing]
    exact id
  rw [ConfigReloader.applySnapshot]
  split
  · exact hs.of_same rfl rfl rfl rfl rfl rfl hcomparing.symm hcurrent
  · exact hs.of_same rfl rfl rfl rfl rfl rfl hcomparing.symm hcurrent
  · split
    · exact hs.of_same rfl rfl rfl rfl rfl rfl hcomparing.symm hcurrent
    · exact hs.of_same rfl rfl rfl rfl rfl rfl hcomparing.symm hcurrent

end Converging

theorem step_converging (op : ReloadOp R N) {s' : ConfigReloader R N H} (hs : s.Converging host)
    (hundisturbed : s.Undisturbed host op) (hstep : reloadStep host s op = some s') :
    s'.Converging host := by
  cases op with
  | edit file =>
      rw [← Option.some.inj hstep]
      exact hs.edit hundisturbed
  | write file runtimeConfig afterWrite =>
      rw [← Option.some.inj hstep]
      exact hs.edit ⟨rfl, hundisturbed⟩
  | notify serial =>
      simp only [reloadStep] at hstep
      split at hstep
      · exact absurd hstep (by simp)
      · rw [← Option.some.inj hstep]
        exact hs.notify _
  | watch =>
      simp only [reloadStep] at hstep
      split at hstep
      · exact absurd hstep (by simp)
      · rw [← Option.some.inj hstep]
        exact hs.watch
  | timer =>
      simp only [reloadStep] at hstep
      split at hstep
      · rw [← Option.some.inj hstep]
        exact hs.timer hundisturbed
      · exact absurd hstep (by simp)
  | read =>
      simp only [reloadStep] at hstep
      split at hstep
      · rename_i hrun
        rw [← Option.some.inj hstep]
        exact hs.read hrun
      · exact absurd hstep (by simp)
  | resume =>
      simp only [reloadStep] at hstep
      split at hstep
      · rename_i hrun
        rw [← Option.some.inj hstep]
        exact hs.resumeRead hrun
      · exact absurd hstep (by simp)
  | records records =>
      simp only [reloadStep] at hstep
      split at hstep
      · rename_i target hrun
        rw [← Option.some.inj hstep]
        exact hs.applySnapshot hrun
      · exact absurd hstep (by simp)
  | hotReloaded succeeds =>
      have hsucceeds : succeeds = true := hundisturbed
      simp only [reloadStep, hsucceeds, if_true] at hstep
      split at hstep
      · rename_i application hrun
        rw [← Option.some.inj hstep]
        have hcomparing : s.comparing = s.currentCompareConfig := by
          rw [comparing, hrun]
        have hcurrent : s.Current host →
            s.currentCompareConfig = host.sourceConfig s.disk := by
          rw [Current, hrun, hcomparing]
          exact id
        exact hs.of_same rfl rfl rfl rfl rfl rfl hcomparing.symm hcurrent
      · exact absurd hstep (by simp)
  | restarted succeeds =>
      have hsucceeds : succeeds = true := hundisturbed
      simp only [reloadStep, hsucceeds, if_true] at hstep
      split at hstep
      · exact absurd hstep (by simp)
      · rw [← Option.some.inj hstep]
        exact hs.of_same rfl rfl rfl rfl rfl rfl rfl id
  | promoted =>
      simp only [reloadStep] at hstep
      split at hstep
      · rename_i hrun
        rw [← Option.some.inj hstep]
        have hcomparing : s.comparing = s.currentCompareConfig := by
          rw [comparing, hrun]
        apply hs.finish hcomparing
        have hfresh := hs.fresh
        rw [Current, hrun, hcomparing] at hfresh
        exact hfresh
      · exact absurd hstep (by simp)

end ConfigReloader

/-! ## What was applied -/

def Leads : ParsedConfig N → List (Application N) → ParsedConfig N → Prop
  | first, [], last => first = last
  | first, app :: rest, last => app.prev = first ∧ Leads app.target.compareConfig rest last

omit [DecidableEq N] in
theorem Leads.append {first last : ParsedConfig N} {apps : List (Application N)}
    (h : Leads first apps last) {app : Application N} (hprev : app.prev = last) :
    Leads first (apps ++ [app]) app.target.compareConfig := by
  induction apps generalizing first with
  | nil => exact ⟨hprev.trans h.symm, rfl⟩
  | cons head rest ih => exact ⟨h.1, ih h.2⟩

omit [DecidableEq N] in
theorem Leads.exists_differs {first last : ParsedConfig N} {apps : List (Application N)}
    (h : Leads first apps last) {location : List Segment}
    (hdiffers : shapeAt first.value location ≠ shapeAt last.value location) :
    ∃ app ∈ apps, shapeAt app.prev.value location ≠
      shapeAt app.target.compareConfig.value location := by
  induction apps generalizing first with
  | nil =>
      have hsame : first = last := h
      rw [hsame] at hdiffers
      exact absurd rfl hdiffers
  | cons head rest ih =>
      by_cases hhead : shapeAt head.prev.value location =
          shapeAt head.target.compareConfig.value location
      · rw [← h.1, hhead] at hdiffers
        obtain ⟨app, happ, hother⟩ := ih h.2 hdiffers
        exact ⟨app, List.mem_cons_of_mem _ happ, hother⟩
      · exact ⟨head, List.mem_cons_self, hhead⟩

namespace ConfigReloader

variable {host} {s : ConfigReloader R N H}

variable (host) in
/-- The applications lead from the first config to the current one, and each handler that one of
them asks for was called and has not failed. -/
structure AllPassed (first : ParsedConfig N) (s : ConfigReloader R N H) : Prop where
  leads : Leads first s.applied s.currentCompareConfig
  passed : ∀ app ∈ s.applied, app.request host ≠ none → app.passed = true
  failed : s.failed = []

omit [DecidableEq H] in
theorem AllPassed.of_same {first : ParsedConfig N} (hs : s.AllPassed host first)
    {s' : ConfigReloader R N H} (hcurrent : s'.currentCompareConfig = s.currentCompareConfig)
    (happlied : s'.applied = s.applied) (hfailed : s'.failed = s.failed) :
    s'.AllPassed host first := by
  constructor
  · rw [happlied, hcurrent]
    exact hs.leads
  · rw [happlied]
    exact hs.passed
  · rw [hfailed]
    exact hs.failed

omit [DecidableEq N] [DecidableEq H] in
theorem finish_applied (s : ConfigReloader R N H) :
    s.finish.currentCompareConfig = s.currentCompareConfig ∧
      s.finish.applied = s.applied ∧ s.finish.failed = s.failed := by
  rw [finish]
  split <;> exact ⟨rfl, rfl, rfl⟩

omit [DecidableEq N] [DecidableEq H] in
theorem runReload_applied (host : ReloadHost R N H) (s : ConfigReloader R N H) :
    (s.runReload host).currentCompareConfig = s.currentCompareConfig ∧
      (s.runReload host).applied = s.applied ∧ (s.runReload host).failed = s.failed := by
  rw [runReload]
  split
  · exact ⟨rfl, rfl, rfl⟩
  · split <;> exact ⟨rfl, rfl, rfl⟩

omit [DecidableEq N] in
theorem resumeRead_applied (host : ReloadHost R N H) (s : ConfigReloader R N H)
    (file : Option R) :
    (s.resumeRead host file).currentCompareConfig = s.currentCompareConfig ∧
      (s.resumeRead host file).applied = s.applied ∧
      (s.resumeRead host file).failed = s.failed := by
  unfold resumeRead
  split
  · exact finish_applied _
  · split
    · split <;> exact finish_applied _
    · split
      · exact ⟨rfl, rfl, rfl⟩
      · exact finish_applied _

omit [DecidableEq H] in
theorem AllPassed.advance {first : ParsedConfig N} (hs : s.AllPassed host first)
    {app : Application N} (hprev : app.prev = s.currentCompareConfig)
    (hpassed : app.request host ≠ none → app.passed = true) :
    (s.advance app).AllPassed host first := by
  constructor
  · exact hs.leads.append hprev
  · intro other hother
    rcases List.mem_append.mp hother with hold | hnew
    · exact hs.passed other hold
    · rw [List.mem_singleton.mp hnew]
      exact hpassed
  · exact hs.failed

omit [DecidableEq H] in
theorem AllPassed.applySnapshot {first : ParsedConfig N} (hs : s.AllPassed host first)
    {app : Application N} (hprev : app.prev = s.currentCompareConfig)
    (hfree : (app.request host).any ReloadRequest.isRestart = true → s.restartQueued = false) :
    (s.applySnapshot host app).AllPassed host first := by
  have hpassed : (s.advance { app with passed := true }).AllPassed host first :=
    hs.advance hprev fun _ => rfl
  rw [ConfigReloader.applySnapshot]
  split
  · rename_i hnone
    exact hs.advance hprev fun hsome => absurd hnone hsome
  · exact hpassed.of_same rfl rfl rfl
  · rename_i plan hrequest
    rw [hfree (by simp [hrequest, ReloadRequest.isRestart])]
    exact hpassed.of_same rfl rfl rfl

theorem step_allPassed {first : ParsedConfig N} (op : ReloadOp R N) {s' : ConfigReloader R N H}
    (hs : s.AllPassed host first) (hundisturbed : s.Undisturbed host op)
    (hstep : reloadStep host s op = some s') : s'.AllPassed host first := by
  cases op with
  | edit file =>
      rw [← Option.some.inj hstep]
      exact hs.of_same rfl rfl rfl
  | write file runtimeConfig afterWrite =>
      rw [← Option.some.inj hstep]
      exact hs.of_same rfl rfl rfl
  | notify serial =>
      simp only [reloadStep] at hstep
      split at hstep
      · exact absurd hstep (by simp)
      · rw [← Option.some.inj hstep]
        exact hs.of_same rfl rfl rfl
  | watch =>
      simp only [reloadStep] at hstep
      split at hstep
      · exact absurd hstep (by simp)
      · rw [← Option.some.inj hstep]
        exact hs.of_same rfl rfl rfl
  | timer =>
      simp only [reloadStep] at hstep
      split at hstep
      · rw [← Option.some.inj hstep]
        obtain ⟨hcurrent, happlied, hfailed⟩ :=
          runReload_applied host { s with debounceTimer := false }
        exact hs.of_same hcurrent happlied hfailed
      · exact absurd hstep (by simp)
  | read =>
      simp only [reloadStep] at hstep
      split at hstep
      · rw [← Option.some.inj hstep]
        exact hs.of_same rfl rfl rfl
      · exact absurd hstep (by simp)
  | resume =>
      simp only [reloadStep] at hstep
      split at hstep
      · rename_i file _
        rw [← Option.some.inj hstep]
        obtain ⟨hcurrent, happlied, hfailed⟩ := resumeRead_applied host s file
        exact hs.of_same hcurrent happlied hfailed
      · exact absurd hstep (by simp)
  | records records =>
      have hfree : (s.asked host records).any ReloadRequest.isRestart = true →
          s.restartQueued = false := hundisturbed
      simp only [reloadStep] at hstep
      split at hstep
      · rename_i target hrun
        rw [← Option.some.inj hstep]
        rw [asked, hrun] at hfree
        exact hs.applySnapshot rfl hfree
      · exact absurd hstep (by simp)
  | hotReloaded succeeds =>
      have hsucceeds : succeeds = true := hundisturbed
      simp only [reloadStep, hsucceeds, if_true] at hstep
      split at hstep
      · rw [← Option.some.inj hstep]
        exact hs.of_same rfl rfl rfl
      · exact absurd hstep (by simp)
  | restarted succeeds =>
      have hsucceeds : succeeds = true := hundisturbed
      simp only [reloadStep, hsucceeds, if_true] at hstep
      split at hstep
      · exact absurd hstep (by simp)
      · rw [← Option.some.inj hstep]
        exact hs.of_same rfl rfl rfl
  | promoted =>
      simp only [reloadStep] at hstep
      split at hstep
      · rw [← Option.some.inj hstep]
        obtain ⟨hcurrent, happlied, hfailed⟩ := finish_applied s
        exact hs.of_same hcurrent happlied hfailed
      · exact absurd hstep (by simp)

/-! ## Each write once -/

variable (s) in
def runSerials : List ℕ :=
  match s.run with
  | some (.applying target) => target.serial.toList
  | _ => []

variable (s) in
def serials : List ℕ :=
  s.applied.filterMap (fun app => app.target.serial) ++ (s.runSerials ++
    ((s.pendingInProcessConfig.map InProcessWrite.serial).toList ++
      s.unnotified.map InProcessWrite.serial))

variable (s) in
structure SerialsDistinct : Prop where
  nodup : s.serials.Nodup
  below : ∀ serial ∈ s.serials, serial < s.nextSerial

omit [DecidableEq N] [DecidableEq H] in
theorem SerialsDistinct.of_subperm (hs : s.SerialsDistinct) {s' : ConfigReloader R N H}
    (hserials : List.Subperm s'.serials s.serials) (hnext : s'.nextSerial = s.nextSerial) :
    s'.SerialsDistinct := by
  constructor
  · obtain ⟨kept, hperm, hsublist⟩ := hserials
    exact hperm.nodup_iff.mp (hs.nodup.sublist hsublist)
  · intro serial hmem
    rw [hnext]
    exact hs.below serial (List.Subperm.subset hserials hmem)

omit [DecidableEq N] [DecidableEq H] in
theorem SerialsDistinct.of_same (hs : s.SerialsDistinct) {s' : ConfigReloader R N H}
    (hsame : s'.serials = s.serials ∧ s'.nextSerial = s.nextSerial) : s'.SerialsDistinct :=
  hs.of_subperm (hsame.1 ▸ List.Subperm.refl _) hsame.2

omit [DecidableEq N] [DecidableEq H] in
theorem finish_serials (hrun : s.runSerials = []) :
    s.finish.serials = s.serials ∧ s.finish.nextSerial = s.nextSerial := by
  rw [serials, serials, hrun, finish]
  split <;> exact ⟨rfl, rfl⟩

omit [DecidableEq N] [DecidableEq H] in
theorem runReload_serials :
    (runReload host { s with debounceTimer := false }).serials = s.serials ∧
      (runReload host { s with debounceTimer := false }).nextSerial = s.nextSerial := by
  rcases Option.eq_none_or_eq_some s.run with hrun | ⟨run, hrun⟩
  · rcases Option.eq_none_or_eq_some s.pendingInProcessConfig with hslot | ⟨write, hslot⟩
    · rw [runReload_reading hrun hslot, serials, serials, runSerials, runSerials, hrun]
      exact ⟨rfl, rfl⟩
    · rw [runReload_writing hrun hslot, serials, serials, runSerials, runSerials, hrun, hslot]
      exact ⟨rfl, rfl⟩
  · rw [runReload_running hrun]
    exact ⟨rfl, rfl⟩

omit [DecidableEq N] in
theorem resumeRead_serials {file : Option R} (hrun : s.run = some (.read file)) :
    (s.resumeRead host file).serials = s.serials ∧
      (s.resumeRead host file).nextSerial = s.nextSerial := by
  have hnone : s.runSerials = [] := by
    rw [runSerials, hrun]
  unfold resumeRead
  split
  · exact finish_serials hnone
  · split
    · split <;> exact finish_serials hnone
    · split
      · rw [serials, serials, hnone]
        exact ⟨rfl, rfl⟩
      · exact finish_serials hnone

omit [DecidableEq N] [DecidableEq H] in
theorem advance_serials {app : Application N} (hrun : s.run = some (.applying app.target)) :
    (s.advance app).serials = s.serials := by
  rw [serials, serials, runSerials, runSerials, hrun, advance]
  cases hserial : app.target.serial <;> simp [hserial]

omit [DecidableEq H] in
theorem applySnapshot_serials {app : Application N}
    (hrun : s.run = some (.applying app.target)) :
    (s.applySnapshot host app).serials = s.serials ∧
      (s.applySnapshot host app).nextSerial = s.nextSerial := by
  have hadvance (passed : Bool) : (s.advance { app with passed }).serials = s.serials :=
    advance_serials hrun
  rw [applySnapshot]
  split
  · exact ⟨hadvance app.passed, rfl⟩
  · exact ⟨hadvance true, rfl⟩
  · split
    · exact ⟨hadvance app.passed, rfl⟩
    · exact ⟨hadvance true, rfl⟩

omit [DecidableEq N] [DecidableEq H] in
theorem SerialsDistinct.write (hs : s.SerialsDistinct) {s' : ConfigReloader R N H}
    (hserials : s'.serials = s.serials ++ [s.nextSerial])
    (hnext : s'.nextSerial = s.nextSerial + 1) : s'.SerialsDistinct := by
  constructor
  · rw [hserials, List.nodup_append]
    refine ⟨hs.nodup, List.nodup_singleton _, ?_⟩
    intro serial hmem other hother heq
    rw [heq, List.mem_singleton.mp hother] at hmem
    exact absurd (hs.below _ hmem) (lt_irrefl _)
  · intro serial hmem
    rw [hserials] at hmem
    rw [hnext]
    rcases List.mem_append.mp hmem with hold | hnew
    · have hbelow := hs.below serial hold
      omega
    · rw [List.mem_singleton.mp hnew]
      omega

omit [DecidableEq N] [DecidableEq H] in
/-- The write that is notified leaves the list, and it replaces the one that waits. -/
theorem SerialsDistinct.notify (hs : s.SerialsDistinct) {serial : ℕ} {write : InProcessWrite R N}
    (hfind : s.unnotified.find? (fun write => write.serial = serial) = some write) {hash : H} :
    SerialsDistinct
      { s with
        unnotified := s.unnotified.filter fun write => write.serial ≠ serial
        pendingInProcessConfig := some write
        lastAppliedWriteHash := some hash
        debounceTimer := true } := by
  have hserial : write.serial = serial := by simpa using List.find?_some hfind
  have hmem : serial ∈ s.unnotified.map InProcessWrite.serial :=
    List.mem_map.mpr ⟨write, List.mem_of_find?_eq_some hfind, hserial⟩
  have hnodup : (s.unnotified.map InProcessWrite.serial).Nodup := by
    have hall := hs.nodup
    rw [serials] at hall
    exact ((hall.sublist (List.sublist_append_right _ _)).sublist
      (List.sublist_append_right _ _)).sublist (List.sublist_append_right _ _)
  have hfilter : (s.unnotified.filter fun write => write.serial ≠ serial).map
      InProcessWrite.serial = (s.unnotified.map InProcessWrite.serial).erase serial := by
    rw [hnodup.erase_eq_filter, List.filter_map]
    congr 1
    apply List.filter_congr
    intro other _
    by_cases hother : other.serial = serial <;> simp [hother]
  refine hs.of_subperm ?_ rfl
  have hleaves : (serial :: (s.unnotified.map InProcessWrite.serial).erase serial).Subperm
      ((s.pendingInProcessConfig.map InProcessWrite.serial).toList ++
        s.unnotified.map InProcessWrite.serial) := by
    have hperm := (List.perm_cons_erase hmem).symm.subperm
    exact hperm.trans (List.sublist_append_right _ _).subperm
  rw [serials, serials, hfilter]
  apply (List.subperm_append_left _).mpr
  apply (List.subperm_append_left _).mpr
  rw [← hserial] at hleaves ⊢
  exact hleaves

theorem step_serials (op : ReloadOp R N) {s' : ConfigReloader R N H} (hs : s.SerialsDistinct)
    (hstep : reloadStep host s op = some s') : s'.SerialsDistinct := by
  cases op with
  | edit file =>
      rw [← Option.some.inj hstep]
      exact hs.of_same ⟨rfl, rfl⟩
  | write file runtimeConfig afterWrite =>
      rw [← Option.some.inj hstep]
      refine hs.write ?_ rfl
      simp only [serials, runSerials, List.map_append, List.append_assoc]
      rfl
  | notify serial =>
      simp only [reloadStep] at hstep
      split at hstep
      · exact absurd hstep (by simp)
      · rename_i write hfind
        rw [← Option.some.inj hstep]
        exact hs.notify hfind
  | watch =>
      simp only [reloadStep] at hstep
      split at hstep
      · exact absurd hstep (by simp)
      · rw [← Option.some.inj hstep]
        exact hs.of_same ⟨rfl, rfl⟩
  | timer =>
      simp only [reloadStep] at hstep
      split at hstep
      · rw [← Option.some.inj hstep]
        exact hs.of_same runReload_serials
      · exact absurd hstep (by simp)
  | read =>
      simp only [reloadStep] at hstep
      split at hstep
      · rename_i hrun
        rw [← Option.some.inj hstep]
        apply hs.of_same
        rw [serials, serials, runSerials, runSerials, hrun]
        exact ⟨rfl, rfl⟩
      · exact absurd hstep (by simp)
  | resume =>
      simp only [reloadStep] at hstep
      split at hstep
      · rename_i file hrun
        rw [← Option.some.inj hstep]
        exact hs.of_same (resumeRead_serials hrun)
      · exact absurd hstep (by simp)
  | records records =>
      simp only [reloadStep] at hstep
      split at hstep
      · rename_i target hrun
        rw [← Option.some.inj hstep]
        exact hs.of_same (applySnapshot_serials hrun)
      · exact absurd hstep (by simp)
  | hotReloaded succeeds =>
      simp only [reloadStep] at hstep
      split at hstep
      · rename_i application hrun
        have hnone : s.runSerials = [] := by
          rw [runSerials, hrun]
        split at hstep
        · rw [← Option.some.inj hstep]
          apply hs.of_same
          rw [serials, serials, hnone]
          exact ⟨rfl, rfl⟩
        · rw [← Option.some.inj hstep]
          exact hs.of_same (finish_serials hnone)
      · exact absurd hstep (by simp)
  | restarted succeeds =>
      simp only [reloadStep] at hstep
      split at hstep
      · exact absurd hstep (by simp)
      · split at hstep
        · rw [← Option.some.inj hstep]
          exact hs.of_same ⟨rfl, rfl⟩
        · rw [← Option.some.inj hstep]
          exact hs.of_same ⟨rfl, rfl⟩
  | promoted =>
      simp only [reloadStep] at hstep
      split at hstep
      · rename_i hrun
        have hnone : s.runSerials = [] := by
          rw [runSerials, hrun]
        rw [← Option.some.inj hstep]
        exact hs.of_same (finish_serials hnone)
      · exact absurd hstep (by simp)

end ConfigReloader

/-! ## Reached states -/

section Reached

variable {host} {file : R} {records : PluginInstallRecords N} {internalWrite : Bool}

omit [DecidableEq N] [DecidableEq H] in
theorem converging_start (hvalid : host.valid (some file) = true) :
    (startGatewayConfigReloader host file records internalWrite).Converging host := by
  constructor
  · exact ⟨rfl, hvalid⟩
  · exact fun hsome => absurd rfl hsome
  · intro h hhash
    right
    refine ⟨rfl, some file, ?_, rfl⟩
    cases internalWrite with
    | false => exact absurd hhash (by simp [startGatewayConfigReloader])
    | true => exact (Option.some.inj hhash).symm
  · exact Or.inr (Or.inr (Or.inr rfl))

omit [DecidableEq H] in
theorem allPassed_start :
    (startGatewayConfigReloader host file records internalWrite).AllPassed host
      (host.sourceConfig (some file)) := by
  constructor
  · rfl
  · exact fun _ happ => absurd happ List.not_mem_nil
  · rfl

omit [DecidableEq N] [DecidableEq H] in
theorem serialsDistinct_start :
    (startGatewayConfigReloader host file records internalWrite).SerialsDistinct := by
  constructor
  · exact List.nodup_nil
  · exact fun _ hserial => absurd hserial List.not_mem_nil

end Reached

/-! ## An edit that shares the timer of a write -/

def cronConfig (value : ℕ) : ParsedConfig ℕ where
  value := .object [(js "cron", .number value)]
  distinctKeys := by
    simp [JsonValue.distinctKeys, Config.distinctKeysEntries]

def cronHost : ReloadHost ℕ ℕ (Option ℕ) where
  hash := id
  hash_injective := Function.injective_id
  valid _ := true
  config file := cronConfig (file.getD 0)
  sourceConfig file := cronConfig (file.getD 0)
  registry := {}

/-- The file is edited after this process wrote it, and both events come before the run. -/
def editBeforeRun : List (ReloadOp ℕ ℕ) :=
  [.write 1 (cronConfig 1) .auto, .edit (some 2), .notify 0, .watch, .watch, .timer,
    .records none, .hotReloaded true, .promoted]

def editRun : List (ReloadOp ℕ ℕ) :=
  [.edit (some 1), .watch, .timer, .read, .resume, .records none, .hotReloaded true, .promoted]

end GreenchClaw.Gateway
