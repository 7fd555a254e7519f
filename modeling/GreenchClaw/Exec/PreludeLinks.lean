import GreenchClaw.Exec.SkillPreludes
import GreenchClaw.Lib.Through

/-!
# When a prelude stands before its skill

The scan of a chain takes the skills of an execution over from the parts behind it, whatever the
operator between them is.  A prelude is therefore let through for a skill that runs behind a `;` or
a `||`, once another skill runs before that operator.  The results say for which chains this does
not happen.
-/

namespace GreenchClaw.Exec

open GreenchClaw.Js

section Links

variable {Entry : Type} [UnicodeCase]

def FollowedByAnd (part : ChainEvaluation Entry) : Prop := part.opToNext = some .and

def RunsSkill (skill : JsString) (part : ChainEvaluation Entry) : Prop :=
  skill ∈ part.trustedSkillIds

def Linked (part : ChainEvaluation Entry) (later : List (ChainEvaluation Entry))
    (skill : JsString) : Prop :=
  FollowedByAnd part ∧ Through.Reaches FollowedByAnd (RunsSkill skill) later

def RunsOneOf (skills : List JsString) (part : ChainEvaluation Entry) : Prop :=
  ∃ skill ∈ skills, RunsSkill skill part

def HandsOn (part : ChainEvaluation Entry) : Prop :=
  part.trustedSkillIds ≠ [] → FollowedByAnd part

/-- Every part that the allowlist does not satisfy is linked to an execution, and to one of each
skill whose document it shows. -/
def PreludesLinked (path : PathHost) (cwd : Option JsString)
    (parts : List (ChainEvaluation Entry)) : Prop :=
  ∀ before part later, parts = before ++ part :: later →
    part.evaluation.allowlistSatisfied = false →
      (∃ skill, Linked part later skill) ∧
        ∀ skill ∈ part.preludeSkillIds path cwd, Linked part later skill

/-- Between a prelude and the first execution of one of its skills, no execution is followed by `;`
or `||`; and of several skills that a part shows, all or none are linked. -/
def ExecutionsHandOn (path : PathHost) (cwd : Option JsString)
    (parts : List (ChainEvaluation Entry)) : Prop :=
  ∀ before part later, parts = before ++ part :: later →
    (part.preludeSkillIds path cwd ≠ [] →
        Through.Open HandsOn (RunsOneOf (part.preludeSkillIds path cwd)) later) ∧
      ∀ skill ∈ part.preludeSkillIds path cwd, ∀ other ∈ part.preludeSkillIds path cwd,
        Linked part later skill → Linked part later other

variable {path : PathHost} {cwd : Option JsString}

/-! ## What the scan keeps -/

theorem mem_reachable_cons {part : ChainEvaluation Entry} {later : List (ChainEvaluation Entry)}
    {skill : JsString} (h : skill ∈ (scanPreludes path cwd (part :: later)).2) :
    RunsSkill skill part ∨
      (skill ∈ (scanPreludes path cwd later).2 ∧
        (part.trustedSkillIds = [] → FollowedByAnd part)) := by
  rw [scanPreludes, scanPart] at h
  by_cases htrusted : part.trustedSkillIds = []
  · rw [if_neg (not_not_intro htrusted)] at h
    by_cases hallowed : (part.isPreludeOnly path cwd &&
        reachesTrustedSkillExecution path cwd part (scanPreludes path cwd later).2) = true
    · rw [if_pos hallowed] at h
      have hreaches := (Bool.and_eq_true_iff.mp hallowed).2
      rw [reachesTrustedSkillExecution] at hreaches
      have hop := (Bool.and_eq_true_iff.mp hreaches).1
      exact Or.inr ⟨h, fun _ => beq_iff_eq.mp hop⟩
    · rw [if_neg hallowed] at h
      exact absurd h List.not_mem_nil
  · rw [if_pos htrusted] at h
    rcases List.mem_union_iff.mp h with hlater | hpart
    · exact Or.inr ⟨hlater, fun hnil => absurd hnil htrusted⟩
    · exact Or.inl hpart

theorem reaches_execution {later : List (ChainEvaluation Entry)} {skill : JsString}
    (h : skill ∈ (scanPreludes path cwd later).2) :
    Through.Reaches FollowedByAnd (fun part => part.trustedSkillIds ≠ []) later := by
  induction later with
  | nil => exact absurd h List.not_mem_nil
  | cons part later ih =>
      rw [Through.reaches_cons]
      by_cases htrusted : part.trustedSkillIds = []
      · rcases mem_reachable_cons h with hruns | ⟨hlater, hand⟩
        · rw [RunsSkill, htrusted] at hruns
          exact absurd hruns List.not_mem_nil
        · exact Or.inr ⟨hand htrusted, ih hlater⟩
      · exact Or.inl htrusted

/-- When the executions before it hand on, a reachable skill among those given runs over operators
`&&` alone. -/
theorem reaches_oneOf {skills : List JsString} {later : List (ChainEvaluation Entry)}
    {skill : JsString} (hskill : skill ∈ skills) (h : skill ∈ (scanPreludes path cwd later).2)
    (hopen : Through.Open HandsOn (RunsOneOf skills) later) :
    Through.Reaches FollowedByAnd (RunsOneOf skills) later := by
  induction later with
  | nil => exact absurd h List.not_mem_nil
  | cons part later ih =>
      rw [Through.reaches_cons]
      by_cases hruns : RunsOneOf skills part
      · exact Or.inl hruns
      · rw [Through.open_cons hruns] at hopen
        rcases mem_reachable_cons h with hpart | ⟨hlater, hand⟩
        · exact absurd ⟨skill, hskill, hpart⟩ hruns
        · have hop : FollowedByAnd part := by
            by_cases htrusted : part.trustedSkillIds = []
            · exact hand htrusted
            · exact hopen.1 htrusted
          exact Or.inr ⟨hop, ih hlater hopen.2⟩

/-! ## Satisfied chains -/

def Covered (path : PathHost) (cwd : Option JsString) (parts : List (ChainEvaluation Entry)) :
    Prop :=
  ∀ link ∈ parts.zip (scanPreludes path cwd parts).1,
    link.1.evaluation.allowlistSatisfied = true ∨ link.2 = true

omit [UnicodeCase] in
theorem covered_of_collectParts {result : ExecAllowlistAnalysis Entry}
    {links : List (ChainEvaluation Entry × Bool)}
    (h : (collectParts result links).allowlistSatisfied = true) :
    ∀ link ∈ links, link.1.evaluation.allowlistSatisfied = true ∨ link.2 = true := by
  induction links generalizing result with
  | nil => exact fun link hlink => absurd hlink List.not_mem_nil
  | cons first later ih =>
      intro link hlink
      obtain ⟨part, allowed⟩ := first
      unfold collectParts at h
      by_cases hstop : (!part.evaluation.allowlistSatisfied && !allowed) = true
      · simp only [hstop, if_true] at h
        exact absurd h Bool.false_ne_true
      · rcases List.mem_cons.mp hlink with hfirst | hlater
        · rw [hfirst]
          cases hsat : part.evaluation.allowlistSatisfied with
          | true => exact Or.inl rfl
          | false =>
              cases allowed with
              | true => exact Or.inr rfl
              | false =>
                  rw [hsat] at hstop
                  exact absurd rfl hstop
        · rw [if_neg hstop] at h
          exact ih h link hlater

/-- The scan gives the parts behind the first one what it gives them alone. -/
theorem exists_scanPreludes_cons (path : PathHost) (cwd : Option JsString)
    (part : ChainEvaluation Entry) (later : List (ChainEvaluation Entry)) :
    ∃ allowed, (scanPreludes path cwd (part :: later)).1 =
        allowed :: (scanPreludes path cwd later).1 ∧
      (allowed = true → part.isPreludeOnly path cwd = true ∧
        reachesTrustedSkillExecution path cwd part (scanPreludes path cwd later).2 = true) := by
  rw [scanPreludes, scanPart]
  by_cases htrusted : part.trustedSkillIds ≠ []
  · rw [if_pos htrusted]
    exact ⟨false, rfl, nofun⟩
  · rw [if_neg htrusted]
    by_cases hallowed : (part.isPreludeOnly path cwd &&
        reachesTrustedSkillExecution path cwd part (scanPreludes path cwd later).2) = true
    · rw [if_pos hallowed]
      exact ⟨true, rfl, fun _ => Bool.and_eq_true_iff.mp hallowed⟩
    · rw [if_neg hallowed]
      exact ⟨false, rfl, nofun⟩

theorem Covered.tail {part : ChainEvaluation Entry} {later : List (ChainEvaluation Entry)}
    (h : Covered path cwd (part :: later)) : Covered path cwd later := by
  obtain ⟨allowed, hscan, -⟩ := exists_scanPreludes_cons path cwd part later
  intro link hlink
  apply h link
  rw [hscan, List.zip_cons_cons]
  exact List.mem_cons_of_mem (part, allowed) hlink

theorem Covered.allowed {before later : List (ChainEvaluation Entry)}
    {part : ChainEvaluation Entry} (h : Covered path cwd (before ++ part :: later))
    (hpart : part.evaluation.allowlistSatisfied = false) :
    part.isPreludeOnly path cwd = true ∧
      reachesTrustedSkillExecution path cwd part (scanPreludes path cwd later).2 = true := by
  induction before with
  | nil =>
      obtain ⟨allowed, hscan, hallowed⟩ := exists_scanPreludes_cons path cwd part later
      have hlink := h (part, allowed)
      rw [List.nil_append, hscan, List.zip_cons_cons] at hlink
      rcases hlink List.mem_cons_self with hsat | hyes
      · rw [hpart] at hsat
        exact absurd hsat Bool.false_ne_true
      · exact hallowed hyes
  | cons first before ih =>
      rw [List.cons_append] at h
      exact ih h.tail

theorem covered_of_satisfied {context : ShellAllowlistContext Entry} {command : JsString}
    {parts : List (ChainEvaluation Entry)}
    (hparts : chainEvaluations context command = some (some parts))
    (h : (evaluateShellAllowlist context command).allowlistSatisfied = true) :
    Covered context.path context.cwd parts := by
  unfold evaluateShellAllowlist at h
  by_cases hcontinues : hasShellLineContinuation command = true
  · rw [if_pos hcontinues] at h
    exact absurd h Bool.false_ne_true
  · rw [if_neg hcontinues, hparts] at h
    exact covered_of_collectParts h

/-! ## The links of one part -/

theorem exists_linked {part : ChainEvaluation Entry} {later : List (ChainEvaluation Entry)}
    {skill : JsString} (hop : FollowedByAnd part)
    (h : skill ∈ (scanPreludes path cwd later).2) : ∃ other, Linked part later other := by
  obtain ⟨between, found, rest, hl, hpass, hfound⟩ := reaches_execution h
  obtain ⟨other, hother⟩ := List.exists_mem_of_ne_nil _ hfound
  exact ⟨other, hop, between, found, rest, hl, hpass, hother⟩

theorem exists_linked_of_reaches {part : ChainEvaluation Entry}
    {later : List (ChainEvaluation Entry)} {skills : List JsString} (hop : FollowedByAnd part)
    (h : Through.Reaches FollowedByAnd (RunsOneOf skills) later) :
    ∃ skill ∈ skills, Linked part later skill := by
  obtain ⟨between, found, rest, hl, hpass, skill, hskill, hfound⟩ := h
  exact ⟨skill, hskill, hop, between, found, rest, hl, hpass, hfound⟩

theorem Linked.open {part : ChainEvaluation Entry} {later : List (ChainEvaluation Entry)}
    {skill : JsString} {skills : List JsString} (hskill : skill ∈ skills)
    (h : Linked part later skill) : Through.Open HandsOn (RunsOneOf skills) later := by
  obtain ⟨-, between, found, rest, hl, hpass, hfound⟩ := h
  apply Through.Reaches.open
  exact ⟨between, found, rest, hl, fun link hlink _ => hpass link hlink, skill, hskill, hfound⟩

/-- What the scan says of an allowed part: `&&` follows it, some skill is reachable, and one of its
own when it shows a document. -/
theorem reachable_of_allowed {part : ChainEvaluation Entry} {reachable : List JsString}
    (h : reachesTrustedSkillExecution path cwd part reachable = true) :
    FollowedByAnd part ∧ (∃ skill, skill ∈ reachable) ∧
      (part.preludeSkillIds path cwd ≠ [] →
        ∃ skill ∈ part.preludeSkillIds path cwd, skill ∈ reachable) := by
  rw [reachesTrustedSkillExecution] at h
  obtain ⟨hop, hids⟩ := Bool.and_eq_true_iff.mp h
  refine ⟨beq_iff_eq.mp hop, ?_⟩
  by_cases hnone : part.preludeSkillIds path cwd = []
  · rw [if_pos hnone] at hids
    have hne : reachable ≠ [] := by
      intro hnil
      rw [hnil] at hids
      exact absurd hids Bool.false_ne_true
    exact ⟨List.exists_mem_of_ne_nil reachable hne, fun hsome => absurd hnone hsome⟩
  · rw [if_neg hnone] at hids
    obtain ⟨skill, hskill, hmem⟩ := List.any_eq_true.mp hids
    have hreachable : skill ∈ reachable := List.contains_iff_mem.mp hmem
    exact ⟨⟨skill, hreachable⟩, fun _ => ⟨skill, hskill, hreachable⟩⟩

/-! ## The links of a chain -/

theorem PreludesLinked.executionsHandOn {parts : List (ChainEvaluation Entry)}
    (h : PreludesLinked path cwd parts) : ExecutionsHandOn path cwd parts := by
  intro before part later hparts
  have hunsatisfied : ∀ skill ∈ part.preludeSkillIds path cwd,
      part.evaluation.allowlistSatisfied = false := by
    intro skill hskill
    rw [ChainEvaluation.preludeSkillIds] at hskill
    by_cases honly : part.isPreludeOnly path cwd = true
    · rw [ChainEvaluation.isPreludeOnly] at honly
      exact (Bool.not_eq_true' _).mp (Bool.and_eq_true_iff.mp honly).1
    · rw [if_neg honly] at hskill
      exact absurd hskill List.not_mem_nil
  have hlinked : ∀ skill ∈ part.preludeSkillIds path cwd, Linked part later skill :=
    fun skill hskill => (h before part later hparts (hunsatisfied skill hskill)).2 skill hskill
  constructor
  · intro hids
    obtain ⟨skill, hskill⟩ := List.exists_mem_of_ne_nil _ hids
    exact (hlinked skill hskill).open hskill
  · exact fun _ _ other hother _ => hlinked other hother

theorem ExecutionsHandOn.preludesLinked {parts : List (ChainEvaluation Entry)}
    (hcovered : Covered path cwd parts) (h : ExecutionsHandOn path cwd parts) :
    PreludesLinked path cwd parts := by
  intro before part later hparts hpart
  rw [hparts] at hcovered
  have hallowed := (hcovered.allowed hpart).2
  obtain ⟨hop, ⟨reached, hreached⟩, hown⟩ := reachable_of_allowed hallowed
  obtain ⟨hopen, hall⟩ := h before part later hparts
  refine ⟨exists_linked hop hreached, ?_⟩
  intro skill hskill
  have hids : part.preludeSkillIds path cwd ≠ [] := List.ne_nil_of_mem hskill
  obtain ⟨own, hmem, hreachable⟩ := hown hids
  obtain ⟨first, hfirst, hlinked⟩ :=
    exists_linked_of_reaches hop (reaches_oneOf hmem hreachable (hopen hids))
  exact hall first hfirst skill hskill hlinked

/-- In a satisfied chain every prelude is linked to its skills exactly when the executions before
them hand on. -/
theorem preludes_linked_iff (context : ShellAllowlistContext Entry) (command : JsString)
    (parts : List (ChainEvaluation Entry))
    (hparts : chainEvaluations context command = some (some parts))
    (hsatisfied : (evaluateShellAllowlist context command).allowlistSatisfied = true) :
    PreludesLinked context.path context.cwd parts ↔
      ExecutionsHandOn context.path context.cwd parts :=
  ⟨fun h => h.executionsHandOn,
    fun h => h.preludesLinked (covered_of_satisfied hparts hsatisfied)⟩

end Links

section Samples

attribute [local instance] asciiCase

/-- Executables are known by their names, relative paths start in `/w`, and the allowlist has the
given names. -/
def namedContext (names : List JsString) : ShellAllowlistContext JsString where
  host :=
    { resolveCommandResolutionFromArgv := fun argv =>
        argv.head?.map fun name =>
          ⟨⟨name, name, some (js "/bin/" ++ name), none⟩, some argv, false⟩
      extractShellWrapperInlineCommand := fun _ => none
      resolveShellWrapperTransportArgv := fun _ => none
      stripWindowsShellWrapper := id }
  path :=
    { expandHomePrefix := id
      isAbsolute := fun path => path.head? == some slash
      resolve := fun paths => (js "/").intercalate paths
      processCwd := js "/w" }
  cwd := none
  platform := some (js "linux")
  evaluateExecAllowlist analysis :=
    let entries := analysis.segments.map fun segment =>
      segment.argv.head?.filter (names.contains ·)
    { allowlistSatisfied := !analysis.segments.isEmpty && entries.all Option.isSome
      allowlistMatches := entries.filterMap id
      segmentAllowlistEntries := entries
      segmentSatisfiedBy := entries.map (·.map fun _ => .allowlist) }

def cutCommand : JsString := js "cat skills/a/SKILL.md && b-wrapper ; a-wrapper"

def showsThenRuns : Option (Option (List (ChainEvaluation JsString))) → Bool
  | some (some [shown, run, _]) =>
      !shown.evaluation.allowlistSatisfied &&
        (shown.preludeSkillIds (namedContext []).path none).contains (js "a") &&
        !run.trustedSkillIds.contains (js "a") && run.opToNext == some .semi
  | _ => false

theorem prelude_behind_semicolon :
    ∃ parts, chainEvaluations (namedContext [js "a-wrapper", js "b-wrapper"]) cutCommand =
        some (some parts) ∧
      (evaluateShellAllowlist (namedContext [js "a-wrapper", js "b-wrapper"])
        cutCommand).allowlistSatisfied = true ∧
      ¬ PreludesLinked (namedContext [js "a-wrapper", js "b-wrapper"]).path none parts := by
  have hchain : showsThenRuns (chainEvaluations (namedContext [js "a-wrapper", js "b-wrapper"])
      cutCommand) = true := by
    decide +kernel
  unfold showsThenRuns at hchain
  split at hchain
  · rename_i shown run last hparts
    simp only [Bool.and_eq_true, Bool.not_eq_true', List.contains_iff_mem, beq_iff_eq] at hchain
    obtain ⟨⟨⟨hshown, hskill⟩, hrun⟩, hop⟩ := hchain
    refine ⟨[shown, run, last], hparts, by decide +kernel, ?_⟩
    intro hlinked
    have hreaches := ((hlinked [] shown [run, last] rfl hshown).2 (js "a") hskill).2
    rcases Through.reaches_cons.mp hreaches with hruns | ⟨hand, -⟩
    · have hmem : run.trustedSkillIds.contains (js "a") = true := List.contains_iff_mem.mpr hruns
      rw [hrun] at hmem
      exact absurd hmem Bool.false_ne_true
    · rw [FollowedByAnd, hop] at hand
      exact absurd hand (by decide)
  · exact absurd hchain Bool.false_ne_true

/-- The skill that is shown runs behind its document and the marker. -/
def shownCommand : JsString :=
  js "cat skills/a/SKILL.md && printf '\\n---CMD---\\n' && a-wrapper"

theorem preludes_linked_iff_shown :
    ∃ parts, chainEvaluations (namedContext [js "a-wrapper"]) shownCommand = some (some parts) ∧
      (PreludesLinked (namedContext [js "a-wrapper"]).path none parts ↔
        ExecutionsHandOn (namedContext [js "a-wrapper"]).path none parts) := by
  have hchain : ((chainEvaluations (namedContext [js "a-wrapper"]) shownCommand).any
      Option.isSome) = true := by
    decide +kernel
  obtain ⟨inner, hinner, hsome⟩ := (Option.any_eq_true _ _).mp hchain
  obtain ⟨parts, hparts⟩ := Option.isSome_iff_exists.mp hsome
  rw [hparts] at hinner
  exact ⟨parts, hinner, preludes_linked_iff (namedContext [js "a-wrapper"]) shownCommand parts
    hinner (by decide +kernel)⟩

end Samples

end GreenchClaw.Exec
