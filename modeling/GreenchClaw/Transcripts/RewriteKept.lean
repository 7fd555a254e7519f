import GreenchClaw.Transcripts.RewriteRun

/-!
# When a rewrite keeps the tree

The loop gives references their new names as far as the copies are there; a reference that an entry has to
itself, or to an entry after it, keeps its old name.
-/

namespace GreenchClaw.Transcripts

open GreenchClaw.Js ParentLinks

variable {μ δ : Type}

/-! ## The names after the loop -/

theorem exists_final_names {replacementsById : Map μ} {rename : JsString → JsString}
    {rest copies : List (SessionEntry μ δ)} (h : Copies replacementsById rename rest copies)
    (hdistinct : (rest.map SessionEntry.id).Nodup) :
    ∃ final : JsString → JsString,
      (∀ id, id ∉ rest.map SessionEntry.id → final id = rename id) ∧
        List.Forall₂ (fun entry copy => final entry.id = copy.id) rest copies := by
  induction rest generalizing rename copies with
  | nil =>
      cases copies with
      | nil => exact ⟨rename, fun id _ => rfl, List.Forall₂.nil⟩
      | cons copy copies => exact absurd h id
  | cons entry rest ih =>
      cases copies with
      | nil => exact absurd h id
      | cons copy copies =>
          rw [List.map_cons, List.nodup_cons] at hdistinct
          obtain ⟨final, hothers, hnames⟩ := ih h.2.2 hdistinct.2
          refine ⟨final, ?_, List.Forall₂.cons ?_ hnames⟩
          · intro id hid
            rw [List.map_cons, List.mem_cons, not_or] at hid
            rw [hothers id hid.2, Function.update_of_ne hid.1]
          · rw [hothers entry.id hdistinct.1, Function.update_self]

def SummariesFollow (rename : JsString → JsString) (entry : SessionEntry μ δ) : Prop :=
  match entry.data with
  | .branchSummary fromId _ _ _ =>
      (entry.parentId.map rename).getD (js "root") = rename fromId ↔
        fromId = entry.parentId.getD (js "root")
  | _ => True

/-- What the loop writes for an entry is what it should when the references lead to copies. -/
theorem writtenData_eq_iff {replacementsById : Map μ}
    {replacements : List (TranscriptRewriteReplacement μ)} {rename final : JsString → JsString}
    {entry : SessionEntry μ δ} {notYet : List JsString}
    (hlisted : replacementFor replacementsById entry = listedFor replacements entry)
    (hsame : ∀ id ∈ notYet, rename id = id ∧ final id ≠ id)
    (hothers : ∀ id, id ∉ notYet → final id = rename id)
    (hparent : entry.parentId.map rename = entry.parentId.map final)
    (hsummary : SummariesFollow final entry) :
    writtenData replacementsById rename entry =
        (replacedData replacements entry).mapReferences final ↔ CopiedExactly notYet entry := by
  have href : ∀ id, rename id = final id ↔ id ∉ notYet := by
    intro id
    constructor
    · intro heq hmem
      rw [(hsame id hmem).1] at heq
      exact (hsame id hmem).2 heq.symm
    · exact fun hmem => (hothers id hmem).symm
  rw [writtenData, replacedData, hlisted]
  cases hmessage : listedFor replacements entry with
  | some message =>
      have hdata : ∃ old, entry.data = .message old := by
        rw [listedFor] at hmessage
        cases hdata : entry.data with
        | message old => exact ⟨old, rfl⟩
        | _ =>
            rw [hdata] at hmessage
            exact absurd hmessage (by simp)
      obtain ⟨old, hold⟩ := hdata
      rw [CopiedExactly, hold]
      exact iff_of_true rfl trivial
  | none =>
      rw [copyData, CopiedExactly]
      rw [SummariesFollow] at hsummary
      cases hdata : entry.data with
      | compaction summary firstKeptEntryId tokensBefore details fromHook =>
          simp only [SessionEntryData.mapReferences, SessionEntryData.compaction.injEq, true_and,
            and_true, href]
      | label targetId text =>
          simp only [SessionEntryData.mapReferences, SessionEntryData.label.injEq, and_true, href]
      | branchSummary fromId summary details fromHook =>
          rw [hdata] at hsummary
          simp only [SessionEntryData.mapReferences, SessionEntryData.branchSummary.injEq, and_true,
            hparent, hsummary]
      | sessionInfo name =>
          simp only [SessionEntryData.mapReferences, SessionEntryData.sessionInfo.injEq]
          cases name with
          | none => simp
          | some text => simp
      | message message => exact iff_of_true rfl trivial
      | thinkingLevelChange thinkingLevel => exact iff_of_true rfl trivial
      | modelChange provider modelId => exact iff_of_true rfl trivial
      | custom customType data => exact iff_of_true rfl trivial
      | customMessage customType content display details => exact iff_of_true rfl trivial

theorem copies_iff {replacementsById : Map μ} {replacements : List (TranscriptRewriteReplacement μ)}
    {rename final : JsString → JsString} {rest copies : List (SessionEntry μ δ)}
    {parentId : Option JsString} (hcopies : Copies replacementsById rename rest copies)
    (hlisted : ∀ entry ∈ rest, replacementFor replacementsById entry = listedFor replacements entry)
    (hdistinct : (rest.map SessionEntry.id).Nodup) (hlinked : LinkedEntries parentId rest)
    (hparent : ∀ id ∈ parentId, id ∉ rest.map SessionEntry.id)
    (hsame : ∀ id ∈ rest.map SessionEntry.id, rename id = id ∧ final id ≠ id)
    (hothers : ∀ id, id ∉ rest.map SessionEntry.id → final id = rename id)
    (hnames : List.Forall₂ (fun entry copy => final entry.id = copy.id) rest copies)
    (hsummaries : ∀ entry ∈ rest, SummariesFollow final entry) :
    List.Forall₂ (IsCopy replacements final) rest copies ↔ AllCopiedExactly rest := by
  induction rest generalizing rename copies parentId with
  | nil =>
      cases hnames with
      | nil => exact iff_of_true List.Forall₂.nil trivial
  | cons entry rest ih =>
      cases hnames with
      | @cons _ copy _ copies hname hnames =>
          have hhead : entry.parentId.map rename = entry.parentId.map final := by
            rw [hlinked.1]
            cases hup : parentId with
            | none => rfl
            | some up => rw [Option.map_some, Option.map_some, hothers up (hparent up hup)]
          have hdata := writtenData_eq_iff (hlisted entry List.mem_cons_self) hsame hothers hhead
            (hsummaries entry List.mem_cons_self)
          have hone : IsCopy replacements final entry copy ↔
              CopiedExactly (entry.id :: rest.map SessionEntry.id) entry := by
            rw [← List.map_cons, ← hdata, ← hcopies.2.1]
            constructor
            · exact fun h => h.data
            · exact fun h => ⟨hname.symm, hcopies.1.trans hhead, h⟩
          rw [List.map_cons, List.nodup_cons] at hdistinct
          have hrest := ih hcopies.2.2
            (fun other hmem => hlisted other (List.mem_cons_of_mem _ hmem)) hdistinct.2 hlinked.2 (by
              intro id hid
              rw [← Option.some.inj hid]
              exact hdistinct.1) (by
              intro id hid
              have hne : id ≠ entry.id := fun heq => hdistinct.1 (heq ▸ hid)
              rw [Function.update_of_ne hne]
              exact hsame id (List.mem_cons_of_mem _ hid)) (by
              intro id hid
              by_cases heq : id = entry.id
              · rw [heq, Function.update_self, hname]
              · rw [Function.update_of_ne heq]
                apply hothers
                rw [List.map_cons, List.mem_cons, not_or]
                exact ⟨heq, hid⟩) hnames
            (fun other hmem => hsummaries other (List.mem_cons_of_mem _ hmem))
          rw [List.forall₂_cons, AllCopiedExactly, hone, hrest]

/-! ## The branch that is rewritten -/

section Rewrite

variable {host : EntryHost} {estimateMessageBytes : μ → ℕ} {state : TranscriptFileState μ δ}
  {replacements : List (TranscriptRewriteReplacement μ)} {branch : List (SessionEntry μ δ)}

theorem WellFormed.exists_branch (h : WellFormed state) :
    ∃ branch, BranchOf state.entries state.leafId branch := by
  cases hleaf : state.leafId with
  | none => exact ⟨[], Path.root⟩
  | some id =>
      obtain ⟨branch, hbranch, -⟩ := h.tree.exists_branch (h.leaf id hleaf)
      exact ⟨branch, hbranch⟩

theorem WellFormed.replacementFor_eq (h : WellFormed state)
    (replacements : List (TranscriptRewriteReplacement μ)) (hbranch : BranchOf state.entries state.leafId branch) :
    ∀ entry ∈ branch,
      replacementFor (replacementsById replacements) entry = listedFor replacements entry :=
  fun entry hmem => Transcripts.replacementFor_eq (h.named entry (h.tree.mem_of_branch hbranch hmem))

/-- The first entry of the branch that is replaced, as the loop over the branch finds it. -/
theorem WellFormed.dropWhile_eq (h : WellFormed state)
    (hbranch : BranchOf state.entries state.leafId branch) :
    (branch.dropWhile fun entry =>
        !(replacementFor (replacementsById replacements) entry).isSome) =
      branch.dropWhile fun entry => (listedFor replacements entry).isNone := by
  have hsame := h.replacementFor_eq replacements hbranch
  clear hbranch
  induction branch with
  | nil => rfl
  | cons entry rest ih =>
      have hrest := ih fun other hmem => hsame other (List.mem_cons_of_mem _ hmem)
      rw [List.dropWhile_cons, List.dropWhile_cons, hsame entry List.mem_cons_self, hrest,
        Option.not_isSome]

theorem rewrite_of_unlisted (h : WellFormed state)
    (hbranch : BranchOf state.entries state.leafId branch)
    (hnone : (branch.dropWhile fun entry => (listedFor replacements entry).isNone) = []) :
    ∃ result, rewriteTranscriptEntriesInState host estimateMessageBytes state replacements =
      .ok (state, result) := by
  have hget := @getBranch_of_path _ _ state h.tree none _ hbranch
  rw [rewriteTranscriptEntriesInState]
  simp only
  split
  · exact ⟨_, rfl⟩
  · rw [hget]
    cases hlist : branch with
    | nil => exact ⟨_, rfl⟩
    | cons entry rest =>
        rw [← hlist]
        simp only [hlist]
        rw [← hlist, h.dropWhile_eq hbranch, hnone]
        exact ⟨_, rfl⟩

def leftBefore (state : TranscriptFileState μ δ) (entry : SessionEntry μ δ) : TranscriptFileState μ δ :=
  { state with leafId := entry.parentId }

theorem renameBy_empty : renameBy Map.empty = id := by
  funext id
  rfl

theorem branch_split (hbranch : BranchOf state.entries state.leafId branch)
    {first : SessionEntry μ δ} {rest : List (SessionEntry μ δ)}
    (hlisted : (branch.dropWhile fun entry => (listedFor replacements entry).isNone) = first :: rest) :
    branch = (branch.takeWhile fun entry => (listedFor replacements entry).isNone) ++ first :: rest ∧
      LinkedEntries none (branch.takeWhile fun entry => (listedFor replacements entry).isNone) ∧
      lastId none (branch.takeWhile fun entry => (listedFor replacements entry).isNone) =
        first.parentId ∧
      LinkedEntries first.parentId (first :: rest) ∧ (listedFor replacements first).isSome = true := by
  have hsplit := List.takeWhile_append_dropWhile (p := fun entry : SessionEntry μ δ =>
    (listedFor replacements entry).isNone) (l := branch)
  rw [hlisted] at hsplit
  have hlinked := (hbranch.linked fun _ _ => id_of_byId).1
  rw [← hsplit, linked_append] at hlinked
  have hparent := hlinked.2.1
  have hfirst := List.head?_dropWhile_not (fun entry : SessionEntry μ δ =>
    (listedFor replacements entry).isNone) branch
  rw [hlisted] at hfirst
  refine ⟨hsplit.symm, hlinked.1, hparent.symm, hparent ▸ hlinked.2, ?_⟩
  rw [← Option.not_isNone]
  simpa using hfirst

theorem roundReady_leftBefore (h : WellFormed state) (hunseen : Unseen host state)
    {entry : SessionEntry μ δ} (hmem : entry ∈ state.entries) :
    RoundReady host (leftBefore state entry) Map.empty entry.parentId := by
  constructor
  · exact hunseen
  · rfl
  · intro heq
    exact (h.tree.parent_mem hmem heq).2 rfl
  · rw [renameBy_empty, Option.map_id]
    rfl
  · intro id hid
    exact (h.tree.parent_mem hmem hid).1
  · intro id new hget
    exact absurd hget (by simp)

theorem rewrite_of_listed (h : WellFormed state) (hunseen : Unseen host state)
    (hbranch : BranchOf state.entries state.leafId branch) {first : SessionEntry μ δ}
    {rest : List (SessionEntry μ δ)}
    (hlisted : (branch.dropWhile fun entry => (listedFor replacements entry).isNone) = first :: rest) :
    ∃ final copies result,
      rewriteTranscriptEntriesInState host estimateMessageBytes state replacements =
          .ok (final, result) ∧
        RanFrom host (replacementsById replacements) id (leftBefore state first) (first :: rest) final
          copies := by
  obtain ⟨hsplit, -, -, hlinked, hfirst⟩ := branch_split hbranch hlisted
  have hin : ∀ entry ∈ first :: rest, entry ∈ state.entries := by
    intro entry hmem
    apply h.tree.mem_of_branch hbranch
    rw [hsplit]
    exact List.mem_append_right _ hmem
  have hmem : first ∈ branch := by
    rw [hsplit]
    exact List.mem_append_right _ List.mem_cons_self
  have hready := roundReady_leftBefore h hunseen (hin first List.mem_cons_self)
  obtain ⟨final, copies, hloop, hran⟩ : ∃ final copies, appendRewritten host
      (replacementsById replacements) (first :: rest) (leftBefore state first) Map.empty =
        .ok (final, copies) ∧ _ := appendRewritten_spec hready hlinked
    (fun entry hentry => h.tree.named entry (hin entry hentry)) (by
      intro entry hentry
      have hnames := h.references entry (hin entry hentry)
      cases hdata : entry.data with
      | label targetId text =>
          rw [hdata] at hnames
          exact hnames
      | _ => trivial)
  rw [renameBy_empty] at hran
  have hrequested : (replacementsById replacements).entries ≠ [] := by
    intro hempty
    have hget := h.replacementFor_eq replacements hbranch first hmem
    rw [← hget, replacementFor] at hfirst
    cases hdata : first.data with
    | message message =>
        rw [hdata] at hfirst
        simp only [Map.get, hempty] at hfirst
        exact absurd hfirst (by simp [Record.get])
    | _ =>
        rw [hdata] at hfirst
        exact absurd hfirst (by simp)
  have hstart : branchBefore state first = .ok (leftBefore state first) := by
    rw [branchBefore]
    cases hup : first.parentId with
    | none =>
        rw [leftBefore, hup]
        rfl
    | some up =>
        obtain ⟨hpresent, hname⟩ := h.tree.parent_mem (hin first List.mem_cons_self) hup
        have hfound : ¬(byId state.entries up).isNone = true := by
          rw [Option.isNone_iff_eq_none, ← Ne, Option.ne_none_iff_isSome, byId_isSome_iff]
          exact hpresent
        rw [Option.filter_some, if_pos (decide_eq_true hname), leftBefore, hup]
        simp only [TranscriptFileState.branch, if_neg hfound]
  have hget := @getBranch_of_path _ _ state h.tree none _ hbranch
  have hrun : ∃ result, rewriteTranscriptEntriesInState host estimateMessageBytes state replacements =
      .ok (final, result) := by
    rw [rewriteTranscriptEntriesInState]
    simp only [if_neg hrequested, hget]
    cases hlist : branch with
    | nil => exact absurd (hlist ▸ hmem) List.not_mem_nil
    | cons entry others =>
        simp only
        rw [← hlist, h.dropWhile_eq hbranch, hlisted]
        apply Exists.intro
        rw [Results.bind_eq_ok_iff]
        refine ⟨leftBefore state first, hstart, ?_⟩
        rw [Results.bind_eq_ok_iff]
        exact ⟨(final, copies), hloop, rfl⟩
  obtain ⟨result, hresult⟩ := hrun
  exact ⟨final, copies, result, hresult, hran⟩

/-! ## The state after the loop -/

structure LoopLeaves (state final : TranscriptFileState μ δ) (front copies : List (SessionEntry μ δ)) :
    Prop where
  tree : ParentTree final.entries
  kept : ∀ id entry, byId state.entries id = some entry → byId final.entries id = some entry
  active : final.getBranch none = some (front ++ copies)

theorem loopLeaves (h : WellFormed state) (hbranch : BranchOf state.entries state.leafId branch)
    {first : SessionEntry μ δ} {rest copies : List (SessionEntry μ δ)} {final : TranscriptFileState μ δ}
    (hlisted : (branch.dropWhile fun entry => (listedFor replacements entry).isNone) = first :: rest)
    (hran : RanFrom host (replacementsById replacements) id (leftBefore state first) (first :: rest)
      final copies) :
    LoopLeaves state final (branch.takeWhile fun entry => (listedFor replacements entry).isNone)
      copies := by
  obtain ⟨hsplit, hfront, hlast, -, -⟩ := branch_split hbranch hlisted
  have hentries : final.entries = state.entries ++ copies := hran.entries
  have hin : ∀ entry ∈ branch, entry ∈ state.entries := fun entry => h.tree.mem_of_branch hbranch
  have hfresh : ∀ copy ∈ copies, copy.id ∉ state.entries.map SessionEntry.id := fun copy hmem =>
    (hran.fresh copy hmem).1
  have hnamed : ∀ copy ∈ copies, copy.id ≠ [] := by
    intro copy hmem heq
    have hlength := (hran.fresh copy hmem).2
    rw [heq] at hlength
    exact absurd hlength (by simp)
  have hfirst : first ∈ state.entries := by
    apply hin
    rw [hsplit]
    exact List.mem_append_right _ List.mem_cons_self
  have htree : ParentTree final.entries := by
    rw [hentries]
    exact h.tree.append_linked (fun id hid => (h.tree.parent_mem hfirst hid).1) hran.linked hran.distinct
      hfresh hnamed
  have hkept : ∀ id entry, byId state.entries id = some entry → byId final.entries id = some entry := by
    intro id entry hfind
    rw [hentries]
    exact byId_append hfresh hfind
  have hfound : ∀ entry ∈ final.entries, byId final.entries entry.id = some entry := fun entry hmem =>
    (byId_eq_some_iff htree.distinct).mpr ⟨hmem, rfl⟩
  have hpath : BranchOf final.entries first.parentId
      (branch.takeWhile fun entry => (listedFor replacements entry).isNone) := by
    have hgrown := Path.root.append hfront (by
      intro entry hmem
      apply hfound
      rw [hentries]
      apply List.mem_append_left
      exact hin entry ((List.takeWhile_prefix _).subset hmem))
    change BranchOf final.entries (lastId none _) _ at hgrown
    rw [hlast, List.nil_append] at hgrown
    exact hgrown
  refine ⟨htree, hkept, getBranch_of_path htree ?_⟩
  rw [Option.none_or, hran.leafId]
  apply hpath.append hran.linked
  intro copy hmem
  apply hfound
  rw [hentries]
  exact List.mem_append_right _ hmem

theorem LoopLeaves.getBranch {final : TranscriptFileState μ δ} {front copies : List (SessionEntry μ δ)}
    (hleaves : LoopLeaves state final front copies) (h : WellFormed state) {id : JsString}
    (hid : id ∈ state.ids) : final.getBranch (some id) = state.getBranch (some id) := by
  obtain ⟨path, hpath, -⟩ := h.tree.exists_branch hid
  have hold : state.getBranch (some id) = some path := getBranch_of_path h.tree hpath
  have hnew : final.getBranch (some id) = some path :=
    getBranch_of_path hleaves.tree (hpath.mono hleaves.kept)
  rw [hold, hnew]

theorem rooted_of_tree {final : TranscriptFileState μ δ} (htree : ParentTree final.entries) :
    ∀ id ∈ final.ids, ∃ path, BranchOf final.entries (some id) path ∧
      final.getBranch (some id) = some path := by
  intro id hid
  obtain ⟨path, hpath, -⟩ := htree.exists_branch hid
  exact ⟨path, hpath, getBranch_of_path htree hpath⟩

/-! ## The names that the copies have -/

theorem map_names {final : JsString → JsString} {rest copies : List (SessionEntry μ δ)}
    (hnames : List.Forall₂ (fun entry copy => final entry.id = copy.id) rest copies) :
    rest.map (fun entry => final entry.id) = copies.map SessionEntry.id := by
  induction hnames with
  | nil => rfl
  | cons hname _ ih => rw [List.map_cons, List.map_cons, hname, ih]

theorem names_of_copies {final : JsString → JsString} {rest copies : List (SessionEntry μ δ)}
    (hnames : List.Forall₂ (fun entry copy => final entry.id = copy.id) rest copies)
    (hfresh : ∀ copy ∈ copies, copy.id ∉ state.ids ∧ 8 ≤ copy.id.length)
    (hdistinct : (copies.map SessionEntry.id).Nodup) :
    (∀ entry ∈ rest, final entry.id ∉ state.ids ∧ 8 ≤ (final entry.id).length) ∧
      ∀ entry ∈ rest, ∀ other ∈ rest, final entry.id = final other.id → entry.id = other.id := by
  have hmap := map_names hnames
  constructor
  · intro entry hmem
    have hin : final entry.id ∈ copies.map SessionEntry.id := by
      rw [← hmap]
      exact List.mem_map_of_mem hmem
    obtain ⟨copy, hcopy, hid⟩ := List.mem_map.mp hin
    rw [← hid]
    exact hfresh copy hcopy
  · intro entry hmem other hother heq
    rw [← hmap] at hdistinct
    rw [List.inj_on_of_nodup_map hdistinct hmem hother heq]

theorem summariesFollow {final : JsString → JsString} {first : SessionEntry μ δ}
    {rest : List (SessionEntry μ δ)} (hlinked : LinkedEntries first.parentId (first :: rest))
    (hfirst : (listedFor replacements first).isSome = true)
    (hreferences : ∀ entry ∈ first :: rest, entry.data.NamesEntries state.ids)
    (hothers : ∀ id, id ∉ (first :: rest).map SessionEntry.id → final id = id)
    (hfresh : ∀ entry ∈ first :: rest, final entry.id ∉ state.ids ∧ 8 ≤ (final entry.id).length)
    (hinjective : ∀ entry ∈ first :: rest, ∀ other ∈ first :: rest,
      final entry.id = final other.id → entry.id = other.id) :
    ∀ entry ∈ first :: rest, SummariesFollow final entry := by
  intro entry hmem
  rw [SummariesFollow]
  cases hdata : entry.data with
  | branchSummary fromId summary details fromHook =>
      have hne : entry ≠ first := by
        intro heq
        rw [listedFor, ← heq, hdata] at hfirst
        exact absurd hfirst (by simp)
      obtain ⟨up, hup, hwhere⟩ := hlinked.2.parent_mem entry
        ((List.mem_cons.mp hmem).resolve_left hne)
      rw [← List.mem_cons, ← List.map_cons] at hwhere
      obtain ⟨parent, hparent, rfl⟩ := List.mem_map.mp hwhere
      have hnames := hreferences entry hmem
      rw [hdata] at hnames
      simp only [hup, Option.map_some, Option.getD_some]
      constructor
      · intro heq
        by_cases hin : fromId ∈ (first :: rest).map SessionEntry.id
        · obtain ⟨source, hsource, rfl⟩ := List.mem_map.mp hin
          exact (hinjective parent hparent source hsource heq).symm
        · -- a name of the session, or that of the root, is not new
          rw [hothers fromId hin] at heq
          have hnew := hfresh parent hparent
          rw [heq] at hnew
          cases hnames with
          | inl hroot =>
              rw [hroot] at hnew
              exact absurd hnew.2 (by decide)
          | inr hold => exact absurd hold hnew.1
      · exact fun heq => (congrArg final heq).symm
  | _ => trivial

end Rewrite

/-- A rewrite keeps the tree exactly when no entry that is appended again refers to itself or to a later
one, its branch summaries name their parents and its session names are trimmed. -/
theorem rewrite_keeps_tree_iff (host : EntryHost) (estimateMessageBytes : μ → ℕ)
    (state : TranscriptFileState μ δ) (replacements : List (TranscriptRewriteReplacement μ))
    (h : WellFormed state) (hunseen : Unseen host state) :
    RewriteKeepsTree host estimateMessageBytes state replacements ↔
      AllCopiedExactly (rewrittenSuffix state replacements) := by
  obtain ⟨branch, hbranch⟩ := h.exists_branch
  have hget : state.getBranch none = some branch := @getBranch_of_path _ _ state h.tree none _ hbranch
  rw [rewrittenSuffix, hget, Option.getD_some]
  cases hlisted : branch.dropWhile fun entry => (listedFor replacements entry).isNone with
  | nil =>
      obtain ⟨result, hrun⟩ : ∃ result, rewriteTranscriptEntriesInState host estimateMessageBytes state
        replacements = .ok (state, result) := rewrite_of_unlisted h hbranch hlisted
      have hall : (branch.takeWhile fun entry => (listedFor replacements entry).isNone) = branch := by
        have hsplit := List.takeWhile_append_dropWhile (p := fun entry : SessionEntry μ δ =>
          (listedFor replacements entry).isNone) (l := branch)
        rw [hlisted, List.append_nil] at hsplit
        exact hsplit
      apply iff_of_true _ trivial
      refine ⟨state, result, hrun, ⟨branch, [], id, hget, ?_, ?_⟩, ⟨[], (List.append_nil _).symm⟩,
        fun id _ => rfl, rooted_of_tree h.tree, fun _ => rfl⟩
      · rw [hall, List.append_nil]
        exact hget
      · rw [hlisted]
        exact ⟨fun id _ => rfl, fun entry hmem => absurd hmem List.not_mem_nil,
          fun entry hmem => absurd hmem List.not_mem_nil, List.Forall₂.nil⟩
  | cons first rest =>
      obtain ⟨hsplit, -, hlast, hlinked, hfirst⟩ := branch_split hbranch hlisted
      obtain ⟨final, copies, result, hrun, hran⟩ : ∃ final copies result,
          rewriteTranscriptEntriesInState host estimateMessageBytes state replacements =
            .ok (final, result) ∧ _ := rewrite_of_listed h hunseen hbranch hlisted
      have hleaves := loopLeaves h hbranch hlisted hran
      have hin : ∀ entry ∈ first :: rest, entry ∈ branch := by
        intro entry hmem
        rw [hsplit]
        exact List.mem_append_right _ hmem
      have hwhole := h.tree.nodup_branch hbranch
      rw [hsplit, List.map_append] at hwhole
      have hdistinct := (List.nodup_append.mp hwhole).2.1
      have hbefore : ∀ up ∈ first.parentId, up ∉ (first :: rest).map SessionEntry.id := by
        intro up hup hmem
        rw [← hlast] at hup
        cases lastName_mem hup with
        | inl hnone => exact absurd hnone (by simp)
        | inr hfront => exact (List.nodup_append.mp hwhole).2.2 up hfront up hmem rfl
      obtain ⟨names, hothers, hnames⟩ := exists_final_names hran.written hdistinct
      obtain ⟨hfresh, hinjective⟩ := @names_of_copies _ _ state _ _ _ hnames hran.fresh hran.distinct
      have hsummaries := summariesFollow hlinked hfirst
        (fun entry hmem => h.references entry (h.tree.mem_of_branch hbranch (hin entry hmem))) hothers
        hfresh hinjective
      have hiff := copies_iff hran.written
        (fun entry hmem => h.replacementFor_eq replacements hbranch entry (hin entry hmem)) hdistinct
        hlinked hbefore (by
          intro id hid
          obtain ⟨entry, hmem, rfl⟩ := List.mem_map.mp hid
          refine ⟨rfl, ?_⟩
          intro heq
          apply (hfresh entry hmem).1
          rw [heq]
          exact List.mem_map_of_mem (h.tree.mem_of_branch hbranch (hin entry hmem))) hothers hnames
        hsummaries
      rw [← hiff]
      constructor
      · rintro ⟨new, other, hrun', ⟨branch', copies', rename, hbranch', hactive, hrenamed⟩, -⟩
        rw [hget, Option.some.injEq] at hbranch'
        rw [hrun, Except.ok.injEq, Prod.mk.injEq] at hrun'
        rw [← hrun'.1, hleaves.active, ← hbranch', Option.some.injEq, List.append_cancel_left_eq] at hactive
        rw [← hbranch', hlisted] at hrenamed
        have hsame : names = rename := by
          have hmap := (map_names hnames).trans (congrArg _ hactive)
          rw [← map_names (hrenamed.copies.imp fun _ _ hcopy => hcopy.id.symm), List.map_inj_left] at hmap
          funext id
          by_cases hid : id ∈ (first :: rest).map SessionEntry.id
          · obtain ⟨entry, hmem, rfl⟩ := List.mem_map.mp hid
            exact hmap entry hmem
          · rw [hothers id hid, hrenamed.others id hid]
            rfl
        rw [hsame, hactive]
        exact hrenamed.copies
      · intro hcopies
        refine ⟨final, result, hrun, ⟨branch, copies, names, hget, hleaves.active, ?_⟩,
          ⟨copies, hran.entries⟩, fun id hid => hleaves.getBranch h hid, rooted_of_tree hleaves.tree, ?_⟩
        · rw [hlisted]
          exact ⟨hothers, fun entry hmem => (hfresh entry hmem).1, hinjective, hcopies⟩
        · intro hnone
          rw [hget] at hnone
          rw [hnone first (hin first List.mem_cons_self)] at hfirst
          exact absurd hfirst (by simp)

section Samples

/-- UUIDs that start with a digit. -/
def countingHost : EntryHost where
  randomUUID := fun n => UInt16.ofNat (48 + n % 10) :: List.replicate (n + 8) (unit 'a')
  randomUUID_injective := by
    intro first second heq
    have hlength := congrArg List.length heq
    simp only [List.length_cons, List.length_replicate] at hlength
    omega
  length_randomUUID := by
    intro n
    simp only [List.length_cons, List.length_replicate]
    omega
  now := fun _ => js "2026-01-01T00:00:00.000Z"

def sampleEntry (id : JsString) (parentId : Option JsString) (data : SessionEntryData ℕ Unit) :
    SessionEntry ℕ Unit :=
  { id, parentId, timestamp := js "2026-01-01T00:00:00.000Z", data }

def compactedSession (firstKeptEntryId : JsString) : TranscriptFileState ℕ Unit :=
  { entries :=
      [sampleEntry (js "user") none (.message 1), sampleEntry (js "tool") (some (js "user")) (.message 200),
        sampleEntry (js "compact") (some (js "tool"))
          (.compaction (js "summary") firstKeptEntryId 500 none none)]
    leafId := some (js "compact") }

def shortTool : List (TranscriptRewriteReplacement ℕ) := [{ entryId := js "tool", message := 20 }]

theorem compactedSession_ids (firstKeptEntryId : JsString) :
    (compactedSession firstKeptEntryId).ids = [js "user", js "tool", js "compact"] := rfl

theorem compactedSession_wellFormed (firstKeptEntryId : JsString) :
    WellFormed (compactedSession firstKeptEntryId) := by
  have htree : ParentTree ([] : List (SessionEntry ℕ Unit)) :=
    ⟨List.nodup_nil, fun entry hmem => absurd hmem List.not_mem_nil, Logs.each_nil⟩
  have hlinked : LinkedEntries none (compactedSession firstKeptEntryId).entries :=
    ⟨rfl, rfl, rfl, trivial⟩
  have hdistinct : (compactedSession firstKeptEntryId).ids.Nodup := by
    rw [compactedSession_ids]
    decide
  have hnames : ∀ id ∈ (compactedSession firstKeptEntryId).ids, trim id ≠ [] := by
    rw [compactedSession_ids]
    decide
  have hnamed : ∀ entry ∈ (compactedSession firstKeptEntryId).entries, trim entry.id ≠ [] :=
    fun entry hmem => hnames entry.id (List.mem_map_of_mem hmem)
  constructor
  · apply htree.append_linked (by simp) hlinked hdistinct (by simp)
    intro entry hmem heq
    exact hnamed entry hmem (by rw [heq, trim_nil])
  · exact hnamed
  · intro entry hmem
    simp only [compactedSession, List.mem_cons, List.not_mem_nil, or_false] at hmem
    rcases hmem with rfl | rfl | rfl
    · trivial
    · trivial
    · trivial
  · intro id hid
    rw [← Option.some.inj hid, compactedSession_ids]
    decide

theorem compactedSession_unseen (firstKeptEntryId : JsString) :
    Unseen countingHost (compactedSession firstKeptEntryId) := by
  intro n _ hmem
  have hlong := countingHost.length_randomUUID n
  have hshort : ∀ id ∈ (compactedSession firstKeptEntryId).ids, id.length ≤ 8 := by
    rw [compactedSession_ids]
    decide
  have hle := hshort _ hmem
  omega

/-- The compaction keeps the copy of the tool result. -/
theorem rewrite_keeps_tree_iff_compacted :
    RewriteKeepsTree countingHost id (compactedSession (js "tool")) shortTool := by
  rw [rewrite_keeps_tree_iff countingHost id (compactedSession (js "tool")) shortTool
    (compactedSession_wellFormed _) (compactedSession_unseen _)]
  have hkept : js "tool" ∉ [js "compact"] := by decide
  exact ⟨trivial, hkept, trivial⟩

def keptIds (branch : List (SessionEntry ℕ Unit)) : List (JsString × Option JsString) :=
  branch.map fun entry =>
    (entry.id, match entry.data with
      | .compaction _ firstKeptEntryId _ _ _ => some firstKeptEntryId
      | _ => none)

/-- The copy of a compaction that keeps nothing before itself names the old compaction. -/
theorem hardened_compaction_not_renamed :
    WellFormed (compactedSession (js "compact")) ∧
      Unseen countingHost (compactedSession (js "compact")) ∧
      ¬RewriteKeepsTree countingHost id (compactedSession (js "compact")) shortTool := by
  refine ⟨compactedSession_wellFormed _, compactedSession_unseen _, ?_⟩
  rintro ⟨new, result, hrun, ⟨branch, copies, rename, hbranch, hactive, hrenamed⟩, -⟩
  have hold : branch = (compactedSession (js "compact")).entries := by
    have hget : (compactedSession (js "compact")).getBranch none =
      some (compactedSession (js "compact")).entries := rfl
    rw [hget, Option.some.injEq] at hbranch
    exact hbranch.symm
  have hnew : ((rewriteTranscriptEntriesInState countingHost id (compactedSession (js "compact"))
      shortTool).toOption.bind fun rewritten => rewritten.1.getBranch none).map keptIds =
        some [(js "user", none), (js "0aaaaaaa", none), (js "1aaaaaaa", some (js "compact"))] := by
    decide +kernel
  have hcopies := hrenamed.copies
  rw [hold] at hactive hcopies
  have hsuffix : ((compactedSession (js "compact")).entries.dropWhile fun entry =>
      (listedFor shortTool entry).isNone) = (compactedSession (js "compact")).entries.tail := rfl
  have hfront : ((compactedSession (js "compact")).entries.takeWhile fun entry =>
      (listedFor shortTool entry).isNone) = (compactedSession (js "compact")).entries.take 1 := rfl
  rw [hsuffix] at hcopies
  rw [hfront] at hactive
  rw [hrun] at hnew
  change (new.getBranch none).map keptIds = _ at hnew
  cases hcopies with
  | @cons _ tool _ _ _ hrest =>
      cases hrest with
      | @cons _ compact _ _ hcompact hnone =>
          cases hnone with
          | nil =>
              rw [hactive, Option.map_some, Option.some.injEq] at hnew
              -- the copy names the id of the old compaction, which has a new name
              have hlast := congrArg List.getLast? hnew
              have hkept : compact.data = .compaction (js "summary") (rename (js "compact")) 500 none none :=
                hcompact.data
              have hid : compact.id = rename (js "compact") := hcompact.id
              change some (compact.id, match compact.data with
                | .compaction _ firstKeptEntryId _ _ _ => some firstKeptEntryId
                | _ => none) = some (js "1aaaaaaa", some (js "compact")) at hlast
              rw [hkept, hid, Option.some.injEq, Prod.mk.injEq, Option.some.injEq] at hlast
              exact absurd (hlast.1.symm.trans hlast.2) (by decide)

end Samples

end GreenchClaw.Transcripts
