import GreenchClaw.Lib.Keyed
import GreenchClaw.Lib.ParentLinks
import GreenchClaw.Lib.Results
import GreenchClaw.Lib.Transition
import GreenchClaw.Transcripts.Rewrite
import Mathlib.Data.List.Forall2

/-!
# Branches of a transcript

Entries that stand behind their parents form trees: the loop over parents ends at a root, and what is
appended under new ids leaves every branch as it was.
-/

namespace GreenchClaw.Transcripts

open GreenchClaw.Js ParentLinks

variable {μ δ : Type}

structure ParentTree (entries : List (SessionEntry μ δ)) : Prop where
  distinct : (entries.map SessionEntry.id).Nodup
  named : ∀ entry ∈ entries, entry.id ≠ []
  parents : Logs.Each (fun before entry => ∀ up ∈ entry.parentId, up ∈ before.map SessionEntry.id) entries

abbrev BranchOf (entries : List (SessionEntry μ δ)) : Option JsString → List (SessionEntry μ δ) → Prop :=
  Path (byId entries) SessionEntry.parentId

abbrev LinkedEntries : Option JsString → List (SessionEntry μ δ) → Prop :=
  Linked SessionEntry.parentId SessionEntry.id

abbrev lastId : Option JsString → List (SessionEntry μ δ) → Option JsString :=
  lastName SessionEntry.id

section Lookup

variable {entries : List (SessionEntry μ δ)} {id : JsString} {entry : SessionEntry μ δ}

theorem byId_eq_some_iff (h : (entries.map SessionEntry.id).Nodup) :
    byId entries id = some entry ↔ entry ∈ entries ∧ entry.id = id := by
  have hreverse : (entries.reverse.map SessionEntry.id).Nodup := by
    rw [List.map_reverse]
    exact List.nodup_reverse.mpr h
  rw [← List.mem_reverse]
  exact Keyed.find_eq_some_iff hreverse

theorem id_of_byId (h : byId entries id = some entry) : entry.id = id := by
  have hfound := List.find?_some h
  simpa using hfound

theorem byId_isSome_iff : (byId entries id).isSome = true ↔ id ∈ entries.map SessionEntry.id := by
  rw [byId, List.find?_isSome]
  simp

theorem byId_append {appended : List (SessionEntry μ δ)}
    (hfresh : ∀ other ∈ appended, other.id ∉ entries.map SessionEntry.id)
    (h : byId entries id = some entry) : byId (entries ++ appended) id = some entry := by
  have hmem : id ∈ entries.map SessionEntry.id := by
    rw [← byId_isSome_iff, h]
    rfl
  have hnone : appended.reverse.find? (fun other => decide (other.id = id)) = none := by
    rw [List.find?_eq_none]
    intro other hother heq
    apply hfresh other (List.mem_reverse.mp hother)
    rw [of_decide_eq_true heq]
    exact hmem
  rw [byId, List.reverse_append, List.find?_append, hnone, Option.none_or]
  exact h

theorem entryOf_some (h : id ≠ []) : entryOf entries (some id) = byId entries id := by
  rw [entryOf, Option.filter_some, if_pos (decide_eq_true h), Option.bind_some]

end Lookup

/-! ## The loop over parents -/

section Loop

variable {entries : List (SessionEntry μ δ)}

theorem branchUpwards_of_path (hnamed : ∀ entry ∈ entries, entry.id ≠ []) {name : Option JsString}
    {path : List (SessionEntry μ δ)} (h : BranchOf entries name path) {rounds : ℕ}
    (hrounds : path.length ≤ rounds) :
    branchUpwards entries rounds (entryOf entries name) = some path.reverse := by
  induction h generalizing rounds with
  | root =>
      have hnone : entryOf entries none = none := rfl
      rw [hnone]
      cases rounds <;> rfl
  | @child id node path hfind _ ih =>
      have hid : id ≠ [] := by
        rw [← id_of_byId hfind]
        apply hnamed
        exact List.mem_reverse.mp (List.mem_of_find?_eq_some hfind)
      rw [List.length_append, List.length_singleton] at hrounds
      obtain ⟨rounds, rfl⟩ : ∃ more, rounds = more + 1 := ⟨rounds - 1, by omega⟩
      rw [entryOf_some hid, hfind, branchUpwards, ih (by omega), List.reverse_append]
      rfl

def place (entries : List (SessionEntry μ δ)) (id : JsString) : ℕ :=
  (entries.map SessionEntry.id).idxOf id

theorem ParentTree.place_lt (h : ParentTree entries) {id : JsString} {entry : SessionEntry μ δ}
    (hfind : byId entries id = some entry) {up : JsString} (hup : up ∈ entry.parentId) :
    (byId entries up).isSome = true ∧ place entries up < place entries id := by
  obtain ⟨hmem, hid⟩ := (byId_eq_some_iff h.distinct).mp hfind
  obtain ⟨before, after, hsplit⟩ := List.append_of_mem hmem
  have hbefore := h.parents before entry after hsplit up hup
  have hdistinct := h.distinct
  rw [hsplit, List.map_append, List.map_cons] at hdistinct
  have hnot : id ∉ before.map SessionEntry.id := by
    intro hin
    rw [← hid] at hin
    exact List.disjoint_of_nodup_append hdistinct hin List.mem_cons_self
  have hlt : place entries up < before.length := by
    rw [place, hsplit, List.map_append, List.idxOf_append_of_mem hbefore]
    exact (List.idxOf_lt_length_iff.mpr hbefore).trans_eq (List.length_map _)
  have hplace : place entries id = before.length := by
    rw [place, hsplit, List.map_append, List.idxOf_append_of_notMem hnot, List.map_cons, hid,
      List.idxOf_cons_self, List.length_map, Nat.add_zero]
  refine ⟨?_, by omega⟩
  rw [byId_isSome_iff, hsplit, List.map_append]
  exact List.mem_append_left _ hbefore

theorem ParentTree.exists_branch (h : ParentTree entries) {id : JsString}
    (hid : id ∈ entries.map SessionEntry.id) :
    ∃ path, BranchOf entries (some id) path ∧ path.length ≤ entries.length := by
  obtain ⟨path, hpath, hlength⟩ := exists_path (place entries)
    (fun name node hfind up hup => h.place_lt hfind hup) (byId_isSome_iff.mpr hid)
  refine ⟨path, hpath, ?_⟩
  have hplace : place entries id < entries.length :=
    (List.idxOf_lt_length_iff.mpr hid).trans_eq (List.length_map _)
  omega

theorem ParentTree.length_le (h : ParentTree entries) {name : Option JsString}
    {path : List (SessionEntry μ δ)} (hpath : BranchOf entries name path) :
    path.length ≤ entries.length := by
  cases name with
  | none =>
      cases hpath with
      | root => exact Nat.zero_le _
  | some id =>
      have hid : id ∈ entries.map SessionEntry.id := by
        cases hpath with
        | child hfind _ =>
            rw [← byId_isSome_iff, hfind]
            rfl
      obtain ⟨other, hother, hlength⟩ := h.exists_branch hid
      rw [hpath.unique hother]
      exact hlength

end Loop

theorem ParentTree.parent_mem {entries : List (SessionEntry μ δ)} (h : ParentTree entries)
    {entry : SessionEntry μ δ} (hmem : entry ∈ entries) {up : JsString} (hup : up ∈ entry.parentId) :
    up ∈ entries.map SessionEntry.id ∧ up ≠ [] := by
  obtain ⟨before, after, hsplit⟩ := List.append_of_mem hmem
  have hbefore := h.parents before entry after hsplit up hup
  obtain ⟨parent, hparent, hid⟩ := List.mem_map.mp hbefore
  have hin : parent ∈ entries := by
    rw [hsplit]
    exact List.mem_append_left _ hparent
  rw [← hid]
  exact ⟨List.mem_map_of_mem hin, h.named parent hin⟩

theorem ParentTree.nodup_branch {entries : List (SessionEntry μ δ)} (h : ParentTree entries)
    {name : Option JsString} {path : List (SessionEntry μ δ)} (hpath : BranchOf entries name path) :
    (path.map SessionEntry.id).Nodup := by
  have hincreasing := (hpath.increasing (place entries) (fun _ _ => id_of_byId)
    fun _ _ hfind _ hup => (h.place_lt hfind hup).2).1
  rw [List.Nodup, List.pairwise_map]
  apply hincreasing.imp
  intro first second hlt heq
  rw [heq] at hlt
  exact Nat.lt_irrefl _ hlt

theorem ParentTree.mem_of_branch {entries : List (SessionEntry μ δ)} (h : ParentTree entries)
    {name : Option JsString} {path : List (SessionEntry μ δ)} (hpath : BranchOf entries name path)
    {entry : SessionEntry μ δ} (hmem : entry ∈ path) : entry ∈ entries := by
  have hfound := hpath.found (fun _ _ => id_of_byId) entry hmem
  exact ((byId_eq_some_iff h.distinct).mp hfound).1

theorem getBranch_of_path {state : TranscriptFileState μ δ} (h : ParentTree state.entries)
    {fromId : Option JsString} {path : List (SessionEntry μ δ)}
    (hpath : BranchOf state.entries (fromId.or state.leafId) path) :
    state.getBranch fromId = some path := by
  rw [TranscriptFileState.getBranch, branchUpwards_of_path h.named hpath (h.length_le hpath),
    Option.map_some, List.reverse_reverse]

/-! ## Appending -/

theorem ParentTree.append {entries : List (SessionEntry μ δ)} (h : ParentTree entries)
    {entry : SessionEntry μ δ} (hfresh : entry.id ∉ entries.map SessionEntry.id) (hnamed : entry.id ≠ [])
    (hparent : ∀ up ∈ entry.parentId, up ∈ entries.map SessionEntry.id) :
    ParentTree (entries ++ [entry]) := by
  constructor
  · rw [List.map_append, List.map_singleton, List.nodup_append]
    refine ⟨h.distinct, List.nodup_singleton _, ?_⟩
    intro id hid other hother
    rw [List.mem_singleton] at hother
    intro heq
    rw [heq, hother] at hid
    exact hfresh hid
  · intro other hmem
    rw [List.mem_append, List.mem_singleton] at hmem
    cases hmem with
    | inl hmem => exact h.named other hmem
    | inr heq =>
        rw [heq]
        exact hnamed
  · exact h.parents.snoc hparent

theorem ParentTree.append_linked {entries more : List (SessionEntry μ δ)} (h : ParentTree entries)
    {name : Option JsString} (hname : ∀ id ∈ name, id ∈ entries.map SessionEntry.id)
    (hlinked : LinkedEntries name more) (hdistinct : (more.map SessionEntry.id).Nodup)
    (hfresh : ∀ entry ∈ more, entry.id ∉ entries.map SessionEntry.id)
    (hnamed : ∀ entry ∈ more, entry.id ≠ []) : ParentTree (entries ++ more) := by
  induction more generalizing entries name with
  | nil =>
      rw [List.append_nil]
      exact h
  | cons entry more ih =>
      rw [List.map_cons, List.nodup_cons] at hdistinct
      have hone : ParentTree (entries ++ [entry]) := by
        apply h.append (hfresh entry List.mem_cons_self) (hnamed entry List.mem_cons_self)
        intro up hup
        exact hname up (hlinked.1 ▸ hup)
      rw [List.append_cons]
      apply ih hone _ hlinked.2 hdistinct.2
      · intro other hmem
        rw [List.map_append, List.map_singleton, List.mem_append, List.mem_singleton]
        intro hin
        cases hin with
        | inl hin => exact hfresh other (List.mem_cons_of_mem _ hmem) hin
        | inr heq => exact hdistinct.1 (heq ▸ List.mem_map_of_mem hmem)
      · exact fun other hmem => hnamed other (List.mem_cons_of_mem _ hmem)
      · intro id hid
        rw [← Option.some.inj hid, List.map_append, List.map_singleton]
        exact List.mem_append_right _ List.mem_cons_self

/-!
## The loop that appends a branch again

What one round appends, and what the loop appends over all of its rounds.
-/

/-! ## New ids -/

def Unseen (host : EntryHost) (state : TranscriptFileState μ δ) : Prop :=
  ∀ n, state.drawn ≤ n → host.randomUUID n ∉ state.ids

structure Appends (host : EntryHost) (state : TranscriptFileState μ δ) (parentId : Option JsString)
    (data : SessionEntryData μ δ) (result : TranscriptFileState μ δ × SessionEntry μ δ) : Prop where
  entries : result.1.entries = state.entries ++ [result.2]
  leafId : result.1.leafId = some result.2.id
  parentId : result.2.parentId = parentId
  data : result.2.data = data
  fresh : result.2.id ∉ state.ids
  length : 8 ≤ result.2.id.length
  unseen : Unseen host result.1

theorem generateEntryId_spec {host : EntryHost} {state : TranscriptFileState μ δ}
    (h : Unseen host state) :
    (state.generateEntryId host).1 ∉ state.ids ∧ 8 ≤ (state.generateEntryId host).1.length ∧
      ∀ n, (state.generateEntryId host).2 ≤ n →
        host.randomUUID n ∉ state.ids ∧ host.randomUUID n ≠ (state.generateEntryId host).1 := by
  rw [TranscriptFileState.generateEntryId]
  split
  · rename_i attempt hattempt
    have hlong := host.length_randomUUID (state.drawn + attempt)
    have hlength : ((host.randomUUID (state.drawn + attempt)).take 8).length = 8 := by
      rw [List.length_take]
      omega
    refine ⟨?_, hlength.ge, ?_⟩
    · intro hmem
      have hnone := List.find?_some hattempt
      rw [← Option.not_isSome, Bool.not_eq_true', Bool.eq_false_iff] at hnone
      exact hnone (byId_isSome_iff.mpr hmem)
    · intro n hn
      refine ⟨h n (by omega), ?_⟩
      intro heq
      have hslice : host.randomUUID n = (host.randomUUID (state.drawn + attempt)).take 8 := heq
      have hother := host.length_randomUUID n
      rw [hslice, hlength] at hother
      omega
  · refine ⟨h _ (by omega), (host.length_randomUUID _).le, ?_⟩
    intro n hn
    refine ⟨h n (by omega), ?_⟩
    intro heq
    have hsame := host.randomUUID_injective heq
    omega

theorem appendData_spec {host : EntryHost} {state : TranscriptFileState μ δ} (h : Unseen host state)
    (data : SessionEntryData μ δ) :
    Appends host state state.leafId data (state.appendData host data) := by
  obtain ⟨hfresh, hlength, hunseen⟩ := generateEntryId_spec h
  constructor
  · rfl
  · rfl
  · rfl
  · rfl
  · exact hfresh
  · exact hlength
  · intro n hn hmem
    change host.randomUUID n ∈ (state.entries ++ [_]).map SessionEntry.id at hmem
    rw [List.map_append, List.map_singleton, List.mem_append, List.mem_singleton] at hmem
    cases hmem with
    | inl hmem => exact (hunseen n hn).1 hmem
    | inr heq => exact (hunseen n hn).2 heq

/-! ## One round -/

/-- The name of an entry after some entries were appended again. -/
def renameBy (rewrittenEntryIds : Map JsString) (id : JsString) : JsString :=
  (rewrittenEntryIds.get id).getD id

theorem renameBy_set (rewrittenEntryIds : Map JsString) (id new : JsString) :
    renameBy (rewrittenEntryIds.set id new) = Function.update (renameBy rewrittenEntryIds) id new := by
  funext other
  rw [renameBy, Map.get_set, Function.update_apply]
  by_cases h : id = other
  · rw [if_pos h, if_pos h.symm, Option.getD_some]
  · rw [if_neg h, if_neg (Ne.symm h)]
    rfl

def copyData (rename : JsString → JsString) (entry : SessionEntry μ δ) : SessionEntryData μ δ :=
  match entry.data with
  | .compaction summary firstKeptEntryId tokensBefore details fromHook =>
      .compaction summary (rename firstKeptEntryId) tokensBefore details fromHook
  | .sessionInfo name => .sessionInfo (some (trim (name.getD [])))
  | .branchSummary _ summary details fromHook =>
      .branchSummary ((entry.parentId.map rename).getD (js "root")) summary details fromHook
  | .label targetId label => .label (rename targetId) label
  | data => data

def writtenData (replacementsById : Map μ) (rename : JsString → JsString) (entry : SessionEntry μ δ) :
    SessionEntryData μ δ :=
  match replacementFor replacementsById entry with
  | some replacement => .message replacement
  | none => copyData rename entry

def SessionEntryData.LabelsIn (ids : List JsString) : SessionEntryData μ δ → Prop
  | .label targetId _ => targetId ∈ ids
  | _ => True

section Round

variable {host : EntryHost} {state : TranscriptFileState μ δ} {rewrittenEntryIds : Map JsString}
  {entry : SessionEntry μ δ}

theorem remapEntryId_some (hempty : rewrittenEntryIds.get [] = none) (id : JsString) :
    (remapEntryId (some id) rewrittenEntryIds).getD id = renameBy rewrittenEntryIds id := by
  by_cases hid : id = []
  · rw [hid, renameBy, hempty]
    rfl
  · rw [remapEntryId, Option.filter_some, if_pos (decide_eq_true hid)]
    rfl

theorem remapEntryId_parent {id : Option JsString} (h : id ≠ some []) :
    remapEntryId id rewrittenEntryIds = id.map (renameBy rewrittenEntryIds) := by
  cases id with
  | none => rfl
  | some id =>
      have hid : id ≠ [] := fun heq => h (congrArg some heq)
      rw [remapEntryId, Option.filter_some, if_pos (decide_eq_true hid)]
      rfl

theorem renameBy_mem (hmapped : ∀ id new, rewrittenEntryIds.get id = some new → new ∈ state.ids)
    {id : JsString} (hid : id ∈ state.ids) : renameBy rewrittenEntryIds id ∈ state.ids := by
  rw [renameBy]
  cases hget : rewrittenEntryIds.get id with
  | none => exact hid
  | some new => exact hmapped id new hget

theorem appendTranscriptStateBranchEntry_spec (hunseen : Unseen host state)
    (hempty : rewrittenEntryIds.get [] = none) (hparent : entry.parentId ≠ some [])
    (hleaf : state.leafId = entry.parentId.map (renameBy rewrittenEntryIds))
    (hleafIn : ∀ id ∈ state.leafId, id ∈ state.ids)
    (hmapped : ∀ id new, rewrittenEntryIds.get id = some new → new ∈ state.ids)
    (hlabels : entry.data.LabelsIn state.ids) :
    ∃ result, appendTranscriptStateBranchEntry host state entry rewrittenEntryIds = .ok result ∧
      Appends host state state.leafId (copyData (renameBy rewrittenEntryIds) entry) result := by
  rw [appendTranscriptStateBranchEntry, copyData]
  cases hdata : entry.data with
  | branchSummary fromId summary details fromHook =>
      have hpresent : ((remapEntryId entry.parentId rewrittenEntryIds).filter fun id =>
          (byId state.entries id).isNone) = none := by
        rw [remapEntryId_parent hparent, ← hleaf, Option.filter_eq_none_iff]
        intro id hid hnone
        rw [Option.isNone_iff_eq_none] at hnone
        have hsome := byId_isSome_iff.mpr (hleafIn id hid)
        rw [hnone] at hsome
        exact absurd hsome (by simp)
      have hstate : { state with leafId := remapEntryId entry.parentId rewrittenEntryIds } = state := by
        rw [remapEntryId_parent hparent, ← hleaf]
      refine ⟨_, by
        simp only [TranscriptFileState.branchWithSummary, hpresent]
        rfl, ?_⟩
      rw [hstate, remapEntryId_parent hparent]
      exact appendData_spec hunseen _
  | label targetId label =>
      rw [hdata] at hlabels
      have hpresent : ¬(byId state.entries (renameBy rewrittenEntryIds targetId)).isNone = true := by
        rw [Option.isNone_iff_eq_none, ← Ne, Option.ne_none_iff_isSome, byId_isSome_iff]
        exact renameBy_mem hmapped hlabels
      refine ⟨_, by
        simp only [TranscriptFileState.appendLabelChange, remapEntryId_some hempty, if_neg hpresent]
        rfl, ?_⟩
      exact appendData_spec hunseen _
  | compaction summary firstKeptEntryId tokensBefore details fromHook =>
      refine ⟨_, rfl, ?_⟩
      rw [remapEntryId_some hempty]
      exact appendData_spec hunseen _
  | message message => exact ⟨_, rfl, appendData_spec hunseen _⟩
  | thinkingLevelChange thinkingLevel => exact ⟨_, rfl, appendData_spec hunseen _⟩
  | modelChange provider modelId => exact ⟨_, rfl, appendData_spec hunseen _⟩
  | custom customType data => exact ⟨_, rfl, appendData_spec hunseen _⟩
  | customMessage customType content display details => exact ⟨_, rfl, appendData_spec hunseen _⟩
  | sessionInfo name => exact ⟨_, rfl, appendData_spec hunseen _⟩

end Round

/-! ## The whole loop -/

def Copies (replacementsById : Map μ) :
    (JsString → JsString) → List (SessionEntry μ δ) → List (SessionEntry μ δ) → Prop
  | _, [], [] => True
  | rename, entry :: rest, copy :: copies =>
      copy.parentId = entry.parentId.map rename ∧
        copy.data = writtenData replacementsById rename entry ∧
        Copies replacementsById (Function.update rename entry.id copy.id) rest copies
  | _, _, _ => False

structure RanFrom (host : EntryHost) (replacementsById : Map μ) (rename : JsString → JsString)
    (state : TranscriptFileState μ δ) (rest : List (SessionEntry μ δ))
    (final : TranscriptFileState μ δ) (copies : List (SessionEntry μ δ)) : Prop where
  written : Copies replacementsById rename rest copies
  entries : final.entries = state.entries ++ copies
  leafId : final.leafId = lastId state.leafId copies
  linked : LinkedEntries state.leafId copies
  distinct : (copies.map SessionEntry.id).Nodup
  fresh : ∀ copy ∈ copies, copy.id ∉ state.ids ∧ 8 ≤ copy.id.length

structure RoundReady (host : EntryHost) (state : TranscriptFileState μ δ)
    (rewrittenEntryIds : Map JsString) (parentId : Option JsString) : Prop where
  unseen : Unseen host state
  unnamed : rewrittenEntryIds.get [] = none
  parentNamed : parentId ≠ some []
  leafId : state.leafId = parentId.map (renameBy rewrittenEntryIds)
  leafIn : ∀ id ∈ state.leafId, id ∈ state.ids
  mapped : ∀ id new, rewrittenEntryIds.get id = some new → new ∈ state.ids

section Loop

variable {host : EntryHost} {replacementsById : Map μ} {state : TranscriptFileState μ δ}
  {rewrittenEntryIds : Map JsString}

theorem appendNewEntry_spec {entry : SessionEntry μ δ}
    (hready : RoundReady host state rewrittenEntryIds entry.parentId)
    (hlabels : entry.data.LabelsIn state.ids) :
    ∃ result, appendNewEntry host state replacementsById entry rewrittenEntryIds = .ok result ∧
      Appends host state state.leafId
        (writtenData replacementsById (renameBy rewrittenEntryIds) entry) result := by
  rw [writtenData, appendNewEntry]
  cases replacementFor replacementsById entry with
  | some replacement => exact ⟨_, rfl, appendData_spec hready.unseen _⟩
  | none =>
      exact appendTranscriptStateBranchEntry_spec hready.unseen hready.unnamed hready.parentNamed
        hready.leafId hready.leafIn hready.mapped hlabels

theorem ids_of_appends {parentId : Option JsString} {data : SessionEntryData μ δ}
    {result : TranscriptFileState μ δ × SessionEntry μ δ}
    (h : Appends host state parentId data result) : result.1.ids = state.ids ++ [result.2.id] := by
  rw [TranscriptFileState.ids, h.entries, List.map_append]
  rfl

theorem RoundReady.next {entry : SessionEntry μ δ} (hready : RoundReady host state rewrittenEntryIds
      entry.parentId) (hnamed : entry.id ≠ []) {data : SessionEntryData μ δ}
    {result : TranscriptFileState μ δ × SessionEntry μ δ}
    (h : Appends host state state.leafId data result) :
    RoundReady host result.1 (rewrittenEntryIds.set entry.id result.2.id) (some entry.id) := by
  have hids := ids_of_appends h
  constructor
  · exact h.unseen
  · rw [Map.get_set, if_neg hnamed]
    exact hready.unnamed
  · exact fun heq => hnamed (Option.some.inj heq)
  · rw [h.leafId, Option.map_some, renameBy_set, Function.update_self]
  · intro id hid
    rw [h.leafId] at hid
    rw [hids, List.mem_append, List.mem_singleton]
    exact Or.inr (Option.some.inj hid).symm
  · intro id new hget
    rw [hids, List.mem_append, List.mem_singleton]
    rw [Map.get_set] at hget
    split at hget
    · exact Or.inr (Option.some.inj hget).symm
    · exact Or.inl (hready.mapped id new hget)

theorem SessionEntryData.LabelsIn.mono {data : SessionEntryData μ δ} {ids more : List JsString}
    (h : data.LabelsIn ids) (hsub : ids ⊆ more) : data.LabelsIn more := by
  cases data with
  | label targetId label => exact hsub h
  | _ => trivial

theorem appendRewritten_spec {rest : List (SessionEntry μ δ)} {parentId : Option JsString}
    (hready : RoundReady host state rewrittenEntryIds parentId) (hlinked : LinkedEntries parentId rest)
    (hnamed : ∀ entry ∈ rest, entry.id ≠ [])
    (hlabels : ∀ entry ∈ rest, entry.data.LabelsIn state.ids) :
    ∃ final copies,
      appendRewritten host replacementsById rest state rewrittenEntryIds = .ok (final, copies) ∧
        RanFrom host replacementsById (renameBy rewrittenEntryIds) state rest final copies := by
  induction rest generalizing state rewrittenEntryIds parentId with
  | nil =>
      refine ⟨state, [], rfl, trivial, ?_, rfl, trivial, List.nodup_nil, ?_⟩
      · rw [List.append_nil]
      · exact fun copy hmem => absurd hmem List.not_mem_nil
  | cons entry rest ih =>
      have hentry : RoundReady host state rewrittenEntryIds entry.parentId := by
        rw [hlinked.1]
        exact hready
      obtain ⟨result, hround, happends⟩ :
          ∃ result, appendNewEntry host state replacementsById entry rewrittenEntryIds = .ok result ∧ _ :=
        appendNewEntry_spec hentry (hlabels entry List.mem_cons_self)
      have hids := ids_of_appends happends
      have hnext := hentry.next (hnamed entry List.mem_cons_self) happends
      obtain ⟨final, copies, hloop, hran⟩ := ih hnext hlinked.2
        (fun other hmem => hnamed other (List.mem_cons_of_mem _ hmem)) (by
          intro other hmem
          apply (hlabels other (List.mem_cons_of_mem _ hmem)).mono
          rw [hids]
          exact List.subset_append_left _ _)
      have hresult : result.2.id ∈ result.1.ids := by
        rw [hids]
        exact List.mem_append_right _ List.mem_cons_self
      refine ⟨final, result.2 :: copies, ?_, ?_, ?_, ?_, ?_, ?_, ?_⟩
      · rw [appendRewritten, Results.bind_eq_ok_iff]
        refine ⟨result, hround, ?_⟩
        rw [Results.bind_eq_ok_iff]
        exact ⟨(final, copies), hloop, rfl⟩
      · refine ⟨?_, happends.data, ?_⟩
        · rw [happends.parentId, hentry.leafId]
        · rw [← renameBy_set]
          exact hran.written
      · rw [hran.entries, happends.entries, List.append_assoc]
        rfl
      · rw [hran.leafId, happends.leafId]
        rfl
      · refine ⟨happends.parentId, ?_⟩
        rw [← happends.leafId]
        exact hran.linked
      · rw [List.map_cons, List.nodup_cons]
        refine ⟨?_, hran.distinct⟩
        intro hmem
        obtain ⟨copy, hcopy, heq⟩ := List.mem_map.mp hmem
        exact (hran.fresh copy hcopy).1 (heq ▸ hresult)
      · intro copy hmem
        rw [List.mem_cons] at hmem
        cases hmem with
        | inl heq =>
            rw [heq]
            exact ⟨happends.fresh, happends.length⟩
        | inr hmem =>
            obtain ⟨hfresh, hlength⟩ := hran.fresh copy hmem
            refine ⟨?_, hlength⟩
            intro hold
            apply hfresh
            rw [hids]
            exact List.mem_append_left _ hold

end Loop

/-!
## The tree after a rewrite

What is left of a session when messages of its active branch are replaced: the branch with the new messages
and every reference under the new ids, beside all branches that were there.
-/

/-! ## What a rewrite should do -/

def SessionEntryData.NamesEntries (ids : List JsString) : SessionEntryData μ δ → Prop
  | .label targetId _ => targetId ∈ ids
  | .branchSummary fromId _ _ _ => fromId = js "root" ∨ fromId ∈ ids
  | _ => True

structure WellFormed (state : TranscriptFileState μ δ) : Prop where
  tree : ParentTree state.entries
  named : ∀ entry ∈ state.entries, trim entry.id ≠ []
  references : ∀ entry ∈ state.entries, entry.data.NamesEntries state.ids
  leaf : ∀ id ∈ state.leafId, id ∈ state.ids

def listedFor (replacements : List (TranscriptRewriteReplacement μ)) (entry : SessionEntry μ δ) :
    Option μ :=
  match entry.data with
  | .message _ =>
      (replacements.reverse.find? fun replacement => replacement.entryId = entry.id).map
        TranscriptRewriteReplacement.message
  | _ => none

def replacedData (replacements : List (TranscriptRewriteReplacement μ)) (entry : SessionEntry μ δ) :
    SessionEntryData μ δ :=
  match listedFor replacements entry with
  | some message => .message message
  | none => entry.data

def SessionEntryData.mapReferences (rename : JsString → JsString) :
    SessionEntryData μ δ → SessionEntryData μ δ
  | .compaction summary firstKeptEntryId tokensBefore details fromHook =>
      .compaction summary (rename firstKeptEntryId) tokensBefore details fromHook
  | .branchSummary fromId summary details fromHook =>
      .branchSummary (rename fromId) summary details fromHook
  | .label targetId text => .label (rename targetId) text
  | data => data

structure IsCopy (replacements : List (TranscriptRewriteReplacement μ)) (rename : JsString → JsString)
    (entry copy : SessionEntry μ δ) : Prop where
  id : copy.id = rename entry.id
  parentId : copy.parentId = entry.parentId.map rename
  data : copy.data = (replacedData replacements entry).mapReferences rename

structure RenamedCopies (replacements : List (TranscriptRewriteReplacement μ)) (ids : List JsString)
    (rename : JsString → JsString) (rest copies : List (SessionEntry μ δ)) : Prop where
  others : ∀ id, id ∉ rest.map SessionEntry.id → rename id = id
  fresh : ∀ entry ∈ rest, rename entry.id ∉ ids
  injective : ∀ entry ∈ rest, ∀ other ∈ rest, rename entry.id = rename other.id → entry.id = other.id
  copies : List.Forall₂ (IsCopy replacements rename) rest copies

/-- The active branch is the old one up to the first listed message, and copies from there on. -/
def BranchRewritten (replacements : List (TranscriptRewriteReplacement μ))
    (state new : TranscriptFileState μ δ) : Prop :=
  ∃ branch copies rename, state.getBranch none = some branch ∧
    new.getBranch none =
      some (branch.takeWhile (fun entry => (listedFor replacements entry).isNone) ++ copies) ∧
    RenamedCopies replacements state.ids rename
      (branch.dropWhile fun entry => (listedFor replacements entry).isNone) copies

/-- A rewrite ends in a state with the rewritten branch, in which all entries and their branches are still
the same, every branch starts at a root, and which is the same when no message of the branch is listed. -/
def RewriteKeepsTree (host : EntryHost) (estimateMessageBytes : μ → ℕ)
    (state : TranscriptFileState μ δ) (replacements : List (TranscriptRewriteReplacement μ)) : Prop :=
  ∃ new result,
    rewriteTranscriptEntriesInState host estimateMessageBytes state replacements = .ok (new, result) ∧
      BranchRewritten replacements state new ∧
      (∃ appended, new.entries = state.entries ++ appended) ∧
      (∀ id ∈ state.ids, new.getBranch (some id) = state.getBranch (some id)) ∧
      (∀ id ∈ new.ids, ∃ path, BranchOf new.entries (some id) path ∧
        new.getBranch (some id) = some path) ∧
      ((∀ entry ∈ (state.getBranch none).getD [], listedFor replacements entry = none) → new = state)

/-! ## When it does -/

/-- What an entry holds is copied as it is, when the ids of it and of the entries after it have no new
names yet. -/
def CopiedExactly (notYet : List JsString) (entry : SessionEntry μ δ) : Prop :=
  match entry.data with
  | .compaction _ firstKeptEntryId _ _ _ => firstKeptEntryId ∉ notYet
  | .label targetId _ => targetId ∉ notYet
  | .branchSummary fromId _ _ _ => fromId = entry.parentId.getD (js "root")
  | .sessionInfo name => ∃ text, name = some text ∧ trim text = text
  | _ => True

def AllCopiedExactly : List (SessionEntry μ δ) → Prop
  | [] => True
  | entry :: rest =>
      CopiedExactly (entry.id :: rest.map SessionEntry.id) entry ∧ AllCopiedExactly rest

/-- The entries of the active branch from the first listed message. -/
def rewrittenSuffix (state : TranscriptFileState μ δ)
    (replacements : List (TranscriptRewriteReplacement μ)) : List (SessionEntry μ δ) :=
  ((state.getBranch none).getD []).dropWhile fun entry => (listedFor replacements entry).isNone

/-! ## Listed messages -/

section Listed

variable {replacements : List (TranscriptRewriteReplacement μ)}

theorem get_foldl_set (map : Map μ) (id : JsString) :
    (replacements.foldl (fun map replacement => map.set replacement.entryId replacement.message)
        map).get id =
      ((replacements.reverse.find? fun replacement => replacement.entryId = id).map
        TranscriptRewriteReplacement.message).or (map.get id) := by
  induction replacements generalizing map with
  | nil => rfl
  | cons replacement replacements ih =>
      rw [List.foldl_cons, ih, Map.get_set, List.reverse_cons, List.find?_append]
      cases replacements.reverse.find? fun replacement => decide (replacement.entryId = id) with
      | some found => rfl
      | none =>
          rw [List.find?_singleton]
          by_cases h : replacement.entryId = id
          · rw [if_pos h]
            simp [h]
          · rw [if_neg h]
            simp [h]

theorem replacementFor_eq {entry : SessionEntry μ δ} (hnamed : trim entry.id ≠ []) :
    replacementFor (replacementsById replacements) entry = listedFor replacements entry := by
  rw [replacementFor, listedFor]
  cases entry.data with
  | message message =>
      have hfilter : ((replacements.filter fun replacement => trim replacement.entryId ≠ []).reverse.find?
          fun replacement => replacement.entryId = entry.id) =
            replacements.reverse.find? fun replacement => replacement.entryId = entry.id := by
        rw [← List.filter_reverse, List.find?_filter]
        congr 1
        funext replacement
        by_cases h : replacement.entryId = entry.id
        · rw [h]
          simp [hnamed]
        · simp [h]
      simp only [replacementsById, get_foldl_set, hfilter, Map.get_empty, Option.or_none]
  | _ => rfl

end Listed

end GreenchClaw.Transcripts
