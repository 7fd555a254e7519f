import GreenchClaw.ApplyPatch.Update

/-!
# What a patch means

The meaning of the hunks that the text spells, as changes of a function from paths to contents, and
when the files after `applyPatch` are the ones that are meant.
-/

namespace GreenchClaw.ApplyPatch

open GreenchClaw.Js Effects Results

abbrev Files := JsString → Option JsString

section Meaning

variable (host : PatchHost)

def resolved (path : JsString) (policy : PathAliasPolicy) : Option PatchTarget :=
  (host.resolvePatchPath path policy).toOption

def moveTarget (movePath : Option JsString) : Option PatchTarget :=
  (movePath.filter fun moved => moved ≠ []).bind fun moved => resolved host moved .strict

/-- The file holds the added lines, a file is removed, or it holds what its update means.  The source
of a move goes only when it is another file. -/
inductive Means (files : Files) : TextHunk → Files → Prop
  | add {path : JsString} {lines : List JsString} {target : PatchTarget} :
      resolved host path .strict = some target →
      Means files (.add path lines)
        (Function.update files target.resolved (some (lines.flatMap fun line => line ++ [newline])))
  | delete {path : JsString} {target : PatchTarget} :
      resolved host path .unlinkTarget = some target →
      Means files (.delete path) (Function.update files target.resolved none)
  | update {path contents result : JsString} {movePath : Option JsString} {chunks : List TextChunk}
      {target : PatchTarget} : resolved host path .strict = some target →
      (movePath.filter fun moved => moved ≠ []) = none →
      files target.resolved = some contents → UpdateMeans contents chunks result →
      Means files (.update path movePath chunks) (Function.update files target.resolved (some result))
  | move {path contents result : JsString} {movePath : Option JsString} {chunks : List TextChunk}
      {target moved : PatchTarget} : resolved host path .strict = some target →
      moveTarget host movePath = some moved →
      files target.resolved = some contents → UpdateMeans contents chunks result →
      Means files (.update path movePath chunks)
        (if moved.resolved = target.resolved then Function.update files moved.resolved (some result)
          else Function.update (Function.update files moved.resolved (some result)) target.resolved none)

inductive MeansAll : Files → List TextHunk → Files → Prop
  | done (files : Files) : MeansAll files [] files
  | hunk {files middle final : Files} {hunk : TextHunk} {hunks : List TextHunk} :
      Means host files hunk middle → MeansAll middle hunks final → MeansAll files (hunk :: hunks) final

/-- The places of an update's chunks, in the contents that it is meant to find, do not overlap. -/
def ApartIn (files : Files) : TextHunk → Prop
  | .update path _ chunks => ∀ target contents, resolved host path .strict = some target →
      files target.resolved = some contents → PlacesApart contents chunks
  | _ => True

def UpdatesApart : Files → List TextHunk → Prop
  | _, [] => True
  | files, hunk :: hunks =>
      ApartIn host files hunk ∧ ∀ middle, Means host files hunk middle → UpdatesApart middle hunks

def written : TextHunk → Option PatchTarget
  | .add path _ => resolved host path .strict
  | .delete _ => none
  | .update path movePath _ => (moveTarget host movePath).or (resolved host path .strict)

def effects (hunk : TextHunk) : List (Effect JsString) :=
  let writes := (written host hunk).toList.map fun target => Effect.write target.resolved
  let removed :=
    match hunk with
    | .add _ _ => none
    | .delete path => resolved host path .unlinkTarget
    | .update path movePath _ =>
        if (moveTarget host movePath).isSome = true then resolved host path .strict else none
  writes ++ removed.toList.map fun target => Effect.remove target.resolved

def effectsOf (hunks : List TextHunk) : List (Effect JsString) := hunks.flatMap (effects host)

structure AppliedAsMeant (hunks : List TextHunk) (before after : Map JsString)
    (summary : ApplyPatchSummary) : Prop where
  meant : ∃ final, MeansAll host before.get hunks final ∧ ∀ path, after.get path = final path
  named : ∀ name ∈ summary.added ++ summary.modified,
    (∃ hunk ∈ hunks, ∃ target, written host hunk = some target ∧ target.display = name) ∧
      ∀ hunk ∈ hunks, ∀ target, written host hunk = some target → target.display = name →
        (after.get target.resolved).isSome = true
  untouched : ∀ path, (∀ effect ∈ effectsOf host hunks, effect.key ≠ path) →
    after.get path = before.get path

end Meaning

/-! ## One meaning -/

section Unique

variable {host : PatchHost} {files first second : Files}

theorem UpdateMeans.unique {contents text other : JsString} {chunks : List TextChunk}
    (h : UpdateMeans contents chunks text) (h' : UpdateMeans contents chunks other) : text = other := by
  have htext := ((@updateMeans_iff contents [] text chunks).mp h).1
  rw [((@updateMeans_iff contents [] other chunks).mp h').1] at htext
  exact (Except.ok.inj htext).symm

theorem no_move_of_filter {movePath : Option JsString}
    (h : (movePath.filter fun moved => decide (moved ≠ [])) = none) : moveTarget host movePath = none := by
  rw [moveTarget, h, Option.bind_none]

theorem Means.unique {hunk : TextHunk} (h : Means host files hunk first)
    (h' : Means host files hunk second) : first = second := by
  cases h with
  | add htarget =>
      cases h' with
      | add htarget' =>
          rw [htarget] at htarget'
          rw [Option.some.inj htarget']
  | delete htarget =>
      cases h' with
      | delete htarget' =>
          rw [htarget] at htarget'
          rw [Option.some.inj htarget']
  | update htarget hstay hcontents hmeans =>
      cases h' with
      | update htarget' _ hcontents' hmeans' =>
          rw [htarget] at htarget'
          obtain rfl := Option.some.inj htarget'
          rw [hcontents] at hcontents'
          obtain rfl := Option.some.inj hcontents'
          rw [hmeans.unique hmeans']
      | move _ hmove =>
          rw [no_move_of_filter hstay] at hmove
          exact absurd hmove (by simp)
  | move htarget hmove hcontents hmeans =>
      cases h' with
      | update _ hstay =>
          rw [no_move_of_filter hstay] at hmove
          exact absurd hmove (by simp)
      | move htarget' hmove' hcontents' hmeans' =>
          rw [htarget] at htarget'
          obtain rfl := Option.some.inj htarget'
          rw [hmove] at hmove'
          obtain rfl := Option.some.inj hmove'
          rw [hcontents] at hcontents'
          obtain rfl := Option.some.inj hcontents'
          rw [hmeans.unique hmeans']

theorem Means.apart {hunk : TextHunk} (h : Means host files hunk first) : ApartIn host files hunk := by
  have hfound : ∀ {path contents result : JsString} {chunks : List TextChunk} {target : PatchTarget},
      resolved host path .strict = some target → files target.resolved = some contents →
      UpdateMeans contents chunks result →
      ∀ target contents, resolved host path .strict = some target →
        files target.resolved = some contents → PlacesApart contents chunks := by
    intro path contents result chunks target htarget hcontents hmeans target' contents' htarget' hcontents'
    rw [htarget] at htarget'
    obtain rfl := Option.some.inj htarget'
    rw [hcontents] at hcontents'
    obtain rfl := Option.some.inj hcontents'
    exact ((@updateMeans_iff contents [] result chunks).mp hmeans).2
  cases h with
  | add => trivial
  | delete => trivial
  | update htarget _ hcontents hmeans => exact hfound htarget hcontents hmeans
  | move htarget _ hcontents hmeans => exact hfound htarget hcontents hmeans

theorem MeansAll.apart {hunks : List TextHunk} (h : MeansAll host files hunks first) :
    UpdatesApart host files hunks := by
  induction h with
  | done => trivial
  | hunk hmeans _ ih =>
      refine ⟨hmeans.apart, fun middle hmiddle => ?_⟩
      rw [← hmeans.unique hmiddle]
      exact ih

end Unique

/-! ## Files beside their meaning -/

structure Tracks (done : List (Effect JsString)) (before : Files) (files : Map JsString)
    (meant : Files) : Prop where
  untouched : ∀ path, last done path = none → files.get path = before path ∧ meant path = before path
  written : ∀ path, last done path = some (.write path) →
    files.get path = meant path ∧ (files.get path).isSome = true
  removed : ∀ path, last done path = some (.remove path) →
    files.get path = none ∧ (.write path ∉ done → meant path = none)

section Tracks

variable {done : List (Effect JsString)} {before meant : Files} {files : Map JsString}
  {path contents : JsString}

theorem tracks_start (files : Map JsString) : Tracks [] files.get files files.get where
  untouched _ _ := ⟨rfl, rfl⟩
  written _ h := absurd h (by simp [last])
  removed _ h := absurd h (by simp [last])

theorem last_cases (done : List (Effect JsString)) (path : JsString) :
    last done path = none ∨ last done path = some (.write path) ∨
      last done path = some (.remove path) := by
  cases h : last done path with
  | none => exact Or.inl rfl
  | some effect =>
      have hkey := (mem_of_last h).2
      cases effect with
      | write key => exact Or.inr (Or.inl (by rw [show key = path from hkey]))
      | remove key => exact Or.inr (Or.inr (by rw [show key = path from hkey]))

theorem Tracks.agree (h : Tracks done before files meant) (hget : files.get path = some contents) :
    meant path = some contents := by
  rcases last_cases done path with hlast | hlast | hlast
  · obtain ⟨hfiles, hmeant⟩ := h.untouched path hlast
    rw [hmeant, ← hfiles, hget]
  · rw [← (h.written path hlast).1, hget]
  · rw [(h.removed path hlast).1] at hget
    exact absurd hget (by simp)

theorem last_snoc_write (key other : JsString) :
    last (done ++ [.write key]) other =
      if key = other then some (.write key) else last done other := by
  rw [last_append, last_write]
  by_cases h : key = other <;> simp [h]

theorem last_snoc_remove (key other : JsString) :
    last (done ++ [.remove key]) other =
      if key = other then some (.remove key) else last done other := by
  rw [last_append, last_remove]
  by_cases h : key = other <;> simp [h]

theorem Tracks.write (h : Tracks done before files meant) (path contents : JsString) :
    Tracks (done ++ [.write path]) before (files.set path contents)
      (Function.update meant path (some contents)) := by
  constructor
  · intro other hlast
    rw [last_snoc_write] at hlast
    by_cases hpath : path = other
    · rw [if_pos hpath] at hlast
      exact absurd hlast (by simp)
    · rw [if_neg hpath] at hlast
      rw [Map.get_set, if_neg hpath, Function.update_of_ne (Ne.symm hpath)]
      exact h.untouched other hlast
  · intro other hlast
    rw [last_snoc_write] at hlast
    rw [Map.get_set]
    by_cases hpath : path = other
    · rw [if_pos hpath, ← hpath, Function.update_self]
      exact ⟨rfl, rfl⟩
    · rw [if_neg hpath] at hlast
      rw [if_neg hpath, Function.update_of_ne (Ne.symm hpath)]
      exact h.written other hlast
  · intro other hlast
    rw [last_snoc_write] at hlast
    by_cases hpath : path = other
    · rw [if_pos hpath] at hlast
      exact absurd hlast (by simp)
    · rw [if_neg hpath] at hlast
      rw [Map.get_set, if_neg hpath, Function.update_of_ne (Ne.symm hpath)]
      refine ⟨(h.removed other hlast).1, fun hnever => (h.removed other hlast).2 ?_⟩
      exact fun hwrite => hnever (List.mem_append_left _ hwrite)

theorem Tracks.removeFile (h : Tracks done before files meant) (path : JsString) {meant' : Files}
    (hother : ∀ other, path ≠ other → meant' other = meant other)
    (hsame : .write path ∉ done → meant' path = none) :
    Tracks (done ++ [.remove path]) before (files.delete path) meant' := by
  constructor
  · intro other hlast
    rw [last_snoc_remove] at hlast
    by_cases hpath : path = other
    · rw [if_pos hpath] at hlast
      exact absurd hlast (by simp)
    · rw [if_neg hpath] at hlast
      rw [Map.get_delete, if_neg hpath, hother other hpath]
      exact h.untouched other hlast
  · intro other hlast
    rw [last_snoc_remove] at hlast
    by_cases hpath : path = other
    · rw [if_pos hpath] at hlast
      exact absurd hlast (by simp)
    · rw [if_neg hpath] at hlast
      rw [Map.get_delete, if_neg hpath, hother other hpath]
      exact h.written other hlast
  · intro other hlast
    rw [last_snoc_remove] at hlast
    rw [Map.get_delete]
    by_cases hpath : path = other
    · rw [if_pos hpath]
      refine ⟨rfl, fun hnever => ?_⟩
      rw [← hpath] at hnever ⊢
      exact hsame fun hwrite => hnever (List.mem_append_left _ hwrite)
    · rw [if_neg hpath] at hlast
      rw [if_neg hpath, hother other hpath]
      refine ⟨(h.removed other hlast).1, fun hnever => (h.removed other hlast).2 ?_⟩
      exact fun hwrite => hnever (List.mem_append_left _ hwrite)

end Tracks

/-! ## One hunk -/

def ApplyPatchSummary.names (summary : ApplyPatchSummary) : List JsString :=
  summary.added ++ summary.modified

theorem mem_record {bucket : List JsString} {value name : JsString} :
    name ∈ record bucket value ↔ name ∈ bucket ∨ name = value := by
  rw [record]
  split
  · rename_i hknown
    constructor
    · exact Or.inl
    · rintro (hmem | rfl)
      · exact hmem
      · exact hknown
  · rw [List.mem_append, List.mem_singleton]

theorem mem_names_added {summary : ApplyPatchSummary} {value name : JsString} :
    name ∈ (recordSummary summary .added value).names ↔ name ∈ summary.names ∨ name = value := by
  simp only [recordSummary, ApplyPatchSummary.names, List.mem_append, mem_record]
  exact or_right_comm

theorem mem_names_modified {summary : ApplyPatchSummary} {value name : JsString} :
    name ∈ (recordSummary summary .modified value).names ↔ name ∈ summary.names ∨ name = value := by
  simp only [recordSummary, ApplyPatchSummary.names, List.mem_append, mem_record]
  exact or_assoc.symm

section Hunks

variable {host : PatchHost} {s next : PatchState} {files files' : Map JsString}
  {path contents : JsString}

theorem writeFile_ok (h : writeFile host files path contents = .ok files') :
    files' = files.set path contents := by
  rw [writeFile] at h
  split at h
  · exact (Except.ok.inj h).symm
  · exact absurd h (by simp)

theorem remove_ok (h : remove host files path = .ok files') : files' = files.delete path := by
  rw [remove] at h
  split at h
  · exact (Except.ok.inj h).symm
  · exact absurd h (by simp)

theorem updatedContents_ok {chunks : List UpdateFileChunk} {result : JsString}
    (h : updatedContents host files path chunks = .ok result) :
    ∃ contents, files.get path = some contents ∧ applyUpdateHunk path contents chunks = .ok result := by
  obtain ⟨contents, hread, hresult⟩ := bind_eq_ok_iff.mp h
  rw [mapError_eq_ok_iff, readFile] at hread
  refine ⟨contents, ?_, hresult⟩
  split at hread
  · rename_i hget
    rw [hget, Except.ok.inj hread]
  · exact absurd hread (by simp)
  · exact absurd hread (by simp)

theorem resolved_of_ok {policy : PathAliasPolicy} {target : PatchTarget}
    (h : host.resolvePatchPath path policy = .ok target) : resolved host path policy = some target := by
  rw [resolved, h]
  rfl

theorem applyHunk_ok {hunk : TextHunk} {done : List (Effect JsString)} {before meant : Files}
    (h : applyHunk host s hunk.toHunk = .ok next) (htracks : Tracks done before s.files meant)
    (hapart : ApartIn host meant hunk) :
    (∃ meant', Means host meant hunk meant' ∧
        Tracks (done ++ effects host hunk) before next.files meant') ∧
      ∀ name, name ∈ next.summary.names ↔ name ∈ s.summary.names ∨
        ∃ target, written host hunk = some target ∧ target.display = name := by
  cases hunk with
  | add path lines =>
      obtain ⟨target, htarget, h⟩ := bind_eq_ok_iff.mp h
      obtain ⟨-, -, h⟩ := bind_eq_ok_iff.mp h
      obtain ⟨files, hfiles, h⟩ := bind_eq_ok_iff.mp h
      have htarget := resolved_of_ok htarget
      rw [← Except.ok.inj h, writeFile_ok hfiles]
      simp only [effects, written, htarget, Option.toList_some, Option.toList_none, List.map_nil,
        List.append_nil, List.map_cons]
      refine ⟨⟨_, .add htarget, htracks.write target.resolved _⟩, fun name => ?_⟩
      rw [mem_names_added]
      simp [eq_comm]
  | delete path =>
      obtain ⟨target, htarget, h⟩ := bind_eq_ok_iff.mp h
      obtain ⟨files, hfiles, h⟩ := bind_eq_ok_iff.mp h
      have htarget := resolved_of_ok htarget
      rw [← Except.ok.inj h, remove_ok hfiles]
      simp only [effects, written, htarget, Option.toList_some, Option.toList_none, List.map_nil,
        List.nil_append, List.map_cons]
      refine ⟨⟨_, .delete htarget, htracks.removeFile target.resolved ?_ ?_⟩, fun name => by
        simp [recordSummary, ApplyPatchSummary.names]⟩
      · intro other hother
        exact Function.update_of_ne (Ne.symm hother) _ _
      · exact fun _ => Function.update_self _ _ _
  | update path movePath chunks =>
      obtain ⟨target, htarget, h⟩ := bind_eq_ok_iff.mp h
      obtain ⟨result, hresult, h⟩ := bind_eq_ok_iff.mp h
      obtain ⟨contents, hcontents, hupdate⟩ := updatedContents_ok hresult
      have htarget := resolved_of_ok htarget
      have hmeant := htracks.agree hcontents
      have hmeans : UpdateMeans contents chunks result :=
        updateMeans_iff.mpr ⟨hupdate, hapart target contents htarget hmeant⟩
      cases hmove : movePath.filter fun moved => decide (moved ≠ []) with
      | none =>
          rw [hmove] at h
          obtain ⟨files, hfiles, h⟩ := bind_eq_ok_iff.mp h
          have hmoveTarget : moveTarget host movePath = none := no_move_of_filter hmove
          rw [← Except.ok.inj h, writeFile_ok hfiles]
          simp only [effects, written, htarget, hmoveTarget, Option.none_or, Option.toList_some,
            Option.isSome_none, Bool.false_eq_true, if_false, Option.toList_none, List.map_nil,
            List.append_nil, List.map_cons]
          refine ⟨⟨_, .update htarget hmove hmeant hmeans, htracks.write target.resolved result⟩,
            fun name => ?_⟩
          rw [mem_names_modified]
          simp [eq_comm]
      | some moved =>
          rw [hmove] at h
          obtain ⟨destination, hdestination, h⟩ := bind_eq_ok_iff.mp h
          obtain ⟨-, -, h⟩ := bind_eq_ok_iff.mp h
          obtain ⟨files, hfiles, h⟩ := bind_eq_ok_iff.mp h
          obtain ⟨files', hfiles', h⟩ := bind_eq_ok_iff.mp h
          have hmoveTarget : moveTarget host movePath = some destination := by
            rw [moveTarget, hmove, Option.bind_some, resolved_of_ok hdestination]
          have hwritten := htracks.write destination.resolved result
          rw [← Except.ok.inj h, remove_ok hfiles', writeFile_ok hfiles]
          simp only [effects, written, htarget, hmoveTarget, Option.some_or, Option.toList_some,
            Option.isSome_some, if_true, List.map_nil, List.map_cons]
          refine ⟨⟨_, .move htarget hmoveTarget hmeant hmeans, ?_⟩,
            fun name => by rw [mem_names_modified]; simp [eq_comm]⟩
          rw [← List.append_assoc]
          by_cases hsame : destination.resolved = target.resolved
          · rw [if_pos hsame]
            refine hwritten.removeFile target.resolved (fun _ _ => rfl) ?_
            intro hnever
            rw [← hsame] at hnever
            exact absurd (List.mem_append_right _ List.mem_cons_self) hnever
          · rw [if_neg hsame]
            refine hwritten.removeFile target.resolved ?_ ?_
            · intro other hother
              exact Function.update_of_ne (Ne.symm hother) _ _
            · exact fun _ => Function.update_self _ _ _

theorem applyHunks_ok {hunks : List TextHunk} {number : ℕ} {done : List (Effect JsString)}
    {before meant : Files} (h : applyHunks host number s (hunks.map TextHunk.toHunk) = .ok next)
    (htracks : Tracks done before s.files meant) (hapart : UpdatesApart host meant hunks) :
    (∃ final, MeansAll host meant hunks final ∧
        Tracks (done ++ effectsOf host hunks) before next.files final) ∧
      ∀ name, name ∈ next.summary.names ↔ name ∈ s.summary.names ∨
        ∃ hunk ∈ hunks, ∃ target, written host hunk = some target ∧ target.display = name := by
  induction hunks generalizing number s done meant with
  | nil =>
      have hnext : s = next := Except.ok.inj h
      rw [← hnext]
      refine ⟨⟨meant, .done meant, ?_⟩, by simp⟩
      rw [effectsOf, List.flatMap_nil, List.append_nil]
      exact htracks
  | cons hunk hunks ih =>
      rw [List.map_cons, applyHunks] at h
      split at h
      · exact absurd h (by simp)
      · split at h
        · exact absurd h (by simp)
        · rename_i middle hfirst
          obtain ⟨⟨meant', hmeant', htracks'⟩, hnames'⟩ := applyHunk_ok hfirst htracks hapart.1
          obtain ⟨⟨final, hfinal, htracked⟩, hnames⟩ := ih h htracks' (hapart.2 meant' hmeant')
          refine ⟨⟨final, .hunk hmeant' hfinal, ?_⟩, fun name => ?_⟩
          · rw [effectsOf, List.flatMap_cons, ← List.append_assoc]
            exact htracked
          · rw [hnames, hnames', or_assoc]
            simp only [List.mem_cons, exists_eq_or_imp]

theorem mem_effects_write {hunk : TextHunk} {path : JsString} :
    Effect.write path ∈ effects host hunk ↔
      ∃ target, written host hunk = some target ∧ target.resolved = path := by
  simp only [effects, List.mem_append, List.mem_map, Option.mem_toList, Effect.write.injEq,
    reduceCtorEq, and_false, exists_false, or_false]

end Hunks

/-! ## The whole patch -/

section WholePatch

variable {host : PatchHost} {input : JsString} {before after : Map JsString} {result : ApplyPatchResult}

theorem applyPatch_ok (h : applyPatch host input before = .ok (after, result)) :
    ∃ parsed s, parsePatchText input = .ok parsed ∧
      applyHunks host 0 { files := before } parsed.hunks = .ok s ∧ s.files = after ∧
      s.summary = result.summary := by
  obtain ⟨parsed, hparse, h⟩ := bind_eq_ok_iff.mp h
  split at h
  · exact absurd h (by simp)
  · obtain ⟨s, hs, hresult⟩ := bind_eq_ok_iff.mp h
    have hpair := Prod.mk.inj (Except.ok.inj hresult)
    exact ⟨parsed, s, hparse, hs, hpair.1, by rw [← hpair.2]⟩

theorem applyHunks_of_spells {texts : List TextHunk} (hspells : SpellsPatch input texts)
    (h : applyPatch host input before = .ok (after, result)) :
    ∃ s, applyHunks host 0 { files := before } (texts.map TextHunk.toHunk) = .ok s ∧
      s.files = after ∧ s.summary = result.summary := by
  obtain ⟨parsed, s, hparse, hs, hfiles, hsummary⟩ := applyPatch_ok h
  obtain ⟨spelled, hspelled, hhunks⟩ := parse_of_spells hspells
  rw [hparse] at hspelled
  rw [Except.ok.inj hspelled, hhunks] at hs
  exact ⟨s, hs, hfiles, hsummary⟩

theorem mem_effectsOf_write {texts : List TextHunk} {path : JsString} :
    Effect.write path ∈ effectsOf host texts ↔
      ∃ hunk ∈ texts, ∃ target, written host hunk = some target ∧ target.resolved = path := by
  rw [effectsOf, List.mem_flatMap]
  simp only [mem_effects_write]

/-- When a patch is applied, the files are the ones that its text means, and those that the summary
names are there, exactly when every file that it writes is written last and the places of the chunks
of each update are apart. -/
theorem applied_iff_writesLast (happly : applyPatch host input before = .ok (after, result)) :
    (∃ texts, SpellsPatch input texts) ∧ ∀ texts, SpellsPatch input texts →
      (AppliedAsMeant host texts before after result.summary ↔
        WritesLast (effectsOf host texts) ∧ UpdatesApart host before.get texts) := by
  refine ⟨?_, fun texts hspells => ?_⟩
  · obtain ⟨parsed, -, hparse, -⟩ := applyPatch_ok happly
    exact spells_of_parse hparse
  obtain ⟨s, hs, rfl, hsummary⟩ := applyHunks_of_spells hspells happly
  have htracked (hapart : UpdatesApart host before.get texts) :
      ∃ final, MeansAll host before.get texts final ∧
        Tracks (effectsOf host texts) before.get s.files final ∧
        ∀ name, name ∈ result.summary.added ++ result.summary.modified ↔
          ∃ hunk ∈ texts, ∃ target, written host hunk = some target ∧ target.display = name := by
    obtain ⟨⟨final, hfinal, htracks⟩, hnames⟩ := applyHunks_ok hs (tracks_start before) hapart
    refine ⟨final, hfinal, htracks, fun name => ?_⟩
    rw [hsummary] at hnames
    exact (hnames name).trans (or_iff_right (by simp [ApplyPatchSummary.names]))
  constructor
  · intro happlied
    obtain ⟨meant, hmeant, -⟩ := happlied.meant
    refine ⟨fun path hwrite => ?_, hmeant.apart⟩
    obtain ⟨final, -, htracks, hnamed⟩ := htracked hmeant.apart
    obtain ⟨hunk, hhunk, target, htarget, rfl⟩ := mem_effectsOf_write.mp hwrite
    have hname := (hnamed target.display).mpr ⟨hunk, hhunk, target, htarget, rfl⟩
    have hthere := (happlied.named target.display hname).2 hunk hhunk target htarget rfl
    rcases last_cases (effectsOf host texts) target.resolved with hlast | hlast | hlast
    · exact absurd rfl (last_eq_none_iff.mp hlast _ hwrite)
    · exact hlast
    · rw [(htracks.removed _ hlast).1] at hthere
      exact absurd hthere (by simp)
  · rintro ⟨hlasts, hapart⟩
    obtain ⟨final, hfinal, htracks, hnamed⟩ := htracked hapart
    constructor
    · refine ⟨final, hfinal, fun path => ?_⟩
      rcases last_cases (effectsOf host texts) path with hlast | hlast | hlast
      · obtain ⟨hfiles, hmeant⟩ := htracks.untouched path hlast
        rw [hfiles, hmeant]
      · exact (htracks.written path hlast).1
      · obtain ⟨hfiles, hmeant⟩ := htracks.removed path hlast
        have hnever : Effect.write path ∉ effectsOf host texts := by
          intro hwrite
          rw [hlasts path hwrite] at hlast
          exact absurd hlast (by simp)
        rw [hfiles, hmeant hnever]
    · intro name hname
      refine ⟨(hnamed name).mp hname, fun hunk hhunk target htarget _ => ?_⟩
      have hwrite := mem_effectsOf_write.mpr ⟨hunk, hhunk, target, htarget, rfl⟩
      exact (htracks.written _ (hlasts _ hwrite)).2
    · intro path hpath
      exact (htracks.untouched path (last_eq_none_iff.mpr hpath)).1

end WholePatch

/-! ## Patches -/

section Samples

def rootHost : PatchHost where
  resolvePatchPath path _ := .ok ⟨js "/" ++ path, path⟩
  assertPatchParentPath _ := .ok ()
  readFailure _ _ := none
  missingFile path := js "no such file " ++ path
  writeFailure _ _ := none
  removeFailure files path :=
    if (files.get path).isSome = true then none else some (js "no such file")
  aborted _ := false

def oneFile : Map JsString := Map.empty.set (js "/a.txt") (js "old\n")

def oldToNew : TextChunk := ⟨none, [.removed (js "old"), .added (js "new")], false⟩

theorem spells_moved {path line : JsString} {hunks : List TextHunk} {rest : List JsString}
    (hline : trim line = MOVE_TO_MARKER ++ path) (hrest : SpellsHunks hunks rest)
    (hstars : ∀ next ∈ rest.head?, js "***" <+: next) :
    SpellsHunks (.update (js "a.txt") (some path) [oldToNew] :: hunks)
      (js "*** Update File: a.txt" :: ([line] ++ ([js "@@", js "-old", js "+new"] ++ rest))) := by
  have hbody : List.Forall₂ ChunkLine.Spells oldToNew.lines [js "-old", js "+new"] :=
    .cons (.removed (js "old")) (.cons (.added (js "new")) .nil)
  have hchunks : SpellsChunks true false [oldToNew] [js "@@", js "-old", js "+new"] :=
    .chunk (.plain true) (by simp) hbody (by simp) (.done false true)
  exact .update (by decide +kernel) (.move hline) (by simp) hchunks (by simp) hstars hrest

theorem placesApart_one (contents : JsString) (chunk : TextChunk) : PlacesApart contents [chunk] := by
  intro lines edits _ hplaced
  cases hplaced with
  | chunk _ _ hrest =>
      cases hrest
      exact List.pairwise_singleton _ _

def movingPatch : JsString :=
  js "*** Begin Patch\n*** Update File: a.txt\n*** Move to: b.txt\n@@\n-old\n+new\n*** Add File: c.txt\n+text\n*** End Patch"

theorem spells_movingPatch : SpellsPatch movingPatch
    [.update (js "a.txt") (some (js "b.txt")) [oldToNew], .add (js "c.txt") [js "text"]] := by
  have hadded : SpellsHunks [.add (js "c.txt") [js "text"]] [js "*** Add File: c.txt", js "+text"] :=
    .add (by decide +kernel) .done
  have hmove : trim (js "*** Move to: b.txt") = MOVE_TO_MARKER ++ js "b.txt" := by decide +kernel
  have hhunks := spells_moved hmove hadded (by decide +kernel)
  exact ⟨_, .plain ⟨js "*** Begin Patch", js "*** End Patch", by decide +kernel, by decide +kernel,
    by decide +kernel⟩, hhunks⟩

theorem applied_iff_writesLast_moving : ∃ texts after result, SpellsPatch movingPatch texts ∧
    applyPatch rootHost movingPatch oneFile = .ok (after, result) ∧
      AppliedAsMeant rootHost texts oneFile after result.summary := by
  have hrun : (applyPatch rootHost movingPatch oneFile).toOption.isSome = true := by
    decide +kernel
  cases happly : applyPatch rootHost movingPatch oneFile with
  | error err =>
      rw [happly] at hrun
      exact absurd hrun (by simp [Except.toOption])
  | ok applied =>
      refine ⟨_, applied.1, applied.2, spells_movingPatch, rfl, ?_⟩
      refine ((applied_iff_writesLast happly).2 _ spells_movingPatch).mpr ⟨by decide +kernel, ?_⟩
      exact ⟨fun _ contents _ _ => placesApart_one contents oldToNew,
        fun _ _ => ⟨trivial, fun _ _ => trivial⟩⟩

def selfMovePatch : JsString :=
  js "*** Begin Patch\n*** Update File: a.txt\n*** Move to: a.txt\n@@\n-old\n+new\n*** End Patch"

/-- The file is written, then removed as the source of the move, and named as modified. -/
theorem moved_onto_itself : ∃ texts after result, SpellsPatch selfMovePatch texts ∧
    applyPatch rootHost selfMovePatch oneFile = .ok (after, result) ∧
      ¬ AppliedAsMeant rootHost texts oneFile after result.summary := by
  have hmove : trim (js "*** Move to: a.txt") = MOVE_TO_MARKER ++ js "a.txt" := by decide +kernel
  have hhunks := spells_moved hmove .done (by simp)
  have hspells : SpellsPatch selfMovePatch [.update (js "a.txt") (some (js "a.txt")) [oldToNew]] :=
    ⟨_, .plain ⟨js "*** Begin Patch", js "*** End Patch", by decide +kernel, by decide +kernel,
      by decide +kernel⟩, hhunks⟩
  have hrun : (applyPatch rootHost selfMovePatch oneFile).toOption.any fun applied =>
      decide (applied.1.get (js "/a.txt") = none) &&
        (applied.2.summary.added ++ applied.2.summary.modified).contains (js "a.txt") := by
    decide +kernel
  cases happly : applyPatch rootHost selfMovePatch oneFile with
  | error err =>
      rw [happly] at hrun
      exact absurd hrun (by simp [Except.toOption])
  | ok applied =>
      rw [happly] at hrun
      replace hrun : (decide (applied.1.get (js "/a.txt") = none) &&
        (applied.2.summary.added ++ applied.2.summary.modified).contains (js "a.txt")) = true := hrun
      rw [Bool.and_eq_true, decide_eq_true_eq, List.contains_iff_mem] at hrun
      refine ⟨_, applied.1, applied.2, hspells, rfl, fun happlied => ?_⟩
      have hthere := (happlied.named (js "a.txt") hrun.2).2 _ List.mem_cons_self
        ⟨js "/a.txt", js "a.txt"⟩ rfl rfl
      rw [hrun.1] at hthere
      exact absurd hthere (by simp)

end Samples

end GreenchClaw.ApplyPatch
