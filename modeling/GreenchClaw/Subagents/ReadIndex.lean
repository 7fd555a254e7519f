import GreenchClaw.Subagents.Queries

/-!
# The read index and the plain queries

The latest run of a child session says who requested it, so every child session has one requester. Both
traversals pass the same requests, and the index finds the same latest runs.
-/

namespace GreenchClaw.Subagents

open GreenchClaw.Js SubagentRunRecord

structure SubagentRuns where
  runs : Map SubagentRunRecord
  keyed : ∀ run ∈ runs.entries, run.2.runId = run.1
  trimmed : ∀ run ∈ runs.entries, trim run.2.childSessionKey = run.2.childSessionKey

def latestRun (runs : Map SubagentRunRecord) (child : JsString) : Option SubagentRunRecord :=
  Newest.newestOf createdAt ((values runs).filter fun entry => entry.childSessionKey = child)

def Requests (runs : Map SubagentRunRecord) (requester child : JsString) : Prop :=
  requester ≠ [] ∧ child ≠ [] ∧ ∃ run, latestRun runs child = some run ∧ run.requesterSessionKey = requester

theorem findLatestRunForChildSession_eq (runs : Map SubagentRunRecord) {key : JsString} (h : trim key ≠ []) :
    findLatestRunForChildSession runs key = latestRun runs (trim key) := by
  rw [findLatestRunForChildSession, if_neg h, latestRun, Newest.newestOf, List.foldl_filter]
  simp only [decide_eq_true_eq]

/-! ## Remembered runs -/

theorem get_rememberLatestRunPair (map : Map LatestRunPair) (key runId : JsString) (entry : SubagentRunRecord)
    (other : JsString) :
    (rememberLatestRunPair map key runId entry).get other =
      if key = other then Newest.keep (fun pair : LatestRunPair => pair.entry.createdAt) (map.get other) ⟨runId, entry⟩
      else map.get other := by
  by_cases hkey : key = other
  · rw [if_pos hkey, ← hkey, rememberLatestRunPair]
    cases hexisting : map.get key with
    | none =>
        rw [Map.get_set, if_pos rfl]
        rfl
    | some existing =>
        rw [Newest.keep]
        simp only
        split
        · rw [Map.get_set, if_pos rfl]
        · exact hexisting
  · rw [if_neg hkey, rememberLatestRunPair]
    split
    · rw [Map.get_set, if_neg hkey]
    · split
      · rw [Map.get_set, if_neg hkey]
      · rfl

theorem get_rememberLatestRunEntry (map : Map SubagentRunRecord) (key : JsString) (entry : SubagentRunRecord)
    (other : JsString) :
    (rememberLatestRunEntry map key entry).get other =
      if key = other then Newest.keep createdAt (map.get other) entry else map.get other := by
  by_cases hkey : key = other
  · rw [if_pos hkey, ← hkey, rememberLatestRunEntry]
    cases hexisting : map.get key with
    | none =>
        rw [Map.get_set, if_pos rfl]
        rfl
    | some existing =>
        rw [Newest.keep]
        simp only
        split
        · rw [Map.get_set, if_pos rfl]
        · exact hexisting
  · rw [if_neg hkey, rememberLatestRunEntry]
    split
    · rw [Map.get_set, if_neg hkey]
    · split
      · rw [Map.get_set, if_neg hkey]
      · rfl

def pairOf (run : JsString × SubagentRunRecord) : LatestRunPair := ⟨run.1, run.2⟩

theorem get_foldl_remember (runs : List (JsString × SubagentRunRecord)) (map : Map LatestRunPair) (key : JsString) :
    (runs.foldl (fun (map : Map LatestRunPair) run =>
      rememberLatestRunPair map (trim run.2.childSessionKey) run.1 run.2) map).get key =
      ((runs.filter fun run => trim run.2.childSessionKey = key).map pairOf).foldl
        (Newest.keep fun pair => pair.entry.createdAt) (map.get key) := by
  induction runs generalizing map with
  | nil => rfl
  | cons run runs ih =>
      rw [List.foldl_cons, ih, get_rememberLatestRunPair, List.filter_cons]
      by_cases hkey : trim run.2.childSessionKey = key
      · rw [if_pos hkey, if_pos (decide_eq_true hkey), List.map_cons, List.foldl_cons]
        rfl
      · rw [if_neg hkey, if_neg (by rw [decide_eq_true_eq]; exact hkey)]

def newestPair (runs : Map SubagentRunRecord) (p : JsString × SubagentRunRecord → Bool) : Option LatestRunPair :=
  Newest.newestOf (fun pair : LatestRunPair => pair.entry.createdAt) ((runs.entries.filter p).map pairOf)

section Pairs

variable {runs : Map SubagentRunRecord} {p : JsString × SubagentRunRecord → Bool} {pair : LatestRunPair}

theorem mem_of_newestPair (h : newestPair runs p = some pair) :
    ∃ run ∈ runs.entries, p run = true ∧ pairOf run = pair := by
  obtain ⟨run, hrun, hpair⟩ := List.mem_map.mp (Newest.mem_of_newestOf h)
  rw [List.mem_filter] at hrun
  exact ⟨run, hrun.1, hrun.2, hpair⟩

theorem newestPair_narrow (h : newestPair runs p = some pair) {q : LatestRunPair → Bool} (hpair : q pair = true) :
    newestPair runs (fun run => q (pairOf run) && p run) = some pair := by
  have hfilter := Newest.newestOf_filter h hpair
  rw [List.filter_map, List.filter_filter] at hfilter
  exact hfilter

theorem get_foldl_filter (runs : Map SubagentRunRecord) (p : JsString × SubagentRunRecord → Bool) (key : JsString) :
    ((runs.entries.filter p).foldl (fun (map : Map LatestRunPair) run =>
      rememberLatestRunPair map (trim run.2.childSessionKey) run.1 run.2) Map.empty).get key =
      newestPair runs fun run => trim run.2.childSessionKey = key && p run := by
  rw [get_foldl_remember, List.filter_filter, newestPair, Newest.newestOf]
  rfl

end Pairs

section Keyed

variable (runs : SubagentRuns) {child : JsString} {pair : LatestRunPair} {run : SubagentRunRecord}

theorem latestRun_eq (child : JsString) :
    latestRun runs.runs child =
      (newestPair runs.runs fun run => trim run.2.childSessionKey = child).map LatestRunPair.entry := by
  have hsame : (runs.runs.entries.filter fun run => decide (trim run.2.childSessionKey = child)) =
      runs.runs.entries.filter fun run => decide (run.2.childSessionKey = child) := by
    apply List.filter_congr
    intro run hrun
    rw [runs.trimmed run hrun]
  rw [latestRun, newestPair, hsame, Newest.newestOf_map, List.map_map, values, List.filter_map]
  rfl

theorem newestPair_of_latestRun (h : latestRun runs.runs child = some run) :
    newestPair runs.runs (fun run => trim run.2.childSessionKey = child) = some ⟨run.runId, run⟩ := by
  rw [latestRun_eq] at h
  obtain ⟨pair, hpair, hentry⟩ := Option.map_eq_some_iff.mp h
  obtain ⟨item, hitem, -, hpairOf⟩ := mem_of_newestPair hpair
  rw [hpair, ← hentry, ← hpairOf]
  exact congrArg some (congrArg₂ LatestRunPair.mk (runs.keyed item hitem).symm rfl)

theorem mem_values_of_latestRun (h : latestRun runs.runs child = some run) :
    run ∈ values runs.runs ∧ run.childSessionKey = child := by
  have hmem := Newest.mem_of_newestOf h
  rw [List.mem_filter, decide_eq_true_eq] at hmem
  exact hmem

theorem trim_of_latestRun (h : latestRun runs.runs child = some run) : trim child = child := by
  obtain ⟨hrun, hchild⟩ := mem_values_of_latestRun runs h
  obtain ⟨item, hitem, hvalue⟩ := List.mem_map.mp hrun
  rw [← hchild, ← hvalue]
  exact runs.trimmed item hitem

end Keyed

/-! ## What a requester is visited for -/

structure FollowsRequests (runs : Map SubagentRunRecord) (edges : JsString → List (JsString × LatestRunPair)) :
    Prop where
  once : ∀ requester, ((edges requester).map Prod.fst).Nodup
  sound : ∀ requester child pair, (child, pair) ∈ edges requester → child ≠ [] ∧
    latestRun runs child = some pair.entry ∧ pair.runId = pair.entry.runId ∧
    pair.entry.requesterSessionKey = requester
  complete : ∀ requester child run, requester ≠ [] → child ≠ [] → latestRun runs child = some run →
    run.requesterSessionKey = requester → (child, ⟨run.runId, run⟩) ∈ edges requester

theorem mem_entries_iff {α : Type} (map : Map α) (key : JsString) (value : α) :
    (key, value) ∈ map.entries ↔ map.get key = some value :=
  ⟨Record.get_of_mem map.distinct, Record.mem_of_get⟩

theorem nodup_filterMap_keys {α β : Type} {items : List (JsString × α)} (h : (items.map Prod.fst).Nodup)
    {f : JsString × α → Option (JsString × β)}
    (hkey : ∀ item ∈ items, ∀ out, f item = some out → out.1 = item.1) :
    ((items.filterMap f).map Prod.fst).Nodup := by
  have hkeys : ((items.filterMap f).map Prod.fst).Sublist (items.map Prod.fst) := by
    clear h
    induction items with
    | nil => exact List.Sublist.refl _
    | cons item items ih =>
        have hrest := ih fun other hother => hkey other (List.mem_cons_of_mem _ hother)
        cases hitem : f item with
        | none =>
            rw [List.filterMap_cons_none hitem]
            exact hrest.cons _
        | some out =>
            rw [List.filterMap_cons_some hitem, List.map_cons, List.map_cons, hkey item List.mem_cons_self out hitem]
            exact hrest.cons_cons _
  exact List.Nodup.sublist hkeys h

section Traversals

variable (runs : SubagentRuns)

theorem get_latestByChildSessionKey (requester key : JsString) :
    (latestByChildSessionKey runs.runs requester).get key =
      newestPair runs.runs fun run =>
        trim run.2.childSessionKey = key && run.2.requesterSessionKey = requester := by
  rw [latestByChildSessionKey, ← get_foldl_filter, List.foldl_filter]
  simp only [decide_eq_true_eq]

theorem visitOf_some {requester child : JsString} {pair : LatestRunPair} {out : JsString × LatestRunPair}
    (hpair : (latestByChildSessionKey runs.runs requester).get child = some pair)
    (hout : visitOf runs.runs requester pair = some out) :
    out = (child, pair) ∧ child ≠ [] ∧ latestRun runs.runs child = some pair.entry ∧
      pair.runId = pair.entry.runId ∧ pair.entry.requesterSessionKey = requester := by
  rw [get_latestByChildSessionKey] at hpair
  obtain ⟨run, hrun, hmeets, hpairOf⟩ := mem_of_newestPair hpair
  rw [Bool.and_eq_true, decide_eq_true_eq, decide_eq_true_eq] at hmeets
  have hchild : trim pair.entry.childSessionKey = child := by
    rw [← hpairOf]
    exact hmeets.1
  have hkeyed : pair.runId = pair.entry.runId := by
    rw [← hpairOf]
    exact (runs.keyed run hrun).symm
  have hrequester : pair.entry.requesterSessionKey = requester := by
    rw [← hpairOf]
    exact hmeets.2
  unfold visitOf at hout
  split at hout
  · exact absurd hout nofun
  · rename_i latest hlatest
    split at hout
    · rename_i hsame
      have hblank : child ≠ [] := by
        intro hnil
        rw [hnil] at hchild
        rw [findLatestRunForChildSession, if_pos hchild] at hlatest
        exact absurd hlatest nofun
      rw [findLatestRunForChildSession_eq runs.runs (by rw [hchild]; exact hblank), hchild] at hlatest
      obtain ⟨other, hother, -, hotherPair⟩ := mem_of_newestPair (newestPair_of_latestRun runs hlatest)
      -- one id stands for one run
      have hentry : latest = pair.entry := by
        have hget := Record.get_of_mem runs.runs.distinct hrun
        have hgetOther := Record.get_of_mem runs.runs.distinct hother
        have hlatestEntry : other.2 = latest := congrArg LatestRunPair.entry hotherPair
        have hpairEntry : run.2 = pair.entry := congrArg LatestRunPair.entry hpairOf
        have hid : other.1 = run.1 := by
          rw [← runs.keyed other hother, ← runs.keyed run hrun, hlatestEntry, hpairEntry, hsame.1, hkeyed]
        rw [hid, hget] at hgetOther
        rw [← hlatestEntry, ← hpairEntry]
        exact (Option.some.inj hgetOther).symm
      rw [hentry] at hlatest
      refine ⟨?_, hblank, hlatest, hkeyed, hrequester⟩
      rw [← Option.some.inj hout, hchild]
    · exact absurd hout nofun

theorem newestPair_of_requester {requester child : JsString} {run : SubagentRunRecord}
    (h : latestRun runs.runs child = some run) (hrequester : run.requesterSessionKey = requester) :
    newestPair runs.runs (fun run =>
      trim run.2.childSessionKey = child && run.2.requesterSessionKey = requester) = some ⟨run.runId, run⟩ := by
  have hnarrow := @newestPair_narrow _ _ _ (newestPair_of_latestRun runs h)
    (fun pair => decide (pair.entry.requesterSessionKey = requester)) (decide_eq_true hrequester)
  rw [← hnarrow]
  congr 1
  funext run
  exact Bool.and_comm _ _

theorem descendantsOf_followsRequests : FollowsRequests runs.runs (descendantsOf runs.runs) where
  once requester := by
    apply nodup_filterMap_keys (latestByChildSessionKey runs.runs requester).distinct
    intro item hitem out hout
    have hget := (mem_entries_iff _ item.1 item.2).mp hitem
    rw [(visitOf_some runs hget hout).1]
  sound requester child pair hmem := by
    obtain ⟨item, hitem, hout⟩ := List.mem_filterMap.mp hmem
    have hget := (mem_entries_iff _ item.1 item.2).mp hitem
    obtain ⟨hsame, hfacts⟩ := visitOf_some runs hget hout
    rw [(Prod.mk.inj hsame).1, (Prod.mk.inj hsame).2]
    exact hfacts
  complete requester child run hrequester hchild hlatest hrun := by
    have hget : (latestByChildSessionKey runs.runs requester).get child = some ⟨run.runId, run⟩ := by
      rw [get_latestByChildSessionKey]
      exact newestPair_of_requester runs hlatest hrun
    have htrim : trim run.childSessionKey = child := by
      rw [(mem_values_of_latestRun runs hlatest).2]
      exact trim_of_latestRun runs hlatest
    apply List.mem_filterMap.mpr
    refine ⟨(child, ⟨run.runId, run⟩), (mem_entries_iff _ _ _).mpr hget, ?_⟩
    have hfind : findLatestRunForChildSession runs.runs run.childSessionKey = some run := by
      rw [findLatestRunForChildSession_eq runs.runs (by rw [htrim]; exact hchild), htrim]
      exact hlatest
    unfold visitOf
    rw [hfind]
    simp only [htrim, hrun, and_self, if_true]

end Traversals

/-! ## The index -/

namespace SubagentRunReadIndex

variable (index : SubagentRunReadIndex) (runs : List (JsString × SubagentRunRecord))

def addRuns : SubagentRunReadIndex :=
  runs.foldl (fun (index : SubagentRunReadIndex) run => index.addRun run.1 run.2) index

theorem addRuns_cons (run : JsString × SubagentRunRecord) :
    index.addRuns (run :: runs) = (index.addRun run.1 run.2).addRuns runs := rfl

theorem addRun_maps (runId : JsString) (entry : SubagentRunRecord) :
    (index.addRun runId entry).now = index.now ∧
    (index.addRun runId entry).inMemoryDisplayByChildSessionKey = index.inMemoryDisplayByChildSessionKey ∧
    (index.addRun runId entry).latestRunByChildSessionKey =
      (if trim entry.childSessionKey = [] then index.latestRunByChildSessionKey
      else rememberLatestRunPair index.latestRunByChildSessionKey (trim entry.childSessionKey) runId entry) ∧
    (index.addRun runId entry).latestSnapshotActiveByChildSessionKey =
      (if trim entry.childSessionKey ≠ [] ∧ entry.isLiveUnendedSubagentRun index.now = true then
        rememberLatestRunEntry index.latestSnapshotActiveByChildSessionKey (trim entry.childSessionKey) entry
      else index.latestSnapshotActiveByChildSessionKey) ∧
    (index.addRun runId entry).latestSnapshotEndedByChildSessionKey =
      (if trim entry.childSessionKey ≠ [] ∧ entry.isLiveUnendedSubagentRun index.now = false then
        rememberLatestRunEntry index.latestSnapshotEndedByChildSessionKey (trim entry.childSessionKey) entry
      else index.latestSnapshotEndedByChildSessionKey) := by
  unfold addRun
  by_cases hkey : trim entry.childSessionKey = []
  · simp [hkey]
  · cases hlive : entry.isLiveUnendedSubagentRun index.now <;> simp [hkey, hlive]

theorem addRun_requester (runId : JsString) (entry : SubagentRunRecord) {requester : JsString} (h : requester ≠ []) :
    ((index.addRun runId entry).latestRunByRequesterAndChildSessionKey.get requester).getD Map.empty =
      if trim entry.childSessionKey ≠ [] ∧ entry.requesterSessionKey = requester then
        rememberLatestRunPair
          ((index.latestRunByRequesterAndChildSessionKey.get requester).getD Map.empty)
          (trim entry.childSessionKey) runId entry
      else (index.latestRunByRequesterAndChildSessionKey.get requester).getD Map.empty := by
  unfold addRun
  by_cases hkey : trim entry.childSessionKey = []
  · simp [hkey]
  · by_cases hblank : entry.requesterSessionKey = []
    · have hother : entry.requesterSessionKey ≠ requester := by
        rw [hblank]
        exact h.symm
      simp [hkey, hblank, h.symm]
    · by_cases hrequester : entry.requesterSessionKey = requester
      · simp [hkey, hrequester, h, Map.get_set]
      · simp [hkey, hrequester, hblank, Map.get_set]

theorem addRun_blank_requester (runId : JsString) (entry : SubagentRunRecord) :
    (index.addRun runId entry).latestRunByRequesterAndChildSessionKey.get [] =
      index.latestRunByRequesterAndChildSessionKey.get [] := by
  unfold addRun
  by_cases hkey : trim entry.childSessionKey = []
  · simp [hkey]
  · by_cases hblank : entry.requesterSessionKey = []
    · simp [hkey, hblank]
    · simp [hkey, hblank, Map.get_set]

theorem addRuns_now : (index.addRuns runs).now = index.now := by
  induction runs generalizing index with
  | nil => rfl
  | cons run runs ih => rw [addRuns_cons, ih, (addRun_maps index run.1 run.2).1]

theorem addRuns_memo :
    (index.addRuns runs).activeDescendantCountBySessionKey = index.activeDescendantCountBySessionKey := by
  induction runs generalizing index with
  | nil => rfl
  | cons run runs ih =>
      rw [addRuns_cons, ih, addRun]
      simp only
      split <;> rfl

theorem addRuns_inMemory :
    (index.addRuns runs).inMemoryDisplayByChildSessionKey = index.inMemoryDisplayByChildSessionKey := by
  induction runs generalizing index with
  | nil => rfl
  | cons run runs ih => rw [addRuns_cons, ih, (addRun_maps index run.1 run.2).2.1]

theorem addRuns_blank_requester :
    (index.addRuns runs).latestRunByRequesterAndChildSessionKey.get [] =
      index.latestRunByRequesterAndChildSessionKey.get [] := by
  induction runs generalizing index with
  | nil => rfl
  | cons run runs ih => rw [addRuns_cons, ih, addRun_blank_requester]

theorem get_latestRunByChildSessionKey {key : JsString} (h : key ≠ []) :
    (index.addRuns runs).latestRunByChildSessionKey.get key =
      ((runs.filter fun run => trim run.2.childSessionKey = key).map pairOf).foldl
        (Newest.keep fun pair => pair.entry.createdAt) (index.latestRunByChildSessionKey.get key) := by
  induction runs generalizing index with
  | nil => rfl
  | cons run runs ih =>
      rw [addRuns_cons, ih, (addRun_maps index run.1 run.2).2.2.1, List.filter_cons]
      by_cases hkey : trim run.2.childSessionKey = key
      · rw [if_neg (by rw [hkey]; exact h), if_pos (decide_eq_true hkey), get_rememberLatestRunPair, if_pos hkey]
        rfl
      · rw [if_neg (show ¬ decide (trim run.2.childSessionKey = key) = true by rw [decide_eq_true_eq]; exact hkey)]
        split
        · rfl
        · rw [get_rememberLatestRunPair, if_neg hkey]

theorem get_latestByChild {requester : JsString} (h : requester ≠ []) (key : JsString) :
    (((index.addRuns runs).latestRunByRequesterAndChildSessionKey.get requester).getD Map.empty).get key =
      ((runs.filter fun run => trim run.2.childSessionKey = key && decide (key ≠ []) &&
        run.2.requesterSessionKey = requester).map pairOf).foldl
        (Newest.keep fun pair => pair.entry.createdAt)
        (((index.latestRunByRequesterAndChildSessionKey.get requester).getD Map.empty).get key) := by
  induction runs generalizing index with
  | nil => rfl
  | cons run runs ih =>
      rw [addRuns_cons, ih, addRun_requester index run.1 run.2 h, List.filter_cons]
      by_cases hmine : trim run.2.childSessionKey ≠ [] ∧ run.2.requesterSessionKey = requester
      · rw [if_pos hmine, get_rememberLatestRunPair]
        by_cases hkey : trim run.2.childSessionKey = key
        · have hmeets : (trim run.2.childSessionKey = key && decide (key ≠ []) &&
              run.2.requesterSessionKey = requester) = true := by
            rw [← hkey, decide_eq_true rfl, decide_eq_true hmine.1, decide_eq_true hmine.2]
            rfl
          rw [if_pos hkey, if_pos hmeets]
          rfl
        · have hmisses : ¬ (trim run.2.childSessionKey = key && decide (key ≠ []) &&
              run.2.requesterSessionKey = requester) = true := by
            rw [Bool.and_eq_true, Bool.and_eq_true, decide_eq_true_eq]
            exact fun hmeets => hkey hmeets.1.1
          rw [if_neg hkey, if_neg hmisses]
      · have hmisses : ¬ (trim run.2.childSessionKey = key && decide (key ≠ []) &&
            run.2.requesterSessionKey = requester) = true := by
          simp only [Bool.and_eq_true, decide_eq_true_eq]
          rintro ⟨⟨hkey, hblank⟩, hrequester⟩
          rw [← hkey] at hblank
          exact hmine ⟨hblank, hrequester⟩
        rw [if_neg hmine, if_neg hmisses]

theorem get_active {key : JsString} (h : key ≠ []) :
    (index.addRuns runs).latestSnapshotActiveByChildSessionKey.get key =
      ((runs.filter fun run => trim run.2.childSessionKey = key &&
        run.2.isLiveUnendedSubagentRun index.now).map Prod.snd).foldl
        (Newest.keep createdAt) (index.latestSnapshotActiveByChildSessionKey.get key) := by
  induction runs generalizing index with
  | nil => rfl
  | cons run runs ih =>
      obtain ⟨hnow, -, -, hactive, -⟩ := addRun_maps index run.1 run.2
      rw [addRuns_cons, ih, hactive, hnow, List.filter_cons]
      by_cases hkey : trim run.2.childSessionKey = key
      · have hblank : trim run.2.childSessionKey ≠ [] := by
          rw [hkey]
          exact h
        cases hlive : run.2.isLiveUnendedSubagentRun index.now with
        | true =>
            rw [if_pos ⟨hblank, rfl⟩, decide_eq_true hkey, Bool.and_self, if_pos rfl, get_rememberLatestRunEntry,
              if_pos hkey]
            rfl
        | false =>
            rw [if_neg (fun hboth => Bool.false_ne_true hboth.2), Bool.and_false, if_neg Bool.false_ne_true]
      · rw [decide_eq_false hkey, Bool.false_and, if_neg Bool.false_ne_true]
        split
        · rw [get_rememberLatestRunEntry, if_neg hkey]
        · rfl

theorem get_ended {key : JsString} (h : key ≠ []) :
    (index.addRuns runs).latestSnapshotEndedByChildSessionKey.get key =
      ((runs.filter fun run => trim run.2.childSessionKey = key &&
        !run.2.isLiveUnendedSubagentRun index.now).map Prod.snd).foldl
        (Newest.keep createdAt) (index.latestSnapshotEndedByChildSessionKey.get key) := by
  induction runs generalizing index with
  | nil => rfl
  | cons run runs ih =>
      obtain ⟨hnow, -, -, -, hended⟩ := addRun_maps index run.1 run.2
      rw [addRuns_cons, ih, hended, hnow, List.filter_cons]
      by_cases hkey : trim run.2.childSessionKey = key
      · have hblank : trim run.2.childSessionKey ≠ [] := by
          rw [hkey]
          exact h
        cases hlive : run.2.isLiveUnendedSubagentRun index.now with
        | false =>
            rw [if_pos ⟨hblank, rfl⟩, decide_eq_true hkey, Bool.not_false, Bool.and_self, if_pos rfl,
              get_rememberLatestRunEntry, if_pos hkey]
            rfl
        | true =>
            rw [if_neg (fun hboth => Bool.false_ne_true hboth.2.symm), Bool.not_true, Bool.and_false,
              if_neg Bool.false_ne_true]
      · rw [decide_eq_false hkey, Bool.false_and, if_neg Bool.false_ne_true]
        split
        · rw [get_rememberLatestRunEntry, if_neg hkey]
        · rfl

theorem addInMemory_maps (entry : SubagentRunRecord) :
    (index.addInMemory entry).now = index.now ∧
    (index.addInMemory entry).latestRunByChildSessionKey = index.latestRunByChildSessionKey ∧
    (index.addInMemory entry).latestSnapshotActiveByChildSessionKey =
      index.latestSnapshotActiveByChildSessionKey ∧
    (index.addInMemory entry).latestSnapshotEndedByChildSessionKey =
      index.latestSnapshotEndedByChildSessionKey ∧
    (index.addInMemory entry).latestRunByRequesterAndChildSessionKey =
      index.latestRunByRequesterAndChildSessionKey := by
  unfold addInMemory
  by_cases hkey : trim entry.childSessionKey = [] <;> simp [hkey]

theorem addAllInMemory_maps (inMemoryRuns : List SubagentRunRecord) :
    (inMemoryRuns.foldl addInMemory index).now = index.now ∧
    (inMemoryRuns.foldl addInMemory index).latestRunByChildSessionKey = index.latestRunByChildSessionKey ∧
    (inMemoryRuns.foldl addInMemory index).latestRunByRequesterAndChildSessionKey =
      index.latestRunByRequesterAndChildSessionKey := by
  induction inMemoryRuns generalizing index with
  | nil => exact ⟨rfl, rfl, rfl⟩
  | cons entry inMemoryRuns ih =>
      obtain ⟨hnow, hlatest, -, -, hrequester⟩ := addInMemory_maps index entry
      rw [List.foldl_cons, ← hnow, ← hlatest, ← hrequester]
      exact ih (index.addInMemory entry)

end SubagentRunReadIndex

section Build

variable (runs : SubagentRuns) (inMemoryRuns : List SubagentRunRecord) (now : ℚ)

theorem build_eq : buildSubagentRunReadIndexFromRuns runs.runs inMemoryRuns now =
    (inMemoryRuns.foldl SubagentRunReadIndex.addInMemory { now }).addRuns runs.runs.entries := rfl

theorem build_now : (buildSubagentRunReadIndexFromRuns runs.runs inMemoryRuns now).now = now := by
  rw [build_eq, SubagentRunReadIndex.addRuns_now]
  exact (SubagentRunReadIndex.addAllInMemory_maps { now } inMemoryRuns).1

theorem get_build_latest {key : JsString} (h : key ≠ []) :
    (buildSubagentRunReadIndexFromRuns runs.runs inMemoryRuns now).latestRunByChildSessionKey.get key =
      newestPair runs.runs fun run => trim run.2.childSessionKey = key := by
  rw [build_eq, SubagentRunReadIndex.get_latestRunByChildSessionKey _ _ h,
    (SubagentRunReadIndex.addAllInMemory_maps { now } inMemoryRuns).2.1]
  rfl

theorem get_build_requester {requester : JsString} (h : requester ≠ []) (key : JsString) :
    (((buildSubagentRunReadIndexFromRuns runs.runs inMemoryRuns now).latestRunByRequesterAndChildSessionKey.get
      requester).getD Map.empty).get key =
      newestPair runs.runs fun run => trim run.2.childSessionKey = key && decide (key ≠ []) &&
        run.2.requesterSessionKey = requester := by
  rw [build_eq, SubagentRunReadIndex.get_latestByChild _ _ h,
    (SubagentRunReadIndex.addAllInMemory_maps { now } inMemoryRuns).2.2]
  rfl

theorem descendantsOf_eq (requester : JsString) :
    (buildSubagentRunReadIndexFromRuns runs.runs inMemoryRuns now).descendantsOf requester =
      (((buildSubagentRunReadIndexFromRuns runs.runs inMemoryRuns now).latestRunByRequesterAndChildSessionKey.get
        requester).getD Map.empty).entries.filter fun item =>
        ((buildSubagentRunReadIndexFromRuns runs.runs inMemoryRuns now).latestRunByChildSessionKey.get item.1).any
          fun latest => latest.runId = item.2.runId ∧ latest.entry.requesterSessionKey = requester := by
  rw [SubagentRunReadIndex.descendantsOf]
  cases (buildSubagentRunReadIndexFromRuns runs.runs inMemoryRuns now).latestRunByRequesterAndChildSessionKey.get
    requester <;> rfl

theorem descendantsOf_blank :
    (buildSubagentRunReadIndexFromRuns runs.runs inMemoryRuns now).descendantsOf [] = [] := by
  rw [SubagentRunReadIndex.descendantsOf, build_eq, SubagentRunReadIndex.addRuns_blank_requester,
    (SubagentRunReadIndex.addAllInMemory_maps { now } inMemoryRuns).2.2]
  rfl

end Build

section Traversals

variable (runs : SubagentRuns)

theorem pair_eq_of_runId {p q : JsString × SubagentRunRecord → Bool} {pair other : LatestRunPair}
    (hpair : newestPair runs.runs p = some pair) (hother : newestPair runs.runs q = some other)
    (hid : pair.runId = other.runId) : pair = other := by
  obtain ⟨run, hrun, -, hpairOf⟩ := mem_of_newestPair hpair
  obtain ⟨item, hitem, -, hotherOf⟩ := mem_of_newestPair hother
  have hsame : run.1 = item.1 := by
    have hrunId : run.1 = pair.runId := congrArg LatestRunPair.runId hpairOf
    have hitemId : item.1 = other.runId := congrArg LatestRunPair.runId hotherOf
    rw [hrunId, hitemId, hid]
  have hget := Record.get_of_mem runs.runs.distinct hrun
  rw [hsame, Record.get_of_mem runs.runs.distinct hitem] at hget
  rw [← hpairOf, ← hotherOf, pairOf, pairOf, hsame, Option.some.inj hget]

theorem index_followsRequests (inMemoryRuns : List SubagentRunRecord) (now : ℚ) :
    FollowsRequests runs.runs (buildSubagentRunReadIndexFromRuns runs.runs inMemoryRuns now).descendantsOf where
  once requester := by
    rw [descendantsOf_eq]
    exact List.Nodup.sublist (List.filter_sublist.map _) (Map.distinct _)
  sound requester child pair hmem := by
    by_cases hblank : requester = []
    · rw [hblank, descendantsOf_blank] at hmem
      exact absurd hmem List.not_mem_nil
    · rw [descendantsOf_eq, List.mem_filter, mem_entries_iff, get_build_requester _ _ _ hblank] at hmem
      obtain ⟨hpair, hany⟩ := hmem
      obtain ⟨run, hrun, hmeets, hpairOf⟩ := mem_of_newestPair hpair
      rw [Bool.and_eq_true, Bool.and_eq_true, decide_eq_true_eq, decide_eq_true_eq, decide_eq_true_eq] at hmeets
      obtain ⟨latest, hlatest, hsame⟩ := (Option.any_eq_true _ _).mp hany
      rw [get_build_latest _ _ _ hmeets.1.2] at hlatest
      rw [decide_eq_true_eq] at hsame
      have heq := pair_eq_of_runId runs hlatest hpair hsame.1
      rw [heq] at hlatest hsame
      refine ⟨hmeets.1.2, ?_, ?_, hsame.2⟩
      · rw [latestRun_eq, hlatest]
        rfl
      · rw [← hpairOf]
        exact (runs.keyed run hrun).symm
  complete requester child run hrequester hchild hlatest hrun := by
    rw [descendantsOf_eq, List.mem_filter, mem_entries_iff, get_build_requester _ _ _ hrequester]
    constructor
    · simp only [decide_eq_true hchild, Bool.and_true]
      exact newestPair_of_requester runs hlatest hrun
    · rw [get_build_latest _ _ _ hchild, newestPair_of_latestRun runs hlatest, Option.any_some]
      exact decide_eq_true ⟨rfl, hrun⟩

/-! ## What a traversal visits -/

variable {runs}

section Visits

variable {edges : JsString → List (JsString × LatestRunPair)} (h : FollowsRequests runs.runs edges)

include h

theorem edge_iff {requester child : JsString} (hrequester : requester ≠ []) :
    Worklist.Edge edges requester child ↔ Requests runs.runs requester child := by
  constructor
  · intro hedge
    obtain ⟨item, hitem, hchild⟩ := List.mem_map.mp hedge
    obtain ⟨hblank, hlatest, -, hrun⟩ := h.sound requester item.1 item.2 hitem
    rw [hchild] at hblank hlatest
    exact ⟨hrequester, hblank, item.2.entry, hlatest, hrun⟩
  · intro hrequests
    obtain ⟨-, hblank, run, hlatest, hrun⟩ := hrequests
    exact List.mem_map.mpr ⟨_, h.complete requester child run hrequester hblank hlatest hrun, rfl⟩

theorem path_iff {root node : JsString} (hroot : root ≠ []) :
    Relation.ReflTransGen (Worklist.Edge edges) root node ↔
      Relation.ReflTransGen (Requests runs.runs) root node := by
  constructor
  · intro hpath
    have hboth : Relation.ReflTransGen (Requests runs.runs) root node ∧ node ≠ [] := by
      induction hpath with
      | refl => exact ⟨Relation.ReflTransGen.refl, hroot⟩
      | tail _ hedge ih =>
          have hrequests := (edge_iff h ih.2).mp hedge
          exact ⟨ih.1.tail hrequests, hrequests.2.1⟩
    exact hboth.1
  · intro hpath
    induction hpath with
    | refl => exact Relation.ReflTransGen.refl
    | tail _ hrequests ih => exact ih.tail ((edge_iff h hrequests.1).mpr hrequests)

theorem edge_mem_children (root : JsString) {requester child : JsString} (hedge : Worklist.Edge edges requester child) :
    child ∈ root :: (values runs.runs).map SubagentRunRecord.childSessionKey := by
  obtain ⟨item, hitem, hchild⟩ := List.mem_map.mp hedge
  obtain ⟨-, hlatest, -⟩ := h.sound requester item.1 item.2 hitem
  obtain ⟨hrun, hkey⟩ := mem_values_of_latestRun runs hlatest
  apply List.mem_cons_of_mem
  rw [← hchild, ← hkey]
  exact List.mem_map_of_mem hrun

/-- A traversal ends, and sees the latest run of every child session below its root once. -/
theorem visits (root : JsString) (hroot : root ≠ []) (more : ℕ) :
    ∃ items : List (JsString × LatestRunPair),
      Worklist.run edges (runs.runs.entries.length + 1 + more) [root] [root] = some (items.map Prod.snd) ∧
      (items.map Prod.fst).Nodup ∧
      ∀ child pair, (child, pair) ∈ items ↔ Relation.TransGen (Requests runs.runs) root child ∧
        latestRun runs.runs child = some pair.entry ∧ pair.runId = pair.entry.runId := by
  have hlength : (root :: (values runs.runs).map SubagentRunRecord.childSessionKey).length ≤
      runs.runs.entries.length + 1 + more := by
    rw [List.length_cons, List.length_map, values, List.length_map]
    omega
  obtain ⟨order, hrun, hnodup, hreached⟩ := Worklist.run_root
    (fun requester child hedge => edge_mem_children h root hedge) List.mem_cons_self hlength
  have hnotBlank : ∀ node ∈ order, node ≠ [] := by
    intro node hnode
    rcases Relation.ReflTransGen.cases_tail ((path_iff h hroot).mp ((hreached node).mp hnode)) with hsame | hlast
    · rw [hsame]
      exact hroot
    · obtain ⟨requester, -, hrequests⟩ := hlast
      exact hrequests.2.1
  refine ⟨order.flatMap edges, ?_, ?_, ?_⟩
  · rw [hrun, List.map_flatMap]
  · rw [List.map_flatMap, List.nodup_flatMap]
    refine ⟨fun requester _ => h.once requester, hnodup.imp ?_⟩
    intro requester other hne child hchild hother
    obtain ⟨item, hitem, hkey⟩ := List.mem_map.mp hchild
    obtain ⟨item', hitem', hkey'⟩ := List.mem_map.mp hother
    obtain ⟨-, hlatest, -, hrequester⟩ := h.sound requester item.1 item.2 hitem
    obtain ⟨-, hlatest', -, hrequester'⟩ := h.sound other item'.1 item'.2 hitem'
    rw [hkey] at hlatest
    rw [hkey', hlatest] at hlatest'
    rw [← hrequester, ← hrequester', Option.some.inj hlatest'] at hne
    exact hne rfl
  · intro child pair
    rw [List.mem_flatMap]
    constructor
    · intro hmem
      obtain ⟨requester, hrequester, hitem⟩ := hmem
      obtain ⟨hblank, hlatest, hid, hof⟩ := h.sound requester child pair hitem
      have hpath := (path_iff h hroot).mp ((hreached requester).mp hrequester)
      exact ⟨Relation.TransGen.tail' hpath ⟨hnotBlank requester hrequester, hblank, pair.entry, hlatest, hof⟩,
        hlatest, hid⟩
    · intro hreach
      obtain ⟨hpath, hlatest, hid⟩ := hreach
      obtain ⟨requester, hbefore, hrequests⟩ := Relation.TransGen.tail'_iff.mp hpath
      obtain ⟨hrequester, hblank, run, hlatestRun, hof⟩ := hrequests
      rw [hlatest] at hlatestRun
      rw [← Option.some.inj hlatestRun] at hof
      refine ⟨requester, (hreached requester).mpr ((path_iff h hroot).mpr hbefore), ?_⟩
      have hitem := h.complete requester child pair.entry hrequester hblank hlatest hof
      rw [← hid] at hitem
      exact hitem

end Visits

end Traversals

/-! ## Counts -/

/-- The child sessions below a key whose latest run meets a condition. -/
structure Below (runs : Map SubagentRunRecord) (root : JsString) (p : SubagentRunRecord → Bool)
    (children : List JsString) : Prop where
  once : children.Nodup
  all : ∀ child, child ∈ children ↔ Relation.TransGen (Requests runs) root child ∧
    ∃ run, latestRun runs child = some run ∧ p run = true

section Counts

variable {runs : SubagentRuns}

theorem below_blank (p : SubagentRunRecord → Bool) : Below runs.runs [] p [] where
  once := List.nodup_nil
  all child := by
    refine ⟨nofun, ?_⟩
    intro hreach
    obtain ⟨next, hfirst, -⟩ := Relation.TransGen.head'_iff.mp hreach.1
    exact absurd rfl hfirst.1

theorem below_of_visits {root : JsString} {items : List (JsString × LatestRunPair)}
    (hnodup : (items.map Prod.fst).Nodup)
    (hitems : ∀ child pair, (child, pair) ∈ items ↔ Relation.TransGen (Requests runs.runs) root child ∧
      latestRun runs.runs child = some pair.entry ∧ pair.runId = pair.entry.runId)
    (p : SubagentRunRecord → Bool) :
    Below runs.runs root p ((items.filter fun item => p item.2.entry).map Prod.fst) where
  once := List.Nodup.sublist (List.filter_sublist.map _) hnodup
  all child := by
    constructor
    · intro hchild
      obtain ⟨item, hitem, hkey⟩ := List.mem_map.mp hchild
      rw [List.mem_filter] at hitem
      obtain ⟨hreach, hlatest, -⟩ := (hitems item.1 item.2).mp hitem.1
      rw [← hkey]
      exact ⟨hreach, item.2.entry, hlatest, hitem.2⟩
    · intro hbelow
      obtain ⟨hreach, run, hlatest, hp⟩ := hbelow
      have hitem := (hitems child ⟨run.runId, run⟩).mpr ⟨hreach, hlatest, rfl⟩
      exact List.mem_map.mpr ⟨_, List.mem_filter.mpr ⟨hitem, hp⟩, rfl⟩

theorem countP_visits (items : List (JsString × LatestRunPair)) (p : LatestRunPair → Bool) :
    (items.map Prod.snd).countP p = ((items.filter fun item => p item.2).map Prod.fst).length := by
  rw [List.countP_map, List.countP_eq_length_filter, List.length_map]
  rfl

theorem Below.length_eq {root : JsString} {p : SubagentRunRecord → Bool} {children others : List JsString}
    (h : Below runs.runs root p children) (h' : Below runs.runs root p others) : children.length = others.length :=
  ((List.perm_ext_iff_of_nodup h.once h'.once).mpr fun child => (h.all child).trans (h'.all child).symm).length_eq

theorem forEachDescendantRun_visits (runs : SubagentRuns) (root : JsString) (more : ℕ) :
    ∃ items : List (JsString × LatestRunPair),
      forEachDescendantRun runs.runs (runs.runs.entries.length + 1 + more) root = some (items.map Prod.snd) ∧
      (items.map Prod.fst).Nodup ∧
      ∀ child pair, (child, pair) ∈ items ↔ Relation.TransGen (Requests runs.runs) (trim root) child ∧
        latestRun runs.runs child = some pair.entry ∧ pair.runId = pair.entry.runId := by
  by_cases hroot : trim root = []
  · refine ⟨[], ?_, List.nodup_nil, ?_⟩
    · rw [forEachDescendantRun, if_pos hroot]
      rfl
    · intro child pair
      refine ⟨nofun, ?_⟩
      intro hreach
      rw [hroot] at hreach
      obtain ⟨next, hfirst, -⟩ := Relation.TransGen.head'_iff.mp hreach.1
      exact absurd rfl hfirst.1
  · obtain ⟨items, hrun, hfacts⟩ := visits (descendantsOf_followsRequests runs) (trim root) hroot more
    refine ⟨items, ?_, hfacts⟩
    rw [forEachDescendantRun, if_neg hroot]
    exact hrun

theorem countActive_plain (runs : SubagentRuns) (now : ℚ) (root : JsString) (more : ℕ) :
    ∃ children, Below runs.runs (trim root) (isLiveUnendedSubagentRun · now) children ∧
      countActiveDescendantRunsFromRuns runs.runs (runs.runs.entries.length + 1 + more) now root =
        some children.length := by
  obtain ⟨items, hvisits, hnodup, hitems⟩ := forEachDescendantRun_visits runs root more
  refine ⟨_, below_of_visits hnodup hitems _, ?_⟩
  rw [countActiveDescendantRunsFromRuns, hvisits, Option.map_some, countP_visits]

/-- The index as it was built, with right counts remembered. -/
structure Remembers (runs : SubagentRuns) (inMemoryRuns : List SubagentRunRecord) (now : ℚ)
    (index : SubagentRunReadIndex) : Prop where
  built : ∃ memo, index = { buildSubagentRunReadIndexFromRuns runs.runs inMemoryRuns now with
    activeDescendantCountBySessionKey := memo }
  counted : Memo.Holds (fun root count => ∃ children,
      Below runs.runs root (isLiveUnendedSubagentRun · now) children ∧ children.length = count)
    index.activeDescendantCountBySessionKey

section Remembered

variable {inMemoryRuns : List SubagentRunRecord} {now : ℚ} {index : SubagentRunReadIndex}

theorem remembers_build :
    Remembers runs inMemoryRuns now (buildSubagentRunReadIndexFromRuns runs.runs inMemoryRuns now) where
  built := ⟨_, rfl⟩
  counted := by
    have hempty : ∀ (entries : List SubagentRunRecord) (index : SubagentRunReadIndex),
        (entries.foldl SubagentRunReadIndex.addInMemory index).activeDescendantCountBySessionKey =
          index.activeDescendantCountBySessionKey := by
      intro entries
      induction entries with
      | nil => exact fun _ => rfl
      | cons entry entries ih =>
          intro index
          rw [List.foldl_cons, ih, SubagentRunReadIndex.addInMemory]
          simp only
          split <;> rfl
    rw [build_eq, SubagentRunReadIndex.addRuns_memo, hempty]
    exact Memo.holds_empty _

theorem Remembers.count (h : Remembers runs inMemoryRuns now index) (root : JsString) (more : ℕ) :
    ∃ children next, Below runs.runs (trim root) (isLiveUnendedSubagentRun · now) children ∧
      index.countActiveDescendantRuns (runs.runs.entries.length + 1 + more) root =
        some (children.length, next) ∧
      Remembers runs inMemoryRuns now next := by
  rw [SubagentRunReadIndex.countActiveDescendantRuns]
  simp only
  by_cases hroot : trim root = []
  · rw [if_pos hroot, hroot]
    exact ⟨[], index, below_blank _, rfl, h⟩
  · rw [if_neg hroot]
    cases hmemo : index.activeDescendantCountBySessionKey.lookup (trim root) with
    | some count =>
        obtain ⟨children, hbelow, hcount⟩ := h.counted _ _ hmemo
        rw [← hcount]
        exact ⟨children, index, hbelow, rfl, h⟩
    | none =>
        obtain ⟨items, hrun, hnodup, hitems⟩ :=
          visits (index_followsRequests runs inMemoryRuns now) (trim root) hroot more
        obtain ⟨children, hbelow, hcount⟩ : ∃ children,
            Below runs.runs (trim root) (isLiveUnendedSubagentRun · now) children ∧
              (items.map Prod.snd).countP (fun pair => pair.entry.isLiveUnendedSubagentRun now) =
                children.length :=
          ⟨_, below_of_visits hnodup hitems _, countP_visits items _⟩
        obtain ⟨memo, hbuilt⟩ := h.built
        have hdescendants : index.descendantsOf =
            (buildSubagentRunReadIndexFromRuns runs.runs inMemoryRuns now).descendantsOf := by
          rw [hbuilt]
          rfl
        have hnow : index.now = now := by
          rw [hbuilt]
          exact build_now runs inMemoryRuns now
        have hcounted := @Memo.holds_insert _ _ _ _ _ h.counted (trim root) children.length
          ⟨children, hbelow, rfl⟩
        refine ⟨children, { index with
          activeDescendantCountBySessionKey :=
            index.activeDescendantCountBySessionKey.insert (trim root) children.length }, hbelow, ?_,
          ⟨index.activeDescendantCountBySessionKey.insert (trim root) children.length, ?_⟩, hcounted⟩
        · rw [hdescendants, hrun, Option.map_some]
          simp only [hnow, hcount]
        · rw [hbuilt]

theorem Remembers.afterCounts (h : Remembers runs inMemoryRuns now index) (asked : List JsString) (more : ℕ) :
    ∃ last, index.afterCounts (runs.runs.entries.length + 1 + more) asked = some last ∧
      Remembers runs inMemoryRuns now last := by
  induction asked generalizing index with
  | nil => exact ⟨index, rfl, h⟩
  | cons key asked ih =>
      obtain ⟨children, next, -, hcount, hnext⟩ := h.count key more
      obtain ⟨last, hlast, hremembers⟩ := ih hnext
      refine ⟨last, ?_, hremembers⟩
      rw [SubagentRunReadIndex.afterCounts, List.foldlM_cons, hcount]
      exact hlast

end Remembered

/-! ## The excluded run -/

def CountedBelow (runs : SubagentRuns) (now : ℚ) (root runId : JsString) : Prop :=
  ∃ child run, Relation.TransGen (Requests runs.runs) root child ∧ latestRun runs.runs child = some run ∧
    run.runId = runId ∧ isRunPending now run = true

theorem countP_exclude {pairs : List LatestRunPair} (hids : (pairs.map LatestRunPair.runId).Nodup)
    (p : LatestRunPair → Bool) (runId : JsString) :
    pairs.countP p = (pairs.countP fun pair => p pair && decide (some pair.runId ≠ some runId)) +
      if ∃ pair ∈ pairs, pair.runId = runId ∧ p pair = true then 1 else 0 := by
  induction pairs with
  | nil => rfl
  | cons pair pairs ih =>
      rw [List.map_cons, List.nodup_cons] at hids
      rw [List.countP_cons, List.countP_cons, ih hids.2]
      by_cases hid : pair.runId = runId
      · have hnone : ¬ ∃ other ∈ pairs, other.runId = runId ∧ p other = true := by
          rintro ⟨other, hother, hsame, -⟩
          rw [← hid] at hsame
          exact hids.1 (hsame ▸ List.mem_map_of_mem hother)
        rw [if_neg hnone]
        cases hp : p pair with
        | true => simp [hid, hp]
        | false =>
            have hnot : ¬ ∃ other ∈ pair :: pairs, other.runId = runId ∧ p other = true := by
              rintro ⟨other, hother, hsame, hpending⟩
              rcases List.mem_cons.mp hother with heq | hrest
              · rw [heq, hp] at hpending
                exact Bool.false_ne_true hpending
              · exact hnone ⟨other, hrest, hsame, hpending⟩
            rw [if_neg hnot]
            simp
      · have hsame : (∃ other ∈ pair :: pairs, other.runId = runId ∧ p other = true) ↔
            ∃ other ∈ pairs, other.runId = runId ∧ p other = true := by
          simp only [List.mem_cons, exists_eq_or_imp, hid, false_and, false_or]
        simp only [hsame]
        cases p pair with
        | false => simp [hid]
        | true =>
            simp [hid]
            omega

theorem countPending_exclude (runs : SubagentRuns) (now : ℚ) (root excludeRunId : JsString) (more : ℕ) :
    ∃ total rest,
      countPendingDescendantRunsFromRuns runs.runs (runs.runs.entries.length + 1 + more) now root = some total ∧
      countPendingDescendantRunsExcludingRunFromRuns runs.runs (runs.runs.entries.length + 1 + more) now root
        excludeRunId = some rest ∧
      (total = rest + 1 ↔ CountedBelow runs now (trim root) (trim excludeRunId)) ∧
      (total = rest ↔ ¬ CountedBelow runs now (trim root) (trim excludeRunId)) := by
  obtain ⟨items, hvisits, hnodup, hitems⟩ := forEachDescendantRun_visits runs root more
  -- different child sessions have different latest runs
  have hids : ((items.map Prod.snd).map LatestRunPair.runId).Nodup := by
    rw [List.map_map]
    apply List.Nodup.map_on _ (List.Nodup.of_map _ hnodup)
    intro item hitem other hother hsame
    obtain ⟨-, hlatest, hid⟩ := (hitems item.1 item.2).mp hitem
    obtain ⟨-, hlatest', hid'⟩ := (hitems other.1 other.2).mp hother
    have hpair := newestPair_of_latestRun runs hlatest
    have hpair' := newestPair_of_latestRun runs hlatest'
    have hentry : item.2.entry = other.2.entry := by
      have heq := pair_eq_of_runId runs hpair hpair' (by rw [← hid, ← hid']; exact hsame)
      exact (LatestRunPair.mk.inj heq).2
    have hkey : item.1 = other.1 := by
      rw [← (mem_values_of_latestRun runs hlatest).2, ← (mem_values_of_latestRun runs hlatest').2, hentry]
    have hrunPair : item.2 = other.2 := congrArg₂ LatestRunPair.mk hsame hentry
    exact Prod.ext hkey hrunPair
  have hcounted : (∃ pair ∈ items.map Prod.snd, pair.runId = trim excludeRunId ∧
      isRunPending now pair.entry = true) ↔ CountedBelow runs now (trim root) (trim excludeRunId) := by
    constructor
    · rintro ⟨pair, hpair, hid, hpending⟩
      obtain ⟨item, hitem, hsnd⟩ := List.mem_map.mp hpair
      obtain ⟨hreach, hlatest, hrunId⟩ := (hitems item.1 item.2).mp hitem
      rw [hsnd] at hlatest hrunId
      exact ⟨item.1, pair.entry, hreach, hlatest, hrunId ▸ hid, hpending⟩
    · rintro ⟨child, run, hreach, hlatest, hid, hpending⟩
      have hitem := (hitems child ⟨run.runId, run⟩).mpr ⟨hreach, hlatest, rfl⟩
      exact ⟨_, List.mem_map_of_mem hitem, hid, hpending⟩
  have hdifference := countP_exclude hids (fun pair => isRunPending now pair.entry) (trim excludeRunId)
  refine ⟨(items.map Prod.snd).countP fun pair => isRunPending now pair.entry,
    (items.map Prod.snd).countP fun pair => isRunPending now pair.entry &&
      decide (some pair.runId ≠ some (trim excludeRunId)), ?_, ?_, ?_, ?_⟩
  · rw [countPendingDescendantRunsFromRuns, countPendingDescendantRunsInternal, hvisits, Option.map_some]
    simp
  · rw [countPendingDescendantRunsExcludingRunFromRuns, countPendingDescendantRunsInternal, hvisits]
    rfl
  · rw [hdifference, ← hcounted]
    split <;> simp_all
  · rw [hdifference, ← hcounted]
    split <;> simp_all

/-! ## The displayed run -/

theorem foldl_latest (entries : List SubagentRunRecord) (now : ℚ) (key : JsString)
    (latest : Option SubagentRunRecord × Option SubagentRunRecord) :
    entries.foldl (fun (latest : Option SubagentRunRecord × Option SubagentRunRecord) entry =>
      if entry.childSessionKey = key then
        if entry.isLiveUnendedSubagentRun now then (Newest.keep createdAt latest.1 entry, latest.2)
        else (latest.1, Newest.keep createdAt latest.2 entry)
      else latest) latest =
      ((entries.filter fun entry => entry.childSessionKey = key && entry.isLiveUnendedSubagentRun now).foldl
          (Newest.keep createdAt) latest.1,
        (entries.filter fun entry => entry.childSessionKey = key && !entry.isLiveUnendedSubagentRun now).foldl
          (Newest.keep createdAt) latest.2) := by
  induction entries generalizing latest with
  | nil => rfl
  | cons entry entries ih =>
      rw [List.foldl_cons, ih, List.filter_cons, List.filter_cons]
      by_cases hkey : entry.childSessionKey = key
      · cases hlive : entry.isLiveUnendedSubagentRun now <;> simp [hkey]
      · simp [hkey]

theorem getDisplaySubagentRun_eq (runs : SubagentRuns) (now : ℚ) (childSessionKey : JsString) :
    (buildSubagentRunReadIndexFromRuns runs.runs [] now).getDisplaySubagentRun childSessionKey =
      getSubagentRunByChildSessionKeyFromRuns runs.runs now childSessionKey := by
  rw [SubagentRunReadIndex.getDisplaySubagentRun, getSubagentRunByChildSessionKeyFromRuns]
  by_cases hkey : trim childSessionKey = []
  · rw [if_pos hkey, if_pos hkey]
  · have hvalues : ∀ p : SubagentRunRecord → Bool,
        (runs.runs.entries.filter fun run => trim run.2.childSessionKey = trim childSessionKey && p run.2).map
          Prod.snd =
        (values runs.runs).filter fun entry => entry.childSessionKey = trim childSessionKey && p entry := by
      intro p
      rw [values, List.filter_map]
      congr 1
      apply List.filter_congr
      intro run hrun
      rw [runs.trimmed run hrun]
      rfl
    have hnone : (({ now } : SubagentRunReadIndex).addRuns runs.runs.entries).inMemoryDisplayByChildSessionKey.get
        (trim childSessionKey) = none := by
      rw [SubagentRunReadIndex.addRuns_inMemory]
      rfl
    show (if trim childSessionKey = [] then none else _) = _
    rw [if_neg hkey, if_neg hkey, foldl_latest, build_eq, List.foldl_nil, hnone,
      SubagentRunReadIndex.get_active _ _ hkey, SubagentRunReadIndex.get_ended _ _ hkey,
      hvalues (isLiveUnendedSubagentRun · now), hvalues fun entry => !entry.isLiveUnendedSubagentRun now]
    rfl

end Counts

/-- The index, whatever it was asked before, and the plain query count the child sessions below a key that are
live, however the requesters are linked; without runs in memory both display the same run; and leaving out a run
takes one off the count of pending ones when the run is one of them. The loops end within one round for each run
and one more. -/
theorem subagent_queries_agree (runs : SubagentRuns) (now : ℚ) (more : ℕ) :
    (∀ inMemoryRuns asked key, ∃ children index next,
      Below runs.runs (trim key) (isLiveUnendedSubagentRun · now) children ∧
      countActiveDescendantRunsFromRuns runs.runs (runs.runs.entries.length + 1 + more) now key =
        some children.length ∧
      (buildSubagentRunReadIndexFromRuns runs.runs inMemoryRuns now).afterCounts
        (runs.runs.entries.length + 1 + more) asked = some index ∧
      index.countActiveDescendantRuns (runs.runs.entries.length + 1 + more) key =
        some (children.length, next)) ∧
    (∀ key, (buildSubagentRunReadIndexFromRuns runs.runs [] now).getDisplaySubagentRun key =
      getSubagentRunByChildSessionKeyFromRuns runs.runs now key) ∧
    ∀ key excludeRunId, ∃ total rest,
      countPendingDescendantRunsFromRuns runs.runs (runs.runs.entries.length + 1 + more) now key = some total ∧
      countPendingDescendantRunsExcludingRunFromRuns runs.runs (runs.runs.entries.length + 1 + more) now key
        excludeRunId = some rest ∧
      (total = rest + 1 ↔ CountedBelow runs now (trim key) (trim excludeRunId)) ∧
      (total = rest ↔ ¬ CountedBelow runs now (trim key) (trim excludeRunId)) := by
  refine ⟨?_, getDisplaySubagentRun_eq runs now, fun key excludeRunId =>
    countPending_exclude runs now key excludeRunId more⟩
  intro inMemoryRuns asked key
  obtain ⟨children, hbelow, hplain⟩ := countActive_plain runs now key more
  obtain ⟨index, hasked, hremembers⟩ := (@remembers_build runs inMemoryRuns now).afterCounts asked more
  obtain ⟨others, next, hothers, hindex, -⟩ := hremembers.count key more
  refine ⟨children, index, next, hbelow, hplain, hasked, ?_⟩
  rw [hindex, hbelow.length_eq hothers]

section Samples

def sampleRun (runId child requester : String) (createdAt : ℚ) : SubagentRunRecord where
  runId := js runId
  childSessionKey := js child
  requesterSessionKey := js requester
  createdAt

/-- Two sessions that requested each other, one of them once before under another session. -/
def cyclicRuns : SubagentRuns where
  runs := ((Map.empty.set (js "r1") (sampleRun "r1" "b" "a" 1)).set (js "r2") (sampleRun "r2" "a" "b" 2)).set
    (js "r3") (sampleRun "r3" "b" "c" 0)
  keyed := by decide +kernel
  trimmed := by decide +kernel

theorem subagent_queries_agree_cyclic : ∃ children index next,
    Below cyclicRuns.runs (trim (js "a")) (isLiveUnendedSubagentRun · 5) children ∧ children.length = 2 ∧
      (buildSubagentRunReadIndexFromRuns cyclicRuns.runs [] 5).afterCounts 4 [js "b", js "a"] = some index ∧
      index.countActiveDescendantRuns 4 (js "a") = some (2, next) := by
  obtain ⟨children, index, next, hbelow, hplain, hasked, hindex⟩ :=
    (subagent_queries_agree cyclicRuns 5 0).1 [] [js "b", js "a"] (js "a")
  have htwo : countActiveDescendantRunsFromRuns cyclicRuns.runs 4 5 (js "a") = some 2 := by
    decide +kernel
  have hlength : children.length = 2 := Option.some.inj (hplain.symm.trans htwo)
  rw [hlength] at hindex
  exact ⟨children, index, next, hbelow, hlength, hasked, hindex⟩

end Samples

end GreenchClaw.Subagents
