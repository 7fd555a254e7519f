import GreenchClaw.Cron.Jobs

/-! # Pages of the job list -/

namespace GreenchClaw.Cron

structure CronListPageResult where
  jobs : List CronJob
  total : ℤ
  offset : ℤ
  limit : ℤ
  hasMore : Bool
  nextOffset : Option ℤ

section Pages

variable (keeps : CronJob → Bool) (le : CronJob → CronJob → Bool) (jobs : List CronJob)

def listPage (offset limit : Option ℤ) : CronListPageResult :=
  let sorted := (jobs.filter keeps).mergeSort le
  let total : ℤ := sorted.length
  let offset := max 0 (min total (offset.getD 0))
  let limit := max 1 (min 200 (limit.getD (if total = 0 then 50 else total)))
  let jobs := (sorted.drop offset.toNat).take limit.toNat
  let nextOffset := offset + jobs.length
  { jobs, total, offset, limit, hasMore := nextOffset < total
    nextOffset := if nextOffset < total then some nextOffset else none }

def listAllCronJobsForPluginTagCleanup : ℕ → ℤ → Option (List CronJob)
  | 0, _ => none
  | pages + 1, offset =>
      let listResult := listPage keeps le jobs (if 0 < offset then some offset else none) (some 200)
      if !listResult.hasMore then some listResult.jobs
      else
        match listResult.nextOffset with
        | none => some listResult.jobs
        | some nextOffset =>
            if nextOffset ≤ offset then some listResult.jobs
            else
              (listAllCronJobsForPluginTagCleanup pages nextOffset).map (listResult.jobs ++ ·)

theorem listPage_at {start : ℕ} (hstart : start ≤ ((jobs.filter keeps).mergeSort le).length) :
    let sorted := (jobs.filter keeps).mergeSort le
    let page := listPage keeps le jobs (if 0 < (start : ℤ) then some ↑start else none) (some 200)
    page.jobs = (sorted.drop start).take 200 ∧ page.hasMore = decide (start + 200 < sorted.length) ∧
      page.nextOffset = if start + 200 < sorted.length then some ↑(start + 200) else none := by
  have hoffset : (if 0 < (start : ℤ) then some (start : ℤ) else none).getD 0 = start := by
    split_ifs <;> grind
  dsimp only [listPage]
  rw [hoffset]
  generalize (jobs.filter keeps).mergeSort le = sorted at *
  have hmax : max 0 (min (sorted.length : ℤ) start) = start := by omega
  have hmore : (start : ℤ) + (min 200 (sorted.length - start) : ℕ) < sorted.length ↔
      start + 200 < sorted.length := by omega
  simp only [hmax, Int.toNat_natCast, List.length_take, List.length_drop, Option.getD_some,
    show (max 1 (min 200 200) : ℤ).toNat = 200 from rfl, hmore, true_and]
  split_ifs
  · rw [show (start : ℤ) + (min 200 (sorted.length - start) : ℕ) = (start + 200 : ℕ) by omega]
  · rfl

theorem listAll_drop {pages start : ℕ} (hstart : start ≤ ((jobs.filter keeps).mergeSort le).length)
    (hpages : ((jobs.filter keeps).mergeSort le).length < start + 200 * pages) :
    listAllCronJobsForPluginTagCleanup keeps le jobs pages start =
      some (((jobs.filter keeps).mergeSort le).drop start) := by
  induction pages generalizing start with
  | zero => omega
  | succ pages ih =>
      obtain ⟨hjobs, hmore, hnext⟩ := listPage_at keeps le jobs hstart
      rw [listAllCronJobsForPluginTagCleanup, hjobs, hmore, hnext]
      generalize (jobs.filter keeps).mergeSort le = sorted at *
      by_cases hlt : start + 200 < sorted.length
      · have hguard : ¬((start + 200 : ℕ) : ℤ) ≤ start := by omega
        simp only [hlt, hguard, decide_true, Bool.not_true, Bool.false_eq_true, if_true, if_false]
        rw [ih (by omega) (by omega), Option.map_some, ← List.drop_drop, List.take_append_drop]
      · have hshort : (sorted.drop start).length ≤ 200 := by
          rw [List.length_drop]
          omega
        simp only [hlt, decide_false, Bool.not_false, if_true, List.take_of_length_le hshort]

/-- Reading on page by page ends, after as many pages as the jobs fill, with every job that is kept,
once and in order. -/
theorem listAll_complete :
    listAllCronJobsForPluginTagCleanup keeps le jobs
        (((jobs.filter keeps).mergeSort le).length / 200 + 1) 0 =
      some ((jobs.filter keeps).mergeSort le) :=
  listAll_drop keeps le jobs (Nat.zero_le _) (by omega)

end Pages

end GreenchClaw.Cron
