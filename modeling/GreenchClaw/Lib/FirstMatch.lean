import Mathlib.Data.List.Basic
import Mathlib.Data.List.AList

/-!
# First match over tiers, and indexes for it

A tiered search walks a list of tiers and takes, in the first tier that has one, the first
candidate with the tier's property.  An index shortens the candidate list of a tier.  The
results here say when that leaves the answer of the search unchanged, and describe the two
ways such an index is filled: by merging sublists and by grouping under keys.
-/

namespace FirstMatch

variable {α κ τ : Type}

/-! ## Merging two sublists of one ordered list -/

theorem merge_filter_filter (order : α → Nat) (p q : α → Bool) (l : List α)
    (hsorted : l.Pairwise fun a b => order a < order b)
    (hdisjoint : ∀ a ∈ l, p a = true → q a = false) :
    List.merge (l.filter p) (l.filter q) (fun a b => order a ≤ order b) =
      l.filter fun a => p a || q a := by
  induction l with
  | nil => simp
  | cons x xs ih =>
      obtain ⟨hx, hxs⟩ := List.pairwise_cons.mp hsorted
      have htail := ih hxs fun a ha => hdisjoint a (List.mem_cons_of_mem x ha)
      cases hp : p x with
      | true =>
          have hq : q x = false := hdisjoint x List.mem_cons_self hp
          simp only [List.filter_cons, hp, hq, Bool.false_eq_true, if_true, if_false,
            Bool.or_false]
          rw [← htail]
          cases hrest : xs.filter q with
          | nil => simp
          | cons y ys =>
              have hy : y ∈ xs := by
                have : y ∈ xs.filter q := by simp [hrest]
                exact (List.mem_filter.mp this).1
              rw [List.cons_merge_cons_pos]
              simpa using Nat.le_of_lt (hx y hy)
      | false =>
          cases hq : q x with
          | true =>
              simp only [List.filter_cons, hp, hq, Bool.false_eq_true, if_true, if_false,
                Bool.false_or]
              rw [← htail]
              cases hrest : xs.filter p with
              | nil => simp
              | cons y ys =>
                  have hy : y ∈ xs := by
                    have : y ∈ xs.filter p := by simp [hrest]
                    exact (List.mem_filter.mp this).1
                  rw [List.cons_merge_cons_neg]
                  simpa using hx y hy
          | false =>
              simpa only [List.filter_cons, hp, hq, Bool.false_eq_true, if_false,
                Bool.or_self] using htail

/-! ## Grouping under a key -/

variable [DecidableEq κ]

def push (groups : AList fun _ : κ => List α) (key : κ) (x : α) :
    AList fun _ : κ => List α :=
  groups.insert key ((groups.lookup key).getD [] ++ [x])

def group (groups : AList fun _ : κ => List α) (key : κ) : List α :=
  (groups.lookup key).getD []

@[simp] theorem group_empty (key : κ) : group (∅ : AList fun _ : κ => List α) key = [] := rfl

theorem group_push (groups : AList fun _ : κ => List α) (key key' : κ) (x : α) :
    group (push groups key' x) key =
      if key = key' then group groups key ++ [x] else group groups key := by
  by_cases h : key = key'
  · subst h
    simp [group, push, AList.lookup_insert]
  · simp [group, push, AList.lookup_insert_ne h, h]

def pushAll (groups : AList fun _ : κ => List α) (keys : List κ) (x : α) :
    AList fun _ : κ => List α :=
  keys.foldl (fun acc key => push acc key x) groups

theorem group_pushAll (groups : AList fun _ : κ => List α) (keys : List κ) (key : κ) (x : α)
    (hnodup : keys.Nodup) :
    group (pushAll groups keys x) key =
      if key ∈ keys then group groups key ++ [x] else group groups key := by
  induction keys generalizing groups with
  | nil => simp [pushAll]
  | cons k ks ih =>
      obtain ⟨hk, hks⟩ := List.nodup_cons.mp hnodup
      have hstep : pushAll groups (k :: ks) x = pushAll (push groups k x) ks x := rfl
      rw [hstep, ih _ hks, group_push]
      by_cases hkey : key = k
      · subst hkey
        simp [hk]
      · simp [hkey]

/-! ## Tiers -/

structure Tier (α τ : Type) where
  label : τ
  enabled : Bool
  candidates : List α
  wanted : α → Bool

def firstMatch : List (Tier α τ) → Option (τ × α)
  | [] => none
  | tier :: rest =>
      if tier.enabled then
        match tier.candidates.find? tier.wanted with
        | some x => some (tier.label, x)
        | none => firstMatch rest
      else firstMatch rest

def Tier.over (tier : Tier α τ) (candidates : List α) : Tier α τ :=
  { tier with candidates := candidates }

def CaughtBy (tiers : List (Tier α τ)) (x : α) : Prop :=
  ∃ tier ∈ tiers, tier.enabled = true ∧ tier.wanted x = true

theorem find?_filter_of_imp {l : List α} {keep wanted : α → Bool}
    (h : ∀ x ∈ l, wanted x = true → keep x = true) :
    (l.filter keep).find? wanted = l.find? wanted := by
  induction l with
  | nil => rfl
  | cons x xs ih =>
      have htail := ih fun y hy => h y (List.mem_cons_of_mem x hy)
      cases hw : wanted x with
      | true => simp [h x List.mem_cons_self hw, hw]
      | false =>
          cases hk : keep x with
          | true => simp [hk, hw, htail]
          | false => simp [hk, hw, htail]

theorem caughtBy_of_mem {tiers : List (Tier α τ)} {tier : Tier α τ} {x : α}
    (hmem : tier ∈ tiers) (henabled : tier.enabled = true) (hwanted : tier.wanted x = true) :
    CaughtBy tiers x :=
  ⟨tier, hmem, henabled, hwanted⟩

def LeftOutCaught (full : List α) (keep : τ → α → Bool) :
    List (Tier α τ) → List (Tier α τ) → Prop
  | _, [] => True
  | earlier, tier :: rest =>
      (∀ x ∈ full, tier.enabled = true → tier.wanted x = true →
        keep tier.label x = true ∨ CaughtBy earlier x) ∧
      LeftOutCaught full keep (earlier ++ [tier]) rest

/-- Restricting the candidates of each tier to the part `keep` holds of leaves the search
unchanged when whatever is left out of an enabled tier is caught by an earlier one. -/
theorem firstMatch_restrict (full : List α) (keep : τ → α → Bool)
    (earlier tiers : List (Tier α τ))
    (hcandidates : ∀ tier ∈ tiers, tier.candidates = full.filter (keep tier.label))
    (hnone : ∀ x ∈ full, ¬ CaughtBy earlier x)
    (hcaught : LeftOutCaught full keep earlier tiers) :
    firstMatch tiers = firstMatch (tiers.map fun tier => tier.over full) := by
  induction tiers generalizing earlier with
  | nil => rfl
  | cons tier rest ih =>
      obtain ⟨htier, hrest⟩ := hcaught
      have hcontinue : (∀ x ∈ full, tier.enabled = true → tier.wanted x = false) →
          firstMatch rest = firstMatch (rest.map fun t => t.over full) := by
        intro hmiss
        apply ih (earlier ++ [tier]) _ _ hrest
        · intro t ht
          exact hcandidates t (List.mem_cons_of_mem tier ht)
        · rintro x hx ⟨t, ht, hen, hw⟩
          rcases List.mem_append.mp ht with hold | hnew
          · exact hnone x hx ⟨t, hold, hen, hw⟩
          · rw [List.mem_singleton] at hnew
            subst hnew
            simp [hmiss x hx hen] at hw
      cases hen : tier.enabled with
      | false =>
          simp only [firstMatch, hen, List.map_cons, Tier.over, Bool.false_eq_true, if_false]
          apply hcontinue
          intro x _ habs
          simp [hen] at habs
      | true =>
          have hkeep : ∀ x ∈ full, tier.wanted x = true → keep tier.label x = true := by
            intro x hx hw
            rcases htier x hx hen hw with hk | hc
            · exact hk
            · exact absurd hc (hnone x hx)
          have hfind : tier.candidates.find? tier.wanted = full.find? tier.wanted := by
            rw [hcandidates tier List.mem_cons_self]
            exact find?_filter_of_imp hkeep
          simp only [firstMatch, hen, List.map_cons, Tier.over, if_true, hfind]
          cases hfound : full.find? tier.wanted with
          | some x => rfl
          | none =>
              apply hcontinue
              intro x hx _
              simpa using List.find?_eq_none.mp hfound x hx

end FirstMatch
