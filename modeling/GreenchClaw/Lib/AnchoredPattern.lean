import Mathlib.Data.List.Basic

/-!
# Patterns of anchors and symbols

The patterns of a regular expression that consist of the two anchors and of symbols, escaped or not.  A
literal text in which every special symbol is escaped is such a pattern, and between the anchors it matches
itself only.
-/

namespace AnchoredPattern

variable {α : Type} [DecidableEq α]

inductive Term (α : Type) where
  | start
  | stop
  | symbol (a : α)
deriving DecidableEq

/-- The anchors, the escape sign and the symbols that stand for themselves only behind it. -/
structure Signs (α : Type) where
  start : α
  stop : α
  escape : α
  special : α → Bool
  special_start : special start = true
  special_stop : special stop = true
  special_escape : special escape = true

variable (signs : Signs α)

def read : List α → Option (List (Term α))
  | [] => some []
  | u :: rest =>
    if u = signs.escape then
      match rest with
      | [] => none
      | v :: rest => if signs.special v then (read rest).map (.symbol v :: ·) else none
    else if u = signs.start then (read rest).map (.start :: ·)
    else if u = signs.stop then (read rest).map (.stop :: ·)
    else if signs.special u then none
    else (read rest).map (.symbol u :: ·)

def matchAt : Bool → List (Term α) → List α → Bool
  | _, [], _ => true
  | atStart, .start :: terms, text => atStart && matchAt atStart terms text
  | atStart, .stop :: terms, text => text.isEmpty && matchAt atStart terms text
  | _, .symbol _ :: _, [] => false
  | _, .symbol a :: terms, u :: text => decide (a = u) && matchAt false terms text

def testFrom (atStart : Bool) (terms : List (Term α)) : List α → Bool
  | [] => matchAt atStart terms []
  | u :: text => matchAt atStart terms (u :: text) || testFrom false terms text

def test (terms : List (Term α)) (text : List α) : Bool := testFrom true terms text

def escaped (text : List α) : List α :=
  text.flatMap fun u => if signs.special u then [signs.escape, u] else [u]

variable {signs}

theorem read_plain {u : α} (h : signs.special u = false) (rest : List α) :
    read signs (u :: rest) = (read signs rest).map (.symbol u :: ·) := by
  have hne : ∀ sign, signs.special sign = true → u ≠ sign := by
    intro sign hsign heq
    rw [heq, hsign] at h
    exact Bool.false_ne_true h.symm
  rw [read.eq_def]
  simp only
  rw [if_neg (hne _ signs.special_escape), if_neg (hne _ signs.special_start),
    if_neg (hne _ signs.special_stop), h, if_neg Bool.false_ne_true]

theorem read_escape {u : α} (h : signs.special u = true) (rest : List α) :
    read signs (signs.escape :: u :: rest) = (read signs rest).map (.symbol u :: ·) := by
  rw [read.eq_def]
  simp only
  rw [if_pos trivial, if_pos h]

theorem read_escaped (text rest : List α) :
    read signs (escaped signs text ++ rest) =
      (read signs rest).map (text.map .symbol ++ ·) := by
  induction text with
  | nil =>
      show read signs rest = (read signs rest).map fun terms => [] ++ terms
      simp
  | cons u text ih =>
      rw [escaped, List.flatMap_cons, List.append_assoc]
      by_cases hu : signs.special u = true
      · rw [if_pos hu]
        show read signs (signs.escape :: u :: (escaped signs text ++ rest)) = _
        rw [read_escape hu, ih, Option.map_map]
        rfl
      · rw [if_neg hu]
        rw [Bool.not_eq_true] at hu
        show read signs (u :: (escaped signs text ++ rest)) = _
        rw [read_plain hu, ih, Option.map_map]
        rfl

theorem matchAt_symbols (atStart : Bool) (literal text : List α) :
    matchAt atStart (literal.map Term.symbol ++ [.stop]) text = decide (text = literal) := by
  induction literal generalizing atStart text with
  | nil =>
      cases text with
      | nil => rfl
      | cons u text => rfl
  | cons a literal ih =>
      cases text with
      | nil => rfl
      | cons u text =>
          rw [List.map_cons, List.cons_append, matchAt, ih]
          simp only [List.cons.injEq, Bool.decide_and, eq_comm]

theorem testFrom_start (terms : List (Term α)) (text : List α) :
    testFrom false (.start :: terms) text = false := by
  induction text with
  | nil => rfl
  | cons u text ih => rw [testFrom, ih, matchAt, Bool.false_and, Bool.or_false]

theorem test_anchored (literal text : List α) :
    test (.start :: (literal.map Term.symbol ++ [.stop])) text = decide (text = literal) := by
  rw [test]
  cases text with
  | nil => rw [testFrom, matchAt, Bool.true_and, matchAt_symbols]
  | cons u text => rw [testFrom, matchAt, Bool.true_and, matchAt_symbols, testFrom_start, Bool.or_false]

end AnchoredPattern
