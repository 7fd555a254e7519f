import Mathlib.Data.Rat.Floor

/-!
# JavaScript numbers

A number is `NaN`, an infinity or a finite value.  The finite values are rationals: the models
compare and round them, and round a sum of integers where it can leave the safe ones.
-/

namespace GreenchClaw.Js

inductive JsNumber where
  | nan
  | negInfinity
  | posInfinity
  | finite (value : ℚ)
  deriving DecidableEq

namespace JsNumber

def isFinite : JsNumber → Bool
  | finite _ => true
  | _ => false

/-- `a < b`, false when either side is `NaN`. -/
def lt : JsNumber → JsNumber → Bool
  | nan, _ => false
  | _, nan => false
  | negInfinity, b => b ≠ negInfinity
  | finite a, finite b => a < b
  | finite _, b => b = posInfinity
  | posInfinity, _ => false

/-- `a <= b`, false when either side is `NaN`. -/
def le : JsNumber → JsNumber → Bool
  | nan, _ => false
  | _, nan => false
  | a, b => a = b || lt a b

def floor : JsNumber → JsNumber
  | finite value => finite value.floor
  | other => other

def max (a b : JsNumber) : JsNumber :=
  if a = nan ∨ b = nan then nan else if lt a b then b else a

def min (a b : JsNumber) : JsNumber :=
  if a = nan ∨ b = nan then nan else if lt a b then a else b

def trunc : JsNumber → JsNumber
  | finite value => finite (if 0 ≤ value then value.floor else value.ceil)
  | other => other

def ofInt (n : Int) : JsNumber := finite n

theorem lt_of_ofInt_le {m n : Int} {b : JsNumber} (hmn : m ≤ n) (h : lt (ofInt n) b = true) :
    lt (ofInt m) b = true := by
  have hcast : (m : ℚ) ≤ n := by exact_mod_cast hmn
  cases b with
  | finite value =>
      simp only [ofInt, lt, decide_eq_true_eq] at h ⊢
      exact lt_of_le_of_lt hcast h
  | nan => exact absurd h (by simp [ofInt, lt])
  | negInfinity => exact absurd h (by simp [ofInt, lt])
  | posInfinity => simp [ofInt, lt]

end JsNumber

end GreenchClaw.Js
