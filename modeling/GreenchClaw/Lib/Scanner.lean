import Mathlib.Data.List.Basic

/-!
# Scanners with look-behind and look-ahead

A hand-written scanner walks over a text, sees at each place the symbol before, the symbol
itself and all that follows, and either goes on, perhaps jumping over some symbols, or
stops, or rejects the text.  `feed` runs such a scanner over a piece of the text with the
rest of it ahead; the rules say how pieces compose.
-/

namespace Scanner

variable {α σ ε : Type}

/-- What a scanner does at one place: go on after `skip` more symbols, stop, or reject. -/
inductive Move (σ ε : Type) where
  | advance (skip : Nat) (state : σ)
  | stop (state : σ)
  | reject (error : ε)
deriving DecidableEq

/-- The place a scan has reached: the symbol before it, and the symbols still to jump
over. -/
inductive Cursor (α σ ε : Type) where
  | reading (prev : Option α) (skip : Nat) (state : σ)
  | stopped (state : σ)
  | rejected (error : ε)
deriving DecidableEq

/-- One step, given the symbol before, the symbol and what follows it. -/
abbrev Step (α σ ε : Type) := Option α → α → List α → σ → Move σ ε

def Move.cursor (c : α) : Move σ ε → Cursor α σ ε
  | .advance skip s => .reading (some c) skip s
  | .stop s => .stopped s
  | .reject e => .rejected e

/-- The scan goes over the symbol `c`, with `ahead` behind it. -/
def read (step : Step α σ ε) (ahead : List α) (c : α) : Cursor α σ ε → Cursor α σ ε
  | .reading prev 0 s => (step prev c ahead s).cursor c
  | .reading _ (skip + 1) s => .reading (some c) skip s
  | .stopped s => .stopped s
  | .rejected e => .rejected e

/-- The scan goes over a piece of the text, with `ahead` behind the piece. -/
def feed (step : Step α σ ε) (ahead : List α) : Cursor α σ ε → List α → Cursor α σ ε
  | cur, [] => cur
  | cur, c :: cs => feed step ahead (read step (cs ++ ahead) c cur) cs

def Cursor.map {σ' : Type} (f : σ → σ') : Cursor α σ ε → Cursor α σ' ε
  | .reading prev skip s => .reading prev skip (f s)
  | .stopped s => .stopped (f s)
  | .rejected e => .rejected e

def Cursor.outcome : Cursor α σ ε → Except ε σ
  | .reading _ _ s => .ok s
  | .stopped s => .ok s
  | .rejected e => .error e

def scan (step : Step α σ ε) (s : σ) (text : List α) : Except ε σ :=
  (feed step [] (.reading none 0 s) text).outcome

variable {step : Step α σ ε}

@[simp] theorem feed_nil (ahead : List α) (cur : Cursor α σ ε) :
    feed step ahead cur [] = cur := rfl

theorem feed_cons (ahead : List α) (cur : Cursor α σ ε) (c : α) (cs : List α) :
    feed step ahead cur (c :: cs) = feed step ahead (read step (cs ++ ahead) c cur) cs := rfl

theorem read_step (ahead : List α) (c : α) (prev : Option α) (s : σ) :
    read step ahead c (.reading prev 0 s) = (step prev c ahead s).cursor c := rfl

/-- A text is scanned piece by piece, each piece with the later ones ahead. -/
theorem feed_append (ahead : List α) (cur : Cursor α σ ε) (xs ys : List α) :
    feed step ahead cur (xs ++ ys) = feed step ahead (feed step (ys ++ ahead) cur xs) ys := by
  induction xs generalizing cur with
  | nil => rfl
  | cons c cs ih =>
      rw [List.cons_append, feed_cons, feed_cons, ih, List.append_assoc]

end Scanner
