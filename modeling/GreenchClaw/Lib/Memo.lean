import Mathlib.Data.List.AList

/-!
# Bounded memo tables

A memo table keeps values under keys and is emptied when it outgrows its limit.  What is
known of every stored value is a predicate on the entries; storing keeps it, emptying the
table keeps it, and a lookup yields it.
-/

namespace Memo

variable {κ ν : Type} [DecidableEq κ]

abbrev Table (κ ν : Type) := AList fun _ : κ => ν

/-- Store a value; a table that outgrows `limit` keeps the new entry only. -/
def store (limit : Nat) (table : Table κ ν) (key : κ) (value : ν) : Table κ ν :=
  if limit < (table.insert key value).entries.length then
    (∅ : Table κ ν).insert key value
  else table.insert key value

theorem lookup_store (limit : Nat) (table : Table κ ν) (key : κ) (value : ν) :
    (store limit table key value).lookup key = some value := by
  unfold store
  split
  · exact AList.lookup_insert _
  · exact AList.lookup_insert _

def Holds (P : κ → ν → Prop) (table : Table κ ν) : Prop :=
  ∀ key value, table.lookup key = some value → P key value

theorem holds_empty (P : κ → ν → Prop) : Holds P (∅ : Table κ ν) := by
  intro key value hlookup
  simp at hlookup

theorem holds_insert {P : κ → ν → Prop} {table : Table κ ν} (h : Holds P table) {key : κ}
    {value : ν} (hentry : P key value) : Holds P (table.insert key value) := by
  intro key' value' hlookup
  by_cases hkey : key' = key
  · subst hkey
    rw [AList.lookup_insert, Option.some.injEq] at hlookup
    exact hlookup ▸ hentry
  · rw [AList.lookup_insert_ne hkey] at hlookup
    exact h key' value' hlookup

theorem holds_store {P : κ → ν → Prop} {table : Table κ ν} (h : Holds P table) (limit : Nat)
    {key : κ} {value : ν} (hentry : P key value) : Holds P (store limit table key value) := by
  unfold store
  split
  · exact holds_insert (holds_empty P) hentry
  · exact holds_insert h hentry

theorem Holds.mono {P Q : κ → ν → Prop} {table : Table κ ν} (h : Holds P table)
    (himp : ∀ key value, P key value → Q key value) : Holds Q table := by
  intro key value hlookup
  exact himp key value (h key value hlookup)

end Memo
