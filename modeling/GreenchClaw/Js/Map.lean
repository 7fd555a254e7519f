import GreenchClaw.Js.Record

/-!
# JavaScript maps

A `Map` with strings as keys: entries in the order in which they were added, no key twice.
-/

namespace GreenchClaw.Js

structure Map (α : Type) where
  entries : Record α
  distinct : (entries.map Prod.fst).Nodup

namespace Map

variable {α : Type}

def empty : Map α := ⟨[], List.nodup_nil⟩

def map {β : Type} (values : Map α) (f : α → β) : Map β where
  entries := values.entries.map fun entry => (entry.1, f entry.2)
  distinct := by
    rw [List.map_map]
    exact values.distinct

variable (map : Map α)

def get (key : JsString) : Option α := map.entries.get key

def set (key : JsString) (value : α) : Map α :=
  ⟨map.entries.set key value, Record.nodup_set map.distinct key value⟩

def delete (key : JsString) : Map α :=
  ⟨map.entries.delete key, Record.nodup_delete map.distinct key⟩

def filterMap (f : α → Option α) : Map α where
  entries := map.entries.filterMap fun entry => (f entry.2).map fun value => (entry.1, value)
  distinct := by
    have hkeys : ((map.entries.filterMap fun entry =>
        (f entry.2).map fun value => (entry.1, value)).map Prod.fst).Sublist
          (map.entries.map Prod.fst) := by
      induction map.entries with
      | nil => exact List.Sublist.refl _
      | cons entry rest ih =>
          rw [List.filterMap_cons, List.map_cons]
          cases f entry.2 with
          | none => exact ih.cons entry.1
          | some value => exact ih.cons_cons entry.1
    exact map.distinct.sublist hkeys

def drop (count : ℕ) : Map α where
  entries := map.entries.drop count
  distinct := map.distinct.sublist ((List.drop_sublist count map.entries).map Prod.fst)

@[simp] theorem get_empty (key : JsString) : (empty : Map α).get key = none := rfl

theorem get_set (key other : JsString) (value : α) :
    (map.set key value).get other = if key = other then some value else map.get other := by
  by_cases hkey : key = other
  · rw [if_pos hkey, ← hkey]
    exact Record.get_set_self _ _ _
  · rw [if_neg hkey]
    exact Record.get_set_other _ _ (Ne.symm hkey)

theorem get_delete (key other : JsString) :
    (map.delete key).get other = if key = other then none else map.get other := by
  by_cases hkey : key = other
  · rw [if_pos hkey, ← hkey]
    exact Record.get_delete_self _ _
  · rw [if_neg hkey]
    exact Record.get_delete_other _ (Ne.symm hkey)

theorem get_filterMap (f : α → Option α) (key : JsString) :
    (map.filterMap f).get key = (map.get key).bind f := by
  obtain ⟨entries, distinct⟩ := map
  show Record.get (entries.filterMap fun entry => (f entry.2).map fun value => (entry.1, value)) key =
    (Record.get entries key).bind f
  induction entries with
  | nil => rfl
  | cons entry rest ih =>
      obtain ⟨other, value⟩ := entry
      rw [List.map_cons, List.nodup_cons] at distinct
      have hrest := ih distinct.2
      rw [List.filterMap_cons, Record.get_cons]
      by_cases hkey : other = key
      · rw [if_pos hkey, Option.bind_some]
        -- a deleted entry leaves no other with its key
        have habsent : Record.get rest key = none := by
          rw [Record.get_eq_none_iff, ← hkey]
          exact distinct.1
        cases hf : f value with
        | none => rw [Option.map_none, hrest, habsent, Option.bind_none]
        | some changed => rw [Option.map_some, Record.get_cons, if_pos hkey]
      · rw [if_neg hkey]
        cases f value with
        | none => exact hrest
        | some changed => rw [Option.map_some, Record.get_cons, if_neg hkey, hrest]

end Map

end GreenchClaw.Js
