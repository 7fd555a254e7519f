import GreenchClaw.Config.WriteBack
import GreenchClaw.Js.Record

/-!
# The changed paths of two configurations

`src/gateway/config-diff.ts`: objects are compared key by key, everything else as a whole.  Where
two configurations differ, a changed path leads there.
-/

namespace GreenchClaw.Gateway

open GreenchClaw.Js
open GreenchClaw.Config (JsonValue childPath)

variable {N : Type} [DecidableEq N]

/-! ## The comparison of values -/

/-- `prev === next`, for values that are not containers. -/
def samePrimitive : JsonValue N → JsonValue N → Bool
  | .null, .null => true
  | .bool a, .bool b => a == b
  | .number a, .number b => decide (a = b)
  | .string a, .string b => decide (a = b)
  | _, _ => false

mutual

/-- `isDeepStrictEqual`: objects have the same keys, in any order. -/
def deepEqual : JsonValue N → JsonValue N → Bool
  | .array xs, .array ys => deepEqualItems xs ys
  | .object xs, .object ys =>
      ys.all (fun entry => (Record.get xs entry.1).isSome) && deepEqualEntries xs ys
  | a, b => samePrimitive a b

def deepEqualItems : List (JsonValue N) → List (JsonValue N) → Bool
  | [], [] => true
  | x :: xs, y :: ys => deepEqual x y && deepEqualItems xs ys
  | _, _ => false

def deepEqualEntries : List (JsString × JsonValue N) → Record (JsonValue N) → Bool
  | [], _ => true
  | (key, x) :: xs, ys =>
      (match ys.get key with
        | none => false
        | some y => deepEqual x y) && deepEqualEntries xs ys

end

/-! ## The paths -/

def pathText (path : JsString) : JsString := if path = [] then js "<root>" else path

mutual

def diffConfigPaths (path : JsString) : JsonValue N → JsonValue N → List JsString
  | .object prev, .object next =>
      diffEntries path prev next ++
        (next.filter fun entry => (Record.get prev entry.1).isNone).map fun entry =>
          pathText (childPath path entry.1)
  | .array prev, .array next => if deepEqualItems prev next then [] else [pathText path]
  | prev, next => if samePrimitive prev next then [] else [pathText path]

def diffEntries (path : JsString) :
    List (JsString × JsonValue N) → Record (JsonValue N) → List JsString
  | [], _ => []
  | (key, prev) :: rest, next =>
      (match next.get key with
        | none => [pathText (childPath path key)]
        | some value => diffConfigPaths (childPath path key) prev value) ++
        diffEntries path rest next

end

/-! ## Where two values differ -/

inductive Segment where
  | key (key : JsString)
  | index (index : ℕ)

inductive Shape (N : Type) where
  | null
  | bool (value : Bool)
  | number (value : N)
  | string (value : JsString)
  | array (length : ℕ)
  | object

def shape : JsonValue N → Shape N
  | .null => .null
  | .bool value => .bool value
  | .number value => .number value
  | .string value => .string value
  | .array items => .array items.length
  | .object _ => .object

def shapeAt : JsonValue N → List Segment → Option (Shape N)
  | v, [] => some (shape v)
  | .array items, .index index :: rest =>
      match items[index]? with
      | none => none
      | some item => shapeAt item rest
  | .object entries, .key key :: rest =>
      match Record.get entries key with
      | none => none
      | some value => shapeAt value rest
  | _, _ :: _ => none

theorem eq_of_samePrimitive {a b : JsonValue N} (h : samePrimitive a b = true) : a = b := by
  cases a <;> cases b <;> simp_all [samePrimitive]

theorem deepEqualEntries_get {xs : List (JsString × JsonValue N)} {ys : Record (JsonValue N)}
    (h : deepEqualEntries xs ys = true) {key : JsString} {x : JsonValue N}
    (hx : (key, x) ∈ xs) : ∃ y, ys.get key = some y ∧ deepEqual x y = true := by
  induction xs with
  | nil => exact absurd hx List.not_mem_nil
  | cons head rest ih =>
      obtain ⟨other, value⟩ := head
      rw [deepEqualEntries, Bool.and_eq_true] at h
      rcases List.mem_cons.mp hx with heq | hrest
      · rw [(Prod.mk.inj heq).1, (Prod.mk.inj heq).2]
        cases hget : ys.get other with
        | none =>
            rw [hget] at h
            exact absurd h.1 (by simp)
        | some y =>
            rw [hget] at h
            exact ⟨y, rfl, h.1⟩
      · exact ih h.2 hrest

theorem deepEqualItems_get {xs ys : List (JsonValue N)} (h : deepEqualItems xs ys = true)
    (index : ℕ) : (xs[index]? = none ∧ ys[index]? = none) ∨
      ∃ x y, xs[index]? = some x ∧ ys[index]? = some y ∧ deepEqual x y = true := by
  induction xs generalizing ys index with
  | nil =>
      cases ys with
      | nil => exact Or.inl ⟨rfl, rfl⟩
      | cons y ys => exact absurd h (by simp [deepEqualItems])
  | cons x xs ih =>
      cases ys with
      | nil => exact absurd h (by simp [deepEqualItems])
      | cons y ys =>
          rw [deepEqualItems, Bool.and_eq_true] at h
          cases index with
          | zero => exact Or.inr ⟨x, y, rfl, rfl, h.1⟩
          | succ index => simpa using ih h.2 index

theorem length_of_deepEqualItems {xs ys : List (JsonValue N)} (h : deepEqualItems xs ys = true) :
    xs.length = ys.length := by
  induction xs generalizing ys with
  | nil =>
      cases ys with
      | nil => rfl
      | cons y ys => exact absurd h (by simp [deepEqualItems])
  | cons x xs ih =>
      cases ys with
      | nil => exact absurd h (by simp [deepEqualItems])
      | cons y ys =>
          rw [deepEqualItems, Bool.and_eq_true] at h
          rw [List.length_cons, List.length_cons, ih h.2]

theorem shapeAt_of_deepEqual {a b : JsonValue N} (h : deepEqual a b = true)
    (location : List Segment) : shapeAt a location = shapeAt b location := by
  induction location generalizing a b with
  | nil =>
      cases a <;> cases b <;> simp_all [deepEqual, samePrimitive, shapeAt, shape]
      exact length_of_deepEqualItems h
  | cons segment rest ih =>
      cases a with
      | array xs =>
          cases b with
          | array ys =>
              rw [deepEqual] at h
              cases segment with
              | key _ => rfl
              | index index =>
                  rw [shapeAt, shapeAt]
                  rcases deepEqualItems_get h index with ⟨hx, hy⟩ | ⟨x, y, hx, hy, hxy⟩
                  · rw [hx, hy]
                  · rw [hx, hy]
                    exact ih hxy
          | _ => exact absurd h (by simp [deepEqual, samePrimitive])
      | object xs =>
          cases b with
          | object ys =>
              rw [deepEqual, Bool.and_eq_true] at h
              cases segment with
              | index _ => rfl
              | key key =>
                  rw [shapeAt, shapeAt]
                  cases hx : Record.get xs key with
                  | none =>
                      cases hy : Record.get ys key with
                      | none => rfl
                      | some y =>
                          have hall := List.all_eq_true.mp h.1 (key, y) (Record.mem_of_get hy)
                          rw [hx] at hall
                          exact absurd hall (by simp)
                  | some x =>
                      obtain ⟨y, hy, hxy⟩ := deepEqualEntries_get h.2 (Record.mem_of_get hx)
                      rw [hy]
                      exact ih hxy
          | _ => exact absurd h (by simp [deepEqual, samePrimitive])
      | _ => cases b <;> simp_all [deepEqual, samePrimitive]

theorem shapeAt_or_reported (path : JsString) {prev next : JsonValue N}
    (hnot : ∀ xs ys, prev = .object xs → next ≠ .object ys) :
    (∀ location, shapeAt prev location = shapeAt next location) ∨
      pathText path ∈ diffConfigPaths path prev next := by
  by_cases harrays : ∃ xs ys, prev = .array xs ∧ next = .array ys
  · obtain ⟨xs, ys, rfl, rfl⟩ := harrays
    rw [diffConfigPaths]
    by_cases hequal : deepEqualItems xs ys = true
    · left
      intro location
      exact shapeAt_of_deepEqual (by rw [deepEqual]; exact hequal) location
    · right
      simp [hequal]
  · rw [diffConfigPaths]
    · by_cases hsame : samePrimitive prev next = true
      · left
        intro location
        rw [eq_of_samePrimitive hsame]
      · right
        simp [hsame]
    · exact hnot
    · intro xs ys hxs hys
      exact harrays ⟨xs, ys, hxs, hys⟩

theorem mem_diffEntries {path : JsString} {prev : List (JsString × JsonValue N)}
    {next : Record (JsonValue N)} {key : JsString} {value : JsonValue N}
    (hmem : (key, value) ∈ prev) {text : JsString}
    (htext : text ∈ match next.get key with
      | none => [pathText (childPath path key)]
      | some other => diffConfigPaths (childPath path key) value other) :
    text ∈ diffEntries path prev next := by
  induction prev with
  | nil => exact absurd hmem List.not_mem_nil
  | cons head rest ih =>
      obtain ⟨other, first⟩ := head
      rw [diffEntries]
      rcases List.mem_cons.mp hmem with heq | hrest
      · rw [(Prod.mk.inj heq).1, (Prod.mk.inj heq).2] at htext
        exact List.mem_append_left _ htext
      · exact List.mem_append_right _ (ih hrest)

def Covers (text path : JsString) (location : List Segment) : Prop :=
  ∃ (keys : List JsString) (rest : List Segment),
    location = keys.map Segment.key ++ rest ∧ text = pathText (keys.foldl childPath path)

/-- Where two values are seen to differ, a changed path leads there. -/
theorem exists_diff_path (path : JsString) {prev next : JsonValue N} {location : List Segment}
    (h : shapeAt prev location ≠ shapeAt next location) :
    ∃ text ∈ diffConfigPaths path prev next, Covers text path location := by
  induction location generalizing prev next path with
  | nil =>
      have hnot : ∀ xs ys, prev = .object xs → next ≠ .object ys := by
        rintro xs ys rfl rfl
        exact h rfl
      rcases shapeAt_or_reported path hnot with hsame | hreported
      · exact absurd (hsame []) h
      · exact ⟨_, hreported, [], [], rfl, rfl⟩
  | cons segment rest ih =>
      by_cases hobjects : ∃ xs ys, prev = .object xs ∧ next = .object ys
      · obtain ⟨xs, ys, rfl, rfl⟩ := hobjects
        cases segment with
        | index _ => exact absurd rfl h
        | key key =>
            rw [shapeAt, shapeAt] at h
            rw [diffConfigPaths]
            cases hx : Record.get xs key with
            | none =>
                cases hy : Record.get ys key with
                | none =>
                    rw [hx, hy] at h
                    exact absurd rfl h
                | some y =>
                    refine ⟨pathText (childPath path key), ?_, [key], rest, rfl, rfl⟩
                    apply List.mem_append_right
                    apply List.mem_map.mpr
                    have hmem := Record.mem_of_get hy
                    exact ⟨(key, y), List.mem_filter.mpr ⟨hmem, by simp [hx]⟩, rfl⟩
            | some x =>
                have hmem := Record.mem_of_get hx
                cases hy : Record.get ys key with
                | none =>
                    refine ⟨pathText (childPath path key), ?_, [key], rest, rfl, rfl⟩
                    apply List.mem_append_left
                    exact mem_diffEntries hmem (by simp [hy])
                | some y =>
                    rw [hx, hy] at h
                    obtain ⟨text, htext, keys, tail, hrest, hkeys⟩ := ih (childPath path key) h
                    refine ⟨text, ?_, key :: keys, tail, ?_, hkeys⟩
                    · apply List.mem_append_left
                      exact mem_diffEntries hmem (by rw [hy]; exact htext)
                    · rw [hrest, List.map_cons, List.cons_append]
      · have hnot : ∀ xs ys, prev = .object xs → next ≠ .object ys := by
          intro xs ys hxs hys
          exact hobjects ⟨xs, ys, hxs, hys⟩
        rcases shapeAt_or_reported path hnot with hsame | hreported
        · exact absurd (hsame _) h
        · exact ⟨_, hreported, [], segment :: rest, rfl, rfl⟩

/-! ## Equal values -/

omit [DecidableEq N] in
theorem distinctKeys_of_mem_entries {entries : List (JsString × JsonValue N)}
    (h : Config.distinctKeysEntries entries) {entry : JsString × JsonValue N}
    (hentry : entry ∈ entries) : entry.2.distinctKeys := by
  induction entries with
  | nil => exact absurd hentry List.not_mem_nil
  | cons head rest ih =>
      rw [Config.distinctKeysEntries] at h
      rcases List.mem_cons.mp hentry with rfl | hrest
      · exact h.1
      · exact ih h.2 hrest

omit [DecidableEq N] in
theorem distinctKeys_of_mem_items {items : List (JsonValue N)}
    (h : Config.distinctKeysItems items) {item : JsonValue N} (hitem : item ∈ items) :
    item.distinctKeys := by
  induction items with
  | nil => exact absurd hitem List.not_mem_nil
  | cons head rest ih =>
      rw [Config.distinctKeysItems] at h
      rcases List.mem_cons.mp hitem with rfl | hrest
      · exact h.1
      · exact ih h.2 hrest

theorem deepEqualItems_self {items : List (JsonValue N)}
    (h : ∀ item ∈ items, deepEqual item item = true) : deepEqualItems items items = true := by
  induction items with
  | nil => rfl
  | cons head rest ih =>
      rw [deepEqualItems, Bool.and_eq_true]
      obtain ⟨hhead, hrest⟩ := List.forall_mem_cons.mp h
      exact ⟨hhead, ih hrest⟩

theorem deepEqual_self {v : JsonValue N} (hv : v.distinctKeys) : deepEqual v v = true := by
  induction v using JsonValue.induction with
  | null => rfl
  | bool value => simp [deepEqual, samePrimitive]
  | number value => simp [deepEqual, samePrimitive]
  | string value => simp [deepEqual, samePrimitive]
  | array items ih =>
      rw [deepEqual]
      apply deepEqualItems_self
      intro item hitem
      exact ih item hitem (distinctKeys_of_mem_items hv hitem)
  | object entries ih =>
      rw [JsonValue.distinctKeys] at hv
      rw [deepEqual, Bool.and_eq_true]
      constructor
      · apply List.all_eq_true.mpr
        intro entry hentry
        rw [Record.get_of_mem hv.1 hentry]
        rfl
      · have hsuffix : ∀ rest, rest ⊆ entries → deepEqualEntries rest entries = true := by
          intro rest
          induction rest with
          | nil => exact fun _ => rfl
          | cons entry rest ihrest =>
              intro hsubset
              rw [List.cons_subset] at hsubset
              rw [deepEqualEntries, Record.get_of_mem hv.1 hsubset.1, Bool.and_eq_true]
              have hentry := ih entry hsubset.1 (distinctKeys_of_mem_entries hv.2 hsubset.1)
              exact ⟨hentry, ihrest hsubset.2⟩
        exact hsuffix entries (List.Subset.refl entries)

theorem diffConfigPaths_self (path : JsString) {v : JsonValue N} (hv : v.distinctKeys) :
    diffConfigPaths path v v = [] := by
  induction v using JsonValue.induction generalizing path with
  | null => rfl
  | bool value => simp [diffConfigPaths, samePrimitive]
  | number value => simp [diffConfigPaths, samePrimitive]
  | string value => simp [diffConfigPaths, samePrimitive]
  | array items _ =>
      have hself := deepEqual_self hv
      rw [deepEqual] at hself
      simp [diffConfigPaths, hself]
  | object entries ih =>
      rw [JsonValue.distinctKeys] at hv
      rw [diffConfigPaths]
      have hnew : (entries.filter fun entry => (Record.get entries entry.1).isNone) = [] := by
        apply List.filter_eq_nil_iff.mpr
        intro entry hentry
        rw [Record.get_of_mem hv.1 hentry]
        simp
      have hsuffix : ∀ rest, rest ⊆ entries → diffEntries path rest entries = [] := by
        intro rest
        induction rest with
        | nil => exact fun _ => rfl
        | cons entry rest ihrest =>
            intro hsubset
            rw [List.cons_subset] at hsubset
            rw [diffEntries, Record.get_of_mem hv.1 hsubset.1]
            have hentry := ih entry hsubset.1 (childPath path entry.1)
              (distinctKeys_of_mem_entries hv.2 hsubset.1)
            simp only [hentry, ihrest hsubset.2, List.append_nil]
      rw [hnew, hsuffix entries (List.Subset.refl entries)]
      rfl

end GreenchClaw.Gateway
