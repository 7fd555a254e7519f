import Mathlib.Algebra.Order.Ring.Rat
import GreenchClaw.Config.JsonText
import GreenchClaw.Js.Record
import GreenchClaw.Lib.Budget
import GreenchClaw.Lib.JoinedText

/-!
# The size of a JSON text

`boundedJsonUtf8Bytes` counts the bytes that `JSON.stringify` would write for a value and stops when they are
more than a limit.
-/

namespace GreenchClaw.Config

open GreenchClaw.Js Budget

/-! ## Values -/

/-- What is left out of objects and written as `null` in arrays. -/
inductive Absent where
  | undefined
  | function
  | symbol
deriving DecidableEq

inductive JsTree (N : Type) where
  | null
  | bool (value : Bool)
  | number (value : N)
  | string (value : JsString)
  | absent (kind : Absent)
  | array (items : List (JsTree N))
  | object (entries : List (JsString × JsTree N))

variable {N : Type}

def JsTree.isAbsent : JsTree N → Bool
  | .absent _ => true
  | _ => false

def JsTree.isFunction : JsTree N → Bool
  | .absent .function => true
  | _ => false

def hasToJson (entries : List (JsString × JsTree N)) : Bool :=
  (Record.get entries (js "toJSON")).any JsTree.isFunction

/-! ## `JSON.stringify` -/

def utf8Length (text : JsString) : ℕ := (utf8Encode text).length

section Written

variable [NumberText N] (toJson : List (JsString × JsTree N) → Option JsString)

mutual

/-- What `JSON.stringify` writes for a value, given what it writes for an object with a function `toJSON`. -/
def written : JsTree N → Option JsString
  | .null => some (js "null")
  | .bool value => some (if value then js "true" else js "false")
  | .number value => some (NumberText.text value)
  | .string value => some (quote value)
  | .absent _ => none
  | .array items => some ([0x5B] ++ JoinedText.joined 0x2C (writtenItems items) ++ [0x5D])
  | .object entries =>
    if hasToJson entries then toJson entries
    else some ([0x7B] ++ JoinedText.joined 0x2C (writtenMembers entries) ++ [0x7D])

def writtenItems : List (JsTree N) → List JsString
  | [] => []
  | item :: items => (written item).getD (js "null") :: writtenItems items

def writtenMembers : List (JsString × JsTree N) → List JsString
  | [] => []
  | (key, value) :: entries =>
    match written value with
    | none => writtenMembers entries
    | some text => (quote key ++ 0x3A :: text) :: writtenMembers entries

end

end Written

/-! ## Counting -/

/-- `maxBytes`, infinity being the top. -/
abbrev ByteLimit := WithTop ℚ

/-- The totals that `add` lets pass. -/
def withinBytes (maxBytes : ByteLimit) : Budget.Limit ℚ where
  within bytes := decide ((bytes : ByteLimit) ≤ maxBytes)
  of_le hle hwithin := by
    rw [decide_eq_true_eq] at hwithin ⊢
    exact (WithTop.coe_le_coe.mpr hle).trans hwithin

def jsonStringByteLengthUpToLimit (value : JsString) (maxBytes : ByteLimit) (bytes : ℚ) : ℚ :=
  match maxBytes with
  | none => utf8Length (quote value)
  | some maxBytes =>
    if maxBytes - bytes < value.length + 2 then maxBytes - bytes + 1 else utf8Length (quote value)

def addString (maxBytes : ByteLimit) (value : JsString) (bytes : ℚ) : Except ℚ ℚ :=
  Budget.add (withinBytes maxBytes) (jsonStringByteLengthUpToLimit value maxBytes bytes) bytes

section Visit

variable [NumberText N] (maxBytes : ByteLimit)

mutual

/-- `visit`; an error carries the bytes that were counted. -/
def visit : JsTree N → Bool → ℚ → Except ℚ ℚ
  | .null, _, bytes => Budget.add (withinBytes maxBytes) 4 bytes
  | .string value, _, bytes => addString maxBytes value bytes
  | .number value, _, bytes =>
    Budget.add (withinBytes maxBytes) (utf8Length (NumberText.text value)) bytes
  | .bool value, _, bytes => Budget.add (withinBytes maxBytes) (if value then 4 else 5) bytes
  | .absent _, inArray, bytes =>
    if inArray then Budget.add (withinBytes maxBytes) 4 bytes else .ok bytes
  | .array items, _, bytes =>
    Budget.add (withinBytes maxBytes) 1 bytes >>= fun bytes =>
      visitItems items false bytes >>= Budget.add (withinBytes maxBytes) 1
  | .object entries, _, bytes =>
    if hasToJson entries then .error bytes
    else
      Budget.add (withinBytes maxBytes) 1 bytes >>= fun bytes =>
        visitMembers entries false bytes >>= Budget.add (withinBytes maxBytes) 1

/-- The loop over the items of an array; a comma stands before all but the first. -/
def visitItems : List (JsTree N) → Bool → ℚ → Except ℚ ℚ
  | [], _, bytes => .ok bytes
  | item :: items, later, bytes =>
    (if later then Budget.add (withinBytes maxBytes) 1 bytes else .ok bytes) >>= fun bytes =>
      visit item true bytes >>= visitItems items true

def visitMembers : List (JsString × JsTree N) → Bool → ℚ → Except ℚ ℚ
  | [], _, bytes => .ok bytes
  | (key, field) :: entries, wroteField, bytes =>
    if field.isAbsent then visitMembers entries wroteField bytes
    else
      (if wroteField then Budget.add (withinBytes maxBytes) 1 bytes else .ok bytes) >>= fun bytes =>
        addString maxBytes key bytes >>= fun bytes =>
          Budget.add (withinBytes maxBytes) 1 bytes >>= fun bytes =>
            visit field false bytes >>= visitMembers entries true

end

end Visit

structure BoundedJsonUtf8Bytes where
  bytes : ByteLimit
  complete : Bool

def boundedJsonUtf8Bytes [NumberText N] (value : JsTree N) (maxBytes : ByteLimit) : BoundedJsonUtf8Bytes :=
  match visit maxBytes value false 0 with
  | .ok bytes => { bytes := bytes, complete := true }
  | .error bytes => { bytes := max (bytes : ByteLimit) (maxBytes + 1), complete := false }

/-! ## Lengths in UTF-8 -/

/-- A text is encoded in two parts when the second one does not start with the end of a pair. -/
theorem utf8Encode_append (first second : JsString)
    (hsecond : ∀ u, second.head? = some u → isLowSurrogate u = false) :
    utf8Encode (first ++ second) = utf8Encode first ++ utf8Encode second := by
  fun_induction utf8Encode first with
  | case1 => rfl
  | case2 u =>
      cases second with
      | nil => simp [utf8Encode]
      | cons v second =>
          have hlow := hsecond v rfl
          show utf8Encode (u :: v :: second) = _
          rw [utf8Encode, hlow]
          by_cases hhigh : isHighSurrogate u = true
          · simp [hhigh]
          · rw [Bool.not_eq_true] at hhigh
            by_cases hulow : isLowSurrogate u = true
            · simp [hhigh, hulow]
            · rw [Bool.not_eq_true] at hulow
              simp [hhigh, hulow]
  | case3 u v rest hhigh hlow ih =>
      show utf8Encode (u :: v :: (rest ++ second)) = _
      rw [utf8Encode, if_pos hhigh, if_pos hlow, ih, List.append_assoc]
  | case4 u v rest hhigh hlow ih =>
      show utf8Encode (u :: v :: (rest ++ second)) = _
      rw [utf8Encode, if_pos hhigh, if_neg hlow, ← List.cons_append, ih, List.append_assoc]
  | case5 u v rest hhigh hlow ih =>
      show utf8Encode (u :: v :: (rest ++ second)) = _
      rw [utf8Encode, if_neg hhigh, if_pos hlow, ← List.cons_append, ih, List.append_assoc]
  | case6 u v rest hhigh hlow ih =>
      show utf8Encode (u :: v :: (rest ++ second)) = _
      rw [utf8Encode, if_neg hhigh, if_neg hlow, ← List.cons_append, ih, List.append_assoc]

theorem codePointBytes_ascii {u : CodeUnit} (h : isAscii u = true) :
    codePointBytes u.toNat = [UInt8.ofNat u.toNat] := by
  rw [isAscii, decide_eq_true_eq, UInt16.lt_iff_toNat_lt] at h
  exact if_pos h

theorem utf8Length_cons_ascii {u : CodeUnit} (h : isAscii u = true) (rest : JsString) :
    utf8Length (u :: rest) = 1 + utf8Length rest := by
  have hplain := isAscii_not_surrogate h
  unfold utf8Length
  cases rest with
  | nil =>
      show (codePointBytes (if isHighSurrogate u || isLowSurrogate u then 0xFFFD else u.toNat)).length = 1
      rw [hplain.1, hplain.2, if_neg (by decide), codePointBytes_ascii h]
      rfl
  | cons v rest =>
      rw [utf8Encode, hplain.1, hplain.2, if_neg Bool.false_ne_true, if_neg Bool.false_ne_true,
        codePointBytes_ascii h, List.length_append]
      rfl

theorem utf8Length_append_cons {u : CodeUnit} (h : isAscii u = true) (first rest : JsString) :
    utf8Length (first ++ u :: rest) = utf8Length first + 1 + utf8Length rest := by
  have hhead : ∀ v, (u :: rest).head? = some v → isLowSurrogate v = false := by
    intro v hv
    rw [← Option.some.inj hv]
    exact (isAscii_not_surrogate h).2
  have hcons := utf8Length_cons_ascii h rest
  unfold utf8Length at hcons ⊢
  rw [utf8Encode_append first _ hhead, List.length_append, hcons, Nat.add_assoc]

theorem codePointBytes_pos (c : ℕ) : 1 ≤ (codePointBytes c).length := by
  unfold codePointBytes
  repeat' split
  all_goals simp

theorem length_le_utf8Length (text : JsString) : text.length ≤ utf8Length text := by
  unfold utf8Length
  fun_induction utf8Encode text with
  | case1 => exact le_rfl
  | case2 u => exact codePointBytes_pos _
  | case3 u v rest hhigh hlow ih =>
      have hpair : ∀ c, (codePointBytes (0x10000 + c)).length = 4 := by
        intro c
        unfold codePointBytes
        rw [if_neg (by omega), if_neg (by omega), if_neg (by omega)]
        rfl
      rw [List.length_append, Nat.add_assoc, hpair, List.length_cons, List.length_cons]
      omega
  | case4 u v rest hhigh hlow ih =>
      have hpos := codePointBytes_pos 0xFFFD
      rw [List.length_append, List.length_cons]
      omega
  | case5 u v rest hhigh hlow ih =>
      have hpos := codePointBytes_pos 0xFFFD
      rw [List.length_append, List.length_cons]
      omega
  | case6 u v rest hhigh hlow ih =>
      have hpos := codePointBytes_pos u.toNat
      rw [List.length_append, List.length_cons]
      omega

theorem unicodeEscape_pos (u : CodeUnit) : 1 ≤ (unicodeEscape u).length := by
  rw [unicodeEscape, List.length_append]
  exact Nat.le_add_right_of_le (by decide)

theorem escapeUnit_pos (u : CodeUnit) : 1 ≤ (escapeUnit u).length := by
  unfold escapeUnit
  repeat (split; · decide)
  split
  · exact unicodeEscape_pos u
  · exact Nat.le_refl 1

theorem length_le_escapeUnits (text : JsString) : text.length ≤ (escapeUnits text).length := by
  fun_induction escapeUnits text with
  | case1 => exact le_rfl
  | case2 u hsurrogate => exact unicodeEscape_pos u
  | case3 u hplain => exact escapeUnit_pos u
  | case4 u v rest hhigh hlow ih =>
      simp only [List.length_cons]
      omega
  | case5 u v rest hhigh hlow ih =>
      have hpos := unicodeEscape_pos u
      rw [List.length_append, List.length_cons]
      omega
  | case6 u v rest hhigh hlow ih =>
      have hpos := unicodeEscape_pos u
      rw [List.length_append, List.length_cons]
      omega
  | case7 u v rest hhigh hlow ih =>
      have hpos := escapeUnit_pos u
      rw [List.length_append, List.length_cons]
      omega

theorem length_add_two_le_quote (text : JsString) : text.length + 2 ≤ utf8Length (quote text) := by
  have hquote : (quote text).length = (escapeUnits text).length + 2 := by
    simp [quote]
  have hescaped := length_le_escapeUnits text
  have hlength := length_le_utf8Length (quote text)
  omega

theorem utf8Length_joined (parts : List JsString) :
    utf8Length (JoinedText.joined 0x2C parts) = (parts.map utf8Length).sum + (parts.length - 1) := by
  induction parts with
  | nil => rfl
  | cons part parts ih =>
      cases parts with
      | nil =>
          rw [JoinedText.joined_singleton]
          simp
      | cons second parts =>
          rw [JoinedText.joined_cons part (List.cons_ne_nil _ _), utf8Length_append_cons (by decide), ih]
          simp only [List.map_cons, List.sum_cons, List.length_cons]
          omega

theorem utf8Length_enclosed {before after : CodeUnit} (hbefore : isAscii before = true)
    (hafter : isAscii after = true) (text : JsString) :
    utf8Length ([before] ++ text ++ [after]) = 1 + (utf8Length text + 1) := by
  rw [List.append_assoc, List.singleton_append, utf8Length_cons_ascii hbefore,
    utf8Length_append_cons hafter]
  rfl

/-! ## What is counted -/

mutual

/-- Some object that `JSON.stringify` comes to has a function `toJSON`. -/
def callsToJson : JsTree N → Bool
  | .array items => callsToJsonItems items
  | .object entries => hasToJson entries || callsToJsonMembers entries
  | _ => false

def callsToJsonItems : List (JsTree N) → Bool
  | [] => false
  | item :: items => callsToJson item || callsToJsonItems items

def callsToJsonMembers : List (JsString × JsTree N) → Bool
  | [] => false
  | (_, value) :: entries => callsToJson value || callsToJsonMembers entries

end

theorem JsTree.induction {P : JsTree N → Prop} (null : P .null) (bool : ∀ value, P (.bool value))
    (number : ∀ value, P (.number value)) (string : ∀ value, P (.string value))
    (absent : ∀ kind, P (.absent kind))
    (array : ∀ items, (∀ item ∈ items, P item) → P (.array items))
    (object : ∀ entries, (∀ entry ∈ entries, P entry.2) → P (.object entries)) (v : JsTree N) : P v := by
  apply @JsTree.rec N P (fun items => ∀ item ∈ items, P item)
    (fun entries => ∀ entry ∈ entries, P entry.2) (fun entry => P entry.2)
  · exact null
  · exact bool
  · exact number
  · exact string
  · exact absent
  · exact array
  · exact object
  · exact fun item hitem => absurd hitem List.not_mem_nil
  · exact fun head rest hhead hrest => List.forall_mem_cons.mpr ⟨hhead, hrest⟩
  · exact fun entry hentry => absurd hentry List.not_mem_nil
  · exact fun head rest hhead hrest => List.forall_mem_cons.mpr ⟨hhead, hrest⟩
  · exact fun key value hvalue => hvalue

section Counting

variable [NumberText N] {toJson : List (JsString × JsTree N) → Option JsString} {maxBytes : ByteLimit}

def writtenSize (toJson : List (JsString × JsTree N) → Option JsString) (value : JsTree N)
    (inArray : Bool) : ℕ :=
  match written toJson value with
  | some text => utf8Length text
  | none => if inArray then 4 else 0

omit [NumberText N] in
theorem isAbsent_cases (value : JsTree N) : value.isAbsent = true ↔ ∃ kind, value = .absent kind := by
  cases value with
  | absent kind => exact iff_of_true rfl ⟨kind, rfl⟩
  | _ => exact iff_of_false Bool.false_ne_true fun h => nomatch h.choose_spec

theorem written_isSome {value : JsTree N} (hpresent : value.isAbsent = false)
    (hplain : callsToJson value = false) : (written toJson value).isSome = true := by
  cases value with
  | absent kind => exact nomatch hpresent
  | object entries =>
      rw [callsToJson, Bool.or_eq_false_iff] at hplain
      rw [written, hplain.1, if_neg Bool.false_ne_true]
      rfl
  | _ => rfl

omit [NumberText N] in
theorem within_coe {limit bytes : ℚ} :
    (withinBytes (limit : ByteLimit)).within bytes = true ↔ bytes ≤ limit :=
  decide_eq_true_eq.to_iff.trans WithTop.coe_le_coe

omit [NumberText N] in
theorem counts_addString (value : JsString) :
    Budget.Counts (withinBytes maxBytes) (addString maxBytes value) True (utf8Length (quote value) : ℚ) := by
  intro total hwithin result
  have hplain := @counts_add _ _ _ (withinBytes maxBytes) (utf8Length (quote value) : ℚ) total hwithin
    result
  unfold addString jsonStringByteLengthUpToLimit
  cases maxBytes with
  | none => exact hplain
  | some limit =>
      show Budget.add (withinBytes (limit : ByteLimit))
        (if limit - total < value.length + 2 then limit - total + 1 else utf8Length (quote value)) total =
          .ok result ↔ _
      by_cases hlong : limit - total < value.length + 2
      · rw [if_pos hlong]
        have hbound : (value.length : ℚ) + 2 ≤ utf8Length (quote value) := by
          exact_mod_cast length_add_two_le_quote value
        have hover : ¬ (withinBytes (limit : ByteLimit)).within (total + (limit - total + 1)) = true := by
          rw [within_coe]
          linarith
        rw [Budget.add, if_neg hover]
        apply iff_of_false
        · exact fun h => nomatch h
        · intro h
          have hresult := within_coe.mp h.2.1
          rw [h.2.2] at hresult
          linarith
      · rw [if_neg hlong]
        exact hplain

theorem length_writtenItems (items : List (JsTree N)) :
    (writtenItems toJson items).length = items.length := by
  induction items with
  | nil => rfl
  | cons item items ih => rw [writtenItems, List.length_cons, List.length_cons, ih]

/-- The commas between so many texts, with one before the first if there was one already. -/
def commas (later : Bool) (count : ℕ) : ℕ := if later then count else count - 1

omit [NumberText N] in
theorem counts_comma (later : Bool) :
    Budget.Counts (withinBytes maxBytes)
      (fun bytes => if later then Budget.add (withinBytes maxBytes) 1 bytes else .ok bytes) True
      ((if later then 1 else 0 : ℕ) : ℚ) := by
  cases later with
  | true => exact (counts_add 1).congr Iff.rfl Nat.cast_one.symm
  | false => exact counts_ok.congr Iff.rfl Nat.cast_zero.symm

theorem counts_visitItems {items : List (JsTree N)}
    (hitems : ∀ item ∈ items, ∀ inArray, Budget.Counts (withinBytes maxBytes) (visit maxBytes item inArray)
      (callsToJson item = false) (writtenSize toJson item inArray : ℚ)) (later : Bool) :
    Budget.Counts (withinBytes maxBytes) (visitItems maxBytes items later) (callsToJsonItems items = false)
      ((((writtenItems toJson items).map utf8Length).sum + commas later items.length : ℕ) : ℚ) := by
  induction items generalizing later with
  | nil =>
      apply counts_ok.congr
      · exact iff_of_true trivial rfl
      · cases later <;> rfl
  | cons item items ih =>
      have hrest := ih (fun other hother => hitems other (List.mem_cons_of_mem item hother)) true
      have hboth := (hitems item List.mem_cons_self true).bind hrest (Nat.cast_nonneg _)
      have hall := (counts_comma later).bind hboth (add_nonneg (Nat.cast_nonneg _) (Nat.cast_nonneg _))
      have hsize : utf8Length ((written toJson item).getD (js "null")) = writtenSize toJson item true := by
        unfold writtenSize
        cases written toJson item with
        | none => rfl
        | some text => rfl
      apply hall.congr
      · rw [callsToJsonItems, Bool.or_eq_false_iff, true_and]
      · rw [← Nat.cast_add, ← Nat.cast_add, Nat.cast_inj, writtenItems, List.map_cons, List.sum_cons, hsize]
        unfold commas
        cases later with
        | true =>
            simp only [List.length_cons, if_true]
            omega
        | false =>
            simp only [List.length_cons, if_true, Bool.false_eq_true, if_false]
            omega

theorem visitMembers_absent {field : JsTree N} (h : field.isAbsent = true) (key : JsString)
    (entries : List (JsString × JsTree N)) (wroteField : Bool) :
    visitMembers maxBytes ((key, field) :: entries) wroteField = visitMembers maxBytes entries wroteField := by
  funext bytes
  rw [visitMembers, if_pos h]

theorem visitMembers_present {field : JsTree N} (h : ¬ field.isAbsent = true) (key : JsString)
    (entries : List (JsString × JsTree N)) (wroteField : Bool) :
    visitMembers maxBytes ((key, field) :: entries) wroteField = fun bytes =>
      (if wroteField then Budget.add (withinBytes maxBytes) 1 bytes else .ok bytes) >>= fun bytes =>
        addString maxBytes key bytes >>= fun bytes =>
          Budget.add (withinBytes maxBytes) 1 bytes >>= fun bytes =>
            visit maxBytes field false bytes >>= visitMembers maxBytes entries true := by
  funext bytes
  rw [visitMembers, if_neg h]

theorem counts_visitMembers {entries : List (JsString × JsTree N)}
    (hentries : ∀ entry ∈ entries, ∀ inArray, Budget.Counts (withinBytes maxBytes)
      (visit maxBytes entry.2 inArray) (callsToJson entry.2 = false)
      (writtenSize toJson entry.2 inArray : ℚ)) (wroteField : Bool) :
    Budget.Counts (withinBytes maxBytes) (visitMembers maxBytes entries wroteField)
      (callsToJsonMembers entries = false)
      ((((writtenMembers toJson entries).map utf8Length).sum +
        commas wroteField (writtenMembers toJson entries).length : ℕ) : ℚ) := by
  induction entries generalizing wroteField with
  | nil =>
      apply counts_ok.congr
      · exact iff_of_true trivial rfl
      · cases wroteField <;> rfl
  | cons entry entries ih =>
      obtain ⟨key, field⟩ := entry
      have hrest := ih fun other hother => hentries other (List.mem_cons_of_mem _ hother)
      by_cases habsent : field.isAbsent = true
      · rw [visitMembers_absent habsent]
        obtain ⟨kind, hkind⟩ := (isAbsent_cases field).mp habsent
        rw [hkind]
        have hnone : callsToJson (.absent kind : JsTree N) = false := rfl
        apply (hrest wroteField).congr
        · rw [callsToJsonMembers, hnone, Bool.false_or]
        · rw [writtenMembers, written]
      · rw [visitMembers_present habsent]
        have hvalue := (hentries (key, field) List.mem_cons_self false).bind (hrest true) (Nat.cast_nonneg _)
        have hcolon := (@counts_add _ _ _ (withinBytes maxBytes) 1).bind hvalue
          (add_nonneg (Nat.cast_nonneg _) (Nat.cast_nonneg _))
        have hkey := (@counts_addString maxBytes key).bind hcolon
          (add_nonneg zero_le_one (add_nonneg (Nat.cast_nonneg _) (Nat.cast_nonneg _)))
        have hall := (counts_comma wroteField).bind hkey (add_nonneg (Nat.cast_nonneg _)
          (add_nonneg zero_le_one (add_nonneg (Nat.cast_nonneg _) (Nat.cast_nonneg _))))
        by_cases hplain : callsToJson field = false
        · rw [Bool.not_eq_true] at habsent
          obtain ⟨text, htext⟩ := Option.isSome_iff_exists.mp (@written_isSome _ _ toJson _ habsent hplain)
          apply hall.congr
          · rw [callsToJsonMembers, Bool.or_eq_false_iff]
            simp
          · have hmember : utf8Length (quote key ++ 0x3A :: text) =
                utf8Length (quote key) + 1 + utf8Length text := utf8Length_append_cons (by decide) _ _
            have hfield : writtenSize toJson field false = utf8Length text := by
              rw [writtenSize, htext]
            rw [writtenMembers, htext]
            simp only [List.map_cons, List.sum_cons, List.length_cons, hmember, hfield]
            unfold commas
            cases wroteField with
            | true =>
                simp only [if_true]
                push_cast
                ring
            | false =>
                simp only [if_true, Bool.false_eq_true, if_false, Nat.add_sub_cancel]
                push_cast
                ring
        · apply (hall.of_not _ _).congr
          · rw [callsToJsonMembers, Bool.or_eq_false_iff]
            simp
          · rfl
          · simp [hplain]

theorem counts_visit (value : JsTree N) (inArray : Bool) :
    Budget.Counts (withinBytes maxBytes) (visit maxBytes value inArray) (callsToJson value = false)
      (writtenSize toJson value inArray : ℚ) := by
  induction value using JsTree.induction generalizing inArray with
  | null => exact (counts_add 4).congr (iff_of_true trivial rfl) rfl
  | bool value =>
      cases value with
      | true => exact (counts_add 4).congr (iff_of_true trivial rfl) rfl
      | false => exact (counts_add 5).congr (iff_of_true trivial rfl) rfl
  | number value => exact (counts_add _).congr (iff_of_true trivial rfl) rfl
  | string value => exact (counts_addString value).congr (iff_of_true trivial rfl) rfl
  | absent kind =>
      cases inArray with
      | true => exact (counts_add 4).congr (iff_of_true trivial rfl) rfl
      | false => exact counts_ok.congr (iff_of_true trivial rfl) rfl
  | array items ih =>
      have hinner := (counts_visitItems ih false).bind
        (@counts_add _ _ _ (withinBytes maxBytes) 1) zero_le_one
      have hall := (@counts_add _ _ _ (withinBytes maxBytes) 1).bind hinner
        (add_nonneg (Nat.cast_nonneg _) zero_le_one)
      have hwritten : writtenSize toJson (.array items) inArray =
          1 + (utf8Length (JoinedText.joined 0x2C (writtenItems toJson items)) + 1) :=
        utf8Length_enclosed (by decide) (by decide) _
      apply hall.congr
      · rw [callsToJson, true_and, and_true]
      · rw [hwritten, utf8Length_joined, length_writtenItems]
        push_cast
        rfl
  | object entries ih =>
      by_cases hcustom : hasToJson entries = true
      · have hcalls : ¬ callsToJson (.object entries) = false := by
          rw [callsToJson, hcustom, Bool.true_or]
          exact fun h => nomatch h
        have hfails : ∀ total result, visit maxBytes (.object entries) inArray total ≠ .ok result := by
          intro total result
          rw [visit, if_pos hcustom]
          exact fun h => nomatch h
        exact (counts_error hfails _).congr (iff_of_false id hcalls) rfl
      · have hplain := hcustom
        rw [Bool.not_eq_true] at hplain
        have hvisit : visit maxBytes (.object entries) inArray = fun bytes =>
            Budget.add (withinBytes maxBytes) 1 bytes >>= fun bytes =>
              visitMembers maxBytes entries false bytes >>= Budget.add (withinBytes maxBytes) 1 := by
          funext bytes
          rw [visit, if_neg hcustom]
        have hinner := (counts_visitMembers ih false).bind
          (@counts_add _ _ _ (withinBytes maxBytes) 1) zero_le_one
        have hall := (@counts_add _ _ _ (withinBytes maxBytes) 1).bind hinner
          (add_nonneg (Nat.cast_nonneg _) zero_le_one)
        have hwritten : writtenSize toJson (.object entries) inArray =
            1 + (utf8Length (JoinedText.joined 0x2C (writtenMembers toJson entries)) + 1) := by
          rw [writtenSize, written, if_neg hcustom]
          exact utf8Length_enclosed (by decide) (by decide) _
        rw [hvisit]
        apply hall.congr
        · rw [callsToJson, hplain, Bool.false_or, true_and, and_true]
        · rw [hwritten, utf8Length_joined]
          push_cast
          rfl

def textSize (toJson : List (JsString × JsTree N) → Option JsString) (value : JsTree N) : ℕ :=
  utf8Length ((written toJson value).getD [])

theorem writtenSize_false (value : JsTree N) : writtenSize toJson value false = textSize toJson value := by
  unfold writtenSize textSize
  cases written toJson value with
  | none => rfl
  | some text => rfl

theorem visit_zero (hlimit : 0 ≤ maxBytes) (value : JsTree N) (bytes : ℚ) :
    visit maxBytes value false 0 = .ok bytes ↔ callsToJson value = false ∧
      ((textSize toJson value : ℚ) : ByteLimit) ≤ maxBytes ∧ bytes = textSize toJson value := by
  have hwithin : (withinBytes maxBytes).within 0 = true := decide_eq_true hlimit
  rw [@counts_visit _ _ toJson _ value false 0 hwithin bytes, writtenSize_false, zero_add]
  constructor
  · intro h
    obtain ⟨hplain, hfits, heq⟩ := h
    rw [heq] at hfits
    exact ⟨hplain, of_decide_eq_true hfits, heq⟩
  · intro h
    obtain ⟨hplain, hfits, heq⟩ := h
    rw [heq]
    exact ⟨hplain, decide_eq_true hfits, rfl⟩

/-- The count is complete when the text has at most so many bytes and no `toJSON` is called for it; then it is
the number of bytes, and otherwise it is above the limit; with a `toJSON` the number above it is
`maxBytes + 1`, which is exact below 2^53. -/
theorem bounded_size_exact (toJson : List (JsString × JsTree N) → Option JsString) (value : JsTree N)
    (hlimit : 0 ≤ maxBytes) :
    ((boundedJsonUtf8Bytes value maxBytes).complete = true ↔
        callsToJson value = false ∧ ((textSize toJson value : ℚ) : ByteLimit) ≤ maxBytes) ∧
      ((boundedJsonUtf8Bytes value maxBytes).complete = true →
        (boundedJsonUtf8Bytes value maxBytes).bytes = ((textSize toJson value : ℚ) : ByteLimit)) ∧
      ((boundedJsonUtf8Bytes value maxBytes).complete = false →
        callsToJson value = false ∨ maxBytes < ((2 ^ 53 : ℚ) : ByteLimit) →
          maxBytes < (boundedJsonUtf8Bytes value maxBytes).bytes) := by
  have hvisit := @visit_zero _ _ toJson _ hlimit value
  unfold boundedJsonUtf8Bytes
  cases hresult : visit maxBytes value false 0 with
  | ok bytes =>
      obtain ⟨hplain, hfits, heq⟩ := (hvisit bytes).mp hresult
      refine ⟨iff_of_true rfl ⟨hplain, hfits⟩, ?_, ?_⟩
      · intro _
        show (bytes : ByteLimit) = _
        rw [heq]
      · exact fun h => absurd h.symm Bool.false_ne_true
  | error bytes =>
      have hnot : ¬ (callsToJson value = false ∧ ((textSize toJson value : ℚ) : ByteLimit) ≤ maxBytes) := by
        intro h
        have hok := (hvisit _).mpr ⟨h.1, h.2, rfl⟩
        rw [hresult] at hok
        exact nomatch hok
      refine ⟨iff_of_false Bool.false_ne_true hnot, fun h => absurd h Bool.false_ne_true, ?_⟩
      intro _ hfinite
      have hne : maxBytes ≠ ⊤ := by
        cases hfinite with
        | inl hplain =>
            intro htop
            rw [htop] at hnot
            exact hnot ⟨hplain, le_top⟩
        | inr hexact => exact ne_top_of_lt hexact
      obtain ⟨limit, hlimit⟩ := WithTop.ne_top_iff_exists.mp hne
      show maxBytes < max (bytes : ByteLimit) (maxBytes + 1)
      apply lt_max_of_lt_right
      rw [← hlimit]
      have hsucc : ((limit : ℚ) : ByteLimit) < ((limit + 1 : ℚ) : ByteLimit) :=
        WithTop.coe_lt_coe.mpr (lt_add_one limit)
      exact hsucc

end Counting

section Samples

/-- An array with a string that is written with an escape, and a limit of its size. -/
theorem bounded_size_exact_array :
    (boundedJsonUtf8Bytes (.array [.string [0xD800], .absent .undefined] : JsTree Empty) 15).complete = true := by
  have hexact := bounded_size_exact (fun _ => none)
    (.array [.string [0xD800], .absent .undefined] : JsTree Empty) (show (0 : ByteLimit) ≤ 15 by decide)
  exact hexact.1.mpr ⟨by decide, by decide +kernel⟩

/-- An object with a `toJSON` that returns a short text is not counted. -/
theorem toJson_not_counted :
    ∃ (toJson : List (JsString × JsTree Empty) → Option JsString) (value : JsTree Empty),
      written toJson value = some (quote (js "x")) ∧ textSize toJson value = 3 ∧
        (boundedJsonUtf8Bytes value 10).complete = false :=
  ⟨fun _ => some (quote (js "x")), .object [(js "toJSON", .absent .function)],
    by decide +kernel, by decide +kernel, by decide +kernel⟩

end Samples

end GreenchClaw.Config
