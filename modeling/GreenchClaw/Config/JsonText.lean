import GreenchClaw.Config.EnvSubstitution
import GreenchClaw.Js.Bytes
import Mathlib.Data.Nat.Digits.Defs

/-!
# The text of a JSON value

`JSON.stringify` of a value without indentation.  How a number is written is a parameter.
-/

namespace GreenchClaw.Config

open GreenchClaw.Js

/-- `String` of a number. -/
class NumberText (N : Type) where
  text : N → JsString

def unicodeEscape (u : CodeUnit) : JsString :=
  let digits := Nat.toDigits 16 u.toNat
  js "\\u" ++ js (String.ofList (List.replicate (4 - digits.length) '0' ++ digits))

def escapeUnit (u : CodeUnit) : JsString :=
  if u = 0x22 then [0x5C, 0x22]
  else if u = 0x5C then [0x5C, 0x5C]
  else if u = 8 then js "\\b"
  else if u = 9 then js "\\t"
  else if u = 10 then js "\\n"
  else if u = 12 then js "\\f"
  else if u = 13 then js "\\r"
  else if u < 0x20 then unicodeEscape u
  else [u]

def escapeUnits : JsString → JsString
  | [] => []
  | [u] => if isHighSurrogate u || isLowSurrogate u then unicodeEscape u else escapeUnit u
  | u :: v :: rest =>
      if isHighSurrogate u then
        if isLowSurrogate v then u :: v :: escapeUnits rest
        else unicodeEscape u ++ escapeUnits (v :: rest)
      else if isLowSurrogate u then unicodeEscape u ++ escapeUnits (v :: rest)
      else escapeUnit u ++ escapeUnits (v :: rest)

def quote (text : JsString) : JsString := [0x22] ++ escapeUnits text ++ [0x22]

section Text

variable {N : Type} [NumberText N]

mutual

def stringify : JsonValue N → JsString
  | .null => js "null"
  | .bool value => if value then js "true" else js "false"
  | .number value => NumberText.text value
  | .string value => quote value
  | .array items => [0x5B] ++ stringifyItems items ++ [0x5D]
  | .object entries => [0x7B] ++ stringifyEntries entries ++ [0x7D]

def stringifyItems : List (JsonValue N) → JsString
  | [] => []
  | item :: rest => stringify item ++ if rest.isEmpty then [] else 0x2C :: stringifyItems rest

def stringifyEntries : List (JsString × JsonValue N) → JsString
  | [] => []
  | (key, value) :: rest =>
      quote key ++ [0x3A] ++ stringify value ++
        if rest.isEmpty then [] else 0x2C :: stringifyEntries rest

end

end Text

/-!
## Strings in JSON texts

The text of a string, and of an array of strings, determines the strings.
-/

/-! ## Reading a string back -/

def hexValue (u : CodeUnit) : CodeUnit := if u ≤ 57 then u - 48 else u - 87

def unescaped (u : CodeUnit) : CodeUnit :=
  if u = unit 'b' then 8
  else if u = unit 't' then 9
  else if u = unit 'n' then 10
  else if u = unit 'f' then 12
  else if u = unit 'r' then 13
  else u

def push (u : CodeUnit) (read : JsString × JsString) : JsString × JsString := (u :: read.1, read.2)

/-- The units up to the closing quote, and what follows it. -/
def readUnits : JsString → JsString × JsString
  | [] => ([], [])
  | u :: rest =>
      if u = 0x22 then ([], rest)
      else if u = 0x5C then
        match rest with
        | [] => ([], [])
        | v :: more =>
            if v = unit 'u' then
              match more with
              | a :: b :: c :: d :: after =>
                  push (((hexValue a * 16 + hexValue b) * 16 + hexValue c) * 16 + hexValue d)
                    (readUnits after)
              | _ => ([], [])
            else push (unescaped v) (readUnits more)
      else push u (readUnits rest)

theorem readUnits_quote (rest : JsString) : readUnits (0x22 :: rest) = ([], rest) := by
  rw [readUnits.eq_def]
  exact if_pos rfl

theorem readUnits_plain {u : CodeUnit} (hquote : u ≠ 0x22) (hslash : u ≠ 0x5C) (rest : JsString) :
    readUnits (u :: rest) = push u (readUnits rest) := by
  rw [readUnits.eq_def]
  simp only [if_neg hquote, if_neg hslash]

theorem readUnits_letter {v : CodeUnit} (h : v ≠ unit 'u') (rest : JsString) :
    readUnits (0x5C :: v :: rest) = push (unescaped v) (readUnits rest) := by
  rw [readUnits.eq_def]
  simp only [if_neg (by decide : (0x5C : CodeUnit) ≠ 0x22), if_true, if_neg h]

theorem readUnits_hex (a b c d : CodeUnit) (rest : JsString) :
    readUnits (0x5C :: unit 'u' :: a :: b :: c :: d :: rest) =
      push (((hexValue a * 16 + hexValue b) * 16 + hexValue c) * 16 + hexValue d) (readUnits rest) := by
  rw [readUnits.eq_def]
  simp only [if_neg (by decide : (0x5C : CodeUnit) ≠ 0x22), if_true]

/-! ## Escapes -/

theorem hexValue_digit {d : ℕ} (h : d < 16) : hexValue (unit (Nat.digitChar d)) = UInt16.ofNat d := by
  have hall : ∀ d < 16, hexValue (unit (Nat.digitChar d)) = UInt16.ofNat d := by decide
  exact hall d h

theorem hexDigits_eq {n : ℕ} (h : n < 65536) :
    List.replicate (4 - (Nat.toDigits 16 n).length) '0' ++ Nat.toDigits 16 n =
      [Nat.digitChar (n / 4096), Nat.digitChar (n / 256 % 16), Nat.digitChar (n / 16 % 16),
        Nat.digitChar (n % 16)] := by
  have hzero : Nat.digitChar 0 = '0' := rfl
  by_cases hone : n < 16
  · have h1 : n / 4096 = 0 := by omega
    have h2 : n / 256 % 16 = 0 := by omega
    have h3 : n / 16 % 16 = 0 := by omega
    rw [Nat.toDigits_of_lt_base hone, h1, h2, h3, Nat.mod_eq_of_lt hone, hzero]
    rfl
  · rw [Nat.toDigits_of_base_le (by omega) (by omega)]
    by_cases htwo : n / 16 < 16
    · have h1 : n / 4096 = 0 := by omega
      have h2 : n / 256 % 16 = 0 := by omega
      rw [Nat.toDigits_of_lt_base htwo, h1, h2, Nat.mod_eq_of_lt htwo, hzero]
      rfl
    · rw [Nat.toDigits_of_base_le (by omega) (by omega), Nat.div_div_eq_div_mul]
      by_cases hthree : n / (16 * 16) < 16
      · have h1 : n / 4096 = 0 := by omega
        have h2 : n / 256 % 16 = n / (16 * 16) := by omega
        rw [Nat.toDigits_of_lt_base hthree, h1, h2, hzero]
        rfl
      · have hfour : n / (16 * 16) / 16 < 16 := by omega
        have h1 : n / 4096 = n / (16 * 16) / 16 := by omega
        have h2 : n / 256 % 16 = n / (16 * 16) % 16 := by omega
        rw [Nat.toDigits_of_base_le (by omega) (by omega), Nat.toDigits_of_lt_base hfour, h1, h2]
        rfl

theorem unicodeEscape_eq (u : CodeUnit) :
    unicodeEscape u = [0x5C, unit 'u', unit (Nat.digitChar (u.toNat / 4096)),
      unit (Nat.digitChar (u.toNat / 256 % 16)), unit (Nat.digitChar (u.toNat / 16 % 16)),
      unit (Nat.digitChar (u.toNat % 16))] := by
  have hstart : js "\\u" = [0x5C, unit 'u'] := rfl
  have hdigits : ∀ digits : List Char, js (String.ofList digits) = digits.map unit := by
    intro digits
    rw [js, String.toList_ofList]
  rw [unicodeEscape]
  simp only [hexDigits_eq u.toNat_lt, hstart, hdigits]
  rfl

theorem readUnits_unicodeEscape (u : CodeUnit) (rest : JsString) :
    readUnits (unicodeEscape u ++ rest) = push u (readUnits rest) := by
  have hlt : u.toNat < 65536 := u.toNat_lt
  rw [unicodeEscape_eq]
  show readUnits (0x5C :: unit 'u' :: _ :: _ :: _ :: _ :: rest) = _
  rw [readUnits_hex, hexValue_digit (by omega), hexValue_digit (by omega), hexValue_digit (by omega),
    hexValue_digit (by omega)]
  refine congrArg (push · _) ?_
  have hsixteen : (16 : CodeUnit) = UInt16.ofNat 16 := rfl
  have hvalue : ((u.toNat / 4096 * 16 + u.toNat / 256 % 16) * 16 + u.toNat / 16 % 16) * 16 +
      u.toNat % 16 = u.toNat := by omega
  rw [hsixteen, ← UInt16.ofNat_mul, ← UInt16.ofNat_add, ← UInt16.ofNat_mul, ← UInt16.ofNat_add,
    ← UInt16.ofNat_mul, ← UInt16.ofNat_add, hvalue, UInt16.ofNat_toNat]

theorem readUnits_escapeUnit (u : CodeUnit) (rest : JsString) :
    readUnits (escapeUnit u ++ rest) = push u (readUnits rest) := by
  have hletter {v : CodeUnit} (hv : v ≠ unit 'u') (w : CodeUnit) (hw : unescaped v = w) (hu : u = w) :
      readUnits ([0x5C, v] ++ rest) = push u (readUnits rest) := by
    rw [hu, ← hw]
    exact readUnits_letter hv rest
  rw [escapeUnit]
  split
  · exact hletter (by decide) 0x22 (by decide) ‹_›
  · rename_i hquote
    split
    · exact hletter (by decide) 0x5C (by decide) ‹_›
    · rename_i hslash
      split
      · exact hletter (by decide) 8 (by decide) ‹_›
      · split
        · exact hletter (by decide) 9 (by decide) ‹_›
        · split
          · exact hletter (by decide) 10 (by decide) ‹_›
          · split
            · exact hletter (by decide) 12 (by decide) ‹_›
            · split
              · exact hletter (by decide) 13 (by decide) ‹_›
              · split
                · exact readUnits_unicodeEscape u rest
                · exact readUnits_plain hquote hslash rest

theorem surrogate_plain {u : CodeUnit} (h : isHighSurrogate u = true ∨ isLowSurrogate u = true) :
    u ≠ 0x22 ∧ u ≠ 0x5C := by
  constructor
  · intro heq
    rw [heq] at h
    exact absurd h (by decide)
  · intro heq
    rw [heq] at h
    exact absurd h (by decide)

theorem readUnits_escapeUnits (text rest : JsString) :
    readUnits (escapeUnits text ++ 0x22 :: rest) = (text, rest) := by
  fun_induction escapeUnits text with
  | case1 => exact readUnits_quote rest
  | case2 u hsurrogate => rw [readUnits_unicodeEscape, readUnits_quote, push]
  | case3 u hplain => rw [readUnits_escapeUnit, readUnits_quote, push]
  | case4 u v text hhigh hlow ih =>
      obtain ⟨hquote, hslash⟩ := surrogate_plain (Or.inl hhigh)
      obtain ⟨hquote', hslash'⟩ := surrogate_plain (Or.inr hlow)
      rw [List.cons_append, List.cons_append, readUnits_plain hquote hslash, readUnits_plain hquote' hslash',
        ih, push, push]
  | case5 u v text hhigh hlow ih => rw [List.append_assoc, readUnits_unicodeEscape, ih, push]
  | case6 u v text hhigh hlow ih => rw [List.append_assoc, readUnits_unicodeEscape, ih, push]
  | case7 u v text hhigh hlow ih => rw [List.append_assoc, readUnits_escapeUnit, ih, push]

/-! ## Texts of strings -/

theorem quote_append_inj {text other rest more : JsString} (h : quote text ++ rest = quote other ++ more) :
    text = other ∧ rest = more := by
  have hread : ∀ text rest : JsString, quote text ++ rest = 0x22 :: (escapeUnits text ++ 0x22 :: rest) := by
    intro text rest
    rw [quote, List.append_assoc, List.append_assoc]
    rfl
  rw [hread, hread, List.cons.injEq] at h
  have hunits := congrArg readUnits h.2
  rw [readUnits_escapeUnits, readUnits_escapeUnits, Prod.mk.injEq] at hunits
  exact hunits

/-- No number is written in an array of strings. -/
instance noNumberText : NumberText Empty := ⟨fun value => nomatch value⟩

def stringifyTexts (texts : List JsString) : JsString :=
  stringify (.array (texts.map JsonValue.string) : JsonValue Empty)

theorem stringifyItems_inj {texts others : List JsString}
    (h : stringifyItems (texts.map (JsonValue.string : JsString → JsonValue Empty)) ++ [0x5D] =
      stringifyItems (others.map (JsonValue.string : JsString → JsonValue Empty)) ++ [0x5D]) :
    texts = others := by
  induction texts generalizing others with
  | nil =>
      cases others with
      | nil => rfl
      | cons other others =>
          rw [List.map_cons, stringifyItems, stringify, quote] at h
          exact absurd h (by simp [stringifyItems])
  | cons text texts ih =>
      cases others with
      | nil =>
          rw [List.map_cons, stringifyItems, stringify, quote] at h
          exact absurd h (by simp [stringifyItems])
      | cons other others =>
          rw [List.map_cons, List.map_cons, stringifyItems, stringifyItems, stringify, stringify,
            List.append_assoc, List.append_assoc] at h
          obtain ⟨rfl, htail⟩ := quote_append_inj h
          cases texts with
          | nil =>
              cases others with
              | nil => rfl
              | cons next others => exact absurd htail (by simp)
          | cons first texts =>
              cases others with
              | nil => exact absurd htail (by simp)
              | cons next others =>
                  simp only [List.map_cons, List.isEmpty_cons, Bool.false_eq_true, if_false,
                    List.cons_append, List.cons.injEq, true_and] at htail
                  exact congrArg (text :: ·) (ih htail)

theorem stringifyTexts_injective {texts others : List JsString}
    (h : stringifyTexts texts = stringifyTexts others) : texts = others := by
  rw [stringifyTexts, stringifyTexts, stringify, stringify, List.append_assoc, List.append_assoc] at h
  exact stringifyItems_inj (List.append_cancel_left h)

end GreenchClaw.Config
