import Mathlib.Data.List.DropRight
import Mathlib.Data.List.TakeWhile
import Mathlib.Algebra.GroupWithZero.Nat

/-!
# JavaScript strings

A JavaScript string is the sequence of its UTF-16 code units, so the scanners of the
repository index code units and not characters.  This module gives the little of
`String.prototype` that the models share: `trim`, the `\s` class of a regular expression
and the case mapping.
-/

namespace GreenchClaw.Js

abbrev CodeUnit := UInt16

abbrev JsString := List CodeUnit

instance : LawfulBEq JsString := inferInstance

def unit (c : Char) : CodeUnit := UInt16.ofNat c.toNat

def js (s : String) : JsString := s.toList.map unit

/-- The class `\s`, which is also what `String.prototype.trim` removes: `WhiteSpace` and
`LineTerminator`. -/
def isSpace (u : CodeUnit) : Bool :=
  (9 ≤ u && u ≤ 13) || u == 32 || u == 160 || u == 0x1680 || (0x2000 ≤ u && u ≤ 0x200A) ||
    u == 0x2028 || u == 0x2029 || u == 0x202F || u == 0x205F || u == 0x3000 || u == 0xFEFF

def isLineTerminator (u : CodeUnit) : Bool := u == 10 || u == 13 || u == 0x2028 || u == 0x2029

def isWordUnit (u : CodeUnit) : Bool :=
  (48 ≤ u && u ≤ 57) || (65 ≤ u && u ≤ 90) || (97 ≤ u && u ≤ 122) || u == 95

def newline : CodeUnit := unit '\n'

def isDigit (u : CodeUnit) : Bool := 48 ≤ u && u ≤ 57

def asciiLower (u : CodeUnit) : CodeUnit := if 65 ≤ u ∧ u ≤ 90 then u + 32 else u

def trim (s : JsString) : JsString :=
  (s.dropWhile isSpace).rdropWhile isSpace

def trimEnd (s : JsString) : JsString := s.rdropWhile isSpace

/-- A text that counts as true, which is one that is not empty. -/
def truthy (value : Option JsString) : Option JsString := value.filter fun s => s ≠ []

def includes (text part : JsString) : Bool := text.tails.any part.isPrefixOf

@[simp] theorem trim_nil : trim [] = [] := rfl

theorem dropWhile_trimEnds (p : CodeUnit → Bool) (s : JsString) :
    ((s.dropWhile p).rdropWhile p).dropWhile p = (s.dropWhile p).rdropWhile p := by
  rw [List.dropWhile_eq_self_iff]
  intro hpos
  have hprefix : (s.dropWhile p).rdropWhile p <+: s.dropWhile p := List.rdropWhile_prefix p _
  have hne : s.dropWhile p ≠ [] := by
    intro hnil
    rw [hnil] at hpos
    exact absurd hpos (Nat.lt_irrefl 0)
  have hhead := List.head_dropWhile_not p hne
  revert hpos hprefix hne hhead
  generalize s.dropWhile p = dropped
  intro hpos hprefix hne hhead
  have heq : (dropped.rdropWhile p)[0] = dropped.head hne := by
    rw [List.head_eq_getElem, hprefix.getElem hpos]
  rw [heq, hhead]
  exact Bool.false_ne_true

theorem dropWhile_eq_self_of_trim (s : JsString) :
    (trim s).dropWhile isSpace = trim s :=
  dropWhile_trimEnds isSpace s

@[simp] theorem trim_trim (s : JsString) : trim (trim s) = trim s := by
  conv_lhs => rw [trim, dropWhile_eq_self_of_trim]
  exact List.rdropWhile_idempotent isSpace _

def Spaces (text : JsString) : Prop := ∀ u ∈ text, isSpace u = true

theorem Spaces.nil : Spaces [] := fun _ h => nomatch h

theorem Spaces.append {text rest : JsString} (h : Spaces text) (hrest : Spaces rest) :
    Spaces (text ++ rest) := by
  intro u hu
  rcases List.mem_append.mp hu with hu | hu
  · exact h u hu
  · exact hrest u hu

theorem Spaces.dropWhile_eq_nil {text : JsString} (h : Spaces text) :
    text.dropWhile isSpace = [] := List.dropWhile_eq_nil_iff.mpr h

theorem trim_spaces_append {lead : JsString} (h : Spaces lead) (s : JsString) :
    trim (lead ++ s) = trim s := by
  rw [trim, List.dropWhile_append, h.dropWhile_eq_nil]
  rfl

theorem rdropWhile_append_spaces {tail : JsString} (h : Spaces tail) (s : JsString) :
    (s ++ tail).rdropWhile isSpace = s.rdropWhile isSpace := by
  have hrev : Spaces tail.reverse := fun u hu => h u (List.mem_reverse.mp hu)
  rw [List.rdropWhile, List.reverse_append, List.dropWhile_append, hrev.dropWhile_eq_nil]
  rfl

theorem trim_append_spaces {tail : JsString} (h : Spaces tail) (s : JsString) :
    trim (s ++ tail) = trim s := by
  rw [trim, trim, List.dropWhile_append]
  cases hdrop : s.dropWhile isSpace with
  | nil =>
      rw [h.dropWhile_eq_nil]
      rfl
  | cons u rest => exact rdropWhile_append_spaces h (u :: rest)

theorem trim_eq_self {u v : CodeUnit} {rest front text : JsString} (hhead : text = u :: rest)
    (hlast : text = front ++ [v]) (hu : isSpace u = false) (hv : isSpace v = false) :
    trim text = text := by
  have hdrop : text.dropWhile isSpace = text := by
    rw [hhead, List.dropWhile_cons_of_neg (by simp [hu])]
  rw [trim, hdrop, hlast, List.rdropWhile_concat_neg isSpace front v (by simp [hv])]

theorem trim_map {f : CodeUnit → CodeUnit} (h : ∀ u, isSpace (f u) = isSpace u) (s : JsString) :
    trim (s.map f) = (trim s).map f := by
  have hspace : isSpace ∘ f = isSpace := funext h
  rw [trim, trim, List.dropWhile_map, hspace, List.rdropWhile, List.rdropWhile, ← List.map_reverse,
    List.dropWhile_map, hspace, List.map_reverse]

/-- The Unicode case mapping.  It stays abstract; on ASCII strings it maps the letters `A` to
`Z` and nothing else. -/
class UnicodeCase where
  toLowerCase : JsString → JsString
  toLowerCase_ascii : ∀ s : JsString, (∀ u ∈ s, u < 128) →
    toLowerCase s = s.map fun u => if 65 ≤ u ∧ u ≤ 90 then u + 32 else u

@[reducible] def asciiCase : UnicodeCase where
  toLowerCase s := s.map fun u => if 65 ≤ u ∧ u ≤ 90 then u + 32 else u
  toLowerCase_ascii _ _ := rfl

variable [UnicodeCase]

def normalizeOptionalString (value : Option JsString) : Option JsString :=
  match value with
  | none => none
  | some raw => if trim raw = [] then none else some (trim raw)

def normalizeOptionalLowercaseString (value : Option JsString) : Option JsString :=
  (normalizeOptionalString value).map UnicodeCase.toLowerCase

def normalizeLowercaseStringOrEmpty (value : Option JsString) : JsString :=
  (normalizeOptionalLowercaseString value).getD []

omit [UnicodeCase] in
@[simp] theorem normalizeOptionalString_idem (value : Option JsString) :
    normalizeOptionalString (normalizeOptionalString value) = normalizeOptionalString value := by
  cases value with
  | none => rfl
  | some text =>
      by_cases hnil : trim text = []
      · simp [normalizeOptionalString, hnil]
      · simp [normalizeOptionalString, hnil]

theorem normalizeLowercaseStringOrEmpty_eq (text : JsString) :
    normalizeLowercaseStringOrEmpty (some text) = UnicodeCase.toLowerCase (trim text) := by
  rw [normalizeLowercaseStringOrEmpty, normalizeOptionalLowercaseString, normalizeOptionalString]
  split
  · rename_i hnil
    rw [hnil, UnicodeCase.toLowerCase_ascii [] fun u hu => absurd hu List.not_mem_nil]
    rfl
  · rfl

/-- Lower case has neither capital letters nor white space at its ends. -/
def LowerCaseTwice : Prop :=
  ∀ s : JsString, UnicodeCase.toLowerCase (trim (UnicodeCase.toLowerCase (trim s))) =
    UnicodeCase.toLowerCase (trim s)

omit [UnicodeCase] in
theorem lowerCaseTwice_ascii : @LowerCaseTwice asciiCase := by
  have hletter : ∀ n : Fin 128,
      isSpace (if 65 ≤ UInt16.ofNat n ∧ UInt16.ofNat n ≤ 90 then UInt16.ofNat n + 32
          else UInt16.ofNat n) = isSpace (UInt16.ofNat n) ∧
        ¬(65 ≤ (if 65 ≤ UInt16.ofNat n ∧ UInt16.ofNat n ≤ 90 then UInt16.ofNat n + 32
            else UInt16.ofNat n) ∧
          (if 65 ≤ UInt16.ofNat n ∧ UInt16.ofNat n ≤ 90 then UInt16.ofNat n + 32
            else UInt16.ofNat n) ≤ 90) := by
    decide +kernel
  have hunit (u : CodeUnit) :
      isSpace (if 65 ≤ u ∧ u ≤ 90 then u + 32 else u) = isSpace u ∧
        ¬(65 ≤ (if 65 ≤ u ∧ u ≤ 90 then u + 32 else u) ∧
          (if 65 ≤ u ∧ u ≤ 90 then u + 32 else u) ≤ 90) := by
    by_cases hupper : 65 ≤ u ∧ u ≤ 90
    · have hn : u.toNat < 128 := by
        have hle := UInt16.le_iff_toNat_le.mp hupper.2
        exact Nat.lt_of_le_of_lt hle (by decide)
      have hcase := hletter ⟨u.toNat, hn⟩
      rw [show UInt16.ofNat u.toNat = u from UInt16.ofNat_toNat] at hcase
      exact hcase
    · rw [if_neg hupper]
      exact ⟨rfl, hupper⟩
  intro s
  show (trim ((trim s).map _)).map _ = (trim s).map _
  rw [trim_map fun u => (hunit u).1, trim_trim, List.map_map]
  apply List.map_congr_left
  intro u _
  exact if_neg (hunit u).2

end GreenchClaw.Js
