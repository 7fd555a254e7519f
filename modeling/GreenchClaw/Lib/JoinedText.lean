import Mathlib.Data.List.Basic
import Mathlib.Data.List.DropRight
import Mathlib.Algebra.GroupWithZero.Nat

/-!
# Parts joined with a separator

The front and the end of a joined text, taken from its parts without building it.
-/

namespace JoinedText

variable {α : Type}

def joined (separator : α) (parts : List (List α)) : List α := [separator].intercalate parts

variable {separator : α}

@[simp] theorem joined_nil : joined separator [] = [] := rfl

@[simp] theorem joined_singleton (part : List α) : joined separator [part] = part :=
  List.intercalate_singleton

theorem joined_cons (part : List α) {parts : List (List α)} (h : parts ≠ []) :
    joined separator (part :: parts) = part ++ separator :: joined separator parts := by
  cases parts with
  | nil => exact absurd rfl h
  | cons second parts =>
      rw [joined, List.intercalate_cons_cons, List.append_assoc]
      rfl

theorem joined_append_singleton {parts : List (List α)} (h : parts ≠ []) (part : List α) :
    joined separator (parts ++ [part]) = joined separator parts ++ separator :: part := by
  induction parts with
  | nil => exact absurd rfl h
  | cons first parts ih =>
      rw [List.cons_append, joined_cons first (by simp)]
      cases parts with
      | nil => rw [List.nil_append, joined_singleton, joined_singleton]
      | cons second parts =>
          rw [ih (List.cons_ne_nil _ _), joined_cons first (List.cons_ne_nil _ _), List.append_assoc,
            List.cons_append]

theorem length_joined (parts : List (List α)) :
    (joined separator parts).length = (parts.map List.length).sum + (parts.length - 1) := by
  induction parts with
  | nil => rfl
  | cons part parts ih =>
      cases parts with
      | nil =>
          rw [joined_singleton]
          simp
      | cons second parts =>
          rw [joined_cons part (List.cons_ne_nil _ _), List.length_append, List.length_cons, ih]
          simp only [List.map_cons, List.sum_cons, List.length_cons]
          omega

/-! ## Terminated parts -/

def terminated (separator : α) (parts : List (List α)) : List α :=
  parts.flatMap fun part => part ++ [separator]

theorem joined_terminated {parts : List (List α)} (h : parts ≠ []) :
    joined separator parts ++ [separator] = terminated separator parts := by
  induction parts with
  | nil => exact absurd rfl h
  | cons part parts ih =>
      cases parts with
      | nil => simp [terminated]
      | cons second parts =>
          rw [joined_cons part (List.cons_ne_nil _ _), List.append_assoc, List.cons_append,
            ih (List.cons_ne_nil _ _)]
          simp [terminated]

theorem append_separator_inj {part other rest more : List α} (hpart : separator ∉ part)
    (hother : separator ∉ other) (h : part ++ separator :: rest = other ++ separator :: more) :
    part = other ∧ rest = more := by
  induction part generalizing other with
  | nil =>
      cases other with
      | nil => exact ⟨rfl, (List.cons.inj h).2⟩
      | cons u other => exact absurd (List.mem_cons.mpr (Or.inl (List.cons.inj h).1)) hother
  | cons u part ih =>
      rw [List.mem_cons, not_or] at hpart
      cases other with
      | nil => exact absurd (List.cons.inj h).1.symm hpart.1
      | cons v other =>
          rw [List.mem_cons, not_or] at hother
          have htail := ih hpart.2 hother.2 (List.cons.inj h).2
          rw [(List.cons.inj h).1, htail.1]
          exact ⟨rfl, htail.2⟩

theorem terminated_inj {parts others : List (List α)} (hparts : ∀ part ∈ parts, separator ∉ part)
    (hothers : ∀ part ∈ others, separator ∉ part)
    (h : terminated separator parts = terminated separator others) : parts = others := by
  induction parts generalizing others with
  | nil =>
      cases others with
      | nil => rfl
      | cons other others =>
          rw [terminated, List.flatMap_nil, terminated, List.flatMap_cons, List.append_assoc] at h
          exact absurd h.symm (List.append_ne_nil_of_right_ne_nil _ (List.cons_ne_nil _ _))
  | cons part parts ih =>
      cases others with
      | nil =>
          rw [terminated, List.flatMap_cons, terminated, List.flatMap_nil, List.append_assoc] at h
          exact absurd h (List.append_ne_nil_of_right_ne_nil _ (List.cons_ne_nil _ _))
      | cons other others =>
          rw [terminated, terminated, List.flatMap_cons, List.flatMap_cons, List.append_assoc,
            List.append_assoc] at h
          have hhead := append_separator_inj (hparts part List.mem_cons_self)
            (hothers other List.mem_cons_self) h
          rw [hhead.1, ih (fun p hp => hparts p (List.mem_cons_of_mem part hp))
            (fun p hp => hothers p (List.mem_cons_of_mem other hp)) hhead.2]

/-! ## The front -/

def headRest (separator : α) : List (List α) → ℕ → List α
  | [], _ => []
  | _ :: _, 0 => []
  | part :: parts, remaining + 1 =>
      separator :: (part.take remaining ++ headRest separator parts (remaining - part.length))

def head (separator : α) : List (List α) → ℕ → List α
  | [], _ => []
  | part :: parts, remaining =>
      part.take remaining ++ headRest separator parts (remaining - part.length)

theorem headRest_eq (parts : List (List α)) (remaining : ℕ) (h : parts ≠ []) :
    headRest separator parts remaining = (separator :: joined separator parts).take remaining := by
  induction parts generalizing remaining with
  | nil => exact absurd rfl h
  | cons part parts ih =>
      cases remaining with
      | zero => rfl
      | succ remaining =>
          rw [headRest, List.take_succ_cons]
          congr 1
          cases parts with
          | nil => rw [headRest, joined_singleton, List.append_nil]
          | cons second parts =>
              rw [ih _ (List.cons_ne_nil _ _), joined_cons part (List.cons_ne_nil _ _), List.take_append]

theorem head_eq (parts : List (List α)) (count : ℕ) :
    head separator parts count = (joined separator parts).take count := by
  cases parts with
  | nil => rw [head, joined_nil, List.take_nil]
  | cons part parts =>
      rw [head]
      cases parts with
      | nil => rw [headRest, joined_singleton, List.append_nil]
      | cons second parts =>
          rw [headRest_eq _ _ (List.cons_ne_nil _ _), joined_cons part (List.cons_ne_nil _ _),
            List.take_append]

/-! ## The end -/

def lastChars (text : List α) (count : ℕ) : List α := text.drop (text.length - count)

theorem lastChars_append (front back : List α) (count : ℕ) :
    lastChars (front ++ back) count =
      lastChars front (count - back.length) ++ lastChars back count := by
  rw [lastChars, lastChars, lastChars, List.length_append, List.drop_append]
  by_cases hlong : back.length ≤ count
  · have hfront : front.length + back.length - count = front.length - (count - back.length) := by
      omega
    have hback : front.length + back.length - count - front.length = back.length - count := by
      omega
    rw [hback, hfront]
  · have hfront : front.length - (count - back.length) = front.length := by omega
    have hdrop : front.length + back.length - count - front.length = back.length - count := by omega
    have hall : front.length ≤ front.length + back.length - count := by omega
    rw [hfront, hdrop, List.drop_length, List.drop_eq_nil_of_le hall]

theorem lastChars_of_le {text : List α} {count : ℕ} (h : text.length ≤ count) :
    lastChars text count = text := by
  rw [lastChars, Nat.sub_eq_zero_of_le h, List.drop_zero]

theorem lastChars_zero (text : List α) : lastChars text 0 = [] := by
  rw [lastChars, Nat.sub_zero, List.drop_length]

/-- The pieces of the end of the joined parts, from the last one on; the parts come in that order as
well. -/
def tailPieces (separator : α) : List (List α) → ℕ → List (List α)
  | [], _ => []
  | _ :: _, 0 => []
  | part :: parts, remaining + 1 =>
      if part.length ≤ remaining + 1 then
        if part.length < remaining + 1 ∧ parts ≠ [] then
          part :: [separator] :: tailPieces separator parts (remaining - part.length)
        else part :: tailPieces separator parts (remaining + 1 - part.length)
      else [part.drop (part.length - (remaining + 1))]

def tail (separator : α) (parts : List (List α)) (count : ℕ) : List α :=
  (tailPieces separator parts.reverse count).reverse.flatten

theorem tailPieces_eq (parts : List (List α)) (count : ℕ) :
    (tailPieces separator parts count).reverse.flatten =
      lastChars (joined separator parts.reverse) count := by
  induction parts generalizing count with
  | nil => simp [tailPieces, lastChars]
  | cons part parts ih =>
      cases count with
      | zero =>
          rw [lastChars_zero]
          rfl
      | succ remaining =>
          rw [tailPieces, List.reverse_cons]
          by_cases hfits : part.length ≤ remaining + 1
          · rw [if_pos hfits]
            cases parts with
            | nil =>
                rw [if_neg (by simp), tailPieces, List.reverse_nil, List.nil_append, joined_singleton,
                  lastChars_of_le hfits]
                simp
            | cons second parts =>
                have hne : (second :: parts).reverse ≠ [] := by simp
                rw [joined_append_singleton hne, lastChars_append, List.length_cons]
                by_cases hmore : part.length < remaining + 1
                · rw [if_pos ⟨hmore, List.cons_ne_nil _ _⟩]
                  have hpart : lastChars (separator :: part) (remaining + 1) = separator :: part :=
                    lastChars_of_le (by rw [List.length_cons]; omega)
                  rw [hpart, show remaining + 1 - (part.length + 1) = remaining - part.length by omega,
                    ← ih]
                  simp
                · have hsame : remaining + 1 = part.length := by omega
                  rw [if_neg (fun h => hmore h.1), hsame, Nat.sub_self,
                    show part.length - (part.length + 1) = 0 by omega, lastChars_zero]
                  have hpart : lastChars (separator :: part) part.length = part := by
                    rw [lastChars, List.length_cons, Nat.add_sub_cancel_left, List.drop_one,
                      List.tail_cons]
                  rw [hpart]
                  cases second <;> simp [tailPieces]
          · rw [if_neg hfits]
            have hlast : lastChars part (remaining + 1) =
                part.drop (part.length - (remaining + 1)) := rfl
            cases parts with
            | nil =>
                rw [List.reverse_nil, List.nil_append, joined_singleton, hlast]
                simp
            | cons second parts =>
                have hne : (second :: parts).reverse ≠ [] := by simp
                rw [joined_append_singleton hne, ← List.singleton_append (l := part), ← List.append_assoc,
                  lastChars_append, hlast, show remaining + 1 - part.length = 0 by omega,
                  lastChars_zero]
                simp

theorem tail_eq (parts : List (List α)) (count : ℕ) :
    tail separator parts count = lastChars (joined separator parts) count := by
  rw [tail, tailPieces_eq, List.reverse_reverse]

end JoinedText
