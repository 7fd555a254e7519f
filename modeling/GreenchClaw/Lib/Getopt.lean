import Mathlib.Data.List.Basic

/-!
# Reading arguments as getopt_long does

Options and operands may stand in any order.  A long option is written in full or as a prefix that
only one option has, with its value behind `=` or in the next argument.  Short options may be
written together, the rest of such a cluster being the value of the first one that takes one.
Behind the terminator every argument is an operand.  Flags are written with their dashes.
-/

namespace Getopt

variable {α : Type}

structure Options (α : Type) where
  dash : α
  equals : α
  longFlags : List (List α)
  valueFlags : List (List α)

inductive Item (α : Type) where
  | option (flag : List α) (value : Option (List α))
  | operand (token : List α)
deriving DecidableEq, Repr

inductive Failure where
  | unknownOption
  | ambiguousOption
  | unexpectedValue
  | missingValue
deriving DecidableEq, Repr

/-- What the next argument is read as: the value of a flag before it, or anything, or an operand
in any case. -/
inductive Mode (α : Type) where
  | options
  | value (flag : List α)
  | operands

inductive Token (α : Type) where
  | operand
  | terminator
  | long (name : List α) (inlineValue : Option (List α))
  | cluster (letters : List α)
deriving DecidableEq

def Item.flag : Item α → Option (List α)
  | .option flag _ => some flag
  | .operand _ => none

def Item.text : Item α → Option (List α)
  | .option _ value => value
  | .operand token => some token

def operands (items : List (Item α)) : List (List α) :=
  items.filterMap fun item =>
    match item with
    | .option _ _ => none
    | .operand token => some token

@[simp] theorem operands_operand (token : List α) (items : List (Item α)) :
    operands (.operand token :: items) = token :: operands items := rfl

theorem operands_append (items others : List (Item α)) :
    operands (items ++ others) = operands items ++ operands others := by
  rw [operands, List.filterMap_append]
  rfl

theorem operands_map_operand (tokens : List (List α)) :
    operands (tokens.map .operand) = tokens := by
  induction tokens with
  | nil => rfl
  | cons token tokens ih => rw [List.map_cons, operands_operand, ih]

variable [DecidableEq α] (o : Options α)

def classify (token : List α) : Token α :=
  if token = [o.dash, o.dash] then .terminator
  else if [o.dash, o.dash] <+: token then
    match token.idxOf? o.equals with
    | some i => .long (token.take i) (some (token.drop (i + 1)))
    | none => .long token none
  else if [o.dash] <+: token ∧ token ≠ [o.dash] then .cluster token.tail
  else .operand

def longFlag (name : List α) : Except Failure (List α) :=
  if name ∈ o.longFlags then .ok name
  else
    match o.longFlags.filter fun flag => name <+: flag with
    | [] => .error .unknownOption
    | flag :: others => if others.all (· = flag) then .ok flag else .error .ambiguousOption

def readCluster : List α → List (Item α) × Option (List α)
  | [] => ([], none)
  | letter :: rest =>
    if [o.dash, letter] ∈ o.valueFlags then
      if rest = [] then ([], some [o.dash, letter])
      else ([.option [o.dash, letter] (some rest)], none)
    else (.option [o.dash, letter] none :: (readCluster rest).1, (readCluster rest).2)

def readLong (name : List α) (inlineValue : Option (List α)) :
    Except Failure (List (Item α) × Mode α) :=
  match longFlag o name with
  | .error failure => .error failure
  | .ok flag =>
    match inlineValue with
    | some value =>
      if flag ∈ o.valueFlags then .ok ([.option flag (some value)], .options)
      else .error .unexpectedValue
    | none =>
      if flag ∈ o.valueFlags then .ok ([], .value flag) else .ok ([.option flag none], .options)

/-- How the argument behind a cluster is read. -/
def clusterMode : Option (List α) → Mode α
  | some flag => .value flag
  | none => .options

def readToken (token : List α) : Except Failure (List (Item α) × Mode α) :=
  match classify o token with
  | .operand => .ok ([.operand token], .options)
  | .terminator => .ok ([], .operands)
  | .long name inlineValue => readLong o name inlineValue
  | .cluster letters =>
    .ok ((readCluster o letters).1, clusterMode (readCluster o letters).2)

def readFrom : Mode α → List (List α) → Except Failure (List (Item α))
  | .operands, tokens => .ok (tokens.map .operand)
  | .value _, [] => .error .missingValue
  | .value flag, token :: rest =>
    match readFrom .options rest with
    | .ok items => .ok (.option flag (some token) :: items)
    | .error failure => .error failure
  | .options, [] => .ok []
  | .options, token :: rest =>
    match readToken o token with
    | .error failure => .error failure
    | .ok (found, mode) =>
      match readFrom mode rest with
      | .ok items => .ok (found ++ items)
      | .error failure => .error failure

def read (tokens : List (List α)) : Except Failure (List (Item α)) := readFrom o .options tokens

/-! ## Long options -/

def Abbreviates (name flag : List α) : Prop :=
  flag ∈ o.longFlags ∧ (name = flag ∨
    (name ∉ o.longFlags ∧ name <+: flag ∧ ∀ other ∈ o.longFlags, name <+: other → other = flag))

variable {o} {name flag token : List α} {rest : List (List α)} {items found : List (Item α)}

theorem longFlag_eq_ok (h : Abbreviates o name flag) : longFlag o name = .ok flag := by
  obtain ⟨hflag, hname | ⟨hnew, hprefix, honly⟩⟩ := h
  · rw [longFlag, hname, if_pos hflag]
  · rw [longFlag, if_neg hnew]
    have hall : ∀ other ∈ o.longFlags.filter (fun flag => name <+: flag), other = flag := by
      intro other hother
      rw [List.mem_filter, decide_eq_true_eq] at hother
      exact honly other hother.1 hother.2
    have hmem : flag ∈ o.longFlags.filter fun flag => name <+: flag := by
      rw [List.mem_filter, decide_eq_true_eq]
      exact ⟨hflag, hprefix⟩
    cases hfilter : o.longFlags.filter fun flag => name <+: flag with
    | nil =>
        rw [hfilter] at hmem
        exact absurd hmem List.not_mem_nil
    | cons first others =>
        rw [hfilter] at hall
        have hfirst : first = flag := hall first List.mem_cons_self
        have hothers : others.all (· = first) = true := by
          rw [List.all_eq_true]
          intro other hother
          rw [decide_eq_true_eq, hfirst]
          exact hall other (List.mem_cons_of_mem first hother)
        show (if others.all (· = first) then Except.ok first else .error Failure.ambiguousOption) = _
        rw [if_pos hothers, hfirst]

/-! ## Arguments in front -/

theorem readFrom_operands (tokens : List (List α)) :
    readFrom o .operands tokens = .ok (tokens.map .operand) := by
  rw [readFrom]

theorem read_cons_options (htoken : readToken o token = .ok (found, .options))
    (hrest : read o rest = .ok items) : read o (token :: rest) = .ok (found ++ items) := by
  rw [read] at hrest
  rw [read, readFrom, htoken]
  show (match readFrom o .options rest with
    | .ok items => Except.ok (found ++ items)
    | .error failure => .error failure) = _
  rw [hrest]

theorem read_cons_value {value : List α} (htoken : readToken o token = .ok (found, .value flag))
    (hrest : read o rest = .ok items) :
    read o (token :: value :: rest) = .ok (found ++ .option flag (some value) :: items) := by
  rw [read] at hrest
  rw [read, readFrom, htoken]
  show (match readFrom o (.value flag) (value :: rest) with
    | .ok items => Except.ok (found ++ items)
    | .error failure => .error failure) = _
  rw [readFrom, hrest]

theorem read_cons_terminator (htoken : readToken o token = .ok ([], .operands)) :
    read o (token :: rest) = .ok (rest.map .operand) := by
  rw [read, readFrom, htoken]
  show (match readFrom o .operands rest with
    | .ok items => Except.ok ([] ++ items)
    | .error failure => .error failure) = _
  rw [readFrom_operands]
  rfl

end Getopt
