import GreenchClaw.Exec.SafeBins
import GreenchClaw.Lib.Getopt

/-!
# How accepted arguments are read

A binary reads its arguments by the rules of getopt_long.  What the validator accepts is read
without a failure: no denied flag is met, no operand and no value of an option is a path or has
something a shell expands, and apart from `-` and the empty string the operands are as many as the
profile says.
-/

namespace GreenchClaw.Exec

open GreenchClaw.Js

/-! ## Prefixes of long flags -/

def IndexesPrefixes (prefixMap : Map (Option JsString)) (added : List (JsString × JsString)) : Prop :=
  ∀ key, (prefixMap.get key = none → ∀ flag, (key, flag) ∉ added) ∧
    ∀ flag, prefixMap.get key = some (some flag) →
      (key, flag) ∈ added ∧ ∀ other, (key, other) ∈ added → other = flag

def flagPrefixes (flag : JsString) : List (JsString × JsString) :=
  (flagPrefixLengths flag).map fun length => (flag.take length, flag)

def withFlag (flag : JsString) : Option (Option JsString) → Option JsString
  | none => some flag
  | some existing => if existing ≠ some flag then none else some flag

theorem get_addFlagPrefix (flag : JsString) (prefixMap : Map (Option JsString)) (length : ℕ)
    (key : JsString) :
    (addFlagPrefix flag prefixMap length).get key =
      if flag.take length = key then some (withFlag flag (prefixMap.get key))
      else prefixMap.get key := by
  unfold addFlagPrefix
  cases hget : prefixMap.get (flag.take length) with
  | none =>
      show (prefixMap.set (flag.take length) (some flag)).get key = _
      rw [Map.get_set]
      by_cases hkey : flag.take length = key
      · rw [if_pos hkey, if_pos hkey, ← hkey, hget, withFlag]
      · rw [if_neg hkey, if_neg hkey]
  | some existing =>
      show (if existing ≠ some flag then prefixMap.set (flag.take length) none
        else prefixMap).get key = _
      by_cases hsame : existing ≠ some flag
      · rw [if_pos hsame, Map.get_set]
        by_cases hkey : flag.take length = key
        · rw [if_pos hkey, if_pos hkey, ← hkey, hget, withFlag, if_pos hsame]
        · rw [if_neg hkey, if_neg hkey]
      · rw [if_neg hsame]
        by_cases hkey : flag.take length = key
        · rw [if_pos hkey, ← hkey, hget, withFlag, if_neg hsame, not_not.mp hsame]
        · rw [if_neg hkey]

theorem indexesPrefixes_addFlagPrefix {prefixMap : Map (Option JsString)}
    {added : List (JsString × JsString)} (h : IndexesPrefixes prefixMap added) (flag : JsString)
    (length : ℕ) :
    IndexesPrefixes (addFlagPrefix flag prefixMap length) (added ++ [(flag.take length, flag)]) := by
  intro key
  have hold := h key
  have hnew : ∀ other, (key, other) ∈ added ++ [(flag.take length, flag)] ↔
      (key, other) ∈ added ∨ (key = flag.take length ∧ other = flag) := by
    intro other
    rw [List.mem_append, List.mem_singleton, Prod.mk.injEq]
  rw [get_addFlagPrefix]
  by_cases hkey : flag.take length = key
  · rw [if_pos hkey]
    refine ⟨nofun, ?_⟩
    intro found hfound
    have hwith : withFlag flag (prefixMap.get key) = some found := Option.some.inj hfound
    have hself : (key, flag) ∈ added ++ [(flag.take length, flag)] :=
      (hnew flag).mpr (Or.inr ⟨hkey.symm, rfl⟩)
    -- a flag is left under the prefix only when no other one has it
    have honly : found = flag ∧ ∀ other, (key, other) ∈ added → other = flag := by
      cases hget : prefixMap.get key with
      | none =>
          rw [hget] at hwith
          exact ⟨(Option.some.inj hwith).symm, fun other hother => absurd hother (hold.1 hget other)⟩
      | some existing =>
          rw [hget, withFlag] at hwith
          by_cases hsame : existing ≠ some flag
          · rw [if_pos hsame] at hwith
            exact nomatch hwith
          · rw [if_neg hsame] at hwith
            rw [not_not.mp hsame] at hget
            exact ⟨(Option.some.inj hwith).symm, (hold.2 flag hget).2⟩
    rw [honly.1]
    refine ⟨hself, ?_⟩
    intro other hother
    rcases (hnew other).mp hother with hadded | ⟨-, hflag⟩
    · exact honly.2 other hadded
    · exact hflag
  · rw [if_neg hkey]
    have hmem : ∀ other, (key, other) ∈ added ++ [(flag.take length, flag)] ↔
        (key, other) ∈ added := by
      intro other
      rw [hnew other, or_iff_left fun hother => hkey hother.1.symm]
    refine ⟨fun hnone other hother => hold.1 hnone other ((hmem other).mp hother), ?_⟩
    intro found hfound
    have hfrom := hold.2 found hfound
    exact ⟨(hmem found).mpr hfrom.1, fun other hother => hfrom.2 other ((hmem other).mp hother)⟩

theorem indexesPrefixes_flag {prefixMap : Map (Option JsString)}
    {added : List (JsString × JsString)} (h : IndexesPrefixes prefixMap added) (flag : JsString)
    (lengths : List ℕ) :
    IndexesPrefixes (lengths.foldl (addFlagPrefix flag) prefixMap)
      (added ++ lengths.map fun length => (flag.take length, flag)) := by
  induction lengths generalizing prefixMap added with
  | nil =>
      rw [List.map_nil, List.append_nil]
      exact h
  | cons length lengths ih =>
      have hstep := ih (indexesPrefixes_addFlagPrefix h flag length)
      rw [List.append_assoc] at hstep
      exact hstep

theorem indexesPrefixes_buildLongFlagPrefixMap (knownLongFlags : List JsString) :
    IndexesPrefixes (buildLongFlagPrefixMap knownLongFlags) (knownLongFlags.flatMap flagPrefixes) := by
  have hrun : ∀ (flags : List JsString) (prefixMap : Map (Option JsString))
      (added : List (JsString × JsString)), IndexesPrefixes prefixMap added →
      IndexesPrefixes
        (flags.foldl
          (fun prefixMap flag => (flagPrefixLengths flag).foldl (addFlagPrefix flag) prefixMap)
          prefixMap)
        (added ++ flags.flatMap flagPrefixes) := by
    intro flags
    induction flags with
    | nil =>
        intro prefixMap added h
        rw [List.flatMap_nil, List.append_nil]
        exact h
    | cons flag flags ih =>
        intro prefixMap added h
        have hstep := ih _ _ (indexesPrefixes_flag h flag (flagPrefixLengths flag))
        rw [List.append_assoc] at hstep
        rw [List.flatMap_cons]
        exact hstep
  apply hrun knownLongFlags Map.empty []
  intro key
  rw [Map.get_empty]
  exact ⟨fun _ _ => List.not_mem_nil, nofun⟩

theorem mem_flagPrefixes {key flag : JsString} (hdash : js "--" <+: key) (hlength : 2 < key.length)
    (other : JsString) : (key, other) ∈ flagPrefixes flag ↔ key <+: flag ∧ other = flag := by
  rw [flagPrefixes, List.mem_map]
  constructor
  · intro h
    obtain ⟨length, -, heq⟩ := h
    obtain ⟨hkey, hother⟩ := Prod.mk.inj heq
    rw [← hkey]
    exact ⟨List.take_prefix length flag, hother.symm⟩
  · intro h
    have hkey := List.prefix_iff_eq_take.mp h.1
    have hle := h.1.length_le
    refine ⟨key.length, ?_, ?_⟩
    · have hflag : ((js "--").isPrefixOf flag && decide (2 < flag.length)) = true := by
        rw [Bool.and_eq_true, List.isPrefixOf_iff_prefix, decide_eq_true_eq]
        exact ⟨hdash.trans h.1, by omega⟩
      rw [flagPrefixLengths, if_pos hflag, List.mem_range'_1]
      omega
    · rw [← hkey, h.2]

theorem mem_flatMap_flagPrefixes {known : List JsString} {key : JsString} (hdash : js "--" <+: key)
    (hlength : 2 < key.length) (flag : JsString) :
    (key, flag) ∈ known.flatMap flagPrefixes ↔ flag ∈ known ∧ key <+: flag := by
  rw [List.mem_flatMap]
  constructor
  · intro h
    obtain ⟨other, hknown, hmem⟩ := h
    obtain ⟨hstart, hsame⟩ := (mem_flagPrefixes hdash hlength flag).mp hmem
    rw [hsame]
    exact ⟨hknown, hstart⟩
  · intro h
    exact ⟨flag, h.1, (mem_flagPrefixes hdash hlength flag).mpr ⟨h.2, rfl⟩⟩

/-! ## The options of a profile -/

def SafeBinProfile.options (profile : SafeBinProfile) : Getopt.Options CodeUnit where
  dash := unit '-'
  equals := unit '='
  longFlags :=
    collectKnownLongFlags (profile.allowedValueFlags.getD []) (profile.deniedFlags.getD [])
  valueFlags := profile.allowedValueFlags.getD []

theorem knownLongFlagsSet_flags (profile : SafeBinProfile) :
    profile.flags.knownLongFlagsSet = profile.options.longFlags := by
  show profile.knownLongFlagsSet.getD (profile.knownLongFlags.getD _) = _
  cases hset : profile.knownLongFlagsSet with
  | some known => exact profile.knownLongFlagsSet_eq known hset
  | none =>
      cases hknown : profile.knownLongFlags with
      | some known => exact profile.knownLongFlags_eq known hknown
      | none => rfl

theorem longFlagPrefixMap_flags (profile : SafeBinProfile) :
    profile.flags.longFlagPrefixMap = buildLongFlagPrefixMap profile.options.longFlags := by
  show profile.longFlagPrefixMap.getD (buildLongFlagPrefixMap (profile.knownLongFlags.getD _)) = _
  cases hmap : profile.longFlagPrefixMap with
  | some prefixMap => exact profile.longFlagPrefixMap_eq prefixMap hmap
  | none =>
      cases hknown : profile.knownLongFlags with
      | some known =>
          show buildLongFlagPrefixMap known = _
          rw [profile.knownLongFlags_eq known hknown]
          rfl
      | none => rfl

theorem abbreviates_of_resolveCanonicalLongFlag {profile : SafeBinProfile}
    {flag canonicalFlag : JsString}
    (h : resolveCanonicalLongFlag profile.flags flag = some canonicalFlag) :
    Getopt.Abbreviates profile.options flag canonicalFlag := by
  unfold resolveCanonicalLongFlag at h
  rw [knownLongFlagsSet_flags, longFlagPrefixMap_flags] at h
  by_cases hshape : (!(js "--").isPrefixOf flag || decide (flag.length ≤ 2)) = true
  · rw [if_pos hshape] at h
    exact nomatch h
  · rw [if_neg hshape] at h
    rw [Bool.or_eq_true, Bool.not_eq_true', decide_eq_true_eq, not_or, Bool.not_eq_false,
      List.isPrefixOf_iff_prefix, Nat.not_le] at hshape
    by_cases hknown : flag ∈ profile.options.longFlags
    · rw [if_pos hknown] at h
      rw [← Option.some.inj h]
      exact ⟨hknown, Or.inl rfl⟩
    · rw [if_neg hknown] at h
      have hindex := indexesPrefixes_buildLongFlagPrefixMap profile.options.longFlags flag
      cases hget : (buildLongFlagPrefixMap profile.options.longFlags).get flag with
      | none =>
          rw [hget] at h
          exact nomatch h
      | some entry =>
          rw [hget, Option.getD_some] at h
          rw [h] at hget
          obtain ⟨hmem, honly⟩ := hindex.2 canonicalFlag hget
          have hfound := (mem_flatMap_flagPrefixes hshape.1 hshape.2 canonicalFlag).mp hmem
          refine ⟨hfound.1, Or.inr ⟨hknown, hfound.2, ?_⟩⟩
          intro other hother hprefix
          exact honly other
            ((mem_flatMap_flagPrefixes hshape.1 hshape.2 other).mpr ⟨hother, hprefix⟩)

/-! ## Kinds of tokens -/

def ExecArgvToken.reading : ExecArgvToken → Getopt.Token CodeUnit
  | .empty => .operand
  | .terminator => .terminator
  | .stdin => .operand
  | .positional _ => .operand
  | .long flag inlineValue => .long flag inlineValue
  | .shortCluster cluster => .cluster cluster

theorem classify_eq (profile : SafeBinProfile) (raw : JsString) :
    Getopt.classify profile.options raw = (parseExecArgvToken raw).reading := by
  have hdashes : js "--" = [unit '-', unit '-'] := rfl
  have hdash : js "-" = [unit '-'] := rfl
  unfold parseExecArgvToken Getopt.classify
  show (if raw = [unit '-', unit '-'] then Getopt.Token.terminator
    else if [unit '-', unit '-'] <+: raw then _ else _) = _
  rw [hdashes, hdash]
  by_cases hnil : raw = []
  · rw [if_pos hnil, hnil]
    rfl
  rw [if_neg hnil]
  by_cases hterm : raw = [unit '-', unit '-']
  · rw [if_pos hterm, if_pos hterm]
    rfl
  rw [if_neg hterm, if_neg hterm]
  by_cases hstdin : raw = [unit '-']
  · rw [if_pos hstdin, hstdin]
    rfl
  rw [if_neg hstdin]
  by_cases hoption : [unit '-'] <+: raw
  · have hneg : ¬ (!List.isPrefixOf [unit '-'] raw) = true := by
      rw [Bool.not_eq_true', Bool.not_eq_false, List.isPrefixOf_iff_prefix]
      exact hoption
    rw [if_neg hneg]
    by_cases hlong : [unit '-', unit '-'] <+: raw
    · rw [if_pos hlong, if_pos (List.isPrefixOf_iff_prefix.mpr hlong)]
      cases hindex : raw.idxOf? (unit '=') with
      | none =>
          rw [show raw.idxOf? profile.options.equals = none from hindex]
          rfl
      | some i =>
          rw [show raw.idxOf? profile.options.equals = some i from hindex]
          have hpos : 0 < i := by
            obtain ⟨rest, hrest⟩ := hlong
            rw [← hrest, List.cons_append, List.idxOf?_cons] at hindex
            have hne : (unit '-' == unit '=') = false := by decide
            rw [hne, if_neg Bool.false_ne_true, Option.map_eq_some_iff] at hindex
            obtain ⟨j, -, hj⟩ := hindex
            omega
          show _ = ExecArgvToken.reading
            (if 0 < i then .long (raw.take i) (some (raw.drop (i + 1))) else .long raw none)
          rw [if_pos hpos]
          rfl
    · have hlong' : ¬ List.isPrefixOf [unit '-', unit '-'] raw = true := fun h =>
        hlong (List.isPrefixOf_iff_prefix.mp h)
      rw [if_neg hlong, if_neg hlong']
      show (if [unit '-'] <+: raw ∧ raw ≠ [unit '-'] then Getopt.Token.cluster raw.tail
        else .operand) = .cluster (raw.drop 1)
      rw [if_pos ⟨hoption, hstdin⟩, List.drop_one]
  · have hlong : ¬ [unit '-', unit '-'] <+: raw := fun h =>
      hoption ((List.prefix_append [unit '-'] [unit '-']).trans h)
    have hpos : (!List.isPrefixOf [unit '-'] raw) = true := by
      rw [Bool.not_eq_true', ← Bool.not_eq_true, List.isPrefixOf_iff_prefix]
      exact hoption
    rw [if_pos hpos, if_neg hlong]
    show (if [unit '-'] <+: raw ∧ raw ≠ [unit '-'] then Getopt.Token.cluster raw.tail
      else .operand) = .operand
    rw [if_neg fun h => hoption h.1]

/-! ## Options that are accepted -/

def SafeItem (deniedFlags : List JsString) (item : Getopt.Item CodeUnit) : Prop :=
  (∀ flag, item.flag = some flag → flag ∉ deniedFlags) ∧
    ∀ text, item.text = some text → isSafeLiteralToken text = true

/-- The options of an accepted argument, how the next argument is read and how many belong to it. -/
inductive AcceptedOption (deniedFlags : List JsString) :
    Option JsString → List (Getopt.Item CodeUnit) → Getopt.Mode CodeUnit → ℕ → Prop where
  | alone (next : Option JsString) (found : List (Getopt.Item CodeUnit))
      (hfound : ∀ item ∈ found, SafeItem deniedFlags item)
      (hoperands : Getopt.operands found = []) : AcceptedOption deniedFlags next found .options 0
  | withValue (value flag : JsString) (found : List (Getopt.Item CodeUnit))
      (hfound : ∀ item ∈ found, SafeItem deniedFlags item)
      (hoperands : Getopt.operands found = []) (hflag : flag ∉ deniedFlags)
      (hvalue : isSafeLiteralToken value = true) :
      AcceptedOption deniedFlags (some value) found (.value flag) 1

variable {profile : SafeBinProfile} {next : Option JsString} {consumed : ℕ}

theorem safeItem_flag {deniedFlags : List JsString} {flag : JsString} (hflag : flag ∉ deniedFlags) :
    SafeItem deniedFlags (.option flag none) := by
  refine ⟨?_, nofun⟩
  intro other hother
  rw [← Option.some.inj hother]
  exact hflag

theorem safeItem_value {deniedFlags : List JsString} {flag value : JsString}
    (hflag : flag ∉ deniedFlags) (hvalue : isSafeLiteralToken value = true) :
    SafeItem deniedFlags (.option flag (some value)) := by
  constructor
  · intro other hother
    rw [← Option.some.inj hother]
    exact hflag
  · intro text htext
    rw [← Option.some.inj htext]
    exact hvalue

theorem safeItem_operand {deniedFlags : List JsString} {token : JsString}
    (htoken : isSafeLiteralToken token = true) : SafeItem deniedFlags (.operand token) := by
  refine ⟨nofun, ?_⟩
  intro text htext
  rw [← Option.some.inj htext]
  exact htoken

theorem value_of_isInvalidValueToken (h : isInvalidValueToken next ≠ true) :
    ∃ value, next = some value ∧ isSafeLiteralToken value = true := by
  cases next with
  | none => exact absurd rfl h
  | some value =>
      rw [isInvalidValueToken, ne_eq, Bool.or_eq_true, not_or] at h
      refine ⟨value, rfl, ?_⟩
      have hsafe := h.2
      rw [Bool.not_eq_true', Bool.not_eq_false] at hsafe
      exact hsafe

theorem consumeLongOptionToken_spec {flag : JsString} {inlineValue : Option JsString}
    (h : consumeLongOptionToken profile.flags next flag inlineValue = some consumed) :
    ∃ found mode, Getopt.readLong profile.options flag inlineValue = .ok (found, mode) ∧
      AcceptedOption (profile.deniedFlags.getD []) next found mode consumed := by
  unfold consumeLongOptionToken at h
  cases hresolve : resolveCanonicalLongFlag profile.flags flag with
  | none =>
      rw [hresolve] at h
      cases h
  | some canonicalFlag =>
      rw [hresolve] at h
      have hread := Getopt.longFlag_eq_ok (abbreviates_of_resolveCanonicalLongFlag hresolve)
      unfold Getopt.readLong
      rw [hread]
      simp only at h ⊢
      by_cases hnil : canonicalFlag = []
      · rw [if_pos hnil] at h
        cases h
      rw [if_neg hnil] at h
      by_cases hdenied : canonicalFlag ∈ profile.flags.deniedFlags
      · rw [if_pos hdenied] at h
        cases h
      rw [if_neg hdenied] at h
      cases inlineValue with
      | some value =>
          by_cases hvalue : canonicalFlag ∈ profile.flags.allowedValueFlags
          · simp only [if_neg (not_not.mpr hvalue)] at h
            by_cases hsafe : isSafeLiteralToken value = true
            · rw [if_pos hsafe] at h
              rw [← Option.some.inj h]
              refine ⟨_, _, if_pos hvalue, ?_⟩
              apply AcceptedOption.alone
              · intro item hitem
                rw [List.mem_singleton.mp hitem]
                exact safeItem_value hdenied hsafe
              · rfl
            · rw [if_neg hsafe] at h
              cases h
          · simp only [if_pos hvalue] at h
            cases h
      | none =>
          by_cases hvalue : canonicalFlag ∈ profile.flags.allowedValueFlags
          · simp only [if_neg (not_not.mpr hvalue)] at h
            by_cases hinvalid : isInvalidValueToken next = true
            · rw [if_pos hinvalid] at h
              cases h
            · rw [if_neg hinvalid] at h
              rw [← Option.some.inj h]
              obtain ⟨value, hnext, hsafe⟩ := value_of_isInvalidValueToken hinvalid
              rw [hnext]
              refine ⟨_, _, if_pos hvalue, ?_⟩
              exact .withValue value canonicalFlag [] (fun item hitem => absurd hitem
                List.not_mem_nil) rfl hdenied hsafe
          · simp only [if_pos hvalue] at h
            rw [← Option.some.inj h]
            refine ⟨_, _, if_neg hvalue, ?_⟩
            apply AcceptedOption.alone
            · intro item hitem
              rw [List.mem_singleton.mp hitem]
              exact safeItem_flag hdenied
            · rfl

theorem AcceptedOption.cons {deniedFlags : List JsString} {flag : JsString}
    {found : List (Getopt.Item CodeUnit)} {mode : Getopt.Mode CodeUnit}
    (hflag : flag ∉ deniedFlags) (h : AcceptedOption deniedFlags next found mode consumed) :
    AcceptedOption deniedFlags next (.option flag none :: found) mode consumed := by
  have hcons : (∀ item ∈ found, SafeItem deniedFlags item) →
      ∀ item ∈ Getopt.Item.option flag none :: found, SafeItem deniedFlags item := by
    intro hfound item hitem
    rcases List.mem_cons.mp hitem with hfirst | hrest
    · rw [hfirst]
      exact safeItem_flag hflag
    · exact hfound item hrest
  cases h with
  | alone _ _ hfound hoperands => exact .alone next _ (hcons hfound) hoperands
  | withValue value other _ hfound hoperands hother hvalue =>
      exact .withValue value other _ (hcons hfound) hoperands hother hvalue

theorem consumeShortOptionClusterToken_spec {cluster : JsString}
    (h : consumeShortOptionClusterToken profile.flags next cluster = some consumed) :
    AcceptedOption (profile.deniedFlags.getD []) next
      (Getopt.readCluster profile.options cluster).1
      (Getopt.clusterMode (Getopt.readCluster profile.options cluster).2) consumed := by
  induction cluster with
  | nil => exact nomatch h
  | cons entry inlineValue ih =>
      rw [consumeShortOptionClusterToken] at h
      by_cases hdenied : [unit '-', entry] ∈ profile.flags.deniedFlags
      · rw [if_pos hdenied] at h
        exact nomatch h
      rw [if_neg hdenied] at h
      by_cases hvalue : [unit '-', entry] ∈ profile.flags.allowedValueFlags
      · rw [if_neg (not_not.mpr hvalue)] at h
        rw [Getopt.readCluster]
        have hflag : [profile.options.dash, entry] ∈ profile.options.valueFlags := hvalue
        rw [if_pos hflag]
        by_cases hinline : inlineValue = []
        · rw [if_neg (not_not.mpr hinline)] at h
          rw [if_pos hinline]
          by_cases hinvalid : isInvalidValueToken next = true
          · rw [if_pos hinvalid] at h
            exact nomatch h
          · rw [if_neg hinvalid] at h
            rw [← Option.some.inj h]
            obtain ⟨value, hnext, hsafe⟩ := value_of_isInvalidValueToken hinvalid
            rw [hnext]
            exact .withValue value _ [] (fun item hitem => absurd hitem List.not_mem_nil) rfl
              hdenied hsafe
        · rw [if_pos hinline] at h
          rw [if_neg hinline]
          by_cases hsafe : isSafeLiteralToken inlineValue = true
          · rw [if_pos hsafe] at h
            rw [← Option.some.inj h]
            apply AcceptedOption.alone
            · intro item hitem
              rw [List.mem_singleton.mp hitem]
              exact safeItem_value hdenied hsafe
            · rfl
          · rw [if_neg hsafe] at h
            exact nomatch h
      · rw [if_pos hvalue] at h
        rw [Getopt.readCluster]
        have hflag : [profile.options.dash, entry] ∉ profile.options.valueFlags := hvalue
        rw [if_neg hflag]
        exact (ih h).cons hdenied

theorem AcceptedOption.read_cons {token : JsString} {rest : List JsString}
    {found items : List (Getopt.Item CodeUnit)} {mode : Getopt.Mode CodeUnit}
    (h : AcceptedOption (profile.deniedFlags.getD []) rest.head? found mode consumed)
    (htoken : Getopt.readToken profile.options token = .ok (found, mode))
    (hrest : Getopt.read profile.options (rest.drop consumed) = .ok items) :
    ∃ front, Getopt.read profile.options (token :: rest) = .ok (front ++ items) ∧
      (∀ item ∈ front, SafeItem (profile.deniedFlags.getD []) item) ∧
      Getopt.operands front = [] := by
  generalize hnext : rest.head? = next at h
  cases h with
  | alone _ _ hfound hoperands =>
      exact ⟨found, Getopt.read_cons_options htoken hrest, hfound, hoperands⟩
  | withValue value flag _ hfound hoperands hflag hvalue =>
      obtain ⟨others, hothers⟩ := List.head?_eq_some_iff.mp hnext
      rw [hothers, List.drop_one, List.tail_cons] at hrest
      rw [hothers]
      refine ⟨found ++ [.option flag (some value)], ?_, ?_, ?_⟩
      · rw [Getopt.read_cons_value htoken hrest, List.append_assoc]
        rfl
      · intro item hitem
        rcases List.mem_append.mp hitem with hfront | hlast
        · exact hfound item hfront
        · rw [List.mem_singleton.mp hlast]
          exact safeItem_value hflag hvalue
      · rw [Getopt.operands_append, hoperands]
        rfl

/-! ## Operands -/

def countedOperands (tokens : List JsString) : List JsString :=
  tokens.filter fun token => token ≠ [] ∧ token ≠ js "-"

theorem countedOperands_skip {token : JsString} (h : token = [] ∨ token = js "-")
    (tokens : List JsString) : countedOperands (token :: tokens) = countedOperands tokens := by
  rw [countedOperands, List.filter_cons_of_neg]
  · rfl
  · rw [decide_eq_true_eq, not_and_or, not_not, not_not]
    exact h

theorem countedOperands_keep {token : JsString} (h : ¬ (token = [] ∨ token = js "-"))
    (tokens : List JsString) :
    countedOperands (token :: tokens) = token :: countedOperands tokens := by
  rw [countedOperands, List.filter_cons_of_pos]
  · rfl
  · rw [decide_eq_true_eq]
    exact not_or.mp h

theorem isSafeLiteralToken_skip {token : JsString} (h : token = [] ∨ token = js "-") :
    isSafeLiteralToken token = true := by
  rw [isSafeLiteralToken, if_pos h]

theorem collectTerminatedTokens_spec {tokens positional : List JsString}
    (h : collectTerminatedTokens tokens = some positional) :
    (∀ token ∈ tokens, isSafeLiteralToken token = true) ∧ countedOperands tokens = positional := by
  induction tokens generalizing positional with
  | nil =>
      rw [collectTerminatedTokens] at h
      exact ⟨fun token htoken => absurd htoken List.not_mem_nil, Option.some.inj h⟩
  | cons token rest ih =>
      rw [collectTerminatedTokens] at h
      by_cases hskip : token = [] ∨ token = js "-"
      · rw [if_pos hskip] at h
        obtain ⟨hsafe, hcounted⟩ := ih h
        refine ⟨?_, (countedOperands_skip hskip rest).trans hcounted⟩
        intro other hother
        rcases List.mem_cons.mp hother with hfirst | hrest
        · rw [hfirst]
          exact isSafeLiteralToken_skip hskip
        · exact hsafe other hrest
      · rw [if_neg hskip] at h
        by_cases htoken : isSafeLiteralToken token = true
        · rw [if_pos htoken, Option.map_eq_some_iff] at h
          obtain ⟨collected, hcollected, hpositional⟩ := h
          obtain ⟨hsafe, hcounted⟩ := ih hcollected
          rw [countedOperands_keep hskip, hcounted]
          refine ⟨?_, hpositional⟩
          intro other hother
          rcases List.mem_cons.mp hother with hfirst | hrest
          · rw [hfirst]
            exact htoken
          · exact hsafe other hrest
        · rw [if_neg htoken] at h
          exact nomatch h

/-- What is known when arguments have been read: items that keep to the profile, and the operands
that the validator has collected. -/
def ReadsAs (profile : SafeBinProfile) (args positional : List JsString) : Prop :=
  ∃ items, Getopt.read profile.options args = .ok items ∧
    (∀ item ∈ items, SafeItem (profile.deniedFlags.getD []) item) ∧
    countedOperands (Getopt.operands items) = positional

theorem readToken_operand {token : JsString} (h : (parseExecArgvToken token).reading = .operand) :
    Getopt.readToken profile.options token = .ok ([.operand token], .options) := by
  unfold Getopt.readToken
  rw [classify_eq, h]

theorem ReadsAs.operand_skip {token : JsString} {rest positional : List JsString}
    (h : ReadsAs profile rest positional) (hskip : token = [] ∨ token = js "-")
    (hkind : (parseExecArgvToken token).reading = .operand) :
    ReadsAs profile (token :: rest) positional := by
  obtain ⟨items, hread, hsafe, hcounted⟩ := h
  refine ⟨_, Getopt.read_cons_options (readToken_operand hkind) hread, ?_, ?_⟩
  · intro item hitem
    rcases List.mem_cons.mp hitem with hfirst | hrest
    · rw [hfirst]
      exact safeItem_operand (isSafeLiteralToken_skip hskip)
    · exact hsafe item hrest
  · show countedOperands (token :: Getopt.operands items) = positional
    rw [countedOperands_skip hskip, hcounted]

theorem ReadsAs.operand_keep {token : JsString} {rest positional : List JsString}
    (h : ReadsAs profile rest positional) (hkeep : ¬ (token = [] ∨ token = js "-"))
    (htoken : isSafeLiteralToken token = true)
    (hkind : (parseExecArgvToken token).reading = .operand) :
    ReadsAs profile (token :: rest) (token :: positional) := by
  obtain ⟨items, hread, hsafe, hcounted⟩ := h
  refine ⟨_, Getopt.read_cons_options (readToken_operand hkind) hread, ?_, ?_⟩
  · intro item hitem
    rcases List.mem_cons.mp hitem with hfirst | hrest
    · rw [hfirst]
      exact safeItem_operand htoken
    · exact hsafe item hrest
  · show countedOperands (token :: Getopt.operands items) = _
    rw [countedOperands_keep hkeep, hcounted]

theorem ReadsAs.option {token : JsString} {rest positional : List JsString}
    {found : List (Getopt.Item CodeUnit)} {mode : Getopt.Mode CodeUnit}
    (h : ReadsAs profile (rest.drop consumed) positional)
    (haccepted : AcceptedOption (profile.deniedFlags.getD []) rest.head? found mode consumed)
    (htoken : Getopt.readToken profile.options token = .ok (found, mode)) :
    ReadsAs profile (token :: rest) positional := by
  obtain ⟨items, hread, hsafe, hcounted⟩ := h
  obtain ⟨front, hfront, hfrontSafe, hoperands⟩ := haccepted.read_cons htoken hread
  refine ⟨front ++ items, hfront, ?_, ?_⟩
  · intro item hitem
    rcases List.mem_append.mp hitem with hin | hin
    · exact hfrontSafe item hin
    · exact hsafe item hin
  · rw [Getopt.operands_append, hoperands, List.nil_append, hcounted]

theorem parseExecArgvToken_cases (raw : JsString) :
    (parseExecArgvToken raw = .empty → raw = []) ∧ (parseExecArgvToken raw = .stdin → raw = js "-") ∧
      ∀ token, parseExecArgvToken raw = .positional token →
        token = raw ∧ ¬ (raw = [] ∨ raw = js "-") := by
  unfold parseExecArgvToken
  by_cases hnil : raw = []
  · rw [if_pos hnil]
    exact ⟨fun _ => hnil, nofun, nofun⟩
  rw [if_neg hnil]
  by_cases hterm : raw = js "--"
  · rw [if_pos hterm]
    exact ⟨nofun, nofun, nofun⟩
  rw [if_neg hterm]
  by_cases hstdin : raw = js "-"
  · rw [if_pos hstdin]
    exact ⟨nofun, fun _ => hstdin, nofun⟩
  rw [if_neg hstdin]
  by_cases hplain : (!(js "-").isPrefixOf raw) = true
  · rw [if_pos hplain]
    refine ⟨nofun, nofun, ?_⟩
    intro token htoken
    exact ⟨(ExecArgvToken.positional.inj htoken).symm, not_or.mpr ⟨hnil, hstdin⟩⟩
  rw [if_neg hplain]
  split
  · split
    · split <;> exact ⟨nofun, nofun, nofun⟩
    · exact ⟨nofun, nofun, nofun⟩
  · exact ⟨nofun, nofun, nofun⟩

theorem readsAs_of_collectPositionalTokens {args positional : List JsString}
    (h : collectPositionalTokens profile.flags consumed args = some positional) :
    ReadsAs profile (args.drop consumed) positional := by
  induction args generalizing consumed positional with
  | nil =>
      rw [collectPositionalTokens] at h
      rw [List.drop_nil]
      exact ⟨[], rfl, fun item hitem => absurd hitem List.not_mem_nil, Option.some.inj h⟩
  | cons token rest ih =>
      cases consumed with
      | succ consumed =>
          rw [collectPositionalTokens] at h
          exact ih h
      | zero =>
          rw [List.drop_zero]
          unfold collectPositionalTokens at h
          obtain ⟨hempty, hstdin, hplain⟩ := parseExecArgvToken_cases token
          cases hkind : parseExecArgvToken token with
          | empty =>
              rw [hkind] at h
              apply (ih h).operand_skip (Or.inl (hempty hkind))
              rw [hkind]
              rfl
          | stdin =>
              rw [hkind] at h
              apply (ih h).operand_skip (Or.inr (hstdin hkind))
              rw [hkind]
              rfl
          | terminator =>
              rw [hkind] at h
              obtain ⟨hsafe, hcounted⟩ := collectTerminatedTokens_spec h
              have htoken : Getopt.readToken profile.options token = .ok ([], .operands) := by
                unfold Getopt.readToken
                rw [classify_eq, hkind]
                rfl
              refine ⟨_, Getopt.read_cons_terminator htoken, ?_, ?_⟩
              · intro item hitem
                obtain ⟨operand, hoperand, hitemEq⟩ := List.mem_map.mp hitem
                rw [← hitemEq]
                exact safeItem_operand (hsafe operand hoperand)
              · rw [Getopt.operands_map_operand, hcounted]
          | positional raw =>
              rw [hkind] at h
              obtain ⟨hraw, hkeep⟩ := hplain raw hkind
              simp only [hraw] at h
              by_cases hsafe : isSafeLiteralToken token = true
              · rw [if_pos hsafe, Option.map_eq_some_iff] at h
                obtain ⟨collected, hcollected, hpositional⟩ := h
                rw [← hpositional]
                apply (ih hcollected).operand_keep hkeep hsafe
                rw [hkind]
                rfl
              · rw [if_neg hsafe] at h
                exact nomatch h
          | long flag inlineValue =>
              rw [hkind] at h
              cases hconsume : consumeLongOptionToken profile.flags rest.head? flag inlineValue with
              | none =>
                  simp only [hconsume] at h
                  exact nomatch h
              | some consumed =>
                  simp only [hconsume] at h
                  obtain ⟨found, mode, hread, haccepted⟩ := consumeLongOptionToken_spec hconsume
                  apply (ih h).option haccepted
                  unfold Getopt.readToken
                  rw [classify_eq, hkind]
                  exact hread
          | shortCluster cluster =>
              rw [hkind] at h
              cases hconsume : consumeShortOptionClusterToken profile.flags rest.head? cluster with
              | none =>
                  simp only [hconsume] at h
                  exact nomatch h
              | some consumed =>
                  simp only [hconsume] at h
                  apply (ih h).option (consumeShortOptionClusterToken_spec hconsume)
                  unfold Getopt.readToken
                  rw [classify_eq, hkind]
                  rfl

/-! ## Accepted arguments -/

def TakenLiterally (text : JsString) : Prop :=
  isPathLikeToken text = false ∧ hasGlobToken text = false ∧ hasShellExpansionToken text = false

theorem takenLiterally_of_isSafeLiteralToken {text : JsString}
    (h : isSafeLiteralToken text = true) : TakenLiterally text := by
  unfold isSafeLiteralToken at h
  by_cases hskip : text = [] ∨ text = js "-"
  · rcases hskip with hnil | hdash
    · rw [hnil]
      exact ⟨rfl, rfl, rfl⟩
    · rw [hdash]
      exact ⟨by decide, by decide, by decide⟩
  · rw [if_neg hskip, Bool.and_eq_true, Bool.and_eq_true, Bool.not_eq_true', Bool.not_eq_true',
      Bool.not_eq_true'] at h
    exact ⟨h.2, h.1.1, h.1.2⟩

theorem count_of_validatePositionalCount {positional : List JsString}
    (h : validatePositionalCount positional profile = true) :
    profile.minPositional.getD 0 ≤ positional.length ∧
      ∀ maxPositional, profile.maxPositional = some maxPositional →
        positional.length ≤ maxPositional := by
  unfold validatePositionalCount at h
  by_cases hmin : positional.length < profile.minPositional.getD 0
  · rw [if_pos hmin] at h
    exact nomatch h
  · rw [if_neg hmin] at h
    refine ⟨Nat.not_lt.mp hmin, ?_⟩
    intro maxPositional hmax
    rw [hmax] at h
    simp only [Bool.not_eq_true', decide_eq_false_iff_not] at h
    exact Nat.not_lt.mp h

/-- Arguments that the validator accepts are read without a failure: no denied flag is met, every
operand and every value of an option is taken literally, and the operands apart from `-` and the
empty string are as many as the profile allows. -/
theorem validated_arguments_read_safely [UnicodeCase] (args : List JsString)
    (profile : SafeBinProfile) (binName : Option JsString)
    (haccepted : validateSafeBinArgv args profile binName = true) :
    ∃ items, Getopt.read profile.options args = .ok items ∧
      (∀ item ∈ items, ∀ flag, item.flag = some flag → flag ∉ profile.deniedFlags.getD []) ∧
      (∀ item ∈ items, ∀ text, item.text = some text → TakenLiterally text) ∧
      profile.minPositional.getD 0 ≤ (countedOperands (Getopt.operands items)).length ∧
      ∀ maxPositional, profile.maxPositional = some maxPositional →
        (countedOperands (Getopt.operands items)).length ≤ maxPositional := by
  unfold validateSafeBinArgv at haccepted
  cases hcollect : collectPositionalTokens profile.flags 0 args with
  | none =>
      rw [hcollect] at haccepted
      exact nomatch haccepted
  | some positional =>
      simp only [hcollect] at haccepted
      by_cases hcount : validatePositionalCount positional profile = true
      · obtain ⟨items, hread, hsafe, hcounted⟩ := readsAs_of_collectPositionalTokens hcollect
        rw [List.drop_zero] at hread
        have hbounds := count_of_validatePositionalCount hcount
        rw [← hcounted] at hbounds
        refine ⟨items, hread, fun item hitem => (hsafe item hitem).1, ?_, hbounds⟩
        intro item hitem text htext
        exact takenLiterally_of_isSafeLiteralToken ((hsafe item hitem).2 text htext)
      · rw [if_neg hcount] at haccepted
        exact nomatch haccepted

section Samples

attribute [local instance] asciiCase

def grepSample : SafeBinProfile :=
  compileSafeBinProfile
    { maxPositional := some 0, allowedValueFlags := [js "--regexp", js "-e"]
      deniedFlags := [js "--recursive", js "-r"] }

theorem validated_arguments_read_safely_regexp :
    ∃ items, Getopt.read grepSample.options [js "--rege", js "x"] = .ok items ∧
      (∀ item ∈ items, ∀ flag, item.flag = some flag → flag ∉ grepSample.deniedFlags.getD []) ∧
      (∀ item ∈ items, ∀ text, item.text = some text → TakenLiterally text) ∧
      grepSample.minPositional.getD 0 ≤ (countedOperands (Getopt.operands items)).length ∧
      ∀ maxPositional, grepSample.maxPositional = some maxPositional →
        (countedOperands (Getopt.operands items)).length ≤ maxPositional :=
  validated_arguments_read_safely [js "--rege", js "x"] grepSample (some (js "grep"))
    (by decide +kernel)

/-- `-` is an operand that the validator does not count. -/
theorem stdin_operand_uncounted :
    validateSafeBinArgv [js "-e", js "x", js "-"] grepSample (some (js "grep")) = true ∧
      grepSample.maxPositional = some 0 ∧
      ∃ items, Getopt.read grepSample.options [js "-e", js "x", js "-"] = .ok items ∧
        Getopt.operands items = [js "-"] := by
  have haccepted :
      validateSafeBinArgv [js "-e", js "x", js "-"] grepSample (some (js "grep")) = true := by
    decide +kernel
  exact ⟨haccepted, rfl, [.option (js "-e") (some (js "x")), .operand (js "-")], rfl, rfl⟩

end Samples

end GreenchClaw.Exec
