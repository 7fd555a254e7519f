import GreenchClaw.Net.Ssrf

/-!
# What a pinned hostname reaches

The texts that the loose parser reads are classified by the address they stand for; an address that
passes is of no special use, unless it hides one that no rule looks for.
-/

namespace GreenchClaw.Net

open GreenchClaw.Js

/-! ## The text of an address -/

theorem upper_cases {P : CodeUnit → Prop} {u : CodeUnit} (h : 65 ≤ u ∧ u ≤ 90)
    (hall : ∀ n < 26, P (UInt16.ofNat (65 + n))) : P u := by
  have hlow := UInt16.le_iff_toNat_le.mp h.1
  have hhigh := UInt16.le_iff_toNat_le.mp h.2
  have h65 : (65 : UInt16).toNat = 65 := rfl
  have h90 : (90 : UInt16).toNat = 90 := rfl
  have hu : u = UInt16.ofNat (65 + (u.toNat - 65)) := by
    have hsum : 65 + (u.toNat - 65) = u.toNat := by omega
    rw [hsum, UInt16.ofNat_toNat]
  rw [hu]
  exact hall _ (by omega)

theorem isSpace_asciiLower (u : CodeUnit) : isSpace (asciiLower u) = isSpace u := by
  rw [asciiLower]
  split
  · rename_i h
    exact upper_cases (P := fun u => isSpace (u + 32) = isSpace u) h (by decide)
  · rfl

theorem asciiLower_idem (u : CodeUnit) : asciiLower (asciiLower u) = asciiLower u := by
  by_cases h : 65 ≤ u ∧ u ≤ 90
  · exact upper_cases (P := fun u => asciiLower (asciiLower u) = asciiLower u) h (by decide)
  · simp [asciiLower, h]

theorem lt_of_asciiLower_lt {u : CodeUnit} (h : asciiLower u < 128) : u < 128 := by
  by_cases hupper : 65 ≤ u ∧ u ≤ 90
  · exact upper_cases (P := fun u => u < 128) hupper (by decide)
  · rwa [asciiLower, if_neg hupper] at h

theorem trim_map_asciiLower (text : JsString) :
    trim (text.map asciiLower) = (trim text).map asciiLower := by
  have hspace : isSpace ∘ asciiLower = isSpace := funext isSpace_asciiLower
  rw [trim, trim, List.dropWhile_map, hspace, List.rdropWhile, List.rdropWhile, ← List.map_reverse,
    List.dropWhile_map, hspace, List.map_reverse]

/-- A text without white space and brackets that does not end with a dot. -/
structure AddressText (text : JsString) : Prop where
  ne_nil : text ≠ []
  units : ∀ u ∈ text, isAddressUnit u = true
  last : text.getLast? ≠ some (unit '.')

theorem unit_facts {u : CodeUnit} (h : isAddressUnit u = true) :
    u < 128 ∧ isSpace u = false ∧ u ≠ unit '[' := by
  have hlt : u < 128 := by
    simp only [isAddressUnit, isAlphanumeric, isDigit, Bool.or_eq_true, Bool.and_eq_true,
      decide_eq_true_eq, beq_iff_eq] at h
    have h128 : (128 : UInt16).toNat = 128 := rfl
    rw [UInt16.lt_iff_toNat_lt, h128]
    rcases h with ((((⟨-, hle⟩ | ⟨-, hle⟩) | ⟨-, hle⟩) | heq) | heq) | heq
    all_goals first
      | exact lt_of_le_of_lt (UInt16.le_iff_toNat_le.mp hle) (by decide)
      | (rw [heq]; decide)
  have hall : ∀ n < 128, isAddressUnit (UInt16.ofNat n) = true →
      isSpace (UInt16.ofNat n) = false ∧ UInt16.ofNat n ≠ unit '[' := by
    decide
  have hnat : u.toNat < 128 := UInt16.lt_iff_toNat_lt.mp hlt
  have hu : UInt16.ofNat u.toNat = u := UInt16.ofNat_toNat
  have hfacts := hall u.toNat hnat
  rw [hu] at hfacts
  exact ⟨hlt, hfacts h⟩

section Texts

variable {text : JsString}

theorem trim_addressUnits (h : ∀ u ∈ text, isAddressUnit u = true) : trim text = text := by
  have hspace : ∀ u ∈ text, isSpace u = false := fun u hu => (unit_facts (h u hu)).2.1
  have hdrop : text.dropWhile isSpace = text := by
    rw [List.dropWhile_eq_self_iff]
    intro hlength
    simp [hspace _ (List.getElem_mem hlength)]
  rw [trim, hdrop, List.rdropWhile_eq_self_iff]
  intro hne
  simp [hspace _ (List.getLast_mem hne)]

theorem AddressText.trim_eq (h : AddressText text) : trim text = text := trim_addressUnits h.units

theorem AddressText.strip_eq (h : AddressText text) : stripIpv6Brackets text = text := by
  rw [stripIpv6Brackets, if_neg]
  rw [Bool.and_eq_true]
  intro hbrackets
  cases text with
  | nil => exact absurd hbrackets.1 (by decide)
  | cons u rest =>
      have hhead : unit '[' = u := by
        have hprefix := List.isPrefixOf_iff_prefix.mp hbrackets.1
        exact (List.cons_prefix_cons.mp hprefix).1
      exact (unit_facts (h.units u List.mem_cons_self)).2.2 hhead.symm

theorem AddressText.parseInput_eq (h : AddressText text) :
    normalizeIpParseInput text = some text := by
  rw [normalizeIpParseInput, normalizeOptionalString, h.trim_eq, if_neg h.ne_nil, Option.map_some,
    h.strip_eq]

theorem strip_cases {raw stripped : JsString} (h : stripIpv6Brackets raw = stripped) :
    raw = stripped ∨ raw = js "[" ++ stripped ++ js "]" := by
  rw [stripIpv6Brackets] at h
  split at h
  · rename_i hbrackets
    right
    rw [Bool.and_eq_true] at hbrackets
    obtain ⟨rest, hrest⟩ := List.isPrefixOf_iff_prefix.mp hbrackets.1
    obtain ⟨front, hfront⟩ := List.isSuffixOf_iff_suffix.mp hbrackets.2
    rw [← hrest] at h hfront ⊢
    have hdrop : (js "[" ++ rest).drop 1 = rest := rfl
    rw [hdrop] at h
    have hlast : rest.getLast? = some (unit ']') := by
      have hback : (front ++ js "]").getLast? = some (unit ']') := by
        rw [List.getLast?_append]
        rfl
      rw [hfront] at hback
      cases rest with
      | nil => exact absurd hback (by decide)
      | cons u more => rwa [List.getLast?_append_of_ne_nil _ (List.cons_ne_nil u more)] at hback
    rw [← h, List.append_assoc]
    congr 1
    exact (List.dropLast_append_getLast? _ hlast).symm
  · exact Or.inl h

theorem parseInput_cases {raw : JsString} (h : normalizeIpParseInput raw = some text) :
    trim raw ≠ [] ∧ (trim raw = text ∨ trim raw = js "[" ++ text ++ js "]") := by
  rw [normalizeIpParseInput, normalizeOptionalString] at h
  split at h
  · exact absurd h (by simp)
  · rename_i hne
    exact ⟨hne, strip_cases (Option.some.inj h)⟩

theorem strip_bracketed (text : JsString) :
    stripIpv6Brackets (js "[" ++ text ++ js "]") = text := by
  have hfront : (js "[").isPrefixOf (js "[" ++ text ++ js "]") = true := by
    rw [List.isPrefixOf_iff_prefix, List.append_assoc]
    exact List.prefix_append _ _
  have hback : (js "]").isSuffixOf (js "[" ++ text ++ js "]") = true := by
    rw [List.isSuffixOf_iff_suffix]
    exact List.suffix_append _ _
  have hdrop : (js "[" ++ text ++ js "]").drop 1 = text ++ [unit ']'] := rfl
  rw [stripIpv6Brackets, hfront, hback, hdrop, if_pos (by rfl), List.dropLast_concat]

theorem dropTrailingDot_eq (h : text.getLast? ≠ some (unit '.')) : dropTrailingDot text = text := by
  rw [dropTrailingDot, if_neg h]

variable [UnicodeCase]

theorem normalizeHostname_eq {raw : JsString} (htext : AddressText text)
    (hraw : trim (raw.map asciiLower) = text ∨
      trim (raw.map asciiLower) = js "[" ++ text ++ js "]") :
    normalizeHostname raw = text := by
  rw [trim_map_asciiLower] at hraw
  have hne : trim raw ≠ [] := by
    intro hnil
    rw [hnil] at hraw
    rcases hraw with hsame | hbracketed
    · exact htext.ne_nil hsame.symm
    · exact absurd hbracketed (by simp [js])
  have hunits : ∀ u ∈ (trim raw).map asciiLower, u < 128 := by
    intro u hu
    rcases hraw with hsame | hbracketed
    · rw [hsame] at hu
      exact (unit_facts (htext.units u hu)).1
    · rw [hbracketed, List.mem_append, List.mem_append] at hu
      rcases hu with (hopen | hmem) | hclose
      · rw [List.mem_singleton.mp hopen]
        decide
      · exact (unit_facts (htext.units u hmem)).1
      · rw [List.mem_singleton.mp hclose]
        decide
  have hascii : ∀ u ∈ trim raw, u < 128 := by
    intro u hu
    exact lt_of_asciiLower_lt (hunits _ (List.mem_map_of_mem hu))
  have hlower : normalizeLowercaseStringOrEmpty (some raw) = (trim raw).map asciiLower := by
    rw [normalizeLowercaseStringOrEmpty, normalizeOptionalLowercaseString, normalizeOptionalString,
      if_neg hne, Option.map_some, Option.getD_some, UnicodeCase.toLowerCase_ascii _ hascii]
    rfl
  rw [normalizeHostname, hlower]
  rcases hraw with hsame | hbracketed
  · rw [hsame, dropTrailingDot_eq htext.last, htext.strip_eq]
  · have hlast : (js "[" ++ text ++ js "]").getLast? ≠ some (unit '.') := by
      have hclose : (js "[" ++ text ++ js "]").getLast? = some (unit ']') := by
        rw [List.getLast?_append]
        rfl
      rw [hclose]
      decide
    rw [hbracketed, dropTrailingDot_eq hlast, strip_bracketed]

end Texts

/-! ## The loose parser -/

section Parse

variable {lib : IpAddrLib} {text : JsString}

/-- What the loose parser makes of a text without white space and brackets. -/
def looseAddress (lib : IpAddrLib) (text : JsString) : Option ParsedIpAddress :=
  if lib.isValid6 text then some (.ipv6 (lib.parse6 text))
  else if lib.isValid4 text then some (.ipv4 (lib.parse4 text))
  else (parseIpv6WithEmbeddedIpv4 lib text).map .ipv6

theorem isValid4_addressText (h : lib.isValid4 text = true) : AddressText text := by
  constructor
  · rintro rfl
    have hpart := (lib.isValid4_parts [] h).2 [] (by decide)
    exact absurd hpart (by decide)
  · intro u hu
    have hunit := lib.isValid4_units text h u hu
    rw [Bool.or_eq_true] at hunit
    rw [isAddressUnit]
    rcases hunit with halpha | hdot
    · simp [halpha]
    · simp [hdot]
  · exact lib.isValid4_last text h

theorem isValid6_addressText (h : lib.isValid6 text = true) : AddressText text := by
  constructor
  · rintro rfl
    exact absurd (lib.isValid6_colon [] h) List.not_mem_nil
  · exact lib.isValid6_units text h
  · exact lib.isValid6_last text h

theorem no_colon_of_isValid4 (h : lib.isValid4 text = true) : unit ':' ∉ text := by
  intro hmem
  have hunit := lib.isValid4_units text h _ hmem
  exact absurd hunit (by decide)

theorem splitLastColon_eq (raw : JsString) :
    (splitLastColon raw).1 ++ (splitLastColon raw).2 = raw :=
  List.rdropWhile_append_rtakeWhile

/-- An address with a dotted tail: what stands before and after it is kept. -/
theorem embedded_parts {address : IPv6}
    (h : parseIpv6WithEmbeddedIpv4 lib text = some address) :
    ∃ start embedded zone, text = start ++ (embedded ++ zone) ∧ lib.isValid4 embedded = true ∧
      (∀ u ∈ start, isAddressUnit u = true) ∧ (∀ u ∈ zone, isAddressUnit u = true) ∧
      (zone ≠ [] → zone.drop 1 ≠ [] ∧ ∀ u ∈ zone.drop 1, isAlphanumeric u = true) := by
  rw [parseIpv6WithEmbeddedIpv4] at h
  simp only at h
  split at h
  · exact absurd h (by simp)
  · split at h
    · exact absurd h (by simp)
    · rename_i hzone
      split at h
      · exact absurd h (by simp)
      · rename_i hfour
        rw [Bool.not_eq_false] at hfour
        split at h
        · rename_i hvalid
          have hunits := lib.isValid6_units _ hvalid
          refine ⟨(splitLastColon text).1, (splitLastColon text).2.takeWhile fun u => u ≠ unit '%',
            (splitLastColon text).2.dropWhile fun u => u ≠ unit '%', ?_,
            lib.isValid4_of_fourPart _ hfour, ?_, ?_, ?_⟩
          · rw [List.takeWhile_append_dropWhile, splitLastColon_eq]
          · intro u hu
            exact hunits u (List.mem_append_left _ (List.mem_append_left _ hu))
          · intro u hu
            exact hunits u (List.mem_append_right _ hu)
          · intro hne
            rw [not_and, not_or] at hzone
            obtain ⟨hrest, hall⟩ := hzone hne
            rw [Bool.not_eq_false] at hall
            exact ⟨hrest, List.all_eq_true.mp hall⟩
        · exact absurd h (by simp)

theorem embedded_addressText {address : IPv6}
    (h : parseIpv6WithEmbeddedIpv4 lib text = some address) : AddressText text := by
  obtain ⟨start, embedded, zone, htext, hembedded, hstart, hzone, hlast⟩ := embedded_parts h
  have hdotted := isValid4_addressText hembedded
  have htail : embedded ++ zone ≠ [] := by
    intro hnil
    exact hdotted.ne_nil (List.append_eq_nil_iff.mp hnil).1
  constructor
  · rw [htext]
    intro hnil
    exact htail (List.append_eq_nil_iff.mp hnil).2
  · intro u hu
    rw [htext, List.mem_append, List.mem_append] at hu
    rcases hu with hmem | hmem | hmem
    · exact hstart u hmem
    · exact hdotted.units u hmem
    · exact hzone u hmem
  · rw [htext, List.getLast?_append_of_ne_nil _ htail]
    by_cases hnil : zone = []
    · rw [hnil, List.append_nil]
      exact hdotted.last
    · obtain ⟨hrest, hall⟩ := hlast hnil
      have hsplit : zone = zone.take 1 ++ zone.drop 1 := (List.take_append_drop 1 zone).symm
      rw [List.getLast?_append_of_ne_nil _ hnil, hsplit, List.getLast?_append_of_ne_nil _ hrest]
      intro hdot
      have hmem := List.mem_of_getLast? hdot
      exact absurd (hall _ hmem) (by decide)

theorem looseAddress_addressText {address : ParsedIpAddress}
    (h : looseAddress lib text = some address) : AddressText text := by
  rw [looseAddress] at h
  split at h
  · rename_i hvalid
    exact isValid6_addressText hvalid
  · split at h
    · rename_i hvalid
      exact isValid4_addressText hvalid
    · obtain ⟨embedded, hembedded, -⟩ := Option.map_eq_some_iff.mp h
      exact embedded_addressText hembedded

def ReadsAs (lib : IpAddrLib) (raw : JsString) (address : ParsedIpAddress) : Prop :=
  parseLooseIpAddress lib (raw.map asciiLower) = some address

variable [UnicodeCase]

omit [UnicodeCase] in
theorem parseLoose_eq (raw : JsString) :
    parseLooseIpAddress lib raw = (normalizeIpParseInput raw).bind (looseAddress lib) := by
  rw [parseLooseIpAddress]
  cases normalizeIpParseInput raw <;> rfl

theorem readsAs_text {raw : JsString} {address : ParsedIpAddress} (h : ReadsAs lib raw address) :
    ∃ plain, AddressText plain ∧ looseAddress lib plain = some address ∧
      normalizeHostname raw = plain ∧ normalizeHostname plain = plain := by
  rw [ReadsAs, parseLoose_eq] at h
  obtain ⟨plain, hinput, hloose⟩ := Option.bind_eq_some_iff.mp h
  have hplain := looseAddress_addressText hloose
  have hcases := (parseInput_cases hinput).2
  have hfixed : ∀ u ∈ plain, asciiLower u = u := by
    intro u hu
    have hmem : u ∈ (trim raw).map asciiLower := by
      rw [← trim_map_asciiLower]
      rcases hcases with hsame | hbracketed
      · rw [hsame]
        exact hu
      · rw [hbracketed]
        exact List.mem_append_left _ (List.mem_append_right _ hu)
    obtain ⟨other, -, heq⟩ := List.mem_map.mp hmem
    rw [← heq]
    exact asciiLower_idem other
  have hlower : plain.map asciiLower = plain :=
    (List.map_congr_left hfixed).trans (List.map_id' plain)
  refine ⟨plain, hplain, hloose, normalizeHostname_eq hplain hcases, ?_⟩
  apply normalizeHostname_eq hplain
  left
  rw [hlower, hplain.trim_eq]

omit [UnicodeCase] in
/-- The strict parser reads what the loose one reads, but the legacy literals of IPv4. -/
theorem parseCanonical_cases {plain : JsString} {address : ParsedIpAddress}
    (hplain : AddressText plain) (h : looseAddress lib plain = some address) :
    parseCanonicalIpAddress lib plain = some address ∨
      parseCanonicalIpAddress lib plain = none ∧ lib.isValid4 plain = true ∧
        lib.isValidFourPartDecimal plain = false := by
  rw [looseAddress] at h
  rw [parseCanonicalIpAddress, hplain.parseInput_eq]
  split at h
  · rename_i hvalid6
    have hnot4 : lib.isValid4 plain ≠ true := by
      intro hvalid4
      exact no_colon_of_isValid4 hvalid4 (lib.isValid6_colon plain hvalid6)
    left
    simp only [hnot4, Bool.false_eq_true, if_false, hvalid6, if_true]
    exact h
  · rename_i hnot6
    split at h
    · rename_i hvalid4
      cases hfour : lib.isValidFourPartDecimal plain with
      | true =>
          left
          simp only [hvalid4, hfour, if_true]
          exact h
      | false =>
          right
          simp only [hvalid4, hfour, if_true, Bool.false_eq_true, if_false, and_self]
    · rename_i hnot4
      left
      simp only [hnot4, Bool.false_eq_true, if_false, hnot6]
      exact h

omit [UnicodeCase] in
theorem isLegacy_of_isValid4 {plain : JsString} (hplain : AddressText plain)
    (hvalid : lib.isValid4 plain = true) (hfour : lib.isValidFourPartDecimal plain = false) :
    isCanonicalDottedDecimalIPv4 lib plain = false ∧ isLegacyIpv4Literal lib plain = true := by
  have hcanonical : isCanonicalDottedDecimalIPv4 lib plain = false := by
    rw [isCanonicalDottedDecimalIPv4, hplain.parseInput_eq, Option.any_some, hfour]
  refine ⟨hcanonical, ?_⟩
  rw [isLegacyIpv4Literal, hplain.parseInput_eq]
  have hnot : ¬ (plain = [] ∨ unit ':' ∈ plain) := by
    rw [not_or]
    exact ⟨hplain.ne_nil, no_colon_of_isValid4 hvalid⟩
  obtain ⟨hlength, hparts⟩ := lib.isValid4_parts plain hvalid
  simp only [hnot, if_false, hcanonical, Bool.false_eq_true, hlength, decide_true, Bool.true_and]
  apply List.all_eq_true.mpr
  intro part hpart
  have hnumeric := hparts part hpart
  have hne : part ≠ [] := by
    rintro rfl
    exact absurd hnumeric (by decide)
  simp [hne, hnumeric]

theorem isBlockedAddress_of_passes {policy : SsrFPolicy} {raw : JsString}
    {address : ParsedIpAddress} (hreads : ReadsAs lib raw address)
    (hpasses : isBlockedHostnameOrIp lib raw policy = false) :
    isBlockedAddress lib policy.blockOptions address = false := by
  obtain ⟨plain, hplain, hloose, hraw, hself⟩ := readsAs_text hreads
  have hprivate : isPrivateIpAddress lib plain policy = false := by
    rw [isBlockedHostnameOrIp, hraw] at hpasses
    simp only [hplain.ne_nil, ne_eq, not_false_eq_true, decide_true, Bool.true_and,
      Bool.or_eq_false_iff] at hpasses
    exact hpasses.2
  rw [isPrivateIpAddress, hself] at hprivate
  simp only [hplain.ne_nil, if_false] at hprivate
  rcases parseCanonical_cases hplain hloose with hstrict | ⟨hnone, hvalid, hfour⟩
  · rw [hstrict] at hprivate
    cases address with
    | ipv4 strictIp => exact hprivate
    | ipv6 strictIp =>
        rw [isBlockedAddress]
        simp only at hprivate
        split at hprivate
        · exact absurd hprivate (by simp)
        · rename_i hnot
          rw [Bool.not_eq_true] at hnot
          rw [hnot, Bool.false_or]
          cases hextract : extractEmbeddedIpv4FromIpv6 lib strictIp with
          | none => rfl
          | some embedded =>
              rw [hextract] at hprivate
              exact hprivate
  · rw [hnone] at hprivate
    obtain ⟨hcanonical, hlegacy⟩ := isLegacy_of_isValid4 hplain hvalid hfour
    simp [no_colon_of_isValid4 hvalid, hcanonical, hlegacy] at hprivate

end Parse

/-! ## The lookups -/

section Lookups

variable {lookup : PinnedLookup}

theorem automaticRecords_subset : lookup.automaticRecords ⊆ lookup.records := by
  rw [PinnedLookup.automaticRecords]
  split
  · exact List.Subset.refl _
  · exact List.filter_subset_self _

theorem usable_subset (family : ℤ) : lookup.usable family ⊆ lookup.records := by
  rw [PinnedLookup.usable]
  split
  · split
    · exact automaticRecords_subset
    · exact List.filter_subset_self _
  · split
    · exact automaticRecords_subset
    · exact automaticRecords_subset

variable [UnicodeCase]

theorem call_pinned (request : LookupCall) (hhost : lookup.normalizedHost ≠ [])
    (hrequest : normalizeHostname request.host = lookup.normalizedHost) :
    (∃ addresses, (lookup.call request).1 = .addresses addresses ∧
        addresses ⊆ lookup.records) ∧
      (lookup.call request).2.normalizedHost = lookup.normalizedHost ∧
      (lookup.call request).2.records = lookup.records := by
  have hpinned : ¬ (normalizeHostname request.host = [] ∨
      normalizeHostname request.host ≠ lookup.normalizedHost) := by
    rw [hrequest, not_or, not_not]
    exact ⟨hhost, rfl⟩
  rw [PinnedLookup.call]
  simp only [hpinned, if_false]
  split
  · exact ⟨⟨_, rfl, usable_subset _⟩, rfl, rfl⟩
  · refine ⟨⟨_, rfl, ?_⟩, rfl, rfl⟩
    intro entry hentry
    rw [Option.mem_toList] at hentry
    exact usable_subset _ (List.mem_of_getElem? hentry)

theorem calls_pinned (requests : List LookupCall) (hhost : lookup.normalizedHost ≠ [])
    (hrequests : ∀ request ∈ requests, normalizeHostname request.host = lookup.normalizedHost) :
    ∀ answer ∈ lookup.calls requests,
      ∃ addresses, answer = .addresses addresses ∧ addresses ⊆ lookup.records := by
  induction requests generalizing lookup with
  | nil => exact fun _ hanswer => absurd hanswer List.not_mem_nil
  | cons request rest ih =>
      obtain ⟨hrequest, hrest⟩ := List.forall_mem_cons.mp hrequests
      obtain ⟨hfirst, hsame, hrecords⟩ := call_pinned request hhost hrequest
      rw [PinnedLookup.calls]
      intro answer hanswer
      rcases List.mem_cons.mp hanswer with heq | hlater
      · rw [heq]
        exact hfirst
      · rw [← hrecords]
        exact ih (hsame ▸ hhost) (hsame ▸ hrest) answer hlater

end Lookups

theorem mem_dedupeAndPreferIpv4 {results : List LookupAddress} {address : JsString}
    (h : address ∈ dedupeAndPreferIpv4 results) : address ∈ results.map LookupAddress.address := by
  have hunique : ∀ (rest seen : List LookupAddress),
      rest.foldl (fun (seen : List LookupAddress) entry =>
        if seen.any fun other => other.address = entry.address then seen else seen ++ [entry])
        seen ⊆ seen ++ rest := by
    intro rest
    induction rest with
    | nil =>
        intro seen
        rw [List.foldl_nil, List.append_nil]
        exact List.Subset.refl _
    | cons entry rest ih =>
        intro seen
        rw [List.foldl_cons]
        split
        · apply List.Subset.trans (ih seen)
          rw [List.append_subset]
          exact ⟨List.subset_append_left _ _,
            List.Subset.trans (List.subset_cons_self _ _) (List.subset_append_right _ _)⟩
        · have hrest := ih (seen ++ [entry])
          rwa [List.append_assoc] at hrest
  rw [dedupeAndPreferIpv4] at h
  rcases List.mem_append.mp h with hmem | hmem
  · obtain ⟨entry, hentry, heq⟩ := List.mem_map.mp hmem
    exact List.mem_map.mpr ⟨entry, hunique results [] (List.mem_filter.mp hentry).1, heq⟩
  · obtain ⟨entry, hentry, heq⟩ := List.mem_map.mp hmem
    exact List.mem_map.mpr ⟨entry, hunique results [] (List.mem_filter.mp hentry).1, heq⟩

/-! ## Success -/

section Success

variable [UnicodeCase] (lib : IpAddrLib)

def pinnedAddresses (pinned : PinnedHostname) (override : Option PinnedHostname) :
    List JsString :=
  match override with
  | none => pinned.addresses
  | some override => override.addresses

def checkedTexts (hostname : JsString) (results : List LookupAddress)
    (override : Option PinnedHostname) : List JsString :=
  normalizeHostname hostname :: (results.map LookupAddress.address ++
    ((override.map PinnedHostname.addresses).getD []))

def checkedAddresses (results : List LookupAddress) (override : Option PinnedHostname) :
    List JsString :=
  match override with
  | none => results.map LookupAddress.address
  | some override => override.addresses

structure PinningComplete (policy : SsrFPolicy) (hostname : JsString)
    (results : List LookupAddress) (override : Option PinnedHostname) (lookup : PinnedLookup) :
    Prop where
  allowlist : matchesHostnameAllowlist (normalizeHostname hostname)
    (normalizeHostnameAllowlist policy.hostnameAllowlist) = true
  name : isBlockedHostname (normalizeHostname hostname) = false
  addresses : ∀ text ∈ checkedTexts hostname results override, ∀ address,
    ReadsAs lib text address → ¬ HoldsSpecialUse lib policy.blockOptions address
  lookups : ∀ requests : List LookupCall, (∀ request ∈ requests,
      normalizeHostname request.host = normalizeHostname hostname) →
    ∀ answer ∈ lookup.calls requests, ∃ addresses, answer = .addresses addresses ∧
      ∀ entry ∈ addresses, entry.address ∈ checkedAddresses results override

structure NothingHidden (policy : SsrFPolicy) (hostname : JsString)
    (results : List LookupAddress) (override : Option PinnedHostname) : Prop where
  host : normalizeHostname (normalizeHostname hostname) = normalizeHostname hostname
  addresses : ∀ text ∈ checkedTexts hostname results override, ∀ address,
    ReadsAs lib text address → ¬ HidesSpecialUse lib policy.blockOptions address

variable {lib} {policy : SsrFPolicy} {hostname : JsString} {results : List LookupAddress}
  {pinned : PinnedHostname}

theorem resolveChecks_ok {normalized : JsString} {skip : Bool}
    (h : resolveHostnamePolicyChecks lib hostname policy = .ok (normalized, skip)) :
    normalized = normalizeHostname hostname ∧ normalizeHostname hostname ≠ [] ∧
      skip = shouldSkipPrivateNetworkChecks (normalizeHostname hostname) policy ∧
      matchesHostnameAllowlist (normalizeHostname hostname)
        (normalizeHostnameAllowlist policy.hostnameAllowlist) = true ∧
      (skip = false → isBlockedHostnameOrIp lib (normalizeHostname hostname) policy = false) := by
  rw [resolveHostnamePolicyChecks] at h
  simp only at h
  split at h
  · exact absurd h (by simp)
  · rename_i hnonempty
    split at h
    · exact absurd h (by simp)
    · rename_i hallowlist
      split at h
      · exact absurd h (by simp)
      · rename_i hblocked
        obtain ⟨hnormalized, hskip⟩ := Prod.mk.inj (Except.ok.inj h)
        refine ⟨hnormalized.symm, hnonempty, hskip.symm, by simpa using hallowlist, ?_⟩
        intro hnot
        rw [← hskip] at hnot
        simpa [hnot] using hblocked

theorem assertAllowed_ok (h : assertAllowedResolvedAddressesOrThrow lib results policy = .ok ()) :
    ∀ entry ∈ results, isBlockedHostnameOrIp lib entry.address policy = false := by
  rw [assertAllowedResolvedAddressesOrThrow] at h
  split at h
  · exact absurd h (by simp)
  · rename_i hany
    intro entry hentry
    by_contra hblocked
    rw [Bool.not_eq_false] at hblocked
    exact hany (List.any_eq_true.mpr ⟨entry, hentry, hblocked⟩)

theorem resolvePinned_ok
    (hchecks : shouldSkipPrivateNetworkChecks (normalizeHostname hostname) policy = false)
    (h : resolvePinnedHostnameWithPolicy lib hostname policy results = .ok pinned) :
    pinned.hostname = normalizeHostname hostname ∧ normalizeHostname hostname ≠ [] ∧
      matchesHostnameAllowlist (normalizeHostname hostname)
        (normalizeHostnameAllowlist policy.hostnameAllowlist) = true ∧
      isBlockedHostnameOrIp lib (normalizeHostname hostname) policy = false ∧
      (∀ entry ∈ results, isBlockedHostnameOrIp lib entry.address policy = false) ∧
      ∀ address ∈ pinned.addresses, address ∈ results.map LookupAddress.address := by
  rw [resolvePinnedHostnameWithPolicy] at h
  split at h
  · exact absurd h (by simp)
  · rename_i normalized skip hresolve
    obtain ⟨hnormalized, hnonempty, hskip, hallowlist, hhost⟩ := resolveChecks_ok hresolve
    rw [hchecks] at hskip
    simp only [hskip, Bool.false_eq_true, if_false] at h
    split at h
    · exact absurd h (by simp)
    · split at h
      · exact absurd h (by simp)
      · rename_i hallowed
        split at h
        · exact absurd h (by simp)
        · rw [← Except.ok.inj h]
          exact ⟨hnormalized, hnonempty, hallowlist, hhost hskip, assertAllowed_ok hallowed,
            fun address haddress => mem_dedupeAndPreferIpv4 haddress⟩

theorem createPinned_ok {addresses : List JsString} {lookup : PinnedLookup}
    (h : createPinnedLookup pinned.hostname addresses = .ok lookup) :
    lookup.normalizedHost = normalizeHostname pinned.hostname ∧
      lookup.records = addresses.map addressRecord := by
  rw [createPinnedLookup] at h
  split at h
  · exact absurd h (by simp)
  · rw [← Except.ok.inj h]
    exact ⟨rfl, rfl⟩

theorem dispatcher_ok {override : Option PinnedHostname} {lookup : PinnedLookup}
    (hchecks : shouldSkipPrivateNetworkChecks pinned.hostname policy = false)
    (h : resolvePinnedDispatcherLookup lib pinned override policy = .ok lookup) :
    lookup.normalizedHost = normalizeHostname pinned.hostname ∧
      lookup.records = (pinnedAddresses pinned override).map addressRecord ∧
      ∀ address ∈ (override.map PinnedHostname.addresses).getD [],
        isBlockedHostnameOrIp lib address policy = false := by
  unfold resolvePinnedDispatcherLookup at h
  cases override with
  | none =>
      obtain ⟨hhost, hrecords⟩ := createPinned_ok h
      exact ⟨hhost, hrecords, fun _ haddress => absurd haddress List.not_mem_nil⟩
  | some override =>
      simp only [hchecks, Bool.false_eq_true, if_false] at h
      split at h
      · exact absurd h (by simp)
      · split at h
        · exact absurd h (by simp)
        · rename_i hallowed
          obtain ⟨hhost, hrecords⟩ := createPinned_ok h
          refine ⟨hhost, hrecords, ?_⟩
          intro address haddress
          exact assertAllowed_ok hallowed (addressRecord address)
            (List.mem_map_of_mem haddress)

theorem isBlockedHostname_of_passes {text : JsString}
    (h : isBlockedHostnameOrIp lib text policy = false) : isBlockedHostname text = false := by
  rw [isBlockedHostnameOrIp, Bool.and_eq_false_iff, Bool.or_eq_false_iff] at h
  rw [isBlockedHostname, Bool.and_eq_false_iff]
  exact h.imp_right And.left

theorem checked_passes {override : Option PinnedHostname}
    (hhost : isBlockedHostnameOrIp lib (normalizeHostname hostname) policy = false)
    (hresults : ∀ entry ∈ results, isBlockedHostnameOrIp lib entry.address policy = false)
    (hoverride : ∀ address ∈ (override.map PinnedHostname.addresses).getD [],
      isBlockedHostnameOrIp lib address policy = false) :
    ∀ text ∈ checkedTexts hostname results override,
      isBlockedHostnameOrIp lib text policy = false := by
  intro text htext
  rcases List.mem_cons.mp htext with heq | htext
  · rw [heq]
    exact hhost
  · rcases List.mem_append.mp htext with hmem | hmem
    · obtain ⟨entry, hentry, heq⟩ := List.mem_map.mp hmem
      rw [← heq]
      exact hresults entry hentry
    · exact hoverride text hmem

omit [UnicodeCase] in
theorem pinnedAddresses_subset {override : Option PinnedHostname}
    (h : ∀ address ∈ pinned.addresses, address ∈ results.map LookupAddress.address) :
    pinnedAddresses pinned override ⊆ checkedAddresses results override := by
  intro address haddress
  cases override with
  | none => exact h address haddress
  | some override => exact haddress

theorem calls_other {lookup : PinnedLookup} (request : LookupCall)
    (h : normalizeHostname request.host ≠ lookup.normalizedHost) : lookup.calls [request] = [.fallback] := by
  rw [PinnedLookup.calls, PinnedLookup.calls, PinnedLookup.call]
  simp only [h, ne_eq, not_false_eq_true, or_true, if_true]

/-- A pinned lookup is complete exactly when nothing is hidden from the checks. -/
theorem pinning_complete_iff {override : Option PinnedHostname} {lookup : PinnedLookup}
    (hnetwork : isPrivateNetworkAllowedByPolicy policy = false)
    (hname : normalizeHostname hostname ∉ normalizeHostnameSet policy.allowedHostnames)
    (hpinned : resolvePinnedHostnameWithPolicy lib hostname policy results = .ok pinned)
    (hlookup : resolvePinnedDispatcherLookup lib pinned override policy = .ok lookup) :
    PinningComplete lib policy hostname results override lookup ↔
      NothingHidden lib policy hostname results override := by
  have hchecks : shouldSkipPrivateNetworkChecks (normalizeHostname hostname) policy = false := by
    rw [shouldSkipPrivateNetworkChecks, hnetwork, Bool.false_or]
    simpa using hname
  obtain ⟨hhostname, hnonempty, hallowlist, hhost, hresults, haddresses⟩ :=
    resolvePinned_ok hchecks hpinned
  rw [← hhostname] at hchecks
  obtain ⟨hnormalized, hrecords, hoverride⟩ := dispatcher_ok hchecks hlookup
  rw [hhostname] at hnormalized
  have hpasses := checked_passes hhost hresults hoverride
  constructor
  · intro hcomplete
    constructor
    · by_contra hunstable
      let request : LookupCall := { host := hostname, options := .none }
      have hother : normalizeHostname request.host ≠ lookup.normalizedHost := by
        rw [hnormalized]
        exact Ne.symm hunstable
      obtain ⟨addresses, hanswer, -⟩ := hcomplete.lookups [request]
        (fun other hmem => by rw [List.mem_singleton.mp hmem]) .fallback
        (by rw [calls_other request hother]; exact List.mem_singleton_self _)
      cases hanswer
    · intro text htext address hreads hhides
      have hpass := isBlockedAddress_of_passes hreads (hpasses text htext)
      exact hcomplete.addresses text htext address hreads ((holds_iff_hides hpass).mpr hhides)
  · intro hnothing
    constructor
    · exact hallowlist
    · exact isBlockedHostname_of_passes hhost
    · intro text htext address hreads hholds
      have hpass := isBlockedAddress_of_passes hreads (hpasses text htext)
      exact hnothing.addresses text htext address hreads ((holds_iff_hides hpass).mp hholds)
    · intro requests hrequests answer hanswer
      have hstable : lookup.normalizedHost = normalizeHostname hostname :=
        hnormalized.trans hnothing.host
      obtain ⟨addresses, heq, hsubset⟩ := calls_pinned requests (hstable ▸ hnonempty)
        (fun request hrequest => (hrequests request hrequest).trans hstable.symm) answer hanswer
      refine ⟨addresses, heq, ?_⟩
      intro entry hentry
      have hrecord := hsubset hentry
      rw [hrecords] at hrecord
      obtain ⟨address, haddress, hsame⟩ := List.mem_map.mp hrecord
      rw [← hsame]
      exact pinnedAddresses_subset haddresses haddress

end Success

/-! ## Runs -/

def parseDotted (text : JsString) : IPv4 :=
  match (dotParts text).map parseDecimal with
  | [a, b, c, d] => ⟨UInt8.ofNat a, UInt8.ofNat b, UInt8.ofNat c, UInt8.ofNat d⟩
  | _ => ⟨0, 0, 0, 0⟩

theorem octet_text (octet : UInt8) :
    parseDecimal (js (toString octet.toNat)) = octet.toNat ∧
      unit '.' ∉ js (toString octet.toNat) := by
  have hall : ∀ n < 256, parseDecimal (js (toString n)) = n ∧ unit '.' ∉ js (toString n) := by
    decide +kernel
  exact hall octet.toNat octet.toNat_lt

theorem dotParts_dotted (address : IPv4) :
    dotParts (dotted address) =
      [js (toString address.a.toNat), js (toString address.b.toNat),
        js (toString address.c.toNat), js (toString address.d.toNat)] := by
  have htext : dotted address = List.intercalate [unit '.']
      [js (toString address.a.toNat), js (toString address.b.toNat),
        js (toString address.c.toNat), js (toString address.d.toNat)] := by
    simp [dotted, List.intercalate, js]
  rw [dotParts, htext, List.splitOn_intercalate (unit '.') ?_ (List.cons_ne_nil _ _)]
  simp only [List.forall_mem_cons, (octet_text _).2, not_false_eq_true, true_and]
  exact fun _ hnil => absurd hnil List.not_mem_nil

theorem parseDotted_dotted (address : IPv4) : parseDotted (dotted address) = address := by
  rw [parseDotted, dotParts_dotted]
  simp only [List.map_cons, List.map_nil, (octet_text _).1, UInt8.ofNat_toNat]

def sampleLib : IpAddrLib where
  isValid4 text := text = js "8.8.8.8"
  isValidFourPartDecimal text := text = js "8.8.8.8"
  parse4 := parseDotted
  isValid6 text := text = js "2002:808:808::5efe:7f00:1"
  parse6 _ := ⟨0x2002, 0x808, 0x808, 0, 0, 0x5efe, 0x7f00, 1⟩
  range4 address := if address.a = 127 then .loopback else .unicast
  range6 p :=
    if p.p0 = 0 ∧ p.p1 = 0 ∧ p.p2 = 0 ∧ p.p3 = 0 ∧ p.p4 = 0 ∧ p.p5 = 0xffff then .ipv4Mapped
    else if p.p0 = 0 ∧ p.p1 = 0 ∧ p.p2 = 0 ∧ p.p3 = 0 ∧ p.p4 = 0xffff ∧ p.p5 = 0 then .rfc6145
    else if p.p0 = 0x64 ∧ p.p1 = 0xff9b ∧ p.p2 = 0 ∧ p.p3 = 0 ∧ p.p4 = 0 ∧ p.p5 = 0 then .rfc6052
    else if p.p0 = 0x2002 then .sixToFour
    else .unicast
  isValid4_parts s h := by
    rw [of_decide_eq_true h]
    decide +kernel
  isValid4_units s h := by
    rw [of_decide_eq_true h, ← List.all_eq_true]
    decide +kernel
  isValid4_last s h := by
    rw [of_decide_eq_true h]
    decide +kernel
  isValid4_of_fourPart _ h := h
  parse4_dotted := parseDotted_dotted
  isValid6_units s h := by
    rw [of_decide_eq_true h, ← List.all_eq_true]
    decide +kernel
  isValid6_colon s h := by
    rw [of_decide_eq_true h]
    decide +kernel
  isValid6_last s h := by
    rw [of_decide_eq_true h]
    decide +kernel
  range6_mapped p := by grind
  range6_rfc6145 p := by grind
  range6_rfc6052 p := by grind

def pinnedTo (address : JsString) : PinnedHostname :=
  { hostname := js "example.com", addresses := [address] }

def lookupTo (address : JsString) : PinnedLookup :=
  { normalizedHost := js "example.com", records := [addressRecord address] }

theorem pinning_complete_iff_public :
    @PinningComplete asciiCase sampleLib {} (js "example.com")
      [{ address := js "8.8.8.8", family := 4 }] none (lookupTo (js "8.8.8.8")) := by
  apply (@pinning_complete_iff asciiCase sampleLib {} (js "example.com")
    [{ address := js "8.8.8.8", family := 4 }] (pinnedTo (js "8.8.8.8")) none
    (lookupTo (js "8.8.8.8")) (by decide) (by decide) (by decide +kernel) (by decide +kernel)).mpr
  apply @NothingHidden.mk asciiCase
  · decide +kernel
  · have hlookups : @checkedTexts asciiCase (js "example.com")
        [{ address := js "8.8.8.8", family := 4 }] none = [js "example.com", js "8.8.8.8"] := by
      decide +kernel
    have hname : parseLooseIpAddress sampleLib ((js "example.com").map asciiLower) = none := by
      decide +kernel
    have haddress : parseLooseIpAddress sampleLib ((js "8.8.8.8").map asciiLower) =
        some (.ipv4 ⟨8, 8, 8, 8⟩) := by
      decide +kernel
    rw [hlookups]
    simp only [List.forall_mem_cons, ReadsAs, hname, haddress]
    refine ⟨fun _ h => absurd h (by simp), ?_, fun _ h => absurd h List.not_mem_nil⟩
    intro address h
    rw [← Option.some.inj h]
    exact id

def hiddenLoopback : JsString := js "2002:808:808::5efe:7f00:1"

theorem hidden_loopback_pinned :
    @resolvePinnedHostnameWithPolicy asciiCase sampleLib (js "example.com") {}
        [{ address := hiddenLoopback, family := 6 }] = .ok (pinnedTo hiddenLoopback) ∧
      @resolvePinnedDispatcherLookup asciiCase sampleLib (pinnedTo hiddenLoopback) none {} =
        .ok (lookupTo hiddenLoopback) ∧
      ¬ @PinningComplete asciiCase sampleLib {} (js "example.com")
        [{ address := hiddenLoopback, family := 6 }] none (lookupTo hiddenLoopback) := by
  refine ⟨by decide +kernel, by decide +kernel, ?_⟩
  intro hcomplete
  have hreads : ReadsAs sampleLib hiddenLoopback
      (.ipv6 ⟨0x2002, 0x808, 0x808, 0, 0, 0x5efe, 0x7f00, 1⟩) := by
    show parseLooseIpAddress sampleLib (hiddenLoopback.map asciiLower) = _
    decide +kernel
  apply @PinningComplete.addresses asciiCase _ _ _ _ _ _ hcomplete hiddenLoopback
    (by decide +kernel) _ hreads
  exact Or.inr ⟨_, .isatap _ (by decide), by decide +kernel⟩

end GreenchClaw.Net
