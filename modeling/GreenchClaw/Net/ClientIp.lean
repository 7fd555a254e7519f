import GreenchClaw.Net.PinningComplete

/-!
# The address of a client

`normalizeIpAddress` of `src/shared/net/ip.ts` and `resolveClientIp` of `src/gateway/net.ts`
without proxies: the text under which a client is counted.
-/

namespace GreenchClaw.Net

open GreenchClaw.Js

/-- `ipaddr.js` with what its parsers say about case, and the text of an IPv6 address. -/
structure IpAddrTexts extends IpAddrLib where
  /-- The text of RFC 5952, without a zone. -/
  toString6 : IPv6 → JsString
  isValidFourPartDecimal_dotted : ∀ address, isValidFourPartDecimal (dotted address) = true
  isValidFourPartDecimal_units : ∀ s, isValidFourPartDecimal s = true →
    ∀ u ∈ s, (isDigit u || u == unit '.') = true
  isValidFourPartDecimal_lower : ∀ s,
    isValidFourPartDecimal (s.map asciiLower) = isValidFourPartDecimal s
  isValid4_lower : ∀ s, isValid4 (s.map asciiLower) = isValid4 s
  isValid6_lower : ∀ s, isValid6 (s.map asciiLower) = isValid6 s
  parse6_lower : ∀ s, parse6 (s.map asciiLower) = parse6 s
  toString6_units : ∀ p, ∀ u ∈ toString6 p, isAddressUnit u = true
  toString6_ne_nil : ∀ p, toString6 p ≠ []

def zoneSuffix (text : JsString) : JsString := text.dropWhile fun u => u ≠ unit '%'

def normalizeIpv4MappedAddress (lib : IpAddrLib) : ParsedIpAddress → ParsedIpAddress
  | .ipv4 address => .ipv4 address
  | .ipv6 p => if lib.range6 p = .ipv4Mapped then .ipv4 (ofHextets p.p6 p.p7) else .ipv6 p

def addressText (lib : IpAddrTexts) (zone : JsString) : ParsedIpAddress → JsString
  | .ipv4 address => dotted address
  | .ipv6 p => lib.toString6 p ++ zone

section Resolve

variable [UnicodeCase] (lib : IpAddrTexts)

def normalizeIpAddress (raw : JsString) : Option JsString :=
  (parseCanonicalIpAddress lib.toIpAddrLib raw).map fun parsed =>
    let zone := zoneSuffix ((normalizeIpParseInput raw).getD [])
    normalizeLowercaseStringOrEmpty
      (some (addressText lib zone (normalizeIpv4MappedAddress lib.toIpAddrLib parsed)))

def resolveClientIp (remoteAddr : Option JsString) : Option JsString :=
  (remoteAddr.bind (normalizeIpAddress lib)).filter fun remote => remote ≠ []

def isLoopbackIpAddress (raw : JsString) : Bool :=
  match (parseCanonicalIpAddress lib.toIpAddrLib raw).map
      (normalizeIpv4MappedAddress lib.toIpAddrLib) with
  | none => false
  | some (.ipv4 address) => lib.range4 address == .loopback
  | some (.ipv6 p) => lib.range6 p == .loopback

end Resolve

/-! ## The texts of one address -/

/-- Who is meant: an IPv4 address, or an IPv6 address that maps none, with its zone. -/
structure ClientAddress where
  address : ParsedIpAddress
  zone : JsString
  deriving DecidableEq

def ClientAddress.ofText6 (lib : IpAddrLib) (text : JsString) (p : IPv6) : ClientAddress :=
  if lib.range6 p = .ipv4Mapped then ⟨.ipv4 (ofHextets p.p6 p.p7), []⟩
  else ⟨.ipv6 p, (zoneSuffix text).map asciiLower⟩

/-- The texts without brackets, in either case. -/
inductive PlainText (lib : IpAddrLib) : ClientAddress → JsString → Prop where
  | ipv4 (address : IPv4) : PlainText lib ⟨.ipv4 address, []⟩ (dotted address)
  | ipv6 (text : JsString) (h : lib.isValid6 text = true) :
      PlainText lib (.ofText6 lib text (lib.parse6 text)) text
  /-- An IPv6 address whose last two hextets are written as an IPv4 address. -/
  | dottedTail (text : JsString) (p : IPv6) (hnot : lib.isValid6 text = false)
      (h : parseIpv6WithEmbeddedIpv4 lib text = some p) :
      PlainText lib (.ofText6 lib text p) text
  | recased {client : ClientAddress} {text : JsString} (h : PlainText lib client text)
      (other : JsString) (hcase : other.map asciiLower = text.map asciiLower) :
      PlainText lib client other

inductive TextOf (lib : IpAddrLib) : ClientAddress → JsString → Prop where
  | plain {client : ClientAddress} {text lead tail : JsString} (h : PlainText lib client text)
      (hlead : Spaces lead) (htail : Spaces tail) : TextOf lib client (lead ++ (text ++ tail))
  | bracketed {client : ClientAddress} {text lead tail : JsString} (h : PlainText lib client text)
      (hlead : Spaces lead) (htail : Spaces tail) :
      TextOf lib client (lead ++ ((js "[" ++ text ++ js "]") ++ tail))

/-! ## Case -/

theorem asciiLower_eq_iff {c : CodeUnit}
    (hc : ∀ n < 26, UInt16.ofNat (65 + n) ≠ c ∧ UInt16.ofNat (65 + n) + 32 ≠ c) (u : CodeUnit) :
    asciiLower u = c ↔ u = c := by
  by_cases hupper : 65 ≤ u ∧ u ≤ 90
  · have hne := upper_cases (P := fun u => u ≠ c ∧ u + 32 ≠ c) hupper hc
    rw [asciiLower, if_pos hupper]
    exact iff_of_false hne.2 hne.1
  · rw [asciiLower, if_neg hupper]

theorem asciiLower_congr {β : Type} {f : CodeUnit → β}
    (hf : ∀ n < 26, f (UInt16.ofNat (65 + n) + 32) = f (UInt16.ofNat (65 + n))) (u : CodeUnit) :
    f (asciiLower u) = f u := by
  by_cases hupper : 65 ≤ u ∧ u ≤ 90
  · rw [asciiLower, if_pos hupper]
    exact upper_cases (P := fun u => f (u + 32) = f u) hupper hf
  · rw [asciiLower, if_neg hupper]

theorem isAddressUnit_asciiLower (u : CodeUnit) :
    isAddressUnit (asciiLower u) = isAddressUnit u :=
  asciiLower_congr (by decide) u

theorem percent_comp_asciiLower :
    (fun u : CodeUnit => decide (u ≠ unit '%')) ∘ asciiLower = fun u => decide (u ≠ unit '%') := by
  ext u
  rw [Function.comp_apply, decide_eq_decide.mpr (not_congr (asciiLower_eq_iff (by decide) u))]

theorem zoneSuffix_lower (text : JsString) :
    zoneSuffix (text.map asciiLower) = (zoneSuffix text).map asciiLower := by
  rw [zoneSuffix, zoneSuffix, List.dropWhile_map, percent_comp_asciiLower]

theorem splitLastColon_lower (text : JsString) :
    splitLastColon (text.map asciiLower) =
      ((splitLastColon text).1.map asciiLower, (splitLastColon text).2.map asciiLower) := by
  have hcolon : (fun u : CodeUnit => decide (u ≠ unit ':')) ∘ asciiLower =
      fun u => decide (u ≠ unit ':') := by
    ext u
    rw [Function.comp_apply, decide_eq_decide.mpr (not_congr (asciiLower_eq_iff (by decide) u))]
  simp only [splitLastColon, List.rdropWhile, List.rtakeWhile]
  rw [← List.map_reverse, List.dropWhile_map, List.takeWhile_map, hcolon, List.map_reverse,
    List.map_reverse]

theorem AddressText.recased {text other : JsString} (h : AddressText text)
    (hcase : other.map asciiLower = text.map asciiLower) : AddressText other := by
  constructor
  · rintro rfl
    exact h.ne_nil (List.map_eq_nil_iff.mp hcase.symm)
  · intro u hu
    have hmem : asciiLower u ∈ text.map asciiLower := hcase ▸ List.mem_map_of_mem hu
    obtain ⟨v, hv, heq⟩ := List.mem_map.mp hmem
    rw [← isAddressUnit_asciiLower, ← heq, isAddressUnit_asciiLower]
    exact h.units v hv
  · intro hlast
    have hdot : (text.map asciiLower).getLast? = some (unit '.') := by
      rw [← hcase, List.getLast?_map, hlast]
      rfl
    rw [List.getLast?_map, Option.map_eq_some_iff] at hdot
    obtain ⟨v, hv, heq⟩ := hdot
    exact h.last ((asciiLower_eq_iff (by decide) v).mp heq ▸ hv)

section Parse

variable {lib : IpAddrTexts}

theorem digits_lower {text : JsString} (h : ∀ u ∈ text, (isDigit u || u == unit '.') = true) :
    text.map asciiLower = text := by
  have hfixed : ∀ u ∈ text, asciiLower u = u := by
    intro u hu
    have hdigit := h u hu
    rw [asciiLower, if_neg]
    intro hupper
    have hletter := upper_cases (P := fun u => (isDigit u || u == unit '.') = false) hupper
      (by decide)
    rw [hletter] at hdigit
    exact absurd hdigit Bool.false_ne_true
  exact (List.map_congr_left hfixed).trans (List.map_id' text)

theorem parseEmbedded_lower (text : JsString) :
    parseIpv6WithEmbeddedIpv4 lib.toIpAddrLib (text.map asciiLower) =
      parseIpv6WithEmbeddedIpv4 lib.toIpAddrLib text := by
  have hline (part : JsString) :
      (part.map asciiLower).any isLineTerminator = part.any isLineTerminator := by
    rw [List.any_map]
    congr 1
    exact funext (asciiLower_congr (by decide))
  have halpha (part : JsString) :
      (part.map asciiLower).all isAlphanumeric = part.all isAlphanumeric := by
    rw [List.all_map]
    congr 1
    exact funext (asciiLower_congr (by decide))
  rw [parseIpv6WithEmbeddedIpv4, parseIpv6WithEmbeddedIpv4, splitLastColon_lower]
  simp only [List.takeWhile_map, List.dropWhile_map, percent_comp_asciiLower,
    lib.isValidFourPartDecimal_lower, List.map_eq_nil_iff, ne_eq, hline, ← List.map_drop, halpha]
  split
  · rfl
  · split
    · rfl
    · split
      · rfl
      · rename_i hfour
        rw [Bool.not_eq_false] at hfour
        have hdigits := digits_lower (lib.isValidFourPartDecimal_units _ hfour)
        have htwice (part : JsString) : (part.map asciiLower).map asciiLower = part.map asciiLower := by
          rw [List.map_map]
          exact List.map_congr_left fun u _ => asciiLower_idem u
        -- both texts are the same in lower case
        have hlower (start hex zone : JsString) :
            (start.map asciiLower ++ hex ++ zone.map asciiLower).map asciiLower =
              (start ++ hex ++ zone).map asciiLower := by
          simp only [List.map_append, htwice]
        rw [hdigits, ← lib.isValid6_lower, hlower, lib.isValid6_lower, ← lib.parse6_lower, hlower,
          lib.parse6_lower]

theorem parseCanonical_lower {text other : JsString} (htext : AddressText text)
    (hcase : other.map asciiLower = text.map asciiLower) :
    parseCanonicalIpAddress lib.toIpAddrLib other = parseCanonicalIpAddress lib.toIpAddrLib text := by
  have h4 : lib.isValid4 other = lib.isValid4 text := by
    rw [← lib.isValid4_lower, hcase, lib.isValid4_lower]
  have hfour : lib.isValidFourPartDecimal other = lib.isValidFourPartDecimal text := by
    rw [← lib.isValidFourPartDecimal_lower, hcase, lib.isValidFourPartDecimal_lower]
  have h6 : lib.isValid6 other = lib.isValid6 text := by
    rw [← lib.isValid6_lower, hcase, lib.isValid6_lower]
  have hparse6 : lib.parse6 other = lib.parse6 text := by
    rw [← lib.parse6_lower, hcase, lib.parse6_lower]
  have hembedded : parseIpv6WithEmbeddedIpv4 lib.toIpAddrLib other =
      parseIpv6WithEmbeddedIpv4 lib.toIpAddrLib text := by
    rw [← parseEmbedded_lower, hcase, parseEmbedded_lower]
  rw [parseCanonicalIpAddress, parseCanonicalIpAddress, (htext.recased hcase).parseInput_eq,
    htext.parseInput_eq]
  simp only [h4, hfour, h6, hparse6, hembedded]
  split
  · split
    · rename_i hvalid
      -- four decimal parts have no letters
      have hsame : other = text := by
        rw [← digits_lower (lib.isValidFourPartDecimal_units _ (hfour.trans hvalid)), hcase,
          digits_lower (lib.isValidFourPartDecimal_units _ hvalid)]
      rw [hsame]
    · rfl
  · rfl

def ClientAddress.toText (lib : IpAddrTexts) (client : ClientAddress) : JsString :=
  (addressText lib client.zone client.address).map asciiLower

structure Means (lib : IpAddrTexts) (client : ClientAddress) (text : JsString) : Prop where
  units : AddressText text
  address : ((parseCanonicalIpAddress lib.toIpAddrLib text).map
    (normalizeIpv4MappedAddress lib.toIpAddrLib)) = some client.address
  zone : ∀ p, client.address = .ipv6 p → (zoneSuffix text).map asciiLower = client.zone

theorem means_ofText6 {text : JsString} {p : IPv6} (htext : AddressText text)
    (hparse : parseCanonicalIpAddress lib.toIpAddrLib text = some (.ipv6 p)) :
    Means lib (.ofText6 lib.toIpAddrLib text p) text := by
  refine ⟨htext, ?_, ?_⟩
  · rw [hparse, Option.map_some, normalizeIpv4MappedAddress, ClientAddress.ofText6]
    split <;> rfl
  · intro q hq
    rw [ClientAddress.ofText6] at hq ⊢
    split
    · rename_i hmapped
      rw [if_pos hmapped] at hq
      exact absurd hq (by simp)
    · rfl

theorem colon_of_embedded {text : JsString} {p : IPv6}
    (h : parseIpv6WithEmbeddedIpv4 lib.toIpAddrLib text = some p) : unit ':' ∈ text := by
  by_contra habsent
  have hstart : (splitLastColon text).1 = [] := by
    show text.rdropWhile (fun u => u ≠ unit ':') = []
    rw [List.rdropWhile_eq_nil_iff]
    intro u hu
    apply decide_eq_true
    rintro rfl
    exact habsent hu
  rw [parseIpv6WithEmbeddedIpv4] at h
  simp only [hstart, true_or, if_true] at h
  exact absurd h (by simp)

theorem PlainText.means {client : ClientAddress} {text : JsString}
    (h : PlainText lib.toIpAddrLib client text) : Means lib client text := by
  induction h with
  | ipv4 address =>
      have hfour := lib.isValidFourPartDecimal_dotted address
      have h4 := lib.isValid4_of_fourPart _ hfour
      have htext := isValid4_addressText h4
      refine ⟨htext, ?_, fun p hp => absurd hp (by simp)⟩
      rw [parseCanonicalIpAddress, htext.parseInput_eq]
      simp only [h4, hfour, if_true, Option.map_some, lib.parse4_dotted]
      rfl
  | ipv6 text hvalid =>
      have htext := isValid6_addressText hvalid
      have hnot : lib.isValid4 text ≠ true := by
        intro h4
        exact no_colon_of_isValid4 h4 (lib.isValid6_colon text hvalid)
      apply means_ofText6 htext
      rw [parseCanonicalIpAddress, htext.parseInput_eq]
      simp only [hnot, Bool.false_eq_true, if_false, hvalid, if_true]
  | dottedTail text p hnot hembedded =>
      have htext := embedded_addressText hembedded
      have hnot4 : lib.isValid4 text ≠ true := by
        intro h4
        exact no_colon_of_isValid4 h4 (colon_of_embedded hembedded)
      apply means_ofText6 htext
      rw [parseCanonicalIpAddress, htext.parseInput_eq]
      simp only [hnot4, Bool.false_eq_true, if_false, hnot, hembedded, Option.map_some]
  | recased h other hcase ih =>
      refine ⟨ih.units.recased hcase, ?_, ?_⟩
      · rw [parseCanonical_lower ih.units hcase]
        exact ih.address
      · intro p hp
        rw [← zoneSuffix_lower, hcase, zoneSuffix_lower]
        exact ih.zone p hp

theorem TextOf.parseInput {client : ClientAddress} {raw : JsString}
    (h : TextOf lib.toIpAddrLib client raw) :
    ∃ text, Means lib client text ∧ normalizeIpParseInput raw = some text := by
  cases h with
  | @plain text lead tail hplain hlead htail =>
      have hmeans := hplain.means
      refine ⟨text, hmeans, ?_⟩
      rw [normalizeIpParseInput, normalizeOptionalString, trim_spaces_append hlead,
        trim_append_spaces htail, hmeans.units.trim_eq, if_neg hmeans.units.ne_nil, Option.map_some,
        hmeans.units.strip_eq]
  | @bracketed text lead tail hplain hlead htail =>
      have htrim : trim (js "[" ++ text ++ js "]") = js "[" ++ text ++ js "]" :=
        trim_eq_self rfl rfl (by decide) (by decide)
      refine ⟨text, hplain.means, ?_⟩
      rw [normalizeIpParseInput, normalizeOptionalString, trim_spaces_append hlead,
        trim_append_spaces htail, htrim, if_neg (by simp [js]), Option.map_some, strip_bracketed]

theorem addressText_units {zone : JsString} (hzone : ∀ u ∈ zone, isAddressUnit u = true)
    (address : ParsedIpAddress) : ∀ u ∈ addressText lib zone address, isAddressUnit u = true := by
  intro u hu
  cases address with
  | ipv4 address =>
      have h4 := lib.isValid4_of_fourPart _ (lib.isValidFourPartDecimal_dotted address)
      exact (isValid4_addressText h4).units u hu
  | ipv6 p =>
      rcases List.mem_append.mp hu with hmem | hmem
      · exact lib.toString6_units p u hmem
      · exact hzone u hmem

variable [UnicodeCase]

theorem normalizeLowercase_units {text : JsString} (h : ∀ u ∈ text, isAddressUnit u = true) :
    normalizeLowercaseStringOrEmpty (some text) = text.map asciiLower := by
  have hascii : ∀ u ∈ text, u < 128 := fun u hu => (unit_facts (h u hu)).1
  rw [normalizeLowercaseStringOrEmpty_eq, trim_addressUnits h, UnicodeCase.toLowerCase_ascii _ hascii]
  rfl

theorem normalizeIpAddress_textOf {client : ClientAddress} {raw : JsString}
    (h : TextOf lib.toIpAddrLib client raw) :
    normalizeIpAddress lib raw = some (client.toText lib) := by
  obtain ⟨text, hmeans, hinput⟩ := h.parseInput
  have hparse : parseCanonicalIpAddress lib.toIpAddrLib raw =
      parseCanonicalIpAddress lib.toIpAddrLib text := by
    rw [parseCanonicalIpAddress, parseCanonicalIpAddress, hinput, hmeans.units.parseInput_eq]
  obtain ⟨parsed, hparsed, haddress⟩ := Option.map_eq_some_iff.mp hmeans.address
  have hzone : ∀ u ∈ zoneSuffix text, isAddressUnit u = true := by
    intro u hu
    exact hmeans.units.units u ((List.dropWhile_suffix _).subset hu)
  rw [normalizeIpAddress, hparse, hparsed, Option.map_some, hinput, Option.getD_some, haddress,
    normalizeLowercase_units (addressText_units hzone client.address), ClientAddress.toText]
  cases hclient : client.address with
  | ipv4 address => rfl
  | ipv6 p =>
      have hlower := hmeans.zone p hclient
      have htwice : client.zone.map asciiLower = client.zone := by
        rw [← hlower, List.map_map]
        exact List.map_congr_left fun u _ => asciiLower_idem u
      rw [addressText, addressText, List.map_append, List.map_append, hlower, htwice]

omit [UnicodeCase] in
theorem ClientAddress.toText_ne_nil {client : ClientAddress} : client.toText lib ≠ [] := by
  rw [ClientAddress.toText, ne_eq, List.map_eq_nil_iff]
  cases client.address with
  | ipv4 address =>
      have h4 := lib.isValid4_of_fourPart _ (lib.isValidFourPartDecimal_dotted address)
      exact (isValid4_addressText h4).ne_nil
  | ipv6 p =>
      intro hnil
      exact lib.toString6_ne_nil p (List.append_eq_nil_iff.mp hnil).1

theorem resolveClientIp_textOf {client : ClientAddress} {raw : JsString}
    (h : TextOf lib.toIpAddrLib client raw) :
    resolveClientIp lib (some raw) = some (client.toText lib) := by
  rw [resolveClientIp, Option.bind_some, normalizeIpAddress_textOf h, Option.filter_some, if_pos]
  exact decide_eq_true client.toText_ne_nil

end Parse

/-! ## A library -/

theorem octet_digits (octet : UInt8) :
    js (toString octet.toNat) ≠ [] ∧ (js (toString octet.toNat)).all isDigit = true := by
  have hall : ∀ n < 256, js (toString n) ≠ [] ∧ (js (toString n)).all isDigit = true := by
    decide +kernel
  exact hall octet.toNat octet.toNat_lt

theorem dotted_units (address : IPv4) :
    ∀ u ∈ dotted address, (isDigit u || u == unit '.') = true := by
  have hdigits (octet : UInt8) :
      ∀ u ∈ js (toString octet.toNat), (isDigit u || u == unit '.') = true := by
    intro u hu
    rw [List.all_eq_true.mp (octet_digits octet).2 u hu, Bool.true_or]
  have hdot : ∀ u ∈ js ".", (isDigit u || u == unit '.') = true := by
    intro u hu
    rw [List.mem_singleton.mp hu]
    decide
  intro u hu
  simp only [dotted, List.mem_append] at hu
  rcases hu with (((((ha | hmark) | hb) | hmark) | hc) | hmark) | hd
  · exact hdigits address.a u ha
  · exact hdot u hmark
  · exact hdigits address.b u hb
  · exact hdot u hmark
  · exact hdigits address.c u hc
  · exact hdot u hmark
  · exact hdigits address.d u hd

theorem dotted_last (address : IPv4) : (dotted address).getLast? ≠ some (unit '.') := by
  rw [dotted, List.getLast?_append_of_ne_nil _ (octet_digits address.d).1]
  intro hlast
  exact (octet_text address.d).2 (List.mem_of_getLast? hlast)

/-- Four decimal parts as `dotted` writes them. -/
def isDotted (text : JsString) : Bool := dotted (parseDotted text) = text

theorem isDotted_dotted (address : IPv4) : isDotted (dotted address) = true := by
  rw [isDotted, parseDotted_dotted]
  exact decide_eq_true rfl

theorem exists_of_isDotted {text : JsString} (h : isDotted text = true) :
    ∃ address, text = dotted address :=
  ⟨parseDotted text, (of_decide_eq_true h).symm⟩

theorem isDotted_parts {text : JsString} (h : isDotted text = true) :
    (dotParts text).length ≤ 4 ∧ ∀ part ∈ dotParts text, isNumericIpv4LiteralPart part = true := by
  obtain ⟨address, htext⟩ := exists_of_isDotted h
  rw [htext, dotParts_dotted]
  refine ⟨le_rfl, ?_⟩
  have hnumeric (octet : UInt8) : isNumericIpv4LiteralPart (js (toString octet.toNat)) = true := by
    rw [isNumericIpv4LiteralPart, Bool.or_eq_true, Bool.and_eq_true]
    exact Or.inl ⟨decide_eq_true (octet_digits octet).1, (octet_digits octet).2⟩
  simp only [List.forall_mem_cons, hnumeric, true_and]
  exact fun _ hnil => absurd hnil List.not_mem_nil

theorem isDotted_digits {text : JsString} (h : isDotted text = true) :
    ∀ u ∈ text, (isDigit u || u == unit '.') = true := by
  obtain ⟨address, htext⟩ := exists_of_isDotted h
  rw [htext]
  exact dotted_units address

theorem isDotted_lower (text : JsString) : isDotted (text.map asciiLower) = isDotted text := by
  rw [Bool.eq_iff_iff]
  constructor
  · intro h
    obtain ⟨address, htext⟩ := exists_of_isDotted h
    have hunits : ∀ u ∈ text, (isDigit u || u == unit '.') = true := by
      intro u hu
      have hmem : asciiLower u ∈ dotted address := htext ▸ List.mem_map_of_mem hu
      have hlower := dotted_units address _ hmem
      rwa [asciiLower_congr (f := fun u => isDigit u || u == unit '.') (by decide) u] at hlower
    have hlower : text.map asciiLower = text := digits_lower hunits
    rw [hlower] at h
    exact h
  · intro h
    have hlower : text.map asciiLower = text := digits_lower (isDotted_digits h)
    rw [hlower]
    exact h

theorem isDotted_units {text : JsString} (h : isDotted text = true) :
    ∀ u ∈ text, (isAlphanumeric u || u == unit '.') = true := by
  intro u hu
  have hunit := isDotted_digits h u hu
  rw [Bool.or_eq_true] at hunit ⊢
  rcases hunit with hdigit | hdot
  · exact Or.inl (by simp [isAlphanumeric, hdigit])
  · exact Or.inr hdot

theorem isDotted_last {text : JsString} (h : isDotted text = true) : text.getLast? ≠ some (unit '.') := by
  obtain ⟨address, htext⟩ := exists_of_isDotted h
  rw [htext]
  exact dotted_last address

def mappedText : JsString := js "::ffff:102:304"

/-- A library that knows the IPv4 addresses and one IPv6 address. -/
def sampleTexts : IpAddrTexts where
  isValid4 := isDotted
  isValidFourPartDecimal := isDotted
  parse4 := parseDotted
  isValid6 text := text.map asciiLower = mappedText
  parse6 _ := ⟨0, 0, 0, 0, 0, 0xffff, 0x102, 0x304⟩
  range4 address := if address.a = 127 then .loopback else .unicast
  range6 := sampleLib.range6
  toString6 _ := js "::"
  isValid4_parts _ h := isDotted_parts h
  isValid4_units _ h := isDotted_units h
  isValid4_last _ h := isDotted_last h
  isValid4_of_fourPart _ h := h
  parse4_dotted := parseDotted_dotted
  isValid6_units s h u hu := by
    have hmem : asciiLower u ∈ mappedText := (of_decide_eq_true h) ▸ List.mem_map_of_mem hu
    have hall : mappedText.all isAddressUnit = true := by decide +kernel
    rw [← isAddressUnit_asciiLower]
    exact List.all_eq_true.mp hall _ hmem
  isValid6_colon s h := by
    have hmem : unit ':' ∈ s.map asciiLower := by
      rw [of_decide_eq_true h]
      decide +kernel
    obtain ⟨u, hu, heq⟩ := List.mem_map.mp hmem
    exact (asciiLower_eq_iff (by decide) u).mp heq ▸ hu
  isValid6_last s h := by
    intro hlast
    have hdot : (s.map asciiLower).getLast? = some (unit '.') := by
      rw [List.getLast?_map, hlast]
      rfl
    rw [of_decide_eq_true h] at hdot
    exact absurd hdot (by decide +kernel)
  range6_mapped := sampleLib.range6_mapped
  range6_rfc6145 := sampleLib.range6_rfc6145
  range6_rfc6052 := sampleLib.range6_rfc6052
  isValidFourPartDecimal_dotted := isDotted_dotted
  isValidFourPartDecimal_units _ h := isDotted_digits h
  isValidFourPartDecimal_lower := isDotted_lower
  isValid4_lower := isDotted_lower
  isValid6_lower s := by
    have htwice : (s.map asciiLower).map asciiLower = s.map asciiLower := by
      rw [List.map_map]
      exact List.map_congr_left fun u _ => asciiLower_idem u
    rw [htwice]
  parse6_lower _ := rfl
  toString6_units _ u hu := List.all_eq_true.mp (by decide +kernel : (js "::").all isAddressUnit = true) u hu
  toString6_ne_nil _ := by decide

end GreenchClaw.Net
