import GreenchClaw.Js.Text

/-!
# IP addresses

`src/shared/net/ip.ts` over `ipaddr.js`: its parsers and its tables of ranges are given.  Strict
and loose parsing, the addresses of special use, and the IPv4 address that an IPv6 address holds.
-/

namespace GreenchClaw.Net

open GreenchClaw.Js

/-! ## The library -/

structure IPv4 where
  a : UInt8
  b : UInt8
  c : UInt8
  d : UInt8
  deriving DecidableEq

/-- The eight hextets `parts[0]` to `parts[7]`; the zone is left out. -/
structure IPv6 where
  p0 : UInt16
  p1 : UInt16
  p2 : UInt16
  p3 : UInt16
  p4 : UInt16
  p5 : UInt16
  p6 : UInt16
  p7 : UInt16
  deriving DecidableEq

inductive ParsedIpAddress where
  | ipv4 (address : IPv4)
  | ipv6 (address : IPv6)
  deriving DecidableEq

inductive Ipv4Range where
  | unspecified
  | broadcast
  | multicast
  | linkLocal
  | loopback
  | carrierGradeNat
  | private_
  | reserved
  | as112
  | amt
  | unicast
  deriving DecidableEq

inductive Ipv6Range where
  | unspecified
  | linkLocal
  | multicast
  | loopback
  | uniqueLocal
  | ipv4Mapped
  | discard
  | rfc6145
  | rfc6052
  | sixToFour
  | teredo
  | benchmarking
  | amt
  | as112v6
  | deprecated
  | orchid2
  | droneRemoteIdProtocolEntityTags
  | reserved
  | unicast
  deriving DecidableEq

def isHexDigit (u : CodeUnit) : Bool :=
  isDigit u || (unit 'a' ≤ u && u ≤ unit 'f') || (unit 'A' ≤ u && u ≤ unit 'F')

def isAlphanumeric (u : CodeUnit) : Bool :=
  isDigit u || (unit 'a' ≤ u && u ≤ unit 'z') || (unit 'A' ≤ u && u ≤ unit 'Z')

/-- The text begins with `0x`, in either case. -/
def startsWithHexMark : JsString → Bool
  | zero :: mark :: _ => zero == unit '0' && (mark == unit 'x' || mark == unit 'X')
  | _ => false

def isNumericIpv4LiteralPart (value : JsString) : Bool :=
  (value ≠ [] && value.all isDigit) ||
    (startsWithHexMark value && value.drop 2 ≠ [] && (value.drop 2).all isHexDigit)

def dotParts (value : JsString) : List JsString := value.splitOn (unit '.')

/-- The units that the text of an address is made of: no white space and no bracket. -/
def isAddressUnit (u : CodeUnit) : Bool :=
  isAlphanumeric u || u == unit ':' || u == unit '.' || u == unit '%'

def dotted (address : IPv4) : JsString :=
  js (toString address.a.toNat) ++ js "." ++ js (toString address.b.toNat) ++ js "." ++
    js (toString address.c.toNat) ++ js "." ++ js (toString address.d.toNat)

/-- `ipaddr.js`, with what its grammar and its tables say. -/
structure IpAddrLib where
  isValid4 : JsString → Bool
  isValidFourPartDecimal : JsString → Bool
  parse4 : JsString → IPv4
  isValid6 : JsString → Bool
  parse6 : JsString → IPv6
  range4 : IPv4 → Ipv4Range
  range6 : IPv6 → Ipv6Range
  /-- One to four parts, each of digits or in hexadecimal. -/
  isValid4_parts : ∀ s, isValid4 s = true →
    (dotParts s).length ≤ 4 ∧ ∀ part ∈ dotParts s, isNumericIpv4LiteralPart part = true
  isValid4_units : ∀ s, isValid4 s = true → ∀ u ∈ s, (isAlphanumeric u || u == unit '.') = true
  isValid4_last : ∀ s, isValid4 s = true → s.getLast? ≠ some (unit '.')
  isValid4_of_fourPart : ∀ s, isValidFourPartDecimal s = true → isValid4 s = true
  parse4_dotted : ∀ address, parse4 (dotted address) = address
  isValid6_units : ∀ s, isValid6 s = true → ∀ u ∈ s, isAddressUnit u = true
  isValid6_colon : ∀ s, isValid6 s = true → unit ':' ∈ s
  isValid6_last : ∀ s, isValid6 s = true → s.getLast? ≠ some (unit '.')
  range6_mapped : ∀ p, range6 p = .ipv4Mapped ↔
    p.p0 = 0 ∧ p.p1 = 0 ∧ p.p2 = 0 ∧ p.p3 = 0 ∧ p.p4 = 0 ∧ p.p5 = 0xffff
  range6_rfc6145 : ∀ p, range6 p = .rfc6145 ↔
    p.p0 = 0 ∧ p.p1 = 0 ∧ p.p2 = 0 ∧ p.p3 = 0 ∧ p.p4 = 0xffff ∧ p.p5 = 0
  range6_rfc6052 : ∀ p, range6 p = .rfc6052 ↔
    p.p0 = 0x64 ∧ p.p1 = 0xff9b ∧ p.p2 = 0 ∧ p.p3 = 0 ∧ p.p4 = 0 ∧ p.p5 = 0

/-! ## Parsing -/

def stripIpv6Brackets (value : JsString) : JsString :=
  if (js "[").isPrefixOf value && (js "]").isSuffixOf value then (value.drop 1).dropLast
  else value

def normalizeIpParseInput (raw : JsString) : Option JsString :=
  (normalizeOptionalString (some raw)).map stripIpv6Brackets

def splitLastColon (raw : JsString) : JsString × JsString :=
  (raw.rdropWhile fun u => u ≠ unit ':', raw.rtakeWhile fun u => u ≠ unit ':')

/-- The digits of `Number.parseInt(part, 10)`. -/
def parseDecimal (part : JsString) : ℕ :=
  part.foldl (fun value u => 10 * value + (u.toNat - (unit '0').toNat)) 0

def hexText (value : ℕ) : JsString := js (String.ofList (Nat.toDigits 16 value))

/-- The hextets of a dotted IPv4 address in hexadecimal. -/
def hexOfDotted (embedded : JsString) : JsString :=
  match (dotParts embedded).map parseDecimal with
  | [a, b, c, d] => hexText (a * 256 + b) ++ js ":" ++ hexText (c * 256 + d)
  | _ => []

section Parse

variable (lib : IpAddrLib)

def parseIpv6WithEmbeddedIpv4 (raw : JsString) : Option IPv6 :=
  let (start, tail) := splitLastColon raw
  let embeddedIpv4 := tail.takeWhile fun u => u ≠ unit '%'
  let zoneSuffix := tail.dropWhile fun u => u ≠ unit '%'
  if start = [] ∨ start.any isLineTerminator = true then none
  else if zoneSuffix ≠ [] ∧ (zoneSuffix.drop 1 = [] ∨ (zoneSuffix.drop 1).all isAlphanumeric = false)
    then none
  else if lib.isValidFourPartDecimal embeddedIpv4 = false then none
  else
    let normalizedIpv6 := start ++ hexOfDotted embeddedIpv4 ++ zoneSuffix
    if lib.isValid6 normalizedIpv6 then some (lib.parse6 normalizedIpv6) else none

def parseCanonicalIpAddress (raw : JsString) : Option ParsedIpAddress :=
  match normalizeIpParseInput raw with
  | none => none
  | some normalized =>
      if lib.isValid4 normalized then
        if lib.isValidFourPartDecimal normalized then some (.ipv4 (lib.parse4 normalized)) else none
      else if lib.isValid6 normalized then some (.ipv6 (lib.parse6 normalized))
      else (parseIpv6WithEmbeddedIpv4 lib normalized).map .ipv6

/-- `ipaddr.isValid` and `ipaddr.parse` try IPv6 first. -/
def parseLooseIpAddress (raw : JsString) : Option ParsedIpAddress :=
  match normalizeIpParseInput raw with
  | none => none
  | some normalized =>
      if lib.isValid6 normalized then some (.ipv6 (lib.parse6 normalized))
      else if lib.isValid4 normalized then some (.ipv4 (lib.parse4 normalized))
      else (parseIpv6WithEmbeddedIpv4 lib normalized).map .ipv6

def isCanonicalDottedDecimalIPv4 (raw : JsString) : Bool :=
  (normalizeIpParseInput raw).any lib.isValidFourPartDecimal

def isLegacyIpv4Literal (raw : JsString) : Bool :=
  match normalizeIpParseInput raw with
  | none => false
  | some normalized =>
      if normalized = [] ∨ unit ':' ∈ normalized then false
      else if isCanonicalDottedDecimalIPv4 lib normalized then false
      else
        decide ((dotParts normalized).length ≤ 4) &&
          (dotParts normalized).all fun part => part ≠ [] && isNumericIpv4LiteralPart part

end Parse

/-! ## Special use -/

structure SpecialUseOptions where
  allowRfc2544BenchmarkRange : Bool := false
  allowUniqueLocalRange : Bool := false

def BLOCKED_IPV4_SPECIAL_USE_RANGES : List Ipv4Range :=
  [.unspecified, .broadcast, .multicast, .linkLocal, .loopback, .carrierGradeNat, .private_,
    .reserved]

def BLOCKED_IPV6_SPECIAL_USE_RANGES : List Ipv6Range :=
  [.unspecified, .loopback, .linkLocal, .uniqueLocal, .multicast, .reserved, .benchmarking,
    .discard, .orchid2]

def inRfc2544BenchmarkRange (address : IPv4) : Bool :=
  address.a == 198 && address.b &&& 0xfe == 18

section SpecialUse

variable (lib : IpAddrLib) (options : SpecialUseOptions)

def isBlockedSpecialUseIpv4Address (address : IPv4) : Bool :=
  if inRfc2544BenchmarkRange address && options.allowRfc2544BenchmarkRange then false
  else
    BLOCKED_IPV4_SPECIAL_USE_RANGES.contains (lib.range4 address) || inRfc2544BenchmarkRange address

def isBlockedSpecialUseIpv6Address (address : IPv6) : Bool :=
  let range := lib.range6 address
  if range == .uniqueLocal && options.allowUniqueLocalRange then false
  else if BLOCKED_IPV6_SPECIAL_USE_RANGES.contains range then true
  else address.p0 &&& 0xffc0 == 0xfec0

end SpecialUse

/-! ## Embedded addresses -/

def ofHextets (high low : UInt16) : IPv4 :=
  { a := (high >>> 8).toUInt8
    b := high.toUInt8
    c := (low >>> 8).toUInt8
    d := low.toUInt8 }

structure EmbeddedIpv4SentinelRule where
  matches_ : IPv6 → Bool
  toHextets : IPv6 → UInt16 × UInt16

def isIsatap (p : IPv6) : Bool := p.p4 &&& 0xfcff == 0 && p.p5 == 0x5efe

def isTeredo (p : IPv6) : Bool := p.p0 == 0x2001 && p.p1 == 0

def EMBEDDED_IPV4_SENTINEL_RULES : List EmbeddedIpv4SentinelRule :=
  [{ matches_ := fun p =>
        p.p0 == 0 && p.p1 == 0 && p.p2 == 0 && p.p3 == 0 && p.p4 == 0 && p.p5 == 0
     toHextets := fun p => (p.p6, p.p7) },
    { matches_ := fun p =>
        p.p0 == 0x64 && p.p1 == 0xff9b && p.p2 == 1 && p.p3 == 0 && p.p4 == 0 && p.p5 == 0
      toHextets := fun p => (p.p6, p.p7) },
    { matches_ := fun p => p.p0 == 0x2002
      toHextets := fun p => (p.p1, p.p2) },
    { matches_ := isTeredo
      toHextets := fun p => (p.p6 ^^^ 0xffff, p.p7 ^^^ 0xffff) },
    { matches_ := isIsatap
      toHextets := fun p => (p.p6, p.p7) }]

section Embedded

variable (lib : IpAddrLib)

def decodeIpv4FromHextets (high low : UInt16) : IPv4 := lib.parse4 (dotted (ofHextets high low))

/-- The first rule that matches says where the IPv4 address lies. -/
def extractEmbeddedIpv4FromIpv6 (p : IPv6) : Option IPv4 :=
  if lib.range6 p = .ipv4Mapped then some (ofHextets p.p6 p.p7)
  else if lib.range6 p = .rfc6145 then some (decodeIpv4FromHextets lib p.p6 p.p7)
  else if lib.range6 p = .rfc6052 then some (decodeIpv4FromHextets lib p.p6 p.p7)
  else
    (EMBEDDED_IPV4_SENTINEL_RULES.find? fun rule => rule.matches_ p).map fun rule =>
      decodeIpv4FromHextets lib (rule.toHextets p).1 (rule.toHextets p).2

end Embedded

/-- The formats by which an IPv6 address holds an IPv4 address. -/
inductive Embeds : IPv6 → IPv4 → Prop where
  | mapped (p : IPv6) (h : p.p0 = 0 ∧ p.p1 = 0 ∧ p.p2 = 0 ∧ p.p3 = 0 ∧ p.p4 = 0 ∧ p.p5 = 0xffff) :
      Embeds p (ofHextets p.p6 p.p7)
  | translated (p : IPv6)
      (h : p.p0 = 0 ∧ p.p1 = 0 ∧ p.p2 = 0 ∧ p.p3 = 0 ∧ p.p4 = 0xffff ∧ p.p5 = 0) :
      Embeds p (ofHextets p.p6 p.p7)
  | compatible (p : IPv6)
      (h : p.p0 = 0 ∧ p.p1 = 0 ∧ p.p2 = 0 ∧ p.p3 = 0 ∧ p.p4 = 0 ∧ p.p5 = 0) :
      Embeds p (ofHextets p.p6 p.p7)
  /-- `64:ff9b::/96`. -/
  | nat64 (p : IPv6) (h : p.p0 = 0x64 ∧ p.p1 = 0xff9b ∧ p.p2 = 0 ∧ p.p3 = 0 ∧ p.p4 = 0 ∧ p.p5 = 0) :
      Embeds p (ofHextets p.p6 p.p7)
  /-- A prefix of 96 bits in `64:ff9b:1::/48`. -/
  | nat64LocalUse (p : IPv6) (h : p.p0 = 0x64 ∧ p.p1 = 0xff9b ∧ p.p2 = 1) :
      Embeds p (ofHextets p.p6 p.p7)
  | sixToFour (p : IPv6) (h : p.p0 = 0x2002) : Embeds p (ofHextets p.p1 p.p2)
  | teredo (p : IPv6) (h : isTeredo p = true) :
      Embeds p (ofHextets (p.p6 ^^^ 0xffff) (p.p7 ^^^ 0xffff))
  | isatap (p : IPv6) (h : isIsatap p = true) : Embeds p (ofHextets p.p6 p.p7)

/-- The last two hextets hold an address that no rule looks for: the identifier of ISATAP under a
prefix that holds another address, or a prefix for local use that is not the first. -/
def HoldsUnseen (p : IPv6) : Prop :=
  (p.p0 = 0x2002 ∨ isTeredo p = true) ∧ isIsatap p = true ∨
    (p.p0 = 0x64 ∧ p.p1 = 0xff9b ∧ p.p2 = 1) ∧ ¬ (p.p3 = 0 ∧ p.p4 = 0 ∧ p.p5 = 0) ∧
      isIsatap p = false

theorem embeds_of_holdsUnseen {p : IPv6} (h : HoldsUnseen p) : Embeds p (ofHextets p.p6 p.p7) := by
  rcases h with ⟨-, hisatap⟩ | ⟨hlocal, -⟩
  · exact .isatap p hisatap
  · exact .nat64LocalUse p hlocal

section Extraction

variable {lib : IpAddrLib} {p : IPv6}

theorem decode_eq (high low : UInt16) :
    decodeIpv4FromHextets lib high low = ofHextets high low :=
  lib.parse4_dotted _

def OutsideTables (p : IPv6) : Prop :=
  ¬ (p.p0 = 0 ∧ p.p1 = 0 ∧ p.p2 = 0 ∧ p.p3 = 0 ∧ p.p4 = 0 ∧ p.p5 = 0xffff) ∧
    ¬ (p.p0 = 0 ∧ p.p1 = 0 ∧ p.p2 = 0 ∧ p.p3 = 0 ∧ p.p4 = 0xffff ∧ p.p5 = 0) ∧
    ¬ (p.p0 = 0x64 ∧ p.p1 = 0xff9b ∧ p.p2 = 0 ∧ p.p3 = 0 ∧ p.p4 = 0 ∧ p.p5 = 0)

theorem extract_of_outside (h : OutsideTables p) :
    extractEmbeddedIpv4FromIpv6 lib p =
      (EMBEDDED_IPV4_SENTINEL_RULES.find? fun rule => rule.matches_ p).map fun rule =>
        ofHextets (rule.toHextets p).1 (rule.toHextets p).2 := by
  have hmapped : lib.range6 p ≠ .ipv4Mapped := fun hrange => h.1 ((lib.range6_mapped p).mp hrange)
  have h6145 : lib.range6 p ≠ .rfc6145 := fun hrange => h.2.1 ((lib.range6_rfc6145 p).mp hrange)
  have h6052 : lib.range6 p ≠ .rfc6052 := fun hrange => h.2.2 ((lib.range6_rfc6052 p).mp hrange)
  rw [extractEmbeddedIpv4FromIpv6, if_neg hmapped, if_neg h6145, if_neg h6052]
  simp only [decode_eq]

theorem isIsatap_p5 (h : isIsatap p = true) : p.p5 = 0x5efe := by
  rw [isIsatap, Bool.and_eq_true] at h
  simpa using h.2

theorem isTeredo_eq (h : isTeredo p = true) : p.p0 = 0x2001 ∧ p.p1 = 0 := by
  simpa [isTeredo] using h

/-- What is held is what the first matching rule finds, or no rule looks for it. -/
theorem extract_or_unseen {address : IPv4} (h : Embeds p address) :
    extractEmbeddedIpv4FromIpv6 lib p = some address ∨
      HoldsUnseen p ∧ address = ofHextets p.p6 p.p7 := by
  cases h with
  | mapped h =>
      left
      rw [extractEmbeddedIpv4FromIpv6, if_pos ((lib.range6_mapped p).mpr h)]
  | translated h =>
      left
      rw [extractEmbeddedIpv4FromIpv6, (lib.range6_rfc6145 p).mpr h, if_neg (by decide),
        if_pos rfl, decode_eq]
  | nat64 h =>
      left
      rw [extractEmbeddedIpv4FromIpv6, (lib.range6_rfc6052 p).mpr h, if_neg (by decide),
        if_neg (by decide), if_pos rfl, decode_eq]
  | compatible h =>
      left
      have houtside : OutsideTables p := by simp [OutsideTables, h]
      rw [extract_of_outside houtside]
      simp [EMBEDDED_IPV4_SENTINEL_RULES, -Option.map_eq_some_iff, h]
  | sixToFour h =>
      left
      have houtside : OutsideTables p := by simp [OutsideTables, h]
      rw [extract_of_outside houtside]
      simp [EMBEDDED_IPV4_SENTINEL_RULES, -Option.map_eq_some_iff, h]
  | teredo h =>
      left
      have hteredo := isTeredo_eq h
      have houtside : OutsideTables p := by simp [OutsideTables, hteredo]
      rw [extract_of_outside houtside]
      simp [EMBEDDED_IPV4_SENTINEL_RULES, -Option.map_eq_some_iff, h, hteredo]
  | isatap h =>
      have hp5 := isIsatap_p5 h
      by_cases hseen : p.p0 = 0x2002 ∨ isTeredo p = true
      · exact Or.inr ⟨Or.inl ⟨hseen, h⟩, rfl⟩
      · left
        rw [not_or] at hseen
        have houtside : OutsideTables p := by simp [OutsideTables, hp5]
        rw [extract_of_outside houtside]
        simp [EMBEDDED_IPV4_SENTINEL_RULES, -Option.map_eq_some_iff, h, hp5, hseen]
  | nat64LocalUse h =>
      have houtside : OutsideTables p := by simp [OutsideTables, h]
      have hteredo : isTeredo p = false := by simp [isTeredo, h]
      by_cases hfirst : p.p3 = 0 ∧ p.p4 = 0 ∧ p.p5 = 0
      · left
        rw [extract_of_outside houtside]
        simp [EMBEDDED_IPV4_SENTINEL_RULES, -Option.map_eq_some_iff, h, hfirst]
      · cases hisatap : isIsatap p with
        | true =>
            left
            rw [extract_of_outside houtside]
            simp [EMBEDDED_IPV4_SENTINEL_RULES, -Option.map_eq_some_iff, h, isIsatap_p5 hisatap, hteredo, hisatap]
        | false => exact Or.inr ⟨Or.inr ⟨h, hfirst, hisatap⟩, rfl⟩

end Extraction

/-! ## What an address reaches -/

section Reaches

variable (lib : IpAddrLib) (options : SpecialUseOptions)

def HoldsSpecialUse : ParsedIpAddress → Prop
  | .ipv4 address => isBlockedSpecialUseIpv4Address lib options address = true
  | .ipv6 p =>
      isBlockedSpecialUseIpv6Address lib options p = true ∨
        ∃ address, Embeds p address ∧ isBlockedSpecialUseIpv4Address lib options address = true

def HidesSpecialUse : ParsedIpAddress → Prop
  | .ipv4 _ => False
  | .ipv6 p =>
      HoldsUnseen p ∧ isBlockedSpecialUseIpv4Address lib options (ofHextets p.p6 p.p7) = true

def isBlockedAddress : ParsedIpAddress → Bool
  | .ipv4 address => isBlockedSpecialUseIpv4Address lib options address
  | .ipv6 p =>
      isBlockedSpecialUseIpv6Address lib options p ||
        (extractEmbeddedIpv4FromIpv6 lib p).any (isBlockedSpecialUseIpv4Address lib options)

variable {lib options}

theorem holds_iff_hides {address : ParsedIpAddress}
    (h : isBlockedAddress lib options address = false) :
    HoldsSpecialUse lib options address ↔ HidesSpecialUse lib options address := by
  cases address with
  | ipv4 address =>
      rw [isBlockedAddress] at h
      simp [HoldsSpecialUse, HidesSpecialUse, h]
  | ipv6 p =>
      rw [isBlockedAddress, Bool.or_eq_false_iff] at h
      constructor
      · rintro (hblocked | ⟨address, hembeds, hspecial⟩)
        · rw [h.1] at hblocked
          exact absurd hblocked (by simp)
        · rcases extract_or_unseen hembeds with hextract | ⟨hunseen, haddress⟩
          · rw [hextract, Option.any_some, hspecial] at h
            exact absurd h.2 (by simp)
          · exact ⟨hunseen, haddress ▸ hspecial⟩
      · intro ⟨hunseen, hspecial⟩
        exact Or.inr ⟨_, embeds_of_holdsUnseen hunseen, hspecial⟩

end Reaches

end GreenchClaw.Net
