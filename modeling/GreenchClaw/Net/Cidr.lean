import GreenchClaw.Lib.BitStrings
import GreenchClaw.Lib.Fields
import GreenchClaw.Net.ClientIp

/-!
# Addresses in a block

`isIpInCidr` of `src/shared/net/ip.ts`: an address is compared with a block by its first bits, and an
IPv4-mapped address on either side is read as the IPv4 address.
-/

namespace GreenchClaw.Net

open GreenchClaw.Js BitStrings

/-! ## Bits of addresses -/

def IPv4.bits (address : IPv4) : List Bool :=
  bitsOf 8 address.a.toNat ++ bitsOf 8 address.b.toNat ++ bitsOf 8 address.c.toNat ++
    bitsOf 8 address.d.toNat

def IPv6.bits (p : IPv6) : List Bool :=
  bitsOf 16 p.p0.toNat ++ bitsOf 16 p.p1.toNat ++ bitsOf 16 p.p2.toNat ++ bitsOf 16 p.p3.toNat ++
    bitsOf 16 p.p4.toNat ++ bitsOf 16 p.p5.toNat ++ (bitsOf 16 p.p6.toNat ++ bitsOf 16 p.p7.toNat)

/-- `ipaddr.js` with the blocks that it parses and what its texts of addresses say. -/
structure CidrLib extends IpAddrTexts where
  /-- The address and the prefix length, unless `parseCIDR` throws. -/
  parseCidr : JsString → Option (ParsedIpAddress × ℕ)
  toString6_injective : Function.Injective toString6
  toString6_zone : ∀ p, unit '%' ∉ toString6 p

/-! ## The comparison -/

section Compare

variable (lib : CidrLib)

def zoneOf (raw : JsString) : JsString := zoneSuffix ((normalizeIpParseInput raw).getD [])

def sameAddress (zone otherZone : JsString) (address other : ParsedIpAddress) : Bool :=
  match address, other with
  | .ipv4 _, .ipv6 _ | .ipv6 _, .ipv4 _ => false
  | _, _ => addressText lib.toIpAddrTexts zone address = addressText lib.toIpAddrTexts otherZone other

def matchBlock (address base : ParsedIpAddress) (prefixLength : ℕ) : Bool :=
  match address, base with
  | .ipv4 address, .ipv4 base => address.bits.take prefixLength = base.bits.take prefixLength
  | .ipv6 address, .ipv6 base => address.bits.take prefixLength = base.bits.take prefixLength
  | _, _ => false

def isIpInCidr (ip cidr : JsString) : Bool :=
  match parseCanonicalIpAddress lib.toIpAddrLib ip with
  | none => false
  | some normalizedIp =>
      let candidate := trim cidr
      if candidate = [] then false
      else
        let comparableIp := normalizeIpv4MappedAddress lib.toIpAddrLib normalizedIp
        if candidate.contains (unit '/') = false then
          match parseCanonicalIpAddress lib.toIpAddrLib candidate with
          | none => false
          | some exact =>
              sameAddress lib (zoneOf ip) (zoneOf candidate) comparableIp
                (normalizeIpv4MappedAddress lib.toIpAddrLib exact)
        else
          match lib.parseCidr candidate with
          | none => false
          | some (baseAddress, prefixLength) =>
              matchBlock comparableIp (normalizeIpv4MappedAddress lib.toIpAddrLib baseAddress)
                prefixLength

end Compare

/-! ## Membership -/

/-- The first 96 bits of an IPv4-mapped address. -/
def mappedStart : List Bool := List.replicate 80 false ++ List.replicate 16 true

def ParsedIpAddress.bits128 : ParsedIpAddress → List Bool
  | .ipv4 address => mappedStart ++ address.bits
  | .ipv6 p => p.bits

def ParsedIpAddress.length128 (base : ParsedIpAddress) (prefixLength : ℕ) : ℕ :=
  match base with
  | .ipv4 _ => 96 + prefixLength
  | .ipv6 _ => prefixLength

def InBlock (address base : ParsedIpAddress) (prefixLength : ℕ) : Prop :=
  address.bits128.take (base.length128 prefixLength) = base.bits128.take (base.length128 prefixLength)

instance (address base : ParsedIpAddress) (prefixLength : ℕ) :
    Decidable (InBlock address base prefixLength) := inferInstanceAs (Decidable (_ = _))

inductive NamesBlock (lib : CidrLib) (cidr : JsString) : ParsedIpAddress → ℕ → Prop where
  | bare4 {base : IPv4} (hbare : (trim cidr).contains (unit '/') = false)
      (h : parseCanonicalIpAddress lib.toIpAddrLib (trim cidr) = some (.ipv4 base)) :
      NamesBlock lib cidr (.ipv4 base) 32
  | bare6 {base : IPv6} (hbare : (trim cidr).contains (unit '/') = false)
      (h : parseCanonicalIpAddress lib.toIpAddrLib (trim cidr) = some (.ipv6 base)) :
      NamesBlock lib cidr (.ipv6 base) 128
  | block {base : ParsedIpAddress} {prefixLength : ℕ} (hslash : (trim cidr).contains (unit '/') = true)
      (h : lib.parseCidr (trim cidr) = some (base, prefixLength)) :
      NamesBlock lib cidr base prefixLength

def IPv6.isMapped (p : IPv6) : Prop :=
  p.p0 = 0 ∧ p.p1 = 0 ∧ p.p2 = 0 ∧ p.p3 = 0 ∧ p.p4 = 0 ∧ p.p5 = 0xffff

instance (p : IPv6) : Decidable p.isMapped := inferInstanceAs (Decidable (_ ∧ _))

section Bits

theorem length_bits4 (address : IPv4) : address.bits.length = 32 := by
  simp [IPv4.bits]

theorem length_bits6 (p : IPv6) : p.bits.length = 128 := by
  simp [IPv6.bits]

theorem octet_bits_injective {first second : UInt8}
    (h : bitsOf 8 first.toNat = bitsOf 8 second.toNat) : first = second :=
  UInt8.toNat_inj.mp (bitsOf_injective first.toNat_lt second.toNat_lt h)

theorem hextet_bits_injective {first second : UInt16}
    (h : bitsOf 16 first.toNat = bitsOf 16 second.toNat) : first = second :=
  UInt16.toNat_inj.mp (bitsOf_injective first.toNat_lt second.toNat_lt h)

theorem bits4_injective {first second : IPv4} (h : first.bits = second.bits) : first = second := by
  simp only [IPv4.bits, List.append_assoc] at h
  obtain ⟨ha, h⟩ := List.append_inj h (by simp)
  obtain ⟨hb, h⟩ := List.append_inj h (by simp)
  obtain ⟨hc, hd⟩ := List.append_inj h (by simp)
  obtain ⟨a, b, c, d⟩ := first
  rw [IPv4.mk.injEq]
  exact ⟨octet_bits_injective ha, octet_bits_injective hb, octet_bits_injective hc,
    octet_bits_injective hd⟩

theorem bits6_injective {first second : IPv6} (h : first.bits = second.bits) : first = second := by
  simp only [IPv6.bits, List.append_assoc] at h
  obtain ⟨h0, h⟩ := List.append_inj h (by simp)
  obtain ⟨h1, h⟩ := List.append_inj h (by simp)
  obtain ⟨h2, h⟩ := List.append_inj h (by simp)
  obtain ⟨h3, h⟩ := List.append_inj h (by simp)
  obtain ⟨h4, h⟩ := List.append_inj h (by simp)
  obtain ⟨h5, h⟩ := List.append_inj h (by simp)
  obtain ⟨h6, h7⟩ := List.append_inj h (by simp)
  obtain ⟨p0, p1, p2, p3, p4, p5, p6, p7⟩ := first
  rw [IPv6.mk.injEq]
  exact ⟨hextet_bits_injective h0, hextet_bits_injective h1, hextet_bits_injective h2,
    hextet_bits_injective h3, hextet_bits_injective h4, hextet_bits_injective h5,
    hextet_bits_injective h6, hextet_bits_injective h7⟩

theorem hextet_bits (hextet : UInt16) :
    bitsOf 16 hextet.toNat = bitsOf 8 (hextet >>> 8).toUInt8.toNat ++ bitsOf 8 hextet.toUInt8.toNat := by
  have hsplit := bitsOf_add 8 8 hextet.toNat
  have hhigh : (hextet >>> 8).toUInt8.toNat = hextet.toNat / 2 ^ 8 := by
    have hlt := hextet.toNat_lt
    rw [UInt16.toNat_toUInt8, UInt16.toNat_shiftRight]
    show hextet.toNat >>> 8 % 2 ^ 8 = _
    rw [Nat.shiftRight_eq_div_pow]
    omega
  rw [hhigh, UInt16.toNat_toUInt8]
  exact hsplit

theorem bits6_of_mapped {p : IPv6} (h : p.isMapped) :
    p.bits = mappedStart ++ (ofHextets p.p6 p.p7).bits := by
  obtain ⟨h0, h1, h2, h3, h4, h5⟩ := h
  have hstart : bitsOf 16 (0 : UInt16).toNat ++ bitsOf 16 (0 : UInt16).toNat ++
      bitsOf 16 (0 : UInt16).toNat ++ bitsOf 16 (0 : UInt16).toNat ++ bitsOf 16 (0 : UInt16).toNat ++
        bitsOf 16 (0xffff : UInt16).toNat = mappedStart := by decide
  rw [IPv6.bits, h0, h1, h2, h3, h4, h5, hstart, hextet_bits p.p6, hextet_bits p.p7, IPv4.bits, ofHextets]
  simp only [List.append_assoc]

theorem mapped_of_take {p : IPv6} (h : p.bits.take 96 = mappedStart) : p.isMapped := by
  have hfront : p.bits.take 96 = bitsOf 16 p.p0.toNat ++ bitsOf 16 p.p1.toNat ++ bitsOf 16 p.p2.toNat ++
      bitsOf 16 p.p3.toNat ++ bitsOf 16 p.p4.toNat ++ bitsOf 16 p.p5.toNat := by
    rw [IPv6.bits]
    apply List.take_left'
    simp
  have hsame : p.bits = (IPv6.mk 0 0 0 0 0 0xffff p.p6 p.p7).bits := by
    have hmapped := @bits6_of_mapped ⟨0, 0, 0, 0, 0, 0xffff, p.p6, p.p7⟩ ⟨rfl, rfl, rfl, rfl, rfl, rfl⟩
    have hrest : p.bits.drop 96 = bitsOf 16 p.p6.toNat ++ bitsOf 16 p.p7.toNat := by
      rw [IPv6.bits]
      apply List.drop_left'
      simp
    rw [hmapped, ← List.take_append_drop 96 p.bits, h, hrest, hextet_bits p.p6, hextet_bits p.p7,
      IPv4.bits, ofHextets]
    simp only [List.append_assoc]
  have heq := bits6_injective hsame
  rw [heq]
  exact ⟨rfl, rfl, rfl, rfl, rfl, rfl⟩

end Bits

/-! ## When the answer is that of the bits -/

def BlockAnswered (lib : CidrLib) (address base : ParsedIpAddress) (prefixLength : ℕ) : Prop :=
  match normalizeIpv4MappedAddress lib.toIpAddrLib address, base with
  | _, .ipv4 _ => True
  | .ipv4 x, .ipv6 q =>
      if q.isMapped then
        if 96 ≤ prefixLength then
          x = ofHextets q.p6 q.p7 ∨
            x.bits.take (prefixLength - 96) ≠ (ofHextets q.p6 q.p7).bits.take (prefixLength - 96)
        else x.bits.take prefixLength = (ofHextets q.p6 q.p7).bits.take prefixLength
      else ¬InBlock address base prefixLength
  | .ipv6 _, .ipv6 q => q.isMapped → ¬InBlock address base prefixLength

def AnsweredExactly (lib : CidrLib) (ip cidr : JsString) (address base : ParsedIpAddress)
    (prefixLength : ℕ) : Prop :=
  BlockAnswered lib address base prefixLength ∧
    ∀ p : IPv6, (trim cidr).contains (unit '/') = false → ¬p.isMapped → address = .ipv6 p →
      base = .ipv6 p → zoneOf ip = zoneOf (trim cidr)

section Answer

variable {lib : CidrLib}

theorem normalize_of_mapped {p : IPv6} (h : p.isMapped) :
    normalizeIpv4MappedAddress lib.toIpAddrLib (.ipv6 p) = .ipv4 (ofHextets p.p6 p.p7) := by
  rw [normalizeIpv4MappedAddress, if_pos ((lib.range6_mapped p).mpr h)]

theorem normalize_of_not_mapped {p : IPv6} (h : ¬p.isMapped) :
    normalizeIpv4MappedAddress lib.toIpAddrLib (.ipv6 p) = .ipv6 p := by
  rw [normalizeIpv4MappedAddress, if_neg (fun hrange => h ((lib.range6_mapped p).mp hrange))]

theorem normalize_cases (address : ParsedIpAddress) :
    (∃ x, normalizeIpv4MappedAddress lib.toIpAddrLib address = .ipv4 x ∧
        address.bits128 = mappedStart ++ x.bits) ∨
      ∃ p : IPv6, address = .ipv6 p ∧ ¬p.isMapped := by
  cases address with
  | ipv4 x => exact Or.inl ⟨x, rfl, rfl⟩
  | ipv6 p =>
      by_cases h : p.isMapped
      · exact Or.inl ⟨ofHextets p.p6 p.p7, normalize_of_mapped h, bits6_of_mapped h⟩
      · exact Or.inr ⟨p, rfl, h⟩

theorem take_mapped (bits : List Bool) (more : ℕ) :
    (mappedStart ++ bits).take (96 + more) = mappedStart ++ bits.take more := by
  have hlength : mappedStart.length = 96 := by decide
  rw [List.take_append, hlength, List.take_of_length_le (by omega), Nat.add_sub_cancel_left]

theorem take_mapped_short {bits : List Bool} {prefixLength : ℕ} (h : prefixLength ≤ 96) :
    (mappedStart ++ bits).take prefixLength = mappedStart.take prefixLength := by
  have hlength : mappedStart.length = 96 := by decide
  exact List.take_append_of_le_length (by omega)

theorem not_take_mapped {p : IPv6} (h : ¬p.isMapped) (bits : List Bool) {prefixLength : ℕ}
    (hlong : 96 ≤ prefixLength) :
    p.bits.take prefixLength ≠ (mappedStart ++ bits).take prefixLength := by
  intro heq
  apply h
  apply mapped_of_take
  have htake := congrArg (List.take 96) heq
  rw [List.take_take, List.take_take, Nat.min_eq_left hlong, take_mapped_short (Nat.le_refl 96)] at htake
  rw [htake]
  decide

theorem take_32 (address : IPv4) {n : ℕ} (h : 32 ≤ n) : address.bits.take n = address.bits :=
  List.take_of_length_le (by rw [length_bits4]; exact h)

/-- IPv4 addresses agree in the first bits of their mapped forms as they do in their own. -/
theorem take_mapped_iff (x y : IPv4) (n : ℕ) :
    (mappedStart ++ x.bits).take (96 + n) = (mappedStart ++ y.bits).take (96 + n) ↔
      x.bits.take n = y.bits.take n := by
  rw [take_mapped, take_mapped, List.append_cancel_left_eq]

/-- A mapped base with the prefix length of its IPv6 form, compared as an IPv4 address. -/
theorem mapped_answer_iff (x y : IPv4) (prefixLength : ℕ) :
    ((x.bits.take prefixLength = y.bits.take prefixLength) ↔
        (mappedStart ++ x.bits).take prefixLength = (mappedStart ++ y.bits).take prefixLength) ↔
      if 96 ≤ prefixLength then
        x = y ∨ x.bits.take (prefixLength - 96) ≠ y.bits.take (prefixLength - 96)
      else x.bits.take prefixLength = y.bits.take prefixLength := by
  by_cases hlong : 96 ≤ prefixLength
  · obtain ⟨n, rfl⟩ := Nat.exists_eq_add_of_le hlong
    have hwhole : x.bits.take (96 + n) = y.bits.take (96 + n) ↔ x = y := by
      rw [take_32 x (by omega), take_32 y (by omega)]
      exact ⟨bits4_injective, congrArg IPv4.bits⟩
    rw [if_pos hlong, take_mapped_iff, hwhole, Nat.add_sub_cancel_left]
    by_cases heq : x = y
    · rw [heq]
      simp
    · simp [heq]
  · rw [if_neg hlong, take_mapped_short (by omega), take_mapped_short (by omega)]
    simp

theorem matchBlock_iff (address base : ParsedIpAddress) (prefixLength : ℕ) :
    ((matchBlock (normalizeIpv4MappedAddress lib.toIpAddrLib address)
          (normalizeIpv4MappedAddress lib.toIpAddrLib base) prefixLength = true) ↔
        InBlock address base prefixLength) ↔ BlockAnswered lib address base prefixLength := by
  cases base with
  | ipv4 y =>
      apply iff_of_true _ trivial
      rcases @normalize_cases lib address with ⟨x, hx, hbits⟩ | ⟨p, rfl, hp⟩
      · rw [hx, normalizeIpv4MappedAddress, matchBlock, decide_eq_true_eq, InBlock, hbits]
        exact (take_mapped_iff x y prefixLength).symm
      · rw [normalize_of_not_mapped hp]
        apply iff_of_false Bool.false_ne_true
        exact not_take_mapped hp y.bits (by simp [ParsedIpAddress.length128])
  | ipv6 q =>
      by_cases hq : q.isMapped
      · have hbase := bits6_of_mapped hq
        rw [normalize_of_mapped hq]
        rcases @normalize_cases lib address with ⟨x, hx, hbits⟩ | ⟨p, rfl, hp⟩
        · have hblock : InBlock address (.ipv6 q) prefixLength ↔
              (mappedStart ++ x.bits).take prefixLength =
                (mappedStart ++ (ofHextets q.p6 q.p7).bits).take prefixLength := by
            rw [InBlock, hbits, ← hbase]
            rfl
          simp only [BlockAnswered, hx, matchBlock, decide_eq_true_eq, hblock, if_pos hq]
          exact mapped_answer_iff x (ofHextets q.p6 q.p7) prefixLength
        · simp only [BlockAnswered, normalize_of_not_mapped hp, matchBlock, hq, true_imp_iff,
            Bool.false_eq_true, false_iff]
      · rw [normalize_of_not_mapped hq]
        rcases @normalize_cases lib address with ⟨x, hx, hbits⟩ | ⟨p, rfl, hp⟩
        · simp only [BlockAnswered, hx, matchBlock, if_neg hq, Bool.false_eq_true, false_iff]
        · simp only [BlockAnswered, normalize_of_not_mapped hp, matchBlock, decide_eq_true_eq, hq,
            false_imp_iff, iff_true]
          exact Iff.rfl

theorem addressText6_inj {p q : IPv6} {zone otherZone : JsString}
    (hzone : zone = [] ∨ zone.head? = some (unit '%'))
    (hother : otherZone = [] ∨ otherZone.head? = some (unit '%'))
    (h : lib.toString6 p ++ zone = lib.toString6 q ++ otherZone) : p = q ∧ zone = otherZone := by
  have hstart : ∀ (r : IPv6) (zone : JsString), zone = [] ∨ zone.head? = some (unit '%') →
      (lib.toString6 r ++ zone).takeWhile (fun u => u ≠ unit '%') = lib.toString6 r := by
    intro r zone hzone
    have hall : ∀ u ∈ lib.toString6 r, decide (u ≠ unit '%') = true := by
      intro u hu
      apply decide_eq_true
      intro heq
      exact lib.toString6_zone r (heq ▸ hu)
    rw [List.takeWhile_append_of_pos hall]
    have hnil : zone.takeWhile (fun u => u ≠ unit '%') = [] := by
      cases zone with
      | nil => rfl
      | cons u rest =>
          have hu : u = unit '%' := by
            cases hzone with
            | inl hnil => exact absurd hnil (List.cons_ne_nil _ _)
            | inr hhead => exact Option.some.inj hhead
          rw [List.takeWhile_cons_of_neg]
          simp [hu]
    rw [hnil, List.append_nil]
  have hsame : lib.toString6 p = lib.toString6 q := by
    rw [← hstart p zone hzone, h, hstart q otherZone hother]
  rw [hsame, List.append_cancel_left_eq] at h
  exact ⟨lib.toString6_injective hsame, h⟩

theorem zoneOf_head (raw : JsString) : zoneOf raw = [] ∨ (zoneOf raw).head? = some (unit '%') := by
  rw [zoneOf, zoneSuffix]
  cases hzone : ((normalizeIpParseInput raw).getD []).dropWhile fun u => u ≠ unit '%' with
  | nil => exact Or.inl rfl
  | cons u rest =>
      have hfirst := List.head?_dropWhile_not (fun u => decide (u ≠ unit '%'))
        ((normalizeIpParseInput raw).getD [])
      rw [hzone] at hfirst
      right
      simpa using hfirst

theorem sameAddress_ipv4 (zone otherZone : JsString) (x y : IPv4) :
    sameAddress lib zone otherZone (.ipv4 x) (.ipv4 y) = true ↔ x = y := by
  have htext : sameAddress lib zone otherZone (.ipv4 x) (.ipv4 y) = decide (dotted x = dotted y) := rfl
  rw [htext, decide_eq_true_eq]
  constructor
  · intro heq
    rw [← parseDotted_dotted x, heq, parseDotted_dotted]
  · exact fun heq => congrArg dotted heq

theorem sameAddress_ipv6 (zone otherZone : JsString) (p q : IPv6) :
    sameAddress lib zone otherZone (.ipv6 p) (.ipv6 q) = true ↔
      lib.toString6 p ++ zone = lib.toString6 q ++ otherZone :=
  decide_eq_true_iff

theorem sameAddress_iff {address base : ParsedIpAddress} {zone otherZone : JsString}
    (hzone : zone = [] ∨ zone.head? = some (unit '%'))
    (hother : otherZone = [] ∨ otherZone.head? = some (unit '%')) :
    ((sameAddress lib zone otherZone (normalizeIpv4MappedAddress lib.toIpAddrLib address)
          (normalizeIpv4MappedAddress lib.toIpAddrLib base) = true) ↔ address.bits128 = base.bits128) ↔
      ∀ p : IPv6, ¬p.isMapped → address = .ipv6 p → base = .ipv6 p → zone = otherZone := by
  rcases @normalize_cases lib address with ⟨x, hx, hbits⟩ | ⟨p, rfl, hp⟩
  · have hno : ∀ p : IPv6, ¬p.isMapped → address = .ipv6 p → base = .ipv6 p → zone = otherZone := by
      intro p hp heq
      rw [heq, normalize_of_not_mapped hp] at hx
      exact absurd hx (by simp)
    rw [iff_true_right hno, hx, hbits]
    rcases @normalize_cases lib base with ⟨y, hy, hbase⟩ | ⟨q, rfl, hq⟩
    · rw [hy, hbase, List.append_cancel_left_eq, sameAddress_ipv4]
      exact ⟨congrArg IPv4.bits, bits4_injective⟩
    · rw [normalize_of_not_mapped hq]
      apply iff_of_false Bool.false_ne_true
      exact fun heq => not_take_mapped hq x.bits (Nat.le_refl 96) (congrArg (List.take 96) heq.symm)
  · rw [normalize_of_not_mapped hp]
    rcases @normalize_cases lib base with ⟨y, hy, hbase⟩ | ⟨q, rfl, hq⟩
    · have hno : ∀ r : IPv6, ¬r.isMapped → ParsedIpAddress.ipv6 p = .ipv6 r → base = .ipv6 r →
          zone = otherZone := by
        intro r hr _ heq
        rw [heq, normalize_of_not_mapped hr] at hy
        exact absurd hy (by simp)
      rw [iff_true_right hno, hy, hbase]
      apply iff_of_false Bool.false_ne_true
      exact fun heq => not_take_mapped hp y.bits (Nat.le_refl 96) (congrArg (List.take 96) heq)
    · rw [normalize_of_not_mapped hq, sameAddress_ipv6]
      change (_ ↔ p.bits = q.bits) ↔ _
      by_cases heq : p = q
      · rw [heq, List.append_cancel_left_eq, iff_true_right rfl]
        constructor
        · exact fun h _ _ _ _ => h
        · exact fun h => h q hq rfl rfl
      · apply iff_of_true
        · apply iff_of_false
          · exact fun htext => heq (addressText6_inj hzone hother htext).1
          · exact fun hbits => heq (bits6_injective hbits)
        · intro r _ hr hbase
          rw [ParsedIpAddress.ipv6.injEq] at hr hbase
          exact absurd (hr.trans hbase.symm) heq

theorem length_bits128 (address : ParsedIpAddress) : address.bits128.length = 128 := by
  cases address with
  | ipv4 x => rw [ParsedIpAddress.bits128, List.length_append, length_bits4]; rfl
  | ipv6 p => exact length_bits6 p

theorem inBlock_full (address base : ParsedIpAddress) {prefixLength : ℕ}
    (h : base.length128 prefixLength = 128) :
    InBlock address base prefixLength ↔ address.bits128 = base.bits128 := by
  rw [InBlock, h, List.take_of_length_le (length_bits128 address).le,
    List.take_of_length_le (length_bits128 base).le]

theorem blockAnswered_full (address : ParsedIpAddress) (q : IPv6) :
    BlockAnswered lib address (.ipv6 q) 128 := by
  rw [← matchBlock_iff, inBlock_full address (.ipv6 q) rfl]
  rcases @normalize_cases lib address with ⟨x, hx, hbits⟩ | ⟨p, rfl, hp⟩
  · rw [hx, hbits]
    rcases @normalize_cases lib (.ipv6 q) with ⟨y, hy, hbase⟩ | ⟨r, hr, hq⟩
    · rw [hy, hbase, List.append_cancel_left_eq, matchBlock, decide_eq_true_eq,
        take_32 x (by omega), take_32 y (by omega)]
    · rw [hr, normalize_of_not_mapped hq]
      apply iff_of_false Bool.false_ne_true
      exact fun heq => not_take_mapped hq x.bits (Nat.le_refl 96) (congrArg (List.take 96) heq.symm)
  · rw [normalize_of_not_mapped hp]
    rcases @normalize_cases lib (.ipv6 q) with ⟨y, hy, hbase⟩ | ⟨r, hr, hq⟩
    · rw [hy, hbase]
      apply iff_of_false Bool.false_ne_true
      exact fun heq => not_take_mapped hp y.bits (Nat.le_refl 96) (congrArg (List.take 96) heq)
    · rw [hr, normalize_of_not_mapped hq, matchBlock, decide_eq_true_eq,
        List.take_of_length_le (length_bits6 p).le, List.take_of_length_le (length_bits6 r).le]
      rfl

theorem isIpInCidr_bare {ip cidr : JsString} {address base : ParsedIpAddress}
    (haddress : parseCanonicalIpAddress lib.toIpAddrLib ip = some address)
    (hbare : (trim cidr).contains (unit '/') = false)
    (hbase : parseCanonicalIpAddress lib.toIpAddrLib (trim cidr) = some base) :
    isIpInCidr lib ip cidr =
      sameAddress lib (zoneOf ip) (zoneOf (trim cidr))
        (normalizeIpv4MappedAddress lib.toIpAddrLib address)
        (normalizeIpv4MappedAddress lib.toIpAddrLib base) := by
  have hne : trim cidr ≠ [] := by
    intro hnil
    rw [hnil] at hbase
    have hnone : parseCanonicalIpAddress lib.toIpAddrLib [] = none := rfl
    exact absurd (hnone.symm.trans hbase) (by simp)
  rw [isIpInCidr, haddress]
  simp only [if_neg hne, if_pos hbare, hbase]

theorem isIpInCidr_block {ip cidr : JsString} {address base : ParsedIpAddress} {prefixLength : ℕ}
    (haddress : parseCanonicalIpAddress lib.toIpAddrLib ip = some address)
    (hslash : (trim cidr).contains (unit '/') = true)
    (hblock : lib.parseCidr (trim cidr) = some (base, prefixLength)) :
    isIpInCidr lib ip cidr =
      matchBlock (normalizeIpv4MappedAddress lib.toIpAddrLib address)
        (normalizeIpv4MappedAddress lib.toIpAddrLib base) prefixLength := by
  have hne : trim cidr ≠ [] := by
    intro hnil
    rw [hnil] at hslash
    exact absurd hslash (by simp)
  have hbare : ¬(trim cidr).contains (unit '/') = false := by
    rw [hslash]
    simp
  rw [isIpInCidr, haddress]
  simp only [if_neg hne, if_neg hbare, hblock]

end Answer

/-- For an address and a block that parse, the answer is that of the bits exactly when a mapped base is not
misread and bare IPv6 addresses have the same zone. -/
theorem isIpInCidr_iff (lib : CidrLib) (ip cidr : JsString) (address base : ParsedIpAddress)
    (prefixLength : ℕ) (haddress : parseCanonicalIpAddress lib.toIpAddrLib ip = some address)
    (hblock : NamesBlock lib cidr base prefixLength) :
    (isIpInCidr lib ip cidr = true ↔ InBlock address base prefixLength) ↔
      AnsweredExactly lib ip cidr address base prefixLength := by
  rw [AnsweredExactly]
  cases hblock with
  | @bare4 base hbare hbase =>
      rw [isIpInCidr_bare haddress hbare hbase, inBlock_full address (.ipv4 base) rfl,
        sameAddress_iff (zoneOf_head ip) (zoneOf_head (trim cidr))]
      simp [BlockAnswered]
  | @bare6 base hbare hbase =>
      rw [isIpInCidr_bare haddress hbare hbase, inBlock_full address (.ipv6 base) rfl,
        sameAddress_iff (zoneOf_head ip) (zoneOf_head (trim cidr)),
        and_iff_right (blockAnswered_full address base)]
      exact forall_congr' fun p => (imp_iff_right hbare).symm
  | block hslash hblock =>
      rw [isIpInCidr_block haddress hslash hblock, matchBlock_iff]
      apply (and_iff_left _).symm
      intro p hbare
      rw [hslash] at hbare
      exact absurd hbare (by simp)

section Samples

def bitsText (p : IPv6) : JsString := p.bits.map fun bit => if bit then unit '1' else unit '0'

theorem bitsText_injective : Function.Injective bitsText := by
  intro p q h
  apply bits6_injective
  apply List.map_injective_iff.mpr _ h
  intro first second heq
  cases first <;> cases second <;> first | rfl | exact absurd heq (by decide)

theorem bitsText_unit {p : IPv6} {u : CodeUnit} (h : u ∈ bitsText p) : u = unit '1' ∨ u = unit '0' := by
  obtain ⟨bit, -, rfl⟩ := List.mem_map.mp h
  cases bit with
  | true => exact Or.inl rfl
  | false => exact Or.inr rfl

def mappedTen : IPv6 := ⟨0, 0, 0, 0, 0, 0xffff, 0x0a00, 0⟩

/-- A library that knows the IPv4 addresses and two blocks. -/
def sampleCidrs : CidrLib where
  toIpAddrLib := sampleTexts.toIpAddrLib
  toString6 := bitsText
  isValidFourPartDecimal_dotted := sampleTexts.isValidFourPartDecimal_dotted
  isValidFourPartDecimal_units := sampleTexts.isValidFourPartDecimal_units
  isValidFourPartDecimal_lower := sampleTexts.isValidFourPartDecimal_lower
  isValid4_lower := sampleTexts.isValid4_lower
  isValid6_lower := sampleTexts.isValid6_lower
  parse6_lower := sampleTexts.parse6_lower
  toString6_units := by
    intro p u hu
    cases bitsText_unit hu with
    | inl heq => rw [heq]; decide
    | inr heq => rw [heq]; decide
  toString6_ne_nil := by
    intro p hnil
    have hlength := congrArg List.length hnil
    rw [bitsText, List.length_map, length_bits6] at hlength
    exact absurd hlength (by simp)
  parseCidr := fun text =>
    if text = js "10.0.0.0/8" then some (.ipv4 ⟨10, 0, 0, 0⟩, 8)
    else if text = js "::ffff:10.0.0.0/104" then some (.ipv6 mappedTen, 104)
    else none
  toString6_injective := bitsText_injective
  toString6_zone := by
    intro p hmem
    cases bitsText_unit hmem with
    | inl heq => exact absurd heq (by decide)
    | inr heq => exact absurd heq (by decide)

theorem isIpInCidr_iff_block :
    (isIpInCidr sampleCidrs (js "10.1.2.3") (js "10.0.0.0/8") = true ↔
        InBlock (.ipv4 ⟨10, 1, 2, 3⟩) (.ipv4 ⟨10, 0, 0, 0⟩) 8) ↔
      AnsweredExactly sampleCidrs (js "10.1.2.3") (js "10.0.0.0/8") (.ipv4 ⟨10, 1, 2, 3⟩)
        (.ipv4 ⟨10, 0, 0, 0⟩) 8 :=
  isIpInCidr_iff sampleCidrs (js "10.1.2.3") (js "10.0.0.0/8") (.ipv4 ⟨10, 1, 2, 3⟩)
    (.ipv4 ⟨10, 0, 0, 0⟩) 8 (by decide +kernel) (.block (by decide +kernel) (by decide +kernel))

/-- `10.1.2.3` is in the block of the mapped `10.0.0.0/8`, which is compared with 104 bits of 32. -/
theorem mapped_block_missed :
    parseCanonicalIpAddress sampleCidrs.toIpAddrLib (js "10.1.2.3") = some (.ipv4 ⟨10, 1, 2, 3⟩) ∧
      NamesBlock sampleCidrs (js "::ffff:10.0.0.0/104") (.ipv6 mappedTen) 104 ∧
      InBlock (.ipv4 ⟨10, 1, 2, 3⟩) (.ipv6 mappedTen) 104 ∧
      isIpInCidr sampleCidrs (js "10.1.2.3") (js "::ffff:10.0.0.0/104") = false :=
  ⟨by decide +kernel, .block (by decide +kernel) (by decide +kernel), by decide +kernel,
    by decide +kernel⟩

end Samples

end GreenchClaw.Net
