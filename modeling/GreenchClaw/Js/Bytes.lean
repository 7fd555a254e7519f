import GreenchClaw.Js.Text
import Mathlib.Data.List.Infix

/-!
# Strings as bytes

The UTF-8 bytes of a string.
-/

namespace GreenchClaw.Js

def isHighSurrogate (u : CodeUnit) : Bool := 0xD800 ≤ u && u ≤ 0xDBFF

def isLowSurrogate (u : CodeUnit) : Bool := 0xDC00 ≤ u && u ≤ 0xDFFF

def isAscii (u : CodeUnit) : Bool := u < 0x80

theorem isAscii_not_surrogate {u : CodeUnit} (h : isAscii u = true) :
    isHighSurrogate u = false ∧ isLowSurrogate u = false := by
  simp only [isAscii, decide_eq_true_eq] at h
  simp only [isHighSurrogate, isLowSurrogate, Bool.and_eq_false_iff, decide_eq_false_iff_not,
    UInt16.not_le]
  rw [UInt16.lt_iff_toNat_lt] at h
  constructor
  · left
    rw [UInt16.lt_iff_toNat_lt]
    exact lt_trans h (by decide)
  · left
    rw [UInt16.lt_iff_toNat_lt]
    exact lt_trans h (by decide)

def codePointBytes (c : ℕ) : List UInt8 :=
  if c < 0x80 then [UInt8.ofNat c]
  else if c < 0x800 then [UInt8.ofNat (0xC0 + c / 64), UInt8.ofNat (0x80 + c % 64)]
  else if c < 0x10000 then
    [UInt8.ofNat (0xE0 + c / 4096), UInt8.ofNat (0x80 + c / 64 % 64), UInt8.ofNat (0x80 + c % 64)]
  else
    [UInt8.ofNat (0xF0 + c / 262144), UInt8.ofNat (0x80 + c / 4096 % 64),
      UInt8.ofNat (0x80 + c / 64 % 64), UInt8.ofNat (0x80 + c % 64)]

def utf8Encode : JsString → List UInt8
  | [] => []
  | [u] => codePointBytes (if isHighSurrogate u || isLowSurrogate u then 0xFFFD else u.toNat)
  | u :: v :: rest =>
      if isHighSurrogate u then
        if isLowSurrogate v then
          codePointBytes (0x10000 + (u.toNat - 0xD800) * 0x400 + (v.toNat - 0xDC00)) ++
            utf8Encode rest
        else codePointBytes 0xFFFD ++ utf8Encode (v :: rest)
      else if isLowSurrogate u then codePointBytes 0xFFFD ++ utf8Encode (v :: rest)
      else codePointBytes u.toNat ++ utf8Encode (v :: rest)

example : utf8Encode [0x20AC, 0xD83D, 0xDE00] = [0xE2, 0x82, 0xAC, 0xF0, 0x9F, 0x98, 0x80] := by
  decide

end GreenchClaw.Js
