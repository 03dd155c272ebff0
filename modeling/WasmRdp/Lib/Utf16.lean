import Mathlib.Data.List.Basic

/-!
# UTF-16

Encoding, and the lossy decoding that puts `U+FFFD` for every unpaired
surrogate. Decoding what was encoded gives it back (`decodeLossy_encode`).

A character is one unit or a pair of surrogates, and the ranges of the two
halves are disjoint from each other and from every unit that stands alone;
`toNat_range` is what the character type says about that. So decoding a
unit that is no first half takes just that unit
(`decodeLossy_cons_of_not_lead`), and the proof for one character,
`decodeLossy_encodeChar`, is the two cases of the encoding.
-/

namespace Utf16

def replacement : Char := '\uFFFD'

/-- The first half of a surrogate pair. -/
def isLead (u : UInt16) : Bool := 0xD800 ≤ u && u ≤ 0xDBFF

/-- The second half of a surrogate pair. -/
def isTrail (u : UInt16) : Bool := 0xDC00 ≤ u && u ≤ 0xDFFF

/-- The character of a unit that stands alone. -/
def ofUnit (u : UInt16) : Char :=
  if isLead u || isTrail u then replacement else Char.ofNat u.toNat

def ofPair (u v : UInt16) : Char :=
  Char.ofNat (0x10000 + (u.toNat % 1024) * 1024 + v.toNat % 1024)

/-- Lossy decoding. -/
def decodeLossy : List UInt16 → List Char
  | [] => []
  | [u] => [ofUnit u]
  | u :: v :: us =>
      if isLead u && isTrail v then ofPair u v :: decodeLossy us
      else ofUnit u :: decodeLossy (v :: us)

def encodeChar (c : Char) : List UInt16 :=
  if c.toNat < 0x10000 then [UInt16.ofNat c.toNat]
  else [UInt16.ofNat (0xD800 + (c.toNat - 0x10000) / 1024),
    UInt16.ofNat (0xDC00 + (c.toNat - 0x10000) % 1024)]

def encode (s : List Char) : List UInt16 := s.flatMap encodeChar

theorem decodeLossy_cons_of_not_lead {u : UInt16} (h : isLead u = false)
    (us : List UInt16) : decodeLossy (u :: us) = ofUnit u :: decodeLossy us := by
  cases us with
  | nil => rfl
  | cons v us => rw [decodeLossy, h, Bool.false_and, if_neg Bool.false_ne_true]

/-- The range of a character: not a surrogate, and at most `0x10FFFF`. -/
theorem toNat_range (c : Char) : (c.toNat < 0xD800 ∨ 0xDFFF < c.toNat) ∧
    c.toNat < 0x110000 := by
  have h : c.toNat < 0xD800 ∨ 0xDFFF < c.toNat ∧ c.toNat < 0x110000 := c.valid
  omega

theorem decodeLossy_encodeChar (c : Char) (us : List UInt16) :
    decodeLossy (encodeChar c ++ us) = c :: decodeLossy us := by
  obtain ⟨hrange, hmax⟩ := toNat_range c
  have hsurr : ∀ u : UInt16, isLead u = decide (0xD800 ≤ u.toNat ∧ u.toNat ≤ 0xDBFF) ∧
      isTrail u = decide (0xDC00 ≤ u.toNat ∧ u.toNat ≤ 0xDFFF) := by
    intro u
    simp only [isLead, isTrail, UInt16.le_iff_toNat_le, Bool.decide_and]
    exact ⟨rfl, rfl⟩
  rw [encodeChar]
  split
  · rename_i hbmp
    have hnat : (UInt16.ofNat c.toNat).toNat = c.toNat := by
      rw [UInt16.toNat_ofNat']
      omega
    have hlead : isLead (UInt16.ofNat c.toNat) = false := by
      rw [(hsurr _).1, hnat]
      exact decide_eq_false (by omega)
    have htrail : isTrail (UInt16.ofNat c.toNat) = false := by
      rw [(hsurr _).2, hnat]
      exact decide_eq_false (by omega)
    rw [List.singleton_append, decodeLossy_cons_of_not_lead hlead, ofUnit, hlead,
      htrail, hnat, Char.ofNat_toNat]
    rfl
  · have hhi : (UInt16.ofNat (0xD800 + (c.toNat - 0x10000) / 1024)).toNat =
        0xD800 + (c.toNat - 0x10000) / 1024 := by
      rw [UInt16.toNat_ofNat']
      omega
    have hlo : (UInt16.ofNat (0xDC00 + (c.toNat - 0x10000) % 1024)).toNat =
        0xDC00 + (c.toNat - 0x10000) % 1024 := by
      rw [UInt16.toNat_ofNat']
      omega
    have hpair : (isLead (UInt16.ofNat (0xD800 + (c.toNat - 0x10000) / 1024)) &&
        isTrail (UInt16.ofNat (0xDC00 + (c.toNat - 0x10000) % 1024))) = true := by
      rw [(hsurr _).1, (hsurr _).2, hhi, hlo, Bool.and_eq_true]
      exact ⟨decide_eq_true (by omega), decide_eq_true (by omega)⟩
    rw [List.cons_append, List.singleton_append, decodeLossy, if_pos hpair, ofPair,
      hhi, hlo]
    have hnat : 0x10000 + (0xD800 + (c.toNat - 0x10000) / 1024) % 1024 * 1024 +
        (0xDC00 + (c.toNat - 0x10000) % 1024) % 1024 = c.toNat := by omega
    rw [hnat, Char.ofNat_toNat]

theorem decodeLossy_encode (s : List Char) : decodeLossy (encode s) = s := by
  induction s with
  | nil => rfl
  | cons c s ih => rw [encode, List.flatMap_cons, decodeLossy_encodeChar, ← encode, ih]

end Utf16
