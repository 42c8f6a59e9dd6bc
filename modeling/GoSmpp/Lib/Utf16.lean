import GoSmpp.Lib.Octets

/-!
# UTF-16

* `utf16Encode`, `utf16Decode`: characters as 16-bit code units, a character above U+FFFF as a surrogate pair. A surrogate
  that is not part of a pair decodes to the replacement character.
* `utf16Decode_encode`: decoding undoes encoding.
* `unitsWire`, `unitsOf`: code units as octets, most significant first.
-/

namespace GoSmpp.Lib

def isHighSurrogate (u : UInt16) : Bool := 0xd800 ≤ u && u ≤ 0xdbff

def isLowSurrogate (u : UInt16) : Bool := 0xdc00 ≤ u && u ≤ 0xdfff

def isSurrogate (u : UInt16) : Bool := isHighSurrogate u || isLowSurrogate u

def utf16EncodeChar (c : Char) : List UInt16 :=
  if c.toNat < 0x10000 then [UInt16.ofNat c.toNat]
  else [UInt16.ofNat (0xd800 + (c.toNat - 0x10000) / 0x400), UInt16.ofNat (0xdc00 + (c.toNat - 0x10000) % 0x400)]

def utf16Encode (cs : List Char) : List UInt16 := cs.flatMap utf16EncodeChar

/-- The character of a code unit that stands alone. -/
def unitChar (u : UInt16) : Char := if isSurrogate u then Char.ofNat 0xfffd else Char.ofNat u.toNat

/-- The character of a surrogate pair. -/
def pairChar (high low : UInt16) : Char := Char.ofNat (0x10000 + (high.toNat - 0xd800) * 0x400 + (low.toNat - 0xdc00))

def utf16Decode : List UInt16 → List Char
  | [] => []
  | [u] => [unitChar u]
  | u :: v :: us =>
    if isHighSurrogate u && isLowSurrogate v then pairChar u v :: utf16Decode us else unitChar u :: utf16Decode (v :: us)

theorem isHighSurrogate_iff (u : UInt16) : isHighSurrogate u = true ↔ 0xd800 ≤ u.toNat ∧ u.toNat ≤ 0xdbff := by
  simp [isHighSurrogate, UInt16.le_iff_toNat_le]

theorem isLowSurrogate_iff (u : UInt16) : isLowSurrogate u = true ↔ 0xdc00 ≤ u.toNat ∧ u.toNat ≤ 0xdfff := by
  simp [isLowSurrogate, UInt16.le_iff_toNat_le]

theorem isSurrogate_iff (u : UInt16) : isSurrogate u = true ↔ 0xd800 ≤ u.toNat ∧ u.toNat ≤ 0xdfff := by
  rw [isSurrogate, Bool.or_eq_true, isHighSurrogate_iff, isLowSurrogate_iff]
  omega

theorem toNat_scalar (c : Char) : c.toNat < 0xd800 ∨ 0xdfff < c.toNat ∧ c.toNat < 0x110000 := c.valid

section Decode
variable {c : Char} {u : UInt16} {us : List UInt16}

theorem utf16EncodeChar_basic (h : c.toNat < 0x10000) : utf16EncodeChar c = [UInt16.ofNat c.toNat] := if_pos h

theorem unit_basic (h : c.toNat < 0x10000) :
    isSurrogate (UInt16.ofNat c.toNat) = false ∧ Char.ofNat (UInt16.ofNat c.toNat).toNat = c := by
  have hn : (UInt16.ofNat c.toNat).toNat = c.toNat := by rw [UInt16.toNat_ofNat', Nat.mod_eq_of_lt h]
  refine ⟨eq_false_of_ne_true fun hs => ?_, by rw [hn]; exact Char.ofNat_toNat c⟩
  have hs := (isSurrogate_iff _).mp hs
  have hc := toNat_scalar c
  omega

theorem utf16EncodeChar_pair (h : 0x10000 ≤ c.toNat) : ∃ high low, utf16EncodeChar c = [high, low] ∧
    isHighSurrogate high = true ∧ isLowSurrogate low = true ∧ pairChar high low = c := by
  have hc := toNat_scalar c
  refine ⟨_, _, if_neg (Nat.not_lt.mpr h), ?_, ?_, ?_⟩
  · rw [isHighSurrogate_iff, UInt16.toNat_ofNat']
    omega
  · rw [isLowSurrogate_iff, UInt16.toNat_ofNat']
    omega
  · have hn : 0x10000 + ((UInt16.ofNat (0xd800 + (c.toNat - 0x10000) / 0x400)).toNat - 0xd800) * 0x400 +
        ((UInt16.ofNat (0xdc00 + (c.toNat - 0x10000) % 0x400)).toNat - 0xdc00) = c.toNat := by
      rw [UInt16.toNat_ofNat', UInt16.toNat_ofNat']
      omega
    rw [pairChar, hn]
    exact Char.ofNat_toNat c

theorem utf16Decode_cons (h : isSurrogate u = false) : utf16Decode (u :: us) = Char.ofNat u.toNat :: utf16Decode us := by
  have hu : unitChar u = Char.ofNat u.toNat := by rw [unitChar, h]; rfl
  have hh : isHighSurrogate u = false := (Bool.or_eq_false_iff.mp h).1
  cases us with
  | nil => exact congrArg (fun c => [c]) hu
  | cons v us => rw [utf16Decode, hh, hu]; rfl

theorem utf16Decode_encodeChar (c : Char) (us : List UInt16) :
    utf16Decode (utf16EncodeChar c ++ us) = c :: utf16Decode us := by
  by_cases h : c.toNat < 0x10000
  · obtain ⟨hs, hc⟩ := unit_basic h
    rw [utf16EncodeChar_basic h, List.singleton_append, utf16Decode_cons hs, hc]
  · obtain ⟨high, low, he, hh, hl, hp⟩ := utf16EncodeChar_pair (Nat.not_lt.mp h)
    rw [he]
    show utf16Decode (high :: low :: us) = _
    rw [utf16Decode, hh, hl, hp]
    rfl

/-- **Decoding undoes encoding.** -/
theorem utf16Decode_encode (cs : List Char) : utf16Decode (utf16Encode cs) = cs := by
  induction cs with
  | nil => rfl
  | cons c cs ih => rw [utf16Encode, List.flatMap_cons, utf16Decode_encodeChar, ← utf16Encode, ih]

end Decode

/-! ## Octets -/

def unitsWire (us : List UInt16) : Octets := us.flatMap putUint16

/-- The code units of an octet string of even length. -/
def unitsOf : Octets → List UInt16
  | a :: b :: rest => uint16 a b :: unitsOf rest
  | _ => []

@[simp] theorem unitsOf_unitsWire (us : List UInt16) : unitsOf (unitsWire us) = us := by
  induction us with
  | nil => rfl
  | cons u us ih =>
    show uint16 _ _ :: unitsOf (unitsWire us) = _
    rw [ih, uint16_putUint16]

theorem length_unitsWire (us : List UInt16) : (unitsWire us).length = 2 * us.length := by
  induction us with
  | nil => rfl
  | cons u us ih =>
    show (unitsWire us).length + 2 = _
    rw [ih, List.length_cons]
    omega

end GoSmpp.Lib
