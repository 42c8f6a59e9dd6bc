import GoSmpp.Lib.Utf16
import GoSmpp.Encoding.Gsm7

/-!
# UCS-2, UTF-16BE and the choice between encodings

`encoding/unicode.go`; `utf16Encode` and `utf16Decode` are what `unicode/utf16` is assumed to do.

* `selectText`: GSM 03.38 if it can, then strict UCS-2, then, when permitted, UTF-16BE with surrogate pairs.
* `decoder_selectText`: the decoder of the chosen kind gives the text back.
-/

namespace GoSmpp.Encoding

open GoSmpp.Lib GoSmpp.Protocol

inductive Kind where
  | unknown | gsm7 | ucs2 | utf16be | binary
  deriving DecidableEq, Repr

def Kind.string : Kind → String
  | .gsm7 => "gsm7"
  | .ucs2 => "ucs2"
  | .utf16be => "utf16be"
  | .binary => "binary"
  | .unknown => "unknown"

structure EncodedText where
  kind : Kind
  data : Octets
  units : Nat
  deriving DecidableEq, Repr

def invalidUnicode (text : String) : Err := .wrapped text (.sentinel .invalidUnicode)

/-! ## UCS-2 -/

def runesUCS2 : List Char → Except Err (List UInt16)
  | [] => .ok []
  | r :: rs =>
    if 0xffff < r.toNat ∨ (0xd800 ≤ r.toNat ∧ r.toNat ≤ 0xdfff) then
      .error (.wrapped ("in UCS-2: " ++ uPlus r) (.sentinel .unrepresentableRune))
    else (UInt16.ofNat r.toNat :: ·) <$> runesUCS2 rs

def encodeUCS2 (text : ByteArray) : Except Err Octets := do return unitsWire (← runesUCS2 (← runes text))

def ucs2Runes : List UInt16 → Except Err (List Char)
  | [] => .ok []
  | u :: us =>
    if isSurrogate u then .error (invalidUnicode ("surrogate 0x" ++ hexPad 4 u.toNat ++ " in strict UCS-2"))
    else (Char.ofNat u.toNat :: ·) <$> ucs2Runes us

def decodeUCS2 (data : Octets) : Except Err ByteArray :=
  if data.length % 2 ≠ 0 then .error (invalidUnicode ("odd UCS-2 length " ++ toString data.length))
  else stringOf <$> ucs2Runes (unitsOf data)

theorem ucs2Runes_runesUCS2 {rs : List Char} {us : List UInt16} (h : runesUCS2 rs = .ok us) :
    ucs2Runes us = .ok rs := by
  induction rs generalizing us with
  | nil => cases h; rfl
  | cons r rs ih =>
    rw [runesUCS2] at h
    split at h
    case isTrue => nomatch h
    case isFalse hr =>
      obtain ⟨us, hus, h⟩ := (Except.bind_ok _ _ _).mp (show (runesUCS2 rs >>= fun us => _) = _ from h)
      cases h
      obtain ⟨hs, hc⟩ := unit_basic (show r.toNat < 0x10000 by omega)
      rw [ucs2Runes, hs, hc, ih hus]
      rfl

theorem decodeUCS2_encodeUCS2 {text : ByteArray} {data : Octets} (h : encodeUCS2 text = .ok data) :
    decodeUCS2 data = .ok text := by
  obtain ⟨rs, hrs, h⟩ := (Except.bind_ok _ _ _).mp h
  obtain ⟨us, hus, h⟩ := (Except.bind_ok _ _ _).mp h
  cases h
  rw [decodeUCS2, length_unitsWire, if_neg (by omega), unitsOf_unitsWire, ucs2Runes_runesUCS2 hus, runes_ok hrs]
  rfl

/-! ## UTF-16BE -/

def encodeUTF16BE (text : ByteArray) : Except Err Octets := do return unitsWire (utf16Encode (← runes text))

/-- The loop of `DecodeUTF16BE` that looks for a surrogate without its partner. -/
def unpairedSurrogate : List UInt16 → Option Err
  | [] => none
  | u :: us =>
    if isHighSurrogate u then
      match us with
      | v :: us =>
        if isLowSurrogate v then unpairedSurrogate us
        else some (invalidUnicode ("unpaired high surrogate 0x" ++ hexPad 4 u.toNat))
      | [] => some (invalidUnicode ("unpaired high surrogate 0x" ++ hexPad 4 u.toNat))
    else if isLowSurrogate u then some (invalidUnicode ("unpaired low surrogate 0x" ++ hexPad 4 u.toNat))
    else unpairedSurrogate us

def decodeUTF16BE (data : Octets) : Except Err ByteArray :=
  if data.length % 2 ≠ 0 then .error (invalidUnicode ("odd UTF-16BE length " ++ toString data.length))
  else
    match unpairedSurrogate (unitsOf data) with
    | some err => .error err
    | none => .ok (stringOf (utf16Decode (unitsOf data)))

theorem unpairedSurrogate_encodeChar (c : Char) (us : List UInt16) :
    unpairedSurrogate (utf16EncodeChar c ++ us) = unpairedSurrogate us := by
  by_cases h : c.toNat < 0x10000
  · have hs := Bool.or_eq_false_iff.mp (unit_basic h).1
    rw [utf16EncodeChar_basic h, List.singleton_append, unpairedSurrogate.eq_def]
    simp only [hs.1, hs.2, Bool.false_eq_true, if_false]
  · obtain ⟨high, low, he, hh, hl, _⟩ := utf16EncodeChar_pair (Nat.not_lt.mp h)
    rw [he]
    show unpairedSurrogate (high :: low :: us) = _
    rw [unpairedSurrogate.eq_def]
    simp only [hh, hl, if_true]

theorem unpairedSurrogate_utf16Encode (cs : List Char) : unpairedSurrogate (utf16Encode cs) = none := by
  induction cs with
  | nil => rfl
  | cons c cs ih => rw [utf16Encode, List.flatMap_cons, unpairedSurrogate_encodeChar, ← utf16Encode, ih]

theorem decodeUTF16BE_encodeUTF16BE {text : ByteArray} {data : Octets} (h : encodeUTF16BE text = .ok data) :
    decodeUTF16BE data = .ok text := by
  obtain ⟨rs, hrs, h⟩ := (Except.bind_ok _ _ _).mp h
  cases h
  rw [decodeUTF16BE, length_unitsWire, if_neg (by omega), unitsOf_unitsWire, unpairedSurrogate_utf16Encode,
    utf16Decode_encode, runes_ok hrs]

/-! ## Selection -/

def selectText (text : ByteArray) (allowSurrogates : Bool) : Except Err EncodedText :=
  match encodeGSM7 text with
  | .ok septets => .ok { kind := .gsm7, data := septets, units := septets.length }
  | .error _ =>
    match encodeUCS2 text with
    | .ok ucs2 => .ok { kind := .ucs2, data := ucs2, units := ucs2.length / 2 }
    | .error _ =>
      if allowSurrogates = false then
        .error (.wrapped "text requires UTF-16 surrogate pairs" (.sentinel .unrepresentableRune))
      else do
        let utf16be ← encodeUTF16BE text
        return { kind := .utf16be, data := utf16be, units := utf16be.length / 2 }

def decoder : Kind → Option (Octets → Except Err ByteArray)
  | .gsm7 => some decodeGSM7
  | .ucs2 => some decodeUCS2
  | .utf16be => some decodeUTF16BE
  | .unknown | .binary => none

/-- **The decoder of the selected kind gives the text back.** -/
theorem decoder_selectText {text : ByteArray} {allow : Bool} {e : EncodedText} (h : selectText text allow = .ok e) :
    ∃ decode, decoder e.kind = some decode ∧ decode e.data = .ok text := by
  unfold selectText at h
  split at h
  case h_1 septets hs => cases h; exact ⟨_, rfl, decodeGSM7_encodeGSM7 hs⟩
  case h_2 =>
    split at h
    case h_1 ucs2 hs => cases h; exact ⟨_, rfl, decodeUCS2_encodeUCS2 hs⟩
    case h_2 =>
      split at h
      case isTrue => nomatch h
      case isFalse =>
        obtain ⟨data, hs, h⟩ := (Except.bind_ok _ _ _).mp h
        cases h
        exact ⟨_, rfl, decodeUTF16BE_encodeUTF16BE hs⟩

end GoSmpp.Encoding
