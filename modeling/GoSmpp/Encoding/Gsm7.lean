import GoSmpp.Lib.Octets
import GoSmpp.Lib.Format
import GoSmpp.Lib.Pool
import GoSmpp.Protocol.Errors

/-!
# The GSM 03.38 alphabet

`encoding/gsm7.go`. A Go string is the `ByteArray` of its octets; `runes` is the loop `for _, r := range text` behind its
`utf8.ValidString` check, and `stringOf` is `string(runes)`.

* `encodeGSM7`, `decodeGSM7`: text as unpacked septets, a character of the extension table as an escape and a code.
* `gsm7_bijection`: decoding gives back every text that could be encoded, and encoding every string that could be decoded.
* `packSeptetsWithFill`: the septets as octets.
-/

namespace GoSmpp.Encoding

open GoSmpp.Lib GoSmpp.Protocol

/-- The runes of a text, unless it is not valid UTF-8. -/
def runes (text : ByteArray) : Except Err (List Char) :=
  match text.utf8Decode? with
  | some rs => .ok rs.toList
  | none => .error (.sentinel .invalidUnicode)

def stringOf (rs : List Char) : ByteArray := (String.ofList rs).toByteArray

@[simp] theorem runes_stringOf (rs : List Char) : runes (stringOf rs) = .ok rs := by
  rw [runes, stringOf, String.toByteArray_ofList, List.utf8Decode?_utf8Encode]

theorem runes_ok {text : ByteArray} {rs : List Char} (h : runes text = .ok rs) : text = stringOf rs := by
  unfold runes at h
  split at h
  case h_1 cs hcs =>
    obtain ⟨cs', rfl⟩ : text.IsValidUTF8 := ByteArray.isSome_utf8Decode?_iff.mp (Option.isSome_of_eq_some hcs)
    rw [List.utf8Decode?_utf8Encode, Option.some.injEq] at hcs
    rw [← hcs, Except.ok.injEq] at h
    rw [← h]
    rfl
  case h_2 => nomatch h

/-- A number in hexadecimal, as `%0nx` prints it. -/
def hexPad (digits n : Nat) : String := String.ofList ((Nat.toDigits 16 n).leftpad digits '0')

/-- A rune as `%U` prints it. -/
def uPlus (r : Char) : String := "U+" ++ (hexPad 4 r.toNat).toUpper

/-! ## Tables -/

def gsmEscape : UInt8 := 0x1b

/-- The rune 0, which marks the one septet without a character. -/
def noRune : Char := Char.ofNat 0

/-- `gsmDefault`, indexed by septet. -/
def gsmDefault : List Char :=
  ['@', '£', '$', '¥', 'è', 'é', 'ù', 'ì', 'ò', 'Ç', '\n', 'Ø', 'ø', '\r', 'Å', 'å',
   'Δ', '_', 'Φ', 'Γ', 'Λ', 'Ω', 'Π', 'Ψ', 'Σ', 'Θ', 'Ξ', noRune, 'Æ', 'æ', 'ß', 'É',
   -- 0x22 and 0x27 are the two quotation marks
   ' ', '!', Char.ofNat 0x22, '#', '¤', '%', '&', Char.ofNat 0x27, '(', ')', '*', '+', ',', '-', '.', '/',
   '0', '1', '2', '3', '4', '5', '6', '7', '8', '9', ':', ';', '<', '=', '>', '?',
   '¡', 'A', 'B', 'C', 'D', 'E', 'F', 'G', 'H', 'I', 'J', 'K', 'L', 'M', 'N', 'O',
   'P', 'Q', 'R', 'S', 'T', 'U', 'V', 'W', 'X', 'Y', 'Z', 'Ä', 'Ö', 'Ñ', 'Ü', '§',
   '¿', 'a', 'b', 'c', 'd', 'e', 'f', 'g', 'h', 'i', 'j', 'k', 'l', 'm', 'n', 'o',
   'p', 'q', 'r', 's', 't', 'u', 'v', 'w', 'x', 'y', 'z', 'ä', 'ö', 'ñ', 'ü', 'à']

/-- `gsmExtension`; the braces, the form feed and the backslash by their code points. -/
def gsmExtension : List (UInt8 × Char) :=
  [(0x0a, Char.ofNat 0x0c), (0x14, '^'), (0x28, Char.ofNat 0x7b), (0x29, Char.ofNat 0x7d), (0x2f, Char.ofNat 0x5c),
   (0x3c, '['), (0x3d, '~'), (0x3e, ']'), (0x40, '|'), (0x65, '€')]

/-- `gsmDefaultReverse`, as `init` fills it. -/
def gsmDefaultReverse : List (Char × UInt8) :=
  (gsmDefault.zipIdx.filter fun p => p.2 ≠ gsmEscape.toNat && p.1 ≠ noRune).map fun p => (p.1, UInt8.ofNat p.2)

def gsmExtensionReverse : List (Char × UInt8) := gsmExtension.map fun p => (p.2, p.1)

/-! ## Septets -/

/-- The septets of one rune. -/
def runeGSM7 (r : Char) : Except Err Octets :=
  match gsmDefaultReverse.lookup r with
  | some code => .ok [code]
  | none =>
    match gsmExtensionReverse.lookup r with
    | some code => .ok [gsmEscape, code]
    | none => .error (.wrapped (uPlus r) (.sentinel .unrepresentableRune))

def runesGSM7 : List Char → Except Err Octets
  | [] => .ok []
  | r :: rs => do
    let septets ← runeGSM7 r
    return septets ++ (← runesGSM7 rs)

def encodeGSM7 (text : ByteArray) : Except Err Octets := do runesGSM7 (← runes text)

def invalidGSM7 (text : String) : Err := .wrapped text (.sentinel .invalidGSM7)

/-- The loop of `DecodeGSM7`. -/
def gsm7Runes : Octets → Except Err (List Char)
  | [] => .ok []
  | code :: rest =>
    if 0x7f < code then .error (invalidGSM7 ("septet 0x" ++ hexPad 2 code.toNat))
    else if code = gsmEscape then
      match rest with
      | [] => .error (invalidGSM7 "trailing escape")
      | ext :: rest =>
        match gsmExtension.lookup ext with
        | none => .error (invalidGSM7 ("extension 0x" ++ hexPad 2 ext.toNat))
        | some r => (r :: ·) <$> gsm7Runes rest
    else
      let r := gsmDefault.getD code.toNat noRune
      if r = noRune then .error (invalidGSM7 ("reserved septet 0x" ++ hexPad 2 code.toNat))
      else (r :: ·) <$> gsm7Runes rest

def decodeGSM7 (septets : Octets) : Except Err ByteArray := stringOf <$> gsm7Runes septets

theorem gsmDefaultReverse_spec : ∀ p ∈ gsmDefaultReverse,
    ¬ 0x7f < p.2 ∧ p.2 ≠ gsmEscape ∧ gsmDefault.getD p.2.toNat noRune = p.1 ∧ p.1 ≠ noRune := by
  decide +kernel

theorem gsmExtensionReverse_spec : ∀ p ∈ gsmExtensionReverse, ¬ 0x7f < p.2 ∧ gsmExtension.lookup p.2 = some p.1 := by
  decide +kernel

theorem gsm7Runes_rune {r : Char} {septets : Octets} (h : runeGSM7 r = .ok septets) (rest : Octets) :
    gsm7Runes (septets ++ rest) = (r :: ·) <$> gsm7Runes rest := by
  unfold runeGSM7 at h
  split at h
  case h_1 code hcode =>
    cases h
    obtain ⟨hlt, hesc, hr, hne⟩ := gsmDefaultReverse_spec _ (mem_of_lookup hcode)
    rw [List.singleton_append, gsm7Runes.eq_def]
    simp only [if_neg hlt, if_neg hesc, hr, if_neg hne]
  case h_2 =>
    split at h
    case h_1 code hcode =>
      cases h
      obtain ⟨_, hr⟩ := gsmExtensionReverse_spec _ (mem_of_lookup hcode)
      show gsm7Runes (gsmEscape :: code :: rest) = _
      rw [gsm7Runes.eq_def]
      simp only [show ¬ 0x7f < gsmEscape by decide, if_false, if_true, hr]
    case h_2 => nomatch h

theorem ok_of_runesGSM7_cons {r : Char} {rs : List Char} {septets : Octets} (h : runesGSM7 (r :: rs) = .ok septets) :
    ∃ first rest, runeGSM7 r = .ok first ∧ runesGSM7 rs = .ok rest ∧ septets = first ++ rest := by
  obtain ⟨first, hr, h⟩ := (Except.bind_ok _ _ _).mp h
  obtain ⟨rest, hrs, h⟩ := (Except.bind_ok _ _ _).mp h
  exact ⟨first, rest, hr, hrs, (Except.ok.inj h).symm⟩

theorem gsm7Runes_runesGSM7 {rs : List Char} {septets : Octets} (h : runesGSM7 rs = .ok septets) :
    gsm7Runes septets = .ok rs := by
  induction rs generalizing septets with
  | nil => cases h; rfl
  | cons r rs ih =>
    obtain ⟨first, rest, hr, hrs, rfl⟩ := ok_of_runesGSM7_cons h
    rw [gsm7Runes_rune hr, ih hrs]
    rfl

/-- **Decoding undoes encoding.** -/
theorem decodeGSM7_encodeGSM7 {text : ByteArray} {septets : Octets} (h : encodeGSM7 text = .ok septets) :
    decodeGSM7 septets = .ok text := by
  obtain ⟨rs, hrs, h⟩ := (Except.bind_ok _ _ _).mp h
  rw [decodeGSM7, gsm7Runes_runesGSM7 h, runes_ok hrs]
  rfl

theorem encodeGSM7_stringOf (rs : List Char) : encodeGSM7 (stringOf rs) = runesGSM7 rs := by
  rw [encodeGSM7, runes_stringOf]
  rfl

theorem nodup_gsmDefaultReverse : (gsmDefaultReverse.map (·.1)).Nodup := by
  -- the kernel compares numbers faster than characters
  have hnat : ((gsmDefaultReverse.map (·.1)).map Char.toNat).Nodup := by decide +kernel
  exact hnat.of_map Char.toNat

theorem gsmDefault_spec : ∀ i < 128, gsmDefault.getD i noRune ≠ noRune →
    gsmDefaultReverse.lookup (gsmDefault.getD i noRune) = some (UInt8.ofNat i) := by
  intro i hi hr
  have hlt : i < gsmDefault.length := hi
  have hescape : i ≠ gsmEscape.toNat := by
    rintro rfl
    exact hr rfl
  refine lookup_of_mem nodup_gsmDefaultReverse
    (List.mem_map.mpr ⟨(gsmDefault.getD i noRune, i), List.mem_filter.mpr ⟨?_, ?_⟩, rfl⟩)
  · rw [List.mem_zipIdx_iff_getElem?, List.getD_eq_getElem?_getD, List.getElem?_eq_getElem hlt]
    rfl
  · rw [decide_eq_true hescape, decide_eq_true hr]
    rfl

theorem gsmExtension_spec : ∀ p ∈ gsmExtension,
    gsmDefaultReverse.lookup p.2 = none ∧ gsmExtensionReverse.lookup p.2 = some p.1 := by
  decide +kernel

theorem runeGSM7_default {code : UInt8} (hcode : ¬ 0x7f < code) (hr : gsmDefault.getD code.toNat noRune ≠ noRune) :
    runeGSM7 (gsmDefault.getD code.toNat noRune) = .ok [code] := by
  have hle : code.toNat ≤ 127 := UInt8.le_iff_toNat_le.mp (UInt8.not_lt.mp hcode)
  have hlookup := gsmDefault_spec code.toNat (Nat.lt_succ_of_le hle) hr
  rw [UInt8.ofNat_toNat] at hlookup
  rw [runeGSM7, hlookup]

theorem runeGSM7_extension {code : UInt8} {r : Char} (h : gsmExtension.lookup code = some r) :
    runeGSM7 r = .ok [gsmEscape, code] := by
  obtain ⟨hdefault, hext⟩ := gsmExtension_spec _ (mem_of_lookup h)
  rw [runeGSM7, hdefault, hext]

theorem runesGSM7_cons {r : Char} {rs : List Char} {first rest : Octets} (h : runeGSM7 r = .ok first)
    (hs : runesGSM7 rs = .ok rest) : runesGSM7 (r :: rs) = .ok (first ++ rest) := by
  rw [runesGSM7, h, hs]
  rfl

theorem runesGSM7_gsm7Runes : ∀ (septets : Octets) (rs : List Char), gsm7Runes septets = .ok rs →
    runesGSM7 rs = .ok septets
  | [], _, h => by
    cases h
    rfl
  | code :: rest, rs, h => by
    unfold gsm7Runes at h
    split at h
    case isTrue => cases h
    case isFalse hlt =>
      split at h
      case isTrue hesc =>
        split at h
        case h_1 => cases h
        case h_2 ext later =>
          split at h
          case h_1 => cases h
          case h_2 r hr =>
            obtain ⟨rs, hrs, rfl⟩ := Except.ok_of_map h
            rw [hesc]
            exact runesGSM7_cons (runeGSM7_extension hr) (runesGSM7_gsm7Runes later rs hrs)
      case isFalse =>
        dsimp only at h
        split at h
        case isTrue => cases h
        case isFalse hr =>
          obtain ⟨rs, hrs, rfl⟩ := Except.ok_of_map h
          exact runesGSM7_cons (runeGSM7_default hlt hr) (runesGSM7_gsm7Runes rest rs hrs)

theorem runeGSM7_lt {r : Char} {septets : Octets} (h : runeGSM7 r = .ok septets) : ∀ s ∈ septets, s < 0x80 := by
  have hlt : ∀ code : UInt8, ¬ 0x7f < code → code < 0x80 := fun code hc =>
    UInt8.lt_iff_toNat_lt.mpr (Nat.lt_succ_of_le (UInt8.le_iff_toNat_le.mp (UInt8.not_lt.mp hc)))
  unfold runeGSM7 at h
  split at h
  case h_1 code hcode =>
    cases h
    exact List.forall_mem_singleton.mpr (hlt code (gsmDefaultReverse_spec _ (mem_of_lookup hcode)).1)
  case h_2 =>
    split at h
    case h_1 code hcode =>
      cases h
      have hcode := hlt code (gsmExtensionReverse_spec _ (mem_of_lookup hcode)).1
      exact List.forall_mem_cons.mpr ⟨by decide, List.forall_mem_singleton.mpr hcode⟩
    case h_2 => cases h

theorem runesGSM7_lt {rs : List Char} {septets : Octets} (h : runesGSM7 rs = .ok septets) : ∀ s ∈ septets, s < 0x80 := by
  induction rs generalizing septets with
  | nil =>
    cases h
    exact fun _ hs => absurd hs List.not_mem_nil
  | cons r rs ih =>
    obtain ⟨first, rest, hr, hrs, rfl⟩ := ok_of_runesGSM7_cons h
    exact List.forall_mem_append.mpr ⟨runeGSM7_lt hr, ih hrs⟩

theorem encodeGSM7_lt {text : ByteArray} {septets : Octets} (h : encodeGSM7 text = .ok septets) :
    ∀ s ∈ septets, s < 0x80 := by
  obtain ⟨rs, _, h⟩ := (Except.bind_ok _ _ _).mp h
  exact runesGSM7_lt h

theorem encodeGSM7_decodeGSM7 {septets : Octets} {text : ByteArray} (h : decodeGSM7 septets = .ok text) :
    encodeGSM7 text = .ok septets := by
  obtain ⟨rs, hrs, rfl⟩ := Except.ok_of_map h
  rw [encodeGSM7_stringOf]
  exact runesGSM7_gsm7Runes septets rs hrs

/-- **The alphabet is a bijection** between the texts it can represent and the strings of septets that have a meaning. -/
theorem gsm7_bijection :
    (∀ text septets, encodeGSM7 text = .ok septets → (∀ s ∈ septets, s < 0x80) ∧ decodeGSM7 septets = .ok text) ∧
    (∀ septets text, decodeGSM7 septets = .ok text → encodeGSM7 text = .ok septets) :=
  ⟨fun _ _ h => ⟨encodeGSM7_lt h, decodeGSM7_encodeGSM7 h⟩, fun _ _ h => encodeGSM7_decodeGSM7 h⟩

/-- A character of either table. -/
theorem gsm7_bijection_bracket :
    decodeGSM7 [0x61, 0x1b, 0x3c] = .ok (stringOf ['a', '[']) ∧ encodeGSM7 (stringOf ['a', '[']) = .ok [0x61, 0x1b, 0x3c] := by
  have he : encodeGSM7 (stringOf ['a', '[']) = .ok [0x61, 0x1b, 0x3c] := by
    rw [encodeGSM7_stringOf]
    decide +kernel
  have hd := (gsm7_bijection.1 _ _ he).2
  exact ⟨hd, gsm7_bijection.2 _ _ hd⟩

/-! ## Packing -/

/-- The inner loop of `PackSeptetsWithFill`: the bits of one septet, from bit position `bitPos` on. -/
def packSeptet (septet : UInt8) (bitPos : Nat) (out : Octets) : Octets :=
  (List.range 7).foldl (fun out bit =>
    if septet &&& (1 <<< UInt8.ofNat bit) ≠ 0 then
      out.modify ((bitPos + bit) / 8) (· ||| (1 <<< UInt8.ofNat ((bitPos + bit) % 8)))
    else out) out

def packFrom : Octets → Nat → Octets → Except Err Octets
  | [], _, out => .ok out
  | septet :: rest, bitPos, out =>
    if 0x7f < septet then .error (invalidGSM7 ("septet 0x" ++ hexPad 2 septet.toNat))
    else packFrom rest (bitPos + 7) (packSeptet septet bitPos out)

def packSeptetsWithFill (septets : Octets) (fillBits : UInt8) : Except Err Octets :=
  if 6 < fillBits then .error (invalidGSM7 ("fill bits " ++ toString fillBits.toNat))
  else if septets = [] then .ok (if fillBits = 0 then [] else [0])
  else packFrom septets fillBits.toNat (List.replicate ((fillBits.toNat + septets.length * 7 + 7) / 8) 0)

def packSeptets (septets : Octets) : Except Err Octets := packSeptetsWithFill septets 0

end GoSmpp.Encoding
