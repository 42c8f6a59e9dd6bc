import GoSmpp.Lib.Cuts
import GoSmpp.Message.Segment

/-!
# How texts are cut

A text is a string of code units, septets or 16-bit units. A character takes one of them or a pair, whose first unit is an
escape or a high surrogate.

* `Encodes kind rs us`: the code units `us` of the characters `rs`. `encodeText_encodes`: what `EncodeText` returns.
* `Encodes.split`: the units can be cut wherever no pair is cut; on both sides are the units of whole characters.
* `cutText_eq`: `splitGSM7`, `splitFixedUnits` and `splitUTF16` are one greedy cut of the code units.
-/

namespace GoSmpp.Message

open GoSmpp.Lib GoSmpp.Encoding
open GoSmpp.Protocol hiding Kind

/-- The code units that are the first of a pair. -/
def leads : Kind → UInt16 → Bool
  | .gsm7 => (· == gsmEscape.toUInt16)
  | .ucs2 | .utf16be => isHighSurrogate
  | .binary | .unknown => fun _ => false

/-- The code units of encoded content. -/
def codeUnits (kind : Kind) (data : Octets) : List UInt16 :=
  if kind = .ucs2 ∨ kind = .utf16be then unitsOf data else data.map (·.toUInt16)

/-- The octets of code units. -/
def wire (kind : Kind) (us : List UInt16) : Octets :=
  if kind = .ucs2 ∨ kind = .utf16be then unitsWire us else us.map (·.toUInt8)

inductive Encodes₁ : Kind → Char → List UInt16 → Prop where
  | gsm7 {r : Char} {septets : Octets} (h : runeGSM7 r = .ok septets) : Encodes₁ .gsm7 r (septets.map (·.toUInt16))
  | ucs2 {r : Char} (h : r.toNat < 0x10000) : Encodes₁ .ucs2 r [UInt16.ofNat r.toNat]
  | utf16be (r : Char) : Encodes₁ .utf16be r (utf16EncodeChar r)

inductive Encodes (kind : Kind) : List Char → List UInt16 → Prop where
  | nil : Encodes kind [] []
  | cons {r : Char} {rs : List Char} {code us : List UInt16} (h : Encodes₁ kind r code) (hs : Encodes kind rs us) :
    Encodes kind (r :: rs) (code ++ us)

/-! ## The units of a character -/

theorem toUInt8_map_toUInt16 (data : Octets) : (data.map (·.toUInt16)).map (·.toUInt8) = data := by
  have hid : (fun o : UInt8 => o.toUInt16.toUInt8) = id := funext fun o => UInt8.toUInt8_toUInt16 o
  rw [List.map_map]
  exact (congrArg (List.map · data) hid).trans (List.map_id data)

theorem toUInt16_beq (a b : UInt8) : (a.toUInt16 == b.toUInt16) = (a == b) := by
  rw [Bool.eq_iff_iff, beq_iff_eq, beq_iff_eq]
  exact ⟨fun h => by simpa using congrArg UInt16.toUInt8 h, congrArg _⟩

theorem gsmExtensionReverse_ne_escape : ∀ p ∈ gsmExtensionReverse, p.2 ≠ gsmEscape := by decide +kernel

theorem isHighSurrogate_of_low {u : UInt16} (h : isLowSurrogate u = true) : isHighSurrogate u = false := by
  rw [isLowSurrogate_iff] at h
  refine eq_false_of_ne_true fun hh => ?_
  rw [isHighSurrogate_iff] at hh
  omega

theorem Encodes₁.shape {kind : Kind} {r : Char} {code : List UInt16} (h : Encodes₁ kind r code) :
    PairShape (leads kind) code := by
  cases h with
  | gsm7 h =>
    unfold runeGSM7 at h
    split at h
    case h_1 code hcode =>
      cases h
      refine .single ((toUInt16_beq _ _).trans (beq_false_of_ne ?_))
      exact (gsmDefaultReverse_spec _ (mem_of_lookup hcode)).2.1
    case h_2 =>
      split at h
      case h_1 code hcode =>
        cases h
        refine .pair ((toUInt16_beq _ _).trans (beq_self_eq_true _)) ((toUInt16_beq _ _).trans (beq_false_of_ne ?_))
        exact gsmExtensionReverse_ne_escape _ (mem_of_lookup hcode)
      case h_2 => cases h
  | ucs2 h => exact .single (Bool.or_eq_false_iff.mp (unit_basic h).1).1
  | utf16be r =>
    by_cases h : r.toNat < 0x10000
    · rw [utf16EncodeChar_basic h]
      exact .single (Bool.or_eq_false_iff.mp (unit_basic h).1).1
    · obtain ⟨high, low, he, hh, hl, -⟩ := utf16EncodeChar_pair (Nat.not_lt.mp h)
      rw [he]
      exact .pair hh (isHighSurrogate_of_low hl)

/-! ## The units of a text -/

section Encodes
variable {kind : Kind} {rs : List Char} {us : List UInt16}

theorem Encodes.paired (h : Encodes kind rs us) : Paired (leads kind) us := by
  induction h with
  | nil => exact fun _ _ ha => by cases ha
  | cons h _ ih =>
    cases h.shape with
    | single hu => exact ih.cons hu
    | pair _ hv => exact ih.cons_pair hv

theorem Encodes.eq_nil (h : Encodes kind rs us) (hus : us = []) : rs = [] := by
  cases h with
  | nil => rfl
  | cons h =>
    obtain ⟨rfl, -⟩ := List.append_eq_nil_iff.mp hus
    cases h.shape

/-- **A text can be cut where no pair is cut.** -/
theorem Encodes.split {a b : List UInt16} (h : Encodes kind rs (a ++ b)) (ha : PairClosed (leads kind) a) :
    ∃ ra rb, rs = ra ++ rb ∧ Encodes kind ra a ∧ Encodes kind rb b := by
  generalize hus : a ++ b = us at h
  induction h generalizing a with
  | nil =>
    obtain ⟨rfl, rfl⟩ := List.append_eq_nil_iff.mp hus
    exact ⟨[], [], rfl, .nil, .nil⟩
  | @cons r rs code us h hs ih =>
    -- nothing of the character, or all of it, is before the cut
    rcases a with - | ⟨u, a⟩
    · have hb : b = code ++ us := hus
      exact ⟨[], r :: rs, rfl, .nil, hb ▸ .cons h hs⟩
    · have hshape := h.shape
      cases hshape with
      | single hu =>
        obtain ⟨rfl, rfl⟩ := List.cons.inj hus
        obtain ⟨ra, rb, rfl, hra, hrb⟩ := ih (pairClosed_of_cons ha) rfl
        exact ⟨r :: ra, rb, rfl, .cons h hra, hrb⟩
      | @pair w v hw hv =>
        obtain ⟨rfl, hrest⟩ := List.cons.inj hus
        rcases a with - | ⟨v', a⟩
        · exact absurd hw (Bool.eq_false_iff.mp (ha u rfl))
        · obtain ⟨rfl, rfl⟩ := List.cons.inj hrest
          obtain ⟨ra, rb, rfl, hra, hrb⟩ := ih (pairClosed_of_cons (pairClosed_of_cons ha)) rfl
          exact ⟨r :: ra, rb, rfl, .cons h hra, hrb⟩

theorem encodes_gsm7 {data : Octets} (h : runesGSM7 rs = .ok data) : Encodes .gsm7 rs (data.map (·.toUInt16)) := by
  induction rs generalizing data with
  | nil =>
    cases h
    exact .nil
  | cons r rs ih =>
    obtain ⟨first, rest, hr, hrs, rfl⟩ := ok_of_runesGSM7_cons h
    rw [List.map_append]
    exact .cons (.gsm7 hr) (ih hrs)

theorem encodes_ucs2 (h : runesUCS2 rs = .ok us) : Encodes .ucs2 rs us := by
  induction rs generalizing us with
  | nil =>
    cases h
    exact .nil
  | cons r rs ih =>
    rw [runesUCS2] at h
    split at h
    case isTrue => cases h
    case isFalse hr =>
      obtain ⟨rest, hrs, rfl⟩ := Except.ok_of_map h
      exact .cons (.ucs2 (by omega)) (ih hrs)

theorem encodes_utf16be (rs : List Char) : Encodes .utf16be rs (utf16Encode rs) := by
  induction rs with
  | nil => exact .nil
  | cons r rs ih => exact .cons (.utf16be r) ih

/-- Encoded text, with its characters and its code units. -/
structure EncodedAs (encoded : EncodedText) (rs : List Char) (us : List UInt16) : Prop where
  textual : (decoder encoded.kind).isSome = true
  encodes : Encodes encoded.kind rs us
  data : encoded.data = wire encoded.kind us
  units : encoded.units = us.length

theorem encodeText_encodes {text : ByteArray} {allow : Bool} {encoded : EncodedText}
    (h : encodeText text allow = .ok encoded) : ∃ rs us, text = stringOf rs ∧ EncodedAs encoded rs us := by
  have hhalf : ∀ us : List UInt16, (unitsWire us).length / 2 = us.length := fun us => by
    rw [length_unitsWire]
    omega
  obtain ⟨selected, hs, h⟩ := (Except.bind_ok _ _ _).mp h
  cases h
  unfold selectText at hs
  split at hs
  case h_1 septets he =>
    cases hs
    obtain ⟨rs, hrs, he⟩ := (Except.bind_ok _ _ _).mp he
    exact ⟨rs, _, runes_ok hrs, rfl, encodes_gsm7 he, (toUInt8_map_toUInt16 septets).symm, (List.length_map _).symm⟩
  case h_2 =>
    split at hs
    case h_1 ucs2 he =>
      cases hs
      obtain ⟨rs, hrs, he⟩ := (Except.bind_ok _ _ _).mp he
      obtain ⟨us, hus, he⟩ := (Except.bind_ok _ _ _).mp he
      cases he
      exact ⟨rs, us, runes_ok hrs, rfl, encodes_ucs2 hus, rfl, hhalf us⟩
    case h_2 =>
      split at hs
      case isTrue => cases hs
      case isFalse =>
        obtain ⟨data, he, hs⟩ := (Except.bind_ok _ _ _).mp hs
        cases hs
        obtain ⟨rs, hrs, he⟩ := (Except.bind_ok _ _ _).mp he
        cases he
        exact ⟨rs, utf16Encode rs, runes_ok hrs, rfl, encodes_utf16be rs, rfl, hhalf _⟩

theorem Encodes.septets (h : Encodes .gsm7 rs us) : ∃ data, us = data.map (·.toUInt16) ∧ runesGSM7 rs = .ok data := by
  induction h with
  | nil => exact ⟨[], rfl, rfl⟩
  | cons h _ ih =>
    obtain ⟨rest, rfl, hrs⟩ := ih
    cases h with
    | @gsm7 _ first hr => exact ⟨first ++ rest, (List.map_append ..).symm, runesGSM7_cons hr hrs⟩

theorem Encodes.runesUCS2 (h : Encodes .ucs2 rs us) : runesUCS2 rs = .ok us := by
  induction h with
  | nil => rfl
  | @cons r rs _ us h _ ih =>
    cases h with
    | ucs2 h =>
      have hr : ¬ (0xffff < r.toNat ∨ 0xd800 ≤ r.toNat ∧ r.toNat ≤ 0xdfff) := by
        have := toNat_scalar r
        omega
      rw [Encoding.runesUCS2, if_neg hr, ih]
      rfl

theorem Encodes.utf16Encode (h : Encodes .utf16be rs us) : us = utf16Encode rs := by
  induction h with
  | nil => rfl
  | cons h _ ih =>
    cases h with
    | utf16be r => rw [ih]; rfl

theorem Encodes.decode {decode : Octets → Except Err ByteArray} (h : Encodes kind rs us) (hd : decoder kind = some decode) :
    decode (wire kind us) = .ok (stringOf rs) := by
  cases kind with
  | gsm7 =>
    cases hd
    obtain ⟨data, rfl, hrs⟩ := h.septets
    show decodeGSM7 ((data.map _).map _) = _
    rw [toUInt8_map_toUInt16, decodeGSM7, gsm7Runes_runesGSM7 hrs]
    rfl
  | ucs2 =>
    cases hd
    show decodeUCS2 (unitsWire us) = _
    rw [decodeUCS2, length_unitsWire, if_neg (by omega), unitsOf_unitsWire, ucs2Runes_runesUCS2 h.runesUCS2]
    rfl
  | utf16be =>
    cases hd
    obtain rfl := h.utf16Encode
    show decodeUTF16BE (unitsWire _) = _
    rw [decodeUTF16BE, length_unitsWire, if_neg (by omega), unitsOf_unitsWire, unpairedSurrogate_utf16Encode,
      utf16Decode_encode]
  | unknown | binary => cases hd

theorem codeUnits_wire (h : Encodes kind rs us) : codeUnits kind (wire kind us) = us := by
  cases kind with
  | gsm7 =>
    obtain ⟨data, rfl, -⟩ := h.septets
    exact congrArg (List.map _) (toUInt8_map_toUInt16 data)
  | ucs2 | utf16be => exact unitsOf_unitsWire us
  | unknown | binary =>
    cases h with
    | nil => rfl
    | cons h => cases h

theorem wire_append (kind : Kind) (us us' : List UInt16) : wire kind (us ++ us') = wire kind us ++ wire kind us' := by
  unfold wire
  split
  · exact List.flatMap_append
  · exact List.map_append

theorem chunkUnits_wire (kind : Kind) (us : List UInt16) : chunkUnits kind (wire kind us) = us.length := by
  unfold chunkUnits wire
  split
  · rw [length_unitsWire]
    omega
  · rw [List.length_map]

end Encodes

/-! ## The three ways to cut -/

/-- The parts of a text of at most `limit` units. -/
def cutText (kind : Kind) (data : Octets) (limit : Nat) : Except Err (List Octets) :=
  match kind with
  | .gsm7 => .ok (splitGSM7 data limit)
  | .ucs2 => .ok (splitFixedUnits data 2 limit)
  | .utf16be => splitUTF16 data limit
  | _ => .ok []

theorem gsm7Size_eq (limit : Nat) (data : Octets) :
    pairSize (leads .gsm7) limit (data.map (·.toUInt16)) = gsm7Size limit data := by
  simp only [pairSize, gsm7Size, List.length_map]
  refine if_congr (and_congr_right fun hlt => ?_) rfl rfl
  have hindex : min data.length limit - 1 < data.length := by omega
  rw [List.getElem?_map, List.getD_eq_getElem?_getD, List.getElem?_eq_getElem hindex]
  show (_ == _) = true ↔ _
  rw [toUInt16_beq, beq_iff_eq]
  rfl

theorem splitGSM7_eq {limit : Nat} (hlimit : 2 ≤ limit) (data : Octets) :
    pairChunks (leads .gsm7) limit (data.map (·.toUInt16)) = (splitGSM7 data limit).map (·.map (·.toUInt16)) := by
  have hpos : ∀ l, l ≠ [] → 0 < gsm7Size limit l := fun l hl => by
    rw [← gsm7Size_eq]
    exact pairSize_pos hlimit _ (fun hnil => hl (List.map_eq_nil_iff.mp hnil))
  have hmap : ∀ l : Octets, l.map (·.toUInt16) = l.flatMap (fun o => [o.toUInt16]) := fun _ => List.map_eq_flatMap
  have hchunks := chunks_flatMap (g := fun o : UInt8 => [o.toUInt16]) (w := 1) (P := fun _ => True) (fun _ => rfl) hpos
    (pairSize_pos hlimit) Nat.one_pos (fun _ _ => trivial) (fun l _ => by rw [← hmap, gsm7Size_eq, Nat.one_mul]) data trivial
  rw [splitGSM7, if_neg (Nat.not_lt.mpr hlimit), hmap, pairChunks, hchunks]
  exact List.map_congr_left fun p _ => (hmap p).symm

theorem splitFixedUnits_eq {limit : Nat} (hlimit : 2 ≤ limit) {us : List UInt16} (hus : ∀ u ∈ us, isHighSurrogate u = false) :
    splitFixedUnits (unitsWire us) 2 limit = (pairChunks isHighSurrogate limit us).map unitsWire := by
  refine chunks_flatMap (w := 2) (P := fun us => ∀ u ∈ us, isHighSurrogate u = false) (fun _ => rfl) (pairSize_pos hlimit)
    (fun l hl => ?_) Nat.two_pos (fun l h u hu => h u (List.mem_of_mem_drop hu)) (fun l h => ?_) us hus
  · have hlen : 0 < l.length := List.length_pos_iff.mpr hl
    split <;> omega
  · rw [pairSize_of_forall h, ← unitsWire, length_unitsWire]
    split <;> omega

theorem unitsWire_append (us us' : List UInt16) : unitsWire (us ++ us') = unitsWire us ++ unitsWire us' :=
  List.flatMap_append

theorem placeUTF16_eq {limit : Nat} (hlimit : 2 ≤ limit) {code us cur : List UInt16} (hcode : PairShape isHighSurrogate code)
    (hshort : cur.length ≤ limit) (hclosed : PairClosed isHighSurrogate cur)
    (next : ∀ cur : List UInt16, cur.length ≤ limit → PairClosed isHighSurrogate cur → cur ++ us ≠ [] →
      splitUTF16From limit (unitsWire us) (unitsWire cur) cur.length =
        .ok ((pairChunks isHighSurrogate limit (cur ++ us)).map unitsWire)) :
    placeUTF16 limit (unitsWire code) code.length (unitsWire cur) cur.length (splitUTF16From limit (unitsWire us)) =
      .ok ((pairChunks isHighSurrogate limit (cur ++ (code ++ us))).map unitsWire) := by
  have hlen : 0 < code.length ∧ code.length ≤ 2 := by cases hcode <;> simp
  have hne : code ≠ [] := List.length_pos_iff.mp hlen.1
  have hend : PairClosed isHighSurrogate code := by
    cases hcode with
    | single h => exact fun a ha => by cases ha; exact h
    | pair _ h => exact fun a ha => by cases ha; exact h
  rw [placeUTF16, if_neg (by omega)]
  split
  case isTrue hfull =>
    -- the part is full, the character begins the next one
    have hcur : cur ++ (code ++ us) ≠ [] := List.append_ne_nil_of_right_ne_nil _ (List.append_ne_nil_of_left_ne_nil hne _)
    rw [next code (hlen.2.trans hlimit) hend (List.append_ne_nil_of_left_ne_nil hne _),
      pairChunks, pairChunks, chunks_of_ne_nil (pairSize_pos hlimit) hcur,
      pairSize_of_full hcode hshort hclosed hfull.2, List.take_left, List.drop_left]
    rfl
  case isFalse hfits =>
    have hcur : (cur ++ code) ++ us ≠ [] := List.append_ne_nil_of_left_ne_nil (List.append_ne_nil_of_right_ne_nil _ hne) _
    rw [← unitsWire_append, ← List.length_append, next (cur ++ code) ?_ ((pairClosed_append hne).mpr hend) hcur,
      List.append_assoc]
    rw [List.length_append]
    omega

theorem splitUTF16From_basic {limit units : Nat} {u : UInt16} {us : List UInt16} {cur : Octets} (hu : isSurrogate u = false) :
    splitUTF16From limit (unitsWire ([u] ++ us)) cur units =
      placeUTF16 limit (unitsWire [u]) 1 cur units (splitUTF16From limit (unitsWire us)) := by
  obtain ⟨hh, hl⟩ := Bool.or_eq_false_iff.mp hu
  show splitUTF16From limit (_ :: _ :: unitsWire us) cur units = _
  rw [splitUTF16From.eq_def]
  simp only [uint16_putUint16, hh, hl, Bool.false_eq_true, if_false]
  rfl

theorem splitUTF16From_pair {limit units : Nat} {u v : UInt16} {us : List UInt16} {cur : Octets}
    (hu : isHighSurrogate u = true) (hv : isLowSurrogate v = true) :
    splitUTF16From limit (unitsWire ([u, v] ++ us)) cur units =
      placeUTF16 limit (unitsWire [u, v]) 2 cur units (splitUTF16From limit (unitsWire us)) := by
  show splitUTF16From limit (_ :: _ :: _ :: _ :: unitsWire us) cur units = _
  rw [splitUTF16From.eq_def]
  simp only [uint16_putUint16, hu, hv, if_true]
  rfl

theorem splitUTF16From_eq {limit : Nat} (hlimit : 2 ≤ limit) {rs : List Char} {us : List UInt16}
    (h : Encodes .utf16be rs us) : ∀ cur : List UInt16, cur.length ≤ limit → PairClosed isHighSurrogate cur →
    cur ++ us ≠ [] → splitUTF16From limit (unitsWire us) (unitsWire cur) cur.length =
      .ok ((pairChunks isHighSurrogate limit (cur ++ us)).map unitsWire) := by
  induction h with
  | nil =>
    intro cur hshort _ hne
    rw [List.append_nil] at hne
    rw [List.append_nil, pairChunks, chunks_of_ne_nil (pairSize_pos hlimit) hne, pairSize_of_length_le hshort,
      List.take_length, List.drop_length]
    rfl
  | @cons r rs code us h _ ih =>
    intro cur hshort hclosed _
    rw [← placeUTF16_eq hlimit h.shape hshort hclosed ih]
    cases h with
    | utf16be =>
      by_cases hr : r.toNat < 0x10000
      · rw [utf16EncodeChar_basic hr]
        exact splitUTF16From_basic (unit_basic hr).1
      · obtain ⟨high, low, he, hh, hl, -⟩ := utf16EncodeChar_pair (Nat.not_lt.mp hr)
        rw [he]
        exact splitUTF16From_pair hh hl

theorem splitUTF16_eq {limit : Nat} (hlimit : 2 ≤ limit) {rs : List Char} {us : List UInt16} (h : Encodes .utf16be rs us) :
    splitUTF16 (unitsWire us) limit = .ok ((pairChunks isHighSurrogate limit us).map unitsWire) := by
  by_cases hus : us = []
  · rw [hus]
    rfl
  · have hne : unitsWire us ≠ [] := fun hnil => by
      have hlen := length_unitsWire us
      rw [hnil, List.length_nil] at hlen
      exact hus (List.length_eq_zero_iff.mp (by omega))
    rw [splitUTF16, if_neg hne, length_unitsWire, if_neg (by omega)]
    exact splitUTF16From_eq hlimit h [] (Nat.zero_le _) pairClosed_nil hus

/-- **The three ways to cut are one**, the greedy cut of the code units that keeps pairs together. -/
theorem cutText_eq {kind : Kind} {limit : Nat} (hlimit : 2 ≤ limit) {rs : List Char} {us : List UInt16}
    (h : Encodes kind rs us) :
    cutText kind (wire kind us) limit = .ok ((pairChunks (leads kind) limit us).map (wire kind)) := by
  cases kind with
  | gsm7 =>
    obtain ⟨data, rfl, -⟩ := h.septets
    show Except.ok (splitGSM7 ((data.map _).map _) limit) = _
    rw [toUInt8_map_toUInt16, splitGSM7_eq hlimit, List.map_map]
    have hid : (wire .gsm7 ∘ fun p : Octets => p.map (·.toUInt16)) = id := funext toUInt8_map_toUInt16
    rw [hid, List.map_id]
  | ucs2 =>
    refine congrArg Except.ok (splitFixedUnits_eq hlimit fun u hu => ?_)
    induction h with
    | nil => cases hu
    | cons h _ ih =>
      rcases List.mem_append.mp hu with hu | hu
      · cases h with
        | ucs2 hr =>
          rw [List.mem_singleton.mp hu]
          exact (Bool.or_eq_false_iff.mp (unit_basic hr).1).1
      · exact ih hu
  | utf16be => exact splitUTF16_eq hlimit h
  | unknown | binary =>
    cases h with
    | nil => rfl
    | cons h => cases h

end GoSmpp.Message
