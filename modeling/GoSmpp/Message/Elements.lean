import GoSmpp.Lib.Indexing
import GoSmpp.Message.Wire

/-!
# The elements of a user data header

* `readConcatUDH`: `ParseConcatUDH` as it indexes the user data, with what it reads; `readConcatUDH_within` relates it to
  `parseConcatUDH`.
* `parseConcatUDH_elements`: the concatenation element is found wherever it stands in a header.
* `parsersAgree_iff`: when `ParseConcatUDH` and `ParseSAR` accept the same segments.
-/

namespace GoSmpp.Message

open GoSmpp.Lib GoSmpp.Lib.Indexing
open GoSmpp.Protocol hiding Kind

/-! ## What is read -/

/-- The case `0x00` of `ParseConcatUDH`. -/
def readConcat8 (length : UInt8) (value : Slice) : Indexing (Except Err Concatenation) :=
  if length ≠ 3 then pure (.error invalidUDH)
  else do
    let reference ← value.at 0
    let total ← value.at 1
    let sequence ← value.at 2
    pure (.ok ⟨UInt16.ofNat reference.toNat, total, sequence⟩)

/-- The case `0x08` of `ParseConcatUDH`. -/
def readConcat16 (length : UInt8) (value : Slice) : Indexing (Except Err Concatenation) :=
  if length ≠ 4 then pure (.error invalidUDH)
  else do
    let high ← value.at 0
    let low ← value.at 1
    let total ← value.at 2
    let sequence ← value.at 3
    pure (.ok ⟨uint16 high low, total, sequence⟩)

/-- The loop of `ParseConcatUDH` from `off` on, for as many elements as `fuel`. -/
def readConcatIE (headerLen : Nat) : (fuel off : Nat) → Indexing (Except Err Concatenation)
  | 0, _ => fail
  | fuel + 1, off =>
    if off + 2 ≤ headerLen then do
      let iei ← octet off
      let length ← octet (off + 1)
      if headerLen < off + 2 + length.toNat then pure (.error invalidUDH)
      else do
        let value ← slice (off + 2) (off + 2 + length.toNat)
        if iei = 0x00 then readConcat8 length value
        else if iei = 0x08 then readConcat16 length value
        else readConcatIE headerLen fuel (off + 2 + length.toNat)
    else pure (.error (.wrapped "concatenation IE missing" invalidUDH))

/-- `ParseConcatUDH`, as it indexes the user data. -/
def readConcatUDH : Indexing (Except Err (Concatenation × Nat)) := do
  let size ← len
  if size < 1 then pure (.error invalidUDH)
  else do
    let length ← octet 0
    let headerLen := length.toNat + 1
    if size < headerLen ∨ headerLen < 6 then
      pure (.error (.wrapped ("declared header length " ++ toString headerLen) invalidUDH))
    else do
      let found ← readConcatIE headerLen headerLen 1
      pure (found.map (·, headerLen))

/-- The size that a header declares, its first octet included. -/
def declaredLen (userData : Octets) : Nat := (userData.head?.map fun length => length.toNat + 1).getD 0

theorem concatIE_skip : ∀ (skip : Nat) (ies : Octets), concatIE skip ies = concatIE 0 (ies.drop skip)
  | 0, _ => rfl
  | _ + 1, [] => rfl
  | skip + 1, _ :: rest => concatIE_skip skip rest

theorem concatIE_short : ∀ {ies : Octets}, ies.length < 2 →
    concatIE 0 ies = .error (.wrapped "concatenation IE missing" invalidUDH)
  | [], _ => rfl
  | [_], _ => rfl

section Reads
variable {data : Octets} {headerLen : Nat}

theorem getElem?_of_drop_take {off k : Nat} {x : UInt8} {ies : Octets} (hies : (data.take headerLen).drop off = ies)
    (hx : ies[k]? = some x) : data[off + k]? = some x ∧ off + k < headerLen := by
  rw [← hies, List.getElem?_drop, List.getElem?_take] at hx
  split at hx
  case isTrue hlt => exact ⟨hx, hlt⟩
  case isFalse => cases hx

theorem within_value {off k : Nat} {x : UInt8} {value rest : Octets} (hrest : (data.take headerLen).drop off = rest)
    {length : UInt8} (hle : length.toNat ≤ rest.length) (hlen : off + length.toNat ≤ headerLen)
    (hv : rest.take length.toNat = value) (hx : value[k]? = some x) :
    Within data headerLen (Slice.at ⟨off, off + length.toNat - off⟩ k) x := by
  obtain ⟨hk, -⟩ := List.getElem?_eq_some_iff.mp hx
  rw [← hv, List.length_take, Nat.min_eq_left hle] at hk
  rw [← hv, List.getElem?_take, if_pos hk] at hx
  rw [Nat.add_sub_cancel_left]
  exact Within.at hk (getElem?_of_drop_take hrest hx).1 hlen

section Value
variable {off : Nat} {rest : Octets} {length : UInt8} (hrest : (data.take headerLen).drop off = rest)
  (hle : length.toNat ≤ rest.length) (hlen : off + length.toNat ≤ headerLen)
include hrest hle hlen

theorem readConcat8_within : Within data headerLen (readConcat8 length ⟨off, off + length.toNat - off⟩)
    (match rest.take length.toNat with
      | [reference, total, sequence] => .ok ⟨UInt16.ofNat reference.toNat, total, sequence⟩
      | _ => .error invalidUDH) := by
  have hsize : (rest.take length.toNat).length = length.toNat := by rw [List.length_take, Nat.min_eq_left hle]
  unfold readConcat8
  split
  case isTrue hother =>
    split
    case h_1 reference total sequence hv =>
      rw [hv] at hsize
      exact absurd (UInt8.toNat.inj hsize.symm) hother
    case h_2 => exact Within.pure _
  case isFalse hthree =>
    obtain ⟨reference, total, sequence, hv⟩ := List.length_eq_three.mp (hsize.trans (congrArg _ (not_not.mp hthree)))
    rw [hv]
    refine Within.bind (within_value hrest hle hlen hv (k := 0) rfl) ?_
    refine Within.bind (within_value hrest hle hlen hv (k := 1) rfl) ?_
    refine Within.bind (within_value hrest hle hlen hv (k := 2) rfl) ?_
    exact Within.pure _

theorem readConcat16_within : Within data headerLen (readConcat16 length ⟨off, off + length.toNat - off⟩)
    (match rest.take length.toNat with
      | [high, low, total, sequence] => .ok ⟨uint16 high low, total, sequence⟩
      | _ => .error invalidUDH) := by
  have hsize : (rest.take length.toNat).length = length.toNat := by rw [List.length_take, Nat.min_eq_left hle]
  unfold readConcat16
  split
  case isTrue hother =>
    split
    case h_1 high low total sequence hv =>
      rw [hv] at hsize
      exact absurd (UInt8.toNat.inj hsize.symm) hother
    case h_2 => exact Within.pure _
  case isFalse hfour =>
    obtain ⟨high, low, total, sequence, hv⟩ := List.length_eq_four.mp (hsize.trans (congrArg _ (not_not.mp hfour)))
    rw [hv]
    refine Within.bind (within_value hrest hle hlen hv (k := 0) rfl) ?_
    refine Within.bind (within_value hrest hle hlen hv (k := 1) rfl) ?_
    refine Within.bind (within_value hrest hle hlen hv (k := 2) rfl) ?_
    refine Within.bind (within_value hrest hle hlen hv (k := 3) rfl) ?_
    exact Within.pure _

end Value

theorem readConcatIE_within (hlen : headerLen ≤ data.length) : ∀ fuel off : Nat, headerLen - off < fuel →
    Within data headerLen (readConcatIE headerLen fuel off) (concatIE 0 ((data.take headerLen).drop off))
  | 0, off, hfuel => absurd hfuel (Nat.not_lt_zero _)
  | fuel + 1, off, hfuel => by
    have hsize (n : Nat) : ((data.take headerLen).drop n).length = headerLen - n := by
      rw [List.length_drop, List.length_take, Nat.min_eq_left hlen]
    rw [readConcatIE]
    split
    case isFalse hend =>
      rw [concatIE_short (by rw [hsize]; omega)]
      exact Within.pure _
    case isTrue hmore =>
      obtain ⟨iei, length, rest, hies⟩ : ∃ iei length rest, (data.take headerLen).drop off = iei :: length :: rest := by
        have hoff := hsize off
        match h : (data.take headerLen).drop off with
        | iei :: length :: rest => exact ⟨iei, length, rest, rfl⟩
        | [_] | [] => simp only [h, List.length_cons, List.length_nil] at hoff; omega
      have hrest : (data.take headerLen).drop (off + 2) = rest := by
        rw [← List.drop_drop, hies]
        rfl
      have hrestlen : rest.length = headerLen - (off + 2) := hrest ▸ hsize (off + 2)
      have ih := readConcatIE_within hlen fuel (off + 2 + length.toNat) (by omega)
      rw [← List.drop_drop, hrest, ← concatIE_skip] at ih
      rw [hies, concatIE]
      refine Within.bind (Within.octet (getElem?_of_drop_take (k := 0) hies rfl).1 (by omega)) ?_
      refine Within.bind (Within.octet (getElem?_of_drop_take (k := 1) hies rfl).1 (by omega)) ?_
      by_cases hover : headerLen < off + 2 + length.toNat
      · rw [if_pos hover, if_pos (by omega)]
        exact Within.pure _
      rw [if_neg hover, if_neg (by omega)]
      refine Within.bind (Within.slice (by omega) (by omega)) ?_
      by_cases h8 : iei = 0x00
      · rw [if_pos h8, if_pos h8]
        exact readConcat8_within hrest (by omega) (by omega)
      rw [if_neg h8, if_neg h8]
      by_cases h16 : iei = 0x08
      · rw [if_pos h16, if_pos h16]
        exact readConcat16_within hrest (by omega) (by omega)
      rw [if_neg h16, if_neg h16]
      exact ih

end Reads

theorem readConcatUDH_within (userData : Octets) :
    Within userData (declaredLen userData) readConcatUDH (parseConcatUDH userData) := by
  refine Within.bind Within.len ?_
  match userData with
  | [] => exact Within.pure _
  | length :: rest =>
    have hdeclared : declaredLen (length :: rest) = length.toNat + 1 := rfl
    rw [if_neg (by rw [List.length_cons]; omega), parseConcatUDH]
    refine Within.bind (Within.octet rfl (by omega)) ?_
    dsimp only
    by_cases hbad : (length :: rest).length < length.toNat + 1 ∨ length.toNat + 1 < 6
    · rw [if_pos hbad, if_pos hbad]
      exact Within.pure _
    · rw [if_neg hbad, if_neg hbad, hdeclared]
      have hin : length.toNat + 1 ≤ (length :: rest).length := Nat.le_of_not_lt fun h => hbad (.inl h)
      refine Within.bind (readConcatIE_within hin _ 1 (by omega)) ?_
      have hmap : ∀ found : Except Err Concatenation,
          (do return (← found, length.toNat + 1)) = found.map (·, length.toNat + 1) := fun found => by cases found <;> rfl
      rw [hmap]
      exact Within.pure _

/-! ## Headers of information elements -/

/-- An information element. Its length is one octet. -/
structure InformationElement where
  identifier : UInt8
  value : Octets
  fits : value.length ≤ 255

namespace InformationElement

/-- The element as it stands in a header. -/
def wire (e : InformationElement) : Octets := e.identifier :: UInt8.ofNat e.value.length :: e.value

/-- What a concatenation element says. -/
def concatenation (e : InformationElement) : Option Concatenation :=
  match e.value with
  | [reference, total, sequence] =>
    if e.identifier = 0x00 then some ⟨UInt16.ofNat reference.toNat, total, sequence⟩ else none
  | [high, low, total, sequence] => if e.identifier = 0x08 then some ⟨uint16 high low, total, sequence⟩ else none
  | _ => none

/-- The element is not named as a concatenation element. -/
def Other (e : InformationElement) : Prop := e.identifier ≠ 0x00 ∧ e.identifier ≠ 0x08

end InformationElement

def elementsWire (ies : List InformationElement) : Octets := ies.flatMap (·.wire)

/-- A user data header: the size of its elements, `UDHL`, and they. -/
def userDataHeader (ies : List InformationElement) : Octets := UInt8.ofNat (elementsWire ies).length :: elementsWire ies

theorem toNat_ofNat_of_le {n : Nat} (h : n ≤ 255) : (UInt8.ofNat n).toNat = n := by
  rw [UInt8.toNat_ofNat', Nat.mod_eq_of_lt (by omega)]

theorem concatIE_other {e : InformationElement} (h : e.Other) (rest : Octets) :
    concatIE 0 (e.wire ++ rest) = concatIE 0 rest := by
  have hlength := toNat_ofNat_of_le e.fits
  rw [InformationElement.wire, List.cons_append, List.cons_append, concatIE, hlength, if_neg (by simp), if_neg h.1, if_neg h.2,
    concatIE_skip, List.drop_left]

theorem concatIE_others {before : List InformationElement} (h : ∀ e ∈ before, e.Other) (rest : Octets) :
    concatIE 0 (elementsWire before ++ rest) = concatIE 0 rest := by
  induction before with
  | nil => rfl
  | cons e before ih =>
    obtain ⟨he, hbefore⟩ := List.forall_mem_cons.mp h
    rw [elementsWire, List.flatMap_cons, List.append_assoc, concatIE_other he]
    exact ih hbefore

theorem concatIE_concatenation {e : InformationElement} {c : Concatenation} (h : e.concatenation = some c) (rest : Octets) :
    concatIE 0 (e.wire ++ rest) = .ok c := by
  have hlength := toNat_ofNat_of_le e.fits
  rw [InformationElement.wire, List.cons_append, List.cons_append, concatIE, hlength, if_neg (by simp), List.take_left]
  unfold InformationElement.concatenation at h
  split at h
  case h_1 reference total sequence hv =>
    split at h
    case isTrue hid =>
      cases h
      rw [if_pos hid, hv]
    case isFalse => cases h
  case h_2 high low total sequence hv =>
    split at h
    case isTrue hid =>
      cases h
      rw [if_neg (by rw [hid]; decide), if_pos hid, hv]
    case isFalse => cases h
  case h_3 => cases h

theorem InformationElement.length_of_concatenation {e : InformationElement} {c : Concatenation}
    (h : e.concatenation = some c) : 5 ≤ e.wire.length := by
  unfold InformationElement.concatenation at h
  split at h
  case h_1 hv => simp [wire, hv]
  case h_2 hv => simp [wire, hv]
  case h_3 => cases h

/-- **`ParseConcatUDH` finds the concatenation element wherever it stands in the header**, and no other. It ends on every
octet string, without an index out of range, and reads the declared header only. -/
theorem parseConcatUDH_elements :
    (∀ (before after : List InformationElement) (e : InformationElement) (c : Concatenation) (content : Octets),
      (elementsWire (before ++ e :: after)).length ≤ 255 → (∀ b ∈ before, b.Other) → e.concatenation = some c →
        parseConcatUDH (userDataHeader (before ++ e :: after) ++ content) =
          .ok (c, (elementsWire (before ++ e :: after)).length + 1)) ∧
    (∀ (ies : List InformationElement) (content : Octets), (elementsWire ies).length ≤ 255 → (∀ e ∈ ies, e.Other) →
      ∃ err, parseConcatUDH (userDataHeader ies ++ content) = .error err ∧ err.is .invalidUDH = true) ∧
    ∀ userData : Octets, Within userData (declaredLen userData) readConcatUDH (parseConcatUDH userData) := by
  refine ⟨?_, ?_, readConcatUDH_within⟩
  · intro before after e c content hfits hbefore he
    have hwire : elementsWire (before ++ e :: after) = elementsWire before ++ (e.wire ++ elementsWire after) := by
      rw [elementsWire, List.flatMap_append, List.flatMap_cons]
      rfl
    have hfound : concatIE 0 (elementsWire (before ++ e :: after)) = .ok c := by
      rw [hwire, concatIE_others hbefore, concatIE_concatenation he]
    have hlong : 5 ≤ (elementsWire (before ++ e :: after)).length := by
      have := e.length_of_concatenation he
      rw [hwire, List.length_append, List.length_append]
      omega
    exact parseConcatUDH_header (toNat_ofNat_of_le hfits) hlong hfound content
  · intro ies content hfits hies
    have hmissing : concatIE 0 (elementsWire ies) = .error (.wrapped "concatenation IE missing" invalidUDH) := by
      rw [← List.append_nil (elementsWire ies), concatIE_others hies]
      rfl
    rw [userDataHeader, parseConcatUDH_declared (toNat_ofNat_of_le hfits), hmissing]
    split
    case isTrue => exact ⟨_, rfl, rfl⟩
    case isFalse => exact ⟨_, rfl, rfl⟩

/-- A header with a port element before the concatenation element and a second one behind it, before two octets of content;
and one with the port element alone. -/
theorem parseConcatUDH_elements_second :
    parseConcatUDH (userDataHeader ([⟨0x05, [0x15, 0x81, 0, 0], by decide⟩] ++
        ⟨0x08, [0x12, 0x34, 2, 1], by decide⟩ :: [⟨0x00, [9, 9, 9], by decide⟩]) ++ [0xaa, 0xbb]) = .ok (⟨0x1234, 2, 1⟩, 18) ∧
    ∃ err, parseConcatUDH (userDataHeader [⟨0x05, [0x15, 0x81, 0, 0], by decide⟩] ++ [0xaa]) = .error err ∧
      err.is .invalidUDH = true := by
  constructor
  · refine parseConcatUDH_elements.1 _ _ _ _ _ (by decide) ?_ (by decide)
    intro b hb
    rw [List.mem_singleton.mp hb]
    exact ⟨by decide, by decide⟩
  · refine parseConcatUDH_elements.2.1 _ _ (by decide) ?_
    intro e he
    rw [List.mem_singleton.mp he]
    exact ⟨by decide, by decide⟩

/-! ## Both parsers of concatenation -/

/-- The number of a segment is one of 1 up to their total. -/
def Concatenation.Numbered (c : Concatenation) : Prop := c.total ≠ 0 ∧ c.sequence ≠ 0 ∧ c.sequence ≤ c.total

/-- Both results are those of one segment, or both are errors. -/
def SameSegment (udh : Except Err (Concatenation × Nat)) (sar : Except Err Concatenation) : Prop :=
  ((∃ x, udh = .ok x) ↔ ∃ c, sar = .ok c) ∧
  (∀ x c, udh = .ok x → sar = .ok c → x.1 = c) ∧
  (∀ x, udh = .ok x → x.1.Numbered) ∧ ∀ c, sar = .ok c → c.Numbered

/-- `ParseConcatUDH` of the headers for a segment and `ParseSAR` of its parameters accept the same segments. -/
def ParsersAgree (reference : UInt16) (total sequence : UInt8) (content : Octets) (optional : List OptionalParameter) : Prop :=
  SameSegment (parseConcatUDH (buildConcatUDH16 reference total sequence ++ content)) (parseSAR optional) ∧
  (reference.toNat < 256 →
    SameSegment (parseConcatUDH (buildConcatUDH8 (UInt8.ofNat reference.toNat) total sequence ++ content)) (parseSAR optional))

theorem sameSegment_iff {c : Concatenation} {n : Nat} {sar : Except Err Concatenation} {err : Err}
    (hsar : sar = if c.total = 0 ∨ c.sequence = 0 ∨ c.total < c.sequence then .error err else .ok c) :
    SameSegment (.ok (c, n)) sar ↔ c.sequence ≠ 0 ∧ c.sequence ≤ c.total := by
  constructor
  · rintro ⟨-, -, hnumbered, -⟩
    exact (hnumbered _ rfl).2
  · rintro ⟨hseq, hle⟩
    have htotal : c.total ≠ 0 := by
      intro h0
      rw [h0] at hle
      exact hseq (UInt8.le_antisymm hle (UInt8.le_iff_toNat_le.mpr (Nat.zero_le _)))
    have hvalid : ¬ (c.total = 0 ∨ c.sequence = 0 ∨ c.total < c.sequence) := by
      rintro (h | h | h)
      · exact htotal h
      · exact hseq h
      · exact absurd h (UInt8.not_lt.mpr hle)
    rw [if_neg hvalid] at hsar
    subst hsar
    refine ⟨⟨fun _ => ⟨c, rfl⟩, fun _ => ⟨(c, n), rfl⟩⟩, ?_, ?_, ?_⟩
    · rintro x c' hx hc
      cases hx
      cases hc
      rfl
    · rintro x hx
      cases hx
      exact ⟨htotal, hseq, hle⟩
    · rintro c' hc
      cases hc
      exact ⟨htotal, hseq, hle⟩

/-- **The two parsers agree on a segment when its number is valid**, and only then: `ParseConcatUDH` does not check it. -/
theorem parsersAgree_iff {reference : UInt16} {total sequence : UInt8} {optional : List OptionalParameter}
    (hperm : (optional.filter isSAR).Perm (sarTLVs reference total sequence)) (content : Octets) :
    ParsersAgree reference total sequence content optional ↔ sequence ≠ 0 ∧ sequence ≤ total := by
  have hudh16 := sameSegment_iff (c := ⟨reference, total, sequence⟩)
    (n := (buildConcatUDH16 reference total sequence).length) (parseSAR_eq hperm)
  rw [← parseConcatUDH_udh16 reference total sequence content] at hudh16
  constructor
  · rintro ⟨hagree, -⟩
    exact hudh16.mp hagree
  · intro hvalid
    refine ⟨hudh16.mpr hvalid, ?_⟩
    intro hsmall
    have href : UInt16.ofNat (UInt8.ofNat reference.toNat).toNat = reference := by
      rw [toNat_ofNat_of_le (by omega), UInt16.ofNat_toNat]
    rw [parseConcatUDH_udh8, href]
    exact (sameSegment_iff (parseSAR_eq hperm)).mpr hvalid

/-- The second of three segments, its parameters among two others. -/
theorem parsersAgree_iff_second : ParsersAgree 7 3 2 [0x41]
    (⟨0x0424, [1]⟩ :: sarTLVs 7 3 2 ++ [⟨0x1400, []⟩]) := by
  refine (parsersAgree_iff ?_ [0x41]).mpr ⟨by decide, by decide⟩
  exact List.Perm.of_eq (by decide)

/-- A header with segment 0 of 0 is accepted, such parameters are not. -/
theorem parsersAgree_fails_zero :
    parseConcatUDH (buildConcatUDH16 7 0 0 ++ [0x41]) = .ok (⟨7, 0, 0⟩, 7) ∧ parseSAR (sarTLVs 7 0 0) = .error invalidSAR ∧
      ¬ ParsersAgree 7 0 0 [0x41] (sarTLVs 7 0 0) := by
  refine ⟨by decide, by decide, ?_⟩
  rintro ⟨⟨⟨himp, -⟩, -⟩, -⟩
  obtain ⟨c, hc⟩ := himp ⟨(⟨7, 0, 0⟩, 7), by decide⟩
  have hrejected : parseSAR (sarTLVs 7 0 0) = .error invalidSAR := by decide
  rw [hrejected] at hc
  cases hc

end GoSmpp.Message
