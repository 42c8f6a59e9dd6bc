import GoSmpp.Message.Forms

/-!
# Reading segments from the wire

* `parseConcatUDH`, `parseSAR`: the parsers of `message/message.go`, for what receivers get.
* `Form.segmentOf_recovers`: the segment of a part carries its metadata and its content.
* `segment_recovers`: so do all segments of a multipart message.
-/

namespace GoSmpp.Message

open GoSmpp.Lib GoSmpp.Encoding
open GoSmpp.Protocol hiding Kind

/-- What a segment says about the message it is part of. -/
structure Concatenation where
  reference : UInt16
  total : UInt8
  sequence : UInt8
  deriving DecidableEq, Repr

/-! ## The parsers -/

def invalidUDH : Err := .sentinel .invalidUDH

/-- The loop of `ParseConcatUDH` over the information elements. `skip` octets belong to an element of another kind. -/
def concatIE : Nat → Octets → Except Err Concatenation
  | skip + 1, _ :: rest => concatIE skip rest
  | 0, iei :: length :: rest =>
    if rest.length < length.toNat then .error invalidUDH
    else if iei = 0x00 then
      match rest.take length.toNat with
      | [reference, total, sequence] => .ok ⟨UInt16.ofNat reference.toNat, total, sequence⟩
      | _ => .error invalidUDH
    else if iei = 0x08 then
      match rest.take length.toNat with
      | [high, low, total, sequence] => .ok ⟨uint16 high low, total, sequence⟩
      | _ => .error invalidUDH
    else concatIE length.toNat rest
  | _, _ => .error (.wrapped "concatenation IE missing" invalidUDH)

/-- `ParseConcatUDH`, with the length of the header. -/
def parseConcatUDH (userData : Octets) : Except Err (Concatenation × Nat) :=
  match userData with
  | [] => .error invalidUDH
  | length :: _ =>
    let headerLen := length.toNat + 1
    if userData.length < headerLen ∨ headerLen < 6 then
      .error (.wrapped ("declared header length " ++ toString headerLen) invalidUDH)
    else do return (← concatIE 0 ((userData.take headerLen).drop 1), headerLen)

def invalidSAR : Err := .sentinel .invalidSAR

/-- The SAR parameters that have been found. -/
structure SARFields where
  reference : Option UInt16 := none
  total : Option UInt8 := none
  sequence : Option UInt8 := none

/-- The loop of `ParseSAR`. -/
def sarFields : List OptionalParameter → SARFields → Except Err SARFields
  | [], found => .ok found
  | p :: rest, found =>
    if p.tag = tlvTagSARMsgRefNum then
      match p.value with
      | [high, low] => sarFields rest { found with reference := some (uint16 high low) }
      | _ => .error invalidSAR
    else if p.tag = tlvTagSARTotalSegments then
      match p.value with
      | [total] => sarFields rest { found with total := some total }
      | _ => .error invalidSAR
    else if p.tag = tlvTagSARSegmentSeqnum then
      match p.value with
      | [sequence] => sarFields rest { found with sequence := some sequence }
      | _ => .error invalidSAR
    else sarFields rest found

def parseSAR (optional : List OptionalParameter) : Except Err Concatenation := do
  match ← sarFields optional {} with
  | ⟨some reference, some total, some sequence⟩ =>
    if total = 0 ∨ sequence = 0 ∨ total < sequence then .error invalidSAR else .ok ⟨reference, total, sequence⟩
  | _ => .error invalidSAR

/-! ## User data headers -/

theorem parseConcatUDH_declared {length : UInt8} {ies : Octets} (hlength : length.toNat = ies.length) (content : Octets) :
    parseConcatUDH (length :: ies ++ content) =
      if ies.length < 5 then .error (.wrapped ("declared header length " ++ toString (ies.length + 1)) invalidUDH)
      else do return (← concatIE 0 ies, ies.length + 1) := by
  have hvalid : ((length :: (ies ++ content)).length < ies.length + 1 ∨ ies.length + 1 < 6) ↔ ies.length < 5 := by
    simp only [List.length_cons, List.length_append]
    omega
  have hies : ((length :: (ies ++ content)).take (ies.length + 1)).drop 1 = ies := by
    rw [List.take_succ_cons, List.take_left]
    rfl
  rw [List.cons_append]
  show (if (length :: (ies ++ content)).length < length.toNat + 1 ∨ length.toNat + 1 < 6 then _ else _) = _
  rw [hlength, hies]
  exact if_congr hvalid rfl rfl

theorem parseConcatUDH_header {length : UInt8} {ies : Octets} {c : Concatenation} (hlength : length.toNat = ies.length)
    (hlong : 5 ≤ ies.length) (h : concatIE 0 ies = .ok c) (content : Octets) :
    parseConcatUDH (length :: ies ++ content) = .ok (c, (length :: ies).length) := by
  rw [parseConcatUDH_declared hlength, if_neg (Nat.not_lt.mpr hlong), h]
  rfl

theorem parseConcatUDH_udh8 (reference total sequence : UInt8) (content : Octets) :
    parseConcatUDH (buildConcatUDH8 reference total sequence ++ content) =
      .ok (⟨UInt16.ofNat reference.toNat, total, sequence⟩, (buildConcatUDH8 reference total sequence).length) :=
  parseConcatUDH_header (by rfl) (by rfl) (by rfl) content

theorem parseConcatUDH_udh16 (reference : UInt16) (total sequence : UInt8) (content : Octets) :
    parseConcatUDH (buildConcatUDH16 reference total sequence ++ content) =
      .ok (⟨reference, total, sequence⟩, (buildConcatUDH16 reference total sequence).length) := by
  have hie : concatIE 0 [0x08, 0x04, UInt8.ofNat (reference.toNat / 2 ^ 8), UInt8.ofNat reference.toNat, total, sequence] =
      .ok ⟨reference, total, sequence⟩ := by
    show Except.ok (Concatenation.mk (uint16 _ _) total sequence) = _
    rw [uint16_putUint16]
  exact parseConcatUDH_header (by rfl) (Nat.le_of_ble_eq_true rfl) hie content

/-! ## SAR parameters -/

/-- The tags that `ParseSAR` reads. -/
def isSAR (p : OptionalParameter) : Bool :=
  p.tag == tlvTagSARMsgRefNum || p.tag == tlvTagSARTotalSegments || p.tag == tlvTagSARSegmentSeqnum

section SAR
variable {reference : UInt16} {total sequence : UInt8}

theorem sarFields_eq : ∀ (optional : List OptionalParameter) (found : SARFields),
    (∀ p ∈ optional, isSAR p = true → p ∈ sarTLVs reference total sequence) →
    sarFields optional found = .ok
      { reference := if optional.any (·.tag == tlvTagSARMsgRefNum) then some reference else found.reference
        total := if optional.any (·.tag == tlvTagSARTotalSegments) then some total else found.total
        sequence := if optional.any (·.tag == tlvTagSARSegmentSeqnum) then some sequence else found.sequence }
  | [], found, _ => rfl
  | p :: rest, found, h => by
    obtain ⟨hp, hrest⟩ := List.forall_mem_cons.mp h
    have ih := fun found => sarFields_eq rest found hrest
    rw [List.any_cons, List.any_cons, List.any_cons]
    by_cases hsar : isSAR p = true
    · have hmem := hp hsar
      simp only [sarTLVs, List.mem_cons, List.not_mem_nil, or_false] at hmem
      rcases hmem with rfl | rfl | rfl
      · show sarFields rest { found with reference := some (uint16 _ _) } = _
        rw [ih, uint16_putUint16]
        simp [tlvTagSARMsgRefNum, tlvTagSARTotalSegments, tlvTagSARSegmentSeqnum]
      · show sarFields rest { found with total := some total } = _
        rw [ih]
        simp [tlvTagSARMsgRefNum, tlvTagSARTotalSegments, tlvTagSARSegmentSeqnum]
      · show sarFields rest { found with sequence := some sequence } = _
        rw [ih]
        simp [tlvTagSARMsgRefNum, tlvTagSARTotalSegments, tlvTagSARSegmentSeqnum]
    · simp only [isSAR, Bool.or_eq_true, not_or, Bool.not_eq_true, beq_eq_false_iff_ne] at hsar
      obtain ⟨⟨href, htotal⟩, hseq⟩ := hsar
      rw [sarFields, if_neg href, if_neg htotal, if_neg hseq, ih, beq_false_of_ne href, beq_false_of_ne htotal,
        beq_false_of_ne hseq]
      rfl

theorem parseSAR_eq {optional : List OptionalParameter}
    (hperm : (optional.filter isSAR).Perm (sarTLVs reference total sequence)) :
    parseSAR optional =
      if total = 0 ∨ sequence = 0 ∨ total < sequence then .error invalidSAR else .ok ⟨reference, total, sequence⟩ := by
  have hmem : ∀ p ∈ optional, isSAR p = true → p ∈ sarTLVs reference total sequence := fun p hp hsar =>
    hperm.subset (List.mem_filter.mpr ⟨hp, hsar⟩)
  have hfound : ∀ p ∈ sarTLVs reference total sequence, optional.any (·.tag == p.tag) = true := fun p hp =>
    List.any_eq_true.mpr ⟨p, (List.mem_filter.mp (hperm.symm.subset hp)).1, beq_self_eq_true _⟩
  have hfields : sarFields optional {} = .ok ⟨some reference, some total, some sequence⟩ := by
    rw [sarFields_eq optional {} hmem, hfound ⟨tlvTagSARMsgRefNum, _⟩ List.mem_cons_self,
      hfound ⟨tlvTagSARTotalSegments, _⟩ (List.mem_cons_of_mem _ List.mem_cons_self),
      hfound ⟨tlvTagSARSegmentSeqnum, _⟩ (List.mem_cons_of_mem _ (List.mem_cons_of_mem _ List.mem_cons_self))]
    rfl
  rw [parseSAR, hfields]
  rfl

theorem parseSAR_sarTLVs {optional : List OptionalParameter}
    (hperm : (optional.filter isSAR).Perm (sarTLVs reference total sequence)) (htotal : total ≠ 0) (hseq : sequence ≠ 0)
    (hle : sequence ≤ total) : parseSAR optional = .ok ⟨reference, total, sequence⟩ := by
  have hvalid : ¬ (total = 0 ∨ sequence = 0 ∨ total < sequence) := by
    rintro (h | h | h)
    · exact htotal h
    · exact hseq h
    · exact absurd h (UInt8.not_lt.mpr hle)
  rw [parseSAR_eq hperm, if_neg hvalid]

end SAR

/-! ## What receivers can tell -/

def Segment.concatenation (s : Segment) : Concatenation := ⟨s.reference, s.total, s.sequence⟩

/-- The content of a segment is found in `octets`: as it is, or as septets packed behind `fill` bits. -/
def Segment.Content (s : Segment) (packed : Bool) (octets : Octets) (fill : UInt8) : Prop :=
  if packed = true ∧ s.kind = .gsm7 then unpackSeptets octets s.units fill = .ok s.data else octets = s.data

/-- The metadata and the content of a segment can be told from its user data, or from that and its optional parameters. -/
def Form.Recovers (form : Form) (s : Segment) : Prop :=
  match form with
  | .udh _ =>
    parseConcatUDH s.userData = .ok (s.concatenation, s.udh.length) ∧
      s.Content true (s.userData.drop s.udh.length) (gsm7UDHFillBits s.udh.length)
  | .sar _ =>
    (∀ optional : List OptionalParameter, (optional.filter isSAR).Perm s.optional → parseSAR optional = .ok s.concatenation) ∧
      s.Content true s.userData 0
  | .udh16 _ =>
    parseConcatUDH s.userData = .ok (s.concatenation, s.udh.length) ∧
      s.Content false (s.userData.drop s.udh.length) (gsm7UDHFillBits s.udh.length)

theorem content_of_contentOctets {s : Segment} {octets : Octets} {fill : UInt8}
    (h : contentOctets s.kind s.data fill = .ok octets) (hunits : s.units = chunkUnits s.kind s.data) :
    s.Content true octets fill := by
  unfold Segment.Content
  unfold contentOctets at h
  split at h
  case isTrue hkind =>
    have hlength : s.units = s.data.length := by
      rw [hunits, hkind]
      rfl
    rw [if_pos ⟨rfl, hkind⟩, hlength]
    exact unpackSeptets_packed h
  case isFalse hkind =>
    cases h
    rw [if_neg fun hpacked : true = true ∧ s.kind = .gsm7 => hkind hpacked.2]

theorem sequence_le_total {n i : Nat} (hi : i < n) (hn : n ≤ 255) :
    UInt8.ofNat n ≠ 0 ∧ UInt8.ofNat (i + 1) ≠ 0 ∧ UInt8.ofNat (i + 1) ≤ UInt8.ofNat n := by
  have htotal : (UInt8.ofNat n).toNat = n := by rw [UInt8.toNat_ofNat', Nat.mod_eq_of_lt (by omega)]
  have hseq : (UInt8.ofNat (i + 1)).toNat = i + 1 := by rw [UInt8.toNat_ofNat', Nat.mod_eq_of_lt (by omega)]
  have hzero : (0 : UInt8).toNat = 0 := rfl
  refine ⟨fun h0 => ?_, fun h0 => ?_, UInt8.le_iff_toNat_le.mpr (by omega)⟩
  · rw [h0, hzero] at htotal
    omega
  · rw [h0, hzero] at hseq
    omega

/-- **The segment of a part carries its metadata and its content.** -/
theorem Form.segmentOf_recovers {form : Form} {n i : Nat} {kind : Kind} {coding : DataCoding} {chunk : Octets} {s : Segment}
    (hi : i < n) (hn : n ≤ 255) (h : form.segmentOf (UInt8.ofNat n) kind coding (UInt8.ofNat (i + 1)) chunk = .ok s) :
    form.Recovers s := by
  cases form with
  | udh reference =>
    obtain ⟨content, hc, h⟩ := (Except.bind_ok _ _ _).mp h
    cases h
    refine ⟨parseConcatUDH_udh8 _ _ _ content, ?_⟩
    refine content_of_contentOctets ?_ rfl
    exact hc.trans (congrArg Except.ok List.drop_left.symm)
  | sar reference =>
    obtain ⟨content, hc, h⟩ := (Except.bind_ok _ _ _).mp h
    cases h
    obtain ⟨htotal, hseq, hle⟩ := sequence_le_total hi hn
    exact ⟨fun optional hperm => parseSAR_sarTLVs hperm htotal hseq hle, content_of_contentOctets hc rfl⟩
  | udh16 reference =>
    cases h
    refine ⟨parseConcatUDH_udh16 _ _ _ chunk, ?_⟩
    unfold Segment.Content
    rw [if_neg fun hpacked : false = true ∧ _ => Bool.noConfusion hpacked.1]
    exact List.drop_left

/-- **Segments can be read from the wire.** -/
theorem segment_recovers :
    (∀ (f : TextSegmenter) (text : ByteArray) (allow : Bool) (segments : List Segment),
      f.segment text allow = .ok segments → 1 < segments.length → ∀ s ∈ segments, f.form.Recovers s) ∧
    (∀ (f : BinarySegmenter) (data : Octets) (segments : List Segment),
      f.segment data = .ok segments → 1 < segments.length → ∀ s ∈ segments, f.form.Recovers s) := by
  refine ⟨fun f text allow segments h hmany s hs => ?_, fun f data segments h hmany s hs => ?_⟩
  · obtain ⟨encoded, he⟩ := f.encodeText_of_segment h
    obtain ⟨rs, us, -, hus⟩ := encodeText_encodes he
    rw [f.segment_eq he hus] at h
    split at h
    case isTrue =>
      obtain ⟨userData, rfl⟩ := f.form.single_ok h
      exact absurd hmany (Nat.lt_irrefl 1)
    case isFalse hlong =>
      obtain ⟨i, chunk, hi, hn, -, hmake⟩ := f.form.mem_make (f.form.partsOf_pos encoded.kind hlong) h s hs
      exact f.form.segmentOf_recovers hi hn hmake
  · rw [f.segment_eq] at h
    split at h
    case isTrue =>
      cases h
      exact absurd hmany (Nat.lt_irrefl 1)
    case isFalse hlong =>
      obtain ⟨i, chunk, hi, hn, -, hmake⟩ := f.form.mem_make (f.form.splitBytes_pos hlong) h s hs
      exact f.form.segmentOf_recovers hi hn hmake

/-- 81 characters of the extension table behind a header, and 141 octets with SAR parameters. -/
theorem segment_recovers_extension :
    (∃ segments, (TextSegmenter.udh 7).segment (stringOf (List.replicate 81 '[')) false = .ok segments ∧
      segments.length = 2 ∧ ∀ s ∈ segments, (Form.udh 7).Recovers s) ∧
    (∃ segments, (BinarySegmenter.sar 300).segment (List.replicate 141 0xff) = .ok segments ∧
      segments.length = 2 ∧ ∀ s ∈ segments, (Form.sar 300).Recovers s) := by
  constructor
  · obtain ⟨segments, hs, hu⟩ := segment_extension
    have hn : segments.length = 2 := by simpa using congrArg List.length hu
    exact ⟨segments, hs, hn, segment_recovers.1 _ _ _ _ hs (hn ▸ Nat.one_lt_two)⟩
  · obtain ⟨segments, hs, hu⟩ := segment_octets
    have hn : segments.length = 2 := by simpa using congrArg List.length hu
    exact ⟨segments, hs, hn, segment_recovers.2 _ _ _ hs (hn ▸ Nat.one_lt_two)⟩

end GoSmpp.Message
