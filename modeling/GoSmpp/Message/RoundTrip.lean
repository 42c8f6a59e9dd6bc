import GoSmpp.Message.Forms

/-!
# Segments give the message back

* `CompleteSet`: the segments of one message in order, numbered from 1, with the same metadata.
* `CompleteSet.reassemble`: whatever order its segments come in, a complete set reassembles to its content.
* `TextSegmenter.complete`, `BinarySegmenter.complete`: every segmenter returns a complete set, of the octets of the encoded
  text or of the given octets.
* `reassemble_segment`: the round trip.
-/

namespace GoSmpp.Message

open GoSmpp.Lib GoSmpp.Encoding
open GoSmpp.Protocol hiding Kind

/-! ## Complete sets -/

/-- What all segments of a message share. -/
structure Shared (reference : UInt16) (kind : Kind) (coding : DataCoding) (total : UInt8) (s : Segment) : Prop where
  reference : s.reference = reference
  kind : s.kind = kind
  coding : s.dataCoding = coding
  total : s.total = total

/-- The sequence numbers of `n` segments from index `i` on. -/
def numbers (i n : Nat) : List UInt8 := (List.range' i n).map fun i => UInt8.ofNat (i + 1)

theorem numbers_succ (i n : Nat) : numbers i (n + 1) = UInt8.ofNat (i + 1) :: numbers (i + 1) n := rfl

/-- The segments of one message, in order. -/
structure CompleteSet (segments : List Segment) (kind : Kind) (data : Octets) : Prop where
  positive : 0 < segments.length
  atMost : segments.length ≤ 255
  numbered : segments.map (·.sequence) = numbers 0 segments.length
  shared : ∃ reference coding, ∀ s ∈ segments, Shared reference kind coding (UInt8.ofNat segments.length) s
  content : (segments.map (·.data)).flatten = data

theorem toNat_number {i : Nat} (h : i < 255) : (UInt8.ofNat (i + 1)).toNat = i + 1 := by
  rw [UInt8.toNat_ofNat', Nat.mod_eq_of_lt (by omega)]

theorem numbers_increase : ∀ (n i : Nat), i + n ≤ 255 → (numbers i n).Pairwise fun a b => a.toNat < b.toNat := by
  intro n i h
  refine List.pairwise_map.mpr ((List.pairwise_lt_range' (s := i) (n := n)).imp_of_mem fun ha hb hlt => ?_)
  rw [List.mem_range'_1] at ha hb
  rw [toNat_number (by omega), toNat_number (by omega)]
  omega

theorem firstDuplicate_eq_none : ∀ (parts : List Segment) (seen : List UInt8),
    firstDuplicate parts seen = none ↔ (parts.map (·.sequence)).Nodup ∧ ∀ p ∈ parts, p.sequence ∉ seen
  | [], _ => by simp [firstDuplicate]
  | part :: parts, seen => by
    rw [firstDuplicate]
    split
    case isTrue hseen => simp [hseen]
    case isFalse hseen =>
      rw [firstDuplicate_eq_none parts]
      simp only [List.map_cons, List.nodup_cons, List.mem_map, List.mem_cons, forall_eq_or_imp]
      grind

theorem joinParts_numbered {first : Segment} : ∀ (parts : List Segment) (i : Nat),
    (∀ p ∈ parts, Shared first.reference first.kind first.dataCoding first.total p) →
    parts.map (·.sequence) = numbers i parts.length → joinParts first i parts = .ok (parts.map (·.data)).flatten
  | [], _, _, _ => rfl
  | part :: parts, i, hs, hn => by
    have hpart := hs part List.mem_cons_self
    rw [List.map_cons, List.length_cons, numbers_succ, List.cons.injEq] at hn
    have hrest := joinParts_numbered parts (i + 1) (fun p hp => hs p (List.mem_cons_of_mem _ hp)) hn.2
    rw [joinParts, if_neg (by simp [hpart.reference, hpart.kind, hpart.coding, hpart.total, hn.1]), hrest]
    rfl

namespace CompleteSet
variable {segments segments' : List Segment} {kind : Kind} {data : Octets}

theorem increase (h : CompleteSet segments kind data) :
    segments.Pairwise fun a b => a.sequence.toNat < b.sequence.toNat := by
  have hn := numbers_increase segments.length 0 (by have := h.atMost; omega)
  rw [← h.numbered, List.pairwise_map] at hn
  exact hn

/-- **A complete set reassembles.** -/
theorem reassemble (h : CompleteSet segments kind data) (sortFunc : SortFunc) (hp : segments'.Perm segments) :
    Message.reassemble sortFunc segments' = .ok data := by
  have hsort : sortFunc.sort segments' = segments := sortFunc.sort_eq h.increase hp
  have hdup : firstDuplicate segments [] = none := by
    refine (firstDuplicate_eq_none _ _).mpr ⟨List.pairwise_map.mpr (h.increase.imp ?_), by simp⟩
    intro a b hlt heq
    rw [heq] at hlt
    exact Nat.lt_irrefl _ hlt
  obtain ⟨reference, coding, hshared⟩ := h.shared
  obtain ⟨first, rest, rfl⟩ := List.exists_cons_of_length_pos h.positive
  have hfirst := hshared first List.mem_cons_self
  have htotal : first.total.toNat = (first :: rest).length := by
    rw [hfirst.total, UInt8.toNat_ofNat', Nat.mod_eq_of_lt (by have := h.atMost; omega)]
  have hzero : first.total ≠ 0 := by
    intro h0
    rw [h0] at htotal
    exact absurd htotal.symm (Nat.succ_ne_zero _)
  have hagree : ∀ p ∈ first :: rest, Shared first.reference first.kind first.dataCoding first.total p := by
    rw [hfirst.reference, hfirst.kind, hfirst.coding, hfirst.total]
    exact hshared
  unfold Message.reassemble
  simp only [hsort, hdup, if_neg hzero, htotal, ne_eq, not_true_eq_false, if_false]
  rw [joinParts_numbered _ 0 hagree h.numbered, h.content]

theorem head_kind (h : CompleteSet segments kind data) (hp : segments'.Perm segments) :
    ∃ first rest, segments' = first :: rest ∧ first.kind = kind := by
  have hlen : 0 < segments'.length := by rw [hp.length_eq]; exact h.positive
  obtain ⟨first, rest, rfl⟩ := List.exists_cons_of_length_pos hlen
  obtain ⟨_, _, hshared⟩ := h.shared
  exact ⟨first, rest, rfl, (hshared first (hp.subset List.mem_cons_self)).kind⟩

theorem decodeTextSegments {decode : Octets → Except Err ByteArray} {text : ByteArray}
    (h : CompleteSet segments kind data) (sortFunc : SortFunc) (hp : segments'.Perm segments)
    (hd : decoder kind = some decode) (htext : decode data = .ok text) :
    Message.decodeTextSegments sortFunc segments' = .ok text := by
  have hr := h.reassemble sortFunc hp
  obtain ⟨first, rest, rfl, hkind⟩ := h.head_kind hp
  unfold Message.decodeTextSegments
  simp only [hr, hkind]
  cases kind <;> cases hd <;> exact htext

end CompleteSet

/-! ## The segmenters return complete sets -/

/-- `make` builds the segment of a chunk. -/
def Makes (make : UInt8 → Octets → Except Err Segment) (reference : UInt16) (kind : Kind) (coding : DataCoding)
    (total : UInt8) : Prop :=
  ∀ sequence chunk s, make sequence chunk = .ok s →
    s.sequence = sequence ∧ s.data = chunk ∧ Shared reference kind coding total s

section Make
variable {make : UInt8 → Octets → Except Err Segment} {reference : UInt16} {kind : Kind} {coding : DataCoding}
  {total : UInt8}

theorem segmentsFrom_numbered (hm : Makes make reference kind coding total) :
    ∀ (chunks : List Octets) (i : Nat) (segments : List Segment), segmentsFrom make i chunks = .ok segments →
      segments.map (·.sequence) = numbers i chunks.length ∧ segments.map (·.data) = chunks ∧
      ∀ s ∈ segments, Shared reference kind coding total s
  | [], _, _, h => by cases h; exact ⟨rfl, rfl, by simp⟩
  | chunk :: chunks, i, _, h => by
    obtain ⟨s, hs, h⟩ := (Except.bind_ok _ _ _).mp h
    obtain ⟨rest, hrest, h⟩ := (Except.bind_ok _ _ _).mp h
    cases h
    obtain ⟨hseq, hdata, hshared⟩ := hm _ _ _ hs
    obtain ⟨hseqs, hdatas, hall⟩ := segmentsFrom_numbered hm chunks (i + 1) rest hrest
    refine ⟨?_, ?_, ?_⟩
    · rw [List.map_cons, hseq, hseqs, List.length_cons, numbers_succ]
    · rw [List.map_cons, hdata, hdatas]
    · exact List.forall_mem_cons.mpr ⟨hshared, hall⟩

theorem CompleteSet.of_segmentsFrom {chunks : List Octets} {segments : List Segment}
    (hm : Makes make reference kind coding (UInt8.ofNat chunks.length)) (hc : 0 < chunks.length ∧ chunks.length ≤ 255)
    (h : segmentsFrom make 0 chunks = .ok segments) : CompleteSet segments kind chunks.flatten := by
  obtain ⟨hseqs, hdatas, hall⟩ := segmentsFrom_numbered hm chunks 0 segments h
  have hlen : segments.length = chunks.length := by rw [← hdatas, List.length_map]
  rw [← hlen] at hseqs hall hc
  exact ⟨hc.1, hc.2, hseqs, ⟨reference, coding, hall⟩, by rw [hdatas]⟩

end Make

section Multipart
variable {form : Form} {parts : List Octets} {kind : Kind} {coding : DataCoding} {segments : List Segment}

/-- The reference that the segments carry. -/
def Form.reference : Form → UInt16
  | .udh reference => UInt16.ofNat reference.toNat
  | .sar reference | .udh16 reference => reference

theorem Form.makes (form : Form) (total : UInt8) (kind : Kind) (coding : DataCoding) :
    Makes (form.segmentOf total kind coding) form.reference kind coding total := by
  intro sequence chunk s hs
  cases form with
  | udh | sar =>
    obtain ⟨content, _, hs⟩ := (Except.bind_ok _ _ _).mp hs
    cases hs
    exact ⟨rfl, rfl, rfl, rfl, rfl, rfl⟩
  | udh16 =>
    cases hs
    exact ⟨rfl, rfl, rfl, rfl, rfl, rfl⟩

theorem Form.map_data_make (hne : 0 < parts.length) (h : form.make parts kind coding = .ok segments) :
    segments.map (·.data) = parts := by
  rw [form.make_eq hne] at h
  split at h
  case isTrue => cases h
  case isFalse => exact (segmentsFrom_numbered (form.makes _ kind coding) parts 0 segments h).2.1

theorem Form.make_complete (hne : 0 < parts.length) (h : form.make parts kind coding = .ok segments) :
    CompleteSet segments kind parts.flatten := by
  rw [form.make_eq hne] at h
  split at h
  case isTrue => cases h
  case isFalse hle => exact .of_segmentsFrom (form.makes _ kind coding) ⟨hne, Nat.not_lt.mp hle⟩ h

theorem singleText_complete (encoded : EncodedText) (userData : Octets) :
    CompleteSet (singleText encoded userData) encoded.kind encoded.data :=
  ⟨Nat.one_pos, Nat.le_of_ble_eq_true rfl, rfl, ⟨0, encoded.dataCoding, by simp [singleText]; exact ⟨rfl, rfl, rfl, rfl⟩⟩,
    by simp [singleText]⟩

theorem singleBinary_complete (data : Octets) : CompleteSet (singleBinary data) .binary data :=
  ⟨Nat.one_pos, Nat.le_of_ble_eq_true rfl, rfl,
    ⟨0, dataCodingOctetBinary2, by simp [singleBinary]; exact ⟨rfl, rfl, rfl, rfl⟩⟩, by simp [singleBinary]⟩

end Multipart

/-! ## The round trip -/

theorem TextSegmenter.complete (f : TextSegmenter) {text : ByteArray} {allow : Bool} {segments : List Segment}
    (h : f.segment text allow = .ok segments) :
    ∃ encoded, encodeText text allow = .ok encoded ∧ CompleteSet segments encoded.kind encoded.data := by
  obtain ⟨encoded, he⟩ := f.encodeText_of_segment h
  obtain ⟨rs, us, -, hus⟩ := encodeText_encodes he
  refine ⟨encoded, he, ?_⟩
  rw [f.segment_eq he hus] at h
  split at h
  case isTrue =>
    obtain ⟨userData, rfl⟩ := f.form.single_ok h
    exact singleText_complete encoded userData
  case isFalse hlong =>
    rw [hus.data, ← f.form.flatten_partsOf]
    exact f.form.make_complete (f.form.partsOf_pos encoded.kind hlong) h

theorem BinarySegmenter.complete (f : BinarySegmenter) {data : Octets} {segments : List Segment}
    (h : f.segment data = .ok segments) : CompleteSet segments .binary data := by
  rw [f.segment_eq] at h
  split at h
  case isTrue =>
    cases h
    exact singleBinary_complete data
  case isFalse hlong =>
    have hflat : (splitBytes data f.form.binaryLimit).flatten = data := by
      rw [splitBytes_eq]
      exact flatten_chunks (pairSize_pos f.form.two_le_binaryLimit) data
    have hcomplete := f.form.make_complete (f.form.splitBytes_pos hlong) h
    rwa [hflat] at hcomplete

theorem decoder_encodeText {text : ByteArray} {allow : Bool} {encoded : EncodedText}
    (h : encodeText text allow = .ok encoded) :
    ∃ decode, decoder encoded.kind = some decode ∧ decode encoded.data = .ok text := by
  obtain ⟨selected, hs, h⟩ := (Except.bind_ok _ _ _).mp h
  cases h
  exact decoder_selectText hs

/-- **The round trip.** The segments of a text decode to the text, and the segments of octets reassemble to the octets,
in whatever order they arrive. -/
theorem reassemble_segment (sortFunc : SortFunc) :
    (∀ (f : TextSegmenter) (text : ByteArray) (allow : Bool) (segments segments' : List Segment),
      f.segment text allow = .ok segments → segments'.Perm segments → decodeTextSegments sortFunc segments' = .ok text) ∧
    (∀ (f : BinarySegmenter) (data : Octets) (segments segments' : List Segment),
      f.segment data = .ok segments → segments'.Perm segments → reassemble sortFunc segments' = .ok data) := by
  refine ⟨fun f text allow segments segments' h hp => ?_, fun f data segments segments' h hp => ?_⟩
  · obtain ⟨encoded, he, hc⟩ := f.complete h
    obtain ⟨decode, hd, htext⟩ := decoder_encodeText he
    exact hc.decodeTextSegments sortFunc hp hd htext
  · exact (f.complete h).reassemble sortFunc hp

/-- 81 characters of the extension table are 162 septets, cut before the escape at the limit; and 141 octets. -/
theorem reassemble_segment_extension :
    (∃ segments, (TextSegmenter.udh 7).segment (stringOf (List.replicate 81 '[')) false = .ok segments ∧
      segments.map (·.units) = [152, 10] ∧
      decodeTextSegments (Sorter.merge _) segments.reverse = .ok (stringOf (List.replicate 81 '['))) ∧
    (∃ segments, (BinarySegmenter.sar 300).segment (List.replicate 141 0xff) = .ok segments ∧
      segments.map (·.units) = [140, 1] ∧
      reassemble (Sorter.merge _) segments.reverse = .ok (List.replicate 141 0xff)) := by
  constructor
  · obtain ⟨segments, hs, hu⟩ := segment_extension
    exact ⟨segments, hs, hu, (reassemble_segment _).1 _ _ _ _ _ hs (List.reverse_perm segments)⟩
  · obtain ⟨segments, hs, hu⟩ := segment_octets
    exact ⟨segments, hs, hu, (reassemble_segment _).2 _ _ _ _ hs (List.reverse_perm segments)⟩

end GoSmpp.Message
