import GoSmpp.Encoding.Septets
import GoSmpp.Message.Cutting

/-!
# What the segmenters have in common

There are three forms of a multipart message: concatenation in a user data header with an 8-bit reference, in SAR TLVs, and in a
user data header with a 16-bit reference and septets that are not packed.

* `Form.segmentOf`: the segment of one part. `Form.make_eq`: all segments of a message.
* `TextSegmenter.segment_eq`, `BinarySegmenter.segment_eq`: each segmenter returns one segment if the message fits one, and
  otherwise makes the segments of its greedy cut.
-/

namespace GoSmpp.Message

open GoSmpp.Lib GoSmpp.Encoding
open GoSmpp.Protocol hiding Kind

inductive Form where
  | udh (reference : UInt8)
  | sar (reference : UInt16)
  | udh16 (reference : UInt16)
  deriving DecidableEq, Repr

namespace Form

/-- The function that makes the segments of this form. -/
def make : Form → List Octets → Kind → DataCoding → Except Err (List Segment)
  | .udh reference, parts, kind, coding => makeUDHSegments parts kind coding reference
  | .sar reference, parts, kind, coding => makeSARSegments parts kind coding reference
  | .udh16 reference, parts, kind, coding => makeUDH16UnpackedSegments parts kind coding reference

def segmentOf (form : Form) (total : UInt8) (kind : Kind) (coding : DataCoding) (sequence : UInt8) (chunk : Octets) :
    Except Err Segment :=
  match form with
  | .udh reference => do
    let udh := buildConcatUDH8 reference total sequence
    let content ← contentOctets kind chunk (gsm7UDHFillBits udh.length)
    return { reference := UInt16.ofNat reference.toNat, total, sequence, kind, dataCoding := coding,
             units := chunkUnits kind chunk, data := chunk, udh, userData := udh ++ content }
  | .sar reference => do
    let userData ← contentOctets kind chunk 0
    return { reference, total, sequence, kind, dataCoding := coding, units := chunkUnits kind chunk, data := chunk,
             userData, optional := sarTLVs reference total sequence }
  | .udh16 reference =>
    let udh := buildConcatUDH16 reference total sequence
    .ok { reference, total, sequence, kind, dataCoding := coding, units := chunkUnits kind chunk, data := chunk, udh,
          userData := udh ++ chunk }

/-- The error for more parts than can be numbered. -/
def tooMany : Form → Nat → Err
  | .udh _, n | .udh16 _, n => invalidSegmentsBy ("part count " ++ toString n)
  | .sar _, _ => invalidSegments

theorem tooMany_is (form : Form) (n : Nat) : (form.tooMany n).is .invalidSegments = true := by
  cases form <;> rfl

theorem make_eq (form : Form) {parts : List Octets} (hne : 0 < parts.length) (kind : Kind) (coding : DataCoding) :
    form.make parts kind coding =
      if 255 < parts.length then .error (form.tooMany parts.length)
      else segmentsFrom (form.segmentOf (UInt8.ofNat parts.length) kind coding) 0 parts := by
  have hcount : (parts.length = 0 ∨ 255 < parts.length) ↔ 255 < parts.length := ⟨fun h => by omega, .inr⟩
  cases form with
  | udh | udh16 => exact if_congr hcount rfl rfl
  | sar => rfl

section SegmentOf
variable {form : Form} {total sequence : UInt8} {kind : Kind} {coding : DataCoding} {chunk : Octets} {s : Segment}

theorem segmentOf_ok (h : form.segmentOf total kind coding sequence chunk = .ok s) :
    s.sequence = sequence ∧ s.data = chunk ∧ s.total = total ∧ s.kind = kind ∧ s.units = chunkUnits kind chunk := by
  cases form with
  | udh | sar =>
    obtain ⟨content, _, h⟩ := (Except.bind_ok _ _ _).mp h
    cases h
    exact ⟨rfl, rfl, rfl, rfl, rfl⟩
  | udh16 =>
    cases h
    exact ⟨rfl, rfl, rfl, rfl, rfl⟩

theorem exists_contentOctets (hs : kind = .gsm7 → ∀ o ∈ chunk, o < 0x80) {fill : UInt8} (hfill : fill ≤ 6) :
    ∃ content, contentOctets kind chunk fill = .ok content := by
  unfold contentOctets
  split
  case isTrue hkind =>
    obtain ⟨data, hdata, -⟩ := packSeptetsWithFill_ok (hs hkind) hfill
    exact ⟨data, hdata⟩
  case isFalse => exact ⟨_, rfl⟩

theorem exists_segmentOf (hs : kind = .gsm7 → ∀ o ∈ chunk, o < 0x80) :
    ∃ s, form.segmentOf total kind coding sequence chunk = .ok s := by
  cases form with
  | udh reference =>
    obtain ⟨content, hc⟩ := exists_contentOctets hs (show gsm7UDHFillBits 6 ≤ 6 by decide)
    exact ⟨_, by rw [segmentOf]; exact (Except.bind_ok _ _ _).mpr ⟨content, hc, rfl⟩⟩
  | sar reference =>
    obtain ⟨content, hc⟩ := exists_contentOctets hs (show (0 : UInt8) ≤ 6 by decide)
    exact ⟨_, by rw [segmentOf]; exact (Except.bind_ok _ _ _).mpr ⟨content, hc, rfl⟩⟩
  | udh16 reference => exact ⟨_, rfl⟩

end SegmentOf

section Make
variable {form : Form} {parts : List Octets} {kind : Kind} {coding : DataCoding} {segments : List Segment}

theorem mem_segmentsFrom {build : UInt8 → Octets → Except Err Segment} : ∀ (chunks : List Octets) (i : Nat)
    (segments : List Segment), segmentsFrom build i chunks = .ok segments → ∀ s ∈ segments,
      ∃ j chunk, i ≤ j ∧ j < i + chunks.length ∧ chunk ∈ chunks ∧ build (UInt8.ofNat (j + 1)) chunk = .ok s
  | [], _, _, h, s, hs => by
    cases h
    cases hs
  | chunk :: chunks, i, _, h, s, hs => by
    obtain ⟨first, hfirst, h⟩ := (Except.bind_ok _ _ _).mp h
    obtain ⟨rest, hrest, h⟩ := (Except.bind_ok _ _ _).mp h
    cases h
    rcases List.mem_cons.mp hs with rfl | hs
    · exact ⟨i, chunk, Nat.le_refl i, Nat.lt_add_of_pos_right (Nat.succ_pos _), List.mem_cons_self, hfirst⟩
    · obtain ⟨j, c, hle, hlt, hc, hmake⟩ := mem_segmentsFrom chunks (i + 1) rest hrest s hs
      rw [List.length_cons]
      exact ⟨j, c, by omega, by omega, List.mem_cons_of_mem chunk hc, hmake⟩

theorem exists_segmentsFrom {build : UInt8 → Octets → Except Err Segment} : ∀ (chunks : List Octets) (i : Nat),
    (∀ sequence, ∀ chunk ∈ chunks, ∃ s, build sequence chunk = .ok s) → ∃ segments, segmentsFrom build i chunks = .ok segments
  | [], _, _ => ⟨[], rfl⟩
  | chunk :: chunks, i, h => by
    obtain ⟨s, hs⟩ := h (UInt8.ofNat (i + 1)) chunk List.mem_cons_self
    obtain ⟨rest, hrest⟩ := exists_segmentsFrom chunks (i + 1) fun n c hc => h n c (List.mem_cons_of_mem chunk hc)
    exact ⟨s :: rest, by rw [segmentsFrom, hs, hrest]; rfl⟩

theorem mem_make (hne : 0 < parts.length) (h : form.make parts kind coding = .ok segments) : ∀ s ∈ segments,
    ∃ i chunk, i < parts.length ∧ parts.length ≤ 255 ∧ chunk ∈ parts ∧
      form.segmentOf (UInt8.ofNat parts.length) kind coding (UInt8.ofNat (i + 1)) chunk = .ok s := by
  intro s hs
  rw [make_eq form hne] at h
  split at h
  case isTrue => cases h
  case isFalse hle =>
    obtain ⟨i, chunk, -, hi, hc, hmake⟩ := mem_segmentsFrom parts 0 segments h s hs
    exact ⟨i, chunk, by omega, Nat.not_lt.mp hle, hc, hmake⟩

theorem exists_make (hne : 0 < parts.length) (hle : parts.length ≤ 255)
    (hs : kind = .gsm7 → ∀ chunk ∈ parts, ∀ o ∈ chunk, o < 0x80) : ∃ segments, form.make parts kind coding = .ok segments := by
  rw [make_eq form hne, if_neg (Nat.not_lt.mpr hle)]
  exact exists_segmentsFrom parts 0 fun _ chunk hc => exists_segmentOf fun hkind => hs hkind chunk hc

end Make

end Form

/-! ## The segmenters -/

/-- The segmenters of text, with the reference they are given. -/
inductive TextSegmenter where
  | udh (reference : UInt8)
  | sar (reference : UInt16)
  | udh16Unpacked (reference : UInt16)

def TextSegmenter.segment : TextSegmenter → ByteArray → Bool → Except Err (List Segment)
  | .udh reference, text, allow => segmentTextUDH text allow reference
  | .sar reference, text, allow => segmentTextSAR text allow reference
  | .udh16Unpacked reference, text, allow => segmentTextUDH16Unpacked text allow reference

inductive BinarySegmenter where
  | udh (reference : UInt8)
  | sar (reference : UInt16)
  | udh16 (reference : UInt16)

def BinarySegmenter.segment : BinarySegmenter → Octets → Except Err (List Segment)
  | .udh reference, data => segmentBinaryUDH data reference
  | .sar reference, data => segmentBinarySAR data reference
  | .udh16 reference, data => segmentBinaryUDH16 data reference

def TextSegmenter.form : TextSegmenter → Form
  | .udh reference => .udh reference
  | .sar reference => .sar reference
  | .udh16Unpacked reference => .udh16 reference

def BinarySegmenter.form : BinarySegmenter → Form
  | .udh reference => .udh reference
  | .sar reference => .sar reference
  | .udh16 reference => .udh16 reference

/-- The units of a text that fit one message. -/
def singleUnits (kind : Kind) : Nat := if kind = .gsm7 then gsm7SingleSeptets else ucs2SingleUnits

/-- The units of a text that fit one segment of this form. -/
def Form.textLimit : Form → Kind → Nat
  | .udh _, kind => if kind = .gsm7 then gsm7MultipartSeptets else ucs2MultipartUnits
  | .sar _, kind => singleUnits kind
  | .udh16 _, kind => if kind = .gsm7 then gsm7Multipart16Septets else ucs2Multipart16Units

/-- The octets that fit one segment of this form. -/
def Form.binaryLimit : Form → Nat
  | .udh _ => binaryMultipartOctets
  | .sar _ => binarySingleOctets
  | .udh16 _ => binaryMultipart16Bytes

/-- The segment of a text that fits one message. -/
def Form.single (form : Form) (encoded : EncodedText) : Except Err (List Segment) :=
  match form with
  | .udh _ | .sar _ => singleText encoded <$> contentOctets encoded.kind encoded.data 0
  | .udh16 _ => .ok (singleText encoded encoded.data)

def Form.partsOf (form : Form) (kind : Kind) (us : List UInt16) : List Octets :=
  (pairChunks (leads kind) (form.textLimit kind) us).map (wire kind)

theorem Form.two_le_textLimit (form : Form) (kind : Kind) : 2 ≤ form.textLimit kind := by
  cases form <;> simp only [textLimit, singleUnits] <;> split <;> decide

theorem Form.cutText_textLimit (form : Form) {kind : Kind} {rs : List Char} {us : List UInt16} (h : Encodes kind rs us) :
    cutText kind (wire kind us) (form.textLimit kind) = .ok (form.partsOf kind us) := cutText_eq (form.two_le_textLimit kind) h

theorem Form.flatten_partsOf (form : Form) (kind : Kind) (us : List UInt16) :
    (form.partsOf kind us).flatten = wire kind us := by
  have hwire : ∀ parts : List (List UInt16), (parts.map (wire kind)).flatten = wire kind parts.flatten := by
    intro parts
    induction parts with
    | nil => unfold wire; split <;> rfl
    | cons p parts ih => rw [List.map_cons, List.flatten_cons, ih, List.flatten_cons, wire_append]
  rw [partsOf, hwire, pairChunks, flatten_chunks (pairSize_pos (form.two_le_textLimit kind))]

theorem Form.partsOf_pos (form : Form) (kind : Kind) {us : List UInt16} (h : ¬ us.length ≤ singleUnits kind) :
    0 < (form.partsOf kind us).length := by
  rw [partsOf, List.length_map]
  exact length_pairChunks_pos (form.two_le_textLimit kind) (by omega)

theorem Form.single_ok (form : Form) {encoded : EncodedText} {segments : List Segment} (h : form.single encoded = .ok segments) :
    ∃ userData, segments = singleText encoded userData := by
  cases form with
  | udh | sar =>
    obtain ⟨userData, -, rfl⟩ := Except.ok_of_map h
    exact ⟨userData, rfl⟩
  | udh16 =>
    cases h
    exact ⟨_, rfl⟩

section Text
variable {text : ByteArray} {allow : Bool} {encoded : EncodedText} {rs : List Char} {us : List UInt16}

theorem Form.single_or_make (form : Form) (h : EncodedAs encoded rs us) :
    (if encoded.units ≤ singleUnits encoded.kind then form.single encoded
      else do form.make (← cutText encoded.kind encoded.data (form.textLimit encoded.kind)) encoded.kind encoded.dataCoding) =
      if us.length ≤ singleUnits encoded.kind then form.single encoded
      else form.make (form.partsOf encoded.kind us) encoded.kind encoded.dataCoding := by
  rw [h.units, h.data, form.cutText_textLimit h.encodes]
  rfl

theorem segmentTextUDH_eq (he : encodeText text allow = .ok encoded) (h : EncodedAs encoded rs us) (reference : UInt8) :
    segmentTextUDH text allow reference =
      if us.length ≤ singleUnits encoded.kind then (Form.udh reference).single encoded
      else (Form.udh reference).make ((Form.udh reference).partsOf encoded.kind us) encoded.kind encoded.dataCoding := by
  have htext := h.textual
  rw [← (Form.udh reference).single_or_make h]
  show (encodeText text allow >>= fun encoded => _) = _
  rw [he]
  obtain ⟨kind, coding, data, units⟩ := encoded
  cases kind with
  | gsm7 | ucs2 | utf16be => rfl
  | unknown | binary => cases htext

theorem segmentTextUDH16Unpacked_eq (he : encodeText text allow = .ok encoded) (h : EncodedAs encoded rs us)
    (reference : UInt16) :
    segmentTextUDH16Unpacked text allow reference =
      if us.length ≤ singleUnits encoded.kind then (Form.udh16 reference).single encoded
      else (Form.udh16 reference).make ((Form.udh16 reference).partsOf encoded.kind us) encoded.kind encoded.dataCoding := by
  have htext := h.textual
  rw [← (Form.udh16 reference).single_or_make h]
  show (encodeText text allow >>= fun encoded => _) = _
  rw [he]
  obtain ⟨kind, coding, data, units⟩ := encoded
  cases kind with
  | gsm7 | ucs2 | utf16be => rfl
  | unknown | binary => cases htext

theorem segmentTextSAR_eq (he : encodeText text allow = .ok encoded) (h : EncodedAs encoded rs us) (reference : UInt16) :
    segmentTextSAR text allow reference =
      if us.length ≤ singleUnits encoded.kind then (Form.sar reference).single encoded
      else (Form.sar reference).make ((Form.sar reference).partsOf encoded.kind us) encoded.kind encoded.dataCoding := by
  have hcut := (Form.sar reference).cutText_textLimit h.encodes
  rw [← h.data] at hcut
  have hchunks : sarChunks encoded = .ok ((Form.sar reference).partsOf encoded.kind us) := by
    rw [← hcut]
    obtain ⟨kind, coding, data, units⟩ := encoded
    cases kind <;> rfl
  have hone : ((Form.sar reference).partsOf encoded.kind us).length ≤ 1 ↔ us.length ≤ singleUnits encoded.kind := by
    rw [Form.partsOf, List.length_map]
    exact length_pairChunks_le_one ((Form.sar reference).two_le_textLimit encoded.kind)
  show (encodeText text allow >>= fun encoded => sarChunks encoded >>= fun chunks => _) = _
  rw [he]
  show (sarChunks encoded >>= fun chunks => _) = _
  rw [hchunks]
  show (if _ then segmentTextUDH text allow _ else _) = _
  rw [if_congr hone rfl rfl, segmentTextUDH_eq he h]
  split <;> rfl

theorem TextSegmenter.encodeText_of_segment (f : TextSegmenter) {segments : List Segment}
    (h : f.segment text allow = .ok segments) : ∃ encoded, encodeText text allow = .ok encoded := by
  cases f with
  | udh | sar | udh16Unpacked =>
    obtain ⟨encoded, he, -⟩ := (Except.bind_ok _ _ _).mp h
    exact ⟨encoded, he⟩

/-- **Every segmenter of text** returns one segment if the text fits, and the segments of its greedy cut otherwise. -/
theorem TextSegmenter.segment_eq (f : TextSegmenter) (he : encodeText text allow = .ok encoded) (h : EncodedAs encoded rs us) :
    f.segment text allow =
      if us.length ≤ singleUnits encoded.kind then f.form.single encoded
      else f.form.make (f.form.partsOf encoded.kind us) encoded.kind encoded.dataCoding := by
  cases f with
  | udh reference => exact segmentTextUDH_eq he h reference
  | sar reference => exact segmentTextSAR_eq he h reference
  | udh16Unpacked reference => exact segmentTextUDH16Unpacked_eq he h reference

end Text

theorem segment_extension : ∃ segments,
    (TextSegmenter.udh 7).segment (stringOf (List.replicate 81 '[')) false = .ok segments ∧
      segments.map (·.units) = [152, 10] := by
  -- the septets are evaluated once, not at each use of them
  have hseptets : runesGSM7 (List.replicate 81 '[') = .ok (List.replicate 81 [0x1b, 0x3c]).flatten := by decide +kernel
  refine Except.ok_of_map ?_
  rw [TextSegmenter.segment, segmentTextUDH, encodeText, selectText, encodeGSM7_stringOf, hseptets]
  decide +kernel

/-! ## Octets -/

theorem splitBytes_eq (data : Octets) (max : Nat) : splitBytes data max = pairChunks (fun _ => false) max data := by
  have hsize : (fun data : Octets => if data.length < max then data.length else max) = pairSize (fun _ => false) max := by
    funext data
    rw [pairSize_of_forall fun _ _ => rfl]
    split <;> omega
  rw [splitBytes, hsize, pairChunks]

theorem Form.two_le_binaryLimit (form : Form) : 2 ≤ form.binaryLimit := by cases form <;> simp only [binaryLimit] <;> decide

theorem Form.splitBytes_pos (form : Form) {data : Octets} (h : ¬ data.length ≤ binarySingleOctets) :
    0 < (splitBytes data form.binaryLimit).length := by
  rw [splitBytes_eq]
  exact length_pairChunks_pos form.two_le_binaryLimit (by omega)

/-- **Every segmenter of octets.** -/
theorem BinarySegmenter.segment_eq (f : BinarySegmenter) (data : Octets) :
    f.segment data =
      if data.length ≤ binarySingleOctets then .ok (singleBinary data)
      else f.form.make (splitBytes data f.form.binaryLimit) .binary dataCodingOctetBinary2 := by
  cases f with
  | udh | udh16 => rfl
  | sar reference =>
    have hone : (splitBytes data binarySingleOctets).length ≤ 1 ↔ data.length ≤ binarySingleOctets := by
      rw [splitBytes_eq]
      exact length_pairChunks_le_one (by decide)
    show (if _ then segmentBinaryUDH data _ else _) = _
    rw [if_congr hone rfl rfl, segmentBinaryUDH]
    split <;> rfl

theorem segment_octets : ∃ segments,
    (BinarySegmenter.sar 300).segment (List.replicate 141 0xff) = .ok segments ∧ segments.map (·.units) = [140, 1] :=
  Except.ok_of_map (by decide +kernel)

end GoSmpp.Message
