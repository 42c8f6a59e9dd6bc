import GoSmpp.Message.Reassembly

/-!
# The segments of a text

* `segment_standsAlone`: every segment decodes on its own, the pieces make up the text, and every segment fits its message.
* `segment_optimal`: there are as few segments as there can be, and there is an error only where more than 255 are needed.
-/

namespace GoSmpp.Message

open GoSmpp.Lib GoSmpp.Encoding
open GoSmpp.Protocol hiding Kind

/-! ## Whole characters -/

def concat (pieces : List ByteArray) : ByteArray := pieces.foldr (· ++ ·) ByteArray.empty

theorem concat_stringOf (rss : List (List Char)) : concat (rss.map stringOf) = stringOf rss.flatten := by
  induction rss with
  | nil => rfl
  | cons rs rss ih =>
    show stringOf rs ++ concat (rss.map stringOf) = _
    rw [ih, List.flatten_cons, stringOf, stringOf, stringOf, String.ofList_append, String.toByteArray_append]

theorem Encodes.cut {kind : Kind} {rs : List Char} {us : List UInt16} {limit : Nat} {parts : List (List UInt16)}
    (h : Encodes kind rs us) (hcut : PairCut (leads kind) limit us parts) :
    ∃ rss : List (List Char), rss.flatten = rs ∧ List.Forall₂ (Encodes kind) rss parts := by
  obtain ⟨hflat, -, hclosed⟩ := hcut
  induction parts generalizing rs us with
  | nil =>
    exact ⟨[], (h.eq_nil hflat.symm).symm, .nil⟩
  | cons p parts ih =>
    rw [List.flatten_cons] at hflat
    subst hflat
    obtain ⟨hp, hparts⟩ := List.forall_mem_cons.mp hclosed
    obtain ⟨ra, rb, rfl, hra, hrb⟩ := h.split hp
    obtain ⟨rss, rfl, hrss⟩ := ih hrb rfl hparts
    exact ⟨ra :: rss, rfl, .cons hra hrss⟩

/-- The segment decodes on its own to the piece. -/
def Segment.DecodesTo (s : Segment) (piece : ByteArray) : Prop :=
  ∃ decode, decoder s.kind = some decode ∧ decode s.data = .ok piece

theorem forall₂_decodesTo {kind : Kind} {decode : Octets → Except Err ByteArray} (hd : decoder kind = some decode)
    {rss : List (List Char)} {parts : List (List UInt16)} (h : List.Forall₂ (Encodes kind) rss parts) :
    ∀ segments : List Segment, segments.map (·.data) = parts.map (wire kind) → (∀ s ∈ segments, s.kind = kind) →
      List.Forall₂ Segment.DecodesTo segments (rss.map stringOf) := by
  induction h with
  | nil =>
    intro segments hdata _
    rw [List.map_nil, List.map_eq_nil_iff] at hdata
    rw [hdata]
    exact .nil
  | cons h _ ih =>
    intro segments hdata hkind
    obtain ⟨s, segments, rfl, hs, hrest⟩ := List.map_eq_cons_iff.mp hdata
    obtain ⟨hk, hkinds⟩ := List.forall_mem_cons.mp hkind
    have hpiece : s.DecodesTo (stringOf _) := ⟨decode, hk ▸ hd, hs ▸ h.decode hd⟩
    exact .cons hpiece (ih segments hrest hkinds)

/-! ## Lengths -/

/-- The most octets of user data a segment may have: 140, or 160 septets that are not packed. -/
def Form.userDataLimit : Form → Kind → Nat
  | .udh16 _, .gsm7 => 160
  | _, _ => 140

theorem length_contentOctets {kind : Kind} {chunk content : Octets} {fill : UInt8}
    (h : contentOctets kind chunk fill = .ok content) :
    content.length = if kind = .gsm7 then (fill.toNat + 7 * chunk.length + 7) / 8 else chunk.length := by
  unfold contentOctets at h
  split at h
  case isTrue hkind =>
    rw [if_pos hkind]
    exact (packSeptetsWithFill_inv h).2.2
  case isFalse hkind =>
    cases h
    rw [if_neg hkind]

/-- The octets of user data for a part of `n` octets: a header, one fill bit behind six octets, and the content. -/
def Form.userDataLength (form : Form) (kind : Kind) (n : Nat) : Nat :=
  match form with
  | .udh _ => 6 + if kind = .gsm7 then (1 + 7 * n + 7) / 8 else n
  | .sar _ => if kind = .gsm7 then (0 + 7 * n + 7) / 8 else n
  | .udh16 _ => 7 + n

theorem Form.length_userData {form : Form} {total sequence : UInt8} {kind : Kind} {coding : DataCoding} {chunk : Octets}
    {s : Segment} (h : form.segmentOf total kind coding sequence chunk = .ok s) :
    s.userData.length = form.userDataLength kind chunk.length := by
  cases form with
  | udh =>
    have hfill : (gsm7UDHFillBits 6).toNat = 1 := by decide
    obtain ⟨content, hc, h⟩ := (Except.bind_ok _ _ _).mp h
    cases h
    show (buildConcatUDH8 _ _ _ ++ content).length = _
    rw [List.length_append, length_contentOctets hc]
    show 6 + (if kind = .gsm7 then ((gsm7UDHFillBits 6).toNat + 7 * chunk.length + 7) / 8 else _) = _
    rw [hfill]
    rfl
  | sar =>
    obtain ⟨content, hc, h⟩ := (Except.bind_ok _ _ _).mp h
    cases h
    exact length_contentOctets hc
  | udh16 =>
    cases h
    exact List.length_append

theorem length_wire (kind : Kind) (us : List UInt16) :
    (wire kind us).length = if kind = .ucs2 ∨ kind = .utf16be then 2 * us.length else us.length := by
  unfold wire
  split
  · exact length_unitsWire us
  · exact List.length_map _

theorem Form.userDataLength_text (form : Form) {kind : Kind} (hk : (decoder kind).isSome = true) {us : List UInt16}
    (h : us.length ≤ form.textLimit kind) : form.userDataLength kind (wire kind us).length ≤ form.userDataLimit kind := by
  rw [length_wire]
  cases kind with
  | gsm7 | ucs2 | utf16be =>
    cases form <;> simp [textLimit, singleUnits, gsm7MultipartSeptets, ucs2MultipartUnits, gsm7SingleSeptets, ucs2SingleUnits,
      gsm7Multipart16Septets, ucs2Multipart16Units, userDataLength, userDataLimit] at h ⊢ <;> omega
  | unknown | binary => cases hk

theorem Form.userDataLength_binary (form : Form) {n : Nat} (h : n ≤ form.binaryLimit) : form.userDataLength .binary n ≤ 140 := by
  cases form <;> simp [binaryLimit, binaryMultipartOctets, binarySingleOctets, binaryMultipart16Bytes, userDataLength] at h ⊢ <;>
    omega

theorem Form.length_single (form : Form) {encoded : EncodedText} {rs : List Char} {us : List UInt16}
    (hus : EncodedAs encoded rs us) (hfits : us.length ≤ singleUnits encoded.kind) {userData : Octets}
    (h : form.single encoded = .ok (singleText encoded userData)) : userData.length ≤ form.userDataLimit encoded.kind := by
  have hk := hus.textual
  cases form with
  | udh | sar =>
    obtain ⟨content, hc, heq⟩ := Except.ok_of_map h
    obtain rfl : content = userData := congrArg Segment.userData (List.cons.inj heq).1
    rw [length_contentOctets hc, hus.data]
    exact (Form.sar 0).userDataLength_text hk hfits
  | udh16 =>
    have heq := Except.ok.inj h
    obtain rfl : encoded.data = userData := congrArg Segment.userData (List.cons.inj heq).1
    rw [hus.data, length_wire]
    generalize encoded.kind = kind at hk hfits
    cases kind with
    | gsm7 | ucs2 | utf16be =>
      simp [singleUnits, gsm7SingleSeptets, ucs2SingleUnits, userDataLimit] at hfits ⊢
      omega
    | unknown | binary => cases hk

/-! ## Every segment stands alone -/

structure StandAlone (form : Form) (text : ByteArray) (segments : List Segment) : Prop where
  pieces : ∃ pieces, List.Forall₂ Segment.DecodesTo segments pieces ∧ concat pieces = text
  numbered : segments.map (·.sequence.toNat) = List.range' 1 segments.length
  atMost : segments.length ≤ 255
  total : ∀ s ∈ segments, s.total.toNat = segments.length
  units : 1 < segments.length → ∀ s ∈ segments, s.units ≤ form.textLimit s.kind
  userData : ∀ s ∈ segments, s.userData.length ≤ form.userDataLimit s.kind

theorem CompleteSet.map_toNat_sequence {segments : List Segment} {kind : Kind} {data : Octets}
    (h : CompleteSet segments kind data) : segments.map (·.sequence.toNat) = List.range' 1 segments.length := by
  have hmap : segments.map (·.sequence.toNat) = (segments.map (·.sequence)).map (·.toNat) := by
    rw [List.map_map]
    rfl
  rw [hmap, h.numbered, map_toNat_numbers h.atMost]

section Text
variable {text : ByteArray} {allow : Bool} {encoded : EncodedText} {rs : List Char} {us : List UInt16} {form : Form}
  {segments : List Segment}

theorem standAlone_single (hus : EncodedAs encoded rs us) (hfits : us.length ≤ singleUnits encoded.kind)
    (h : form.single encoded = .ok segments) : StandAlone form (stringOf rs) segments := by
  obtain ⟨userData, rfl⟩ := form.single_ok h
  obtain ⟨decode, hd⟩ := Option.isSome_iff_exists.mp hus.textual
  have hpiece : decode encoded.data = .ok (stringOf rs) := hus.data ▸ hus.encodes.decode hd
  exact {
    pieces := ⟨[stringOf rs], .cons ⟨decode, hd, hpiece⟩ .nil, concat_stringOf [rs] |>.trans (by rw [List.flatten_singleton])⟩
    numbered := rfl
    atMost := Nat.le_of_ble_eq_true rfl
    total := List.forall_mem_singleton.mpr rfl
    units := fun hmany => absurd hmany (Nat.lt_irrefl 1)
    userData := List.forall_mem_singleton.mpr (form.length_single hus hfits h) }

theorem standAlone_make (hus : EncodedAs encoded rs us) (hlong : ¬ us.length ≤ singleUnits encoded.kind)
    (h : form.make (form.partsOf encoded.kind us) encoded.kind encoded.dataCoding = .ok segments) :
    StandAlone form (stringOf rs) segments := by
  have hne := form.partsOf_pos encoded.kind hlong
  have hcomplete := form.make_complete hne h
  have hkind : ∀ s ∈ segments, s.kind = encoded.kind := by
    obtain ⟨_, _, hshared⟩ := hcomplete.shared
    exact fun s hs => (hshared s hs).kind
  have hcut := cut_pairChunks (form.two_le_textLimit encoded.kind) hus.encodes.paired
  obtain ⟨rss, hrss, hparts⟩ := hus.encodes.cut hcut
  obtain ⟨decode, hd⟩ := Option.isSome_iff_exists.mp hus.textual
  have hsegment : ∀ s ∈ segments, s.units ≤ form.textLimit encoded.kind ∧
      s.userData.length ≤ form.userDataLimit encoded.kind := by
    intro s hs
    obtain ⟨_, chunk, -, -, hchunk, hmake⟩ := form.mem_make hne h s hs
    obtain ⟨p, hp, rfl⟩ := List.mem_map.mp hchunk
    obtain ⟨-, -, -, -, hunits⟩ := form.segmentOf_ok hmake
    rw [hunits, chunkUnits_wire, form.length_userData hmake]
    exact ⟨hcut.short p hp, form.userDataLength_text hus.textual (hcut.short p hp)⟩
  exact {
    pieces := ⟨rss.map stringOf, forall₂_decodesTo hd hparts segments (form.map_data_make hne h) hkind,
      by rw [concat_stringOf, hrss]⟩
    numbered := hcomplete.map_toNat_sequence
    atMost := hcomplete.atMost
    total := hcomplete.whole.count
    units := fun _ s hs => hkind s hs ▸ (hsegment s hs).1
    userData := fun s hs => hkind s hs ▸ (hsegment s hs).2 }

end Text

/-- **Every segment stands alone and fits**: it decodes on its own, the pieces make up the text, and neither its units nor its
user data exceed the limits of its form. -/
theorem segment_standsAlone :
    (∀ (f : TextSegmenter) (text : ByteArray) (allow : Bool) (segments : List Segment),
      f.segment text allow = .ok segments → StandAlone f.form text segments) ∧
    (∀ (f : BinarySegmenter) (data : Octets) (segments : List Segment),
      f.segment data = .ok segments → ∀ s ∈ segments, s.userData.length ≤ 140) := by
  refine ⟨fun f text allow segments h => ?_, fun f data segments h s hs => ?_⟩
  · obtain ⟨encoded, he⟩ := f.encodeText_of_segment h
    obtain ⟨rs, us, rfl, hus⟩ := encodeText_encodes he
    rw [f.segment_eq he hus] at h
    split at h
    case isTrue hfits => exact standAlone_single hus hfits h
    case isFalse hlong => exact standAlone_make hus hlong h
  · rw [f.segment_eq] at h
    split at h
    case isTrue hfits =>
      cases h
      rw [List.mem_singleton.mp hs]
      exact hfits
    case isFalse hlong =>
      have hne := f.form.splitBytes_pos hlong
      obtain ⟨_, chunk, -, -, hchunk, hmake⟩ := f.form.mem_make hne h s hs
      rw [splitBytes_eq] at hchunk
      rw [f.form.length_userData hmake]
      have hcut : PairCut (fun _ => false) f.form.binaryLimit data _ :=
        cut_pairChunks f.form.two_le_binaryLimit fun _ _ _ hlead => by cases hlead
      exact f.form.userDataLength_binary (hcut.short chunk hchunk)

/-- 81 characters of the extension table, in two segments, and 141 octets. -/
theorem segment_standsAlone_extension :
    (∃ segments, (TextSegmenter.udh 7).segment (stringOf (List.replicate 81 '[')) false = .ok segments ∧
      segments.map (·.units) = [152, 10] ∧ StandAlone (.udh 7) (stringOf (List.replicate 81 '[')) segments) ∧
    (∃ segments, (BinarySegmenter.sar 300).segment (List.replicate 141 0xff) = .ok segments ∧
      ∀ s ∈ segments, s.userData.length ≤ 140) := by
  constructor
  · obtain ⟨segments, hs, hu⟩ := segment_extension
    exact ⟨segments, hs, hu, segment_standsAlone.1 _ _ _ _ hs⟩
  · obtain ⟨segments, hs, -⟩ := segment_octets
    exact ⟨segments, hs, segment_standsAlone.2 _ _ _ hs⟩

/-! ## As few segments as possible -/

/-- The numbers of segments that a text can be sent in: one if it fits one message, or the parts of a cut. -/
def Form.segmentCounts (form : Form) (encoded : EncodedText) : Set Nat :=
  {n | 0 < n ∧ (n = 1 ∧ encoded.units ≤ singleUnits encoded.kind ∨
    ∃ cut, PairCut (leads encoded.kind) (form.textLimit encoded.kind) (codeUnits encoded.kind encoded.data) cut ∧
      cut.length = n)}

section Counts
variable {encoded : EncodedText} {rs : List Char} {us : List UInt16}

theorem Form.isLeast_single (form : Form) (hus : EncodedAs encoded rs us) (hfits : us.length ≤ singleUnits encoded.kind) :
    IsLeast (form.segmentCounts encoded) 1 :=
  ⟨⟨Nat.one_pos, .inl ⟨rfl, hus.units ▸ hfits⟩⟩, fun _ hn => hn.1⟩

theorem Form.isLeast_parts (form : Form) (hus : EncodedAs encoded rs us) (hlong : ¬ us.length ≤ singleUnits encoded.kind) :
    IsLeast (form.segmentCounts encoded) (form.partsOf encoded.kind us).length := by
  have hunits : codeUnits encoded.kind encoded.data = us := hus.data ▸ codeUnits_wire hus.encodes
  have hleast := isLeast_length_pairChunks (form.two_le_textLimit encoded.kind) hus.encodes.paired
  have hlength : (form.partsOf encoded.kind us).length =
      (pairChunks (leads encoded.kind) (form.textLimit encoded.kind) us).length :=
    List.length_map _
  rw [segmentCounts, hunits, hlength]
  refine ⟨⟨hlength ▸ form.partsOf_pos encoded.kind hlong, .inr hleast.1⟩, ?_⟩
  rintro n ⟨-, ⟨-, hfits⟩ | hcut⟩
  · exact absurd (hus.units ▸ hfits) hlong
  · exact hleast.2 hcut

theorem EncodedAs.septets_lt (hus : EncodedAs encoded rs us) (hkind : encoded.kind = .gsm7) : ∀ o ∈ encoded.data, o < 0x80 := by
  have henc := hus.encodes
  rw [hus.data]
  rw [hkind] at henc ⊢
  obtain ⟨data, rfl, hdata⟩ := henc.septets
  show ∀ o ∈ (data.map _).map _, o < 0x80
  rw [toUInt8_map_toUInt16]
  exact runesGSM7_lt hdata

theorem Form.exists_single (form : Form) (hus : EncodedAs encoded rs us) : ∃ segments, form.single encoded = .ok segments := by
  cases form with
  | udh | sar =>
    obtain ⟨content, hc⟩ := exists_contentOctets hus.septets_lt (show (0 : UInt8) ≤ 6 by decide)
    exact ⟨_, by rw [single, hc]; rfl⟩
  | udh16 => exact ⟨_, rfl⟩

end Counts

/-- **As few segments as possible.** A segmenter returns the least number of segments in which the text can be sent, and an
error only if there are more than 255 of them. -/
theorem segment_optimal (f : TextSegmenter) (text : ByteArray) (allow : Bool) (encoded : EncodedText)
    (he : encodeText text allow = .ok encoded) :
    ∃ least, IsLeast (f.form.segmentCounts encoded) least ∧
      (least ≤ 255 → ∃ segments, f.segment text allow = .ok segments ∧ segments.length = least) ∧
      (255 < least → ∃ err, f.segment text allow = .error err ∧ err.is .invalidSegments = true) := by
  obtain ⟨rs, us, -, hus⟩ := encodeText_encodes he
  rw [f.segment_eq he hus]
  split
  case isTrue hfits =>
    refine ⟨1, f.form.isLeast_single hus hfits, fun _ => ?_, fun hmany => absurd hmany (by decide)⟩
    obtain ⟨segments, hs⟩ := f.form.exists_single hus
    obtain ⟨userData, rfl⟩ := f.form.single_ok hs
    exact ⟨_, hs, rfl⟩
  case isFalse hlong =>
    have hne := f.form.partsOf_pos encoded.kind hlong
    refine ⟨_, f.form.isLeast_parts hus hlong, fun hle => ?_, fun hmany => ?_⟩
    · have hseptets : encoded.kind = .gsm7 → ∀ chunk ∈ f.form.partsOf encoded.kind us, ∀ o ∈ chunk, o < 0x80 := by
        intro hkind chunk hchunk o ho
        refine hus.septets_lt hkind o ?_
        rw [hus.data, ← f.form.flatten_partsOf]
        exact List.mem_flatten_of_mem hchunk ho
      obtain ⟨segments, hs⟩ := f.form.exists_make hne hle hseptets
      refine ⟨segments, hs, ?_⟩
      rw [← f.form.map_data_make hne hs, List.length_map]
    · refine ⟨_, ?_, f.form.tooMany_is (f.form.partsOf encoded.kind us).length⟩
      rw [f.form.make_eq hne, if_pos hmany]

/-- 81 characters of the extension table cannot be sent in fewer than two segments. -/
theorem segment_optimal_extension : ∃ encoded, encodeText (stringOf (List.replicate 81 '[')) false = .ok encoded ∧
    IsLeast ((TextSegmenter.udh 7).form.segmentCounts encoded) 2 := by
  obtain ⟨segments, hs, hu⟩ := segment_extension
  have hn : segments.length = 2 := by simpa using congrArg List.length hu
  obtain ⟨encoded, he⟩ := (TextSegmenter.udh 7).encodeText_of_segment hs
  obtain ⟨least, hleast, hok, herr⟩ := segment_optimal (.udh 7) _ _ encoded he
  refine ⟨encoded, he, ?_⟩
  by_cases hle : least ≤ 255
  · obtain ⟨segments', hs', hn'⟩ := hok hle
    rw [hs] at hs'
    cases hs'
    rw [← hn, hn']
    exact hleast
  · obtain ⟨err, he', -⟩ := herr (Nat.not_le.mp hle)
    rw [hs] at he'
    cases he'

end GoSmpp.Message
