import GoSmpp.Lib.Lists
import GoSmpp.Encoding.Unicode
import GoSmpp.Protocol.Pdu

/-!
# Segmentation and reassembly

`message/message.go` and `message/udh16_unpacked.go`.

* `segmentTextUDH`, `segmentTextSAR`, `segmentTextUDH16Unpacked`, and for octets `segmentBinaryUDH`, `segmentBinarySAR`,
  `segmentBinaryUDH16`: a message as numbered segments, with the concatenation in a user data header or in SAR TLVs.
* `splitGSM7`, `splitBytes`, `splitUTF16`: the cuts, none of them within an escape pair or a surrogate pair.
* `reassemble`, `decodeTextSegments`: the way back. `slices.SortFunc` is a parameter, any `Sorter` by sequence number.
-/

namespace GoSmpp.Message

open GoSmpp.Lib GoSmpp.Encoding
open GoSmpp.Protocol hiding Kind

def gsm7SingleSeptets : Nat := 160
def gsm7MultipartSeptets : Nat := 153
def ucs2SingleUnits : Nat := 70
def ucs2MultipartUnits : Nat := 67
def binarySingleOctets : Nat := 140
def binaryMultipartOctets : Nat := 134
def gsm7Multipart16Septets : Nat := 152
def ucs2Multipart16Units : Nat := 66
def binaryMultipart16Bytes : Nat := 133

structure EncodedText where
  kind : Kind
  dataCoding : DataCoding
  data : Octets
  units : Nat
  deriving DecidableEq, Repr

def encodeText (text : ByteArray) (allowSurrogates : Bool) : Except Err EncodedText := do
  let selected ← selectText text allowSurrogates
  return { kind := selected.kind, data := selected.data, units := selected.units,
           dataCoding := if selected.kind = .gsm7 then dataCodingSMSCDefault else dataCodingUCS2 }

structure Segment where
  reference : UInt16 := 0
  total : UInt8
  sequence : UInt8
  kind : Kind
  dataCoding : DataCoding
  units : Nat
  data : Octets
  udh : Octets := []
  userData : Octets
  optional : List OptionalParameter := []
  deriving DecidableEq, Repr

def invalidSegments : Err := .sentinel .invalidSegments

def invalidSegmentsBy (text : String) : Err := .wrapped text invalidSegments

/-! ## Cutting -/

/-- How many septets `splitGSM7` takes next: not the escape of a pair that does not fit. -/
def gsm7Size (max : Nat) (data : Octets) : Nat :=
  let n := min data.length max
  if n < data.length ∧ data.getD (n - 1) 0 = gsmEscape then n - 1 else n

def splitGSM7 (data : Octets) (max : Nat) : List Octets := if max < 2 then [] else chunks (gsm7Size max) data

def splitBytes (data : Octets) (max : Nat) : List Octets :=
  chunks (fun data => if data.length < max then data.length else max) data

def splitFixedUnits (data : Octets) (unitSize maxUnits : Nat) : List Octets := splitBytes data (unitSize * maxUnits)

/-- One turn of the loop of `splitUTF16`: a character of `width` units, `piece`, goes into the current part, or into the next
when it does not fit. -/
def placeUTF16 (maxUnits : Nat) (piece : Octets) (width : Nat) (current : Octets) (units : Nat)
    (next : Octets → Nat → Except Err (List Octets)) : Except Err (List Octets) :=
  if maxUnits < width then .error invalidSegments
  else if 0 < units ∧ maxUnits < units + width then (current :: ·) <$> next piece width
  else next (current ++ piece) (units + width)

/-- The loop of `splitUTF16` over what is left, with the current part and its units. -/
def splitUTF16From (maxUnits : Nat) : Octets → Octets → Nat → Except Err (List Octets)
  | [], current, _ => .ok [current]
  | [_], _, _ => .error invalidSegments
  | a :: b :: rest, current, units =>
    if isHighSurrogate (uint16 a b) then
      match rest with
      | c :: d :: rest =>
        if isLowSurrogate (uint16 c d) then
          placeUTF16 maxUnits [a, b, c, d] 2 current units fun current units => splitUTF16From maxUnits rest current units
        else .error invalidSegments
      | _ => .error invalidSegments
    else if isLowSurrogate (uint16 a b) then .error invalidSegments
    else placeUTF16 maxUnits [a, b] 1 current units fun current units => splitUTF16From maxUnits rest current units

def splitUTF16 (data : Octets) (maxUnits : Nat) : Except Err (List Octets) :=
  if data = [] then .ok []
  else if data.length % 2 ≠ 0 then .error invalidSegments
  else splitUTF16From maxUnits data [] 0

/-! ## Making segments -/

def buildConcatUDH8 (reference total sequence : UInt8) : Octets := [0x05, 0x00, 0x03, reference, total, sequence]

def buildConcatUDH16 (reference : UInt16) (total sequence : UInt8) : Octets :=
  [0x06, 0x08, 0x04, UInt8.ofNat (reference.toNat / 2 ^ 8), UInt8.ofNat reference.toNat, total, sequence]

def gsm7UDHFillBits (headerOctets : Nat) : UInt8 :=
  let mod := (headerOctets * 8) % 7
  if mod = 0 then 0 else UInt8.ofNat (7 - mod)

def sarTLVs (reference : UInt16) (total sequence : UInt8) : List OptionalParameter :=
  [⟨tlvTagSARMsgRefNum, putUint16 reference⟩, ⟨tlvTagSARTotalSegments, [total]⟩, ⟨tlvTagSARSegmentSeqnum, [sequence]⟩]

/-- The loop over the chunks that all multipart segmenters have: the chunk at index `i` gets sequence number `i + 1`. -/
def segmentsFrom (make : (sequence : UInt8) → (chunk : Octets) → Except Err Segment) :
    Nat → List Octets → Except Err (List Segment)
  | _, [] => .ok []
  | i, chunk :: chunks => do
    let segment ← make (UInt8.ofNat (i + 1)) chunk
    return segment :: (← segmentsFrom make (i + 1) chunks)

/-- The units of a chunk: octets, or 16-bit code units. -/
def chunkUnits (kind : Kind) (chunk : Octets) : Nat :=
  if kind = .ucs2 ∨ kind = .utf16be then chunk.length / 2 else chunk.length

/-- The octets that carry a chunk: its septets packed behind `fillBits` bits, or the chunk as it is. -/
def contentOctets (kind : Kind) (chunk : Octets) (fillBits : UInt8) : Except Err Octets :=
  if kind = .gsm7 then packSeptetsWithFill chunk fillBits else .ok chunk

def makeUDHSegments (chunks : List Octets) (kind : Kind) (coding : DataCoding) (reference : UInt8) :
    Except Err (List Segment) :=
  if chunks.length = 0 ∨ 255 < chunks.length then
    .error (invalidSegmentsBy ("part count " ++ toString chunks.length))
  else
    let total := UInt8.ofNat chunks.length
    segmentsFrom (fun sequence chunk => do
      let udh := buildConcatUDH8 reference total sequence
      let content ← contentOctets kind chunk (gsm7UDHFillBits udh.length)
      return { reference := UInt16.ofNat reference.toNat, total, sequence, kind, dataCoding := coding,
               units := chunkUnits kind chunk, data := chunk, udh, userData := udh ++ content }) 0 chunks

def makeUDH16UnpackedSegments (chunks : List Octets) (kind : Kind) (coding : DataCoding) (reference : UInt16) :
    Except Err (List Segment) :=
  if chunks.length = 0 ∨ 255 < chunks.length then
    .error (invalidSegmentsBy ("part count " ++ toString chunks.length))
  else
    let total := UInt8.ofNat chunks.length
    segmentsFrom (fun sequence chunk =>
      let udh := buildConcatUDH16 reference total sequence
      .ok { reference, total, sequence, kind, dataCoding := coding, units := chunkUnits kind chunk, data := chunk, udh,
            userData := udh ++ chunk }) 0 chunks

/-- The loop of `SegmentTextSAR` and `SegmentBinarySAR`. -/
def makeSARSegments (chunks : List Octets) (kind : Kind) (coding : DataCoding) (reference : UInt16) :
    Except Err (List Segment) :=
  if 255 < chunks.length then .error invalidSegments
  else
    let total := UInt8.ofNat chunks.length
    segmentsFrom (fun sequence chunk => do
      let userData ← contentOctets kind chunk 0
      return { reference, total, sequence, kind, dataCoding := coding, units := chunkUnits kind chunk, data := chunk,
               userData, optional := sarTLVs reference total sequence }) 0 chunks

/-! ## Segmenters -/

/-- The only segment of a text that fits one message. -/
def singleText (encoded : EncodedText) (userData : Octets) : List Segment :=
  [{ kind := encoded.kind, dataCoding := encoded.dataCoding, units := encoded.units, data := encoded.data, userData,
     total := 1, sequence := 1 }]

def segmentTextUDH (text : ByteArray) (allowSurrogates : Bool) (reference : UInt8) : Except Err (List Segment) := do
  let encoded ← encodeText text allowSurrogates
  match encoded.kind with
  | .gsm7 =>
    if encoded.units ≤ gsm7SingleSeptets then return singleText encoded (← packSeptets encoded.data)
    else makeUDHSegments (splitGSM7 encoded.data gsm7MultipartSeptets) encoded.kind encoded.dataCoding reference
  | .ucs2 =>
    if encoded.units ≤ ucs2SingleUnits then return singleText encoded encoded.data
    else makeUDHSegments (splitFixedUnits encoded.data 2 ucs2MultipartUnits) encoded.kind encoded.dataCoding reference
  | .utf16be =>
    if encoded.units ≤ ucs2SingleUnits then return singleText encoded encoded.data
    else makeUDHSegments (← splitUTF16 encoded.data ucs2MultipartUnits) encoded.kind encoded.dataCoding reference
  | kind => .error (invalidSegmentsBy ("unsupported text kind " ++ kind.string))

/-- The parts of a text that is sent without a user data header. -/
def sarChunks (encoded : EncodedText) : Except Err (List Octets) :=
  match encoded.kind with
  | .gsm7 => .ok (splitGSM7 encoded.data gsm7SingleSeptets)
  | .ucs2 => .ok (splitFixedUnits encoded.data 2 ucs2SingleUnits)
  | .utf16be => splitUTF16 encoded.data ucs2SingleUnits
  | _ => .ok []

def segmentTextSAR (text : ByteArray) (allowSurrogates : Bool) (reference : UInt16) : Except Err (List Segment) := do
  let encoded ← encodeText text allowSurrogates
  let chunks ← sarChunks encoded
  if chunks.length ≤ 1 then segmentTextUDH text allowSurrogates (UInt8.ofNat reference.toNat)
  else makeSARSegments chunks encoded.kind encoded.dataCoding reference

def segmentTextUDH16Unpacked (text : ByteArray) (allowSurrogates : Bool) (reference : UInt16) :
    Except Err (List Segment) := do
  let encoded ← encodeText text allowSurrogates
  match encoded.kind with
  | .gsm7 =>
    if encoded.units ≤ gsm7SingleSeptets then return singleText encoded encoded.data
    else
      makeUDH16UnpackedSegments (splitGSM7 encoded.data gsm7Multipart16Septets) encoded.kind encoded.dataCoding reference
  | .ucs2 =>
    if encoded.units ≤ ucs2SingleUnits then return singleText encoded encoded.data
    else
      makeUDH16UnpackedSegments (splitFixedUnits encoded.data 2 ucs2Multipart16Units) encoded.kind encoded.dataCoding
        reference
  | .utf16be =>
    if encoded.units ≤ ucs2SingleUnits then return singleText encoded encoded.data
    else
      makeUDH16UnpackedSegments (← splitUTF16 encoded.data ucs2Multipart16Units) encoded.kind encoded.dataCoding reference
  | kind => .error (invalidSegmentsBy ("unsupported kind " ++ kind.string))

/-- The only segment of octets that fit one message. -/
def singleBinary (data : Octets) : List Segment :=
  [{ kind := .binary, dataCoding := dataCodingOctetBinary2, units := data.length, data, userData := data, total := 1,
     sequence := 1 }]

def segmentBinaryUDH (data : Octets) (reference : UInt8) : Except Err (List Segment) :=
  if data.length ≤ binarySingleOctets then .ok (singleBinary data)
  else makeUDHSegments (splitBytes data binaryMultipartOctets) .binary dataCodingOctetBinary2 reference

def segmentBinarySAR (data : Octets) (reference : UInt16) : Except Err (List Segment) :=
  let chunks := splitBytes data binarySingleOctets
  if chunks.length ≤ 1 then segmentBinaryUDH data (UInt8.ofNat reference.toNat)
  else makeSARSegments chunks .binary dataCodingOctetBinary2 reference

def segmentBinaryUDH16 (data : Octets) (reference : UInt16) : Except Err (List Segment) :=
  if data.length ≤ binarySingleOctets then .ok (singleBinary data)
  else makeUDH16UnpackedSegments (splitBytes data binaryMultipart16Bytes) .binary dataCodingOctetBinary2 reference

/-! ## Reassembly -/

/-- `slices.SortFunc` by sequence number. -/
abbrev SortFunc := Sorter fun s : Segment => s.sequence.toNat

/-- The first sequence number that was seen before. -/
def firstDuplicate : List Segment → List UInt8 → Option UInt8
  | [], _ => none
  | part :: parts, seen =>
    if part.sequence ∈ seen then some part.sequence else firstDuplicate parts (part.sequence :: seen)

/-- The last loop of `Reassemble`: part `i` agrees with the first part and has sequence number `i + 1`. -/
def joinParts (first : Segment) : Nat → List Segment → Except Err Octets
  | _, [] => .ok []
  | i, part :: parts =>
    if part.reference ≠ first.reference ∨ part.kind ≠ first.kind ∨ part.dataCoding ≠ first.dataCoding ∨
        part.total ≠ first.total ∨ part.sequence ≠ UInt8.ofNat (i + 1) then
      .error (invalidSegmentsBy ("inconsistent part " ++ toString (i + 1)))
    else (part.data ++ ·) <$> joinParts first (i + 1) parts

def reassemble (sortFunc : SortFunc) (segments : List Segment) : Except Err Octets :=
  let parts := sortFunc.sort segments
  match firstDuplicate parts [] with
  | some n => .error (invalidSegmentsBy ("duplicate sequence " ++ toString n.toNat))
  | none =>
    match parts with
    -- there are no parts exactly when there are no segments
    | [] => .error invalidSegments
    | first :: _ =>
      if first.total = 0 then
        .error (invalidSegmentsBy "total must be specified (nonzero) on every segment")
      else if first.total.toNat ≠ parts.length then
        .error (invalidSegmentsBy
          ("have " ++ toString parts.length ++ " parts want " ++ toString first.total.toNat))
      else joinParts first 0 parts

def decodeTextSegments (sortFunc : SortFunc) (segments : List Segment) : Except Err ByteArray :=
  match segments with
  | [] => .error invalidSegments
  | first :: _ => do
    let data ← reassemble sortFunc segments
    match first.kind with
    | .gsm7 => decodeGSM7 data
    | .ucs2 => decodeUCS2 data
    | .utf16be => decodeUTF16BE data
    | kind => .error (invalidSegmentsBy ("non-text kind " ++ kind.string))

end GoSmpp.Message
