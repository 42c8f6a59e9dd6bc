import GoSmpp.Codec.Registry

/-!
# Package `codec`: whole PDUs

`decodePDU` and `encodePDU` of `codec/pdu.go`, with the panic recovery of `codec/recover.go` and the error responses
of `codec/error_response.go`. `encodePDU` returns the destination's contents and the error as the source does; it
panics where the source slices out of range, which only a vendor encoder can cause.

`encodePDU_lib` is its specification for the library's encoders: it succeeds exactly when the encoder accepts the
body (and, for an error response, the TLVs fit), and the frame is the header followed by the body octets.
-/

namespace GoSmpp.Codec
open Lib Protocol

structure DecodedPDU where
  header : Header
  body : Value
  deriving DecidableEq, Repr

/-! ## Decoding -/

def decodeBody (decode : CommandDecoder) (header : Header) (body : Octets) : Except Err Value :=
  match decode header body with
  | .returned result => result
  | .panicked v =>
    .error (.semanticBy { status := statusSystemError, command := header.commandID,
                          sequence := header.sequenceNumber, reason := "command decoder panicked" }
      (panicError "codec.CommandDecoder" v))

/-- The end of `DecodePDU`: the body octets are decoded by the registered decoder, or kept as they are. -/
def decodeBodyBytes (registry : Registry) (header : Header) (bodyBytes : Octets) : Except Err Value := do
  match ← registry.resolveCommand header.commandID with
  | some { decode := some decode, .. } => decodeBody decode header bodyBytes
  | _ => return .raw bodyBytes

def decodePDU (registry : Registry) (frame : Octets) : Except Err DecodedPDU := do
  let header ← decodeHeader frame
  let declared := header.commandLength.toNat
  if frame.length < declared then
    throw (.fatal { kind := .truncatedFrame, declaredLength := header.commandLength, command := header.commandID,
                    sequence := header.sequenceNumber, reason := "frame ended before command_length" })
  if frame.length ≠ declared then
    throw (.semanticBy { status := statusInvalidCommandLength,
                         reason := "declared=" ++ toString declared ++ " actual=" ++ toString frame.length }
      (.sentinel .pduFrameLengthMismatch))
  let body ← decodeBodyBytes registry header ((frame.take declared).drop headerSize)
  return { header, body }

/-! ## Encoding -/

/-- `encodeBody`: the slice and the error it returns. -/
def encodeBody (encoder : CommandEncoder) (dst : Octets) (body : Value) : Slice × Option Err :=
  match encoder.encode dst body with
  | .returned result => result
  | .panicked written v => (⟨written, []⟩, some (panicError "codec.CommandEncoder" v))

def optionalParametersOf : Value → List OptionalParameter
  | .struct s | .ptr s => s.optional
  | .other _ ps => ps
  | .nil | .nilPtr _ | .raw _ => []

def appendErrorResponseBody (dst : Octets) (encoder : CommandEncoder) (body : Value) : Slice × Option Err :=
  match encodeBody encoder [] body with
  | (_, some e) => (⟨dst, []⟩, some e)
  | (_, none) =>
    let (out, err) := (appendOptional (optionalParametersOf body)).appendTo dst
    (⟨out, []⟩, err)

/-- `s[:n]`, which panics beyond the capacity. -/
def Slice.upTo (s : Slice) (n : Nat) : Outcome Octets :=
  if n ≤ s.data.length + s.spare.length then .returned ((s.data ++ s.spare).take n)
  else .panicked (.value "slice bounds out of range")

/-- `return dst[:start], err`. -/
def truncated (out : Slice) (start : Nat) (err : Err) : Outcome (Octets × Option Err) :=
  match out.upTo start with
  | .returned dst => .returned (dst, some err)
  | .panicked v => .panicked v

theorem truncated_zero (out : Slice) (err : Err) : truncated out 0 err = .returned ([], some err) := by
  simp [truncated, Slice.upTo]

/-- The end of `EncodePDU`: the command_length is computed and the header written into the octets reserved for it. -/
def finishPDU (out : Slice) (start : Nat) (header : Header) : Outcome (Octets × Option Err) :=
  let header := { header with commandLength := UInt32.ofNat (out.data.length - start) }
  match encodeHeader ((out.data.drop start).take headerSize) header with
  | .error e => truncated out start e
  | .ok head => .returned (out.data.take start ++ head ++ out.data.drop (start + headerSize), none)

/-- `EncodePDU`: the contents of the slice and the error it returns. -/
def encodePDU (registry : Registry) (dst : Octets) (header : Header) (body : Value) : Outcome (Octets × Option Err) :=
  let start := dst.length
  -- the reserved header octets are overwritten at the end
  let reserved := dst ++ List.replicate headerSize 0
  match registry.resolveCommand header.commandID with
  | .error e => .returned (dst, some e)
  | .ok (some { encode := some encoder, .. }) =>
    let (out, err) :=
      if isResponse header.commandID && !CommandStatus.ok header.commandStatus then
        appendErrorResponseBody reserved encoder body
      else
        encodeBody encoder reserved body
    match err with
    | some e => truncated out start e
    | none => finishPDU out start header
  | .ok _ =>
    match body with
    | .raw raw => finishPDU ⟨reserved ++ raw, []⟩ start header
    | _ => .returned (dst, some (invalidPDUValue ("no encoder for command " ++ hex32 header.commandID)))

def responseHeader (request : Header) (responseID : CommandID) (status : CommandStatus) : Header :=
  { commandID := responseID, commandStatus := status, sequenceNumber := request.sequenceNumber }

/-- **Specification of `decodePDU`.** It accepts the frames whose command_length is their length and whose body
octets are accepted. -/
theorem decodePDU_ok (r : Registry) (frame : Octets) (pdu : DecodedPDU) :
    decodePDU r frame = .ok pdu ↔
      ∃ bs, frame = pdu.header.wire ++ bs ∧ pdu.header.commandLength.toNat = headerSize + bs.length ∧
        decodeBodyBytes r pdu.header bs = .ok pdu.body := by
  unfold decodePDU
  rw [Lib.Except.bind_ok]
  constructor
  · rintro ⟨header, hh, h⟩
    obtain ⟨hframe, hcl⟩ := (decodeHeader_ok _ _).mp hh
    simp only at h
    split at h
    · cases h
    · split at h
      · cases h
      · next hlt hne =>
        obtain ⟨value, hb, h⟩ := (Lib.Except.bind_ok _ _ _).mp h
        cases h
        have hlen : frame.length = header.commandLength.toNat := not_not.mp hne
        refine ⟨frame.drop headerSize, hframe, ?_, ?_⟩
        · show header.commandLength.toNat = _
          rw [List.length_drop]
          omega
        · rw [← hlen, List.take_length] at hb
          exact hb
  · rintro ⟨bs, rfl, hlen, hb⟩
    have hl : (pdu.header.wire ++ bs).length = pdu.header.commandLength.toNat := by
      rw [List.length_append, Header.length_wire, hlen]
    have hdrop : (pdu.header.wire ++ bs).drop headerSize = bs := List.drop_left' (Header.length_wire _)
    refine ⟨pdu.header, (decodeHeader_ok _ _).mpr ⟨by rw [hdrop], by omega⟩, ?_⟩
    simp only [hl, lt_self_iff_false, if_false, ne_eq, not_true_eq_false]
    refine (Lib.Except.bind_ok _ _ _).mpr ⟨pdu.body, ?_, rfl⟩
    rw [← hl, List.take_length, hdrop]
    exact hb

/-! ## Frames -/

/-- The frame of a header and body octets: the header with its command_length filled in, and the body. -/
def frameOf (header : Header) (body : Octets) : Octets :=
  { header with commandLength := UInt32.ofNat (headerSize + body.length) }.wire ++ body

@[simp] theorem length_frameOf (header : Header) (body : Octets) :
    (frameOf header body).length = headerSize + body.length := by
  rw [frameOf, List.length_append, Header.length_wire]

theorem finishPDU_reserved (dst bs : Octets) (header : Header) :
    finishPDU ⟨dst ++ List.replicate headerSize 0 ++ bs, []⟩ dst.length header =
      if (UInt32.ofNat (headerSize + bs.length)).toNat < headerSize then
        .returned (dst, some (.sentinel .invalidCommandLength))
      else .returned (dst ++ frameOf header bs, none) := by
  have hlen : (dst ++ List.replicate headerSize (0 : UInt8) ++ bs).length - dst.length = headerSize + bs.length := by
    simp only [List.length_append, List.length_replicate]
    omega
  have htake : ((dst ++ List.replicate headerSize (0 : UInt8) ++ bs).drop dst.length).take headerSize =
      List.replicate headerSize 0 := by
    rw [List.append_assoc, List.drop_left]
    exact List.take_left' (by simp)
  have hdrop : (dst ++ List.replicate headerSize (0 : UInt8) ++ bs).drop (dst.length + headerSize) = bs := by
    exact List.drop_left' (by simp)
  have hstart : (dst ++ List.replicate headerSize (0 : UInt8) ++ bs).take dst.length = dst := by
    rw [List.append_assoc, List.take_left]
  unfold finishPDU encodeHeader
  simp only [hlen, htake, hdrop, hstart]
  rw [if_neg (by simp)]
  by_cases h : (UInt32.ofNat (headerSize + bs.length)).toNat < headerSize
  · simp only [h, if_true]
    unfold truncated Slice.upTo
    rw [if_pos (by simp only [List.length_append]; omega)]
    simp only [List.append_nil, hstart]
  · simp only [h, if_false, frameOf, List.append_assoc]
    rfl

/-- The body octets `EncodePDU` writes with a library encoder: those of the encoder, and for an error response the
TLVs of a body that the encoder accepts. -/
def Written (encode : Value → Append Unit) (header : Header) (body : Value) (bs : Octets) : Prop :=
  if isResponse header.commandID && !CommandStatus.ok header.commandStatus then
    (∃ cs, (encode body).Appends cs) ∧ TLVsFit (optionalParametersOf body) ∧ bs = tlvsWire (optionalParametersOf body)
  else (encode body).Appends bs

theorem encodeBody_ofLib (encode : Value → Append Unit) (dst : Octets) (body : Value) (out : Slice) :
    encodeBody (.ofLib encode) dst body = (out, none) ↔ ∃ bs, (encode body).Appends bs ∧ out = ⟨dst ++ bs, []⟩ := by
  show (Slice.mk ((encode body).appendTo dst).1 [], ((encode body).appendTo dst).2) = (out, none) ↔ _
  constructor
  · intro h
    simp only [Prod.mk.injEq] at h
    obtain ⟨bs, hbs, hout⟩ := (Appender.appendTo_none _ dst _).mp (Prod.ext rfl h.2)
    exact ⟨bs, hbs, h.1.symm.trans (congrArg (Slice.mk · []) hout)⟩
  · rintro ⟨bs, hbs, rfl⟩
    rw [(Appender.appendTo_none _ dst (dst ++ bs)).mpr ⟨bs, hbs, rfl⟩]

theorem appendErrorResponseBody_ofLib (encode : Value → Append Unit) (dst : Octets) (body : Value) (out : Slice) :
    appendErrorResponseBody dst (.ofLib encode) body = (out, none) ↔
      (∃ cs, (encode body).Appends cs) ∧ TLVsFit (optionalParametersOf body) ∧
        out = ⟨dst ++ tlvsWire (optionalParametersOf body), []⟩ := by
  have henc := encodeBody_ofLib encode [] body
  unfold appendErrorResponseBody
  rcases h : encodeBody (.ofLib encode) [] body with ⟨o, e | e⟩
  · obtain ⟨cs, hcs, -⟩ := (henc o).mp h
    have hacc : ∃ cs, (encode body).Appends cs := ⟨cs, hcs⟩
    simp only [hacc, true_and]
    constructor
    · intro h
      simp only [Prod.mk.injEq] at h
      obtain ⟨bs, hbs, hout⟩ := (Appender.appendTo_none _ dst _).mp (Prod.ext rfl h.2)
      obtain ⟨hfit, rfl⟩ := ((appendOptional_writes _).appends bs).mp hbs
      exact ⟨hfit, h.1.symm.trans (congrArg (Slice.mk · []) hout)⟩
    · rintro ⟨hfit, rfl⟩
      rw [(Appender.appendTo_none _ dst _).mpr ⟨_, ((appendOptional_writes _).appends _).mpr ⟨hfit, rfl⟩, rfl⟩]
  · refine ⟨fun h => (by cases h), ?_⟩
    rintro ⟨⟨cs, hcs⟩, -⟩
    rw [(henc _).mpr ⟨cs, hcs, rfl⟩] at h
    cases h

/-- **Specification of `encodePDU` for the library's encoders.** -/
theorem encodePDU_lib {r : Registry} {header : Header} {d : CommandDefinition} {encode : Value → Append Unit}
    (hd : r.command header.commandID = some d) (he : d.encode = some (.ofLib encode)) (dst : Octets) (body : Value)
    (out : Octets) :
    encodePDU r dst header body = .returned (out, none) ↔
      ∃ bs, Written encode header body bs ∧ headerSize ≤ (UInt32.ofNat (headerSize + bs.length)).toNat ∧
        out = dst ++ frameOf header bs := by
  have hres := Registry.resolveCommand_some hd
  have finish (bs : Octets) :
      finishPDU ⟨dst ++ List.replicate headerSize 0 ++ bs, []⟩ dst.length header = .returned (out, none) ↔
        headerSize ≤ (UInt32.ofNat (headerSize + bs.length)).toNat ∧ out = dst ++ frameOf header bs := by
    rw [finishPDU_reserved]
    split
    · next h =>
      simp only [Outcome.returned.injEq, Prod.mk.injEq, reduceCtorEq, and_false, false_iff, not_and]
      exact fun h' => absurd h' (Nat.not_le.mpr h)
    · next h =>
      simp only [Outcome.returned.injEq, Prod.mk.injEq, and_true, Nat.not_lt.mp h, true_and]
      exact eq_comm
  have step (x : Slice × Option Err) :
      (match x.2 with
        | some e => truncated x.1 dst.length e
        | none => finishPDU x.1 dst.length header) = .returned (out, none) ↔
      ∃ s, x = (s, none) ∧ finishPDU s dst.length header = .returned (out, none) := by
    rcases x with ⟨s, e | e⟩
    · simp
    · simp only [truncated, reduceCtorEq, false_and, exists_false, iff_false, Prod.mk.injEq, and_false]
      split <;> simp
  obtain ⟨id, name, decode, enc, actor, states⟩ := d
  cases he
  unfold encodePDU Written
  simp only [hres]
  refine (step _).trans ?_
  by_cases h : (isResponse header.commandID && !CommandStatus.ok header.commandStatus) = true
  · simp only [h, if_true, appendErrorResponseBody_ofLib]
    constructor
    · rintro ⟨s, ⟨hcs, hfit, rfl⟩, hf⟩
      exact ⟨_, ⟨hcs, hfit, rfl⟩, (finish _).mp hf⟩
    · rintro ⟨bs, ⟨hcs, hfit, rfl⟩, hf⟩
      exact ⟨_, ⟨hcs, hfit, rfl⟩, (finish _).mpr hf⟩
  · simp only [h, if_false, Bool.false_eq_true, encodeBody_ofLib]
    constructor
    · rintro ⟨s, ⟨bs, hbs, rfl⟩, hf⟩
      exact ⟨bs, hbs, (finish _).mp hf⟩
    · rintro ⟨bs, hbs, hf⟩
      exact ⟨_, ⟨bs, hbs, rfl⟩, (finish _).mpr hf⟩

end GoSmpp.Codec
