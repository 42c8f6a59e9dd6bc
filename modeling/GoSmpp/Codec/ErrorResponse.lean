import GoSmpp.Codec.RoundTrip

/-!
# Error responses

A response with a command_status other than 0 is written as its header and the optional parameters of its body. The body is
checked by the command's own encoder, and nothing else of it reaches the wire.

* `CommandFormat.fits`, `CommandFormat.decode_error`: what the formats of the response commands have in common.
* `encodePDU_errorResponse`: which error responses are written, what their frames are, and what `decodePDU` reads in them.
-/

namespace GoSmpp.Codec
open Lib Protocol

/-- The body that the decoder of a response returns for an error response without parameters. -/
def CommandFormat.zero : CommandFormat → Struct
  | .response F => F.type.wrap F.zero
  | .deliverResponse => .deliverSMResp ⟨[], []⟩
  | _ => .emptyBody

section Formats
variable {body : Value} {cs : Octets}

theorem optionalParametersOf_holds {s : Struct} (h : Holds body s) : optionalParametersOf body = s.optional := by
  rcases h with rfl | rfl <;> rfl

theorem optionalParametersOf_isEmptyBody (h : IsEmptyBody body) : optionalParametersOf body = [] := by
  rcases h with rfl | h | rfl
  · rfl
  · exact optionalParametersOf_holds h
  · rfl

theorem tlvsFit_nil : TLVsFit [] := List.forall_mem_nil _

theorem BodySpec.Responds.fits {α : Type} {B : BodySpec α} {bs : Octets} (h : B.Responds cs body bs)
    (hfits : ∀ v, B.Encodable v → TLVsFit (B.type.wrap v).optional) : TLVsFit (optionalParametersOf body) := by
  rcases h with ⟨he, -⟩ | ⟨v, hv, henc, -⟩ | ⟨ps, hps, hfit, -⟩
  · rw [optionalParametersOf_isEmptyBody he]
    exact tlvsFit_nil
  · rw [optionalParametersOf_holds hv]
    exact hfits v henc
  · rw [optionalParametersOf_holds hps]
    exact hfit

/-- The encoder of a response refuses parameters that do not fit. -/
theorem CommandFormat.fits {f : CommandFormat} (hresp : f.isResponse = true) (h : (f.encode body).Appends cs) :
    TLVsFit (optionalParametersOf body) := by
  cases f with
  | emptyRequest => cases hresp
  | request F => cases hresp
  | response F => exact ((encodeResponse_appends F.toBodySpec _ _).mp h).fits F.fits
  | deliverResponse => exact ((encodeDeliverSMResp_appends _ _).mp h).fits fun _ henc => henc.2
  | emptyResponse =>
    rcases (encodeResponseEmpty_appends _ _).mp h with ⟨he, -⟩ | ⟨ps, hps, hfit, -⟩
    · rw [optionalParametersOf_isEmptyBody he]
      exact tlvsFit_nil
    · rw [optionalParametersOf_holds hps]
      exact hfit

end Formats

theorem CommandDefinition.Implements.zero {d : CommandDefinition} {f : CommandFormat} (hf : d.Implements f)
    (hresp : f.isResponse = true) : f.zero = zeroBody d.id := by
  have hkind := hf.kind
  cases f with
  | emptyRequest => cases hresp
  | request F => cases hresp
  | response F => exact F.zero_body _ hkind
  | deliverResponse | emptyResponse =>
    unfold zeroBody
    rw [hkind]
    rfl

theorem CommandFormat.decode_error {f : CommandFormat} (hresp : f.isResponse = true) {header : Header}
    (hs : header.commandStatus ≠ statusOK) {ps : List OptionalParameter} (hfit : TLVsFit ps) :
    f.decode header (tlvsWire ps) = .ok (.struct (errorBody f.zero ps)) := by
  cases f with
  | emptyRequest => cases hresp
  | request F => cases hresp
  | response F => exact (decodeResponse_ok F.toBodySpec _ _ _ _).mpr (.inr ⟨hs, ps, rfl, hfit, rfl⟩)
  | deliverResponse => exact (decodeDeliverSMResp_ok _ _ _).mpr (.inr ⟨hs, ps, rfl, hfit, rfl⟩)
  | emptyResponse => exact (decodeResponseEmpty_ok header _ _).mpr ⟨ps, rfl, hfit, rfl⟩

theorem zeroBody_optional (id : CommandID) : (zeroBody id).optional = [] := by
  unfold zeroBody
  split <;> rfl

/-- **Error responses carry exactly the optional parameters.** `encodePDU` writes a response with another status than 0 if
and only if the command's own encoder accepts the body. The frame is the header and the optional parameters of the body, and
`decodePDU` returns the header, these parameters, and where there are none the zero body of the command. -/
theorem encodePDU_errorResponse {r : Registry} (hr : r.IsStandard) {header : Header} {d : CommandDefinition}
    (hd : r.command header.commandID = some d) (hresp : isResponse header.commandID = true)
    (hs : header.commandStatus ≠ statusOK) (body : Value)
    (hlen : headerSize + (tlvsWire (optionalParametersOf body)).length < 2 ^ 32) :
    ((∃ frame, encodePDU r [] header body = .returned (frame, none)) ↔
      ∃ encoder out, d.encode = some encoder ∧ encodeBody encoder [] body = (out, none)) ∧
    ∀ frame, encodePDU r [] header body = .returned (frame, none) →
      frame = frameOf header (tlvsWire (optionalParametersOf body)) ∧
      ∃ pdu, decodePDU r frame = .ok pdu ∧ pdu.header = withLength header (tlvsWire (optionalParametersOf body)) ∧
        optionalParametersOf pdu.body = optionalParametersOf body ∧
        (optionalParametersOf body = [] → pdu.body = .struct (zeroBody header.commandID)) := by
  obtain ⟨hid, f, hf⟩ := exists_format hr hd
  have hfresp : f.isResponse = true := by rw [← hf.isResponse, hid, hresp]
  have hwritten (frame : Octets) : encodePDU r [] header body = .returned (frame, none) ↔
      (∃ cs, (f.encode body).Appends cs) ∧ TLVsFit (optionalParametersOf body) ∧
        frame = frameOf header (tlvsWire (optionalParametersOf body)) := by
    rw [encodePDU_lib hd hf.encode [] body frame]
    constructor
    · rintro ⟨bs, hw, -, hframe⟩
      obtain ⟨hcs, hfit, rfl⟩ := (written_error hresp hs).mp hw
      exact ⟨hcs, hfit, hframe⟩
    · rintro ⟨hcs, hfit, hframe⟩
      refine ⟨_, (written_error hresp hs).mpr ⟨hcs, hfit, rfl⟩, ?_, hframe⟩
      rw [toNat_commandLength hlen]
      exact Nat.le_add_right _ _
  constructor
  · constructor
    · rintro ⟨frame, hframe⟩
      obtain ⟨⟨cs, hcs⟩, -⟩ := (hwritten frame).mp hframe
      exact ⟨_, _, hf.encode, (encodeBody_ofLib f.encode [] body _).mpr ⟨cs, hcs, rfl⟩⟩
    · rintro ⟨encoder, out, hencoder, hout⟩
      cases hencoder.symm.trans hf.encode
      obtain ⟨cs, hcs, -⟩ := (encodeBody_ofLib f.encode [] body out).mp hout
      exact ⟨_, (hwritten _).mpr ⟨⟨cs, hcs⟩, CommandFormat.fits hfresp hcs, rfl⟩⟩
  · intro frame hframe
    obtain ⟨-, hfit, rfl⟩ := (hwritten frame).mp hframe
    refine ⟨rfl, ⟨withLength header _, .struct (errorBody (zeroBody header.commandID) (optionalParametersOf body))⟩, ?_, rfl,
      optionalParametersOf_errorBody (zeroBody_optional _) _, fun hnil => by rw [hnil]; rfl⟩
    refine (decodePDU_frameOf r header _ _ hlen).mpr ⟨rfl, ?_⟩
    rw [decodeBodyBytes_eq (withLength header _) hd hf]
    have hs' : (withLength header (tlvsWire (optionalParametersOf body))).commandStatus ≠ statusOK := hs
    rw [← hid, ← hf.zero hfresp]
    exact CommandFormat.decode_error hfresp hs' hfit

/-- A submit_sm_resp of status 8 with a message_id and a congestion_state: the message_id is not written. -/
theorem encodePDU_errorResponse_submitSMResp : ∃ pdu,
    encodePDU (smpp50Registry .strict) [] ⟨0, commandSubmitSMResp, statusSystemError, 1⟩
        (.ptr (.submitSMResp ⟨[0x61], [⟨0x0428, [50]⟩]⟩)) =
      .returned (frameOf ⟨0, commandSubmitSMResp, statusSystemError, 1⟩ [0x04, 0x28, 0, 1, 50], none) ∧
    decodePDU (smpp50Registry .strict) (frameOf ⟨0, commandSubmitSMResp, statusSystemError, 1⟩ [0x04, 0x28, 0, 1, 50]) =
      .ok pdu ∧ optionalParametersOf pdu.body = [⟨0x0428, [50]⟩] := by
  have hr : (smpp50Registry .strict).IsStandard := .smpp50 .strict (newSMPP50Registry_ok _)
  have hframe : encodePDU (smpp50Registry .strict) [] ⟨0, commandSubmitSMResp, statusSystemError, 1⟩
      (.ptr (.submitSMResp ⟨[0x61], [⟨0x0428, [50]⟩]⟩)) =
      .returned (frameOf ⟨0, commandSubmitSMResp, statusSystemError, 1⟩ [0x04, 0x28, 0, 1, 50], none) := by decide +kernel
  have herror := @encodePDU_errorResponse _ hr ⟨0, commandSubmitSMResp, statusSystemError, 1⟩ _ rfl (by decide)
    (by decide) (.ptr (.submitSMResp ⟨[0x61], [⟨0x0428, [50]⟩]⟩)) (by decide +kernel)
  obtain ⟨-, pdu, hpdu, -, hoptional, -⟩ := herror.2 _ hframe
  exact ⟨pdu, hframe, hpdu, hoptional⟩

end GoSmpp.Codec
