import GoSmpp.Codec.Commands

/-!
# Decoding and encoding undo each other

For the SMPP 3.4 and 5.0 registries, in either mode:

* `decodePDU_encodePDU` : decoding a frame that `encodePDU` wrote for a body of the command's own type gives back the
  header and the body;
* `encodePDU_decodePDU` : encoding what `decodePDU` returned gives back the frame, but for a header-only
  deliver_sm_resp of status 0;
* `decodePDU_encodePDU_isOk_iff` : exactly which of the frames `encodePDU` writes `decodePDU` accepts (`Readable`).
-/

namespace GoSmpp.Codec
open Lib Protocol

/-! ## Frames of registered commands -/

/-- The header of a written frame. -/
def withLength (header : Header) (bs : Octets) : Header :=
  { header with commandLength := UInt32.ofNat (headerSize + bs.length) }

theorem toNat_commandLength {bs : Octets} (h : headerSize + bs.length < 2 ^ 32) :
    (UInt32.ofNat (headerSize + bs.length)).toNat = headerSize + bs.length := by
  rw [UInt32.toNat_ofNat', Nat.mod_eq_of_lt h]

theorem decodePDU_frameOf (r : Registry) (header : Header) (bs : Octets) (pdu : DecodedPDU)
    (hlen : headerSize + bs.length < 2 ^ 32) :
    decodePDU r (frameOf header bs) = .ok pdu ↔
      pdu.header = withLength header bs ∧ decodeBodyBytes r (withLength header bs) bs = .ok pdu.body := by
  rw [decodePDU_ok]
  constructor
  · rintro ⟨bs', hframe, -, hbody⟩
    obtain ⟨hh, rfl⟩ := Header.wire_append_inj hframe
    have hh' : pdu.header = withLength header bs := hh.symm
    exact ⟨hh', hh' ▸ hbody⟩
  · rintro ⟨hh, hbody⟩
    rw [hh]
    exact ⟨bs, rfl, toNat_commandLength hlen, hbody⟩

theorem decodeBodyBytes_of_decoder {r : Registry} {header : Header} {d : CommandDefinition}
    {decode : Header → Octets → Except Err Value} (hd : r.command header.commandID = some d)
    (hdec : d.decode = some (.ofLib decode)) (body : Octets) : decodeBodyBytes r header body = decode header body := by
  obtain ⟨id, name, dec, encode, actor, states⟩ := d
  cases hdec
  unfold decodeBodyBytes Registry.resolveCommand
  rw [hd]
  rfl

theorem decodeBodyBytes_eq {r : Registry} (header : Header) {d : CommandDefinition} {f : CommandFormat}
    (hd : r.command header.commandID = some d) (hf : d.Implements f) (bs : Octets) :
    decodeBodyBytes r header bs = f.decode header bs :=
  decodeBodyBytes_of_decoder hd hf.decode bs

theorem CommandFormat.decode_kind {f : CommandFormat} (hf : f.isResponse = true) {header : Header} {bs : Octets} {value : Value}
    (h : f.decode header bs = .ok value) : ∃ s, value = .struct s ∧ (s.kind = f.kind ∨ s.kind = .optionalResponse) := by
  have herror (zero : Struct) (ps : List OptionalParameter) (hz : zero.kind = f.kind) :
      (errorBody zero ps).kind = f.kind ∨ (errorBody zero ps).kind = .optionalResponse := by
    cases ps with
    | nil => exact .inl hz
    | cons p ps => exact .inr rfl
  cases f with
  | emptyRequest | request => cases hf
  | response F =>
    rcases (decodeResponse_ok F.toBodySpec _ header bs value).mp h with ⟨-, v, -, -, rfl⟩ | ⟨-, ps, -, -, rfl⟩
    · exact ⟨_, rfl, .inl (F.type.kind_wrap v)⟩
    · exact ⟨_, rfl, herror _ ps (F.type.kind_wrap _)⟩
  | deliverResponse =>
    rcases (decodeDeliverSMResp_ok header bs value).mp h with ⟨-, ⟨-, rfl⟩ | ⟨v, -, -, rfl⟩⟩ | ⟨-, ps, -, -, rfl⟩
    · exact ⟨_, rfl, .inl rfl⟩
    · exact ⟨_, rfl, .inl rfl⟩
    · exact ⟨_, rfl, herror _ ps rfl⟩
  | emptyResponse =>
    obtain ⟨ps, -, -, rfl⟩ := (decodeResponseEmpty_ok header bs value).mp h
    exact ⟨_, rfl, herror _ ps rfl⟩

theorem decodePDU_response_kind {r : Registry} (hr : r.IsStandard) {frame : Octets} {pdu : DecodedPDU}
    (h : decodePDU r frame = .ok pdu) (hresp : isResponse pdu.header.commandID = true) :
    (∃ bs, pdu.body = .raw bs) ∨
      ∃ s, pdu.body = .struct s ∧ (bodyKind pdu.header.commandID = some s.kind ∨ s.kind = .optionalResponse) := by
  obtain ⟨bs, -, -, hbody⟩ := (decodePDU_ok r frame pdu).mp h
  cases hd : r.command pdu.header.commandID with
  | none =>
    unfold decodeBodyBytes Registry.resolveCommand at hbody
    rw [hd] at hbody
    by_cases hm : r.mode = .strict
    · simp only [hm, if_true] at hbody
      cases hbody
    · simp only [hm, if_false] at hbody
      exact .inl ⟨bs, (Except.ok.inj hbody).symm⟩
  | some d =>
    obtain ⟨hid, f, hf⟩ := exists_format hr hd
    rw [decodeBodyBytes_eq _ hd hf] at hbody
    have hfresp : f.isResponse = true := by rw [← hf.isResponse, hid, hresp]
    obtain ⟨s, hs, hkind⟩ := CommandFormat.decode_kind hfresp hbody
    refine .inr ⟨s, hs, hkind.imp_left fun hk => ?_⟩
    rw [← hid, hf.kind, hk]

theorem encodePDU_unknown {r : Registry} {header : Header} {body : Value} {frame : Octets}
    (hd : r.command header.commandID = none) (h : encodePDU r [] header body = .returned (frame, none)) :
    r.mode = .compatible ∧ ∃ bs, body = .raw bs ∧ frame = frameOf header bs := by
  unfold encodePDU Registry.resolveCommand at h
  rw [hd] at h
  cases hm : r.mode with
  | strict =>
    simp only [hm, if_true] at h
    cases h
  | compatible =>
    simp only [hm, reduceCtorEq, if_false] at h
    cases body with
    | raw bs =>
      refine ⟨rfl, bs, rfl, ?_⟩
      simp only at h
      rw [finishPDU_reserved [] bs header] at h
      split at h
      · cases h
      · cases h
        rfl
    | _ => cases h

theorem encodePDU_decodeBodyBytes_unknown {r : Registry} {header : Header} {bs : Octets} {body : Value}
    (hd : r.command header.commandID = none) (hlen : headerSize + bs.length < 2 ^ 32)
    (h : decodeBodyBytes r header bs = .ok body) :
    encodePDU r [] header body = .returned (frameOf header bs, none) := by
  unfold decodeBodyBytes Registry.resolveCommand at h
  unfold encodePDU Registry.resolveCommand
  rw [hd] at h ⊢
  cases hm : r.mode with
  | strict =>
    simp only [hm, if_true] at h
    cases h
  | compatible =>
    simp only [hm, reduceCtorEq, if_false] at h ⊢
    cases h
    refine (finishPDU_reserved [] bs header).trans ?_
    rw [toNat_commandLength hlen, if_neg (by omega)]
    rfl

theorem command_deliverSMResp_ne_none {r : Registry} (hr : r.IsStandard) :
    r.command commandDeliverSMResp ≠ none := by
  unfold Registry.command
  rcases hr.commands with hc | hc <;> rw [hc] <;> exact fun h => by cases h

theorem encodePDU_standard {r : Registry} (hr : r.IsStandard) {header : Header} {body : Value} {frame : Octets}
    (hraw : ∀ bs, body ≠ .raw bs) (h : encodePDU r [] header body = .returned (frame, none)) :
    ∃ d f bs, r.command header.commandID = some d ∧ d.id = header.commandID ∧ d.Implements f ∧
      Written f.encode header body bs ∧ frame = frameOf header bs := by
  cases hd : r.command header.commandID with
  | none =>
    rcases encodePDU_unknown hd h with ⟨-, bs, hbs, -⟩
    exact absurd hbs (hraw bs)
  | some d =>
    obtain ⟨hid, f, hf⟩ := exists_format hr hd
    obtain ⟨bs, hw, -, hframe⟩ := (encodePDU_lib hd hf.encode [] body frame).mp h
    exact ⟨d, f, bs, rfl, hid, hf, hw, hframe⟩

theorem written_ok {encode : Value → Append Unit} {header : Header} {body : Value} {bs : Octets}
    (hs : header.commandStatus = statusOK) : Written encode header body bs ↔ (encode body).Appends bs := by
  unfold Written
  rw [if_neg (by simp [CommandStatus.ok, hs])]

theorem written_error {encode : Value → Append Unit} {header : Header} {body : Value} {bs : Octets}
    (hr : isResponse header.commandID = true) (hs : header.commandStatus ≠ statusOK) :
    Written encode header body bs ↔ (∃ cs, (encode body).Appends cs) ∧ TLVsFit (optionalParametersOf body) ∧
      bs = tlvsWire (optionalParametersOf body) := by
  unfold Written
  rw [if_pos (by simp [CommandStatus.ok, hs, hr])]

theorem written_request {encode : Value → Append Unit} {header : Header} {body : Value} {bs : Octets}
    (hr : isResponse header.commandID = false) : Written encode header body bs ↔ (encode body).Appends bs := by
  unfold Written
  rw [if_neg (by simp [hr])]

/-! ## Decoding undoes encoding -/

/-- The body is of the command's own type; a header-only response may instead carry TLVs. -/
def OwnBody (kind : Kind) (response : Bool) (s : Struct) : Prop :=
  s.kind = kind ∨ (kind = .emptyBody ∧ response = true ∧ ∃ p ps, s = .optionalResponse ⟨p :: ps⟩)

theorem Holds.eq_emptyBody {body : Value} {s : Struct} (h : Holds body s) (he : IsEmptyBody body) : s = .emptyBody := by
  rcases he with rfl | he | rfl
  · rcases h with h | h <;> cases h
  · exact h.inj he
  · rcases h with h | h <;> cases h

theorem CommandFormat.decode_of_appends (f : CommandFormat) (header : Header) (hs : header.commandStatus = statusOK)
    {body : Value} {s : Struct} (hbody : Holds body s) (hown : OwnBody f.kind f.isResponse s)
    (hc : BodyCanonical s) {bs : Octets} (h : (f.encode body).Appends bs) : f.decode header bs = .ok (.struct s) := by
  cases f with
  | emptyRequest =>
    obtain ⟨he, rfl⟩ := (encodeEmpty_appends _ _).mp h
    rw [hbody.eq_emptyBody he]
    exact (decodeRequestEmpty_ok _ _ _).mpr ⟨hs, rfl, rfl⟩
  | request F =>
    obtain ⟨v, hv, henc, rfl⟩ := (encodeRequest_appends F.toBodySpec _ _).mp h
    obtain rfl := hbody.inj hv
    exact (decodeRequest_ok F.toBodySpec _ _ _).mpr ⟨hs, v, rfl, ⟨henc, (F.agrees.canonical v).mpr hc⟩, rfl⟩
  | response F =>
    -- the own body is the typed one, since the kind of `F` is not `EmptyBody`
    have hkind : s.kind = F.type.kind := by
      rcases hown with h | ⟨h, -⟩
      · exact h
      · exact absurd h F.type.kind_ne_emptyBody
    rcases (encodeResponse_appends F.toBodySpec _ _).mp h with ⟨he, -⟩ | ⟨v, hv, henc, rfl⟩ | ⟨ps, hps, -⟩
    · rw [hbody.eq_emptyBody he] at hkind
      exact absurd hkind.symm F.type.kind_ne_emptyBody
    · obtain rfl := hbody.inj hv
      exact (decodeResponse_ok F.toBodySpec _ _ _ _).mpr
        (.inl ⟨hs, v, rfl, ⟨henc, (F.agrees.canonical v).mpr hc⟩, rfl⟩)
    · rw [hbody.inj hps] at hkind
      exact absurd hkind.symm F.type.kind_ne_optionalResponse
  | deliverResponse =>
    have hkind : s.kind = .deliverSMResp := by
      rcases hown with h | ⟨h, -⟩
      · exact h
      · cases h
    rcases (encodeDeliverSMResp_appends _ _).mp h with ⟨he, -⟩ | ⟨v, hv, henc, rfl⟩ | ⟨ps, hps, -⟩
    · rw [hbody.eq_emptyBody he] at hkind
      cases hkind
    · obtain rfl := hbody.inj hv
      exact (decodeDeliverSMResp_ok _ _ _).mpr (.inl ⟨hs, .inr ⟨v, rfl, henc, rfl⟩⟩)
    · rw [hbody.inj hps] at hkind
      cases hkind
  | emptyResponse =>
    rcases (encodeResponseEmpty_appends _ _).mp h with ⟨he, rfl⟩ | ⟨ps, hps, hfit, rfl⟩
    · rw [hbody.eq_emptyBody he]
      exact (decodeResponseEmpty_ok header _ _).mpr ⟨[], rfl, fun p hp => absurd hp List.not_mem_nil, rfl⟩
    · obtain rfl := hbody.inj hps
      rcases hown with h | ⟨-, -, p, qs, h⟩
      · cases h
      · cases h
        exact (decodeResponseEmpty_ok header _ _).mpr ⟨p :: qs, rfl, hfit, rfl⟩

/-- **Decoding undoes encoding.** For a body of the command's own type and status 0, `decodePDU` of the frame that
`encodePDU` wrote returns the header, with the frame's length as its command_length, and the body. -/
theorem decodePDU_encodePDU {r : Registry} (hr : r.IsStandard) {header : Header} {kind : Kind}
    (hkind : bodyKind header.commandID = some kind) (hstatus : header.commandStatus = statusOK) {body : Value}
    {s : Struct} (hbody : Holds body s) (hown : OwnBody kind (isResponse header.commandID) s)
    (hcanon : BodyCanonical s) {frame : Octets} (h : encodePDU r [] header body = .returned (frame, none))
    (hlen : frame.length < 2 ^ 32) :
    decodePDU r frame =
      .ok { header := { header with commandLength := UInt32.ofNat frame.length }, body := .struct s } := by
  have hraw (bs : Octets) : body ≠ .raw bs := by
    rcases hbody with rfl | rfl <;> exact fun h => by cases h
  obtain ⟨d, f, bs, hd, hid, hf, hw, rfl⟩ := encodePDU_standard hr hraw h
  have hk : f.kind = kind := by
    have := hf.kind
    rw [hid, hkind] at this
    exact (Option.some.inj this).symm
  have hresp : f.isResponse = isResponse header.commandID := by rw [← hf.isResponse, hid]
  rw [length_frameOf] at hlen ⊢
  refine (decodePDU_frameOf r header bs _ hlen).mpr ⟨rfl, ?_⟩
  rw [decodeBodyBytes_eq (withLength header bs) hd hf]
  exact f.decode_of_appends (withLength header bs) hstatus hbody (hk ▸ hresp ▸ hown) hcanon
    ((written_ok hstatus).mp hw)

/-- A bind_transceiver_resp with an sc_interface_version, given by pointer. -/
theorem decodePDU_encodePDU_bindResponse :
    decodePDU (smpp50Registry .strict)
        [0, 0, 0, 24, 0x80, 0, 0, 9, 0, 0, 0, 0, 0, 0, 0, 1, 0x61, 0x62, 0, 0x02, 0x10, 0, 1, 0x50] =
      .ok { header := { commandLength := 24, commandID := commandBindTransceiverResp, commandStatus := statusOK,
                        sequenceNumber := 1 }
            body := .struct (.bindResponse ⟨[0x61, 0x62], [⟨tlvTagSCInterfaceVersion, [0x50]⟩]⟩) } :=
  @decodePDU_encodePDU _ (.smpp50 .strict (newSMPP50Registry_ok _))
    { commandID := commandBindTransceiverResp, commandStatus := statusOK, sequenceNumber := 1 } .bindResponse rfl rfl
    (.ptr (.bindResponse ⟨[0x61, 0x62], [⟨tlvTagSCInterfaceVersion, [0x50]⟩]⟩)) _ (.inr rfl) (.inl rfl)
    (by simp [BodyCanonical]) _ rfl (by decide)

/-! ## Encoding undoes decoding -/

theorem optionalParametersOf_errorBody {zero : Struct} (hz : zero.optional = []) (ps : List OptionalParameter) :
    optionalParametersOf (.struct (errorBody zero ps)) = ps := by
  cases ps with
  | nil => exact hz
  | cons p ps => rfl

/-- One command: what its decoder accepted its encoder writes again. Only deliver_sm_resp has two forms of one
body. -/
theorem CommandFormat.written_of_decode (f : CommandFormat) {header : Header}
    (hresp : Protocol.isResponse header.commandID = f.isResponse) {bs : Octets} {value : Value}
    (h : f.decode header bs = .ok value) :
    Written f.encode header value
      (if f.isDeliverResponse = true ∧ header.commandStatus = statusOK ∧ bs = [] then [0] else bs) := by
  cases f with
  | emptyRequest =>
    obtain ⟨hs, rfl, rfl⟩ := (decodeRequestEmpty_ok _ _ _).mp h
    exact (written_ok hs).mpr ((encodeEmpty_appends _ _).mpr ⟨.inr (.inl (.inl rfl)), rfl⟩)
  | request F =>
    obtain ⟨hs, v, rfl, ⟨henc, -⟩, rfl⟩ := (decodeRequest_ok F.toBodySpec _ _ _).mp h
    exact (written_ok hs).mpr ((encodeRequest_appends F.toBodySpec _ _).mpr ⟨v, .inl rfl, henc, rfl⟩)
  | response F =>
    rcases (decodeResponse_ok F.toBodySpec _ _ _ _).mp h with ⟨hs, v, rfl, ⟨henc, -⟩, rfl⟩ | ⟨hs, ps, rfl, hfit, rfl⟩
    · exact (written_ok hs).mpr ((encodeResponse_appends F.toBodySpec _ _).mpr (.inr (.inl ⟨v, .inl rfl, henc, rfl⟩)))
    · refine (written_error hresp hs).mpr ?_
      rw [optionalParametersOf_errorBody F.zero_optional]
      refine ⟨?_, hfit, rfl⟩
      cases ps with
      | nil => exact ⟨_, (encodeResponse_appends F.toBodySpec _ _).mpr
          (.inr (.inl ⟨F.zero, .inl rfl, F.zero_encodable, rfl⟩))⟩
      | cons p ps => exact ⟨_, (encodeResponse_appends F.toBodySpec _ _).mpr
          (.inr (.inr ⟨p :: ps, .inl rfl, hfit, rfl⟩))⟩
  | deliverResponse =>
    rcases (decodeDeliverSMResp_ok _ _ _).mp h with
      ⟨hs, ⟨rfl, rfl⟩ | ⟨v, rfl, henc, rfl⟩⟩ | ⟨hs, ps, rfl, hfit, rfl⟩
    · rw [if_pos ⟨rfl, hs, rfl⟩]
      exact (written_ok hs).mpr ((encodeDeliverSMResp_appends _ _).mpr
        (.inr (.inl ⟨⟨[], []⟩, .inl rfl, messageIDResp_zero_encodable, rfl⟩)))
    · rw [if_neg (by simp [MessageIDResp.wire])]
      exact (written_ok hs).mpr ((encodeDeliverSMResp_appends _ _).mpr (.inr (.inl ⟨v, .inl rfl, henc, rfl⟩)))
    · rw [if_neg (by simp [hs])]
      refine (written_error hresp hs).mpr ?_
      rw [optionalParametersOf_errorBody rfl]
      refine ⟨?_, hfit, rfl⟩
      cases ps with
      | nil => exact ⟨_, (encodeDeliverSMResp_appends _ _).mpr
          (.inr (.inl ⟨⟨[], []⟩, .inl rfl, messageIDResp_zero_encodable, rfl⟩))⟩
      | cons p ps => exact ⟨_, (encodeDeliverSMResp_appends _ _).mpr (.inr (.inr ⟨p :: ps, .inl rfl, hfit, rfl⟩))⟩
  | emptyResponse =>
    obtain ⟨ps, rfl, hfit, rfl⟩ := (decodeResponseEmpty_ok header _ _).mp h
    have henc : (encodeResponseEmpty (.struct (errorBody .emptyBody ps))).Appends (tlvsWire ps) := by
      cases ps with
      | nil => exact (encodeResponseEmpty_appends _ _).mpr (.inl ⟨.inr (.inl (.inl rfl)), rfl⟩)
      | cons p ps => exact (encodeResponseEmpty_appends _ _).mpr (.inr ⟨p :: ps, .inl rfl, hfit, rfl⟩)
    by_cases hs : header.commandStatus = statusOK
    · exact (written_ok hs).mpr henc
    · refine (written_error hresp hs).mpr ?_
      rw [optionalParametersOf_errorBody rfl]
      exact ⟨⟨_, henc⟩, hfit, rfl⟩

theorem frameOf_eq {header : Header} {bs : Octets} (h : header.commandLength.toNat = headerSize + bs.length) :
    frameOf header bs = header.wire ++ bs := by
  have e : UInt32.ofNat (headerSize + bs.length) = header.commandLength := by rw [← h, UInt32.ofNat_toNat]
  rw [frameOf, e]

/-- **Encoding undoes decoding.** Encoding what `decodePDU` returned gives back the frame; a header-only
deliver_sm_resp of status 0 is written with an empty message_id instead. -/
theorem encodePDU_decodePDU {r : Registry} (hr : r.IsStandard) {frame : Octets} {pdu : DecodedPDU}
    (h : decodePDU r frame = .ok pdu) :
    encodePDU r [] pdu.header pdu.body =
      .returned
        (if pdu.header.commandID = commandDeliverSMResp ∧ pdu.header.commandStatus = statusOK ∧
            frame.length = headerSize then { pdu.header with commandLength := 17 }.wire ++ [0] else frame,
          none) := by
  obtain ⟨bs, rfl, hlen, hbody⟩ := (decodePDU_ok _ _ _).mp h
  have hlt := pdu.header.commandLength.toNat_lt
  have hnil : (pdu.header.wire ++ bs).length = headerSize ↔ bs = [] := by
    rw [List.length_append, Header.length_wire]
    simp
  simp only [hnil]
  cases hd : r.command pdu.header.commandID with
  | none =>
    -- an unknown command, kept as its raw body: deliver_sm_resp is known to every standard registry
    have hne : pdu.header.commandID ≠ commandDeliverSMResp := fun e => by
      rw [e] at hd
      exact absurd hd (command_deliverSMResp_ne_none hr)
    rw [if_neg (fun h => hne h.1), ← frameOf_eq hlen]
    exact encodePDU_decodeBodyBytes_unknown hd (by omega) hbody
  | some d =>
    obtain ⟨hid, f, hf⟩ := exists_format hr hd
    rw [decodeBodyBytes_eq _ hd hf] at hbody
    have hdeliver : pdu.header.commandID = commandDeliverSMResp ↔ f.isDeliverResponse = true := by
      rw [← hid]
      exact hf.deliver
    have hw := f.written_of_decode (by rw [← hid]; exact hf.isResponse) hbody
    simp only [hdeliver]
    split at hw
    · next hcond =>
      rw [if_pos hcond]
      exact (encodePDU_lib hd hf.encode [] _ _).mpr ⟨_, hw, by decide, rfl⟩
    · next hcond =>
      rw [if_neg hcond, ← frameOf_eq hlen]
      exact (encodePDU_lib hd hf.encode [] _ _).mpr ⟨_, hw, by rw [toNat_commandLength (by omega)]; omega, rfl⟩

def submitSMRespFrame : Octets :=
  [0, 0, 0, 23, 0x80, 0, 0, 4, 0, 0, 0, 0, 0, 0, 0, 7, 65, 0, 4, 0x27, 0, 1, 2]

/-- A submit_sm_resp with a message_id and a TLV, and a header-only deliver_sm_resp of status 0. -/
theorem encodePDU_decodePDU_responses :
    (∃ pdu, decodePDU (smpp34Registry .compatible) submitSMRespFrame = .ok pdu ∧
      encodePDU (smpp34Registry .compatible) [] pdu.header pdu.body = .returned (submitSMRespFrame, none)) ∧
    encodePDU (smpp34Registry .compatible) []
        { commandLength := 16, commandID := commandDeliverSMResp, commandStatus := statusOK, sequenceNumber := 7 }
        (.struct (.deliverSMResp ⟨[], []⟩)) =
      .returned ([0, 0, 0, 17, 0x80, 0, 0, 5, 0, 0, 0, 0, 0, 0, 0, 7, 0], none) :=
  have hr : (smpp34Registry .compatible).IsStandard := .smpp34 .compatible (newSMPP34Registry_ok _)
  ⟨⟨_, rfl, @encodePDU_decodePDU _ hr submitSMRespFrame _ rfl⟩,
    @encodePDU_decodePDU _ hr [0, 0, 0, 16, 0x80, 0, 0, 5, 0, 0, 0, 0, 0, 0, 0, 7]
      { header := { commandLength := 16, commandID := commandDeliverSMResp, commandStatus := statusOK,
                    sequenceNumber := 7 }
        body := .struct (.deliverSMResp ⟨[], []⟩) } rfl⟩

/-! ## Which written frames are read -/

/-- The inputs of `encodePDU` whose frames `decodePDU` accepts: requests, error responses, header-only responses; a
response of status 0 with the command's own body, where each sc_interface_version of a bind response is one octet;
deliver_sm_resp without a body; and a response of status 0 whose TLVs happen to spell a body of the command. -/
def Readable (id : CommandID) (status : CommandStatus) (body : Value) : Prop :=
  isResponse id = false ∨ status ≠ statusOK ∨ bodyKind id = some .emptyBody ∨
    (∃ s, Holds body s ∧ bodyKind id = some s.kind ∧ BodyCanonical s) ∨
    (id = commandDeliverSMResp ∧ (IsEmptyBody body ∨ Holds body (.optionalResponse ⟨[]⟩))) ∨
    (∃ ps s, Holds body (.optionalResponse ⟨ps⟩) ∧ bodyKind id = some s.kind ∧ BodyEncodable s ∧ BodyCanonical s ∧
      bodyWire s = tlvsWire ps)

theorem readable_ok_iff {id : CommandID} {status : CommandStatus} {kind : Kind} (hresp : isResponse id = true)
    (hs : status = statusOK) (hkind : bodyKind id = some kind) (hne : kind ≠ .emptyBody) (body : Value) :
    Readable id status body ↔
      (∃ s, Holds body s ∧ s.kind = kind ∧ BodyCanonical s) ∨
      (id = commandDeliverSMResp ∧ (IsEmptyBody body ∨ Holds body (.optionalResponse ⟨[]⟩))) ∨
      (∃ ps s, Holds body (.optionalResponse ⟨ps⟩) ∧ s.kind = kind ∧ BodyEncodable s ∧ BodyCanonical s ∧
        bodyWire s = tlvsWire ps) := by
  have hk (k : Kind) : bodyKind id = some k ↔ k = kind := by rw [hkind, Option.some.injEq, eq_comm]
  simp only [Readable, hresp, hs, hk, hne.symm, reduceCtorEq, ne_eq, not_true_eq_false, false_or]

theorem not_holds_of_isEmptyBody {body : Value} {s : Struct} (he : IsEmptyBody body) (hs : s ≠ .emptyBody) :
    ¬ Holds body s :=
  fun h => hs (h.eq_emptyBody he)

theorem CommandFormat.isOk_decode_response {α : Type} (F : ResponseFormat α) {header : Header}
    (hresp : Protocol.isResponse header.commandID = true) (hkind : bodyKind header.commandID = some F.type.kind)
    (hdeliver : header.commandID ≠ commandDeliverSMResp) {body : Value} {bs : Octets}
    (hw : Written (encodeResponse F.type F.append) header body bs) :
    (∃ value, decodeResponse F.type F.zero (F.read header) header bs = .ok value) ↔
      Readable header.commandID header.commandStatus body := by
  by_cases hs : header.commandStatus = statusOK
  · rw [readable_ok_iff hresp hs hkind F.type.kind_ne_emptyBody]
    have hdec : (∃ value, decodeResponse F.type F.zero (F.read header) header bs = .ok value) ↔
        ∃ v, bs = F.wire v ∧ F.Encodable v ∧ F.Canonical v := by
      simp only [decodeResponse_ok F.toBodySpec, hs, true_and, ne_eq, not_true_eq_false, false_and, or_false]
      constructor
      · rintro ⟨_, v, hv, hc, -⟩
        exact ⟨v, hv, hc⟩
      · rintro ⟨v, hv, hc⟩
        exact ⟨_, v, hv, hc, rfl⟩
    rw [hdec]
    rcases (encodeResponse_appends F.toBodySpec _ _).mp ((written_ok hs).mp hw) with
      ⟨he, rfl⟩ | ⟨v, hv, henc, rfl⟩ | ⟨ps, hps, hfit, rfl⟩
    · -- no body: the mandatory fields are missing
      refine iff_of_false ?_ ?_
      · rintro ⟨v, hv, -⟩
        exact F.wire_ne_nil v hv.symm
      · rintro (⟨s, hb, hk, -⟩ | ⟨h, -⟩ | ⟨ps, s, hb, -⟩)
        · rw [hb.eq_emptyBody he] at hk
          exact F.type.kind_ne_emptyBody hk.symm
        · exact hdeliver h
        · exact not_holds_of_isEmptyBody he (by simp) hb
    · -- the typed body
      have hiff : (∃ v', F.wire v = F.wire v' ∧ F.Encodable v' ∧ F.Canonical v') ↔ F.Canonical v :=
        ⟨fun ⟨v', hwire, henc', hc⟩ => F.canonical_of_wire v v' henc henc' hwire hc, fun hc => ⟨v, rfl, henc, hc⟩⟩
      rw [hiff, F.agrees.canonical]
      constructor
      · exact fun hc => .inl ⟨_, hv, F.type.kind_wrap v, hc⟩
      · rintro (⟨s, hb, -, hc⟩ | ⟨h, -⟩ | ⟨ps, s, hb, -⟩)
        · rwa [← hb.inj hv]
        · exact absurd h hdeliver
        · exact absurd (hv.inj hb) (F.type.wrap_ne_optionalResponse v _)
    · -- TLVs only: they would have to spell a typed body
      constructor
      · rintro ⟨v, hwire, henc, hc⟩
        exact .inr (.inr ⟨ps, F.type.wrap v, hps, F.type.kind_wrap v, (F.agrees.encodable v).mp henc,
          (F.agrees.canonical v).mp hc, by rw [← F.agrees.wire, ← hwire]⟩)
      · rintro (⟨s, hb, hk, -⟩ | ⟨h, -⟩ | ⟨qs, s, hb, hk, henc, hc, hwire⟩)
        · rw [hb.inj hps] at hk
          exact absurd hk.symm F.type.kind_ne_optionalResponse
        · exact absurd h hdeliver
        · cases hps.inj hb
          obtain ⟨v, rfl⟩ := F.type.exists_wrap s hk
          exact ⟨v, by rw [← hwire, F.agrees.wire], (F.agrees.encodable v).mpr henc, (F.agrees.canonical v).mpr hc⟩
  · obtain ⟨-, hfit, rfl⟩ := (written_error hresp hs).mp hw
    exact iff_of_true ⟨_, (decodeResponse_ok F.toBodySpec _ _ _ _).mpr (.inr ⟨hs, _, rfl, hfit, rfl⟩)⟩ (.inr (.inl hs))

theorem isOk_decodeDeliverSMResp {header : Header} (hid : header.commandID = commandDeliverSMResp) {body : Value}
    {bs : Octets} (hw : Written encodeDeliverSMResp header body bs) :
    (∃ value, decodeDeliverSMResp header bs = .ok value) ↔
      Readable header.commandID header.commandStatus body := by
  have hresp : isResponse header.commandID = true := by rw [hid]; decide
  by_cases hs : header.commandStatus = statusOK
  · have hkind : bodyKind header.commandID = some .deliverSMResp := by rw [hid]; decide
    rw [readable_ok_iff hresp hs hkind (by simp)]
    rcases (encodeDeliverSMResp_appends _ _).mp ((written_ok hs).mp hw) with
      ⟨he, rfl⟩ | ⟨v, hv, henc, rfl⟩ | ⟨ps, hps, hfit, rfl⟩
    · exact iff_of_true ⟨_, (decodeDeliverSMResp_ok _ _ _).mpr
        (.inl ⟨hs, .inr ⟨⟨[], []⟩, rfl, messageIDResp_zero_encodable, rfl⟩⟩)⟩ (.inr (.inl ⟨hid, .inl he⟩))
    · exact iff_of_true ⟨_, (decodeDeliverSMResp_ok _ _ _).mpr (.inl ⟨hs, .inr ⟨v, rfl, henc, rfl⟩⟩)⟩
        (.inl ⟨_, hv, rfl, trivial⟩)
    · constructor
      · rintro ⟨value, h⟩
        rcases (decodeDeliverSMResp_ok _ _ _).mp h with ⟨-, ⟨hnil, -⟩ | ⟨v, hwire, henc, -⟩⟩ | ⟨h, -⟩
        · rw [tlvsWire_eq_nil hnil] at hps
          exact .inr (.inl ⟨hid, .inr hps⟩)
        · exact .inr (.inr ⟨ps, .deliverSMResp v, hps, rfl, henc, trivial, hwire.symm⟩)
        · exact absurd hs h
      · rintro (⟨s, hb, hk, -⟩ | ⟨-, he | hb⟩ | ⟨qs, s, hb, hk, henc, -, hwire⟩)
        · rw [hb.inj hps] at hk
          cases hk
        · exact absurd hps (not_holds_of_isEmptyBody he (by simp))
        · cases hps.inj hb
          exact ⟨_, (decodeDeliverSMResp_ok _ _ _).mpr (.inl ⟨hs, .inl ⟨rfl, rfl⟩⟩)⟩
        · cases hps.inj hb
          obtain ⟨v, rfl⟩ := deliverSMRespType.exists_wrap s hk
          exact ⟨_, (decodeDeliverSMResp_ok _ _ _).mpr (.inl ⟨hs, .inr ⟨v, hwire.symm, henc, rfl⟩⟩)⟩
  · obtain ⟨-, hfit, rfl⟩ := (written_error hresp hs).mp hw
    exact iff_of_true ⟨_, (decodeDeliverSMResp_ok _ _ _).mpr (.inr ⟨hs, _, rfl, hfit, rfl⟩)⟩ (.inr (.inl hs))

theorem CommandFormat.isOk_decode_iff (f : CommandFormat) (header : Header)
    (hresp : Protocol.isResponse header.commandID = f.isResponse) (hkind : bodyKind header.commandID = some f.kind)
    (hdeliver : header.commandID = commandDeliverSMResp ↔ f.isDeliverResponse = true)
    (hreq : Protocol.isResponse header.commandID = false → header.commandStatus = statusOK) {body : Value} {bs : Octets}
    (hw : Written f.encode header body bs) :
    (∃ value, f.decode header bs = .ok value) ↔ Readable header.commandID header.commandStatus body := by
  cases f with
  | emptyRequest =>
    obtain ⟨-, rfl⟩ := (encodeEmpty_appends _ _).mp ((written_request hresp).mp hw)
    exact iff_of_true ⟨_, (decodeRequestEmpty_ok _ _ _).mpr ⟨hreq hresp, rfl, rfl⟩⟩ (.inl hresp)
  | request F =>
    obtain ⟨v, -, henc, rfl⟩ := (encodeRequest_appends F.toBodySpec _ _).mp ((written_request hresp).mp hw)
    obtain ⟨v', hwire, hv'⟩ := F.canonical v henc
    exact iff_of_true ⟨_, (decodeRequest_ok F.toBodySpec _ _ _).mpr ⟨hreq hresp, v', hwire.symm, hv', rfl⟩⟩
      (.inl hresp)
  | response F =>
    refine isOk_decode_response F hresp hkind ?_ hw
    intro h
    cases hdeliver.mp h
  | deliverResponse => exact isOk_decodeDeliverSMResp (hdeliver.mpr rfl) hw
  | emptyResponse =>
    refine iff_of_true ?_ (.inr (.inr (.inl hkind)))
    by_cases hs : header.commandStatus = statusOK
    · rcases (encodeResponseEmpty_appends _ _).mp ((written_ok hs).mp hw) with ⟨-, rfl⟩ | ⟨ps, -, hfit, rfl⟩
      · exact ⟨_, (decodeResponseEmpty_ok header _ _).mpr ⟨[], rfl, fun p hp => absurd hp List.not_mem_nil, rfl⟩⟩
      · exact ⟨_, (decodeResponseEmpty_ok header _ _).mpr ⟨ps, rfl, hfit, rfl⟩⟩
    · obtain ⟨-, hfit, rfl⟩ := (written_error hresp hs).mp hw
      exact ⟨_, (decodeResponseEmpty_ok header _ _).mpr ⟨_, rfl, hfit, rfl⟩⟩

/-- **Which written frames are read.** A frame that `encodePDU` wrote for a registered command is accepted by
`decodePDU` exactly when its inputs are `Readable`. -/
theorem decodePDU_encodePDU_isOk_iff {r : Registry} (hr : r.IsStandard) {header : Header}
    (hknown : r.command header.commandID ≠ none)
    (hreq : isResponse header.commandID = false → header.commandStatus = statusOK) {body : Value} {frame : Octets}
    (h : encodePDU r [] header body = .returned (frame, none)) (hlen : frame.length < 2 ^ 32) :
    (∃ pdu, decodePDU r frame = .ok pdu) ↔ Readable header.commandID header.commandStatus body := by
  obtain ⟨d, hd⟩ := Option.ne_none_iff_exists'.mp hknown
  obtain ⟨hid, f, hf⟩ := exists_format hr hd
  obtain ⟨bs, hw, -, hframe⟩ := (encodePDU_lib hd hf.encode [] body frame).mp h
  obtain rfl : frame = frameOf header bs := hframe
  rw [length_frameOf] at hlen
  have hbody : (∃ pdu, decodePDU r (frameOf header bs) = .ok pdu) ↔
      ∃ value, f.decode (withLength header bs) bs = .ok value := by
    simp only [decodePDU_frameOf r header bs _ hlen, decodeBodyBytes_eq (withLength header bs) hd hf]
    exact ⟨fun ⟨pdu, _, h⟩ => ⟨_, h⟩, fun ⟨value, h⟩ => ⟨⟨_, value⟩, rfl, h⟩⟩
  rw [hbody]
  exact f.isOk_decode_iff (withLength header bs) (hid ▸ hf.isResponse) (hid ▸ hf.kind) (hid ▸ hf.deliver) hreq hw

theorem decodePDU_encodePDU_isOk_iff_submitSMResp :
    (∃ pdu, decodePDU (smpp34Registry .strict) [0, 0, 0, 16, 0x80, 0, 0, 4, 0, 0, 0, 0, 0, 0, 0, 1] = .ok pdu) ↔
      Readable commandSubmitSMResp statusOK .nil :=
  @decodePDU_encodePDU_isOk_iff _ (.smpp34 .strict (newSMPP34Registry_ok _))
    { commandID := commandSubmitSMResp, commandStatus := statusOK, sequenceNumber := 1 } (fun h => by cases h)
    (fun _ => rfl) .nil _ rfl (by decide)

/-- A submit_sm_resp of status 0 without a body is written as a bare header, which the decoder refuses as fatal. -/
theorem decodePDU_encodePDU_submitSMResp_nil :
    encodePDU (smpp34Registry .strict) []
        { commandID := commandSubmitSMResp, commandStatus := statusOK, sequenceNumber := 1 } .nil =
      .returned ([0, 0, 0, 16, 0x80, 0, 0, 4, 0, 0, 0, 0, 0, 0, 0, 1], none) ∧
    decodePDU (smpp34Registry .strict) [0, 0, 0, 16, 0x80, 0, 0, 4, 0, 0, 0, 0, 0, 0, 0, 1] =
      .error (.fatal { kind := .invalidCString, reason := "C-Octet String has no room for terminator" }) :=
  ⟨rfl, rfl⟩

end GoSmpp.Codec
