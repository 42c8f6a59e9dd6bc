import GoSmpp.Codec.Body

/-!
# Package `codec`: bind, submit_sm and deliver_sm

The bodies of `codec/smpp34.go`. For each body type: its reader and its appender as the source has them, its wire form
(`wire`), the values the encoder accepts (`Encodable`), and the `BodySpec` that ties the four together. The command
decoders and encoders are the shapes of `Codec.Body` at these.

The codec of deliver_sm_resp differs from the common response shape: the encoder writes an empty message_id for a missing
body, and the decoder accepts a header-only success response.
-/

namespace GoSmpp.Codec
open Lib Protocol

def maxSystemIDLen : Nat := 16
def maxPasswordLen : Nat := 9
def maxSystemTypeLen : Nat := 13
def maxAddressRangeLen : Nat := 41
def maxServiceTypeLen : Nat := 6
def maxAddressLen : Nat := 21
def maxTimeFieldLen : Nat := 17
def maxMessageIDLen : Nat := 65
def maxShortMessageLength : Nat := 254

/-! ## Bind requests -/

def bindRequestType : BodyType BindRequest where
  kind := .bindRequest
  wrap := .bindRequest
  get | .bindRequest v => some v | _ => none

def readBindRequest : Read BindRequest := do
  let systemID ← readCString maxSystemIDLen
  let password ← readCString maxPasswordLen
  let systemType ← readCString maxSystemTypeLen
  let interfaceVersion ← readUint8
  let ton ← readUint8
  let npi ← readUint8
  let addressRange ← readCString maxAddressRangeLen
  requireDone
  return { systemID, password, systemType, interfaceVersion, addressTON := ton, addressNPI := npi, addressRange }

def appendBindRequest (v : BindRequest) : Append Unit := do
  appendCString v.systemID maxSystemIDLen
  appendCString v.password maxPasswordLen
  appendCString v.systemType maxSystemTypeLen
  .append [v.interfaceVersion, v.addressTON, v.addressNPI]
  appendCString v.addressRange maxAddressRangeLen

def BindRequest.wire (v : BindRequest) : Octets :=
  v.systemID ++ 0 :: (v.password ++ 0 :: (v.systemType ++ 0 ::
    v.interfaceVersion :: v.addressTON :: v.addressNPI :: (v.addressRange ++ 0 :: [])))

def BindRequest.Encodable (v : BindRequest) : Prop :=
  CString maxSystemIDLen v.systemID ∧ CString maxPasswordLen v.password ∧ CString maxSystemTypeLen v.systemType ∧
    CString maxAddressRangeLen v.addressRange

theorem readBindRequest_ok (s : Octets) (v : BindRequest) (r : Octets) :
    readBindRequest s = .ok (v, r) ↔ (s = BindRequest.wire v ∧ r = []) ∧ BindRequest.Encodable v := by
  simp only [readBindRequest, Reader.bind_ok, readCString_ok, readUint8_ok, requireDone_ok, Reader.pure_ok]
  constructor
  · rintro ⟨systemID, _, ⟨rfl, h1⟩, password, _, ⟨rfl, h2⟩, systemType, _, ⟨rfl, h3⟩, iv, _, rfl, ton, _, rfl,
      npi, _, rfl, range, _, ⟨rfl, h4⟩, _, _, ⟨rfl, rfl⟩, rfl, rfl⟩
    exact ⟨⟨rfl, rfl⟩, h1, h2, h3, h4⟩
  · rintro ⟨⟨rfl, rfl⟩, h1, h2, h3, h4⟩
    exact ⟨_, _, ⟨rfl, h1⟩, _, _, ⟨rfl, h2⟩, _, _, ⟨rfl, h3⟩, _, _, rfl, _, _, rfl, _, _, rfl, _, _, ⟨rfl, h4⟩,
      (), _, ⟨rfl, rfl⟩, rfl, rfl⟩

theorem appendBindRequest_writes (v : BindRequest) :
    Encodes (appendBindRequest v) (BindRequest.Encodable v) (BindRequest.wire v) := by
  refine ((appendCString_writes _ _).seq ((appendCString_writes _ _).seq ((appendCString_writes _ _).seq
    ((Writes.append _).seq (appendCString_writes _ _))))).congr ?_ ?_
  · simp only [BindRequest.Encodable, true_and]
  · simp [BindRequest.wire]

def bindRequestSpec : BodySpec BindRequest where
  type := bindRequestType
  read _ := readBindRequest
  append := appendBindRequest
  wire := BindRequest.wire
  Encodable := BindRequest.Encodable
  Canonical _ := True
  read_ok _ s v r := by rw [readBindRequest_ok, and_true]
  append_writes := appendBindRequest_writes

def decodeBindRequest : Header → Octets → Except Err Value := decodeRequest bindRequestType fun _ => readBindRequest

def encodeBindRequest : Value → Append Unit := encodeRequest bindRequestType appendBindRequest

/-! ## Bind responses -/

def bindResponseType : BodyType BindResponse where
  kind := .bindResponse
  wrap := .bindResponse
  get | .bindResponse v => some v | _ => none

/-- The check `decodeBindResponse` makes on each optional parameter. -/
def scInterfaceVersionOK (p : OptionalParameter) : Bool :=
  !(p.tag == tlvTagSCInterfaceVersion && p.value.length != 1)

def scInterfaceVersionError : Err :=
  .semanticBy { status := statusInvalidParameterLength, reason := "sc_interface_version length must be 1" }
    (.sentinel .invalidPDUValue)

def readBindResponse : Read BindResponse := do
  let systemID ← readCString maxSystemIDLen
  let optional ← optional
  .require (∀ parameter ∈ optional, scInterfaceVersionOK parameter) scInterfaceVersionError
  return { systemID, optional }

def appendBindResponse (v : BindResponse) : Append Unit := do
  appendCString v.systemID maxSystemIDLen
  appendOptional v.optional

def BindResponse.wire (v : BindResponse) : Octets := v.systemID ++ 0 :: tlvsWire v.optional

def BindResponse.Encodable (v : BindResponse) : Prop := CString maxSystemIDLen v.systemID ∧ TLVsFit v.optional

/-- Every sc_interface_version is one octet long. -/
def BindResponse.Canonical (v : BindResponse) : Prop := ∀ p ∈ v.optional, scInterfaceVersionOK p

theorem readBindResponse_ok (s : Octets) (v : BindResponse) (r : Octets) :
    readBindResponse s = .ok (v, r) ↔
      (s = BindResponse.wire v ∧ r = []) ∧ BindResponse.Encodable v ∧ BindResponse.Canonical v := by
  simp only [readBindResponse, Reader.bind_ok, readCString_ok, optional_ok, Reader.require_ok, Reader.pure_ok]
  constructor
  · rintro ⟨systemID, _, ⟨rfl, h1⟩, ps, _, ⟨⟨rfl, rfl⟩, h2⟩, _, _, ⟨hsc, rfl⟩, rfl, rfl⟩
    exact ⟨⟨rfl, rfl⟩, ⟨h1, h2⟩, hsc⟩
  · rintro ⟨⟨rfl, rfl⟩, ⟨h1, h2⟩, hsc⟩
    exact ⟨_, _, ⟨rfl, h1⟩, _, _, ⟨⟨rfl, rfl⟩, h2⟩, (), _, ⟨hsc, rfl⟩, rfl, rfl⟩

theorem appendBindResponse_writes (v : BindResponse) :
    Encodes (appendBindResponse v) (BindResponse.Encodable v) (BindResponse.wire v) := by
  refine ((appendCString_writes _ _).seq (appendOptional_writes _)).congr Iff.rfl ?_
  simp [BindResponse.wire]

def bindResponseSpec : BodySpec BindResponse where
  type := bindResponseType
  read _ := readBindResponse
  append := appendBindResponse
  wire := BindResponse.wire
  Encodable := BindResponse.Encodable
  Canonical := BindResponse.Canonical
  read_ok _ := readBindResponse_ok
  append_writes := appendBindResponse_writes

def decodeBindResponse : Header → Octets → Except Err Value := decodeResponse bindResponseType ⟨[], []⟩ readBindResponse

def encodeBindResponse : Value → Append Unit := encodeResponse bindResponseType appendBindResponse

/-! ## Short messages -/

def smLengthError : Err :=
  .semanticBy { status := statusInvalidMessageLength, reason := "sm_length 255 is not allowed in SMPP 3.4" }
    (.sentinel .invalidPDUValue)

def messagePayloadError : Err :=
  .semanticBy { status := statusInvalidOptionalParameterValue,
                reason := "message_payload conflicts with a non-empty short_message" }
    (.sentinel .conflictingMessageData)

def shortMessageTooLong (v : Octets) : Err :=
  .wrapped ("short_message length " ++ toString v.length ++ " exceeds 254") (.sentinel .fieldTooLong)

/-- The condition both directions refuse: data in short_message and in a message_payload TLV. -/
def ConflictingMessageData (optional : List OptionalParameter) (shortMessage : Octets) : Prop :=
  hasNonEmptyMessagePayload optional = true ∧ shortMessage.length ≠ 0

instance (optional : List OptionalParameter) (shortMessage : Octets) :
    Decidable (ConflictingMessageData optional shortMessage) := inferInstanceAs (Decidable (_ ∧ _))

theorem smLength_iff (n : UInt8) (v : Octets) :
    n ≠ 255 ∧ v.length = n.toNat ↔ n = UInt8.ofNat v.length ∧ v.length ≤ maxShortMessageLength := by
  have hn := n.toNat_lt
  have h255 : n ≠ 255 ↔ n.toNat ≠ 255 := by
    rw [ne_eq, ne_eq, ← UInt8.toNat_inj]
    rfl
  rw [h255, maxShortMessageLength]
  constructor
  · rintro ⟨h, hv⟩
    exact ⟨by rw [hv, UInt8.ofNat_toNat], by omega⟩
  · rintro ⟨rfl, hv⟩
    rw [UInt8.toNat_ofNat', Nat.mod_eq_of_lt (by omega)]
    exact ⟨by omega, rfl⟩

/-- `decodeShortMessageBody` after its status check. -/
def readShortMessageBody : Read ShortMessageBody := do
  let serviceType ← readCString maxServiceTypeLen
  let sourceAddrTON ← readUint8
  let sourceAddrNPI ← readUint8
  let sourceAddr ← readCString maxAddressLen
  let destAddrTON ← readUint8
  let destAddrNPI ← readUint8
  let destinationAddr ← readCString maxAddressLen
  let esmClass ← readUint8
  let protocolID ← readUint8
  let priorityFlag ← readUint8
  let scheduleDeliveryTime ← readCString maxTimeFieldLen
  let validityPeriod ← readCString maxTimeFieldLen
  let registeredDelivery ← readUint8
  let replaceIfPresentFlag ← readUint8
  let dataCoding ← readUint8
  let smDefaultMsgID ← readUint8
  let smLength ← readUint8
  .require (smLength ≠ 255) smLengthError
  let shortMessage ← readOctets smLength.toNat
  let optional ← optional
  .require (¬ ConflictingMessageData optional shortMessage) messagePayloadError
  return { serviceType, sourceAddrTON, sourceAddrNPI, sourceAddr, destAddrTON, destAddrNPI, destinationAddr,
           esmClass, protocolID, priorityFlag, scheduleDeliveryTime, validityPeriod, registeredDelivery,
           replaceIfPresentFlag, dataCoding, smDefaultMsgID, shortMessage, optional }

def appendShortMessageBody (v : ShortMessageBody) : Append Unit := do
  .failIf (maxShortMessageLength < v.shortMessage.length) (shortMessageTooLong v.shortMessage)
  .failIf (ConflictingMessageData v.optional v.shortMessage) (.sentinel .conflictingMessageData)
  appendCString v.serviceType maxServiceTypeLen
  .append [v.sourceAddrTON, v.sourceAddrNPI]
  appendCString v.sourceAddr maxAddressLen
  .append [v.destAddrTON, v.destAddrNPI]
  appendCString v.destinationAddr maxAddressLen
  .append [v.esmClass, v.protocolID, v.priorityFlag]
  appendCString v.scheduleDeliveryTime maxTimeFieldLen
  appendCString v.validityPeriod maxTimeFieldLen
  .append [v.registeredDelivery, v.replaceIfPresentFlag, v.dataCoding, v.smDefaultMsgID,
    UInt8.ofNat v.shortMessage.length]
  .append v.shortMessage
  appendOptional v.optional

def ShortMessageBody.wire (v : ShortMessageBody) : Octets :=
  v.serviceType ++ 0 :: v.sourceAddrTON :: v.sourceAddrNPI ::
    (v.sourceAddr ++ 0 :: v.destAddrTON :: v.destAddrNPI ::
      (v.destinationAddr ++ 0 :: v.esmClass :: v.protocolID :: v.priorityFlag ::
        (v.scheduleDeliveryTime ++ 0 ::
          (v.validityPeriod ++ 0 :: v.registeredDelivery :: v.replaceIfPresentFlag :: v.dataCoding ::
            v.smDefaultMsgID :: UInt8.ofNat v.shortMessage.length :: (v.shortMessage ++ tlvsWire v.optional)))))

def ShortMessageBody.Encodable (v : ShortMessageBody) : Prop :=
  v.shortMessage.length ≤ maxShortMessageLength ∧ ¬ ConflictingMessageData v.optional v.shortMessage ∧
    CString maxServiceTypeLen v.serviceType ∧ CString maxAddressLen v.sourceAddr ∧
    CString maxAddressLen v.destinationAddr ∧ CString maxTimeFieldLen v.scheduleDeliveryTime ∧
    CString maxTimeFieldLen v.validityPeriod ∧ TLVsFit v.optional

theorem readShortMessageBody_ok (s : Octets) (v : ShortMessageBody) (r : Octets) :
    readShortMessageBody s = .ok (v, r) ↔ (s = ShortMessageBody.wire v ∧ r = []) ∧ ShortMessageBody.Encodable v := by
  simp only [readShortMessageBody, Reader.bind_ok, readCString_ok, readUint8_ok, Reader.require_ok, readOctets_ok,
    optional_ok, Reader.pure_ok]
  constructor
  · -- field by field: one deep pattern would be slow
    intro h
    obtain ⟨_, _, ⟨rfl, h1⟩, h⟩ := h
    obtain ⟨_, _, rfl, _, _, rfl, _, _, ⟨rfl, h2⟩, h⟩ := h
    obtain ⟨_, _, rfl, _, _, rfl, _, _, ⟨rfl, h3⟩, h⟩ := h
    obtain ⟨_, _, rfl, _, _, rfl, _, _, rfl, h⟩ := h
    obtain ⟨_, _, ⟨rfl, h4⟩, _, _, ⟨rfl, h5⟩, h⟩ := h
    obtain ⟨_, _, rfl, _, _, rfl, _, _, rfl, _, _, rfl, h⟩ := h
    obtain ⟨n, _, rfl, _, _, ⟨hn, rfl⟩, sm, _, ⟨rfl, hsm⟩, h⟩ := h
    obtain ⟨ps, _, ⟨⟨rfl, rfl⟩, h6⟩, _, _, ⟨hc, rfl⟩, rfl, rfl⟩ := h
    obtain ⟨rfl, hlen⟩ := (smLength_iff n sm).mp ⟨hn, hsm⟩
    exact ⟨⟨rfl, rfl⟩, hlen, hc, h1, h2, h3, h4, h5, h6⟩
  · rintro ⟨⟨rfl, rfl⟩, hlen, hc, h1, h2, h3, h4, h5, h6⟩
    obtain ⟨hn, hsm⟩ := (smLength_iff _ v.shortMessage).mpr ⟨rfl, hlen⟩
    exact ⟨_, _, ⟨rfl, h1⟩, _, _, rfl, _, _, rfl, _, _, ⟨rfl, h2⟩, _, _, rfl, _, _, rfl, _, _, ⟨rfl, h3⟩, _, _, rfl,
      _, _, rfl, _, _, rfl, _, _, ⟨rfl, h4⟩, _, _, ⟨rfl, h5⟩, _, _, rfl, _, _, rfl, _, _, rfl, _, _, rfl,
      _, _, rfl, (), _, ⟨hn, rfl⟩, _, _, ⟨rfl, hsm⟩, _, _, ⟨⟨rfl, rfl⟩, h6⟩, (), _, ⟨hc, rfl⟩, rfl, rfl⟩

theorem appendShortMessageBody_writes (v : ShortMessageBody) :
    Encodes (appendShortMessageBody v) (ShortMessageBody.Encodable v) (ShortMessageBody.wire v) := by
  refine ((Writes.failIf _ _).seq ((Writes.failIf _ _).seq ((appendCString_writes _ _).seq ((Writes.append _).seq
    ((appendCString_writes _ _).seq ((Writes.append _).seq ((appendCString_writes _ _).seq ((Writes.append _).seq
    ((appendCString_writes _ _).seq ((appendCString_writes _ _).seq ((Writes.append _).seq ((Writes.append _).seq
    (appendOptional_writes _))))))))))))).congr ?_ ?_
  · simp only [ShortMessageBody.Encodable, true_and, Nat.not_lt]
  · simp [ShortMessageBody.wire]

/-- The specification of the two short-message PDUs, which differ in their type only. -/
def shortMessageSpec (type : BodyType ShortMessageBody) : BodySpec ShortMessageBody where
  type := type
  read _ := readShortMessageBody
  append := appendShortMessageBody
  wire := ShortMessageBody.wire
  Encodable := ShortMessageBody.Encodable
  Canonical _ := True
  read_ok _ s v r := by rw [readShortMessageBody_ok, and_true]
  append_writes := appendShortMessageBody_writes

def submitSMType : BodyType ShortMessageBody where
  kind := .submitSM
  wrap := .submitSM
  get | .submitSM v => some v | _ => none

def deliverSMType : BodyType ShortMessageBody where
  kind := .deliverSM
  wrap := .deliverSM
  get | .deliverSM v => some v | _ => none

def decodeSubmitSM : Header → Octets → Except Err Value := decodeRequest submitSMType fun _ => readShortMessageBody

def encodeSubmitSM : Value → Append Unit := encodeRequest submitSMType appendShortMessageBody

def decodeDeliverSM : Header → Octets → Except Err Value := decodeRequest deliverSMType fun _ => readShortMessageBody

def encodeDeliverSM : Value → Append Unit := encodeRequest deliverSMType appendShortMessageBody

/-! ## Responses with a message_id -/

def readMessageIDResp : Read MessageIDResp := do
  let messageID ← readCString maxMessageIDLen
  let optional ← optional
  return { messageID, optional }

/-- `appendSubmitSMResp`, `appendDataSMResp`, and the same lines in the other three encoders. -/
def appendMessageIDResp (v : MessageIDResp) : Append Unit := do
  appendCString v.messageID maxMessageIDLen
  appendOptional v.optional

def MessageIDResp.wire (v : MessageIDResp) : Octets := v.messageID ++ 0 :: tlvsWire v.optional

def MessageIDResp.Encodable (v : MessageIDResp) : Prop := CString maxMessageIDLen v.messageID ∧ TLVsFit v.optional

theorem readMessageIDResp_ok (s : Octets) (v : MessageIDResp) (r : Octets) :
    readMessageIDResp s = .ok (v, r) ↔ (s = MessageIDResp.wire v ∧ r = []) ∧ MessageIDResp.Encodable v := by
  simp only [readMessageIDResp, Reader.bind_ok, readCString_ok, optional_ok, Reader.pure_ok]
  constructor
  · rintro ⟨_, _, ⟨rfl, h1⟩, _, _, ⟨⟨rfl, rfl⟩, h2⟩, rfl, rfl⟩
    exact ⟨⟨rfl, rfl⟩, h1, h2⟩
  · rintro ⟨⟨rfl, rfl⟩, h1, h2⟩
    exact ⟨_, _, ⟨rfl, h1⟩, _, _, ⟨⟨rfl, rfl⟩, h2⟩, rfl, rfl⟩

theorem readMessageIDResp_fails : Reader.Fails Fatal readMessageIDResp :=
  (readCString_fails _).bind fun _ => optional_fails.bind fun _ => Reader.Fails.pure _

theorem appendMessageIDResp_writes (v : MessageIDResp) :
    Encodes (appendMessageIDResp v) (MessageIDResp.Encodable v) (MessageIDResp.wire v) := by
  refine ((appendCString_writes _ _).seq (appendOptional_writes _)).congr Iff.rfl ?_
  simp [MessageIDResp.wire]

/-- The specification of the five responses that are a message_id and TLVs. -/
def messageIDRespSpec (type : BodyType MessageIDResp) : BodySpec MessageIDResp where
  type := type
  read _ := readMessageIDResp
  append := appendMessageIDResp
  wire := MessageIDResp.wire
  Encodable := MessageIDResp.Encodable
  Canonical _ := True
  read_ok _ s v r := by rw [readMessageIDResp_ok, and_true]
  append_writes := appendMessageIDResp_writes

def submitSMRespType : BodyType MessageIDResp where
  kind := .submitSMResp
  wrap := .submitSMResp
  get | .submitSMResp v => some v | _ => none

def decodeSubmitSMResp : Header → Octets → Except Err Value :=
  decodeResponse submitSMRespType ⟨[], []⟩ readMessageIDResp

def encodeSubmitSMResp : Value → Append Unit := encodeResponse submitSMRespType appendMessageIDResp

/-! ### deliver_sm_resp -/

def deliverSMRespType : BodyType MessageIDResp where
  kind := .deliverSMResp
  wrap := .deliverSMResp
  get | .deliverSMResp v => some v | _ => none

def deliverSMRespSpec : BodySpec MessageIDResp := messageIDRespSpec deliverSMRespType

/-- `decodeDeliverSMResp`: a header-only success response is accepted too. -/
def decodeDeliverSMResp (header : Header) (body : Octets) : Except Err Value :=
  match decodeErrorResponseOptional header body with
  | some (.error e) => .error e
  | some (.ok ps) => .ok (.struct (errorBody (.deliverSMResp ⟨[], []⟩) ps))
  | none =>
    if body.length = 0 then .ok (.struct (.deliverSMResp ⟨[], []⟩))
    else do
      let v ← readMessageIDResp.run' body
      return .struct (.deliverSMResp v)

/-- `encodeDeliverSMResp`: a missing body is written as an empty message_id. -/
def encodeDeliverSMResp : Value → Append Unit :=
  encodeResponseOr (appendMessageIDResp ⟨[], []⟩) deliverSMRespType appendMessageIDResp

theorem decodeDeliverSMResp_ok (header : Header) (body : Octets) (value : Value) :
    decodeDeliverSMResp header body = .ok value ↔
      (header.commandStatus = statusOK ∧
        ((body = [] ∧ value = .struct (.deliverSMResp ⟨[], []⟩)) ∨
          ∃ v, body = MessageIDResp.wire v ∧ MessageIDResp.Encodable v ∧ value = .struct (.deliverSMResp v))) ∨
      (header.commandStatus ≠ statusOK ∧
        ∃ ps, body = tlvsWire ps ∧ TLVsFit ps ∧ value = .struct (errorBody (.deliverSMResp ⟨[], []⟩) ps)) := by
  -- on a body that is not empty the decoder is the common response decoder
  have hcommon := decodeResponse_ok deliverSMRespSpec ⟨[], []⟩ header body value
  have hwire (v : MessageIDResp) : MessageIDResp.wire v ≠ [] := by simp [MessageIDResp.wire]
  by_cases hb : body = []
  · subst hb
    unfold decodeDeliverSMResp
    cases hd : decodeErrorResponseOptional header [] with
    | none =>
      have hs := (decodeErrorResponseOptional_none _ _).mp hd
      simp only [hs, ne_eq, not_true_eq_false, false_and, or_false, true_and]
      constructor
      · intro h
        cases h
        exact .inl rfl
      · rintro (rfl | ⟨v, h, -⟩)
        · rfl
        · exact absurd h.symm (hwire v)
    | some x =>
      have hs : header.commandStatus ≠ statusOK := fun h => by
        rw [(decodeErrorResponseOptional_none header []).mpr h] at hd
        cases hd
      have e : decodeResponse deliverSMRespType ⟨[], []⟩ readMessageIDResp header [] = .ok value ↔ _ := hcommon
      unfold decodeResponse at e
      rw [hd] at e
      simp only [hs, false_and, false_or, ne_eq, not_false_eq_true, true_and] at e ⊢
      cases x <;> exact e
  · have e : decodeDeliverSMResp header body =
        decodeResponse deliverSMRespType ⟨[], []⟩ readMessageIDResp header body := by
      unfold decodeDeliverSMResp decodeResponse
      rw [if_neg (by simpa using hb)]
      rfl
    rw [e]
    refine hcommon.trans ?_
    simp only [hb, false_and, false_or]
    simp only [deliverSMRespSpec, messageIDRespSpec, and_true]
    rfl

theorem messageIDResp_zero_encodable : MessageIDResp.Encodable ⟨[], []⟩ := by
  simp [MessageIDResp.Encodable, CString, TLVsFit]

theorem messageIDResp_zero_encodes : Encodes (appendMessageIDResp ⟨[], []⟩) True [0] :=
  (appendMessageIDResp_writes _).congr (iff_true_intro messageIDResp_zero_encodable) rfl

theorem encodeDeliverSMResp_appends (value : Value) (bs : Octets) :
    (encodeDeliverSMResp value).Appends bs ↔ deliverSMRespSpec.Responds [0] value bs :=
  encodeResponseOr_appends deliverSMRespSpec messageIDResp_zero_encodes value bs

end GoSmpp.Codec
