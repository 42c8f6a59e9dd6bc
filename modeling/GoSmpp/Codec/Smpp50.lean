import GoSmpp.Codec.Smpp34

/-!
# Package `codec`: the SMPP 5.0 bodies

The bodies of `codec/smpp50.go`, laid out as in `Codec.Smpp34`: broadcast_sm, query_broadcast_sm, cancel_broadcast_sm
and the responses of the first two.
-/

namespace GoSmpp.Codec
open Lib Protocol

/-! ## broadcast_sm -/

def broadcastSMType : BodyType BroadcastSM where
  kind := .broadcastSM
  wrap := .broadcastSM
  get | .broadcastSM v => some v | _ => none

def readBroadcastSM : Read BroadcastSM := do
  let serviceType ← readCString maxServiceTypeLen
  let sourceAddrTON ← readUint8
  let sourceAddrNPI ← readUint8
  let sourceAddr ← readCString maxAddressLen
  let messageID ← readCString maxMessageIDLen
  let priorityFlag ← readUint8
  let scheduleDeliveryTime ← readCString maxTimeFieldLen
  let validityPeriod ← readCString maxTimeFieldLen
  let replaceIfPresentFlag ← readUint8
  let dataCoding ← readUint8
  let smDefaultMsgID ← readUint8
  let optional ← optional
  return { serviceType, sourceAddrTON, sourceAddrNPI, sourceAddr, messageID, priorityFlag, scheduleDeliveryTime,
           validityPeriod, replaceIfPresentFlag, dataCoding, smDefaultMsgID, optional }

def appendBroadcastSM (v : BroadcastSM) : Append Unit := do
  appendCString v.serviceType maxServiceTypeLen
  .append [v.sourceAddrTON, v.sourceAddrNPI]
  appendCString v.sourceAddr maxAddressLen
  appendCString v.messageID maxMessageIDLen
  .append [v.priorityFlag]
  appendCString v.scheduleDeliveryTime maxTimeFieldLen
  appendCString v.validityPeriod maxTimeFieldLen
  .append [v.replaceIfPresentFlag, v.dataCoding, v.smDefaultMsgID]
  appendOptional v.optional

def BroadcastSM.wire (v : BroadcastSM) : Octets :=
  v.serviceType ++ 0 :: v.sourceAddrTON :: v.sourceAddrNPI :: (v.sourceAddr ++ 0 ::
    (v.messageID ++ 0 :: v.priorityFlag :: (v.scheduleDeliveryTime ++ 0 :: (v.validityPeriod ++ 0 ::
      v.replaceIfPresentFlag :: v.dataCoding :: v.smDefaultMsgID :: tlvsWire v.optional))))

def BroadcastSM.Encodable (v : BroadcastSM) : Prop :=
  CString maxServiceTypeLen v.serviceType ∧ CString maxAddressLen v.sourceAddr ∧
    CString maxMessageIDLen v.messageID ∧ CString maxTimeFieldLen v.scheduleDeliveryTime ∧
    CString maxTimeFieldLen v.validityPeriod ∧ TLVsFit v.optional

theorem readBroadcastSM_ok (s : Octets) (v : BroadcastSM) (r : Octets) :
    readBroadcastSM s = .ok (v, r) ↔ (s = BroadcastSM.wire v ∧ r = []) ∧ BroadcastSM.Encodable v := by
  simp only [readBroadcastSM, Reader.bind_ok, readCString_ok, readUint8_ok, optional_ok, Reader.pure_ok]
  constructor
  · rintro ⟨_, _, ⟨rfl, h1⟩, _, _, rfl, _, _, rfl, _, _, ⟨rfl, h2⟩, _, _, ⟨rfl, h3⟩, h⟩
    obtain ⟨_, _, rfl, _, _, ⟨rfl, h4⟩, _, _, ⟨rfl, h5⟩, h⟩ := h
    obtain ⟨_, _, rfl, _, _, rfl, _, _, rfl, _, _, ⟨⟨rfl, rfl⟩, h6⟩, rfl, rfl⟩ := h
    exact ⟨⟨rfl, rfl⟩, h1, h2, h3, h4, h5, h6⟩
  · rintro ⟨⟨rfl, rfl⟩, h1, h2, h3, h4, h5, h6⟩
    exact ⟨_, _, ⟨rfl, h1⟩, _, _, rfl, _, _, rfl, _, _, ⟨rfl, h2⟩, _, _, ⟨rfl, h3⟩, _, _, rfl, _, _, ⟨rfl, h4⟩, _, _,
      ⟨rfl, h5⟩, _, _, rfl, _, _, rfl, _, _, rfl, _, _, ⟨⟨rfl, rfl⟩, h6⟩, rfl, rfl⟩

theorem appendBroadcastSM_writes (v : BroadcastSM) :
    Encodes (appendBroadcastSM v) (BroadcastSM.Encodable v) (BroadcastSM.wire v) := by
  refine ((appendCString_writes _ _).seq ((Writes.append _).seq ((appendCString_writes _ _).seq
    ((appendCString_writes _ _).seq ((Writes.append _).seq ((appendCString_writes _ _).seq
    ((appendCString_writes _ _).seq ((Writes.append _).seq (appendOptional_writes _))))))))).congr ?_ ?_
  · simp only [BroadcastSM.Encodable, true_and]
  · simp [BroadcastSM.wire]

def broadcastSMSpec : BodySpec BroadcastSM where
  type := broadcastSMType
  read _ := readBroadcastSM
  append := appendBroadcastSM
  wire := BroadcastSM.wire
  Encodable := BroadcastSM.Encodable
  Canonical _ := True
  read_ok _ s v r := by rw [readBroadcastSM_ok, and_true]
  append_writes := appendBroadcastSM_writes

def decodeBroadcastSM : Header → Octets → Except Err Value := decodeRequest broadcastSMType fun _ => readBroadcastSM

def encodeBroadcastSM : Value → Append Unit := encodeRequest broadcastSMType appendBroadcastSM

def broadcastSMRespType : BodyType MessageIDResp where
  kind := .broadcastSMResp
  wrap := .broadcastSMResp
  get | .broadcastSMResp v => some v | _ => none

def decodeBroadcastSMResp : Header → Octets → Except Err Value :=
  decodeResponse broadcastSMRespType ⟨[], []⟩ readMessageIDResp

def encodeBroadcastSMResp : Value → Append Unit := encodeResponse broadcastSMRespType appendMessageIDResp

/-! ## query_broadcast_sm -/

def queryBroadcastSMType : BodyType QueryBroadcastSM where
  kind := .queryBroadcastSM
  wrap := .queryBroadcastSM
  get | .queryBroadcastSM v => some v | _ => none

def readQueryBroadcastSM : Read QueryBroadcastSM := do
  let messageID ← readCString maxMessageIDLen
  let sourceAddrTON ← readUint8
  let sourceAddrNPI ← readUint8
  let sourceAddr ← readCString maxAddressLen
  let optional ← optional
  return { messageID, sourceAddrTON, sourceAddrNPI, sourceAddr, optional }

def appendQueryBroadcastSM (v : QueryBroadcastSM) : Append Unit := do
  appendCString v.messageID maxMessageIDLen
  .append [v.sourceAddrTON, v.sourceAddrNPI]
  appendCString v.sourceAddr maxAddressLen
  appendOptional v.optional

def QueryBroadcastSM.wire (v : QueryBroadcastSM) : Octets :=
  v.messageID ++ 0 :: v.sourceAddrTON :: v.sourceAddrNPI :: (v.sourceAddr ++ 0 :: tlvsWire v.optional)

def QueryBroadcastSM.Encodable (v : QueryBroadcastSM) : Prop :=
  CString maxMessageIDLen v.messageID ∧ CString maxAddressLen v.sourceAddr ∧ TLVsFit v.optional

theorem readQueryBroadcastSM_ok (s : Octets) (v : QueryBroadcastSM) (r : Octets) :
    readQueryBroadcastSM s = .ok (v, r) ↔ (s = QueryBroadcastSM.wire v ∧ r = []) ∧ QueryBroadcastSM.Encodable v := by
  simp only [readQueryBroadcastSM, Reader.bind_ok, readCString_ok, readUint8_ok, optional_ok, Reader.pure_ok]
  constructor
  · rintro ⟨_, _, ⟨rfl, h1⟩, _, _, rfl, _, _, rfl, _, _, ⟨rfl, h2⟩, _, _, ⟨⟨rfl, rfl⟩, h3⟩, rfl, rfl⟩
    exact ⟨⟨rfl, rfl⟩, h1, h2, h3⟩
  · rintro ⟨⟨rfl, rfl⟩, h1, h2, h3⟩
    exact ⟨_, _, ⟨rfl, h1⟩, _, _, rfl, _, _, rfl, _, _, ⟨rfl, h2⟩, _, _, ⟨⟨rfl, rfl⟩, h3⟩, rfl, rfl⟩

theorem appendQueryBroadcastSM_writes (v : QueryBroadcastSM) :
    Encodes (appendQueryBroadcastSM v) (QueryBroadcastSM.Encodable v) (QueryBroadcastSM.wire v) := by
  refine ((appendCString_writes _ _).seq ((Writes.append _).seq ((appendCString_writes _ _).seq
    (appendOptional_writes _)))).congr ?_ ?_
  · simp only [QueryBroadcastSM.Encodable, true_and]
  · simp [QueryBroadcastSM.wire]

def queryBroadcastSMSpec : BodySpec QueryBroadcastSM where
  type := queryBroadcastSMType
  read _ := readQueryBroadcastSM
  append := appendQueryBroadcastSM
  wire := QueryBroadcastSM.wire
  Encodable := QueryBroadcastSM.Encodable
  Canonical _ := True
  read_ok _ s v r := by rw [readQueryBroadcastSM_ok, and_true]
  append_writes := appendQueryBroadcastSM_writes

def decodeQueryBroadcastSM : Header → Octets → Except Err Value :=
  decodeRequest queryBroadcastSMType fun _ => readQueryBroadcastSM

def encodeQueryBroadcastSM : Value → Append Unit := encodeRequest queryBroadcastSMType appendQueryBroadcastSM

def queryBroadcastSMRespType : BodyType MessageIDResp where
  kind := .queryBroadcastSMResp
  wrap := .queryBroadcastSMResp
  get | .queryBroadcastSMResp v => some v | _ => none

def decodeQueryBroadcastSMResp : Header → Octets → Except Err Value :=
  decodeResponse queryBroadcastSMRespType ⟨[], []⟩ readMessageIDResp

def encodeQueryBroadcastSMResp : Value → Append Unit := encodeResponse queryBroadcastSMRespType appendMessageIDResp

/-! ## cancel_broadcast_sm -/

def cancelBroadcastSMType : BodyType CancelBroadcastSM where
  kind := .cancelBroadcastSM
  wrap := .cancelBroadcastSM
  get | .cancelBroadcastSM v => some v | _ => none

def readCancelBroadcastSM : Read CancelBroadcastSM := do
  let serviceType ← readCString maxServiceTypeLen
  let messageID ← readCString maxMessageIDLen
  let sourceAddrTON ← readUint8
  let sourceAddrNPI ← readUint8
  let sourceAddr ← readCString maxAddressLen
  let optional ← optional
  return { serviceType, messageID, sourceAddrTON, sourceAddrNPI, sourceAddr, optional }

def appendCancelBroadcastSM (v : CancelBroadcastSM) : Append Unit := do
  appendCString v.serviceType maxServiceTypeLen
  appendCString v.messageID maxMessageIDLen
  .append [v.sourceAddrTON, v.sourceAddrNPI]
  appendCString v.sourceAddr maxAddressLen
  appendOptional v.optional

def CancelBroadcastSM.wire (v : CancelBroadcastSM) : Octets :=
  v.serviceType ++ 0 :: (v.messageID ++ 0 :: v.sourceAddrTON :: v.sourceAddrNPI ::
    (v.sourceAddr ++ 0 :: tlvsWire v.optional))

def CancelBroadcastSM.Encodable (v : CancelBroadcastSM) : Prop :=
  CString maxServiceTypeLen v.serviceType ∧ CString maxMessageIDLen v.messageID ∧
    CString maxAddressLen v.sourceAddr ∧ TLVsFit v.optional

theorem readCancelBroadcastSM_ok (s : Octets) (v : CancelBroadcastSM) (r : Octets) :
    readCancelBroadcastSM s = .ok (v, r) ↔
      (s = CancelBroadcastSM.wire v ∧ r = []) ∧ CancelBroadcastSM.Encodable v := by
  simp only [readCancelBroadcastSM, Reader.bind_ok, readCString_ok, readUint8_ok, optional_ok, Reader.pure_ok]
  constructor
  · rintro ⟨_, _, ⟨rfl, h1⟩, _, _, ⟨rfl, h2⟩, _, _, rfl, _, _, rfl, _, _, ⟨rfl, h3⟩, h⟩
    obtain ⟨_, _, ⟨⟨rfl, rfl⟩, h4⟩, rfl, rfl⟩ := h
    exact ⟨⟨rfl, rfl⟩, h1, h2, h3, h4⟩
  · rintro ⟨⟨rfl, rfl⟩, h1, h2, h3, h4⟩
    exact ⟨_, _, ⟨rfl, h1⟩, _, _, ⟨rfl, h2⟩, _, _, rfl, _, _, rfl, _, _, ⟨rfl, h3⟩, _, _, ⟨⟨rfl, rfl⟩, h4⟩, rfl, rfl⟩

theorem appendCancelBroadcastSM_writes (v : CancelBroadcastSM) :
    Encodes (appendCancelBroadcastSM v) (CancelBroadcastSM.Encodable v) (CancelBroadcastSM.wire v) := by
  refine ((appendCString_writes _ _).seq ((appendCString_writes _ _).seq ((Writes.append _).seq
    ((appendCString_writes _ _).seq (appendOptional_writes _))))).congr ?_ ?_
  · simp only [CancelBroadcastSM.Encodable, true_and]
  · simp [CancelBroadcastSM.wire]

def cancelBroadcastSMSpec : BodySpec CancelBroadcastSM where
  type := cancelBroadcastSMType
  read _ := readCancelBroadcastSM
  append := appendCancelBroadcastSM
  wire := CancelBroadcastSM.wire
  Encodable := CancelBroadcastSM.Encodable
  Canonical _ := True
  read_ok _ s v r := by rw [readCancelBroadcastSM_ok, and_true]
  append_writes := appendCancelBroadcastSM_writes

def decodeCancelBroadcastSM : Header → Octets → Except Err Value :=
  decodeRequest cancelBroadcastSMType fun _ => readCancelBroadcastSM

def encodeCancelBroadcastSM : Value → Append Unit := encodeRequest cancelBroadcastSMType appendCancelBroadcastSM

end GoSmpp.Codec
