import GoSmpp.Codec.Smpp34

/-!
# Package `codec`: the other SMPP 3.4 bodies

The bodies of `codec/smpp34_extra.go` but for submit_multi (`Codec.SubmitMulti`), laid out as in `Codec.Smpp34`:
data_sm, query_sm, cancel_sm, replace_sm, alert_notification and outbind, and the responses of the first two.
-/

namespace GoSmpp.Codec
open Lib Protocol

def maxDataAddressLen : Nat := 65

/-! ## data_sm -/

def dataSMType : BodyType DataSM where
  kind := .dataSM
  wrap := .dataSM
  get | .dataSM v => some v | _ => none

def readDataSM : Read DataSM := do
  let serviceType ← readCString maxServiceTypeLen
  let sourceAddrTON ← readUint8
  let sourceAddrNPI ← readUint8
  let sourceAddr ← readCString maxDataAddressLen
  let destAddrTON ← readUint8
  let destAddrNPI ← readUint8
  let destinationAddr ← readCString maxDataAddressLen
  let esmClass ← readUint8
  let registeredDelivery ← readUint8
  let dataCoding ← readUint8
  let optional ← optional
  return { serviceType, sourceAddrTON, sourceAddrNPI, sourceAddr, destAddrTON, destAddrNPI, destinationAddr,
           esmClass, registeredDelivery, dataCoding, optional }

def appendDataSM (v : DataSM) : Append Unit := do
  appendCString v.serviceType maxServiceTypeLen
  .append [v.sourceAddrTON, v.sourceAddrNPI]
  appendCString v.sourceAddr maxDataAddressLen
  .append [v.destAddrTON, v.destAddrNPI]
  appendCString v.destinationAddr maxDataAddressLen
  .append [v.esmClass, v.registeredDelivery, v.dataCoding]
  appendOptional v.optional

def DataSM.wire (v : DataSM) : Octets :=
  v.serviceType ++ 0 :: v.sourceAddrTON :: v.sourceAddrNPI ::
    (v.sourceAddr ++ 0 :: v.destAddrTON :: v.destAddrNPI ::
      (v.destinationAddr ++ 0 :: v.esmClass :: v.registeredDelivery :: v.dataCoding :: tlvsWire v.optional))

def DataSM.Encodable (v : DataSM) : Prop :=
  CString maxServiceTypeLen v.serviceType ∧ CString maxDataAddressLen v.sourceAddr ∧
    CString maxDataAddressLen v.destinationAddr ∧ TLVsFit v.optional

theorem readDataSM_ok (s : Octets) (v : DataSM) (r : Octets) :
    readDataSM s = .ok (v, r) ↔ (s = DataSM.wire v ∧ r = []) ∧ DataSM.Encodable v := by
  simp only [readDataSM, Reader.bind_ok, readCString_ok, readUint8_ok, optional_ok, Reader.pure_ok]
  constructor
  · rintro ⟨_, _, ⟨rfl, h1⟩, _, _, rfl, _, _, rfl, _, _, ⟨rfl, h2⟩, h⟩
    obtain ⟨_, _, rfl, _, _, rfl, _, _, ⟨rfl, h3⟩, h⟩ := h
    obtain ⟨_, _, rfl, _, _, rfl, _, _, rfl, _, _, ⟨⟨rfl, rfl⟩, h4⟩, rfl, rfl⟩ := h
    exact ⟨⟨rfl, rfl⟩, h1, h2, h3, h4⟩
  · rintro ⟨⟨rfl, rfl⟩, h1, h2, h3, h4⟩
    exact ⟨_, _, ⟨rfl, h1⟩, _, _, rfl, _, _, rfl, _, _, ⟨rfl, h2⟩, _, _, rfl, _, _, rfl, _, _, ⟨rfl, h3⟩, _, _, rfl,
      _, _, rfl, _, _, rfl, _, _, ⟨⟨rfl, rfl⟩, h4⟩, rfl, rfl⟩

theorem appendDataSM_writes (v : DataSM) : Encodes (appendDataSM v) (DataSM.Encodable v) (DataSM.wire v) := by
  refine ((appendCString_writes _ _).seq ((Writes.append _).seq ((appendCString_writes _ _).seq
    ((Writes.append _).seq ((appendCString_writes _ _).seq ((Writes.append _).seq
    (appendOptional_writes _))))))).congr ?_ ?_
  · simp only [DataSM.Encodable, true_and]
  · simp [DataSM.wire]

def dataSMSpec : BodySpec DataSM where
  type := dataSMType
  read _ := readDataSM
  append := appendDataSM
  wire := DataSM.wire
  Encodable := DataSM.Encodable
  Canonical _ := True
  read_ok _ s v r := by rw [readDataSM_ok, and_true]
  append_writes := appendDataSM_writes

def decodeDataSM : Header → Octets → Except Err Value := decodeRequest dataSMType fun _ => readDataSM

def encodeDataSM : Value → Append Unit := encodeRequest dataSMType appendDataSM

def dataSMRespType : BodyType MessageIDResp where
  kind := .dataSMResp
  wrap := .dataSMResp
  get | .dataSMResp v => some v | _ => none

def decodeDataSMResp : Header → Octets → Except Err Value := decodeResponse dataSMRespType ⟨[], []⟩ readMessageIDResp

def encodeDataSMResp : Value → Append Unit := encodeResponse dataSMRespType appendMessageIDResp

/-! ## query_sm -/

def querySMType : BodyType QuerySM where
  kind := .querySM
  wrap := .querySM
  get | .querySM v => some v | _ => none

def readQuerySM : Read QuerySM := do
  let messageID ← readCString maxMessageIDLen
  let sourceAddrTON ← readUint8
  let sourceAddrNPI ← readUint8
  let sourceAddr ← readCString maxAddressLen
  requireDone
  return { messageID, sourceAddrTON, sourceAddrNPI, sourceAddr }

def appendQuerySM (v : QuerySM) : Append Unit := do
  appendCString v.messageID maxMessageIDLen
  .append [v.sourceAddrTON, v.sourceAddrNPI]
  appendCString v.sourceAddr maxAddressLen

def QuerySM.wire (v : QuerySM) : Octets :=
  v.messageID ++ 0 :: v.sourceAddrTON :: v.sourceAddrNPI :: (v.sourceAddr ++ 0 :: [])

def QuerySM.Encodable (v : QuerySM) : Prop :=
  CString maxMessageIDLen v.messageID ∧ CString maxAddressLen v.sourceAddr

theorem readQuerySM_ok (s : Octets) (v : QuerySM) (r : Octets) :
    readQuerySM s = .ok (v, r) ↔ (s = QuerySM.wire v ∧ r = []) ∧ QuerySM.Encodable v := by
  simp only [readQuerySM, Reader.bind_ok, readCString_ok, readUint8_ok, requireDone_ok, Reader.pure_ok]
  constructor
  · rintro ⟨_, _, ⟨rfl, h1⟩, _, _, rfl, _, _, rfl, _, _, ⟨rfl, h2⟩, _, _, ⟨rfl, rfl⟩, rfl, rfl⟩
    exact ⟨⟨rfl, rfl⟩, h1, h2⟩
  · rintro ⟨⟨rfl, rfl⟩, h1, h2⟩
    exact ⟨_, _, ⟨rfl, h1⟩, _, _, rfl, _, _, rfl, _, _, ⟨rfl, h2⟩, (), _, ⟨rfl, rfl⟩, rfl, rfl⟩

theorem appendQuerySM_writes (v : QuerySM) : Encodes (appendQuerySM v) (QuerySM.Encodable v) (QuerySM.wire v) := by
  refine ((appendCString_writes _ _).seq ((Writes.append _).seq (appendCString_writes _ _))).congr ?_ ?_
  · simp only [QuerySM.Encodable, true_and]
  · simp [QuerySM.wire]

def querySMSpec : BodySpec QuerySM where
  type := querySMType
  read _ := readQuerySM
  append := appendQuerySM
  wire := QuerySM.wire
  Encodable := QuerySM.Encodable
  Canonical _ := True
  read_ok _ s v r := by rw [readQuerySM_ok, and_true]
  append_writes := appendQuerySM_writes

def decodeQuerySM : Header → Octets → Except Err Value := decodeRequest querySMType fun _ => readQuerySM

def encodeQuerySM : Value → Append Unit := encodeRequest querySMType appendQuerySM

def querySMRespType : BodyType QuerySMResp where
  kind := .querySMResp
  wrap := .querySMResp
  get | .querySMResp v => some v | _ => none

def readQuerySMResp : Read QuerySMResp := do
  let messageID ← readCString maxMessageIDLen
  let finalDate ← readCString maxTimeFieldLen
  let messageState ← readUint8
  let errorCode ← readUint8
  let optional ← optional
  return { messageID, finalDate, messageState, errorCode, optional }

def appendQuerySMResp (v : QuerySMResp) : Append Unit := do
  appendCString v.messageID maxMessageIDLen
  appendCString v.finalDate maxTimeFieldLen
  .append [v.messageState, v.errorCode]
  appendOptional v.optional

def QuerySMResp.wire (v : QuerySMResp) : Octets :=
  v.messageID ++ 0 :: (v.finalDate ++ 0 :: v.messageState :: v.errorCode :: tlvsWire v.optional)

def QuerySMResp.Encodable (v : QuerySMResp) : Prop :=
  CString maxMessageIDLen v.messageID ∧ CString maxTimeFieldLen v.finalDate ∧ TLVsFit v.optional

theorem readQuerySMResp_ok (s : Octets) (v : QuerySMResp) (r : Octets) :
    readQuerySMResp s = .ok (v, r) ↔ (s = QuerySMResp.wire v ∧ r = []) ∧ QuerySMResp.Encodable v := by
  simp only [readQuerySMResp, Reader.bind_ok, readCString_ok, readUint8_ok, optional_ok, Reader.pure_ok]
  constructor
  · rintro ⟨_, _, ⟨rfl, h1⟩, _, _, ⟨rfl, h2⟩, _, _, rfl, _, _, rfl, _, _, ⟨⟨rfl, rfl⟩, h3⟩, rfl, rfl⟩
    exact ⟨⟨rfl, rfl⟩, h1, h2, h3⟩
  · rintro ⟨⟨rfl, rfl⟩, h1, h2, h3⟩
    exact ⟨_, _, ⟨rfl, h1⟩, _, _, ⟨rfl, h2⟩, _, _, rfl, _, _, rfl, _, _, ⟨⟨rfl, rfl⟩, h3⟩, rfl, rfl⟩

theorem readQuerySMResp_fails : Reader.Fails Fatal readQuerySMResp :=
  (readCString_fails _).bind fun _ => (readCString_fails _).bind fun _ => readUint8_fails.bind fun _ =>
    readUint8_fails.bind fun _ => optional_fails.bind fun _ => Reader.Fails.pure _

theorem appendQuerySMResp_writes (v : QuerySMResp) :
    Encodes (appendQuerySMResp v) (QuerySMResp.Encodable v) (QuerySMResp.wire v) := by
  refine ((appendCString_writes _ _).seq ((appendCString_writes _ _).seq ((Writes.append _).seq
    (appendOptional_writes _)))).congr ?_ ?_
  · simp only [QuerySMResp.Encodable, true_and]
  · simp [QuerySMResp.wire]

def querySMRespSpec : BodySpec QuerySMResp where
  type := querySMRespType
  read _ := readQuerySMResp
  append := appendQuerySMResp
  wire := QuerySMResp.wire
  Encodable := QuerySMResp.Encodable
  Canonical _ := True
  read_ok _ s v r := by rw [readQuerySMResp_ok, and_true]
  append_writes := appendQuerySMResp_writes

def decodeQuerySMResp : Header → Octets → Except Err Value :=
  decodeResponse querySMRespType ⟨[], [], 0, 0, []⟩ readQuerySMResp

def encodeQuerySMResp : Value → Append Unit := encodeResponse querySMRespType appendQuerySMResp

/-! ## cancel_sm -/

def cancelSMType : BodyType CancelSM where
  kind := .cancelSM
  wrap := .cancelSM
  get | .cancelSM v => some v | _ => none

def readCancelSM : Read CancelSM := do
  let serviceType ← readCString maxServiceTypeLen
  let messageID ← readCString maxMessageIDLen
  let sourceAddrTON ← readUint8
  let sourceAddrNPI ← readUint8
  let sourceAddr ← readCString maxAddressLen
  let destAddrTON ← readUint8
  let destAddrNPI ← readUint8
  let destinationAddr ← readCString maxAddressLen
  requireDone
  return { serviceType, messageID, sourceAddrTON, sourceAddrNPI, sourceAddr, destAddrTON, destAddrNPI,
           destinationAddr }

def appendCancelSM (v : CancelSM) : Append Unit := do
  appendCString v.serviceType maxServiceTypeLen
  appendCString v.messageID maxMessageIDLen
  .append [v.sourceAddrTON, v.sourceAddrNPI]
  appendCString v.sourceAddr maxAddressLen
  .append [v.destAddrTON, v.destAddrNPI]
  appendCString v.destinationAddr maxAddressLen

def CancelSM.wire (v : CancelSM) : Octets :=
  v.serviceType ++ 0 :: (v.messageID ++ 0 :: v.sourceAddrTON :: v.sourceAddrNPI ::
    (v.sourceAddr ++ 0 :: v.destAddrTON :: v.destAddrNPI :: (v.destinationAddr ++ 0 :: [])))

def CancelSM.Encodable (v : CancelSM) : Prop :=
  CString maxServiceTypeLen v.serviceType ∧ CString maxMessageIDLen v.messageID ∧
    CString maxAddressLen v.sourceAddr ∧ CString maxAddressLen v.destinationAddr

theorem readCancelSM_ok (s : Octets) (v : CancelSM) (r : Octets) :
    readCancelSM s = .ok (v, r) ↔ (s = CancelSM.wire v ∧ r = []) ∧ CancelSM.Encodable v := by
  simp only [readCancelSM, Reader.bind_ok, readCString_ok, readUint8_ok, requireDone_ok, Reader.pure_ok]
  constructor
  · rintro ⟨_, _, ⟨rfl, h1⟩, _, _, ⟨rfl, h2⟩, _, _, rfl, _, _, rfl, _, _, ⟨rfl, h3⟩, h⟩
    obtain ⟨_, _, rfl, _, _, rfl, _, _, ⟨rfl, h4⟩, _, _, ⟨rfl, rfl⟩, rfl, rfl⟩ := h
    exact ⟨⟨rfl, rfl⟩, h1, h2, h3, h4⟩
  · rintro ⟨⟨rfl, rfl⟩, h1, h2, h3, h4⟩
    exact ⟨_, _, ⟨rfl, h1⟩, _, _, ⟨rfl, h2⟩, _, _, rfl, _, _, rfl, _, _, ⟨rfl, h3⟩, _, _, rfl, _, _, rfl, _, _,
      ⟨rfl, h4⟩, (), _, ⟨rfl, rfl⟩, rfl, rfl⟩

theorem appendCancelSM_writes (v : CancelSM) : Encodes (appendCancelSM v) (CancelSM.Encodable v) (CancelSM.wire v) := by
  refine ((appendCString_writes _ _).seq ((appendCString_writes _ _).seq ((Writes.append _).seq
    ((appendCString_writes _ _).seq ((Writes.append _).seq (appendCString_writes _ _)))))).congr ?_ ?_
  · simp only [CancelSM.Encodable, true_and]
  · simp [CancelSM.wire]

def cancelSMSpec : BodySpec CancelSM where
  type := cancelSMType
  read _ := readCancelSM
  append := appendCancelSM
  wire := CancelSM.wire
  Encodable := CancelSM.Encodable
  Canonical _ := True
  read_ok _ s v r := by rw [readCancelSM_ok, and_true]
  append_writes := appendCancelSM_writes

def decodeCancelSM : Header → Octets → Except Err Value := decodeRequest cancelSMType fun _ => readCancelSM

def encodeCancelSM : Value → Append Unit := encodeRequest cancelSMType appendCancelSM

/-! ## replace_sm -/

def replaceSMType : BodyType ReplaceSM where
  kind := .replaceSM
  wrap := .replaceSM
  get | .replaceSM v => some v | _ => none

def readReplaceSM : Read ReplaceSM := do
  let messageID ← readCString maxMessageIDLen
  let sourceAddrTON ← readUint8
  let sourceAddrNPI ← readUint8
  let sourceAddr ← readCString maxAddressLen
  let scheduleDeliveryTime ← readCString maxTimeFieldLen
  let validityPeriod ← readCString maxTimeFieldLen
  let registeredDelivery ← readUint8
  let smDefaultMsgID ← readUint8
  let smLength ← readUint8
  .require (smLength ≠ 255) smLengthError
  let shortMessage ← readOctets smLength.toNat
  requireDone
  return { messageID, sourceAddrTON, sourceAddrNPI, sourceAddr, scheduleDeliveryTime, validityPeriod,
           registeredDelivery, smDefaultMsgID, shortMessage }

def appendReplaceSM (v : ReplaceSM) : Append Unit := do
  .failIf (maxShortMessageLength < v.shortMessage.length) (shortMessageTooLong v.shortMessage)
  appendCString v.messageID maxMessageIDLen
  .append [v.sourceAddrTON, v.sourceAddrNPI]
  appendCString v.sourceAddr maxAddressLen
  appendCString v.scheduleDeliveryTime maxTimeFieldLen
  appendCString v.validityPeriod maxTimeFieldLen
  .append [v.registeredDelivery, v.smDefaultMsgID, UInt8.ofNat v.shortMessage.length]
  .append v.shortMessage

def ReplaceSM.wire (v : ReplaceSM) : Octets :=
  v.messageID ++ 0 :: v.sourceAddrTON :: v.sourceAddrNPI :: (v.sourceAddr ++ 0 :: (v.scheduleDeliveryTime ++ 0 ::
    (v.validityPeriod ++ 0 :: v.registeredDelivery :: v.smDefaultMsgID :: UInt8.ofNat v.shortMessage.length ::
      (v.shortMessage ++ []))))

def ReplaceSM.Encodable (v : ReplaceSM) : Prop :=
  v.shortMessage.length ≤ maxShortMessageLength ∧ CString maxMessageIDLen v.messageID ∧
    CString maxAddressLen v.sourceAddr ∧ CString maxTimeFieldLen v.scheduleDeliveryTime ∧
    CString maxTimeFieldLen v.validityPeriod

theorem readReplaceSM_ok (s : Octets) (v : ReplaceSM) (r : Octets) :
    readReplaceSM s = .ok (v, r) ↔ (s = ReplaceSM.wire v ∧ r = []) ∧ ReplaceSM.Encodable v := by
  simp only [readReplaceSM, Reader.bind_ok, readCString_ok, readUint8_ok, Reader.require_ok, readOctets_ok,
    requireDone_ok, Reader.pure_ok]
  constructor
  · rintro ⟨_, _, ⟨rfl, h1⟩, _, _, rfl, _, _, rfl, _, _, ⟨rfl, h2⟩, h⟩
    obtain ⟨_, _, ⟨rfl, h3⟩, _, _, ⟨rfl, h4⟩, h⟩ := h
    obtain ⟨_, _, rfl, _, _, rfl, n, _, rfl, _, _, ⟨hn, rfl⟩, h⟩ := h
    obtain ⟨sm, _, ⟨rfl, hsm⟩, _, _, ⟨rfl, rfl⟩, rfl, rfl⟩ := h
    obtain ⟨rfl, hlen⟩ := (smLength_iff n sm).mp ⟨hn, hsm⟩
    exact ⟨⟨rfl, rfl⟩, hlen, h1, h2, h3, h4⟩
  · rintro ⟨⟨rfl, rfl⟩, hlen, h1, h2, h3, h4⟩
    obtain ⟨hn, hsm⟩ := (smLength_iff _ v.shortMessage).mpr ⟨rfl, hlen⟩
    exact ⟨_, _, ⟨rfl, h1⟩, _, _, rfl, _, _, rfl, _, _, ⟨rfl, h2⟩, _, _, ⟨rfl, h3⟩, _, _, ⟨rfl, h4⟩, _, _, rfl,
      _, _, rfl, _, _, rfl, (), _, ⟨hn, rfl⟩, _, _, ⟨rfl, hsm⟩, (), _, ⟨rfl, rfl⟩, rfl, rfl⟩

theorem appendReplaceSM_writes (v : ReplaceSM) :
    Encodes (appendReplaceSM v) (ReplaceSM.Encodable v) (ReplaceSM.wire v) := by
  refine ((Writes.failIf _ _).seq ((appendCString_writes _ _).seq ((Writes.append _).seq
    ((appendCString_writes _ _).seq ((appendCString_writes _ _).seq ((appendCString_writes _ _).seq
    ((Writes.append _).seq (Writes.append _)))))))).congr ?_ ?_
  · simp only [ReplaceSM.Encodable, true_and, and_true, Nat.not_lt]
  · simp [ReplaceSM.wire]

def replaceSMSpec : BodySpec ReplaceSM where
  type := replaceSMType
  read _ := readReplaceSM
  append := appendReplaceSM
  wire := ReplaceSM.wire
  Encodable := ReplaceSM.Encodable
  Canonical _ := True
  read_ok _ s v r := by rw [readReplaceSM_ok, and_true]
  append_writes := appendReplaceSM_writes

def decodeReplaceSM : Header → Octets → Except Err Value := decodeRequest replaceSMType fun _ => readReplaceSM

def encodeReplaceSM : Value → Append Unit := encodeRequest replaceSMType appendReplaceSM

/-! ## alert_notification and outbind -/

def alertNotificationType : BodyType AlertNotification where
  kind := .alertNotification
  wrap := .alertNotification
  get | .alertNotification v => some v | _ => none

def readAlertNotification : Read AlertNotification := do
  let sourceAddrTON ← readUint8
  let sourceAddrNPI ← readUint8
  let sourceAddr ← readCString maxDataAddressLen
  let esmeAddrTON ← readUint8
  let esmeAddrNPI ← readUint8
  let esmeAddr ← readCString maxDataAddressLen
  let optional ← optional
  return { sourceAddrTON, sourceAddrNPI, sourceAddr, esmeAddrTON, esmeAddrNPI, esmeAddr, optional }

def appendAlertNotification (v : AlertNotification) : Append Unit := do
  .append [v.sourceAddrTON, v.sourceAddrNPI]
  appendCString v.sourceAddr maxDataAddressLen
  .append [v.esmeAddrTON, v.esmeAddrNPI]
  appendCString v.esmeAddr maxDataAddressLen
  appendOptional v.optional

def AlertNotification.wire (v : AlertNotification) : Octets :=
  v.sourceAddrTON :: v.sourceAddrNPI :: (v.sourceAddr ++ 0 :: v.esmeAddrTON :: v.esmeAddrNPI ::
    (v.esmeAddr ++ 0 :: tlvsWire v.optional))

def AlertNotification.Encodable (v : AlertNotification) : Prop :=
  CString maxDataAddressLen v.sourceAddr ∧ CString maxDataAddressLen v.esmeAddr ∧ TLVsFit v.optional

theorem readAlertNotification_ok (s : Octets) (v : AlertNotification) (r : Octets) :
    readAlertNotification s = .ok (v, r) ↔
      (s = AlertNotification.wire v ∧ r = []) ∧ AlertNotification.Encodable v := by
  simp only [readAlertNotification, Reader.bind_ok, readCString_ok, readUint8_ok, optional_ok, Reader.pure_ok]
  constructor
  · rintro ⟨_, _, rfl, _, _, rfl, _, _, ⟨rfl, h1⟩, h⟩
    obtain ⟨_, _, rfl, _, _, rfl, _, _, ⟨rfl, h2⟩, _, _, ⟨⟨rfl, rfl⟩, h3⟩, rfl, rfl⟩ := h
    exact ⟨⟨rfl, rfl⟩, h1, h2, h3⟩
  · rintro ⟨⟨rfl, rfl⟩, h1, h2, h3⟩
    exact ⟨_, _, rfl, _, _, rfl, _, _, ⟨rfl, h1⟩, _, _, rfl, _, _, rfl, _, _, ⟨rfl, h2⟩, _, _, ⟨⟨rfl, rfl⟩, h3⟩,
      rfl, rfl⟩

theorem appendAlertNotification_writes (v : AlertNotification) :
    Encodes (appendAlertNotification v) (AlertNotification.Encodable v) (AlertNotification.wire v) := by
  refine ((Writes.append _).seq ((appendCString_writes _ _).seq ((Writes.append _).seq
    ((appendCString_writes _ _).seq (appendOptional_writes _))))).congr ?_ ?_
  · simp only [AlertNotification.Encodable, true_and]
  · simp [AlertNotification.wire]

def alertNotificationSpec : BodySpec AlertNotification where
  type := alertNotificationType
  read _ := readAlertNotification
  append := appendAlertNotification
  wire := AlertNotification.wire
  Encodable := AlertNotification.Encodable
  Canonical _ := True
  read_ok _ s v r := by rw [readAlertNotification_ok, and_true]
  append_writes := appendAlertNotification_writes

def decodeAlertNotification : Header → Octets → Except Err Value :=
  decodeRequest alertNotificationType fun _ => readAlertNotification

def encodeAlertNotification : Value → Append Unit := encodeRequest alertNotificationType appendAlertNotification

def outbindType : BodyType Outbind where
  kind := .outbind
  wrap := .outbind
  get | .outbind v => some v | _ => none

def readOutbind : Read Outbind := do
  let systemID ← readCString maxSystemIDLen
  let password ← readCString maxPasswordLen
  requireDone
  return { systemID, password }

def appendOutbind (v : Outbind) : Append Unit := do
  appendCString v.systemID maxSystemIDLen
  appendCString v.password maxPasswordLen

def Outbind.wire (v : Outbind) : Octets := v.systemID ++ 0 :: (v.password ++ 0 :: [])

def Outbind.Encodable (v : Outbind) : Prop := CString maxSystemIDLen v.systemID ∧ CString maxPasswordLen v.password

theorem readOutbind_ok (s : Octets) (v : Outbind) (r : Octets) :
    readOutbind s = .ok (v, r) ↔ (s = Outbind.wire v ∧ r = []) ∧ Outbind.Encodable v := by
  simp only [readOutbind, Reader.bind_ok, readCString_ok, requireDone_ok, Reader.pure_ok]
  constructor
  · rintro ⟨_, _, ⟨rfl, h1⟩, _, _, ⟨rfl, h2⟩, _, _, ⟨rfl, rfl⟩, rfl, rfl⟩
    exact ⟨⟨rfl, rfl⟩, h1, h2⟩
  · rintro ⟨⟨rfl, rfl⟩, h1, h2⟩
    exact ⟨_, _, ⟨rfl, h1⟩, _, _, ⟨rfl, h2⟩, (), _, ⟨rfl, rfl⟩, rfl, rfl⟩

theorem appendOutbind_writes (v : Outbind) : Encodes (appendOutbind v) (Outbind.Encodable v) (Outbind.wire v) := by
  refine ((appendCString_writes _ _).seq (appendCString_writes _ _)).congr Iff.rfl ?_
  simp [Outbind.wire]

def outbindSpec : BodySpec Outbind where
  type := outbindType
  read _ := readOutbind
  append := appendOutbind
  wire := Outbind.wire
  Encodable := Outbind.Encodable
  Canonical _ := True
  read_ok _ s v r := by rw [readOutbind_ok, and_true]
  append_writes := appendOutbind_writes

def decodeOutbind : Header → Octets → Except Err Value := decodeRequest outbindType fun _ => readOutbind

def encodeOutbind : Value → Append Unit := encodeRequest outbindType appendOutbind

end GoSmpp.Codec
