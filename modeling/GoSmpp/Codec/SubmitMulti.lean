import GoSmpp.Codec.Smpp34

/-!
# Package `codec`: submit_multi

The bodies of submit_multi and submit_multi_resp, which hold counted lists. `readDestination_reads` and
`readUnsuccessful_reads` are one round of the decoders' loops, lifted by `Reads.times`; `appendDestination_writes`
and `appendUnsuccessful_writes` one round of the encoders', lifted by `Writes.forM`.

A distribution-list destination has no TON and NPI on the wire: the encoder drops them, and a decoded one has them
zero (`Destination.Canonical`).
-/

namespace GoSmpp.Codec
open Lib Protocol

def maxDLNameLen : Nat := 21

/-! ## Destinations -/

/-- One round of the destination loop of `decodeSubmitMulti`. -/
def readDestination (header : Header) : Read SubmitMultiDestination := do
  let flag ← readUint8
  if flag = destinationSME then
    let ton ← readUint8
    let npi ← readUint8
    let address ← readCString maxAddressLen
    return { flag, ton, npi, address }
  else if flag = destinationDistributionList then
    let address ← readCString maxDLNameLen
    return { flag, ton := 0, npi := 0, address }
  else
    fun _ => .error (.fatal
      { kind := .frameBoundaryLost, declaredLength := header.commandLength, command := header.commandID,
        sequence := header.sequenceNumber,
        reason := "unknown submit_multi dest_flag " ++ toString flag.toNat ++
          " makes destination structure ambiguous" })

/-- One round of the destination loop of `encodeSubmitMulti`. -/
def appendDestination (d : SubmitMultiDestination) : Append Unit := do
  .append [d.flag]
  if d.flag = destinationSME then
    .append [d.ton, d.npi]
    appendCString d.address maxAddressLen
  else if d.flag = destinationDistributionList then
    appendCString d.address maxDLNameLen
  else
    .fail (invalidPDUValue ("invalid submit_multi dest_flag " ++ toString d.flag.toNat))

def Destination.wire (d : SubmitMultiDestination) : Octets :=
  d.flag :: if d.flag = destinationSME then d.ton :: d.npi :: (d.address ++ [0]) else d.address ++ [0]

def Destination.Encodable (d : SubmitMultiDestination) : Prop :=
  (d.flag = destinationSME ∧ CString maxAddressLen d.address) ∨
    (d.flag = destinationDistributionList ∧ CString maxDLNameLen d.address)

/-- The wire has no TON and NPI for a distribution list. -/
def Destination.Canonical (d : SubmitMultiDestination) : Prop :=
  d.flag = destinationDistributionList → d.ton = 0 ∧ d.npi = 0

theorem destinationSME_ne : destinationSME ≠ destinationDistributionList := by decide

theorem readDestination_reads (header : Header) :
    Reads (readDestination header) (fun d => Destination.Encodable d ∧ Destination.Canonical d) Destination.wire := by
  intro s d r
  simp only [readDestination, Reader.bind_ok, readUint8_ok]
  constructor
  · rintro ⟨flag, t, rfl, h⟩
    split at h
    · next hf =>
      simp only [Reader.bind_ok, readUint8_ok, readCString_ok, Reader.pure_ok] at h
      obtain ⟨ton, _, rfl, npi, _, rfl, address, _, ⟨rfl, ha⟩, rfl, rfl⟩ := h
      subst hf
      exact ⟨⟨.inl ⟨rfl, ha⟩, fun h => absurd h destinationSME_ne⟩, by simp [Destination.wire]⟩
    · split at h
      · next hf hf' =>
        simp only [Reader.bind_ok, readCString_ok, Reader.pure_ok] at h
        obtain ⟨address, _, ⟨rfl, ha⟩, rfl, rfl⟩ := h
        exact ⟨⟨.inr ⟨hf', ha⟩, fun _ => ⟨rfl, rfl⟩⟩, by simp [Destination.wire, hf]⟩
      · cases h
  · rintro ⟨⟨⟨hf, ha⟩ | ⟨hf, ha⟩, hc⟩, rfl⟩
    · refine ⟨d.flag, d.ton :: d.npi :: (d.address ++ 0 :: r), by simp [Destination.wire, hf], ?_⟩
      rw [if_pos hf]
      simp only [Reader.bind_ok, readUint8_ok, readCString_ok, Reader.pure_ok]
      exact ⟨_, _, rfl, _, _, rfl, _, _, ⟨rfl, ha⟩, rfl, rfl⟩
    · have hne : d.flag ≠ destinationSME := fun h => destinationSME_ne (h.symm.trans hf)
      obtain ⟨hton, hnpi⟩ := hc hf
      refine ⟨d.flag, d.address ++ 0 :: r, by simp [Destination.wire, hne], ?_⟩
      rw [if_neg hne, if_pos hf]
      simp only [Reader.bind_ok, readCString_ok, Reader.pure_ok]
      refine ⟨_, _, ⟨rfl, ha⟩, ?_, rfl⟩
      cases d
      simp only at hton hnpi
      rw [hton, hnpi]

theorem appendDestination_writes (d : SubmitMultiDestination) :
    Encodes (appendDestination d) (Destination.Encodable d) (Destination.wire d) := by
  unfold appendDestination Destination.Encodable Destination.wire
  split
  · next hf =>
    refine ((Writes.append _).seq ((Writes.append _).seq (appendCString_writes _ _))).congr ?_ (by simp)
    simp [hf, destinationSME_ne]
  · next hf =>
    split
    · next hf' =>
      refine ((Writes.append _).seq (appendCString_writes _ _)).congr ?_ (by simp)
      simp [hf', destinationSME_ne.symm]
    · next hf' =>
      refine ⟨fun out => ?_, fun e he => by cases he; rfl⟩
      rw [Appender.bind_appends]
      simp [hf, hf']

/-! ## Unsuccessful destinations -/

/-- One round of the loop of `decodeSubmitMultiResp`. -/
def readUnsuccessful : Read UnsuccessfulSME := do
  let destAddrTON ← readUint8
  let destAddrNPI ← readUint8
  let destinationAddr ← readCString maxAddressLen
  let errorStatusCode ← readUint32
  return { destAddrTON, destAddrNPI, destinationAddr, errorStatusCode }

/-- One round of the loop of `encodeSubmitMultiResp`. -/
def appendUnsuccessful (u : UnsuccessfulSME) : Append Unit := do
  .append [u.destAddrTON, u.destAddrNPI]
  appendCString u.destinationAddr maxAddressLen
  .append (putUint32 u.errorStatusCode)

def Unsuccessful.wire (u : UnsuccessfulSME) : Octets :=
  u.destAddrTON :: u.destAddrNPI :: (u.destinationAddr ++ 0 :: putUint32 u.errorStatusCode)

def Unsuccessful.Encodable (u : UnsuccessfulSME) : Prop := CString maxAddressLen u.destinationAddr

theorem readUnsuccessful_reads : Reads readUnsuccessful Unsuccessful.Encodable Unsuccessful.wire := by
  intro s u r
  simp only [readUnsuccessful, Reader.bind_ok, readUint8_ok, readCString_ok, readUint32_ok, Reader.pure_ok]
  constructor
  · rintro ⟨_, _, rfl, _, _, rfl, _, _, ⟨rfl, h⟩, _, _, rfl, rfl, rfl⟩
    exact ⟨h, by simp [Unsuccessful.wire]⟩
  · rintro ⟨h, rfl⟩
    refine ⟨_, _, by simp only [Unsuccessful.wire, List.cons_append]; rfl, _, _, rfl, _, _, ⟨?_, h⟩, _, _, rfl, rfl, rfl⟩
    simp

theorem readUnsuccessful_fails : Reader.Fails Fatal readUnsuccessful :=
  readUint8_fails.bind fun _ => readUint8_fails.bind fun _ => (readCString_fails _).bind fun _ =>
    readUint32_fails.bind fun _ => Reader.Fails.pure _

theorem appendUnsuccessful_writes (u : UnsuccessfulSME) :
    Encodes (appendUnsuccessful u) (Unsuccessful.Encodable u) (Unsuccessful.wire u) := by
  refine ((Writes.append _).seq ((appendCString_writes _ _).seq (Writes.append _))).congr ?_ ?_
  · simp only [Unsuccessful.Encodable, true_and, and_true]
  · simp [Unsuccessful.wire]

/-! ## submit_multi -/

def submitMultiType : BodyType SubmitMulti where
  kind := .submitMulti
  wrap := .submitMulti
  get | .submitMulti v => some v | _ => none

def numberOfDestsError : Err :=
  .semanticBy { status := statusInvalidNumberOfDestinations, reason := "number_of_dests must be 1..254" }
    (.sentinel .invalidPDUValue)

def readSubmitMulti (header : Header) : Read SubmitMulti := do
  let serviceType ← readCString maxServiceTypeLen
  let sourceAddrTON ← readUint8
  let sourceAddrNPI ← readUint8
  let sourceAddr ← readCString maxAddressLen
  let count ← readUint8
  .require (¬ (count = 0 ∨ count = 255)) numberOfDestsError
  let destinations ← (readDestination header).times count.toNat
  let esmClass ← readUint8
  let protocolID ← readUint8
  let priorityFlag ← readUint8
  let scheduleDeliveryTime ← readCString maxTimeFieldLen
  let validityPeriod ← readCString maxTimeFieldLen
  let registeredDelivery ← readUint8
  let replaceIfPresentFlag ← readUint8
  let dataCoding ← readUint8
  let smDefaultMsgID ← readUint8
  let smLength ← readUint8
  .require (smLength ≠ 255) smLengthError
  let shortMessage ← readOctets smLength.toNat
  let optional ← optional
  .require (¬ ConflictingMessageData optional shortMessage) messagePayloadError
  return { serviceType, sourceAddrTON, sourceAddrNPI, sourceAddr, destinations, esmClass, protocolID, priorityFlag,
           scheduleDeliveryTime, validityPeriod, registeredDelivery, replaceIfPresentFlag, dataCoding,
           smDefaultMsgID, shortMessage, optional }

def appendSubmitMulti (v : SubmitMulti) : Append Unit := do
  .failIf (v.destinations.length = 0 ∨ 254 < v.destinations.length)
    (invalidPDUValue "submit_multi destinations must be 1..254")
  .failIf (maxShortMessageLength < v.shortMessage.length) (shortMessageTooLong v.shortMessage)
  .failIf (ConflictingMessageData v.optional v.shortMessage) (.sentinel .conflictingMessageData)
  appendCString v.serviceType maxServiceTypeLen
  .append [v.sourceAddrTON, v.sourceAddrNPI]
  appendCString v.sourceAddr maxAddressLen
  .append [UInt8.ofNat v.destinations.length]
  v.destinations.forM appendDestination
  .append [v.esmClass, v.protocolID, v.priorityFlag]
  appendCString v.scheduleDeliveryTime maxTimeFieldLen
  appendCString v.validityPeriod maxTimeFieldLen
  .append [v.registeredDelivery, v.replaceIfPresentFlag, v.dataCoding, v.smDefaultMsgID,
    UInt8.ofNat v.shortMessage.length]
  .append v.shortMessage
  appendOptional v.optional

def SubmitMulti.wire (v : SubmitMulti) : Octets :=
  v.serviceType ++ 0 :: v.sourceAddrTON :: v.sourceAddrNPI ::
    (v.sourceAddr ++ 0 :: UInt8.ofNat v.destinations.length ::
      (v.destinations.flatMap Destination.wire ++ v.esmClass :: v.protocolID :: v.priorityFlag ::
        (v.scheduleDeliveryTime ++ 0 ::
          (v.validityPeriod ++ 0 :: v.registeredDelivery :: v.replaceIfPresentFlag :: v.dataCoding ::
            v.smDefaultMsgID :: UInt8.ofNat v.shortMessage.length :: (v.shortMessage ++ tlvsWire v.optional)))))

def SubmitMulti.Encodable (v : SubmitMulti) : Prop :=
  (v.destinations.length ≠ 0 ∧ v.destinations.length ≤ 254) ∧ v.shortMessage.length ≤ maxShortMessageLength ∧
    ¬ ConflictingMessageData v.optional v.shortMessage ∧ CString maxServiceTypeLen v.serviceType ∧
    CString maxAddressLen v.sourceAddr ∧ (∀ d ∈ v.destinations, Destination.Encodable d) ∧
    CString maxTimeFieldLen v.scheduleDeliveryTime ∧ CString maxTimeFieldLen v.validityPeriod ∧ TLVsFit v.optional

def SubmitMulti.Canonical (v : SubmitMulti) : Prop := ∀ d ∈ v.destinations, Destination.Canonical d

theorem numberOfDests_iff (n : UInt8) (l : List SubmitMultiDestination) :
    ¬ (n = 0 ∨ n = 255) ∧ l.length = n.toNat ↔
      n = UInt8.ofNat l.length ∧ l.length ≠ 0 ∧ l.length ≤ 254 := by
  have hn := n.toNat_lt
  have h0 : n = 0 ↔ n.toNat = 0 := by
    rw [← UInt8.toNat_inj]
    rfl
  have h255 : n = 255 ↔ n.toNat = 255 := by
    rw [← UInt8.toNat_inj]
    rfl
  rw [h0, h255]
  constructor
  · rintro ⟨h, hl⟩
    exact ⟨by rw [hl, UInt8.ofNat_toNat], by omega, by omega⟩
  · rintro ⟨rfl, hl0, hl⟩
    rw [UInt8.toNat_ofNat', Nat.mod_eq_of_lt (by omega)]
    exact ⟨by omega, rfl⟩

theorem readSubmitMulti_ok (header : Header) (s : Octets) (v : SubmitMulti) (r : Octets) :
    readSubmitMulti header s = .ok (v, r) ↔
      (s = SubmitMulti.wire v ∧ r = []) ∧ SubmitMulti.Encodable v ∧ SubmitMulti.Canonical v := by
  simp only [readSubmitMulti, Reader.bind_ok, readCString_ok, readUint8_ok, Reader.require_ok, readOctets_ok,
    optional_ok, Reader.pure_ok, (readDestination_reads header).times _ _ _ _]
  constructor
  · rintro ⟨_, _, ⟨rfl, h1⟩, _, _, rfl, _, _, rfl, _, _, ⟨rfl, h2⟩, h⟩
    obtain ⟨count, _, rfl, _, _, ⟨hcount, rfl⟩, dests, _, ⟨⟨hlen, hdests⟩, rfl⟩, h⟩ := h
    obtain ⟨_, _, rfl, _, _, rfl, _, _, rfl, h⟩ := h
    obtain ⟨_, _, ⟨rfl, h3⟩, _, _, ⟨rfl, h4⟩, h⟩ := h
    obtain ⟨_, _, rfl, _, _, rfl, _, _, rfl, _, _, rfl, h⟩ := h
    obtain ⟨n, _, rfl, _, _, ⟨hn, rfl⟩, sm, _, ⟨rfl, hsm⟩, h⟩ := h
    obtain ⟨ps, _, ⟨⟨rfl, rfl⟩, h5⟩, _, _, ⟨hc, rfl⟩, rfl, rfl⟩ := h
    obtain ⟨rfl, hsmlen⟩ := (smLength_iff n sm).mp ⟨hn, hsm⟩
    obtain ⟨rfl, hdlen⟩ := (numberOfDests_iff count dests).mp ⟨hcount, hlen⟩
    exact ⟨⟨rfl, rfl⟩, ⟨hdlen, hsmlen, hc, h1, h2, fun d hd => (hdests d hd).1, h3, h4, h5⟩,
      fun d hd => (hdests d hd).2⟩
  · rintro ⟨⟨rfl, rfl⟩, ⟨hdlen, hsmlen, hc, h1, h2, hdests, h3, h4, h5⟩, hcanon⟩
    obtain ⟨hn, hsm⟩ := (smLength_iff _ v.shortMessage).mpr ⟨rfl, hsmlen⟩
    obtain ⟨hcount, hlen⟩ := (numberOfDests_iff _ v.destinations).mpr ⟨rfl, hdlen⟩
    exact ⟨_, _, ⟨rfl, h1⟩, _, _, rfl, _, _, rfl, _, _, ⟨rfl, h2⟩, _, _, rfl, (), _, ⟨hcount, rfl⟩, _, _,
      ⟨⟨hlen, fun d hd => ⟨hdests d hd, hcanon d hd⟩⟩, rfl⟩, _, _, rfl, _, _, rfl, _, _, rfl, _, _, ⟨rfl, h3⟩, _, _,
      ⟨rfl, h4⟩, _, _, rfl, _, _, rfl, _, _, rfl, _, _, rfl, _, _, rfl, (), _, ⟨hn, rfl⟩, _, _, ⟨rfl, hsm⟩, _, _,
      ⟨⟨rfl, rfl⟩, h5⟩, (), _, ⟨hc, rfl⟩, rfl, rfl⟩

theorem appendSubmitMulti_writes (v : SubmitMulti) :
    Encodes (appendSubmitMulti v) (SubmitMulti.Encodable v) (SubmitMulti.wire v) := by
  refine ((Writes.failIf _ _).seq ((Writes.failIf _ _).seq ((Writes.failIf _ _).seq ((appendCString_writes _ _).seq
    ((Writes.append _).seq ((appendCString_writes _ _).seq ((Writes.append _).seq
    ((Writes.forM appendDestination_writes _).seq ((Writes.append _).seq ((appendCString_writes _ _).seq
    ((appendCString_writes _ _).seq ((Writes.append _).seq ((Writes.append _).seq
    (appendOptional_writes _)))))))))))))).congr ?_ ?_
  · simp only [SubmitMulti.Encodable, true_and, not_or, Nat.not_lt, ne_eq]
  · simp [SubmitMulti.wire]

def submitMultiSpec : BodySpec SubmitMulti where
  type := submitMultiType
  read := readSubmitMulti
  append := appendSubmitMulti
  wire := SubmitMulti.wire
  Encodable := SubmitMulti.Encodable
  Canonical := SubmitMulti.Canonical
  read_ok := readSubmitMulti_ok
  append_writes := appendSubmitMulti_writes

def decodeSubmitMulti : Header → Octets → Except Err Value := decodeRequest submitMultiType readSubmitMulti

def encodeSubmitMulti : Value → Append Unit := encodeRequest submitMultiType appendSubmitMulti

/-! ## submit_multi_resp -/

def submitMultiRespType : BodyType SubmitMultiResp where
  kind := .submitMultiResp
  wrap := .submitMultiResp
  get | .submitMultiResp v => some v | _ => none

def readSubmitMultiResp : Read SubmitMultiResp := do
  let messageID ← readCString maxMessageIDLen
  let count ← readUint8
  let unsuccessful ← readUnsuccessful.times count.toNat
  let optional ← optional
  return { messageID, unsuccessful, optional }

def appendSubmitMultiResp (v : SubmitMultiResp) : Append Unit := do
  .failIf (255 < v.unsuccessful.length) (invalidPDUValue "no_unsuccess exceeds 255")
  appendCString v.messageID maxMessageIDLen
  .append [UInt8.ofNat v.unsuccessful.length]
  v.unsuccessful.forM appendUnsuccessful
  appendOptional v.optional

def SubmitMultiResp.wire (v : SubmitMultiResp) : Octets :=
  v.messageID ++ 0 :: UInt8.ofNat v.unsuccessful.length ::
    (v.unsuccessful.flatMap Unsuccessful.wire ++ tlvsWire v.optional)

def SubmitMultiResp.Encodable (v : SubmitMultiResp) : Prop :=
  v.unsuccessful.length ≤ 255 ∧ CString maxMessageIDLen v.messageID ∧
    (∀ u ∈ v.unsuccessful, Unsuccessful.Encodable u) ∧ TLVsFit v.optional

theorem noUnsuccess_iff (n : UInt8) (l : List UnsuccessfulSME) :
    l.length = n.toNat ↔ n = UInt8.ofNat l.length ∧ l.length ≤ 255 := by
  have hn := n.toNat_lt
  constructor
  · intro h
    exact ⟨by rw [h, UInt8.ofNat_toNat], by omega⟩
  · rintro ⟨rfl, h⟩
    rw [UInt8.toNat_ofNat', Nat.mod_eq_of_lt (by omega)]

theorem readSubmitMultiResp_ok (s : Octets) (v : SubmitMultiResp) (r : Octets) :
    readSubmitMultiResp s = .ok (v, r) ↔ (s = SubmitMultiResp.wire v ∧ r = []) ∧ SubmitMultiResp.Encodable v := by
  simp only [readSubmitMultiResp, Reader.bind_ok, readCString_ok, readUint8_ok, optional_ok, Reader.pure_ok,
    readUnsuccessful_reads.times _ _ _ _]
  constructor
  · rintro ⟨_, _, ⟨rfl, h1⟩, n, _, rfl, l, _, ⟨⟨hlen, hl⟩, rfl⟩, _, _, ⟨⟨rfl, rfl⟩, h2⟩, rfl, rfl⟩
    obtain ⟨rfl, hle⟩ := (noUnsuccess_iff n l).mp hlen
    exact ⟨⟨rfl, rfl⟩, hle, h1, hl, h2⟩
  · rintro ⟨⟨rfl, rfl⟩, hle, h1, hl, h2⟩
    have hlen := (noUnsuccess_iff _ v.unsuccessful).mpr ⟨rfl, hle⟩
    exact ⟨_, _, ⟨rfl, h1⟩, _, _, rfl, _, _, ⟨⟨hlen, hl⟩, rfl⟩, _, _, ⟨⟨rfl, rfl⟩, h2⟩, rfl, rfl⟩

theorem readSubmitMultiResp_fails : Reader.Fails Fatal readSubmitMultiResp :=
  (readCString_fails _).bind fun _ => readUint8_fails.bind fun _ => (readUnsuccessful_fails.times _).bind fun _ =>
    optional_fails.bind fun _ => Reader.Fails.pure _

theorem appendSubmitMultiResp_writes (v : SubmitMultiResp) :
    Encodes (appendSubmitMultiResp v) (SubmitMultiResp.Encodable v) (SubmitMultiResp.wire v) := by
  refine ((Writes.failIf _ _).seq ((appendCString_writes _ _).seq ((Writes.append _).seq
    ((Writes.forM appendUnsuccessful_writes _).seq (appendOptional_writes _))))).congr ?_ ?_
  · simp only [SubmitMultiResp.Encodable, true_and, Nat.not_lt]
  · simp [SubmitMultiResp.wire]

def submitMultiRespSpec : BodySpec SubmitMultiResp where
  type := submitMultiRespType
  read _ := readSubmitMultiResp
  append := appendSubmitMultiResp
  wire := SubmitMultiResp.wire
  Encodable := SubmitMultiResp.Encodable
  Canonical _ := True
  read_ok _ s v r := by rw [readSubmitMultiResp_ok, and_true]
  append_writes := appendSubmitMultiResp_writes

def decodeSubmitMultiResp : Header → Octets → Except Err Value :=
  decodeResponse submitMultiRespType ⟨[], [], []⟩ readSubmitMultiResp

def encodeSubmitMultiResp : Value → Append Unit := encodeResponse submitMultiRespType appendSubmitMultiResp

end GoSmpp.Codec
