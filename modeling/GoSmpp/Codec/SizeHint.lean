import GoSmpp.Codec.ErrorResponse

/-!
# Package `codec`: size hints

`encodedPDUSizeHint` of `codec/size_hint.go` counts the octets of a frame from the fields of its body, apart from the
encoders. The counts are exact: `length_wire` of each body type says that the count is the length of its wire form, `Sized`
carries this over the type switches, and `encodePDU_length` to whole frames.
-/

namespace GoSmpp.Codec
open Lib Protocol

/-! ## The code -/

def optionalParametersSize (optional : List OptionalParameter) : Nat :=
  optional.foldl (fun n parameter => n + (tlvHeaderSize + parameter.value.length)) 0

/-- `submitSMBodySize`: five C-Octet terminators and twelve fixed one-octet fields. -/
def submitSMBodySize (serviceType sourceAddr destinationAddr scheduleDeliveryTime validityPeriod shortMessage : Octets)
    (optional : List OptionalParameter) : Nat :=
  17 + serviceType.length + sourceAddr.length + destinationAddr.length + scheduleDeliveryTime.length +
    validityPeriod.length + shortMessage.length + optionalParametersSize optional

def bindRequestBodySize (systemID password systemType addressRange : Octets) : Nat :=
  7 + systemID.length + password.length + systemType.length + addressRange.length

def dataSMBodySize (serviceType sourceAddr destinationAddr : Octets) (optional : List OptionalParameter) : Nat :=
  10 + serviceType.length + sourceAddr.length + destinationAddr.length + optionalParametersSize optional

def broadcastSMBodySize (serviceType sourceAddr messageID scheduleDeliveryTime validityPeriod : Octets)
    (optional : List OptionalParameter) : Nat :=
  11 + serviceType.length + sourceAddr.length + messageID.length + scheduleDeliveryTime.length +
    validityPeriod.length + optionalParametersSize optional

def queryBroadcastSMBodySize (messageID sourceAddr : Octets) (optional : List OptionalParameter) : Nat :=
  4 + messageID.length + sourceAddr.length + optionalParametersSize optional

def cancelBroadcastSMBodySize (serviceType messageID sourceAddr : Octets) (optional : List OptionalParameter) : Nat :=
  5 + serviceType.length + messageID.length + sourceAddr.length + optionalParametersSize optional

/-- The type switch of a request: the body type or a pointer to it that is not nil. -/
def requestSize {α : Type} (t : BodyType α) (size : α → Nat) : Value → Option Nat
  | .struct s | .ptr s => (t.get s).map size
  | _ => none

/-- The type switch of a response; `empty` is the size for nil and `EmptyBody`. -/
def responseSize {α : Type} (t : BodyType α) (empty : Nat) (size : α → Nat) : Value → Option Nat
  | .nil | .struct .emptyBody | .ptr .emptyBody | .nilPtr .emptyBody => some empty
  | .struct (.optionalResponse o) | .ptr (.optionalResponse o) => some (optionalParametersSize o.optional)
  | .struct s | .ptr s => (t.get s).map size
  | _ => none

def shortMessageSize (v : ShortMessageBody) : Nat :=
  submitSMBodySize v.serviceType v.sourceAddr v.destinationAddr v.scheduleDeliveryTime v.validityPeriod v.shortMessage
    v.optional

def messageIDRespSize (v : MessageIDResp) : Nat := v.messageID.length + 1 + optionalParametersSize v.optional

def bindRequestSize (v : BindRequest) : Nat := bindRequestBodySize v.systemID v.password v.systemType v.addressRange

def bindResponseSize (v : BindResponse) : Nat := v.systemID.length + 1 + optionalParametersSize v.optional

def dataSMSize (v : DataSM) : Nat := dataSMBodySize v.serviceType v.sourceAddr v.destinationAddr v.optional

def broadcastSMSize (v : BroadcastSM) : Nat :=
  broadcastSMBodySize v.serviceType v.sourceAddr v.messageID v.scheduleDeliveryTime v.validityPeriod v.optional

def queryBroadcastSMSize (v : QueryBroadcastSM) : Nat := queryBroadcastSMBodySize v.messageID v.sourceAddr v.optional

def cancelBroadcastSMSize (v : CancelBroadcastSM) : Nat :=
  cancelBroadcastSMBodySize v.serviceType v.messageID v.sourceAddr v.optional

/-- `encodedBodySizeHint`, `none` where the source returns false. -/
def encodedBodySizeHint (command : CommandID) : Value → Option Nat :=
  if command = commandSubmitSM then requestSize submitSMType shortMessageSize
  else if command = commandDeliverSM then requestSize deliverSMType shortMessageSize
  else if command = commandSubmitSMResp then responseSize submitSMRespType 0 messageIDRespSize
  -- an empty deliver_sm_resp is written with an empty message_id
  else if command = commandDeliverSMResp then responseSize deliverSMRespType 1 messageIDRespSize
  else if command = commandBindReceiver ∨ command = commandBindTransmitter ∨ command = commandBindTransceiver then
    requestSize bindRequestType bindRequestSize
  else if command = commandBindReceiverResp ∨ command = commandBindTransmitterResp ∨
      command = commandBindTransceiverResp then
    responseSize bindResponseType 0 bindResponseSize
  else if command = commandDataSM then requestSize dataSMType dataSMSize
  else if command = commandDataSMResp then responseSize dataSMRespType 0 messageIDRespSize
  else if command = commandBroadcastSM then requestSize broadcastSMType broadcastSMSize
  else if command = commandBroadcastSMResp then responseSize broadcastSMRespType 0 messageIDRespSize
  else if command = commandQueryBroadcastSM then requestSize queryBroadcastSMType queryBroadcastSMSize
  else if command = commandQueryBroadcastSMResp then responseSize queryBroadcastSMRespType 0 messageIDRespSize
  else if command = commandCancelBroadcastSM then requestSize cancelBroadcastSMType cancelBroadcastSMSize
  else fun _ => none

def encodedPDUSizeHint (command : CommandID) (body : Value) : Option Nat :=
  (encodedBodySizeHint command body).map (headerSize + ·)

/-! ## The counts are the lengths of the wire forms -/

theorem foldl_tlvSize (ps : List OptionalParameter) (n : Nat) :
    ps.foldl (fun n parameter => n + (tlvHeaderSize + parameter.value.length)) n = n + (tlvsWire ps).length := by
  induction ps generalizing n with
  | nil => rfl
  | cons p ps ih =>
    rw [List.foldl_cons, ih, tlvsWire_cons, List.length_append, length_tlvWire, tlvHeaderSize]
    omega

theorem length_tlvsWire (ps : List OptionalParameter) : (tlvsWire ps).length = optionalParametersSize ps := by
  rw [optionalParametersSize, foldl_tlvSize, Nat.zero_add]

theorem ShortMessageBody.length_wire (v : ShortMessageBody) :
    (ShortMessageBody.wire v).length = shortMessageSize v := by
  simp only [ShortMessageBody.wire, shortMessageSize, submitSMBodySize, List.length_append, List.length_cons,
    length_tlvsWire]
  omega

theorem MessageIDResp.length_wire (v : MessageIDResp) : (MessageIDResp.wire v).length = messageIDRespSize v := by
  simp only [MessageIDResp.wire, messageIDRespSize, List.length_append, List.length_cons, length_tlvsWire]
  omega

theorem BindRequest.length_wire (v : BindRequest) : (BindRequest.wire v).length = bindRequestSize v := by
  simp only [BindRequest.wire, bindRequestSize, bindRequestBodySize, List.length_append, List.length_cons,
    List.length_nil]
  omega

theorem BindResponse.length_wire (v : BindResponse) : (BindResponse.wire v).length = bindResponseSize v := by
  simp only [BindResponse.wire, bindResponseSize, List.length_append, List.length_cons, length_tlvsWire]
  omega

theorem DataSM.length_wire (v : DataSM) : (DataSM.wire v).length = dataSMSize v := by
  simp only [DataSM.wire, dataSMSize, dataSMBodySize, List.length_append, List.length_cons, length_tlvsWire]
  omega

theorem BroadcastSM.length_wire (v : BroadcastSM) : (BroadcastSM.wire v).length = broadcastSMSize v := by
  simp only [BroadcastSM.wire, broadcastSMSize, broadcastSMBodySize, List.length_append, List.length_cons,
    length_tlvsWire]
  omega

theorem QueryBroadcastSM.length_wire (v : QueryBroadcastSM) :
    (QueryBroadcastSM.wire v).length = queryBroadcastSMSize v := by
  simp only [QueryBroadcastSM.wire, queryBroadcastSMSize, queryBroadcastSMBodySize, List.length_append,
    List.length_cons, length_tlvsWire]
  omega

theorem CancelBroadcastSM.length_wire (v : CancelBroadcastSM) :
    (CancelBroadcastSM.wire v).length = cancelBroadcastSMSize v := by
  simp only [CancelBroadcastSM.wire, cancelBroadcastSMSize, cancelBroadcastSMBodySize, List.length_append,
    List.length_cons, length_tlvsWire]
  omega

/-! ## The type switches -/

/-- The hint is the number of octets the encoder writes. -/
def Sized (hint : Value → Option Nat) (encode : Value → Append Unit) : Prop :=
  ∀ body n bs, hint body = some n → (encode body).Appends bs → bs.length = n

/-- The TLVs of the body are counted in its hint. -/
def CountsTLVs (hint : Value → Option Nat) : Prop :=
  ∀ body n, hint body = some n → (tlvsWire (optionalParametersOf body)).length ≤ n

section Switches
variable {α : Type} {size : α → Nat}

theorem requestSize_eq (t : BodyType α) (size : α → Nat) (body : Value) :
    requestSize t size body =
      match requestValue t body with
      | .ok v => some (size v)
      | .error _ => none := by
  cases body with
  | struct s | ptr s =>
    simp only [requestSize, requestValue]
    cases t.get s <;> rfl
  | nilPtr k =>
    simp only [requestSize, requestValue]
    by_cases hk : k = t.kind <;> simp only [hk, if_true, if_false]
  | _ => rfl

theorem responseSize_eq (t : BodyType α) (empty : Nat) (size : α → Nat) (body : Value) :
    responseSize t empty size body =
      match responseValue t body with
      | .ok .empty => some empty
      | .ok (.typed v) => some (size v)
      | .ok (.optional ps) => some (optionalParametersSize ps)
      | .error _ => none := by
  cases body with
  | struct s | ptr s =>
    cases s
    case emptyBody | optionalResponse => rfl
    all_goals
      simp only [responseSize, responseValue]
      generalize t.get _ = v
      cases v <;> rfl
  | nilPtr k =>
    by_cases hk : k = t.kind
    · cases k <;> simp [responseSize, responseValue, hk]
    · cases k <;> simp [responseSize, responseValue, hk]
  | _ => rfl

theorem requestSize_sized (B : BodySpec α) (hsize : ∀ v, (B.wire v).length = size v) :
    Sized (requestSize B.type size) (encodeRequest B.type B.append) := by
  intro body n bs h happ
  obtain ⟨v, hv, happ⟩ := (Appender.ofExcept_bind_appends _ _ _).mp happ
  obtain ⟨-, rfl⟩ := ((B.append_writes v).appends bs).mp happ
  rw [requestSize_eq, hv] at h
  cases h
  exact hsize v

theorem responseSize_sized (B : BodySpec α) (hsize : ∀ v, (B.wire v).length = size v) {empty : Append Unit} {cs : Octets}
    (hempty : Encodes empty True cs) :
    Sized (responseSize B.type cs.length size) (encodeResponseOr empty B.type B.append) := by
  intro body n bs h happ
  obtain ⟨x, hx, happ⟩ := (Appender.ofExcept_bind_appends _ _ _).mp happ
  rw [responseSize_eq, hx] at h
  cases x with
  | empty =>
    cases h
    obtain ⟨-, rfl⟩ := (hempty.appends bs).mp happ
    rfl
  | typed v =>
    cases h
    obtain ⟨-, rfl⟩ := ((B.append_writes v).appends bs).mp happ
    exact hsize v
  | optional ps =>
    cases h
    obtain ⟨-, rfl⟩ := ((appendOptional_writes ps).appends bs).mp happ
    exact length_tlvsWire ps

theorem responseSize_countsTLVs (t : BodyType α) (empty : Nat)
    (hsize : ∀ v, optionalParametersSize (t.wrap v).optional ≤ size v) : CountsTLVs (responseSize t empty size) := by
  intro body n h
  rw [length_tlvsWire]
  rw [responseSize_eq] at h
  cases hx : responseValue t body with
  | error e =>
    rw [hx] at h
    cases h
  | ok x =>
    rw [hx] at h
    rcases (responseValue_ok t body x).mp hx with ⟨hbody, rfl⟩ | ⟨v, hbody, rfl⟩ | ⟨ps, hbody, rfl⟩ <;> cases h
    · rw [optionalParametersOf_isEmptyBody hbody]
      exact Nat.zero_le _
    · rw [optionalParametersOf_holds hbody]
      exact hsize v
    · rw [optionalParametersOf_holds hbody]
      exact le_rfl

end Switches

/-! ## The commands -/

/-- What the hint of a command says of its encoder. -/
structure Hinted (id : CommandID) (encode : Value → Append Unit) : Prop where
  sized : Sized (encodedBodySizeHint id) encode
  counts : isResponse id = true → CountsTLVs (encodedBodySizeHint id)

section Commands
variable {id : CommandID} {encode : Value → Append Unit}

theorem Hinted.none (h : encodedBodySizeHint id = fun _ => none) : Hinted id encode where
  sized body n bs hn := by
    rw [h] at hn
    cases hn
  counts _ body n hn := by
    rw [h] at hn
    cases hn

theorem Hinted.request {α : Type} (B : BodySpec α) {size : α → Nat} (h : encodedBodySizeHint id = requestSize B.type size)
    (hr : isResponse id = false) (hsize : ∀ v, (B.wire v).length = size v) :
    Hinted id (encodeRequest B.type B.append) where
  sized := h ▸ requestSize_sized B hsize
  counts hresp := by
    rw [hr] at hresp
    cases hresp

theorem Hinted.response {α : Type} (B : BodySpec α) {size : α → Nat}
    (h : encodedBodySizeHint id = responseSize B.type 0 size) (hsize : ∀ v, (B.wire v).length = size v)
    (hcounts : ∀ v, optionalParametersSize (B.type.wrap v).optional ≤ size v) :
    Hinted id (encodeResponse B.type B.append) where
  sized := h ▸ responseSize_sized B hsize .pure
  counts _ := h ▸ responseSize_countsTLVs B.type 0 hcounts

theorem Hinted.deliverResponse : Hinted commandDeliverSMResp encodeDeliverSMResp where
  sized := responseSize_sized deliverSMRespSpec MessageIDResp.length_wire messageIDResp_zero_encodes
  counts _ := responseSize_countsTLVs deliverSMRespType 1 fun _ => Nat.le_add_left _ _

theorem Hinted.messageIDResponse (type : BodyType MessageIDResp) (htype : ∀ v, (type.wrap v).optional = v.optional)
    (h : encodedBodySizeHint id = responseSize type 0 messageIDRespSize) :
    Hinted id (encodeResponse type appendMessageIDResp) :=
  .response (messageIDRespSpec type) h MessageIDResp.length_wire fun v => by
    show optionalParametersSize (type.wrap v).optional ≤ messageIDRespSize v
    rw [htype]
    exact Nat.le_add_left _ _

theorem Hinted.bindResponse (h : encodedBodySizeHint id = responseSize bindResponseType 0 bindResponseSize) :
    Hinted id encodeBindResponse :=
  .response bindResponseSpec h BindResponse.length_wire fun _ => Nat.le_add_left _ _

theorem Hinted.bindRequest (h : encodedBodySizeHint id = requestSize bindRequestType bindRequestSize)
    (hr : isResponse id = false) : Hinted id encodeBindRequest :=
  .request bindRequestSpec h hr BindRequest.length_wire

end Commands

/-- A definition whose encoder is the library's and hinted. -/
def CommandDefinition.IsHinted (d : CommandDefinition) : Prop :=
  ∃ encode, d.encode = some (.ofLib encode) ∧ Hinted d.id encode

theorem hinted_smpp34 : ∀ d ∈ smpp34Commands, d.IsHinted := by
  simp only [smpp34Commands, List.forall_mem_cons, List.not_mem_nil, false_implies, implies_true, and_true]
  exact ⟨⟨_, rfl, .none rfl⟩, ⟨_, rfl, .bindRequest rfl rfl⟩, ⟨_, rfl, .bindResponse rfl⟩,
    ⟨_, rfl, .bindRequest rfl rfl⟩, ⟨_, rfl, .bindResponse rfl⟩, ⟨_, rfl, .none rfl⟩, ⟨_, rfl, .none rfl⟩,
    ⟨_, rfl, .request (shortMessageSpec submitSMType) rfl rfl ShortMessageBody.length_wire⟩,
    ⟨_, rfl, .messageIDResponse submitSMRespType (fun _ => rfl) rfl⟩,
    ⟨_, rfl, .request (shortMessageSpec deliverSMType) rfl rfl ShortMessageBody.length_wire⟩,
    ⟨_, rfl, .deliverResponse⟩, ⟨_, rfl, .none rfl⟩, ⟨_, rfl, .none rfl⟩, ⟨_, rfl, .none rfl⟩, ⟨_, rfl, .none rfl⟩,
    ⟨_, rfl, .none rfl⟩, ⟨_, rfl, .none rfl⟩, ⟨_, rfl, .bindRequest rfl rfl⟩, ⟨_, rfl, .bindResponse rfl⟩,
    ⟨_, rfl, .none rfl⟩, ⟨_, rfl, .none rfl⟩, ⟨_, rfl, .none rfl⟩, ⟨_, rfl, .none rfl⟩, ⟨_, rfl, .none rfl⟩,
    ⟨_, rfl, .none rfl⟩, ⟨_, rfl, .request dataSMSpec rfl rfl DataSM.length_wire⟩,
    ⟨_, rfl, .messageIDResponse dataSMRespType (fun _ => rfl) rfl⟩⟩

theorem hinted_smpp50 : ∀ d ∈ smpp50Commands, d.IsHinted := by
  simp only [smpp50Commands, List.forall_mem_cons, List.not_mem_nil, false_implies, implies_true, and_true]
  exact ⟨⟨_, rfl, .request broadcastSMSpec rfl rfl BroadcastSM.length_wire⟩,
    ⟨_, rfl, .messageIDResponse broadcastSMRespType (fun _ => rfl) rfl⟩,
    ⟨_, rfl, .request queryBroadcastSMSpec rfl rfl QueryBroadcastSM.length_wire⟩,
    ⟨_, rfl, .messageIDResponse queryBroadcastSMRespType (fun _ => rfl) rfl⟩,
    ⟨_, rfl, .request cancelBroadcastSMSpec rfl rfl CancelBroadcastSM.length_wire⟩, ⟨_, rfl, .none rfl⟩⟩

theorem encodedBodySizeHint_raw (id : CommandID) (bs : Octets) : encodedBodySizeHint id (.raw bs) = none := by
  have branch {p : Prop} [Decidable p] {f g : Value → Option Nat} (hf : f (.raw bs) = none) (hg : g (.raw bs) = none) :
      (if p then f else g) (.raw bs) = none := by
    split
    · exact hf
    · exact hg
  exact branch rfl (branch rfl (branch rfl (branch rfl (branch rfl (branch rfl (branch rfl (branch rfl (branch rfl
    (branch rfl (branch rfl (branch rfl (branch rfl rfl))))))))))))

/-- **Size hints are exact.** The frame that `encodePDU` writes with an SMPP 5.0 registry is as long as the hint for its command
and body, and an error response at most that long. -/
theorem encodePDU_length {mode : RegistryMode} {r : Registry} (hr : newSMPP50Registry mode = .ok r) {header : Header}
    {body : Value} {n : Nat} {frame : Octets} (hn : encodedPDUSizeHint header.commandID body = some n)
    (hframe : encodePDU r [] header body = .returned (frame, none)) :
    (isResponse header.commandID = false ∨ header.commandStatus = statusOK → frame.length = n) ∧
    (isResponse header.commandID = true ∧ header.commandStatus ≠ statusOK → frame.length ≤ n) := by
  obtain ⟨m, hm, rfl⟩ := Option.map_eq_some_iff.mp hn
  rw [newSMPP50Registry_ok] at hr
  cases hr
  cases hd : (smpp50Registry mode).command header.commandID with
  | none =>
    obtain ⟨-, bs, rfl, -⟩ := encodePDU_unknown hd hframe
    rw [encodedBodySizeHint_raw] at hm
    cases hm
  | some d =>
    obtain ⟨hmem, hid⟩ := Registry.mem_of_command hd
    obtain ⟨encode, he, hsized, hcounts⟩ : d.IsHinted :=
      (List.mem_append.mp hmem).elim (hinted_smpp34 d) (hinted_smpp50 d)
    rw [hid] at hsized hcounts
    obtain ⟨bs, hw, -, rfl⟩ := (encodePDU_lib hd he [] body frame).mp hframe
    rw [List.nil_append, length_frameOf]
    constructor
    · intro hplain
      have happ : (encode body).Appends bs :=
        hplain.elim (fun hresp => (written_request hresp).mp hw) (fun hok => (written_ok hok).mp hw)
      rw [hsized body m bs hm happ]
    · rintro ⟨hresp, hstatus⟩
      obtain ⟨-, -, rfl⟩ := (written_error hresp hstatus).mp hw
      exact Nat.add_le_add_left (hcounts hresp body m hm) _

/-- A message_id of one octet and a TLV. -/
def answeredBody : Value := .struct (.deliverSMResp ⟨[65], [⟨0x0427, [2]⟩]⟩)

/-- The message_id is counted, and an error response leaves it out. -/
theorem encodePDU_length_deliverSMResp :
    encodedPDUSizeHint commandDeliverSMResp answeredBody = some 23 ∧
    (frameOf ⟨0, commandDeliverSMResp, statusOK, 1⟩ [65, 0, 4, 0x27, 0, 1, 2]).length = 23 ∧
    (frameOf ⟨0, commandDeliverSMResp, statusSystemError, 1⟩ [4, 0x27, 0, 1, 2]).length ≤ 23 := by
  have hsuccess : encodePDU (smpp50Registry .strict) [] ⟨0, commandDeliverSMResp, statusOK, 1⟩ answeredBody =
      .returned (frameOf ⟨0, commandDeliverSMResp, statusOK, 1⟩ [65, 0, 4, 0x27, 0, 1, 2], none) := by decide +kernel
  have hfailure : encodePDU (smpp50Registry .strict) [] ⟨0, commandDeliverSMResp, statusSystemError, 1⟩ answeredBody =
      .returned (frameOf ⟨0, commandDeliverSMResp, statusSystemError, 1⟩ [4, 0x27, 0, 1, 2], none) := by decide +kernel
  exact ⟨rfl, (encodePDU_length (newSMPP50Registry_ok .strict) rfl hsuccess).1 (.inr rfl),
    (encodePDU_length (newSMPP50Registry_ok .strict) rfl hfailure).2 ⟨by decide, by decide⟩⟩

end GoSmpp.Codec
