import GoSmpp.Codec.Pdu

/-!
# The standard commands as one format

* `bodyKind id`, `zeroBody id` : the body type of a standard command, and for a response its zero value;
* `bodyWire`, `BodyEncodable`, `BodyCanonical` : the wire form of a body, the bodies the encoders accept, and those
  among them that the decoders return;
* `CommandFormat` : the shape of a command's codec, with the proofs its shape needs;
* `exists_format` : every command of the standard tables is implemented by the code of its format. The results about
  PDUs go by cases on the format, five of them, and not on the command.
-/

namespace GoSmpp.Codec
open Lib Protocol

/-! ## Bodies -/

def bodyKinds : List (CommandID × Kind) :=
  [ (commandGenericNACK, .emptyBody), (commandBindReceiver, .bindRequest), (commandBindReceiverResp, .bindResponse),
    (commandBindTransmitter, .bindRequest), (commandBindTransmitterResp, .bindResponse), (commandQuerySM, .querySM),
    (commandQuerySMResp, .querySMResp), (commandSubmitSM, .submitSM), (commandSubmitSMResp, .submitSMResp),
    (commandDeliverSM, .deliverSM), (commandDeliverSMResp, .deliverSMResp), (commandUnbind, .emptyBody),
    (commandUnbindResp, .emptyBody), (commandReplaceSM, .replaceSM), (commandReplaceSMResp, .emptyBody),
    (commandCancelSM, .cancelSM), (commandCancelSMResp, .emptyBody), (commandBindTransceiver, .bindRequest),
    (commandBindTransceiverResp, .bindResponse), (commandOutbind, .outbind), (commandEnquireLink, .emptyBody),
    (commandEnquireLinkResp, .emptyBody), (commandSubmitMulti, .submitMulti),
    (commandSubmitMultiResp, .submitMultiResp), (commandAlertNotification, .alertNotification),
    (commandDataSM, .dataSM), (commandDataSMResp, .dataSMResp), (commandBroadcastSM, .broadcastSM),
    (commandBroadcastSMResp, .broadcastSMResp), (commandQueryBroadcastSM, .queryBroadcastSM),
    (commandQueryBroadcastSMResp, .queryBroadcastSMResp), (commandCancelBroadcastSM, .cancelBroadcastSM),
    (commandCancelBroadcastSMResp, .emptyBody) ]

def bodyKind (id : CommandID) : Option Kind := bodyKinds.lookup id

def bodyWire : Struct → Octets
  | .emptyBody => []
  | .optionalResponse v => tlvsWire v.optional
  | .bindRequest v => BindRequest.wire v
  | .bindResponse v => BindResponse.wire v
  | .submitSM v | .deliverSM v => ShortMessageBody.wire v
  | .submitSMResp v | .deliverSMResp v | .dataSMResp v | .broadcastSMResp v | .queryBroadcastSMResp v =>
    MessageIDResp.wire v
  | .dataSM v => DataSM.wire v
  | .querySM v => QuerySM.wire v
  | .querySMResp v => QuerySMResp.wire v
  | .cancelSM v => CancelSM.wire v
  | .replaceSM v => ReplaceSM.wire v
  | .alertNotification v => AlertNotification.wire v
  | .outbind v => Outbind.wire v
  | .submitMulti v => SubmitMulti.wire v
  | .submitMultiResp v => SubmitMultiResp.wire v
  | .broadcastSM v => BroadcastSM.wire v
  | .queryBroadcastSM v => QueryBroadcastSM.wire v
  | .cancelBroadcastSM v => CancelBroadcastSM.wire v

/-- The zero value of the body type of a response. -/
def zeroBody (id : CommandID) : Struct :=
  match bodyKind id with
  | some .bindResponse => .bindResponse ⟨[], []⟩
  | some .submitSMResp => .submitSMResp ⟨[], []⟩
  | some .deliverSMResp => .deliverSMResp ⟨[], []⟩
  | some .dataSMResp => .dataSMResp ⟨[], []⟩
  | some .querySMResp => .querySMResp ⟨[], [], 0, 0, []⟩
  | some .submitMultiResp => .submitMultiResp ⟨[], [], []⟩
  | some .broadcastSMResp => .broadcastSMResp ⟨[], []⟩
  | some .queryBroadcastSMResp => .queryBroadcastSMResp ⟨[], []⟩
  | _ => .emptyBody

/-- The bodies the encoders accept: every field fits. -/
def BodyEncodable : Struct → Prop
  | .emptyBody => True
  | .optionalResponse v => TLVsFit v.optional
  | .bindRequest v => BindRequest.Encodable v
  | .bindResponse v => BindResponse.Encodable v
  | .submitSM v | .deliverSM v => ShortMessageBody.Encodable v
  | .submitSMResp v | .deliverSMResp v | .dataSMResp v | .broadcastSMResp v | .queryBroadcastSMResp v =>
    MessageIDResp.Encodable v
  | .dataSM v => DataSM.Encodable v
  | .querySM v => QuerySM.Encodable v
  | .querySMResp v => QuerySMResp.Encodable v
  | .cancelSM v => CancelSM.Encodable v
  | .replaceSM v => ReplaceSM.Encodable v
  | .alertNotification v => AlertNotification.Encodable v
  | .outbind v => Outbind.Encodable v
  | .submitMulti v => SubmitMulti.Encodable v
  | .submitMultiResp v => SubmitMultiResp.Encodable v
  | .broadcastSM v => BroadcastSM.Encodable v
  | .queryBroadcastSM v => QueryBroadcastSM.Encodable v
  | .cancelBroadcastSM v => CancelBroadcastSM.Encodable v

/-- What a decoded body has beyond its fields fitting: an sc_interface_version of a bind response is one octet long,
and a distribution list of submit_multi has TON and NPI zero. -/
def BodyCanonical : Struct → Prop
  | .bindResponse v => ∀ p ∈ v.optional, p.tag = tlvTagSCInterfaceVersion → p.value.length = 1
  | .submitMulti v => ∀ d ∈ v.destinations, d.flag = destinationDistributionList → d.ton = 0 ∧ d.npi = 0
  | _ => True

theorem bindResponse_canonical_iff (v : BindResponse) :
    BindResponse.Canonical v ↔ BodyCanonical (.bindResponse v) := by
  simp only [BindResponse.Canonical, BodyCanonical, scInterfaceVersionOK]
  refine forall₂_congr fun p _ => ?_
  by_cases h : p.tag = tlvTagSCInterfaceVersion <;> simp [h]

/-- The specification of a body type says what the three functions above say of its values. -/
structure BodySpec.Agrees {α : Type} (B : BodySpec α) : Prop where
  wire : ∀ v, B.wire v = bodyWire (B.type.wrap v) := by intro v; rfl
  encodable : ∀ v, B.Encodable v ↔ BodyEncodable (B.type.wrap v) := by intro v; rfl
  canonical : ∀ v, B.Canonical v ↔ BodyCanonical (B.type.wrap v) := by intro v; rfl

/-! ## Formats -/

/-- A request body: whatever the encoder accepts it writes as some body the decoder returns. -/
structure RequestFormat (α : Type) extends BodySpec α where
  agrees : toBodySpec.Agrees
  canonical : ∀ v, Encodable v → ∃ v', wire v' = wire v ∧ Encodable v' ∧ Canonical v'

/-- A response body with the zero value that stands for a missing one. -/
structure ResponseFormat (α : Type) extends BodySpec α where
  agrees : toBodySpec.Agrees
  zero : α
  zero_encodable : Encodable zero
  zero_optional : (type.wrap zero).optional = []
  zero_body : ∀ id, bodyKind id = some type.kind → type.wrap zero = zeroBody id := by intro id h; unfold zeroBody; rw [h]; rfl
  fits : ∀ v, Encodable v → TLVsFit (type.wrap v).optional
  wire_ne_nil : ∀ v, wire v ≠ []
  canonical_of_wire : ∀ v v', Encodable v → Encodable v' → wire v = wire v' → Canonical v' → Canonical v

/-- The shapes of the standard command codecs. -/
inductive CommandFormat where
  | emptyRequest
  | request {α : Type} (F : RequestFormat α)
  | response {α : Type} (F : ResponseFormat α)
  | deliverResponse
  | emptyResponse

def CommandFormat.decode : CommandFormat → Header → Octets → Except Err Value
  | .emptyRequest => decodeRequestEmpty
  | .request F => decodeRequest F.type F.read
  | .response F => fun header => decodeResponse F.type F.zero (F.read header) header
  | .deliverResponse => decodeDeliverSMResp
  | .emptyResponse => decodeResponseEmpty

def CommandFormat.encode : CommandFormat → Value → Append Unit
  | .emptyRequest => encodeEmpty
  | .request F => encodeRequest F.type F.append
  | .response F => encodeResponse F.type F.append
  | .deliverResponse => encodeDeliverSMResp
  | .emptyResponse => encodeResponseEmpty

theorem CommandFormat.encode_fails {f : CommandFormat} {body : Value} {e : Err} (h : (f.encode body).err = some e) :
    Refusal e := by
  cases f with
  | emptyRequest => exact encodeEmpty_fails h
  | request F => exact encodeRequest_fails F.toBodySpec h
  | response F => exact encodeResponseOr_fails F.toBodySpec .pure h
  | deliverResponse => exact encodeResponseOr_fails deliverSMRespSpec messageIDResp_zero_encodes h
  | emptyResponse => exact encodeResponseEmpty_fails h

def CommandFormat.isResponse : CommandFormat → Bool
  | .emptyRequest | .request _ => false
  | .response _ | .deliverResponse | .emptyResponse => true

def CommandFormat.kind : CommandFormat → Kind
  | .emptyRequest | .emptyResponse => .emptyBody
  | .request F => F.type.kind
  | .response F => F.type.kind
  | .deliverResponse => .deliverSMResp

def CommandFormat.isDeliverResponse : CommandFormat → Bool
  | .deliverResponse => true
  | _ => false

/-- The definition's decoder and encoder are those of the format. -/
structure CommandDefinition.Implements (d : CommandDefinition) (f : CommandFormat) : Prop where
  decode : d.decode = some (.ofLib f.decode) := by rfl
  encode : d.encode = some (.ofLib f.encode) := by rfl
  isResponse : isResponse d.id = f.isResponse := by decide
  kind : bodyKind d.id = some f.kind := by decide
  deliver : d.id = commandDeliverSMResp ↔ f.isDeliverResponse = true := by decide

/-! ## The formats of the standard commands -/

/-- A request body every encodable value of which is canonical. -/
def RequestFormat.plain {α : Type} (B : BodySpec α) (agrees : B.Agrees) (h : ∀ v, B.Canonical v) : RequestFormat α :=
  { B with agrees, canonical := fun v hv => ⟨v, rfl, hv, h v⟩ }

/-- The destination as the decoder would return it. -/
def Destination.canonicalize (d : SubmitMultiDestination) : SubmitMultiDestination :=
  if d.flag = destinationDistributionList then { d with ton := 0, npi := 0 } else d

theorem Destination.wire_canonicalize (d : SubmitMultiDestination) :
    Destination.wire (Destination.canonicalize d) = Destination.wire d := by
  unfold Destination.canonicalize
  split
  · next h => simp [Destination.wire, h, destinationSME_ne.symm]
  · rfl

theorem Destination.canonicalize_encodable {d : SubmitMultiDestination} (h : Destination.Encodable d) :
    Destination.Encodable (Destination.canonicalize d) := by
  unfold Destination.canonicalize
  split <;> exact h

theorem Destination.canonicalize_canonical (d : SubmitMultiDestination) :
    Destination.Canonical (Destination.canonicalize d) := by
  unfold Destination.canonicalize
  split
  · exact fun _ => ⟨rfl, rfl⟩
  · next h => exact fun h' => absurd h' h

def submitMultiFormat : RequestFormat SubmitMulti where
  toBodySpec := submitMultiSpec
  agrees := {}
  canonical v hv := by
    obtain ⟨hlen, h1, h2, h3, h4, hd, h5⟩ := hv
    refine ⟨{ v with destinations := v.destinations.map Destination.canonicalize }, ?_, ?_, ?_⟩
    · have hw : (v.destinations.map Destination.canonicalize).flatMap Destination.wire =
          v.destinations.flatMap Destination.wire := by
        rw [List.flatMap_map]
        exact congrArg (List.flatMap · v.destinations) (funext Destination.wire_canonicalize)
      simp only [submitMultiSpec, SubmitMulti.wire, hw, List.length_map]
    · refine ⟨by simpa using hlen, h1, h2, h3, h4, ?_, h5⟩
      intro d hmem
      obtain ⟨e, he, rfl⟩ := List.mem_map.mp hmem
      exact Destination.canonicalize_encodable (hd e he)
    · intro d hmem
      obtain ⟨e, _, rfl⟩ := List.mem_map.mp hmem
      exact Destination.canonicalize_canonical e

theorem BindResponse.wire_inj {v v' : BindResponse} (h : BindResponse.Encodable v) (h' : BindResponse.Encodable v')
    (hw : BindResponse.wire v = BindResponse.wire v') : v = v' := by
  obtain ⟨hid, hps⟩ := append_nul_inj h.1.1 h'.1.1 hw
  cases v
  cases v'
  cases hid
  cases tlvsWire_inj h.2 h'.2 hps
  rfl

def bindResponseFormat : ResponseFormat BindResponse where
  toBodySpec := bindResponseSpec
  agrees := { canonical := bindResponse_canonical_iff }
  zero := ⟨[], []⟩
  zero_encodable := by simp [bindResponseSpec, BindResponse.Encodable, CString, TLVsFit]
  zero_optional := rfl
  fits _ h := h.2
  wire_ne_nil v := by simp [bindResponseSpec, BindResponse.wire]
  canonical_of_wire v v' h h' hw hc := by
    obtain rfl := BindResponse.wire_inj h h' hw
    exact hc

/-- What the body types of a message_id and TLVs have in common. -/
structure MessageIDBody (type : BodyType MessageIDResp) : Prop extends (messageIDRespSpec type).Agrees where
  optional : ∀ v, (type.wrap v).optional = v.optional := by intro v; rfl
  zero_body : ∀ id, bodyKind id = some type.kind → type.wrap ⟨[], []⟩ = zeroBody id := by
    intro id h; unfold zeroBody; rw [h]; rfl

/-- The four message_id responses of the common shape. -/
def messageIDRespFormat (type : BodyType MessageIDResp) (h : MessageIDBody type) : ResponseFormat MessageIDResp where
  toBodySpec := messageIDRespSpec type
  agrees := h.toAgrees
  zero := ⟨[], []⟩
  zero_encodable := messageIDResp_zero_encodable
  zero_optional := h.optional _
  zero_body := h.zero_body
  fits v hv := by
    rw [show ((messageIDRespSpec type).type.wrap v).optional = v.optional from h.optional v]
    exact hv.2
  wire_ne_nil v := by simp [messageIDRespSpec, MessageIDResp.wire]
  canonical_of_wire _ _ _ _ _ h := h

def querySMRespFormat : ResponseFormat QuerySMResp where
  toBodySpec := querySMRespSpec
  agrees := {}
  zero := ⟨[], [], 0, 0, []⟩
  zero_encodable := by simp [querySMRespSpec, QuerySMResp.Encodable, CString, TLVsFit]
  zero_optional := rfl
  fits _ h := h.2.2
  wire_ne_nil v := by simp [querySMRespSpec, QuerySMResp.wire]
  canonical_of_wire _ _ _ _ _ h := h

def submitMultiRespFormat : ResponseFormat SubmitMultiResp where
  toBodySpec := submitMultiRespSpec
  agrees := {}
  zero := ⟨[], [], []⟩
  zero_encodable := by simp [submitMultiRespSpec, SubmitMultiResp.Encodable, CString, TLVsFit]
  zero_optional := rfl
  fits _ h := h.2.2.2
  wire_ne_nil v := by simp [submitMultiRespSpec, SubmitMultiResp.wire]
  canonical_of_wire _ _ _ _ _ h := h

def bindRequestFormat : RequestFormat BindRequest := .plain bindRequestSpec {} fun _ => trivial
def submitSMFormat : RequestFormat ShortMessageBody := .plain (shortMessageSpec submitSMType) {} fun _ => trivial
def deliverSMFormat : RequestFormat ShortMessageBody := .plain (shortMessageSpec deliverSMType) {} fun _ => trivial
def dataSMFormat : RequestFormat DataSM := .plain dataSMSpec {} fun _ => trivial
def querySMFormat : RequestFormat QuerySM := .plain querySMSpec {} fun _ => trivial
def cancelSMFormat : RequestFormat CancelSM := .plain cancelSMSpec {} fun _ => trivial
def replaceSMFormat : RequestFormat ReplaceSM := .plain replaceSMSpec {} fun _ => trivial
def alertNotificationFormat : RequestFormat AlertNotification := .plain alertNotificationSpec {} fun _ => trivial
def outbindFormat : RequestFormat Outbind := .plain outbindSpec {} fun _ => trivial
def broadcastSMFormat : RequestFormat BroadcastSM := .plain broadcastSMSpec {} fun _ => trivial
def queryBroadcastSMFormat : RequestFormat QueryBroadcastSM := .plain queryBroadcastSMSpec {} fun _ => trivial
def cancelBroadcastSMFormat : RequestFormat CancelBroadcastSM := .plain cancelBroadcastSMSpec {} fun _ => trivial

theorem exists_format34 : ∀ d ∈ smpp34Commands, ∃ f, d.Implements f := by
  simp only [smpp34Commands, List.forall_mem_cons, List.not_mem_nil, false_implies, implies_true, and_true]
  exact ⟨⟨.emptyResponse, {}⟩, ⟨.request bindRequestFormat, {}⟩, ⟨.response bindResponseFormat, {}⟩,
    ⟨.request bindRequestFormat, {}⟩, ⟨.response bindResponseFormat, {}⟩, ⟨.request querySMFormat, {}⟩,
    ⟨.response querySMRespFormat, {}⟩, ⟨.request submitSMFormat, {}⟩,
    ⟨.response (messageIDRespFormat submitSMRespType {}), {}⟩, ⟨.request deliverSMFormat, {}⟩,
    ⟨.deliverResponse, {}⟩, ⟨.emptyRequest, {}⟩, ⟨.emptyResponse, {}⟩, ⟨.request replaceSMFormat, {}⟩,
    ⟨.emptyResponse, {}⟩, ⟨.request cancelSMFormat, {}⟩, ⟨.emptyResponse, {}⟩, ⟨.request bindRequestFormat, {}⟩,
    ⟨.response bindResponseFormat, {}⟩, ⟨.request outbindFormat, {}⟩, ⟨.emptyRequest, {}⟩, ⟨.emptyResponse, {}⟩,
    ⟨.request submitMultiFormat, {}⟩, ⟨.response submitMultiRespFormat, {}⟩,
    ⟨.request alertNotificationFormat, {}⟩, ⟨.request dataSMFormat, {}⟩,
    ⟨.response (messageIDRespFormat dataSMRespType {}), {}⟩⟩

theorem exists_format50 : ∀ d ∈ smpp50Commands, ∃ f, d.Implements f := by
  simp only [smpp50Commands, List.forall_mem_cons, List.not_mem_nil, false_implies, implies_true, and_true]
  exact ⟨⟨.request broadcastSMFormat, {}⟩, ⟨.response (messageIDRespFormat broadcastSMRespType {}), {}⟩,
    ⟨.request queryBroadcastSMFormat, {}⟩, ⟨.response (messageIDRespFormat queryBroadcastSMRespType {}), {}⟩,
    ⟨.request cancelBroadcastSMFormat, {}⟩, ⟨.emptyResponse, {}⟩⟩

section Standard
variable {r : Registry} {id : CommandID} {d : CommandDefinition}

/-- What holds of the commands of both tables. -/
theorem Registry.IsStandard.forall_command {P : CommandDefinition → Prop} (hr : r.IsStandard)
    (h34 : ∀ d ∈ smpp34Commands, P d) (h50 : ∀ d ∈ smpp50Commands, P d) (hd : r.command id = some d) : d.id = id ∧ P d := by
  obtain ⟨hmem, hid⟩ := Registry.mem_of_command hd
  refine ⟨hid, ?_⟩
  rcases hr.commands with hc | hc <;> rw [hc] at hmem
  · exact h34 d hmem
  · exact (List.mem_append.mp hmem).elim (h34 d) (h50 d)

/-- **Every command of a standard registry is implemented by the code of its format.** -/
theorem exists_format (hr : r.IsStandard) (hd : r.command id = some d) : d.id = id ∧ ∃ f, d.Implements f :=
  hr.forall_command exists_format34 exists_format50 hd

theorem of_not_isResponse {p : Prop} (h : isResponse id = false) (hresp : isResponse id = true) : p :=
  Bool.noConfusion (h.symm.trans hresp)

end Standard

end GoSmpp.Codec
