import GoSmpp.Protocol.Basic

/-!
# Package `protocol`: PDU bodies

The body structures of `protocol/pdu.go`, `protocol/pdu34_extra.go` and `protocol/pdu50.go`, field by field and in
the source's order, and `Value`, the dynamic values Go passes as `any` where a body is expected. A Go `[]byte` is an
octet list, so a nil and an empty slice are one value.
-/

namespace GoSmpp.Protocol
open Lib (Octets)

abbrev TON := UInt8
abbrev NPI := UInt8
abbrev DataCoding := UInt8
abbrev MessageState := UInt8
abbrev DestinationFlag := UInt8

def tlvTagReceiptedMessageID : UInt16 := 0x001e
def tlvTagSARMsgRefNum : UInt16 := 0x020c
def tlvTagSARTotalSegments : UInt16 := 0x020e
def tlvTagSARSegmentSeqnum : UInt16 := 0x020f
def tlvTagSCInterfaceVersion : UInt16 := 0x0210
def tlvTagMessagePayload : UInt16 := 0x0424
def tlvTagMessageState : UInt16 := 0x0427

def dataCodingSMSCDefault : DataCoding := 0x00
def dataCodingOctetBinary2 : DataCoding := 0x04
def dataCodingUCS2 : DataCoding := 0x08

def destinationSME : DestinationFlag := 1
def destinationDistributionList : DestinationFlag := 2

/-- `protocol.OptionalParameter`: one TLV. -/
structure OptionalParameter where
  tag : UInt16
  value : Octets
  deriving DecidableEq, Repr

structure OptionalResponse where
  optional : List OptionalParameter
  deriving DecidableEq, Repr

structure BindRequest where
  systemID : Octets
  password : Octets
  systemType : Octets
  interfaceVersion : InterfaceVersion
  addressTON : TON
  addressNPI : NPI
  addressRange : Octets
  deriving DecidableEq, Repr

structure BindResponse where
  systemID : Octets
  optional : List OptionalParameter
  deriving DecidableEq, Repr

/-- The common layout of `protocol.SubmitSM` and `protocol.DeliverSM`, which is also `codec.shortMessageBody`: the
two Go types have the same fields in the same order and are told apart by their `Struct` constructor. -/
structure ShortMessageBody where
  serviceType : Octets
  sourceAddrTON : TON
  sourceAddrNPI : NPI
  sourceAddr : Octets
  destAddrTON : TON
  destAddrNPI : NPI
  destinationAddr : Octets
  esmClass : UInt8
  protocolID : UInt8
  priorityFlag : UInt8
  scheduleDeliveryTime : Octets
  validityPeriod : Octets
  registeredDelivery : UInt8
  replaceIfPresentFlag : UInt8
  dataCoding : DataCoding
  smDefaultMsgID : UInt8
  shortMessage : Octets
  optional : List OptionalParameter
  deriving DecidableEq, Repr

/-- The common layout of the five response bodies that are a message_id and TLVs: `SubmitSMResp`, `DeliverSMResp`,
`DataSMResp`, `BroadcastSMResp`, `QueryBroadcastSMResp`. -/
structure MessageIDResp where
  messageID : Octets
  optional : List OptionalParameter
  deriving DecidableEq, Repr

structure SubmitMultiDestination where
  flag : DestinationFlag
  ton : TON
  npi : NPI
  address : Octets
  deriving DecidableEq, Repr

structure UnsuccessfulSME where
  destAddrTON : TON
  destAddrNPI : NPI
  destinationAddr : Octets
  errorStatusCode : CommandStatus
  deriving DecidableEq, Repr

structure SubmitMulti where
  serviceType : Octets
  sourceAddrTON : TON
  sourceAddrNPI : NPI
  sourceAddr : Octets
  destinations : List SubmitMultiDestination
  esmClass : UInt8
  protocolID : UInt8
  priorityFlag : UInt8
  scheduleDeliveryTime : Octets
  validityPeriod : Octets
  registeredDelivery : UInt8
  replaceIfPresentFlag : UInt8
  dataCoding : DataCoding
  smDefaultMsgID : UInt8
  shortMessage : Octets
  optional : List OptionalParameter
  deriving DecidableEq, Repr

structure SubmitMultiResp where
  messageID : Octets
  unsuccessful : List UnsuccessfulSME
  optional : List OptionalParameter
  deriving DecidableEq, Repr

structure DataSM where
  serviceType : Octets
  sourceAddrTON : TON
  sourceAddrNPI : NPI
  sourceAddr : Octets
  destAddrTON : TON
  destAddrNPI : NPI
  destinationAddr : Octets
  esmClass : UInt8
  registeredDelivery : UInt8
  dataCoding : DataCoding
  optional : List OptionalParameter
  deriving DecidableEq, Repr

structure QuerySM where
  messageID : Octets
  sourceAddrTON : TON
  sourceAddrNPI : NPI
  sourceAddr : Octets
  deriving DecidableEq, Repr

structure QuerySMResp where
  messageID : Octets
  finalDate : Octets
  messageState : MessageState
  errorCode : UInt8
  optional : List OptionalParameter
  deriving DecidableEq, Repr

structure CancelSM where
  serviceType : Octets
  messageID : Octets
  sourceAddrTON : TON
  sourceAddrNPI : NPI
  sourceAddr : Octets
  destAddrTON : TON
  destAddrNPI : NPI
  destinationAddr : Octets
  deriving DecidableEq, Repr

structure ReplaceSM where
  messageID : Octets
  sourceAddrTON : TON
  sourceAddrNPI : NPI
  sourceAddr : Octets
  scheduleDeliveryTime : Octets
  validityPeriod : Octets
  registeredDelivery : UInt8
  smDefaultMsgID : UInt8
  shortMessage : Octets
  deriving DecidableEq, Repr

structure AlertNotification where
  sourceAddrTON : TON
  sourceAddrNPI : NPI
  sourceAddr : Octets
  esmeAddrTON : TON
  esmeAddrNPI : NPI
  esmeAddr : Octets
  optional : List OptionalParameter
  deriving DecidableEq, Repr

structure Outbind where
  systemID : Octets
  password : Octets
  deriving DecidableEq, Repr

structure BroadcastSM where
  serviceType : Octets
  sourceAddrTON : TON
  sourceAddrNPI : NPI
  sourceAddr : Octets
  messageID : Octets
  priorityFlag : UInt8
  scheduleDeliveryTime : Octets
  validityPeriod : Octets
  replaceIfPresentFlag : UInt8
  dataCoding : DataCoding
  smDefaultMsgID : UInt8
  optional : List OptionalParameter
  deriving DecidableEq, Repr

structure QueryBroadcastSM where
  messageID : Octets
  sourceAddrTON : TON
  sourceAddrNPI : NPI
  sourceAddr : Octets
  optional : List OptionalParameter
  deriving DecidableEq, Repr

structure CancelBroadcastSM where
  serviceType : Octets
  messageID : Octets
  sourceAddrTON : TON
  sourceAddrNPI : NPI
  sourceAddr : Octets
  optional : List OptionalParameter
  deriving DecidableEq, Repr

/-! ## Dynamic values -/

/-- The body types of package `protocol`. -/
inductive Kind where
  | emptyBody | optionalResponse | bindRequest | bindResponse
  | submitSM | submitSMResp | deliverSM | deliverSMResp | dataSM | dataSMResp
  | querySM | querySMResp | cancelSM | replaceSM | alertNotification | outbind
  | submitMulti | submitMultiResp
  | broadcastSM | broadcastSMResp | queryBroadcastSM | queryBroadcastSMResp | cancelBroadcastSM
  deriving DecidableEq, Repr

/-- The type's name without its package. -/
def Kind.name : Kind → String
  | .emptyBody => "EmptyBody"
  | .optionalResponse => "OptionalResponse"
  | .bindRequest => "BindRequest"
  | .bindResponse => "BindResponse"
  | .submitSM => "SubmitSM"
  | .submitSMResp => "SubmitSMResp"
  | .deliverSM => "DeliverSM"
  | .deliverSMResp => "DeliverSMResp"
  | .dataSM => "DataSM"
  | .dataSMResp => "DataSMResp"
  | .querySM => "QuerySM"
  | .querySMResp => "QuerySMResp"
  | .cancelSM => "CancelSM"
  | .replaceSM => "ReplaceSM"
  | .alertNotification => "AlertNotification"
  | .outbind => "Outbind"
  | .submitMulti => "SubmitMulti"
  | .submitMultiResp => "SubmitMultiResp"
  | .broadcastSM => "BroadcastSM"
  | .broadcastSMResp => "BroadcastSMResp"
  | .queryBroadcastSM => "QueryBroadcastSM"
  | .queryBroadcastSMResp => "QueryBroadcastSMResp"
  | .cancelBroadcastSM => "CancelBroadcastSM"

/-- A value of one of the body types of package `protocol`. -/
inductive Struct where
  | emptyBody
  | optionalResponse (v : OptionalResponse)
  | bindRequest (v : BindRequest)
  | bindResponse (v : BindResponse)
  | submitSM (v : ShortMessageBody)
  | submitSMResp (v : MessageIDResp)
  | deliverSM (v : ShortMessageBody)
  | deliverSMResp (v : MessageIDResp)
  | dataSM (v : DataSM)
  | dataSMResp (v : MessageIDResp)
  | querySM (v : QuerySM)
  | querySMResp (v : QuerySMResp)
  | cancelSM (v : CancelSM)
  | replaceSM (v : ReplaceSM)
  | alertNotification (v : AlertNotification)
  | outbind (v : Outbind)
  | submitMulti (v : SubmitMulti)
  | submitMultiResp (v : SubmitMultiResp)
  | broadcastSM (v : BroadcastSM)
  | broadcastSMResp (v : MessageIDResp)
  | queryBroadcastSM (v : QueryBroadcastSM)
  | queryBroadcastSMResp (v : MessageIDResp)
  | cancelBroadcastSM (v : CancelBroadcastSM)
  deriving DecidableEq, Repr

def Struct.kind : Struct → Kind
  | .emptyBody => .emptyBody
  | .optionalResponse _ => .optionalResponse
  | .bindRequest _ => .bindRequest
  | .bindResponse _ => .bindResponse
  | .submitSM _ => .submitSM
  | .submitSMResp _ => .submitSMResp
  | .deliverSM _ => .deliverSM
  | .deliverSMResp _ => .deliverSMResp
  | .dataSM _ => .dataSM
  | .dataSMResp _ => .dataSMResp
  | .querySM _ => .querySM
  | .querySMResp _ => .querySMResp
  | .cancelSM _ => .cancelSM
  | .replaceSM _ => .replaceSM
  | .alertNotification _ => .alertNotification
  | .outbind _ => .outbind
  | .submitMulti _ => .submitMulti
  | .submitMultiResp _ => .submitMultiResp
  | .broadcastSM _ => .broadcastSM
  | .broadcastSMResp _ => .broadcastSMResp
  | .queryBroadcastSM _ => .queryBroadcastSM
  | .queryBroadcastSMResp _ => .queryBroadcastSMResp
  | .cancelBroadcastSM _ => .cancelBroadcastSM

/-- A Go value of type `any` in body position: nil, a body or a pointer to one (nil or not), `codec.RawBody`, or a
value of any other type, of which the codec only ever reads the type's name and the `Optional` field. -/
inductive Value where
  | nil
  | struct (s : Struct)
  | ptr (s : Struct)
  | nilPtr (k : Kind)
  | raw (body : Octets)
  | other (typeName : String) (optional : List OptionalParameter)
  deriving DecidableEq, Repr

/-- What `%T` prints for the value. -/
def Value.typeName : Value → String
  | .nil => "<nil>"
  | .struct s => "protocol." ++ s.kind.name
  | .ptr s => "*protocol." ++ s.kind.name
  | .nilPtr k => "*protocol." ++ k.name
  | .raw _ => "codec.RawBody"
  | .other name _ => name

/-- The `Optional` field of a body, `[]` where its type has none. -/
def Struct.optional : Struct → List OptionalParameter
  | .optionalResponse v => v.optional
  | .bindResponse v => v.optional
  | .submitSM v | .deliverSM v => v.optional
  | .submitSMResp v | .deliverSMResp v | .dataSMResp v | .broadcastSMResp v | .queryBroadcastSMResp v => v.optional
  | .dataSM v => v.optional
  | .querySMResp v => v.optional
  | .alertNotification v => v.optional
  | .submitMulti v => v.optional
  | .submitMultiResp v => v.optional
  | .broadcastSM v => v.optional
  | .queryBroadcastSM v => v.optional
  | .cancelBroadcastSM v => v.optional
  | .emptyBody | .bindRequest _ | .querySM _ | .cancelSM _ | .replaceSM _ | .outbind _ => []

end GoSmpp.Protocol
