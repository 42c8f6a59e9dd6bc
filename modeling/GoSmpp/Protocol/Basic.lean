import GoSmpp.Lib.Octets

/-!
# Package `protocol`: commands, statuses, sequence numbers, session states, versions

The wire-level scalars are the source's own fixed-width integers. `isResponse`, `requestID` and `responseID` are
the bit-31 helpers of `protocol/command.go`.
-/

namespace GoSmpp.Protocol

/-! ## Commands -/

abbrev CommandID := UInt32

def commandGenericNACK : CommandID := 0x80000000
def commandBindReceiver : CommandID := 0x00000001
def commandBindReceiverResp : CommandID := 0x80000001
def commandBindTransmitter : CommandID := 0x00000002
def commandBindTransmitterResp : CommandID := 0x80000002
def commandQuerySM : CommandID := 0x00000003
def commandQuerySMResp : CommandID := 0x80000003
def commandSubmitSM : CommandID := 0x00000004
def commandSubmitSMResp : CommandID := 0x80000004
def commandDeliverSM : CommandID := 0x00000005
def commandDeliverSMResp : CommandID := 0x80000005
def commandUnbind : CommandID := 0x00000006
def commandUnbindResp : CommandID := 0x80000006
def commandReplaceSM : CommandID := 0x00000007
def commandReplaceSMResp : CommandID := 0x80000007
def commandCancelSM : CommandID := 0x00000008
def commandCancelSMResp : CommandID := 0x80000008
def commandBindTransceiver : CommandID := 0x00000009
def commandBindTransceiverResp : CommandID := 0x80000009
def commandOutbind : CommandID := 0x0000000B
def commandEnquireLink : CommandID := 0x00000015
def commandEnquireLinkResp : CommandID := 0x80000015
def commandSubmitMulti : CommandID := 0x00000021
def commandSubmitMultiResp : CommandID := 0x80000021
def commandAlertNotification : CommandID := 0x00000102
def commandDataSM : CommandID := 0x00000103
def commandDataSMResp : CommandID := 0x80000103
def commandBroadcastSM : CommandID := 0x00000111
def commandBroadcastSMResp : CommandID := 0x80000111
def commandQueryBroadcastSM : CommandID := 0x00000112
def commandQueryBroadcastSMResp : CommandID := 0x80000112
def commandCancelBroadcastSM : CommandID := 0x00000113
def commandCancelBroadcastSMResp : CommandID := 0x80000113

def responseMask : CommandID := 0x80000000

/-- `CommandID.IsResponse`: bit 31 is set. -/
def isResponse (c : CommandID) : Bool := c &&& responseMask != 0

/-- `CommandID.RequestID`: bit 31 cleared. -/
def requestID (c : CommandID) : CommandID := c &&& ~~~responseMask

/-- `CommandID.ResponseID`: bit 31 set. -/
def responseID (c : CommandID) : CommandID := c ||| responseMask

/-! ## Statuses -/

abbrev CommandStatus := UInt32

def statusOK : CommandStatus := 0x00000000
def statusInvalidMessageLength : CommandStatus := 0x00000001
def statusInvalidCommandLength : CommandStatus := 0x00000002
def statusInvalidCommandID : CommandStatus := 0x00000003
def statusInvalidBindState : CommandStatus := 0x00000004
def statusSystemError : CommandStatus := 0x00000008
def statusBindFailed : CommandStatus := 0x0000000D
def statusInvalidNumberOfDestinations : CommandStatus := 0x00000033
def statusInvalidParameterLength : CommandStatus := 0x000000C2
def statusInvalidOptionalParameterValue : CommandStatus := 0x000000C4

def CommandStatus.ok (s : CommandStatus) : Bool := s == statusOK

/-! ## Sequence numbers -/

abbrev SequenceNumber := UInt32

def sequenceMin : SequenceNumber := 0x00000001
def sequenceOutboundMax : SequenceNumber := 0x7FFFFFFF
def sequenceInboundMax : SequenceNumber := 0xFFFFFFFF

def validInbound (s : SequenceNumber) : Bool := sequenceMin ≤ s && s ≤ sequenceInboundMax

/-! ## Session states -/

inductive SessionState where
  | closed
  | «open»
  | outbound
  | boundTX
  | boundRX
  | boundTRX
  | unbound
  deriving DecidableEq, Repr

/-! ## Roles -/

/-- `session.Role`. `New` refuses any other. -/
inductive Role where
  | esme
  | smsc
  deriving DecidableEq, Repr

def Role.peer : Role → Role
  | .esme => .smsc
  | .smsc => .esme

/-! ## Versions -/

abbrev InterfaceVersion := UInt8

def interfaceVersion34 : InterfaceVersion := 0x34
def interfaceVersion50 : InterfaceVersion := 0x50

structure Profile where
  interfaceVersion : InterfaceVersion
  deriving DecidableEq, Repr

def smpp34Profile : Profile := ⟨interfaceVersion34⟩
def smpp50Profile : Profile := ⟨interfaceVersion50⟩

def Profile.valid (p : Profile) : Bool :=
  p.interfaceVersion == interfaceVersion34 || p.interfaceVersion == interfaceVersion50

def Profile.isSMPP50 (p : Profile) : Bool := p.interfaceVersion == interfaceVersion50

structure PeerCapabilities where
  peerVersion : InterfaceVersion := 0
  negotiatedVersion : InterfaceVersion := 0
  versionAdvertised : Bool := false
  supportsTLV : Bool := false
  supportsSMPP50 : Bool := false
  deriving DecidableEq, Repr

def negotiatePeerCapabilities (localProfile : Profile) (peer : InterfaceVersion) (advertised : Bool) : PeerCapabilities :=
  let caps : PeerCapabilities := { peerVersion := peer, versionAdvertised := advertised }
  if !localProfile.valid || !advertised then caps
  else if peer = interfaceVersion34 then { caps with negotiatedVersion := interfaceVersion34, supportsTLV := true }
  else if peer = interfaceVersion50 then
    if localProfile.interfaceVersion = interfaceVersion50 then
      { caps with supportsTLV := true, negotiatedVersion := interfaceVersion50, supportsSMPP50 := true }
    else { caps with supportsTLV := true, negotiatedVersion := interfaceVersion34 }
  else caps

end GoSmpp.Protocol
