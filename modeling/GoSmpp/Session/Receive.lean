import GoSmpp.Session.Basic

/-!
# Package `session`: the RX loop

`processFrame`, `handleRequest` and `beginInbound` of `session/rx.go`, `queueResponse` of `session/tx.go`, the version
negotiation of `session/negotiate.go` and `registerDeferredReply` of `session/inbound_reply.go`, cut at the points where
the loop touches what it shares with other goroutines: `processFrame` up to the state check of a request or the removal
of the pending request a response answers, `beginRequest` up to the handler, `handled` up to the TX queue. `rxStep` is one
step of the loop.
-/

namespace GoSmpp.Session
open Lib Protocol Codec

/-! ## Negotiation -/

def scInterfaceVersion (optional : List OptionalParameter) : Option InterfaceVersion :=
  (optional.find? fun p => p.tag == tlvTagSCInterfaceVersion && p.value.length == 1).bind (·.value.head?)

def bindRequestVersion : Value → Option InterfaceVersion
  | .struct (.bindRequest r) | .ptr (.bindRequest r) => some r.interfaceVersion
  | _ => none

/-- `bindNegotiationProfile`, the empty profile where it is not negotiable. -/
def bindNegotiationProfile (localProfile : Profile) (advertised : InterfaceVersion) : Profile :=
  if advertised = interfaceVersion34 then smpp34Profile
  else if advertised = interfaceVersion50 ∧ localProfile.isSMPP50 then smpp50Profile
  else ⟨0⟩

def appendIfMissing (version : InterfaceVersion) (r : BindResponse) : BindResponse :=
  if r.optional.any (·.tag == tlvTagSCInterfaceVersion) then r
  else { r with optional := r.optional ++ [{ tag := tlvTagSCInterfaceVersion, value := [version] }] }

def ensureSCInterfaceVersion (body : Value) (version : InterfaceVersion) : Value :=
  match body with
  | .struct (.bindResponse r) | .ptr (.bindResponse r) => .struct (.bindResponse (appendIfMissing version r))
  | body => body

def requiresSMPP50 (command : CommandID) : Bool :=
  command == commandBroadcastSM || command == commandBroadcastSMResp || command == commandQueryBroadcastSM ||
    command == commandQueryBroadcastSMResp || command == commandCancelBroadcastSM ||
    command == commandCancelBroadcastSMResp

/-! ## Queueing responses -/

/-- What becomes of the loop when `queueResponse` returns an error. -/
def AfterQueue.failed : AfterQueue → Err → RxPhase
  | .ignore, _ => .reading
  | .fail, err => .failing err
  | .cancel command, err => .cancelling command err

def emptyBody : Value := .struct .emptyBody

/-- `queueResponse` up to its `select`. -/
def queueResponse (s : Session) (request : Header) (id : CommandID) (status : CommandStatus) (body : Value)
    (reserved : Bool) : Except Err TxItem :=
  let header := responseHeader request id status
  match encodeFrame s.config.registry header body with
  | .error err => .error err
  | .ok frame =>
    .ok { kind := .response, header, frame, sequence := request.sequenceNumber
          responseTo := if id = commandGenericNACK then 0 else request.commandID, status, reserved }

def respond (s : Session) (request : Header) (id : CommandID) (status : CommandStatus) (body : Value)
    (reserved : Bool) (next : AfterQueue) : RxPhase :=
  match s.queueResponse request id status body reserved with
  | .ok item => .queueing item next
  | .error err => next.failed err

/-- `queueGenericNACK`. -/
def nack (s : Session) (request : Header) (status : CommandStatus) (next : AfterQueue) : RxPhase :=
  s.respond request commandGenericNACK status emptyBody false next

/-! ## Requests -/

def actorMatchesRole : CommandActor → Role → Bool
  | .esme, role => role == .esme
  | .smsc, role => role == .smsc
  | .any, _ => true

/-- `Session.beginInbound`: the machine afterwards. -/
def beginInbound (s : Session) (command : CommandID) : Except Err StateMachine :=
  let peerRole := s.machine.role.peer
  let refused := Except.error (.state s.machine.state command peerRole)
  if isStandardCommand command then s.machine.beginInbound command
  else
    match s.config.registry.command command with
    | some d =>
      if d.allowedStates ≠ [] then
        if actorMatchesRole d.actor peerRole && d.allowsState s.machine.state then .ok s.machine else refused
      else if isBoundState s.machine.state then .ok s.machine else refused
    | none => if isBoundState s.machine.state then .ok s.machine else refused

def noHandlerResponse (command : CommandID) : Response :=
  { status := if isBindRequest command then statusBindFailed else statusSystemError, body := emptyBody }

def registerDeferredReply (s : Session) (request : Header) : Except Err Session :=
  if (s.deferredReplies.lookup request.sequenceNumber).isSome then .error (.sentinel .deferredResponseBusy)
  else if s.config.maxDeferredResponses ≤ s.deferredReplies.length then .error (.sentinel .deferredResponseLimit)
  else .ok { s with deferredReplies := (request.sequenceNumber, false) :: s.deferredReplies }

/-- The version negotiation of an accepted bind: the peer's capabilities and the body of the response. -/
def acceptBind (s : Session) (pdu : DecodedPDU) (response : Response) : Session × Value :=
  match pdu.body with
  | .struct (.bindRequest bind) =>
    if CommandStatus.ok response.status && isBindRequest pdu.header.commandID then
      ({ s with peerCaps := negotiatePeerCapabilities s.config.profile bind.interfaceVersion true },
        if bind.interfaceVersion = interfaceVersion34 ∨ bind.interfaceVersion = interfaceVersion50 then
          ensureSCInterfaceVersion response.body s.config.profile.interfaceVersion
        else response.body)
    else (s, response.body)
  | _ => (s, response.body)

/-- The end of `handleRequest`: the response is queued. -/
def answer (s : Session) (pdu : DecodedPDU) (response : Response) : Session :=
  let command := pdu.header.commandID
  let reserved := isLifecycleRequest command
  let next : AfterQueue := if reserved then .cancel command else .fail
  let (s, body) := s.acceptBind pdu response
  { s with rx :=
      match s.queueResponse pdu.header (responseID command) response.status body reserved with
      | .ok item => .queueing item next
      -- a panicking encoder is answered for by a generic_nack
      | .error err => if err.isPanic then s.nack pdu.header statusSystemError next else next.failed err }

/-- `handleRequest` after the handler, or what stands for it, has responded. -/
def dispatchResponse (s : Session) (pdu : DecodedPDU) (response : Response) : Session :=
  match response.action with
  | .immediate => s.answer pdu response
  | action =>
    if pdu.header.commandID ≠ commandDeliverSM then { s with rx := .failing (.sentinel .invalidResponseAction) }
    else
      match action with
      | .suppress => { s with rx := .reading }
      | .deferred =>
        match s.registerDeferredReply pdu.header with
        | .ok s => { s with rx := .reading }
        | .error err => { s with rx := .failing err }
      | _ => { s with rx := .failing (.sentinel .invalidResponseAction) }

/-- `handleRequest` up to `beginInbound`. -/
def checkRequest (s : Session) (pdu : DecodedPDU) : RxPhase :=
  if !validInbound pdu.header.sequenceNumber then s.nack pdu.header statusSystemError .fail
  else if (s.config.registry.command pdu.header.commandID).isNone then s.nack pdu.header statusInvalidCommandID .fail
  else if requiresSMPP50 pdu.header.commandID && !s.peerCaps.supportsSMPP50 then
    s.nack pdu.header statusInvalidCommandID .fail
  else .beginning pdu

/-- The answer to a request that the state check refuses. -/
def refuse (s : Session) (request : Header) : RxPhase :=
  if isOneWayCommand request.commandID then s.nack request statusInvalidBindState .fail
  else s.respond request (responseID request.commandID) statusInvalidBindState emptyBody false .fail

/-- `handleRequest` from `beginInbound` up to the handler. -/
def beginRequest (s : Session) (pdu : DecodedPDU) : Session :=
  let command := pdu.header.commandID
  match s.beginInbound command with
  | .error _ => { s with rx := s.refuse pdu.header }
  | .ok machine =>
    let s := { s with machine }
    if isOneWayCommand command then { s with rx := if s.config.handler then .handling pdu else .reading }
    else if command = commandEnquireLink ∨ command = commandUnbind then
      s.dispatchResponse pdu { status := statusOK, body := emptyBody }
    else if !s.config.handler then s.dispatchResponse pdu (noHandlerResponse command)
    else { s with rx := .handling pdu }

abbrev Handled := Outcome (Except Err Response)

/-- `handleRequest` after the handler. -/
def handled (s : Session) (pdu : DecodedPDU) (outcome : Handled) : Session :=
  if isOneWayCommand pdu.header.commandID then { s with rx := .reading }
  else
    match outcome with
    | .returned (.ok response) => s.dispatchResponse pdu response
    | _ => s.dispatchResponse pdu { status := statusSystemError, body := emptyBody }

/-- Only what the RX loop has to itself differs: its point, the capabilities it stores, the replies it registers. -/
def RxLocal (s s' : Session) : Prop :=
  s' = { s with rx := s'.rx, peerCaps := s'.peerCaps, deferredReplies := s'.deferredReplies }

theorem acceptBind_local (s : Session) (pdu : DecodedPDU) (response : Response) :
    RxLocal s (s.acceptBind pdu response).1 := by
  unfold acceptBind
  split
  · split <;> rfl
  · rfl

theorem answer_local (s : Session) (pdu : DecodedPDU) (response : Response) : RxLocal s (s.answer pdu response) := by
  have h := s.acceptBind_local pdu response
  unfold answer RxLocal at *
  simp only
  rw [h]

theorem dispatchResponse_local (s : Session) (pdu : DecodedPDU) (response : Response) :
    RxLocal s (s.dispatchResponse pdu response) := by
  unfold dispatchResponse
  split
  · exact s.answer_local pdu response
  · split
    · rfl
    · split
      · rfl
      · unfold registerDeferredReply
        split
        · next h =>
          split at h
          · cases h
          · split at h
            · cases h
            · cases h; rfl
        · rfl
      · rfl

theorem handled_local (s : Session) (pdu : DecodedPDU) (outcome : Handled) : RxLocal s (s.handled pdu outcome) := by
  unfold handled
  split
  · rfl
  · split <;> exact s.dispatchResponse_local pdu _

theorem beginInbound_ok {s : Session} {command : CommandID} {m : StateMachine} (h : s.beginInbound command = .ok m) :
    m = s.machine ∨ s.machine.beginInbound command = .ok m := by
  unfold Session.beginInbound at h
  simp only at h
  split at h
  · exact .inr h
  · left
    split at h
    · split at h
      · split at h <;> cases h; rfl
      · split at h <;> cases h; rfl
    · split at h <;> cases h; rfl

theorem beginRequest_cases (s : Session) (pdu : DecodedPDU) :
    (∃ err, s.beginInbound pdu.header.commandID = .error err ∧
      s.beginRequest pdu = { s with rx := s.refuse pdu.header }) ∨
    ∃ m, s.beginInbound pdu.header.commandID = .ok m ∧ RxLocal { s with machine := m } (s.beginRequest pdu) := by
  unfold beginRequest
  cases h : s.beginInbound pdu.header.commandID with
  | error err => exact .inl ⟨err, rfl, by simp only [h]⟩
  | ok m =>
    refine .inr ⟨m, rfl, ?_⟩
    simp only [h]
    split
    · rfl
    · split
      · exact dispatchResponse_local _ pdu _
      · split
        · exact dispatchResponse_local _ pdu _
        · rfl

/-! ## Frames -/

/-- The status a frame that cannot be decoded is refused with. -/
def decodeErrorStatus (err : Err) : CommandStatus :=
  match err.asSemantic with
  | some semantic => if semantic.status ≠ 0 then semantic.status else statusInvalidMessageLength
  | none => statusInvalidMessageLength

/-- `processFrame` up to its first step on the shared state. -/
def processFrame (s : Session) (frame : Octets) : Session :=
  match decodePDU s.config.registry frame with
  | .error err =>
    if err.asFatal.isSome then { s with rx := .failing err }
    else
      match decodeHeader frame with
      | .error headerErr => { s with rx := .failing headerErr }
      | .ok header => { s with rx := s.nack header (decodeErrorStatus err) .ignore }
  | .ok pdu =>
    if isResponse pdu.header.commandID then
      -- a late, unmatched or duplicate response is dropped
      match s.ledger.takeResponse pdu with
      | some ledger => { s with ledger }
      | none => s
    else { s with rx := s.checkRequest pdu }

/-- The arms of the loop's `select`s, and what its handler does. -/
inductive RxChoice where
  | go
  | done
  | handled (outcome : Handled)
  deriving DecidableEq, Repr

def rxStep (s : Session) (choice : RxChoice) : Option Session :=
  match s.rx, choice with
  | .beginning pdu, .go => some (s.beginRequest pdu)
  | .handling pdu, .handled outcome => some (s.handled pdu outcome)
  | .queueing item _, .go => (s.enqueue item).map fun s => { s with rx := .reading }
  | .queueing _ next, .done =>
    if s.termination.done then some { s with rx := next.failed s.requestCloseError } else none
  | .cancelling command err, .go =>
    some { s with machine := s.machine.cancelInbound command, rx := .failing err }
  | .failing err, .go => some { s.terminate err with rx := .stopped }
  | .terminating, .go => if s.termination = .finished then some { s with rx := .reading } else none
  | _, _ => none

end GoSmpp.Session
