import GoSmpp.Lib.Run
import GoSmpp.Session.Receive

/-!
# Package `session`: the steps of a session

Every step is one operation on the shared state by one goroutine, with the local work before it: `callStep` for
`Session.request`, `sendStep` for `SendOneWay`, `taskStep` for the completion of a request, `rxStep` and `txStep` for the
two loops, `fire` for the deadline loop and `termStep` for `terminate`. A `Label` says whose turn it is and how it
chooses; `step` is the session as a step system, `sessions`.
-/

namespace GoSmpp.Session
open Lib Protocol Codec

/-- The arm a caller's `select` takes: the channel operation, the context, or the closed `done`. -/
inductive Arm where
  | go
  | ctx
  | done
  deriving DecidableEq, Repr

/-! ## `Session.request` -/

def goto (s : Session) (i : Nat) (phase : Phase) : Session := { s with ledger := s.ledger.goto i phase }

/-- The checks `request` makes of its arguments. -/
def requestError (s : Session) (k : Call) : Option Err :=
  if isResponse k.command || isOneWayCommand k.command then
    some (.wrapped ("command " ++ hex32 k.command ++ " does not have synchronous request semantics")
      (.sentinel .unexpectedPDU))
  else if isBindRequest k.command && bindRequestVersion k.body == some interfaceVersion50 &&
      !s.config.profile.isSMPP50 then
    some (.wrapped ("local profile " ++ hex8 s.config.profile.interfaceVersion ++ " cannot advertise SMPP 5.0")
      (.sentinel .unsupportedCapability))
  else if requiresSMPP50 k.command && !s.peerCaps.supportsSMPP50 then
    some (.wrapped ("command " ++ hex32 k.command ++ " requires SMPP 5.0") (.sentinel .unsupportedCapability))
  else none

def acquire (s : Session) (i : Nat) : Option Session :=
  if s.ledger.tokens < s.config.windowSize then
    some { s with ledger := { s.ledger with tokens := s.ledger.tokens + 1 }.goto i .beginning }
  else none

/-- The call takes its result from the completion channel and returns it. -/
def receive (s : Session) (i : Nat) (k : Call) : Option Session :=
  match k.done with
  | r :: _ => some { s with ledger := s.ledger.modify i fun k => { k with done := [], phase := .returned r } }
  | [] => none

/-- The caller's context is done: it returns if it can complete its request, and else waits for whoever did. -/
def abandon (s : Session) (i : Nat) (k : Call) : Session :=
  let err := Err.sentinel .contextDone
  match s.ledger.completeError (.caller i) k.sequence err [] with
  | some ledger => { s with ledger := ledger.goto i (.cancelling false (.error err)) }
  | none => s.goto i .blocked

def requestHeader (k : Call) : Header :=
  { commandID := k.command, commandStatus := statusOK, sequenceNumber := k.sequence }

def callStep (s : Session) (i : Nat) (k : Call) (arm : Arm) : Option Session :=
  match k.phase, arm with
  | .checking, .go =>
    some (match s.requestError k with
      | some err => s.goto i (.returned (.error err))
      | none => s.goto i .entering)
  | .entering, .go =>
    some (if s.termination.done then s.goto i (.returned (.error s.requestCloseError)) else s.goto i .acquiring)
  | .acquiring, .go =>
    match s.acquire i with
    | some s => some s
    | none => some (if k.waitWindow then s.goto i .awaitingSlot
        else s.goto i (.returned (.error (.sentinel .windowFull))))
  | .awaitingSlot, .go => s.acquire i
  | .awaitingSlot, .ctx => some (s.goto i (.returned (.error (.sentinel .contextDone))))
  | .awaitingSlot, .done =>
    if s.termination.done then some (s.goto i (.returned (.error s.requestCloseError))) else none
  | .beginning, .go =>
    some (match s.machine.beginOutbound k.command with
      | .error err => s.goto i (.releasing (.error err))
      | .ok machine => { s with machine }.goto i (.drawing 0))
  | .drawing n, .go =>
    let sequence := s.ledger.nextSequence
    some { s with ledger := { s.ledger with sequence }.modify i fun k => { k with sequence, phase := .inserting n } }
  | .inserting n, .go =>
    some (match s.ledger.insert s.config.maxPending k.sequence i with
      | .ok ledger => { s with ledger := ledger.goto i .encoding }
      | .error .sequenceInUse =>
        if n < s.config.maxPending then s.goto i (.drawing (n + 1))
        else s.goto i (.cancelling true (.error (.sentinel .sequenceExhausted)))
      | .error err => s.goto i (.cancelling true (.error (.sentinel err))))
  | .encoding, .go =>
    some (match encodeFrame s.config.registry (requestHeader k) k.body with
      | .ok frame => s.goto i (.admitting frame)
      | .error err =>
        let ledger := (s.ledger.completeError (.caller i) k.sequence err []).getD s.ledger
        { s with ledger := ledger.goto i (.cancelling false (.error err)) })
  | .admitting frame, .go => do
    let s ← s.enqueue { kind := .request, header := requestHeader k, frame, sequence := k.sequence, requestID := k.command }
    some (s.goto i .waiting)
  | .admitting _, .ctx => some (s.abandon i k)
  | .admitting _, .done => if s.termination.done then some (s.goto i .blocked) else none
  | .waiting, .go => s.receive i k
  | .waiting, .ctx => some (s.abandon i k)
  | .blocked, .go => s.receive i k
  | .cancelling owned r, .go =>
    some ({ s with machine := s.machine.cancelOutbound k.command }.goto i (if owned then .releasing r else .returned r))
  | .releasing r, .go => some { s with ledger := s.ledger.release.goto i (.returned r) }
  | _, _ => none

/-! ## Completing a request -/

/-- The version negotiation of `handleResponse`. -/
def negotiated (s : Session) (k : Call) (pdu : DecodedPDU) : PeerCapabilities :=
  match pdu.body with
  | .struct (.bindResponse r) =>
    if CommandStatus.ok pdu.header.commandStatus && isBindRequest k.command then
      let version := scInterfaceVersion r.optional
      negotiatePeerCapabilities (bindNegotiationProfile s.config.profile ((bindRequestVersion k.body).getD 0))
        (version.getD 0) version.isSome
    else s.peerCaps
  | _ => s.peerCaps

/-- The next stage of a goroutine's task. -/
def taskStep (s : Session) (o : Owner) : Option Session := do
  let (t, l) ← s.ledger.nextTask o
  let k ← l.calls[t.call]?
  match t.todo, t.result with
  | .finish :: rest, _ => (l.finish t rest).map fun ledger => { s with ledger }
  | .unschedule :: rest, _ => some { s with ledger := (l.unschedule t.call).resume t rest }
  | .release :: rest, _ =>
    some { s with ledger := (l.release.modify t.call fun k => { k with released := k.released + 1 }).resume t rest }
  | .send :: rest, _ => (l.send t).map fun l => { s with ledger := l.resume t rest }
  | .complete :: rest, .ok pdu =>
    some { s with
      machine := s.machine.completeOutbound k.command pdu.header.commandStatus, ledger := l.resume t rest }
  | .negotiate :: rest, .ok pdu => some { s with peerCaps := s.negotiated k pdu, ledger := l.resume t rest }
  | .close :: rest, .ok pdu =>
    let s := { s with ledger := l.resume t rest }
    some (if k.command = commandUnbind ∧ CommandStatus.ok pdu.header.commandStatus then
      { s.terminate (.sentinel .sessionClosed) with rx := .terminating } else s)
  | .cancel :: rest, _ => some { s with machine := s.machine.cancelOutbound k.command, ledger := l.resume t rest }
  | _, _ => none

/-! ## `SendOneWay` -/

def gotoSend (s : Session) (i : Nat) (phase : SendPhase) : Session :=
  { s with sends := s.sends.modify i fun k => { k with phase } }

def sendStep (s : Session) (i : Nat) (k : Send) (arm : Arm) : Option Session :=
  match k.phase, arm with
  | .entering, .go =>
    some (if !isOneWayCommand k.command then
        s.gotoSend i (.returned (some (.wrapped ("command " ++ hex32 k.command ++ " is not a one-way SMPP primitive")
          (.sentinel .unexpectedPDU))))
      else if s.termination.done then s.gotoSend i (.returned (some s.requestCloseError))
      else s.gotoSend i .beginning)
  | .beginning, .go =>
    some (match s.machine.beginOutbound k.command with
      | .error err => s.gotoSend i (.returned (some err))
      | .ok machine => { s with machine }.gotoSend i .encoding)
  | .encoding, .go =>
    let sequence := s.ledger.nextSequence
    let header : Header := { commandID := k.command, commandStatus := statusOK, sequenceNumber := sequence }
    let s := { s with ledger := { s.ledger with sequence } }
    some (match encodeFrame s.config.registry header k.body with
      | .error err => s.gotoSend i (.cancelling err)
      | .ok frame =>
        s.gotoSend i (.admitting { kind := .oneWay, header, frame, sequence, requestID := k.command, source := i }))
  | .admitting item, .go => do
    let s ← s.enqueue item
    some (s.gotoSend i .waiting)
  | .admitting _, .ctx => some (s.gotoSend i (.cancelling (.sentinel .contextDone)))
  | .admitting _, .done => if s.termination.done then some (s.gotoSend i (.cancelling s.requestCloseError)) else none
  | .waiting, .go => k.dispatched.map fun err => s.gotoSend i (.returned err)
  | .waiting, .done => if s.termination.done then some (s.gotoSend i (.returned (some s.requestCloseError))) else none
  | .cancelling err, .go =>
    some ({ s with machine := s.machine.cancelOutbound k.command }.gotoSend i (.returned (some err)))
  | _, _ => none

/-! ## The TX loop -/

/-- What the environment chooses for the TX loop: that it goes on, that it takes the closed `done`, or that a write fails. -/
inductive TxChoice where
  | go
  | stop
  | fail (err : Err)
  deriving DecidableEq, Repr

def txItemActive (s : Session) (item : TxItem) : Bool := item.kind != .request || s.ledger.exists item.sequence

def batchFull (s : Session) (batch : List TxItem) : Bool :=
  (batch.getLast?.any (·.terminates)) || s.config.txBatchItems ≤ batch.length ||
    s.config.txBatchBytes ≤ (batch.map (·.frame.length)).sum

/-- `dispatched <- err` for a one-way item. -/
def dispatch (s : Session) (item : TxItem) (err : Option Err) : Session :=
  if item.kind = .oneWay then
    { s with sends := s.sends.modify item.source fun k => { k with dispatched := some err } }
  else s

def txStep (s : Session) (choice : TxChoice) : Option Session :=
  match s.tx, choice with
  | .idle, .go =>
    match s.queue with
    | item :: queue => some { s with queue, tx := .checking item [] }
    | [] => none
  | .idle, .stop => if s.termination.done then some { s with tx := .stopped } else none
  | .checking item batch, .go =>
    some { s with tx :=
      if s.txItemActive item then .gathering (batch ++ [item]) else if batch = [] then .idle else .gathering batch }
  | .gathering batch, .go =>
    match s.queue with
    | item :: queue =>
      some (if s.batchFull batch then { s with tx := .committing batch batch }
        else { s with queue, tx := .checking item batch })
    | [] => some { s with tx := .committing batch batch }
  | .committing (item :: rest) batch, .go =>
    some { s with
      machine := if item.kind = .response ∧ item.responseTo ≠ 0 then
        s.machine.completeInbound item.responseTo item.status else s.machine
      tx := .committing rest batch }
  | .committing [] batch, .go => some { s with tx := .writing batch batch }
  | .writing (item :: rest) batch, .go => some { s with wire := s.wire ++ [item.frame], tx := .writing rest batch }
  | .writing (_ :: _) batch, .fail err =>
    let s := batch.foldl (fun s item => s.dispatch item (some err)) s
    some { s.terminate err with tx := .stopped }
  | .writing [] batch, .go => some { s with tx := .finishing batch }
  | .finishing (item :: rest), .go =>
    match item.kind with
    | .request =>
      some { s with tx :=
        match s.ledger.pending.lookup item.sequence with
        | some call => .scheduling { call, command := item.requestID, sequence := item.sequence } rest
        | none => .finishing rest }
    | .response =>
      some (if item.terminates then { s.terminate (.sentinel .sessionClosed) with tx := .stopped }
        else { s with tx := .finishing rest })
    | .oneWay => some { s.dispatch item none with tx := .finishing rest }
  | .finishing [], .go => some { s with tx := .idle }
  | .scheduling item rest, .go =>
    some (if s.config.timesOut item.command then
        { s with ledger := { s.ledger with heap := item :: s.ledger.heap }, tx := .attaching item.call rest }
      else { s with tx := .finishing rest })
  | .attaching call rest, .go => do
    let k ← s.ledger.calls[call]?
    some { s with
      ledger := if k.finished then s.ledger.unschedule call else s.ledger.modify call fun k => { k with deadline := true }
      tx := .finishing rest }
  | _, _ => none

/-! ## The deadline loop and `terminate` -/

def expire (s : Session) (call : Nat) : Option Session := do
  let item ← s.ledger.heap.find? (·.call == call)
  some { s with ledger := s.ledger.unschedule call, expired := s.expired ++ [item] }

/-- `expireDeadline`. -/
def fire (s : Session) : Option Session :=
  match s.expired with
  | item :: expired =>
    if s.ledger.idle .deadline then
      let err := Err.timeout (timeoutKindFor item.command) item.command item.sequence
      some { s with ledger := (s.ledger.completeError .deadline item.sequence err [.cancel]).getD s.ledger, expired }
    else none
  | [] => none

def termStep (s : Session) : Option Session :=
  match s.termination with
  | .closing => some { s with machine := s.machine.close, termination := .ending }
  | .ending => some { s with termination := .sweeping }
  | .sweeping => some { s with ledger := s.ledger.failAll s.requestCloseError, termination := .clearing }
  | .clearing => if s.ledger.idle .sweep then some { s with deferredReplies := [], termination := .finished } else none
  | .running | .finished => none

/-! ## The system -/

inductive Label where
  /-- a goroutine calls `Request` or `TryRequest` -/
  | request (command : CommandID) (body : Value) (waitWindow : Bool)
  | call (i : Nat) (arm : Arm)
  | task (o : Owner)
  /-- a goroutine calls `SendOneWay` -/
  | sendOneWay (command : CommandID) (body : Value)
  | send (i : Nat) (arm : Arm)
  /-- the RX loop takes the next frame from the framer -/
  | frame (frame : Octets)
  | rx (choice : RxChoice)
  | tx (choice : TxChoice)
  | expire (call : Nat)
  | fire
  /-- `Close`, a liveness deadline, or the end of the connection -/
  | terminate (cause : Err)
  | term
  deriving DecidableEq, Repr

def step (s : Session) : Label → Option Session
  | .request command body waitWindow =>
    some { s with ledger := { s.ledger with calls := s.ledger.calls ++ [{ command, body, waitWindow }] } }
  | .call i arm => do
    let k ← s.ledger.calls[i]?
    if s.ledger.idle (.caller i) then s.callStep i k arm else none
  | .task o => s.taskStep o
  | .sendOneWay command body => some { s with sends := s.sends ++ [{ command, body }] }
  | .send i arm => do s.sendStep i (← s.sends[i]?) arm
  | .frame frame => if s.rx = .reading ∧ s.ledger.idle .rx then some (s.processFrame frame) else none
  | .rx choice => s.rxStep choice
  | .tx choice => s.txStep choice
  | .expire call => s.expire call
  | .fire => s.fire
  | .terminate cause => some (s.terminate cause)
  | .term => s.termStep

theorem step_call {s s' : Session} {i : Nat} {arm : Arm} (h : s.step (.call i arm) = some s') :
    ∃ k, s.ledger.calls[i]? = some k ∧ s.ledger.idle (.caller i) ∧ s.callStep i k arm = some s' := by
  obtain ⟨k, hk, h⟩ := Option.bind_eq_some_iff.mp h
  split at h
  · next hi => exact ⟨k, hk, hi, h⟩
  · cases h

theorem step_send {s s' : Session} {i : Nat} {arm : Arm} (h : s.step (.send i arm) = some s') :
    ∃ k, s.sends[i]? = some k ∧ s.sendStep i k arm = some s' := Option.bind_eq_some_iff.mp h

theorem step_frame {s s' : Session} {frame : Octets} (h : s.step (.frame frame) = some s') :
    s.rx = .reading ∧ s.ledger.idle .rx ∧ s' = s.processFrame frame := by
  by_cases hr : s.rx = .reading ∧ s.ledger.idle .rx
  · rw [show s.step (.frame frame) = some (s.processFrame frame) from if_pos hr] at h
    cases h
    exact ⟨hr.1, hr.2, rfl⟩
  · rw [show s.step (.frame frame) = none from if_neg hr] at h
    cases h

def sessions : System Session Label where
  step := step

end GoSmpp.Session
