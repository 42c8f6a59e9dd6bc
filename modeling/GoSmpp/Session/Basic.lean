import GoSmpp.Session.Ledger

/-!
# Package `session`: the state of a session

A `Session` is the state its goroutines share, and for each goroutine the point it has reached: the callers of `Request`
(in the ledger) and of `SendOneWay`, the RX and TX loops, the deadline loop, and whoever runs `terminate`.

The window observer, metrics, events, packet traces, round-trip times, flow control and the clock are not modelled: they
are written and never read by what is. A deadline that has been scheduled may expire at any time.
-/

namespace GoSmpp.Session
open Lib Protocol Codec

/-- `session.Config`, after `New` has filled in the defaults. -/
structure Config where
  profile : Profile := smpp34Profile
  registry : Registry := smpp34Registry .compatible
  windowSize : Nat := 1024
  maxPending : Nat := 1024
  maxDeferredResponses : Nat := 1024
  txQueueSize : Nat := 1024
  txBatchItems : Nat := 32
  txBatchBytes : Nat := 65536
  /-- `ResponseTimeout > 0` -/
  responseTimeout : Bool := true
  /-- `EnquireLinkTimeout > 0` -/
  enquireLinkTimeout : Bool := true
  /-- `Handler != nil` -/
  handler : Bool := false

/-- `responseTimeoutFor` is positive. -/
def Config.timesOut (c : Config) (command : CommandID) : Bool :=
  c.responseTimeout || (command == commandEnquireLink && c.enquireLinkTimeout)

/-- The `TimeoutKind` of `responseTimeoutFor`. -/
def timeoutKindFor (command : CommandID) : TimeoutKind :=
  if command = commandEnquireLink then .enquireLink else .response

/-! ## The TX queue -/

inductive TxKind where
  | request
  | response
  | oneWay
  deriving DecidableEq, Repr

/-- `session.txItem`. `source` is the call of `SendOneWay` for `dispatched`; `reserved` is history: the machine accepted
the lifecycle request this is the answer of. -/
structure TxItem where
  kind : TxKind
  header : Header
  frame : Octets
  sequence : SequenceNumber
  requestID : CommandID := 0
  responseTo : CommandID := 0
  status : CommandStatus := 0
  source : Nat := 0
  reserved : Bool := false
  deriving DecidableEq, Repr

/-- `txItemTerminatesAfterWrite`. -/
def TxItem.terminates (item : TxItem) : Bool :=
  item.kind == .response && item.responseTo == commandUnbind && CommandStatus.ok item.status

/-! ## The goroutines -/

inductive ResponseAction where
  | immediate
  | suppress
  | deferred
  | other
  deriving DecidableEq, Repr

structure Response where
  status : CommandStatus
  body : Value
  action : ResponseAction := .immediate
  deriving DecidableEq, Repr

/-- What the RX loop does when `queueResponse` returns an error. -/
inductive AfterQueue where
  /-- the error is dropped -/
  | ignore
  /-- it is returned -/
  | fail
  /-- it is returned after `CancelInbound` -/
  | cancel (command : CommandID)
  deriving DecidableEq, Repr

inductive RxPhase where
  /-- between two frames -/
  | reading
  /-- before `beginInbound` -/
  | beginning (pdu : DecodedPDU)
  /-- in the handler -/
  | handling (pdu : DecodedPDU)
  /-- in the `select` of `queueResponse` -/
  | queueing (item : TxItem) (next : AfterQueue)
  /-- before `CancelInbound` -/
  | cancelling (command : CommandID) (err : Err)
  /-- `processFrame` has returned an error -/
  | failing (err : Err)
  /-- in the `terminate` that follows the response to an unbind -/
  | terminating
  | stopped
  deriving DecidableEq, Repr

inductive TxPhase where
  | idle
  /-- before `txItemActive` -/
  | checking (item : TxItem) (batch : List TxItem)
  /-- before taking more items into the batch -/
  | gathering (batch : List TxItem)
  /-- before `CompleteInbound` for the rest of the batch -/
  | committing (rest : List TxItem) (batch : List TxItem)
  /-- before writing the rest of the batch -/
  | writing (rest : List TxItem) (batch : List TxItem)
  /-- before the bookkeeping for the rest of the batch -/
  | finishing (rest : List TxItem)
  /-- before `scheduleItemAt` for a request -/
  | scheduling (item : DeadlineItem) (rest : List TxItem)
  /-- before `attachDeadline` -/
  | attaching (call : Nat) (rest : List TxItem)
  | stopped
  deriving DecidableEq, Repr

inductive SendPhase where
  | entering
  | beginning
  | encoding
  | admitting (item : TxItem)
  | waiting
  | cancelling (err : Err)
  | returned (err : Option Err)
  deriving DecidableEq, Repr

/-- One call of `Session.SendOneWay`; `dispatched` is its channel. -/
structure Send where
  command : CommandID
  body : Value
  phase : SendPhase := .entering
  dispatched : Option (Option Err) := none
  deriving DecidableEq, Repr

inductive Termination where
  | running
  /-- before `machine.Close` -/
  | closing
  /-- before `close(s.done)` -/
  | ending
  /-- before `pending.failAll` -/
  | sweeping
  /-- completing the requests `failAll` took, before the deferred replies are cleared -/
  | clearing
  | finished
  deriving DecidableEq, Repr

/-- `s.done` is closed. -/
def Termination.done : Termination → Bool
  | .running | .closing | .ending => false
  | .sweeping | .clearing | .finished => true

end GoSmpp.Session

namespace GoSmpp
open Lib Protocol Codec Session

structure Session where
  config : Config
  machine : StateMachine
  peerCaps : PeerCapabilities := {}
  ledger : Ledger := {}
  /-- `s.tx` -/
  queue : List TxItem := []
  rx : RxPhase := .reading
  tx : TxPhase := .idle
  /-- the frames written to the connection that the peer has not read -/
  wire : List Octets := []
  sends : List Send := []
  /-- the deadlines that have expired and have not been handled -/
  expired : List DeadlineItem := []
  deferredReplies : List (SequenceNumber × Bool) := []
  termination : Termination := .running
  closeErr : Option Err := none

end GoSmpp

namespace GoSmpp.Session
open Lib Protocol Codec

/-- `New`: a session on an established connection. -/
def new (config : Config) (role : Role) : Session := { config, machine := { role, state := .open } }

def requestCloseError (s : Session) : Err :=
  match s.closeErr with
  | none => .sentinel .sessionClosed
  | some err => if err.is .sessionClosed then .sentinel .sessionClosed else .loss err

/-- The call of `terminate`: the first one starts it. -/
def terminate (s : Session) (cause : Err) : Session :=
  if s.termination = .running then { s with termination := .closing, closeErr := some cause } else s

/-- `s.tx <- item`, which blocks while the queue is full. -/
def enqueue (s : Session) (item : TxItem) : Option Session :=
  if s.queue.length < s.config.txQueueSize then some { s with queue := s.queue ++ [item] } else none

theorem enqueue_some {s s' : Session} {item : TxItem} (h : s.enqueue item = some s') :
    s.queue.length < s.config.txQueueSize ∧ s' = { s with queue := s.queue ++ [item] } := by
  unfold Session.enqueue at h
  split at h
  · next hlt => cases h; exact ⟨hlt, rfl⟩
  · cases h

theorem terminate_eq (s : Session) (cause : Err) : s.terminate cause =
    { s with termination := (s.terminate cause).termination, closeErr := (s.terminate cause).closeErr } := by
  unfold Session.terminate
  split <;> rfl

@[simp] theorem terminate_ledger (s : Session) (cause : Err) : (s.terminate cause).ledger = s.ledger := by
  rw [terminate_eq]

/-- `EncodePDU` into a buffer of the frame pool, which is empty, so that truncating it does not panic. -/
def encodeFrame (registry : Registry) (header : Header) (body : Value) : Except Err Octets :=
  match encodePDU registry [] header body with
  | .returned (frame, none) => .ok frame
  | .returned (_, some err) => .error err
  | .panicked v => .error (panicError "session" v)

theorem encodePDU_nil (registry : Registry) (header : Header) (body : Value) (v : PanicValue) :
    encodePDU registry [] header body ≠ .panicked v := by
  have hfinish (out : Slice) : finishPDU out 0 header ≠ .panicked v := by
    unfold finishPDU
    simp only [truncated_zero]
    split <;> exact nofun
  unfold encodePDU
  simp only [List.length_nil, truncated_zero]
  split
  · exact nofun
  · split
    · exact nofun
    · exact hfinish _
  · split
    · exact hfinish _
    · exact nofun

end GoSmpp.Session
