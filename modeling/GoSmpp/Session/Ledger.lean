import GoSmpp.Codec.Pdu
import GoSmpp.Session.StateMachine

/-!
# Package `session`: requests, the pending table and the window

The state that `Session.request` (`session/session.go`), `pendingTable` and `pendingRequest.finish`
(`session/pending.go`), `requestWindow` (`session/window.go`) and `sequenceGenerator` (`session/sequence.go`) share, and
their operations on it. Each operation is what the source does under one lock, or by one channel operation.

A goroutine that has removed an entry from the table holds a `Task`: what it still has to do for that request, stage by
stage. The fields `inserted`, `removed`, `released` and `sent` of a call are its history; no operation reads them.
-/

namespace GoSmpp.Session
open Lib Protocol Codec

/-- `session.requestResult`: what a call of `Request` comes to. -/
abbrev Result := Except Err DecodedPDU

/-- Where a call of `Session.request` is: before which step. -/
inductive Phase where
  /-- before the checks of the command -/
  | checking
  /-- before the `select` on `done` -/
  | entering
  /-- before the first `select` of `window.acquire` -/
  | acquiring
  /-- in the blocking `select` of `window.acquire` -/
  | awaitingSlot
  /-- before `BeginOutbound`, owning a slot -/
  | beginning
  /-- before `seq.Next` -/
  | drawing (attempts : Nat)
  /-- before `pending.insert` -/
  | inserting (attempts : Nat)
  /-- before `EncodePDU`, the request in the table -/
  | encoding
  /-- in the `select` that queues the frame -/
  | admitting (frame : Octets)
  /-- in the `select` on the completion channel and the context -/
  | waiting
  /-- in `waitCompleted` -/
  | blocked
  /-- before `CancelOutbound`; `owned` is `windowOwned` -/
  | cancelling (owned : Bool) (result : Result)
  /-- before the deferred `window.release` -/
  | releasing (result : Result)
  | returned (result : Result)
  deriving DecidableEq, Repr

/-- One call of `Session.request` with its `pendingRequest`. The completion channel `done` holds one result. -/
structure Call where
  command : CommandID
  body : Value
  waitWindow : Bool
  phase : Phase := .checking
  sequence : SequenceNumber := 0
  done : List Result := []
  finished : Bool := false
  /-- a deadline is attached -/
  deadline : Bool := false
  inserted : Nat := 0
  removed : Nat := 0
  released : Nat := 0
  sent : Nat := 0
  deriving DecidableEq, Repr

/-- The goroutines that complete requests: the RX loop, the deadline loop, a caller, and whoever runs `terminate`. -/
inductive Owner where
  | rx
  | deadline
  | caller (i : Nat)
  | sweep
  deriving DecidableEq, Repr

/-- What is left to do for a request taken out of the table. -/
inductive Stage where
  /-- `finish`, under the request's lock -/
  | finish
  /-- `manager.cancel` -/
  | unschedule
  /-- `window.release` -/
  | release
  /-- `CompleteOutbound` -/
  | complete
  /-- the store of the peer's capabilities -/
  | negotiate
  /-- the send on the completion channel -/
  | send
  /-- `CancelOutbound` -/
  | cancel
  /-- `terminate` after the response to an unbind -/
  | close
  deriving DecidableEq, Repr

structure Task where
  owner : Owner
  call : Nat
  result : Result
  todo : List Stage
  deriving DecidableEq, Repr

/-- What `handleResponse` does with the request it has taken. -/
def responseTask (i : Nat) (pdu : DecodedPDU) : Task :=
  { owner := .rx, call := i, result := .ok pdu, todo := [.finish, .release, .complete, .negotiate, .send, .close] }

/-- What `completeError` and `failAll` do with a request they have removed, and what their caller does `after` that. -/
def errorTask (owner : Owner) (i : Nat) (err : Err) (after : List Stage) : Task :=
  { owner, call := i, result := .error err, todo := [.finish, .release, .send] ++ after }

/-- `session.deadlineItem` of a request. The times are not modelled. -/
structure DeadlineItem where
  call : Nat
  command : CommandID
  sequence : SequenceNumber
  deriving DecidableEq, Repr

structure Ledger where
  /-- `sequenceGenerator.value` -/
  sequence : UInt32 := 0
  /-- the length of the channel `window.tokens` -/
  tokens : Nat := 0
  underflows : Nat := 0
  /-- `pendingTable.m`, a call for a `*pendingRequest` -/
  pending : List (SequenceNumber × Nat) := []
  calls : List Call := []
  tasks : List Task := []
  /-- the deadlines of the requests in `deadlineManager.heap` -/
  heap : List DeadlineItem := []
  deriving DecidableEq, Repr

namespace Ledger

def modify (l : Ledger) (i : Nat) (f : Call → Call) : Ledger := { l with calls := l.calls.modify i f }

def goto (l : Ledger) (i : Nat) (phase : Phase) : Ledger := l.modify i fun k => { k with phase }

/-! ## The window and the sequence numbers -/

def release (l : Ledger) : Ledger :=
  if l.tokens = 0 then { l with underflows := l.underflows + 1 } else { l with tokens := l.tokens - 1 }

/-- `sequenceGenerator.Next`: the number drawn. -/
def nextSequence (l : Ledger) : SequenceNumber :=
  let next := l.sequence + 1
  if sequenceOutboundMax ≤ l.sequence || next == 0 then sequenceMin else next

/-! ## The pending table -/

def insert (l : Ledger) (max : Nat) (sequence : SequenceNumber) (i : Nat) : Except Sentinel Ledger :=
  if max ≤ l.pending.length then .error .pendingLimit
  else if (l.pending.lookup sequence).isSome then .error .sequenceInUse
  else .ok { l with
    pending := (sequence, i) :: l.pending
    calls := l.calls.modify i fun k => { k with inserted := k.inserted + 1 } }

/-- `pendingTable.exists`. -/
def «exists» (l : Ledger) (sequence : SequenceNumber) : Bool := (l.pending.lookup sequence).isSome

/-- An entry is deleted and the goroutine goes on with its request. -/
def remove (l : Ledger) (sequence : SequenceNumber) (task : Task) : Ledger :=
  { l with
    pending := l.pending.eraseP (·.1 == sequence)
    calls := l.calls.modify task.call fun k => { k with removed := k.removed + 1 }
    tasks := task :: l.tasks }

/-- The locked part of `pendingTable.takeResponse`. -/
def takeResponse (l : Ledger) (pdu : DecodedPDU) : Option Ledger := do
  let i ← l.pending.lookup pdu.header.sequenceNumber
  let k ← l.calls[i]?
  -- `expectedID` is the response form of the request's command
  if pdu.header.commandID ≠ responseID k.command ∧ pdu.header.commandID ≠ commandGenericNACK then none
  else some (l.remove pdu.header.sequenceNumber (responseTask i pdu))

/-- The locked part of `pendingTable.completeError`. -/
def completeError (l : Ledger) (owner : Owner) (sequence : SequenceNumber) (err : Err) (after : List Stage) :
    Option Ledger := do
  let i ← l.pending.lookup sequence
  some (l.remove sequence (errorTask owner i err after))

/-- The locked part of `pendingTable.failAll`. -/
def failAll (l : Ledger) (err : Err) : Ledger :=
  l.pending.foldl (fun l entry => l.remove entry.1 (errorTask .sweep entry.2 err [])) l

/-! ## Completing a request -/

/-- The next task of a goroutine, and the others. -/
def nextTask (l : Ledger) (o : Owner) : Option (Task × Ledger) := do
  let t ← l.tasks.find? (·.owner == o)
  some (t, { l with tasks := l.tasks.eraseP (·.owner == o) })

/-- The goroutine goes on with the stages that are left, or is done with the task. -/
def resume (l : Ledger) (t : Task) (todo : List Stage) : Ledger :=
  if todo = [] then l else { l with tasks := { t with todo } :: l.tasks }

/-- The goroutine is not inside `finish`, a send, or what follows them. -/
def idle (l : Ledger) (o : Owner) : Bool := (l.tasks.find? (·.owner == o)).isNone

/-- The locked part of `pendingRequest.finish`, and what is left of it. -/
def finish (l : Ledger) (t : Task) (rest : List Stage) : Option Ledger := do
  let k ← l.calls[t.call]?
  if k.finished then some (l.resume t (rest.erase .release))
  else
    let l := l.modify t.call fun k => { k with finished := true, deadline := false }
    some (l.resume t (if k.deadline then .unschedule :: rest else rest))

/-- `deadlineManager.cancel` of a request's item. -/
def unschedule (l : Ledger) (i : Nat) : Ledger := { l with heap := l.heap.eraseP (·.call == i) }

/-- The send on the completion channel, which blocks while it is full. -/
def send (l : Ledger) (t : Task) : Option Ledger := do
  let k ← l.calls[t.call]?
  if k.done ≠ [] then none
  else some (l.modify t.call fun k => { k with done := [t.result], sent := k.sent + 1 })

end Ledger

end GoSmpp.Session
