import GoSmpp.Protocol.Basic

/-!
# Errors

`Err` is Go's `error` as this library builds it: the sentinels of `codec/errors.go`, `codec/pdu.go`,
`codec/registry.go`, `session/errors.go`, `session/inbound_reply.go`, `encoding/gsm7.go` and `message/message.go`, what
`fmt.Errorf("%w: ..")` wraps around them, the structured errors of package `protocol` and of package `session`, and
errors made by the application. `asFatal`, `asSemantic`, `asResponse` and `isPanic` are `errors.As` along the `Unwrap` chain.
-/

namespace GoSmpp.Protocol

/-- The `errors.New` values the modelled functions return. -/
inductive Sentinel where
  -- package codec
  | shortBuffer | invalidCommandLength | invalidMaxPDUSize | fieldTooLong | embeddedNUL | tlvValueTooLong
  | codecNotInitialized | invalidPDUValue | pduFrameLengthMismatch | conflictingMessageData
  | registryFrozen | duplicateCommand | unknownCommand | invalidRegistryMode | invalidRegistryDefinition
  -- package session
  | sessionClosed | pendingLimit | windowFull | sequenceInUse | sequenceExhausted | bindInProgress
  | unexpectedPDU | unsupportedCapability
  | deferredResponseLimit | deferredResponseUnknown | deferredResponseBusy | invalidResponseAction
  -- package encoding and package message
  | unrepresentableRune | invalidGSM7 | invalidUnicode | invalidSegments | invalidUDH | invalidSAR
  | notDeliveryReceipt | invalidDeliveryReceipt
  -- package transport and package server
  | noProgress | alreadyServing
  -- package context, package io and package net
  | contextDone | eof | shortWrite | netClosed
  deriving DecidableEq, Repr

inductive FatalErrorKind where
  | unknown | invalidCommandLength | pduTooLarge | truncatedFrame | invalidFieldLength | invalidCString
  | invalidTLVLength | frameBoundaryLost
  deriving DecidableEq, Repr

/-- `protocol.FatalError`. The library never sets its `Cause`. -/
structure FatalError where
  kind : FatalErrorKind
  declaredLength : UInt32 := 0
  command : CommandID := 0
  sequence : SequenceNumber := 0
  reason : String
  deriving DecidableEq, Repr

/-- `protocol.SemanticError` without its `Cause`. -/
structure SemanticError where
  status : CommandStatus
  command : CommandID := 0
  sequence : SequenceNumber := 0
  reason : String
  deriving DecidableEq, Repr

inductive TimeoutKind where
  | response | sessionInit | enquireLink | inactivity
  deriving DecidableEq, Repr

inductive Err where
  | sentinel (s : Sentinel)
  | wrapped (text : String) (cause : Err)
  | fatal (e : FatalError)
  | semantic (e : SemanticError)
  | semanticBy (e : SemanticError) (cause : Err)
  /-- `protocol.PanicError` whose value is not an error. -/
  | panicked (source : String) (value : String)
  /-- `protocol.PanicError` of a `panic(err)`, which unwraps to `err`. -/
  | panickedBy (source : String) (cause : Err)
  | loss (cause : Err)
  /-- `session.StateError`. -/
  | state (state : SessionState) (command : CommandID) (role : Role)
  /-- `session.TimeoutError` without its duration. -/
  | timeout (kind : TimeoutKind) (command : CommandID) (sequence : SequenceNumber)
  | response (command : CommandID) (status : CommandStatus) (sequence : SequenceNumber)
  | custom (text : String)
  deriving DecidableEq, Repr

/-- `errors.As(err, &fatal)`. -/
def Err.asFatal : Err → Option FatalError
  | .fatal e => some e
  | .wrapped _ c | .semanticBy _ c | .panickedBy _ c | .loss c => c.asFatal
  | _ => none

/-- `errors.As(err, &semantic)`. -/
def Err.asSemantic : Err → Option SemanticError
  | .semantic e | .semanticBy e _ => some e
  | .wrapped _ c | .panickedBy _ c | .loss c => c.asSemantic
  | _ => none

/-- `errors.As(err, &response)`, and the status of the response. -/
def Err.asResponse : Err → Option CommandStatus
  | .response _ status _ => some status
  | .wrapped _ c | .semanticBy _ c | .panickedBy _ c | .loss c => c.asResponse
  | _ => none

/-- `session.isPanic`: `errors.As(err, &panicError)`. -/
def Err.isPanic : Err → Bool
  | .panicked _ _ | .panickedBy _ _ => true
  | .wrapped _ c | .semanticBy _ c | .loss c => c.isPanic
  | _ => false

/-- `errors.Is(err, target)` for a sentinel target. -/
def Err.is (target : Sentinel) : Err → Bool
  | .sentinel s => s == target
  | .wrapped _ c | .semanticBy _ c | .panickedBy _ c | .loss c => c.is target
  | _ => false

/-- What was passed to `panic`. -/
inductive PanicValue where
  | value (text : String)
  | error (e : Err)
  deriving DecidableEq, Repr

/-- What a call of code the library does not control comes to. -/
inductive Outcome (α : Type) where
  | returned (a : α)
  | panicked (v : PanicValue)
  deriving DecidableEq, Repr

/-- The `protocol.PanicError` made of a recovered panic. -/
def panicError (source : String) : PanicValue → Err
  | .value text => .panicked source text
  | .error e => .panickedBy source e

end GoSmpp.Protocol
