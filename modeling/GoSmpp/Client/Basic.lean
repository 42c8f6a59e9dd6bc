import GoSmpp.Lib.Family
import GoSmpp.Session.Lifecycle
import GoSmpp.Server.Dispatch

/-!
# The client

`client/client.go`: the client over the sessions it creates. The lifecycle goroutine waits for the loss of the current session,
redials, rebinds and installs the replacement; `Close`, `WaitConnected` and `bind` are called by any goroutines. A section under
`c.mu` is one step, and the context of the client is done when `closed` is set, as only `Close` cancels it.

* `Client`, `Client.step`: every interleaving of them and of the sessions.
* `LifecycleNext`, `CloseNext`, `BindNext`, `Next`: what a step of each does (`step_next`).
* `step_later`: a session that is done stays done, and none is forgotten.

The delays between two attempts are not modelled: the timer of `waitContext` may fire at any time. `sess.Wait` may return at any
time after `sess.Done()` is closed.
-/

namespace GoSmpp.Client
open Lib Protocol Codec Session Server

/-- `client.Config`, as far as the lifecycle reads it. -/
structure Config where
  sessionConfig : Session.Config
  /-- `Reconnect.Enabled` -/
  enabled : Bool := false
  stopOnPermanentBindFailure : Bool := false

structure BindProfile where
  mode : BindMode
  request : BindRequest
  deriving DecidableEq, Repr

def statusInvalidPassword : CommandStatus := 0x0000000E
def statusInvalidSystemID : CommandStatus := 0x0000000F
def statusInvalidSystemType : CommandStatus := 0x00000053

def isPermanentBindRejection (err : Err) : Bool :=
  match err.asResponse with
  | some status => status == statusInvalidPassword || status == statusInvalidSystemID || status == statusInvalidSystemType
  | none => false

/-- The command that `bindSession` sends. -/
def bindCommand : BindMode → CommandID
  | .tx => commandBindTransmitter
  | .rx => commandBindReceiver
  | .none | .trx => commandBindTransceiver

/-- `Session.bind`, from the result of its `Request`. -/
def bindResult : Except Err DecodedPDU → Except Err BindResponse
  | .error err => .error err
  | .ok pdu =>
    match responseError pdu with
    | some e => .error (.response e.command e.status e.sequence)
    | none =>
      match pdu.body with
      | .struct (.bindResponse body) => .ok body
      | body => .error (.wrapped ("bind response body " ++ body.typeName) (.sentinel .unexpectedPDU))

/-! ## The goroutines -/

/-- What the lifecycle goroutine does after `recordReconnectError`. -/
inductive AfterRecord where
  /-- it waits and dials again -/
  | retry
  /-- the bind was refused: it looks whether for good -/
  | refused
  /-- it has recovered from a panic -/
  | leave
  deriving DecidableEq, Repr

inductive LifecyclePhase where
  /-- in the `select` on the context and `sess.Done()` -/
  | waiting (sess : Nat)
  /-- in `sess.Wait` -/
  | joining (sess : Nat)
  /-- before the session is given up -/
  | losing (sess : Nat)
  /-- in `waitContext` -/
  | backingOff
  | dialling
  /-- before `session.New` -/
  | creating
  /-- before `bindProfileSnapshot` -/
  | profiling (candidate : Nat)
  /-- before the request of `bindSession` -/
  | rebinding (candidate : Nat) (profile : BindProfile)
  /-- in the request of `bindSession` -/
  | binding (candidate : Nat) (call : Nat)
  /-- before the candidate is installed -/
  | installing (candidate : Nat)
  /-- before `candidate.Close`, with the error if the bind has failed -/
  | dropping (candidate : Nat) (err : Option Err)
  /-- in `candidate.Close` -/
  | awaiting (candidate : Nat) (err : Option Err)
  /-- in `candidate.Wait` -/
  | parting (candidate : Nat) (err : Option Err)
  /-- before `recordReconnectError` -/
  | recording (err : Err) (next : AfterRecord)
  /-- before `recordTerminalReconnectError` -/
  | ending (err : Err)
  | exited
  deriving DecidableEq, Repr

inductive ClosePhase where
  | entering
  /-- before `sess.Close` -/
  | closing (sess : Nat)
  /-- in `sess.Close` -/
  | awaiting (sess : Nat)
  | returned
  deriving DecidableEq, Repr

inductive WaitResult where
  | connected
  /-- `ErrUnavailable` -/
  | unavailable
  /-- an `UnavailableError` with the terminal error -/
  | rejected (cause : Err)
  /-- the error of the caller's context -/
  | contextDone
  deriving DecidableEq, Repr

inductive WaitPhase where
  /-- before it looks at the client -/
  | looking
  /-- in the `select`, on a channel -/
  | blocked (notify : Nat)
  | returned (result : WaitResult)
  deriving DecidableEq, Repr

inductive BindOutcome where
  | bound (response : BindResponse)
  /-- an `UnavailableError` -/
  | unavailable (cause : Option Err) (reconnecting : Bool)
  | failed (err : Err)
  deriving DecidableEq, Repr

inductive BindPhase where
  /-- before `activeSession` -/
  | entering
  /-- before the request on the session -/
  | requesting (sess : Nat)
  /-- in the request -/
  | awaiting (sess : Nat) (call : Nat)
  /-- before the profile is kept -/
  | keeping (response : BindResponse)
  | returned (outcome : BindOutcome)
  deriving DecidableEq, Repr

structure Bind where
  profile : BindProfile
  phase : BindPhase := .entering
  deriving DecidableEq, Repr

end GoSmpp.Client

namespace GoSmpp
open Protocol Client

/-- `client.Client`. A session is its place in `created`. `notify` counts the channels: the one that is open is the last. -/
structure Client where
  config : Client.Config
  dialable : Bool
  created : List Session
  current : Option Nat
  last : Nat
  profile : Option BindProfile := none
  lastErr : Option Err := none
  lastLoss : Option Err := none
  terminalReconnectErr : Option Err := none
  closed : Bool := false
  notify : Nat := 0
  reconnects : Nat := 0
  reconnectFailures : Nat := 0
  lifecycle : LifecyclePhase
  closes : List ClosePhase := []
  waits : List WaitPhase := []
  binds : List Bind := []

end GoSmpp

namespace GoSmpp.Client
open Lib Protocol Codec Session Server

/-- What the environment chooses for the lifecycle goroutine. -/
inductive LifecycleChoice where
  | go
  /-- the context is done -/
  | cancelled
  /-- `session.New` succeeds -/
  | created
  /-- the dial or `session.New` fails -/
  | failed (err : Err)
  /-- the dial panics, in a callback of its TLS configuration -/
  | panicked (value : PanicValue)
  deriving DecidableEq, Repr

/-- What the environment chooses for a call of `WaitConnected` that is blocked. -/
inductive WaitChoice where
  | go
  /-- the caller's context is done -/
  | contextDone
  /-- the context of the client is done -/
  | closed
  deriving DecidableEq, Repr

inductive Label where
  | lifecycle (choice : LifecycleChoice)
  /-- a goroutine calls `Close` -/
  | close
  | closing (i : Nat)
  /-- a goroutine calls `WaitConnected` -/
  | waitConnected
  | waiting (i : Nat) (choice : WaitChoice)
  /-- a goroutine calls `BindTransmitter`, `BindReceiver` or `BindTransceiver` -/
  | bind (profile : BindProfile)
  | binding (i : Nat)
  /-- a step of a session -/
  | session (n : Nat) (label : Session.Label)
  deriving DecidableEq, Repr

def done (s : Client) (n : Nat) : Bool := s.created[n]?.any (·.termination.done)

/-- `sess.Close` can return: `terminate` is done. -/
def terminated (s : Client) (n : Nat) : Bool := s.created[n]?.any (·.termination == .finished)

def sessionErr (s : Client) (n : Nat) : Option Err := s.created[n]?.bind (·.closeErr)

/-- `sess.Close()`, up to the point where `terminate` has been called. -/
def closeSession (s : Client) (n : Nat) : Client :=
  { s with created := (sessions.stepAt s.created n (.terminate (.sentinel .sessionClosed))).getD s.created }

/-- The request of `sess.Bind…`: the client after it is made, and the call of it. -/
def requestBind (s : Client) (n : Nat) (profile : BindProfile) : Option (Client × Nat) := do
  let sess ← s.created[n]?
  let created ← sessions.stepAt s.created n
    (.request (bindCommand profile.mode) (.struct (.bindRequest profile.request)) true)
  some ({ s with created }, sess.ledger.calls.length)

/-- What the call of `sess.Bind…` has returned. -/
def bindReturned (s : Client) (n call : Nat) : Option (Except Err BindResponse) := do
  let sess ← s.created[n]?
  let k ← sess.ledger.calls[call]?
  match k.phase with
  | .returned r => some (bindResult r)
  | _ => none

def signalLocked (s : Client) : Client := { s with notify := s.notify + 1 }

def recordReconnectError (s : Client) (err : Err) : Client :=
  { s with reconnectFailures := s.reconnectFailures + 1, lastErr := some err }.signalLocked

def recordTerminalReconnectError (s : Client) (err : Err) : Client :=
  { s with lastErr := some err, terminalReconnectErr := some err }.signalLocked

/-- The lost session is given up, if it is still the current one. -/
def lose (s : Client) (n : Nat) : Client :=
  if s.current = some n then
    { s with current := none, last := n, lastErr := s.sessionErr n, lastLoss := s.sessionErr n }.signalLocked
  else s

/-- The candidate becomes the current session. -/
def install (s : Client) (n : Nat) : Client :=
  { s with current := some n, last := n, lastErr := none, reconnects := s.reconnects + 1 }.signalLocked

/-- `activeSession`: the current session, or what the `UnavailableError` reports. -/
def activeSession (s : Client) : Except BindOutcome Nat :=
  match s.current with
  | some n => if s.closed then .error (unavailable s) else .ok n
  | none => .error (unavailable s)
where
  unavailable (s : Client) : BindOutcome :=
    .unavailable s.lastErr (!s.closed && s.config.enabled && s.dialable && s.terminalReconnectErr.isNone)

def lifecycleStep (s : Client) (choice : LifecycleChoice) : Option Client :=
  let goto (s : Client) (lifecycle : LifecyclePhase) : Option Client := some { s with lifecycle }
  match s.lifecycle, choice with
  | .waiting n, .go => if s.done n then goto s (.joining n) else none
  | .waiting _, .cancelled => if s.closed then goto s .exited else none
  | .joining n, .go => goto s (.losing n)
  | .losing n, .go => goto (s.lose n) (if s.closed || !(s.config.enabled && s.dialable) then .exited else .backingOff)
  | .backingOff, .go => goto s .dialling
  | .backingOff, .cancelled => if s.closed then goto s .exited else none
  | .dialling, .go => goto s .creating
  | .dialling, .failed err => goto s (.recording err .retry)
  | .dialling, .panicked value => goto s (.recording (panicError "client.lifecycle" value) .leave)
  | .creating, .created =>
    goto { s with created := s.created ++ [Session.new s.config.sessionConfig .esme] } (.profiling s.created.length)
  | .creating, .failed err => goto s (.recording err .retry)
  | .profiling n, .go =>
    match s.profile with
    | some profile => goto s (.rebinding n profile)
    | none => goto s (.installing n)
  | .rebinding n profile, .go => do
    let (s, call) ← s.requestBind n profile
    goto s (.binding n call)
  | .binding n call, .go => do
    match ← s.bindReturned n call with
    | .ok _ => goto s (.installing n)
    | .error err => goto s (.dropping n (some err))
  | .installing n, .go => if s.closed then goto s (.dropping n none) else goto (s.install n) (.waiting n)
  | .dropping n err, .go => goto (s.closeSession n) (.awaiting n err)
  | .awaiting n err, .go => if s.terminated n then goto s (.parting n err) else none
  | .parting _ none, .go => goto s .exited
  | .parting _ (some err), .go => goto s (.recording err .refused)
  | .recording err .retry, .go => goto (s.recordReconnectError err) .backingOff
  | .recording err .leave, .go => goto (s.recordReconnectError err) .exited
  | .recording err .refused, .go =>
    goto (s.recordReconnectError err)
      (if s.config.stopOnPermanentBindFailure && isPermanentBindRejection err then .ending err else .backingOff)
  | .ending err, .go => goto (s.recordTerminalReconnectError err) .exited
  | _, _ => none

def closeStep (s : Client) (i : Nat) (phase : ClosePhase) : Option Client :=
  let goto (s : Client) (phase : ClosePhase) : Option Client := some { s with closes := s.closes.set i phase }
  match phase with
  | .entering =>
    if s.closed then goto s .returned
    else goto { s with closed := true }.signalLocked (s.current.elim .returned .closing)
  | .closing n => goto (s.closeSession n) (.awaiting n)
  | .awaiting n => if s.terminated n then goto s .returned else none
  | .returned => none

def waitStep (s : Client) (i : Nat) (phase : WaitPhase) (choice : WaitChoice) : Option Client :=
  let goto (phase : WaitPhase) : Option Client := some { s with waits := s.waits.set i phase }
  match phase, choice with
  | .looking, .go =>
    if s.current.isSome && !s.closed then goto (.returned .connected)
    else if s.closed then goto (.returned .unavailable)
    else
      match s.terminalReconnectErr with
      | some err => goto (.returned (.rejected err))
      | none => goto (.blocked s.notify)
  | .blocked notify, .go => if notify < s.notify then goto .looking else none
  | .blocked _, .contextDone => goto (.returned .contextDone)
  | .blocked _, .closed => if s.closed then goto (.returned .unavailable) else none
  | _, _ => none

def bindStep (s : Client) (i : Nat) (b : Bind) : Option Client :=
  let goto (s : Client) (phase : BindPhase) : Option Client := some { s with binds := s.binds.set i { b with phase } }
  match b.phase with
  | .entering =>
    match s.activeSession with
    | .ok n => goto s (.requesting n)
    | .error outcome => goto s (.returned outcome)
  | .requesting n => do
    let (s, call) ← s.requestBind n b.profile
    goto s (.awaiting n call)
  | .awaiting n call => do
    match ← s.bindReturned n call with
    | .ok response => goto s (.keeping response)
    | .error err => goto s (.returned (.failed err))
  | .keeping response => goto { s with profile := some b.profile } (.returned (.bound response))
  | .returned _ => none

def step (s : Client) : Label → Option Client
  | .lifecycle choice => s.lifecycleStep choice
  | .close => some { s with closes := s.closes ++ [.entering] }
  | .closing i => do s.closeStep i (← s.closes[i]?)
  | .waitConnected => some { s with waits := s.waits ++ [.looking] }
  | .waiting i choice => do s.waitStep i (← s.waits[i]?) choice
  | .bind profile => some { s with binds := s.binds ++ [{ profile }] }
  | .binding i => do s.bindStep i (← s.binds[i]?)
  | .session n label => do some { s with created := ← sessions.stepAt s.created n label }

def clients : System Client Label where
  step := step

/-- `newClient`, on a connection that `session.New` accepts. -/
def new (config : Config) (dialable : Bool) : Client :=
  { config, dialable, created := [Session.new config.sessionConfig .esme], current := some 0, last := 0, notify := 1,
    lifecycle := .waiting 0 }

/-! ## The steps -/

/-- A step of the lifecycle goroutine: from where, by what choice, what becomes of the client, and where it goes on. -/
inductive LifecycleNext (s : Client) : LifecyclePhase → LifecycleChoice → Client → LifecyclePhase → Prop
  | lost {n} : s.done n → LifecycleNext s (.waiting n) .go s (.joining n)
  | cancel {n} : s.closed → LifecycleNext s (.waiting n) .cancelled s .exited
  | join {n} : LifecycleNext s (.joining n) .go s (.losing n)
  | lose {n q} : q = .exited ∨ s.closed = false ∧ q = .backingOff → LifecycleNext s (.losing n) .go (s.lose n) q
  | elapse : LifecycleNext s .backingOff .go s .dialling
  | stop : s.closed → LifecycleNext s .backingOff .cancelled s .exited
  | dial : LifecycleNext s .dialling .go s .creating
  | undialled (err : Err) : LifecycleNext s .dialling (.failed err) s (.recording err .retry)
  | panic (value : PanicValue) :
      LifecycleNext s .dialling (.panicked value) s (.recording (panicError "client.lifecycle" value) .leave)
  | create : LifecycleNext s .creating .created
      { s with created := s.created ++ [Session.new s.config.sessionConfig .esme] } (.profiling s.created.length)
  | uncreated (err : Err) : LifecycleNext s .creating (.failed err) s (.recording err .retry)
  | unprofiled {n} : s.profile = none → LifecycleNext s (.profiling n) .go s (.installing n)
  | profile {n p} : s.profile = some p → LifecycleNext s (.profiling n) .go s (.rebinding n p)
  | request {n p t call} : s.requestBind n p = some (t, call) → LifecycleNext s (.rebinding n p) .go t (.binding n call)
  | bound {n call response} : s.bindReturned n call = some (.ok response) →
      LifecycleNext s (.binding n call) .go s (.installing n)
  | refused {n call err} : s.bindReturned n call = some (.error err) →
      LifecycleNext s (.binding n call) .go s (.dropping n (some err))
  | late {n} : s.closed → LifecycleNext s (.installing n) .go s (.dropping n none)
  | install {n} : s.closed = false → LifecycleNext s (.installing n) .go (s.install n) (.waiting n)
  | drop {n err} : LifecycleNext s (.dropping n err) .go (s.closeSession n) (.awaiting n err)
  | dropped {n err} : s.terminated n → LifecycleNext s (.awaiting n err) .go s (.parting n err)
  | leave {n} : LifecycleNext s (.parting n none) .go s .exited
  | part {n err} : LifecycleNext s (.parting n (some err)) .go s (.recording err .refused)
  | record {err next q} : q = .exited ∨ q = .backingOff ∨ q = .ending err →
      LifecycleNext s (.recording err next) .go (s.recordReconnectError err) q
  | reject {err} : LifecycleNext s (.ending err) .go (s.recordTerminalReconnectError err) .exited

inductive CloseNext (s : Client) : ClosePhase → Client → ClosePhase → Prop
  | again : s.closed → CloseNext s .entering s .returned
  | first : s.closed = false → CloseNext s .entering { s with closed := true }.signalLocked (s.current.elim .returned .closing)
  | close {n} : CloseNext s (.closing n) (s.closeSession n) (.awaiting n)
  | closed {n} : s.terminated n → CloseNext s (.awaiting n) s .returned

inductive BindNext (s : Client) (b : Bind) : Client → BindPhase → Prop
  | active {n} : b.phase = .entering → s.activeSession = .ok n → BindNext s b s (.requesting n)
  | inactive {outcome} : b.phase = .entering → s.activeSession = .error outcome → BindNext s b s (.returned outcome)
  | request {n t call} : b.phase = .requesting n → s.requestBind n b.profile = some (t, call) →
      BindNext s b t (.awaiting n call)
  | bound {n call response} : b.phase = .awaiting n call → s.bindReturned n call = some (.ok response) →
      BindNext s b s (.keeping response)
  | refused {n call err} : b.phase = .awaiting n call → s.bindReturned n call = some (.error err) →
      BindNext s b s (.returned (.failed err))
  | keep {response} : b.phase = .keeping response →
      BindNext s b { s with profile := some b.profile } (.returned (.bound response))

inductive Next (s : Client) : Label → Client → Prop
  | lifecycle {choice t q} : LifecycleNext s s.lifecycle choice t q → Next s (.lifecycle choice) { t with lifecycle := q }
  | close : Next s .close { s with closes := s.closes ++ [.entering] }
  | closing {i p t q} : s.closes[i]? = some p → CloseNext s p t q → Next s (.closing i) { t with closes := t.closes.set i q }
  | waitConnected : Next s .waitConnected { s with waits := s.waits ++ [.looking] }
  | waiting {i p choice s'} : s.waits[i]? = some p → s.waitStep i p choice = some s' → Next s (.waiting i choice) s'
  | bind (profile : BindProfile) : Next s (.bind profile) { s with binds := s.binds ++ [{ profile }] }
  | binding {i b t q} : s.binds[i]? = some b → BindNext s b t q →
      Next s (.binding i) { t with binds := t.binds.set i { b with phase := q } }
  | session {n label created} : sessions.stepAt s.created n label = some created →
      Next s (.session n label) { s with created }

section Steps
variable {s s' : Client} {label : Label}

theorem lifecycleStep_next {choice : LifecycleChoice} (h : s.lifecycleStep choice = some s') :
    ∃ t q, LifecycleNext s s.lifecycle choice t q ∧ s' = { t with lifecycle := q } := by
  have hgo {p : LifecyclePhase} {choice : LifecycleChoice} {t : Client} {q : LifecyclePhase} (h : LifecycleNext s p choice t q) :
      ∃ t' q', LifecycleNext s p choice t' q' ∧ { t with lifecycle := q } = { t' with lifecycle := q' } := ⟨t, q, h, rfl⟩
  unfold Client.lifecycleStep at h
  simp only at h
  generalize s.lifecycle = p at h ⊢
  split at h
  case h_1 => split at h <;> cases h; next hd => exact hgo (.lost hd)
  case h_2 => split at h <;> cases h; next hc => exact hgo (.cancel hc)
  case h_3 => cases h; exact hgo .join
  case h_4 n =>
    cases h
    refine hgo (.lose ?_)
    split
    · exact .inl rfl
    · next hc =>
      rw [Bool.or_eq_true, not_or] at hc
      exact .inr ⟨Bool.eq_false_iff.mpr hc.1, rfl⟩
  case h_5 => cases h; exact hgo .elapse
  case h_6 => split at h <;> cases h; next hc => exact hgo (.stop hc)
  case h_7 => cases h; exact hgo .dial
  case h_8 err => cases h; exact hgo (.undialled err)
  case h_9 value => cases h; exact hgo (.panic value)
  case h_10 => cases h; exact hgo .create
  case h_11 err => cases h; exact hgo (.uncreated err)
  case h_12 =>
    split at h <;> cases h
    · next hp => exact hgo (.profile hp)
    · next hp => exact hgo (.unprofiled hp)
  case h_13 =>
    obtain ⟨⟨t, call⟩, hr, h⟩ := Option.bind_eq_some_iff.mp h
    cases h
    exact hgo (.request hr)
  case h_14 =>
    obtain ⟨r, hr, h⟩ := Option.bind_eq_some_iff.mp h
    split at h <;> cases h
    · exact hgo (.bound hr)
    · exact hgo (.refused hr)
  case h_15 =>
    split at h <;> cases h
    · next hc => exact hgo (.late hc)
    · next hc => exact hgo (.install (Bool.eq_false_iff.mpr hc))
  case h_16 => cases h; exact hgo .drop
  case h_17 => split at h <;> cases h; next ht => exact hgo (.dropped ht)
  case h_18 => cases h; exact hgo .leave
  case h_19 => cases h; exact hgo .part
  case h_20 => cases h; exact hgo (.record (.inr (.inl rfl)))
  case h_21 => cases h; exact hgo (.record (.inl rfl))
  case h_22 =>
    cases h
    refine hgo (.record ?_)
    split
    · exact .inr (.inr rfl)
    · exact .inr (.inl rfl)
  case h_23 => cases h; exact hgo .reject
  case h_24 => cases h

theorem closeStep_next {i : Nat} {p : ClosePhase} (h : s.closeStep i p = some s') :
    ∃ t q, CloseNext s p t q ∧ s' = { t with closes := t.closes.set i q } := by
  unfold Client.closeStep at h
  cases p with
  | entering =>
    simp only at h
    split at h <;> cases h
    · next hc => exact ⟨_, _, .again hc, rfl⟩
    · next hc => exact ⟨_, _, .first (Bool.eq_false_iff.mpr hc), rfl⟩
  | closing n => cases h; exact ⟨_, _, .close, rfl⟩
  | awaiting n =>
    simp only at h
    split at h <;> cases h
    next ht => exact ⟨_, _, .closed ht, rfl⟩
  | returned => cases h

theorem bindStep_next {i : Nat} {b : Bind} (h : s.bindStep i b = some s') :
    ∃ t q, BindNext s b t q ∧ s' = { t with binds := t.binds.set i { b with phase := q } } := by
  unfold Client.bindStep at h
  simp only at h
  split at h
  case h_1 hp =>
    split at h <;> cases h
    · next ha => exact ⟨_, _, .active hp ha, rfl⟩
    · next ha => exact ⟨_, _, .inactive hp ha, rfl⟩
  case h_2 hp =>
    obtain ⟨⟨t, call⟩, hr, h⟩ := Option.bind_eq_some_iff.mp h
    cases h
    exact ⟨_, _, .request hp hr, rfl⟩
  case h_3 hp =>
    obtain ⟨r, hr, h⟩ := Option.bind_eq_some_iff.mp h
    split at h <;> cases h
    · exact ⟨_, _, .bound hp hr, rfl⟩
    · exact ⟨_, _, .refused hp hr, rfl⟩
  case h_4 hp => cases h; exact ⟨_, _, .keep hp, rfl⟩
  case h_5 => cases h

/-- **What a step of a client does.** -/
theorem step_next (h : s.step label = some s') : Next s label s' := by
  cases label with
  | lifecycle choice => obtain ⟨t, q, hn, rfl⟩ := lifecycleStep_next h; exact .lifecycle hn
  | close => cases h; exact .close
  | closing i =>
    obtain ⟨p, hp, h⟩ := Option.bind_eq_some_iff.mp h
    obtain ⟨t, q, hn, rfl⟩ := closeStep_next h
    exact .closing hp hn
  | waitConnected => cases h; exact .waitConnected
  | waiting i choice =>
    obtain ⟨p, hp, h⟩ := Option.bind_eq_some_iff.mp h
    exact .waiting hp h
  | bind profile => cases h; exact .bind profile
  | binding i =>
    obtain ⟨b, hb, h⟩ := Option.bind_eq_some_iff.mp h
    obtain ⟨t, q, hn, rfl⟩ := bindStep_next h
    exact .binding hb hn
  | session n label =>
    obtain ⟨created, hc, h⟩ := Option.bind_eq_some_iff.mp h
    cases h
    exact .session hc

theorem waitStep_scope {i : Nat} {p : WaitPhase} {choice : WaitChoice} (h : s.waitStep i p choice = some s') :
    s' = { s with waits := s'.waits } := by
  unfold Client.waitStep at h
  simp only at h
  split at h
  case h_1 =>
    split at h
    · cases h; rfl
    · split at h
      · cases h; rfl
      · split at h <;> cases h <;> rfl
  case h_2 => split at h <;> cases h; rfl
  case h_3 => cases h; rfl
  case h_4 => split at h <;> cases h; rfl
  case h_5 => cases h

/-! ## The sessions go on -/

/-- A session that is done stays done. -/
def Later (a b : Session) : Prop := a.termination.done → b.termination.done

theorem Later.refl (a : Session) : Later a a := id

theorem stepAt_later {l l' : List Session} {n : Nat} {label : Session.Label} (h : sessions.stepAt l n label = some l') :
    Each Later l l' := by
  obtain ⟨a, b, ha, hs, rfl⟩ := System.stepAt_some h
  exact .set Later.refl ha (Session.step_done hs)

theorem closeSession_later (s : Client) (n : Nat) : Each Later s.created (s.closeSession n).created := by
  unfold Client.closeSession
  cases h : sessions.stepAt s.created n (.terminate (.sentinel .sessionClosed)) with
  | none => exact .refl Later.refl _
  | some l => exact stepAt_later h

theorem requestBind_scope {t : Client} {n call : Nat} {p : BindProfile} (h : s.requestBind n p = some (t, call)) :
    ∃ created, t = { s with created } ∧ Each Later s.created created ∧ created.length = s.created.length := by
  obtain ⟨sess, -, h⟩ := Option.bind_eq_some_iff.mp h
  obtain ⟨created, hc, h⟩ := Option.bind_eq_some_iff.mp h
  cases h
  refine ⟨created, rfl, stepAt_later hc, ?_⟩
  obtain ⟨_, _, -, -, rfl⟩ := System.stepAt_some hc
  exact List.length_set

theorem done_iff {n : Nat} : s.done n ↔ ∃ a, s.created[n]? = some a ∧ a.termination.done := Option.any_eq_true _ _

theorem done_of_terminated {n : Nat} (h : s.terminated n) : s.done n := by
  obtain ⟨a, ha, ht⟩ := (Option.any_eq_true _ _).mp h
  exact done_iff.mpr ⟨a, ha, by rw [beq_iff_eq.mp ht]; rfl⟩

theorem done_later {n : Nat} (h : Each Later s.created s'.created) (hd : s.done n) : s'.done n := by
  obtain ⟨a, ha, hd⟩ := done_iff.mp hd
  obtain ⟨b, hb, hl⟩ := h n a ha
  exact done_iff.mpr ⟨b, hb, hl hd⟩

theorem lose_created (s : Client) (n : Nat) : (s.lose n).created = s.created := by
  unfold Client.lose
  split <;> rfl

theorem LifecycleNext.later {p q : LifecyclePhase} {choice : LifecycleChoice} (h : LifecycleNext s p choice s' q) :
    Each Later s.created s'.created := by
  cases h with
  | lose => rw [lose_created]; exact .refl Later.refl _
  | create => exact .append Later.refl _ _
  | request hr =>
    obtain ⟨created, rfl, hl, -⟩ := requestBind_scope hr
    exact hl
  | drop => exact closeSession_later _ _
  | _ => exact .refl Later.refl _

theorem CloseNext.later {p q : ClosePhase} (h : CloseNext s p s' q) : Each Later s.created s'.created := by
  cases h with
  | close => exact closeSession_later _ _
  | _ => exact .refl Later.refl _

theorem BindNext.later {b : Bind} {q : BindPhase} (h : BindNext s b s' q) : Each Later s.created s'.created := by
  cases h with
  | request _ hr =>
    obtain ⟨created, rfl, hl, -⟩ := requestBind_scope hr
    exact hl
  | _ => exact .refl Later.refl _

theorem step_later (h : Next s label s') : Each Later s.created s'.created := by
  cases h with
  | lifecycle hn => exact hn.later
  | closing _ hn => exact hn.later
  | binding _ hn => exact hn.later
  | waiting _ hs => rw [waitStep_scope hs]; exact .refl Later.refl _
  | session hc => exact stepAt_later hc
  | close | waitConnected | bind => exact .refl Later.refl _

end Steps

end GoSmpp.Client
