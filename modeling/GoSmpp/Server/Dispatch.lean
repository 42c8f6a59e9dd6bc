import GoSmpp.Session.Operations
import GoSmpp.Session.Pipeline

/-!
# The dispatch handler

`dispatchHandler.Handle` of `server/server.go` with the callbacks of `server/panic.go`, and the sessions it is the handler of.

* `DispatchHandler.handle`: the answer to a request, and the callbacks that were called for it.
* `servedSessions`: an SMSC session whose handler is the dispatch handler; it remembers the callbacks.
* `handle_ok`: a bind is answered with `StatusOK` only if it was `Authenticated`.
* `run_authenticated`: a session is bound in a mode only after a bind of this mode was.

The bind delay and the bind counters are not modelled: they are written and never read here.
-/

namespace GoSmpp.Server
open Lib Protocol Codec Session

def statusThrottled : CommandStatus := 0x00000058

inductive BindMode where
  | none
  | tx
  | rx
  | trx
  deriving DecidableEq, Repr

def bindMode (command : CommandID) : BindMode :=
  if command = commandBindTransmitter then .tx
  else if command = commandBindReceiver then .rx
  else if command = commandBindTransceiver then .trx
  else .none

structure BindResult where
  status : CommandStatus
  systemID : Octets := []
  optional : List OptionalParameter := []
  deriving DecidableEq, Repr

structure SubmitResult where
  status : CommandStatus
  messageID : Octets := []
  deriving DecidableEq, Repr

structure BindAttempt where
  remoteAddr : String
  systemID : Octets
  mode : BindMode
  deriving DecidableEq, Repr

/-- Which fields of a `dispatchHandler` are not nil. -/
structure DispatchHandler where
  authenticator : Bool
  submit : Bool := false
  fallback : Bool := false
  limiter : Bool := false
  deriving DecidableEq, Repr

/-- What the callbacks come to when they are called. -/
structure Callbacks where
  allowBind : Outcome Bool
  authenticate : Outcome (BindResult × Option Err)
  recordBind : Outcome Unit
  submitSM : Outcome (SubmitResult × Option Err)
  fallback : Handled

/-- A callback of the bind path that was called, with what came of it. -/
inductive Called where
  | allowBind (attempt : BindAttempt) (outcome : Outcome Bool)
  | authenticate (mode : BindMode) (request : BindRequest) (outcome : Outcome (BindResult × Option Err))
  | recordBind (attempt : BindAttempt) (success : Bool) (outcome : Outcome Unit)
  deriving DecidableEq, Repr

/-! ## Recovering panics -/

def authenticate : Outcome (BindResult × Option Err) → BindResult × Option Err
  | .returned r => r
  | .panicked v => ({ status := statusSystemError }, some (panicError "server.Authenticator" v))

def allowBind : Outcome Bool → Bool × Option Err
  | .returned allowed => (allowed, none)
  | .panicked v => (false, some (panicError "server.BindRateLimiter" v))

def recordBind : Outcome Unit → Option Err
  | .returned () => none
  | .panicked v => some (panicError "server.BindRateLimiter" v)

def submit : Outcome (SubmitResult × Option Err) → SubmitResult × Option Err
  | .returned r => r
  | .panicked v => ({ status := statusSystemError }, some (panicError "server.SubmitHandler" v))

def panicOnly : Option Err → Option Err
  | some (.panicked source value) => some (.panicked source value)
  | some (.panickedBy source cause) => some (.panickedBy source cause)
  | _ => none

/-! ## `Handle` -/

/-- `return session.Response{Status: status, Body: protocol.EmptyBody{}}, err`. -/
def refusal (status : CommandStatus) : Option Err → Handled
  | some err => .returned (.error err)
  | none => .returned (.ok { status, body := emptyBody })

/-- A callback's error makes `StatusOK` a system error. -/
def failedStatus (status : CommandStatus) (err : Option Err) : CommandStatus :=
  if err.isSome && CommandStatus.ok status then statusSystemError else status

namespace DispatchHandler
variable (h : DispatchHandler) (cb : Callbacks) (remoteAddr : String)

/-- The end of the bind path: the answer to an attempt with this result. -/
def bindResponse (status : CommandStatus) (result : BindResult) (err : Option Err) : Handled :=
  if !CommandStatus.ok status then refusal status (panicOnly err)
  else .returned (.ok
    { status := statusOK, body := .struct (.bindResponse { systemID := result.systemID, optional := result.optional }) })

/-- The bind path from `authenticate` on. -/
def authenticateBind (attempt : BindAttempt) (request : BindRequest) : Handled × List Called :=
  let (result, err) := authenticate cb.authenticate
  let status := failedStatus result.status err
  let called := [.authenticate attempt.mode request cb.authenticate]
  if err.isNone && h.limiter then
    let called := called ++ [.recordBind attempt (CommandStatus.ok status) cb.recordBind]
    match recordBind cb.recordBind with
    | some recordErr => (refusal statusSystemError (some recordErr), called)
    | none => (bindResponse status result err, called)
  else (bindResponse status result err, called)

/-- The bind path of an authenticator. -/
def handleBind (command : CommandID) (request : BindRequest) : Handled × List Called :=
  let attempt : BindAttempt := { remoteAddr, systemID := request.systemID, mode := bindMode command }
  if h.limiter then
    let called := .allowBind attempt cb.allowBind
    match allowBind cb.allowBind with
    | (_, some err) => (refusal statusSystemError (some err), [called])
    | (false, none) => (refusal statusThrottled none, [called])
    | (true, none) =>
      let (outcome, rest) := h.authenticateBind cb attempt request
      (outcome, called :: rest)
  else h.authenticateBind cb attempt request

/-- The answer of the fallback handler, or a refusal if there is none. -/
def orFallback (status : CommandStatus) : Handled := if h.fallback then cb.fallback else refusal status none

def handle (pdu : DecodedPDU) : Handled × List Called :=
  let command := pdu.header.commandID
  if isBindRequest command then
    match pdu.body with
    | .struct (.bindRequest request) =>
      if !h.authenticator then (h.orFallback cb statusBindFailed, []) else h.handleBind cb remoteAddr command request
    | _ => (refusal statusSystemError none, [])
  else if command = commandSubmitSM then
    match pdu.body with
    | .struct (.submitSM _) =>
      if !h.submit then (h.orFallback cb statusSystemError, [])
      else
        let (result, err) := Server.submit cb.submitSM
        let status := failedStatus result.status err
        if !CommandStatus.ok status then (refusal status (panicOnly err), [])
        else (.returned (.ok
          { status := statusOK, body := .struct (.submitSMResp { messageID := result.messageID, optional := [] }) }), [])
    | _ => (refusal statusSystemError none, [])
  else (h.orFallback cb statusSystemError, [])

end DispatchHandler

/-! ## What an accepted bind has passed -/

/-- Among the callbacks of one bind: the authenticator accepted it, and the limiter, if there is one, allowed the attempt
and took note of its success. -/
def Authenticated (limiter : Bool) (mode : BindMode) (called : List Called) : Prop :=
  ∃ attempt request result, attempt.mode = mode ∧ attempt.systemID = request.systemID ∧ CommandStatus.ok result.status ∧
    .authenticate mode request (.returned (result, none)) ∈ called ∧
    (limiter → .allowBind attempt (.returned true) ∈ called ∧ .recordBind attempt true (.returned ()) ∈ called)

section Handle
variable {h : DispatchHandler} {cb : Callbacks} {remoteAddr : String} {attempt : BindAttempt} {request : BindRequest}
  {response : Response} {status : CommandStatus}

theorem refusal_not_ok {err : Option Err} (hs : CommandStatus.ok status = false)
    (hr : refusal status err = .returned (.ok response)) : CommandStatus.ok response.status = false := by
  cases err with
  | some err => cases hr
  | none => cases hr; exact hs

theorem failedStatus_ok {err : Option Err} (hs : CommandStatus.ok (failedStatus status err)) :
    err = none ∧ CommandStatus.ok status := by
  cases err with
  | none => exact ⟨rfl, hs⟩
  | some err =>
    unfold failedStatus at hs
    split at hs
    · cases hs
    · next hn => exact absurd hs (by simpa using hn)

theorem bindResponse_ok {result : BindResult} {err : Option Err}
    (hr : DispatchHandler.bindResponse status result err = .returned (.ok response))
    (ho : CommandStatus.ok response.status) : CommandStatus.ok status := by
  unfold DispatchHandler.bindResponse at hr
  split at hr
  · next hs =>
    rw [refusal_not_ok (by simpa using hs) hr] at ho
    cases ho
  · next hs => simpa using hs

theorem authenticate_ok {outcome : Outcome (BindResult × Option Err)}
    (hs : CommandStatus.ok (failedStatus (authenticate outcome).1.status (authenticate outcome).2)) :
    ∃ result, outcome = .returned (result, none) ∧ CommandStatus.ok result.status := by
  obtain ⟨herr, hs⟩ := failedStatus_ok hs
  cases outcome with
  | panicked v => cases herr
  | returned r => exact ⟨r.1, congrArg _ (Prod.ext rfl herr), hs⟩

theorem authenticateBind_ok (hr : (h.authenticateBind cb attempt request).1 = .returned (.ok response))
    (ho : CommandStatus.ok response.status) :
    ∃ result, CommandStatus.ok result.status ∧
      .authenticate attempt.mode request (.returned (result, none)) ∈ (h.authenticateBind cb attempt request).2 ∧
      (h.limiter → .recordBind attempt true (.returned ()) ∈ (h.authenticateBind cb attempt request).2) := by
  have hbind (hr : DispatchHandler.bindResponse (failedStatus (authenticate cb.authenticate).1.status
      (authenticate cb.authenticate).2) (authenticate cb.authenticate).1 (authenticate cb.authenticate).2 =
        .returned (.ok response)) := authenticate_ok (bindResponse_ok hr ho)
  unfold DispatchHandler.authenticateBind at hr ⊢
  simp only at hr ⊢
  split at hr
  · next hl =>
    cases hrec : cb.recordBind with
    | panicked v =>
      rw [hrec] at hr
      cases hr
    | returned u =>
      rw [hrec] at hr
      obtain ⟨result, hauth, hs⟩ := hbind hr
      rw [hauth, if_pos (by rw [hauth] at hl; exact hl)]
      refine ⟨result, hs, List.mem_append_left _ List.mem_cons_self, fun _ => ?_⟩
      refine List.mem_append_right _ (List.mem_singleton.mpr ?_)
      rw [show CommandStatus.ok (failedStatus (authenticate (.returned (result, none))).1.status
        (authenticate (.returned (result, none))).2) = true from hs]
  · next hl =>
    obtain ⟨result, hauth, hs⟩ := hbind hr
    rw [hauth, if_neg (by rw [hauth] at hl; exact hl)]
    refine ⟨result, hs, List.mem_cons_self, fun hlim => ?_⟩
    rw [hauth] at hl
    exact absurd hlim hl

/-- **A bind is accepted only if it was authenticated.** -/
theorem handle_ok {pdu : DecodedPDU} (ha : h.authenticator) (hb : isBindRequest pdu.header.commandID)
    (hr : (h.handle cb remoteAddr pdu).1 = .returned (.ok response)) (ho : CommandStatus.ok response.status) :
    Authenticated h.limiter (bindMode pdu.header.commandID) (h.handle cb remoteAddr pdu).2 := by
  unfold DispatchHandler.handle at hr ⊢
  simp only [hb, ha, if_true, Bool.not_true, Bool.false_eq_true, if_false] at hr ⊢
  split at hr
  · next request _ =>
    unfold DispatchHandler.handleBind at hr ⊢
    simp only at hr ⊢
    split at hr
    · next hl =>
      rw [if_pos hl]
      split at hr <;> dsimp only at hr
      · cases hr
      · rw [refusal_not_ok (show CommandStatus.ok statusThrottled = false from rfl) hr] at ho
        cases ho
      · next hallow =>
        obtain ⟨result, hs, hauth, hrec⟩ := authenticateBind_ok hr ho
        have hallowed : cb.allowBind = .returned true := by
          cases hc : cb.allowBind with
          | returned allowed => rw [hc] at hallow; cases hallow; rfl
          | panicked v => rw [hc] at hallow; cases hallow
        refine ⟨_, request, result, rfl, rfl, hs, List.mem_cons_of_mem _ hauth, fun _ => ⟨?_, List.mem_cons_of_mem _ (hrec hl)⟩⟩
        rw [hallowed]
        exact List.mem_cons_self
    · next hl =>
      rw [if_neg hl]
      obtain ⟨result, hs, hauth, -⟩ := authenticateBind_ok hr ho
      exact ⟨{ remoteAddr, systemID := request.systemID, mode := bindMode pdu.header.commandID }, request, result, rfl, rfl, hs,
        hauth, fun hlim => absurd hlim hl⟩
  · dsimp only at hr
    rw [refusal_not_ok (show CommandStatus.ok statusSystemError = false from rfl) hr] at ho
    cases ho

end Handle

/-! ## Sessions of a server -/

/-- A session whose handler is the dispatch handler, and the callbacks of each call of `Handle`. -/
structure ServedSession where
  session : Session
  log : List (List Called) := []

/-- A step of the session, or the handler's, when its callbacks come to this. -/
inductive ServedLabel where
  | session (label : Session.Label)
  | handle (cb : Callbacks)

/-- The step is a call of the handler. -/
def handles : Session.Label → Bool
  | .rx (.handled _) => true
  | _ => false

namespace ServedSession

def step (h : DispatchHandler) (remoteAddr : String) (t : ServedSession) : ServedLabel → Option ServedSession
  | .session label => if handles label then none else (t.session.step label).map fun s => { t with session := s }
  | .handle cb =>
    match t.session.rx with
    | .handling pdu =>
      let (outcome, called) := h.handle cb remoteAddr pdu
      (t.session.step (.rx (.handled outcome))).map fun s => { session := s, log := t.log ++ [called] }
    | _ => none

end ServedSession

def servedSessions (h : DispatchHandler) (remoteAddr : String) : System ServedSession ServedLabel where
  step := ServedSession.step h remoteAddr

/-- A bind of the mode was authenticated. -/
def ServedSession.Authenticated (t : ServedSession) (limiter : Bool) (bind : CommandID) : Prop :=
  ∃ called ∈ t.log, Server.Authenticated limiter (bindMode bind) called

/-- What holds along every run: a response to a bind that says `StatusOK` is on its way, and a mode is reached, only for a
bind that was authenticated. -/
structure Guarded (h : DispatchHandler) (t : ServedSession) : Prop where
  role : t.session.machine.role = .smsc
  items : t.session.OneWayItems
  queued : ∀ item ∈ t.session.uncommitted, item.kind = .response → isBindRequest item.responseTo →
    CommandStatus.ok item.status → t.Authenticated h.limiter item.responseTo
  mode : t.session.machine.Fresh ∨ ∃ bind, isBindRequest bind ∧ t.session.machine.Bound bind ∧
    (t.session.machine.state ≠ .closed → t.Authenticated h.limiter bind)

section Served
variable {h : DispatchHandler} {remoteAddr : String} {config : Session.Config} {t t' : ServedSession} {label : ServedLabel}

theorem ServedSession.Authenticated.mono {limiter : Bool} {bind : CommandID} (ha : t.Authenticated limiter bind)
    (hlog : t.log ⊆ t'.log) : t'.Authenticated limiter bind := by
  obtain ⟨called, hc, ha⟩ := ha
  exact ⟨called, hlog hc, ha⟩

theorem served_step (hs : (servedSessions h remoteAddr).step t label = some t') :
    t.log ⊆ t'.log ∧ ∃ l, t.session.step l = some t'.session ∧ ∀ pdu outcome, l = .rx (.handled outcome) →
      t.session.rx = .handling pdu →
        ∃ cb, outcome = (h.handle cb remoteAddr pdu).1 ∧ (h.handle cb remoteAddr pdu).2 ∈ t'.log := by
  cases label with
  | session l =>
    have hs : (if handles l then none else (t.session.step l).map fun s => { t with session := s }) = some t' := hs
    split at hs
    · cases hs
    · next hl =>
      obtain ⟨s, hstep, rfl⟩ := Option.map_eq_some_iff.mp hs
      refine ⟨fun _ h => h, l, hstep, ?_⟩
      rintro pdu outcome rfl _
      exact absurd rfl hl
  | handle cb =>
    have hs : ServedSession.step h remoteAddr t (.handle cb) = some t' := hs
    rw [ServedSession.step] at hs
    split at hs
    · next pdu hrx =>
      obtain ⟨s, hstep, rfl⟩ := Option.map_eq_some_iff.mp hs
      refine ⟨List.subset_append_left _ _, _, hstep, ?_⟩
      intro pdu' outcome heq hrx'
      cases heq
      cases hrx.symm.trans hrx'
      exact ⟨cb, rfl, List.mem_append_right _ (List.mem_singleton_self _)⟩
    · cases hs

theorem Guarded.queued_step (ha : h.authenticator) (hg : Guarded h t) (hs : (servedSessions h remoteAddr).step t label = some t')
    {item : TxItem} (hi : item ∈ t'.session.uncommitted) (hk : item.kind = .response) (hb : isBindRequest item.responseTo)
    (ho : CommandStatus.ok item.status) : t'.Authenticated h.limiter item.responseTo := by
  obtain ⟨hlog, l, hstep, hhandled⟩ := served_step hs
  rcases (step_flow hg.items hstep).mem_uncommitted hi hk with hi | ⟨next, hrx, hnext⟩
  · exact (hg.queued item hi hk hb ho).mono hlog
  · obtain ⟨pdu, response, hrx', hl, hc, hst⟩ := hnext.accepts hrx hb ho
    obtain ⟨cb, hout, hmem⟩ := hhandled pdu _ hl hrx'
    rw [← hc] at hb ⊢
    rw [← hst] at ho
    exact ⟨_, hmem, handle_ok ha hb hout.symm ho⟩

theorem Guarded.mode_step (hg : Guarded h t) (hs : (servedSessions h remoteAddr).step t label = some t') :
    t'.session.machine.Fresh ∨ ∃ bind, isBindRequest bind ∧ t'.session.machine.Bound bind ∧
      (t'.session.machine.state ≠ .closed → t'.Authenticated h.limiter bind) := by
  obtain ⟨hlog, l, hstep, -⟩ := served_step hs
  have hm := step_machine hstep
  rcases hg.mode with hf | ⟨bind, hb, hbound, hauth⟩
  · rcases hm.fresh hf with hf | hc | ⟨-, -, -, -, -, -, -, -, -, -, -, -, -, hrole, -⟩ |
      ⟨item, rest, batch, htx, hk, hb, ho, -, hbound⟩
    · exact .inl hf
    · rw [hc]
      exact .inr ⟨commandBindTransmitter, rfl, StateMachine.bound_close _ _, fun hne => absurd rfl hne⟩
    · rw [hg.role] at hrole; cases hrole
    · refine .inr ⟨item.responseTo, hb, hbound, fun _ => (hg.queued item ?_ hk hb ho).mono hlog⟩
      rw [mem_uncommitted, htx]
      exact .inl List.mem_cons_self
  · right
    rcases hm.step with he | hs
    · exact ⟨bind, hb, he ▸ hbound, fun hne => (hauth (he ▸ hne)).mono hlog⟩
    · exact ⟨bind, hb, hbound.step hb hs, fun hne => (hauth fun hc => hne (hbound.closed_step hb hs hc)).mono hlog⟩

theorem Guarded.step (ha : h.authenticator) (hg : Guarded h t) (hs : (servedSessions h remoteAddr).step t label = some t') :
    Guarded h t' := by
  obtain ⟨-, l, hstep, -⟩ := served_step hs
  exact {
    role := step_keeps hstep hg.role fun hm => hm.role.trans hg.role
    items := hg.items.step hstep
    queued := fun _ hi hk hb ho => hg.queued_step ha hs hi hk hb ho
    mode := hg.mode_step hs }

theorem guarded_new (h : DispatchHandler) (config : Session.Config) : Guarded h { session := Session.new config .smsc } where
  role := rfl
  items := fun _ hk => (List.not_mem_nil hk).elim
  queued := fun _ hi => (List.not_mem_nil hi).elim
  mode := .inl ⟨.inl rfl, rfl, rfl, fun h => absurd rfl h, fun h => absurd rfl h⟩

/-- **Authentication soundness.** In every run of an SMSC session whose handler was installed with an authenticator, the
session is bound in a mode only after a bind of this mode was authenticated on it. -/
theorem run_authenticated {bind : CommandID} (ha : h.authenticator)
    (hrun : (servedSessions h remoteAddr).Run anyStep { session := Session.new config .smsc } t)
    (hb : isBindRequest bind) (hs : t.session.machine.state = boundStateForBind bind) :
    t.Authenticated h.limiter bind := by
  have hg : Guarded h t := hrun.invariant (fun _ _ _ _ hs hg => hg.step ha hs) (guarded_new h config)
  have hbs := isBoundState_boundStateForBind hb
  rw [← hs] at hbs
  rcases hg.mode with hf | ⟨bind', hb', hbound, hauth⟩
  · rcases hf.state with ho | ho <;> rw [ho] at hbs <;> cases hbs
  · rw [boundStateForBind_inj hb hb' (hs.symm.trans (hbound.state_of_unbind hbs))]
    exact hauth fun hc => by rw [hc] at hbs; cases hbs

def limitedHandler : DispatchHandler := { authenticator := true, limiter := true }

def acceptingCallbacks : Callbacks where
  allowBind := .returned true
  authenticate := .returned ({ status := statusOK }, none)
  recordBind := .returned ()
  submitSM := .returned ({ status := statusSystemError }, none)
  fallback := .returned (.ok { status := statusSystemError, body := emptyBody })

/-- A `bind_transceiver` with empty names and the interface version 3.4. -/
def bindTransceiverFrame : Octets := [0, 0, 0, 23, 0, 0, 0, 9, 0, 0, 0, 0, 0, 0, 0, 1, 0, 0, 0, 0x34, 0, 0, 0]

def servedBind : List ServedLabel :=
  [.session (.frame bindTransceiverFrame), .session (.rx .go), .handle acceptingCallbacks, .session (.rx .go)] ++
    List.replicate 4 (.session (.tx .go))

theorem run_authenticated_servedBind : ∃ t,
    (servedSessions limitedHandler "").Run anyStep { session := Session.new { handler := true } .smsc } t ∧
    t.session.machine.state = .boundTRX ∧ t.Authenticated true commandBindTransceiver := by
  have hrun := System.run_after (servedSessions limitedHandler "") anyStep { session := Session.new { handler := true } .smsc }
    servedBind (by decide +kernel)
  have hs : ((servedSessions limitedHandler "").after anyStep { session := Session.new { handler := true } .smsc }
    servedBind).session.machine.state = .boundTRX := by decide +kernel
  exact ⟨_, hrun, hs, run_authenticated (h := limitedHandler) rfl hrun (by decide) hs⟩

end Served

end GoSmpp.Server
