import GoSmpp.Protocol.Errors

/-!
# Package `session`: the state machine

`session/state.go` and `session/state_cancel.go`: the operation/state matrix `standardRules`, and the transitions of
`StateMachine`, each of which runs under the machine's mutex and is one step.

* `canIssue_bind`, `canIssue_unbind`, `canIssue_outbind`: the rows of the matrix for the commands that move the state.
* `StateMachine.Step`: any one transition. `Bound`, which says that a machine is bound in a mode, back there after a
  refused unbind, unbinding from it or closed, is kept by every transition (`Bound.step`).
* `Fresh`: what a machine that has not been bound yet keeps to. Every machine of a session is `Valid`: fresh or bound.
-/

namespace GoSmpp.Session
open Protocol

/-! ## The operation/state matrix -/

/-- `session.operationRule`: who may issue a command (`none`, the source's 0, is either role), and in which states. -/
structure OperationRule where
  actor : Option Role := none
  states : List SessionState
  deriving DecidableEq, Repr

def OperationRule.allows (r : OperationRule) (state : SessionState) (role : Role) : Bool :=
  (r.actor.all (· == role)) && r.states.contains state

def openOnly : List SessionState := [.open]
def openOrOutbound : List SessionState := [.open, .outbound]
def boundStates : List SessionState := [.boundTX, .boundRX, .boundTRX]
def boundOrUnbound : List SessionState := [.boundTX, .boundRX, .boundTRX, .unbound]
def boundTXOrTRX : List SessionState := [.boundTX, .boundTRX]
def boundRXOrTRX : List SessionState := [.boundRX, .boundTRX]
def boundTXOnly : List SessionState := [.boundTX]

def standardRules : List (CommandID × OperationRule) :=
  [ (commandBindTransmitter, { actor := some .esme, states := openOnly }),
    (commandBindTransceiver, { actor := some .esme, states := openOnly }),
    (commandBindReceiver, { actor := some .esme, states := openOrOutbound }),
    (commandBindTransmitterResp, { actor := some .smsc, states := openOnly }),
    (commandBindTransceiverResp, { actor := some .smsc, states := openOnly }),
    (commandBindReceiverResp, { actor := some .smsc, states := openOrOutbound }),
    (commandOutbind, { actor := some .smsc, states := openOnly }),
    (commandUnbind, { states := boundStates }),
    (commandUnbindResp, { states := boundOrUnbound }),
    (commandEnquireLink, { states := boundStates }),
    (commandEnquireLinkResp, { states := boundStates }),
    (commandSubmitSM, { actor := some .esme, states := boundTXOrTRX }),
    (commandSubmitMulti, { actor := some .esme, states := boundTXOrTRX }),
    (commandQuerySM, { actor := some .esme, states := boundTXOrTRX }),
    (commandCancelSM, { actor := some .esme, states := boundTXOrTRX }),
    (commandBroadcastSM, { actor := some .esme, states := boundTXOrTRX }),
    (commandQueryBroadcastSM, { actor := some .esme, states := boundTXOrTRX }),
    (commandCancelBroadcastSM, { actor := some .esme, states := boundTXOrTRX }),
    (commandReplaceSM, { actor := some .esme, states := boundTXOnly }),
    (commandSubmitSMResp, { actor := some .smsc, states := boundTXOrTRX }),
    (commandSubmitMultiResp, { actor := some .smsc, states := boundTXOrTRX }),
    (commandQuerySMResp, { actor := some .smsc, states := boundTXOrTRX }),
    (commandCancelSMResp, { actor := some .smsc, states := boundTXOrTRX }),
    (commandBroadcastSMResp, { actor := some .smsc, states := boundTXOrTRX }),
    (commandQueryBroadcastSMResp, { actor := some .smsc, states := boundTXOrTRX }),
    (commandCancelBroadcastSMResp, { actor := some .smsc, states := boundTXOrTRX }),
    (commandReplaceSMResp, { actor := some .smsc, states := boundTXOnly }),
    (commandDeliverSM, { actor := some .smsc, states := boundRXOrTRX }),
    (commandDeliverSMResp, { actor := some .esme, states := boundRXOrTRX }),
    (commandDataSM, { states := boundStates }),
    (commandDataSMResp, { states := boundStates }),
    (commandAlertNotification, { actor := some .smsc, states := boundRXOrTRX }) ]

def canIssue (state : SessionState) (role : Role) (command : CommandID) : Bool :=
  if state = .closed then false
  else if command = commandGenericNACK then true
  else
    match standardRules.lookup command with
    | none => false
    | some rule => rule.allows state role

def isStandardCommand (command : CommandID) : Bool :=
  command == commandGenericNACK || (standardRules.lookup command).isSome

def isBindRequest (command : CommandID) : Bool :=
  command == commandBindTransmitter || command == commandBindReceiver || command == commandBindTransceiver

def boundStateForBind (command : CommandID) : SessionState :=
  if command = commandBindTransmitter then .boundTX
  else if command = commandBindReceiver then .boundRX
  else if command = commandBindTransceiver then .boundTRX
  else .open

def isOneWayCommand (command : CommandID) : Bool :=
  command == commandOutbind || command == commandAlertNotification

def isLifecycleRequest (command : CommandID) : Bool := isBindRequest command || command == commandUnbind

def isBoundState (state : SessionState) : Bool :=
  state == .boundTX || state == .boundRX || state == .boundTRX

/-! ## The machine -/

/-- `session.StateMachine`. A pending bind of 0 is none. -/
structure StateMachine where
  role : Role
  state : SessionState := .closed
  pendingLocalBind : CommandID := 0
  pendingPeerBind : CommandID := 0
  localUnbindFrom : SessionState := .closed
  peerUnbindFrom : SessionState := .closed
  deriving DecidableEq, Repr

def newStateMachine (role : Role) : StateMachine := { role }

namespace StateMachine

/-- `StateMachine.Open`. -/
def «open» (m : StateMachine) : Except Err StateMachine :=
  if m.state ≠ .closed then .error (.state m.state 0 m.role) else .ok { m with state := .open }

def markOutbound (m : StateMachine) : Except Err StateMachine :=
  if m.state ≠ .open then .error (.state m.state commandOutbind m.role) else .ok { m with state := .outbound }

def beginOutbound (m : StateMachine) (command : CommandID) : Except Err StateMachine :=
  if !canIssue m.state m.role command then .error (.state m.state command m.role)
  else if isBindRequest command && m.pendingLocalBind != 0 then .error (.sentinel .bindInProgress)
  else
    let m := if isBindRequest command then { m with pendingLocalBind := command } else m
    let m := if command = commandUnbind then { m with localUnbindFrom := m.state, state := .unbound } else m
    .ok (if command = commandOutbind then { m with state := .outbound } else m)

def cancelOutbound (m : StateMachine) (command : CommandID) : StateMachine :=
  let m := if isBindRequest command && m.pendingLocalBind == command then { m with pendingLocalBind := 0 } else m
  let m := if command = commandUnbind ∧ m.state = .unbound ∧ m.localUnbindFrom ≠ .closed then
    { m with state := m.localUnbindFrom, localUnbindFrom := .closed } else m
  if command = commandOutbind ∧ m.state = .outbound then { m with state := .open } else m

def completeOutbound (m : StateMachine) (command : CommandID) (status : CommandStatus) : StateMachine :=
  if isBindRequest command then
    if m.pendingLocalBind ≠ command then m
    else { m with pendingLocalBind := 0, state := if CommandStatus.ok status then boundStateForBind command else m.state }
  else if command = commandUnbind ∧ m.state = .unbound then
    { m with
      state := if CommandStatus.ok status then .closed
        else if m.localUnbindFrom ≠ .closed then m.localUnbindFrom else m.state
      localUnbindFrom := .closed }
  else m

def beginInbound (m : StateMachine) (command : CommandID) : Except Err StateMachine :=
  if !canIssue m.state m.role.peer command then .error (.state m.state command m.role.peer)
  else if isBindRequest command && m.pendingPeerBind != 0 then .error (.sentinel .bindInProgress)
  else
    let m := if isBindRequest command then { m with pendingPeerBind := command } else m
    let m := if command = commandUnbind then { m with peerUnbindFrom := m.state, state := .unbound } else m
    .ok (if command = commandOutbind then { m with state := .outbound } else m)

def completeInbound (m : StateMachine) (command : CommandID) (status : CommandStatus) : StateMachine :=
  if isBindRequest command then
    if m.pendingPeerBind ≠ command then m
    else { m with pendingPeerBind := 0, state := if CommandStatus.ok status then boundStateForBind command else m.state }
  else if command = commandUnbind ∧ m.state = .unbound then
    { m with
      state := if CommandStatus.ok status then .closed
        else if m.peerUnbindFrom ≠ .closed then m.peerUnbindFrom else m.state
      peerUnbindFrom := .closed }
  else m

def cancelInbound (m : StateMachine) (command : CommandID) : StateMachine :=
  let m := if isBindRequest command && m.pendingPeerBind == command then { m with pendingPeerBind := 0 } else m
  if command = commandUnbind ∧ m.state = .unbound ∧ m.peerUnbindFrom ≠ .closed then
    { m with state := m.peerUnbindFrom, peerUnbindFrom := .closed } else m

def close (m : StateMachine) : StateMachine := { role := m.role }

end StateMachine

/-! ## The rows of the matrix that move the state -/

theorem isBindRequest_cases {command : CommandID} (h : isBindRequest command) :
    command = commandBindTransmitter ∨ command = commandBindReceiver ∨ command = commandBindTransceiver := by
  simpa [isBindRequest, or_assoc] using h

theorem isBindRequest_ne_zero {command : CommandID} (h : isBindRequest command) : command ≠ 0 := by
  rintro rfl
  exact absurd h (by decide)

theorem canIssue_bind {state : SessionState} {role : Role} {command : CommandID} (h : canIssue state role command)
    (hb : isBindRequest command) : role = .esme ∧ (state = .open ∨ state = .outbound) := by
  rcases isBindRequest_cases hb with rfl | rfl | rfl <;> cases state <;> cases role <;> revert h <;> decide

theorem canIssue_unbind {state : SessionState} {role : Role} (h : canIssue state role commandUnbind) :
    isBoundState state := by
  cases state <;> cases role <;> revert h <;> decide

theorem canIssue_outbind {state : SessionState} {role : Role} (h : canIssue state role commandOutbind) :
    role = .smsc ∧ state = .open := by
  cases state <;> cases role <;> revert h <;> decide

theorem not_isBindRequest_unbind : isBindRequest commandUnbind = false := by decide

theorem isBoundState_boundStateForBind {command : CommandID} (h : isBindRequest command) :
    isBoundState (boundStateForBind command) := by
  rcases isBindRequest_cases h with rfl | rfl | rfl <;> decide

theorem boundStateForBind_inj {a b : CommandID} (ha : isBindRequest a) (hb : isBindRequest b)
    (h : boundStateForBind a = boundStateForBind b) : a = b := by
  rcases isBindRequest_cases ha with rfl | rfl | rfl <;> rcases isBindRequest_cases hb with rfl | rfl | rfl <;>
    first | rfl | cases h

/-! ## What every transition keeps -/

namespace StateMachine

inductive Step : StateMachine → StateMachine → Prop
  | beginOutbound {m m' command} : m.beginOutbound command = .ok m' → Step m m'
  | cancelOutbound (m command) : Step m (m.cancelOutbound command)
  | completeOutbound (m command status) : Step m (m.completeOutbound command status)
  | beginInbound {m m' command} : m.beginInbound command = .ok m' → Step m m'
  | completeInbound (m command status) : Step m (m.completeInbound command status)
  | cancelInbound (m command) : Step m (m.cancelInbound command)
  | markOutbound {m m'} : m.markOutbound = .ok m' → Step m m'
  | close (m) : Step m m.close

theorem beginOutbound_ok {m m' : StateMachine} {command : CommandID} (h : m.beginOutbound command = .ok m') :
    canIssue m.state m.role command ∧
    ((isBindRequest command ∧ m.pendingLocalBind = 0 ∧ m' = { m with pendingLocalBind := command }) ∨
     (command = commandUnbind ∧ m' = { m with localUnbindFrom := m.state, state := .unbound }) ∨
     (command = commandOutbind ∧ m' = { m with state := .outbound }) ∨
     (isLifecycleRequest command = false ∧ m' = m)) := by
  unfold beginOutbound at h
  split at h
  · cases h
  next hcan =>
  rw [Bool.not_eq_true', Bool.not_eq_false] at hcan
  refine ⟨hcan, ?_⟩
  split at h
  · cases h
  next hbusy =>
  by_cases hb : isBindRequest command
  · have hu : command ≠ commandUnbind := by rintro rfl; exact absurd hb (by decide)
    have ho : command ≠ commandOutbind := by rintro rfl; exact absurd hb (by decide)
    simp only [hb, if_true, hu, if_false, ho, Except.ok.injEq] at h
    simp only [hb, Bool.true_and, bne_iff_ne, ne_eq, not_not] at hbusy
    exact .inl ⟨hb, hbusy, h.symm⟩
  · simp only [hb, Bool.false_eq_true, if_false] at h
    by_cases hu : command = commandUnbind
    · have ho : command ≠ commandOutbind := by rw [hu]; decide
      simp only [hu, if_true, Except.ok.injEq] at h
      exact .inr (.inl ⟨hu, h.symm⟩)
    · simp only [hu, if_false] at h
      by_cases ho : command = commandOutbind
      · simp only [ho, if_true, Except.ok.injEq] at h
        exact .inr (.inr (.inl ⟨ho, h.symm⟩))
      · simp only [ho, if_false, Except.ok.injEq] at h
        refine .inr (.inr (.inr ⟨?_, h.symm⟩))
        simp [isLifecycleRequest, hb, hu]

/-- The machine as the peer's operations see it. The inbound transitions are the outbound ones of the mirrored machine,
so that what is proved of one direction holds of the other. -/
def mirror (m : StateMachine) : StateMachine where
  role := m.role.peer
  state := m.state
  pendingLocalBind := m.pendingPeerBind
  pendingPeerBind := m.pendingLocalBind
  localUnbindFrom := m.peerUnbindFrom
  peerUnbindFrom := m.localUnbindFrom

@[simp] theorem mirror_mirror (m : StateMachine) : m.mirror.mirror = m := by
  rcases m with ⟨_ | _, _, _, _, _, _⟩ <;> rfl

theorem beginInbound_mirror {m m' : StateMachine} {command : CommandID} (h : m.beginInbound command = .ok m') :
    m.mirror.beginOutbound command = .ok m'.mirror := by
  unfold beginInbound at h
  unfold beginOutbound
  split at h
  · cases h
  · next hcan =>
    split at h
    · cases h
    · next hbusy =>
      rw [if_neg (by exact hcan), if_neg (by exact hbusy)]
      cases h
      by_cases hb : isBindRequest command <;> by_cases hu : command = commandUnbind <;>
        by_cases ho : command = commandOutbind <;> simp only [hb, hu, ho, if_true, if_false] <;> rfl

theorem beginInbound_ok {m m' : StateMachine} {command : CommandID} (h : m.beginInbound command = .ok m') :
    canIssue m.state m.role.peer command ∧
    ((isBindRequest command ∧ m.pendingPeerBind = 0 ∧ m' = { m with pendingPeerBind := command }) ∨
     (command = commandUnbind ∧ m' = { m with peerUnbindFrom := m.state, state := .unbound }) ∨
     (command = commandOutbind ∧ m' = { m with state := .outbound }) ∨
     (isLifecycleRequest command = false ∧ m' = m)) := by
  have hinj {n : StateMachine} (hn : m'.mirror = n) : m' = n.mirror := by rw [← hn, mirror_mirror]
  obtain ⟨hcan, hcases⟩ := beginOutbound_ok (beginInbound_mirror h)
  have hm := mirror_mirror m
  refine ⟨hcan, ?_⟩
  rcases hcases with ⟨hb, hp, he⟩ | ⟨hu, he⟩ | ⟨ho, he⟩ | ⟨hl, he⟩
  · exact .inl ⟨hb, hp, (hinj he).trans (congrArg (fun n : StateMachine => { n with pendingPeerBind := command }) hm)⟩
  · exact .inr (.inl ⟨hu, (hinj he).trans
      (congrArg (fun n : StateMachine => { n with peerUnbindFrom := n.state, state := .unbound }) hm)⟩)
  · exact .inr (.inr (.inl ⟨ho, (hinj he).trans (congrArg (fun n : StateMachine => { n with state := .outbound }) hm)⟩))
  · exact .inr (.inr (.inr ⟨hl, (hinj he).trans hm⟩))

theorem completeInbound_mirror (m : StateMachine) (command : CommandID) (status : CommandStatus) :
    (m.completeInbound command status).mirror = m.mirror.completeOutbound command status := by
  unfold completeInbound completeOutbound
  by_cases hb : isBindRequest command
  · by_cases hp : m.pendingPeerBind = command
    · rw [if_pos hb, if_pos hb, if_neg (not_not.mpr hp), if_neg (not_not.mpr (by exact hp))]
      rfl
    · rw [if_pos hb, if_pos hb, if_pos hp, if_pos (by exact hp)]
  · rw [if_neg hb, if_neg hb]
    by_cases hu : command = commandUnbind ∧ m.state = .unbound
    · have hu' : command = commandUnbind ∧ m.mirror.state = .unbound := hu
      rw [if_pos hu, if_pos hu']
      rfl
    · have hu' : ¬ (command = commandUnbind ∧ m.mirror.state = .unbound) := hu
      rw [if_neg hu, if_neg hu']

theorem cancelInbound_mirror (m : StateMachine) (command : CommandID) :
    (m.cancelInbound command).mirror = m.mirror.cancelOutbound command ∨ m.cancelInbound command = m := by
  by_cases ho : command = commandOutbind
  · subst ho
    exact .inr rfl
  · left
    unfold cancelInbound cancelOutbound
    simp only [ho, false_and, if_false]
    by_cases hb : (isBindRequest command && m.pendingPeerBind == command) = true
    · have hb' : (isBindRequest command && m.mirror.pendingLocalBind == command) = true := hb
      have hu : command ≠ commandUnbind := by
        rintro rfl
        exact absurd hb (by simp [not_isBindRequest_unbind])
      simp only [hb, hb', if_true, hu, false_and, if_false]
      rfl
    · have hb' : ¬ (isBindRequest command && m.mirror.pendingLocalBind == command) = true := hb
      simp only [hb, hb', Bool.false_eq_true, if_false]
      by_cases hu : command = commandUnbind ∧ m.state = .unbound ∧ m.peerUnbindFrom ≠ .closed
      · have hu' : command = commandUnbind ∧ m.mirror.state = .unbound ∧ m.mirror.localUnbindFrom ≠ .closed := hu
        rw [if_pos hu, if_pos hu']
        rfl
      · have hu' : ¬ (command = commandUnbind ∧ m.mirror.state = .unbound ∧ m.mirror.localUnbindFrom ≠ .closed) := hu
        rw [if_neg hu, if_neg hu']

/-- What `CancelOutbound` takes back: the bind, the unbind or the outbind that is in progress, or nothing. -/
theorem cancelOutbound_cases (m : StateMachine) (command : CommandID) :
    (isBindRequest command ∧ m.pendingLocalBind = command ∧ m.cancelOutbound command = { m with pendingLocalBind := 0 }) ∨
    (command = commandUnbind ∧ m.state = .unbound ∧ m.localUnbindFrom ≠ .closed ∧
      m.cancelOutbound command = { m with state := m.localUnbindFrom, localUnbindFrom := .closed }) ∨
    (command = commandOutbind ∧ m.state = .outbound ∧ m.cancelOutbound command = { m with state := .open }) ∨
    (¬ (isBindRequest command ∧ m.pendingLocalBind = command) ∧
      ¬ (command = commandUnbind ∧ m.state = .unbound ∧ m.localUnbindFrom ≠ .closed) ∧ m.cancelOutbound command = m) := by
  unfold cancelOutbound
  by_cases hb : isBindRequest command ∧ m.pendingLocalBind = command
  · obtain ⟨hb, hp⟩ := hb
    refine .inl ⟨hb, hp, ?_⟩
    simp only [hb, hp, beq_self_eq_true, Bool.and_self, if_true]
    rcases isBindRequest_cases hb with rfl | rfl | rfl <;> rfl
  have hb' : (isBindRequest command && m.pendingLocalBind == command) = false := by simpa using hb
  simp only [hb', Bool.false_eq_true, if_false]
  by_cases hu : command = commandUnbind ∧ m.state = .unbound ∧ m.localUnbindFrom ≠ .closed
  · rw [if_pos hu, if_neg (fun ho => absurd (hu.1.symm.trans ho.1) (by decide))]
    exact .inr (.inl ⟨hu.1, hu.2.1, hu.2.2, rfl⟩)
  · rw [if_neg hu]
    split
    · next ho => exact .inr (.inr (.inl ⟨ho.1, ho.2, rfl⟩))
    · exact .inr (.inr (.inr ⟨hb, hu, rfl⟩))

theorem cancelOutbound_role (m : StateMachine) (command : CommandID) : (m.cancelOutbound command).role = m.role := by
  unfold cancelOutbound
  simp only
  split <;> split <;> split <;> rfl

theorem completeOutbound_role (m : StateMachine) (command : CommandID) (status : CommandStatus) :
    (m.completeOutbound command status).role = m.role := by
  unfold completeOutbound
  split
  · split <;> rfl
  · split <;> rfl

theorem markOutbound_ok {m m' : StateMachine} (h : m.markOutbound = .ok m') :
    m.state = .open ∧ m' = { m with state := .outbound } := by
  unfold markOutbound at h
  split at h <;> cases h
  exact ⟨not_not.mp ‹_›, rfl⟩

theorem Step.role {m m' : StateMachine} (h : m.Step m') : m'.role = m.role := by
  cases h with
  | beginOutbound hb => obtain ⟨-, ⟨-, -, rfl⟩ | ⟨-, rfl⟩ | ⟨-, rfl⟩ | ⟨-, rfl⟩⟩ := beginOutbound_ok hb <;> rfl
  | cancelOutbound command => exact cancelOutbound_role m command
  | completeOutbound command status => exact completeOutbound_role m command status
  | beginInbound hb => obtain ⟨-, ⟨-, -, rfl⟩ | ⟨-, rfl⟩ | ⟨-, rfl⟩ | ⟨-, rfl⟩⟩ := beginInbound_ok hb <;> rfl
  | completeInbound command status =>
    unfold StateMachine.completeInbound
    split
    · split <;> rfl
    · split <;> rfl
  | cancelInbound command =>
    unfold StateMachine.cancelInbound
    simp only
    split <;> split <;> rfl
  | markOutbound ho => rw [(markOutbound_ok ho).2]
  | close => rfl

theorem beginOutbound_closed {m m' : StateMachine} {command : CommandID} (h : m.beginOutbound command = .ok m')
    (hs : m'.state = .closed) : m.state = .closed := by
  obtain ⟨-, ⟨-, -, rfl⟩ | ⟨-, rfl⟩ | ⟨-, rfl⟩ | ⟨-, rfl⟩⟩ := beginOutbound_ok h
  · exact hs
  · cases hs
  · cases hs
  · exact hs

theorem cancelOutbound_closed {m : StateMachine} {command : CommandID} (hs : (m.cancelOutbound command).state = .closed) :
    m.state = .closed := by
  unfold cancelOutbound at hs
  simp only at hs
  -- a cancelled bind, a restored unbind and a cancelled outbind: none of them ends in `closed`
  split at hs <;> split at hs <;> split at hs
  all_goals first | exact hs | cases hs | simp_all

theorem completeOutbound_closed {m : StateMachine} {command : CommandID} {status : CommandStatus}
    (hs : (m.completeOutbound command status).state = .closed) :
    m.state = .closed ∨ (command = commandUnbind ∧ CommandStatus.ok status) := by
  unfold completeOutbound at hs
  split at hs
  · next hb =>
    split at hs
    · exact .inl hs
    · simp only at hs
      split at hs
      · rcases isBindRequest_cases hb with rfl | rfl | rfl <;> cases hs
      · exact .inl hs
  · split at hs
    · next hu =>
      simp only at hs
      split at hs
      · next hst => exact .inr ⟨hu.1, hst⟩
      · split at hs
        · next hl => exact absurd hs hl
        · exact .inl hs
    · exact .inl hs

/-- A machine that has not been bound: no unbind has begun, and only an ESME's bind can be pending. -/
structure Fresh (m : StateMachine) : Prop where
  state : m.state = .open ∨ m.state = .outbound
  localUnbindFrom : m.localUnbindFrom = .closed
  peerUnbindFrom : m.peerUnbindFrom = .closed
  localBind : m.pendingLocalBind ≠ 0 → m.role = .esme
  peerBind : m.pendingPeerBind ≠ 0 → m.role = .smsc

/-- A machine that is bound in the mode of `command`, is unbinding from it, or is closed. -/
structure Bound (command : CommandID) (m : StateMachine) : Prop where
  state : m.state = boundStateForBind command ∨ m.state = .unbound ∨ m.state = .closed
  localUnbindFrom : m.localUnbindFrom = .closed ∨ m.localUnbindFrom = boundStateForBind command
  peerUnbindFrom : m.peerUnbindFrom = .closed ∨ m.peerUnbindFrom = boundStateForBind command
  localBind : m.pendingLocalBind = 0
  peerBind : m.pendingPeerBind = 0

theorem Fresh.mirror {m : StateMachine} (h : m.Fresh) : m.mirror.Fresh where
  state := h.state
  localUnbindFrom := h.peerUnbindFrom
  peerUnbindFrom := h.localUnbindFrom
  localBind hp := by show m.role.peer = .esme; rw [h.peerBind hp]; rfl
  peerBind hp := by show m.role.peer = .smsc; rw [h.localBind hp]; rfl

theorem Bound.mirror {m : StateMachine} {command : CommandID} (h : m.Bound command) : m.mirror.Bound command where
  state := h.state
  localUnbindFrom := h.peerUnbindFrom
  peerUnbindFrom := h.localUnbindFrom
  localBind := h.peerBind
  peerBind := h.localBind

theorem Bound.of_mirror {m : StateMachine} {command : CommandID} (h : m.mirror.Bound command) : m.Bound command := by
  have := h.mirror
  rwa [mirror_mirror] at this

theorem Fresh.of_mirror {m : StateMachine} (h : m.mirror.Fresh) : m.Fresh := by
  have := h.mirror
  rwa [mirror_mirror] at this

theorem bound_close (m : StateMachine) (command : CommandID) : m.close.Bound command :=
  ⟨.inr (.inr rfl), .inl rfl, .inl rfl, rfl, rfl⟩

section Bound
variable {m m' : StateMachine} {bind command : CommandID} {status : CommandStatus}

theorem Bound.not_open (hb : isBindRequest bind) (h : m.Bound bind) : m.state ≠ .open ∧ m.state ≠ .outbound := by
  rcases isBindRequest_cases hb with rfl | rfl | rfl <;> rcases h.state with hs | hs | hs <;> rw [hs] <;> decide

theorem Bound.state_of_unbind (h : m.Bound bind) (hs : isBoundState m.state) : m.state = boundStateForBind bind := by
  rcases h.state with hb | hb | hb
  · exact hb
  · rw [hb] at hs; cases hs
  · rw [hb] at hs; cases hs

theorem Bound.beginOutbound_eq (hb : isBindRequest bind) (h : m.Bound bind) (ho : m.beginOutbound command = .ok m') :
    m' = m ∨ m.state = boundStateForBind bind ∧ m' = { m with localUnbindFrom := m.state, state := .unbound } := by
  have hopen := h.not_open hb
  obtain ⟨hcan, ⟨hc, -, -⟩ | ⟨rfl, rfl⟩ | ⟨rfl, -⟩ | ⟨-, rfl⟩⟩ := beginOutbound_ok ho
  · rcases (canIssue_bind hcan hc).2 with hs | hs
    · exact absurd hs hopen.1
    · exact absurd hs hopen.2
  · exact .inr ⟨h.state_of_unbind (canIssue_unbind hcan), rfl⟩
  · exact absurd (canIssue_outbind hcan).2 hopen.1
  · exact .inl rfl

theorem Bound.beginOutbound (hb : isBindRequest bind) (h : m.Bound bind) (ho : m.beginOutbound command = .ok m') :
    m'.Bound bind := by
  obtain rfl | ⟨hs, rfl⟩ := h.beginOutbound_eq hb ho
  · exact h
  · exact ⟨.inr (.inl rfl), .inr hs, h.peerUnbindFrom, h.localBind, h.peerBind⟩

theorem Bound.cancelOutbound_eq (h : m.Bound bind) (hb : isBindRequest bind) (command : CommandID) :
    m.cancelOutbound command = m ∨
    (command = commandUnbind ∧ m.state = .unbound ∧ m.localUnbindFrom = boundStateForBind bind ∧
      m.cancelOutbound command = { m with state := boundStateForBind bind, localUnbindFrom := .closed }) := by
  rcases cancelOutbound_cases m command with ⟨-, -, he⟩ | ⟨hc, hu, hl, he⟩ | ⟨-, ho, -⟩ | ⟨-, -, he⟩
  · rw [he, ← h.localBind]
    exact .inl rfl
  · have hl := h.localUnbindFrom.resolve_left hl
    exact .inr ⟨hc, hu, hl, by rw [he, hl]⟩
  · exact absurd ho (h.not_open hb).2
  · exact .inl he

theorem Bound.completeOutbound_eq (h : m.Bound bind) (command : CommandID) (status : CommandStatus) :
    m.completeOutbound command status = m ∨
    (command = commandUnbind ∧ m.state = .unbound ∧ CommandStatus.ok status ∧
      m.completeOutbound command status = { m with state := .closed, localUnbindFrom := .closed }) ∨
    (command = commandUnbind ∧ m.state = .unbound ∧ CommandStatus.ok status = false ∧
      m.localUnbindFrom = boundStateForBind bind ∧
      m.completeOutbound command status = { m with state := boundStateForBind bind, localUnbindFrom := .closed }) := by
  unfold StateMachine.completeOutbound
  split
  · next hc =>
    rw [if_pos (by rw [h.localBind]; exact (isBindRequest_ne_zero hc).symm)]
    exact .inl rfl
  · split
    · next hu =>
      cases hok : CommandStatus.ok status with
      | true => exact .inr (.inl ⟨hu.1, hu.2, rfl, rfl⟩)
      | false =>
        by_cases hl : m.localUnbindFrom = .closed
        · left
          simp only [hl, Bool.false_eq_true, if_false, ne_eq, not_true_eq_false]
          rw [← hl]
        · right
          right
          have hl' := h.localUnbindFrom.resolve_left hl
          simp only [Bool.false_eq_true, if_false, hl', ne_eq]
          rw [if_pos (by rw [← hl']; exact hl)]
          exact ⟨hu.1, hu.2, trivial, trivial, rfl⟩
    · exact .inl rfl

theorem Bound.cancelOutbound (hb : isBindRequest bind) (h : m.Bound bind) : (m.cancelOutbound command).Bound bind := by
  rcases h.cancelOutbound_eq hb command with he | ⟨-, -, -, he⟩ <;> rw [he]
  · exact h
  · exact ⟨.inl rfl, .inl rfl, h.peerUnbindFrom, h.localBind, h.peerBind⟩

theorem Bound.completeOutbound (h : m.Bound bind) : (m.completeOutbound command status).Bound bind := by
  rcases h.completeOutbound_eq command status with he | ⟨-, -, -, he⟩ | ⟨-, -, -, -, he⟩ <;> rw [he]
  · exact h
  · exact ⟨.inr (.inr rfl), .inl rfl, h.peerUnbindFrom, h.localBind, h.peerBind⟩
  · exact ⟨.inl rfl, .inl rfl, h.peerUnbindFrom, h.localBind, h.peerBind⟩

/-- **A bound machine stays bound in its mode until it is unbound or closed**, whatever the transitions. -/
theorem Bound.step (hb : isBindRequest bind) (h : m.Bound bind) (hs : m.Step m') : m'.Bound bind := by
  cases hs with
  | beginOutbound ho => exact h.beginOutbound hb ho
  | cancelOutbound => exact h.cancelOutbound hb
  | completeOutbound => exact h.completeOutbound
  | beginInbound hi => exact (h.mirror.beginOutbound hb (beginInbound_mirror hi)).of_mirror
  | completeInbound command status =>
    refine Bound.of_mirror ?_
    rw [completeInbound_mirror]
    exact h.mirror.completeOutbound
  | cancelInbound command =>
    rcases cancelInbound_mirror m command with he | he
    · exact Bound.of_mirror (by rw [he]; exact h.mirror.cancelOutbound hb)
    · rw [he]; exact h
  | markOutbound ho => exact absurd (markOutbound_ok ho).1 (h.not_open hb).1
  | close => exact bound_close m bind

end Bound

section Fresh
variable {m m' : StateMachine} {command : CommandID} {status : CommandStatus}

theorem Fresh.not_unbound (h : m.Fresh) : m.state ≠ .unbound := by
  rcases h.state with hs | hs <;> rw [hs] <;> decide

theorem Fresh.beginOutbound (h : m.Fresh) (ho : m.beginOutbound command = .ok m') : m'.Fresh := by
  obtain ⟨hcan, ⟨hc, -, rfl⟩ | ⟨rfl, -⟩ | ⟨-, rfl⟩ | ⟨-, rfl⟩⟩ := beginOutbound_ok ho
  · exact ⟨h.state, h.localUnbindFrom, h.peerUnbindFrom, fun _ => (canIssue_bind hcan hc).1, h.peerBind⟩
  · have := canIssue_unbind hcan
    rcases h.state with hs | hs <;> rw [hs] at this <;> cases this
  · exact ⟨.inr rfl, h.localUnbindFrom, h.peerUnbindFrom, h.localBind, h.peerBind⟩
  · exact h

theorem Fresh.cancelOutbound (h : m.Fresh) : (m.cancelOutbound command).Fresh := by
  obtain ⟨hs, hl, hp, hlocal, hpeer⟩ := h
  rcases cancelOutbound_cases m command with ⟨-, -, he⟩ | ⟨-, -, hne, -⟩ | ⟨-, -, he⟩ | ⟨-, -, he⟩
  · rw [he]
    exact ⟨hs, hl, hp, fun hn => absurd rfl hn, hpeer⟩
  · exact absurd hl hne
  · rw [he]
    exact ⟨.inl rfl, hl, hp, hlocal, hpeer⟩
  · rw [he]
    exact ⟨hs, hl, hp, hlocal, hpeer⟩

theorem Fresh.completeOutbound (h : m.Fresh) (command : CommandID) (status : CommandStatus) :
    (m.completeOutbound command status).Fresh ∨
      (isBindRequest command ∧ m.pendingLocalBind = command ∧ CommandStatus.ok status ∧
        (m.completeOutbound command status).Bound command) := by
  unfold StateMachine.completeOutbound
  split
  · next hb =>
    by_cases hp : m.pendingLocalBind = command
    · rw [if_neg (not_not.mpr hp)]
      have hpeer : m.pendingPeerBind = 0 := by
        by_contra hne
        have h1 := h.localBind (by rw [hp]; exact isBindRequest_ne_zero hb)
        rw [h.peerBind hne] at h1
        cases h1
      by_cases hs : CommandStatus.ok status
      · right
        simp only [hs, if_true]
        exact ⟨hb, hp, trivial, .inl rfl, .inl h.localUnbindFrom, .inl h.peerUnbindFrom, rfl, hpeer⟩
      · left
        simp only [hs, Bool.false_eq_true, if_false]
        exact ⟨h.state, h.localUnbindFrom, h.peerUnbindFrom, fun hn => absurd rfl hn, h.peerBind⟩
    · rw [if_pos hp]
      exact .inl h
  · rw [if_neg (fun hu => h.not_unbound hu.2)]
    exact .inl h

/-- **What a transition makes of a fresh machine**: it stays fresh, is bound by the response to a pending bind, or closes. -/
theorem Fresh.step (h : m.Fresh) (hs : m.Step m') :
    m'.Fresh ∨
    (∃ bind, isBindRequest bind ∧ (m.pendingLocalBind = bind ∨ m.pendingPeerBind = bind) ∧ m'.Bound bind) ∨
    m' = m.close := by
  cases hs with
  | beginOutbound ho => exact .inl (h.beginOutbound ho)
  | cancelOutbound => exact .inl h.cancelOutbound
  | completeOutbound command status =>
    rcases h.completeOutbound command status with hf | ⟨hb, hp, -, hbound⟩
    · exact .inl hf
    · exact .inr (.inl ⟨command, hb, .inl hp, hbound⟩)
  | beginInbound hi => exact .inl (h.mirror.beginOutbound (beginInbound_mirror hi)).of_mirror
  | completeInbound command status =>
    have hc := h.mirror.completeOutbound command status
    rw [← completeInbound_mirror] at hc
    rcases hc with hf | ⟨hb, hp, -, hbound⟩
    · exact .inl hf.of_mirror
    · exact .inr (.inl ⟨command, hb, .inr hp, hbound.of_mirror⟩)
  | cancelInbound command =>
    rcases cancelInbound_mirror m command with he | he
    · exact .inl (Fresh.of_mirror (by rw [he]; exact h.mirror.cancelOutbound))
    · rw [he]; exact .inl h
  | markOutbound ho =>
    obtain ⟨-, rfl⟩ := markOutbound_ok ho
    exact .inl ⟨.inr rfl, h.localUnbindFrom, h.peerUnbindFrom, h.localBind, h.peerBind⟩
  | close => exact .inr (.inr rfl)

end Fresh

/-- What holds of every machine a session has opened. -/
def Valid (m : StateMachine) : Prop := m.Fresh ∨ ∃ bind, isBindRequest bind ∧ m.Bound bind

/-- **Every transition keeps a machine fresh or takes it to a bound mode for good.** -/
theorem Valid.step {m m' : StateMachine} (h : m.Valid) (hs : m.Step m') : m'.Valid := by
  rcases h with h | ⟨bind, hb, h⟩
  · rcases h.step hs with hf | ⟨bind, hb, -, hbound⟩ | rfl
    · exact .inl hf
    · exact .inr ⟨bind, hb, hbound⟩
    · exact .inr ⟨commandBindTransmitter, by decide, bound_close m _⟩
  · exact .inr ⟨bind, hb, h.step hb hs⟩

theorem Valid.bound {m : StateMachine} {bind : CommandID} (hv : m.Valid)
    (hb : isBindRequest bind) (hs : m.state = boundStateForBind bind) : m.Bound bind := by
  have hbs := isBoundState_boundStateForBind hb
  rcases hv with hf | ⟨bind', hb', hbound⟩
  · rw [← hs] at hbs
    rcases hf.state with h | h <;> rw [h] at hbs <;> cases hbs
  · rw [← hs] at hbs
    have := hbound.state_of_unbind hbs
    rw [hs] at this
    rw [boundStateForBind_inj hb hb' this]
    exact hbound

end StateMachine

end GoSmpp.Session
