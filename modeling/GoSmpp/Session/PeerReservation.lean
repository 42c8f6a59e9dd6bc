import GoSmpp.Session.Agreement

/-!
# The reservations of the peer's binds and unbinds

`BeginInbound` reserves the state machine for a bind or an unbind of the peer in the RX loop, and the TX loop gives the
reservation up when it commits the response, or the RX loop when the response cannot be queued.

* `accepted`, `queued`, `committed`, `written`: what a run has done, read off its trace. `AllAnswered`: every bind and unbind
  that was accepted has had its answer written.
* `Owed`: where the answer to a reservation is: with the RX loop, on its way to the commit, or given up by a loop that has
  ended.
* `run_unreserved`: once all are answered nothing is reserved, as long as no encoder of such an answer panics.
* `bindAnswered_panicked`: where one does, a `generic_nack` is the answer, which gives nothing up.
-/

namespace GoSmpp.Session
open Lib Protocol Codec

/-! ## What a run has answered -/

def responses (items : List TxItem) : List TxItem := items.filter (·.kind == .response)

/-- The step accepts a bind or an unbind of the peer. -/
def accepting (s : Session) (label : Label) : Bool :=
  match s.rx, label with
  | .beginning pdu, .rx .go => isLifecycleRequest pdu.header.commandID && (s.beginInbound pdu.header.commandID).isOk
  | _, _ => false

/-- The response the step queues, and whether it is the answer to a bind or an unbind that was accepted: those are the
requests that the loop would cancel if it could not queue the answer. -/
def queues (s : Session) (label : Label) : List (TxItem × Bool) :=
  match s.rx, label with
  | .queueing item (.cancel _), .rx .go => [(item, true)]
  | .queueing item _, .rx .go => [(item, false)]
  | _, _ => []

/-- The item the TX loop commits next. -/
def TxPhase.commits : TxPhase → List TxItem
  | .committing (item :: _) _ => [item]
  | _ => []

/-- The item the TX loop writes next. -/
def TxPhase.writes : TxPhase → List TxItem
  | .writing (item :: _) _ => [item]
  | _ => []

/-- The response the step commits. -/
def commits (s : Session) (label : Label) : List TxItem := if label = .tx .go then responses s.tx.commits else []

/-- The response the step writes to the connection. -/
def writes (s : Session) (label : Label) : List TxItem := if label = .tx .go then responses s.tx.writes else []

def accepted (tr : List (Session × Label)) : Nat := tr.countP fun e => e.1.accepting e.2

def queued (tr : List (Session × Label)) : List (TxItem × Bool) := tr.flatMap fun e => e.1.queues e.2

def committed (tr : List (Session × Label)) : List TxItem := tr.flatMap fun e => e.1.commits e.2

def written (tr : List (Session × Label)) : List TxItem := tr.flatMap fun e => e.1.writes e.2

section Trace
variable {s s' : Session} {label : Label} (tr : List (Session × Label))

theorem accepted_snoc : accepted (tr ++ [(s, label)]) = accepted tr + (s.accepting label).toNat := by
  rw [accepted, List.countP_append, List.countP_singleton]
  cases s.accepting label <;> rfl

theorem queued_snoc : queued (tr ++ [(s, label)]) = queued tr ++ s.queues label := by simp [queued]

theorem committed_snoc : committed (tr ++ [(s, label)]) = committed tr ++ s.commits label := by simp [committed]

theorem written_snoc : written (tr ++ [(s, label)]) = written tr ++ s.writes label := by simp [written]

end Trace

/-! ## The TX loop -/

section Tx
variable {s s' : Session} {choice : TxChoice}

theorem responses_append (a b : List TxItem) : responses (a ++ b) = responses a ++ responses b := List.filter_append ..

/-- The responses that are not committed, in their order. -/
def unconfirmed (s : Session) : List TxItem := responses (s.tx.uncommitted ++ s.queue)

/-- The loop has a batch to commit or to write. -/
def TxPhase.busy : TxPhase → Bool
  | .committing _ _ | .writing _ _ => true
  | _ => false

/-- The way of the TX loop through a batch. -/
inductive TxTurn (tx : TxPhase) : TxChoice → TxPhase → Prop
  | gather {choice batch} : tx.busy = false → TxTurn tx choice (.committing batch batch)
  | commit {item rest batch} : tx = .committing (item :: rest) batch → TxTurn tx .go (.committing rest batch)
  | committed {batch} : tx = .committing [] batch → TxTurn tx .go (.writing batch batch)
  | write {item rest batch} : tx = .writing (item :: rest) batch → TxTurn tx .go (.writing rest batch)
  | written {batch} : tx = .writing [] batch → TxTurn tx .go (.finishing batch)
  | fail {item rest batch err} : tx = .writing (item :: rest) batch → TxTurn tx (.fail err) .stopped
  | other {choice tx'} : tx.busy = false → tx'.busy = false → TxTurn tx choice tx'

theorem txStep_turn (h : s.txStep choice = some s') : TxTurn s.tx choice s'.tx := by
  cases txStep_move h with
  | close htx => exact .gather (by rw [htx]; rfl)
  | commit htx => exact .commit htx
  | committed htx => exact .committed htx
  | write htx => exact .write htx
  | written htx => exact .written htx
  | fail htx => exact .fail htx
  | take htx | stop htx | accept htx | drop htx | dropAll htx | gather htx | mark htx | completed htx | answered htx
  | unbound htx | dispatched htx | finish htx | schedule htx | skip htx | attach htx | detach htx =>
    exact .other (by rw [htx]; rfl) rfl

theorem TxPhase.idle_of_busy {tx : TxPhase} (h : tx.busy = false) : tx.commits = [] ∧ tx.writes = [] := by
  cases tx <;> first | (cases h; done) | exact ⟨rfl, rfl⟩

theorem txStep_commit (h : s.txStep choice = some s') :
    (∃ item rest batch, s.tx = .committing (item :: rest) batch ∧ choice = .go ∧ s' = { s with
      machine := if item.kind = .response ∧ item.responseTo ≠ 0 then
        s.machine.completeInbound item.responseTo item.status else s.machine
      tx := .committing rest batch }) ∨
    (s.commits (.tx choice) = [] ∧ s'.machine = s.machine ∧ s'.unconfirmed = s.unconfirmed) := by
  by_cases hc : ∃ item rest batch, s.tx = .committing (item :: rest) batch
  · obtain ⟨item, rest, batch, htx⟩ := hc
    refine .inl ⟨item, rest, batch, htx, ?_⟩
    cases txStep_move h with
    | commit htx' =>
      rw [htx] at htx'
      cases htx'
      exact ⟨rfl, rfl⟩
    | take htx' | stop htx' | accept htx' | drop htx' | dropAll htx' | gather htx' | close htx' | committed htx' | write htx'
    | fail htx' | written htx' | mark htx' | completed htx' | answered htx' | unbound htx' | dispatched htx' | finish htx'
    | schedule htx' | skip htx' | attach htx' | detach htx' => rw [htx] at htx'; cases htx'
  · have hnil : s.commits (.tx choice) = [] := by
      unfold commits TxPhase.commits
      split
      · split
        · next htx => exact absurd ⟨_, _, _, htx⟩ hc
        · rfl
      · rfl
    refine .inr ⟨hnil, ?_⟩
    have hnext := txStep_next h
    unfold unconfirmed
    generalize s'.tx.uncommitted ++ s'.queue = uncommitted, s'.tx.unwritten ++ s'.queue = unwritten,
      s'.machine = m, s'.wire = wire at hnext ⊢
    cases hnext with
    | keep => exact ⟨rfl, rfl⟩
    | @drop item batch htx hk =>
      have hitem : responses [item] = [] := by rw [responses, List.filter_singleton, hk]; rfl
      refine ⟨rfl, ?_⟩
      rw [htx, TxPhase.uncommitted, responses_append, responses_append, responses_append, hitem, List.append_nil]
    | commit htx => exact absurd ⟨_, _, _, htx⟩ hc
    | write htx => rw [htx]; exact ⟨rfl, rfl⟩
    | fail htx => rw [htx]; exact ⟨rfl, rfl⟩

theorem txStep_order (h : s.txStep choice = some s') : s.unconfirmed = s.commits (.tx choice) ++ s'.unconfirmed := by
  rcases txStep_commit h with ⟨item, rest, batch, htx, rfl, rfl⟩ | ⟨hnil, -, hun⟩
  · rw [unconfirmed, unconfirmed, commits, if_pos rfl, htx, ← responses_append]
    rfl
  · rw [hnil, hun, List.nil_append]

/-- Of `c` responses committed `w` have been written: the others are in the batch, or were lost with the connection. -/
def Behind (w c : Nat) : TxPhase → Prop
  | .committing rest batch => ∃ front, batch = front ++ rest ∧ w + (responses front).length ≤ c
  | .writing rest _ => w + (responses rest).length ≤ c
  | _ => w ≤ c

theorem Behind.le {w c : Nat} {tx : TxPhase} (h : Behind w c tx) : w ≤ c := by
  cases tx with
  | committing rest batch => obtain ⟨front, -, h⟩ := h; omega
  | writing rest batch => exact Nat.le_of_add_right_le h
  | _ => exact h

theorem Behind.of_le {w c : Nat} {tx : TxPhase} (h : w ≤ c) (hb : tx.busy = false) : Behind w c tx := by
  cases tx <;> first | (cases hb; done) | exact h

theorem txStep_behind {w c : Nat} (h : s.txStep choice = some s') (hb : Behind w c s.tx) :
    Behind (w + (s.writes (.tx choice)).length) (c + (s.commits (.tx choice)).length) s'.tx := by
  have hle := hb.le
  have hturn := txStep_turn h
  have hidle (hbusy : s.tx.busy = false) : s.writes (.tx choice) = [] ∧ s.commits (.tx choice) = [] := by
    obtain ⟨hc, hw⟩ := TxPhase.idle_of_busy hbusy
    constructor
    · rw [writes, hw]; split <;> rfl
    · rw [commits, hc]; split <;> rfl
  generalize s'.tx = tx' at hturn
  cases hturn with
  | gather hbusy =>
    obtain ⟨hw, hc⟩ := hidle hbusy
    rw [hw, hc]
    exact ⟨[], rfl, hle⟩
  | @commit item rest batch htx =>
    rw [htx] at hb
    obtain ⟨front, hbatch, hw⟩ := hb
    refine ⟨front ++ [item], by rw [hbatch, List.append_assoc]; rfl, ?_⟩
    rw [writes, commits, if_pos rfl, if_pos rfl, htx, responses_append, List.length_append]
    show w + 0 + _ ≤ c + (responses [item]).length
    omega
  | @committed batch htx =>
    rw [htx] at hb
    obtain ⟨front, hbatch, hw⟩ := hb
    rw [List.append_nil] at hbatch
    rw [writes, commits, if_pos rfl, if_pos rfl, htx, hbatch]
    exact hw
  | @write item rest batch htx =>
    rw [htx] at hb
    have hb : w + (responses ([item] ++ rest)).length ≤ c := hb
    rw [responses_append, List.length_append] at hb
    rw [writes, commits, if_pos rfl, if_pos rfl, htx]
    show w + (responses [item]).length + (responses rest).length ≤ c + 0
    omega
  | written htx =>
    rw [writes, commits, if_pos rfl, if_pos rfl, htx]
    exact hle
  | fail htx => exact hle
  | other hbusy hbusy' =>
    obtain ⟨hw, hc⟩ := hidle hbusy
    rw [hw, hc]
    exact .of_le hle hbusy'

end Tx

/-! ## The machine -/

namespace StateMachine
variable {m m' : StateMachine} {command X : CommandID}

theorem Step.reserves_peer (hs : m.Step m') (hv : m.Valid) (hex : m.Exclusive)
    (hp : m'.pendingPeerBind = m.pendingPeerBind ∧ m'.peerUnbindFrom = m.peerUnbindFrom) (hr : m'.mirror.Reserves X) :
    m.mirror.Reserves X := by
  rcases hr with ⟨hb, hpend⟩ | ⟨hX, hu, hfrom⟩
  · exact .inl ⟨hb, hp.1.symm.trans hpend⟩
  · have hfrom : m.peerUnbindFrom ≠ .closed := hp.2 ▸ hfrom
    refine .inr ⟨hX, ?_, hfrom⟩
    -- elsewhere the peer can only be unbinding if the machine is closed, and then it stays closed
    show m.state = .unbound
    by_contra hne
    have hclosed : m.state = .closed := by
      by_contra hnc
      exact hfrom (hex.neither hne hnc).2
    rw [show m'.mirror.state = .closed from hs.closed hclosed hv] at hu
    cases hu

theorem beginOutbound_peerUnbind (h : m.beginOutbound command = .ok m') : m'.peerUnbindFrom = m.peerUnbindFrom := by
  obtain ⟨-, ⟨-, -, rfl⟩ | ⟨-, rfl⟩ | ⟨-, rfl⟩ | ⟨-, rfl⟩⟩ := beginOutbound_ok h <;> rfl

theorem cancelOutbound_peerUnbind (m : StateMachine) (command : CommandID) :
    (m.cancelOutbound command).peerUnbindFrom = m.peerUnbindFrom := by
  unfold cancelOutbound
  simp only
  split <;> split <;> split <;> rfl

theorem completeOutbound_peerUnbind (m : StateMachine) (command : CommandID) (status : CommandStatus) :
    (m.completeOutbound command status).peerUnbindFrom = m.peerUnbindFrom := by
  unfold completeOutbound
  split
  · split <;> rfl
  · split <;> rfl

end StateMachine

section Machine
variable {config : Config} {s s' : Session} {label : Label} {X command : CommandID}

theorem Regular.reserves_aside (h : Regular config s) (hs : s.step label = some s') (hl : label.loop = false)
    (hr : s'.machine.mirror.Reserves X) : s.machine.mirror.Reserves X := by
  have hm := step_machine hs
  have hkeep (hp : s'.machine.pendingPeerBind = s.machine.pendingPeerBind ∧
      s'.machine.peerUnbindFrom = s.machine.peerUnbindFrom) : s.machine.mirror.Reserves X := by
    rcases hm.step with he | hstep
    · exact he ▸ hr
    · exact hstep.reserves_peer h.valid h.exclusive hp hr
  generalize s'.machine = m at hm hr hkeep
  cases hm with
  | same => exact hr
  | beginOutbound _ hb => exact hkeep ⟨StateMachine.beginOutbound_peer hb, StateMachine.beginOutbound_peerUnbind hb⟩
  | cancelOutbound command =>
    exact hkeep ⟨StateMachine.cancelOutbound_peer _ _, StateMachine.cancelOutbound_peerUnbind _ _⟩
  | completeOutbound =>
    exact hkeep ⟨StateMachine.completeOutbound_peer _ _ _, StateMachine.completeOutbound_peerUnbind _ _ _⟩
  | beginInbound | completeInbound | cancelInbound => cases hl
  | close => exact absurd hr (StateMachine.not_reserves rfl nofun)

theorem beginInbound_reserves_peer {m : StateMachine} (h : s.beginInbound command = .ok m) (hr : m.mirror.Reserves X) :
    s.machine.mirror.Reserves X ∨ X = command := by
  rcases beginInbound_ok h with rfl | hb
  · exact .inl hr
  · exact StateMachine.beginOutbound_reserves (StateMachine.beginInbound_mirror hb) hr

end Machine

/-! ## The RX loop -/

/-- The loop has accepted a bind or an unbind and has not queued its answer. -/
def RxPhase.holds : RxPhase → Nat
  | .handling pdu => (isLifecycleRequest pdu.header.commandID).toNat
  | .queueing _ (.cancel _) => 1
  | _ => 0

/-- The loop takes up no more frames, unless the session has been closed. -/
def RxPhase.ended : RxPhase → Bool
  | .cancelling _ _ | .failing _ | .terminating | .stopped => true
  | _ => false

section Rx
variable {s : Session} {label : Label} {m : StateMachine} {queue : List TxItem} {rx : RxPhase} {pdu : DecodedPDU}
  {status : CommandStatus}

theorem AnswerNext.holds (h : AnswerNext s pdu status rx) :
    rx.holds ≤ (isLifecycleRequest pdu.header.commandID).toNat := by
  have hafter : afterQueue pdu.header.commandID = .cancel pdu.header.commandID ∧
      isLifecycleRequest pdu.header.commandID = true ∨ afterQueue pdu.header.commandID = .fail := by
    unfold afterQueue
    split
    · next hl => exact .inl ⟨rfl, hl⟩
    · exact .inr rfl
  cases h with
  | queue | nack =>
    rcases hafter with ⟨he, hl⟩ | he
    · rw [he, hl]; exact Nat.le_refl 1
    · rw [he]; exact Nat.zero_le _
  | fail err => rcases hafter with ⟨he, -⟩ | he <;> rw [he] <;> exact Nat.zero_le _

theorem accepting_begin (hrx : s.rx = .beginning pdu) (hb : s.beginInbound pdu.header.commandID = .ok m) :
    s.accepting (.rx .go) = isLifecycleRequest pdu.header.commandID := by
  unfold accepting
  simp only [hrx, hb]
  exact Bool.and_true _

theorem queues_of_label (hl : label ≠ .rx .go) : s.queues label = [] := by
  unfold queues
  split
  · exact absurd rfl hl
  · exact absurd rfl hl
  · rfl

theorem queues_of_ne (hrx : ∀ item next, s.rx ≠ .queueing item next) : s.queues label = [] := by
  unfold queues
  split
  · next h => exact absurd h (hrx _ _)
  · next h => exact absurd h (hrx _ _)
  · rfl

theorem RxNext.holds (h : RxNext s label m queue rx) :
    (s.queues label).countP (·.2) + rx.holds ≤ s.rx.holds + (s.accepting label).toNat := by
  have hquiet {rx : RxPhase} (hq : s.queues label = []) (hrx : rx.holds = 0) :
      (s.queues label).countP (·.2) + rx.holds ≤ s.rx.holds + (s.accepting label).toNat := by
    rw [hq, hrx]; exact Nat.zero_le _
  have hbegun {pdu : DecodedPDU} {label : Label} (hrx : s.rx = .beginning pdu) : s.queues label = [] :=
    queues_of_ne fun _ _ hq => by rw [hrx] at hq; cases hq
  have hhandling {pdu : DecodedPDU} {label : Label} (hrx : s.rx = .handling pdu) : s.queues label = [] :=
    queues_of_ne fun _ _ hq => by rw [hrx] at hq; cases hq
  have hreading {frame : Octets} : s.queues (.frame frame) = [] := queues_of_label nofun
  cases h with
  | skip _ h => rcases h with rfl | ⟨err, rfl⟩ <;> exact hquiet hreading rfl
  | nack _ _ h => rcases h with rfl | rfl <;> exact hquiet hreading rfl
  | receive => exact hquiet hreading rfl
  | refuse hrx | unanswered hrx => exact hquiet (hbegun hrx) rfl
  | @handle pdu m hrx hb =>
    rw [hbegun hrx, accepting_begin hrx hb, hrx]
    exact Nat.le_refl _
  | ignore hrx => exact hquiet (hbegun hrx) rfl
  | answer hrx hb _ ha =>
    rw [hbegun hrx, accepting_begin hrx hb, hrx]
    have := ha.holds
    show 0 + rx.holds ≤ 0 + _
    omega
  | handled hrx _ ha | broke hrx ha =>
    rw [hhandling hrx, hrx]
    have := ha.holds
    show 0 + rx.holds ≤ (isLifecycleRequest _).toNat + _
    omega
  | withheld hrx h => rcases h with ⟨rfl, -⟩ | ⟨err, rfl⟩ <;> exact hquiet (hhandling hrx) rfl
  | @enqueue item next hrx =>
    unfold queues
    rw [hrx]
    cases next <;> exact Nat.le_add_right _ _
  | @close item next err hrx =>
    rw [show s.queues (.rx .done) = [] from queues_of_label nofun]
    cases next <;> exact Nat.zero_le _
  | cancel hrx | stop hrx | resume hrx =>
    exact hquiet (queues_of_ne fun _ _ hq => by rw [hrx] at hq; cases hq) rfl

end Rx

/-! ## Encoders that do not panic -/

/-- The request that the step answers, and the response. -/
def answering (s : Session) (label : Label) : Option (DecodedPDU × Response) :=
  match s.rx, label with
  | .beginning pdu, .rx .go =>
    if !(s.beginInbound pdu.header.commandID).isOk then none
    else if pdu.header.commandID = commandUnbind then some (pdu, { status := statusOK, body := emptyBody })
    else if s.config.handler then none
    else some (pdu, noHandlerResponse pdu.header.commandID)
  | .handling pdu, .rx (.handled outcome) =>
    let response := match outcome with
      | .returned (.ok response) => response
      | _ => { status := statusSystemError, body := emptyBody }
    if response.action = .immediate then some (pdu, response) else none
  | _, _ => none

def panics (s : Session) (pdu : DecodedPDU) (response : Response) : Bool :=
  match encodeFrame s.config.registry
    (responseHeader pdu.header (responseID pdu.header.commandID) response.status) (s.acceptBind pdu response).2 with
  | .error err => err.isPanic
  | .ok _ => false

/-- No encoder of the answer to a bind or an unbind panics. -/
def unpanicked (s : Session) (label : Label) : Bool :=
  match s.answering label with
  | some (pdu, response) => !(isLifecycleRequest pdu.header.commandID && s.panics pdu response)
  | none => true

/-- An answer whose request would be cancelled names that request. -/
def Named (rx : RxPhase) : Prop := ∀ item command, rx = .queueing item (.cancel command) → item.responseTo = command

section Named
variable {s s' t : Session} {label : Label} {pdu : DecodedPDU} {response : Response}

theorem acceptBind_body (hc : t.config = s.config) : (t.acceptBind pdu response).2 = (s.acceptBind pdu response).2 := by
  unfold acceptBind
  rw [hc]
  split
  · split <;> rfl
  · rfl

theorem panics_congr (hc : t.config = s.config) : t.panics pdu response = s.panics pdu response := by
  unfold panics
  rw [hc, acceptBind_body hc]

theorem isLifecycleRequest_answerable {command : CommandID} (h : isLifecycleRequest command) :
    isResponse command = false ∧ command ≠ 0 := by
  rw [isLifecycleRequest, Bool.or_eq_true, beq_iff_eq] at h
  rcases h with h | rfl
  · rcases isBindRequest_cases h with rfl | rfl | rfl <;> decide
  · decide

theorem Named.of_ne {rx : RxPhase} (h : ∀ item command, rx ≠ .queueing item (.cancel command)) : Named rx :=
  fun item command hrx => absurd hrx (h item command)

theorem answer_named (h : isLifecycleRequest pdu.header.commandID → s.panics pdu response = false) :
    Named (s.answer pdu response).rx := by
  intro item command hrx
  have hconfig : (s.acceptBind pdu response).1.config = s.config := by rw [s.acceptBind_local pdu response]
  unfold Session.answer at hrx
  simp only [queueResponse_congr hconfig] at hrx
  cases hl : isLifecycleRequest pdu.header.commandID with
  | false =>
    simp only [hl, Bool.false_eq_true, if_false] at hrx
    split at hrx
    · cases hrx
    · split at hrx
      · unfold nack respond at hrx
        split at hrx <;> cases hrx
      · cases hrx
  | true =>
    have hpanic := h hl
    obtain ⟨hresp, hzero⟩ := isLifecycleRequest_answerable hl
    simp only [hl, if_true] at hrx
    split at hrx
    · next item' hq =>
      cases hrx
      obtain ⟨-, -, -, hto, -⟩ := queueResponse_ok hq
      rw [hto, if_neg (responseID_ne_genericNACK hresp hzero)]
    · next err hq =>
      unfold Session.queueResponse at hq
      unfold panics at hpanic
      simp only at hq
      split at hq
      · next err' henc =>
        cases hq
        rw [henc] at hpanic
        simp only [hpanic, Bool.false_eq_true, if_false] at hrx
        cases hrx
      · cases hq

theorem dispatchResponse_named
    (h : response.action = .immediate → isLifecycleRequest pdu.header.commandID → s.panics pdu response = false) :
    Named (s.dispatchResponse pdu response).rx := by
  by_cases hi : response.action = .immediate
  · have he : s.dispatchResponse pdu response = s.answer pdu response := by unfold dispatchResponse; rw [hi]
    rw [he]
    exact answer_named (h hi)
  · rcases s.dispatchResponse_next pdu response with ⟨hi', -⟩ | ⟨-, ⟨hrx, -⟩ | ⟨err, hrx⟩⟩
    · exact absurd hi' hi
    · exact .of_ne fun _ _ hq => by rw [hrx] at hq; cases hq
    · exact .of_ne fun _ _ hq => by rw [hrx] at hq; cases hq

theorem beginRequest_named (hrx : s.rx = .beginning pdu) (h : ∀ response, s.answering (.rx .go) = some (pdu, response) →
    isLifecycleRequest pdu.header.commandID → s.panics pdu response = false) : Named (s.beginRequest pdu).rx := by
  unfold beginRequest
  cases hb : s.beginInbound pdu.header.commandID with
  | error err =>
    simp only [hb]
    refine .of_ne fun item command hq => ?_
    unfold refuse nack respond at hq
    split at hq <;> split at hq <;> cases hq
  | ok m =>
    have hanswering : s.answering (.rx .go) =
        if pdu.header.commandID = commandUnbind then some (pdu, { status := statusOK, body := emptyBody })
        else if s.config.handler then none else some (pdu, noHandlerResponse pdu.header.commandID) := by
      unfold answering
      rw [hrx]
      simp only [hb]
      rfl
    have hpanics (response : Response) : { s with machine := m }.panics pdu response = s.panics pdu response := panics_congr rfl
    simp only [hb]
    split
    · exact .of_ne fun item command hq => by dsimp only at hq; split at hq <;> cases hq
    · split
      · next hc =>
        refine dispatchResponse_named fun _ hl => ?_
        have hu : pdu.header.commandID = commandUnbind := by
          rcases hc with hc | hc
          · rw [hc] at hl; cases hl
          · exact hc
        rw [hpanics]
        exact h _ (by rw [hanswering, if_pos hu]) hl
      · next hc =>
        split
        · next hh =>
          refine dispatchResponse_named fun _ hl => ?_
          rw [hpanics]
          exact h _ (by rw [hanswering, if_neg fun hu => hc (.inr hu), if_neg (by simpa using hh)]) hl
        · exact .of_ne nofun

theorem handled_named {outcome : Handled} (hrx : s.rx = .handling pdu)
    (h : ∀ response, s.answering (.rx (.handled outcome)) = some (pdu, response) →
      isLifecycleRequest pdu.header.commandID → s.panics pdu response = false) : Named (s.handled pdu outcome).rx := by
  unfold answering at h
  rw [hrx] at h
  unfold handled
  split
  · exact .of_ne nofun
  · split
    · exact dispatchResponse_named fun hi => h _ (if_pos hi)
    · next hne =>
      refine dispatchResponse_named fun hi => h _ ?_
      dsimp only
      split
      · exact absurd rfl (hne _)
      · exact if_pos hi

theorem rxStep_named {choice : RxChoice} (h : s.rxStep choice = some s') (hok : s.unpanicked (.rx choice)) :
    Named s'.rx := by
  have hpanics {pdu : DecodedPDU} (response : Response) (ha : s.answering (.rx choice) = some (pdu, response)) :
      isLifecycleRequest pdu.header.commandID → s.panics pdu response = false := by
    intro hl
    unfold unpanicked at hok
    rw [ha] at hok
    simpa [hl] using hok
  cases rxStep_move h with
  | begin hrx => exact beginRequest_named hrx hpanics
  | handle hrx => exact handled_named hrx hpanics
  | @closed item next => cases next <;> exact .of_ne nofun
  | enqueue | cancel | fail | resume => exact .of_ne nofun

end Named

/-! ## What is owed -/

/-- Where the answer is that will give a reservation up. -/
inductive Owed (tr : List (Session × Label)) (s : Session) (X : CommandID) : Prop
  | handling {pdu} : s.rx = .handling pdu → pdu.header.commandID = X → Owed tr s X
  | queueing {item} : s.rx = .queueing item (.cancel X) → Owed tr s X
  /-- the loop has ended with the request unanswered -/
  | given : s.rx.ended → (queued tr).countP (·.2) < accepted tr → Owed tr s X
  /-- the answer has been queued and not committed -/
  | sent {n : Nat} {item : TxItem} : (committed tr).length ≤ n → (queued tr)[n]? = some (item, true) →
      item.responseTo = X → Owed tr s X

/-- What holds along the runs without such a panic. -/
structure Owing (config : Config) (tr : List (Session × Label)) (s : Session) : Prop extends Regular config s where
  oneWayItems : s.OneWayItems
  named : Named s.rx
  answers : ∀ item next, s.rx = .queueing item next → item.kind = .response
  order : committed tr ++ s.unconfirmed = (queued tr).map (·.1)
  behind : Behind (written tr).length (committed tr).length s.tx
  holds : (queued tr).countP (·.2) + s.rx.holds ≤ accepted tr
  owed : ∀ {X}, s.machine.mirror.Reserves X → Owed tr s X

section Owing
variable {config : Config} {role : Role} {tr : List (Session × Label)} {s s' : Session} {label : Label} {X : CommandID}

theorem Owing.committed_le (h : Owing config tr s) : (committed tr).length ≤ (queued tr).length := by
  have := congrArg List.length h.order
  rw [List.length_append, List.length_map] at this
  omega

theorem aside_of_loop (hl : label.loop = false) :
    s.accepting label = false ∧ s.queues label = [] ∧ s.commits label = [] ∧ s.writes label = [] := by
  cases label with
  | rx choice | tx choice => cases hl
  | _ =>
    refine ⟨?_, queues_of_label nofun, rfl, rfl⟩
    unfold accepting
    split <;> first | rfl | contradiction

theorem Owed.sent_snoc {n : Nat} {item : TxItem} (hc : s.commits label = []) (hn : (committed tr).length ≤ n)
    (hi : (queued tr)[n]? = some (item, true)) (hto : item.responseTo = X) : Owed (tr ++ [(s, label)]) s' X := by
  refine .sent (n := n) ?_ ?_ hto
  · rw [committed_snoc, hc, List.append_nil]
    exact hn
  · rw [queued_snoc]
    exact getElem?_append_some hi _

theorem Owed.given_snoc (hq : s.queues label = []) (he : s'.rx.ended)
    (hlt : (queued tr).countP (·.2) < accepted tr + (s.accepting label).toNat) : Owed (tr ++ [(s, label)]) s' X :=
  .given he (by rw [queued_snoc, hq, List.append_nil, accepted_snoc]; exact hlt)

theorem AnswerNext.owed {pdu : DecodedPDU} {status : CommandStatus} {rx : RxPhase} (h : AnswerNext s pdu status rx)
    (hl : isLifecycleRequest pdu.header.commandID) :
    (∃ item, rx = .queueing item (.cancel pdu.header.commandID)) ∨ rx.ended := by
  have hafter : afterQueue pdu.header.commandID = .cancel pdu.header.commandID := if_pos hl
  cases h with
  | queue | nack => exact .inl ⟨_, by rw [hafter]⟩
  | fail err => rw [hafter]; exact .inr rfl

theorem Owing.aside_owed (h : Owing config tr s) (hs : s.step label = some s') (hl : label.loop = false)
    (hrx : s'.rx = s.rx ∨ s'.rx = .terminating) (hr : s'.machine.mirror.Reserves X) : Owed (tr ++ [(s, label)]) s' X := by
  obtain ⟨-, hq, hc, -⟩ := aside_of_loop (s := s) hl
  have hheld := h.holds
  have hX := hr.isLifecycleRequest
  rcases hrx with he | he
  · cases h.owed (h.toRegular.reserves_aside hs hl hr) with
    | handling h hX => exact .handling (he.trans h) hX
    | queueing h => exact .queueing (he.trans h)
    | given h hlt => exact .given_snoc hq (he ▸ h) (Nat.lt_of_lt_of_le hlt (Nat.le_add_right _ _))
    | sent hn hi hto => exact .sent_snoc hc hn hi hto
  · have hgiven (hlt : (queued tr).countP (·.2) < accepted tr) : Owed (tr ++ [(s, label)]) s' X :=
      .given_snoc hq (by rw [he]; rfl) (Nat.lt_of_lt_of_le hlt (Nat.le_add_right _ _))
    cases h.owed (h.toRegular.reserves_aside hs hl hr) with
    | handling h hX' => rw [h, RxPhase.holds, hX', hX] at hheld; exact hgiven hheld
    | queueing h => rw [h] at hheld; exact hgiven hheld
    | given h hlt => exact hgiven hlt
    | sent hn hi hto => exact .sent_snoc hc hn hi hto

theorem Owing.tx_owed (h : Owing config tr s) {choice : TxChoice} (hs : s.txStep choice = some s') (hrx : s'.rx = s.rx)
    (hr : s'.machine.mirror.Reserves X) : Owed (tr ++ [(s, .tx choice)]) s' X := by
  have hq : s.queues (.tx choice) = [] := queues_of_label nofun
  -- what is not being committed stays where it is
  have hkeep (hr : s.machine.mirror.Reserves X) (hsent : ∀ (n : Nat) (item : TxItem), (committed tr).length ≤ n →
      (queued tr)[n]? = some (item, true) → item.responseTo = X → Owed (tr ++ [(s, .tx choice)]) s' X) :
      Owed (tr ++ [(s, .tx choice)]) s' X := by
    cases h.owed hr with
    | handling h hX => exact .handling (hrx.trans h) hX
    | queueing h => exact .queueing (hrx.trans h)
    | given h hlt => exact .given_snoc hq (hrx ▸ h) (Nat.lt_of_lt_of_le hlt (Nat.le_add_right _ _))
    | sent hn hi hto => exact hsent _ _ hn hi hto
  have horder := txStep_order hs
  rcases txStep_commit hs with ⟨item, rest, batch, htx, rfl, hs'⟩ | ⟨hnil, hm, -⟩
  · have hcommits : s.commits (.tx .go) = responses [item] := by rw [commits, if_pos rfl, htx]; rfl
    have hm : s'.machine = if item.kind = .response ∧ item.responseTo ≠ 0 then
        s.machine.completeInbound item.responseTo item.status else s.machine := by rw [hs']
    cases hk : item.kind == .response with
    | false =>
      rw [if_neg (fun hc => by rw [hc.1] at hk; cases hk)] at hm
      refine hkeep (hm ▸ hr) fun n item' hn hi hto => .sent_snoc ?_ hn hi hto
      rw [hcommits, responses, List.filter_singleton, hk]
      rfl
    | true =>
      have hone : s.commits (.tx .go) = [item] := by
        rw [hcommits, responses, List.filter_singleton, hk]
        rfl
      have hk := beq_iff_eq.mp hk
      have hX : s.machine.mirror.Reserves X ∧ X ≠ item.responseTo := by
        by_cases hz : item.responseTo = 0
        · rw [if_neg (fun hc => hc.2 hz)] at hm
          refine ⟨hm ▸ hr, fun he => ?_⟩
          exact (isLifecycleRequest_answerable hr.isLifecycleRequest).2 (he.trans hz)
        · rw [if_pos ⟨hk, hz⟩] at hm
          rw [hm, StateMachine.completeInbound_mirror] at hr
          exact StateMachine.completeOutbound_reserves hr
      refine hkeep hX.1 fun n item' hn hi hto => ?_
      -- the item that is committed is the next one that was queued
      have hnext : ((queued tr).map (·.1))[(committed tr).length]? = some item := by
        rw [← h.order, horder, hone, List.getElem?_append_right (Nat.le_refl _), Nat.sub_self]
        rfl
      have hne : n ≠ (committed tr).length := by
        rintro rfl
        rw [List.getElem?_map, hi] at hnext
        cases hnext
        exact hX.2 hto.symm
      refine .sent (n := n) ?_ ?_ hto
      · rw [committed_snoc, hone, List.length_append, List.length_singleton]
        omega
      · rw [queued_snoc, hq, List.append_nil]
        exact hi
  · exact hkeep (hm ▸ hr) fun n item hn hi hto => .sent_snoc hnil hn hi hto

section Rx
variable (h : Owing config tr s) (hc : s.commits label = [])
include h hc

/-- Where the RX loop has no request in hand, what is owed stays so. -/
theorem Owing.idle_owed (hr : s.machine.mirror.Reserves X) (hnone : s.rx.holds = 0) (he : s.rx.ended → s'.rx.ended) :
    Owed (tr ++ [(s, label)]) s' X := by
  cases h.owed hr with
  | handling h hX => rw [h, RxPhase.holds, hX, hr.isLifecycleRequest] at hnone; cases hnone
  | queueing h => rw [h] at hnone; cases hnone
  | given h hlt =>
    refine .given_snoc (queues_of_ne fun _ _ hq => ?_) (he h) (Nat.lt_of_lt_of_le hlt (Nat.le_add_right _ _))
    rw [hq] at h
    cases h
  | sent hn hi hto => exact .sent_snoc hc hn hi hto

/-- The handler is done, and its answer is to be queued, or the loop has ended with the request. -/
theorem Owing.handled_owed {pdu : DecodedPDU} (hr : s.machine.mirror.Reserves X) (hrx : s.rx = .handling pdu)
    (hnew : isLifecycleRequest pdu.header.commandID →
      (∃ item, s'.rx = .queueing item (.cancel pdu.header.commandID)) ∨ s'.rx.ended) : Owed (tr ++ [(s, label)]) s' X := by
  have hX := hr.isLifecycleRequest
  have hheld := h.holds
  cases h.owed hr with
  | handling h hX' =>
    rw [hrx] at h
    cases h
    rw [hrx, RxPhase.holds, hX', hX] at hheld
    rcases hnew (hX' ▸ hX) with ⟨item, hnew⟩ | he
    · exact .queueing (hX' ▸ hnew)
    · exact .given_snoc (queues_of_ne fun _ _ hq => by rw [hrx] at hq; cases hq) he (Nat.lt_of_lt_of_le hheld (Nat.le_add_right _ _))
  | queueing h => rw [hrx] at h; cases h
  | given h => rw [hrx] at h; cases h
  | sent hn hi hto => exact .sent_snoc hc hn hi hto

theorem Owing.queueing_owed {item : TxItem} {next : AfterQueue} (hr : s.machine.mirror.Reserves X)
    (hrx : s.rx = .queueing item next) (hnew : next = .cancel X → Owed (tr ++ [(s, label)]) s' X) :
    Owed (tr ++ [(s, label)]) s' X := by
  cases h.owed hr with
  | handling h => rw [hrx] at h; cases h
  | queueing h => exact hnew (by rw [hrx] at h; cases h; rfl)
  | given h => rw [hrx] at h; cases h
  | sent hn hi hto => exact .sent_snoc hc hn hi hto

theorem Owing.rx_owed (hs : s.step label = some s') (hnext : RxNext s label s'.machine s'.queue s'.rx)
    (hr : s'.machine.mirror.Reserves X) : Owed (tr ++ [(s, label)]) s' X := by
  have hheld := h.holds
  have hX := hr.isLifecycleRequest
  have hidle (hnone : s.rx.holds = 0) (hend : s.rx.ended = false) (hr : s.machine.mirror.Reserves X) :
      Owed (tr ++ [(s, label)]) s' X := h.idle_owed hc hr hnone fun he => by rw [hend] at he; cases he
  generalize hm' : s'.machine = m, hq' : s'.queue = queue, hrx' : s'.rx = rx at hnext
  rw [hm'] at hr
  cases hnext with
  | skip hrx | nack hrx | receive hrx | refuse hrx | unanswered hrx =>
    exact hidle (hrx ▸ rfl) (hrx ▸ rfl) hr
  | handle hrx hb =>
    rcases beginInbound_reserves_peer hb hr with hr | rfl
    · exact hidle (hrx ▸ rfl) (hrx ▸ rfl) hr
    · exact .handling hrx' rfl
  | ignore hrx hb hone =>
    rcases beginInbound_reserves_peer hb hr with hr | rfl
    · exact hidle (hrx ▸ rfl) (hrx ▸ rfl) hr
    · rw [not_isLifecycleRequest_of_oneWay hone] at hX; cases hX
  | answer hrx hb _ ha =>
    rcases beginInbound_reserves_peer hb hr with hr | rfl
    · exact hidle (hrx ▸ rfl) (hrx ▸ rfl) hr
    · rcases ha.owed hX with ⟨item, hnew⟩ | he
      · exact .queueing (hrx'.trans hnew)
      · refine .given_snoc (queues_of_ne fun _ _ hq => by rw [hrx] at hq; cases hq) (hrx' ▸ he) ?_
        rw [accepting_begin hrx hb, hX]
        exact Nat.lt_succ_of_le (Nat.le_of_add_right_le hheld)
  | handled hrx _ ha | broke hrx ha => exact h.handled_owed hc hr hrx fun hl => by rw [hrx']; exact ha.owed hl
  | withheld hrx hw =>
    refine h.handled_owed hc hr hrx fun hl => .inr ?_
    rcases hw with ⟨-, hone | hd⟩ | ⟨err, he⟩
    · rw [not_isLifecycleRequest_of_oneWay hone] at hl; cases hl
    · rw [hd] at hl; cases hl
    · rw [hrx', he]; rfl
  | @enqueue item next hrx =>
    refine h.queueing_owed hc hr hrx fun hcancel => ?_
    subst hcancel
    refine .sent (n := (queued tr).length) ?_ ?_ (h.named item X hrx)
    · rw [committed_snoc, hc, List.append_nil]
      exact h.committed_le
    · rw [queued_snoc, List.getElem?_append_right (Nat.le_refl _), Nat.sub_self]
      unfold queues
      rw [hrx]
      rfl
  | @close item next err hrx =>
    refine h.queueing_owed hc hr hrx fun hcancel => ?_
    rw [hrx, hcancel] at hheld
    exact .given_snoc (queues_of_label nofun) (by rw [hrx', hcancel]; rfl) (Nat.lt_of_lt_of_le hheld (Nat.le_add_right _ _))
  | @cancel command err hrx =>
    have hr : s.machine.mirror.Reserves X := by
      rcases StateMachine.cancelInbound_mirror s.machine command with he | he
      · rw [he] at hr
        exact (StateMachine.cancelOutbound_reserves hr).1
      · rwa [he] at hr
    exact h.idle_owed hc hr (hrx ▸ rfl) fun _ => by rw [hrx']; rfl
  | stop hrx => exact h.idle_owed hc hr (hrx ▸ rfl) fun _ => by rw [hrx']; rfl
  | resume hrx =>
    -- the session is terminated, and its machine closed
    have hfinished : s.termination = .finished := by
      cases rxStep_move hs with
      | resume _ hfinished => exact hfinished
      | begin h | enqueue h | cancel h | fail h => rw [hrx] at h; cases h
    exact absurd hr (h.valid.mirror.not_reserves (h.ended (by rw [hfinished]; rfl)))

end Rx

/-! ## The step lemma -/

theorem RxNext.queue_of_frame {m : StateMachine} {queue : List TxItem} {rx : RxPhase} (h : RxNext s label m queue rx)
    (hl : label.loop = false) : queue = s.queue := by
  cases h with
  | enqueue => cases hl
  | _ => rfl

theorem rxStep_queue {choice : RxChoice} (h : s.rxStep choice = some s') :
    s'.queue = s.queue ++ (s.queues (.rx choice)).map (·.1) := by
  by_cases hq : ∃ item next, s.rx = .queueing item next
  · obtain ⟨item, next, hrx⟩ := hq
    unfold queues
    rw [hrx]
    cases rxStep_move h with
    | enqueue hrx' =>
      rw [hrx] at hrx'
      cases hrx'
      cases next <;> rfl
    | closed hrx' =>
      rw [hrx] at hrx'
      cases hrx'
      cases next <;> exact (List.append_nil _).symm
    | begin hrx' | handle hrx' | cancel hrx' | fail hrx' | resume hrx' => rw [hrx] at hrx'; cases hrx'
  · rw [queues_of_ne fun item next hrx => hq ⟨item, next, hrx⟩, List.map_nil, List.append_nil]
    rcases (rxStep_next h).queue_eq with he | ⟨item, next, hrx, -⟩
    · exact he
    · exact absurd ⟨item, next, hrx⟩ hq

/-- A step, as the reservations for the peer see it. -/
inductive Turn (s : Session) : Label → Session → Prop
  | rx {choice t} : s.rxStep choice = some t → t.tx = s.tx → Turn s (.rx choice) t
  | tx {choice t} : s.txStep choice = some t → t.rx = s.rx → Turn s (.tx choice) t
  | aside {l t} : l.loop = false → t.tx = s.tx → t.unconfirmed = s.unconfirmed →
      (RxNext s l t.machine t.queue t.rx ∨ t.rx = s.rx ∨ t.rx = .terminating) → Turn s l t

theorem step_turn (ho : s.OneWayItems) (hs : s.step label = some s') : Turn s label s' := by
  have hflow := step_flow ho hs
  by_cases hl : label.loop = false
  · cases hflow with
    | rx hnext htx =>
      refine .aside hl htx ?_ (.inl hnext)
      rw [unconfirmed, unconfirmed, htx, hnext.queue_of_frame hl]
    | tx hlabel => obtain ⟨choice, rfl⟩ := hlabel; cases hl
    | enter item hkind _ hqueue _ hrx htx =>
      have hitem : responses [item] = [] := by
        rw [responses, List.filter_singleton, beq_eq_false_iff_ne.mpr hkind]
        rfl
      refine .aside hl htx ?_ (.inr (.inl hrx))
      rw [unconfirmed, unconfirmed, htx, hqueue, ← List.append_assoc, responses_append, hitem, List.append_nil]
    | other _ hqueue hrx htx => exact .aside hl htx (by rw [unconfirmed, unconfirmed, htx, hqueue]) (.inr hrx)
  · cases label with
    | rx choice => exact .rx hs (by rw [rxStep_scope hs])
    | tx choice => exact .tx hs (by rw [txStep_scope hs])
    | _ => exact absurd rfl hl

theorem Owing.named_step (h : Owing config tr s) (ht : Turn s label s') (hok : s.unpanicked label) : Named s'.rx := by
  cases ht with
  | rx hs => exact rxStep_named hs hok
  | tx _ hrx => rw [hrx]; exact h.named
  | aside hl _ _ hrx =>
    rcases hrx with hnext | hrx | hrx
    · refine .of_ne fun item command hq => ?_
      generalize s'.machine = m, s'.queue = queue, s'.rx = rx at hnext hq
      cases hnext with
      | skip _ h => rcases h with rfl | ⟨err, rfl⟩ <;> cases hq
      | nack _ _ h => cases hq; rcases h with h | h <;> cases h
      | receive => cases hq
      | _ => cases hl
    · rw [hrx]; exact h.named
    · rw [hrx]; exact .of_ne nofun

theorem Owing.answers_step (h : Owing config tr s) (ht : Turn s label s') {item : TxItem} {next : AfterQueue}
    (hrx' : s'.rx = .queueing item next) : item.kind = .response := by
  cases ht with
  | rx hs => exact (rxStep_next hs).kind hrx'
  | tx _ hrx => exact h.answers item next (hrx.symm.trans hrx')
  | aside _ _ _ hrx =>
    rcases hrx with hnext | hrx | hrx
    · exact hnext.kind hrx'
    · exact h.answers item next (hrx.symm.trans hrx')
    · rw [hrx] at hrx'; cases hrx'

theorem Owing.queues_responses (h : Owing config tr s) :
    responses ((s.queues label).map (·.1)) = (s.queues label).map (·.1) := by
  have hone {item : TxItem} {next : AfterQueue} (hrx : s.rx = .queueing item next) : responses [item] = [item] := by
    rw [responses, List.filter_singleton, h.answers item next hrx]
    rfl
  unfold queues
  split
  · next item command hrx => exact hone hrx
  · next item next _ hrx => exact hone hrx
  · rfl

theorem Owing.order_step (h : Owing config tr s) (ht : Turn s label s') :
    committed (tr ++ [(s, label)]) ++ s'.unconfirmed = (queued (tr ++ [(s, label)])).map (·.1) := by
  rw [committed_snoc, queued_snoc, List.map_append, ← h.order]
  cases ht with
  | @rx choice _ hs htx =>
    rw [show s.commits (.rx choice) = [] from rfl, List.append_nil, List.append_assoc]
    congr 1
    rw [unconfirmed, unconfirmed, htx, rxStep_queue hs, ← List.append_assoc, responses_append, h.queues_responses]
  | @tx choice _ hs =>
    have hq : s.queues (.tx choice) = [] := queues_of_label nofun
    rw [hq, List.map_nil, List.append_nil, List.append_assoc, ← txStep_order hs]
  | aside hl _ hun =>
    obtain ⟨-, hq, hc, -⟩ := aside_of_loop (s := s) hl
    rw [hq, hc, hun, List.append_nil, List.map_nil, List.append_nil]

theorem Owing.behind_step (h : Owing config tr s) (ht : Turn s label s') :
    Behind (written (tr ++ [(s, label)])).length (committed (tr ++ [(s, label)])).length s'.tx := by
  rw [written_snoc, committed_snoc, List.length_append, List.length_append]
  cases ht with
  | rx _ htx => rw [htx]; exact h.behind
  | tx hs => exact txStep_behind hs h.behind
  | aside hl htx =>
    obtain ⟨-, -, hc, hw⟩ := aside_of_loop (s := s) hl
    rw [hc, hw, htx]
    exact h.behind

theorem Owing.holds_step (h : Owing config tr s) (ht : Turn s label s') :
    (queued (tr ++ [(s, label)])).countP (·.2) + s'.rx.holds ≤ accepted (tr ++ [(s, label)]) := by
  have hheld := h.holds
  rw [queued_snoc, accepted_snoc, List.countP_append]
  have hrest (hle : (s.queues label).countP (·.2) + s'.rx.holds ≤ s.rx.holds + (s.accepting label).toNat) :
      (queued tr).countP (·.2) + (s.queues label).countP (·.2) + s'.rx.holds ≤ accepted tr + (s.accepting label).toNat := by
    omega
  apply hrest
  cases ht with
  | rx hs => exact (rxStep_next hs).holds
  | @tx choice _ _ hrx =>
    have hq : s.queues (.tx choice) = [] := queues_of_label nofun
    rw [hq, hrx]
    exact (Nat.zero_add _).le.trans (Nat.le_add_right _ _)
  | aside hl _ _ hrx =>
    rcases hrx with hnext | hrx | hrx
    · exact hnext.holds
    · rw [(aside_of_loop hl).2.1, hrx]
      exact (Nat.zero_add _).le.trans (Nat.le_add_right _ _)
    · rw [(aside_of_loop hl).2.1, hrx]
      exact Nat.zero_le _

/-- The step lemma. -/
theorem Owing.step (h : Owing config tr s) (hs : s.step label = some s') (hok : s.unpanicked label) :
    Owing config (tr ++ [(s, label)]) s' where
  toRegular := h.toRegular.step hs
  oneWayItems := h.oneWayItems.step hs
  named := h.named_step (step_turn h.oneWayItems hs) hok
  answers _ _ hrx := h.answers_step (step_turn h.oneWayItems hs) hrx
  order := h.order_step (step_turn h.oneWayItems hs)
  behind := h.behind_step (step_turn h.oneWayItems hs)
  holds := h.holds_step (step_turn h.oneWayItems hs)
  owed hr := by
    cases step_turn h.oneWayItems hs with
    | rx hrx => exact h.rx_owed rfl hs (rxStep_next hrx) hr
    | tx htx hrx => exact h.tx_owed htx hrx hr
    | aside hl _ _ hrx =>
      rcases hrx with hnext | hrx
      · exact h.rx_owed (aside_of_loop hl).2.2.1 hs hnext hr
      · exact h.aside_owed hs hl hrx hr

end Owing

end GoSmpp.Session
