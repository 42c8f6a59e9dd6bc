import GoSmpp.Session.Moves

/-!
# What the steps of a session can do

One inversion for each part of a session that several goroutines write, from which the invariants are derived:

* `step_ledger`: to the pending table, the window, the calls and the tasks (`Ledger.Step`);
* `step_machine`: to the state machine (`MachineStep`);
* `step_termination`: to the progress of `terminate`. The configuration never changes (`step_config`).
-/

namespace GoSmpp.Session
open Lib Protocol Codec

/-! ## The phases of a call -/

/-- `windowOwned`: the call itself has to give the slot back. -/
def Phase.owns : Phase → Bool
  | .beginning | .drawing _ | .inserting _ | .cancelling true _ | .releasing _ => true
  | _ => false

/-- The call has not inserted its request. -/
def Phase.early : Phase → Bool
  | .checking | .entering | .acquiring | .awaitingSlot => true
  | p => p.owns

/-- The call has inserted its request and not yet decided what to return. -/
def Phase.registered : Phase → Bool
  | .encoding | .admitting _ | .waiting | .blocked => true
  | _ => false

/-- The call is before `EncodePDU`, its request in the table. -/
def Phase.unencoded : Phase → Bool
  | .encoding => true
  | _ => false

def Phase.over : Phase → Bool
  | .returned _ => true
  | _ => false

namespace Ledger

/-! ## The ledger -/

/-- The call goes on without touching the table, the window or its channel. -/
structure Moves (p q : Phase) : Prop where
  owns : q.owns = p.owns
  early : q.early → p.early
  registered : q.registered = p.registered
  running : p.over = false
  encoding : q.unencoded = false

/-- What a step can do to the ledger of a session with configuration `c`. -/
inductive Step (c : Config) (l : Ledger) : Label → Ledger → Prop
  /-- nothing but the sequence number and the deadlines changes -/
  | other (label : Label) (sequence : UInt32) (heap : List DeadlineItem) : Step c l label { l with sequence, heap }
  | request (command : CommandID) (body : Value) (waitWindow : Bool) :
      Step c l (.request command body waitWindow) { l with calls := l.calls ++ [{ command, body, waitWindow }] }
  | move {i k q arm} : l.calls[i]? = some k → Moves k.phase q → Step c l (.call i arm) (l.goto i q)
  | draw {i k n} : l.calls[i]? = some k → k.phase = .drawing n →
      Step c l (.call i .go) ({ l with sequence := l.nextSequence }.modify i fun k =>
        { k with sequence := l.nextSequence, phase := .inserting n })
  | acquire {i k} : l.calls[i]? = some k → k.phase = .acquiring ∨ k.phase = .awaitingSlot → l.tokens < c.windowSize →
      Step c l (.call i .go) ({ l with tokens := l.tokens + 1 }.goto i .beginning)
  | giveBack {i k r} : l.calls[i]? = some k → k.phase = .releasing r →
      Step c l (.call i .go) (l.release.goto i (.returned r))
  | insert {i k n l'} : l.calls[i]? = some k → k.phase = .inserting n → l.insert c.maxPending k.sequence i = .ok l' →
      Step c l (.call i .go) (l'.goto i .encoding)
  /-- a caller gives up: its context is done, or its request does not encode -/
  | abandon {i k arm j err} : l.calls[i]? = some k → k.phase.registered →
      (k.phase = .encoding → ∃ err, encodeFrame c.registry (requestHeader k) k.body = .error err) →
      l.pending.lookup k.sequence = some j →
      Step c l (.call i arm) ((l.remove k.sequence (errorTask (.caller i) j err [])).goto i (.cancelling false (.error err)))
  /-- the request does not encode, and somebody else has taken it out of the table -/
  | unencodable {i k err} : l.calls[i]? = some k → k.phase = .encoding →
      encodeFrame c.registry (requestHeader k) k.body = .error err → l.pending.lookup k.sequence = none →
      Step c l (.call i .go) (l.goto i (.cancelling false (.error err)))
  | receive {i k r rs} : l.calls[i]? = some k → k.phase.registered → k.done = r :: rs →
      Step c l (.call i .go) (l.modify i fun k => { k with done := [], phase := .returned r })
  | take {frame pdu l'} : decodePDU c.registry frame = .ok pdu → l.takeResponse pdu = some l' → Step c l (.frame frame) l'
  | timeout {sequence i err} : l.pending.lookup sequence = some i →
      Step c l .fire (l.remove sequence (errorTask .deadline i err [.cancel]))
  | sweep (err : Err) : Step c l .term (l.failAll err)
  | finish {o t l₀ rest l'} : l.nextTask o = some (t, l₀) → t.todo = .finish :: rest → l₀.finish t rest = some l' →
      Step c l (.task o) l'
  | release {o t l₀ rest} : l.nextTask o = some (t, l₀) → t.todo = .release :: rest →
      Step c l (.task o) ((l₀.release.modify t.call fun k => { k with released := k.released + 1 }).resume t rest)
  | send {o t l₀ rest l'} : l.nextTask o = some (t, l₀) → t.todo = .send :: rest → l₀.send t = some l' →
      Step c l (.task o) (l'.resume t rest)
  /-- a stage that does not concern the ledger -/
  | stage {o t l₀ st rest} : l.nextTask o = some (t, l₀) → t.todo = st :: rest → st ≠ .finish → st ≠ .release →
      st ≠ .send → ∀ heap, Step c l (.task o) ({ l₀ with heap }.resume t rest)
  /-- a deadline is attached to the request -/
  | attach {i k} : l.calls[i]? = some k → Step c l (.tx .go) (l.modify i fun k => { k with deadline := true })

variable {l l' : Ledger}

theorem takeResponse_some {pdu : DecodedPDU} (h : l.takeResponse pdu = some l') :
    ∃ i k, l.pending.lookup pdu.header.sequenceNumber = some i ∧ l.calls[i]? = some k ∧
      (pdu.header.commandID = responseID k.command ∨ pdu.header.commandID = commandGenericNACK) ∧
      l' = l.remove pdu.header.sequenceNumber (responseTask i pdu) := by
  obtain ⟨i, hi, h⟩ := Option.bind_eq_some_iff.mp h
  obtain ⟨k, hk, h⟩ := Option.bind_eq_some_iff.mp h
  split at h
  · cases h
  · next hid =>
    cases h
    refine ⟨i, k, hi, hk, ?_, rfl⟩
    by_contra hne
    exact hid (not_or.mp hne)

end Ledger

section Steps
variable {s s' : Session} {i : Nat} {k : Call} {arm : Arm}

theorem ledger_same {l l' : Ledger} {c : Config} {label : Label} (h : l' = l) : l.Step c label l' := by
  rw [h]
  exact .other label l.sequence l.heap

theorem callStep_ledger (hk : s.ledger.calls[i]? = some k) (h : s.callStep i k arm = some s') :
    s.ledger.Step s.config (.call i arm) s'.ledger := by
  obtain ⟨t, q, hn, rfl⟩ := callStep_next h
  cases hn with
  | refuse hp | check hp | closed hp | enter hp | await hp | full hp | slotCtx hp | slotDone hp | beginError hp | begin hp
  | retry hp | exhausted hp | overfull hp => exact .move hk (by rw [hp]; exact ⟨rfl, fun _ => rfl, rfl, rfl, rfl⟩)
  | encode hp | enqueue hp | admitDone hp => exact .move hk (by rw [hp]; exact ⟨rfl, nofun, rfl, rfl, rfl⟩)
  | overtaken hp =>
    refine .move hk ?_
    rcases hp with hp | ⟨frame, hp⟩ <;> rw [hp] <;> exact ⟨rfl, nofun, rfl, rfl, rfl⟩
  | @cancel owned r hp =>
    refine .move hk ?_
    rw [hp]
    cases owned
    · exact ⟨rfl, nofun, rfl, rfl, rfl⟩
    · exact ⟨rfl, fun _ => rfl, rfl, rfl, rfl⟩
  | acquire hp hroom => exact .acquire hk hp hroom
  | draw hp => rw [modify_goto]; exact .draw hk hp
  | insert hp hroom hnone => exact .insert hk hp (Ledger.insert_inserted i hroom hnone)
  | giveUp hp hj =>
    refine .abandon hk ?_ ?_ hj
    · rcases hp with ⟨hp, -⟩ | ⟨hp | ⟨frame, hp⟩, -⟩ <;> rw [hp] <;> rfl
    · intro hencoding
      rcases hp with ⟨-, he⟩ | ⟨hp | ⟨frame, hp⟩, -⟩
      · exact ⟨_, he⟩
      · rw [hp] at hencoding; cases hencoding
      · rw [hp] at hencoding; cases hencoding
  | unencodable hp he hnone => exact .unencodable hk hp he hnone
  | receive hp hd =>
    rw [modify_goto]
    exact .receive hk (by rcases hp with hp | hp <;> rw [hp] <;> rfl) hd
  | release hp => exact .giveBack hk hp

theorem taskStep_ledger {o : Owner} (h : s.taskStep o = some s') : s.ledger.Step s.config (.task o) s'.ledger := by
  obtain ⟨t, l, k, ht, -, hm⟩ := taskStep_move h
  cases hm with
  | finish htodo hl => exact .finish ht htodo hl
  | unschedule htodo => exact .stage ht htodo nofun nofun nofun _
  | release htodo => exact .release ht htodo
  | send htodo hl => exact .send ht htodo hl
  | complete htodo | negotiate htodo | stay htodo | cancel htodo => exact .stage ht htodo nofun nofun nofun l.heap
  | close htodo =>
    show s.ledger.Step _ _ (Session.terminate _ _).ledger
    rw [terminate_ledger]
    exact .stage ht htodo nofun nofun nofun l.heap

theorem sendStep_ledger {k : Send} {arm : Arm} (h : s.sendStep i k arm = some s') :
    s.ledger.Step s.config (.send i arm) s'.ledger := by
  obtain ⟨t, q, hn, rfl⟩ := sendStep_next h
  cases hn with
  | encode | unencodable => exact .other _ s.ledger.nextSequence s.ledger.heap
  | _ => exact ledger_same rfl

theorem processFrame_ledger (s : Session) (frame : Octets) :
    s.ledger.Step s.config (.frame frame) (s.processFrame frame).ledger := by
  unfold processFrame
  split
  · split
    · exact ledger_same rfl
    · split <;> exact ledger_same rfl
  · next pdu hd =>
    split
    · split
      · next h => exact .take hd h
      · exact ledger_same rfl
    · exact ledger_same rfl

theorem txStep_ledger {choice : TxChoice} (h : s.txStep choice = some s') : s.ledger.Step s.config (.tx choice) s'.ledger := by
  cases txStep_move h with
  | @schedule item => exact .other _ s.ledger.sequence (item :: s.ledger.heap)
  | attach _ hk => exact .attach hk
  | detach => exact .other _ s.ledger.sequence _
  | _ => exact ledger_same rfl

theorem expire_ledger {call : Nat} (h : s.expire call = some s') : s.ledger.Step s.config (.expire call) s'.ledger := by
  obtain ⟨item, -, h⟩ := Option.bind_eq_some_iff.mp h
  cases h
  exact .other _ s.ledger.sequence _

theorem fire_ledger (h : s.fire = some s') : s.ledger.Step s.config .fire s'.ledger := by
  cases fire_move h with
  | timeout _ _ hi => exact .timeout hi
  | late => exact ledger_same rfl

theorem termStep_ledger (h : s.termStep = some s') : s.ledger.Step s.config .term s'.ledger := by
  cases termStep_move h with
  | sweep => exact .sweep _
  | close | done | clear => exact ledger_same rfl

/-- **Every step of a session does to the ledger what its label allows.** -/
theorem step_ledger {label : Label} (h : s.step label = some s') : s.ledger.Step s.config label s'.ledger := by
  cases label with
  | request command body waitWindow => cases h; exact .request command body waitWindow
  | call i arm =>
    obtain ⟨k, hk, -, h⟩ := step_call h
    exact callStep_ledger hk h
  | task o => exact taskStep_ledger h
  | sendOneWay command body => cases h; exact ledger_same rfl
  | send i arm =>
    obtain ⟨k, -, h⟩ := step_send h
    exact sendStep_ledger h
  | frame frame =>
    obtain ⟨-, -, rfl⟩ := step_frame h
    exact s.processFrame_ledger frame
  | rx choice => exact ledger_same (by rw [rxStep_scope h])
  | tx choice => exact txStep_ledger h
  | expire call => exact expire_ledger h
  | fire => exact fire_ledger h
  | terminate cause =>
    cases h
    exact ledger_same (terminate_ledger s cause)
  | term => exact termStep_ledger h

/-! ## What each goroutine leaves alone -/

theorem callStep_scope (h : s.callStep i k arm = some s') :
    s' = { s with machine := s'.machine, ledger := s'.ledger, queue := s'.queue } := by
  obtain ⟨t, q, hn, rfl⟩ := callStep_next h
  cases hn <;> rfl

theorem taskStep_scope {o : Owner} (h : s.taskStep o = some s') :
    s' = { s with
      machine := s'.machine, peerCaps := s'.peerCaps, ledger := s'.ledger, rx := s'.rx, termination := s'.termination,
      closeErr := s'.closeErr } := by
  obtain ⟨t, l, k, -, -, hm⟩ := taskStep_move h
  cases hm with
  | close => rw [terminate_eq]
  | _ => rfl

theorem sendStep_scope {k : Send} (h : s.sendStep i k arm = some s') :
    s' = { s with machine := s'.machine, ledger := s'.ledger, queue := s'.queue, sends := s'.sends } := by
  obtain ⟨t, q, hn, rfl⟩ := sendStep_next h
  cases hn <;> rfl

theorem processFrame_scope (s : Session) (frame : Octets) :
    s.processFrame frame = { s with ledger := (s.processFrame frame).ledger, rx := (s.processFrame frame).rx } := by
  unfold processFrame
  split
  · split
    · rfl
    · split <;> rfl
  · split
    · split <;> rfl
    · rfl

theorem txStep_scope {choice : TxChoice} (h : s.txStep choice = some s') :
    s' = { s with
      machine := s'.machine, ledger := s'.ledger, queue := s'.queue, tx := s'.tx, wire := s'.wire, sends := s'.sends,
      termination := s'.termination, closeErr := s'.closeErr } := by
  cases txStep_move h <;> rfl

theorem fire_scope (h : s.fire = some s') : s' = { s with ledger := s'.ledger, expired := s'.expired } := by
  cases fire_move h <;> rfl

theorem termStep_scope (h : s.termStep = some s') :
    s' = { s with
      machine := s'.machine, ledger := s'.ledger, deferredReplies := s'.deferredReplies, termination := s'.termination } := by
  cases termStep_move h <;> rfl

theorem step_config {label : Label} (h : s.step label = some s') : s'.config = s.config := by
  cases label with
  | request command body waitWindow => cases h; rfl
  | call i arm => obtain ⟨k, -, -, h⟩ := step_call h; rw [callStep_scope h]
  | task o => rw [taskStep_scope h]
  | sendOneWay command body => cases h; rfl
  | send i arm => obtain ⟨k, -, h⟩ := step_send h; rw [sendStep_scope h]
  | frame frame => obtain ⟨-, -, rfl⟩ := step_frame h; rw [processFrame_scope]
  | rx choice => rw [rxStep_scope h]
  | tx choice => rw [txStep_scope h]
  | expire call => obtain ⟨item, -, h⟩ := Option.bind_eq_some_iff.mp h; cases h; rfl
  | fire => rw [fire_scope h]
  | terminate cause => cases h; rw [terminate_eq]
  | term => rw [termStep_scope h]

/-! ## The progress of `terminate` -/

/-- The session goes on as it was, or begins to close. -/
abbrev MayClose (s s' : Session) : Prop :=
  s'.termination = s.termination ∨ (s.termination = .running ∧ s'.termination = .closing)

theorem terminate_termination (s : Session) (cause : Err) : s.MayClose (s.terminate cause) := by
  unfold Session.terminate
  split
  · next hr => exact .inr ⟨hr, rfl⟩
  · exact .inl rfl

theorem taskStep_termination {o : Owner} (h : s.taskStep o = some s') : s.MayClose s' := by
  obtain ⟨t, l, k, -, -, hm⟩ := taskStep_move h
  cases hm with
  | close => exact terminate_termination _ _
  | _ => exact .inl rfl

theorem rxStep_termination {choice : RxChoice} (h : s.rxStep choice = some s') : s.MayClose s' := by
  cases rxStep_move h with
  | @begin pdu => rcases s.beginRequest_cases pdu with ⟨err, -, he⟩ | ⟨m, -, he⟩ <;> rw [he] <;> exact .inl rfl
  | @handle pdu _ outcome => rw [s.handled_local pdu outcome]; exact .inl rfl
  | fail => exact terminate_termination s _
  | enqueue | closed | cancel | resume => exact .inl rfl

theorem txStep_termination {choice : TxChoice} (h : s.txStep choice = some s') : s.MayClose s' := by
  cases txStep_move h with
  | fail | unbound => exact terminate_termination s _
  | _ => exact .inl rfl

theorem step_termination {label : Label} (h : s.step label = some s') :
    s'.termination = s.termination ∨ (s.termination = .running ∧ s'.termination = .closing) ∨
      (label = .term ∧ s.termStep = some s') := by
  cases label with
  | request command body waitWindow => cases h; exact .inl rfl
  | call i arm => obtain ⟨k, -, -, h⟩ := step_call h; rw [callStep_scope h]; exact .inl rfl
  | task o => exact (taskStep_termination h).imp_right .inl
  | sendOneWay command body => cases h; exact .inl rfl
  | send i arm => obtain ⟨k, -, h⟩ := step_send h; rw [sendStep_scope h]; exact .inl rfl
  | frame frame => obtain ⟨-, -, rfl⟩ := step_frame h; rw [processFrame_scope]; exact .inl rfl
  | rx choice => exact (rxStep_termination h).imp_right .inl
  | tx choice => exact (txStep_termination h).imp_right .inl
  | expire call => obtain ⟨item, -, h⟩ := Option.bind_eq_some_iff.mp h; cases h; exact .inl rfl
  | fire => rw [fire_scope h]; exact .inl rfl
  | terminate cause => cases h; exact (terminate_termination s cause).imp_right .inl
  | term => exact .inr (.inr ⟨rfl, h⟩)

theorem termStep_ne_running (h : s.termStep = some s') : s'.termination ≠ .running := by
  cases termStep_move h <;> exact nofun

theorem step_running {label : Label} (h : s.step label = some s') (hr : s'.termination = .running) :
    s.termination = .running := by
  rcases step_termination h with ht | ⟨hrun, -⟩ | ⟨-, ht⟩
  · exact ht ▸ hr
  · exact hrun
  · exact absurd hr (termStep_ne_running ht)

theorem step_done {label : Label} (h : s.step label = some s') (hd : s.termination.done) : s'.termination.done := by
  rcases step_termination h with ht | ⟨hr, -⟩ | ⟨-, ht⟩
  · rw [ht]; exact hd
  · rw [hr] at hd; cases hd
  · cases termStep_move ht with
    | close hterm | done hterm => rw [hterm] at hd; cases hd
    | sweep | clear => rfl

/-! ## The state machine -/

/-- The steps that make or end requests of this side. -/
def Label.outbound : Label → Bool
  | .call _ _ | .task _ | .send _ _ => true
  | _ => false

inductive MachineStep (s : Session) : Label → StateMachine → Prop
  | same (label : Label) : MachineStep s label s.machine
  | beginOutbound {label command m} : label.outbound → s.machine.beginOutbound command = .ok m → MachineStep s label m
  | cancelOutbound {label : Label} (command : CommandID) : label.outbound →
      MachineStep s label (s.machine.cancelOutbound command)
  | completeOutbound {o t l k rest pdu} : s.ledger.nextTask o = some (t, l) → s.ledger.calls[t.call]? = some k →
      t.todo = .complete :: rest → t.result = .ok pdu →
      MachineStep s (.task o) (s.machine.completeOutbound k.command pdu.header.commandStatus)
  | beginInbound {pdu m} : s.rx = .beginning pdu → s.machine.beginInbound pdu.header.commandID = .ok m →
      MachineStep s (.rx .go) m
  | completeInbound {item rest batch} : s.tx = .committing (item :: rest) batch → item.kind = .response →
      item.responseTo ≠ 0 → MachineStep s (.tx .go) (s.machine.completeInbound item.responseTo item.status)
  | cancelInbound {command err} : s.rx = .cancelling command err →
      MachineStep s (.rx .go) (s.machine.cancelInbound command)
  | close : MachineStep s .term s.machine.close

theorem machine_same {label : Label} (h : s'.machine = s.machine) : s.MachineStep label s'.machine := by
  rw [h]
  exact .same label

theorem callStep_machine (h : s.callStep i k arm = some s') : s.MachineStep (.call i arm) s'.machine := by
  obtain ⟨t, q, hn, rfl⟩ := callStep_next h
  cases hn with
  | begin _ hb => exact .beginOutbound rfl hb
  | cancel => exact .cancelOutbound k.command rfl
  | _ => exact machine_same rfl

theorem taskStep_machine {o : Owner} (h : s.taskStep o = some s') : s.MachineStep (.task o) s'.machine := by
  obtain ⟨t, l, k, ht, hk, hm⟩ := taskStep_move h
  cases hm with
  | complete htodo hresult =>
    have hcalls : l.calls = s.ledger.calls := by
      obtain ⟨t', -, he⟩ := Option.bind_eq_some_iff.mp ht
      cases he
      rfl
    exact .completeOutbound ht (hcalls ▸ hk) htodo hresult
  | cancel => exact .cancelOutbound k.command rfl
  | close => rw [terminate_eq]; exact machine_same rfl
  | _ => exact machine_same rfl

theorem sendStep_machine {k : Send} (h : s.sendStep i k arm = some s') : s.MachineStep (.send i arm) s'.machine := by
  obtain ⟨t, q, hn, rfl⟩ := sendStep_next h
  cases hn with
  | begin _ hb => exact .beginOutbound rfl hb
  | cancel => exact .cancelOutbound k.command rfl
  | _ => exact machine_same rfl

theorem rxStep_machine {choice : RxChoice} (h : s.rxStep choice = some s') : s.MachineStep (.rx choice) s'.machine := by
  cases rxStep_move h with
  | @begin pdu hrx =>
    rcases s.beginRequest_cases pdu with ⟨err, -, he⟩ | ⟨m, hm, he⟩ <;> rw [he]
    · exact machine_same rfl
    · rcases beginInbound_ok hm with rfl | hm
      · exact machine_same rfl
      · exact .beginInbound hrx hm
  | @handle pdu _ outcome => rw [s.handled_local pdu outcome]; exact machine_same rfl
  | cancel hrx => exact .cancelInbound hrx
  | fail => rw [terminate_eq]; exact machine_same rfl
  | enqueue | closed | resume => exact machine_same rfl

theorem txStep_machine {choice : TxChoice} (h : s.txStep choice = some s') : s.MachineStep (.tx choice) s'.machine := by
  cases txStep_move h with
  | commit htx =>
    show s.MachineStep _ (if _ then _ else _)
    split
    · next hr => exact .completeInbound htx hr.1 hr.2
    · exact .same _
  | _ => exact machine_same rfl

theorem termStep_machine (h : s.termStep = some s') : s.MachineStep .term s'.machine := by
  cases termStep_move h with
  | close => exact .close
  | done | sweep | clear => exact machine_same rfl

/-- **Every step of a session makes at most one transition of its machine**, and who makes which. -/
theorem step_machine {label : Label} (h : s.step label = some s') : s.MachineStep label s'.machine := by
  cases label with
  | request command body waitWindow => cases h; exact machine_same rfl
  | call i arm => obtain ⟨k, -, -, h⟩ := step_call h; exact callStep_machine h
  | task o => exact taskStep_machine h
  | sendOneWay command body => cases h; exact machine_same rfl
  | send i arm => obtain ⟨k, -, h⟩ := step_send h; exact sendStep_machine h
  | frame frame => obtain ⟨-, -, rfl⟩ := step_frame h; rw [processFrame_scope]; exact machine_same rfl
  | rx choice => exact rxStep_machine h
  | tx choice => exact txStep_machine h
  | expire call => obtain ⟨item, -, h⟩ := Option.bind_eq_some_iff.mp h; cases h; exact machine_same rfl
  | fire => rw [fire_scope h]; exact machine_same rfl
  | terminate cause => cases h; rw [terminate_eq]; exact machine_same rfl
  | term => exact termStep_machine h

theorem MachineStep.step {label : Label} {m : StateMachine} (h : s.MachineStep label m) :
    m = s.machine ∨ s.machine.Step m := by
  cases h with
  | same => exact .inl rfl
  | beginOutbound _ hb => exact .inr (.beginOutbound hb)
  | cancelOutbound command => exact .inr (.cancelOutbound _ command)
  | completeOutbound => exact .inr (.completeOutbound _ _ _)
  | beginInbound _ hb => exact .inr (.beginInbound hb)
  | completeInbound => exact .inr (.completeInbound _ _ _)
  | cancelInbound => exact .inr (.cancelInbound _ _)
  | close => exact .inr (.close _)

/-- What the transitions of the machine preserve is preserved. -/
@[elab_as_elim]
theorem step_keeps {label : Label} {P : StateMachine → Prop} (hs : s.step label = some s') (h : P s.machine)
    (step : s.machine.Step s'.machine → P s'.machine) : P s'.machine := by
  rcases (step_machine hs).step with hm | hm
  · rw [hm]; exact h
  · exact step hm

/-- **How a session gets bound**: the machine stays fresh or closes, or a response to a bind of this ESME has come, or the
SMSC has committed its response to one. -/
theorem MachineStep.fresh {label : Label} {m : StateMachine} (h : s.MachineStep label m) (hf : s.machine.Fresh) :
    m.Fresh ∨ m = s.machine.close ∨
    (∃ o t l k rest pdu, label = .task o ∧ s.ledger.nextTask o = some (t, l) ∧ s.ledger.calls[t.call]? = some k ∧
      t.todo = .complete :: rest ∧ t.result = .ok pdu ∧ isBindRequest k.command ∧
      CommandStatus.ok pdu.header.commandStatus ∧ s.machine.role = .esme ∧ m.Bound k.command) ∨
    (∃ item rest batch, s.tx = .committing (item :: rest) batch ∧ item.kind = .response ∧
      isBindRequest item.responseTo ∧ CommandStatus.ok item.status ∧ s.machine.role = .smsc ∧ m.Bound item.responseTo) := by
  cases h with
  | same => exact .inl hf
  | beginOutbound _ ho => exact .inl (hf.beginOutbound ho)
  | cancelOutbound => exact .inl hf.cancelOutbound
  | @completeOutbound o t l k rest pdu ht hk htodo hr =>
    rcases hf.completeOutbound k.command pdu.header.commandStatus with hf' | ⟨hb, hp, hst, hbound⟩
    · exact .inl hf'
    · have hrole := hf.localBind (hp ▸ isBindRequest_ne_zero hb)
      exact .inr (.inr (.inl ⟨o, t, l, k, rest, pdu, rfl, ht, hk, htodo, hr, hb, hst, hrole, hbound⟩))
  | beginInbound _ hi => exact .inl (hf.mirror.beginOutbound (StateMachine.beginInbound_mirror hi)).of_mirror
  | @completeInbound item rest batch htx hkind _ =>
    have hc := hf.mirror.completeOutbound item.responseTo item.status
    rw [← StateMachine.completeInbound_mirror] at hc
    rcases hc with hf' | ⟨hb, hp, hst, hbound⟩
    · exact .inl hf'.of_mirror
    · have hpending : s.machine.pendingPeerBind = item.responseTo := hp
      have hrole := hf.peerBind (hpending ▸ isBindRequest_ne_zero hb)
      exact .inr (.inr (.inr ⟨item, rest, batch, htx, hkind, hb, hst, hrole, hbound.of_mirror⟩))
  | @cancelInbound command err _ =>
    rcases StateMachine.cancelInbound_mirror s.machine command with he | he
    · exact .inl (StateMachine.Fresh.of_mirror (by rw [he]; exact hf.mirror.cancelOutbound))
    · rw [he]; exact .inl hf
  | close => exact .inr (.inl rfl)

end Steps

end GoSmpp.Session
