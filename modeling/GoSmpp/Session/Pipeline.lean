import GoSmpp.Session.Answer
import GoSmpp.Session.Calls

/-!
# The way of an answer

From the frame that the RX loop takes up to the item that the TX loop commits and writes.

* `RxNext`: every step of the RX loop, with the machine, the queue and the point it comes to (`rxStep_next`, `frame_next`).
* `TxNext`: every step of the TX loop, over the items it has not committed and not written (`txStep_next`).
* `Flow`: every step of a session as the two loops and the queue between them see it (`step_flow`).
* `uncommitted`: the items on their way to the commit, and where a response among them comes from (`Flow.mem_uncommitted`);
  only the handler accepts a bind (`RxNext.accepts`).
-/

namespace GoSmpp.Session
open Lib Protocol Codec

/-! ## The RX loop -/

/-- What `handleRequest` does when its response cannot be queued. -/
def afterQueue (command : CommandID) : AfterQueue := if isLifecycleRequest command then .cancel command else .fail

/-- What becomes of a response: it is queued, a `generic_nack` is in its place, or the loop fails. -/
inductive AnswerNext (s : Session) (pdu : DecodedPDU) (status : CommandStatus) : RxPhase → Prop
  | queue {body item} : s.queueResponse pdu.header (responseID pdu.header.commandID) status body
      (isLifecycleRequest pdu.header.commandID) = .ok item →
      AnswerNext s pdu status (.queueing item (afterQueue pdu.header.commandID))
  | nack {item} : s.queueResponse pdu.header commandGenericNACK statusSystemError emptyBody false = .ok item →
      AnswerNext s pdu status (.queueing item (afterQueue pdu.header.commandID))
  | fail (err : Err) : AnswerNext s pdu status ((afterQueue pdu.header.commandID).failed err)

/-- A step of the RX loop: the machine, the queue and the point of the loop after it. -/
inductive RxNext (s : Session) : Label → StateMachine → List TxItem → RxPhase → Prop
  /-- a response is taken up, or a frame cannot be read -/
  | skip {frame rx} : s.rx = .reading → (rx = .reading ∨ ∃ err, rx = .failing err) →
      RxNext s (.frame frame) s.machine s.queue rx
  | nack {frame request status next item} : s.rx = .reading → status ≠ statusOK → (next = .ignore ∨ next = .fail) →
      s.queueResponse request commandGenericNACK status emptyBody false = .ok item →
      RxNext s (.frame frame) s.machine s.queue (.queueing item next)
  | receive {frame pdu} : s.rx = .reading → decodePDU s.config.registry frame = .ok pdu →
      isResponse pdu.header.commandID = false → (s.config.registry.command pdu.header.commandID).isSome →
      RxNext s (.frame frame) s.machine s.queue (.beginning pdu)
  /-- the state check refuses a request -/
  | refuse {pdu id item err} : s.rx = .beginning pdu → s.beginInbound pdu.header.commandID = .error err →
      (id = commandGenericNACK ∨ id = responseID pdu.header.commandID) →
      s.queueResponse pdu.header id statusInvalidBindState emptyBody false = .ok item →
      RxNext s (.rx .go) s.machine s.queue (.queueing item .fail)
  | unanswered {pdu err err'} : s.rx = .beginning pdu → s.beginInbound pdu.header.commandID = .error err →
      RxNext s (.rx .go) s.machine s.queue (.failing err')
  | handle {pdu m} : s.rx = .beginning pdu → s.beginInbound pdu.header.commandID = .ok m → s.config.handler →
      RxNext s (.rx .go) m s.queue (.handling pdu)
  | ignore {pdu m} : s.rx = .beginning pdu → s.beginInbound pdu.header.commandID = .ok m →
      isOneWayCommand pdu.header.commandID → RxNext s (.rx .go) m s.queue .reading
  /-- the session answers by itself -/
  | answer {pdu m response rx} : s.rx = .beginning pdu → s.beginInbound pdu.header.commandID = .ok m →
      (pdu.header.commandID = commandEnquireLink ∨ pdu.header.commandID = commandUnbind) ∧ response.status = statusOK ∨
        s.config.handler = false ∧ response = noHandlerResponse pdu.header.commandID →
      AnswerNext s pdu response.status rx → RxNext s (.rx .go) m s.queue rx
  /-- the handler has answered -/
  | handled {pdu response rx} : s.rx = .handling pdu → response.action = .immediate → AnswerNext s pdu response.status rx →
      RxNext s (.rx (.handled (.returned (.ok response)))) s.machine s.queue rx
  /-- the handler has failed -/
  | broke {pdu outcome rx} : s.rx = .handling pdu → AnswerNext s pdu statusSystemError rx →
      RxNext s (.rx (.handled outcome)) s.machine s.queue rx
  | withheld {pdu outcome rx} : s.rx = .handling pdu →
      (rx = .reading ∧ (isOneWayCommand pdu.header.commandID ∨ pdu.header.commandID = commandDeliverSM) ∨
        ∃ err, rx = .failing err) → RxNext s (.rx (.handled outcome)) s.machine s.queue rx
  | enqueue {item next} : s.rx = .queueing item next → RxNext s (.rx .go) s.machine (s.queue ++ [item]) .reading
  | close {item next err} : s.rx = .queueing item next → s.termination.done →
      RxNext s (.rx .done) s.machine s.queue (next.failed err)
  | cancel {command err} : s.rx = .cancelling command err →
      RxNext s (.rx .go) (s.machine.cancelInbound command) s.queue (.failing err)
  | stop {err} : s.rx = .failing err → RxNext s (.rx .go) s.machine s.queue .stopped
  | resume : s.rx = .terminating → RxNext s (.rx .go) s.machine s.queue .reading

section RxNext
variable {s s' t : Session} {pdu : DecodedPDU} {response : Response} {rx : RxPhase} {status : CommandStatus}

theorem queueResponse_congr (hc : t.config = s.config) (request : Header) (id : CommandID) (status : CommandStatus)
    (body : Value) (reserved : Bool) :
    t.queueResponse request id status body reserved = s.queueResponse request id status body reserved := by
  unfold Session.queueResponse
  rw [hc]

theorem AnswerNext.congr (hc : t.config = s.config) (h : AnswerNext t pdu status rx) : AnswerNext s pdu status rx := by
  cases h with
  | queue h => exact .queue (queueResponse_congr hc .. ▸ h)
  | nack h => exact .nack (queueResponse_congr hc .. ▸ h)
  | fail err => exact .fail err

theorem answer_next (s : Session) (pdu : DecodedPDU) (response : Response) :
    AnswerNext s pdu response.status (s.answer pdu response).rx := by
  have hc : (s.acceptBind pdu response).1.config = s.config := by
    have h := s.acceptBind_local pdu response
    rw [RxLocal] at h
    rw [h]
  unfold Session.answer
  simp only
  split
  · next h => exact .congr hc (.queue h)
  · next err h =>
    split
    · unfold nack respond
      split
      · next h => exact .congr hc (.nack h)
      · exact .fail _
    · exact .fail _

theorem dispatchResponse_next (s : Session) (pdu : DecodedPDU) (response : Response) :
    (response.action = .immediate ∧ AnswerNext s pdu response.status (s.dispatchResponse pdu response).rx) ∨
    (response.action ≠ .immediate ∧ ((s.dispatchResponse pdu response).rx = .reading ∧
      pdu.header.commandID = commandDeliverSM ∨ ∃ err, (s.dispatchResponse pdu response).rx = .failing err)) := by
  unfold Session.dispatchResponse
  split
  · next h => exact .inl ⟨h, s.answer_next pdu response⟩
  · next h =>
    refine .inr ⟨fun h' => h h', ?_⟩
    split
    · exact .inr ⟨_, rfl⟩
    · next hd =>
      have hd := not_not.mp hd
      split
      · exact .inl ⟨rfl, hd⟩
      · split
        · exact .inl ⟨rfl, hd⟩
        · exact .inr ⟨_, rfl⟩
      · exact .inr ⟨_, rfl⟩

theorem refuse_next {err : Err} (hrx : s.rx = .beginning pdu) (hb : s.beginInbound pdu.header.commandID = .error err) :
    RxNext s (.rx .go) s.machine s.queue (s.refuse pdu.header) := by
  unfold Session.refuse nack respond
  split
  · split
    · next h => exact .refuse hrx hb (.inl rfl) h
    · exact .unanswered hrx hb
  · split
    · next h => exact .refuse hrx hb (.inr rfl) h
    · exact .unanswered hrx hb

theorem dispatch_next {m : StateMachine} (hrx : s.rx = .beginning pdu) (hb : s.beginInbound pdu.header.commandID = .ok m)
    (hr : (pdu.header.commandID = commandEnquireLink ∨ pdu.header.commandID = commandUnbind) ∧ response.status = statusOK ∨
      s.config.handler = false ∧ response = noHandlerResponse pdu.header.commandID) (hi : response.action = .immediate) :
    RxNext s (.rx .go) (Session.dispatchResponse { s with machine := m } pdu response).machine s.queue
      (Session.dispatchResponse { s with machine := m } pdu response).rx := by
  rw [show (Session.dispatchResponse { s with machine := m } pdu response).machine = m by
    rw [dispatchResponse_local _ pdu response]]
  rcases dispatchResponse_next { s with machine := m } pdu response with ⟨_, ha⟩ | ⟨hne, _⟩
  · exact .answer hrx hb hr (.congr (t := { s with machine := m }) rfl ha)
  · exact absurd hi hne

theorem beginRequest_next (hrx : s.rx = .beginning pdu) :
    RxNext s (.rx .go) (s.beginRequest pdu).machine s.queue (s.beginRequest pdu).rx := by
  unfold beginRequest
  cases hb : s.beginInbound pdu.header.commandID with
  | error err =>
    simp only [hb]
    exact refuse_next hrx hb
  | ok m =>
    simp only [hb]
    split
    · next hone =>
      by_cases hh : s.config.handler
      · simp only [if_pos hh]
        exact .handle hrx hb hh
      · simp only [if_neg hh]
        exact .ignore hrx hb hone
    · split
      · next hc => exact dispatch_next hrx hb (.inl ⟨hc, rfl⟩) rfl
      · split
        · next hh => exact dispatch_next hrx hb (.inr ⟨by simpa using hh, rfl⟩) rfl
        · next hh => exact .handle hrx hb (by simpa using hh)

theorem handled_next (hrx : s.rx = .handling pdu) (outcome : Handled) :
    RxNext s (.rx (.handled outcome)) s.machine s.queue (s.handled pdu outcome).rx := by
  have hbroke : RxNext s (.rx (.handled outcome)) s.machine s.queue
      (s.dispatchResponse pdu { status := statusSystemError, body := emptyBody }).rx := by
    rcases s.dispatchResponse_next pdu { status := statusSystemError, body := emptyBody } with ⟨_, ha⟩ | ⟨hne, _⟩
    · exact .broke hrx ha
    · exact absurd rfl hne
  unfold Session.handled
  split
  · next hone => exact .withheld hrx (.inl ⟨rfl, .inl hone⟩)
  · split
    · next response =>
      rcases s.dispatchResponse_next pdu response with ⟨hi, ha⟩ | ⟨_, hw⟩
      · exact .handled hrx hi ha
      · exact .withheld hrx (hw.imp_left fun ⟨hr, hd⟩ => ⟨hr, .inr hd⟩)
    · exact hbroke

/-- **What a step of the RX loop does.** -/
theorem rxStep_next {choice : RxChoice} (h : s.rxStep choice = some s') :
    RxNext s (.rx choice) s'.machine s'.queue s'.rx := by
  cases rxStep_move h with
  | @begin pdu hrx =>
    have hq : (s.beginRequest pdu).queue = s.queue := by
      rcases s.beginRequest_cases pdu with ⟨err, -, he⟩ | ⟨m, -, he⟩ <;> rw [he]
    rw [hq]
    exact beginRequest_next hrx
  | @handle pdu hrx outcome =>
    have hl := s.handled_local pdu outcome
    rw [show (s.handled pdu outcome).machine = s.machine by rw [hl],
      show (s.handled pdu outcome).queue = s.queue by rw [hl]]
    exact handled_next hrx outcome
  | enqueue hrx => exact .enqueue hrx
  | closed hrx hdone => exact .close hrx hdone
  | cancel hrx => exact .cancel hrx
  | fail hrx =>
    rw [terminate_eq]
    exact .stop hrx
  | resume hrx => exact .resume hrx

theorem decodeErrorStatus_ne (err : Err) : decodeErrorStatus err ≠ statusOK := by
  unfold decodeErrorStatus
  split
  · split
    · assumption
    · decide
  · decide

theorem nack_next {frame : Octets} {request : Header} {next : AfterQueue} (hrx : s.rx = .reading)
    (hstatus : status ≠ statusOK) (hnext : next = .ignore ∨ next = .fail) :
    RxNext s (.frame frame) s.machine s.queue (s.nack request status next) := by
  unfold nack respond
  split
  · next h => exact .nack hrx hstatus hnext h
  · next err _ =>
    refine .skip hrx ?_
    rcases hnext with rfl | rfl
    · exact .inl rfl
    · exact .inr ⟨err, rfl⟩

/-- **What the RX loop does with a frame.** -/
theorem frame_next {frame : Octets} (h : s.step (.frame frame) = some s') :
    RxNext s (.frame frame) s'.machine s'.queue s'.rx := by
  obtain ⟨hrx, -, rfl⟩ := step_frame h
  unfold processFrame
  split
  · next err _ =>
    split
    · exact .skip hrx (.inr ⟨err, rfl⟩)
    · split
      · exact .skip hrx (.inr ⟨_, rfl⟩)
      · exact nack_next hrx (decodeErrorStatus_ne err) (.inl rfl)
  · next pdu hd =>
    split
    · split <;> exact .skip hrx (.inl hrx)
    · next hresp =>
      show RxNext s _ s.machine s.queue (s.checkRequest pdu)
      unfold checkRequest
      split
      · exact nack_next hrx (by decide) (.inr rfl)
      · split
        · exact nack_next hrx (by decide) (.inr rfl)
        · next hreg =>
          split
          · exact nack_next hrx (by decide) (.inr rfl)
          · exact .receive hrx hd (eq_false_of_ne_true hresp) (by simpa [Option.isSome_iff_ne_none] using hreg)

end RxNext

/-! ## The TX loop -/

/-- The items that the loop has taken from the queue and not committed. -/
def TxPhase.uncommitted : TxPhase → List TxItem
  | .checking item batch => batch ++ [item]
  | .gathering batch => batch
  | .committing rest _ => rest
  | _ => []

/-- The items that the loop has taken from the queue and not written. -/
def TxPhase.unwritten : TxPhase → List TxItem
  | .checking item batch => batch ++ [item]
  | .gathering batch => batch
  | .committing _ batch => batch
  | .writing rest _ => rest
  | _ => []

/-- A step of the TX loop: the machine, the items not committed, the items not written and the wire after it. -/
inductive TxNext (s : Session) : StateMachine → List TxItem → List TxItem → List Octets → Prop
  | keep : TxNext s s.machine (s.tx.uncommitted ++ s.queue) (s.tx.unwritten ++ s.queue) s.wire
  /-- a request that has been completed is not sent -/
  | drop {item batch} : s.tx = .checking item batch → item.kind = .request → s.ledger.exists item.sequence = false →
      TxNext s s.machine (batch ++ s.queue) (batch ++ s.queue) s.wire
  | commit {item rest batch} : s.tx = .committing (item :: rest) batch →
      TxNext s (if item.kind = .response ∧ item.responseTo ≠ 0 then s.machine.completeInbound item.responseTo item.status
        else s.machine) (rest ++ s.queue) (batch ++ s.queue) s.wire
  | write {item rest batch} : s.tx = .writing (item :: rest) batch →
      TxNext s s.machine s.queue (rest ++ s.queue) (s.wire ++ [item.frame])
  /-- a write fails -/
  | fail {rest batch} : s.tx = .writing rest batch → TxNext s s.machine s.queue s.queue s.wire

/-- **What a step of the TX loop does.** -/
theorem txStep_next {s s' : Session} {choice : TxChoice} (h : s.txStep choice = some s') :
    TxNext s s'.machine (s'.tx.uncommitted ++ s'.queue) (s'.tx.unwritten ++ s'.queue) s'.wire := by
  -- the loop has gone on and every item is where it was
  have hkeep {t : Session} (hm : t.machine = s.machine) (hw : t.wire = s.wire)
      (hu : t.tx.uncommitted ++ t.queue = s.tx.uncommitted ++ s.queue)
      (hn : t.tx.unwritten ++ t.queue = s.tx.unwritten ++ s.queue) :
      TxNext s t.machine (t.tx.uncommitted ++ t.queue) (t.tx.unwritten ++ t.queue) t.wire := by
    rw [hm, hw, hu, hn]
    exact .keep
  cases txStep_move h with
  | take htx hqueue => exact hkeep rfl rfl (by rw [htx, hqueue]; rfl) (by rw [htx, hqueue]; rfl)
  | gather htx hqueue =>
    refine hkeep rfl rfl ?_ ?_ <;> rw [htx, hqueue] <;> simp [TxPhase.uncommitted, TxPhase.unwritten]
  | drop htx hactive | dropAll htx hactive =>
    rw [txItemActive, Bool.or_eq_false_iff, bne_eq_false_iff_eq] at hactive
    exact .drop htx hactive.1 hactive.2
  | commit htx => exact .commit htx
  | write htx => exact .write htx
  | fail htx => exact .fail htx
  | unbound htx | dispatched htx | stop htx | accept htx | close htx | committed htx | written htx | mark htx
  | completed htx | answered htx | finish htx | schedule htx | skip htx | attach htx | detach htx => exact hkeep rfl rfl (by rw [htx]; rfl) (by rw [htx]; rfl)

/-! ## Every step -/

/-- A step of the RX or of the TX loop. -/
def Label.loop : Label → Bool
  | .rx _ | .tx _ => true
  | _ => false

def Enters (s : Session) (item : TxItem) : Prop :=
  (∃ (i : Nat) (k : Call) (frame : Octets), s.ledger.calls[i]? = some k ∧ k.phase = .admitting frame ∧
    item = requestItem k frame) ∨
  ∃ k ∈ s.sends, k.phase = .admitting item

/-- A step of the session as the two loops, the queue between them and the connection see it. -/
inductive Flow (s : Session) (label : Label) (s' : Session) : Prop
  | rx (hnext : RxNext s label s'.machine s'.queue s'.rx) (htx : s'.tx = s.tx) (hwire : s'.wire = s.wire)
  | tx (hlabel : ∃ choice, label = .tx choice)
      (hnext : TxNext s s'.machine (s'.tx.uncommitted ++ s'.queue) (s'.tx.unwritten ++ s'.queue) s'.wire) (hrx : s'.rx = s.rx)
  /-- a caller queues its request or its one-way PDU -/
  | enter (item : TxItem) (hkind : item.kind ≠ .response) (hitem : s.Enters item) (hqueue : s'.queue = s.queue ++ [item])
      (hmachine : s'.machine = s.machine) (hrx : s'.rx = s.rx) (htx : s'.tx = s.tx) (hwire : s'.wire = s.wire)
  | other (hlabel : label.loop = false) (hqueue : s'.queue = s.queue)
      (hrx : s'.rx = s.rx ∨ s'.rx = .terminating) (htx : s'.tx = s.tx) (hwire : s'.wire = s.wire)

section Flow
variable {s s' : Session} {i : Nat} {arm : Arm}

theorem CallNext.queue {k : Call} {t : Session} {q : Phase} (h : CallNext s i k arm t q) :
    t.queue = s.queue ∨
      ∃ frame, k.phase = .admitting frame ∧ t.queue = s.queue ++ [requestItem k frame] ∧ t.machine = s.machine := by
  cases h
  case enqueue frame hp _ => exact .inr ⟨frame, hp, rfl, rfl⟩
  all_goals exact .inl rfl

theorem callStep_flow {k : Call} (hk : s.ledger.calls[i]? = some k) (h : s.callStep i k arm = some s') :
    Flow s (.call i arm) s' := by
  have hscope := callStep_scope h
  obtain ⟨t, q, hnext, rfl⟩ := callStep_next h
  rcases hnext.queue with hq | ⟨frame, hp, hq, hm⟩
  · refine .other rfl hq (.inl ?_) ?_ ?_ <;> rw [hscope]
  · refine .enter (requestItem k frame) nofun (.inl ⟨i, k, frame, hk, hp, rfl⟩) hq hm ?_ ?_ ?_ <;> rw [hscope]

/-- Whoever waits to queue a one-way PDU has one. -/
def OneWayItems (s : Session) : Prop := ∀ k ∈ s.sends, ∀ item, k.phase = .admitting item → item.kind = .oneWay

theorem OneWayItems.step {label : Label} (ho : s.OneWayItems) (h : s.step label = some s') : s'.OneWayItems := by
  intro k' hk' item hp
  obtain ⟨j, hj⟩ := List.getElem?_of_mem hk'
  rcases step_sender h hj with ⟨command, body, -, rfl⟩ | ⟨k, hk, hsame | ⟨arm, t, q, -, hn, -, rfl⟩⟩
  · cases hp
  · exact ho k (List.mem_of_getElem? hk) item (hsame.2.2.symm.trans hp)
  · cases hn <;> cases hp
    rfl

theorem sendStep_flow {k : Send} (ho : s.OneWayItems) (hk : s.sends[i]? = some k) (h : s.sendStep i k arm = some s') :
    Flow s (.send i arm) s' := by
  have hscope := sendStep_scope h
  have hother (hq : s'.queue = s.queue) : Flow s (.send i arm) s' := by
    refine .other rfl hq (.inl ?_) ?_ ?_ <;> rw [hscope]
  obtain ⟨t, q, hn, rfl⟩ := sendStep_next h
  cases hn
  case enqueue item hp _ =>
    refine .enter item ?_ (.inr ⟨k, List.mem_of_getElem? hk, hp⟩) rfl rfl rfl rfl rfl
    rw [ho k (List.mem_of_getElem? hk) item hp]
    exact nofun
  all_goals exact hother rfl

/-- **What a step does to the loops, the queue and the connection.** -/
theorem step_flow {label : Label} (ho : s.OneWayItems) (h : s.step label = some s') : Flow s label s' := by
  cases label with
  | request command body waitWindow => cases h; exact .other rfl rfl (.inl rfl) rfl rfl
  | call i arm => obtain ⟨k, hk, -, h⟩ := step_call h; exact callStep_flow hk h
  | task o =>
    have hscope := taskStep_scope h
    refine .other rfl ?_ (taskStep_rx h) ?_ ?_ <;> rw [hscope]
  | sendOneWay command body => cases h; exact .other rfl rfl (.inl rfl) rfl rfl
  | send i arm => obtain ⟨k, hk, h⟩ := step_send h; exact sendStep_flow ho hk h
  | frame frame =>
    have hnext := frame_next h
    obtain ⟨-, -, rfl⟩ := step_frame h
    refine .rx hnext ?_ ?_ <;> rw [processFrame_scope]
  | rx choice =>
    have hscope := rxStep_scope h
    refine .rx (rxStep_next h) ?_ ?_ <;> rw [hscope]
  | tx choice =>
    have hscope := txStep_scope h
    refine .tx ⟨choice, rfl⟩ (txStep_next h) ?_
    rw [hscope]
  | expire call =>
    obtain ⟨item, -, h⟩ := Option.bind_eq_some_iff.mp h
    cases h
    exact .other rfl rfl (.inl rfl) rfl rfl
  | fire =>
    have hscope := fire_scope h
    refine .other rfl ?_ (.inl ?_) ?_ ?_ <;> rw [hscope]
  | terminate cause =>
    cases h
    have hscope := s.terminate_eq cause
    refine .other rfl ?_ (.inl ?_) ?_ ?_ <;> rw [hscope]
  | term =>
    have hscope := termStep_scope h
    refine .other rfl ?_ (.inl ?_) ?_ ?_ <;> rw [hscope]

end Flow

/-! ## The items on their way -/

/-- The answer that the RX loop is about to queue. -/
def RxPhase.items : RxPhase → List TxItem
  | .queueing item _ => [item]
  | _ => []

/-- The items on their way to the commit, in the order of the commits. -/
def uncommitted (s : Session) : List TxItem := s.tx.uncommitted ++ s.queue ++ s.rx.items

def items (s : Session) : List TxItem := s.tx.unwritten ++ s.queue ++ s.rx.items

section Items
variable {s s' : Session} {label : Label} {pdu : DecodedPDU} {item : TxItem} {next : AfterQueue} {m : StateMachine}
  {queue : List TxItem} {status : CommandStatus}

theorem mem_uncommitted : item ∈ s.uncommitted ↔ item ∈ s.tx.uncommitted ++ s.queue ∨ item ∈ s.rx.items := List.mem_append

theorem RxNext.queue_eq {rx : RxPhase} (h : RxNext s label m queue rx) :
    queue = s.queue ∨ ∃ item next, s.rx = .queueing item next ∧ queue = s.queue ++ [item] ∧ rx = .reading := by
  cases h
  case enqueue item next hrx => exact .inr ⟨item, next, hrx, rfl, rfl⟩
  all_goals exact .inl rfl

theorem TxNext.mem_uncommitted {uncommitted unwritten : List TxItem} {wire : List Octets}
    (h : TxNext s m uncommitted unwritten wire) (hi : item ∈ uncommitted) : item ∈ s.tx.uncommitted ++ s.queue := by
  cases h with
  | keep => exact hi
  | drop htx =>
    rw [htx, TxPhase.uncommitted]
    rcases List.mem_append.mp hi with hi | hi
    · exact List.mem_append_left _ (List.mem_append_left _ hi)
    · exact List.mem_append_right _ hi
  | commit htx =>
    rw [htx, TxPhase.uncommitted]
    exact List.mem_cons_of_mem _ hi
  | write | fail => exact List.mem_append_right _ hi

theorem TxNext.mem_unwritten {uncommitted unwritten : List TxItem} {wire : List Octets}
    (h : TxNext s m uncommitted unwritten wire) (hi : item ∈ unwritten) : item ∈ s.tx.unwritten ++ s.queue := by
  cases h with
  | keep => exact hi
  | drop htx =>
    rw [htx, TxPhase.unwritten]
    rcases List.mem_append.mp hi with hi | hi
    · exact List.mem_append_left _ (List.mem_append_left _ hi)
    · exact List.mem_append_right _ hi
  | commit htx =>
    rw [htx]
    exact hi
  | write htx =>
    rw [htx, TxPhase.unwritten]
    exact List.mem_cons_of_mem _ hi
  | fail => exact List.mem_append_right _ hi

/-- An item on its way, as seen by a view of the TX loop, was on its way before, or the RX loop has just made it, or a
caller has just queued it. -/
theorem Flow.mem {f : TxPhase → List TxItem} (h : Flow s label s') (hi : item ∈ f s'.tx ++ s'.queue ++ s'.rx.items)
    (htx : TxNext s s'.machine (s'.tx.uncommitted ++ s'.queue) (s'.tx.unwritten ++ s'.queue) s'.wire →
      item ∈ f s'.tx ++ s'.queue → item ∈ f s.tx ++ s.queue) :
    item ∈ f s.tx ++ s.queue ++ s.rx.items ∨ (∃ next, s'.rx = .queueing item next ∧ RxNext s label s'.machine s'.queue s'.rx) ∨
    (item.kind ≠ .response ∧ s.Enters item) := by
  rw [List.mem_append] at hi ⊢
  cases h with
  | rx hnext hsame =>
    rcases hi with hi | hi
    · left
      rw [hsame] at hi
      rcases hnext.queue_eq with hq | ⟨item', next, hrx, hq, -⟩
      · exact .inl (hq ▸ hi)
      · rw [hq, ← List.append_assoc] at hi
        rcases List.mem_append.mp hi with hi | hi
        · exact .inl hi
        · exact .inr (by rw [hrx]; exact hi)
    · cases hrx : s'.rx with
      | queueing item' next =>
        rw [hrx, RxPhase.items, List.mem_singleton] at hi
        subst hi
        exact .inr (.inl ⟨next, rfl, hrx ▸ hnext⟩)
      | _ => rw [hrx] at hi; cases hi
  | tx _ hnext hrx => exact .inl (hi.imp (htx hnext) (hrx ▸ ·))
  | enter item' hkind hitem hqueue _ hrx hsame =>
    rw [hsame, hqueue, hrx, ← List.append_assoc, List.mem_append, or_right_comm] at hi
    rcases hi with hi | hi
    · exact .inl hi
    · rw [List.mem_singleton.mp hi]
      exact .inr (.inr ⟨hkind, hitem⟩)
  | other _ hqueue hrx hsame =>
    rw [hsame, hqueue] at hi
    refine .inl (hi.imp_right fun hi => ?_)
    rcases hrx with hrx | hrx
    · exact hrx ▸ hi
    · rw [hrx] at hi
      cases hi

theorem Flow.mem_uncommitted (h : Flow s label s') (hi : item ∈ s'.uncommitted) (hk : item.kind = .response) :
    item ∈ s.uncommitted ∨ ∃ next, s'.rx = .queueing item next ∧ RxNext s label s'.machine s'.queue s'.rx := by
  rcases h.mem (f := TxPhase.uncommitted) hi TxNext.mem_uncommitted with hi | hi | ⟨hne, -⟩
  · exact .inl hi
  · exact .inr hi
  · exact absurd hk hne

theorem failed_ne (after : AfterQueue) (err : Err) : after.failed err ≠ .queueing item next := by
  cases after <;> exact nofun

theorem AnswerNext.kind {pdu : DecodedPDU} {status : CommandStatus} {item : TxItem} {next : AfterQueue}
    (h : AnswerNext s pdu status (.queueing item next)) : item.kind = .response := by
  generalize hrx : RxPhase.queueing item next = rx at h
  cases h with
  | queue hq | nack hq => cases hrx; exact (queueResponse_ok hq).1
  | fail err => exact absurd hrx.symm (failed_ne _ err)

theorem RxNext.kind {m : StateMachine} {queue : List TxItem} {rx : RxPhase} {item : TxItem} {next : AfterQueue}
    (h : RxNext s label m queue rx) (hrx : rx = .queueing item next) : item.kind = .response := by
  cases h with
  | skip _ h => rcases h with rfl | ⟨err, rfl⟩ <;> cases hrx
  | nack _ _ _ hq | refuse _ _ _ hq => cases hrx; exact (queueResponse_ok hq).1
  | answer _ _ _ ha | handled _ _ ha | broke _ ha => subst hrx; exact ha.kind
  | withheld _ h => rcases h with ⟨rfl, -⟩ | ⟨err, rfl⟩ <;> cases hrx
  | close => exact absurd hrx (failed_ne _ _)
  | receive | unanswered | handle | ignore | enqueue | cancel | stop | resume => cases hrx

theorem AnswerNext.responseTo (h : AnswerNext s pdu status (.queueing item next)) :
    item.responseTo = 0 ∨ item.responseTo = pdu.header.commandID ∧ item.status = status := by
  generalize hrx : RxPhase.queueing item next = rx at h
  cases h with
  | queue hq =>
    cases hrx
    obtain ⟨-, -, -, hto, hst, -⟩ := queueResponse_ok hq
    rw [hto, hst]
    split
    · exact .inl rfl
    · exact .inr ⟨rfl, rfl⟩
  | nack hq =>
    cases hrx
    obtain ⟨-, -, -, hto, -⟩ := queueResponse_ok hq
    exact .inl (hto.trans (if_pos rfl))
  | fail err => exact absurd hrx.symm (failed_ne _ err)

/-- **Only the handler accepts a bind.** -/
theorem RxNext.accepts {rx : RxPhase} (h : RxNext s label m queue rx) (hrx : rx = .queueing item next)
    (hb : isBindRequest item.responseTo) (ho : CommandStatus.ok item.status) :
    ∃ pdu response, s.rx = .handling pdu ∧ label = .rx (.handled (.returned (.ok response))) ∧
      pdu.header.commandID = item.responseTo ∧ response.status = item.status := by
  have hzero : item.responseTo ≠ 0 := isBindRequest_ne_zero hb
  cases h with
  | skip _ h => rcases h with rfl | ⟨err, rfl⟩ <;> cases hrx
  | nack _ _ _ hq =>
    cases hrx
    exact absurd ((queueResponse_ok hq).2.2.2.1.trans (if_pos rfl)) hzero
  | refuse _ _ _ hq =>
    cases hrx
    rw [(queueResponse_ok hq).2.2.2.2.1] at ho
    cases ho
  | answer _ _ hresponse ha =>
    subst hrx
    obtain ⟨hto, hst⟩ := ha.responseTo.resolve_left hzero
    rw [hto] at hb
    rw [hst] at ho
    rcases hresponse with ⟨hc | hc, -⟩ | ⟨-, rfl⟩
    · rw [hc] at hb; cases hb
    · rw [hc] at hb; cases hb
    · rw [noHandlerResponse, if_pos hb] at ho
      cases ho
  | handled hs _ ha =>
    subst hrx
    obtain ⟨hto, hst⟩ := ha.responseTo.resolve_left hzero
    exact ⟨_, _, hs, rfl, hto.symm, hst.symm⟩
  | broke _ ha =>
    subst hrx
    rw [(ha.responseTo.resolve_left hzero).2] at ho
    cases ho
  | withheld _ h => rcases h with ⟨rfl, -⟩ | ⟨err, rfl⟩ <;> cases hrx
  | close => exact absurd hrx (failed_ne _ _)
  | receive | unanswered | handle | ignore | enqueue | cancel | stop | resume => cases hrx

end Items

end GoSmpp.Session
