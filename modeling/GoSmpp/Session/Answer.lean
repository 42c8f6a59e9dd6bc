import GoSmpp.Codec.Failures
import GoSmpp.Session.Effects

/-!
# The answer to a frame

What one call of `processFrame` puts into the TX queue, in runs of the RX loop alone (`RxOnly`) from the frame on.

* `frame_request`: a request is answered once, by its response or by a `generic_nack`, or the session ends, or nothing is
  to be answered: a one-way command, or a `deliver_sm` whose handler answers later or not at all.
* `frame_response`: a response is answered by nothing, but by a `generic_nack` if it is `Refused`.
* `frame_unknown_iff`: a request that is not registered is answered by a `generic_nack`, whose status depends on the mode of
  the registry.
-/

namespace GoSmpp.Session
open Lib Protocol Codec

/-- The steps of the RX loop, with a handler that comes to `outcome`. -/
abbrev RxOnly (outcome : Handled) (_ : Session) (label : Label) : Prop :=
  label = .rx .go ∨ label = .rx .done ∨ label = .rx (.handled outcome) ∨ label = .task .rx

/-! ## Answers -/

structure Answers (request : Header) (item : TxItem) : Prop where
  kind : item.kind = .response
  sequence : item.header.sequenceNumber = request.sequenceNumber
  command : item.header.commandID = responseID request.commandID ∨ item.header.commandID = commandGenericNACK
  frame : ∃ body, item.frame = frameOf item.header body

section Answers
variable {s : Session} {request : Header} {id : CommandID} {status : CommandStatus} {body : Value} {reserved : Bool}
  {item : TxItem} {next : AfterQueue} {pdu : DecodedPDU} {response : Response}

theorem encodeFrame_ok {registry : Registry} {header : Header} {frame : Octets}
    (h : encodeFrame registry header body = .ok frame) : encodePDU registry [] header body = .returned (frame, none) := by
  unfold encodeFrame at h
  split at h <;> cases h
  assumption

theorem queueResponse_ok (h : s.queueResponse request id status body reserved = .ok item) :
    item.kind = .response ∧ item.header = responseHeader request id status ∧ (∃ bs, item.frame = frameOf item.header bs) ∧
    item.responseTo = (if id = commandGenericNACK then 0 else request.commandID) ∧ item.status = status ∧
    item.reserved = reserved := by
  unfold Session.queueResponse at h
  simp only at h
  split at h
  · cases h
  · next hf =>
    cases h
    exact ⟨rfl, rfl, encodePDU_frame (encodeFrame_ok hf), rfl, rfl, rfl⟩

theorem queueResponse_answers (hid : id = responseID request.commandID ∨ id = commandGenericNACK)
    (h : s.queueResponse request id status body reserved = .ok item) : Answers request item := by
  obtain ⟨hk, hh, hf, -⟩ := queueResponse_ok h
  refine ⟨hk, ?_, ?_, hf⟩
  · rw [hh]; rfl
  · rw [hh]; exact hid

/-- The loop is about to queue an answer, or has failed. -/
def Answering (request : Header) : RxPhase → Prop
  | .queueing item _ => Answers request item
  | .failing _ | .cancelling _ _ => True
  | _ => False

theorem failed_answering (hn : next ≠ .ignore) (err : Err) : Answering request (next.failed err) := by
  cases next with
  | ignore => exact absurd rfl hn
  | fail => trivial
  | cancel => trivial

theorem respond_answering (hid : id = responseID request.commandID ∨ id = commandGenericNACK) (hn : next ≠ .ignore) :
    Answering request (s.respond request id status body reserved next) := by
  unfold Session.respond
  split
  · next h => exact queueResponse_answers hid h
  · exact failed_answering hn _

theorem refuse_answering : Answering request (s.refuse request) := by
  unfold Session.refuse
  split
  · exact respond_answering (.inr rfl) nofun
  · exact respond_answering (.inl rfl) nofun

theorem answer_answering : Answering pdu.header (s.answer pdu response).rx := by
  have hn : (if isLifecycleRequest pdu.header.commandID then AfterQueue.cancel pdu.header.commandID else .fail) ≠
      .ignore := by split <;> exact nofun
  unfold Session.answer
  simp only
  split
  · next h => exact queueResponse_answers (.inl rfl) h
  · split
    · exact respond_answering (.inr rfl) hn
    · exact failed_answering hn _

/-- The handler has chosen not to answer a `deliver_sm` now. -/
def Withheld (request : Header) (response : Response) : Prop :=
  request.commandID = commandDeliverSM ∧ (response.action = .suppress ∨ response.action = .deferred)

theorem dispatchResponse_rx :
    Answering pdu.header (s.dispatchResponse pdu response).rx ∨
    ((s.dispatchResponse pdu response).rx = .reading ∧ Withheld pdu.header response) := by
  unfold Session.dispatchResponse
  split
  · exact .inl answer_answering
  · split
    · exact .inl trivial
    · next hd =>
      have hd := not_not.mp hd
      split
      · next ha => exact .inr ⟨rfl, hd, .inl ha⟩
      · next ha =>
        split
        · exact .inr ⟨rfl, hd, .inr ha⟩
        · exact .inl trivial
      · exact .inl trivial

theorem dispatchResponse_immediate (h : response.action = .immediate) :
    Answering pdu.header (s.dispatchResponse pdu response).rx := by
  rcases @dispatchResponse_rx s pdu response with ha | ⟨-, -, hw⟩
  · exact ha
  · rw [h] at hw
    rcases hw with hw | hw <;> cases hw

end Answers

/-! ## Requests -/

/-- How far the loop is from the end of `processFrame`. -/
def RxPhase.distance : RxPhase → Nat
  | .reading | .failing _ => 0
  | .queueing _ _ | .cancelling _ _ => 1
  | .handling _ => 2
  | .beginning _ => 3
  | .terminating | .stopped => 4

/-- `processFrame` has returned, with an error if the loop is `failing`. -/
def RxPhase.Settled (p : RxPhase) : Prop := p.distance = 0

/-- What may go unanswered: a one-way command that the state check accepts, and a `deliver_sm` whose handler answers it
later or not at all. -/
def Unanswered (s : Session) (request : Header) (outcome : Handled) : Prop :=
  (isOneWayCommand request.commandID ∧ (s.beginInbound request.commandID).isOk) ∨
  ∃ response, outcome = .returned (.ok response) ∧ Withheld request response

/-- Where the RX loop can be, on its way from a request, before it has queued anything. -/
def Underway (s₀ : Session) (request : Header) (outcome : Handled) (s : Session) : Prop :=
  match s.rx with
  | .beginning pdu => pdu.header = request ∧ s.machine = s₀.machine
  | .handling pdu => pdu.header = request ∧ (isOneWayCommand request.commandID → (s₀.beginInbound request.commandID).isOk)
  | .queueing item _ => Answers request item
  | .cancelling _ _ | .failing _ | .stopped => True
  | .reading => Unanswered s₀ request outcome
  | .terminating => False

/-- What holds from a request on, in a session that had `s₀` before it, while only the RX loop runs. -/
structure InRequest (s₀ : Session) (request : Header) (outcome : Handled) (s : Session) : Prop where
  config : s.config = s₀.config
  idle : s.ledger.idle .rx
  done : s.termination.done = false
  queue : (s.queue = s₀.queue ∧ Underway s₀ request outcome s) ∨
    (∃ item, Answers request item ∧ s.queue = s₀.queue ++ [item] ∧ s.rx = .reading)

section Requests
variable {s₀ s s' : Session} {request header : Header} {outcome : Handled} {mode : RegistryMode}

theorem taskStep_idle {o : Owner} (h : s.ledger.idle o) : s.taskStep o = none := by
  rw [Ledger.idle, Option.isNone_iff_eq_none] at h
  unfold Session.taskStep Ledger.nextTask
  rw [h]
  rfl

def nackItem (request : Header) (status : CommandStatus) : TxItem where
  kind := .response
  header := responseHeader request commandGenericNACK status
  frame := frameOf (responseHeader request commandGenericNACK status) []
  sequence := request.sequenceNumber
  status := status

theorem queueResponse_nack (hr : s.config.registry.IsExtended mode) (status : CommandStatus) :
    s.queueResponse request commandGenericNACK status emptyBody false = .ok (nackItem request status) := by
  have henc : encodePDU s.config.registry [] (responseHeader request commandGenericNACK status) emptyBody =
      .returned (frameOf (responseHeader request commandGenericNACK status) [], none) := by
    refine (encodePDU_lib (hr.command rfl) rfl [] emptyBody _).mpr ⟨[], ?_, by decide, rfl⟩
    unfold Written
    split
    · exact ⟨⟨[], (), rfl⟩, List.forall_mem_nil _, rfl⟩
    · exact ⟨(), rfl⟩
  unfold Session.queueResponse encodeFrame
  simp only [henc]
  rfl

theorem nack_eq (hr : s.config.registry.IsExtended mode) (status : CommandStatus) (next : AfterQueue) :
    s.nack request status next = .queueing (nackItem request status) next := by
  unfold nack respond
  rw [queueResponse_nack hr]

theorem nackItem_answers (request : Header) (status : CommandStatus) : Answers request (nackItem request status) where
  kind := rfl
  sequence := rfl
  command := .inr rfl
  frame := ⟨[], rfl⟩

theorem Answering.underway (h : Answering request s.rx) : Underway s₀ request outcome s := by
  unfold Underway
  revert h
  cases s.rx <;> simp [Answering]

theorem beginInbound_congr (hc : s.config = s₀.config) (hm : s.machine = s₀.machine) (command : CommandID) :
    s.beginInbound command = s₀.beginInbound command := by
  unfold Session.beginInbound
  rw [hc, hm]

theorem beginRequest_rx (s : Session) (pdu : DecodedPDU) :
    Answering pdu.header (s.beginRequest pdu).rx ∨
    (isOneWayCommand pdu.header.commandID → (s.beginInbound pdu.header.commandID).isOk) ∧
      ((s.beginRequest pdu).rx = .handling pdu ∨
        (isOneWayCommand pdu.header.commandID ∧ (s.beginRequest pdu).rx = .reading)) := by
  unfold Session.beginRequest
  simp only
  cases s.beginInbound pdu.header.commandID with
  | error err => exact .inl refuse_answering
  | ok m =>
    simp only
    split
    · next hone =>
      refine .inr ⟨fun _ => rfl, ?_⟩
      cases s.config.handler
      · exact .inr ⟨hone, rfl⟩
      · exact .inl rfl
    · split
      · exact .inl (dispatchResponse_immediate rfl)
      · split
        · exact .inl (dispatchResponse_immediate rfl)
        · exact .inr ⟨fun _ => rfl, .inl rfl⟩

theorem handled_rx (s : Session) (pdu : DecodedPDU) (outcome : Handled) :
    Answering pdu.header (s.handled pdu outcome).rx ∨
    ((s.handled pdu outcome).rx = .reading ∧ (isOneWayCommand pdu.header.commandID ∨
      ∃ response, outcome = .returned (.ok response) ∧ Withheld pdu.header response)) := by
  unfold Session.handled
  split
  · next h => exact .inr ⟨rfl, .inl h⟩
  · split
    · next response =>
      rcases @dispatchResponse_rx s pdu response with ha | ⟨hrx, hw⟩
      · exact .inl ha
      · exact .inr ⟨hrx, .inr ⟨response, rfl, hw⟩⟩
    · exact .inl (dispatchResponse_immediate rfl)

theorem beginRequest_underway {pdu : DecodedPDU} (hc : s.config = s₀.config) (hm : s.machine = s₀.machine) :
    Underway s₀ pdu.header outcome (s.beginRequest pdu) := by
  rcases s.beginRequest_rx pdu with ha | ⟨hok, hrx⟩
  · exact ha.underway
  · rw [beginInbound_congr hc hm] at hok
    unfold Underway
    rcases hrx with hrx | ⟨hone, hrx⟩ <;> rw [hrx]
    · exact ⟨rfl, hok⟩
    · exact .inl ⟨hone, hok hone⟩

theorem handled_underway {pdu : DecodedPDU}
    (hone : isOneWayCommand pdu.header.commandID → (s₀.beginInbound pdu.header.commandID).isOk) :
    Underway s₀ pdu.header outcome (s.handled pdu outcome) := by
  rcases s.handled_rx pdu outcome with ha | ⟨hrx, h | h⟩
  · exact ha.underway
  · unfold Underway
    rw [hrx]
    exact .inl ⟨h, hone h⟩
  · unfold Underway
    rw [hrx]
    exact .inr h

theorem InRequest.queue_step (h : InRequest s₀ request outcome s) {choice : RxChoice}
    (hch : choice = .go ∨ choice = .done ∨ choice = .handled outcome) (hs : s.rxStep choice = some s') :
    (s'.queue = s₀.queue ∧ Underway s₀ request outcome s') ∨
    (∃ item, Answers request item ∧ s'.queue = s₀.queue ++ [item] ∧ s'.rx = .reading) := by
  obtain ⟨hq, hu⟩ | ⟨item, -, -, hrx⟩ := h.queue
  · unfold Underway at hu
    cases rxStep_move hs with
    | @begin pdu hrx =>
      rw [hrx] at hu
      obtain ⟨rfl, hm⟩ := hu
      refine .inl ⟨?_, beginRequest_underway h.config hm⟩
      rw [← hq]
      rcases s.beginRequest_cases pdu with ⟨err, -, he⟩ | ⟨m, -, he⟩ <;> rw [he]
    | @handle pdu hrx outcome' =>
      rw [hrx] at hu
      obtain ⟨rfl, hone⟩ := hu
      obtain rfl : outcome' = outcome := by
        rcases hch with hch | hch | hch <;> cases hch
        rfl
      refine .inl ⟨?_, handled_underway hone⟩
      rw [← hq, s.handled_local pdu outcome']
    | @enqueue item next hrx =>
      rw [hrx] at hu
      exact .inr ⟨item, hu, by rw [← hq], rfl⟩
    | closed _ hdone =>
      rw [h.done] at hdone
      cases hdone
    | cancel => exact .inl ⟨hq, trivial⟩
    | fail =>
      refine .inl ⟨?_, trivial⟩
      rw [terminate_eq]
      exact hq
    | resume hrx => rw [hrx] at hu; cases hu
  · cases rxStep_move hs with
    | begin hrx' | handle hrx' | enqueue hrx' | closed hrx' | cancel hrx' | fail hrx' | resume hrx' =>
      rw [hrx] at hrx'
      cases hrx'

/-- The step lemma. -/
theorem InRequest.step {label : Label} (h : InRequest s₀ request outcome s) (hok : RxOnly outcome s label)
    (hs : s.step label = some s') : InRequest s₀ request outcome s' := by
  have hrx {choice : RxChoice} (hch : choice = .go ∨ choice = .done ∨ choice = .handled outcome)
      (hs : s.rxStep choice = some s') : InRequest s₀ request outcome s' := by
    have hscope := rxStep_scope hs
    refine ⟨?_, ?_, ?_, h.queue_step hch hs⟩
    · rw [hscope]; exact h.config
    · rw [hscope]; exact h.idle
    · rcases rxStep_termination hs with ht | ⟨-, ht⟩ <;> rw [ht]
      · exact h.done
      · rfl
  rcases hok with rfl | rfl | rfl | rfl
  · exact hrx (.inl rfl) hs
  · exact hrx (.inr (.inl rfl)) hs
  · exact hrx (.inr (.inr rfl)) hs
  · rw [show s.step (.task .rx) = s.taskStep .rx from rfl, taskStep_idle h.idle] at hs
    cases hs

theorem Answering.distance {p : RxPhase} (h : Answering request p) : p.distance ≤ 1 := by
  revert h
  cases p <;> simp [Answering, RxPhase.distance]

theorem rxStep_queueing {item : TxItem} {next : AfterQueue} (hrx : s.rx = .queueing item next)
    (hroom : s.queue.length < s.config.txQueueSize) :
    s.rxStep .go = some { s with queue := s.queue ++ [item], rx := .reading } := by
  simp only [rxStep, hrx, enqueue, hroom, if_true, Option.map_some]

theorem InRequest.progress (h : InRequest s₀ request outcome s) (hroom : s₀.queue.length < s₀.config.txQueueSize)
    (hpos : 0 < s.rx.distance) (hle : s.rx.distance ≤ 3) :
    ∃ label s', RxOnly outcome s label ∧ s.step label = some s' ∧ s'.rx.distance < s.rx.distance := by
  cases hrx : s.rx with
  | reading => rw [hrx] at hpos; cases hpos
  | failing err => rw [hrx] at hpos; cases hpos
  | terminating => rw [hrx] at hle; exact absurd hle (by decide)
  | stopped => rw [hrx] at hle; exact absurd hle (by decide)
  | beginning pdu =>
    refine ⟨.rx .go, s.beginRequest pdu, .inl rfl, ?_, ?_⟩
    · show s.rxStep .go = _
      simp only [rxStep, hrx]
    · rcases s.beginRequest_rx pdu with ha | ⟨-, hr | ⟨-, hr⟩⟩
      · exact Nat.lt_of_le_of_lt ha.distance (show 1 < 3 by omega)
      · rw [hr]; exact (show 2 < 3 by omega)
      · rw [hr]; exact (show 0 < 3 by omega)
  | handling pdu =>
    refine ⟨.rx (.handled outcome), s.handled pdu outcome, .inr (.inr (.inl rfl)), ?_, ?_⟩
    · show s.rxStep (.handled outcome) = _
      simp only [rxStep, hrx]
    · rcases s.handled_rx pdu outcome with ha | ⟨hr, -⟩
      · exact Nat.lt_of_le_of_lt ha.distance (show 1 < 2 by omega)
      · rw [hr]; exact (show 0 < 2 by omega)
  | queueing item next =>
    have hq : s.queue.length < s.config.txQueueSize := by
      obtain ⟨hq, -⟩ | ⟨item, -, -, hr⟩ := h.queue
      · rw [hq, h.config]; exact hroom
      · rw [hr] at hrx; cases hrx
    exact ⟨.rx .go, _, .inl rfl, rxStep_queueing hrx hq, Nat.zero_lt_one⟩
  | cancelling command err =>
    refine ⟨.rx .go, { s with machine := s.machine.cancelInbound command, rx := .failing err }, .inl rfl, ?_,
      Nat.zero_lt_one⟩
    show s.rxStep .go = _
    simp only [rxStep, hrx]

theorem processFrame_request (s : Session) {frame : Octets} (hr : s.config.registry.IsExtended mode)
    (hf : DelimitedAs frame header) (hq : isResponse header.commandID = false) :
    (s.processFrame frame).ledger = s.ledger ∧
    (Answering header (s.processFrame frame).rx ∨ ∃ pdu, (s.processFrame frame).rx = .beginning pdu ∧ pdu.header = header) := by
  have hnack {status : CommandStatus} {next : AfterQueue} : Answering header (s.nack header status next) := by
    rw [nack_eq hr]
    exact nackItem_answers header status
  unfold processFrame
  rw [decodePDU_delimited hf]
  cases hb : decodeBodyBytes s.config.registry header (frame.drop headerSize) with
  | error err =>
    simp only [Except.map]
    split
    · exact ⟨rfl, .inl trivial⟩
    · rw [hf.1]
      exact ⟨rfl, .inl hnack⟩
  | ok body =>
    simp only [Except.map, hq, Bool.false_eq_true, if_false]
    refine ⟨trivial, ?_⟩
    unfold checkRequest
    split
    · exact .inl hnack
    · split
      · exact .inl hnack
      · split
        · exact .inl hnack
        · exact .inr ⟨_, rfl, rfl⟩

theorem inRequest_frame {frame : Octets} (hr : s.config.registry.IsExtended mode) (hd : s.termination.done = false)
    (hf : DelimitedAs frame header) (hq : isResponse header.commandID = false) (h : s.step (.frame frame) = some s') :
    InRequest s header outcome s' ∧ s'.rx.distance ≤ 3 := by
  obtain ⟨-, hidle, rfl⟩ := step_frame h
  obtain ⟨hl, hrx⟩ := s.processFrame_request hr hf hq
  have hscope := s.processFrame_scope frame
  have hu : Underway s header outcome (s.processFrame frame) ∧ (s.processFrame frame).rx.distance ≤ 3 := by
    rcases hrx with ha | ⟨pdu, hp, hh⟩
    · exact ⟨ha.underway, Nat.le_trans ha.distance (by decide)⟩
    · unfold Underway
      rw [hp]
      exact ⟨⟨hh, by rw [hscope]⟩, Nat.le_refl 3⟩
  refine ⟨⟨by rw [hscope], ?_, by rw [hscope]; exact hd, .inl ⟨by rw [hscope], hu.1⟩⟩, hu.2⟩
  rw [hl]
  exact hidle

/-- **Every request gets one answer.** In a session that has not ended and has room in its TX queue, the call of
`processFrame` returns. Then it has queued one answer to the request and nothing else; or it has queued nothing, and its
error ends the session or the request goes unanswered by right. -/
theorem frame_request {frame : Octets} (hr : s.config.registry.IsExtended mode) (hd : s.termination.done = false)
    (hroom : s.queue.length < s.config.txQueueSize) (hf : DelimitedAs frame header)
    (hq : isResponse header.commandID = false) (outcome : Handled) {s₁ : Session} (h : s.step (.frame frame) = some s₁) :
    (∃ s', sessions.Run (RxOnly outcome) s₁ s' ∧ s'.rx.Settled) ∧
    ∀ s', sessions.Run (RxOnly outcome) s₁ s' → s'.rx.Settled →
      (s'.rx = .reading ∧ ∃ item, Answers header item ∧ s'.queue = s.queue ++ [item]) ∨
      (s'.rx = .reading ∧ s'.queue = s.queue ∧ Unanswered s header outcome) ∨
      (s'.queue = s.queue ∧ ∃ err s'', s'.rx = .failing err ∧ s'.step (.rx .go) = some s'' ∧
        s'' = { s'.terminate err with rx := .stopped } ∧ s''.termination ≠ .running) := by
  obtain ⟨hin, hle⟩ : InRequest s header outcome s₁ ∧ s₁.rx.distance ≤ 3 := inRequest_frame hr hd hf hq h
  refine ⟨?_, fun s' hrun hset => ?_⟩
  · refine System.Run.exists_of_rank (P := fun t => InRequest s header outcome t ∧ t.rx.distance ≤ 3)
      (fun t => t.rx.distance) ?_ ⟨hin, hle⟩
    rintro t ⟨ht, hle⟩ hpos
    obtain ⟨label, t', hok, hst, hlt⟩ := ht.progress hroom hpos hle
    exact ⟨label, t', hok, hst, ⟨ht.step hok hst, by omega⟩, hlt⟩
  · have hin' : InRequest s header outcome s' := by
      refine hrun.invariant (P := InRequest s header outcome) ?_ hin
      exact fun t label t' hok hst ht => ht.step hok hst
    obtain ⟨hqueue, hu⟩ | ⟨item, ha, hqueue, hrx⟩ := hin'.queue
    · unfold Underway at hu
      unfold RxPhase.Settled at hset
      cases hrx : s'.rx with
      | reading => rw [hrx] at hu; exact .inr (.inl ⟨rfl, hqueue, hu⟩)
      | failing err =>
        refine .inr (.inr ⟨hqueue, err, _, rfl, ?_, rfl, ?_⟩)
        · show s'.rxStep .go = _
          simp only [rxStep, hrx]
        · show (s'.terminate err).termination ≠ .running
          unfold Session.terminate
          split
          · exact nofun
          · assumption
      | beginning => rw [hrx] at hset; cases hset
      | handling => rw [hrx] at hset; cases hset
      | queueing => rw [hrx] at hset; cases hset
      | cancelling => rw [hrx] at hset; cases hset
      | terminating => rw [hrx] at hset; cases hset
      | stopped => rw [hrx] at hset; cases hset
    · exact .inl ⟨hrx, item, ha, hqueue⟩

theorem isExtended_smpp34Registry (mode : RegistryMode) : (smpp34Registry mode).IsExtended mode :=
  .smpp34 (newSMPP34RegistryBuilder_ok mode) .refl

/-- An `enquire_link` with sequence number 1. -/
def enquireLink : Octets := [0, 0, 0, 16, 0, 0, 0, 0x15, 0, 0, 0, 0, 0, 0, 0, 1]

/-- An SMSC that is not bound refuses an `enquire_link`, by one response. -/
theorem frame_request_enquireLink : ∃ s₁ s', (new {} .smsc).step (.frame enquireLink) = some s₁ ∧
    sessions.Run (RxOnly (.panicked (.value ""))) s₁ s' ∧
    ∃ header item, DelimitedAs enquireLink header ∧ Answers header item ∧ s'.queue = [item] := by
  have h : (new {} .smsc).step (.frame enquireLink) = some ((new {} .smsc).processFrame enquireLink) := rfl
  have hf : DelimitedAs enquireLink ⟨16, commandEnquireLink, 0, 1⟩ := ⟨rfl, rfl⟩
  have hrun := System.run_after sessions (RxOnly (.panicked (.value ""))) ((new {} .smsc).processFrame enquireLink)
    [.rx .go, .rx .go] (by decide +kernel)
  have hall := (frame_request (isExtended_smpp34Registry .compatible) rfl (by decide) hf rfl (.panicked (.value "")) h).2
  have hrx : (sessions.after (RxOnly (.panicked (.value ""))) ((new {} .smsc).processFrame enquireLink)
    [.rx .go, .rx .go]).rx = .reading := by decide +kernel
  have hqueue : (sessions.after (RxOnly (.panicked (.value ""))) ((new {} .smsc).processFrame enquireLink)
    [.rx .go, .rx .go]).queue ≠ [] := by decide +kernel
  generalize sessions.after (RxOnly (.panicked (.value ""))) ((new {} .smsc).processFrame enquireLink)
    [.rx .go, .rx .go] = s' at *
  rcases hall s' hrun (by rw [hrx]; rfl) with ⟨-, item, ha, hi⟩ | ⟨-, he, -⟩ | ⟨he, -⟩
  · exact ⟨_, s', h, hrun, _, item, hf, ha, hi⟩
  · exact absurd he hqueue
  · exact absurd he hqueue

end Requests

/-! ## Responses -/

/-- Nothing of a frame is left to be answered. -/
def RxPhase.quiet : RxPhase → Bool
  | .reading | .failing _ | .terminating | .stopped => true
  | _ => false

section Responses
variable {s₀ s s' : Session} {header : Header} {frame : Octets} {outcome : Handled} {item : TxItem}

theorem taskStep_rx {o : Owner} (h : s.taskStep o = some s') : s'.rx = s.rx ∨ s'.rx = .terminating := by
  obtain ⟨t, l, k, -, -, hm⟩ := taskStep_move h
  cases hm with
  | close => exact .inr rfl
  | _ => exact .inl rfl

theorem quiet_rxStep {choice : RxChoice} (hq : s.rx.quiet) (h : s.rxStep choice = some s') :
    s'.rx.quiet ∧ s'.queue = s.queue := by
  cases rxStep_move h with
  | begin hrx | handle hrx | enqueue hrx | closed hrx | cancel hrx => rw [hrx] at hq; cases hq
  | fail => exact ⟨rfl, by rw [terminate_eq]⟩
  | resume => exact ⟨rfl, rfl⟩

theorem quiet_step {label : Label} (hok : RxOnly outcome s label) (h : s.step label = some s') (hq : s.rx.quiet) :
    s'.rx.quiet ∧ s'.queue = s.queue := by
  rcases hok with rfl | rfl | rfl | rfl
  · exact quiet_rxStep hq h
  · exact quiet_rxStep hq h
  · exact quiet_rxStep hq h
  · have hscope := taskStep_scope h
    refine ⟨?_, by rw [hscope]⟩
    rcases taskStep_rx h with hr | hr <;> rw [hr]
    · exact hq
    · rfl

/-- The reply to a frame that has taken the session from `s` to `s₁`: the loop is about to queue it, and queues it and
nothing else, unless the session ends first. -/
structure Replies (outcome : Handled) (s s₁ : Session) (item : TxItem) : Prop where
  select : ∃ next, s₁.rx = .queueing item next
  only : ∀ s', sessions.Run (RxOnly outcome) s₁ s' → s'.queue = s.queue ∨ s'.queue = s.queue ++ [item]
  queued : s.queue.length < s.config.txQueueSize →
    ∃ s', sessions.Run (RxOnly outcome) s₁ s' ∧ s'.rx = .reading ∧ s'.queue = s.queue ++ [item]

theorem queueing_rxStep {next : AfterQueue} (hnext : ∀ err, (next.failed err).quiet) (hrx : s.rx = .queueing item next)
    {choice : RxChoice} (h : s.rxStep choice = some s') :
    s'.rx.quiet ∧ (s'.queue = s.queue ∨ s'.queue = s.queue ++ [item]) := by
  cases rxStep_move h with
  | enqueue hrx' =>
    rw [hrx] at hrx'
    cases hrx'
    exact ⟨rfl, .inr rfl⟩
  | closed hrx' =>
    rw [hrx] at hrx'
    cases hrx'
    exact ⟨hnext _, .inl rfl⟩
  | begin hrx' | handle hrx' | cancel hrx' | fail hrx' | resume hrx' => rw [hrx] at hrx'; cases hrx'

theorem replies_of_queueing {s₁ : Session} {next : AfterQueue} (hnext : ∀ err, (next.failed err).quiet)
    (hrx : s₁.rx = .queueing item next) (hidle : s₁.ledger.idle .rx) (hqueue : s₁.queue = s.queue)
    (hconfig : s₁.config = s.config) : Replies outcome s s₁ item where
  select := ⟨next, hrx⟩
  only s' hrun := by
    -- the item waits for the queue, or the loop is done with the frame
    have hinv : (s'.rx = .queueing item next ∧ s'.ledger.idle .rx ∧ s'.queue = s.queue) ∨
        (s'.rx.quiet ∧ (s'.queue = s.queue ∨ s'.queue = s.queue ++ [item])) := by
      refine hrun.invariant (P := fun t => (t.rx = .queueing item next ∧ t.ledger.idle .rx ∧ t.queue = s.queue) ∨
        (t.rx.quiet ∧ (t.queue = s.queue ∨ t.queue = s.queue ++ [item]))) ?_ (.inl ⟨hrx, hidle, hqueue⟩)
      rintro t label t' hok hst (⟨hrx, hidle, hqueue⟩ | ⟨hquiet, hqueue⟩)
      · rw [← hqueue]
        rcases hok with rfl | rfl | rfl | rfl
        · exact .inr (queueing_rxStep hnext hrx hst)
        · exact .inr (queueing_rxStep hnext hrx hst)
        · exact .inr (queueing_rxStep hnext hrx hst)
        · have hst : t.taskStep .rx = some t' := hst
          rw [taskStep_idle hidle] at hst
          cases hst
      · obtain ⟨hquiet', hsame⟩ := quiet_step hok hst hquiet
        exact .inr ⟨hquiet', hsame ▸ hqueue⟩
    rcases hinv with ⟨-, -, hq⟩ | ⟨-, hq⟩
    · exact .inl hq
    · exact hq
  queued hroom := by
    have hroom' : s₁.queue.length < s₁.config.txQueueSize := by rw [hqueue, hconfig]; exact hroom
    exact ⟨_, .tail (.refl _) (.inl rfl) (rxStep_queueing hrx hroom'), rfl, by rw [← hqueue]⟩

theorem isExtended_of_isStandard {r : Registry} (h : r.IsStandard) : ∃ mode, r.IsExtended mode := by
  cases h with
  | smpp34 mode h =>
    rw [newSMPP34Registry_ok] at h
    cases h
    exact ⟨mode, .smpp34 (newSMPP34RegistryBuilder_ok mode) .refl⟩
  | smpp50 mode h =>
    rw [newSMPP50Registry_ok] at h
    cases h
    exact ⟨mode, .smpp50 (newSMPP50RegistryBuilder_ok mode) .refl⟩

theorem processFrame_response (s : Session) (hr : s.config.registry.IsStandard) (hf : DelimitedAs frame header)
    (hq : isResponse header.commandID) (hrx : s.rx = .reading) :
    (Refused s.config.registry header (frame.drop headerSize) → (s.processFrame frame).ledger = s.ledger ∧
      ∃ item, (s.processFrame frame).rx = .queueing item .ignore ∧ Answers header item ∧
        item.header.commandID = commandGenericNACK) ∧
    (¬ Refused s.config.registry header (frame.drop headerSize) → (s.processFrame frame).rx.quiet) := by
  obtain ⟨mode, hext⟩ := isExtended_of_isStandard hr
  rw [← decodeBodyBytes_response hr hq]
  unfold processFrame
  rw [decodePDU_delimited hf]
  cases hb : decodeBodyBytes s.config.registry header (frame.drop headerSize) with
  | error err =>
    simp only [Except.map, Except.error.injEq, exists_eq_left', not_not]
    split
    · next hfatal =>
      refine ⟨fun hnot => absurd hfatal hnot, fun _ => rfl⟩
    · next hnot =>
      rw [hf.1]
      refine ⟨fun _ => ⟨rfl, _, nack_eq hext _ _, nackItem_answers _ _, rfl⟩, fun hfatal => absurd hfatal hnot⟩
  | ok body =>
    simp only [Except.map, hq, if_true, reduceCtorEq, false_and, exists_false, false_implies, true_and, not_false_eq_true,
      true_implies]
    split
    · show RxPhase.quiet s.rx
      rw [hrx]
      rfl
    · rw [hrx]
      rfl

/-- **What answers a response.** Nothing does, unless it is refused: then the loop is about to queue one `generic_nack`
that carries its sequence number, and queues nothing else. -/
theorem frame_response (hr : s.config.registry.IsStandard) (hf : DelimitedAs frame header) (hq : isResponse header.commandID)
    (outcome : Handled) {s₁ : Session} (h : s.step (.frame frame) = some s₁) :
    (¬ Refused s.config.registry header (frame.drop headerSize) →
      ∀ s', sessions.Run (RxOnly outcome) s₁ s' → s'.queue = s.queue) ∧
    (Refused s.config.registry header (frame.drop headerSize) → s₁.ledger = s.ledger ∧
      ∃ item, Answers header item ∧ item.header.commandID = commandGenericNACK ∧
        (∀ s', sessions.Run (RxOnly outcome) s₁ s' → s'.queue = s.queue ∨ s'.queue = s.queue ++ [item]) ∧
        (s.queue.length < s.config.txQueueSize →
          ∃ s', sessions.Run (RxOnly outcome) s₁ s' ∧ s'.rx = .reading ∧ s'.queue = s.queue ++ [item])) := by
  obtain ⟨hrx, hidle, rfl⟩ := step_frame h
  obtain ⟨hrefused, hquiet⟩ := s.processFrame_response hr hf hq hrx
  have hscope := s.processFrame_scope frame
  have hqueue : (s.processFrame frame).queue = s.queue := by rw [hscope]
  refine ⟨fun hnot s' hrun => ?_, fun href => ?_⟩
  · refine (hrun.invariant (P := fun t => t.rx.quiet ∧ t.queue = s.queue) ?_ ⟨hquiet hnot, hqueue⟩).2
    rintro t label t' hok hst ⟨hq, ht⟩
    obtain ⟨hq', ht'⟩ := quiet_step hok hst hq
    exact ⟨hq', ht'.trans ht⟩
  · obtain ⟨hl, item, hi, ha, hid⟩ := hrefused href
    have hreplies : Replies outcome s (s.processFrame frame) item :=
      replies_of_queueing (fun _ => rfl) hi (hl ▸ hidle) hqueue (by rw [hscope])
    exact ⟨hl, item, ha, hid, hreplies.only, hreplies.queued⟩

/-- A response with the command_id 0x80000099 and sequence number 7. -/
def unknownResponse : Octets := [0, 0, 0, 16, 0x80, 0, 0, 0x99, 0, 0, 0, 0, 0, 0, 0, 7]

def strictEsme : Session := new { registry := smpp34Registry .strict } .esme

/-- A strict registry answers an unknown response. -/
theorem unknownResponse_nacked : strictEsme.config.registry.IsStandard ∧
    DelimitedAs unknownResponse ⟨16, 0x80000099, 0, 7⟩ ∧ isResponse 0x80000099 ∧
    ∃ s', sessions.Run (RxOnly (.panicked (.value ""))) (strictEsme.processFrame unknownResponse) s' ∧
      strictEsme.step (.frame unknownResponse) = some (strictEsme.processFrame unknownResponse) ∧ strictEsme.queue = [] ∧
      s'.queue.map (fun item => (item.header.commandID, item.header.sequenceNumber)) = [(commandGenericNACK, 7)] :=
  ⟨.smpp34 .strict (newSMPP34Registry_ok .strict), ⟨rfl, rfl⟩, rfl, _,
    System.run_after sessions (RxOnly (.panicked (.value ""))) (strictEsme.processFrame unknownResponse) [.rx .go]
      (by decide +kernel), rfl, rfl, rfl⟩

/-- The response to an `enquire_link` with sequence number 1. -/
def enquireLinkResp : Octets := [0, 0, 0, 16, 0x80, 0, 0, 0x15, 0, 0, 0, 0, 0, 0, 0, 1]

/-- The response to an `enquire_link` is not answered; an unknown response is, in strict mode. -/
theorem frame_response_enquireLinkResp :
    (∀ s', sessions.Run (RxOnly (.panicked (.value ""))) ((new {} .esme).processFrame enquireLinkResp) s' →
      s'.queue = []) ∧
    ∃ s' item, sessions.Run (RxOnly (.panicked (.value ""))) (strictEsme.processFrame unknownResponse) s' ∧
      s'.queue = [item] ∧ item.header.commandID = commandGenericNACK := by
  constructor
  · refine (frame_response (.smpp34 .compatible (newSMPP34Registry_ok .compatible))
      (show DelimitedAs enquireLinkResp ⟨16, commandEnquireLinkResp, 0, 1⟩ from ⟨rfl, rfl⟩) rfl (.panicked (.value ""))
      (show (new {} .esme).step (.frame enquireLinkResp) = some ((new {} .esme).processFrame enquireLinkResp) from rfl)).1 ?_
    rintro (⟨hm, -⟩ | ⟨hid, -⟩)
    · cases hm
    · revert hid
      decide
  · obtain ⟨-, item, -, hid, -, hrun⟩ := (frame_response (.smpp34 .strict (newSMPP34Registry_ok .strict))
      (show DelimitedAs unknownResponse ⟨16, 0x80000099, 0, 7⟩ from ⟨rfl, rfl⟩) rfl (.panicked (.value ""))
      (show strictEsme.step (.frame unknownResponse) = some (strictEsme.processFrame unknownResponse) from rfl)).2
      (.inl ⟨rfl, rfl⟩)
    obtain ⟨s', hrun, -, hq⟩ := hrun (by decide)
    exact ⟨s', item, hrun, hq, hid⟩

end Responses

/-! ## Unknown requests -/

section Unknown
variable {s : Session} {header : Header} {frame : Octets} {mode : RegistryMode}

theorem decodeBodyBytes_unknown {r : Registry} (hr : r.command header.commandID = none) (body : Octets) :
    decodeBodyBytes r header body =
      if r.mode = .strict then .error (.wrapped (hex32 header.commandID) (.sentinel .unknownCommand)) else .ok (.raw body) := by
  unfold decodeBodyBytes Registry.resolveCommand
  rw [hr]
  by_cases hm : r.mode = .strict
  · rw [if_pos hm]
    simp only [hm, if_true]
    rfl
  · rw [if_neg hm]
    simp only [hm, if_false]
    rfl

/-- The point the loop comes to with an unknown request. -/
def unknownReply (header : Header) : RegistryMode → RxPhase
  | .strict => .queueing (nackItem header statusInvalidMessageLength) .ignore
  | .compatible => .queueing (nackItem header statusInvalidCommandID) .fail

/-- Where `processFrame` takes an unknown request: a strict registry does not decode it, and a compatible one decodes it and
finds no definition. -/
theorem processFrame_unknown (hr : s.config.registry.IsExtended mode) (hf : DelimitedAs frame header)
    (hq : isResponse header.commandID = false) (hunknown : s.config.registry.command header.commandID = none)
    (hz : header.sequenceNumber ≠ 0) :
    s.processFrame frame = { s with rx := unknownReply header mode } := by
  have hvalid : validInbound header.sequenceNumber := by
    have hne : header.sequenceNumber.toNat ≠ 0 := fun h => hz (UInt32.toNat_inj.mp h)
    have hlt := header.sequenceNumber.toNat_lt
    simp only [validInbound, Bool.and_eq_true, decide_eq_true_eq, UInt32.le_iff_toNat_le]
    exact ⟨Nat.one_le_iff_ne_zero.mpr hne, Nat.le_of_lt_succ hlt⟩
  unfold processFrame
  rw [decodePDU_delimited hf, decodeBodyBytes_unknown hunknown, hr.commands.1]
  cases mode with
  | strict =>
    simp only [if_true, Except.map, hf.1]
    rw [if_neg (by simp [Err.asFatal]), nack_eq hr]
    rfl
  | compatible =>
    simp only [reduceCtorEq, if_false, Except.map, hq, Bool.false_eq_true]
    unfold checkRequest
    simp only [hvalid, hunknown, nack_eq hr]
    rfl

/-- **Unknown requests.** A session answers a request that is not registered by a `generic_nack` that carries its sequence
number. The status is ESME_RINVCMDID if and only if the registry is a compatible one; a strict one has ESME_RINVMSGLEN. -/
theorem frame_unknown_iff (hr : s.config.registry.IsExtended mode) (hf : DelimitedAs frame header)
    (hq : isResponse header.commandID = false) (hunknown : s.config.registry.command header.commandID = none)
    (hz : header.sequenceNumber ≠ 0) (outcome : Handled) {s₁ : Session} (h : s.step (.frame frame) = some s₁) :
    (Replies outcome s s₁ (nackItem header statusInvalidCommandID) ↔ mode = .compatible) ∧
    (mode = .strict → Replies outcome s s₁ (nackItem header statusInvalidMessageLength)) := by
  obtain ⟨-, hidle, rfl⟩ := step_frame h
  rw [processFrame_unknown hr hf hq hunknown hz]
  cases mode with
  | strict =>
    refine ⟨⟨?_, nofun⟩, fun _ => replies_of_queueing (fun _ => rfl) rfl hidle rfl rfl⟩
    rintro ⟨⟨next, hrx⟩, -, -⟩
    cases congrArg (fun item => item.status) (RxPhase.queueing.inj hrx).1
  | compatible => exact ⟨⟨fun _ => rfl, fun _ => replies_of_queueing (fun _ => rfl) rfl hidle rfl rfl⟩, nofun⟩

/-- A request with the command_id 0x99 and sequence number 7. -/
def unknownRequest : Octets := [0, 0, 0, 16, 0, 0, 0, 0x99, 0, 0, 0, 0, 0, 0, 0, 7]

theorem frame_unknown_iff_unknownRequest :
    ∃ s₁, (new {} .esme).step (.frame unknownRequest) = some s₁ ∧
      Replies (.panicked (.value "")) (new {} .esme) s₁ (nackItem ⟨16, 0x99, 0, 7⟩ statusInvalidCommandID) :=
  ⟨_, rfl, (frame_unknown_iff (isExtended_smpp34Registry .compatible)
    (show DelimitedAs unknownRequest ⟨16, 0x99, 0, 7⟩ from ⟨rfl, rfl⟩) rfl (by decide) (by decide) _ rfl).1.mpr rfl⟩

/-- Two sessions that differ in the mode of their registries answer an unknown request with different statuses. -/
theorem unknownRequest_replies_differ : ∃ s₁ s₂, strictEsme.step (.frame unknownRequest) = some s₁ ∧
    (new {} .esme).step (.frame unknownRequest) = some s₂ ∧
    s₁.rx = .queueing (nackItem ⟨16, 0x99, 0, 7⟩ statusInvalidMessageLength) .ignore ∧
    s₂.rx = .queueing (nackItem ⟨16, 0x99, 0, 7⟩ statusInvalidCommandID) .fail :=
  ⟨_, _, rfl, rfl, by decide +kernel, by decide +kernel⟩

end Unknown

end GoSmpp.Session
