import GoSmpp.Session.Step

/-!
# The moves of the goroutines

Every branch of a step function, with its guard and the session after it:

* `CallNext`, `SendNext`: the calls of `Session.request` and of `SendOneWay` (`callStep_next`, `sendStep_next`);
* `TaskMove`: the completion of a request (`taskStep_move`);
* `RxMove`, `TxMove`: the loops (`rxStep_move`, `txStep_move`);
* `FireMove`, `TermMove`: the deadline loop and `terminate` (`fire_move`, `termStep_move`).
-/

namespace GoSmpp.Session
open Lib Protocol Codec

/-! ## The pending table and the completion of a request -/

namespace Ledger
variable {l l' : Ledger}

/-- The request of the call `i` is in the table. -/
def inserted (l : Ledger) (sequence : SequenceNumber) (i : Nat) : Ledger :=
  { l with
    pending := (sequence, i) :: l.pending
    calls := l.calls.modify i fun k => { k with inserted := k.inserted + 1 } }

@[simp] theorem inserted_calls (l : Ledger) (sequence : SequenceNumber) (i : Nat) :
    (l.inserted sequence i).calls = l.calls.modify i fun k => { k with inserted := k.inserted + 1 } := rfl

theorem insert_cases (l : Ledger) (max : Nat) (sequence : SequenceNumber) (i : Nat) :
    (l.pending.length < max ∧ l.pending.lookup sequence = none ∧ l.insert max sequence i = .ok (l.inserted sequence i)) ∨
    (∃ j, l.pending.length < max ∧ l.pending.lookup sequence = some j ∧
      l.insert max sequence i = .error .sequenceInUse) ∨
    (max ≤ l.pending.length ∧ l.insert max sequence i = .error .pendingLimit) := by
  unfold Ledger.insert
  by_cases hmax : max ≤ l.pending.length
  · exact .inr (.inr ⟨hmax, if_pos hmax⟩)
  · rw [if_neg hmax]
    have hlt := Nat.not_le.mp hmax
    cases hl : l.pending.lookup sequence with
    | none => exact .inl ⟨hlt, rfl, rfl⟩
    | some j => exact .inr (.inl ⟨j, hlt, rfl, rfl⟩)

theorem insert_inserted {max : Nat} {sequence : SequenceNumber} (i : Nat) (hroom : l.pending.length < max)
    (hnone : l.pending.lookup sequence = none) : l.insert max sequence i = .ok (l.inserted sequence i) := by
  rw [Ledger.insert, if_neg (Nat.not_le.mpr hroom), hnone]
  rfl

theorem insert_ok {max : Nat} {sequence : SequenceNumber} {i : Nat} (h : l.insert max sequence i = .ok l') :
    l.pending.length < max ∧ l.pending.lookup sequence = none ∧ l' = l.inserted sequence i := by
  rcases l.insert_cases max sequence i with ⟨hlt, hnone, he⟩ | ⟨j, -, -, he⟩ | ⟨-, he⟩ <;> rw [he] at h <;> cases h
  exact ⟨hlt, hnone, rfl⟩

theorem finish_some {t : Task} {rest : List Stage} (h : l.finish t rest = some l') : ∃ k, l.calls[t.call]? = some k ∧
    (k.finished ∧ l' = l.resume t (rest.erase .release) ∨
      k.finished = false ∧ l' = (l.modify t.call fun k => { k with finished := true, deadline := false }).resume t
        (if k.deadline then .unschedule :: rest else rest)) := by
  obtain ⟨k, hk, h⟩ := Option.bind_eq_some_iff.mp h
  refine ⟨k, hk, ?_⟩
  split at h
  case isTrue hfinished => cases h; exact .inl ⟨hfinished, rfl⟩
  case isFalse hfinished => cases h; exact .inr ⟨eq_false_of_ne_true hfinished, rfl⟩

theorem send_some {t : Task} (h : l.send t = some l') : ∃ k, l.calls[t.call]? = some k ∧ k.done = [] ∧
    l' = l.modify t.call fun k => { k with done := [t.result], sent := k.sent + 1 } := by
  obtain ⟨k, hk, h⟩ := Option.bind_eq_some_iff.mp h
  refine ⟨k, hk, ?_⟩
  split at h
  case isTrue => cases h
  case isFalse hdone => cases h; exact ⟨not_not.mp hdone, rfl⟩

end Ledger

theorem completeError_some {l l' : Ledger} {o : Owner} {sequence : SequenceNumber} {err : Err} {after : List Stage}
    (h : l.completeError o sequence err after = some l') :
    ∃ i, l.pending.lookup sequence = some i ∧ l' = l.remove sequence (errorTask o i err after) := by
  obtain ⟨i, hi, h⟩ := Option.bind_eq_some_iff.mp h
  cases h
  exact ⟨i, hi, rfl⟩

theorem completeError_none {l : Ledger} {o : Owner} {sequence : SequenceNumber} {err : Err} {after : List Stage}
    (h : l.completeError o sequence err after = none) : l.pending.lookup sequence = none := by
  cases hl : l.pending.lookup sequence with
  | none => rfl
  | some i => rw [Ledger.completeError, hl] at h; cases h

/-! ## `Session.request` -/

def requestItem (k : Call) (frame : Octets) : TxItem :=
  { kind := .request, header := requestHeader k, frame, sequence := k.sequence, requestID := k.command }

/-- A step of the call `i`: the arm it takes, what it does to the session, and where it goes on. -/
inductive CallNext (s : Session) (i : Nat) (k : Call) : Arm → Session → Phase → Prop
  | refuse {err} : k.phase = .checking → s.requestError k = some err → CallNext s i k .go s (.returned (.error err))
  | check : k.phase = .checking → s.requestError k = none → CallNext s i k .go s .entering
  | closed : k.phase = .entering → s.termination.done → CallNext s i k .go s (.returned (.error s.requestCloseError))
  | enter : k.phase = .entering → s.termination.done = false → CallNext s i k .go s .acquiring
  | acquire : k.phase = .acquiring ∨ k.phase = .awaitingSlot → s.ledger.tokens < s.config.windowSize →
      CallNext s i k .go { s with ledger := { s.ledger with tokens := s.ledger.tokens + 1 } } .beginning
  | await : k.phase = .acquiring → k.waitWindow → CallNext s i k .go s .awaitingSlot
  | full : k.phase = .acquiring → k.waitWindow = false → CallNext s i k .go s (.returned (.error (.sentinel .windowFull)))
  | slotCtx : k.phase = .awaitingSlot → CallNext s i k .ctx s (.returned (.error (.sentinel .contextDone)))
  | slotDone : k.phase = .awaitingSlot → s.termination.done →
      CallNext s i k .done s (.returned (.error s.requestCloseError))
  | beginError {err} : k.phase = .beginning → s.machine.beginOutbound k.command = .error err →
      CallNext s i k .go s (.releasing (.error err))
  | begin {machine} : k.phase = .beginning → s.machine.beginOutbound k.command = .ok machine →
      CallNext s i k .go { s with machine } (.drawing 0)
  | draw {n} : k.phase = .drawing n →
      CallNext s i k .go { s with ledger := { s.ledger with sequence := s.ledger.nextSequence }.modify i fun k =>
        { k with sequence := s.ledger.nextSequence } } (.inserting n)
  | insert {n} : k.phase = .inserting n → s.ledger.pending.length < s.config.maxPending →
      s.ledger.pending.lookup k.sequence = none →
      CallNext s i k .go { s with ledger := s.ledger.inserted k.sequence i } .encoding
  | retry {n j} : k.phase = .inserting n → s.ledger.pending.lookup k.sequence = some j → n < s.config.maxPending →
      CallNext s i k .go s (.drawing (n + 1))
  | exhausted {n j} : k.phase = .inserting n → s.ledger.pending.lookup k.sequence = some j → s.config.maxPending ≤ n →
      CallNext s i k .go s (.cancelling true (.error (.sentinel .sequenceExhausted)))
  | overfull {n} : k.phase = .inserting n → s.config.maxPending ≤ s.ledger.pending.length →
      CallNext s i k .go s (.cancelling true (.error (.sentinel .pendingLimit)))
  | encode {frame} : k.phase = .encoding → encodeFrame s.config.registry (requestHeader k) k.body = .ok frame →
      CallNext s i k .go s (.admitting frame)
  /-- the request does not encode, or the context is done: the caller completes what it finds under its number -/
  | giveUp {arm err j} : (k.phase = .encoding ∧ encodeFrame s.config.registry (requestHeader k) k.body = .error err) ∨
        ((k.phase = .waiting ∨ ∃ frame, k.phase = .admitting frame) ∧ err = .sentinel .contextDone) →
      s.ledger.pending.lookup k.sequence = some j →
      CallNext s i k arm { s with ledger := s.ledger.remove k.sequence (errorTask (.caller i) j err []) }
        (.cancelling false (.error err))
  | unencodable {err} : k.phase = .encoding → encodeFrame s.config.registry (requestHeader k) k.body = .error err →
      s.ledger.pending.lookup k.sequence = none → CallNext s i k .go s (.cancelling false (.error err))
  | enqueue {frame} : k.phase = .admitting frame → s.queue.length < s.config.txQueueSize →
      CallNext s i k .go { s with queue := s.queue ++ [requestItem k frame] } .waiting
  /-- the context is done, and somebody else completes the request -/
  | overtaken : k.phase = .waiting ∨ (∃ frame, k.phase = .admitting frame) →
      s.ledger.pending.lookup k.sequence = none → CallNext s i k .ctx s .blocked
  | admitDone {frame} : k.phase = .admitting frame → s.termination.done → CallNext s i k .done s .blocked
  | receive {r rs} : k.phase = .waiting ∨ k.phase = .blocked → k.done = r :: rs →
      CallNext s i k .go { s with ledger := s.ledger.modify i fun k => { k with done := [] } } (.returned r)
  | cancel {owned r} : k.phase = .cancelling owned r →
      CallNext s i k .go { s with machine := s.machine.cancelOutbound k.command } (if owned then .releasing r else .returned r)
  | release {r} : k.phase = .releasing r → CallNext s i k .go { s with ledger := s.ledger.release } (.returned r)

section Moves
variable {s s' t : Session} {i : Nat} {k : Call} {arm : Arm} {q : Phase}

theorem modify_goto (s : Session) (l : Ledger) (i : Nat) (f : Call → Call) (q : Phase) :
    Session.goto { s with ledger := l.modify i f } i q = { s with ledger := l.modify i fun k => { f k with phase := q } } := by
  unfold Session.goto Ledger.goto Ledger.modify
  simp only [List.modify_modify_eq]
  rfl

theorem acquire_next (h : s.acquire i = some s') (hp : k.phase = .acquiring ∨ k.phase = .awaitingSlot) :
    ∃ t q, CallNext s i k .go t q ∧ s' = t.goto i q := by
  unfold Session.acquire at h
  split at h
  · next hlt => cases h; exact ⟨_, _, .acquire hp hlt, rfl⟩
  · cases h

theorem receive_next (h : s.receive i k = some s') (hp : k.phase = .waiting ∨ k.phase = .blocked) :
    ∃ t q, CallNext s i k .go t q ∧ s' = t.goto i q := by
  unfold Session.receive at h
  split at h
  · next r rs hd => cases h; exact ⟨_, _, .receive hp hd, by rw [modify_goto]⟩
  · cases h

theorem abandon_next (s : Session) (i : Nat) (hp : k.phase = .waiting ∨ ∃ frame, k.phase = .admitting frame) :
    ∃ t q, CallNext s i k .ctx t q ∧ s.abandon i k = t.goto i q := by
  unfold Session.abandon
  simp only
  split
  · next hc =>
    obtain ⟨j, hj, rfl⟩ := completeError_some hc
    exact ⟨_, _, .giveUp (.inr ⟨hp, rfl⟩) hj, rfl⟩
  · next hc => exact ⟨_, _, .overtaken hp (completeError_none hc), rfl⟩

theorem insert_next {n : Nat} (s : Session) (i : Nat) (hp : k.phase = .inserting n) :
    ∃ t q, CallNext s i k .go t q ∧ (match s.ledger.insert s.config.maxPending k.sequence i with
      | .ok ledger => { s with ledger := ledger.goto i .encoding }
      | .error .sequenceInUse =>
        if n < s.config.maxPending then s.goto i (.drawing (n + 1))
        else s.goto i (.cancelling true (.error (.sentinel .sequenceExhausted)))
      | .error err => s.goto i (.cancelling true (.error (.sentinel err)))) = t.goto i q := by
  rcases s.ledger.insert_cases s.config.maxPending k.sequence i with
    ⟨hlt, hnone, he⟩ | ⟨j, -, hj, he⟩ | ⟨hle, he⟩ <;> rw [he]
  · exact ⟨_, _, .insert hp hlt hnone, rfl⟩
  · simp only
    split
    · next hn => exact ⟨_, _, .retry hp hj hn, rfl⟩
    · next hn => exact ⟨_, _, .exhausted hp hj (Nat.not_lt.mp hn), rfl⟩
  · exact ⟨_, _, .overfull hp hle, rfl⟩

/-- **A caller takes these steps only.** -/
theorem callStep_next (h : s.callStep i k arm = some s') : ∃ t q, CallNext s i k arm t q ∧ s' = t.goto i q := by
  unfold Session.callStep at h
  split at h
  case h_1 hp =>
    cases h
    split
    · next he => exact ⟨_, _, .refuse hp he, rfl⟩
    · next he => exact ⟨_, _, .check hp he, rfl⟩
  case h_2 hp =>
    cases h
    split
    · next hd => exact ⟨_, _, .closed hp hd, rfl⟩
    · next hd => exact ⟨_, _, .enter hp (Bool.eq_false_iff.mpr hd), rfl⟩
  case h_3 hp =>
    split at h
    · next ha => cases h; exact acquire_next ha (.inl hp)
    · cases h
      split
      · next hw => exact ⟨_, _, .await hp hw, rfl⟩
      · next hw => exact ⟨_, _, .full hp (eq_false_of_ne_true hw), rfl⟩
  case h_4 hp => exact acquire_next h (.inr hp)
  case h_5 hp => cases h; exact ⟨_, _, .slotCtx hp, rfl⟩
  case h_6 hp =>
    split at h
    · next hd => cases h; exact ⟨_, _, .slotDone hp hd, rfl⟩
    · cases h
  case h_7 hp =>
    cases h
    split
    · next he => exact ⟨_, _, .beginError hp he, rfl⟩
    · next he => exact ⟨_, _, .begin hp he, rfl⟩
  case h_8 hp => cases h; exact ⟨_, _, .draw hp, by rw [modify_goto]⟩
  case h_9 hp => cases h; exact insert_next s i hp
  case h_10 hp =>
    cases h
    split
    · next he => exact ⟨_, _, .encode hp he, rfl⟩
    · next err he =>
      simp only
      cases hc : s.ledger.completeError (.caller i) k.sequence err [] with
      | none => exact ⟨_, _, .unencodable hp he (completeError_none hc), rfl⟩
      | some l =>
        obtain ⟨j, hj, rfl⟩ := completeError_some hc
        exact ⟨_, _, .giveUp (.inl ⟨hp, he⟩) hj, rfl⟩
  case h_11 hp =>
    obtain ⟨t, ht, h⟩ := Option.bind_eq_some_iff.mp h
    obtain ⟨hroom, rfl⟩ := enqueue_some ht
    cases h
    exact ⟨_, _, .enqueue hp hroom, rfl⟩
  case h_12 hp => cases h; exact abandon_next s i (.inr ⟨_, hp⟩)
  case h_13 hp =>
    split at h
    · next hd => cases h; exact ⟨_, _, .admitDone hp hd, rfl⟩
    · cases h
  case h_14 hp => exact receive_next h (.inl hp)
  case h_15 hp => cases h; exact abandon_next s i (.inl hp)
  case h_16 hp => exact receive_next h (.inr hp)
  case h_17 hp => cases h; exact ⟨_, _, .cancel hp, rfl⟩
  case h_18 hp => cases h; exact ⟨_, _, .release hp, rfl⟩
  case h_19 => cases h

/-! ## `taskStep` -/

/-- A stage of the task `t` of the call `k`, taken from the ledger, which it leaves as `l`. -/
inductive TaskMove (s : Session) (t : Task) (l : Ledger) (k : Call) : Session → Prop
  | finish {rest l'} (htodo : t.todo = .finish :: rest) (hl : l.finish t rest = some l') :
      TaskMove s t l k { s with ledger := l' }
  | unschedule {rest} (htodo : t.todo = .unschedule :: rest) :
      TaskMove s t l k { s with ledger := (l.unschedule t.call).resume t rest }
  | release {rest} (htodo : t.todo = .release :: rest) : TaskMove s t l k
      { s with ledger := (l.release.modify t.call fun k => { k with released := k.released + 1 }).resume t rest }
  | send {rest l'} (htodo : t.todo = .send :: rest) (hl : l.send t = some l') :
      TaskMove s t l k { s with ledger := l'.resume t rest }
  | complete {rest pdu} (htodo : t.todo = .complete :: rest) (hresult : t.result = .ok pdu) : TaskMove s t l k
      { s with machine := s.machine.completeOutbound k.command pdu.header.commandStatus, ledger := l.resume t rest }
  | negotiate {rest pdu} (htodo : t.todo = .negotiate :: rest) (hresult : t.result = .ok pdu) :
      TaskMove s t l k { s with peerCaps := s.negotiated k pdu, ledger := l.resume t rest }
  /-- the peer has accepted an unbind -/
  | close {rest pdu} (htodo : t.todo = .close :: rest) (hresult : t.result = .ok pdu)
      (hunbind : k.command = commandUnbind ∧ CommandStatus.ok pdu.header.commandStatus) : TaskMove s t l k
      { Session.terminate { s with ledger := l.resume t rest } (.sentinel .sessionClosed) with rx := .terminating }
  | stay {rest pdu} (htodo : t.todo = .close :: rest) (hresult : t.result = .ok pdu)
      (hother : ¬ (k.command = commandUnbind ∧ CommandStatus.ok pdu.header.commandStatus)) :
      TaskMove s t l k { s with ledger := l.resume t rest }
  | cancel {rest} (htodo : t.todo = .cancel :: rest) :
      TaskMove s t l k { s with machine := s.machine.cancelOutbound k.command, ledger := l.resume t rest }

theorem taskStep_move {o : Owner} (h : s.taskStep o = some s') :
    ∃ t l k, s.ledger.nextTask o = some (t, l) ∧ l.calls[t.call]? = some k ∧ TaskMove s t l k s' := by
  obtain ⟨⟨t, l⟩, ht, h⟩ := Option.bind_eq_some_iff.mp h
  obtain ⟨k, hk, h⟩ := Option.bind_eq_some_iff.mp h
  refine ⟨t, l, k, ht, hk, ?_⟩
  simp only at h
  split at h
  case h_1 htodo =>
    obtain ⟨l', hl, rfl⟩ := Option.map_eq_some_iff.mp h
    exact .finish htodo hl
  case h_2 htodo => cases h; exact .unschedule htodo
  case h_3 htodo => cases h; exact .release htodo
  case h_4 htodo =>
    obtain ⟨l', hl, rfl⟩ := Option.map_eq_some_iff.mp h
    exact .send htodo hl
  case h_5 htodo hresult => cases h; exact .complete htodo hresult
  case h_6 htodo hresult => cases h; exact .negotiate htodo hresult
  case h_7 htodo hresult =>
    cases h
    split
    case isTrue hunbind => exact .close htodo hresult hunbind
    case isFalse hother => exact .stay htodo hresult hother
  case h_8 htodo => cases h; exact .cancel htodo
  case h_9 => cases h

/-! ## `SendOneWay` -/

def oneWayHeader (k : Send) (sequenceNumber : SequenceNumber) : Header :=
  { commandID := k.command, commandStatus := statusOK, sequenceNumber }

def oneWayItem (i : Nat) (k : Send) (sequence : SequenceNumber) (frame : Octets) : TxItem :=
  { kind := .oneWay, header := oneWayHeader k sequence, frame, sequence, requestID := k.command, source := i }

/-- A step of the call `i` of `SendOneWay`: the arm it takes, what it does to the session, and where it goes on. -/
inductive SendNext (s : Session) (i : Nat) (k : Send) : Arm → Session → SendPhase → Prop
  | refuse {err} : k.phase = .entering → isOneWayCommand k.command = false → SendNext s i k .go s (.returned (some err))
  | closed : k.phase = .entering → s.termination.done → SendNext s i k .go s (.returned (some s.requestCloseError))
  | enter : k.phase = .entering → isOneWayCommand k.command → SendNext s i k .go s .beginning
  | beginError {err} : k.phase = .beginning → s.machine.beginOutbound k.command = .error err →
      SendNext s i k .go s (.returned (some err))
  | begin {machine} : k.phase = .beginning → s.machine.beginOutbound k.command = .ok machine →
      SendNext s i k .go { s with machine } .encoding
  | encode {frame} : k.phase = .encoding →
      encodeFrame s.config.registry (oneWayHeader k s.ledger.nextSequence) k.body = .ok frame →
      SendNext s i k .go { s with ledger := { s.ledger with sequence := s.ledger.nextSequence } }
        (.admitting (oneWayItem i k s.ledger.nextSequence frame))
  | unencodable {err} : k.phase = .encoding →
      encodeFrame s.config.registry (oneWayHeader k s.ledger.nextSequence) k.body = .error err →
      SendNext s i k .go { s with ledger := { s.ledger with sequence := s.ledger.nextSequence } } (.cancelling err)
  | enqueue {item} : k.phase = .admitting item → s.queue.length < s.config.txQueueSize →
      SendNext s i k .go { s with queue := s.queue ++ [item] } .waiting
  | admitCtx {item} : k.phase = .admitting item → SendNext s i k .ctx s (.cancelling (.sentinel .contextDone))
  | admitDone {item} : k.phase = .admitting item → s.termination.done →
      SendNext s i k .done s (.cancelling s.requestCloseError)
  | dispatched {err} : k.phase = .waiting → k.dispatched = some err → SendNext s i k .go s (.returned err)
  | waitDone : k.phase = .waiting → s.termination.done → SendNext s i k .done s (.returned (some s.requestCloseError))
  | cancel {err} : k.phase = .cancelling err →
      SendNext s i k .go { s with machine := s.machine.cancelOutbound k.command } (.returned (some err))

/-- **A call of `SendOneWay` takes these steps only.** -/
theorem sendStep_next {k : Send} (h : s.sendStep i k arm = some s') : ∃ t q, SendNext s i k arm t q ∧ s' = t.gotoSend i q := by
  unfold Session.sendStep at h
  split at h
  case h_1 hp =>
    cases h
    split
    · next hc => exact ⟨_, _, .refuse hp (by simpa using hc), rfl⟩
    · next hc =>
      split
      · next hd => exact ⟨_, _, .closed hp hd, rfl⟩
      · exact ⟨_, _, .enter hp (by simpa using hc), rfl⟩
  case h_2 hp =>
    cases h
    split
    · next he => exact ⟨_, _, .beginError hp he, rfl⟩
    · next ho => exact ⟨_, _, .begin hp ho, rfl⟩
  case h_3 hp =>
    cases h
    simp only
    split
    · next he => exact ⟨_, _, .unencodable hp he, rfl⟩
    · next ho => exact ⟨_, _, .encode hp ho, rfl⟩
  case h_4 hp =>
    obtain ⟨t, ht, h⟩ := Option.bind_eq_some_iff.mp h
    obtain ⟨hlt, rfl⟩ := enqueue_some ht
    cases h
    exact ⟨_, _, .enqueue hp hlt, rfl⟩
  case h_5 hp => cases h; exact ⟨_, _, .admitCtx hp, rfl⟩
  case h_6 hp =>
    split at h
    · next hd => cases h; exact ⟨_, _, .admitDone hp hd, rfl⟩
    · cases h
  case h_7 hp =>
    obtain ⟨err, he, rfl⟩ := Option.map_eq_some_iff.mp h
    exact ⟨_, _, .dispatched hp he, rfl⟩
  case h_8 hp =>
    split at h
    · next hd => cases h; exact ⟨_, _, .waitDone hp hd, rfl⟩
    · cases h
  case h_9 hp => cases h; exact ⟨_, _, .cancel hp, rfl⟩
  case h_10 => cases h

/-! ## The RX loop -/

inductive RxMove (s : Session) : RxChoice → Session → Prop
  | begin {pdu} (hrx : s.rx = .beginning pdu) : RxMove s .go (s.beginRequest pdu)
  | handle {pdu} (hrx : s.rx = .handling pdu) (outcome : Handled) : RxMove s (.handled outcome) (s.handled pdu outcome)
  | enqueue {item next} (hrx : s.rx = .queueing item next) (hroom : s.queue.length < s.config.txQueueSize) :
      RxMove s .go { s with queue := s.queue ++ [item], rx := .reading }
  | closed {item next} (hrx : s.rx = .queueing item next) (hdone : s.termination.done) :
      RxMove s .done { s with rx := next.failed s.requestCloseError }
  | cancel {command err} (hrx : s.rx = .cancelling command err) :
      RxMove s .go { s with machine := s.machine.cancelInbound command, rx := .failing err }
  | fail {err} (hrx : s.rx = .failing err) : RxMove s .go { s.terminate err with rx := .stopped }
  | resume (hrx : s.rx = .terminating) (hfinished : s.termination = .finished) : RxMove s .go { s with rx := .reading }

theorem rxStep_move {choice : RxChoice} (h : s.rxStep choice = some s') : RxMove s choice s' := by
  unfold rxStep at h
  split at h
  case h_1 hrx => cases h; exact .begin hrx
  case h_2 outcome hrx => cases h; exact .handle hrx outcome
  case h_3 hrx =>
    obtain ⟨t, ht, rfl⟩ := Option.map_eq_some_iff.mp h
    obtain ⟨hroom, rfl⟩ := enqueue_some ht
    exact .enqueue hrx hroom
  case h_4 hrx =>
    split at h
    case isTrue hdone => cases h; exact .closed hrx hdone
    case isFalse => cases h
  case h_5 hrx => cases h; exact .cancel hrx
  case h_6 hrx => cases h; exact .fail hrx
  case h_7 hrx =>
    split at h
    case isTrue hfinished => cases h; exact .resume hrx hfinished
    case isFalse => cases h
  case h_8 => cases h

theorem rxStep_scope {choice : RxChoice} (h : s.rxStep choice = some s') :
    s' = { s with
      machine := s'.machine, peerCaps := s'.peerCaps, queue := s'.queue, rx := s'.rx,
      deferredReplies := s'.deferredReplies, termination := s'.termination, closeErr := s'.closeErr } := by
  cases rxStep_move h with
  | @begin pdu => rcases s.beginRequest_cases pdu with ⟨err, -, he⟩ | ⟨m, -, he⟩ <;> rw [he]
  | @handle pdu _ outcome => rw [s.handled_local pdu outcome]
  | fail => rw [terminate_eq]
  | enqueue | closed | cancel | resume => rfl

/-! ## The TX loop -/

theorem dispatch_scope (s : Session) (item : TxItem) (err : Option Err) :
    s.dispatch item err = { s with sends := (s.dispatch item err).sends } := by
  unfold dispatch
  split <;> rfl

theorem foldl_dispatch_scope (s : Session) (batch : List TxItem) (err : Option Err) :
    ∃ sends, batch.foldl (fun s item => s.dispatch item err) s = { s with sends } := by
  induction batch generalizing s with
  | nil => exact ⟨s.sends, rfl⟩
  | cons item batch ih =>
    obtain ⟨sends, h⟩ := ih (s.dispatch item err)
    rw [dispatch_scope] at h
    exact ⟨sends, by rw [List.foldl_cons, dispatch_scope, h]⟩

/-- The TX loop has called `terminate` and returned. -/
abbrev txEnded (s : Session) (err : Err) (sends : List Send) : Session :=
  { s with sends, termination := (s.terminate err).termination, closeErr := (s.terminate err).closeErr, tx := .stopped }

theorem terminate_foldl_dispatch (s : Session) (batch : List TxItem) (err : Err) :
    s.txEnded err (batch.foldl (fun s item => s.dispatch item (some err)) s).sends =
      { (batch.foldl (fun s item => s.dispatch item (some err)) s).terminate err with tx := .stopped } := by
  obtain ⟨sends, h⟩ := s.foldl_dispatch_scope batch (some err)
  rw [h]
  unfold txEnded Session.terminate
  split <;> rfl

inductive TxMove (s : Session) : TxChoice → Session → Prop
  | take {item queue} (htx : s.tx = .idle) (hqueue : s.queue = item :: queue) :
      TxMove s .go { s with queue, tx := .checking item [] }
  | stop (htx : s.tx = .idle) (hdone : s.termination.done) : TxMove s .stop { s with tx := .stopped }
  | accept {item batch} (htx : s.tx = .checking item batch) (hactive : s.txItemActive item) :
      TxMove s .go { s with tx := .gathering (batch ++ [item]) }
  /-- a request that has been completed is not sent -/
  | drop {item batch} (htx : s.tx = .checking item batch) (hactive : s.txItemActive item = false) (hbatch : batch ≠ []) :
      TxMove s .go { s with tx := .gathering batch }
  | dropAll {item} (htx : s.tx = .checking item []) (hactive : s.txItemActive item = false) :
      TxMove s .go { s with tx := .idle }
  | gather {item queue batch} (htx : s.tx = .gathering batch) (hqueue : s.queue = item :: queue)
      (hfull : s.batchFull batch = false) : TxMove s .go { s with queue, tx := .checking item batch }
  | close {batch} (htx : s.tx = .gathering batch) (hfull : s.queue = [] ∨ s.batchFull batch) :
      TxMove s .go { s with tx := .committing batch batch }
  | commit {item rest batch} (htx : s.tx = .committing (item :: rest) batch) :
      TxMove s .go { s with
        machine := if item.kind = .response ∧ item.responseTo ≠ 0 then
          s.machine.completeInbound item.responseTo item.status else s.machine
        tx := .committing rest batch }
  | committed {batch} (htx : s.tx = .committing [] batch) : TxMove s .go { s with tx := .writing batch batch }
  | write {item rest batch} (htx : s.tx = .writing (item :: rest) batch) :
      TxMove s .go { s with wire := s.wire ++ [item.frame], tx := .writing rest batch }
  | fail {item rest batch sends} (htx : s.tx = .writing (item :: rest) batch) (err : Err)
      (hsends : (batch.foldl (fun s item => s.dispatch item (some err)) s).sends = sends) :
      TxMove s (.fail err) (s.txEnded err sends)
  | written {batch} (htx : s.tx = .writing [] batch) : TxMove s .go { s with tx := .finishing batch }
  | mark {item rest call} (htx : s.tx = .finishing (item :: rest)) (hkind : item.kind = .request)
      (hcall : s.ledger.pending.lookup item.sequence = some call) : TxMove s .go
      { s with tx := .scheduling { call, command := item.requestID, sequence := item.sequence } rest }
  | completed {item rest} (htx : s.tx = .finishing (item :: rest)) (hkind : item.kind = .request)
      (hcall : s.ledger.pending.lookup item.sequence = none) : TxMove s .go { s with tx := .finishing rest }
  | answered {item rest} (htx : s.tx = .finishing (item :: rest)) (hkind : item.kind = .response)
      (hends : item.terminates = false) : TxMove s .go { s with tx := .finishing rest }
  | unbound {item rest} (htx : s.tx = .finishing (item :: rest)) (hkind : item.kind = .response) (hends : item.terminates) :
      TxMove s .go (s.txEnded (.sentinel .sessionClosed) s.sends)
  | dispatched {item rest sends} (htx : s.tx = .finishing (item :: rest)) (hkind : item.kind = .oneWay)
      (hsends : (s.dispatch item none).sends = sends) : TxMove s .go { s with sends, tx := .finishing rest }
  | finish (htx : s.tx = .finishing []) : TxMove s .go { s with tx := .idle }
  | schedule {item rest} (htx : s.tx = .scheduling item rest) (htimes : s.config.timesOut item.command) : TxMove s .go
      { s with ledger := { s.ledger with heap := item :: s.ledger.heap }, tx := .attaching item.call rest }
  | skip {item rest} (htx : s.tx = .scheduling item rest) (htimes : s.config.timesOut item.command = false) :
      TxMove s .go { s with tx := .finishing rest }
  | attach {call rest k} (htx : s.tx = .attaching call rest) (hk : s.ledger.calls[call]? = some k)
      (hfinished : k.finished = false) : TxMove s .go
      { s with ledger := s.ledger.modify call fun k => { k with deadline := true }, tx := .finishing rest }
  | detach {call rest k} (htx : s.tx = .attaching call rest) (hk : s.ledger.calls[call]? = some k)
      (hfinished : k.finished) : TxMove s .go { s with ledger := s.ledger.unschedule call, tx := .finishing rest }

theorem check_move {item : TxItem} {batch : List TxItem} (htx : s.tx = .checking item batch) : TxMove s .go
    { s with tx :=
      if s.txItemActive item then .gathering (batch ++ [item]) else if batch = [] then .idle else .gathering batch } := by
  cases hactive : s.txItemActive item with
  | true => exact .accept htx hactive
  | false =>
    by_cases hbatch : batch = []
    · subst hbatch
      exact .dropAll htx hactive
    · rw [if_neg Bool.false_ne_true, if_neg hbatch]
      exact .drop htx hactive hbatch

/-- **The TX loop takes these steps only.** -/
theorem txStep_move {choice : TxChoice} (h : s.txStep choice = some s') : TxMove s choice s' := by
  unfold Session.txStep at h
  split at h
  case h_1 htx =>
    split at h
    case h_1 hqueue => cases h; exact .take htx hqueue
    case h_2 => cases h
  case h_2 htx =>
    split at h
    case isTrue hdone => cases h; exact .stop htx hdone
    case isFalse => cases h
  case h_3 htx => cases h; exact check_move htx
  case h_4 htx =>
    split at h
    case h_1 hqueue =>
      cases h
      split
      case isTrue hfull => exact .close htx (.inr hfull)
      case isFalse hfull => exact .gather htx hqueue (eq_false_of_ne_true hfull)
    case h_2 hqueue => cases h; exact .close htx (.inl hqueue)
  case h_5 htx => cases h; exact .commit htx
  case h_6 htx => cases h; exact .committed htx
  case h_7 htx => cases h; exact .write htx
  case h_8 batch err htx => cases h; exact s.terminate_foldl_dispatch batch err ▸ .fail htx err rfl
  case h_9 htx => cases h; exact .written htx
  case h_10 item rest htx =>
    split at h
    case h_1 hkind =>
      cases h
      cases hcall : s.ledger.pending.lookup item.sequence with
      | some call => exact .mark htx hkind hcall
      | none => exact .completed htx hkind hcall
    case h_2 hkind =>
      cases h
      split
      case isTrue hends => rw [terminate_eq]; exact .unbound htx hkind hends
      case isFalse hends => exact .answered htx hkind (eq_false_of_ne_true hends)
    case h_3 hkind => cases h; rw [dispatch_scope]; exact .dispatched htx hkind rfl
  case h_11 htx => cases h; exact .finish htx
  case h_12 htx =>
    cases h
    split
    case isTrue htimes => exact .schedule htx htimes
    case isFalse htimes => exact .skip htx (eq_false_of_ne_true htimes)
  case h_13 htx =>
    obtain ⟨k, hk, h⟩ := Option.bind_eq_some_iff.mp h
    cases h
    cases hfinished : k.finished with
    | true => exact .detach htx hk hfinished
    | false => exact .attach htx hk hfinished
  case h_14 => cases h

/-! ## The deadline loop and `terminate` -/

inductive FireMove (s : Session) : Session → Prop
  | timeout {item expired i} (hidle : s.ledger.idle .deadline) (hexpired : s.expired = item :: expired)
      (hi : s.ledger.pending.lookup item.sequence = some i) : FireMove s { s with
        ledger := s.ledger.remove item.sequence (errorTask .deadline i
          (.timeout (timeoutKindFor item.command) item.command item.sequence) [.cancel])
        expired }
  /-- the request has been completed -/
  | late {item expired} (hidle : s.ledger.idle .deadline) (hexpired : s.expired = item :: expired)
      (hnone : s.ledger.pending.lookup item.sequence = none) : FireMove s { s with expired }

theorem fire_move (h : s.fire = some s') : FireMove s s' := by
  unfold Session.fire at h
  split at h
  case h_1 item expired hexpired =>
    split at h
    case isTrue hidle =>
      cases h
      cases hc : s.ledger.completeError .deadline item.sequence _ [.cancel] with
      | none => exact .late hidle hexpired (completeError_none hc)
      | some l' =>
        obtain ⟨i, hi, rfl⟩ := completeError_some hc
        exact .timeout hidle hexpired hi
    case isFalse => cases h
  case h_2 => cases h

inductive TermMove (s : Session) : Session → Prop
  | close (hterm : s.termination = .closing) : TermMove s { s with machine := s.machine.close, termination := .ending }
  | done (hterm : s.termination = .ending) : TermMove s { s with termination := .sweeping }
  | sweep (hterm : s.termination = .sweeping) :
      TermMove s { s with ledger := s.ledger.failAll s.requestCloseError, termination := .clearing }
  | clear (hterm : s.termination = .clearing) (hidle : s.ledger.idle .sweep) :
      TermMove s { s with deferredReplies := [], termination := .finished }

theorem termStep_move (h : s.termStep = some s') : TermMove s s' := by
  unfold Session.termStep at h
  split at h
  case h_1 hterm => cases h; exact .close hterm
  case h_2 hterm => cases h; exact .done hterm
  case h_3 hterm => cases h; exact .sweep hterm
  case h_4 hterm =>
    split at h
    case isTrue hidle => cases h; exact .clear hterm hidle
    case isFalse => cases h
  case h_5 | h_6 => cases h

end Moves

end GoSmpp.Session
