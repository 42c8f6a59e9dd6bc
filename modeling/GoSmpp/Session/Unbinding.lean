import GoSmpp.Session.Agreement
import GoSmpp.Session.Timers

/-!
# Crossing unbinds

An ESME session and an SMSC session, both bound, that are both asked to unbind. Each refuses the unbind of its peer while
its own is in progress, each takes the refusal for an answer and goes back to the state it was bound in: `crossing`.

* `Down`: a session that is going to be closed, whatever happens. `Down.step`: nothing stops it.
* `Chases`: an unbind on its way from its call to the connection. `Chases.step`: it gets there, or its session is `Down`.
* `Pursued`: an unbind on its way to the peer's machine. `Unbegun`: a session whose calls have not begun one.
* `run_unbinds`: as long as one endpoint does not take up the peer's unbinds while its own is in progress, and nothing keeps
  those from the connection, one of the two is not bound when both calls have returned and every message is delivered.
-/

namespace GoSmpp.Session
open Lib Protocol Codec

/-! ## The calls -/

/-- The frame is an unbind that a session of this configuration passes to its state machine. -/
def unbindTo (c : Config) (frame : Octets) : Bool :=
  match decodePDU c.registry frame with
  | .ok pdu => pdu.header.commandID == commandUnbind && validInbound pdu.header.sequenceNumber &&
      (c.registry.command commandUnbind).isSome
  | .error _ => false

/-- The request under the number is an unbind that meets the condition. -/
def holdsUnbind (s : Session) (sequence : SequenceNumber) (cond : Call → Bool) : Bool :=
  (s.ledger.pending.lookup sequence).any fun i => s.ledger.calls[i]?.any fun k => k.command == commandUnbind && cond k

/-- The request of the call is not on the connection. -/
def unsent (s : Session) (k : Call) : Bool :=
  k.phase != .waiting || (s.tx.unwritten ++ s.queue).any fun item => item.kind == .request && item.sequence == k.sequence

/-- The step neither cancels an unbind nor lets it time out. -/
def patient (s : Session) : Label → Bool
  | .call i .ctx => s.ledger.calls[i]?.all fun k => k.command != commandUnbind && !s.holdsUnbind k.sequence fun _ => true
  | .fire => s.expired.head?.all fun item => !s.holdsUnbind item.sequence fun _ => true
  | _ => true

/-- A step of a call does not end an unbind that has begun before it is queued: there is room for it in the table and a
number is free, and it encodes to a frame that the peer reads as an unbind. -/
def admits (peer : Config) (s : Session) (k : Call) : Bool :=
  match k.phase with
  | .inserting n => k.command != commandUnbind || (s.ledger.pending.length < s.config.maxPending &&
      ((s.ledger.pending.lookup k.sequence).isNone || n < s.config.maxPending))
  | .encoding =>
    match encodeFrame s.config.registry (requestHeader k) k.body with
    | .ok frame => k.command != commandUnbind || unbindTo peer frame
    | .error _ => !s.holdsUnbind k.sequence fun _ => true
  | _ => true

/-- The step does not keep an unbind from the connection: no call gives it up, and no response is taken for it before it is
written. -/
def forwards (peer : Config) (s : Session) : Label → Bool
  | .call i .go => s.ledger.calls[i]?.all (s.admits peer)
  | .frame frame =>
    match decodePDU s.config.registry frame with
    | .ok pdu => !(isResponse pdu.header.commandID && (s.ledger.takeResponse pdu).isSome &&
        s.holdsUnbind pdu.header.sequenceNumber s.unsent)
    | .error _ => true
  | _ => true

/-- The session has begun an unbind of its own, which is in progress. -/
def unbinding (s : Session) : Bool := s.machine.state == .unbound && s.machine.localUnbindFrom != .closed

/-- The step does not take up an unbind of the peer that the session cannot answer, or under the condition. -/
def answers (s : Session) (cond : Bool) : Label → Bool
  | .rx .go =>
    match s.rx with
    | .beginning pdu => pdu.header.commandID != commandUnbind || (!cond &&
        (s.queueResponse pdu.header (responseID commandUnbind) statusOK emptyBody true).isOk)
    | _ => true
  | _ => true

/-- The endpoint has called `Unbind` since the first state, and its unbinds have returned. -/
def Returned (s₀ s : Session) : Prop :=
  (∃ k ∈ s.ledger.calls.drop s₀.ledger.calls.length, k.command = commandUnbind ∧ k.waitWindow) ∧
    ∀ k ∈ s.ledger.calls, k.command = commandUnbind → k.phase.over

instance (s₀ s : Session) : Decidable (Returned s₀ s) := inferInstanceAs (Decidable (_ ∧ _))

/-- Nothing is on its way from the session or through it. -/
def Quiet (s : Session) : Prop :=
  s.wire = [] ∧ s.queue = [] ∧ (s.tx = .idle ∨ s.tx = .stopped) ∧ (s.rx = .reading ∨ s.rx = .stopped) ∧
    s.ledger.tasks = [] ∧ (s.termination = .running ∨ s.termination = .finished)

instance (s : Session) : Decidable s.Quiet := inferInstanceAs (Decidable (_ ∧ _))

/-! ## The two sessions -/

/-- Neither endpoint's unbinds are cancelled or time out. -/
def Patient (p : Pair Session) : LinkLabel Label → Prop
  | .act side label => (p.get side).patient label
  | .deliver _ => True

instance (p : Pair Session) : (label : LinkLabel Label) → Decidable (Patient p label)
  | .act side label => inferInstanceAs (Decidable ((p.get side).patient label = true))
  | .deliver _ => .isTrue trivial

/-- A step of a party does not stop the unbinds of `side`: they get to the connection, and its peer does not take them up
while an unbind of its own is in progress. -/
def unstopped (side : Side) (p : Pair Session) (mover : Side) (label : Label) : Bool :=
  if mover = side then (p.get side).forwards (p.get side.other).config label && (p.get side).answers false label
  else (p.get mover).answers (p.get mover).unbinding label

def Unstopped (side : Side) (p : Pair Session) : LinkLabel Label → Prop
  | .act mover label => unstopped side p mover label
  | .deliver mover => (p.get mover.other).wire.head?.all fun frame => unstopped side p mover (.frame frame)

instance (side : Side) (p : Pair Session) : (label : LinkLabel Label) → Decidable (Unstopped side p label)
  | .act mover label => inferInstanceAs (Decidable (unstopped side p mover label = true))
  | .deliver mover => inferInstanceAs (Decidable (((p.get mover.other).wire.head?.all fun frame =>
      unstopped side p mover (.frame frame)) = true))

/-! ## The machine of a bound session -/

namespace StateMachine
variable {m m' : StateMachine} {bind command : CommandID} {status : CommandStatus}

theorem Bound.cancelOutbound_same (h : m.Bound bind) (hb : isBindRequest bind) (hs : isBoundState m.state) :
    m.cancelOutbound command = m := by
  rcases h.cancelOutbound_eq hb command with he | ⟨-, hu, -⟩
  · exact he
  · exact absurd hu (isBoundState_cases hs).1

theorem Bound.completeOutbound_same (h : m.Bound bind) (hs : isBoundState m.state) : m.completeOutbound command status = m := by
  rcases h.completeOutbound_eq command status with he | ⟨-, hu, -⟩ | ⟨-, hu, -⟩
  · exact he
  · exact absurd hu (isBoundState_cases hs).1
  · exact absurd hu (isBoundState_cases hs).1

theorem mirror_inj (h : m'.mirror = m.mirror) : m' = m := by rw [← mirror_mirror m', h, mirror_mirror]

theorem Bound.cancelInbound_same (h : m.Bound bind) (hb : isBindRequest bind) (hs : isBoundState m.state) :
    m.cancelInbound command = m := by
  rcases cancelInbound_mirror m command with he | he
  · exact mirror_inj (he.trans (h.mirror.cancelOutbound_same hb hs))
  · exact he

theorem Bound.completeInbound_same (h : m.Bound bind) (hs : isBoundState m.state) : m.completeInbound command status = m :=
  mirror_inj ((completeInbound_mirror m command status).trans (h.mirror.completeOutbound_same hs))

theorem Bound.beginOutbound_same (h : m.Bound bind) (hb : isBindRequest bind) (ho : m.beginOutbound command = .ok m')
    (hu : command ≠ commandUnbind) : m' = m := by
  have hopen := h.not_open hb
  obtain ⟨hcan, ⟨hc, -, -⟩ | ⟨rfl, -⟩ | ⟨rfl, -⟩ | ⟨-, rfl⟩⟩ := beginOutbound_ok ho
  · exact ((canIssue_bind hcan hc).2.elim hopen.1 hopen.2).elim
  · exact absurd rfl hu
  · exact absurd (canIssue_outbind hcan).2 hopen.1
  · rfl

theorem canIssue_unbind_of_bound {state : SessionState} (role : Role) (h : isBoundState state) :
    canIssue state role commandUnbind := by
  cases state <;> cases role <;> revert h <;> decide

theorem beginOutbound_unbind (h : isBoundState m.state) :
    m.beginOutbound commandUnbind = .ok { m with localUnbindFrom := m.state, state := .unbound } := by
  unfold StateMachine.beginOutbound
  rw [canIssue_unbind_of_bound m.role h]
  rfl

theorem beginInbound_unbind (h : isBoundState m.state) :
    m.beginInbound commandUnbind = .ok { m with peerUnbindFrom := m.state, state := .unbound } := by
  unfold StateMachine.beginInbound
  rw [canIssue_unbind_of_bound m.role.peer h]
  rfl

end StateMachine

structure Steady (config : Config) (s : Session) : Prop extends Regular config s where
  queueing : s.Queueing
  bound : ∃ bind, isBindRequest bind ∧ s.machine.Bound bind

section Steady
variable {config : Config} {s s' : Session} {label : Label}

theorem Steady.step (h : Steady config s) (hs : s.step label = some s') : Steady config s' where
  toRegular := h.toRegular.step hs
  queueing := h.queueing.step hs
  bound := by
    obtain ⟨bind, hb, hbound⟩ := h.bound
    exact ⟨bind, hb, step_keeps hs hbound fun hm => hbound.step hb hm⟩

theorem Steady.read (h : Steady config s) (wire : List Octets) : Steady config { s with wire } where
  toRegular := h.toRegular.read wire
  queueing := ⟨h.queueing.oneWayItems, h.queueing.answers⟩
  bound := h.bound

/-- The callers leave a bound state only by an unbind. -/
theorem Steady.issues (h : Steady config s) (hs : s.step label = some s') (hbound : isBoundState s.machine.state)
    (hl : label.outbound) : isBoundState s'.machine.state ∨ (s'.machine.localUnbindFrom ≠ .closed ∧
      ∃ (i : Nat) (k : Call), s'.ledger.calls[i]? = some k ∧ k.command = commandUnbind ∧ k.phase = .drawing 0) := by
  obtain ⟨bind, hb, hB⟩ := h.bound
  have hsame (hm : s'.machine = s.machine) : isBoundState s'.machine.state := by rw [hm]; exact hbound
  cases label with
  | call i arm =>
    obtain ⟨k, hk, -, hc⟩ := step_call hs
    obtain ⟨t, q, hn, rfl⟩ := callStep_next hc
    rcases hn.machine with hm | ⟨rfl, hm⟩ | ⟨-, hm⟩
    · exact .inl (hsame hm)
    · by_cases hu : k.command = commandUnbind
      · obtain ⟨k', hk'⟩ : ∃ k', (t.goto i (.drawing 0)).ledger.calls[i]? = some k' := by
          obtain ⟨k', hk', -⟩ := (step_ledger hs).call h.identified.conserves hk
          exact ⟨k', hk'⟩
        have hown := hn.own hk hk'
        refine .inr ⟨?_, i, k', hk', hown.command.trans hu, hown.phase⟩
        rw [hu, StateMachine.beginOutbound_unbind hbound] at hm
        show t.machine.localUnbindFrom ≠ .closed
        rw [← Except.ok.inj hm]
        exact (StateMachine.isBoundState_cases hbound).2
      · exact .inl (hsame (hB.beginOutbound_same hb hm hu))
    · exact .inl (hsame (hm.trans (hB.cancelOutbound_same hb hbound)))
  | task o =>
    obtain ⟨t, l, k, st, rest, -, -, -, ⟨hm, -⟩ | ⟨-, status, hm⟩ | ⟨-, hm⟩⟩ := taskStep_next hs
    · exact .inl (hsame hm)
    · exact .inl (hsame (hm.trans (hB.completeOutbound_same hbound)))
    · exact .inl (hsame (hm.trans (hB.cancelOutbound_same hb hbound)))
  | send i arm =>
    obtain ⟨k, hk, hc⟩ := step_send hs
    obtain ⟨t, q, hn, rfl⟩ := sendStep_next hc
    rcases hn.machine with hm | ⟨hbegun, hm | hm⟩
    · exact .inl (hsame hm)
    · have hu : k.command ≠ commandUnbind := by
        intro hu
        have hone := not_isLifecycleRequest_of_oneWay (h.oneWay k (List.mem_of_getElem? hk) hbegun)
        rw [hu] at hone
        cases hone
      exact .inl (hsame (hB.beginOutbound_same hb hm hu))
    · exact .inl (hsame (hm.trans (hB.cancelOutbound_same hb hbound)))
  | _ => cases hl

/-- **How a session leaves a bound state**: it is closed, one of its calls begins an unbind, or it takes up one of the peer. -/
theorem Steady.leaves (h : Steady config s) (hs : s.step label = some s') (hbound : isBoundState s.machine.state) :
    isBoundState s'.machine.state ∨ s'.machine.state = .closed ∨
    (s'.machine.localUnbindFrom ≠ .closed ∧ ∃ (i : Nat) (k : Call), s'.ledger.calls[i]? = some k ∧
      k.command = commandUnbind ∧ k.phase = .drawing 0) ∨
    ∃ pdu, label = .rx .go ∧ s.rx = .beginning pdu ∧ pdu.header.commandID = commandUnbind := by
  obtain ⟨bind, hb, hB⟩ := h.bound
  have hissues := h.issues hs hbound
  have hm := step_machine hs
  generalize s'.machine = m at hm hissues ⊢
  cases hm with
  | same => exact .inl hbound
  | beginOutbound hl | cancelOutbound _ hl => exact (hissues hl).imp_right fun h => .inr (.inl h)
  | completeOutbound => exact .inl (by rwa [hB.completeOutbound_same hbound])
  | @beginInbound pdu m hrx hi =>
    by_cases hu : pdu.header.commandID = commandUnbind
    · exact .inr (.inr (.inr ⟨pdu, rfl, hrx, hu⟩))
    · have hsame := hB.mirror.beginOutbound_same hb (StateMachine.beginInbound_mirror hi) hu
      exact .inl (by rwa [StateMachine.mirror_inj hsame])
  | completeInbound => exact .inl (by rwa [hB.completeInbound_same hbound])
  | cancelInbound => exact .inl (by rwa [hB.cancelInbound_same hb hbound])
  | close => exact .inr (.inl rfl)

end Steady

/-! ## Where the items go -/

section Items
variable {s s' : Session} {label : Label} {choice : TxChoice}

theorem terminate_ne_running (s : Session) (cause : Err) : (s.terminate cause).termination ≠ .running := by
  unfold Session.terminate
  split
  · exact nofun
  · assumption

/-- The label is one of the RX loop. -/
def Label.reads : Label → Bool
  | .frame _ | .rx _ => true
  | _ => false

theorem taskStep_rx_or_ends {o : Owner} (h : s.taskStep o = some s') : s'.rx = s.rx ∨ s'.termination ≠ .running := by
  obtain ⟨t, l, k, -, -, hm⟩ := taskStep_move h
  cases hm with
  | close => exact .inr (terminate_ne_running _ _)
  | _ => exact .inl rfl

theorem step_rx (hs : s.step label = some s') (hl : label.reads = false) : s'.rx = s.rx ∨ s'.termination ≠ .running := by
  cases label with
  | request command body waitWindow => cases hs; exact .inl rfl
  | call i arm => obtain ⟨k, -, -, h⟩ := step_call hs; exact .inl (by rw [callStep_scope h])
  | task o => exact taskStep_rx_or_ends hs
  | sendOneWay command body => cases hs; exact .inl rfl
  | send i arm => obtain ⟨k, -, h⟩ := step_send hs; exact .inl (by rw [sendStep_scope h])
  | frame | rx => cases hl
  | tx choice => exact .inl (by rw [txStep_scope hs])
  | expire call => obtain ⟨item, -, h⟩ := Option.bind_eq_some_iff.mp hs; cases h; exact .inl rfl
  | fire => exact .inl (by rw [fire_scope hs])
  | terminate cause => cases hs; exact .inl (by rw [terminate_eq])
  | term => exact .inl (by rw [termStep_scope hs])

theorem step_queue (hq : s.Queueing) (hs : s.step label = some s') (hl : ∀ choice, label ≠ .tx choice) :
    s'.tx = s.tx ∧ s.queue ⊆ s'.queue := by
  cases step_flow hq.oneWayItems hs with
  | rx hnext htx =>
    rcases hnext.queue_eq with he | ⟨item, next, -, he, -⟩ <;> rw [he]
    · exact ⟨htx, List.Subset.refl _⟩
    · exact ⟨htx, List.subset_append_left _ _⟩
  | tx hlabel =>
    obtain ⟨choice, rfl⟩ := hlabel
    exact absurd rfl (hl choice)
  | enter item _ _ hqueue _ _ htx => exact ⟨htx, by rw [hqueue]; exact List.subset_append_left _ _⟩
  | other _ hqueue _ htx => exact ⟨htx, by rw [hqueue]; exact List.Subset.refl _⟩

theorem step_wire (hq : s.Queueing) (hs : s.step label = some s') : s.wire ⊆ s'.wire := by
  cases step_flow hq.oneWayItems hs with
  | rx _ _ hwire | enter _ _ _ _ _ _ _ hwire | other _ _ _ _ hwire => rw [hwire]; exact List.Subset.refl _
  | tx _ hnext =>
    generalize s'.wire = wire at hnext ⊢
    generalize s'.machine = m, s'.tx.uncommitted ++ s'.queue = a, s'.tx.unwritten ++ s'.queue = b at hnext
    cases hnext with
    | write => exact List.subset_append_left _ _
    | keep | drop | commit | fail => exact List.Subset.refl _

/-- The answer to an unbind is not lost before the TX loop has acted on it, nor a request of the table before it is written. -/
structure Carries (s s' : Session) : Prop where
  closing : ∀ item ∈ s.unmarked, item.terminates → item ∈ s'.unmarked
  active : ∀ item ∈ s.tx.unwritten ++ s.queue, s.txItemActive item →
    item ∈ s'.tx.unwritten ++ s'.queue ∨ item.frame ∈ s'.wire

/-- **The TX loop loses no item** that matters, unless the session ends. -/
theorem txStep_carries (h : s.txStep choice = some s') : s'.termination ≠ .running ∨ s.Carries s' := by
  have hkeep {t : Session} (hm : s.unmarked = t.unmarked) (hw : s.tx.unwritten ++ s.queue = t.tx.unwritten ++ t.queue) :
      t.termination ≠ .running ∨ s.Carries t :=
    .inr ⟨fun item hi _ => hm ▸ hi, fun item hi _ => .inl (hw ▸ hi)⟩
  -- a request that is not in the table is dropped
  have hdrop {t : Session} {item : TxItem} {batch : List TxItem} (htx : s.tx = .checking item batch)
      (hactive : s.txItemActive item = false) (hm : t.unmarked = batch ++ s.queue)
      (hw : t.tx.unwritten ++ t.queue = batch ++ s.queue) : t.termination ≠ .running ∨ s.Carries t := by
    have hstays {item' : TxItem} (hi : item' ∈ batch ++ [item] ++ s.queue) (hactive' : s.txItemActive item') :
        item' ∈ batch ++ s.queue := by
      have hne : item' ≠ item := by
        rintro rfl
        rw [hactive] at hactive'
        cases hactive'
      simpa [hne] using hi
    refine .inr ⟨fun item' hi ht => ?_, fun item' hi hactive' => .inl ?_⟩
    · rw [unmarked, htx] at hi
      rw [hm]
      refine hstays hi ?_
      simp only [TxItem.terminates, Bool.and_eq_true, beq_iff_eq] at ht
      rw [Session.txItemActive, ht.1.1]
      rfl
    · rw [htx] at hi
      rw [hw]
      exact hstays hi hactive'
  -- the item is done with: it does not end the session
  have hdone {t : Session} {item : TxItem} {rest : List TxItem} (htx : s.tx = .finishing (item :: rest))
      (hne : item.terminates = false) (hq : t.queue = s.queue) (hm : t.tx.unmarked = rest) (hw : t.tx.unwritten = []) :
      t.termination ≠ .running ∨ s.Carries t := by
    refine .inr ⟨fun item' hi ht => ?_, fun item' hi _ => .inl ?_⟩
    · simp only [unmarked, htx, TxPhase.unmarked, List.cons_append, List.mem_cons] at hi
      rcases hi with rfl | hi
      · rw [hne] at ht; cases ht
      · rw [unmarked, hm, hq]; exact hi
    · rw [hw, hq]
      rwa [htx] at hi
  have hkind {item : TxItem} (hk : item.kind ≠ .response) : item.terminates = false := by simp [TxItem.terminates, hk]
  cases txStep_move h with
  | take htx hqueue => refine hkeep ?_ ?_ <;> simp only [unmarked, htx, hqueue] <;> rfl
  | gather htx hqueue => refine hkeep ?_ ?_ <;> simp [unmarked, htx, hqueue, TxPhase.unmarked, TxPhase.unwritten]
  | drop htx hactive | dropAll htx hactive => exact hdrop htx hactive rfl rfl
  | @write item rest batch htx =>
    refine .inr ⟨fun item' hi _ => ?_, fun item' hi _ => ?_⟩
    · rw [unmarked, htx] at hi
      exact hi
    · simp only [htx, TxPhase.unwritten, List.cons_append, List.mem_cons] at hi
      rcases hi with rfl | hi
      · exact .inr (List.mem_append_right _ List.mem_cons_self)
      · exact .inl hi
  | fail | unbound => exact .inl (terminate_ne_running _ _)
  | mark htx hk | completed htx hk | dispatched htx hk => exact hdone htx (hkind (by rw [hk]; intro h; cases h)) rfl rfl rfl
  | answered htx _ hends => exact hdone htx hends rfl rfl rfl
  | stop htx | accept htx | close htx | commit htx | committed htx | written htx | finish htx | schedule htx | skip htx
  | attach htx | detach htx => refine hkeep ?_ ?_ <;> simp only [unmarked, htx] <;> rfl

theorem step_carries (hq : s.Queueing) (hs : s.step label = some s') : s'.termination ≠ .running ∨ s.Carries s' := by
  by_cases hl : ∃ choice, label = .tx choice
  · obtain ⟨choice, rfl⟩ := hl
    exact txStep_carries hs
  · obtain ⟨htx, hqueue⟩ := step_queue hq hs fun choice hc => hl ⟨choice, hc⟩
    refine .inr ⟨fun item hi _ => ?_, fun item hi _ => .inl ?_⟩
    · rw [unmarked, htx]
      exact (List.mem_append.mp hi).elim (List.mem_append_left _) fun hi => List.mem_append_right _ (hqueue hi)
    · rw [htx]
      exact (List.mem_append.mp hi).elim (List.mem_append_left _) fun hi => List.mem_append_right _ (hqueue hi)

end Items

/-! ## A session that is going to be closed -/

/-- The machine is closed, or the session has begun to end, or will when an item that is on its way has been written. -/
inductive Down (s : Session) : Prop
  | closed (hc : s.machine.state = .closed)
  | ends (ht : s.termination ≠ .running)
  | answered {item : TxItem} (hi : item ∈ s.unmarked ++ s.rx.items) (ht : item.terminates)

section Down
variable {config : Config} {s s' : Session} {label : Label} {item : TxItem} {pdu : DecodedPDU}

theorem mem_rx_items {rx : RxPhase} (h : item ∈ rx.items) : ∃ next, rx = .queueing item next := by
  cases rx with
  | queueing item' next =>
    obtain rfl := List.mem_singleton.mp h
    exact ⟨next, rfl⟩
  | _ => cases h

/-- **Nothing stops a session that is going to be closed.** -/
theorem Down.step (h : s.Down) (hst : Steady config s) (hs : s.step label = some s') : s'.Down := by
  by_cases hrun : s'.termination = .running
  case neg => exact .ends hrun
  cases h with
  | closed hc =>
    exact .closed (step_keeps hs hc fun hm => hm.closed hc hst.valid)
  | ends ht => exact absurd (step_running hs hrun) ht
  | @answered item hi ht =>
    have hcarries := (step_carries hst.queueing hs).resolve_left (not_not.mpr hrun)
    rcases List.mem_append.mp hi with hi | hi
    · exact .answered (List.mem_append_left _ (hcarries.closing item hi ht)) ht
    · -- the RX loop has the item, and waits for room in the queue
      obtain ⟨next, hrx⟩ := mem_rx_items hi
      cases label with
      | frame frame =>
        rw [(step_frame hs).1] at hrx
        cases hrx
      | rx choice =>
        cases rxStep_move hs with
        | enqueue hrx' =>
          rw [hrx] at hrx'
          cases hrx'
          have hmem : item ∈ s.tx.unmarked ++ (s.queue ++ [item]) :=
            List.mem_append_right _ (List.mem_append_right _ List.mem_cons_self)
          exact .answered (List.mem_append_left _ hmem) ht
        | closed _ hdone => rw [show s.termination = .running from hrun] at hdone; cases hdone
        | begin hrx' | handle hrx' | cancel hrx' | fail hrx' | resume hrx' => rw [hrx] at hrx'; cases hrx'
      | _ =>
        have hsame := (step_rx hs rfl).resolve_right (not_not.mpr hrun)
        exact .answered (List.mem_append_right _ (hsame ▸ hi)) ht

theorem acceptBind_unbind (s : Session) (response : Response) (hu : pdu.header.commandID = commandUnbind) :
    s.acceptBind pdu response = (s, response.body) := by
  unfold acceptBind
  split
  · rw [hu, not_isBindRequest_unbind, Bool.and_false]
    rfl
  · rfl

theorem down_of_answers {cond : Bool} (hs : s.step (.rx .go) = some s') (hbound : isBoundState s.machine.state)
    (hrx : s.rx = .beginning pdu) (hu : pdu.header.commandID = commandUnbind) (hans : s.answers cond (.rx .go)) : s'.Down := by
  obtain ⟨item, hitem⟩ : ∃ item, s.queueResponse pdu.header (responseID commandUnbind) statusOK emptyBody true = .ok item := by
    simp only [answers, hrx, hu, bne_self_eq_false, Bool.false_or, Bool.and_eq_true] at hans
    cases hq : s.queueResponse pdu.header (responseID commandUnbind) statusOK emptyBody true with
    | ok item => exact ⟨item, rfl⟩
    | error err => rw [hq] at hans; cases hans.2
  have hs : s.rxStep .go = some s' := hs
  simp only [rxStep, hrx, Option.some.injEq] at hs
  subst hs
  have hbegin : s.beginInbound commandUnbind = .ok { s.machine with peerUnbindFrom := s.machine.state, state := .unbound } :=
    StateMachine.beginInbound_unbind hbound
  have hrx' : (s.beginRequest pdu).rx = .queueing item (.cancel commandUnbind) := by
    unfold beginRequest
    simp only [hu, hbegin]
    show (Session.answer _ pdu _).rx = _
    unfold answer
    rw [acceptBind_unbind _ _ hu, hu]
    simp only
    rw [queueResponse_congr (s := s) (by rfl), show isLifecycleRequest commandUnbind = true from rfl, hitem]
    rfl
  have hterminates : item.terminates := by
    obtain ⟨hkind, -, -, hto, hstatus, -⟩ := queueResponse_ok hitem
    rw [TxItem.terminates, hkind, hto, hu, hstatus]
    decide
  exact .answered (List.mem_append_right _ (by rw [hrx']; exact List.mem_cons_self)) hterminates

theorem Down.closed_of_quiet (h : s.Down) (hst : Steady config s) (hq : s.Quiet) : s.machine.state = .closed := by
  obtain ⟨-, hqueue, htx, hrx, -, hterm⟩ := hq
  cases h with
  | closed hc => exact hc
  | ends ht => exact hst.ended (by rw [hterm.resolve_left ht]; rfl)
  | answered hi =>
    rw [unmarked, hqueue] at hi
    rcases htx with htx | htx <;> rcases hrx with hrx | hrx <;> rw [htx, hrx] at hi <;> cases hi

end Down

/-! ## An unbind on its way to the connection -/

/-- The step may remove an entry of the table. -/
def Label.removes : Label → Bool
  | .call _ _ | .frame _ | .fire | .term => true
  | _ => false

theorem Ledger.Step.entry_aside {c : Config} {l l' : Ledger} {label : Label} {e : SequenceNumber × Nat} (h : l.Step c label l')
    (hl : label.removes = false) (he : e ∈ l.pending) : e ∈ l'.pending := by
  cases h.table with
  | same _ heq => exact heq ▸ he
  | insert | abandon | take | timeout | sweep => cases hl

section Entry
variable {config peer : Config} {s s' : Session} {label : Label} {i j : Nat} {k : Call} {arm : Arm} {x : SequenceNumber}

theorem holdsUnbind_of {cond : Call → Bool} (hl : s.ledger.pending.lookup x = some i) (hk : s.ledger.calls[i]? = some k)
    (hu : k.command = commandUnbind) (hcond : cond k) : s.holdsUnbind x cond := by
  simp [holdsUnbind, hl, hk, hu, hcond]

theorem holdsUnbind_any (hl : s.ledger.pending.lookup x = some i) (hk : s.ledger.calls[i]? = some k)
    (hu : k.command = commandUnbind) : s.holdsUnbind x fun _ => true := holdsUnbind_of hl hk hu rfl

theorem callStep_pending (h : s.callStep j k arm = some s') (hp : k.phase = .waiting ∨ ∃ frame, k.phase = .admitting frame)
    (harm : arm ≠ .ctx) : s'.ledger.pending = s.ledger.pending := by
  rcases hp with hp | ⟨frame, hp⟩
  · cases arm with
    | go =>
      simp only [callStep, hp, receive] at h
      split at h <;> cases h
      rfl
    | ctx => exact absurd rfl harm
    | done => simp only [callStep, hp] at h; cases h
  · cases arm with
    | go =>
      simp only [callStep, hp] at h
      obtain ⟨t, ht, h⟩ := Option.bind_eq_some_iff.mp h
      obtain ⟨-, rfl⟩ := enqueue_some ht
      cases h
      rfl
    | ctx => exact absurd rfl harm
    | done =>
      simp only [callStep, hp] at h
      split at h <;> cases h
      rfl

theorem callStep_entry (hst : Steady config s) (h : s.callStep j k arm = some s') (he : (x, i) ∈ s.ledger.pending) :
    (x, i) ∈ s'.ledger.pending ∨ s.ledger.pending.lookup k.sequence = some i ∧ (arm = .ctx ∨
      arm = .go ∧ k.phase = .encoding ∧ ∃ err, encodeFrame s.config.registry (requestHeader k) k.body = .error err) := by
  obtain ⟨t, q, hn, rfl⟩ := callStep_next h
  cases hn with
  | @giveUp _ err j' hp =>
    have hremove := Ledger.mem_remove hst.identified.conserved k.sequence (errorTask (.caller j) j' err []) he
    by_cases harm : arm = .ctx
    · exact hremove.imp_right fun hi => ⟨hi, .inl harm⟩
    · rcases hp with ⟨hp, herr⟩ | ⟨hp, -⟩
      · cases arm with
        | go => exact hremove.imp_right fun hi => ⟨hi, .inr ⟨rfl, hp, err, herr⟩⟩
        | ctx => exact absurd rfl harm
        | done => simp only [callStep, hp] at h; cases h
      · left
        rw [callStep_pending h hp harm]
        exact he
  | insert => exact .inl (List.mem_cons_of_mem _ he)
  | release =>
    left
    rw [Session.goto, Ledger.goto, Ledger.modify, Ledger.release_pending]
    exact he
  | _ => exact .inl he

theorem step_entry (hst : Steady config s) (hs : s.step label = some s') (hpatient : s.patient label)
    (hok : s.forwards peer label) (hk : s.ledger.calls[i]? = some k) (hu : k.command = commandUnbind) (hun : s.unsent k)
    (he : (x, i) ∈ s.ledger.pending) (hrun : s'.termination = .running) : (x, i) ∈ s'.ledger.pending := by
  cases label with
  | call j arm =>
    obtain ⟨kj, hkj, -, hc⟩ := step_call hs
    rcases callStep_entry hst hc he with he | ⟨hl, rfl | ⟨rfl, hp, err, herr⟩⟩
    · exact he
    · have hholds := holdsUnbind_any hl hk hu
      simp [patient, hkj, hholds] at hpatient
    · have hholds := holdsUnbind_any hl hk hu
      simp [forwards, hkj, admits, hp, herr, hholds] at hok
  | frame frame =>
    obtain ⟨-, -, rfl⟩ := step_frame hs
    unfold processFrame
    split
    · split
      · exact he
      · split <;> exact he
    · next pdu hd =>
      split
      · next hresp =>
        split
        · next l htake =>
          obtain ⟨i', k', -, -, -, rfl⟩ := Ledger.takeResponse_some htake
          rcases Ledger.mem_remove hst.identified.conserved _ (responseTask i' pdu) he with he | hl
          · exact he
          · have hholds := holdsUnbind_of hl hk hu hun
            simp [forwards, hd, hresp, htake, hholds] at hok
        · exact he
      · exact he
  | fire =>
    have hs : s.fire = some s' := hs
    unfold fire at hs
    split at hs
    · next item expired hexp =>
      split at hs
      · cases hs
        cases hcomplete : s.ledger.completeError .deadline item.sequence
            (.timeout (timeoutKindFor item.command) item.command item.sequence) [.cancel] with
        | none => exact he
        | some l =>
          obtain ⟨i', -, rfl⟩ := completeError_some hcomplete
          rcases Ledger.mem_remove hst.identified.conserved item.sequence (errorTask .deadline i' _ [.cancel]) he with he | hl
          · exact he
          · have hholds := holdsUnbind_any hl hk hu
            simp [patient, hexp, hholds] at hpatient
      · cases hs
    · cases hs
  | term => exact absurd hrun (termStep_ne_running hs)
  | _ => exact (step_ledger hs).entry_aside rfl he

end Entry

/-- The call is on its way to the connection with an unbind that the peer reads as one. -/
inductive Chases (peer : Config) (s : Session) (i : Nat) (k : Call) : Prop
  | drawing {n : Nat} (hp : k.phase = .drawing n)
  | inserting {n : Nat} (hp : k.phase = .inserting n)
  | encoding (hp : k.phase = .encoding) (he : (k.sequence, i) ∈ s.ledger.pending)
  | admitting {frame : Octets} (hp : k.phase = .admitting frame) (he : (k.sequence, i) ∈ s.ledger.pending)
      (hf : unbindTo peer frame)
  /-- its item is in the queue or in the batch of the TX loop -/
  | waiting {item : TxItem} (hp : k.phase = .waiting) (he : (k.sequence, i) ∈ s.ledger.pending)
      (hi : item ∈ s.tx.unwritten ++ s.queue) (hkind : item.kind = .request) (hseq : item.sequence = k.sequence)
      (hf : unbindTo peer item.frame)

/-- Some call is. -/
def Chasing (peer : Config) (s : Session) : Prop :=
  ∃ (i : Nat) (k : Call), s.ledger.calls[i]? = some k ∧ k.command = commandUnbind ∧ s.Chases peer i k

section Chases
variable {config peer : Config} {s s' : Session} {label : Label} {i : Nat} {k k' : Call} {arm : Arm}

theorem Steady.done_nil (hst : Steady config s) (hk : s.ledger.calls[i]? = some k) {x : SequenceNumber}
    (he : (x, i) ∈ s.ledger.pending) : k.done = [] := by
  have hc := hst.identified.conserved.call hk
  have hentries : 0 < s.ledger.entries i := List.countP_pos_iff.mpr ⟨(x, i), he, by simp⟩
  have := hc.once
  have := hc.entries
  have := hc.sent
  have := hc.done
  exact List.eq_nil_of_length_eq_zero (by omega)

theorem Chases.call (h : s.Chases peer i k) (hst : Steady config s) (hs : s.step (.call i arm) = some s')
    (hk : s.ledger.calls[i]? = some k) (hu : k.command = commandUnbind) (hpatient : s.patient (.call i arm))
    (hok : s.forwards peer (.call i arm)) (hrun : s'.termination = .running) : s'.Chasing peer := by
  obtain ⟨k₀, hk₀, -, hc⟩ := step_call hs
  cases hk.symm.trans hk₀
  have hgoto {l : Ledger} {f : Call → Call} (hl : l.calls = s.ledger.calls.modify i f) : l.calls[i]? = some (f k) := by
    rw [hl, Ledger.calls_modify hk, if_pos rfl]
  cases arm with
  | ctx => simp [patient, hk, hu] at hpatient
  | done =>
    have hd : s.termination.done = false := by rw [step_running hs hrun]; rfl
    cases h with
    | drawing hp | inserting hp | encoding hp | admitting hp | waiting hp => simp [callStep, hp, hd] at hc
  | go =>
    have hadmits : s.admits peer k := by simpa [forwards, hk] using hok
    cases h with
    | @drawing n hp =>
      simp only [callStep, hp, Option.some.injEq] at hc
      subst hc
      exact ⟨i, _, hgoto rfl, hu, .inserting rfl⟩
    | @inserting n hp =>
      simp only [admits, hp, hu, bne_self_eq_false, Bool.false_or, Bool.and_eq_true, Bool.or_eq_true, decide_eq_true_eq,
        Option.isNone_iff_eq_none] at hadmits
      simp only [callStep, hp, Option.some.injEq] at hc
      rcases s.ledger.insert_cases s.config.maxPending k.sequence i with ⟨-, -, he⟩ | ⟨j, -, hj, he⟩ | ⟨hle, -⟩
      · rw [he] at hc
        subst hc
        refine ⟨i, _, hgoto (l := (s.ledger.inserted k.sequence i).goto i .encoding) (List.modify_modify_eq ..), hu, ?_⟩
        exact .encoding rfl List.mem_cons_self
      · -- the number is in use, and another one is drawn
        have hn : n < s.config.maxPending := hadmits.2.resolve_left (by rw [hj]; exact nofun)
        rw [he] at hc
        simp only [hn, if_true] at hc
        subst hc
        exact ⟨i, _, hgoto rfl, hu, .drawing rfl⟩
      · exact absurd hadmits.1 (Nat.not_lt.mpr hle)
    | encoding hp he =>
      simp only [callStep, hp, Option.some.injEq] at hc
      simp only [admits, hp] at hadmits
      cases hframe : encodeFrame s.config.registry (requestHeader k) k.body with
      | ok frame =>
        simp only [hframe] at hc
        simp only [hframe, hu, bne_self_eq_false, Bool.false_or] at hadmits
        subst hc
        exact ⟨i, _, hgoto rfl, hu, .admitting rfl he hadmits⟩
      | error err =>
        -- the unbind itself would be found under its number
        have hholds := holdsUnbind_any (lookup_of_mem hst.identified.conserved.keys he) hk hu
        simp only [hframe, hholds] at hadmits
        cases hadmits
    | @admitting frame hp he hf =>
      simp only [callStep, hp] at hc
      obtain ⟨t, ht, hc⟩ := Option.bind_eq_some_iff.mp hc
      obtain ⟨-, rfl⟩ := enqueue_some ht
      cases hc
      refine ⟨i, _, hgoto rfl, hu,
        .waiting rfl he (List.mem_append_right _ (List.mem_append_right _ List.mem_cons_self)) ?_ ?_ ?_⟩
      · rfl
      · rfl
      · exact hf
    | waiting hp he =>
      simp only [callStep, hp, receive, hst.done_nil hk he] at hc
      cases hc

theorem Chases.aside (h : s.Chases peer i k) (hst : Steady config s) (ho : k'.Keeps k) (hcarries : s.Carries s')
    (hentry : s.unsent k → (k.sequence, i) ∈ s.ledger.pending → (k.sequence, i) ∈ s'.ledger.pending) :
    s'.Chases peer i k' ∨ ∃ frame ∈ s'.wire, unbindTo peer frame := by
  obtain ⟨-, -, hphase, hseq'⟩ := ho
  rw [← hseq'] at hentry
  cases h with
  | drawing hp => exact .inl (.drawing (hphase.trans hp))
  | inserting hp => exact .inl (.inserting (hphase.trans hp))
  | encoding hp he =>
    have hun : s.unsent k := by simp [unsent, hp]
    exact .inl (.encoding (hphase.trans hp) (hentry hun (hseq' ▸ he)))
  | admitting hp he hf =>
    have hun : s.unsent k := by simp [unsent, hp]
    exact .inl (.admitting (hphase.trans hp) (hentry hun (hseq' ▸ he)) hf)
  | @waiting item hp he hi hkind hseq hf =>
    have hun : s.unsent k := by
      rw [unsent, Bool.or_eq_true]
      exact .inr (List.any_eq_true.mpr ⟨item, hi, by simp [hkind, hseq]⟩)
    have hactive : s.txItemActive item := by
      rw [Session.txItemActive, Ledger.exists, hseq, lookup_of_mem hst.identified.conserved.keys he, Option.isSome_some,
        Bool.or_true]
    rcases hcarries.active item hi hactive with hi | hw
    · exact .inl (.waiting (hphase.trans hp) (hentry hun (hseq' ▸ he)) hi hkind (hseq.trans hseq'.symm) hf)
    · exact .inr ⟨item.frame, hw, hf⟩

/-- **An unbind that has begun gets to the connection**, or its session ends. -/
theorem Chasing.step (h : s.Chasing peer) (hst : Steady config s) (hs : s.step label = some s') (hpatient : s.patient label)
    (hok : s.forwards peer label) : s'.Chasing peer ∨ (∃ frame ∈ s'.wire, unbindTo peer frame) ∨ s'.Down := by
  by_cases hrun : s'.termination = .running
  case neg => exact .inr (.inr (.ends hrun))
  obtain ⟨i, k, hk, hu, h⟩ := h
  rcases (step_ledger hs).own hk with ⟨arm, rfl⟩ | ⟨k', hk', ho⟩
  · exact .inl (h.call hst hs hk hu hpatient hok hrun)
  · have hcarries := (step_carries hst.queueing hs).resolve_left (not_not.mpr hrun)
    have hcommand : k'.command = commandUnbind := ho.command.trans hu
    rcases h.aside hst ho hcarries fun hun he => step_entry hst hs hpatient hok hk hu hun he hrun with h | hw
    · exact .inl ⟨i, k', hk', hcommand, h⟩
    · exact .inr (.inl hw)

end Chases

/-! ## A session that has not begun to unbind -/

/-- The call is before `BeginOutbound`. -/
def Phase.unbegun : Phase → Bool
  | .checking | .entering | .acquiring | .awaitingSlot | .beginning => true
  | _ => false

/-- The session is bound, and its calls of `Unbind` from the `n`-th call on have not begun one. -/
structure Unbegun (n : Nat) (s : Session) : Prop where
  bound : isBoundState s.machine.state
  calls : ∀ (i : Nat) (k : Call), n ≤ i → s.ledger.calls[i]? = some k → k.command = commandUnbind → k.waitWindow → k.phase.unbegun

section Unbegun
variable {config : Config} {s s' t : Session} {label : Label} {i n : Nat} {k k' : Call} {arm : Arm} {q : Phase}

theorem requestError_unbind (s : Session) (hu : k.command = commandUnbind) : s.requestError k = none := by
  unfold Session.requestError
  rw [hu]
  rfl

theorem Ledger.CallStep.waitWindow {c : Config} {l l' : Ledger} (h : Ledger.CallStep c l l' label i k k') :
    k'.waitWindow = k.waitWindow := by
  cases h with
  | same hs | leave _ _ _ _ hs => rw [hs]
  | _ => rfl

theorem CallNext.unbegun (h : CallNext s i k arm t q) (hp : k.phase.unbegun) (hu : k.command = commandUnbind)
    (hw : k.waitWindow) (harm : arm ≠ .ctx) (hd : s.termination.done = false) (hbound : isBoundState s.machine.state) :
    q.unbegun ∨ isBoundState t.machine.state = false := by
  have hpast {p : Phase} (hp' : k.phase = p) (hq : p.unbegun = false) : False := by
    rw [hp', hq] at hp
    cases hp
  cases h with
  | check | enter | acquire | await => exact .inl rfl
  | refuse _ he => rw [requestError_unbind s hu] at he; cases he
  | closed _ hdone | slotDone _ hdone => rw [hd] at hdone; cases hdone
  | full _ hw' => rw [hw] at hw'; cases hw'
  | slotCtx => exact absurd rfl harm
  | beginError _ he => rw [hu, StateMachine.beginOutbound_unbind hbound] at he; cases he
  | begin _ hm =>
    right
    rw [hu, StateMachine.beginOutbound_unbind hbound] at hm
    cases hm
    rfl
  | draw hp' | insert hp' | retry hp' | exhausted hp' | overfull hp' | encode hp' | unencodable hp' | enqueue hp' | admitDone hp'
  | cancel hp' | release hp' => exact (hpast hp' rfl).elim
  | receive hp' => exact (hp'.elim (hpast · rfl) (hpast · rfl)).elim
  | overtaken hp' => exact (hp'.elim (hpast · rfl) fun ⟨frame, hp'⟩ => hpast hp' rfl).elim
  | giveUp hp' => rcases hp' with ⟨hp', -⟩ | ⟨hp' | ⟨frame, hp'⟩, -⟩ <;> exact (hpast hp' rfl).elim

/-- **A session that has not begun to unbind** begins, has taken up an unbind, or stays as it is. -/
theorem Unbegun.step (h : s.Unbegun n) (peer : Config) (hst : Steady config s) (hs : s.step label = some s')
    (hpatient : s.patient label) (hans : s.answers false label) : s'.Unbegun n ∨ s'.Chasing peer ∨ s'.Down := by
  by_cases hrun : s'.termination = .running
  case neg => exact .inr (.inr (.ends hrun))
  have hd : s.termination.done = false := by rw [step_running hs hrun]; rfl
  rcases hst.leaves hs h.bound with hbound | hclosed | ⟨-, i, k, hk, hu, hp⟩ | ⟨pdu, rfl, hrx, hu⟩
  · refine .inl ⟨hbound, fun i k' hi hk' hu hw => ?_⟩
    rcases step_caller hs hk' with ⟨command, body, w, -, rfl⟩ | ⟨k, hk, hown⟩
    · rfl
    · obtain ⟨k₁, hk₁, hstep⟩ := (step_ledger hs).call hst.identified.conserves hk
      cases hk'.symm.trans hk₁
      rw [hstep.waitWindow] at hw
      rcases hown with ho | ⟨arm, t, q, rfl, hn, rfl, ho⟩
      · rw [ho.phase]
        exact h.calls i k hi hk (ho.command ▸ hu) hw
      · have hu : k.command = commandUnbind := ho.command ▸ hu
        have harm : arm ≠ .ctx := by
          rintro rfl
          simp [patient, hk, hu] at hpatient
        rw [ho.phase]
        refine (hn.unbegun (h.calls i k hi hk hu hw) hu hw harm hd h.bound).resolve_right ?_
        rw [show t.machine = (t.goto i q).machine from rfl, hbound]
        intro h
        cases h
  · exact .inr (.inr (.closed hclosed))
  · exact .inr (.inl ⟨i, k, hk, hu, .drawing hp⟩)
  · exact .inr (.inr (down_of_answers hs h.bound hrx hu hans))

/-- The unbind that is in progress is the machine's own. -/
abbrev StateMachine.OwnUnbind (m : StateMachine) : Prop := m.state = .unbound → m.localUnbindFrom ≠ .closed

theorem Steady.unbinding_step (hst : Steady config s) (hs : s.step label = some s') {cond : Bool} (hans : s.answers cond label)
    (h : s.machine.OwnUnbind) : s'.machine.OwnUnbind ∨ s'.Down := by
  obtain ⟨bind, hb, hB⟩ := hst.bound
  rcases hB.state with hstate | hstate | hstate
  · have hbound : isBoundState s.machine.state := by rw [hstate]; exact isBoundState_boundStateForBind hb
    rcases hst.leaves hs hbound with hbound' | hclosed | ⟨hl, -⟩ | ⟨pdu, rfl, hrx, hu⟩
    · exact .inl fun hu => absurd hu (StateMachine.isBoundState_cases hbound').1
    · exact .inr (.closed hclosed)
    · exact .inl fun _ => hl
    · exact .inr (down_of_answers hs hbound hrx hu hans)
  · rcases (step_machine hs).step with hm | hm
    · rw [hm]; exact .inl h
    · rcases hB.unbound_step hb hm hstate with he | hne
      · rw [he]; exact .inl h
      · exact .inl fun hu => absurd hu hne
  · exact .inr ((Down.closed hstate).step hst hs)

end Unbegun

/-! ## Both sessions -/

/-- An unbind of `side` is on its way to the state machine of its peer. -/
def Pursued (peer : Config) (side : Side) (p : Pair Session) : Prop :=
  (p.get side).Chasing peer ∨ (∃ frame ∈ (p.get side).wire, unbindTo peer frame) ∨
    ∃ pdu, (p.get side.other).rx = .beginning pdu ∧ pdu.header.commandID = commandUnbind

/-- What holds of the two sessions: one of them is going to be closed, or the unbind of `side` is on its way to its peer, or
`side` has not begun one. -/
def Unbinds (config : Side → Config) (side : Side) (n : Nat) (p : Pair Session) : Prop :=
  (∃ who, (p.get who).Down) ∨
    (p.get side.other).machine.OwnUnbind ∧ (Pursued (config side.other) side p ∨ (p.get side).Unbegun n)

section Unbinds
variable {config : Side → Config} {peer : Config} {side : Side} {n : Nat} {s s' : Session} {frame : Octets}

theorem frame_unbind (hs : s.step (.frame frame) = some s') (hf : unbindTo s.config frame) :
    ∃ pdu, s'.rx = .beginning pdu ∧ pdu.header.commandID = commandUnbind := by
  obtain ⟨-, -, rfl⟩ := step_frame hs
  unfold unbindTo at hf
  unfold processFrame
  split at hf
  · next pdu hd =>
    simp only [Bool.and_eq_true, beq_iff_eq] at hf
    obtain ⟨⟨hu, hvalid⟩, hknown⟩ := hf
    refine ⟨pdu, ?_, hu⟩
    simp only [hd, hu, show isResponse commandUnbind = false from rfl, Bool.false_eq_true, if_false]
    unfold checkRequest
    rw [hvalid, hu, Option.isNone_eq_false_iff.mpr hknown]
    rfl
  · cases hf

theorem Down.read (h : s.Down) (wire : List Octets) : Down { s with wire } := by
  cases h with
  | closed hc => exact .closed hc
  | ends ht => exact .ends ht
  | answered hi ht => exact .answered (s := { s with wire }) hi ht

theorem Chasing.read (h : s.Chasing peer) (wire : List Octets) : Chasing peer { s with wire } := by
  obtain ⟨i, k, hk, hu, h⟩ := h
  refine ⟨i, k, hk, hu, ?_⟩
  cases h with
  | drawing hp => exact .drawing hp
  | inserting hp => exact .inserting hp
  | encoding hp he => exact .encoding hp he
  | admitting hp he hf => exact .admitting hp he hf
  | waiting hp he hi hkind hseq hf => exact .waiting hp he hi hkind hseq hf

theorem Steady.takes_up {c : Config} {label : Label} {pdu : DecodedPDU} (hst : Steady c s) (hs : s.step label = some s')
    (hans : s.answers s.unbinding label) (hown : s.machine.OwnUnbind) (hrx : s.rx = .beginning pdu)
    (hu : pdu.header.commandID = commandUnbind) :
    (∃ pdu, s'.rx = .beginning pdu ∧ pdu.header.commandID = commandUnbind) ∨ s'.Down := by
  cases label with
  | frame frame =>
    rw [(step_frame hs).1] at hrx
    cases hrx
  | rx choice =>
    cases choice with
    | go =>
      right
      obtain ⟨bind, hb, hB⟩ := hst.bound
      rcases hB.state with hstate | hstate | hstate
      · have hbound : isBoundState s.machine.state := by rw [hstate]; exact isBoundState_boundStateForBind hb
        exact down_of_answers hs hbound hrx hu hans
      · have hunbinding : s.unbinding := by simp [unbinding, hstate, hown hstate]
        simp [answers, hrx, hu, hunbinding] at hans
      · exact (Down.closed hstate).step hst hs
    | done | handled =>
      have hs : s.rxStep _ = some s' := hs
      simp only [rxStep, hrx] at hs
      cases hs
  | _ =>
    rcases step_rx hs rfl with he | ht
    · exact .inl ⟨pdu, he.trans hrx, hu⟩
    · exact .inr (.ends ht)

variable {p p' : Pair Session} {label : LinkLabel Label}

theorem linked_step (hs : linked.step p label = some p') (hpatient : Patient p label) (hok : Unstopped side p label) :
    ∃ mover l wire, (p.get mover).step l = some (p'.get mover) ∧ p'.get mover.other = { p.get mover.other with wire } ∧
      (p.get mover).patient l ∧ unstopped side p mover l ∧
      ∀ frame ∈ (p.get mover.other).wire, frame ∈ wire ∨ l = .frame frame := by
  obtain ⟨mover, l, hst, ⟨rfl, -, ho⟩ | ⟨message, rest, rfl, rfl, hsent, ho⟩⟩ := Port.link_step hs
  · exact ⟨mover, l, (p.get mover.other).wire, hst, ho, hpatient, hok, fun frame hf => .inl hf⟩
  · have hsent : (p.get mover.other).wire = message :: rest := hsent
    refine ⟨mover, .frame message, rest, hst, ho, rfl, ?_, fun frame hf => ?_⟩
    · have hok : ((p.get mover.other).wire.head?.all fun frame => unstopped side p mover (.frame frame)) = true := hok
      rw [hsent] at hok
      exact hok
    · rw [hsent] at hf
      rcases List.mem_cons.mp hf with rfl | hf
      · exact .inr rfl
      · exact .inl hf

theorem Unbinds.own_step {l : Label} {wire : List Octets} (hst : ∀ who, Steady (config who) (p.get who))
    (hs : (p.get side).step l = some (p'.get side)) (ho : p'.get side.other = { p.get side.other with wire })
    (hpatient : (p.get side).patient l) (hok : unstopped side p side l) (hown : (p.get side.other).machine.OwnUnbind)
    (h : Pursued (config side.other) side p ∨ (p.get side).Unbegun n) : Unbinds config side n p' := by
  rw [unstopped, if_pos rfl, (hst side.other).identified.configured, Bool.and_eq_true] at hok
  have hown' : (p'.get side.other).machine.OwnUnbind := by rw [ho]; exact hown
  rcases h with (h | ⟨frame, hf, hto⟩ | ⟨pdu, hrx, hu⟩) | h
  · rcases h.step (hst side) hs hpatient hok.1 with h | h | h
    · exact .inr ⟨hown', .inl (.inl h)⟩
    · exact .inr ⟨hown', .inl (.inr (.inl h))⟩
    · exact .inl ⟨side, h⟩
  · exact .inr ⟨hown', .inl (.inr (.inl ⟨frame, step_wire (hst side).queueing hs hf, hto⟩))⟩
  · exact .inr ⟨hown', .inl (.inr (.inr ⟨pdu, by rw [ho]; exact hrx, hu⟩))⟩
  · rcases h.step (config side.other) (hst side) hs hpatient hok.2 with h | h | h
    · exact .inr ⟨hown', .inr h⟩
    · exact .inr ⟨hown', .inl (.inl h)⟩
    · exact .inl ⟨side, h⟩

theorem Unbinds.peer_step {l : Label} {wire : List Octets} (hst : ∀ who, Steady (config who) (p.get who))
    (hs : (p.get side.other).step l = some (p'.get side.other)) (ho : p'.get side = { p.get side with wire })
    (hwire : ∀ frame ∈ (p.get side).wire, frame ∈ wire ∨ l = .frame frame) (hok : unstopped side p side.other l)
    (hown : (p.get side.other).machine.OwnUnbind)
    (h : Pursued (config side.other) side p ∨ (p.get side).Unbegun n) : Unbinds config side n p' := by
  rw [unstopped, if_neg (by cases side <;> exact nofun)] at hok
  rcases (hst side.other).unbinding_step hs hok hown with hown' | hdown
  case inr => exact .inl ⟨side.other, hdown⟩
  rcases h with (h | ⟨frame, hf, hto⟩ | ⟨pdu, hrx, hu⟩) | h
  · exact .inr ⟨hown', .inl (.inl (by rw [ho]; exact h.read wire))⟩
  · rcases hwire frame hf with hf | rfl
    · exact .inr ⟨hown', .inl (.inr (.inl ⟨frame, by rw [ho]; exact hf, hto⟩))⟩
    · rw [← (hst side.other).identified.configured] at hto
      exact .inr ⟨hown', .inl (.inr (.inr (frame_unbind hs hto)))⟩
  · rcases (hst side.other).takes_up hs hok hown hrx hu with h | h
    · exact .inr ⟨hown', .inl (.inr (.inr h))⟩
    · exact .inl ⟨side.other, h⟩
  · refine .inr ⟨hown', .inr ?_⟩
    rw [ho]
    exact ⟨h.bound, h.calls⟩

theorem Unbinds.step (h : Unbinds config side n p) (hst : ∀ who, Steady (config who) (p.get who)) (hpatient : Patient p label)
    (hok : Unstopped side p label) (hs : linked.step p label = some p') : Unbinds config side n p' := by
  obtain ⟨mover, l, wire, hstep, ho, hpatient, hok, hwire⟩ := linked_step hs hpatient hok
  rcases h with ⟨who, h⟩ | ⟨hown, h⟩
  · refine .inl ⟨who, ?_⟩
    rcases mover.eq_or_other who with rfl | rfl
    · exact h.step (hst _) hstep
    · rw [ho]
      exact h.read wire
  · rcases mover.eq_or_other side with rfl | rfl
    · exact Unbinds.own_step hst hstep ho hpatient hok hown h
    · have hok : unstopped mover.other p mover.other.other l := by rw [Side.other_other]; exact hok
      rw [← Side.other_other mover] at hstep
      exact Unbinds.peer_step hst hstep ho hwire hok hown h

theorem steady_of_bound {c : Config} (h : Regular c s) (hq : s.Queueing) (hb : isBoundState s.machine.state) : Steady c s := by
  refine ⟨h, hq, ?_⟩
  rcases h.valid with hf | hbound
  · rcases hf.state with ho | ho <;> rw [ho] at hb <;> cases hb
  · exact hbound

/-- **Unbinds that do not cross end a session.** An ESME and an SMSC, with any configurations, are both bound, and then
both call `Unbind`, and neither call is cancelled or times out. If the peer of one of them does not take up its unbinds while
its own is in progress, and nothing keeps them from the connection, then once both calls have returned and every message has
been delivered, one of the two is not bound. -/
theorem run_unbinds {esme smsc : Config} {p₀ p : Pair Session} (side : Side) (h₀ : linked.Run anyStep (newPair esme smsc) p₀)
    (hbound : ∀ who, isBoundState (p₀.get who).machine.state)
    (h : linked.Run (fun p label => Patient p label ∧ Unstopped side p label) p₀ p)
    (hreturned : ∀ who, Returned (p₀.get who) (p.get who)) (hquiet : ∀ who, (p.get who).Quiet) :
    ∃ who, isBoundState (p.get who).machine.state = false := by
  let config : Side → Config := Pair.get ⟨esme, smsc⟩
  have hregular : ∀ who, Regular (config who) (p₀.get who) ∧ (p₀.get who).Queueing := by
    refine Port.run_each (P := fun who s => Regular (config who) s ∧ s.Queueing) (fun who s l s' hs h => ?_)
      (fun who s rest h => ?_) h₀ fun who => ?_
    · exact ⟨h.1.step hs, h.2.step hs⟩
    · exact ⟨h.1.read rest, h.2.oneWayItems, h.2.answers⟩
    · cases who with
      | left => exact ⟨regular_new esme .esme, queueing_new esme .esme⟩
      | right => exact ⟨regular_new smsc .smsc, queueing_new smsc .smsc⟩
  have hst₀ : ∀ who, Steady (config who) (p₀.get who) := fun who =>
    steady_of_bound (hregular who).1 (hregular who).2 (hbound who)
  obtain ⟨hst, hunbinds⟩ : (∀ who, Steady (config who) (p.get who)) ∧
      Unbinds config side (p₀.get side).ledger.calls.length p := by
    refine h.invariant (P := fun p => (∀ who, Steady (config who) (p.get who)) ∧
      Unbinds config side (p₀.get side).ledger.calls.length p) (fun p label p' hok hs h => ⟨?_, ?_⟩) ⟨hst₀, ?_⟩
    · have hrun : linked.Run anyStep p p' := .tail (.refl p) trivial hs
      exact Port.run_each (P := fun who s => Steady (config who) s) (fun who s l s' hs h => h.step hs)
        (fun who s rest h => h.read rest) hrun h.1
    · exact h.2.step h.1 hok.1 hok.2 hs
    · refine .inr ⟨fun hu => absurd hu (StateMachine.isBoundState_cases (hbound _)).1, .inr ⟨hbound side, fun i k hi hk => ?_⟩⟩
      exact absurd (List.getElem?_eq_some_iff.mp hk).1 (Nat.not_lt.mpr hi)
  have hover {i : Nat} {k : Call} (hk : (p.get side).ledger.calls[i]? = some k) (hu : k.command = commandUnbind) :
      k.phase.over := (hreturned side).2 k (List.mem_of_getElem? hk) hu
  obtain ⟨hwire, hqueue, htx, -⟩ := hquiet side
  obtain ⟨-, -, -, hrx, -⟩ := hquiet side.other
  rcases hunbinds with ⟨who, hdown⟩ | ⟨-, (⟨i, k, hk, hu, h⟩ | ⟨frame, hf, -⟩ | ⟨pdu, hrx', -⟩) | h⟩
  · refine ⟨who, ?_⟩
    rw [hdown.closed_of_quiet (hst who) (hquiet who)]
    rfl
  · have ho := hover hk hu
    cases h with
    | drawing hp | inserting hp | encoding hp | admitting hp | waiting hp => rw [hp] at ho; cases ho
  · rw [hwire] at hf
    cases hf
  · rcases hrx with hrx | hrx <;> rw [hrx'] at hrx <;> cases hrx
  · obtain ⟨k, hk, hu, hw⟩ := (hreturned side).1
    obtain ⟨i, hi⟩ := List.getElem?_of_mem hk
    rw [List.getElem?_drop] at hi
    have hunbegun := h.calls _ k (Nat.le_add_right _ _) hi hu hw
    have ho := hover hi hu
    cases hp : k.phase <;> rw [hp] at hunbegun ho <;> cases hunbegun <;> cases ho

/-- The ESME binds, and both sessions have done what there is to do. -/
def bothBound : List (LinkLabel Label) :=
  List.flatten [acceptsBind, acts .left (List.replicate 3 (.task .rx)), acts .left [.call 0 .go],
    acts .right (List.replicate 2 (.tx .go))]

/-- The `i`-th call of the endpoint is an `Unbind`, up to its frame on the connection. -/
def unbindsOn (side : Side) (i : Nat) : List (LinkLabel Label) :=
  List.flatten [acts side [.request commandUnbind emptyBody true], acts side (List.replicate 8 (.call i .go)),
    acts side (List.replicate 11 (.tx .go))]

/-- The SMSC takes up the unbind of the ESME, is asked to unbind itself, which it refuses, answers and closes; then the
ESME takes the answer and closes. -/
def unbindsInTurn : List (LinkLabel Label) :=
  List.flatten [unbindsOn .left 1, [.deliver .right], acts .right (List.replicate 2 (.rx .go)),
    acts .right [.request commandUnbind emptyBody true], acts .right (List.replicate 5 (.call 0 .go)),
    acts .right (List.replicate 8 (.tx .go)), acts .right (List.replicate 4 .term),
    [.deliver .left], acts .left (List.replicate 7 (.task .rx)), acts .left (List.replicate 4 .term),
    acts .left [.rx .go, .call 1 .go, .tx .stop]]

theorem run_unbinds_inTurn : ∃ p₀ p, linked.Run anyStep (newPair {} { handler := true }) p₀ ∧
    linked.Run (fun p label => Patient p label ∧ Unstopped .left p label) p₀ p ∧
    ∃ who, isBoundState (p.get who).machine.state = false := by
  let p₀ := linked.after anyStep (newPair {} { handler := true }) bothBound
  let p := linked.after (fun p label => Patient p label ∧ Unstopped .left p label) p₀ unbindsInTurn
  have h₀ : linked.Run anyStep (newPair {} { handler := true }) p₀ :=
    System.run_after linked anyStep (newPair {} { handler := true }) bothBound (by decide +kernel)
  have h : linked.Run (fun p label => Patient p label ∧ Unstopped .left p label) p₀ p :=
    System.run_after linked _ p₀ unbindsInTurn (by decide +kernel)
  have hends : ∀ who ∈ [Side.left, .right], isBoundState (p₀.get who).machine.state ∧ Returned (p₀.get who) (p.get who) ∧
      (p.get who).Quiet := by decide +kernel
  have hmem (who : Side) : who ∈ [Side.left, .right] := by cases who <;> decide
  exact ⟨p₀, p, h₀, h, run_unbinds .left h₀ (fun who => (hends who (hmem who)).1) h (fun who => (hends who (hmem who)).2.1)
    fun who => (hends who (hmem who)).2.2⟩

/-- The endpoint takes up the unbind of its peer, and refuses it. -/
def refusesUnbind (side : Side) : List (LinkLabel Label) :=
  List.flatten [[.deliver side], acts side (List.replicate 2 (.rx .go)), acts side (List.replicate 9 (.tx .go))]

/-- The endpoint takes the answer to its unbind, and its `i`-th call returns. -/
def completesUnbind (side : Side) (i : Nat) : List (LinkLabel Label) :=
  List.flatten [[.deliver side], acts side (List.replicate 7 (.task .rx)), acts side [.call i .go]]

def crossing : List (LinkLabel Label) :=
  List.flatten [unbindsOn .left 1, unbindsOn .right 0, refusesUnbind .left, refusesUnbind .right, completesUnbind .left 1,
    completesUnbind .right 0]

/-- Both calls have returned, every message has been delivered, and both endpoints are back in a bound state. -/
theorem crossing_bound : ∃ p₀ p, linked.Run anyStep (newPair {} { handler := true }) p₀ ∧
    (∀ who, isBoundState (p₀.get who).machine.state) ∧ linked.Run Patient p₀ p ∧
    (∀ who, Returned (p₀.get who) (p.get who)) ∧ (∀ who, (p.get who).Quiet) ∧
    ∀ who, isBoundState (p.get who).machine.state := by
  let p₀ := linked.after anyStep (newPair {} { handler := true }) bothBound
  let p := linked.after Patient p₀ crossing
  have h₀ : linked.Run anyStep (newPair {} { handler := true }) p₀ :=
    System.run_after linked anyStep (newPair {} { handler := true }) bothBound (by decide +kernel)
  have h : linked.Run Patient p₀ p := System.run_after linked Patient p₀ crossing (by decide +kernel)
  have hends : ∀ who ∈ [Side.left, .right], isBoundState (p₀.get who).machine.state ∧ Returned (p₀.get who) (p.get who) ∧
      (p.get who).Quiet ∧ isBoundState (p.get who).machine.state := by decide +kernel
  have hmem (who : Side) : who ∈ [Side.left, .right] := by cases who <;> decide
  exact ⟨p₀, p, h₀, fun who => (hends who (hmem who)).1, h, fun who => (hends who (hmem who)).2.1,
    fun who => (hends who (hmem who)).2.2.1, fun who => (hends who (hmem who)).2.2.2⟩

end Unbinds

end GoSmpp.Session
