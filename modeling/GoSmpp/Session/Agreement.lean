import GoSmpp.Lib.Link
import GoSmpp.Session.Frames

/-!
# Two sessions agree on the bind

An ESME session and an SMSC session, joined by a FIFO channel in each direction. The SMSC takes the state of a bind when
its TX loop commits the response, before it is written, and the ESME when its RX loop has found the request of the response.

* `linked`: the two sessions as one system.
* `binds`: the binds of the peer that the machine has accepted and whose answer has not been committed. `Pledge`: what a
  step does to them and to the reservation of the machine.
* `Pledged`: the SMSC's half: a frame that accepts a bind is on the connection only if the machine is `Agreed` on it.
* `run_agreement`: if the ESME is bound, the SMSC is bound in the same mode, unbound or closed, as long as the refusal of a
  bind is not committed while another one of the same command is reserved.
* `crossesBinds`: where it is, the reservation is lost, and the ESME is bound alone.
-/

namespace GoSmpp.Session
open Lib Protocol Codec

/-! ## The two sessions -/

def port : Port Session Label Octets where
  step := step
  sent s := s.wire
  setSent s wire := { s with wire }
  receive := .frame
  receives
    | .frame _ => true
    | _ => false

/-- An ESME session on the left and an SMSC session on the right. -/
def linked : System (Pair Session) (LinkLabel Label) := port.link

def newPair (esme smsc : Config) : Pair Session := ⟨new esme .esme, new smsc .smsc⟩

/-! ## The reservation of the SMSC -/

/-- The machine is past the bind, or closed. -/
def Agreed (m : StateMachine) (bind : CommandID) : Prop := m.Bound bind ∨ m.state = .closed

namespace StateMachine
variable {m m' : StateMachine} {command bind : CommandID} {status : CommandStatus}

theorem beginOutbound_peer (h : m.beginOutbound command = .ok m') : m'.pendingPeerBind = m.pendingPeerBind := by
  obtain ⟨-, ⟨-, -, rfl⟩ | ⟨-, rfl⟩ | ⟨-, rfl⟩ | ⟨-, rfl⟩⟩ := beginOutbound_ok h <;> rfl

theorem cancelOutbound_peer (m : StateMachine) (command : CommandID) :
    (m.cancelOutbound command).pendingPeerBind = m.pendingPeerBind := by
  unfold cancelOutbound
  simp only
  split <;> split <;> split <;> rfl

theorem completeOutbound_peer (m : StateMachine) (command : CommandID) (status : CommandStatus) :
    (m.completeOutbound command status).pendingPeerBind = m.pendingPeerBind := by
  unfold completeOutbound
  split
  · split <;> rfl
  · split <;> rfl

theorem beginInbound_peer (h : m.beginInbound command = .ok m') (hb : isBindRequest command = false) :
    m'.pendingPeerBind = m.pendingPeerBind := by
  obtain ⟨-, ⟨hc, -, rfl⟩ | ⟨-, rfl⟩ | ⟨-, rfl⟩ | ⟨-, rfl⟩⟩ := beginInbound_ok h
  · rw [hb] at hc; cases hc
  all_goals rfl

theorem beginInbound_bind (h : m.beginInbound command = .ok m') (hb : isBindRequest command) :
    m.pendingPeerBind = 0 ∧ m.state ≠ .closed ∧ m'.pendingPeerBind = command := by
  obtain ⟨hcan, hcases⟩ := beginInbound_ok h
  have hopen : m.state ≠ .closed := by rcases (canIssue_bind hcan hb).2 with hs | hs <;> rw [hs] <;> decide
  rcases hcases with ⟨-, h0, rfl⟩ | ⟨rfl, -⟩ | ⟨rfl, -⟩ | ⟨hl, -⟩
  · exact ⟨h0, hopen, rfl⟩
  · cases hb
  · cases hb
  · rw [isLifecycleRequest, hb] at hl; cases hl

theorem completeInbound_peer (m : StateMachine) (status : CommandStatus) (hb : isBindRequest command = false) :
    (m.completeInbound command status).pendingPeerBind = m.pendingPeerBind := by
  unfold completeInbound
  rw [if_neg (by rw [hb]; decide)]
  split <;> rfl

theorem completeInbound_other (m : StateMachine) (status : CommandStatus) (hb : isBindRequest command)
    (hp : m.pendingPeerBind ≠ command) : m.completeInbound command status = m := by
  unfold completeInbound
  rw [if_pos hb, if_pos hp]

theorem cancelInbound_peer (m : StateMachine) (hb : isBindRequest command = false) :
    (m.cancelInbound command).pendingPeerBind = m.pendingPeerBind := by
  unfold cancelInbound
  simp only [hb, Bool.false_and, Bool.false_eq_true, if_false]
  split <;> rfl

theorem Valid.completeInbound_bound (hv : m.Valid) (hb : isBindRequest bind) (hp : m.pendingPeerBind = bind)
    (hok : CommandStatus.ok status) : (m.completeInbound bind status).Bound bind := by
  have hf : m.mirror.Fresh := hv.mirror.fresh_of_pending (by
    show m.pendingPeerBind ≠ 0
    rw [hp]
    exact isBindRequest_ne_zero hb)
  have hstate : (m.completeInbound bind status).state = boundStateForBind bind := by
    unfold completeInbound
    rw [if_pos hb, if_neg (not_not.mpr hp)]
    exact if_pos hok
  have hc := hf.completeOutbound bind status
  rw [← completeInbound_mirror] at hc
  rcases hc with hf | ⟨-, -, -, hbound⟩
  · have hbs := isBoundState_boundStateForBind hb
    rw [← hstate] at hbs
    rcases hf.state with hs | hs <;> rw [show (m.completeInbound bind status).state = _ from hs] at hbs <;> cases hbs
  · exact hbound.of_mirror

end StateMachine

theorem Agreed.step {m m' : StateMachine} {bind : CommandID} (h : Agreed m bind) (hb : isBindRequest bind) (hv : m.Valid)
    (hs : m.Step m') : Agreed m' bind :=
  h.imp (·.step hb hs) (hs.closed · hv)

/-! ## The binds on their way to an answer -/

/-- The bind that the RX loop has begun and not answered. -/
def RxPhase.binds : RxPhase → List CommandID
  | .handling pdu => [pdu.header.commandID].filter (isBindRequest ·)
  | .queueing _ (.cancel command) | .cancelling command _ => [command].filter (isBindRequest ·)
  | _ => []

/-- The bind that the item is the answer of, if the machine has accepted it. -/
def TxItem.binds (item : TxItem) : List CommandID :=
  if item.kind = .response ∧ item.reserved = true then [item.responseTo].filter (isBindRequest ·) else []

/-- The binds of the peer that the machine has accepted and whose answer has not been committed. -/
def binds (s : Session) : List CommandID := (s.tx.uncommitted ++ s.queue).flatMap TxItem.binds ++ s.rx.binds

/-- A change of the machine and of the binds that it has accepted. -/
inductive Pledge (m : StateMachine) (bs : List CommandID) (m' : StateMachine) (bs' : List CommandID) : Prop
  | keep (hp : m'.pendingPeerBind = m.pendingPeerBind ∨ m'.state = .closed) (hbs : bs'.Sublist bs)
  | reserve (bind : CommandID) (hb : isBindRequest bind) (h0 : m.pendingPeerBind = 0) (hs : m.state ≠ .closed)
      (hp : m'.pendingPeerBind = bind) (hbs : bs'.Sublist (bs ++ [bind]))
  | answer (a : List CommandID) (bind : CommandID) (b : List CommandID) (hbs : bs = a ++ bind :: b)
      (hbs' : bs'.Sublist (a ++ b))

/-- At most one bind of the peer is accepted at a time, and the machine is reserved for it. -/
structure Held (m : StateMachine) (bs : List CommandID) : Prop where
  one : bs.length ≤ 1
  pending : ∀ bind ∈ bs, isBindRequest bind ∧ (m.pendingPeerBind = bind ∨ m.state = .closed)

section Pledge
variable {m m' : StateMachine} {bs bs' : List CommandID}

theorem Pledge.append (h : Pledge m bs m' bs') (front : List CommandID) : Pledge m (front ++ bs) m' (front ++ bs') := by
  cases h with
  | keep hp hbs => exact .keep hp (hbs.append_left front)
  | reserve bind hb h0 hs hp hbs => exact .reserve bind hb h0 hs hp (by rw [List.append_assoc]; exact hbs.append_left front)
  | answer a bind b hbs hbs' =>
    exact .answer (front ++ a) bind b (by rw [hbs, List.append_assoc]) (by rw [List.append_assoc]; exact hbs'.append_left front)

theorem Held.step (h : Held m bs) (hp : Pledge m bs m' bs') (hclosed : m.state = .closed → m'.state = .closed) :
    Held m' bs' := by
  cases hp with
  | keep hp hbs =>
    refine ⟨hbs.length_le.trans h.one, fun bind hb => ?_⟩
    obtain ⟨hbind, hpend⟩ := h.pending bind (hbs.subset hb)
    refine ⟨hbind, ?_⟩
    rcases hp with hp | hc
    · exact hpend.imp (hp.trans ·) hclosed
    · exact .inr hc
  | reserve bind hb h0 hs hp hbs =>
    -- nothing is reserved, so nothing was accepted before
    have hnil : bs = [] := by
      rw [List.eq_nil_iff_forall_not_mem]
      intro bind' hb'
      obtain ⟨hbind, hpend | hc⟩ := h.pending bind' hb'
      · exact isBindRequest_ne_zero hbind (hpend.symm.trans h0)
      · exact hs hc
    subst hnil
    refine ⟨hbs.length_le, fun bind' hb' => ?_⟩
    rw [List.mem_singleton.mp (hbs.subset hb')]
    exact ⟨hb, .inl hp⟩
  | answer a bind b hbs hbs' =>
    have hlen := h.one
    rw [hbs, List.length_append, List.length_cons] at hlen
    have hnil : bs' = [] := by
      have := hbs'.length_le
      rw [List.length_append] at this
      exact List.length_eq_zero_iff.mp (by omega)
    subst hnil
    exact ⟨by decide, fun _ h => (List.not_mem_nil h).elim⟩

end Pledge

/-! ## What the loops do to them -/

section Loops
variable {s : Session} {label : Label} {m : StateMachine} {queue : List TxItem} {item : TxItem} {next : AfterQueue}
  {pdu : DecodedPDU} {status : CommandStatus} {rx : RxPhase}

theorem failed_binds (command : CommandID) (err : Err) :
    ((afterQueue command).failed err).binds.Sublist ([command].filter (isBindRequest ·)) := by
  unfold afterQueue
  split
  · exact List.Sublist.refl _
  · exact List.nil_sublist _

theorem AnswerNext.binds (h : AnswerNext s pdu status rx) :
    rx.binds.Sublist ([pdu.header.commandID].filter (isBindRequest ·)) := by
  have hqueue (item : TxItem) : (RxPhase.queueing item (afterQueue pdu.header.commandID)).binds.Sublist
      ([pdu.header.commandID].filter (isBindRequest ·)) := by
    unfold afterQueue
    split
    · exact List.Sublist.refl _
    · exact List.nil_sublist _
  cases h with
  | queue => exact hqueue _
  | nack => exact hqueue _
  | fail err => exact failed_binds _ err

/-- An answer is marked as reserved if the machine has accepted the request, and then `CancelInbound` follows if it cannot
be queued; and only such an answer accepts a bind or an unbind. -/
def Marked (item : TxItem) (next : AfterQueue) : Prop :=
  (item.reserved = true ∧ next = .cancel item.responseTo) ∨
  (item.reserved = false ∧ (isLifecycleRequest item.responseTo → CommandStatus.ok item.status = false))

theorem AnswerNext.marked (h : AnswerNext s pdu status (.queueing item next)) (hp : Answerable pdu.header) :
    Marked item next := by
  generalize hrx : RxPhase.queueing item next = rx at h
  cases h with
  | queue hq =>
    cases hrx
    obtain ⟨-, -, -, hto, -, hres⟩ := queueResponse_ok hq
    rw [if_neg (responseID_ne_genericNACK hp.1 hp.2)] at hto
    unfold Marked
    rw [hto, hres]
    cases hl : isLifecycleRequest pdu.header.commandID with
    | true => exact .inl ⟨rfl, if_pos hl⟩
    | false => exact .inr ⟨rfl, nofun⟩
  | nack hq =>
    cases hrx
    obtain ⟨-, -, -, -, hst, hres⟩ := queueResponse_ok hq
    exact .inr ⟨hres, fun _ => by rw [hst]; rfl⟩
  | fail err => exact absurd hrx.symm (failed_ne _ err)

theorem RxNext.marked (h : RxNext s label m queue rx) (hrx : rx = .queueing item next)
    (hp : ∀ pdu, s.rx = .beginning pdu ∨ s.rx = .handling pdu → Answerable pdu.header) : Marked item next := by
  cases h with
  | skip _ h => rcases h with rfl | ⟨err, rfl⟩ <;> cases hrx
  | nack _ hst _ hq =>
    cases hrx
    obtain ⟨-, -, -, -, hst', hres⟩ := queueResponse_ok hq
    exact .inr ⟨hres, fun _ => by rw [hst']; exact not_ok_of_ne hst⟩
  | refuse _ _ _ hq =>
    cases hrx
    obtain ⟨-, -, -, -, hst, hres⟩ := queueResponse_ok hq
    exact .inr ⟨hres, fun _ => by rw [hst]; rfl⟩
  | answer hs _ _ ha => subst hrx; exact ha.marked (hp _ (.inl hs))
  | handled hs _ ha => subst hrx; exact ha.marked (hp _ (.inr hs))
  | broke hs ha => subst hrx; exact ha.marked (hp _ (.inr hs))
  | withheld _ h => rcases h with ⟨rfl, -⟩ | ⟨err, rfl⟩ <;> cases hrx
  | close => exact absurd hrx (failed_ne _ _)
  | receive | unanswered | handle | ignore | enqueue | cancel | stop | resume => cases hrx

theorem beginInbound_pledge {command : CommandID} {bs bs' : List CommandID} (hb : s.beginInbound command = .ok m)
    (hbs : bs'.Sublist (bs ++ [command].filter (isBindRequest ·))) : Pledge s.machine bs m bs' := by
  cases hbind : isBindRequest command with
  | true =>
    have hstandard : isStandardCommand command := by rcases isBindRequest_cases hbind with rfl | rfl | rfl <;> decide
    rw [show s.beginInbound command = s.machine.beginInbound command from if_pos hstandard] at hb
    obtain ⟨h0, hs, hp⟩ := StateMachine.beginInbound_bind hb hbind
    rw [List.filter_cons_of_pos hbind] at hbs
    exact .reserve command hbind h0 hs hp hbs
  | false =>
    rw [List.filter_cons_of_neg (by rw [hbind]; decide), List.filter_nil, List.append_nil] at hbs
    rcases beginInbound_ok hb with rfl | hm
    · exact .keep (.inl rfl) hbs
    · exact .keep (.inl (StateMachine.beginInbound_peer hm hbind)) hbs

theorem RxNext.pledge (h : RxNext s label m queue rx) (hmark : ∀ item next, s.rx = .queueing item next → Marked item next) :
    Pledge s.machine (s.queue.flatMap TxItem.binds ++ s.rx.binds) m (queue.flatMap TxItem.binds ++ rx.binds) := by
  -- the machine and the queue are as they were
  have hkeep {rx : RxPhase} (hrx : rx.binds.Sublist s.rx.binds) : Pledge s.machine
      (s.queue.flatMap TxItem.binds ++ s.rx.binds) s.machine (s.queue.flatMap TxItem.binds ++ rx.binds) :=
    .keep (.inl rfl) (hrx.append_left _)
  have hnil {rx : RxPhase} (hrx : rx.binds = []) : rx.binds.Sublist s.rx.binds := hrx ▸ List.nil_sublist _
  cases h with
  | skip _ h => rcases h with rfl | ⟨err, rfl⟩ <;> exact hkeep (hnil rfl)
  | nack _ _ h => rcases h with rfl | rfl <;> exact hkeep (hnil rfl)
  | receive | refuse | unanswered | stop | resume => exact hkeep (hnil rfl)
  | @handle pdu m hs hb =>
    refine beginInbound_pledge hb ?_
    rw [hs, List.append_assoc]
    exact List.Sublist.refl _
  | ignore hs hb =>
    refine beginInbound_pledge hb ?_
    rw [hs]
    exact List.sublist_append_left _ _
  | answer hs hb _ ha =>
    refine beginInbound_pledge hb ?_
    rw [hs, List.append_assoc]
    exact ha.binds.append_left _
  | handled hs _ ha | broke hs ha =>
    refine hkeep ?_
    rw [hs]
    exact ha.binds
  | withheld _ h => rcases h with ⟨rfl, -⟩ | ⟨err, rfl⟩ <;> exact hkeep (hnil rfl)
  | @enqueue item next hs =>
    refine .keep (.inl rfl) ?_
    rw [hs, List.flatMap_append, List.flatMap_singleton, show RxPhase.reading.binds = [] from rfl, List.append_nil]
    refine List.Sublist.append_left ?_ _
    unfold TxItem.binds
    split
    · next hres =>
      rcases hmark item next hs with ⟨-, rfl⟩ | ⟨hno, -⟩
      · exact List.Sublist.refl _
      · rw [hno] at hres; cases hres.2
    · exact List.nil_sublist _
  | @close item next err hs =>
    refine hkeep ?_
    rw [hs]
    cases next <;> exact List.Sublist.refl _
  | @cancel command err hs =>
    cases hbind : isBindRequest command with
    | true =>
      have hb : s.rx.binds = [command] := by rw [hs]; exact List.filter_cons_of_pos hbind
      exact .answer _ command [] (by rw [hb]) (List.Sublist.refl _)
    | false =>
      exact .keep (.inl (StateMachine.cancelInbound_peer s.machine hbind)) ((hnil rfl).append_left _)

/-- The TX loop does not commit the refusal of a bind while another bind of the same command is reserved. -/
def unmixed (s : Session) : Label → Bool
  | .tx _ =>
    match s.tx with
    | .committing (item :: _) _ => !(item.kind == .response && !item.reserved && isBindRequest item.responseTo &&
        s.machine.pendingPeerBind == item.responseTo)
    | _ => true
  | _ => true

theorem unmixed_commit {rest batch : List TxItem} {choice : TxChoice} (h : s.unmixed (.tx choice))
    (htx : s.tx = .committing (item :: rest) batch)
    (hk : item.kind = .response) (hr : item.reserved = false) (hb : isBindRequest item.responseTo) :
    s.machine.pendingPeerBind ≠ item.responseTo := by
  unfold unmixed at h
  simp only [htx, hk, hr, hb] at h
  simpa using h

theorem TxNext.pledge {uncommitted unwritten : List TxItem} {wire : List Octets} (h : TxNext s m uncommitted unwritten wire)
    {choice : TxChoice} (hok : s.unmixed (.tx choice)) (back : List CommandID) :
    Pledge s.machine ((s.tx.uncommitted ++ s.queue).flatMap TxItem.binds ++ back) m
      (uncommitted.flatMap TxItem.binds ++ back) := by
  have hkeep {m : StateMachine} {items : List TxItem} (hm : m.pendingPeerBind = s.machine.pendingPeerBind)
      (hi : items.Sublist (s.tx.uncommitted ++ s.queue)) :
      Pledge s.machine ((s.tx.uncommitted ++ s.queue).flatMap TxItem.binds ++ back) m (items.flatMap TxItem.binds ++ back) :=
    .keep (.inl hm) ((hi.flatMap _).append_right back)
  cases h with
  | keep => exact hkeep rfl (List.Sublist.refl _)
  | drop htx =>
    refine hkeep rfl ?_
    rw [htx]
    exact (List.sublist_append_left _ _).append_right _
  | @commit item rest batch htx =>
    have hi : (rest ++ s.queue).Sublist (s.tx.uncommitted ++ s.queue) := by
      rw [htx]
      exact List.sublist_cons_self _ _
    split
    · next hcommit =>
      cases hb : isBindRequest item.responseTo with
      | false => exact hkeep (StateMachine.completeInbound_peer s.machine item.status hb) hi
      | true =>
        cases hr : item.reserved with
        | false =>
          have hne := unmixed_commit hok htx hcommit.1 hr hb
          exact hkeep (by rw [StateMachine.completeInbound_other s.machine item.status hb hne]) hi
        | true =>
          refine .answer [] item.responseTo ((rest ++ s.queue).flatMap TxItem.binds ++ back) ?_ (List.Sublist.refl _)
          rw [htx]
          show (item :: (rest ++ s.queue)).flatMap TxItem.binds ++ back = _
          rw [List.flatMap_cons, TxItem.binds, if_pos ⟨hcommit.1, hr⟩, List.filter_cons_of_pos hb, List.append_assoc]
          rfl
    · exact hkeep rfl hi
  | write htx | fail htx =>
    refine hkeep rfl ?_
    rw [htx]
    exact List.Sublist.refl _

end Loops

/-! ## The SMSC -/

/-- The binds that the peer is told of are agreed on. -/
@[mk_iff]
structure Granted (s : Session) : Prop where
  /-- what has been committed and not been written -/
  committed : ∃ committed, s.tx.unwritten = committed ++ s.tx.uncommitted ∧ ∀ item ∈ committed, item.kind = .response →
    isBindRequest item.responseTo → CommandStatus.ok item.status → Agreed s.machine item.responseTo
  wire : ∀ frame ∈ s.wire, ∀ bind, isBindRequest bind → Grants frame bind → Agreed s.machine bind

/-- What holds in every run of an SMSC that meets `unmixed`. -/
structure Pledged (config : Config) (s : Session) : Prop extends Orderly config s, Granted s where
  noZero : config.registry.command 0 = none
  role : s.machine.role = .smsc
  marked : ∀ item next, s.rx = .queueing item next → Marked item next
  refused : ∀ item ∈ s.uncommitted, item.kind = .response → isBindRequest item.responseTo → item.reserved = false →
    CommandStatus.ok item.status = false
  held : Held s.machine s.binds

section Pledged
variable {config : Config} {s s' : Session} {label : Label}

theorem pledged_new (hz : config.registry.command 0 = none) : Pledged config (new config .smsc) where
  toOrderly := orderly_new config .smsc
  noZero := hz
  role := rfl
  marked _ _ h := by cases h
  refused _ h := (List.not_mem_nil h).elim
  held := ⟨Nat.zero_le _, fun _ h => (List.not_mem_nil h).elim⟩
  committed := ⟨[], rfl, fun _ h => (List.not_mem_nil h).elim⟩
  wire _ h := (List.not_mem_nil h).elim

theorem Pledged.marked_step (h : Pledged config s) (hs : s.step label = some s') {item : TxItem} {next : AfterQueue}
    (hrx : s'.rx = .queueing item next) : Marked item next := by
  have hsame (he : s'.rx = s.rx) : Marked item next := h.marked item next (he ▸ hrx)
  cases step_flow h.oneWayItems hs with
  | rx hnext => exact hnext.marked hrx (h.taken h.noZero)
  | tx _ _ he => exact hsame he
  | enter _ _ _ _ _ he => exact hsame he
  | other _ _ he =>
    rcases he with he | he
    · exact hsame he
    · rw [he] at hrx; cases hrx

theorem Pledged.refused_step (h : Pledged config s) (hs : s.step label = some s') {item : TxItem}
    (hi : item ∈ s'.uncommitted) (hk : item.kind = .response) (hb : isBindRequest item.responseTo)
    (hr : item.reserved = false) : CommandStatus.ok item.status = false := by
  rcases (step_flow h.oneWayItems hs).mem_uncommitted hi hk with hi | ⟨next, hrx, hnext⟩
  · exact h.refused item hi hk hb hr
  · rcases hnext.marked hrx (h.taken h.noZero) with ⟨hres, -⟩ | ⟨-, hno⟩
    · rw [hr] at hres; cases hres
    · exact hno (by rw [isLifecycleRequest, hb, Bool.true_or])

theorem Pledged.closed_step (h : Pledged config s) (hs : s.step label = some s') (hc : s.machine.state = .closed) :
    s'.machine.state = .closed :=
  step_keeps hs hc fun hm => hm.closed hc h.valid

theorem Pledged.agreed_step (h : Pledged config s) (hs : s.step label = some s') {bind : CommandID} (hb : isBindRequest bind)
    (ha : Agreed s.machine bind) : Agreed s'.machine bind :=
  step_keeps hs ha fun hm => ha.step hb h.valid hm

theorem MachineStep.peer {m : StateMachine} (h : s.MachineStep label m) (hl : label.loop = false) :
    m.pendingPeerBind = s.machine.pendingPeerBind ∨ m.state = .closed := by
  cases h with
  | same => exact .inl rfl
  | beginOutbound _ hb => exact .inl (StateMachine.beginOutbound_peer hb)
  | cancelOutbound command => exact .inl (StateMachine.cancelOutbound_peer _ _)
  | completeOutbound => exact .inl (StateMachine.completeOutbound_peer _ _ _)
  | beginInbound | completeInbound | cancelInbound => cases hl
  | close => exact .inr rfl

theorem Pledged.pledge (h : Pledged config s) (hs : s.step label = some s') (hok : s.unmixed label) :
    Pledge s.machine s.binds s'.machine s'.binds := by
  unfold Session.binds
  cases step_flow h.oneWayItems hs with
  | rx hnext htx =>
    rw [htx, List.flatMap_append, List.flatMap_append, List.append_assoc, List.append_assoc]
    exact (hnext.pledge h.marked).append _
  | tx hlabel hnext hrx =>
    obtain ⟨choice, rfl⟩ := hlabel
    rw [hrx]
    exact hnext.pledge hok _
  | enter item hkind _ hqueue hm hrx htx =>
    refine .keep (.inl (by rw [hm])) ?_
    have hnil : TxItem.binds item = [] := if_neg fun hk => hkind hk.1
    rw [htx, hqueue, hrx, ← List.append_assoc, List.flatMap_append, List.flatMap_singleton, hnil, List.append_nil]
  | other hl hqueue hrx htx =>
    refine .keep ((step_machine hs).peer hl) ?_
    rw [htx, hqueue]
    refine List.Sublist.append_left ?_ _
    rcases hrx with hrx | hrx
    · rw [hrx]
    · rw [hrx]
      exact List.nil_sublist _

theorem Pledged.commit (h : Pledged config s) {item : TxItem} {rest batch : List TxItem}
    (htx : s.tx = .committing (item :: rest) batch) (hk : item.kind = .response) (hb : isBindRequest item.responseTo)
    (hok : CommandStatus.ok item.status) : Agreed (s.machine.completeInbound item.responseTo item.status) item.responseTo := by
  have hreserved : item.reserved = true := by
    by_contra hno
    have hi : item ∈ s.uncommitted := by
      rw [mem_uncommitted, htx]
      exact .inl List.mem_cons_self
    rw [h.refused item hi hk hb (eq_false_of_ne_true hno)] at hok
    cases hok
  have hmem : item.responseTo ∈ s.binds := by
    unfold Session.binds
    rw [htx]
    refine List.mem_append_left _ (List.mem_flatMap.mpr ⟨item, List.mem_cons_self, ?_⟩)
    rw [TxItem.binds, if_pos ⟨hk, hreserved⟩, List.filter_cons_of_pos hb]
    exact List.mem_cons_self
  rcases (h.held.pending _ hmem).2 with hp | hc
  · exact .inl (h.valid.completeInbound_bound hb hp hok)
  · exact .inr (StateMachine.Step.closed (.completeInbound _ _ _) hc h.valid)

theorem Pledged.tx_step (h : Pledged config s) (hs : s.step label = some s')
    (hnext : TxNext s s'.machine (s'.tx.uncommitted ++ s'.queue) (s'.tx.unwritten ++ s'.queue) s'.wire) : Granted s' := by
  rw [granted_iff]
  obtain ⟨committed, hc, hagreed⟩ := h.committed
  have hlater {items : List TxItem} (hsub : items ⊆ committed) : ∀ item ∈ items, item.kind = .response →
      isBindRequest item.responseTo → CommandStatus.ok item.status → Agreed s'.machine item.responseTo :=
    fun item hi hk hb hok => h.agreed_step hs hb (hagreed item (hsub hi) hk hb hok)
  have hwire : ∀ frame ∈ s.wire, ∀ bind, isBindRequest bind → Grants frame bind → Agreed s'.machine bind :=
    fun frame hf bind hb hg => h.agreed_step hs hb (h.wire frame hf bind hb hg)
  generalize hu : s'.tx.uncommitted ++ s'.queue = uncommitted at hnext
  generalize hw : s'.tx.unwritten ++ s'.queue = unwritten at hnext
  generalize hwire' : s'.wire = wire at hnext ⊢
  -- the committed items are those before the uncommitted ones
  have hsplit {items : List TxItem} (he : unwritten = items ++ uncommitted) : s'.tx.unwritten = items ++ s'.tx.uncommitted := by
    rw [← hu, ← hw, ← List.append_assoc] at he
    exact List.append_cancel_right he
  generalize hm : s'.machine = m at hnext hlater hwire ⊢
  cases hnext with
  | keep => exact ⟨⟨committed, hsplit (by rw [hc, List.append_assoc]), hlater (List.Subset.refl _)⟩, hwire⟩
  | drop => exact ⟨⟨[], hsplit rfl, hlater (List.nil_subset _)⟩, hwire⟩
  | @commit item rest batch htx =>
    refine ⟨⟨committed ++ [item], hsplit ?_, fun item' hi hk hb hok => ?_⟩, hwire⟩
    · rw [htx] at hc
      rw [show batch = committed ++ item :: rest from hc, List.append_assoc, List.append_assoc]
      rfl
    · rcases List.mem_append.mp hi with hi | hi
      · exact hlater (List.Subset.refl _) item' hi hk hb hok
      · obtain rfl := List.mem_singleton.mp hi
        rw [if_pos ⟨hk, isBindRequest_ne_zero hb⟩]
        exact h.commit htx hk hb hok
  | @write item rest batch htx =>
    have hcommitted : committed = item :: rest := by
      rw [htx] at hc
      exact (List.append_nil committed).symm.trans hc.symm
    subst hcommitted
    refine ⟨⟨rest, hsplit rfl, hlater (List.subset_cons_self _ _)⟩, fun frame hf bind hb hg => ?_⟩
    rcases List.mem_append.mp hf with hf | hf
    · exact hwire frame hf bind hb hg
    · obtain rfl := List.mem_singleton.mp hf
      have hitem : item ∈ s.items := by
        unfold Session.items
        rw [htx]
        exact List.mem_append_left _ (List.mem_append_left _ List.mem_cons_self)
      obtain ⟨hk, rfl, hok⟩ := (h.faithful item hitem).grants h.noZero hb hg
      exact hlater (List.Subset.refl _) item List.mem_cons_self hk hb hok
  | fail => exact ⟨⟨[], hsplit rfl, hlater (List.nil_subset _)⟩, hwire⟩

theorem Pledged.connection_step (h : Pledged config s) (hs : s.step label = some s') : Granted s' := by
  have hsame (htx : s'.tx = s.tx) (hw : s'.wire = s.wire) : Granted s' := by
    obtain ⟨committed, hc, hagreed⟩ := h.committed
    rw [granted_iff, htx, hw]
    exact ⟨⟨committed, hc, fun item hi hk hb hok => h.agreed_step hs hb (hagreed item hi hk hb hok)⟩,
      fun frame hf bind hb hg => h.agreed_step hs hb (h.wire frame hf bind hb hg)⟩
  cases step_flow h.oneWayItems hs with
  | rx _ htx hw => exact hsame htx hw
  | tx _ hnext => exact h.tx_step hs hnext
  | enter _ _ _ _ _ _ htx hw => exact hsame htx hw
  | other _ _ _ htx hw => exact hsame htx hw

/-- The step lemma. -/
theorem Pledged.step (h : Pledged config s) (hs : s.step label = some s') (hok : s.unmixed label) : Pledged config s' where
  toOrderly := h.toOrderly.step hs
  noZero := h.noZero
  role := step_keeps hs h.role fun hm => hm.role.trans h.role
  marked _ _ hrx := h.marked_step hs hrx
  refused _ hi hk hb hr := h.refused_step hs hi hk hb hr
  held := h.held.step (h.pledge hs hok) (h.closed_step hs)
  toGranted := h.connection_step hs

theorem Pledged.read (h : Pledged config s) {wire : List Octets} (hw : wire ⊆ s.wire) : Pledged config { s with wire } where
  toOrderly := h.toOrderly.read wire
  noZero := h.noZero
  role := h.role
  marked := h.marked
  refused := h.refused
  held := h.held
  committed := h.committed
  wire frame hf := h.wire frame (hw hf)

end Pledged

/-! ## Both -/

structure Concordant (esme smsc : Config) (p : Pair Session) : Prop where
  esme : Regular esme p.left
  role : p.left.machine.role = .esme
  smsc : Pledged smsc p.right
  /-- a bind that the ESME is about to complete with success -/
  completed : ∀ t ∈ p.left.ledger.tasks, ∀ pdu k, t.result = .ok pdu → .complete ∈ t.todo →
    p.left.ledger.calls[t.call]? = some k → isBindRequest k.command → CommandStatus.ok pdu.header.commandStatus →
    Agreed p.right.machine k.command
  mode : p.left.machine.Fresh ∨ ∃ bind, isBindRequest bind ∧ p.left.machine.Bound bind ∧
    (p.left.machine.state ≠ .closed → Agreed p.right.machine bind)

def Unmixed (p : Pair Session) : LinkLabel Label → Prop
  | .act .right label => p.right.unmixed label
  | _ => True

instance (p : Pair Session) : (label : LinkLabel Label) → Decidable (Unmixed p label)
  | .act .right label => inferInstanceAs (Decidable (p.right.unmixed label = true))
  | .act .left _ | .deliver _ => .isTrue trivial

section Concordant
variable {esme smsc : Config} {p p' : Pair Session} {label : LinkLabel Label}

theorem concordant_new (esme : Config) (hz : smsc.registry.command 0 = none) : Concordant esme smsc (newPair esme smsc) where
  esme := regular_new esme .esme
  role := rfl
  smsc := pledged_new hz
  completed _ h := (List.not_mem_nil h).elim
  mode := .inl ⟨.inl rfl, rfl, rfl, fun h => absurd rfl h, fun h => absurd rfl h⟩

theorem Concordant.left_step {esme' : Session} {l : Label} (h : Concordant esme smsc p) (hs : p.left.step l = some esme')
    (hread : ∀ frame, l = .frame frame → frame ∈ p.right.wire) {wire : List Octets} (hw : wire ⊆ p.right.wire) :
    Concordant esme smsc ⟨esme', { p.right with wire }⟩ where
  esme := h.esme.step hs
  role := step_keeps hs h.role fun hm => hm.role.trans h.role
  smsc := h.smsc.read hw
  completed t ht pdu k hr hst hk hb hok := by
    rcases (step_ledger hs).completes h.esme.identified.conserves ht hr hst hk with ⟨t₀, ht₀, hr₀, hst₀, k₀, hk₀, hc⟩ |
      ⟨frame, i, k₀, hl, hd, -, -, hc, hid⟩
    · rw [← hc] at hb ⊢
      exact h.completed t₀ ht₀ pdu k₀ hr₀ hst₀ hk₀ hb hok
    · -- the response has just come from the SMSC
      rw [← hc] at hb ⊢
      obtain ⟨bs, hframe⟩ := decodePDU_frame hd
      exact h.smsc.wire frame (hread frame hl) k₀.command hb ⟨pdu.header, bs, hframe, hok, hid⟩
  mode := by
    have hm := step_machine hs
    rcases h.mode with hf | ⟨bind, hb, hbound, hagreed⟩
    · rcases hm.fresh hf with hf | hc | ⟨o, t, l, k, rest, pdu, -, ht, hk, htodo, hr, hb, hok, -, hbound⟩ |
        ⟨-, -, -, -, -, -, -, hsmsc, -⟩
      · exact .inl hf
      · rw [hc]
        exact .inr ⟨commandBindTransmitter, rfl, StateMachine.bound_close _ _, fun hne => absurd rfl hne⟩
      · obtain ⟨tasks, rfl, hperm⟩ := Ledger.nextTask_eq ht
        have hmem : t ∈ p.left.ledger.tasks := hperm.mem_iff.mpr List.mem_cons_self
        refine .inr ⟨k.command, hb, hbound, fun _ => ?_⟩
        exact h.completed t hmem pdu k hr (htodo ▸ List.mem_cons_self) hk hb hok
      · rw [h.role] at hsmsc; cases hsmsc
    · right
      rcases hm.step with he | hstep
      · exact ⟨bind, hb, he ▸ hbound, fun hne => hagreed (he ▸ hne)⟩
      · exact ⟨bind, hb, hbound.step hb hstep, fun hne => hagreed fun hc => hne (hbound.closed_step hb hstep hc)⟩

theorem Concordant.right_step {smsc' : Session} {l : Label} (h : Concordant esme smsc p)
    (hs : p.right.step l = some smsc') (hok : p.right.unmixed l) (wire : List Octets) :
    Concordant esme smsc ⟨{ p.left with wire }, smsc'⟩ where
  esme := h.esme.read wire
  role := h.role
  smsc := h.smsc.step hs hok
  completed t ht pdu k hr hst hk hb hok := h.smsc.agreed_step hs hb (h.completed t ht pdu k hr hst hk hb hok)
  mode := h.mode.imp_right fun ⟨bind, hb, hbound, hagreed⟩ =>
    ⟨bind, hb, hbound, fun hne => h.smsc.agreed_step hs hb (hagreed hne)⟩

theorem Concordant.step (h : Concordant esme smsc p) (hok : Unmixed p label)
    (hs : linked.step p label = some p') : Concordant esme smsc p' := by
  obtain ⟨side, l, hst, hcase⟩ := Port.link_step hs
  obtain ⟨left, right⟩ := p'
  cases side with
  | left =>
    rcases hcase with ⟨-, hl, ho⟩ | ⟨frame, rest, -, rfl, hsent, ho⟩
    · obtain rfl : right = p.right := ho
      have hst : p.left.step l = some left := hst
      exact h.left_step hst (by rintro frame rfl; cases hl) (List.Subset.refl p.right.wire)
    · obtain rfl : right = { p.right with wire := rest } := ho
      have hst : p.left.step (.frame frame) = some left := hst
      have hsent : p.right.wire = frame :: rest := hsent
      refine h.left_step hst (fun frame' hf => ?_) (by rw [hsent]; exact List.subset_cons_self _ _)
      cases hf
      rw [hsent]
      exact List.mem_cons_self
  | right =>
    rcases hcase with ⟨rfl, -, ho⟩ | ⟨frame, rest, -, rfl, -, ho⟩
    · obtain rfl : left = p.left := ho
      have hst : p.right.step l = some right := hst
      exact h.right_step hst hok p.left.wire
    · obtain rfl : left = { p.left with wire := rest } := ho
      have hst : p.right.step (.frame frame) = some right := hst
      exact h.right_step hst rfl rest

/-- **Bind agreement.** In every run of an ESME and an SMSC, with any configurations, in which the SMSC does not commit the
refusal of a bind while another bind of the same command is reserved: whenever the ESME is bound in a mode, the SMSC is
bound in the same mode, unbound or closed. -/
theorem run_agreement {bind : CommandID} (hz : smsc.registry.command 0 = none)
    (h : linked.Run Unmixed (newPair esme smsc) p) (hb : isBindRequest bind)
    (hs : p.left.machine.state = boundStateForBind bind) :
    p.right.machine.state = boundStateForBind bind ∨ p.right.machine.state = .unbound ∨ p.right.machine.state = .closed := by
  have hc : Concordant esme smsc p :=
    h.invariant (P := Concordant esme smsc) (fun _ _ _ hok hs hc => hc.step hok hs) (concordant_new esme hz)
  have hbs := isBoundState_boundStateForBind hb
  rw [← hs] at hbs
  rcases hc.mode with hf | ⟨bind', hb', hbound, hagreed⟩
  · rcases hf.state with ho | ho <;> rw [ho] at hbs <;> cases hbs
  · obtain rfl := boundStateForBind_inj hb hb' (hs.symm.trans (hbound.state_of_unbind hbs))
    rcases hagreed (fun hcl => by rw [hcl] at hbs; cases hbs) with hbound | hclosed
    · exact hbound.state
    · exact .inr (.inr hclosed)

def acts (side : Side) (labels : List Label) : List (LinkLabel Label) := labels.map (.act side)

/-- The `i`-th request of the ESME is a `bind_transceiver`, up to its frame on the connection. -/
def bindsOnce (i : Nat) : List (LinkLabel Label) :=
  acts .left (.request commandBindTransceiver bindTransceiverBody true :: List.replicate 8 (.call i .go) ++
    List.replicate 11 (.tx .go))

/-- The caller's context ends while it waits for the response. -/
def givesUp (i : Nat) : List (LinkLabel Label) :=
  acts .left (.call i .ctx :: List.replicate 4 (.task (.caller i)) ++ [.call i .go])

/-- The SMSC takes the next bind, and its handler answers it with the status and an empty `system_id`. -/
def takesBind (status : CommandStatus) : List (LinkLabel Label) :=
  .deliver .right :: acts .right [.rx .go,
    .rx (.handled (.returned (.ok { status, body := .struct (.bindResponse ⟨[], []⟩) }))), .rx .go]

def acceptsBind : List (LinkLabel Label) :=
  bindsOnce 0 ++ takesBind statusOK ++ acts .right (List.replicate 7 (.tx .go)) ++
    .deliver .left :: acts .left (List.replicate 4 (.task .rx))

theorem run_agreement_acceptsBind : ∃ p, linked.Run Unmixed (newPair {} { handler := true }) p ∧
    p.left.machine.state = .boundTRX ∧
    (p.right.machine.state = .boundTRX ∨ p.right.machine.state = .unbound ∨ p.right.machine.state = .closed) := by
  have hrun := System.run_after linked Unmixed (newPair {} { handler := true }) acceptsBind (by decide +kernel)
  have hs : (linked.after Unmixed (newPair {} { handler := true }) acceptsBind).left.machine.state = .boundTRX := by
    decide +kernel
  have hb : isBindRequest commandBindTransceiver := by decide
  exact ⟨_, hrun, hs, run_agreement (by decide +kernel) hrun hb hs⟩

/-- Three binds of the ESME, of which the caller gives up the first two. The SMSC's handler rejects the first; the second
comes while the first is reserved, and the refusal is queued after the first answer has been committed. The handler accepts
the third, and its answer is queued behind the refusal. -/
def crossesBinds : List (LinkLabel Label) :=
  bindsOnce 0 ++ givesUp 0 ++ bindsOnce 1 ++ givesUp 1 ++ bindsOnce 2 ++
  takesBind statusBindFailed ++ .deliver .right :: acts .right (.rx .go :: List.replicate 4 (.tx .go) ++ [.rx .go]) ++
  takesBind statusOK ++ acts .right (List.replicate 19 (.tx .go)) ++
  List.replicate 3 (.deliver .left) ++ acts .left (List.replicate 7 (.task .rx))

/-- The ESME is bound, and the SMSC is not. -/
theorem crossesBinds_open : ∃ p, linked.Run anyStep (newPair {} { handler := true }) p ∧
    p.left.machine.state = .boundTRX ∧ p.right.machine.state = .open :=
  ⟨_, System.run_after linked anyStep (newPair {} { handler := true }) crossesBinds (by decide +kernel),
    by decide +kernel, by decide +kernel⟩

end Concordant

end GoSmpp.Session
