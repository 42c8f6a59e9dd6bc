import GoSmpp.Session.Correlation
import GoSmpp.Session.Operations

/-!
# The reservations of binds and unbinds

`Session.request` reserves the state machine for a bind or an unbind before it draws a number, and one of four parties
gives the reservation up: the caller, the RX loop, the deadline loop, or `terminate`.

* `StateMachine.Reserves`: the machine is reserved for a request. `Exclusive`: not for unbinds of both sides.
* `Served`: a request of that command is on its way to the table, in it, or with a party that is going to give the
  reservation up.
* `run_reserved`: every reservation is served, as long as a caller that gives up finds its own request under its number.
* `strandedUnbind`: a caller that finds the request of another, whose reservation nobody gives up.
-/

namespace GoSmpp.Session
open Lib Protocol Codec

namespace StateMachine

/-! ## The machine -/

/-- A bind or an unbind of this side has begun and has not ended. -/
def Reserves (m : StateMachine) (command : CommandID) : Prop :=
  (isBindRequest command ∧ m.pendingLocalBind = command) ∨
  (command = commandUnbind ∧ m.state = .unbound ∧ m.localUnbindFrom ≠ .closed)

/-- At most one side is unbinding, and only in the unbound state, or it was when the machine was closed. -/
structure Exclusive (m : StateMachine) : Prop where
  neither : m.state ≠ .unbound → m.state ≠ .closed → m.localUnbindFrom = .closed ∧ m.peerUnbindFrom = .closed
  one : m.state = .unbound → m.localUnbindFrom = .closed ∨ m.peerUnbindFrom = .closed

section Machine
variable {m m' : StateMachine} {command X : CommandID} {status : CommandStatus}

theorem Exclusive.mirror (h : m.Exclusive) : m.mirror.Exclusive where
  neither hu hc := (h.neither hu hc).symm
  one hu := (h.one hu).symm

theorem Exclusive.of_mirror (h : m.mirror.Exclusive) : m.Exclusive := by
  have := h.mirror
  rwa [mirror_mirror] at this

theorem Valid.mirror (h : m.Valid) : m.mirror.Valid := by
  rcases h with hf | ⟨bind, hb, hbound⟩
  · exact .inl hf.mirror
  · exact .inr ⟨bind, hb, hbound.mirror⟩

theorem isBoundState_cases {state : SessionState} (h : isBoundState state) : state ≠ .unbound ∧ state ≠ .closed := by
  cases state <;> first | (cases h; done) | exact ⟨nofun, nofun⟩

theorem Exclusive.beginOutbound (h : m.Exclusive) (ho : m.beginOutbound command = .ok m') : m'.Exclusive := by
  obtain ⟨hcan, ⟨-, -, rfl⟩ | ⟨rfl, rfl⟩ | ⟨rfl, rfl⟩ | ⟨-, rfl⟩⟩ := beginOutbound_ok ho
  · exact ⟨h.neither, h.one⟩
  · obtain ⟨hu, hc⟩ := isBoundState_cases (canIssue_unbind hcan)
    exact ⟨fun hu' => absurd rfl hu', fun _ => .inr (h.neither hu hc).2⟩
  · have hopen := (canIssue_outbind hcan).2
    exact ⟨fun _ _ => h.neither (by rw [hopen]; nofun) (by rw [hopen]; nofun), nofun⟩
  · exact h

theorem Exclusive.cancelOutbound (h : m.Exclusive) (command : CommandID) : (m.cancelOutbound command).Exclusive := by
  rcases cancelOutbound_cases m command with ⟨-, -, he⟩ | ⟨-, hu, hl, he⟩ | ⟨-, ho, he⟩ | ⟨-, -, he⟩ <;> rw [he]
  · exact ⟨h.neither, h.one⟩
  · exact ⟨fun _ _ => ⟨rfl, (h.one hu).resolve_left hl⟩, fun _ => .inl rfl⟩
  · exact ⟨fun _ _ => h.neither (by rw [ho]; nofun) (by rw [ho]; nofun), nofun⟩
  · exact h

theorem Valid.fresh_of_pending (hv : m.Valid) (hp : m.pendingLocalBind ≠ 0) : m.Fresh := by
  rcases hv with hf | ⟨bind, -, hbound⟩
  · exact hf
  · exact absurd hbound.localBind hp

theorem Exclusive.completeOutbound (h : m.Exclusive) (hv : m.Valid) (command : CommandID) (status : CommandStatus) :
    (m.completeOutbound command status).Exclusive := by
  unfold StateMachine.completeOutbound
  split
  · next hb =>
    split
    · exact h
    · next hp =>
      have hf := hv.fresh_of_pending (by rw [not_not.mp hp]; exact isBindRequest_ne_zero hb)
      exact ⟨fun _ _ => ⟨hf.localUnbindFrom, hf.peerUnbindFrom⟩, fun _ => .inl hf.localUnbindFrom⟩
  · split
    · next hu =>
      refine ⟨fun hne hnc => ⟨rfl, ?_⟩, fun _ => .inl rfl⟩
      simp only at hne hnc
      split at hne
      · next hok => rw [if_pos hok] at hnc; exact absurd rfl hnc
      · split at hne
        · next hl => exact (h.one hu.2).resolve_left hl
        · exact absurd hu.2 hne
    · exact h

theorem Exclusive.step (h : m.Exclusive) (hv : m.Valid) (hs : m.Step m') : m'.Exclusive := by
  cases hs with
  | beginOutbound ho => exact h.beginOutbound ho
  | cancelOutbound command => exact h.cancelOutbound command
  | completeOutbound command status => exact h.completeOutbound hv command status
  | beginInbound hi => exact (h.mirror.beginOutbound (beginInbound_mirror hi)).of_mirror
  | completeInbound command status =>
    refine Exclusive.of_mirror ?_
    rw [completeInbound_mirror]
    exact h.mirror.completeOutbound hv.mirror command status
  | cancelInbound command =>
    rcases cancelInbound_mirror m command with he | he
    · refine Exclusive.of_mirror ?_
      rw [he]
      exact h.mirror.cancelOutbound command
    · rw [he]; exact h
  | markOutbound ho =>
    obtain ⟨hopen, rfl⟩ := markOutbound_ok ho
    exact ⟨fun _ _ => h.neither (by rw [hopen]; nofun) (by rw [hopen]; nofun), nofun⟩
  | close => exact ⟨fun _ hc => absurd rfl hc, nofun⟩

/-! ## Reservations -/

theorem beginOutbound_reserves (h : m.beginOutbound command = .ok m') (hr : m'.Reserves X) : m.Reserves X ∨ X = command := by
  obtain ⟨-, ⟨-, -, rfl⟩ | ⟨rfl, rfl⟩ | ⟨-, rfl⟩ | ⟨-, rfl⟩⟩ := beginOutbound_ok h
  · rcases hr with ⟨-, rfl⟩ | hu
    · exact .inr rfl
    · exact .inl (.inr hu)
  · rcases hr with hb | ⟨rfl, -⟩
    · exact .inl (.inl hb)
    · exact .inr rfl
  · rcases hr with hb | ⟨-, hu, -⟩
    · exact .inl (.inl hb)
    · cases hu
  · exact .inl hr

theorem cancelOutbound_reserves (hr : (m.cancelOutbound command).Reserves X) : m.Reserves X ∧ X ≠ command := by
  rcases cancelOutbound_cases m command with ⟨hb, -, he⟩ | ⟨hc, -, -, he⟩ | ⟨hc, -, he⟩ | ⟨hnb, hnu, he⟩ <;> rw [he] at hr
  · rcases hr with ⟨hb', hp⟩ | ⟨rfl, hu⟩
    · exact absurd hp.symm (isBindRequest_ne_zero hb')
    · exact ⟨.inr ⟨rfl, hu⟩, by rintro rfl; cases hb⟩
  · rcases hr with ⟨hb', hp⟩ | ⟨-, -, hl⟩
    · exact ⟨.inl ⟨hb', hp⟩, by rintro rfl; rw [hc] at hb'; cases hb'⟩
    · exact absurd rfl hl
  · rcases hr with hr | ⟨-, hu, -⟩
    · exact ⟨.inl hr, by rintro rfl; rw [hc] at hr; cases hr.1⟩
    · cases hu
  · refine ⟨hr, ?_⟩
    rintro rfl
    rcases hr with hr | hr
    · exact hnb hr
    · exact hnu hr

theorem completeOutbound_reserves (hr : (m.completeOutbound command status).Reserves X) : m.Reserves X ∧ X ≠ command := by
  unfold StateMachine.completeOutbound at hr
  split at hr
  · next hb =>
    have hne : commandUnbind ≠ command := by rintro rfl; exact absurd hb (by decide)
    split at hr
    · next hp =>
      refine ⟨hr, ?_⟩
      rintro rfl
      rcases hr with ⟨-, hp'⟩ | ⟨rfl, -⟩
      · exact hp hp'
      · exact hne rfl
    · rcases hr with ⟨hb', hp⟩ | ⟨rfl, hu, hl⟩
      · exact absurd hp.symm (isBindRequest_ne_zero hb')
      · refine ⟨.inr ⟨rfl, ?_, hl⟩, hne⟩
        simp only at hu
        split at hu
        · rcases isBindRequest_cases hb with rfl | rfl | rfl <;> cases hu
        · exact hu
  · next hb =>
    split at hr
    · next hc =>
      rcases hr with ⟨hb', hp⟩ | ⟨-, -, hl⟩
      · refine ⟨.inl ⟨hb', hp⟩, ?_⟩
        rintro rfl
        exact hb hb'
      · exact absurd rfl hl
    · next hc =>
      refine ⟨hr, ?_⟩
      rintro rfl
      rcases hr with ⟨hb', -⟩ | ⟨hu, hs, -⟩
      · exact hb hb'
      · exact hc ⟨hu, hs⟩

theorem beginInbound_reserves (h : m.Exclusive) (hi : m.beginInbound command = .ok m') (hr : m'.Reserves X) :
    m.Reserves X := by
  obtain ⟨hcan, ⟨-, -, rfl⟩ | ⟨rfl, rfl⟩ | ⟨-, rfl⟩ | ⟨-, rfl⟩⟩ := beginInbound_ok hi
  · exact hr
  · rcases hr with hb | ⟨-, -, hl⟩
    · exact .inl hb
    · obtain ⟨hu, hc⟩ := isBoundState_cases (canIssue_unbind hcan)
      exact absurd (h.neither hu hc).1 hl
  · rcases hr with hb | ⟨-, hu, -⟩
    · exact .inl hb
    · cases hu
  · exact hr

theorem completeInbound_reserves (hr : (m.completeInbound command status).Reserves X) : m.Reserves X := by
  unfold StateMachine.completeInbound at hr
  split at hr
  · next hb =>
    split at hr
    · exact hr
    · rcases hr with hp | ⟨rfl, hu, hl⟩
      · exact .inl hp
      · refine .inr ⟨rfl, ?_, hl⟩
        simp only at hu
        split at hu
        · rcases isBindRequest_cases hb with rfl | rfl | rfl <;> cases hu
        · exact hu
  · split at hr
    · next hc =>
      rcases hr with hp | ⟨rfl, -, hl⟩
      · exact .inl hp
      · exact .inr ⟨rfl, hc.2, hl⟩
    · exact hr

theorem cancelInbound_reserves (hr : (m.cancelInbound command).Reserves X) : m.Reserves X := by
  unfold StateMachine.cancelInbound at hr
  simp only at hr
  generalize hm : (if isBindRequest command && m.pendingPeerBind == command then
    { m with pendingPeerBind := 0 } else m) = m₁ at hr
  have hbind : m₁.pendingLocalBind = m.pendingLocalBind ∧ m₁.state = m.state ∧ m₁.localUnbindFrom = m.localUnbindFrom := by
    rw [← hm]
    split <;> exact ⟨rfl, rfl, rfl⟩
  unfold Reserves
  rw [← hbind.1, ← hbind.2.1, ← hbind.2.2]
  split at hr
  · next hu =>
    rcases hr with hp | ⟨rfl, -, hl⟩
    · exact .inl hp
    · exact .inr ⟨rfl, hu.2.1, hl⟩
  · exact hr

theorem Step.closed (hs : m.Step m') (hc : m.state = .closed) (hv : m.Valid) : m'.state = .closed := by
  rcases hv with hf | ⟨bind, hb, hbound⟩
  · rcases hf.state with h | h <;> rw [hc] at h <;> cases h
  · exact hbound.closed_step hb hs hc

theorem not_reserves (hp : m.pendingLocalBind = 0) (hs : m.state ≠ .unbound) : ¬ m.Reserves X := by
  rintro (⟨hb, h⟩ | ⟨-, hu, -⟩)
  · exact absurd (h.symm.trans hp) (isBindRequest_ne_zero hb)
  · exact hs hu

theorem Valid.not_reserves (hv : m.Valid) (hc : m.state = .closed) : ¬ m.Reserves X := by
  rcases hv with hf | ⟨bind, -, hbound⟩
  · rcases hf.state with h | h <;> rw [hc] at h <;> cases h
  · exact StateMachine.not_reserves hbound.localBind (hc ▸ nofun)

theorem Reserves.isLifecycleRequest (h : m.Reserves X) : isLifecycleRequest X := by
  rcases h with ⟨hb, -⟩ | ⟨rfl, -⟩
  · rw [Session.isLifecycleRequest, hb, Bool.true_or]
  · rfl

end Machine

end StateMachine

/-! ## Who moves the machine -/

section Moves
variable {s s' t : Session} {i : Nat} {k : Call} {arm : Arm} {q : Phase}

theorem CallNext.machine (h : CallNext s i k arm t q) : t.machine = s.machine ∨
    (q = .drawing 0 ∧ s.machine.beginOutbound k.command = .ok t.machine) ∨
    ((∃ owned r, k.phase = .cancelling owned r) ∧ t.machine = s.machine.cancelOutbound k.command) := by
  cases h with
  | begin _ hb => exact .inr (.inl ⟨rfl, hb⟩)
  | cancel hp => exact .inr (.inr ⟨⟨_, _, hp⟩, rfl⟩)
  | _ => exact .inl rfl

theorem CallNext.of_cancelling {owned : Bool} {r : Result} (h : CallNext s i k arm t q)
    (hp : k.phase = .cancelling owned r) : t.machine = s.machine.cancelOutbound k.command := by
  cases h with
  | cancel => rfl
  | refuse hp' | check hp' | closed hp' | enter hp' | await hp' | full hp' | slotCtx hp' | slotDone hp' | beginError hp'
  | begin hp' | draw hp' | insert hp' | retry hp' | exhausted hp' | overfull hp' | encode hp' | unencodable hp'
  | enqueue hp' | admitDone hp' | release hp' => rw [hp] at hp'; cases hp'
  | acquire hp' | receive hp' => rcases hp' with hp' | hp' <;> rw [hp] at hp' <;> cases hp'
  | overtaken hp' => rcases hp' with hp' | ⟨frame, hp'⟩ <;> rw [hp] at hp' <;> cases hp'
  | giveUp hp' => rcases hp' with ⟨hp', -⟩ | ⟨hp' | ⟨frame, hp'⟩, -⟩ <;> rw [hp] at hp' <;> cases hp'

theorem taskStep_next {o : Owner} (h : s.taskStep o = some s') : ∃ t l k st rest, s.ledger.nextTask o = some (t, l) ∧
    s.ledger.calls[t.call]? = some k ∧ t.todo = st :: rest ∧
    ((s'.machine = s.machine ∧ st ≠ .complete ∧ st ≠ .cancel) ∨
      (st = .complete ∧ ∃ status, s'.machine = s.machine.completeOutbound k.command status) ∨
      (st = .cancel ∧ s'.machine = s.machine.cancelOutbound k.command)) := by
  obtain ⟨t, l, k, ht, hk, hm⟩ := taskStep_move h
  have hk : s.ledger.calls[t.call]? = some k := by
    obtain ⟨tasks, rfl, -⟩ := Ledger.nextTask_eq ht
    exact hk
  refine ⟨t, l, k, ?_⟩
  cases hm with
  | finish htodo | unschedule htodo | release htodo | send htodo | negotiate htodo | stay htodo =>
    exact ⟨_, _, ht, hk, htodo, .inl ⟨rfl, nofun, nofun⟩⟩
  | close htodo => exact ⟨_, _, ht, hk, htodo, .inl ⟨by rw [terminate_eq], nofun, nofun⟩⟩
  | complete htodo => exact ⟨_, _, ht, hk, htodo, .inr (.inl ⟨rfl, _, rfl⟩)⟩
  | cancel htodo => exact ⟨_, _, ht, hk, htodo, .inr (.inr ⟨rfl, rfl⟩)⟩

/-- The call of `SendOneWay` has passed its checks and not returned. -/
def SendPhase.begun : SendPhase → Bool
  | .beginning | .encoding | .admitting _ | .waiting | .cancelling _ => true
  | .entering | .returned _ => false

theorem SendNext.machine {k : Send} {t : Session} {q : SendPhase} (h : SendNext s i k arm t q) :
    t.machine = s.machine ∨ k.phase.begun ∧
      (s.machine.beginOutbound k.command = .ok t.machine ∨ t.machine = s.machine.cancelOutbound k.command) := by
  cases h
  case begin hp ho => exact .inr ⟨by rw [hp]; rfl, .inl ho⟩
  case cancel hp => exact .inr ⟨by rw [hp]; rfl, .inr rfl⟩
  all_goals exact .inl rfl

theorem SendNext.begun {k : Send} {t : Session} {q : SendPhase} (h : SendNext s i k arm t q) (hq : q.begun) :
    k.phase.begun ∨ isOneWayCommand k.command := by
  cases h
  case enter hc => exact .inr hc
  case begin hp _ | encode hp _ | unencodable hp _ | enqueue hp _ | admitCtx hp | admitDone hp _ =>
    exact .inl (by rw [hp]; rfl)
  all_goals cases hq

end Moves

/-! ## Calls of `SendOneWay` -/

/-- Whoever has passed the checks of `SendOneWay` sends a one-way command. -/
def OneWay (sends : List Send) : Prop := ∀ k ∈ sends, k.phase.begun → isOneWayCommand k.command

section OneWay
variable {s s' : Session} {label : Label}

theorem OneWay.step (ho : OneWay s.sends) (h : s.step label = some s') : OneWay s'.sends := by
  intro k' hk' hb
  obtain ⟨j, hj⟩ := List.getElem?_of_mem hk'
  rcases step_sender h hj with ⟨command, body, -, rfl⟩ | ⟨k, hk, hsame | ⟨arm, t, q, -, hn, -, rfl⟩⟩
  · cases hb
  · rw [hsame.2.2] at hb
    rw [hsame.1]
    exact ho k (List.mem_of_getElem? hk) hb
  · exact (hn.begun hb).elim (ho k (List.mem_of_getElem? hk)) id

theorem not_isLifecycleRequest_of_oneWay {command : CommandID} (h : isOneWayCommand command) :
    isLifecycleRequest command = false := by
  rw [isOneWayCommand, Bool.or_eq_true, beq_iff_eq, beq_iff_eq] at h
  rcases h with rfl | rfl <;> rfl

end OneWay

/-! ## Requests in progress -/

namespace Ledger
variable {c : Config} {l l' : Ledger} {label : Label} {i : Nat} {x : SequenceNumber}

theorem mem_remove {capacity max : Nat} (hc : l.Conserved capacity max) (sequence : SequenceNumber) (t : Task)
    (he : (x, i) ∈ l.pending) : (x, i) ∈ (l.remove sequence t).pending ∨ l.pending.lookup sequence = some i := by
  by_cases hx : x = sequence
  · exact .inr (hx ▸ lookup_of_mem hc.keys he)
  · exact .inl ((List.mem_eraseP_of_neg (by simpa using hx)).mpr he)

theorem Step.entry (h : l.Step c label l') (hc : l.Conserved c.windowSize c.maxPending) (he : (x, i) ∈ l.pending) :
    (x, i) ∈ l'.pending ∨ (∃ pdu, responseTask i pdu ∈ l'.tasks) ∨ (∃ err, errorTask .deadline i err [.cancel] ∈ l'.tasks) ∨
    (∃ j arm k err, label = .call j arm ∧ l.calls[j]? = some k ∧ k.phase.registered ∧
      l.pending.lookup k.sequence = some i ∧
      l' = (l.remove k.sequence (errorTask (.caller j) i err [])).goto j (.cancelling false (.error err))) ∨
    label = .term := by
  cases h.table with
  | same _ heq => exact .inl (heq ▸ he)
  | insert _ _ heq =>
    subst heq
    exact .inl (List.mem_cons_of_mem _ he)
  | @abandon j k arm j' err hk hr hl heq =>
    subst heq
    rcases mem_remove hc k.sequence (errorTask (.caller j) j' err []) he with he | hi
    · exact .inl he
    · rw [hl] at hi
      cases hi
      exact .inr (.inr (.inr (.inl ⟨j, arm, k, err, rfl, hk, hr, hl, rfl⟩)))
  | @take _ _ j hj heq =>
    subst heq
    rcases mem_remove hc _ (responseTask j _) he with he | hi
    · exact .inl he
    · rw [hj] at hi
      cases hi
      exact .inr (.inl ⟨_, List.mem_cons_self⟩)
  | @timeout sequence j err hj heq =>
    subst heq
    rcases mem_remove hc sequence (errorTask .deadline j err [.cancel]) he with he | hi
    · exact .inl he
    · rw [hj] at hi
      cases hi
      exact .inr (.inr (.inl ⟨err, List.mem_cons_self⟩))
  | sweep => exact .inr (.inr (.inr (.inr rfl)))

end Ledger

/-- The caller has reserved the machine and is going to insert its request or to cancel it. -/
def Phase.reserved : Phase → Bool
  | .drawing _ | .inserting _ | .cancelling _ _ => true
  | _ => false

/-- The request of the call is on its way to the table or in it, or whoever has removed it is going to complete or cancel
it: the caller itself, the RX loop or the deadline loop. -/
def InProgress (s : Session) (i : Nat) (k : Call) : Prop :=
  k.phase.reserved ∨ (∃ x, (x, i) ∈ s.ledger.pending) ∨
  ∃ r st, (st = .complete ∨ st = .cancel) ∧ s.ledger.WillDo i r st

/-- Some request of the command is in progress. -/
def Served (s : Session) (command : CommandID) : Prop :=
  ∃ i k, s.ledger.calls[i]? = some k ∧ k.command = command ∧ s.InProgress i k

section Progress
variable {config : Config} {s s' : Session} {label : Label} {i : Nat} {k : Call}

/-- The step gives the reservation of the call up. -/
def GivesUp (s : Session) (label : Label) (i : Nat) (k : Call) : Prop :=
  (∃ arm owned r, label = .call i arm ∧ k.phase = .cancelling owned r) ∨
  ∃ o t l st rest, label = .task o ∧ s.ledger.nextTask o = some (t, l) ∧ t.call = i ∧ t.todo = st :: rest ∧
    (st = .complete ∨ st = .cancel)

theorem InProgress.caller_step (h : k.phase.reserved) (hs : s.step label = some s') (hk : s.ledger.calls[i]? = some k)
    {k' : Call} (hk' : s'.ledger.calls[i]? = some k') : s'.InProgress i k' ∨ s.GivesUp label i k := by
  rcases step_own hs hk hk' with ho | ⟨arm, t, q, rfl, hn, rfl, ho⟩
  · exact .inl (.inl (by rw [ho.phase]; exact h))
  · have hphase {q' : Phase} (hq : q = q') (hr : q'.reserved) : (t.goto i q).InProgress i k' ∨ s.GivesUp (.call i arm) i k :=
      .inl (.inl (by rw [ho.phase, hq]; exact hr))
    cases hn with
    | draw | retry | exhausted | overfull | giveUp | unencodable => exact hphase rfl rfl
    | insert => exact .inl (.inr (.inl ⟨k.sequence, List.mem_cons_self⟩))
    | cancel hp => exact .inr (.inl ⟨_, _, _, rfl, hp⟩)
    | refuse hp | check hp | closed hp | enter hp | await hp | full hp | slotCtx hp | slotDone hp | beginError hp | begin hp
    | encode hp | enqueue hp | admitDone hp | release hp => rw [hp] at h; cases h
    | acquire hp | receive hp => rcases hp with hp | hp <;> rw [hp] at h <;> cases h
    | overtaken hp => rcases hp with hp | ⟨frame, hp⟩ <;> rw [hp] at h <;> cases h

/-- **A request in progress stays so until its reservation is given up**, or the table is swept. -/
theorem InProgress.step (h : s.InProgress i k) (hid : Identified config s) (hs : s.step label = some s')
    (hown : s.ledger.OwnEntry label) (hsweep : label = .term → s.termination ≠ .sweeping)
    (hk : s.ledger.calls[i]? = some k) :
    (∃ k', s'.ledger.calls[i]? = some k' ∧ k'.command = k.command ∧ s'.InProgress i k') ∨ s.GivesUp label i k := by
  obtain ⟨k', hk', hstep⟩ := (step_ledger hs).call hid.conserves hk
  suffices hp : s'.InProgress i k' ∨ s.GivesUp label i k from
    hp.imp_left fun hp => ⟨k', hk', hstep.command, hp⟩
  rcases h with h | ⟨x, he⟩ | ⟨r, st, hst, hw⟩
  · exact InProgress.caller_step h hs hk hk'
  · left
    rcases (step_ledger hs).entry hid.conserves he with
      he | ⟨pdu, ht⟩ | ⟨err, ht⟩ | ⟨j, arm, kj, err, rfl, hkj, hr, hl, heq⟩ | rfl
    · exact .inr (.inl ⟨x, he⟩)
    · exact .inr (.inr ⟨_, .complete, .inl rfl, _, ht, rfl, rfl, by simp [responseTask]⟩)
    · exact .inr (.inr ⟨_, .cancel, .inr rfl, _, ht, rfl, rfl, by simp [errorTask]⟩)
    · -- the caller has found its own request
      obtain rfl := hown j arm kj i rfl hkj hr hl
      rw [heq] at hk'
      obtain ⟨n, hn⟩ := Ledger.remove_call kj.sequence (errorTask (.caller i) i err []) hkj
      rw [show (Ledger.goto (s.ledger.remove kj.sequence (errorTask (.caller i) i err [])) i
        (.cancelling false (.error err))).calls[i]? = _ from Ledger.calls_modify hn i _, if_pos rfl] at hk'
      cases hk'
      exact .inl rfl
    · -- `terminate` has not reached the table
      have hl : s'.ledger = s.ledger := by
        cases termStep_move hs with
        | sweep hterm => exact absurd hterm (hsweep rfl)
        | close | done | clear => rfl
      exact .inr (.inl ⟨x, hl ▸ he⟩)
  · have hne : st ≠ .release := by rcases hst with rfl | rfl <;> decide
    rcases (step_ledger hs).willDo hne hw with hw' | ⟨o, t, l₀, rest, rfl, ht, hi, -, htodo⟩
    · exact .inl (.inr (.inr ⟨r, st, hst, hw'⟩))
    · exact .inr (.inr ⟨o, t, l₀, st, rest, rfl, ht, hi, htodo, hst⟩)

end Progress

/-! ## The invariant -/

/-- `machine.Close` has been called. -/
def Termination.ended : Termination → Bool
  | .running | .closing => false
  | .ending | .sweeping | .clearing | .finished => true

/-- A caller that gives up finds its own request under its number, or none. -/
def OwnEntry (s : Session) (label : Label) : Prop := s.ledger.OwnEntry label

/-- What holds in every run: the machine has at most one unbind, its pending binds are binds, and it is closed at the end. -/
structure Regular (config : Config) (s : Session) : Prop where
  identified : Identified config s
  oneWay : OneWay s.sends
  valid : s.machine.Valid
  exclusive : s.machine.Exclusive
  pending : ∀ {bind}, bind ≠ 0 → s.machine.pendingLocalBind = bind ∨ s.machine.pendingPeerBind = bind →
    isBindRequest bind
  ended : s.termination.ended → s.machine.state = .closed

structure Accounted (config : Config) (s : Session) : Prop extends Regular config s where
  served : ∀ {command}, s.machine.Reserves command → s.Served command

section Accounted
variable {config : Config} {role : Role} {s s' : Session} {label : Label} {command : CommandID}

theorem regular_new (config : Config) (role : Role) : Regular config (new config role) where
  identified := identified_new config role
  oneWay k hk := absurd hk List.not_mem_nil
  valid := .inl ⟨.inl rfl, rfl, rfl, fun h => absurd rfl h, fun h => absurd rfl h⟩
  exclusive := ⟨fun _ _ => ⟨rfl, rfl⟩, nofun⟩
  pending hne hp := by rcases hp with rfl | rfl <;> exact absurd rfl hne
  ended h := by cases h

theorem accounted_new (config : Config) (role : Role) : Accounted config (new config role) where
  toRegular := regular_new config role
  served h := absurd h (StateMachine.not_reserves rfl nofun)

theorem Regular.ended_step (h : Regular config s) (hs : s.step label = some s') (he : s'.termination.ended) :
    s'.machine.state = .closed := by
  have hstay (hc : s.machine.state = .closed) : s'.machine.state = .closed :=
    step_keeps hs hc fun hm => hm.closed hc h.valid
  rcases step_termination hs with ht | ⟨-, ht⟩ | ⟨-, ht⟩
  · exact hstay (h.ended (ht ▸ he))
  · rw [ht] at he; cases he
  · cases termStep_move ht with
    | close => rfl
    | done hterm | sweep hterm | clear hterm => exact h.ended (by rw [hterm]; rfl)

theorem Regular.step (h : Regular config s) (hs : s.step label = some s') : Regular config s' where
  identified := h.identified.step hs
  oneWay := h.oneWay.step hs
  valid := step_keeps hs h.valid fun hm => h.valid.step hm
  exclusive := step_keeps hs h.exclusive fun hm => h.exclusive.step h.valid hm
  pending hne hp := by
    rcases (step_machine hs).step with hm | hm
    · rw [hm] at hp; exact h.pending hne hp
    · exact (hm.pending hne hp).elim (h.pending hne) (·.1)
  ended he := h.ended_step hs he

theorem Regular.read (h : Regular config s) (wire : List Octets) : Regular config { s with wire } where
  identified := ⟨h.identified.configured, h.identified.conserved, h.identified.entered, h.identified.number, h.identified.frame⟩
  oneWay := h.oneWay
  valid := h.valid
  exclusive := h.exclusive
  pending := h.pending
  ended := h.ended

theorem Accounted.served_persist (h : Accounted config s) (hs : s.step label = some s') (hown : s.OwnEntry label)
    (hr : s.machine.Reserves command)
    (hkeep : ∀ {i : Nat} {k : Call}, s.ledger.calls[i]? = some k → s.GivesUp label i k → k.command ≠ command) :
    s'.Served command := by
  obtain ⟨i, k, hk, hc, hp⟩ := h.served hr
  have hsweep : label = .term → s.termination ≠ .sweeping := by
    rintro - hsw
    exact h.valid.not_reserves (h.ended (by rw [hsw]; rfl)) hr
  rcases hp.step h.identified hs hown hsweep hk with ⟨k', hk', hc', hp'⟩ | hg
  · exact ⟨i, k', hk', hc'.trans hc, hp'⟩
  · exact absurd hc (hkeep hk hg)

theorem Accounted.served_call (h : Accounted config s) {j : Nat} {arm : Arm} (hs : s.step (.call j arm) = some s')
    (hown : s.OwnEntry (.call j arm)) (hr : s'.machine.Reserves command) : s'.Served command := by
  obtain ⟨k, hk, -, hc⟩ := step_call hs
  obtain ⟨t, q, hn, rfl⟩ := callStep_next hc
  have hr : t.machine.Reserves command := hr
  -- the only reservation a caller gives up is its own
  have hgives {i : Nat} {k₁ : Call} (hk₁ : s.ledger.calls[i]? = some k₁) (hg : s.GivesUp (.call j arm) i k₁) :
      i = j ∧ t.machine = s.machine.cancelOutbound k.command ∧ k₁ = k := by
    rcases hg with ⟨arm', owned, r, hl, hp⟩ | ⟨o, t, l, st, rest, hl, -⟩
    · cases hl
      rw [hk] at hk₁
      cases hk₁
      exact ⟨rfl, hn.of_cancelling hp, rfl⟩
    · cases hl
  have hcancel (hm : t.machine = s.machine.cancelOutbound k.command) : s.machine.Reserves command ∧ command ≠ k.command :=
    StateMachine.cancelOutbound_reserves (hm ▸ hr)
  have hkeep {i : Nat} {k₁ : Call} (hk₁ : s.ledger.calls[i]? = some k₁) (hg : s.GivesUp (.call j arm) i k₁) :
      k₁.command ≠ command := by
    obtain ⟨rfl, hm, rfl⟩ := hgives hk₁ hg
    exact (hcancel hm).2.symm
  rcases hn.machine with hm | ⟨rfl, hb⟩ | ⟨-, hm⟩
  · exact h.served_persist hs hown (hm ▸ hr) hkeep
  · rcases StateMachine.beginOutbound_reserves hb hr with hr | rfl
    · exact h.served_persist hs hown hr hkeep
    · obtain ⟨k', hk', hstep⟩ := (step_ledger hs).call h.identified.conserves hk
      have ho := hn.own hk hk'
      exact ⟨j, k', hk', ho.command, .inl (by rw [ho.phase]; rfl)⟩
  · exact h.served_persist hs hown (hcancel hm).1 hkeep

theorem Accounted.served_task (h : Accounted config s) {o : Owner} (hs : s.step (.task o) = some s')
    (hown : s.OwnEntry (.task o)) (hr : s'.machine.Reserves command) : s'.Served command := by
  obtain ⟨t, l, k, st, rest, ht, hk, htodo, hm⟩ := taskStep_next hs
  have hgives {i : Nat} {k₁ : Call} (hk₁ : s.ledger.calls[i]? = some k₁) (hg : s.GivesUp (.task o) i k₁) :
      (st = .complete ∨ st = .cancel) ∧ k₁ = k := by
    rcases hg with ⟨arm', owned, r, hl, -⟩ | ⟨o', t', l', st', rest', hl, ht', hi, htodo', hst⟩
    · cases hl
    · cases hl
      rw [ht] at ht'
      cases ht'
      rw [htodo] at htodo'
      cases htodo'
      rw [← hi, hk] at hk₁
      cases hk₁
      exact ⟨hst, rfl⟩
  rcases hm with ⟨hm, hne, hne'⟩ | ⟨-, status, hm⟩ | ⟨-, hm⟩
  · refine h.served_persist hs hown (hm ▸ hr) fun hk₁ hg => ?_
    rcases (hgives hk₁ hg).1 with hst | hst
    · exact absurd hst hne
    · exact absurd hst hne'
  · obtain ⟨hr, hne⟩ := StateMachine.completeOutbound_reserves (hm ▸ hr)
    refine h.served_persist hs hown hr fun hk₁ hg => ?_
    rw [(hgives hk₁ hg).2]
    exact hne.symm
  · obtain ⟨hr, hne⟩ := StateMachine.cancelOutbound_reserves (hm ▸ hr)
    refine h.served_persist hs hown hr fun hk₁ hg => ?_
    rw [(hgives hk₁ hg).2]
    exact hne.symm

theorem Accounted.served_other (h : Accounted config s) (hs : s.step label = some s') (hown : s.OwnEntry label)
    (hl : (∀ i arm, label ≠ .call i arm) ∧ ∀ o, label ≠ .task o) (hr : s'.machine.Reserves command) :
    s'.Served command := by
  have hkeep {i : Nat} {k : Call} (_ : s.ledger.calls[i]? = some k) (hg : s.GivesUp label i k) : k.command ≠ command := by
    rcases hg with ⟨arm, owned, r, hlabel, -⟩ | ⟨o, t, l, st, rest, hlabel, -⟩
    · exact absurd hlabel (hl.1 i arm)
    · exact absurd hlabel (hl.2 o)
  refine h.served_persist hs hown ?_ hkeep
  by_cases hsend : ∃ i arm, label = .send i arm
  · obtain ⟨i, arm, rfl⟩ := hsend
    obtain ⟨k, hk, hs⟩ := step_send hs
    have honeWay (hb : k.phase.begun) : isLifecycleRequest k.command = false :=
      not_isLifecycleRequest_of_oneWay (h.oneWay k (List.mem_of_getElem? hk) hb)
    obtain ⟨t, q, hn, rfl⟩ := sendStep_next hs
    have hr : t.machine.Reserves command := hr
    rcases hn.machine with hm | ⟨hb, ho | hm⟩
    · exact hm ▸ hr
    · rcases StateMachine.beginOutbound_reserves ho hr with hr' | rfl
      · exact hr'
      · have := hr.isLifecycleRequest
        rw [honeWay hb] at this
        cases this
    · exact (StateMachine.cancelOutbound_reserves (hm ▸ hr)).1
  · have hstep := step_machine hs
    have hout : label.outbound = false := by
      cases label with
      | call i arm => exact absurd rfl (hl.1 i arm)
      | task o => exact absurd rfl (hl.2 o)
      | send i arm => exact absurd ⟨i, arm, rfl⟩ hsend
      | _ => rfl
    generalize s'.machine = m at hstep hr
    cases hstep with
    | same => exact hr
    | beginOutbound ho => rw [hout] at ho; cases ho
    | cancelOutbound _ ho => rw [hout] at ho; cases ho
    | completeOutbound => cases hout
    | beginInbound _ hi => exact StateMachine.beginInbound_reserves h.exclusive hi hr
    | completeInbound => exact StateMachine.completeInbound_reserves hr
    | cancelInbound => exact StateMachine.cancelInbound_reserves hr
    | close => exact absurd hr (StateMachine.not_reserves rfl nofun)

/-- The step lemma. -/
theorem Accounted.step (h : Accounted config s) (hs : s.step label = some s') (hown : s.OwnEntry label) :
    Accounted config s' where
  toRegular := h.toRegular.step hs
  served hr := by
    cases label with
    | call i arm => exact h.served_call hs hown hr
    | task o => exact h.served_task hs hown hr
    | _ => exact h.served_other hs hown ⟨nofun, nofun⟩ hr

theorem run_accounted (h : sessions.Run OwnEntry (new config role) s) : Accounted config s :=
  h.invariant (P := Accounted config) (fun _ _ _ hok hs ha => ha.step hs hok) (accounted_new config role)

theorem Numbered.ownEntry {n : Nat} (h : Numbered n s) (hid : Identified config s) : s.OwnEntry label := by
  rintro i arm k j rfl hk hr hl
  obtain ⟨kj, hkj, hseq, hreg⟩ := hid.entered (mem_of_lookup hl)
  exact h.distinct hkj hk hseq (hid.number hkj (.inr hreg))

theorem trace_ownEntry {tr : List (Session × Label)} (h : sessions.Trace (new config role) tr s)
    (hn : drawn tr ≤ 0x7fffffff) : sessions.Run OwnEntry (new config role) s := by
  induction h with
  | nil => exact .refl _
  | snoc htr hs ih =>
    rw [drawn_snoc] at hn
    have hnum := trace_numbered htr (by omega)
    exact .tail (ih (by omega)) (hnum.ownEntry (trace_correlates htr).identified) hs

theorem run_bound {bind : CommandID} (hb : isBindRequest bind) (hbound : s.machine.Bound bind)
    (h : sessions.Run OwnEntry s s') : s'.machine.Bound bind := by
  refine h.invariant (P := fun s => s.machine.Bound bind) (fun s label s' _ hs hbound => ?_) hbound
  exact step_keeps hs hbound fun hm => hbound.step hb hm

/-- **No reservation is left behind**, as long as a caller that gives up finds its own request under its number, or none: a
pending bind, and an unbind that has taken the machine to unbound, are served by a request in progress; and once no unbind
is in progress, a session that was bound is in the same mode again, unless it is closed or its peer is unbinding. -/
theorem run_reserved (h : sessions.Run OwnEntry (new config role) s) :
    (s.machine.pendingLocalBind ≠ 0 → isBindRequest s.machine.pendingLocalBind ∧ s.Served s.machine.pendingLocalBind) ∧
    (s.machine.state = .unbound → s.machine.localUnbindFrom ≠ .closed → s.Served commandUnbind) ∧
    ∀ bind s', isBindRequest bind → s.machine.state = boundStateForBind bind → sessions.Run OwnEntry s s' →
      ¬ s'.Served commandUnbind → s'.machine.state = boundStateForBind bind ∨ s'.machine.state = .closed ∨
        (s'.machine.state = .unbound ∧ s'.machine.localUnbindFrom = .closed) := by
  have ha := run_accounted h
  refine ⟨fun hne => ?_, fun hu hl => ha.served (.inr ⟨rfl, hu, hl⟩), fun bind s' hb hs hrun hnot => ?_⟩
  · have hb := ha.pending hne (.inl rfl)
    exact ⟨hb, ha.served (.inl ⟨hb, rfl⟩)⟩
  · have hbound := run_bound hb (ha.valid.bound hb hs) hrun
    have ha' := run_accounted (h.trans hrun)
    rcases hbound.state with hst | hst | hst
    · exact .inl hst
    · refine .inr (.inr ⟨hst, ?_⟩)
      by_contra hl
      exact hnot (ha'.served (.inr ⟨rfl, hst, hl⟩))
    · exact .inr (.inl hst)

theorem run_reserved_sentBind : ∃ s, sessions.Run OwnEntry (new {} .esme) s ∧
    s.machine.pendingLocalBind = commandBindTransceiver ∧ s.Served commandBindTransceiver := by
  have htrace := System.trace_after sessions (new {} .esme) sentBind (by decide +kernel)
  have hdrawn : drawn (sessions.trace (new {} .esme) sentBind) ≤ 0x7fffffff := by decide +kernel
  have hpending : (sessions.after anyStep (new {} .esme) sentBind).machine.pendingLocalBind = commandBindTransceiver := by
    decide +kernel
  have hrun := trace_ownEntry htrace hdrawn
  have hserved := ((run_reserved hrun).1 (by rw [hpending]; decide)).2
  exact ⟨_, hrun, hpending, hpending ▸ hserved⟩

end Accounted

/-! ## A number that comes round -/

section Stranded
variable {s : Session} {command : CommandID} {body : Value} {err : Err}

theorem finishPDU_error {out : Slice} {header header' : Header} {dst : Octets}
    (h : finishPDU out 0 header = .returned (dst, some err)) : finishPDU out 0 header' = .returned (dst, some err) := by
  unfold finishPDU encodeHeader at *
  simp only [truncated_zero] at *
  split at h
  · next he =>
    split at he
    · next hshort =>
      rw [if_pos hshort]
      cases he
      exact h
    · next hshort =>
      rw [if_neg hshort]
      split at he
      · next hlen =>
        rw [if_pos hlen]
        cases he
        exact h
      · cases he
  · cases h

theorem encodeFrame_error {registry : Registry} {header header' : Header} (hid : header'.commandID = header.commandID)
    (hst : header'.commandStatus = header.commandStatus) (h : encodeFrame registry header body = .error err) :
    encodeFrame registry header' body = .error err := by
  obtain ⟨dst, hret⟩ : ∃ dst, encodePDU registry [] header body = .returned (dst, some err) := by
    unfold encodeFrame at h
    split at h
    · cases h
    · next dst e he => cases h; exact ⟨dst, he⟩
    · next v hv => exact absurd hv (encodePDU_nil registry header body v)
  have hret' : encodePDU registry [] header' body = .returned (dst, some err) := by
    unfold encodePDU at *
    simp only [hid, hst, List.length_nil, truncated_zero] at *
    split at hret
    · exact hret
    · split at hret
      · exact hret
      · exact finishPDU_error hret
    · split at hret
      · exact finishPDU_error hret
      · exact hret
  unfold encodeFrame
  rw [hret']

/-- The session after calls of `SendOneWay` that draw a number each and fail to encode. -/
def afterSends (s : Session) (command : CommandID) (body : Value) (err : Err) (n : Nat) : Session :=
  { s with
    ledger := { s.ledger with sequence := next^[n] s.ledger.sequence }
    sends := s.sends ++ List.replicate n { command, body, phase := .returned (some err) } }

/-- A one-way command that the machine lets pass and that cannot be encoded. -/
structure Unencodable (s : Session) (command : CommandID) (body : Value) (err : Err) : Prop where
  oneWay : isOneWayCommand command
  running : s.termination.done = false
  begins : s.machine.beginOutbound command = .ok s.machine
  cancels : s.machine.cancelOutbound command = s.machine
  error : ∀ sequenceNumber, encodeFrame s.config.registry
    { commandID := command, commandStatus := statusOK, sequenceNumber } body = .error err

/-- The session with one more call of `SendOneWay`, at a point of its way. -/
def sending (s : Session) (command : CommandID) (body : Value) (phase : SendPhase) (sequence : UInt32) : Session :=
  { s with ledger := { s.ledger with sequence }, sends := s.sends ++ [{ command, body, phase }] }

theorem sending_step (p : SendPhase) (v : UInt32) :
    (s.sending command body p v).step (.send s.sends.length .go) =
      (s.sending command body p v).sendStep s.sends.length { command, body, phase := p } .go := by
  show ((s.sends ++ [_])[s.sends.length]?).bind _ = _
  rw [List.getElem?_append_right (Nat.le_refl _), Nat.sub_self]
  rfl

theorem sending_gotoSend (p q : SendPhase) (v : UInt32) :
    (s.sending command body p v).gotoSend s.sends.length q = s.sending command body q v := by
  unfold gotoSend sending
  simp only [List.modify_eq_take_drop, List.take_left', List.drop_left']
  rfl

theorem run_failedSend (h : Unencodable s command body err) :
    sessions.Run anyStep s (s.sending command body (.returned (some err)) (next s.ledger.sequence)) := by
  have h1 : sessions.step s (.sendOneWay command body) = some (s.sending command body .entering s.ledger.sequence) := rfl
  have h2 : sessions.step (s.sending command body .entering s.ledger.sequence) (.send s.sends.length .go) =
      some (s.sending command body .beginning s.ledger.sequence) := by
    refine (sending_step ..).trans ?_
    rw [← sending_gotoSend .entering .beginning]
    show some (if !isOneWayCommand command then _ else if s.termination.done then _ else _) = _
    simp only [h.oneWay, h.running, Bool.not_true, Bool.false_eq_true, if_false]
  have h3 : sessions.step (s.sending command body .beginning s.ledger.sequence) (.send s.sends.length .go) =
      some (s.sending command body .encoding s.ledger.sequence) := by
    refine (sending_step ..).trans ?_
    rw [← sending_gotoSend .beginning .encoding]
    have hbegins : (s.sending command body .beginning s.ledger.sequence).machine.beginOutbound command = _ := h.begins
    simp only [Session.sendStep, hbegins]
    rfl
  have h4 : sessions.step (s.sending command body .encoding s.ledger.sequence) (.send s.sends.length .go) =
      some (s.sending command body (.cancelling err) (next s.ledger.sequence)) := by
    refine (sending_step ..).trans ?_
    rw [← sending_gotoSend .encoding (.cancelling err), ← nextSequence_eq]
    have herror (n : SequenceNumber) : encodeFrame (s.sending command body .encoding s.ledger.sequence).config.registry
      { commandID := command, commandStatus := statusOK, sequenceNumber := n } body = .error err := h.error n
    simp only [Session.sendStep, herror]
    rfl
  have h5 : sessions.step (s.sending command body (.cancelling err) (next s.ledger.sequence)) (.send s.sends.length .go) =
      some (s.sending command body (.returned (some err)) (next s.ledger.sequence)) := by
    refine (sending_step ..).trans ?_
    rw [← sending_gotoSend (.cancelling err) (.returned (some err))]
    show some (Session.gotoSend { s.sending command body (.cancelling err) (next s.ledger.sequence) with
      machine := s.machine.cancelOutbound command } _ _) = _
    rw [h.cancels]
    rfl
  have hbegun : sessions.Run anyStep s _ := (((System.Run.refl s).tail trivial h1).tail trivial h2).tail trivial h3
  exact (hbegun.tail trivial h4).tail trivial h5

theorem run_afterSends (h : Unencodable s command body err) (n : Nat) :
    sessions.Run anyStep s (s.afterSends command body err n) := by
  induction n with
  | zero =>
    rw [afterSends, List.replicate_zero, List.append_nil]
    exact .refl s
  | succ n ih =>
    have hn : Unencodable (s.afterSends command body err n) command body err :=
      ⟨h.oneWay, h.running, h.begins, h.cancels, h.error⟩
    have hstep := ih.trans (run_failedSend hn)
    rw [afterSends, List.replicate_succ', ← List.append_assoc, Function.iterate_succ_apply']
    exact hstep

/-- An SMSC that has accepted a transceiver bind, and whose `enquire_link` has been answered but whose caller has not taken
the response from its channel. -/
def answeredLink : List Label :=
  [.frame [0, 0, 0, 23, 0, 0, 0, 9, 0, 0, 0, 0, 0, 0, 0, 1, 0, 0, 0, 0x34, 0, 0, 0], .rx .go,
    .rx (.handled (.returned (.ok
      { status := statusOK, body := .struct (.bindResponse { systemID := [], optional := [] }) }))), .rx .go] ++
  List.replicate 9 (.tx .go) ++
  .request commandEnquireLink emptyBody true :: List.replicate 8 (.call 0 .go) ++ List.replicate 11 (.tx .go) ++
  .frame enquireLinkResp :: List.replicate 7 (.task .rx)

/-- The session unbinds, and then the context of the `enquire_link` is done. -/
def strandedUnbind : List Label :=
  .request commandUnbind emptyBody true :: List.replicate 8 (.call 1 .go) ++ List.replicate 11 (.tx .go) ++
  .call 0 .ctx :: List.replicate 4 (.task (.caller 0)) ++ [.call 0 .go, .call 1 .go]

def linkedSmsc : Session := sessions.after anyStep (new { handler := true } .smsc) answeredLink

def alertError : Err := invalidPDUValue "expected protocol.AlertNotification, got protocol.EmptyBody"

theorem linkedSmsc_unencodable : Unencodable linkedSmsc commandAlertNotification emptyBody alertError where
  oneWay := rfl
  running := by decide +kernel
  begins := by
    rw [show linkedSmsc.machine = { role := .smsc, state := .boundTRX } by decide +kernel]
    rfl
  cancels := by
    rw [show linkedSmsc.machine = { role := .smsc, state := .boundTRX } by decide +kernel]
    rfl
  error v := by
    have h0 : encodeFrame (smpp34Registry .compatible)
        { commandID := commandAlertNotification, commandStatus := statusOK, sequenceNumber := 0 } emptyBody =
        .error alertError := by decide +kernel
    rw [show linkedSmsc.config = { handler := true } from run_config (System.run_after sessions anyStep _ answeredLink
      (by decide +kernel))]
    refine encodeFrame_error ?_ ?_ h0 <;> rfl

/-- The session when the numbers have come to their end. -/
def lastNumber : Session :=
  { linkedSmsc with
    ledger := { linkedSmsc.ledger with sequence := 0x7fffffff }
    sends := linkedSmsc.sends ++
      List.replicate 2147483646 { command := commandAlertNotification, body := emptyBody, phase := .returned (some alertError) } }

theorem afterSends_lastNumber : linkedSmsc.afterSends commandAlertNotification emptyBody alertError 2147483646 = lastNumber := by
  have hone : linkedSmsc.ledger.sequence = 1 := by decide +kernel
  have hlast : next^[2147483646] linkedSmsc.ledger.sequence = 0x7fffffff := by
    rw [hone]
    apply UInt32.toNat_inj.mp
    exact (toNat_iterate_next 1 2147483645).trans (by decide)
  rw [afterSends, hlast]
  rfl

/-- Numbers are drawn until they come round: the `unbind` gets the number of the answered `enquire_link`, whose caller
gives up and takes the `unbind` from the pending requests. Both calls have returned, nothing is queued or pending, and the
session, which still runs, stays unbound. -/
theorem strandedUnbind_unbound : ∃ s, sessions.Run anyStep (new { handler := true } .smsc) s ∧
    s.termination = .running ∧ s.machine.state = .unbound ∧ s.machine.localUnbindFrom = .boundTRX ∧
    s.ledger.pending = [] ∧ s.ledger.tasks = [] ∧ s.queue = [] ∧
    s.ledger.calls.map (·.phase) = List.replicate 2 (.returned (.error (.sentinel .contextDone))) := by
  have hlinked := System.run_after sessions anyStep (new { handler := true } .smsc) answeredLink (by decide +kernel)
  have hround := run_afterSends linkedSmsc_unencodable 2147483646
  rw [afterSends_lastNumber] at hround
  have hstranded := System.run_after sessions anyStep lastNumber strandedUnbind (by decide +kernel)
  refine ⟨_, (hlinked.trans hround).trans hstranded, ?_⟩
  decide +kernel

end Stranded

end GoSmpp.Session
