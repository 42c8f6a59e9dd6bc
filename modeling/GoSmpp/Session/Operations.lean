import GoSmpp.Lib.Run
import GoSmpp.Session.StateMachine

/-!
# Package `session`: every sequence of operations on a state machine

The exported operations of `StateMachine` in any order, with any commands and statuses. An operation that returns an error
leaves the machine as it is.

* `machines`: the machine as a step system, and `apply_step`: an operation is a `Step` or does nothing.
* `Bound.closed_step`, `Bound.unbound_step`: nothing leaves `Closed`, and nothing happens in `Unbound` but its end.
* `Begun`, `Traced`: a bound machine got there by a bind that the ESME began before.
* `run_machine`: the safety of the machine along every run.
-/

namespace GoSmpp.Session
open Lib Protocol

/-- The operations of `StateMachine` after `Open`. -/
inductive Operation where
  | beginOutbound (command : CommandID)
  | cancelOutbound (command : CommandID)
  | completeOutbound (command : CommandID) (status : CommandStatus)
  | beginInbound (command : CommandID)
  | completeInbound (command : CommandID) (status : CommandStatus)
  | cancelInbound (command : CommandID)
  | markOutbound
  | close
  deriving DecidableEq, Repr

namespace StateMachine

/-- The machine after an operation that can fail. -/
def orSame (m : StateMachine) : Except Err StateMachine → StateMachine
  | .ok m' => m'
  | .error _ => m

def apply (m : StateMachine) : Operation → StateMachine
  | .beginOutbound command => m.orSame (m.beginOutbound command)
  | .cancelOutbound command => m.cancelOutbound command
  | .completeOutbound command status => m.completeOutbound command status
  | .beginInbound command => m.orSame (m.beginInbound command)
  | .completeInbound command status => m.completeInbound command status
  | .cancelInbound command => m.cancelInbound command
  | .markOutbound => m.orSame m.markOutbound
  | .close => m.close

theorem newStateMachine_open (role : Role) : (newStateMachine role).open = .ok { role, state := .open } := rfl

def machines : System StateMachine Operation where
  step m op := some (m.apply op)

section Steps
variable {m m' : StateMachine} {bind : CommandID}

theorem apply_step (m : StateMachine) (op : Operation) : m.apply op = m ∨ m.Step (m.apply op) := by
  have hor {x : Except Err StateMachine} (h : ∀ m', x = .ok m' → m.Step m') : m.orSame x = m ∨ m.Step (m.orSame x) := by
    cases x with
    | error err => exact .inl rfl
    | ok m' => exact .inr (h m' rfl)
  cases op with
  | beginOutbound command => exact hor fun _ h => .beginOutbound h
  | cancelOutbound command => exact .inr (.cancelOutbound m command)
  | completeOutbound command status => exact .inr (.completeOutbound m command status)
  | beginInbound command => exact hor fun _ h => .beginInbound h
  | completeInbound command status => exact .inr (.completeInbound m command status)
  | cancelInbound command => exact .inr (.cancelInbound m command)
  | markOutbound => exact hor fun _ h => .markOutbound h
  | close => exact .inr (.close m)

/-! ## What a machine past its bind does not do -/

/-- What an operation can do to a bound machine: nothing, close it, end an unbind or begin one. -/
def Passes (bind : CommandID) (m m' : StateMachine) : Prop :=
  m' = m ∨ m'.state = .closed ∨ (m.state = .unbound ∧ m'.state = boundStateForBind bind) ∨
    (m.state = boundStateForBind bind ∧ m'.state = .unbound)

theorem Passes.of_mirror (h : Passes bind m.mirror m'.mirror) : Passes bind m m' := by
  rcases h with h | h
  · left
    rw [← mirror_mirror m', h, mirror_mirror]
  · exact .inr h

theorem Bound.passes_beginOutbound (hb : isBindRequest bind) (h : m.Bound bind) {command : CommandID}
    (ho : m.beginOutbound command = .ok m') : Passes bind m m' := by
  obtain rfl | ⟨hs, rfl⟩ := h.beginOutbound_eq hb ho
  · exact .inl rfl
  · exact .inr (.inr (.inr ⟨hs, rfl⟩))

theorem Bound.passes_cancelOutbound (hb : isBindRequest bind) (h : m.Bound bind) (command : CommandID) :
    Passes bind m (m.cancelOutbound command) := by
  rcases h.cancelOutbound_eq hb command with he | ⟨-, hs, -, he⟩ <;> rw [he]
  · exact .inl rfl
  · exact .inr (.inr (.inl ⟨hs, rfl⟩))

theorem Bound.passes_completeOutbound (h : m.Bound bind) (command : CommandID) (status : CommandStatus) :
    Passes bind m (m.completeOutbound command status) := by
  rcases h.completeOutbound_eq command status with he | ⟨-, -, -, he⟩ | ⟨-, hs, -, -, he⟩ <;> rw [he]
  · exact .inl rfl
  · exact .inr (.inl rfl)
  · exact .inr (.inr (.inl ⟨hs, rfl⟩))

theorem Bound.passes (hb : isBindRequest bind) (h : m.Bound bind) (hs : m.Step m') : Passes bind m m' := by
  cases hs with
  | beginOutbound ho => exact h.passes_beginOutbound hb ho
  | cancelOutbound command => exact h.passes_cancelOutbound hb command
  | completeOutbound command status => exact h.passes_completeOutbound command status
  | beginInbound hi => exact (h.mirror.passes_beginOutbound hb (beginInbound_mirror hi)).of_mirror
  | completeInbound command status =>
    refine Passes.of_mirror ?_
    rw [completeInbound_mirror]
    exact h.mirror.passes_completeOutbound command status
  | cancelInbound command =>
    rcases cancelInbound_mirror m command with he | he
    · exact Passes.of_mirror (by rw [he]; exact h.mirror.passes_cancelOutbound hb command)
    · exact .inl he
  | markOutbound ho => exact absurd (markOutbound_ok ho).1 (h.not_open hb).1
  | close => exact .inr (.inl rfl)

theorem Bound.closed_step (hb : isBindRequest bind) (h : m.Bound bind) (hs : m.Step m') (hc : m.state = .closed) :
    m'.state = .closed := by
  rcases h.passes hb hs with rfl | hc' | ⟨hu, -⟩ | ⟨hm, -⟩
  · exact hc
  · exact hc'
  · rw [hc] at hu; cases hu
  · rw [hc] at hm
    rcases isBindRequest_cases hb with rfl | rfl | rfl <;> cases hm

theorem Bound.unbound_step (hb : isBindRequest bind) (h : m.Bound bind) (hs : m.Step m') (hu : m.state = .unbound) :
    m' = m ∨ m'.state ≠ .unbound := by
  have hne : boundStateForBind bind ≠ .unbound := by
    rcases isBindRequest_cases hb with rfl | rfl | rfl <;> decide
  rcases h.passes hb hs with he | hc | ⟨-, hm⟩ | ⟨hm, -⟩
  · exact .inl he
  · right; rw [hc]; decide
  · right; rw [hm]; exact hne
  · rw [hu] at hm; exact absurd hm.symm hne

end Steps

/-! ## Where a bound mode comes from -/

/-- The ESME begins a bind, in a state that allows it: by `BeginOutbound` on its own machine, by `BeginInbound` on the
machine of the SMSC. -/
def BeginsBind (bind : CommandID) (m m' : StateMachine) : Prop :=
  isBindRequest bind ∧ (m.state = .open ∨ m.state = .outbound) ∧
    ((m.role = .esme ∧ m.beginOutbound bind = .ok m') ∨ (m.role = .smsc ∧ m.beginInbound bind = .ok m'))

/-- A bind was begun on the way from `m₀` to `m`. -/
def Begun (m₀ : StateMachine) (bind : CommandID) (m : StateMachine) : Prop :=
  ∃ m₁ m₂, machines.Run anyStep m₀ m₁ ∧ BeginsBind bind m₁ m₂ ∧ machines.Run anyStep m₂ m

/-- A pending bind and the mode of a bound machine go back to a bind that was begun. -/
def Traced (m₀ m : StateMachine) : Prop :=
  (m.Fresh ∧ ∀ bind, bind ≠ 0 → m.pendingLocalBind = bind ∨ m.pendingPeerBind = bind → Begun m₀ bind m) ∨
  ∃ bind, isBindRequest bind ∧ m.Bound bind ∧ (m.state ≠ .closed → Begun m₀ bind m)

section Traces
variable {m₀ m m' : StateMachine} {bind : CommandID}

theorem cancelOutbound_pending (m : StateMachine) (command : CommandID) :
    ((m.cancelOutbound command).pendingLocalBind = m.pendingLocalBind ∨ (m.cancelOutbound command).pendingLocalBind = 0) ∧
    (m.cancelOutbound command).pendingPeerBind = m.pendingPeerBind := by
  unfold StateMachine.cancelOutbound
  simp only
  split <;> split <;> split <;> simp

theorem completeOutbound_pending (m : StateMachine) (command : CommandID) (status : CommandStatus) :
    ((m.completeOutbound command status).pendingLocalBind = m.pendingLocalBind ∨
      (m.completeOutbound command status).pendingLocalBind = 0) ∧
    (m.completeOutbound command status).pendingPeerBind = m.pendingPeerBind := by
  unfold StateMachine.completeOutbound
  split
  · split <;> simp
  · split <;> simp

/-- A bind is pending after a transition because it was before, or because it has just begun. -/
theorem Step.pending (hs : m.Step m') (hbind : bind ≠ 0) (hp : m'.pendingLocalBind = bind ∨ m'.pendingPeerBind = bind) :
    (m.pendingLocalBind = bind ∨ m.pendingPeerBind = bind) ∨ BeginsBind bind m m' := by
  have hkept {a b a' b' : CommandID} (h : (a' = a ∨ a' = 0) ∧ b' = b) (hp : a' = bind ∨ b' = bind) :
      a = bind ∨ b = bind := by
    obtain ⟨h | h, rfl⟩ := h
    · rw [← h]; exact hp
    · rw [h] at hp
      exact .inr (hp.resolve_left hbind.symm)
  cases hs with
  | beginOutbound ho =>
    obtain ⟨hcan, ⟨hb, -, rfl⟩ | ⟨-, rfl⟩ | ⟨-, rfl⟩ | ⟨-, rfl⟩⟩ := beginOutbound_ok ho
    · rcases hp with rfl | hp
      · exact .inr ⟨hb, (canIssue_bind hcan hb).2, .inl ⟨(canIssue_bind hcan hb).1, ho⟩⟩
      · exact .inl (.inr hp)
    · exact .inl hp
    · exact .inl hp
    · exact .inl hp
  | cancelOutbound command => exact .inl (hkept (cancelOutbound_pending m command) hp)
  | completeOutbound command status => exact .inl (hkept (completeOutbound_pending m command status) hp)
  | beginInbound hi =>
    obtain ⟨hcan, ⟨hb, -, rfl⟩ | ⟨-, rfl⟩ | ⟨-, rfl⟩ | ⟨-, rfl⟩⟩ := beginInbound_ok hi
    · rcases hp with hp | rfl
      · exact .inl (.inl hp)
      · obtain ⟨hrole, hs⟩ := canIssue_bind hcan hb
        refine .inr ⟨hb, hs, .inr ⟨?_, hi⟩⟩
        cases hr : m.role
        · rw [hr] at hrole; cases hrole
        · rfl
    · exact .inl hp
    · exact .inl hp
    · exact .inl hp
  | completeInbound command status =>
    have h := completeOutbound_pending m.mirror command status
    rw [← completeInbound_mirror] at h
    exact .inl (hkept h hp.symm).symm
  | cancelInbound command =>
    rcases cancelInbound_mirror m command with he | he
    · have h := cancelOutbound_pending m.mirror command
      rw [← he] at h
      exact .inl (hkept h hp.symm).symm
    · rw [he] at hp; exact .inl hp
  | markOutbound ho =>
    obtain ⟨-, rfl⟩ := markOutbound_ok ho
    exact .inl hp
  | close => rcases hp with hp | hp <;> exact absurd hp.symm hbind

theorem Begun.tail (h : Begun m₀ bind m) (op : Operation) : Begun m₀ bind (m.apply op) := by
  obtain ⟨m₁, m₂, h₁, hb, h₂⟩ := h
  exact ⟨m₁, m₂, h₁, hb, .tail h₂ trivial rfl⟩

/-- The step lemma. -/
theorem Traced.step (hrun : machines.Run anyStep m₀ m) (h : Traced m₀ m) (op : Operation) : Traced m₀ (m.apply op) := by
  rcases apply_step m op with he | hs
  · rw [he]; exact h
  rcases h with ⟨hf, hbegun⟩ | ⟨bind, hb, hbound, hbegun⟩
  · rcases hf.step hs with hf' | ⟨bind, hb, hp, hbound⟩ | hclose
    · refine .inl ⟨hf', fun bind hne hp => ?_⟩
      rcases hs.pending hne hp with hp' | hnew
      · exact (hbegun bind hne hp').tail op
      · exact ⟨m, m.apply op, hrun, hnew, .refl _⟩
    · exact .inr ⟨bind, hb, hbound, fun _ => (hbegun bind (isBindRequest_ne_zero hb) hp).tail op⟩
    · refine .inr ⟨commandBindTransmitter, by decide, ?_, fun hne => ?_⟩
      · rw [hclose]; exact bound_close m _
      · rw [hclose] at hne; exact absurd rfl hne
  · refine .inr ⟨bind, hb, hbound.step hb hs, fun hne => (hbegun ?_).tail op⟩
    intro hc
    exact hne (hbound.closed_step hb hs hc)

theorem traced_run {role : Role} (hopen : (newStateMachine role).open = .ok m₀) (h : machines.Run anyStep m₀ m) :
    Traced m₀ m := by
  induction h with
  | refl =>
    cases hopen
    exact .inl ⟨⟨.inl rfl, rfl, rfl, fun h => absurd rfl h, fun h => absurd rfl h⟩, fun bind hne hp =>
      absurd (hp.elim Eq.symm Eq.symm) hne⟩
  | tail hrun _ hst ih =>
    cases hst
    exact ih.step hrun _

theorem Bound.run (hb : isBindRequest bind) (h : m.Bound bind) (hrun : machines.Run anyStep m m') : m'.Bound bind := by
  refine hrun.invariant (P := StateMachine.Bound bind) ?_ h
  intro m op m' _ hst hm
  cases hst
  rcases apply_step m op with he | hs
  · rw [he]; exact hm
  · exact hm.step hb hs

theorem Bound.run_closed (hb : isBindRequest bind) (h : m.Bound bind) (hc : m.state = .closed)
    (hrun : machines.Run anyStep m m') : m'.state = .closed := by
  refine (hrun.invariant (P := fun m => m.Bound bind ∧ m.state = .closed) ?_ ⟨h, hc⟩).2
  rintro m op m' - hst ⟨hm, hc⟩
  cases hst
  rcases apply_step m op with he | hs
  · rw [he]; exact ⟨hm, hc⟩
  · exact ⟨hm.step hb hs, hm.closed_step hb hs hc⟩

theorem Bound.run_unbound (hb : isBindRequest bind) (h : m.Bound bind)
    (hrun : machines.Run (fun m _ => m.state = .unbound) m m') (hu : m'.state = .unbound) : m' = m := by
  induction hrun with
  | refl => rfl
  | @tail t u op hrun hok hst ih =>
    cases hst
    have ht := ih hok
    subst ht
    rcases apply_step t op with he | hs
    · exact he
    · exact (h.unbound_step hb hs hok).resolve_right (fun hne => hne hu)

theorem localUnbind_restored (hu : m.state = .unbound) (hl : m.localUnbindFrom ≠ .closed) :
    (m.cancelOutbound commandUnbind).state = m.localUnbindFrom ∧
    ∀ status, CommandStatus.ok status = false → (m.completeOutbound commandUnbind status).state = m.localUnbindFrom := by
  have ho : ¬ (commandUnbind = commandOutbind ∧ m.localUnbindFrom = .outbound) := fun h => absurd h.1 (by decide)
  constructor
  · simp only [StateMachine.cancelOutbound, not_isBindRequest_unbind, Bool.false_and, Bool.false_eq_true, if_false, hu, hl,
      ne_eq, not_false_eq_true, and_self, if_true, if_neg ho]
  · intro status hok
    simp only [StateMachine.completeOutbound, not_isBindRequest_unbind, Bool.false_eq_true, if_false, hu, hok, hl, ne_eq,
      not_false_eq_true, and_self, if_true]

theorem peerUnbind_restored (hu : m.state = .unbound) (hp : m.peerUnbindFrom ≠ .closed) :
    (m.cancelInbound commandUnbind).state = m.peerUnbindFrom ∧
    ∀ status, CommandStatus.ok status = false → (m.completeInbound commandUnbind status).state = m.peerUnbindFrom := by
  constructor
  · simp only [StateMachine.cancelInbound, not_isBindRequest_unbind, Bool.false_and, Bool.false_eq_true, if_false, hu, hp,
      ne_eq, not_false_eq_true, and_self, if_true]
  · intro status hok
    simp only [StateMachine.completeInbound, not_isBindRequest_unbind, Bool.false_eq_true, if_false, hu, hok, hp, ne_eq,
      not_false_eq_true, and_self, if_true]

/-- **The safety of the state machine**, in every state that any operations lead to after `Open`. A bound mode is that of a
bind the ESME has begun before, and from then on the machine is in that mode, unbound or closed. An unbind that is
cancelled or refused, whatever was called in the meantime, restores the mode. Nothing leaves `Closed`. -/
theorem run_machine {role : Role} (hopen : (newStateMachine role).open = .ok m₀) (h : machines.Run anyStep m₀ m) :
    (isBoundState m.state →
      (∃ bind, m.state = boundStateForBind bind ∧ Begun m₀ bind m) ∧
      (∀ m', machines.Run anyStep m m' → m'.state = m.state ∨ m'.state = .unbound ∨ m'.state = .closed) ∧
      (∀ m₁ m₂, m.beginOutbound commandUnbind = .ok m₁ → machines.Run (fun m _ => m.state = .unbound) m₁ m₂ →
        m₂.state = .unbound → (m₂.cancelOutbound commandUnbind).state = m.state ∧
          ∀ status, CommandStatus.ok status = false → (m₂.completeOutbound commandUnbind status).state = m.state) ∧
      (∀ m₁ m₂, m.beginInbound commandUnbind = .ok m₁ → machines.Run (fun m _ => m.state = .unbound) m₁ m₂ →
        m₂.state = .unbound → (m₂.cancelInbound commandUnbind).state = m.state ∧
          ∀ status, CommandStatus.ok status = false → (m₂.completeInbound commandUnbind status).state = m.state)) ∧
    (m.state = .closed → ∀ m', machines.Run anyStep m m' → m'.state = .closed) := by
  rcases traced_run hopen h with ⟨hf, -⟩ | ⟨bind, hb, hbound, hbegun⟩
  · constructor
    · intro hm
      rcases hf.state with hs | hs <;> rw [hs] at hm <;> cases hm
    · intro hc
      rcases hf.state with hs | hs <;> rw [hs] at hc <;> cases hc
  · refine ⟨fun hm => ?_, fun hc m' hrun => hbound.run_closed hb hc hrun⟩
    have hs := hbound.state_of_unbind hm
    have hne : m.state ≠ .closed := by
      intro hc
      rw [hc] at hm
      cases hm
    refine ⟨⟨bind, hs, hbegun hne⟩, fun m' hrun => ?_, fun m₁ m₂ ho hrun hu => ?_, fun m₁ m₂ hi hrun hu => ?_⟩
    · rw [hs]
      exact (hbound.run hb hrun).state
    · obtain rfl : m₂ = m₁ := Bound.run_unbound hb (hbound.beginOutbound hb ho) hrun hu
      obtain ⟨-, ⟨hc, -⟩ | ⟨-, rfl⟩ | ⟨hc, -⟩ | ⟨hc, -⟩⟩ := beginOutbound_ok ho
      · cases hc
      · exact localUnbind_restored rfl hne
      · cases hc
      · cases hc
    · obtain rfl : m₂ = m₁ := Bound.run_unbound hb (hbound.step hb (.beginInbound hi)) hrun hu
      obtain ⟨-, ⟨hc, -⟩ | ⟨-, rfl⟩ | ⟨hc, -⟩ | ⟨hc, -⟩⟩ := beginInbound_ok hi
      · cases hc
      · exact peerUnbind_restored rfl hne
      · cases hc
      · cases hc

/-- An ESME that binds as a transceiver; its unbind is refused. -/
def refusedUnbind : List Operation :=
  [.beginOutbound commandBindTransceiver, .completeOutbound commandBindTransceiver statusOK, .beginOutbound commandUnbind,
    .completeOutbound commandUnbind statusSystemError]

theorem run_machine_refusedUnbind :
    ∃ m, machines.Run anyStep { role := .esme, state := .open } m ∧ m.state = .boundTRX ∧
      (∃ bind, m.state = boundStateForBind bind ∧ Begun { role := .esme, state := .open } bind m) ∧
      ∀ m', machines.Run anyStep m m' → m'.state = .boundTRX ∨ m'.state = .unbound ∨ m'.state = .closed := by
  have hrun := System.run_after machines anyStep { role := .esme, state := .open } refusedUnbind rfl
  obtain ⟨⟨hbind, hstay, -⟩, -⟩ := And.imp_left (fun h => h rfl) (run_machine (newStateMachine_open .esme) hrun)
  exact ⟨_, hrun, rfl, hbind, hstay⟩

end Traces

end StateMachine

end GoSmpp.Session
