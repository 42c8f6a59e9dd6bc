import GoSmpp.Session.Lifecycle
import GoSmpp.Session.Reservation

/-!
# A failed bind or unbind can be tried again

A call of `Request` that returns an error, or a response that is one, must have given its reservation of the state machine up
before, or the same request made next is refused on its account. The RX loop completes a request before it sends the response
to the caller, and a caller that gives up cancels its request itself; the deadline loop cancels it after the caller has the error.

* `Awaited`: a call whose request is going to be completed with a response has not returned.
* `run_retry`: the machine is not reserved on account of a call that has failed, as long as no bind or unbind times out.
* `timedOutBind_refused`: a bind that has timed out, and the next one refused because of it.
-/

namespace GoSmpp.Session
open Lib Protocol Codec

/-- The call has failed: with an error, or with a response that is one. -/
def Result.failed : Result → Bool
  | .error _ => true
  | .ok pdu => (responseError pdu).isSome

/-- The deadline loop does not find a bind or an unbind in the table. -/
def untimed (s : Session) : Label → Bool
  | .fire => s.expired.head?.all fun item => (s.ledger.pending.lookup item.sequence).all fun i =>
      (s.ledger.calls[i]?).all fun k => !isLifecycleRequest k.command
  | _ => true

/-- No bind or unbind times out, and the requests are well answered. -/
abbrev Retriable (s : Session) (label : Label) : Prop := s.WellAnswered label ∧ s.untimed label = true

namespace Ledger
variable {c : Config} {l l' : Ledger} {label : Label} {i : Nat} {k : Call}

/-- The call of a request that is going to be completed with a response waits for it. -/
def Awaited (registry : Registry) (l : Ledger) : Prop :=
  ∀ {t pdu}, t ∈ l.tasks → t.result = .ok pdu → .send ∈ t.todo → ∃ k, l.calls[t.call]? = some k ∧ Awaits registry k

theorem CallStep.returned {k' : Call} {r : Result} (h : CallStep c l l' label i k k') (hreg : k.phase.registered)
    (hp : k'.phase = .returned r) : label = .call i .go ∧ ∃ rs, k.done = r :: rs := by
  cases h with
  | receive hl _ hd =>
    cases hp
    exact ⟨hl, _, hd⟩
  | same hs => rw [hs] at hp; rw [show k.phase = _ from hp] at hreg; cases hreg
  | @move q hq => have := hq.registered.trans hreg; rw [show q = _ from hp] at this; cases this
  | prepare he => rw [early_not_registered he] at hreg; cases hreg
  | insert => cases hp
  | leave _ _ _ _ hs => rw [hs] at hp; cases hp
  | send => rw [show k.phase = _ from hp] at hreg; cases hreg

theorem CallStep.awaits_unsent {k' : Call} {r : Result} (h : CallStep c l l' label i k k')
    (hc : l.Conserved c.windowSize c.maxPending) (hk : l.calls[i]? = some k) (hown : l.OwnEntry label)
    (ha : Awaits c.registry k) (hr : l.WillSend i r) : Awaits c.registry k' := by
  rcases h.awaits hc hk hown ha (.inr hr) with ⟨ha', -⟩ | hp
  · exact ha'
  · -- nothing can be in the channel yet
    obtain ⟨-, rs, hd⟩ := h.returned ha.1 hp
    have hcall := hc.call hk
    have h1 := hcall.once
    have h2 := hcall.entries
    have h3 := hcall.sent
    have h4 := hcall.done
    have hpos := hr.pos
    rw [hd, List.length_cons] at h4
    omega

theorem Awaited.step (h : l.Awaited c.registry) (hcor : l.Correlated c.registry) (hs : l.Step c label l')
    (hc : l.Conserved c.windowSize c.maxPending) (hown : l.OwnEntry label) (henc : Encodable c l label) :
    l'.Awaited c.registry := by
  intro t' pdu ht' hr hsend
  rcases hs.mem_task ht' with ⟨t, ht, hcall, hres, htodo⟩ | ⟨err, herr⟩ | ⟨frame, pdu', i, -, rfl, hd, hi, -, -, rfl⟩
  · have hsend : .send ∈ t.todo := (htodo _ hsend).resolve_right (by decide)
    obtain ⟨k, hk, ha⟩ := h ht (hres ▸ hr) hsend
    obtain ⟨k', hk', hstep⟩ := hs.call hc hk
    exact ⟨k', hcall ▸ hk', hstep.awaits_unsent hc hk hown ha ⟨t, ht, rfl, rfl, hsend⟩⟩
  · rw [herr] at hr
    cases hr
  · cases hr
    obtain ⟨k', hk', ⟨ha, -⟩ | hp⟩ := (hcor.step hs hc hown henc).task ht' rfl hsend
    · exact ⟨k', hk', ha⟩
    · -- a call whose request was in the table has not returned
      obtain ⟨k, hk, -, hreg⟩ := hcor.entry (mem_of_lookup hi)
      obtain ⟨k'', hk'', hstep⟩ := hs.call hc hk
      rw [show l'.calls[i]? = some k' from hk'] at hk''
      cases hk''
      cases (hstep.returned hreg hp).1

theorem Step.cancels (h : l.Step c label l') {t' : Task} (ht' : t' ∈ l'.tasks) (hc : .cancel ∈ t'.todo) :
    (∃ t ∈ l.tasks, t'.call = t.call ∧ .cancel ∈ t.todo) ∨
    ∃ sequence, label = .fire ∧ l.pending.lookup sequence = some t'.call := by
  cases h.origin ht' with
  | goesOn ht hcall _ htodo => exact .inl ⟨_, ht, hcall, (htodo _ hc).resolve_right (by decide)⟩
  | error ht => simp [ht, errorTask] at hc
  | timeout hl hi ht => exact .inr ⟨_, hl, by rw [ht]; exact hi⟩
  | response _ _ _ _ _ ht => simp [ht, responseTask] at hc

end Ledger

/-! ## The invariant -/

/-- What holds of the reservations in every run in which no bind or unbind times out. -/
structure Kept (config : Config) (s : Session) : Prop extends Accounted config s where
  correlated : s.ledger.Correlated config.registry
  awaited : s.ledger.Awaited config.registry
  /-- nobody is going to cancel a bind or an unbind but its caller -/
  uncancelled : ∀ {t k}, t ∈ s.ledger.tasks → s.ledger.calls[t.call]? = some k → isLifecycleRequest k.command →
    .cancel ∉ t.todo

section Kept
variable {config : Config} {role : Role} {s s' : Session} {label : Label} {i : Nat} {k : Call}

theorem kept_new (config : Config) (role : Role) : Kept config (new config role) where
  toAccounted := accounted_new config role
  correlated := Ledger.correlated_empty _
  awaited h := absurd h List.not_mem_nil
  uncancelled h := absurd h List.not_mem_nil

theorem fire_untimed {t : Task} (hs : s.step .fire = some s') (hok : s.untimed .fire = true) (ht : t ∈ s'.ledger.tasks) :
    t ∈ s.ledger.tasks ∨ ∀ k, s.ledger.calls[t.call]? = some k → isLifecycleRequest k.command = false := by
  cases fire_move hs with
  | @timeout item expired i _ he hi =>
    rcases List.mem_cons.mp ht with rfl | hm
    · right
      intro k hk
      have hok : s.expired.head?.all _ = true := hok
      rw [he, List.head?_cons, Option.all_some, hi, Option.all_some, show s.ledger.calls[i]? = some k from hk,
        Option.all_some] at hok
      simpa using hok
    · exact .inl hm
  | late => exact .inl ht

theorem Kept.uncancelled_step (h : Kept config s) (hs : s.step label = some s') (hok : s.untimed label = true) {t' : Task}
    {k' : Call} (ht' : t' ∈ s'.ledger.tasks) (hk' : s'.ledger.calls[t'.call]? = some k')
    (hl : isLifecycleRequest k'.command) : .cancel ∉ t'.todo := by
  intro hc
  -- the call has kept its command
  have hcommand {k : Call} (hk : s.ledger.calls[t'.call]? = some k) : isLifecycleRequest k.command := by
    obtain ⟨k₁, hk₁, hstep⟩ := (step_ledger hs).call h.identified.conserves hk
    rw [hk'] at hk₁
    cases hk₁
    rw [← hstep.command]
    exact hl
  have hold {t : Task} (ht : t ∈ s.ledger.tasks) (hcall : t'.call = t.call) (hc : .cancel ∈ t.todo) : False := by
    obtain ⟨k, hk⟩ : ∃ k, s.ledger.calls[t.call]? = some k :=
      ⟨_, List.getElem?_eq_getElem (h.identified.conserved.task t ht).1⟩
    exact h.uncancelled ht hk (hcommand (hcall ▸ hk)) hc
  rcases (step_ledger hs).cancels ht' hc with ⟨t, ht, hcall, hc⟩ | ⟨sequence, rfl, hi⟩
  · exact hold ht hcall hc
  · rcases fire_untimed hs hok ht' with ht | hnot
    · exact hold ht rfl hc
    · obtain ⟨k, hk, -⟩ := h.correlated.entry (mem_of_lookup hi)
      have := hcommand hk
      rw [hnot k hk] at this
      cases this

/-- The step lemma. -/
theorem Kept.step (h : Kept config s) (hs : s.step label = some s') (hok : s.Retriable label) : Kept config s' := by
  obtain rfl := h.identified.configured
  have hl := step_ledger hs
  have hown := hok.1.ownEntry
  exact {
    toAccounted := h.toAccounted.step hs hown
    correlated := h.correlated.step hl h.identified.conserved hown hok.1.encodable
    awaited := Ledger.Awaited.step h.awaited h.correlated hl h.identified.conserved hown hok.1.encodable
    uncancelled := fun ht hk hlc => h.uncancelled_step hs hok.2 ht hk hlc }

theorem run_kept (h : sessions.Run Retriable (new config role) s) : Kept config s :=
  h.invariant (P := Kept config) (fun _ _ _ hok hs h => h.step hs hok) (kept_new config role)

theorem Kept.not_over (h : Kept config s) (hk : s.ledger.calls[i]? = some k) (hl : isLifecycleRequest k.command)
    (hp : s.InProgress i k) : k.phase.over = false := by
  have hreg (hr : k.phase.registered) : k.phase.over = false := by
    cases hphase : k.phase <;> rw [hphase] at hr <;> first | rfl | cases hr
  rcases hp with hr | ⟨x, he⟩ | ⟨r, st, rfl | rfl, t, ht, rfl, -, hst⟩
  · cases hphase : k.phase <;> rw [hphase] at hr <;> first | rfl | cases hr
  · obtain ⟨k', hk', -, hr⟩ := h.correlated.entry he
    rw [hk] at hk'
    cases hk'
    exact hreg hr
  · have hplanned := (h.identified.conserved.task t ht).2
    obtain ⟨pdu, hres⟩ := hplanned.of_response hst (.inl rfl)
    obtain ⟨k', hk', ha⟩ := h.awaited ht hres (hplanned.send_of_mem_complete hst)
    rw [hk] at hk'
    cases hk'
    exact hreg ha.1
  · exact absurd hst (h.uncancelled ht hk hl)

/-! ## Bound by a bind that succeeded -/

/-- A bind has been answered with a response that is no error. -/
def BoundFor (config : Config) (s : Session) : Prop :=
  ∃ j k pdu, s.ledger.calls[j]? = some k ∧ isBindRequest k.command ∧ responseError pdu = none ∧
    s.ledger.Delivers config.registry j pdu

theorem BoundFor.step (h : s.BoundFor config) (hsound : s.Sound config) (hs : s.step label = some s')
    (hok : s.WellAnswered label) : s'.BoundFor config := by
  obtain rfl := hsound.configured
  obtain ⟨j, k, pdu, hk, hb, hnone, hd⟩ := h
  obtain ⟨k', hk', hstep⟩ := (step_ledger hs).call hsound.conserved hk
  exact ⟨j, k', pdu, hk', by rw [hstep.command]; exact hb, hnone, hd.step (step_ledger hs) hsound.conserved hok.ownEntry⟩

theorem run_boundFor (h : sessions.Run WellAnswered (new config .esme) s) :
    s.machine.Fresh ∨ s.machine.state = .closed ∨ s.BoundFor config := by
  suffices hp : s.Sound config ∧ (s.machine.Fresh ∨ s.machine.state = .closed ∨ s.BoundFor config) from hp.2
  refine h.invariant
    (P := fun s => s.Sound config ∧ (s.machine.Fresh ∨ s.machine.state = .closed ∨ s.BoundFor config)) ?_
    ⟨sound_new config, .inl ((sound_new config).valid.elim id fun ⟨_, hb, hbound⟩ => absurd rfl (hbound.not_open hb).1)⟩
  rintro s label s' hok hs ⟨hsound, hf | hc | hb⟩
  · refine ⟨hsound.step hok hs, ?_⟩
    rcases (step_machine hs).fresh hf with hf' | hc | ⟨o, t, l, k, rest, pdu, -, ht, hk, htodo, hr, hbind, hst, -, -⟩ |
      ⟨item, rest, batch, -, -, -, -, hsmsc, -⟩
    · exact .inl hf'
    · exact .inr (.inl (by rw [hc]; rfl))
    · obtain ⟨hnone, hd⟩ := hsound.complete ht hk htodo hr (by rw [isLifecycleRequest, hbind, Bool.true_or]) hst
      have hbound : s.BoundFor config := ⟨t.call, k, pdu, hk, hbind, hnone, hd⟩
      exact .inr (.inr (hbound.step hsound hs hok))
    · rw [hsound.role] at hsmsc
      cases hsmsc
  · exact ⟨hsound.step hok hs, .inr (.inl (step_keeps hs hc fun hm => hm.closed hc hsound.valid))⟩
  · exact ⟨hsound.step hok hs, .inr (.inr (hb.step hsound hs hok))⟩

/-! ## The retry -/

theorem run_role {ok : Session → Label → Prop} (h : sessions.Run ok (new config role) s) : s.machine.role = role := by
  refine h.invariant (P := fun s => s.machine.role = role) (fun s label s' _ hs hr => ?_) rfl
  exact step_keeps hs hr fun hm => hm.role.trans hr

/-- Why `BeginOutbound` refuses the request of a call `i` again, on account of another. -/
inductive Refused (s : Session) (i : Nat) (command : CommandID) : Prop
  /-- an SMSC does not bind -/
  | role : isBindRequest command → s.machine.role = .smsc → Refused s i command
  /-- the SMSC has asked for a bind with an outbind -/
  | outbound : isBindRequest command → s.machine.state = .outbound → Refused s i command
  /-- another bind has succeeded -/
  | bound {j k pdu} : isBindRequest command → j ≠ i → s.ledger.calls[j]? = some k → isBindRequest k.command →
      responseError pdu = none → Answered j pdu s → Refused s i command
  /-- the session has not been bound -/
  | unbound : command = commandUnbind → s.machine.state = .open ∨ s.machine.state = .outbound → Refused s i command
  /-- the peer is unbinding -/
  | peer : command = commandUnbind → s.machine.state = .unbound → s.machine.localUnbindFrom = .closed → Refused s i command
  /-- an unbind has been accepted, or the session is ending -/
  | closed : s.machine.state = .closed → Refused s i command

theorem beginOutbound_error {m : StateMachine} {command : CommandID} {err : Err} (h : m.beginOutbound command = .error err) :
    canIssue m.state m.role command = false ∨
    (isBindRequest command ∧ m.pendingLocalBind ≠ 0) := by
  unfold StateMachine.beginOutbound at h
  split at h
  case isTrue hcan => exact .inl (by simpa using hcan)
  case isFalse =>
    split at h
    case isTrue hp => exact .inr (by simpa using hp)
    case isFalse => cases h

theorem beginOutbound_bindInProgress {m : StateMachine} {command : CommandID}
    (h : m.beginOutbound command = .error (.sentinel .bindInProgress)) : m.pendingLocalBind ≠ 0 := by
  unfold StateMachine.beginOutbound at h
  split at h
  case isTrue => cases h
  case isFalse =>
    split at h
    case isTrue hp => simp only [Bool.and_eq_true, bne_iff_ne] at hp; exact hp.2
    case isFalse => cases h

theorem Delivers.answered {registry : Registry} {pdu : DecodedPDU} (h : s.ledger.Delivers registry i pdu) : Answered i pdu s := by
  obtain ⟨k, hk, ⟨⟨hr, -⟩, -⟩ | hp⟩ := h
  · exact ⟨k, hk, .inl hr⟩
  · exact ⟨k, hk, .inr hp⟩

theorem refused_bind {r : Result} (hesme : s.machine.role = .esme → s.machine.Fresh ∨ s.BoundFor config)
    (hk : s.ledger.calls[i]? = some k) (hp : k.phase = .returned r) (hr : r.failed) (hb : isBindRequest k.command)
    (hcan : canIssue s.machine.state s.machine.role k.command = false) : s.Refused i k.command := by
  cases hrole : s.machine.role with
  | smsc => exact .role hb hrole
  | esme =>
    rcases hesme hrole with hf | ⟨j, kj, pdu, hkj, hbj, hnone, hd⟩
    · rcases hf.state with ho | ho
      · rw [ho, hrole] at hcan
        rcases isBindRequest_cases hb with hc | hc | hc <;> rw [hc] at hcan <;> cases hcan
      · exact .outbound hb ho
    · refine .bound hb ?_ hkj hbj hnone (Delivers.answered hd)
      rintro rfl
      have := hd.returned hk hp
      rw [this, Result.failed, hnone] at hr
      cases hr

theorem refused_unbind (hv : s.machine.Valid)
    (hnot : ¬ s.machine.Reserves commandUnbind) (hcan : canIssue s.machine.state s.machine.role commandUnbind = false) :
    s.Refused i commandUnbind := by
  rcases hv with hf | ⟨bind, hb, hbound⟩
  · exact .unbound rfl hf.state
  · rcases hbound.state with hst | hst | hst
    · have hbs := isBoundState_boundStateForBind hb
      rw [hst] at hcan
      rcases isBindRequest_cases hb with rfl | rfl | rfl <;> cases hrole : s.machine.role <;> rw [hrole] at hcan <;> cases hcan
    · refine .peer rfl hst ?_
      by_contra hl
      exact hnot (.inr ⟨rfl, hst, hl⟩)
    · exact .closed hst

/-- **A failed bind or unbind can be tried again at once.** In a run in which no bind or unbind times out, once a bind or an
unbind has returned an error or a response that is one, and no other bind or unbind is in progress, the machine is not
reserved, and the same request is not refused because a bind is in progress, nor for the state but on account of another. -/
theorem run_retry {r : Result} (h : sessions.Run Retriable (new config role) s)
    (hk : s.ledger.calls[i]? = some k) (hl : isLifecycleRequest k.command) (hp : k.phase = .returned r) (hr : r.failed)
    (hother : ∀ (j : Nat) (k : Call), j ≠ i → s.ledger.calls[j]? = some k → isLifecycleRequest k.command →
      ¬ s.InProgress j k) :
    (∀ command, ¬ s.machine.Reserves command) ∧
    s.machine.beginOutbound k.command ≠ .error (.sentinel .bindInProgress) ∧
    ∀ err, s.machine.beginOutbound k.command = .error err → s.Refused i k.command := by
  have hkept := run_kept h
  have hnot (command : CommandID) : ¬ s.machine.Reserves command := by
    intro hres
    obtain ⟨j, kj, hkj, hc, hprog⟩ := hkept.served hres
    have hlj : isLifecycleRequest kj.command := by rw [hc]; exact hres.isLifecycleRequest
    by_cases hji : j = i
    · subst hji
      rw [hk] at hkj
      cases hkj
      have := hkept.not_over hk hl hprog
      rw [hp] at this
      cases this
    · exact hother j kj hji hkj hlj hprog
  have hpending : s.machine.pendingLocalBind = 0 := by
    by_contra hne
    exact hnot _ (.inl ⟨hkept.pending hne (.inl rfl), rfl⟩)
  refine ⟨hnot, fun hb => beginOutbound_bindInProgress hb hpending, fun err herr => ?_⟩
  have hcan := (beginOutbound_error herr).resolve_right fun hb => hb.2 hpending
  rcases Bool.or_eq_true_iff.mp hl with hb | hu
  · by_cases hclosed : s.machine.state = .closed
    · exact .closed hclosed
    · have hesme (hrole : s.machine.role = .esme) : s.machine.Fresh ∨ s.BoundFor config := by
        obtain rfl : role = .esme := by rw [← hrole, run_role h]
        exact (run_boundFor (h.mono fun _ _ hok => hok.1)).imp_right fun h => h.resolve_left hclosed
      exact refused_bind hesme hk hp hr hb hcan
  · rw [show k.command = commandUnbind by simpa using hu] at hcan ⊢
    exact refused_unbind hkept.valid (hnot _) hcan

/-- The `bind_transceiver_resp` of an SMSC that refuses the first request of a session with `ESME_RBINDFAIL`. -/
def refusedBind : Octets := [0, 0, 0, 16, 0x80, 0, 0, 9, 0, 0, 0, 0x0d, 0, 0, 0, 1]

def refusedBindResp : DecodedPDU :=
  { header := ⟨16, commandBindTransceiverResp, statusBindFailed, 1⟩, body := .struct (.bindResponse ⟨[], []⟩) }

/-- A bind is refused and its caller has returned. -/
def returnedBind : List Label := sentBind ++ .frame refusedBind :: List.replicate 7 (.task .rx) ++ [.call 0 .go]

theorem run_retry_refusedBind : ∃ s k, sessions.Run Retriable (new {} .esme) s ∧ s.ledger.calls[0]? = some k ∧
    k.command = commandBindTransceiver ∧ k.phase = .returned (.ok refusedBindResp) ∧
    s.machine.beginOutbound commandBindTransceiver ≠ .error (.sentinel .bindInProgress) := by
  have hrun := System.run_after sessions Retriable (new {} .esme) returnedBind (by decide +kernel)
  have hcalls : (sessions.after Retriable (new {} .esme) returnedBind).ledger.calls.map (fun k => (k.command, k.phase)) =
      [(commandBindTransceiver, .returned (.ok refusedBindResp))] := by decide +kernel
  generalize sessions.after Retriable (new {} .esme) returnedBind = s at *
  obtain ⟨k, hcalls, hk⟩ := List.map_eq_singleton_iff.mp hcalls
  obtain ⟨hcommand, hphase⟩ := Prod.mk.inj hk
  have hk : s.ledger.calls[0]? = some k := by rw [hcalls]; rfl
  have hother : ∀ (j : Nat) (k : Call), j ≠ 0 → s.ledger.calls[j]? = some k → isLifecycleRequest k.command →
      ¬ s.InProgress j k := by
    intro j k' hj hk'
    rw [hcalls, List.getElem?_eq_none (by simp; omega)] at hk'
    cases hk'
  have hretry := run_retry hrun hk (by rw [hcommand]; decide) hphase (by decide) hother
  rw [hcommand] at hretry
  exact ⟨s, k, hrun, hk, hcommand, hphase, hretry.2.1⟩

/-- A bind is sent, its deadline expires, the deadline loop has told its caller, and the caller binds again. -/
def timedOutBind : List Label :=
  sentBind ++ [.expire 0, .fire] ++ List.replicate 4 (.task .deadline) ++ .call 0 .go ::
    .request commandBindTransceiver bindTransceiverBody true :: List.replicate 5 (.call 1 .go)

/-- The bind has timed out, and the next one is refused because of it. -/
theorem timedOutBind_refused : ∃ s, sessions.Run anyStep (new {} .esme) s ∧ s.termination = .running ∧
    s.machine.pendingLocalBind = commandBindTransceiver ∧ s.ledger.calls.map (fun k => (k.command, k.phase)) =
      [(commandBindTransceiver, .returned (.error (.timeout .response commandBindTransceiver 1))),
       (commandBindTransceiver, .returned (.error (.sentinel .bindInProgress)))] :=
  ⟨_, System.run_after sessions anyStep (new {} .esme) timedOutBind (by decide +kernel), by decide +kernel,
    by decide +kernel, by decide +kernel⟩

end Kept

end GoSmpp.Session
