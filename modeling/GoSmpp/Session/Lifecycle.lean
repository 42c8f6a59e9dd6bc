import GoSmpp.Session.Delivery

/-!
# The state of an ESME and what its callers are told

`handleResponse` moves the state machine by the `command_status` of a response alone, while the typed operations take the
response for a success by `responseError`, which also looks at its `command_id`: a `generic_nack` is an error, whatever
its status.

* `run_lifecycle`: in a run whose steps are all `WellAnswered`, an ESME gets bound by the response to a bind which its
  caller is told to be a success, and the same for the end of a session by the response to an unbind.
* `nackedBind_bound`: a `generic_nack` with status 0 makes a session bound whose bind has failed for its caller.
-/

namespace GoSmpp.Session
open Lib Protocol Codec

structure ResponseError where
  command : CommandID
  status : CommandStatus
  sequence : SequenceNumber
  deriving DecidableEq, Repr

def responseError (pdu : DecodedPDU) : Option ResponseError :=
  if pdu.header.commandID = commandGenericNACK ∨ !CommandStatus.ok pdu.header.commandStatus then
    some { command := pdu.header.commandID, status := pdu.header.commandStatus, sequence := pdu.header.sequenceNumber }
  else none

/-! ## Well answered requests -/

/-- The PDU of a frame that `takeResponse` takes, and the call whose request it answers. -/
def addressed (s : Session) (frame : Octets) : Option (DecodedPDU × Call) :=
  match decodePDU s.config.registry frame with
  | .ok pdu =>
    if (s.ledger.takeResponse pdu).isNone then none
    else (s.ledger.pending.lookup pdu.header.sequenceNumber).bind fun i => (s.ledger.calls[i]?).map (pdu, ·)
  | .error _ => none

/-- A response to a pending request is not a `generic_nack` with status 0 for a bind or an unbind, nor for a request that its
caller has not encoded yet and cannot encode; and a caller that gives up finds no request but its own under its sequence
number. -/
def wellAnswered (s : Session) : Label → Bool
  | .frame frame => (s.addressed frame).all fun (pdu, k) =>
      !(isLifecycleRequest k.command && pdu.header.commandID == commandGenericNACK &&
        CommandStatus.ok pdu.header.commandStatus) &&
      (!k.phase.unencoded || (encodeFrame s.config.registry (requestHeader k) k.body).isOk)
  | .call i _ => (s.ledger.calls[i]?).all fun k =>
      !k.phase.registered || (s.ledger.pending.lookup k.sequence).all (· == i)
  | _ => true

abbrev WellAnswered (s : Session) (label : Label) : Prop := s.wellAnswered label = true

section WellAnswered
variable {s : Session} {label : Label}

theorem WellAnswered.ownEntry (h : s.WellAnswered label) : s.ledger.OwnEntry label := by
  rintro i arm k j rfl hk hr hj
  have h : (s.ledger.calls[i]?).all _ = true := h
  rw [hk, Option.all_some, hr, hj] at h
  simpa using h

theorem WellAnswered.frame {frame : Octets} {pdu : DecodedPDU} {i : Nat} {k : Call} (h : s.WellAnswered (.frame frame))
    (hd : decodePDU s.config.registry frame = .ok pdu) (hi : s.ledger.pending.lookup pdu.header.sequenceNumber = some i)
    (hk : s.ledger.calls[i]? = some k)
    (hid : pdu.header.commandID = responseID k.command ∨ pdu.header.commandID = commandGenericNACK) :
    ¬ (isLifecycleRequest k.command ∧ pdu.header.commandID = commandGenericNACK ∧
      CommandStatus.ok pdu.header.commandStatus) ∧
    (k.phase = .encoding → k.encodes s.config.registry) := by
  have h : (s.addressed frame).all _ = true := h
  have htake : s.ledger.takeResponse pdu = some (s.ledger.remove pdu.header.sequenceNumber (responseTask i pdu)) := by
    simp only [Ledger.takeResponse, hi, hk, Option.bind_eq_bind, Option.bind_some]
    exact if_neg (not_and_or.mpr (hid.imp not_not.mpr not_not.mpr))
  rw [addressed, hd] at h
  simp only [htake, Option.isNone_some, Bool.false_eq_true, if_false, hi, Option.bind_some, hk, Option.map_some,
    Option.all_some, Bool.and_eq_true, Bool.not_eq_true', Bool.or_eq_true] at h
  obtain ⟨hn, he⟩ := h
  refine ⟨?_, fun hp => ?_⟩
  · rintro ⟨h1, h2, h3⟩
    simp [h1, h2, h3] at hn
  · rcases he with he | he
    · rw [hp] at he
      cases he
    · cases hf : encodeFrame s.config.registry (requestHeader k) k.body with
      | ok frame => exact ⟨frame, hf⟩
      | error err => rw [hf] at he; cases he

theorem WellAnswered.encodable (h : s.WellAnswered label) : Ledger.Encodable s.config s.ledger label := by
  rintro frame pdu i k rfl hd hi hk hid hp
  exact (h.frame hd hi hk hid).2 hp

end WellAnswered

/-! ## The invariant -/

/-- What holds of an ESME in every run of well answered requests. -/
structure Sound (config : Config) (s : Session) : Prop where
  configured : s.config = config
  conserved : s.ledger.Conserved config.windowSize config.maxPending
  correlated : s.ledger.Correlated config.registry
  /-- a response that is going to complete a bind or an unbind with status 0 is no error -/
  answer : ∀ {t pdu k}, t ∈ s.ledger.tasks → t.result = .ok pdu → .complete ∈ t.todo →
    s.ledger.calls[t.call]? = some k → isLifecycleRequest k.command → CommandStatus.ok pdu.header.commandStatus →
    responseError pdu = none
  valid : s.machine.Valid
  role : s.machine.role = .esme

section Sound
variable {config : Config} {s s' : Session} {label : Label}

theorem sound_new (config : Config) : (new config .esme).Sound config where
  configured := rfl
  conserved := Ledger.conserved_empty _ _
  correlated := Ledger.correlated_empty _
  answer h := absurd h List.not_mem_nil
  valid := .inl ⟨.inl rfl, rfl, rfl, fun h => absurd rfl h, fun h => absurd rfl h⟩
  role := rfl

theorem Sound.answer_step (h : s.Sound config) (hok : s.WellAnswered label) (hs : s.ledger.Step s.config label s'.ledger)
    {t : Task} {pdu : DecodedPDU} {k : Call} (ht : t ∈ s'.ledger.tasks) (hr : t.result = .ok pdu)
    (hc : .complete ∈ t.todo) (hk : s'.ledger.calls[t.call]? = some k) (hl : isLifecycleRequest k.command)
    (hst : CommandStatus.ok pdu.header.commandStatus) : responseError pdu = none := by
  obtain rfl := h.configured
  rcases hs.completes h.conserved ht hr hc hk with ⟨t₀, ht₀, hres, htodo, k₀, hk₀, hcommand⟩ |
    ⟨frame, i, k₀, rfl, hd, hi, hk₀, hcommand, hid⟩
  · rw [← hcommand] at hl
    exact h.answer ht₀ hres htodo hk₀ hl hst
  · rw [← hcommand] at hl
    have hnot := (hok.frame hd hi hk₀ hid).1
    unfold responseError
    rw [if_neg]
    rintro (hn | hn)
    · exact hnot ⟨hl, hn, hst⟩
    · rw [hst] at hn
      cases hn

/-- The step lemma. -/
theorem Sound.step (h : s.Sound config) (hok : s.WellAnswered label) (hs : s.step label = some s') : s'.Sound config := by
  obtain rfl := h.configured
  have hl := step_ledger hs
  exact {
    configured := step_config hs
    conserved := h.conserved.step hl
    correlated := h.correlated.step hl h.conserved hok.ownEntry hok.encodable
    answer := fun ht hr hc hk hlc hst => h.answer_step hok hl ht hr hc hk hlc hst
    valid := step_keeps hs h.valid fun hm => h.valid.step hm
    role := step_keeps hs h.role fun hm => hm.role.trans h.role }

theorem run_sound (h : sessions.Run WellAnswered (new config .esme) s) : s.Sound config :=
  h.invariant (P := Sound config) (fun _ _ _ hok hs h => h.step hok hs) (sound_new config)

/-- The call waits for its request, or has returned the response. -/
def Answered (i : Nat) (pdu : DecodedPDU) (s : Session) : Prop :=
  ∃ k, s.ledger.calls[i]? = some k ∧ (k.phase.registered ∨ k.phase = .returned (.ok pdu))

theorem run_delivers {i : Nat} {pdu : DecodedPDU} (hsound : s.Sound config)
    (hd : s.ledger.Delivers config.registry i pdu) (h : sessions.Run WellAnswered s s') : Answered i pdu s' := by
  suffices hp : s'.Sound config ∧ s'.ledger.Delivers config.registry i pdu by
    obtain ⟨-, k, hk, ⟨⟨hr, -⟩, -⟩ | hp⟩ := hp
    · exact ⟨k, hk, .inl hr⟩
    · exact ⟨k, hk, .inr hp⟩
  refine h.invariant (P := fun s => s.Sound config ∧ s.ledger.Delivers config.registry i pdu) ?_ ⟨hsound, hd⟩
  rintro s label s' hok hs ⟨hsound, hd⟩
  obtain rfl := hsound.configured
  exact ⟨hsound.step hok hs, hd.step (step_ledger hs) hsound.conserved hok.ownEntry⟩

theorem Sound.complete (h : s.Sound config) {o : Owner} {t : Task} {l : Ledger} {k : Call} {rest : List Stage}
    {pdu : DecodedPDU} (ht : s.ledger.nextTask o = some (t, l)) (hk : s.ledger.calls[t.call]? = some k)
    (htodo : t.todo = .complete :: rest) (hr : t.result = .ok pdu) (hl : isLifecycleRequest k.command)
    (hst : CommandStatus.ok pdu.header.commandStatus) :
    responseError pdu = none ∧ s.ledger.Delivers config.registry t.call pdu := by
  obtain ⟨tasks, rfl, hperm⟩ := Ledger.nextTask_eq ht
  have hmem : t ∈ s.ledger.tasks := hperm.mem_iff.mpr List.mem_cons_self
  exact ⟨h.answer hmem hr (by rw [htodo]; exact List.mem_cons_self) hk hl hst,
    h.correlated.task hmem hr ((h.conserved.task t hmem).2.send_of_complete htodo)⟩

theorem Sound.bound (h : s.Sound config) (hs : s.step label = some s')
    (hopen : s.machine.state = .open ∨ s.machine.state = .outbound) (hb : isBoundState s'.machine.state) :
    ∃ o t l k rest pdu, label = .task o ∧ s.ledger.nextTask o = some (t, l) ∧ s.ledger.calls[t.call]? = some k ∧
      t.todo = .complete :: rest ∧ t.result = .ok pdu ∧ isBindRequest k.command ∧
      CommandStatus.ok pdu.header.commandStatus ∧ s'.machine.state = boundStateForBind k.command := by
  have hfresh : s.machine.Fresh := by
    rcases h.valid with hf | ⟨bind, hbind, hbound⟩
    · exact hf
    · have hnot := hbound.not_open hbind
      rcases hopen with ho | ho
      · exact absurd ho hnot.1
      · exact absurd ho hnot.2
  have hnot : ¬ s'.machine.Fresh := by
    intro hf
    rcases hf.state with ho | ho <;> rw [ho] at hb <;> cases hb
  rcases (step_machine hs).fresh hfresh with hf | hc |
    ⟨o, t, l, k, rest, pdu, hlabel, ht, hk, htodo, hr, hbind, hst, -, hbound⟩ | ⟨item, rest, batch, -, -, -, -, hsmsc, -⟩
  · exact absurd hf hnot
  · rw [hc] at hb; cases hb
  · refine ⟨o, t, l, k, rest, pdu, hlabel, ht, hk, htodo, hr, hbind, hst, ?_⟩
    exact hbound.state_of_unbind hb
  · rw [h.role] at hsmsc; cases hsmsc

theorem taskStep_closed {o : Owner} (hs : s.step (.task o) = some s') (hopen : s.machine.state ≠ .closed)
    (hclosed : s'.machine.state = .closed) :
    ∃ t l k rest pdu, s.ledger.nextTask o = some (t, l) ∧ s.ledger.calls[t.call]? = some k ∧
      t.todo = .complete :: rest ∧ t.result = .ok pdu ∧ k.command = commandUnbind ∧
      CommandStatus.ok pdu.header.commandStatus := by
  have hstep := step_machine hs
  generalize s'.machine = m at hclosed hstep
  cases hstep with
  | same => exact absurd hclosed hopen
  | beginOutbound _ ho => exact absurd (StateMachine.beginOutbound_closed ho hclosed) hopen
  | cancelOutbound => exact absurd (StateMachine.cancelOutbound_closed hclosed) hopen
  | @completeOutbound _ t l k rest pdu ht hk htodo hr =>
    obtain ⟨hu, hst⟩ := (StateMachine.completeOutbound_closed hclosed).resolve_left hopen
    exact ⟨t, l, k, rest, pdu, ht, hk, htodo, hr, hu, hst⟩

/-- **The state of an ESME agrees with what the callers are told.** In a run of well answered requests, whenever a step
takes the machine to a bound state, it completes a bind with a response that is a success, and from then on the caller of
that bind waits for it or has returned it; and whenever the response to an unbind closes the machine, the same holds of
the caller of that unbind. -/
theorem run_lifecycle (h : sessions.Run WellAnswered (new config .esme) s) (hok : s.WellAnswered label)
    (hs : s.step label = some s') :
    (s.machine.state = .open ∨ s.machine.state = .outbound → isBoundState s'.machine.state →
      ∃ i k pdu, s.ledger.calls[i]? = some k ∧ isBindRequest k.command ∧
        s'.machine.state = boundStateForBind k.command ∧ responseError pdu = none ∧
        ∀ s'', sessions.Run WellAnswered s' s'' → Answered i pdu s'') ∧
    ((∃ o, label = .task o) → s.machine.state ≠ .closed → s'.machine.state = .closed →
      ∃ i k pdu, s.ledger.calls[i]? = some k ∧ k.command = commandUnbind ∧ responseError pdu = none ∧
        ∀ s'', sessions.Run WellAnswered s' s'' → Answered i pdu s'') := by
  have hsound := run_sound h
  have hsound' := hsound.step hok hs
  have hlater {i : Nat} {pdu : DecodedPDU} (hd : s.ledger.Delivers config.registry i pdu) :
      ∀ s'', sessions.Run WellAnswered s' s'' → Answered i pdu s'' := by
    intro s'' hrun
    obtain rfl := hsound.configured
    exact run_delivers hsound' (hd.step (step_ledger hs) hsound.conserved hok.ownEntry) hrun
  constructor
  · intro hopen hb
    obtain ⟨o, t, l, k, rest, pdu, -, ht, hk, htodo, hr, hbind, hst, hm⟩ := hsound.bound hs hopen hb
    obtain ⟨hnone, hd⟩ := hsound.complete ht hk htodo hr (by rw [isLifecycleRequest, hbind, Bool.true_or]) hst
    exact ⟨t.call, k, pdu, hk, hbind, hm, hnone, hlater hd⟩
  · rintro ⟨o, rfl⟩ hopen hclosed
    obtain ⟨t, l, k, rest, pdu, ht, hk, htodo, hr, hu, hst⟩ := taskStep_closed hs hopen hclosed
    obtain ⟨hnone, hd⟩ := hsound.complete ht hk htodo hr (by rw [hu]; decide) hst
    exact ⟨t.call, k, pdu, hk, hu, hnone, hlater hd⟩

/-- A bind up to its frame on the wire. -/
def sentBind : List Label :=
  .request commandBindTransceiver bindTransceiverBody true :: List.replicate 8 (.call 0 .go) ++ List.replicate 11 (.tx .go)

/-- The `bind_transceiver_resp` of an SMSC that accepts the first request of a session, with an empty `system_id`. -/
def acceptedBind : Octets := [0, 0, 0, 17, 0x80, 0, 0, 9, 0, 0, 0, 0, 0, 0, 0, 1, 0]

/-- A `generic_nack` with status 0 for the first request of a session. -/
def nackedBind : Octets := [0, 0, 0, 16, 0x80, 0, 0, 0, 0, 0, 0, 0, 0, 0, 0, 1]

/-- The RX loop takes a frame, up to `CompleteOutbound`. -/
def received (frame : Octets) : List Label := sentBind ++ .frame frame :: List.replicate 3 (.task .rx)

theorem run_lifecycle_acceptedBind : ∃ s s', sessions.Run WellAnswered (new {} .esme) s ∧
    s.step (.task .rx) = some s' ∧ s.machine.state = .open ∧ s'.machine.state = .boundTRX ∧
    ∃ i k pdu, s.ledger.calls[i]? = some k ∧ isBindRequest k.command ∧ responseError pdu = none ∧ Answered i pdu s' := by
  have hrun := System.run_after sessions WellAnswered (new {} .esme) (received acceptedBind) (by decide +kernel)
  have hopen : (sessions.after WellAnswered (new {} .esme) (received acceptedBind)).machine.state = .open := by
    decide +kernel
  have hbound : ((sessions.after WellAnswered (new {} .esme) (received acceptedBind)).step (.task .rx)).map
      (·.machine.state) = some .boundTRX := by decide +kernel
  generalize sessions.after WellAnswered (new {} .esme) (received acceptedBind) = s at *
  obtain ⟨s', hs, hm⟩ := Option.map_eq_some_iff.mp hbound
  obtain ⟨i, k, pdu, hk, hb, -, hnone, hlater⟩ := (run_lifecycle hrun rfl hs).1 (.inl hopen) (by rw [hm]; rfl)
  exact ⟨s, s', hrun, hs, hopen, hm, i, k, pdu, hk, hb, hnone, hlater s' (.refl s')⟩

/-- The bind is answered by a `generic_nack` with status 0: the session is bound, and the caller has an error. -/
theorem nackedBind_bound : ∃ s pdu, sessions.Run anyStep (new {} .esme) s ∧ s.machine.state = .boundTRX ∧
    pdu.header.commandID = commandGenericNACK ∧ (s.ledger.calls[0]?.map (·.phase)) = some (.returned (.ok pdu)) ∧
    (responseError pdu).isSome :=
  ⟨_, ⟨⟨16, commandGenericNACK, 0, 1⟩, .struct .emptyBody⟩,
    System.run_after sessions anyStep (new {} .esme) (received nackedBind ++ List.replicate 4 (.task .rx) ++ [.call 0 .go])
      (by decide +kernel), by decide +kernel, rfl, by decide +kernel, rfl⟩

end Sound

end GoSmpp.Session
