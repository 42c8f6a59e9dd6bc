import GoSmpp.Session.Answer
import GoSmpp.Session.Lifecycle
import GoSmpp.Session.Sequence

/-!
# Every response is for one request

* `Identified`: a request in the table is under the number of a call that waits for it, and the frame a call has encoded
  bears its number.
* `Numbered`: as long as no more than 0x7fffffff numbers are drawn, no two calls have the same.
* `run_correlation`: a response completes at most one call, a call returns a response with its own number and command, and a
  response for a call that is over completes none.
-/

namespace GoSmpp.Session
open Lib Protocol Codec

/-! ## Calls that have inserted their request -/

section Late
variable {s s' t : Session} {label : Label} {i : Nat} {k : Call} {arm : Arm} {q : Phase}

theorem CallNext.late (h : CallNext s i k arm t q) (he : k.phase.early = false) : q.early = false := by
  cases h with
  | refuse hp | check hp | closed hp | enter hp | await hp | full hp | slotCtx hp | slotDone hp | beginError hp | begin hp
  | draw hp | insert hp | retry hp | exhausted hp | overfull hp | release hp => rw [hp] at he; cases he
  | acquire hp => rcases hp with hp | hp <;> rw [hp] at he <;> cases he
  | encode | giveUp | unencodable | enqueue | overtaken | admitDone | receive => rfl
  | @cancel owned r hp =>
    cases owned
    · rfl
    · rw [hp] at he; cases he

theorem not_atDraw_of_late {q : Phase} (h : q.early = false) : q.atDraw = false := by
  cases q <;> first | rfl | cases h

theorem CallNext.go_of_draw (h : CallNext s i k arm t q) (hd : k.phase.atDraw) : arm = .go := by
  cases h with
  | slotCtx hp | slotDone hp | admitDone hp => rw [hp] at hd; cases hd
  | giveUp hp => rcases hp with ⟨hp, -⟩ | ⟨hp | ⟨frame, hp⟩, -⟩ <;> rw [hp] at hd <;> cases hd
  | overtaken hp => rcases hp with hp | ⟨frame, hp⟩ <;> rw [hp] at hd <;> cases hd
  | _ => rfl

theorem step_number {k' : Call} (h : s.step label = some s') (hk' : s'.ledger.calls[i]? = some k') :
    k'.sequence = 0 ∨ (∃ k, s.ledger.calls[i]? = some k ∧ k'.sequence = k.sequence) ∨
    (label = .call i .go ∧ s.draws label ∧ k'.sequence = next s.ledger.sequence) := by
  rcases step_caller h hk' with ⟨command, body, w, -, rfl⟩ | ⟨k, hk, ho | ⟨arm, t, q, rfl, hn, -, ho⟩⟩
  · exact .inl rfl
  · exact .inr (.inl ⟨k, hk, ho.sequence⟩)
  · cases hd : k.phase.atDraw with
    | false =>
      rw [hd] at ho
      exact .inr (.inl ⟨k, hk, ho.sequence⟩)
    | true =>
      rw [hd] at ho
      obtain rfl := hn.go_of_draw hd
      refine .inr (.inr ⟨rfl, ?_, ho.sequence⟩)
      show (s.ledger.calls[i]?).any (·.phase.atDraw) = true
      rw [hk]
      exact hd

end Late

/-! ## Distinct numbers -/

/-- What holds when `n` numbers have been drawn and none twice. -/
structure Numbered (n : Nat) (s : Session) : Prop where
  generator : s.ledger.sequence.toNat = n
  drawn : ∀ {i : Nat} {k : Call}, s.ledger.calls[i]? = some k → k.sequence.toNat ≤ n
  distinct : ∀ {i j : Nat} {k k' : Call}, s.ledger.calls[i]? = some k → s.ledger.calls[j]? = some k' → k.sequence = k'.sequence →
    k.sequence ≠ 0 → i = j

theorem numbered_new (config : Config) (role : Role) : Numbered 0 (new config role) where
  generator := rfl
  drawn hk := by cases hk
  distinct hk := by cases hk

theorem Numbered.step {n : Nat} {s s' : Session} {label : Label} (h : Numbered n s) (hs : s.step label = some s')
    (hn : n + (s.draws label).toNat ≤ 0x7fffffff) : Numbered (n + (s.draws label).toNat) s' := by
  have hnext : s.draws label → (next s.ledger.sequence).toNat = n + 1 := by
    intro hd
    rw [hd, Bool.toNat_true] at hn
    rw [toNat_next, h.generator, if_neg (by omega)]
  have hle : n ≤ n + (s.draws label).toNat := Nat.le_add_right ..
  refine ⟨?_, fun {i k'} hk' => ?_, fun {i j k₁ k₂} hk₁ hk₂ heq hne => ?_⟩
  · rw [step_sequence hs]
    cases hd : s.draws label with
    | false => exact h.generator
    | true => exact hnext hd
  · rcases step_number hs hk' with h0 | ⟨k, hk, heq⟩ | ⟨-, hd, heq⟩
    · rw [h0]
      exact Nat.zero_le _
    · rw [heq]
      exact (h.drawn hk).trans hle
    · rw [heq, hnext hd, hd, Bool.toNat_true]
  · -- a number that has just been drawn is above all others
    have hfresh {j : Nat} {k k' : Call} (hk : s.ledger.calls[j]? = some k) (hd : s.draws label)
        (hk' : k'.sequence = next s.ledger.sequence) : k'.sequence ≠ k.sequence := by
      intro hc
      have h1 := h.drawn hk
      have h2 := hnext hd
      rw [← hk', hc] at h2
      omega
    rcases step_number hs hk₁ with h0 | ⟨k, hk, h1⟩ | ⟨rfl, hd, h1⟩
    · exact absurd h0 hne
    · rcases step_number hs hk₂ with h0 | ⟨k', hk', h2⟩ | ⟨-, hd, h2⟩
      · exact absurd (heq.trans h0) hne
      · exact h.distinct hk hk' (h1 ▸ h2 ▸ heq) (h1 ▸ hne)
      · exact absurd (heq ▸ h1) (hfresh hk hd h2)
    · rcases step_number hs hk₂ with h0 | ⟨k', hk', h2⟩ | ⟨hl, -⟩
      · exact absurd (heq.trans h0) hne
      · exact absurd (heq.trans h2) (hfresh hk' hd h1)
      · cases hl
        rfl

def drawn (tr : List (Session × Label)) : Nat := tr.countP fun e => e.1.draws e.2

theorem drawn_snoc (tr : List (Session × Label)) (s : Session) (label : Label) :
    drawn (tr ++ [(s, label)]) = drawn tr + (s.draws label).toNat := by
  rw [drawn, List.countP_append, List.countP_singleton]
  cases s.draws label <;> rfl

theorem trace_numbered {config : Config} {role : Role} {tr : List (Session × Label)} {s : Session}
    (h : sessions.Trace (new config role) tr s) (hn : drawn tr ≤ 0x7fffffff) : Numbered (drawn tr) s := by
  induction h with
  | nil => exact numbered_new config role
  | snoc _ hs ih =>
    rw [drawn_snoc] at hn ⊢
    exact (ih (by omega)).step hs hn

/-! ## The request of a call -/

structure Identified (config : Config) (s : Session) : Prop where
  configured : s.config = config
  conserved : s.ledger.Conserved config.windowSize config.maxPending
  entered : s.ledger.Entered
  number : ∀ {i : Nat} {k : Call}, s.ledger.calls[i]? = some k →
    (∃ n, k.phase = .inserting n) ∨ k.phase.registered → k.sequence ≠ 0
  frame : ∀ {i : Nat} {k : Call} {frame : Octets}, s.ledger.calls[i]? = some k → k.phase = .admitting frame →
    encodeFrame config.registry (requestHeader k) k.body = .ok frame

theorem identified_new (config : Config) (role : Role) : Identified config (new config role) where
  configured := rfl
  conserved := Ledger.conserved_empty _ _
  entered h := absurd h List.not_mem_nil
  number hk := by cases hk
  frame hk := by cases hk

theorem next_ne_zero (v : UInt32) : next v ≠ 0 := by
  intro h
  have := congrArg UInt32.toNat h
  rw [toNat_next] at this
  split at this <;> cases this

section Identified
variable {config : Config} {s s' : Session} {label : Label} {i : Nat} {k k' : Call}

theorem Identified.conserves (hid : Identified config s) : s.ledger.Conserved s.config.windowSize s.config.maxPending :=
  hid.configured ▸ hid.conserved

theorem Identified.late (hid : Identified config s) (hs : s.step label = some s') (hk : s.ledger.calls[i]? = some k)
    (he : k.phase.early = false) : ∃ k', s'.ledger.calls[i]? = some k' ∧ k'.phase.early = false ∧
      k'.command = k.command ∧ k'.body = k.body ∧ k'.sequence = k.sequence := by
  obtain ⟨k', hk', -⟩ := (step_ledger hs).call hid.conserves hk
  refine ⟨k', hk', ?_⟩
  rcases step_own hs hk hk' with ho | ⟨arm, t, q, -, hn, -, ho⟩
  · exact ⟨by rw [ho.phase]; exact he, ho.command, ho.body, ho.sequence⟩
  · rw [not_atDraw_of_late he] at ho
    exact ⟨by rw [ho.phase]; exact hn.late he, ho.command, ho.body, ho.sequence⟩

theorem Identified.number_step (h : Identified config s) (hs : s.step label = some s')
    (hk' : s'.ledger.calls[i]? = some k') (hp : (∃ n, k'.phase = .inserting n) ∨ k'.phase.registered) :
    k'.sequence ≠ 0 := by
  rcases step_caller hs hk' with ⟨command, body, w, -, rfl⟩ | ⟨k, hk, ho | ⟨arm, t, q, rfl, hn, -, ho⟩⟩
  · rcases hp with ⟨n, hp⟩ | hp <;> cases hp
  · rw [ho.phase] at hp
    rw [ho.sequence]
    exact h.number hk hp
  · obtain ⟨-, -, hq, hseq⟩ := ho
    rw [hq] at hp
    have hkeep (hold : (∃ n, k.phase = .inserting n) ∨ k.phase.registered) : k'.sequence ≠ 0 := by
      have hd : k.phase.atDraw = false := by
        rcases hold with ⟨n, hn⟩ | hr
        · rw [hn]; rfl
        · revert hr; cases k.phase <;> simp [Phase.registered, Phase.atDraw]
      rw [hseq, hd]
      exact h.number hk hold
    cases hn with
    | refuse | check | closed | enter | acquire | await | full | slotCtx | slotDone | beginError | begin | retry | exhausted
    | overfull | giveUp | unencodable | receive | release => rcases hp with ⟨n, hp⟩ | hp <;> cases hp
    | draw hp' =>
      rw [hseq, hp']
      exact next_ne_zero _
    | insert hp' => exact hkeep (.inl ⟨_, hp'⟩)
    | encode hp' | enqueue hp' | admitDone hp' => exact hkeep (.inr (by rw [hp']; rfl))
    | overtaken hp' => exact hkeep (.inr (by rcases hp' with hp' | ⟨frame, hp'⟩ <;> rw [hp'] <;> rfl))
    | @cancel owned => cases owned <;> rcases hp with ⟨n, hp⟩ | hp <;> cases hp

theorem Identified.frame_step {frame : Octets} (h : Identified config s) (hs : s.step label = some s')
    (hk' : s'.ledger.calls[i]? = some k') (hp : k'.phase = .admitting frame) :
    encodeFrame config.registry (requestHeader k') k'.body = .ok frame := by
  have hheader {k : Call} (h1 : k'.command = k.command) (h2 : k'.sequence = k.sequence) :
      requestHeader k' = requestHeader k := by
    rw [requestHeader, requestHeader, h1, h2]
  rcases step_caller hs hk' with ⟨command, body, w, -, rfl⟩ | ⟨k, hk, ho | ⟨arm, t, q, rfl, hn, -, ho⟩⟩
  · cases hp
  · rw [ho.phase] at hp
    rw [hheader ho.command ho.sequence, ho.body]
    exact h.frame hk hp
  · obtain ⟨hcommand, hbody, hq, hseq⟩ := ho
    rw [hq] at hp
    cases hn with
    | encode hp' he =>
      cases hp
      rw [hp'] at hseq
      rw [hheader hcommand hseq, hbody, ← h.configured]
      exact he
    | @cancel owned => cases owned <;> cases hp
    | _ => cases hp

theorem Identified.step (h : Identified config s) (hs : s.step label = some s') : Identified config s' := by
  obtain rfl := h.configured
  exact {
    configured := step_config hs
    conserved := h.conserved.step (step_ledger hs)
    entered := Ledger.Entered.step h.entered (step_ledger hs) h.conserved
    number := fun hk' hp => h.number_step hs hk' hp
    frame := fun hk' hp => h.frame_step hs hk' hp }

end Identified

/-! ## Responses -/

/-- The frame takes the request of the call `i` out of the table. -/
def Completes (s : Session) (frame : Octets) (i : Nat) : Prop :=
  ∃ s', s.step (.frame frame) = some s' ∧ s'.ledger.entries i < s.ledger.entries i

def Queues (s : Session) (i : Nat) (item : TxItem) : Prop :=
  ∃ s', s.step (.call i .go) = some s' ∧ s'.queue = s.queue ++ [item]

/-- The PDU is a response to the request of the call. -/
structure Call.AnsweredBy (k : Call) (pdu : DecodedPDU) : Prop where
  sequence : pdu.header.sequenceNumber = k.sequence
  command : pdu.header.commandID = responseID k.command ∨ pdu.header.commandID = commandGenericNACK

/-- A frame of the trace was this PDU and took the request of the call `i` out of the table. -/
def CompletedBy (registry : Registry) (tr : List (Session × Label)) (i : Nat) (pdu : DecodedPDU) : Prop :=
  ∃ t frame, (t, .frame frame) ∈ tr ∧ decodePDU registry frame = .ok pdu ∧ t.Completes frame i

/-- What a caller has come to. -/
def Phase.result : Phase → Option Result
  | .cancelling _ r | .releasing r | .returned r => some r
  | _ => none

section Responses
variable {config : Config} {role : Role} {tr : List (Session × Label)} {s s' : Session} {label : Label} {i : Nat} {k : Call}

theorem frame_ledger {frame : Octets} (h : s.step (.frame frame) = some s') : s'.ledger = s.ledger ∨
    ∃ pdu i k, decodePDU s.config.registry frame = .ok pdu ∧
      s.ledger.pending.lookup pdu.header.sequenceNumber = some i ∧ s.ledger.calls[i]? = some k ∧
      (pdu.header.commandID = responseID k.command ∨ pdu.header.commandID = commandGenericNACK) ∧
      s'.ledger = s.ledger.remove pdu.header.sequenceNumber (responseTask i pdu) := by
  obtain ⟨-, -, rfl⟩ := step_frame h
  unfold processFrame
  split
  · left
    split
    · rfl
    · split <;> rfl
  · next pdu hd =>
    split
    · split
      · next ht =>
        obtain ⟨i, k, hi, hk, hc, rfl⟩ := Ledger.takeResponse_some ht
        exact .inr ⟨pdu, i, k, hd, hi, hk, hc, rfl⟩
      · exact .inl rfl
    · exact .inl rfl

theorem Completes.lookup {frame : Octets} (h : s.Completes frame i) : ∃ pdu, decodePDU s.config.registry frame = .ok pdu ∧
    s.ledger.pending.lookup pdu.header.sequenceNumber = some i := by
  obtain ⟨s', hs, hlt⟩ := h
  rcases frame_ledger hs with he | ⟨pdu, j, k, hd, hj, -, -, he⟩
  · rw [he] at hlt
    exact absurd hlt (Nat.lt_irrefl _)
  · have hent := Ledger.entries_remove (t := responseTask j pdu) hj i
    rw [← he] at hent
    by_cases hij : j = i
    · exact ⟨pdu, hd, hij ▸ hj⟩
    · rw [if_neg (show ¬ (responseTask j pdu).call = i from hij)] at hent
      omega

theorem Completes.unique {frame : Octets} {j : Nat} (hi : s.Completes frame i) (hj : s.Completes frame j) : i = j := by
  obtain ⟨pdu, hd, hi⟩ := hi.lookup
  obtain ⟨pdu', hd', hj⟩ := hj.lookup
  rw [hd] at hd'
  cases hd'
  rw [hi] at hj
  exact Option.some.inj hj

theorem Queues.item {item : TxItem} (h : s.Queues i item) :
    ∃ k frame, s.ledger.calls[i]? = some k ∧ k.phase = .admitting frame ∧ item = requestItem k frame := by
  obtain ⟨s', hs, hq⟩ := h
  obtain ⟨k, hk, -, hs⟩ := step_call hs
  obtain ⟨t, q, hn, rfl⟩ := callStep_next hs
  have hne : s.queue ≠ s.queue ++ [item] := by simp
  cases hn with
  | enqueue hp =>
    have hitem : [requestItem k _] = [item] := List.append_cancel_left hq
    exact ⟨k, _, hk, hp, (List.cons.inj hitem).1.symm⟩
  | _ => exact absurd hq hne

/-- A frame of the trace has completed the call with the PDU, and the PDU is a response to its request. -/
def Matched (registry : Registry) (tr : List (Session × Label)) (s : Session) (i : Nat) (pdu : DecodedPDU) : Prop :=
  CompletedBy registry tr i pdu ∧ ∃ k, s.ledger.calls[i]? = some k ∧ k.phase.early = false ∧ k.AnsweredBy pdu

theorem Matched.step {registry : Registry} {pdu : DecodedPDU} (h : Matched registry tr s i pdu)
    (hid : Identified config s) (hs : s.step label = some s') : Matched registry (tr ++ [(s, label)]) s' i pdu := by
  obtain ⟨⟨t, frame, hmem, hrest⟩, k, hk, he, ha⟩ := h
  obtain ⟨k', hk', he', hcommand, -, hseq⟩ := hid.late hs hk he
  refine ⟨⟨t, frame, List.mem_append_left _ hmem, hrest⟩, k', hk', he', ?_⟩
  exact ⟨by rw [hseq]; exact ha.sequence, by rw [hcommand]; exact ha.command⟩

/-- Wherever a response is a result, it is the response to the request. -/
structure Correlates (config : Config) (tr : List (Session × Label)) (s : Session) : Prop where
  identified : Identified config s
  task : ∀ {t pdu}, t ∈ s.ledger.tasks → t.result = .ok pdu → Matched config.registry tr s t.call pdu
  done : ∀ {i : Nat} {k : Call} {pdu}, s.ledger.calls[i]? = some k → .ok pdu ∈ k.done → Matched config.registry tr s i pdu
  result : ∀ {i : Nat} {k : Call} {pdu}, s.ledger.calls[i]? = some k → k.phase.result = some (.ok pdu) →
    Matched config.registry tr s i pdu
  queued : ∀ {t i item}, (t, .call i .go) ∈ tr → t.Queues i item → ∃ k : Call, s.ledger.calls[i]? = some k ∧
    k.phase.early = false ∧ item.header = requestHeader k ∧ ∃ bs, item.frame = frameOf item.header bs

theorem correlates_new (config : Config) (role : Role) : Correlates config [] (new config role) where
  identified := identified_new config role
  task h := absurd h List.not_mem_nil
  done hk := by cases hk
  result hk := by cases hk
  queued h := absurd h List.not_mem_nil

theorem Correlates.task_step (h : Correlates config tr s) (hs : s.step label = some s') {t : Task} {pdu : DecodedPDU}
    (ht : t ∈ s'.ledger.tasks) (hr : t.result = .ok pdu) : Matched config.registry (tr ++ [(s, label)]) s' t.call pdu := by
  have hid := h.identified
  have hold {t₀ : Task} (ht₀ : t₀ ∈ s.ledger.tasks) (hcall : t.call = t₀.call) (hres : t.result = t₀.result) :
      Matched config.registry (tr ++ [(s, label)]) s' t.call pdu := by
    rw [hcall]
    exact (h.task ht₀ (hres ▸ hr)).step hid hs
  rcases (step_ledger hs).mem_task ht with ⟨t₀, ht₀, hcall, hres, -⟩ | ⟨err, herr⟩ |
    ⟨frame, pdu', i, -, rfl, hd, hi, -, -, rfl⟩
  · exact hold ht₀ hcall hres
  · rw [herr] at hr
    cases hr
  · cases hr
    rcases frame_ledger hs with he | ⟨pdu', j, k, hd', hj, hk, hc, he⟩
    · rw [he] at ht
      exact hold ht rfl rfl
    · -- the response has just been taken
      rw [hd] at hd'
      cases hd'
      rw [hi] at hj
      cases hj
      have hmem := mem_of_lookup hi
      obtain ⟨k₀, hk₀, hseq, hreg⟩ := hid.entered hmem
      rw [hk] at hk₀
      cases hk₀
      have hlate : k.phase.early = false := by revert hreg; cases k.phase <;> simp [Phase.registered, Phase.early, Phase.owns]
      obtain ⟨k', hk', he', hcommand, -, hseq'⟩ := hid.late hs hk hlate
      have hent := Ledger.entries_remove (t := responseTask i pdu) hi i
      rw [← he, if_pos (show (responseTask i pdu).call = i from rfl)] at hent
      have hlt : s'.ledger.entries i < s.ledger.entries i := by omega
      refine ⟨⟨s, frame, List.mem_append_right _ List.mem_cons_self, hid.configured ▸ hd, s', hs, hlt⟩, k', hk', he', ?_⟩
      exact ⟨by rw [hseq', hseq], by rw [hcommand]; exact hc⟩

/-- What stands in the channel of a call stood there before, or a task of the call has sent it. -/
theorem Identified.done_of (hid : Identified config s) (hs : s.step label = some s') {k' : Call} {r : Except Err DecodedPDU}
    (hk' : s'.ledger.calls[i]? = some k') (hd : r ∈ k'.done) :
    (∃ k, s.ledger.calls[i]? = some k ∧ r ∈ k.done) ∨ ∃ t ∈ s.ledger.tasks, t.call = i ∧ t.result = r := by
  rcases (step_ledger hs).call_of hk' with ⟨k, hk⟩ | ⟨command, body, w, -, rfl⟩
  · obtain ⟨k₁, hk₁, hstep⟩ := (step_ledger hs).call hid.conserves hk
    rw [hk'] at hk₁
    cases hk₁
    cases hstep with
    | same hsame => exact .inl ⟨k, hk, by rwa [hsame] at hd⟩
    | move | prepare | insert => exact .inl ⟨k, hk, hd⟩
    | leave _ _ _ _ hsame => exact .inl ⟨k, hk, by rwa [hsame] at hd⟩
    | receive => exact absurd hd List.not_mem_nil
    | send _ ht hcall _ => exact .inr ⟨_, ht, hcall, (List.mem_singleton.mp hd).symm⟩
  · exact absurd hd List.not_mem_nil

theorem Correlates.done_step (h : Correlates config tr s) (hs : s.step label = some s') {k' : Call} {pdu : DecodedPDU}
    (hk' : s'.ledger.calls[i]? = some k') (hd : .ok pdu ∈ k'.done) :
    Matched config.registry (tr ++ [(s, label)]) s' i pdu := by
  have hid := h.identified
  rcases hid.done_of hs hk' hd with ⟨k, hk, hd⟩ | ⟨t, ht, rfl, hr⟩
  · exact (h.done hk hd).step hid hs
  · exact (h.task ht hr).step hid hs

theorem Correlates.result_step (h : Correlates config tr s) (hs : s.step label = some s') {k' : Call} {pdu : DecodedPDU}
    (hk' : s'.ledger.calls[i]? = some k') (hp : k'.phase.result = some (.ok pdu)) :
    Matched config.registry (tr ++ [(s, label)]) s' i pdu := by
  have hid := h.identified
  rcases step_caller hs hk' with ⟨command, body, w, -, rfl⟩ | ⟨k, hk, ho | ⟨arm, t, q, rfl, hn, -, ho⟩⟩
  · cases hp
  · rw [ho.phase] at hp
    exact (h.result hk hp).step hid hs
  · rw [ho.phase] at hp
    have hold (hr : k.phase.result = some (.ok pdu)) : Matched config.registry (tr ++ [(s, .call i arm)]) s' i pdu :=
      (h.result hk hr).step hid hs
    cases hn with
    | @receive r rs _ hd =>
      cases hp
      exact (h.done hk (by rw [hd]; exact List.mem_cons_self)).step hid hs
    | @cancel owned r hp' => exact hold (by rw [hp']; cases owned <;> exact hp)
    | release hp' => exact hold (by rw [hp']; exact hp)
    | _ => cases hp

theorem Correlates.queued_step (h : Correlates config tr s) (hs : s.step label = some s') {t : Session} {item : TxItem}
    (hmem : (t, .call i .go) ∈ tr ++ [(s, label)]) (hq : t.Queues i item) : ∃ k : Call, s'.ledger.calls[i]? = some k ∧
      k.phase.early = false ∧ item.header = requestHeader k ∧ ∃ bs, item.frame = frameOf item.header bs := by
  have hid := h.identified
  have hlater {k : Call} (hk : s.ledger.calls[i]? = some k) (he : k.phase.early = false)
      (hh : item.header = requestHeader k) (hf : ∃ bs, item.frame = frameOf item.header bs) :
      ∃ k : Call, s'.ledger.calls[i]? = some k ∧ k.phase.early = false ∧ item.header = requestHeader k ∧
        ∃ bs, item.frame = frameOf item.header bs := by
    obtain ⟨k', hk', he', hcommand, -, hseq⟩ := hid.late hs hk he
    exact ⟨k', hk', he', by rw [hh, requestHeader, requestHeader, hcommand, hseq], hf⟩
  rcases List.mem_append.mp hmem with hmem | hmem
  · obtain ⟨k, hk, he, hh, hf⟩ := h.queued hmem hq
    exact hlater hk he hh hf
  · cases List.mem_singleton.mp hmem
    obtain ⟨k, frame, hk, hp, rfl⟩ := hq.item
    exact hlater hk (by rw [hp]; rfl) rfl (encodePDU_frame (encodeFrame_ok (hid.frame hk hp)))

theorem Correlates.step (h : Correlates config tr s) (hs : s.step label = some s') :
    Correlates config (tr ++ [(s, label)]) s' where
  identified := h.identified.step hs
  task ht hr := h.task_step hs ht hr
  done hk hd := h.done_step hs hk hd
  result hk hp := h.result_step hs hk hp
  queued hmem hq := h.queued_step hs hmem hq

theorem trace_correlates (h : sessions.Trace (new config role) tr s) : Correlates config tr s := by
  induction h with
  | nil => exact correlates_new config role
  | snoc _ hs ih => exact ih.step hs

/-- The call has returned, or its request has been taken out of the table. -/
def Call.completed (k : Call) : Prop := k.phase.over ∨ 0 < k.removed

theorem Numbered.late_response {n : Nat} (h : Numbered n s) (hid : Identified config s) (hk : s.ledger.calls[i]? = some k)
    (hc : k.completed) : s.ledger.pending.lookup k.sequence = none := by
  cases hl : s.ledger.pending.lookup k.sequence with
  | none => rfl
  | some j =>
    have hmem := mem_of_lookup hl
    obtain ⟨kj, hkj, hseq, hreg⟩ := hid.entered hmem
    obtain rfl := h.distinct hkj hk hseq (hid.number hkj (.inr hreg))
    rw [hkj] at hk
    cases hk
    rcases hc with ho | hr
    · revert hreg ho
      cases k.phase <;> simp [Phase.registered, Phase.over]
    · have h1 := hid.conserved.call hkj
      have h2 := h1.entries
      have h3 := h1.once
      have h4 := Ledger.entries_pos hmem
      omega

/-- **Response correlation.** Whatever requests, cancellations, timeouts and frames come in whatever order, a frame
completes at most one call; a call that returns a PDU returns one that was read from a frame which completed this very
call, with the sequence number of the frame it queued and the response form of its command or `generic_nack`; and as long
as no more than 0x7fffffff numbers have been drawn, a frame with the number of a completed call completes none. -/
theorem run_correlation (h : sessions.Trace (new config role) tr s) :
    (∀ frame i j, s.Completes frame i → s.Completes frame j → i = j) ∧
    (∀ (i : Nat) (k : Call) pdu, s.ledger.calls[i]? = some k → k.phase = .returned (.ok pdu) →
      CompletedBy config.registry tr i pdu ∧ k.AnsweredBy pdu ∧
      ∀ t item, (t, .call i .go) ∈ tr → t.Queues i item →
        item.header.sequenceNumber = pdu.header.sequenceNumber ∧ ∃ bs, item.frame = frameOf item.header bs) ∧
    (drawn tr ≤ 0x7fffffff → ∀ (i : Nat) (k : Call) frame pdu, s.ledger.calls[i]? = some k → k.completed →
      decodePDU config.registry frame = .ok pdu → pdu.header.sequenceNumber = k.sequence → ∀ j, ¬ s.Completes frame j) := by
  have hc := trace_correlates h
  refine ⟨fun frame i j hi hj => hi.unique hj, fun i k pdu hk hp => ?_, fun hn i k frame pdu hk hcomp hd hseq j hj => ?_⟩
  · obtain ⟨hby, k₁, hk₁, -, ha⟩ := hc.result hk (by rw [hp]; rfl)
    rw [hk] at hk₁
    cases hk₁
    refine ⟨hby, ha, fun t item hmem hq => ?_⟩
    obtain ⟨k₂, hk₂, -, hh, hf⟩ := hc.queued hmem hq
    rw [hk] at hk₂
    cases hk₂
    exact ⟨by rw [hh, ha.sequence]; rfl, hf⟩
  · obtain ⟨pdu', hd', hl⟩ := hj.lookup
    rw [hc.identified.configured, hd] at hd'
    cases hd'
    rw [hseq, (trace_numbered h hn).late_response hc.identified hk hcomp] at hl
    cases hl

def answeredBind : List Label := received acceptedBind ++ List.replicate 4 (.task .rx) ++ [.call 0 .go]

theorem run_correlation_answeredBind : ∃ tr s k pdu, sessions.Trace (new {} .esme) tr s ∧ s.ledger.calls[0]? = some k ∧
    k.phase = .returned (.ok pdu) ∧ k.AnsweredBy pdu ∧ ∀ j, ¬ s.Completes acceptedBind j := by
  have htrace := System.trace_after sessions (new {} .esme) answeredBind (by decide +kernel)
  have hdrawn : drawn (sessions.trace (new {} .esme) answeredBind) ≤ 0x7fffffff := by decide +kernel
  have hphase : ((sessions.after anyStep (new {} .esme) answeredBind).ledger.calls[0]?.map fun k => (k.phase, k.sequence)) =
      some (.returned (.ok ⟨⟨17, commandBindTransceiverResp, 0, 1⟩,
        .struct (.bindResponse { systemID := [], optional := [] })⟩), 1) := by
    decide +kernel
  have hpdu : decodePDU (smpp34Registry .compatible) acceptedBind =
      .ok ⟨⟨17, commandBindTransceiverResp, 0, 1⟩, .struct (.bindResponse { systemID := [], optional := [] })⟩ := by
    decide +kernel
  obtain ⟨-, hret, hlate⟩ := run_correlation htrace
  obtain ⟨k, hk, hp⟩ := Option.map_eq_some_iff.mp hphase
  simp only [Prod.mk.injEq] at hp
  refine ⟨_, _, k, _, htrace, hk, hp.1, (hret 0 k _ hk hp.1).2.1, ?_⟩
  exact hlate hdrawn 0 k acceptedBind _ hk (.inl (by rw [hp.1]; rfl)) hpdu (by rw [hp.2])

end Responses

end GoSmpp.Session
