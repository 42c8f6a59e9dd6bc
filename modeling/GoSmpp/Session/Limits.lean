import GoSmpp.Codec.Destination
import GoSmpp.Session.Correlation

/-!
# The limits of the pending table are not reached

A call that is about to insert its request owns a slot of the window and has nothing in the table, so the table is not
full. It draws again only as long as the number it has drawn is taken, and as long as fewer than 0x7fffffff numbers are
drawn meanwhile, each number it meets was held by another call when it began: of these there are fewer than slots.

* `Holding`: a number is in the table, or in the hands of a call that is about to insert it.
* `Looping`: what holds while a call allocates its number; `collided_length` bounds the collisions.
* `run_limits`: neither `ErrPendingLimit` nor `ErrSequenceExhausted` comes of it.
-/

namespace GoSmpp.Session
open Lib Protocol Codec

/-! ## Numbers that are taken -/

/-- The call `j` has the number in the table, or is about to insert it. -/
def Holding (s : Session) (j : Nat) (x : SequenceNumber) : Prop :=
  (x, j) ∈ s.ledger.pending ∨ ∃ k n, s.ledger.calls[j]? = some k ∧ k.phase = .inserting n ∧ k.sequence = x

section Holding
variable {config : Config} {s s' : Session} {label : Label} {i j : Nat} {k : Call} {x : SequenceNumber}

theorem holding_step (hs : s.step label = some s') (h : s'.Holding j x) :
    s.Holding j x ∨ (label = .call j .go ∧ s.draws label ∧ x = next s.ledger.sequence) := by
  rcases h with he | ⟨k', n, hk', hp, rfl⟩
  · left
    rcases (step_ledger hs).mem_pending he with he | ⟨i, k, n, -, hk, hp, heq, -⟩
    · exact .inl he
    · cases heq
      exact .inr ⟨k, n, hk, hp, rfl⟩
  · rcases step_caller hs hk' with ⟨command, body, w, -, rfl⟩ | ⟨k, hk, ho | ⟨arm, t, q, rfl, hn, -, ho⟩⟩
    · cases hp
    · exact .inl (.inr ⟨k, n, hk, by rw [← ho.phase]; exact hp, ho.sequence.symm⟩)
    · rw [ho.phase] at hp
      cases hn with
      | draw hp' =>
        right
        rw [hp'] at ho
        refine ⟨rfl, ?_, ho.sequence⟩
        show (s.ledger.calls[j]?).any (·.phase.atDraw) = true
        rw [hk, Option.any_some, hp']
        rfl
      | @cancel owned => cases owned <;> cases hp
      | _ => cases hp

theorem Holding.call (h : s.Holding j x) (hid : Identified config s) :
    ∃ k, s.ledger.calls[j]? = some k ∧ k.sequence = x ∧ k.holdsSlot := by
  rcases h with he | ⟨k, n, hk, hp, hx⟩
  · obtain ⟨k, hk, hx, -⟩ := hid.entered he
    refine ⟨k, hk, hx, ?_⟩
    have hc := hid.conserved.call hk
    have h1 := Ledger.entries_pos he
    have h2 := hc.entries
    have h3 := hc.once
    have h4 := hc.released
    have hins : k.inserted = 1 := by omega
    have hrel : k.released = 0 := by omega
    simp [Call.holdsSlot, hins, hrel]
  · exact ⟨k, hk, hx, by simp [Call.holdsSlot, hp, Phase.owns]⟩

/-- **There are fewer numbers held by other calls than slots.** -/
theorem collided_length {C : List SequenceNumber} (hid : Identified config s) (hk : s.ledger.calls[i]? = some k)
    (ho : k.phase.owns) (hnd : C.Nodup) (hC : ∀ x ∈ C, ∃ j, j ≠ i ∧ s.Holding j x) :
    C.length + 1 ≤ config.windowSize := by
  choose! f hf using hC
  have hinj : ∀ x ∈ C, ∀ y ∈ C, f x = f y → x = y := by
    intro x hx y hy hxy
    obtain ⟨k₁, hk₁, hx', -⟩ := (hf x hx).2.call hid
    obtain ⟨k₂, hk₂, hy', -⟩ := (hf y hy).2.call hid
    rw [hxy, hk₂] at hk₁
    cases hk₁
    rw [← hx', ← hy']
  have hplaces : (i :: C.map f).Nodup := by
    refine List.nodup_cons.mpr ⟨?_, hnd.map_on hinj⟩
    intro hm
    obtain ⟨x, hx, heq⟩ := List.mem_map.mp hm
    exact (hf x hx).1 heq
  have hslots := length_le_countP (p := Call.holdsSlot) (l := s.ledger.calls) hplaces (by
    intro j hj
    rcases List.mem_cons.mp hj with rfl | hj
    · exact ⟨k, hk, by simp [Call.holdsSlot, ho]⟩
    · obtain ⟨x, hx, rfl⟩ := List.mem_map.mp hj
      obtain ⟨k', hk', -, hslot⟩ := (hf x hx).2.call hid
      exact ⟨k', hk', hslot⟩)
  rw [List.length_cons, List.length_map, ← hid.conserved.tokens] at hslots
  exact hslots.trans hid.conserved.capacity

theorem Identified.entry_ne (hid : Identified config s) (hk : s.ledger.calls[i]? = some k) (ho : k.phase.owns)
    (he : (x, j) ∈ s.ledger.pending) : j ≠ i := by
  rintro rfl
  obtain ⟨k', hk', -, hr⟩ := hid.entered he
  rw [hk] at hk'
  cases hk'
  revert hr ho
  cases k.phase <;> simp [Phase.registered, Phase.owns]

theorem Identified.pending_lt (hid : Identified config s) (hk : s.ledger.calls[i]? = some k) (ho : k.phase.owns) :
    s.ledger.pending.length < config.windowSize := by
  have hC : ∀ x ∈ s.ledger.pending.map (·.1), ∃ j, j ≠ i ∧ s.Holding j x := by
    intro x hx
    obtain ⟨⟨x, j⟩, he, rfl⟩ := List.mem_map.mp hx
    exact ⟨j, hid.entry_ne hk ho he, .inl he⟩
  have hlen := collided_length hid hk ho hid.conserved.keys hC
  rwa [List.length_map] at hlen

end Holding

/-! ## The allocation loop -/

/-- The call is in the loop that allocates its number. -/
def Phase.allocating : Phase → Bool
  | .drawing _ | .inserting _ => true
  | _ => false

def inLoop (s : Session) (i : Nat) : Bool := s.ledger.calls[i]?.any (·.phase.allocating)

/-- The number is one of the `d` that were drawn next. -/
abbrev Draws (s : Session) (d : Nat) (x : SequenceNumber) : Prop := ∃ m, 0 < m ∧ m ≤ d ∧ x = next^[m] s.ledger.sequence

/-- What the call `i` has met since it entered its loop in `t₀`: `d` numbers have been drawn, and it has collided on `C`. -/
structure Looping (t₀ : Session) (i d : Nat) (C : List SequenceNumber) (s : Session) : Prop where
  generator : s.ledger.sequence = next^[d] t₀.ledger.sequence
  held : ∀ {j x}, s.Holding j x → t₀.Holding j x ∨ t₀.Draws d x
  nodup : C.Nodup
  collided : ∀ {x}, x ∈ C → (∃ j, j ≠ i ∧ t₀.Holding j x) ∧ t₀.Draws d x
  call : ∃ k : Call, s.ledger.calls[i]? = some k ∧ (k.phase = .drawing C.length ∨
    k.phase = .inserting C.length ∧ k.sequence ∉ C ∧ t₀.Draws d k.sequence ∧
      ∀ j, j ≠ i → s.Holding j k.sequence → t₀.Holding j k.sequence)

section Looping
variable {config : Config} {role : Role} {t₀ s s' : Session} {label : Label} {i d : Nat} {C : List SequenceNumber}
  {x : SequenceNumber}

theorem iterate_next_ne {v : UInt32} {m : Nat} (hm : 0 < m) (hmd : m ≤ d) (hd : d + 1 ≤ 0x7fffffff) :
    next^[m] v ≠ next^[d + 1] v := by
  intro h
  have := iterate_next_inj hm (Nat.succ_pos d) (by omega) hd h
  omega

theorem Looping.next_eq (h : Looping t₀ i d C s) : next s.ledger.sequence = next^[d + 1] t₀.ledger.sequence := by
  rw [h.generator, Function.iterate_succ_apply']

theorem Draws.mono {d' : Nat} (h : s.Draws d x) (hle : d ≤ d') : s.Draws d' x := by
  obtain ⟨m, hm, hmd, hx⟩ := h
  exact ⟨m, hm, hmd.trans hle, hx⟩

theorem Looping.draws_ne (h : Looping t₀ i d C s) (hd : d + 1 ≤ 0x7fffffff) (hx : t₀.Draws d x) :
    x ≠ next s.ledger.sequence := by
  obtain ⟨m, hm, hmd, rfl⟩ := hx
  rw [h.next_eq]
  exact iterate_next_ne hm hmd hd

theorem Looping.generator_step (h : Looping t₀ i d C s) (hs : s.step label = some s') :
    s'.ledger.sequence = next^[d + (s.draws label).toNat] t₀.ledger.sequence := by
  rw [step_sequence hs]
  cases hdr : s.draws label with
  | false => exact h.generator
  | true => exact h.next_eq

theorem Looping.held_step (h : Looping t₀ i d C s) (hs : s.step label = some s') {j : Nat} (hx : s'.Holding j x) :
    t₀.Holding j x ∨ t₀.Draws (d + (s.draws label).toNat) x := by
  rcases holding_step hs hx with hx | ⟨-, hdr, rfl⟩
  · exact (h.held hx).imp_right (·.mono (Nat.le_add_right ..))
  · rw [hdr]
    exact .inr ⟨d + 1, Nat.succ_pos d, Nat.le_refl _, h.next_eq⟩

/-- The step lemma: the call stays in its loop. -/
theorem Looping.step (h : Looping t₀ i d C s) (hid : Identified config s) (hs : s.step label = some s')
    (hd : d + (s.draws label).toNat ≤ 0x7fffffff) (hl : s'.inLoop i) :
    ∃ C', Looping t₀ i (d + (s.draws label).toNat) C' s' := by
  have hmono {x : SequenceNumber} (hx : t₀.Draws d x) : t₀.Draws (d + (s.draws label).toNat) x :=
    hx.mono (Nat.le_add_right ..)
  have hfresh (hdr : s.draws label) {x : SequenceNumber} (hx : t₀.Draws d x) : x ≠ next s.ledger.sequence := by
    rw [hdr] at hd
    exact h.draws_ne hd hx
  have hgen := h.generator_step hs
  have hcoll {x : SequenceNumber} (hx : x ∈ C) :
      (∃ j, j ≠ i ∧ t₀.Holding j x) ∧ t₀.Draws (d + (s.draws label).toNat) x := (h.collided hx).imp_right hmono
  obtain ⟨k', hk', hl⟩ : ∃ k', s'.ledger.calls[i]? = some k' ∧ k'.phase.allocating := by
    rw [inLoop, Option.any_eq_true] at hl
    exact hl
  obtain ⟨k, hk, hphase⟩ := h.call
  rcases step_own hs hk hk' with ho | ⟨arm, t, q, rfl, hn, -, ho⟩
  · -- another goroutine's step
    refine ⟨C, hgen, h.held_step hs, h.nodup, hcoll, k', hk', ?_⟩
    rw [ho.phase, ho.sequence]
    rcases hphase with hp | ⟨hp, hnot, hx, hown⟩
    · exact .inl hp
    · refine .inr ⟨hp, hnot, hmono hx, fun j hj hhold => ?_⟩
      rcases holding_step hs hhold with hold | ⟨-, hdr, heq⟩
      · exact hown j hj hold
      · exact absurd heq (hfresh hdr hx)
  · obtain ⟨-, -, hq, hseq⟩ := ho
    rw [hq] at hl
    rcases hphase with hp | ⟨hp, hnot, hx, hown⟩
    · cases hn with
      | draw hp' =>
        have hdr : s.draws (.call i .go) := by
          show (s.ledger.calls[i]?).any (·.phase.atDraw) = true
          rw [hk, Option.any_some, hp]
          rfl
        rw [hp] at hp'
        cases hp'
        replace hseq : k'.sequence = next s.ledger.sequence := by rw [hseq, hp]; rfl
        refine ⟨C, hgen, h.held_step hs, h.nodup, hcoll, k', hk', .inr ⟨hq, ?_, ?_, fun j hj hhold => ?_⟩⟩
        · rw [hseq]
          exact fun hm => hfresh hdr (h.collided hm).2 rfl
        · rw [hdr]
          exact ⟨d + 1, Nat.succ_pos d, Nat.le_refl _, hseq.trans h.next_eq⟩
        · rcases holding_step hs hhold with hold | ⟨hj', -⟩
          · exact (h.held hold).resolve_right fun hx => hfresh hdr hx hseq
          · cases hj'
            exact absurd rfl hj
      | retry hp' | insert hp' | exhausted hp' | overfull hp' | begin hp' => rw [hp] at hp'; cases hp'
      | @cancel owned => cases owned <;> cases hl
      | _ => cases hl
    · cases hn with
      | @retry n j hp' hj _ =>
        rw [hp] at hp'
        cases hp'
        have hmem := mem_of_lookup hj
        have hji := hid.entry_ne hk (by rw [hp]; rfl) hmem
        refine ⟨k.sequence :: C, hgen, h.held_step hs, List.nodup_cons.mpr ⟨hnot, h.nodup⟩, ?_, k', hk', .inl hq⟩
        intro x hxC
        rcases List.mem_cons.mp hxC with rfl | hxC
        · exact ⟨⟨j, hji, hown j hji (.inl hmem)⟩, hmono hx⟩
        · exact hcoll hxC
      | draw hp' | begin hp' => rw [hp] at hp'; cases hp'
      | @cancel owned => cases owned <;> cases hl
      | _ => cases hl

theorem looping_enter (hs : s.step label = some s') (hout : s.inLoop i = false) (hl : s'.inLoop i) : Looping s' i 0 [] s' := by
  obtain ⟨k', hk', hl⟩ : ∃ k', s'.ledger.calls[i]? = some k' ∧ k'.phase.allocating := by
    rw [inLoop, Option.any_eq_true] at hl
    exact hl
  refine ⟨rfl, .inl, List.nodup_nil, fun h => absurd h List.not_mem_nil, k', hk', .inl ?_⟩
  rcases step_caller hs hk' with ⟨command, body, w, -, rfl⟩ | ⟨k, hk, hrest⟩
  · cases hl
  · rw [inLoop, hk, Option.any_some] at hout
    rcases hrest with ho | ⟨arm, t, q, rfl, hn, -, ho⟩
    · rw [ho.phase, hout] at hl
      cases hl
    · rw [ho.phase] at hl ⊢
      cases hn with
      | begin => rfl
      | draw hp | retry hp => rw [hp] at hout; cases hout
      | @cancel owned => cases owned <;> cases hl
      | _ => cases hl

/-- The numbers drawn while the call `i` is in its loop. -/
def drawnWithin (i : Nat) (tr : List (Session × Label)) : Nat := tr.countP fun e => e.1.inLoop i && e.1.draws e.2

theorem drawnWithin_snoc (i : Nat) (tr : List (Session × Label)) (s : Session) (label : Label) :
    drawnWithin i (tr ++ [(s, label)]) = drawnWithin i tr + (s.inLoop i && s.draws label).toNat := by
  rw [drawnWithin, List.countP_append, List.countP_singleton]
  cases s.inLoop i && s.draws label <;> rfl

variable {tr : List (Session × Label)}

theorem trace_looping (h : sessions.Trace (new config role) tr s) (hn : drawnWithin i tr < 0x7fffffff)
    (hl : s.inLoop i) : ∃ t₀ d C, d ≤ drawnWithin i tr ∧ Identified config t₀ ∧ t₀.inLoop i ∧ Looping t₀ i d C s := by
  induction h with
  | nil => cases hl
  | @snoc tr s label s' htr hs ih =>
    rw [drawnWithin_snoc] at hn ⊢
    have hid := (trace_correlates htr).identified
    cases hin : s.inLoop i with
    | false => exact ⟨s', 0, [], Nat.zero_le _, hid.step hs, hl, looping_enter hs hin hl⟩
    | true =>
      rw [hin, Bool.true_and] at hn
      obtain ⟨t₀, d, C, hd, hid₀, hl₀, hloop⟩ := ih (by omega) hin
      obtain ⟨C', hloop'⟩ := hloop.step hid hs (by omega) hl
      exact ⟨t₀, _, C', by rw [Bool.true_and]; omega, hid₀, hl₀, hloop'⟩

theorem owns_of_allocating {q : Phase} (h : q.allocating) : q.owns := by
  cases q <;> first | rfl | cases h

/-- **A call that is about to insert its request finds room**, and if its number is taken it has not run out of attempts. -/
theorem trace_insert (hw : config.windowSize ≤ config.maxPending) (h : sessions.Trace (new config role) tr s)
    (hn : drawnWithin i tr < 0x7fffffff) {k : Call} {n j : Nat} (hk : s.ledger.calls[i]? = some k)
    (hp : k.phase = .inserting n) :
    s.ledger.pending.length < config.maxPending ∧
    (s.ledger.pending.lookup k.sequence = some j → n < config.maxPending) := by
  have hid := (trace_correlates h).identified
  have howns : k.phase.owns := by rw [hp]; rfl
  refine ⟨(hid.pending_lt hk howns).trans_le hw, fun hj => ?_⟩
  obtain ⟨t₀, d, C, -, hid₀, hl₀, hloop⟩ := trace_looping h hn (by rw [inLoop, hk, Option.any_some, hp]; rfl)
  obtain ⟨k₀, hk₀, hl₀⟩ : ∃ k₀, t₀.ledger.calls[i]? = some k₀ ∧ k₀.phase.allocating := by
    rw [inLoop, Option.any_eq_true] at hl₀
    exact hl₀
  obtain ⟨k₁, hk₁, hphase⟩ := hloop.call
  rw [hk] at hk₁
  cases hk₁
  rw [hp] at hphase
  rcases hphase with hphase | ⟨hphase, hnot, -, hown⟩
  · cases hphase
  · cases hphase
    have hmem := mem_of_lookup hj
    have hji := hid.entry_ne hk howns hmem
    have hlen := collided_length (C := k.sequence :: C) hid₀ hk₀ (owns_of_allocating hl₀)
      (List.nodup_cons.mpr ⟨hnot, hloop.nodup⟩) (by
        intro x hx
        rcases List.mem_cons.mp hx with rfl | hx
        · exact ⟨j, hji, hown j hji (.inl hmem)⟩
        · exact (hloop.collided hx).1)
    rw [List.length_cons] at hlen
    omega

end Looping

/-! ## What a caller is told -/

/-- `ErrPendingLimit` or `ErrSequenceExhausted`. -/
def limitError : Err → Bool
  | .sentinel .pendingLimit | .sentinel .sequenceExhausted => true
  | _ => false

/-- An encoder of the registry returns the error. -/
def EncoderError (registry : Registry) (err : Err) : Prop :=
  ∃ header body, encodeFrame registry header body = .error err

section Told
variable {config : Config} {role : Role} {s s' : Session} {label : Label} {i : Nat} {k : Call} {err : Err}

theorem not_limitError_requestCloseError (s : Session) : limitError s.requestCloseError = false := by
  unfold requestCloseError
  split
  · rfl
  · split <;> rfl

theorem EncoderError.not_limitError {registry : Registry} (h : EncoderError registry err) (hr : registry.IsStandard) :
    limitError err = false := by
  obtain ⟨header, body, h⟩ := h
  unfold encodeFrame at h
  split at h <;> cases h
  · next he =>
    have hrefusal := encodePDU_refuses hr he
    unfold limitError
    split
    · cases hrefusal
    · cases hrefusal
    · rfl
  · next v hp => exact absurd hp (encodePDU_nil registry header body v)

theorem not_limitError_requestError (h : s.requestError k = some err) : limitError err = false := by
  unfold requestError at h
  split at h
  · cases h; rfl
  · split at h
    · cases h; rfl
    · split at h <;> cases h
      rfl

theorem not_limitError_beginOutbound {m : StateMachine} {command : CommandID} (h : m.beginOutbound command = .error err) :
    limitError err = false := by
  unfold StateMachine.beginOutbound at h
  split at h
  · cases h; rfl
  · split at h <;> cases h
    rfl

theorem taskStep_result {o : Owner} {t : Task} (h : s.taskStep o = some s') (ht : t ∈ s'.ledger.tasks) :
    ∃ t₀ ∈ s.ledger.tasks, t.result = t₀.result := by
  have hstep := taskStep_ledger h
  have hresume {t₁ : Task} {l₀ l₁ : Ledger} {todo : List Stage} (hn : s.ledger.nextTask o = some (t₁, l₀))
      (hl : l₁.tasks = l₀.tasks) (ht : t ∈ (l₁.resume t₁ todo).tasks) : ∃ t₀ ∈ s.ledger.tasks, t.result = t₀.result := by
    obtain ⟨tasks, rfl, hperm⟩ := Ledger.nextTask_eq hn
    rcases Ledger.mem_resume ht with hm | rfl
    · rw [hl] at hm
      exact ⟨t, hperm.mem_iff.mpr (List.mem_cons_of_mem _ hm), rfl⟩
    · exact ⟨t₁, hperm.mem_iff.mpr List.mem_cons_self, rfl⟩
  generalize s'.ledger = l' at hstep ht
  cases hstep with
  | other => exact ⟨t, ht, rfl⟩
  | finish hn _ hf =>
    obtain ⟨kt, -, ⟨-, rfl⟩ | ⟨-, rfl⟩⟩ := Ledger.finish_some hf
    · exact hresume hn rfl ht
    · exact hresume hn (by rfl) ht
  | release hn => exact hresume hn (by rw [Ledger.modify, Ledger.release_tasks]) ht
  | send hn _ hs =>
    obtain ⟨kt, -, -, rfl⟩ := Ledger.send_some hs
    exact hresume hn (by rfl) ht
  | stage hn => exact hresume hn (by rfl) ht

theorem step_limitError {t : Task} (h : s.step label = some s') (ht : t ∈ s'.ledger.tasks) (hr : t.result = .error err)
    (he : limitError err) : (∃ t₀ ∈ s.ledger.tasks, t₀.result = .error err) ∨ EncoderError s.config.registry err := by
  have hold {t₀ : Task} (ht₀ : t₀ ∈ s.ledger.tasks) (hres : t.result = t₀.result) :
      (∃ t₀ ∈ s.ledger.tasks, t₀.result = .error err) ∨ EncoderError s.config.registry err :=
    .inl ⟨t₀, ht₀, hres ▸ hr⟩
  cases label with
  | request command body waitWindow => cases h; exact hold ht rfl
  | call i arm =>
    obtain ⟨k, -, -, h⟩ := step_call h
    obtain ⟨t', q, hn, rfl⟩ := callStep_next h
    replace ht : t ∈ t'.ledger.tasks := ht
    cases hn with
    | giveUp hp =>
      rcases List.mem_cons.mp ht with rfl | hm
      · cases hr
        rcases hp with ⟨-, hf⟩ | ⟨-, rfl⟩
        · exact .inr ⟨_, _, hf⟩
        · cases he
      · exact hold hm rfl
    | release => rw [Ledger.release_tasks] at ht; exact hold ht rfl
    | _ => exact hold ht rfl
  | task o =>
    obtain ⟨t₀, ht₀, hres⟩ := taskStep_result h ht
    exact hold ht₀ hres
  | sendOneWay command body => cases h; exact hold ht rfl
  | send i arm =>
    obtain ⟨k, -, h⟩ := step_send h
    have hstep := sendStep_ledger h
    generalize s'.ledger = l' at hstep ht
    cases hstep
    exact hold ht rfl
  | frame frame =>
    rcases frame_ledger h with hl | ⟨pdu, j, k, -, -, -, -, hl⟩
    · rw [hl] at ht; exact hold ht rfl
    · rw [hl] at ht
      rcases List.mem_cons.mp ht with rfl | hm
      · cases hr
      · exact hold hm rfl
  | rx choice => rw [rxStep_scope h] at ht; exact hold ht rfl
  | tx choice =>
    have hstep := txStep_ledger h
    generalize s'.ledger = l' at hstep ht
    cases hstep <;> exact hold ht rfl
  | expire call => obtain ⟨item, -, h⟩ := Option.bind_eq_some_iff.mp h; cases h; exact hold ht rfl
  | fire =>
    cases fire_move h with
    | timeout =>
      rcases List.mem_cons.mp ht with rfl | hm
      · cases hr; cases he
      · exact hold hm rfl
    | late => exact hold ht rfl
  | terminate cause => cases h; rw [terminate_ledger] at ht; exact hold ht rfl
  | term =>
    cases termStep_move h with
    | sweep =>
      refine (Ledger.failAll_induction (P := fun l => t ∈ l.tasks → (∃ t₀ ∈ s.ledger.tasks, t₀.result = .error err) ∨
        EncoderError s.config.registry err) _ (fun ht => hold ht rfl) ?_).1 ht
      intro l sequence j hl _ hm
      rcases List.mem_cons.mp hm with rfl | hm
      · cases hr
        rw [not_limitError_requestCloseError] at he
        cases he
      · exact hl hm
    | close | done | clear => exact hold ht rfl

/-- Results that are one of the two errors come from an encoder, as long as the call `i` has not run into a limit. -/
structure Unlimited (config : Config) (i : Nat) (s : Session) : Prop where
  task : ∀ {t err}, t ∈ s.ledger.tasks → t.result = .error err → limitError err → EncoderError config.registry err
  done : ∀ {j : Nat} {k : Call} {err}, s.ledger.calls[j]? = some k → .error err ∈ k.done → limitError err →
    EncoderError config.registry err
  result : ∀ {k : Call} {err}, s.ledger.calls[i]? = some k → k.phase.result = some (.error err) → limitError err →
    EncoderError config.registry err

theorem Unlimited.done_step (h : Unlimited config i s) (hid : Identified config s) (hs : s.step label = some s') {j : Nat}
    {k' : Call} (hk' : s'.ledger.calls[j]? = some k') (hd : .error err ∈ k'.done) (he : limitError err) :
    EncoderError config.registry err := by
  rcases hid.done_of hs hk' hd with ⟨k, hk, hd⟩ | ⟨t, ht, -, hr⟩
  · exact h.done hk hd he
  · exact h.task ht hr he

theorem Unlimited.result_step (h : Unlimited config i s) (hid : Identified config s) (hs : s.step label = some s')
    (hins : ∀ {k : Call} {n j}, s.ledger.calls[i]? = some k → k.phase = .inserting n →
      s.ledger.pending.length < config.maxPending ∧
      (s.ledger.pending.lookup k.sequence = some j → n < config.maxPending))
    {k' : Call} (hk' : s'.ledger.calls[i]? = some k') (hp : k'.phase.result = some (.error err)) (he : limitError err) :
    EncoderError config.registry err := by
  obtain rfl := hid.configured
  rcases step_caller hs hk' with ⟨command, body, w, -, rfl⟩ | ⟨k, hk, ho | ⟨arm, t, q, rfl, hn, -, ho⟩⟩
  · cases hp
  · exact h.result hk (ho.phase ▸ hp) he
  · rw [ho.phase] at hp
    have hnot {err' : Err} (hne : limitError err' = false)
        (heq : some (Except.error (α := DecodedPDU) err') = some (.error err)) : EncoderError s.config.registry err := by
      cases heq
      rw [hne] at he
      cases he
    cases hn with
    | refuse _ hr => exact hnot (not_limitError_requestError hr) hp
    | closed | slotDone => exact hnot (not_limitError_requestCloseError s) hp
    | full | slotCtx => exact hnot rfl hp
    | beginError _ hb => exact hnot (not_limitError_beginOutbound hb) hp
    | exhausted hi hj hle => exact absurd ((hins hk hi).2 hj) (Nat.not_lt.mpr hle)
    | overfull hi hle => exact absurd (hins (j := 0) hk hi).1 (Nat.not_lt.mpr hle)
    | giveUp hg =>
      cases hp
      rcases hg with ⟨-, hf⟩ | ⟨-, rfl⟩
      · exact ⟨_, _, hf⟩
      · cases he
    | unencodable _ hf => cases hp; exact ⟨_, _, hf⟩
    | receive _ hd => cases hp; exact h.done hk (by rw [hd]; exact List.mem_cons_self) he
    | @cancel owned r hc => exact h.result hk (by rw [hc]; cases owned <;> exact hp) he
    | release hr => exact h.result hk (by rw [hr]; exact hp) he
    | check | enter | acquire | await | begin | draw | insert | retry | encode | enqueue | overtaken | admitDone => cases hp

variable {tr : List (Session × Label)}

theorem trace_unlimited (hw : config.windowSize ≤ config.maxPending) (h : sessions.Trace (new config role) tr s)
    (hn : drawnWithin i tr < 0x7fffffff) : Unlimited config i s := by
  induction h with
  | nil => exact ⟨fun h => absurd h List.not_mem_nil, fun hk => (by cases hk), fun hk => (by cases hk)⟩
  | @snoc tr s label s' htr hs ih =>
    rw [drawnWithin_snoc] at hn
    have hid := (trace_correlates htr).identified
    have ih := ih (by omega)
    refine ⟨fun ht hr he => ?_, fun hk' hd he => ih.done_step hid hs hk' hd he, fun hk' hp he => ?_⟩
    · rcases step_limitError hs ht hr he with ⟨t₀, ht₀, hr₀⟩ | henc
      · exact ih.task ht₀ hr₀ he
      · exact hid.configured ▸ henc
    · exact ih.result_step hid hs (fun hk hp => trace_insert hw htr (by omega) hk hp) hk' hp he

/-- **The limits of the pending table are unreachable.** With a table no smaller than the window, a call during whose
allocation loop fewer than 0x7fffffff numbers are drawn always finds the table below its limit, and its number free before
it runs out of attempts; so it returns `ErrPendingLimit` or `ErrSequenceExhausted` only where an encoder returns it, which
those of the library never do. -/
theorem run_limits (hw : config.windowSize ≤ config.maxPending) (h : sessions.Trace (new config role) tr s)
    (hn : drawnWithin i tr < 0x7fffffff) (hk : s.ledger.calls[i]? = some k) :
    (∀ n, k.phase = .inserting n → s.ledger.pending.length < config.maxPending ∧
      ((s.ledger.pending.lookup k.sequence).isSome → n < config.maxPending)) ∧
    (∀ err, k.phase = .returned (.error err) → limitError err → EncoderError config.registry err) ∧
    (config.registry.IsStandard → ∀ err, k.phase = .returned (.error err) → limitError err = false) := by
  have htold (err : Err) (hp : k.phase = .returned (.error err)) (he : limitError err) : EncoderError config.registry err :=
    (trace_unlimited hw h hn).result hk (by rw [hp]; rfl) he
  refine ⟨fun n hp => ?_, htold, fun hr err hp => Bool.eq_false_iff.mpr fun he => ?_⟩
  rotate_left
  · rw [(htold err hp he).not_limitError hr] at he
    cases he
  refine ⟨(trace_insert (j := 0) hw h hn hk hp).1, fun hl => ?_⟩
  obtain ⟨j, hj⟩ := Option.isSome_iff_exists.mp hl
  exact (trace_insert hw h hn hk hp).2 hj

def windowOfTwo : Config := { windowSize := 2, maxPending := 2 }

/-- One request is pending and another is about to be inserted. -/
def secondRequest : List Label :=
  answeredBind ++ .request commandEnquireLink emptyBody true :: List.replicate 6 (.call 1 .go) ++
    .request commandEnquireLink emptyBody true :: List.replicate 5 (.call 2 .go)

theorem run_limits_secondRequest : ∃ tr s k, sessions.Trace (new windowOfTwo .esme) tr s ∧
    s.ledger.calls[2]? = some k ∧ k.phase = .inserting 0 ∧ s.ledger.pending = [(2, 1)] ∧ s.ledger.pending.length < 2 := by
  have htrace := System.trace_after sessions (new windowOfTwo .esme) secondRequest (by decide +kernel)
  have hdrawn : drawnWithin 2 (sessions.trace (new windowOfTwo .esme) secondRequest) < 0x7fffffff := by decide +kernel
  have hphase : ((sessions.after anyStep (new windowOfTwo .esme) secondRequest).ledger.calls[2]?.map (·.phase)) =
      some (.inserting 0) := by decide +kernel
  obtain ⟨k, hk, hp⟩ := Option.map_eq_some_iff.mp hphase
  exact ⟨_, _, k, htrace, hk, hp, by decide +kernel, ((run_limits (by decide) htrace hdrawn hk).1 0 hp).1⟩

end Told

end GoSmpp.Session
