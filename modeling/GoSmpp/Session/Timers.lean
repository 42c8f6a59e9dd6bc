import GoSmpp.Session.Pipeline
import GoSmpp.Session.Correlation

/-!
# The deadlines of requests

The TX loop marks a request dispatched, schedules its deadline and attaches it; whoever completes the request cancels it. These
steps are under three different locks.

* `TimerTurn`: every step of the TX loop as the deadlines see it (`txStep_timer`). `step_heap`: every step on the heap.
* `Step.deadline`: an attached deadline stays attached until the request is finished, and then it is to be cancelled.
* `Counted`: each call has at most one item on its way to be scheduled, and its deadline is pushed at most once.
* `Guarded`: a deadline in the heap is about to be attached, attached, or about to be cancelled.
* `run_timers`: no deadline is left behind by a request that is over.
-/

namespace GoSmpp.Session
open Lib Protocol Codec

/-! ## The TX loop -/

/-- The loop is between `markDispatched` and the end of `attachDeadline`. -/
def TxPhase.timing : TxPhase → Bool
  | .scheduling _ _ | .attaching _ _ => true
  | _ => false

/-- The items that the loop has taken from the queue and not marked as dispatched. -/
def TxPhase.unmarked : TxPhase → List TxItem
  | .checking item batch => batch ++ [item]
  | .gathering batch | .committing _ batch | .writing _ batch => batch
  | .finishing rest | .scheduling _ rest | .attaching _ rest => rest
  | .idle | .stopped => []

/-- The items on their way to `markDispatched`. -/
def unmarked (s : Session) : List TxItem := s.tx.unmarked ++ s.queue

/-- A step of the TX loop as the deadlines see it. -/
inductive TimerTurn (s s' : Session) (choice : TxChoice) : Prop
  | keep (hledger : s'.ledger = s.ledger) (hbefore : s.tx.timing = false) (hafter : s'.tx.timing = false)
      (hitems : s'.unmarked.Sublist s.unmarked)
  | mark {item : TxItem} {rest : List TxItem} {call : Nat} (htx : s.tx = .finishing (item :: rest)) (hkind : item.kind = .request)
      (hcall : s.ledger.pending.lookup item.sequence = some call)
      (heq : s' = { s with tx := .scheduling { call, command := item.requestID, sequence := item.sequence } rest })
  | push {item : DeadlineItem} {rest : List TxItem} (hchoice : choice = .go) (htx : s.tx = .scheduling item rest)
      (htimes : s.config.timesOut item.command)
      (heq : s' = { s with ledger := { s.ledger with heap := item :: s.ledger.heap }, tx := .attaching item.call rest })
  | skip {item : DeadlineItem} {rest : List TxItem} (htx : s.tx = .scheduling item rest)
      (htimes : s.config.timesOut item.command = false) (heq : s' = { s with tx := .finishing rest })
  | attach {call : Nat} {rest : List TxItem} {k : Call} (htx : s.tx = .attaching call rest)
      (hk : s.ledger.calls[call]? = some k) (hfinished : k.finished = false)
      (heq : s' = { s with ledger := s.ledger.modify call fun k => { k with deadline := true }, tx := .finishing rest })
  | detach {call : Nat} {rest : List TxItem} (htx : s.tx = .attaching call rest)
      (heq : s' = { s with ledger := s.ledger.unschedule call, tx := .finishing rest })

section TimerTurn
variable {s s' : Session} {choice : TxChoice}

theorem txStep_timer (h : s.txStep choice = some s') : TimerTurn s s' choice := by
  have hkeep {t : Session} (hl : t.ledger = s.ledger) (hb : s.tx.timing = false) (ha : t.tx.timing = false)
      (hu : t.unmarked = s.unmarked) : TimerTurn s t choice := .keep hl hb ha (hu ▸ List.Sublist.refl _)
  have hdone {t : Session} {item : TxItem} {rest : List TxItem} (htx : s.tx = .finishing (item :: rest))
      (hl : t.ledger = s.ledger) (ha : t.tx.timing = false) (hu : t.unmarked = rest ++ s.queue) : TimerTurn s t choice := by
    refine .keep hl (by rw [htx]; rfl) ha ?_
    rw [hu, unmarked, htx]
    exact List.sublist_cons_self item _
  cases txStep_move h with
  | take htx hqueue => exact hkeep rfl (by rw [htx]; rfl) rfl (by rw [unmarked, unmarked, htx, hqueue]; rfl)
  | gather htx hqueue =>
    refine hkeep rfl (by rw [htx]; rfl) rfl ?_
    rw [unmarked, unmarked, htx, hqueue]
    simp [TxPhase.unmarked]
  | @drop item batch htx | @dropAll item htx =>
    refine .keep rfl (by rw [htx]; rfl) rfl ?_
    rw [unmarked, unmarked, htx]
    exact (List.sublist_append_left _ [item]).append_right _
  | fail htx | unbound htx => exact .keep rfl (by rw [htx]; rfl) rfl (List.sublist_append_right _ _)
  | mark htx hkind hcall => exact .mark htx hkind hcall rfl
  | completed htx | answered htx | dispatched htx => exact hdone htx rfl rfl rfl
  | schedule htx htimes => exact .push rfl htx htimes rfl
  | skip htx htimes => exact .skip htx htimes rfl
  | attach htx hk hfinished => exact .attach htx hk hfinished rfl
  | detach htx => exact .detach htx rfl
  | stop htx | accept htx | close htx | commit htx | committed htx | write htx | written htx | finish htx =>
    exact hkeep rfl (by rw [htx]; rfl) rfl (by rw [unmarked, unmarked, htx]; rfl)

end TimerTurn

/-! ## The heap -/

inductive HeapNext (s : Session) : Label → List DeadlineItem → Prop
  | keep (label : Label) : HeapNext s label s.ledger.heap
  | push {item : DeadlineItem} {rest : List TxItem} (htx : s.tx = .scheduling item rest)
      (htimes : s.config.timesOut item.command) : HeapNext s (.tx .go) (item :: s.ledger.heap)
  | remove (label : Label) (call : Nat) : HeapNext s label (s.ledger.heap.eraseP (·.call == call))

namespace Ledger

theorem release_heap (l : Ledger) : l.release.heap = l.heap := by
  unfold Ledger.release
  split <;> rfl

theorem resume_heap (l : Ledger) (t : Task) (todo : List Stage) : (l.resume t todo).heap = l.heap := by
  unfold Ledger.resume
  split <;> rfl

theorem nextTask_heap {l l₀ : Ledger} {o : Owner} {t : Task} (h : l.nextTask o = some (t, l₀)) : l₀.heap = l.heap := by
  obtain ⟨tasks, rfl, -⟩ := nextTask_eq h
  rfl

end Ledger

section Heap
variable {s s' : Session} {label : Label} {i : Nat} {k : Call} {arm : Arm}

theorem callStep_heap (h : s.callStep i k arm = some s') : s'.ledger.heap = s.ledger.heap := by
  obtain ⟨t, q, hn, rfl⟩ := callStep_next h
  show t.ledger.heap = s.ledger.heap
  cases hn with
  | release => exact Ledger.release_heap _
  | _ => rfl

theorem taskStep_heap {o : Owner} (h : s.taskStep o = some s') : ∃ t l st rest, s.ledger.nextTask o = some (t, l) ∧
    t.todo = st :: rest ∧
    s'.ledger.heap = if st = .unschedule then s.ledger.heap.eraseP (·.call == t.call) else s.ledger.heap := by
  obtain ⟨t, l, k, ht, -, hm⟩ := taskStep_move h
  have hl := Ledger.nextTask_heap ht
  refine ⟨t, l, ?_⟩
  cases hm with
  | finish htodo hf =>
    refine ⟨_, _, ht, htodo, ?_⟩
    obtain ⟨k, -, ⟨-, rfl⟩ | ⟨-, rfl⟩⟩ := Ledger.finish_some hf <;> rw [Ledger.resume_heap] <;> exact hl
  | unschedule htodo =>
    refine ⟨_, _, ht, htodo, ?_⟩
    rw [Ledger.resume_heap, Ledger.unschedule, hl]
    rfl
  | release htodo =>
    refine ⟨_, _, ht, htodo, ?_⟩
    rw [Ledger.resume_heap, Ledger.modify, Ledger.release_heap]
    exact hl
  | send htodo hs =>
    refine ⟨_, _, ht, htodo, ?_⟩
    obtain ⟨k, -, -, rfl⟩ := Ledger.send_some hs
    rw [Ledger.resume_heap]
    exact hl
  | close htodo =>
    exact ⟨_, _, ht, htodo, (congrArg Ledger.heap (terminate_ledger _ _)).trans ((Ledger.resume_heap _ _ _).trans hl)⟩
  | complete htodo | negotiate htodo | stay htodo | cancel htodo =>
    exact ⟨_, _, ht, htodo, (Ledger.resume_heap _ _ _).trans hl⟩

theorem sendStep_heap {k : Send} (h : s.sendStep i k arm = some s') : s'.ledger.heap = s.ledger.heap := by
  obtain ⟨t, q, hn, rfl⟩ := sendStep_next h
  cases hn <;> rfl

theorem frame_heap {frame : Octets} (h : s.step (.frame frame) = some s') : s'.ledger.heap = s.ledger.heap := by
  rcases frame_ledger h with h | ⟨pdu, i, k, -, -, -, -, h⟩
  · rw [h]
  · rw [h]
    rfl

theorem fire_heap (h : s.fire = some s') : s'.ledger.heap = s.ledger.heap := by
  cases fire_move h <;> rfl

theorem termStep_heap (h : s.termStep = some s') : s'.ledger.heap = s.ledger.heap := by
  cases termStep_move h with
  | sweep =>
    refine (Ledger.failAll_induction (P := fun l => l.heap = s.ledger.heap) _ rfl ?_).1
    intro l _ _ hl _
    exact hl
  | close | done | clear => rfl

/-- **What a step does to the heap.** -/
theorem step_heap (h : s.step label = some s') : HeapNext s label s'.ledger.heap := by
  have hkeep {l : List DeadlineItem} (hl : l = s.ledger.heap) : HeapNext s label l := hl ▸ .keep label
  cases label with
  | request command body waitWindow => cases h; exact hkeep rfl
  | call i arm => obtain ⟨k, -, -, h⟩ := step_call h; exact hkeep (callStep_heap h)
  | task o =>
    obtain ⟨t, l, st, rest, -, -, heq⟩ := taskStep_heap h
    rw [heq]
    split
    · exact .remove _ t.call
    · exact .keep _
  | sendOneWay command body => cases h; exact hkeep rfl
  | send i arm => obtain ⟨k, -, h⟩ := step_send h; exact hkeep (sendStep_heap h)
  | frame frame => exact hkeep (frame_heap h)
  | rx choice => exact hkeep (by rw [rxStep_scope h])
  | tx choice =>
    cases txStep_timer h with
    | keep hl => exact hkeep (by rw [hl])
    | mark _ _ _ heq | skip _ _ heq | attach _ _ _ heq => exact hkeep (congrArg (·.ledger.heap) heq)
    | push hchoice htx htimes heq =>
      rw [heq, hchoice]
      exact .push htx htimes
    | detach _ heq =>
      rw [heq]
      exact .remove _ _
  | expire call =>
    obtain ⟨item, -, h⟩ := Option.bind_eq_some_iff.mp h
    cases h
    exact .remove _ call
  | fire => exact hkeep (fire_heap h)
  | terminate cause => cases h; exact hkeep (by rw [terminate_ledger])
  | term => exact hkeep (termStep_heap h)

end Heap

/-! ## Attached deadlines -/

namespace Ledger
variable {c : Config} {l l' : Ledger} {label : Label} {i : Nat} {k : Call}

/-- A deadline of the call is to be cancelled. -/
def Unscheduling (l : Ledger) (i : Nat) : Prop := ∃ r, l.WillDo i r .unschedule

/-- A step that does not concern the deadline of the call. -/
structure SameTimer (k k' : Call) : Prop where
  inserted : k.inserted ≤ k'.inserted
  deadline : k'.deadline = k.deadline
  finished : k'.finished = k.finished

theorem SameTimer.refl (k : Call) : SameTimer k k := ⟨Nat.le_refl _, rfl, rfl⟩

theorem failAll_sameTimer (err : Err) (hk : l.calls[i]? = some k) :
    ∃ k', (l.failAll err).calls[i]? = some k' ∧ SameTimer k k' := by
  refine (failAll_induction (P := fun l' => ∃ k', l'.calls[i]? = some k' ∧ SameTimer k k') err ⟨k, hk, .refl k⟩ ?_).1
  rintro l' sequence j ⟨k', hk', hs⟩ -
  obtain ⟨n, hn⟩ := remove_call sequence (errorTask .sweep j err []) hk'
  exact ⟨_, hn, hs.inserted, hs.deadline, hs.finished⟩

/-- **What a step does to the deadline of a call**: nothing, or it is attached, or the request is finished and the deadline that
was attached is to be cancelled. -/
theorem Step.deadline (h : l.Step c label l') (hk : l.calls[i]? = some k) : ∃ k', l'.calls[i]? = some k' ∧
    k.inserted ≤ k'.inserted ∧
    (k.deadline → k.finished = false → (k'.deadline ∧ k'.finished = false) ∨ l'.Unscheduling i) := by
  have hsame {l₁ : Ledger} (hs : ∃ k', l₁.calls[i]? = some k' ∧ SameTimer k k') : ∃ k', l₁.calls[i]? = some k' ∧
      k.inserted ≤ k'.inserted ∧
      (k.deadline → k.finished = false → (k'.deadline ∧ k'.finished = false) ∨ l₁.Unscheduling i) := by
    obtain ⟨k', hk', hs⟩ := hs
    exact ⟨k', hk', hs.inserted, fun hd hf => .inl ⟨hs.deadline ▸ hd, hs.finished.trans hf⟩⟩
  have hkeep {l₁ : Ledger} {j : Nat} {f : Call → Call} (hl : l₁.calls = l.calls.modify j f) (hf : SameTimer k (f k)) :
      ∃ k', l₁.calls[i]? = some k' ∧ SameTimer k k' := by
    refine ⟨_, by rw [hl]; exact calls_modify hk j f, ?_⟩
    split
    · exact hf
    · exact .refl k
  have hremove (sequence : SequenceNumber) (t : Task) : ∃ k', (l.remove sequence t).calls[i]? = some k' ∧ SameTimer k k' := by
    obtain ⟨n, hn⟩ := remove_call sequence t hk
    exact ⟨_, hn, Nat.le_refl _, rfl, rfl⟩
  cases h with
  | other => exact hsame ⟨k, hk, .refl k⟩
  | request => exact hsame ⟨k, getElem?_append_some hk _, .refl k⟩
  | move | draw | acquire | unencodable | receive => exact hsame (hkeep rfl ⟨Nat.le_refl _, rfl, rfl⟩)
  | giveBack => exact hsame (hkeep (by rw [goto_calls, release_calls]) ⟨Nat.le_refl _, rfl, rfl⟩)
  | insert _ _ hins =>
    obtain ⟨-, -, rfl⟩ := insert_ok hins
    refine hsame ⟨_, by rw [goto_calls, inserted_calls, List.modify_modify_eq]; exact calls_modify hk _ _, ?_⟩
    split
    · exact ⟨Nat.le_succ _, rfl, rfl⟩
    · exact .refl k
  | @abandon j kj arm j' err =>
    obtain ⟨k₁, hk₁, hs⟩ := hremove kj.sequence (errorTask (.caller j) j' err [])
    refine hsame ⟨_, calls_modify hk₁ j _, ?_⟩
    split
    · exact ⟨hs.inserted, hs.deadline, hs.finished⟩
    · exact hs
  | take _ ht =>
    obtain ⟨j, kj, -, -, -, rfl⟩ := takeResponse_some ht
    exact hsame (hremove _ _)
  | timeout => exact hsame (hremove _ _)
  | sweep err => exact hsame (failAll_sameTimer err hk)
  | @finish o t l₀ rest l' ht htodo hf =>
    obtain ⟨tasks, rfl, -⟩ := nextTask_eq ht
    obtain ⟨kt, hkt, ⟨-, rfl⟩ | ⟨-, rfl⟩⟩ := finish_some hf
    · exact hsame ⟨k, by rw [resume_calls]; exact hk, .refl k⟩
    · refine ⟨_, by rw [resume_calls]; exact calls_modify hk t.call _, ?_, fun hd hfin => ?_⟩
      · split <;> exact Nat.le_refl _
      · by_cases hcall : t.call = i
        · subst hcall
          cases hk.symm.trans hkt
          have hmem : Stage.unschedule ∈ (if k.deadline then Stage.unschedule :: rest else rest) := by
            rw [if_pos hd]
            exact List.mem_cons_self
          exact .inr ⟨t.result, _, resume_mem hmem, rfl, rfl, hmem⟩
        · rw [if_neg hcall]
          exact .inl ⟨hd, hfin⟩
  | @release o t l₀ rest ht _ =>
    obtain ⟨tasks, rfl, -⟩ := nextTask_eq ht
    refine hsame (hkeep (j := t.call) (f := fun k => { k with released := k.released + 1 }) ?_ ⟨Nat.le_refl _, rfl, rfl⟩)
    rw [resume_calls, modify_calls, release_calls]
  | send ht _ hs =>
    obtain ⟨tasks, rfl, -⟩ := nextTask_eq ht
    obtain ⟨kt, -, -, rfl⟩ := send_some hs
    exact hsame (hkeep (resume_calls _ _ _) ⟨Nat.le_refl _, rfl, rfl⟩)
  | stage ht =>
    obtain ⟨tasks, rfl, -⟩ := nextTask_eq ht
    exact hsame ⟨k, by rw [resume_calls]; exact hk, .refl k⟩
  | @attach j kj =>
    refine ⟨_, calls_modify hk j _, ?_, fun hd hf => .inl ?_⟩
    · split <;> exact Nat.le_refl _
    · split
      · exact ⟨rfl, hf⟩
      · exact ⟨hd, hf⟩

end Ledger

/-! ## Each deadline is pushed at most once -/

/-- The call may yet queue its request. -/
def Phase.unqueued : Phase → Bool
  | .encoding | .admitting _ => true
  | p => p.early

/-- The call `i` may yet queue its request, or is yet to be made. -/
def mayQueue (s : Session) (i : Nat) : Bool := s.ledger.calls[i]?.elim true (·.phase.unqueued)

/-- How many items of the call `i` are on their way to `markDispatched`. -/
def onTheWay (s : Session) (i : Nat) : Nat :=
  s.ledger.calls[i]?.elim 0 fun k => s.unmarked.countP fun item => item.kind = .request ∧ item.sequence = k.sequence

/-- The TX loop is about to schedule the deadline of the call `i`. -/
def schedules (s : Session) (i : Nat) : Bool :=
  match s.tx with
  | .scheduling item _ => item.call == i
  | _ => false

/-- The step pushes the deadline of the call `i` on the heap. -/
def pushes (s : Session) (i : Nat) : Label → Bool
  | .tx .go => match s.tx with
    | .scheduling item _ => item.call == i && s.config.timesOut item.command
    | _ => false
  | _ => false

/-- How often a run has pushed the deadline of the call `i`. -/
def pushed (i : Nat) (tr : List (Session × Label)) : Nat := tr.countP fun e => e.1.pushes i e.2

theorem pushed_snoc (i : Nat) (tr : List (Session × Label)) (s : Session) (label : Label) :
    pushed i (tr ++ [(s, label)]) = pushed i tr + (s.pushes i label).toNat := by
  rw [pushed, List.countP_append, List.countP_singleton]
  cases s.pushes i label <;> rfl

/-- The deadline is that of a call that has inserted its request, under its number. -/
def Owned (s : Session) (item : DeadlineItem) : Prop :=
  ∃ k, s.ledger.calls[item.call]? = some k ∧ k.sequence = item.sequence ∧ k.phase.early = false ∧ 0 < k.inserted

/-- What waits to be queued is a one-way PDU or a response, if it is not the request of a call. -/
structure Queueing (s : Session) : Prop where
  oneWayItems : s.OneWayItems
  answers : ∀ item next, s.rx = .queueing item next → item.kind = .response

/-- The requests on their way to `markDispatched` are those of calls that have queued them. -/
def Sent (s : Session) : Prop := ∀ item ∈ s.unmarked, item.kind = .request → item.sequence ≠ 0 ∧
  ∃ (i : Nat) (k : Call), s.ledger.calls[i]? = some k ∧ k.sequence = item.sequence ∧ k.phase.unqueued = false

/-- No call has more than one item on its way, or its deadline about to be scheduled, or pushed. -/
structure Counted (tr : List (Session × Label)) (s : Session) : Prop where
  sent : s.Sent
  owned : ∀ item, item ∈ s.ledger.heap ∨ (∃ rest, s.tx = .scheduling item rest) → s.Owned item
  once : ∀ i, pushed i tr + (s.schedules i).toNat + (s.onTheWay i + (s.mayQueue i).toNat) ≤ 1
  heap : ∀ i, s.ledger.heap.countP (·.call == i) ≤ pushed i tr

section Counted
variable {config : Config} {role : Role} {tr : List (Session × Label)} {s s' : Session} {label : Label} {i : Nat} {k : Call}

theorem queueing_new (config : Config) (role : Role) : (new config role).Queueing :=
  ⟨fun _ hk => (List.not_mem_nil hk).elim, nofun⟩

theorem Queueing.step (h : s.Queueing) (hs : s.step label = some s') : s'.Queueing := by
  refine ⟨h.oneWayItems.step hs, fun item next hrx => ?_⟩
  cases step_flow h.oneWayItems hs with
  | rx hnext => exact hnext.kind hrx
  | tx _ _ hrx' | enter _ _ _ _ _ hrx' => exact h.answers item next (hrx'.symm.trans hrx)
  | other _ _ hrx' =>
    rcases hrx' with hrx' | hrx'
    · exact h.answers item next (hrx'.symm.trans hrx)
    · cases hrx'.symm.trans hrx

theorem counted_new (config : Config) (role : Role) : Counted [] (new config role) where
  sent _ hi := (List.not_mem_nil hi).elim
  owned item h := by
    rcases h with h | ⟨rest, h⟩
    · cases h
    · cases h
  once _ := Nat.le_refl 1
  heap _ := Nat.le_refl 0

theorem early_of_unqueued {q : Phase} (h : q.unqueued = false) : q.early = false := by
  cases q <;> first | rfl | exact h

theorem CallNext.unqueued {t : Session} {q : Phase} {arm : Arm} (h : CallNext s i k arm t q) (hq : q.unqueued) :
    k.phase.unqueued := by
  cases h with
  | refuse | closed | full | slotCtx | slotDone | giveUp | unencodable | enqueue | overtaken | admitDone | receive | release =>
    cases hq
  | check hp | enter hp | await hp | beginError hp | begin hp | draw hp | insert hp | retry hp | exhausted hp | overfull hp
  | encode hp => rw [hp]; rfl
  | acquire hp => rcases hp with hp | hp <;> rw [hp] <;> rfl
  | @cancel owned r hp =>
    cases owned
    · cases hq
    · rw [hp]; rfl

theorem step_queuedCall (hid : Identified config s) (hs : s.step label = some s') (hk : s.ledger.calls[i]? = some k)
    (hq : k.phase.unqueued = false) :
    ∃ k', s'.ledger.calls[i]? = some k' ∧ k'.sequence = k.sequence ∧ k'.phase.unqueued = false := by
  obtain ⟨k', hk', -, -, -, hseq⟩ := hid.late hs hk (early_of_unqueued hq)
  refine ⟨k', hk', hseq, ?_⟩
  rcases step_own hs hk hk' with ho | ⟨arm, t, q, -, hn, -, ho⟩
  · rw [ho.phase]
    exact hq
  · rw [ho.phase]
    by_contra hq'
    rw [hn.unqueued (Bool.eq_true_of_not_eq_false hq')] at hq
    cases hq

theorem Sent.onTheWay_zero {n : Nat} (h : s.Sent) (hn : Numbered n s) (hk : s.ledger.calls[i]? = some k)
    (hq : k.phase.unqueued) : s.onTheWay i = 0 := by
  rw [onTheWay, hk]
  refine List.countP_eq_zero.mpr fun item hi hc => ?_
  obtain ⟨hkind, hseq⟩ := of_decide_eq_true hc
  obtain ⟨hne, j, kj, hkj, hseqj, hqj⟩ := h item hi hkind
  have hij : j = i := hn.distinct hkj hk (hseqj.trans hseq) (hseqj ▸ hne)
  subst hij
  cases hk.symm.trans hkj
  rw [hq] at hqj
  cases hqj

theorem step_unmarked (hq : s.Queueing) (hs : s.step label = some s') (hl : ∀ choice, label ≠ .tx choice) :
    s'.tx = s.tx ∧ (s'.unmarked = s.unmarked ∨ ∃ item, s'.unmarked = s.unmarked ++ [item] ∧ (item.kind ≠ .request ∨
      ∃ i k frame, label = .call i .go ∧ s.ledger.calls[i]? = some k ∧ k.phase = .admitting frame ∧ item = requestItem k frame ∧
        s'.ledger.calls[i]? = some { k with phase := .waiting })) := by
  have hsame (htx : s'.tx = s.tx) (hqueue : s'.queue = s.queue) : s'.unmarked = s.unmarked := by
    rw [unmarked, unmarked, htx, hqueue]
  have hmore {item : TxItem} (htx : s'.tx = s.tx) (hqueue : s'.queue = s.queue ++ [item]) :
      s'.unmarked = s.unmarked ++ [item] := by
    rw [unmarked, unmarked, htx, hqueue, List.append_assoc]
  have hother (hscope : s' = { s' with queue := s.queue, tx := s.tx }) : s'.tx = s.tx ∧ s'.unmarked = s.unmarked := by
    rw [hscope]
    exact ⟨rfl, rfl⟩
  have hrx (hnext : RxNext s label s'.machine s'.queue s'.rx) (htx : s'.tx = s.tx) :
      s'.unmarked = s.unmarked ∨ ∃ item, s'.unmarked = s.unmarked ++ [item] ∧ item.kind ≠ .request := by
    rcases hnext.queue_eq with hqueue | ⟨item, next, hrx, hqueue, -⟩
    · exact .inl (hsame htx hqueue)
    · refine .inr ⟨item, hmore htx hqueue, ?_⟩
      rw [hq.answers item next hrx]
      exact nofun
  cases label with
  | call i arm =>
    obtain ⟨k, hk, -, hs⟩ := step_call hs
    have htx : s'.tx = s.tx := by rw [callStep_scope hs]
    refine ⟨htx, ?_⟩
    obtain ⟨t, q, hn, rfl⟩ := callStep_next hs
    cases hn with
    | enqueue hp =>
      refine .inr ⟨_, hmore htx rfl, .inr ⟨i, k, _, rfl, hk, hp, rfl, ?_⟩⟩
      exact (Ledger.calls_modify hk i _).trans (by rw [if_pos rfl])
    | _ => exact .inl (hsame htx rfl)
  | send i arm =>
    obtain ⟨k, hk, hs⟩ := step_send hs
    have htx : s'.tx = s.tx := by rw [sendStep_scope hs]
    refine ⟨htx, ?_⟩
    obtain ⟨t, q, hn, rfl⟩ := sendStep_next hs
    cases hn with
    | enqueue hp =>
      refine .inr ⟨_, hmore htx rfl, .inl ?_⟩
      rw [hq.oneWayItems k (List.mem_of_getElem? hk) _ hp]
      exact nofun
    | _ => exact .inl (hsame htx rfl)
  | frame frame =>
    have htx : s'.tx = s.tx := by
      obtain ⟨-, -, rfl⟩ := step_frame hs
      rw [processFrame_scope]
    exact ⟨htx, (hrx (frame_next hs) htx).imp_right fun ⟨item, h, hkind⟩ => ⟨item, h, .inl hkind⟩⟩
  | rx choice =>
    have htx : s'.tx = s.tx := by rw [rxStep_scope hs]
    exact ⟨htx, (hrx (rxStep_next hs) htx).imp_right fun ⟨item, h, hkind⟩ => ⟨item, h, .inl hkind⟩⟩
  | tx choice => exact (hl choice rfl).elim
  | request command body waitWindow => cases hs; exact ⟨rfl, .inl rfl⟩
  | task o => exact (hother (by rw [taskStep_scope hs])).imp_right .inl
  | sendOneWay command body => cases hs; exact ⟨rfl, .inl rfl⟩
  | expire call =>
    obtain ⟨item, -, hs⟩ := Option.bind_eq_some_iff.mp hs
    cases hs
    exact ⟨rfl, .inl rfl⟩
  | fire => exact (hother (by rw [fire_scope hs])).imp_right .inl
  | terminate cause => cases hs; exact (hother (by rw [terminate_eq])).imp_right .inl
  | term => exact (hother (by rw [termStep_scope hs])).imp_right .inl

theorem TimerTurn.sublist {choice : TxChoice} (h : TimerTurn s s' choice) : s'.unmarked.Sublist s.unmarked := by
  cases h with
  | keep _ _ _ hitems => exact hitems
  | mark htx _ _ heq =>
    rw [heq, unmarked, unmarked, htx]
    exact List.sublist_cons_self _ _
  | push _ htx _ heq | skip htx _ heq | attach htx _ _ heq | detach htx heq =>
    rw [heq, unmarked, unmarked, htx]
    exact List.Sublist.refl _

theorem Sent.step (h : s.Sent) (hq : s.Queueing) (hid : Identified config s) (hs : s.step label = some s') : s'.Sent := by
  intro item hi hkind
  have hold (hi : item ∈ s.unmarked) : item.sequence ≠ 0 ∧ ∃ (i : Nat) (k : Call), s'.ledger.calls[i]? = some k ∧
      k.sequence = item.sequence ∧ k.phase.unqueued = false := by
    obtain ⟨hne, i, k, hk, hseq, hqueued⟩ := h item hi hkind
    obtain ⟨k', hk', hseq', hqueued'⟩ := step_queuedCall hid hs hk hqueued
    exact ⟨hne, i, k', hk', hseq'.trans hseq, hqueued'⟩
  by_cases hl : ∃ choice, label = .tx choice
  · obtain ⟨choice, rfl⟩ := hl
    exact hold ((txStep_timer hs).sublist.subset hi)
  · rcases (step_unmarked hq hs fun choice hc => hl ⟨choice, hc⟩).2 with hsame | ⟨item', hmore, hitem⟩
    · exact hold (hsame ▸ hi)
    · rw [hmore] at hi
      rcases List.mem_append.mp hi with hi | hi
      · exact hold hi
      · cases List.mem_singleton.mp hi
        rcases hitem with hne | ⟨i, k, frame, -, hk, hp, rfl, hk'⟩
        · exact absurd hkind hne
        · exact ⟨hid.number hk (.inr (by rw [hp]; rfl)), i, _, hk', rfl, rfl⟩

theorem Owned.step {item : DeadlineItem} (h : s.Owned item) (hid : Identified config s) (hs : s.step label = some s') :
    s'.Owned item := by
  obtain ⟨k, hk, hseq, he, hinserted⟩ := h
  obtain ⟨k', hk', he', -, -, hseq'⟩ := hid.late hs hk he
  obtain ⟨k₁, hk₁, hle, -⟩ := (step_ledger hs).deadline hk
  cases hk'.symm.trans hk₁
  exact ⟨k', hk', hseq'.trans hseq, he', Nat.lt_of_lt_of_le hinserted hle⟩

theorem Identified.owned (hid : Identified config s) {item : DeadlineItem}
    (hl : s.ledger.pending.lookup item.sequence = some item.call) : s.Owned item := by
  have hmem := mem_of_lookup hl
  obtain ⟨k, hk, hseq, hr⟩ := hid.entered hmem
  refine ⟨k, hk, hseq, ?_, ?_⟩
  · cases he : k.phase.early with
    | false => rfl
    | true =>
      rw [Ledger.early_not_registered he] at hr
      cases hr
  · have hpos := Ledger.entries_pos hmem
    have hentries := (hid.conserved.call hk).entries
    omega

theorem Counted.aside (h : Counted tr s) (hq : s.Queueing) (hid : Identified config s) {n n' : Nat} (hn : Numbered n s)
    (hn' : Numbered n' s') (hs : s.step label = some s') (hl : ∀ choice, label ≠ .tx choice) (i : Nat) :
    s'.onTheWay i + (s'.mayQueue i).toNat ≤ s.onTheWay i + (s.mayQueue i).toNat := by
  have hsent' := h.sent.step hq hid hs
  have hunmarked := (step_unmarked hq hs hl).2
  cases hk' : s'.ledger.calls[i]? with
  | none =>
    have hk : s.ledger.calls[i]? = none := by
      cases hk : s.ledger.calls[i]? with
      | none => rfl
      | some k =>
        obtain ⟨k₁, hk₁, -⟩ := (step_ledger hs).deadline hk
        rw [hk'] at hk₁
        cases hk₁
    rw [onTheWay, mayQueue, onTheWay, mayQueue, hk', hk]
    exact Nat.le_refl _
  | some k' =>
    -- a call that may queue its request has nothing on the way
    have hfresh (hqueue' : k'.phase.unqueued) (hqueue : s.mayQueue i) :
        s'.onTheWay i + (s'.mayQueue i).toNat ≤ s.onTheWay i + (s.mayQueue i).toNat := by
      rw [hsent'.onTheWay_zero hn' hk' hqueue', hqueue]
      have := Bool.toNat_le (s'.mayQueue i)
      have : true.toNat = 1 := rfl
      omega
    rcases step_caller hs hk' with ⟨command, body, w, rfl, rfl⟩ | ⟨k, hk, ho | ⟨arm, t, q, rfl, hnext, -, ho⟩⟩
    · refine hfresh rfl ?_
      cases hk : s.ledger.calls[i]? with
      | none => rw [mayQueue, hk]; rfl
      | some k =>
        cases hs
        rw [getElem?_append_some hk] at hk'
        cases hk'
        rw [mayQueue, hk]
        rfl
    · obtain ⟨-, -, hphase, hseq⟩ := ho
      rw [onTheWay, mayQueue, onTheWay, mayQueue, hk', hk]
      simp only [Option.elim_some, hphase, hseq]
      refine Nat.add_le_add_right ?_ _
      rcases hunmarked with hsame | ⟨item, hmore, hitem⟩
      · rw [hsame]
      · rw [hmore, List.countP_append, List.countP_singleton, if_neg]
        · exact Nat.le_refl _
        · intro hc
          obtain ⟨hkind, hitemseq⟩ := of_decide_eq_true hc
          rcases hitem with hne | ⟨j, kj, frame, -, hkj, hp, rfl, hkj'⟩
          · exact hne hkind
          · have hne := hid.number hkj (.inr (by rw [hp]; rfl))
            have hij : j = i := hn.distinct hkj hk hitemseq hne
            subst hij
            cases hk.symm.trans hkj
            cases hk'.symm.trans hkj'
            rw [hp] at hphase
            cases hphase
    · obtain ⟨-, -, hphase, hseq⟩ := ho
      cases hqueue' : k'.phase.unqueued with
      | true =>
        refine hfresh hqueue' ?_
        rw [mayQueue, hk]
        exact hnext.unqueued (hphase ▸ hqueue')
      | false =>
        have hdraw : k.phase.atDraw = false := by
          cases hd : k.phase.atDraw with
          | false => rfl
          | true =>
            obtain ⟨a, hp⟩ : ∃ a, k.phase = .drawing a := by
              revert hd
              cases k.phase <;> simp [Phase.atDraw]
            have hq' : q.unqueued := by
              cases hnext <;> simp_all [Phase.unqueued, Phase.early, Phase.owns]
            rw [hphase, hq'] at hqueue'
            cases hqueue'
        rw [hdraw, if_neg Bool.false_ne_true] at hseq
        rw [onTheWay, mayQueue, onTheWay, mayQueue, hk', hk]
        simp only [Option.elim_some, hqueue', hseq]
        rcases hunmarked with hsame | ⟨item, hmore, hitem⟩
        · rw [hsame]
          exact Nat.le_add_right _ _
        · rw [hmore, List.countP_append, List.countP_singleton]
          rcases hitem with hne | ⟨j, kj, frame, hlabel, hkj, hp, rfl, -⟩
          · have hnot : ¬ decide (item.kind = .request ∧ item.sequence = k.sequence) = true := fun hc =>
              hne (of_decide_eq_true hc).1
            rw [if_neg hnot]
            exact Nat.le_add_right _ _
          · cases hlabel
            cases hk.symm.trans hkj
            rw [hp, Nat.add_assoc]
            refine Nat.add_le_add_left ?_ _
            split
            · exact Nat.le_refl 1
            · exact Nat.zero_le _

theorem TimerTurn.calls {choice : TxChoice} (h : TimerTurn s s' choice) (i : Nat) :
    (s.ledger.calls[i]? = none ∧ s'.ledger.calls[i]? = none) ∨ ∃ k k', s.ledger.calls[i]? = some k ∧
      s'.ledger.calls[i]? = some k' ∧ k'.phase = k.phase ∧ k'.sequence = k.sequence := by
  have hsame (hl : s'.ledger.calls = s.ledger.calls) : (s.ledger.calls[i]? = none ∧ s'.ledger.calls[i]? = none) ∨
      ∃ k k', s.ledger.calls[i]? = some k ∧ s'.ledger.calls[i]? = some k' ∧ k'.phase = k.phase ∧ k'.sequence = k.sequence := by
    rw [hl]
    cases hk : s.ledger.calls[i]? with
    | none => exact .inl ⟨rfl, rfl⟩
    | some k => exact .inr ⟨k, k, rfl, rfl, rfl, rfl⟩
  cases h with
  | keep hl => exact hsame (by rw [hl])
  | mark _ _ _ heq | push _ _ _ heq | skip _ _ heq | detach _ heq => exact hsame (congrArg (·.ledger.calls) heq)
  | @attach call _ _ _ _ _ heq =>
    rw [heq]
    cases hk : s.ledger.calls[i]? with
    | none =>
      refine .inl ⟨rfl, ?_⟩
      rw [Ledger.modify_calls, List.getElem?_modify, hk]
      rfl
    | some k =>
      refine .inr ⟨k, _, rfl, Ledger.calls_modify hk call _, ?_, ?_⟩ <;> split <;> rfl

theorem TimerTurn.mayQueue {choice : TxChoice} (h : TimerTurn s s' choice) (i : Nat) : s'.mayQueue i = s.mayQueue i := by
  rw [Session.mayQueue, Session.mayQueue]
  rcases h.calls i with ⟨hk, hk'⟩ | ⟨k, k', hk, hk', hphase, -⟩
  · rw [hk, hk']
  · rw [hk, hk', Option.elim_some, Option.elim_some, hphase]

theorem TimerTurn.onTheWay {choice : TxChoice} (h : TimerTurn s s' choice) (i : Nat) : s'.onTheWay i ≤ s.onTheWay i := by
  rw [Session.onTheWay, Session.onTheWay]
  rcases h.calls i with ⟨hk, hk'⟩ | ⟨k, k', hk, hk', -, hseq⟩
  · rw [hk, hk']
    exact Nat.le_refl 0
  · rw [hk, hk', Option.elim_some, Option.elim_some, hseq]
    exact h.sublist.countP_le

theorem schedules_eq_false (h : s.tx.timing = false) (i : Nat) : s.schedules i = false := by
  unfold schedules
  split
  · next htx => rw [htx] at h; cases h
  · rfl

theorem pushes_eq_false (h : ∀ item rest, s.tx ≠ .scheduling item rest) (i : Nat) (label : Label) : s.pushes i label = false := by
  unfold pushes
  split
  · split
    · next htx => exact (h _ _ htx).elim
    · rfl
  · rfl

/-- **The way of an item through the TX loop**: what is marked leaves the way, and what is pushed is no longer to be scheduled. -/
theorem TimerTurn.once {choice : TxChoice} (h : TimerTurn s s' choice) (hid : Identified config s) (i : Nat) :
    (s.pushes i (.tx choice)).toNat + (s'.schedules i).toNat + s'.onTheWay i ≤ (s.schedules i).toNat + s.onTheWay i := by
  have hle := h.onTheWay i
  have hidle (hb : ∀ item rest, s.tx ≠ .scheduling item rest) (ha : s'.schedules i = false) :
      (s.pushes i (.tx choice)).toNat + (s'.schedules i).toNat + s'.onTheWay i ≤ (s.schedules i).toNat + s.onTheWay i := by
    rw [pushes_eq_false hb, ha]
    simp only [Bool.toNat_false]
    omega
  cases h with
  | keep _ hb ha =>
    refine hidle (fun item rest htx => ?_) (schedules_eq_false ha i)
    rw [htx] at hb
    cases hb
  | @mark item rest call htx hkind hcall heq =>
    rw [pushes_eq_false fun _ _ h => by rw [htx] at h; cases h]
    by_cases hi : call = i
    · subst hi
      -- the item that is marked is the request of the call
      let deadline : DeadlineItem := { call, command := item.requestID, sequence := item.sequence }
      obtain ⟨k, hk, hseq, -⟩ : s.Owned deadline := hid.owned hcall
      have hcount : s.onTheWay call = s'.onTheWay call + 1 := by
        rw [Session.onTheWay, Session.onTheWay, heq, hk, unmarked, htx]
        exact List.countP_cons_of_pos (decide_eq_true ⟨hkind, hseq.symm⟩)
      have := Bool.toNat_le (s'.schedules call)
      simp only [Bool.toNat_false]
      omega
    · have hs' : s'.schedules i = false := by
        rw [heq]
        exact beq_false_of_ne hi
      rw [hs']
      simp only [Bool.toNat_false]
      omega
  | @push item rest hchoice htx htimes heq =>
    have hs' : s'.schedules i = false := by rw [heq]; rfl
    have hpush : s.pushes i (.tx choice) = s.schedules i := by
      rw [hchoice, pushes, schedules, htx]
      simp only [htimes, Bool.and_true]
    rw [hpush, hs']
    exact Nat.add_le_add_left hle _
  | @skip item rest htx htimes heq =>
    have hs' : s'.schedules i = false := by rw [heq]; rfl
    have hpush : s.pushes i (.tx choice) = false := by
      unfold pushes
      cases choice <;> simp only [htx, htimes, Bool.and_false]
    rw [hpush, hs']
    simp only [Bool.toNat_false]
    omega
  | attach htx _ _ heq | detach htx heq =>
    refine hidle (fun _ _ h => ?_) (by rw [heq]; rfl)
    rw [htx] at h
    cases h

theorem Counted.step (h : Counted tr s) (hq : s.Queueing) (hid : Identified config s) {n n' : Nat} (hn : Numbered n s)
    (hn' : Numbered n' s') (hs : s.step label = some s') : Counted (tr ++ [(s, label)]) s' where
  sent := h.sent.step hq hid hs
  owned item hi := by
    rcases hi with hi | ⟨rest, hi⟩
    · have hnext := step_heap hs
      generalize s'.ledger.heap = heap' at hi hnext
      cases hnext with
      | keep => exact (h.owned item (.inl hi)).step hid hs
      | remove => exact (h.owned item (.inl (List.mem_of_mem_eraseP hi))).step hid hs
      | push htx =>
        rcases List.mem_cons.mp hi with rfl | hi
        · exact (h.owned item (.inr ⟨_, htx⟩)).step hid hs
        · exact (h.owned item (.inl hi)).step hid hs
    · by_cases hl : ∃ choice, label = .tx choice
      · obtain ⟨choice, rfl⟩ := hl
        cases txStep_timer hs with
        | keep _ _ ha =>
          rw [hi] at ha
          cases ha
        | mark _ _ hcall heq =>
          rw [heq] at hi
          cases hi
          exact (hid.owned hcall).step hid hs
        | push _ _ _ heq | skip _ _ heq | attach _ _ _ heq | detach _ heq =>
          rw [heq] at hi
          cases hi
      · have htx := (step_unmarked hq hs fun choice hc => hl ⟨choice, hc⟩).1
        exact (h.owned item (.inr ⟨rest, htx ▸ hi⟩)).step hid hs
  once i := by
    have hbound := h.once i
    rw [pushed_snoc]
    by_cases hl : ∃ choice, label = .tx choice
    · obtain ⟨choice, rfl⟩ := hl
      have hturn := txStep_timer hs
      have hstep := hturn.once hid i
      rw [hturn.mayQueue i]
      omega
    · have hl : ∀ choice, label ≠ .tx choice := fun choice hc => hl ⟨choice, hc⟩
      have hstep := h.aside hq hid hn hn' hs hl i
      have hschedules : s'.schedules i = s.schedules i := by
        rw [schedules, schedules, (step_unmarked hq hs hl).1]
      have hpush : s.pushes i label = false := by
        cases label with
        | tx choice => exact (hl choice rfl).elim
        | _ => rfl
      rw [hschedules, hpush]
      simp only [Bool.toNat_false]
      omega
  heap i := by
    have hbound := h.heap i
    rw [pushed_snoc]
    have hnext := step_heap hs
    generalize s'.ledger.heap = heap' at hnext ⊢
    cases hnext with
    | keep => exact Nat.le_add_right_of_le hbound
    | remove _ call =>
      have hsub : (s.ledger.heap.eraseP (·.call == call)).Sublist s.ledger.heap := List.eraseP_sublist
      have := hsub.countP_le (p := (·.call == i))
      omega
    | @push item rest htx htimes =>
      rw [List.countP_cons, pushes, htx]
      simp only [htimes, Bool.and_true]
      by_cases hi : (item.call == i) = true
      · rw [if_pos hi, hi]
        exact Nat.add_le_add_right hbound 1
      · rw [if_neg hi]
        exact Nat.le_add_right_of_le hbound

end Counted

/-! ## No deadline is left behind -/

/-- A deadline in the heap is about to be attached, attached, or about to be cancelled. -/
def Guarded (s : Session) (item : DeadlineItem) : Prop :=
  (∃ rest, s.tx = .attaching item.call rest) ∨
  (∃ k, s.ledger.calls[item.call]? = some k ∧ k.deadline ∧ k.finished = false) ∨ s.ledger.Unscheduling item.call

/-- No goroutine is between `markDispatched` and the end of `attachDeadline`, between the removal of an entry from the table and
the end of its `finish`, or in `cancel`. -/
def Settled (s : Session) : Prop :=
  s.tx.timing = false ∧ ∀ t ∈ s.ledger.tasks, .finish ∉ t.todo ∧ .unschedule ∉ t.todo

instance (s : Session) : Decidable s.Settled := inferInstanceAs (Decidable (_ ∧ _))

section Guarded
variable {config : Config} {role : Role} {tr : List (Session × Label)} {s s' : Session} {label : Label} {item : DeadlineItem}

theorem Counted.gone (h : Counted tr s) (call : Nat) (hcall : item.call = call) :
    item ∉ s.ledger.heap.eraseP (·.call == call) := by
  refine not_mem_eraseP ?_ (beq_iff_eq.mpr hcall)
  have := h.heap call
  have := h.once call
  omega

theorem Guarded.step (h : s.Guarded item) (hc : Counted tr s) (hq : s.Queueing) (hs : s.step label = some s')
    (hi : item ∈ s'.ledger.heap) : s'.Guarded item := by
  rcases h with ⟨rest, htx⟩ | ⟨k, hk, hd, hf⟩ | ⟨r, hw⟩
  · by_cases hl : ∃ choice, label = .tx choice
    · obtain ⟨choice, rfl⟩ := hl
      cases txStep_timer hs with
      | keep _ hb =>
        rw [htx] at hb
        cases hb
      | mark htx' | push _ htx' | skip htx' => cases htx.symm.trans htx'
      | @attach call rest' k htx' hk hf heq =>
        cases htx.symm.trans htx'
        have hk' := Ledger.calls_modify hk item.call fun k => { k with deadline := true }
        rw [if_pos rfl] at hk'
        refine .inr (.inl ⟨{ k with deadline := true }, ?_, rfl, hf⟩)
        rw [heq]
        exact hk'
      | detach htx' heq =>
        cases htx.symm.trans htx'
        rw [heq] at hi
        exact (hc.gone _ rfl hi).elim
    · exact .inl ⟨rest, (step_unmarked hq hs fun choice hc => hl ⟨choice, hc⟩).1.trans htx⟩
  · obtain ⟨k', hk', -, hnext⟩ := (step_ledger hs).deadline hk
    rcases hnext hd hf with hnext | hnext
    · exact .inr (.inl ⟨k', hk', hnext⟩)
    · exact .inr (.inr hnext)
  · rcases (step_ledger hs).willDo (by decide) hw with hw' | ⟨o, t, l₀, rest, rfl, ht, hcall, -, htodo⟩
    · exact .inr (.inr ⟨r, hw'⟩)
    · obtain ⟨t', l', st, rest', ht', htodo', heap⟩ := taskStep_heap hs
      cases ht.symm.trans ht'
      cases htodo.symm.trans htodo'
      rw [heap, if_pos rfl] at hi
      exact (hc.gone _ hcall.symm hi).elim

/-- What the deadlines of a run satisfy. -/
structure Timed (config : Config) (tr : List (Session × Label)) (s : Session) : Prop where
  identified : Identified config s
  queueing : s.Queueing
  counted : Counted tr s
  guarded : ∀ item ∈ s.ledger.heap, s.Guarded item

theorem Timed.step (h : Timed config tr s) {n n' : Nat} (hn : Numbered n s) (hn' : Numbered n' s')
    (hs : s.step label = some s') : Timed config (tr ++ [(s, label)]) s' where
  identified := h.identified.step hs
  queueing := h.queueing.step hs
  counted := h.counted.step h.queueing h.identified hn hn' hs
  guarded item hi := by
    by_cases hold : item ∈ s.ledger.heap
    · exact (h.guarded item hold).step h.counted h.queueing hs hi
    · have hnext := step_heap hs
      cases label with
      | tx choice =>
        cases txStep_timer hs with
        | push _ htx htimes heq =>
          rw [heq] at hi ⊢
          rcases List.mem_cons.mp hi with rfl | hi
          · exact .inl ⟨_, rfl⟩
          · exact (hold hi).elim
        | keep hl =>
          rw [hl] at hi
          exact (hold hi).elim
        | mark _ _ _ heq | skip _ _ heq | attach _ _ _ heq =>
          rw [heq] at hi
          exact (hold hi).elim
        | detach _ heq =>
          rw [heq] at hi
          exact (hold (List.mem_of_mem_eraseP hi)).elim
      | _ =>
        generalize s'.ledger.heap = heap' at hi hnext
        cases hnext with
        | keep => exact (hold hi).elim
        | remove => exact (hold (List.mem_of_mem_eraseP hi)).elim

theorem trace_timed (h : sessions.Trace (new config role) tr s) (hn : drawn tr ≤ 0x7fffffff) : Timed config tr s := by
  induction h with
  | nil => exact ⟨identified_new config role, queueing_new config role, counted_new config role, fun _ hi => by cases hi⟩
  | @snoc tr s label s' htr hs ih =>
    have hn' := trace_numbered (htr.snoc hs) hn
    rw [drawn_snoc] at hn
    exact (ih (by omega)).step (trace_numbered htr (by omega)) hn' hs

theorem Timed.pending (h : Timed config tr s) (hs : s.Settled) (hi : item ∈ s.ledger.heap) :
    (item.sequence, item.call) ∈ s.ledger.pending ∧ ∃ k, s.ledger.calls[item.call]? = some k ∧ k.finished = false := by
  obtain ⟨k, hk, hseq, -, hinserted⟩ := h.counted.owned item (.inl hi)
  rcases h.guarded item hi with ⟨rest, htx⟩ | ⟨k', hk', -, hf⟩ | ⟨r, t, ht, -, -, hstage⟩
  · have htiming := hs.1
    rw [htx] at htiming
    cases htiming
  · cases hk.symm.trans hk'
    refine ⟨?_, k, hk, hf⟩
    have hconserved := h.identified.conserved.call hk
    have hfinish : s.ledger.tasksWith item.call .finish = 0 :=
      List.countP_eq_zero.mpr fun t ht hc => (hs.2 t ht).1 (of_decide_eq_true hc).2
    have hremoved : k.removed = 0 := by
      rw [← hconserved.finished, hfinish, hf]
      rfl
    have hentries : 0 < s.ledger.entries item.call := by
      have := hconserved.entries
      omega
    obtain ⟨⟨sequence, call⟩, hmem, hcall⟩ := List.countP_pos_iff.mp hentries
    obtain rfl : call = item.call := of_decide_eq_true hcall
    obtain ⟨k', hk', hseq', -⟩ := h.identified.entered hmem
    cases hk.symm.trans hk'
    rwa [← hseq, hseq']
  · exact ((hs.2 t ht).2 hstage).elim

/-- **No stale deadline.** In a run that draws at most `0x7fffffff` numbers the deadline of a request is pushed at most once and
is never in the heap twice, and whenever no goroutine is in the middle of attaching or cancelling a deadline, every deadline in
the heap is that of a request that is in the table and unfinished. -/
theorem run_timers (h : sessions.Trace (new config role) tr s) (hn : drawn tr ≤ 0x7fffffff) :
    (∀ i, pushed i tr ≤ 1) ∧ (s.ledger.heap.map (·.call)).Nodup ∧ (s.Settled → ∀ item ∈ s.ledger.heap,
      (item.sequence, item.call) ∈ s.ledger.pending ∧ ∃ k, s.ledger.calls[item.call]? = some k ∧ k.finished = false) := by
  have ht := trace_timed h hn
  refine ⟨fun i => ?_, ?_, fun hs item hi => ht.pending hs hi⟩
  · have := ht.counted.once i
    omega
  · refine List.nodup_iff_count_le_one.mpr fun i => ?_
    rw [List.count, List.countP_map]
    have h₁ := ht.counted.heap i
    have h₂ := ht.counted.once i
    have h₃ : s.ledger.heap.countP ((· == i) ∘ (·.call)) = s.ledger.heap.countP (·.call == i) := rfl
    omega

/-- The deadline of a bind that is on the wire is in the heap, and the bind is in the table. -/
theorem run_timers_sentBind : ∃ tr s item, sessions.Trace (new {} .esme) tr s ∧ s.Settled ∧ pushed 0 tr = 1 ∧
    s.ledger.heap = [item] ∧ (item.sequence, item.call) ∈ s.ledger.pending := by
  have htrace := System.trace_after sessions (new {} .esme) sentBind (by decide +kernel)
  have hdrawn : drawn (sessions.trace (new {} .esme) sentBind) ≤ 0x7fffffff := by decide +kernel
  have hsettled : (sessions.after anyStep (new {} .esme) sentBind).Settled := by decide +kernel
  have hpushed : pushed 0 (sessions.trace (new {} .esme) sentBind) = 1 := by decide +kernel
  have heap : (sessions.after anyStep (new {} .esme) sentBind).ledger.heap =
      [{ call := 0, command := commandBindTransceiver, sequence := 1 }] := by decide +kernel
  obtain ⟨-, -, hpending⟩ := run_timers htrace hdrawn
  exact ⟨_, _, _, htrace, hsettled, hpushed, heap, (hpending hsettled _ (heap ▸ List.mem_cons_self)).1⟩

end Guarded

end GoSmpp.Session
