import GoSmpp.Lib.Pool
import GoSmpp.Session.Effects

/-!
# Every request is completed once and gives its slot back once

* `Ledger.Conserved`: a request that was inserted is in the table, or has been removed and is in the hands of one task,
  until it is released and its result sent; and the window holds one token for every call that owns a slot and every
  request that has not given its slot back.
* `Conserved.step`: every step keeps it.
* `Step.table`: a step leaves the pending table as it is, inserts one request, removes one or, at the end, removes all.
-/

namespace GoSmpp.Session
open Lib Protocol Codec

/-! ## Calls and tasks -/

/-- A slot of the window is held on behalf of the call. -/
def Call.holdsSlot (k : Call) : Bool := k.phase.owns || (k.inserted == 1 && k.released == 0)

/-- What is planned for a request after `finish`, by the result it has come to. -/
def plans : Result → List (List Stage)
  | .ok _ => [[.release, .complete, .negotiate, .send, .close]]
  | .error _ => [[.release, .send], [.release, .send, .cancel]]

/-- A task follows its plan: `finish`, which may call for `unschedule`, and then stage by stage. -/
structure Task.Planned (t : Task) : Prop where
  ne_nil : t.todo ≠ []
  plan : ∃ plan ∈ plans t.result, t.todo <:+ .finish :: plan ∨ t.todo = .unschedule :: plan

/-- A task for a request that has just been removed: everything is still to be done. -/
def Task.New (t : Task) : Prop := ∃ plan ∈ plans t.result, t.todo = .finish :: plan

theorem responseTask_new (i : Nat) (pdu : DecodedPDU) : (responseTask i pdu).New := ⟨_, List.mem_cons_self, rfl⟩

theorem errorTask_new (o : Owner) (i : Nat) (err : Err) : (errorTask o i err []).New := ⟨_, List.mem_cons_self, rfl⟩

theorem errorTask_cancel_new (o : Owner) (i : Nat) (err : Err) : (errorTask o i err [.cancel]).New :=
  ⟨_, List.mem_cons_of_mem _ List.mem_cons_self, rfl⟩

section Plan
variable {t : Task} {st : Stage} {rest plan : List Stage}

theorem plan_nodup {r : Result} (h : plan ∈ plans r) : (.finish :: .unschedule :: plan).Nodup := by
  revert plan
  cases r <;> simp [plans]

theorem plan_mem {r : Result} (h : plan ∈ plans r) : .release ∈ plan ∧ .send ∈ plan := by
  revert plan
  cases r <;> simp [plans]

theorem Task.Planned.mem (h : t.Planned) (hst : st ∈ t.todo) :
    st = .finish ∨ st = .unschedule ∨ ∃ plan ∈ plans t.result, st ∈ plan := by
  obtain ⟨plan, hp, hs | hs⟩ := h.plan
  · exact (List.mem_cons.mp (hs.subset hst)).imp_right fun h => .inr ⟨plan, hp, h⟩
  · rw [hs] at hst
    exact .inr ((List.mem_cons.mp hst).imp_right fun h => ⟨plan, hp, h⟩)

theorem Task.Planned.of_response (h : t.Planned) (hst : st ∈ t.todo)
    (hc : st = .complete ∨ st = .negotiate ∨ st = .close) : ∃ pdu, t.result = .ok pdu := by
  cases hr : t.result with
  | ok pdu => exact ⟨pdu, rfl⟩
  | error err =>
    have hm := h.mem hst
    rw [hr] at hm
    rcases hc with rfl | rfl | rfl <;> simp [plans] at hm

theorem Task.Planned.send_of_mem_complete (h : t.Planned) (hc : .complete ∈ t.todo) : .send ∈ t.todo := by
  obtain ⟨pdu, hr⟩ := h.of_response hc (.inl rfl)
  obtain ⟨plan, hp, hs⟩ := h.plan
  rw [hr, plans, List.mem_singleton] at hp
  rw [hp] at hs
  simp only [List.suffix_cons_iff] at hs
  rcases hs with (hs | hs | hs | hs | hs | hs | hs) | hs <;> simp_all

theorem Task.Planned.send_of_complete (h : t.Planned) (ht : t.todo = .complete :: rest) : .send ∈ t.todo :=
  h.send_of_mem_complete (ht ▸ List.mem_cons_self)

theorem Task.New.planned (h : t.New) : t.Planned := by
  obtain ⟨plan, hp, ht⟩ := h
  exact ⟨by rw [ht]; exact nofun, plan, hp, .inl (by rw [ht])⟩

theorem Task.New.mem (h : t.New) : .finish ∈ t.todo ∧ .release ∈ t.todo ∧ .send ∈ t.todo := by
  obtain ⟨plan, hp, ht⟩ := h
  rw [ht]
  exact ⟨List.mem_cons_self, List.mem_cons_of_mem _ (plan_mem hp).1, List.mem_cons_of_mem _ (plan_mem hp).2⟩

theorem Task.Planned.nodup (h : t.Planned) : t.todo.Nodup := by
  obtain ⟨plan, hp, ht | ht⟩ := h.plan
  · refine List.Nodup.sublist ?_ (plan_nodup hp)
    exact ht.sublist.trans (.cons_cons _ (.cons _ (.refl _)))
  · rw [ht]
    exact (List.nodup_cons.mp (plan_nodup hp)).2

theorem Task.Planned.tail (h : t.Planned) (ht : t.todo = st :: rest) :
    rest = [] ∨ Task.Planned { t with todo := rest } := by
  by_cases hr : rest = []
  · exact .inl hr
  right
  obtain ⟨plan, hp, hs | hs⟩ := h.plan
  · refine ⟨hr, plan, hp, .inl ?_⟩
    rw [ht] at hs
    exact (List.suffix_cons st rest).trans hs
  · refine ⟨hr, plan, hp, .inl ?_⟩
    rw [ht, List.cons.injEq] at hs
    rw [hs.2]
    exact List.suffix_cons _ _

theorem Task.Planned.of_finish (h : t.Planned) (ht : t.todo = .finish :: rest) : rest ∈ plans t.result := by
  obtain ⟨plan, hp, hs | hs⟩ := h.plan
  · rw [ht, List.suffix_cons_iff] at hs
    rcases hs with hs | hs
    · rw [List.cons.injEq] at hs
      rw [hs.2]
      exact hp
    · -- `finish` is not part of a plan
      have := (List.nodup_cons.mp (plan_nodup hp)).1
      exact absurd (List.mem_cons_of_mem _ (hs.subset List.mem_cons_self)) this
  · rw [ht] at hs
    cases hs

theorem Task.Planned.unschedule (h : t.Planned) (ht : t.todo = .finish :: rest) :
    Task.Planned { t with todo := .unschedule :: rest } :=
  ⟨nofun, rest, h.of_finish ht, .inr rfl⟩

end Plan

namespace Ledger

/-! ## The invariant -/

def entries (l : Ledger) (i : Nat) : Nat := l.pending.countP (·.2 = i)

/-- The tasks for a call that still have a stage to do. -/
def tasksWith (l : Ledger) (i : Nat) (st : Stage) : Nat := l.tasks.countP fun t => t.call = i ∧ st ∈ t.todo

structure CallConserved (l : Ledger) (i : Nat) (k : Call) : Prop where
  once : k.inserted ≤ 1
  entries : l.entries i + k.removed = k.inserted
  finished : l.tasksWith i .finish + k.finished.toNat = k.removed
  released : l.tasksWith i .release + k.released = k.removed
  sent : l.tasksWith i .send + k.sent = k.removed
  done : k.done.length ≤ k.sent
  early : k.phase.early → k.inserted = 0
  registered : k.phase.registered → k.inserted = 1 ∧ k.done.length = k.sent

structure Conserved (capacity max : Nat) (l : Ledger) : Prop where
  call : ∀ {i k}, l.calls[i]? = some k → l.CallConserved i k
  pending : ∀ e ∈ l.pending, e.2 < l.calls.length
  keys : (l.pending.map (·.1)).Nodup
  size : l.pending.length ≤ max
  task : ∀ t ∈ l.tasks, t.call < l.calls.length ∧ t.Planned
  tokens : l.tokens = l.calls.countP Call.holdsSlot
  capacity : l.tokens ≤ capacity
  underflows : l.underflows = 0

/-! ## Counting -/

section Count
variable {l l' l₀ : Ledger} {i j : Nat} {k : Call} {t : Task} {st : Stage}

@[simp] theorem modify_calls (l : Ledger) (i : Nat) (f : Call → Call) : (l.modify i f).calls = l.calls.modify i f := rfl
@[simp] theorem goto_calls (l : Ledger) (i : Nat) (q : Phase) :
    (l.goto i q).calls = l.calls.modify i fun k => { k with phase := q } := rfl

theorem resume_eq (l : Ledger) (t : Task) (todo : List Stage) : ∃ ts, l.resume t todo = { l with tasks := ts ++ l.tasks } ∧
    (ts = [] ∧ todo = [] ∨ ts = [{ t with todo }] ∧ todo ≠ []) := by
  unfold resume
  split
  · next h => exact ⟨[], rfl, .inl ⟨rfl, h⟩⟩
  · next h => exact ⟨[{ t with todo }], rfl, .inr ⟨rfl, h⟩⟩

theorem tasksWith_resume (l : Ledger) (t : Task) (todo : List Stage) (j : Nat) (st : Stage) :
    (l.resume t todo).tasksWith j st = l.tasksWith j st + if t.call = j ∧ st ∈ todo then 1 else 0 := by
  unfold resume tasksWith
  split
  · next h => simp [h]
  · simp only [List.countP_cons, decide_eq_true_eq]

theorem nextTask_eq {o : Owner} (h : l.nextTask o = some (t, l₀)) :
    ∃ tasks, l₀ = { l with tasks } ∧ l.tasks.Perm (t :: tasks) := by
  obtain ⟨t', ht, he⟩ := Option.bind_eq_some_iff.mp h
  cases he
  exact ⟨_, rfl, perm_of_find? ht⟩

@[simp] theorem resume_pending (l : Ledger) (t : Task) (todo : List Stage) : (l.resume t todo).pending = l.pending := by
  unfold resume
  split <;> rfl

@[simp] theorem release_pending (l : Ledger) : l.release.pending = l.pending := by
  unfold Ledger.release
  split <;> rfl

theorem nextTask_pending {o : Owner} {t : Task} {l₀ : Ledger} (h : l.nextTask o = some (t, l₀)) :
    l₀.pending = l.pending := by
  obtain ⟨tasks, rfl, -⟩ := nextTask_eq h
  rfl

theorem tasksWith_of_perm {tasks : List Task} (h : l.tasks.Perm (t :: tasks)) (j : Nat) (st : Stage) :
    l.tasksWith j st = tasksWith { l with tasks } j st + if t.call = j ∧ st ∈ t.todo then 1 else 0 := by
  unfold tasksWith
  simp only [h.countP_eq, List.countP_cons, decide_eq_true_eq]

theorem tasksWith_remove (l : Ledger) (sequence : SequenceNumber) (t : Task) (j : Nat) (st : Stage) :
    (l.remove sequence t).tasksWith j st = l.tasksWith j st + if t.call = j ∧ st ∈ t.todo then 1 else 0 := by
  unfold tasksWith Ledger.remove
  simp only [List.countP_cons, decide_eq_true_eq]

theorem entries_remove {sequence : SequenceNumber} (h : l.pending.lookup sequence = some t.call) (j : Nat) :
    (l.remove sequence t).entries j + (if t.call = j then 1 else 0) = l.entries j := by
  unfold entries Ledger.remove
  simp only [(perm_of_lookup h).countP_eq, List.countP_cons, decide_eq_true_eq]

end Count

/-! ## Every step keeps the invariant -/

section Keep
variable {capacity max : Nat} {l l' : Ledger} {i : Nat} {k : Call}

theorem Conserved.update (h : l.Conserved capacity max) (hk : l.calls[i]? = some k) (f : Call → Call)
    (hcalls : l'.calls = l.calls.modify i f)
    (hother : ∀ j, j ≠ i → l'.entries j = l.entries j ∧ ∀ st, l'.tasksWith j st = l.tasksWith j st)
    (hcall : l'.CallConserved i (f k)) (hpending : ∀ e ∈ l'.pending, e ∈ l.pending ∨ e.2 = i)
    (hkeys : (l'.pending.map (·.1)).Nodup) (hsize : l'.pending.length ≤ max)
    (htask : ∀ t ∈ l'.tasks, (t ∈ l.tasks ∨ t.call = i) ∧ t.Planned)
    (htokens : l'.tokens + k.holdsSlot.toNat = l.tokens + (f k).holdsSlot.toNat) (hcapacity : l'.tokens ≤ capacity)
    (hunderflows : l'.underflows = 0) : l'.Conserved capacity max := by
  have hlen : l'.calls.length = l.calls.length := by rw [hcalls, List.length_modify]
  have hi : i < l.calls.length := (List.getElem?_eq_some_iff.mp hk).1
  refine ⟨?_, ?_, hkeys, hsize, ?_, ?_, hcapacity, hunderflows⟩
  · intro j k' hk'
    rw [hcalls, List.getElem?_modify] at hk'
    by_cases hij : i = j
    · subst hij
      rw [hk] at hk'
      simp only [if_true, Option.map_eq_map, Option.map_some, Option.some.injEq] at hk'
      rw [← hk']
      exact hcall
    · simp only [hij, if_false, Option.map_eq_map, Option.map_id'] at hk'
      obtain ⟨he, ht⟩ := hother j (Ne.symm hij)
      have hc := h.call hk'
      exact ⟨hc.once, by rw [he]; exact hc.entries, by rw [ht]; exact hc.finished, by rw [ht]; exact hc.released,
        by rw [ht]; exact hc.sent, hc.done, hc.early, hc.registered⟩
  · intro e he
    rw [hlen]
    rcases hpending e he with he | he
    · exact h.pending e he
    · rw [he]; exact hi
  · intro t ht
    rw [hlen]
    obtain ⟨ht | ht, hn⟩ := htask t ht
    · exact h.task t ht
    · rw [ht]; exact ⟨hi, hn⟩
  · have := countP_modify Call.holdsSlot f hk
    have := h.tokens
    rw [hcalls]
    omega

theorem Conserved.rephase (h : l.Conserved capacity max) (hk : l.calls[i]? = some k) (f : Call → Call)
    (hf : f k = { k with sequence := (f k).sequence, phase := (f k).phase, deadline := (f k).deadline }) (n : Nat)
    (hearly : (f k).phase.early → k.phase.early) (hregistered : (f k).phase.registered → k.phase.registered)
    (htokens : n + k.holdsSlot.toNat = l.tokens + (f k).holdsSlot.toNat) (hcapacity : n ≤ capacity) (sequence : UInt32) :
    ({ l with tokens := n, sequence }.modify i f).Conserved capacity max := by
  have hc := h.call hk
  refine h.update hk f rfl (fun _ _ => ⟨rfl, fun _ => rfl⟩) ?_ (fun e he => .inl he) h.keys h.size
    (fun t ht => ⟨.inl ht, (h.task t ht).2⟩) htokens hcapacity h.underflows
  rw [hf]
  exact ⟨hc.once, hc.entries, hc.finished, hc.released, hc.sent, hc.done, fun he => hc.early (hearly he),
    fun hr => hc.registered (hregistered hr)⟩

theorem Conserved.tokens_pos (h : l.Conserved capacity max) (hk : l.calls[i]? = some k) (hs : k.holdsSlot) :
    0 < l.tokens := by
  rw [h.tokens, List.countP_pos_iff]
  exact ⟨k, List.mem_of_getElem? hk, hs⟩

theorem release_eq (h : 0 < l.tokens) : l.release = { l with tokens := l.tokens - 1 } := by
  rw [release, if_neg (by omega)]

theorem Conserved.move {q : Phase} (h : l.Conserved capacity max) (hk : l.calls[i]? = some k) (hq : Moves k.phase q) :
    (l.goto i q).Conserved capacity max := by
  refine h.rephase hk (fun k => { k with phase := q }) rfl l.tokens hq.early (fun h => hq.registered ▸ h) ?_ h.capacity
    l.sequence
  simp only [Call.holdsSlot, hq.owns]

theorem Conserved.acquire (h : l.Conserved capacity max) (hk : l.calls[i]? = some k)
    (hp : k.phase = .acquiring ∨ k.phase = .awaitingSlot) (ht : l.tokens < capacity) :
    ({ l with tokens := l.tokens + 1 }.goto i .beginning).Conserved capacity max := by
  have hearly : k.phase.early := by rcases hp with hp | hp <;> rw [hp] <;> rfl
  have hslot : k.holdsSlot = false := by
    have := (h.call hk).early hearly
    rcases hp with hp | hp <;> simp [Call.holdsSlot, hp, this, Phase.owns]
  refine h.rephase hk (fun k => { k with phase := .beginning }) rfl (l.tokens + 1) (fun _ => hearly) (fun h => by cases h) ?_ ht
    l.sequence
  rw [hslot]
  rfl

theorem Conserved.giveBack {r : Result} (h : l.Conserved capacity max) (hk : l.calls[i]? = some k)
    (hp : k.phase = .releasing r) : (l.release.goto i (.returned r)).Conserved capacity max := by
  have hslot : k.holdsSlot = true := by simp [Call.holdsSlot, hp, Phase.owns]
  have hpos := h.tokens_pos hk hslot
  have hins : k.inserted = 0 := (h.call hk).early (by rw [hp]; rfl)
  rw [release_eq hpos]
  refine h.rephase hk (fun k => { k with phase := .returned r }) rfl (l.tokens - 1) (fun h => by cases h) (fun h => by cases h) ?_
    (by have := h.capacity; omega) l.sequence
  rw [hslot]
  simp [Call.holdsSlot, hins, Phase.owns]
  omega

theorem Conserved.insert {n : Nat} (h : l.Conserved capacity max) (hk : l.calls[i]? = some k)
    (hp : k.phase = .inserting n) (hi : l.insert max k.sequence i = .ok l') :
    (l'.goto i .encoding).Conserved capacity max := by
  have hc := h.call hk
  have hins : k.inserted = 0 := hc.early (by rw [hp]; rfl)
  have hrem : k.removed = 0 := by have := hc.entries; omega
  obtain ⟨hmax, hfree, rfl⟩ := insert_ok hi
  have hrel : k.released = 0 := by have := hc.released; omega
  refine h.update hk (fun k => { k with inserted := k.inserted + 1, phase := .encoding })
    (List.modify_modify_eq _ _ i l.calls) ?_ ?_ ?_ ?_ (by simp only [goto, modify, inserted, List.length_cons]; omega)
    (fun t ht => ⟨.inl ht, (h.task t ht).2⟩) ?_ h.capacity h.underflows
  · intro j hj
    refine ⟨?_, fun _ => rfl⟩
    exact List.countP_cons_of_neg (by simpa using Ne.symm hj)
  · have he : ((k.sequence, i) :: l.pending).countP (·.2 = i) = l.entries i + 1 := List.countP_cons_of_pos (by simp)
    refine ⟨by simp only; omega, ?_, hc.finished, hc.released, hc.sent, hc.done, nofun, fun _ => ?_⟩
    · have := hc.entries
      exact (congrArg (· + k.removed) he).trans (by simp only; omega)
    · have h1 := hc.sent
      have h2 := hc.done
      exact ⟨by simp only; omega, by simp only; omega⟩
  · intro e he
    rcases List.mem_cons.mp he with rfl | he
    · exact .inr rfl
    · exact .inl he
  · refine List.nodup_cons.mpr ⟨?_, h.keys⟩
    rw [List.lookup_eq_none_iff] at hfree
    intro hm
    obtain ⟨e, he, hs⟩ := List.mem_map.mp hm
    exact absurd hs.symm (bne_iff_ne.mp (hfree e he))
  · simp [goto, modify, inserted, Call.holdsSlot, hp, Phase.owns, hins, hrel]

theorem Conserved.remove {sequence : SequenceNumber} {t : Task} (h : l.Conserved capacity max)
    (hl : l.pending.lookup sequence = some t.call) (hn : t.New) : (l.remove sequence t).Conserved capacity max := by
  have hperm := perm_of_lookup hl
  have hmem : (sequence, t.call) ∈ l.pending := hperm.mem_iff.mpr List.mem_cons_self
  obtain ⟨k, hk⟩ : ∃ k, l.calls[t.call]? = some k := ⟨_, List.getElem?_eq_getElem (h.pending _ hmem)⟩
  have hc := h.call hk
  refine h.update hk (fun k => { k with removed := k.removed + 1 }) rfl ?_ ?_ (fun e he => .inl (List.mem_of_mem_eraseP he))
    (h.keys.sublist (List.eraseP_sublist.map _)) (le_trans (List.eraseP_sublist.length_le) h.size) ?_ ?_
    h.capacity h.underflows
  · intro j hj
    have he := entries_remove hl j
    refine ⟨by simpa [Ne.symm hj] using he, fun st => ?_⟩
    simpa [Ne.symm hj] using tasksWith_remove l sequence t j st
  · have he := entries_remove hl t.call
    have h1 := tasksWith_remove l sequence t t.call .finish
    have h2 := tasksWith_remove l sequence t t.call .release
    have h3 := tasksWith_remove l sequence t t.call .send
    simp only [hn.mem.1, hn.mem.2.1, hn.mem.2.2, and_self, if_true] at he h1 h2 h3
    have := hc.entries
    have := hc.finished
    have := hc.released
    have := hc.sent
    exact ⟨hc.once, by simp only; omega, by simp only; omega, by simp only; omega, by simp only; omega, hc.done, hc.early,
      hc.registered⟩
  · intro t' ht'
    rcases List.mem_cons.mp ht' with rfl | ht'
    · exact ⟨.inr rfl, hn.planned⟩
    · exact ⟨.inl ht', (h.task t' ht').2⟩
  · rfl

theorem Conserved.advance {o : Owner} {t : Task} {l₀ : Ledger} (h : l.Conserved capacity max)
    (ht : l.nextTask o = some (t, l₀)) (hk : l.calls[t.call]? = some k) (f : Call → Call) {todo : List Stage}
    (htodo : todo = [] ∨ Task.Planned { t with todo }) (n : Nat) (heap : List DeadlineItem)
    (hcall : ∀ l' : Ledger, l'.entries t.call = l.entries t.call →
      (∀ st, (st ∈ todo ↔ st ∈ t.todo) → l'.tasksWith t.call st = l.tasksWith t.call st) →
      (∀ st ∈ t.todo, st ∉ todo → l'.tasksWith t.call st + 1 = l.tasksWith t.call st) → l'.CallConserved t.call (f k))
    (htokens : n + k.holdsSlot.toNat = l.tokens + (f k).holdsSlot.toNat) (hcapacity : n ≤ capacity) :
    (({ l₀ with tokens := n, heap }.modify t.call f).resume t todo).Conserved capacity max := by
  obtain ⟨tasks, rfl, hperm⟩ := nextTask_eq ht
  have hold (j : Nat) (st : Stage) := tasksWith_of_perm hperm j st
  have hnew (j : Nat) (st : Stage) :=
    tasksWith_resume ({ l with tasks, tokens := n, heap }.modify t.call f) t todo j st
  obtain ⟨ts, hts, hcases⟩ := resume_eq ({ l with tasks, tokens := n, heap }.modify t.call f) t todo
  rw [hts] at hnew ⊢
  refine h.update hk f rfl ?_ (hcall _ rfl ?_ ?_) (fun e he => .inl he) h.keys h.size ?_ htokens hcapacity h.underflows
  · intro j hj
    refine ⟨rfl, fun st => ?_⟩
    have h1 := hold j st
    have h2 := hnew j st
    simp only [Ne.symm hj, false_and, if_false, Nat.add_zero] at h1 h2
    rw [h2, h1]
    rfl
  · intro st hst
    have h1 := hold t.call st
    have h2 := hnew t.call st
    simp only [true_and, hst] at h1 h2
    rw [h2, h1]
    rfl
  · intro st hin hout
    have h1 := hold t.call st
    have h2 := hnew t.call st
    simp only [true_and, hin, hout, if_true, if_false] at h1 h2
    rw [h2, h1]
    rfl
  · intro t' ht'
    rcases List.mem_append.mp ht' with ht' | ht'
    · rcases hcases with ⟨rfl, -⟩ | ⟨rfl, hne⟩
      · cases ht'
      · rw [List.mem_singleton.mp ht']
        exact ⟨.inr rfl, htodo.resolve_left hne⟩
    · have hmem : t' ∈ l.tasks := hperm.mem_iff.mpr (List.mem_cons_of_mem _ ht')
      exact ⟨.inl hmem, (h.task t' hmem).2⟩

theorem Conserved.of_nextTask {o : Owner} {t : Task} {l₀ : Ledger} (h : l.Conserved capacity max)
    (ht : l.nextTask o = some (t, l₀)) : (∃ k, l.calls[t.call]? = some k) ∧ t.Planned ∧
      ∀ st ∈ t.todo, 0 < l.tasksWith t.call st := by
  obtain ⟨tasks, rfl, hperm⟩ := nextTask_eq ht
  have hmem : t ∈ l.tasks := hperm.mem_iff.mpr List.mem_cons_self
  refine ⟨⟨_, List.getElem?_eq_getElem (h.task t hmem).1⟩, (h.task t hmem).2, fun st hst => ?_⟩
  rw [tasksWith_of_perm hperm]
  simp [hst]

theorem Conserved.finish {o : Owner} {t : Task} {l₀ : Ledger} {rest : List Stage} (h : l.Conserved capacity max)
    (ht : l.nextTask o = some (t, l₀)) (htodo : t.todo = .finish :: rest) (hf : l₀.finish t rest = some l') :
    l'.Conserved capacity max := by
  obtain ⟨⟨k, hk⟩, hok, hpos⟩ := h.of_nextTask ht
  obtain ⟨tasks, rfl, hperm⟩ := nextTask_eq ht
  have hc := h.call hk
  -- the request is finished for the first time: its only removal is this task's
  have hfin : k.finished = false := by
    have h1 := hpos .finish (by rw [htodo]; exact List.mem_cons_self)
    have h2 := hc.finished
    have h3 := hc.entries
    have h4 := hc.once
    cases hb : k.finished with
    | false => rfl
    | true => rw [hb, Bool.toNat_true] at h2; omega
  have hrest := List.nodup_cons.mp (htodo ▸ hok.nodup)
  unfold Ledger.finish at hf
  simp only [hk, Option.bind_eq_bind, Option.bind_some, hfin, Bool.false_eq_true, if_false, Option.some.injEq] at hf
  rw [← hf]
  refine h.advance ht hk (fun k => { k with finished := true, deadline := false }) ?_ l.tokens l.heap ?_ rfl h.capacity
  · split
    · exact .inr (hok.unschedule htodo)
    · exact hok.tail htodo
  · intro l' he hsame hgone
    have hmem (st : Stage) (hu : st ≠ .unschedule) :
        (st ∈ if k.deadline then Stage.unschedule :: rest else rest) ↔ st ∈ rest := by
      split
      · exact ⟨fun hm => (List.mem_cons.mp hm).resolve_left hu, List.mem_cons_of_mem _⟩
      · rfl
    have h1 := hgone .finish (by rw [htodo]; exact List.mem_cons_self) (by rw [hmem _ (by decide)]; exact hrest.1)
    have h2 := hsame .release (by rw [hmem _ (by decide), htodo]; simp)
    have h3 := hsame .send (by rw [hmem _ (by decide), htodo]; simp)
    have h4 := hc.finished
    rw [hfin, Bool.toNat_false] at h4
    exact ⟨hc.once, by rw [he]; exact hc.entries, by simp only [Bool.toNat_true]; omega, by rw [h2]; exact hc.released,
      by rw [h3]; exact hc.sent, hc.done, hc.early, hc.registered⟩

theorem Conserved.release {o : Owner} {t : Task} {l₀ : Ledger} {rest : List Stage} (h : l.Conserved capacity max)
    (ht : l.nextTask o = some (t, l₀)) (htodo : t.todo = .release :: rest) :
    ((l₀.release.modify t.call fun k => { k with released := k.released + 1 }).resume t rest).Conserved capacity max := by
  obtain ⟨⟨k, hk⟩, hok, hpos⟩ := h.of_nextTask ht
  have hc := h.call hk
  have hrest := List.nodup_cons.mp (htodo ▸ hok.nodup)
  have hrel : k.released = 0 ∧ k.inserted = 1 := by
    have h1 := hpos .release (by rw [htodo]; exact List.mem_cons_self)
    have h2 := hc.released
    have h3 := hc.entries
    have h4 := hc.once
    omega
  have howns : k.phase.owns = false := by
    by_contra hne
    rw [Bool.not_eq_false] at hne
    have := hc.early (by revert hne; cases k.phase <;> simp [Phase.early])
    omega
  have hslot : k.holdsSlot = true := by simp [Call.holdsSlot, hrel]
  have htok := h.tokens_pos hk hslot
  have hl₀ : l₀.release = { l₀ with tokens := l.tokens - 1 } := by
    obtain ⟨tasks, rfl, -⟩ := nextTask_eq ht
    exact release_eq htok
  rw [hl₀]
  refine h.advance ht hk (fun k => { k with released := k.released + 1 }) (hok.tail htodo) (l.tokens - 1) l₀.heap ?_ ?_
    (by have := h.capacity; omega)
  · intro l' he hsame hgone
    have h1 := hsame .finish (by rw [htodo]; simp)
    have h2 := hgone .release (by rw [htodo]; exact List.mem_cons_self) hrest.1
    have h3 := hsame .send (by rw [htodo]; simp)
    have h4 := hc.released
    exact ⟨hc.once, by rw [he]; exact hc.entries, by rw [h1]; exact hc.finished, by simp only; omega,
      by rw [h3]; exact hc.sent, hc.done, hc.early, hc.registered⟩
  · rw [hslot]
    simp [Call.holdsSlot, howns]
    omega

theorem Conserved.send {o : Owner} {t : Task} {l₀ : Ledger} {rest : List Stage} (h : l.Conserved capacity max)
    (ht : l.nextTask o = some (t, l₀)) (htodo : t.todo = .send :: rest) (hs : l₀.send t = some l') :
    (l'.resume t rest).Conserved capacity max := by
  obtain ⟨⟨k, hk⟩, hok, hpos⟩ := h.of_nextTask ht
  obtain ⟨tasks, rfl, -⟩ := nextTask_eq ht
  have hc := h.call hk
  have hrest := List.nodup_cons.mp (htodo ▸ hok.nodup)
  unfold Ledger.send at hs
  simp only [hk, Option.bind_eq_bind, Option.bind_some] at hs
  split at hs
  · cases hs
  next hempty =>
  cases hs
  refine h.advance ht hk (fun k => { k with done := [t.result], sent := k.sent + 1 }) (hok.tail htodo) l.tokens l.heap ?_ rfl
    h.capacity
  intro l' he hsame hgone
  have h1 := hsame .finish (by rw [htodo]; simp)
  have h2 := hsame .release (by rw [htodo]; simp)
  have h3 := hgone .send (by rw [htodo]; exact List.mem_cons_self) hrest.1
  have h4 := hc.sent
  refine ⟨hc.once, by rw [he]; exact hc.entries, by rw [h1]; exact hc.finished, by rw [h2]; exact hc.released,
    by simp only; omega, by simp, hc.early, fun hr => ?_⟩
  obtain ⟨hins, hdone⟩ := hc.registered hr
  rw [not_not.mp hempty, List.length_nil] at hdone
  exact ⟨hins, by simp only [List.length_singleton]; omega⟩

theorem Conserved.stage {o : Owner} {t : Task} {l₀ : Ledger} {st : Stage} {rest : List Stage}
    (h : l.Conserved capacity max) (ht : l.nextTask o = some (t, l₀)) (htodo : t.todo = st :: rest)
    (hf : st ≠ .finish) (hr : st ≠ .release) (hs : st ≠ .send) (heap : List DeadlineItem) :
    ({ l₀ with heap }.resume t rest).Conserved capacity max := by
  obtain ⟨⟨k, hk⟩, hok, -⟩ := h.of_nextTask ht
  have hc := h.call hk
  have := h.advance ht hk id (hok.tail htodo) l.tokens heap (fun l' he hsame _ =>
    ⟨hc.once, by rw [he]; exact hc.entries, by rw [hsame .finish (by rw [htodo]; simp [hf.symm])]; exact hc.finished,
      by rw [hsame .release (by rw [htodo]; simp [hr.symm])]; exact hc.released,
      by rw [hsame .send (by rw [htodo]; simp [hs.symm])]; exact hc.sent, hc.done, hc.early, hc.registered⟩) rfl h.capacity
  obtain ⟨tasks, rfl, -⟩ := nextTask_eq ht
  rwa [Ledger.modify, List.modify_id] at this

theorem Conserved.receive {r : Result} {rs : List Result} (h : l.Conserved capacity max) (hk : l.calls[i]? = some k)
    (hr : k.phase.registered) (_hd : k.done = r :: rs) :
    (l.modify i fun k => { k with done := [], phase := .returned r }).Conserved capacity max := by
  have hc := h.call hk
  have howns : k.phase.owns = false := by revert hr; cases k.phase <;> simp [Phase.registered, Phase.owns]
  refine h.update hk _ rfl (fun _ _ => ⟨rfl, fun _ => rfl⟩) ?_ (fun e he => .inl he) h.keys h.size
    (fun t ht => ⟨.inl ht, (h.task t ht).2⟩) ?_ h.capacity h.underflows
  · exact ⟨hc.once, hc.entries, hc.finished, hc.released, hc.sent, by simp, (fun h => by cases h), (fun h => by cases h)⟩
  · have hslot : Call.holdsSlot { k with done := [], phase := .returned r } = k.holdsSlot := by
      simp only [Call.holdsSlot, howns]
      rfl
    rw [hslot]
    rfl

theorem Conserved.request (h : l.Conserved capacity max) (command : CommandID) (body : Value) (waitWindow : Bool) :
    Conserved capacity max { l with calls := l.calls ++ [{ command, body, waitWindow }] } := by
  refine ⟨?_, ?_, h.keys, h.size, ?_, ?_, h.capacity, h.underflows⟩
  · intro i k hk
    rcases lt_or_ge i l.calls.length with hi | hi
    · have hc := h.call (i := i) (k := k) (by rwa [List.getElem?_append_left hi] at hk)
      exact ⟨hc.once, hc.entries, hc.finished, hc.released, hc.sent, hc.done, hc.early, hc.registered⟩
    · -- a new call: nothing in the table and no task is its own
      rw [List.getElem?_append_right hi, List.getElem?_singleton] at hk
      obtain rfl : ({ command, body, waitWindow } : Call) = k := by split at hk <;> cases hk; rfl
      have hent : l.entries i = 0 := by
        rw [Ledger.entries, List.countP_eq_zero]
        intro e he
        have := h.pending e he
        simp only [decide_eq_true_eq]
        omega
      have htask (st : Stage) : l.tasksWith i st = 0 := by
        rw [tasksWith, List.countP_eq_zero]
        intro t ht
        have := (h.task t ht).1
        simp only [decide_eq_true_eq]
        omega
      exact ⟨Nat.zero_le 1, hent, htask .finish, htask .release, htask .send, Nat.le_refl 0, fun _ => rfl, nofun⟩
  · intro e he
    rw [List.length_append]
    exact Nat.lt_add_right _ (h.pending e he)
  · intro t ht
    rw [List.length_append]
    exact ⟨Nat.lt_add_right _ (h.task t ht).1, (h.task t ht).2⟩
  · rw [List.countP_append, ← h.tokens]
    rfl

theorem failAll_induction {P : Ledger → Prop} (err : Err) (h : P l)
    (step : ∀ l sequence i, P l → l.pending.lookup sequence = some i → P (l.remove sequence (errorTask .sweep i err []))) :
    P (l.failAll err) ∧ (l.failAll err).pending = [] := by
  suffices hs : ∀ (es : List (SequenceNumber × Nat)) (l : Ledger), P l → l.pending = es →
      P (es.foldl (fun l entry => l.remove entry.1 (errorTask .sweep entry.2 err [])) l) ∧
      (es.foldl (fun l entry => l.remove entry.1 (errorTask .sweep entry.2 err [])) l).pending = [] from
    hs l.pending l h rfl
  intro es
  induction es with
  | nil => exact fun l h hl => ⟨h, hl⟩
  | cons e es ih =>
    intro l h hl
    have hlookup : l.pending.lookup e.1 = some e.2 := by rw [hl]; exact List.lookup_cons_self
    have hrest : (l.remove e.1 (errorTask .sweep e.2 err [])).pending = es := by
      show l.pending.eraseP _ = es
      rw [hl]
      exact List.eraseP_cons_of_pos (by simp)
    exact ih _ (step l e.1 e.2 h hlookup) hrest

theorem remove_call (sequence : SequenceNumber) (t : Task) (hk : l.calls[i]? = some k) :
    ∃ n, (l.remove sequence t).calls[i]? = some { k with removed := n } := by
  simp only [Ledger.remove, List.getElem?_modify, hk, Option.map_eq_map, Option.map_some]
  split
  · exact ⟨_, rfl⟩
  · exact ⟨k.removed, rfl⟩

theorem Conserved.leave {err : Err} (h : l.Conserved capacity max) (hk : l.calls[i]? = some k) (hr : k.phase.registered) :
    (l.goto i (.cancelling false (.error err))).Conserved capacity max := by
  have howns : k.phase.owns = false := by revert hr; cases k.phase <;> simp [Phase.registered, Phase.owns]
  refine h.rephase hk (fun k => { k with phase := .cancelling false (.error err) }) rfl l.tokens (fun h => by cases h)
    (fun h => by cases h) ?_ h.capacity l.sequence
  simp only [Call.holdsSlot, howns]
  rfl

/-- **Every step keeps the ledger balanced.** -/
theorem Conserved.step {c : Config} {label : Label} (h : l.Conserved c.windowSize c.maxPending)
    (hs : l.Step c label l') : l'.Conserved c.windowSize c.maxPending := by
  cases hs with
  | other _ sequence heap =>
    refine ⟨fun hk => ?_, h.pending, h.keys, h.size, h.task, h.tokens, h.capacity, h.underflows⟩
    have hc := h.call hk
    exact ⟨hc.once, hc.entries, hc.finished, hc.released, hc.sent, hc.done, hc.early, hc.registered⟩
  | request command body waitWindow => exact h.request command body waitWindow
  | move hk hq => exact h.move hk hq
  | @draw i k n hk hp =>
    exact h.rephase hk (fun k => { k with sequence := l.nextSequence, phase := .inserting n }) rfl l.tokens
      (fun _ => by rw [hp]; rfl) nofun (by simp [Call.holdsSlot, hp, Phase.owns]) h.capacity l.nextSequence
  | acquire hk hp ht => exact h.acquire hk hp ht
  | giveBack hk hp => exact h.giveBack hk hp
  | insert hk hp hi => exact h.insert hk hp hi
  | @abandon i k arm j err hk hr _ hl =>
    obtain ⟨n, hk'⟩ := remove_call k.sequence (errorTask (.caller i) j err []) hk
    exact (h.remove hl (errorTask_new _ j err)).leave hk' hr
  | unencodable hk hp _ _ => exact h.leave hk (by rw [hp]; rfl)
  | receive hk hr hd => exact h.receive hk hr hd
  | take _ ht =>
    obtain ⟨i, k, hi, -, -, rfl⟩ := takeResponse_some ht
    exact h.remove hi (responseTask_new i _)
  | @timeout sequence i err hl => exact h.remove hl (errorTask_cancel_new _ i err)
  | sweep err => exact (failAll_induction err h fun l sequence i h hl => h.remove hl (errorTask_new _ i err)).1
  | finish ht htodo hf => exact h.finish ht htodo hf
  | release ht htodo => exact h.release ht htodo
  | send ht htodo hs => exact h.send ht htodo hs
  | stage ht htodo hf hr hs heap => exact h.stage ht htodo hf hr hs heap
  | attach hk => exact h.rephase hk (fun k => { k with deadline := true }) rfl l.tokens id id rfl h.capacity l.sequence

end Keep

/-! ## The pending table -/

inductive TableStep (l l' : Ledger) : Label → Prop
  | same (label : Label) : l'.pending = l.pending → TableStep l l' label
  | insert {i k n} : l.calls[i]? = some k → k.phase = .inserting n → l' = (l.inserted k.sequence i).goto i .encoding →
      TableStep l l' (.call i .go)
  | abandon {i k arm j err} : l.calls[i]? = some k → k.phase.registered → l.pending.lookup k.sequence = some j →
      l' = (l.remove k.sequence (errorTask (.caller i) j err [])).goto i (.cancelling false (.error err)) →
      TableStep l l' (.call i arm)
  | take {frame pdu i} : l.pending.lookup pdu.header.sequenceNumber = some i →
      l' = l.remove pdu.header.sequenceNumber (responseTask i pdu) → TableStep l l' (.frame frame)
  | timeout {sequence i err} : l.pending.lookup sequence = some i →
      l' = l.remove sequence (errorTask .deadline i err [.cancel]) → TableStep l l' .fire
  | sweep : l'.pending = [] → TableStep l l' .term

theorem Step.table {c : Config} {l l' : Ledger} {label : Label} (h : l.Step c label l') : l.TableStep l' label := by
  cases h with
  | other | request | move | draw | acquire | unencodable | receive | attach => exact .same _ rfl
  | giveBack => exact .same _ (release_pending l)
  | insert hk hp hins =>
    obtain ⟨-, -, rfl⟩ := insert_ok hins
    exact .insert hk hp rfl
  | abandon hk hr _ hj => exact .abandon hk hr hj rfl
  | take _ ht =>
    obtain ⟨i, k, hi, -, -, rfl⟩ := takeResponse_some ht
    exact .take hi rfl
  | timeout hi => exact .timeout hi rfl
  | sweep err => exact .sweep (failAll_induction (P := fun _ => True) err trivial fun _ _ _ _ _ => trivial).2
  | finish ht _ hf =>
    refine .same _ ?_
    obtain ⟨k, -, ⟨-, rfl⟩ | ⟨-, rfl⟩⟩ := finish_some hf
    · rw [resume_pending, nextTask_pending ht]
    · rw [resume_pending, modify, nextTask_pending ht]
  | release ht => exact .same _ (by rw [resume_pending, modify, release_pending, nextTask_pending ht])
  | send ht _ hs =>
    obtain ⟨k, -, -, rfl⟩ := send_some hs
    exact .same _ (by rw [resume_pending, modify, nextTask_pending ht])
  | stage ht => exact .same _ (by rw [resume_pending, nextTask_pending ht])

/-! ## Sessions -/

theorem conserved_empty (capacity max : Nat) : Conserved capacity max {} where
  call hk := by cases hk
  pending e he := absurd he List.not_mem_nil
  keys := List.nodup_nil
  size := Nat.zero_le max
  task t ht := absurd ht List.not_mem_nil
  tokens := rfl
  capacity := Nat.zero_le capacity
  underflows := rfl

end Ledger

section Sessions
variable {config : Config} {role : Role} {s : Session}

theorem run_config {s₀ : Session} {ok : Session → Label → Prop} (h : sessions.Run ok s₀ s) : s.config = s₀.config :=
  h.invariant (P := fun s => s.config = s₀.config) (fun _ _ _ _ hs hc => (step_config hs).trans hc) rfl

theorem run_conserved {ok : Session → Label → Prop} (h : sessions.Run ok (new config role) s) :
    s.ledger.Conserved config.windowSize config.maxPending := by
  suffices hc : s.config = config ∧ s.ledger.Conserved config.windowSize config.maxPending from hc.2
  refine h.invariant (P := fun s => s.config = config ∧ s.ledger.Conserved config.windowSize config.maxPending) ?_
    ⟨rfl, Ledger.conserved_empty _ _⟩
  rintro s label s' - hs ⟨rfl, hc⟩
  exact ⟨step_config hs, hc.step (step_ledger hs)⟩

theorem taskStep_isSome {o : Owner} (h : s.ledger.Conserved config.windowSize config.maxPending)
    (ho : s.ledger.idle o = false) : (s.taskStep o).isSome := by
  obtain ⟨t, ht⟩ : ∃ t, s.ledger.tasks.find? (·.owner == o) = some t := by
    rw [Ledger.idle, Option.isNone_eq_false_iff] at ho
    exact Option.isSome_iff_exists.mp ho
  have hnext : s.ledger.nextTask o = some (t, { s.ledger with tasks := s.ledger.tasks.eraseP (·.owner == o) }) := by
    rw [Ledger.nextTask, ht]
    rfl
  obtain ⟨⟨k, hk⟩, hplan, hpos⟩ := h.of_nextTask hnext
  have hc := h.call hk
  unfold Session.taskStep
  rw [hnext]
  simp only [Option.bind_eq_bind, Option.bind_some, hk]
  obtain ⟨st, rest, htodo⟩ := List.exists_cons_of_ne_nil hplan.ne_nil
  have hmem : st ∈ t.todo := by rw [htodo]; exact List.mem_cons_self
  have hok := hplan.of_response hmem
  rw [htodo]
  cases st with
  | finish =>
    simp only [Ledger.finish, hk, Option.bind_eq_bind, Option.bind_some]
    split <;> rfl
  | unschedule => rfl
  | release => rfl
  | complete => obtain ⟨pdu, hr⟩ := hok (.inl rfl); rw [hr]; rfl
  | negotiate => obtain ⟨pdu, hr⟩ := hok (.inr (.inl rfl)); rw [hr]; rfl
  | send =>
    have hempty : k.done = [] := by
      have h1 := hpos .send hmem
      have h2 := hc.sent
      have h3 := hc.entries
      have h4 := hc.once
      have h5 := hc.done
      exact List.eq_nil_of_length_eq_zero (by omega)
    simp only [Ledger.send, hk, Option.bind_eq_bind, Option.bind_some, hempty]
    rfl
  | cancel => rfl
  | close => obtain ⟨pdu, hr⟩ := hok (.inr (.inr rfl)); rw [hr]; rfl

/-- **Exactly-once completion and window conservation.** Whatever the goroutines of a session do, a request is inserted
at most once, an inserted request is in the table or has been removed once, a removed one is in the hands of one task or
has been sent its result, and the same for its slot; every completer can go on; and the window holds a token for every
call that owns a slot and every request that has not given its slot back, within its capacity. -/
theorem run_requests_conserved (h : sessions.Run anyStep (new config role) s) :
    (∀ i k, s.ledger.calls[i]? = some k →
      k.inserted ≤ 1 ∧ s.ledger.entries i + k.removed = k.inserted ∧
      s.ledger.tasksWith i .send + k.sent = k.removed ∧ k.done.length ≤ k.sent ∧
      s.ledger.tasksWith i .release + k.released = k.removed) ∧
    (∀ o, s.ledger.idle o = false → (s.step (.task o)).isSome) ∧
    s.ledger.tokens = s.ledger.calls.countP (·.phase.owns) +
      s.ledger.calls.countP (fun k => k.inserted == 1 && k.released == 0) ∧
    s.ledger.tokens ≤ config.windowSize ∧ s.ledger.underflows = 0 := by
  have hc := run_conserved h
  refine ⟨fun i k hk => ?_, fun o ho => taskStep_isSome hc ho, ?_, hc.capacity, hc.underflows⟩
  · have hk := hc.call hk
    exact ⟨hk.once, hk.entries, hk.sent, hk.done, hk.released⟩
  · rw [hc.tokens]
    apply countP_or
    intro k hk howns
    obtain ⟨i, hi⟩ := List.getElem?_of_mem hk
    have hins := (hc.call hi).early (by revert howns; cases k.phase <;> simp [Phase.early])
    rw [hins]
    rfl

/-- An ESME that asks for a transceiver session. -/
def bindTransceiverBody : Value :=
  .struct (.bindRequest { systemID := [], password := [], systemType := [], interfaceVersion := interfaceVersion34,
                          addressTON := 0, addressNPI := 0, addressRange := [] })

/-- A bind that is waiting for its response when the session ends. -/
def lostBind : List Label :=
  .request commandBindTransceiver bindTransceiverBody true :: List.replicate 8 (.call 0 .go) ++
    [.terminate (.sentinel .sessionClosed), .term, .term, .term, .task .sweep, .task .sweep]

theorem run_requests_conserved_lostBind :
    (sessions.after anyStep (new {} .esme) lostBind).ledger.idle .sweep = false ∧
    ((sessions.after anyStep (new {} .esme) lostBind).step (.task .sweep)).isSome ∧
    (sessions.after anyStep (new {} .esme) lostBind).ledger.tokens ≤ 1024 := by
  have h := run_requests_conserved (System.run_after sessions anyStep (new {} .esme) lostBind (by decide +kernel))
  have hidle : (sessions.after anyStep (new {} .esme) lostBind).ledger.idle .sweep = false := by decide +kernel
  exact ⟨hidle, h.2.1 .sweep hidle, h.2.2.2.1⟩

end Sessions

end GoSmpp.Session
