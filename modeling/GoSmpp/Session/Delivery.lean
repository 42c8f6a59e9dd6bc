import GoSmpp.Lib.Lists
import GoSmpp.Session.Conservation

/-!
# A response reaches the caller of its request

* `Ledger.Step.call`: what a step can do to one call (`CallStep`), and `Step.origin`, `Step.willSend`: where the tasks
  after a step come from, and what becomes of a task that has a result to send.
* `Delivers`: a response is the result of a call: in the hands of a task that will send it, in the channel, or returned.
* `Correlated`: the invariant that makes it stable (`Correlated.step`, `Delivers.step`) as long as a caller that gives up
  does not find the request of another under its own sequence number (`OwnEntry`).
-/

namespace GoSmpp.Session
open Lib Protocol Codec

/-! ## One call -/

/-- Nothing of a call but its history, its `finished` flag and its deadline differs. -/
def SameCall (k k' : Call) : Prop :=
  k' = { k with
    finished := k'.finished, deadline := k'.deadline, inserted := k'.inserted, removed := k'.removed,
    released := k'.released, sent := k'.sent }

theorem SameCall.refl (k : Call) : SameCall k k := rfl

theorem SameCall.trans {k k' k'' : Call} (h : SameCall k k') (h' : SameCall k' k'') : SameCall k k'' := by
  unfold SameCall at *
  rw [h', h]

/-- The frame of a request can be encoded. -/
def Call.encodes (registry : Registry) (k : Call) : Prop :=
  ∃ frame, encodeFrame registry (requestHeader k) k.body = .ok frame

namespace Ledger

inductive CallStep (c : Config) (l l' : Ledger) (label : Label) (i : Nat) (k : Call) : Call → Prop
  | same {k'} : SameCall k k' → CallStep c l l' label i k k'
  | move {q} : Moves k.phase q → CallStep c l l' label i k { k with phase := q }
  /-- the call is not past `pending.insert` -/
  | prepare {sequence q} : k.phase.early → q.registered = false → CallStep c l l' label i k { k with sequence, phase := q }
  | insert {n} : k.phase = .inserting n →
      CallStep c l l' label i k { k with inserted := k.inserted + 1, phase := .encoding }
  /-- the caller gives up: it has completed the request itself, or the request does not encode -/
  | leave {k' arm err} : label = .call i arm → k.phase.registered → l'.pending.lookup k.sequence = none →
      (k.phase = .encoding ∧ ¬ k.encodes c.registry) ∨ (∃ j, l.pending.lookup k.sequence = some j) →
      SameCall { k with phase := .cancelling false (.error err) } k' → CallStep c l l' label i k k'
  | receive {r rs} : label = .call i .go → k.phase.registered → k.done = r :: rs →
      CallStep c l l' label i k { k with done := [], phase := .returned r }
  | send {t} : k.done = [] → t ∈ l.tasks → t.call = i → .send ∈ t.todo →
      CallStep c l l' label i k { k with done := [t.result], sent := k.sent + 1 }

variable {c : Config} {l l' : Ledger} {label : Label} {i j : Nat} {k : Call}

theorem calls_modify (hk : l.calls[i]? = some k) (j : Nat) (f : Call → Call) :
    (l.calls.modify j f)[i]? = some (if j = i then f k else k) := by
  rw [List.getElem?_modify, hk]
  split <;> rfl

theorem modify_callStep (hk : l.calls[i]? = some k) {f : Call → Call} (hl : l'.calls = l.calls.modify j f)
    (h : j = i → CallStep c l l' label i k (f k)) : ∃ k', l'.calls[i]? = some k' ∧ CallStep c l l' label i k k' := by
  refine ⟨_, by rw [hl]; exact calls_modify hk j f, ?_⟩
  split
  · next hj => exact h hj
  · exact .same (.refl k)

theorem own_callStep {kj : Call} (hk : l.calls[i]? = some k) (hj : l.calls[j]? = some kj) {f : Call → Call}
    (hl : l'.calls = l.calls.modify j f) (h : CallStep c l l' label j kj (f kj)) :
    ∃ k', l'.calls[i]? = some k' ∧ CallStep c l l' label i k k' := by
  refine modify_callStep hk hl fun hij => ?_
  subst hij
  rw [hk] at hj
  cases hj
  exact h

theorem remove_sameCall (sequence : SequenceNumber) (t : Task) (hk : l.calls[i]? = some k) :
    ∃ k', (l.remove sequence t).calls[i]? = some k' ∧ SameCall k k' := by
  obtain ⟨n, hn⟩ := remove_call sequence t hk
  exact ⟨_, hn, rfl⟩

theorem failAll_sameCall (err : Err) (hk : l.calls[i]? = some k) :
    ∃ k', (l.failAll err).calls[i]? = some k' ∧ SameCall k k' := by
  refine (failAll_induction (P := fun l' => ∃ k', l'.calls[i]? = some k' ∧ SameCall k k') err ⟨k, hk, rfl⟩ ?_).1
  rintro l' sequence j ⟨k', hk', hs⟩ -
  obtain ⟨k'', hk'', hs'⟩ := remove_sameCall sequence (errorTask .sweep j err []) hk'
  exact ⟨k'', hk'', hs.trans hs'⟩

@[simp] theorem resume_calls (l : Ledger) (t : Task) (todo : List Stage) : (l.resume t todo).calls = l.calls := by
  unfold resume
  split <;> rfl

@[simp] theorem release_calls (l : Ledger) : l.release.calls = l.calls := by
  unfold Ledger.release
  split <;> rfl

theorem lookup_remove {capacity max : Nat} (h : l.Conserved capacity max) (sequence : SequenceNumber) (t : Task) :
    (l.remove sequence t).pending.lookup sequence = none := by
  show (l.pending.eraseP (·.1 == sequence)).lookup sequence = none
  have hkeys := h.keys
  generalize l.pending = es at hkeys
  induction es with
  | nil => rfl
  | cons e es ih =>
    obtain ⟨hnot, hkeys⟩ := List.nodup_cons.mp hkeys
    by_cases he : e.1 = sequence
    · rw [List.eraseP_cons_of_pos (by simpa using he), List.lookup_eq_none_iff]
      intro e' he'
      rw [bne_iff_ne]
      rintro rfl
      refine hnot ?_
      show e.1 ∈ es.map (·.1)
      rw [he]
      exact List.mem_map_of_mem he'
    · rw [List.eraseP_cons_of_neg (by simpa using he), List.lookup_cons, beq_false_of_ne (Ne.symm he)]
      exact ih hkeys

/-- **What a step can do to one call.** -/
theorem Step.call (h : l.Step c label l') (hc : l.Conserved c.windowSize c.maxPending) (hk : l.calls[i]? = some k) :
    ∃ k', l'.calls[i]? = some k' ∧ CallStep c l l' label i k k' := by
  cases h with
  | other => exact ⟨k, hk, .same (.refl k)⟩
  | request => exact ⟨k, getElem?_append_some hk _, .same (.refl k)⟩
  | move hj hq => exact own_callStep hk hj rfl (.move hq)
  | draw hj hp => exact own_callStep hk hj rfl (.prepare (by rw [hp]; rfl) rfl)
  | acquire hj hp _ =>
    exact own_callStep hk hj rfl (.prepare (by rcases hp with hp | hp <;> rw [hp] <;> rfl) rfl)
  | giveBack hj hp =>
    exact own_callStep hk hj (by rw [goto_calls, release_calls]) (.prepare (by rw [hp]; rfl) rfl)
  | @insert j kj n l₁ hj hp hins =>
    obtain ⟨-, -, rfl⟩ := insert_ok hins
    exact own_callStep hk hj (List.modify_modify_eq _ _ j l.calls) (.insert hp)
  | @abandon j kj arm j' err hj hr he hl =>
    by_cases hij : j = i
    · subst hij
      rw [hk] at hj
      cases hj
      obtain ⟨n, hn⟩ := remove_call k.sequence (errorTask (.caller j) j' err []) hk
      refine ⟨_, calls_modify hn j _, ?_⟩
      rw [if_pos rfl]
      exact .leave rfl hr (lookup_remove hc k.sequence (errorTask (.caller j) j' err [])) (.inr ⟨j', hl⟩) rfl
    · obtain ⟨k', hk', hs⟩ := remove_sameCall kj.sequence (errorTask (.caller j) j' err []) hk
      refine ⟨_, calls_modify hk' j _, ?_⟩
      rw [if_neg hij]
      exact .same hs
  | @unencodable j kj err hj hp he hl =>
    have hnot : ¬ kj.encodes c.registry := by
      rintro ⟨frame, hf⟩
      rw [he] at hf
      cases hf
    exact own_callStep hk hj rfl (.leave rfl (by rw [hp]; rfl) hl (.inl ⟨hp, hnot⟩)
      (show SameCall { kj with phase := .cancelling false (.error err) } _ from rfl))
  | receive hj hr hd => exact own_callStep hk hj rfl (.receive rfl hr hd)
  | take _ ht =>
    obtain ⟨j, kj, -, -, -, rfl⟩ := takeResponse_some ht
    obtain ⟨k', hk', hs⟩ := remove_sameCall _ (responseTask j _) hk
    exact ⟨k', hk', .same hs⟩
  | timeout =>
    obtain ⟨k', hk', hs⟩ := remove_sameCall _ _ hk
    exact ⟨k', hk', .same hs⟩
  | sweep err =>
    obtain ⟨k', hk', hs⟩ := failAll_sameCall err hk
    exact ⟨k', hk', .same hs⟩
  | @finish o t l₀ rest _ ht _ hf =>
    obtain ⟨tasks, rfl, -⟩ := nextTask_eq ht
    obtain ⟨kt, -, ⟨-, rfl⟩ | ⟨-, rfl⟩⟩ := finish_some hf
    · exact ⟨k, by rw [resume_calls]; exact hk, .same (.refl k)⟩
    · exact modify_callStep hk (resume_calls _ _ _) fun _ => .same rfl
  | @release o t l₀ rest ht _ =>
    obtain ⟨tasks, rfl, -⟩ := nextTask_eq ht
    refine modify_callStep hk (j := t.call) (f := fun k => { k with released := k.released + 1 }) ?_ fun _ =>
      .same rfl
    rw [resume_calls, modify_calls, release_calls]
  | @send o t l₀ rest l₁ ht htodo hs =>
    obtain ⟨tasks, rfl, hperm⟩ := nextTask_eq ht
    obtain ⟨kt, hkt, hempty, rfl⟩ := send_some hs
    refine own_callStep hk hkt (resume_calls _ _ _) ?_
    exact .send hempty (hperm.mem_iff.mpr List.mem_cons_self) rfl (by rw [htodo]; exact List.mem_cons_self)
  | stage ht =>
    obtain ⟨tasks, rfl, -⟩ := nextTask_eq ht
    exact ⟨k, by rw [resume_calls]; exact hk, .same (.refl k)⟩
  | attach => exact modify_callStep hk rfl fun _ => .same rfl

/-! ## The tasks -/

theorem mem_resume {t t' : Task} {todo : List Stage} (h : t' ∈ (l.resume t todo).tasks) :
    t' ∈ l.tasks ∨ t' = { t with todo } := by
  unfold resume at h
  split at h
  · exact .inl h
  · exact (List.mem_cons.mp h).symm

theorem mem_resume_of_mem {t t' : Task} {todo : List Stage} (h : t' ∈ l.tasks) : t' ∈ (l.resume t todo).tasks := by
  unfold resume
  split
  · exact h
  · exact List.mem_cons_of_mem _ h

theorem resume_mem {t : Task} {todo : List Stage} {st : Stage} (h : st ∈ todo) :
    { t with todo } ∈ (l.resume t todo).tasks := by
  unfold resume
  rw [if_neg (List.ne_nil_of_mem h)]
  exact List.mem_cons_self

@[simp] theorem release_tasks (l : Ledger) : l.release.tasks = l.tasks := by
  unfold Ledger.release
  split <;> rfl

/-- Where a task of the next state comes from: it goes on, it completes a request with an error, or it is the task of a
response that has just been taken. -/
def TaskFrom (c : Config) (l : Ledger) (label : Label) (t' : Task) : Prop :=
  (∃ t ∈ l.tasks, t'.call = t.call ∧ t'.result = t.result ∧ ∀ st ∈ t'.todo, st ∈ t.todo ∨ st = .unschedule) ∨
  (∃ err, t'.result = .error err) ∨
  ∃ frame pdu i k, label = .frame frame ∧ decodePDU c.registry frame = .ok pdu ∧
    l.pending.lookup pdu.header.sequenceNumber = some i ∧ l.calls[i]? = some k ∧
    (pdu.header.commandID = responseID k.command ∨ pdu.header.commandID = commandGenericNACK) ∧ t' = responseTask i pdu

/-- Where a task of the next state comes from, and what it plans. -/
inductive TaskOrigin (c : Config) (l : Ledger) (label : Label) (t' : Task) : Prop
  /-- it goes on -/
  | goesOn {t} : t ∈ l.tasks → t'.call = t.call → t'.result = t.result →
      (∀ st ∈ t'.todo, st ∈ t.todo ∨ st = .unschedule) → TaskOrigin c l label t'
  | error {o i err} : t' = errorTask o i err [] → TaskOrigin c l label t'
  | timeout {sequence i err} : label = .fire → l.pending.lookup sequence = some i →
      t' = errorTask .deadline i err [.cancel] → TaskOrigin c l label t'
  | response {frame pdu i k} : label = .frame frame → decodePDU c.registry frame = .ok pdu →
      l.pending.lookup pdu.header.sequenceNumber = some i → l.calls[i]? = some k →
      pdu.header.commandID = responseID k.command ∨ pdu.header.commandID = commandGenericNACK →
      t' = responseTask i pdu → TaskOrigin c l label t'

theorem TaskOrigin.old {t' : Task} (h : t' ∈ l.tasks) : TaskOrigin c l label t' := .goesOn h rfl rfl fun _ => .inl

theorem TaskOrigin.resume {o : Owner} {t t' : Task} {l₀ l₁ : Ledger} {st : Stage} {rest todo : List Stage}
    (ht : l.nextTask o = some (t, l₀)) (htodo : t.todo = st :: rest) (hl : l₁.tasks = l₀.tasks)
    (hsub : ∀ st ∈ todo, st ∈ rest ∨ st = .unschedule) (ht' : t' ∈ (l₁.resume t todo).tasks) :
    TaskOrigin c l label t' := by
  obtain ⟨tasks, rfl, hperm⟩ := nextTask_eq ht
  rcases mem_resume ht' with hm | rfl
  · rw [hl] at hm
    exact .old (hperm.mem_iff.mpr (List.mem_cons_of_mem _ hm))
  · refine .goesOn (hperm.mem_iff.mpr List.mem_cons_self) rfl rfl fun st hst => ?_
    rw [htodo]
    exact (hsub st hst).imp_left (List.mem_cons_of_mem _)

theorem Step.origin (h : l.Step c label l') {t' : Task} (ht' : t' ∈ l'.tasks) : TaskOrigin c l label t' := by
  cases h with
  | other => exact .old ht'
  | request => exact .old ht'
  | move => exact .old ht'
  | draw => exact .old ht'
  | acquire => exact .old ht'
  | giveBack =>
    rw [goto, modify, release_tasks] at ht'
    exact .old ht'
  | insert _ _ hins =>
    obtain ⟨-, -, rfl⟩ := insert_ok hins
    exact .old ht'
  | abandon =>
    rcases List.mem_cons.mp ht' with rfl | hm
    · exact .error rfl
    · exact .old hm
  | unencodable => exact .old ht'
  | receive => exact .old ht'
  | take hd ht =>
    obtain ⟨i, k, hi, hk, hid, rfl⟩ := takeResponse_some ht
    rcases List.mem_cons.mp ht' with rfl | hm
    · exact .response rfl hd hi hk hid rfl
    · exact .old hm
  | timeout hl =>
    rcases List.mem_cons.mp ht' with rfl | hm
    · exact .timeout rfl hl rfl
    · exact .old hm
  | sweep err =>
    refine (failAll_induction (P := fun l' => ∀ t' ∈ l'.tasks, TaskOrigin c l .term t') err (fun _ => .old) ?_).1 t' ht'
    intro l' sequence i hl' _ t' ht'
    rcases List.mem_cons.mp ht' with rfl | hm
    · exact .error rfl
    · exact hl' t' hm
  | @finish o t l₀ rest _ ht htodo hf =>
    obtain ⟨kt, -, ⟨-, rfl⟩ | ⟨-, rfl⟩⟩ := finish_some hf
    · exact .resume ht htodo rfl (fun st hst => .inl (List.mem_of_mem_erase hst)) ht'
    · refine .resume ht htodo (by rfl) (fun st hst => ?_) ht'
      split at hst
      · exact (List.mem_cons.mp hst).symm
      · exact .inl hst
  | @release o t l₀ rest ht htodo =>
    refine .resume ht htodo ?_ (fun st hst => .inl hst) ht'
    rw [modify, release_tasks]
  | @send o t l₀ rest l₁ ht htodo hs =>
    obtain ⟨kt, -, -, rfl⟩ := send_some hs
    exact .resume ht htodo (by rfl) (fun st hst => .inl hst) ht'
  | @stage o t l₀ st rest ht htodo =>
    exact .resume ht htodo (by rfl) (fun st hst => .inl hst) ht'
  | attach => exact .old ht'

theorem Step.mem_task (h : l.Step c label l') {t' : Task} (ht' : t' ∈ l'.tasks) : TaskFrom c l label t' := by
  cases h.origin ht' with
  | goesOn ht hcall hres htodo => exact .inl ⟨_, ht, hcall, hres, htodo⟩
  | error ht => exact .inr (.inl ⟨_, by rw [ht]; rfl⟩)
  | timeout _ _ ht => exact .inr (.inl ⟨_, by rw [ht]; rfl⟩)
  | response hl hd hi hk hid ht => exact .inr (.inr ⟨_, _, _, _, hl, hd, hi, hk, hid, ht⟩)

theorem CallStep.command {k' : Call} (h : CallStep c l l' label i k k') : k'.command = k.command := by
  cases h with
  | same hs => rw [hs]
  | leave _ _ _ _ hs => rw [hs]
  | move | prepare | insert | receive | send => rfl

theorem Step.completes (h : l.Step c label l') (hc : l.Conserved c.windowSize c.maxPending) {t' : Task} {pdu : DecodedPDU}
    {k' : Call} (ht' : t' ∈ l'.tasks) (hr : t'.result = .ok pdu) (hst : .complete ∈ t'.todo)
    (hk' : l'.calls[t'.call]? = some k') :
    (∃ t ∈ l.tasks, t.result = .ok pdu ∧ .complete ∈ t.todo ∧ ∃ k, l.calls[t.call]? = some k ∧ k.command = k'.command) ∨
    ∃ frame i k, label = .frame frame ∧ decodePDU c.registry frame = .ok pdu ∧
      l.pending.lookup pdu.header.sequenceNumber = some i ∧ l.calls[i]? = some k ∧ k.command = k'.command ∧
      (pdu.header.commandID = responseID k.command ∨ pdu.header.commandID = commandGenericNACK) := by
  rcases h.mem_task ht' with ⟨t, ht, hcall, hres, htodo⟩ | ⟨err, herr⟩ | ⟨frame, pdu', i, k, rfl, hd, hi, hk, hid, rfl⟩
  · -- the call has kept its command
    obtain ⟨k, hk⟩ : ∃ k, l.calls[t.call]? = some k := ⟨_, List.getElem?_eq_getElem (hc.task t ht).1⟩
    obtain ⟨k₁, hk₁, hstep⟩ := h.call hc hk
    rw [hcall, hk₁] at hk'
    cases hk'
    exact .inl ⟨t, ht, hres ▸ hr, (htodo _ hst).resolve_right (by decide), k, hk, hstep.command.symm⟩
  · rw [herr] at hr
    cases hr
  · cases hr
    obtain ⟨k₁, hk₁, hstep⟩ := h.call hc hk
    rw [show l'.calls[i]? = some k' from hk'] at hk₁
    cases hk₁
    exact .inr ⟨frame, i, k, rfl, hd, hi, hk, hstep.command.symm, hid⟩

/-- The task has a result to send to the call. -/
def WillSend (l : Ledger) (i : Nat) (r : Result) : Prop := ∃ t ∈ l.tasks, t.call = i ∧ t.result = r ∧ .send ∈ t.todo

/-- The task still has the stage to do for the call. -/
def WillDo (l : Ledger) (i : Nat) (r : Result) (st : Stage) : Prop :=
  ∃ t ∈ l.tasks, t.call = i ∧ t.result = r ∧ st ∈ t.todo

section Todo
variable {r : Result} {st : Stage}

theorem WillDo.resume {o : Owner} {t : Task} {l₀ l₁ : Ledger} {st' : Stage} {rest todo : List Stage} (h : l.WillDo i r st)
    (ht : l.nextTask o = some (t, l₀)) (htodo : t.todo = st' :: rest) (hl : l₁.tasks = l₀.tasks)
    (hsub : st ∈ rest → st ∈ todo) : (l₁.resume t todo).WillDo i r st ∨ (t.call = i ∧ t.result = r ∧ t.todo = st :: rest) := by
  obtain ⟨tasks, rfl, hperm⟩ := nextTask_eq ht
  obtain ⟨t', ht', hi, hr, hs⟩ := h
  rcases List.mem_cons.mp (hperm.mem_iff.mp ht') with rfl | hm
  · rw [htodo] at hs
    rcases List.mem_cons.mp hs with rfl | hs
    · exact .inr ⟨hi, hr, htodo⟩
    · exact .inl ⟨_, resume_mem (hsub hs), hi, hr, hsub hs⟩
  · exact .inl ⟨t', mem_resume_of_mem (by rw [hl]; exact hm), hi, hr, hs⟩

theorem Step.willDo (h : l.Step c label l') (hst : st ≠ .release) (hw : l.WillDo i r st) : l'.WillDo i r st ∨
    ∃ o t l₀ rest, label = .task o ∧ l.nextTask o = some (t, l₀) ∧ t.call = i ∧ t.result = r ∧ t.todo = st :: rest := by
  have hcons {t : Task} : (∃ t' ∈ t :: l.tasks, t'.call = i ∧ t'.result = r ∧ st ∈ t'.todo) := by
    obtain ⟨t', ht', hrest⟩ := hw
    exact ⟨t', List.mem_cons_of_mem _ ht', hrest⟩
  have hnext {o : Owner} {t : Task} {l₀ l₁ : Ledger} {st' : Stage} {rest todo : List Stage}
      (ht : l.nextTask o = some (t, l₀)) (htodo : t.todo = st' :: rest) (hl : l₁.tasks = l₀.tasks)
      (hsub : st ∈ rest → st ∈ todo) : (l₁.resume t todo).WillDo i r st ∨ ∃ o' t' l₀' rest', Label.task o = .task o' ∧
        l.nextTask o' = some (t', l₀') ∧ t'.call = i ∧ t'.result = r ∧ t'.todo = st :: rest' :=
    (hw.resume ht htodo hl hsub).imp_right fun h => ⟨o, t, l₀, rest, rfl, ht, h⟩
  cases h with
  | other | request | move | draw | acquire | unencodable | receive | attach => exact .inl hw
  | giveBack =>
    left
    rw [WillDo, goto, modify, release_tasks]
    exact hw
  | insert _ _ hins =>
    obtain ⟨-, -, rfl⟩ := insert_ok hins
    exact .inl hw
  | abandon => exact .inl hcons
  | take _ ht =>
    obtain ⟨j, k, -, -, -, rfl⟩ := takeResponse_some ht
    exact .inl hcons
  | timeout => exact .inl hcons
  | sweep err =>
    left
    refine (failAll_induction (P := fun l' => l'.WillDo i r st) err hw ?_).1
    rintro l' sequence j ⟨t', ht', hrest⟩ -
    exact ⟨t', List.mem_cons_of_mem _ ht', hrest⟩
  | finish ht htodo hf =>
    obtain ⟨kt, -, ⟨-, rfl⟩ | ⟨-, rfl⟩⟩ := finish_some hf
    · exact hnext ht htodo rfl fun hs => (List.mem_erase_of_ne hst).mpr hs
    · refine hnext ht htodo (by rfl) fun hs => ?_
      split
      · exact List.mem_cons_of_mem _ hs
      · exact hs
  | release ht htodo => exact hnext ht htodo (by rw [modify, release_tasks]) id
  | send ht htodo hs =>
    obtain ⟨kt, -, -, rfl⟩ := send_some hs
    exact hnext ht htodo (by rfl) id
  | stage ht htodo => exact hnext ht htodo (by rfl) id

theorem Step.willSend (h : l.Step c label l') (hw : l.WillSend i r) :
    l'.WillSend i r ∨ ∃ k, l'.calls[i]? = some k ∧ k.done = [r] := by
  rcases h.willDo (show Stage.send ≠ .release by decide) hw with hw' | ⟨o, t, l₀, rest, rfl, ht, hi, hr, htodo⟩
  · exact .inl hw'
  · have hother {t' : Task} {l₁ : Ledger} {st : Stage} {rest' : List Stage} (ht' : l.nextTask o = some (t', l₁))
        (htodo' : t'.todo = st :: rest') : st = .send := by
      rw [ht] at ht'
      cases ht'
      rw [htodo] at htodo'
      exact (List.cons.inj htodo').1.symm
    cases h with
    | other => exact .inl hw
    | finish ht' htodo' => cases hother ht' htodo'
    | release ht' htodo' => cases hother ht' htodo'
    | stage ht' htodo' _ _ hne => exact absurd (hother ht' htodo') hne
    | send ht' _ hs =>
      right
      rw [ht] at ht'
      cases ht'
      obtain ⟨tasks, rfl, -⟩ := nextTask_eq ht
      obtain ⟨kt, hkt, -, rfl⟩ := send_some hs
      refine ⟨_, by rw [resume_calls]; exact calls_modify (i := i) (hi ▸ hkt) t.call _, ?_⟩
      rw [if_pos hi, hr]

end Todo

/-! ## Delivery -/

/-- The call is going to take what its completion channel holds. -/
def Awaits (registry : Registry) (k : Call) : Prop := k.phase.registered ∧ (k.phase = .encoding → k.encodes registry)

/-- The response is what the call comes to. -/
def Delivers (registry : Registry) (l : Ledger) (i : Nat) (pdu : DecodedPDU) : Prop :=
  ∃ k, l.calls[i]? = some k ∧
    ((Awaits registry k ∧ (k.done = [.ok pdu] ∨ l.WillSend i (.ok pdu))) ∨ k.phase = .returned (.ok pdu))

theorem Delivers.returned {registry : Registry} {pdu : DecodedPDU} {r : Result} (h : l.Delivers registry i pdu)
    (hk : l.calls[i]? = some k) (hp : k.phase = .returned r) : r = .ok pdu := by
  obtain ⟨k', hk', ⟨⟨hr, -⟩, -⟩ | hp'⟩ := h
  · rw [hk] at hk'
    cases hk'
    rw [hp] at hr
    cases hr
  · rw [hk] at hk'
    cases hk'
    rw [hp] at hp'
    cases hp'
    rfl

/-- A caller that gives up finds its own request under its sequence number, or none. -/
def OwnEntry (l : Ledger) (label : Label) : Prop :=
  ∀ i arm k j, label = .call i arm → l.calls[i]? = some k → k.phase.registered → l.pending.lookup k.sequence = some j → j = i

/-- A request that is answered before its caller has encoded it can be encoded. -/
def Encodable (c : Config) (l : Ledger) (label : Label) : Prop :=
  ∀ frame pdu i k, label = .frame frame → decodePDU c.registry frame = .ok pdu →
    l.pending.lookup pdu.header.sequenceNumber = some i → l.calls[i]? = some k →
    pdu.header.commandID = responseID k.command ∨ pdu.header.commandID = commandGenericNACK → k.phase = .encoding →
    k.encodes c.registry

theorem early_not_registered {q : Phase} (h : q.early) : q.registered = false := by
  cases q <;> first | rfl | cases h

theorem entries_pos {sequence : SequenceNumber} (h : (sequence, i) ∈ l.pending) : 0 < l.entries i :=
  List.countP_pos_iff.mpr ⟨_, h, by simp⟩

theorem WillSend.pos {r : Result} (h : l.WillSend i r) : 0 < l.tasksWith i .send := by
  obtain ⟨t, ht, hi, -, hs⟩ := h
  exact List.countP_pos_iff.mpr ⟨t, ht, by simp [hi, hs]⟩

theorem Conserved.onItsWay {r : Result} (hc : l.Conserved c.windowSize c.maxPending) (hk : l.calls[i]? = some k)
    (h : k.done = [r] ∨ l.WillSend i r) : l.entries i = 0 ∧ ∀ r' rs, k.done = r' :: rs → r' = r := by
  have hc := hc.call hk
  have h1 := hc.entries
  have h2 := hc.once
  have h3 := hc.sent
  have h4 := hc.done
  rcases h with hd | hw
  · rw [hd, List.length_singleton] at h4
    refine ⟨by omega, fun r' rs hd' => ?_⟩
    rw [hd] at hd'
    cases hd'
    rfl
  · have := hw.pos
    refine ⟨by omega, fun r' rs hd' => ?_⟩
    rw [hd', List.length_cons] at h4
    omega

theorem Moves.awaits {q : Phase} (h : Moves k.phase q) (hr : k.phase.registered) :
    Awaits c.registry { k with phase := q } := by
  refine ⟨h.registered.trans hr, fun he => ?_⟩
  have hq := h.encoding
  rw [show q = .encoding from he] at hq
  cases hq

theorem CallStep.awaits {k' : Call} {r : Result} (h : CallStep c l l' label i k k')
    (hc : l.Conserved c.windowSize c.maxPending) (hk : l.calls[i]? = some k) (hown : l.OwnEntry label)
    (ha : Awaits c.registry k) (hr : k.done = [r] ∨ l.WillSend i r) :
    (Awaits c.registry k' ∧ (k.done = [r] → k'.done = [r])) ∨ k'.phase = .returned r := by
  obtain ⟨hent, hdone⟩ := hc.onItsWay hk hr
  cases h with
  | same hs =>
    left
    rw [hs]
    exact ⟨ha, id⟩
  | move hq => exact .inl ⟨hq.awaits ha.1, id⟩
  | prepare he =>
    have := early_not_registered he
    rw [ha.1] at this
    cases this
  | insert hp =>
    have := ha.1
    rw [hp] at this
    cases this
  | leave hl _ _ hcause _ =>
    rcases hcause with ⟨hp, hn⟩ | ⟨j, hj⟩
    · exact absurd (ha.2 hp) hn
    · -- the request is not in the table any more, so what was found is another's
      obtain rfl := hown i _ k j hl hk ha.1 hj
      have := entries_pos (mem_of_lookup hj)
      omega
  | receive _ _ hd => exact .inr (by rw [hdone _ _ hd])
  | send hd => exact .inl ⟨ha, fun h => by rw [hd] at h; cases h⟩

/-- **A response that is to reach a call reaches it**, whatever the other goroutines do. -/
theorem Delivers.step {pdu : DecodedPDU} (h : l.Delivers c.registry i pdu) (hs : l.Step c label l')
    (hc : l.Conserved c.windowSize c.maxPending) (hown : l.OwnEntry label) : l'.Delivers c.registry i pdu := by
  obtain ⟨k, hk, h⟩ := h
  obtain ⟨k', hk', hstep⟩ := hs.call hc hk
  refine ⟨k', hk', ?_⟩
  rcases h with ⟨ha, hr⟩ | hp
  · rcases hstep.awaits hc hk hown ha hr with ⟨ha', hd⟩ | hp'
    · left
      refine ⟨ha', ?_⟩
      rcases hr with hr | hw
      · exact .inl (hd hr)
      · rcases hs.willSend hw with hw' | ⟨k'', hk'', hd'⟩
        · exact .inr hw'
        · rw [hk'] at hk''
          cases hk''
          exact .inl hd'
    · exact .inr hp'
  · -- a call that has returned takes no step
    right
    cases hstep with
    | same hs => rw [hs]; exact hp
    | move hq => have := hq.running; rw [hp] at this; cases this
    | prepare he => rw [hp] at he; cases he
    | insert hi => rw [hp] at hi; cases hi
    | leave _ hr => rw [hp] at hr; cases hr
    | receive _ hr => rw [hp] at hr; cases hr
    | send => exact hp

/-! ## The invariant -/

/-- A request in the table belongs to a call that waits for it under its sequence number, and a response that has been
taken is delivered. -/
structure Correlated (registry : Registry) (l : Ledger) : Prop where
  entry : ∀ {sequence i}, (sequence, i) ∈ l.pending → ∃ k, l.calls[i]? = some k ∧ k.sequence = sequence ∧ k.phase.registered
  task : ∀ {t pdu}, t ∈ l.tasks → t.result = .ok pdu → .send ∈ t.todo → l.Delivers registry t.call pdu

theorem correlated_empty (registry : Registry) : Correlated registry {} where
  entry h := absurd h List.not_mem_nil
  task h := absurd h List.not_mem_nil

theorem Step.mem_pending {e : SequenceNumber × Nat} (h : l.Step c label l') (he : e ∈ l'.pending) :
    e ∈ l.pending ∨ ∃ i k n, label = .call i .go ∧ l.calls[i]? = some k ∧ k.phase = .inserting n ∧ e = (k.sequence, i) ∧
      l' = (l.inserted k.sequence i).goto i .encoding := by
  cases h.table with
  | same _ heq => exact .inl (heq ▸ he)
  | @insert i k n hk hp heq =>
    subst heq
    rcases List.mem_cons.mp he with rfl | he
    · exact .inr ⟨i, k, n, rfl, hk, hp, rfl, rfl⟩
    · exact .inl he
  | abandon _ _ _ heq | take _ heq | timeout _ heq =>
    subst heq
    exact .inl (List.mem_of_mem_eraseP he)
  | sweep heq =>
    rw [heq] at he
    exact absurd he List.not_mem_nil

/-- A request in the table belongs to a call that waits for it under its sequence number. -/
def Entered (l : Ledger) : Prop :=
  ∀ {sequence i}, (sequence, i) ∈ l.pending → ∃ k, l.calls[i]? = some k ∧ k.sequence = sequence ∧ k.phase.registered

theorem Entered.step (h : l.Entered) (hs : l.Step c label l') (hc : l.Conserved c.windowSize c.maxPending) :
    l'.Entered := by
  intro sequence i he
  rcases hs.mem_pending he with hold | ⟨j, k, n, -, hk, -, heq, rfl⟩
  · obtain ⟨k, hk, rfl, hr⟩ := h hold
    obtain ⟨k', hk', hstep⟩ := hs.call hc hk
    refine ⟨k', hk', ?_⟩
    cases hstep with
    | same hs => rw [hs]; exact ⟨rfl, hr⟩
    | move hq => exact ⟨rfl, hq.registered.trans hr⟩
    | prepare he =>
      rw [early_not_registered he] at hr
      cases hr
    | insert hp => rw [hp] at hr; cases hr
    | leave _ _ hgone =>
      rw [List.lookup_eq_none_iff] at hgone
      exact absurd rfl (bne_iff_ne.mp (hgone _ he))
    | receive _ _ hd =>
      have h1 := hc.call hk
      have h2 := h1.done
      have h3 := h1.sent
      have h4 := h1.entries
      have h5 := h1.once
      have h6 := entries_pos hold
      rw [hd, List.length_cons] at h2
      omega
    | send => exact ⟨rfl, hr⟩
  · cases heq
    refine ⟨_, by rw [goto_calls, inserted_calls, List.modify_modify_eq]; exact calls_modify hk _ _, ?_⟩
    rw [if_pos rfl]
    exact ⟨rfl, rfl⟩

/-- **The step lemma.** -/
theorem Correlated.step (h : l.Correlated c.registry) (hs : l.Step c label l')
    (hc : l.Conserved c.windowSize c.maxPending) (hown : l.OwnEntry label) (henc : Encodable c l label) :
    l'.Correlated c.registry := by
  refine ⟨fun he => Entered.step h.entry hs hc he, fun {t' pdu} ht' hr hsend => ?_⟩
  rcases hs.mem_task ht' with ⟨t, ht, hcall, hres, htodo⟩ | ⟨err, herr⟩ |
    ⟨frame, pdu', i, k, rfl, hd, hi, hk, hid, rfl⟩
  · rw [hcall]
    exact (h.task ht (hres ▸ hr) ((htodo _ hsend).resolve_right (by decide))).step hs hc hown
  · rw [herr] at hr
    cases hr
  · -- the response has just been taken, out of the hands of a call that waits for it
    cases hr
    obtain ⟨k₀, hk₀, -, hreg⟩ := h.entry (mem_of_lookup hi)
    rw [hk] at hk₀
    cases hk₀
    obtain ⟨k', hk', hstep⟩ := hs.call hc hk
    have ha : Awaits c.registry k := ⟨hreg, fun he => henc frame pdu i k rfl hd hi hk hid he⟩
    refine ⟨k', hk', .inl ⟨?_, .inr ⟨_, ht', rfl, rfl, hsend⟩⟩⟩
    cases hstep with
    | same hs => rw [hs]; exact ha
    | move hq => exact hq.awaits hreg
    | prepare he => rw [early_not_registered he] at hreg; cases hreg
    | insert hp => rw [hp] at hreg; cases hreg
    | leave hl => cases hl
    | receive hl => cases hl
    | send => exact ha

end Ledger

end GoSmpp.Session
