import GoSmpp.Session.Delivery

/-!
# The steps of a caller

* `step_caller`: only the caller itself writes the phase and the sequence number of its call.
* `step_sender`: the same for `SendOneWay`.
-/

namespace GoSmpp.Session
open Lib Protocol Codec

/-! ## `Session.request` -/

def Phase.atDraw : Phase → Bool
  | .drawing _ => true
  | _ => false

/-- What nobody but the caller writes of a call. -/
structure Call.Own (k : Call) (command : CommandID) (body : Value) (phase : Phase) (sequence : SequenceNumber) : Prop where
  command : k.command = command
  body : k.body = body
  phase : k.phase = phase
  sequence : k.sequence = sequence

abbrev Call.Keeps (k' k : Call) : Prop := k'.Own k.command k.body k.phase k.sequence

theorem Call.keeps (k : Call) : k.Keeps k := ⟨rfl, rfl, rfl, rfl⟩

theorem SameCall.keeps {k k' : Call} (h : SameCall k k') : k'.Keeps k := by
  rw [h]
  exact ⟨rfl, rfl, rfl, rfl⟩

section Next
variable {s s' t : Session} {i : Nat} {k : Call} {arm : Arm} {q : Phase}

theorem goto_own {k₁ k' : Call} (hk : t.ledger.calls[i]? = some k₁) (hk' : (t.goto i q).ledger.calls[i]? = some k') :
    k'.Own k₁.command k₁.body q k₁.sequence := by
  have hgoto : (t.goto i q).ledger.calls[i]? = some { k₁ with phase := q } := by
    rw [show (t.goto i q).ledger.calls = t.ledger.calls.modify i fun k => { k with phase := q } from rfl,
      Ledger.calls_modify hk, if_pos rfl]
  rw [hgoto] at hk'
  cases hk'
  exact ⟨rfl, rfl, rfl, rfl⟩

theorem CallNext.own {k' : Call} (h : CallNext s i k arm t q) (hk : s.ledger.calls[i]? = some k)
    (hk' : (t.goto i q).ledger.calls[i]? = some k') :
    k'.Own k.command k.body q (if k.phase.atDraw then s.ledger.nextSequence else k.sequence) := by
  have hkeep (hp : k.phase.atDraw = false) {k₁ : Call} (hk₁ : t.ledger.calls[i]? = some k₁) (hs : k₁.Keeps k) :
      k'.Own k.command k.body q (if k.phase.atDraw then s.ledger.nextSequence else k.sequence) := by
    have ho := goto_own hk₁ hk'
    rw [hp]
    rwa [hs.command, hs.body, hs.sequence] at ho
  cases h with
  | refuse hp | check hp | closed hp | enter hp | await hp | full hp | slotCtx hp | slotDone hp | beginError hp | begin hp
  | retry hp | exhausted hp | overfull hp | encode hp | unencodable hp | enqueue hp | admitDone hp | cancel hp =>
    exact hkeep (by rw [hp]; rfl) hk k.keeps
  | acquire hp => exact hkeep (by rcases hp with hp | hp <;> rw [hp] <;> rfl) hk k.keeps
  | overtaken hp => exact hkeep (by rcases hp with hp | ⟨frame, hp⟩ <;> rw [hp] <;> rfl) hk k.keeps
  | draw hp =>
    have hk₁ := Ledger.calls_modify hk i fun k => { k with sequence := s.ledger.nextSequence }
    rw [if_pos rfl] at hk₁
    rw [hp]
    exact goto_own hk₁ hk'
  | insert hp =>
    have hk₁ := Ledger.calls_modify hk i fun k => { k with inserted := k.inserted + 1 }
    exact hkeep (by rw [hp]; rfl) hk₁ (by rw [if_pos rfl]; exact ⟨rfl, rfl, rfl, rfl⟩)
  | giveUp hp =>
    obtain ⟨k₁, hk₁, hs⟩ := Ledger.remove_sameCall k.sequence _ hk
    refine hkeep ?_ hk₁ hs.keeps
    rcases hp with ⟨hp, -⟩ | ⟨hp | ⟨frame, hp⟩, -⟩ <;> rw [hp] <;> rfl
  | receive hp =>
    have hk₁ := Ledger.calls_modify hk i fun k => { k with done := [] }
    exact hkeep (by rcases hp with hp | hp <;> rw [hp] <;> rfl) hk₁ (by rw [if_pos rfl]; exact ⟨rfl, rfl, rfl, rfl⟩)
  | release hp => exact hkeep (by rw [hp]; rfl) (by rw [Ledger.release_calls]; exact hk) k.keeps

theorem requestError_none (h : s.requestError k = none) :
    isResponse k.command = false ∧ isOneWayCommand k.command = false := by
  unfold requestError at h
  split at h
  · cases h
  · next hc => exact Bool.or_eq_false_iff.mp (eq_false_of_ne_true hc)

theorem CallNext.passed {P : Prop} (h : CallNext s i k arm t q) (hcheck : s.requestError k = none → P)
    (hk : k.phase = .checking ∨ k.phase.over ∨ P) : q.over ∨ P := by
  have hpassed {p : Phase} (hp : k.phase = p) (hc : p ≠ .checking) (ho : p.over = false) : P := by
    rcases hk with hk | hk | hk
    · exact absurd (hp.symm.trans hk) hc
    · rw [hp, ho] at hk; cases hk
    · exact hk
  cases h with
  | refuse | closed | full | slotCtx | slotDone | receive | release => exact .inl rfl
  | check _ he => exact .inr (hcheck he)
  | enter hp | await hp | beginError hp | begin hp | draw hp | insert hp | retry hp | exhausted hp | overfull hp | encode hp
  | unencodable hp | enqueue hp | admitDone hp | cancel hp => exact .inr (hpassed hp nofun rfl)
  | acquire hp => rcases hp with hp | hp <;> exact .inr (hpassed hp nofun rfl)
  | overtaken hp => rcases hp with hp | ⟨frame, hp⟩ <;> exact .inr (hpassed hp nofun rfl)
  | giveUp hp => rcases hp with ⟨hp, -⟩ | ⟨hp | ⟨frame, hp⟩, -⟩ <;> exact .inr (hpassed hp nofun rfl)

end Next

/-! ## The other goroutines -/

namespace Ledger
variable {c : Config} {l l' : Ledger} {label : Label} {i : Nat} {k k' : Call}

theorem Step.own (h : l.Step c label l') (hk : l.calls[i]? = some k) :
    (∃ arm, label = .call i arm) ∨ ∃ k', l'.calls[i]? = some k' ∧ k'.Keeps k := by
  have hcall {l₁ : Ledger} {j : Nat} {k₁ : Call} {arm : Arm} {f : Call → Call} (hk₁ : l₁.calls[i]? = some k₁)
      (hs : k₁.Keeps k) :
      (∃ arm', Label.call j arm = .call i arm') ∨ ∃ k', (l₁.calls.modify j f)[i]? = some k' ∧ k'.Keeps k := by
    by_cases hj : j = i
    · exact .inl ⟨arm, by rw [hj]⟩
    · exact .inr ⟨k₁, by rw [calls_modify hk₁, if_neg hj], hs⟩
  have hkeep {l₁ : Ledger} {j : Nat} {f : Call → Call} (hl : l₁.calls = l.calls.modify j f) (hf : (f k).Keeps k) :
      ∃ k', l₁.calls[i]? = some k' ∧ k'.Keeps k := by
    refine ⟨_, by rw [hl]; exact calls_modify hk j f, ?_⟩
    split
    · exact hf
    · exact k.keeps
  have hsame {l₁ : Ledger} (hs : ∃ k', l₁.calls[i]? = some k' ∧ SameCall k k') :
      ∃ k', l₁.calls[i]? = some k' ∧ k'.Keeps k := by
    obtain ⟨k', hk', hs⟩ := hs
    exact ⟨k', hk', hs.keeps⟩
  cases h with
  | other => exact .inr ⟨k, hk, k.keeps⟩
  | request => exact .inr ⟨k, getElem?_append_some hk _, k.keeps⟩
  | move | draw | acquire | unencodable | receive => exact hcall hk k.keeps
  | giveBack =>
    rw [goto_calls, release_calls]
    exact hcall hk k.keeps
  | insert _ _ hins =>
    obtain ⟨-, -, rfl⟩ := insert_ok hins
    rw [goto_calls, inserted_calls, List.modify_modify_eq]
    exact hcall hk k.keeps
  | @abandon j kj arm j' err =>
    obtain ⟨k₁, hk₁, hs⟩ := remove_sameCall kj.sequence (errorTask (.caller j) j' err []) hk
    exact hcall hk₁ hs.keeps
  | take _ ht =>
    obtain ⟨j, kj, -, -, -, rfl⟩ := takeResponse_some ht
    exact .inr (hsame (remove_sameCall _ _ hk))
  | timeout => exact .inr (hsame (remove_sameCall _ _ hk))
  | sweep err => exact .inr (hsame (failAll_sameCall err hk))
  | finish ht _ hf =>
    obtain ⟨tasks, rfl, -⟩ := nextTask_eq ht
    obtain ⟨kt, -, ⟨-, rfl⟩ | ⟨-, rfl⟩⟩ := finish_some hf
    · exact .inr ⟨k, by rw [resume_calls]; exact hk, k.keeps⟩
    · exact .inr (hkeep (resume_calls _ _ _) ⟨rfl, rfl, rfl, rfl⟩)
  | @release o t l₀ rest ht _ =>
    obtain ⟨tasks, rfl, -⟩ := nextTask_eq ht
    exact .inr (hkeep (j := t.call) (f := fun k => { k with released := k.released + 1 })
      (by rw [resume_calls, modify_calls, release_calls]) ⟨rfl, rfl, rfl, rfl⟩)
  | send ht _ hs =>
    obtain ⟨tasks, rfl, -⟩ := nextTask_eq ht
    obtain ⟨kt, -, -, rfl⟩ := send_some hs
    exact .inr (hkeep (resume_calls _ _ _) ⟨rfl, rfl, rfl, rfl⟩)
  | stage ht =>
    obtain ⟨tasks, rfl, -⟩ := nextTask_eq ht
    exact .inr ⟨k, by rw [resume_calls]; exact hk, k.keeps⟩
  | attach => exact .inr (hkeep rfl ⟨rfl, rfl, rfl, rfl⟩)

theorem Step.call_of (h : l.Step c label l') (hk' : l'.calls[i]? = some k') : (∃ k, l.calls[i]? = some k) ∨
    ∃ command body waitWindow, label = .request command body waitWindow ∧ k' = { command, body, waitWindow } := by
  have hi : i < l'.calls.length := (List.getElem?_eq_some_iff.mp hk').1
  have hlen (hl : l'.calls.length = l.calls.length) : (∃ k, l.calls[i]? = some k) ∨
      ∃ command body waitWindow, label = .request command body waitWindow ∧ k' = { command, body, waitWindow } :=
    .inl ⟨_, List.getElem?_eq_getElem (hl ▸ hi)⟩
  cases h with
  | other | attach => exact hlen (by first | rfl | exact List.length_modify ..)
  | request command body waitWindow =>
    by_cases hlt : i < l.calls.length
    · exact .inl ⟨_, List.getElem?_eq_getElem hlt⟩
    · rw [List.getElem?_append_right (Nat.not_lt.mp hlt), List.getElem?_singleton] at hk'
      split at hk' <;> cases hk'
      exact .inr ⟨command, body, waitWindow, rfl, rfl⟩
  | move | draw | acquire | unencodable | receive => exact hlen (List.length_modify ..)
  | giveBack => exact hlen (by rw [goto_calls, release_calls, List.length_modify])
  | insert _ _ hins =>
    obtain ⟨-, -, rfl⟩ := insert_ok hins
    exact hlen (by rw [goto_calls, inserted_calls, List.length_modify, List.length_modify])
  | abandon => exact hlen (by rw [goto_calls, List.length_modify]; exact List.length_modify ..)
  | take _ ht =>
    obtain ⟨j, kj, -, -, -, rfl⟩ := takeResponse_some ht
    exact hlen (List.length_modify ..)
  | timeout => exact hlen (List.length_modify ..)
  | sweep err =>
    refine hlen (failAll_induction (P := fun l₁ => l₁.calls.length = l.calls.length) err rfl ?_).1
    intro l₁ sequence j hl _
    rw [← hl]
    exact List.length_modify ..
  | finish ht _ hf =>
    obtain ⟨tasks, rfl, -⟩ := nextTask_eq ht
    obtain ⟨kt, -, ⟨-, rfl⟩ | ⟨-, rfl⟩⟩ := finish_some hf
    · exact hlen (by rw [resume_calls])
    · exact hlen (by rw [resume_calls]; exact List.length_modify ..)
  | release ht _ =>
    obtain ⟨tasks, rfl, -⟩ := nextTask_eq ht
    exact hlen (by rw [resume_calls, modify_calls, release_calls, List.length_modify])
  | send ht _ hs =>
    obtain ⟨tasks, rfl, -⟩ := nextTask_eq ht
    obtain ⟨kt, -, -, rfl⟩ := send_some hs
    exact hlen (by rw [resume_calls]; exact List.length_modify ..)
  | stage ht =>
    obtain ⟨tasks, rfl, -⟩ := nextTask_eq ht
    exact hlen (by rw [resume_calls])

end Ledger

section Callers
variable {s s' : Session} {label : Label} {i : Nat} {k k' : Call}

/-- Nothing of the call's own has changed, or its caller has taken a step. -/
def CallerStep (s : Session) (label : Label) (s' : Session) (i : Nat) (k k' : Call) : Prop :=
  k'.Keeps k ∨ ∃ arm t q, label = .call i arm ∧ CallNext s i k arm t q ∧ s' = t.goto i q ∧
    k'.Own k.command k.body q (if k.phase.atDraw then s.ledger.nextSequence else k.sequence)

theorem step_own (h : s.step label = some s') (hk : s.ledger.calls[i]? = some k) (hk' : s'.ledger.calls[i]? = some k') :
    CallerStep s label s' i k k' := by
  rcases (step_ledger h).own hk with ⟨arm, rfl⟩ | ⟨k₁, hk₁, ho⟩
  · obtain ⟨k₁, hk₁, -, h⟩ := step_call h
    rw [hk] at hk₁
    cases hk₁
    obtain ⟨t, q, hn, rfl⟩ := callStep_next h
    exact .inr ⟨arm, t, q, rfl, hn, rfl, hn.own hk hk'⟩
  · rw [hk'] at hk₁
    cases hk₁
    exact .inl ho

/-- **Where a call is after a step**: it is new, or nothing of its own has changed, or its caller has taken a step. -/
theorem step_caller (h : s.step label = some s') (hk' : s'.ledger.calls[i]? = some k') :
    (∃ command body waitWindow, label = .request command body waitWindow ∧ k' = { command, body, waitWindow }) ∨
    ∃ k, s.ledger.calls[i]? = some k ∧ CallerStep s label s' i k k' := by
  rcases (step_ledger h).call_of hk' with ⟨k, hk⟩ | hnew
  · exact .inr ⟨k, hk, step_own h hk hk'⟩
  · exact .inl hnew

end Callers

/-! ## `SendOneWay` -/

section Sends
variable {s s' : Session} {i j : Nat} {k k' : Send} {arm : Arm} {label : Label}

theorem SendNext.sends {t : Session} {q : SendPhase} (h : SendNext s i k arm t q) : t.sends = s.sends := by
  cases h <;> rfl

/-- Nothing of the call but its channel has changed. -/
def Send.Same (k k' : Send) : Prop := k'.command = k.command ∧ k'.body = k.body ∧ k'.phase = k.phase

theorem dispatch_sends {item : TxItem} {err : Option Err} (hk' : (s.dispatch item err).sends[j]? = some k') :
    ∃ k, s.sends[j]? = some k ∧ k.Same k' := by
  unfold Session.dispatch at hk'
  split at hk'
  · have hk' : (s.sends.modify item.source fun k => { k with dispatched := some err })[j]? = some k' := hk'
    rw [List.getElem?_modify] at hk'
    obtain ⟨k, hk, rfl⟩ := Option.map_eq_some_iff.mp hk'
    refine ⟨k, hk, ?_⟩
    split <;> exact ⟨rfl, rfl, rfl⟩
  · exact ⟨k', hk', rfl, rfl, rfl⟩

theorem foldl_dispatch_sends (batch : List TxItem) (err : Option Err)
    (hk' : (batch.foldl (fun s item => s.dispatch item err) s).sends[j]? = some k') :
    ∃ k, s.sends[j]? = some k ∧ k.Same k' := by
  induction batch generalizing s with
  | nil => exact ⟨k', hk', rfl, rfl, rfl⟩
  | cons item batch ih =>
    obtain ⟨k₁, hk₁, h₁⟩ := ih hk'
    obtain ⟨k, hk, h⟩ := dispatch_sends hk₁
    exact ⟨k, hk, h₁.1.trans h.1, h₁.2.1.trans h.2.1, h₁.2.2.trans h.2.2⟩

theorem txStep_sends {choice : TxChoice} (h : s.txStep choice = some s') (hk' : s'.sends[j]? = some k') :
    ∃ k, s.sends[j]? = some k ∧ k.Same k' := by
  have hsame {k : Send} (hk : s.sends[j]? = some k) : ∃ k₀, s.sends[j]? = some k₀ ∧ k₀.Same k := ⟨k, hk, rfl, rfl, rfl⟩
  cases txStep_move h with
  | fail _ err hsends => exact foldl_dispatch_sends _ (some err) (hsends ▸ hk')
  | dispatched _ _ hsends => exact dispatch_sends (hsends ▸ hk')
  | _ => exact hsame hk'

/-- **Where a call of `SendOneWay` is after a step**: it is new, or it is where it was, or it has taken a step. -/
theorem step_sender (h : s.step label = some s') (hk' : s'.sends[j]? = some k') :
    (∃ command body, label = .sendOneWay command body ∧ k' = { command, body }) ∨
    ∃ k, s.sends[j]? = some k ∧ (k.Same k' ∨ ∃ arm t q, label = .send j arm ∧ SendNext s j k arm t q ∧ s' = t.gotoSend j q ∧
      k' = { k with phase := q }) := by
  have hsame (hs : s'.sends = s.sends) : ∃ k, s.sends[j]? = some k ∧ (k.Same k' ∨ ∃ arm t q, label = .send j arm ∧
      SendNext s j k arm t q ∧ s' = t.gotoSend j q ∧ k' = { k with phase := q }) :=
    ⟨k', hs ▸ hk', .inl ⟨rfl, rfl, rfl⟩⟩
  cases label with
  | request command body waitWindow => cases h; exact .inr (hsame rfl)
  | call i arm => obtain ⟨k, -, -, h⟩ := step_call h; exact .inr (hsame (by rw [callStep_scope h]))
  | task o => exact .inr (hsame (by rw [taskStep_scope h]))
  | sendOneWay command body =>
    cases h
    have hk' : (s.sends ++ [({ command, body } : Send)])[j]? = some k' := hk'
    by_cases hj : j < s.sends.length
    · rw [List.getElem?_append_left hj] at hk'
      exact .inr ⟨k', hk', .inl ⟨rfl, rfl, rfl⟩⟩
    · rw [List.getElem?_append_right (Nat.not_lt.mp hj), List.getElem?_singleton] at hk'
      split at hk' <;> cases hk'
      exact .inl ⟨command, body, rfl, rfl⟩
  | send i arm =>
    obtain ⟨k, hk, h⟩ := step_send h
    obtain ⟨t, q, hn, rfl⟩ := sendStep_next h
    have hk' : (t.sends.modify i fun k => { k with phase := q })[j]? = some k' := hk'
    rw [hn.sends, List.getElem?_modify] at hk'
    obtain ⟨k₀, hk₀, rfl⟩ := Option.map_eq_some_iff.mp hk'
    refine .inr ⟨k₀, hk₀, ?_⟩
    by_cases hij : i = j
    · subst hij
      rw [hk] at hk₀
      cases hk₀
      exact .inr ⟨arm, t, q, rfl, hn, rfl, by rw [if_pos rfl]⟩
    · rw [if_neg hij]
      exact .inl ⟨rfl, rfl, rfl⟩
  | frame frame => obtain ⟨-, -, rfl⟩ := step_frame h; exact .inr (hsame (by rw [processFrame_scope]))
  | rx choice => exact .inr (hsame (by rw [rxStep_scope h]))
  | tx choice =>
    obtain ⟨k, hk, hsame⟩ := txStep_sends h hk'
    exact .inr ⟨k, hk, .inl hsame⟩
  | expire call => obtain ⟨item, -, h⟩ := Option.bind_eq_some_iff.mp h; cases h; exact .inr (hsame rfl)
  | fire => exact .inr (hsame (by rw [fire_scope h]))
  | terminate cause => cases h; exact .inr (hsame (by rw [terminate_eq]))
  | term => exact .inr (hsame (by rw [termStep_scope h]))

end Sends

end GoSmpp.Session
