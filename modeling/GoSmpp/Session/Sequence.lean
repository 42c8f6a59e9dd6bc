import GoSmpp.Session.Calls

/-!
# The sequence numbers a session draws

* `next`: the generator goes round 1 to 0x7fffffff, so that numbers drawn in fewer steps than that differ
  (`iterate_next_inj`).
* `draws`: the steps that draw a number. `step_sequence`: no other step moves the generator.
-/

namespace GoSmpp.Session
open Lib Protocol Codec

/-! ## The generator -/

/-- `sequenceGenerator.Next` on the value of the generator. -/
def next (v : UInt32) : UInt32 := if sequenceOutboundMax ≤ v || v + 1 == 0 then sequenceMin else v + 1

theorem nextSequence_eq (l : Ledger) : l.nextSequence = next l.sequence := rfl

theorem toNat_next (v : UInt32) : (next v).toNat = if 0x7fffffff ≤ v.toNat then 1 else v.toNat + 1 := by
  have hmax : sequenceOutboundMax ≤ v ↔ 0x7fffffff ≤ v.toNat := UInt32.le_iff_toNat_le
  unfold next
  by_cases h : 0x7fffffff ≤ v.toNat
  · rw [if_pos (by simp [hmax.mpr h]), if_pos h]
    rfl
  · have hne : ¬ (v + 1 == 0) = true := by
      intro h0
      have := congrArg UInt32.toNat (beq_iff_eq.mp h0)
      rw [UInt32.toNat_add] at this
      simp at this
      omega
    rw [if_neg (by simp [hmax, h, hne]), if_neg h, UInt32.toNat_add]
    simp
    omega

theorem toNat_iterate_next (v : UInt32) (n : Nat) :
    (next^[n + 1] v).toNat = ((if 0x7fffffff ≤ v.toNat then 0 else v.toNat) + n) % 0x7fffffff + 1 := by
  induction n with
  | zero =>
    rw [Function.iterate_one, toNat_next]
    split <;> omega
  | succ n ih =>
    rw [Function.iterate_succ_apply', toNat_next, ih]
    split <;> split <;> omega

theorem iterate_next_inj {v : UInt32} {a b : Nat} (ha : 0 < a) (hb : 0 < b) (ha' : a ≤ 0x7fffffff) (hb' : b ≤ 0x7fffffff)
    (h : next^[a] v = next^[b] v) : a = b := by
  obtain ⟨a, rfl⟩ := Nat.exists_eq_add_of_lt ha
  obtain ⟨b, rfl⟩ := Nat.exists_eq_add_of_lt hb
  have h := congrArg UInt32.toNat h
  rw [Nat.zero_add, Nat.zero_add, toNat_iterate_next, toNat_iterate_next] at h
  omega

/-! ## Who draws -/

def draws (s : Session) : Label → Bool
  | .call i .go => s.ledger.calls[i]?.any (·.phase.atDraw)
  | .send i .go => s.sends[i]?.any (·.phase == .encoding)
  | _ => false

namespace Ledger

@[simp] theorem release_sequence (l : Ledger) : l.release.sequence = l.sequence := by
  unfold Ledger.release
  split <;> rfl

@[simp] theorem resume_sequence (l : Ledger) (t : Task) (todo : List Stage) : (l.resume t todo).sequence = l.sequence := by
  unfold Ledger.resume
  split <;> rfl

theorem nextTask_sequence {l l₀ : Ledger} {o : Owner} {t : Task} (h : l.nextTask o = some (t, l₀)) :
    l₀.sequence = l.sequence := by
  obtain ⟨tasks, rfl, -⟩ := nextTask_eq h
  rfl

end Ledger

section Draws
variable {s s' : Session} {label : Label} {i : Nat} {k : Call} {arm : Arm}

theorem callStep_sequence (h : s.callStep i k arm = some s') :
    s'.ledger.sequence = if arm = .go ∧ k.phase.atDraw then s.ledger.nextSequence else s.ledger.sequence := by
  obtain ⟨t, q, hn, rfl⟩ := callStep_next h
  show t.ledger.sequence = _
  have hkeep {l : Ledger} (hp : k.phase.atDraw = false) (hl : l.sequence = s.ledger.sequence) :
      l.sequence = if arm = .go ∧ k.phase.atDraw then s.ledger.nextSequence else s.ledger.sequence := by
    rw [hl, hp, if_neg (fun h => Bool.noConfusion h.2)]
  cases hn with
  | draw hp => rw [if_pos ⟨rfl, by rw [hp]; rfl⟩]; rfl
  | refuse hp | check hp | closed hp | enter hp | await hp | full hp | slotCtx hp | slotDone hp | beginError hp | begin hp
  | insert hp | retry hp | exhausted hp | overfull hp | encode hp | unencodable hp | enqueue hp | admitDone hp | cancel hp =>
    exact hkeep (by rw [hp]; rfl) rfl
  | acquire hp | receive hp => exact hkeep (by rcases hp with hp | hp <;> rw [hp] <;> rfl) rfl
  | overtaken hp => exact hkeep (by rcases hp with hp | ⟨frame, hp⟩ <;> rw [hp] <;> rfl) rfl
  | giveUp hp => exact hkeep (by rcases hp with ⟨hp, -⟩ | ⟨hp | ⟨frame, hp⟩, -⟩ <;> rw [hp] <;> rfl) rfl
  | release hp => exact hkeep (by rw [hp]; rfl) (Ledger.release_sequence _)

theorem taskStep_sequence {o : Owner} (h : s.taskStep o = some s') : s'.ledger.sequence = s.ledger.sequence := by
  obtain ⟨t, l, k, ht, -, hm⟩ := taskStep_move h
  have hl := Ledger.nextTask_sequence ht
  cases hm with
  | finish _ hf =>
    obtain ⟨k, -, ⟨-, rfl⟩ | ⟨-, rfl⟩⟩ := Ledger.finish_some hf <;> rw [Ledger.resume_sequence] <;> exact hl
  | release => rw [Ledger.resume_sequence, Ledger.modify, Ledger.release_sequence]; exact hl
  | send _ hs =>
    obtain ⟨k, -, -, rfl⟩ := Ledger.send_some hs
    rw [Ledger.resume_sequence]
    exact hl
  | close => rw [terminate_ledger, Ledger.resume_sequence]; exact hl
  | unschedule | complete | negotiate | stay | cancel => rw [Ledger.resume_sequence]; exact hl

theorem sendStep_sequence {k : Send} (h : s.sendStep i k arm = some s') :
    s'.ledger.sequence = if arm = .go ∧ k.phase = .encoding then s.ledger.nextSequence else s.ledger.sequence := by
  obtain ⟨t, q, hn, rfl⟩ := sendStep_next h
  cases hn with
  | encode hp | unencodable hp => rw [if_pos ⟨rfl, hp⟩]; rfl
  | refuse hp | closed hp | enter hp | beginError hp | begin hp | enqueue hp | admitCtx hp | admitDone hp | dispatched hp
  | waitDone hp | cancel hp => rw [hp, if_neg (fun h => by cases h.2)]; rfl

theorem processFrame_sequence (s : Session) (frame : Octets) :
    (s.processFrame frame).ledger.sequence = s.ledger.sequence := by
  unfold processFrame
  split
  · split
    · rfl
    · split <;> rfl
  · split
    · split
      · next h => obtain ⟨i, k, -, -, -, rfl⟩ := Ledger.takeResponse_some h; rfl
      · rfl
    · rfl

theorem txStep_sequence {choice : TxChoice} (h : s.txStep choice = some s') :
    s'.ledger.sequence = s.ledger.sequence := by
  cases txStep_move h <;> rfl

theorem fire_sequence (h : s.fire = some s') : s'.ledger.sequence = s.ledger.sequence := by
  cases fire_move h <;> rfl

theorem termStep_sequence (h : s.termStep = some s') : s'.ledger.sequence = s.ledger.sequence := by
  cases termStep_move h with
  | sweep =>
    refine (Ledger.failAll_induction (P := fun l => l.sequence = s.ledger.sequence) _ rfl ?_).1
    intro l _ _ hl _
    exact hl
  | close | done | clear => rfl

/-- **No step moves the generator but those that draw a number.** -/
theorem step_sequence (h : s.step label = some s') :
    s'.ledger.sequence = if s.draws label then next s.ledger.sequence else s.ledger.sequence := by
  cases label with
  | request command body waitWindow => cases h; rfl
  | call i arm =>
    obtain ⟨k, hk, -, h⟩ := step_call h
    rw [callStep_sequence h]
    cases arm with
    | go => simp [draws, hk, nextSequence_eq]
    | ctx | done => simp [draws]
  | task o => exact taskStep_sequence h
  | sendOneWay command body => cases h; rfl
  | send i arm =>
    obtain ⟨k, hk, h⟩ := step_send h
    rw [sendStep_sequence h]
    cases arm with
    | go => simp [draws, hk, nextSequence_eq]
    | ctx | done => simp [draws]
  | frame frame => obtain ⟨-, -, rfl⟩ := step_frame h; exact s.processFrame_sequence frame
  | rx choice => rw [rxStep_scope h]; rfl
  | tx choice => exact txStep_sequence h
  | expire call => obtain ⟨item, -, h⟩ := Option.bind_eq_some_iff.mp h; cases h; rfl
  | fire => exact fire_sequence h
  | terminate cause => cases h; rw [terminate_ledger]; rfl
  | term => exact termStep_sequence h

end Draws

end GoSmpp.Session
