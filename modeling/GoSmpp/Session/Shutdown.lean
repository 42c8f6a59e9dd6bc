import GoSmpp.Session.Conservation

/-!
# Requests and the end of a session

`terminate` closes `done` and then sweeps the pending table once. `Session.request` looks at `done` before it takes a slot
and inserts its request a few steps later, without looking again.

* `run_swept`: if no request is inserted after the sweep, then after it the table is empty for good, and whoever waits for
  a result has one in the channel or on its way.
* `orphanedBind`: a request inserted after the sweep stays in the table, and its caller waits for a result that nobody is
  going to send.
-/

namespace GoSmpp.Session
open Lib Protocol Codec

/-- `pending.failAll` has emptied the table. -/
def Termination.swept : Termination → Bool
  | .clearing | .finished => true
  | .running | .closing | .ending | .sweeping => false

def Phase.atInsert : Phase → Bool
  | .inserting _ => true
  | _ => false

/-- The step is a `pending.insert` after the sweep. -/
def insertsLate (s : Session) : Label → Bool
  | .call i .go => s.termination.swept && s.ledger.calls[i]?.any (·.phase.atInsert)
  | _ => false

/-- Requests are inserted before the sweep only. -/
abbrev InsertsInTime (s : Session) (label : Label) : Prop := s.insertsLate label = false

namespace Ledger
variable {c : Config} {l l' : Ledger} {label : Label}

theorem Step.pending_nil (h : l.Step c label l') (hl : l.pending = [])
    (hi : ∀ i, label = .call i .go → (l.calls[i]?.any (·.phase.atInsert)) = false) : l'.pending = [] := by
  have hnone {sequence : SequenceNumber} {i : Nat} (h : l.pending.lookup sequence = some i) : False := by
    rw [hl] at h
    cases h
  cases h.table with
  | same _ heq => exact heq.trans hl
  | @insert i k n hk hp =>
    have := hi i rfl
    rw [hk, Option.any_some, hp] at this
    cases this
  | abandon _ _ hj | take hj | timeout hj => exact (hnone hj).elim
  | sweep heq => exact heq

end Ledger

section Swept
variable {config : Config} {role : Role} {s s' : Session} {label : Label}

theorem termStep_swept (h : s.termStep = some s') (hs : s'.termination.swept) :
    s'.ledger.pending = [] ∨ (s.termination.swept ∧ s'.ledger = s.ledger) := by
  cases termStep_move h with
  | close | done => cases hs
  | sweep => exact .inl (Ledger.failAll_induction (P := fun _ => True) _ trivial fun _ _ _ _ _ => trivial).2
  | clear hterm => exact .inr ⟨by rw [hterm]; rfl, rfl⟩

/-- The step lemma: the table is empty once it has been swept. -/
theorem step_swept (hok : InsertsInTime s label) (h : s.step label = some s')
    (hs : s.termination.swept → s.ledger.pending = []) (hs' : s'.termination.swept) : s'.ledger.pending = [] := by
  have hstep := step_ledger h
  rcases step_termination h with ht | ⟨-, ht⟩ | ⟨-, ht⟩
  · rw [ht] at hs'
    refine hstep.pending_nil (hs hs') ?_
    rintro i rfl
    have hany : (s.termination.swept && s.ledger.calls[i]?.any (·.phase.atInsert)) = false := hok
    rwa [hs', Bool.true_and] at hany
  · rw [ht] at hs'
    cases hs'
  · rcases termStep_swept ht hs' with hp | ⟨hsw, hl⟩
    · exact hp
    · rw [hl]
      exact hs hsw

/-- **No request survives a session that it was inserted in before the sweep.** -/
theorem run_swept (h : sessions.Run InsertsInTime (new config role) s) (hs : s.termination.swept) :
    s.ledger.pending = [] ∧ ∀ i k, s.ledger.calls[i]? = some k → k.phase.registered →
      k.done ≠ [] ∨ ∃ t ∈ s.ledger.tasks, t.call = i ∧ .send ∈ t.todo := by
  have hempty : s.ledger.pending = [] := by
    refine h.invariant (P := fun s => s.termination.swept → s.ledger.pending = []) ?_ nofun hs
    exact fun s label s' hok hst hs hs' => step_swept hok hst hs hs'
  refine ⟨hempty, fun i k hk hr => ?_⟩
  have hc := (run_conserved h).call hk
  have hent : s.ledger.entries i = 0 := by rw [Ledger.entries, hempty]; rfl
  by_cases hd : k.done = []
  · right
    -- inserted and no longer in the table: removed, and the result has not been sent
    have hpos : 0 < s.ledger.tasksWith i .send := by
      obtain ⟨h1, h2⟩ := hc.registered hr
      have h3 := hc.entries
      have h4 := hc.sent
      rw [hd, List.length_nil] at h2
      omega
    obtain ⟨t, ht, hp⟩ := List.countP_pos_iff.mp hpos
    exact ⟨t, ht, by simpa using hp⟩
  · exact .inl hd

theorem run_swept_lostBind :
    (sessions.after InsertsInTime (new {} .esme) lostBind).termination = .clearing ∧
    (sessions.after InsertsInTime (new {} .esme) lostBind).ledger.pending = [] ∧
    ∃ t ∈ (sessions.after InsertsInTime (new {} .esme) lostBind).ledger.tasks, t.call = 0 ∧ .send ∈ t.todo := by
  obtain ⟨hp, hw⟩ := run_swept (System.run_after sessions InsertsInTime (new {} .esme) lostBind (by decide +kernel)) rfl
  exact ⟨rfl, hp, (hw 0 _ rfl rfl).resolve_left (fun h => h rfl)⟩

/-- A bind that has drawn its sequence number when the session is closed, inserts its request after that, and finds `done`
closed when it would queue the frame. -/
def orphanedBind : List Label :=
  .request commandBindTransceiver bindTransceiverBody true :: List.replicate 5 (.call 0 .go) ++
    [.terminate (.sentinel .sessionClosed), .term, .term, .term, .term, .call 0 .go, .call 0 .go, .call 0 .done]

/-- The bind is in the table of a session whose `terminate` has returned, its caller waits in `waitCompleted`, and no
goroutine holds the request or a deadline for it. -/
theorem orphanedBind_blocked : ∃ s, sessions.Run anyStep (new {} .esme) s ∧ s.termination = .finished ∧
    s.ledger.pending = [(1, 0)] ∧ (s.ledger.calls[0]?.map fun k => (k.phase, k.done)) = some (.blocked, []) ∧
    s.ledger.tasks = [] ∧ s.ledger.heap = [] ∧ s.expired = [] ∧ s.queue = [] :=
  ⟨_, System.run_after sessions anyStep (new {} .esme) orphanedBind (by decide +kernel), rfl, rfl, rfl, rfl, rfl, rfl, rfl⟩

end Swept

end GoSmpp.Session
