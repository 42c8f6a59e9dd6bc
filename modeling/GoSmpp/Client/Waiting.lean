import GoSmpp.Client.Ownership

/-!
# Callers of `WaitConnected`

`WaitConnected` reads three fields under `c.mu` and takes the channel `c.notify` with them; it blocks on the channel without the
lock. Whoever changes one of the fields closes that channel and puts a new one in its place before the lock is released.

* `seen`: what a caller reads. `isOpen`: a channel that has not been closed.
* `WaitNext`: what a step of a caller does.
* `step_signals`: what a caller reads changes only together with the channel.
* `step_blocks`: a caller takes the channel where it reads that there is nothing to return.
* `trace_waits`: so a caller is blocked on an open channel only as long as it would read the same again.
-/

namespace GoSmpp.Client
open Lib Protocol

def seen (s : Client) : Option Nat × Bool × Option Err := (s.current, s.closed, s.terminalReconnectErr)

/-- The channel has not been closed by `signalLocked`. -/
def isOpen (s : Client) (channel : Nat) : Bool := s.notify ≤ channel

/-- What a call of `WaitConnected` returns that looks at the client, if it does not wait. -/
def outcome (s : Client) : Option WaitResult :=
  if s.closed then some .unavailable
  else if s.current.isSome then some .connected
  else s.terminalReconnectErr.map .rejected

inductive WaitNext (s : Client) : WaitPhase → WaitChoice → WaitPhase → Prop
  | connected {n} : s.current = some n → s.closed = false → WaitNext s .looking .go (.returned .connected)
  | unavailable : s.closed → WaitNext s .looking .go (.returned .unavailable)
  | rejected {err} : s.current = none → s.closed = false → s.terminalReconnectErr = some err →
      WaitNext s .looking .go (.returned (.rejected err))
  | block : s.seen = (none, false, none) → WaitNext s .looking .go (.blocked s.notify)
  | wake {n} : n < s.notify → WaitNext s (.blocked n) .go .looking
  | contextDone {n} : WaitNext s (.blocked n) .contextDone (.returned .contextDone)
  | cancelled {n} : s.closed → WaitNext s (.blocked n) .closed (.returned .unavailable)

section Steps
variable {s s' t : Client} {label : Label} {i n : Nat}

theorem waitStep_next {p : WaitPhase} {choice : WaitChoice} (h : s.waitStep i p choice = some s') :
    ∃ q, WaitNext s p choice q ∧ s' = { s with waits := s.waits.set i q } := by
  unfold Client.waitStep at h
  simp only at h
  split at h
  case h_1 =>
    split at h
    case isTrue hc =>
      cases h
      rw [Bool.and_eq_true, Bool.not_eq_true'] at hc
      obtain ⟨n, hn⟩ := Option.isSome_iff_exists.mp hc.1
      exact ⟨_, .connected hn hc.2, rfl⟩
    case isFalse hc =>
      split at h
      case isTrue hclosed => cases h; exact ⟨_, .unavailable hclosed, rfl⟩
      case isFalse hclosed =>
        have hclosed := Bool.eq_false_iff.mpr hclosed
        have hcurrent : s.current = none := by simpa [hclosed] using hc
        split at h
        case h_1 err hterm => cases h; exact ⟨_, .rejected hcurrent hclosed hterm, rfl⟩
        case h_2 hterm => cases h; exact ⟨_, .block (by rw [seen, hcurrent, hclosed, hterm]), rfl⟩
  case h_2 => split at h <;> cases h; next hn => exact ⟨_, .wake hn, rfl⟩
  case h_3 => cases h; exact ⟨_, .contextDone, rfl⟩
  case h_4 => split at h <;> cases h; next hc => exact ⟨_, .cancelled hc, rfl⟩
  case h_5 => cases h

/-- The channel is replaced, or it stays with what a caller reads. -/
def Signals (s s' : Client) : Prop := s.notify < s'.notify ∨ s'.notify = s.notify ∧ s'.seen = s.seen

theorem LifecycleNext.signals {p q : LifecyclePhase} {choice : LifecycleChoice} (h : LifecycleNext s p choice t q) :
    Signals s t ∧ t.waits = s.waits := by
  cases h with
  | @lose n =>
    unfold Client.lose
    split
    · exact ⟨.inl (Nat.lt_succ_self _), rfl⟩
    · exact ⟨.inr ⟨rfl, rfl⟩, rfl⟩
  | install | record | reject => exact ⟨.inl (Nat.lt_succ_self _), rfl⟩
  | request hr =>
    obtain ⟨created, rfl, -, -⟩ := requestBind_scope hr
    exact ⟨.inr ⟨rfl, rfl⟩, rfl⟩
  | _ => exact ⟨.inr ⟨rfl, rfl⟩, rfl⟩

theorem CloseNext.signals {p q : ClosePhase} (h : CloseNext s p t q) : Signals s t ∧ t.waits = s.waits := by
  cases h with
  | first => exact ⟨.inl (Nat.lt_succ_self _), rfl⟩
  | _ => exact ⟨.inr ⟨rfl, rfl⟩, rfl⟩

theorem BindNext.signals {b : Bind} {q : BindPhase} (h : BindNext s b t q) : Signals s t ∧ t.waits = s.waits := by
  cases h with
  | request _ hr =>
    obtain ⟨created, rfl, -, -⟩ := requestBind_scope hr
    exact ⟨.inr ⟨rfl, rfl⟩, rfl⟩
  | _ => exact ⟨.inr ⟨rfl, rfl⟩, rfl⟩

/-- **What a caller reads changes only together with the channel.** -/
theorem step_signals (h : s.step label = some s') : Signals s s' := by
  cases step_next h with
  | lifecycle hn => exact hn.signals.1
  | closing _ hn => exact hn.signals.1
  | binding _ hn => exact hn.signals.1
  | waiting _ hs =>
    obtain ⟨q, -, rfl⟩ := waitStep_next hs
    exact .inr ⟨rfl, rfl⟩
  | close | waitConnected | bind | session => exact .inr ⟨rfl, rfl⟩

theorem step_blocks (h : s.step label = some s') (hi : s.waits[i]? ≠ some (.blocked n)) (hi' : s'.waits[i]? = some (.blocked n)) :
    label = .waiting i .go ∧ s.waits[i]? = some .looking ∧ s.notify = n ∧ s.seen = (none, false, none) ∧
      s'.notify = s.notify ∧ s'.seen = s.seen := by
  cases step_next h with
  | lifecycle hn => exact absurd (hn.signals.2 ▸ hi') hi
  | closing _ hn => exact absurd (hn.signals.2 ▸ hi') hi
  | binding _ hn => exact absurd (hn.signals.2 ▸ hi') hi
  | close | bind | session => exact absurd hi' hi
  | waitConnected =>
    rcases Nat.lt_or_ge i s.waits.length with hlt | hge
    · rw [List.getElem?_append_left hlt] at hi'
      exact absurd hi' hi
    · rw [List.getElem?_append_right hge, List.getElem?_singleton] at hi'
      split at hi' <;> cases hi'
  | @waiting j p choice _ hj hs =>
    obtain ⟨q, hn, rfl⟩ := waitStep_next hs
    rcases getElem?_set_some hi' with ⟨rfl, hq⟩ | ⟨-, hsame⟩
    · subst hq
      cases hn with
      | block hseen => exact ⟨rfl, hj, rfl, hseen, rfl, rfl⟩
    · exact absurd hsame hi

theorem outcome_eq_none_iff : s.outcome = none ↔ s.seen = (none, false, none) := by
  unfold outcome seen
  cases s.closed <;> cases s.current <;> simp

theorem look_returns {r : WaitResult} (hi : s.waits[i]? = some .looking) (hr : s.outcome = some r) :
    ∃ s', s.step (.waiting i .go) = some s' ∧ s'.waits[i]? = some (.returned r) := by
  have hlt := (List.getElem?_eq_some_iff.mp hi).1
  refine ⟨{ s with waits := s.waits.set i (.returned r) }, ?_, List.getElem?_set_self hlt⟩
  refine Option.bind_eq_some_iff.mpr ⟨_, hi, ?_⟩
  unfold outcome at hr
  simp only [Client.waitStep]
  split at hr
  case isTrue hclosed =>
    cases hr
    rw [if_neg (by simp [hclosed]), if_pos hclosed]
  case isFalse hclosed =>
    split at hr
    case isTrue hcurrent =>
      cases hr
      rw [if_pos (by simp [hcurrent, hclosed])]
    case isFalse hcurrent =>
      obtain ⟨err, herr, rfl⟩ := Option.map_eq_some_iff.mp hr
      rw [if_neg (by simp [hcurrent]), if_neg hclosed, herr]

theorem wake_looks (hi : s.waits[i]? = some (.blocked n)) (hn : n < s.notify) :
    s.step (.waiting i .go) = some { s with waits := s.waits.set i .looking } := by
  refine Option.bind_eq_some_iff.mpr ⟨_, hi, ?_⟩
  exact if_pos hn

end Steps

/-- **No wake-up is lost.** A caller that is blocked on a channel has taken it at a step of the run at which it looked at the
client, and has been blocked since. As long as the channel is open, the current session, `closed` and the terminal error are the
ones it read then, and have been all the time. Where one of them has changed, be it for a moment, the channel is closed and the
caller can look again; and where there is something to return it then does. -/
theorem trace_waits {config : Config} {dialable : Bool} {tr : List (Client × Label)} {s : Client} {i n : Nat}
    (h : clients.Trace (new config dialable) tr s) (hi : s.waits[i]? = some (.blocked n)) :
    ∃ before t since, tr = before ++ (t, .waiting i .go) :: since ∧ t.waits[i]? = some .looking ∧ t.notify = n ∧
      (∀ e ∈ since, e.1.waits[i]? = some (.blocked n)) ∧
      (s.isOpen n → s.seen = t.seen ∧ ∀ e ∈ since, e.1.seen = t.seen) ∧
      (s.seen ≠ t.seen ∨ (∃ e ∈ since, e.1.seen ≠ t.seen) →
        ∃ s', s.step (.waiting i .go) = some s' ∧ s'.waits[i]? = some .looking) ∧
      ∀ r, s.outcome = some r → ∃ s' s'', s.step (.waiting i .go) = some s' ∧ s'.step (.waiting i .go) = some s'' ∧
        s''.waits[i]? = some (.returned r) := by
  obtain ⟨before, ⟨t, label⟩, since, t', rfl, ht, hst, ht', htrace, hblocked⟩ :=
    h.since (P := fun s => s.waits[i]? = some (.blocked n)) (by simp [new]) hi
  obtain ⟨rfl, hlooking, rfl, hseen, hnotify', hseen'⟩ := step_blocks hst ht ht'
  -- since the caller has taken the channel
  obtain ⟨-, hunchanged⟩ := htrace.unchanged Client.notify seen fun s l s' hs => step_signals hs
  rw [hnotify', hseen'] at hunchanged
  have hopen (ho : s.isOpen t.notify) := hunchanged (of_decide_eq_true ho)
  have hwake (hne : s.seen ≠ t.seen ∨ ∃ e ∈ since, e.1.seen ≠ t.seen) : t.notify < s.notify := by
    by_contra hle
    obtain ⟨hs, hall⟩ := hunchanged (Nat.le_of_not_lt hle)
    rcases hne with hne | ⟨e, he, hne⟩
    · exact hne hs
    · exact hne (hall e he)
  have hlt := (List.getElem?_eq_some_iff.mp hi).1
  refine ⟨before, t, since, rfl, hlooking, rfl, hblocked, hopen, fun hne => ?_, fun r hr => ?_⟩
  · exact ⟨_, wake_looks hi (hwake hne), List.getElem?_set_self hlt⟩
  · have hne : s.seen ≠ t.seen := by
      rw [hseen]
      intro heq
      rw [outcome_eq_none_iff.mpr heq] at hr
      cases hr
    obtain ⟨s'', hs'', hret⟩ := look_returns (s := { s with waits := s.waits.set i .looking }) (List.getElem?_set_self hlt) hr
    exact ⟨_, s'', wake_looks hi (hwake (.inl hne)), hs'', hret⟩

/-- The session is lost and a caller waits for the replacement, which comes. -/
def awaitsReplacement : List Label :=
  List.flatten [loses 0, List.replicate 3 (.lifecycle .go), [.waitConnected, .waiting 0 .go], List.replicate 2 (.lifecycle .go),
    [.lifecycle .created], List.replicate 2 (.lifecycle .go)]

theorem trace_waits_replacement : ∃ tr s s' s'', clients.Trace (new redialling true) tr s ∧ s.waits[0]? = some (.blocked 2) ∧
    s.step (.waiting 0 .go) = some s' ∧ s'.step (.waiting 0 .go) = some s'' ∧ s''.waits[0]? = some (.returned .connected) := by
  have htrace := System.trace_after clients (new redialling true) awaitsReplacement (by decide +kernel)
  have hblocked : (clients.after anyStep (new redialling true) awaitsReplacement).waits[0]? = some (.blocked 2) := by
    decide +kernel
  have hcurrent : (clients.after anyStep (new redialling true) awaitsReplacement).outcome = some .connected := by decide +kernel
  obtain ⟨_, _, _, -, -, -, -, -, -, hreturns⟩ := trace_waits htrace hblocked
  obtain ⟨s', s'', hs', hs'', hret⟩ := hreturns .connected hcurrent
  exact ⟨_, _, s', s'', htrace, hblocked, hs', hs'', hret⟩

end GoSmpp.Client
