import GoSmpp.Client.Basic

/-!
# The sessions of a client

Who closes a session that the client has created: the lifecycle goroutine as long as it is a candidate, and `Close` when it is the
current one.

* `Owned`: every session ever created is done, or the current one, or the candidate of the lifecycle goroutine; and once the
  client is closed, a call of `Close` sees to the current one.
* `Next.current`: how the current session changes.
* `run_sessions`: one session is current at most, it is replaced after its end and while the client is not closed, and in the end
  every session is closed.
-/

namespace GoSmpp.Client
open Lib Protocol Codec Session

/-- The session that the lifecycle goroutine has created and neither installed nor closed. -/
def LifecyclePhase.candidate : LifecyclePhase → Option Nat
  | .profiling n | .rebinding n _ | .binding n _ | .installing n | .dropping n _ | .awaiting n _ => some n
  | _ => none

/-- The lifecycle goroutine waits for the current session, and has none while it looks for a replacement. -/
def LifecyclePhase.Follows (s : Client) : LifecyclePhase → Prop
  | .waiting n => s.current = some n
  | .joining n | .losing n => s.current = some n ∧ s.done n
  | .exited => True
  | _ => s.current = none

structure Owned (s : Client) : Prop where
  known : ∀ n, s.current = some n ∨ s.lifecycle.candidate = some n → n < s.created.length
  kept : ∀ m < s.created.length, s.done m ∨ s.current = some m ∨ s.lifecycle.candidate = some m
  follows : s.lifecycle.Follows s
  closing : s.closed → ∀ n, s.current = some n → s.done n ∨ .closing n ∈ s.closes ∨ .awaiting n ∈ s.closes
  ended : ∀ p ∈ s.closes, p ≠ .entering → s.closed

section Owned
variable {s s' t : Client} {label : Label}

theorem owned_new (config : Config) (dialable : Bool) : Owned (new config dialable) where
  known n hn := by
    rcases hn with hn | hn
    · cases hn
      exact Nat.zero_lt_one
    · cases hn
  kept m hm := .inr (.inl (congrArg some (Nat.lt_one_iff.mp hm).symm))
  follows := rfl
  closing hc := by cases hc
  ended _ hp := (List.not_mem_nil hp).elim

theorem LifecyclePhase.Follows.keep {p : LifecyclePhase} (h : p.Follows s) (hl : Each Later s.created s'.created)
    (hcurrent : s'.current = s.current) : p.Follows s' := by
  cases p with
  | joining n | losing n => exact ⟨hcurrent.trans h.1, done_later hl h.2⟩
  | exited => trivial
  | _ => exact hcurrent.trans h

theorem Owned.keep (h : Owned s) (hl : Each Later s.created s'.created) (hlen : s'.created.length = s.created.length)
    (hcurrent : s'.current = s.current) (hclosed : s'.closed = s.closed) (hcloses : s'.closes = s.closes)
    (hcandidate : ∀ n, s.lifecycle.candidate = some n → s'.done n ∨ s'.lifecycle.candidate = some n)
    (hcandidate' : ∀ n, s'.lifecycle.candidate = some n → s.lifecycle.candidate = some n)
    (hfollows : s'.lifecycle.Follows s') : Owned s' where
  known n hn := by
    rw [hlen]
    exact h.known n (hn.imp (hcurrent ▸ ·) (hcandidate' n))
  kept m hm := by
    rcases h.kept m (hlen ▸ hm) with hd | hc | hc
    · exact .inl (done_later hl hd)
    · exact .inr (.inl (hcurrent.trans hc))
    · exact (hcandidate m hc).imp_right .inr
  follows := hfollows
  closing hc n hn := by
    rw [hcloses]
    exact (h.closing (hclosed ▸ hc) n (hcurrent ▸ hn)).imp_left (done_later hl)
  ended p hp hne := hclosed ▸ h.ended p (hcloses ▸ hp) hne

theorem closeSession_length (s : Client) (n : Nat) : (s.closeSession n).created.length = s.created.length := by
  unfold Client.closeSession
  cases h : sessions.stepAt s.created n (.terminate (.sentinel .sessionClosed)) with
  | none => rfl
  | some l =>
    obtain ⟨_, _, -, -, rfl⟩ := System.stepAt_some h
    exact List.length_set

theorem Owned.lifecycle {choice : LifecycleChoice} {q : LifecyclePhase} (h : Owned s)
    (hn : LifecycleNext s s.lifecycle choice t q) : Owned { t with lifecycle := q } := by
  have hfollows := h.follows
  have hl := hn.later
  -- the goroutine goes on with the candidate that it has, or has none before and after the step
  have hon (ht : t.created.length = s.created.length ∧ t.current = s.current ∧ t.closed = s.closed ∧ t.closes = s.closes)
      (hc : q.candidate = s.lifecycle.candidate) (hq : q.Follows { t with lifecycle := q }) : Owned { t with lifecycle := q } :=
    h.keep hl ht.1 ht.2.1 ht.2.2.1 ht.2.2.2 (fun n hn => .inr (hc.trans hn)) (fun n hn => hc.symm.trans hn) hq
  generalize hp : s.lifecycle = p at hn hfollows hon
  cases hn with
  | lost hd => exact hon ⟨rfl, rfl, rfl, rfl⟩ rfl ⟨hfollows, hd⟩
  | cancel | stop => exact hon ⟨rfl, rfl, rfl, rfl⟩ rfl trivial
  | join => exact hon ⟨rfl, rfl, rfl, rfl⟩ rfl hfollows
  | @lose n q hq =>
    -- the session that is given up is done
    have hlose : (s.lose n).current = none ∧ (s.lose n).closes = s.closes ∧ (s.lose n).closed = s.closed := by
      unfold Client.lose
      rw [if_pos hfollows.1]
      exact ⟨rfl, rfl, rfl⟩
    refine ⟨fun m hm => ?_, fun m hm => .inl ?_, ?_, fun _ n hc => ?_, fun p hp hne => ?_⟩
    · rcases hm with hm | hm
      · cases hlose.1.symm.trans hm
      · rcases hq with rfl | ⟨-, rfl⟩ <;> cases hm
    · have hm : m < s.created.length := by rwa [show (s.lose n).created = s.created from lose_created s n] at hm
      refine done_later hl ?_
      rcases h.kept m hm with hd | hc | hc
      · exact hd
      · cases hfollows.1.symm.trans hc
        exact hfollows.2
      · rw [hp] at hc
        cases hc
    · rcases hq with rfl | ⟨-, rfl⟩
      · trivial
      · exact hlose.1
    · cases hlose.1.symm.trans hc
    · show (s.lose n).closed
      rw [hlose.2.2]
      exact h.ended p (hlose.2.1 ▸ hp) hne
  | elapse | dial | undialled | panic | uncreated | part => exact hon ⟨rfl, rfl, rfl, rfl⟩ rfl hfollows
  | create =>
    refine ⟨fun m hm => ?_, fun m hm => ?_, hfollows, fun hc n hn => ?_, h.ended⟩
    · rcases hm with hm | hm
      · cases hfollows.symm.trans hm
      · cases hm
        exact List.length_append ▸ Nat.lt_succ_self _
    · rcases Nat.lt_succ_iff_lt_or_eq.mp (List.length_append ▸ hm) with hm | rfl
      · rcases h.kept m hm with hd | hc | hc
        · exact .inl (done_later hl hd)
        · exact .inr (.inl hc)
        · rw [hp] at hc
          cases hc
      · exact .inr (.inr rfl)
    · exact (h.closing hc n hn).imp_left (done_later hl)
  | unprofiled | profile | bound | refused | late => exact hon ⟨rfl, rfl, rfl, rfl⟩ rfl hfollows
  | request hr =>
    obtain ⟨created, rfl, -, hlen⟩ := requestBind_scope hr
    exact hon ⟨hlen, rfl, rfl, rfl⟩ rfl hfollows
  | @install n hopen =>
    refine ⟨fun m hm => ?_, fun m hm => ?_, rfl, fun hc => ?_, h.ended⟩
    · rcases hm with hm | hm
      · cases hm
        exact h.known n (.inr (by rw [hp]; rfl))
      · cases hm
    · rcases h.kept m hm with hd | hc | hc
      · exact .inl hd
      · cases hfollows.symm.trans hc
      · rw [hp] at hc
        exact .inr (.inl hc)
    · rw [show s.closed = true from hc] at hopen
      cases hopen
  | drop => exact hon ⟨closeSession_length _ _, rfl, rfl, rfl⟩ rfl hfollows
  | dropped ht =>
    refine h.keep hl rfl rfl rfl rfl (fun m hm => .inl ?_) nofun hfollows
    rw [hp] at hm
    cases hm
    exact done_of_terminated ht
  | leave => exact hon ⟨rfl, rfl, rfl, rfl⟩ rfl trivial
  | record hq =>
    rcases hq with rfl | rfl | rfl
    · exact hon ⟨rfl, rfl, rfl, rfl⟩ rfl trivial
    · exact hon ⟨rfl, rfl, rfl, rfl⟩ rfl hfollows
    · exact hon ⟨rfl, rfl, rfl, rfl⟩ rfl hfollows
  | reject => exact hon ⟨rfl, rfl, rfl, rfl⟩ rfl trivial

theorem Owned.close {i : Nat} {p q : ClosePhase} (h : Owned s) (hp : s.closes[i]? = some p) (hn : CloseNext s p t q) :
    Owned { t with closes := t.closes.set i q } := by
  have hl := hn.later
  -- the other calls are where they were
  have hother {a b : ClosePhase} (ha : a ∈ s.closes) (hne : a ≠ p) : a ∈ s.closes.set i b := mem_set_of_ne hp ha hne
  have hended (hclosed : s.closed) (a : ClosePhase) (_ : a ∈ s.closes.set i q) (_ : a ≠ .entering) : s.closed := hclosed
  cases hn with
  | again hc =>
    refine ⟨h.known, h.kept, h.follows, fun _ n hn => ?_, hended hc⟩
    exact (h.closing hc n hn).imp_right (.imp (hother · nofun) (hother · nofun))
  | first hopen =>
    refine ⟨h.known, h.kept, h.follows.keep hl rfl, fun _ n hn => .inr (.inl ?_), fun _ _ _ => rfl⟩
    have hn : s.current = some n := hn
    rw [hn]
    exact List.mem_set (List.getElem?_eq_some_iff.mp hp).1 _
  | @close n =>
    have hc := h.ended _ (List.mem_of_getElem? hp) nofun
    refine ⟨fun m hm => ?_, fun m hm => ?_, h.follows.keep hl rfl, fun _ m hm => ?_, hended hc⟩
    · exact (closeSession_length s n).symm ▸ h.known m hm
    · exact (h.kept m (closeSession_length s n ▸ hm)).imp_left (done_later hl)
    · by_cases hmn : m = n
      · subst hmn
        exact .inr (.inr (List.mem_set (List.getElem?_eq_some_iff.mp hp).1 _))
      · rcases h.closing hc m hm with hd | hd | hd
        · exact .inl (done_later hl hd)
        · exact .inr (.inl (hother hd fun heq => hmn (ClosePhase.closing.inj heq)))
        · exact .inr (.inr (hother hd nofun))
  | @closed n ht =>
    have hc := h.ended _ (List.mem_of_getElem? hp) nofun
    refine ⟨h.known, h.kept, h.follows, fun _ m hm => ?_, hended hc⟩
    by_cases hmn : m = n
    · subst hmn
      exact .inl (done_of_terminated ht)
    · refine (h.closing hc m hm).imp_right (.imp (hother · nofun) fun hd => hother hd fun heq => hmn ?_)
      exact ClosePhase.awaiting.inj heq

/-- The step lemma. -/
theorem Owned.step (h : Owned s) (hn : Next s label s') : Owned s' := by
  have hl := step_later hn
  have hsame (hlen : s'.created.length = s.created.length)
      (hs : s'.current = s.current ∧ s'.closed = s.closed ∧ s'.closes = s.closes ∧ s'.lifecycle = s.lifecycle) : Owned s' :=
    h.keep hl hlen hs.1 hs.2.1 hs.2.2.1 (fun n hc => .inr (hs.2.2.2 ▸ hc)) (fun n hc => hs.2.2.2 ▸ hc)
      (hs.2.2.2 ▸ h.follows.keep hl hs.1)
  cases hn with
  | lifecycle hn => exact h.lifecycle hn
  | closing hp hn => exact h.close hp hn
  | close =>
    refine ⟨h.known, h.kept, h.follows.keep hl rfl, fun hc n hn => ?_, fun p hp hne => ?_⟩
    · exact (h.closing hc n hn).imp_right (.imp (List.mem_append_left _) (List.mem_append_left _))
    · rcases List.mem_append.mp hp with hp | hp
      · exact h.ended p hp hne
      · exact (hne (List.mem_singleton.mp hp)).elim
  | waiting _ hs =>
    rw [waitStep_scope hs]
    exact h.keep (.refl Later.refl _) rfl rfl rfl rfl (fun _ => .inr) (fun _ => id) (h.follows.keep (.refl Later.refl _) rfl)
  | binding _ hn =>
    cases hn with
    | request _ hr =>
      obtain ⟨created, rfl, -, hlen⟩ := requestBind_scope hr
      exact hsame hlen ⟨rfl, rfl, rfl, rfl⟩
    | _ => exact hsame rfl ⟨rfl, rfl, rfl, rfl⟩
  | session hc =>
    obtain ⟨_, _, -, -, rfl⟩ := System.stepAt_some hc
    exact hsame List.length_set ⟨rfl, rfl, rfl, rfl⟩
  | waitConnected | bind => exact hsame rfl ⟨rfl, rfl, rfl, rfl⟩

theorem run_invariant {config : Config} {dialable : Bool} (h : clients.Run anyStep (new config dialable) s) : Owned s :=
  h.invariant (fun _ _ _ _ hst ho => ho.step (step_next hst)) (owned_new config dialable)

/-- **How the current session changes**: it is given up when it is done, and then a replacement is installed, unless the client
is closed. -/
theorem Owned.current (h : Owned s) (hn : Next s label s') : s'.current = s.current ∨
    (∃ n, s.current = some n ∧ s.done n ∧ s'.current = none) ∨ (s.current = none ∧ s.closed = false) := by
  cases hn with
  | lifecycle hn =>
    have hfollows := h.follows
    generalize s.lifecycle = p at hn hfollows
    cases hn with
    | @lose n =>
      refine .inr (.inl ⟨n, hfollows.1, hfollows.2, ?_⟩)
      show (s.lose n).current = none
      rw [Client.lose, if_pos hfollows.1]
      rfl
    | install hopen => exact .inr (.inr ⟨hfollows, hopen⟩)
    | request hr =>
      obtain ⟨created, rfl, -, -⟩ := requestBind_scope hr
      exact .inl rfl
    | _ => exact .inl rfl
  | closing _ hn => cases hn <;> exact .inl rfl
  | waiting _ hs =>
    rw [waitStep_scope hs]
    exact .inl rfl
  | binding _ hn =>
    cases hn with
    | request _ hr =>
      obtain ⟨created, rfl, -, -⟩ := requestBind_scope hr
      exact .inl rfl
    | _ => exact .inl rfl
  | close | waitConnected | bind | session => exact .inl rfl

theorem run_current {m : Nat} (ho : Owned s) (h : clients.Run anyStep s s') (hm : s.current = some m) :
    s'.done m ∨ s'.current = some m := by
  refine (h.invariant (P := fun t => Owned t ∧ (t.done m ∨ t.current = some m)) ?_ ⟨ho, .inr hm⟩).2
  intro t label t' _ hst ⟨ho, hm⟩
  have hn := step_next hst
  refine ⟨ho.step hn, ?_⟩
  rcases hm with hd | hm
  · exact .inl (done_later (step_later hn) hd)
  · rcases ho.current hn with hc | ⟨n, hc, hd, -⟩ | ⟨hc, -⟩
    · exact .inr (hc.trans hm)
    · cases hm.symm.trans hc
      exact .inl (done_later (step_later hn) hd)
    · cases hm.symm.trans hc

theorem Owned.sole {n m : Nat} (h : Owned s) (hc : s.current = some n) (hm : m < s.created.length) (hne : m ≠ n) : s.done m := by
  rcases h.kept m hm with hd | hcm | hcand
  · exact hd
  · exact (hne (Option.some.inj (hcm.symm.trans hc))).elim
  · have hfollows := h.follows
    revert hfollows hcand
    cases s.lifecycle <;> simp [LifecyclePhase.candidate, LifecyclePhase.Follows, hc]

end Owned

/-- **The sessions of a client.** In every state that a client reaches, at most one session is current, one that it has created,
and all others are closed then. A replacement is installed after the end of every session that was current before, and while the
client is not closed. Where a call of `Close` has returned and none is in progress, and the lifecycle goroutine has exited, every
session that was ever created is closed. -/
theorem run_sessions {config : Config} {dialable : Bool} {s : Client} (h : clients.Run anyStep (new config dialable) s) :
    (∀ n, s.current = some n → n < s.created.length ∧ ∀ m < s.created.length, m ≠ n → s.done m) ∧
    (∀ m s' label s'' n, s.current = some m → clients.Run anyStep s s' → s'.step label = some s'' → s''.current = some n →
      s'.current ≠ some n → s'.done m ∧ s'.closed = false) ∧
    (.returned ∈ s.closes → (∀ p ∈ s.closes, p = .returned) → s.lifecycle = .exited → ∀ m < s.created.length, s.done m) := by
  have ho := run_invariant h
  refine ⟨fun n hc => ⟨ho.known n (.inl hc), fun m hm hne => ho.sole hc hm hne⟩,
    fun m s' label s'' n hc hrun hst hn hne => ?_, fun hret hall hexit m hm => ?_⟩
  · have ho' := run_invariant (h.trans hrun)
    rcases ho'.current (step_next hst) with hsame | ⟨_, -, -, hnone⟩ | ⟨hnone, hopen⟩
    · exact (hne (hsame.symm.trans hn)).elim
    · cases hn.symm.trans hnone
    · refine ⟨?_, hopen⟩
      rcases run_current ho hrun hc with hd | hc
      · exact hd
      · cases hnone.symm.trans hc
  · rcases ho.kept m hm with hd | hc | hc
    · exact hd
    · rcases ho.closing (ho.ended _ hret nofun) m hc with hd | hp | hp
      · exact hd
      · cases hall _ hp
      · cases hall _ hp
    · rw [hexit] at hc
      cases hc

def redialling : Config := { sessionConfig := {}, enabled := true }

/-- The connection of the session is lost. -/
def loses (n : Nat) : List Label := [.session n (.terminate (.sentinel .eof)), .session n .term, .session n .term]

/-- A replacement for the lost session is about to be installed. -/
def replaces : List Label :=
  List.flatten [loses 0, List.replicate 5 (.lifecycle .go), [.lifecycle .created, .lifecycle .go]]

/-- `Close` is called meanwhile. -/
def closesLate : List Label :=
  List.flatten [replaces, [.close, .closing 0], List.replicate 2 (.lifecycle .go), List.replicate 4 (.session 1 .term),
    List.replicate 2 (.lifecycle .go)]

theorem run_sessions_closesLate :
    (∃ s s', clients.Run anyStep (new redialling true) s ∧ s.step (.lifecycle .go) = some s' ∧ s'.current = some 1 ∧ s.done 0) ∧
    ∃ s, clients.Run anyStep (new redialling true) s ∧ s.created.length = 2 ∧ s.closes = [.returned] ∧ s.lifecycle = .exited ∧
      ∀ m < 2, s.done m := by
  constructor
  · have hrun := System.run_after clients anyStep (new redialling true) replaces (by decide +kernel)
    have hcurrent : (clients.after anyStep (new redialling true) replaces).current = none := by decide +kernel
    have hnext : ((clients.after anyStep (new redialling true) replaces).step (.lifecycle .go)).map (·.current) =
        some (some 1) := by decide +kernel
    obtain ⟨s', hs, hn⟩ := Option.map_eq_some_iff.mp hnext
    have hdone := (run_sessions (.refl (new redialling true))).2.1 0 _ _ s' 1 rfl hrun hs hn (by rw [hcurrent]; nofun)
    exact ⟨_, s', hrun, hs, hn, hdone.1⟩
  · have hrun := System.run_after clients anyStep (new redialling true) closesLate (by decide +kernel)
    have hlength : (clients.after anyStep (new redialling true) closesLate).created.length = 2 := by decide +kernel
    have hcloses : (clients.after anyStep (new redialling true) closesLate).closes = [.returned] := by decide +kernel
    have hexit : (clients.after anyStep (new redialling true) closesLate).lifecycle = .exited := by decide +kernel
    have hdone := (run_sessions hrun).2.2 (by rw [hcloses]; exact List.mem_singleton_self _)
      (by rw [hcloses]; exact fun p hp => List.mem_singleton.mp hp) hexit
    exact ⟨_, hrun, hlength, hcloses, hexit, fun m hm => hdone m (hlength.symm ▸ hm)⟩

end GoSmpp.Client
