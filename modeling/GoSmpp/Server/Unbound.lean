import GoSmpp.Server.Ownership
import GoSmpp.Session.Calls

/-!
# The cap on unbound connections

`MaxUnboundPerIP` of `server/server.go`: how many sessions of one host are open without a bind.

* `Waiting`: a machine of an SMSC that has not been bound and has sent no outbind. Only the bind of its peer takes it further
  (`step_waiting`).
* `unbound`: the sessions of a host in the map that live and have never completed a bind. Where none has been asked for a bind
  the accept loop counts them all (`unbound_le`).
* `run_capped`: they are never more than the cap, as long as no outbind begins on a session of the host.
* `capped_outbind`: an outbind takes a session out of the count, and there is room for another.
-/

namespace GoSmpp.Session
open Protocol

/-! ## A machine that waits for the bind of its peer -/

/-- An SMSC's machine before the bind of the ESME, with no outbind sent. -/
structure StateMachine.Waiting (m : StateMachine) : Prop extends m.Fresh where
  smsc : m.role = .smsc
  unasked : m.state = .open

namespace StateMachine.Waiting
variable {m m' : StateMachine} {command : CommandID} {status : CommandStatus}

theorem pendingLocalBind_eq (h : m.Waiting) : m.pendingLocalBind = 0 := by
  by_contra hne
  have hesme := h.localBind hne
  rw [h.smsc] at hesme
  cases hesme

theorem beginOutbound (h : m.Waiting) (hne : command ≠ commandOutbind) (ho : m.beginOutbound command = .ok m') : m'.Waiting := by
  obtain ⟨hcan, ⟨hb, -, -⟩ | ⟨rfl, -⟩ | ⟨hout, -⟩ | ⟨-, rfl⟩⟩ := beginOutbound_ok ho
  · have hrole := (canIssue_bind hcan hb).1
    rw [h.smsc] at hrole
    cases hrole
  · have hbound := canIssue_unbind hcan
    rw [h.unasked] at hbound
    cases hbound
  · exact absurd hout hne
  · exact h

theorem cancelOutbound (h : m.Waiting) : (m.cancelOutbound command).Waiting := by
  rcases cancelOutbound_cases m command with ⟨hb, hp, -⟩ | ⟨-, hu, -⟩ | ⟨-, ho, -⟩ | ⟨-, -, he⟩
  · exact absurd (hp.symm.trans h.pendingLocalBind_eq) (isBindRequest_ne_zero hb)
  · rw [h.unasked] at hu; cases hu
  · rw [h.unasked] at ho; cases ho
  · rwa [he]

theorem completeOutbound (h : m.Waiting) : (m.completeOutbound command status).Waiting := by
  have hsame : m.completeOutbound command status = m := by
    unfold StateMachine.completeOutbound
    split
    · next hb =>
      refine if_pos ?_
      rw [h.pendingLocalBind_eq]
      exact (isBindRequest_ne_zero hb).symm
    · exact if_neg fun hu => h.not_unbound hu.2
  rwa [hsame]

theorem beginInbound (h : m.Waiting) (hi : m.beginInbound command = .ok m') : m'.Waiting := by
  have hfresh : m'.Fresh := (h.mirror.beginOutbound (beginInbound_mirror hi)).of_mirror
  obtain ⟨hcan, ⟨-, -, rfl⟩ | ⟨rfl, -⟩ | ⟨rfl, -⟩ | ⟨-, rfl⟩⟩ := beginInbound_ok hi
  · exact ⟨hfresh, h.smsc, h.unasked⟩
  · have hbound := canIssue_unbind hcan
    rw [h.unasked] at hbound
    cases hbound
  · have hrole := (canIssue_outbind hcan).1
    rw [h.smsc] at hrole
    cases hrole
  · exact h

theorem completeInbound (h : m.Waiting) :
    (m.completeInbound command status).Waiting ∨ isBoundState (m.completeInbound command status).state := by
  unfold StateMachine.completeInbound
  split
  · next hb =>
    split
    · exact .inl h
    · cases hs : CommandStatus.ok status with
      | true => exact .inr (isBoundState_boundStateForBind hb)
      | false =>
        left
        exact ⟨⟨h.state, h.localUnbindFrom, h.peerUnbindFrom, h.localBind, fun hne => absurd rfl hne⟩, h.smsc, h.unasked⟩
  · left
    rwa [if_neg fun hu => h.not_unbound hu.2]

theorem cancelInbound (h : m.Waiting) : (m.cancelInbound command).Waiting := by
  have hstate : (m.cancelInbound command).state = .open ∧ (m.cancelInbound command).role = .smsc := by
    unfold StateMachine.cancelInbound
    split <;> simp [h.unasked, h.smsc]
  refine ⟨?_, hstate.2, hstate.1⟩
  rcases cancelInbound_mirror m command with he | he
  · exact Fresh.of_mirror (by rw [he]; exact h.mirror.cancelOutbound)
  · rw [he]
    exact h.toFresh

end StateMachine.Waiting

/-! ## A session that waits for it -/

section Waiting
variable {s s' : Session} {label : Label}

/-- The step is the `BeginOutbound` of an outbind, which succeeds. -/
def outbinds (s : Session) : Label → Bool
  | .send i .go => s.sends[i]?.any fun k =>
      k.phase == .beginning && k.command == commandOutbind && (s.machine.beginOutbound k.command).isOk
  | _ => false

/-- No call of `Request` that is past its checks is an outbind. -/
def Unasked (s : Session) : Prop :=
  ∀ (i : Nat) (k : Call), s.ledger.calls[i]? = some k → k.phase = .checking ∨ k.phase.over ∨ isOneWayCommand k.command = false

theorem Unasked.step (h : s.Unasked) (hs : s.step label = some s') : s'.Unasked := by
  intro i k' hk'
  rcases step_caller hs hk' with ⟨command, body, waitWindow, -, rfl⟩ | ⟨k, hk, ho | ⟨arm, t, q, -, hn, -, ho⟩⟩
  · exact .inl rfl
  · rw [ho.command, ho.phase]
    exact h i k hk
  · rw [ho.command, ho.phase]
    exact .inr (hn.passed (fun he => (requestError_none he).2) (h i k hk))

theorem taskStep_waiting {o : Owner} (h : s.taskStep o = some s') (hw : s.machine.Waiting) : s'.machine.Waiting := by
  obtain ⟨⟨t, l⟩, -, h⟩ := Option.bind_eq_some_iff.mp h
  obtain ⟨k, -, h⟩ := Option.bind_eq_some_iff.mp h
  simp only at h
  split at h
  case h_1 => obtain ⟨l', -, rfl⟩ := Option.map_eq_some_iff.mp h; exact hw
  case h_2 => cases h; exact hw
  case h_3 => cases h; exact hw
  case h_4 => obtain ⟨l', -, rfl⟩ := Option.map_eq_some_iff.mp h; exact hw
  case h_5 => cases h; exact hw.completeOutbound
  case h_6 => cases h; exact hw
  case h_7 =>
    cases h
    split
    · rw [terminate_eq]; exact hw
    · exact hw
  case h_8 => cases h; exact hw.cancelOutbound
  case h_9 => cases h

theorem MachineStep.waiting {m : StateMachine} (h : s.MachineStep label m) (hl : label.outbound = false)
    (hw : s.machine.Waiting) : m.Waiting ∨ isBoundState m.state ∨ label = .term := by
  cases h with
  | same => exact .inl hw
  | beginOutbound ho | cancelOutbound _ ho => rw [hl] at ho; cases ho
  | completeOutbound => cases hl
  | beginInbound _ hi => exact .inl (hw.beginInbound hi)
  | completeInbound => exact hw.completeInbound.imp_right .inl
  | cancelInbound => exact .inl hw.cancelInbound
  | close => exact .inr (.inr rfl)

/-- **Only a bind takes a session further that has sent no outbind.** -/
theorem step_waiting (hs : s.step label = some s') (hw : s.machine.Waiting) (hu : s.Unasked) (hl : s.outbinds label = false)
    (hrun : s'.termination = .running) : s'.machine.Waiting ∨ isBoundState s'.machine.state := by
  cases label with
  | call i arm =>
    obtain ⟨k, hk, -, h⟩ := step_call hs
    obtain ⟨t, q, hn, rfl⟩ := callStep_next h
    left
    show t.machine.Waiting
    cases hn with
    | begin hp ho =>
      refine hw.beginOutbound ?_ ho
      rcases hu _ k hk with hc | hc | hc
      · rw [hp] at hc; cases hc
      · rw [hp] at hc; cases hc
      · rintro he
        rw [he] at hc
        cases hc
    | cancel => exact hw.cancelOutbound
    | _ => exact hw
  | task o => exact .inl (taskStep_waiting hs hw)
  | send i arm =>
    obtain ⟨k, hk, h⟩ := step_send hs
    obtain ⟨t, q, hn, rfl⟩ := sendStep_next h
    left
    show t.machine.Waiting
    cases hn with
    | begin hp ho =>
      refine hw.beginOutbound (fun hc => ?_) ho
      simp [outbinds, hk, hp, hc, hc ▸ ho, Except.isOk, Except.toBool] at hl
    | cancel => exact hw.cancelOutbound
    | _ => exact hw
  | term => exact absurd hrun (termStep_ne_running hs)
  | _ =>
    rcases (step_machine hs).waiting rfl hw with h | h | h
    · exact .inl h
    · exact .inr h
    · cases h

end Waiting

end GoSmpp.Session

namespace GoSmpp.Server
open Lib Protocol Session

/-! ## The sessions that are counted -/

variable {Host : Type}

/-- The session has not been asked for a bind, and waits for it as long as it lives and has not completed one. -/
structure Entry.Tracked (e : Entry Host) : Prop where
  unasked : e.session.Unasked
  waiting : e.everBound = false → e.session.termination = .running → e.session.machine.Waiting

theorem Entry.Tracked.step {e e' : Entry Host} {label : Session.Label} (h : e.Tracked) (hst : e.step label = some e')
    (hl : e.session.outbinds label = false) : e'.Tracked := by
  obtain ⟨session, hs, he⟩ := Option.bind_eq_some_iff.mp hst
  cases he
  refine ⟨h.unasked.step hs, fun hb hrun => ?_⟩
  obtain ⟨hb, hstate⟩ := Bool.or_eq_false_iff.mp hb
  rcases step_waiting hs (h.waiting hb (step_running hs hrun)) h.unasked hl hrun with hw | hw
  · exact hw
  · rw [hstate] at hw
    cases hw

theorem Entry.tracked_new (config : Session.Config) (host : Host) :
    ({ session := Session.new config .smsc, host } : Entry Host).Tracked where
  unasked _ _ hk := by cases hk
  waiting _ _ := ⟨⟨.inl rfl, rfl, rfl, fun h => absurd rfl h, fun h => absurd rfl h⟩, rfl, rfl⟩

theorem closeSession_tracked {s : Server Host} {host : Host}
    (h : ∀ (n : Nat) (e : Entry Host), s.created[n]? = some e → e.host = host → e.Tracked)
    (m n : Nat) (e : Entry Host) (he : (s.closeSession m).created[n]? = some e) (hhost : e.host = host) :
    e.Tracked := by
  unfold Server.closeSession at he
  cases hst : entries.stepAt s.created m (.terminate (.sentinel .sessionClosed)) with
  | none =>
    rw [hst] at he
    exact h n e he hhost
  | some created =>
    obtain ⟨e₀, e₁, he₀, hs, rfl⟩ := System.stepAt_some hst
    rw [hst] at he
    rcases getElem?_set_some he with ⟨rfl, rfl⟩ | ⟨-, he⟩
    · exact (h n e₀ he₀ ((Entry.step_later hs).host.symm.trans hhost)).step hs rfl
    · exact h n e he hhost

/-- The accept loop has let in a connection from the host that is not in the maps. -/
def ServePhase.brings (host : Host) : ServePhase Host → Prop
  | .creating h | .adding _ h => h = host
  | _ => False

theorem ServePhase.active_of_brings {host : Host} {p : ServePhase Host} (h : p.brings host) : p.active := by
  cases p <;> first | rfl | exact h.elim

variable [DecidableEq Host] {s s' : Server Host} {host : Host}

/-- The session is from the host, lives, and has never completed a bind. -/
def neverBound (s : Server Host) (host : Host) (n : Nat) : Bool :=
  s.created[n]?.any fun e => e.host == host && e.session.termination == .running && !e.everBound

/-- The live sessions in the map from one host that have never completed a bind. -/
def unbound (s : Server Host) (host : Host) : Nat := s.sessions.countP (s.neverBound host)

theorem neverBound_iff {n : Nat} : s.neverBound host n ↔
    ∃ e, s.created[n]? = some e ∧ e.host = host ∧ e.session.termination = .running ∧ e.everBound = false := by
  simp [neverBound, Option.any_eq_true, and_assoc]

theorem neverBound_of_later {n : Nat} (hl : Each Entry.Later s.created s'.created) (hn : n < s.created.length)
    (h : s'.neverBound host n) : s.neverBound host n := by
  obtain ⟨e', he', hhost, hrun, hb⟩ := neverBound_iff.mp h
  obtain ⟨e'', he'', hlater⟩ := hl n _ (List.getElem?_eq_getElem hn)
  rw [he'] at he''
  cases he''
  refine neverBound_iff.mpr ⟨_, List.getElem?_eq_getElem hn, hlater.host.symm.trans hhost, hlater.running hrun, ?_⟩
  by_contra hne
  rw [hlater.everBound (Bool.eq_true_of_not_eq_false hne)] at hb
  cases hb

theorem unbound_mono (h : Maps s) (hl : Each Entry.Later s.created s'.created) (hs : s'.sessions.Sublist s.sessions) :
    s'.unbound host ≤ s.unbound host :=
  calc s'.sessions.countP (s'.neverBound host)
      ≤ s'.sessions.countP (s.neverBound host) :=
        List.countP_mono_left fun n hn => neverBound_of_later hl (h.known n (h.added n (hs.subset hn)))
    _ ≤ s.sessions.countP (s.neverBound host) := hs.countP_le

theorem unbound_le (h : Maps s) (htracked : ∀ (n : Nat) (e : Entry Host), s.created[n]? = some e → e.host = host → e.Tracked) :
    s.unbound host ≤ s.unboundFromLocked host := by
  rw [unbound, unboundFromLocked, List.countP_eq_length_filter, List.countP_eq_length_filter]
  refine ((h.nodup.filter _).subperm fun n hn => ?_).length_le
  obtain ⟨hmem, hnever⟩ := List.mem_filter.mp hn
  obtain ⟨e, he, hhost, hrun, hb⟩ := neverBound_iff.mp hnever
  refine List.mem_filter.mpr ⟨(h.fromHost host n).mpr ⟨hmem, e, he, hhost⟩, ?_⟩
  rw [he]
  exact beq_iff_eq.mpr ((htracked n e he hhost).waiting hb hrun).unasked

/-! ## The cap -/

structure Capped (host : Host) (s : Server Host) : Prop where
  tracked : ∀ (n : Nat) (e : Entry Host), s.created[n]? = some e → e.host = host → e.Tracked
  count : s.unbound host ≤ s.config.maxUnboundPerIP
  room : ∀ (i : Nat) (p : ServePhase Host), s.serves[i]? = some p → p.brings host → s.unbound host < s.config.maxUnboundPerIP

/-- No outbind begins on a session of the host. -/
def NoOutbind (host : Host) (s : Server Host) : Label Host → Prop
  | .session n label => ∀ e ∈ s.created[n]?, e.host = host → e.session.outbinds label = false
  | _ => True

instance (host : Host) (s : Server Host) : (label : Label Host) → Decidable (NoOutbind host s label)
  | .session n _ => inferInstanceAs (Decidable (∀ e ∈ s.created[n]?, _))
  | .serve | .serving _ _ | .watch _ | .close | .closing _ _ => .isTrue trivial

section Step
variable {label : Label Host}

theorem Capped.tracked_step (h : Capped host s) (hok : NoOutbind host s label) (hn : Next s label s') (n : Nat)
    (e : Entry Host) (he : s'.created[n]? = some e) (hhost : e.host = host) : e.Tracked := by
  cases hn with
  | serving _ hn =>
    cases hn with
    | create =>
      rw [List.getElem?_append] at he
      split at he
      · exact h.tracked n e he hhost
      · rw [List.mem_singleton.mp (List.mem_of_getElem? he)]
        exact Entry.tracked_new _ _
    | drop => exact closeSession_tracked h.tracked _ n e he hhost
    | _ => exact h.tracked n e he hhost
  | watch _ hn => cases hn <;> exact h.tracked n e he hhost
  | closing _ hn =>
    cases hn with
    | close => exact closeSession_tracked h.tracked _ n e he hhost
    | _ => exact h.tracked n e he hhost
  | @session m label created hst =>
    obtain ⟨e₀, e₁, he₀, hs, rfl⟩ := System.stepAt_some hst
    rcases getElem?_set_some he with ⟨rfl, rfl⟩ | ⟨-, he⟩
    · have hhost₀ := (Entry.step_later hs).host.symm.trans hhost
      exact (h.tracked n e₀ he₀ hhost₀).step hs (hok e₀ he₀ hhost₀)
    · exact h.tracked n e he hhost
  | serve | close => exact h.tracked n e he hhost

theorem unbound_add {n : Nat} {h : Host} (ha : s.AcceptedFrom n h) :
    (s.add n h).unbound host ≤ s.unbound host + if h = host then 1 else 0 := by
  have happend : (s.add n h).unbound host = s.unbound host + [n].countP (s.neverBound host) := List.countP_append
  rw [happend]
  split
  · exact Nat.add_le_add_left List.countP_le_length _
  · next hne =>
    have hnot : ¬ s.neverBound host n := by
      intro hb
      obtain ⟨e, he, hhost, -⟩ := neverBound_iff.mp hb
      obtain ⟨e', he', rfl⟩ := ha
      rw [he] at he'
      cases he'
      exact hne hhost
    rw [List.countP_singleton, if_neg hnot]

theorem Capped.keep (h : Capped host s) (hm : Maps s) (hn : Next s label s') (hs : s'.sessions.Sublist s.sessions)
    (htracked : ∀ (n : Nat) (e : Entry Host), s'.created[n]? = some e → e.host = host → e.Tracked)
    (hroom : ∀ (i : Nat) (p : ServePhase Host), s'.serves[i]? = some p → p.brings host →
      (∃ (j : Nat) (r : ServePhase Host), s.serves[j]? = some r ∧ r.brings host) ∨ s.unbound host < s.config.maxUnboundPerIP) :
    Capped host s' := by
  have hle : s'.unbound host ≤ s.unbound host := unbound_mono hm (step_later hn) hs
  have hcfg := hn.config_eq
  refine ⟨htracked, ?_, fun i p hp hb => ?_⟩
  · have := h.count
    rw [hcfg]
    omega
  · have hlt : s.unbound host < s.config.maxUnboundPerIP := by
      rcases hroom i p hp hb with ⟨j, r, hr, hbr⟩ | hlt
      · exact h.room j r hr hbr
      · exact hlt
    rw [hcfg]
    omega

theorem ServeNext.brings {p q : ServePhase Host} {choice : ServeChoice Host} {t : Server Host} (hn : ServeNext s p choice t q)
    (hpos : 0 < s.config.maxUnboundPerIP) (hex : s.config.exemptFromUnboundCap host = false) (hb : q.brings host) :
    p.brings host ∨ s.unboundFromLocked host < s.config.maxUnboundPerIP := by
  cases hn with
  | pass _ hfew =>
    right
    have hb : _ = host := hb
    subst hb
    simp only [Server.tooManyUnbound, hpos, hex, decide_true, Bool.not_false, Bool.true_and, decide_eq_false_iff_not] at hfew
    omega
  | create => exact .inl hb
  | turnAway hq | dropped hq => rcases hq with rfl | rfl <;> exact hb.elim
  | _ => exact hb.elim

/-- The step lemma. -/
theorem Capped.step (h : Capped host s) (ho : Owned s) (hpos : 0 < s.config.maxUnboundPerIP)
    (hex : s.config.exemptFromUnboundCap host = false) (hok : NoOutbind host s label) (hn : Next s label s') :
    Capped host s' := by
  have htracked := h.tracked_step hok hn
  have hnext := hn
  cases hn with
  | serve =>
    refine h.keep ho.maps hnext (List.Sublist.refl _) htracked fun i p hp hb => .inl ?_
    have hp : (s.serves ++ [.entering])[i]? = some p := hp
    rw [List.getElem?_append] at hp
    split at hp
    · exact ⟨i, p, hp, hb⟩
    · rw [List.mem_singleton.mp (List.mem_of_getElem? hp)] at hb
      exact hb.elim
  | @serving i p choice t q hp hn =>
    -- what another call brings, or this one
    have hcase (j : Nat) (r : ServePhase Host) (hr : (t.serves.set i q)[j]? = some r) (hb : r.brings host) :
        (j ≠ i ∧ s.serves[j]? = some r) ∨ j = i ∧ q.brings host := by
      rw [hn.serves_eq] at hr
      rcases getElem?_set_some hr with ⟨hj, rfl⟩ | hr
      · exact .inr ⟨hj, hb⟩
      · exact .inl hr
    by_cases hsess : t.sessions = s.sessions
    · refine h.keep ho.maps hnext (by rw [show _ = s.sessions from hsess]) htracked fun j r hr hb => ?_
      rcases hcase j r hr hb with ⟨-, hr⟩ | ⟨-, hq⟩
      · exact .inl ⟨j, r, hr, hb⟩
      · rcases hn.brings hpos hex hq with hb | hlt
        · exact .inl ⟨i, p, hp, hb⟩
        · right
          have := unbound_le ho.maps h.tracked
          omega
    · cases hn with
      | @add n h' hopen hlimit =>
        obtain ⟨-, haccepted⟩ := ho.loops.handles hp
        have hadd : (s.add n h').unbound host ≤ s.unbound host + if h' = host then 1 else 0 := unbound_add haccepted
        refine ⟨htracked, ?_, fun j r hr hb => ?_⟩
        · show ((s.add n h').unbound host : Int) ≤ s.config.maxUnboundPerIP
          have hcount := h.count
          split at hadd
          · next hhost =>
            have := h.room i _ hp hhost
            omega
          · omega
        · -- nobody else is in the accept loop
          rcases hcase j r hr hb with ⟨hj, hr⟩ | ⟨-, hq⟩
          · exact absurd (ho.loops.sole hr hp (ServePhase.active_of_brings hb) rfl) hj
          · exact hq.elim
      | _ => exact absurd rfl hsess
  | watch _ hn =>
    cases hn with
    | remove => exact h.keep ho.maps hnext List.filter_sublist htracked fun i p hp hb => .inl ⟨i, p, hp, hb⟩
    | _ => exact h.keep ho.maps hnext (List.Sublist.refl _) htracked fun i p hp hb => .inl ⟨i, p, hp, hb⟩
  | close => exact h.keep ho.maps hnext (List.Sublist.refl _) htracked fun i p hp hb => .inl ⟨i, p, hp, hb⟩
  | closing _ hn =>
    cases hn <;> exact h.keep ho.maps hnext (List.Sublist.refl _) htracked fun i p hp hb => .inl ⟨i, p, hp, hb⟩
  | session => exact h.keep ho.maps hnext (List.Sublist.refl _) htracked fun i p hp hb => .inl ⟨i, p, hp, hb⟩

end Step

/-- **The cap on unbound connections.** From one host there are never more live sessions that have not completed a bind than
`MaxUnboundPerIP`, as long as no outbind begins on a session of that host. -/
theorem run_capped (config : Config Host) (host : Host) (hpos : 0 < config.maxUnboundPerIP)
    (hex : config.exemptFromUnboundCap host = false) {s : Server Host} (h : servers.Run (NoOutbind host) (new config) s) :
    s.unbound host ≤ config.maxUnboundPerIP := by
  have hinv : s.config = config ∧ Owned s ∧ Capped host s := by
    refine h.invariant (P := fun t => t.config = config ∧ Owned t ∧ Capped host t) (fun t label t' hok hst ht => ?_) ?_
    · obtain ⟨hcfg, ho, hc⟩ := ht
      have hn := step_next hst
      exact ⟨hn.config_eq.trans hcfg, ho.step hn, hc.step ho (hcfg ▸ hpos) (hcfg ▸ hex) hok hn⟩
    · have hcapped : Capped host (new config) := {
        tracked := fun _ _ he _ => by cases he
        count := Int.le_of_lt hpos
        room := fun _ _ hp _ => by cases hp }
      exact ⟨rfl, owned_new config, hcapped⟩
  obtain ⟨rfl, -, hcapped⟩ := hinv
  exact hcapped.count

/-- A server that lets in one unbound connection from a host. -/
def oneUnbound : Config Nat := { maxUnboundPerIP := 1, sessionConfig := {} }

/-- The accept loop takes up a connection, and comes back to accept another. -/
def takesUp (host : Nat) : List (Label Nat) :=
  [.serving 0 (.accepted host), .serving 0 .go, .serving 0 .created, .serving 0 .go, .serving 0 .go]

def turnsAway : List (Label Nat) := [.serve, .serving 0 .go] ++ takesUp 7 ++ [.serving 0 (.accepted 7), .serving 0 .go]

/-- A second connection from the host is turned away. -/
theorem run_capped_second :
    ((servers.after (NoOutbind 7) (new oneUnbound) turnsAway).unbound 7 : Int) ≤ 1 ∧
      (servers.after (NoOutbind 7) (new oneUnbound) turnsAway).sessions.length = 1 :=
  ⟨run_capped oneUnbound 7 (by decide) rfl (servers.run_after (NoOutbind 7) _ turnsAway (by decide +kernel)),
    by decide +kernel⟩

/-- An outbind to the session makes room for a second connection. -/
theorem capped_outbind : ∃ s, servers.Run anyStep (new oneUnbound) s ∧ s.unbound 7 = 2 ∧
    s.created.map (·.session.machine.state) = [.outbound, .open] :=
  ⟨_, servers.run_after anyStep (new oneUnbound) ([.serve, .serving 0 .go] ++ takesUp 7 ++
      [.session 0 (.sendOneWay commandOutbind emptyBody), .session 0 (.send 0 .go), .session 0 (.send 0 .go)] ++ takesUp 7)
    (by decide +kernel), by decide +kernel, by decide +kernel⟩

end GoSmpp.Server
