import GoSmpp.Lib.Assoc
import GoSmpp.Lib.Family
import GoSmpp.Session.Effects

/-!
# The sessions of a server

`Serve`, `watch` and `Close` of `server/server.go` with `unboundFromLocked` of `server/unbound.go`: the accept loop, the
goroutines that wait for the end of a session, and the calls that close the server, over the sessions themselves. A section
under `s.mu` is one step.

* `Server`, `Server.step`: every interleaving of them. The host of a connection is what `hostKey` makes of its address.
* `ServeNext`, `WatchNext`, `CloseNext`: the steps of each.
* `Owned`: the two maps agree, the limit is kept and what has left the maps is closed.
* `run_owned`: this holds in every state reached; once a call of `Close` has returned every session is closed, unless the
  listener has panicked when it was closed.
* `close_returns_open`: after such a panic `Close` returns and leaves the sessions open.
-/

namespace GoSmpp.Server
open Lib Protocol Session

/-- `server.Config`, as far as the accept loop reads it. -/
structure Config (Host : Type) where
  maxSessions : Int := 0
  maxUnboundPerIP : Int := 0
  exemptFromUnboundCap : Host → Bool := fun _ => false
  sessionConfig : Session.Config

/-- A session with the host that it was accepted from. `everBound` is history: it has completed a bind. -/
structure Entry (Host : Type) where
  session : Session
  host : Host
  everBound : Bool := false

inductive ServePhase (Host : Type) where
  | entering
  /-- in `Accept` -/
  | accepting
  /-- `Accept` has failed -/
  | failing (err : Err) (cancelled : Bool)
  /-- before the first check of the limits -/
  | checking (host : Host)
  /-- before `session.New` -/
  | creating (host : Host)
  /-- before the second check and the insertion -/
  | adding (n : Nat) (host : Host)
  /-- before `sess.Close`, and whether the loop ends after it -/
  | dropping (n : Nat) (ends : Bool)
  /-- in `sess.Close` -/
  | awaiting (n : Nat) (ends : Bool)
  /-- before `go s.watch` -/
  | spawning (n : Nat) (host : Host)
  /-- before the deferred functions -/
  | returning (err : Option Err)
  | returned (err : Option Err)
  deriving DecidableEq, Repr

inductive WatchPhase where
  /-- before `<-sess.Done()` -/
  | waiting
  /-- in `sess.Wait` -/
  | joining
  | removing
  | finished
  deriving DecidableEq, Repr

structure Watch (Host : Type) where
  session : Nat
  host : Host
  phase : WatchPhase := .waiting
  deriving DecidableEq, Repr

inductive ClosePhase where
  /-- before `closeOnce.Do` -/
  | entering
  /-- before `s.closed = true` -/
  | marking
  /-- before `listener.Close` -/
  | listening (sessions : List Nat)
  | closing (sessions : List Nat)
  /-- in `sess.Close` -/
  | awaiting (n : Nat) (sessions : List Nat)
  | returned
  | panicked
  deriving DecidableEq, Repr

/-- `sync.Once`. It is done also when its function has panicked. -/
inductive Once where
  | fresh
  | running
  | done
  deriving DecidableEq, Repr

end GoSmpp.Server

namespace GoSmpp
open Server

/-- `server.Server`. A session is its place in `created`; `added` is history. -/
structure Server (Host : Type) where
  config : Config Host
  created : List (Entry Host) := []
  sessions : List Nat := []
  byHost : List (Host × List Nat) := []
  serving : Bool := false
  closed : Bool := false
  closeOnce : Once := .fresh
  refusedUnbound : Nat := 0
  serves : List (ServePhase Host) := []
  watches : List (Watch Host) := []
  closes : List ClosePhase := []
  added : List Nat := []

end GoSmpp

namespace GoSmpp.Server
open Lib Protocol Session

variable {Host : Type}

/-- What the environment chooses for the accept loop. -/
inductive ServeChoice (Host : Type) where
  | go
  /-- a connection from the host is accepted -/
  | accepted (host : Host)
  /-- `Accept` fails; whether the context is done -/
  | failed (err : Err) (cancelled : Bool)
  /-- `session.New` succeeds -/
  | created
  /-- it fails -/
  | refused
  deriving DecidableEq, Repr

/-- What the environment chooses for a call of `Close`. -/
inductive CloseChoice where
  | go
  /-- the map of the sessions is ranged over in this order -/
  | snapshot (sessions : List Nat)
  /-- the listener panics when it is closed -/
  | panic
  deriving DecidableEq, Repr

inductive Label (Host : Type) where
  /-- a goroutine calls `Serve` -/
  | serve
  | serving (i : Nat) (choice : ServeChoice Host)
  | watch (i : Nat)
  /-- a goroutine calls `Close` -/
  | close
  | closing (i : Nat) (choice : CloseChoice)
  /-- a step of a session -/
  | session (n : Nat) (label : Session.Label)
  deriving DecidableEq, Repr

/-- A step of a session; the bind is completed when the machine is bound. -/
def Entry.step (e : Entry Host) (label : Session.Label) : Option (Entry Host) := do
  let session ← e.session.step label
  some { e with session, everBound := e.everBound || isBoundState session.machine.state }

/-- The sessions of a server as step systems. -/
def entries : System (Entry Host) Session.Label where
  step := Entry.step

/-- `sess.Close()`, up to the point where `terminate` has been called. -/
def closeSession (s : Server Host) (n : Nat) : Server Host :=
  { s with created := (entries.stepAt s.created n (.terminate (.sentinel .sessionClosed))).getD s.created }

/-- `sess.Close` can return: `terminate` is done. -/
def terminated (s : Server Host) (n : Nat) : Bool := s.created[n]?.any (·.session.termination == .finished)

def done (s : Server Host) (n : Nat) : Bool := s.created[n]?.any (·.session.termination.done)

/-! ## The sessions go on -/

structure Entry.Later (e e' : Entry Host) : Prop where
  host : e'.host = e.host
  done : e.session.termination.done → e'.session.termination.done
  running : e'.session.termination = .running → e.session.termination = .running
  everBound : e.everBound → e'.everBound

theorem Entry.Later.refl (e : Entry Host) : e.Later e := ⟨rfl, id, id, id⟩

theorem Entry.step_later {e e' : Entry Host} {label : Session.Label} (h : e.step label = some e') : e.Later e' := by
  obtain ⟨session, hs, h⟩ := Option.bind_eq_some_iff.mp h
  cases h
  exact ⟨rfl, Session.step_done hs, Session.step_running hs, fun hb => by rw [hb]; rfl⟩

theorem stepAt_later {l l' : List (Entry Host)} {n : Nat} {label : Session.Label} (h : entries.stepAt l n label = some l') :
    Each Entry.Later l l' := by
  obtain ⟨e, e', he, hs, rfl⟩ := System.stepAt_some h
  exact .set Entry.Later.refl he (Entry.step_later hs)

theorem closeSession_later (s : Server Host) (n : Nat) : Each Entry.Later s.created (s.closeSession n).created := by
  unfold Server.closeSession
  cases h : entries.stepAt s.created n (.terminate (.sentinel .sessionClosed)) with
  | none => exact .refl Entry.Later.refl _
  | some l => exact stepAt_later h

/-- The session with the number was accepted from the host. -/
def AcceptedFrom (s : Server Host) (n : Nat) (host : Host) : Prop := ∃ e, s.created[n]? = some e ∧ e.host = host

section Keep
variable {s s' : Server Host} {n : Nat} {host : Host}

theorem done_iff : s.done n ↔ ∃ e, s.created[n]? = some e ∧ e.session.termination.done := Option.any_eq_true _ _

theorem done_of_terminated (h : s.terminated n) : s.done n := by
  obtain ⟨e, he, ht⟩ := (Option.any_eq_true _ _).mp h
  exact done_iff.mpr ⟨e, he, by rw [beq_iff_eq.mp ht]; rfl⟩

theorem done_later (h : Each Entry.Later s.created s'.created) (hd : s.done n) : s'.done n := by
  obtain ⟨e, he, hd⟩ := done_iff.mp hd
  obtain ⟨e', he', hl⟩ := h n e he
  exact done_iff.mpr ⟨e', he', hl.done hd⟩

theorem AcceptedFrom.later (ha : s.AcceptedFrom n host) (h : Each Entry.Later s.created s'.created) : s'.AcceptedFrom n host := by
  obtain ⟨e, he, rfl⟩ := ha
  obtain ⟨e', he', hl⟩ := h n e he
  exact ⟨e', he', hl.host⟩

theorem acceptedFrom_iff (h : Each Entry.Later s.created s'.created) (hn : n < s.created.length) :
    s'.AcceptedFrom n host ↔ s.AcceptedFrom n host := by
  refine ⟨?_, fun ha => ha.later h⟩
  rintro ⟨e', he', rfl⟩
  have he := List.getElem?_eq_getElem hn
  obtain ⟨e'', he'', hl⟩ := h n _ he
  rw [he'] at he''
  cases he''
  exact ⟨_, he, hl.host.symm⟩

theorem lt_of_later (h : Each Entry.Later s.created s'.created) (hn : n < s.created.length) : n < s'.created.length := by
  obtain ⟨e', he', -⟩ := h n _ (List.getElem?_eq_getElem hn)
  exact (List.getElem?_eq_some_iff.mp he').1

end Keep

/-! ## The server -/

/-- A call of `Serve` that is in its loop. -/
def ServePhase.active : ServePhase Host → Bool
  | .entering | .returned _ => false
  | _ => true

/-- What holds of a session that the accept loop is about to put into the maps, or has put there. -/
def ServePhase.Handles (s : Server Host) : ServePhase Host → Prop
  | .adding n host => n ∉ s.added ∧ s.AcceptedFrom n host
  | .spawning n host => s.AcceptedFrom n host
  | _ => True

section Handles
variable {s s' : Server Host} {p : ServePhase Host}

theorem ServePhase.Handles.keep (h : p.Handles s) (ha : s'.added = s.added) (hl : Each Entry.Later s.created s'.created) :
    p.Handles s' := by
  cases p with
  | adding n host => exact ⟨ha ▸ h.1, h.2.later hl⟩
  | spawning n host => exact AcceptedFrom.later h hl
  | _ => trivial

theorem ServePhase.handles_of_inactive (h : p.active = false) : p.Handles s := by
  cases p <;> trivial

/-- There is one accept loop at most. -/
structure Loops (s : Server Host) : Prop where
  serving : ∀ {i : Nat} {p : ServePhase Host}, s.serves[i]? = some p → p.active → s.serving
  sole : ∀ {i j : Nat} {p q : ServePhase Host}, s.serves[i]? = some p → s.serves[j]? = some q → p.active → q.active → i = j
  handles : ∀ {i : Nat} {p : ServePhase Host}, s.serves[i]? = some p → p.Handles s

/-- Every session that is watched is removed from where it was put, after its end. -/
def Watched (s : Server Host) : Prop :=
  ∀ w ∈ s.watches, s.AcceptedFrom w.session w.host ∧ (w.phase ≠ .waiting → s.done w.session)

theorem Watched.keep (h : Watched s) (hl : Each Entry.Later s.created s'.created) (hw : s'.watches = s.watches) :
    Watched s' := by
  intro w hm
  obtain ⟨ha, hd⟩ := h w (hw ▸ hm)
  exact ⟨ha.later hl, fun hne => done_later hl (hd hne)⟩

theorem Loops.keep (h : Loops s) (hl : Each Entry.Later s.created s'.created) (ha : s'.added = s.added)
    (hs : s'.serves = s.serves) (hserving : s'.serving = s.serving) : Loops s' where
  serving hp hact := hserving ▸ h.serving (hs ▸ hp) hact
  sole hp hq := h.sole (hs ▸ hp) (hs ▸ hq)
  handles hp := (h.handles (hs ▸ hp)).keep ha hl

end Handles

variable [DecidableEq Host]

def unboundFromLocked (s : Server Host) (host : Host) : Nat :=
  (Assoc.under s.byHost host).countP fun n => s.created[n]?.any (·.session.machine.state == .open)

def atLimit (s : Server Host) : Bool := 0 < s.config.maxSessions && s.config.maxSessions ≤ s.sessions.length

def tooManyUnbound (s : Server Host) (host : Host) : Bool :=
  0 < s.config.maxUnboundPerIP && !s.config.exemptFromUnboundCap host &&
    s.config.maxUnboundPerIP ≤ s.unboundFromLocked host

/-- The session is put into both maps. -/
def add (s : Server Host) (n : Nat) (host : Host) : Server Host :=
  { s with sessions := s.sessions ++ [n], byHost := Assoc.addUnder s.byHost host n, added := s.added ++ [n] }

/-- The session is deleted from both maps. -/
def discard (s : Server Host) (n : Nat) (host : Host) : Server Host :=
  { s with sessions := s.sessions.filter (· ≠ n), byHost := Assoc.removeUnder s.byHost host n }

def serveStep (s : Server Host) (i : Nat) (phase : ServePhase Host) (choice : ServeChoice Host) : Option (Server Host) :=
  let goto (s : Server Host) (phase : ServePhase Host) : Option (Server Host) := some { s with serves := s.serves.set i phase }
  match phase, choice with
  | .entering, .go =>
    if s.serving then goto s (.returned (some (.sentinel .alreadyServing)))
    else if s.closed then goto s (.returned (some (.sentinel .netClosed)))
    else goto { s with serving := true } .accepting
  | .accepting, .accepted host => goto s (.checking host)
  | .accepting, .failed err cancelled => goto s (.failing err cancelled)
  | .failing err cancelled, .go => goto s (.returning (if s.closed || cancelled then none else some err))
  | .checking host, .go =>
    if s.closed || s.atLimit || s.tooManyUnbound host then
      goto { s with refusedUnbound := s.refusedUnbound + if !s.closed && s.tooManyUnbound host && !s.atLimit then 1 else 0 }
        (if s.closed then .returning none else .accepting)
    else goto s (.creating host)
  | .creating host, .created =>
    goto { s with created := s.created ++ [{ session := Session.new s.config.sessionConfig .smsc, host }] }
      (.adding s.created.length host)
  | .creating _, .refused => goto s .accepting
  | .adding n host, .go =>
    if s.closed then goto s (.dropping n true)
    else if s.atLimit then goto s (.dropping n false)
    else goto (s.add n host) (.spawning n host)
  | .dropping n ends, .go => goto (s.closeSession n) (.awaiting n ends)
  | .awaiting n ends, .go => if s.terminated n then goto s (if ends then .returning none else .accepting) else none
  | .spawning n host, .go => goto { s with watches := s.watches ++ [{ session := n, host }] } .accepting
  | .returning err, .go => goto { s with serving := false } (.returned err)
  | _, _ => none

/-- One step of the goroutine `i` of `watch`. `sess.Wait` may return at any time after the end of the session. -/
def watchStep (s : Server Host) (i : Nat) (w : Watch Host) : Option (Server Host) :=
  let goto (s : Server Host) (phase : WatchPhase) : Option (Server Host) :=
    some { s with watches := s.watches.set i { w with phase } }
  match w.phase with
  | .waiting => if s.done w.session then goto s .joining else none
  | .joining => goto s .removing
  | .removing => goto (s.discard w.session w.host) .finished
  | .finished => none

def closeStep (s : Server Host) (i : Nat) (phase : ClosePhase) (choice : CloseChoice) : Option (Server Host) :=
  let goto (s : Server Host) (phase : ClosePhase) : Option (Server Host) := some { s with closes := s.closes.set i phase }
  match phase, choice with
  | .entering, .go =>
    match s.closeOnce with
    | .fresh => goto { s with closeOnce := .running } .marking
    | .running => none
    | .done => goto s .returned
  | .marking, .snapshot sessions =>
    if sessions.isPerm s.sessions then goto { s with closed := true } (.listening sessions) else none
  | .listening sessions, .go => goto s (.closing sessions)
  | .listening _, .panic => goto { s with closeOnce := .done } .panicked
  | .closing (n :: sessions), .go => goto (s.closeSession n) (.awaiting n sessions)
  | .closing [], .go => goto { s with closeOnce := .done } .returned
  | .awaiting n sessions, .go => if s.terminated n then goto s (.closing sessions) else none
  | _, _ => none

def step (s : Server Host) : Label Host → Option (Server Host)
  | .serve => some { s with serves := s.serves ++ [.entering] }
  | .serving i choice => do s.serveStep i (← s.serves[i]?) choice
  | .watch i => do s.watchStep i (← s.watches[i]?)
  | .close => some { s with closes := s.closes ++ [.entering] }
  | .closing i choice => do s.closeStep i (← s.closes[i]?) choice
  | .session n label => do some { s with created := ← entries.stepAt s.created n label }

def servers : System (Server Host) (Label Host) where
  step := step

/-- `NewWithConfig`. -/
def new (config : Config Host) : Server Host := { config }

/-! ## The steps -/

/-- A step of a call of `Serve`: from where, by what choice, what becomes of the server, and where it goes on. -/
inductive ServeNext (s : Server Host) : ServePhase Host → ServeChoice Host → Server Host → ServePhase Host → Prop
  | refuse {err} : ServeNext s .entering .go s (.returned err)
  | start : s.serving = false → ServeNext s .entering .go { s with serving := true } .accepting
  | accept (host : Host) : ServeNext s .accepting (.accepted host) s (.checking host)
  | fail (err : Err) (cancelled : Bool) : ServeNext s .accepting (.failed err cancelled) s (.failing err cancelled)
  | failed {err cancelled err'} : ServeNext s (.failing err cancelled) .go s (.returning err')
  /-- the connection is closed again -/
  | turnAway {host refusedUnbound q} : q = .accepting ∨ q = .returning none →
      ServeNext s (.checking host) .go { s with refusedUnbound } q
  | pass {host} : s.closed = false → s.tooManyUnbound host = false → ServeNext s (.checking host) .go s (.creating host)
  | create {host} : ServeNext s (.creating host) .created
      { s with created := s.created ++ [{ session := Session.new s.config.sessionConfig .smsc, host }] }
      (.adding s.created.length host)
  | skip {host} : ServeNext s (.creating host) .refused s .accepting
  | late {n host ends} : s.closed ∨ s.atLimit → ServeNext s (.adding n host) .go s (.dropping n ends)
  | add {n host} : s.closed = false → s.atLimit = false → ServeNext s (.adding n host) .go (s.add n host) (.spawning n host)
  | drop {n ends} : ServeNext s (.dropping n ends) .go (s.closeSession n) (.awaiting n ends)
  | dropped {n ends q} : q = .accepting ∨ q = .returning none → ServeNext s (.awaiting n ends) .go s q
  | spawn {n host} : ServeNext s (.spawning n host) .go { s with watches := s.watches ++ [{ session := n, host }] } .accepting
  | return {err} : ServeNext s (.returning err) .go { s with serving := false } (.returned err)

inductive WatchNext (s : Server Host) (w : Watch Host) : Server Host → WatchPhase → Prop
  | done : w.phase = .waiting → s.done w.session → WatchNext s w s .joining
  | join : w.phase = .joining → WatchNext s w s .removing
  | remove : w.phase = .removing → WatchNext s w (s.discard w.session w.host) .finished

inductive CloseNext (s : Server Host) : ClosePhase → CloseChoice → Server Host → ClosePhase → Prop
  | first : s.closeOnce = .fresh → CloseNext s .entering .go { s with closeOnce := .running } .marking
  | again : s.closeOnce = .done → CloseNext s .entering .go s .returned
  | mark {sessions} : sessions.Perm s.sessions →
      CloseNext s .marking (.snapshot sessions) { s with closed := true } (.listening sessions)
  | listen {sessions} : CloseNext s (.listening sessions) .go s (.closing sessions)
  | panic {sessions} : CloseNext s (.listening sessions) .panic { s with closeOnce := .done } .panicked
  | close {n sessions} : CloseNext s (.closing (n :: sessions)) .go (s.closeSession n) (.awaiting n sessions)
  | next {n sessions} : s.terminated n → CloseNext s (.awaiting n sessions) .go s (.closing sessions)
  | return : CloseNext s (.closing []) .go { s with closeOnce := .done } .returned

inductive Next (s : Server Host) : Label Host → Server Host → Prop
  | serve : Next s .serve { s with serves := s.serves ++ [.entering] }
  | serving {i p choice t q} : s.serves[i]? = some p → ServeNext s p choice t q →
      Next s (.serving i choice) { t with serves := t.serves.set i q }
  | watch {i w t q} : s.watches[i]? = some w → WatchNext s w t q →
      Next s (.watch i) { t with watches := t.watches.set i { w with phase := q } }
  | close : Next s .close { s with closes := s.closes ++ [.entering] }
  | closing {i p choice t q} : s.closes[i]? = some p → CloseNext s p choice t q →
      Next s (.closing i choice) { t with closes := t.closes.set i q }
  | session {n label created} : entries.stepAt s.created n label = some created →
      Next s (.session n label) { s with created }

section Step
variable {s s' : Server Host} {i : Nat}

theorem serveStep_next {p : ServePhase Host} {choice : ServeChoice Host} (h : s.serveStep i p choice = some s') :
    ∃ t q, ServeNext s p choice t q ∧ s' = { t with serves := t.serves.set i q } := by
  unfold Server.serveStep at h
  split at h
  case h_1 =>
    split at h
    · cases h; exact ⟨_, _, .refuse, rfl⟩
    · next hs =>
      split at h
      · cases h; exact ⟨_, _, .refuse, rfl⟩
      · cases h; exact ⟨_, _, .start (Bool.eq_false_iff.mpr hs), rfl⟩
  case h_2 host => cases h; exact ⟨_, _, .accept host, rfl⟩
  case h_3 err cancelled => cases h; exact ⟨_, _, .fail err cancelled, rfl⟩
  case h_4 => cases h; exact ⟨_, _, .failed, rfl⟩
  case h_5 =>
    split at h
    · cases h
      refine ⟨_, _, .turnAway ?_, rfl⟩
      split
      · exact .inr rfl
      · exact .inl rfl
    · next hpass =>
      cases h
      simp only [Bool.or_eq_true, not_or, Bool.not_eq_true] at hpass
      exact ⟨_, _, .pass hpass.1.1 hpass.2, rfl⟩
  case h_6 => cases h; exact ⟨_, _, .create, rfl⟩
  case h_7 => cases h; exact ⟨_, _, .skip, rfl⟩
  case h_8 =>
    split at h
    · next hc => cases h; exact ⟨_, _, .late (.inl hc), rfl⟩
    · next hc =>
      split at h
      · next hl => cases h; exact ⟨_, _, .late (.inr hl), rfl⟩
      · next hl => cases h; exact ⟨_, _, .add (Bool.eq_false_iff.mpr hc) (Bool.eq_false_iff.mpr hl), rfl⟩
  case h_9 => cases h; exact ⟨_, _, .drop, rfl⟩
  case h_10 =>
    split at h
    · cases h
      refine ⟨_, _, .dropped ?_, rfl⟩
      split
      · exact .inr rfl
      · exact .inl rfl
    · cases h
  case h_11 => cases h; exact ⟨_, _, .spawn, rfl⟩
  case h_12 => cases h; exact ⟨_, _, .return, rfl⟩
  case h_13 => cases h

theorem watchStep_next {w : Watch Host} (h : s.watchStep i w = some s') :
    ∃ t q, WatchNext s w t q ∧ s' = { t with watches := t.watches.set i { w with phase := q } } := by
  unfold Server.watchStep at h
  split at h
  case h_1 hp =>
    split at h
    · next hd => cases h; exact ⟨_, _, .done hp hd, rfl⟩
    · cases h
  case h_2 hp => cases h; exact ⟨_, _, .join hp, rfl⟩
  case h_3 hp => cases h; exact ⟨_, _, .remove hp, rfl⟩
  case h_4 => cases h

omit [DecidableEq Host] in
theorem closeStep_next {p : ClosePhase} {choice : CloseChoice} (h : s.closeStep i p choice = some s') :
    ∃ t q, CloseNext s p choice t q ∧ s' = { t with closes := t.closes.set i q } := by
  unfold Server.closeStep at h
  split at h
  case h_1 =>
    split at h
    · next ho => cases h; exact ⟨_, _, .first ho, rfl⟩
    · cases h
    · next ho => cases h; exact ⟨_, _, .again ho, rfl⟩
  case h_2 =>
    split at h
    · next hp => cases h; exact ⟨_, _, .mark (List.isPerm_iff.mp hp), rfl⟩
    · cases h
  case h_3 => cases h; exact ⟨_, _, .listen, rfl⟩
  case h_4 => cases h; exact ⟨_, _, .panic, rfl⟩
  case h_5 => cases h; exact ⟨_, _, .close, rfl⟩
  case h_6 => cases h; exact ⟨_, _, .return, rfl⟩
  case h_7 =>
    split at h
    · next ht => cases h; exact ⟨_, _, .next ht, rfl⟩
    · cases h
  case h_8 => cases h

theorem step_next {label : Label Host} (h : s.step label = some s') : Next s label s' := by
  cases label with
  | serve => cases h; exact .serve
  | serving i choice =>
    obtain ⟨p, hp, h⟩ := Option.bind_eq_some_iff.mp h
    obtain ⟨t, q, hn, rfl⟩ := serveStep_next h
    exact .serving hp hn
  | watch i =>
    obtain ⟨w, hw, h⟩ := Option.bind_eq_some_iff.mp h
    obtain ⟨t, q, hn, rfl⟩ := watchStep_next h
    exact .watch hw hn
  | close => cases h; exact .close
  | closing i choice =>
    obtain ⟨p, hp, h⟩ := Option.bind_eq_some_iff.mp h
    obtain ⟨t, q, hn, rfl⟩ := closeStep_next h
    exact .closing hp hn
  | session n label =>
    obtain ⟨created, hc, h⟩ := Option.bind_eq_some_iff.mp h
    cases h
    exact .session hc

theorem step_later {label : Label Host} (h : Next s label s') : Each Entry.Later s.created s'.created := by
  have hrefl : Each Entry.Later s.created s.created := .refl Entry.Later.refl _
  cases h with
  | serving _ hn =>
    cases hn with
    | create => exact .append Entry.Later.refl _ _
    | drop => exact s.closeSession_later _
    | _ => exact hrefl
  | watch _ hn => cases hn <;> exact hrefl
  | closing _ hn =>
    cases hn with
    | close => exact s.closeSession_later _
    | _ => exact hrefl
  | session hc => exact stepAt_later hc
  | serve | close => exact hrefl

end Step

/-! ## The maps agree -/

/-- The session is in the set of the host. -/
def FromHost (s : Server Host) (host : Host) (n : Nat) : Prop := n ∈ Assoc.under s.byHost host

/-- The maps agree, the limit is kept, and a session that has left the maps has ended. -/
structure Maps (s : Server Host) : Prop where
  limit : 0 < s.config.maxSessions → s.sessions.length ≤ s.config.maxSessions
  nodup : s.sessions.Nodup
  fromHost : ∀ host n, s.FromHost host n ↔ n ∈ s.sessions ∧ s.AcceptedFrom n host
  occupied : Assoc.Occupied s.byHost
  ended : ∀ n ∈ s.added, n ∈ s.sessions ∨ s.done n
  added : ∀ n ∈ s.sessions, n ∈ s.added
  known : ∀ n ∈ s.added, n < s.created.length

section Keep
variable {s s' : Server Host} {n : Nat} {host : Host}

theorem Maps.keep (h : Maps s) (hcfg : s'.config = s.config) (hs : s'.sessions = s.sessions) (hb : s'.byHost = s.byHost)
    (ha : s'.added = s.added) (hl : Each Entry.Later s.created s'.created) : Maps s' where
  limit hpos := by
    rw [hcfg] at hpos
    rw [hs, hcfg]
    exact h.limit hpos
  nodup := hs ▸ h.nodup
  fromHost host n := by
    unfold Server.FromHost
    rw [hb, hs]
    refine (h.fromHost host n).trans (and_congr_right fun hn => ?_)
    exact (acceptedFrom_iff hl (h.known n (h.added n hn))).symm
  occupied := hb ▸ h.occupied
  ended n hn := by
    rw [hs]
    exact (h.ended n (ha ▸ hn)).imp_right (done_later hl)
  added n hn := ha ▸ h.added n (hs ▸ hn)
  known n hn := lt_of_later hl (h.known n (ha ▸ hn))

theorem Maps.add (h : Maps s) (hn : n ∉ s.added) (ha : s.AcceptedFrom n host) (hlimit : s.atLimit = false) :
    Maps (s.add n host) where
  limit hpos := by
    have hpos : 0 < s.config.maxSessions := hpos
    have hlt : s.sessions.length < s.config.maxSessions := by
      simp only [Server.atLimit, Bool.and_eq_false_iff, decide_eq_false_iff_not] at hlimit
      omega
    show ((s.sessions ++ [n]).length : Int) ≤ s.config.maxSessions
    rw [List.length_append, List.length_singleton]
    omega
  nodup := by
    show (s.sessions ++ [n]).Nodup
    rw [List.nodup_append]
    refine ⟨h.nodup, List.nodup_singleton n, fun a ha b hb => ?_⟩
    rintro rfl
    rw [List.mem_singleton] at hb
    exact hn (hb ▸ h.added a ha)
  fromHost host' m := by
    have hold := h.fromHost host' m
    unfold Server.FromHost at hold ⊢
    show m ∈ Assoc.under (Assoc.addUnder s.byHost host n) host' ↔ m ∈ s.sessions ++ [n] ∧ s.AcceptedFrom m host'
    rw [List.mem_append, List.mem_singleton]
    by_cases hh : host' = host
    · subst hh
      rw [Assoc.under_addUnder_self, List.mem_append, List.mem_singleton, hold, or_and_right]
      refine or_congr_right ⟨?_, And.left⟩
      rintro rfl
      exact ⟨rfl, ha⟩
    · rw [Assoc.under_addUnder_ne hh, hold, or_and_right, or_iff_left]
      rintro ⟨rfl, e, he, hhost⟩
      obtain ⟨e', he', rfl⟩ := ha
      rw [he] at he'
      cases he'
      exact hh hhost.symm
  occupied := h.occupied.addUnder
  ended m hm := by
    show m ∈ s.sessions ++ [n] ∨ s.done m
    rcases List.mem_append.mp hm with hm | hm
    · exact (h.ended m hm).imp_left (List.mem_append_left _)
    · exact .inl (List.mem_append_right _ hm)
  added m hm := by
    rcases List.mem_append.mp hm with hm | hm
    · exact List.mem_append_left _ (h.added m hm)
    · exact List.mem_append_right _ hm
  known m hm := by
    rcases List.mem_append.mp hm with hm | hm
    · exact h.known m hm
    · rw [List.mem_singleton.mp hm]
      obtain ⟨e, he, -⟩ := ha
      exact (List.getElem?_eq_some_iff.mp he).1

theorem Maps.discard (h : Maps s) (ha : s.AcceptedFrom n host) (hd : s.done n) : Maps (s.discard n host) where
  limit hpos := by
    have hle : (s.sessions.filter (· ≠ n)).length ≤ s.sessions.length := List.length_filter_le ..
    have := h.limit hpos
    show ((s.sessions.filter (· ≠ n)).length : Int) ≤ s.config.maxSessions
    omega
  nodup := h.nodup.filter _
  fromHost host' m := by
    have hold := h.fromHost host' m
    unfold Server.FromHost at hold ⊢
    show m ∈ Assoc.under (Assoc.removeUnder s.byHost host n) host' ↔ m ∈ s.sessions.filter (· ≠ n) ∧ s.AcceptedFrom m host'
    rw [List.mem_filter, decide_eq_true_iff]
    by_cases hh : host' = host
    · subst hh
      rw [Assoc.under_removeUnder_self, List.mem_filter, decide_eq_true_iff, hold, and_right_comm]
    · rw [Assoc.under_removeUnder_ne hh, hold]
      refine ⟨fun ⟨hm, hf⟩ => ⟨⟨hm, ?_⟩, hf⟩, fun ⟨⟨hm, _⟩, hf⟩ => ⟨hm, hf⟩⟩
      rintro rfl
      obtain ⟨e, he, hhost⟩ := hf
      obtain ⟨e', he', rfl⟩ := ha
      rw [he] at he'
      cases he'
      exact hh hhost.symm
  occupied := h.occupied.removeUnder
  ended m hm := by
    show m ∈ s.sessions.filter (· ≠ n) ∨ s.done m
    by_cases hmn : m = n
    · exact .inr (hmn ▸ hd)
    · exact (h.ended m hm).imp_left fun hm => List.mem_filter.mpr ⟨hm, decide_eq_true hmn⟩
  added m hm := h.added m (List.mem_of_mem_filter hm)
  known := h.known

end Keep

/-! ## The accept loop -/

section Loops
variable {s s' t : Server Host} {i : Nat} {p q : ServePhase Host} {choice : ServeChoice Host}

theorem ServeNext.serving_eq (h : ServeNext s p choice t q) :
    (t.serving = s.serving ∧ (q.active → p.active)) ∨ (s.serving = false ∧ t.serving = true) ∨
      (p.active ∧ q.active = false) := by
  cases h with
  | start hs => exact .inr (.inl ⟨hs, rfl⟩)
  | «return» => exact .inr (.inr ⟨rfl, rfl⟩)
  | refuse => exact .inl ⟨rfl, nofun⟩
  | _ => exact .inl ⟨rfl, fun _ => rfl⟩

theorem ServeNext.serves_eq (h : ServeNext s p choice t q) : t.serves = s.serves := by cases h <;> rfl

theorem ServeNext.handles (h : ServeNext s p choice t q) (hp : p.Handles s) (hm : Maps s) : q.Handles t := by
  cases h with
  | @create host => exact ⟨fun hn => Nat.lt_irrefl _ (hm.known _ hn), ⟨_, host, false⟩, List.getElem?_concat_length, rfl⟩
  | add => exact hp.2
  | turnAway hq | dropped hq => rcases hq with rfl | rfl <;> trivial
  | _ => trivial

theorem Loops.serve (h : Loops s) (hm : Maps s) (hp : s.serves[i]? = some p) (hn : ServeNext s p choice t q)
    (hl : Each Entry.Later s.created t.created) : Loops { t with serves := t.serves.set i q } := by
  have hserves := hn.serves_eq
  have hcase {j : Nat} {r : ServePhase Host} (hj : (t.serves.set i q)[j]? = some r) :
      j = i ∧ r = q ∨ j ≠ i ∧ s.serves[j]? = some r := by
    rw [hserves] at hj
    exact getElem?_set_some hj
  -- nobody else is in the loop when the call is, or has just got there
  have hothers {j : Nat} {r : ServePhase Host} (hq : p.active ∨ q.active) (hj : j ≠ i) (hr : s.serves[j]? = some r) :
      r.active = false := by
    by_contra hact
    have hact : r.active = true := Bool.eq_true_of_not_eq_false hact
    rcases hn.serving_eq with ⟨-, hqp⟩ | ⟨hs, -⟩ | ⟨hpa, -⟩
    · exact hj (h.sole hr hp hact (hq.elim id hqp))
    · rw [h.serving hr hact] at hs
      cases hs
    · exact hj (h.sole hr hp hact hpa)
  refine ⟨fun {j r} hj hact => ?_, fun {j k r r'} hj hk hact hact' => ?_, fun {j r} hj => ?_⟩
  · show t.serving
    rcases hn.serving_eq with ⟨hs, hqp⟩ | ⟨-, hs⟩ | ⟨hpa, hqa⟩
    · rw [hs]
      rcases hcase hj with ⟨-, rfl⟩ | ⟨-, hr⟩
      · exact h.serving hp (hqp hact)
      · exact h.serving hr hact
    · exact hs
    · rcases hcase hj with ⟨-, rfl⟩ | ⟨hne, hr⟩
      · rw [hqa] at hact
        cases hact
      · rw [hothers (.inl hpa) hne hr] at hact
        cases hact
  · rcases hcase hj with ⟨rfl, rfl⟩ | ⟨hji, hr⟩ <;> rcases hcase hk with ⟨rfl, rfl⟩ | ⟨hki, hr'⟩
    · rfl
    · rw [hothers (.inr hact) hki hr'] at hact'
      cases hact'
    · rw [hothers (.inr hact') hji hr] at hact
      cases hact
    · exact h.sole hr hr' hact hact'
  · rcases hcase hj with ⟨-, rfl⟩ | ⟨hne, hr⟩
    · have hq : r.Handles t := hn.handles (h.handles hp) hm
      exact hq.keep rfl (.refl Entry.Later.refl _)
    · by_cases hpa : p.active
      · exact ServePhase.handles_of_inactive (hothers (.inl hpa) hne hr)
      · -- a call outside the loop adds nothing
        have hadded : t.added = s.added := by cases hn <;> first | rfl | exact absurd rfl hpa
        exact (h.handles hr).keep hadded hl

end Loops

/-! ## Every state of a server -/

structure Owned (s : Server Host) : Prop where
  maps : Maps s
  loops : Loops s
  watched : Watched s

section Owned
variable {s s' t : Server Host} {label : Label Host}

theorem owned_new (config : Config Host) : Owned (new config) where
  maps := {
    limit := fun h => Int.le_of_lt h
    nodup := List.nodup_nil
    fromHost := fun host n => ⟨fun h => (List.not_mem_nil h).elim, fun h => (List.not_mem_nil h.1).elim⟩
    occupied := fun _ _ h => by cases h
    ended := fun _ h => (List.not_mem_nil h).elim
    added := fun _ h => (List.not_mem_nil h).elim
    known := fun _ h => (List.not_mem_nil h).elim }
  loops := {
    serving := fun h => by cases h
    sole := fun h => by cases h
    handles := fun h => by cases h }
  watched _ h := (List.not_mem_nil h).elim

theorem Maps.serve {p q : ServePhase Host} {choice : ServeChoice Host} (h : Maps s) (hp : p.Handles s)
    (hn : ServeNext s p choice t q) (hl : Each Entry.Later s.created t.created) : Maps t := by
  cases hn with
  | add _ hlimit => exact h.add hp.1 hp.2 hlimit
  | _ => exact h.keep rfl rfl rfl rfl hl

/-- The step lemma. -/
theorem Owned.step (h : Owned s) (hn : Next s label s') : Owned s' := by
  have hl := step_later hn
  cases hn with
  | serve =>
    refine ⟨h.maps.keep rfl rfl rfl rfl hl, ?_, h.watched.keep hl rfl⟩
    have hold {j : Nat} {p : ServePhase Host} (hj : (s.serves ++ [.entering])[j]? = some p) :
        p = .entering ∨ s.serves[j]? = some p := by
      rw [List.getElem?_append] at hj
      split at hj
      · exact .inr hj
      · exact .inl (List.mem_singleton.mp (List.mem_of_getElem? hj))
    refine ⟨fun hj hact => ?_, fun hj hk hact hact' => ?_, fun hj => ?_⟩
    · rcases hold hj with rfl | hj
      · cases hact
      · exact h.loops.serving hj hact
    · rcases hold hj with rfl | hj
      · cases hact
      · rcases hold hk with rfl | hk
        · cases hact'
        · exact h.loops.sole hj hk hact hact'
    · rcases hold hj with rfl | hj
      · trivial
      · exact (h.loops.handles hj).keep rfl hl
  | @serving i p choice t q hp hn =>
    have hlt : Each Entry.Later s.created t.created := hl
    have hhandles := h.loops.handles hp
    refine ⟨(h.maps.serve hhandles hn hlt).keep rfl rfl rfl rfl (.refl Entry.Later.refl _), h.loops.serve h.maps hp hn hlt, ?_⟩
    cases hn with
    | @spawn n host =>
      intro w hw
      rcases List.mem_append.mp hw with hw | hw
      · exact h.watched w hw
      · rw [List.mem_singleton.mp hw]
        exact ⟨hhandles, fun hne => absurd rfl hne⟩
    | _ => exact h.watched.keep hl rfl
  | @watch i w t q hw hn =>
    obtain ⟨haccepted, hdone⟩ := h.watched w (List.mem_of_getElem? hw)
    -- the goroutine itself, and the others
    have hwatched (hd : s.done w.session) (he : t.created = s.created) (hs : t.watches = s.watches) :
        Watched { t with watches := t.watches.set i { w with phase := q } } := by
      intro w' hw'
      show (∃ e, t.created[w'.session]? = some e ∧ e.host = w'.host) ∧ (w'.phase ≠ .waiting →
        t.created[w'.session]?.any (·.session.termination.done))
      rw [he]
      rcases List.mem_or_eq_of_mem_set hw' with hw' | rfl
      · exact h.watched w' (hs ▸ hw')
      · exact ⟨haccepted, fun _ => hd⟩
    cases hn with
    | done hp hd =>
      exact ⟨h.maps.keep rfl rfl rfl rfl hl, h.loops.keep hl rfl rfl rfl, hwatched hd rfl rfl⟩
    | join hp =>
      exact ⟨h.maps.keep rfl rfl rfl rfl hl, h.loops.keep hl rfl rfl rfl, hwatched (hdone (by rw [hp]; nofun)) rfl rfl⟩
    | remove hp =>
      have hd := hdone (by rw [hp]; nofun)
      refine ⟨?_, h.loops.keep hl rfl rfl rfl, hwatched hd rfl rfl⟩
      exact (h.maps.discard haccepted hd).keep rfl rfl rfl rfl (.refl Entry.Later.refl _)
  | close => exact ⟨h.maps.keep rfl rfl rfl rfl hl, h.loops.keep hl rfl rfl rfl, h.watched.keep hl rfl⟩
  | closing hp hn =>
    cases hn <;> exact ⟨h.maps.keep rfl rfl rfl rfl hl, h.loops.keep hl rfl rfl rfl, h.watched.keep hl rfl⟩
  | session hc => exact ⟨h.maps.keep rfl rfl rfl rfl hl, h.loops.keep hl rfl rfl rfl, h.watched.keep hl rfl⟩

theorem run_invariant {config : Config Host} {ok : Server Host → Label Host → Prop} (h : servers.Run ok (new config) s) :
    Owned s :=
  h.invariant (fun _ _ _ _ hst ho => ho.step (step_next hst)) (owned_new config)

end Owned

/-! ## `Close` -/

section Close
variable {s s' t : Server Host} {label : Label Host}

theorem Next.added_eq (hn : Next s label s') (hc : s.closed) : s'.closed ∧ s'.added = s.added := by
  cases hn with
  | serving _ hn =>
    cases hn with
    | add hopen =>
      rw [hopen] at hc
      cases hc
    | _ => exact ⟨hc, rfl⟩
  | watch _ hn => cases hn <;> exact ⟨hc, rfl⟩
  | closing _ hn => cases hn <;> first | exact ⟨hc, rfl⟩ | exact ⟨rfl, rfl⟩
  | serve | close | session => exact ⟨hc, rfl⟩

theorem run_added_eq (h : servers.Run anyStep s s') (hc : s.closed) : s'.added = s.added :=
  (h.invariant (P := fun t => t.closed ∧ t.added = s.added)
    (fun _ _ _ _ hst ht => ⟨((step_next hst).added_eq ht.1).1, ((step_next hst).added_eq ht.1).2.trans ht.2⟩) ⟨hc, rfl⟩).2

/-- Every session ever added is closed, but for some. -/
def ClosedBut (s : Server Host) (rest : List Nat) : Prop := s.closed ∧ ∀ n ∈ s.added, s.done n ∨ n ∈ rest

def ClosePhase.Reached (s : Server Host) : ClosePhase → Prop
  | .entering | .marking => True
  | .listening rest | .closing rest => s.ClosedBut rest
  | .awaiting n rest => s.ClosedBut (n :: rest)
  | .returned => s.ClosedBut []
  | .panicked => False

/-- The listener does not panic when it is closed. -/
def Sound (_ : Server Host) : Label Host → Prop
  | .closing _ choice => choice ≠ .panic
  | _ => True

instance (s : Server Host) : (label : Label Host) → Decidable (Sound s label)
  | .closing _ choice => inferInstanceAs (Decidable (choice ≠ .panic))
  | .serve | .serving _ _ | .watch _ | .close | .session _ _ => .isTrue trivial

structure Closing (s : Server Host) : Prop where
  reached : ∀ p ∈ s.closes, p.Reached s
  once : s.closeOnce = .done → s.ClosedBut []

theorem ClosedBut.step {rest : List Nat} (h : s.ClosedBut rest) (hn : Next s label s') : s'.ClosedBut rest := by
  obtain ⟨hc, ha⟩ := hn.added_eq h.1
  exact ⟨hc, fun n hm => (h.2 n (ha ▸ hm)).imp_left (done_later (step_later hn))⟩

theorem ClosePhase.Reached.step {p : ClosePhase} (h : p.Reached s) (hn : Next s label s') : p.Reached s' := by
  cases p with
  | entering | marking => trivial
  | panicked => exact h
  | _ => exact ClosedBut.step h hn

/-- The step lemma. -/
theorem Closing.step (h : Closing s) (ho : Owned s) (hok : Sound s label) (hn : Next s label s') : Closing s' := by
  have hold {p : ClosePhase} (hp : p ∈ s.closes) : p.Reached s' := (h.reached p hp).step hn
  have hsame (hc : s'.closes = s.closes) (honce : s'.closeOnce = s.closeOnce) : Closing s' :=
    ⟨fun p hp => hold (hc ▸ hp), fun hd => (h.once (honce ▸ hd)).step hn⟩
  cases hn with
  | serve => exact hsame rfl rfl
  | serving _ hn => cases hn <;> exact hsame rfl rfl
  | watch _ hn => cases hn <;> exact hsame rfl rfl
  | session => exact hsame rfl rfl
  | close =>
    refine ⟨fun p hp => ?_, fun hd => h.once hd⟩
    rcases List.mem_append.mp hp with hp | hp
    · exact hold hp
    · rw [List.mem_singleton.mp hp]
      trivial
  | @closing i p choice t q hp hn =>
    have hreached := (h.reached p (List.mem_of_getElem? hp)).step (.closing hp hn)
    have hset (hc : t.closes = s.closes) (hq : q.Reached { t with closes := t.closes.set i q })
        (p' : ClosePhase) (hp' : p' ∈ t.closes.set i q) : p'.Reached { t with closes := t.closes.set i q } := by
      rcases List.mem_or_eq_of_mem_set hp' with hp' | rfl
      · exact hold (hc ▸ hp')
      · exact hq
    cases hn with
    | first => exact ⟨hset rfl trivial, nofun⟩
    | again hd =>
      have hall := (h.once hd).step (.closing hp (.again hd))
      exact ⟨hset rfl hall, fun _ => hall⟩
    | mark hperm =>
      refine ⟨hset rfl ⟨rfl, fun n hn => ?_⟩, fun hd => (h.once hd).step (.closing hp (.mark hperm))⟩
      exact (ho.maps.ended n hn).symm.imp_right hperm.mem_iff.mpr
    | listen => exact ⟨hset rfl hreached, fun hd => (h.once hd).step (.closing hp .listen)⟩
    | panic => exact absurd rfl hok
    | close => exact ⟨hset rfl hreached, fun hd => (h.once hd).step (.closing hp .close)⟩
    | @next n rest ht =>
      refine ⟨hset rfl ⟨hreached.1, fun m hm => ?_⟩, fun hd => (h.once hd).step (.closing hp (.next ht))⟩
      rcases hreached.2 m hm with hd | hd
      · exact .inl hd
      · rcases List.mem_cons.mp hd with rfl | hd
        · exact .inl (done_of_terminated ht)
        · exact .inr hd
    | «return» => exact ⟨hset rfl hreached, fun _ => hreached⟩

end Close

/-! ## Ownership -/

section Ownership
variable {s s' : Server Host} {label : Label Host}

theorem Next.config_eq (hn : Next s label s') : s'.config = s.config := by
  cases hn with
  | serving _ hn => cases hn <;> rfl
  | watch _ hn => cases hn <;> rfl
  | closing _ hn => cases hn <;> rfl
  | serve | close | session => rfl

theorem Maps.mem_sessions (h : Maps s) (n : Nat) : n ∈ s.sessions ↔ ∃! host, s.FromHost host n := by
  constructor
  · intro hn
    have he := List.getElem?_eq_getElem (h.known n (h.added n hn))
    refine ⟨_, (h.fromHost _ n).mpr ⟨hn, _, he, rfl⟩, fun host hh => ?_⟩
    obtain ⟨-, e, he', rfl⟩ := (h.fromHost host n).mp hh
    rw [he] at he'
    cases he'
    rfl
  · rintro ⟨host, hh, -⟩
    exact ((h.fromHost host n).mp hh).1

/-- **Who owns a session.** In every state of a server there are at most `MaxSessions` sessions in the map, each of them is in
the set of its host alone, no set is empty, and none is added after the server was closed. Once a call of `Close` has
returned, every session ever added is closed, as long as the listener does not panic when it is closed. -/
theorem run_owned (config : Config Host) :
    (∀ s, servers.Run anyStep (new config) s →
      (0 < config.maxSessions → s.sessions.length ≤ config.maxSessions) ∧ s.sessions.Nodup ∧
      (∀ n, (n ∈ s.sessions ↔ ∃! host, s.FromHost host n) ∧ ∀ host, s.FromHost host n → s.AcceptedFrom n host) ∧
      (∀ host set, s.byHost.lookup host = some set → set ≠ []) ∧
      ∀ s', servers.Run anyStep s s' → s.closed → s'.added = s.added) ∧
    ∀ s, servers.Run Sound (new config) s → ClosePhase.returned ∈ s.closes → ∀ n ∈ s.added, s.done n := by
  refine ⟨fun s h => ?_, fun s h hret n hn => ?_⟩
  · have hm := (run_invariant h).maps
    have hcfg : s.config = config :=
      h.invariant (P := fun t => t.config = config) (fun _ _ _ _ hst ht => (step_next hst).config_eq.trans ht) rfl
    refine ⟨fun hpos => ?_, hm.nodup, fun n => ⟨hm.mem_sessions n, fun host hh => ((hm.fromHost host n).mp hh).2⟩,
      hm.occupied, fun s' h' hc => run_added_eq h' hc⟩
    rw [← hcfg] at hpos ⊢
    exact hm.limit hpos
  · have hinv : Owned s ∧ Closing s :=
      h.invariant (P := fun t => Owned t ∧ Closing t)
        (fun _ _ _ hok hst ht => ⟨ht.1.step (step_next hst), ht.2.step ht.1 hok (step_next hst)⟩)
        ⟨owned_new config, fun _ hp => (List.not_mem_nil hp).elim, nofun⟩
    obtain ⟨-, hclosed⟩ := hinv.2.reached _ hret
    exact (hclosed n hn).resolve_right List.not_mem_nil

/-- A server with one session at most, and the hosts are numbers. -/
def oneSession : Config Nat := { maxSessions := 1, sessionConfig := {} }

/-- A connection is accepted and its session put into the maps. -/
def accepts : List (Label Nat) :=
  [.serve, .serving 0 .go, .serving 0 (.accepted 7), .serving 0 .go, .serving 0 .created, .serving 0 .go, .serving 0 .go]

/-- `Close` is called and comes to the point where it closes the listener. -/
def marksClosed : List (Label Nat) := [.close, .closing 0 .go, .closing 0 (.snapshot [0])]

def terminates (n : Nat) : List (Label Nat) := List.replicate 4 (.session n .term)

/-- The session is closed by the call of `Close`. -/
def closedServer : Server Nat :=
  servers.after Sound (new oneSession) (accepts ++ marksClosed ++ [.closing 0 .go, .closing 0 .go] ++ terminates 0 ++
    [.closing 0 .go, .closing 0 .go])

theorem run_owned_closed : closedServer.sessions.length ≤ 1 ∧ closedServer.AcceptedFrom 0 7 ∧ closedServer.done 0 ∧
    (closedServer.step .serve).map (·.added) = some [0] := by
  have hrun : servers.Run Sound (new oneSession) closedServer := servers.run_after Sound _ _ (by decide +kernel)
  obtain ⟨howned, hclosed⟩ := run_owned oneSession
  obtain ⟨hlimit, -, hhosts, -, hadded⟩ := howned closedServer (hrun.mono fun _ _ _ => trivial)
  refine ⟨Int.ofNat_le.mp (hlimit (by decide)), (hhosts 0).2 7 (show 0 ∈ _ by decide +kernel), ?_, ?_⟩
  · exact hclosed closedServer hrun (by decide +kernel) 0 (by decide +kernel)
  · have hsame := hadded { closedServer with serves := closedServer.serves ++ [.entering] }
      (.tail (l := .serve) (.refl _) trivial rfl) (by decide +kernel)
    exact (congrArg some hsame).trans (by decide +kernel)

/-- The listener panics when it is closed; the next call of `Close` returns at once, and the session lives on. -/
theorem close_returns_open : ∃ s, servers.Run anyStep (new oneSession) s ∧ ClosePhase.returned ∈ s.closes ∧
    s.added = [0] ∧ s.sessions = [0] ∧ (s.created.map (·.session.termination)) = [.running] :=
  ⟨_, servers.run_after anyStep (new oneSession) (accepts ++ marksClosed ++ [.closing 0 .panic, .close, .closing 1 .go])
    (by decide +kernel), by decide +kernel, by decide +kernel, by decide +kernel, by decide +kernel⟩

end Ownership

end GoSmpp.Server
