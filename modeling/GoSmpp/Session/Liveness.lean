import GoSmpp.Lib.Run
import GoSmpp.Session.StateMachine

/-!
# The liveness checks

`session/liveness.go`: the three deadline slots by which a session gives up a peer that does not bind, gives up one that has
fallen silent, and probes an idle connection. A slot is not moved when a PDU comes in: once it expires, its handler derives
anew how long the silence has been. Meanwhile the RX and the TX loop note times of their own, the state changes, and the
probes that were started are answered or fail.

* `State.step`: the handlers, every load on its own, and the goroutines of the probes. There is one clock, which does not go
  back: in the source the times noted are those of the wall clock. `fireInactivityDeadline` and `fireEnquireLinkDeadline` are
  one `rederive`.
* `Timely`: a slot is due no later than the timeout after the last sign of life, or after the bind.
* `run_prompt`: where the handlers run within `L` of the time they are due, no silence goes unnoticed for longer.
* `run_patient`: a session ends only for the silence a check waits for, or a probe that fails, and a probe is started only
  after such a silence.
-/

namespace GoSmpp.Liveness
open Lib Protocol Session

/-- `session.Config`, the three times. -/
structure Config where
  sessionInitTimeout : Int
  inactivityTimeout : Int
  enquireLinkInterval : Int
  deriving DecidableEq, Repr

inductive Check where
  | sessionInit
  | inactivity
  | enquireLink
  deriving DecidableEq, Repr

def Config.after (config : Config) : Check → Int
  | .sessionInit => config.sessionInitTimeout
  | .inactivity => config.inactivityTimeout
  | .enquireLink => config.enquireLinkInterval

/-- Where a slot is, with the time it was scheduled for. -/
inductive Slot where
  | off
  | scheduled (due : Int)
  /-- `expireReady` has taken it from the heap, and `expireDeadline` has read the clock -/
  | fired (due now : Int)
  /-- `done` was open -/
  | checking (due now : Int)
  /-- the session was bound -/
  | bound (due now : Int)
  /-- it was time, and `emitEvent` runs -/
  | expired (due now : Int)
  deriving DecidableEq, Repr

/-- A session as the checks see it. `boundSince`, `active` and `probes` are history: a probe is noted with the time that the
handler which starts it has read. -/
structure State where
  clock : Int
  state : SessionState := .open
  lastActivity : Int
  lastInbound : Int
  /-- the time that the RX loop has read, and whether it has stored it in `lastActivity` -/
  rx : Option (Int × Bool) := none
  /-- the time that the TX loop has read -/
  tx : Option Int := none
  slot : Check → Slot
  /-- the goroutines in `tryEnquireLink` -/
  probing : Nat := 0
  done : Bool := false
  /-- when the session was bound, as long as it is -/
  boundSince : Option Int := none
  /-- the latest activity or probe -/
  active : Int
  probes : List Int := []

inductive Label where
  | tick (n : Nat)
  | move (state : SessionState)
  | rx
  | tx
  /-- the session ends for another reason -/
  | close
  | check (check : Check)
  /-- `tryEnquireLink` returns; with an error other than `ErrWindowFull` its goroutine calls `terminate`, if `done` is open -/
  | probed (ok : Bool)
  deriving DecidableEq, Repr

/-- The session has not been bound. -/
def initial (state : SessionState) : Bool := state == .open || state == .outbound

namespace State

def set (s : State) (check : Check) (slot : Slot) : State := { s with slot := Function.update s.slot check slot }

def fireSessionInitDeadline (s : State) : Slot → Option State
  | .checking due now => some (s.set .sessionInit (if initial s.state then .expired due now else .off))
  | _ => none

/-- The shape of the other two: `act` once the silence since `last` has lasted for `after`. -/
def rederive (s : State) (check : Check) (last after : Int) (act : Int → Int → State) : Slot → Option State
  | .checking due now =>
    some (s.set check (if isBoundState s.state then .bound due now else .scheduled (now + after)))
  | .bound due now =>
    let idle := now - last
    some (if idle < after then s.set check (.scheduled (now + (after - idle))) else act due now)
  | _ => none

def fireInactivityDeadline (s : State) (config : Config) : Slot → Option State :=
  s.rederive .inactivity s.lastInbound config.inactivityTimeout fun due now =>
    s.set .inactivity (.expired due now)

def fireEnquireLinkDeadline (s : State) (config : Config) : Slot → Option State :=
  s.rederive .enquireLink s.lastActivity config.enquireLinkInterval fun _ now =>
    { s.set .enquireLink (.scheduled (now + config.enquireLinkInterval)) with
      probing := s.probing + 1, probes := now :: s.probes, active := max s.active now }

def expireDeadline (s : State) (config : Config) (check : Check) : Option State :=
  match s.slot check with
  | .scheduled due => if due ≤ s.clock then some (s.set check (.fired due s.clock)) else none
  | .fired due now => some (s.set check (if s.done then .off else .checking due now))
  | .expired _ _ => some { s.set check .off with done := true }
  | slot =>
    match check with
    | .sessionInit => s.fireSessionInitDeadline slot
    | .inactivity => s.fireInactivityDeadline config slot
    | .enquireLink => s.fireEnquireLinkDeadline config slot

def step (config : Config) (s : State) : Label → Option State
  | .tick n => some { s with clock := s.clock + n }
  -- the machine does not go back to where it was before the bind
  | .move state => if initial state → initial s.state then
      some { s with state, boundSince := if isBoundState state then s.boundSince.or (some s.clock) else none } else none
  | .rx =>
    match s.rx with
    | none => some { s with rx := some (s.clock, false) }
    | some (at', false) => some { s with rx := some (at', true), lastActivity := at', active := max s.active at' }
    | some (at', true) => some { s with rx := none, lastInbound := at' }
  | .tx =>
    match s.tx with
    | none => some { s with tx := some s.clock }
    | some at' => some { s with tx := none, lastActivity := at', active := max s.active at' }
  | .close => some { s with done := true }
  | .check check => s.expireDeadline config check
  | .probed ok => if s.probing = 0 then none else some { s with probing := s.probing - 1, done := s.done || !ok }

end State

def timers (config : Config) : System State Label where
  step := State.step config

/-- A session that is created, with the slots of `scheduleLivenessDeadlines`. -/
def new (config : Config) (now : Int) : State where
  clock := now
  lastActivity := now
  lastInbound := now
  active := now
  slot check := if 0 < config.after check then .scheduled (now + config.after check) else .off

/-! ## When a slot is due -/

def Slot.due : Slot → Option Int
  | .off => none
  | .scheduled due | .fired due _ | .checking due _ | .bound due _ | .expired due _ => some due

/-- The clock as its handler has read it. -/
def Slot.now : Slot → Option Int
  | .fired _ now | .checking _ now | .bound _ now | .expired _ now => some now
  | _ => none

/-- The last sign of life that counts for the check. -/
def State.mark (s : State) : Check → Int
  | .enquireLink => s.active
  | _ => s.lastInbound

/-- No handler is left behind the time it is due by more than `late`, if that is bounded. -/
def Prompt (late : Option Int) (s : State) : Label → Prop
  | .tick n => ∀ l ∈ late, ∀ check ∈ [Check.sessionInit, .inactivity, .enquireLink], ∀ due ∈ (s.slot check).due,
      s.clock + n ≤ due + l
  | _ => True

instance (late : Option Int) (s : State) : (label : Label) → Decidable (Prompt late s label)
  | .tick _ => inferInstanceAs (Decidable (∀ l ∈ late, _))
  | .move _ | .rx | .tx | .close | .check _ | .probed _ => .isTrue trivial

/-- The times that are to be kept. -/
structure Watch where
  config : Config
  start : Int
  late : Option Int

/-- The time since which a check counts. -/
def State.since (s : State) (start : Int) : Check → Int
  | .sessionInit => start
  | .inactivity => s.lastInbound
  | .enquireLink => s.lastActivity

/-- The time that a check waits for was over when its handler read the clock. -/
def Overdue (config : Config) (start : Int) (s : State) (check : Check) : Prop :=
  (check = .sessionInit → initial s.state) ∧
    ∃ now ∈ (s.slot check).now, now ≤ s.clock ∧ s.since start check + config.after check ≤ now

/-- What a step may do: a check expires, and a probe is started, only if it is overdue. -/
structure Patient (w : Watch) (s : State) (label : Label) (s' : State) : Prop where
  ends : s'.done → s.done ∨ label = .close ∨ label = .probed false ∧ 0 < s.probing ∨
    ∃ check due now, label = .check check ∧ s.slot check = .expired due now
  expires : ∀ check due now, s'.slot check = .expired due now → s.slot check = .expired due now ∨
    label = .check check ∧ check ≠ .enquireLink ∧ Overdue w.config w.start s check
  probes : s'.probes = s.probes ∧ s'.probing ≤ s.probing ∨
    label = .check .enquireLink ∧ Overdue w.config w.start s .enquireLink

section Timely
variable {w : Watch} {s s' : State} {check : Check} {slot : Slot} {due now : Int}

/-- The time for which a slot is scheduled. -/
structure Due (w : Watch) (s : State) (check : Check) (due : Int) : Prop where
  pos : 0 < w.config.after check
  late : ∀ l ∈ w.late, s.clock ≤ due + l
  soon : due ≤ s.clock + w.config.after check
  first : check = .sessionInit → due = w.start + w.config.after check
  bound : ∀ b, s.boundSince = some b → due ≤ max (s.mark check) b + w.config.after check
  apart : check = .enquireLink → ∀ p ∈ s.probes, p + w.config.after check ≤ due

/-- What holds of a slot. -/
structure Held (w : Watch) (s : State) (check : Check) (slot : Slot) : Prop where
  off : slot = .off → s.done ∨ w.config.after check ≤ 0 ∨ check = .sessionInit ∧ initial s.state = false
  due : ∀ due ∈ slot.due, Due w s check due
  read : ∀ due ∈ slot.due, ∀ now ∈ slot.now, due ≤ now ∧ now ≤ s.clock

structure Timely (w : Watch) (s : State) : Prop where
  inbound : s.lastInbound ≤ s.clock
  activity : s.lastActivity ≤ s.active
  active : s.active ≤ s.clock
  rx : ∀ at' stored, s.rx = some (at', stored) → s.lastInbound ≤ at' ∧ at' ≤ s.clock
  tx : ∀ at', s.tx = some at' → at' ≤ s.clock
  since : ∀ b, s.boundSince = some b → isBoundState s.state
  probes : s.probes.Pairwise fun later earlier => earlier + w.config.enquireLinkInterval ≤ later
  slots : ∀ check, Held w s check (s.slot check)

/-- What time, the loops and the other checks do to a session. -/
structure Later (check : Check) (s s' : State) : Prop where
  clock : s.clock ≤ s'.clock
  done : s.done → s'.done
  state : initial s.state = false → initial s'.state = false
  since : ∀ b, s'.boundSince = some b → s.boundSince = some b ∨ s.clock ≤ b
  inbound : s.lastInbound ≤ s'.lastInbound
  active : s.active ≤ s'.active
  probes : check = .enquireLink → s'.probes = s.probes

theorem Held.later (h : Held w s check slot) (hl : Later check s s')
    (hlate : ∀ l ∈ w.late, ∀ due ∈ slot.due, s'.clock ≤ due + l) : Held w s' check slot := by
  have hclock := hl.clock
  refine ⟨fun hoff => ?_, fun due hdue => ?_, fun due hdue now hnow => ?_⟩
  · rcases h.off hoff with hdone | hafter | ⟨hcheck, hstate⟩
    · exact .inl (hl.done hdone)
    · exact .inr (.inl hafter)
    · exact .inr (.inr ⟨hcheck, hl.state hstate⟩)
  · obtain ⟨hpos, -, hsoon, hfirst, hbound, hapart⟩ := h.due due hdue
    refine ⟨hpos, fun l hl => hlate l hl due hdue, by omega, hfirst, fun b hb => ?_, fun hc => hl.probes hc ▸ hapart hc⟩
    have hmark : s.mark check ≤ s'.mark check := by
      cases check <;> first | exact hl.inbound | exact hl.active
    rcases hl.since b hb with hb | hb
    · have := hbound b hb
      omega
    · omega
  · have := h.read due hdue now hnow
    omega

/-- The clock and the slots are left alone, but for one that is held where it is put. -/
theorem Timely.next (h : Timely w s) (hclock : s'.clock = s.clock)
    (hl : ∀ check, s'.slot check = s.slot check ∧ Later check s s' ∨ Held w s' check (s'.slot check)) (check : Check) :
    Held w s' check (s'.slot check) := by
  rcases hl check with ⟨hslot, hl⟩ | hheld
  · rw [hslot]
    refine (h.slots check).later hl fun l hl due hdue => ?_
    rw [hclock]
    exact ((h.slots check).due due hdue).late l hl
  · exact hheld

theorem Timely.close {probing : Nat} {done : Bool} (h : Timely w s) (hd : s.done → done) : Timely w { s with probing, done } := by
  refine ⟨h.inbound, h.activity, h.active, h.rx, h.tx, h.since, h.probes, h.next rfl fun check => .inl ⟨rfl, ?_⟩⟩
  exact ⟨Int.le_refl _, hd, id, fun b => .inl, Int.le_refl _, Int.le_refl _, fun _ => rfl⟩

theorem Timely.move {state : SessionState} (h : Timely w s) (hstate : initial state → initial s.state) :
    Timely w { s with state, boundSince := if isBoundState state then s.boundSince.or (some s.clock) else none } := by
  have hb (b : Int) (hb : (if isBoundState state then s.boundSince.or (some s.clock) else none) = some b) :
      isBoundState state ∧ (s.boundSince = some b ∨ s.clock ≤ b) := by
    cases hsince : s.boundSince <;> simp_all
  refine ⟨h.inbound, h.activity, h.active, h.rx, h.tx, fun b hs => (hb b hs).1, h.probes,
    h.next rfl fun check => .inl ⟨rfl, Int.le_refl _, id, fun hs => ?_, fun b hs => (hb b hs).2, Int.le_refl _,
      Int.le_refl _, fun _ => rfl⟩⟩
  exact eq_false_of_ne_true fun hi => absurd (hstate hi) (by simp [hs])

/-- The times that the loops note. -/
theorem Timely.note {rx : Option (Int × Bool)} {tx : Option Int} {lastActivity lastInbound active : Int} (h : Timely w s)
    (hactivity : lastActivity ≤ active) (hactive : s.active ≤ active ∧ active ≤ s.clock)
    (hinbound : s.lastInbound ≤ lastInbound ∧ lastInbound ≤ s.clock)
    (hrx : ∀ at' stored, rx = some (at', stored) → lastInbound ≤ at' ∧ at' ≤ s.clock)
    (htx : ∀ at', tx = some at' → at' ≤ s.clock) :
    Timely w { s with rx, tx, lastActivity, lastInbound, active } := by
  refine ⟨hinbound.2, hactivity, hactive.2, hrx, htx, h.since, h.probes, h.next rfl fun check => .inl ⟨rfl, ?_⟩⟩
  exact ⟨Int.le_refl _, id, id, fun b => .inl, hinbound.1, hactive.1, fun _ => rfl⟩

theorem Timely.tick {n : Nat} (h : Timely w s) (hp : Prompt w.late s (.tick n)) :
    Timely w { s with clock := s.clock + n } := by
  have hn : s.clock ≤ s.clock + n := by omega
  refine ⟨h.inbound.trans hn, h.activity, h.active.trans hn, fun at' stored hs => ?_, fun at' hs => (h.tx at' hs).trans hn,
    h.since, h.probes, fun check => ?_⟩
  · exact ⟨(h.rx at' stored hs).1, (h.rx at' stored hs).2.trans hn⟩
  · have hl : Later check s { s with clock := s.clock + n } :=
      ⟨hn, id, id, fun b => .inl, Int.le_refl _, Int.le_refl _, fun _ => rfl⟩
    exact (h.slots check).later hl fun l hl due hdue => hp l hl check (by cases check <;> simp) due hdue

theorem Timely.set (h : Timely w s) (hslot : Held w s check slot) : Timely w (s.set check slot) := by
  have hl (other : Check) : Later other s (s.set check slot) :=
    ⟨Int.le_refl _, id, id, fun b => .inl, Int.le_refl _, Int.le_refl _, fun _ => rfl⟩
  refine ⟨h.inbound, h.activity, h.active, h.rx, h.tx, h.since, h.probes, h.next rfl fun other => ?_⟩
  by_cases hc : other = check
  · subst hc
    refine .inr ?_
    rw [show (s.set other slot).slot other = slot from Function.update_self ..]
    exact hslot.later (hl other) fun l hl due hdue => (hslot.due due hdue).late l hl
  · exact .inl ⟨Function.update_of_ne hc .., hl other⟩

theorem patient_set (h : ∀ due now, slot = .expired due now → check ≠ .enquireLink ∧ Overdue w.config w.start s check) :
    Patient w s (.check check) (s.set check slot) := by
  refine ⟨.inl, fun other due now hslot => ?_, .inl ⟨rfl, Nat.le_refl _⟩⟩
  by_cases hc : other = check
  · subst hc
    exact .inr ⟨rfl, h due now ((Function.update_self ..).symm.trans hslot)⟩
  · exact .inl ((Function.update_of_ne hc ..).symm.trans hslot)

/-- A handler that puts its slot off. -/
theorem Held.again {due' : Int} (h : Held w s check slot) (hd : slot.due = some due) (hn : slot.now = some now)
    (hc : check ≠ .sessionInit) (hnow : now ≤ due') (hsoon : due' ≤ s.clock + w.config.after check)
    (hbound : ∀ b, s.boundSince = some b → due' ≤ max (s.mark check) b + w.config.after check) :
    Held w s check (.scheduled due') := by
  obtain ⟨hpos, hlate, -, -, -, hapart⟩ := h.due due hd
  have hread := h.read due hd now hn
  refine ⟨nofun, fun _ hd' => ?_, nofun⟩
  cases hd'
  refine ⟨hpos, fun l hl => ?_, hsoon, fun hc' => absurd hc' hc, hbound, fun he p hp => ?_⟩
  · have := hlate l hl
    omega
  · have := hapart he p hp
    omega

/-- The handlers that derive the silence anew. -/
theorem Timely.rederived (check : Check) {act : Int → Int → State} (h : Timely w s) (hc : check ≠ .sessionInit)
    (hlast : s.since w.start check ≤ s.mark check ∧ s.since w.start check ≤ s.clock)
    (hact : ∀ due now, s.slot check = .bound due now → Overdue w.config w.start s check →
      Timely w (act due now) ∧ Patient w s (.check check) (act due now))
    (hs : s.rederive check (s.since w.start check) (w.config.after check) act (s.slot check) = some s') :
    Timely w s' ∧ Patient w s (.check check) s' := by
  have hheld := h.slots check
  unfold State.rederive at hs
  split at hs
  · next due now hslot =>
    cases hs
    rw [hslot] at hheld
    have hpos := (hheld.due due rfl).pos
    have hnow := hheld.read due rfl now rfl
    split
    · exact ⟨h.set ⟨nofun, hheld.due, hheld.read⟩, patient_set nofun⟩
    · next hunbound =>
      refine ⟨h.set (hheld.again rfl rfl hc (by omega) (by omega) fun b hb => ?_), patient_set nofun⟩
      exact absurd (h.since b hb) hunbound
  · next due now hslot =>
    cases hs
    rw [hslot] at hheld
    split
    · next hidle => exact ⟨h.set (hheld.again rfl rfl hc (by omega) (by omega) fun b hb => by omega), patient_set nofun⟩
    · next hidle =>
      refine hact due now hslot ⟨fun hinit => absurd hinit hc, now, by rw [hslot]; rfl, (hheld.read due rfl now rfl).2, ?_⟩
      omega
  · cases hs

theorem Timely.probed (h : Timely w s) (hslot : s.slot .enquireLink = .bound due now) :
    Timely w { s.set .enquireLink (.scheduled (now + w.config.enquireLinkInterval)) with
      probing := s.probing + 1, probes := now :: s.probes, active := max s.active now } := by
  have hheld := h.slots .enquireLink
  rw [hslot] at hheld
  have hread := hheld.read due rfl now rfl
  obtain ⟨hpos, hlate, -, -, -, hapart⟩ := hheld.due due rfl
  have hbefore (p : Int) (hp : p ∈ s.probes) : p + w.config.enquireLinkInterval ≤ now := (hapart rfl p hp).trans hread.1
  refine ⟨h.inbound, h.activity.trans (Int.le_max_left _ _), Int.max_le.mpr ⟨h.active, hread.2⟩, h.rx, h.tx, h.since,
    List.pairwise_cons.mpr ⟨hbefore, h.probes⟩, h.next rfl fun check => ?_⟩
  by_cases hc : check = .enquireLink
  · subst hc
    have hpos : 0 < w.config.enquireLinkInterval := hpos
    refine .inr ⟨fun he => ?_, fun _ hd => ?_, fun _ _ _ hn => ?_⟩ <;>
      simp only [State.set, Function.update_self, Slot.due, Slot.now, reduceCtorEq, Option.mem_def, Option.some.injEq] at *
    subst hd
    refine ⟨hpos, fun l hl => ?_, Int.add_le_add_right hread.2 _, nofun, fun b _ => ?_, fun _ p hp => ?_⟩
    · have := hlate l hl
      exact this.trans (by omega)
    · exact Int.add_le_add_right ((Int.le_max_right _ _).trans (Int.le_max_left _ _)) _
    · rcases List.mem_cons.mp hp with rfl | hp
      · exact Int.le_refl _
      · exact Int.add_le_add_right (by have := hbefore p hp; omega) _
  · exact .inl ⟨Function.update_of_ne hc .., Int.le_refl _, id, id, fun b => .inl, Int.le_refl _, Int.le_max_left _ _,
      fun hc' => absurd hc' hc⟩

theorem Timely.check_step (h : Timely w s) (hs : s.expireDeadline w.config check = some s') :
    Timely w s' ∧ Patient w s (.check check) s' := by
  have hheld := h.slots check
  unfold State.expireDeadline at hs
  split at hs
  · next due hslot =>
    obtain ⟨hdue, hs⟩ := Option.ite_none_right_eq_some.mp hs
    cases hs
    rw [hslot] at hheld
    refine ⟨h.set ⟨nofun, hheld.due, fun _ hd _ hn => ?_⟩, patient_set nofun⟩
    cases hd
    cases hn
    exact ⟨hdue, Int.le_refl _⟩
  · next due now hslot =>
    cases hs
    rw [hslot] at hheld
    split
    · next hdone => exact ⟨h.set ⟨fun _ => .inl hdone, nofun, nofun⟩, patient_set nofun⟩
    · exact ⟨h.set ⟨nofun, hheld.due, hheld.read⟩, patient_set nofun⟩
  · next due now hslot =>
    cases hs
    have hset : Patient w s (.check check) (s.set check .off) := patient_set nofun
    exact ⟨(h.close fun _ => rfl).set ⟨fun _ => .inl rfl, nofun, nofun⟩,
      fun _ => .inr (.inr (.inr ⟨check, due, now, rfl, hslot⟩)), hset.expires, hset.probes⟩
  · split at hs
    · unfold State.fireSessionInitDeadline at hs
      split at hs
      · next due now hslot =>
        cases hs
        rw [hslot] at hheld
        split
        · next hinit =>
          have hnow := hheld.read due rfl now rfl
          refine ⟨h.set ⟨nofun, hheld.due, hheld.read⟩, patient_set fun _ _ _ => ⟨nofun, fun _ => hinit, now, ?_, hnow.2, ?_⟩⟩
          · rw [hslot]; rfl
          · exact (hheld.due due rfl).first rfl ▸ hnow.1
        · next hinit =>
          exact ⟨h.set ⟨fun _ => .inr (.inr ⟨rfl, eq_false_of_ne_true hinit⟩), nofun, nofun⟩, patient_set nofun⟩
      · cases hs
    · refine h.rederived .inactivity nofun ⟨Int.le_refl _, h.inbound⟩ (fun _ _ hslot ho => ?_) hs
      rw [hslot] at hheld
      exact ⟨h.set ⟨nofun, hheld.due, hheld.read⟩, patient_set fun _ _ _ => ⟨nofun, ho⟩⟩
    · refine h.rederived .enquireLink nofun ⟨h.activity, h.activity.trans h.active⟩ (fun _ now hslot ho => ?_) hs
      have hset : Patient w s (.check .enquireLink) (s.set .enquireLink (.scheduled (now + w.config.enquireLinkInterval))) :=
        patient_set nofun
      exact ⟨h.probed hslot, hset.ends, hset.expires, .inr ⟨rfl, ho⟩⟩

theorem Timely.step {label : Label} (h : Timely w s) (hp : Prompt w.late s label) (hs : s.step w.config label = some s') :
    Timely w s' ∧ Patient w s label s' := by
  have hactive := h.active
  -- nothing that is waited for
  have hquiet {s' : State} (he : (s'.done, s'.slot, s'.probes, s'.probing) = (s.done, s.slot, s.probes, s.probing)) :
      Patient w s label s' := by
    simp only [Prod.mk.injEq] at he
    obtain ⟨hd, hslot, hprobes, hprobing⟩ := he
    exact ⟨fun hd' => .inl (hd ▸ hd'), fun _ _ _ he => .inl (hslot ▸ he), .inl ⟨hprobes, Nat.le_of_eq hprobing⟩⟩
  cases label with
  | tick n =>
    cases hs
    exact ⟨h.tick hp, hquiet rfl⟩
  | move state =>
    obtain ⟨hstate, hs⟩ := Option.ite_none_right_eq_some.mp hs
    cases hs
    exact ⟨h.move hstate, hquiet rfl⟩
  | close =>
    cases hs
    exact ⟨h.close fun _ => rfl, fun _ => .inr (.inl rfl), fun _ _ _ => .inl, .inl ⟨rfl, Nat.le_refl _⟩⟩
  | check check => exact h.check_step hs
  | probed ok =>
    obtain ⟨hpos, hs⟩ := Option.ite_none_left_eq_some.mp hs
    cases hs
    refine ⟨h.close fun hd => by simp [hd], fun hd => ?_, fun _ _ _ => .inl, .inl ⟨rfl, Nat.sub_le _ _⟩⟩
    cases ok with
    | true => exact .inl (by simpa using hd)
    | false => exact .inr (.inr (.inl ⟨rfl, Nat.pos_of_ne_zero hpos⟩))
  | rx =>
    simp only [State.step] at hs
    split at hs <;> cases hs <;> refine ⟨?_, hquiet rfl⟩
    · refine h.note h.activity ⟨Int.le_refl _, h.active⟩ ⟨Int.le_refl _, h.inbound⟩ (fun _ _ he => ?_) h.tx
      cases he
      exact ⟨h.inbound, Int.le_refl _⟩
    · next at' hrx =>
      have hat := h.rx at' false hrx
      refine h.note (Int.le_max_right _ _) ⟨Int.le_max_left _ _, by omega⟩ ⟨Int.le_refl _, h.inbound⟩ (fun _ _ he => ?_) h.tx
      cases he
      exact hat
    · next at' hrx => exact h.note h.activity ⟨Int.le_refl _, h.active⟩ (h.rx at' true hrx) nofun h.tx
  | tx =>
    simp only [State.step] at hs
    split at hs <;> cases hs <;> refine ⟨?_, hquiet rfl⟩
    · refine h.note h.activity ⟨Int.le_refl _, h.active⟩ ⟨Int.le_refl _, h.inbound⟩ h.rx fun _ he => ?_
      cases he
      exact Int.le_refl _
    · next at' htx =>
      have hat := h.tx at' htx
      exact h.note (Int.le_max_right _ _) ⟨Int.le_max_left _ _, by omega⟩ ⟨Int.le_refl _, h.inbound⟩ h.rx nofun

theorem run_timely (hlate : ∀ l ∈ w.late, 0 ≤ l) (h : (timers w.config).Run (Prompt w.late) (new w.config w.start) s) :
    Timely w s := by
  refine h.invariant (P := Timely w) (fun _ _ _ hp hs h => (h.step hp hs).1) ?_
  refine ⟨Int.le_refl _, Int.le_refl _, Int.le_refl _, nofun, nofun, nofun, .nil, fun check => ?_⟩
  show Held _ _ _ (if 0 < w.config.after check then _ else _)
  split
  · next hpos =>
    refine ⟨nofun, fun _ hd => ?_, nofun⟩
    cases hd
    refine ⟨hpos, fun l hl => ?_, Int.le_refl _, fun _ => rfl, nofun, nofun⟩
    have := hlate l hl
    show w.start ≤ w.start + w.config.after check + l
    omega
  · next hpos => exact ⟨fun _ => .inr (.inl (Int.not_lt.mp hpos)), nofun, nofun⟩

end Timely

section Runs
variable {config : Config} {start : Int} {s s' : State} {check : Check} {tr : List (State × Label)} {label : Label}

/-- **No silence goes unnoticed.** Where each handler runs within `l` of the time it is due, a session that is not over has
been bound in time, and once it is bound it has heard of the peer, and seen activity or probed, as late as its timeouts say. -/
theorem run_prompt {l : Int} (hl : 0 ≤ l) (h : (timers config).Run (Prompt (some l)) (new config start) s)
    (hdone : s.done = false) :
    (0 < config.sessionInitTimeout → initial s.state → s.clock ≤ start + config.sessionInitTimeout + l) ∧
    ∀ b, s.boundSince = some b →
      (0 < config.inactivityTimeout → s.clock ≤ max s.lastInbound b + config.inactivityTimeout + l) ∧
      (0 < config.enquireLinkInterval → s.clock ≤ max s.active b + config.enquireLinkInterval + l) := by
  have ht : Timely ⟨config, start, some l⟩ s := run_timely (fun _ h => by cases h; exact hl) h
  have hdue (check : Check) (hpos : 0 < config.after check) (hc : check = .sessionInit → initial s.state) :
      ∃ due, Due ⟨config, start, some l⟩ s check due := by
    have hheld := ht.slots check
    cases hslot : s.slot check with
    | off =>
      rcases hheld.off hslot with hd | ha | ⟨he, hi⟩
      · rw [hdone] at hd; cases hd
      · exact absurd hpos (Int.not_lt.mpr ha)
      · rw [hc he] at hi; cases hi
    | _ => exact ⟨_, hheld.due _ (by rw [hslot]; rfl)⟩
  refine ⟨fun hpos hi => ?_, fun b hb => ⟨fun hpos => ?_, fun hpos => ?_⟩⟩
  · obtain ⟨due, hd⟩ := hdue .sessionInit hpos fun _ => hi
    exact hd.first rfl ▸ hd.late l rfl
  · obtain ⟨due, hd⟩ := hdue .inactivity hpos nofun
    exact (hd.late l rfl).trans (Int.add_le_add_right (hd.bound b hb) l)
  · obtain ⟨due, hd⟩ := hdue .enquireLink hpos nofun
    exact (hd.late l rfl).trans (Int.add_le_add_right (hd.bound b hb) l)

def halfMinute : Config := ⟨30, 20, 15⟩

/-- A peer that is bound and never heard of again: the session probes, and its inactivity is about to be noticed. -/
def silentPeer : List Label :=
  [.move .boundTRX, .tick 15] ++ List.replicate 4 (.check .enquireLink) ++ [.tick 5] ++ List.replicate 3 (.check .inactivity)

theorem run_prompt_silentPeer : ∃ s : State, s.probes = [15] ∧ s.clock ≤ max s.lastInbound 0 + 20 + 0 := by
  have hrun := System.run_after (timers halfMinute) (Prompt (some 0)) (new halfMinute 0) silentPeer (by decide +kernel)
  have hbound := (run_prompt (by decide) hrun (by decide +kernel)).2 0 (by decide +kernel)
  exact ⟨_, by decide +kernel, hbound.1 (by decide)⟩

/-- The handler of the check has found it overdue. -/
def Found (config : Config) (start : Int) (tr : List (State × Label)) (check : Check) : Prop :=
  ∃ s, (s, .check check) ∈ tr ∧ Overdue config start s check

/-- Why a session ends. -/
inductive Ends (config : Config) (start : Int) (tr : List (State × Label)) : Label → Prop
  | close : Ends config start tr .close
  | check {check : Check} : check ≠ .enquireLink → Found config start tr check → Ends config start tr (.check check)
  | probe : Found config start tr .enquireLink → Ends config start tr (.probed false)

/-- What has happened before a handler or a probe ends the session. -/
structure Grounds (config : Config) (start : Int) (tr : List (State × Label)) (s : State) : Prop where
  expired : ∀ check due now, s.slot check = .expired due now → check ≠ .enquireLink ∧ Found config start tr check
  probing : 0 < s.probing → Found config start tr .enquireLink

theorem Grounds.step (h : Grounds config start tr s) (hp : Patient ⟨config, start, none⟩ s label s') :
    Grounds config start (tr ++ [(s, label)]) s' := by
  have hfound {check : Check} (hf : Found config start tr check) : Found config start (tr ++ [(s, label)]) check :=
    hf.imp fun _ => .imp_left (List.mem_append_left _)
  have hlast : (s, label) ∈ tr ++ [(s, label)] := List.mem_append_right _ List.mem_cons_self
  refine ⟨fun check due now hslot => ?_, fun hpos => ?_⟩
  · rcases hp.expires check due now hslot with hslot | ⟨rfl, hne, ho⟩
    · exact (h.expired check due now hslot).imp_right hfound
    · exact ⟨hne, s, hlast, ho⟩
  · rcases hp.probes with ⟨-, hle⟩ | ⟨rfl, ho⟩
    · exact hfound (h.probing (Nat.lt_of_lt_of_le hpos hle))
    · exact ⟨s, hlast, ho⟩

theorem prompt_none (s : State) (label : Label) : Prompt none s label := by
  cases label <;> first | trivial | exact nofun

theorem trace_timely (h : (timers config).Trace (new config start) tr s) : Timely ⟨config, start, none⟩ s :=
  run_timely nofun (h.run fun _ _ => prompt_none _ _)

theorem trace_grounds (h : (timers config).Trace (new config start) tr s) : Grounds config start tr s := by
  induction h with
  | nil =>
    refine ⟨fun check due now hslot => ?_, nofun⟩
    unfold new at hslot
    dsimp only at hslot
    split at hslot <;> cases hslot
  | snoc h hst ih => exact ih.step ((trace_timely h).step (prompt_none _ _) hst).2

/-- **Nobody is given up too early.** However late the handlers run and whatever the loops do meanwhile, a check ends the
session only if its handler has found, as of the time it had read, that the session was not bound since its start, or that no
PDU was noted for the timeout; a probe is started only if no activity was noted for the interval, and ends the session only if
it fails. The times read by the handlers that start probes are an interval apart. -/
theorem run_patient (h : (timers config).Trace (new config start) tr s) :
    (s.probes.Pairwise fun later earlier => earlier + config.enquireLinkInterval ≤ later) ∧
    ∀ label s', s.step config label = some s' →
      (s.done = false → s'.done → Ends config start tr label) ∧
      (s'.probes ≠ s.probes → label = .check .enquireLink ∧ Overdue config start s .enquireLink) := by
  have ht := trace_timely h
  have hg := trace_grounds h
  refine ⟨ht.probes, fun label s' hs => ?_⟩
  have hp := (ht.step (prompt_none s label) hs).2
  refine ⟨fun hf hd => ?_, fun hne => hp.probes.resolve_left fun hsame => hne hsame.1⟩
  rcases hp.ends hd with hd | rfl | ⟨rfl, hpos⟩ | ⟨check, due, now, rfl, hslot⟩
  · rw [hf] at hd; cases hd
  · exact .close
  · exact .probe (hg.probing hpos)
  · obtain ⟨hne, hfound⟩ := hg.expired check due now hslot
    exact .check hne hfound

/-- The silence of the peer is found, and ends the session. -/
theorem run_patient_silentPeer : ∃ (tr : _) (s s' : State), s.step halfMinute (.check .inactivity) = some s' ∧
    s.done = false ∧ s'.done ∧ Ends halfMinute 0 tr (.check .inactivity) := by
  have htrace := System.trace_after (timers halfMinute) (new halfMinute 0) (silentPeer ++ [.check .inactivity])
    (by decide +kernel)
  have hstep : (((timers halfMinute).after anyStep (new halfMinute 0) (silentPeer ++ [.check .inactivity])).step halfMinute
      (.check .inactivity)).map (·.done) = some true := by decide +kernel
  obtain ⟨s', hs, hd⟩ := Option.map_eq_some_iff.mp hstep
  exact ⟨_, _, s', hs, by decide +kernel, hd, ((run_patient htrace).2 _ s' hs).1 (by decide +kernel) hd⟩

end Runs

end GoSmpp.Liveness
