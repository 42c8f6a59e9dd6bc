import GoSmpp.Lib.Run
import GoSmpp.Lib.Pool
import Mathlib.Tactic

/-!
# The statistics of the request window

`session/window.go`, atomic step by atomic step. A slot is a token in a channel; how many are in use and the most there have been
are counted beside it. Callers acquire a slot and release it; readers take snapshots, as `notify` does for the observer.

* `callerStep`: one atomic step of `acquire` or `release`. `CallerNext`: what it can do.
* `Accounted`: tokens and `inUse` count the callers that have sent a token, and those that have counted themselves.
* `run_snapshots`: no snapshot exceeds the capacity, as long as nobody counts itself in while another has yet to count itself
  out.
* `snapshot_exceeds`: otherwise one can.
-/

namespace GoSmpp
open Lib

structure WindowSnapshot where
  capacity : UInt32
  inUse : UInt32 := 0
  highWater : UInt32 := 0
  acquired : UInt64 := 0
  waits : UInt64 := 0
  underflows : UInt64 := 0
  deriving DecidableEq, Repr

namespace RequestWindow

inductive CallerPhase where
  /-- without a slot -/
  | outside
  /-- in `acquire`, before the first `select` -/
  | trying (wait : Bool)
  /-- before `waits.Add` -/
  | counting
  /-- in the second `select` -/
  | blocked
  /-- in `afterAcquire`, before `inUse.Add` -/
  | entered
  /-- before `acquired.Add` -/
  | recording (inUse : UInt32)
  /-- before `high.Load` -/
  | loading (inUse : UInt32)
  /-- before `high.CompareAndSwap` -/
  | swapping (inUse old : UInt32)
  /-- with a slot -/
  | holding
  /-- in `release`, before the `select` -/
  | releasing
  /-- before `inUse.Add` -/
  | leaving
  /-- before `underflows.Add` -/
  | underflowing
  deriving DecidableEq, Repr

/-- What callers share: the tokens in the channel, and the counters. `peak` is the most tokens there have been. -/
structure Counters where
  tokens : Nat := 0
  inUse : UInt32 := 0
  high : UInt32 := 0
  acquired : UInt64 := 0
  waits : UInt64 := 0
  underflows : UInt64 := 0
  peak : Nat := 0
  deriving DecidableEq, Repr

def Counters.send (c : Counters) : Counters := { c with tokens := c.tokens + 1, peak := max c.peak (c.tokens + 1) }

/-- One atomic step of a caller. A context or the session may end at any time: `cancelled` says that a blocked caller sees it. -/
def callerStep (size : Nat) (c : Counters) (cancelled : Bool) : CallerPhase → Option (Counters × CallerPhase)
  | .trying wait =>
    if c.tokens < size then some (c.send, .entered)
    else some (c, if wait then .counting else .outside)
  | .counting => some ({ c with waits := c.waits + 1 }, .blocked)
  | .blocked =>
    if cancelled then some (c, .outside)
    else if c.tokens < size then some (c.send, .entered) else none
  | .entered => some ({ c with inUse := c.inUse + 1 }, .recording (c.inUse + 1))
  | .recording inUse => some ({ c with acquired := c.acquired + 1 }, .loading inUse)
  | .loading inUse => some (c, if inUse ≤ c.high then .holding else .swapping inUse c.high)
  | .swapping inUse old =>
    if c.high = old then some ({ c with high := inUse }, .holding) else some (c, .loading inUse)
  | .releasing =>
    if 0 < c.tokens then some ({ c with tokens := c.tokens - 1 }, .leaving) else some (c, .underflowing)
  | .leaving => some ({ c with inUse := c.inUse - 1 }, .outside)
  | .underflowing => some ({ c with underflows := c.underflows + 1 }, .outside)
  | .outside | .holding => none

/-- A call of `snapshot`, and how many of its five loads it has made. -/
structure Reader where
  snapshot : WindowSnapshot
  loaded : Nat := 0
  deriving DecidableEq, Repr

/-- The next load of a snapshot. -/
def Reader.step (c : Counters) (r : Reader) : Option Reader :=
  match r.loaded with
  | 0 => some ⟨{ r.snapshot with inUse := c.inUse }, 1⟩
  | 1 => some ⟨{ r.snapshot with highWater := c.high }, 2⟩
  | 2 => some ⟨{ r.snapshot with acquired := c.acquired }, 3⟩
  | 3 => some ⟨{ r.snapshot with waits := c.waits }, 4⟩
  | 4 => some ⟨{ r.snapshot with underflows := c.underflows }, 5⟩
  | _ => none

end RequestWindow

/-- `session.requestWindow`, with its callers and its readers. -/
structure RequestWindow where
  size : Nat
  counters : RequestWindow.Counters := {}
  callers : List RequestWindow.CallerPhase := []
  readers : List RequestWindow.Reader := []
  deriving DecidableEq, Repr

namespace RequestWindow

/-- `newRequestWindow`. -/
def new (size : Nat) : RequestWindow := { size }

def capacity (w : RequestWindow) : UInt32 := UInt32.ofNat w.size

inductive Label where
  /-- a goroutine that will use the window -/
  | join
  | acquire (i : Nat) (wait : Bool)
  /-- by a caller whose acquire has completed -/
  | release (i : Nat)
  | caller (i : Nat) (cancelled : Bool)
  | snapshot
  | reader (i : Nat)
  deriving DecidableEq, Repr

def step (w : RequestWindow) : Label → Option RequestWindow
  | .join => some { w with callers := w.callers ++ [.outside] }
  | .acquire i wait =>
    if w.callers[i]? = some .outside then some { w with callers := w.callers.modify i fun _ => .trying wait } else none
  | .release i =>
    if w.callers[i]? = some .holding then some { w with callers := w.callers.modify i fun _ => .releasing } else none
  | .caller i cancelled => do
    let (counters, phase) ← callerStep w.size w.counters cancelled (← w.callers[i]?)
    return { w with counters, callers := w.callers.modify i fun _ => phase }
  | .snapshot => some { w with readers := w.readers ++ [⟨{ capacity := w.capacity }, 0⟩] }
  | .reader i => do
    let r ← (← w.readers[i]?).step w.counters
    return { w with readers := w.readers.modify i fun _ => r }

def windows : System RequestWindow Label := ⟨step⟩

/-! ## What a step can do -/

inductive CallerNext (size : Nat) (c : Counters) : CallerPhase → Counters → CallerPhase → Prop where
  | full (wait : Bool) : CallerNext size c (.trying wait) c (if wait then .counting else .outside)
  | send {wait : Bool} (h : c.tokens < size) : CallerNext size c (.trying wait) c.send .entered
  | wait : CallerNext size c .counting { c with waits := c.waits + 1 } .blocked
  | giveUp : CallerNext size c .blocked c .outside
  | sendLate (h : c.tokens < size) : CallerNext size c .blocked c.send .entered
  | add : CallerNext size c .entered { c with inUse := c.inUse + 1 } (.recording (c.inUse + 1))
  | record (inUse : UInt32) : CallerNext size c (.recording inUse) { c with acquired := c.acquired + 1 } (.loading inUse)
  | low {inUse : UInt32} (h : inUse ≤ c.high) : CallerNext size c (.loading inUse) c .holding
  | load (inUse : UInt32) : CallerNext size c (.loading inUse) c (.swapping inUse c.high)
  | swap (inUse old : UInt32) : CallerNext size c (.swapping inUse old) { c with high := inUse } .holding
  | retry (inUse old : UInt32) : CallerNext size c (.swapping inUse old) c (.loading inUse)
  | receive (h : 0 < c.tokens) : CallerNext size c .releasing { c with tokens := c.tokens - 1 } .leaving
  | underflow (h : c.tokens = 0) : CallerNext size c .releasing c .underflowing
  | subtract : CallerNext size c .leaving { c with inUse := c.inUse - 1 } .outside
  | count : CallerNext size c .underflowing { c with underflows := c.underflows + 1 } .outside

theorem callerStep_next {size : Nat} {c c' : Counters} {cancelled : Bool} {p p' : CallerPhase}
    (h : callerStep size c cancelled p = some (c', p')) : CallerNext size c p c' p' := by
  cases p with
  | trying wait =>
    rw [callerStep] at h
    split at h
    case isTrue hroom =>
      cases h
      exact .send hroom
    case isFalse =>
      cases h
      exact .full wait
  | blocked =>
    rw [callerStep] at h
    split at h
    case isTrue =>
      cases h
      exact .giveUp
    case isFalse =>
      split at h
      case isTrue hroom =>
        cases h
        exact .sendLate hroom
      case isFalse => cases h
  | loading inUse =>
    cases h
    split
    case isTrue hle => exact .low hle
    case isFalse => exact .load inUse
  | swapping inUse old =>
    rw [callerStep] at h
    split at h
    case isTrue =>
      cases h
      exact .swap inUse old
    case isFalse =>
      cases h
      exact .retry inUse old
  | releasing =>
    rw [callerStep] at h
    split at h
    case isTrue hpos =>
      cases h
      exact .receive hpos
    case isFalse hzero =>
      cases h
      exact .underflow (Nat.eq_zero_of_not_pos hzero)
  | counting =>
    cases h
    exact .wait
  | entered =>
    cases h
    exact .add
  | recording inUse =>
    cases h
    exact .record inUse
  | leaving =>
    cases h
    exact .subtract
  | underflowing =>
    cases h
    exact .count
  | outside | holding => cases h

inductive Next (w : RequestWindow) : Label → RequestWindow → Prop where
  | join : Next w .join { w with callers := w.callers ++ [.outside] }
  | acquire {i : Nat} (h : w.callers[i]? = some .outside) (wait : Bool) :
    Next w (.acquire i wait) { w with callers := w.callers.modify i fun _ => .trying wait }
  | release {i : Nat} (h : w.callers[i]? = some .holding) :
    Next w (.release i) { w with callers := w.callers.modify i fun _ => .releasing }
  | caller {i : Nat} {cancelled : Bool} {p p' : CallerPhase} {c : Counters} (h : w.callers[i]? = some p)
    (hn : CallerNext w.size w.counters p c p') :
    Next w (.caller i cancelled) { w with counters := c, callers := w.callers.modify i fun _ => p' }
  | snapshot : Next w .snapshot { w with readers := w.readers ++ [⟨{ capacity := w.capacity }, 0⟩] }
  | reader {i : Nat} {r r' : Reader} (h : w.readers[i]? = some r) (hn : r.step w.counters = some r') :
    Next w (.reader i) { w with readers := w.readers.modify i fun _ => r' }

theorem step_next {w w' : RequestWindow} {label : Label} (h : windows.step w label = some w') : Next w label w' := by
  cases label with
  | join =>
    cases h
    exact .join
  | acquire i wait =>
    obtain ⟨hi, h⟩ := Option.ite_none_right_eq_some.mp h
    cases h
    exact .acquire hi wait
  | release i =>
    obtain ⟨hi, h⟩ := Option.ite_none_right_eq_some.mp h
    cases h
    exact .release hi
  | caller i cancelled =>
    obtain ⟨p, hp, h⟩ := Option.bind_eq_some_iff.mp h
    obtain ⟨⟨c, p'⟩, hst, h⟩ := Option.bind_eq_some_iff.mp h
    cases h
    exact .caller hp (callerStep_next hst)
  | snapshot =>
    cases h
    exact .snapshot
  | reader i =>
    obtain ⟨r, hr, h⟩ := Option.bind_eq_some_iff.mp h
    obtain ⟨r', hst, h⟩ := Option.bind_eq_some_iff.mp h
    cases h
    exact .reader hr hst

/-! ## Accounting -/

/-- The caller's token is in the channel. -/
def CallerPhase.holdsSlot : CallerPhase → Bool
  | .entered | .recording _ | .loading _ | .swapping _ _ | .holding | .releasing => true
  | .outside | .trying _ | .counting | .blocked | .leaving | .underflowing => false

/-- The caller is counted in `inUse`. -/
def CallerPhase.counted : CallerPhase → Bool
  | .recording _ | .loading _ | .swapping _ _ | .holding | .releasing | .leaving => true
  | .outside | .trying _ | .counting | .blocked | .entered | .underflowing => false

/-- Tokens and `inUse` count callers, at every moment of every run. -/
structure Accounted (w : RequestWindow) : Prop where
  tokens : w.callers.countP (·.holdsSlot) = w.counters.tokens
  inUse : w.counters.inUse = UInt32.ofNat (w.callers.countP (·.counted))
  noUnderflow : CallerPhase.underflowing ∉ w.callers
  tokens_le : w.counters.tokens ≤ w.counters.peak
  peak_le : w.counters.peak ≤ w.size

theorem accounted_new (size : Nat) : Accounted (new size) :=
  ⟨rfl, rfl, List.not_mem_nil, Nat.le_refl 0, Nat.zero_le size⟩

theorem mem_modify {α : Type} {l : List α} {i : Nat} {a b : α} (h : b ∈ l.modify i fun _ => a) : b = a ∨ b ∈ l := by
  obtain ⟨j, hj⟩ := List.getElem?_of_mem h
  rw [List.getElem?_modify] at hj
  obtain ⟨c, hc, hb⟩ := Option.map_eq_some_iff.mp hj
  split at hb
  · exact .inl hb.symm
  · exact .inr (hb ▸ List.mem_of_getElem? hc)

section Step
variable {w w' : RequestWindow} {label : Label}

theorem Accounted.rephase (h : Accounted w) {i : Nat} {p : CallerPhase} (hp : w.callers[i]? = some p) (p' : CallerPhase)
    (hslot : p'.holdsSlot = p.holdsSlot) (hcounted : p'.counted = p.counted) (hne : p' ≠ .underflowing) {c : Counters}
    (htokens : c.tokens = w.counters.tokens) (hinUse : c.inUse = w.counters.inUse) (hpeak : c.peak = w.counters.peak) :
    Accounted { w with counters := c, callers := w.callers.modify i fun _ => p' } := by
  have hs := countP_modify (·.holdsSlot) (fun _ => p') hp
  have hc := countP_modify (·.counted) (fun _ => p') hp
  rw [hslot] at hs
  rw [hcounted] at hc
  exact {
    tokens := (Nat.add_right_cancel hs).trans (h.tokens.trans htokens.symm)
    inUse := (hinUse.trans h.inUse).trans (congrArg UInt32.ofNat (Nat.add_right_cancel hc).symm)
    noUnderflow := fun hm => (mem_modify hm).elim (fun heq => hne heq.symm) h.noUnderflow
    tokens_le := by
      show c.tokens ≤ c.peak
      rw [htokens, hpeak]
      exact h.tokens_le
    peak_le := by
      show c.peak ≤ w.size
      rw [hpeak]
      exact h.peak_le }

theorem Accounted.send (h : Accounted w) {i : Nat} {p : CallerPhase} (hp : w.callers[i]? = some p) (hslot : p.holdsSlot = false)
    (hcounted : p.counted = false) (hroom : w.counters.tokens < w.size) :
    Accounted { w with counters := w.counters.send, callers := w.callers.modify i fun _ => .entered } := by
  have hs := countP_modify (·.holdsSlot) (fun _ => CallerPhase.entered) hp
  have hc := countP_modify (·.counted) (fun _ => CallerPhase.entered) hp
  rw [hslot] at hs
  rw [hcounted] at hc
  exact {
    tokens := hs.trans (congrArg Nat.succ h.tokens)
    inUse := h.inUse.trans (congrArg UInt32.ofNat (Nat.add_right_cancel hc).symm)
    noUnderflow := fun hm => (mem_modify hm).elim nofun h.noUnderflow
    tokens_le := Nat.le_max_right _ _
    peak_le := Nat.max_le.mpr ⟨h.peak_le, hroom⟩ }

theorem Accounted.tokens_pos (h : Accounted w) {i : Nat} {p : CallerPhase} (hp : w.callers[i]? = some p)
    (hslot : p.holdsSlot = true) : 0 < w.counters.tokens := by
  rw [← h.tokens]
  exact List.countP_pos_iff.mpr ⟨p, List.mem_of_getElem? hp, hslot⟩

theorem Accounted.caller_step (h : Accounted w) {i : Nat} {p p' : CallerPhase} {c : Counters} (hp : w.callers[i]? = some p)
    (hn : CallerNext w.size w.counters p c p') :
    Accounted { w with counters := c, callers := w.callers.modify i fun _ => p' } := by
  cases hn with
  | full wait =>
    cases wait with
    | true => exact h.rephase hp .counting rfl rfl nofun rfl rfl rfl
    | false => exact h.rephase hp .outside rfl rfl nofun rfl rfl rfl
  | send hroom => exact h.send hp rfl rfl hroom
  | sendLate hroom => exact h.send hp rfl rfl hroom
  | add =>
    have hs : _ + 1 = _ + 1 := countP_modify (·.holdsSlot) (fun _ => CallerPhase.recording (w.counters.inUse + 1)) hp
    have hc : _ = _ + 1 := countP_modify (·.counted) (fun _ => CallerPhase.recording (w.counters.inUse + 1)) hp
    refine ⟨(Nat.add_right_cancel hs).trans h.tokens, ?_, fun hm => (mem_modify hm).elim nofun h.noUnderflow,
      h.tokens_le, h.peak_le⟩
    have hadd : w.counters.inUse + 1 = UInt32.ofNat (w.callers.countP (·.counted) + 1) := by
      rw [h.inUse, UInt32.ofNat_add]
      rfl
    exact hadd.trans (congrArg UInt32.ofNat hc.symm)
  | receive hpos =>
    have hs : _ + 1 = _ + 0 := countP_modify (·.holdsSlot) (fun _ => CallerPhase.leaving) hp
    have hc : _ + 1 = _ + 1 := countP_modify (·.counted) (fun _ => CallerPhase.leaving) hp
    refine ⟨?_, h.inUse.trans (congrArg UInt32.ofNat (Nat.add_right_cancel hc).symm),
      fun hm => (mem_modify hm).elim nofun h.noUnderflow, (Nat.sub_le _ _).trans h.tokens_le, h.peak_le⟩
    exact Nat.eq_sub_of_add_eq (hs.trans h.tokens)
  | underflow hzero => exact absurd (h.tokens_pos hp rfl) (by omega)
  | subtract =>
    have hs : _ + 0 = _ + 0 := countP_modify (·.holdsSlot) (fun _ => CallerPhase.outside) hp
    have hc : _ + 1 = _ := countP_modify (·.counted) (fun _ => CallerPhase.outside) hp
    refine ⟨(Nat.add_right_cancel hs).trans h.tokens, ?_, fun hm => (mem_modify hm).elim nofun h.noUnderflow,
      h.tokens_le, h.peak_le⟩
    have hsub : w.counters.inUse = UInt32.ofNat (List.countP _ _ + 1) := h.inUse.trans (congrArg UInt32.ofNat hc.symm)
    show w.counters.inUse - 1 = UInt32.ofNat _
    rw [hsub, UInt32.ofNat_add]
    exact UInt32.add_sub_cancel _ _
  | count => exact absurd (List.mem_of_getElem? hp) h.noUnderflow
  | wait | giveUp | record | low | load | swap | retry =>
    refine h.rephase hp _ ?_ ?_ ?hne ?_ ?_ ?_
    case hne => exact nofun
    all_goals rfl

theorem Accounted.step (h : Accounted w) (hn : Next w label w') : Accounted w' := by
  cases hn with
  | join =>
    have hs : (w.callers ++ [CallerPhase.outside]).countP (·.holdsSlot) = w.callers.countP (·.holdsSlot) := List.countP_append
    have hc : (w.callers ++ [CallerPhase.outside]).countP (·.counted) = w.callers.countP (·.counted) := List.countP_append
    exact {
      tokens := hs.trans h.tokens
      inUse := h.inUse.trans (congrArg UInt32.ofNat hc.symm)
      noUnderflow := fun hm => (List.mem_append.mp hm).elim h.noUnderflow fun heq => by cases List.mem_singleton.mp heq
      tokens_le := h.tokens_le
      peak_le := h.peak_le }
  | acquire hp wait => exact h.rephase hp (.trying wait) rfl rfl nofun rfl rfl rfl
  | release hp => exact h.rephase hp .releasing rfl rfl nofun rfl rfl rfl
  | caller hp hn => exact h.caller_step hp hn
  | snapshot | reader => exact ⟨h.tokens, h.inUse, h.noUnderflow, h.tokens_le, h.peak_le⟩

/-! ## Bounds -/

/-- What a caller carries to `high`. -/
def CallerPhase.carried : CallerPhase → UInt32
  | .recording inUse | .loading inUse | .swapping inUse _ => inUse
  | _ => 0

/-- No number exceeds the most tokens there have been. -/
structure Bounded (w : RequestWindow) : Prop where
  inUse : w.callers.countP (·.counted) ≤ w.counters.peak
  high : w.counters.high.toNat ≤ w.counters.peak
  carried : ∀ p ∈ w.callers, p.carried.toNat ≤ w.counters.peak
  readers : ∀ r ∈ w.readers, r.snapshot.capacity = w.capacity ∧ r.snapshot.inUse.toNat ≤ w.counters.peak ∧
    r.snapshot.highWater.toNat ≤ w.counters.peak

theorem bounded_new (size : Nat) : Bounded (new size) :=
  ⟨Nat.le_refl 0, Nat.le_refl 0, fun _ hp => absurd hp List.not_mem_nil, fun _ hr => absurd hr List.not_mem_nil⟩

theorem Bounded.rephase (h : Bounded w) {i : Nat} {p' : CallerPhase} {c : Counters} (hpeak : w.counters.peak ≤ c.peak)
    (hcount : (w.callers.modify i fun _ => p').countP (·.counted) ≤ c.peak) (hhigh : c.high.toNat ≤ c.peak)
    (hcarried : p'.carried.toNat ≤ c.peak) :
    Bounded { w with counters := c, callers := w.callers.modify i fun _ => p' } where
  inUse := hcount
  high := hhigh
  carried := by
    intro q hq
    obtain rfl | hq := mem_modify hq
    · exact hcarried
    · exact (h.carried q hq).trans hpeak
  readers := fun r hr => ⟨(h.readers r hr).1, (h.readers r hr).2.1.trans hpeak, (h.readers r hr).2.2.trans hpeak⟩

theorem Bounded.count_le (h : Bounded w) {i : Nat} {p p' : CallerPhase} (hp : w.callers[i]? = some p)
    (hle : p'.counted.toNat ≤ p.counted.toNat) : (w.callers.modify i fun _ => p').countP (·.counted) ≤ w.counters.peak := by
  have hc := countP_modify (·.counted) (fun _ => p') hp
  have hb := h.inUse
  omega

theorem Accounted.inUse_le (h : Accounted w) : w.counters.inUse.toNat ≤ w.callers.countP (·.counted) := by
  rw [h.inUse, UInt32.toNat_ofNat']
  exact Nat.mod_le _ _

theorem Accounted.counted_le (h : Accounted w) (hleaving : CallerPhase.leaving ∉ w.callers) :
    w.callers.countP (·.counted) ≤ w.counters.peak :=
  calc w.callers.countP (·.counted)
      ≤ w.callers.countP (·.holdsSlot) := by
        refine List.countP_mono_left fun p hp hc => ?_
        cases p with
        | leaving => exact absurd hp hleaving
        | recording | loading | swapping | holding | releasing => rfl
        | outside | trying | counting | blocked | entered | underflowing => cases hc
    _ = w.counters.tokens := h.tokens
    _ ≤ w.counters.peak := h.tokens_le

theorem Bounded.caller_step (h : Bounded w) (ha : Accounted w) {i : Nat} {p p' : CallerPhase} {c : Counters}
    (hp : w.callers[i]? = some p) (hok : p = .entered → .leaving ∉ w.callers) (hn : CallerNext w.size w.counters p c p') :
    Bounded { w with counters := c, callers := w.callers.modify i fun _ => p' } := by
  have hcarried : p.carried.toNat ≤ w.counters.peak := h.carried p (List.mem_of_getElem? hp)
  have ha' := ha.caller_step hp hn
  cases hn with
  | full wait =>
    cases wait with
    | true => exact h.rephase (Nat.le_refl _) (h.count_le hp (Nat.le_refl 0)) h.high (Nat.zero_le _)
    | false => exact h.rephase (Nat.le_refl _) (h.count_le hp (Nat.le_refl 0)) h.high (Nat.zero_le _)
  | send | sendLate =>
    have hpeak : w.counters.peak ≤ w.counters.send.peak := Nat.le_max_left _ _
    have hcount : (w.callers.modify i fun _ => CallerPhase.entered).countP (·.counted) ≤ w.counters.peak :=
      h.count_le hp (Nat.le_refl 0)
    exact h.rephase hpeak (hcount.trans hpeak) (h.high.trans hpeak) (Nat.zero_le _)
  | add =>
    -- The state after the step has nobody leaving either, and is accounted.
    have hcount := ha'.counted_le fun hm => (mem_modify hm).elim nofun (hok rfl)
    exact h.rephase (Nat.le_refl _) hcount h.high (ha'.inUse_le.trans hcount)
  | record | load | retry =>
    exact h.rephase (Nat.le_refl _) (h.count_le hp (Nat.le_refl 1)) h.high hcarried
  | low => exact h.rephase (Nat.le_refl _) (h.count_le hp (Nat.le_refl 1)) h.high (Nat.zero_le _)
  | swap => exact h.rephase (Nat.le_refl _) (h.count_le hp (Nat.le_refl 1)) hcarried (Nat.zero_le _)
  | receive => exact h.rephase (Nat.le_refl _) (h.count_le hp (Nat.le_refl 1)) h.high (Nat.zero_le _)
  | subtract | underflow => exact h.rephase (Nat.le_refl _) (h.count_le hp (Nat.zero_le 1)) h.high (Nat.zero_le _)
  | wait | giveUp | count =>
    exact h.rephase (Nat.le_refl _) (h.count_le hp (Nat.le_refl 0)) h.high (Nat.zero_le _)

theorem Bounded.reader_step (h : Bounded w) (ha : Accounted w) {r r' : Reader} (hr : r ∈ w.readers)
    (hn : r.step w.counters = some r') : r'.snapshot.capacity = w.capacity ∧
      r'.snapshot.inUse.toNat ≤ w.counters.peak ∧ r'.snapshot.highWater.toNat ≤ w.counters.peak := by
  obtain ⟨hcapacity, hinUse, hhigh⟩ := h.readers r hr
  unfold Reader.step at hn
  split at hn
  · cases hn
    exact ⟨hcapacity, ha.inUse_le.trans h.inUse, hhigh⟩
  · cases hn
    exact ⟨hcapacity, hinUse, h.high⟩
  · cases hn
    exact ⟨hcapacity, hinUse, hhigh⟩
  · cases hn
    exact ⟨hcapacity, hinUse, hhigh⟩
  · cases hn
    exact ⟨hcapacity, hinUse, hhigh⟩
  · cases hn

/-- Nobody counts itself in while another has taken its token back and has yet to count itself out. -/
def Undivided (w : RequestWindow) : Label → Prop
  | .caller i _ => w.callers[i]? = some .entered → .leaving ∉ w.callers
  | _ => True

instance (w : RequestWindow) (label : Label) : Decidable (Undivided w label) :=
  match label with
  | .caller i _ => inferInstanceAs (Decidable (w.callers[i]? = some .entered → .leaving ∉ w.callers))
  | .join | .acquire _ _ | .release _ | .snapshot | .reader _ => .isTrue trivial

theorem Bounded.step (h : Bounded w) (ha : Accounted w) (hok : Undivided w label) (hn : Next w label w') : Bounded w' := by
  cases hn with
  | join =>
    have hc : (w.callers ++ [CallerPhase.outside]).countP (·.counted) = w.callers.countP (·.counted) := List.countP_append
    refine ⟨hc.trans_le h.inUse, h.high, fun p hp => ?_, h.readers⟩
    rcases List.mem_append.mp hp with hp | hp
    · exact h.carried p hp
    · cases List.mem_singleton.mp hp
      exact Nat.zero_le _
  | acquire hp wait => exact h.rephase (Nat.le_refl _) (h.count_le hp (Nat.le_refl 0)) h.high (Nat.zero_le _)
  | release hp => exact h.rephase (Nat.le_refl _) (h.count_le hp (Nat.le_refl 1)) h.high (Nat.zero_le _)
  | caller hp hn => exact h.caller_step ha hp (fun heq => hok (heq ▸ hp)) hn
  | snapshot =>
    refine ⟨h.inUse, h.high, h.carried, fun r hr => ?_⟩
    rcases List.mem_append.mp hr with hr | hr
    · exact h.readers r hr
    · cases List.mem_singleton.mp hr
      exact ⟨rfl, Nat.zero_le _, Nat.zero_le _⟩
  | reader hr hn =>
    refine ⟨h.inUse, h.high, h.carried, fun q hq => ?_⟩
    obtain rfl | hq := mem_modify hq
    · exact h.reader_step ha (List.mem_of_getElem? hr) hn
    · exact h.readers q hq

theorem Next.size (hn : Next w label w') : w'.size = w.size := by
  cases hn <;> rfl

end Step

/-! ## Whole runs -/

theorem run_bounded {size : Nat} {w : RequestWindow} (h : windows.Run Undivided (new size) w) :
    w.size = size ∧ Accounted w ∧ Bounded w := by
  refine h.invariant (P := fun w => w.size = size ∧ Accounted w ∧ Bounded w) (fun s l s' hok hst ⟨hsize, ha, hb⟩ => ?_)
    ⟨rfl, accounted_new size, bounded_new size⟩
  have hn := step_next hst
  exact ⟨hn.size.trans hsize, ha.step hn, hb.step ha hok hn⟩

/-- **No snapshot exceeds the capacity**, nor the most slots there have been, in every run in which nobody counts itself in while
another has yet to count itself out. -/
theorem run_snapshots {size : Nat} (hsize : size < 2 ^ 32) {w : RequestWindow} (h : windows.Run Undivided (new size) w) :
    ∀ r ∈ w.readers, r.snapshot.inUse ≤ r.snapshot.capacity ∧ r.snapshot.highWater ≤ r.snapshot.capacity ∧
      r.snapshot.highWater.toNat ≤ w.counters.peak := by
  obtain ⟨rfl, ha, hb⟩ := run_bounded h
  intro r hr
  obtain ⟨hcapacity, hinUse, hhigh⟩ := hb.readers r hr
  have hpeak : w.counters.peak ≤ r.snapshot.capacity.toNat := by
    rw [hcapacity, capacity, UInt32.toNat_ofNat', Nat.mod_eq_of_lt hsize]
    exact ha.peak_le
  exact ⟨UInt32.le_iff_toNat_le.mpr (hinUse.trans hpeak), UInt32.le_iff_toNat_le.mpr (hhigh.trans hpeak), hhigh⟩

/-- One caller acquires the only slot and releases it; another waits for it, and the slot is read while it is held. -/
def handover : List Label :=
  List.flatten [[.join, .join, .acquire 0 false], List.replicate 5 (.caller 0 false),
    [.acquire 1 true, .caller 1 false, .caller 1 false, .release 0, .caller 0 false, .caller 0 false],
    List.replicate 4 (.caller 1 false), [.snapshot], List.replicate 5 (.reader 0)]

theorem run_snapshots_handover :
    (windows.after Undivided (new 1) handover).readers.map (·.snapshot) = [⟨1, 1, 1, 2, 1, 0⟩] ∧
      ∀ r ∈ (windows.after Undivided (new 1) handover).readers, r.snapshot.inUse ≤ r.snapshot.capacity ∧
        r.snapshot.highWater ≤ r.snapshot.capacity ∧
        r.snapshot.highWater.toNat ≤ (windows.after Undivided (new 1) handover).counters.peak :=
  ⟨by decide +kernel, run_snapshots (by decide) (System.run_after _ _ _ handover (by decide +kernel))⟩

/-- The waiting caller counts itself in before the other has counted itself out. -/
def overlap : List Label :=
  List.flatten [[.join, .join, .acquire 0 false], List.replicate 5 (.caller 0 false),
    [.acquire 1 true, .caller 1 false, .caller 1 false, .release 0, .caller 0 false],
    List.replicate 5 (.caller 1 false), [.snapshot], List.replicate 5 (.reader 0)]

/-- A snapshot may tell of two slots in use, out of one. -/
theorem snapshot_exceeds : ∃ w, windows.Run anyStep (new 1) w ∧ w.counters.peak = 1 ∧
    w.readers = [⟨⟨1, 2, 2, 2, 1, 0⟩, 5⟩] :=
  ⟨windows.after anyStep (new 1) overlap, System.run_after _ _ _ overlap (by decide +kernel), by decide +kernel,
    by decide +kernel⟩

end RequestWindow

end GoSmpp
