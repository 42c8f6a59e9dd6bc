import GoSmpp.Lib.Run
import Mathlib.Data.List.AList

/-!
# The bind throttle

`server/ratelimit.go`: the limiter that `NewBindThrottle` returns. Its table maps a remote IP (`remoteHost` of the attempt's
address, here a type `Host`) to an entry.

* `BindThrottle.allowBind`, `BindThrottle.recordBind`, `BindThrottle.evictLocked`: the methods. Go ranges over a map in an
  order of its own; here the order is an argument of the call.
* `throttles`: the step system of calls, each at the time its clock showed.
* `HostCall.apply`: what the calls for one IP do to its entry, with no other IP in sight.
* `evictLocked_spec`: which entry makes room. `step_lookup`: a call does to the entry of its own IP what `HostCall.apply`
  says, and leaves every other entry alone but for an eviction.
-/

namespace GoSmpp.Server
open GoSmpp.Lib

structure BindThrottleConfig where
  maxFailures : Int := 0
  window : Int := 0
  lockout : Int := 0
  maxTracked : Int := 0
  deriving DecidableEq, Repr

namespace BindThrottleConfig

structure Positive (c : BindThrottleConfig) : Prop where
  maxFailures : 0 < c.maxFailures
  window : 0 < c.window
  lockout : 0 < c.lockout
  maxTracked : 0 < c.maxTracked

def minute : Int := 60 * 1000000000

/-- The values `NewBindThrottle` puts in the place of those that are not positive. -/
def withDefaults (c : BindThrottleConfig) : BindThrottleConfig where
  maxFailures := if c.maxFailures ≤ 0 then 5 else c.maxFailures
  window := if c.window ≤ 0 then minute else c.window
  lockout := if c.lockout ≤ 0 then minute else c.lockout
  maxTracked := if c.maxTracked ≤ 0 then 10000 else c.maxTracked

theorem withDefaults_positive (c : BindThrottleConfig) : c.withDefaults.Positive := by
  constructor <;> simp only [withDefaults, minute] <;> split <;> omega

end BindThrottleConfig

/-- Times are in nanoseconds after the zero `time.Time`, which stands for the end of a lockout that was never set. -/
structure ThrottleEntry where
  failures : Nat := 0
  windowStart : Nat
  lastFailure : Nat := 0
  lockedUntil : Nat := 0
  deriving DecidableEq, Repr

namespace ThrottleEntry
variable (c : BindThrottleConfig) (now : Nat) (e : ThrottleEntry)

/-- `now.Sub(e.windowStart) >= Window`. -/
def lapsed : Bool := c.window ≤ (now : Int) - e.windowStart

/-- What `evictLocked` looks for first. -/
def expired : Bool := !(now < e.lockedUntil) && e.lapsed c now

/-- A failure is counted: the second half of `RecordBind`. -/
def fail : ThrottleEntry :=
  let e := if e.lapsed c now then { e with failures := 0, windowStart := now } else e
  let e := { e with failures := e.failures + 1, lastFailure := now }
  if c.maxFailures ≤ e.failures then { e with lockedUntil := (now + c.lockout).toNat } else e

end ThrottleEntry

structure BindThrottle (Host : Type) where
  config : BindThrottleConfig
  positive : config.Positive
  entries : AList fun _ : Host => ThrottleEntry

/-- The order in which a loop ranges over the entries. -/
abbrev Order (Host : Type) := List (Sigma fun _ : Host => ThrottleEntry)

/-- A call of a method for an IP, and what the clock shows. -/
inductive Call (Host : Type) where
  | allowBind (host : Host) (now : Nat)
  | recordBind (host : Host) (success : Bool) (now : Nat) (order : Order Host)

/-- A call as the IP that it is made for sees it. -/
inductive HostCall where
  | allow (now : Nat)
  | record (success : Bool) (now : Nat)
  deriving DecidableEq, Repr

variable {Host : Type}

def newBindThrottle (config : BindThrottleConfig) : BindThrottle Host :=
  { config := config.withDefaults, positive := config.withDefaults_positive, entries := ∅ }

namespace BindThrottle

def size (t : BindThrottle Host) : Nat := t.entries.entries.length

def allowBind [DecidableEq Host] (t : BindThrottle Host) (host : Host) (now : Nat) : Bool × BindThrottle Host :=
  match t.entries.lookup host with
  | none => (true, t)
  | some e =>
    if now < e.lockedUntil then (false, t)
    else if e.lockedUntil != 0 || e.lapsed t.config now then (true, { t with entries := t.entries.erase host })
    else (true, t)

/-- The loop of `evictLocked`, with the key and last failure of the oldest entry so far: the key that is deleted. -/
def evictLoop (c : BindThrottleConfig) (now : Nat) : Order Host → Option (Host × Nat) → Option Host
  | [], oldest => oldest.map Prod.fst
  | ⟨k, e⟩ :: rest, oldest =>
    if e.expired c now then some k
    else evictLoop c now rest (if oldest.all (e.lastFailure < ·.2) then some (k, e.lastFailure) else oldest)

def evictLocked [DecidableEq Host] (t : BindThrottle Host) (now : Nat) (order : Order Host) : BindThrottle Host :=
  match evictLoop t.config now order none with
  | some k => { t with entries := t.entries.erase k }
  | none => t

def recordBind [DecidableEq Host] (t : BindThrottle Host) (host : Host) (success : Bool) (now : Nat)
    (order : Order Host) : BindThrottle Host :=
  if success then t
  else match t.entries.lookup host with
    | some e => { t with entries := t.entries.insert host (e.fail t.config now) }
    | none =>
      let t := if t.config.maxTracked ≤ t.size then t.evictLocked now order else t
      { t with entries := t.entries.insert host (ThrottleEntry.fail t.config now { windowStart := now }) }

def step [DecidableEq Host] (t : BindThrottle Host) : Call Host → Option (BindThrottle Host)
  | .allowBind host now => some (t.allowBind host now).2
  | .recordBind host success now order =>
    if order.Perm t.entries.entries then some (t.recordBind host success now order) else none

end BindThrottle

/-- The throttle under calls of its methods. -/
def throttles (Host : Type) [DecidableEq Host] : System (BindThrottle Host) (Call Host) := ⟨BindThrottle.step⟩

namespace Call

def now : Call Host → Nat
  | .allowBind _ now | .recordBind _ _ now _ => now

/-- The call as the IP sees it, if it is made for it. -/
def on [DecidableEq Host] (host : Host) : Call Host → Option HostCall
  | .allowBind k now => if k = host then some (.allow now) else none
  | .recordBind k success now _ => if k = host then some (.record success now) else none

end Call

namespace HostCall

def apply (c : BindThrottleConfig) : HostCall → Option ThrottleEntry → Option ThrottleEntry
  | .allow now, some e =>
    if now < e.lockedUntil then some e else if e.lockedUntil != 0 || e.lapsed c now then none else some e
  | .allow _, none => none
  | .record true _, e => e
  | .record false now, some e => some (e.fail c now)
  | .record false now, none => some (ThrottleEntry.fail c now { windowStart := now })

end HostCall

/-- Whether an IP with this entry, or none, is refused. -/
def refused (now : Nat) (e : Option ThrottleEntry) : Bool := e.any (now < ·.lockedUntil)

/-! ## Eviction -/

section Evict

/-- `o` is an entry of the list, or what came before it, whose last failure none of them precedes. -/
structure Oldest (l : Order Host) (before o : Option (Host × Nat)) : Prop where
  source : o = before ∨ ∃ x ∈ l, o = some (x.1, x.2.lastFailure)
  le : ∀ p ∈ o, ∀ x ∈ l, p.2 ≤ x.2.lastFailure
  le_before : ∀ p ∈ o, ∀ q ∈ before, p.2 ≤ q.2
  isSome : l ≠ [] ∨ before.isSome → o.isSome

theorem Oldest.nil (before : Option (Host × Nat)) : Oldest [] before before where
  source := .inl rfl
  le _ _ x hx := absurd hx List.not_mem_nil
  le_before p hp q hq := by
    rw [Option.mem_def] at hp hq
    rw [hp] at hq
    cases hq
    exact Nat.le_refl _
  isSome h := h.resolve_left (· rfl)

theorem Oldest.cons {x : Sigma fun _ : Host => ThrottleEntry} {l : Order Host} {before o : Option (Host × Nat)}
    (h : Oldest l (if before.all (x.2.lastFailure < ·.2) then some (x.1, x.2.lastFailure) else before) o) :
    Oldest (x :: l) before o := by
  obtain ⟨source, le, le_before, isSome⟩ := h
  by_cases hx : before.all (x.2.lastFailure < ·.2)
  · rw [if_pos hx] at source le_before isSome
    have hle : ∀ p ∈ o, p.2 ≤ x.2.lastFailure := fun p hp => le_before p hp _ rfl
    refine ⟨?_, fun p hp y hy => ?_, fun p hp q hq => ?_, fun _ => isSome (.inr rfl)⟩
    · rcases source with h | ⟨y, hy, h⟩
      · exact .inr ⟨x, List.mem_cons_self, h⟩
      · exact .inr ⟨y, List.mem_cons_of_mem _ hy, h⟩
    · rcases List.mem_cons.mp hy with rfl | hy
      · exact hle p hp
      · exact le p hp y hy
    · rw [Option.mem_def.mp hq] at hx
      exact Nat.le_trans (hle p hp) (Nat.le_of_lt (of_decide_eq_true hx))
  · rw [if_neg hx] at source le_before isSome
    obtain ⟨q, rfl, hq⟩ : ∃ q, before = some q ∧ q.2 ≤ x.2.lastFailure := by
      cases before with
      | none => exact absurd rfl hx
      | some q => exact ⟨q, rfl, Nat.le_of_not_lt fun h => hx (decide_eq_true h)⟩
    refine ⟨?_, fun p hp y hy => ?_, le_before, fun _ => isSome (.inr rfl)⟩
    · exact source.imp_right fun ⟨y, hy, h⟩ => ⟨y, List.mem_cons_of_mem _ hy, h⟩
    · rcases List.mem_cons.mp hy with rfl | hy
      · exact Nat.le_trans (le_before p hp q rfl) hq
      · exact le p hp y hy

theorem evictLoop_spec (c : BindThrottleConfig) (now : Nat) (l : Order Host) (before : Option (Host × Nat)) :
    (∃ x ∈ l, x.2.expired c now ∧ BindThrottle.evictLoop c now l before = some x.1) ∨
    ((∀ x ∈ l, x.2.expired c now = false) ∧
      ∃ o, BindThrottle.evictLoop c now l before = o.map Prod.fst ∧ Oldest l before o) := by
  induction l generalizing before with
  | nil => exact .inr ⟨fun _ h => absurd h List.not_mem_nil, before, rfl, .nil before⟩
  | cons x l ih =>
    unfold BindThrottle.evictLoop
    cases hx : x.2.expired c now with
    | true => exact .inl ⟨x, List.mem_cons_self, hx, if_pos rfl⟩
    | false =>
      rw [if_neg Bool.false_ne_true]
      rcases ih (if before.all (x.2.lastFailure < ·.2) then some (x.1, x.2.lastFailure) else before) with
        ⟨y, hy, he, hr⟩ | ⟨hl, o, hr, ho⟩
      · exact .inl ⟨y, List.mem_cons_of_mem _ hy, he, hr⟩
      · refine .inr ⟨fun y hy => ?_, o, hr, ho.cons⟩
        rcases List.mem_cons.mp hy with rfl | hy
        · exact hx
        · exact hl y hy

end Evict

namespace BindThrottle
variable [DecidableEq Host] {t t' : BindThrottle Host} {host : Host} {now : Nat} {order : Order Host}
  {call : Call Host} {e : ThrottleEntry}

theorem mem_entries : (⟨host, e⟩ : Sigma fun _ : Host => ThrottleEntry) ∈ t.entries.entries ↔
    t.entries.lookup host = some e := AList.mem_lookup_iff.symm

/-- The entry is one that may make room at the time: it is expired, or none is and no last failure is older. -/
def Evictable (t : BindThrottle Host) (now : Nat) (e : ThrottleEntry) : Prop :=
  e.expired t.config now ∨ ∀ k' e', t.entries.lookup k' = some e' →
    e'.expired t.config now = false ∧ e.lastFailure ≤ e'.lastFailure

theorem evictLocked_spec (now : Nat) (hperm : order.Perm t.entries.entries) (hne : t.entries.entries ≠ []) :
    ∃ k e, t.entries.lookup k = some e ∧ t.Evictable now e ∧
      t.evictLocked now order = { t with entries := t.entries.erase k } := by
  have hmem {x} (hx : x ∈ order) : t.entries.lookup x.1 = some x.2 := mem_entries.mp (hperm.mem_iff.mp hx)
  unfold evictLocked
  rcases evictLoop_spec t.config now order none with ⟨x, hx, he, hr⟩ | ⟨hl, o, hr, ho⟩
  · exact ⟨x.1, x.2, hmem hx, .inl he, by rw [hr]⟩
  · have hsome := ho.isSome (.inl fun h => hne (List.nil_perm.mp (h ▸ hperm)))
    obtain ⟨x, hx, rfl⟩ := ho.source.resolve_left fun h => by rw [h] at hsome; cases hsome
    refine ⟨x.1, x.2, hmem hx, .inr fun k' e' he' => ?_, by rw [hr]; rfl⟩
    have hx' := hperm.mem_iff.mpr (mem_entries.mpr he')
    exact ⟨hl _ hx', ho.le _ rfl _ hx'⟩

/-! ## One step -/

/-- The call makes room for its own IP by the entry of this one. -/
structure Evicts (t : BindThrottle Host) (call : Call Host) (host : Host) : Prop where
  full : t.config.maxTracked ≤ t.size
  fresh : ∃ k order, call = .recordBind k false call.now order ∧ t.entries.lookup k = none
  evictable : ∃ e, t.entries.lookup host = some e ∧ t.Evictable call.now e

theorem allowBind_fst (t : BindThrottle Host) (host : Host) (now : Nat) :
    (t.allowBind host now).1 = !refused now (t.entries.lookup host) := by
  unfold allowBind refused
  cases t.entries.lookup host with
  | none => rfl
  | some e =>
    by_cases hl : now < e.lockedUntil
    · simp [hl]
    · simp only [hl, if_false, Option.any_some, decide_false, Bool.not_false]
      split <;> rfl

theorem allowBind_config (t : BindThrottle Host) (host : Host) (now : Nat) :
    (t.allowBind host now).2.config = t.config := by
  unfold allowBind
  split
  · rfl
  · split
    · rfl
    · split <;> rfl

theorem allowBind_lookup (t : BindThrottle Host) (host : Host) (now : Nat) :
    (t.allowBind host now).2.entries.lookup host = (HostCall.allow now).apply t.config (t.entries.lookup host) := by
  unfold allowBind
  cases h : t.entries.lookup host with
  | none => exact h
  | some e =>
    unfold HostCall.apply
    dsimp only
    split
    · exact h
    · split
      · exact AList.lookup_erase ..
      · exact h

theorem allowBind_lookup_ne {k : Host} (hne : host ≠ k) : (t.allowBind k now).2.entries.lookup host = t.entries.lookup host := by
  unfold allowBind
  split
  · rfl
  · split
    · rfl
    · split
      · exact AList.lookup_erase_ne hne
      · rfl

omit [DecidableEq Host] in
theorem entries_ne_nil (h : t.config.maxTracked ≤ t.size) : t.entries.entries ≠ [] := by
  intro hnil
  have := t.positive.maxTracked
  rw [size, hnil, List.length_nil] at h
  omega

theorem recordBind_fresh (now : Nat) (hperm : order.Perm t.entries.entries) (hnone : t.entries.lookup host = none) :
    ∃ rest, t.recordBind host false now order =
        { t with entries := rest.insert host (ThrottleEntry.fail t.config now { windowStart := now }) } ∧
      (rest = t.entries ∧ t.size < t.config.maxTracked ∨ t.config.maxTracked ≤ t.size ∧
        ∃ k e, rest = t.entries.erase k ∧ t.entries.lookup k = some e ∧ t.Evictable now e) := by
  unfold recordBind
  rw [if_neg Bool.false_ne_true, hnone]
  by_cases hfull : t.config.maxTracked ≤ t.size
  · obtain ⟨k, e, hk, he, hevict⟩ := evictLocked_spec now hperm (entries_ne_nil hfull)
    refine ⟨t.entries.erase k, ?_, .inr ⟨hfull, k, e, rfl, hk, he⟩⟩
    dsimp only
    rw [if_pos hfull, hevict]
  · refine ⟨t.entries, ?_, .inl ⟨rfl, by omega⟩⟩
    dsimp only
    rw [if_neg hfull]

theorem step_recordBind {success : Bool} (h : t.step (.recordBind host success now order) = some t') :
    order.Perm t.entries.entries ∧ t' = t.recordBind host success now order := by
  have h : (if order.Perm t.entries.entries then some (t.recordBind host success now order) else none) = some t' := h
  split at h
  · next hperm => exact ⟨hperm, (Option.some.inj h).symm⟩
  · cases h

/-- **What a call does.** To the entry of its own IP it does what it would do with no other IP in sight, and every other
entry stays but the one that is evicted. -/
theorem step_lookup (h : t.step call = some t') : t'.config = t.config ∧ ∀ host,
    (∃ r, call.on host = some r ∧ t'.entries.lookup host = r.apply t.config (t.entries.lookup host)) ∨
    call.on host = none ∧ (t'.entries.lookup host = t.entries.lookup host ∨
      t.Evicts call host ∧ t'.entries.lookup host = none) := by
  cases call with
  | allowBind k now =>
    cases h
    refine ⟨allowBind_config .., fun host => ?_⟩
    by_cases hk : k = host
    · subst hk
      exact .inl ⟨_, if_pos rfl, allowBind_lookup ..⟩
    · exact .inr ⟨if_neg hk, .inl (allowBind_lookup_ne (Ne.symm hk))⟩
  | recordBind k success now order =>
    obtain ⟨hperm, rfl⟩ := step_recordBind h
    cases success with
    | true =>
      refine ⟨rfl, fun host => ?_⟩
      by_cases hk : k = host
      · exact .inl ⟨_, if_pos hk, rfl⟩
      · exact .inr ⟨if_neg hk, .inl rfl⟩
    | false =>
      cases hl : t.entries.lookup k with
      | some e =>
        have hrec : t.recordBind k false now order = { t with entries := t.entries.insert k (e.fail t.config now) } := by
          unfold recordBind
          rw [if_neg Bool.false_ne_true, hl]
        rw [hrec]
        refine ⟨rfl, fun host => ?_⟩
        by_cases hk : k = host
        · subst hk
          exact .inl ⟨_, if_pos rfl, by rw [hl]; exact AList.lookup_insert ..⟩
        · exact .inr ⟨if_neg hk, .inl (AList.lookup_insert_ne (Ne.symm hk))⟩
      | none =>
        obtain ⟨rest, hrec, hrest⟩ := recordBind_fresh now hperm hl
        rw [hrec]
        refine ⟨rfl, fun host => ?_⟩
        by_cases hk : k = host
        · subst hk
          exact .inl ⟨_, if_pos rfl, by rw [hl]; exact AList.lookup_insert ..⟩
        · refine .inr ⟨if_neg hk, ?_⟩
          show (rest.insert k _).lookup host = _ ∨ _ ∧ (rest.insert k _).lookup host = none
          rw [AList.lookup_insert_ne (Ne.symm hk)]
          rcases hrest with ⟨rfl, _⟩ | ⟨hfull, k', e, rfl, hk', he⟩
          · exact .inl rfl
          · by_cases hhost : host = k'
            · subst hhost
              exact .inr ⟨⟨hfull, ⟨k, order, rfl, hl⟩, e, hk', he⟩, AList.lookup_erase ..⟩
            · exact .inl (AList.lookup_erase_ne hhost)

theorem length_erase (s : AList fun _ : Host => ThrottleEntry) (k : Host) :
    (s.erase k).entries.length = if k ∈ s then s.entries.length - 1 else s.entries.length := by
  have hlen (s : AList fun _ : Host => ThrottleEntry) : s.entries.length = s.keys.length := (List.length_map _).symm
  rw [hlen, hlen, AList.keys_erase, List.length_erase]
  exact if_congr AList.mem_keys.symm rfl rfl

theorem length_insert (s : AList fun _ : Host => ThrottleEntry) (k : Host) (e : ThrottleEntry) :
    (s.insert k e).entries.length = (s.erase k).entries.length + 1 := by
  rw [AList.entries_insert]
  rfl

theorem size_allowBind (t : BindThrottle Host) (host : Host) (now : Nat) : (t.allowBind host now).2.size ≤ t.size := by
  have herase := length_erase t.entries host
  unfold allowBind
  split
  · exact Nat.le_refl _
  · split
    · exact Nat.le_refl _
    · split
      · show (t.entries.erase host).entries.length ≤ t.entries.entries.length
        split at herase <;> omega
      · exact Nat.le_refl _

theorem step_size (h : t.step call = some t') (hsize : t.size ≤ t.config.maxTracked) : t'.size ≤ t.config.maxTracked := by
  cases call with
  | allowBind k now =>
    cases h
    have := size_allowBind t k now
    omega
  | recordBind k success now order =>
    obtain ⟨hperm, rfl⟩ := step_recordBind h
    cases success with
    | true => exact hsize
    | false =>
      cases hl : t.entries.lookup k with
      | some e =>
        have hmem : k ∈ t.entries := AList.lookup_isSome.mp (by rw [hl]; rfl)
        have hpos := List.length_pos_of_mem (mem_entries.mpr hl)
        have herase := length_erase t.entries k
        rw [if_pos hmem] at herase
        unfold recordBind
        rw [if_neg Bool.false_ne_true, hl]
        show (((t.entries.insert k _).entries.length : Nat) : Int) ≤ _
        rw [length_insert, herase, Nat.sub_add_cancel hpos]
        exact hsize
      | none =>
        obtain ⟨rest, hrec, hrest⟩ := recordBind_fresh now hperm hl
        have hmem : k ∉ t.entries := AList.lookup_eq_none.mp hl
        rw [hrec]
        show (((rest.insert k _).entries.length : Nat) : Int) ≤ _
        rw [length_insert]
        rcases hrest with ⟨rfl, hroom⟩ | ⟨hfull, k', e, rfl, hk', he⟩
        · rw [length_erase, if_neg hmem]
          unfold size at hroom
          omega
        · have hmem' : k' ∈ t.entries := AList.lookup_isSome.mp (by rw [hk']; rfl)
          have hpos := List.length_pos_of_mem (mem_entries.mpr hk')
          rw [length_erase, if_neg (fun h => hmem (AList.mem_erase.mp h).2), length_erase, if_pos hmem',
            Nat.sub_add_cancel hpos]
          exact hsize

end BindThrottle

end GoSmpp.Server
