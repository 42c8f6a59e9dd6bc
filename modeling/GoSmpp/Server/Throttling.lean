import GoSmpp.Server.RateLimit
import Mathlib.Data.Finset.Card
import Mathlib.Data.Finset.Dedup

/-!
# Runs of the bind throttle

A history is a run of calls at times that do not decrease, each with the throttle before it.

* `Recorded`: what an entry says about the failures recorded for its IP, along every history (`trace_recorded`).
* `trace_isolated`: as long as no more than `MaxTracked` IPs fail, the entry of an IP is what the calls for it alone make.
* `trace_throttle`: the table is bounded, an IP is refused for a reason, eviction takes what it should, IPs do not disturb
  each other and a lockout lasts.
* `burst_refused_iff`: `MaxFailures` failures within `Window` lock an IP out unless one of the calls among them finds the
  window of the entry over, and forgets failures that are younger than `Window` (`slidBurst_allowed`).
-/

namespace GoSmpp.Server
open GoSmpp.Lib

section ThrottleEntry
variable {c : BindThrottleConfig} {now : Nat} {e : ThrottleEntry}

theorem fail_eq : e.fail c now =
    { failures := (if e.lapsed c now then 0 else e.failures) + 1
      windowStart := if e.lapsed c now then now else e.windowStart
      lastFailure := now
      lockedUntil := if c.maxFailures ≤ ((if e.lapsed c now then 0 else e.failures) + 1 : Nat) then (now + c.lockout).toNat
        else e.lockedUntil } := by
  unfold ThrottleEntry.fail
  dsimp only
  cases e.lapsed c now <;> simp only [Bool.false_eq_true, if_false, if_true] <;> split <;> rfl

theorem fail_failures : (e.fail c now).failures = (if e.lapsed c now then 0 else e.failures) + 1 := by rw [fail_eq]

theorem fail_windowStart : (e.fail c now).windowStart = if e.lapsed c now then now else e.windowStart := by rw [fail_eq]

theorem fail_lastFailure : (e.fail c now).lastFailure = now := by rw [fail_eq]

theorem fail_lockedUntil : (e.fail c now).lockedUntil =
    if c.maxFailures ≤ (e.fail c now).failures then (now + c.lockout).toNat else e.lockedUntil := by rw [fail_eq]

end ThrottleEntry

/-- The calls of a run, each with the throttle before it. -/
abbrev History (Host : Type) := List (BindThrottle Host × Call Host)

section History
variable {Host : Type}

def Clocked (tr : History Host) : Prop := (tr.map (·.2.now)).Pairwise (· ≤ ·)

instance (tr : History Host) : Decidable (Clocked tr) := inferInstanceAs (Decidable (List.Pairwise _ _))

/-- The IP whose failure the call records. -/
def Call.failing : Call Host → Option Host
  | .recordBind host false _ _ => some host
  | _ => none

/-- The time of the failure that the call records. -/
def HostCall.failure : HostCall → Option Nat
  | .record false now => some now
  | _ => none

def HostCall.now : HostCall → Nat
  | .allow now | .record _ now => now

variable [DecidableEq Host]

/-- The times of the failures recorded for an IP. -/
def failures (host : Host) (tr : History Host) : List Nat := tr.filterMap fun x => (x.2.on host).bind HostCall.failure

def failing (tr : History Host) : Finset Host := (tr.filterMap (·.2.failing)).toFinset

def calls (host : Host) (tr : History Host) : List HostCall := tr.filterMap (·.2.on host)

/-- The times lie in an interval shorter than the window. -/
def Within (window : Int) (times : List Nat) : Prop := ∀ a ∈ times, ∀ b ∈ times, (a : Int) - b < window

/-- Enough failures of the list lie in one window, and this is the last of them. -/
def Locks (c : BindThrottleConfig) (times : List Nat) (last : Nat) : Prop :=
  ∃ l : List Nat, l.Sublist times ∧ c.maxFailures ≤ l.length ∧ Within c.window l ∧ l.getLast? = some last

/-- The failures that an entry counts are recorded, and none is before its window. -/
def Counted (times : List Nat) (e : ThrottleEntry) : Prop :=
  ∃ l : List Nat, l.Sublist times ∧ l.length = e.failures ∧ ∀ a ∈ l, e.windowStart ≤ a

/-- What an entry says about the failures recorded for its IP. -/
structure Recorded (c : BindThrottleConfig) (times : List Nat) (e : ThrottleEntry) : Prop where
  counted : Counted times e
  started : e.windowStart ≤ e.lastFailure
  window : (e.lastFailure : Int) - e.windowStart < c.window
  last : e.lastFailure ∈ times
  locked : e.lockedUntil ≠ 0 → ∃ last, Locks c times last ∧ last ≤ e.lastFailure ∧ (e.lockedUntil : Int) = last + c.lockout

end History

section Recorded
variable {c : BindThrottleConfig} {times : List Nat} {now : Nat} {e : ThrottleEntry}

theorem Locks.mono {times' : List Nat} {last : Nat} (h : Locks c times last) (hsub : times.Sublist times') :
    Locks c times' last := by
  obtain ⟨l, hl, hrest⟩ := h
  exact ⟨l, hl.trans hsub, hrest⟩

theorem fail_counted (h : Counted times e) (hstart : e.windowStart ≤ now) :
    ∃ l : List Nat, (l ++ [now]).Sublist (times ++ [now]) ∧ (l ++ [now]).length = (e.fail c now).failures ∧
      ∀ a ∈ l ++ [now], (e.fail c now).windowStart ≤ a := by
  rw [fail_failures, fail_windowStart]
  cases e.lapsed c now with
  | true =>
    refine ⟨[], List.sublist_append_right _ _, rfl, fun a ha => ?_⟩
    rw [List.nil_append, List.mem_singleton] at ha
    exact ha ▸ Nat.le_refl _
  | false =>
    obtain ⟨l, hl, hlen, hle⟩ := h
    refine ⟨l, hl.append (.refl _), by rw [List.length_append, hlen]; rfl, fun a ha => ?_⟩
    rcases List.mem_append.mp ha with ha | ha
    · exact hle a ha
    · rw [List.mem_singleton.mp ha]
      exact hstart

theorem Recorded.fail (hpos : c.Positive) (hcount : Counted times e) (hstart : e.windowStart ≤ now)
    (hclock : ∀ a ∈ times, a ≤ now)
    (hlocked : e.lockedUntil ≠ 0 → ∃ last, Locks c times last ∧ (e.lockedUntil : Int) = last + c.lockout) :
    Recorded c (times ++ [now]) (e.fail c now) := by
  obtain ⟨l, hsub, hlen, hle⟩ := fail_counted (c := c) hcount hstart
  have hwindow : (now : Int) - (e.fail c now).windowStart < c.window := by
    have := hpos.window
    rw [fail_windowStart]
    cases hl : e.lapsed c now with
    | true => rw [if_pos rfl]; omega
    | false =>
      rw [if_neg Bool.false_ne_true]
      exact Int.not_le.mp (of_decide_eq_false hl)
  refine ⟨⟨l ++ [now], hsub, hlen, hle⟩, ?_, by rwa [fail_lastFailure], ?_, fun hne => ?_⟩
  · rw [fail_lastFailure]
    exact hle now (List.mem_append_right _ (List.mem_singleton_self _))
  · rw [fail_lastFailure]
    exact List.mem_append_right _ (List.mem_singleton_self _)
  rw [fail_lockedUntil] at hne ⊢
  rw [fail_lastFailure]
  have hpos' := hpos.lockout
  split at hne
  · next hmax =>
    rw [if_pos hmax]
    refine ⟨now, ⟨l ++ [now], hsub, by rwa [hlen], fun a ha b hb => ?_, List.getLast?_concat ..⟩, Nat.le_refl _, by omega⟩
    have hb := hle b hb
    have ha : a ≤ now := by
      rcases List.mem_append.mp (hsub.subset ha) with h | h
      · exact hclock a h
      · exact Nat.le_of_eq (List.mem_singleton.mp h)
    omega
  · next hmax =>
    rw [if_neg hmax]
    obtain ⟨last, hlast, hlock⟩ := hlocked hne
    have hmem : last ∈ times := by
      obtain ⟨l', hl', _, _, hget⟩ := hlast
      exact hl'.subset (List.mem_of_getLast? hget)
    exact ⟨last, hlast.mono (List.sublist_append_left _ _), hclock _ hmem, hlock⟩

theorem Recorded.lockedUntil_le (h : Recorded c times e) (hclock : e.lastFailure ≤ now) :
    e.lockedUntil ≤ (e.fail c now).lockedUntil := by
  rw [fail_lockedUntil]
  split
  · by_cases hz : e.lockedUntil = 0
    · omega
    · obtain ⟨last, _, hlast, hlock⟩ := h.locked hz
      omega
  · exact Nat.le_refl _

end Recorded

theorem Recorded.apply {c : BindThrottleConfig} {times : List Nat} {e' : ThrottleEntry} {o : Option ThrottleEntry}
    {r : HostCall} (hpos : c.Positive) (hclock : ∀ a ∈ times, a ≤ r.now) (h : ∀ e, o = some e → Recorded c times e)
    (he : r.apply c o = some e') : Recorded c (times ++ r.failure.toList) e' := by
  cases r with
  | allow now =>
    cases o with
    | none => cases he
    | some e =>
      have hsame : e = e' := by
        unfold HostCall.apply at he
        dsimp only at he
        split at he
        · exact Option.some.inj he
        · split at he
          · cases he
          · exact Option.some.inj he
      show Recorded c (times ++ []) e'
      rw [List.append_nil, ← hsame]
      exact h e rfl
  | record success now =>
    cases success with
    | true =>
      show Recorded c (times ++ []) e'
      rw [List.append_nil]
      exact h e' he
    | false =>
      cases o with
      | none =>
        cases he
        exact .fail hpos ⟨[], List.nil_sublist _, rfl, fun _ h => absurd h List.not_mem_nil⟩ (Nat.le_refl _) hclock
          (absurd rfl)
      | some e =>
        cases he
        have he := h e rfl
        refine .fail hpos he.counted (Nat.le_trans he.started (hclock _ he.last)) hclock fun hne => ?_
        obtain ⟨last, hlocks, _, hlock⟩ := he.locked hne
        exact ⟨last, hlocks, hlock⟩

/-! ## Histories -/

section Trace
variable {Host : Type} [DecidableEq Host] {config : BindThrottleConfig} {tr tr' : History Host}
  {t t' : BindThrottle Host} {call : Call Host} {host : Host} {now : Nat}

omit [DecidableEq Host] in
theorem Clocked.snoc (h : Clocked (tr ++ [(t, call)])) : Clocked tr ∧ ∀ x ∈ tr, x.2.now ≤ call.now := by
  unfold Clocked at *
  rw [List.map_append, List.pairwise_append] at h
  refine ⟨h.1, fun x hx => h.2.2 _ (List.mem_map_of_mem hx) _ ?_⟩
  exact List.mem_singleton_self _

theorem on_allowBind {k : Host} {r : HostCall} : (Call.allowBind k now).on host = some r ↔ k = host ∧ .allow now = r := by
  simp only [Call.on, Option.ite_none_right_eq_some, Option.some.injEq]

theorem on_recordBind {k : Host} {r : HostCall} {success : Bool} {order : Order Host} :
    (Call.recordBind k success now order).on host = some r ↔ k = host ∧ .record success now = r := by
  simp only [Call.on, Option.ite_none_right_eq_some, Option.some.injEq]

theorem on_now {r : HostCall} (h : call.on host = some r) : r.now = call.now := by
  cases call with
  | allowBind k now => rw [← (on_allowBind.mp h).2]; rfl
  | recordBind k success now order => rw [← (on_recordBind.mp h).2]; rfl

theorem failures_snoc : failures host (tr ++ [(t, call)]) =
    failures host tr ++ ((call.on host).bind HostCall.failure).toList := by
  rw [failures, List.filterMap_append]
  cases h : (call.on host).bind HostCall.failure <;> simp [failures, h]

theorem failures_le (hclock : ∀ x ∈ tr, x.2.now ≤ now) : ∀ a ∈ failures host tr, a ≤ now := by
  intro a ha
  obtain ⟨x, hx, hf⟩ := List.mem_filterMap.mp ha
  obtain ⟨r, hr, hf⟩ := Option.bind_eq_some_iff.mp hf
  have hnow : r.now = a := by
    cases r with
    | allow => cases hf
    | record success => cases success <;> cases hf; rfl
  rw [← hnow, on_now hr]
  exact hclock x hx

theorem trace_config (h : (throttles Host).Trace (newBindThrottle config) tr t) : t.config = config.withDefaults := by
  induction h with
  | nil => rfl
  | snoc _ hs ih => exact (BindThrottle.step_lookup hs).1.trans ih

/-- **Every entry is a record** of the failures of its IP. -/
theorem trace_recorded (h : (throttles Host).Trace (newBindThrottle config) tr t) (hclock : Clocked tr)
    {e : ThrottleEntry} (he : t.entries.lookup host = some e) : Recorded t.config (failures host tr) e := by
  induction h generalizing e with
  | nil => cases he
  | @snoc tr t call t' htr hs ih =>
    obtain ⟨hclock, hle⟩ := hclock.snoc
    obtain ⟨hconfig, hstep⟩ := BindThrottle.step_lookup hs
    rw [hconfig, failures_snoc]
    rcases hstep host with ⟨r, hr, hl⟩ | ⟨hr, hl⟩
    · rw [hr]
      rw [hl] at he
      exact .apply t.positive (on_now hr ▸ failures_le hle) (fun e he => ih hclock he) he
    · rw [hr]
      rcases hl with hl | ⟨_, hl⟩
      · rw [hl] at he
        exact (List.append_nil _).symm ▸ ih hclock he
      · rw [hl] at he
        cases he

theorem trace_size (h : (throttles Host).Trace (newBindThrottle config) tr t) : t.size ≤ t.config.maxTracked := by
  induction h with
  | nil => exact Int.le_of_lt config.withDefaults_positive.maxTracked
  | snoc _ hs ih =>
    rw [(BindThrottle.step_lookup hs).1]
    exact BindThrottle.step_size hs ih

/-! ### No eviction -/

theorem mem_failing_snoc : host ∈ failing (tr ++ [(t, call)]) ↔ host ∈ failing tr ∨ call.failing = some host := by
  simp only [failing, List.mem_toFinset, List.mem_filterMap, List.mem_append, List.mem_singleton, or_and_right, exists_or,
    exists_eq_left]

theorem failing_of_entry {e : ThrottleEntry} (hs : t.step call = some t') (he : t'.entries.lookup host = some e)
    (hnone : t.entries.lookup host = none) : call.failing = some host := by
  rcases (BindThrottle.step_lookup hs).2 host with ⟨r, hr, hl⟩ | ⟨_, hl | ⟨_, hl⟩⟩
  · rw [hl, hnone] at he
    cases call with
    | allowBind k now =>
      obtain ⟨_, rfl⟩ := on_allowBind.mp hr
      cases he
    | recordBind k success now order =>
      obtain ⟨rfl, rfl⟩ := on_recordBind.mp hr
      cases success with
      | true => cases he
      | false => rfl
  · rw [hl, hnone] at he
    cases he
  · rw [hl] at he
    cases he

theorem trace_failing (h : (throttles Host).Trace (newBindThrottle config) tr t) {e : ThrottleEntry}
    (he : t.entries.lookup host = some e) : host ∈ failing tr := by
  induction h generalizing e with
  | nil => cases he
  | @snoc tr t call t' _ hs ih =>
    rw [mem_failing_snoc]
    cases hl : t.entries.lookup host with
    | some e => exact .inl (ih hl)
    | none => exact .inr (failing_of_entry hs he hl)

theorem trace_not_evicts (h : (throttles Host).Trace (newBindThrottle config) tr t)
    (hfew : ((failing (tr ++ [(t, call)])).card : Int) ≤ t.config.maxTracked) : ¬ t.Evicts call host := by
  rintro ⟨hfull, ⟨k, order, hcall, hk⟩, _⟩
  have hkeys : (t.entries.keys.toFinset).card = t.size := by
    rw [List.toFinset_card_of_nodup t.entries.keys_nodup]
    exact List.length_map _
  have hsub : insert k t.entries.keys.toFinset ⊆ failing (tr ++ [(t, call)]) := by
    intro host hhost
    rw [mem_failing_snoc]
    rcases Finset.mem_insert.mp hhost with rfl | hmem
    · exact .inr (by rw [hcall]; rfl)
    · obtain ⟨e, he⟩ := Option.isSome_iff_exists.mp (AList.lookup_isSome.mpr (AList.mem_keys.mpr (List.mem_toFinset.mp hmem)))
      exact .inl (trace_failing h he)
  have hnot : k ∉ t.entries.keys.toFinset := fun hmem =>
    AList.lookup_eq_none.mp hk (AList.mem_keys.mpr (List.mem_toFinset.mp hmem))
  have hcard := Finset.card_le_card hsub
  rw [Finset.card_insert_of_notMem hnot, hkeys] at hcard
  omega

theorem card_failing_le (tr tr' : History Host) : (failing tr).card ≤ (failing (tr ++ tr')).card := by
  unfold failing
  rw [List.filterMap_append, List.toFinset_append]
  exact Finset.card_le_card Finset.subset_union_left

theorem trace_stay (host : Host) (h : (throttles Host).Trace (newBindThrottle config) tr t)
    (hfew : ((failing tr).card : Int) ≤ config.withDefaults.maxTracked) : ∀ x ∈ tr, ¬ x.1.Evicts x.2 host := by
  intro x hx
  obtain ⟨a, b, rfl, ha⟩ := h.before hx
  have hcard := card_failing_le (a ++ [x]) b
  rw [List.append_assoc] at hcard
  exact trace_not_evicts ha (by rw [trace_config ha]; exact Int.le_trans (Int.ofNat_le.mpr hcard) hfew)

/-- **IPs do not disturb each other**: the entry of an IP is what the calls for it alone make of it. -/
theorem trace_isolated (h : (throttles Host).Trace (newBindThrottle config) tr t)
    (hfew : ((failing tr).card : Int) ≤ t.config.maxTracked) :
    t.entries.lookup host = (calls host tr).foldl (fun e r => r.apply t.config e) none := by
  induction h with
  | nil => rfl
  | @snoc tr t call t' htr hs ih =>
    obtain ⟨hconfig, hstep⟩ := BindThrottle.step_lookup hs
    rw [hconfig] at hfew ⊢
    have hcard := card_failing_le tr [(t, call)]
    have ih := ih (by omega)
    have hcalls : calls host (tr ++ [(t, call)]) = calls host tr ++ (call.on host).toList := by
      rw [calls, List.filterMap_append]
      cases h : call.on host <;> simp [calls, h]
    rw [hcalls, List.foldl_append, ← ih]
    rcases hstep host with ⟨r, hr, hl⟩ | ⟨hr, hl | ⟨hevict, _⟩⟩
    · rw [hl, hr]; rfl
    · rw [hl, hr]; rfl
    · exact absurd hevict (trace_not_evicts htr hfew)

/-! ### A lockout lasts -/

theorem apply_lockedUntil {c : BindThrottleConfig} {times : List Nat} {e : ThrottleEntry} {r : HostCall}
    (h : Recorded c times e) (hclock : ∀ a ∈ times, a ≤ r.now) (hnow : r.now < e.lockedUntil) :
    ∃ e', r.apply c (some e) = some e' ∧ e.lockedUntil ≤ e'.lockedUntil := by
  cases r with
  | allow now => exact ⟨e, if_pos hnow, Nat.le_refl _⟩
  | record success now =>
    cases success with
    | true => exact ⟨e, rfl, Nat.le_refl _⟩
    | false => exact ⟨e.fail c now, rfl, h.lockedUntil_le (hclock _ h.last)⟩

theorem trace_locked (h : (throttles Host).Trace (newBindThrottle config) tr t)
    (h' : (throttles Host).Trace t tr' t') (hclock : Clocked (tr ++ tr')) (hle : ∀ x ∈ tr', x.2.now ≤ now)
    (hstay : ∀ x ∈ tr', ¬ x.1.Evicts x.2 host) {e : ThrottleEntry} (he : t.entries.lookup host = some e)
    (hnow : now < e.lockedUntil) : ∃ e', t'.entries.lookup host = some e' ∧ now < e'.lockedUntil := by
  induction h' with
  | nil => exact ⟨e, he, hnow⟩
  | @snoc tr' u call u' htr' hs ih =>
    rw [← List.append_assoc] at hclock
    obtain ⟨hclock, hbefore⟩ := hclock.snoc
    obtain ⟨e', he', hnow'⟩ := ih hclock (fun x hx => hle x (List.mem_append_left _ hx))
      (fun x hx => hstay x (List.mem_append_left _ hx))
    have hcall := hle (u, call) (List.mem_append_right _ (List.mem_singleton_self _))
    rcases (BindThrottle.step_lookup hs).2 host with ⟨r, hr, hl⟩ | ⟨_, hl | ⟨hevict, _⟩⟩
    · have hrec := trace_recorded (h.append htr') hclock he'
      obtain ⟨e₂, he₂, hle₂⟩ := apply_lockedUntil (r := r) hrec (on_now hr ▸ failures_le hbefore)
        (by rw [on_now hr]; exact Nat.lt_of_le_of_lt hcall hnow')
      exact ⟨e₂, by rw [hl, he', he₂], Nat.lt_of_lt_of_le hnow' hle₂⟩
    · exact ⟨e', by rw [hl, he'], hnow'⟩
    · exact absurd hevict (hstay (u, call) (List.mem_append_right _ (List.mem_singleton_self _)))

/-- **The throttle is bounded, sound and fair.** In every history: the table holds no more than `MaxTracked` entries; an IP
is refused only after `MaxFailures` failures of its own within `Window`, the last of them less than `Lockout` ago; a call
for another IP takes an entry away only when the table is full, and then one that may make room; and as long as no more than
`MaxTracked` IPs fail, the answers for an IP depend on the calls for that IP alone, and a lockout lasts until its end. -/
theorem trace_throttle (h : (throttles Host).Trace (newBindThrottle config) tr t) (hclock : Clocked tr) :
    t.config = config.withDefaults ∧ t.size ≤ t.config.maxTracked ∧
    (∀ host now, (t.allowBind host now).1 = false →
      ∃ last, Locks t.config (failures host tr) last ∧ (now : Int) - last < t.config.lockout) ∧
    (∀ call t' host e, t.step call = some t' → call.on host = none → t.entries.lookup host = some e →
      t'.entries.lookup host = none → t.config.maxTracked ≤ t.size ∧ t.Evictable call.now e) ∧
    (∀ tr' t' host now, (throttles Host).Trace (newBindThrottle config) tr' t' →
      ((failing tr).card : Int) ≤ t.config.maxTracked → ((failing tr').card : Int) ≤ t'.config.maxTracked →
      calls host tr = calls host tr' → (t.allowBind host now).1 = (t'.allowBind host now).1) ∧
    (∀ tr' t' host e now, (throttles Host).Trace t tr' t' → Clocked (tr ++ tr') → (∀ x ∈ tr', x.2.now ≤ now) →
      ((failing (tr ++ tr')).card : Int) ≤ t.config.maxTracked → t.entries.lookup host = some e → now < e.lockedUntil →
      (t'.allowBind host now).1 = false) := by
  have hconfig := trace_config h
  refine ⟨hconfig, trace_size h, fun host now hrefused => ?_, fun call t' host e hs hon he hgone => ?_,
    fun tr' t' host now h' hfew hfew' hcalls => ?_, fun tr' t' host e now h' hclock' hle hfew he hnow => ?_⟩
  · rw [BindThrottle.allowBind_fst, Bool.not_eq_false', refused] at hrefused
    obtain ⟨e, he, hnow⟩ := (Option.any_eq_true _ _).mp hrefused
    have hnow := of_decide_eq_true hnow
    obtain ⟨last, hlocks, _, hlock⟩ := (trace_recorded h hclock he).locked (by omega)
    exact ⟨last, hlocks, by omega⟩
  · rcases (BindThrottle.step_lookup hs).2 host with ⟨r, hr, _⟩ | ⟨_, hl | ⟨hevict, _⟩⟩
    · rw [hon] at hr
      cases hr
    · rw [hl, he] at hgone
      cases hgone
    · obtain ⟨e', he', hevictable⟩ := hevict.evictable
      rw [he] at he'
      cases he'
      exact ⟨hevict.full, hevictable⟩
  · rw [BindThrottle.allowBind_fst, BindThrottle.allowBind_fst, trace_isolated h hfew, trace_isolated h' hfew', hcalls,
      hconfig, trace_config h']
  · have hstay := trace_stay host (h.append h') (hconfig ▸ hfew)
    obtain ⟨e', he', hnow'⟩ :=
      trace_locked h h' hclock' hle (fun x hx => hstay x (List.mem_append_right _ hx)) he hnow
    rw [BindThrottle.allowBind_fst, he']
    simp [refused, hnow']

end Trace

def threeFailures : BindThrottle Unit := newBindThrottle { maxFailures := 3, window := 60, lockout := 60 }

/-- Three failures of one IP in 20 of 60 nanoseconds. -/
def steadyBurst : List (Call Unit) :=
  [.recordBind () false 100 [],
    .recordBind () false 110 [⟨(), { failures := 1, windowStart := 100, lastFailure := 100 }⟩],
    .recordBind () false 120 [⟨(), { failures := 2, windowStart := 100, lastFailure := 110 }⟩]]

def steadyHistory : History Unit := (throttles Unit).trace threeFailures steadyBurst

theorem trace_throttle_steadyBurst : ∃ (tr : History Unit) (t : BindThrottle Unit),
    (throttles Unit).Trace threeFailures tr t ∧ Clocked tr ∧ ∃ last, Locks t.config (failures () tr) last ∧
      (179 : Int) - last < t.config.lockout := by
  have htrace := System.trace_after (throttles Unit) threeFailures steadyBurst (by decide +kernel)
  have hclock : Clocked steadyHistory := by decide +kernel
  exact ⟨_, _, htrace, hclock, (trace_throttle htrace hclock).2.2.1 () 179 (by decide +kernel)⟩

/-! ## Failures in a row -/

section Burst
variable {Host : Type} [DecidableEq Host] {config : BindThrottleConfig} {tr tr' : History Host}
  {t t' : BindThrottle Host} {call : Call Host} {host : Host} {now : Nat}

/-- The call finds the lockout of the IP over and deletes its entry. -/
def Serves (host : Host) (x : BindThrottle Host × Call Host) : Prop :=
  ∃ e ∈ x.1.entries.lookup host, e.lockedUntil ≠ 0 ∧ e.lockedUntil ≤ x.2.now ∧ x.2.on host = some (.allow x.2.now)

/-- The call finds the window of the IP's entry over and forgets the failures that it counted. -/
def Forgets (host : Host) (x : BindThrottle Host × Call Host) : Prop :=
  ∃ e ∈ x.1.entries.lookup host, e.lapsed x.1.config x.2.now ∧
    (x.2.on host = some (.record false x.2.now) ∨ x.2.on host = some (.allow x.2.now) ∧ e.lockedUntil = 0)

instance (host : Host) : DecidablePred (Serves host) := fun x => inferInstanceAs (Decidable (∃ e ∈ x.1.entries.lookup host, _))

instance (host : Host) : DecidablePred (Forgets host) := fun x => inferInstanceAs (Decidable (∃ e ∈ x.1.entries.lookup host, _))

/-- `MaxFailures` failures of the IP in an interval shorter than `Window`, from the first call of the history to its last,
and no lockout of the IP that is served among them. -/
structure Burst (c : BindThrottleConfig) (host : Host) (b : History Host) (last : Nat) : Prop where
  first : ∃ x start, b.head? = some x ∧ x.2.on host = some (.record false start) ∧ (last : Int) - start < c.window
  last : ∃ x, b.getLast? = some x ∧ x.2.on host = some (.record false last)
  count : ((failures host b).length : Int) = c.maxFailures
  unserved : ∀ x ∈ b, ¬ Serves host x

omit [DecidableEq Host] in
theorem Clocked.left (h : Clocked (tr ++ tr')) : Clocked tr := by
  unfold Clocked at *
  rw [List.map_append] at h
  exact (List.pairwise_append.mp h).1

theorem Burst.now_le {c : BindThrottleConfig} {last : Nat} {x : BindThrottle Host × Call Host} (h : Burst c host tr' last)
    (hclock : Clocked (tr ++ tr')) (hx : x ∈ tr') : x.2.now ≤ last := by
  obtain ⟨y, hy, hlast⟩ := h.last
  have hnow : last = y.2.now := on_now hlast
  obtain ⟨init, rfl⟩ := List.getLast?_eq_some_iff.mp hy
  rw [← List.append_assoc] at hclock
  rcases List.mem_append.mp hx with hx | hx
  · rw [hnow]
    exact (Clocked.snoc (t := y.1) hclock).2 x (List.mem_append_right _ hx)
  · rw [List.mem_singleton.mp hx, hnow]

theorem failures_fail (tr : History Host) (t : BindThrottle Host) (h : call.on host = some (.record false now)) :
    failures host (tr ++ [(t, call)]) = failures host tr ++ [now] := by
  rw [failures_snoc, h]
  rfl

theorem apply_counts {r : HostCall} {e : ThrottleEntry} (hon : call.on host = some r)
    (he : t.entries.lookup host = some e) (hserves : ¬ Serves host (t, call)) (hforgets : ¬ Forgets host (t, call)) :
    ∃ e', r.apply t.config (some e) = some e' ∧ e'.failures = e.failures + r.failure.toList.length := by
  have hnow := on_now hon
  cases r with
  | allow now =>
    refine ⟨e, ?_, rfl⟩
    unfold HostCall.apply
    dsimp only
    split
    · rfl
    · next hlock =>
      rw [if_neg]
      rintro hgone
      rcases Bool.or_eq_true_iff.mp hgone with hne | hlapsed
      · exact hserves ⟨e, he, bne_iff_ne.mp hne, hnow ▸ Nat.le_of_not_lt hlock, hnow ▸ hon⟩
      · by_cases hz : e.lockedUntil = 0
        · exact hforgets ⟨e, he, hnow ▸ hlapsed, .inr ⟨hnow ▸ hon, hz⟩⟩
        · exact hserves ⟨e, he, hz, hnow ▸ Nat.le_of_not_lt hlock, hnow ▸ hon⟩
  | record success now =>
    cases success with
    | true => exact ⟨e, rfl, rfl⟩
    | false =>
      refine ⟨e.fail t.config now, rfl, ?_⟩
      have hlapsed : e.lapsed t.config now = false := by
        by_contra hl
        exact hforgets ⟨e, he, hnow ▸ eq_true_of_ne_false hl, .inl (hnow ▸ hon)⟩
      rw [fail_failures, hlapsed]
      rfl

theorem trace_counts (h : (throttles Host).Trace t tr t') {x : BindThrottle Host × Call Host} {start : Nat}
    (hhead : tr.head? = some x) (hfirst : x.2.on host = some (.record false start))
    (hstay : ∀ x ∈ tr, ¬ x.1.Evicts x.2 host) (hserves : ∀ x ∈ tr, ¬ Serves host x)
    (hforgets : ∀ x ∈ tr.tail, ¬ Forgets host x) :
    ∃ e, t'.entries.lookup host = some e ∧ (failures host tr).length ≤ e.failures := by
  induction h with
  | nil => cases hhead
  | @snoc tr u call u' htr hs ih =>
    have hmem : (u, call) ∈ tr ++ [(u, call)] := List.mem_append_right _ (List.mem_singleton_self _)
    cases tr with
    | nil =>
      cases hhead
      rcases (BindThrottle.step_lookup hs).2 host with ⟨r, hr, hl⟩ | ⟨hr, _⟩
      · have hfail := failures_fail [] u hfirst
        rw [hfirst] at hr
        cases hr
        rw [hfail]
        cases ho : u.entries.lookup host with
        | none =>
          rw [ho] at hl
          exact ⟨_, hl, by rw [fail_failures]; exact Nat.le_add_left _ _⟩
        | some e =>
          rw [ho] at hl
          exact ⟨_, hl, by rw [fail_failures]; exact Nat.le_add_left _ _⟩
      · rw [hfirst] at hr
        cases hr
    | cons y tr =>
      obtain ⟨e, he, hcount⟩ := ih hhead (fun x hx => hstay x (List.mem_append_left _ hx))
        (fun x hx => hserves x (List.mem_append_left _ hx)) (fun x hx => hforgets x (List.mem_append_left _ hx))
      have hforget : ¬ Forgets host (u, call) := hforgets _ (List.mem_append_right _ (List.mem_singleton_self _))
      rw [failures_snoc, List.length_append]
      rcases (BindThrottle.step_lookup hs).2 host with ⟨r, hr, hl⟩ | ⟨hr, hl | ⟨hevict, _⟩⟩
      · obtain ⟨e', he', hn⟩ := apply_counts hr he (hserves _ hmem) hforget
        rw [hr]
        exact ⟨e', by rw [hl, he, he'], by rw [hn]; exact Nat.add_le_add_right hcount _⟩
      · rw [hr]
        exact ⟨e, by rw [hl, he], hcount⟩
      · exact absurd hevict (hstay _ hmem)

theorem apply_fail (c : BindThrottleConfig) (now : Nat) (o : Option ThrottleEntry) :
    ∃ e : ThrottleEntry, (HostCall.record false now).apply c o = some (e.fail c now) ∧
      (o = some e ∨ o = none ∧ e = { windowStart := now }) := by
  cases o with
  | none => exact ⟨_, rfl, .inr ⟨rfl, rfl⟩⟩
  | some e => exact ⟨e, rfl, .inl rfl⟩

theorem burst_locks {last : Nat} (h : (throttles Host).Trace t tr t') (hconfig : ∀ x ∈ tr, x.1.config = t'.config)
    (hb : Burst t'.config host tr last) (hstay : ∀ x ∈ tr, ¬ x.1.Evicts x.2 host)
    (hforgets : ∀ x ∈ tr.tail, ¬ Forgets host x) :
    ∃ e, t'.entries.lookup host = some e ∧ (e.lockedUntil : Int) = last + t'.config.lockout := by
  obtain ⟨x, start, hhead, hfirst, _⟩ := hb.first
  obtain ⟨y, hy, hlast⟩ := hb.last
  obtain ⟨e, he, hcount⟩ := trace_counts h hhead hfirst hstay hb.unserved hforgets
  have hmax := hb.count
  obtain ⟨init, rfl⟩ := List.getLast?_eq_some_iff.mp hy
  obtain ⟨_, hs⟩ := h.last
  have hyconfig := hconfig y (List.mem_append_right _ (List.mem_singleton_self _))
  rcases (BindThrottle.step_lookup hs).2 host with ⟨r, hr, hl⟩ | ⟨hr, _⟩
  · rw [hlast] at hr
    cases hr
    obtain ⟨e₀, happly, _⟩ := apply_fail y.1.config last (y.1.entries.lookup host)
    rw [happly, he, hyconfig] at hl
    cases hl
    refine ⟨_, he, ?_⟩
    have hpos := t'.positive.lockout
    rw [fail_lockedUntil, if_pos (by omega)]
    omega
  · rw [hlast] at hr
    cases hr

/-- The entry, if there is one, counts no more than `n` failures, and its lockout ends before the time. -/
def Short (n : Nat) (limit : Int) (o : Option ThrottleEntry) : Prop :=
  ∀ e, o = some e → e.failures ≤ n ∧ (e.lockedUntil : Int) < limit

theorem Short.apply {c : BindThrottleConfig} {n : Nat} {limit : Int} {o : Option ThrottleEntry} {r : HostCall}
    (h : Short n limit o) (hlimit : 0 < limit) (hfew : ((n + r.failure.toList.length : Nat) : Int) < c.maxFailures) :
    Short (n + r.failure.toList.length) limit (r.apply c o) := by
  intro e' he'
  cases r with
  | allow now =>
    cases o with
    | none => cases he'
    | some e =>
      unfold HostCall.apply at he'
      dsimp only at he'
      split at he'
      · exact h e' he'
      · split at he'
        · cases he'
        · exact h e' he'
  | record success now =>
    cases success with
    | true => exact h e' he'
    | false =>
      obtain ⟨e, happly, ho⟩ := apply_fail c now o
      rw [happly] at he'
      cases he'
      have he : e.failures ≤ n ∧ (e.lockedUntil : Int) < limit := by
        rcases ho with ho | ⟨_, rfl⟩
        · exact h e ho
        · exact ⟨Nat.zero_le _, hlimit⟩
      have hle : (e.fail c now).failures ≤ n + 1 := by
        rw [fail_failures]
        split <;> omega
      have hfew : ((n + 1 : Nat) : Int) < c.maxFailures := hfew
      refine ⟨hle, ?_⟩
      rw [fail_lockedUntil, if_neg (by omega)]
      exact he.2

theorem Forgets.short {x : BindThrottle Host × Call Host} {times : List Nat} (hs : x.1.step x.2 = some t)
    (hx : Forgets host x) (hrec : ∀ e, x.1.entries.lookup host = some e → Recorded x.1.config times e)
    (hfew : ((failures host [x]).length : Int) < x.1.config.maxFailures) :
    Short (failures host [x]).length (x.2.now + x.1.config.lockout) (t.entries.lookup host) := by
  obtain ⟨e, he, hlapsed, hcall⟩ := hx
  rw [Option.mem_def] at he
  obtain ⟨r, hr, hl⟩ | ⟨hr, _⟩ := (BindThrottle.step_lookup hs).2 host
  · rw [hl, he]
    rcases hcall with hon | ⟨hon, hz⟩
    · rw [show failures host [x] = [x.2.now] from failures_fail [] x.1 hon] at hfew ⊢
      rw [hon] at hr
      cases hr
      intro e' he'
      cases he'
      have hone : (e.fail x.1.config x.2.now).failures = 1 := by rw [fail_failures, hlapsed]; rfl
      refine ⟨Nat.le_of_eq hone, ?_⟩
      have hlapsed := of_decide_eq_true hlapsed
      have hpos := x.1.positive.lockout
      have hfew : ((1 : Nat) : Int) < x.1.config.maxFailures := hfew
      rw [fail_lockedUntil, hone, if_neg (by omega)]
      by_cases hz : e.lockedUntil = 0
      · omega
      · obtain ⟨last, _, hlast, hlock⟩ := (hrec e he).locked hz
        have hwindow := (hrec e he).window
        omega
    · rw [hon] at hr
      cases hr
      intro e' he'
      unfold HostCall.apply at he'
      dsimp only at he'
      rw [hz, if_neg (Nat.not_lt_zero _), if_pos (by rw [hlapsed, Bool.or_true])] at he'
      cases he'
  · rcases hcall with hon | ⟨hon, _⟩ <;> rw [hon] at hr <;> cases hr

/-- After a call that forgets failures, as long as fewer than `MaxFailures` are recorded from it on, there is no lockout but
one that began before the call. -/
theorem trace_forgotten {x : BindThrottle Host × Call Host} {times : List Nat} (hs : x.1.step x.2 = some t)
    (hx : Forgets host x) (hrec : ∀ e, x.1.entries.lookup host = some e → Recorded x.1.config times e)
    (h : (throttles Host).Trace t tr t') (hfew : ((failures host (x :: tr)).length : Int) < x.1.config.maxFailures) :
    t'.config = x.1.config ∧
      Short (failures host (x :: tr)).length (x.2.now + x.1.config.lockout) (t'.entries.lookup host) := by
  induction h with
  | nil => exact ⟨(BindThrottle.step_lookup hs).1, hx.short hs hrec hfew⟩
  | @snoc tr u call u' htr hst ih =>
    rw [← List.cons_append, failures_snoc, List.length_append] at hfew ⊢
    obtain ⟨hconfig, hshort⟩ := ih (by omega)
    obtain ⟨hconfig', hstep⟩ := BindThrottle.step_lookup hst
    refine ⟨hconfig'.trans hconfig, ?_⟩
    have hpos := x.1.positive.lockout
    rcases hstep host with ⟨r, hr, hl⟩ | ⟨hr, hl | ⟨_, hl⟩⟩
    · rw [hr] at hfew ⊢
      rw [hl, hconfig]
      exact hshort.apply (by omega) hfew
    · rw [hr, hl]
      exact hshort
    · rw [hl]
      exact nofun

/-- **A burst is refused exactly when none of its failures is forgotten.** For `MaxFailures` failures of an IP within
`Window`, in a history in which the table is never full and no lockout of the IP is served among them: the IP is refused
from the last of them until `Lockout` after it if and only if no call for the IP after the first of them finds the window of
its entry over. -/
theorem burst_refused_iff {a b : History Host} {last : Nat}
    (h : (throttles Host).Trace (newBindThrottle config) (a ++ b) t) (hclock : Clocked (a ++ b))
    (hroom : ∀ x ∈ a ++ b, x.1.size < x.1.config.maxTracked) (hb : Burst t.config host b last) :
    (∀ c t' now, (throttles Host).Trace t c t' → Clocked (a ++ b ++ c) → (∀ x ∈ c, x.1.size < x.1.config.maxTracked) →
      (∀ x ∈ c, x.2.now ≤ now) → last ≤ now → (now : Int) - last < t.config.lockout → (t'.allowBind host now).1 = false) ↔
    ∀ x ∈ b.tail, ¬ Forgets host x := by
  have hconfig {x} (hx : x ∈ a ++ b) : x.1.config = t.config := by
    obtain ⟨_, _, _, hx⟩ := h.before hx
    rw [trace_config hx, trace_config h]
  constructor
  · intro hrefused x hx hforgets
    -- the calls after the one that forgets record too few failures for a lockout that lasts as long
    obtain ⟨y, start, hhead, hfirst, _⟩ := hb.first
    obtain ⟨rest, rfl⟩ := List.head?_eq_some_iff.mp hhead
    obtain ⟨p, q, rfl⟩ := List.append_of_mem (show x ∈ rest from hx)
    have hle : x.2.now ≤ last := hb.now_le hclock (List.mem_cons_of_mem _ hx)
    have hpos := t.positive.lockout
    have hxconfig := hconfig (x := x) (by simp)
    have hsplit : a ++ y :: (p ++ x :: q) = (a ++ y :: p) ++ [x] ++ q := by simp
    rw [hsplit] at h hclock
    obtain ⟨v, hv, hq⟩ := h.split
    obtain ⟨hp, hs⟩ := hv.last
    have hrec {e} (he : x.1.entries.lookup host = some e) :=
      trace_recorded hp (hclock.left.left) he
    have hfew : ((failures host (x :: q)).length : Int) < x.1.config.maxFailures := by
      have hcount := hb.count
      rw [failures, List.filterMap_cons, hfirst] at hcount
      simp only [Option.bind_some, HostCall.failure, List.length_cons, List.filterMap_append, List.length_append] at hcount
      rw [hxconfig, ← hcount]
      unfold failures
      omega
    obtain ⟨_, hshort⟩ := trace_forgotten hs hforgets (fun e he => hrec he) hq hfew
    have hfalse := hrefused [] t ((last + t.config.lockout).toNat - 1) .nil (by rw [List.append_nil, hsplit]; exact hclock)
      (fun _ h => absurd h List.not_mem_nil) (fun _ h => absurd h List.not_mem_nil) (by omega) (by omega)
    rw [BindThrottle.allowBind_fst, Bool.not_eq_false', refused] at hfalse
    obtain ⟨e, he, hnow⟩ := (Option.any_eq_true _ _).mp hfalse
    have hlock := (hshort e he).2
    have hnow := of_decide_eq_true hnow
    rw [hxconfig] at hlock
    omega
  · intro hforgets c t' now hc hclock' hroom' hle hlast hnow
    have hstay {x : BindThrottle Host × Call Host} (hx : x.1.size < x.1.config.maxTracked) : ¬ x.1.Evicts x.2 host :=
      fun hevict => Int.not_lt.mpr hevict.full hx
    obtain ⟨u, _, hu⟩ := h.split
    obtain ⟨e, he, hlock⟩ := burst_locks hu (fun x hx => hconfig (List.mem_append_right _ hx)) hb
      (fun x hx => hstay (hroom x (List.mem_append_right _ hx))) hforgets
    obtain ⟨e', he', hnow'⟩ := trace_locked h hc hclock' hle (fun x hx => hstay (hroom' x hx)) he
      (show now < e.lockedUntil by omega)
    rw [BindThrottle.allowBind_fst, he']
    simp [refused, hnow']

end Burst

theorem burst_refused_iff_steadyBurst : ∃ (b : History Unit) (t : BindThrottle Unit),
    (throttles Unit).Trace threeFailures b t ∧ Burst t.config () b 120 ∧ (t.allowBind () 179).1 = false := by
  have htrace := System.trace_after (throttles Unit) threeFailures steadyBurst (by decide +kernel)
  have hburst : Burst ((throttles Unit).after anyStep threeFailures steadyBurst).config () steadyHistory 120 := by
    refine ⟨⟨_, 100, rfl, rfl, ?_⟩, ⟨_, rfl, rfl⟩, ?_, ?_⟩ <;> decide +kernel
  refine ⟨steadyHistory, (throttles Unit).after anyStep threeFailures steadyBurst, htrace, hburst, ?_⟩
  have hclock : Clocked steadyHistory := by decide +kernel
  have hroom : ∀ x ∈ steadyHistory, x.1.size < x.1.config.maxTracked := by decide +kernel
  have hforgets : ∀ x ∈ steadyHistory.tail, ¬ Forgets () x := by decide +kernel
  refine (burst_refused_iff (a := []) htrace hclock hroom hburst).mpr hforgets [] _ 179 .nil ?_ ?_ ?_ ?_ ?_
  · exact (List.append_nil steadyHistory).symm ▸ hclock
  · exact fun _ h => absurd h List.not_mem_nil
  · exact fun _ h => absurd h List.not_mem_nil
  · decide
  · decide +kernel

/-- A failure at 100, which opens a window that is over at 160, and three failures between 140 and 180. -/
def slidBurst : List (Call Unit) :=
  [.recordBind () false 100 [],
    .recordBind () false 140 [⟨(), { failures := 1, windowStart := 100, lastFailure := 100 }⟩],
    .recordBind () false 170 [⟨(), { failures := 2, windowStart := 100, lastFailure := 140 }⟩],
    .recordBind () false 180 [⟨(), { failures := 1, windowStart := 170, lastFailure := 170 }⟩]]

def slidHistory : History Unit := (throttles Unit).trace threeFailures slidBurst

theorem slidBurst_allowed : ∃ (a b : History Unit) (t : BindThrottle Unit),
    (throttles Unit).Trace threeFailures (a ++ b) t ∧ Clocked (a ++ b) ∧
    (∀ x ∈ a ++ b, x.1.size < x.1.config.maxTracked) ∧ Burst t.config () b 180 ∧ (t.allowBind () 180).1 = true := by
  have htrace := System.trace_after (throttles Unit) threeFailures slidBurst (by decide +kernel)
  have hburst : Burst ((throttles Unit).after anyStep threeFailures slidBurst).config () (slidHistory.drop 1) 180 := by
    refine ⟨⟨_, 140, rfl, rfl, ?_⟩, ⟨_, rfl, rfl⟩, ?_, ?_⟩ <;> decide +kernel
  refine ⟨slidHistory.take 1, slidHistory.drop 1, (throttles Unit).after anyStep threeFailures slidBurst, ?_⟩
  rw [List.take_append_drop]
  refine ⟨htrace, ?_, ?_, hburst, ?_⟩ <;> decide +kernel

end GoSmpp.Server
