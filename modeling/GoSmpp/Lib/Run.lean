import Mathlib.Data.List.Induction

/-!
# Runs of a step system

A step takes a state and a label, which says whose turn it is and how it chose, to the next state, or is not enabled.

* `System.Run ok`: the runs whose steps all meet the condition `ok` on the state before the step and the label.
  `anyStep` is no condition.
* `Run.invariant`: what every step preserves holds along every run. `Run.exists_of_rank`: a run that comes to an end.
* `System.Trace`: the runs that remember their steps, so that the steps before a state can be spoken of and counted.
  `Trace.since`: the step at which something has come to hold. `Trace.unchanged`: a value whose version has not moved.
* `System.exec`: a run along a list of labels, to be evaluated, and `System.after`, where it ends.
-/

namespace GoSmpp.Lib

variable {σ ι : Type*}

structure System (σ ι : Type*) where
  step : σ → ι → Option σ

/-- No condition on the steps of a run. -/
def anyStep (_ : σ) (_ : ι) : Prop := True

instance (s : σ) (l : ι) : Decidable (anyStep s l) := .isTrue trivial

namespace System
variable (m : System σ ι) (ok : σ → ι → Prop)

/-- The runs whose steps all meet `ok`. -/
inductive Run : σ → σ → Prop
  | refl (s) : Run s s
  | tail {s t u l} : Run s t → ok t l → m.step t l = some u → Run s u

/-- A run along the labels, as long as they are enabled and meet `ok`. -/
def exec [∀ s l, Decidable (ok s l)] : σ → List ι → Option σ
  | s, [] => some s
  | s, l :: ls => if ok s l then (m.step s l).bind (exec · ls) else none

def after [∀ s l, Decidable (ok s l)] (s : σ) (ls : List ι) : σ := (m.exec ok s ls).getD s

variable {m ok} {s t u : σ}

theorem Run.trans (h : m.Run ok s t) (h' : m.Run ok t u) : m.Run ok s u := by
  induction h' with
  | refl => exact h
  | tail _ hok hs ih => exact .tail ih hok hs

theorem Run.invariant {P : σ → Prop} (step : ∀ s l s', ok s l → m.step s l = some s' → P s → P s')
    (h : m.Run ok s t) (hs : P s) : P t := by
  induction h with
  | refl => exact hs
  | tail _ hok hst ih => exact step _ _ _ hok hst ih

theorem Run.mono {ok' : σ → ι → Prop} (hok : ∀ s l, ok s l → ok' s l) (h : m.Run ok s t) : m.Run ok' s t := by
  induction h with
  | refl => exact .refl _
  | tail _ h hst ih => exact .tail ih (hok _ _ h) hst

theorem Run.exists_of_rank {P : σ → Prop} (rank : σ → Nat)
    (step : ∀ s, P s → 0 < rank s → ∃ l s', ok s l ∧ m.step s l = some s' ∧ P s' ∧ rank s' < rank s) (hs : P s) :
    ∃ t, m.Run ok s t ∧ rank t = 0 := by
  induction hn : rank s using Nat.strongRecOn generalizing s with
  | _ n ih =>
    by_cases h0 : rank s = 0
    · exact ⟨s, .refl s, h0⟩
    · obtain ⟨l, s', hok, hst, hs', hlt⟩ := step s hs (Nat.pos_of_ne_zero h0)
      obtain ⟨t, ht, h0⟩ := ih (rank s') (by omega) hs' rfl
      exact ⟨t, Run.trans (.tail (.refl s) hok hst) ht, h0⟩

/-- A run that remembers its steps: the state before each, and its label. -/
inductive Trace (m : System σ ι) (s : σ) : List (σ × ι) → σ → Prop
  | nil : Trace m s [] s
  | snoc {tr t l u} : Trace m s tr t → m.step t l = some u → Trace m s (tr ++ [(t, l)]) u

theorem Trace.run {tr : List (σ × ι)} (h : m.Trace s tr t) (hok : ∀ e ∈ tr, ok e.1 e.2) : m.Run ok s t := by
  induction h with
  | nil => exact .refl s
  | @snoc tr t l u _ hst ih =>
    refine .tail (ih fun e he => hok e (List.mem_append_left _ he)) ?_ hst
    exact hok (t, l) (List.mem_append_right _ List.mem_cons_self)

theorem run_of_exec [∀ s l, Decidable (ok s l)] {ls : List ι} (h : m.exec ok s ls = some t) : m.Run ok s t := by
  induction ls generalizing s with
  | nil => cases h; exact .refl _
  | cons l ls ih =>
    unfold exec at h
    split at h
    · next hok =>
      obtain ⟨u, hu, h⟩ := Option.bind_eq_some_iff.mp h
      exact Run.trans (.tail (.refl _) hok hu) (ih h)
    · cases h

theorem Trace.append {a b : List (σ × ι)} (h : m.Trace s a t) (h' : m.Trace t b u) : m.Trace s (a ++ b) u := by
  induction h' with
  | nil => rwa [List.append_nil]
  | snoc _ hst ih =>
    rw [← List.append_assoc]
    exact .snoc ih hst

theorem Trace.before {tr : List (σ × ι)} {x : σ × ι} (h : m.Trace s tr t) (hx : x ∈ tr) :
    ∃ a b, tr = a ++ x :: b ∧ m.Trace s a x.1 := by
  induction h with
  | nil => cases hx
  | @snoc tr t l u h _ ih =>
    rcases List.mem_append.mp hx with hx | hx
    · obtain ⟨a, b, rfl, ha⟩ := ih hx
      exact ⟨a, b ++ [(t, l)], by rw [List.append_assoc]; rfl, ha⟩
    · rw [List.mem_singleton.mp hx]
      exact ⟨tr, [], rfl, h⟩

theorem Trace.last {tr : List (σ × ι)} {x : σ × ι} (h : m.Trace s (tr ++ [x]) u) :
    m.Trace s tr x.1 ∧ m.step x.1 x.2 = some u := by
  generalize htr : tr ++ [x] = tr' at h
  cases h with
  | nil => simp at htr
  | snoc h hst =>
    obtain ⟨rfl, hx⟩ := List.append_inj' htr rfl
    cases hx
    exact ⟨h, hst⟩

theorem Trace.split {a b : List (σ × ι)} (h : m.Trace s (a ++ b) u) : ∃ t, m.Trace s a t ∧ m.Trace t b u := by
  induction b using List.reverseRecOn generalizing u with
  | nil => exact ⟨u, a.append_nil ▸ h, .nil⟩
  | append_singleton b x ih =>
    rw [← List.append_assoc] at h
    obtain ⟨h, hst⟩ := h.last
    obtain ⟨t, ha, hb⟩ := ih h
    exact ⟨t, ha, .snoc hb hst⟩

theorem Trace.since {P : σ → Prop} {tr : List (σ × ι)} (h : m.Trace s tr u) (hs : ¬ P s) (hu : P u) :
    ∃ a x b t, tr = a ++ x :: b ∧ ¬ P x.1 ∧ m.step x.1 x.2 = some t ∧ P t ∧ m.Trace t b u ∧ ∀ e ∈ b, P e.1 := by
  induction h with
  | nil => exact absurd hu hs
  | @snoc tr t l u _ hst ih =>
    by_cases ht : P t
    · obtain ⟨a, x, b, v, rfl, hx, hv, hPv, hb, hall⟩ := ih ht
      refine ⟨a, x, b ++ [(t, l)], v, by rw [List.append_assoc]; rfl, hx, hv, hPv, .snoc hb hst, fun e he => ?_⟩
      rcases List.mem_append.mp he with he | he
      · exact hall e he
      · rw [List.mem_singleton.mp he]
        exact ht
    · exact ⟨tr, (t, l), [], u, rfl, ht, hst, hu, .nil, fun e he => by cases he⟩

/-- Where the version goes up with every change of the value, a version that is the same at the end of a trace has been the same
all along, and the value with it. -/
theorem Trace.unchanged {β : Type*} (version : σ → Nat) (value : σ → β)
    (step : ∀ s l s', m.step s l = some s' → version s < version s' ∨ version s' = version s ∧ value s' = value s)
    {tr : List (σ × ι)} (h : m.Trace s tr u) :
    version s ≤ version u ∧ (version u ≤ version s → value u = value s ∧ ∀ e ∈ tr, value e.1 = value s) := by
  induction h with
  | nil => exact ⟨Nat.le_refl _, fun _ => ⟨rfl, fun e he => by cases he⟩⟩
  | @snoc tr t l u _ hst ih =>
    rcases step t l u hst with hlt | ⟨hv, hval⟩
    · exact ⟨Nat.le_trans ih.1 (Nat.le_of_lt hlt), fun hle => absurd (Nat.lt_of_le_of_lt ih.1 hlt) (Nat.not_lt.mpr hle)⟩
    · refine ⟨hv ▸ ih.1, fun hle => ?_⟩
      obtain ⟨ht, hall⟩ := ih.2 (hv ▸ hle)
      refine ⟨hval.trans ht, fun e he => ?_⟩
      rcases List.mem_append.mp he with he | he
      · exact hall e he
      · rw [List.mem_singleton.mp he]
        exact ht

/-- The trace along the labels, as long as they are enabled. -/
def trace (m : System σ ι) : σ → List ι → List (σ × ι)
  | _, [] => []
  | s, l :: ls => (s, l) :: match m.step s l with
    | some s' => m.trace s' ls
    | none => []

theorem Trace.cons {tr : List (σ × ι)} {l : ι} (hst : m.step s l = some t) (h : m.Trace t tr u) :
    m.Trace s ((s, l) :: tr) u := by
  induction h with
  | nil => exact .snoc .nil hst
  | snoc _ hst' ih => exact .snoc ih hst'

variable (m) in
theorem trace_after (s : σ) (ls : List ι) (h : (m.exec anyStep s ls).isSome) :
    m.Trace s (m.trace s ls) (m.after anyStep s ls) := by
  induction ls generalizing s with
  | nil => exact .nil
  | cons l ls ih =>
    have hexec : m.exec anyStep s (l :: ls) = (m.step s l).bind (m.exec anyStep · ls) := if_pos (show anyStep s l from trivial)
    rw [hexec] at h
    cases hs : m.step s l with
    | none => rw [hs] at h; cases h
    | some s' =>
      rw [hs] at h
      have hafter : m.after anyStep s (l :: ls) = m.after anyStep s' ls := by
        unfold after
        rw [hexec, hs]
        obtain ⟨t, ht⟩ := Option.isSome_iff_exists.mp h
        show (m.exec anyStep s' ls).getD s = (m.exec anyStep s' ls).getD s'
        rw [show m.exec anyStep s' ls = some t from ht]
        rfl
      have htrace : m.trace s (l :: ls) = (s, l) :: m.trace s' ls := by rw [trace, hs]
      rw [hafter, htrace]
      exact .cons hs (ih s' h)

variable (m ok) in
theorem run_after [∀ s l, Decidable (ok s l)] (s : σ) (ls : List ι) (h : (m.exec ok s ls).isSome) :
    m.Run ok s (m.after ok s ls) := by
  obtain ⟨t, ht⟩ := Option.isSome_iff_exists.mp h
  rw [after, ht]
  exact run_of_exec ht

end System

end GoSmpp.Lib
