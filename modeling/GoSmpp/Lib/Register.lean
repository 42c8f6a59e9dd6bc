import GoSmpp.Lib.Family
import Mathlib.Data.List.Iterate
import Mathlib.Data.List.Nodup

/-!
# A register updated by compare-and-swap loops

Any number of callers each load a register, compute its successor from what they have loaded and swap it in; where the register
has changed meanwhile, they load again.

* `Register`, `registers succ`: every interleaving of the loads and the swaps.
* `swaps succ tr`: the swaps of a trace that have succeeded, in their order: the caller and the value written.
* `Accounts`, `accounts_trace`: they write `succ v`, `succ (succ v)` and so on, as if each call were one step; a call returns what
  it has written, and writes once.
* `infix_iterate`: consecutive values are again such a sequence.
-/

namespace GoSmpp.Lib

inductive SwapPhase (α : Type) where
  /-- before the load -/
  | loading
  /-- before the swap -/
  | swapping (current : α)
  | returned (written : α)
  deriving DecidableEq, Repr

structure Register (α : Type) where
  value : α
  callers : List (SwapPhase α) := []
  deriving DecidableEq, Repr

namespace Register

inductive Label where
  /-- a new caller -/
  | call
  | caller (i : Nat)
  deriving DecidableEq, Repr

variable {α : Type} {succ : α → α} {v : α} {done : List (Nat × α)} {r r' : Register α} {label : Label}

/-! ## After some swaps -/

/-- The register after the swaps in `done`, from the value `v`. -/
structure Accounts (succ : α → α) (v : α) (done : List (Nat × α)) (r : Register α) : Prop where
  value : r.value = succ^[done.length] v
  written : done.map (·.2) = List.iterate succ (succ v) done.length
  returned : ∀ i x, r.callers[i]? = some (.returned x) ↔ (i, x) ∈ done
  once : (done.map (·.1)).Nodup

theorem accounts_new (v : α) : Accounts succ v [] ⟨v, []⟩ where
  value := rfl
  written := rfl
  returned i x := by simp
  once := .nil

theorem Accounts.call (h : Accounts succ v done r) : Accounts succ v done { r with callers := r.callers ++ [.loading] } := by
  refine ⟨h.value, h.written, fun j x => ?_, h.once⟩
  rw [← h.returned j x, List.getElem?_append]
  split
  · exact .rfl
  · next hj =>
    rw [List.getElem?_singleton, List.getElem?_eq_none (Nat.le_of_not_lt hj)]
    split <;> simp

theorem Accounts.goto (h : Accounts succ v done r) {i : Nat} {p q : SwapPhase α} (hp : r.callers[i]? = some p)
    (hne : ∀ x, p ≠ .returned x) (hne' : ∀ x, q ≠ .returned x) :
    Accounts succ v done { r with callers := r.callers.set i q } := by
  refine ⟨h.value, h.written, fun j x => ?_, h.once⟩
  rw [← h.returned j x]
  by_cases hij : i = j
  · subst hij
    rw [List.getElem?_set_self (List.getElem?_eq_some_iff.mp hp).1, hp]
    simp only [Option.some.injEq, hne' x, hne x]
  · rw [List.getElem?_set_ne hij]

theorem Accounts.swap (h : Accounts succ v done r) {i : Nat} {current : α} (hp : r.callers[i]? = some (.swapping current)) :
    Accounts succ v (done ++ [(i, succ r.value)]) ⟨succ r.value, r.callers.set i (.returned (succ r.value))⟩ := by
  refine ⟨?_, ?_, fun j x => ?_, ?_⟩
  · rw [List.length_append, List.length_singleton, Function.iterate_succ_apply', ← h.value]
  · have hlast : succ r.value = succ^[done.length] (succ v) := by
      rw [h.value, ← Function.iterate_succ_apply' succ, Function.iterate_succ_apply]
    rw [List.map_append, h.written, List.length_append, List.length_singleton, List.iterate_add, ← hlast]
    rfl
  · rw [List.mem_append, List.mem_singleton, ← h.returned j x]
    by_cases hij : i = j
    · subst hij
      rw [List.getElem?_set_self (List.getElem?_eq_some_iff.mp hp).1, hp]
      simp [eq_comm]
    · rw [List.getElem?_set_ne hij]
      simp [Ne.symm hij]
  · -- the caller had not returned before
    have hnew : i ∉ done.map (·.1) := by
      intro hi
      obtain ⟨⟨_, x⟩, hx, rfl⟩ := List.mem_map.mp hi
      rw [← h.returned, hp] at hx
      cases hx
    rw [List.map_append]
    exact List.nodup_append.mpr ⟨h.once, List.nodup_singleton _, fun a ha b hb hab => hnew (by simp_all)⟩

/-! ## Interleavings -/

variable [DecidableEq α] (succ)

def step (r : Register α) : Label → Option (Register α)
  | .call => some { r with callers := r.callers ++ [.loading] }
  | .caller i =>
    match r.callers[i]? with
    | some .loading => some { r with callers := r.callers.set i (.swapping r.value) }
    | some (.swapping current) =>
      if r.value = current then some ⟨succ current, r.callers.set i (.returned (succ current))⟩
      else some { r with callers := r.callers.set i .loading }
    | _ => none

def registers : System (Register α) Label where
  step := step succ

/-- The caller and the value written, if the step is a swap that succeeds. -/
def swap? (r : Register α) : Label → Option (Nat × α)
  | .call => none
  | .caller i =>
    match r.callers[i]? with
    | some (.swapping current) => if r.value = current then some (i, succ current) else none
    | _ => none

/-- The swaps of a trace that have succeeded. -/
def swaps (tr : List (Register α × Label)) : List (Nat × α) := tr.filterMap fun e => e.1.swap? succ e.2

variable {succ}

/-- The step lemma. -/
theorem Accounts.step (h : Accounts succ v done r) (hs : r.step succ label = some r') :
    Accounts succ v (done ++ (r.swap? succ label).toList) r' := by
  cases label with
  | call =>
    cases hs
    exact (List.append_nil done).symm ▸ h.call
  | caller i =>
    -- a step that is no successful swap
    have hgoto {p q : SwapPhase α} (hp : r.callers[i]? = some p) (hne : ∀ x, p ≠ .returned x) (hne' : ∀ x, q ≠ .returned x)
        (hnone : r.swap? succ (.caller i) = none) :
        Accounts succ v (done ++ (r.swap? succ (.caller i)).toList) { r with callers := r.callers.set i q } := by
      rw [hnone, Option.toList_none, List.append_nil]
      exact h.goto hp hne hne'
    simp only [Register.step] at hs
    split at hs
    case h_1 hi =>
      cases hs
      exact hgoto hi (fun x => by simp) (fun x => by simp) (by simp only [Register.swap?, hi])
    case h_2 current hi =>
      split at hs
      case isTrue hv =>
        cases hs
        subst hv
        have hswap : r.swap? succ (.caller i) = some (i, succ r.value) := by simp only [Register.swap?, hi, if_true]
        rw [hswap, Option.toList_some]
        exact h.swap hi
      case isFalse hv =>
        cases hs
        exact hgoto hi (fun x => by simp) (fun x => by simp) (by simp only [Register.swap?, hi, hv, if_false])
    case h_3 => cases hs

/-- **The loops are atomic at their swaps**, whatever the interleaving. -/
theorem accounts_trace {tr : List (Register α × Label)} (h : (registers succ).Trace ⟨v, []⟩ tr r) :
    Accounts succ v (swaps succ tr) r := by
  induction h with
  | nil => exact accounts_new v
  | @snoc tr t label u _ hs ih =>
    have hsnoc : swaps succ (tr ++ [(t, label)]) = swaps succ tr ++ (t.swap? succ label).toList := by
      unfold swaps
      rw [List.filterMap_append]
      cases hsw : t.swap? succ label <;> simp [hsw]
    rw [hsnoc]
    exact ih.step hs

end Register

theorem infix_iterate {α : Type} {f : α → α} {a : α} {n : Nat} {l : List α} (h : l <:+: List.iterate f a n) :
    ∃ k, l = List.iterate f (f^[k] a) l.length := by
  obtain ⟨s, t, h⟩ := h
  refine ⟨s.length, ?_⟩
  have hlen : n = s.length + l.length + t.length := by
    rw [← List.length_iterate f a n, ← h, List.length_append, List.length_append]
  rw [hlen, List.iterate_add, List.iterate_add] at h
  have h := (List.append_inj h (by simp)).1
  exact (List.append_inj h (by simp)).2

end GoSmpp.Lib
