import GoSmpp.Lib.Lists
import GoSmpp.Lib.Run

/-!
# Families of components

A list of components, each of which takes the steps of one system on its own.

* `System.stepAt`: one of them takes a step.
* `Each R l l'`: every component of `l` is one of `l'` at the same place, and `R` relates the two; `l'` may be longer.
-/

namespace GoSmpp.Lib

variable {σ ι : Type*}

namespace System
variable (m : System σ ι)

/-- The component at the place takes a step. -/
def stepAt (l : List σ) (i : Nat) (label : ι) : Option (List σ) := do
  let s ← l[i]?
  let s' ← m.step s label
  some (l.set i s')

variable {m} {l l' : List σ} {i : Nat} {label : ι}

theorem stepAt_some (h : m.stepAt l i label = some l') :
    ∃ s s', l[i]? = some s ∧ m.step s label = some s' ∧ l' = l.set i s' := by
  obtain ⟨s, hs, h⟩ := Option.bind_eq_some_iff.mp h
  obtain ⟨s', hs', h⟩ := Option.bind_eq_some_iff.mp h
  cases h
  exact ⟨s, s', hs, hs', rfl⟩

end System

theorem getElem?_set_some {l : List σ} {i j : Nat} {a b : σ} (h : (l.set i a)[j]? = some b) :
    j = i ∧ b = a ∨ j ≠ i ∧ l[j]? = some b := by
  rw [List.getElem?_set] at h
  split at h
  · next hij =>
    split at h
    · cases h; exact .inl ⟨hij.symm, rfl⟩
    · cases h
  · next hij => exact .inr ⟨fun h => hij h.symm, h⟩

theorem mem_set_of_ne {l : List σ} {i : Nat} {a b p : σ} (hp : l[i]? = some p) (ha : a ∈ l) (hne : a ≠ p) : a ∈ l.set i b := by
  obtain ⟨j, hj⟩ := List.mem_iff_getElem?.mp ha
  have hij : i ≠ j := by
    rintro rfl
    rw [hp] at hj
    cases hj
    exact hne rfl
  refine List.mem_of_getElem? (i := j) ?_
  rw [List.getElem?_set_ne hij]
  exact hj

/-- Every component is still there, and has become one that `R` allows. -/
def Each (R : σ → σ → Prop) (l l' : List σ) : Prop :=
  ∀ (i : Nat) (s : σ), l[i]? = some s → ∃ s', l'[i]? = some s' ∧ R s s'

namespace Each
variable {R : σ → σ → Prop} {l l' : List σ}

theorem refl (h : ∀ s, R s s) (l : List σ) : Each R l l := fun _ s hs => ⟨s, hs, h s⟩

theorem append (h : ∀ s, R s s) (l more : List σ) : Each R l (l ++ more) := fun _ s hs =>
  ⟨s, getElem?_append_some hs more, h s⟩

theorem set (h : ∀ s, R s s) {i : Nat} {s s' : σ} (hs : l[i]? = some s) (hR : R s s') : Each R l (l.set i s') := by
  intro j t ht
  by_cases hj : i = j
  · subst hj
    rw [hs] at ht
    cases ht
    exact ⟨s', List.getElem?_set_self (List.getElem?_eq_some_iff.mp hs).1, hR⟩
  · exact ⟨t, by rw [List.getElem?_set_ne hj]; exact ht, h t⟩

end Each

end GoSmpp.Lib
