import GoSmpp.Lib.Octets

/-!
# Code that indexes a byte string

* `Indexing α` : a computation over a byte string, with the indices it has read. It has no result where an index is out of
  range, or where a loop has used up its steps;
* `Within data bound m a` : on `data` the computation `m` comes to `a` and reads below `bound` only; `Within.pure`,
  `Within.bind`, `Within.len`, `Within.octet`, `Within.slice` and `Within.at` are the rules for it.
-/

namespace GoSmpp.Lib

/-- What a computation makes of a byte string, and the indices it has read. -/
def Indexing (α : Type) : Type := Octets → Option α × List Nat

namespace Indexing

/-- An index out of range, or a loop that does not end. -/
def fail : Indexing α := fun _ => (none, [])

def len : Indexing Nat := fun data => (some data.length, [])

/-- `data[i]`. -/
def octet (i : Nat) : Indexing UInt8 := fun data => (data[i]?, [i])

instance : Monad Indexing where
  pure a := fun _ => (some a, [])
  bind m f := fun data =>
    match m data with
    | (none, reads) => (none, reads)
    | (some a, reads) => ((f a data).1, reads ++ (f a data).2)

/-- A part of the byte string: where it starts and how long it is. -/
structure Slice where
  start : Nat
  length : Nat

/-- `data[lo:hi]`, which reads no octet. -/
def slice (lo hi : Nat) : Indexing Slice := fun data => (if lo ≤ hi ∧ hi ≤ data.length then some ⟨lo, hi - lo⟩ else none, [])

/-- `value[k]` of a part of the byte string. -/
def Slice.at (value : Slice) (k : Nat) : Indexing UInt8 := if k < value.length then octet (value.start + k) else fail

end Indexing

open Indexing

/-- The computation comes to `a` without reading at or above `bound`. -/
def Within (data : Octets) (bound : Nat) (m : Indexing α) (a : α) : Prop :=
  (m data).1 = some a ∧ ∀ i ∈ (m data).2, i < bound

section Within
variable {data : Octets} {bound : Nat}

theorem Within.pure (a : α) : Within data bound (pure a) a := by
  refine ⟨rfl, ?_⟩
  intro i hi
  cases hi

theorem Within.bind {m : Indexing α} {f : α → Indexing β} {a : α} {b : β} (hm : Within data bound m a)
    (hf : Within data bound (f a) b) : Within data bound (m >>= f) b := by
  have hrun : (m >>= f) data = ((f a data).1, (m data).2 ++ (f a data).2) := by
    show (match m data with
      | (none, reads) => (none, reads)
      | (some a, reads) => ((f a data).1, reads ++ (f a data).2)) = _
    rw [show m data = (some a, (m data).2) from Prod.ext hm.1 rfl]
  refine ⟨?_, ?_⟩
  · rw [hrun]
    exact hf.1
  · intro i hi
    rw [hrun] at hi
    rcases List.mem_append.mp hi with hi | hi
    · exact hm.2 i hi
    · exact hf.2 i hi

theorem Within.len : Within data bound len data.length := by
  refine ⟨rfl, ?_⟩
  intro i hi
  cases hi

theorem Within.octet {i : Nat} {x : UInt8} (hx : data[i]? = some x) (hi : i < bound) : Within data bound (octet i) x := by
  refine ⟨hx, ?_⟩
  intro j hj
  rw [List.mem_singleton.mp hj]
  exact hi

theorem Within.slice {lo hi : Nat} (hle : lo ≤ hi) (hlen : hi ≤ data.length) :
    Within data bound (slice lo hi) ⟨lo, hi - lo⟩ := by
  refine ⟨if_pos ⟨hle, hlen⟩, ?_⟩
  intro i hi
  cases hi

theorem Within.at {value : Slice} {k : Nat} {x : UInt8} (hk : k < value.length) (hx : data[value.start + k]? = some x)
    (hbound : value.start + value.length ≤ bound) : Within data bound (value.at k) x := by
  rw [Slice.at, if_pos hk]
  exact Within.octet hx (by omega)

end Within

end GoSmpp.Lib
