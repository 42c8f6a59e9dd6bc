import Mathlib.Data.List.ReduceOption
import Mathlib.Tactic

/-!
# Memory in blocks

* `Memory α`: the blocks that have been allocated. `Region`: a part of a block, with the capacity up to which it may grow.
  `View`: no region, or one.
* `alloc`, `view`, `copy`: a new block, the contents of a view, and the copy of one into another.
* `put_last`: what is written into the last block. `view_append`: new blocks leave the others as they were.
* `carve`: regions of a block one after another, each as long as it is told and no longer. They are apart (`carve_apart`), and
  show what has been written there (`view_carve`).
-/

namespace GoSmpp.Lib

abbrev Memory (α : Type) := List (List α)

structure Region where
  block : Nat
  offset : Nat
  length : Nat
  capacity : Nat
  deriving DecidableEq, Repr

/-- No region, or one. -/
abbrev View := Option Region

namespace View

def length (v : View) : Nat := v.elim 0 Region.length

/-- The first `n` elements, without room for more: `v[:n:n]`. -/
def upTo (v : View) (n : Nat) : View := v.map fun r => { r with length := n, capacity := n }

/-- What stands behind the first `n` elements: `v[n:]`. -/
def after (v : View) (n : Nat) : View :=
  v.map fun r => { r with offset := r.offset + n, length := r.length - n, capacity := r.capacity - n }

end View

/-- The regions have no place in common, nor can they grow into one another. -/
def Region.Apart (a b : Region) : Prop :=
  a.block ≠ b.block ∨ a.offset + a.capacity ≤ b.offset ∨ b.offset + b.capacity ≤ a.offset

namespace Memory
variable {α : Type}

def alloc (mem : Memory α) (zero : α) (n : Nat) : Memory α × Region := (mem ++ [List.replicate n zero], ⟨mem.length, 0, n, n⟩)

def read (mem : Memory α) (r : Region) : List α := ((mem[r.block]?.getD []).drop r.offset).take r.length

def view (mem : Memory α) (v : View) : List α := v.elim [] mem.read

/-- The elements are overwritten from the start of the view. -/
def put (mem : Memory α) (v : View) (data : List α) : Memory α :=
  match v with
  | none => mem
  | some r => mem.modify r.block fun b => b.take r.offset ++ data ++ b.drop (r.offset + data.length)

/-- `copy(dst, src)`: as much as there is and as has room, and how much that is. -/
def copy (mem : Memory α) (dst src : View) : Memory α × Nat :=
  let data := (mem.view src).take dst.length
  (mem.put dst data, data.length)

/-- The view lies in its block. -/
def Holds (mem : Memory α) (v : View) : Prop :=
  ∀ r, v = some r → r.length ≤ r.capacity ∧ r.offset + r.capacity ≤ (mem[r.block]?.getD []).length

section Lemmas
variable {mem more : Memory α} {v : View} {r : Region}

theorem length_view (h : mem.Holds v) : (mem.view v).length = v.length := by
  cases v with
  | none => rfl
  | some r =>
    obtain ⟨hlen, hcap⟩ := h r rfl
    show (((mem[r.block]?.getD []).drop r.offset).take r.length).length = r.length
    rw [List.length_take, List.length_drop]
    omega

theorem view_append (h : mem.Holds v) : Memory.view (mem ++ more) v = mem.view v := by
  cases v with
  | none => rfl
  | some r =>
    show (((mem ++ more)[r.block]?.getD []).drop r.offset).take r.length = ((mem[r.block]?.getD []).drop r.offset).take r.length
    obtain ⟨hlen, hcap⟩ := h r rfl
    rcases Nat.lt_or_ge r.block mem.length with hlt | hge
    · rw [List.getElem?_append_left hlt]
    · -- there is no such block, so the region has no elements
      rw [List.getElem?_eq_none hge] at hcap
      have hzero : r.length = 0 := by
        simp only [Option.getD_none, List.length_nil] at hcap
        omega
      rw [hzero, List.take_zero, List.take_zero]

theorem put_last (b data : List α) {offset length capacity : Nat} :
    Memory.put (mem ++ [b]) (some ⟨mem.length, offset, length, capacity⟩) data =
      mem ++ [b.take offset ++ data ++ b.drop (offset + data.length)] := by
  show (mem ++ [b]).modify mem.length _ = _
  rw [List.modify_eq_take_drop, List.take_left, List.drop_left]
  rfl

end Lemmas

end Memory

/-! ## Regions one after another -/

/-- A region of which nothing is left over; none for no elements. -/
def place (block offset n : Nat) : View := if n = 0 then none else some ⟨block, offset, n, n⟩

/-- Regions one after another, of the lengths given. -/
def carve (block : Nat) : Nat → List Nat → List View
  | _, [] => []
  | offset, n :: ns => place block offset n :: carve block (offset + n) ns

section Carve
variable {α : Type} {block offset n : Nat} {ns : List Nat} {r : Region}

theorem place_eq_some (h : place block offset n = some r) : r = ⟨block, offset, n, n⟩ := by
  unfold place at h
  split at h <;> cases h
  rfl

theorem of_mem_carve (h : some r ∈ carve block offset ns) :
    r.block = block ∧ offset ≤ r.offset ∧ r.capacity = r.length := by
  induction ns generalizing offset with
  | nil => cases h
  | cons n ns ih =>
    rcases List.mem_cons.mp h with h | h
    · rw [place_eq_some h.symm]
      exact ⟨rfl, Nat.le_refl _, rfl⟩
    · obtain ⟨hblock, hoffset, hcap⟩ := ih h
      exact ⟨hblock, by omega, hcap⟩

/-- **The regions are apart.** -/
theorem carve_apart : (carve block offset ns).reduceOption.Pairwise Region.Apart := by
  induction ns generalizing offset with
  | nil => exact .nil
  | cons n ns ih =>
    rw [carve]
    cases hp : place block offset n with
    | none => rw [List.reduceOption_cons_of_none]; exact ih
    | some a =>
      rw [List.reduceOption_cons_of_some, List.pairwise_cons]
      refine ⟨fun b hb => ?_, ih⟩
      obtain ⟨-, hoffset, -⟩ := of_mem_carve (List.reduceOption_mem_iff.mp hb)
      rw [place_eq_some hp]
      exact .inr (.inl hoffset)

theorem view_place {mem : Memory α} {start x rest : List α} (h : mem[block]?.getD [] = start ++ x ++ rest) :
    mem.view (place block start.length x.length) = x := by
  unfold place
  split
  · next hx => exact (List.eq_nil_of_length_eq_zero hx).symm
  · show ((mem[block]?.getD []).drop start.length).take x.length = x
    rw [h, List.append_assoc, List.drop_left, List.take_left]

/-- **The regions show what has been written into the block.** -/
theorem view_carve {mem : Memory α} {xs : List (List α)} {start rest : List α}
    (h : mem[block]?.getD [] = start ++ xs.flatten ++ rest) :
    (carve block start.length (xs.map List.length)).map mem.view = xs := by
  induction xs generalizing start with
  | nil => rfl
  | cons x xs ih =>
    rw [List.flatten_cons] at h
    have hx : mem[block]?.getD [] = start ++ x ++ (xs.flatten ++ rest) := by simpa using h
    rw [List.map_cons, carve, List.map_cons, view_place hx, ← List.length_append, ih (by simpa using h)]

end Carve

end GoSmpp.Lib
