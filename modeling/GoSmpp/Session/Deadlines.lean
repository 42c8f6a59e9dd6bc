import GoSmpp.Lib.Heap
import GoSmpp.Lib.Run
import GoSmpp.Protocol.Errors

/-!
# The deadline manager

`session/deadline.go`: the heap of deadline items with their back-pointers, `scheduleItemAt`, `cancel`, `expireReady` and the
loop `run`. An item is known by its pointer, and a time is an instant on one clock.

* `container`: the heap as `container/heap` sees it. `Sound`: it is a heap, and every item in it knows its position.
* `pending`: what the manager is for: the deadlines scheduled and neither cancelled nor expired.
* `calls_represents`: whatever is done to it, the heap holds those and hands them out when they are due, the earliest first.
* `run_awake`: the loop does not sleep beyond the first deadline.
-/

namespace GoSmpp.Deadlines
open Lib Protocol

/-- `session.deadlineItem`; `deadline` is its `at`. -/
structure Item where
  deadline : Int := 0
  after : Int := 0
  kind : TimeoutKind := .response
  command : CommandID := 0
  sequence : SequenceNumber := 0
  index : Int := 0
  deriving DecidableEq, Repr

/-- `session.deadlineManager` with the memory its items are in. -/
structure Manager (Ptr : Type) where
  items : Ptr → Item
  heap : List Ptr := []

namespace Manager
variable {Ptr : Type} [DecidableEq Ptr]

/-- `newDeadlineManager`. The items are as their owners have left them. -/
def new (items : Ptr → Item) : Manager Ptr := { items }

/-- `item.index = i`. -/
def setIndex (items : Ptr → Item) (p : Ptr) (index : Int) : Ptr → Item :=
  Function.update items p { items p with index }

def less (m : Manager Ptr) (i j : Nat) : Bool :=
  match m.heap[i]?, m.heap[j]? with
  | some p, some q => (m.items p).deadline < (m.items q).deadline
  | _, _ => false

def swap (m : Manager Ptr) (i j : Nat) : Manager Ptr :=
  match m.heap[i]?, m.heap[j]? with
  | some p, some q => { items := setIndex (setIndex m.items q i) p j, heap := swapAt m.heap i j }
  | _, _ => m

def push (m : Manager Ptr) (p : Ptr) : Manager Ptr :=
  { items := setIndex m.items p m.heap.length, heap := m.heap ++ [p] }

/-- `deadlineHeap.Pop`, which panics if the heap is empty. -/
def pop (m : Manager Ptr) : Option (Ptr × Manager Ptr) := do
  let p ← m.heap.getLast?
  some (p, { items := setIndex m.items p (-1), heap := m.heap.dropLast })

/-! ## The container -/

theorem setIndex_deadline (items : Ptr → Item) (p q : Ptr) (index : Int) :
    (setIndex items p index q).deadline = (items q).deadline := by
  unfold setIndex
  by_cases h : q = p
  · rw [h, Function.update_self]
  · rw [Function.update_of_ne h]

theorem setIndex_index (items : Ptr → Item) (p q : Ptr) (index : Int) :
    (setIndex items p index q).index = if q = p then index else (items q).index := by
  unfold setIndex
  by_cases h : q = p
  · rw [h, Function.update_self, if_pos rfl]
  · rw [Function.update_of_ne h, if_neg h]

theorem swap_heap (m : Manager Ptr) (i j : Nat) : (m.swap i j).heap = swapAt m.heap i j := by
  unfold swap
  split
  case h_1 => rfl
  case h_2 hne =>
    unfold swapAt
    split
    case h_1 hi hj => exact absurd hj (hne _ _ hi)
    case h_2 => rfl

theorem swap_deadline (m : Manager Ptr) (i j : Nat) (p : Ptr) : ((m.swap i j).items p).deadline = (m.items p).deadline := by
  unfold swap
  split
  case h_1 => rw [setIndex_deadline, setIndex_deadline]
  case h_2 => rfl

omit [DecidableEq Ptr] in
theorem less_iff {m : Manager Ptr} {i j : Nat} {p q : Ptr} (hi : m.heap[i]? = some p) (hj : m.heap[j]? = some q) :
    m.less i j = true ↔ (m.items p).deadline < (m.items q).deadline := by
  unfold less
  rw [hi, hj]
  exact decide_eq_true_iff

theorem pop_eq {m : Manager Ptr} {l : List Ptr} {p : Ptr} (h : m.heap = l ++ [p]) :
    m.pop = some (p, { items := setIndex m.items p (-1), heap := l }) := by
  unfold pop
  rw [h, List.getLast?_concat, List.dropLast_concat]
  rfl

/-- The heap of deadlines for `container/heap`. -/
def container : Heap.Interface (Manager Ptr) Ptr Int where
  len m := m.heap.length
  less := less
  swap := swap
  push := push
  pop := pop
  view := heap
  key m p := (m.items p).deadline
  len_eq _ := rfl
  less_iff := less_iff
  view_swap := swap_heap
  key_swap m i j := funext (m.swap_deadline i j)
  view_push _ _ := rfl
  key_push m p := funext fun q => setIndex_deadline m.items p q _
  pop_eq {m _ p} h := ⟨_, pop_eq h, rfl, funext fun q => setIndex_deadline m.items p q _⟩

/-! ## The manager -/

/-- `*item = …`. -/
def assign (m : Manager Ptr) (p : Ptr) (item : Item) : Manager Ptr := { m with items := Function.update m.items p item }

/-- `scheduleItemAt` up to `Unlock`, and whether it signals. -/
def scheduleItemAt (m : Manager Ptr) (p : Ptr) (dispatchedAt after : Int) (kind : TimeoutKind) (command : CommandID)
    (sequence : SequenceNumber) : Manager Ptr × Bool :=
  if after ≤ 0 then (m, false)
  else
    let item : Item := { deadline := dispatchedAt + after, after, kind, command, sequence, index := -1 }
    let m := m.assign p item
    let wasFirst := match m.heap[0]? with
      | none => true
      | some q => item.deadline < (m.items q).deadline
    (container.heapPush m p, wasFirst)

/-- `cancel` up to `Unlock`, and whether it signals. -/
def cancel (m : Manager Ptr) (p : Ptr) : Option (Manager Ptr × Bool) := do
  let idx := (m.items p).index
  let wasFirst := idx = 0
  let m ← if 0 ≤ idx ∧ m.heap[idx.toNat]? = some p then (container.heapRemove m idx.toNat).map (·.2) else some m
  some (m, wasFirst)

/-- The loop of `expireReady`: it pops an item every time. -/
def expireLoop (now : Int) : Nat → Manager Ptr → List Ptr → Option (List Ptr × Manager Ptr)
  | 0, m, expired => some (expired, m)
  | fuel + 1, m, expired =>
    match m.heap[0]? with
    | none => some (expired, m)
    | some p =>
      if (m.items p).deadline ≤ now then do
        let (p, m) ← container.heapPop m
        expireLoop now fuel m (expired ++ [p])
      else some (expired, m)

/-- `expireReady`: the items it hands to `expire`. -/
def expireReady (m : Manager Ptr) (now : Int) : Option (List Ptr × Manager Ptr) := expireLoop now m.heap.length m []

/-! ## Back-pointers -/

def Indexed (m : Manager Ptr) : Prop := ∀ (i : Nat) (p : Ptr), m.heap[i]? = some p → (m.items p).index = i

structure Sound (m : Manager Ptr) : Prop where
  indexed : m.Indexed
  isHeap : container.IsHeap m

section Indexed
variable {m u : Manager Ptr} {p : Ptr}

theorem sound_new (items : Ptr → Item) : (new items).Sound := ⟨nofun, Heap.Interface.IsHeap.of_nil rfl⟩

omit [DecidableEq Ptr] in
theorem Indexed.pos_inj (h : m.Indexed) {i j : Nat} (hi : m.heap[i]? = some p) (hj : m.heap[j]? = some p) : i = j :=
  Int.ofNat.inj ((h i p hi).symm.trans (h j p hj))

omit [DecidableEq Ptr] in
theorem Indexed.nodup (h : m.Indexed) : m.heap.Nodup := by
  rw [List.nodup_iff_getElem?_ne_getElem?]
  intro i j hij hj heq
  have hj' := List.getElem?_eq_getElem hj
  exact absurd (h.pos_inj (heq.trans hj') hj') (Nat.ne_of_lt hij)

theorem swapClosed_indexed : container.SwapClosed fun m : Manager Ptr => m.Indexed := by
  intro m i j hi hj h k r hk
  have hi : i < m.heap.length := hi
  have hj : j < m.heap.length := hj
  have hp := List.getElem?_eq_getElem hi
  have hq := List.getElem?_eq_getElem hj
  have hk : m.heap[Equiv.swap i j k]? = some r := by
    rw [← getElem?_swapAt hi hj, ← swap_heap]
    exact hk
  -- the items at the two positions get new indices, in this order
  have hitems : ((m.swap i j).items r).index = if r = m.heap[i] then (j : Int) else if r = m.heap[j] then (i : Int) else
      (m.items r).index := by
    unfold swap
    rw [hp, hq]
    simp only [setIndex_index]
  show ((m.swap i j).items r).index = k
  rw [hitems]
  by_cases hkj : k = j
  · subst hkj
    rw [Equiv.swap_apply_right, hp] at hk
    cases hk
    exact if_pos rfl
  · by_cases hki : k = i
    · subst hki
      rw [Equiv.swap_apply_left] at hk
      have hne : r ≠ m.heap[k] := by
        rintro rfl
        exact hkj (h.pos_inj hp hk)
      rw [if_neg hne, if_pos (Option.some.inj (hk.symm.trans hq))]
    · rw [Equiv.swap_apply_of_ne_of_ne hki hkj] at hk
      have hne : r ≠ m.heap[i] := by
        rintro rfl
        exact hki (h.pos_inj hk hp)
      have hne' : r ≠ m.heap[j] := by
        rintro rfl
        exact hkj (h.pos_inj hk hq)
      rw [if_neg hne, if_neg hne']
      exact h k r hk

theorem Indexed.push (h : m.Indexed) (hp : p ∉ m.heap) : (m.push p).Indexed := by
  intro k r hk
  show (setIndex m.items p m.heap.length r).index = k
  rw [setIndex_index]
  rcases Nat.lt_or_ge k m.heap.length with hlt | hge
  · have hr : m.heap[k]? = some r := by
      rw [← List.getElem?_append_left hlt]
      exact hk
    have hne : r ≠ p := by
      rintro rfl
      exact hp (List.mem_of_getElem? hr)
    rw [if_neg hne]
    exact h k r hr
  · have hlen := (List.getElem?_eq_some_iff.mp hk).1
    have heq : k = m.heap.length := by
      have : (m.push p).heap.length = m.heap.length + 1 := List.length_append
      omega
    subst heq
    have hr : some p = some r := (List.getElem?_concat_length).symm.trans hk
    rw [if_pos (Option.some.inj hr).symm]

theorem Indexed.pop (h : m.Indexed) (hpop : m.pop = some (p, u)) : u.Indexed := by
  obtain ⟨q, hq, hpop⟩ := Option.bind_eq_some_iff.mp hpop
  cases hpop
  have hheap := List.dropLast_append_getLast? p hq
  intro k r hk
  have hlt := (List.getElem?_eq_some_iff.mp hk).1
  have hr : m.heap[k]? = some r := by
    rw [← hheap, List.getElem?_append_left hlt]
    exact hk
  have hlast : m.heap[m.heap.dropLast.length]? = some p := by
    nth_rewrite 1 [← hheap]
    exact List.getElem?_concat_length
  have hne : r ≠ p := by
    rintro rfl
    exact absurd (h.pos_inj hr hlast) (Nat.ne_of_lt hlt)
  show (setIndex m.items p (-1) r).index = k
  rw [setIndex_index, if_neg hne]
  exact h k r hr

end Indexed

/-! ## What the operations do -/

section Spec
variable {m m' : Manager Ptr} {p : Ptr}

def SameDeadlines (m m' : Manager Ptr) : Prop := ∀ q, (m'.items q).deadline = (m.items q).deadline

theorem Sound.heapPop (h : m.Sound) (hp : m.heap[0]? = some p) :
    ∃ m', container.heapPop m = some (p, m') ∧ m'.Sound ∧ m.heap.Perm (p :: m'.heap) ∧ SameDeadlines m m' := by
  obtain ⟨t, u, ht, hpop, heq, hperm, hkey, hheap⟩ := Heap.Interface.heapPop_spec h.isHeap swapClosed_indexed h.indexed hp
  exact ⟨u, heq, ⟨Indexed.pop ht hpop, hheap⟩, hperm, congrFun hkey⟩

theorem Sound.heapRemove (h : m.Sound) {i : Nat} (hp : m.heap[i]? = some p) :
    ∃ m', container.heapRemove m i = some (p, m') ∧ m'.Sound ∧ m.heap.Perm (p :: m'.heap) ∧ SameDeadlines m m' := by
  obtain ⟨t, u, ht, hpop, heq, hperm, hkey, hheap⟩ := Heap.Interface.heapRemove_spec h.isHeap swapClosed_indexed h.indexed hp
  exact ⟨u, heq, ⟨Indexed.pop ht hpop, hheap⟩, hperm, congrFun hkey⟩

theorem cancel_of_mem (h : m.Sound) (hp : p ∈ m.heap) :
    ∃ m' first, m.cancel p = some (m', first) ∧ m'.Sound ∧ m.heap.Perm (p :: m'.heap) ∧ SameDeadlines m m' := by
  obtain ⟨i, hi⟩ := List.getElem?_of_mem hp
  have hindex := h.indexed i p hi
  obtain ⟨m', heq, hm', hperm, hsame⟩ := h.heapRemove hi
  refine ⟨m', decide ((m.items p).index = 0), ?_, hm', hperm, hsame⟩
  have hfound : 0 ≤ (m.items p).index ∧ m.heap[(m.items p).index.toNat]? = some p := by
    rw [hindex]
    exact ⟨Int.natCast_nonneg i, hi⟩
  have hidx : (m.items p).index.toNat = i := by rw [hindex, Int.toNat_natCast]
  unfold cancel
  rw [if_pos hfound, hidx, heq]
  rfl

theorem cancel_of_not_mem (hp : p ∉ m.heap) : ∃ first, m.cancel p = some (m, first) := by
  refine ⟨decide ((m.items p).index = 0), ?_⟩
  unfold cancel
  rw [if_neg fun hfound => hp (List.mem_of_getElem? hfound.2)]
  rfl

theorem cancel_sound {first : Bool} (h : m.Sound) (heq : m.cancel p = some (m', first)) : m'.Sound := by
  by_cases hp : p ∈ m.heap
  · obtain ⟨m₁, first₁, heq₁, hm₁, -⟩ := cancel_of_mem h hp
    cases heq.symm.trans heq₁
    exact hm₁
  · obtain ⟨first₁, heq₁⟩ := cancel_of_not_mem hp
    cases heq.symm.trans heq₁
    exact h

theorem scheduleItemAt_spec (h : m.Sound) (hp : p ∉ m.heap) {dispatchedAt after : Int} (hafter : 0 < after) (kind : TimeoutKind)
    (command : CommandID) (sequence : SequenceNumber) :
    let r := m.scheduleItemAt p dispatchedAt after kind command sequence
    r.1.Sound ∧ r.1.heap.Perm (p :: m.heap) ∧
      (∀ q, (r.1.items q).deadline = if q = p then dispatchedAt + after else (m.items q).deadline) ∧
      (r.2 = false → ∃ q ∈ m.heap, (m.items q).deadline ≤ dispatchedAt + after) := by
  intro r
  let m₁ := m.assign p { deadline := dispatchedAt + after, after, kind, command, sequence, index := -1 }
  have hitems : ∀ q ∈ m.heap, m₁.items q = m.items q := by
    intro q hq
    have hne : q ≠ p := by
      rintro rfl
      exact hp hq
    exact Function.update_of_ne hne _ _
  have hr : r = (container.heapPush m₁ p, match m.heap[0]? with
      | none => true
      | some q => decide (dispatchedAt + after < (m₁.items q).deadline)) := if_neg (by omega)
  have hindexed : m₁.Indexed := fun i q hq => by
    rw [hitems q (List.mem_of_getElem? hq)]
    exact h.indexed i q hq
  have hheap : container.IsHeap m₁ := h.isHeap.congr rfl fun q hq => congrArg Item.deadline (hitems q hq)
  obtain ⟨hi, hperm, hkey, hheap⟩ := Heap.Interface.heapPush_spec hheap swapClosed_indexed (hindexed.push hp)
  rw [hr]
  refine ⟨⟨hi, hheap⟩, hperm, fun q => (congrFun hkey q).trans ?_, fun hsignal => ?_⟩
  · show (Function.update m.items p _ q).deadline = _
    rw [Function.update_apply]
    split
    case isTrue => rfl
    case isFalse => rfl
  · cases hq : m.heap[0]? with
    | none =>
      rw [hq] at hsignal
      cases hsignal
    | some q =>
      rw [hq] at hsignal
      have hmem := List.mem_of_getElem? hq
      refine ⟨q, hmem, ?_⟩
      have := of_decide_eq_false hsignal
      rw [hitems q hmem] at this
      omega

theorem expireLoop_spec (now : Int) (fuel : Nat) (h : m.Sound) (hfuel : m.heap.length ≤ fuel) (expired : List Ptr) :
    ∃ handed m', expireLoop now fuel m expired = some (expired ++ handed, m') ∧ m'.Sound ∧ m.heap.Perm (handed ++ m'.heap) ∧
      SameDeadlines m m' ∧ (∀ p ∈ handed, (m.items p).deadline ≤ now) ∧ (∀ p ∈ m'.heap, now < (m.items p).deadline) ∧
      handed.Pairwise fun p q => (m.items p).deadline ≤ (m.items q).deadline := by
  induction fuel generalizing m expired with
  | zero =>
    have hnil := List.eq_nil_of_length_eq_zero (Nat.le_zero.mp hfuel)
    refine ⟨[], m, by rw [List.append_nil]; rfl, h, .refl _, fun _ => rfl, nofun, ?_, .nil⟩
    rw [hnil]
    exact nofun
  | succ fuel ih =>
    unfold expireLoop
    cases hp : m.heap[0]? with
    | none =>
      have hnil : m.heap = [] := List.eq_nil_of_length_eq_zero (Nat.le_zero.mp (List.getElem?_eq_none_iff.mp hp))
      refine ⟨[], m, by rw [List.append_nil], h, .refl _, fun _ => rfl, nofun, ?_, .nil⟩
      rw [hnil]
      exact nofun
    | some p =>
      have hfirst : ∀ q ∈ m.heap, (m.items p).deadline ≤ (m.items q).deadline := fun q hq => h.isHeap.root_le hp hq
      simp only []
      split
      case isFalse hlate =>
        refine ⟨[], m, by rw [List.append_nil], h, .refl _, fun _ => rfl, nofun, fun q hq => ?_, .nil⟩
        have := hfirst q hq
        omega
      case isTrue hdue =>
        obtain ⟨m₁, heq, hm₁, hperm, hsame⟩ := h.heapPop hp
        have hlen := hperm.length_eq
        rw [List.length_cons] at hlen
        obtain ⟨handed, m', hloop, hm', hperm', hsame', hhanded, hkept, hsorted⟩ := ih hm₁ (by omega) (expired ++ [p])
        refine ⟨p :: handed, m', ?_, hm', hperm.trans (hperm'.cons p), fun q => (hsame' q).trans (hsame q), ?_, ?_, ?_⟩
        · rw [heq]
          simpa using hloop
        · intro q hq
          rcases List.mem_cons.mp hq with rfl | hq
          · exact hdue
          · rw [← hsame q]
            exact hhanded q hq
        · intro q hq
          rw [← hsame q]
          exact hkept q hq
        · refine List.pairwise_cons.mpr ⟨fun q hq => hfirst q ?_, ?_⟩
          · exact hperm.mem_iff.mpr (List.mem_cons_of_mem p (hperm'.mem_iff.mpr (List.mem_append_left _ hq)))
          · exact hsorted.imp fun hle => by rwa [hsame, hsame] at hle

theorem expireReady_sound (h : m.Sound) {now : Int} {handed : List Ptr} (heq : m.expireReady now = some (handed, m')) :
    m'.Sound := by
  obtain ⟨handed₁, m₁, heq₁, hm₁, -⟩ := expireLoop_spec now m.heap.length h (Nat.le_refl _) []
  cases heq.symm.trans heq₁
  exact hm₁

end Spec

end Manager

/-! ## The pending deadlines -/

inductive Op (Ptr : Type) where
  | scheduleItemAt (p : Ptr) (dispatchedAt after : Int) (kind : TimeoutKind) (command : CommandID) (sequence : SequenceNumber)
  | cancel (p : Ptr)
  | expireReady (now : Int)

variable {Ptr : Type} [DecidableEq Ptr]

/-- What a call means for the pending deadlines. -/
def Op.apply (live : Ptr → Option Int) : Op Ptr → Ptr → Option Int
  | .scheduleItemAt p dispatchedAt after _ _ _ => if 0 < after then Function.update live p (some (dispatchedAt + after)) else live
  | .cancel p => Function.update live p none
  | .expireReady now => fun p => (live p).filter (now < ·)

/-- The deadlines scheduled and neither cancelled nor expired, after the calls. -/
def pending (ops : List (Op Ptr)) : Ptr → Option Int := ops.foldl Op.apply fun _ => none

def Op.schedules (p : Ptr) : Op Ptr → Bool
  | .scheduleItemAt q _ _ _ _ _ => q == p
  | .cancel _ | .expireReady _ => false

/-- Only items that are not pending are scheduled. -/
def Respected (live : Ptr → Option Int) : List (Op Ptr) → Prop
  | [] => True
  | op :: ops => (∀ p, op.schedules p → live p = none) ∧ Respected (op.apply live) ops

namespace Manager

/-- One call, and what it hands to `expire`. -/
def call (m : Manager Ptr) : Op Ptr → Option (List Ptr × Manager Ptr)
  | .scheduleItemAt p dispatchedAt after kind command sequence =>
    some ([], (m.scheduleItemAt p dispatchedAt after kind command sequence).1)
  | .cancel p => (m.cancel p).map fun r => ([], r.1)
  | .expireReady now => m.expireReady now

def calls (m : Manager Ptr) : List (Op Ptr) → Option (Manager Ptr)
  | [] => some m
  | op :: ops => do (← m.call op).2.calls ops

/-- The heap holds the pending deadlines, each item once, and every item knows its position. -/
structure Represents (m : Manager Ptr) (live : Ptr → Option Int) : Prop where
  pending : ∀ p t, live p = some t ↔ p ∈ m.heap ∧ (m.items p).deadline = t
  nodup : m.heap.Nodup
  index : ∀ (i : Nat) (p : Ptr), m.heap[i]? = some p → (m.items p).index = i

section Represents
variable {m m' : Manager Ptr} {live : Ptr → Option Int} {p : Ptr}

omit [DecidableEq Ptr] in
theorem Represents.mem (h : m.Represents live) : p ∈ m.heap ↔ live p ≠ none := by
  constructor
  · intro hp hnone
    have := (h.pending p _).mpr ⟨hp, rfl⟩
    rw [hnone] at this
    cases this
  · intro hne
    obtain ⟨t, ht⟩ := Option.ne_none_iff_exists'.mp hne
    exact ((h.pending p t).mp ht).1

theorem Sound.represents (h : m.Sound) (hpending : ∀ p t, live p = some t ↔ p ∈ m.heap ∧ (m.items p).deadline = t) :
    m.Represents live := ⟨hpending, h.indexed.nodup, h.indexed⟩

theorem scheduleItemAt_represents (h : m.Sound) (hr : m.Represents live) (hp : live p = none) (dispatchedAt after : Int)
    (kind : TimeoutKind) (command : CommandID) (sequence : SequenceNumber) :
    (m.scheduleItemAt p dispatchedAt after kind command sequence).1.Sound ∧
      (m.scheduleItemAt p dispatchedAt after kind command sequence).1.Represents
        ((Op.scheduleItemAt p dispatchedAt after kind command sequence).apply live) := by
  by_cases hafter : 0 < after
  · have hp' : p ∉ m.heap := fun hmem => hr.mem.mp hmem hp
    obtain ⟨hs, hperm, hdeadline, -⟩ := scheduleItemAt_spec h hp' hafter kind command sequence
    refine ⟨hs, hs.represents fun q t => ?_⟩
    rw [Op.apply, if_pos hafter, Function.update_apply, hperm.mem_iff, List.mem_cons, hdeadline q]
    by_cases hq : q = p
    · rw [if_pos hq, if_pos hq]
      exact ⟨fun ht => ⟨.inl hq, Option.some.inj ht⟩, fun ht => congrArg some ht.2⟩
    · rw [if_neg hq, if_neg hq, hr.pending, or_iff_right hq]
  · have heq : m.scheduleItemAt p dispatchedAt after kind command sequence = (m, false) := if_pos (not_lt.mp hafter)
    rw [heq, Op.apply, if_neg hafter]
    exact ⟨h, hr⟩

theorem cancel_represents (h : m.Sound) (hr : m.Represents live) (p : Ptr) :
    ∃ m' first, m.cancel p = some (m', first) ∧ m'.Sound ∧ m'.Represents ((Op.cancel p).apply live) := by
  by_cases hp : p ∈ m.heap
  · obtain ⟨m', first, heq, hm', hperm, hsame⟩ := cancel_of_mem h hp
    refine ⟨m', first, heq, hm', hm'.represents fun q t => ?_⟩
    have hnodup := (List.nodup_cons.mp (hperm.nodup_iff.mp h.indexed.nodup)).1
    rw [Op.apply, Function.update_apply, hsame q]
    by_cases hq : q = p
    · rw [if_pos hq, hq]
      exact ⟨nofun, fun ht => absurd ht.1 hnodup⟩
    · rw [if_neg hq, hr.pending, hperm.mem_iff, List.mem_cons, or_iff_right hq]
  · obtain ⟨first, heq⟩ := cancel_of_not_mem hp
    have hnone : live p = none := not_not.mp fun hne => hp (hr.mem.mpr hne)
    refine ⟨m, first, heq, h, ?_⟩
    have happly : (Op.cancel p).apply live = live := by
      rw [Op.apply, ← hnone]
      exact Function.update_eq_self p live
    rwa [happly]

theorem expireReady_represents (h : m.Sound) (hr : m.Represents live) (now : Int) :
    ∃ handed m', m.expireReady now = some (handed, m') ∧ m'.Sound ∧ m'.Represents ((Op.expireReady now).apply live) ∧
      handed.Nodup ∧ (∀ p, p ∈ handed ↔ ∃ t ≤ now, live p = some t) ∧
      handed.Pairwise fun p q => (m.items p).deadline ≤ (m.items q).deadline := by
  obtain ⟨handed, m', heq, hm', hperm, hsame, hdue, hkept, hsorted⟩ := expireLoop_spec now m.heap.length h (Nat.le_refl _) []
  rw [List.nil_append] at heq
  have hmem : ∀ q, q ∈ m.heap ↔ q ∈ handed ∨ q ∈ m'.heap := fun q => hperm.mem_iff.trans List.mem_append
  refine ⟨handed, m', heq, hm', hm'.represents fun q t => ?_, ?_, fun q => ?_, hsorted⟩
  · rw [Op.apply, Option.filter_eq_some_iff, hr.pending, hmem, hsame q]
    constructor
    · rintro ⟨⟨hq | hq, rfl⟩, hlate⟩
      · have := hdue q hq
        have := of_decide_eq_true hlate
        omega
      · exact ⟨hq, rfl⟩
    · rintro ⟨hq, rfl⟩
      exact ⟨⟨.inr hq, rfl⟩, decide_eq_true (hkept q hq)⟩
  · exact (List.nodup_append.mp (hperm.nodup_iff.mp h.indexed.nodup)).1
  · constructor
    · intro hq
      exact ⟨_, hdue q hq, (hr.pending q _).mpr ⟨(hmem q).mpr (.inl hq), rfl⟩⟩
    · rintro ⟨t, ht, hlive⟩
      obtain ⟨hq, rfl⟩ := (hr.pending q t).mp hlive
      rcases (hmem q).mp hq with hq | hq
      · exact hq
      · have := hkept q hq
        omega

theorem call_represents (h : m.Sound) (hr : m.Represents live) {op : Op Ptr} (hop : ∀ p, op.schedules p → live p = none) :
    ∃ handed m', m.call op = some (handed, m') ∧ m'.Sound ∧ m'.Represents (op.apply live) := by
  cases op with
  | scheduleItemAt p dispatchedAt after kind command sequence =>
    exact ⟨[], _, rfl, scheduleItemAt_represents h hr (hop p (beq_self_eq_true p)) dispatchedAt after kind command sequence⟩
  | cancel p =>
    obtain ⟨m', first, heq, hm', hr'⟩ := cancel_represents h hr p
    refine ⟨[], m', ?_, hm', hr'⟩
    rw [call, heq]
    rfl
  | expireReady now =>
    obtain ⟨handed, m', heq, hm', hr', -⟩ := expireReady_represents h hr now
    exact ⟨handed, m', heq, hm', hr'⟩

theorem calls_sound (h : m.Sound) (hr : m.Represents live) {ops : List (Op Ptr)} (hops : Respected live ops) :
    ∃ m', m.calls ops = some m' ∧ m'.Sound ∧ m'.Represents (ops.foldl Op.apply live) := by
  induction ops generalizing m live with
  | nil => exact ⟨m, rfl, h, hr⟩
  | cons op ops ih =>
    obtain ⟨handed, m₁, hcall, hm₁, hr₁⟩ := call_represents h hr hops.1
    obtain ⟨m', hcalls, hm', hr'⟩ := ih hm₁ hr₁ hops.2
    refine ⟨m', ?_, hm', hr'⟩
    rw [calls, hcall]
    exact hcalls

end Represents

theorem foldl_apply_none {p : Ptr} {ops : List (Op Ptr)} {live : Ptr → Option Int} (h : live p = none)
    (hops : ∀ op ∈ ops, op.schedules p = false) : ops.foldl Op.apply live p = none := by
  induction ops generalizing live with
  | nil => exact h
  | cons op ops ih =>
    refine ih ?_ fun op' hop' => hops op' (List.mem_cons_of_mem op hop')
    have hop := hops op List.mem_cons_self
    cases op with
    | scheduleItemAt q dispatchedAt after kind command sequence =>
      have hne : p ≠ q := fun heq => by
        rw [Op.schedules, heq, beq_self_eq_true] at hop
        cases hop
      rw [Op.apply]
      split
      case isTrue => rw [Function.update_of_ne hne, h]
      case isFalse => exact h
    | cancel q => rw [Op.apply, Function.update_apply, h, ite_self]
    | expireReady now => exact congrArg (Option.filter _) h

/-- **The heap of deadlines.** After any calls that schedule only items that are not pending, the heap holds exactly the pending
deadlines, with their positions; an item that is not in it is not found; and `expireReady` hands out those that are due, once, in
order of their deadlines, and none that was cancelled. -/
theorem calls_represents (items : Ptr → Item) (ops : List (Op Ptr)) (hops : Respected (fun _ => none) ops) :
    ∃ m, (new items).calls ops = some m ∧ m.Represents (pending ops) ∧ (∀ p ∉ m.heap, ∃ first, m.cancel p = some (m, first)) ∧
      ∀ now, ∃ handed m', m.expireReady now = some (handed, m') ∧ handed.Nodup ∧
        (∀ p, p ∈ handed ↔ ∃ t ≤ now, pending ops p = some t) ∧
        (handed.Pairwise fun p q => (m.items p).deadline ≤ (m.items q).deadline) ∧
        ∀ p before after, ops = before ++ .cancel p :: after → (∀ op ∈ after, op.schedules p = false) → p ∉ handed := by
  have hnew : (new items).Represents fun _ => none := (sound_new items).represents fun p t => ⟨nofun, fun h => nomatch h.1⟩
  obtain ⟨m, hcalls, hm, hr⟩ := calls_sound (sound_new items) hnew hops
  refine ⟨m, hcalls, hr, fun p hp => cancel_of_not_mem hp, fun now => ?_⟩
  obtain ⟨handed, m', heq, -, -, hnodup, hmem, hsorted⟩ := expireReady_represents hm hr now
  refine ⟨handed, m', heq, hnodup, hmem, hsorted, ?_⟩
  rintro p before after rfl hafter hp
  obtain ⟨t, -, ht⟩ := (hmem p).mp hp
  rw [List.foldl_append, List.foldl_cons, foldl_apply_none (by rw [Op.apply, Function.update_self]) hafter] at ht
  cases ht

/-- Three items are scheduled, one of them cancelled twice, one expired and scheduled again. -/
def threeItems : List (Op Nat) :=
  [.scheduleItemAt 0 0 5 .response 4 1, .scheduleItemAt 1 0 3 .response 4 2, .scheduleItemAt 2 1 3 .enquireLink 0x15 3,
    .cancel 2, .cancel 2, .expireReady 3, .scheduleItemAt 1 3 1 .response 4 4]

theorem calls_represents_threeItems : ∃ m, (new fun _ : Nat => {}).calls threeItems = some m ∧ m.heap = [1, 0] ∧
    m.Represents (pending threeItems) ∧ (∀ p ∉ m.heap, ∃ first, m.cancel p = some (m, first)) ∧
    ∃ handed m', m.expireReady 4 = some (handed, m') ∧ handed = [1] ∧ 2 ∉ handed := by
  have hops : Respected (fun _ => none) threeItems := by
    simp [threeItems, Respected, Op.schedules, Op.apply, Function.update_apply]
  obtain ⟨m, hcalls, hr, hcancel, hexpire⟩ := calls_represents (fun _ : Nat => {}) threeItems hops
  obtain ⟨handed, m', heq, -, -, -, hnever⟩ := hexpire 4
  have hnever : 2 ∉ handed := hnever 2 (threeItems.take 3) (threeItems.drop 4) rfl (by decide)
  have hheap : ((new fun _ : Nat => {}).calls threeItems).map (·.heap) = some [1, 0] := by decide +kernel
  have hhanded : (((new fun _ : Nat => {}).calls threeItems).bind (·.expireReady 4)).map (·.1) = some [1] := by decide +kernel
  rw [hcalls] at hheap hhanded
  refine ⟨m, hcalls, Option.some.inj hheap, hr, hcancel, handed, m', heq, ?_, hnever⟩
  rw [Option.bind_some, heq] at hhanded
  exact Option.some.inj hhanded

end Manager

/-! ## The loop -/

inductive LoopPhase (Ptr : Type) where
  /-- before `Lock` -/
  | checking
  /-- in the `select` without the timer -/
  | idle
  /-- before `timer.Reset`, for the deadline of the first item -/
  | arming (deadline : Int)
  /-- in the `select` with the timer -/
  | sleeping (deadline : Int)
  /-- before the callback for each of the items -/
  | expiring (items : List Ptr)
  | stopped
  deriving DecidableEq, Repr

/-- The deadline a `select` waits for, if the loop is in one or about to be: none, or that of the timer. -/
def LoopPhase.armed : LoopPhase Ptr → Option (Option Int)
  | .idle => some none
  | .arming deadline | .sleeping deadline => some (some deadline)
  | .checking | .expiring _ | .stopped => none

/-- The manager with its loop. `wake` says that the channel holds its token, and `signalling` counts the callers that have updated
the heap and have yet to signal. -/
structure Loop (Ptr : Type) where
  manager : Manager Ptr
  wake : Bool := false
  signalling : Nat := 0
  phase : LoopPhase Ptr := .checking

/-- The arm a `select` takes; the timer with the time that is then read. -/
inductive LoopArm where
  | timer (now : Int)
  | wake
  | done

inductive LoopLabel (Ptr : Type) where
  | scheduleItemAt (p : Ptr) (dispatchedAt after : Int) (kind : TimeoutKind) (command : CommandID) (sequence : SequenceNumber)
  | cancel (p : Ptr)
  /-- a caller sends on `wake`, unless it is full -/
  | signal
  | run
  | select (arm : LoopArm)

namespace Loop

/-- A caller has updated the heap, and signals later if it has to. -/
def update (l : Loop Ptr) (r : Manager Ptr × Bool) : Loop Ptr :=
  { l with manager := r.1, signalling := l.signalling + r.2.toNat }

def runStep (l : Loop Ptr) : Option (Loop Ptr) :=
  match l.phase with
  | .checking => some { l with phase :=
      match l.manager.heap[0]? with
      | none => .idle
      | some p => .arming (l.manager.items p).deadline }
  | .arming deadline => some { l with phase := .sleeping deadline }
  -- what the callback does to the manager is done by callers
  | .expiring (_ :: items) => some { l with phase := .expiring items }
  | .expiring [] => some { l with phase := .checking }
  | .idle | .sleeping _ | .stopped => none

/-- An arm of a `select`. The timer may fire at any time. -/
def selectStep (l : Loop Ptr) (arm : LoopArm) : Option (Loop Ptr) :=
  match l.phase, arm with
  | .idle, .wake | .sleeping _, .wake => if l.wake then some { l with wake := false, phase := .checking } else none
  | .idle, .done | .sleeping _, .done => some { l with phase := .stopped }
  | .sleeping _, .timer now => do
    let (handed, manager) ← l.manager.expireReady now
    some { l with manager, phase := .expiring handed }
  | _, _ => none

/-- An item is scheduled by its owner: a request's once, a liveness deadline when it has fired; it is not in the heap. -/
def step (l : Loop Ptr) : LoopLabel Ptr → Option (Loop Ptr)
  | .scheduleItemAt p dispatchedAt after kind command sequence =>
    if p ∈ l.manager.heap then none
    else some (l.update (l.manager.scheduleItemAt p dispatchedAt after kind command sequence))
  | .cancel p => (l.manager.cancel p).map l.update
  | .signal => if 0 < l.signalling then some { l with wake := true, signalling := l.signalling - 1 } else none
  | .run => l.runStep
  | .select arm => l.selectStep arm

def new (items : Ptr → Item) : Loop Ptr := { manager := .new items }

/-- Nothing in the heap is due before the deadline that is waited for. -/
def Covers (m : Manager Ptr) : Option Int → Prop
  | none => m.heap = []
  | some deadline => ∀ p ∈ m.heap, deadline ≤ (m.items p).deadline

def Woken (l : Loop Ptr) : Prop := l.wake ∨ 0 < l.signalling

/-- A loop that waits waits long enough for nothing, or is about to be woken. -/
structure Awake (l : Loop Ptr) : Prop where
  sound : l.manager.Sound
  covered : ∀ deadline, l.phase.armed = some deadline → Covers l.manager deadline ∨ l.Woken

section Awake
variable {l l' : Loop Ptr} {p : Ptr} {deadline : Option Int}

theorem awake_new (items : Ptr → Item) : (new items).Awake := ⟨Manager.sound_new items, nofun⟩

theorem covers_scheduleItemAt {m : Manager Ptr} (h : m.Sound) (hp : p ∉ m.heap) (hc : Covers m deadline)
    (dispatchedAt after : Int) (kind : TimeoutKind) (command : CommandID) (sequence : SequenceNumber) :
    Covers (m.scheduleItemAt p dispatchedAt after kind command sequence).1 deadline ∨
      (m.scheduleItemAt p dispatchedAt after kind command sequence).2 = true := by
  by_cases hafter : 0 < after
  case neg =>
    left
    rwa [show m.scheduleItemAt p dispatchedAt after kind command sequence = (m, false) from if_pos (not_lt.mp hafter)]
  obtain ⟨-, hperm, hdeadline, hsignal⟩ := Manager.scheduleItemAt_spec h hp hafter kind command sequence
  cases hwas : (m.scheduleItemAt p dispatchedAt after kind command sequence).2 with
  | true => exact .inr rfl
  | false =>
    left
    obtain ⟨q, hq, hle⟩ := hsignal hwas
    cases deadline with
    | none =>
      rw [show m.heap = [] from hc] at hq
      cases hq
    | some t =>
      intro r hr
      rw [hdeadline r]
      split
      case isTrue => exact (hc q hq).trans hle
      case isFalse hne => exact hc r ((List.mem_cons.mp (hperm.mem_iff.mp hr)).resolve_left hne)

theorem covers_cancel {m m' : Manager Ptr} {first : Bool} (h : m.Sound) (heq : m.cancel p = some (m', first))
    (hc : Covers m deadline) : Covers m' deadline := by
  by_cases hp : p ∈ m.heap
  · obtain ⟨m₁, first₁, heq₁, hm₁, hperm, hsame⟩ := Manager.cancel_of_mem h hp
    cases heq.symm.trans heq₁
    cases deadline with
    | none =>
      rw [show m.heap = [] from hc] at hp
      cases hp
    | some t =>
      intro q hq
      rw [hsame q]
      exact hc q (hperm.mem_iff.mpr (List.mem_cons_of_mem p hq))
  · obtain ⟨first₁, heq₁⟩ := Manager.cancel_of_not_mem hp
    cases heq.symm.trans heq₁
    exact hc

theorem Awake.update (h : l.Awake) {r : Manager Ptr × Bool} (hr : r.1.Sound)
    (hc : ∀ deadline, Covers l.manager deadline → Covers r.1 deadline ∨ r.2 = true) : (l.update r).Awake := by
  refine ⟨hr, fun deadline hd => ?_⟩
  rcases h.covered deadline hd with hcov | hw | hs
  · rcases hc deadline hcov with hcov | hsignal
    · exact .inl hcov
    · refine .inr (.inr ?_)
      show 0 < l.signalling + r.2.toNat
      rw [hsignal]
      exact Nat.succ_pos _
  · exact .inr (.inl hw)
  · exact .inr (.inr (Nat.lt_of_lt_of_le hs (Nat.le_add_right _ _)))

theorem Awake.runStep (h : l.Awake) (hs : l.runStep = some l') : l'.Awake := by
  unfold Loop.runStep at hs
  split at hs
  case h_1 =>
    cases hs
    refine ⟨h.sound, fun deadline hd => .inl ?_⟩
    cases hp : l.manager.heap[0]? with
    | none =>
      rw [hp] at hd
      cases hd
      exact List.eq_nil_of_length_eq_zero (Nat.le_zero.mp (List.getElem?_eq_none_iff.mp hp))
    | some p =>
      rw [hp] at hd
      cases hd
      exact fun q hq => h.sound.isHeap.root_le hp hq
  case h_2 hphase =>
    cases hs
    refine ⟨h.sound, fun deadline hd => h.covered deadline ?_⟩
    rw [hphase]
    exact hd
  case h_3 => cases hs; exact ⟨h.sound, nofun⟩
  case h_4 => cases hs; exact ⟨h.sound, nofun⟩
  all_goals cases hs

theorem Awake.selectStep {arm : LoopArm} (h : l.Awake) (hs : l.selectStep arm = some l') : l'.Awake := by
  unfold Loop.selectStep at hs
  split at hs
  case h_5 =>
    obtain ⟨⟨handed, m⟩, heq, hs⟩ := Option.bind_eq_some_iff.mp hs
    cases hs
    exact ⟨Manager.expireReady_sound h.sound heq, nofun⟩
  case h_6 => cases hs
  case h_3 => cases hs; exact ⟨h.sound, nofun⟩
  case h_4 => cases hs; exact ⟨h.sound, nofun⟩
  all_goals
    obtain ⟨-, hs⟩ := Option.ite_none_right_eq_some.mp hs
    cases hs
    exact ⟨h.sound, nofun⟩

theorem Awake.step {label : LoopLabel Ptr} (h : l.Awake) (hs : l.step label = some l') : l'.Awake := by
  cases label with
  | scheduleItemAt p dispatchedAt after kind command sequence =>
    obtain ⟨hp, hs⟩ := Option.ite_none_left_eq_some.mp hs
    cases hs
    refine h.update ?_ fun deadline hc => covers_scheduleItemAt h.sound hp hc dispatchedAt after kind command sequence
    by_cases hafter : 0 < after
    · exact (Manager.scheduleItemAt_spec h.sound hp hafter kind command sequence).1
    · rw [Manager.scheduleItemAt, if_pos (not_lt.mp hafter)]
      exact h.sound
  | cancel p =>
    obtain ⟨⟨m, first⟩, heq, hs⟩ := Option.map_eq_some_iff.mp hs
    cases hs
    exact h.update (Manager.cancel_sound h.sound heq) fun _ hc => .inl (covers_cancel h.sound heq hc)
  | signal =>
    obtain ⟨-, hs⟩ := Option.ite_none_right_eq_some.mp hs
    cases hs
    exact ⟨h.sound, fun _ _ => .inr (.inl rfl)⟩
  | run => exact h.runStep hs
  | select arm => exact h.selectStep hs

end Awake

def loops : System (Loop Ptr) (LoopLabel Ptr) := ⟨step⟩

/-- **The loop does not oversleep.** Whenever `run` is blocked in a `select`, nothing in the heap is due before the deadline the
timer was armed for, or there is nothing in the heap if there is no timer; or the loop is about to be woken. -/
theorem run_awake {items : Ptr → Item} {l : Loop Ptr} (h : loops.Run anyStep (new items) l) :
    (l.phase = .idle → l.manager.heap = [] ∨ l.wake ∨ 0 < l.signalling) ∧
      ∀ deadline, l.phase = .sleeping deadline →
        (∀ p ∈ l.manager.heap, deadline ≤ (l.manager.items p).deadline) ∨ l.wake ∨ 0 < l.signalling := by
  have hawake : l.Awake := h.invariant (fun _ _ _ _ hs h => Awake.step h hs) (awake_new items)
  refine ⟨fun hidle => hawake.covered none ?_, fun deadline hsleeping => hawake.covered (some deadline) ?_⟩
  · rw [hidle]
    rfl
  · rw [hsleeping]
    rfl

/-- The loop sleeps until an item is due, and one that is due later is scheduled. -/
def sleeper : List (LoopLabel Nat) :=
  [.scheduleItemAt 0 0 10 .response 4 1, .signal, .run, .run, .select .wake, .run, .run, .scheduleItemAt 1 0 20 .response 4 2]

theorem run_awake_sleeper : ∃ l, loops.Run anyStep (new fun _ : Nat => {}) l ∧ l.phase = .sleeping 10 ∧
    l.manager.heap = [0, 1] ∧ l.wake = false ∧ l.signalling = 0 ∧ ∀ p ∈ l.manager.heap, 10 ≤ (l.manager.items p).deadline := by
  have hrun := System.run_after loops anyStep (new fun _ : Nat => {}) sleeper (by decide +kernel)
  have hphase : (loops.after anyStep (new fun _ : Nat => {}) sleeper).phase = .sleeping 10 := by decide +kernel
  have hwake : (loops.after anyStep (new fun _ : Nat => {}) sleeper).wake = false := by decide +kernel
  have hsignalling : (loops.after anyStep (new fun _ : Nat => {}) sleeper).signalling = 0 := by decide +kernel
  refine ⟨_, hrun, hphase, by decide +kernel, hwake, hsignalling, ?_⟩
  rcases (run_awake hrun).2 10 hphase with hle | hw | hs
  · exact hle
  · rw [hwake] at hw
    cases hw
  · rw [hsignalling] at hs
    cases hs

end Loop

end GoSmpp.Deadlines
