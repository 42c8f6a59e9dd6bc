import Mathlib.Data.List.Basic
import Mathlib.Logic.Equiv.Basic
import Mathlib.Order.WithBot
import Mathlib.Tactic

/-!
# Binary heaps over a container

The algorithms of `container/heap`: a container tells its length, compares and swaps two of its positions, and adds and removes
its last element; the heap is kept by swaps.

* `swapAt`: two elements of a list swapped. `Interface`: a container, with its contract.
* `InOrder n f`: the positions below `n` are a heap. `Hole n i f`: they are, except that the position `i` may be out of order with
  its parent and its children.
* `up_keeps`, `down_keeps`: what swaps preserve, sifting preserves. `up_inOrder`, `fix_inOrder`: it fills the hole.
* `heapPush_spec`, `heapPop_spec`, `heapRemove_spec`: what the operations do to the elements, and that the heap stays one.
-/

namespace GoSmpp.Lib

variable {α : Type*}

def swapAt (l : List α) (i j : Nat) : List α :=
  match l[i]?, l[j]? with
  | some a, some b => (l.set i b).set j a
  | _, _ => l

theorem swapAt_of_lt {l : List α} {i j : Nat} (hi : i < l.length) (hj : j < l.length) :
    swapAt l i j = (l.set i l[j]).set j l[i] := by
  unfold swapAt
  rw [List.getElem?_eq_getElem hi, List.getElem?_eq_getElem hj]

theorem perm_swapAt (l : List α) (i j : Nat) : (swapAt l i j).Perm l := by
  by_cases h : i < l.length ∧ j < l.length
  · rw [swapAt_of_lt h.1 h.2]
    exact List.set_set_perm h.1 h.2
  · unfold swapAt
    split
    case h_1 hi hj => exact absurd ⟨(List.getElem?_eq_some_iff.mp hi).1, (List.getElem?_eq_some_iff.mp hj).1⟩ h
    case h_2 => exact .refl l

theorem length_swapAt (l : List α) (i j : Nat) : (swapAt l i j).length = l.length := (perm_swapAt l i j).length_eq

theorem getElem?_swapAt {l : List α} {i j : Nat} (hi : i < l.length) (hj : j < l.length) (k : Nat) :
    (swapAt l i j)[k]? = l[Equiv.swap i j k]? := by
  rw [swapAt_of_lt hi hj, Equiv.swap_apply_def, List.getElem?_set, List.getElem?_set, List.length_set]
  by_cases hkj : j = k
  · subst hkj
    rw [if_pos rfl, if_pos hj]
    by_cases hki : j = i
    · subst hki
      rw [if_pos rfl, List.getElem?_eq_getElem hj]
    · rw [if_neg hki, if_pos rfl, List.getElem?_eq_getElem hi]
  · rw [if_neg hkj]
    by_cases hki : i = k
    · subst hki
      rw [if_pos rfl, if_pos hi, if_pos rfl, List.getElem?_eq_getElem hj]
    · rw [if_neg hki, if_neg (Ne.symm hki), if_neg (Ne.symm hkj)]

theorem swapAt_append {l : List α} {i j : Nat} (r : List α) (hi : i < l.length) (hj : j < l.length) :
    swapAt (l ++ r) i j = swapAt l i j ++ r := by
  have hi' : i < (l ++ r).length := by simp; omega
  have hj' : j < (l ++ r).length := by simp; omega
  rw [swapAt_of_lt hi' hj', swapAt_of_lt hi hj, List.getElem_append_left hi, List.getElem_append_left hj,
    List.set_append_left _ _ hi, List.set_append_left _ _ (by simpa using hj)]

theorem eq_append_last {l : List α} {n : Nat} {a : α} (hn : l.length = n + 1) (ha : l[n]? = some a) : ∃ l', l = l' ++ [a] := by
  refine ⟨l.dropLast, (List.dropLast_append_getLast? a ?_).symm⟩
  rw [List.getLast?_eq_getElem?, hn, Nat.add_sub_cancel]
  exact ha

theorem swapAt_last {l : List α} {i n : Nat} {a : α} (hn : l.length = n + 1) (ha : l[i]? = some a) :
    ∃ l', l'.length = n ∧ swapAt l i n = l' ++ [a] := by
  have hi : i < l.length := (List.getElem?_eq_some_iff.mp ha).1
  have hlast : (swapAt l i n)[n]? = some a := by
    rw [getElem?_swapAt hi (by omega), Equiv.swap_apply_right]
    exact ha
  have hlen : (swapAt l i n).length = n + 1 := (length_swapAt l i n).trans hn
  obtain ⟨l', hl'⟩ := eq_append_last hlen hlast
  refine ⟨l', ?_, hl'⟩
  rw [hl', List.length_append] at hlen
  exact Nat.succ.inj hlen

namespace Heap

/-- The parent of a position. The root is its own. -/
def parent (j : Nat) : Nat := (j - 1) / 2

theorem parent_lt {j : Nat} (h : 0 < j) : parent j < j := by
  unfold parent
  omega

/-! ## Order -/

section Order
variable {W : Type*} [LinearOrder W] {n i j : Nat} {f : Nat → W}

/-- The positions below `n` are a heap. -/
def InOrder (n : Nat) (f : Nat → W) : Prop := ∀ k, 0 < k → k < n → f (parent k) ≤ f k

/-- The positions below `n` are a heap but for the position `i`, whose children do not come before its parent. -/
structure Hole (n i : Nat) (f : Nat → W) : Prop where
  others : ∀ k, 0 < k → k < n → k ≠ i → parent k ≠ i → f (parent k) ≤ f k
  children : 0 < i → ∀ k, 0 < k → k < n → parent k = i → f (parent i) ≤ f k

/-- No child of `i` comes before it. -/
def AboveChildren (n i : Nat) (f : Nat → W) : Prop := ∀ k, 0 < k → k < n → parent k = i → f i ≤ f k

theorem InOrder.root_le (h : InOrder n f) : ∀ k < n, f 0 ≤ f k := by
  intro k
  induction k using Nat.strongRecOn with
  | _ k ih =>
    intro hk
    by_cases h0 : k = 0
    · rw [h0]
    · have hpos : 0 < k := Nat.pos_of_ne_zero h0
      have hlt := parent_lt hpos
      exact (ih (parent k) hlt (by omega)).trans (h k hpos hk)

theorem InOrder.mono {m : Nat} (h : InOrder n f) (hm : m ≤ n) : InOrder m f := fun k h0 hk => h k h0 (by omega)

theorem InOrder.congr {g : Nat → W} (h : InOrder n f) (hfg : ∀ k < n, g k = f k) : InOrder n g := by
  intro k h0 hk
  have hlt := parent_lt h0
  rw [hfg k hk, hfg (parent k) (by omega)]
  exact h k h0 hk

theorem Hole.inOrder (h : Hole n i f) (hbelow : AboveChildren n i f) (habove : 0 < i → f (parent i) ≤ f i) : InOrder n f := by
  intro k h0 hk
  by_cases hki : k = i
  · subst hki
    exact habove h0
  · by_cases hpi : parent k = i
    · rw [hpi]
      exact hbelow k h0 hk hpi
    · exact h.others k h0 hk hki hpi

theorem InOrder.hole (h : InOrder n f) {g : Nat → W} (hfg : ∀ k < n, k ≠ i → g k = f k) (hi : i < n) : Hole n i g where
  others := by
    intro k h0 hk hki hpi
    have hlt := parent_lt h0
    rw [hfg k hk hki, hfg (parent k) (by omega) hpi]
    exact h k h0 hk
  children := by
    intro hi0 k h0 hk hpi
    have hlt := parent_lt hi0
    have hki : k ≠ i := by
      rintro rfl
      have := parent_lt h0
      omega
    rw [hfg (parent i) (by omega) (by omega), hfg k hk hki]
    calc f (parent i) ≤ f i := h i hi0 hi
      _ = f (parent k) := by rw [hpi]
      _ ≤ f k := h k h0 hk

section Swap
variable {g : Nat → W}

theorem Hole.up (h : Hole n j f) (h0 : 0 < j) (hj : j < n) (hlt : f j < f (parent j))
    (hg : ∀ k, g k = f (Equiv.swap (parent j) j k)) : Hole n (parent j) g ∧ AboveChildren n (parent j) g := by
  have hpj := parent_lt h0
  have hgp : g (parent j) = f j := by rw [hg, Equiv.swap_apply_left]
  have hgj : g j = f (parent j) := by rw [hg, Equiv.swap_apply_right]
  have hgk : ∀ k, k ≠ parent j → k ≠ j → g k = f k := fun k hp hj => by rw [hg, Equiv.swap_apply_of_ne_of_ne hp hj]
  -- the siblings of `j` do not come before the parent they share
  have hsibling : ∀ k, 0 < k → k < n → parent k = parent j → k ≠ j → f (parent j) ≤ f k := by
    intro k hk0 hk hpk hkj
    rw [← hpk]
    exact h.others k hk0 hk hkj (by omega)
  refine ⟨⟨?_, ?_⟩, ?_⟩
  · intro k hk0 hk hkp hpk
    have hkj : k ≠ j := by
      rintro rfl
      exact hpk rfl
    rw [hgk k hkp hkj]
    by_cases hpj' : parent k = j
    · rw [hpj', hgj]
      exact h.children h0 k hk0 hk hpj'
    · rw [hgk (parent k) hpk hpj']
      exact h.others k hk0 hk hkj hpj'
  · intro hp0 k hk0 hk hpk
    have hpp := parent_lt hp0
    have hgrand : f (parent (parent j)) ≤ f (parent j) := h.others (parent j) hp0 (by omega) (by omega) (by omega)
    rw [hgk (parent (parent j)) (by omega) (by omega)]
    by_cases hkj : k = j
    · rw [hkj, hgj]
      exact hgrand
    · have hkp : k ≠ parent j := by
        have := parent_lt hk0
        omega
      rw [hgk k hkp hkj]
      exact hgrand.trans (hsibling k hk0 hk hpk hkj)
  · intro k hk0 hk hpk
    rw [hgp]
    by_cases hkj : k = j
    · rw [hkj, hgj]
      exact hlt.le
    · have hkp : k ≠ parent j := by
        have := parent_lt hk0
        omega
      rw [hgk k hkp hkj]
      exact hlt.le.trans (hsibling k hk0 hk hpk hkj)

theorem Hole.down (h : Hole n i f) (h0 : 0 < j) (hj : j < n) (hp : parent j = i) (hlt : f j < f i)
    (hfirst : ∀ k, 0 < k → k < n → parent k = i → f j ≤ f k)
    (hg : ∀ k, g k = f (Equiv.swap i j k)) : Hole n j g ∧ g (parent j) ≤ g j := by
  have hij : i < j := hp ▸ parent_lt h0
  have hgi : g i = f j := by rw [hg, Equiv.swap_apply_left]
  have hgj : g j = f i := by rw [hg, Equiv.swap_apply_right]
  have hgk : ∀ k, k ≠ i → k ≠ j → g k = f k := fun k hi hj => by rw [hg, Equiv.swap_apply_of_ne_of_ne hi hj]
  refine ⟨⟨?_, ?_⟩, ?_⟩
  · intro k hk0 hk hkj hpj
    have hpk := parent_lt hk0
    by_cases hki : k = i
    · subst hki
      rw [hgi, hgk (parent k) (by omega) (by omega)]
      exact h.children hk0 j h0 hj hp
    · rw [hgk k hki hkj]
      by_cases hpi : parent k = i
      · rw [hpi, hgi]
        exact hfirst k hk0 hk hpi
      · rw [hgk (parent k) hpi hpj]
        exact h.others k hk0 hk hki hpi
  · intro _ k hk0 hk hpk
    have hlt' := parent_lt hk0
    rw [hp, hgi, hgk k (by omega) (by omega), ← hpk]
    exact h.others k hk0 hk (by omega) (by omega)
  · rw [hp, hgi, hgj]
    exact hlt.le

end Swap

end Order

/-! ## Containers -/

/-- What `container/heap` asks of a container, with the contract: its elements are a list, compared by a key. -/
structure Interface (σ α K : Type*) [LinearOrder K] where
  len : σ → Nat
  less : σ → Nat → Nat → Bool
  swap : σ → Nat → Nat → σ
  push : σ → α → σ
  pop : σ → Option (α × σ)
  view : σ → List α
  key : σ → α → K
  len_eq (s : σ) : len s = (view s).length
  less_iff {s : σ} {i j : Nat} {a b : α} (hi : (view s)[i]? = some a) (hj : (view s)[j]? = some b) :
    less s i j = true ↔ key s a < key s b
  view_swap (s : σ) (i j : Nat) : view (swap s i j) = swapAt (view s) i j
  key_swap (s : σ) (i j : Nat) : key (swap s i j) = key s
  view_push (s : σ) (a : α) : view (push s a) = view s ++ [a]
  key_push (s : σ) (a : α) : key (push s a) = key s
  pop_eq {s : σ} {l : List α} {a : α} (h : view s = l ++ [a]) : ∃ t, pop s = some (a, t) ∧ view t = l ∧ key t = key s

namespace Interface
variable {σ K : Type*} [LinearOrder K] (I : Interface σ α K)

/-- The loop of `up`. The position goes down to at least half of it, so that the position itself is fuel enough. -/
def upLoop : Nat → σ → Nat → σ
  | 0, s, _ => s
  | fuel + 1, s, j =>
    if parent j = j ∨ I.less s j (parent j) = false then s else upLoop fuel (I.swap s (parent j) j) (parent j)

def up (s : σ) (j : Nat) : σ := I.upLoop j s j

/-- The child of `i` that `down` compares with: the right one if it comes before the left. -/
def child (s : σ) (i n : Nat) : Nat := if 2 * i + 2 < n ∧ I.less s (2 * i + 2) (2 * i + 1) then 2 * i + 2 else 2 * i + 1

/-- The loop of `down`, which also tells the position it ends at. -/
def downLoop (n : Nat) : Nat → σ → Nat → σ × Nat
  | 0, s, i => (s, i)
  | fuel + 1, s, i =>
    if n ≤ 2 * i + 1 then (s, i)
    else if I.less s (I.child s i n) i = false then (s, i)
    else downLoop n fuel (I.swap s i (I.child s i n)) (I.child s i n)

/-- `down`, and whether the element has moved. -/
def down (s : σ) (i n : Nat) : σ × Bool :=
  let (t, j) := I.downLoop n n s i
  (t, i < j)

def heapPush (s : σ) (a : α) : σ :=
  let t := I.push s a
  I.up t (I.len t - 1)

def heapPop (s : σ) : Option (α × σ) :=
  let n := I.len s - 1
  I.pop (I.down (I.swap s 0 n) 0 n).1

def heapRemove (s : σ) (i : Nat) : Option (α × σ) :=
  let n := I.len s - 1
  if n = i then I.pop s
  else
    let (t, moved) := I.down (I.swap s i n) i n
    I.pop (if moved then t else I.up t i)

/-! ## What swaps preserve -/

section Keeps
variable {I} {n : Nat} {P : σ → Prop} {s : σ} {i j : Nat}

theorem length_swap (s : σ) (i j : Nat) : (I.view (I.swap s i j)).length = (I.view s).length := by
  rw [I.view_swap, length_swapAt]

theorem upLoop_keeps (hswap : ∀ t i j, i < n → j < n → n ≤ (I.view t).length → P t → P (I.swap t i j)) (fuel : Nat)
    (hj : j < n) (hn : n ≤ (I.view s).length) (hs : P s) : P (I.upLoop fuel s j) := by
  induction fuel generalizing s j with
  | zero => exact hs
  | succ fuel ih =>
    unfold upLoop
    split
    case isTrue => exact hs
    case isFalse =>
      have hp : parent j < n := by
        have : parent j ≤ j := by
          unfold parent
          omega
        omega
      exact ih hp (by rwa [length_swap]) (hswap s (parent j) j hp hj hn hs)

theorem up_keeps (hswap : ∀ t i j, i < n → j < n → n ≤ (I.view t).length → P t → P (I.swap t i j)) (hj : j < n)
    (hn : n ≤ (I.view s).length) (hs : P s) : P (I.up s j) := upLoop_keeps hswap j hj hn hs

theorem child_cases (s : σ) (i n : Nat) (h : ¬ n ≤ 2 * i + 1) :
    0 < I.child s i n ∧ I.child s i n < n ∧ parent (I.child s i n) = i := by
  unfold child parent
  split
  case isTrue h => omega
  case isFalse => omega

theorem downLoop_keeps (hswap : ∀ t i j, i < n → j < n → n ≤ (I.view t).length → P t → P (I.swap t i j)) (fuel : Nat)
    (hn : n ≤ (I.view s).length) (hs : P s) : P (I.downLoop n fuel s i).1 := by
  induction fuel generalizing s i with
  | zero => exact hs
  | succ fuel ih =>
    unfold downLoop
    split
    case isTrue => exact hs
    case isFalse hlt =>
      split
      case isTrue => exact hs
      case isFalse =>
        have hc := (child_cases (I := I) s i n hlt).2.1
        exact ih (by rwa [length_swap]) (hswap s i _ (by omega) hc hn hs)

theorem down_keeps (hswap : ∀ t i j, i < n → j < n → n ≤ (I.view t).length → P t → P (I.swap t i j))
    (hn : n ≤ (I.view s).length) (hs : P s) : P (I.down s i n).1 := downLoop_keeps hswap n hn hs

end Keeps

/-! ## Sifting fills the hole -/

/-- The key at a position. There is none beyond the end. -/
def rank (s : σ) (k : Nat) : WithTop K := (I.view s)[k]?.elim ⊤ fun a => (I.key s a : WithTop K)

section Sift
variable {I} {n : Nat} {s : σ} {i j k : Nat}

theorem rank_of_getElem? {a : α} (h : (I.view s)[k]? = some a) : I.rank s k = (I.key s a : WithTop K) := by
  unfold rank
  rw [h]
  rfl

theorem rank_swap (hi : i < (I.view s).length) (hj : j < (I.view s).length) (k : Nat) :
    I.rank (I.swap s i j) k = I.rank s (Equiv.swap i j k) := by
  unfold rank
  rw [I.view_swap, getElem?_swapAt hi hj, I.key_swap]

theorem less_iff_rank (hi : i < (I.view s).length) (hj : j < (I.view s).length) :
    I.less s i j = true ↔ I.rank s i < I.rank s j := by
  have hi := List.getElem?_eq_getElem hi
  have hj := List.getElem?_eq_getElem hj
  rw [I.less_iff hi hj, rank_of_getElem? hi, rank_of_getElem? hj, WithTop.coe_lt_coe]

theorem upLoop_inOrder (fuel : Nat) (hfuel : j ≤ fuel) (hj : j < n) (hn : n ≤ (I.view s).length) (h : Hole n j (I.rank s))
    (hbelow : AboveChildren n j (I.rank s)) : InOrder n (I.rank (I.upLoop fuel s j)) := by
  induction fuel generalizing s j with
  | zero => exact h.inOrder hbelow fun h0 => by omega
  | succ fuel ih =>
    unfold upLoop
    split
    case isTrue hstop =>
      refine h.inOrder hbelow fun h0 => ?_
      have hp := parent_lt h0
      rcases hstop with heq | hless
      · omega
      · exact not_lt.mp fun hlt => by
          rw [(less_iff_rank (by omega) (by omega)).mpr hlt] at hless
          cases hless
    case isFalse hgo =>
      obtain ⟨hne, hless⟩ := not_or.mp hgo
      have h0 : 0 < j := by
        rcases Nat.eq_zero_or_pos j with rfl | h0
        · exact absurd rfl hne
        · exact h0
      have hp := parent_lt h0
      have hlt := (less_iff_rank (by omega) (by omega)).mp (Bool.not_eq_false _ ▸ hless)
      obtain ⟨h', hbelow'⟩ := h.up h0 hj hlt (rank_swap (by omega) (by omega))
      exact ih (by omega) (by omega) (by rwa [length_swap]) h' hbelow'

theorem up_inOrder (hj : j < n) (hn : n ≤ (I.view s).length) (h : Hole n j (I.rank s)) (hbelow : AboveChildren n j (I.rank s)) :
    InOrder n (I.rank (I.up s j)) := upLoop_inOrder j (Nat.le_refl j) hj hn h hbelow

theorem child_first (hn : n ≤ (I.view s).length) :
    ∀ k, 0 < k → k < n → parent k = i → I.rank s (I.child s i n) ≤ I.rank s k := by
  intro k h0 hk hp
  have hkeys : k = 2 * i + 1 ∨ k = 2 * i + 2 := by
    unfold parent at hp
    omega
  unfold child
  split
  case isTrue hright =>
    have hlt := (less_iff_rank (by omega) (by omega)).mp hright.2
    rcases hkeys with rfl | rfl
    · exact hlt.le
    · exact le_refl _
  case isFalse hleft =>
    rcases hkeys with rfl | rfl
    · exact le_refl _
    · exact not_lt.mp fun hlt => hleft ⟨hk, (less_iff_rank (by omega) (by omega)).mpr hlt⟩

/-- Where `down` ends, the element does not come after its children; and it has not moved, or does not come before its parent. -/
structure Settled (n i : Nat) (s : σ) (r : σ × Nat) : Prop where
  hole : Hole n r.2 (I.rank r.1)
  below : AboveChildren n r.2 (I.rank r.1)
  moved : r = (s, i) ∨ i < r.2 ∧ I.rank r.1 (parent r.2) ≤ I.rank r.1 r.2

theorem downLoop_settled (fuel : Nat) (hfuel : n ≤ fuel + i) (hn : n ≤ (I.view s).length) (hi : i < n) (h : Hole n i (I.rank s)) :
    Settled (I := I) n i s (I.downLoop n fuel s i) := by
  induction fuel generalizing s i with
  | zero => omega
  | succ fuel ih =>
    unfold downLoop
    split
    case isTrue hend =>
      refine ⟨h, fun k h0 hk hp => ?_, .inl rfl⟩
      unfold parent at hp
      omega
    case isFalse hlt =>
      obtain ⟨hc0, hcn, hcp⟩ := child_cases (I := I) s i n hlt
      have hfirst := child_first (i := i) hn
      split
      case isTrue hless =>
        refine ⟨h, fun k h0 hk hp => ?_, .inl rfl⟩
        have hle : I.rank s i ≤ I.rank s (I.child s i n) := not_lt.mp fun hlt => by
          rw [(less_iff_rank (by omega) (by omega)).mpr hlt] at hless
          cases hless
        exact hle.trans (hfirst k h0 hk hp)
      case isFalse hless =>
        have hci := parent_lt hc0
        have hrank := (less_iff_rank (by omega) (by omega)).mp (Bool.not_eq_false _ ▸ hless)
        obtain ⟨h', hparent⟩ := h.down hc0 hcn hcp hrank hfirst (rank_swap (by omega) (by omega))
        have hs := ih (by omega) (by rwa [length_swap]) hcn h'
        refine ⟨hs.hole, hs.below, .inr ?_⟩
        rcases hs.moved with heq | ⟨hlt', hle⟩
        · rw [heq]
          exact ⟨by omega, hparent⟩
        · exact ⟨by omega, hle⟩

theorem fix_inOrder (hn : n ≤ (I.view s).length) (hi : i < n) (h : Hole n i (I.rank s)) :
    InOrder n (I.rank (if (I.down s i n).2 then (I.down s i n).1 else I.up (I.down s i n).1 i)) := by
  have hs := downLoop_settled n (by omega) hn hi h
  have hlen : n ≤ (I.view (I.down s i n).1).length :=
    down_keeps (P := fun t => n ≤ (I.view t).length) (fun t i j _ _ hn _ => by rwa [length_swap]) hn hn
  split
  case isTrue hmoved =>
    have hmoved : i < (I.downLoop n n s i).2 := of_decide_eq_true hmoved
    refine hs.hole.inOrder hs.below fun _ => ?_
    rcases hs.moved with heq | ⟨-, hle⟩
    · rw [heq] at hmoved
      exact absurd hmoved (Nat.lt_irrefl i)
    · exact hle
  case isFalse hstay =>
    have hstay : ¬ i < (I.downLoop n n s i).2 := fun hlt => hstay (decide_eq_true hlt)
    have heq : (I.downLoop n n s i).2 = i := by
      rcases hs.moved with heq | ⟨hlt, -⟩
      · rw [heq]
      · exact absurd hlt hstay
    have hhole := hs.hole
    have hbelow := hs.below
    rw [heq] at hhole hbelow
    exact up_inOrder hi hlen hhole hbelow

theorem down_inOrder (hn : n ≤ (I.view s).length) (h0 : 0 < n) (h : Hole n 0 (I.rank s)) :
    InOrder n (I.rank (I.down s 0 n).1) := by
  have hs := downLoop_settled n (by omega) hn h0 h
  refine hs.hole.inOrder hs.below fun hpos => ?_
  rcases hs.moved with heq | ⟨-, hle⟩
  · rw [heq] at hpos
    exact absurd hpos (Nat.lt_irrefl 0)
  · exact hle

end Sift

/-! ## The operations -/

def IsHeap (s : σ) : Prop := InOrder (I.view s).length (I.rank s)

section Operations
variable {I} {s t : σ} {i : Nat} {a : α} {l : List α} {P : σ → Prop}

theorem IsHeap.root_le (h : I.IsHeap s) {b : α} (ha : (I.view s)[0]? = some a) (hb : b ∈ I.view s) : I.key s a ≤ I.key s b := by
  obtain ⟨k, hk⟩ := List.getElem?_of_mem hb
  have hle := InOrder.root_le h k (List.getElem?_eq_some_iff.mp hk).1
  rwa [rank_of_getElem? ha, rank_of_getElem? hk, WithTop.coe_le_coe] at hle

theorem IsHeap.of_nil (h : I.view s = []) : I.IsHeap s := by
  intro k _ hk
  rw [h] at hk
  cases hk

/-- What swaps preserve. -/
def SwapClosed (I : Interface σ α K) (P : σ → Prop) : Prop :=
  ∀ t i j, i < (I.view t).length → j < (I.view t).length → P t → P (I.swap t i j)

/-- The first elements have been rearranged: they are those of `l`, and the rest is `r`. -/
structure Rearranged (I : Interface σ α K) (P : σ → Prop) (key : α → K) (l r : List α) (t : σ) : Prop where
  view : ∃ l', I.view t = l' ++ r ∧ l'.Perm l
  key : I.key t = key
  keeps : P t

theorem Rearranged.swap {key : α → K} {r : List α} (h : Rearranged I P key l r t) (hswap : I.SwapClosed P) {j : Nat}
    (hi : i < l.length) (hj : j < l.length) : Rearranged I P key l r (I.swap t i j) := by
  obtain ⟨⟨l', hl', hperm⟩, hkey, hP⟩ := h
  have hlen := hperm.length_eq
  have hle : l'.length ≤ (I.view t).length := by
    rw [hl', List.length_append]
    exact Nat.le_add_right _ _
  refine ⟨⟨swapAt l' i j, ?_, (perm_swapAt l' i j).trans hperm⟩, (I.key_swap t i j).trans hkey,
    hswap t i j (by omega) (by omega) hP⟩
  rw [I.view_swap, hl']
  exact swapAt_append r (by omega) (by omega)

theorem Rearranged.length_le {key : α → K} {r : List α} (h : Rearranged I P key l r t) : l.length ≤ (I.view t).length := by
  obtain ⟨⟨l', hl', hperm⟩, -, -⟩ := h
  rw [hl', List.length_append, hperm.length_eq]
  exact Nat.le_add_right _ _

theorem Rearranged.up {key : α → K} {r : List α} (h : Rearranged I P key l r t) (hswap : I.SwapClosed P) (hi : i < l.length) :
    Rearranged I P key l r (I.up t i) :=
  up_keeps (fun _ _ _ hi hj _ h => h.swap hswap hi hj) hi h.length_le h

theorem Rearranged.down {key : α → K} {r : List α} (h : Rearranged I P key l r t) (hswap : I.SwapClosed P) :
    Rearranged I P key l r (I.down t i l.length).1 :=
  down_keeps (fun _ _ _ hi hj _ h => h.swap hswap hi hj) h.length_le h

theorem rank_congr {k : Nat} (hview : (I.view t)[k]? = (I.view s)[k]?) (hkey : ∀ a ∈ I.view s, I.key t a = I.key s a) :
    I.rank t k = I.rank s k := by
  cases ha : (I.view s)[k]? with
  | none =>
    unfold rank
    rw [hview, ha]
    rfl
  | some a => rw [rank_of_getElem? (hview.trans ha), rank_of_getElem? ha, hkey a (List.mem_of_getElem? ha)]

theorem IsHeap.congr (h : I.IsHeap s) (hview : I.view t = I.view s) (hkey : ∀ a ∈ I.view s, I.key t a = I.key s a) :
    I.IsHeap t := by
  unfold IsHeap
  rw [hview]
  exact InOrder.congr h fun k _ => rank_congr (congrArg (·[k]?) hview) hkey

/-- **Push.** An element is added, and the heap stays one. -/
theorem heapPush_spec (h : I.IsHeap s) (hswap : I.SwapClosed P) (hs : P (I.push s a)) :
    P (I.heapPush s a) ∧ (I.view (I.heapPush s a)).Perm (a :: I.view s) ∧ I.key (I.heapPush s a) = I.key s ∧
      I.IsHeap (I.heapPush s a) := by
  have hlen : (I.view (I.push s a)).length = (I.view s).length + 1 := by rw [I.view_push, List.length_append]; rfl
  have hlast : I.len (I.push s a) - 1 = (I.view s).length := by rw [I.len_eq, hlen, Nat.add_sub_cancel]
  have hpush : I.heapPush s a = I.up (I.push s a) (I.view s).length := by
    simp only [heapPush, hlast]
  have hrank : ∀ k < (I.view s).length, I.rank (I.push s a) k = I.rank s k := fun k hk => by
    refine rank_congr ?_ fun b _ => congrFun (I.key_push s a) b
    rw [I.view_push, List.getElem?_append_left hk]
  have hr : Rearranged I P (I.key s) (I.view s ++ [a]) [] (I.push s a) :=
    ⟨⟨_, (I.view_push s a).trans (List.append_nil _).symm, .refl _⟩, I.key_push s a, hs⟩
  rw [hpush]
  obtain ⟨⟨l', hl', hperm⟩, hkey, hP⟩ := hr.up hswap (i := (I.view s).length) (by simp)
  rw [List.append_nil] at hl'
  refine ⟨hP, ?_, hkey, ?_⟩
  · rw [hl']
    exact hperm.trans (List.perm_append_singleton a _)
  · have hhole : Hole ((I.view s).length + 1) (I.view s).length (I.rank (I.push s a)) := by
      constructor
      · intro k h0 hk hne _
        have hp := parent_lt h0
        rw [hrank k (by omega), hrank (parent k) (by omega)]
        exact h k h0 (by omega)
      · intro _ k h0 hk hp
        have := parent_lt h0
        omega
    have hbelow : AboveChildren ((I.view s).length + 1) (I.view s).length (I.rank (I.push s a)) := by
      intro k h0 hk hp
      have := parent_lt h0
      omega
    have hord := up_inOrder (Nat.lt_succ_self _) (le_of_eq hlen.symm) hhole hbelow
    unfold IsHeap
    rwa [hl', hperm.length_eq, List.length_append]

theorem pop_isHeap (hview : I.view t = l ++ [a]) (h : InOrder l.length (I.rank t)) :
    ∃ u, I.pop t = some (a, u) ∧ I.view u = l ∧ I.key u = I.key t ∧ I.IsHeap u := by
  obtain ⟨u, hpop, hu, hkey⟩ := I.pop_eq hview
  refine ⟨u, hpop, hu, hkey, ?_⟩
  unfold IsHeap
  rw [hu]
  refine h.congr fun k hk => rank_congr ?_ fun b _ => congrFun hkey b
  rw [hu, hview, List.getElem?_append_left hk]

theorem swap_last (h : I.IsHeap s) {n : Nat} (hn : (I.view s).length = n + 1) (ha : (I.view s)[i]? = some a) :
    ∃ l, l.length = n ∧ I.view (I.swap s i n) = l ++ [a] ∧ (I.view s).Perm (a :: l) ∧ I.key (I.swap s i n) = I.key s ∧
      (i < n → Hole n i (I.rank (I.swap s i n))) := by
  have hi : i < (I.view s).length := (List.getElem?_eq_some_iff.mp ha).1
  obtain ⟨l, hl, heq⟩ := swapAt_last hn ha
  have hperm : (I.view s).Perm (a :: l) := by
    have := perm_swapAt (I.view s) i n
    rw [heq] at this
    exact this.symm.trans (List.perm_append_singleton a l)
  refine ⟨l, hl, (I.view_swap s i n).trans heq, hperm, I.key_swap s i n, fun hin => ?_⟩
  have hord : InOrder n (I.rank s) := InOrder.mono h (by omega)
  refine hord.hole (fun k hk hki => ?_) hin
  rw [rank_swap hi (by omega), Equiv.swap_apply_of_ne_of_ne hki (by omega)]

/-- **Pop.** The root is removed, and the heap stays one. `P` holds before the removal of the last element. -/
theorem heapPop_spec (h : I.IsHeap s) (hswap : I.SwapClosed P) (hs : P s) (ha : (I.view s)[0]? = some a) :
    ∃ t u, P t ∧ I.pop t = some (a, u) ∧ I.heapPop s = some (a, u) ∧ (I.view s).Perm (a :: I.view u) ∧ I.key u = I.key s ∧
      I.IsHeap u := by
  have hpos : 0 < (I.view s).length := (List.getElem?_eq_some_iff.mp ha).1
  obtain ⟨n, hn⟩ : ∃ n, (I.view s).length = n + 1 := ⟨_, (Nat.sub_add_cancel hpos).symm⟩
  have hlast : I.len s - 1 = n := by rw [I.len_eq, hn, Nat.add_sub_cancel]
  obtain ⟨l, rfl, hview, hperm, hkey, hhole⟩ := swap_last h hn ha
  have hr : Rearranged I P (I.key s) l [a] (I.swap s 0 l.length) :=
    ⟨⟨l, hview, .refl l⟩, hkey, hswap s 0 _ hpos (by omega) hs⟩
  obtain ⟨⟨l', hl', hperm'⟩, hkey', hP⟩ := hr.down hswap (i := 0)
  have hord : InOrder l'.length (I.rank (I.down (I.swap s 0 l.length) 0 l.length).1) := by
    rw [hperm'.length_eq]
    rcases Nat.eq_zero_or_pos l.length with h0 | h0
    · intro k _ hk
      omega
    · exact down_inOrder hr.length_le h0 (hhole h0)
  obtain ⟨u, hpop, hu, hku, hheap⟩ := pop_isHeap hl' hord
  refine ⟨_, u, hP, hpop, ?_, ?_, hku.trans hkey', hheap⟩
  · unfold heapPop
    rw [hlast]
    exact hpop
  · rw [hu]
    exact hperm.trans (hperm'.symm.cons a)

/-- **Remove.** The element at a position is removed, and the heap stays one. -/
theorem heapRemove_spec (h : I.IsHeap s) (hswap : I.SwapClosed P) (hs : P s) (ha : (I.view s)[i]? = some a) :
    ∃ t u, P t ∧ I.pop t = some (a, u) ∧ I.heapRemove s i = some (a, u) ∧ (I.view s).Perm (a :: I.view u) ∧ I.key u = I.key s ∧
      I.IsHeap u := by
  have hi : i < (I.view s).length := (List.getElem?_eq_some_iff.mp ha).1
  obtain ⟨n, hn⟩ : ∃ n, (I.view s).length = n + 1 := ⟨_, (Nat.sub_add_cancel (by omega)).symm⟩
  have hlast : I.len s - 1 = n := by rw [I.len_eq, hn, Nat.add_sub_cancel]
  unfold heapRemove
  rw [hlast]
  by_cases hin : n = i
  · subst hin
    obtain ⟨l, hl⟩ := eq_append_last hn ha
    have hord : InOrder l.length (I.rank s) := InOrder.mono h (by rw [hl, List.length_append]; exact Nat.le_add_right _ _)
    obtain ⟨u, hpop, hu, hku, hheap⟩ := pop_isHeap hl hord
    refine ⟨s, u, hs, hpop, (if_pos rfl).trans hpop, ?_, hku, hheap⟩
    rw [hu, hl]
    exact List.perm_append_singleton a l
  · obtain ⟨l, rfl, hview, hperm, hkey, hhole⟩ := swap_last h hn ha
    have hr : Rearranged I P (I.key s) l [a] (I.swap s i l.length) :=
      ⟨⟨l, hview, .refl l⟩, hkey, hswap s i _ hi (by omega) hs⟩
    have hfix : Rearranged I P (I.key s) l [a] (if (I.down (I.swap s i l.length) i l.length).2 then
        (I.down (I.swap s i l.length) i l.length).1 else I.up (I.down (I.swap s i l.length) i l.length).1 i) := by
      split
      case isTrue => exact hr.down hswap
      case isFalse => exact (hr.down hswap).up hswap (by omega)
    obtain ⟨⟨l', hl', hperm'⟩, hkey', hP⟩ := hfix
    have hord := fix_inOrder hr.length_le (by omega) (hhole (by omega))
    rw [← hperm'.length_eq] at hord
    obtain ⟨u, hpop, hu, hku, hheap⟩ := pop_isHeap hl' (by rwa [hperm'.length_eq] at hord ⊢)
    refine ⟨_, u, hP, hpop, (if_neg hin).trans hpop, ?_, hku.trans hkey', hheap⟩
    rw [hu]
    exact hperm.trans (hperm'.symm.cons a)

end Operations

end Interface

end Heap

end GoSmpp.Lib
