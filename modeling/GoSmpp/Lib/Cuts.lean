import GoSmpp.Lib.Lists
import Mathlib.Order.Bounds.Basic

/-!
# Cuts that keep pairs together

Some elements of a list are the first of a pair with the element behind them: `lead` says which.

* `PairCut lead limit l parts`: `l` cut into parts of at most `limit` elements, none of which ends within a pair.
* `pairChunks lead limit l`: the greedy cut, which takes as much as it can each time.
* `cut_pairChunks`: it is a cut, when every pair of the list is complete (`Paired`).
* `isLeast_length_pairChunks`: and no cut has fewer parts.
-/

namespace GoSmpp.Lib

variable {α : Type} (lead : α → Bool)

/-- The list does not end within a pair. -/
def PairClosed (l : List α) : Prop := ∀ a ∈ l.getLast?, lead a = false

/-- Every pair of the list is complete: behind its first element there is one that begins no pair. -/
def Paired (l : List α) : Prop := ∀ (i : Nat) (a : α), l[i]? = some a → lead a = true → ∃ b, l[i + 1]? = some b ∧ lead b = false

/-- One element that begins no pair, or a pair. -/
inductive PairShape : List α → Prop where
  | single {a : α} (h : lead a = false) : PairShape [a]
  | pair {a b : α} (h : lead a = true) (hb : lead b = false) : PairShape [a, b]

structure PairCut (limit : Nat) (l : List α) (parts : List (List α)) : Prop where
  flatten : parts.flatten = l
  short : ∀ p ∈ parts, p.length ≤ limit
  closed : ∀ p ∈ parts, PairClosed lead p

/-- How much the greedy cut takes: the limit, or one less to keep a pair together. -/
def pairSize (limit : Nat) (l : List α) : Nat :=
  let n := min l.length limit
  if n < l.length ∧ l[n - 1]?.any lead then n - 1 else n

def pairChunks (limit : Nat) (l : List α) : List (List α) := chunks (pairSize lead limit) l

variable {lead} {limit : Nat} {l : List α}

theorem pairClosed_nil : PairClosed lead [] := fun _ ha => by cases ha

theorem pairClosed_append {l' : List α} (hne : l' ≠ []) : PairClosed lead (l ++ l') ↔ PairClosed lead l' := by
  rw [PairClosed, PairClosed, List.getLast?_append_of_ne_nil l hne]

theorem pairClosed_of_cons {a : α} (h : PairClosed lead (a :: l)) : PairClosed lead l := by
  by_cases hl : l = []
  · rw [hl]
    exact pairClosed_nil
  · exact (pairClosed_append (l := [a]) hl).mp h

theorem Paired.cons {a : α} (h : Paired lead l) (ha : lead a = false) : Paired lead (a :: l) := by
  intro i b hb hlead
  cases i with
  | zero =>
    cases hb
    rw [ha] at hlead
    exact Bool.noConfusion hlead
  | succ i => exact h i b hb hlead

theorem Paired.cons_pair {a b : α} (h : Paired lead l) (hb : lead b = false) : Paired lead (a :: b :: l) := by
  intro i c hc hlead
  cases i with
  | zero => exact ⟨b, rfl, hb⟩
  | succ i => exact h.cons hb i c hc hlead

theorem Paired.drop (h : Paired lead l) (n : Nat) : Paired lead (l.drop n) := by
  intro i a ha hlead
  rw [List.getElem?_drop] at ha
  rw [List.getElem?_drop, ← Nat.add_assoc]
  exact h (n + i) a ha hlead

theorem Paired.closed (h : Paired lead l) : PairClosed lead l := by
  intro a ha
  by_contra hlead
  rw [List.getLast?_eq_getElem?] at ha
  obtain ⟨b, hb, -⟩ := h _ a ha (eq_true_of_ne_false hlead)
  have hlt := (List.getElem?_eq_some_iff.mp ha).choose
  have hlt' := (List.getElem?_eq_some_iff.mp hb).choose
  omega

/-! ## The size of the next part -/

theorem pairSize_le_length (limit : Nat) (l : List α) : pairSize lead limit l ≤ l.length := by
  simp only [pairSize]
  split <;> omega

theorem pairSize_le_limit (limit : Nat) (l : List α) : pairSize lead limit l ≤ limit := by
  simp only [pairSize]
  split <;> omega

theorem pairSize_pos (hlimit : 2 ≤ limit) (l : List α) (hl : l ≠ []) : 0 < pairSize lead limit l := by
  have hlen : 0 < l.length := List.length_pos_iff.mpr hl
  simp only [pairSize]
  split <;> omega

theorem pairSize_of_length_le (h : l.length ≤ limit) : pairSize lead limit l = l.length := by
  rw [pairSize, Nat.min_eq_left h, if_neg fun hcut => Nat.lt_irrefl _ hcut.1]

theorem pairSize_of_forall (h : ∀ a ∈ l, lead a = false) (limit : Nat) : pairSize lead limit l = min l.length limit := by
  refine if_neg fun hcut => ?_
  obtain ⟨a, ha, hlead⟩ := (Option.any_eq_true _ _).mp hcut.2
  rw [h a (List.mem_of_getElem? ha)] at hlead
  exact Bool.noConfusion hlead

theorem pairClosed_take {n : Nat} (hn : n ≤ l.length) :
    PairClosed lead (l.take n) ↔ (0 < n → l[n - 1]?.any lead = false) := by
  cases n with
  | zero => exact ⟨fun _ h0 => absurd h0 (Nat.lt_irrefl 0), fun _ => pairClosed_nil⟩
  | succ n =>
    have hlast : (l.take (n + 1)).getLast? = l[n]? := by
      rw [List.getLast?_eq_getElem?, List.length_take, Nat.min_eq_left hn, List.getElem?_take]
      exact if_pos n.lt_succ_self
    rw [PairClosed, hlast, Nat.add_sub_cancel, List.getElem?_eq_getElem hn]
    simp

theorem Paired.closed_take (h : Paired lead l) (limit : Nat) : PairClosed lead (l.take (pairSize lead limit l)) := by
  simp only [pairSize]
  split
  case isTrue hcut =>
    -- the element behind the part begins a pair, so the last one of the part does not
    obtain ⟨hlt, hlead⟩ := hcut
    rw [pairClosed_take (by omega)]
    intro hpos
    by_contra hbefore
    obtain ⟨a, ha, halead⟩ := (Option.any_eq_true _ _).mp (eq_true_of_ne_false hbefore)
    obtain ⟨b, hb, hblead⟩ := h _ a ha halead
    rw [Nat.sub_add_cancel hpos] at hb
    rw [hb, Option.any_some, hblead] at hlead
    exact Bool.noConfusion hlead
  case isFalse hcut =>
    by_cases hlt : min l.length limit < l.length
    · rw [pairClosed_take (by omega)]
      exact fun _ => eq_false_of_ne_true fun hlead => hcut ⟨hlt, hlead⟩
    · rw [List.take_of_length_le (Nat.le_of_not_lt hlt)]
      exact h.closed

theorem length_le_pairSize {q : List α} (hq : q <+: l) (hshort : q.length ≤ limit) (hclosed : PairClosed lead q) :
    q.length ≤ pairSize lead limit l := by
  have hlen := hq.length_le
  simp only [pairSize]
  split
  case isFalse => omega
  case isTrue hcut =>
    obtain ⟨hlt, hlead⟩ := hcut
    by_contra hlong
    have hn : q.length = min l.length limit := by omega
    rw [List.prefix_iff_eq_take.mp hq, pairClosed_take hlen, hn] at hclosed
    rw [hclosed (by omega)] at hlead
    exact Bool.noConfusion hlead

theorem pairSize_of_full {cur code : List α} (hcode : PairShape lead code) (hshort : cur.length ≤ limit)
    (hclosed : PairClosed lead cur) (hfull : limit < cur.length + code.length) (l : List α) :
    pairSize lead limit (cur ++ (code ++ l)) = cur.length := by
  have hle : cur.length ≤ pairSize lead limit (cur ++ (code ++ l)) :=
    length_le_pairSize (List.prefix_append _ _) hshort hclosed
  have hge : pairSize lead limit (cur ++ (code ++ l)) ≤ limit := pairSize_le_limit _ _
  cases hcode with
  | single =>
    rw [List.length_singleton] at hfull
    omega
  | @pair a b ha =>
    -- of the two elements of the pair there is room for none, or for the first
    rw [List.length_cons, List.length_singleton] at hfull
    by_cases hroom : limit = cur.length
    · omega
    · have hlimit : limit = cur.length + 1 := by omega
      have hmin : min (cur ++ ([a, b] ++ l)).length limit = cur.length + 1 := by
        simp only [List.length_append, List.length_cons, List.length_nil]
        omega
      have hnext : (cur ++ ([a, b] ++ l))[cur.length + 1 - 1]? = some a := by
        rw [Nat.add_sub_cancel, List.getElem?_append_right (Nat.le_refl _), Nat.sub_self]
        rfl
      simp only [pairSize, hmin, hnext, Option.any_some, ha, and_true]
      rw [if_pos, Nat.add_sub_cancel]
      simp only [List.length_append, List.length_cons, List.length_nil]
      omega

/-! ## The greedy cut -/

theorem cut_pairChunks (hlimit : 2 ≤ limit) (h : Paired lead l) : PairCut lead limit l (pairChunks lead limit l) := by
  refine chunks_induction (pairSize_pos hlimit) (motive := fun l parts => Paired lead l → PairCut lead limit l parts)
    (fun _ => ⟨rfl, fun _ hp => absurd hp List.not_mem_nil, fun _ hp => absurd hp List.not_mem_nil⟩)
    (fun l _ ih hl => ?_) l h
  have hrest := ih (hl.drop _)
  have htake : (l.take (pairSize lead limit l)).length ≤ limit := by
    rw [List.length_take]
    exact Nat.le_trans (Nat.min_le_left _ _) (pairSize_le_limit limit l)
  exact {
    flatten := by rw [List.flatten_cons, hrest.flatten, List.take_append_drop]
    short := List.forall_mem_cons.mpr ⟨htake, hrest.short⟩
    closed := List.forall_mem_cons.mpr ⟨hl.closed_take limit, hrest.closed⟩ }

theorem length_pairChunks_pos (hlimit : 2 ≤ limit) (hl : 0 < l.length) : 0 < (pairChunks lead limit l).length := by
  rw [pairChunks, chunks_of_ne_nil (pairSize_pos hlimit) (List.length_pos_iff.mp hl)]
  exact Nat.succ_pos _

theorem length_pairChunks_le_one (hlimit : 2 ≤ limit) : (pairChunks lead limit l).length ≤ 1 ↔ l.length ≤ limit := by
  by_cases hl : l = []
  · rw [hl]
    exact ⟨fun _ => Nat.zero_le _, fun _ => Nat.zero_le _⟩
  · rw [pairChunks, chunks_of_ne_nil (pairSize_pos hlimit) hl, List.length_cons]
    constructor
    · intro hone
      have hrest : chunks (pairSize lead limit) (l.drop (pairSize lead limit l)) = [] :=
        List.eq_nil_of_length_eq_zero (by omega)
      have hflat : (chunks (pairSize lead limit) (l.drop (pairSize lead limit l))).flatten = _ :=
        flatten_chunks (pairSize_pos hlimit) _
      rw [hrest] at hflat
      have hlen : l.length ≤ pairSize lead limit l := List.drop_eq_nil_iff.mp hflat.symm
      exact hlen.trans (pairSize_le_limit limit l)
    · intro hfits
      rw [pairSize_of_length_le hfits, List.drop_length]
      exact Nat.le_refl 1

theorem length_pairChunks_le_of_suffix (hlimit : 2 ≤ limit) : ∀ (cut : List (List α)) (ahead l : List α),
    PairCut lead limit (ahead ++ l) cut → (pairChunks lead limit l).length ≤ cut.length
  | [], ahead, l, hcut => by
    have hnil : ahead ++ l = [] := hcut.flatten.symm
    rw [(List.append_eq_nil_iff.mp hnil).2]
    exact Nat.le_refl 0
  | c :: cut, ahead, l, hcut => by
    by_cases hl : l = []
    · rw [hl]
      exact Nat.zero_le _
    · rw [pairChunks, chunks_of_ne_nil (pairSize_pos hlimit) hl, List.length_cons, List.length_cons]
      have hflat : c ++ cut.flatten = ahead ++ l := hcut.flatten
      -- the greedy part reaches at least as far as the part of the other cut
      have hreach : c.length ≤ ahead.length + pairSize lead limit l := by
        by_cases hshort : c.length ≤ ahead.length
        · omega
        · have hpre : c <+: ahead ++ l := ⟨_, hflat⟩
          obtain ⟨q, rfl⟩ : ahead <+: c :=
            List.prefix_of_prefix_length_le (List.prefix_append ahead l) hpre (Nat.le_of_not_le hshort)
          have hq : q <+: l := (List.prefix_append_right_inj ahead).mp hpre
          have hne : q ≠ [] := by
            rintro rfl
            rw [List.append_nil] at hshort
            exact hshort (Nat.le_refl _)
          have hclosed := (pairClosed_append hne).mp (hcut.closed _ List.mem_cons_self)
          have hc : (ahead ++ q).length ≤ limit := hcut.short _ List.mem_cons_self
          rw [List.length_append] at hc ⊢
          have hle : q.length ≤ pairSize lead limit l := length_le_pairSize hq (by omega) hclosed
          omega
      have hrest : cut.flatten = (ahead ++ l.take (pairSize lead limit l)).drop c.length ++ l.drop (pairSize lead limit l) := by
        have hsplit : c ++ cut.flatten = (ahead ++ l.take (pairSize lead limit l)) ++ l.drop (pairSize lead limit l) := by
          rw [hflat, List.append_assoc, List.take_append_drop]
        have hlen : c.length ≤ (ahead ++ l.take (pairSize lead limit l)).length := by
          have hsize : pairSize lead limit l ≤ l.length := pairSize_le_length limit l
          rw [List.length_append, List.length_take]
          omega
        rw [← List.drop_append_of_le_length hlen, ← hsplit, List.drop_left]
      have hcut' : PairCut lead limit _ cut := ⟨hrest, fun p hp => hcut.short p (List.mem_cons_of_mem c hp),
        fun p hp => hcut.closed p (List.mem_cons_of_mem c hp)⟩
      exact Nat.succ_le_succ (length_pairChunks_le_of_suffix hlimit cut _ _ hcut')

/-- **No cut has fewer parts than the greedy one.** -/
theorem isLeast_length_pairChunks (hlimit : 2 ≤ limit) (h : Paired lead l) :
    IsLeast {n | ∃ cut, PairCut lead limit l cut ∧ cut.length = n} (pairChunks lead limit l).length := by
  refine ⟨⟨_, cut_pairChunks hlimit h, rfl⟩, ?_⟩
  rintro n ⟨cut, hcut, rfl⟩
  exact length_pairChunks_le_of_suffix hlimit cut [] l hcut

end GoSmpp.Lib
