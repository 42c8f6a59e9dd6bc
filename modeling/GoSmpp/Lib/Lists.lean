import Mathlib.Data.List.Basic
import Mathlib.Data.List.Induction
import Mathlib.Data.List.Sort

/-!
# Cutting, sorting and comparing lists

* `chunks size l`: `l` cut from the left into pieces, each as long as `size` says for what is left. The pieces make up `l`
  when no size is zero (`flatten_chunks`); `chunks_induction` is the induction over them.
* `takeThrough p l`: `l` up to its first element with `p`, and that one.
* `Sorter key`: a sorting function, of which nothing is known but that it returns a sorted permutation. Where the keys are
  distinct that determines the result (`Sorter.sort_eq`).
* `Unanimous start readings out`: all readings are the value `out`, as is `start`. Neither the order of the readings nor
  their number matters (`unanimous_congr`).
-/

namespace GoSmpp.Lib

theorem getElem?_append_some {α : Type*} {l : List α} {i : Nat} {a : α} (h : l[i]? = some a) (l' : List α) :
    (l ++ l')[i]? = some a := by
  rw [List.getElem?_append_left (List.getElem?_eq_some_iff.mp h).1]
  exact h

variable {α : Type}

/-- At most `fuel` pieces of a list. -/
def chunksFrom (size : List α → Nat) : Nat → List α → List (List α)
  | 0, _ => []
  | _ + 1, [] => []
  | fuel + 1, a :: l => (a :: l).take (size (a :: l)) :: chunksFrom size fuel ((a :: l).drop (size (a :: l)))

def chunks (size : List α → Nat) (l : List α) : List (List α) := chunksFrom size l.length l

section Chunks
variable {size : List α → Nat} (hsize : ∀ l, l ≠ [] → 0 < size l)
include hsize

theorem flatten_chunksFrom : ∀ (fuel : Nat) (l : List α), l.length ≤ fuel → (chunksFrom size fuel l).flatten = l
  | 0, l, h => (List.eq_nil_of_length_eq_zero (Nat.le_zero.mp h)).symm
  | _ + 1, [], _ => rfl
  | fuel + 1, a :: l, h => by
    have hpos := hsize (a :: l) (List.cons_ne_nil a l)
    have hlen : ((a :: l).drop (size (a :: l))).length ≤ fuel := by
      rw [List.length_drop]
      omega
    rw [chunksFrom, List.flatten_cons, flatten_chunksFrom fuel _ hlen, List.take_append_drop]

/-- **The pieces make up the list.** -/
theorem flatten_chunks (l : List α) : (chunks size l).flatten = l := flatten_chunksFrom hsize _ _ (Nat.le_refl _)

/-- More fuel makes no difference. -/
theorem chunksFrom_eq : ∀ (fuel fuel' : Nat) (l : List α), l.length ≤ fuel → l.length ≤ fuel' →
    chunksFrom size fuel l = chunksFrom size fuel' l
  | 0, fuel', l, h, _ => by
    rw [List.eq_nil_of_length_eq_zero (Nat.le_zero.mp h)]
    cases fuel' <;> rfl
  | fuel + 1, 0, l, _, h => by
    rw [List.eq_nil_of_length_eq_zero (Nat.le_zero.mp h)]
    rfl
  | fuel + 1, fuel' + 1, [], _, _ => rfl
  | fuel + 1, fuel' + 1, a :: l, h, h' => by
    have hpos := hsize (a :: l) (List.cons_ne_nil a l)
    have hlen : ((a :: l).drop (size (a :: l))).length ≤ l.length := by
      rw [List.length_drop, List.length_cons]
      omega
    rw [chunksFrom, chunksFrom, chunksFrom_eq fuel fuel' _ (hlen.trans (Nat.le_of_succ_le_succ h))
      (hlen.trans (Nat.le_of_succ_le_succ h'))]

theorem chunks_of_ne_nil {l : List α} (h : l ≠ []) : chunks size l = l.take (size l) :: chunks size (l.drop (size l)) := by
  obtain ⟨a, l, rfl⟩ := List.exists_cons_of_ne_nil h
  have hpos := hsize (a :: l) h
  have hlen : ((a :: l).drop (size (a :: l))).length ≤ l.length := by
    rw [List.length_drop, List.length_cons]
    omega
  rw [chunks, List.length_cons, chunksFrom, chunksFrom_eq hsize l.length _ _ hlen (Nat.le_refl _), ← chunks]

/-- The induction over the pieces. -/
theorem chunks_induction {motive : List α → List (List α) → Prop} (nil : motive [] [])
    (piece : ∀ l, l ≠ [] → motive (l.drop (size l)) (chunks size (l.drop (size l))) →
      motive l (l.take (size l) :: chunks size (l.drop (size l)))) (l : List α) : motive l (chunks size l) := by
  induction hn : l.length using Nat.strongRecOn generalizing l with
  | ind n ih =>
    by_cases hl : l = []
    · rw [hl]
      exact nil
    · have hpos := hsize l hl
      have hlen : 0 < l.length := List.length_pos_iff.mpr hl
      rw [chunks_of_ne_nil hsize hl]
      refine piece l hl (ih _ ?_ _ rfl)
      rw [List.length_drop]
      omega

end Chunks

section FlatMap
variable {β : Type} {g : α → List β} {w : Nat} (hg : ∀ a, (g a).length = w)
include hg

theorem take_drop_flatMap (n : Nat) (l : List α) : (l.flatMap g).take (w * n) = (l.take n).flatMap g ∧
    (l.flatMap g).drop (w * n) = (l.drop n).flatMap g := by
  induction l generalizing n with
  | nil => simp
  | cons a l ih =>
    cases n with
    | zero => simp
    | succ n =>
      have hle : (g a).length ≤ w * (n + 1) := by rw [hg, Nat.mul_succ]; omega
      have hsub : w * (n + 1) - (g a).length = w * n := by rw [hg, Nat.mul_succ]; omega
      rw [List.flatMap_cons, List.take_append, List.drop_append, List.take_of_length_le hle, List.drop_of_length_le hle,
        hsub, (ih n).1, (ih n).2]
      exact ⟨rfl, rfl⟩

theorem chunks_flatMap {size : List α → Nat} {size' : List β → Nat} {P : List α → Prop}
    (hsize : ∀ l, l ≠ [] → 0 < size l) (hsize' : ∀ l, l ≠ [] → 0 < size' l) (hw : 0 < w)
    (hP : ∀ l, P l → P (l.drop (size l))) (hcompat : ∀ l, P l → size' (l.flatMap g) = w * size l) (l : List α) (hl : P l) :
    chunks size' (l.flatMap g) = (chunks size l).map (·.flatMap g) := by
  refine chunks_induction hsize (motive := fun l parts => P l → chunks size' (l.flatMap g) = parts.map (·.flatMap g))
    (fun _ => rfl) (fun l hne ih hl => ?_) l hl
  have hne' : l.flatMap g ≠ [] := by
    obtain ⟨a, l, rfl⟩ := List.exists_cons_of_ne_nil hne
    intro hnil
    have hlen := congrArg List.length hnil
    rw [List.flatMap_cons, List.length_append, hg, List.length_nil] at hlen
    omega
  obtain ⟨htake, hdrop⟩ := take_drop_flatMap hg (size l) l
  rw [chunks_of_ne_nil hsize' hne', hcompat l hl, htake, hdrop, ih (hP l hl), List.map_cons]

end FlatMap

section TakeThrough
variable (p : α → Bool)

/-- The list up to its first element with `p`, and that one. -/
def takeThrough : List α → List α
  | [] => []
  | a :: l => if p a then [a] else a :: takeThrough l

variable {p} {a : α} {l : List α}

theorem takeThrough_append (h : ∀ a ∈ l, p a = false) (l' : List α) : takeThrough p (l ++ l') = l ++ takeThrough p l' := by
  induction l with
  | nil => rfl
  | cons a l ih =>
    have ha : p a = false := h a List.mem_cons_self
    rw [List.cons_append, takeThrough, ha, ih fun b hb => h b (List.mem_cons_of_mem a hb)]
    rfl

theorem takeThrough_eq_self (h : ∀ a ∈ l, p a = false) : takeThrough p l = l := by
  have := takeThrough_append h []
  rwa [takeThrough, List.append_nil] at this

theorem takeThrough_cons_pos (h : p a) (l' : List α) : takeThrough p (a :: l') = [a] := by rw [takeThrough, if_pos h]

theorem prefix_takeThrough (h : ∀ a ∈ l.dropLast, p a = false) (l' : List α) : l <+: takeThrough p (l ++ l') := by
  cases l using List.reverseRecOn with
  | nil => exact List.nil_prefix
  | append_singleton l a =>
    rw [List.dropLast_concat] at h
    rw [List.append_assoc, takeThrough_append h, List.prefix_append_right_inj, List.singleton_append, takeThrough]
    split
    · exact List.prefix_refl _
    · exact ⟨_, rfl⟩

end TakeThrough

/-- A function that sorts by `key`; elements with the same key may come in any order. -/
structure Sorter (key : α → Nat) where
  sort : List α → List α
  perm : ∀ l, (sort l).Perm l
  sorted : ∀ l, (sort l).Pairwise fun a b => key a ≤ key b

namespace Sorter
variable {key : α → Nat}

theorem sort_eq (S : Sorter key) {l l' : List α} (hl : l.Pairwise fun a b => key a < key b) (hp : l'.Perm l) :
    S.sort l' = l := by
  have hsort : (S.sort l').Perm l := (S.perm l').trans hp
  have hnodup : (l.map key).Nodup := List.pairwise_map.mpr (hl.imp Nat.ne_of_lt)
  have hinj : ∀ a ∈ l, ∀ b ∈ l, key a = key b → a = b := fun a ha b hb => List.inj_on_of_nodup_map hnodup ha hb
  exact hsort.eq_of_pairwise (fun a b ha hb h₁ h₂ => hinj a (hsort.subset ha) b hb (Nat.le_antisymm h₁ h₂)) (S.sorted l')
    (hl.imp Nat.le_of_lt)

def merge (key : α → Nat) : Sorter key where
  sort l := l.mergeSort fun a b => decide (key a ≤ key b)
  perm l := List.mergeSort_perm l _
  sorted l := by
    have htrans : ∀ a b c : α, decide (key a ≤ key b) = true → decide (key b ≤ key c) = true →
        decide (key a ≤ key c) = true := fun a b c h₁ h₂ =>
      decide_eq_true (Nat.le_trans (of_decide_eq_true h₁) (of_decide_eq_true h₂))
    have htotal : ∀ a b : α, (decide (key a ≤ key b) || decide (key b ≤ key a)) = true := fun a b => by
      simp only [Bool.or_eq_true, decide_eq_true_eq]
      omega
    exact (List.pairwise_mergeSort htrans htotal l).imp of_decide_eq_true

end Sorter

/-! ## Readings of one value -/

/-- Every reading is `out`, and so is `start`; without either `out` is none. A reading that is none has failed. -/
structure Unanimous (start : Option α) (readings : List (Option α)) (out : Option α) : Prop where
  agree : ∀ r ∈ readings, r.isSome = true ∧ r = out
  keep : ∀ a, start = some a → out = some a
  empty : start = none → readings = [] → out = none

section Unanimous
variable {start out : Option α} {readings readings' : List (Option α)}

theorem unanimous_nil : Unanimous start [] out ↔ out = start := by
  constructor
  · intro h
    cases start with
    | none => exact h.empty rfl rfl
    | some a => exact h.keep a rfl
  · rintro rfl
    refine ⟨?_, fun _ h => h, fun h _ => h⟩
    intro r hr
    cases hr

theorem unanimous_cons {r : Option α} : Unanimous start (r :: readings) out ↔
    ∃ a, r = some a ∧ (start = none ∨ start = some a) ∧ Unanimous (some a) readings out := by
  constructor
  · intro h
    obtain ⟨hsome, hout⟩ := h.agree r List.mem_cons_self
    obtain ⟨a, rfl⟩ := Option.isSome_iff_exists.mp hsome
    refine ⟨a, rfl, ?_, fun r hr => h.agree r (List.mem_cons_of_mem _ hr), ?_, ?_⟩
    · cases start with
      | none => exact .inl rfl
      | some b => exact .inr ((h.keep b rfl).symm.trans hout.symm)
    · rintro b hb
      exact hout.symm.trans hb
    · intro hnone
      cases hnone
  · rintro ⟨a, rfl, hstart, h⟩
    have hout := h.keep a rfl
    refine ⟨?_, ?_, ?_⟩
    · intro r hr
      rcases List.mem_cons.mp hr with rfl | hr
      · exact ⟨rfl, hout.symm⟩
      · exact h.agree r hr
    · rintro b rfl
      rcases hstart with hstart | hstart
      · cases hstart
      · exact hout.trans hstart.symm
    · intro _ hnil
      cases hnil

theorem unanimous_congr (h : ∀ r, r ∈ readings ↔ r ∈ readings') :
    Unanimous start readings out ↔ Unanimous start readings' out := by
  have hnil : readings = [] ↔ readings' = [] := by
    rw [List.eq_nil_iff_forall_not_mem, List.eq_nil_iff_forall_not_mem]
    exact forall_congr' fun r => not_congr (h r)
  constructor
  · intro hu
    exact ⟨fun r hr => hu.agree r ((h r).mpr hr), hu.keep, fun hs he => hu.empty hs (hnil.mpr he)⟩
  · intro hu
    exact ⟨fun r hr => hu.agree r ((h r).mp hr), hu.keep, fun hs he => hu.empty hs (hnil.mp he)⟩

theorem Unanimous.mem {a : α} (h : Unanimous none readings (some a)) : some a ∈ readings := by
  cases readings with
  | nil => cases h.empty rfl rfl
  | cons r rs =>
    rw [← (h.agree r List.mem_cons_self).2]
    exact List.mem_cons_self

theorem Unanimous.eq_none_iff (h : Unanimous none readings out) : out = none ↔ readings = [] := by
  constructor
  · rintro rfl
    refine List.eq_nil_iff_forall_not_mem.mpr ?_
    intro r hr
    obtain ⟨hsome, rfl⟩ := h.agree r hr
    cases hsome
  · exact h.empty rfl

theorem exists_unanimous {a : α} (h : ∀ r ∈ readings, r = some a) : ∃ out, Unanimous none readings out := by
  cases readings with
  | nil => exact ⟨none, unanimous_nil.mpr rfl⟩
  | cons r rs =>
    refine ⟨some a, ⟨?_, ?_, ?_⟩⟩
    · intro r hr
      rw [h r hr]
      exact ⟨rfl, rfl⟩
    · intro b hb
      cases hb
    · intro _ hnil
      cases hnil

end Unanimous

end GoSmpp.Lib
