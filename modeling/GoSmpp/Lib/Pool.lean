import Mathlib.Data.List.Basic
import Mathlib.Data.List.Perm.Subperm

/-!
# Lists as pools and tables

Counting in a list one of whose elements is replaced (`countP_modify`), what has either of two properties (`countP_or`), at
distinct places (`length_le_countP`), in one that an element is taken out of (`perm_of_find?`), and in an association list
that an entry is found in and deleted from (`lookup_of_mem`, `mem_of_lookup`, `perm_of_lookup`).
-/

namespace GoSmpp.Lib

variable {α κ β : Type*}

theorem countP_modify (p : α → Bool) (f : α → α) {l : List α} {i : Nat} {a : α} (h : l[i]? = some a) :
    (l.modify i f).countP p + (p a).toNat = l.countP p + (p (f a)).toNat := by
  induction l generalizing i with
  | nil => cases h
  | cons b l ih =>
    cases i with
    | zero =>
      cases h
      simp only [List.modify_zero_cons, List.countP_cons]
      cases p a <;> cases p (f a) <;> simp
    | succ i =>
      have := ih h
      simp only [List.modify_succ_cons, List.countP_cons]
      omega

theorem countP_or (p q : α → Bool) {l : List α} (h : ∀ a ∈ l, p a → q a = false) :
    (l.countP fun a => p a || q a) = l.countP p + l.countP q := by
  induction l with
  | nil => rfl
  | cons b l ih =>
    have ih := ih fun a ha => h a (List.mem_cons_of_mem _ ha)
    have hb := h b List.mem_cons_self
    simp only [List.countP_cons, ih]
    cases hp : p b
    · cases q b
      · simp
      · simp
        omega
    · rw [hb hp]
      simp
      omega

theorem countP_range_getElem? (p : α → Bool) (l : List α) :
    ((List.range l.length).countP fun i => l[i]?.any p) = l.countP p := by
  have hmap : (List.range l.length).map (l[·]?) = l.map some := by
    apply List.ext_getElem <;> simp
  calc (List.range l.length).countP (fun i => l[i]?.any p)
      = ((List.range l.length).map (l[·]?)).countP (·.any p) := by rw [List.countP_map]; rfl
    _ = l.countP p := by rw [hmap, List.countP_map]; rfl

theorem length_le_countP {p : α → Bool} {l : List α} {is : List Nat} (hnd : is.Nodup)
    (h : ∀ i ∈ is, ∃ a, l[i]? = some a ∧ p a) : is.length ≤ l.countP p := by
  have hsub : is ⊆ (List.range l.length).filter fun i => l[i]?.any p := by
    intro i hi
    obtain ⟨a, ha, hp⟩ := h i hi
    rw [List.mem_filter, List.mem_range, ha]
    exact ⟨(List.getElem?_eq_some_iff.mp ha).1, hp⟩
  have hle := (hnd.subperm hsub).length_le
  rwa [← List.countP_eq_length_filter, countP_range_getElem?] at hle

theorem perm_of_find? {q : α → Bool} {l : List α} {a : α} (h : l.find? q = some a) : l.Perm (a :: l.eraseP q) := by
  induction l with
  | nil => cases h
  | cons b l ih =>
    by_cases hb : q b = true
    · rw [List.find?_cons_of_pos hb] at h
      cases h
      rw [List.eraseP_cons_of_pos hb]
    · rw [List.find?_cons_of_neg hb] at h
      rw [List.eraseP_cons_of_neg hb]
      exact ((ih h).cons b).trans (.swap a b _)

theorem not_mem_eraseP {q : α → Bool} {l : List α} {a : α} (h : l.countP q ≤ 1) (ha : q a) : a ∉ l.eraseP q := by
  intro hmem
  cases hf : l.find? q with
  | none => exact List.find?_eq_none.mp hf a (List.mem_of_mem_eraseP hmem) ha
  | some b =>
    have hcount := (perm_of_find? hf).countP_eq q
    rw [List.countP_cons_of_pos (List.find?_some hf)] at hcount
    have : 0 < (l.eraseP q).countP q := List.countP_pos_iff.mpr ⟨a, hmem, ha⟩
    omega

theorem lookup_of_mem [BEq κ] [LawfulBEq κ] {l : List (κ × β)} {k : κ} {v : β} (hnd : (l.map (·.1)).Nodup)
    (h : (k, v) ∈ l) : l.lookup k = some v := by
  induction l with
  | nil => exact absurd h List.not_mem_nil
  | cons e l ih =>
    obtain ⟨hnot, hnd⟩ := List.nodup_cons.mp hnd
    rcases List.mem_cons.mp h with rfl | h
    · exact List.lookup_cons_self
    · have hne : (k == e.1) = false := by
        refine beq_false_of_ne ?_
        rintro rfl
        exact hnot (List.mem_map.mpr ⟨_, h, rfl⟩)
      rw [List.lookup_cons, hne]
      exact ih hnd h

theorem mem_of_lookup [BEq κ] [LawfulBEq κ] {l : List (κ × β)} {k : κ} {v : β} (h : l.lookup k = some v) : (k, v) ∈ l := by
  obtain ⟨l₁, l₂, rfl, -⟩ := List.lookup_eq_some_iff.mp h
  exact List.mem_append_right _ List.mem_cons_self

theorem find?_of_lookup [BEq κ] [LawfulBEq κ] {l : List (κ × β)} {k : κ} {v : β} (h : l.lookup k = some v) :
    l.find? (·.1 == k) = some (k, v) := by
  induction l with
  | nil => cases h
  | cons e l ih =>
    obtain ⟨k', v'⟩ := e
    by_cases hk : k = k'
    · subst hk
      rw [List.lookup_cons_self] at h
      cases h
      exact List.find?_cons_of_pos (beq_self_eq_true k)
    · have hk' : ¬ (k' == k) = true := by rw [beq_iff_eq]; exact fun h => hk h.symm
      rw [List.lookup_cons, beq_false_of_ne hk] at h
      rw [List.find?_cons_of_neg (by exact hk')]
      exact ih h

theorem perm_of_lookup [BEq κ] [LawfulBEq κ] {l : List (κ × β)} {k : κ} {v : β} (h : l.lookup k = some v) :
    l.Perm ((k, v) :: l.eraseP (·.1 == k)) := perm_of_find? (find?_of_lookup h)

end GoSmpp.Lib
