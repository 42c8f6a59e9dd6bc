import GoSmpp.Lib.Lists

/-!
# Association lists

A Go map as a list of keys and values that is read by `List.lookup`.

* `assign`: a new value for a key that is there. `remove`: the key goes.
* `under`: a map of sets, `addUnder` and `removeUnder`, which make a set when its first element comes and delete it when its
  last one goes. `Occupied`: no set is empty.
* `latest`: the last time that a key was recorded in a history, newest first, as the number of records before it.
-/

namespace GoSmpp.Lib.Assoc

variable {κ β : Type*} [BEq κ] {l : List (κ × β)} {j k : κ} {v : β}

/-- `m[k] = v` where `k` is a key of `m`. -/
def assign (l : List (κ × β)) (k : κ) (v : β) : List (κ × β) := l.map fun e => if e.1 == k then (k, v) else e

/-- `delete(m, k)`. -/
def remove (l : List (κ × β)) (k : κ) : List (κ × β) := l.filter fun e => !(e.1 == k)

theorem length_assign : (assign l k v).length = l.length := List.length_map ..

theorem length_remove_le : (remove l k).length ≤ l.length := List.length_filter_le ..

variable [LawfulBEq κ]

theorem lookup_assign_self (h : (l.lookup k).isSome) : (assign l k v).lookup k = some v := by
  induction l with
  | nil => cases h
  | cons e l ih =>
    obtain ⟨j, w⟩ := e
    by_cases hj : j = k
    · subst hj
      simp [assign]
    · have hkj : (k == j) = false := beq_eq_false_iff_ne.mpr (Ne.symm hj)
      have hjk : (j == k) = false := beq_eq_false_iff_ne.mpr hj
      rw [List.lookup_cons, hkj] at h
      rw [assign, List.map_cons, hjk, List.lookup_cons]
      simp only [Bool.false_eq_true, if_false, hkj]
      exact ih h

theorem lookup_assign_ne (h : j ≠ k) : (assign l k v).lookup j = l.lookup j := by
  induction l with
  | nil => rfl
  | cons e l ih =>
    obtain ⟨i, w⟩ := e
    rw [assign, List.map_cons, List.lookup_cons, List.lookup_cons]
    by_cases hi : i = k
    · subst hi
      have hji : (j == i) = false := beq_eq_false_iff_ne.mpr h
      simp only [beq_self_eq_true, if_true, hji]
      exact ih
    · have hik : (i == k) = false := beq_eq_false_iff_ne.mpr hi
      simp only [hik, Bool.false_eq_true, if_false]
      split
      · rfl
      · exact ih

theorem lookup_assign_isSome : ((assign l k v).lookup j).isSome = (l.lookup j).isSome := by
  by_cases h : j = k
  · subst h
    cases hl : l.lookup j with
    | some w => rw [lookup_assign_self (by rw [hl]; rfl)]; rfl
    | none =>
      have hsame : assign l j v = l := by
        rw [List.lookup_eq_none_iff] at hl
        refine (List.map_congr_left fun e he => if_neg ?_).trans (List.map_id l)
        have := hl e he
        simp only [bne_iff_ne, ne_eq, beq_iff_eq] at this ⊢
        exact fun h => this h.symm
      rw [hsame, hl]
  · rw [lookup_assign_ne h]

theorem lookup_remove_self : (remove l k).lookup k = none := by
  rw [List.lookup_eq_none_iff]
  intro e he
  have := List.of_mem_filter he
  simp only [Bool.not_eq_true', beq_eq_false_iff_ne, bne_iff_ne] at this ⊢
  exact fun h => this h.symm

theorem lookup_remove_ne (h : j ≠ k) : (remove l k).lookup j = l.lookup j := by
  induction l with
  | nil => rfl
  | cons e l ih =>
    obtain ⟨i, w⟩ := e
    rw [remove, List.filter_cons, List.lookup_cons]
    by_cases hi : i = k
    · subst hi
      have hji : (j == i) = false := beq_eq_false_iff_ne.mpr h
      simp only [beq_self_eq_true, Bool.not_true, Bool.false_eq_true, if_false, hji]
      exact ih
    · have hik : (i == k) = false := beq_eq_false_iff_ne.mpr hi
      simp only [hik, Bool.not_false, if_true, List.lookup_cons]
      split
      · rfl
      · exact ih

/-! ## Maps of sets -/

section Sets
variable {α : Type*} {m : List (κ × List α)} {a : α}

/-- The set under a key; no set is the empty one. -/
def under (m : List (κ × List α)) (k : κ) : List α := (m.lookup k).getD []

/-- The element is added to the set under the key, which is made if there is none. -/
def addUnder (m : List (κ × List α)) (k : κ) (a : α) : List (κ × List α) :=
  match m.lookup k with
  | none => m ++ [(k, [a])]
  | some set => assign m k (set ++ [a])

def Occupied (m : List (κ × List α)) : Prop := ∀ k set, m.lookup k = some set → set ≠ []

theorem lookup_addUnder_self : (addUnder m k a).lookup k = some (under m k ++ [a]) := by
  unfold addUnder under
  split
  · next h => rw [List.lookup_append, h]; simp
  · next set h => rw [lookup_assign_self (by rw [h]; rfl), h]; rfl

theorem lookup_addUnder_ne (h : j ≠ k) : (addUnder m k a).lookup j = m.lookup j := by
  unfold addUnder
  split
  · have hjk : (j == k) = false := beq_eq_false_iff_ne.mpr h
    rw [List.lookup_append, List.lookup_cons, hjk]
    exact Option.or_none
  · exact lookup_assign_ne h

theorem under_addUnder_self : under (addUnder m k a) k = under m k ++ [a] := by
  rw [under, lookup_addUnder_self]
  rfl

theorem under_addUnder_ne (h : j ≠ k) : under (addUnder m k a) j = under m j := by rw [under, lookup_addUnder_ne h, under]

theorem Occupied.addUnder (h : Occupied m) : Occupied (addUnder m k a) := by
  intro j set hset
  by_cases hj : j = k
  · subst hj
    rw [lookup_addUnder_self] at hset
    cases hset
    exact List.append_ne_nil_of_right_ne_nil _ (List.cons_ne_nil _ _)
  · rw [lookup_addUnder_ne hj] at hset
    exact h j set hset

variable [DecidableEq α]

/-- The element is deleted from the set under the key, and the set with its last element. -/
def removeUnder (m : List (κ × List α)) (k : κ) (a : α) : List (κ × List α) :=
  match m.lookup k with
  | none => m
  | some set => if set.filter (· ≠ a) = [] then remove m k else assign m k (set.filter (· ≠ a))

theorem lookup_removeUnder_self :
    (removeUnder m k a).lookup k = if (under m k).filter (· ≠ a) = [] then none else some ((under m k).filter (· ≠ a)) := by
  unfold removeUnder under
  split
  · next h => rw [h]; rfl
  · next set h =>
    rw [h]
    show (if set.filter (· ≠ a) = [] then _ else _ : List (κ × List α)).lookup k =
      if set.filter (· ≠ a) = [] then none else some (set.filter (· ≠ a))
    split
    · exact lookup_remove_self
    · exact lookup_assign_self (by rw [h]; rfl)

theorem lookup_removeUnder_ne (h : j ≠ k) : (removeUnder m k a).lookup j = m.lookup j := by
  unfold removeUnder
  split
  · rfl
  · split
    · exact lookup_remove_ne h
    · exact lookup_assign_ne h

theorem under_removeUnder_self : under (removeUnder m k a) k = (under m k).filter (· ≠ a) := by
  rw [under, lookup_removeUnder_self]
  split
  · next h => exact h.symm
  · rfl

theorem under_removeUnder_ne (h : j ≠ k) : under (removeUnder m k a) j = under m j := by
  rw [under, lookup_removeUnder_ne h, under]

theorem Occupied.removeUnder (h : Occupied m) : Occupied (removeUnder m k a) := by
  intro j set hset
  by_cases hj : j = k
  · subst hj
    rw [lookup_removeUnder_self] at hset
    split at hset
    · cases hset
    · next hne =>
      cases hset
      exact hne
  · rw [lookup_removeUnder_ne hj] at hset
    exact h j set hset

end Sets

/-! ## Histories -/

/-- How many records there were before the latest one of the key. -/
def latest : List κ → κ → Option Nat
  | [], _ => none
  | j :: rest, k => if j == k then some rest.length else latest rest k

theorem latest_cons_self (rest : List κ) (k : κ) : latest (k :: rest) k = some rest.length := if_pos BEq.rfl

theorem latest_cons_ne (rest : List κ) (h : j ≠ k) : latest (j :: rest) k = latest rest k :=
  if_neg (by rw [beq_iff_eq]; exact h)

theorem getElem?_latest {r : Nat} : ∀ {h : List κ}, latest h k = some r → h.reverse[r]? = some k
  | [], hr => by cases hr
  | j :: rest, hr => by
    rw [List.reverse_cons]
    unfold latest at hr
    split at hr
    · next hj =>
      cases hr
      obtain rfl := beq_iff_eq.mp hj
      rw [List.getElem?_append_right (Nat.le_of_eq List.length_reverse), List.length_reverse, Nat.sub_self]
      rfl
    · exact getElem?_append_some (getElem?_latest hr) _

end GoSmpp.Lib.Assoc
