import GoSmpp.Lib.Octets
import Mathlib.Data.List.GetD
import Mathlib.Data.Nat.Bitwise

/-!
# The bits of an octet string

Bits are counted from the least significant one of the first octet on, in groups of `w` bits to an octet: 8 for octets, 7 for
septets that take an octet each.

* `bitAt w data pos`; `bitAt_ext`: a string of `w`-bit octets is determined by its length and its bits.
* `setBit`, `setBits`: bits that are set in place (`bitAt_setBits`).
* `gather`: an octet put together bit by bit (`testBit_gather`).
-/

namespace GoSmpp.Lib

/-- Bit `pos` of a string with `w` bits to the octet; there are only zeros behind its end. -/
def bitAt (w : Nat) (data : Octets) (pos : Nat) : Bool := (data.getD (pos / w) 0).toNat.testBit (pos % w)

section BitAt
variable {w pos : Nat} {a b data : Octets} {o : UInt8}

@[simp] theorem bitAt_nil (w pos : Nat) : bitAt w [] pos = false := Nat.zero_testBit _

theorem bitAt_of_length_le (hw : 0 < w) (h : w * data.length ≤ pos) : bitAt w data pos = false := by
  have hout : data.length ≤ pos / w := (Nat.le_div_iff_mul_le hw).mpr (Nat.mul_comm w _ ▸ h)
  rw [bitAt, List.getD_eq_default _ _ hout]
  exact Nat.zero_testBit _

theorem bitAt_cons (hw : 0 < w) :
    bitAt w (o :: data) pos = if pos < w then o.toNat.testBit pos else bitAt w data (pos - w) := by
  unfold bitAt
  split
  case isTrue h => rw [Nat.div_eq_of_lt h, Nat.mod_eq_of_lt h, List.getD_cons_zero]
  case isFalse h =>
    have hle := Nat.le_of_not_lt h
    rw [Nat.div_eq_sub_div hw hle, Nat.mod_eq_sub_mod hle, List.getD_cons_succ]

theorem bitAt_mul_add {i j : Nat} (hj : j < w) : bitAt w data (w * i + j) = (data.getD i 0).toNat.testBit j := by
  have hw : 0 < w := Nat.zero_lt_of_lt hj
  rw [bitAt, Nat.mul_add_div hw, Nat.div_eq_of_lt hj, Nat.mul_add_mod, Nat.mod_eq_of_lt hj, Nat.add_zero]

theorem octet_ext {o o' : UInt8} (h : ∀ i, o.toNat.testBit i = o'.toNat.testBit i) : o = o' :=
  UInt8.toNat.inj (Nat.eq_of_testBit_eq h)

/-- **Strings with the same bits are the same.** -/
theorem bitAt_ext (ha : ∀ o ∈ a, o.toNat < 2 ^ w) (hb : ∀ o ∈ b, o.toNat < 2 ^ w) (hlen : a.length = b.length)
    (h : ∀ pos < w * a.length, bitAt w a pos = bitAt w b pos) : a = b := by
  refine List.ext_getElem hlen fun i hia hib => octet_ext fun j => ?_
  by_cases hj : j < w
  · have hpos : w * i + j < w * a.length :=
      calc w * i + j < w * (i + 1) := by rw [Nat.mul_succ]; omega
        _ ≤ w * a.length := Nat.mul_le_mul_left w hia
    have hbit := h _ hpos
    rwa [bitAt_mul_add hj, bitAt_mul_add hj, List.getD_eq_getElem _ _ hia, List.getD_eq_getElem _ _ hib] at hbit
  · have hpow : 2 ^ w ≤ 2 ^ j := Nat.pow_le_pow_right Nat.two_pos (Nat.le_of_not_lt hj)
    rw [Nat.testBit_lt_two_pow (Nat.lt_of_lt_of_le (ha _ (List.getElem_mem hia)) hpow),
      Nat.testBit_lt_two_pow (Nat.lt_of_lt_of_le (hb _ (List.getElem_mem hib)) hpow)]

end BitAt

/-! ## One bit -/

section Bit
variable {o : UInt8} {k : Nat}

theorem toNat_shift (hk : k < 8) : ((1 : UInt8) <<< UInt8.ofNat k).toNat = 2 ^ k := by
  have hpow : 2 ^ k < 2 ^ 8 := Nat.pow_lt_pow_right Nat.one_lt_two hk
  rw [UInt8.toNat_shiftLeft, UInt8.toNat_ofNat', Nat.mod_eq_of_lt (show k < 2 ^ 8 by omega), Nat.mod_eq_of_lt hk,
    Nat.shiftLeft_eq, UInt8.toNat_one, Nat.one_mul, Nat.mod_eq_of_lt hpow]

theorem testBit_or_shift (hk : k < 8) (i : Nat) :
    (o ||| 1 <<< UInt8.ofNat k).toNat.testBit i = (o.toNat.testBit i || decide (i = k)) := by
  rw [UInt8.toNat_or, Nat.testBit_or, toNat_shift hk, Nat.testBit_two_pow]
  simp only [eq_comm]

theorem and_shift_ne_zero (hk : k < 8) : o &&& (1 <<< UInt8.ofNat k) ≠ 0 ↔ o.toNat.testBit k = true := by
  have hand : (o &&& (1 <<< UInt8.ofNat k)).toNat = 2 ^ k * (o.toNat.testBit k).toNat := by
    rw [UInt8.toNat_and, toNat_shift hk, Nat.and_two_pow, Nat.mul_comm]
  rw [ne_eq, ← UInt8.toNat_inj, hand]
  cases o.toNat.testBit k <;> simp

end Bit

/-! ## Setting bits -/

def setBit (data : Octets) (pos : Nat) : Octets := data.modify (pos / 8) (· ||| (1 <<< UInt8.ofNat (pos % 8)))

@[simp] theorem length_setBit (data : Octets) (pos : Nat) : (setBit data pos).length = data.length := by simp [setBit]

theorem bitAt_setBit {data : Octets} {pos : Nat} (h : pos < 8 * data.length) (q : Nat) :
    bitAt 8 (setBit data pos) q = (bitAt 8 data q || decide (q = pos)) := by
  have hin : pos / 8 < data.length := by omega
  rw [bitAt, bitAt, setBit, List.getD_eq_getElem?_getD, List.getElem?_modify, List.getD_eq_getElem?_getD]
  by_cases hq : pos / 8 = q / 8
  · have hbit : q % 8 = pos % 8 ↔ q = pos := by omega
    rw [← hq, List.getElem?_eq_getElem hin]
    simp only [if_true, Option.map_eq_map, Option.map_some, Option.getD_some]
    rw [testBit_or_shift (Nat.mod_lt _ (by decide)), decide_eq_decide.mpr hbit]
  · have hne : q ≠ pos := by omega
    simp [hq, hne]

/-- Set those of the `n` bits from `base` on that `f` says. -/
def setBits (f : Nat → Bool) (base n : Nat) (data : Octets) : Octets :=
  (List.range n).foldl (fun out bit => if f bit then setBit out (base + bit) else out) data

theorem setBits_succ (f : Nat → Bool) (base n : Nat) (data : Octets) :
    setBits f base (n + 1) data =
      if f n then setBit (setBits f base n data) (base + n) else setBits f base n data := by
  rw [setBits, List.range_succ, List.foldl_append]
  rfl

@[simp] theorem length_setBits (f : Nat → Bool) (base n : Nat) (data : Octets) :
    (setBits f base n data).length = data.length := by
  induction n with
  | zero => rfl
  | succ n ih => rw [setBits_succ]; split <;> simp [ih]

theorem bitAt_setBits {f : Nat → Bool} {base n : Nat} {data : Octets} (h : base + n ≤ 8 * data.length) (q : Nat) :
    bitAt 8 (setBits f base n data) q =
      (bitAt 8 data q || (decide (base ≤ q) && decide (q < base + n) && f (q - base))) := by
  induction n with
  | zero =>
    have hnone : ¬ (base ≤ q ∧ q < base + 0) := by omega
    show bitAt 8 data q = _
    rw [← Bool.decide_and, decide_eq_false hnone, Bool.false_and, Bool.or_false]
  | succ n ih =>
    have ih := ih (by omega)
    have hin : base + n < 8 * (setBits f base n data).length := by rw [length_setBits]; omega
    rw [setBits_succ, apply_ite (bitAt 8 · q), bitAt_setBit hin, ih]
    by_cases hq : q = base + n
    · subst hq
      rw [Nat.add_sub_cancel_left]
      cases f n <;> simp
    · have hlt : q < base + (n + 1) ↔ q < base + n := by omega
      simp [hq, hlt]

/-- An octet of the `n` bits that `f` says. -/
def gather (f : Nat → Bool) (n : Nat) : UInt8 :=
  (List.range n).foldl (fun o bit => if f bit then o ||| 1 <<< UInt8.ofNat bit else o) 0

theorem testBit_gather {f : Nat → Bool} {n : Nat} (hn : n ≤ 8) (i : Nat) :
    (gather f n).toNat.testBit i = (decide (i < n) && f i) := by
  induction n with
  | zero => exact Nat.zero_testBit i
  | succ n ih =>
    have hsucc : gather f (n + 1) = if f n then gather f n ||| 1 <<< UInt8.ofNat n else gather f n := by
      rw [gather, List.range_succ, List.foldl_append]
      rfl
    rw [hsucc, apply_ite (fun o : UInt8 => o.toNat.testBit i), testBit_or_shift (by omega), ih (by omega)]
    by_cases hi : i = n
    · subst hi
      cases f i <;> simp
    · have hlt : i < n + 1 ↔ i < n := by omega
      simp [hi, hlt]

theorem gather_lt {f : Nat → Bool} {n : Nat} (hn : n ≤ 8) : (gather f n).toNat < 2 ^ n := by
  refine Nat.lt_pow_two_of_testBit _ fun i hi => ?_
  rw [testBit_gather hn, decide_eq_false (Nat.not_lt.mpr hi), Bool.false_and]

end GoSmpp.Lib
