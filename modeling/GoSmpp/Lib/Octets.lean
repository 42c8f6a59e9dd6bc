import Mathlib.Data.List.Basic
import Mathlib.Tactic

/-!
# Octet strings and big-endian integers

* `Octets` : byte strings;
* `uint16`, `uint32` : the integer of two, of four octets, most significant first; `putUint16`, `putUint32`
  are their inverses (`uint16_putUint16`, `putUint16_uint16`, and the same for 32 bits);
* `append_nul_inj` : a NUL-terminated prefix is determined by the string it stands in.
-/

namespace GoSmpp.Lib

abbrev Octets := List UInt8

/-- The big-endian 16-bit integer of two octets. -/
def uint16 (a b : UInt8) : UInt16 := UInt16.ofNat (a.toNat * 2 ^ 8 + b.toNat)

/-- The big-endian 32-bit integer of four octets. -/
def uint32 (a b c d : UInt8) : UInt32 :=
  UInt32.ofNat (a.toNat * 2 ^ 24 + b.toNat * 2 ^ 16 + c.toNat * 2 ^ 8 + d.toNat)

/-- The two octets of a 16-bit integer, most significant first. -/
def putUint16 (n : UInt16) : Octets := [UInt8.ofNat (n.toNat / 2 ^ 8), UInt8.ofNat n.toNat]

/-- The four octets of a 32-bit integer, most significant first. -/
def putUint32 (n : UInt32) : Octets :=
  [UInt8.ofNat (n.toNat / 2 ^ 24), UInt8.ofNat (n.toNat / 2 ^ 16), UInt8.ofNat (n.toNat / 2 ^ 8),
    UInt8.ofNat n.toNat]

@[simp] theorem length_putUint16 (n : UInt16) : (putUint16 n).length = 2 := rfl

@[simp] theorem length_putUint32 (n : UInt32) : (putUint32 n).length = 4 := rfl

theorem toNat_uint16 (a b : UInt8) : (uint16 a b).toNat = a.toNat * 2 ^ 8 + b.toNat := by
  have ha := a.toNat_lt
  have hb := b.toNat_lt
  rw [uint16, UInt16.toNat_ofNat', Nat.mod_eq_of_lt (by omega)]

theorem toNat_uint32 (a b c d : UInt8) :
    (uint32 a b c d).toNat = a.toNat * 2 ^ 24 + b.toNat * 2 ^ 16 + c.toNat * 2 ^ 8 + d.toNat := by
  have ha := a.toNat_lt
  have hb := b.toNat_lt
  have hc := c.toNat_lt
  have hd := d.toNat_lt
  rw [uint32, UInt32.toNat_ofNat', Nat.mod_eq_of_lt (by omega)]

theorem ofNat_eq_of_mod {n : Nat} {a : UInt8} (h : n % 2 ^ 8 = a.toNat) : UInt8.ofNat n = a := by
  apply UInt8.toNat.inj
  rw [UInt8.toNat_ofNat', h]

theorem putUint16_uint16 (a b : UInt8) : putUint16 (uint16 a b) = [a, b] := by
  have ha := a.toNat_lt
  have hb := b.toNat_lt
  rw [putUint16, toNat_uint16, ofNat_eq_of_mod (a := a) (by omega), ofNat_eq_of_mod (a := b) (by omega)]

theorem putUint32_uint32 (a b c d : UInt8) : putUint32 (uint32 a b c d) = [a, b, c, d] := by
  have ha := a.toNat_lt
  have hb := b.toNat_lt
  have hc := c.toNat_lt
  have hd := d.toNat_lt
  rw [putUint32, toNat_uint32, ofNat_eq_of_mod (a := a) (by omega), ofNat_eq_of_mod (a := b) (by omega),
    ofNat_eq_of_mod (a := c) (by omega), ofNat_eq_of_mod (a := d) (by omega)]

theorem uint16_putUint16 (n : UInt16) :
    uint16 (UInt8.ofNat (n.toNat / 2 ^ 8)) (UInt8.ofNat n.toNat) = n := by
  have hn := n.toNat_lt
  apply UInt16.toNat.inj
  rw [toNat_uint16, UInt8.toNat_ofNat', UInt8.toNat_ofNat']
  omega

theorem uint32_putUint32 (n : UInt32) :
    uint32 (UInt8.ofNat (n.toNat / 2 ^ 24)) (UInt8.ofNat (n.toNat / 2 ^ 16)) (UInt8.ofNat (n.toNat / 2 ^ 8))
      (UInt8.ofNat n.toNat) = n := by
  have hn := n.toNat_lt
  apply UInt32.toNat.inj
  rw [toNat_uint32, UInt8.toNat_ofNat', UInt8.toNat_ofNat', UInt8.toNat_ofNat', UInt8.toNat_ofNat']
  omega

theorem append_nul_inj {v w r t : Octets} (hv : (0 : UInt8) ∉ v) (hw : (0 : UInt8) ∉ w)
    (h : v ++ 0 :: r = w ++ 0 :: t) : v = w ∧ r = t := by
  induction v generalizing w with
  | nil =>
    cases w with
    | nil => exact ⟨rfl, by simpa using h⟩
    | cons y w =>
      have : (0 : UInt8) = y := by simpa using congrArg List.head? h
      exact absurd (this ▸ List.mem_cons_self) hw
  | cons x v ih =>
    cases w with
    | nil =>
      have : x = (0 : UInt8) := by simpa using congrArg List.head? h
      exact absurd (this ▸ List.mem_cons_self) hv
    | cons y w =>
      simp only [List.cons_append, List.cons.injEq] at h
      obtain ⟨rfl, h⟩ := h
      obtain ⟨rfl, rfl⟩ := ih (fun h' => hv (List.mem_cons_of_mem _ h'))
        (fun h' => hw (List.mem_cons_of_mem _ h')) h
      exact ⟨rfl, rfl⟩

end GoSmpp.Lib
