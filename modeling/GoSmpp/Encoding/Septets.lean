import GoSmpp.Lib.Bits
import GoSmpp.Encoding.Gsm7

/-!
# Packed septets

The way back from packed septets, and what the packed form is, bit by bit.

* `unpackSeptets`: `UnpackSeptets` of `encoding/gsm7.go` in exact arithmetic.
* `packSeptetsWithFill_ok`: the bits of the packed form are the fill bits, the bits of the septets, and zeros up to the octet.
* `unpackSeptets_ok`: the bits of the septets that come back.
* `packSeptets_exact`: either undoes the other.
* `unpackSeptets64`: `UnpackSeptets` with the integers of the machine, and where it panics. `unpackSeptets64_ok` says that it
  returns what `unpackSeptets` does, `unpackSeptets64_guarded_iff` when its guard is the exact one.
-/

namespace GoSmpp.Encoding

open GoSmpp.Lib GoSmpp.Protocol

/-- The inner loop of `UnpackSeptets`: the septet at bit position `bitPos`. -/
def unpackSeptet (data : Octets) (bitPos : Nat) : UInt8 :=
  (List.range 7).foldl (fun septet bit =>
    if data.getD ((bitPos + bit) / 8) 0 &&& (1 <<< UInt8.ofNat ((bitPos + bit) % 8)) ≠ 0 then
      septet ||| (1 <<< UInt8.ofNat bit)
    else septet) 0

def unpackFrom (data : Octets) : Nat → Nat → Octets
  | 0, _ => []
  | count + 1, bitPos => unpackSeptet data bitPos :: unpackFrom data count (bitPos + 7)

/-- `UnpackSeptets` in exact arithmetic. -/
def unpackSeptets (data : Octets) (count : Int) (fillBits : UInt8) : Except Err Octets :=
  if count < 0 ∨ 6 < fillBits then
    .error (invalidGSM7 ("count=" ++ toString count ++ " fill=" ++ toString fillBits.toNat))
  else
    let requiredBits := fillBits.toNat + count.toNat * 7
    if data.length * 8 < requiredBits then
      .error (invalidGSM7 ("need " ++ toString requiredBits ++ " bits, have " ++ toString (data.length * 8)))
    else .ok (unpackFrom data count.toNat fillBits.toNat)

/-! ## Packing -/

theorem septet_lt_iff (o : UInt8) : o < 0x80 ↔ o.toNat < 2 ^ 7 := UInt8.lt_iff_toNat_lt

theorem septet_lt_iff_not (o : UInt8) : o < 0x80 ↔ ¬ 0x7f < o := by
  rw [UInt8.lt_iff_toNat_lt, UInt8.lt_iff_toNat_lt, Nat.not_lt]
  exact Nat.lt_succ_iff

section Pack
variable {septets out data : Octets} {bitPos q : Nat}

theorem packSeptet_eq (septet : UInt8) (bitPos : Nat) (out : Octets) :
    packSeptet septet bitPos out = setBits septet.toNat.testBit bitPos 7 out := by
  refine List.foldl_ext _ _ _ fun out bit hbit => ?_
  have hbit : bit < 8 := Nat.lt_succ_of_lt (List.mem_range.mp hbit)
  exact if_congr (and_shift_ne_zero hbit) rfl rfl

theorem packFrom_ok : ∀ (septets : Octets) (bitPos : Nat) (out : Octets), (∀ s ∈ septets, s < 0x80) →
    bitPos + 7 * septets.length ≤ 8 * out.length →
    ∃ data, packFrom septets bitPos out = .ok data ∧ data.length = out.length ∧
      ∀ q, bitAt 8 data q = (bitAt 8 out q || (decide (bitPos ≤ q) && bitAt 7 septets (q - bitPos)))
  | [], bitPos, out, _, _ => by
    refine ⟨out, rfl, rfl, fun q => ?_⟩
    rw [bitAt_nil, Bool.and_false, Bool.or_false]
  | septet :: rest, bitPos, out, hs, hroom => by
    obtain ⟨hseptet, hrest⟩ := List.forall_mem_cons.mp hs
    rw [List.length_cons] at hroom
    obtain ⟨data, hpack, hlen, hbits⟩ := packFrom_ok rest (bitPos + 7) (packSeptet septet bitPos out) hrest
      (by rw [packSeptet_eq, length_setBits]; omega)
    rw [packSeptet_eq, length_setBits] at hlen
    refine ⟨data, ?_, hlen, fun q => ?_⟩
    · rw [packFrom, if_neg ((septet_lt_iff_not _).mp hseptet), hpack]
    · rw [hbits, packSeptet_eq, bitAt_setBits (by omega), Bool.or_assoc, bitAt_cons (by decide)]
      congr 1
      -- before the septet, in it, behind it
      by_cases hq : bitPos ≤ q
      · by_cases hin : q < bitPos + 7
        · simp [hq, hin, show ¬ bitPos + 7 ≤ q by omega, show q - bitPos < 7 by omega]
        · simp [hq, hin, show bitPos + 7 ≤ q by omega, show ¬ q - bitPos < 7 by omega, Nat.sub_sub]
      · simp [hq, show ¬ bitPos + 7 ≤ q by omega]

theorem bitAt_replicate (n q : Nat) : bitAt 8 (List.replicate n 0) q = false := by
  have hzero : (List.replicate n (0 : UInt8)).getD (q / 8) 0 = 0 := by
    rw [List.getD_eq_getElem?_getD, List.getElem?_getD_replicate_default_eq]
  rw [bitAt, hzero]
  exact Nat.zero_testBit _

theorem packSeptetsWithFill_ok {fill : UInt8} (hs : ∀ s ∈ septets, s < 0x80) (hf : fill ≤ 6) :
    ∃ data, packSeptetsWithFill septets fill = .ok data ∧ data.length = (fill.toNat + 7 * septets.length + 7) / 8 ∧
      ∀ q, bitAt 8 data q = (decide (fill.toNat ≤ q) && bitAt 7 septets (q - fill.toNat)) := by
  rw [packSeptetsWithFill, if_neg (UInt8.not_lt.mpr hf)]
  split
  case isTrue hnil =>
    -- no septets: nothing, or an octet of fill bits
    subst hnil
    refine ⟨_, rfl, ?_, fun q => ?_⟩
    · have hle : fill.toNat ≤ 6 := UInt8.le_iff_toNat_le.mp hf
      split
      case isTrue hzero =>
        subst hzero
        rfl
      case isFalse hne =>
        have hpos : fill.toNat ≠ 0 := fun h0 => hne (UInt8.toNat.inj h0)
        show 1 = (fill.toNat + 7) / 8
        omega
    · rw [bitAt_nil, Bool.and_false]
      split
      case isTrue => exact bitAt_replicate 0 q
      case isFalse => exact bitAt_replicate 1 q
  case isFalse =>
    obtain ⟨data, hpack, hlen, hbits⟩ := packFrom_ok septets fill.toNat
      (List.replicate ((fill.toNat + septets.length * 7 + 7) / 8) 0) hs (by rw [List.length_replicate]; omega)
    rw [List.length_replicate, Nat.mul_comm] at hlen
    refine ⟨data, hpack, hlen, fun q => ?_⟩
    rw [hbits, bitAt_replicate, Bool.false_or]

theorem packFrom_error : ∀ (septets : Octets) (bitPos : Nat) (out : Octets), (∃ s ∈ septets, 0x80 ≤ s) →
    ∃ err, packFrom septets bitPos out = .error err
  | [], _, _, ⟨_, hs, _⟩ => absurd hs List.not_mem_nil
  | septet :: rest, bitPos, out, hs => by
    rw [packFrom]
    split
    case isTrue => exact ⟨_, rfl⟩
    case isFalse hlt =>
      obtain ⟨s, hmem, hbig⟩ := hs
      rcases List.mem_cons.mp hmem with rfl | hmem
      · exact absurd ((septet_lt_iff_not s).mpr hlt) (UInt8.not_lt.mpr hbig)
      · exact packFrom_error rest (bitPos + 7) _ ⟨s, hmem, hbig⟩

theorem packSeptetsWithFill_error_iff (septets : Octets) (fill : UInt8) :
    (∃ err, packSeptetsWithFill septets fill = .error err) ↔ 6 < fill ∨ ∃ s ∈ septets, 0x80 ≤ s := by
  constructor
  · rintro ⟨err, herr⟩
    by_contra hok
    rw [not_or, UInt8.not_lt] at hok
    obtain ⟨hf, hs⟩ := hok
    have hs : ∀ s ∈ septets, s < 0x80 := fun s hmem => UInt8.not_le.mp fun hbig => hs ⟨s, hmem, hbig⟩
    obtain ⟨data, hdata, -⟩ := packSeptetsWithFill_ok hs hf
    rw [hdata] at herr
    cases herr
  · intro hbad
    rw [packSeptetsWithFill]
    split
    case isTrue => exact ⟨_, rfl⟩
    case isFalse hf =>
      have hs := hbad.resolve_left hf
      have hne : septets ≠ [] := by
        rintro rfl
        obtain ⟨s, hmem, -⟩ := hs
        exact absurd hmem List.not_mem_nil
      rw [if_neg hne]
      exact packFrom_error septets _ _ hs

theorem packSeptetsWithFill_inv {fill : UInt8} (h : packSeptetsWithFill septets fill = .ok data) :
    fill ≤ 6 ∧ (∀ s ∈ septets, s < 0x80) ∧ data.length = (fill.toNat + 7 * septets.length + 7) / 8 := by
  have hno : ¬ (6 < fill ∨ ∃ s ∈ septets, 0x80 ≤ s) := by
    rw [← packSeptetsWithFill_error_iff, h]
    rintro ⟨err, herr⟩
    cases herr
  rw [not_or, UInt8.not_lt] at hno
  have hs : ∀ s ∈ septets, s < 0x80 := fun s hmem => UInt8.not_le.mp fun hbig => hno.2 ⟨s, hmem, hbig⟩
  obtain ⟨packed, hpack, hlen, -⟩ := packSeptetsWithFill_ok hs hno.1
  rw [h] at hpack
  cases hpack
  exact ⟨hno.1, hs, hlen⟩

end Pack

/-! ## Unpacking -/

theorem unpackSeptet_eq (data : Octets) (bitPos : Nat) :
    unpackSeptet data bitPos = gather (fun bit => bitAt 8 data (bitPos + bit)) 7 := by
  refine List.foldl_ext _ _ _ fun septet bit _ => ?_
  exact if_congr (and_shift_ne_zero (Nat.mod_lt _ (by decide))) rfl rfl

theorem unpackFrom_spec (data : Octets) : ∀ count bitPos : Nat,
    (unpackFrom data count bitPos).length = count ∧ (∀ s ∈ unpackFrom data count bitPos, s < 0x80) ∧
      ∀ i < 7 * count, bitAt 7 (unpackFrom data count bitPos) i = bitAt 8 data (bitPos + i)
  | 0, _ => ⟨rfl, fun _ hs => absurd hs List.not_mem_nil, fun _ hi => absurd hi (Nat.not_lt_zero _)⟩
  | count + 1, bitPos => by
    obtain ⟨hlen, hlt, hbits⟩ := unpackFrom_spec data count (bitPos + 7)
    refine ⟨congrArg Nat.succ hlen, List.forall_mem_cons.mpr ⟨?_, hlt⟩, fun i hi => ?_⟩
    · rw [septet_lt_iff, unpackSeptet_eq]
      exact gather_lt (by decide)
    · rw [unpackFrom, bitAt_cons (by decide)]
      split
      case isTrue h7 => rw [unpackSeptet_eq, testBit_gather (by decide), decide_eq_true h7, Bool.true_and]
      case isFalse h7 =>
        rw [hbits _ (by omega)]
        congr 1
        omega

theorem unpackSeptets_ok {data out : Octets} {count : Nat} {fill : UInt8} (h : unpackSeptets data count fill = .ok out) :
    fill ≤ 6 ∧ out.length = count ∧ (∀ s ∈ out, s < 0x80) ∧ ∀ i < 7 * count, bitAt 7 out i = bitAt 8 data (fill.toNat + i) := by
  unfold unpackSeptets at h
  split at h
  case isTrue => cases h
  case isFalse hvalid =>
    dsimp only at h
    split at h
    case isTrue => cases h
    case isFalse =>
      cases h
      exact ⟨UInt8.not_lt.mp fun hf => hvalid (.inr hf), unpackFrom_spec data count fill.toNat⟩

theorem unpackSeptets_of_length {data : Octets} {count : Nat} {fill : UInt8} (hf : fill ≤ 6)
    (hlen : fill.toNat + 7 * count ≤ 8 * data.length) : ∃ out, unpackSeptets data count fill = .ok out := by
  have hvalid : ¬ ((count : Int) < 0 ∨ 6 < fill) := by
    rintro (hneg | hbig)
    · omega
    · exact absurd hbig (UInt8.not_lt.mpr hf)
  have hbits : ¬ data.length * 8 < fill.toNat + (count : Int).toNat * 7 := by
    rw [Int.toNat_natCast]
    omega
  exact ⟨_, by rw [unpackSeptets, if_neg hvalid]; exact if_neg hbits⟩

theorem unpackSeptets_packed {septets data : Octets} {fill : UInt8} (h : packSeptetsWithFill septets fill = .ok data) :
    unpackSeptets data septets.length fill = .ok septets := by
  obtain ⟨hf, hs, -⟩ := packSeptetsWithFill_inv h
  obtain ⟨packed, hpack, hlen, hbits⟩ := packSeptetsWithFill_ok hs hf
  rw [h] at hpack
  cases hpack
  have hroom : fill.toNat + 7 * septets.length ≤ 8 * data.length := by omega
  obtain ⟨out, hout⟩ := unpackSeptets_of_length hf hroom
  obtain ⟨-, hcount, hlt, hsame⟩ := unpackSeptets_ok hout
  have heq : out = septets := by
    refine bitAt_ext (w := 7) (fun o ho => (septet_lt_iff o).mp (hlt o ho)) (fun o ho => (septet_lt_iff o).mp (hs o ho))
      hcount fun i hi => ?_
    rw [hsame i (hcount ▸ hi), hbits, decide_eq_true (Nat.le_add_right _ _), Bool.true_and, Nat.add_sub_cancel_left]
  rw [hout, heq]

/-- **Packing is exact.** What is packed comes back, what is unpacked and has no stray bits comes back, and packing fails only
where it must. -/
theorem packSeptets_exact :
    (∀ (septets : Octets) (fill : UInt8), (∀ s ∈ septets, s < 0x80) → fill ≤ 6 →
      ∃ data, packSeptetsWithFill septets fill = .ok data ∧ data.length = (fill.toNat + 7 * septets.length + 7) / 8 ∧
        (∀ i, i < fill.toNat ∨ fill.toNat + 7 * septets.length ≤ i → bitAt 8 data i = false) ∧
        unpackSeptets data septets.length fill = .ok septets) ∧
    (∀ (data septets : Octets) (n : Nat) (fill : UInt8), unpackSeptets data n fill = .ok septets →
      data.length = (fill.toNat + 7 * n + 7) / 8 →
      (∀ i, i < fill.toNat ∨ fill.toNat + 7 * n ≤ i → bitAt 8 data i = false) →
      packSeptetsWithFill septets fill = .ok data) ∧
    (∀ (septets : Octets) (fill : UInt8),
      (∃ err, packSeptetsWithFill septets fill = .error err) ↔ 6 < fill ∨ ∃ s ∈ septets, 0x80 ≤ s) := by
  refine ⟨fun septets fill hs hf => ?_, fun data septets n fill hun hlen hzero => ?_, packSeptetsWithFill_error_iff⟩
  · obtain ⟨data, hpack, hlen, hbits⟩ := packSeptetsWithFill_ok hs hf
    refine ⟨data, hpack, hlen, fun i hi => ?_, unpackSeptets_packed hpack⟩
    rw [hbits]
    rcases hi with hi | hi
    · rw [decide_eq_false (Nat.not_le.mpr hi), Bool.false_and]
    · rw [bitAt_of_length_le (by decide) (by omega), Bool.and_false]
  · obtain ⟨hf, hcount, hlt, hsame⟩ := unpackSeptets_ok hun
    obtain ⟨packed, hpack, hplen, hbits⟩ := packSeptetsWithFill_ok hlt hf
    have heq : packed = data := by
      refine bitAt_ext (w := 8) (fun o _ => o.toNat_lt) (fun o _ => o.toNat_lt) (by rw [hplen, hcount, hlen]) fun i _ => ?_
      rw [hbits]
      by_cases hin : fill.toNat ≤ i ∧ i < fill.toNat + 7 * n
      · rw [hsame _ (by omega), decide_eq_true hin.1, Bool.true_and, Nat.add_sub_cancel' hin.1]
      · rw [hzero i (by omega)]
        by_cases hle : fill.toNat ≤ i
        · rw [bitAt_of_length_le (by decide) (by omega), Bool.and_false]
        · rw [decide_eq_false hle, Bool.false_and]
    rw [hpack, heq]

/-- Three septets behind one fill bit. -/
theorem packSeptets_exact_three :
    packSeptetsWithFill [0x61, 0x1b, 0x3c] 1 = .ok [0xc2, 0x1b, 0x1e] ∧
      unpackSeptets [0xc2, 0x1b, 0x1e] 3 1 = .ok [0x61, 0x1b, 0x3c] := by
  obtain ⟨data, hdata, -, -, hun⟩ := packSeptets_exact.1 [0x61, 0x1b, 0x3c] 1 (by simp) (by decide)
  have hvalue : packSeptetsWithFill [0x61, 0x1b, 0x3c] 1 = .ok [0xc2, 0x1b, 0x1e] := by decide +kernel
  rw [hvalue] at hdata
  cases hdata
  exact ⟨hvalue, hun⟩

/-! ## The guard of `UnpackSeptets` -/

/-- The largest allocation of the Go runtime on 64-bit platforms: `make` panics beyond it. -/
def maxAlloc : Int := 2 ^ 48

/-- One round of the inner loop of `UnpackSeptets`, `none` where `data[pos/8]` is out of range. -/
def readBit (data : Octets) (bitPos : Nat) (septet : UInt8) (bit : Nat) : Option UInt8 :=
  data[(bitPos + bit) / 8]?.map fun octet =>
    if octet &&& (1 <<< UInt8.ofNat ((bitPos + bit) % 8)) ≠ 0 then septet ||| (1 <<< UInt8.ofNat bit) else septet

def readSeptets (data : Octets) : Nat → Nat → Option Octets
  | 0, _ => some []
  | count + 1, bitPos => do
    let septet ← (List.range 7).foldlM (readBit data bitPos) 0
    let rest ← readSeptets data count (bitPos + 7)
    return septet :: rest

/-- `UnpackSeptets` in the machine's integers. The positions stay below `2 ^ 63`, since `make` has bounded the count. -/
def unpackSeptets64 (data : Octets) (count : Int64) (fillBits : UInt8) : Outcome (Except Err Octets) :=
  if count < 0 ∨ 6 < fillBits then
    .returned (.error (invalidGSM7 ("count=" ++ toString count.toInt ++ " fill=" ++ toString fillBits.toNat)))
  else
    let requiredBits := Int64.ofNat fillBits.toNat + count * 7
    let haveBits := Int64.ofNat data.length * 8
    if haveBits < requiredBits then
      .returned (.error (invalidGSM7
        ("need " ++ toString requiredBits.toInt ++ " bits, have " ++ toString haveBits.toInt)))
    else if maxAlloc < count.toInt then .panicked (.value "makeslice: len out of range")
    else
      match readSeptets data count.toInt.toNat fillBits.toNat with
      | none => .panicked (.value "index out of range")
      | some out => .returned (.ok out)

section Guard
variable {data : Octets} {bitPos : Nat}

theorem foldlM_readBit_some (bits : List Nat) (h : ∀ bit ∈ bits, bitPos + bit < 8 * data.length) (septet : UInt8) :
    bits.foldlM (readBit data bitPos) septet = some (bits.foldl (fun septet bit =>
      if data.getD ((bitPos + bit) / 8) 0 &&& (1 <<< UInt8.ofNat ((bitPos + bit) % 8)) ≠ 0 then
        septet ||| (1 <<< UInt8.ofNat bit)
      else septet) septet) := by
  induction bits generalizing septet with
  | nil => rfl
  | cons bit bits ih =>
    obtain ⟨hbit, hbits⟩ := List.forall_mem_cons.mp h
    have hindex : (bitPos + bit) / 8 < data.length := by omega
    have hread : readBit data bitPos septet bit =
        some (if data.getD ((bitPos + bit) / 8) 0 &&& (1 <<< UInt8.ofNat ((bitPos + bit) % 8)) ≠ 0 then
          septet ||| (1 <<< UInt8.ofNat bit) else septet) := by
      rw [readBit, List.getD_eq_getElem?_getD, List.getElem?_eq_getElem hindex]
      rfl
    rw [List.foldlM_cons, hread, List.foldl_cons]
    exact ih hbits _

theorem foldlM_readBit_none (bits : List Nat) (h : ∃ bit ∈ bits, 8 * data.length ≤ bitPos + bit) (septet : UInt8) :
    bits.foldlM (readBit data bitPos) septet = none := by
  induction bits generalizing septet with
  | nil =>
    obtain ⟨bit, hmem, -⟩ := h
    exact absurd hmem List.not_mem_nil
  | cons bit bits ih =>
    rw [List.foldlM_cons]
    by_cases hbit : 8 * data.length ≤ bitPos + bit
    · have hindex : data.length ≤ (bitPos + bit) / 8 := by omega
      have hread : readBit data bitPos septet bit = none := by
        rw [readBit, List.getElem?_eq_none hindex]
        rfl
      rw [hread]
      rfl
    · obtain ⟨bit', hmem, hle⟩ := h
      rcases List.mem_cons.mp hmem with rfl | hmem
      · exact absurd hle hbit
      cases readBit data bitPos septet bit with
      | none => rfl
      | some septet => exact ih ⟨bit', hmem, hle⟩ septet

theorem readSeptets_some (data : Octets) : ∀ count bitPos : Nat, bitPos + 7 * count ≤ 8 * data.length →
    readSeptets data count bitPos = some (unpackFrom data count bitPos)
  | 0, _, _ => rfl
  | count + 1, bitPos, h => by
    have hin : ∀ bit ∈ List.range 7, bitPos + bit < 8 * data.length := by
      intro bit hbit
      rw [List.mem_range] at hbit
      omega
    have hseptet := foldlM_readBit_some (List.range 7) hin 0
    rw [readSeptets, hseptet, readSeptets_some data count (bitPos + 7) (by omega)]
    rfl

theorem readSeptets_none (data : Octets) : ∀ count bitPos : Nat, 0 < count → 8 * data.length < bitPos + 7 * count →
    readSeptets data count bitPos = none
  | 0, _, h, _ => absurd h (Nat.lt_irrefl 0)
  | count + 1, bitPos, _, h => by
    rw [readSeptets]
    by_cases hfirst : 8 * data.length < bitPos + 7
    · rw [foldlM_readBit_none (List.range 7) ⟨6, by decide, by omega⟩ 0]
      rfl
    · have hrest := readSeptets_none data count (bitPos + 7) (by omega) (by omega)
      rw [hrest]
      cases (List.range 7).foldlM (readBit data bitPos) 0 <;> rfl

end Guard

/-- The number of bits the septets and the fill need. -/
def bitsRequired (count : Int64) (fill : UInt8) : Int := fill.toNat + 7 * count.toInt

def bitsIn (data : Octets) : Int := 8 * data.length

/-- The value of an integer in 64 bits. -/
def wrap64 (n : Int) : Int := n.bmod (2 ^ 64)

theorem wrap64_of_lt {n : Int} (h0 : 0 ≤ n) (h : n < 2 ^ 63) : wrap64 n = n := by
  unfold wrap64
  rw [Int.bmod_eq_of_le (by omega) (by omega)]

theorem toInt_required (count : Int64) (fill : UInt8) :
    (Int64.ofNat fill.toNat + count * 7).toInt = wrap64 (bitsRequired count fill) := by
  have hseven : (7 : Int64).toInt = 7 := by decide
  have hsize : Int64.size = 2 ^ 64 := rfl
  rw [Int64.toInt_add, Int64.toInt_mul, Int64.toInt_ofNat', hseven, hsize, Int.bmod_add_bmod, Int.add_bmod_bmod, wrap64,
    bitsRequired, Int.mul_comm]

theorem toInt_have (data : Octets) : (Int64.ofNat data.length * 8).toInt = wrap64 (bitsIn data) := by
  have height : (8 : Int64).toInt = 8 := by decide
  have hsize : Int64.size = 2 ^ 64 := rfl
  rw [Int64.toInt_mul, Int64.toInt_ofNat', height, hsize, Int.bmod_mul_bmod, wrap64, bitsIn, Int.mul_comm]

/-- What the guard is for: an error exactly where the count or the fill is invalid or the septets do not fit, and else as many
septets as were asked for. -/
structure Guarded (data : Octets) (count : Int64) (fill : UInt8) : Prop where
  error : (∃ e, unpackSeptets64 data count fill = .returned (.error e)) ↔
    count < 0 ∨ 6 < fill ∨ bitsIn data < bitsRequired count fill
  returns : (∀ e, unpackSeptets64 data count fill ≠ .returned (.error e)) →
    ∃ out, unpackSeptets64 data count fill = .returned (.ok out) ∧ out.length = count.toInt ∧ ∀ s ∈ out, s < 0x80

section Guard
variable {data : Octets} {count : Int64} {fill : UInt8}

theorem unpackSeptets64_eq (data : Octets) (hvalid : ¬ (count < 0 ∨ 6 < fill)) : ∃ e,
    unpackSeptets64 data count fill =
      if wrap64 (bitsIn data) < wrap64 (bitsRequired count fill) then .returned (.error e)
      else if maxAlloc < count.toInt then .panicked (.value "makeslice: len out of range")
      else
        match readSeptets data count.toInt.toNat fill.toNat with
        | none => .panicked (.value "index out of range")
        | some out => .returned (.ok out) := by
  unfold unpackSeptets64
  simp only [if_neg hvalid]
  simp only [Int64.lt_iff_toInt_lt, toInt_required, toInt_have]
  exact ⟨_, rfl⟩

theorem valid_bounds (hvalid : ¬ (count < 0 ∨ 6 < fill)) : 0 ≤ count.toInt ∧ fill.toNat ≤ 6 := by
  obtain ⟨hcount, hfill⟩ := not_or.mp hvalid
  rw [Int64.lt_iff_toInt_lt] at hcount
  exact ⟨not_lt.mp hcount, UInt8.le_iff_toNat_le.mp (UInt8.not_lt.mp hfill)⟩

theorem wrap64_bitsRequired (hvalid : ¬ (count < 0 ∨ 6 < fill)) (halloc : count.toInt ≤ maxAlloc) :
    wrap64 (bitsRequired count fill) = bitsRequired count fill := by
  obtain ⟨hcount, hfill⟩ := valid_bounds hvalid
  unfold maxAlloc at halloc
  refine wrap64_of_lt ?_ ?_ <;> unfold bitsRequired <;> omega

theorem readSeptets_valid (hvalid : ¬ (count < 0 ∨ 6 < fill)) (hle : bitsRequired count fill ≤ wrap64 (bitsIn data)) :
    readSeptets data count.toInt.toNat fill.toNat =
      if bitsRequired count fill ≤ bitsIn data then some (unpackFrom data count.toInt.toNat fill.toNat) else none := by
  obtain ⟨hcount, hfill⟩ := valid_bounds hvalid
  have hrequired : bitsRequired count fill = ((fill.toNat + 7 * count.toInt.toNat : Nat) : Int) := by
    unfold bitsRequired
    omega
  have hin : bitsIn data = ((8 * data.length : Nat) : Int) := by
    unfold bitsIn
    omega
  split
  case isTrue hfits => exact readSeptets_some data _ _ (by omega)
  case isFalse hfits =>
    refine readSeptets_none data _ _ ?_ (by omega)
    by_contra hzero
    have hsmall : wrap64 (bitsIn data) = bitsIn data := wrap64_of_lt (by omega) (by omega)
    omega

theorem guarded_of_error (hvalid : ¬ (count < 0 ∨ 6 < fill)) {e : Err}
    (h : unpackSeptets64 data count fill = .returned (.error e)) :
    Guarded data count fill ↔ bitsIn data < bitsRequired count fill := by
  obtain ⟨hcount, hfill⟩ := not_or.mp hvalid
  constructor
  · rintro ⟨herror, -⟩
    exact ((herror.mp ⟨e, h⟩).resolve_left hcount).resolve_left hfill
  · intro hlt
    exact ⟨⟨fun _ => .inr (.inr hlt), fun _ => ⟨e, h⟩⟩, fun hno => absurd h (hno e)⟩

theorem not_guarded_of_panicked {v : PanicValue} (h : unpackSeptets64 data count fill = .panicked v) :
    ¬ Guarded data count fill := by
  rintro ⟨-, hreturns⟩
  obtain ⟨out, hout, -⟩ := hreturns fun e he => by
    rw [h] at he
    cases he
  rw [h] at hout
  cases hout

theorem guarded_of_fits (hvalid : ¬ (count < 0 ∨ 6 < fill)) (hfits : bitsRequired count fill ≤ bitsIn data)
    (h : unpackSeptets64 data count fill = .returned (.ok (unpackFrom data count.toInt.toNat fill.toNat))) :
    Guarded data count fill := by
  obtain ⟨hcount, hfill⟩ := valid_bounds hvalid
  obtain ⟨hlen, hlt, -⟩ := unpackFrom_spec data count.toInt.toNat fill.toNat
  refine ⟨⟨?_, ?_⟩, fun _ => ⟨_, h, by rw [hlen]; omega, hlt⟩⟩
  · rintro ⟨e, he⟩
    rw [h] at he
    cases he
  · rintro (hneg | hbig | hmore)
    · exact absurd (.inl hneg) hvalid
    · exact absurd (.inr hbig) hvalid
    · exact absurd hfits (not_le.mpr hmore)

/-- The comparison of the wrapped bit counts, with the allocation that follows it, comes out as that of the exact ones. -/
def GuardAgrees (data : Octets) (count : Int64) (fill : UInt8) : Prop :=
  (bitsRequired count fill ≤ bitsIn data ∧ bitsRequired count fill ≤ wrap64 (bitsIn data) ∧ count.toInt ≤ maxAlloc) ∨
    (bitsIn data < bitsRequired count fill ∧ wrap64 (bitsIn data) < wrap64 (bitsRequired count fill))

theorem guardAgrees_of_lt (hcount : 0 ≤ count.toInt) (hin : bitsIn data < 2 ^ 63)
    (hrequired : bitsRequired count fill < 2 ^ 63)
    (halloc : bitsRequired count fill ≤ bitsIn data → count.toInt ≤ maxAlloc) : GuardAgrees data count fill := by
  have hwin : wrap64 (bitsIn data) = bitsIn data := wrap64_of_lt (by unfold bitsIn; omega) hin
  have hwrequired : wrap64 (bitsRequired count fill) = bitsRequired count fill :=
    wrap64_of_lt (by unfold bitsRequired; omega) hrequired
  unfold GuardAgrees
  rw [hwin, hwrequired]
  rcases le_or_gt (bitsRequired count fill) (bitsIn data) with hle | hlt
  · exact .inl ⟨hle, hle, halloc hle⟩
  · exact .inr ⟨hlt, hlt⟩

/-- **The guard of `UnpackSeptets`.** It does what it is for exactly when the count or the fill is invalid, or the wrapped bit
counts compare as the exact ones do. -/
theorem unpackSeptets64_guarded_iff (data : Octets) (count : Int64) (fill : UInt8) :
    Guarded data count fill ↔ count < 0 ∨ 6 < fill ∨ GuardAgrees data count fill := by
  by_cases hvalid : count < 0 ∨ 6 < fill
  case pos =>
    have herror : ∃ e, unpackSeptets64 data count fill = .returned (.error e) := ⟨_, if_pos hvalid⟩
    have hguarded : Guarded data count fill :=
      ⟨⟨fun _ => hvalid.imp_right .inl, fun _ => herror⟩, fun hno => absurd herror.choose_spec (hno _)⟩
    exact iff_of_true hguarded (hvalid.imp_right .inl)
  obtain ⟨hcount, hfill⟩ := not_or.mp hvalid
  simp only [hcount, hfill, false_or, GuardAgrees]
  obtain ⟨e, heq⟩ := unpackSeptets64_eq data hvalid
  by_cases hrefused : wrap64 (bitsIn data) < wrap64 (bitsRequired count fill)
  case pos =>
    -- refused: rightly if the septets do not fit; those of a small count were counted exactly
    rw [if_pos hrefused] at heq
    rw [guarded_of_error hvalid heq]
    constructor
    · exact fun hlt => .inr ⟨hlt, hrefused⟩
    · rintro (⟨-, hle, halloc⟩ | ⟨hlt, -⟩)
      · rw [wrap64_bitsRequired hvalid halloc] at hrefused
        exact absurd hle (not_le.mpr hrefused)
      · exact hlt
  rw [if_neg hrefused] at heq
  by_cases halloc : maxAlloc < count.toInt
  case pos =>
    rw [if_pos halloc] at heq
    refine iff_of_false (not_guarded_of_panicked heq) ?_
    rintro (⟨-, -, hle⟩ | ⟨-, hlt⟩)
    · exact absurd hle (not_le.mpr halloc)
    · exact hrefused hlt
  rw [if_neg halloc] at heq
  rw [not_lt] at halloc
  have hle : bitsRequired count fill ≤ wrap64 (bitsIn data) := by
    rw [← wrap64_bitsRequired hvalid halloc]
    exact not_lt.mp hrefused
  rw [readSeptets_valid hvalid hle] at heq
  by_cases hfits : bitsRequired count fill ≤ bitsIn data
  · rw [if_pos hfits] at heq
    exact iff_of_true (guarded_of_fits hvalid hfits heq) (.inl ⟨hfits, hle, halloc⟩)
  · rw [if_neg hfits] at heq
    refine iff_of_false (not_guarded_of_panicked heq) ?_
    rintro (⟨hle', -⟩ | ⟨-, hlt⟩)
    · exact hfits hle'
    · exact hrefused hlt

/-- `7 * count` is `2 ^ 63 + 6`, which wraps to a negative number: no octets are enough, and `make` panics. -/
theorem unpackSeptets64_unguarded :
    unpackSeptets64 [] 1317624576693539402 0 = .panicked (.value "makeslice: len out of range") ∧
      ¬ Guarded [] 1317624576693539402 0 := by
  have hpanics : unpackSeptets64 [] 1317624576693539402 0 = .panicked (.value "makeslice: len out of range") := by
    decide +kernel
  exact ⟨hpanics, not_guarded_of_panicked hpanics⟩

/-- Where no bit count overflows and the septets that fit can be allocated, the code is the function over the integers. -/
theorem unpackSeptets64_eq_unpackSeptets (hin : bitsIn data < 2 ^ 63) (hrequired : bitsRequired count fill < 2 ^ 63)
    (halloc : bitsRequired count fill ≤ bitsIn data → count.toInt ≤ maxAlloc) :
    unpackSeptets64 data count fill = .returned (unpackSeptets data count.toInt fill) := by
  have hneg : (count < 0 ∨ 6 < fill) ↔ (count.toInt < 0 ∨ 6 < fill) := or_congr_left Int64.lt_iff_toInt_lt
  unfold unpackSeptets64 unpackSeptets
  by_cases hvalid : count < 0 ∨ 6 < fill
  · rw [if_pos hvalid, if_pos (hneg.mp hvalid)]
  obtain ⟨hcount, hfill⟩ := valid_bounds hvalid
  unfold bitsRequired at hrequired halloc
  have htoInt : (Int64.ofNat fill.toNat + count * 7).toInt = (fill.toNat + count.toInt.toNat * 7 : Nat) := by
    rw [toInt_required, bitsRequired, wrap64_of_lt (by omega) hrequired]
    omega
  have hhave : (Int64.ofNat data.length * 8).toInt = (data.length * 8 : Nat) := by
    rw [toInt_have, wrap64_of_lt (by unfold bitsIn; omega) hin, bitsIn]
    omega
  simp only [if_neg hvalid, if_neg (hneg.not.mp hvalid)]
  simp only [Int64.lt_iff_toInt_lt, htoInt, hhave, Nat.cast_lt]
  split
  case isTrue => rfl
  case isFalse hfits =>
    rw [if_neg (not_lt.mpr (halloc (by unfold bitsIn; omega))), readSeptets_some data _ _ (by omega)]

end Guard

end GoSmpp.Encoding
