import GoSmpp.Lib.Format
import GoSmpp.Protocol.Errors
import GoSmpp.Protocol.Pdu

/-!
# Package `codec`: fields and optional parameters

* `readUint8`, `readUint32`, `readCString`, `readOctets`, `optional`, `requireDone` : the primitives of
  `codec/fields.go`, `codec/tlv.go` and the `bodyReader` of `codec/smpp34.go`, as readers of the unread body octets;
* `appendCString`, `appendOptional` : their encoders;
* `CString m v`, `tlvWire`, `tlvsWire` : what a field is on the wire. One `_ok` (or `Reads`) lemma and one `Writes`
  lemma per primitive tie the code to it, and `*_fails` says that the readers only fail fatally.
-/

namespace GoSmpp.Codec
open Lib Protocol

/-- A `bodyReader` computation. -/
abbrev Read := Reader Err

/-- An encoder's `dst, err = append..(dst, ..)` computation. -/
abbrev Append := Appender Err

/-- The errors that package `codec` refuses a PDU with, bare or wrapped. -/
def Refusal : Err → Bool
  | .sentinel s | .wrapped _ (.sentinel s) =>
    [.shortBuffer, .invalidCommandLength, .fieldTooLong, .embeddedNUL, .tlvValueTooLong, .invalidPDUValue,
      .conflictingMessageData, .unknownCommand].contains s
  | _ => false

/-- What an encoder accepts, and what it writes. -/
abbrev Encodes : Append Unit → Prop → Octets → Prop := Writes fun e => Refusal e

/-- The error ends the connection: it is a `protocol.FatalError`. -/
def Fatal (e : Err) : Prop := e.asFatal.isSome

/-! ## Integers -/

def readUint8 : Read UInt8
  | a :: src => .ok (a, src)
  | _ => .error (.fatal { kind := .invalidFieldLength, reason := "missing 1-octet integer" })

def readUint32 : Read UInt32
  | a :: b :: c :: d :: src => .ok (uint32 a b c d, src)
  | _ => .error (.fatal { kind := .invalidFieldLength, reason := "missing 4-octet integer" })

theorem readUint8_ok (s : Octets) (a : UInt8) (r : Octets) : readUint8 s = .ok (a, r) ↔ s = a :: r := by
  cases s <;> simp [readUint8]

theorem readUint32_ok (s : Octets) (n : UInt32) (r : Octets) : readUint32 s = .ok (n, r) ↔ s = putUint32 n ++ r := by
  constructor
  · intro h
    unfold readUint32 at h
    split at h
    · cases h
      rw [putUint32_uint32]
      rfl
    · cases h
  · rintro rfl
    show Except.ok _ = _
    rw [uint32_putUint32]
    rfl

theorem readUint8_fails : Reader.Fails Fatal readUint8 := by
  intro s e h
  unfold readUint8 at h
  split at h <;> cases h
  rfl

theorem readUint32_fails : Reader.Fails Fatal readUint32 := by
  intro s e h
  unfold readUint32 at h
  split at h <;> cases h
  rfl

/-! ## C-Octet Strings -/

def readCString (maxEncodedLen : Nat) : Read Octets := fun src =>
  let limit := if 0 < maxEncodedLen ∧ maxEncodedLen < src.length then maxEncodedLen else src.length
  if limit = 0 then
    .error (.fatal { kind := .invalidCString, reason := "C-Octet String has no room for terminator" })
  else
    match (src.take limit).idxOf? 0 with
    | none =>
      .error (.fatal { kind := .invalidCString,
                       reason := "C-Octet String is not NUL-terminated within its allowed boundary" })
    | some idx => .ok (src.take idx, src.drop (idx + 1))

def appendCString (value : Octets) (maxEncodedLen : Nat) : Append Unit := do
  .failIf (0 ∈ value) (.sentinel .embeddedNUL)
  .failIf (0 < maxEncodedLen ∧ maxEncodedLen < value.length + 1) (.sentinel .fieldTooLong)
  .append value
  .append [0]

/-- A value that fits a C-Octet String field of `m` octets, terminator included (of any length when `m` is 0). -/
def CString (m : Nat) (v : Octets) : Prop := 0 ∉ v ∧ (0 < m → v.length < m)

theorem idxOf?_zero_eq_some (l : Octets) (i : Nat) :
    l.idxOf? 0 = some i ↔ ∃ v r, l = v ++ 0 :: r ∧ (0 : UInt8) ∉ v ∧ v.length = i := by
  induction l generalizing i with
  | nil => simp
  | cons a l ih =>
    rw [List.idxOf?_cons]
    by_cases h : a = 0
    · subst h
      simp only [beq_self_eq_true, if_true, Option.some.injEq]
      constructor
      · rintro rfl
        exact ⟨[], l, rfl, List.not_mem_nil, rfl⟩
      · rintro ⟨v, r, hl, hv, rfl⟩
        cases v with
        | nil => rfl
        | cons b v =>
          cases hl
          exact absurd List.mem_cons_self hv
    · simp only [beq_iff_eq, h, if_false, Option.map_eq_some_iff, ih]
      constructor
      · rintro ⟨j, ⟨v, r, rfl, hv, rfl⟩, rfl⟩
        exact ⟨a :: v, r, rfl, by simp [hv, Ne.symm h], rfl⟩
      · rintro ⟨v, r, hl, hv, rfl⟩
        cases v with
        | nil =>
          cases hl
          exact absurd rfl h
        | cons b v =>
          cases hl
          exact ⟨v.length, ⟨v, r, rfl, fun h' => hv (List.mem_cons_of_mem _ h'), rfl⟩, rfl⟩

theorem readCString_ok (m : Nat) (s v r : Octets) :
    readCString m s = .ok (v, r) ↔ s = v ++ 0 :: r ∧ CString m v := by
  unfold readCString
  simp only
  generalize hL : (if 0 < m ∧ m < s.length then m else s.length) = limit
  have hlim : limit ≤ s.length ∧ (0 < m → limit ≤ m) ∧ (limit = s.length ∨ (0 < m ∧ limit = m)) := by
    split at hL <;> omega
  clear hL
  constructor
  · intro h
    split at h
    · cases h
    · split at h
      · cases h
      · next i hi =>
        obtain ⟨w, t, hs, hw, rfl⟩ := (idxOf?_zero_eq_some _ _).mp hi
        have hs' : s = w ++ 0 :: (t ++ s.drop limit) := by
          calc s = s.take limit ++ s.drop limit := (List.take_append_drop _ _).symm
            _ = _ := by rw [hs, List.append_assoc, List.cons_append]
        have hlen : w.length < limit := by
          have := congrArg List.length hs
          simp only [List.length_take, List.length_append, List.length_cons] at this
          omega
        have hv : s.take w.length = w := by rw [hs', List.take_left]
        have hr : s.drop (w.length + 1) = t ++ s.drop limit := by
          conv_lhs => rw [hs', ← List.drop_drop, List.drop_left, List.drop_one, List.tail_cons]
        rw [hv, hr] at h
        cases h
        exact ⟨hs', hw, fun hm => by omega⟩
  · rintro ⟨rfl, hv, hlen⟩
    have hvl : v.length < limit := by
      simp only [List.length_append, List.length_cons] at hlim
      omega
    have htake : (v ++ 0 :: r).take limit = v ++ 0 :: r.take (limit - v.length - 1) := by
      rw [List.take_append, List.take_of_length_le (Nat.le_of_lt hvl)]
      congr 1
      rw [show limit - v.length = (limit - v.length - 1) + 1 by omega, List.take_succ_cons]
      simp
    have hidx := (idxOf?_zero_eq_some _ _).mpr ⟨v, r.take (limit - v.length - 1), htake, hv, rfl⟩
    rw [if_neg (by omega)]
    simp only [hidx, List.take_left, ← List.drop_drop, List.drop_left, List.drop_one, List.tail_cons]

theorem readCString_fails (m : Nat) : Reader.Fails Fatal (readCString m) := by
  intro s e h
  unfold readCString at h
  simp only at h
  generalize (if 0 < m ∧ m < s.length then m else s.length) = limit at h
  split at h
  · cases h
    rfl
  · split at h <;> cases h
    rfl

theorem appendCString_writes (v : Octets) (m : Nat) : Encodes (appendCString v m) (CString m v) (v ++ [0]) := by
  refine ((Writes.failIf _ _).seq ((Writes.failIf _ _).seq ((Writes.append _).seq (Writes.append _)))).congr ?_ rfl
  simp only [CString, and_true, not_and, Nat.not_lt]
  rfl

/-! ## Octet Strings -/

def readOctets (n : Nat) : Read Octets := fun src =>
  if src.length < n then
    .error (.fatal { kind := .invalidFieldLength, reason := "Octet String length exceeds remaining PDU body" })
  else
    .ok (src.take n, src.drop n)

theorem readOctets_ok (n : Nat) (s v r : Octets) : readOctets n s = .ok (v, r) ↔ s = v ++ r ∧ v.length = n := by
  unfold readOctets
  constructor
  · intro h
    split at h <;> cases h
    exact ⟨(List.take_append_drop _ _).symm, by rw [List.length_take]; omega⟩
  · rintro ⟨rfl, rfl⟩
    simp

/-! ## Optional parameters -/

def tlvHeaderSize : Nat := 4

/-- `ScanTLVs` with a `visit` that collects every TLV. Each round of the loop drops at least the four header octets,
so the length of `src` bounds the number of rounds (`fuel`). -/
def scanTLVs : (fuel : Nat) → Octets → Except Err (List OptionalParameter)
  | _, [] => .ok []
  | 0, _ => .ok []
  | fuel + 1, t0 :: t1 :: l0 :: l1 :: rest =>
    let length := (uint16 l0 l1).toNat
    if rest.length < length then
      .error (.fatal { kind := .invalidTLVLength, reason := "TLV value length exceeds remaining PDU body" })
    else do
      let tlvs ← scanTLVs fuel (rest.drop length)
      return { tag := uint16 t0 t1, value := rest.take length } :: tlvs
  | _ + 1, _ => .error (.fatal { kind := .invalidTLVLength, reason := "truncated TLV header" })

def optional : Read (List OptionalParameter) := fun src => do
  let parameters ← scanTLVs src.length src
  return (parameters, [])

def appendTLV (tag : UInt16) (value : Octets) : Append Unit := do
  .failIf (65535 < value.length) (.sentinel .tlvValueTooLong)
  .append (putUint16 tag)
  .append (putUint16 (UInt16.ofNat value.length))
  .append value

def appendOptional (ps : List OptionalParameter) : Append Unit :=
  ps.forM fun parameter => appendTLV parameter.tag parameter.value

def tlvWire (p : OptionalParameter) : Octets :=
  putUint16 p.tag ++ putUint16 (UInt16.ofNat p.value.length) ++ p.value

def tlvsWire (ps : List OptionalParameter) : Octets := ps.flatMap tlvWire

/-- Every value fits the 16-bit length of a TLV. -/
def TLVsFit (ps : List OptionalParameter) : Prop := ∀ p ∈ ps, p.value.length ≤ 65535

@[simp] theorem tlvsWire_nil : tlvsWire [] = [] := rfl

@[simp] theorem tlvsWire_cons (p : OptionalParameter) (ps : List OptionalParameter) :
    tlvsWire (p :: ps) = tlvWire p ++ tlvsWire ps := rfl

theorem length_tlvWire (p : OptionalParameter) : (tlvWire p).length = 4 + p.value.length := by
  simp only [tlvWire, List.length_append, length_putUint16]

theorem tlvsWire_eq_nil {ps : List OptionalParameter} (h : tlvsWire ps = []) : ps = [] := by
  cases ps with
  | nil => rfl
  | cons p ps =>
    have := congrArg List.length h
    rw [tlvsWire_cons, List.length_append, length_tlvWire, List.length_nil] at this
    omega

theorem toNat_ofNat_length {v : Octets} (h : v.length ≤ 65535) : (UInt16.ofNat v.length).toNat = v.length := by
  rw [UInt16.toNat_ofNat', Nat.mod_eq_of_lt (by omega)]

theorem scanTLVs_sound (fuel : Nat) (s : Octets) (ps : List OptionalParameter) (hfuel : s.length ≤ fuel)
    (h : scanTLVs fuel s = .ok ps) : TLVsFit ps ∧ s = tlvsWire ps := by
  fun_induction scanTLVs fuel s generalizing ps with
  | case1 =>
    cases h
    exact ⟨fun p hp => absurd hp List.not_mem_nil, rfl⟩
  | case2 s hs => exact absurd (List.length_eq_zero_iff.mp (Nat.le_zero.mp hfuel)) hs
  | case3 => cases h
  | case4 fuel t0 t1 l0 l1 rest length hlen ih =>
    obtain ⟨tlvs, htlvs, h⟩ := (Lib.Except.bind_ok _ _ _).mp h
    cases h
    simp only [List.length_cons] at hfuel
    obtain ⟨hfit, hrest⟩ := ih tlvs (by rw [List.length_drop]; omega) htlvs
    have hl : (rest.take length).length = length := by rw [List.length_take]; omega
    have hle : length ≤ 65535 := by
      have := (uint16 l0 l1).toNat_lt
      omega
    refine ⟨?_, ?_⟩
    · intro p hp
      rcases List.mem_cons.mp hp with rfl | hp
      · exact hl.symm ▸ hle
      · exact hfit p hp
    · have hlo : UInt16.ofNat (rest.take length).length = uint16 l0 l1 := by
        rw [hl]
        exact UInt16.ofNat_toNat
      rw [tlvsWire_cons, tlvWire, hlo, putUint16_uint16, putUint16_uint16, ← hrest]
      simp
  | case5 => cases h

theorem scanTLVs_tlvsWire (ps : List OptionalParameter) (hfit : TLVsFit ps) :
    ∀ fuel, (tlvsWire ps).length ≤ fuel → scanTLVs fuel (tlvsWire ps) = .ok ps := by
  induction ps with
  | nil =>
    intro fuel _
    cases fuel <;> rfl
  | cons p ps ih =>
    intro fuel hfuel
    have hp : p.value.length ≤ 65535 := hfit p List.mem_cons_self
    rw [tlvsWire_cons, List.length_append, length_tlvWire] at hfuel
    obtain ⟨fuel, rfl⟩ : ∃ n, fuel = n + 1 := ⟨fuel - 1, by omega⟩
    have hrec := ih (fun q hq => hfit q (List.mem_cons_of_mem _ hq)) fuel (by omega)
    have hw : tlvsWire (p :: ps) = UInt8.ofNat (p.tag.toNat / 2 ^ 8) :: UInt8.ofNat p.tag.toNat ::
        UInt8.ofNat ((UInt16.ofNat p.value.length).toNat / 2 ^ 8) ::
        UInt8.ofNat (UInt16.ofNat p.value.length).toNat :: (p.value ++ tlvsWire ps) := by
      simp [tlvWire, putUint16]
    rw [hw, scanTLVs, uint16_putUint16, uint16_putUint16, toNat_ofNat_length hp, if_neg (by simp), List.drop_left,
      List.take_left, hrec]
    rfl

theorem tlvsWire_inj {ps qs : List OptionalParameter} (hp : TLVsFit ps) (hq : TLVsFit qs)
    (h : tlvsWire ps = tlvsWire qs) : ps = qs := by
  have e := scanTLVs_tlvsWire ps hp _ le_rfl
  rw [h, scanTLVs_tlvsWire qs hq _ le_rfl] at e
  cases e
  rfl

theorem optional_ok (s : Octets) (ps : List OptionalParameter) (r : Octets) :
    optional s = .ok (ps, r) ↔ (s = tlvsWire ps ∧ r = []) ∧ TLVsFit ps := by
  unfold optional
  rw [Lib.Except.bind_ok]
  constructor
  · rintro ⟨_, h, h'⟩
    cases h'
    obtain ⟨hfit, hs⟩ := scanTLVs_sound _ _ _ le_rfl h
    exact ⟨⟨hs, rfl⟩, hfit⟩
  · rintro ⟨⟨rfl, rfl⟩, hfit⟩
    exact ⟨ps, scanTLVs_tlvsWire ps hfit _ le_rfl, rfl⟩

theorem scanTLVs_fails (fuel : Nat) (s : Octets) (e : Err) (h : scanTLVs fuel s = .error e) : Fatal e := by
  fun_induction scanTLVs fuel s generalizing e with
  | case1 => cases h
  | case2 => cases h
  | case3 =>
    cases h
    rfl
  | case4 fuel t0 t1 l0 l1 rest length hlen ih =>
    cases hrec : scanTLVs fuel (rest.drop length) with
    | error e' =>
      rw [hrec] at h
      cases h
      exact ih e hrec
    | ok tlvs =>
      rw [hrec] at h
      cases h
  | case5 =>
    cases h
    rfl

theorem optional_fails : Reader.Fails Fatal optional := by
  intro s e h
  unfold optional at h
  cases hs : scanTLVs s.length s with
  | error e' =>
    rw [hs] at h
    cases h
    exact scanTLVs_fails _ _ _ hs
  | ok ps =>
    rw [hs] at h
    cases h

theorem appendTLV_writes (p : OptionalParameter) :
    Encodes (appendTLV p.tag p.value) (p.value.length ≤ 65535) (tlvWire p) := by
  refine ((Writes.failIf _ _).seq ((Writes.append _).seq ((Writes.append _).seq (Writes.append _)))).congr ?_ ?_
  · simp only [and_true, Nat.not_lt]
  · simp [tlvWire]

theorem appendOptional_writes (ps : List OptionalParameter) :
    Encodes (appendOptional ps) (TLVsFit ps) (tlvsWire ps) :=
  Writes.forM appendTLV_writes ps

def hasNonEmptyMessagePayload (ps : List OptionalParameter) : Bool :=
  ps.any fun parameter => parameter.tag == tlvTagMessagePayload && parameter.value.length != 0

/-! ## The end of the body -/

def requireDone : Read Unit := fun src =>
  if src.length ≠ 0 then
    .error (.semanticBy { status := statusInvalidCommandLength,
                          reason := toString src.length ++ " trailing body octets" } (.sentinel .invalidPDUValue))
  else .ok ((), src)

theorem requireDone_ok (s r : Octets) (u : Unit) : requireDone s = .ok (u, r) ↔ s = [] ∧ r = [] := by
  unfold requireDone
  cases s <;> simp [eq_comm]

end GoSmpp.Codec
