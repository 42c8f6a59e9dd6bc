import GoSmpp.Codec.Fields

/-!
# Package `codec`: the PDU header

`decodeHeader` and `encodeHeader` of `codec/header.go`. `Header.wire` is the header's sixteen octets, and
`decodeHeader_ok` says that the decoder reads exactly those.
-/

namespace GoSmpp.Codec
open Lib Protocol

def headerSize : Nat := 16

structure Header where
  commandLength : UInt32 := 0
  commandID : CommandID
  commandStatus : CommandStatus
  sequenceNumber : SequenceNumber
  deriving DecidableEq, Repr

def Header.wire (h : Header) : Octets :=
  putUint32 h.commandLength ++ (putUint32 h.commandID ++ (putUint32 h.commandStatus ++ putUint32 h.sequenceNumber))

@[simp] theorem Header.length_wire (h : Header) : h.wire.length = headerSize := rfl

/-- `binary.BigEndian.Uint32` of a four-octet slice. -/
def bigEndianUint32 : Octets → UInt32
  | [a, b, c, d] => uint32 a b c d
  | _ => 0

theorem putUint32_bigEndianUint32 {l : Octets} (h : l.length = 4) : putUint32 (bigEndianUint32 l) = l := by
  match l, h with
  | [a, b, c, d], _ => exact putUint32_uint32 a b c d

theorem bigEndianUint32_putUint32 (n : UInt32) : bigEndianUint32 (putUint32 n) = n := uint32_putUint32 n

theorem putUint32_inj {m n : UInt32} (h : putUint32 m = putUint32 n) : m = n := by
  rw [← bigEndianUint32_putUint32 m, h, bigEndianUint32_putUint32]

theorem Header.wire_append_inj {h h' : Header} {bs bs' : Octets} (e : h.wire ++ bs = h'.wire ++ bs') :
    h = h' ∧ bs = bs' := by
  obtain ⟨hw, hb⟩ := List.append_inj e (by simp)
  obtain ⟨h1, hw⟩ := List.append_inj hw (by simp)
  obtain ⟨h2, hw⟩ := List.append_inj hw (by simp)
  obtain ⟨h3, h4⟩ := List.append_inj hw (by simp)
  cases h
  cases h'
  cases putUint32_inj h1
  cases putUint32_inj h2
  cases putUint32_inj h3
  cases putUint32_inj h4
  exact ⟨rfl, hb⟩

def decodeHeader (src : Octets) : Except Err Header :=
  if src.length < headerSize then
    .error (.fatal { kind := .truncatedFrame, reason := "PDU header shorter than 16 octets" })
  else
    let h : Header :=
      { commandLength := bigEndianUint32 (src.take 4)
        commandID := bigEndianUint32 ((src.drop 4).take 4)
        commandStatus := bigEndianUint32 ((src.drop 8).take 4)
        sequenceNumber := bigEndianUint32 ((src.drop 12).take 4) }
    if h.commandLength.toNat < headerSize then
      .error (.fatal { kind := .invalidCommandLength, declaredLength := h.commandLength, command := h.commandID,
                       sequence := h.sequenceNumber, reason := "command_length is smaller than the SMPP header" })
    else
      .ok h

/-- `EncodeHeader`: the contents of `dst` afterwards. -/
def encodeHeader (dst : Octets) (h : Header) : Except Err Octets :=
  if dst.length < headerSize then .error (.sentinel .shortBuffer)
  else if h.commandLength.toNat < headerSize then .error (.sentinel .invalidCommandLength)
  else .ok (h.wire ++ dst.drop headerSize)

theorem take_drop_split (src : Octets) :
    src = src.take 4 ++ ((src.drop 4).take 4 ++ ((src.drop 8).take 4 ++ (src.drop 12).take 4)) ++ src.drop 16 := by
  have step (n : Nat) : src.drop n = (src.drop n).take 4 ++ src.drop (n + 4) := by
    rw [← List.drop_drop, List.take_append_drop]
  conv_lhs => rw [← List.take_append_drop 4 src, step 4, step 8, step 12]
  simp only [List.append_assoc]

theorem decodeHeader_ok (src : Octets) (h : Header) :
    decodeHeader src = .ok h ↔ src = h.wire ++ src.drop headerSize ∧ headerSize ≤ h.commandLength.toNat := by
  constructor
  · intro hd
    unfold decodeHeader at hd
    split at hd
    · cases hd
    · next hlen =>
      simp only at hd
      split at hd
      · cases hd
      · next hcl =>
        cases hd
        refine ⟨?_, Nat.not_lt.mp hcl⟩
        rw [headerSize] at hlen
        have hl (n : Nat) (hn : n ≤ 12) : ((src.drop n).take 4).length = 4 := by
          rw [List.length_take, List.length_drop]
          omega
        have h0 : (src.take 4).length = 4 := by
          rw [List.length_take]
          omega
        simp only [Header.wire]
        rw [putUint32_bigEndianUint32 h0, putUint32_bigEndianUint32 (hl 4 (by omega)),
          putUint32_bigEndianUint32 (hl 8 (by omega)), putUint32_bigEndianUint32 (hl 12 (by omega))]
        exact take_drop_split src
  · rintro ⟨hs, hcl⟩
    rw [hs]
    generalize src.drop headerSize = body
    unfold decodeHeader
    have e0 : (h.wire ++ body).take 4 = putUint32 h.commandLength := rfl
    have e4 : ((h.wire ++ body).drop 4).take 4 = putUint32 h.commandID := rfl
    have e8 : ((h.wire ++ body).drop 8).take 4 = putUint32 h.commandStatus := rfl
    have e12 : ((h.wire ++ body).drop 12).take 4 = putUint32 h.sequenceNumber := rfl
    rw [if_neg (by simp)]
    simp only [e0, e4, e8, e12, bigEndianUint32_putUint32]
    rw [if_neg (Nat.not_lt.mpr hcl)]

end GoSmpp.Codec
