import GoSmpp.Message.ReceiptParameters

/-!
# The text of a delivery receipt

* `textFields_marker`: what stands behind a word that starts with `text:` is not read.
* `parseDeliveryReceipt_echo`: so the original message that a receipt quotes has no influence on it.
-/

namespace GoSmpp.Message

open GoSmpp.Lib GoSmpp.Encoding
open GoSmpp.Protocol hiding Kind

/-! ## The marker -/

/-- `text:` in any case. -/
def IsMarker (m : Octets) : Prop := m.map lower = textLabel

/-- A word can start behind `p`: it is empty or ends with white space. -/
def EndsWord (p : Octets) : Prop := p = [] ∨ ∃ q, ∃ sep ∈ whiteSpace.codes, p = q ++ sep

theorem eq_of_lower {b x : UInt8} (h : lower b = x) : b = x ∨ b = x - 0x20 := by
  unfold lower at h
  split at h
  case isTrue => exact .inr (by rw [← h, UInt8.add_sub_cancel])
  case isFalse => exact .inl h

/-- An ASCII octet that is no white space. -/
def plainOctet (b : UInt8) : Bool := b < 0x80 && whiteSpace.codes.all (·.head? != some b)

theorem IsMarker.plain {m : Octets} (hm : IsMarker m) {b : UInt8} (hb : b ∈ m) : plainOctet b = true := by
  have hlabel : textLabel.all (fun x => plainOctet x && plainOctet (x - 0x20)) = true := by decide
  have hx : lower b ∈ textLabel := hm ▸ List.mem_map_of_mem hb
  obtain ⟨hlower, hupper⟩ := Bool.and_eq_true_iff.mp (List.all_eq_true.mp hlabel _ hx)
  rcases eq_of_lower (b := b) rfl with h | h
  · rw [h]
    exact hlower
  · rw [h]
    exact hupper

theorem IsMarker.octet {m : Octets} (hm : IsMarker m) {b : UInt8} (hb : b ∈ m) :
    b < 0x80 ∧ ∀ c ∈ whiteSpace.codes, c.head? ≠ some b := by
  obtain ⟨hascii, hcodes⟩ := Bool.and_eq_true_iff.mp (hm.plain hb)
  exact ⟨of_decide_eq_true hascii, fun c hc => bne_iff_ne.mp (List.all_eq_true.mp hcodes c hc)⟩

theorem equalFold_cons {a b : UInt8} (ha : a < 0x80) (s t : Octets) :
    equalFold (a :: s) (b :: t) = (lower a == lower b && equalFold s t) := by
  rw [equalFold, decide_eq_true ha, Bool.true_and]
  · rintro _ rfl
    exact absurd ha (by decide)
  · rintro _ rfl
    exact absurd ha (by decide)

theorem equalFold_of_lower : ∀ {s t : Octets}, (∀ b ∈ s, b < 0x80) → s.map lower = t.map lower → equalFold s t = true
  | [], [], _, _ => rfl
  | a :: s, b :: t, hs, h => by
    obtain ⟨ha, hs⟩ := List.forall_mem_cons.mp hs
    obtain ⟨hab, hst⟩ := List.cons.inj h
    rw [equalFold_cons ha, beq_iff_eq.mpr hab, equalFold_of_lower hs hst]
    rfl

theorem IsMarker.word {m : Octets} (hm : IsMarker m) (more : Octets) :
    hasLabel textLabel (m ++ more) = true ∧ 0x3a ∈ m ++ more := by
  have hlength : textLabel.length = m.length := by rw [← hm, List.length_map]
  have hlower : m.map lower = textLabel.map lower := hm
  constructor
  · rw [hasLabel, hlength, List.take_left, List.length_append, decide_eq_true (Nat.le_add_right _ _), Bool.true_and]
    exact equalFold_of_lower (fun b hb => (hm.octet hb).1) hlower
  · refine List.mem_append_left _ ?_
    have hcolon : (0x3a : UInt8) ∈ m.map lower := by
      rw [hm]
      decide
    obtain ⟨b, hb, hlower⟩ := List.mem_map.mp hcolon
    rcases eq_of_lower hlower with rfl | rfl
    · exact hb
    · cases hlower

theorem fields_marker {p m : Octets} (hp : EndsWord p) (hm : IsMarker m) : ∃ before : List Octets, ∀ s : Octets,
    ∃ (more : Octets) (words : List Octets), fields (p ++ m ++ s) = before ++ (m ++ more) :: words := by
  have hne : m ≠ [] := by
    rintro rfl
    cases hm
  have hfirst (s : Octets) := Separators.fields_start hne (fun b hb => (hm.octet hb).2) s
  rcases hp with rfl | ⟨q, sep, hsep, rfl⟩
  · exact ⟨[], hfirst⟩
  · refine ⟨fields q, ?_⟩
    intro s
    obtain ⟨more, words, hwords⟩ := hfirst s
    have hstarts : whiteSpace.Starts (m ++ s) := by
      intro b hb
      rw [List.head?_append_of_ne_nil m hne] at hb
      have hascii := (hm.octet (List.mem_of_mem_head? hb)).1
      show (decide (0x80 ≤ b) && decide (b ≤ 0xbf)) = false
      rw [decide_eq_false (UInt8.not_le.mpr hascii)]
      rfl
    refine ⟨more, words, ?_⟩
    rw [List.append_assoc, fields, Separators.fields_separated hsep hstarts, hwords]
    rfl

/-! ## The fields before it -/

/-- **Nothing behind a word that starts with `text:` is read**, not even as the value of a label that stands before it. -/
theorem textFields_marker {word word' : Octets} {rest rest' : List Octets} (hword : hasLabel textLabel word = true)
    (hcolon : 0x3a ∈ word) (hword' : hasLabel textLabel word' = true) (hcolon' : 0x3a ∈ word') :
    ∀ (before : List Octets) (found : TextFields),
      textFields (before ++ word :: rest) found = textFields (before ++ word' :: rest') found
  | [], found => by
    rw [List.nil_append, List.nil_append, textFields, textFields, if_pos hword, if_pos hword']
  | w :: before, found => by
    have ih := @textFields_marker word word' rest rest' hword hcolon hword' hcolon' before
    rw [List.cons_append, List.cons_append, textFields, textFields]
    by_cases hw : hasLabel textLabel w = true
    · rw [if_pos hw, if_pos hw]
    rw [if_neg hw, if_neg hw]
    rcases labelled w with _ | ⟨field, _ | ⟨b, value⟩⟩
    · exact ih found
    · cases before with
      | nil =>
        show (if 0x3a ∈ word then _ else _) = (if 0x3a ∈ word' then _ else _)
        rw [if_pos hcolon, if_pos hcolon']
        exact ih found
      | cons next before =>
        show (if 0x3a ∈ next then _ else _) = (if 0x3a ∈ next then _ else _)
        by_cases hnext : 0x3a ∈ next
        · rw [if_pos hnext, if_pos hnext]
          exact ih found
        · rw [if_neg hnext, if_neg hnext]
          refine congrArg (found.set field next >>= ·) (funext fun found => ?_)
          exact textFields_marker hword hcolon hword' hcolon' before found
    · exact congrArg (found.set field (b :: value) >>= ·) (funext ih)

theorem extractReceiptTextFields_echo {p m : Octets} (hp : EndsWord p) (hm : IsMarker m) (s₁ s₂ : Octets) :
    extractReceiptTextFields (p ++ m ++ s₁) = extractReceiptTextFields (p ++ m ++ s₂) := by
  obtain ⟨before, hbefore⟩ := fields_marker hp hm
  obtain ⟨more₁, words₁, h₁⟩ := hbefore s₁
  obtain ⟨more₂, words₂, h₂⟩ := hbefore s₂
  rw [extractReceiptTextFields, extractReceiptTextFields, h₁, h₂]
  exact textFields_marker (hm.word more₁).1 (hm.word more₁).2 (hm.word more₂).1 (hm.word more₂).2 before {}

/-! ## The quoted message -/

/-- Octets that a receiver reads as a text: as they are, or as strict UCS-2. -/
def Carries (coding : DataCoding) (raw text : Octets) : Prop :=
  (coding = dataCodingSMSCDefault ∧ raw = text) ∨
  (coding = dataCodingUCS2 ∧ ∃ string : ByteArray, decodeUCS2 raw = .ok string ∧ string.data.toList = text)

/-- Where a message has its text: in short_message, or in its only message_payload parameter. -/
inductive Carrier where
  | shortMessage
  | messagePayload (before after : List OptionalParameter) (only : ∀ p ∈ before ++ after, p.tag ≠ tlvTagMessagePayload)

/-- A message with a text in its place. -/
def Carrier.put (deliver : ShortMessageBody) : Carrier → Octets → ShortMessageBody
  | .shortMessage, raw => { deliver with shortMessage := raw }
  | .messagePayload before after _, raw => { deliver with optional := before ++ ⟨tlvTagMessagePayload, raw⟩ :: after }

theorem Carries.receiptText {coding : DataCoding} {raw text : Octets} (h : Carries coding raw text) (htext : text ≠ []) :
    raw ≠ [] ∧ receiptText coding raw = .ok text := by
  rcases h with ⟨rfl, rfl⟩ | ⟨rfl, string, hstring, rfl⟩
  · refine ⟨htext, ?_⟩
    rw [Message.receiptText, if_neg htext, if_neg (by decide), if_pos rfl]
  · have hraw : raw ≠ [] := by
      rintro rfl
      cases hstring
      exact htext rfl
    refine ⟨hraw, ?_⟩
    rw [Message.receiptText, if_neg hraw, if_pos rfl, hstring]

section Echo
variable {coding : DataCoding} {p m s₁ s₂ raw₁ raw₂ : Octets}

theorem readText_echo (hp : EndsWord p) (hm : IsMarker m) (h₁ : Carries coding raw₁ (p ++ m ++ s₁))
    (h₂ : Carries coding raw₂ (p ++ m ++ s₂)) :
    raw₁ ≠ [] ∧ raw₂ ≠ [] ∧ readText coding raw₁ = readText coding raw₂ := by
  have htext (s : Octets) : p ++ m ++ s ≠ [] := by
    intro hnil
    obtain ⟨hpm, -⟩ := List.append_eq_nil_iff.mp hnil
    obtain ⟨-, rfl⟩ := List.append_eq_nil_iff.mp hpm
    cases hm
  obtain ⟨hraw₁, hread₁⟩ := h₁.receiptText (htext s₁)
  obtain ⟨hraw₂, hread₂⟩ := h₂.receiptText (htext s₂)
  refine ⟨hraw₁, hraw₂, ?_⟩
  rw [readText, readText, hread₁, hread₂]
  exact extractReceiptTextFields_echo hp hm s₁ s₂

theorem gathered_payload_iff {before after : List OptionalParameter}
    (honly : ∀ p ∈ before ++ after, p.tag ≠ tlvTagMessagePayload) {raw : Octets} {v : ReceiptValues} :
    Gathered {} (before ++ ⟨tlvTagMessagePayload, raw⟩ :: after) v ↔
      Unanimous none (messageIDs (before ++ after)) v.id ∧ Unanimous none (messageStates (before ++ after)) v.state ∧
        v.payload = some raw := by
  have hother {α : Type} {tag : UInt16} {read : Octets → Option α} (htag : tlvTagMessagePayload ≠ tag) :
      readings tag read (before ++ ⟨tlvTagMessagePayload, raw⟩ :: after) = readings tag read (before ++ after) := by
    rw [readings_append, readings_append]
    exact congrArg (readings tag read before ++ ·) (readings_cons_ne htag)
  have hpayloads : messagePayloads (before ++ ⟨tlvTagMessagePayload, raw⟩ :: after) = [some raw] := by
    have hafter : messagePayloads after = [] := readings_eq_nil fun p hp => honly p (List.mem_append_right _ hp)
    have hself : readings tlvTagMessagePayload some (⟨tlvTagMessagePayload, raw⟩ :: after) = some raw :: messagePayloads after :=
      readings_cons_self rfl
    rw [messagePayloads, readings_append, readings_eq_nil fun p hp => honly p (List.mem_append_left _ hp), hself, hafter]
    rfl
  constructor
  · rintro ⟨hids, hstates, hpayload⟩
    rw [messageIDs, hother (by decide)] at hids
    rw [messageStates, hother (by decide)] at hstates
    rw [hpayloads] at hpayload
    exact ⟨hids, hstates, ((hpayload.agree _ List.mem_cons_self).2).symm⟩
  · rintro ⟨hids, hstates, hpayload⟩
    refine ⟨?_, ?_, ?_⟩
    · rw [messageIDs, hother (by decide)]
      exact hids
    · rw [messageStates, hother (by decide)]
      exact hstates
    · rw [hpayloads, hpayload]
      exact unanimous_cons.mpr ⟨raw, rfl, .inl rfl, unanimous_nil.mpr rfl⟩

/-- **The message that a receipt quotes has no influence on what is read.** -/
theorem parseDeliveryReceipt_echo (deliver : ShortMessageBody) (carrier : Carrier) (hp : EndsWord p) (hm : IsMarker m)
    (h₁ : Carries deliver.dataCoding raw₁ (p ++ m ++ s₁)) (h₂ : Carries deliver.dataCoding raw₂ (p ++ m ++ s₂)) :
    SameResult (parseDeliveryReceipt (carrier.put deliver raw₁)) (parseDeliveryReceipt (carrier.put deliver raw₂)) := by
  obtain ⟨hraw₁, hraw₂, hread⟩ := readText_echo hp hm h₁ h₂
  cases carrier with
  | shortMessage =>
    have hraw (raw : Octets) (hne : raw ≠ []) (tlvs : ReceiptTLVs) :
        receiptRaw (Carrier.put deliver .shortMessage raw) tlvs = raw := if_neg fun h => hne h.1
    refine sameResult_of_gathered ?_ id
    intro v hv
    refine ⟨v, hv, ?_⟩
    rw [receiptFrom_eq, receiptFrom_eq, hraw raw₁ hraw₁, hraw raw₂ hraw₂]
    by_cases hseen : v.tlvs.payloadSeen = true
    · rw [if_pos ⟨hseen, hraw₂⟩, if_pos ⟨hseen, hraw₁⟩]
    · rw [if_neg fun h => hseen h.1, if_neg fun h => hseen h.1]
      exact congrArg (· >>= _) hread.symm
  | messagePayload before after honly =>
    refine sameResult_of_gathered ?_ ?_
    · intro v hv
      obtain ⟨hids, hstates, hpayload⟩ := (gathered_payload_iff honly).mp hv
      refine ⟨{ v with payload := some raw₂ }, (gathered_payload_iff honly).mpr ⟨hids, hstates, rfl⟩, ?_⟩
      obtain ⟨id, state, payload, named⟩ := v
      obtain rfl : payload = some raw₁ := hpayload
      rw [receiptFrom_eq, receiptFrom_eq]
      by_cases hshort : deliver.shortMessage = []
      · have hraw (raw : Octets) : receiptRaw (Carrier.put deliver (.messagePayload before after honly) raw)
            (ReceiptValues.mk id state (some raw) named).tlvs = raw := if_pos ⟨hshort, rfl⟩
        rw [if_neg fun h => h.2 hshort, if_neg fun h => h.2 hshort, hraw, hraw]
        exact congrArg (· >>= _) hread.symm
      · rw [if_pos ⟨rfl, hshort⟩, if_pos ⟨rfl, hshort⟩]
    · rintro ⟨v, hv⟩
      obtain ⟨hids, hstates, -⟩ := (gathered_payload_iff honly).mp hv
      exact ⟨{ v with payload := some raw₁ }, (gathered_payload_iff honly).mpr ⟨hids, hstates, rfl⟩⟩

end Echo

/-- A receipt that quotes a message which looks like one, in short_message and in a message_payload parameter. -/
theorem parseDeliveryReceipt_echo_forged :
    SameResult
      (parseDeliveryReceipt (Carrier.put (receiptMessage [] []) .shortMessage
        (deliveredText ++ [0x20] ++ ascii ['T', 'e', 'x', 't', ':'] ++ ascii ['i', 'd', ':', '8'])))
      (parseDeliveryReceipt (Carrier.put (receiptMessage [] []) .shortMessage
        (deliveredText ++ [0x20] ++ ascii ['T', 'e', 'x', 't', ':'] ++ [0x20, 0xff]))) ∧
    SameResult
      (parseDeliveryReceipt (Carrier.put (receiptMessage [] []) (.messagePayload [] [] nofun)
        (deliveredText ++ [0x20] ++ ascii ['T', 'e', 'x', 't', ':'] ++ ascii ['i', 'd', ':', '8'])))
      (parseDeliveryReceipt (Carrier.put (receiptMessage [] []) (.messagePayload [] [] nofun)
        (deliveredText ++ [0x20] ++ ascii ['T', 'e', 'x', 't', ':'] ++ [0x20, 0xff]))) := by
  have hstart : EndsWord (deliveredText ++ [0x20]) := .inr ⟨deliveredText, [0x20], by decide, rfl⟩
  have hmarker : IsMarker (ascii ['T', 'e', 'x', 't', ':']) := by
    unfold IsMarker
    decide
  constructor
  · exact parseDeliveryReceipt_echo _ _ hstart hmarker (.inl ⟨rfl, rfl⟩) (.inl ⟨rfl, rfl⟩)
  · exact parseDeliveryReceipt_echo _ _ hstart hmarker (.inl ⟨rfl, rfl⟩) (.inl ⟨rfl, rfl⟩)

end GoSmpp.Message
