import GoSmpp.Codec.Pdu
import GoSmpp.Codec.Registry
import GoSmpp.Lib.Lists
import GoSmpp.Message.Receipt

/-!
# The parameters of a delivery receipt

* `Gathered`: the values that the parameters of each kind agree on; `foldlM_receiptTLV` says that the loop finds them.
* `SameResult`: the same receipt, or errors of the same class.
* `parseDeliveryReceipt_reordered`: neither order nor repetition of parameters matters.
* `parseDeliveryReceipt_empty_iff`: when an empty message_payload is as good as none.
-/

namespace GoSmpp.Message

open GoSmpp.Lib GoSmpp.Encoding
open GoSmpp.Codec (decodePDU smpp34Registry)
open GoSmpp.Protocol hiding Kind

/-! ## What the parameters say -/

/-- One value of each kind at most. No identifier is empty. -/
structure ReceiptValues where
  id : Option Octets := none
  state : Option UInt8 := none
  payload : Option Octets := none
  named : id ≠ some [] := by decide

/-- The values as the loop keeps them. -/
def ReceiptValues.tlvs (v : ReceiptValues) : ReceiptTLVs :=
  { tlvMessageID := v.id.getD [], tlvState := v.state.getD 0, hasTLVState := v.state.isSome, payload := v.payload.getD []
    payloadSeen := v.payload.isSome }

/-- The values of the parameters with a tag, as `read` has them. -/
def readings {α : Type} (tag : UInt16) (read : Octets → Option α) (optional : List OptionalParameter) : List (Option α) :=
  (optional.filter (·.tag == tag)).map fun p => read p.value

/-- The state of a message_state parameter, none if it is malformed. -/
def readState : Octets → Option UInt8
  | [state] => if state < 1 ∨ 8 < state then none else some state
  | _ => none

def messageIDs (optional : List OptionalParameter) : List (Option Octets) :=
  readings tlvTagReceiptedMessageID (fun value => (receiptTLVMessageID value).toOption) optional

def messageStates (optional : List OptionalParameter) : List (Option UInt8) := readings tlvTagMessageState readState optional

def messagePayloads (optional : List OptionalParameter) : List (Option Octets) := readings tlvTagMessagePayload some optional

/-- The parameters have the values `v`, as do those before them. -/
structure Gathered (start : ReceiptValues) (optional : List OptionalParameter) (v : ReceiptValues) : Prop where
  ids : Unanimous start.id (messageIDs optional) v.id
  states : Unanimous start.state (messageStates optional) v.state
  payloads : Unanimous start.payload (messagePayloads optional) v.payload

section Readings
variable {α : Type} {tag : UInt16} {read : Octets → Option α} {item : OptionalParameter} {optional : List OptionalParameter}

theorem readings_cons_self (h : item.tag = tag) :
    readings tag read (item :: optional) = read item.value :: readings tag read optional := by
  have hpos : (item.tag == tag) = true := beq_iff_eq.mpr h
  rw [readings, List.filter_cons, if_pos hpos]
  rfl

theorem readings_cons_ne (h : item.tag ≠ tag) : readings tag read (item :: optional) = readings tag read optional := by
  have hneg : ¬ (item.tag == tag) = true := fun htag => h (beq_iff_eq.mp htag)
  rw [readings, List.filter_cons, if_neg hneg]
  rfl

theorem readings_append {optional' : List OptionalParameter} :
    readings tag read (optional ++ optional') = readings tag read optional ++ readings tag read optional' := by
  rw [readings, List.filter_append, List.map_append]
  rfl

theorem readings_eq_nil (h : ∀ p ∈ optional, p.tag ≠ tag) : readings tag read optional = [] := by
  rw [readings, List.filter_eq_nil_iff.mpr fun p hp htag => h p hp (beq_iff_eq.mp htag)]
  rfl

theorem mem_readings_congr {optional' : List OptionalParameter} (h : ∀ p, p ∈ optional ↔ p ∈ optional') (r : Option α) :
    r ∈ readings tag read optional ↔ r ∈ readings tag read optional' := by
  simp only [readings, List.mem_map, List.mem_filter, h]

end Readings

theorem receiptTLVMessageID_ne_nil {value id : Octets} (h : receiptTLVMessageID value = .ok id) : id ≠ [] := by
  unfold receiptTLVMessageID at h
  split at h
  case isTrue => cases h
  case isFalse =>
    split at h
    case isTrue => cases h
    case isFalse hid =>
      cases h
      exact fun h => hid (.inl h)

theorem ne_nil_of_read {value id : Octets} (h : (receiptTLVMessageID value).toOption = some id) : id ≠ [] := by
  cases hread : receiptTLVMessageID value with
  | error err =>
    rw [hread] at h
    cases h
  | ok id =>
    rw [hread] at h
    cases h
    exact receiptTLVMessageID_ne_nil hread

section Step
variable {v : ReceiptValues} {item : OptionalParameter} {found : ReceiptTLVs}

theorem agree_ok_iff {α : Type} {known : Option α} {marked : Prop} {zero a : α} {err : Err} {next : ReceiptTLVs}
    [Decidable (marked ∧ known.getD zero ≠ a)] (hmarked : marked ↔ known ≠ none) :
    (if marked ∧ known.getD zero ≠ a then Except.error err else .ok next) = .ok found ↔
      (known = none ∨ known = some a) ∧ found = next := by
  have hagree : ¬ (marked ∧ known.getD zero ≠ a) ↔ known = none ∨ known = some a := by
    cases known with
    | none => simp [hmarked]
    | some b => simp [hmarked]
  rw [← hagree]
  split
  case isTrue hconflict => simp [hconflict]
  case isFalse hconflict =>
    rw [Except.ok.injEq]
    exact ⟨fun h => ⟨hconflict, h.symm⟩, fun h => h.2.symm⟩

theorem receiptTLV_id (htag : item.tag = tlvTagReceiptedMessageID) : receiptTLV v.tlvs item = .ok found ↔
    ∃ (id : Octets) (hid : id ≠ []), (receiptTLVMessageID item.value).toOption = some id ∧ (v.id = none ∨ v.id = some id) ∧
      found = ({ v with id := some id, named := fun h => hid (Option.some.inj h) } : ReceiptValues).tlvs := by
  have hmarked : v.id.getD [] ≠ [] ↔ v.id ≠ none := by
    have hnamed := v.named
    cases hid : v.id with
    | none => simp
    | some id => simpa [hid] using hnamed
  rw [receiptTLV, if_pos htag]
  cases hread : receiptTLVMessageID item.value with
  | error err =>
    constructor
    · intro h
      cases h
    · rintro ⟨id, hid, hnone, -⟩
      cases hnone
  | ok id =>
    refine (agree_ok_iff hmarked).trans ?_
    constructor
    · rintro ⟨hknown, hfound⟩
      exact ⟨id, receiptTLVMessageID_ne_nil hread, rfl, hknown, hfound⟩
    · rintro ⟨id', hid, hsome, hknown, hfound⟩
      cases hsome
      exact ⟨hknown, hfound⟩

theorem isSome_iff_ne_none {α : Type} {o : Option α} : o.isSome = true ↔ o ≠ none := by
  cases o <;> simp

theorem receiptTLV_state (htag : item.tag = tlvTagMessageState) : receiptTLV v.tlvs item = .ok found ↔
    ∃ state, readState item.value = some state ∧ (v.state = none ∨ v.state = some state) ∧
      found = ({ v with state := some state } : ReceiptValues).tlvs := by
  rw [receiptTLV, if_neg (by rw [htag]; decide), if_pos htag]
  rcases item.value with _ | ⟨state, _ | ⟨b, more⟩⟩
  · simp [readState]
  · show (if state < 1 ∨ 8 < state then _ else _) = _ ↔ ∃ s, (if state < 1 ∨ 8 < state then _ else _) = some s ∧ _
    split
    case isTrue => simp
    case isFalse =>
      refine (agree_ok_iff isSome_iff_ne_none).trans ?_
      constructor
      · rintro ⟨hknown, hfound⟩
        exact ⟨state, rfl, hknown, hfound⟩
      · rintro ⟨state', hsome, hknown, hfound⟩
        cases hsome
        exact ⟨hknown, hfound⟩
  · simp [readState]

theorem receiptTLV_payload (htag : item.tag = tlvTagMessagePayload) : receiptTLV v.tlvs item = .ok found ↔
    (v.payload = none ∨ v.payload = some item.value) ∧
      found = ({ v with payload := some item.value } : ReceiptValues).tlvs := by
  rw [receiptTLV, if_neg (by rw [htag]; decide), if_neg (by rw [htag]; decide), if_pos htag]
  exact agree_ok_iff isSome_iff_ne_none

theorem receiptTLV_other (hid : item.tag ≠ tlvTagReceiptedMessageID) (hstate : item.tag ≠ tlvTagMessageState)
    (hpayload : item.tag ≠ tlvTagMessagePayload) : receiptTLV found item = .ok found := by
  rw [receiptTLV, if_neg hid, if_neg hstate, if_neg hpayload]

end Step

section Gather
variable {start v : ReceiptValues} {item : OptionalParameter} {optional : List OptionalParameter}

theorem messageIDs_cons_ne (h : item.tag ≠ tlvTagReceiptedMessageID) : messageIDs (item :: optional) = messageIDs optional :=
  readings_cons_ne h

theorem messageStates_cons_ne (h : item.tag ≠ tlvTagMessageState) : messageStates (item :: optional) = messageStates optional :=
  readings_cons_ne h

theorem messagePayloads_cons_ne (h : item.tag ≠ tlvTagMessagePayload) :
    messagePayloads (item :: optional) = messagePayloads optional := readings_cons_ne h

theorem gathered_nil : Gathered start [] v ↔ v = start := by
  constructor
  · rintro ⟨hids, hstates, hpayloads⟩
    obtain ⟨id, state, payload, named⟩ := v
    obtain ⟨id', state', payload', named'⟩ := start
    obtain rfl : id = id' := unanimous_nil.mp hids
    obtain rfl : state = state' := unanimous_nil.mp hstates
    obtain rfl : payload = payload' := unanimous_nil.mp hpayloads
    rfl
  · rintro rfl
    exact ⟨unanimous_nil.mpr rfl, unanimous_nil.mpr rfl, unanimous_nil.mpr rfl⟩

theorem gathered_id (htag : item.tag = tlvTagReceiptedMessageID) : Gathered start (item :: optional) v ↔
    ∃ (id : Octets) (hid : id ≠ []), (receiptTLVMessageID item.value).toOption = some id ∧
      (start.id = none ∨ start.id = some id) ∧
      Gathered { start with id := some id, named := fun h => hid (Option.some.inj h) } optional v := by
  have hstates : messageStates (item :: optional) = messageStates optional := messageStates_cons_ne (by rw [htag]; decide)
  have hpayloads : messagePayloads (item :: optional) = messagePayloads optional :=
    messagePayloads_cons_ne (by rw [htag]; decide)
  have hids : messageIDs (item :: optional) = (receiptTLVMessageID item.value).toOption :: messageIDs optional :=
    readings_cons_self htag
  constructor
  · intro h
    have hid := h.ids
    rw [hids] at hid
    obtain ⟨id, hread, hknown, hrest⟩ := unanimous_cons.mp hid
    exact ⟨id, ne_nil_of_read hread, hread, hknown, hrest, hstates ▸ h.states, hpayloads ▸ h.payloads⟩
  · rintro ⟨id, hid, hread, hknown, h⟩
    refine ⟨?_, hstates ▸ h.states, hpayloads ▸ h.payloads⟩
    rw [hids]
    exact unanimous_cons.mpr ⟨id, hread, hknown, h.ids⟩

theorem gathered_state (htag : item.tag = tlvTagMessageState) : Gathered start (item :: optional) v ↔
    ∃ state, readState item.value = some state ∧ (start.state = none ∨ start.state = some state) ∧
      Gathered { start with state := some state } optional v := by
  have hids : messageIDs (item :: optional) = messageIDs optional := messageIDs_cons_ne (by rw [htag]; decide)
  have hpayloads : messagePayloads (item :: optional) = messagePayloads optional :=
    messagePayloads_cons_ne (by rw [htag]; decide)
  have hstates : messageStates (item :: optional) = readState item.value :: messageStates optional := readings_cons_self htag
  constructor
  · intro h
    have hstate := h.states
    rw [hstates] at hstate
    obtain ⟨state, hread, hknown, hrest⟩ := unanimous_cons.mp hstate
    exact ⟨state, hread, hknown, hids ▸ h.ids, hrest, hpayloads ▸ h.payloads⟩
  · rintro ⟨state, hread, hknown, h⟩
    refine ⟨hids ▸ h.ids, ?_, hpayloads ▸ h.payloads⟩
    rw [hstates]
    exact unanimous_cons.mpr ⟨state, hread, hknown, h.states⟩

theorem gathered_payload (htag : item.tag = tlvTagMessagePayload) : Gathered start (item :: optional) v ↔
    (start.payload = none ∨ start.payload = some item.value) ∧
      Gathered { start with payload := some item.value } optional v := by
  have hids : messageIDs (item :: optional) = messageIDs optional := messageIDs_cons_ne (by rw [htag]; decide)
  have hstates : messageStates (item :: optional) = messageStates optional := messageStates_cons_ne (by rw [htag]; decide)
  have hpayloads : messagePayloads (item :: optional) = some item.value :: messagePayloads optional :=
    readings_cons_self htag
  constructor
  · intro h
    have hpayload := h.payloads
    rw [hpayloads] at hpayload
    obtain ⟨payload, hread, hknown, hrest⟩ := unanimous_cons.mp hpayload
    cases hread
    exact ⟨hknown, hids ▸ h.ids, hstates ▸ h.states, hrest⟩
  · rintro ⟨hknown, h⟩
    refine ⟨hids ▸ h.ids, hstates ▸ h.states, ?_⟩
    rw [hpayloads]
    exact unanimous_cons.mpr ⟨item.value, rfl, hknown, h.payloads⟩

theorem gathered_other (hid : item.tag ≠ tlvTagReceiptedMessageID) (hstate : item.tag ≠ tlvTagMessageState)
    (hpayload : item.tag ≠ tlvTagMessagePayload) : Gathered start (item :: optional) v ↔ Gathered start optional v := by
  constructor
  · rintro ⟨hids, hstates, hpayloads⟩
    rw [messageIDs_cons_ne hid] at hids
    rw [messageStates_cons_ne hstate] at hstates
    rw [messagePayloads_cons_ne hpayload] at hpayloads
    exact ⟨hids, hstates, hpayloads⟩
  · rintro ⟨hids, hstates, hpayloads⟩
    rw [← messageIDs_cons_ne hid] at hids
    rw [← messageStates_cons_ne hstate] at hstates
    rw [← messagePayloads_cons_ne hpayload] at hpayloads
    exact ⟨hids, hstates, hpayloads⟩

end Gather

/-- **The loop finds the values that the parameters agree on**, and fails if they do not agree. -/
theorem foldlM_receiptTLV : ∀ (optional : List OptionalParameter) (start : ReceiptValues) (found : ReceiptTLVs),
    optional.foldlM receiptTLV start.tlvs = .ok found ↔ ∃ v, Gathered start optional v ∧ found = v.tlvs
  | [], start, found => by
    simp only [gathered_nil, exists_eq_left, List.foldlM_nil]
    exact ⟨fun h => (Except.ok.inj h).symm, fun h => congrArg Except.ok h.symm⟩
  | item :: optional, start, found => by
    have ih := foldlM_receiptTLV optional
    rw [List.foldlM_cons, Except.bind_ok]
    by_cases hid : item.tag = tlvTagReceiptedMessageID
    · simp only [receiptTLV_id hid, gathered_id hid]
      constructor
      · rintro ⟨next, ⟨id, hne, hread, hknown, rfl⟩, hrest⟩
        obtain ⟨v, hv, hfound⟩ := (ih _ _).mp hrest
        exact ⟨v, ⟨id, hne, hread, hknown, hv⟩, hfound⟩
      · rintro ⟨v, ⟨id, hne, hread, hknown, hv⟩, hfound⟩
        exact ⟨_, ⟨id, hne, hread, hknown, rfl⟩, (ih _ _).mpr ⟨v, hv, hfound⟩⟩
    by_cases hstate : item.tag = tlvTagMessageState
    · simp only [receiptTLV_state hstate, gathered_state hstate]
      constructor
      · rintro ⟨next, ⟨state, hread, hknown, rfl⟩, hrest⟩
        obtain ⟨v, hv, hfound⟩ := (ih _ _).mp hrest
        exact ⟨v, ⟨state, hread, hknown, hv⟩, hfound⟩
      · rintro ⟨v, ⟨state, hread, hknown, hv⟩, hfound⟩
        exact ⟨_, ⟨state, hread, hknown, rfl⟩, (ih _ _).mpr ⟨v, hv, hfound⟩⟩
    by_cases hpayload : item.tag = tlvTagMessagePayload
    · simp only [receiptTLV_payload hpayload, gathered_payload hpayload]
      constructor
      · rintro ⟨next, ⟨hknown, rfl⟩, hrest⟩
        obtain ⟨v, hv, hfound⟩ := (ih _ _).mp hrest
        exact ⟨v, ⟨hknown, hv⟩, hfound⟩
      · rintro ⟨v, ⟨hknown, hv⟩, hfound⟩
        exact ⟨_, ⟨hknown, rfl⟩, (ih _ _).mpr ⟨v, hv, hfound⟩⟩
    · simp only [receiptTLV_other hid hstate hpayload, gathered_other hid hstate hpayload]
      constructor
      · rintro ⟨next, hnext, hrest⟩
        cases hnext
        exact (ih _ _).mp hrest
      · intro h
        exact ⟨start.tlvs, rfl, (ih _ _).mpr h⟩

/-! ## Errors -/

/-- An error of the class of a sentinel. -/
def Fails {α : Type} (kind : Sentinel) (r : Except Err α) : Prop := ∃ e, r = .error e ∧ e.is kind = true

/-- Both give the same receipt, or both fail with an error of the same class. -/
inductive SameResult (r r' : Except Err DeliveryReceipt) : Prop where
  | receipt (receipt : DeliveryReceipt) (h : r = .ok receipt) (h' : r' = .ok receipt)
  | invalid (h : Fails .invalidDeliveryReceipt r) (h' : Fails .invalidDeliveryReceipt r')
  | notReceipt (h : Fails .notDeliveryReceipt r) (h' : Fails .notDeliveryReceipt r')

/-- The only errors are those of the class. -/
def FailsOnly {α : Type} (kind : Sentinel) (r : Except Err α) : Prop := ∀ e, r = .error e → e.is kind = true

section Errors
variable {α β : Type} {kind : Sentinel}

theorem failsOnly_ok {a : α} : FailsOnly kind (.ok a) := by
  intro e h
  cases h

theorem failsOnly_error {e : Err} (h : e.is kind = true) : FailsOnly kind (.error e : Except Err α) := by
  intro e' h'
  cases h'
  exact h

theorem FailsOnly.bind {x : Except Err α} {f : α → Except Err β} (hx : FailsOnly kind x) (hf : ∀ a, FailsOnly kind (f a)) :
    FailsOnly kind (x >>= f) := by
  cases x with
  | error e => exact failsOnly_error (hx e rfl)
  | ok a => exact hf a

theorem FailsOnly.foldlM {f : β → α → Except Err β} (h : ∀ b a, FailsOnly kind (f b a)) :
    ∀ (l : List α) (b : β), FailsOnly kind (l.foldlM f b)
  | [], _ => failsOnly_ok
  | a :: l, b => (h b a).bind fun b => FailsOnly.foldlM h l b

theorem failsOnly_ite {p : Prop} [Decidable p] {x y : Except Err α} (hx : FailsOnly kind x) (hy : FailsOnly kind y) :
    FailsOnly kind (if p then x else y) := by
  split
  · exact hx
  · exact hy

end Errors

theorem receiptTLVMessageID_fails (value : Octets) : FailsOnly .invalidDeliveryReceipt (receiptTLVMessageID value) :=
  failsOnly_ite (failsOnly_error rfl) (failsOnly_ite (failsOnly_error rfl) failsOnly_ok)

theorem receiptTLV_fails (found : ReceiptTLVs) (item : OptionalParameter) :
    FailsOnly .invalidDeliveryReceipt (receiptTLV found item) := by
  refine failsOnly_ite ?_ (failsOnly_ite ?_ (failsOnly_ite ?_ failsOnly_ok))
  · have hid := receiptTLVMessageID_fails item.value
    cases hread : receiptTLVMessageID item.value with
    | error err => exact failsOnly_error (hid err hread)
    | ok id => exact failsOnly_ite (failsOnly_error rfl) failsOnly_ok
  · split
    case h_1 => exact failsOnly_ite (failsOnly_error rfl) (failsOnly_ite (failsOnly_error rfl) failsOnly_ok)
    case h_2 => exact failsOnly_error rfl
  · exact failsOnly_ite (failsOnly_error rfl) failsOnly_ok

theorem receiptText_fails (coding : DataCoding) (raw : Octets) :
    FailsOnly .invalidDeliveryReceipt (receiptText coding raw) := by
  refine failsOnly_ite failsOnly_ok (failsOnly_ite ?_ (failsOnly_ite failsOnly_ok failsOnly_ok))
  cases decodeUCS2 raw with
  | error err => exact failsOnly_error rfl
  | ok text => exact failsOnly_ok

theorem TextFields.set_fails (found : TextFields) (field : TextField) (value : Octets) :
    FailsOnly .invalidDeliveryReceipt (found.set field value) := by
  cases field with
  | id => exact failsOnly_ite (failsOnly_error rfl) failsOnly_ok
  | stat => exact failsOnly_ite (failsOnly_error rfl) failsOnly_ok

theorem textFields_fails : ∀ (words : List Octets) (found : TextFields),
    FailsOnly .invalidDeliveryReceipt (textFields words found)
  | [], _ => failsOnly_ok
  | word :: rest, found => by
    rw [textFields]
    refine failsOnly_ite failsOnly_ok ?_
    rcases labelled word with _ | ⟨field, _ | ⟨b, value⟩⟩
    · exact textFields_fails rest found
    · match rest with
      | [] => exact failsOnly_ok
      | next :: rest =>
        refine failsOnly_ite (textFields_fails (next :: rest) found) ?_
        exact (found.set_fails field next).bind fun found => textFields_fails rest found
    · exact (found.set_fails field (b :: value)).bind fun found => textFields_fails rest found

theorem receiptOf_fails (esmClass : UInt8) (tlvs : ReceiptTLVs) (text : TextFields) :
    FailsOnly .notDeliveryReceipt (receiptOf esmClass tlvs text) :=
  failsOnly_ite (failsOnly_error rfl) (failsOnly_ite (failsOnly_error rfl) failsOnly_ok)

theorem fails_of_failsOnly {α : Type} {kind : Sentinel} {r : Except Err α} (h : FailsOnly kind r) (hno : ∀ a, r ≠ .ok a) :
    Fails kind r := by
  cases r with
  | error e => exact ⟨e, rfl, h e rfl⟩
  | ok a => exact absurd rfl (hno a)

/-! ## Parameters in any order -/

section Parameters
variable {deliver : ShortMessageBody}

theorem parseDeliveryReceipt_gathered {v : ReceiptValues} (h : Gathered {} deliver.optional v) :
    parseDeliveryReceipt deliver = receiptFrom deliver v.tlvs := by
  have hloop : deliver.optional.foldlM receiptTLV {} = .ok v.tlvs := (foldlM_receiptTLV _ {} _).mpr ⟨v, h, rfl⟩
  rw [parseDeliveryReceipt, hloop]
  rfl

theorem parseDeliveryReceipt_conflicting (h : ¬ ∃ v, Gathered {} deliver.optional v) :
    Fails .invalidDeliveryReceipt (parseDeliveryReceipt deliver) := by
  have hloop : Fails .invalidDeliveryReceipt (deliver.optional.foldlM receiptTLV {}) := by
    refine fails_of_failsOnly (FailsOnly.foldlM receiptTLV_fails _ _) ?_
    intro found hfound
    obtain ⟨v, hv, -⟩ := (foldlM_receiptTLV deliver.optional {} found).mp hfound
    exact h ⟨v, hv⟩
  obtain ⟨e, he, hclass⟩ := hloop
  refine ⟨e, ?_, hclass⟩
  rw [parseDeliveryReceipt, he]
  rfl

/-- The text is read, then the receipt is made. -/
def readText (coding : DataCoding) (raw : Octets) : Except Err TextFields := receiptText coding raw >>= extractReceiptTextFields

theorem readText_fails (coding : DataCoding) (raw : Octets) : FailsOnly .invalidDeliveryReceipt (readText coding raw) :=
  (receiptText_fails coding raw).bind fun _ => textFields_fails _ _

theorem receiptFrom_eq {tlvs : ReceiptTLVs} : receiptFrom deliver tlvs =
    if tlvs.payloadSeen = true ∧ deliver.shortMessage ≠ [] then
      .error (invalidDeliveryReceipt "short_message and message_payload both set")
    else
      readText deliver.dataCoding (receiptRaw deliver tlvs) >>= receiptOf deliver.esmClass tlvs := by
  unfold receiptFrom readText
  split
  case isTrue => rfl
  case isFalse => exact (bind_assoc _ _ _).symm

theorem sameResult_self (deliver : ShortMessageBody) :
    SameResult (parseDeliveryReceipt deliver) (parseDeliveryReceipt deliver) := by
  by_cases hv : ∃ v, Gathered {} deliver.optional v
  case neg => exact .invalid (parseDeliveryReceipt_conflicting hv) (parseDeliveryReceipt_conflicting hv)
  obtain ⟨v, hv⟩ := hv
  rw [parseDeliveryReceipt_gathered hv, receiptFrom_eq]
  split
  case isTrue => exact .invalid ⟨_, rfl, rfl⟩ ⟨_, rfl, rfl⟩
  case isFalse =>
    have htext := readText_fails deliver.dataCoding (receiptRaw deliver v.tlvs)
    cases hread : readText deliver.dataCoding (receiptRaw deliver v.tlvs) with
    | error e => exact .invalid ⟨e, rfl, htext e hread⟩ ⟨e, rfl, htext e hread⟩
    | ok text =>
      have hreceipt := receiptOf_fails deliver.esmClass v.tlvs text
      cases hmade : receiptOf deliver.esmClass v.tlvs text with
      | error e => exact .notReceipt ⟨e, hmade, hreceipt e hmade⟩ ⟨e, hmade, hreceipt e hmade⟩
      | ok receipt => exact .receipt receipt hmade hmade

theorem sameResult_of_gathered {deliver' : ShortMessageBody}
    (hvalues : ∀ v, Gathered {} deliver.optional v →
      ∃ v', Gathered {} deliver'.optional v' ∧ receiptFrom deliver' v'.tlvs = receiptFrom deliver v.tlvs)
    (hagree : (∃ v', Gathered {} deliver'.optional v') → ∃ v, Gathered {} deliver.optional v) :
    SameResult (parseDeliveryReceipt deliver) (parseDeliveryReceipt deliver') := by
  by_cases hv : ∃ v, Gathered {} deliver.optional v
  · obtain ⟨v, hv⟩ := hv
    obtain ⟨v', hv', hsame⟩ := hvalues v hv
    have hself := sameResult_self deliver
    rw [parseDeliveryReceipt_gathered hv] at hself ⊢
    rw [parseDeliveryReceipt_gathered hv', hsame]
    exact hself
  · exact .invalid (parseDeliveryReceipt_conflicting hv) (parseDeliveryReceipt_conflicting fun hv' => hv (hagree hv'))

theorem gathered_congr {optional optional' : List OptionalParameter} (h : ∀ p, p ∈ optional ↔ p ∈ optional')
    {start v : ReceiptValues} : Gathered start optional v ↔ Gathered start optional' v := by
  constructor
  · rintro ⟨hids, hstates, hpayloads⟩
    exact ⟨(unanimous_congr (mem_readings_congr h)).mp hids, (unanimous_congr (mem_readings_congr h)).mp hstates,
      (unanimous_congr (mem_readings_congr h)).mp hpayloads⟩
  · rintro ⟨hids, hstates, hpayloads⟩
    exact ⟨(unanimous_congr (mem_readings_congr h)).mpr hids, (unanimous_congr (mem_readings_congr h)).mpr hstates,
      (unanimous_congr (mem_readings_congr h)).mpr hpayloads⟩

/-- **A receipt depends neither on the order of the optional parameters nor on their repetition.** -/
theorem parseDeliveryReceipt_reordered (deliver : ShortMessageBody) {optional : List OptionalParameter}
    (hsame : ∀ p, p ∈ optional ↔ p ∈ deliver.optional) :
    SameResult (parseDeliveryReceipt deliver) (parseDeliveryReceipt { deliver with optional }) := by
  refine sameResult_of_gathered ?_ ?_
  · intro v hv
    exact ⟨v, (gathered_congr hsame).mpr hv, rfl⟩
  · rintro ⟨v, hv⟩
    exact ⟨v, (gathered_congr hsame).mp hv⟩

end Parameters

/-- A `deliver_sm` that is marked as a receipt, with a text and optional parameters. -/
def receiptMessage (shortMessage : Octets) (optional : List OptionalParameter) : ShortMessageBody where
  serviceType := []
  sourceAddrTON := 0
  sourceAddrNPI := 0
  sourceAddr := [0x31]
  destAddrTON := 0
  destAddrNPI := 0
  destinationAddr := [0x32]
  esmClass := 0x04
  protocolID := 0
  priorityFlag := 0
  scheduleDeliveryTime := []
  validityPeriod := []
  registeredDelivery := 0
  replaceIfPresentFlag := 0
  dataCoding := dataCodingSMSCDefault
  smDefaultMsgID := 0
  shortMessage
  optional

/-- An identifier and a state, and the same with the state first and repeated. -/
theorem parseDeliveryReceipt_reordered_twice :
    SameResult (parseDeliveryReceipt (receiptMessage [] [⟨tlvTagReceiptedMessageID, [0x37, 0]⟩, ⟨tlvTagMessageState, [2]⟩]))
      (parseDeliveryReceipt (receiptMessage []
        [⟨tlvTagMessageState, [2]⟩, ⟨tlvTagReceiptedMessageID, [0x37, 0]⟩, ⟨tlvTagMessageState, [2]⟩])) := by
  refine parseDeliveryReceipt_reordered (receiptMessage [] _) ?_
  intro p
  simp only [receiptMessage, List.mem_cons, List.not_mem_nil, or_false]
  tauto

/-! ## Empty payloads -/

/-- An empty message_payload parameter. -/
def isEmptyPayload (p : OptionalParameter) : Bool := p.tag == tlvTagMessagePayload && p.value == []

/-- A message without its empty message_payload parameters. -/
def withoutEmptyPayloads (deliver : ShortMessageBody) : ShortMessageBody :=
  { deliver with optional := deliver.optional.filter (!isEmptyPayload ·) }

/-- The message_payload parameters that are not empty. -/
def carriedPayloads (optional : List OptionalParameter) : List (Option Octets) := (messagePayloads optional).filter (· != some [])

/-- Empty message_payload parameters aside, a message does not contradict itself: its parameters agree, it has one text at
most, and that can be read. -/
structure Consistent (deliver : ShortMessageBody) : Prop where
  ids : ∃ id, Unanimous none (messageIDs deliver.optional) id
  states : ∃ state, Unanimous none (messageStates deliver.optional) state
  payloads : ∃ payload, Unanimous none (carriedPayloads deliver.optional) payload
  single : deliver.shortMessage = [] ∨ carriedPayloads deliver.optional = []
  text : ∀ raw, raw = deliver.shortMessage ∨ some raw ∈ carriedPayloads deliver.optional →
    ∃ text, readText deliver.dataCoding raw = .ok text

theorem errorClass_unique {a b : Sentinel} : ∀ {e : Err}, e.is a = true → e.is b = true → a = b
  | .sentinel _, ha, hb => (beq_iff_eq.mp ha).symm.trans (beq_iff_eq.mp hb)
  | .wrapped _ c, ha, hb | .semanticBy _ c, ha, hb | .panickedBy _ c, ha, hb | .loss c, ha, hb => errorClass_unique (e := c) ha hb

theorem sameResult_invalid_iff {r r' : Except Err DeliveryReceipt} (h : Fails .invalidDeliveryReceipt r) :
    SameResult r r' ↔ Fails .invalidDeliveryReceipt r' := by
  constructor
  · intro hsame
    obtain ⟨e, he, hclass⟩ := h
    cases hsame with
    | receipt receipt h h' => rw [he] at h; cases h
    | invalid h h' => exact h'
    | notReceipt h h' =>
      obtain ⟨e', he', hclass'⟩ := h
      rw [he] at he'
      cases he'
      cases errorClass_unique hclass hclass'
  · intro h'
    exact .invalid h h'

section EmptyPayloads
variable {deliver : ShortMessageBody}

theorem readings_withoutEmptyPayloads {α : Type} {tag : UInt16} {read : Octets → Option α} (htag : tag ≠ tlvTagMessagePayload) :
    readings tag read (withoutEmptyPayloads deliver).optional = readings tag read deliver.optional := by
  rw [readings, withoutEmptyPayloads, List.filter_filter, readings]
  congr 1
  refine List.filter_congr ?_
  intro p _
  by_cases hp : p.tag = tag
  · have hne : (p.tag == tlvTagMessagePayload) = false := beq_false_of_ne (hp ▸ htag)
    rw [isEmptyPayload, hne]
    exact Bool.and_true _
  · rw [beq_false_of_ne hp]
    rfl

theorem messageIDs_withoutEmptyPayloads :
    messageIDs (withoutEmptyPayloads deliver).optional = messageIDs deliver.optional :=
  readings_withoutEmptyPayloads (by decide)

theorem messageStates_withoutEmptyPayloads :
    messageStates (withoutEmptyPayloads deliver).optional = messageStates deliver.optional :=
  readings_withoutEmptyPayloads (by decide)

theorem messagePayloads_withoutEmptyPayloads :
    messagePayloads (withoutEmptyPayloads deliver).optional = carriedPayloads deliver.optional := by
  rw [messagePayloads, readings, withoutEmptyPayloads, List.filter_filter, carriedPayloads, messagePayloads, readings,
    List.filter_map, List.filter_filter]
  congr 1
  refine List.filter_congr ?_
  intro p _
  simp only [isEmptyPayload, Function.comp]
  cases hpayload : p.tag == tlvTagMessagePayload with
  | false => simp
  | true => cases p.value <;> simp

theorem carriedPayloads_withoutEmptyPayloads :
    carriedPayloads (withoutEmptyPayloads deliver).optional = carriedPayloads deliver.optional := by
  rw [carriedPayloads, messagePayloads_withoutEmptyPayloads, carriedPayloads, List.filter_filter]
  simp only [Bool.and_self]

theorem consistent_withoutEmptyPayloads : Consistent (withoutEmptyPayloads deliver) ↔ Consistent deliver := by
  have hids := @messageIDs_withoutEmptyPayloads deliver
  have hstates := @messageStates_withoutEmptyPayloads deliver
  have hpayloads := @carriedPayloads_withoutEmptyPayloads deliver
  constructor
  · rintro ⟨h₁, h₂, h₃, h₄, h₅⟩
    rw [hids] at h₁
    rw [hstates] at h₂
    rw [hpayloads] at h₃ h₄ h₅
    exact ⟨h₁, h₂, h₃, h₄, h₅⟩
  · rintro ⟨h₁, h₂, h₃, h₄, h₅⟩
    rw [← hids] at h₁
    rw [← hstates] at h₂
    rw [← hpayloads] at h₃ h₄ h₅
    exact ⟨h₁, h₂, h₃, h₄, h₅⟩

theorem exists_gathered {optional : List OptionalParameter} {id payload : Option Octets} {state : Option UInt8}
    (hids : Unanimous none (messageIDs optional) id) (hstates : Unanimous none (messageStates optional) state)
    (hpayloads : Unanimous none (messagePayloads optional) payload) :
    ∃ v, Gathered {} optional v ∧ v.id = id ∧ v.state = state ∧ v.payload = payload := by
  have hnamed : id ≠ some [] := by
    rintro rfl
    obtain ⟨p, -, hread⟩ := List.mem_map.mp hids.mem
    exact ne_nil_of_read hread rfl
  exact ⟨⟨id, state, payload, hnamed⟩, ⟨hids, hstates, hpayloads⟩, rfl, rfl, rfl⟩

theorem readText_nil (coding : DataCoding) : readText coding [] = .ok {} := rfl

section Raw
variable {v : ReceiptValues} (hpayloads : Unanimous none (messagePayloads deliver.optional) v.payload)
include hpayloads

theorem receiptRaw_mem : receiptRaw deliver v.tlvs = deliver.shortMessage ∨
    some (receiptRaw deliver v.tlvs) ∈ messagePayloads deliver.optional := by
  unfold receiptRaw
  split
  case isTrue h =>
    obtain ⟨payload, hpayload⟩ := Option.isSome_iff_exists.mp h.2
    rw [hpayload] at hpayloads
    refine .inr ?_
    rw [ReceiptValues.tlvs, hpayload]
    exact hpayloads.mem
  case isFalse => exact .inl rfl

theorem receiptRaw_eq {raw : Octets} (hsingle : ¬ (v.tlvs.payloadSeen = true ∧ deliver.shortMessage ≠ [])) (hne : raw ≠ [])
    (hraw : raw = deliver.shortMessage ∨ some raw ∈ messagePayloads deliver.optional) : receiptRaw deliver v.tlvs = raw := by
  rcases hraw with rfl | hmem
  · exact if_neg fun h => hne h.1
  · have hpayload : v.payload = some raw := ((hpayloads.agree _ hmem).2).symm
    have hseen : v.tlvs.payloadSeen = true := by
      rw [ReceiptValues.tlvs, hpayload]
      rfl
    have hshort : deliver.shortMessage = [] := by
      by_contra hshort
      exact hsingle ⟨hseen, hshort⟩
    rw [receiptRaw, if_pos ⟨hshort, hseen⟩, ReceiptValues.tlvs, hpayload]
    rfl

end Raw

theorem fails_iff_not_consistent (hne : carriedPayloads deliver.optional = messagePayloads deliver.optional) :
    Fails .invalidDeliveryReceipt (parseDeliveryReceipt deliver) ↔ ¬ Consistent deliver := by
  constructor
  · intro hfails hconsistent
    obtain ⟨id, hid⟩ := hconsistent.ids
    obtain ⟨state, hstate⟩ := hconsistent.states
    obtain ⟨payload, hpayload⟩ := hconsistent.payloads
    rw [hne] at hpayload
    obtain ⟨v, hv, -, -, rfl⟩ := exists_gathered hid hstate hpayload
    have hsingle : ¬ (v.tlvs.payloadSeen = true ∧ deliver.shortMessage ≠ []) := by
      rintro ⟨hseen, hshort⟩
      have hnone : v.payload = none := hpayload.eq_none_iff.mpr (hne ▸ hconsistent.single.resolve_left hshort)
      exact isSome_iff_ne_none.mp hseen hnone
    obtain ⟨text, htext⟩ := hconsistent.text (receiptRaw deliver v.tlvs) (hne ▸ receiptRaw_mem hpayload)
    rw [parseDeliveryReceipt_gathered hv, receiptFrom_eq, if_neg hsingle, htext] at hfails
    obtain ⟨e, he, hclass⟩ := hfails
    cases errorClass_unique hclass (receiptOf_fails _ _ _ e he)
  · intro hbad
    by_contra hno
    refine hbad ?_
    obtain ⟨v, hv⟩ : ∃ v, Gathered {} deliver.optional v := by
      by_contra hv
      exact hno (parseDeliveryReceipt_conflicting hv)
    rw [parseDeliveryReceipt_gathered hv, receiptFrom_eq] at hno
    have hsingle : ¬ (v.tlvs.payloadSeen = true ∧ deliver.shortMessage ≠ []) := by
      intro hboth
      rw [if_pos hboth] at hno
      exact hno ⟨_, rfl, rfl⟩
    rw [if_neg hsingle] at hno
    refine ⟨⟨_, hv.ids⟩, ⟨_, hv.states⟩, ⟨_, hne ▸ hv.payloads⟩, ?_, ?_⟩
    · by_cases hshort : deliver.shortMessage = []
      · exact .inl hshort
      · refine .inr (hne ▸ hv.payloads.eq_none_iff.mp ?_)
        by_contra hsome
        exact hsingle ⟨isSome_iff_ne_none.mpr hsome, hshort⟩
    · intro raw hraw
      by_cases hempty : raw = []
      · refine ⟨{}, ?_⟩
        rw [hempty]
        exact readText_nil _
      rw [hne] at hraw
      have hread := readText_fails deliver.dataCoding raw
      rw [receiptRaw_eq hv.payloads hsingle hempty hraw] at hno
      cases htext : readText deliver.dataCoding raw with
      | ok text => exact ⟨text, rfl⟩
      | error e =>
        rw [htext] at hno
        exact absurd ⟨e, rfl, hread e htext⟩ hno

theorem parseDeliveryReceipt_empty (hempty : some [] ∈ messagePayloads deliver.optional)
    (hcarries : deliver.shortMessage ≠ [] ∨ carriedPayloads deliver.optional ≠ []) :
    Fails .invalidDeliveryReceipt (parseDeliveryReceipt deliver) := by
  by_cases hv : ∃ v, Gathered {} deliver.optional v
  case neg => exact parseDeliveryReceipt_conflicting hv
  obtain ⟨v, hv⟩ := hv
  have hpayload : v.payload = some [] := ((hv.payloads.agree _ hempty).2).symm
  have hshort : deliver.shortMessage ≠ [] := by
    refine hcarries.resolve_right fun hcarried => hcarried ?_
    refine List.eq_nil_iff_forall_not_mem.mpr ?_
    intro r hr
    obtain ⟨hmem, hne⟩ := List.mem_filter.mp hr
    rw [(hv.payloads.agree r hmem).2, hpayload] at hne
    cases hne
  have hseen : v.tlvs.payloadSeen = true := by
    rw [ReceiptValues.tlvs, hpayload]
    rfl
  rw [parseDeliveryReceipt_gathered hv, receiptFrom_eq, if_pos ⟨hseen, hshort⟩]
  exact ⟨_, rfl, rfl⟩

theorem parseDeliveryReceipt_no_text (hshort : deliver.shortMessage = []) (hcarried : carriedPayloads deliver.optional = []) :
    SameResult (parseDeliveryReceipt deliver) (parseDeliveryReceipt (withoutEmptyPayloads deliver)) := by
  have hall : ∀ r ∈ messagePayloads deliver.optional, r = some [] := by
    intro r hr
    by_contra hne
    have hmem : r ∈ carriedPayloads deliver.optional := List.mem_filter.mpr ⟨hr, bne_iff_ne.mpr hne⟩
    rw [hcarried] at hmem
    cases hmem
  have hnone : messagePayloads (withoutEmptyPayloads deliver).optional = [] :=
    messagePayloads_withoutEmptyPayloads.trans hcarried
  refine sameResult_of_gathered ?_ ?_
  · intro v hv
    have hraw : receiptRaw deliver v.tlvs = [] := by
      rcases receiptRaw_mem hv.payloads with h | h
      · exact h.trans hshort
      · exact Option.some.inj (hall _ h)
    refine ⟨{ v with payload := none }, ⟨?_, ?_, ?_⟩, ?_⟩
    · rw [messageIDs_withoutEmptyPayloads]
      exact hv.ids
    · rw [messageStates_withoutEmptyPayloads]
      exact hv.states
    · rw [hnone]
      exact unanimous_nil.mpr rfl
    · rw [receiptFrom_eq, receiptFrom_eq, hraw, if_neg fun h => h.2 hshort, if_neg fun h => h.2 hshort]
      have hraw' : receiptRaw (withoutEmptyPayloads deliver) ({ v with payload := none } : ReceiptValues).tlvs = [] :=
        (if_neg fun h => nomatch h.2).trans hshort
      rw [hraw']
      rfl
  · rintro ⟨v, hids, hstates, -⟩
    rw [messageIDs_withoutEmptyPayloads] at hids
    rw [messageStates_withoutEmptyPayloads] at hstates
    obtain ⟨payload, hpayloads⟩ := exists_unanimous hall
    obtain ⟨v, hgathered, -⟩ := exists_gathered hids hstates hpayloads
    exact ⟨v, hgathered⟩

/-- **An empty message_payload is as good as none where the message has no text, or contradicts itself anyway.** -/
theorem parseDeliveryReceipt_empty_iff (deliver : ShortMessageBody) :
    SameResult (parseDeliveryReceipt deliver) (parseDeliveryReceipt (withoutEmptyPayloads deliver)) ↔
      some [] ∉ messagePayloads deliver.optional ∨
      (deliver.shortMessage = [] ∧ carriedPayloads deliver.optional = []) ∨ ¬ Consistent deliver := by
  by_cases hempty : some [] ∈ messagePayloads deliver.optional
  case neg =>
    have hall : deliver.optional.filter (!isEmptyPayload ·) = deliver.optional := by
      refine List.filter_eq_self.mpr ?_
      intro p hp
      rw [Bool.not_eq_true', ← Bool.not_eq_true]
      intro hpayload
      obtain ⟨htag, hvalue⟩ := Bool.and_eq_true_iff.mp hpayload
      exact hempty (List.mem_map.mpr ⟨p, List.mem_filter.mpr ⟨hp, htag⟩, congrArg some (beq_iff_eq.mp hvalue)⟩)
    have hsame : withoutEmptyPayloads deliver = deliver := by rw [withoutEmptyPayloads, hall]
    rw [hsame]
    exact iff_of_true (sameResult_self deliver) (.inl hempty)
  by_cases hnone : deliver.shortMessage = [] ∧ carriedPayloads deliver.optional = []
  case pos => exact iff_of_true (parseDeliveryReceipt_no_text hnone.1 hnone.2) (.inr (.inl hnone))
  have hcarries : deliver.shortMessage ≠ [] ∨ carriedPayloads deliver.optional ≠ [] := not_and_or.mp hnone
  have hno : carriedPayloads (withoutEmptyPayloads deliver).optional = messagePayloads (withoutEmptyPayloads deliver).optional :=
    carriedPayloads_withoutEmptyPayloads.trans messagePayloads_withoutEmptyPayloads.symm
  rw [sameResult_invalid_iff (parseDeliveryReceipt_empty hempty hcarries), fails_iff_not_consistent hno,
    consistent_withoutEmptyPayloads]
  simp only [hempty, hnone, not_true_eq_false, false_or]

end EmptyPayloads

/-- `id:7 stat:DELIVRD`. -/
def deliveredText : Octets := ascii ['i', 'd', ':', '7', ' ', 's', 't', 'a', 't', ':', 'D', 'E', 'L', 'I', 'V', 'R', 'D']

/-- The codec accepts a receipt in short_message with an empty message_payload beside it, which is then refused. -/
theorem parseDeliveryReceipt_empty_refused :
    decodePDU (smpp34Registry .strict)
        [0, 0, 0, 56, 0, 0, 0, 5, 0, 0, 0, 0, 0, 0, 0, 1, 0, 0, 0, 49, 0, 0, 0, 50, 0, 4, 0, 0, 0, 0, 0, 0, 0, 0, 17, 105, 100,
          58, 55, 32, 115, 116, 97, 116, 58, 68, 69, 76, 73, 86, 82, 68, 4, 36, 0, 0] =
      .ok { header := { commandLength := 56, commandID := commandDeliverSM, commandStatus := statusOK, sequenceNumber := 1 }
            body := .struct (.deliverSM (receiptMessage deliveredText [⟨tlvTagMessagePayload, []⟩])) } ∧
    ¬ SameResult (parseDeliveryReceipt (receiptMessage deliveredText [⟨tlvTagMessagePayload, []⟩]))
      (parseDeliveryReceipt (withoutEmptyPayloads (receiptMessage deliveredText [⟨tlvTagMessagePayload, []⟩]))) := by
  refine ⟨by decide +kernel, ?_⟩
  have hrefused : parseDeliveryReceipt (receiptMessage deliveredText [⟨tlvTagMessagePayload, []⟩]) =
      .error (invalidDeliveryReceipt "short_message and message_payload both set") := by decide +kernel
  have haccepted : (parseDeliveryReceipt (withoutEmptyPayloads (receiptMessage deliveredText
      [⟨tlvTagMessagePayload, []⟩]))).map (·.messageID) = .ok [0x37] := by decide +kernel
  intro hsame
  obtain ⟨e, he, -⟩ := (sameResult_invalid_iff ⟨_, hrefused, rfl⟩).mp hsame
  rw [he] at haccepted
  cases haccepted

end GoSmpp.Message
