import GoSmpp.Lib.Words
import GoSmpp.Encoding.Unicode
import GoSmpp.Protocol.Pdu

/-!
# Delivery receipts

`message/delivery_receipt.go`. Texts and identifiers are Go strings, here their octets.

* `receiptTLV`: the loop body over the optional parameters; `textFields`: the loop over the words of the text.
* `parseDeliveryReceipt`: what a `deliver_sm` says as a receipt, from its parameters and its text.
-/

namespace GoSmpp.Message

open GoSmpp.Lib GoSmpp.Encoding
open GoSmpp.Protocol hiding Kind

inductive ReceiptFieldSource where
  | none | text | tlv
  deriving DecidableEq, Repr

structure DeliveryReceipt where
  messageID : Octets
  messageIDSource : ReceiptFieldSource
  textMessageID : Octets
  tlvMessageID : Octets
  messageIDConflict : Bool
  state : UInt8
  hasState : Bool
  stateSource : ReceiptFieldSource
  textStatus : Octets
  textState : UInt8
  hasTextState : Bool
  tlvState : UInt8
  hasTLVState : Bool
  stateConflict : Bool
  deriving DecidableEq, Repr

def invalidDeliveryReceipt (text : String) : Err := .wrapped text (.sentinel .invalidDeliveryReceipt)

def notDeliveryReceipt : Err := .sentinel .notDeliveryReceipt

/-! ## The optional parameters -/

/-- The terminator of a C-Octet string is not part of the identifier. -/
def withoutTerminator (value : Octets) : Octets := if value.getLast? = some 0 then value.dropLast else value

def receiptTLVMessageID (value : Octets) : Except Err Octets :=
  if value = [] then .error (invalidDeliveryReceipt "empty receipted_message_id TLV")
  else if withoutTerminator value = [] ∨ 0 ∈ withoutTerminator value then
    .error (invalidDeliveryReceipt "malformed receipted_message_id C-Octet value")
  else .ok (withoutTerminator value)

/-- What the loop over the optional parameters has found. -/
structure ReceiptTLVs where
  tlvMessageID : Octets := []
  tlvState : UInt8 := 0
  hasTLVState : Bool := false
  payload : Octets := []
  payloadSeen : Bool := false
  deriving DecidableEq, Repr

def stateTLVError : Err := invalidDeliveryReceipt "message_state TLV must be one octet in 1..8"

/-- The loop body of `ParseDeliveryReceipt`. -/
def receiptTLV (found : ReceiptTLVs) (item : OptionalParameter) : Except Err ReceiptTLVs :=
  if item.tag = tlvTagReceiptedMessageID then
    match receiptTLVMessageID item.value with
    | .error err => .error err
    | .ok id =>
      if found.tlvMessageID ≠ [] ∧ found.tlvMessageID ≠ id then
        .error (invalidDeliveryReceipt "conflicting receipted_message_id TLVs")
      else .ok { found with tlvMessageID := id }
  else if item.tag = tlvTagMessageState then
    match item.value with
    | [state] =>
      if state < 1 ∨ 8 < state then .error stateTLVError
      else if found.hasTLVState = true ∧ found.tlvState ≠ state then
        .error (invalidDeliveryReceipt "conflicting message_state TLVs")
      else .ok { found with tlvState := state, hasTLVState := true }
    | _ => .error stateTLVError
  else if item.tag = tlvTagMessagePayload then
    if found.payloadSeen = true ∧ found.payload ≠ item.value then
      .error (invalidDeliveryReceipt "conflicting message_payload TLVs")
    else .ok { found with payload := item.value, payloadSeen := true }
  else .ok found

/-! ## The text -/

def ascii (text : List Char) : Octets := text.map fun c => UInt8.ofNat c.toNat

/-- A word starts with a label, whatever its case. -/
def hasLabel (label word : Octets) : Bool := label.length ≤ word.length && equalFold (word.take label.length) label

def idLabel : Octets := ascii ['i', 'd', ':']

def statLabel : Octets := ascii ['s', 't', 'a', 't', ':']

def textLabel : Octets := ascii ['t', 'e', 'x', 't', ':']

/-- The `id:` and `stat:` fields of a text. -/
structure TextFields where
  id : Octets := []
  status : Octets := []
  deriving DecidableEq, Repr

inductive TextField where
  | id | stat
  deriving DecidableEq, Repr

/-- The field that a word is labelled with, and the rest of the word. -/
def labelled (word : Octets) : Option (TextField × Octets) :=
  if hasLabel idLabel word then some (.id, word.drop 3)
  else if hasLabel statLabel word then some (.stat, word.drop 5)
  else none

def TextFields.set (found : TextFields) : TextField → Octets → Except Err TextFields
  | .id, value =>
    if found.id ≠ [] ∧ found.id ≠ value then .error (invalidDeliveryReceipt "conflicting text id fields")
    else .ok { found with id := value }
  | .stat, value =>
    if found.status ≠ [] ∧ found.status ≠ value then .error (invalidDeliveryReceipt "conflicting text stat fields")
    else .ok { found with status := value }

/-- The loop of `extractReceiptTextFields`. -/
def textFields : List Octets → TextFields → Except Err TextFields
  | [], found => .ok found
  | word :: rest, found =>
    if hasLabel textLabel word then .ok found
    else
      match labelled word with
      | none => textFields rest found
      | some (field, []) =>
        -- the value of a label that stands alone is the next word, unless that has a colon
        match rest with
        | [] => .ok found
        | next :: rest =>
          if 0x3a ∈ next then textFields (next :: rest) found else do textFields rest (← found.set field next)
      | some (field, value) => do textFields rest (← found.set field value)

def extractReceiptTextFields (text : Octets) : Except Err TextFields := textFields (fields text) {}

/-- The states of `receiptTextState`. -/
def textStates : List (Octets × UInt8) :=
  [(ascii ['E', 'N', 'R', 'O', 'U', 'T', 'E'], 1), (ascii ['D', 'E', 'L', 'I', 'V', 'R', 'D'], 2),
   (ascii ['E', 'X', 'P', 'I', 'R', 'E', 'D'], 3), (ascii ['D', 'E', 'L', 'E', 'T', 'E', 'D'], 4),
   (ascii ['U', 'N', 'D', 'E', 'L', 'I', 'V'], 5), (ascii ['A', 'C', 'C', 'E', 'P', 'T', 'D'], 6),
   (ascii ['U', 'N', 'K', 'N', 'O', 'W', 'N'], 7), (ascii ['R', 'E', 'J', 'E', 'C', 'T', 'D'], 8)]

def receiptTextState (status : Octets) : Option UInt8 := (textStates.find? fun s => equalFold status s.1).map Prod.snd

/-- The text of an error of `DecodeUCS2`. -/
def unicodeErrorText : Err → String
  | .wrapped text _ => "smpp encoding: invalid Unicode data: " ++ text
  | _ => "smpp encoding: invalid Unicode data"

/-- The text that a receipt carries. Of other codings nothing is read. -/
def receiptText (coding : DataCoding) (raw : Octets) : Except Err Octets :=
  if raw = [] then .ok []
  else if coding = dataCodingUCS2 then
    match decodeUCS2 raw with
    | .error err => .error (invalidDeliveryReceipt ("invalid UCS-2 receipt text: " ++ unicodeErrorText err))
    | .ok text => .ok text.data.toList
  else if coding = dataCodingSMSCDefault then .ok raw
  else .ok []

/-! ## The receipt -/

/-- The identifier of a receipt and its source: that of the text, then that of the parameter. -/
def selectMessageID (tlvs : ReceiptTLVs) (text : TextFields) : Octets × ReceiptFieldSource :=
  if text.id ≠ [] then (text.id, .text)
  else if tlvs.tlvMessageID ≠ [] then (tlvs.tlvMessageID, .tlv)
  else ([], .none)

/-- The state of a receipt and its source: that of the parameter, then that of the text. -/
def selectState (tlvs : ReceiptTLVs) (textState : Option UInt8) : Option UInt8 × ReceiptFieldSource :=
  if tlvs.hasTLVState then (some tlvs.tlvState, .tlv)
  else if textState.isSome then (textState, .text)
  else (none, .none)

/-- The end of `ParseDeliveryReceipt`: what has been found is a receipt, or it is not. -/
def receiptOf (esmClass : UInt8) (tlvs : ReceiptTLVs) (text : TextFields) : Except Err DeliveryReceipt :=
  let messageID := selectMessageID tlvs text
  let textState := if text.status ≠ [] then receiptTextState text.status else none
  let state := selectState tlvs textState
  let markedReceipt := esmClass &&& 0x3c == 0x04
  let hasTLVReceipt := tlvs.tlvMessageID ≠ [] || tlvs.hasTLVState
  let textReceipt := text.status ≠ [] && (text.id ≠ [] || textState.isSome)
  if !markedReceipt && !hasTLVReceipt && !textReceipt then .error notDeliveryReceipt
  else if messageID.1 = [] ∧ text.status = [] ∧ tlvs.hasTLVState = false then .error notDeliveryReceipt
  else .ok
    { messageID := messageID.1, messageIDSource := messageID.2
      textMessageID := text.id, tlvMessageID := tlvs.tlvMessageID
      messageIDConflict := text.id ≠ [] ∧ tlvs.tlvMessageID ≠ [] ∧ text.id ≠ tlvs.tlvMessageID
      state := state.1.getD 0, hasState := state.1.isSome, stateSource := state.2
      textStatus := text.status, textState := textState.getD 0, hasTextState := textState.isSome
      tlvState := tlvs.tlvState, hasTLVState := tlvs.hasTLVState
      stateConflict := textState.isSome ∧ tlvs.hasTLVState ∧ textState.getD 0 ≠ tlvs.tlvState }

/-- The octets of the text: those of short_message, else those of the message_payload parameter. -/
def receiptRaw (deliver : ShortMessageBody) (tlvs : ReceiptTLVs) : Octets :=
  if deliver.shortMessage = [] ∧ tlvs.payloadSeen = true then tlvs.payload else deliver.shortMessage

/-- The rest of `ParseDeliveryReceipt` behind the loop. -/
def receiptFrom (deliver : ShortMessageBody) (tlvs : ReceiptTLVs) : Except Err DeliveryReceipt :=
  if tlvs.payloadSeen = true ∧ deliver.shortMessage ≠ [] then
    .error (invalidDeliveryReceipt "short_message and message_payload both set")
  else do
    let text ← extractReceiptTextFields (← receiptText deliver.dataCoding (receiptRaw deliver tlvs))
    receiptOf deliver.esmClass tlvs text

def parseDeliveryReceipt (deliver : ShortMessageBody) : Except Err DeliveryReceipt := do
  receiptFrom deliver (← deliver.optional.foldlM receiptTLV {})

end GoSmpp.Message
