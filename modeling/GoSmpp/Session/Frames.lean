import GoSmpp.Session.Pipeline
import GoSmpp.Session.Reservation

/-!
# What the frames of a session say

* `TxItem.Faithful`: the frame of an item begins with its header, only a response has the id of one, and a `generic_nack`
  is never a success.
* `Orderly`: every item on its way is faithful, in every run (`Orderly.step`).
* `Grants`: the frame would complete a bind with success. `Faithful.grants`: of the items only the response that accepts
  this bind does.

A vendor command with the id 0, whose response would have the id of a `generic_nack`, is excluded.
-/

namespace GoSmpp.Session
open Lib Protocol Codec

/-! ## Identifiers -/

theorem requestID_responseID {c : CommandID} (h : isResponse c = false) : requestID (responseID c) = c := by
  have hbit : c &&& responseMask = 0 := by simpa [isResponse] using h
  have hbit' : c.toBitVec &&& responseMask.toBitVec = 0 := congrArg UInt32.toBitVec hbit
  apply UInt32.toBitVec_inj.mp
  show (c.toBitVec ||| responseMask.toBitVec) &&& ~~~responseMask.toBitVec = c.toBitVec
  ext i hi
  have hi' := congrArg (fun b : BitVec 32 => b[i]) hbit'
  simp only [BitVec.getElem_and, BitVec.getElem_or, BitVec.getElem_not] at hi' ⊢
  cases hc : c.toBitVec[i] <;> cases hm : responseMask.toBitVec[i] <;> simp_all

theorem responseID_inj {a b : CommandID} (ha : isResponse a = false) (hb : isResponse b = false)
    (h : responseID a = responseID b) : a = b := by
  rw [← requestID_responseID ha, h, requestID_responseID hb]

theorem responseID_ne_genericNACK {c : CommandID} (h : isResponse c = false) (hc : c ≠ 0) :
    responseID c ≠ commandGenericNACK :=
  fun he => hc (responseID_inj h rfl he)

/-! ## Faithful items -/

/-- What the frame of an item says of it, as long as no command has the id 0 (`noZero`). -/
structure TxItem.Faithful (item : TxItem) (noZero : Prop) : Prop where
  frame : ∃ bs, item.frame = frameOf item.header bs
  request : item.kind ≠ .response → isResponse item.header.commandID = false
  response : noZero → item.kind = .response → item.header.commandStatus = item.status ∧
    ((item.header.commandID = commandGenericNACK ∧ CommandStatus.ok item.status = false) ∨
      (isResponse item.responseTo = false ∧ item.responseTo ≠ 0 ∧ item.header.commandID = responseID item.responseTo))

/-- The PDU is a request that the session can answer by a response of its own. -/
def Answerable (request : Header) : Prop := isResponse request.commandID = false ∧ request.commandID ≠ 0

section Faithful
variable {s : Session} {request : Header} {id : CommandID} {status : CommandStatus} {body : Value} {reserved : Bool}
  {item : TxItem} {next : AfterQueue} {pdu : DecodedPDU} {label : Label} {m : StateMachine} {queue : List TxItem}
  {noZero : Prop}

theorem queueResponse_faithful (h : s.queueResponse request id status body reserved = .ok item)
    (hid : noZero → (id = commandGenericNACK ∧ CommandStatus.ok status = false) ∨
      (id = responseID request.commandID ∧ Answerable request)) : item.Faithful noZero := by
  obtain ⟨hk, hh, hf, hto, hst, -⟩ := queueResponse_ok h
  refine ⟨hf, fun hne => absurd hk hne, fun hz _ => ⟨by rw [hh, hst]; rfl, ?_⟩⟩
  rcases hid hz with ⟨rfl, hok⟩ | ⟨rfl, hresp, hne⟩
  · exact .inl ⟨by rw [hh]; rfl, by rw [hst]; exact hok⟩
  · rw [if_neg (responseID_ne_genericNACK hresp hne)] at hto
    rw [hto]
    exact .inr ⟨hresp, hne, by rw [hh]; rfl⟩

theorem AnswerNext.faithful (h : AnswerNext s pdu status (.queueing item next)) (hp : noZero → Answerable pdu.header) :
    item.Faithful noZero := by
  generalize hrx : RxPhase.queueing item next = rx at h
  cases h with
  | queue hq => cases hrx; exact queueResponse_faithful hq fun hz => .inr ⟨rfl, hp hz⟩
  | nack hq => cases hrx; exact queueResponse_faithful hq fun _ => .inl ⟨rfl, rfl⟩
  | fail err => exact absurd hrx.symm (failed_ne _ err)

theorem not_ok_of_ne (h : status ≠ statusOK) : CommandStatus.ok status = false := by
  simpa [CommandStatus.ok] using h

theorem RxNext.faithful {rx : RxPhase} (h : RxNext s label m queue rx) (hrx : rx = .queueing item next)
    (hp : noZero → ∀ pdu, s.rx = .beginning pdu ∨ s.rx = .handling pdu → Answerable pdu.header) : item.Faithful noZero := by
  cases h with
  | skip _ h => rcases h with rfl | ⟨err, rfl⟩ <;> cases hrx
  | nack _ hst _ hq => cases hrx; exact queueResponse_faithful hq fun _ => .inl ⟨rfl, not_ok_of_ne hst⟩
  | refuse hs _ hid hq =>
    cases hrx
    rcases hid with rfl | rfl
    · exact queueResponse_faithful hq fun _ => .inl ⟨rfl, rfl⟩
    · exact queueResponse_faithful hq fun hz => .inr ⟨rfl, hp hz _ (.inl hs)⟩
  | answer hs _ _ ha => subst hrx; exact ha.faithful fun hz => hp hz _ (.inl hs)
  | handled hs _ ha => subst hrx; exact ha.faithful fun hz => hp hz _ (.inr hs)
  | broke hs ha => subst hrx; exact ha.faithful fun hz => hp hz _ (.inr hs)
  | withheld _ h => rcases h with ⟨rfl, -⟩ | ⟨err, rfl⟩ <;> cases hrx
  | close => exact absurd hrx (failed_ne _ _)
  | receive | unanswered | handle | ignore | enqueue | cancel | stop | resume => cases hrx

theorem RxNext.taken {rx : RxPhase} (h : RxNext s label m queue rx) (hrx : rx = .beginning pdu ∨ rx = .handling pdu) :
    s.rx = .beginning pdu ∨
    (isResponse pdu.header.commandID = false ∧ (s.config.registry.command pdu.header.commandID).isSome) := by
  have hanswer {pdu' : DecodedPDU} {status : CommandStatus} (ha : AnswerNext s pdu' status rx) : False := by
    cases ha with
    | queue | nack => rcases hrx with hrx | hrx <;> cases hrx
    | fail err => cases hnext : afterQueue pdu'.header.commandID <;> rw [hnext] at hrx <;> rcases hrx with hrx | hrx <;> cases hrx
  cases h with
  | receive _ _ hr hreg =>
    rcases hrx with hrx | hrx <;> cases hrx
    exact .inr ⟨hr, hreg⟩
  | handle hs =>
    rcases hrx with hrx | hrx <;> cases hrx
    exact .inl hs
  | answer _ _ _ ha | handled _ _ ha | broke _ ha => exact (hanswer ha).elim
  | skip _ h => rcases h with rfl | ⟨err, rfl⟩ <;> rcases hrx with hrx | hrx <;> cases hrx
  | withheld _ h => rcases h with ⟨rfl, -⟩ | ⟨err, rfl⟩ <;> rcases hrx with hrx | hrx <;> cases hrx
  | @close _ next err => cases next <;> rcases hrx with hrx | hrx <;> cases hrx
  | nack | refuse | unanswered | ignore | enqueue | cancel | stop | resume => rcases hrx with hrx | hrx <;> cases hrx

end Faithful

/-! ## Every item is faithful -/

/-- What holds in every run of a session. -/
structure Orderly (config : Config) (s : Session) : Prop extends Regular config s where
  oneWayItems : s.OneWayItems
  sends : ∀ k ∈ s.sends, ∀ item, k.phase = .admitting item → item.Faithful (config.registry.command 0 = none)
  checked : ∀ {i : Nat} {k : Call}, s.ledger.calls[i]? = some k →
    k.phase = .checking ∨ k.phase.over ∨ isResponse k.command = false
  taken : config.registry.command 0 = none → ∀ pdu, s.rx = .beginning pdu ∨ s.rx = .handling pdu → Answerable pdu.header
  faithful : ∀ item ∈ s.items, item.Faithful (config.registry.command 0 = none)

section Orderly
variable {config : Config} {role : Role} {s s' : Session} {label : Label}

theorem orderly_new (config : Config) (role : Role) : Orderly config (new config role) where
  toRegular := regular_new config role
  oneWayItems _ hk := (List.not_mem_nil hk).elim
  sends _ hk := (List.not_mem_nil hk).elim
  checked hk := by cases hk
  taken _ pdu h := by rcases h with h | h <;> cases h
  faithful _ hi := (List.not_mem_nil hi).elim

theorem encodeFrame_frame {registry : Registry} {header : Header} {body : Value} {frame : Octets}
    (h : encodeFrame registry header body = .ok frame) : ∃ bs, frame = frameOf header bs :=
  encodePDU_frame (encodeFrame_ok h)

theorem not_isResponse_of_oneWay {command : CommandID} (h : isOneWayCommand command) : isResponse command = false := by
  rw [isOneWayCommand, Bool.or_eq_true, beq_iff_eq, beq_iff_eq] at h
  rcases h with rfl | rfl <;> rfl

theorem Orderly.sends_step (h : Orderly config s) (hs : s.step label = some s') {k' : Send} (hk' : k' ∈ s'.sends)
    {item : TxItem} (hp : k'.phase = .admitting item) : item.Faithful (config.registry.command 0 = none) := by
  obtain ⟨j, hj⟩ := List.getElem?_of_mem hk'
  rcases step_sender hs hj with ⟨command, body, -, rfl⟩ | ⟨k, hk, hsame | ⟨arm, t, q, -, hn, -, rfl⟩⟩
  · cases hp
  · exact h.sends k (List.mem_of_getElem? hk) item (hsame.2.2.symm.trans hp)
  · cases hn <;> cases hp
    next hphase henc =>
    have hone := h.oneWay k (List.mem_of_getElem? hk) (by rw [hphase]; rfl)
    exact ⟨encodeFrame_frame henc, fun _ => not_isResponse_of_oneWay hone, fun _ => nofun⟩

theorem Orderly.checked_step (h : Orderly config s) (hs : s.step label = some s') {i : Nat} {k' : Call}
    (hk' : s'.ledger.calls[i]? = some k') : k'.phase = .checking ∨ k'.phase.over ∨ isResponse k'.command = false := by
  rcases step_caller hs hk' with ⟨command, body, waitWindow, -, rfl⟩ | ⟨k, hk, ho | ⟨arm, t, q, -, hn, -, ho⟩⟩
  · exact .inl rfl
  · rw [ho.command, ho.phase]
    exact h.checked hk
  · rw [ho.command, ho.phase]
    exact .inr (hn.passed (fun he => (requestError_none he).1) (h.checked hk))

theorem Orderly.taken_step (h : Orderly config s) (hz : config.registry.command 0 = none) (hs : s.step label = some s')
    {pdu : DecodedPDU} (hrx : s'.rx = .beginning pdu ∨ s'.rx = .handling pdu) : Answerable pdu.header := by
  have hsame (he : s'.rx = s.rx) : Answerable pdu.header := h.taken hz pdu (he ▸ hrx)
  cases step_flow h.oneWayItems hs with
  | rx hnext =>
    rcases hnext.taken hrx with hs | ⟨hr, hreg⟩
    · exact h.taken hz pdu (.inl hs)
    · refine ⟨hr, fun hzero => ?_⟩
      rw [hzero, h.identified.configured, hz] at hreg
      cases hreg
  | tx _ _ he => exact hsame he
  | enter _ _ _ _ _ he => exact hsame he
  | other _ _ he =>
    rcases he with he | he
    · exact hsame he
    · rw [he] at hrx
      rcases hrx with hrx | hrx <;> cases hrx

theorem Orderly.enters (h : Orderly config s) {item : TxItem} (hi : s.Enters item) :
    item.Faithful (config.registry.command 0 = none) := by
  rcases hi with ⟨i, k, frame, hk, hp, rfl⟩ | ⟨k, hk, hp⟩
  · refine ⟨encodeFrame_frame (h.identified.frame hk hp), fun _ => ?_, fun _ => nofun⟩
    rcases h.checked hk with hc | hc | hc
    · rw [hp] at hc; cases hc
    · rw [hp] at hc; cases hc
    · exact hc
  · exact h.sends k hk item hp

theorem Orderly.faithful_step (h : Orderly config s) (hs : s.step label = some s') {item : TxItem} (hi : item ∈ s'.items) :
    item.Faithful (config.registry.command 0 = none) := by
  rcases (step_flow h.oneWayItems hs).mem (f := TxPhase.unwritten) hi TxNext.mem_unwritten with
    hi | ⟨next, hrx, hnext⟩ | ⟨-, hi⟩
  · exact h.faithful item hi
  · exact hnext.faithful hrx h.taken
  · exact h.enters hi

/-- The step lemma. -/
theorem Orderly.step (h : Orderly config s) (hs : s.step label = some s') : Orderly config s' where
  toRegular := h.toRegular.step hs
  oneWayItems := h.oneWayItems.step hs
  sends _ hk _ hp := h.sends_step hs hk hp
  checked hk := h.checked_step hs hk
  taken hz _ hrx := h.taken_step hz hs hrx
  faithful _ hi := h.faithful_step hs hi

theorem Orderly.read (h : Orderly config s) (wire : List Octets) : Orderly config { s with wire } where
  toRegular := h.toRegular.read wire
  oneWayItems := h.oneWayItems
  sends := h.sends
  checked := h.checked
  taken := h.taken
  faithful := h.faithful

end Orderly

/-! ## Frames that accept a bind -/

/-- The frame completes a pending bind with success, as `handleResponse` sees it. -/
def Grants (frame : Octets) (bind : CommandID) : Prop :=
  ∃ header bs, frame = frameOf header bs ∧ CommandStatus.ok header.commandStatus ∧
    (header.commandID = responseID bind ∨ header.commandID = commandGenericNACK)

theorem decodePDU_frame {r : Registry} {frame : Octets} {pdu : DecodedPDU} (h : decodePDU r frame = .ok pdu) :
    ∃ bs, frame = frameOf pdu.header bs := by
  obtain ⟨bs, hframe, hlen, -⟩ := (decodePDU_ok r frame pdu).mp h
  refine ⟨bs, ?_⟩
  rw [frameOf, ← hlen, UInt32.ofNat_toNat]
  exact hframe

theorem frameOf_inj {header header' : Header} {bs bs' : Octets} (h : frameOf header bs = frameOf header' bs') :
    header.commandID = header'.commandID ∧ header.commandStatus = header'.commandStatus ∧
    header.sequenceNumber = header'.sequenceNumber := by
  obtain ⟨hh, -⟩ := Header.wire_append_inj h
  rw [Header.mk.injEq] at hh
  exact hh.2

theorem TxItem.Faithful.grants {item : TxItem} {bind : CommandID} {noZero : Prop} (h : item.Faithful noZero) (hz : noZero)
    (hb : isBindRequest bind) (hg : Grants item.frame bind) :
    item.kind = .response ∧ item.responseTo = bind ∧ CommandStatus.ok item.status := by
  obtain ⟨header, bs, hframe, hok, hid⟩ := hg
  obtain ⟨bs', hframe'⟩ := h.frame
  obtain ⟨hc, hst, -⟩ := frameOf_inj (hframe'.symm.trans hframe)
  rw [← hc] at hid
  rw [← hst] at hok
  have hresp : isResponse item.header.commandID := by
    rcases hid with hid | hid <;> rw [hid]
    · rcases isBindRequest_cases hb with rfl | rfl | rfl <;> decide
    · decide
  have hkind : item.kind = .response := by
    by_contra hne
    rw [h.request hne] at hresp
    cases hresp
  obtain ⟨hs, ⟨-, hno⟩ | ⟨hto, hne, heq⟩⟩ := h.response hz hkind
  · rw [hs, hno] at hok; cases hok
  · refine ⟨hkind, ?_, hs ▸ hok⟩
    rcases hid with hid | hid
    · refine responseID_inj hto ?_ (heq.symm.trans hid)
      rcases isBindRequest_cases hb with rfl | rfl | rfl <;> decide
    · exact absurd (heq.symm.trans hid) (responseID_ne_genericNACK hto hne)

end GoSmpp.Session
