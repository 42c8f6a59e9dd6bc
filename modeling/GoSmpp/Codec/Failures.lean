import GoSmpp.Codec.RoundTrip

/-!
# How decoding fails

A session ends with a fatal error and answers any other one, so it matters which decoders can fail without being fatal.

* `decodePDU_delimited`: on a frame as long as it says, `decodePDU` is the decoding of the body.
* `decodeBodyBytes_response`: with a standard registry a response fails without being fatal exactly when it is `Refused`:
  an unregistered one in strict mode, or an otherwise well-formed bind response with an `sc_interface_version` that is not
  one octet long.
* `encodePDU_frame`: whatever a registry's encoders do, a frame that is encoded is the header and some body.
-/

namespace GoSmpp.Codec
open Lib Protocol

/-! ## Frames as long as they say -/

/-- The header of a correctly delimited frame. -/
def DelimitedAs (frame : Octets) (header : Header) : Prop :=
  decodeHeader frame = .ok header ∧ frame.length = header.commandLength.toNat

theorem decodePDU_delimited {frame : Octets} {header : Header} (h : DelimitedAs frame header) (r : Registry) :
    decodePDU r frame = (decodeBodyBytes r header (frame.drop headerSize)).map fun body => { header, body } := by
  obtain ⟨hh, hlen⟩ := h
  unfold decodePDU
  rw [hh]
  simp only [bind, Except.bind, ← hlen, lt_self_iff_false, if_false, ne_eq, not_true_eq_false, List.take_length]
  cases decodeBodyBytes r header (frame.drop headerSize) <;> rfl

/-! ## Responses -/

section Responses
variable {α : Type} {e : Err} {header : Header} {body : Octets}

theorem decodeErrorResponseOptional_fails (h : decodeErrorResponseOptional header body = some (.error e)) : Fatal e := by
  unfold decodeErrorResponseOptional at h
  split at h
  · cases h
  · split at h
    · cases h
    · exact optional_fails body e ((Reader.run'_error _ _ _).mp (Option.some.inj h))

theorem map_run'_error {r : Read α} {f : α → Value} (h : (do let v ← r.run' body; return f v) = Except.error e) :
    r body = .error e := by
  rw [← Reader.run'_error]
  cases hr : StateT.run' r body with
  | error e' => rw [hr] at h; cases h; rfl
  | ok v => rw [hr] at h; cases h

theorem decodeResponse_fails (t : BodyType α) (zero : α) {read : Read α}
    (h : decodeResponse t zero read header body = .error e) :
    Fatal e ∨ (header.commandStatus = statusOK ∧ read body = .error e) := by
  unfold decodeResponse at h
  split at h
  · next he => cases h; exact .inl (decodeErrorResponseOptional_fails he)
  · cases h
  · next hn => exact .inr ⟨(decodeErrorResponseOptional_none _ _).mp hn, map_run'_error h⟩

theorem decodeDeliverSMResp_fails (h : decodeDeliverSMResp header body = .error e) : Fatal e := by
  unfold decodeDeliverSMResp at h
  split at h
  · next he => cases h; exact decodeErrorResponseOptional_fails he
  · cases h
  · split at h
    · cases h
    · exact readMessageIDResp_fails body e (map_run'_error h)

theorem decodeResponseEmpty_fails (h : decodeResponseEmpty header body = .error e) : Fatal e := by
  unfold decodeResponseEmpty at h
  split at h
  · cases h
  · exact optional_fails body e (map_run'_error h)

/-- The bind responses that are refused: well formed but for the length of an `sc_interface_version`. -/
def RefusedBind (body : Octets) : Prop :=
  ∃ v : BindResponse, body = BindResponse.wire v ∧ BindResponse.Encodable v ∧ ¬ BindResponse.Canonical v

theorem readBindResponse_fails (h : readBindResponse body = .error e) :
    Fatal e ∨ (RefusedBind body ∧ e = scInterfaceVersionError) := by
  have hbind {β γ : Type} {m : Read β} {f : β → Read γ} {s : Octets} (h : (m >>= f) s = .error e) :
      m s = .error e ∨ ∃ b s', m s = .ok (b, s') ∧ f b s' = .error e := by
    change (m s >>= fun x => f x.1 x.2) = .error e at h
    cases hm : m s with
    | error e' => rw [hm] at h; cases h; exact .inl rfl
    | ok x => rw [hm] at h; exact .inr ⟨x.1, x.2, rfl, h⟩
  unfold readBindResponse at h
  rcases hbind h with h | ⟨systemID, s, h1, h⟩
  · exact .inl (readCString_fails _ _ _ h)
  rcases hbind h with h | ⟨ps, s', h2, h⟩
  · exact .inl (optional_fails _ _ h)
  rcases hbind h with h | ⟨u, s'', -, h⟩
  · right
    obtain ⟨rfl, hid⟩ := (readCString_ok _ _ _ _).mp h1
    obtain ⟨⟨rfl, rfl⟩, hps⟩ := (optional_ok _ _ _).mp h2
    unfold Reader.require at h
    split at h
    · cases h
    · next hc =>
      cases h
      exact ⟨⟨⟨systemID, ps⟩, rfl, ⟨hid, hps⟩, hc⟩, rfl⟩
  · cases h

theorem readBindResponse_refused (h : RefusedBind body) : readBindResponse body = .error scInterfaceVersionError := by
  obtain ⟨v, rfl, henc, hcan⟩ := h
  have h1 : readCString maxSystemIDLen (BindResponse.wire v) = .ok (v.systemID, tlvsWire v.optional) :=
    (readCString_ok _ _ _ _).mpr ⟨rfl, henc.1⟩
  have h2 : optional (tlvsWire v.optional) = .ok (v.optional, []) := (optional_ok _ _ _).mpr ⟨⟨rfl, rfl⟩, henc.2⟩
  show (readCString maxSystemIDLen (BindResponse.wire v) >>= _) = _
  rw [h1]
  show (optional (tlvsWire v.optional) >>= _) = _
  rw [h2]
  show (Reader.require _ scInterfaceVersionError [] >>= _) = _
  unfold Reader.require
  rw [if_neg (show ¬ ∀ p ∈ v.optional, scInterfaceVersionOK p = true from hcan)]
  rfl

end Responses

/-! ## The standard response commands -/

/-- Every failure of the definition's decoder is fatal. -/
def FailsFatally (d : CommandDefinition) : Prop :=
  ∃ decode, d.decode = some (.ofLib decode) ∧ ∀ header body e, decode header body = .error e → Fatal e

/-- The definition is one of the three bind responses. -/
def IsBindResponse (d : CommandDefinition) : Prop :=
  (d.id = commandBindReceiverResp ∨ d.id = commandBindTransmitterResp ∨ d.id = commandBindTransceiverResp) ∧
    d.decode = some (.ofLib decodeBindResponse)

theorem decodeResponse_failsFatally {α : Type} {d : CommandDefinition} {t : BodyType α} {zero : α} {read : Read α}
    (hd : d.decode = some (.ofLib (decodeResponse t zero read))) (hr : Reader.Fails Fatal read) : FailsFatally d :=
  ⟨_, hd, fun _ body e h => (decodeResponse_fails t zero h).elim id fun h => hr body e h.2⟩

theorem decodeResponseEmpty_failsFatally {d : CommandDefinition} (hd : d.decode = some (.ofLib decodeResponseEmpty)) :
    FailsFatally d := ⟨_, hd, fun _ _ _ h => decodeResponseEmpty_fails h⟩

theorem response_decoder34 : ∀ d ∈ smpp34Commands, isResponse d.id → FailsFatally d ∨ IsBindResponse d := by
  simp only [smpp34Commands, List.forall_mem_cons, List.not_mem_nil, false_implies, implies_true, and_true]
  have request {id : CommandID} {P : Prop} := @of_not_isResponse id (p := P)
  have empty := @decodeResponseEmpty_failsFatally
  exact ⟨fun _ => .inl (empty rfl), request rfl, fun _ => .inr ⟨.inl rfl, rfl⟩, request rfl,
    fun _ => .inr ⟨.inr (.inl rfl), rfl⟩, request rfl,
    fun _ => .inl (decodeResponse_failsFatally rfl readQuerySMResp_fails), request rfl,
    fun _ => .inl (decodeResponse_failsFatally rfl readMessageIDResp_fails), request rfl,
    fun _ => .inl ⟨_, rfl, fun _ _ _ h => decodeDeliverSMResp_fails h⟩, request rfl, fun _ => .inl (empty rfl),
    request rfl, fun _ => .inl (empty rfl), request rfl, fun _ => .inl (empty rfl), request rfl,
    fun _ => .inr ⟨.inr (.inr rfl), rfl⟩, request rfl, request rfl, fun _ => .inl (empty rfl), request rfl,
    fun _ => .inl (decodeResponse_failsFatally rfl readSubmitMultiResp_fails), request rfl, request rfl,
    fun _ => .inl (decodeResponse_failsFatally rfl readMessageIDResp_fails)⟩

theorem response_decoder50 : ∀ d ∈ smpp50Commands, isResponse d.id → FailsFatally d := by
  simp only [smpp50Commands, List.forall_mem_cons, List.not_mem_nil, false_implies, implies_true, and_true]
  exact ⟨of_not_isResponse rfl, fun _ => decodeResponse_failsFatally rfl readMessageIDResp_fails, of_not_isResponse rfl,
    fun _ => decodeResponse_failsFatally rfl readMessageIDResp_fails, of_not_isResponse rfl,
    fun _ => decodeResponseEmpty_failsFatally rfl⟩

theorem response_decoder {r : Registry} (hr : r.IsStandard) {id : CommandID} {d : CommandDefinition}
    (hd : r.command id = some d) (hid : isResponse id) : FailsFatally d ∨ IsBindResponse d := by
  obtain ⟨rfl, h⟩ := hr.forall_command response_decoder34 (fun d hd hid => .inl (response_decoder50 d hd hid)) hd
  exact h hid

/-- A response that a registry does not decode, without the frame being broken. -/
def Refused (r : Registry) (header : Header) (body : Octets) : Prop :=
  (r.mode = .strict ∧ r.command header.commandID = none) ∨
  ((header.commandID = commandBindReceiverResp ∨ header.commandID = commandBindTransmitterResp ∨
    header.commandID = commandBindTransceiverResp) ∧ header.commandStatus = statusOK ∧ RefusedBind body)

theorem command_bindResp {r : Registry} (hr : r.IsStandard) {id : CommandID}
    (hid : id = commandBindReceiverResp ∨ id = commandBindTransmitterResp ∨ id = commandBindTransceiverResp) :
    ∃ d, r.command id = some d ∧ d.decode = some (.ofLib decodeBindResponse) := by
  have hlib {id : CommandID} (name : String) (hd : libCommand id name decodeBindResponse encodeBindResponse ∈ smpp34Commands) :
      ∃ d, r.command id = some d ∧ d.decode = some (.ofLib decodeBindResponse) := by
    have hmem : libCommand id name decodeBindResponse encodeBindResponse ∈ r.commands := by
      rcases hr.commands with hc | hc <;> rw [hc]
      · exact hd
      · exact List.mem_append_left _ hd
    exact ⟨_, Registry.command_of_mem hmem, rfl⟩
  rcases hid with rfl | rfl | rfl
  · exact hlib "bind_receiver_resp" (by simp [smpp34Commands])
  · exact hlib "bind_transmitter_resp" (by simp [smpp34Commands])
  · exact hlib "bind_transceiver_resp" (by simp [smpp34Commands])

/-- **A response fails to decode without being fatal exactly when it is refused.** -/
theorem decodeBodyBytes_response {r : Registry} (hr : r.IsStandard) {header : Header} (hid : isResponse header.commandID)
    (body : Octets) :
    (∃ e, decodeBodyBytes r header body = .error e ∧ ¬ Fatal e) ↔ Refused r header body := by
  constructor
  · rintro ⟨e, he, hf⟩
    cases hd : r.command header.commandID with
    | none =>
      left
      unfold decodeBodyBytes Registry.resolveCommand at he
      rw [hd] at he
      by_cases hm : r.mode = .strict
      · exact ⟨hm, hd⟩
      · simp only [hm, if_false] at he
        cases he
    | some d =>
      right
      rcases response_decoder hr hd hid with ⟨decode, hdec, hfails⟩ | ⟨hb, hdec⟩
      · rw [decodeBodyBytes_of_decoder hd hdec] at he
        exact absurd (hfails _ _ _ he) hf
      · rw [(Registry.mem_of_command hd).2] at hb
        rw [decodeBodyBytes_of_decoder hd hdec] at he
        obtain ⟨hs, he⟩ := (decodeResponse_fails bindResponseType ⟨[], []⟩ he).resolve_left hf
        exact ⟨hb, hs, ((readBindResponse_fails he).resolve_left hf).1⟩
  · rintro (⟨hm, hd⟩ | ⟨hb, hs, hrefused⟩)
    · refine ⟨.wrapped (hex32 header.commandID) (.sentinel .unknownCommand), ?_, by simp [Fatal, Err.asFatal]⟩
      unfold decodeBodyBytes Registry.resolveCommand
      rw [hd]
      simp only [hm, if_true]
      rfl
    · obtain ⟨d, hd, hdec⟩ := command_bindResp hr hb
      refine ⟨scInterfaceVersionError, ?_, by simp [Fatal, scInterfaceVersionError, Err.asFatal]⟩
      rw [decodeBodyBytes_of_decoder hd hdec]
      unfold decodeBindResponse decodeResponse
      rw [(decodeErrorResponseOptional_none _ _).mpr hs]
      simp only
      rw [(Reader.run'_error _ _ _).mpr (readBindResponse_refused hrefused)]
      rfl

/-! ## Encoding -/

theorem finishPDU_frame {out : Slice} {header : Header} {frame : Octets} (hp : List.replicate headerSize 0 <+: out.data)
    (h : finishPDU out 0 header = .returned (frame, none)) : ∃ bs, frame = frameOf header bs := by
  obtain ⟨bs, hbs⟩ := hp
  -- the spare octets of the slice matter only where it fails
  have hsame : finishPDU ⟨out.data, []⟩ 0 header = .returned (frame, none) := by
    unfold finishPDU at *
    simp only [truncated_zero] at *
    split at h
    · cases h
    · next hh => simpa only [hh] using h
  have hres := finishPDU_reserved [] bs header
  rw [List.nil_append, hbs] at hres
  rw [show ([] : Octets).length = 0 from rfl, hsame] at hres
  split at hres
  · cases hres
  · cases hres
    exact ⟨bs, rfl⟩

theorem encodeBody_appends {encoder : CommandEncoder} {dst : Octets} {body : Value} {out : Slice}
    (h : encodeBody encoder dst body = (out, none)) : dst <+: out.data := by
  unfold encodeBody at h
  split at h
  · next he => cases h; exact encoder.appends _ _ _ he
  · cases h

theorem appendErrorResponseBody_appends {encoder : CommandEncoder} {dst : Octets} {body : Value} {out : Slice}
    (h : appendErrorResponseBody dst encoder body = (out, none)) : dst <+: out.data := by
  unfold appendErrorResponseBody at h
  split at h
  · cases h
  · have hout : Slice.mk ((appendOptional (optionalParametersOf body)).appendTo dst).1 [] = out := congrArg Prod.fst h
    rw [← hout, Appender.appendTo_fst]
    exact List.prefix_append _ _

/-- **An encoded frame is the header and a body**, whatever the encoder: one that returns without an error has left the
octets reserved for the header alone. -/
theorem encodePDU_frame {r : Registry} {header : Header} {body : Value} {frame : Octets}
    (h : encodePDU r [] header body = .returned (frame, none)) : ∃ bs, frame = frameOf header bs := by
  unfold encodePDU at h
  simp only [List.nil_append, List.length_nil, truncated_zero] at h
  split at h
  · cases h
  · next encoder _ _ _ _ _ _ =>
    split at h
    · cases h
    · next hnone =>
      refine finishPDU_frame ?_ h
      split at hnone
      · next hif => rw [if_pos hif]; exact appendErrorResponseBody_appends (Prod.ext rfl hnone)
      · next hif => rw [if_neg hif]; exact encodeBody_appends (Prod.ext rfl hnone)
  · split at h
    · exact finishPDU_frame (List.prefix_append _ _) h
    · cases h

end GoSmpp.Codec
