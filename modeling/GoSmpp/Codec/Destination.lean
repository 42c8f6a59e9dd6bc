import GoSmpp.Codec.Commands

/-!
# Package `codec`: the destination of `EncodePDU`

`EncodePDU` reserves the header at the end of `dst`, lets the encoder append the body field by field, and cuts the slice back
to `dst` where that fails. Here is what its caller finds in the slice it returns.

* `Appended` : a function of the destination that leaves it as it is and fails, or appends, and decides which without it;
* `encodePDU_atomic` : `encodePDU` is one with a standard registry, whose encoders keep what they are given;
* `encodePDU_failing_encoder` : a vendor encoder may return any slice with its error, or write to `dst` and panic, and the cut
  is made in that slice.
-/

namespace GoSmpp.Codec
open Lib Protocol

/-! ## Append or fail -/

/-- The function refuses and returns its destination, or appends to it, and what it does is decided without it. -/
def Appended (f : Octets → Outcome (Octets × Option Err)) : Prop :=
  (∃ e, Refusal e ∧ ∀ dst, f dst = .returned (dst, some e)) ∨ (∃ frame, ∀ dst, f dst = .returned (dst ++ frame, none))

theorem truncated_reserved (dst bs : Octets) (err : Err) :
    truncated ⟨dst ++ List.replicate headerSize 0 ++ bs, []⟩ dst.length err = .returned (dst, some err) := by
  unfold truncated Slice.upTo
  rw [if_pos (by simp only [List.length_append]; omega)]
  simp only [List.append_nil, List.append_assoc, List.take_left]

theorem finish_appended (header : Header) (err : Option Err) (bs : Octets) : (∀ e, err = some e → Refusal e) →
    Appended fun dst =>
      match err with
      | some e => truncated ⟨dst ++ List.replicate headerSize 0 ++ bs, []⟩ dst.length e
      | none => finishPDU ⟨dst ++ List.replicate headerSize 0 ++ bs, []⟩ dst.length header := by
  intro herr
  cases err with
  | some e => exact .inl ⟨e, herr e rfl, fun dst => truncated_reserved dst bs e⟩
  | none =>
    simp only [finishPDU_reserved]
    split
    · exact .inl ⟨_, rfl, fun _ => rfl⟩
    · exact .inr ⟨_, fun _ => rfl⟩

/-- The response is written without its mandatory fields. -/
def isErrorResponse (header : Header) : Bool := isResponse header.commandID && !CommandStatus.ok header.commandStatus

/-- The two ways `encodePDU` has the body written, as one appender: an error response writes the TLVs of a body that the
encoder accepts. -/
def appendBody (encode : Value → Append Unit) (header : Header) (body : Value) : Append Unit :=
  if isErrorResponse header then
    match (encode body).err with
    | some e => .fail e
    | none => appendOptional (optionalParametersOf body)
  else encode body

theorem appendBody_eq (encode : Value → Append Unit) (header : Header) (body : Value) (dst : Octets) :
    (if isResponse header.commandID && !CommandStatus.ok header.commandStatus then
        appendErrorResponseBody dst (.ofLib encode) body
      else encodeBody (.ofLib encode) dst body) =
      (⟨dst ++ (appendBody encode header body).2, []⟩, (appendBody encode header body).err) := by
  have hencode (dst : Octets) : encodeBody (.ofLib encode) dst body = (⟨dst ++ (encode body).2, []⟩, (encode body).err) := by
    show (Slice.mk ((encode body).appendTo dst).1 [], ((encode body).appendTo dst).2) = _
    rw [Appender.appendTo_eq]
  unfold appendBody isErrorResponse
  split
  · unfold appendErrorResponseBody
    rw [hencode]
    cases (encode body).err with
    | some e =>
      show (Slice.mk dst [], some e) = (⟨dst ++ [], []⟩, some e)
      rw [List.append_nil]
    | none => simp only [Appender.appendTo_eq]
  · exact hencode dst

theorem appendBody_fails {f : CommandFormat} {header : Header} {body : Value} {e : Err}
    (h : (appendBody f.encode header body).err = some e) : Refusal e := by
  unfold appendBody at h
  split at h
  · cases he : (f.encode body).err with
    | some e' =>
      rw [he] at h
      cases h
      exact f.encode_fails he
    | none =>
      rw [he] at h
      exact (appendOptional_writes _).fails e h
  · exact f.encode_fails h

theorem encodePDU_format_appended {r : Registry} {header : Header} {d : CommandDefinition} {f : CommandFormat}
    (hd : r.command header.commandID = some d) (he : d.encode = some (.ofLib f.encode)) (body : Value) :
    Appended fun dst => encodePDU r dst header body := by
  have hres := Registry.resolveCommand_some hd
  obtain ⟨id, name, decode, enc, actor, states⟩ := d
  cases he
  unfold encodePDU
  simp only [hres, appendBody_eq]
  exact finish_appended header _ _ fun _ => appendBody_fails

theorem encodePDU_unknown_appended {r : Registry} {header : Header} (hd : r.command header.commandID = none) (body : Value) :
    Appended fun dst => encodePDU r dst header body := by
  unfold encodePDU Registry.resolveCommand
  rw [hd]
  by_cases hm : r.mode = .strict
  · simp only [hm, if_true]
    exact .inl ⟨_, rfl, fun _ => rfl⟩
  · simp only [hm, if_false]
    cases body with
    | raw raw => exact finish_appended header none raw nofun
    | _ => exact .inl ⟨_, rfl, fun _ => rfl⟩

theorem encodePDU_appended {r : Registry} (hr : r.IsStandard) (header : Header) (body : Value) :
    Appended fun dst => encodePDU r dst header body := by
  cases hd : r.command header.commandID with
  | none => exact encodePDU_unknown_appended hd body
  | some d =>
    obtain ⟨-, f, hf⟩ := exists_format hr hd
    exact encodePDU_format_appended hd hf.encode body

/-- With a standard registry the errors are those of the package. -/
theorem encodePDU_refuses {r : Registry} (hr : r.IsStandard) {dst out : Octets} {header : Header} {body : Value} {e : Err}
    (h : encodePDU r dst header body = .returned (out, some e)) : Refusal e := by
  rcases encodePDU_appended hr header body with ⟨e', he, h'⟩ | ⟨frame, h'⟩
  · cases (h' dst).symm.trans h
    exact he
  · cases (h' dst).symm.trans h

/-- **Encoding is append-only and atomic.** With a standard registry `encodePDU` fails and returns the contents of `dst`, or
returns `dst` followed by the octets that it returns for an empty destination; which of the two does not depend on `dst`. -/
theorem encodePDU_atomic {r : Registry} (hr : r.IsStandard) (dst : Octets) (header : Header) (body : Value) :
    (∃ e, encodePDU r dst header body = .returned (dst, some e) ∧ encodePDU r [] header body = .returned ([], some e)) ∨
    (∃ frame, encodePDU r dst header body = .returned (dst ++ frame, none) ∧
      encodePDU r [] header body = .returned (frame, none)) := by
  rcases encodePDU_appended hr header body with ⟨e, -, h⟩ | ⟨frame, h⟩
  · exact .inl ⟨e, h dst, h []⟩
  · exact .inr ⟨frame, h dst, h []⟩

/-- A submit_multi to the SME "1" and to an SME with the given address. -/
def submitMultiTo (address : Octets) : SubmitMulti :=
  { serviceType := [], sourceAddrTON := 0, sourceAddrNPI := 0, sourceAddr := []
    destinations := [⟨destinationSME, 0, 0, [49]⟩, ⟨destinationSME, 0, 0, address⟩]
    esmClass := 0, protocolID := 0, priorityFlag := 0, scheduleDeliveryTime := [], validityPeriod := []
    registeredDelivery := 0, replaceIfPresentFlag := 0, dataCoding := 0, smDefaultMsgID := 0, shortMessage := []
    optional := [] }

/-- An address with a NUL is refused after the first destination was written, behind two octets of another PDU. -/
theorem encodePDU_atomic_submitMulti : ∃ e,
    encodePDU (smpp34Registry .strict) [7, 8] ⟨0, commandSubmitMulti, statusOK, 1⟩
      (.struct (.submitMulti (submitMultiTo [0]))) = .returned ([7, 8], some e) := by
  rcases encodePDU_atomic (.smpp34 .strict (newSMPP34Registry_ok _)) [7, 8] ⟨0, commandSubmitMulti, statusOK, 1⟩
    (.struct (.submitMulti (submitMultiTo [0]))) with ⟨e, h, -⟩ | ⟨frame, -, h⟩
  · exact ⟨e, h⟩
  · have hfails : encodePDU (smpp34Registry .strict) [] ⟨0, commandSubmitMulti, statusOK, 1⟩
        (.struct (.submitMulti (submitMultiTo [0]))) = .returned ([], some (.sentinel .embeddedNUL)) := by decide +kernel
    cases hfails.symm.trans h

/-! ## Failing vendor encoders -/

/-- What `encodePDU` hands to the encoder: nothing for an error response, else `dst` with the header reserved. -/
def encoderInput (header : Header) (dst : Octets) : Octets :=
  if isErrorResponse header then [] else dst ++ List.replicate headerSize 0

/-- The encoder panics, or returns an error with some slice. -/
def CommandEncoder.Fails (encoder : CommandEncoder) (dst : Octets) (body : Value) : Prop :=
  ∀ out, encoder.encode dst body ≠ .returned (out, none)

/-- The array of the slice that the encoder returns with an error still starts with `dst`, and so does its destination if it
panics. -/
def CommandEncoder.KeepsOnError (encoder : CommandEncoder) (dst input : Octets) (body : Value) : Prop :=
  match encoder.encode input body with
  | .returned (out, _) => dst <+: out.data ++ out.spare
  | .panicked written _ => dst <+: written

theorem truncated_eq_returned (out : Slice) (dst : Octets) (err e : Err) :
    truncated out dst.length err = .returned (dst, some e) ↔ err = e ∧ dst <+: out.data ++ out.spare := by
  unfold truncated Slice.upTo
  rw [← List.length_append]
  generalize out.data ++ out.spare = array
  constructor
  · intro h
    split at h
    · next dst' hd =>
      simp only [Outcome.returned.injEq, Prod.mk.injEq, Option.some.injEq] at h
      obtain ⟨rfl, rfl⟩ := h
      split at hd
      · simp only [Outcome.returned.injEq] at hd
        exact ⟨rfl, List.prefix_iff_eq_take.mpr hd.symm⟩
      · cases hd
    · cases h
  · rintro ⟨rfl, hpre⟩
    rw [if_pos hpre.length_le, ← List.prefix_iff_eq_take.mp hpre]

theorem encodeBody_fails {encoder : CommandEncoder} {input : Octets} {body : Value} (hfail : encoder.Fails input body) :
    ∃ out err, encodeBody encoder input body = (out, some err) ∧
      ∀ dst, encoder.KeepsOnError dst input body ↔ dst <+: out.data ++ out.spare := by
  unfold encodeBody CommandEncoder.KeepsOnError
  cases h : encoder.encode input body with
  | panicked written v => exact ⟨_, _, rfl, fun dst => by rw [List.append_nil]⟩
  | returned result =>
    obtain ⟨out, err⟩ := result
    cases err with
    | none => exact absurd h (hfail out)
    | some err => exact ⟨out, err, rfl, fun dst => Iff.rfl⟩

/-- **A failing vendor encoder.** `encodePDU` returns an error and the contents of `dst` exactly when the PDU is an error
response, whose encoder works on another slice, or the slice that the encoder returns with its error, or its destination if
it panics, has kept `dst`: a shorter slice, nil among them, makes `dst[:start]` panic, and another one shows other octets. -/
theorem encodePDU_failing_encoder {r : Registry} {header : Header} {d : CommandDefinition} {encoder : CommandEncoder}
    (hd : r.command header.commandID = some d) (he : d.encode = some encoder) (dst : Octets) (body : Value)
    (hfail : encoder.Fails (encoderInput header dst) body) :
    (∃ e, encodePDU r dst header body = .returned (dst, some e)) ↔
      isErrorResponse header = true ∨ encoder.KeepsOnError dst (encoderInput header dst) body := by
  have hres := Registry.resolveCommand_some hd
  obtain ⟨id, name, decode, enc, actor, states⟩ := d
  cases he
  obtain ⟨out, err, hbody, hkeeps⟩ := encodeBody_fails hfail
  unfold encodePDU
  rw [hkeeps]
  simp only [hres]
  unfold encoderInput at hbody
  cases hr : isErrorResponse header with
  | true =>
    simp only [hr, if_true] at hbody
    change (isResponse header.commandID && !CommandStatus.ok header.commandStatus) = true at hr
    simp only [hr, if_true, appendErrorResponseBody, hbody, true_or, iff_true]
    exact ⟨err, (truncated_eq_returned _ _ _ _).mpr ⟨rfl, by simp⟩⟩
  | false =>
    simp only [hr, Bool.false_eq_true, if_false] at hbody
    change (isResponse header.commandID && !CommandStatus.ok header.commandStatus) = false at hr
    simp only [hr, Bool.false_eq_true, if_false, hbody, false_or, truncated_eq_returned]
    exact ⟨fun ⟨_, _, hpre⟩ => hpre, fun hpre => ⟨err, rfl, hpre⟩⟩

/-- A vendor encoder that refuses every body and returns the given slice, nil for instance. -/
def refusingEncoder (out : Octets → Slice) : CommandEncoder where
  encode dst _ := .returned (out dst, some (.custom "refused"))
  appends _ _ _ h := by cases h
  writes _ _ _ _ h := by cases h

/-- A vendor encoder that overwrites the first octet of its destination and panics. -/
def scribblingEncoder : CommandEncoder where
  encode dst _ := .panicked (dst.set 0 0xFF) (.value "")
  appends _ _ _ h := by cases h
  writes dst _ _ _ h := by cases h; exact List.length_set

def vendorRegistry (encoder : CommandEncoder) : Registry where
  mode := .compatible
  commands := [{ id := 0x00010200, name := "vendor", encode := some encoder }]
  nodup := List.nodup_singleton _

/-- An encoder that returns its destination with the error keeps `dst`. -/
theorem encodePDU_failing_encoder_keeps : ∃ e,
    encodePDU (vendorRegistry (refusingEncoder (⟨·, []⟩))) [7, 8] ⟨0, 0x00010200, statusOK, 1⟩ .nil =
      .returned ([7, 8], some e) := by
  refine (encodePDU_failing_encoder rfl rfl [7, 8] .nil ?_).mpr (.inr ?_)
  · intro out h
    cases h
  · exact ⟨List.replicate headerSize 0, by rw [List.append_nil]; rfl⟩

/-- An encoder that returns nil with its error crashes `encodePDU`, one that returns another slice has its octets returned,
and one that panics what it has written to `dst`. -/
theorem encodePDU_nil_slice_panics :
    encodePDU (vendorRegistry (refusingEncoder fun _ => ⟨[], []⟩)) [7, 8] ⟨0, 0x00010200, statusOK, 1⟩ .nil =
      .panicked (.value "slice bounds out of range") ∧
    encodePDU (vendorRegistry (refusingEncoder fun _ => ⟨[1, 2, 3], []⟩)) [7, 8] ⟨0, 0x00010200, statusOK, 1⟩ .nil =
      .returned ([1, 2], some (.custom "refused")) ∧
    encodePDU (vendorRegistry scribblingEncoder) [7, 8] ⟨0, 0x00010200, statusOK, 1⟩ .nil =
      .returned ([0xFF, 8], some (panicError "codec.CommandEncoder" (.value ""))) := by
  decide +kernel

end GoSmpp.Codec
