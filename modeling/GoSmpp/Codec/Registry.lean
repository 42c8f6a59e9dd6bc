import GoSmpp.Codec.Smpp34Extra
import GoSmpp.Codec.Smpp50
import GoSmpp.Codec.SubmitMulti

/-!
# Package `codec`: the command registry

* `CommandDecoder`, `CommandEncoder`, `CommandDefinition` : what a registry holds. Vendor decoders and encoders are
  arbitrary and may panic; a `CommandEncoder` that returns without an error has appended to its destination, the
  contract of the Go type;
* `RegistryBuilder`, `registerCommand`, `freeze`, `Registry`, `resolveCommand` : `codec/registry.go`;
* `smpp34Commands`, `smpp50Commands` : the tables of `registerSMPP34Commands` and `registerSMPP50Commands`;
* `Registry.IsStandard`, `Registry.IsExtended` : the registries these builders freeze to, without and with vendor
  commands.
-/

namespace GoSmpp.Codec
open Lib Protocol

/-- `%08x` with the leading `0x` of the error texts. -/
def hex32 (n : UInt32) : String := "0x" ++ String.ofList ((Nat.toDigits 16 n.toNat).leftpad 8 '0')

def hex8 (n : UInt8) : String := "0x" ++ String.ofList ((Nat.toDigits 16 n.toNat).leftpad 2 '0')

/-- `codec.RegistryMode`. An invalid mode, which `Freeze` refuses, is not represented. -/
inductive RegistryMode where
  | compatible
  | strict
  deriving DecidableEq, Repr

/-! ## Command definitions -/

abbrev CommandDecoder := Header → Octets → Outcome (Except Err Value)

/-- A Go slice: its elements, and those between its length and its capacity. -/
structure Slice where
  data : Octets
  spare : Octets := []
  deriving DecidableEq, Repr

/-- How the call of an encoder ends: with a slice and an error, or with a panic, which leaves what it has written in `dst`. -/
inductive EncoderOutcome where
  | returned (result : Slice × Option Err)
  | panicked (written : Octets) (v : PanicValue)

/-- `codec.CommandEncoder`. -/
structure CommandEncoder where
  encode : Octets → Value → EncoderOutcome
  appends : ∀ dst value out, encode dst value = .returned (out, none) → dst <+: out.data
  -- the caller's slice keeps its length
  writes : ∀ dst value written v, encode dst value = .panicked written v → written.length = dst.length

/-- A decoder of the library, which does not panic. -/
def CommandDecoder.ofLib (decode : Header → Octets → Except Err Value) : CommandDecoder :=
  fun header body => .returned (decode header body)

/-- An encoder of the library, which does not panic. -/
def CommandEncoder.ofLib (encode : Value → Append Unit) : CommandEncoder where
  encode dst value := .returned (⟨((encode value).appendTo dst).1, []⟩, ((encode value).appendTo dst).2)
  appends dst value out h := by
    simp only [EncoderOutcome.returned.injEq, Prod.mk.injEq] at h
    rw [← h.1, Appender.appendTo_fst]
    exact List.prefix_append _ _
  writes _ _ _ _ h := by cases h

inductive CommandActor where
  | any
  | esme
  | smsc
  deriving DecidableEq, Repr

structure CommandDefinition where
  id : CommandID
  name : String
  decode : Option CommandDecoder := none
  encode : Option CommandEncoder := none
  actor : CommandActor := .any
  allowedStates : List SessionState := []

def CommandDefinition.allowsState (d : CommandDefinition) (state : SessionState) : Bool :=
  d.allowedStates.any (· == state)

/-! ## Builders and registries -/

/-- `codec.Registry`: its command map is a list of definitions with distinct ids. -/
@[ext] structure Registry where
  mode : RegistryMode
  commands : List CommandDefinition
  nodup : (commands.map (·.id)).Nodup

@[ext] structure RegistryBuilder where
  mode : RegistryMode
  frozen : Bool
  commands : List CommandDefinition
  nodup : (commands.map (·.id)).Nodup

def newRegistryBuilder (mode : RegistryMode) : RegistryBuilder := ⟨mode, false, [], List.nodup_nil⟩

theorem nodup_append_singleton {l : List CommandDefinition} {d : CommandDefinition} (hl : (l.map (·.id)).Nodup)
    (hd : ¬ l.any (·.id == d.id) = true) : ((l ++ [d]).map (·.id)).Nodup := by
  rw [List.map_append, List.map_singleton, List.nodup_append]
  refine ⟨hl, List.nodup_singleton _, ?_⟩
  intro a ha b hb hab
  obtain ⟨e, he, rfl⟩ := List.mem_map.mp ha
  exact hd (List.any_eq_true.mpr ⟨e, he, by simpa [hab] using hb⟩)

/-- `RegistryBuilder.RegisterCommand`: the builder afterwards. -/
def registerCommand (b : RegistryBuilder) (d : CommandDefinition) : Except Err RegistryBuilder :=
  if d.name = "" then
    .error (.wrapped ("command " ++ hex32 d.id ++ " has empty name") (.sentinel .invalidRegistryDefinition))
  else if b.frozen then .error (.sentinel .registryFrozen)
  else if h : b.commands.any (·.id == d.id) = true then .error (.wrapped (hex32 d.id) (.sentinel .duplicateCommand))
  else .ok { b with commands := b.commands ++ [d], nodup := nodup_append_singleton b.nodup h }

/-- `RegistryBuilder.Freeze`: the frozen builder and its snapshot. A frozen builder does not change any more, so a
repeated call returns the same snapshot. -/
def freeze (b : RegistryBuilder) : RegistryBuilder × Registry :=
  ({ b with frozen := true }, ⟨b.mode, b.commands, b.nodup⟩)

def Registry.command (r : Registry) (id : CommandID) : Option CommandDefinition := r.commands.find? (·.id == id)

/-- `Registry.ResolveCommand`, `none` where the source returns `known = false` without an error. -/
def Registry.resolveCommand (r : Registry) (id : CommandID) : Except Err (Option CommandDefinition) :=
  match r.command id with
  | some d => .ok (some d)
  | none => if r.mode = .strict then .error (.wrapped (hex32 id) (.sentinel .unknownCommand)) else .ok none

theorem Registry.resolveCommand_some {r : Registry} {id : CommandID} {d : CommandDefinition} (h : r.command id = some d) :
    r.resolveCommand id = .ok (some d) := by
  rw [resolveCommand, h]

/-! ## The standard commands -/

/-- A definition whose decoder and encoder are the library's. -/
def libCommand (id : CommandID) (name : String) (decode : Header → Octets → Except Err Value)
    (encode : Value → Append Unit) : CommandDefinition :=
  { id, name, decode := some (.ofLib decode), encode := some (.ofLib encode) }

/-- The table of `registerSMPP34Commands`. -/
def smpp34Commands : List CommandDefinition :=
  [ libCommand commandGenericNACK "generic_nack" decodeResponseEmpty encodeResponseEmpty,
    libCommand commandBindReceiver "bind_receiver" decodeBindRequest encodeBindRequest,
    libCommand commandBindReceiverResp "bind_receiver_resp" decodeBindResponse encodeBindResponse,
    libCommand commandBindTransmitter "bind_transmitter" decodeBindRequest encodeBindRequest,
    libCommand commandBindTransmitterResp "bind_transmitter_resp" decodeBindResponse encodeBindResponse,
    libCommand commandQuerySM "query_sm" decodeQuerySM encodeQuerySM,
    libCommand commandQuerySMResp "query_sm_resp" decodeQuerySMResp encodeQuerySMResp,
    libCommand commandSubmitSM "submit_sm" decodeSubmitSM encodeSubmitSM,
    libCommand commandSubmitSMResp "submit_sm_resp" decodeSubmitSMResp encodeSubmitSMResp,
    libCommand commandDeliverSM "deliver_sm" decodeDeliverSM encodeDeliverSM,
    libCommand commandDeliverSMResp "deliver_sm_resp" decodeDeliverSMResp encodeDeliverSMResp,
    libCommand commandUnbind "unbind" decodeRequestEmpty encodeEmpty,
    libCommand commandUnbindResp "unbind_resp" decodeResponseEmpty encodeResponseEmpty,
    libCommand commandReplaceSM "replace_sm" decodeReplaceSM encodeReplaceSM,
    libCommand commandReplaceSMResp "replace_sm_resp" decodeResponseEmpty encodeResponseEmpty,
    libCommand commandCancelSM "cancel_sm" decodeCancelSM encodeCancelSM,
    libCommand commandCancelSMResp "cancel_sm_resp" decodeResponseEmpty encodeResponseEmpty,
    libCommand commandBindTransceiver "bind_transceiver" decodeBindRequest encodeBindRequest,
    libCommand commandBindTransceiverResp "bind_transceiver_resp" decodeBindResponse encodeBindResponse,
    libCommand commandOutbind "outbind" decodeOutbind encodeOutbind,
    libCommand commandEnquireLink "enquire_link" decodeRequestEmpty encodeEmpty,
    libCommand commandEnquireLinkResp "enquire_link_resp" decodeResponseEmpty encodeResponseEmpty,
    libCommand commandSubmitMulti "submit_multi" decodeSubmitMulti encodeSubmitMulti,
    libCommand commandSubmitMultiResp "submit_multi_resp" decodeSubmitMultiResp encodeSubmitMultiResp,
    libCommand commandAlertNotification "alert_notification" decodeAlertNotification encodeAlertNotification,
    libCommand commandDataSM "data_sm" decodeDataSM encodeDataSM,
    libCommand commandDataSMResp "data_sm_resp" decodeDataSMResp encodeDataSMResp ]

/-- The table of `registerSMPP50Commands`. -/
def smpp50Commands : List CommandDefinition :=
  [ libCommand commandBroadcastSM "broadcast_sm" decodeBroadcastSM encodeBroadcastSM,
    libCommand commandBroadcastSMResp "broadcast_sm_resp" decodeBroadcastSMResp encodeBroadcastSMResp,
    libCommand commandQueryBroadcastSM "query_broadcast_sm" decodeQueryBroadcastSM encodeQueryBroadcastSM,
    libCommand commandQueryBroadcastSMResp "query_broadcast_sm_resp" decodeQueryBroadcastSMResp
      encodeQueryBroadcastSMResp,
    libCommand commandCancelBroadcastSM "cancel_broadcast_sm" decodeCancelBroadcastSM encodeCancelBroadcastSM,
    libCommand commandCancelBroadcastSMResp "cancel_broadcast_sm_resp" decodeResponseEmpty encodeResponseEmpty ]

def newSMPP34RegistryBuilder (mode : RegistryMode) : Except Err RegistryBuilder :=
  smpp34Commands.foldlM registerCommand (newRegistryBuilder mode)

def newSMPP50RegistryBuilder (mode : RegistryMode) : Except Err RegistryBuilder := do
  let b ← newSMPP34RegistryBuilder mode
  smpp50Commands.foldlM registerCommand b

def newSMPP34Registry (mode : RegistryMode) : Except Err Registry := do
  let b ← newSMPP34RegistryBuilder mode
  return (freeze b).2

def newSMPP50Registry (mode : RegistryMode) : Except Err Registry := do
  let b ← newSMPP50RegistryBuilder mode
  return (freeze b).2

/-! ## What the builders build -/

theorem registerCommand_ok {b b' : RegistryBuilder} {d : CommandDefinition} :
    registerCommand b d = .ok b' ↔
      (d.name ≠ "" ∧ b.frozen = false ∧ b.commands.any (·.id == d.id) = false) ∧
        b'.mode = b.mode ∧ b'.frozen = b.frozen ∧ b'.commands = b.commands ++ [d] := by
  unfold registerCommand
  split
  · next h => simp [h]
  · next hn =>
    split
    · next hf => simp [hf]
    · next hf =>
      split
      · next h => simp [h]
      · next h =>
        rw [Except.ok.injEq, RegistryBuilder.ext_iff]
        simp only [Bool.not_eq_true] at hf h
        simp only [ne_eq, hn, not_false_eq_true, hf, h, and_self, true_and, eq_comm]

theorem any_id_eq_false {l : List CommandDefinition} {d : CommandDefinition} (h : d.id ∉ l.map (·.id)) :
    l.any (·.id == d.id) = false := by
  rw [List.any_eq_false]
  intro e he hid
  exact h (List.mem_map.mpr ⟨e, he, by simpa using hid⟩)

theorem foldlM_registerCommand (l : List CommandDefinition) (b : RegistryBuilder) (hf : b.frozen = false)
    (hn : ∀ d ∈ l, d.name ≠ "") (hd : ((b.commands ++ l).map (·.id)).Nodup) :
    ∃ b', l.foldlM registerCommand b = .ok b' ∧ b'.mode = b.mode ∧ b'.frozen = false ∧
      b'.commands = b.commands ++ l := by
  induction l generalizing b with
  | nil => exact ⟨b, rfl, rfl, hf, (List.append_nil _).symm⟩
  | cons d l ih =>
    rw [← List.singleton_append, ← List.append_assoc] at hd
    have hnew : d.id ∉ b.commands.map (·.id) := by
      rw [List.map_append, List.map_append, List.append_assoc] at hd
      intro hmem
      exact (List.nodup_append.mp hd).2.2 _ hmem _ (by simp) rfl
    obtain ⟨b', hb'⟩ : ∃ b', registerCommand b d = .ok b' := by
      refine ⟨⟨b.mode, b.frozen, b.commands ++ [d], ?_⟩, registerCommand_ok.mpr
        ⟨⟨hn d List.mem_cons_self, hf, any_id_eq_false hnew⟩, rfl, rfl, rfl⟩⟩
      rw [List.map_append] at hd
      exact (List.nodup_append.mp hd).1
    obtain ⟨-, hmode, hfrozen, hcommands⟩ := registerCommand_ok.mp hb'
    obtain ⟨b'', h, h1, h2, h3⟩ := ih b' (hfrozen.trans hf) (fun e he => hn e (List.mem_cons_of_mem _ he))
      (by rw [hcommands]; exact hd)
    refine ⟨b'', ?_, h1.trans hmode, h2, by rw [h3, hcommands, List.append_assoc, List.singleton_append]⟩
    rw [List.foldlM_cons, hb']
    exact h

theorem smpp34Commands_nodup : (smpp34Commands.map (·.id)).Nodup := by decide

theorem smpp50Commands_nodup : ((smpp34Commands ++ smpp50Commands).map (·.id)).Nodup := by decide

theorem newSMPP34RegistryBuilder_ok (mode : RegistryMode) :
    newSMPP34RegistryBuilder mode = .ok ⟨mode, false, smpp34Commands, smpp34Commands_nodup⟩ := by
  obtain ⟨b, hb, hm, hf, hc⟩ := foldlM_registerCommand smpp34Commands (newRegistryBuilder mode) rfl
    (by simp [smpp34Commands, libCommand]) smpp34Commands_nodup
  rw [newSMPP34RegistryBuilder, hb]
  exact congrArg _ (RegistryBuilder.ext hm hf hc)

theorem newSMPP50RegistryBuilder_ok (mode : RegistryMode) :
    newSMPP50RegistryBuilder mode =
      .ok ⟨mode, false, smpp34Commands ++ smpp50Commands, smpp50Commands_nodup⟩ := by
  obtain ⟨b, hb, hm, hf, hc⟩ := foldlM_registerCommand smpp50Commands
    ⟨mode, false, smpp34Commands, smpp34Commands_nodup⟩ rfl (by simp [smpp50Commands, libCommand])
    smpp50Commands_nodup
  rw [newSMPP50RegistryBuilder, newSMPP34RegistryBuilder_ok]
  exact hb.trans (congrArg _ (RegistryBuilder.ext hm hf hc))

def smpp34Registry (mode : RegistryMode) : Registry := ⟨mode, smpp34Commands, smpp34Commands_nodup⟩

def smpp50Registry (mode : RegistryMode) : Registry := ⟨mode, smpp34Commands ++ smpp50Commands, smpp50Commands_nodup⟩

theorem newSMPP34Registry_ok (mode : RegistryMode) : newSMPP34Registry mode = .ok (smpp34Registry mode) := by
  rw [newSMPP34Registry, newSMPP34RegistryBuilder_ok]
  rfl

theorem newSMPP50Registry_ok (mode : RegistryMode) : newSMPP50Registry mode = .ok (smpp50Registry mode) := by
  rw [newSMPP50Registry, newSMPP50RegistryBuilder_ok]
  rfl

inductive Registry.IsStandard : Registry → Prop where
  | smpp34 {r : Registry} (mode : RegistryMode) (h : newSMPP34Registry mode = .ok r) : r.IsStandard
  | smpp50 {r : Registry} (mode : RegistryMode) (h : newSMPP50Registry mode = .ok r) : r.IsStandard

theorem Registry.IsStandard.commands {r : Registry} (h : r.IsStandard) :
    r.commands = smpp34Commands ∨ r.commands = smpp34Commands ++ smpp50Commands := by
  cases h with
  | smpp34 mode h =>
    rw [newSMPP34Registry_ok] at h
    cases h
    exact .inl rfl
  | smpp50 mode h =>
    rw [newSMPP50Registry_ok] at h
    cases h
    exact .inr rfl

/-! ## Vendor commands -/

/-- `b'` comes from `b` by registering commands. -/
inductive Extends (b : RegistryBuilder) : RegistryBuilder → Prop where
  | refl : Extends b b
  | register {b' b'' : RegistryBuilder} (d : CommandDefinition) (h : Extends b b')
      (hd : registerCommand b' d = .ok b'') : Extends b b''

theorem Extends.commands {b b' : RegistryBuilder} (h : Extends b b') :
    b'.mode = b.mode ∧ ∃ vendor, b'.commands = b.commands ++ vendor := by
  induction h with
  | refl => exact ⟨rfl, [], (List.append_nil _).symm⟩
  | register d _ hd ih =>
    obtain ⟨-, hmode, -, hcommands⟩ := registerCommand_ok.mp hd
    obtain ⟨hm, vendor, hv⟩ := ih
    exact ⟨hmode.trans hm, vendor ++ [d], by rw [hcommands, hv, List.append_assoc]⟩

/-- The registries of either standard builder with any vendor commands registered on it. -/
inductive Registry.IsExtended (mode : RegistryMode) : Registry → Prop where
  | smpp34 {b b' : RegistryBuilder} (h : newSMPP34RegistryBuilder mode = .ok b) (hb : Extends b b') :
      IsExtended mode (freeze b').2
  | smpp50 {b b' : RegistryBuilder} (h : newSMPP50RegistryBuilder mode = .ok b) (hb : Extends b b') :
      IsExtended mode (freeze b').2

theorem Registry.IsExtended.commands {mode : RegistryMode} {r : Registry} (h : r.IsExtended mode) :
    r.mode = mode ∧ ∃ more, r.commands = smpp34Commands ++ more := by
  cases h with
  | smpp34 h hb =>
    rw [newSMPP34RegistryBuilder_ok] at h
    cases h
    exact hb.commands
  | smpp50 h hb =>
    rw [newSMPP50RegistryBuilder_ok] at h
    cases h
    obtain ⟨hm, vendor, hv⟩ := hb.commands
    exact ⟨hm, smpp50Commands ++ vendor, by rw [← List.append_assoc]; exact hv⟩

theorem Registry.IsExtended.command {mode : RegistryMode} {r : Registry} (h : r.IsExtended mode) {id : CommandID}
    {d : CommandDefinition} (hd : smpp34Commands.find? (·.id == id) = some d) : r.command id = some d := by
  obtain ⟨-, more, hc⟩ := h.commands
  unfold Registry.command
  rw [hc, List.find?_append, hd]
  rfl

theorem Registry.command_of_mem {r : Registry} {d : CommandDefinition} (h : d ∈ r.commands) :
    r.command d.id = some d := by
  unfold Registry.command
  have hnd := r.nodup
  generalize r.commands = l at h hnd
  induction l with
  | nil => cases h
  | cons e l ih =>
    rw [List.map_cons, List.nodup_cons] at hnd
    rcases List.mem_cons.mp h with rfl | h
    · simp
    · have hne : ¬ (e.id == d.id) = true := by
        intro he
        exact hnd.1 (List.mem_map.mpr ⟨d, h, (beq_iff_eq.mp he).symm⟩)
      simp only [List.find?_cons, hne]
      exact ih h hnd.2

theorem Registry.mem_of_command {r : Registry} {id : CommandID} {d : CommandDefinition} (h : r.command id = some d) :
    d ∈ r.commands ∧ d.id = id :=
  ⟨List.mem_of_find?_eq_some h, by simpa using List.find?_some h⟩

end GoSmpp.Codec
