import GoSmpp.Codec.RoundTrip
import GoSmpp.Session.Agreement

/-!
# Two sessions agree on the version

The SMSC computes the negotiated version from its profile and the version in the bind, when its handler has accepted it; the
ESME from the version it sent and the first one-octet `sc_interface_version` of the response. The SMSC adds its own version
to a response that has no such parameter, and leaves the handler's in place.

* `bindRequest_travels`, `bindResponse_travels`: what the peer decodes is what was encoded.
* `BindExchange`: one bind, from `Request` at the ESME to the capabilities both sessions have stored.
* `BindExchange.agree_iff`: they agree if and only if the handler's own parameter, where there is one, is
  `Compatible` with what the SMSC has stored.
-/

namespace GoSmpp.Session
open Lib Protocol Codec

/-! ## Binds and their responses on the connection -/

section Travel
variable {mode : RegistryMode} {r : Registry} {command : CommandID} {header : Header} {body : Value} {frame : Octets}
  {pdu : DecodedPDU}

theorem command_bind (hr : r.IsExtended mode) (hb : isBindRequest command) :
    (∃ d, r.command command = some d ∧ d.Implements (.request bindRequestFormat)) ∧
    ∃ d, r.command (responseID command) = some d ∧ d.Implements (.response bindResponseFormat) := by
  simp only [isBindRequest, Bool.or_eq_true, beq_iff_eq] at hb
  rcases hb with (rfl | rfl) | rfl
  · exact ⟨⟨_, hr.command rfl, {}⟩, ⟨_, hr.command rfl, {}⟩⟩
  · exact ⟨⟨_, hr.command rfl, {}⟩, ⟨_, hr.command rfl, {}⟩⟩
  · exact ⟨⟨_, hr.command rfl, {}⟩, ⟨_, hr.command rfl, {}⟩⟩

theorem decodePDU_written {d : CommandDefinition} {f : CommandFormat} {bs : Octets}
    (hc : r.command header.commandID = some d) (hf : d.Implements f) (h : decodePDU r (frameOf header bs) = .ok pdu) :
    pdu.header = withLength header bs ∧ f.decode pdu.header bs = .ok pdu.body := by
  obtain ⟨bs', hframe, -, hbody⟩ := (decodePDU_ok ..).mp h
  obtain ⟨hh, rfl⟩ := Header.wire_append_inj hframe
  have hh : pdu.header = withLength header bs := hh.symm
  have hc : r.command pdu.header.commandID = some d := by rw [hh]; exact hc
  exact ⟨hh, (decodeBodyBytes_eq _ hc hf bs).symm.trans hbody⟩

theorem bindRequest_travels {mode' : RegistryMode} {r' : Registry} {bind : BindRequest} (hr : r.IsExtended mode)
    (hr' : r'.IsExtended mode') (hb : isBindRequest header.commandID) (hs : header.commandStatus = statusOK)
    (hbody : Holds body (.bindRequest bind)) (he : encodeFrame r header body = .ok frame)
    (hd : decodePDU r' frame = .ok pdu) :
    pdu.header.commandID = header.commandID ∧ pdu.body = .struct (.bindRequest bind) := by
  obtain ⟨⟨d, hc, hf⟩, -⟩ := command_bind hr hb
  obtain ⟨⟨d', hc', hf'⟩, -⟩ := command_bind hr' hb
  obtain ⟨bs, hw, -, rfl⟩ := (encodePDU_lib hc hf.encode [] body frame).mp (encodeFrame_ok he)
  obtain ⟨hh, hbs⟩ := decodePDU_written hc' hf' hd
  have hsame := CommandFormat.decode_of_appends (.request bindRequestFormat) pdu.header (by rw [hh]; exact hs) hbody
    (.inl rfl) trivial ((written_ok hs).mp hw)
  refine ⟨by rw [hh]; rfl, ?_⟩
  exact Except.ok.inj (hbs.symm.trans hsame)

theorem bindResponse_travels {mode' : RegistryMode} {r' : Registry} {response : BindResponse} (hr : r.IsExtended mode)
    (hr' : r'.IsExtended mode') (hb : isBindRequest command) (hid : header.commandID = responseID command)
    (hs : header.commandStatus = statusOK) (hbody : Holds body (.bindResponse response))
    (he : encodeFrame r header body = .ok frame) (hd : decodePDU r' frame = .ok pdu) :
    pdu.body = .struct (.bindResponse response) ∧ BindResponse.Canonical response := by
  obtain ⟨-, d, hc, hf⟩ := command_bind hr hb
  obtain ⟨-, d', hc', hf'⟩ := command_bind hr' hb
  rw [← hid] at hc hc'
  obtain ⟨bs, hw, -, rfl⟩ := (encodePDU_lib hc hf.encode [] body frame).mp (encodeFrame_ok he)
  obtain ⟨hh, hbs⟩ := decodePDU_written hc' hf' hd
  have hs' : pdu.header.commandStatus = statusOK := by rw [hh]; exact hs
  rcases (encodeResponse_appends bindResponseSpec _ _).mp ((written_ok hs).mp hw) with ⟨hempty, -⟩ | ⟨v, hv, henc, rfl⟩ |
    ⟨ps, hps, -⟩
  · exact absurd (hbody.eq_emptyBody hempty) nofun
  · cases hbody.inj hv
    rcases (decodeResponse_ok bindResponseSpec _ _ _ _).mp hbs with ⟨-, v, hwire, ⟨henc', hcanon⟩, hvalue⟩ | ⟨hne, -⟩
    · cases BindResponse.wire_inj henc henc' hwire
      exact ⟨hvalue, hcanon⟩
    · exact absurd hs' hne
  · cases hbody.inj hps

end Travel

/-! ## What the two sides compute -/

/-- The handler's own `sc_interface_version` says what the SMSC has computed from its profile and the version of the bind:
there is none, or the bind's version is not a modern one, or the SMSC falls back on 3.4 as the ESME does, or both are 5.0. -/
def Compatible (profile : Profile) (version : InterfaceVersion) (own : Option InterfaceVersion) : Prop :=
  own = none ∨ (version ≠ interfaceVersion34 ∧ version ≠ interfaceVersion50) ∨
  (version = interfaceVersion34 ∧ (own = some interfaceVersion34 ∨ own = some interfaceVersion50)) ∨
  (version = interfaceVersion50 ∧ own = some profile.interfaceVersion)

/-- The same negotiated version, and the same support of SMPP 5.0. -/
def SameCapabilities (a b : PeerCapabilities) : Prop :=
  a.negotiatedVersion = b.negotiatedVersion ∧ a.supportsSMPP50 = b.supportsSMPP50

/-- The first `sc_interface_version` in the response that the SMSC sends. -/
def advertised (smsc : Profile) (version : InterfaceVersion) (own : Option InterfaceVersion) : Option InterfaceVersion :=
  if version = interfaceVersion34 ∨ version = interfaceVersion50 then own.or (some smsc.interfaceVersion) else own

theorem scInterfaceVersion_appendIfMissing {r : BindResponse} (hc : BindResponse.Canonical r) (version : InterfaceVersion) :
    scInterfaceVersion (appendIfMissing version r).optional = (scInterfaceVersion r.optional).or (some version) := by
  unfold appendIfMissing scInterfaceVersion
  split
  · next h =>
    obtain ⟨p, hp, htag⟩ := List.any_eq_true.mp h
    have hlen : p.value.length = 1 := by simpa [scInterfaceVersionOK, beq_iff_eq.mp htag] using hc p hp
    cases hfind : r.optional.find? fun p => p.tag == tlvTagSCInterfaceVersion && p.value.length == 1 with
    | none => simpa [htag, hlen] using List.find?_eq_none.mp hfind p hp
    | some q =>
      have hq := List.find?_some hfind
      simp only [Bool.and_eq_true, beq_iff_eq] at hq
      obtain ⟨w, hw⟩ := List.length_eq_one_iff.mp hq.2
      simp [hw]
  · next h =>
    have hnone : r.optional.find? (fun p => p.tag == tlvTagSCInterfaceVersion && p.value.length == 1) = none := by
      refine List.find?_eq_none.mpr fun p hp hboth => h (List.any_eq_true.mpr ⟨p, hp, ?_⟩)
      exact (Bool.and_eq_true_iff.mp hboth).1
    simp [hnone]

theorem Profile.version_of_valid {profile : Profile} (h : profile.valid) :
    profile.interfaceVersion = interfaceVersion34 ∨ profile.interfaceVersion = interfaceVersion50 := by
  simpa [Profile.valid] using h

theorem canonical_of_appendIfMissing {r : BindResponse} {version : InterfaceVersion}
    (h : BindResponse.Canonical (appendIfMissing version r)) : BindResponse.Canonical r := by
  unfold appendIfMissing at h
  split at h
  · exact h
  · exact fun p hp => h p (List.mem_append_left _ hp)

theorem negotiatedVersion_eq {profile : Profile} (h : profile.valid) (peer : InterfaceVersion) :
    (negotiatePeerCapabilities profile peer true).negotiatedVersion =
      if peer = interfaceVersion34 then interfaceVersion34
      else if peer = interfaceVersion50 then profile.interfaceVersion else 0 := by
  unfold negotiatePeerCapabilities
  rw [if_neg (by rw [h]; decide)]
  by_cases h34 : peer = interfaceVersion34
  · rw [if_pos h34, if_pos h34]
  · rw [if_neg h34, if_neg h34]
    by_cases h50 : peer = interfaceVersion50
    · rw [if_pos h50, if_pos h50]
      split
      · next hp => exact hp.symm
      · next hp => exact ((Profile.version_of_valid h).resolve_right hp).symm
    · rw [if_neg h50, if_neg h50]

theorem supportsSMPP50_eq (profile : Profile) (peer : InterfaceVersion) (advertised : Bool) :
    (negotiatePeerCapabilities profile peer advertised).supportsSMPP50 =
      ((negotiatePeerCapabilities profile peer advertised).negotiatedVersion == interfaceVersion50) := by
  unfold negotiatePeerCapabilities
  split
  · rfl
  · split
    · rfl
    · split
      · split <;> rfl
      · rfl

theorem negotiated34_iff (peer : InterfaceVersion) :
    (negotiatePeerCapabilities smpp34Profile peer true).negotiatedVersion = interfaceVersion34 ↔
      peer = interfaceVersion34 ∨ peer = interfaceVersion50 := by
  rw [negotiatedVersion_eq rfl]
  split
  · next h => simp [h]
  · next h => simp [h, show (0 : InterfaceVersion) ≠ interfaceVersion34 from by decide, smpp34Profile]

theorem negotiated50_iff {profile : Profile} (h : profile.valid) (peer : InterfaceVersion) :
    (negotiatePeerCapabilities smpp50Profile peer true).negotiatedVersion = profile.interfaceVersion ↔
      peer = profile.interfaceVersion := by
  rw [negotiatedVersion_eq rfl]
  split
  · next h34 => rw [h34]
  · next h34 =>
    split
    · next h50 => rw [h50]; rfl
    · next h50 =>
      rcases Profile.version_of_valid h with h | h <;> rw [h]
      · exact ⟨fun hz => absurd hz (by decide), fun hp => absurd hp h34⟩
      · exact ⟨fun hz => absurd hz (by decide), fun hp => absurd hp h50⟩

theorem negotiate_agree_iff {esme smsc : Profile} {version : InterfaceVersion} (own : Option InterfaceVersion)
    (hs : smsc.valid) (he : version = interfaceVersion50 → esme.isSMPP50) :
    SameCapabilities
      (negotiatePeerCapabilities (bindNegotiationProfile esme version) ((advertised smsc version own).getD 0)
        (advertised smsc version own).isSome)
      (negotiatePeerCapabilities smsc version true) ↔ Compatible smsc version own := by
  have hne : interfaceVersion50 ≠ interfaceVersion34 := by decide
  have hsame (a b : PeerCapabilities) (ha : a.supportsSMPP50 = (a.negotiatedVersion == interfaceVersion50))
      (hb : b.supportsSMPP50 = (b.negotiatedVersion == interfaceVersion50)) :
      SameCapabilities a b ↔ a.negotiatedVersion = b.negotiatedVersion :=
    ⟨fun h => h.1, fun h => ⟨h, by rw [ha, hb, h]⟩⟩
  rw [hsame _ _ (supportsSMPP50_eq ..) (supportsSMPP50_eq ..), negotiatedVersion_eq hs]
  by_cases h34 : version = interfaceVersion34
  · subst h34
    rw [if_pos rfl, show bindNegotiationProfile esme interfaceVersion34 = smpp34Profile from rfl]
    cases own with
    | none => exact iff_of_true ((negotiated34_iff _).mpr (Profile.version_of_valid hs)) (.inl rfl)
    | some own =>
      refine (negotiated34_iff own).trans ?_
      simp [Compatible, hne.symm]
  · by_cases h50 : version = interfaceVersion50
    · subst h50
      have hprofile : bindNegotiationProfile esme interfaceVersion50 = smpp50Profile :=
        (if_neg hne).trans (if_pos ⟨rfl, he rfl⟩)
      rw [if_neg hne, if_pos rfl, hprofile]
      cases own with
      | none => exact iff_of_true ((negotiated50_iff hs _).mpr rfl) (.inl rfl)
      | some own =>
        refine (negotiated50_iff hs own).trans ?_
        simp [Compatible, hne]
    · have hprofile : bindNegotiationProfile esme version = ⟨0⟩ :=
        (if_neg h34).trans (if_neg fun h => h50 h.1)
      rw [hprofile, if_neg h34, if_neg h50]
      exact iff_of_true rfl (.inr (.inl ⟨h34, h50⟩))

/-! ## The capabilities of a session -/

section Caps
variable {s s' : Session} {label : Label}

/-- The step neither accepts a bind of the peer nor completes one of the session's own. -/
def keepsCaps (s : Session) : Label → Bool
  | .rx (.handled _) =>
    match s.rx with
    | .handling pdu => !isBindRequest pdu.header.commandID
    | _ => true
  | .task o =>
    match s.ledger.nextTask o with
    | some (t, l) => !(l.calls[t.call]?.any fun k => isBindRequest k.command)
    | none => true
  | _ => true

theorem acceptBind_caps {pdu : DecodedPDU} {response : Response}
    (h : (CommandStatus.ok response.status && isBindRequest pdu.header.commandID) = false) :
    (s.acceptBind pdu response).1.peerCaps = s.peerCaps := by
  unfold acceptBind
  split
  · rw [h]; rfl
  · rfl

theorem dispatchResponse_caps {pdu : DecodedPDU} {response : Response}
    (h : (CommandStatus.ok response.status && isBindRequest pdu.header.commandID) = false) :
    (s.dispatchResponse pdu response).peerCaps = s.peerCaps := by
  unfold dispatchResponse
  split
  · exact acceptBind_caps h
  · split
    · rfl
    · split
      · rfl
      · unfold registerDeferredReply
        split
        · next hr =>
          split at hr
          · cases hr
          · split at hr <;> cases hr
            rfl
        · rfl
      · rfl

theorem beginRequest_caps (pdu : DecodedPDU) : (s.beginRequest pdu).peerCaps = s.peerCaps := by
  unfold beginRequest
  simp only
  split
  · rfl
  · split
    · rfl
    · split
      · next h =>
        refine dispatchResponse_caps ?_
        rcases h with h | h <;> rw [h] <;> rfl
      · split
        · refine dispatchResponse_caps ?_
          unfold noHandlerResponse
          split
          · rfl
          · next h => rw [eq_false_of_ne_true h, Bool.and_false]
        · rfl

theorem handled_caps {pdu : DecodedPDU} (outcome : Handled) (h : isBindRequest pdu.header.commandID = false) :
    (s.handled pdu outcome).peerCaps = s.peerCaps := by
  unfold handled
  split
  · rfl
  · split <;> exact dispatchResponse_caps (by rw [h, Bool.and_false])

/-- **Only a bind changes the capabilities.** -/
theorem step_caps (hs : s.step label = some s') (h : s.keepsCaps label) : s'.peerCaps = s.peerCaps := by
  cases label with
  | request => cases hs; rfl
  | call i arm =>
    obtain ⟨k, -, -, hs⟩ := step_call hs
    rw [callStep_scope hs]
  | task o =>
    obtain ⟨t, l, k, ht, hk, hm⟩ := taskStep_move hs
    have hb : isBindRequest k.command = false := by
      simp only [keepsCaps, ht, hk] at h
      simpa using h
    have hsame (pdu : DecodedPDU) : s.negotiated k pdu = s.peerCaps := by
      unfold negotiated
      rw [hb, Bool.and_false]
      split <;> rfl
    cases hm with
    | @negotiate rest pdu => exact hsame pdu
    | close => rw [terminate_eq]
    | _ => rfl
  | sendOneWay => cases hs; rfl
  | send i arm =>
    obtain ⟨k, -, hs⟩ := step_send hs
    rw [sendStep_scope hs]
  | frame frame =>
    obtain ⟨-, -, rfl⟩ := step_frame hs
    rw [processFrame_scope]
  | rx choice =>
    cases rxStep_move hs with
    | begin => exact beginRequest_caps _
    | handle hrx =>
      refine handled_caps _ ?_
      simp only [keepsCaps, hrx] at h
      simpa using h
    | fail => rw [terminate_eq]
    | enqueue | closed | cancel | resume => rfl
  | tx choice => rw [txStep_scope hs]
  | expire call =>
    obtain ⟨item, -, hs⟩ := Option.bind_eq_some_iff.mp hs
    cases hs
    rfl
  | fire => rw [fire_scope hs]
  | terminate cause =>
    cases hs
    rw [terminate_eq]
  | term => rw [termStep_scope hs]

theorem answer_queueing {pdu : DecodedPDU} {response : Response} {item : TxItem} {next : AfterQueue}
    (h : (s.answer pdu response).rx = .queueing item next) :
    encodeFrame s.config.registry (responseHeader pdu.header (responseID pdu.header.commandID) response.status)
      (s.acceptBind pdu response).2 = .ok item.frame ∨
    ∃ bs, item.frame = frameOf (responseHeader pdu.header commandGenericNACK statusSystemError) bs := by
  have hconfig : (s.acceptBind pdu response).1.config = s.config := by rw [s.acceptBind_local pdu response]
  unfold answer at h
  simp only at h
  split at h
  · next item' hq =>
    cases h
    left
    unfold Session.queueResponse at hq
    simp only at hq
    split at hq
    · cases hq
    · next hf =>
      cases hq
      rw [← hconfig]
      exact hf
  · split at h
    · right
      unfold nack respond at h
      split at h
      · next hq =>
        cases h
        obtain ⟨-, hh, hf, -⟩ := queueResponse_ok hq
        rw [hh] at hf
        exact hf
      · exact absurd h (failed_ne _ _)
    · exact absurd h (failed_ne _ _)

end Caps

/-! ## One bind -/

/-- One bind, from the call of `Request` at the ESME to the capabilities that the two sessions have stored. -/
structure BindExchange where
  /-- the ESME, when `Request` looks at its arguments -/
  caller : Session
  call : Call
  bind : BindRequest
  isBind : isBindRequest call.command
  body : Holds call.body (.bindRequest bind)
  permitted : caller.requestError call = none
  frame : Octets
  encoded : encodeFrame caller.config.registry (requestHeader call) call.body = .ok frame
  /-- the SMSC, when its handler accepts the bind -/
  handler : Session
  request : DecodedPDU
  received : decodePDU handler.config.registry frame = .ok request
  handling : handler.rx = .handling request
  response : Response
  own : BindResponse
  accepting : CommandStatus.ok response.status ∧ response.action = .immediate ∧ Holds response.body (.bindResponse own)
  answering : Session
  handled : handler.step (.rx (.handled (.returned (.ok response)))) = some answering
  item : TxItem
  next : AfterQueue
  queueing : answering.rx = .queueing item next
  /-- the SMSC, when it has not accepted another bind since -/
  smsc : Session
  later : sessions.Run (fun s label => s.keepsCaps label) answering smsc
  /-- the ESME, when `handleResponse` looks at the body of the response -/
  receiver : Session
  config : receiver.config = caller.config
  owner : Owner
  task : Task
  ledger : Ledger
  answered : receiver.ledger.nextTask owner = some (task, ledger)
  pending : Call
  request_eq : ledger.calls[task.call]? = some pending ∧ pending.command = call.command ∧ pending.body = call.body
  pdu : DecodedPDU
  decoded : decodePDU receiver.config.registry item.frame = .ok pdu
  accepted : CommandStatus.ok pdu.header.commandStatus
  rest : List Stage
  stage : task.todo = .negotiate :: rest ∧ task.result = .ok pdu
  esme : Session
  stored : receiver.step (.task owner) = some esme

namespace BindExchange
variable (x : BindExchange)

theorem version_permitted (h : x.bind.interfaceVersion = interfaceVersion50) : x.caller.config.profile.isSMPP50 := by
  have hp := x.permitted
  have hv : bindRequestVersion x.call.body = some interfaceVersion50 := by
    rw [← h]
    rcases x.body with hb | hb <;> rw [hb] <;> rfl
  unfold requestError at hp
  rw [x.isBind, hv] at hp
  split at hp
  · cases hp
  · split at hp
    · cases hp
    · next hn => simpa using hn

/-- The body of the response the SMSC queues. -/
def sent : BindResponse :=
  if x.bind.interfaceVersion = interfaceVersion34 ∨ x.bind.interfaceVersion = interfaceVersion50 then
    appendIfMissing x.handler.config.profile.interfaceVersion x.own
  else x.own

theorem sent_version (hc : BindResponse.Canonical x.sent) : scInterfaceVersion x.sent.optional =
    advertised x.handler.config.profile x.bind.interfaceVersion (scInterfaceVersion x.own.optional) := by
  unfold sent at hc ⊢
  unfold advertised
  split at hc
  · next hv =>
    rw [if_pos hv, if_pos hv]
    exact scInterfaceVersion_appendIfMissing (canonical_of_appendIfMissing hc) _
  · next hv => rw [if_neg hv, if_neg hv]

theorem handled_eq {mode mode' : RegistryMode} (hr : x.caller.config.registry.IsExtended mode)
    (hr' : x.handler.config.registry.IsExtended mode') :
    x.answering.peerCaps = negotiatePeerCapabilities x.handler.config.profile x.bind.interfaceVersion true ∧
    ((∃ body, Holds body (.bindResponse x.sent) ∧ encodeFrame x.handler.config.registry
        (responseHeader x.request.header (responseID x.call.command) x.response.status) body = .ok x.item.frame) ∨
     ∃ bs, x.item.frame = frameOf (responseHeader x.request.header commandGenericNACK statusSystemError) bs) := by
  obtain ⟨hid, hbody⟩ := bindRequest_travels hr hr' x.isBind rfl x.body x.encoded x.received
  obtain ⟨hok, haction, hown⟩ := x.accepting
  have hid : x.request.header.commandID = x.call.command := hid
  have hoff : isOneWayCommand x.call.command = false := by
    refine eq_false_of_ne_true fun h => ?_
    have hnot := not_isLifecycleRequest_of_oneWay h
    rw [isLifecycleRequest, x.isBind, Bool.true_or] at hnot
    cases hnot
  have hanswering : x.answering = x.handler.answer x.request x.response := by
    have h : x.handler.rxStep (.handled (.returned (.ok x.response))) = some x.answering := x.handled
    unfold rxStep at h
    rw [x.handling] at h
    have h := Option.some.inj h
    unfold Session.handled dispatchResponse at h
    simpa only [hid, hoff, haction, Bool.false_eq_true, if_false] using h.symm
  have haccept : x.handler.acceptBind x.request x.response =
      ({ x.handler with peerCaps :=
          negotiatePeerCapabilities x.handler.config.profile x.bind.interfaceVersion true },
        if x.bind.interfaceVersion = interfaceVersion34 ∨ x.bind.interfaceVersion = interfaceVersion50 then
          ensureSCInterfaceVersion x.response.body x.handler.config.profile.interfaceVersion
        else x.response.body) := by
    unfold acceptBind
    simp only [hbody, hok, hid, x.isBind, Bool.and_true, if_true]
  have hrx := x.queueing
  rw [hanswering] at hrx ⊢
  refine ⟨?_, (answer_queueing hrx).imp_left fun hframe => ?_⟩
  · show (x.handler.acceptBind x.request x.response).1.peerCaps = _
    rw [haccept]
  · rw [haccept, hid] at hframe
    refine ⟨_, ?_, hframe⟩
    unfold sent
    split
    · rcases hown with hb | hb <;> rw [hb] <;> exact .inl rfl
    · exact hown

/-- **Capability agreement.** After an ESME has processed the response to a bind, it and the SMSC, whose handler has accepted
the bind with any body, have negotiated the same version and the same support of SMPP 5.0, if and only if an
`sc_interface_version` that the handler has put into the body itself is compatible with the SMSC's profile and the bind. -/
theorem agree_iff {mode mode' : RegistryMode} (hr : x.caller.config.registry.IsExtended mode)
    (hr' : x.handler.config.registry.IsExtended mode') (hp : x.handler.config.profile.valid) :
    SameCapabilities x.esme.peerCaps x.smsc.peerCaps ↔
      Compatible x.handler.config.profile x.bind.interfaceVersion (scInterfaceVersion x.own.optional) := by
  obtain ⟨hcaps, hqueued⟩ := x.handled_eq hr hr'
  have hsmsc : x.smsc.peerCaps = x.answering.peerCaps :=
    x.later.invariant (P := fun s => s.peerCaps = x.answering.peerCaps)
      (fun _ _ _ hok hs h => (step_caps hs hok).trans h) rfl
  have hr'' : x.receiver.config.registry.IsExtended mode := x.config ▸ hr
  have hpdu : x.pdu.body = .struct (.bindResponse x.sent) ∧ BindResponse.Canonical x.sent := by
    rcases hqueued with ⟨body, hbody, hframe⟩ | ⟨bs, hframe⟩
    · have hok : x.response.status = statusOK := by simpa [CommandStatus.ok] using x.accepting.1
      exact bindResponse_travels hr' hr'' x.isBind rfl hok hbody hframe x.decoded
    · -- a `generic_nack` accepts nothing
      have hd := x.decoded
      rw [hframe] at hd
      obtain ⟨bs', hw, -, -⟩ := (decodePDU_ok ..).mp hd
      have hok := x.accepted
      rw [← (Header.wire_append_inj hw).1] at hok
      cases hok
  have hesme : x.esme.peerCaps = negotiatePeerCapabilities
      (bindNegotiationProfile x.caller.config.profile x.bind.interfaceVersion)
      ((advertised x.handler.config.profile x.bind.interfaceVersion (scInterfaceVersion x.own.optional)).getD 0)
      (advertised x.handler.config.profile x.bind.interfaceVersion (scInterfaceVersion x.own.optional)).isSome := by
    obtain ⟨hcall, hcommand, hsame⟩ := x.request_eq
    have hversion : bindRequestVersion x.pending.body = some x.bind.interfaceVersion := by
      rw [hsame]
      rcases x.body with hb | hb <;> rw [hb] <;> rfl
    have hstored : x.esme.peerCaps = x.receiver.negotiated x.pending x.pdu := by
      have h : x.receiver.taskStep x.owner = some x.esme := x.stored
      unfold taskStep at h
      simp only [x.answered, hcall, x.stage.1, x.stage.2, Option.bind_eq_bind, Option.bind_some, Option.some.injEq] at h
      rw [← h]
    rw [hstored, ← x.sent_version hpdu.2]
    unfold negotiated
    simp only [hpdu.1, x.accepted, hcommand, x.isBind, Bool.and_true, if_true, hversion, x.config, Option.getD_some]
  rw [hesme, hsmsc, hcaps]
  exact negotiate_agree_iff _ hp x.version_permitted

def smpp50Config : Config := { profile := smpp50Profile, registry := smpp50Registry .compatible, handler := true }

def bind50 : BindRequest where
  systemID := []
  password := []
  systemType := []
  interfaceVersion := interfaceVersion50
  addressTON := 0
  addressNPI := 0
  addressRange := []

/-- The bind of the ESME, up to its frame on the connection. -/
def binds50 : List Label :=
  .request commandBindTransceiver (.struct (.bindRequest bind50)) true :: List.replicate 8 (.call 0 .go) ++
    List.replicate 11 (.tx .go)

def bindFrame50 : Octets := [0, 0, 0, 23, 0, 0, 0, 9, 0, 0, 0, 0, 0, 0, 0, 1, 0, 0, 0, 0x50, 0, 0, 0]

/-- The response, with the version that the SMSC has added. -/
def responseFrame50 : Octets := [0, 0, 0, 22, 0x80, 0, 0, 9, 0, 0, 0, 0, 0, 0, 0, 1, 0, 2, 0x10, 0, 1, 0x50]

/-- The handler accepts with the parameters. -/
def accepts50 (optional : List OptionalParameter) : Response :=
  { status := statusOK, body := .struct (.bindResponse ⟨[], optional⟩) }

def handling50 : Session := sessions.after anyStep (new smpp50Config .smsc) [.frame bindFrame50, .rx .go]

def answering50 : Session :=
  (handling50.step (.rx (.handled (.returned (.ok (accepts50 [])))))).get (by decide +kernel)

def receiving50 : Session :=
  sessions.after anyStep (new smpp50Config .esme) (binds50 ++ .frame responseFrame50 :: List.replicate 4 (.task .rx))

def completing50 : Task × Ledger := (receiving50.ledger.nextTask .rx).get (by decide +kernel)

theorem completing50_eq : receiving50.ledger.nextTask .rx = some completing50 := (Option.some_get _).symm

/-- A bind with version 5.0 between two sessions of SMPP 5.0, whose handler leaves the version to the session. -/
def exchange50 : BindExchange where
  caller := new smpp50Config .esme
  call := { command := commandBindTransceiver, body := .struct (.bindRequest bind50), waitWindow := true, sequence := 1 }
  bind := bind50
  isBind := rfl
  body := .inl rfl
  permitted := by decide +kernel
  frame := bindFrame50
  encoded := by decide +kernel
  handler := handling50
  request := ⟨⟨23, commandBindTransceiver, 0, 1⟩, .struct (.bindRequest bind50)⟩
  received := by decide +kernel
  handling := by decide +kernel
  response := accepts50 []
  own := ⟨[], []⟩
  accepting := ⟨rfl, rfl, .inl rfl⟩
  answering := answering50
  handled := (Option.some_get _).symm
  item :=
    { kind := .response, header := ⟨0, commandBindTransceiverResp, 0, 1⟩, frame := responseFrame50, sequence := 1
      responseTo := commandBindTransceiver, reserved := true }
  next := .cancel commandBindTransceiver
  queueing := by decide +kernel
  smsc := answering50
  later := .refl _
  receiver := receiving50
  config := by rfl
  owner := .rx
  task := completing50.1
  ledger := completing50.2
  answered := completing50_eq
  pending := (receiving50.ledger.calls[0]?).get (by decide +kernel)
  request_eq := ⟨by decide +kernel, by decide +kernel, by decide +kernel⟩
  pdu := ⟨⟨22, commandBindTransceiverResp, 0, 1⟩,
    .struct (.bindResponse ⟨[], [⟨tlvTagSCInterfaceVersion, [interfaceVersion50]⟩]⟩)⟩
  decoded := by decide +kernel
  accepted := rfl
  rest := [.send, .close]
  stage := ⟨by decide +kernel, by decide +kernel⟩
  esme := (receiving50.step (.task .rx)).get (by decide +kernel)
  stored := (Option.some_get _).symm

theorem agree_iff_exchange50 : SameCapabilities exchange50.esme.peerCaps exchange50.smsc.peerCaps := by
  have hextended : (smpp50Registry .compatible).IsExtended .compatible :=
    .smpp50 (newSMPP50RegistryBuilder_ok .compatible) .refl
  exact (exchange50.agree_iff hextended hextended rfl).mpr (.inl rfl)

/-- The same bind, in a run of the two sessions up to the response of the ESME's call. -/
def exchanges50 (optional : List OptionalParameter) : List (LinkLabel Label) :=
  acts .left binds50 ++ .deliver .right ::
    acts .right ([.rx .go, .rx (.handled (.returned (.ok (accepts50 optional)))), .rx .go] ++ List.replicate 7 (.tx .go)) ++
    .deliver .left :: acts .left (List.replicate 7 (.task .rx))

/-- The handler advertises 3.4: the ESME has negotiated 3.4, and the SMSC 5.0. -/
theorem exchanges50_differ : ∃ p, linked.Run anyStep (newPair smpp50Config smpp50Config) p ∧
    p.left.machine.state = .boundTRX ∧ p.right.machine.state = .boundTRX ∧
    p.left.peerCaps.negotiatedVersion = interfaceVersion34 ∧ p.left.peerCaps.supportsSMPP50 = false ∧
    p.right.peerCaps.negotiatedVersion = interfaceVersion50 ∧ p.right.peerCaps.supportsSMPP50 = true :=
  ⟨_, System.run_after linked anyStep (newPair smpp50Config smpp50Config)
      (exchanges50 [⟨tlvTagSCInterfaceVersion, [interfaceVersion34]⟩]) (by decide +kernel),
    by decide +kernel, by decide +kernel, by decide +kernel, by decide +kernel, by decide +kernel, by decide +kernel⟩

end BindExchange

end GoSmpp.Session
