import GoSmpp.Lib.Assoc
import GoSmpp.Session.Lifecycle
import GoSmpp.Session.Pipeline

/-!
# Deferred replies

`RespondDeferred` and `AbandonDeferredResponse` of `session/inbound_reply.go`, beside the session whose RX loop registers the
replies (`registerDeferredReply`) and whose `terminate` clears them. A reservation is an entry of `deferredReplies`, and `true`
in it says that a call is sending the reply.

* `Deferring`: a session with any number of calls of `RespondDeferred`. It remembers the registrations, newest first, and
  which of them have been answered or abandoned; a registration is known by the number of those before it.
* `ReplyNext`: every step of a call. `step_deferred`: what a step of the session does to the reservations.
* `run_oneShot`: each registration is answered at most once, and not once it is abandoned, as long as no number is registered
  while a call is sending a reply under it. After `terminate` has cleared the map one can be: `sharedNumber`.
* `run_reusable`: a number whose reply has been queued can be registered again, as long as the call that queued it has
  removed its reservation. It may not have: `slotNotFreed`.
-/

namespace GoSmpp.Session
open Lib Protocol Codec

/-! ## The calls -/

/-- Where a call of `RespondDeferred` is. From the reservation on it knows the registration that it answers. -/
inductive ReplyPhase where
  /-- before the `select` on `done` -/
  | checking
  /-- before the reservation is marked -/
  | reserving
  | encoding (registration : Nat)
  /-- in the `select` of `queueResponse` -/
  | admitting (registration : Nat) (item : TxItem)
  /-- before the reservation is removed, or given back after an error -/
  | releasing (registration : Nat) (err : Option Err)
  | returned (err : Option Err)
  deriving DecidableEq, Repr

structure Reply where
  request : Header
  response : Response
  phase : ReplyPhase := .checking
  deriving DecidableEq, Repr

/-- A session and the calls that answer its deferred requests. -/
structure Deferring where
  session : Session
  replies : List Reply := []
  /-- history: the sequence numbers registered, newest first -/
  registrations : List SequenceNumber := []
  /-- history: the registrations whose response has been queued -/
  answered : List Nat := []
  /-- history: the registrations for which `AbandonDeferredResponse` has returned true -/
  abandoned : List Nat := []

namespace Deferring

def goto (d : Deferring) (i : Nat) (phase : ReplyPhase) : Deferring :=
  { d with replies := d.replies.modify i fun k => { k with phase } }

/-- The latest registration of the number. -/
def current (d : Deferring) (n : SequenceNumber) : Nat := (Assoc.latest d.registrations n).getD 0

def setReplies (d : Deferring) (deferredReplies : List (SequenceNumber × Bool)) : Deferring :=
  { d with session := { d.session with deferredReplies } }

def replyStep (d : Deferring) (i : Nat) (k : Reply) (arm : Arm) : Option Deferring :=
  let s := d.session
  let n := k.request.sequenceNumber
  match k.phase, arm with
  | .checking, .go =>
    some (if k.request.commandID ≠ commandDeliverSM ∨ validInbound n = false ∨ k.response.action ≠ .immediate then
        d.goto i (.returned (some (.sentinel .invalidResponseAction)))
      else if s.termination.done then d.goto i (.returned (some s.requestCloseError))
      else d.goto i .reserving)
  | .reserving, .go =>
    some (match s.deferredReplies.lookup n with
      | none => d.goto i (.returned (some (.sentinel .deferredResponseUnknown)))
      | some true => d.goto i (.returned (some (.sentinel .deferredResponseBusy)))
      | some false => (d.setReplies (Assoc.assign s.deferredReplies n true)).goto i (.encoding (d.current n)))
  | .encoding r, .go =>
    some (match s.queueResponse k.request commandDeliverSMResp k.response.status k.response.body false with
      | .ok item => d.goto i (.admitting r item)
      | .error err => d.goto i (.releasing r (some err)))
  | .admitting r item, .go => do
    let s ← s.enqueue item
    some ({ d with session := s, answered := r :: d.answered }.goto i (.releasing r none))
  | .admitting r _, .done =>
    if s.termination.done then some (d.goto i (.releasing r (some s.requestCloseError))) else none
  | .releasing _ none, .go => some ((d.setReplies (Assoc.remove s.deferredReplies n)).goto i (.returned none))
  | .releasing _ (some err), .go =>
    some (if (s.deferredReplies.lookup n).isSome then
        (d.setReplies (Assoc.assign s.deferredReplies n false)).goto i (.returned (some err))
      else d.goto i (.returned (some err)))
  | _, _ => none

/-- `AbandonDeferredResponse`: what it returns, and what is left. -/
def abandonDeferredResponse (d : Deferring) (request : Header) : Bool × Deferring :=
  let n := request.sequenceNumber
  if request.commandID ≠ commandDeliverSM ∨ validInbound n = false then (false, d)
  else
    match d.session.deferredReplies.lookup n with
    | some false =>
      (true, { d.setReplies (Assoc.remove d.session.deferredReplies n) with abandoned := d.current n :: d.abandoned })
    | _ => (false, d)

end Deferring

/-- The `deliver_sm` whose reply the handler defers in the step. -/
def defers (s : Session) : Label → Option Header
  | .rx (.handled (.returned (.ok response))) =>
    match s.rx with
    | .handling pdu =>
      if response.action = .deferred ∧ pdu.header.commandID = commandDeliverSM then some pdu.header else none
    | _ => none
  | _ => none

/-- The sequence number that the step registers. -/
def registers (s : Session) (label : Label) : Option SequenceNumber :=
  (s.defers label).bind fun request =>
    if (s.registerDeferredReply request).isOk then some request.sequenceNumber else none

inductive DeferLabel where
  | session (label : Label)
  /-- a goroutine calls `RespondDeferred` -/
  | respond (request : Header) (response : Response)
  | reply (i : Nat) (arm : Arm)
  /-- a goroutine calls `AbandonDeferredResponse` -/
  | abandon (request : Header)
  deriving DecidableEq, Repr

def Deferring.step (d : Deferring) : DeferLabel → Option Deferring
  | .session label => do
    let session ← d.session.step label
    some { d with session, registrations := (d.session.registers label).toList ++ d.registrations }
  | .respond request response => some { d with replies := d.replies ++ [{ request, response }] }
  | .reply i arm => do d.replyStep i (← d.replies[i]?) arm
  | .abandon request => some (d.abandonDeferredResponse request).2

/-- The sessions with deferred replies as a step system. -/
def deferring : System Deferring DeferLabel where
  step := Deferring.step

def newDeferring (config : Config) (role : Role) : Deferring := { session := new config role }

/-! ## What a session does to the reservations -/

section Session
variable {s s' : Session} {label : Label} {pdu : DecodedPDU} {response : Response}

theorem answer_deferredReplies : (s.answer pdu response).deferredReplies = s.deferredReplies := by
  have h : (s.acceptBind pdu response).1.deferredReplies = s.deferredReplies := by
    unfold acceptBind
    split
    · split <;> rfl
    · rfl
  exact h

theorem dispatchResponse_immediate_deferredReplies (h : response.action = .immediate) :
    (s.dispatchResponse pdu response).deferredReplies = s.deferredReplies := by
  unfold dispatchResponse
  rw [h]
  exact answer_deferredReplies

theorem beginRequest_deferredReplies : (s.beginRequest pdu).deferredReplies = s.deferredReplies := by
  unfold beginRequest
  cases hb : s.beginInbound pdu.header.commandID with
  | error err => simp only [hb]
  | ok m =>
    simp only [hb]
    split
    · rfl
    · split
      · exact dispatchResponse_immediate_deferredReplies rfl
      · split
        · exact dispatchResponse_immediate_deferredReplies rfl
        · rfl

theorem registerDeferredReply_ok {request : Header} (h : s.registerDeferredReply request = .ok s') :
    s.deferredReplies.lookup request.sequenceNumber = none ∧ s.deferredReplies.length < s.config.maxDeferredResponses ∧
    s' = { s with deferredReplies := (request.sequenceNumber, false) :: s.deferredReplies } := by
  unfold registerDeferredReply at h
  split at h
  · cases h
  · next hnone =>
    split at h
    · cases h
    · next hlt =>
      cases h
      exact ⟨Option.not_isSome_iff_eq_none.mp hnone, Nat.lt_of_not_le hlt, rfl⟩

/-- What a step of the session does to the reservations. -/
inductive DeferNext (s : Session) (label : Label) (s' : Session) : Prop
  | keep (hreg : s.registers label = none) (hd : s'.deferredReplies = s.deferredReplies)
  | register (n : SequenceNumber) (hreg : s.registers label = some n) (hnone : s.deferredReplies.lookup n = none)
      (hlt : s.deferredReplies.length < s.config.maxDeferredResponses)
      (hd : s'.deferredReplies = (n, false) :: s.deferredReplies)
  | clear (hreg : s.registers label = none) (hd : s'.deferredReplies = []) (ht : s'.termination.done)

theorem registers_of_defers (h : s.defers label = none) : s.registers label = none := by
  unfold registers
  rw [h]
  rfl

theorem dispatchResponse_deferred (ha : response.action = .deferred) (hc : pdu.header.commandID = commandDeliverSM) :
    s.dispatchResponse pdu response = match s.registerDeferredReply pdu.header with
      | .ok s => { s with rx := .reading }
      | .error err => { s with rx := .failing err } := by
  unfold dispatchResponse
  rw [ha, hc]
  rfl

theorem handled_deferred {outcome : Handled} (hrx : s.rx = .handling pdu) :
    DeferNext s (.rx (.handled outcome)) (s.handled pdu outcome) := by
  have hkeep (hdefers : s.defers (.rx (.handled outcome)) = none)
      (hd : (s.handled pdu outcome).deferredReplies = s.deferredReplies) :
      DeferNext s (.rx (.handled outcome)) (s.handled pdu outcome) :=
    .keep (registers_of_defers hdefers) hd
  by_cases hone : isOneWayCommand pdu.header.commandID
  · have he : s.handled pdu outcome = { s with rx := .reading } := if_pos hone
    refine hkeep ?_ (by rw [he])
    unfold defers
    split
    · rw [hrx]
      refine if_neg fun h => ?_
      rw [h.2] at hone
      cases hone
    · rfl
  · by_cases hout : ∃ response, outcome = .returned (.ok response)
    · obtain ⟨response, rfl⟩ := hout
      have he : s.handled pdu (.returned (.ok response)) = s.dispatchResponse pdu response := if_neg hone
      have hdefers : s.defers (.rx (.handled (.returned (.ok response)))) =
          if response.action = .deferred ∧ pdu.header.commandID = commandDeliverSM then some pdu.header else none := by
        unfold defers
        rw [hrx]
      rw [he] at hkeep ⊢
      by_cases hd : response.action = .deferred ∧ pdu.header.commandID = commandDeliverSM
      · rw [if_pos hd] at hdefers
        have hregs : s.registers (.rx (.handled (.returned (.ok response)))) =
            if (s.registerDeferredReply pdu.header).isOk then some pdu.header.sequenceNumber else none := by
          unfold registers
          rw [hdefers]
          rfl
        have hdis := dispatchResponse_deferred (s := s) hd.1 hd.2
        cases hreg : s.registerDeferredReply pdu.header with
        | ok t =>
          obtain ⟨hnone, hlt, rfl⟩ := registerDeferredReply_ok hreg
          rw [hreg] at hregs hdis
          exact .register _ hregs hnone hlt (by rw [hdis])
        | error err =>
          rw [hreg] at hregs hdis
          exact .keep hregs (by rw [hdis])
      · rw [if_neg hd] at hdefers
        refine hkeep hdefers ?_
        unfold dispatchResponse
        split
        · exact answer_deferredReplies
        · split
          · rfl
          · next hdel =>
            split
            · rfl
            · next ha => exact absurd ⟨ha, not_not.mp hdel⟩ hd
            · rfl
    · have he : s.handled pdu outcome = s.dispatchResponse pdu { status := statusSystemError, body := emptyBody } := by
        unfold handled
        rw [if_neg hone]
        split
        · exact absurd ⟨_, rfl⟩ hout
        · rfl
      refine hkeep ?_ (by rw [he]; exact dispatchResponse_immediate_deferredReplies rfl)
      unfold defers
      split
      · next heq => cases heq; exact absurd ⟨_, rfl⟩ hout
      · rfl

theorem step_defers {request : Header} (hd : s.defers label = some request) (h : s.step label = some s') :
    s' = match s.registerDeferredReply request with
      | .ok s => { s with rx := .reading }
      | .error err => { s with rx := .failing err } := by
  unfold defers at hd
  split at hd
  · next response =>
    split at hd
    · next pdu hrx =>
      split at hd
      · next hc =>
        cases hd
        have h : s.rxStep (.handled (.returned (.ok response))) = some s' := h
        unfold rxStep at h
        rw [hrx] at h
        cases h
        have hone : ¬ isOneWayCommand pdu.header.commandID := by rw [hc.2]; decide
        rw [show s.handled pdu (.returned (.ok response)) = s.dispatchResponse pdu response from if_neg hone,
          dispatchResponse_deferred hc.1 hc.2]
      · cases hd
    · cases hd
  · cases hd

theorem rxStep_deferred {choice : RxChoice} (h : s.rxStep choice = some s') : DeferNext s (.rx choice) s' := by
  have hkeep (hd : s'.deferredReplies = s.deferredReplies) (hdefers : s.defers (.rx choice) = none) :
      DeferNext s (.rx choice) s' := .keep (registers_of_defers hdefers) hd
  cases rxStep_move h with
  | begin => exact hkeep beginRequest_deferredReplies rfl
  | handle hrx => exact handled_deferred hrx
  | fail => exact hkeep (by rw [terminate_eq]) rfl
  | enqueue | closed | cancel | resume => exact hkeep rfl rfl

/-- **What a step of the session does to the reservations.** -/
theorem step_deferred (h : s.step label = some s') : DeferNext s label s' := by
  cases label with
  | request command body waitWindow => cases h; exact .keep rfl rfl
  | call i arm =>
    obtain ⟨k, -, -, h⟩ := step_call h
    exact .keep rfl (by rw [callStep_scope h])
  | task o => exact .keep rfl (by rw [taskStep_scope h])
  | sendOneWay command body => cases h; exact .keep rfl rfl
  | send i arm =>
    obtain ⟨k, -, h⟩ := step_send h
    exact .keep rfl (by rw [sendStep_scope h])
  | frame frame =>
    obtain ⟨-, -, rfl⟩ := step_frame h
    exact .keep rfl (by rw [processFrame_scope])
  | rx choice => exact rxStep_deferred h
  | tx choice => exact .keep rfl (by rw [txStep_scope h])
  | expire call =>
    obtain ⟨item, -, h⟩ := Option.bind_eq_some_iff.mp h
    cases h
    exact .keep rfl rfl
  | fire => exact .keep rfl (by rw [fire_scope h])
  | terminate cause => cases h; exact .keep rfl (by rw [terminate_eq])
  | term =>
    cases termStep_move h with
    | clear => exact .clear rfl rfl rfl
    | close | done | sweep => exact .keep rfl rfl

end Session

/-! ## What a call does -/

/-- The registration that a call in this phase is answering. -/
def ReplyPhase.registration : ReplyPhase → Option Nat
  | .encoding r | .admitting r _ | .releasing r _ => some r
  | .checking | .reserving | .returned _ => none

/-- The registration that the call may still answer. -/
def ReplyPhase.unanswered : ReplyPhase → Option Nat
  | .encoding r | .admitting r _ | .releasing r (some _) => some r
  | .checking | .reserving | .releasing _ none | .returned _ => none

/-- The call has queued its response under the number and has not removed the reservation. -/
def Reply.unfreed (k : Reply) (n : SequenceNumber) : Bool :=
  k.request.sequenceNumber == n && k.phase.registration.isSome && k.phase.unanswered.isNone

namespace Deferring

/-- A step of a call: the phase, what becomes of the reservations, and whether the response is queued. -/
inductive ReplyNext (d : Deferring) (k : Reply) : ReplyPhase → List (SequenceNumber × Bool) → List Nat → Prop
  /-- the call goes on without a reservation, or returns -/
  | unreserved {q} : k.phase.registration = none → q.registration = none → ReplyNext d k q d.session.deferredReplies d.answered
  | reserve : k.phase = .reserving → d.session.deferredReplies.lookup k.request.sequenceNumber = some false →
      ReplyNext d k (.encoding (d.current k.request.sequenceNumber))
        (Assoc.assign d.session.deferredReplies k.request.sequenceNumber true) d.answered
  | encode {r item} : k.phase = .encoding r → ReplyNext d k (.admitting r item) d.session.deferredReplies d.answered
  | fail {r err} : (k.phase = .encoding r ∨ ∃ item, k.phase = .admitting r item ∧ d.session.termination.done) →
      ReplyNext d k (.releasing r (some err)) d.session.deferredReplies d.answered
  | send {r item} : k.phase = .admitting r item →
      ReplyNext d k (.releasing r none) d.session.deferredReplies (r :: d.answered)
  | free {r} : k.phase = .releasing r none →
      ReplyNext d k (.returned none) (Assoc.remove d.session.deferredReplies k.request.sequenceNumber) d.answered
  | giveBack {r err} : k.phase = .releasing r (some err) →
      (d.session.deferredReplies.lookup k.request.sequenceNumber).isSome →
      ReplyNext d k (.returned (some err)) (Assoc.assign d.session.deferredReplies k.request.sequenceNumber false) d.answered
  | lost {r err} : k.phase = .releasing r (some err) →
      d.session.deferredReplies.lookup k.request.sequenceNumber = none →
      ReplyNext d k (.returned (some err)) d.session.deferredReplies d.answered

variable {d d' : Deferring} {i : Nat} {k : Reply} {arm : Arm}

/-- **What a step of a call does.** -/
theorem replyStep_next (h : d.replyStep i k arm = some d') : ∃ q session answered,
    ReplyNext d k q session.deferredReplies answered ∧ session.termination = d.session.termination ∧
    session.config = d.session.config ∧
    d' = { d with session, answered, replies := d.replies.modify i fun k => { k with phase := q } } := by
  have hgoto {q : ReplyPhase} (hn : ReplyNext d k q d.session.deferredReplies d.answered) : ∃ q' session answered,
      ReplyNext d k q' session.deferredReplies answered ∧ session.termination = d.session.termination ∧
      session.config = d.session.config ∧
      d.goto i q = { d with session, answered, replies := d.replies.modify i fun k => { k with phase := q' } } :=
    ⟨q, d.session, d.answered, hn, rfl, rfl, rfl⟩
  unfold replyStep at h
  dsimp only at h
  split at h
  case h_1 hp =>
    cases h
    split
    · exact hgoto (.unreserved (by rw [hp]; rfl) rfl)
    · split <;> exact hgoto (.unreserved (by rw [hp]; rfl) rfl)
  case h_2 hp =>
    cases h
    split
    · exact hgoto (.unreserved (by rw [hp]; rfl) rfl)
    · exact hgoto (.unreserved (by rw [hp]; rfl) rfl)
    · next hl => exact ⟨_, { d.session with deferredReplies := _ }, d.answered, .reserve hp hl, rfl, rfl, rfl⟩
  case h_3 hp =>
    cases h
    split
    · exact hgoto (.encode hp)
    · exact hgoto (.fail (.inl hp))
  case h_4 r item hp =>
    obtain ⟨s, hs, h⟩ := Option.bind_eq_some_iff.mp h
    obtain ⟨-, rfl⟩ := enqueue_some hs
    cases h
    exact ⟨_, { d.session with queue := d.session.queue ++ [item] }, _, .send hp, rfl, rfl, rfl⟩
  case h_5 hp =>
    split at h
    · next hd => cases h; exact hgoto (.fail (.inr ⟨_, hp, hd⟩))
    · cases h
  case h_6 hp => cases h; exact ⟨_, { d.session with deferredReplies := _ }, d.answered, .free hp, rfl, rfl, rfl⟩
  case h_7 hp =>
    cases h
    split
    · next hl => exact ⟨_, { d.session with deferredReplies := _ }, d.answered, .giveBack hp hl, rfl, rfl, rfl⟩
    · next hl => exact hgoto (.lost hp (Option.not_isSome_iff_eq_none.mp hl))
  case h_8 => cases h

inductive Next (d : Deferring) : DeferLabel → Deferring → Prop
  | session {label session} : d.session.step label = some session →
      Next d (.session label) { d with session, registrations := (d.session.registers label).toList ++ d.registrations }
  | respond {request response} : Next d (.respond request response) { d with replies := d.replies ++ [{ request, response }] }
  | reply {i arm k q session answered} : d.replies[i]? = some k → ReplyNext d k q session.deferredReplies answered →
      session.termination = d.session.termination → session.config = d.session.config →
      Next d (.reply i arm) { d with session, answered, replies := d.replies.modify i fun k => { k with phase := q } }
  | abandon {request} : d.session.deferredReplies.lookup request.sequenceNumber = some false → Next d (.abandon request)
      { d.setReplies (Assoc.remove d.session.deferredReplies request.sequenceNumber) with
        abandoned := d.current request.sequenceNumber :: d.abandoned }
  | refused {request} : Next d (.abandon request) d

theorem step_next {label : DeferLabel} (h : d.step label = some d') : d.Next label d' := by
  cases label with
  | session label =>
    obtain ⟨s, hs, h⟩ := Option.bind_eq_some_iff.mp h
    cases h
    exact .session hs
  | respond request response => cases h; exact .respond
  | reply i arm =>
    obtain ⟨k, hk, h⟩ := Option.bind_eq_some_iff.mp h
    obtain ⟨q, s, answered, hn, ht, hc, rfl⟩ := replyStep_next h
    exact .reply hk hn ht hc
  | abandon request =>
    cases h
    unfold abandonDeferredResponse
    dsimp only
    split
    · exact .refused
    · split
      · next hl => exact .abandon hl
      · exact .refused

/-! ## Registrations -/

/-- The `i`-th call has marked the reservation of the number, for the registration. -/
def Holds (d : Deferring) (i : Nat) (n : SequenceNumber) (r : Nat) : Prop :=
  ∃ k, d.replies[i]? = some k ∧ k.request.sequenceNumber = n ∧ k.phase.registration = some r

structure Numbered (config : Config) (d : Deferring) : Prop where
  configured : d.session.config = config
  bounded : d.session.deferredReplies.length ≤ config.maxDeferredResponses
  answered : ∀ r ∈ d.answered, r < d.registrations.length
  abandoned : ∀ r ∈ d.abandoned, r < d.registrations.length
  registered : ∀ {n}, (d.session.deferredReplies.lookup n).isSome → (Assoc.latest d.registrations n).isSome
  holder : ∀ {i n r}, d.Holds i n r → d.registrations.reverse[r]? = some n
  /-- a reservation that has been answered and not been removed is in the hands of the call that answered it -/
  freed : ∀ {n r}, (d.session.deferredReplies.lookup n).isSome → Assoc.latest d.registrations n = some r → r ∈ d.answered →
    ∃ (i : Nat) (k : Reply), d.replies[i]? = some k ∧ k.request.sequenceNumber = n ∧ k.phase = .releasing r none

theorem numbered_new (config : Config) (role : Role) : Numbered config (newDeferring config role) where
  configured := rfl
  bounded := Nat.zero_le _
  answered _ h := (List.not_mem_nil h).elim
  abandoned _ h := (List.not_mem_nil h).elim
  registered h := by cases h
  holder h := by obtain ⟨k, hk, -⟩ := h; cases hk
  freed h := by cases h

section Replies
variable {q : ReplyPhase} {j : Nat} {k' : Reply}

theorem getElem?_goto_self (hk : d.replies[i]? = some k) :
    (d.replies.modify i fun k => { k with phase := q })[i]? = some { k with phase := q } := by
  rw [List.getElem?_modify_eq, hk]
  rfl

theorem getElem?_goto_ne (hne : j ≠ i) :
    (d.replies.modify i fun k => { k with phase := q })[j]? = d.replies[j]? :=
  List.getElem?_modify_ne _ _ (Ne.symm hne)

theorem getElem?_goto (hk : d.replies[i]? = some k)
    (hk' : (d.replies.modify i fun k => { k with phase := q })[j]? = some k') :
    (j = i ∧ k' = { k with phase := q }) ∨ (j ≠ i ∧ d.replies[j]? = some k') := by
  by_cases hij : j = i
  · subst hij
    rw [getElem?_goto_self hk] at hk'
    cases hk'
    exact .inl ⟨rfl, rfl⟩
  · rw [getElem?_goto_ne hij] at hk'
    exact .inr ⟨hij, hk'⟩

theorem Holds.of_respond {request : Header} {response : Response} {n : SequenceNumber} {r : Nat}
    (h : Holds { d with replies := d.replies ++ [{ request, response }] } j n r) : d.Holds j n r := by
  obtain ⟨k, hk, hn, hp⟩ := h
  rcases lt_or_ge j d.replies.length with hlt | hge
  · exact ⟨k, by rwa [List.getElem?_append_left hlt] at hk, hn, hp⟩
  · rw [List.getElem?_append_right hge] at hk
    rw [List.mem_singleton.mp (List.mem_of_getElem? hk)] at hp
    cases hp

end Replies

section Numbered
variable {config : Config} {role : Role} {label : DeferLabel} {n : SequenceNumber} {r : Nat} {q : ReplyPhase}
  {replies : List (SequenceNumber × Bool)} {answered : List Nat}

theorem ReplyNext.isSome (h : ReplyNext d k q replies answered) (hl : (replies.lookup n).isSome) :
    (d.session.deferredReplies.lookup n).isSome := by
  cases h with
  | reserve | giveBack => rwa [Assoc.lookup_assign_isSome] at hl
  | free =>
    by_cases hn : n = k.request.sequenceNumber
    · rw [hn, Assoc.lookup_remove_self] at hl; cases hl
    · rwa [Assoc.lookup_remove_ne hn] at hl
  | _ => exact hl

theorem ReplyNext.length_le (h : ReplyNext d k q replies answered) :
    replies.length ≤ d.session.deferredReplies.length := by
  cases h with
  | reserve | giveBack => rw [Assoc.length_assign]
  | free => exact Assoc.length_remove_le
  | _ => exact Nat.le_refl _

theorem latest_of_isSome (h : (Assoc.latest d.registrations n).isSome) :
    Assoc.latest d.registrations n = some (d.current n) := by
  obtain ⟨r, hr⟩ := Option.isSome_iff_exists.mp h
  rw [current, hr]
  rfl

theorem lt_of_latest (h : Assoc.latest d.registrations n = some r) : r < d.registrations.length := by
  have := (List.getElem?_eq_some_iff.mp (Assoc.getElem?_latest h)).1
  rwa [List.length_reverse] at this

theorem ReplyNext.registration (h : ReplyNext d k q replies answered) (hq : q.registration = some r) :
    k.phase.registration = some r ∨
    (k.phase = .reserving ∧ d.session.deferredReplies.lookup k.request.sequenceNumber = some false ∧
      r = d.current k.request.sequenceNumber) := by
  cases h with
  | unreserved _ hnone => rw [hnone] at hq; cases hq
  | reserve hp hl => cases hq; exact .inr ⟨hp, hl, rfl⟩
  | encode hp | send hp => rw [hp]; exact .inl hq
  | fail hp =>
    rcases hp with hp | ⟨item, hp, -⟩ <;> rw [hp] <;> exact .inl hq
  | free | giveBack | lost => cases hq

theorem Numbered.reply_step (h : Numbered config d) (hk : d.replies[i]? = some k) {session : Session}
    (hnext : ReplyNext d k q session.deferredReplies answered) (hc : session.config = d.session.config) :
    Numbered config { d with session, answered, replies := d.replies.modify i fun k => { k with phase := q } } where
  configured := hc.trans h.configured
  bounded := hnext.length_le.trans h.bounded
  answered r hr := by
    generalize session.deferredReplies = replies at hnext
    cases hnext with
    | @send r' item hp =>
      rcases List.mem_cons.mp hr with rfl | hr
      · have := (List.getElem?_eq_some_iff.mp (h.holder ⟨k, hk, rfl, by rw [hp]; rfl⟩)).1
        rwa [List.length_reverse] at this
      · exact h.answered r hr
    | _ => exact h.answered r hr
  abandoned := h.abandoned
  registered hl := h.registered (hnext.isSome hl)
  holder {j n r} hh := by
    obtain ⟨k', hk', hn, hp⟩ := hh
    rcases getElem?_goto hk hk' with ⟨rfl, rfl⟩ | ⟨-, hk'⟩
    · rcases hnext.registration hp with hp | ⟨-, hl, rfl⟩
      · exact h.holder ⟨k, hk, hn, hp⟩
      · rw [← hn]
        exact Assoc.getElem?_latest (latest_of_isSome (h.registered (by rw [hl]; rfl)))
    · exact h.holder ⟨k', hk', hn, hp⟩
  freed {n r} hl hr ha := by
    -- the call that answered it is another one, or it has just done so
    have hother (ha : r ∈ d.answered) : ∃ (j : Nat) (k' : Reply),
        (d.replies.modify i fun k => { k with phase := q })[j]? = some k' ∧ k'.request.sequenceNumber = n ∧
        k'.phase = .releasing r none := by
      obtain ⟨j, k', hk', hn, hp⟩ := h.freed (hnext.isSome hl) hr ha
      by_cases hj : j = i
      · subst hj
        rw [hk] at hk'
        cases hk'
        generalize session.deferredReplies = replies at hnext hl
        cases hnext with
        | unreserved hnone => rw [hp] at hnone; cases hnone
        | free => rw [← hn, Assoc.lookup_remove_self] at hl; cases hl
        | fail hp' => rcases hp' with hp' | ⟨item, hp', -⟩ <;> rw [hp] at hp' <;> cases hp'
        | reserve hp' | encode hp' | send hp' | giveBack hp' | lost hp' => rw [hp] at hp'; cases hp'
      · exact ⟨j, k', (getElem?_goto_ne hj).trans hk', hn, hp⟩
    generalize hs : session.deferredReplies = replies at hnext
    cases hnext with
    | @send r' item hp =>
      rcases List.mem_cons.mp ha with rfl | ha
      · have hown := h.holder ⟨k, hk, rfl, by rw [hp]; rfl⟩
        have hn : k.request.sequenceNumber = n :=
          Option.some.inj (hown.symm.trans (Assoc.getElem?_latest hr))
        exact ⟨i, _, getElem?_goto_self hk, hn, rfl⟩
      · exact hother ha
    | _ => exact hother ha

theorem Numbered.session_step (h : Numbered config d) {l : Label} {session : Session} (hs : d.session.step l = some session) :
    Numbered config { d with session, registrations := (d.session.registers l).toList ++ d.registrations } := by
  have hconfig : session.config = config := (step_config hs).trans h.configured
  cases step_deferred hs with
  | keep hreg hd =>
    rw [hreg]
    exact ⟨hconfig, by rw [hd]; exact h.bounded, h.answered, h.abandoned, fun hl => h.registered (by rwa [hd] at hl), h.holder,
      fun hl => h.freed (by rwa [hd] at hl)⟩
  | clear hreg hd =>
    rw [hreg]
    exact ⟨hconfig, by rw [hd]; exact Nat.zero_le _, h.answered, h.abandoned, fun hl => (by rw [hd] at hl; cases hl), h.holder,
      fun hl => (by rw [hd] at hl; cases hl)⟩
  | register m hreg hnone hlt hd =>
    rw [hreg]
    have hlookup {n : SequenceNumber} (hne : n ≠ m) :
        session.deferredReplies.lookup n = d.session.deferredReplies.lookup n := by
      rw [hd, List.lookup_cons, beq_eq_false_iff_ne.mpr hne]
    refine ⟨hconfig, ?_, fun r hr => Nat.lt_succ_of_lt (h.answered r hr), fun r hr => Nat.lt_succ_of_lt (h.abandoned r hr), ?_,
      ?_, ?_⟩
    · rw [hd, ← h.configured]
      exact hlt
    · intro n hl
      show (Assoc.latest (m :: d.registrations) n).isSome
      by_cases hn : m = n
      · rw [hn, Assoc.latest_cons_self]; rfl
      · rw [Assoc.latest_cons_ne _ hn]
        exact h.registered (by rwa [hlookup (Ne.symm hn)] at hl)
    · intro i n r hh
      show (m :: d.registrations).reverse[r]? = some n
      rw [List.reverse_cons]
      exact getElem?_append_some (h.holder hh) _
    · intro n r hl hr ha
      have hr : Assoc.latest (m :: d.registrations) n = some r := hr
      by_cases hn : m = n
      · rw [hn, Assoc.latest_cons_self] at hr
        cases hr
        exact absurd (h.answered _ ha) (Nat.lt_irrefl _)
      · rw [Assoc.latest_cons_ne _ hn] at hr
        exact h.freed (by rwa [hlookup (Ne.symm hn)] at hl) hr ha

theorem Numbered.step (h : Numbered config d) (hs : d.step label = some d') : Numbered config d' := by
  cases step_next hs with
  | session hst => exact h.session_step hst
  | respond =>
    refine ⟨h.configured, h.bounded, h.answered, h.abandoned, h.registered, fun hh => h.holder hh.of_respond, ?_⟩
    intro n r hl hr ha
    obtain ⟨i, k, hk, hn, hp⟩ := h.freed hl hr ha
    exact ⟨i, k, getElem?_append_some hk _, hn, hp⟩
  | reply hk hnext _ hc => exact h.reply_step hk hnext hc
  | @abandon request hl =>
    have hsome {n : SequenceNumber}
        (hn : ((Assoc.remove d.session.deferredReplies request.sequenceNumber).lookup n).isSome) :
        (d.session.deferredReplies.lookup n).isSome := by
      by_cases he : n = request.sequenceNumber
      · rw [he, Assoc.lookup_remove_self] at hn; cases hn
      · rwa [Assoc.lookup_remove_ne he] at hn
    refine ⟨h.configured, Assoc.length_remove_le.trans h.bounded, h.answered, fun r hr => ?_, fun hn => h.registered (hsome hn),
      h.holder, fun hn => h.freed (hsome hn)⟩
    rcases List.mem_cons.mp hr with rfl | hr
    · exact lt_of_latest (latest_of_isSome (h.registered (by rw [hl]; rfl)))
    · exact h.abandoned r hr
  | refused => exact h

/-! ## Numbers that are used again -/

theorem run_numbered (h : deferring.Run anyStep (newDeferring config role) d) : Numbered config d :=
  h.invariant (P := Numbered config) (fun _ _ _ _ hs hn => hn.step hs) (numbered_new config role)

theorem registerDeferredReply_eq {s : Session} {request : Header}
    (hnone : s.deferredReplies.lookup request.sequenceNumber = none) : s.registerDeferredReply request =
      if s.config.maxDeferredResponses ≤ s.deferredReplies.length then .error (.sentinel .deferredResponseLimit)
      else .ok { s with deferredReplies := (request.sequenceNumber, false) :: s.deferredReplies } := by
  unfold registerDeferredReply
  rw [hnone]
  rfl

/-- **An answered sequence number can be used again.** In every state of every run, if the handler defers the reply to a
request under a number whose latest registration has had its response queued, and no call that has queued a response under
it has yet to remove the reservation: the request is not refused as busy, and it is registered if there is room. -/
theorem run_reusable {l : Label} {request : Header} (h : deferring.Run anyStep (newDeferring config role) d)
    (hfree : ∀ k ∈ d.replies, k.unfreed request.sequenceNumber = false) (hdefers : d.session.defers l = some request)
    (hr : Assoc.latest d.registrations request.sequenceNumber = some r) (ha : r ∈ d.answered)
    (hs : d.step (.session l) = some d') :
    d'.session.rx ≠ .failing (.sentinel .deferredResponseBusy) ∧
    (d.session.deferredReplies.length < config.maxDeferredResponses →
      d'.registrations = request.sequenceNumber :: d.registrations ∧
      d'.session.deferredReplies.lookup request.sequenceNumber = some false ∧ d'.session.rx = .reading) := by
  have hn := run_numbered h
  have hnone : d.session.deferredReplies.lookup request.sequenceNumber = none := by
    by_contra hne
    obtain ⟨i, k, hk, hseq, hp⟩ := hn.freed (Option.isSome_iff_ne_none.mpr hne) hr ha
    have := hfree k (List.mem_of_getElem? hk)
    rw [Reply.unfreed, hseq, hp, beq_self_eq_true] at this
    cases this
  obtain ⟨s', hs', hd'⟩ := Option.bind_eq_some_iff.mp hs
  cases hd'
  have hstep := step_defers hdefers hs'
  rw [registerDeferredReply_eq hnone, hn.configured] at hstep
  by_cases hroom : config.maxDeferredResponses ≤ d.session.deferredReplies.length
  · rw [if_pos hroom] at hstep
    refine ⟨?_, fun hlt => absurd hroom (Nat.not_le_of_lt hlt)⟩
    rw [hstep]
    exact nofun
  · rw [if_neg hroom] at hstep
    have hreg : d.session.registers l = some request.sequenceNumber := by
      unfold registers
      rw [hdefers, Option.bind_some, registerDeferredReply_eq hnone, hn.configured, if_neg hroom]
      rfl
    refine ⟨by rw [hstep]; exact nofun, fun _ => ⟨by rw [hreg]; rfl, ?_, by rw [hstep]⟩⟩
    rw [hstep, List.lookup_cons, beq_self_eq_true]

def bound : List DeferLabel := (received acceptedBind ++ List.replicate 4 (Label.task .rx)).map .session

/-- The RX loop takes a `deliver_sm` with sequence number 7 and empty fields, up to the handler. -/
def takesDeliver : List DeferLabel :=
  [.session (.frame ([0, 0, 0, 33, 0, 0, 0, 5, 0, 0, 0, 0, 0, 0, 0, 7] ++ List.replicate 17 0)), .session (.rx .go)]

def defersReply : DeferLabel :=
  .session (.rx (.handled (.returned (.ok { status := statusOK, body := emptyBody, action := .deferred }))))

def deliverHeader : Header :=
  { commandLength := 33, commandID := commandDeliverSM, commandStatus := statusOK, sequenceNumber := 7 }

/-- `RespondDeferred` is called for it, with the body. -/
def responds (body : Struct) : DeferLabel := .respond deliverHeader { status := statusOK, body := .struct body }

/-- A `deliver_sm_resp` with an empty `message_id`. -/
def deliverReply : Struct := .deliverSMResp { messageID := [], optional := [] }

def calls (i steps : Nat) : List DeferLabel := List.replicate steps (.reply i .go)

/-- The reply is written to the connection before the call has gone on to remove the reservation. -/
def slotNotFreed : List DeferLabel :=
  bound ++ takesDeliver ++ [defersReply, responds deliverReply] ++ calls 0 4 ++ List.replicate 6 (.session (.tx .go))

theorem run_reusable_freed : ∃ d d', deferring.Run anyStep (newDeferring { handler := true } .esme) d ∧
    d.step defersReply = some d' ∧ d'.registrations = 7 :: d.registrations ∧
    d'.session.deferredReplies.lookup 7 = some false ∧ d'.session.rx = .reading := by
  let d := deferring.after anyStep (newDeferring { handler := true } .esme) (slotNotFreed ++ calls 0 1 ++ takesDeliver)
  have hrun : deferring.Run anyStep (newDeferring { handler := true } .esme) d := System.run_after _ _ _ _ (by decide +kernel)
  obtain ⟨d', hd'⟩ := Option.isSome_iff_exists.mp (show (d.step defersReply).isSome by decide +kernel)
  have hfree : ∀ k ∈ d.replies, k.unfreed deliverHeader.sequenceNumber = false := by decide +kernel
  have hlatest : Assoc.latest d.registrations deliverHeader.sequenceNumber = some 0 := by decide +kernel
  have hreuse := run_reusable hrun hfree (by decide +kernel) hlatest (by decide +kernel) hd'
  exact ⟨d, d', hrun, hd', hreuse.2 (by decide +kernel)⟩

/-- The peer uses the number again once it has the reply, the handler defers it, and the session ends. -/
theorem slotNotFreed_busy : ∃ d d', deferring.Run anyStep (newDeferring { handler := true } .esme) d ∧
    [0, 0, 0, 17, 0x80, 0, 0, 5, 0, 0, 0, 0, 0, 0, 0, 7, 0] ∈ d.session.wire ∧ d.registrations = [7] ∧
    d.session.termination = .running ∧ d.session.deferredReplies.length < 1024 ∧ deferring.Run anyStep d d' ∧
    d'.registrations = [7] ∧ d'.session.closeErr = some (.sentinel .deferredResponseBusy) :=
  ⟨_, _, System.run_after deferring anyStep (newDeferring { handler := true } .esme) slotNotFreed (by decide +kernel),
    by decide +kernel, by decide +kernel, by decide +kernel, by decide +kernel,
    System.run_after deferring anyStep _ (takesDeliver ++ [defersReply, .session (.rx .go)]) (by decide +kernel),
    by decide +kernel, by decide +kernel⟩

end Numbered

/-! ## One reply for each registration -/

/-- The step registers no number under which a call is sending a reply. -/
def Unshared (d : Deferring) : DeferLabel → Prop
  | .session label => ∀ n ∈ d.session.registers label, ∀ k ∈ d.replies, k.request.sequenceNumber = n →
      k.phase.registration = none
  | _ => True

instance (d : Deferring) : (label : DeferLabel) → Decidable (Unshared d label)
  | .session label =>
    match h : d.session.registers label with
    | none => .isTrue fun n hn => by rw [h] at hn; cases hn
    | some n =>
      decidable_of_iff (∀ k ∈ d.replies, k.request.sequenceNumber = n → k.phase.registration = none)
        (by simp only [Unshared, h, Option.mem_some_iff, forall_eq'])
  | .respond _ _ | .reply _ _ | .abandon _ => .isTrue trivial

/-- What holds in every run whose steps are `Unshared`. -/
structure OneShot (config : Config) (d : Deferring) : Prop extends Numbered config d where
  /-- a reservation that is not marked is waiting for its reply -/
  free : ∀ {n r}, d.session.deferredReplies.lookup n = some false → Assoc.latest d.registrations n = some r →
    r ∉ d.answered ∧ r ∉ d.abandoned ∧ ∀ i r', ¬ d.Holds i n r'
  held : ∀ {i n r}, d.Holds i n r → Assoc.latest d.registrations n = some r ∧ r ∉ d.abandoned
  one : ∀ {i j n r r'}, d.Holds i n r → d.Holds j n r' → i = j
  unanswered : ∀ {i : Nat} {k : Reply} {r}, d.replies[i]? = some k → k.phase.unanswered = some r → r ∉ d.answered
  /-- as long as the session is alive the reservation is where the call has marked it -/
  busy : ∀ {i n r}, d.session.termination.done = false → d.Holds i n r → d.session.deferredReplies.lookup n = some true
  nodup : d.answered.Nodup
  apart : ∀ r ∈ d.abandoned, r ∉ d.answered

section OneShot
variable {config : Config} {role : Role} {label : DeferLabel} {m n : SequenceNumber} {j r r' : Nat} {q : ReplyPhase}
  {replies : List (SequenceNumber × Bool)} {answered : List Nat} {session : Session}

theorem oneShot_new (config : Config) (role : Role) : OneShot config (newDeferring config role) where
  toNumbered := numbered_new config role
  free h := by cases h
  held h := by obtain ⟨k, hk, -⟩ := h; cases hk
  one h := by obtain ⟨k, hk, -⟩ := h; cases hk
  unanswered h := by cases h
  busy _ h := by obtain ⟨k, hk, -⟩ := h; cases hk
  nodup := List.nodup_nil
  apart _ h := (List.not_mem_nil h).elim

theorem registration_of_unanswered {p : ReplyPhase} (h : p.unanswered = some r) : p.registration = some r := by
  unfold ReplyPhase.unanswered at h
  split at h <;> first | exact h | cases h

theorem Numbered.number_eq (h : Numbered config d) (hh : d.Holds i n r) (hl : Assoc.latest d.registrations m = some r) : n = m :=
  Option.some.inj ((h.holder hh).symm.trans (Assoc.getElem?_latest hl))

theorem Holds.of_goto (hk : d.replies[i]? = some k)
    (h : Holds { d with session, answered, replies := d.replies.modify i fun k => { k with phase := q } } j n r) :
    (j = i ∧ n = k.request.sequenceNumber ∧ q.registration = some r) ∨ (j ≠ i ∧ d.Holds j n r) := by
  obtain ⟨k', hk', hn, hp⟩ := h
  rcases getElem?_goto hk hk' with ⟨rfl, rfl⟩ | ⟨hne, hk'⟩
  · exact .inl ⟨rfl, hn.symm, hp⟩
  · exact .inr ⟨hne, k', hk', hn, hp⟩

section Reply
variable (h : OneShot config d) (hk : d.replies[i]? = some k) (hnext : ReplyNext d k q replies answered)
include h hk hnext

theorem OneShot.holds_next (hq : q.registration = some r) : d.Holds i k.request.sequenceNumber r ∨
    (d.session.deferredReplies.lookup k.request.sequenceNumber = some false ∧
      Assoc.latest d.registrations k.request.sequenceNumber = some r) := by
  rcases hnext.registration hq with hp | ⟨-, hl, rfl⟩
  · exact .inl ⟨k, hk, rfl, hp⟩
  · exact .inr ⟨hl, latest_of_isSome (h.registered (by rw [hl]; rfl))⟩

theorem OneShot.held_next (hq : q.registration = some r) :
    Assoc.latest d.registrations k.request.sequenceNumber = some r ∧ r ∉ d.abandoned := by
  rcases h.holds_next hk hnext hq with hh | ⟨hl, hr⟩
  · exact h.held hh
  · exact ⟨hr, (h.free hl hr).2.1⟩

theorem OneShot.one_next (hne : j ≠ i) (hq : q.registration = some r) (hh : d.Holds j k.request.sequenceNumber r') : False := by
  rcases h.holds_next hk hnext hq with hown | ⟨hl, hr⟩
  · exact hne (h.one hh hown)
  · exact (h.free hl hr).2.2 j r' hh

theorem OneShot.answered_next (hr : r ∈ answered) : r ∈ d.answered ∨
    (d.Holds i k.request.sequenceNumber r ∧ r ∉ d.answered ∧ answered = r :: d.answered ∧ q = .releasing r none) := by
  cases hnext with
  | @send r' item hp =>
    rcases List.mem_cons.mp hr with rfl | hr
    · exact .inr ⟨⟨k, hk, rfl, by rw [hp]; rfl⟩, h.unanswered hk (by rw [hp]; rfl), rfl, rfl⟩
    · exact .inl hr
  | _ => exact .inl hr

theorem OneShot.nodup_next : answered.Nodup := by
  cases hnext with
  | send hp => exact List.nodup_cons.mpr ⟨h.unanswered hk (by rw [hp]; rfl), h.nodup⟩
  | _ => exact h.nodup

theorem OneShot.unanswered_next (hq : q.unanswered = some r) : r ∉ d.answered := by
  cases hnext with
  | unreserved _ hnone => rw [registration_of_unanswered hq] at hnone; cases hnone
  | reserve _ hl =>
    cases hq
    exact (h.free hl (latest_of_isSome (h.registered (by rw [hl]; rfl)))).1
  | encode hp => exact h.unanswered hk (by rw [hp]; exact hq)
  | fail hp => rcases hp with hp | ⟨item, hp, -⟩ <;> exact h.unanswered hk (by rw [hp]; exact hq)
  | send | free | giveBack | lost => cases hq

theorem OneShot.lookup_next (hd : d.session.termination.done = false) (hne : j ≠ i) (hh : d.Holds j n r) :
    replies.lookup n = some true := by
  have hbusy := h.busy hd hh
  cases hnext with
  | reserve _ hl =>
    by_cases hn : n = k.request.sequenceNumber
    · rw [hn, hl] at hbusy; cases hbusy
    · rwa [Assoc.lookup_assign_ne hn]
  | free hp | giveBack hp =>
    have hn : n ≠ k.request.sequenceNumber := by
      rintro rfl
      exact hne (h.one hh ⟨k, hk, rfl, by rw [hp]; rfl⟩)
    first | rwa [Assoc.lookup_remove_ne hn] | rwa [Assoc.lookup_assign_ne hn]
  | _ => exact hbusy

theorem OneShot.busy_next (hd : d.session.termination.done = false) (hq : q.registration = some r) :
    replies.lookup k.request.sequenceNumber = some true := by
  have hown {r : Nat} (hp : k.phase.registration = some r) :
      d.session.deferredReplies.lookup k.request.sequenceNumber = some true := h.busy hd ⟨k, hk, rfl, hp⟩
  cases hnext with
  | unreserved _ hnone => rw [hnone] at hq; cases hq
  | reserve _ hl => exact Assoc.lookup_assign_self (by rw [hl]; rfl)
  | encode hp | send hp => exact hown (by rw [hp]; rfl)
  | fail hp => rcases hp with hp | ⟨item, hp, -⟩ <;> exact hown (by rw [hp]; rfl)
  | free | giveBack | lost => cases hq

theorem OneShot.free_next (hl : replies.lookup n = some false) :
    (d.session.deferredReplies.lookup n = some false ∧ (q.registration ≠ none → n ≠ k.request.sequenceNumber)) ∨
    (n = k.request.sequenceNumber ∧ q.registration = none ∧ answered = d.answered ∧
      ∃ r, d.Holds i n r ∧ r ∉ d.answered) := by
  have hown {r : Nat} (hp : k.phase.registration = some r) (hl : d.session.deferredReplies.lookup n = some false) :
      n ≠ k.request.sequenceNumber := by
    rintro rfl
    have hreg := latest_of_isSome (h.registered (by rw [hl]; rfl))
    exact (h.free hl hreg).2.2 i r ⟨k, hk, rfl, hp⟩
  cases hnext with
  | unreserved _ hnone => exact .inl ⟨hl, fun hne => absurd hnone hne⟩
  | reserve _ hl' =>
    have hn : n ≠ k.request.sequenceNumber := by
      rintro rfl
      rw [Assoc.lookup_assign_self (by rw [hl']; rfl)] at hl
      cases hl
    rw [Assoc.lookup_assign_ne hn] at hl
    exact .inl ⟨hl, fun _ => hn⟩
  | encode hp | send hp => exact .inl ⟨hl, fun _ => hown (by rw [hp]; rfl) hl⟩
  | fail hp => rcases hp with hp | ⟨item, hp, -⟩ <;> exact .inl ⟨hl, fun _ => hown (by rw [hp]; rfl) hl⟩
  | free =>
    have hn : n ≠ k.request.sequenceNumber := by
      rintro rfl
      rw [Assoc.lookup_remove_self] at hl
      cases hl
    rw [Assoc.lookup_remove_ne hn] at hl
    exact .inl ⟨hl, fun _ => hn⟩
  | @giveBack r err hp =>
    by_cases hn : n = k.request.sequenceNumber
    · exact .inr ⟨hn, rfl, rfl, r, ⟨k, hk, hn.symm, by rw [hp]; rfl⟩, h.unanswered hk (by rw [hp]; rfl)⟩
    · rw [Assoc.lookup_assign_ne hn] at hl
      exact .inl ⟨hl, fun _ => hn⟩
  | lost => exact .inl ⟨hl, fun hne => absurd rfl hne⟩

end Reply

theorem OneShot.reply_step (h : OneShot config d) (hk : d.replies[i]? = some k)
    (hnext : ReplyNext d k q session.deferredReplies answered) (ht : session.termination = d.session.termination)
    (hc : session.config = d.session.config) :
    OneShot config { d with session, answered, replies := d.replies.modify i fun k => { k with phase := q } } where
  toNumbered := h.toNumbered.reply_step hk hnext hc
  free {n r} hl hr := by
    rcases h.free_next hk hnext hl with ⟨hl, hn⟩ | ⟨rfl, hq, rfl, r', hh, hnot⟩
    · obtain ⟨hans, hab, hno⟩ := h.free hl hr
      refine ⟨fun hmem => ?_, hab, fun j r' hh => ?_⟩
      · rcases h.answered_next hk hnext hmem with hmem | ⟨hh, -, -, hq⟩
        · exact hans hmem
        · exact hn (by rw [hq]; exact nofun) (h.number_eq hh hr).symm
      · rcases hh.of_goto hk with ⟨-, hn', hq⟩ | ⟨-, hh⟩
        · exact hn (by rw [hq]; exact nofun) hn'
        · exact hno j r' hh
    · obtain ⟨hr', hab⟩ := h.held hh
      obtain rfl : r' = r := Option.some.inj (hr'.symm.trans hr)
      refine ⟨hnot, hab, fun j r' hh' => ?_⟩
      rcases hh'.of_goto hk with ⟨-, -, hq'⟩ | ⟨hne, hh'⟩
      · rw [hq] at hq'; cases hq'
      · exact hne (h.one hh' hh)
  held hh := by
    rcases hh.of_goto hk with ⟨-, rfl, hq⟩ | ⟨-, hh⟩
    · exact h.held_next hk hnext hq
    · exact h.held hh
  one {i' j n r r'} hi hj := by
    rcases hi.of_goto hk with ⟨hi, hn, hq⟩ | ⟨hne, hi⟩ <;> rcases hj.of_goto hk with ⟨hj, hn', hq'⟩ | ⟨hne', hj⟩
    · exact hi.trans hj.symm
    · exact (h.one_next hk hnext hne' hq (hn ▸ hj)).elim
    · exact (h.one_next hk hnext hne hq' (hn' ▸ hi)).elim
    · exact h.one hi hj
  unanswered {j k' r} hk' hp hmem := by
    rcases getElem?_goto hk hk' with ⟨rfl, rfl⟩ | ⟨hne, hk'⟩
    · rcases h.answered_next hk hnext hmem with hmem | ⟨-, -, -, rfl⟩
      · exact h.unanswered_next hk hnext hp hmem
      · cases hp
    · rcases h.answered_next hk hnext hmem with hmem | ⟨hh, -, -, -⟩
      · exact h.unanswered hk' hp hmem
      · have hj : d.Holds j k'.request.sequenceNumber r := ⟨k', hk', rfl, registration_of_unanswered hp⟩
        have hn := h.number_eq hj (h.held hh).1
        exact hne (h.one (hn ▸ hj) hh)
  busy hd hh := by
    have hd : d.session.termination.done = false := ht ▸ hd
    rcases hh.of_goto hk with ⟨-, rfl, hq⟩ | ⟨hne, hh⟩
    · exact h.busy_next hk hnext hd hq
    · exact h.lookup_next hk hnext hd hne hh
  nodup := h.nodup_next hk hnext
  apart r hr hmem := by
    rcases h.answered_next hk hnext hmem with hmem | ⟨hh, -⟩
    · exact h.apart r hr hmem
    · exact (h.held hh).2 hr

theorem OneShot.session_step (h : OneShot config d) {l : Label} (hs : d.session.step l = some session)
    (hok : Unshared d (.session l)) :
    OneShot config { d with session, registrations := (d.session.registers l).toList ++ d.registrations } := by
  have hn := h.toNumbered.session_step hs
  -- `done` is not closed after the step, so it was not before
  have hdone (hd : session.termination.done = false) : d.session.termination.done = false := by
    by_contra hne
    rw [step_done hs (eq_true_of_ne_false hne)] at hd
    cases hd
  cases step_deferred hs with
  | keep hreg hd =>
    rw [hreg] at hn ⊢
    exact { hn with
      free := fun hl => h.free (hd ▸ hl)
      held := h.held
      one := h.one
      unanswered := h.unanswered
      busy := fun hnot hh => hd ▸ h.busy (hdone hnot) hh
      nodup := h.nodup
      apart := h.apart }
  | clear hreg hd ht =>
    rw [hreg] at hn ⊢
    exact { hn with
      free := fun hl => by rw [hd] at hl; cases hl
      held := h.held
      one := h.one
      unanswered := h.unanswered
      busy := fun hnot => by rw [ht] at hnot; cases hnot
      nodup := h.nodup
      apart := h.apart }
  | register m hreg hnone hlt hd =>
    rw [hreg] at hn ⊢
    have hlookup {n : SequenceNumber} (hne : n ≠ m) :
        session.deferredReplies.lookup n = d.session.deferredReplies.lookup n := by
      rw [hd, List.lookup_cons, beq_eq_false_iff_ne.mpr hne]
    have hunheld {i r : Nat} (hh : d.Holds i m r) : False := by
      obtain ⟨k, hk, hnum, hp⟩ := hh
      rw [hok m hreg k (List.mem_of_getElem? hk) hnum] at hp
      cases hp
    exact { hn with
      free := fun {n r} hl hr => by
        have hr : Assoc.latest (m :: d.registrations) n = some r := hr
        by_cases he : m = n
        · subst he
          rw [Assoc.latest_cons_self] at hr
          cases hr
          exact ⟨fun hmem => Nat.lt_irrefl _ (h.answered _ hmem), fun hmem => Nat.lt_irrefl _ (h.abandoned _ hmem),
            fun i r' hh => hunheld hh⟩
        · rw [Assoc.latest_cons_ne _ he] at hr
          exact h.free (hlookup (Ne.symm he) ▸ hl) hr
      held := fun {i n r} hh => by
        have he : m ≠ n := by rintro rfl; exact hunheld hh
        obtain ⟨hr, hab⟩ := h.held hh
        exact ⟨(Assoc.latest_cons_ne _ he).trans hr, hab⟩
      one := h.one
      unanswered := h.unanswered
      busy := fun {i n r} hnot hh => by
        have he : n ≠ m := by rintro rfl; exact hunheld hh
        exact (hlookup he).trans (h.busy (hdone hnot) hh)
      nodup := h.nodup
      apart := h.apart }

theorem OneShot.abandon_step (h : OneShot config d) {request : Header}
    (hl : d.session.deferredReplies.lookup request.sequenceNumber = some false)
    (hn : Numbered config { d.setReplies (Assoc.remove d.session.deferredReplies request.sequenceNumber) with
      abandoned := d.current request.sequenceNumber :: d.abandoned }) :
    OneShot config { d.setReplies (Assoc.remove d.session.deferredReplies request.sequenceNumber) with
      abandoned := d.current request.sequenceNumber :: d.abandoned } := by
  have hreg := latest_of_isSome (h.registered (by rw [hl]; rfl))
  obtain ⟨hans, -, hno⟩ := h.free hl hreg
  have hunheld {i r : Nat} {n : SequenceNumber} (hh : d.Holds i n r) : n ≠ request.sequenceNumber := by
    rintro rfl
    exact hno i r hh
  exact { hn with
    free := fun {n r} hl' hr => by
      have hl' : (Assoc.remove d.session.deferredReplies request.sequenceNumber).lookup n = some false := hl'
      have hne : n ≠ request.sequenceNumber := by
        rintro rfl
        rw [Assoc.lookup_remove_self] at hl'
        cases hl'
      rw [Assoc.lookup_remove_ne hne] at hl'
      obtain ⟨ha, hb, hc⟩ := h.free hl' hr
      refine ⟨ha, fun hmem => ?_, hc⟩
      rcases List.mem_cons.mp hmem with rfl | hmem
      · have hr : Assoc.latest d.registrations n = some (d.current request.sequenceNumber) := hr
        exact hne (Option.some.inj ((Assoc.getElem?_latest hr).symm.trans (Assoc.getElem?_latest hreg)))
      · exact hb hmem
    held := fun {i n r} hh => by
      obtain ⟨hr, hab⟩ := h.held hh
      refine ⟨hr, fun hmem => ?_⟩
      rcases List.mem_cons.mp hmem with rfl | hmem
      · exact hunheld hh (h.number_eq hh hreg)
      · exact hab hmem
    one := h.one
    unanswered := h.unanswered
    busy := fun hnot hh => (Assoc.lookup_remove_ne (hunheld hh)).trans (h.busy hnot hh)
    nodup := h.nodup
    apart := fun r hr => by
      rcases List.mem_cons.mp hr with rfl | hr
      · exact hans
      · exact h.apart r hr }

/-- The step lemma. -/
theorem OneShot.step (h : OneShot config d) (hok : Unshared d label) (hs : d.step label = some d') : OneShot config d' := by
  have hn := h.toNumbered.step hs
  cases step_next hs with
  | session hst => exact h.session_step hst hok
  | respond =>
    exact { hn with
      free := fun hl hr => ⟨(h.free hl hr).1, (h.free hl hr).2.1, fun i r' hh => (h.free hl hr).2.2 i r' hh.of_respond⟩
      held := fun hh => h.held hh.of_respond
      one := fun hi hj => h.one hi.of_respond hj.of_respond
      unanswered := fun {i k r} hk hp => by
        have hh : d.Holds i k.request.sequenceNumber r :=
          Holds.of_respond ⟨k, hk, rfl, registration_of_unanswered hp⟩
        obtain ⟨k', hk', -⟩ := hh
        have hlt := (List.getElem?_eq_some_iff.mp hk').1
        exact h.unanswered (by rwa [List.getElem?_append_left hlt] at hk) hp
      busy := fun hnot hh => h.busy hnot hh.of_respond
      nodup := h.nodup
      apart := h.apart }
  | reply hk hnext ht hc => exact h.reply_step hk hnext ht hc
  | abandon hl => exact h.abandon_step hl hn
  | refused => exact h

/-- **Deferred replies are one-shot.** In every run, with any number of calls, in which no number is registered while a call
is sending a reply under it: no registration is answered twice, none that was abandoned is answered, there are no more
reservations than `MaxDeferredResponses`, and a call that returns an error while the session is alive, and had marked a
reservation, leaves it for another one. -/
theorem run_oneShot (h : deferring.Run Unshared (newDeferring config role) d) :
    d.answered.Nodup ∧ (∀ r ∈ d.abandoned, r ∉ d.answered) ∧
    (∀ r, r ∈ d.answered ∨ r ∈ d.abandoned → r < d.registrations.length) ∧
    d.session.deferredReplies.length ≤ config.maxDeferredResponses ∧
    ∀ (i : Nat) (arm : Arm) (k k' : Reply) (err : Err) (d' : Deferring), d.replies[i]? = some k →
      d.step (.reply i arm) = some d' → d'.replies[i]? = some k' → k'.phase = .returned (some err) →
      d.session.termination.done = false →
      (k.phase.registration = none ∧ d'.session.deferredReplies = d.session.deferredReplies) ∨
      d'.session.deferredReplies.lookup k.request.sequenceNumber = some false := by
  have ho : OneShot config d :=
    h.invariant (P := OneShot config) (fun _ _ _ hok hs ho => ho.step hok hs) (oneShot_new config role)
  refine ⟨ho.nodup, ho.apart, fun r hr => hr.elim (ho.answered r) (ho.abandoned r), ho.bounded, ?_⟩
  intro i arm k k' err d' hk hs hk' hp hd
  cases step_next hs with
  | @reply _ _ k₀ q session answered hk₀ hnext =>
    obtain rfl : k₀ = k := Option.some.inj (hk₀.symm.trans hk)
    have hq : q = .returned (some err) := by
      rw [getElem?_goto_self hk] at hk'
      cases hk'
      exact hp
    subst hq
    show _ ∨ session.deferredReplies.lookup _ = some false
    change (_ ∧ session.deferredReplies = _) ∨ _
    generalize session.deferredReplies = replies at hnext ⊢
    cases hnext with
    | unreserved hnone => exact .inl ⟨hnone, rfl⟩
    | giveBack _ hl => exact .inr (Assoc.lookup_assign_self hl)
    | lost hp' hl =>
      have hbusy := ho.busy hd ⟨k₀, hk, rfl, by rw [hp']; rfl⟩
      rw [hl] at hbusy
      cases hbusy

/-- A call whose response cannot be encoded: the body is not that of a `deliver_sm_resp`. -/
def unencodable : List DeferLabel :=
  bound ++ takesDeliver ++ [defersReply, responds (.bindResponse ⟨[], []⟩)] ++ calls 0 3

theorem run_oneShot_unencodable : ∃ d d', deferring.Run Unshared (newDeferring { handler := true } .esme) d ∧
    d.session.deferredReplies.lookup 7 = some true ∧ d.step (.reply 0 .go) = some d' ∧
    d'.session.deferredReplies.lookup 7 = some false := by
  let d := deferring.after Unshared (newDeferring { handler := true } .esme) unencodable
  have hrun : deferring.Run Unshared (newDeferring { handler := true } .esme) d := System.run_after _ _ _ _ (by decide +kernel)
  let err := Err.wrapped "expected protocol.DeliverSMResp, OptionalResponse or EmptyBody, got protocol.BindResponse"
    (.sentinel .invalidPDUValue)
  let k : Reply :=
    { request := deliverHeader, response := { status := statusOK, body := .struct (.bindResponse ⟨[], []⟩) }
      phase := .releasing 0 (some err) }
  have hk : d.replies[0]? = some k := by decide +kernel
  have hreturns : (d.step (.reply 0 .go)).map (fun d' => d'.replies[0]?) =
      some (some { k with phase := .returned (some err) }) := by decide +kernel
  obtain ⟨d', hd', hk'⟩ := Option.map_eq_some_iff.mp hreturns
  have hfree := (run_oneShot hrun).2.2.2.2 0 .go k _ err d' hk hd' hk' rfl (by decide +kernel)
  exact ⟨d, d', hrun, by decide +kernel, hd', hfree.resolve_left fun h => nomatch h.1⟩

/-- Three calls find the session alive. The first marks the reservation; the session ends and its reservations are cleared;
the RX loop, which was in the handler, registers the number again, and the second call marks that. The first fails, and gives
back a reservation that is not its own: the third call marks it as well, and both queue a response. -/
def sharedNumber : List DeferLabel :=
  bound ++ takesDeliver ++ defersReply :: List.replicate 3 (responds deliverReply) ++ calls 0 3 ++ calls 1 1 ++ calls 2 1 ++
  takesDeliver ++ (Label.terminate (.sentinel .sessionClosed) :: List.replicate 4 .term).map .session ++ [defersReply] ++
  calls 1 2 ++ [.reply 0 .done] ++ calls 0 1 ++ calls 2 3 ++ calls 1 1

/-- Two responses are queued for the second registration. -/
theorem sharedNumber_answered : ∃ d, deferring.Run anyStep (newDeferring { handler := true } .esme) d ∧
    d.registrations.length = 2 ∧ d.answered = [1, 1] ∧
    (d.session.queue.map fun item => (item.header.commandID, item.sequence)) =
      [(commandDeliverSMResp, 7), (commandDeliverSMResp, 7)] :=
  ⟨_, System.run_after deferring anyStep (newDeferring { handler := true } .esme) sharedNumber (by decide +kernel),
    by decide +kernel, by decide +kernel, by decide +kernel⟩

end OneShot

end Deferring

end GoSmpp.Session
