import GoSmpp.Codec.RoundTrip
import GoSmpp.Lib.Memory

/-!
# Responses that outlive the read buffer

`session/own.go`: the octets of a decoded response are borrowed from the buffer that the next frame is read into, so
`handleResponse` copies them before it hands the response over. A first pass over the body adds up the lengths of its fields, for
one arena, and a second takes a region of it for each field.

* `Body β`: the bodies that `ownDecodedPDU` tells apart, with `β` for a `[]byte`: a `View` of memory, or the octets it shows.
* `ownDecodedPDU`: the two passes, on the memory.
* `Takes`: a computation that takes fields one after another, and nothing else.
* `exists_passes`: the two passes of every body agree. `ownBody_owned`: so the regions of the result make up one new block.
* `decodePDU_switches`: every response that the standard registries decode is of a type that `ownDecodedPDU` knows, or has no
  octets.
* `ownDecodedPDU_exact`: the result is complete, the arena is as large as the fields and is used up, and the regions are apart.
-/

namespace GoSmpp.Session.Own
open Lib Protocol
open Codec hiding optional

/-! ## Bodies -/

structure Parameter (β : Type) where
  tag : UInt16
  value : β
  deriving DecidableEq, Repr

structure Unsuccessful (β : Type) where
  destAddrTON : TON
  destAddrNPI : NPI
  destinationAddr : β
  errorStatusCode : CommandStatus
  deriving DecidableEq, Repr

/-- The body types of the type switch of `ownDecodedPDU`. -/
def switchKinds : List Kind :=
  [.bindResponse, .submitSMResp, .deliverSMResp, .dataSMResp, .submitMultiResp, .querySMResp, .broadcastSMResp,
   .queryBroadcastSMResp, .optionalResponse]

/-- The type switch has a case for the value. -/
def switches : Value → Bool
  | .struct s => s.kind ∈ switchKinds
  | .raw _ => true
  | _ => false

/-- The cases of the type switch. A value of another type is passed on as it is. -/
inductive Body (β : Type) where
  | bindResponse (systemID : β) (optional : List (Parameter β))
  | submitSMResp (messageID : β) (optional : List (Parameter β))
  | deliverSMResp (messageID : β) (optional : List (Parameter β))
  | dataSMResp (messageID : β) (optional : List (Parameter β))
  | submitMultiResp (messageID : β) (unsuccessful : List (Unsuccessful β)) (optional : List (Parameter β))
  | querySMResp (messageID finalDate : β) (messageState : MessageState) (errorCode : UInt8) (optional : List (Parameter β))
  | broadcastSMResp (messageID : β) (optional : List (Parameter β))
  | queryBroadcastSMResp (messageID : β) (optional : List (Parameter β))
  | optionalResponse (optional : List (Parameter β))
  | rawBody (body : β)
  | other (value : Value) (unlisted : switches value = false)
  deriving DecidableEq, Repr

variable {β γ : Type}

def Parameter.map (f : β → γ) (p : Parameter β) : Parameter γ := ⟨p.tag, f p.value⟩

def Unsuccessful.map (f : β → γ) (u : Unsuccessful β) : Unsuccessful γ :=
  ⟨u.destAddrTON, u.destAddrNPI, f u.destinationAddr, u.errorStatusCode⟩

namespace Body

def map (f : β → γ) : Body β → Body γ
  | .bindResponse systemID optional => .bindResponse (f systemID) (optional.map (·.map f))
  | .submitSMResp messageID optional => .submitSMResp (f messageID) (optional.map (·.map f))
  | .deliverSMResp messageID optional => .deliverSMResp (f messageID) (optional.map (·.map f))
  | .dataSMResp messageID optional => .dataSMResp (f messageID) (optional.map (·.map f))
  | .submitMultiResp messageID unsuccessful optional =>
    .submitMultiResp (f messageID) (unsuccessful.map (·.map f)) (optional.map (·.map f))
  | .querySMResp messageID finalDate messageState errorCode optional =>
    .querySMResp (f messageID) (f finalDate) messageState errorCode (optional.map (·.map f))
  | .broadcastSMResp messageID optional => .broadcastSMResp (f messageID) (optional.map (·.map f))
  | .queryBroadcastSMResp messageID optional => .queryBroadcastSMResp (f messageID) (optional.map (·.map f))
  | .optionalResponse optional => .optionalResponse (optional.map (·.map f))
  | .rawBody body => .rawBody (f body)
  | .other value unlisted => .other value unlisted

/-- The octet strings of a body, in the order in which they are taken. -/
def fields : Body β → List β
  | .bindResponse name optional | .submitSMResp name optional | .deliverSMResp name optional | .dataSMResp name optional
  | .broadcastSMResp name optional | .queryBroadcastSMResp name optional => name :: optional.map (·.value)
  | .submitMultiResp messageID unsuccessful optional =>
    messageID :: (optional.map (·.value) ++ unsuccessful.map (·.destinationAddr))
  | .querySMResp messageID finalDate _ _ optional => messageID :: finalDate :: optional.map (·.value)
  | .optionalResponse optional => optional.map (·.value)
  | .rawBody body => [body]
  | .other _ _ => []

/-- The value that a body with its octets stands for. -/
def value : Body Octets → Value
  | .bindResponse systemID optional => .struct (.bindResponse ⟨systemID, optional.map parameter⟩)
  | .submitSMResp messageID optional => .struct (.submitSMResp ⟨messageID, optional.map parameter⟩)
  | .deliverSMResp messageID optional => .struct (.deliverSMResp ⟨messageID, optional.map parameter⟩)
  | .dataSMResp messageID optional => .struct (.dataSMResp ⟨messageID, optional.map parameter⟩)
  | .submitMultiResp messageID unsuccessful optional =>
    .struct (.submitMultiResp ⟨messageID, unsuccessful.map sme, optional.map parameter⟩)
  | .querySMResp messageID finalDate messageState errorCode optional =>
    .struct (.querySMResp ⟨messageID, finalDate, messageState, errorCode, optional.map parameter⟩)
  | .broadcastSMResp messageID optional => .struct (.broadcastSMResp ⟨messageID, optional.map parameter⟩)
  | .queryBroadcastSMResp messageID optional => .struct (.queryBroadcastSMResp ⟨messageID, optional.map parameter⟩)
  | .optionalResponse optional => .struct (.optionalResponse ⟨optional.map parameter⟩)
  | .rawBody body => .raw body
  | .other value _ => value
where
  parameter (p : Parameter Octets) : OptionalParameter := ⟨p.tag, p.value⟩
  sme (u : Unsuccessful Octets) : UnsuccessfulSME := ⟨u.destAddrTON, u.destAddrNPI, u.destinationAddr, u.errorStatusCode⟩

end Body

/-- `codec.DecodedPDU` in memory. -/
structure PDU where
  header : Header
  body : Body View
  deriving DecidableEq, Repr

/-- What the PDU is as long as the memory stays as it is. -/
def PDU.read (mem : Memory UInt8) (pdu : PDU) : DecodedPDU := ⟨pdu.header, (pdu.body.map mem.view).value⟩

/-! ## The two passes -/

/-- `session.responseArena`, and the memory around it. -/
structure Arena where
  memory : Memory UInt8
  buf : View := none
  /-- how often `take` has fallen back; no function reads it -/
  fallbacks : Nat := 0
  deriving DecidableEq, Repr

abbrev Owning := StateM Arena

def newResponseArena (size : Nat) : Owning Unit := fun a =>
  if size = 0 then ((), { a with buf := none })
  else
    let (memory, r) := a.memory.alloc 0 size
    ((), { a with memory, buf := some r })

def cloneBytes (src : View) : Owning View := fun a =>
  if src.length = 0 then (none, a)
  else
    let (memory, dst) := a.memory.alloc 0 src.length
    let (memory, _) := memory.copy (some dst) src
    (some dst, { a with memory })

def take (src : View) : Owning View := fun a =>
  if src.length = 0 then (none, a)
  else if a.buf.length < src.length then cloneBytes src { a with fallbacks := a.fallbacks + 1 }
  else
    let (memory, n) := a.memory.copy a.buf src
    (a.buf.upTo n, { a with memory, buf := a.buf.after n })

/-- A loop that takes one field of each element. -/
def takeEach {ε : Type} (get : ε → View) (set : ε → View → ε) : List ε → Owning (List ε)
  | [] => return []
  | e :: l => do
    let v ← take (get e)
    let rest ← takeEach get set l
    return set e v :: rest

def takeOptional (src : List (Parameter View)) : Owning (List (Parameter View)) :=
  takeEach (·.value) (fun p value => ⟨p.tag, value⟩) src

def optionalCloneSize (opts : List (Parameter View)) : Nat := opts.foldl (fun n p => n + p.value.length) 0

/-- The cases of `ownDecodedPDU` for a body that is one octet string and TLVs. -/
def ownNamed (make : View → List (Parameter View) → Body View) (name : View) (optional : List (Parameter View)) :
    Owning (Body View) := do
  newResponseArena (name.length + optionalCloneSize optional)
  let name ← take name
  let optional ← takeOptional optional
  return make name optional

/-- The type switch of `ownDecodedPDU`. -/
def ownBody : Body View → Owning (Body View)
  | .bindResponse systemID optional => ownNamed .bindResponse systemID optional
  | .submitSMResp messageID optional => ownNamed .submitSMResp messageID optional
  | .deliverSMResp messageID optional => ownNamed .deliverSMResp messageID optional
  | .dataSMResp messageID optional => ownNamed .dataSMResp messageID optional
  | .submitMultiResp messageID unsuccessful optional => do
    let size := messageID.length + optionalCloneSize optional
    newResponseArena (unsuccessful.foldl (fun size u => size + u.destinationAddr.length) size)
    let messageID ← take messageID
    let optional ← takeOptional optional
    let entries ← takeEach (·.destinationAddr) (fun u destinationAddr => { u with destinationAddr }) unsuccessful
    return .submitMultiResp messageID entries optional
  | .querySMResp messageID finalDate messageState errorCode optional => do
    newResponseArena (messageID.length + finalDate.length + optionalCloneSize optional)
    let messageID ← take messageID
    let finalDate ← take finalDate
    let optional ← takeOptional optional
    return .querySMResp messageID finalDate messageState errorCode optional
  | .broadcastSMResp messageID optional => ownNamed .broadcastSMResp messageID optional
  | .queryBroadcastSMResp messageID optional => ownNamed .queryBroadcastSMResp messageID optional
  | .optionalResponse optional => do
    newResponseArena (optionalCloneSize optional)
    let optional ← takeOptional optional
    return .optionalResponse optional
  | .rawBody body => do return .rawBody (← cloneBytes body)
  | .other value unlisted => return .other value unlisted

def ownDecodedPDU (pdu : PDU) : Owning PDU := do return { pdu with body := ← ownBody pdu.body }

/-! ## Fields one after another -/

def takeAll : List View → Owning (List View)
  | [] => return []
  | v :: vs => do
    let d ← take v
    let ds ← takeAll vs
    return d :: ds

theorem takeAll_append (vs ws : List View) (a : Arena) :
    takeAll (vs ++ ws) a =
      (((takeAll vs a).1 ++ (takeAll ws (takeAll vs a).2).1), (takeAll ws (takeAll vs a).2).2) := by
  induction vs generalizing a with
  | nil => rfl
  | cons v vs ih =>
    show ((take v a).1 :: (takeAll (vs ++ ws) (take v a).2).1, (takeAll (vs ++ ws) (take v a).2).2) = _
    rw [ih]
    rfl

theorem length_takeAll (vs : List View) (a : Arena) : (takeAll vs a).1.length = vs.length := by
  induction vs generalizing a with
  | nil => rfl
  | cons v vs ih => exact congrArg Nat.succ (ih _)

/-- The computation takes the fields, one after another, and makes of what it gets something that `rel` allows. -/
def Takes {α : Type} (m : Owning α) (vs : List View) (rel : List View → α → Prop) : Prop :=
  ∀ a, (m a).2 = (takeAll vs a).2 ∧ rel (takeAll vs a).1 (m a).1

section Takes
variable {α δ : Type} {v : View} {vs ws : List View}

theorem takes_nil (x : α) : Takes (pure x) [] fun ds y => ds = [] ∧ y = x := fun _ => ⟨rfl, rfl, rfl⟩

theorem Takes.map {m : Owning α} {f : α → δ} {P : List View → α → Prop} (hm : Takes m vs P) :
    Takes (m >>= fun x => pure (f x)) vs fun ds y => ∃ x, P ds x ∧ y = f x := fun a => ⟨(hm a).1, _, (hm a).2, rfl⟩

theorem Takes.mono {m : Owning α} {P Q : List View → α → Prop} (h : Takes m vs P) (hPQ : ∀ ds x, P ds x → Q ds x) :
    Takes m vs Q := fun a => ⟨(h a).1, hPQ _ _ (h a).2⟩

theorem takes_cons {f : View → Owning δ} {Q : View → List View → δ → Prop} (hf : ∀ d, Takes (f d) vs (Q d)) :
    Takes (take v >>= f) (v :: vs) fun ds y => ∃ d ds', ds = d :: ds' ∧ Q d ds' y := by
  intro a
  obtain ⟨ha, hQ⟩ := hf (take v a).1 (take v a).2
  exact ⟨ha, _, _, rfl, hQ⟩

theorem Takes.append {m : Owning α} {f : α → Owning δ} {P : List View → α → Prop} {Q : α → List View → δ → Prop}
    (hm : Takes m vs P) (hf : ∀ x, Takes (f x) ws (Q x)) :
    Takes (m >>= f) (vs ++ ws) fun ds y => ∃ d₁ d₂ x, ds = d₁ ++ d₂ ∧ d₁.length = vs.length ∧ P d₁ x ∧ Q x d₂ y := by
  intro a
  obtain ⟨ha, hP⟩ := hm a
  obtain ⟨hb, hQ⟩ := hf (m a).1 (m a).2
  rw [ha] at hb hQ
  rw [takeAll_append]
  refine ⟨(congrArg (fun b => (f (m a).1 b).2) ha).trans hb, _, _, _, rfl, length_takeAll vs a, hP, ?_⟩
  exact (congrArg (fun b => (f (m a).1 b).1) ha) ▸ hQ

theorem takes_each {ε ρ : Type} {get : ε → View} {set : ε → View → ε} {read : (View → Octets) → ε → ρ}
    (hget : ∀ e d, get (set e d) = d) (hread : ∀ f g e d, f d = g (get e) → read f (set e d) = read g e) (l : List ε) :
    Takes (takeEach get set l) (l.map get) fun ds l' =>
      l'.map get = ds ∧ ∀ f g, ds.map f = (l.map get).map g → l'.map (read f) = l.map (read g) := by
  induction l with
  | nil =>
    refine (takes_nil _).mono ?_
    rintro ds l' ⟨rfl, rfl⟩
    exact ⟨rfl, fun _ _ _ => rfl⟩
  | cons e l ih =>
    refine (takes_cons fun d => ih.map).mono ?_
    rintro ds l' ⟨d, ds', rfl, rest, ⟨hrest, hreads⟩, rfl⟩
    refine ⟨by rw [List.map_cons, hget, hrest], fun f g h => ?_⟩
    rw [List.map_cons, List.map_cons, List.map_cons, List.cons.injEq] at h
    rw [List.map_cons, List.map_cons, hread f g e d h.1, hreads f g h.2]

end Takes

/-! ## The bodies -/

/-- `b'` is `b` with other views, `ds`. -/
structure Refills (b b' : Body View) (ds : List View) : Prop where
  fields : b'.fields = ds
  reads : ∀ f g : View → Octets, ds.map f = b.fields.map g → b'.map f = b.map g

theorem takes_optional (ps : List (Parameter View)) :
    Takes (takeOptional ps) (ps.map (·.value)) fun ds ps' => ps'.map (·.value) = ds ∧
      ∀ f g : View → Octets, ds.map f = (ps.map (·.value)).map g → ps'.map (·.map f) = ps.map (·.map g) := by
  refine takes_each (fun _ _ => rfl) (fun f g p d h => ?_) ps
  rw [Parameter.map, Parameter.map, h]

theorem takes_unsuccessful (us : List (Unsuccessful View)) :
    Takes (takeEach (·.destinationAddr) (fun u destinationAddr => { u with destinationAddr }) us) (us.map (·.destinationAddr))
      fun ds us' => us'.map (·.destinationAddr) = ds ∧
        ∀ f g : View → Octets, ds.map f = (us.map (·.destinationAddr)).map g → us'.map (·.map f) = us.map (·.map g) := by
  refine takes_each (fun _ _ => rfl) (fun f g u d h => ?_) us
  rw [Unsuccessful.map, Unsuccessful.map, h]

/-- The size pass and the take pass of a body. -/
structure Passes (b : Body View) (size : Nat) (m : Owning (Body View)) : Prop where
  own : ownBody b = newResponseArena size >>= fun _ => m
  size : size = (b.fields.map View.length).sum
  takes : Takes m b.fields fun ds b' => Refills b b' ds

theorem foldl_length {ε : Type} (get : ε → View) (l : List ε) (n : Nat) :
    l.foldl (fun n e => n + (get e).length) n = n + ((l.map get).map View.length).sum := by
  induction l generalizing n with
  | nil => rfl
  | cons e l ih => rw [List.foldl_cons, ih, List.map_cons, List.map_cons, List.sum_cons, Nat.add_assoc]

theorem optionalCloneSize_eq (ps : List (Parameter View)) : optionalCloneSize ps = ((ps.map (·.value)).map View.length).sum :=
  (foldl_length _ ps 0).trans (Nat.zero_add _)

theorem passes_named {make : View → List (Parameter View) → Body View} {name : View} {ps : List (Parameter View)}
    (hown : ownBody (make name ps) = ownNamed make name ps) (hfields : ∀ d qs, (make d qs).fields = d :: qs.map (·.value))
    (hmap : ∀ (f g : View → Octets) d qs, f d = g name → qs.map (·.map f) = ps.map (·.map g) →
      (make d qs).map f = (make name ps).map g) :
    ∃ size m, Passes (make name ps) size m := by
  refine ⟨_, _, hown, ?_, ?_⟩
  · rw [hfields, optionalCloneSize_eq, List.map_cons, List.sum_cons]
  · rw [hfields]
    refine (takes_cons fun d => (takes_optional ps).map).mono ?_
    rintro ds b' ⟨d, ds', rfl, qs, ⟨hqs, hreads⟩, rfl⟩
    refine ⟨by rw [hfields, hqs], fun f g h => ?_⟩
    rw [hfields, List.map_cons, List.map_cons, List.cons.injEq] at h
    exact hmap f g d qs h.1 (hreads f g h.2)

/-- The body is copied by way of an arena. -/
def Body.hasArena : Body View → Bool
  | .rawBody _ | .other _ _ => false
  | _ => true

/-- **The two passes agree** on every body with an arena. -/
theorem exists_passes {b : Body View} (harena : b.hasArena) : ∃ size m, Passes b size m := by
  cases b with
  | bindResponse name ps | submitSMResp name ps | deliverSMResp name ps | dataSMResp name ps | broadcastSMResp name ps
  | queryBroadcastSMResp name ps =>
    refine passes_named rfl (fun _ _ => rfl) fun f g d qs hd hqs => ?_
    simp only [Body.map, hd, hqs]
  | submitMultiResp messageID us ps =>
    refine ⟨_, _, rfl, ?_, ?_⟩
    · rw [foldl_length, optionalCloneSize_eq]
      simp only [Body.fields, List.map_cons, List.map_append, List.sum_cons, List.sum_append]
      rw [Nat.add_assoc]
    · have hentries := takes_unsuccessful us
      refine (takes_cons fun d => (takes_optional ps).append fun qs => hentries.map).mono ?_
      rintro ds b' ⟨d, _, rfl, d₁, d₂, qs, rfl, hlen, ⟨hqs, hoptional⟩, entries, ⟨hws, hunsuccessful⟩, rfl⟩
      refine ⟨by simp only [Body.fields, hqs, hws], fun f g h => ?_⟩
      simp only [Body.fields, List.map_cons, List.map_append, List.cons.injEq] at h
      obtain ⟨h₁, h₂⟩ := List.append_inj h.2 (by rw [List.length_map, List.length_map, hlen])
      simp only [Body.map, h.1, hoptional f g h₁, hunsuccessful f g h₂]
  | querySMResp messageID finalDate messageState errorCode ps =>
    refine ⟨_, _, rfl, ?_, ?_⟩
    · simp only [Body.fields, List.map_cons, List.sum_cons]
      rw [optionalCloneSize_eq, Nat.add_assoc]
    · refine (takes_cons fun d => takes_cons fun e => (takes_optional ps).map).mono ?_
      rintro ds b' ⟨d, _, rfl, e, ds', rfl, qs, ⟨hqs, hoptional⟩, rfl⟩
      refine ⟨by simp only [Body.fields, hqs], fun f g h => ?_⟩
      simp only [Body.fields, List.map_cons, List.cons.injEq] at h
      simp only [Body.map, h.1, h.2.1, hoptional f g h.2.2]
  | optionalResponse ps =>
    refine ⟨_, _, rfl, optionalCloneSize_eq ps, (takes_optional ps).map.mono ?_⟩
    rintro ds b' ⟨qs, ⟨hqs, hoptional⟩, rfl⟩
    refine ⟨hqs, fun f g h => ?_⟩
    simp only [Body.map, hoptional f g h]
  | rawBody | other => cases harena

/-! ## The arena -/

/-- The arena of `size` octets, after `filled` has been copied into it. -/
structure Filled (mem : Memory UInt8) (size : Nat) (filled : Octets) (a : Arena) : Prop where
  memory : a.memory = if size = 0 then mem else mem ++ [filled ++ List.replicate (size - filled.length) 0]
  buf : a.buf = if size = 0 then none else some ⟨mem.length, filled.length, size - filled.length, size - filled.length⟩
  fallbacks : a.fallbacks = 0

section Arena
variable {mem : Memory UInt8} {size : Nat} {filled : Octets} {a : Arena} {v : View} {vs : List View}

theorem newResponseArena_filled : Filled mem size [] (newResponseArena size { memory := mem }).2 := by
  unfold newResponseArena
  split
  · next h => exact ⟨(if_pos h).symm, (if_pos h).symm, rfl⟩
  · next h => exact ⟨(if_neg h).symm, (if_neg h).symm, rfl⟩

theorem take_filled (h : Filled mem size filled a) (hv : mem.Holds v) (hroom : filled.length + v.length ≤ size) :
    ∃ a', take v a = (place mem.length filled.length v.length, a') ∧ Filled mem size (filled ++ mem.view v) a' := by
  have hlen := Memory.length_view hv
  unfold take place
  by_cases hzero : v.length = 0
  · rw [if_pos hzero, if_pos hzero, List.eq_nil_of_length_eq_zero (hlen.trans hzero), List.append_nil]
    exact ⟨a, rfl, h⟩
  · have hsize : size ≠ 0 := by omega
    obtain ⟨hmemory, hbuf, hfallbacks⟩ := h
    rw [if_neg hsize] at hmemory hbuf
    have hshows : (a.memory.view v).take a.buf.length = mem.view v := by
      rw [hmemory, hbuf, Memory.view_append hv]
      exact List.take_of_length_le (by rw [hlen]; show v.length ≤ size - filled.length; omega)
    have hfits : ¬ a.buf.length < v.length := by
      rw [hbuf]
      show ¬ size - filled.length < v.length
      omega
    have hcopy : a.memory.copy a.buf v =
        (mem ++ [filled ++ mem.view v ++ List.replicate (size - (filled ++ mem.view v).length) 0], v.length) := by
      show (a.memory.put a.buf ((a.memory.view v).take a.buf.length), ((a.memory.view v).take a.buf.length).length) = _
      rw [hshows, hlen, hmemory, hbuf, Memory.put_last, List.take_left, ← List.drop_drop, List.drop_left, List.drop_replicate,
        List.length_append, Nat.sub_sub]
    rw [if_neg hzero, if_neg hzero, if_neg hfits, hcopy, hbuf]
    refine ⟨_, rfl, (if_neg hsize).symm, ?_, hfallbacks⟩
    rw [if_neg hsize, List.length_append, hlen, ← Nat.sub_sub]
    rfl

theorem takeAll_filled (h : Filled mem size filled a) (hvs : ∀ v ∈ vs, mem.Holds v)
    (hroom : filled.length + (vs.map View.length).sum ≤ size) :
    ∃ a', takeAll vs a = (carve mem.length filled.length (vs.map View.length), a') ∧
      Filled mem size (filled ++ (vs.map mem.view).flatten) a' := by
  induction vs generalizing filled a with
  | nil => exact ⟨a, rfl, by rwa [List.map_nil, List.flatten_nil, List.append_nil]⟩
  | cons v vs ih =>
    rw [List.map_cons, List.sum_cons] at hroom
    have hlen := Memory.length_view (hvs v List.mem_cons_self)
    obtain ⟨a₁, htake, h₁⟩ := take_filled h (hvs v List.mem_cons_self) (by omega)
    obtain ⟨a₂, hrest, h₂⟩ := ih h₁ (fun v hv => hvs v (List.mem_cons_of_mem _ hv))
      (by rw [List.length_append, hlen]; omega)
    rw [List.length_append, hlen] at hrest
    refine ⟨a₂, ?_, ?_⟩
    · show ((take v a).1 :: (takeAll vs (take v a).2).1, (takeAll vs (take v a).2).2) = _
      rw [htake, hrest]
      rfl
    · rw [List.map_cons, List.flatten_cons, ← List.append_assoc]
      exact h₂

end Arena

/-! ## What is left behind -/

/-- `b'` is `b` with regions of one new block, one after another, which hold the octets of `b` and nothing else. -/
structure Owned (mem : Memory UInt8) (b b' : Body View) (a : Arena) : Prop where
  refills : Refills b b' (carve mem.length 0 (b.fields.map View.length))
  memory : a.memory = if (b.fields.map mem.view).flatten = [] then mem else mem ++ [(b.fields.map mem.view).flatten]
  buf : a.buf.length = 0
  fallbacks : a.fallbacks = 0

theorem length_contents {mem : Memory UInt8} {vs : List View} (hvs : ∀ v ∈ vs, mem.Holds v) :
    (vs.map mem.view).flatten.length = (vs.map View.length).sum := by
  rw [List.length_flatten, List.map_map]
  exact congrArg List.sum (List.map_congr_left fun v hv => Memory.length_view (hvs v hv))

theorem Passes.owned {mem : Memory UInt8} {b : Body View} {size : Nat} {m : Owning (Body View)} (h : Passes b size m)
    (hb : ∀ v ∈ b.fields, mem.Holds v) :
    Owned mem b (ownBody b { memory := mem }).1 (ownBody b { memory := mem }).2 := by
  have hsize := length_contents hb
  rw [← h.size] at hsize
  have hroom : ([] : Octets).length + (b.fields.map View.length).sum ≤ size := by
    rw [h.size]
    exact Nat.le_of_eq (Nat.zero_add _)
  obtain ⟨a, htakeAll, hfilled⟩ := takeAll_filled newResponseArena_filled hb hroom
  obtain ⟨ha, hrefills⟩ := h.takes (newResponseArena size { memory := mem }).2
  rw [htakeAll] at ha hrefills
  have hstate : (ownBody b { memory := mem }).2 = a := by
    rw [h.own]
    exact ha
  rw [List.nil_append] at hfilled
  rw [hstate]
  refine ⟨?_, ?_, ?_, hfilled.fallbacks⟩
  · rw [h.own]
    exact hrefills
  · rw [hfilled.memory, hsize, Nat.sub_self, List.replicate_zero, List.append_nil]
    simp only [← List.length_eq_zero_iff, hsize]
  · rw [hfilled.buf, hsize, Nat.sub_self]
    split <;> rfl

theorem cloneBytes_eq {mem : Memory UInt8} {v : View} (hv : mem.Holds v) :
    cloneBytes v { memory := mem } =
      (place mem.length 0 v.length, { memory := if mem.view v = [] then mem else mem ++ [mem.view v] }) := by
  have hlen := Memory.length_view hv
  unfold cloneBytes place
  by_cases hzero : v.length = 0
  · rw [if_pos hzero, if_pos hzero, if_pos (List.eq_nil_of_length_eq_zero (hlen.trans hzero))]
  · have hne : mem.view v ≠ [] := fun h => hzero (hlen.symm.trans (congrArg List.length h))
    have hshows : (Memory.view (mem ++ [List.replicate v.length 0]) v).take v.length = mem.view v := by
      rw [Memory.view_append hv]
      exact List.take_of_length_le (Nat.le_of_eq hlen)
    have hcopy : Memory.copy (mem ++ [List.replicate v.length 0]) (some ⟨mem.length, 0, v.length, v.length⟩) v =
        (mem ++ [mem.view v], v.length) := by
      show (Memory.put _ _ (((Memory.view _ v)).take v.length), (((Memory.view _ v)).take v.length).length) = _
      rw [hshows, Memory.put_last, hlen, Nat.zero_add, List.drop_replicate, Nat.sub_self]
      simp
    rw [if_neg hzero, if_neg hzero, if_neg hne]
    simp only [Memory.alloc, hcopy]

/-- **What `ownDecodedPDU` leaves behind.** -/
theorem ownBody_owned {mem : Memory UInt8} {b : Body View} (hb : ∀ v ∈ b.fields, mem.Holds v) :
    Owned mem b (ownBody b { memory := mem }).1 (ownBody b { memory := mem }).2 := by
  by_cases harena : b.hasArena
  · obtain ⟨size, m, h⟩ := exists_passes harena
    exact h.owned hb
  cases b with
  | rawBody v =>
    have hclone := cloneBytes_eq (hb v List.mem_cons_self)
    have hown : ownBody (.rawBody v) { memory := mem } = (.rawBody (cloneBytes v { memory := mem }).1,
      (cloneBytes v { memory := mem }).2) := rfl
    rw [hown, hclone]
    refine ⟨⟨rfl, fun f g h => ?_⟩, by simp [Body.fields], rfl, rfl⟩
    simp only [Body.fields, List.map_cons, List.map_nil, carve, List.cons.injEq, and_true] at h
    simp only [Body.map, h]
  | other => exact ⟨⟨rfl, fun _ _ _ => rfl⟩, rfl, rfl, rfl⟩
  | _ => exact absurd rfl harena

/-! ## The types that are decoded -/

theorem bodyKinds_switch : ∀ e ∈ bodyKinds, isResponse e.1 = true → e.2 ∈ switchKinds ∨ e.2 = .emptyBody := by decide

/-- **The type switch knows every response** that a standard registry decodes, but those without octets. -/
theorem decodePDU_switches {r : Registry} (hr : r.IsStandard) {frame : Octets} {pdu : DecodedPDU}
    (h : decodePDU r frame = .ok pdu) (hresp : isResponse pdu.header.commandID = true) :
    switches pdu.body = true ∨ pdu.body = .struct .emptyBody := by
  rcases decodePDU_response_kind hr h hresp with ⟨bs, hbody⟩ | ⟨s, hbody, hkind | hkind⟩ <;> rw [hbody]
  · exact .inl rfl
  · obtain ⟨l₁, l₂, hl, -⟩ := List.lookup_eq_some_iff.mp hkind
    have hmem : (pdu.header.commandID, s.kind) ∈ bodyKinds := hl ▸ List.mem_append_right _ List.mem_cons_self
    rcases bodyKinds_switch _ hmem hresp with hs | hs
    · exact .inl (decide_eq_true hs)
    · right
      cases s <;> first | rfl | cases hs
  · exact .inl (decide_eq_true (hkind ▸ by decide))

/-- **Owned responses are complete and use the arena exactly.** The result shows what the original showed, field by field, and
whatever becomes of the memory that was there before. One block has been allocated, as long as the fields of the original
together, or none where they are all empty; no field had to be copied elsewhere, and nothing of the arena is left. The fields of
the result are regions of that block that are apart, with no room to grow. And only a body without octets is passed on as it is,
where the response has been decoded with a standard registry. -/
theorem ownDecodedPDU_exact {mem : Memory UInt8} {pdu owned : PDU} {a : Arena} (hpdu : ∀ v ∈ pdu.body.fields, mem.Holds v)
    (h : ownDecodedPDU pdu { memory := mem } = (owned, a)) :
    (∀ mem' : Memory UInt8, mem'[mem.length]? = a.memory[mem.length]? → owned.read mem' = pdu.read mem) ∧
    (∃ blocks, a.memory = mem ++ blocks ∧
      blocks.map List.length =
        if (pdu.body.fields.map View.length).sum = 0 then [] else [(pdu.body.fields.map View.length).sum]) ∧
    a.fallbacks = 0 ∧ a.buf.length = 0 ∧
    owned.body.fields.reduceOption.Pairwise Region.Apart ∧
    (∀ r, some r ∈ owned.body.fields → r.block = mem.length ∧ r.capacity = r.length) ∧
    ∀ r frame, Registry.IsStandard r → decodePDU r frame = .ok (pdu.read mem) → isResponse pdu.header.commandID = true →
      ∀ value unlisted, pdu.body = .other value unlisted → value = .struct .emptyBody := by
  have hown : ownDecodedPDU pdu { memory := mem } =
      ({ pdu with body := (ownBody pdu.body { memory := mem }).1 }, (ownBody pdu.body { memory := mem }).2) := rfl
  obtain ⟨⟨hfields, hreads⟩, hmemory, hbuf, hfallbacks⟩ := ownBody_owned hpdu
  rw [hown] at h
  cases h
  have hlengths : pdu.body.fields.map View.length = (pdu.body.fields.map mem.view).map List.length := by
    rw [List.map_map]
    exact List.map_congr_left fun v hv => (Memory.length_view (hpdu v hv)).symm
  have hlength := length_contents hpdu
  refine ⟨fun mem' hmem' => ?_, ?_, hfallbacks, hbuf, ?_, fun r hr => ?_, ?_⟩
  · have hblock : mem'[mem.length]?.getD [] = [] ++ (pdu.body.fields.map mem.view).flatten ++ [] := by
      rw [hmem', hmemory]
      split
      · next hnil => rw [hnil, List.getElem?_eq_none (Nat.le_refl _)]; rfl
      · rw [List.getElem?_append_right (Nat.le_refl _), Nat.sub_self]
        simp
    have hshows := view_carve hblock
    rw [← hlengths] at hshows
    exact congrArg (fun b => DecodedPDU.mk pdu.header b.value) (hreads mem'.view mem.view hshows)
  · rw [hmemory, ← hlength]
    simp only [List.length_eq_zero_iff]
    split
    · exact ⟨[], (List.append_nil mem).symm, rfl⟩
    · exact ⟨_, rfl, rfl⟩
  · show (ownBody pdu.body { memory := mem }).1.fields.reduceOption.Pairwise Region.Apart
    rw [hfields]
    exact carve_apart
  · have hr : some r ∈ (ownBody pdu.body { memory := mem }).1.fields := hr
    rw [hfields] at hr
    obtain ⟨hblock, -, hcap⟩ := of_mem_carve hr
    exact ⟨hblock, hcap⟩
  · intro r frame hstd hdecode hresp value unlisted hother
    have hbody : (pdu.read mem).body = value := by
      show (pdu.body.map mem.view).value = value
      rw [hother]
      rfl
    rcases decodePDU_switches hstd hdecode hresp with hs | hs <;> rw [hbody] at hs
    · rw [unlisted] at hs
      cases hs
    · exact hs

/-- The buffer of a response: a message_id, the value of a TLV and two addresses. -/
def readBuffer : Memory UInt8 := [[0x6d, 0x31, 0x6f, 0x70, 0x31, 0x30, 0x32, 0x30]]

def multiResp : PDU where
  header := { commandID := commandSubmitMultiResp, commandStatus := statusOK, sequenceNumber := 1 }
  body := .submitMultiResp (some ⟨0, 0, 2, 8⟩) [⟨1, 1, some ⟨0, 4, 2, 4⟩, 1⟩, ⟨1, 1, some ⟨0, 6, 2, 2⟩, 2⟩]
    [⟨7, some ⟨0, 2, 2, 6⟩⟩, ⟨8, none⟩]

/-- The buffer is overwritten afterwards. -/
theorem ownDecodedPDU_exact_multiResp : (∀ v ∈ multiResp.body.fields, readBuffer.Holds v) ∧
    ∃ owned a, ownDecodedPDU multiResp { memory := readBuffer } = (owned, a) ∧
      owned.read (List.replicate 8 0x58 :: a.memory.drop 1) = multiResp.read readBuffer ∧
      owned.body.fields = [some ⟨1, 0, 2, 2⟩, some ⟨1, 2, 2, 2⟩, none, some ⟨1, 4, 2, 2⟩, some ⟨1, 6, 2, 2⟩] := by
  have hholds : ∀ v ∈ multiResp.body.fields, readBuffer.Holds v := by
    simp [multiResp, Body.fields, Memory.Holds, readBuffer]
  exact ⟨hholds, _, _, rfl, (ownDecodedPDU_exact hholds rfl).1 _ rfl, by decide⟩

end GoSmpp.Session.Own
