import GoSmpp.Codec.Header

/-!
# Package `codec`: the common shape of the command codecs

Every command codec of the library is one of a few shapes around a body type's own field list:

* `decodeRequest`, `encodeRequest` : a typed request body;
* `decodeResponse`, `encodeResponse` : a typed response body, which an error response leaves out;
* `decodeRequestEmpty`, `encodeEmpty`, `decodeResponseEmpty`, `encodeResponseEmpty` : header-only commands.

`BodyType` is one case of a Go type switch on the body. `BodySpec` is a body type with its reader, its appender, its
wire form, and the proofs that the first two follow the third; `decodeRequest_ok`, `encodeRequest_appends`,
`decodeResponse_ok`, `encodeResponse_appends` lift it to the shapes above.
-/

namespace GoSmpp.Codec
open Lib Protocol

/-! ## Type switches -/

/-- One body type of package `protocol`, as a case of a type switch. -/
structure BodyType (α : Type) where
  kind : Kind
  wrap : α → Struct
  get : Struct → Option α
  get_eq_some : ∀ s v, get s = some v ↔ s = wrap v := by intro s v; cases s <;> simp
  kind_wrap : ∀ v, (wrap v).kind = kind := by intro v; rfl
  exists_wrap : ∀ s, s.kind = kind → ∃ v, s = wrap v := by intro s h; cases s <;> first | exact ⟨_, rfl⟩ | cases h
  kind_ne_emptyBody : kind ≠ .emptyBody := by decide
  kind_ne_optionalResponse : kind ≠ .optionalResponse := by decide

section BodyType
variable {α : Type} (t : BodyType α)

@[simp] theorem BodyType.get_wrap (v : α) : t.get (t.wrap v) = some v := (t.get_eq_some _ _).mpr rfl

theorem BodyType.wrap_ne_emptyBody (v : α) : t.wrap v ≠ .emptyBody := by
  intro h
  exact t.kind_ne_emptyBody (by rw [← t.kind_wrap v, h]; rfl)

theorem BodyType.wrap_ne_optionalResponse (v : α) (o : OptionalResponse) : t.wrap v ≠ .optionalResponse o := by
  intro h
  exact t.kind_ne_optionalResponse (by rw [← t.kind_wrap v, h]; rfl)

end BodyType

/-- `fmt.Errorf("%w: ..", ErrInvalidPDUValue)`. -/
def invalidPDUValue (text : String) : Err := .wrapped text (.sentinel .invalidPDUValue)

/-- The type switch of a request encoder: the body type itself or a pointer to it. -/
def requestValue {α : Type} (t : BodyType α) (value : Value) : Except Err α :=
  let other : Except Err α :=
    .error (invalidPDUValue ("expected protocol." ++ t.kind.name ++ ", got " ++ value.typeName))
  match value with
  | .struct s | .ptr s =>
    match t.get s with
    | some v => .ok v
    | none => other
  | .nilPtr k => if k = t.kind then .error (invalidPDUValue ("nil " ++ t.kind.name)) else other
  | _ => other

/-- What the type switch of a response encoder tells apart. -/
inductive ResponseValue (α : Type) where
  | empty
  | typed (v : α)
  | optional (ps : List OptionalParameter)

/-- The type switch of a response encoder: nil or `EmptyBody`, the body type, or `OptionalResponse`. A nil
`*EmptyBody` counts as `EmptyBody`. -/
def responseValue {α : Type} (t : BodyType α) (value : Value) : Except Err (ResponseValue α) :=
  let other : Except Err (ResponseValue α) :=
    .error (invalidPDUValue
      ("expected protocol." ++ t.kind.name ++ ", OptionalResponse or EmptyBody, got " ++ value.typeName))
  match value with
  | .nil | .struct .emptyBody | .ptr .emptyBody | .nilPtr .emptyBody => .ok .empty
  | .struct (.optionalResponse o) | .ptr (.optionalResponse o) => .ok (.optional o.optional)
  | .struct s | .ptr s =>
    match t.get s with
    | some v => .ok (.typed v)
    | none => other
  | .nilPtr .optionalResponse => .error (invalidPDUValue "nil OptionalResponse")
  | .nilPtr k => if k = t.kind then .error (invalidPDUValue ("nil " ++ t.kind.name)) else other
  | _ => other

/-! ## Requests -/

def requestStatusMustBeZero (header : Header) : Except Err Unit :=
  if !CommandStatus.ok header.commandStatus then
    .error (.semanticBy { status := statusInvalidMessageLength, reason := "request command_status must be zero" }
      (.sentinel .invalidPDUValue))
  else
    .ok ()

def decodeRequest {α : Type} (t : BodyType α) (read : Header → Read α) (header : Header) (body : Octets) :
    Except Err Value := do
  requestStatusMustBeZero header
  let v ← (read header).run' body
  return .struct (t.wrap v)

def encodeRequest {α : Type} (t : BodyType α) (append : α → Append Unit) (value : Value) : Append Unit := do
  let v ← .ofExcept (requestValue t value)
  append v

/-! ## Responses -/

/-- `decodeErrorResponseOptional`, `none` where the source returns `handled = false`. The nil slice it returns for an
empty body is `[]`. -/
def decodeErrorResponseOptional (header : Header) (body : Octets) : Option (Except Err (List OptionalParameter)) :=
  if CommandStatus.ok header.commandStatus then none
  else if body.length = 0 then some (.ok [])
  else some (optional.run' body)

/-- What a response decoder returns when `decodeErrorResponseOptional` has handled the body: `zero` when there are no
TLVs, else an `OptionalResponse`. -/
def errorBody (zero : Struct) : List OptionalParameter → Struct
  | [] => zero
  | ps => .optionalResponse ⟨ps⟩

/-- The shape of the response decoders; `zero` is the body type's zero value. -/
def decodeResponse {α : Type} (t : BodyType α) (zero : α) (read : Read α) (header : Header) (body : Octets) :
    Except Err Value :=
  match decodeErrorResponseOptional header body with
  | some (.error e) => .error e
  | some (.ok ps) => .ok (.struct (errorBody (t.wrap zero) ps))
  | none => do
    let v ← read.run' body
    return .struct (t.wrap v)

/-- The shape of the response encoders; `empty` is what a missing body is written as. -/
def encodeResponseOr {α : Type} (empty : Append Unit) (t : BodyType α) (append : α → Append Unit) (value : Value) :
    Append Unit := do
  match ← .ofExcept (responseValue t value) with
  | .empty => empty
  | .typed v => append v
  | .optional ps => appendOptional ps

def encodeResponse {α : Type} : BodyType α → (α → Append Unit) → Value → Append Unit := encodeResponseOr (pure ())

/-! ## Header-only commands -/

def decodeEmpty (body : Octets) : Except Err Value :=
  if body.length ≠ 0 then
    .error (.semanticBy { status := statusInvalidCommandLength,
                          reason := "header-only PDU has " ++ toString body.length ++ " body octets" }
      (.sentinel .invalidPDUValue))
  else
    .ok (.struct .emptyBody)

def decodeRequestEmpty (header : Header) (body : Octets) : Except Err Value := do
  requestStatusMustBeZero header
  decodeEmpty body

def decodeResponseEmpty (_ : Header) (body : Octets) : Except Err Value :=
  if body.length = 0 then .ok (.struct .emptyBody)
  else do
    let ps ← optional.run' body
    return .struct (.optionalResponse ⟨ps⟩)

def encodeEmpty (value : Value) : Append Unit :=
  match value with
  | .nil | .struct .emptyBody | .ptr .emptyBody | .nilPtr .emptyBody => pure ()
  | _ => .fail (invalidPDUValue ("expected EmptyBody, got " ++ value.typeName))

def encodeResponseEmpty (value : Value) : Append Unit :=
  match value with
  | .nil | .struct .emptyBody | .ptr .emptyBody | .nilPtr .emptyBody => pure ()
  | .struct (.optionalResponse o) | .ptr (.optionalResponse o) => appendOptional o.optional
  | .nilPtr .optionalResponse => .fail (invalidPDUValue "nil OptionalResponse")
  | _ => .fail (invalidPDUValue ("expected EmptyBody or OptionalResponse, got " ++ value.typeName))

/-! ## What the type switches accept -/

/-- The value is the body `s`, or a pointer to it. -/
def Holds (value : Value) (s : Struct) : Prop := value = .struct s ∨ value = .ptr s

/-- The value is nil, an `EmptyBody` or a pointer to `EmptyBody`, nil or not. -/
def IsEmptyBody (value : Value) : Prop := value = .nil ∨ Holds value .emptyBody ∨ value = .nilPtr .emptyBody

theorem Holds.inj {value : Value} {s s' : Struct} (h : Holds value s) (h' : Holds value s') : s = s' := by
  rcases h with rfl | rfl <;> rcases h' with h' | h' <;> cases h' <;> rfl

theorem requestValue_ok {α : Type} (t : BodyType α) (value : Value) (v : α) :
    requestValue t value = .ok v ↔ Holds value (t.wrap v) := by
  have body (s : Struct) (other : Err) :
      (match t.get s with | some v => Except.ok v | none => .error other) = .ok v ↔ s = t.wrap v := by
    rw [← t.get_eq_some]
    cases t.get s <;> simp
  cases value with
  | struct s =>
    refine (body s _).trans ⟨fun h => .inl (h ▸ rfl), ?_⟩
    rintro (h | h) <;> cases h
    rfl
  | ptr s =>
    refine (body s _).trans ⟨fun h => .inr (h ▸ rfl), ?_⟩
    rintro (h | h) <;> cases h
    rfl
  | nilPtr k =>
    simp only [requestValue, Holds, reduceCtorEq, or_self, iff_false]
    split <;> simp
  | nil => simp [requestValue, Holds]
  | raw bs => simp [requestValue, Holds]
  | other name ps => simp [requestValue, Holds]

section Refusal
variable {α : Type} {t : BodyType α} {value : Value} {e : Err}

theorem requestValue_refusal (h : requestValue t value = .error e) : Refusal e := by
  unfold requestValue at h
  simp only at h
  split at h <;> (try split at h) <;> cases h <;> rfl

theorem responseValue_refusal (h : responseValue t value = .error e) : Refusal e := by
  unfold responseValue at h
  simp only at h
  split at h <;> (try split at h) <;> cases h <;> rfl

theorem encodeEmpty_fails (h : (encodeEmpty value).err = some e) : Refusal e := by
  unfold encodeEmpty at h
  split at h <;> cases h
  rfl

theorem encodeResponseEmpty_fails (h : (encodeResponseEmpty value).err = some e) : Refusal e := by
  unfold encodeResponseEmpty at h
  split at h <;> first | exact (appendOptional_writes _).fails e h | cases h <;> rfl

end Refusal

theorem responseValue_ok {α : Type} (t : BodyType α) (value : Value) (x : ResponseValue α) :
    responseValue t value = .ok x ↔
      (IsEmptyBody value ∧ x = .empty) ∨ (∃ v, Holds value (t.wrap v) ∧ x = .typed v) ∨
        (∃ ps, Holds value (.optionalResponse ⟨ps⟩) ∧ x = .optional ps) := by
  have typed (s : Struct) (other : Err) :
      (match t.get s with | some v => Except.ok (ResponseValue.typed v) | none => .error other) = .ok x ↔
        ∃ v, s = t.wrap v ∧ x = .typed v := by
    constructor
    · intro h
      cases hs : t.get s with
      | none => rw [hs] at h; cases h
      | some v => rw [hs] at h; cases h; exact ⟨v, (t.get_eq_some _ _).mp hs, rfl⟩
    · rintro ⟨v, rfl, rfl⟩
      rw [t.get_wrap]
  have empty (v : α) := (t.wrap_ne_emptyBody v).symm
  have opt (v : α) (o : OptionalResponse) := (t.wrap_ne_optionalResponse v o).symm
  unfold responseValue
  simp only [IsEmptyBody, Holds]
  split
  case h_7 s hs ho | h_8 s hs ho =>
    -- a body other than `EmptyBody` and `OptionalResponse`, or a pointer to one
    have hs' : s ≠ .emptyBody := hs
    have ho' (ps : List OptionalParameter) : s ≠ .optionalResponse ⟨ps⟩ := ho _
    rw [typed]
    simp [hs', ho']
  case h_10 k hk ho =>
    have hk' : k ≠ .emptyBody := hk
    split <;> simp [hk']
  case h_11 hn _ _ _ _ _ hs hp _ hk =>
    have hs' (s : Struct) : value ≠ .struct s := hs s
    have hp' (s : Struct) : value ≠ .ptr s := hp s
    have hk' (k : Kind) : value ≠ .nilPtr k := hk k
    have hn' : value ≠ .nil := hn
    simp [hs', hp', hk', hn']
  case h_5 o | h_6 o =>
    cases o
    simp [opt, eq_comm]
  all_goals simp [empty, eq_comm]

/-! ## Body types and their wire form -/

/-- A body type with its reader and its appender, its wire form, and what ties them together: the appender accepts
exactly the `Encodable` values and writes their wire form, and the reader reads exactly the wire forms of those
encodable values that are `Canonical`. -/
structure BodySpec (α : Type) where
  type : BodyType α
  read : Header → Read α
  append : α → Append Unit
  wire : α → Octets
  Encodable : α → Prop
  Canonical : α → Prop
  read_ok : ∀ h s v r, read h s = .ok (v, r) ↔ (s = wire v ∧ r = []) ∧ Encodable v ∧ Canonical v
  append_writes : ∀ v, Encodes (append v) (Encodable v) (wire v)

section BodySpec
variable {α : Type} (B : BodySpec α)

theorem BodySpec.run'_ok (h : Header) (body : Octets) (v : α) :
    (B.read h).run' body = .ok v ↔ body = B.wire v ∧ B.Encodable v ∧ B.Canonical v := by
  rw [Reader.run'_ok]
  constructor
  · rintro ⟨r, hr⟩
    obtain ⟨⟨rfl, -⟩, hv⟩ := (B.read_ok _ _ _ _).mp hr
    exact ⟨rfl, hv⟩
  · rintro ⟨rfl, hv⟩
    exact ⟨[], (B.read_ok _ _ _ _).mpr ⟨⟨rfl, rfl⟩, hv⟩⟩

theorem optional_run'_ok (body : Octets) (ps : List OptionalParameter) :
    optional.run' body = .ok ps ↔ body = tlvsWire ps ∧ TLVsFit ps := by
  rw [Reader.run'_ok]
  constructor
  · rintro ⟨r, hr⟩
    obtain ⟨⟨rfl, -⟩, hps⟩ := (optional_ok _ _ _).mp hr
    exact ⟨rfl, hps⟩
  · rintro ⟨rfl, hps⟩
    exact ⟨[], (optional_ok _ _ _).mpr ⟨⟨rfl, rfl⟩, hps⟩⟩

theorem requestStatusMustBeZero_ok (header : Header) (u : Unit) :
    requestStatusMustBeZero header = .ok u ↔ header.commandStatus = statusOK := by
  simp [requestStatusMustBeZero, CommandStatus.ok]

theorem decodeRequest_ok (header : Header) (body : Octets) (value : Value) :
    decodeRequest B.type B.read header body = .ok value ↔
      header.commandStatus = statusOK ∧
        ∃ v, body = B.wire v ∧ (B.Encodable v ∧ B.Canonical v) ∧ value = .struct (B.type.wrap v) := by
  simp only [decodeRequest, Lib.Except.bind_ok, requestStatusMustBeZero_ok, B.run'_ok]
  constructor
  · rintro ⟨_, hs, v, ⟨rfl, hv⟩, h⟩
    cases h
    exact ⟨hs, v, rfl, hv, rfl⟩
  · rintro ⟨hs, v, rfl, hv, rfl⟩
    exact ⟨(), hs, v, ⟨rfl, hv⟩, rfl⟩

theorem encodeRequest_appends (value : Value) (bs : Octets) :
    (encodeRequest B.type B.append value).Appends bs ↔
      ∃ v, Holds value (B.type.wrap v) ∧ B.Encodable v ∧ bs = B.wire v := by
  simp only [encodeRequest, Appender.ofExcept_bind_appends, requestValue_ok, (B.append_writes _).appends]

theorem encodeRequest_fails {value : Value} {e : Err} (h : (encodeRequest B.type B.append value).err = some e) :
    Refusal e := by
  unfold encodeRequest at h
  cases hv : requestValue B.type value with
  | ok v => rw [hv] at h; exact (B.append_writes v).fails e h
  | error e' =>
    rw [hv] at h
    cases h
    exact requestValue_refusal hv

theorem decodeErrorResponseOptional_none (header : Header) (body : Octets) :
    decodeErrorResponseOptional header body = none ↔ header.commandStatus = statusOK := by
  unfold decodeErrorResponseOptional CommandStatus.ok
  split
  · next h => simpa using h
  · next h => split <;> simpa using h

theorem decodeErrorResponseOptional_some (header : Header) (body : Octets) (ps : List OptionalParameter) :
    decodeErrorResponseOptional header body = some (.ok ps) ↔
      header.commandStatus ≠ statusOK ∧ body = tlvsWire ps ∧ TLVsFit ps := by
  unfold decodeErrorResponseOptional CommandStatus.ok
  split
  · next h => simp [show header.commandStatus = statusOK by simpa using h]
  · next h =>
    have hs : header.commandStatus ≠ statusOK := by simpa using h
    split
    · next hb =>
      obtain rfl := List.length_eq_zero_iff.mp hb
      constructor
      · intro h
        cases h
        exact ⟨hs, rfl, fun p hp => absurd hp List.not_mem_nil⟩
      · rintro ⟨-, h, -⟩
        rw [tlvsWire_eq_nil h.symm]
    · rw [Option.some.injEq, optional_run'_ok]
      exact ⟨fun h => ⟨hs, h⟩, fun h => h.2⟩

theorem decodeResponse_ok (zero : α) (header : Header) (body : Octets) (value : Value) :
    decodeResponse B.type zero (B.read header) header body = .ok value ↔
      (header.commandStatus = statusOK ∧
        ∃ v, body = B.wire v ∧ (B.Encodable v ∧ B.Canonical v) ∧ value = .struct (B.type.wrap v)) ∨
      (header.commandStatus ≠ statusOK ∧
        ∃ ps, body = tlvsWire ps ∧ TLVsFit ps ∧ value = .struct (errorBody (B.type.wrap zero) ps)) := by
  have hnone := decodeErrorResponseOptional_none header body
  have hsome := decodeErrorResponseOptional_some header body
  unfold decodeResponse
  cases hd : decodeErrorResponseOptional header body with
  | none =>
    rw [hd] at hnone
    have hs := hnone.mp rfl
    simp only [Lib.Except.bind_ok, B.run'_ok, hs, ne_eq, not_true_eq_false, false_and, or_false, true_and]
    constructor
    · rintro ⟨v, ⟨rfl, hv⟩, h⟩
      cases h
      exact ⟨v, rfl, hv, rfl⟩
    · rintro ⟨v, rfl, hv, rfl⟩
      exact ⟨v, ⟨rfl, hv⟩, rfl⟩
  | some x =>
    have hs : header.commandStatus ≠ statusOK := fun h => by
      have := hnone.mpr h
      rw [hd] at this
      cases this
    rw [hd] at hsome
    simp only [hs, false_and, false_or, ne_eq, not_false_eq_true, true_and]
    cases x with
    | error e =>
      refine ⟨fun h => (by cases h), ?_⟩
      rintro ⟨ps, hb, hfit, -⟩
      cases (hsome ps).mpr ⟨hs, hb, hfit⟩
    | ok ps =>
      obtain ⟨-, hb, hfit⟩ := (hsome ps).mp rfl
      have hps (qs : List OptionalParameter) (hq : body = tlvsWire qs ∧ TLVsFit qs) : qs = ps := by
        cases (hsome qs).mpr ⟨hs, hq⟩
        rfl
      constructor
      · intro h
        cases h
        exact ⟨ps, hb, hfit, rfl⟩
      · rintro ⟨qs, hq, hqf, rfl⟩
        rw [hps qs ⟨hq, hqf⟩]

/-- What the response encoders accept and write; a missing body is written as `cs`. -/
abbrev BodySpec.Responds (cs : Octets) (value : Value) (bs : Octets) : Prop :=
  (IsEmptyBody value ∧ bs = cs) ∨ (∃ v, Holds value (B.type.wrap v) ∧ B.Encodable v ∧ bs = B.wire v) ∨
    (∃ ps, Holds value (.optionalResponse ⟨ps⟩) ∧ TLVsFit ps ∧ bs = tlvsWire ps)

section Response
variable {empty : Append Unit} {cs : Octets} (hempty : Encodes empty True cs)
include hempty

theorem encodeResponseOr_appends (value : Value) (bs : Octets) :
    (encodeResponseOr empty B.type B.append value).Appends bs ↔ B.Responds cs value bs := by
  simp only [encodeResponseOr, Appender.ofExcept_bind_appends, responseValue_ok]
  constructor
  · rintro ⟨x, ⟨he, rfl⟩ | ⟨v, hv, rfl⟩ | ⟨ps, hps, rfl⟩, h⟩
    · exact .inl ⟨he, ((hempty.appends bs).mp h).2⟩
    · exact .inr (.inl ⟨v, hv, ((B.append_writes v).appends bs).mp h⟩)
    · exact .inr (.inr ⟨ps, hps, ((appendOptional_writes ps).appends bs).mp h⟩)
  · rintro (⟨he, rfl⟩ | ⟨v, hv, h⟩ | ⟨ps, hps, h⟩)
    · exact ⟨_, .inl ⟨he, rfl⟩, (hempty.appends _).mpr ⟨trivial, rfl⟩⟩
    · exact ⟨_, .inr (.inl ⟨v, hv, rfl⟩), ((B.append_writes v).appends bs).mpr h⟩
    · exact ⟨_, .inr (.inr ⟨ps, hps, rfl⟩), ((appendOptional_writes ps).appends bs).mpr h⟩

theorem encodeResponseOr_fails {value : Value} {e : Err} (h : (encodeResponseOr empty B.type B.append value).err = some e) :
    Refusal e := by
  unfold encodeResponseOr at h
  cases hv : responseValue B.type value with
  | ok x =>
    rw [hv] at h
    cases x with
    | empty => exact hempty.fails e h
    | typed v => exact (B.append_writes v).fails e h
    | optional ps => exact (appendOptional_writes ps).fails e h
  | error e' =>
    rw [hv] at h
    cases h
    exact responseValue_refusal hv

end Response

theorem encodeResponse_appends (value : Value) (bs : Octets) :
    (encodeResponse B.type B.append value).Appends bs ↔ B.Responds [] value bs :=
  encodeResponseOr_appends B .pure value bs

end BodySpec

/-! ### Header-only commands -/

theorem decodeRequestEmpty_ok (header : Header) (body : Octets) (value : Value) :
    decodeRequestEmpty header body = .ok value ↔
      header.commandStatus = statusOK ∧ body = [] ∧ value = .struct .emptyBody := by
  simp only [decodeRequestEmpty, Lib.Except.bind_ok, requestStatusMustBeZero_ok, decodeEmpty]
  constructor
  · rintro ⟨_, hs, h⟩
    split at h
    · cases h
    · next hb =>
      cases h
      exact ⟨hs, List.length_eq_zero_iff.mp (not_not.mp hb), rfl⟩
  · rintro ⟨hs, rfl, rfl⟩
    exact ⟨(), hs, rfl⟩

theorem decodeResponseEmpty_ok (header : Header) (body : Octets) (value : Value) :
    decodeResponseEmpty header body = .ok value ↔
      ∃ ps, body = tlvsWire ps ∧ TLVsFit ps ∧ value = .struct (errorBody .emptyBody ps) := by
  unfold decodeResponseEmpty
  split
  · next hb =>
    obtain rfl := List.length_eq_zero_iff.mp hb
    constructor
    · intro h
      cases h
      exact ⟨[], rfl, fun p hp => absurd hp List.not_mem_nil, rfl⟩
    · rintro ⟨ps, h, -, rfl⟩
      rw [tlvsWire_eq_nil h.symm]
      rfl
  · next hb =>
    simp only [Lib.Except.bind_ok, optional_run'_ok]
    have hval (ps : List OptionalParameter) (hps : body = tlvsWire ps) :
        Value.struct (.optionalResponse ⟨ps⟩) = .struct (errorBody .emptyBody ps) := by
      cases ps with
      | nil => exact absurd (by rw [hps]; rfl) hb
      | cons p ps => rfl
    constructor
    · rintro ⟨ps, ⟨hps, hfit⟩, h⟩
      cases h
      exact ⟨ps, hps, hfit, hval ps hps⟩
    · rintro ⟨ps, hps, hfit, rfl⟩
      exact ⟨ps, ⟨hps, hfit⟩, congrArg Except.ok (hval ps hps)⟩

theorem encodeEmpty_appends (value : Value) (bs : Octets) :
    (encodeEmpty value).Appends bs ↔ IsEmptyBody value ∧ bs = [] := by
  unfold encodeEmpty IsEmptyBody Holds
  split
  case h_5 hn hs hp hk =>
    have hn' : value ≠ .nil := hn
    have hs' : value ≠ .struct .emptyBody := hs
    have hp' : value ≠ .ptr .emptyBody := hp
    have hk' : value ≠ .nilPtr .emptyBody := hk
    simp [hn', hs', hp', hk']
  all_goals simp

theorem encodeResponseEmpty_appends (value : Value) (bs : Octets) :
    (encodeResponseEmpty value).Appends bs ↔
      (IsEmptyBody value ∧ bs = []) ∨
      (∃ ps, Holds value (.optionalResponse ⟨ps⟩) ∧ TLVsFit ps ∧ bs = tlvsWire ps) := by
  unfold encodeResponseEmpty IsEmptyBody Holds
  split
  case h_5 o | h_6 o =>
    cases o
    simp [(appendOptional_writes _).appends]
  case h_8 hn hs hp hk ho hpo hko =>
    have hn' : value ≠ .nil := hn
    have hs' : value ≠ .struct .emptyBody := hs
    have hp' : value ≠ .ptr .emptyBody := hp
    have hk' : value ≠ .nilPtr .emptyBody := hk
    have ho' (ps : List OptionalParameter) : value ≠ .struct (.optionalResponse ⟨ps⟩) := ho _
    have hpo' (ps : List OptionalParameter) : value ≠ .ptr (.optionalResponse ⟨ps⟩) := hpo _
    simp [hn', hs', hp', hk', ho', hpo']
  all_goals simp

end GoSmpp.Codec
