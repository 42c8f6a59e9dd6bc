import GoSmpp.Lib.Stream
import GoSmpp.Codec.Header

/-!
# Package `codec`: the framer

`Framer.feed` of `codec/framer.go` takes the octets of a TCP stream as they are read and hands every complete PDU to a
callback. The code takes a PDU that lies whole in one read from there, and puts the others together in `pending`, first
the length word and then the body.

* `frames`: what the framer is for, as a splitter of the stream: the length word, its two checks, the frame.
* `Framer.feed_spec`: one `feed` scans what was pending followed by the data. It is proved round by round of the loop.
* `calls_feed_flatten`: the cut of the stream into reads does not matter.
-/

namespace GoSmpp.Codec
open Lib Protocol

/-! ## The code -/

/-- `binary.BigEndian.Uint32(s[:4])`: the length word at the start of `s`. -/
def lengthWord (s : Octets) : UInt32 := bigEndianUint32 (s.take 4)

def defaultMaxPDUSize : UInt32 := (1 : UInt32) <<< 20

/-- `codec.Framer`. The capacity of `pending` is not modelled. -/
structure Framer where
  maxPDUSize : UInt32
  pending : Octets := []
  expected : UInt32 := 0
  failed : Option Err := none
  deriving DecidableEq, Repr

/-- The callback: its answer to a frame may depend on the frames it was given before, which end with this one. A nil
callback is one that always answers nil. -/
abbrev Emit := List Octets → Option Err

/-- The framer and the frames emitted so far, with what the last call returned. -/
structure Fed where
  framer : Framer
  emitted : List Octets := []
  err : Option Err := none
  deriving DecidableEq, Repr

def newFramer (maxPDUSize : UInt32) : Except Err Framer :=
  let maxPDUSize := if maxPDUSize = 0 then defaultMaxPDUSize else maxPDUSize
  if maxPDUSize.toNat < headerSize then .error (.sentinel .invalidMaxPDUSize)
  else .ok { maxPDUSize := maxPDUSize }

namespace Framer

def initialized (f : Framer) : Bool := f.maxPDUSize != 0

def buffered (f : Framer) : Nat := f.pending.length

def fail (f : Framer) (kind : FatalErrorKind) (declared : UInt32) (pre : Octets) (reason : String) :
    Framer × Option Err :=
  let err : FatalError :=
    { kind := kind, declaredLength := declared, reason := reason
      command := if 8 ≤ pre.length then bigEndianUint32 ((pre.drop 4).take 4) else 0
      sequence := if headerSize ≤ pre.length then bigEndianUint32 ((pre.drop 12).take 4) else 0 }
  ({ f with failed := some (.fatal err), pending := [], expected := 0 }, some (.fatal err))

def validateLength (f : Framer) (length : UInt32) (pre : Octets) : Framer × Option Err :=
  if length.toNat < headerSize then
    f.fail .invalidCommandLength length pre "command_length is smaller than the 16-octet SMPP header"
  else if f.maxPDUSize < length then
    f.fail .pduTooLarge length pre "command_length exceeds configured maximum PDU size"
  else (f, none)

def emit (f : Framer) (emit : Emit) (emitted : List Octets) (frame : Octets) : Fed :=
  let emitted := emitted ++ [frame]
  match emit emitted with
  | none => ⟨f, emitted, none⟩
  | some err =>
    if err.asFatal.isSome then ⟨{ f with failed := some err, pending := [], expected := 0 }, emitted, some err⟩
    else ⟨f, emitted, some err⟩

/-- The part of the loop that completes a pending length word: it leaves `feed` or goes on with the rest of the data. -/
def fillLength (f : Framer) (data : Octets) : Except (Framer × Option Err) (Framer × Octets) :=
  if f.expected = 0 then
    let need := min (4 - f.pending.length) data.length
    let f := { f with pending := f.pending ++ data.take need }
    let data := data.drop need
    if f.pending.length < 4 then .error (f, none)
    else
      let length := lengthWord f.pending
      match f.validateLength length f.pending with
      | (f, some err) => .error (f, some err)
      | (f, none) => .ok ({ f with expected := length }, data)
  else .ok (f, data)

/-- The part of the loop that completes a pending PDU. -/
def fillBody (f : Framer) (emit : Emit) (emitted : List Octets) (data : Octets) :
    Except Fed (Framer × List Octets × Octets) :=
  let need := min (f.expected.toNat - f.pending.length) data.length
  let f := { f with pending := f.pending ++ data.take need }
  let data := data.drop need
  if f.pending.length < f.expected.toNat then .error ⟨f, emitted, none⟩
  else
    let fed := f.emit emit emitted (f.pending.take f.expected.toNat)
    match fed.err with
    | some _ => .error fed
    | none => .ok ({ fed.framer with pending := [], expected := 0 }, fed.emitted, data)

/-- The part of the loop for data that starts a PDU. -/
def direct (f : Framer) (emit : Emit) (emitted : List Octets) (data : Octets) :
    Except Fed (Framer × List Octets × Octets) :=
  if data.length < 4 then .error ⟨{ f with pending := data }, emitted, none⟩
  else
    let length := lengthWord data
    match f.validateLength length data with
    | (f, some err) => .error ⟨f, emitted, some err⟩
    | (f, none) =>
      if data.length < length.toNat then .error ⟨{ f with expected := length, pending := data }, emitted, none⟩
      else
        let fed := f.emit emit emitted (data.take length.toNat)
        match fed.err with
        | some _ => .error fed
        | none => .ok (fed.framer, fed.emitted, data.drop length.toNat)

/-- One round of the loop, with data left: it leaves `feed` (`error`) or goes round again. -/
def round (f : Framer) (emit : Emit) (emitted : List Octets) (data : Octets) :
    Except Fed (Framer × List Octets × Octets) :=
  if 0 < f.pending.length then
    match f.fillLength data with
    | .error (f, err) => .error ⟨f, emitted, err⟩
    | .ok (f, data) => f.fillBody emit emitted data
  else f.direct emit emitted data

/-- `for len(data) > 0`. Every round that goes on makes `pending` and the data together shorter, which bounds `fuel`. -/
def feedLoop (emit : Emit) : Nat → Framer → List Octets → Octets → Fed
  | 0, f, emitted, _ => ⟨f, emitted, none⟩
  | fuel + 1, f, emitted, data =>
    if data.length = 0 then ⟨f, emitted, none⟩
    else
      match f.round emit emitted data with
      | .error fed => fed
      | .ok (f, emitted, data) => feedLoop emit fuel f emitted data

def feed (f : Framer) (emit : Emit) (emitted : List Octets) (data : Octets) : Fed :=
  if ¬ f.initialized then ⟨f, emitted, some (.sentinel .codecNotInitialized)⟩
  else
    match f.failed with
    | some err => ⟨f, emitted, some err⟩
    | none => feedLoop emit (f.pending.length + data.length + 1) f emitted data

def finalize (f : Framer) : Framer × Option Err :=
  if ¬ f.initialized then (f, some (.sentinel .codecNotInitialized))
  else
    match f.failed with
    | some err => (f, some err)
    | none =>
      if f.pending.length = 0 then (f, none)
      else
        let declared := if 4 ≤ f.pending.length then lengthWord f.pending else 0
        f.fail .truncatedFrame declared f.pending "TCP stream ended with a partial SMPP PDU"

end Framer

/-- A call the owner of a framer makes. -/
inductive FramerCall where
  | feed (data : Octets)
  | finalize
  deriving DecidableEq, Repr

def Fed.call (emit : Emit) (r : Fed) : FramerCall → Fed
  | .feed data => r.framer.feed emit r.emitted data
  | .finalize => ⟨r.framer.finalize.1, r.emitted, r.framer.finalize.2⟩

def Fed.calls (emit : Emit) (r : Fed) (cs : List FramerCall) : Fed := cs.foldl (Fed.call emit) r

/-! ## The stream the framer splits -/

/-- What a caller can tell fatal errors apart by, however the stream was cut: `Command` and `Sequence` are filled in
only as far as the octets have arrived. -/
def fatalClass (err : Err) : Option (FatalErrorKind × UInt32) := err.asFatal.map fun e => (e.kind, e.declaredLength)

/-- What is wrong with a `command_length`. -/
def lengthError (maxPDUSize length : UInt32) : Option FatalErrorKind :=
  if length.toNat < headerSize then some .invalidCommandLength
  else if maxPDUSize < length then some .pduTooLarge
  else none

/-- The next frame of a stream. -/
def nextFrame (maxPDUSize : UInt32) (emit : Emit) (emitted : List Octets) (s : Octets) :
    Cut (List Octets) (Option (FatalErrorKind × UInt32)) :=
  if s.length < 4 then .more
  else
    match lengthError maxPDUSize (lengthWord s) with
    | some kind => .stop emitted (some (kind, lengthWord s))
    | none =>
      if s.length < (lengthWord s).toNat then .more
      else
        match emit (emitted ++ [s.take (lengthWord s).toNat]) with
        | none => .item (emitted ++ [s.take (lengthWord s).toNat]) (lengthWord s).toNat
        | some err => .stop (emitted ++ [s.take (lengthWord s).toNat]) (fatalClass err)

theorem lengthWord_append {s : Octets} (h : 4 ≤ s.length) (t : Octets) : lengthWord (s ++ t) = lengthWord s := by
  unfold lengthWord
  rw [List.take_append_of_le_length h]

section NextFrame
variable {maxPDUSize : UInt32} {emit : Emit} {emitted : List Octets} {s : Octets}

theorem nextFrame_short (h : s.length < 4) : nextFrame maxPDUSize emit emitted s = .more := by
  rw [nextFrame, if_pos h]

theorem nextFrame_bad {kind : FatalErrorKind} (h : 4 ≤ s.length)
    (hk : lengthError maxPDUSize (lengthWord s) = some kind) :
    nextFrame maxPDUSize emit emitted s = .stop emitted (some (kind, lengthWord s)) := by
  rw [nextFrame, if_neg (by omega), hk]

theorem nextFrame_unfinished (h : 4 ≤ s.length) (hk : lengthError maxPDUSize (lengthWord s) = none)
    (hl : s.length < (lengthWord s).toNat) : nextFrame maxPDUSize emit emitted s = .more := by
  rw [nextFrame, if_neg (by omega), hk]
  exact if_pos hl

theorem nextFrame_whole (h : 4 ≤ s.length) (hk : lengthError maxPDUSize (lengthWord s) = none)
    (hl : (lengthWord s).toNat ≤ s.length) : nextFrame maxPDUSize emit emitted s =
      match emit (emitted ++ [s.take (lengthWord s).toNat]) with
      | none => .item (emitted ++ [s.take (lengthWord s).toNat]) (lengthWord s).toNat
      | some err => .stop (emitted ++ [s.take (lengthWord s).toNat]) (fatalClass err) := by
  rw [nextFrame, if_neg (by omega), hk]
  exact if_neg (by omega)

theorem nextFrame_cases (maxPDUSize : UInt32) (emit : Emit) (emitted : List Octets) (s : Octets) :
    nextFrame maxPDUSize emit emitted s = .more ∨
    (∃ kind, 4 ≤ s.length ∧ lengthError maxPDUSize (lengthWord s) = some kind) ∨
    (4 ≤ s.length ∧ lengthError maxPDUSize (lengthWord s) = none ∧ (lengthWord s).toNat ≤ s.length) := by
  by_cases h4 : s.length < 4
  · exact .inl (nextFrame_short h4)
  rw [Nat.not_lt] at h4
  cases hk : lengthError maxPDUSize (lengthWord s) with
  | some kind => exact .inr (.inl ⟨kind, h4, rfl⟩)
  | none =>
    by_cases hl : s.length < (lengthWord s).toNat
    · exact .inl (nextFrame_unfinished h4 hk hl)
    · exact .inr (.inr ⟨h4, rfl, by omega⟩)

theorem nextFrame_append (h : nextFrame maxPDUSize emit emitted s ≠ .more) (t : Octets) :
    nextFrame maxPDUSize emit emitted (s ++ t) = nextFrame maxPDUSize emit emitted s := by
  have hlen : s.length ≤ (s ++ t).length := by rw [List.length_append]; omega
  rcases nextFrame_cases maxPDUSize emit emitted s with hm | ⟨kind, h4, hk⟩ | ⟨h4, hk, hl⟩
  · exact absurd hm h
  · have hw := lengthWord_append h4 t
    rw [nextFrame_bad h4 hk, nextFrame_bad (h4.trans hlen) (by rw [hw]; exact hk), hw]
  · have hw := lengthWord_append h4 t
    rw [nextFrame_whole h4 hk hl, nextFrame_whole (h4.trans hlen) (by rw [hw]; exact hk) (by rw [hw]; omega), hw,
      List.take_append_of_le_length hl]

/-- A frame as long as it says, of a size the session takes. -/
def Delimited (maxPDUSize : UInt32) (frame : Octets) : Prop :=
  frame.length = (lengthWord frame).toNat ∧ headerSize ≤ frame.length ∧ frame.length ≤ maxPDUSize.toNat

theorem lengthError_none {length : UInt32} (h : lengthError maxPDUSize length = none) :
    headerSize ≤ length.toNat ∧ length.toNat ≤ maxPDUSize.toNat := by
  unfold lengthError at h
  split at h
  · cases h
  · split at h
    · cases h
    · next h1 h2 => exact ⟨by omega, UInt32.not_lt.mp h2⟩

theorem take_delimited (hk : lengthError maxPDUSize (lengthWord s) = none) (hl : (lengthWord s).toNat ≤ s.length) :
    Delimited maxPDUSize (s.take (lengthWord s).toNat) := by
  obtain ⟨h16, hmax⟩ := lengthError_none hk
  have hlen : (s.take (lengthWord s).toNat).length = (lengthWord s).toNat := by rw [List.length_take]; omega
  have hword : lengthWord (s.take (lengthWord s).toNat) = lengthWord s := by
    have h4 : 4 ≤ (lengthWord s).toNat := le_trans (by decide) h16
    have := lengthWord_append (s := s.take (lengthWord s).toNat) (by omega) (s.drop (lengthWord s).toNat)
    rwa [List.take_append_drop, eq_comm] at this
  exact ⟨by rw [hword, hlen], by omega, by omega⟩

theorem nextFrame_delimited {emitted' : List Octets} (h : ∀ frame ∈ emitted, Delimited maxPDUSize frame)
    (hn : (∃ n, nextFrame maxPDUSize emit emitted s = .item emitted' n) ∨
      ∃ o, nextFrame maxPDUSize emit emitted s = .stop emitted' o) :
    ∀ frame ∈ emitted', Delimited maxPDUSize frame := by
  rcases nextFrame_cases maxPDUSize emit emitted s with hm | ⟨kind, h4, hk⟩ | ⟨h4, hk, hl⟩
  · simp [hm] at hn
  · rw [nextFrame_bad h4 hk] at hn
    simp only [reduceCtorEq, exists_false, Cut.stop.injEq, false_or] at hn
    obtain ⟨o, rfl, _⟩ := hn
    exact h
  · have he : emitted' = emitted ++ [s.take (lengthWord s).toNat] := by
      rw [nextFrame_whole h4 hk hl] at hn
      split at hn
      · simpa [eq_comm] using hn
      · simpa [eq_comm] using hn
    intro frame hframe
    rw [he, List.mem_append, List.mem_singleton] at hframe
    rcases hframe with hframe | rfl
    · exact h frame hframe
    · exact take_delimited hk hl

end NextFrame

def frames (maxPDUSize : UInt32) (emit : Emit) : Splitter UInt8 (List Octets) (Option (FatalErrorKind × UInt32)) where
  cut := nextFrame maxPDUSize emit
  item_append h ys := by rw [nextFrame_append (by rw [h]; exact nofun), h]
  item_length {emitted _ s _} h := by
    rcases nextFrame_cases maxPDUSize emit emitted s with hm | ⟨kind, h4, hk⟩ | ⟨h4, hk, hl⟩
    · rw [hm] at h; cases h
    · rw [nextFrame_bad h4 hk] at h; cases h
    · rw [nextFrame_whole h4 hk hl] at h
      split at h
      · cases h; exact hl
      · cases h
  stop_append h ys := by rw [nextFrame_append (by rw [h]; exact nofun), h]

theorem frames_scans_delimited {maxPDUSize : UInt32} {emit : Emit} {emitted emitted' : List Octets} {s rest : Octets}
    {o : Option (Option (FatalErrorKind × UInt32))} (h : (frames maxPDUSize emit).Scans emitted s emitted' rest o)
    (he : ∀ frame ∈ emitted, Delimited maxPDUSize frame) : ∀ frame ∈ emitted', Delimited maxPDUSize frame :=
  h.invariant (P := fun es => ∀ frame ∈ es, Delimited maxPDUSize frame)
    (fun hc hs => nextFrame_delimited hs (.inl ⟨_, hc⟩)) (fun hc hs => nextFrame_delimited hs (.inr ⟨_, hc⟩)) he

/-! ## The code splits the stream -/

/-- What is wrong, if anything, ends the framer. -/
def Fed.outcome (r : Fed) : Option (Option (FatalErrorKind × UInt32)) := r.framer.failed.map fatalClass

namespace Framer

/-- A PDU of known length is being put together. -/
structure Partial (f : Framer) : Prop where
  word : 4 ≤ f.pending.length
  expected : f.expected = lengthWord f.pending
  valid : lengthError f.maxPDUSize f.expected = none
  more : f.pending.length < f.expected.toNat

/-- A framer that has not failed, between two calls. -/
structure Ready (maxPDUSize : UInt32) (f : Framer) : Prop where
  size : f.maxPDUSize = maxPDUSize
  failed : f.failed = none
  pending : (f.expected = 0 ∧ f.pending.length < 4) ∨ f.Partial

theorem validateLength_ok {f : Framer} {length : UInt32} (h : lengthError f.maxPDUSize length = none) (pre : Octets) :
    f.validateLength length pre = (f, none) := by
  unfold lengthError at h
  unfold validateLength
  split at h
  · cases h
  · split at h
    · cases h
    · next h1 h2 => rw [if_neg h1, if_neg h2]

theorem validateLength_error {f : Framer} {length : UInt32} {kind : FatalErrorKind}
    (h : lengthError f.maxPDUSize length = some kind) (pre : Octets) :
    ∃ err, fatalClass err = some (kind, length) ∧
      f.validateLength length pre = ({ f with failed := some err, pending := [], expected := 0 }, some err) := by
  unfold lengthError at h
  unfold validateLength
  split at h
  · next h1 => cases h; exact ⟨_, rfl, if_pos h1⟩
  · split at h
    · next h1 h2 => cases h; exact ⟨_, rfl, by rw [if_neg h1, if_pos h2]; rfl⟩
    · cases h

theorem emit_none {f : Framer} {emit : Emit} {emitted : List Octets} {frame : Octets}
    (h : emit (emitted ++ [frame]) = none) : f.emit emit emitted frame = ⟨f, emitted ++ [frame], none⟩ := by
  simp only [Framer.emit, h]

theorem emit_fatal {f : Framer} {emit : Emit} {emitted : List Octets} {frame : Octets} {err : Err}
    (h : emit (emitted ++ [frame]) = some err) (hf : err.asFatal.isSome) : f.emit emit emitted frame =
      ⟨{ f with failed := some err, pending := [], expected := 0 }, emitted ++ [frame], some err⟩ := by
  simp only [Framer.emit, h, hf, if_true]

end Framer

/-- A call leaves a framer that is ready, or failed with the fatal error it returned. -/
structure Fed.Sound (maxPDUSize : UInt32) (r : Fed) : Prop where
  size : r.framer.maxPDUSize = maxPDUSize
  err : r.err = r.framer.failed
  ready : r.framer.failed = none → r.framer.Ready maxPDUSize
  fatal : ∀ e, r.framer.failed = some e → e.asFatal.isSome
  empty : r.framer.failed ≠ none → r.framer.pending = []

namespace Framer
section Refine
variable {maxPDUSize : UInt32} {emit : Emit} (hemit : ∀ frames e, emit frames = some e → e.asFatal.isSome)
  {f : Framer} {emitted : List Octets} {s data : Octets}

theorem Ready.sound (h : f.Ready maxPDUSize) : Fed.Sound maxPDUSize ⟨f, emitted, none⟩ where
  size := h.size
  err := h.failed.symm
  ready _ := h
  fatal e he := by rw [show f.failed = none from h.failed] at he; cases he
  empty he := absurd h.failed he

theorem sound_failed {err : Err} (hsize : f.maxPDUSize = maxPDUSize) (h : err.asFatal.isSome) :
    Fed.Sound maxPDUSize ⟨{ f with failed := some err, pending := [], expected := 0 }, emitted, some err⟩ where
  size := hsize
  err := rfl
  ready := nofun
  fatal e he := by cases he; exact h
  empty _ := rfl

theorem isSome_of_fatalClass {err : Err} {c : FatalErrorKind × UInt32} (h : fatalClass err = some c) :
    err.asFatal.isSome := by
  unfold fatalClass at h
  rw [← Option.isSome_map, h]
  rfl

theorem scans_bad {kind : FatalErrorKind} {err : Err} (h4 : 4 ≤ s.length)
    (hk : lengthError maxPDUSize (lengthWord s) = some kind) (he : fatalClass err = some (kind, lengthWord s)) :
    (frames maxPDUSize emit).Scans emitted s emitted [] (some (fatalClass err)) := by
  rw [he]
  exact .stop (nextFrame_bad h4 hk)

/-- What leaving `feed` and going round again amount to, with the octets `s` not yet split. -/
def Split (maxPDUSize : UInt32) (emit : Emit) (emitted : List Octets) (s : Octets) :
    Except Fed (Framer × List Octets × Octets) → Prop
  | .error fed => (frames maxPDUSize emit).Scans emitted s fed.emitted fed.framer.pending fed.outcome ∧
      fed.Sound maxPDUSize
  | .ok (f', emitted', data') => f'.Ready maxPDUSize ∧ f'.pending = [] ∧
      ∃ n, 0 < n ∧ nextFrame maxPDUSize emit emitted s = .item emitted' n ∧ data' = s.drop n

theorem Ready.more (h : f.Ready maxPDUSize) : nextFrame maxPDUSize emit emitted f.pending = .more := by
  rcases h.pending with ⟨_, hlt⟩ | hpart
  · exact nextFrame_short hlt
  · have hk := hpart.valid
    have hl := hpart.more
    rw [hpart.expected, h.size] at hk
    rw [hpart.expected] at hl
    exact nextFrame_unfinished hpart.word hk hl

theorem Ready.split (h : f.Ready maxPDUSize) : Split maxPDUSize emit emitted f.pending (.error ⟨f, emitted, none⟩) := by
  refine ⟨?_, h.sound⟩
  rw [Fed.outcome, h.failed]
  exact .more h.more

variable (emitted) in
include hemit in
theorem emit_split (g : Framer → Framer) (h4 : 4 ≤ s.length) (hk : lengthError maxPDUSize (lengthWord s) = none)
    (hl : (lengthWord s).toNat ≤ s.length) (hsize : f.maxPDUSize = maxPDUSize) (hg : (g f).Ready maxPDUSize)
    (hp : (g f).pending = []) :
    Split maxPDUSize emit emitted s
      (match (f.emit emit emitted (s.take (lengthWord s).toNat)).err with
        | some _ => .error (f.emit emit emitted (s.take (lengthWord s).toNat))
        | none => .ok (g (f.emit emit emitted (s.take (lengthWord s).toNat)).framer,
            (f.emit emit emitted (s.take (lengthWord s).toNat)).emitted, s.drop (lengthWord s).toNat)) := by
  have hn : nextFrame maxPDUSize emit emitted s = _ := nextFrame_whole h4 hk hl
  cases he : emit (emitted ++ [s.take (lengthWord s).toNat]) with
  | none =>
    rw [he] at hn
    rw [emit_none he]
    have := (lengthError_none hk).1
    exact ⟨hg, hp, _, by unfold headerSize at this; omega, hn, rfl⟩
  | some err =>
    rw [he] at hn
    rw [emit_fatal he (hemit _ _ he)]
    exact ⟨.stop hn, sound_failed hsize (hemit _ _ he)⟩

include hemit in
theorem fillBody_split (hsize : f.maxPDUSize = maxPDUSize) (hfail : f.failed = none) (hp : f.Partial) :
    Split maxPDUSize emit emitted (f.pending ++ data) (f.fillBody emit emitted data) := by
  have hw : lengthWord (f.pending ++ data) = f.expected := by rw [lengthWord_append hp.word, hp.expected]
  have hk : lengthError maxPDUSize (lengthWord (f.pending ++ data)) = none := by rw [hw, ← hsize]; exact hp.valid
  have hlen : (f.pending ++ data).length = f.pending.length + data.length := List.length_append
  have h4 : 4 ≤ (f.pending ++ data).length := by have := hp.word; omega
  have hmore := hp.more
  unfold fillBody
  by_cases hd : f.pending.length + data.length < f.expected.toNat
  · have hmin : min (f.expected.toNat - f.pending.length) data.length = data.length := by omega
    simp only [hmin, List.take_length, hlen, hd, if_true]
    exact Ready.split (f := { f with pending := f.pending ++ data })
      ⟨hsize, hfail, .inr ⟨h4, hw.symm, hp.valid, hlen.trans_lt hd⟩⟩
  · have hmin : min (f.expected.toNat - f.pending.length) data.length = f.expected.toNat - f.pending.length := by omega
    have htake : f.pending ++ data.take (f.expected.toNat - f.pending.length) =
        (f.pending ++ data).take f.expected.toNat := by
      rw [List.take_append, List.take_of_length_le hmore.le]
    have hdrop : data.drop (f.expected.toNat - f.pending.length) = (f.pending ++ data).drop f.expected.toNat := by
      rw [List.drop_append, List.drop_of_length_le hmore.le, List.nil_append]
    have hfull : ¬ ((f.pending ++ data).take f.expected.toNat).length < f.expected.toNat := by
      rw [List.length_take, hlen]
      omega
    simp only [hmin, htake, hdrop, hfull, if_false, List.take_take, Nat.min_self]
    have := emit_split hemit (f := { f with pending := (f.pending ++ data).take f.expected.toNat }) emitted
      (fun f => { f with pending := [], expected := 0 }) h4 hk (by rw [hw]; omega) hsize
      ⟨hsize, hfail, .inl ⟨rfl, Nat.zero_lt_succ 3⟩⟩ rfl
    rw [hw] at this
    exact this

include hemit in
theorem direct_split (h : f.Ready maxPDUSize) (hp : f.pending = []) :
    Split maxPDUSize emit emitted data (f.direct emit emitted data) := by
  -- with nothing pending no length is expected
  have hexp : f.expected = 0 := by
    rcases h.pending with ⟨he, _⟩ | hpart
    · exact he
    · have := hpart.word
      rw [hp, List.length_nil] at this
      omega
  unfold direct
  by_cases h4 : data.length < 4
  · rw [if_pos h4]
    exact Ready.split (f := { f with pending := data }) ⟨h.size, h.failed, .inl ⟨hexp, h4⟩⟩
  rw [if_neg h4]
  rw [Nat.not_lt] at h4
  cases hk : lengthError maxPDUSize (lengthWord data) with
  | some kind =>
    obtain ⟨err, he, hv⟩ := validateLength_error (f := f) (by rw [h.size]; exact hk) data
    simp only [hv]
    exact ⟨scans_bad h4 hk he, sound_failed h.size (isSome_of_fatalClass he)⟩
  | none =>
    have hv := validateLength_ok (f := f) (by rw [h.size]; exact hk) data
    simp only [hv]
    by_cases hl : data.length < (lengthWord data).toNat
    · rw [if_pos hl]
      rw [← h.size] at hk
      exact Ready.split (f := { f with pending := data, expected := lengthWord data })
        ⟨h.size, h.failed, .inr ⟨h4, rfl, hk, hl⟩⟩
    · rw [if_neg hl]
      exact emit_split hemit emitted id h4 hk (by omega) h.size h hp

variable (emit emitted data) in
theorem fillLength_split (h : f.Ready maxPDUSize) (hp : 0 < f.pending.length) :
    match f.fillLength data with
    | .error (f', err) => Split maxPDUSize emit emitted (f.pending ++ data) (.error ⟨f', emitted, err⟩)
    | .ok (f', data') => f'.maxPDUSize = maxPDUSize ∧ f'.failed = none ∧ f'.Partial ∧
        f'.pending ++ data' = f.pending ++ data := by
  unfold fillLength
  rcases h.pending with ⟨hexp, hlt⟩ | hpart
  · rw [if_pos hexp]
    by_cases hd : f.pending.length + data.length < 4
    · have hmin : min (4 - f.pending.length) data.length = data.length := by omega
      have hlen : (f.pending ++ data).length < 4 := by rw [List.length_append]; exact hd
      simp only [hmin, List.take_length, hlen, if_true]
      exact Ready.split (f := { f with pending := f.pending ++ data }) ⟨h.size, h.failed, .inl ⟨hexp, hlen⟩⟩
    · have hmin : min (4 - f.pending.length) data.length = 4 - f.pending.length := by omega
      have hsplit : f.pending ++ data.take (4 - f.pending.length) ++ data.drop (4 - f.pending.length) =
          f.pending ++ data := by rw [List.append_assoc, List.take_append_drop]
      have hlen : (f.pending ++ data.take (4 - f.pending.length)).length = 4 := by
        rw [List.length_append, List.length_take]
        omega
      have h4 : 4 ≤ (f.pending ++ data).length := by rw [List.length_append]; omega
      have hw : lengthWord (f.pending ++ data) = lengthWord (f.pending ++ data.take (4 - f.pending.length)) := by
        rw [← hsplit, lengthWord_append hlen.ge]
      simp only [hmin, hlen, Nat.lt_irrefl, if_false]
      cases hk : lengthError maxPDUSize (lengthWord (f.pending ++ data.take (4 - f.pending.length))) with
      | some kind =>
        obtain ⟨err, he, hv⟩ := validateLength_error
          (f := { f with pending := f.pending ++ data.take (4 - f.pending.length) })
          (by rw [← h.size] at hk; exact hk) (f.pending ++ data.take (4 - f.pending.length))
        rw [hv]
        rw [← hw] at hk he
        exact ⟨scans_bad h4 hk he, sound_failed h.size (isSome_of_fatalClass he)⟩
      | none =>
        rw [← h.size] at hk
        rw [validateLength_ok (f := { f with pending := f.pending ++ data.take (4 - f.pending.length) }) hk]
        exact ⟨h.size, h.failed, ⟨hlen.ge, rfl, hk, hlen.trans_lt (lt_of_lt_of_le (by decide) (lengthError_none hk).1)⟩,
          hsplit⟩
  · have hne : f.expected ≠ 0 := by
      intro h0
      have := hpart.more
      rw [h0] at this
      exact absurd this (Nat.not_lt_zero _)
    rw [if_neg hne]
    exact ⟨h.size, h.failed, hpart, rfl⟩

variable (emitted data) in
include hemit in
theorem round_split (h : f.Ready maxPDUSize) :
    Split maxPDUSize emit emitted (f.pending ++ data) (f.round emit emitted data) := by
  unfold round
  by_cases hp : 0 < f.pending.length
  · rw [if_pos hp]
    have hl := fillLength_split emit emitted data h hp
    revert hl
    cases f.fillLength data with
    | error r => exact fun hl => hl
    | ok r =>
      rintro ⟨hsize, hfail, hpart, hs⟩
      rw [← hs]
      exact fillBody_split hemit hsize hfail hpart
  · rw [if_neg hp]
    have hnil : f.pending = [] := List.eq_nil_of_length_eq_zero (by omega)
    rw [hnil]
    exact direct_split hemit h hnil

variable (f emitted data) in
include hemit in
/-- The loop scans what was pending and the data. The induction is on the fuel: a frame is taken in every round that goes
on, so that the fuel lasts. -/
theorem feedLoop_scans (fuel : Nat) (hfuel : f.pending.length + data.length < fuel) (h : f.Ready maxPDUSize) :
    (frames maxPDUSize emit).Scans emitted (f.pending ++ data) (feedLoop emit fuel f emitted data).emitted
        (feedLoop emit fuel f emitted data).framer.pending (feedLoop emit fuel f emitted data).outcome ∧
      (feedLoop emit fuel f emitted data).Sound maxPDUSize := by
  induction fuel generalizing f emitted data with
  | zero => omega
  | succ fuel ih =>
    unfold feedLoop
    by_cases hd : data.length = 0
    · rw [if_pos hd, List.eq_nil_of_length_eq_zero hd, List.append_nil]
      exact h.split
    · rw [if_neg hd]
      have hr := round_split hemit emitted data h
      revert hr
      cases f.round emit emitted data with
      | error fed => exact fun hr => hr
      | ok r =>
        obtain ⟨f', emitted', data'⟩ := r
        rintro ⟨hready, hnil, n, hn, hc, hdata⟩
        have hlen : data'.length = f.pending.length + data.length - n := by
          rw [hdata, List.length_drop, List.length_append]
        have := ih f' emitted' data' (by rw [hnil, List.length_nil]; omega) hready
        rw [hnil, List.nil_append, hdata] at this
        rw [hdata]
        exact ⟨.item hc this.1, this.2⟩

end Refine

theorem initialized_of_le {f : Framer} (h : headerSize ≤ f.maxPDUSize.toNat) : f.initialized = true := by
  rw [initialized, bne_iff_ne]
  intro h0
  rw [h0] at h
  exact absurd h (by decide)

theorem feed_failed {f : Framer} {emit : Emit} {emitted : List Octets} {err : Err}
    (hmax : headerSize ≤ f.maxPDUSize.toNat) (h : f.failed = some err) (data : Octets) :
    f.feed emit emitted data = ⟨f, emitted, some err⟩ := by
  simp only [feed, initialized_of_le hmax, not_true_eq_false, if_false, h]

theorem finalize_failed {f : Framer} {err : Err} (hmax : headerSize ≤ f.maxPDUSize.toNat) (h : f.failed = some err) :
    f.finalize = (f, some err) := by
  simp only [finalize, initialized_of_le hmax, not_true_eq_false, if_false, h]

/-- **One call of `feed` splits what was pending followed by the data.** -/
theorem feed_spec {maxPDUSize : UInt32} {emit : Emit} (hemit : ∀ frames e, emit frames = some e → e.asFatal.isSome)
    {f : Framer} (hmax : headerSize ≤ maxPDUSize.toNat) (h : f.Ready maxPDUSize) (emitted : List Octets)
    (data : Octets) :
    (frames maxPDUSize emit).Scans emitted (f.pending ++ data) (f.feed emit emitted data).emitted
        (f.feed emit emitted data).framer.pending (f.feed emit emitted data).outcome ∧
      (f.feed emit emitted data).Sound maxPDUSize := by
  have hinit := initialized_of_le (h.size ▸ hmax : headerSize ≤ f.maxPDUSize.toNat)
  simp only [feed, hinit, not_true_eq_false, if_false, h.failed]
  exact feedLoop_scans hemit f emitted data _ (Nat.lt_succ_self _) h

end Framer

section Calls
variable {maxPDUSize : UInt32} (hmax : headerSize ≤ maxPDUSize.toNat) {emit : Emit}
  (hemit : ∀ frames e, emit frames = some e → e.asFatal.isSome) {r : Fed}

theorem Fed.Sound.outcome (h : r.Sound maxPDUSize) : r.outcome = r.err.map fatalClass := by
  rw [Fed.outcome, h.err]

include hmax in
theorem Fed.Sound.call_failed (h : r.Sound maxPDUSize) (hr : r.err ≠ none) (c : FramerCall) : r.call emit c = r := by
  obtain ⟨e, he⟩ := Option.ne_none_iff_exists'.mp hr
  have hf : r.framer.failed = some e := h.err ▸ he
  have hm : headerSize ≤ r.framer.maxPDUSize.toNat := by rw [h.size]; exact hmax
  cases c with
  | feed data => rw [Fed.call, Framer.feed_failed hm hf, ← he]
  | finalize => rw [Fed.call, Framer.finalize_failed hm hf, ← he]

include hmax in
theorem Framer.Ready.finalize {f : Framer} (h : f.Ready maxPDUSize) (emitted : List Octets) :
    Fed.Sound maxPDUSize ⟨f.finalize.1, emitted, f.finalize.2⟩ ∧
      f.finalize.2.map fatalClass = if f.pending.length = 0 then none else
        some (some (.truncatedFrame, if 4 ≤ f.pending.length then lengthWord f.pending else 0)) := by
  have hinit := Framer.initialized_of_le (h.size ▸ hmax : headerSize ≤ f.maxPDUSize.toNat)
  simp only [Framer.finalize, hinit, not_true_eq_false, if_false, h.failed]
  by_cases hp : f.pending.length = 0
  · rw [if_pos hp, if_pos hp]
    exact ⟨h.sound, rfl⟩
  · rw [if_neg hp, if_neg hp]
    exact ⟨Framer.sound_failed h.size rfl, rfl⟩

include hmax hemit in
theorem Fed.Sound.call (h : r.Sound maxPDUSize) (c : FramerCall) : (r.call emit c).Sound maxPDUSize := by
  cases hf : r.framer.failed with
  | some e =>
    rw [h.call_failed hmax (by rw [h.err, hf]; exact Option.some_ne_none e)]
    exact h
  | none =>
    cases c with
    | feed data => exact (Framer.feed_spec hemit hmax (h.ready hf) _ _).2
    | finalize => exact ((h.ready hf).finalize hmax _).1

include hmax hemit in
theorem Fed.Sound.calls (h : r.Sound maxPDUSize) (cs : List FramerCall) : (r.calls emit cs).Sound maxPDUSize := by
  induction cs generalizing r with
  | nil => exact h
  | cons c cs ih => exact ih (h.call hmax hemit c)

variable (emit) in
include hmax in
theorem Fed.Sound.calls_failed (h : r.Sound maxPDUSize) (hr : r.err ≠ none) (cs : List FramerCall) :
    r.calls emit cs = r := by
  induction cs with
  | nil => rfl
  | cons c cs ih => rw [Fed.calls, List.foldl_cons, h.call_failed hmax hr]; exact ih

/-- The framer, fed chunk by chunk, splits the stream of frames. -/
def feeder (hmax : headerSize ≤ maxPDUSize.toNat) (hemit : ∀ frames e, emit frames = some e → e.asFatal.isSome) :
    Feeder (frames maxPDUSize emit) { r : Fed // r.Sound maxPDUSize } where
  feed r data := ⟨r.1.call emit (.feed data), r.2.call hmax hemit _⟩
  state r := r.1.emitted
  rest r := r.1.framer.pending
  out r := r.1.err.map fatalClass
  Ready r := r.1.framer.Ready maxPDUSize
  feed_ready {r} data _ ho := by
    have hs := r.2.call hmax hemit (.feed data)
    rw [Option.map_eq_none_iff, hs.err] at ho
    exact hs.ready ho
  feed_scans {r} data h := by
    rw [← (r.2.call hmax hemit (.feed data)).outcome]
    exact (Framer.feed_spec hemit hmax h _ _).1
  ready_more {r} h := ⟨h.more, by rw [r.2.err, h.failed]; rfl⟩
  feed_failed {r} data ho := by
    have hr : r.1.err ≠ none := fun h => ho (by rw [h]; rfl)
    simp only [r.2.call_failed hmax hr, and_self]

theorem feeder_foldl (chunks : List Octets) (r : { r : Fed // r.Sound maxPDUSize }) :
    (chunks.foldl (feeder hmax hemit).feed r).1 = r.1.calls emit (chunks.map .feed) := by
  induction chunks generalizing r with
  | nil => rfl
  | cons c cs ih => exact ih _

include hmax hemit in
theorem calls_feed_scans {f : Framer} (h : f.Ready maxPDUSize) (chunks : List Octets) :
    (frames maxPDUSize emit).Scans [] (f.pending ++ chunks.flatten)
      (Fed.calls emit ⟨f, [], none⟩ (chunks.map .feed)).emitted
      (Fed.calls emit ⟨f, [], none⟩ (chunks.map .feed)).framer.pending
      ((Fed.calls emit ⟨f, [], none⟩ (chunks.map .feed)).err.map fatalClass) := by
  have hs := (feeder hmax hemit).scans_foldl chunks (f := ⟨⟨f, [], none⟩, h.sound⟩) h
  have he := feeder_foldl hmax hemit chunks ⟨⟨f, [], none⟩, h.sound⟩
  rw [← he]
  exact hs

theorem Fed.Sound.finalize_congr {r r' : Fed} (hmax : headerSize ≤ maxPDUSize.toNat) (h : r.Sound maxPDUSize)
    (h' : r'.Sound maxPDUSize) (hp : r.framer.pending = r'.framer.pending)
    (ho : r.err.map fatalClass = r'.err.map fatalClass) :
    (r.call emit .finalize).err.map fatalClass = (r'.call emit .finalize).err.map fatalClass := by
  by_cases hr : r.err = none
  · have hr' : r'.err = none := by rw [hr] at ho; exact Option.map_eq_none_iff.mp ho.symm
    rw [Fed.call, ((h.ready (h.err ▸ hr)).finalize hmax r.emitted).2, Fed.call,
      ((h'.ready (h'.err ▸ hr')).finalize hmax r'.emitted).2, hp]
  · have hr' : r'.err ≠ none := fun hn => hr (by rw [hn] at ho; exact Option.map_eq_none_iff.mp ho)
    rw [h.call_failed hmax hr, h'.call_failed hmax hr', ho]

end Calls

theorem newFramer_ok {maxPDUSize : UInt32} {f : Framer} (h : newFramer maxPDUSize = .ok f) :
    headerSize ≤ f.maxPDUSize.toNat ∧ f.pending = [] ∧ f.Ready f.maxPDUSize := by
  unfold newFramer at h
  simp only at h
  generalize (if maxPDUSize = 0 then defaultMaxPDUSize else maxPDUSize) = size at h
  split at h
  · cases h
  · next hs =>
    cases h
    exact ⟨Nat.le_of_not_lt hs, rfl, rfl, rfl, .inl ⟨rfl, Nat.zero_lt_succ 3⟩⟩

/-- **Framing does not depend on how TCP cut the stream.** The frames emitted, the outcome, the octets left over and the
outcome of `finalize` are those of the whole stream fed at once; every emitted frame is as long as it says; and the first
fatal error, of a `feed` or of `finalize`, is what every later call returns. -/
theorem calls_feed_flatten {maxPDUSize : UInt32} {f : Framer} (hf : newFramer maxPDUSize = .ok f) (emit : Emit)
    (hemit : ∀ frames e, emit frames = some e → e.asFatal.isSome) (chunks : List Octets) :
    let start : Fed := ⟨f, [], none⟩
    let cut := start.calls emit (chunks.map .feed)
    let whole := start.call emit (.feed chunks.flatten)
    cut.emitted = whole.emitted ∧
      cut.err.map fatalClass = whole.err.map fatalClass ∧ (∀ e, cut.err = some e → e.asFatal.isSome) ∧
      cut.framer.buffered = whole.framer.buffered ∧
      (cut.call emit .finalize).err.map fatalClass = (whole.call emit .finalize).err.map fatalClass ∧
      (∀ frame ∈ cut.emitted, frame.length = (lengthWord frame).toNat ∧ headerSize ≤ frame.length ∧
        frame.length ≤ f.maxPDUSize.toNat) ∧
      ∀ cs e, (start.calls emit cs).err = some e → ∀ later,
        (start.calls emit (cs ++ later)).err = some e ∧
          (start.calls emit (cs ++ later)).emitted = (start.calls emit cs).emitted := by
  intro start cut whole
  obtain ⟨hmax, hnil, hready⟩ := newFramer_ok hf
  have hstart : start.Sound f.maxPDUSize := hready.sound
  have hcut := calls_feed_scans hmax hemit hready chunks
  have hwhole := calls_feed_scans hmax hemit hready [chunks.flatten]
  rw [List.flatten_cons, List.flatten_nil, List.append_nil] at hwhole
  obtain ⟨hem, hpend, herr⟩ := hcut.unique hwhole
  have hcs : cut.Sound f.maxPDUSize := hstart.calls hmax hemit _
  have hws : whole.Sound f.maxPDUSize := hstart.call hmax hemit _
  refine ⟨hem, herr, fun e he => hcs.fatal e (hcs.err ▸ he), congrArg List.length hpend,
    hcs.finalize_congr hmax hws hpend herr, frames_scans_delimited hcut nofun, ?_⟩
  intro cs e he later
  have hsound := hstart.calls hmax hemit cs
  have hsame := hsound.calls_failed hmax emit (by rw [he]; exact Option.some_ne_none e) later
  rw [Fed.calls, List.foldl_append, ← Fed.calls, ← Fed.calls, hsame]
  exact ⟨he, rfl⟩

/-- A stream of two enquire_link PDUs in three reads, the first inside the length word, with a callback that fails the
second PDU. -/
theorem calls_feed_flatten_enquireLinks :
    let enquireLink := fun n : UInt32 => putUint32 16 ++ putUint32 0x15 ++ putUint32 0 ++ putUint32 n
    let failSecond : Emit := fun frames =>
      if frames.length < 2 then none else some (.fatal { kind := .truncatedFrame, reason := "PDU body" })
    let chunks := [[0, 0], (enquireLink 1).drop 2 ++ [0], (enquireLink 2).drop 1 ++ [0, 0, 0, 16]]
    let start : Fed := ⟨{ maxPDUSize := 64 }, [], none⟩
    (start.calls failSecond (chunks.map .feed)).emitted = [enquireLink 1, enquireLink 2] ∧
      (start.calls failSecond (chunks.map .feed)).emitted = (start.call failSecond (.feed chunks.flatten)).emitted := by
  intro enquireLink failSecond chunks start
  have hfail : ∀ frames e, failSecond frames = some e → e.asFatal.isSome := by
    intro frames e h
    simp only [failSecond] at h
    split at h
    · cases h
    · cases h; rfl
  exact ⟨by decide, (@calls_feed_flatten 64 _ rfl failSecond hfail chunks).1⟩

end GoSmpp.Codec
