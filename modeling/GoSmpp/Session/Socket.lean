import GoSmpp.Codec.Framer
import GoSmpp.Session.Agreement
import GoSmpp.Session.Transmit

/-!
# Two sessions over octets

The two sessions of `linked` read and write whole frames. `rxLoop` of `session/rx.go` and the writes of `txLoop` do not: a
`Read` returns any number of octets, the framer puts frames together, and a `Write` is accepted in pieces.

* `Endpoint`: a session with its framer, the rest of the buffer that `Feed` was given, and the octets in flight. In
  `Endpoint.step` every `Read` and each round of `Feed` is a step of its own, and so is every part of a frame that a `Write`
  gets accepted.
* `round_nil`: what a round of `Feed` makes of its data when the callback accepts.
* `Streams`: the octets between two framers are those of the frames on the wire, and of one that has been written in part.
* `run_refines`: every run over octets is a run over frames.
-/

namespace GoSmpp.Codec
open Lib Protocol

/-! ## A callback that accepts -/

/-- As long as the callback returns nil. -/
def accepts : Emit := fun _ => none

/-- The frame is as long as its first word says. -/
structure Whole (frame : Octets) : Prop where
  header : headerSize ≤ frame.length
  word : (lengthWord frame).toNat = frame.length

section NextFrame
variable {maxPDUSize : UInt32} {emitted emitted' : List Octets} {s frame : Octets} {n : Nat}

/-- A frame is cut where its first word says. -/
theorem nextFrame_accepts_item (h : nextFrame maxPDUSize accepts emitted s = .item emitted' n) :
    4 ≤ s.length ∧ n = (lengthWord s).toNat ∧ n ≤ s.length ∧ emitted' = emitted ++ [s.take n] := by
  rcases nextFrame_cases maxPDUSize accepts emitted s with hm | ⟨kind, h4, hk⟩ | ⟨h4, hk, hl⟩
  · rw [hm] at h; cases h
  · rw [nextFrame_bad h4 hk] at h; cases h
  · rw [nextFrame_whole h4 hk hl] at h
    cases h
    exact ⟨h4, rfl, hl, rfl⟩

theorem nextFrame_accepts_stop {o : Option (FatalErrorKind × UInt32)}
    (h : nextFrame maxPDUSize accepts emitted s = .stop emitted' o) : emitted' = emitted := by
  rcases nextFrame_cases maxPDUSize accepts emitted s with hm | ⟨kind, h4, hk⟩ | ⟨h4, hk, hl⟩
  · rw [hm] at h; cases h
  · rw [nextFrame_bad h4 hk] at h; cases h; rfl
  · rw [nextFrame_whole h4 hk hl] at h; cases h

/-- The first frame of a stream of whole frames is the one that is cut. -/
theorem nextFrame_accepts_whole {rest : Octets} (hw : Whole frame)
    (h : nextFrame maxPDUSize accepts [] (frame ++ rest) = .item emitted n) : emitted = [frame] ∧ n = frame.length := by
  obtain ⟨-, hn, -, he⟩ := nextFrame_accepts_item h
  have h4 : 4 ≤ frame.length := Nat.le_trans (by decide) hw.header
  rw [lengthWord_append h4, hw.word] at hn
  subst hn
  rw [List.take_left'] at he
  exact ⟨he, rfl⟩
  rfl

/-- Nothing is cut from a part of a frame. -/
theorem nextFrame_accepts_part (hw : Whole frame) (hp : s <+: frame) (hlt : s.length < frame.length) :
    nextFrame maxPDUSize accepts emitted s ≠ .item emitted' n := by
  intro h
  obtain ⟨h4, hn, hle, -⟩ := nextFrame_accepts_item h
  obtain ⟨t, rfl⟩ := hp
  have hword := hw.word
  rw [lengthWord_append h4] at hword
  omega

end NextFrame

namespace Framer
variable {f : Framer} {maxPDUSize : UInt32} {data : Octets} {emitted : List Octets}

/-- A round that leaves `feed` has emitted nothing when the callback accepts. -/
theorem round_accepts_emitted {fed : Fed} (h : f.round accepts emitted data = .error fed) : fed.emitted = emitted := by
  have hbody {f : Framer} {data : Octets} (h : f.fillBody accepts emitted data = .error fed) : fed.emitted = emitted := by
    unfold fillBody at h
    dsimp only at h
    split at h
    · cases h; rfl
    · rw [emit_none rfl] at h
      cases h
  unfold round at h
  split at h
  · split at h
    · cases h; rfl
    · exact hbody h
  · unfold direct at h
    split at h
    · cases h; rfl
    · dsimp only at h
      split at h
      · cases h; rfl
      · split at h
        · cases h; rfl
        · rw [emit_none rfl] at h
          cases h

/-- What a round of `feed` makes of the data: it keeps them all, it refuses them, or it cuts the next frame. -/
inductive RoundNext (maxPDUSize : UInt32) (f : Framer) (data : Octets) : Except Fed (Framer × List Octets × Octets) → Prop
  | more {fed : Fed} (hr : fed.framer.Ready maxPDUSize) (he : fed.err = none) (hp : fed.framer.pending = f.pending ++ data) :
      RoundNext maxPDUSize f data (.error fed)
  | refused {fed : Fed} {err : Err} (he : fed.err = some err) : RoundNext maxPDUSize f data (.error fed)
  | frame {f' : Framer} {emitted : List Octets} {n : Nat} (hr : f'.Ready maxPDUSize) (hp : f'.pending = [])
      (hn : nextFrame maxPDUSize accepts [] (f.pending ++ data) = .item emitted n) :
      RoundNext maxPDUSize f data (.ok (f', emitted, (f.pending ++ data).drop n))

/-- A scan that emits nothing stops where it is. -/
theorem scans_accepts_nil {s rest : Octets} {o : Option (Option (FatalErrorKind × UInt32))}
    (h : (frames maxPDUSize accepts).Scans [] s [] rest o) : (rest = s ∧ o = none) ∨ o ≠ none := by
  cases h with
  | more => exact .inl ⟨rfl, rfl⟩
  | stop => exact .inr (Option.some_ne_none _)
  | item hc h =>
    -- an item would have been emitted
    have hitem {es es' : List Octets} {s : Octets} {n : Nat} (hc : (frames maxPDUSize accepts).cut es s = .item es' n) :
        es' ≠ [] := by
      obtain ⟨-, -, -, he⟩ := nextFrame_accepts_item hc
      rw [he]
      exact List.append_ne_nil_of_right_ne_nil _ (List.cons_ne_nil _ _)
    exact absurd rfl (h.invariant (P := (· ≠ [])) (fun hc _ => hitem hc)
      (fun hc hs => nextFrame_accepts_stop hc ▸ hs) (hitem hc))

theorem round_nil (h : f.Ready maxPDUSize) (data : Octets) : RoundNext maxPDUSize f data (f.round accepts [] data) := by
  have hs : Split maxPDUSize accepts [] _ _ := round_split (fun _ _ h => by cases h) [] data h
  have hemitted (fed : Fed) (hf : f.round accepts [] data = .error fed) : fed.emitted = [] := round_accepts_emitted hf
  revert hs hemitted
  cases f.round accepts [] data with
  | ok r =>
    obtain ⟨f', emitted, data'⟩ := r
    rintro ⟨hr, hp, n, -, hn, rfl⟩ -
    exact .frame hr hp hn
  | error fed =>
    rintro ⟨hscan, hsound⟩ hemitted
    cases he : fed.err with
    | some err => exact .refused he
    | none =>
      have hfailed : fed.framer.failed = none := hsound.err ▸ he
      rw [hemitted fed rfl] at hscan
      rcases scans_accepts_nil hscan with ⟨hp, -⟩ | ho
      · exact .more (hsound.ready hfailed) he hp
      · rw [Fed.outcome, hfailed] at ho
        exact absurd rfl ho

end Framer
end GoSmpp.Codec

namespace GoSmpp.Session
open Lib Protocol Codec

/-! ## The endpoints -/

/-- A session, the framer of its RX loop, and its connection. `session.wire` is history: the frames that the connection has
accepted whole and the peer's framer has not cut. -/
structure Endpoint where
  session : Session
  framer : Framer
  /-- `ReadBufferSize` -/
  readBufferSize : Nat
  /-- what `Feed` has not looked at of the octets that the last `Read` has returned -/
  data : Octets := []
  /-- what the connection has accepted of the frame that the TX loop is writing -/
  begun : Octets := []
  /-- what the connection has accepted and the peer has not read -/
  outbox : Octets := []
  /-- `rxLoop` has returned, for the end of the connection or the closed `done` -/
  ended : Bool := false

inductive SocketLabel where
  /-- a step of the session that neither reads nor writes -/
  | act (label : Label)
  /-- `Read` returns `n` octets -/
  | read (n : Nat)
  /-- one round of `Feed`, up to the callback -/
  | feed
  /-- `Read` returns `io.EOF` -/
  | eof
  | readError (err : Err)
  /-- the RX loop takes the closed `done` -/
  | stop
  /-- the connection accepts the next `n` octets of the frame that is being written, or what is left of it -/
  | write (n : Nat)
  | writeError (err : Err)
  deriving DecidableEq, Repr

namespace Endpoint

/-- The RX loop is between two frames. -/
def between (e : Endpoint) : Bool := !e.ended && e.session.rx == .reading && e.session.ledger.idle .rx

/-- The step is a `Read` or a `Write`, which are steps of the endpoint. -/
def transports (e : Endpoint) : Label → Bool
  | .frame _ => true
  | .tx _ =>
    match e.session.tx with
    | .writing (_ :: _) _ => true
    | _ => false
  | _ => false

/-- `s.terminate(err)` and the return of `rxLoop`. -/
def endRx (e : Endpoint) (err : Err) : Endpoint := { e with session := e.session.terminate err, ended := true }

/-- A step of an endpoint with the peer `o`. -/
def step (e o : Endpoint) : SocketLabel → Option (Endpoint × Endpoint)
  | .act label => if e.transports label then none else (e.session.step label).map fun session => ({ e with session }, o)
  | .read n =>
    if e.between ∧ e.data = [] ∧ 0 < n ∧ n ≤ e.readBufferSize ∧ n ≤ o.outbox.length then
      some ({ e with data := o.outbox.take n }, { o with outbox := o.outbox.drop n })
    else none
  | .feed =>
    if e.between ∧ e.data ≠ [] then
      match e.framer.round accepts [] e.data with
      | .error ⟨framer, _, none⟩ => some ({ e with framer, data := [] }, o)
      | .error ⟨framer, _, some err⟩ => some ({ e with framer, data := [] }.endRx err, o)
      | .ok (framer, emitted, data) => do
        let session ← e.session.step (.frame (← emitted.head?))
        some ({ e with session, framer, data }, { o with session := { o.session with wire := o.session.wire.tail } })
    else none
  | .eof =>
    if e.between ∧ e.data = [] ∧ o.outbox = [] then
      some ({ e with framer := e.framer.finalize.1 }.endRx (e.framer.finalize.2.getD (.sentinel .eof)), o)
    else none
  | .readError err => if e.between ∧ e.data = [] then some (e.endRx err, o) else none
  | .stop => if e.between ∧ e.data = [] ∧ e.session.termination.done then some ({ e with ended := true }, o) else none
  | .write n =>
    match e.session.tx with
    | .writing (item :: _) _ =>
      let octets := (item.frame.drop e.begun.length).take n
      if e.begun.length + n < item.frame.length then
        some ({ e with begun := e.begun ++ octets, outbox := e.outbox ++ octets }, o)
      else (e.session.step (.tx .go)).map fun session => ({ e with session, begun := [], outbox := e.outbox ++ octets }, o)
    | _ => none
  | .writeError err => (e.session.step (.tx (.fail err))).map fun session => ({ e with session }, o)

end Endpoint

/-- The two endpoints and the octets between them. -/
def sockets : System (Pair Endpoint) (Side × SocketLabel) where
  step p label := ((p.get label.1).step (p.get label.1.other) label.2).map fun r => .of label.1 r.1 r.2

/-! ## Frames that have been written in part -/

theorem TxItem.Faithful.whole {item : TxItem} {noZero : Prop} (h : item.Faithful noZero) (hlt : item.frame.length < 2 ^ 32) :
    Whole item.frame := by
  obtain ⟨bs, hframe⟩ := h.frame
  rw [hframe, length_frameOf] at hlt
  have hword : lengthWord (frameOf item.header bs) = UInt32.ofNat (headerSize + bs.length) := by
    rw [lengthWord, frameOf, Header.wire, List.append_assoc, List.take_left']
    · exact bigEndianUint32_putUint32 _
    · rfl
  refine ⟨?_, ?_⟩ <;> rw [hframe, length_frameOf]
  · exact Nat.le_add_right _ _
  · rw [hword, UInt32.toNat_ofNat', Nat.mod_eq_of_lt hlt]

/-- A part of a frame is on the connection only while the TX loop writes the frame, and after a write that has failed. -/
def Torn (tx : TxPhase) (begun : Octets) : Prop :=
  begun = [] ∨ ∃ frame, Whole frame ∧ begun <+: frame ∧ begun.length < frame.length ∧
    (tx = .stopped ∨ ∃ item rest batch, tx = .writing (item :: rest) batch ∧ item.frame = frame)

/-- Steps of the session outside its reads and writes leave the wire as it is, and a part of a frame where it is. -/
theorem Torn.step {e : Endpoint} {label : Label} {s : Session} (h : Torn e.session.tx e.begun) (ho : e.session.OneWayItems)
    (ht : e.transports label = false) (hs : e.session.step label = some s) :
    Torn s.tx e.begun ∧ s.wire = e.session.wire := by
  by_cases hl : ∃ choice, label = .tx choice
  · obtain ⟨choice, rfl⟩ := hl
    have hmove := txStep_move (show e.session.txStep choice = some s from hs)
    have hwriting {item : TxItem} {rest batch : List TxItem} : e.session.tx ≠ .writing (item :: rest) batch := by
      intro hw
      rw [Endpoint.transports, hw] at ht
      cases ht
    have hnil : e.begun = [] := by
      rcases h with hnil | ⟨frame, -, -, -, hstop | ⟨item, rest, batch, hw, -⟩⟩
      · exact hnil
      · have hs : e.session.txStep choice = some s := hs
        simp only [txStep, hstop] at hs
        cases hs
      · exact absurd hw hwriting
    refine ⟨.inl hnil, ?_⟩
    cases hmove with
    | write htx | fail htx => exact absurd htx hwriting
    | _ => rfl
  · obtain ⟨htx, hwire, -⟩ := Transmit.step_queues ho hs fun choice hc => hl ⟨choice, hc⟩
    exact ⟨by rw [htx]; exact h, hwire⟩

/-! ## The refinement -/

/-- The octets between the writer's session and what the reader's framer has cut are those of the frames on the wire, and of
one that has been written in part. -/
structure Streams (writer reader : Endpoint) : Prop where
  whole : ∀ frame ∈ writer.session.wire, Whole frame
  torn : Torn writer.session.tx writer.begun
  ready : reader.ended = false → reader.framer.Ready reader.framer.maxPDUSize
  stream : reader.ended = false →
    reader.framer.pending ++ reader.data ++ writer.outbox = writer.session.wire.flatten ++ writer.begun

section Streams
variable {e o e' o' : Endpoint} {side : Side} {s s' : Session} {label : Label} {rest batch : List TxItem} {n : Nat}

/-- The sessions go from one pair to the other by steps over frames. -/
abbrev FrameRun (side : Side) (s o s' o' : Session) : Prop := linked.Run anyStep (.of side s o) (.of side s' o')

/-- What a step over octets comes to. -/
abbrev Follows (side : Side) (e o e' o' : Endpoint) : Prop :=
  FrameRun side e.session o.session e'.session o'.session ∧ Streams e' o' ∧ Streams o' e'

theorem frames_act {o : Session} (side : Side) (h : s.step label = some s') (hl : port.receives label = false) :
    FrameRun side s o s' o := .tail (.refl _) trivial (Port.link_act hl h)

theorem Endpoint.between_ended (h : e.between) : e.ended = false := by
  simp only [Endpoint.between, Bool.and_eq_true, Bool.not_eq_true'] at h
  exact h.1.1

/-- The writer's side of the stream is its wire and the frame it has begun. -/
theorem Streams.writer {framer : Framer} {data : Octets} {ended : Bool} (h : Streams e o) (htorn : Torn s.tx e.begun)
    (hwire : s.wire = e.session.wire) : Streams { e with session := s, framer, data, ended } o := by
  refine ⟨?_, htorn, h.ready, ?_⟩
  · rw [hwire]; exact h.whole
  · rw [hwire]; exact h.stream

/-- The reader's side of the stream is its framer and its buffer. -/
theorem Streams.reader {begun outbox : Octets} (h : Streams o e) : Streams o { e with session := s, begun, outbox } :=
  ⟨h.whole, h.torn, h.ready, h.stream⟩

/-- Nothing is said of a stream that nobody reads. -/
theorem Streams.unread {framer : Framer} {data : Octets} (h : Streams o e) :
    Streams o { e with session := s, framer, data, ended := true } := by
  refine ⟨h.whole, h.torn, ?_, ?_⟩
  · intro he; cases he
  · intro he; cases he

/-- A frame that the framer cuts is the first one on the wire. -/
theorem Streams.next {emitted : List Octets} {maxPDUSize : UInt32} (h : Streams o e) (he : e.ended = false)
    (hn : nextFrame maxPDUSize accepts [] (e.framer.pending ++ e.data) = .item emitted n) :
    ∃ frame rest, o.session.wire = frame :: rest ∧ emitted = [frame] ∧
      (e.framer.pending ++ e.data).drop n ++ o.outbox = rest.flatten ++ o.begun := by
  have hstream := h.stream he
  have hle : n ≤ (e.framer.pending ++ e.data).length := (nextFrame_accepts_item hn).2.2.1
  have hcut : nextFrame maxPDUSize accepts [] (o.session.wire.flatten ++ o.begun) = .item emitted n := by
    rw [← hstream, nextFrame_append (by rw [hn]; exact nofun), hn]
  cases hwire : o.session.wire with
  | nil =>
    rw [hwire, List.flatten_nil, List.nil_append] at hcut
    rcases h.torn with hnil | ⟨frame, hw, hp, hlt, -⟩
    · rw [hnil] at hcut
      exact absurd (nextFrame_accepts_item hcut).1 (by decide)
    · exact absurd hcut (nextFrame_accepts_part hw hp hlt)
  | cons frame rest =>
    rw [hwire, List.flatten_cons, List.append_assoc] at hcut
    rw [hwire, List.flatten_cons, List.append_assoc frame] at hstream
    obtain ⟨rfl, rfl⟩ := nextFrame_accepts_whole (h.whole frame (by rw [hwire]; exact List.mem_cons_self)) hcut
    refine ⟨frame, rest, rfl, rfl, ?_⟩
    rw [← List.drop_append_of_le_length hle, hstream, List.drop_left]

/-- A frame is cut, and read over frames. -/
theorem frame_refines {framer : Framer} {emitted : List Octets} {data frame : Octets} (h : Streams e o) (h' : Streams o e)
    (he : e.ended = false) (hr : e.framer.round accepts [] e.data = .ok (framer, emitted, data))
    (hh : emitted.head? = some frame) (hs : e.session.step (.frame frame) = some s) :
    Follows side e o { e with session := s, framer, data }
      { o with session := { o.session with wire := o.session.wire.tail } } := by
  have hscope : s.tx = e.session.tx ∧ s.wire = e.session.wire := by
    obtain ⟨-, -, rfl⟩ := step_frame hs
    rw [processFrame_scope]
    exact ⟨rfl, rfl⟩
  have hwriter : Streams { e with session := s, framer, data } o := h.writer (hscope.1 ▸ h.torn) hscope.2
  have hround := Framer.round_nil (h'.ready he) e.data
  rw [hr] at hround
  cases hround with
  | frame hready hpending hn =>
    obtain ⟨frame', rest, hwire, rfl, hrest⟩ := h'.next he hn
    cases hh
    simp only [hwire, List.tail_cons]
    refine ⟨.tail (.refl _) trivial (Port.link_deliver (e := port) hwire hs), hwriter.reader,
      ⟨fun f hf => h'.whole f ?_, h'.torn, fun _ => hready.size ▸ hready, fun _ => ?_⟩⟩
    · rw [hwire]; exact List.mem_cons_of_mem _ hf
    · rw [hpending, List.nil_append]; exact hrest

/-- The octets that the connection accepts are a part of the frame, or the rest of it. -/
theorem write_refines {item : TxItem} (h : Streams e o) (h' : Streams o e)
    (htx : e.session.tx = .writing (item :: rest) batch) (hwhole : Whole item.frame) (hs : e.step o (.write n) = some (e', o')) :
    Follows side e o e' o' := by
  have hbegun : e.begun <+: item.frame := by
    rcases h.torn with hnil | ⟨frame, -, hprefix, -, hstop | ⟨item', rest', batch', hw, rfl⟩⟩
    · rw [hnil]; exact List.nil_prefix
    · rw [htx] at hstop; cases hstop
    · rw [htx] at hw
      cases hw
      exact hprefix
  obtain ⟨remaining, hframe⟩ := hbegun
  have hdrop : item.frame.drop e.begun.length = remaining := by rw [← hframe, List.drop_left]
  have hlength : item.frame.length = e.begun.length + remaining.length := by rw [← hframe, List.length_append]
  simp only [Endpoint.step, htx, hdrop] at hs
  split at hs
  · next hlt =>
    cases hs
    refine ⟨.refl _, ⟨h.whole, ?_, h.ready, fun ho => ?_⟩, h'.reader⟩
    · refine .inr ⟨item.frame, hwhole, ?_, ?_, .inr ⟨item, rest, batch, htx, rfl⟩⟩
      · rw [← hframe]
        exact (List.prefix_append_right_inj _).mpr (List.take_prefix _ _)
      · rw [List.length_append, List.length_take]
        omega
    · rw [← List.append_assoc, ← List.append_assoc, h.stream ho]
  · next hlt =>
    obtain ⟨session, hst, hs⟩ := Option.map_eq_some_iff.mp hs
    cases hs
    refine ⟨frames_act side hst rfl, ?_⟩
    simp only [step, txStep, htx] at hst
    cases hst
    refine ⟨⟨fun frame hf => ?_, .inl rfl, h.ready, fun ho => ?_⟩, h'.reader⟩
    · rcases List.mem_append.mp hf with hf | hf
      · exact h.whole frame hf
      · exact List.mem_singleton.mp hf ▸ hwhole
    · rw [List.take_of_length_le (by omega), ← List.append_assoc, h.stream ho, List.append_assoc, hframe]
      simp

/-- The RX loop returns. -/
theorem endRx_refines {framer : Framer} {data : Octets} (err : Err) (h : Streams e o) (h' : Streams o e) :
    Follows side e o ({ e with framer, data }.endRx err) o := by
  have hrun : FrameRun side e.session o.session (e.session.terminate err) o.session :=
    frames_act side (show e.session.step (.terminate err) = _ from rfl) rfl
  have hscope : (e.session.terminate err).tx = e.session.tx ∧ (e.session.terminate err).wire = e.session.wire := by
    rw [terminate_eq]
    exact ⟨rfl, rfl⟩
  exact ⟨hrun, h.writer (hscope.1 ▸ h.torn) hscope.2, h'.unread⟩

theorem writeError_refines {err : Err} (h : Streams e o) (hs : e.session.step (.tx (.fail err)) = some s) :
    Streams { e with session := s } o := by
  obtain ⟨hstop, hwire⟩ : s.tx = .stopped ∧ s.wire = e.session.wire := by
    cases txStep_move (show e.session.txStep (.fail err) = some s from hs)
    exact ⟨rfl, rfl⟩
  refine h.writer ?_ hwire
  rcases h.torn with hnil | ⟨frame, hw, hp, hlt, -⟩
  · exact .inl hnil
  · exact .inr ⟨frame, hw, hp, hlt, .inl hstop⟩

theorem act_refines (h : Streams e o) (h' : Streams o e) (ho : e.session.OneWayItems)
    (hs : e.step o (.act label) = some (e', o')) :
    Follows side e o e' o' := by
  simp only [Endpoint.step] at hs
  split at hs
  · cases hs
  · next ht =>
    obtain ⟨session, hst, hs⟩ := Option.map_eq_some_iff.mp hs
    cases hs
    have ht : e.transports label = false := eq_false_of_ne_true ht
    have hr : port.receives label = false := by
      cases label <;> first | rfl | cases ht
    obtain ⟨htorn, hwire⟩ := h.torn.step ho ht hst
    exact ⟨frames_act side hst hr, h.writer htorn hwire, h'.reader⟩

/-- The framer waits for more, refuses what it has, or cuts a frame. -/
theorem feed_refines (h : Streams e o) (h' : Streams o e) (hs : e.step o .feed = some (e', o')) :
    Follows side e o e' o' := by
  obtain ⟨⟨hb, -⟩, hs⟩ := Option.ite_none_right_eq_some.mp hs
  have he := Endpoint.between_ended hb
  have hround := Framer.round_nil (h'.ready he) e.data
  split at hs
  · next framer emitted hr =>
    cases hs
    rw [hr] at hround
    cases hround with
    | more hready _ hp =>
      refine ⟨.refl _, h.writer h.torn rfl, h'.whole, h'.torn, fun _ => hready.size ▸ hready, fun _ => ?_⟩
      show framer.pending ++ [] ++ o.outbox = _
      rw [List.append_nil, show framer.pending = _ from hp]
      exact h'.stream he
    | refused herr => cases herr
  · cases hs
    exact endRx_refines _ h h'
  · next hr =>
    obtain ⟨frame, hh, hs⟩ := Option.bind_eq_some_iff.mp hs
    obtain ⟨session, hst, hs⟩ := Option.bind_eq_some_iff.mp hs
    cases hs
    exact frame_refines h h' he hr hh hst

/-- The step lemma. -/
theorem step_refines {label : SocketLabel} (side : Side) (h : Streams e o) (h' : Streams o e) (ho : e.session.OneWayItems)
    (hwhole : ∀ item ∈ e.session.tx.unwritten, Whole item.frame) (hs : e.step o label = some (e', o')) :
    Follows side e o e' o' := by
  cases label with
  | act label => exact act_refines h h' ho hs
  | read n =>
    obtain ⟨⟨hb, hdata, -⟩, hs⟩ := Option.ite_none_right_eq_some.mp hs
    cases hs
    have hwriter : Streams { e with data := o.outbox.take n } o := h.writer h.torn rfl
    refine ⟨.refl _, hwriter.reader, h'.whole, h'.torn, h'.ready, fun he => ?_⟩
    show e.framer.pending ++ o.outbox.take n ++ o.outbox.drop n = _
    rw [List.append_assoc, List.take_append_drop, ← h'.stream he, hdata, List.append_nil]
  | feed => exact feed_refines h h' hs
  | eof =>
    obtain ⟨-, hs⟩ := Option.ite_none_right_eq_some.mp hs
    cases hs
    exact endRx_refines _ h h'
  | readError err =>
    obtain ⟨-, hs⟩ := Option.ite_none_right_eq_some.mp hs
    cases hs
    exact endRx_refines err h h'
  | stop =>
    obtain ⟨-, hs⟩ := Option.ite_none_right_eq_some.mp hs
    cases hs
    exact ⟨.refl _, h.writer h.torn rfl, h'.unread⟩
  | write n =>
    cases htx : e.session.tx with
    | writing items batch =>
      cases items with
      | nil => simp only [Endpoint.step, htx, reduceCtorEq] at hs
      | cons item rest =>
        rw [htx] at hwhole
        exact write_refines h h' htx (hwhole item List.mem_cons_self) hs
    | _ => simp only [Endpoint.step, htx, reduceCtorEq] at hs
  | writeError err =>
    obtain ⟨session, hst, hs⟩ := Option.map_eq_some_iff.mp hs
    cases hs
    exact ⟨frames_act side hst rfl, writeError_refines h hst, h'.reader⟩

end Streams

/-! ## Runs -/

/-- The frames that are being written have a length that fits the word for it. -/
def Endpoint.sized (e : Endpoint) : Bool := e.session.tx.unwritten.all fun item => item.frame.length < 2 ^ 32

def Sized (p : Pair Endpoint) (_ : Side × SocketLabel) : Prop := p.left.sized ∧ p.right.sized

instance (p : Pair Endpoint) (label : Side × SocketLabel) : Decidable (Sized p label) :=
  inferInstanceAs (Decidable (_ ∧ _))

/-- Two sessions that have been started over one connection. -/
def newSockets (esme smsc : Config) (framers : Side → Framer) (sizes : Side → Nat) : Pair Endpoint :=
  ⟨{ session := new esme .esme, framer := framers .left, readBufferSize := sizes .left },
    { session := new smsc .smsc, framer := framers .right, readBufferSize := sizes .right }⟩

def sessionsOf (p : Pair Endpoint) : Pair Session := ⟨p.left.session, p.right.session⟩

section Run
variable {esme smsc : Config} {framers : Side → Framer} {sizes : Side → Nat} {p p' : Pair Endpoint}

/-- What has been done over octets has been done over frames, and the octets in flight are those of the frames. -/
structure Refines (esme smsc : Config) (p : Pair Endpoint) : Prop where
  run : linked.Run anyStep (newPair esme smsc) (sessionsOf p)
  streams : ∀ side, Streams (p.get side) (p.get side.other)

theorem refines_new (hf : ∀ side, ∃ maxPDUSize, newFramer maxPDUSize = .ok (framers side)) :
    Refines esme smsc (newSockets esme smsc framers sizes) := by
  refine ⟨.refl _, fun side => ?_⟩
  obtain ⟨max, hmax⟩ := hf side.other
  obtain ⟨-, hp, hr⟩ := newFramer_ok hmax
  cases side <;> exact ⟨fun _ h => (List.not_mem_nil h).elim, .inl rfl, fun _ => hr, fun _ => congrArg (· ++ [] ++ []) hp⟩

/-- What is on its way in the sessions is faithful. -/
theorem Refines.orderly (h : Refines esme smsc p) (side : Side) : ∃ config, Orderly config (p.get side).session := by
  obtain ⟨config, ho⟩ := Port.run_each (e := port) (P := fun _ s => ∃ config : Config, Orderly config s)
    (fun _ _ _ _ hs ⟨config, ho⟩ => ⟨config, ho.step hs⟩) (fun _ _ rest ⟨config, ho⟩ => ⟨config, ho.read rest⟩) h.run
    (fun side => by cases side <;> exact ⟨_, orderly_new ..⟩) side
  cases side <;> exact ⟨config, ho⟩

theorem Refines.step {label : Side × SocketLabel} (h : Refines esme smsc p) (hsize : Sized p label)
    (hs : sockets.step p label = some p') : Refines esme smsc p' := by
  obtain ⟨side, label⟩ := label
  obtain ⟨⟨e', o'⟩, hst, rfl⟩ := Option.map_eq_some_iff.mp hs
  obtain ⟨config, ho⟩ := h.orderly side
  have hwhole (item : TxItem) (hi : item ∈ (p.get side).session.tx.unwritten) : Whole item.frame := by
    have hlt : (p.get side).sized := by cases side <;> [exact hsize.1; exact hsize.2]
    refine (ho.faithful item ?_).whole (of_decide_eq_true (List.all_eq_true.mp hlt item hi))
    exact List.mem_append_left _ (List.mem_append_left _ hi)
  have hback : Streams (p.get side.other) (p.get side) := by
    have := h.streams side.other
    rwa [Side.other_other] at this
  obtain ⟨hrun, hs₁, hs₂⟩ := step_refines side (h.streams side) hback ho.oneWayItems hwhole hst
  have hsessions : sessionsOf (.of side e' o') = .of side e'.session o'.session := by cases side <;> rfl
  have hbefore : sessionsOf p = .of side (p.get side).session (p.get side.other).session := by cases side <;> rfl
  refine ⟨?_, fun b => ?_⟩
  · rw [hsessions]
    exact h.run.trans (hbefore ▸ hrun)
  · rcases side.eq_or_other b with rfl | rfl
    · rw [Pair.get_of, Pair.get_of_other]
      exact hs₁
    · rw [Side.other_other, Pair.get_of, Pair.get_of_other]
      exact hs₂

/-- **Octets refine frames.** However the octets are cut into reads and writes, two endpoints do what two sessions do that
read and write whole frames. -/
theorem run_refines (hf : ∀ side, ∃ maxPDUSize, newFramer maxPDUSize = .ok (framers side))
    (h : sockets.Run Sized (newSockets esme smsc framers sizes) p) :
    linked.Run anyStep (newPair esme smsc) (sessionsOf p) ∧ ∀ side, Streams (p.get side) (p.get side.other) := by
  have hr : Refines esme smsc p :=
    h.invariant (P := Refines esme smsc) (fun _ _ _ hok hs hr => hr.step hok hs) (refines_new hf)
  exact ⟨hr.run, hr.streams⟩

/-- `n` octets are written and read. -/
def passes (n : Nat) : List (Side × SocketLabel) := [(.left, .write n), (.right, .read n), (.right, .feed)]

/-- The frame of a `bind_transceiver` is written and read in two pieces. -/
def bindsInPieces : List (Side × SocketLabel) :=
  (Label.request commandBindTransceiver bindTransceiverBody true :: List.replicate 8 (.call 0 .go) ++
    List.replicate 5 (Label.tx .go)).map (fun label => (.left, .act label)) ++ passes 2 ++ passes 21

theorem run_refines_bindsInPieces : ∃ p, p.right.session.rx ≠ .reading ∧
    linked.Run anyStep (newPair {} {}) (sessionsOf p) ∧ ∀ side, Streams (p.get side) (p.get side.other) := by
  have hrun := System.run_after sockets Sized (newSockets {} {} (fun _ => { maxPDUSize := defaultMaxPDUSize }) fun _ => 64)
    bindsInPieces (by decide +kernel)
  exact ⟨_, by decide +kernel, run_refines (fun _ => ⟨0, rfl⟩) hrun⟩

end Run

end GoSmpp.Session
