import GoSmpp.Codec.Framer

/-!
# Package `codec`: errors of the framer's callback that are not fatal

`Framer.Feed` returns an error of the callback from two places. The frame is then still in `pending` if it was put together
there, and is emitted again by the next call; if it lay whole in the data, what follows it in the data is lost. Neither is
marked as a failure.

* `forgive` : the callback without these errors, for which `Codec.Framer` says what `feed` does;
* `feed_forgive` : one call does the same with both, if an error only comes for a frame that lies whole in the data and ends it;
* `calls_feed_orderly` : then the frames emitted are the frames of the stream, one after the other.
-/

namespace GoSmpp.Codec
open Lib Protocol

/-! ## Frames of a stream -/

section NextFrame
variable {maxPDUSize : UInt32} {emit : Emit} {emitted emitted' : List Octets} {s : Octets}

theorem nextFrame_item {n : Nat} (h : nextFrame maxPDUSize emit emitted s = .item emitted' n) :
    emitted' = emitted ++ [s.take n] ∧ n = (lengthWord s).toNat ∧ lengthError maxPDUSize (lengthWord s) = none ∧
      n ≤ s.length ∧ emit emitted' = none := by
  rcases nextFrame_cases maxPDUSize emit emitted s with hm | ⟨kind, h4, hk⟩ | ⟨h4, hk, hl⟩
  · rw [hm] at h
    cases h
  · rw [nextFrame_bad h4 hk] at h
    cases h
  · rw [nextFrame_whole h4 hk hl] at h
    split at h <;> cases h
    exact ⟨rfl, rfl, hk, hl, ‹_›⟩

theorem nextFrame_stop {o : Option (FatalErrorKind × UInt32)}
    (h : nextFrame maxPDUSize emit emitted s = .stop emitted' o) :
    emitted' = emitted ∨ ∃ n, emitted' = emitted ++ [s.take n] := by
  rcases nextFrame_cases maxPDUSize emit emitted s with hm | ⟨kind, h4, hk⟩ | ⟨h4, hk, hl⟩
  · rw [hm] at h
    cases h
  · rw [nextFrame_bad h4 hk] at h
    cases h
    exact .inl rfl
  · rw [nextFrame_whole h4 hk hl] at h
    split at h <;> cases h
    exact .inr ⟨_, rfl⟩

theorem frames_scans_flatten {rest : Octets} {o : Option (Option (FatalErrorKind × UInt32))}
    (h : (frames maxPDUSize emit).Scans emitted s emitted' rest o) :
    ∃ new, emitted' = emitted ++ new ∧ new.flatten <+: s ∧ (o = none → new.flatten ++ rest = s) := by
  induction h with
  | more _ => exact ⟨[], (List.append_nil _).symm, List.nil_prefix, fun _ => rfl⟩
  | @stop emitted s emitted' e hc =>
    rcases nextFrame_stop hc with rfl | ⟨n, rfl⟩
    · exact ⟨[], (List.append_nil _).symm, List.nil_prefix, nofun⟩
    · refine ⟨[s.take n], rfl, ?_, nofun⟩
      rw [List.flatten_singleton]
      exact List.take_prefix n s
  | @item emitted s emitted₁ n emitted' rest o hc _ ih =>
    obtain ⟨rfl, -⟩ := nextFrame_item hc
    obtain ⟨new, rfl, hpre, hall⟩ := ih
    refine ⟨s.take n :: new, by rw [List.append_assoc]; rfl, ?_, fun ho => ?_⟩
    · rw [List.flatten_cons]
      conv_rhs => rw [← List.take_append_drop n s]
      exact (List.prefix_append_right_inj _).mpr hpre
    · rw [List.flatten_cons, List.append_assoc, hall ho, List.take_append_drop]

end NextFrame

/-! ## The callback without its errors that are not fatal -/

def forgive (emit : Emit) : Emit := fun frames => (emit frames).filter fun err => err.asFatal.isSome

theorem forgive_fatal (emit : Emit) (frames : List Octets) (e : Err) (h : forgive emit frames = some e) :
    e.asFatal.isSome := (Option.filter_eq_some_iff.mp h).2

/-- None of the frames has been answered with a fatal error. -/
def Unbroken (emit : Emit) (fs : List Octets) : Prop := ∀ first, first <+: fs → first ≠ [] → forgive emit first = none

theorem Unbroken.concat {emit : Emit} {fs : List Octets} {frame : Octets} (h : Unbroken emit fs)
    (hlast : forgive emit (fs ++ [frame]) = none) : Unbroken emit (fs ++ [frame]) := by
  intro first hpre hne
  rcases List.prefix_concat_iff.mp hpre with rfl | hpre
  · exact hlast
  · exact h first hpre hne

theorem frames_scans_unbroken {maxPDUSize : UInt32} {emit : Emit} {emitted emitted' : List Octets} {s rest : Octets}
    {o : Option (Option (FatalErrorKind × UInt32))} (h : (frames maxPDUSize (forgive emit)).Scans emitted s emitted' rest o)
    (ho : o = none) (hb : Unbroken emit emitted) : Unbroken emit emitted' := by
  induction h with
  | more _ => exact hb
  | stop _ => cases ho
  | item hc _ ih =>
    obtain ⟨rfl, -, -, -, hnone⟩ := nextFrame_item hc
    exact ih ho (hb.concat hnone)

/-- The callback answers the next frames, which need some of the data, with an error that is not fatal only if the last of
them lies whole in the data and ends it. -/
def Restrained (maxPDUSize : UInt32) (emit : Emit) (emitted : List Octets) (pending data : Octets) : Prop :=
  ∀ new err, new ≠ [] → (∀ frame ∈ new, Delimited maxPDUSize frame) → new.flatten <+: pending ++ data →
    pending.length < new.flatten.length → Unbroken emit (emitted ++ new.dropLast) → emit (emitted ++ new) = some err →
    err.asFatal = none → new.flatten = pending ++ data ∧ pending.length ≤ new.dropLast.flatten.length

theorem Restrained.drop {maxPDUSize : UInt32} {emit : Emit} {emitted : List Octets} {pending data : Octets} {n : Nat}
    (hres : Restrained maxPDUSize emit emitted pending data) (hd : Delimited maxPDUSize ((pending ++ data).take n))
    (hn : pending.length < n) (hlen : n ≤ (pending ++ data).length) :
    Restrained maxPDUSize emit (emitted ++ [(pending ++ data).take n]) [] ((pending ++ data).drop n) := by
  intro new err hne hnew hpre hlt hb herr hnone
  have hsplit : (((pending ++ data).take n) :: new).flatten = (pending ++ data).take n ++ new.flatten := List.flatten_cons
  obtain ⟨hends, -⟩ := hres ((pending ++ data).take n :: new) err (List.cons_ne_nil _ _)
    (List.forall_mem_cons.mpr ⟨hd, hnew⟩)
    (by
      rw [hsplit]
      conv_rhs => rw [← List.take_append_drop n (pending ++ data)]
      exact (List.prefix_append_right_inj _).mpr hpre)
    (by rw [hsplit, List.length_append, List.length_take]; omega)
    (by rwa [List.dropLast_cons_of_ne_nil hne, List.append_cons])
    (by rw [← herr, List.append_assoc]; rfl) hnone
  refine ⟨?_, Nat.zero_le _⟩
  rw [hsplit] at hends
  conv_rhs at hends => rw [← List.take_append_drop n (pending ++ data)]
  exact List.append_cancel_left hends

/-- The rounds are the same, or the callback without the error goes round again with no data left. -/
def RoundsAlike (x y : Except Fed (Framer × List Octets × Octets)) : Prop :=
  x = y ∨ ∃ f emitted err, x = .error ⟨f, emitted, some err⟩ ∧ y = .ok (f, emitted, [])

namespace Framer
section Forgive
variable {maxPDUSize : UInt32} {emit : Emit} {f : Framer} {emitted : List Octets} {frame data : Octets}

theorem emit_forgive (h : ∀ err, emit (emitted ++ [frame]) = some err → err.asFatal ≠ none) :
    f.emit emit emitted frame = f.emit (forgive emit) emitted frame := by
  cases he : emit (emitted ++ [frame]) with
  | none => rw [emit_none he, emit_none (by rw [forgive, he]; rfl)]
  | some err =>
    have hf : err.asFatal.isSome := Option.isSome_iff_ne_none.mpr (h err he)
    rw [emit_fatal he hf, emit_fatal (by rw [forgive, he, Option.filter_some, if_pos hf]) hf]

theorem emit_not_fatal {err : Err} (h : emit (emitted ++ [frame]) = some err) (hf : err.asFatal = none) :
    f.emit emit emitted frame = ⟨f, emitted ++ [frame], some err⟩ ∧
      f.emit (forgive emit) emitted frame = ⟨f, emitted ++ [frame], none⟩ := by
  constructor
  · simp only [Framer.emit, h, hf, Option.isSome_none, Bool.false_eq_true, if_false]
  · exact emit_none (by rw [forgive, h, Option.filter_some, hf]; rfl)

theorem Ready.pending_lt (h : f.Ready maxPDUSize)
    (hk : lengthError maxPDUSize (lengthWord (f.pending ++ data)) = none) :
    f.pending.length < (lengthWord (f.pending ++ data)).toNat := by
  rcases h.pending with ⟨-, hlt⟩ | hpart
  · have hpos := (lengthError_none hk).1
    unfold headerSize at hpos
    omega
  · rw [lengthWord_append hpart.word, ← hpart.expected]
    exact hpart.more

theorem Ready.fatal_of_pending (h : f.Ready maxPDUSize) (hb : Unbroken emit emitted)
    (hres : Restrained maxPDUSize emit emitted f.pending data)
    (hp : 0 < f.pending.length) (hk : lengthError maxPDUSize (lengthWord (f.pending ++ data)) = none)
    (hl : (lengthWord (f.pending ++ data)).toNat ≤ (f.pending ++ data).length) (err : Err)
    (herr : emit (emitted ++ [(f.pending ++ data).take (lengthWord (f.pending ++ data)).toNat]) = some err) :
    err.asFatal ≠ none := by
  intro hnone
  have hlt := h.pending_lt hk
  have hends := (hres [_] err (List.cons_ne_nil _ _) (List.forall_mem_singleton.mpr (take_delimited hk hl))
    (by rw [List.flatten_singleton]; exact List.take_prefix _ _)
    (by rw [List.flatten_singleton, List.length_take]; omega) (by rwa [List.dropLast_singleton, List.append_nil]) herr hnone).2
  simp only [List.dropLast_singleton, List.flatten_nil, List.length_nil] at hends
  omega

theorem fillBody_forgive (hp : f.Partial)
    (hfatal : f.expected.toNat ≤ (f.pending ++ data).length → ∀ err,
      emit (emitted ++ [(f.pending ++ data).take f.expected.toNat]) = some err → err.asFatal ≠ none) :
    f.fillBody emit emitted data = f.fillBody (forgive emit) emitted data := by
  have hmore := hp.more
  unfold fillBody
  generalize hneed : min (f.expected.toNat - f.pending.length) data.length = need
  simp only
  split
  · rfl
  · next hfull =>
    rw [List.length_append, List.length_take] at hfull
    have hframe : (f.pending ++ data.take need).take f.expected.toNat = (f.pending ++ data).take f.expected.toNat := by
      rw [List.take_append, List.take_append, List.take_take, List.take_of_length_le hmore.le]
      congr 2
      omega
    rw [hframe, emit_forgive (hfatal (by rw [List.length_append]; omega))]

theorem direct_forgive (hsize : f.maxPDUSize = maxPDUSize) (hp : f.pending = []) (hb : Unbroken emit emitted)
    (hres : Restrained maxPDUSize emit emitted f.pending data) :
    RoundsAlike (f.direct emit emitted data) (f.direct (forgive emit) emitted data) := by
  unfold direct
  by_cases h4 : data.length < 4
  · rw [if_pos h4, if_pos h4]
    exact .inl rfl
  rw [if_neg h4, if_neg h4]
  rw [Nat.not_lt] at h4
  cases hk : lengthError maxPDUSize (lengthWord data) with
  | some kind =>
    obtain ⟨err, he, hv⟩ := validateLength_error (f := f) (by rw [hsize]; exact hk) data
    simp only [hv]
    exact .inl rfl
  | none =>
    have hv := validateLength_ok (f := f) (by rw [hsize]; exact hk) data
    simp only [hv]
    by_cases hl : data.length < (lengthWord data).toNat
    · rw [if_pos hl, if_pos hl]
      exact .inl rfl
    rw [if_neg hl, if_neg hl]
    rw [Nat.not_lt] at hl
    by_cases hfatal : ∀ err, emit (emitted ++ [data.take (lengthWord data).toNat]) = some err → err.asFatal ≠ none
    · rw [emit_forgive hfatal]
      exact .inl rfl
    · push Not at hfatal
      obtain ⟨err, herr, hnone⟩ := hfatal
      obtain ⟨hemit, hforgive⟩ := emit_not_fatal (f := f) herr hnone
      have hpos := (lengthError_none hk).1
      unfold headerSize at hpos
      obtain ⟨hends, -⟩ := hres [data.take (lengthWord data).toNat] err (List.cons_ne_nil _ _)
        (List.forall_mem_singleton.mpr (take_delimited hk hl))
        (by rw [List.flatten_singleton, hp]; exact List.take_prefix _ _)
        (by rw [List.flatten_singleton, List.length_take, hp, List.length_nil]; omega)
        (by rwa [List.dropLast_singleton, List.append_nil]) herr hnone
      rw [List.flatten_singleton, hp, List.nil_append] at hends
      have hdrop : data.drop (lengthWord data).toNat = [] := by
        have hlen := congrArg List.length hends
        rw [List.length_take] at hlen
        exact List.drop_eq_nil_iff.mpr (by omega)
      rw [hemit, hforgive, hdrop]
      exact .inr ⟨_, _, _, rfl, rfl⟩

theorem round_forgive (h : f.Ready maxPDUSize) (hb : Unbroken emit emitted)
    (hres : Restrained maxPDUSize emit emitted f.pending data) :
    RoundsAlike (f.round emit emitted data) (f.round (forgive emit) emitted data) := by
  unfold round
  by_cases hp : 0 < f.pending.length
  · rw [if_pos hp, if_pos hp]
    have hl := fillLength_split emit emitted data h hp
    revert hl
    cases f.fillLength data with
    | error r => exact fun _ => .inl rfl
    | ok r =>
      obtain ⟨f', data'⟩ := r
      rintro ⟨hsize, -, hpart, hs⟩
      have hw : lengthWord (f.pending ++ data) = f'.expected := by rw [← hs, lengthWord_append hpart.word, hpart.expected]
      have hk : lengthError maxPDUSize (lengthWord (f.pending ++ data)) = none := by
        rw [hw, ← hsize]
        exact hpart.valid
      refine .inl (fillBody_forgive hpart ?_)
      rw [hs, ← hw]
      exact h.fatal_of_pending hb hres hp hk
  · rw [if_neg hp, if_neg hp]
    exact direct_forgive h.size (List.eq_nil_of_length_eq_zero (by omega)) hb hres

/-- **The loop does the same with both callbacks.** -/
theorem feedLoop_forgive (fuel : Nat) (h : f.Ready maxPDUSize) (hb : Unbroken emit emitted)
    (hres : Restrained maxPDUSize emit emitted f.pending data) :
    (feedLoop emit fuel f emitted data).framer = (feedLoop (forgive emit) fuel f emitted data).framer ∧
      (feedLoop emit fuel f emitted data).emitted = (feedLoop (forgive emit) fuel f emitted data).emitted := by
  induction fuel generalizing f emitted data with
  | zero => exact ⟨rfl, rfl⟩
  | succ fuel ih =>
    unfold feedLoop
    by_cases hd : data.length = 0
    · rw [if_pos hd, if_pos hd]
      exact ⟨rfl, rfl⟩
    rw [if_neg hd, if_neg hd]
    have hsplit := round_split (forgive_fatal emit) emitted data h
    rcases round_forgive h hb hres with heq | ⟨f', emitted', err, hx, hy⟩
    · rw [heq]
      revert hsplit
      cases f.round (forgive emit) emitted data with
      | error fed => exact fun _ => ⟨rfl, rfl⟩
      | ok r =>
        obtain ⟨f', emitted', data'⟩ := r
        rintro ⟨hready, hnil, n, -, hc, rfl⟩
        obtain ⟨rfl, rfl, hk, hn, hnone⟩ := nextFrame_item hc
        refine ih hready (hb.concat hnone) ?_
        rw [hnil]
        exact hres.drop (take_delimited hk hn) (h.pending_lt hk) hn
    · rw [hx, hy]
      -- there is no data left: the other loop ends as well
      cases fuel <;> exact ⟨rfl, rfl⟩

theorem feed_forgive (hmax : headerSize ≤ maxPDUSize.toNat) (h : f.Ready maxPDUSize) (hb : Unbroken emit emitted)
    (hres : Restrained maxPDUSize emit emitted f.pending data) :
    (f.feed emit emitted data).framer = (f.feed (forgive emit) emitted data).framer ∧
      (f.feed emit emitted data).emitted = (f.feed (forgive emit) emitted data).emitted := by
  have hinit := initialized_of_le (h.size ▸ hmax : headerSize ≤ f.maxPDUSize.toNat)
  simp only [feed, hinit, not_true_eq_false, if_false, h.failed]
  exact feedLoop_forgive _ h hb hres

end Forgive
end Framer

/-! ## Runs -/

/-- The last of the frames lies whole in one chunk and ends it. -/
def EndsChunk (chunks fs : List Octets) : Prop :=
  ∃ i < chunks.length, fs.flatten.length = (chunks.take (i + 1)).flatten.length ∧
    (chunks.take i).flatten.length ≤ fs.dropLast.flatten.length

/-- The callback answers the first frames of the stream, none of which but the last it has met with a fatal error, with one
that is not fatal only if the last of them lies whole in one chunk and ends it. -/
def RefusesLast (maxPDUSize : UInt32) (emit : Emit) (chunks : List Octets) : Prop :=
  ∀ fs err, fs ≠ [] → (∀ frame ∈ fs, Delimited maxPDUSize frame) → fs.flatten <+: chunks.flatten →
    Unbroken emit fs.dropLast → emit fs = some err → err.asFatal = none → EndsChunk chunks fs

theorem length_flatten_take_le (chunks : List Octets) {a b : Nat} (h : a ≤ b) :
    (chunks.take a).flatten.length ≤ (chunks.take b).flatten.length :=
  ((List.take_prefix_take_left h).flatten).length_le

theorem length_dropLast_flatten_lt {maxPDUSize : UInt32} {fs : List Octets} (hne : fs ≠ [])
    (hdel : ∀ frame ∈ fs, Delimited maxPDUSize frame) : fs.dropLast.flatten.length < fs.flatten.length := by
  have hlast := (hdel _ (List.getLast_mem hne)).2.1
  unfold headerSize at hlast
  conv_rhs => rw [← List.dropLast_append_getLast hne, List.flatten_append, List.flatten_singleton, List.length_append]
  omega

section Runs
variable {maxPDUSize : UInt32} {emit : Emit} {chunks : List Octets} {i : Nat}

theorem RefusesLast.restrained (h : RefusesLast maxPDUSize emit chunks) (hi : i < chunks.length) {emitted : List Octets}
    {pending : Octets} (hemitted : ∀ frame ∈ emitted, Delimited maxPDUSize frame)
    (hseen : emitted.flatten ++ pending = (chunks.take i).flatten) :
    Restrained maxPDUSize emit emitted pending chunks[i] := by
  intro new err hne hdel hpre hlt hb herr hnone
  have hnext : (chunks.take (i + 1)).flatten = emitted.flatten ++ (pending ++ chunks[i]) := by
    rw [List.take_succ_eq_append_getElem hi, List.flatten_append, List.flatten_singleton, ← hseen, List.append_assoc]
  have hfs : (emitted ++ new).flatten <+: (chunks.take (i + 1)).flatten := by
    rw [List.flatten_append, hnext]
    exact (List.prefix_append_right_inj _).mpr hpre
  obtain ⟨j, hj, hend, hstart⟩ := h (emitted ++ new) err (List.append_ne_nil_of_right_ne_nil _ hne)
    (List.forall_mem_append.mpr ⟨hemitted, hdel⟩) (hfs.trans (List.take_prefix _ _).flatten)
    (by rwa [List.dropLast_append_of_ne_nil hne]) herr hnone
  have hlast := length_dropLast_flatten_lt hne hdel
  have hseenLen := congrArg List.length hseen
  have hnextLen := congrArg List.length hnext
  have hfsLen := hfs.length_le
  rw [List.dropLast_append_of_ne_nil hne] at hstart
  simp only [List.flatten_append, List.length_append] at hend hstart hseenLen hnextLen hfsLen
  -- the frame ends after the octets fed before this chunk, and starts before those of the next
  obtain rfl : j = i := by
    rcases Nat.lt_trichotomy j i with hlt' | rfl | hgt
    · have := length_flatten_take_le chunks (Nat.succ_le_of_lt hlt')
      rw [Nat.succ_eq_add_one] at this
      omega
    · rfl
    · have := length_flatten_take_le chunks (Nat.succ_le_of_lt hgt)
      rw [Nat.succ_eq_add_one] at this
      omega
  refine ⟨hpre.eq_of_length ?_, by omega⟩
  rw [List.length_append]
  omega

/-- The run after `i` chunks. -/
def runChunks (emit : Emit) (f : Framer) (chunks : List Octets) (i : Nat) : Fed :=
  Fed.calls emit ⟨f, [], none⟩ ((chunks.take i).map .feed)

theorem runChunks_succ (emit : Emit) (f : Framer) (hi : i < chunks.length) :
    runChunks emit f chunks (i + 1) = (runChunks emit f chunks i).call emit (.feed chunks[i]) := by
  unfold runChunks
  rw [List.take_succ_eq_append_getElem hi, List.map_append, Fed.calls, List.foldl_append]
  rfl

theorem runChunks_of_le (emit : Emit) (f : Framer) (hi : chunks.length ≤ i) :
    runChunks emit f chunks (i + 1) = runChunks emit f chunks i := by
  unfold runChunks
  rw [List.take_of_length_le hi, List.take_of_length_le (Nat.le_succ_of_le hi)]

theorem Fed.calls_emitted_of_failed {r : Fed} (hmax : headerSize ≤ r.framer.maxPDUSize.toNat) {e : Err}
    (h : r.framer.failed = some e) (cs : List FramerCall) : (r.calls emit cs).emitted = r.emitted := by
  induction cs generalizing r with
  | nil => rfl
  | cons c cs ih =>
    have hcall : (r.call emit c).framer = r.framer ∧ (r.call emit c).emitted = r.emitted := by
      cases c with
      | feed data =>
        rw [Fed.call, Framer.feed_failed hmax h]
        exact ⟨rfl, rfl⟩
      | finalize =>
        rw [Fed.call, Framer.finalize_failed hmax h]
        exact ⟨rfl, rfl⟩
    have hrest : ((r.call emit c).calls emit cs).emitted = (r.call emit c).emitted :=
      ih (by rw [hcall.1]; exact hmax) (by rw [hcall.1]; exact h)
    exact hrest.trans hcall.2

/-- The frames emitted are the first of the stream, and what is pending follows them. -/
structure Fed.Orderly (maxPDUSize : UInt32) (stream : Octets) (r : Fed) : Prop where
  delimited : ∀ frame ∈ r.emitted, Delimited maxPDUSize frame
  flatten : r.emitted.flatten <+: stream
  pending : r.framer.failed = none → r.emitted.flatten ++ r.framer.pending = stream

section Forgiven
variable {f : Framer} (hmax : headerSize ≤ maxPDUSize.toNat) (hf : f.Ready maxPDUSize) (hnil : f.pending = [])
include hmax hf

theorem runChunks_sound : (runChunks (forgive emit) f chunks i).Sound maxPDUSize :=
  hf.sound.calls hmax (forgive_fatal emit) _

theorem runChunks_err (hfailed : (runChunks (forgive emit) f chunks i).framer.failed = none) :
    (runChunks (forgive emit) f chunks i).err.map fatalClass = none := by
  have hsound : (runChunks (forgive emit) f chunks i).Sound maxPDUSize := runChunks_sound hmax hf
  rw [hsound.err.trans hfailed]
  rfl

theorem runChunks_unbroken (hfailed : (runChunks (forgive emit) f chunks i).framer.failed = none) :
    Unbroken emit (runChunks (forgive emit) f chunks i).emitted :=
  frames_scans_unbroken (calls_feed_scans hmax (forgive_fatal emit) hf (chunks.take i)) (runChunks_err hmax hf hfailed)
    fun _ hpre hne => absurd (List.prefix_nil.mp hpre) hne

include hnil

theorem runChunks_forgive_orderly :
    (runChunks (forgive emit) f chunks i).Orderly maxPDUSize (chunks.take i).flatten := by
  have hscans := calls_feed_scans hmax (forgive_fatal emit) hf (chunks.take i)
  rw [hnil, List.nil_append] at hscans
  obtain ⟨new, hnew, hpre, hall⟩ := frames_scans_flatten hscans
  rw [List.nil_append] at hnew
  subst hnew
  exact ⟨frames_scans_delimited hscans nofun, hpre, fun hfailed => hall (runChunks_err hmax hf hfailed)⟩

/-- **A callback that refuses only the last frame of a chunk** leaves the framer, after every chunk, where it would be
without these errors. -/
theorem runChunks_forgive (h : RefusesLast maxPDUSize emit chunks) (i : Nat) :
    (runChunks emit f chunks i).framer = (runChunks (forgive emit) f chunks i).framer ∧
      (runChunks emit f chunks i).emitted = (runChunks (forgive emit) f chunks i).emitted := by
  induction i with
  | zero => exact ⟨rfl, rfl⟩
  | succ i ih =>
    by_cases hi : i < chunks.length
    · rw [runChunks_succ emit f hi, runChunks_succ (forgive emit) f hi, Fed.call, Fed.call, ih.1, ih.2]
      have hsound : (runChunks (forgive emit) f chunks i).Sound maxPDUSize := runChunks_sound hmax hf
      have horderly : (runChunks (forgive emit) f chunks i).Orderly maxPDUSize _ :=
        runChunks_forgive_orderly hmax hf hnil
      cases hfailed : (runChunks (forgive emit) f chunks i).framer.failed with
      | some e =>
        have hm : headerSize ≤ (runChunks (forgive emit) f chunks i).framer.maxPDUSize.toNat := by
          rw [hsound.size]
          exact hmax
        rw [Framer.feed_failed hm hfailed, Framer.feed_failed hm hfailed]
        exact ⟨rfl, rfl⟩
      | none =>
        exact Framer.feed_forgive hmax (hsound.ready hfailed) (runChunks_unbroken hmax hf hfailed)
          (h.restrained hi horderly.delimited (horderly.pending hfailed))
    · rw [runChunks_of_le _ _ (Nat.not_lt.mp hi), runChunks_of_le _ _ (Nat.not_lt.mp hi)]
      exact ih

end Forgiven

/-- **Errors that are not fatal.** If the callback returns such an error only for a frame that lies whole in one chunk and ends
it, then after every chunk the frames emitted are the first frames of the stream fed so far, one after the other, and nothing
of it is lost; and a framer that has failed emits nothing more. -/
theorem calls_feed_orderly {f : Framer} (hf : newFramer maxPDUSize = .ok f) (h : RefusesLast f.maxPDUSize emit chunks)
    (i : Nat) :
    (runChunks emit f chunks i).Orderly f.maxPDUSize (chunks.take i).flatten ∧
      ((runChunks emit f chunks i).framer.failed ≠ none → ∀ cs,
        ((runChunks emit f chunks i).calls emit cs).emitted = (runChunks emit f chunks i).emitted) := by
  obtain ⟨hmax, hnil, hready⟩ := newFramer_ok hf
  obtain ⟨hframer, hemitted⟩ := runChunks_forgive hmax hready hnil h i
  have horderly : (runChunks (forgive emit) f chunks i).Orderly f.maxPDUSize _ :=
    runChunks_forgive_orderly hmax hready hnil
  have hsound : (runChunks (forgive emit) f chunks i).Sound f.maxPDUSize := runChunks_sound hmax hready
  constructor
  · refine ⟨?_, ?_, ?_⟩
    · rw [hemitted]
      exact horderly.delimited
    · rw [hemitted]
      exact horderly.flatten
    · rw [hemitted, hframer]
      exact horderly.pending
  · intro hfailed cs
    obtain ⟨e, he⟩ := Option.ne_none_iff_exists'.mp hfailed
    refine Fed.calls_emitted_of_failed ?_ he cs
    rw [hframer, hsound.size]
    exact hmax

end Runs

def enquireLinkFrame (sequence : UInt32) : Octets := putUint32 16 ++ putUint32 0x15 ++ putUint32 0 ++ putUint32 sequence

/-- A callback that returns an error for its first frame, which is not fatal. -/
def refuseFirst : Emit := fun frames => if frames.length = 1 then some (.custom "busy") else none

/-- A frame that comes alone in its chunk may be refused. -/
theorem calls_feed_orderly_alone :
    (runChunks refuseFirst { maxPDUSize := 64 } [enquireLinkFrame 1, enquireLinkFrame 2] 1).err = some (.custom "busy") ∧
    (runChunks refuseFirst { maxPDUSize := 64 } [enquireLinkFrame 1, enquireLinkFrame 2] 2).Orderly 64
      [enquireLinkFrame 1, enquireLinkFrame 2].flatten := by
  have hrefuses : RefusesLast 64 refuseFirst [enquireLinkFrame 1, enquireLinkFrame 2] := by
    intro fs err _ hdel hpre _ herr _
    have hone : fs.length = 1 := by
      by_contra hne
      rw [refuseFirst, if_neg hne] at herr
      cases herr
    obtain ⟨frame, rfl⟩ := List.length_eq_one_iff.mp hone
    obtain ⟨hlen, h16, -⟩ := hdel frame (List.mem_singleton_self frame)
    obtain ⟨t, ht⟩ := hpre
    rw [List.flatten_singleton] at ht
    have hword : lengthWord frame = 16 := by
      rw [← lengthWord_append (le_trans (by decide) h16) t, ht]
      rfl
    refine ⟨0, Nat.zero_lt_two, ?_, Nat.zero_le _⟩
    rw [List.flatten_singleton, hlen, hword]
    rfl
  exact ⟨by decide +kernel, (@calls_feed_orderly 64 _ _ _ rfl hrefuses 2).1⟩

/-- A frame in two chunks that is refused is emitted a second time when the third arrives, and the frame behind one that is
refused is skipped; the framer has not failed. -/
theorem calls_feed_repeats_and_skips :
    let split := [(enquireLinkFrame 1).take 8, (enquireLinkFrame 1).drop 8, [0]]
    let joined := [enquireLinkFrame 1 ++ enquireLinkFrame 2, enquireLinkFrame 3]
    let repeated := runChunks refuseFirst { maxPDUSize := 64 } split 3
    let skipped := runChunks refuseFirst { maxPDUSize := 64 } joined 2
    (repeated.emitted = [enquireLinkFrame 1, enquireLinkFrame 1] ∧ repeated.framer.failed = none ∧
      ¬ repeated.emitted.flatten <+: split.flatten) ∧
    skipped.emitted = [enquireLinkFrame 1, enquireLinkFrame 3] ∧ skipped.framer.failed = none ∧
      ¬ skipped.emitted.flatten <+: joined.flatten := by
  decide +kernel

end GoSmpp.Codec
