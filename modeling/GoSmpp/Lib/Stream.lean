import Mathlib.Data.List.Basic

/-!
# Splitting a stream that arrives in chunks

* `Splitter`: looks at the input it has and says that it needs more, that an item ends after `n` elements, or that the
  stream is refused. A decided answer does not change when more input arrives.
* `Splitter.Scans`: the items of a whole input, one after the other, up to where more is needed or the stream is refused.
  It is deterministic (`Scans.unique`) and can be interrupted anywhere (`Scans.resume`, `Scans.stopped`).
* `Feeder`: an implementation that is fed chunk by chunk and keeps what is unfinished. `Feeder.scans_foldl` says that
  every cut of a stream into chunks leaves it where one scan of the stream ends.
-/

namespace GoSmpp.Lib

variable {α σ ε : Type*}

/-- What a splitter in state `σ` makes of the input it has. -/
inductive Cut (σ ε : Type*) where
  | more
  | item (s : σ) (n : Nat)
  | stop (s : σ) (e : ε)

structure Splitter (α σ ε : Type*) where
  cut : σ → List α → Cut σ ε
  item_append : ∀ {s s' xs n}, cut s xs = .item s' n → ∀ ys, cut s (xs ++ ys) = .item s' n
  item_length : ∀ {s s' xs n}, cut s xs = .item s' n → n ≤ xs.length
  stop_append : ∀ {s s' xs e}, cut s xs = .stop s' e → ∀ ys, cut s (xs ++ ys) = .stop s' e

namespace Splitter
variable (p : Splitter α σ ε)

/-- Splitting `xs` from state `s` ends in state `t` with `rest` unfinished, or refused with an error. -/
inductive Scans : σ → List α → σ → List α → Option ε → Prop
  | more {s xs} : p.cut s xs = .more → Scans s xs s xs none
  | stop {s xs t e} : p.cut s xs = .stop t e → Scans s xs t [] (some e)
  | item {s xs s' n t rest o} : p.cut s xs = .item s' n → Scans s' (xs.drop n) t rest o → Scans s xs t rest o

variable {p} {s t t' : σ} {xs ys rest rest' : List α} {o o' : Option ε}

theorem Scans.unique (h : p.Scans s xs t rest o) (h' : p.Scans s xs t' rest' o') : t = t' ∧ rest = rest' ∧ o = o' := by
  induction h with
  | more hc =>
    cases h' with
    | more _ => exact ⟨rfl, rfl, rfl⟩
    | stop hc' => rw [hc] at hc'; cases hc'
    | item hc' _ => rw [hc] at hc'; cases hc'
  | stop hc =>
    cases h' with
    | more hc' => rw [hc] at hc'; cases hc'
    | stop hc' => rw [hc] at hc'; cases hc'; exact ⟨rfl, rfl, rfl⟩
    | item hc' _ => rw [hc] at hc'; cases hc'
  | item hc _ ih =>
    cases h' with
    | more hc' => rw [hc] at hc'; cases hc'
    | stop hc' => rw [hc] at hc'; cases hc'
    | item hc' h' => rw [hc] at hc'; cases hc'; exact ih h'

theorem Scans.resume (h : p.Scans s xs t rest none) (h' : p.Scans t (rest ++ ys) t' rest' o') :
    p.Scans s (xs ++ ys) t' rest' o' := by
  generalize ho : (none : Option ε) = o at h
  induction h with
  | more _ => exact h'
  | stop _ => cases ho
  | item hc _ ih =>
    refine .item (p.item_append hc ys) ?_
    rw [List.drop_append_of_le_length (p.item_length hc)]
    exact ih h' ho

theorem Scans.stopped {e : ε} (h : p.Scans s xs t rest (some e)) : p.Scans s (xs ++ ys) t rest (some e) := by
  generalize ho : some e = o at h
  induction h with
  | more _ => cases ho
  | stop hc => cases ho; exact .stop (p.stop_append hc ys)
  | item hc _ ih =>
    refine .item (p.item_append hc ys) ?_
    rw [List.drop_append_of_le_length (p.item_length hc)]
    exact ih ho

theorem Scans.invariant {P : σ → Prop} (item : ∀ {s xs s' n}, p.cut s xs = .item s' n → P s → P s')
    (stop : ∀ {s xs s' e}, p.cut s xs = .stop s' e → P s → P s') (h : p.Scans s xs t rest o) (hs : P s) : P t := by
  induction h with
  | more _ => exact hs
  | stop hc => exact stop hc hs
  | item hc _ ih => exact ih (item hc hs)

end Splitter

/-- An implementation of a splitter that is fed chunk by chunk. `rest` is what it keeps, `out` the error it has failed
with, and `Ready` what holds of it as long as it has not failed. -/
structure Feeder (p : Splitter α σ ε) (F : Type*) where
  feed : F → List α → F
  state : F → σ
  rest : F → List α
  out : F → Option ε
  Ready : F → Prop
  feed_ready : ∀ {f} xs, Ready f → out (feed f xs) = none → Ready (feed f xs)
  feed_scans : ∀ {f} xs, Ready f →
    p.Scans (state f) (rest f ++ xs) (state (feed f xs)) (rest (feed f xs)) (out (feed f xs))
  ready_more : ∀ {f}, Ready f → p.cut (state f) (rest f) = .more ∧ out f = none
  /-- Feeding a failed implementation changes nothing. -/
  feed_failed : ∀ {f} xs, out f ≠ none →
    state (feed f xs) = state f ∧ rest (feed f xs) = rest f ∧ out (feed f xs) = out f

namespace Feeder
variable {p : Splitter α σ ε} {F : Type*} (i : Feeder p F)

theorem foldl_failed (chunks : List (List α)) {f : F} (h : i.out f ≠ none) :
    i.state (chunks.foldl i.feed f) = i.state f ∧ i.rest (chunks.foldl i.feed f) = i.rest f ∧
      i.out (chunks.foldl i.feed f) = i.out f := by
  induction chunks generalizing f with
  | nil => exact ⟨rfl, rfl, rfl⟩
  | cons c cs ih =>
    obtain ⟨hs, hr, ho⟩ := i.feed_failed c h
    obtain ⟨hs', hr', ho'⟩ := ih (f := i.feed f c) (by rw [ho]; exact h)
    exact ⟨hs'.trans hs, hr'.trans hr, ho'.trans ho⟩

/-- **However the stream is cut, feeding the chunks is one scan of the stream.** -/
theorem scans_foldl (chunks : List (List α)) {f : F} (h : i.Ready f) :
    p.Scans (i.state f) (i.rest f ++ chunks.flatten) (i.state (chunks.foldl i.feed f))
      (i.rest (chunks.foldl i.feed f)) (i.out (chunks.foldl i.feed f)) := by
  induction chunks generalizing f with
  | nil =>
    obtain ⟨hm, ho⟩ := i.ready_more h
    rw [List.flatten_nil, List.append_nil, List.foldl_nil, ho]
    exact .more hm
  | cons c cs ih =>
    have hc := i.feed_scans c h
    rw [List.flatten_cons, ← List.append_assoc, List.foldl_cons]
    cases ho : i.out (i.feed f c) with
    | none =>
      rw [ho] at hc
      exact hc.resume (ih (i.feed_ready c h ho))
    | some e =>
      obtain ⟨hs', hr', ho'⟩ := i.foldl_failed cs (f := i.feed f c) (by rw [ho]; exact Option.some_ne_none e)
      rw [ho] at hc
      rw [hs', hr', ho', ho]
      exact hc.stopped

end Feeder

end GoSmpp.Lib
