import GoSmpp.Lib.Run

/-!
# Two parties and the channels between them

Two step systems of one kind, each of which reads what the other has written, in order.

* `Port`: a step system that writes messages, and the labels by which it reads one.
* `Port.link`: the two parties as one step system. A party takes any step of its own that is no reading, or reads the
  first of the messages that its peer has written and it has not read.
* `link_step`: what a step does to the party whose step it is, and to the other. `Run.each`: what every step of a party
  preserves, and reading does not spoil, holds of both along every run.
-/

namespace GoSmpp.Lib

variable {σ ι μ : Type*}

inductive Side where
  | left
  | right
  deriving DecidableEq, Repr

def Side.other : Side → Side
  | .left => .right
  | .right => .left

@[simp] theorem Side.other_other (side : Side) : side.other.other = side := by cases side <;> rfl

theorem Side.eq_or_other (a b : Side) : b = a ∨ b = a.other := by cases a <;> cases b <;> simp [Side.other]

structure Pair (σ : Type*) where
  left : σ
  right : σ

namespace Pair

def get (p : Pair σ) : Side → σ
  | .left => p.left
  | .right => p.right

def set (p : Pair σ) (side : Side) (s : σ) : Pair σ :=
  match side with
  | .left => { p with left := s }
  | .right => { p with right := s }

@[simp] theorem get_set (p : Pair σ) (side : Side) (s : σ) : (p.set side s).get side = s := by cases side <;> rfl

@[simp] theorem get_set_other (p : Pair σ) (side : Side) (s : σ) : (p.set side s).get side.other = p.get side.other := by
  cases side <;> rfl

@[simp] theorem get_set_other' (p : Pair σ) (side : Side) (s : σ) : (p.set side.other s).get side = p.get side := by
  cases side <;> rfl

/-- The pair with one on this side and the other across from it. -/
def of (side : Side) (s o : σ) : Pair σ :=
  match side with
  | .left => ⟨s, o⟩
  | .right => ⟨o, s⟩

@[simp] theorem get_of (side : Side) (s o : σ) : (of side s o).get side = s := by cases side <;> rfl

@[simp] theorem get_of_other (side : Side) (s o : σ) : (of side s o).get side.other = o := by cases side <;> rfl

end Pair

/-- A step system that is joined to a peer: what it has written and the peer has not read, and how it reads. -/
structure Port (σ ι μ : Type*) extends System σ ι where
  sent : σ → List μ
  setSent : σ → List μ → σ
  receive : μ → ι
  /-- the label reads a message -/
  receives : ι → Bool

inductive LinkLabel (ι : Type*) where
  | act (side : Side) (label : ι)
  /-- the party reads the next message -/
  | deliver (side : Side)
  deriving DecidableEq, Repr

def Port.link (e : Port σ ι μ) : System (Pair σ) (LinkLabel ι) where
  step p
    | .act side label => if e.receives label then none else (e.step (p.get side) label).map (p.set side)
    | .deliver side =>
      match e.sent (p.get side.other) with
      | [] => none
      | message :: rest => (e.step (p.get side) (e.receive message)).map fun s =>
          (p.set side s).set side.other (e.setSent (p.get side.other) rest)

namespace Port
variable {e : Port σ ι μ} {p p' : Pair σ} {label : LinkLabel ι}

theorem link_act {side : Side} {s s' o : σ} {l : ι} (hr : e.receives l = false) (h : e.step s l = some s') :
    e.link.step (.of side s o) (.act side l) = some (.of side s' o) := by
  cases side <;> simp [Port.link, Pair.of, Pair.get, Pair.set, hr, h]

theorem link_deliver {side : Side} {s s' o : σ} {message : μ} {rest : List μ} (hsent : e.sent o = message :: rest)
    (h : e.step s (e.receive message) = some s') :
    e.link.step (.of side s o) (.deliver side) = some (.of side s' (e.setSent o rest)) := by
  cases side <;> simp [Port.link, Pair.of, Pair.get, Pair.set, Side.other, hsent, h]

/-- **What a step of the link does**: one party takes a step of its own, or reads the first message of the other. -/
theorem link_step (h : e.link.step p label = some p') : ∃ side l, e.step (p.get side) l = some (p'.get side) ∧
    ((label = .act side l ∧ e.receives l = false ∧ p'.get side.other = p.get side.other) ∨
     ∃ message rest, label = .deliver side ∧ l = e.receive message ∧ e.sent (p.get side.other) = message :: rest ∧
      p'.get side.other = e.setSent (p.get side.other) rest) := by
  cases label with
  | act side l =>
    have h : (if e.receives l then none else (e.step (p.get side) l).map (p.set side)) = some p' := h
    split at h
    · cases h
    · next hr =>
      obtain ⟨s, hs, rfl⟩ := Option.map_eq_some_iff.mp h
      exact ⟨side, l, by rw [Pair.get_set]; exact hs, .inl ⟨rfl, eq_false_of_ne_true hr, Pair.get_set_other ..⟩⟩
  | deliver side =>
    simp only [Port.link] at h
    split at h
    · cases h
    · next message rest hsent =>
      obtain ⟨s, hs, rfl⟩ := Option.map_eq_some_iff.mp h
      refine ⟨side, _, ?_, .inr ⟨message, rest, rfl, rfl, hsent, Pair.get_set ..⟩⟩
      rw [Pair.get_set_other', Pair.get_set]
      exact hs

theorem run_each {ok : Pair σ → LinkLabel ι → Prop} {P : Side → σ → Prop}
    (step : ∀ side s l s', e.step s l = some s' → P side s → P side s')
    (read : ∀ side s rest, P side s → P side (e.setSent s rest))
    (h : e.link.Run ok p p') (hp : ∀ side, P side (p.get side)) : ∀ side, P side (p'.get side) := by
  refine h.invariant (P := fun p => ∀ side, P side (p.get side)) ?_ hp
  intro p label p' _ hs hp side
  obtain ⟨mover, l, hst, hother⟩ := link_step hs
  rcases mover.eq_or_other side with rfl | rfl
  · exact step _ _ _ _ hst (hp side)
  · rcases hother with ⟨-, -, ho⟩ | ⟨message, rest, -, -, -, ho⟩
    · rw [ho]; exact hp _
    · rw [ho]; exact read _ _ _ (hp _)

end Port

end GoSmpp.Lib
