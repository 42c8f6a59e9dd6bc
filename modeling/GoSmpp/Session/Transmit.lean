import GoSmpp.Lib.Lists
import GoSmpp.Session.PeerReservation
import GoSmpp.Transport.Write

/-!
# The TX loop down to the octets

`txLoop` on its own: the items arrive at any time, each with a fixed answer of `txItemActive`, and the connection accepts the
octets of a batch in pieces.

* `Loop`, `Loop.step`: the loop with its batch and its writer. `arrived` is history: everything that was ever queued.
* `transmitted`: the active items up to the first successful `unbind_resp`, and that one. `wireOf`, `completions`: their frames,
  and the calls of `CompleteInbound` for them.
* `Sent`: at each point of the loop, what of the items it has taken has been committed and written.
* `run_transmits`: whatever the batches, the frames of `transmitted` are written and its responses committed, each before it is
  written.
* `trace_transmits`: a session writes and commits as such a loop does.
-/

namespace GoSmpp.Session.Transmit
open Lib Protocol Codec Transport

/-! ## The loop -/

/-- An item with the answer of `pending.exists` for it. -/
structure Arrival where
  item : TxItem
  pending : Bool
  deriving DecidableEq, Repr

/-- `txItemActive`. -/
def Arrival.active (a : Arrival) : Bool := a.item.kind != .request || a.pending

/-- `TXBatchItems`, `TXBatchBytes`, and whether the connection is a `*net.TCPConn`. -/
structure Batching where
  txBatchItems : Nat
  txBatchBytes : Nat
  tcp : Bool
  deriving DecidableEq, Repr

def size (batch : List TxItem) : Nat := (batch.map (·.frame.length)).sum

def wireOf (items : List TxItem) : Octets := items.flatMap (·.frame)

namespace Batching

def full (b : Batching) (batch : List TxItem) : Bool :=
  (batch.getLast?.any (·.terminates)) || b.txBatchItems ≤ batch.length || b.txBatchBytes ≤ size batch

def writer (b : Batching) : List TxItem → Writer
  | [item] => .writeFull item.frame
  | batch => if b.tcp then .writeBuffers (batch.map (·.frame)) else .writeFull (wireOf batch)

end Batching

inductive Phase where
  | idle
  /-- before taking more items into the batch -/
  | gathering (batch : List TxItem)
  /-- before `CompleteInbound` for the rest of the batch -/
  | committing (rest : List TxItem) (batch : List TxItem)
  | writing (w : Writer) (batch : List TxItem)
  /-- before the bookkeeping for the rest of the batch -/
  | finishing (rest : List TxItem)
  /-- it has called `terminate` and returned -/
  | terminated (err : Err)
  /-- it has taken the closed `done` -/
  | returned
  deriving DecidableEq, Repr

structure Loop where
  batching : Batching
  queue : List Arrival := []
  phase : Phase := .idle
  /-- what the connection has accepted -/
  octets : Octets := []
  /-- the calls of `CompleteInbound` -/
  completed : List (CommandID × CommandStatus) := []
  arrived : List Arrival := []
  deriving DecidableEq, Repr

inductive Label where
  /-- an item is queued -/
  | arrive (a : Arrival)
  | go
  /-- the connection accepts `n` octets -/
  | write (n : Nat)
  /-- it accepts `n` octets and fails -/
  | fail (n : Nat) (err : Err)
  /-- the loop takes the closed `done` -/
  | stop
  deriving DecidableEq, Repr

/-- The call of `CompleteInbound` for an item. -/
def completion (item : TxItem) : Option (CommandID × CommandStatus) :=
  if item.kind = .response ∧ item.responseTo ≠ 0 then some (item.responseTo, item.status) else none

def completions (items : List TxItem) : List (CommandID × CommandStatus) := items.filterMap completion

namespace Loop

def step (t : Loop) (l : Label) : Option Loop :=
  match t.phase, l with
  | _, .arrive a => some { t with queue := t.queue ++ [a], arrived := t.arrived ++ [a] }
  | .idle, .go =>
    match t.queue with
    | a :: queue => some { t with queue, phase := if a.active then .gathering [a.item] else .idle }
    | [] => none
  | .idle, .stop => some { t with phase := .returned }
  | .gathering batch, .go =>
    match t.queue with
    | a :: queue =>
      some (if t.batching.full batch then { t with phase := .committing batch batch }
        else { t with queue, phase := .gathering (if a.active then batch ++ [a.item] else batch) })
    | [] => some { t with phase := .committing batch batch }
  | .committing (item :: rest) batch, .go =>
    some { t with completed := t.completed ++ (completion item).toList, phase := .committing rest batch }
  | .committing [] batch, .go => some { t with phase := .writing (t.batching.writer batch) batch }
  | .writing w batch, .write n =>
    if w.remaining = [] ∨ w.remaining.length < n then none
    else if n = 0 then
      match w with
      | .full _ => some { t with phase := .terminated (.sentinel .noProgress) }
      | .buffers .. => none
    else some { t with octets := t.octets ++ w.remaining.take n, phase := .writing (w.write n) batch }
  | .writing w _, .fail n err =>
    if w.remaining = [] ∨ w.remaining.length < n then none
    else some { t with octets := t.octets ++ w.remaining.take n, phase := .terminated err }
  | .writing w batch, .go =>
    if w.remaining = [] then
      some { t with phase := match w.result with | none => .finishing batch | some err => .terminated err }
    else none
  | .finishing (item :: rest), .go =>
    some { t with phase := if item.terminates then .terminated (.sentinel .sessionClosed) else .finishing rest }
  | .finishing [], .go => some { t with phase := .idle }
  | _, _ => none

/-- Everything that was queued before the end has been dealt with. -/
def Quiescent (t : Loop) : Prop :=
  match t.phase with
  | .idle => t.queue = []
  | .terminated _ => True
  | _ => False

instance (t : Loop) : Decidable t.Quiescent := by
  unfold Quiescent
  split <;> infer_instance

end Loop

def loops : System Loop Label where
  step := Loop.step

/-- The connection accepts what it is given, in positive pieces, and the session is not ended from elsewhere. -/
def Accepting (_ : Loop) : Label → Prop
  | .arrive _ | .go => True
  | .write n => 0 < n
  | .fail _ _ | .stop => False

instance (t : Loop) (l : Label) : Decidable (Accepting t l) := by
  cases l <;> unfold Accepting <;> infer_instance

def Label.arrives : Label → Bool
  | .arrive _ => true
  | _ => false

def Settling (t : Loop) (l : Label) : Prop := Accepting t l ∧ l.arrives = false

/-- The items that are to be transmitted. -/
def transmitted (arrived : List Arrival) : List TxItem :=
  takeThrough (·.terminates) ((arrived.filter (·.active)).map (·.item))

/-! ## The frames and the calls -/

section Lists
variable (a b : List TxItem) (item : TxItem)

theorem wireOf_append : wireOf (a ++ b) = wireOf a ++ wireOf b := List.flatMap_append ..

theorem wireOf_eq_flatten : wireOf a = (a.map (·.frame)).flatten := List.flatMap_def ..

theorem length_wireOf : (wireOf a).length = size a := by rw [wireOf_eq_flatten, List.length_flatten, List.map_map]; rfl

theorem completions_append : completions (a ++ b) = completions a ++ completions b := List.filterMap_append ..

theorem completions_singleton : completions [item] = (completion item).toList := by
  rw [completions, List.filterMap_cons]
  cases completion item <;> rfl

variable {a b}

theorem wireOf_mono (h : a <+: b) : wireOf a <+: wireOf b := by
  obtain ⟨c, rfl⟩ := h
  exact ⟨wireOf c, (wireOf_append a c).symm⟩

theorem completions_mono (h : a <+: b) : completions a <+: completions b := h.filterMap _

end Lists

namespace Batching
variable (b : Batching) (batch : List TxItem)

theorem remaining_writer : (b.writer batch).remaining = wireOf batch := by
  unfold writer
  split
  · next item => simp [wireOf, Writer.writeFull, Writer.remaining]
  · split
    · exact (wireOf_eq_flatten batch).symm
    · rfl

theorem counted_writer : (b.writer batch).Counted := by
  unfold writer
  split
  · trivial
  · split
    · exact Writer.counted_writeBuffers _
    · trivial

end Batching

/-! ## What has been sent -/

def Live (items : List TxItem) : Prop := ∀ item ∈ items, item.terminates = false

theorem Live.append {a b : List TxItem} (ha : Live a) (hb : Live b) : Live (a ++ b) := fun item h =>
  (List.mem_append.mp h).elim (ha item) (hb item)

/-- What has been completed and written of the items the loop has taken, at each of its points. -/
inductive Sent : List TxItem → Phase → List (CommandID × CommandStatus) → Octets → Prop
  | idle {earlier} : Live earlier → Sent earlier .idle (completions earlier) (wireOf earlier)
  | gathering {earlier batch} : Live earlier → Live batch.dropLast → batch ≠ [] →
      Sent (earlier ++ batch) (.gathering batch) (completions earlier) (wireOf earlier)
  | committing {earlier done rest} : Live earlier → Live (done ++ rest).dropLast →
      Sent (earlier ++ (done ++ rest)) (.committing rest (done ++ rest)) (completions (earlier ++ done)) (wireOf earlier)
  | writing {earlier batch w octets} : Live earlier → Live batch.dropLast → w.Counted →
      octets ++ w.remaining = wireOf (earlier ++ batch) →
      Sent (earlier ++ batch) (.writing w batch) (completions (earlier ++ batch)) octets
  | finishing {earlier rest} : Live earlier → Live rest.dropLast →
      Sent (earlier ++ rest) (.finishing rest) (completions (earlier ++ rest)) (wireOf (earlier ++ rest))
  | terminated {earlier last err} : Live earlier → last.terminates →
      Sent (earlier ++ [last]) (.terminated err) (completions (earlier ++ [last])) (wireOf (earlier ++ [last]))

namespace Sent
variable {items : List TxItem} {phase : Phase} {completed : List (CommandID × CommandStatus)} {octets : Octets}

theorem dropLast_append {a b : List TxItem} (ha : Live a) (hb : Live b.dropLast) : Live (a ++ b).dropLast := by
  by_cases h : b = []
  · subst h
    rw [List.append_nil]
    exact fun item hi => ha item (List.dropLast_subset a hi)
  · rw [List.dropLast_append_of_ne_nil h]
    exact ha.append hb

theorem live (h : Sent items phase completed octets) : Live items.dropLast := by
  cases h with
  | idle h => exact fun item hi => h item (List.dropLast_subset _ hi)
  | gathering h hb _ => exact dropLast_append h hb
  | committing h hb => exact dropLast_append h hb
  | writing h hb _ _ => exact dropLast_append h hb
  | finishing h hb => exact dropLast_append h hb
  | terminated h _ =>
    rw [List.dropLast_concat]
    exact h

theorem ne_returned (h : Sent items phase completed octets) : phase ≠ .returned := by
  cases h <;> exact nofun

theorem committed (h : Sent items phase completed octets) :
    ∃ first, first <+: items ∧ completed = completions first ∧ octets <+: wireOf first := by
  cases h with
  | idle h => exact ⟨_, List.prefix_refl _, rfl, List.prefix_refl _⟩
  | gathering h _ _ => exact ⟨_, List.prefix_append _ _, rfl, List.prefix_refl _⟩
  | @committing earlier done rest h _ =>
    refine ⟨earlier ++ done, ?_, rfl, wireOf_mono (List.prefix_append _ _)⟩
    rw [← List.append_assoc]
    exact List.prefix_append _ _
  | writing _ _ _ heq => exact ⟨_, List.prefix_refl _, rfl, ⟨_, heq⟩⟩
  | finishing _ _ => exact ⟨_, List.prefix_refl _, rfl, List.prefix_refl _⟩
  | terminated _ _ => exact ⟨_, List.prefix_refl _, rfl, List.prefix_refl _⟩

end Sent

/-! ## A step of the loop -/

inductive Next (t : Loop) : Label → Loop → Prop
  | arrive (a : Arrival) : Next t (.arrive a) { t with queue := t.queue ++ [a], arrived := t.arrived ++ [a] }
  | take {a queue batch} : t.phase = .idle ∧ batch = [] ∨ t.phase = .gathering batch ∧ t.batching.full batch = false →
      t.queue = a :: queue → a.active → Next t .go { t with queue, phase := .gathering (batch ++ [a.item]) }
  | drop {a queue} : t.phase = .idle ∨ (∃ batch, t.phase = .gathering batch) → t.queue = a :: queue → a.active = false →
      Next t .go { t with queue }
  | gathered {batch} : t.phase = .gathering batch → Next t .go { t with phase := .committing batch batch }
  | commit {item rest batch} : t.phase = .committing (item :: rest) batch →
      Next t .go { t with completed := t.completed ++ (completion item).toList, phase := .committing rest batch }
  | committed {batch} : t.phase = .committing [] batch →
      Next t .go { t with phase := .writing (t.batching.writer batch) batch }
  | write {w batch n} : t.phase = .writing w batch → 0 < n → n ≤ w.remaining.length →
      Next t (.write n) { t with octets := t.octets ++ w.remaining.take n, phase := .writing (w.write n) batch }
  | written {w batch} : t.phase = .writing w batch → w.remaining = [] →
      Next t .go { t with phase := match w.result with | none => .finishing batch | some err => .terminated err }
  | finish {item rest} : t.phase = .finishing (item :: rest) →
      Next t .go { t with phase := if item.terminates then .terminated (.sentinel .sessionClosed) else .finishing rest }
  | finished : t.phase = .finishing [] → Next t .go { t with phase := .idle }

section Step
variable {t t' : Loop} {l : Label}

theorem step_next (hok : Accepting t l) (h : t.step l = some t') : Next t l t' := by
  unfold Loop.step at h
  split at h
  case h_1 a => cases h; exact .arrive a
  case h_2 hp =>
    split at h
    · next a queue hq =>
      cases h
      cases ha : a.active with
      | false => rw [if_neg Bool.false_ne_true, ← hp]; exact .drop (.inl hp) hq ha
      | true => rw [if_pos rfl]; exact .take (.inl ⟨hp, rfl⟩) hq ha
    · cases h
  case h_3 => exact hok.elim
  case h_4 batch hp =>
    split at h
    · next a queue hq =>
      cases h
      cases hf : t.batching.full batch with
      | true => rw [if_pos rfl]; exact .gathered hp
      | false =>
        rw [if_neg Bool.false_ne_true]
        cases ha : a.active with
        | false => rw [if_neg Bool.false_ne_true, ← hp]; exact .drop (.inr ⟨batch, hp⟩) hq ha
        | true => rw [if_pos rfl]; exact .take (.inr ⟨hp, hf⟩) hq ha
    · cases h; exact .gathered hp
  case h_5 hp => cases h; exact .commit hp
  case h_6 hp => cases h; exact .committed hp
  case h_7 w batch n hp =>
    have hn : 0 < n := hok
    split at h
    · cases h
    · next hle =>
      rw [if_neg (Nat.ne_of_gt hn)] at h
      cases h
      exact .write hp hn (Nat.le_of_not_lt fun hlt => hle (.inr hlt))
  case h_8 => exact hok.elim
  case h_9 w batch hp =>
    split at h
    · next hr => cases h; exact .written hp hr
    · cases h
  case h_10 hp => cases h; exact .finish hp
  case h_11 hp => cases h; exact .finished hp
  case h_12 => cases h

end Step

/-! ## The items taken are sent -/

/-- The loop has sent what it should of the items it has taken. -/
def Loop.Tracks (t : Loop) : Prop :=
  ∃ taken, t.arrived = taken ++ t.queue ∧ Sent ((taken.filter (·.active)).map (·.item)) t.phase t.completed t.octets

theorem Batching.live_of_not_full {b : Batching} {batch : List TxItem} (h : Live batch.dropLast) (hf : b.full batch = false) :
    Live batch := by
  cases batch using List.reverseRecOn with
  | nil => exact h
  | append_singleton batch last =>
    rw [List.dropLast_concat] at h
    simp only [Batching.full, List.getLast?_concat, Option.any_some, Bool.or_eq_false_iff] at hf
    exact h.append fun item hi => List.mem_singleton.mp hi ▸ hf.1.1

namespace Sent
variable {items : List TxItem} {phase : Phase} {completed : List (CommandID × CommandStatus)} {octets : Octets}
  {batch rest : List TxItem} {item : TxItem} {w : Writer}

theorem take {b : Batching} (h : Sent items phase completed octets)
    (hp : phase = .idle ∧ batch = [] ∨ phase = .gathering batch ∧ b.full batch = false) (item : TxItem) :
    Sent (items ++ [item]) (.gathering (batch ++ [item])) completed octets := by
  rcases hp with ⟨rfl, rfl⟩ | ⟨rfl, hf⟩
  · cases h with
    | idle h => exact .gathering h nofun (List.cons_ne_nil _ _)
  · cases h with
    | gathering h hb hne =>
      rw [List.append_assoc]
      refine .gathering h ?_ (List.append_ne_nil_of_right_ne_nil _ (List.cons_ne_nil _ _))
      rw [List.dropLast_concat]
      exact Batching.live_of_not_full hb hf

theorem gathered (h : Sent items (.gathering batch) completed octets) :
    Sent items (.committing batch batch) completed octets := by
  cases h with
  | @gathering earlier _ h hb _ =>
    have hsent := @Sent.committing earlier [] batch h hb
    rwa [List.append_nil] at hsent

theorem commit (h : Sent items (.committing (item :: rest) batch) completed octets) :
    Sent items (.committing rest batch) (completed ++ (completion item).toList) octets := by
  generalize hp : Phase.committing (item :: rest) batch = phase at h
  cases h <;> cases hp
  case committing earlier done h hb =>
    have hcons : done ++ item :: rest = done ++ [item] ++ rest := List.append_cons ..
    rw [hcons] at hb ⊢
    rw [← completions_singleton, ← completions_append, List.append_assoc earlier]
    exact .committing h hb

theorem committed_write (h : Sent items (.committing [] batch) completed octets) (b : Batching) :
    Sent items (.writing (b.writer batch) batch) completed octets := by
  generalize hp : Phase.committing [] batch = phase at h
  cases h <;> cases hp
  case committing earlier done h hb =>
    rw [List.append_nil] at hb ⊢
    refine .writing h hb (b.counted_writer done) ?_
    rw [b.remaining_writer, wireOf_append]

theorem write (h : Sent items (.writing w batch) completed octets) {n : Nat} (hn : n ≤ w.remaining.length) :
    Sent items (.writing (w.write n) batch) completed (octets ++ w.remaining.take n) := by
  cases h with
  | writing h hb hc heq =>
    refine .writing h hb (hc.write hn) ?_
    rw [w.remaining_write, List.append_assoc, List.take_append_drop, heq]

theorem written (h : Sent items (.writing w batch) completed octets) (hr : w.remaining = []) :
    w.result = none ∧ Sent items (.finishing batch) completed octets := by
  cases h with
  | writing h hb hc heq =>
    rw [hr, List.append_nil] at heq
    subst heq
    exact ⟨hc.result hr, .finishing h hb⟩

theorem finish (h : Sent items (.finishing (item :: rest)) completed octets) :
    Sent items (if item.terminates then .terminated (.sentinel .sessionClosed) else .finishing rest) completed octets := by
  generalize hp : Phase.finishing (item :: rest) = phase at h
  cases h <;> cases hp
  case finishing earlier h hb =>
    split
    · next hterm =>
      -- an item that ends the session is the last one of its batch
      have hlast : rest = [] := by
        by_contra hne
        have hmem : item ∈ (item :: rest).dropLast := by
          rw [List.dropLast_cons_of_ne_nil hne]
          exact List.mem_cons_self
        rw [hb item hmem] at hterm
        cases hterm
      subst hlast
      exact .terminated h hterm
    · next hterm =>
      rw [List.append_cons]
      refine .finishing (h.append fun i hi => List.mem_singleton.mp hi ▸ Bool.eq_false_iff.mpr hterm) ?_
      cases rest with
      | nil => exact nofun
      | cons i rest => exact fun j hj => hb j (List.mem_cons_of_mem item hj)

theorem finished (h : Sent items (.finishing []) completed octets) : Sent items .idle completed octets := by
  generalize hp : Phase.finishing [] = phase at h
  cases h <;> cases hp
  case finishing earlier h _ =>
    rw [List.append_nil]
    exact .idle h

end Sent

theorem Loop.Tracks.step {t t' : Loop} {l : Label} (h : t.Tracks) (hn : Next t l t') : t'.Tracks := by
  obtain ⟨taken, harr, hsent⟩ := h
  -- a step that takes an item from the queue
  have hmove {a : Arrival} {queue : List Arrival} (hq : t.queue = a :: queue) : t.arrived = taken ++ [a] ++ queue := by
    rw [harr, hq]
    exact List.append_cons ..
  cases hn with
  | arrive a => exact ⟨taken, by rw [harr, List.append_assoc], hsent⟩
  | @take a queue batch hp hq ha =>
    refine ⟨taken ++ [a], hmove hq, ?_⟩
    rw [List.filter_append, List.filter_singleton, ha, List.map_append]
    exact hsent.take hp a.item
  | @drop a queue hp hq ha =>
    refine ⟨taken ++ [a], hmove hq, ?_⟩
    rw [List.filter_append, List.filter_singleton, ha, cond_false, List.append_nil]
    exact hsent
  | gathered hp => exact ⟨taken, harr, (hp ▸ hsent).gathered⟩
  | commit hp => exact ⟨taken, harr, (hp ▸ hsent).commit⟩
  | committed hp => exact ⟨taken, harr, (hp ▸ hsent).committed_write t.batching⟩
  | write hp _ hle => exact ⟨taken, harr, (hp ▸ hsent).write hle⟩
  | written hp hr =>
    obtain ⟨hnone, hsent⟩ := (hp ▸ hsent).written hr
    refine ⟨taken, harr, ?_⟩
    rw [hnone]
    exact hsent
  | finish hp => exact ⟨taken, harr, (hp ▸ hsent).finish⟩
  | finished hp => exact ⟨taken, harr, (hp ▸ hsent).finished⟩

namespace Loop.Tracks
variable {t : Loop}

theorem committed (h : t.Tracks) :
    ∃ first, first <+: transmitted t.arrived ∧ t.completed = completions first ∧ t.octets <+: wireOf first := by
  obtain ⟨taken, harr, hsent⟩ := h
  obtain ⟨first, hfirst, hcompleted, hoctets⟩ := hsent.committed
  refine ⟨first, hfirst.trans ?_, hcompleted, hoctets⟩
  rw [transmitted, harr, List.filter_append, List.map_append]
  exact prefix_takeThrough hsent.live _

theorem before (h : t.Tracks) {front back : List TxItem} {item : TxItem} (hsplit : transmitted t.arrived = front ++ item :: back)
    (hlen : (wireOf front).length < t.octets.length) : completions (front ++ [item]) <+: t.completed := by
  obtain ⟨first, hfirst, hcompleted, hoctets⟩ := h.committed
  have hthis : front ++ [item] <+: transmitted t.arrived := ⟨back, by rw [hsplit]; exact (List.append_cons ..).symm⟩
  rw [hcompleted]
  apply completions_mono
  apply List.prefix_of_prefix_length_le hthis hfirst
  -- otherwise the frames of the items committed would be too short
  by_contra hle
  rw [List.length_append, List.length_singleton] at hle
  have hfront : first <+: front :=
    List.prefix_of_prefix_length_le hfirst ⟨item :: back, hsplit.symm⟩ (by omega)
  have h₁ := hoctets.length_le
  have h₂ := (wireOf_mono hfront).length_le
  omega

theorem quiescent (h : t.Tracks) (hq : t.Quiescent) :
    t.octets = wireOf (transmitted t.arrived) ∧ t.completed = completions (transmitted t.arrived) := by
  obtain ⟨taken, harr, hsent⟩ := h
  rw [transmitted, harr, List.filter_append, List.map_append]
  unfold Loop.Quiescent at hq
  generalize t.phase = phase at hsent hq
  generalize (taken.filter (·.active)).map (·.item) = items at hsent ⊢
  generalize t.completed = completed at hsent ⊢
  generalize t.octets = octets at hsent ⊢
  cases hsent with
  | idle hlive =>
    rw [show t.queue = [] from hq, List.filter_nil, List.map_nil, List.append_nil, takeThrough_eq_self hlive]
    exact ⟨rfl, rfl⟩
  | terminated hlive hterm =>
    rw [List.append_assoc, takeThrough_append hlive, List.singleton_append, takeThrough_cons_pos hterm]
    exact ⟨rfl, rfl⟩
  | _ => exact hq.elim

end Loop.Tracks

/-! ## The loop comes to rest -/

/-- What the loop has to do at a point, as a number of steps. -/
def Phase.rank : Phase → Nat
  | .idle => 0
  | .gathering batch => size batch + 2 * batch.length + 4
  | .committing rest batch => rest.length + size batch + batch.length + 3
  | .writing w batch => w.remaining.length + batch.length + 2
  | .finishing rest => rest.length + 1
  | .terminated _ | .returned => 0

/-- A bound on the steps that the loop still takes if nothing more arrives. -/
def Loop.rank (t : Loop) : Nat :=
  match t.phase with
  | .terminated _ | .returned => 0
  | p => p.rank + (t.queue.map (·.item.frame.length + 7)).sum

section Rank
variable {t t' : Loop} {l : Label}

theorem size_concat (batch : List TxItem) (item : TxItem) : size (batch ++ [item]) = size batch + item.frame.length := by
  simp [size]

theorem Loop.rank_le (t : Loop) : t.rank ≤ t.phase.rank + (t.queue.map (·.item.frame.length + 7)).sum := by
  unfold Loop.rank
  split
  · exact Nat.zero_le _
  · exact Nat.zero_le _
  · exact Nat.le_refl _

theorem Next.rank_lt (h : Next t l t') (hl : l.arrives = false) : t'.rank < t.rank := by
  apply Nat.lt_of_le_of_lt t'.rank_le
  cases h with
  | arrive a => cases hl
  | @take a queue batch hp hq _ =>
    rcases hp with ⟨hp, rfl⟩ | ⟨hp, -⟩
    · simp [Loop.rank, hp, hq, Phase.rank, size]
    · simp only [Loop.rank, hp, hq, Phase.rank, List.map_cons, List.sum_cons, size_concat, List.length_append,
        List.length_singleton]
      omega
  | drop hp hq _ =>
    rcases hp with hp | ⟨batch, hp⟩
    all_goals
      simp only [Loop.rank, hp, hq, Phase.rank, List.map_cons, List.sum_cons]
      omega
  | gathered hp => simp only [Loop.rank, hp, Phase.rank]; omega
  | commit hp => simp only [Loop.rank, hp, Phase.rank, List.length_cons]; omega
  | committed hp =>
    simp only [Loop.rank, hp, Phase.rank, Batching.remaining_writer, length_wireOf, List.length_nil]
    omega
  | write hp hn hle =>
    simp only [Loop.rank, hp, Phase.rank, Writer.remaining_write, List.length_drop]
    omega
  | @written w batch hp hr =>
    cases w.result <;> simp only [Loop.rank, hp, Phase.rank, hr, List.length_nil] <;> omega
  | @finish item rest hp =>
    cases hterm : item.terminates <;> simp [Loop.rank, hp, Phase.rank]
  | finished hp => simp only [Loop.rank, hp, Phase.rank, List.length_nil]; omega

theorem Next.arrived_eq (h : Next t l t') (hl : l.arrives = false) : t'.arrived = t.arrived := by
  cases h with
  | arrive a => cases hl
  | _ => rfl

theorem Loop.exists_step (h : 0 < t.rank) : ∃ l t', Settling t l ∧ t.step l = some t' := by
  have hstep {l : Label} (hok : Settling t l) (h : (t.step l).isSome) : ∃ l t', Settling t l ∧ t.step l = some t' :=
    ⟨l, (t.step l).get h, hok, (Option.some_get h).symm⟩
  have hgo : (t.step .go).isSome → ∃ l t', Settling t l ∧ t.step l = some t' := hstep ⟨trivial, rfl⟩
  cases hp : t.phase with
  | idle =>
    cases hq : t.queue with
    | nil => simp [Loop.rank, hp, hq, Phase.rank] at h
    | cons a queue => exact hgo (by simp [Loop.step, hp, hq])
  | gathering batch => cases hq : t.queue <;> exact hgo (by simp [Loop.step, hp, hq])
  | committing rest batch => cases rest <;> exact hgo (by simp [Loop.step, hp])
  | writing w batch =>
    by_cases hr : w.remaining = []
    · exact hgo (by simp [Loop.step, hp, hr])
    · -- the connection accepts everything at once
      have hpos : 0 < w.remaining.length := List.length_pos_of_ne_nil hr
      exact hstep (show Settling t (.write w.remaining.length) from ⟨hpos, rfl⟩) (by simp [Loop.step, hp, hr])
  | finishing rest => cases rest <;> exact hgo (by simp [Loop.step, hp])
  | terminated err => simp [Loop.rank, hp] at h
  | returned => simp [Loop.rank, hp] at h

theorem Loop.Tracks.quiescent_of_rank (h : t.Tracks) (h0 : t.rank = 0) : t.Quiescent := by
  obtain ⟨taken, -, hsent⟩ := h
  unfold Loop.Quiescent
  unfold Loop.rank at h0
  cases hp : t.phase with
  | idle =>
    rw [hp] at h0
    cases hq : t.queue with
    | nil => rfl
    | cons a queue => simp [hq, Phase.rank] at h0
  | terminated err => trivial
  | returned => exact (hsent.ne_returned hp).elim
  | _ => simp [hp, Phase.rank] at h0

theorem Loop.Tracks.exists_quiescent (h : t.Tracks) :
    ∃ t', loops.Run Settling t t' ∧ t'.Quiescent ∧ t'.arrived = t.arrived := by
  have hinv (u : Loop) (l : Label) (u' : Loop) (hok : Settling u l) (hst : u.step l = some u')
      (hu : u.Tracks ∧ u.arrived = t.arrived) : u'.Tracks ∧ u'.arrived = t.arrived := by
    have hn := step_next hok.1 hst
    exact ⟨hu.1.step hn, (hn.arrived_eq hok.2).trans hu.2⟩
  have hrun : ∃ t', loops.Run Settling t t' ∧ t'.rank = 0 := by
    refine System.Run.exists_of_rank (P := fun u => u.Tracks ∧ u.arrived = t.arrived) Loop.rank (fun u hu hpos => ?_) ⟨h, rfl⟩
    obtain ⟨l, u', hok, hst⟩ := Loop.exists_step hpos
    exact ⟨l, u', hok, hst, hinv u l u' hok hst hu, (step_next hok.1 hst).rank_lt hok.2⟩
  obtain ⟨t', hrun, h0⟩ := hrun
  obtain ⟨ht', harr⟩ := hrun.invariant hinv ⟨h, rfl⟩
  exact ⟨t', hrun, ht'.quiescent_of_rank h0, harr⟩

end Rank

/-! ## Batching does not change the wire -/

theorem run_tracks {b : Batching} {t : Loop} (h : loops.Run Accepting { batching := b } t) : t.Tracks :=
  h.invariant (fun _ _ _ hok hst ht => ht.step (step_next hok hst)) ⟨[], rfl, .idle nofun⟩

/-- **Batching does not change the wire.** Whatever the bounds and the writer, when items arrive and in what pieces the
connection accepts the octets, the loop writes the frames of the active items up to the first successful `unbind_resp`, in
their order, and calls `CompleteInbound` for them as it would with one item a batch, each time before the first octet of the
response; and it deals with everything that arrives. -/
theorem run_transmits (b : Batching) {t : Loop} (h : loops.Run Accepting { batching := b } t) :
    (t.octets <+: wireOf (transmitted t.arrived) ∧ t.completed <+: completions (transmitted t.arrived)) ∧
    (∀ front item back, transmitted t.arrived = front ++ item :: back → (wireOf front).length < t.octets.length →
      completions (front ++ [item]) <+: t.completed) ∧
    (t.Quiescent → t.octets = wireOf (transmitted t.arrived) ∧ t.completed = completions (transmitted t.arrived) ∧
      ∀ b₁ t₁, b₁.txBatchItems = 1 → loops.Run Accepting { batching := b₁ } t₁ → t₁.Quiescent → t₁.arrived = t.arrived →
        t₁.completed = t.completed) ∧
    (∀ l t', Settling t l → t.step l = some t' → t'.rank < t.rank) ∧
    ∃ t', loops.Run Settling t t' ∧ t'.Quiescent ∧ t'.arrived = t.arrived := by
  have htracks := run_tracks h
  refine ⟨?_, fun front item back => htracks.before, fun hq => ?_, ?_, htracks.exists_quiescent⟩
  · obtain ⟨first, hfirst, hcompleted, hoctets⟩ := htracks.committed
    exact ⟨hoctets.trans (wireOf_mono hfirst), hcompleted ▸ completions_mono hfirst⟩
  · obtain ⟨hoctets, hcompleted⟩ := htracks.quiescent hq
    refine ⟨hoctets, hcompleted, fun b₁ t₁ _ h₁ hq₁ harr => ?_⟩
    rw [((run_tracks h₁).quiescent hq₁).2, harr, hcompleted]
  · exact fun l t' hok hst => (step_next hok.1 hst).rank_lt hok.2

/-- A `bind_resp`, a request that was given up, an `unbind_resp` and an item behind it. -/
def someArrivals : List Arrival :=
  let header : Header := { commandLength := 0, commandID := 0, commandStatus := 0, sequenceNumber := 0 }
  [⟨{ kind := .response, header, frame := [1, 2], sequence := 1, responseTo := commandBindTransceiver }, false⟩,
   ⟨{ kind := .request, header, frame := [3], sequence := 2 }, false⟩,
   ⟨{ kind := .response, header, frame := [4, 5], sequence := 3, responseTo := commandUnbind }, false⟩,
   ⟨{ kind := .oneWay, header, frame := [6], sequence := 4 }, false⟩]

/-- They arrive, are gathered and committed, and the connection accepts three octets. -/
def someTurns : List Label := someArrivals.map Label.arrive ++ [.go, .go, .go, .go, .go, .go, .go, .write 3]

def singleTurns : List Label :=
  someArrivals.map Label.arrive ++ [.go, .go, .go, .go, .write 2, .go, .go, .go, .go, .go, .go, .go, .go, .write 2, .go, .go]

def midway : Loop := loops.after Accepting { batching := ⟨8, 100, true⟩ } someTurns

def arrivedAll : Loop := loops.after Accepting { batching := ⟨8, 100, true⟩ } (someTurns ++ [.write 1, .go, .go, .go])

def arrivedSingly : Loop := loops.after Accepting { batching := ⟨1, 100, true⟩ } singleTurns

theorem run_transmits_some :
    midway.octets = [1, 2, 4] ∧ [(commandBindTransceiver, 0), (commandUnbind, 0)] <+: midway.completed ∧
      arrivedAll.octets = [1, 2, 4, 5] ∧ arrivedSingly.completed = arrivedAll.completed := by
  have hmidway := run_transmits ⟨8, 100, true⟩ (t := midway) (loops.run_after Accepting _ _ (by decide +kernel))
  have hall := run_transmits ⟨8, 100, true⟩ (t := arrivedAll) (loops.run_after Accepting _ _ (by decide +kernel))
  have hsplit : transmitted midway.arrived = [someArrivals[0].item] ++ someArrivals[2].item :: [] := by decide +kernel
  have hboth : completions ([someArrivals[0].item] ++ [someArrivals[2].item]) =
      [(commandBindTransceiver, 0), (commandUnbind, 0)] := by decide +kernel
  obtain ⟨hoctets, -, hsame⟩ := hall.2.2.1 (by decide +kernel)
  refine ⟨by decide +kernel, ?_, hoctets.trans (by decide +kernel), ?_⟩
  · rw [← hboth]
    exact hmidway.2.1 _ _ _ hsplit (by decide +kernel)
  · exact hsame ⟨1, 100, true⟩ arrivedSingly rfl (loops.run_after Accepting _ _ (by decide +kernel)) (by decide +kernel)
      (by decide +kernel)

/-! ## The TX loop of a session -/

/-- The item that has left the queue and is not in the batch. -/
def checked : TxPhase → List TxItem
  | .checking item _ => [item]
  | _ => []

/-- The points of the TX loop of a session, as points of a loop that checks an item while it is at the head of the queue. -/
def Matches (b : Batching) : TxPhase → Phase → Prop
  | .idle, p => p = .idle
  | .checking _ batch, p => batch = [] ∧ p = .idle ∨ batch ≠ [] ∧ b.full batch = false ∧ p = .gathering batch
  | .gathering batch, p => batch ≠ [] ∧ p = .gathering batch
  | .committing rest batch, p => p = .committing rest batch
  | .writing rest batch, p => ∃ w : Writer, w.Counted ∧ w.remaining = wireOf rest ∧ p = .writing w batch
  | .finishing rest, p | .scheduling _ rest, p | .attaching _ rest, p => p = .finishing rest
  | .stopped, p => ∃ err, p = .terminated err

/-- The items before the TX loop, each with the answer it will get. -/
def Ahead (s : Session) (ahead : List Arrival) : Prop := ahead.map (·.item) = checked s.tx ++ s.queue

/-- The item that is being checked, with the answer it gets now. -/
def answers (s : Session) : List Arrival := (checked s.tx).map fun item => ⟨item, s.ledger.exists item.sequence⟩

/-- The items that `txItemActive` was called for, each with the answer it got. -/
def answered (tr : List (Session × Session.Label)) : List Arrival :=
  tr.flatMap fun e => if e.2 = .tx .go then answers e.1 else []

/-- The items that were put into the queue. -/
def enqueued (tr : List (Session × Session.Label)) : List TxItem :=
  tr.flatMap fun e => (e.1.step e.2).elim [] (·.queue.drop e.1.queue.length)

/-- The loop is where the TX loop of the session is. -/
structure Simulates (s : Session) (ahead : List Arrival) (t : Loop) : Prop where
  items : t.batching.txBatchItems = s.config.txBatchItems
  bytes : t.batching.txBatchBytes = s.config.txBatchBytes
  queue : t.queue = ahead
  phase : Matches t.batching s.tx t.phase
  octets : t.octets = s.wire.flatten

section Simulation
variable {s s' : Session} {ahead : List Arrival} {t : Loop} {tx : TxPhase}

theorem Simulates.matches (h : Simulates s ahead t) (htx : s.tx = tx) : Matches t.batching tx t.phase := htx ▸ h.phase

theorem Simulates.full (h : Simulates s ahead t) (batch : List TxItem) : t.batching.full batch = s.batchFull batch := by
  unfold Batching.full batchFull size
  rw [h.items, h.bytes]

theorem completions_responses (items : List TxItem) : completions (responses items) = completions items := by
  unfold completions responses
  rw [List.filterMap_filter]
  congr 1
  funext item
  unfold completion
  cases item.kind <;> rfl

theorem map_answers (s : Session) : (answers s).map (·.item) = checked s.tx := by
  unfold answers
  rw [List.map_map]
  exact List.map_id _

theorem answers_nil (h : checked s.tx = []) : answers s = [] := by
  rw [answers, h]
  rfl

/-- A step of the TX loop is what a run of the loop does, whatever answers the items still before it will get. -/
def Simulated (s s' : Session) : Prop :=
  ∀ ahead t, Ahead s (answers s ++ ahead) → Simulates s (answers s ++ ahead) t →
    ∃ t', loops.Run Accepting t t' ∧ Simulates s' ahead t' ∧ t'.arrived = t.arrived ∧
      t'.completed = t.completed ++ completions s.tx.commits

theorem simulated_stay (hc : s'.config = s.config) (hw : s'.wire = s.wire) (hnone : checked s.tx = [])
    (hcommits : s.tx.commits = []) (hm : ∀ ahead t, Simulates s ahead t → Matches t.batching s'.tx t.phase) :
    Simulated s s' := by
  intro ahead t _ ht
  refine ⟨t, .refl t, ⟨ht.items.trans (by rw [hc]), ht.bytes.trans (by rw [hc]), ?_, hm _ t ht, ht.octets.trans (by rw [hw])⟩,
    rfl, ?_⟩
  · rw [ht.queue, answers_nil hnone, List.nil_append]
  · rw [hcommits]
    exact (List.append_nil _).symm

theorem simulated_go (hc : s'.config = s.config) (hw : s'.wire = s.wire) (hnone : checked s.tx = [])
    (hgo : ∀ ahead t, Ahead s ahead → Simulates s ahead t → ∃ phase completed,
      t.step .go = some { t with phase, completed } ∧ Matches t.batching s'.tx phase ∧
        completed = t.completed ++ completions s.tx.commits) : Simulated s s' := by
  intro ahead t ha ht
  rw [answers_nil hnone, List.nil_append] at ha ht
  obtain ⟨phase, completed, hst, hm, hcompleted⟩ := hgo ahead t ha ht
  refine ⟨_, .tail (l := .go) (.refl t) trivial hst, ?_, rfl, hcompleted⟩
  exact ⟨ht.items.trans (by rw [hc]), ht.bytes.trans (by rw [hc]), ht.queue, hm, ht.octets.trans (by rw [hw])⟩

theorem simulated_check {item : TxItem} {batch : List TxItem} (htx : s.tx = .checking item batch) :
    Simulated s { s with
      tx := if s.txItemActive item then .gathering (batch ++ [item]) else if batch = [] then .idle else .gathering batch } := by
  intro ahead t _ ht
  have hcommits : t.completed = t.completed ++ completions s.tx.commits := by rw [htx]; exact (List.append_nil _).symm
  have hqueue : t.queue = ⟨item, s.ledger.exists item.sequence⟩ :: ahead := by rw [ht.queue, answers, htx]; rfl
  have hactive : Arrival.active ⟨item, s.ledger.exists item.sequence⟩ = s.txItemActive item := rfl
  rcases ht.matches htx with ⟨rfl, hp⟩ | ⟨hne, hf, hp⟩
  · refine ⟨{ t with queue := ahead, phase := if s.txItemActive item then .gathering [item] else .idle },
      .tail (l := .go) (.refl t) trivial ?_, ⟨ht.items, ht.bytes, rfl, ?_, ht.octets⟩, rfl, hcommits⟩
    · show t.step .go = _
      simp only [Loop.step, hp, hqueue, hactive]
    · dsimp only
      split
      · exact ⟨List.cons_ne_nil _ _, rfl⟩
      · rfl
  · refine ⟨{ t with queue := ahead, phase := .gathering (if s.txItemActive item then batch ++ [item] else batch) },
      .tail (l := .go) (.refl t) trivial ?_, ⟨ht.items, ht.bytes, rfl, ?_, ht.octets⟩, rfl, hcommits⟩
    · show t.step .go = _
      simp only [Loop.step, hp, hqueue, hactive, hf, Bool.false_eq_true, if_false]
    · dsimp only
      split
      · exact ⟨List.append_ne_nil_of_left_ne_nil hne _, rfl⟩
      · exact ⟨hne, rfl⟩

theorem simulated_write {item : TxItem} {rest batch : List TxItem} (htx : s.tx = .writing (item :: rest) batch) :
    Simulated s { s with wire := s.wire ++ [item.frame], tx := .writing rest batch } := by
  intro ahead t _ ht
  rw [answers_nil (by rw [htx]; rfl), List.nil_append] at ht
  have hcommits : t.completed = t.completed ++ completions s.tx.commits := by rw [htx]; exact (List.append_nil _).symm
  obtain ⟨w, hcounted, hrest, hp⟩ := ht.matches htx
  have hrest : w.remaining = item.frame ++ wireOf rest := hrest
  have hwire : (s.wire ++ [item.frame]).flatten = s.wire.flatten ++ item.frame := by simp
  by_cases hnil : item.frame = []
  · -- there is nothing to write
    rw [hnil, List.nil_append] at hrest
    refine ⟨t, .refl t, ⟨ht.items, ht.bytes, ht.queue, ⟨w, hcounted, hrest, hp⟩, ?_⟩, rfl, hcommits⟩
    rw [hwire, hnil, List.append_nil, ht.octets]
  · have hpos : 0 < item.frame.length := List.length_pos_of_ne_nil hnil
    have hle : item.frame.length ≤ w.remaining.length := by
      rw [hrest, List.length_append]
      exact Nat.le_add_right _ _
    have hn : ¬(w.remaining = [] ∨ w.remaining.length < item.frame.length) := by
      rintro (h | h)
      · rw [h, List.length_nil] at hle
        omega
      · omega
    refine ⟨{ t with
        octets := t.octets ++ w.remaining.take item.frame.length, phase := .writing (w.write item.frame.length) batch },
      .tail (l := .write item.frame.length) (.refl t) hpos ?_, ?_, rfl, hcommits⟩
    · show t.step _ = _
      simp only [Loop.step, hp, if_neg hn, if_neg (Nat.ne_of_gt hpos)]
    · refine ⟨ht.items, ht.bytes, ht.queue, ⟨_, hcounted.write hle, ?_, rfl⟩, ?_⟩
      · rw [w.remaining_write, hrest, List.drop_left]
      · rw [hwire, hrest, List.take_left, ht.octets]

theorem simulated_close {batch : List TxItem} (htx : s.tx = .gathering batch) (hfull : s.queue = [] ∨ s.batchFull batch) :
    Simulated s { s with tx := .committing batch batch } := by
  refine simulated_go rfl rfl (by rw [htx]; rfl) fun ahead t ha ht => ?_
  refine ⟨.committing batch batch, t.completed, ?_, rfl, by rw [htx]; exact (List.append_nil _).symm⟩
  have hp : t.phase = .gathering batch := (ht.matches htx).2
  rcases hfull with hq | hf
  · rw [Ahead, htx, hq] at ha
    have hnil : t.queue = [] := ht.queue.trans (List.map_eq_nil_iff.mp ha)
    simp only [Loop.step, hp, hnil]
  · have hf : t.batching.full batch := (ht.full batch).trans hf
    cases hq : t.queue <;> simp [Loop.step, hp, hq, hf]

theorem simulated_finish {item : TxItem} {rest : List TxItem} (htx : s.tx = .finishing (item :: rest))
    (hc : s'.config = s.config) (hw : s'.wire = s.wire)
    (hm : ∀ b, Matches b s'.tx (if item.terminates then .terminated (.sentinel .sessionClosed) else .finishing rest)) :
    Simulated s s' := by
  refine simulated_go hc hw (by rw [htx]; rfl) fun ahead t ha ht => ?_
  refine ⟨_, t.completed, ?_, hm t.batching, by rw [htx]; exact (List.append_nil _).symm⟩
  have hp : t.phase = .finishing (item :: rest) := ht.matches htx
  simp only [Loop.step, hp]

theorem txStep_simulated (h : s.txStep .go = some s') : Simulated s s' := by
  have hstays {item : TxItem} (hk : item.kind ≠ .response) : item.terminates = false := by simp [TxItem.terminates, hk]
  cases txStep_move h with
  | take htx hqueue =>
    exact simulated_stay rfl rfl (by rw [htx]; rfl) (by rw [htx]; rfl) fun ahead t ht => .inl ⟨rfl, ht.matches htx⟩
  | accept htx hactive =>
    have hcheck := simulated_check htx
    rwa [if_pos hactive] at hcheck
  | drop htx hactive hbatch =>
    have hcheck := simulated_check htx
    rwa [if_neg (by rw [hactive]; exact Bool.false_ne_true), if_neg hbatch] at hcheck
  | dropAll htx hactive =>
    have hcheck := simulated_check htx
    rwa [if_neg (by rw [hactive]; exact Bool.false_ne_true), if_pos rfl] at hcheck
  | @gather item queue batch htx hqueue hfull =>
    refine simulated_stay rfl rfl (by rw [htx]; rfl) (by rw [htx]; rfl) fun ahead t ht => ?_
    obtain ⟨hne, hp⟩ := ht.matches htx
    exact .inr ⟨hne, (ht.full batch).trans hfull, hp⟩
  | close htx hfull => exact simulated_close htx hfull
  | @commit item rest batch htx =>
    refine simulated_go rfl rfl (by rw [htx]; rfl) fun ahead t ha ht => ?_
    have hp : t.phase = .committing (item :: rest) batch := ht.matches htx
    refine ⟨.committing rest batch, t.completed ++ (completion item).toList, by simp only [Loop.step, hp], rfl, ?_⟩
    rw [htx, ← completions_singleton]
    rfl
  | @committed batch htx =>
    refine simulated_go rfl rfl (by rw [htx]; rfl) fun ahead t ha ht => ?_
    have hp : t.phase = .committing [] batch := ht.matches htx
    refine ⟨.writing (t.batching.writer batch) batch, t.completed, by simp only [Loop.step, hp], ?_, ?_⟩
    · exact ⟨_, t.batching.counted_writer batch, t.batching.remaining_writer batch, rfl⟩
    · rw [htx]
      exact (List.append_nil _).symm
  | write htx => exact simulated_write htx
  | @written batch htx =>
    refine simulated_go rfl rfl (by rw [htx]; rfl) fun ahead t ha ht => ?_
    obtain ⟨w, hcounted, hnil, hp⟩ := ht.matches htx
    have hnil : w.remaining = [] := hnil
    refine ⟨.finishing batch, t.completed, ?_, rfl, by rw [htx]; exact (List.append_nil _).symm⟩
    simp only [Loop.step, hp, if_pos hnil, hcounted.result hnil]
  | mark htx hk | completed htx hk | dispatched htx hk =>
    refine simulated_finish htx rfl rfl fun b => ?_
    rw [hstays (by rw [hk]; exact nofun)]
    rfl
  | answered htx _ hends =>
    refine simulated_finish htx rfl rfl fun b => ?_
    rw [hends]
    rfl
  | unbound htx _ hends =>
    refine simulated_finish htx rfl rfl fun b => ?_
    rw [hends]
    exact ⟨_, rfl⟩
  | finish htx =>
    refine simulated_go rfl rfl (by rw [htx]; rfl) fun ahead t ha ht => ?_
    have hp : t.phase = .finishing [] := ht.matches htx
    exact ⟨.idle, t.completed, by simp only [Loop.step, hp], rfl, by rw [htx]; exact (List.append_nil _).symm⟩
  | @schedule _ rest htx | @skip _ rest htx | @attach _ rest _ htx | @detach _ rest _ htx =>
    exact simulated_stay rfl rfl (by rw [htx]; rfl) (by rw [htx]; rfl) fun ahead t ht =>
      show t.phase = .finishing rest from ht.matches htx

theorem txStep_queue (h : s.txStep .go = some s') : s.queue = checked s'.tx ++ s'.queue := by
  cases txStep_move h with
  | take _ hqueue | gather _ hqueue _ => exact hqueue
  | _ => rfl

theorem step_queues {label : Session.Label} (ho : s.OneWayItems) (h : s.step label = some s')
    (hl : ∀ choice, label ≠ .tx choice) :
    s'.tx = s.tx ∧ s'.wire = s.wire ∧ (s'.queue = s.queue ∨ ∃ item, s'.queue = s.queue ++ [item]) := by
  cases step_flow ho h with
  | rx hnext htx hwire =>
    refine ⟨htx, hwire, ?_⟩
    rcases hnext.queue_eq with hq | ⟨item, next, -, hq, -⟩
    · exact .inl hq
    · exact .inr ⟨item, hq⟩
  | tx hlabel _ _ =>
    obtain ⟨choice, rfl⟩ := hlabel
    exact (hl choice rfl).elim
  | enter item _ _ hq _ _ htx hwire => exact ⟨htx, hwire, .inr ⟨item, hq⟩⟩
  | other _ hq _ htx hwire => exact ⟨htx, hwire, .inl hq⟩

theorem step_simulated {label : Session.Label} (ho : s.OneWayItems) (h : s.step label = some s')
    (hl : ∀ choice, label ≠ .tx choice) {ahead' : List Arrival} (ha : Ahead s' ahead') :
    ∃ ahead added, ahead' = ahead ++ added ∧ Ahead s ahead ∧ ∀ t, Simulates s ahead t → ∃ t', loops.Run Accepting t t' ∧
      Simulates s' ahead' t' ∧ t'.arrived = t.arrived ++ added ∧ t'.completed = t.completed := by
  have hconfig := step_config h
  obtain ⟨htx, hwire, hq | ⟨item, hq⟩⟩ := step_queues ho h hl
  · refine ⟨ahead', [], (List.append_nil _).symm, by rwa [Ahead, htx, hq] at ha, fun t ht => ⟨t, .refl t, ?_, by simp, rfl⟩⟩
    exact ⟨ht.items.trans (by rw [hconfig]), ht.bytes.trans (by rw [hconfig]), ht.queue, htx ▸ ht.phase, hwire ▸ ht.octets⟩
  · rw [Ahead, htx, hq, ← List.append_assoc] at ha
    obtain ⟨ahead, last, rfl, hahead, hlast⟩ := List.map_eq_append_iff.mp ha
    obtain ⟨a, rfl, -⟩ := List.map_eq_singleton_iff.mp hlast
    refine ⟨ahead, [a], rfl, hahead, fun t ht => ⟨_, .tail (l := .arrive a) (.refl t) trivial rfl, ?_, rfl, rfl⟩⟩
    refine ⟨ht.items.trans (by rw [hconfig]), ht.bytes.trans (by rw [hconfig]), ?_, htx ▸ ht.phase, hwire ▸ ht.octets⟩
    show t.queue ++ [a] = ahead ++ [a]
    rw [ht.queue]

end Simulation

section Trace
variable {config : Config} {role : Role} {tr : List (Session × Session.Label)} {s : Session}

/-- No write fails, and the loop is not ended. -/
def Uninterrupted (tr : List (Session × Session.Label)) : Prop := ∀ e ∈ tr, e.2 ≠ .tx .stop ∧ ∀ err, e.2 ≠ .tx (.fail err)

theorem Uninterrupted.snoc {label : Session.Label} (h : Uninterrupted (tr ++ [(s, label)])) :
    Uninterrupted tr ∧ (label = .tx .go ∨ ∀ choice, label ≠ .tx choice) := by
  refine ⟨fun e he => h e (List.mem_append_left _ he), or_iff_not_imp_left.mpr fun hl choice => ?_⟩
  have hlast := h (s, label) (List.mem_append_right _ List.mem_cons_self)
  cases choice with
  | go => exact hl
  | stop => exact hlast.1
  | fail err => exact hlast.2 err

theorem trace_oneWayItems (h : sessions.Trace (new config role) tr s) : s.OneWayItems := by
  have hrun : sessions.Run anyStep (new config role) s := h.run fun _ _ => trivial
  exact hrun.invariant (fun _ _ _ _ hst ho => ho.step hst) fun _ hk => (List.not_mem_nil hk).elim

/-- The items that were put into the queue leave it in their order. -/
theorem enqueued_eq (h : sessions.Trace (new config role) tr s) (hok : Uninterrupted tr) :
    enqueued tr = (answered tr).map (·.item) ++ (checked s.tx ++ s.queue) := by
  induction h with
  | nil => rfl
  | @snoc tr s label s' htr hst ih =>
    obtain ⟨htr', hl⟩ := hok.snoc
    have hst' : s.step label = some s' := hst
    rw [enqueued, answered, List.flatMap_append, List.flatMap_append, ← enqueued, ← answered, ih htr']
    simp only [List.flatMap_singleton, hst', Option.elim_some, List.map_append, List.append_assoc]
    congr 1
    rcases hl with rfl | hl
    · have hqueue := txStep_queue hst
      rw [if_pos rfl, map_answers, ← hqueue, List.drop_eq_nil_of_le, List.append_nil]
      rw [hqueue, List.length_append]
      exact Nat.le_add_left _ _
    · rw [if_neg (hl .go)]
      obtain ⟨htx, -, hq | ⟨item, hq⟩⟩ := step_queues (trace_oneWayItems htr) hst hl <;> simp [htx, hq]

/-- **The TX loop of a session is such a loop.** As long as no write fails and the loop is not ended, what a session writes and
commits is what a loop does whose items are those that the session queues, in their order, and are active when `txItemActive`
finds them so; those it has not come to yet may get any answer. -/
theorem trace_transmits (h : sessions.Trace (new config role) tr s) (hok : Uninterrupted tr) (tcp : Bool) {ahead : List Arrival}
    (ha : Ahead s ahead) :
    ∃ t, loops.Run Accepting { batching := ⟨config.txBatchItems, config.txBatchBytes, tcp⟩ } t ∧ Simulates s ahead t ∧
      t.arrived = answered tr ++ ahead ∧ t.arrived.map (·.item) = enqueued tr ∧ t.completed = completions (committed tr) := by
  suffices hloop : ∃ t, loops.Run Accepting { batching := ⟨config.txBatchItems, config.txBatchBytes, tcp⟩ } t ∧
      Simulates s ahead t ∧ t.arrived = answered tr ++ ahead ∧ t.completed = completions (committed tr) by
    obtain ⟨t, hrun, ht, harr, hcompleted⟩ := hloop
    refine ⟨t, hrun, ht, harr, ?_, hcompleted⟩
    rw [harr, List.map_append, ha, enqueued_eq h hok]
  -- the answers of the items still before the loop are chosen in the end, and the run is built for each choice
  induction h generalizing ahead with
  | nil =>
    have hnil : ahead = [] := List.map_eq_nil_iff.mp ha
    exact ⟨_, .refl _, ⟨rfl, rfl, hnil.symm, rfl, rfl⟩, hnil.symm, rfl⟩
  | @snoc tr s label s' htr hst ih =>
    obtain ⟨htr', hl⟩ := hok.snoc
    rw [committed_snoc, completions_append, answered, List.flatMap_append, ← answered, List.flatMap_singleton]
    rcases hl with rfl | hl
    · have ha₀ : Ahead s (answers s ++ ahead) := by
        rw [Ahead, List.map_append, map_answers, txStep_queue hst, ha]
      obtain ⟨t, hrun, ht, harr, hcompleted⟩ := ih htr' ha₀
      obtain ⟨t', hrun', ht', harr', hcompleted'⟩ := txStep_simulated hst ahead t ha₀ ht
      refine ⟨t', hrun.trans hrun', ht', by rw [harr', harr, if_pos rfl, List.append_assoc], ?_⟩
      rw [hcompleted', hcompleted, commits, if_pos rfl, completions_responses]
    · obtain ⟨ahead₀, added, rfl, ha₀, hnext⟩ := step_simulated (trace_oneWayItems htr) hst hl ha
      obtain ⟨t, hrun, ht, harr, hcompleted⟩ := ih htr' ha₀
      obtain ⟨t', hrun', ht', harr', hcompleted'⟩ := hnext t ht
      refine ⟨t', hrun.trans hrun', ht', by rw [harr', harr, if_neg (hl .go), List.append_nil, List.append_assoc], ?_⟩
      rw [hcompleted', hcompleted, commits, if_neg (hl .go)]
      exact (List.append_nil _).symm

end Trace

/-- A bind is queued, gathered, and written whole. -/
def writesBind : List Session.Label :=
  .request commandBindTransceiver bindTransceiverBody true :: List.replicate 8 (.call 0 .go) ++ List.replicate 6 (.tx .go)

theorem trace_transmits_writesBind : ∃ s t, s.wire.flatten ≠ [] ∧
    loops.Run Accepting { batching := ⟨({} : Config).txBatchItems, ({} : Config).txBatchBytes, true⟩ } t ∧
      Simulates s [] t ∧ t.arrived.map (·.pending) = [true] := by
  have htrace := System.trace_after sessions (new {} .esme) writesBind (by decide +kernel)
  have hlabels : ∀ e ∈ sessions.trace (new {} .esme) writesBind, e.2 ∈ writesBind := by decide +kernel
  have hok : Uninterrupted (sessions.trace (new {} .esme) writesBind) := by
    intro e he
    have hl := hlabels e he
    simp only [writesBind, List.mem_append, List.mem_cons, List.mem_replicate] at hl
    rcases hl with (hl | hl) | hl <;> simp [hl]
  obtain ⟨t, hrun, ht, harr, -⟩ := trace_transmits htrace hok true (show Ahead _ [] by unfold Ahead; decide +kernel)
  exact ⟨_, t, by decide +kernel, hrun, ht, by rw [harr]; decide +kernel⟩

end GoSmpp.Session.Transmit
