import GoSmpp.Lib.Register
import GoSmpp.Session.Sequence

/-!
# The sequence generator under contention

`session/sequence.go`, atomic step by atomic step: `Next` loads the value, computes its successor and swaps it in, and starts
again where another call has been faster. The session takes a whole call as one step (`Ledger.nextSequence`); `drawnBy_eq_draws`
says why it may.

* `generators`: every interleaving of the loads and the swaps of any number of calls.
* `trace_next`: the numbers returned are those swapped in, one for each call; they are in range, and those swapped in one after
  another differ, as long as there are no more than 0x7fffffff of them.
-/

namespace GoSmpp.Session
open Lib Protocol

/-- `session.sequenceGenerator`, with the calls of `Next`. -/
abbrev SequenceGenerator := Register UInt32

/-- The generators as a step system: a call computes `next` from the value it has loaded. -/
def generators : System SequenceGenerator Register.Label := Register.registers next

/-- The numbers of a trace in the order of the swaps, each with the call that returns it. -/
def drawnBy (tr : List (SequenceGenerator × Register.Label)) : List (Nat × SequenceNumber) := Register.swaps next tr

/-- A draw in one step. -/
def Ledger.draw (l : Ledger) : Ledger := { l with sequence := l.nextSequence }

section Trace
variable {v : UInt32} {tr : List (SequenceGenerator × Register.Label)} {g : SequenceGenerator}

theorem iterate_draw_sequence (l : Ledger) (n : Nat) : (Ledger.draw^[n] l).sequence = next^[n] l.sequence := by
  have hdraw : Function.Semiconj Ledger.sequence Ledger.draw next := nextSequence_eq
  exact (hdraw.iterate_right n).eq l

/-- **A call is a draw in one step**: the numbers are those that a ledger draws one after another. -/
theorem drawnBy_eq_draws {l : Ledger} (h : generators.Trace ⟨l.sequence, []⟩ tr g) :
    (drawnBy tr).map (·.2) = (List.range (drawnBy tr).length).map (fun n => (Ledger.draw^[n] l).nextSequence) ∧
      g.value = (Ledger.draw^[(drawnBy tr).length] l).sequence := by
  have haccounts := Register.accounts_trace h
  refine ⟨?_, haccounts.value.trans (iterate_draw_sequence l _).symm⟩
  refine haccounts.written.trans ?_
  rw [← List.range_map_iterate]
  refine List.map_congr_left fun n _ => ?_
  rw [nextSequence_eq, iterate_draw_sequence, ← Function.iterate_succ_apply, Function.iterate_succ_apply']

theorem nodup_iterate_next {n : Nat} (hn : n ≤ 0x7fffffff) : (List.iterate next (next v) n).Nodup := by
  rw [← List.range_map_iterate]
  refine List.Nodup.map_on (fun a ha b hb hab => ?_) List.nodup_range
  rw [List.mem_range] at ha hb
  rw [← Function.iterate_succ_apply, ← Function.iterate_succ_apply] at hab
  exact Nat.succ.inj (iterate_next_inj (Nat.succ_pos a) (Nat.succ_pos b) (by omega) (by omega) hab)

/-- **The numbers of a fresh generator.** Whatever the interleaving of the calls of `Next`, they return the numbers that have been
swapped in, one each. Every number is in 1 to 0x7fffffff, and 0x7fffffff of them or fewer that follow each other in the order of
the swaps differ, also where the generator wraps. -/
theorem trace_next (h : generators.Trace ⟨0, []⟩ tr g) :
    (∀ (i : Nat) (n : SequenceNumber), g.callers[i]? = some (.returned n) ↔ (i, n) ∈ drawnBy tr) ∧
    ((drawnBy tr).map (·.1)).Nodup ∧
    (∀ (i : Nat) (n : SequenceNumber), g.callers[i]? = some (.returned n) → 1 ≤ n.toNat ∧ n.toNat ≤ 0x7fffffff) ∧
    ∀ l, l <:+: (drawnBy tr).map (·.2) → l.length ≤ 0x7fffffff → l.Nodup := by
  have haccounts := Register.accounts_trace h
  have hwritten : (drawnBy tr).map (·.2) = List.iterate next (next 0) (drawnBy tr).length := haccounts.written
  refine ⟨haccounts.returned, haccounts.once, fun i n hn => ?_, fun l hl hlen => ?_⟩
  · have hmem : n ∈ (drawnBy tr).map (·.2) := List.mem_map_of_mem (f := (·.2)) ((haccounts.returned i n).mp hn)
    rw [hwritten, List.mem_iterate] at hmem
    obtain ⟨m, -, rfl⟩ := hmem
    rw [← Function.iterate_succ_apply, toNat_iterate_next]
    omega
  · rw [hwritten] at hl
    obtain ⟨k, hl⟩ := infix_iterate hl
    rw [← Function.iterate_succ_apply, Function.iterate_succ_apply'] at hl
    rw [hl]
    exact nodup_iterate_next hlen

end Trace

/-- Two calls load the same value. The second swap fails, and the call starts again. -/
def contended : List Register.Label :=
  [.call, .call, .caller 0, .caller 1, .caller 0, .caller 1, .caller 1, .caller 1]

theorem trace_next_contended : ∃ tr g, generators.Trace ⟨0, []⟩ tr g ∧ drawnBy tr = [(0, 1), (1, 2)] ∧
    g.callers = [.returned 1, .returned 2] ∧ [(1 : UInt32), 2].Nodup := by
  have htrace := System.trace_after generators ⟨0, []⟩ contended (by decide)
  have hdrawn : drawnBy (generators.trace ⟨0, []⟩ contended) = [(0, 1), (1, 2)] := by decide
  have hnodup := (trace_next htrace).2.2.2 [1, 2] (by rw [hdrawn]; exact List.infix_rfl) (by decide)
  exact ⟨_, _, htrace, hdrawn, by decide, hnodup⟩

theorem drawnBy_eq_draws_contended : ∃ tr, (drawnBy tr).length = 2 ∧
    (drawnBy tr).map (·.2) = (List.range (drawnBy tr).length).map fun n => (Ledger.draw^[n] {}).nextSequence := by
  have htrace := System.trace_after generators ⟨({} : Ledger).sequence, []⟩ contended (by decide)
  exact ⟨_, by decide, (drawnBy_eq_draws htrace).1⟩

end GoSmpp.Session
