import GoSmpp.Protocol.Errors

/-!
# Package `transport`: writing to a connection

`WriteFull` and `WriteBuffers` of `transport/transport.go`, cut at the calls of the connection's `Write`, each of which accepts
some octets of what it is given.

* `Writer`: a call under way. `Writer.write`: the connection accepts octets. `Writer.result`: what the call returns.
* `consume`: what `net.Buffers` does to its buffers when octets of them have been accepted. That it gives the connection its
  buffers in order is taken from its documentation.
-/

namespace GoSmpp.Transport
open Lib Protocol

/-- A call of `WriteFull` or of `WriteBuffers`. -/
inductive Writer where
  | full (p : Octets)
  | buffers (buffers : List Octets) (written total : Nat)
  deriving DecidableEq, Repr

def consume : List Octets → Nat → List Octets
  | [], _ => []
  | b :: bs, n => if n < b.length then b.drop n :: bs else consume bs (n - b.length)

theorem flatten_consume (bs : List Octets) (n : Nat) : (consume bs n).flatten = bs.flatten.drop n := by
  induction bs generalizing n with
  | nil => rw [consume, List.flatten_nil, List.drop_nil]
  | cons b bs ih =>
    rw [consume, List.flatten_cons]
    split
    · next h => rw [List.flatten_cons, List.drop_append_of_le_length (Nat.le_of_lt h)]
    · next h => rw [ih, List.drop_append, List.drop_eq_nil_of_le (Nat.le_of_not_lt h), List.nil_append]

namespace Writer

def writeFull (p : Octets) : Writer := .full p

def writeBuffers (bs : List Octets) : Writer := .buffers bs 0 (bs.map List.length).sum

def remaining : Writer → Octets
  | .full p => p
  | .buffers bs _ _ => bs.flatten

def write : Writer → Nat → Writer
  | .full p, n => .full (p.drop n)
  | .buffers bs written total, n => .buffers (consume bs n) (written + n) total

/-- The error that the call returns when everything has been accepted. -/
def result : Writer → Option Err
  | .full _ => none
  | .buffers _ written total => if written = total then none else some (.sentinel .shortWrite)

/-- What has been accepted and what has not make up the whole. -/
def Counted : Writer → Prop
  | .full _ => True
  | .buffers bs written total => written + bs.flatten.length = total

theorem remaining_write (w : Writer) (n : Nat) : (w.write n).remaining = w.remaining.drop n := by
  cases w with
  | full p => rfl
  | buffers bs written total => exact flatten_consume bs n

theorem counted_writeBuffers (bs : List Octets) : (writeBuffers bs).Counted := by
  show 0 + bs.flatten.length = _
  rw [Nat.zero_add, List.length_flatten]

theorem Counted.write {w : Writer} (h : w.Counted) {n : Nat} (hn : n ≤ w.remaining.length) : (w.write n).Counted := by
  cases w with
  | full p => trivial
  | buffers bs written total =>
    have h : written + bs.flatten.length = total := h
    have hn : n ≤ bs.flatten.length := hn
    show written + n + (consume bs n).flatten.length = total
    rw [flatten_consume, List.length_drop]
    omega

theorem Counted.result {w : Writer} (h : w.Counted) (hnil : w.remaining = []) : w.result = none := by
  cases w with
  | full p => rfl
  | buffers bs written total =>
    have h : written + bs.flatten.length = total := h
    have hnil : bs.flatten = [] := hnil
    rw [hnil] at h
    exact if_pos h

end Writer

end GoSmpp.Transport
