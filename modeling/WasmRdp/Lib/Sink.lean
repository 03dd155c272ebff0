import Mathlib.Data.List.Basic

/-!
# Ordered sinks

A `Sink` is the writing end of an ordered stream with at most one write in
progress: `out` was accepted by the other side, `pending` is what the write
still has to hand over. Only an idle sink takes a new write, so `all`, the
two together, is what was ever written, in order.

The elements may be bytes, of which a write is accepted in parts, or whole
messages. A write adds to `all` (`Idle.all_send`) and an acceptance only moves
elements from one part to the other (`all_accept`), so that conservation along
a run is an equation about `all`; what has really arrived is a prefix of it
(`out_prefix_all`).
-/

namespace Sinks

variable {α : Type}

structure Sink (α : Type) where
  out : List α
  pending : List α

namespace Sink

def empty : Sink α := ⟨[], []⟩

/-- What was written, accepted or not. -/
def all (s : Sink α) : List α := s.out ++ s.pending

/-- No write is in progress. -/
def Idle (s : Sink α) : Prop := s.pending = []

instance (s : Sink α) : Decidable s.Idle :=
  decidable_of_iff _ List.isEmpty_iff

/-- Begin a write. -/
def send (s : Sink α) (xs : List α) : Sink α := { s with pending := xs }

/-- The other side accepts `n` elements. -/
def accept (s : Sink α) (n : Nat) : Sink α :=
  ⟨s.out ++ s.pending.take n, s.pending.drop n⟩

theorem Idle.all_eq {s : Sink α} (h : s.Idle) : s.all = s.out := by
  rw [all, h, List.append_nil]

theorem Idle.all_send {s : Sink α} (h : s.Idle) (xs : List α) :
    (s.send xs).all = s.all ++ xs := by
  rw [h.all_eq]
  rfl

@[simp] theorem all_accept (s : Sink α) (n : Nat) : (s.accept n).all = s.all := by
  rw [all, accept, List.append_assoc, List.take_append_drop, all]

theorem out_prefix_all (s : Sink α) : s.out <+: s.all := List.prefix_append ..

end Sink

end Sinks
