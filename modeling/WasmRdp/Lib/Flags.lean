import Mathlib.Data.List.Basic

/-!
# Flag words

A 32-bit word of flags is put together with `|||` from the flags that are
set, and asked with `has`. The lemmas move a question down to the constants
it is about, where it is decided.

`has_or` and `has_flagIf` are simp lemmas: a question to a word that was
built from optional flags becomes a disjunction of questions to constants, of
which all but one are false. `has_of_disjoint` is for the part of a word that
is not known: without the flags of a mask it has none of them.
-/

namespace Flags

/-- Some bit of the mask is set. -/
def has (w mask : UInt32) : Bool := w &&& mask != 0

/-- The flag, or nothing. -/
def flagIf (b : Bool) (flag : UInt32) : UInt32 := if b then flag else 0

theorem or_and (a b mask : UInt32) :
    (a ||| b) &&& mask = (a &&& mask) ||| (b &&& mask) := by
  refine UInt32.toBitVec_inj.mp ?_
  rw [UInt32.toBitVec_and, UInt32.toBitVec_or, UInt32.toBitVec_or,
    UInt32.toBitVec_and, UInt32.toBitVec_and, BitVec.and_or_distrib_right]

@[simp] theorem has_or (a b mask : UInt32) :
    has (a ||| b) mask = (has a mask || has b mask) := by
  rw [Bool.eq_iff_iff]
  simp only [has, or_and, bne_iff_ne, Bool.or_eq_true, ne_eq,
    UInt32.or_eq_zero_iff, not_and_or]

@[simp] theorem has_flagIf (b : Bool) (flag mask : UInt32) :
    has (flagIf b flag) mask = (b && has flag mask) := by
  cases b with
  | true => rfl
  | false =>
      rw [flagIf, if_neg Bool.false_ne_true, has, UInt32.zero_and]
      rfl

/-- A word without the flags of a mask has none of them. -/
theorem has_of_disjoint {w mask flag : UInt32} (h : has w mask = false)
    (hflag : mask &&& flag = flag) : has w flag = false := by
  have hzero : w &&& mask = 0 := by simpa [has] using h
  have hand : w &&& flag = 0 := by
    rw [← hflag, ← UInt32.and_assoc, hzero, UInt32.zero_and]
  rw [has, hand]
  rfl

end Flags
