import Mathlib.Logic.Function.Basic

/-!
# FNV-1a

The hash with any basis and prime, as a fold. Its step is injective in the
state, where the prime has an inverse, and in the byte; so is every fold of
such steps, and two inputs that differ in one place never collide.

The argument is one about folds (`foldl_ne_of_ne`). Behind the place where
the inputs differ the states are different, since the step is injective in
the byte; and they stay different, since every later step is injective in the
state. That the step is, is multiplication by the inverse (`mul_injective`)
after an exclusive or that undoes itself. `hash_ne_of_ne` puts the two
together. Inputs that differ in two places can of course collide.
-/

namespace Fnv

/-! ## Folds of injective steps -/

section
variable {σ β : Type} {step : σ → β → σ}

theorem foldl_injective (hstate : ∀ b, Function.Injective (step · b)) (bs : List β) :
    Function.Injective fun s => bs.foldl step s := by
  induction bs with
  | nil => exact Function.injective_id
  | cons b bs ih => exact ih.comp (hstate b)

/-- One element decides. -/
theorem foldl_ne_of_ne (hstate : ∀ b, Function.Injective (step · b))
    (hinput : ∀ s, Function.Injective (step s)) {s : σ} {a b : β} (hab : a ≠ b)
    (pre post : List β) : (pre ++ a :: post).foldl step s ≠ (pre ++ b :: post).foldl step s := by
  rw [List.foldl_append, List.foldl_append, List.foldl_cons, List.foldl_cons]
  intro h
  exact hab (hinput _ (foldl_injective hstate post h))

end

/-! ## The hash -/

def step (prime h : UInt64) (b : UInt8) : UInt64 := (h ^^^ b.toUInt64) * prime

def hash (basis prime : UInt64) (bytes : List UInt8) : UInt64 := bytes.foldl (step prime) basis

variable {basis prime inverse : UInt64}

theorem mul_injective (h : prime * inverse = 1) : Function.Injective (· * prime) := by
  intro x y hxy
  have hback : x * prime * inverse = y * prime * inverse := congrArg (· * inverse) hxy
  rwa [UInt64.mul_assoc, UInt64.mul_assoc, h, UInt64.mul_one, UInt64.mul_one] at hback

theorem step_injective_state (h : prime * inverse = 1) (b : UInt8) :
    Function.Injective (step prime · b) := by
  intro x y hxy
  exact (UInt64.xor_left_inj b.toUInt64).mp (mul_injective h hxy)

theorem step_injective_byte (h : prime * inverse = 1) (s : UInt64) :
    Function.Injective (step prime s) := by
  intro a b hab
  have hxor : a.toUInt64 = b.toUInt64 := (UInt64.xor_right_inj s).mp (mul_injective h hab)
  exact UInt8.toUInt64_inj.mp hxor

/-- Inputs that differ in one place are told apart. -/
theorem hash_ne_of_ne (h : prime * inverse = 1) {a b : UInt8} (hab : a ≠ b)
    (pre post : List UInt8) :
    hash basis prime (pre ++ a :: post) ≠ hash basis prime (pre ++ b :: post) :=
  foldl_ne_of_ne (step_injective_state h) (step_injective_byte h) hab pre post

end Fnv
