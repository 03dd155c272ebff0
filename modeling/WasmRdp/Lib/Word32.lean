import Mathlib.Algebra.Group.Nat.Defs
import WasmRdp.Lib.Slices

/-!
# Computations of a 32-bit target

A release build for a target whose `usize` has 32 bits: a sum or a product
that does not fit wraps, and a buffer of half the address space is refused.
`Comp` is a `Checked` computation there, with a note of whether a sum or a
product in it wrapped.

`Refines x y` compares it with the computation on unbounded sizes: nothing
wraps in `x`, and what `x` returns is what `y` returns. There is one rule for
each way to compose computations (`Refines.bind`, `refines_forRange`,
`refines_foldlM`, `refines_mapM`) and for each operation (`Refines.add`,
`Refines.mul`, `Refines.zeroed`).

The note is kept although it changes no value, because a wrapped length can
come out right by chance; a refinement should not. In the other direction
nothing is asked: `x` may be refused a buffer where `y` goes on, so that a
refinement is about what is computed, and not about whether there is memory
for it. `Refines.reserve` uses that, and gives the rest of the computation the
bound of the buffer that was granted.

Loops are compared along an invariant of the states they have in common
(`refines_foldlM`), which is where the bounds of the products come from.
-/

namespace Word32

open Slices

/-- The ways a computation ends without a value. -/
inductive Abort where
  | panic (p : Panic)
  /-- `capacity overflow` -/
  | capacity
  deriving DecidableEq, Repr

/-- A computation, and whether a sum or a product of it wrapped. -/
structure Comp (α : Type) where
  value : Except Abort α
  wraps : Bool

variable {α β σ : Type}

namespace Comp

protected def bind (x : Comp α) (f : α → Comp β) : Comp β :=
  match x.value with
  | .error e => ⟨.error e, x.wraps⟩
  | .ok a => ⟨(f a).value, x.wraps || (f a).wraps⟩

instance : Monad Comp where
  pure a := ⟨.ok a, false⟩
  bind := Comp.bind

theorem bind_of_ok {x : Comp α} {a : α} (f : α → Comp β) (h : x.value = .ok a) :
    x >>= f = ⟨(f a).value, x.wraps || (f a).wraps⟩ := by
  change Comp.bind x f = _
  rw [Comp.bind, h]

theorem bind_of_error {x : Comp α} {e : Abort} (f : α → Comp β) (h : x.value = .error e) :
    x >>= f = ⟨.error e, x.wraps⟩ := by
  change Comp.bind x f = _
  rw [Comp.bind, h]

protected theorem bind_assoc {γ : Type} (x : Comp α) (f : α → Comp β) (g : β → Comp γ) :
    x >>= f >>= g = x >>= fun a => f a >>= g := by
  cases hx : x.value with
  | error e => rw [bind_of_error f hx, bind_of_error _ rfl, bind_of_error _ hx]
  | ok a =>
      rw [bind_of_ok f hx, bind_of_ok (fun a => f a >>= g) hx]
      cases hf : (f a).value with
      | error e => rw [bind_of_error g rfl, bind_of_error g hf]
      | ok b => rw [bind_of_ok g rfl, bind_of_ok g hf, Bool.or_assoc]

protected theorem id_map (x : Comp α) : id <$> x = x := by
  change Comp.bind x pure = x
  obtain ⟨_ | a, w⟩ := x
  · rfl
  · exact congrArg (Comp.mk (.ok a)) (Bool.or_false w)

protected theorem pure_bind (a : α) (f : α → Comp β) : pure a >>= f = f a :=
  congrArg (Comp.mk (f a).value) (Bool.false_or (f a).wraps)

instance : LawfulMonad Comp :=
  LawfulMonad.mk' Comp Comp.id_map Comp.pure_bind Comp.bind_assoc

end Comp

/-! ## Operations -/

/-- What has no arithmetic in it. -/
def lift (x : Checked α) : Comp α := ⟨x.mapError .panic, false⟩

/-- `a + b` -/
def add (a b : Nat) : Comp Nat := ⟨.ok ((a + b) % 2 ^ 32), 2 ^ 32 ≤ a + b⟩

/-- `a * b` -/
def mul (a b : Nat) : Comp Nat := ⟨.ok (a * b % 2 ^ 32), 2 ^ 32 ≤ a * b⟩

/-- Room for `n` bytes, at most `isize::MAX`. -/
def reserve (n : Nat) : Comp Unit := ⟨if n < 2 ^ 31 then .ok () else .error .capacity, false⟩

/-- `vec![0u8; n]` -/
def zeroed (n : Nat) : Comp (List UInt8) := do
  reserve n
  return List.replicate n 0

/-- `for i in lo..hi { s = body(i, s) }`. -/
def forRange (lo hi : Nat) (body : Nat → σ → Comp σ) (s : σ) : Comp σ :=
  (List.range' lo (hi - lo)).foldlM (fun s i => body i s) s

theorem add_eq {a b : Nat} (h : a + b < 2 ^ 32) : add a b = pure (a + b) := by
  rw [add, Nat.mod_eq_of_lt h, decide_eq_false (Nat.not_le.mpr h)]
  rfl

theorem mul_eq {a b : Nat} (h : a * b < 2 ^ 32) : mul a b = pure (a * b) := by
  rw [mul, Nat.mod_eq_of_lt h, decide_eq_false (Nat.not_le.mpr h)]
  rfl

/-! ## Against unbounded sizes -/

/-- Nothing wraps in `x`, and what it returns is what `y` returns. -/
def Refines (x : Comp α) (y : Checked α) : Prop :=
  x.wraps = false ∧ ∀ a, x.value = .ok a → y = .ok a

theorem refines_pure (a : α) : Refines (pure a) (pure a) :=
  ⟨rfl, fun _ h => congrArg _ (Except.ok.inj h)⟩

theorem refines_lift (y : Checked α) : Refines (lift y) y := by
  refine ⟨rfl, fun a h => ?_⟩
  cases y with
  | error e => cases h
  | ok b => exact congrArg _ (Except.ok.inj h)

theorem Refines.bind {x : Comp α} {y : Checked α} {f : α → Comp β} {g : α → Checked β}
    (hx : Refines x y) (hf : ∀ a, y = .ok a → Refines (f a) (g a)) :
    Refines (x >>= f) (y >>= g) := by
  obtain ⟨hwraps, hvalue⟩ := hx
  cases h : x.value with
  | error e =>
      rw [Comp.bind_of_error f h]
      exact ⟨hwraps, fun _ ha => nomatch ha⟩
  | ok a =>
      obtain ⟨hwraps', hvalue'⟩ := hf a (hvalue a h)
      rw [Comp.bind_of_ok f h, hvalue a h, hwraps, hwraps']
      exact ⟨rfl, hvalue'⟩

/-- A step of `x` only, with a value that is known. -/
theorem Refines.pure_bind {x : Comp α} {a : α} {f : α → Comp β} {y : Checked β}
    (hx : x = pure a) (hf : Refines (f a) y) : Refines (x >>= f) y := by
  rw [hx, LawfulMonad.pure_bind]
  exact hf

theorem Refines.add {a b : Nat} {f : Nat → Comp β} {y : Checked β} (h : a + b < 2 ^ 32)
    (hf : Refines (f (a + b)) y) : Refines (Word32.add a b >>= f) y :=
  .pure_bind (add_eq h) hf

theorem Refines.mul {a b : Nat} {f : Nat → Comp β} {y : Checked β} (h : a * b < 2 ^ 32)
    (hf : Refines (f (a * b)) y) : Refines (Word32.mul a b >>= f) y :=
  .pure_bind (mul_eq h) hf

/-- A step that either ends the computation or goes on. -/
theorem Refines.reserve {n : Nat} {f : Unit → Comp β} {y : Checked β}
    (hf : n < 2 ^ 31 → Refines (f ()) y) : Refines (Word32.reserve n >>= f) y := by
  by_cases hn : n < 2 ^ 31
  · have hok : (Word32.reserve n).value = .ok () := if_pos hn
    rw [Comp.bind_of_ok f hok]
    exact ⟨(Bool.false_or _).trans (hf hn).1, (hf hn).2⟩
  · have herror : (Word32.reserve n).value = .error .capacity := if_neg hn
    rw [Comp.bind_of_error f herror]
    exact ⟨rfl, fun _ ha => nomatch ha⟩

theorem Refines.zeroed {n : Nat} {f : List UInt8 → Comp β} {y : Checked β}
    (hf : n < 2 ^ 31 → Refines (f (List.replicate n 0)) y) :
    Refines (Word32.zeroed n >>= f) y := by
  rw [Word32.zeroed, bind_assoc]
  exact .reserve fun hn => .pure_bind rfl (hf hn)

/-! ## Loops -/

/-- A loop over a list, along what its states have in common. -/
theorem refines_foldlM {f : σ → α → Comp σ} {g : σ → α → Checked σ} (Inv : σ → Prop)
    {l : List α} {s : σ} (hs : Inv s)
    (hstep : ∀ a ∈ l, ∀ s, Inv s → Refines (f s a) (g s a))
    (hinv : ∀ a ∈ l, ∀ s s', Inv s → g s a = .ok s' → Inv s') :
    Refines (l.foldlM f s) (l.foldlM g s) := by
  induction l generalizing s with
  | nil => exact refines_pure s
  | cons a l ih =>
      rw [List.foldlM_cons, List.foldlM_cons]
      refine (hstep a List.mem_cons_self s hs).bind fun s' hs' => ?_
      exact ih (hinv a List.mem_cons_self s s' hs hs')
        (fun b hb => hstep b (List.mem_cons_of_mem a hb))
        (fun b hb => hinv b (List.mem_cons_of_mem a hb))

theorem refines_forRange {lo hi : Nat} {f : Nat → σ → Comp σ} {g : Nat → σ → Checked σ} {s : σ}
    (h : ∀ i s, lo ≤ i → i < hi → Refines (f i s) (g i s)) :
    Refines (forRange lo hi f s) (Slices.forRange lo hi g s) := by
  refine refines_foldlM (fun _ => True) trivial (fun i hi' s _ => ?_) (fun _ _ _ _ _ _ => trivial)
  rw [List.mem_range'_1] at hi'
  exact h i s hi'.1 (by omega)

theorem refines_mapM {f : α → Comp β} {g : α → Checked β} {l : List α}
    (h : ∀ a ∈ l, Refines (f a) (g a)) : Refines (l.mapM f) (l.mapM g) := by
  induction l with
  | nil => exact refines_pure []
  | cons a l ih =>
      rw [List.mapM_cons, List.mapM_cons]
      refine (h a List.mem_cons_self).bind fun b _ => ?_
      exact (ih fun b hb => h b (List.mem_cons_of_mem a hb)).bind fun bs _ => refines_pure _

end Word32
