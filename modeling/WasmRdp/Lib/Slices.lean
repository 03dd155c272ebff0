import Mathlib.Data.List.Basic

/-!
# Checked slices and loops

The fragment of Rust that can abort, as a library: indexing, slicing,
`copy_from_slice`, unsigned subtraction and shifts, in the error monad
`Checked`. Sizes are unbounded naturals and buffers are lists.

`Returns x Q` is the total-correctness triple "x does not abort and its
value satisfies Q". Every loop rule is an invariant rule for it:
`returns_forRange` for counted loops, `returns_foldlM` for loops over a
list. `splice` is the pure meaning of `copy_from_slice`; its pointwise
description is `getElem?_splice`.

Each operation has an equation with its bounds as hypotheses (`slice_eq_ok`,
`copyFromSlice_eq_ok`, `sub_eq_ok`), which is how a caller runs straight-line
code: rewrite by the equations and be left with the bounds. The other
direction, what is known when a computation did return, is `bind_eq_ok` and
`inv_of_foldlM`; a proof about a system that may stop uses these, a proof that
it does not stop uses the triple.

The invariant of `returns_foldlM` speaks of the elements already visited, so
that a loop which paints or sends one element after another is described by
what the list so far has done. `returns_mapM` carries a relation with an
earlier list along, for loops that replace each element in place.
-/

namespace Slices

/-- The ways a checked operation aborts. -/
inductive Panic where
  | index
  | slice
  | length
  | sub
  | shift
  deriving DecidableEq, Repr

/-- A computation that may abort. -/
abbrev Checked := Except Panic

variable {α β σ : Type}

/-! ## Total correctness -/

/-- `x` does not abort, and its value satisfies `Q`. -/
def Returns (x : Checked α) (Q : α → Prop) : Prop := ∃ a, x = .ok a ∧ Q a

theorem Returns.ok {a : α} {Q : α → Prop} (h : Q a) : Returns (.ok a) Q :=
  ⟨a, rfl, h⟩

theorem Returns.pure {a : α} {Q : α → Prop} (h : Q a) :
    Returns (pure a) Q :=
  ⟨a, rfl, h⟩

theorem Returns.imp {x : Checked α} {P Q : α → Prop} (hx : Returns x P)
    (h : ∀ a, P a → Q a) : Returns x Q := by
  obtain ⟨a, rfl, ha⟩ := hx
  exact ⟨a, rfl, h a ha⟩

theorem Returns.bind {x : Checked α} {f : α → Checked β} {P : α → Prop}
    {Q : β → Prop} (hx : Returns x P) (hf : ∀ a, P a → Returns (f a) Q) :
    Returns (x >>= f) Q := by
  obtain ⟨a, rfl, ha⟩ := hx
  exact hf a ha

/-- A bind that returned came from a first half that returned. -/
theorem bind_eq_ok {x : Checked α} {f : α → Checked β} {b : β}
    (h : x >>= f = .ok b) : ∃ a, x = .ok a ∧ f a = .ok b := by
  cases x with
  | error e => cases h
  | ok a => exact ⟨a, rfl, h⟩

/-- What is known of the value of a run that returned. -/
theorem Returns.of_eq {x : Checked α} {Q : α → Prop} {a : α}
    (h : Returns x Q) (hx : x = .ok a) : Q a := by
  obtain ⟨b, hb, hQ⟩ := h
  obtain rfl : b = a := Except.ok.inj (hb.symm.trans hx)
  exact hQ

/-! ## Indexing and arithmetic -/

/-- `buf[i]`. -/
def index (buf : List α) (i : Nat) : Checked α :=
  match buf[i]? with
  | some v => .ok v
  | none => .error .index

/-- `buf[i] = v`. -/
def store (buf : List α) (i : Nat) (v : α) : Checked (List α) :=
  if i < buf.length then .ok (buf.set i v) else .error .index

/-- `a - b` on an unsigned type. -/
def sub (a b : Nat) : Checked Nat :=
  if b ≤ a then .ok (a - b) else .error .sub

/-- `b >> k` on a byte. -/
def shr (b : UInt8) (k : Nat) : Checked Nat :=
  if k < 8 then .ok (b.toNat >>> k) else .error .shift

theorem index_eq_ok {buf : List α} {i : Nat} {v : α} (h : buf[i]? = some v) :
    index buf i = .ok v := by
  rw [index, h]

theorem returns_index {buf : List α} {i : Nat} (h : i < buf.length) :
    Returns (index buf i) (fun v => buf[i]? = some v) :=
  ⟨buf[i], index_eq_ok (List.getElem?_eq_getElem h), List.getElem?_eq_getElem h⟩

theorem index_eq_getD {buf : List α} {i : Nat} (d : α) (h : i < buf.length) :
    index buf i = .ok (buf.getD i d) := by
  rw [List.getD_eq_getElem?_getD, List.getElem?_eq_getElem h, Option.getD_some]
  exact index_eq_ok (List.getElem?_eq_getElem h)

theorem index_eq_error {buf : List α} {i : Nat} (h : buf.length ≤ i) :
    index buf i = .error .index := by
  rw [index, List.getElem?_eq_none h]

theorem store_eq_ok {buf : List α} {i : Nat} {v : α} (h : i < buf.length) :
    store buf i v = .ok (buf.set i v) := if_pos h

theorem sub_eq_ok {a b : Nat} (h : b ≤ a) : sub a b = .ok (a - b) := if_pos h

theorem shr_eq_ok {b : UInt8} {k : Nat} (h : k < 8) : shr b k = .ok (b.toNat >>> k) :=
  if_pos h

/-! ## Slices -/

/-- `buf[lo..hi]`. -/
def slice (buf : List α) (lo hi : Nat) : Checked (List α) :=
  if lo ≤ hi ∧ hi ≤ buf.length then .ok ((buf.drop lo).take (hi - lo))
  else .error .slice

/-- `buf` with the elements from `lo` on overwritten by `src`. -/
def splice (buf : List α) (lo : Nat) (src : List α) : List α :=
  buf.take lo ++ src ++ buf.drop (lo + src.length)

/-- `dst[lo..hi].copy_from_slice(src)`. -/
def copyFromSlice (dst : List α) (lo hi : Nat) (src : List α) :
    Checked (List α) :=
  if lo ≤ hi ∧ hi ≤ dst.length then
    if src.length = hi - lo then .ok (splice dst lo src)
    else .error .length
  else .error .slice

theorem slice_eq_ok {buf : List α} {lo hi : Nat} (h₁ : lo ≤ hi)
    (h₂ : hi ≤ buf.length) :
    slice buf lo hi = .ok ((buf.drop lo).take (hi - lo)) := if_pos ⟨h₁, h₂⟩

theorem copyFromSlice_eq_ok {dst src : List α} {lo hi : Nat} (h₁ : lo ≤ hi)
    (h₂ : hi ≤ dst.length) (h₃ : src.length = hi - lo) :
    copyFromSlice dst lo hi src = .ok (splice dst lo src) := by
  rw [copyFromSlice, if_pos ⟨h₁, h₂⟩, if_pos h₃]

@[simp] theorem length_splice {buf src : List α} {lo : Nat}
    (h : lo + src.length ≤ buf.length) :
    (splice buf lo src).length = buf.length := by
  simp only [splice, List.length_append, List.length_take, List.length_drop]
  omega

theorem getElem?_splice {buf src : List α} {lo : Nat}
    (h : lo + src.length ≤ buf.length) (i : Nat) :
    (splice buf lo src)[i]? =
      if lo ≤ i ∧ i < lo + src.length then src[i - lo]? else buf[i]? := by
  have hlo : (buf.take lo).length = lo := by
    rw [List.length_take]; omega
  rw [splice, List.append_assoc, List.getElem?_append, hlo]
  split
  · rw [List.getElem?_take, if_pos ‹i < lo›, if_neg (by omega)]
  · rw [List.getElem?_append]
    by_cases hi : i < lo + src.length
    · rw [if_pos (by omega), if_pos (by omega)]
    · rw [if_neg (by omega), if_neg (by omega), List.getElem?_drop]
      congr 1
      omega

theorem le_of_copyFromSlice {dst src out : List α} {lo hi : Nat}
    (h : copyFromSlice dst lo hi src = .ok out) : lo ≤ hi ∧ hi ≤ dst.length := by
  by_contra hrange
  rw [copyFromSlice, if_neg hrange] at h
  cases h

theorem length_of_copyFromSlice {dst src out : List α} {lo hi : Nat}
    (h : copyFromSlice dst lo hi src = .ok out) : out.length = dst.length := by
  unfold copyFromSlice at h
  split at h
  · split at h
    · obtain rfl := Except.ok.inj h
      exact length_splice (by omega)
    · cases h
  · cases h

/-- Copying one slice into another of the same length. -/
theorem copy_slice {dst src : List α} {d s n : Nat}
    (hd : d + n ≤ dst.length) (hs : s + n ≤ src.length) :
    (do let row ← slice src s (s + n)
        copyFromSlice dst d (d + n) row) =
      .ok (splice dst d ((src.drop s).take n)) := by
  have hlen : ((src.drop s).take n).length = n := by
    rw [List.length_take, List.length_drop]; omega
  rw [slice_eq_ok (Nat.le_add_right s n) hs, Nat.add_sub_cancel_left]
  exact copyFromSlice_eq_ok (Nat.le_add_right d n) hd (by rw [hlen]; omega)

theorem length_splice_slice {dst src : List α} {d s n : Nat}
    (hd : d + n ≤ dst.length) :
    (splice dst d ((src.drop s).take n)).length = dst.length := by
  refine length_splice ?_
  rw [List.length_take, List.length_drop]
  omega

theorem getElem?_splice_slice {dst src : List α} {d s n : Nat}
    (hd : d + n ≤ dst.length) (hs : s + n ≤ src.length) (i : Nat) :
    (splice dst d ((src.drop s).take n))[i]? =
      if d ≤ i ∧ i < d + n then src[s + (i - d)]? else dst[i]? := by
  have hlen : ((src.drop s).take n).length = n := by
    rw [List.length_take, List.length_drop]; omega
  rw [getElem?_splice (by rw [hlen]; exact hd), hlen]
  split
  · rw [List.getElem?_take, if_pos (by omega), List.getElem?_drop]
  · rfl

/-! ## Loops -/

/-- `for i in lo..hi { s = body(i, s) }`. -/
def forRange (lo hi : Nat) (body : Nat → σ → Checked σ) (s : σ) : Checked σ :=
  (List.range' lo (hi - lo)).foldlM (fun s i => body i s) s

/-- The invariant rule of a counted loop. -/
theorem returns_forRange {lo hi : Nat} {body : Nat → σ → Checked σ}
    (Inv : Nat → σ → Prop) {s : σ} (hle : lo ≤ hi) (h₀ : Inv lo s)
    (hstep : ∀ i s, lo ≤ i → i < hi → Inv i s →
      Returns (body i s) (Inv (i + 1))) :
    Returns (forRange lo hi body s) (Inv hi) := by
  obtain ⟨n, rfl⟩ := Nat.exists_eq_add_of_le hle
  rw [forRange, Nat.add_sub_cancel_left]
  clear hle
  induction n generalizing lo s with
  | zero => exact Returns.pure (by simpa using h₀)
  | succ n ih =>
      rw [List.range'_succ, List.foldlM_cons]
      refine (hstep lo s (Nat.le_refl _) (by omega) h₀).bind fun s' hs' => ?_
      have hrest := @ih (lo + 1) s' hs' (fun i t hi hlt hinv =>
        hstep i t (by omega) (by omega) hinv)
      rwa [Nat.add_assoc, Nat.add_comm 1 n] at hrest

/-- Loops whose bodies agree on the range agree. -/
theorem forRange_congr {lo hi : Nat} {f g : Nat → σ → Checked σ} {s : σ}
    (h : ∀ i s, lo ≤ i → i < hi → f i s = g i s) :
    forRange lo hi f s = forRange lo hi g s := by
  have hmem : ∀ i ∈ List.range' lo (hi - lo), ∀ s, f i s = g i s := by
    intro i hi' s
    rw [List.mem_range'_1] at hi'
    exact h i s hi'.1 (by omega)
  unfold forRange
  revert hmem s
  induction List.range' lo (hi - lo) with
  | nil => exact fun _ => rfl
  | cons a l ih =>
      intro s hmem
      rw [List.foldlM_cons, List.foldlM_cons, hmem a (List.mem_cons_self ..)]
      congr 1
      funext s'
      exact ih fun i hi' => hmem i (List.mem_cons_of_mem _ hi')

/-- The invariant rule of a loop over a list: the invariant speaks of the
elements already visited. -/
theorem returns_foldlM {f : σ → α → Checked σ} (Inv : List α → σ → Prop)
    {s : σ} (h₀ : Inv [] s)
    (hstep : ∀ visited a s, Inv visited s →
      Returns (f s a) (Inv (visited ++ [a]))) (l : List α) :
    Returns (l.foldlM f s) (Inv l) := by
  have hgo : ∀ (l visited : List α) (s : σ), Inv visited s →
      Returns (l.foldlM f s) (Inv (visited ++ l)) := by
    intro l
    induction l with
    | nil => exact fun visited s h => Returns.pure (by simpa using h)
    | cons a l ih =>
        intro visited s h
        rw [List.foldlM_cons, List.append_cons]
        exact (hstep visited a s h).bind fun s' hs' => ih (visited ++ [a]) s' hs'
  exact hgo l [] s h₀

/-- What every step of a loop keeps, if it returns, the loop keeps. -/
theorem inv_of_foldlM {f : σ → α → Checked σ} (Inv : σ → Prop)
    (hstep : ∀ a s s', Inv s → f s a = .ok s' → Inv s') {l : List α} {s s' : σ} (hs : Inv s)
    (hrun : l.foldlM f s = .ok s') : Inv s' := by
  induction l generalizing s with
  | nil =>
      obtain rfl := Except.ok.inj hrun
      exact hs
  | cons a l ih =>
      rw [List.foldlM_cons] at hrun
      obtain ⟨s₁, ha, hl⟩ := bind_eq_ok hrun
      exact ih (hstep a s s₁ hs ha) hl

/-- Mapping a checked operation over a list, along a relation with an
earlier state of the list. -/
theorem returns_mapM {γ : Type} {f : α → Checked β} {R : γ → α → Prop}
    {S : γ → β → Prop} (h : ∀ c a, R c a → Returns (f a) (S c)) :
    ∀ {l₀ : List γ} {l : List α}, List.Forall₂ R l₀ l →
      Returns (l.mapM f) (List.Forall₂ S l₀)
  | [], [], .nil => by
      rw [List.mapM_nil]
      exact Returns.pure .nil
  | c :: l₀, a :: l, .cons hca hl => by
      rw [List.mapM_cons]
      exact (h c a hca).bind fun b hb =>
        (returns_mapM h hl).bind fun bs hbs => Returns.pure (.cons hb hbs)

/-- Every element on the right of a relation of lists has a partner. -/
theorem exists_of_forall₂ {R : α → β → Prop} :
    ∀ {l : List α} {l' : List β}, List.Forall₂ R l l' →
      ∀ b ∈ l', ∃ a ∈ l, R a b
  | [], [], .nil, b, hb => nomatch hb
  | a :: l, b' :: l', .cons hab hl, b, hb => by
      rcases List.mem_cons.mp hb with rfl | hb
      · exact ⟨a, List.mem_cons_self .., hab⟩
      · obtain ⟨a', ha', hr⟩ := exists_of_forall₂ hl b hb
        exact ⟨a', List.mem_cons_of_mem _ ha', hr⟩

/-- A search with a test that never aborts. -/
theorem returns_anyM {p : α → Checked Bool}
    (hp : ∀ a, Returns (p a) (fun _ => True)) :
    ∀ l : List α, Returns (l.anyM p) (fun _ => True)
  | [] => Returns.pure trivial
  | a :: l => by
      rw [List.anyM_cons]
      refine (hp a).bind fun hit _ => ?_
      cases hit with
      | true => exact Returns.pure trivial
      | false => exact returns_anyM hp l

end Slices
