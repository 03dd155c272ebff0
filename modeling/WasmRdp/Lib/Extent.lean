import WasmRdp.Lib.ByteReader

/-!
# How many bytes a format takes up

A format whose parts are known beforehand, up to counts that stand in the
bytes themselves: `extent` is the number of bytes its parts take up in front
of a byte string, as far as the counts in it say. It can be more than there
are.

The third triple `Takes m ps` says that a reader takes exactly these parts.
Where the bytes hold them all it returns, whatever follows them; where they
do not, it fails. Whether a reader stays within bounds is then a question
about `extent` alone.

It is an exact question because a part that ends within the bytes does not
depend on what follows (`Part.size_append`), and the same for a list of parts
(`extent_append`). In the other direction, some bytes that may follow always
hold what is missing (`exists_extent_le`): so a reader that would go beyond a
bound does go beyond it for some continuation.

The rules follow those of `ByteReader`. `Takes.counted` is the one that has
no twin there: a count is read, and what it counts is read after it.
-/

namespace ByteReader

/-! ## Extents -/

/-- A fixed number of bytes, or a count of some width with that many units
after it. -/
inductive Part where
  | fixed (n : Nat)
  | counted (width unit : Nat)

def Part.size : Part → List UInt8 → Nat
  | .fixed n, _ => n
  | .counted width unit, s => width + fromLe (s.take width) * unit

/-- No count can make the part longer than this. -/
def Part.maxSize : Part → Nat
  | .fixed n => n
  | .counted width unit => width + 256 ^ width * unit

/-- Bytes that the parts take up in front of `s`. -/
def extent : List Part → List UInt8 → Nat
  | [], _ => 0
  | p :: ps, s => p.size s + extent ps (s.drop (p.size s))

theorem Part.size_le_maxSize (p : Part) (s : List UInt8) : p.size s ≤ p.maxSize := by
  cases p with
  | fixed n => exact Nat.le_refl n
  | counted width unit =>
      have hlen : (s.take width).length ≤ width := List.length_take_le width s
      have hlt := (fromLe_lt (s.take width)).le.trans
        (Nat.pow_le_pow_right (by decide) hlen)
      exact Nat.add_le_add_left (Nat.mul_le_mul_right unit hlt) width

/-- A part that ends within `s` does not depend on what follows `s`. -/
theorem Part.size_append {p : Part} {s t : List UInt8}
    (h : p.size (s ++ t) ≤ s.length ∨ p.size s ≤ s.length) :
    p.size (s ++ t) = p.size s := by
  cases p with
  | fixed n => rfl
  | counted width unit =>
      have hwidth : width ≤ s.length := by
        rcases h with h | h <;> exact (Nat.le_add_right width _).trans h
      rw [size, size, List.take_append_of_le_length hwidth]

theorem extent_append (ps qs : List Part) (s : List UInt8) :
    extent (ps ++ qs) s = extent ps s + extent qs (s.drop (extent ps s)) := by
  induction ps generalizing s with
  | nil => rw [List.nil_append, extent, Nat.zero_add, List.drop_zero]
  | cons p ps ih =>
      rw [List.cons_append, extent, extent, ih, List.drop_drop, Nat.add_assoc]

theorem extent_append_right {ps : List Part} {s t : List UInt8}
    (h : extent ps (s ++ t) ≤ s.length ∨ extent ps s ≤ s.length) :
    extent ps (s ++ t) = extent ps s := by
  induction ps generalizing s with
  | nil => rfl
  | cons p ps ih =>
      simp only [extent] at h ⊢
      have hsize : p.size (s ++ t) = p.size s := Part.size_append (by omega)
      rw [hsize] at h ⊢
      have hle : p.size s ≤ s.length := by omega
      rw [List.drop_append_of_le_length hle] at h ⊢
      rw [ih (by rw [List.length_drop]; omega)]

/-- Some bytes that may follow hold all that is missing. -/
theorem exists_extent_le (ps : List Part) (s : List UInt8) :
    ∃ t, extent ps (s ++ t) ≤ (s ++ t).length := by
  have hmax : ∀ u, extent ps u ≤ (ps.map Part.maxSize).sum := by
    induction ps with
    | nil => exact fun _ => Nat.le_refl 0
    | cons p ps ih =>
        intro u
        rw [List.map_cons, List.sum_cons]
        exact Nat.add_le_add (p.size_le_maxSize u) (ih _)
  refine ⟨List.replicate (ps.map Part.maxSize).sum 0, (hmax _).trans ?_⟩
  rw [List.length_append, List.length_replicate]
  exact Nat.le_add_left ..

/-! ## Readers of a format -/

variable {α β : Type}

/-- The reader takes these parts, or fails. -/
structure Takes (m : Read α) (ps : List Part) : Prop where
  reads : ∀ bs, extent ps bs = bs.length → ∃ a, Reads m bs a
  short : ∀ (c : Cursor) (s : List UInt8), c.Sees s → s.length < extent ps s →
    (m c).1 = none

/-- In front of the parts and anything else. -/
theorem Takes.split {m : Read α} {ps : List Part} (hm : Takes m ps)
    {s : List UInt8} (h : extent ps s ≤ s.length) :
    ∃ bs rest a, s = bs ++ rest ∧ bs.length = extent ps s ∧ Reads m bs a := by
  have hlen : (s.take (extent ps s)).length = extent ps s := List.length_take_of_le h
  have hs : s.take (extent ps s) ++ s.drop (extent ps s) = s :=
    List.take_append_drop ..
  have hext : extent ps (s.take (extent ps s)) = (s.take (extent ps s)).length := by
    rw [hlen, ← extent_append_right (t := s.drop (extent ps s)) (.inl ?_), hs]
    rw [hs, hlen]
  obtain ⟨a, ha⟩ := hm.reads _ hext
  exact ⟨_, _, a, hs.symm, hlen, ha⟩

theorem Takes.pure (a : α) : Takes (pure a) [] where
  reads bs h := by
    obtain rfl : bs = [] := List.length_eq_zero_iff.mp h.symm
    exact ⟨a, Reads.pure a⟩
  short _ _ _ h := absurd h (Nat.not_lt_zero _)

theorem Takes.bind {m : Read α} {f : α → Read β} {ps qs : List Part}
    (hm : Takes m ps) (hf : ∀ a, Takes (f a) qs) : Takes (m >>= f) (ps ++ qs) where
  reads bs h := by
    rw [extent_append] at h
    obtain ⟨bs₁, bs₂, a, rfl, hlen, ha⟩ := hm.split (s := bs) (by omega)
    rw [← hlen, List.drop_left, List.length_append] at h
    obtain ⟨b, hb⟩ := (hf a).reads bs₂ (by omega)
    exact ⟨b, ha.bind hb⟩
  short c s hc h := by
    rw [bind_eq]
    by_cases hfit : extent ps s ≤ s.length
    · obtain ⟨bs₁, bs₂, a, rfl, hlen, ha⟩ := hm.split hfit
      rw [extent_append, ← hlen, List.drop_left, List.length_append] at h
      rw [ha c _ hc]
      exact (hf a).short _ _ hc.advance (by omega)
    · have hnone := hm.short c s hc (by omega)
      rcases hmc : m c with ⟨_ | a, c'⟩
      · rfl
      · rw [hmc] at hnone
        cases hnone

theorem Takes.congr {m : Read α} {ps qs : List Part} (hm : Takes m ps)
    (h : ∀ s, extent ps s = extent qs s) : Takes m qs where
  reads bs hbs := hm.reads bs ((h bs).trans hbs)
  short c s hc hs := hm.short c s hc ((h s).symm ▸ hs)

/-- The last read of a reader. -/
theorem Takes.bind_pure {m : Read α} {f : α → β} {ps : List Part}
    (hm : Takes m ps) : Takes (m >>= fun a => Pure.pure (f a)) ps := by
  have h := hm.bind (f := fun a => Pure.pure (f a)) fun a => Takes.pure (f a)
  rwa [List.append_nil] at h

theorem takes_take (n : Nat) : Takes (take n) [.fixed n] where
  reads bs h := ⟨bs, reads_take h.symm⟩
  short c s hc h := by
    have hlen := hc.length
    have hn : s.length < n := h
    rw [take, if_neg (by omega)]

theorem Takes.optional {m : Read α} {ps : List Part} (hm : Takes m ps)
    (present : Bool) :
    Takes (optional present m) (if present then ps else []) := by
  cases present with
  | true => exact hm.bind_pure
  | false => exact Takes.pure none

theorem Takes.times {m : Read α} {k : Nat} (hm : Takes m [.fixed k]) (n : Nat) :
    Takes (times n m) [.fixed (n * k)] := by
  induction n with
  | zero => exact (Takes.pure []).congr fun s => by simp [extent, Part.size]
  | succ n ih =>
      refine (hm.bind fun a => ih.bind_pure).congr fun s => ?_
      simp only [List.cons_append, List.nil_append, extent, Part.size]
      ring

/-- A count, and what it counts. -/
theorem Takes.counted {m : Read α} {f : α → Read β} {width unit : Nat}
    {count : α → Nat} (hm : Takes m [.fixed width])
    (hcount : ∀ bs a, bs.length = width → Reads m bs a → count a = fromLe bs)
    (hf : ∀ a, Takes (f a) [.fixed (count a * unit)]) :
    Takes (m >>= f) [.counted width unit] where
  reads bs h := by
    have hlen : width + fromLe (bs.take width) * unit = bs.length := h
    obtain ⟨bs₁, bs₂, a, rfl, hlen₁, ha⟩ := hm.split (s := bs)
      (show width + 0 ≤ bs.length by omega)
    have hwidth : bs₁.length = width := hlen₁
    rw [← hwidth, List.take_left, List.length_append,
      ← hcount bs₁ a hwidth ha] at hlen
    obtain ⟨b, hb⟩ := (hf a).reads bs₂ (show count a * unit + 0 = _ by omega)
    exact ⟨b, ha.bind hb⟩
  short c s hc h := by
    have hlen : s.length < width + fromLe (s.take width) * unit := h
    rw [bind_eq]
    by_cases hfit : width ≤ s.length
    · obtain ⟨bs₁, bs₂, a, rfl, hlen₁, ha⟩ := hm.split (s := s) hfit
      have hwidth : bs₁.length = width := hlen₁
      rw [← hwidth, List.take_left, List.length_append,
        ← hcount bs₁ a hwidth ha] at hlen
      rw [ha c _ hc]
      exact (hf a).short _ _ hc.advance (show _ < count a * unit + 0 by omega)
    · have hnone := hm.short c s hc (show s.length < width + 0 by omega)
      rcases hmc : m c with ⟨_ | a, c'⟩
      · rfl
      · rw [hmc] at hnone
        cases hnone

end ByteReader
