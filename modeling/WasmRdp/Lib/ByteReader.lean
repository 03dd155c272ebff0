import Mathlib.Tactic.Ring

/-!
# Reading byte strings

Little-endian numbers, and a monad `Read` of readers over a byte string. A
read that fails leaves the cursor where it failed, for whoever called it to
go on from.

Two triples describe a reader. `Reads m bs a` is completeness: in front of
the bytes `bs`, whatever follows, `m` takes them and returns `a`.
`Consumes m R` is soundness: whenever `m` returns `a`, it has taken bytes
that are related to `a` by `R`. Both have a rule for each way to put
readers together, so that the reader of a format is described by following
its definition.

`Reads.bind` concatenates the bytes of its two halves, and the rules for
`optional` and `times` do so for a part that may be missing and for a list of
parts. Together with an encoder whose bytes have the same shape this gives a
round trip. `Consumes.bind` composes the two relations through the bytes in
between, and what comes out is that a value which was read has been in the
bytes. `take_eq_none` says when the one primitive fails, and where the cursor
is then.

`Tracks` compares two readers that begin in the same way and differ in what
they make of it: wherever the first returns, the second has taken the same
bytes. It is used for a reader that computes with what a plainer one returns.
-/

namespace ByteReader

/-! ## Little-endian numbers -/

def fromLe : List UInt8 → Nat
  | [] => 0
  | b :: bs => b.toNat + 256 * fromLe bs

/-- The `k` low bytes of a number, the lowest first. -/
def toLe : Nat → Nat → List UInt8
  | 0, _ => []
  | k + 1, n => UInt8.ofNat n :: toLe k (n / 256)

@[simp] theorem length_toLe (k n : Nat) : (toLe k n).length = k := by
  induction k generalizing n with
  | zero => rfl
  | succ k ih => rw [toLe, List.length_cons, ih]

theorem fromLe_toLe {k n : Nat} (h : n < 256 ^ k) : fromLe (toLe k n) = n := by
  induction k generalizing n with
  | zero =>
      rw [Nat.pow_zero] at h
      rw [toLe, fromLe]
      omega
  | succ k ih =>
      rw [Nat.pow_succ] at h
      rw [toLe, fromLe, ih (by omega), UInt8.toNat_ofNat']
      omega

theorem fromLe_lt (bs : List UInt8) : fromLe bs < 256 ^ bs.length := by
  induction bs with
  | nil => exact Nat.one_pos
  | cons b bs ih =>
      have hb := b.toNat_lt
      rw [fromLe, List.length_cons, Nat.pow_succ]
      omega

theorem toLe_fromLe (bs : List UInt8) : toLe bs.length (fromLe bs) = bs := by
  induction bs with
  | nil => rfl
  | cons b bs ih =>
      have hb := b.toNat_lt
      have hdiv : (b.toNat + 256 * fromLe bs) / 256 = fromLe bs := by omega
      rw [List.length_cons, fromLe, toLe, hdiv, ih]
      congr 1
      refine UInt8.toNat_inj.mp ?_
      rw [UInt8.toNat_ofNat']
      omega

/-- The bytes of a number whose low `k` bytes are those of `m`. -/
theorem toLe_append {k l m n : Nat} (h : m < 256 ^ k) :
    toLe (k + l) (m + 256 ^ k * n) = toLe k m ++ toLe l n := by
  induction k generalizing m with
  | zero =>
      rw [Nat.pow_zero] at h
      obtain rfl : m = 0 := by omega
      rw [Nat.zero_add, Nat.zero_add, Nat.pow_zero, Nat.one_mul]
      rfl
  | succ k ih =>
      rw [Nat.pow_succ] at h
      have hpow : 256 ^ (k + 1) * n = 256 * (256 ^ k * n) := by
        rw [Nat.pow_succ, Nat.mul_comm (256 ^ k), Nat.mul_assoc]
      have hdiv : (m + 256 ^ (k + 1) * n) / 256 = m / 256 + 256 ^ k * n := by
        rw [hpow]
        omega
      have hlow : UInt8.ofNat (m + 256 ^ (k + 1) * n) = UInt8.ofNat m := by
        refine UInt8.toNat_inj.mp ?_
        rw [hpow, UInt8.toNat_ofNat', UInt8.toNat_ofNat']
        omega
      rw [Nat.add_right_comm, toLe, toLe, hdiv, ih (by omega), hlow]
      rfl

/-! ## Readers -/

structure Cursor where
  buf : List UInt8
  pos : Nat

namespace Cursor

def advance (c : Cursor) (n : Nat) : Cursor := { c with pos := c.pos + n }

/-- The bytes `s` are what is left to read. -/
def Sees (c : Cursor) (s : List UInt8) : Prop :=
  c.pos ≤ c.buf.length ∧ c.buf.drop c.pos = s

theorem Sees.advance {c : Cursor} {bs rest : List UInt8}
    (h : c.Sees (bs ++ rest)) : (c.advance bs.length).Sees rest := by
  obtain ⟨hpos, hdrop⟩ := h
  have hlen := congrArg List.length hdrop
  rw [List.length_drop, List.length_append] at hlen
  refine ⟨?_, ?_⟩
  · change c.pos + bs.length ≤ c.buf.length
    omega
  · rw [Cursor.advance, ← List.drop_drop, hdrop, List.drop_left]

theorem Sees.length {c : Cursor} {s : List UInt8} (h : c.Sees s) :
    c.pos + s.length = c.buf.length := by
  rw [← h.2, List.length_drop]
  have := h.1
  omega

theorem advance_advance (c : Cursor) (m n : Nat) :
    (c.advance m).advance n = c.advance (m + n) := by
  rw [advance, advance, advance, Nat.add_assoc]

end Cursor

def Read (α : Type) : Type := Cursor → Option α × Cursor

instance : Monad Read where
  pure a := fun c => (some a, c)
  bind m f := fun c =>
    match m c with
    | (some a, c') => f a c'
    | (none, c') => (none, c')

variable {α β : Type}

/-- Take `n` bytes. -/
def take (n : Nat) : Read (List UInt8) := fun c =>
  if c.pos + n ≤ c.buf.length then
    (some ((c.buf.drop c.pos).take n), c.advance n)
  else (none, c)

/-- A read whose failure is no failure. -/
def attempt (m : Read α) : Read (Option α) := fun c =>
  match m c with
  | (some a, c') => (some (some a), c')
  | (none, c') => (some none, c')

/-- A part that is there or not. -/
def optional (present : Bool) (m : Read α) : Read (Option α) :=
  if present then some <$> m else pure none

/-- The same read `n` times. -/
def times : Nat → Read α → Read (List α)
  | 0, _ => pure []
  | n + 1, m => do
      let a ← m
      let as ← times n m
      pure (a :: as)

theorem bind_eq (m : Read α) (f : α → Read β) (c : Cursor) :
    (m >>= f) c = match m c with
      | (some a, c') => f a c'
      | (none, c') => (none, c') := rfl

/-! ## Completeness -/

/-- In front of `bs`, the reader takes them and returns `a`. -/
def Reads (m : Read α) (bs : List UInt8) (a : α) : Prop :=
  ∀ (c : Cursor) (rest : List UInt8), c.Sees (bs ++ rest) →
    m c = (some a, c.advance bs.length)

theorem Reads.pure (a : α) : Reads (pure a) [] a := fun _ _ _ => rfl

theorem Reads.bind {m : Read α} {f : α → Read β} {bs bs' : List UInt8} {a : α}
    {b : β} (hm : Reads m bs a) (hf : Reads (f a) bs' b) :
    Reads (m >>= f) (bs ++ bs') b := by
  intro c rest hc
  rw [List.append_assoc] at hc
  rw [bind_eq, hm c _ hc]
  dsimp only
  rw [hf _ _ hc.advance, Cursor.advance_advance, List.length_append]

/-- The last read of a reader. -/
theorem Reads.bind_pure {m : Read α} {f : α → β} {bs : List UInt8} {a : α}
    (hm : Reads m bs a) : Reads (m >>= fun a => Pure.pure (f a)) bs (f a) := by
  have h := hm.bind (f := fun a => Pure.pure (f a)) (Reads.pure (f a))
  rwa [List.append_nil] at h

theorem Reads.map {m : Read α} {bs : List UInt8} {a : α} (hm : Reads m bs a)
    (f : α → β) : Reads (f <$> m) bs (f a) := hm.bind_pure

theorem reads_take {bs : List UInt8} {n : Nat} (h : bs.length = n) :
    Reads (take n) bs bs := by
  intro c rest hc
  have hlen := hc.length
  rw [List.length_append] at hlen
  rw [take, if_pos (by omega), hc.2, List.take_left' h, h]

theorem Reads.attempt {m : Read α} {bs : List UInt8} {a : α}
    (hm : Reads m bs a) : Reads (attempt m) bs (some a) := by
  intro c rest hc
  rw [ByteReader.attempt, hm c rest hc]

/-- The bytes of an optional part are there exactly when it is. -/
theorem Reads.optional {m : Read α} {enc : β → List UInt8} {val : β → α}
    {present : Bool} {part : Option β} (hpresent : present = part.isSome)
    (hm : ∀ b ∈ part, Reads m (enc b) (val b)) :
    Reads (optional present m) (part.elim [] enc) (part.map val) := by
  rw [hpresent]
  cases part with
  | none => exact Reads.pure none
  | some b => exact (hm b rfl).map some

theorem Reads.times {m : Read α} {enc : α → List UInt8} {as : List α}
    (hm : ∀ a ∈ as, Reads m (enc a) a) :
    Reads (times as.length m) (as.flatMap enc) as := by
  induction as with
  | nil => exact Reads.pure []
  | cons a as ih =>
      have hrest := ih fun a' ha' => hm a' (List.mem_cons_of_mem _ ha')
      rw [List.flatMap_cons]
      exact (hm a (List.mem_cons_self ..)).bind hrest.bind_pure

/-! ## Soundness -/

/-- When the reader returns, the bytes it took are related to the value. -/
def Consumes (m : Read α) (R : List UInt8 → α → Prop) : Prop :=
  ∀ (c : Cursor) (s : List UInt8) (a : α) (c' : Cursor), c.Sees s →
    m c = (some a, c') →
      ∃ bs rest, s = bs ++ rest ∧ c' = c.advance bs.length ∧ R bs a

theorem Consumes.pure (a : α) : Consumes (pure a) fun bs b => bs = [] ∧ b = a := by
  intro c s b c' _ h
  cases h
  exact ⟨[], s, rfl, rfl, rfl, rfl⟩

theorem Consumes.bind {m : Read α} {f : α → Read β}
    {R : List UInt8 → α → Prop} {S : α → List UInt8 → β → Prop}
    (hm : Consumes m R) (hf : ∀ a, Consumes (f a) (S a)) :
    Consumes (m >>= f) fun bs b =>
      ∃ bs₁ bs₂ a, bs = bs₁ ++ bs₂ ∧ R bs₁ a ∧ S a bs₂ b := by
  intro c s b c' hc h
  rw [bind_eq] at h
  rcases hma : m c with ⟨_ | a, c₁⟩ <;> rw [hma] at h
  · cases h
  · obtain ⟨bs₁, rest, rfl, rfl, hR⟩ := hm c s a c₁ hc hma
    obtain ⟨bs₂, rest', rfl, rfl, hS⟩ := hf a _ _ b c' hc.advance h
    refine ⟨bs₁ ++ bs₂, rest', (List.append_assoc ..).symm, ?_, bs₁, bs₂, a,
      rfl, hR, hS⟩
    rw [Cursor.advance_advance, List.length_append]

theorem Consumes.imp {m : Read α} {R S : List UInt8 → α → Prop}
    (hm : Consumes m R) (h : ∀ bs a, R bs a → S bs a) : Consumes m S := by
  intro c s a c' hc hma
  obtain ⟨bs, rest, hs, hc', hR⟩ := hm c s a c' hc hma
  exact ⟨bs, rest, hs, hc', h bs a hR⟩

theorem consumes_take (n : Nat) :
    Consumes (take n) fun bs a => bs.length = n ∧ a = bs := by
  intro c s a c' hc h
  have hlen := hc.length
  unfold take at h
  split at h
  · rename_i hfit
    cases h
    have htake : (s.take n).length = n := by
      rw [List.length_take]
      omega
    refine ⟨s.take n, s.drop n, (List.take_append_drop n s).symm, ?_, htake, ?_⟩
    · rw [htake]
    · rw [hc.2]
  · cases h

/-- A take that fails leaves the cursor, in front of less than it wanted. -/
theorem take_eq_none {n : Nat} {c c' : Cursor} {s : List UInt8} (hc : c.Sees s)
    (h : take n c = (none, c')) : c' = c ∧ s.length < n := by
  have hlen := hc.length
  unfold take at h
  split at h
  · cases h
  · cases h
    exact ⟨rfl, by omega⟩

/-! ## Two readers in step -/

/-- Wherever `m` returns, `m'` has taken the same bytes, and what the two
return is related. -/
def Tracks {γ : Type} (m : Read α) (m' : Read γ) (R : α → γ → Prop) : Prop :=
  ∀ c a c', m c = (some a, c') → ∃ b, m' c = (some b, c') ∧ R a b

/-- The first reader goes on to compute with what the second returns. -/
theorem Tracks.last {R : α → β → Prop} {m : Read β} {f : β → α} (h : ∀ b, R (f b) b) :
    Tracks (m >>= fun b => Pure.pure (f b)) m R := by
  intro c a c' hm
  rw [bind_eq] at hm
  rcases hread : m c with ⟨_ | b, c₁⟩
  · rw [hread] at hm
    cases hm
  · rw [hread] at hm
    cases hm
    exact ⟨b, rfl, h b⟩

/-- Both begin with the same read. -/
theorem Tracks.bind {γ δ : Type} {R : α → γ → Prop} {m : Read δ} {f : δ → Read α}
    {g : δ → Read γ} (h : ∀ d, Tracks (f d) (g d) R) : Tracks (m >>= f) (m >>= g) R := by
  intro c a c' hm
  rw [bind_eq] at hm ⊢
  rcases hread : m c with ⟨_ | d, c₁⟩
  · rw [hread] at hm
    cases hm
  · rw [hread] at hm
    exact h d c₁ a c' hm

end ByteReader
