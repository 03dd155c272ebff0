import WasmRdp.Lib.ByteReader
import WasmRdp.Lib.Slices

/-!
# Writing byte strings

A cursor over a buffer of fixed length, and writers that move it. The triple
`Writes m bs` describes a writer: with room for `bs` it puts them at the
cursor and stops behind them. It has a rule for each way to put writers
together, so that the writer of a format is described by following its
definition, as the readers of `ByteReader` are.

A writer can fail in two ways, with an error of its own or by leaving the
buffer, and they are kept apart: a format checks its lengths to give the
first (`ensureSize`, `castLength`), and a round trip has to show that the
second does not happen. `Writes` says nothing when the room is missing.
`Writes.ensureSize` therefore asks that the size checked for is no more than
the bytes that follow, and `Writes.castLength` that the length fits its
16 bits; `of_bind_eq_ok` and `castLength_eq_ok` take the checks back out of a
writer that did not fail.

`encodeVec` writes a value to a buffer of the size that it announces. Where
the size is exact the buffer is filled (`Writes.encodeVec`), which is what a
frame that is sent has to be.
-/

namespace ByteWriter

open Slices ByteReader

/-- A buffer, filled up to `pos`. -/
structure WriteCursor where
  buf : List UInt8
  pos : Nat
  pos_le : pos ≤ buf.length

/-- How a writer fails: with an error of its own, or by leaving the buffer. -/
inductive Failure where
  | notEnoughBytes (received expected : Nat)
  | invalidField (field : String)
  | outOfBounds
  deriving DecidableEq, Repr

namespace WriteCursor

/-- The room that is left. -/
def len (c : WriteCursor) : Nat := c.buf.length - c.pos

def write (c : WriteCursor) (bs : List UInt8) : Except Failure WriteCursor :=
  if h : c.pos + bs.length ≤ c.buf.length then
    .ok ⟨splice c.buf c.pos bs, c.pos + bs.length, by rwa [length_splice h]⟩
  else .error .outOfBounds

def writeU8 (c : WriteCursor) (v : UInt8) : Except Failure WriteCursor := c.write [v]

def writeU16 (c : WriteCursor) (v : UInt16) : Except Failure WriteCursor :=
  c.write (toLe 2 v.toNat)

def writeU32 (c : WriteCursor) (v : UInt32) : Except Failure WriteCursor :=
  c.write (toLe 4 v.toNat)

/-- `c'` is `c` with `bs` written. -/
def Wrote (c c' : WriteCursor) (bs : List UInt8) : Prop :=
  c'.pos = c.pos + bs.length ∧ c'.buf = splice c.buf c.pos bs

/-- The bytes from one position to a later one. -/
def written (c c' : WriteCursor) : List UInt8 := (c'.buf.drop c.pos).take (c'.pos - c.pos)

end WriteCursor

/-- `ensure_size!`. -/
def ensureSize (dst : WriteCursor) (size : Nat) : Except Failure Unit :=
  if dst.len < size then .error (.notEnoughBytes dst.len size) else .ok ()

/-- `cast_length!`, to 16 bits. -/
def castLength (field : String) (n : Nat) : Except Failure UInt16 :=
  if n ≤ 65535 then .ok (.ofNat n) else .error (.invalidField field)

theorem ensureSize_eq_ok {dst : WriteCursor} {size : Nat} (h : size ≤ dst.len) :
    ensureSize dst size = .ok () := if_neg (by omega)

theorem castLength_eq_ok {field : String} {n : Nat} (h : n ≤ 65535) :
    castLength field n = .ok (.ofNat n) := if_pos h

theorem castLength_eq_error {field : String} {n : Nat} (h : 65535 < n) :
    castLength field n = .error (.invalidField field) := if_neg (by omega)

theorem le_of_castLength {field : String} {n : Nat} {v : UInt16}
    (h : castLength field n = .ok v) : n ≤ 65535 := by
  by_contra hlong
  rw [castLength_eq_error (by omega)] at h
  cases h

/-- A writer that has not failed, cut in two. -/
theorem of_bind_eq_ok {α β : Type} {m : Except Failure α} {f : α → Except Failure β} {b : β}
    (h : m >>= f = .ok b) : ∃ a, m = .ok a ∧ f a = .ok b := by
  cases m with
  | error e => cases h
  | ok a => exact ⟨a, rfl, h⟩

/-! ## What a writer writes -/

open WriteCursor

/-- Writing `as` and then `bs`. -/
theorem splice_splice {buf as bs : List UInt8} {pos : Nat}
    (h : pos + as.length + bs.length ≤ buf.length) :
    splice (splice buf pos as) (pos + as.length) bs = splice buf pos (as ++ bs) := by
  have htake : (buf.take pos ++ as).length = pos + as.length := by
    rw [List.length_append, List.length_take]
    omega
  have htail : (splice buf pos as).drop (pos + as.length + bs.length) =
      buf.drop (pos + as.length + bs.length) := by
    rw [splice, ← htake, List.drop_length_add_append, htake, List.drop_drop]
  rw [splice, htail, splice, List.take_left' htake, splice, List.length_append,
    Nat.add_assoc, List.append_assoc (buf.take pos)]

/-- With room for `bs`, the writer writes them. -/
def Writes (m : WriteCursor → Except Failure WriteCursor) (bs : List UInt8) : Prop :=
  ∀ c, bs.length ≤ c.len → ∃ c', m c = .ok c' ∧ Wrote c c' bs

theorem writes_write (bs : List UInt8) : Writes (·.write bs) bs := by
  intro c hroom
  have hpos := c.pos_le
  rw [len] at hroom
  exact ⟨_, dif_pos (show c.pos + bs.length ≤ c.buf.length by omega), rfl, rfl⟩

theorem writes_u8 (v : UInt8) : Writes (·.writeU8 v) [v] := writes_write _

theorem writes_u16 (v : UInt16) : Writes (·.writeU16 v) (toLe 2 v.toNat) := writes_write _

theorem writes_u32 (v : UInt32) : Writes (·.writeU32 v) (toLe 4 v.toNat) := writes_write _

theorem Writes.nil : Writes pure [] := fun c _ =>
  ⟨c, rfl, rfl, by simp [splice]⟩

/-- One writer after another. -/
theorem Writes.bind {m m' : WriteCursor → Except Failure WriteCursor}
    {as bs : List UInt8} (hm : Writes m as) (hm' : Writes m' bs) :
    Writes (fun c => m c >>= m') (as ++ bs) := by
  intro c hroom
  rw [List.length_append, len] at hroom
  have hpos := c.pos_le
  obtain ⟨c₁, h₁, hpos₁, hbuf₁⟩ := hm c (by rw [len]; omega)
  have hlen₁ : c₁.buf.length = c.buf.length := by
    rw [hbuf₁, length_splice (by omega)]
  obtain ⟨c₂, h₂, hpos₂, hbuf₂⟩ := hm' c₁ (by rw [len]; omega)
  refine ⟨c₂, ?_, ?_, ?_⟩
  · dsimp only
    rw [h₁]
    exact h₂
  · rw [hpos₂, hpos₁, List.length_append, Nat.add_assoc]
  · rw [hbuf₂, hbuf₁, hpos₁, splice_splice (by omega)]

/-- A length that fits, before a writer that takes it. -/
theorem Writes.castLength {m : UInt16 → WriteCursor → Except Failure WriteCursor}
    {bs : List UInt8} {field : String} {n : Nat} (hn : n ≤ 65535)
    (hm : Writes (m (.ofNat n)) bs) :
    Writes (fun c => castLength field n >>= fun v => m v c) bs := by
  intro c hroom
  rw [castLength_eq_ok hn]
  exact hm c hroom

/-- A check for room before a writer that needs it. -/
theorem Writes.ensureSize {m : WriteCursor → Except Failure WriteCursor}
    {bs : List UInt8} {size : Nat} (hsize : size ≤ bs.length) (hm : Writes m bs) :
    Writes (fun c => ensureSize c size >>= fun _ => m c) bs := by
  intro c hroom
  dsimp only
  rw [ensureSize_eq_ok (hsize.trans hroom)]
  exact hm c hroom

/-- A writer for each element of a list. -/
theorem Writes.foldlM_of_mem {α : Type} {m : WriteCursor → α → Except Failure WriteCursor}
    {enc : α → List UInt8} {as : List α} (hm : ∀ a ∈ as, Writes (m · a) (enc a)) :
    Writes (as.foldlM m ·) (as.flatMap enc) := by
  induction as with
  | nil => exact Writes.nil
  | cons a as ih =>
    have hrest := ih fun a' ha' => hm a' (List.mem_cons_of_mem _ ha')
    rw [List.flatMap_cons]
    simp only [List.foldlM_cons]
    exact (hm a (List.mem_cons_self ..)).bind hrest

theorem Writes.foldlM {α : Type} {m : WriteCursor → α → Except Failure WriteCursor}
    {enc : α → List UInt8} (hm : ∀ a, Writes (m · a) (enc a)) (as : List α) :
    Writes (as.foldlM m ·) (as.flatMap enc) :=
  .foldlM_of_mem fun a _ => hm a

/-- The bytes a writer has written are between the two cursors. -/
theorem WriteCursor.Wrote.written {c c' : WriteCursor} {bs : List UInt8} (h : Wrote c c' bs) :
    written c c' = bs := by
  obtain ⟨hpos, hbuf⟩ := h
  have hle := c.pos_le
  rw [WriteCursor.written, hpos, hbuf, Nat.add_sub_cancel_left, splice,
    List.append_assoc, List.drop_append_of_le_length (by rw [List.length_take]; omega),
    List.drop_take_self, List.nil_append, List.take_left]

/-! ## A buffer of its own -/

/-- `encode_vec`: a value is written to a buffer of the size that it announces. -/
def encodeVec (size : Nat) (m : WriteCursor → Except Failure WriteCursor) :
    Except Failure (List UInt8) := do
  let dst ← m ⟨List.replicate size 0, 0, Nat.zero_le _⟩
  return dst.buf

/-- A writer whose bytes fill the buffer. -/
theorem Writes.encodeVec {m : WriteCursor → Except Failure WriteCursor}
    {bs : List UInt8} {size : Nat} (hm : Writes m bs) (hsize : bs.length = size) :
    encodeVec size m = .ok bs := by
  have hroom : bs.length ≤ (List.replicate size (0 : UInt8)).length - 0 := by
    rw [List.length_replicate]
    omega
  obtain ⟨c', hc', -, hbuf⟩ := hm ⟨List.replicate size 0, 0, Nat.zero_le _⟩ hroom
  rw [ByteWriter.encodeVec, hc']
  change Except.ok c'.buf = _
  rw [hbuf, splice, List.take_zero, List.nil_append, Nat.zero_add, List.drop_replicate, hsize,
    Nat.sub_self, List.replicate_zero, List.append_nil]

end ByteWriter
