import Mathlib.Tactic.Ring
import WasmRdp.Lib.Slices

/-!
# Row-major RGBA rasters

Two levels of one thing. Below, a byte buffer with four bytes a pixel and
rows of `W` pixels, and the loop `copyRows` that every blit runs; above, a
`Picture`: a total function on a rectangle, with `paint`, `crop` and
partial `Layer`s. `ofBuffer` connects them.

`returns_copyRows` is the only lemma about that loop. It is stated over
pixel indices, so that a caller supplies the two offset formulas of its
own loop and gets back the painted pixels. Its arithmetic is
`rowMajor_window`: a run of pixels within a row meets the pixel `(x, y)`
exactly when `y` is that row and `x` lies in the run. Loops that write one
pixel at a time have rules of their own, `returns_paintRun` along a row and
`returns_paintBlock` over rows.

A buffer that consists of whole pixels is known by them (`eq_of_pixel`), and
`render` makes the buffer for given pixels.

Above, a layer is blank where it draws nothing, and painting is clipped to
the picture. `ofBuffer_eq_paint` takes what a loop leaves, pixel by pixel, to
a painted picture. `paint_crop_px` is the law of save-under: a clipped part of
one picture, painted back over any picture of the same size, shows the first
under the rectangle and the second elsewhere.
-/

namespace Raster

open Slices

/-! ## Pixels of a byte buffer -/

/-- One RGBA pixel. -/
structure Rgba where
  r : UInt8
  g : UInt8
  b : UInt8
  a : UInt8
  deriving DecidableEq, Repr

/-- Pixel number `i` of a buffer of four bytes a pixel. -/
def pixel (buf : List UInt8) (i : Nat) : Rgba :=
  ⟨buf.getD (i * 4) 0, buf.getD (i * 4 + 1) 0, buf.getD (i * 4 + 2) 0,
    buf.getD (i * 4 + 3) 0⟩

theorem pixel_congr {buf buf' : List UInt8} {i j : Nat}
    (h : ∀ c < 4, buf[i * 4 + c]? = buf'[j * 4 + c]?) :
    pixel buf i = pixel buf' j := by
  have h0 := h 0 (by omega)
  have h1 := h 1 (by omega)
  have h2 := h 2 (by omega)
  have h3 := h 3 (by omega)
  simp only [Nat.add_zero] at h0
  simp only [pixel, List.getD_eq_getElem?_getD, h0, h1, h2, h3]

/-- Overwriting a run of `n` pixels. -/
theorem pixel_splice_slice {dst src : List UInt8} {d s n : Nat}
    (hd : d * 4 + n * 4 ≤ dst.length) (hs : s * 4 + n * 4 ≤ src.length)
    (i : Nat) :
    pixel (splice dst (d * 4) ((src.drop (s * 4)).take (n * 4))) i =
      if d ≤ i ∧ i < d + n then pixel src (s + (i - d)) else pixel dst i := by
  split
  · rename_i h
    refine pixel_congr fun c hc => ?_
    rw [getElem?_splice_slice hd hs, if_pos (by omega)]
    congr 1
    omega
  · rename_i h
    refine pixel_congr fun c hc => ?_
    rw [getElem?_splice_slice hd hs, if_neg (by omega)]

/-- Two buffers with the same pixels, when whole pixels fill both. -/
theorem eq_of_pixel {buf buf' : List UInt8} {n : Nat}
    (h : buf.length = n * 4) (h' : buf'.length = n * 4)
    (hpix : ∀ i < n, pixel buf i = pixel buf' i) : buf = buf' := by
  refine List.ext_getElem (h.trans h'.symm) fun k hk hk' => ?_
  have hp := hpix (k / 4) (by omega)
  simp only [pixel, Rgba.mk.injEq, List.getD_eq_getElem?_getD] at hp
  obtain ⟨h0, h1, h2, h3⟩ := hp
  have hget : buf[k]?.getD 0 = buf'[k]?.getD 0 := by
    have hk4 : k % 4 = 0 ∨ k % 4 = 1 ∨ k % 4 = 2 ∨ k % 4 = 3 := by omega
    rcases hk4 with hm | hm | hm | hm
    · rwa [show k / 4 * 4 = k by omega] at h0
    · rwa [show k / 4 * 4 + 1 = k by omega] at h1
    · rwa [show k / 4 * 4 + 2 = k by omega] at h2
    · rwa [show k / 4 * 4 + 3 = k by omega] at h3
  simpa [List.getElem?_eq_getElem hk, List.getElem?_eq_getElem hk'] using hget

/-- The bytes of a pixel. -/
def Rgba.bytes (p : Rgba) : List UInt8 := [p.r, p.g, p.b, p.a]

/-- The buffer with the pixels `f x y`, row by row. -/
def render (w h : Nat) (f : Nat → Nat → Rgba) : List UInt8 :=
  ((List.range (w * h)).map fun i => f (i % w) (i / w)).flatMap Rgba.bytes

theorem length_flatMap_bytes (ps : List Rgba) :
    (ps.flatMap Rgba.bytes).length = ps.length * 4 := by
  induction ps with
  | nil => rfl
  | cons p ps ih =>
      rw [List.flatMap_cons, List.length_append, ih, List.length_cons, Nat.add_mul,
        Nat.add_comm]
      rfl

theorem pixel_flatMap_bytes {ps : List Rgba} {i : Nat} {p : Rgba}
    (h : ps[i]? = some p) : pixel (ps.flatMap Rgba.bytes) i = p := by
  induction ps generalizing i with
  | nil => cases h
  | cons q ps ih =>
      cases i with
      | zero =>
          cases h
          rfl
      | succ i =>
          rw [List.getElem?_cons_succ] at h
          rw [← ih h]
          refine pixel_congr fun c _ => ?_
          have hidx : (i + 1) * 4 + c = i * 4 + c + 1 + 1 + 1 + 1 := by omega
          rw [hidx]
          rfl

theorem length_render (w h : Nat) (f : Nat → Nat → Rgba) :
    (render w h f).length = w * h * 4 := by
  rw [render, length_flatMap_bytes, List.length_map, List.length_range]

theorem pixel_render {w h i : Nat} (f : Nat → Nat → Rgba) (hi : i < w * h) :
    pixel (render w h f) i = f (i % w) (i / w) := by
  refine pixel_flatMap_bytes ?_
  rw [List.getElem?_map, List.getElem?_range hi]
  rfl

/-- A buffer is known by its pixels. -/
theorem eq_render {buf : List UInt8} {w h : Nat} {f : Nat → Nat → Rgba}
    (hlen : buf.length = w * h * 4)
    (hpix : ∀ x y, x < w → y < h → pixel buf (y * w + x) = f x y) :
    buf = render w h f := by
  refine eq_of_pixel hlen (length_render w h f) fun i hi => ?_
  have hw : 0 < w := Nat.pos_of_ne_zero fun h0 => by simp [h0] at hi
  have hx : i % w < w := Nat.mod_lt _ hw
  have hy : i / w < h := Nat.div_lt_of_lt_mul hi
  rw [pixel_render f hi, ← hpix _ _ hx hy, Nat.mul_comm, Nat.div_add_mod]

/-! ## Row-major windows -/

/-- The run of `w` pixels starting at column `d` of row `r` meets pixel
`(x, y)` exactly when `y` is that row and `x` is in the run. -/
theorem rowMajor_window {W w d r x y : Nat} (hx : x < W) (hw : d + w ≤ W) :
    (r * W + d ≤ y * W + x ∧ y * W + x < r * W + d + w) ↔
      (y = r ∧ d ≤ x ∧ x < d + w) := by
  rcases Nat.lt_trichotomy y r with h | rfl | h
  · have : y * W + W ≤ r * W := by
      rw [← Nat.succ_mul]; exact Nat.mul_le_mul_right W h
    omega
  · omega
  · have : r * W + W ≤ y * W := by
      rw [← Nat.succ_mul]; exact Nat.mul_le_mul_right W h
    omega

/-- The end of a run inside row `r` of a raster of `H` rows. -/
theorem rowMajor_run_le {W H w d r : Nat} (hr : r < H) (hw : d + w ≤ W) :
    r * W + d + w ≤ W * H := by
  have : r * W + W ≤ W * H := by
    rw [← Nat.succ_mul, Nat.mul_comm W H]; exact Nat.mul_le_mul_right W hr
  omega

theorem rowMajor_lt {W H x y : Nat} (hx : x < W) (hy : y < H) :
    y * W + x < W * H := rowMajor_run_le (w := 1) hy hx

/-! ## Loops that write pixel by pixel -/

section

variable {W l r t b : Nat} {s : List UInt8}
  {k : Nat → List UInt8 → Checked (List UInt8)}

/-- A loop along row `y` whose body writes the pixel it is at. -/
theorem returns_paintRun {y : Nat} {f : Nat → Rgba} (hle : l ≤ r) (hx1 : r ≤ W)
    (hbody : ∀ x out, l ≤ x → x < r → out.length = s.length →
      Returns (k x out) fun out' => out'.length = out.length ∧
        ∀ i, pixel out' i = if i = y * W + x then f x else pixel out i) :
    Returns (forRange l r k s) fun out => out.length = s.length ∧
      ∀ x' y', x' < W → pixel out (y' * W + x') =
        if y' = y ∧ l ≤ x' ∧ x' < r then f x' else pixel s (y' * W + x') := by
  refine returns_forRange (fun n (out : List UInt8) => out.length = s.length ∧
      ∀ x' y', x' < W → pixel out (y' * W + x') =
        if y' = y ∧ l ≤ x' ∧ x' < n then f x' else pixel s (y' * W + x'))
    hle ⟨rfl, fun x' y' _ => by rw [if_neg (by omega)]⟩ ?_
  rintro x out hx0 hx ⟨hlen, hpix⟩
  refine (hbody x out hx0 hx hlen).imp ?_
  rintro out' ⟨hlen', hpix'⟩
  refine ⟨hlen'.trans hlen, fun x' y' hx' => ?_⟩
  rw [hpix', hpix x' y' hx']
  have hwin := rowMajor_window (w := 1) (d := x) (r := y) (y := y') hx' (by omega)
  by_cases hhit : y' = y ∧ x' = x
  · obtain ⟨rfl, rfl⟩ := hhit
    rw [if_pos rfl, if_pos (by omega)]
  · rw [if_neg (fun h => hhit (by have := hwin.mp (by omega); omega))]
    exact if_congr (by omega) rfl rfl

/-- A loop over rows, each written from `l` to `r`. -/
theorem returns_paintBlock {f : Nat → Nat → Rgba} (hle : t ≤ b)
    (hbody : ∀ y out, t ≤ y → y < b → out.length = s.length →
      Returns (k y out) fun out' => out'.length = out.length ∧
        ∀ x' y', x' < W → pixel out' (y' * W + x') =
          if y' = y ∧ l ≤ x' ∧ x' < r then f x' y
          else pixel out (y' * W + x')) :
    Returns (forRange t b k s) fun out => out.length = s.length ∧
      ∀ x y, x < W → pixel out (y * W + x) =
        if (l ≤ x ∧ x < r) ∧ (t ≤ y ∧ y < b) then f x y
        else pixel s (y * W + x) := by
  refine returns_forRange (fun n (out : List UInt8) => out.length = s.length ∧
      ∀ x y, x < W → pixel out (y * W + x) =
        if (l ≤ x ∧ x < r) ∧ (t ≤ y ∧ y < n) then f x y
        else pixel s (y * W + x))
    hle ⟨rfl, fun x y _ => by rw [if_neg (by omega)]⟩ ?_
  rintro y out hy0 hy ⟨hlen, hpix⟩
  refine (hbody y out hy0 hy hlen).imp ?_
  rintro out' ⟨hlen', hpix'⟩
  refine ⟨hlen'.trans hlen, fun x' y' hx' => ?_⟩
  rw [hpix' x' y' hx', hpix x' y' hx']
  by_cases hhit : y' = y ∧ l ≤ x' ∧ x' < r
  · obtain ⟨rfl, hx₀, hx₁⟩ := hhit
    rw [if_pos ⟨rfl, hx₀, hx₁⟩, if_pos (by omega)]
  · rw [if_neg hhit]
    exact if_congr (by omega) rfl rfl

end

/-! ## The blit loop -/

/-- `for row in 0..h { dst[dOff(row)..][..n].copy_from_slice(&src[sOff(row)..][..n]) }`. -/
def copyRows (h n : Nat) (dOff sOff : Nat → Nat) (src dst : List UInt8) :
    Checked (List UInt8) :=
  forRange 0 h (fun row buf => do
    let line ← slice src (sOff row) (sOff row + n)
    copyFromSlice buf (dOff row) (dOff row + n) line) dst

/-- What a blit loop does: with room for the `w × h` block in both
rasters, pixel `(x, y)` of the result is the source pixel it was copied
from inside the block and the old pixel outside. -/
theorem returns_copyRows {W S w h : Nat} (dx dy sx sy : Nat)
    {dOff sOff : Nat → Nat} {src dst : List UInt8}
    (hd : ∀ row, dOff row = ((dy + row) * W + dx) * 4)
    (hs : ∀ row, sOff row = ((sy + row) * S + sx) * 4)
    (hw : dx + w ≤ W)
    (hdst : ∀ row < h, ((dy + row) * W + dx + w) * 4 ≤ dst.length)
    (hsrc : ∀ row < h, ((sy + row) * S + sx + w) * 4 ≤ src.length) :
    Returns (copyRows h (w * 4) dOff sOff src dst) (fun out =>
      out.length = dst.length ∧ ∀ x y, x < W →
        pixel out (y * W + x) =
          if (dx ≤ x ∧ x < dx + w) ∧ (dy ≤ y ∧ y < dy + h) then
            pixel src ((sy + (y - dy)) * S + sx + (x - dx))
          else pixel dst (y * W + x)) := by
  refine returns_forRange (fun k out => out.length = dst.length ∧
      ∀ x y, x < W → pixel out (y * W + x) =
        if (dx ≤ x ∧ x < dx + w) ∧ (dy ≤ y ∧ y < dy + k) then
          pixel src ((sy + (y - dy)) * S + sx + (x - dx))
        else pixel dst (y * W + x))
    (Nat.zero_le h) ⟨rfl, fun x y _ => by rw [if_neg (by omega)]⟩ ?_
  rintro row out - hrow ⟨hlen, hpix⟩
  have hd' := hdst row hrow
  have hs' := hsrc row hrow
  rw [Nat.add_mul] at hd' hs'
  rw [← hlen] at hd'
  rw [hd, hs, copy_slice hd' hs']
  refine Returns.ok ⟨(length_splice_slice hd').trans hlen, fun x y hx => ?_⟩
  rw [pixel_splice_slice hd' hs', hpix x y hx]
  have hwin := rowMajor_window (r := dy + row) (y := y) hx hw
  by_cases hhit : y = dy + row ∧ dx ≤ x ∧ x < dx + w
  · obtain ⟨rfl, hx₁, hx₂⟩ := hhit
    rw [if_pos (hwin.mpr ⟨rfl, hx₁, hx₂⟩), if_pos (by omega)]
    congr 1
    rw [Nat.add_sub_cancel_left]
    omega
  · rw [if_neg (fun h => hhit (hwin.mp h))]
    by_cases hold : (dx ≤ x ∧ x < dx + w) ∧ (dy ≤ y ∧ y < dy + row)
    · rw [if_pos hold, if_pos (by omega)]
    · rw [if_neg hold, if_neg (by omega)]

/-! ## Pictures and layers -/

/-- A picture: a value on each point of a rectangle, and on no other. -/
@[ext] structure Picture (α : Type) where
  width : Nat
  height : Nat
  px : Nat → Nat → Option α
  isSome_px : ∀ x y, (px x y).isSome ↔ x < width ∧ y < height

/-- A partial drawing on the whole quadrant. -/
abbrev Layer (α : Type) := Nat → Nat → Option α

variable {α : Type}

namespace Layer

/-- One colour on the half-open rectangle `[l, r) × [t, b)`. -/
def rect (l t r b : Nat) (v : α) : Layer α := fun x y =>
  if (l ≤ x ∧ x < r) ∧ (t ≤ y ∧ y < b) then some v else none

/-- A layer moved right and down. -/
def shift (L : Layer α) (dx dy : Nat) : Layer α := fun x y =>
  if dx ≤ x ∧ dy ≤ y then L (x - dx) (y - dy) else none

end Layer

namespace Picture

theorem px_eq_none {p : Picture α} {x y : Nat}
    (h : ¬ (x < p.width ∧ y < p.height)) : p.px x y = none := by
  rw [← Option.not_isSome_iff_eq_none, p.isSome_px]
  exact h

/-- Draw a layer over a picture, clipped to it. -/
def paint (p : Picture α) (L : Layer α) : Picture α where
  width := p.width
  height := p.height
  px x y := (p.px x y).map fun old => (L x y).getD old
  isSome_px x y := by rw [Option.isSome_map, p.isSome_px]

/-- The part of a picture under `[l, r) × [t, b)`, clipped to it. -/
def crop (p : Picture α) (l t r b : Nat) : Picture α where
  width := min r p.width - l
  height := min b p.height - t
  px x y := if x < min r p.width - l ∧ y < min b p.height - t then
      p.px (l + x) (t + y) else none
  isSome_px x y := by
    split
    · rw [p.isSome_px]; omega
    · simp only [Option.isSome_none, Bool.false_eq_true, false_iff]
      assumption

theorem paint_px (p : Picture α) (L : Layer α) (x y : Nat) :
    (p.paint L).px x y = (p.px x y).map fun old => (L x y).getD old := rfl

/-- Where the layer is blank, the picture shows through. -/
theorem paint_px_of_none {p : Picture α} {L : Layer α} {x y : Nat}
    (h : L x y = none) : (p.paint L).px x y = p.px x y := by
  rw [paint_px, h]
  cases p.px x y <;> rfl

/-- The save-under law: a clipped part of `p`, painted back over any
picture `q` of the same size, shows `p` under the rectangle and `q`
elsewhere. -/
theorem paint_crop_px {p q : Picture α} {l t r b : Nat}
    (hw : q.width = p.width) (hh : q.height = p.height) (x y : Nat) :
    (q.paint (Layer.shift (p.crop l t r b).px l t)).px x y =
      if (l ≤ x ∧ x < r) ∧ (t ≤ y ∧ y < b) then p.px x y else q.px x y := by
  by_cases hin : x < p.width ∧ y < p.height
  · have hsome : (p.px x y).isSome := (p.isSome_px x y).mpr hin
    have hqsome : (q.px x y).isSome :=
      (q.isSome_px x y).mpr (by rw [hw, hh]; exact hin)
    obtain ⟨v, hv⟩ := Option.isSome_iff_exists.mp hsome
    obtain ⟨v', hv'⟩ := Option.isSome_iff_exists.mp hqsome
    simp only [paint_px, Layer.shift, crop, hv']
    by_cases hrect : (l ≤ x ∧ x < r) ∧ (t ≤ y ∧ y < b)
    · rw [if_pos hrect, if_pos (by omega), if_pos (by omega),
        show l + (x - l) = x by omega, show t + (y - t) = y by omega, hv]
      rfl
    · rw [if_neg hrect]
      by_cases hsh : l ≤ x ∧ t ≤ y
      · rw [if_pos hsh, if_neg (by omega)]
        rfl
      · rw [if_neg hsh]
        rfl
  · have hp : p.px x y = none := px_eq_none hin
    have hq : q.px x y = none := px_eq_none (by rw [hw, hh]; exact hin)
    rw [paint_px, hq, hp, ite_self]
    rfl

end Picture

/-! ## Buffers as pictures -/

/-- The picture a buffer of `w × h` pixels shows. -/
def ofBuffer (buf : List UInt8) (w h : Nat) : Picture Rgba where
  width := w
  height := h
  px x y := if x < w ∧ y < h then some (pixel buf (y * w + x)) else none
  isSome_px x y := by
    split
    · simpa using ‹x < w ∧ y < h›
    · simpa using ‹¬ (x < w ∧ y < h)›

/-- A buffer shows a painted picture when each of its pixels is the
layer's, or the old one where the layer is blank. -/
theorem ofBuffer_eq_paint {buf buf' : List UInt8} {w h : Nat} {L : Layer Rgba}
    (hpix : ∀ x y, x < w → y < h → pixel buf' (y * w + x) =
      (L x y).getD (pixel buf (y * w + x))) :
    ofBuffer buf' w h = (ofBuffer buf w h).paint L := by
  refine Picture.ext rfl rfl ?_
  funext x y
  simp only [ofBuffer, Picture.paint]
  split
  · rename_i hin
    rw [hpix x y hin.1 hin.2]
    rfl
  · rfl

end Raster
