import Mathlib.Data.List.GetD
import WasmRdp.Lib.Raster
import WasmRdp.RailWindow

/-!
# Icons

What `decode_icon` computes, as a picture: an icon is `Drawable` or not, and
`iconPixel` says which stored bytes make up each pixel. The decoder never
aborts, and returns the picture exactly when the icon is drawable
(`decodeIcon_eq`).

The loops are the same for both depths but for how an alpha byte is found, so
`decodePixels` takes that as an argument, and `decodePixels_eq` describes them
for any such argument that does not abort. What is left for a depth is which
alpha comes out (`decodePixels_24`, `decodePixels_32`): that of the mask, or
the pixel's own byte if any alpha byte of the data is not zero.

That every access lies within the colour data is one inequality, `lt_color`:
a byte of a pixel lies within the stride of its row, and the data holds all
the rows. The mask is different. It may be too short for its bits, and the
source asks before each access.
-/

namespace WasmRdp

open Slices Raster

/-- Bytes a row of stored pixels takes. -/
def colorStride (bpp : UInt8) (w : Nat) : Nat :=
  if bpp = 32 then w * 4 else (w * 3 + 3) / 4 * 4

def bytesPerPixel (bpp : UInt8) : Nat := if bpp = 32 then 4 else 3

/-- A depth, a size and colour data that the decoder takes. -/
def Drawable (bpp : UInt8) (width height : UInt16) (color : List UInt8) : Prop :=
  (bpp = 32 ∨ bpp = 24) ∧
  (1 ≤ width.toNat ∧ width.toNat ≤ 256) ∧ (1 ≤ height.toNat ∧ height.toNat ≤ 256) ∧
  colorStride bpp width.toNat * height.toNat ≤ color.length

instance (bpp : UInt8) (width height : UInt16) (color : List UInt8) :
    Decidable (Drawable bpp width height color) := by
  unfold Drawable
  infer_instance

/-- The alpha byte of pixel `x` of stored row `src`. -/
def iconAlpha (bpp : UInt8) (w h : Nat) (color mask : List UInt8) (x src : Nat) :
    UInt8 :=
  if bpp = 32 ∧ (alphas color).any (· != 0) = true then
    color.getD (src * (w * 4) + x * 4 + 3) 0
  else if decide ((w + 31) / 32 * 4 * h ≤ mask.length) &&
      maskBit mask ((w + 31) / 32 * 4) x src then 0
  else 255

/-- Pixel `(x, y)` of an icon, stored bottom-up as `BGR`. -/
def iconPixel (bpp : UInt8) (w h : Nat) (color mask : List UInt8) (x y : Nat) :
    Rgba :=
  let src := h - 1 - y
  let s := src * colorStride bpp w + x * bytesPerPixel bpp
  ⟨color.getD (s + 2) 0, color.getD (s + 1) 0, color.getD s 0,
    iconAlpha bpp w h color mask x src⟩

/-- The picture of an icon. -/
def iconRgba (bpp : UInt8) (width height : UInt16) (color mask : List UInt8) :
    List UInt8 :=
  render width.toNat height.toNat
    (iconPixel bpp width.toNat height.toNat color mask)

/-! ## The decoder -/

/-- `storePixel` writes the pixel and no other. -/
theorem returns_storePixel {color out : List UInt8} {s i : Nat} {a : UInt8}
    (hs : s + 2 < color.length) (hi : i * 4 + 4 ≤ out.length) :
    Returns (storePixel color out s (i * 4) a) fun out' =>
      out'.length = out.length ∧ ∀ j, pixel out' j =
        if j = i then ⟨color.getD (s + 2) 0, color.getD (s + 1) 0,
          color.getD s 0, a⟩ else pixel out j := by
  refine ⟨(((out.set (i * 4) (color.getD (s + 2) 0)).set (i * 4 + 1)
    (color.getD (s + 1) 0)).set (i * 4 + 2) (color.getD s 0)).set (i * 4 + 3) a,
    ?_, ?_, fun j => ?_⟩
  · simp only [storePixel, index_eq_getD 0 hs,
      index_eq_getD 0 (show s + 1 < color.length by omega),
      index_eq_getD 0 (show s < color.length by omega), bind, Except.bind]
    rw [store_eq_ok (by omega)]
    dsimp only
    rw [store_eq_ok (by rw [List.length_set]; omega)]
    dsimp only
    rw [store_eq_ok (by rw [List.length_set, List.length_set]; omega)]
    exact store_eq_ok (by rw [List.length_set, List.length_set, List.length_set]; omega)
  · simp only [List.length_set]
  · split
    · rename_i h
      subst h
      simp only [pixel, List.getD_eq_getElem?_getD, List.getElem?_set,
        List.length_set]
      simp [show j * 4 < out.length by omega, show j * 4 + 1 < out.length by omega,
        show j * 4 + 2 < out.length by omega, show j * 4 + 3 < out.length by omega]
    · rename_i h
      refine pixel_congr fun c hc => ?_
      simp only [List.getElem?_set]
      rw [if_neg (by omega), if_neg (by omega), if_neg (by omega), if_neg (by omega)]

/-- The loops of the decoder, for an `alpha` that never aborts. -/
theorem decodePixels_eq {w h bytesPerPixel stride : Nat}
    {alpha : Nat → Nat → Nat → Checked UInt8} (alphaOf : Nat → Nat → UInt8)
    {color : List UInt8}
    (halpha : ∀ x src, x < w → src < h →
      alpha (src * stride + x * bytesPerPixel) x src = .ok (alphaOf x src))
    (hcolor : ∀ x src, x < w → src < h →
      src * stride + x * bytesPerPixel + 2 < color.length) :
    decodePixels w h bytesPerPixel stride alpha color =
      .ok (render w h fun x y =>
        let s := (h - 1 - y) * stride + x * bytesPerPixel
        ⟨color.getD (s + 2) 0, color.getD (s + 1) 0, color.getD s 0,
          alphaOf x (h - 1 - y)⟩) := by
  have hloop := returns_paintBlock (W := w) (l := 0) (r := w) (t := 0) (b := h)
    (s := List.replicate (w * h * 4) 0)
    (k := fun y out => do
      let src ← sub (← sub h 1) y
      forRange 0 w (fun x out => do
        let s := src * stride + x * bytesPerPixel
        let d := (y * w + x) * 4
        let a ← alpha s x src
        storePixel color out s d a) out)
    (f := fun x y =>
      let s := (h - 1 - y) * stride + x * bytesPerPixel
      ⟨color.getD (s + 2) 0, color.getD (s + 1) 0, color.getD s 0,
        alphaOf x (h - 1 - y)⟩)
    (Nat.zero_le h) fun y out _ hy hlen => by
      rw [sub_eq_ok (by omega)]
      change Returns (sub (h - 1) y >>= _) _
      rw [sub_eq_ok (by omega)]
      refine returns_paintRun (W := w) (y := y) (f := fun x => _) (Nat.zero_le w)
        (Nat.le_refl w) fun x out' _ hx hlen' => ?_
      have hfit := rowMajor_run_le (W := w) (H := h) (w := 1) (d := x) (r := y)
        hy (by omega)
      have hroom : (y * w + x) * 4 + 4 ≤ out'.length := by
        rw [hlen', hlen, List.length_replicate]
        omega
      dsimp only
      rw [halpha x _ hx (by omega)]
      exact returns_storePixel (hcolor x _ hx (by omega)) hroom
  obtain ⟨out, hout, hlen, hpix⟩ := hloop
  rw [List.length_replicate] at hlen
  refine hout.trans (congrArg _ (eq_render hlen fun x y hx hy => ?_))
  rw [hpix x y hx, if_pos (by omega)]

/-- A pixel of a row lies within the stride of its row. -/
theorem lt_color {color : List UInt8} {w h bytesPerPixel stride x src c : Nat}
    (hrow : w * bytesPerPixel ≤ stride) (hcolor : stride * h ≤ color.length)
    (hx : x < w) (hsrc : src < h) (hc : c < bytesPerPixel) :
    src * stride + x * bytesPerPixel + c < color.length := by
  have h1 : src * stride + stride ≤ stride * h := by
    rw [← Nat.succ_mul, Nat.mul_comm stride]
    exact Nat.mul_le_mul_right stride hsrc
  have h2 : x * bytesPerPixel + bytesPerPixel ≤ w * bytesPerPixel := by
    rw [← Nat.succ_mul]
    exact Nat.mul_le_mul_right bytesPerPixel hx
  omega

theorem pixels_le_colorStride (bpp : UInt8) (w : Nat) :
    w * bytesPerPixel bpp ≤ colorStride bpp w := by
  unfold bytesPerPixel colorStride
  split <;> omega

theorem two_lt_bytesPerPixel (bpp : UInt8) : 2 < bytesPerPixel bpp := by
  unfold bytesPerPixel
  split <;> omega

/-- With enough colour data the loops paint the icon, whichever way `alpha`
computes the alpha bytes. -/
theorem decodePixels_iconRgba {bpp : UInt8} {width height : UInt16}
    {color : List UInt8} (mask : List UInt8)
    {alpha : Nat → Nat → Nat → Checked UInt8}
    (hcolor : colorStride bpp width.toNat * height.toNat ≤ color.length)
    (halpha : ∀ x src, x < width.toNat → src < height.toNat →
      alpha (src * colorStride bpp width.toNat + x * bytesPerPixel bpp) x src =
        .ok (iconAlpha bpp width.toNat height.toNat color mask x src)) :
    decodePixels width.toNat height.toNat (bytesPerPixel bpp)
        (colorStride bpp width.toNat) alpha color =
      .ok (iconRgba bpp width height color mask) :=
  decodePixels_eq (iconAlpha bpp width.toNat height.toNat color mask) halpha
    fun _ _ hx hsrc => lt_color (pixels_le_colorStride bpp _) hcolor hx hsrc
      (two_lt_bytesPerPixel bpp)

/-- A 32-bit icon has its own alpha bytes, unless all are zero. -/
theorem decodePixels_32 {width height : UInt16} {color : List UInt8}
    (mask : List UInt8)
    (hcolor : colorStride 32 width.toNat * height.toNat ≤ color.length) :
    decodePixels width.toNat height.toNat 4 (width.toNat * 4) (fun s x src =>
        if (alphas color).any (· != 0) then index color (s + 3)
        else if decide ((width.toNat + 31) / 32 * 4 * height.toNat ≤ mask.length) &&
          maskBit mask ((width.toNat + 31) / 32 * 4) x src then return 0
        else return 255) color =
      .ok (iconRgba 32 width height color mask) := by
  refine decodePixels_iconRgba mask hcolor fun x src hx hsrc => ?_
  simp only [iconAlpha, true_and]
  split
  · exact index_eq_getD 0 (lt_color (pixels_le_colorStride 32 _) hcolor hx hsrc
      (by decide))
  · split <;> rfl

/-- A 24-bit icon has the alpha of its mask. -/
theorem decodePixels_24 {width height : UInt16} {color : List UInt8}
    (mask : List UInt8)
    (hcolor : colorStride 24 width.toNat * height.toNat ≤ color.length) :
    decodePixels width.toNat height.toNat 3 ((width.toNat * 3 + 3) / 4 * 4)
        (fun _ x src =>
          if decide ((width.toNat + 31) / 32 * 4 * height.toNat ≤ mask.length) &&
            maskBit mask ((width.toNat + 31) / 32 * 4) x src then return 0
          else return 255) color =
      .ok (iconRgba 24 width height color mask) := by
  refine decodePixels_iconRgba mask hcolor fun x src hx hsrc => ?_
  have h32 : ¬ ((24 : UInt8) = 32) := by decide
  simp only [iconAlpha, h32, false_and, if_false]
  split <;> rfl

/-- `decode_icon` never aborts, and decodes the drawable icons. -/
theorem decodeIcon_eq (bpp : UInt8) (width height : UInt16)
    (color mask : List UInt8) : decodeIcon bpp width height color mask =
      .ok (if Drawable bpp width height color then
        some (iconRgba bpp width height color mask) else none) := by
  unfold decodeIcon
  dsimp only
  split
  · rename_i hsize
    rw [if_neg fun h : Drawable bpp width height color => by
      obtain ⟨-, hw, hh, -⟩ := h
      omega]
    rfl
  rename_i hsize
  have hw : 1 ≤ width.toNat ∧ width.toNat ≤ 256 := by omega
  have hh : 1 ≤ height.toNat ∧ height.toNat ≤ 256 := by omega
  split
  · rename_i hbpp
    subst hbpp
    have hneed : width.toNat * height.toNat * 4 =
        colorStride 32 width.toNat * height.toNat := Nat.mul_right_comm ..
    rw [hneed]
    split
    · rename_i hshort
      rw [if_neg fun h : Drawable 32 width height color =>
        Nat.not_le.mpr hshort h.2.2.2]
      rfl
    · rename_i hcolor
      rw [if_pos ⟨.inl rfl, hw, hh, Nat.not_lt.mp hcolor⟩,
        decodePixels_32 mask (Nat.not_lt.mp hcolor)]
      rfl
  rename_i h32
  split
  · rename_i hbpp
    subst hbpp
    split
    · rename_i hshort
      rw [if_neg fun h : Drawable 24 width height color =>
        Nat.not_le.mpr hshort h.2.2.2]
      rfl
    · rename_i hcolor
      rw [if_pos ⟨.inr rfl, hw, hh, Nat.not_lt.mp hcolor⟩,
        decodePixels_24 mask (Nat.not_lt.mp hcolor)]
      rfl
  · rename_i h24
    rw [if_neg fun h : Drawable bpp width height color => h.1.elim h32 h24]
    rfl

end WasmRdp
