import WasmRdp.RailIcon

/-!
# The pixels of an icon, and its alpha

An icon is stored bottom-up, as `BGR` or `BGRA`, with an optional bit for each
pixel in the mask. The colours of every pixel are where the format has them
(`decodeIcon_pixels`). The alpha of a 32-bit icon is not always its own: the
decoder looks for alpha in all of the colour data, and the server may send
more of it than the icon has pixels (`alphaIsOwn_iff`).

The format is stated here independently of the decoder: `sourceByte` is byte
`c` of a stored pixel, and `Masked` counts the bits of the mask from the most
significant one, with rows in whole 32-bit words. `maskBit_eq` and
`maskedAlpha_eq` show that the decoder reads the same.

`any_alphas` is what the decoder asks: does any whole pixel of the data, be it
of the icon or behind it, have alpha. `alpha_somewhere` divides that into the
icon's own pixels and the padding. Padding with alpha does harm when no pixel
of the icon has any, since the alphas of the icon are then taken as they are,
all zero, and the icon vanishes (`padding_hides_icon`); unless the mask would
have hidden every pixel anyway. `OwnDecides` is that condition. In one
direction it makes the picture a function of the icon's own bytes
(`iconAlpha_rule`, `iconAlpha_take`); in the other a pixel that the mask shows
is shown by the truncated data and by the whole data is not.
-/

namespace WasmRdp

open Slices Raster

/-! ## The format -/

/-- Byte `c` of the stored pixel `(x, row)`. -/
def sourceByte (bpp : UInt8) (w : Nat) (color : List UInt8) (x row c : Nat) : UInt8 :=
  color.getD (row * colorStride bpp w + x * (bpp.toNat / 8) + c) 0

/-- Bytes from one row of the mask to the next: one bit a pixel, in whole
32-bit words. -/
def maskRowBytes (w : Nat) : Nat := (w + 31) / 32 * 4

/-- The mask has all rows, and its bit for `(x, row)` is set. Bits are counted
from the most significant one. -/
def Masked (w h : Nat) (mask : List UInt8) (x row : Nat) : Prop :=
  maskRowBytes w * h ≤ mask.length ∧
    (mask.getD (row * maskRowBytes w + x / 8) 0).toNat.testBit (7 - x % 8) = true

instance instDecidableMasked (w h : Nat) (mask : List UInt8) (x row : Nat) :
    Decidable (Masked w h mask x row) :=
  inferInstanceAs (Decidable (_ ∧ _))

/-- Some pixel of the icon has alpha. -/
def HasAlpha (w h : Nat) (color : List UInt8) : Prop :=
  ∃ x row, (x < w ∧ row < h) ∧ sourceByte 32 w color x row 3 ≠ 0

/-- Behind the `n` pixels of the icon there is a whole pixel with alpha. -/
def PaddingHasAlpha (n : Nat) (color : List UInt8) : Prop :=
  ∃ i, (n ≤ i ∧ i * 4 + 3 < color.length) ∧ color.getD (i * 4 + 3) 0 ≠ 0

/-! ## What the decoder looks at -/

theorem maskBit_eq (mask : List UInt8) (stride x row : Nat) :
    maskBit mask stride x row =
      (mask.getD (row * stride + x / 8) 0).toNat.testBit (7 - x % 8) := by
  unfold maskBit
  rw [List.getD_eq_getElem?_getD]
  rcases mask[row * stride + x / 8]? with _ | b
  · simp
  · simp only [Option.getD_some, Nat.testBit, Nat.and_comm 1, Nat.and_one_is_mod]
    rcases Nat.mod_two_eq_zero_or_one (b.toNat >>> (7 - x % 8)) with h | h <;>
      simp [h]

theorem maskedAlpha_eq (w h : Nat) (mask : List UInt8) (x row : Nat) :
    (decide ((w + 31) / 32 * 4 * h ≤ mask.length) &&
      maskBit mask ((w + 31) / 32 * 4) x row) = decide (Masked w h mask x row) := by
  rw [maskBit_eq, Bool.eq_iff_iff, Bool.and_eq_true, decide_eq_true_eq,
    decide_eq_true_eq]
  rfl

/-- `chunks_exact(4)` sees every whole pixel of the data. -/
theorem any_alphas (color : List UInt8) :
    (alphas color).any (· != 0) = true ↔ PaddingHasAlpha 0 color := by
  unfold PaddingHasAlpha
  induction color using alphas.induct with
  | case1 b g r a px ih =>
    simp only [alphas, List.any_cons, Bool.or_eq_true, bne_iff_ne, ne_eq, ih,
      List.length_cons]
    constructor
    · rintro (ha | ⟨i, ⟨-, hi⟩, h⟩)
      · exact ⟨0, by simp, by simpa using ha⟩
      · refine ⟨i + 1, by omega, ?_⟩
        rw [show (i + 1) * 4 + 3 = i * 4 + 3 + 4 by omega]
        simpa using h
    · rintro ⟨_ | i, ⟨-, hi⟩, h⟩
      · exact .inl (by simpa using h)
      · rw [show (i + 1) * 4 + 3 = i * 4 + 3 + 4 by omega] at h hi
        exact .inr ⟨i, by omega, by simpa using h⟩
  | case2 px hshort =>
    rw [alphas]
    · simp only [List.any_nil, Bool.false_eq_true, false_iff]
      rintro ⟨i, ⟨-, hi⟩, -⟩
      match px, hi with
      | b :: g :: r :: a :: px, _ => exact hshort b g r a px rfl
    · exact hshort

/-- The pixels of the data are those of the icon and those behind it. -/
theorem alpha_somewhere {w h : Nat} {color : List UInt8} (hw : 0 < w)
    (hcolor : w * h * 4 ≤ color.length) :
    PaddingHasAlpha 0 color ↔ HasAlpha w h color ∨ PaddingHasAlpha (w * h) color := by
  have hbyte (x row : Nat) : sourceByte 32 w color x row 3 =
      color.getD ((row * w + x) * 4 + 3) 0 := by
    simp only [sourceByte, colorStride, if_true]
    congr 1
    change row * (w * 4) + x * 4 + 3 = _
    rw [Nat.add_mul, Nat.mul_assoc]
  simp only [HasAlpha, PaddingHasAlpha, hbyte]
  constructor
  · rintro ⟨i, ⟨-, hi⟩, ha⟩
    rcases Nat.lt_or_ge i (w * h) with hlt | hge
    · refine .inl ⟨i % w, i / w, ⟨Nat.mod_lt _ hw, ?_⟩, ?_⟩
      · exact Nat.div_lt_of_lt_mul hlt
      · rwa [Nat.mul_comm (i / w), Nat.div_add_mod]
    · exact .inr ⟨i, ⟨hge, hi⟩, ha⟩
  · rintro (⟨x, row, ⟨hx, hrow⟩, ha⟩ | ⟨i, ⟨-, hi⟩, ha⟩)
    · have hlt := rowMajor_lt hx hrow
      rw [Nat.mul_comm] at hcolor
      exact ⟨row * w + x, ⟨Nat.zero_le _, by grind⟩, ha⟩
    · exact ⟨i, ⟨Nat.zero_le _, hi⟩, ha⟩

/-! ## The pixels -/

theorem bytesPerPixel_eq {bpp : UInt8} (hbpp : bpp = 24 ∨ bpp = 32) :
    bytesPerPixel bpp = bpp.toNat / 8 := by
  rcases hbpp with rfl | rfl <;> rfl

/-- An icon of a known depth and size is decoded as soon as its rows are all
there. -/
theorem drawable_iff {bpp : UInt8} {width height : UInt16} (color : List UInt8)
    (hbpp : bpp = 24 ∨ bpp = 32) (hw : 1 ≤ width.toNat ∧ width.toNat ≤ 256)
    (hh : 1 ≤ height.toNat ∧ height.toNat ≤ 256) :
    Drawable bpp width height color ↔
      colorStride bpp width.toNat * height.toNat ≤ color.length := by
  refine ⟨fun h => h.2.2.2, fun h => ⟨hbpp.symm, hw, hh, h⟩⟩

theorem pixel_iconRgba {bpp : UInt8} {width height : UInt16} {x y : Nat}
    (color mask : List UInt8) (hx : x < width.toNat) (hy : y < height.toNat) :
    pixel (iconRgba bpp width height color mask) (y * width.toNat + x) =
      iconPixel bpp width.toNat height.toNat color mask x y := by
  obtain ⟨hmod, hdiv⟩ : (y * width.toNat + x) % width.toNat = x ∧
      (y * width.toNat + x) / width.toNat = y := by
    constructor
    · exact Nat.mul_add_mod_of_lt hx
    · rw [Nat.mul_comm, Nat.mul_add_div (by omega), Nat.div_eq_of_lt hx, Nat.add_zero]
  rw [iconRgba, pixel_render _ (rowMajor_lt hx hy), hmod, hdiv]

/-- Every icon of 24 or 32 bits a pixel, up to 256 pixels wide and high, is
decoded exactly when the colour data has all of its rows. The colours of a
pixel are those stored for it, in the other order and from the other end, and
the mask says which pixels of a 24-bit icon are transparent. -/
theorem decodeIcon_pixels (bpp : UInt8) (width height : UInt16)
    (color mask : List UInt8) (hbpp : bpp = 24 ∨ bpp = 32)
    (hw : 1 ≤ width.toNat ∧ width.toNat ≤ 256)
    (hh : 1 ≤ height.toNat ∧ height.toNat ≤ 256) :
    ∃ icon, decodeIcon bpp width height color mask = .ok icon ∧
      (icon.isSome = true ↔
        colorStride bpp width.toNat * height.toNat ≤ color.length) ∧
      ∀ rgba, icon = some rgba →
        rgba.length = width.toNat * height.toNat * 4 ∧
        ∀ x y, x < width.toNat → y < height.toNat →
          let p := pixel rgba (y * width.toNat + x)
          let row := height.toNat - 1 - y
          p.r = sourceByte bpp width.toNat color x row 2 ∧
          p.g = sourceByte bpp width.toNat color x row 1 ∧
          p.b = sourceByte bpp width.toNat color x row 0 ∧
          (bpp = 24 →
            p.a = if Masked width.toNat height.toNat mask x row then 0 else 255) := by
  refine ⟨_, decodeIcon_eq .., ?_, ?_⟩
  · rw [← drawable_iff color hbpp hw hh]
    split <;> simp [*]
  · intro rgba hsome
    split at hsome
    · obtain rfl := Option.some.inj hsome
      refine ⟨length_render .., fun x y hx hy => ?_⟩
      simp only [pixel_iconRgba color mask hx hy, iconPixel, sourceByte,
        bytesPerPixel_eq hbpp, iconAlpha, maskedAlpha_eq,
        decide_eq_true_eq, Nat.add_zero, true_and]
      rintro rfl
      simp
    · cases hsome

theorem decodeIcon_pixels_odd :
    ∃ icon, decodeIcon 24 1 2 [1, 2, 3, 0, 4, 5, 6, 0] [128, 0, 0, 0, 0, 0, 0, 0] =
        .ok icon ∧
      (icon.isSome = true ↔ colorStride 24 1 * 2 ≤ 8) ∧
      ∀ rgba, icon = some rgba → rgba.length = 1 * 2 * 4 ∧
        ∀ x y, x < 1 → y < 2 →
          let p := pixel rgba (y * 1 + x)
          let row := 2 - 1 - y
          p.r = sourceByte 24 1 [1, 2, 3, 0, 4, 5, 6, 0] x row 2 ∧
          p.g = sourceByte 24 1 [1, 2, 3, 0, 4, 5, 6, 0] x row 1 ∧
          p.b = sourceByte 24 1 [1, 2, 3, 0, 4, 5, 6, 0] x row 0 ∧
          ((24 : UInt8) = 24 → p.a =
            if Masked 1 2 [128, 0, 0, 0, 0, 0, 0, 0] x row then 0 else 255) :=
  decodeIcon_pixels 24 1 2 [1, 2, 3, 0, 4, 5, 6, 0] [128, 0, 0, 0, 0, 0, 0, 0]
    (.inl rfl) ⟨by decide, by decide⟩ ⟨by decide, by decide⟩

/-! ## The alpha of a 32-bit icon -/

/-- The alpha of every pixel is its own byte, or the mask's bit in an icon
without alpha; what follows the pixels of the icon makes no difference, and no
icon without alpha vanishes unless the mask says so. -/
def AlphaIsOwn (width height : UInt16) (color mask : List UInt8) : Prop :=
  ∃ rgba, decodeIcon 32 width height color mask = .ok (some rgba) ∧
    (∀ x y, x < width.toNat → y < height.toNat →
      let a := (pixel rgba (y * width.toNat + x)).a
      let row := height.toNat - 1 - y
      (HasAlpha width.toNat height.toNat color →
        a = sourceByte 32 width.toNat color x row 3) ∧
      (¬ HasAlpha width.toNat height.toNat color →
        a = if Masked width.toNat height.toNat mask x row then 0 else 255)) ∧
    decodeIcon 32 width height (color.take (width.toNat * height.toNat * 4)) mask =
      .ok (some rgba) ∧
    (¬ HasAlpha width.toNat height.toNat color →
      (∀ x y, x < width.toNat → y < height.toNat →
        (pixel rgba (y * width.toNat + x)).a = 0) →
      ∀ x row, x < width.toNat → row < height.toNat →
        Masked width.toNat height.toNat mask x row)

theorem iconAlpha_of_any {w h : Nat} {color : List UInt8} (mask : List UInt8)
    (x row : Nat) (h0 : PaddingHasAlpha 0 color) :
    iconAlpha 32 w h color mask x row = sourceByte 32 w color x row 3 := by
  rw [iconAlpha, if_pos ⟨rfl, (any_alphas color).mpr h0⟩]
  rfl

theorem iconAlpha_of_none {w h : Nat} {color : List UInt8} (mask : List UInt8)
    (x row : Nat) (h0 : ¬ PaddingHasAlpha 0 color) :
    iconAlpha 32 w h color mask x row =
      if Masked w h mask x row then 0 else 255 := by
  simp only [iconAlpha, any_alphas, h0, and_false, if_false, maskedAlpha_eq,
    decide_eq_true_eq]

/-- The bytes of the icon's own pixels are within the first `w * h * 4`. -/
theorem sourceByte_take {w h x row c : Nat} (color : List UInt8) (hx : x < w)
    (hrow : row < h) (hc : c < 4) :
    sourceByte 32 w (color.take (w * h * 4)) x row c = sourceByte 32 w color x row c := by
  have hlt := rowMajor_lt hx hrow
  simp only [sourceByte, colorStride, if_true, List.getD_eq_getElem?_getD]
  rw [List.getElem?_take_of_lt]
  change row * (w * 4) + x * 4 + c < _
  have : row * (w * 4) + x * 4 = (row * w + x) * 4 := by rw [Nat.add_mul, Nat.mul_assoc]
  omega

theorem hasAlpha_take {w h : Nat} (color : List UInt8) :
    HasAlpha w h (color.take (w * h * 4)) ↔ HasAlpha w h color := by
  unfold HasAlpha
  constructor
  · rintro ⟨x, row, hin, ha⟩
    exact ⟨x, row, hin, by rwa [sourceByte_take color hin.1 hin.2 (by omega)] at ha⟩
  · rintro ⟨x, row, hin, ha⟩
    exact ⟨x, row, hin, by rwa [sourceByte_take color hin.1 hin.2 (by omega)]⟩

/-- The truncated data has no padding. -/
theorem not_paddingHasAlpha_take {n : Nat} (color : List UInt8) :
    ¬ PaddingHasAlpha n (color.take (n * 4)) := by
  rintro ⟨i, ⟨hn, hi⟩, -⟩
  rw [List.length_take] at hi
  omega

/-- Two icons with the same pixels look the same when alpha is found in both,
or in neither. -/
theorem iconRgba_take {width height : UInt16} {color : List UInt8} (mask : List UInt8)
    (h : ∀ x y, x < width.toNat → y < height.toNat →
      iconAlpha 32 width.toNat height.toNat
          (color.take (width.toNat * height.toNat * 4)) mask x (height.toNat - 1 - y) =
        iconAlpha 32 width.toNat height.toNat color mask x (height.toNat - 1 - y)) :
    iconRgba 32 width height (color.take (width.toNat * height.toNat * 4)) mask =
      iconRgba 32 width height color mask := by
  refine eq_render (length_render ..) fun x y hx hy => ?_
  have hbyte := fun c (hc : c < 4) => sourceByte_take (c := c) color hx
    (show height.toNat - 1 - y < height.toNat by omega) hc
  rw [pixel_iconRgba _ mask hx hy]
  simp only [iconPixel, h x y hx hy]
  congr 1
  · exact hbyte 2 (by omega)
  · exact hbyte 1 (by omega)
  · exact hbyte 0 (by omega)

/-- Whichever alpha there is, it is the icon's own, or makes no difference. -/
def OwnDecides (w h : Nat) (color mask : List UInt8) : Prop :=
  HasAlpha w h color ∨ ¬ PaddingHasAlpha (w * h) color ∨
    ∀ x row, x < w → row < h → Masked w h mask x row

theorem sourceByte_of_not_hasAlpha {w h x row : Nat} {color : List UInt8}
    (hno : ¬ HasAlpha w h color) (hx : x < w) (hrow : row < h) :
    sourceByte 32 w color x row 3 = 0 := by
  by_contra ha
  exact hno ⟨x, row, ⟨hx, hrow⟩, ha⟩

/-- The alpha that the decoder stores for an icon whose own pixels decide. -/
theorem iconAlpha_rule {w h x row : Nat} {color mask : List UInt8}
    (hcolor : w * h * 4 ≤ color.length) (hx : x < w) (hrow : row < h)
    (hown : OwnDecides w h color mask) :
    (HasAlpha w h color → iconAlpha 32 w h color mask x row =
      sourceByte 32 w color x row 3) ∧
    (¬ HasAlpha w h color → iconAlpha 32 w h color mask x row =
      if Masked w h mask x row then 0 else 255) := by
  have hall := alpha_somewhere (by omega) hcolor
  refine ⟨fun hhas => iconAlpha_of_any mask x row (hall.mpr (.inl hhas)), fun hno => ?_⟩
  by_cases hpad : PaddingHasAlpha (w * h) color
  · have hmask : Masked w h mask x row := by
      rcases hown with h1 | h2 | h3
      · exact absurd h1 hno
      · exact absurd hpad h2
      · exact h3 x row hx hrow
    rw [iconAlpha_of_any mask x row (hall.mpr (.inr hpad)), if_pos hmask,
      sourceByte_of_not_hasAlpha hno hx hrow]
  · exact iconAlpha_of_none mask x row fun h0 => (hall.mp h0).elim hno hpad

/-- What follows the pixels of such an icon makes no difference. -/
theorem iconAlpha_take {w h x row : Nat} {color mask : List UInt8}
    (hcolor : w * h * 4 ≤ color.length) (hx : x < w) (hrow : row < h)
    (hown : OwnDecides w h color mask) :
    iconAlpha 32 w h (color.take (w * h * 4)) mask x row =
      iconAlpha 32 w h color mask x row := by
  have hlen : w * h * 4 ≤ (color.take (w * h * 4)).length := by
    rw [List.length_take]
    omega
  have hrule := iconAlpha_rule hcolor hx hrow hown
  have hcut := iconAlpha_rule hlen hx hrow (show OwnDecides w h _ mask from
    .inr (.inl (not_paddingHasAlpha_take color)))
  rw [hasAlpha_take, sourceByte_take color hx hrow (by omega)] at hcut
  by_cases hhas : HasAlpha w h color
  · rw [hrule.1 hhas, hcut.1 hhas]
  · rw [hrule.2 hhas, hcut.2 hhas]

/-- For every 32-bit icon: its alpha is decided by its own pixels exactly when
one of them has alpha, or no whole pixel that follows them has, or the mask
hides every pixel anyway. -/
theorem alphaIsOwn_iff (width height : UInt16) (color mask : List UInt8)
    (hw : 1 ≤ width.toNat ∧ width.toNat ≤ 256)
    (hh : 1 ≤ height.toNat ∧ height.toNat ≤ 256)
    (hcolor : width.toNat * height.toNat * 4 ≤ color.length) :
    AlphaIsOwn width height color mask ↔
      OwnDecides width.toNat height.toNat color mask := by
  have hrows : colorStride 32 width.toNat * height.toNat =
      width.toNat * height.toNat * 4 := by
    rw [colorStride, if_pos rfl, Nat.mul_right_comm]
  have hdecoded (c : List UInt8) (hc : width.toNat * height.toNat * 4 ≤ c.length) :
      decodeIcon 32 width height c mask = .ok (some (iconRgba 32 width height c mask)) := by
    rw [decodeIcon_eq, if_pos ((drawable_iff c (.inr rfl) hw hh).mpr (by omega))]
  constructor
  · rintro ⟨rgba, hrgba, hpix, -⟩
    rw [hdecoded color hcolor, Except.ok.injEq, Option.some.injEq] at hrgba
    subst hrgba
    by_contra hown
    obtain ⟨hno, hpad, hclear⟩ : ¬ HasAlpha width.toNat height.toNat color ∧
        PaddingHasAlpha (width.toNat * height.toNat) color ∧
        ¬ ∀ x row, x < width.toNat → row < height.toNat →
          Masked width.toNat height.toNat mask x row := by
      simpa only [OwnDecides, not_or, not_not] using hown
    refine hclear fun x row hx hrow => ?_
    have hany := (alpha_somewhere (by omega) hcolor).mpr (.inr hpad)
    have ha := (hpix x (height.toNat - 1 - row) hx (by omega)).2 hno
    rw [pixel_iconRgba color mask hx (by omega), iconPixel,
      show height.toNat - 1 - (height.toNat - 1 - row) = row by omega,
      iconAlpha_of_any mask x row hany,
      sourceByte_of_not_hasAlpha hno hx hrow] at ha
    by_contra hm
    rw [if_neg hm] at ha
    simp at ha
  · intro hown
    have hrule {x y : Nat} (hx : x < width.toNat) (hy : y < height.toNat) :=
      iconAlpha_rule hcolor hx (show height.toNat - 1 - y < height.toNat by omega) hown
    refine ⟨_, hdecoded color hcolor, fun x y hx hy => ?_, ?_, fun hno hzero x row hx hrow => ?_⟩
    · rw [pixel_iconRgba color mask hx hy]
      exact hrule hx hy
    · rw [hdecoded _ (by rw [List.length_take]; omega),
        iconRgba_take mask fun x y hx hy => iconAlpha_take hcolor hx (by omega) hown]
    · have ha := hzero x (height.toNat - 1 - row) hx (by omega)
      rw [pixel_iconRgba color mask hx (by omega)] at ha
      have hmask := (hrule (x := x) (y := height.toNat - 1 - row) hx (by omega)).2 hno
      rw [show height.toNat - 1 - (height.toNat - 1 - row) = row by omega] at hmask
      rw [iconPixel, show height.toNat - 1 - (height.toNat - 1 - row) = row by omega] at ha
      by_contra hm
      rw [if_neg hm] at hmask
      simpa using hmask.symm.trans ha

/-- Icons with a pixel of padding that has alpha: one with alpha of its own, one
that the mask hides, and one of which the mask hides the first pixel only. -/
theorem alphaIsOwn_iff_padded :
    AlphaIsOwn 2 2 [1, 2, 3, 0, 4, 5, 6, 7, 8, 9, 10, 0, 11, 12, 13, 0, 0, 0, 0, 9]
        [64, 0, 0, 0, 128, 0, 0, 0] ∧
      AlphaIsOwn 2 1 [1, 2, 3, 0, 4, 5, 6, 0, 0, 0, 0, 9] [192, 0, 0, 0] ∧
      ¬ AlphaIsOwn 2 1 [1, 2, 3, 0, 4, 5, 6, 0, 0, 0, 0, 9] [128, 0, 0, 0] := by
  have hpadded (mask : List UInt8) :=
    alphaIsOwn_iff 2 1 [1, 2, 3, 0, 4, 5, 6, 0, 0, 0, 0, 9] mask
      ⟨by decide, by decide⟩ ⟨by decide, by decide⟩ (by decide)
  refine ⟨?_, (hpadded _).mpr (.inr (.inr ?_)), fun h => ?_⟩
  · refine (alphaIsOwn_iff 2 2 _ _ ⟨by decide, by decide⟩ ⟨by decide, by decide⟩
      (by decide)).mpr (.inl ⟨1, 0, ⟨by decide, by decide⟩, by decide⟩)
  · intro x row hx hrow
    obtain rfl : row = 0 := Nat.lt_one_iff.mp hrow
    match x, hx with
    | 0, _ => decide
    | 1, _ => decide
  · obtain ⟨x, row, ⟨hx, hrow⟩, ha⟩ | hpad | hmask := (hpadded _).mp h
    · obtain rfl : row = 0 := Nat.lt_one_iff.mp hrow
      match x, hx with
      | 0, _ => exact ha rfl
      | 1, _ => exact ha rfl
    · exact hpad ⟨2, ⟨by decide, by decide⟩, by decide⟩
    · exact absurd (hmask 1 0 (by decide) (by decide)) (by decide)

/-- One pixel without alpha, sent with four more bytes of colour data: the
decoder takes the padding for the alpha of the icon and shows nothing. -/
theorem padding_hides_icon :
    decodeIcon 32 1 1 [1, 2, 3, 0, 0, 0, 0, 1] [] = .ok (some [3, 2, 1, 0]) ∧
      decodeIcon 32 1 1 [1, 2, 3, 0] [] = .ok (some [3, 2, 1, 255]) ∧
      ¬ AlphaIsOwn 1 1 [1, 2, 3, 0, 0, 0, 0, 1] [] := by
  refine ⟨rfl, rfl, ?_⟩
  rintro ⟨rgba, hrgba, -, hcut, -⟩
  have h1 : rgba = [3, 2, 1, 0] :=
    (Option.some.inj (Except.ok.inj hrgba)).symm
  have h2 : rgba = [3, 2, 1, 255] :=
    (Option.some.inj (Except.ok.inj hcut)).symm
  rw [h1] at h2
  exact absurd h2 (by decide)

end WasmRdp
