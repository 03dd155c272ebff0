import WasmRdp.Repaint

/-!
# Drawing beyond the framebuffer

`Canvas::draw` clips a region to the canvas, and not to the image: a row of
what is left is copied when it ends within the data, wherever that is. Past the
right edge of the image it shows pixels of the next row, and a row that is not
copied shows what the scratch buffer held. `draws_own_iff` says that this is
all that can go wrong.

`DrawsOwn` quantifies over all contents: of the image, of the scratch buffer
and of the canvas. Where every point of the region on the canvas is one of the
image (`PartWithin`) each row is copied (`row_copied`) and shows the image's
own pixels. Where some point is not, two contents are enough to tell: with a
black image and an empty scratch buffer every point of the part becomes black
(`draw_black`), the one outside the image included, on a canvas that was not.
-/

namespace WasmRdp

open Slices Raster

namespace Canvas

/-- The canvas has point `(x, y)` of the desktop. -/
def Shows (c : Canvas) (x y : Nat) : Prop :=
  InSource c.width c.height c.originX c.originY x y

/-- Every point of the region on the canvas is one of an image of this size. -/
def PartWithin (c : Canvas) (region : InclusiveRectangle) (width height : UInt16) : Prop :=
  ∀ x y, region.Covers x y → c.Shows x y → x < width.toNat ∧ y < height.toNat

/-- `draw` shows the image's pixels in the region, and changes no other. -/
def DrawsOwn (c : Canvas) (image : SessionImage) (region : InclusiveRectangle) : Prop :=
  Returns (c.draw image.toDecodedImage region) fun c' => ∀ i j, c'.pixels i j =
    let x := c.originX.toNat + i
    let y := c.originY.toNat + j
    if (i < c.width.toNat ∧ j < c.height.toNat) ∧ region.Covers x y ∧
        (x < image.width.toNat ∧ y < image.height.toNat) then
      c.imagePixel image i j
    else c.pixels i j

/-- A row of a part within the image is copied. -/
theorem row_copied {c : Canvas} {image : SessionImage} {region : InclusiveRectangle}
    {x y : Nat} (hwithin : c.PartWithin region image.width image.height)
    (hcovers : region.Covers x y) (hshows : c.Shows x y) :
    (y * image.width.toNat + c.clipRight region) * 4 ≤ image.data.length := by
  have hlast : c.clipRight region ≤ image.width.toNat := by
    have hpoint : region.Covers (c.clipRight region - 1) y ∧
        c.Shows (c.clipRight region - 1) y := by
      simp only [InclusiveRectangle.Covers, Shows, InSource, clipRight] at *
      omega
    have := (hwithin _ y hpoint.1 hpoint.2).1
    omega
  have hrow := rowMajor_run_le (d := 0) (hwithin x y hcovers hshows).2
    ((Nat.zero_add _).trans_le hlast)
  rw [image.length_data]
  exact Nat.mul_le_mul_right 4 hrow

theorem drawsOwn_of_within {c : Canvas} (hc : c.NonEmpty) {image : SessionImage}
    {region : InclusiveRectangle}
    (hwithin : c.PartWithin region image.width image.height) : c.DrawsOwn image region := by
  refine (c.draw_px hc image.toDecodedImage region).imp fun c' ⟨_, hpix⟩ i j => ?_
  rw [hpix i j]
  dsimp only
  by_cases hpart : (i < c.width.toNat ∧ j < c.height.toNat) ∧
      region.Covers (c.originX.toNat + i) (c.originY.toNat + j)
  · have hshows : c.Shows (c.originX.toNat + i) (c.originY.toNat + j) := by
      simp only [Shows, InSource]
      omega
    have hin := hwithin _ _ hpart.2 hshows
    rw [if_pos hpart, if_pos (row_copied hwithin hpart.2 hshows),
      if_pos ⟨hpart.1, hpart.2, hin⟩]
    rfl
  · rw [if_neg hpart, if_neg fun h => hpart ⟨h.1, h.2.1⟩]

theorem pixel_zeros (n i : Nat) : pixel (List.replicate n 0) i = ⟨0, 0, 0, 0⟩ := by
  have h (k : Nat) : (List.replicate n (0 : UInt8)).getD k 0 = 0 := by
    rw [List.getD_eq_getElem?_getD, List.getElem?_replicate]
    split <;> rfl
  simp only [pixel, h]

/-- With a black image and an empty scratch buffer every point of the part
becomes black, in the image or not. -/
theorem draw_black {c : Canvas} (hc : c.NonEmpty) (width height : UInt16)
    {region : InclusiveRectangle} (hbuf : c.rgbaBuf = []) :
    Returns (c.draw (SessionImage.new width height).toDecodedImage region) fun c' =>
      ∀ i j, (i < c.width.toNat ∧ j < c.height.toNat) →
        region.Covers (c.originX.toNat + i) (c.originY.toNat + j) →
        c'.pixels i j = ⟨0, 0, 0, 0⟩ := by
  refine (c.draw_px hc _ region).imp fun c' ⟨_, hpix⟩ i j hin hcovers => ?_
  rw [hpix i j]
  dsimp only
  rw [if_pos ⟨hin, hcovers⟩]
  split
  · exact pixel_zeros _ _
  · simp only [staleAt, hbuf, resizeVec, List.take_nil, List.nil_append]
    exact pixel_zeros _ _

/-- For every canvas, image size and region: whatever the image, the scratch
buffer and the canvas hold, drawing shows the image's own pixels and no others
exactly when the part of the region on the canvas lies in the image. -/
theorem draws_own_iff (c : Canvas) (hc : c.NonEmpty) (width height : UInt16)
    (region : InclusiveRectangle) :
    (∀ (image : SessionImage) (rgbaBuf : List UInt8) (pixels : Nat → Nat → Rgba),
      image.width = width → image.height = height →
        DrawsOwn { c with rgbaBuf, pixels } image region) ↔
      c.PartWithin region width height := by
  constructor
  · intro hall x y hcovers hshows
    by_contra hout
    -- a canvas that is not black anywhere
    obtain ⟨c', hdraw, hpix⟩ := hall (.new width height) [] (fun _ _ => ⟨1, 1, 1, 1⟩) rfl rfl
    have hblack := Returns.of_eq (draw_black
      (c := { c with rgbaBuf := [], pixels := fun _ _ => ⟨1, 1, 1, 1⟩ }) hc width height rfl) hdraw
    simp only [Shows, InSource] at hshows
    have hx : c.originX.toNat + (x - c.originX.toNat) = x := by omega
    have hy : c.originY.toNat + (y - c.originY.toNat) = y := by omega
    have hkept := hpix (x - c.originX.toNat) (y - c.originY.toNat)
    have hlost := hblack (x - c.originX.toNat) (y - c.originY.toNat)
      (by dsimp only; omega) (by dsimp only; rwa [hx, hy])
    dsimp only at hkept
    rw [hx, hy, if_neg fun h => hout h.2.2, hlost] at hkept
    exact absurd hkept (by decide)
  · rintro hwithin image rgbaBuf pixels rfl rfl
    exact drawsOwn_of_within (c := { c with rgbaBuf, pixels }) hc hwithin

theorem draws_own_iff_pixel :
    (∀ (image : SessionImage) (rgbaBuf : List UInt8) (pixels : Nat → Nat → Rgba),
      image.width = 1 → image.height = 1 →
        DrawsOwn { Canvas.fromElement 0 0 1 1 with rgbaBuf, pixels } image ⟨0, 0, 0, 0⟩) ↔
      (Canvas.fromElement 0 0 1 1).PartWithin ⟨0, 0, 0, 0⟩ 1 1 :=
  draws_own_iff (Canvas.fromElement 0 0 1 1) ⟨by decide, by decide⟩ 1 1 ⟨0, 0, 0, 0⟩

/-- An image one pixel wide and two high. -/
def narrow : SessionImage where
  width := 1
  height := 2
  data := [1, 1, 1, 1, 2, 2, 2, 2]
  length_data := rfl

/-- The first row of a canvas two pixels wide shows both rows of the image. -/
theorem draw_wraps_row :
    (∃ c', (Canvas.fromElement 0 0 2 1).draw narrow.toDecodedImage ⟨0, 0, 1, 0⟩ = .ok c' ∧
      c'.pixels 1 0 = narrow.pixelAt 0 1) ∧
    ¬ DrawsOwn (Canvas.fromElement 0 0 2 1) narrow ⟨0, 0, 1, 0⟩ := by
  refine ⟨⟨_, rfl, rfl⟩, fun ⟨c', hdraw, hpix⟩ => ?_⟩
  obtain rfl := Except.ok.inj hdraw
  exact absurd (hpix 1 0) (by decide)

end Canvas

end WasmRdp
