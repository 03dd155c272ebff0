import WasmRdp.Monitors
import WasmRdp.RailSurface

/-!
# Repainting the desktop

The part of `run_session` that has to do with the framebuffer, while EGFX is
not active. A monitor layout or a reactivation replaces the framebuffer by one
of another size. The region of a repaint is made of the size that the session
was started with, which never changes: what the framebuffer has outside it is
not drawn, and where a row of the region runs past the framebuffer's end the
canvas shows what its scratch buffer held (`draw_fullRegion`).

`always_repainted_iff` says for which runs every repaint shows the whole
framebuffer all the same.

`Copied` is the set of pixels that a repaint takes from the framebuffer: those
in the full region whose row of the part on the canvas ends within the data.
Every other pixel keeps what it had or shows the scratch buffer
(`leftover`). So a canvas shows the framebuffer after a full region exactly
when what was not copied was there before (`drawn_shows_iff`), which is a
condition on the state that the repaint finds (`Fits`).

The other events do not matter one by one; they change the framebuffer, its
size and the canvases, and the condition is read off whatever has come of
them. `wider` is a desktop that has grown by a pixel to the right, as it may
in a reactivation.
-/

namespace WasmRdp

open Slices Raster

/-- A framebuffer of any size. -/
structure SessionImage extends DecodedImage where
  height : UInt16
  length_data : data.length = width.toNat * height.toNat * 4

namespace SessionImage

/-- `DecodedImage::new`, black all over. -/
def new (width height : UInt16) : SessionImage where
  width
  height
  data := List.replicate (width.toNat * height.toNat * 4) 0
  length_data := List.length_replicate

/-- The framebuffer with other bytes. -/
def write (image : SessionImage) (bytes : Nat → UInt8) : SessionImage :=
  { image with
    data := (List.range (image.width.toNat * image.height.toNat * 4)).map bytes
    length_data := by rw [List.length_map, List.length_range] }

def pixelAt (image : SessionImage) (x y : Nat) : Rgba :=
  pixel image.data (y * image.width.toNat + x)

end SessionImage

/-- A surface after a `GraphicsUpdate`; `draw` does not abort. -/
def Canvas.drawn (c : Canvas) (image : SessionImage) (region : InclusiveRectangle) : Canvas :=
  match c.draw image.toDecodedImage region with
  | .ok c' => c'
  | .error _ => c

inductive PaintEvent where
  /-- The active stage decodes a part of a frame. -/
  | decode (bytes : Nat → UInt8)
  | graphicsUpdate (region : InclusiveRectangle)
  /-- The sequence that it starts ends with a new size. -/
  | deactivateAll (width height : UInt16)
  | monitorLayout (monitors : List Int32)
  | repaint
  /-- The page's `clear_surfaces`. -/
  | clearSurfaces
  /-- The page's `add_surface`. -/
  | addSurface (originX originY width height : UInt16)

structure PaintRun where
  image : SessionImage
  surfaces : List Canvas
  /-- The last event was a repaint. -/
  justRepainted : Bool

namespace PaintRun

def start (width height : UInt16) (surfaces : List Canvas) : PaintRun where
  image := .new width height
  surfaces
  justRepainted := false

def graphicsUpdate (s : PaintRun) (region : InclusiveRectangle) : PaintRun :=
  { s with surfaces := s.surfaces.map (·.drawn s.image region) }

def deactivateAll (s : PaintRun) (width height : UInt16) : PaintRun :=
  { s with
    image := .new width height
    surfaces := match s.surfaces with
      | [canvas] => [canvas.resize width height]
      | surfaces => surfaces }

def perform (d : DisplayControl) (width height : UInt16) (s : PaintRun) : PaintEvent → PaintRun
  | .decode bytes => { s with image := s.image.write bytes }
  | .graphicsUpdate region => s.graphicsUpdate region
  | .deactivateAll width height => s.deactivateAll width height
  | .monitorLayout monitors =>
      match d.monitorLayout monitors with
      | some update => { s with image := .new update.image.1 update.image.2 }
      | none => s
  | .repaint => s.graphicsUpdate (fullRegion width height)
  | .clearSurfaces => { s with surfaces := [] }
  | .addSurface originX originY width height =>
      { s with surfaces := s.surfaces ++ [Canvas.fromElement originX originY width height] }

/-- The size that the session was started with stays what it is. -/
def step (d : DisplayControl) (width height : UInt16) (s : PaintRun) (e : PaintEvent) :
    PaintRun :=
  { s.perform d width height e with justRepainted := e matches .repaint }

end PaintRun

/-- A pixel of the canvas that lies in the framebuffer. -/
def Canvas.InImage (c : Canvas) (image : SessionImage) (i j : Nat) : Prop :=
  (i < c.width.toNat ∧ j < c.height.toNat) ∧
    c.originX.toNat + i < image.width.toNat ∧ c.originY.toNat + j < image.height.toNat

/-- The framebuffer's pixel for one of the canvas. -/
def Canvas.imagePixel (c : Canvas) (image : SessionImage) (i j : Nat) : Rgba :=
  image.pixelAt (c.originX.toNat + i) (c.originY.toNat + j)

/-- After a repaint the canvases show the framebuffer. -/
def PaintRun.Repainted (s : PaintRun) : Prop :=
  s.justRepainted = true → ∀ c ∈ s.surfaces, ∀ i j, c.InImage s.image i j →
    c.pixels i j = c.imagePixel s.image i j

/-! ## What a repaint draws -/

/-- How far a full region goes. -/
def reach (size : UInt16) : Nat := max size.toNat 1

namespace Canvas

/-- Where the part of a full region that falls on the canvas ends. -/
def rowEnd (c : Canvas) (width : UInt16) : Nat :=
  min (reach width) (c.originX.toNat + c.width.toNat)

def columnEnd (c : Canvas) (height : UInt16) : Nat :=
  min (reach height) (c.originY.toNat + c.height.toNat)

/-- The pixel lies in the full region, and its row of the part on the canvas
ends within the framebuffer's data. -/
def Copied (c : Canvas) (image : SessionImage) (width height : UInt16) (i j : Nat) : Prop :=
  c.originX.toNat + i < reach width ∧ c.originY.toNat + j < reach height ∧
    ((c.originY.toNat + j) * image.width.toNat + c.rowEnd width) * 4 ≤ image.data.length

instance (c : Canvas) (image : SessionImage) (width height : UInt16) (i j : Nat) :
    Decidable (c.Copied image width height i j) :=
  inferInstanceAs (Decidable (_ ∧ _))

/-- What the scratch buffer holds for the pixel. -/
def scratchPixel (c : Canvas) (width height : UInt16) (i j : Nat) : Rgba :=
  let w := c.rowEnd width - c.originX.toNat
  let h := c.columnEnd height - c.originY.toNat
  pixel (resizeVec c.rgbaBuf (w * h * 4)) (j * w + i)

/-- What is left of a pixel that is not copied. -/
def leftover (c : Canvas) (width height : UInt16) (i j : Nat) : Rgba :=
  if c.originX.toNat + i < reach width ∧ c.originY.toNat + j < reach height then
    c.scratchPixel width height i j
  else c.pixels i j

theorem toNat_fullRegion (size : UInt16) :
    (UInt16.ofNat (size.toNat - 1)).toNat = reach size - 1 := by
  have hlt := size.toNat_lt
  rw [UInt16.toNat_ofNat', reach]
  omega

/-- The part of a full region that falls on the canvas. -/
theorem clip_fullRegion (c : Canvas) (width height : UInt16) :
    (c.clipLeft (fullRegion width height) = c.originX.toNat ∧
      c.clipTop (fullRegion width height) = c.originY.toNat) ∧
    c.clipRight (fullRegion width height) = c.rowEnd width ∧
      c.clipBottom (fullRegion width height) = c.columnEnd height := by
  have hw : 1 ≤ reach width := Nat.le_max_right ..
  have hh : 1 ≤ reach height := Nat.le_max_right ..
  refine ⟨⟨Nat.zero_max _, Nat.zero_max _⟩, ?_, ?_⟩
  · simp only [clipRight, fullRegion, toNat_fullRegion, rowEnd]
    omega
  · simp only [clipBottom, fullRegion, toNat_fullRegion, columnEnd]
    omega

theorem covers_fullRegion (width height : UInt16) (x y : Nat) :
    (fullRegion width height).Covers x y ↔ x < reach width ∧ y < reach height := by
  have hw : 1 ≤ reach width := Nat.le_max_right ..
  have hh : 1 ≤ reach height := Nat.le_max_right ..
  simp only [InclusiveRectangle.Covers, fullRegion, toNat_fullRegion, UInt16.toNat_zero]
  omega

/-- A full region shows the pixels that it copies, and of the others what is
left. -/
theorem draw_fullRegion (c : Canvas) (hc : c.NonEmpty) (image : SessionImage)
    (width height : UInt16) :
    Returns (c.draw image.toDecodedImage (fullRegion width height)) fun c' =>
      SameFrame c c' ∧ ∀ i j, i < c.width.toNat → j < c.height.toNat →
        c'.pixels i j = if c.Copied image width height i j then c.imagePixel image i j
          else c.leftover width height i j := by
  obtain ⟨⟨hleft, htop⟩, hright, hbottom⟩ := c.clip_fullRegion width height
  refine (c.draw_px hc image.toDecodedImage (fullRegion width height)).imp ?_
  rintro c' ⟨hframe, hpix⟩
  refine ⟨hframe, fun i j hi hj => ?_⟩
  rw [hpix i j, leftover]
  simp only [covers_fullRegion, hi, hj, true_and]
  by_cases hregion : c.originX.toNat + i < reach width ∧ c.originY.toNat + j < reach height
  · rw [if_pos hregion, if_pos hregion]
    refine if_congr ?_ rfl ?_
    · rw [hright]
      exact ⟨fun h => ⟨hregion.1, hregion.2, h⟩, fun h => h.2.2⟩
    · simp only [staleAt, scratchPixel, hleft, htop, hright, hbottom,
        Nat.add_sub_cancel_left]
  · rw [if_neg hregion, if_neg hregion, if_neg fun h => hregion ⟨h.1, h.2.1⟩]

theorem drawn_fullRegion (c : Canvas) (image : SessionImage) (width height : UInt16) :
    SameFrame c (c.drawn image (fullRegion width height)) ∧
      ∀ i j, i < c.width.toNat → j < c.height.toNat →
        (c.drawn image (fullRegion width height)).pixels i j =
          if c.Copied image width height i j then c.imagePixel image i j
          else c.leftover width height i j := by
  obtain ⟨c', hdraw, hframe⟩ := c.returns_draw image.toDecodedImage (fullRegion width height)
  have hdrawn : c.drawn image (fullRegion width height) = c' := by rw [drawn, hdraw]
  rw [hdrawn]
  refine ⟨hframe, fun i j hi hj => ?_⟩
  have hc : c.NonEmpty := ⟨Nat.zero_lt_of_lt hi, Nat.zero_lt_of_lt hj⟩
  exact ((c.draw_fullRegion hc image width height).of_eq hdraw).2 i j hi hj

theorem SameFrame.inImage_iff {c c' : Canvas} (h : SameFrame c c') (image : SessionImage)
    (i j : Nat) : c'.InImage image i j ↔ c.InImage image i j := by
  obtain ⟨hx, hy, hw, hh⟩ := h
  rw [InImage, InImage, hx, hy, hw, hh]

theorem SameFrame.imagePixel_eq {c c' : Canvas} (h : SameFrame c c') (image : SessionImage)
    (i j : Nat) : c'.imagePixel image i j = c.imagePixel image i j := by
  rw [imagePixel, imagePixel, h.1, h.2.1]

/-- A canvas after a full region shows the framebuffer exactly when what was
not copied was there before. -/
theorem drawn_shows_iff (c : Canvas) (image : SessionImage) (width height : UInt16) :
    (∀ i j, (c.drawn image (fullRegion width height)).InImage image i j →
      (c.drawn image (fullRegion width height)).pixels i j =
        (c.drawn image (fullRegion width height)).imagePixel image i j) ↔
    ∀ i j, c.InImage image i j → ¬ c.Copied image width height i j →
      c.leftover width height i j = c.imagePixel image i j := by
  obtain ⟨hframe, hpix⟩ := c.drawn_fullRegion image width height
  refine forall₂_congr fun i j => ?_
  rw [hframe.inImage_iff, hframe.imagePixel_eq]
  refine forall_congr' fun hin => ?_
  rw [hpix i j hin.1.1 hin.1.2]
  split
  · rename_i hcopied
    exact iff_of_true rfl fun h => absurd hcopied h
  · rename_i hcopied
    exact ⟨fun h _ => h, fun h => h hcopied⟩

end Canvas

namespace PaintRun

/-- What a repaint does not copy is there already. -/
def Fits (width height : UInt16) (s : PaintRun) : PaintEvent → Prop
  | .repaint => ∀ c ∈ s.surfaces, ∀ i j, c.InImage s.image i j →
      ¬ c.Copied s.image width height i j →
        c.leftover width height i j = c.imagePixel s.image i j
  | _ => True

theorem repainted_repaint (d : DisplayControl) (width height : UInt16) (s : PaintRun) :
    (s.step d width height .repaint).Repainted ↔ s.Fits width height .repaint := by
  constructor
  · intro h c hc
    refine (c.drawn_shows_iff s.image width height).mp fun i j => ?_
    exact h rfl _ (List.mem_map_of_mem hc) i j
  · intro h _ c' hc'
    obtain ⟨c, hc, rfl⟩ := List.mem_map.mp hc'
    exact (c.drawn_shows_iff s.image width height).mpr (h c hc)

/-- A repaint shows the framebuffer exactly when what it does not copy is
there already. -/
theorem step_repainted_iff (d : DisplayControl) (width height : UInt16) (s : PaintRun)
    (e : PaintEvent) : (s.step d width height e).Repainted ↔ s.Fits width height e := by
  cases e with
  | repaint => exact s.repainted_repaint d width height
  | _ => exact iff_of_true (fun h => absurd h Bool.false_ne_true) trivial

/-- In every run, each repaint shows the whole framebuffer exactly when what
it does not copy is there already. -/
theorem always_repainted_iff (d : DisplayControl) (width height : UInt16)
    (surfaces : List Canvas) (es : List PaintEvent) :
    Runs.Always (step d width height) Repainted (start width height surfaces) es ↔
      Runs.Each (step d width height) (Fits width height) (start width height surfaces) es :=
  @Runs.always_iff_each _ _ _ _ es (fun _ => True) Repainted (Fits width height)
    (fun _ _ _ _ => trivial) (fun s e _ _ _ => s.step_repainted_iff d width height e) trivial
    (fun h => absurd h Bool.false_ne_true)

/-- The desktop grows by a pixel to the right, as it may in a reactivation,
and the page declares its surface. -/
def wider : List PaintEvent :=
  [.deactivateAll 2 1, .decode fun _ => 9, .addSurface 0 0 2 1, .repaint]

theorem not_always_repainted : ¬ ∀ d width height surfaces es,
    Runs.Always (step d width height) Repainted (start width height surfaces) es := by
  intro h
  have hrepainted := h .protocol 1 1 [] wider wider (List.prefix_refl _) rfl _
    (List.mem_singleton_self _) 1 0
    ⟨⟨by decide, by decide⟩, by decide, by decide⟩
  exact absurd hrepainted (by decide)

end PaintRun

end WasmRdp
