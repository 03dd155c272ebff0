import WasmRdp.RailManager

/-!
# The part of the desktop that a window shows

`rebuildRailSurfaces` declares a surface for each window that is not hidden,
at the window's place, and the repaint that it asks for draws the whole
framebuffer to every surface. A place is a number of the script; the session
takes it as a `u16`, modulo 2 ^ 16, so that a window hanging off the left or
the top edge is declared beyond the other end of the desktop, where nothing
is drawn.

For one canvas `draw_fullRegion_px` says what the repaint leaves: the
framebuffer where the canvas lies over it, and elsewhere what it showed, which
is nothing, since the canvas is new. Where the window starts on the desktop
its canvas lies where the window does. Where it starts off the edge no pixel
of it on the desktop is drawn (`toU16_origin_off`). So the canvas shows the
window's own part exactly in the first case, or when what lies in the window
is blank (`showsOwnPart_iff`).

`window_showsOwnPart_iff` is the same for the windows of a page. A window that
is not hidden has one canvas after the repaint (`window_canvas`), and a
`GraphicsUpdate` goes through and draws to every surface
(`returns_graphicsUpdate`). `offEdgeWin` is a window of two pixels of which
the first is left of the desktop: the second stays blank.
-/

namespace WasmRdp

open Slices Raster

/-- The legacy framebuffer, with its height and a pixel for every point. -/
structure Framebuffer extends DecodedImage where
  height : UInt16
  width_pos : 0 < width.toNat
  height_pos : 0 < height.toNat
  length_data : data.length = width.toNat * height.toNat * 4

/-- What point `(x, y)` of the desktop shows. -/
def Framebuffer.pixelAt (fb : Framebuffer) (x y : Nat) : Rgba :=
  pixel fb.data (y * fb.width.toNat + x)

/-- `full_region`. -/
def fullRegion (width height : UInt16) : InclusiveRectangle where
  left := 0
  top := 0
  right := UInt16.ofNat (width.toNat - 1)
  bottom := UInt16.ofNat (height.toNat - 1)

/-- The loop over the surfaces for a `GraphicsUpdate`. -/
def graphicsUpdate (surfaces : List RenderSurface) (image : DecodedImage)
    (region : InclusiveRectangle) : Checked (List RenderSurface) :=
  surfaces.mapM fun s => do
    let canvas ← s.canvas.draw image region
    return { s with canvas }

/-- `(x, y)` lies in the window. -/
def Frame.Covers (f : Frame) (x y : Nat) : Prop :=
  (f.x ≤ x ∧ (x : Int) < f.x + f.w) ∧ (f.y ≤ y ∧ (y : Int) < f.y + f.h)

/-- Every desktop pixel in the window is on its canvas, relative to the
window. -/
def ShowsOwnPart (fb : Framebuffer) (f : Frame) (c : Canvas) : Prop :=
  ∀ x y : Nat, x < fb.width.toNat → y < fb.height.toNat → f.Covers x y →
    c.pixels (x - f.x).toNat (y - f.y).toNat = fb.pixelAt x y

/-- What the framebuffer has in the window looks like a canvas that nothing
was drawn to. -/
def BlankUnder (fb : Framebuffer) (f : Frame) : Prop :=
  ∀ x y : Nat, x < fb.width.toNat → y < fb.height.toNat → f.Covers x y →
    fb.pixelAt x y = ⟨0, 0, 0, 0⟩

/-- The canvas that a window is declared with. -/
def Frame.canvas (f : Frame) : Canvas :=
  Canvas.fromElement (toU16 f.x) (toU16 f.y) (toU16 f.w) (toU16 f.h)

/-! ## Drawing the framebuffer -/

theorem toNat_toU16 (n : Int) : ((toU16 n).toNat : Int) = n % 65536 := by
  have h₀ := Int.emod_nonneg n (show (65536 : Int) ≠ 0 by decide)
  have h₁ := Int.emod_lt_of_pos n (show (0 : Int) < 65536 by decide)
  rw [toU16, UInt16.toNat_ofNat', Nat.mod_eq_of_lt (by omega), Int.toNat_of_nonneg h₀]

theorem fullRegion_covers (fb : Framebuffer) (x y : Nat) :
    (fullRegion fb.width fb.height).Covers x y ↔
      x < fb.width.toNat ∧ y < fb.height.toNat := by
  have hw := fb.width_pos
  have hh := fb.height_pos
  have hw' := fb.width.toNat_lt
  have hh' := fb.height.toNat_lt
  simp only [InclusiveRectangle.Covers, fullRegion, UInt16.toNat_ofNat', UInt16.toNat_zero]
  omega

/-- A canvas after a full region: the framebuffer where the canvas lies over
it, and elsewhere what it showed. -/
theorem draw_fullRegion_px (c : Canvas) (hc : c.NonEmpty) (fb : Framebuffer) :
    Returns (c.draw fb.toDecodedImage (fullRegion fb.width fb.height)) fun c' =>
      ∀ i j, c'.pixels i j =
        let x := c.originX.toNat + i
        let y := c.originY.toNat + j
        if (i < c.width.toNat ∧ j < c.height.toNat) ∧
            x < fb.width.toNat ∧ y < fb.height.toNat then fb.pixelAt x y
        else c.pixels i j := by
  have hw := fb.width_pos
  have hh := fb.height_pos
  have hw' := fb.width.toNat_lt
  have hh' := fb.height.toNat_lt
  have hright : (fullRegion fb.width fb.height).right.toNat < fb.width.toNat := by
    simp only [fullRegion, UInt16.toNat_ofNat']
    omega
  have hbottom : (fullRegion fb.width fb.height).bottom.toNat < fb.height.toNat := by
    simp only [fullRegion, UInt16.toNat_ofNat']
    omega
  rw [c.draw_eq_drawRgba fb.toDecodedImage hright hbottom]
  refine (c.drawRgba_px _ hc hw hh fb.length_data).imp fun c' hpx i j => ?_
  rw [hpx.2 i j]
  simp only [fullRegion_covers, InSource, UInt16.toNat_zero, Nat.sub_zero]
  refine if_congr ?_ rfl rfl
  omega

/-! ## One window -/

/-- A window with a size that a canvas can have. -/
structure Frame.Sized (f : Frame) : Prop where
  w_pos : 0 < f.w
  w_le : f.w ≤ 65535
  h_pos : 0 < f.h
  h_le : f.h ≤ 65535

theorem toNat_toU16_size {n : Int} (hpos : 0 < n) (hle : n ≤ 65535) :
    ((toU16 n).toNat : Int) = n := by
  rw [toNat_toU16, Int.emod_eq_of_lt (Int.le_of_lt hpos) (by omega)]

/-- A window that starts off the edge of the desktop is declared so far out
that none of its pixels on the desktop is drawn. -/
theorem toU16_origin_off {o : Int} (hneg : o < 0) (x : Nat) :
    65535 < (toU16 o).toNat + (x - o).toNat := by
  have h := toNat_toU16 o
  omega

/-- The canvas of a window after a full region shows the window's own part of
the desktop exactly when the window starts on the desktop, or what lies in it
is blank. -/
theorem showsOwnPart_iff (fb : Framebuffer) {f : Frame} (hf : f.Sized) :
    Returns (f.canvas.draw fb.toDecodedImage (fullRegion fb.width fb.height)) fun c =>
      ShowsOwnPart fb f c ↔ (0 ≤ f.x ∧ 0 ≤ f.y) ∨ BlankUnder fb f := by
  have hw := toNat_toU16_size hf.w_pos hf.w_le
  have hh := toNat_toU16_size hf.h_pos hf.h_le
  have hne : f.canvas.NonEmpty := by
    have := hf.w_pos
    have := hf.h_pos
    constructor
    · change 0 < (toU16 f.w).toNat
      omega
    · change 0 < (toU16 f.h).toNat
      omega
  have hfw := fb.width.toNat_lt
  have hfh := fb.height.toNat_lt
  refine (draw_fullRegion_px _ hne fb).imp fun c hpx => ?_
  -- the canvas of a pixel of the window, at its place relative to the window
  have hpixel : ∀ x y : Nat, f.Covers x y → c.pixels (x - f.x).toNat (y - f.y).toNat =
      if (toU16 f.x).toNat + (x - f.x).toNat < fb.width.toNat ∧
          (toU16 f.y).toNat + (y - f.y).toNat < fb.height.toNat then
        fb.pixelAt ((toU16 f.x).toNat + (x - f.x).toNat)
          ((toU16 f.y).toNat + (y - f.y).toNat)
      else ⟨0, 0, 0, 0⟩ := by
    intro x y hin
    obtain ⟨⟨hx₀, hx₁⟩, hy₀, hy₁⟩ := hin
    rw [hpx]
    refine if_congr ?_ rfl rfl
    refine and_iff_right ⟨?_, ?_⟩
    · change (x - f.x).toNat < (toU16 f.w).toNat
      omega
    · change (y - f.y).toNat < (toU16 f.h).toNat
      omega
  by_cases hon : 0 ≤ f.x ∧ 0 ≤ f.y
  · refine iff_of_true (fun x y hx hy hin => ?_) (.inl hon)
    rw [hpixel x y hin]
    obtain ⟨⟨hx₀, hx₁⟩, hy₀, hy₁⟩ := hin
    have hox := toNat_toU16 f.x
    have hoy := toNat_toU16 f.y
    rw [Int.emod_eq_of_lt hon.1 (by omega)] at hox
    rw [Int.emod_eq_of_lt hon.2 (by omega)] at hoy
    rw [if_pos (by omega)]
    congr 1 <;> omega
  · have hblank : ∀ x y : Nat, f.Covers x y →
        c.pixels (x - f.x).toNat (y - f.y).toNat = ⟨0, 0, 0, 0⟩ := by
      intro x y hin
      rw [hpixel x y hin, if_neg]
      obtain ⟨⟨hx₀, hx₁⟩, hy₀, hy₁⟩ := hin
      rintro ⟨hx, hy⟩
      rcases not_and_or.mp hon with hneg | hneg
      · have := toU16_origin_off (Int.not_le.mp hneg) x
        omega
      · have := toU16_origin_off (Int.not_le.mp hneg) y
        omega
    rw [or_iff_right hon]
    constructor
    · intro h x y hx hy hin
      rw [← h x y hx hy hin, hblank x y hin]
    · intro h x y hx hy hin
      rw [h x y hx hy hin, hblank x y hin]

/-! ## The windows of a page -/

/-- The surfaces that `rebuildRailSurfaces` declares. -/
theorem surfaces_rebuildSurfaces {m : RailManager} {s : Session} (hs : m.session = some s) :
    ∃ s', m.rebuildSurfaces.session = some s' ∧
      s'.surfaces = (m.windows.entries.filter fun e => !e.2.hidden).map
        fun e => ⟨.window e.1, e.2.frame.canvas⟩ := by
  have hloop : ∀ (entries : List (UInt32 × RailWin)) (s : Session),
      (entries.foldl RailManager.declareSurface s).surfaces =
        s.surfaces ++ (entries.filter fun e => !e.2.hidden).map
          fun e => ⟨.window e.1, e.2.frame.canvas⟩ := by
    intro entries
    induction entries with
    | nil =>
        intro s
        simp
    | cons e entries ih =>
        intro s
        rw [List.foldl_cons, ih]
        by_cases hhidden : e.2.hidden
        · simp [RailManager.declareSurface, hhidden]
        · simp [RailManager.declareSurface, hhidden, Session.addSurface, Frame.canvas,
            RailWin.frame]
  refine ⟨_, by rw [RailManager.rebuildSurfaces, hs, Option.map_some], ?_⟩
  exact hloop m.windows.entries s.clearSurfaces

/-- A `GraphicsUpdate` goes through, and draws to every surface. -/
theorem returns_graphicsUpdate (surfaces : List RenderSurface) (image : DecodedImage)
    (region : InclusiveRectangle) :
    Returns (graphicsUpdate surfaces image region) (List.Forall₂ (fun before after =>
      after.element = before.element ∧
        before.canvas.draw image region = .ok after.canvas) surfaces) := by
  have hrefl : List.Forall₂ (fun a b : RenderSurface => b = a) surfaces surfaces :=
    List.forall₂_same.mpr fun _ _ => rfl
  refine returns_mapM (fun before s hs => ?_) hrefl
  subst hs
  obtain ⟨c, hdraw, -⟩ := s.canvas.returns_draw image region
  exact ⟨{ s with canvas := c }, by rw [hdraw]; rfl, rfl, hdraw⟩

/-- Every window that is not hidden has one canvas after the repaint, and the
framebuffer was drawn to it. -/
theorem window_canvas {m : RailManager} {s : Session} {id : UInt32} {win : RailWin}
    (image : DecodedImage) (region : InclusiveRectangle) (hsession : m.session = some s)
    (hwin : m.windows.get id = some win) (hshown : win.hidden = false) :
    ∃ s' surfaces, m.rebuildSurfaces.session = some s' ∧
      graphicsUpdate s'.surfaces image region = .ok surfaces ∧
      (∃ c, ⟨.window id, c⟩ ∈ surfaces) ∧
      ∀ c, ⟨.window id, c⟩ ∈ surfaces → win.frame.canvas.draw image region = .ok c := by
  obtain ⟨s', hrebuild, hdeclared⟩ := surfaces_rebuildSurfaces hsession
  obtain ⟨surfaces, hupdate, hdrawn⟩ := returns_graphicsUpdate s'.surfaces image region
  -- the one declared surface of this element is the window's
  have hmem : ∀ c, (⟨.window id, c⟩ : RenderSurface) ∈ s'.surfaces ↔ c = win.frame.canvas := by
    intro c
    rw [hdeclared, List.mem_map]
    constructor
    · rintro ⟨⟨k, w⟩, he, heq⟩
      obtain ⟨hk, hc⟩ := RenderSurface.mk.inj heq
      obtain rfl : k = id := Element.window.inj hk
      have hget := (m.windows.mem_entries k w).mp (List.mem_of_mem_filter he)
      cases hwin.symm.trans hget
      exact hc.symm
    · rintro rfl
      refine ⟨(id, win), List.mem_filter.mpr ⟨?_, by simp [hshown]⟩, rfl⟩
      exact (m.windows.mem_entries id win).mpr hwin
  refine ⟨s', surfaces, hrebuild, hupdate, ?_, fun c hc => ?_⟩
  · obtain ⟨⟨element, c⟩, hafter, helement, -⟩ :=
      exists_of_forall₂ hdrawn.flip _ ((hmem _).mpr rfl)
    obtain rfl : element = .window id := helement
    exact ⟨c, hafter⟩
  · obtain ⟨⟨element, blank⟩, hbefore, helement, hdraw⟩ := exists_of_forall₂ hdrawn _ hc
    obtain rfl : .window id = element := helement
    obtain rfl := (hmem blank).mp hbefore
    exact hdraw

/-- After the repaint the canvas of a window shows the window's own part of
the desktop exactly when the window starts on the desktop, or what lies in it
is blank. -/
theorem window_showsOwnPart_iff {m : RailManager} {s : Session} {id : UInt32} {win : RailWin}
    (fb : Framebuffer) (hsession : m.session = some s) (hwin : m.windows.get id = some win)
    (hshown : win.hidden = false) (hsized : win.frame.Sized) :
    ∃ s' surfaces, m.rebuildSurfaces.session = some s' ∧
      graphicsUpdate s'.surfaces fb.toDecodedImage (fullRegion fb.width fb.height) =
        .ok surfaces ∧
      (∃ c, ⟨.window id, c⟩ ∈ surfaces) ∧
      ∀ c, ⟨.window id, c⟩ ∈ surfaces →
        (ShowsOwnPart fb win.frame c ↔
          (0 ≤ win.x ∧ 0 ≤ win.y) ∨ BlankUnder fb win.frame) := by
  obtain ⟨s', surfaces, hrebuild, hupdate, hexists, hdraw⟩ :=
    window_canvas fb.toDecodedImage (fullRegion fb.width fb.height) hsession hwin hshown
  refine ⟨s', surfaces, hrebuild, hupdate, hexists, fun c hc => ?_⟩
  exact (showsOwnPart_iff fb hsized).of_eq (hdraw c hc)

/-- A window of two pixels, the first of them left of the desktop. -/
def offEdgeWin : RailWin := { RailWin.create with x := -1, w := 2, h := 1 }

def offEdge : RailManager where
  windowedMode := false
  windows := InsertionMap.empty.set 5 offEdgeWin
  maximizedFirst := false
  hadAppWindow := true
  activeId := none
  exitTimer := false
  inUse := true
  session := some ⟨0, [], []⟩

/-- A desktop of one white pixel. -/
def whitePixel : Framebuffer where
  width := 1
  height := 1
  data := [255, 255, 255, 255]
  width_pos := by decide
  height_pos := by decide
  length_data := rfl

theorem offEdge_get : offEdge.windows.get 5 = some offEdgeWin :=
  InsertionMap.get_set_self ..

theorem offEdgeWin_sized : offEdgeWin.frame.Sized := by
  constructor <;> decide

theorem window_showsOwnPart_iff_example :
    ∃ s' surfaces, offEdge.rebuildSurfaces.session = some s' ∧
      graphicsUpdate s'.surfaces whitePixel.toDecodedImage (fullRegion 1 1) =
        .ok surfaces ∧
      (∃ c, ⟨.window 5, c⟩ ∈ surfaces) ∧
      ∀ c, ⟨.window 5, c⟩ ∈ surfaces →
        (ShowsOwnPart whitePixel offEdgeWin.frame c ↔
          ((0 : Int) ≤ -1 ∧ (0 : Int) ≤ 0) ∨ BlankUnder whitePixel offEdgeWin.frame) :=
  window_showsOwnPart_iff whitePixel rfl offEdge_get rfl offEdgeWin_sized

/-- The window's second pixel is the white one, and its canvas stays blank. -/
theorem not_always_showsOwnPart : ¬ ∀ (m : RailManager) (s : Session) (id : UInt32)
    (win : RailWin) (fb : Framebuffer) (s' : Session) (surfaces : List RenderSurface) (c : Canvas),
    m.session = some s → m.windows.get id = some win → win.hidden = false →
    win.frame.Sized → m.rebuildSurfaces.session = some s' →
    graphicsUpdate s'.surfaces fb.toDecodedImage (fullRegion fb.width fb.height) =
      .ok surfaces →
    ⟨.window id, c⟩ ∈ surfaces → ShowsOwnPart fb win.frame c := by
  intro h
  obtain ⟨s', surfaces, hrebuild, hupdate, ⟨c, hc⟩, hdraw⟩ := window_canvas
    whitePixel.toDecodedImage (fullRegion 1 1) rfl offEdge_get rfl
  have hown := h offEdge _ 5 offEdgeWin whitePixel s' surfaces c rfl offEdge_get rfl
    offEdgeWin_sized hrebuild hupdate hc
  rcases ((showsOwnPart_iff whitePixel offEdgeWin_sized).of_eq (hdraw c hc)).mp hown
    with hon | hblank
  · exact absurd hon.1 (by decide)
  · have hwhite := hblank 0 0 Nat.one_pos Nat.one_pos
      ⟨⟨by decide, by decide⟩, by decide, by decide⟩
    exact absurd hwhite (by decide)

end WasmRdp
