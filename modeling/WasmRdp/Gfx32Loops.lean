import WasmRdp.Gfx32

/-!
# The loops on the 32-bit target

Each loop of the handler, and each blit, does on the 32-bit target what it
does on unbounded sizes as long as the raster that it writes and the block
that it reads fit into the address space. Two things need more than that: a
tile, whose own size is not bounded by the surface's (`RowsFit`,
`ProbesFit`), and a blit from beyond the surface (`DrawFits`).

Every lemma `refines_…` has the same form: the computation on words refines
the one on numbers, that is, nothing wraps in it and what it returns is what
the other returns.
For straight-line code that is `byteLength_eq`, `pixelOffset_eq` and
`rowOffset_eq`, each from a bound on the largest offset; for a loop it is the
rule of `Word32` for the loop, with the bound at every turn. A checked access
that fails ends the loop on both sides, so only the offsets up to there have
to be in range; `ProbesFit` is stated so.

A blit subtracts origins and coordinates of 16 bits in words of 32, which is
the same code as in `Canvas` and cannot differ; only the rows it then gathers
can. `drawFits_of_endsOn` gives `DrawFits` for a rectangle that ends on its
surface, and `refines_blitRects` carries it over all rectangles and canvases.
-/

namespace WasmRdp.Gfx32

open Slices Raster Word32

/-! ## Offsets -/

theorem byteLength_eq {w h : Nat} (hfit : w * h * 4 < 2 ^ 32) :
    byteLength w h = pure (w * h * 4) := by
  rw [byteLength, mul_eq (by omega), pure_bind, mul_eq hfit]

theorem pixelOffset_eq {y sw x : Nat} (hfit : (y * sw + x) * 4 < 2 ^ 32) :
    pixelOffset y sw x = pure ((y * sw + x) * 4) := by
  rw [pixelOffset, mul_eq (by omega), pure_bind, add_eq (by omega), pure_bind, mul_eq hfit]

theorem rowOffset_eq {y row sw x : Nat} (hrow : y + row < 2 ^ 32)
    (hfit : ((y + row) * sw + x) * 4 < 2 ^ 32) :
    rowOffset y row sw x = pure (((y + row) * sw + x) * 4) := by
  rw [rowOffset, add_eq hrow, pure_bind, pixelOffset_eq hfit]

/-! ## Pixel loops -/

theorem refines_copyRows {h w : Nat} {dOff sOff : Nat → Comp Nat} {dOff' sOff' : Nat → Nat}
    (src dst : List UInt8)
    (hd : ∀ row < h, dOff row = pure (dOff' row) ∧ dOff' row + w * 4 < 2 ^ 32)
    (hs : ∀ row < h, sOff row = pure (sOff' row) ∧ sOff' row + w * 4 < 2 ^ 32) :
    Refines (copyRows h w dOff sOff src dst)
      (Raster.copyRows h (w * 4) dOff' sOff' src dst) := by
  refine refines_forRange fun row buf _ hrow => ?_
  obtain ⟨hdOff, hdFit⟩ := hd row hrow
  obtain ⟨hsOff, hsFit⟩ := hs row hrow
  refine .pure_bind hsOff (.pure_bind hdOff (.mul (by omega) ?_))
  refine .add hsFit (.add hdFit ?_)
  exact (refines_lift _).bind fun line _ => refines_lift _

theorem refines_fillRect {sw sh : Nat} (rgba : List UInt8) (hfit : sw * sh * 4 < 2 ^ 32)
    (out : List UInt8 × List InclusiveRectangle) (rect : InclusiveRectangle) :
    Refines (fillRect sw sh rgba out rect) (WasmRdp.fillRect sw sh rgba out rect) := by
  obtain ⟨fb, dirty⟩ := out
  rw [fillRect, WasmRdp.fillRect]
  generalize min rect.left.toNat sw = x0
  generalize min rect.top.toNat sh = y0
  have hx1 : min rect.right.toNat sw ≤ sw := Nat.min_le_right ..
  have hy1 : min rect.bottom.toNat sh ≤ sh := Nat.min_le_right ..
  generalize min rect.right.toNat sw = x1 at hx1 ⊢
  generalize min rect.bottom.toNat sh = y1 at hy1 ⊢
  dsimp only
  split
  · exact refines_pure _
  · refine Refines.bind (refines_forRange fun y fb _ hy => ?_) fun fb _ => ?_
    · have hline : y * sw + sw ≤ sw * sh := rowMajor_run_le (d := 0) (by omega) (by omega)
      refine .pure_bind (byteLength_eq (by omega)) (refines_forRange fun x fb _ hx => ?_)
      refine .mul (by omega) (.add (by omega) (.add (by omega) ?_))
      exact refines_lift _
    · exact (refines_lift _).bind fun right _ =>
        (refines_lift _).bind fun bottom _ => refines_pure _

theorem refines_copyToPoint {sw sh cw ch : Nat} (block : List UInt8) (hsw : sw < 2 ^ 16)
    (hsh : sh < 2 ^ 16) (hfit : sw * sh * 4 < 2 ^ 32) (hblock : cw * ch * 4 < 2 ^ 32)
    (out : List UInt8 × List InclusiveRectangle) (p : Point) :
    Refines (copyToPoint sw sh block cw ch out p)
      (WasmRdp.copyToPoint sw sh block cw ch out p) := by
  obtain ⟨fb, dirty⟩ := out
  rw [copyToPoint, WasmRdp.copyToPoint]
  generalize p.x.toNat = dx
  generalize p.y.toNat = dy
  generalize hw : min cw (sw - dx) = w
  generalize hh : min ch (sh - dy) = h
  split
  · exact refines_pure _
  · refine Refines.bind (refines_copyRows _ _ (fun row hrow => ?_)
      fun row hrow => ?_) fun fb _ => ?_
    · have hrun : (dy + row) * sw + dx + w ≤ sw * sh := rowMajor_run_le (by omega) (by omega)
      exact ⟨rowOffset_eq (by omega) (by omega), by omega⟩
    · have hrun : row * cw + 0 + w ≤ cw * ch := rowMajor_run_le (by omega) (by omega)
      exact ⟨byteLength_eq (by omega), by omega⟩
    · refine .add (by omega) ((refines_lift _).bind fun right _ => ?_)
      refine .add (by omega) ((refines_lift _).bind fun bottom _ => refines_pure _)

theorem refines_copyToPoints {sw sh cw ch : Nat} (block : List UInt8) (hsw : sw < 2 ^ 16)
    (hsh : sh < 2 ^ 16) (hfit : sw * sh * 4 < 2 ^ 32) (hblock : cw * ch * 4 < 2 ^ 32)
    (points : List Point) (fb : List UInt8) :
    Refines (copyToPoints sw sh block cw ch points fb)
      (WasmRdp.copyToPoints sw sh block cw ch points fb) :=
  refines_foldlM (fun _ => True) trivial
    (fun p _ out _ => refines_copyToPoint block hsw hsh hfit hblock out p)
    fun _ _ _ _ _ _ => trivial

/-! ## Tiles -/

/-- The rows of a tile that land on the surface end within the address
space. -/
def RowsFit (w cw dy sh n : Nat) : Prop :=
  ∀ row < n, dy + row < sh → (row * w + cw) * 4 < 2 ^ 32

theorem refines_copyTileRow {sw sh w cw dx row sy : Nat} (data fb : List UInt8)
    (hdx : dx < 2 ^ 16) (hcw : cw ≤ sw) (hsw : sw < 2 ^ 16) (hsy : sy < sh)
    (hfit : sw * sh * 4 < 2 ^ 31) (hrow : (row * w + cw) * 4 < 2 ^ 32) :
    Refines (copyTileRow data w cw dx sw row sy fb)
      (WasmRdp.copyTileRow data w cw dx sw row sy fb) := by
  have hline : sy * sw + sw ≤ sw * sh := rowMajor_run_le (d := 0) hsy (by omega)
  rw [copyTileRow, WasmRdp.copyTileRow]
  refine .pure_bind (byteLength_eq (by omega)) (.pure_bind (pixelOffset_eq (by omega)) ?_)
  refine .mul (by omega) (.add (by omega) ?_)
  by_cases hsrc : row * w * 4 + cw * 4 ≤ data.length
  · rw [if_pos hsrc]
    refine .add (by omega) ?_
    by_cases hdst : (sy * sw + dx) * 4 + cw * 4 ≤ fb.length
    · rw [if_pos hdst]
      rw [if_pos ⟨hsrc, hdst⟩]
      exact (refines_lift _).bind fun line _ => refines_lift _
    · rw [if_neg hdst]
      rw [if_neg fun hboth => hdst hboth.2]
      exact refines_pure _
  · rw [if_neg hsrc]
    rw [if_neg fun hboth => hsrc hboth.1]
    exact refines_pure _

theorem refines_copyTileRows {sw sh w cw dx dy : Nat} (data fb : List UInt8)
    (hdx : dx < 2 ^ 16) (hdy : dy < 2 ^ 16) (hcw : cw ≤ sw) (hsw : sw < 2 ^ 16)
    (hfit : sw * sh * 4 < 2 ^ 31) {n row : Nat} (hn : row + n < 2 ^ 16)
    (hrows : RowsFit w cw dy sh (row + n)) :
    Refines (copyTileRows data w cw dx dy sw sh n row fb)
      (WasmRdp.copyTileRows data w cw dx dy sw sh n row fb) := by
  induction n generalizing row fb with
  | zero => exact refines_pure fb
  | succ n ih =>
      rw [copyTileRows, WasmRdp.copyTileRows]
      refine .add (by omega) ?_
      split
      · exact refines_pure fb
      · rename_i hsy
        have hrow := hrows row (by omega) (by omega)
        refine (refines_copyTileRow data fb hdx hcw hsw (by omega) hfit hrow).bind fun fb' _ => ?_
        exact ih fb' (by omega) (by rwa [Nat.add_assoc, Nat.add_comm 1 n])

/-! ## The probe -/

/-- The samples of the probe lie within the address space, up to the one that
ends it. -/
def ProbesFit (data : List UInt8) : List Nat → Prop
  | [] => True
  | o :: os => o < 2 ^ 32 ∧ (WasmRdp.sampleLit data o = .ok false → ProbesFit data os)

theorem probesFit_of_lt {data : List UInt8} {os : List Nat} (h : ∀ o ∈ os, o < 2 ^ 32) :
    ProbesFit data os := by
  induction os with
  | nil => trivial
  | cons o os ih =>
      exact ⟨h o List.mem_cons_self, fun _ => ih fun o' ho' => h o' (List.mem_cons_of_mem o ho')⟩

theorem refines_sampleLit (data : List UInt8) {o : Nat} (ho : o + 2 < 2 ^ 32) :
    Refines (sampleLit data o) (WasmRdp.sampleLit data o) := by
  rw [sampleLit, WasmRdp.sampleLit]
  refine .add ho ?_
  split
  · refine (refines_lift _).bind fun r _ => ?_
    split
    · exact refines_pure true
    · refine .add (by omega) ((refines_lift _).bind fun g _ => ?_)
      split
      · exact refines_pure true
      · exact .add ho ((refines_lift _).bind fun b _ => refines_pure _)
  · exact refines_pure false

/-- The offset of a sample. -/
def probe (w : Nat) (s : Nat × Nat) : Nat := (s.1 * w + s.2) * 4

theorem refines_probes {data : List UInt8} {w : Nat} {samples : List (Nat × Nat)}
    (h : ProbesFit data (samples.map (probe w))) :
    Refines (samples.anyM fun s => pixelOffset s.1 w s.2 >>= sampleLit data)
      ((samples.map (probe w)).anyM (WasmRdp.sampleLit data)) := by
  induction samples with
  | nil => exact refines_pure false
  | cons s samples ih =>
      obtain ⟨hfit, hrest⟩ := h
      have hsample : probe w s + 2 < 2 ^ 32 := by
        unfold probe at hfit ⊢
        omega
      rw [List.anyM_cons, List.map_cons, List.anyM_cons]
      refine Refines.bind (.pure_bind (pixelOffset_eq hfit) (refines_sampleLit data hsample))
        fun lit hlit => ?_
      cases lit with
      | true => exact refines_pure true
      | false => exact ih (hrest hlit)

/-- The samples of a tile, as offsets. -/
def probes (w h : Nat) : List Nat :=
  ([4, h / 2, h - 4].flatMap fun sy => [4, w / 2, w - 4].map fun sx => (sy, sx)).map (probe w)

theorem refines_isBlackTile {data : List UInt8} {w h : Nat}
    (hfit : ProbesFit data (probes w h)) :
    Refines (isBlackTile data w h) (WasmRdp.isBlackTile data w h) :=
  (refines_probes hfit).bind fun _ _ => refines_pure _

/-! ## Blits -/

/-- The products of one blit lie within the address space: the length of the
region, and the end of its last row in the source. -/
def DrawFits (c : Canvas) (sw sh ox oy : UInt16) (region : InclusiveRectangle) : Prop :=
  let r := clip c sw sh ox oy region
  let w := (r.sx1 - r.sx0).toNat + 1
  let h := (r.sy1 - r.sy0).toNat + 1
  let y := (r.sy0 - oy.toUInt32).toNat
  let x := (r.sx0 - ox.toUInt32).toNat
  r.sx0 ≤ r.sx1 → r.sy0 ≤ r.sy1 →
    w * h * 4 < 2 ^ 32 ∧ (y + (h - 1)) * (sw.toNat * 4) + x * 4 + w * 4 < 2 ^ 32

theorem drawRgba_eq_putRegion (c : Canvas) (src : List UInt8) (sw sh ox oy : UInt16)
    (region : InclusiveRectangle) :
    c.drawRgba src sw sh ox oy region =
      let r := clip c sw sh ox oy region
      if r.sx0 > r.sx1 ∨ r.sy0 > r.sy1 then return c
      else c.putRegion src (r.sx1 - r.sx0 + 1).toNat (r.sy1 - r.sy0 + 1).toNat
        (r.sx0 - c.originX.toUInt32).toNat (r.sy0 - c.originY.toUInt32).toNat
        ((r.sx1 - r.sx0 + 1).toNat == sw.toNat && r.sx0 == ox.toUInt32)
        ((r.sy0 - oy.toUInt32).toNat * (sw.toNat * 4))
        (fun row => (r.sy0 - oy.toUInt32 + UInt32.ofNat row).toNat * (sw.toNat * 4)
          + (r.sx0 - ox.toUInt32).toNat * 4) := rfl

/-- What is left of a region begins at the source's origin or behind it, and
ends within the region. -/
theorem clip_bounds (c : Canvas) (sw sh ox oy : UInt16) (region : InclusiveRectangle) :
    let r := clip c sw sh ox oy region
    (ox.toNat ≤ r.sx0.toNat ∧ r.sx1.toNat ≤ region.right.toNat) ∧
      (oy.toNat ≤ r.sy0.toNat ∧ r.sy1.toNat ≤ region.bottom.toNat) := by
  simp only [clip, toNat_max, toNat_min, UInt16.toNat_toUInt32]
  omega

theorem refines_gatherRows (c : Canvas) (src : List UInt8) (dx dy : Nat)
    {w h y x stride : Nat} {srcOffset : Nat → Nat} (hregion : w * h * 4 < 2 ^ 32)
    (hy : y + h < 2 ^ 32)
    (hlast : (y + (h - 1)) * stride + x * 4 + w * 4 < 2 ^ 32)
    (hoff : ∀ row < h, srcOffset row = (y + row) * stride + x * 4) :
    Refines (gatherRows c src w h dx dy (w * h * 4) y x stride) (do
      let rgbaBuf ← Slices.forRange 0 h (fun row buf =>
        if srcOffset row + w * 4 ≤ src.length then do
          let line ← slice src (srcOffset row) (srcOffset row + w * 4)
          copyFromSlice buf (row * (w * 4)) (row * (w * 4) + w * 4) line
        else return buf) (Canvas.resizeVec c.rgbaBuf (w * h * 4))
      return { c with rgbaBuf }.putImageData rgbaBuf w h dx dy) := by
  rw [gatherRows]
  refine .reserve fun _ => .mul (by omega) ?_
  refine Refines.bind (refines_forRange fun row buf _ hrow => ?_) fun rgbaBuf _ => refines_pure _
  have hline : (y + row) * stride ≤ (y + (h - 1)) * stride :=
    Nat.mul_le_mul_right stride (by omega)
  have hdst : row * (w * 4) + w * 4 ≤ w * h * 4 := by
    have hrows := Nat.mul_le_mul_right (w * 4) (Nat.succ_le_of_lt hrow)
    rw [Nat.succ_mul, Nat.mul_comm h (w * 4), Nat.mul_right_comm w 4 h] at hrows
    exact hrows
  refine .add (by omega) (.mul (by omega) (.mul (by omega) (.add (by omega) ?_)))
  refine .mul (by omega) (.add (by omega) ?_)
  rw [hoff row hrow]
  split
  · exact .add (by omega) ((refines_lift _).bind fun line _ => refines_lift _)
  · exact refines_pure buf

theorem refines_putRegion (c : Canvas) (src : List UInt8) (dx dy : Nat)
    {sw w h x y : Nat} {contiguous : Bool} {srcOffset : Nat → Nat} (hsw : sw < 2 ^ 16)
    (hh : 0 < h) (hy : y + h < 2 ^ 32) (hregion : w * h * 4 < 2 ^ 32)
    (hlast : (y + (h - 1)) * (sw * 4) + x * 4 + w * 4 < 2 ^ 32)
    (hwhole : contiguous = true → w = sw ∧ x = 0)
    (hoff : ∀ row < h, srcOffset row = (y + row) * (sw * 4) + x * 4) :
    Refines (putRegion c src sw w h dx dy x y contiguous)
      (c.putRegion src w h dx dy contiguous (y * (sw * 4)) srcOffset) := by
  have hgather := refines_gatherRows c src dx dy hregion hy hlast hoff
  rw [putRegion, Canvas.putRegion]
  refine .mul (by omega) (.pure_bind (byteLength_eq hregion) ?_)
  dsimp only
  split
  · rename_i hcontiguous
    obtain ⟨rfl, rfl⟩ := hwhole hcontiguous
    -- the region ends where its last row does
    have hend : y * (w * 4) + w * h * 4 < 2 ^ 32 := by
      obtain ⟨k, rfl⟩ := Nat.exists_eq_succ_of_ne_zero hh.ne'
      rw [Nat.succ_sub_one] at hlast
      calc y * (w * 4) + w * (k + 1) * 4 = (y + k) * (w * 4) + 0 * 4 + w * 4 := by ring
        _ < 2 ^ 32 := hlast
    refine .mul (by omega) (.add hend ?_)
    by_cases hlong : y * (w * 4) + w * h * 4 ≤ src.length
    · rw [if_pos hlong, if_pos ⟨hcontiguous, hlong⟩]
      exact (refines_lift _).bind fun image _ => refines_pure _
    · rw [if_neg hlong, if_neg fun hboth => hlong hboth.2]
      exact hgather
  · rename_i hpart
    rw [if_neg fun hboth => hpart hboth.1]
    exact hgather

/-- The row of a region in the source, counted in a word. -/
theorem toNat_add_row {y : UInt32} {row : Nat} (h : y.toNat + row < 2 ^ 32) :
    (y + UInt32.ofNat row).toNat = y.toNat + row := by
  rw [UInt32.toNat_add, UInt32.toNat_ofNat']
  omega

theorem refines_drawRgba {c : Canvas} {sw sh ox oy : UInt16} {region : InclusiveRectangle}
    (src : List UInt8) (hfit : DrawFits c sw sh ox oy region) :
    Refines (drawRgba c src sw sh ox oy region) (c.drawRgba src sw sh ox oy region) := by
  obtain ⟨⟨hox, hright⟩, hoy, hbottom⟩ := clip_bounds c sw sh ox oy region
  rw [drawRgba_eq_putRegion, drawRgba]
  unfold DrawFits at hfit
  generalize clip c sw sh ox oy region = r at hfit hox hright hoy hbottom ⊢
  dsimp only at hfit hox hright hoy hbottom ⊢
  have hr := region.right.toNat_lt
  have hb := region.bottom.toNat_lt
  split
  · exact refines_pure c
  · rename_i hmeets
    have hx : r.sx0 ≤ r.sx1 := UInt32.not_lt.mp (not_or.mp hmeets).1
    have hy : r.sy0 ≤ r.sy1 := UInt32.not_lt.mp (not_or.mp hmeets).2
    obtain ⟨hregion, hlast⟩ := hfit hx hy
    have hsx := UInt32.le_iff_toNat_le.mp hx
    have hsy := UInt32.le_iff_toNat_le.mp hy
    have hw : (r.sx1 - r.sx0).toNat + 1 = (r.sx1 - r.sx0 + 1).toNat := by
      rw [toNat_extent hsx (by omega), UInt32.toNat_sub_of_le _ _ hx]
    have hh : (r.sy1 - r.sy0).toNat + 1 = (r.sy1 - r.sy0 + 1).toNat := by
      rw [toNat_extent hsy (by omega), UInt32.toNat_sub_of_le _ _ hy]
    have hheight : (r.sy1 - r.sy0 + 1).toNat ≤ 2 ^ 16 := by
      rw [toNat_extent hsy (by omega)]
      omega
    have htop : (r.sy0 - oy.toUInt32).toNat < 2 ^ 16 := by
      rw [toNat_sub_origin hoy]
      omega
    rw [hw, hh] at hregion hlast
    refine .add (by omega) (.add (by omega) ?_)
    rw [hw, hh]
    refine refines_putRegion c src _ _ sw.toNat_lt (by omega) (by omega) hregion hlast
      (fun hwhole => ?_) fun row hrow => ?_
    · obtain ⟨hwidth, hedge⟩ := Bool.and_eq_true_iff.mp hwhole
      rw [beq_iff_eq] at hwidth hedge
      refine ⟨hwidth, ?_⟩
      rw [hedge, UInt32.sub_self]
      rfl
    · rw [toNat_add_row (by omega)]

/-- A rectangle that ends on a surface of this size. On an empty axis its far
edge is at zero, where the saturating subtraction of the source puts it. -/
def EndsOn (sw sh : Nat) (r : InclusiveRectangle) : Prop :=
  r.right.toNat < max sw 1 ∧ r.bottom.toNat < max sh 1

/-- A blit of a rectangle that ends on its surface fits. -/
theorem drawFits_of_endsOn {sw sh : UInt16} {r : InclusiveRectangle}
    (hlen : sw.toNat * sh.toNat * 4 < 2 ^ 31) (hr : EndsOn sw.toNat sh.toNat r)
    (c : Canvas) (ox oy : UInt16) : DrawFits c sw sh ox oy (r.translate ox oy) := by
  obtain ⟨⟨hox, hright⟩, hoy, hbottom⟩ := clip_bounds c sw sh ox oy (r.translate ox oy)
  obtain ⟨hrw, hrh⟩ := hr
  have hsw := sw.toNat_lt
  have hsh := sh.toNat_lt
  have hfarX : (r.translate ox oy).right.toNat ≤ r.right.toNat + ox.toNat := by
    rw [InclusiveRectangle.translate, toNat_saturatingAdd]
    exact Nat.min_le_left ..
  have hfarY : (r.translate ox oy).bottom.toNat ≤ r.bottom.toNat + oy.toNat := by
    rw [InclusiveRectangle.translate, toNat_saturatingAdd]
    exact Nat.min_le_left ..
  unfold DrawFits
  generalize clip c sw sh ox oy (r.translate ox oy) = q at hox hright hoy hbottom ⊢
  dsimp only at hox hright hoy hbottom ⊢
  intro hx hy
  rw [UInt32.toNat_sub_of_le _ _ hx, UInt32.toNat_sub_of_le _ _ hy, toNat_sub_origin hox,
    toNat_sub_origin hoy]
  rw [UInt32.le_iff_toNat_le] at hx hy
  -- on each axis the region ends within the surface, or is one point
  have hcolumns : q.sx0.toNat - ox.toNat + (q.sx1.toNat - q.sx0.toNat + 1) ≤ max sw.toNat 1 := by
    omega
  have hrows : q.sy0.toNat - oy.toNat + (q.sy1.toNat - q.sy0.toNat + 1) ≤ max sh.toNat 1 := by
    omega
  generalize q.sx0.toNat - ox.toNat = x at hcolumns ⊢
  generalize q.sx1.toNat - q.sx0.toNat + 1 = w at hcolumns ⊢
  generalize q.sy0.toNat - oy.toNat = y at hrows ⊢
  generalize hh : q.sy1.toNat - q.sy0.toNat + 1 = h at hrows ⊢
  have harea : max sw.toNat 1 * max sh.toNat 1 * 4 < 2 ^ 32 := by
    rcases Nat.eq_zero_or_pos sw.toNat with hzero | hpos
    · rw [hzero, Nat.max_eq_right (Nat.zero_le 1), Nat.one_mul]
      omega
    · rcases Nat.eq_zero_or_pos sh.toNat with hzero | hpos'
      · rw [hzero, Nat.max_eq_right (Nat.zero_le 1), Nat.mul_one]
        omega
      · rw [Nat.max_eq_left hpos, Nat.max_eq_left hpos']
        omega
  have hregion : w * h ≤ max sw.toNat 1 * max sh.toNat 1 := Nat.mul_le_mul (by omega) (by omega)
  have hlast : (y + (h - 1)) * max sw.toNat 1 + x + w ≤ max sw.toNat 1 * max sh.toNat 1 :=
    rowMajor_run_le (by omega) hcolumns
  have hline : (y + (h - 1)) * sw.toNat ≤ (y + (h - 1)) * max sw.toNat 1 :=
    Nat.mul_le_mul_left _ (Nat.le_max_left ..)
  rw [← Nat.mul_assoc]
  omega

theorem drawFits_congr {c c' : Canvas} {sw sh ox oy : UInt16} {region : InclusiveRectangle}
    (hframe : c.SameFrame c') (hfit : DrawFits c sw sh ox oy region) :
    DrawFits c' sw sh ox oy region := by
  have hclip : clip c' sw sh ox oy region = clip c sw sh ox oy region := by
    obtain ⟨hoX, hoY, hwidth, hheight⟩ := hframe
    simp only [clip, hoX, hoY, hwidth, hheight]
  unfold DrawFits
  rw [hclip]
  exact hfit

/-- Every blit of the rectangles fits. -/
def BlitsFit (canvases : List Canvas) (sw sh ox oy : UInt16)
    (rects : List InclusiveRectangle) : Prop :=
  ∀ c ∈ canvases, ∀ r ∈ rects, DrawFits c sw sh ox oy (r.translate ox oy)

/-- Drawing on the canvases leaves their frames. -/
theorem blitsFit_of_mapM {canvases canvases' : List Canvas} {fb : List UInt8}
    {sw sh ox oy : UInt16} {region : InclusiveRectangle} {rects : List InclusiveRectangle}
    (hfit : BlitsFit canvases sw sh ox oy rects)
    (hdraw : canvases.mapM (fun c => c.drawRgba fb sw sh ox oy region) = .ok canvases') :
    BlitsFit canvases' sw sh ox oy rects := by
  have hframes : List.Forall₂ Canvas.SameFrame canvases canvases' :=
    Returns.of_eq (returns_mapM (R := Eq) (S := Canvas.SameFrame)
      (fun c c' heq => heq ▸ c.returns_drawRgba fb sw sh ox oy region)
      (List.forall₂_same.mpr fun c _ => rfl)) hdraw
  intro c' hc' r hr
  obtain ⟨c, hc, hframe⟩ := exists_of_forall₂ hframes c' hc'
  exact drawFits_congr hframe (hfit c hc r hr)

theorem refines_blitRects {canvases : List Canvas} {sw sh ox oy : UInt16}
    {rects : List InclusiveRectangle} (fb : List UInt8)
    (hfit : BlitsFit canvases sw sh ox oy rects) :
    Refines (blitRects canvases fb sw sh ox oy rects)
      (WasmRdp.blitRects canvases fb sw sh ox oy rects) := by
  refine refines_foldlM (fun s : List Canvas × Bool => BlitsFit s.1 sw sh ox oy rects) hfit ?_ ?_
  · rintro r hr ⟨cs, painted⟩ hcs
    exact (refines_mapM fun c hc => refines_drawRgba fb (hcs c hc r hr)).bind
      fun cs' _ => refines_pure _
  · rintro r hr ⟨cs, painted⟩ s' hcs hstep
    obtain ⟨cs', hdraw, hret⟩ := bind_eq_ok hstep
    obtain rfl := Except.ok.inj hret
    exact blitsFit_of_mapM hcs hdraw

end WasmRdp.Gfx32
