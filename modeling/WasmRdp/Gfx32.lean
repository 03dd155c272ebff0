import WasmRdp.GfxHandler
import WasmRdp.Lib.Word32

/-!
# The EGFX handler on the 32-bit target

The callbacks of `WasmGfxHandler` and `Canvas::draw_rgba` once more, as the
release build for wasm32 computes them: every product and sum that makes the
length of a buffer or an offset into one is a word of 32 bits, and a buffer of
half the address space is refused. What has no such arithmetic is `lift`ed
from the handler on unbounded sizes.

A computation here is a `Comp`: its value, and whether a sum or a product has
wrapped on the way. The flag is there to be able to say that nothing wrapped;
the value is what the build gives in either case, also after a wrap, when
lengths and offsets are short by a multiple of 2^32.

The offsets of the source come in three shapes, `pixelOffset`, `rowOffset` and
`byteLength`, with the additions and multiplications in the order in which the
source writes them. The definitions otherwise repeat `GfxHandler` loop by loop
and under its names, so that each is compared with its twin in `Gfx32Loops`
and each callback in `Gfx32Run`.
-/

namespace WasmRdp.Gfx32

open Slices Word32

/-! ## Offsets -/

/-- `(y * sw + x) * 4` -/
def pixelOffset (y sw x : Nat) : Comp Nat := do
  let line ← mul y sw
  let px ← add line x
  mul px 4

/-- `((y + row) * sw + x) * 4` -/
def rowOffset (y row sw x : Nat) : Comp Nat := do
  let sy ← add y row
  pixelOffset sy sw x

/-- `w * h * 4` -/
def byteLength (w h : Nat) : Comp Nat := do
  let area ← mul w h
  mul area 4

/-- `dst[d..d + w * 4].copy_from_slice(&src[s..s + w * 4])` in every row of a
block, with the offsets of the row. -/
def copyRows (h w : Nat) (dOff sOff : Nat → Comp Nat) (src dst : List UInt8) :
    Comp (List UInt8) :=
  forRange 0 h (fun row buf => do
    let s ← sOff row
    let d ← dOff row
    let rowBytes ← mul w 4
    let sEnd ← add s rowBytes
    let dEnd ← add d rowBytes
    let line ← lift (slice src s sEnd)
    lift (copyFromSlice buf d dEnd line)) dst

/-! ## `Canvas::draw_rgba` -/

/-- What is left of a region, as its inclusive edges. -/
structure Clipped where
  sx0 : UInt32
  sy0 : UInt32
  sx1 : UInt32
  sy1 : UInt32

/-- The region inside the canvas and the source. -/
def clip (c : Canvas) (srcWidth srcHeight srcOriginX srcOriginY : UInt16)
    (region : InclusiveRectangle) : Clipped :=
  let surfLeft := c.originX.toUInt32
  let surfTop := c.originY.toUInt32
  let surfRight := surfLeft + c.width.toUInt32 - 1
  let surfBottom := surfTop + c.height.toUInt32 - 1
  let srcLeft := srcOriginX.toUInt32
  let srcTop := srcOriginY.toUInt32
  let srcRight := srcLeft + srcWidth.toUInt32 - 1
  let srcBottom := srcTop + srcHeight.toUInt32 - 1
  { sx0 := max (max region.left.toUInt32 surfLeft) srcLeft
    sy0 := max (max region.top.toUInt32 surfTop) srcTop
    sx1 := min (min region.right.toUInt32 surfRight) srcRight
    sy1 := min (min region.bottom.toUInt32 surfBottom) srcBottom }

/-- The row-by-row path: the region goes through the scratch buffer. -/
def gatherRows (c : Canvas) (src : List UInt8) (w h dx dy regionBytes y x stride : Nat) :
    Comp Canvas := do
  reserve regionBytes
  let rowBytes ← mul w 4
  let rgbaBuf ← forRange 0 h (fun row buf => do
    let sy ← add y row
    let line ← mul sy stride
    let left ← mul x 4
    let srcOffset ← add line left
    let dstOffset ← mul row rowBytes
    let srcEnd ← add srcOffset rowBytes
    if srcEnd ≤ src.length then do
      let dstEnd ← add dstOffset rowBytes
      let bytes ← lift (slice src srcOffset srcEnd)
      lift (copyFromSlice buf dstOffset dstEnd bytes)
    else return buf) (Canvas.resizeVec c.rgbaBuf regionBytes)
  return { c with rgbaBuf }.putImageData rgbaBuf w h dx dy

/-- The second half of `draw_rgba`: a region of `w × h` pixels, at `(x, y)` of
the source, goes to `(dx, dy)`. -/
def putRegion (c : Canvas) (src : List UInt8) (srcWidth w h dx dy x y : Nat)
    (contiguous : Bool) : Comp Canvas := do
  let stride ← mul srcWidth 4
  let regionBytes ← byteLength w h
  if contiguous then do
    let srcStart ← mul y stride
    let srcEnd ← add srcStart regionBytes
    if srcEnd ≤ src.length then do
      let image ← lift (slice src srcStart srcEnd)
      return c.putImageData image w h dx dy
    else gatherRows c src w h dx dy regionBytes y x stride
  else gatherRows c src w h dx dy regionBytes y x stride

def drawRgba (c : Canvas) (src : List UInt8) (srcWidth srcHeight srcOriginX
    srcOriginY : UInt16) (region : InclusiveRectangle) : Comp Canvas :=
  let r := clip c srcWidth srcHeight srcOriginX srcOriginY region
  if r.sx0 > r.sx1 ∨ r.sy0 > r.sy1 then return c
  else do
    let w ← add (r.sx1 - r.sx0).toNat 1
    let h ← add (r.sy1 - r.sy0).toNat 1
    let dx := (r.sx0 - c.originX.toUInt32).toNat
    let dy := (r.sy0 - c.originY.toUInt32).toNat
    let x := (r.sx0 - srcOriginX.toUInt32).toNat
    let y := (r.sy0 - srcOriginY.toUInt32).toNat
    putRegion c src srcWidth.toNat w h dx dy x y
      (w == srcWidth.toNat && r.sx0 == srcOriginX.toUInt32)

/-- `blit_rects` -/
def blitRects (canvases : List Canvas) (fb : List UInt8) (sw sh ox oy : UInt16)
    (rects : List InclusiveRectangle) : Comp (List Canvas × Bool) :=
  rects.foldlM (fun (canvases, painted) r => do
    let canvases' ← canvases.mapM fun canvas =>
      drawRgba canvas fb sw sh ox oy (r.translate ox oy)
    return (canvases', painted || !canvases'.isEmpty)) (canvases, false)

/-! ## Pixel loops -/

/-- The body of `on_solid_fill` for one rectangle. -/
def fillRect (sw sh : Nat) (rgba : List UInt8) :
    List UInt8 × List InclusiveRectangle → InclusiveRectangle →
    Comp (List UInt8 × List InclusiveRectangle)
  | (fb, dirty), rect =>
    let x0 := min rect.left.toNat sw
    let y0 := min rect.top.toNat sh
    let x1 := min rect.right.toNat sw
    let y1 := min rect.bottom.toNat sh
    if x1 ≤ x0 ∨ y1 ≤ y0 then return (fb, dirty)
    else do
      let fb ← forRange y0 y1 (fun y fb => do
        let row ← byteLength y sw
        forRange x0 x1 (fun x fb => do
          let px ← mul x 4
          let off ← add row px
          let offEnd ← add off 4
          lift (copyFromSlice fb off offEnd rgba)) fb) fb
      let right ← lift (sub x1 1)
      let bottom ← lift (sub y1 1)
      return (fb, dirty ++ [⟨.ofNat x0, .ofNat y0, .ofNat right, .ofNat bottom⟩])

/-- A saved block to one destination point. -/
def copyToPoint (sw sh : Nat) (block : List UInt8) (cw ch : Nat) :
    List UInt8 × List InclusiveRectangle → Point →
    Comp (List UInt8 × List InclusiveRectangle)
  | (fb, dirty), p =>
    let dx := p.x.toNat
    let dy := p.y.toNat
    let w := min cw (sw - dx)
    let h := min ch (sh - dy)
    if w = 0 ∨ h = 0 then return (fb, dirty)
    else do
      let fb ← copyRows h w (fun row => rowOffset dy row sw dx)
        (fun row => byteLength row cw) block fb
      let pastRight ← add dx w
      let right ← lift (sub pastRight 1)
      let pastBottom ← add dy h
      let bottom ← lift (sub pastBottom 1)
      return (fb, dirty ++ [⟨.ofNat dx, .ofNat dy, .ofNat right, .ofNat bottom⟩])

def copyToPoints (sw sh : Nat) (block : List UInt8) (cw ch : Nat) (points : List Point)
    (fb : List UInt8) : Comp (List UInt8 × List InclusiveRectangle) :=
  points.foldlM (copyToPoint sw sh block cw ch) (fb, [])

/-- One row of a tile in `on_bitmap_updated`, at `sy` of the surface. -/
def copyTileRow (data : List UInt8) (w cw dx sw row sy : Nat) (fb : List UInt8) :
    Comp (List UInt8) := do
  let srcOff ← byteLength row w
  let dstOff ← pixelOffset sy sw dx
  let rowBytes ← mul cw 4
  let srcEnd ← add srcOff rowBytes
  if srcEnd ≤ data.length then do
    let dstEnd ← add dstOff rowBytes
    if dstEnd ≤ fb.length then do
      let line ← lift (slice data srcOff srcEnd)
      lift (copyFromSlice fb dstOff dstEnd line)
    else return fb
  else return fb

/-- The row loop of `on_bitmap_updated`. -/
def copyTileRows (data : List UInt8) (w cw dx dy sw sh : Nat) :
    Nat → Nat → List UInt8 → Comp (List UInt8)
  | 0, _, fb => return fb
  | n + 1, row, fb => do
    let sy ← add dy row
    if sy ≥ sh then return fb
    else do
      let fb ← copyTileRow data w cw dx sw row sy fb
      copyTileRows data w cw dx dy sw sh n (row + 1) fb

/-- One sample of the black-tile probe. -/
def sampleLit (data : List UInt8) (o : Nat) : Comp Bool := do
  let past ← add o 2
  if past < data.length then do
    let r ← lift (index data o)
    if r > 10 then return true
    else do
      let o1 ← add o 1
      let g ← lift (index data o1)
      if g > 10 then return true
      else do
        let o2 ← add o 2
        let b ← lift (index data o2)
        return b > 10
  else return false

/-- The black-tile probe of `on_bitmap_updated`. -/
def isBlackTile (data : List UInt8) (w h : Nat) : Comp Bool := do
  let samples := [4, h / 2, h - 4].flatMap fun sy => [4, w / 2, w - 4].map fun sx => (sy, sx)
  let lit ← samples.anyM fun s => do
    let o ← pixelOffset s.1 w s.2
    sampleLit data o
  return !data.isEmpty && !lit

/-! ## Callbacks -/

variable {D : ProgressiveDecoder}

/-- The common tail of the drawing callbacks. -/
def present (h : WasmGfxHandler D) (id : UInt16) (s : GfxSurface D)
    (dirty : List InclusiveRectangle) : Comp (WasmGfxHandler D) := do
  let gfx := h.gfx.insert id s
  if s.mapped then
    let (surfaces, painted) ←
      blitRects h.surfaces s.fb s.width s.height s.originX s.originY dirty
    return { h with gfx, surfaces, js := if painted then h.js ++ [.frame] else h.js }
  else return { h with gfx }

/-- `on_surface_created` -/
def onSurfaceCreated (h : WasmGfxHandler D) (surface : Surface) :
    Comp (WasmGfxHandler D) := do
  let w := surface.width
  let ht := surface.height
  let length ← byteLength w.toNat ht.toNat
  let fb ← zeroed length
  return { h with
    gfx := h.gfx.insert surface.id
      { decoder := D.new w ht
        fb
        width := w
        height := ht
        originX := 0
        originY := 0
        mapped := false }
    egfxActive := true }

/-- `on_surface_mapped` -/
def onSurfaceMapped (h : WasmGfxHandler D) (surfaceId : UInt16) (originX originY : UInt32) :
    Comp (WasmGfxHandler D) := do
  match h.gfx.lookup surfaceId with
  | none => return h
  | some s =>
      let s := { s with originX := originX.toUInt16, originY := originY.toUInt16,
                        mapped := true }
      let (surfaces, _) ← blitRects h.surfaces s.fb s.width s.height s.originX s.originY
        [WasmGfxHandler.fullRect s]
      return { h with surfaces, gfx := h.gfx.insert surfaceId s, js := h.js ++ [.frame] }

/-- `on_progressive_data` -/
def onProgressiveData (h : WasmGfxHandler D) (surfaceId : UInt16) (data : List UInt8) :
    Comp (WasmGfxHandler D) := do
  match h.gfx.lookup surfaceId with
  | none => return h
  | some s =>
      let stride ← mul s.width.toNat 4
      let (decoder, fb, update) := D.decode s.decoder data s.fb stride
      let s := { s with decoder, fb }
      match update with
      | none => return { h with gfx := h.gfx.insert surfaceId s }
      | some dirty =>
          let h := { h with videoCodec := .progressive }
          if dirty.isEmpty || !s.mapped then
            return { h with gfx := h.gfx.insert surfaceId s }
          else present h surfaceId s dirty

/-- `read_surface_rect` -/
def readSurfaceRect (h : WasmGfxHandler D) (surfaceId x y width height : UInt16) :
    Comp (Option (List UInt8)) := do
  match h.gfx.lookup surfaceId with
  | none => return none
  | some s =>
      let sw := s.width.toNat
      let sh := s.height.toNat
      let right ← add x.toNat width.toNat
      let bottom ← add y.toNat height.toNat
      if right > sw ∨ bottom > sh then return none
      else do
        let length ← byteLength width.toNat height.toNat
        reserve length
        let out ← forRange 0 height.toNat (fun row out => do
          let off ← rowOffset y.toNat row sw x.toNat
          let rowBytes ← mul width.toNat 4
          let offEnd ← add off rowBytes
          let line ← lift (slice s.fb off offEnd)
          return out ++ line) []
        return some out

/-- `on_bitmap_updated` -/
def onBitmapUpdated (h : WasmGfxHandler D) (update : BitmapUpdate) :
    Comp (WasmGfxHandler D) := do
  match h.gfx.lookup update.surfaceId with
  | none => return h
  | some s =>
      let h := { h with videoCodec := match update.codecId with
        | .planar => .planar
        | .clearCodec => .clear
        | .other => .uncompressed }
      let dx := update.destinationRectangle.left.toNat
      let dy := update.destinationRectangle.top.toNat
      let w := update.width.toNat
      let ht := update.height.toNat
      let sw := s.width.toNat
      let sh := s.height.toNat
      let _isBlack ← isBlackTile update.data w ht
      let cw := min w (sw - dx)
      let fb ← copyTileRows update.data w cw dx dy sw sh ht 0 s.fb
      let right ← add dx w
      let bottom ← add dy ht
      present h update.surfaceId { s with fb }
        [⟨.ofNat dx, .ofNat dy, .ofNat (min right sw - 1), .ofNat (min bottom sh - 1)⟩]

/-- `Session::on_avc420_decoded` -/
def onAvc420Decoded (h : WasmGfxHandler D) (surfaceId : UInt16) (rgba : List UInt8) :
    Comp (WasmGfxHandler D) := do
  match h.gfx.lookup surfaceId with
  | none => return h
  | some s =>
      if rgba.length ≠ s.fb.length then return h
      else do
        let fb ← lift (copyFromSlice s.fb 0 s.fb.length rgba)
        present { h with videoCodec := .avc420 } surfaceId { s with fb }
          [WasmGfxHandler.fullRect s]

/-- `on_solid_fill` -/
def onSolidFill (h : WasmGfxHandler D) (pdu : SolidFillPdu) : Comp (WasmGfxHandler D) := do
  match h.gfx.lookup pdu.surfaceId with
  | none => return h
  | some s =>
      let c := pdu.fillPixel
      let rgba := [c.r, c.g, c.b, 0xFF]
      let (fb, dirty) ← pdu.rectangles.foldlM
        (fillRect s.width.toNat s.height.toNat rgba) (s.fb, [])
      present h pdu.surfaceId { s with fb } dirty

/-- `on_surface_to_surface` -/
def onSurfaceToSurface (h : WasmGfxHandler D) (pdu : SurfaceToSurfacePdu) :
    Comp (WasmGfxHandler D) := do
  let src := pdu.sourceRectangle
  let srcX := src.left.toNat
  let srcY := src.top.toNat
  let rectW := src.right.toNat - srcX
  let rectH := src.bottom.toNat - srcY
  match h.gfx.lookup pdu.sourceSurfaceId with
  | none => return h
  | some srcS =>
      let ssw := srcS.width.toNat
      let ssh := srcS.height.toNat
      let copyW := min rectW (ssw - srcX)
      let copyH := min rectH (ssh - srcY)
      if copyW = 0 ∨ copyH = 0 then return h
      else do
        let length ← byteLength copyW copyH
        let tmp ← zeroed length
        let tmp ← copyRows copyH copyW (fun row => byteLength row copyW)
          (fun row => rowOffset srcY row ssw srcX) srcS.fb tmp
        match h.gfx.lookup pdu.destinationSurfaceId with
        | none => return h
        | some s =>
            let (fb, dirty) ← copyToPoints s.width.toNat s.height.toNat tmp
              copyW copyH pdu.destinationPoints s.fb
            present h pdu.destinationSurfaceId { s with fb } dirty

/-- `on_surface_to_cache` -/
def onSurfaceToCache (h : WasmGfxHandler D) (pdu : SurfaceToCachePdu) :
    Comp (WasmGfxHandler D) := do
  match h.gfx.lookup pdu.surfaceId with
  | none => return h
  | some s =>
      let sw := s.width.toNat
      let sh := s.height.toNat
      let r := pdu.sourceRectangle
      let x0 := min r.left.toNat sw
      let y0 := min r.top.toNat sh
      let x1 := min r.right.toNat sw
      let y1 := min r.bottom.toNat sh
      if x1 ≤ x0 ∨ y1 ≤ y0 then return h
      else do
        let w ← lift (sub x1 x0)
        let ht ← lift (sub y1 y0)
        let length ← byteLength w ht
        let data ← zeroed length
        let data ← copyRows ht w (fun row => byteLength row w)
          (fun row => rowOffset y0 row sw x0) s.fb data
        let slot : CacheSlot := { width := .ofNat w, height := .ofNat ht, data }
        return { h with cache := h.cache.insert pdu.cacheSlot slot }

/-- `on_cache_to_surface` -/
def onCacheToSurface (h : WasmGfxHandler D) (pdu : CacheToSurfacePdu) :
    Comp (WasmGfxHandler D) := do
  match h.cache.lookup pdu.cacheSlot with
  | none => return h
  | some entry =>
      match h.gfx.lookup pdu.surfaceId with
      | none => return h
      | some s =>
          let (fb, dirty) ← copyToPoints s.width.toNat s.height.toNat entry.data
            entry.width.toNat entry.height.toNat pdu.destinationPoints s.fb
          present h pdu.surfaceId { s with fb } dirty

/-- One callback. -/
def step (h : WasmGfxHandler D) : Callback → Comp (WasmGfxHandler D)
  | .surfaceCreated surface => onSurfaceCreated h surface
  | .surfaceMapped id originX originY => onSurfaceMapped h id originX originY
  | .mapSurfaceToScaledOutput pdu =>
      onSurfaceMapped h pdu.surfaceId pdu.outputOriginX pdu.outputOriginY
  | .progressiveData id data => onProgressiveData h id data
  | .readSurfaceRect id x y width height => do
      let _rect ← readSurfaceRect h id x y width height
      return h
  | .bitmapUpdated update => onBitmapUpdated h update
  | .solidFill pdu => onSolidFill h pdu
  | .surfaceToSurface pdu => onSurfaceToSurface h pdu
  | .surfaceToCache pdu => onSurfaceToCache h pdu
  | .cacheToSurface pdu => onCacheToSurface h pdu
  | .avc420Decoded id rgba => onAvc420Decoded h id rgba
  -- no length or offset of pixels (the positions in an access unit are in AnnexB)
  | .resetGraphics width height => lift (h.step (.resetGraphics width height))
  | .surfaceDeleted id => lift (h.step (.surfaceDeleted id))
  | .avc420Raw id originX originY width height data =>
      lift (h.step (.avc420Raw id originX originY width height data))
  | .evictCacheEntry slot => lift (h.step (.evictCacheEntry slot))

end WasmRdp.Gfx32
