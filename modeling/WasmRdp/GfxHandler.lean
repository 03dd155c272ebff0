import Mathlib.Data.Finmap
import WasmRdp.Canvas
import WasmRdp.Lib.Lookups

/-!
# The EGFX handler

`WasmGfxHandler` of `wasm/src/session.rs`: surfaces, the bitmap cache and
every callback of the graphics pipeline, with `Session::on_avc420_decoded`
and `avc_to_annexb`. The cells the source shares with the session
(`surfaces`, `gfx`, `egfx_active`, `video_codec`) are fields here; hash maps
are finite maps. A callback that would abort returns an error.

The definitions follow the source from the inside out. The pixel loops
(`fillRect`, `copyToPoint`, `copyTileRows`) work on a plain buffer with the
checked slices of `Slices`, so an index out of range is an error and not a
default. The callbacks look a surface up, run a loop on its framebuffer and
end in `present`, which puts the surface back and blits its dirty rectangles.
`step` is one callback and `run` a list of them; the states they lead to are
the subject of `GfxInvariant`.

Lengths and offsets are natural numbers here. What the release build computes
on words of 32 bits is `Gfx32`, and when the two agree is said there.

The progressive decoder belongs to the protocol library and is a parameter
`D`; what the code relies on is in `ProgressiveDecoder.KeepsLength` and
`ProgressiveDecoder.Lawful`. Console output and the counters that only
throttle it are not modelled; calls into the page are recorded in `js`.
-/

namespace WasmRdp

open Slices Raster

/-! ## The progressive decoder -/

/-- `ProgressiveDecoder`: its state, and `decode(data, fb, stride)` giving
the next state, the framebuffer left behind and, unless it failed, the
dirty rectangles of the update. -/
structure ProgressiveDecoder where
  State : Type
  new : UInt16 → UInt16 → State
  decode : State → List UInt8 → List UInt8 → Nat →
    State × List UInt8 × Option (List InclusiveRectangle)

/-- The decoder writes into the framebuffer in place. -/
def ProgressiveDecoder.KeepsLength (D : ProgressiveDecoder) : Prop :=
  ∀ st data fb stride, (D.decode st data fb stride).2.1.length = fb.length

/-- The decoder keeps the length of the framebuffer, reports a cover of
every pixel it changed, and changes nothing when it fails. -/
structure ProgressiveDecoder.Lawful (D : ProgressiveDecoder) : Prop where
  keepsLength : D.KeepsLength
  failed : ∀ st data fb stride,
    (D.decode st data fb stride).2.2 = none →
      (D.decode st data fb stride).2.1 = fb
  covered : ∀ st data fb w dirty x y,
    (D.decode st data fb (w * 4)).2.2 = some dirty → x < w →
      pixel (D.decode st data fb (w * 4)).2.1 (y * w + x) ≠
        pixel fb (y * w + x) →
      ∃ r ∈ dirty, r.Covers x y

/-- A decoder that only ever gets malformed data. -/
def ProgressiveDecoder.rejecting : ProgressiveDecoder where
  State := Unit
  new _ _ := ()
  decode _ _ fb _ := ((), fb, none)

theorem ProgressiveDecoder.lawful_rejecting : rejecting.Lawful :=
  ⟨fun _ _ _ _ => rfl, fun _ _ _ _ _ => rfl, fun _ _ _ _ _ _ _ h => nomatch h⟩

/-! ## State -/

/-- Per-surface render state. -/
structure GfxSurface (D : ProgressiveDecoder) where
  decoder : D.State
  /-- RGBA framebuffer of this surface. -/
  fb : List UInt8
  width : UInt16
  height : UInt16
  /-- Surface position within the combined desktop. -/
  originX : UInt16
  originY : UInt16
  /-- Whether this surface is mapped to the output. -/
  mapped : Bool

/-- One bitmap-cache slot. -/
structure CacheSlot where
  width : UInt16
  height : UInt16
  data : List UInt8
  deriving DecidableEq, Repr

/-- Which codec is painting. -/
inductive VideoCodec where
  | rfx
  | progressive
  | planar
  | clear
  | uncompressed
  | avc420
  deriving DecidableEq, Repr

/-- A call into the page. The order of the calls that close the decoders
of several surfaces is a hash map's, so their ids are one set. -/
inductive JsCall where
  | frame
  | desktopResized (width height : UInt16)
  | avc420SurfaceClosed (ids : Finset UInt16)
  | avc420Frame (surfaceId : UInt16) (originX originY : UInt32)
      (width height : UInt16) (isKeyframe : Bool) (data : List UInt8)

structure WasmGfxHandler (D : ProgressiveDecoder) where
  surfaces : List Canvas
  gfx : Finmap fun _ : UInt16 => GfxSurface D
  cache : Finmap fun _ : UInt16 => CacheSlot
  egfxActive : Bool
  videoCodec : VideoCodec
  js : List JsCall

/-! ## PDUs -/

/-- `ironrdp::egfx::client::Surface`. -/
structure Surface where
  id : UInt16
  width : UInt16
  height : UInt16

structure Point where
  x : UInt16
  y : UInt16
  deriving DecidableEq, Repr

inductive Codec1Type where
  | planar
  | clearCodec
  | other
  deriving DecidableEq, Repr

structure BitmapUpdate where
  surfaceId : UInt16
  destinationRectangle : InclusiveRectangle
  codecId : Codec1Type
  width : UInt16
  height : UInt16
  data : List UInt8

structure Color where
  r : UInt8
  g : UInt8
  b : UInt8

structure SolidFillPdu where
  surfaceId : UInt16
  fillPixel : Color
  rectangles : List InclusiveRectangle

structure SurfaceToSurfacePdu where
  sourceSurfaceId : UInt16
  destinationSurfaceId : UInt16
  sourceRectangle : InclusiveRectangle
  destinationPoints : List Point

structure SurfaceToCachePdu where
  surfaceId : UInt16
  cacheSlot : UInt16
  sourceRectangle : InclusiveRectangle

structure CacheToSurfacePdu where
  cacheSlot : UInt16
  surfaceId : UInt16
  destinationPoints : List Point

structure MapSurfaceToScaledOutputPdu where
  surfaceId : UInt16
  outputOriginX : UInt32
  outputOriginY : UInt32

/-! ## Annex B conversion -/

/-- `u32::from_be_bytes`. -/
def fromBeBytes32 (b0 b1 b2 b3 : UInt8) : Nat :=
  ((b0.toNat * 256 + b1.toNat) * 256 + b2.toNat) * 256 + b3.toNat

/-- The loop of `avc_to_annexb` from position `pos`. Positions are
unbounded, so the saturating addition of the source is addition. -/
def avcToAnnexbFrom (out : List UInt8) (isKeyframe : Bool) (pos : Nat) :
    Checked (List UInt8 × Bool) :=
  if pos + 4 ≤ out.length then do
    let b0 ← index out pos
    let b1 ← index out (pos + 1)
    let b2 ← index out (pos + 2)
    let b3 ← index out (pos + 3)
    match _copied : copyFromSlice out pos (pos + 4) [0, 0, 0, 1] with
    | .error e => .error e
    | .ok out' =>
        let nalStart := pos + 4
        let isIdr ← if nalStart < out'.length then do
            let b ← index out' nalStart
            pure (b &&& 0x1F == 5)
          else pure false
        avcToAnnexbFrom out' (isKeyframe || isIdr)
          (nalStart + fromBeBytes32 b0 b1 b2 b3)
  else return (out, isKeyframe)
termination_by out.length - pos
decreasing_by
  have := length_of_copyFromSlice _copied
  omega

/-- `avc_to_annexb`. -/
def avcToAnnexb (data : List UInt8) : Checked (List UInt8 × Bool) :=
  avcToAnnexbFrom data false 0

/-! ## Pixel loops -/

/-- The body of `on_solid_fill` for one rectangle. -/
def fillRect (sw sh : Nat) (rgba : List UInt8) :
    List UInt8 × List InclusiveRectangle → InclusiveRectangle →
    Checked (List UInt8 × List InclusiveRectangle)
  | (fb, dirty), rect =>
    let x0 := min rect.left.toNat sw
    let y0 := min rect.top.toNat sh
    let x1 := min rect.right.toNat sw
    let y1 := min rect.bottom.toNat sh
    if x1 ≤ x0 ∨ y1 ≤ y0 then return (fb, dirty)
    else do
      let fb ← forRange y0 y1 (fun y => forRange x0 x1 (fun x fb =>
        let row := y * sw * 4
        let off := row + x * 4
        copyFromSlice fb off (off + 4) rgba)) fb
      let right ← sub x1 1
      let bottom ← sub y1 1
      return (fb, dirty ++ [⟨.ofNat x0, .ofNat y0, .ofNat right, .ofNat bottom⟩])

/-- The loop body of `on_surface_to_surface` and `on_cache_to_surface`: a
saved block of `cw × ch` pixels to one destination point. -/
def copyToPoint (sw sh : Nat) (block : List UInt8) (cw ch : Nat) :
    List UInt8 × List InclusiveRectangle → Point →
    Checked (List UInt8 × List InclusiveRectangle)
  | (fb, dirty), p =>
    let dx := p.x.toNat
    let dy := p.y.toNat
    let w := min cw (sw - dx)
    let h := min ch (sh - dy)
    if w = 0 ∨ h = 0 then return (fb, dirty)
    else do
      let fb ← copyRows h (w * 4) (fun row => ((dy + row) * sw + dx) * 4)
        (fun row => row * cw * 4) block fb
      let right ← sub (dx + w) 1
      let bottom ← sub (dy + h) 1
      return (fb, dirty ++ [⟨.ofNat dx, .ofNat dy, .ofNat right, .ofNat bottom⟩])

def copyToPoints (sw sh : Nat) (block : List UInt8) (cw ch : Nat)
    (points : List Point) (fb : List UInt8) :
    Checked (List UInt8 × List InclusiveRectangle) :=
  points.foldlM (copyToPoint sw sh block cw ch) (fb, [])

/-- One row of a tile in `on_bitmap_updated`. A row that either buffer is
too short for is skipped. -/
def copyTileRow (data : List UInt8) (w cw dx sw row sy : Nat) (fb : List UInt8) :
    Checked (List UInt8) :=
  let srcOff := row * w * 4
  let dstOff := (sy * sw + dx) * 4
  if srcOff + cw * 4 ≤ data.length ∧ dstOff + cw * 4 ≤ fb.length then do
    let line ← slice data srcOff (srcOff + cw * 4)
    copyFromSlice fb dstOff (dstOff + cw * 4) line
  else return fb

/-- The row loop of `on_bitmap_updated`, `n` rows from `row` on. It breaks
at the bottom edge. -/
def copyTileRows (data : List UInt8) (w cw dx dy sw sh : Nat) :
    Nat → Nat → List UInt8 → Checked (List UInt8)
  | 0, _, fb => return fb
  | n + 1, row, fb =>
    let sy := dy + row
    if sy ≥ sh then return fb
    else do
      let fb ← copyTileRow data w cw dx sw row sy fb
      copyTileRows data w cw dx dy sw sh n (row + 1) fb

/-- One sample of the black-tile probe: some channel above the threshold. -/
def sampleLit (data : List UInt8) (o : Nat) : Checked Bool := do
  if o + 2 < data.length then
    let r ← index data o
    if r > 10 then return true
    let g ← index data (o + 1)
    if g > 10 then return true
    let b ← index data (o + 2)
    return b > 10
  else return false

/-- The black-tile probe of `on_bitmap_updated`; its result is only logged. -/
def isBlackTile (data : List UInt8) (w h : Nat) : Checked Bool := do
  let samples := [4, h / 2, h - 4].flatMap fun sy =>
    [4, w / 2, w - 4].map fun sx => (sy * w + sx) * 4
  let lit ← samples.anyM (sampleLit data)
  return !data.isEmpty && !lit

namespace WasmGfxHandler

variable {D : ProgressiveDecoder}

/-! ## Callbacks -/

/-- The rectangle that covers a whole surface. -/
def fullRect (s : GfxSurface D) : InclusiveRectangle :=
  ⟨0, 0, .ofNat (s.width.toNat - 1), .ofNat (s.height.toNat - 1)⟩

/-- The common tail of the drawing callbacks: the surface goes back into
the map and, if it is mapped, its dirty rectangles to the canvases. -/
def present (h : WasmGfxHandler D) (id : UInt16) (s : GfxSurface D)
    (dirty : List InclusiveRectangle) : Checked (WasmGfxHandler D) := do
  let gfx := h.gfx.insert id s
  if s.mapped then
    let (surfaces, painted) ←
      blitRects h.surfaces s.fb s.width s.height s.originX s.originY dirty
    return { h with gfx, surfaces,
                    js := if painted then h.js ++ [.frame] else h.js }
  else return { h with gfx }

/-- `on_reset_graphics`. -/
def onResetGraphics (h : WasmGfxHandler D) (width height : UInt32) :
    WasmGfxHandler D :=
  let w := UInt16.ofNat (min width.toNat 65535)
  let ht := UInt16.ofNat (min height.toNat 65535)
  { h with
    surfaces := match h.surfaces with
      | [canvas] => [canvas.resize w ht]
      | canvases => canvases
    gfx := ∅
    egfxActive := false
    js := h.js ++ [.desktopResized w ht, .avc420SurfaceClosed h.gfx.keys] }

/-- `on_surface_created`. -/
def onSurfaceCreated (h : WasmGfxHandler D) (surface : Surface) :
    WasmGfxHandler D :=
  let w := surface.width
  let ht := surface.height
  { h with
    gfx := h.gfx.insert surface.id
      { decoder := D.new w ht
        fb := List.replicate (w.toNat * ht.toNat * 4) 0
        width := w
        height := ht
        originX := 0
        originY := 0
        mapped := false }
    egfxActive := true }

/-- `on_surface_deleted`. -/
def onSurfaceDeleted (h : WasmGfxHandler D) (surfaceId : UInt16) :
    WasmGfxHandler D :=
  let gfx := h.gfx.erase surfaceId
  let remaining := gfx.keys.card
  { h with
    gfx
    egfxActive := if remaining = 0 then false else h.egfxActive
    js := h.js ++ [.avc420SurfaceClosed {surfaceId}] }

/-- `on_surface_mapped`. -/
def onSurfaceMapped (h : WasmGfxHandler D) (surfaceId : UInt16)
    (originX originY : UInt32) : Checked (WasmGfxHandler D) := do
  match h.gfx.lookup surfaceId with
  | none => return h
  | some s =>
      let s := { s with originX := originX.toUInt16, originY := originY.toUInt16,
                        mapped := true }
      let (surfaces, _) ← blitRects h.surfaces s.fb s.width s.height s.originX
        s.originY [fullRect s]
      return { h with surfaces, gfx := h.gfx.insert surfaceId s,
                      js := h.js ++ [.frame] }

/-- `on_map_surface_to_scaled_output`: rendered unscaled. -/
def onMapSurfaceToScaledOutput (h : WasmGfxHandler D)
    (pdu : MapSurfaceToScaledOutputPdu) : Checked (WasmGfxHandler D) :=
  h.onSurfaceMapped pdu.surfaceId pdu.outputOriginX pdu.outputOriginY

/-- `on_progressive_data`. -/
def onProgressiveData (h : WasmGfxHandler D) (surfaceId : UInt16)
    (data : List UInt8) : Checked (WasmGfxHandler D) := do
  match h.gfx.lookup surfaceId with
  | none => return h
  | some s =>
      let stride := s.width.toNat * 4
      let (decoder, fb, update) := D.decode s.decoder data s.fb stride
      let s := { s with decoder, fb }
      match update with
      | none => return { h with gfx := h.gfx.insert surfaceId s }
      | some dirty =>
          let h := { h with videoCodec := .progressive }
          if dirty.isEmpty || !s.mapped then
            return { h with gfx := h.gfx.insert surfaceId s }
          else h.present surfaceId s dirty

/-- `read_surface_rect`. -/
def readSurfaceRect (h : WasmGfxHandler D) (surfaceId x y width height : UInt16) :
    Checked (Option (List UInt8)) := do
  match h.gfx.lookup surfaceId with
  | none => return none
  | some s =>
      let sw := s.width.toNat
      let sh := s.height.toNat
      if x.toNat + width.toNat > sw ∨ y.toNat + height.toNat > sh then return none
      else
        let out ← forRange 0 height.toNat (fun row out => do
          let off := ((y.toNat + row) * sw + x.toNat) * 4
          let line ← slice s.fb off (off + width.toNat * 4)
          return out ++ line) []
        return some out

/-- `on_bitmap_updated`. -/
def onBitmapUpdated (h : WasmGfxHandler D) (update : BitmapUpdate) :
    Checked (WasmGfxHandler D) := do
  match h.gfx.lookup update.surfaceId with
  | none => return h
  | some s =>
      let h := { h with videoCodec := match update.codecId with
        | .planar => .planar
        | .clearCodec => .clear
        | .other => .uncompressed }
      let dx := update.destinationRectangle.left.toNat
      let dy := update.destinationRectangle.top.toNat
      let w := update.width.toNat
      let ht := update.height.toNat
      let sw := s.width.toNat
      let sh := s.height.toNat
      let _isBlack ← isBlackTile update.data w ht
      let cw := min w (sw - dx)
      let fb ← copyTileRows update.data w cw dx dy sw sh ht 0 s.fb
      h.present update.surfaceId { s with fb }
        [⟨.ofNat dx, .ofNat dy, .ofNat (min (dx + w) sw - 1),
          .ofNat (min (dy + ht) sh - 1)⟩]

/-- `on_avc420_raw`: the access unit goes to the page's decoder. -/
def onAvc420Raw (h : WasmGfxHandler D) (surfaceId : UInt16)
    (originX originY : UInt32) (width height : UInt16) (data : List UInt8) :
    Checked (WasmGfxHandler D) := do
  let (annexB, isKeyframe) ← avcToAnnexb data
  return { h with js := h.js ++
    [.avc420Frame surfaceId originX originY width height isKeyframe annexB] }

/-- `Session::on_avc420_decoded`: a decoded full-surface frame. -/
def onAvc420Decoded (h : WasmGfxHandler D) (surfaceId : UInt16)
    (rgba : List UInt8) : Checked (WasmGfxHandler D) := do
  match h.gfx.lookup surfaceId with
  | none => return h
  | some s =>
      if rgba.length ≠ s.fb.length then return h
      else
        let fb ← copyFromSlice s.fb 0 s.fb.length rgba
        { h with videoCodec := .avc420 }.present surfaceId { s with fb } [fullRect s]

/-- `on_solid_fill`. -/
def onSolidFill (h : WasmGfxHandler D) (pdu : SolidFillPdu) :
    Checked (WasmGfxHandler D) := do
  match h.gfx.lookup pdu.surfaceId with
  | none => return h
  | some s =>
      let c := pdu.fillPixel
      let rgba := [c.r, c.g, c.b, 0xFF]
      let (fb, dirty) ← pdu.rectangles.foldlM
        (fillRect s.width.toNat s.height.toNat rgba) (s.fb, [])
      h.present pdu.surfaceId { s with fb } dirty

/-- `on_surface_to_surface`. -/
def onSurfaceToSurface (h : WasmGfxHandler D) (pdu : SurfaceToSurfacePdu) :
    Checked (WasmGfxHandler D) := do
  let src := pdu.sourceRectangle
  let srcX := src.left.toNat
  let srcY := src.top.toNat
  let rectW := src.right.toNat - srcX
  let rectH := src.bottom.toNat - srcY
  match h.gfx.lookup pdu.sourceSurfaceId with
  | none => return h
  | some srcS =>
      let ssw := srcS.width.toNat
      let ssh := srcS.height.toNat
      let copyW := min rectW (ssw - srcX)
      let copyH := min rectH (ssh - srcY)
      if copyW = 0 ∨ copyH = 0 then return h
      else
        -- snapshot, so that overlapping copies read the old pixels
        let tmp ← copyRows copyH (copyW * 4) (fun row => row * copyW * 4)
          (fun row => ((srcY + row) * ssw + srcX) * 4) srcS.fb
          (List.replicate (copyW * copyH * 4) 0)
        match h.gfx.lookup pdu.destinationSurfaceId with
        | none => return h
        | some s =>
            let (fb, dirty) ← copyToPoints s.width.toNat s.height.toNat tmp
              copyW copyH pdu.destinationPoints s.fb
            h.present pdu.destinationSurfaceId { s with fb } dirty

/-- `on_surface_to_cache`. -/
def onSurfaceToCache (h : WasmGfxHandler D) (pdu : SurfaceToCachePdu) :
    Checked (WasmGfxHandler D) := do
  match h.gfx.lookup pdu.surfaceId with
  | none => return h
  | some s =>
      let sw := s.width.toNat
      let sh := s.height.toNat
      let r := pdu.sourceRectangle
      let x0 := min r.left.toNat sw
      let y0 := min r.top.toNat sh
      let x1 := min r.right.toNat sw
      let y1 := min r.bottom.toNat sh
      if x1 ≤ x0 ∨ y1 ≤ y0 then return h
      else
        let w ← sub x1 x0
        let ht ← sub y1 y0
        let data ← copyRows ht (w * 4) (fun row => row * w * 4)
          (fun row => ((y0 + row) * sw + x0) * 4) s.fb
          (List.replicate (w * ht * 4) 0)
        let slot : CacheSlot := { width := .ofNat w, height := .ofNat ht, data }
        return { h with cache := h.cache.insert pdu.cacheSlot slot }

/-- `on_cache_to_surface`. -/
def onCacheToSurface (h : WasmGfxHandler D) (pdu : CacheToSurfacePdu) :
    Checked (WasmGfxHandler D) := do
  match h.cache.lookup pdu.cacheSlot with
  | none => return h
  | some entry =>
      match h.gfx.lookup pdu.surfaceId with
      | none => return h
      | some s =>
          let (fb, dirty) ← copyToPoints s.width.toNat s.height.toNat entry.data
            entry.width.toNat entry.height.toNat pdu.destinationPoints s.fb
          h.present pdu.surfaceId { s with fb } dirty

/-- `on_evict_cache_entry`. -/
def onEvictCacheEntry (h : WasmGfxHandler D) (cacheSlot : UInt16) :
    WasmGfxHandler D :=
  { h with cache := h.cache.erase cacheSlot }

/-- `on_close`. -/
def onClose (h : WasmGfxHandler D) : WasmGfxHandler D := h

/-- `WasmGfxHandler::new` over the session's shared cells. -/
def new (surfaces : List Canvas) (gfx : Finmap fun _ : UInt16 => GfxSurface D)
    (egfxActive : Bool) (videoCodec : VideoCodec) (js : List JsCall) :
    WasmGfxHandler D :=
  { surfaces, gfx, cache := ∅, egfxActive, videoCodec, js }

end WasmGfxHandler

/-! ## Runs -/

/-- A call of the graphics pipeline into the handler, or of the page into
the session. -/
inductive Callback where
  | resetGraphics (width height : UInt32)
  | surfaceCreated (surface : Surface)
  | surfaceDeleted (surfaceId : UInt16)
  | surfaceMapped (surfaceId : UInt16) (originX originY : UInt32)
  | mapSurfaceToScaledOutput (pdu : MapSurfaceToScaledOutputPdu)
  | progressiveData (surfaceId : UInt16) (data : List UInt8)
  | readSurfaceRect (surfaceId x y width height : UInt16)
  | bitmapUpdated (update : BitmapUpdate)
  | avc420Raw (surfaceId : UInt16) (originX originY : UInt32)
      (width height : UInt16) (data : List UInt8)
  | solidFill (pdu : SolidFillPdu)
  | surfaceToSurface (pdu : SurfaceToSurfacePdu)
  | surfaceToCache (pdu : SurfaceToCachePdu)
  | cacheToSurface (pdu : CacheToSurfacePdu)
  | evictCacheEntry (cacheSlot : UInt16)
  | avc420Decoded (surfaceId : UInt16) (rgba : List UInt8)

namespace WasmGfxHandler

variable {D : ProgressiveDecoder}

/-- One callback. -/
def step (h : WasmGfxHandler D) : Callback → Checked (WasmGfxHandler D)
  | .resetGraphics width height => return h.onResetGraphics width height
  | .surfaceCreated surface => return h.onSurfaceCreated surface
  | .surfaceDeleted id => return h.onSurfaceDeleted id
  | .surfaceMapped id originX originY => h.onSurfaceMapped id originX originY
  | .mapSurfaceToScaledOutput pdu => h.onMapSurfaceToScaledOutput pdu
  | .progressiveData id data => h.onProgressiveData id data
  | .readSurfaceRect id x y width height => do
      let _rect ← h.readSurfaceRect id x y width height
      return h
  | .bitmapUpdated update => h.onBitmapUpdated update
  | .avc420Raw id originX originY width height data =>
      h.onAvc420Raw id originX originY width height data
  | .solidFill pdu => h.onSolidFill pdu
  | .surfaceToSurface pdu => h.onSurfaceToSurface pdu
  | .surfaceToCache pdu => h.onSurfaceToCache pdu
  | .cacheToSurface pdu => h.onCacheToSurface pdu
  | .evictCacheEntry slot => return h.onEvictCacheEntry slot
  | .avc420Decoded id rgba => h.onAvc420Decoded id rgba

/-- A finite run of callbacks. -/
def run (h : WasmGfxHandler D) (cbs : List Callback) :
    Checked (WasmGfxHandler D) :=
  cbs.foldlM step h

end WasmGfxHandler

end WasmRdp
