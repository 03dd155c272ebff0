import WasmRdp.Gfx32Loops
import WasmRdp.GfxInvariant
import WasmRdp.Lib.Runs

/-!
# Runs on the 32-bit target

Where the products of a callback fit (`Fits`), the handler of the 32-bit
target does what the handler on unbounded sizes does, or is refused a buffer
(`refines_step`). A run whose callbacks all fit stays within the states of
that handler, and every framebuffer has the length that its dimensions say
(`sizesHold_of_fits`).

For most callbacks nothing has to be asked. A framebuffer that was granted is
shorter than half the address space, so every surface and every slot is
`Small` (`length_of_created`, `Small.step`), and the products of a fill, a
copy or a cache order are bounded by those of the surfaces. The rectangles
that these report end on the surface (`endsOn_fillRect`,
`endsOn_copyToPoint`), so that their blits fit as well. `Fits` speaks of the
three that are left: the length of a new surface, the rows and the probe of a
tile, and the blits of what a progressive update reports.

A run is in `Within` as long as it is also one of the other handler, or has
stopped at a refused buffer. Each event keeps that (`within_advance`), and
exactness is then read off the reachable states of `GfxInvariant`. Without
`Fits` it fails at once: a surface of 32768 by 32768 pixels has a length that
wraps to zero (`not_sizesHold`).
-/

namespace WasmRdp.Gfx32

open Slices Raster Word32

variable {D : ProgressiveDecoder}

/-! ## What is painted ends on the surface -/

theorem endsOn_ofNat {sw sh x0 y0 x1 y1 : Nat} (hx : x1 < max sw 1) (hy : y1 < max sh 1) :
    EndsOn sw sh ⟨.ofNat x0, .ofNat y0, .ofNat x1, .ofNat y1⟩ := by
  unfold EndsOn
  rw [UInt16.toNat_ofNat', UInt16.toNat_ofNat']
  omega

theorem endsOn_fullRect (s : GfxSurface D) :
    EndsOn s.width.toNat s.height.toNat (WasmGfxHandler.fullRect s) :=
  endsOn_ofNat (by omega) (by omega)

theorem endsOn_concat {sw sh : Nat} {dirty : List InclusiveRectangle} {r : InclusiveRectangle}
    (hdirty : ∀ q ∈ dirty, EndsOn sw sh q) (hr : EndsOn sw sh r) :
    ∀ q ∈ dirty ++ [r], EndsOn sw sh q := by
  intro q hq
  rcases List.mem_append.mp hq with hq | hq
  · exact hdirty q hq
  · rwa [List.mem_singleton.mp hq]

theorem endsOn_fillRect {sw sh : Nat} {rgba : List UInt8} (rect : InclusiveRectangle)
    (out out' : List UInt8 × List InclusiveRectangle)
    (hout : ∀ r ∈ out.2, EndsOn sw sh r)
    (hrun : WasmRdp.fillRect sw sh rgba out rect = .ok out') :
    ∀ r ∈ out'.2, EndsOn sw sh r := by
  obtain ⟨fb, dirty⟩ := out
  rw [WasmRdp.fillRect] at hrun
  dsimp only at hrun
  split at hrun
  · obtain rfl := Except.ok.inj hrun
    exact hout
  · obtain ⟨fb', -, hrun⟩ := bind_eq_ok hrun
    rw [sub_eq_ok (by omega), sub_eq_ok (by omega)] at hrun
    obtain rfl := Except.ok.inj hrun
    exact endsOn_concat hout (endsOn_ofNat (by omega) (by omega))

theorem endsOn_copyToPoint {sw sh cw ch : Nat} {block : List UInt8} (p : Point)
    (out out' : List UInt8 × List InclusiveRectangle)
    (hout : ∀ r ∈ out.2, EndsOn sw sh r)
    (hrun : WasmRdp.copyToPoint sw sh block cw ch out p = .ok out') :
    ∀ r ∈ out'.2, EndsOn sw sh r := by
  obtain ⟨fb, dirty⟩ := out
  rw [WasmRdp.copyToPoint] at hrun
  split at hrun
  · obtain rfl := Except.ok.inj hrun
    exact hout
  · obtain ⟨fb', -, hrun⟩ := bind_eq_ok hrun
    rw [sub_eq_ok (by omega), sub_eq_ok (by omega)] at hrun
    obtain rfl := Except.ok.inj hrun
    exact endsOn_concat hout (endsOn_ofNat (by omega) (by omega))

theorem endsOn_nil (sw sh : Nat) : ∀ r ∈ ([] : List InclusiveRectangle), EndsOn sw sh r :=
  fun _ hr => absurd hr List.not_mem_nil

/-! ## Callbacks -/

/-- What the dimensions of every surface and every slot say is less than half
the address space. -/
structure Small (h : WasmGfxHandler D) : Prop where
  fb : ∀ id s, h.gfx.lookup id = some s → s.width.toNat * s.height.toNat * 4 < 2 ^ 31
  slot : ∀ k e, h.cache.lookup k = some e → e.width.toNat * e.height.toNat * 4 < 2 ^ 31

theorem blitsFit_of_endsOn {sw sh : UInt16} {rects : List InclusiveRectangle}
    (hlen : sw.toNat * sh.toNat * 4 < 2 ^ 31)
    (hrects : ∀ r ∈ rects, EndsOn sw.toNat sh.toNat r) (canvases : List Canvas) (ox oy : UInt16) :
    BlitsFit canvases sw sh ox oy rects :=
  fun c _ r hr => drawFits_of_endsOn hlen (hrects r hr) c ox oy

theorem refines_present (h : WasmGfxHandler D) (id : UInt16) {s : GfxSurface D}
    {dirty : List InclusiveRectangle}
    (hfit : s.mapped = true →
      BlitsFit h.surfaces s.width s.height s.originX s.originY dirty) :
    Refines (present h id s dirty) (h.present id s dirty) := by
  rw [present, WasmGfxHandler.present]
  split
  · rename_i hmapped
    refine (refines_blitRects s.fb (hfit hmapped)).bind ?_
    rintro ⟨surfaces, painted⟩ -
    exact refines_pure _
  · exact refines_pure _

variable {h : WasmGfxHandler D}

theorem refines_onSurfaceMapped (hs : Small h) (id : UInt16) (originX originY : UInt32) :
    Refines (onSurfaceMapped h id originX originY) (h.onSurfaceMapped id originX originY) := by
  rw [onSurfaceMapped, WasmGfxHandler.onSurfaceMapped]
  cases hlookup : h.gfx.lookup id with
  | none => exact refines_pure h
  | some s =>
      have hrects : ∀ r ∈ [WasmGfxHandler.fullRect s], EndsOn s.width.toNat s.height.toNat r := by
        intro r hr
        rw [List.mem_singleton.mp hr]
        exact endsOn_fullRect s
      have hfit := blitsFit_of_endsOn (hs.fb _ _ hlookup) hrects h.surfaces originX.toUInt16
        originY.toUInt16
      refine (refines_blitRects s.fb hfit).bind ?_
      rintro ⟨surfaces, painted⟩ -
      exact refines_pure _

theorem refines_onSolidFill (hs : Small h) (pdu : SolidFillPdu) :
    Refines (onSolidFill h pdu) (h.onSolidFill pdu) := by
  rw [onSolidFill, WasmGfxHandler.onSolidFill]
  cases hlookup : h.gfx.lookup pdu.surfaceId with
  | none => exact refines_pure h
  | some s =>
      have hlen := hs.fb _ _ hlookup
      have hfit : s.width.toNat * s.height.toNat * 4 < 2 ^ 32 := by omega
      refine (refines_foldlM (fun _ => True) trivial
        (fun rect _ out _ => refines_fillRect _ hfit out rect)
        fun _ _ _ _ _ _ => trivial).bind ?_
      rintro ⟨fb, dirty⟩ hrun
      refine refines_present h _ fun _ => blitsFit_of_endsOn hlen ?_ _ _ _
      exact inv_of_foldlM (fun out => ∀ r ∈ out.2, EndsOn s.width.toNat s.height.toNat r)
        endsOn_fillRect (endsOn_nil _ _) hrun

/-- Points take a saved block, which then goes to the canvases. -/
theorem refines_stamp {cw ch : Nat} (h : WasmGfxHandler D) (id : UInt16) {s : GfxSurface D}
    (block : List UInt8) (points : List Point)
    (hlen : s.width.toNat * s.height.toNat * 4 < 2 ^ 31) (hblock : cw * ch * 4 < 2 ^ 32) :
    Refines (do
      let (fb, dirty) ← copyToPoints s.width.toNat s.height.toNat block cw ch points s.fb
      present h id { s with fb } dirty)
    (do
      let (fb, dirty) ← WasmRdp.copyToPoints s.width.toNat s.height.toNat block cw ch points s.fb
      h.present id { s with fb } dirty) := by
  refine (refines_copyToPoints block s.width.toNat_lt s.height.toNat_lt (by omega) hblock
    points s.fb).bind ?_
  rintro ⟨fb, dirty⟩ hrun
  refine refines_present h _ fun _ => blitsFit_of_endsOn hlen ?_ _ _ _
  exact inv_of_foldlM (fun out => ∀ r ∈ out.2, EndsOn s.width.toNat s.height.toNat r)
    endsOn_copyToPoint (endsOn_nil _ _) hrun

theorem refines_onCacheToSurface (hs : Small h) (pdu : CacheToSurfacePdu) :
    Refines (onCacheToSurface h pdu) (h.onCacheToSurface pdu) := by
  rw [onCacheToSurface, WasmGfxHandler.onCacheToSurface]
  cases hentry : h.cache.lookup pdu.cacheSlot with
  | none => exact refines_pure h
  | some entry =>
      have hblock := hs.slot _ _ hentry
      cases hlookup : h.gfx.lookup pdu.surfaceId with
      | none => exact refines_pure h
      | some s => exact refines_stamp h _ _ _ (hs.fb _ _ hlookup) (by omega)

theorem refines_onAvc420Decoded (hs : Small h) (id : UInt16) (rgba : List UInt8) :
    Refines (onAvc420Decoded h id rgba) (h.onAvc420Decoded id rgba) := by
  rw [onAvc420Decoded, WasmGfxHandler.onAvc420Decoded]
  cases hlookup : h.gfx.lookup id with
  | none => exact refines_pure h
  | some s =>
      dsimp only
      split
      · exact refines_pure h
      · refine (refines_lift _).bind fun fb _ => refines_present _ _ fun _ => ?_
        refine blitsFit_of_endsOn (hs.fb _ _ hlookup) (fun r hr => ?_) _ _ _
        rw [List.mem_singleton.mp hr]
        exact endsOn_fullRect s

theorem refines_readSurfaceRect (hs : Small h) (id x y width height : UInt16) :
    Refines (readSurfaceRect h id x y width height) (h.readSurfaceRect id x y width height) := by
  rw [readSurfaceRect, WasmGfxHandler.readSurfaceRect]
  cases hlookup : h.gfx.lookup id with
  | none => exact refines_pure none
  | some s =>
      have hlen := hs.fb _ _ hlookup
      have hx := x.toNat_lt
      have hy := y.toNat_lt
      have hw := width.toNat_lt
      have hh := height.toNat_lt
      refine .add (by omega) (.add (by omega) ?_)
      dsimp only
      split
      · exact refines_pure none
      · rename_i hin
        have hregion : width.toNat * height.toNat ≤ s.width.toNat * s.height.toNat :=
          Nat.mul_le_mul (by omega) (by omega)
        refine .pure_bind (byteLength_eq (by omega)) (.reserve fun _ => ?_)
        refine (refines_forRange fun row out _ hrow => ?_).bind fun out _ => refines_pure _
        have hrun : (y.toNat + row) * s.width.toNat + x.toNat + width.toNat ≤
            s.width.toNat * s.height.toNat := rowMajor_run_le (by omega) (by omega)
        refine .pure_bind (rowOffset_eq (by omega) (by omega)) (.mul (by omega) ?_)
        exact .add (by omega) ((refines_lift _).bind fun line _ => refines_pure _)

theorem refines_onSurfaceToSurface (hs : Small h) (pdu : SurfaceToSurfacePdu) :
    Refines (onSurfaceToSurface h pdu) (h.onSurfaceToSurface pdu) := by
  rw [onSurfaceToSurface, WasmGfxHandler.onSurfaceToSurface]
  cases hlookup : h.gfx.lookup pdu.sourceSurfaceId with
  | none => exact refines_pure h
  | some src =>
      have hlen := hs.fb _ _ hlookup
      have hwidth := src.width.toNat_lt
      have hheight := src.height.toNat_lt
      dsimp only
      generalize pdu.sourceRectangle.left.toNat = srcX
      generalize pdu.sourceRectangle.top.toNat = srcY
      generalize hw : min (pdu.sourceRectangle.right.toNat - srcX) (src.width.toNat - srcX) = copyW
      generalize hh : min (pdu.sourceRectangle.bottom.toNat - srcY) (src.height.toNat - srcY) =
        copyH
      split
      · exact refines_pure h
      · have hblock : copyW * copyH ≤ src.width.toNat * src.height.toNat :=
          Nat.mul_le_mul (by omega) (by omega)
        refine .pure_bind (byteLength_eq (by omega)) (.zeroed fun _ => ?_)
        refine Refines.bind (refines_copyRows _ _ (fun row hrow => ?_) fun row hrow => ?_)
          fun tmp _ => ?_
        · have hrun : row * copyW + 0 + copyW ≤ copyW * copyH :=
            rowMajor_run_le hrow (by omega)
          exact ⟨byteLength_eq (by omega), by omega⟩
        · have hrun : (srcY + row) * src.width.toNat + srcX + copyW ≤
              src.width.toNat * src.height.toNat := rowMajor_run_le (by omega) (by omega)
          exact ⟨rowOffset_eq (by omega) (by omega), by omega⟩
        · cases hdest : h.gfx.lookup pdu.destinationSurfaceId with
          | none => exact refines_pure h
          | some s => exact refines_stamp h _ _ _ (hs.fb _ _ hdest) (by omega)

theorem refines_onSurfaceToCache (hs : Small h) (pdu : SurfaceToCachePdu) :
    Refines (onSurfaceToCache h pdu) (h.onSurfaceToCache pdu) := by
  rw [onSurfaceToCache, WasmGfxHandler.onSurfaceToCache]
  cases hlookup : h.gfx.lookup pdu.surfaceId with
  | none => exact refines_pure h
  | some s =>
      have hlen := hs.fb _ _ hlookup
      have hwidth := s.width.toNat_lt
      have hheight := s.height.toNat_lt
      dsimp only
      generalize min pdu.sourceRectangle.left.toNat s.width.toNat = x0
      generalize min pdu.sourceRectangle.top.toNat s.height.toNat = y0
      have hx1 : min pdu.sourceRectangle.right.toNat s.width.toNat ≤ s.width.toNat :=
        Nat.min_le_right ..
      have hy1 : min pdu.sourceRectangle.bottom.toNat s.height.toNat ≤ s.height.toNat :=
        Nat.min_le_right ..
      generalize min pdu.sourceRectangle.right.toNat s.width.toNat = x1 at hx1 ⊢
      generalize min pdu.sourceRectangle.bottom.toNat s.height.toNat = y1 at hy1 ⊢
      split
      · exact refines_pure h
      · rw [sub_eq_ok (by omega), sub_eq_ok (by omega)]
        have hblock : (x1 - x0) * (y1 - y0) ≤ s.width.toNat * s.height.toNat :=
          Nat.mul_le_mul (by omega) (by omega)
        refine .pure_bind rfl (.pure_bind rfl ?_)
        refine .pure_bind (byteLength_eq (by omega)) (.zeroed fun _ => ?_)
        refine Refines.bind (refines_copyRows _ _ (fun row hrow => ?_) fun row hrow => ?_)
          fun data _ => refines_pure _
        · have hrun : row * (x1 - x0) + 0 + (x1 - x0) ≤ (x1 - x0) * (y1 - y0) :=
            rowMajor_run_le hrow (by omega)
          exact ⟨byteLength_eq (by omega), by omega⟩
        · have hrun : (y0 + row) * s.width.toNat + x0 + (x1 - x0) ≤
              s.width.toNat * s.height.toNat := rowMajor_run_le (by omega) (by omega)
          exact ⟨rowOffset_eq (by omega) (by omega), by omega⟩

/-! ## What a callback asks of its numbers -/

/-- The products of a callback lie within the address space: the length of a
new surface, the rows and the probe of a tile, and the blits of what a
progressive update reports. The products of the other callbacks do as long as
those of the surfaces do. -/
def Fits (h : WasmGfxHandler D) : Callback → Prop
  | .surfaceCreated surface => surface.width.toNat * surface.height.toNat * 4 < 2 ^ 32
  | .progressiveData id data => ∀ s dirty, h.gfx.lookup id = some s → s.mapped = true →
      (D.decode s.decoder data s.fb (s.width.toNat * 4)).2.2 = some dirty →
      BlitsFit h.surfaces s.width s.height s.originX s.originY dirty
  | .bitmapUpdated update => ∀ s, h.gfx.lookup update.surfaceId = some s →
      ProbesFit update.data (probes update.width.toNat update.height.toNat) ∧
      RowsFit update.width.toNat
        (min update.width.toNat (s.width.toNat - update.destinationRectangle.left.toNat))
        update.destinationRectangle.top.toNat s.height.toNat update.height.toNat
  | _ => True

theorem refines_onSurfaceCreated {surface : Surface}
    (hfit : surface.width.toNat * surface.height.toNat * 4 < 2 ^ 32) :
    Refines (onSurfaceCreated h surface) (.ok (h.onSurfaceCreated surface)) := by
  rw [onSurfaceCreated]
  exact .pure_bind (byteLength_eq hfit) (.zeroed fun _ => refines_pure _)

theorem refines_onProgressiveData {id : UInt16} {data : List UInt8}
    (hfit : Fits h (.progressiveData id data)) :
    Refines (onProgressiveData h id data) (h.onProgressiveData id data) := by
  rw [onProgressiveData, WasmGfxHandler.onProgressiveData]
  cases hlookup : h.gfx.lookup id with
  | none => exact refines_pure h
  | some s =>
      have hwidth := s.width.toNat_lt
      refine .mul (by omega) ?_
      dsimp only
      cases hdecode : (D.decode s.decoder data s.fb (s.width.toNat * 4)).2.2 with
      | none => exact refines_pure _
      | some dirty =>
          dsimp only
          split
          · exact refines_pure _
          · refine refines_present _ _ fun hmapped => ?_
            exact hfit s dirty hlookup hmapped hdecode

theorem refines_onBitmapUpdated (hs : Small h) {update : BitmapUpdate}
    (hfit : Fits h (.bitmapUpdated update)) :
    Refines (onBitmapUpdated h update) (h.onBitmapUpdated update) := by
  rw [onBitmapUpdated, WasmGfxHandler.onBitmapUpdated]
  cases hlookup : h.gfx.lookup update.surfaceId with
  | none => exact refines_pure h
  | some s =>
      have hlen := hs.fb _ _ hlookup
      obtain ⟨hprobes, hrows⟩ := hfit s hlookup
      have hdx := update.destinationRectangle.left.toNat_lt
      have hdy := update.destinationRectangle.top.toNat_lt
      have hw := update.width.toNat_lt
      have hh := update.height.toNat_lt
      refine (refines_isBlackTile hprobes).bind fun _ _ => ?_
      refine Refines.bind (refines_copyTileRows _ _ hdx hdy (by omega) s.width.toNat_lt hlen
        (by omega) (by rwa [Nat.zero_add])) fun fb _ => ?_
      refine .add (by omega) (.add (by omega) ?_)
      refine refines_present _ _ fun _ => blitsFit_of_endsOn hlen (fun r hr => ?_) _ _ _
      rw [List.mem_singleton.mp hr]
      exact endsOn_ofNat (by omega) (by omega)

theorem refines_step (hs : Small h) {cb : Callback} (hfit : Fits h cb) :
    Refines (step h cb) (h.step cb) := by
  cases cb with
  | resetGraphics | surfaceDeleted | avc420Raw | evictCacheEntry => exact refines_lift _
  | surfaceCreated surface => exact refines_onSurfaceCreated hfit
  | surfaceMapped id originX originY => exact refines_onSurfaceMapped hs ..
  | mapSurfaceToScaledOutput pdu => exact refines_onSurfaceMapped hs ..
  | progressiveData id data => exact refines_onProgressiveData hfit
  | readSurfaceRect id x y width height =>
      exact (refines_readSurfaceRect hs id x y width height).bind fun _ _ => refines_pure h
  | bitmapUpdated update => exact refines_onBitmapUpdated hs hfit
  | solidFill pdu => exact refines_onSolidFill hs pdu
  | surfaceToSurface pdu => exact refines_onSurfaceToSurface hs pdu
  | surfaceToCache pdu => exact refines_onSurfaceToCache hs pdu
  | cacheToSurface pdu => exact refines_onCacheToSurface hs pdu
  | avc420Decoded id rgba => exact refines_onAvc420Decoded hs id rgba

/-! ## Small surfaces stay small -/

variable {h' : WasmGfxHandler D}

theorem Small.insert (hs : Small h) {id : UInt16} {s : GfxSurface D}
    (hlen : s.width.toNat * s.height.toNat * 4 < 2 ^ 31)
    (hgfx : h'.gfx = h.gfx.insert id s) (hcache : h'.cache = h.cache) : Small h' := by
  refine ⟨fun i t ht => ?_, fun k e he => hs.slot k e (by rwa [← hcache])⟩
  rw [hgfx] at ht
  rcases Lookups.of_insert ht with ⟨-, rfl⟩ | ⟨-, ht⟩
  · exact hlen
  · exact hs.fb i t ht

theorem Small.store (hs : Small h) (slot : UInt16) {e : CacheSlot}
    (hlen : e.width.toNat * e.height.toNat * 4 < 2 ^ 31) :
    Small { h with cache := h.cache.insert slot e } := by
  refine ⟨hs.fb, fun k e' hk => ?_⟩
  rcases Lookups.of_insert hk with ⟨-, rfl⟩ | ⟨-, hk⟩
  · exact hlen
  · exact hs.slot k e' hk

/-- A slot takes no more than the surface has. -/
theorem Small.onSurfaceToCache (hs : Small h) {pdu : SurfaceToCachePdu}
    (hrun : h.onSurfaceToCache pdu = .ok h') : Small h' := by
  rw [WasmGfxHandler.onSurfaceToCache] at hrun
  cases hlookup : h.gfx.lookup pdu.surfaceId with
  | none =>
      rw [hlookup] at hrun
      obtain rfl := Except.ok.inj hrun
      exact hs
  | some s =>
      rw [hlookup] at hrun
      have hlen := hs.fb _ _ hlookup
      dsimp only at hrun
      split at hrun
      · obtain rfl := Except.ok.inj hrun
        exact hs
      · rw [sub_eq_ok (by omega), sub_eq_ok (by omega)] at hrun
        obtain ⟨w, hw, hrun⟩ := bind_eq_ok hrun
        obtain ⟨ht, hht, hrun⟩ := bind_eq_ok hrun
        obtain ⟨data, -, hret⟩ := bind_eq_ok hrun
        obtain rfl := Except.ok.inj hw
        obtain rfl := Except.ok.inj hht
        obtain rfl := Except.ok.inj hret
        refine hs.store _ ?_
        dsimp only
        rw [UInt16.toNat_ofNat', UInt16.toNat_ofNat']
        refine Nat.lt_of_le_of_lt (Nat.mul_le_mul_right 4 ?_) hlen
        exact Nat.mul_le_mul ((Nat.mod_le ..).trans (by omega)) ((Nat.mod_le ..).trans (by omega))

theorem Small.deleted (hs : Small h) (id : UInt16) : Small (h.onSurfaceDeleted id) :=
  ⟨fun i s hlookup => hs.fb i s (Lookups.of_erase hlookup).2, hs.slot⟩

theorem Small.evicted (hs : Small h) (slot : UInt16) : Small (h.onEvictCacheEntry slot) :=
  ⟨hs.fb, fun k e hlookup => hs.slot k e (Lookups.of_erase hlookup).2⟩

/-- A surface is created only if its framebuffer is granted. -/
theorem length_of_created {surface : Surface}
    (hfit : surface.width.toNat * surface.height.toNat * 4 < 2 ^ 32)
    (hrun : (onSurfaceCreated h surface).value = .ok h') :
    surface.width.toNat * surface.height.toNat * 4 < 2 ^ 31 := by
  rw [onSurfaceCreated, byteLength_eq hfit, pure_bind, zeroed, bind_assoc] at hrun
  by_contra hlarge
  have herror : (reserve (surface.width.toNat * surface.height.toNat * 4)).value =
      .error .capacity := if_neg hlarge
  rw [Comp.bind_of_error _ herror] at hrun
  cases hrun

theorem Small.step (hs : Small h) {cb : Callback} (hfit : Fits h cb)
    (hrun : (Gfx32.step h cb).value = .ok h') : Small h' := by
  have hexact := (refines_step hs hfit).2 h' hrun
  cases WasmGfxHandler.effect_of_step hexact with
  | reset width height => exact ⟨fun _ _ hlookup => (nomatch hlookup), hs.slot⟩
  | created surface => exact hs.insert (length_of_created hfit hrun) rfl rfl
  | deleted id => exact hs.deleted id
  | evicted slot => exact hs.evicted slot
  | stored pdu e _ => exact hs.onSurfaceToCache hexact
  | idle _ => exact ⟨hs.fb, hs.slot⟩
  | mapped _ hlookup hp =>
      have hlen := hs.fb _ _ hlookup
      exact hs.insert (by exact hlen) hp.gfx hp.cache
  | drawn _ hlookup _ _ hp =>
      have hlen := hs.fb _ _ hlookup
      exact hs.insert (by exact hlen) hp.gfx hp.cache

/-! ## Runs -/

/-- What happens to the handler of a session: a callback, its canvases being
drawn on or replaced, or its channel being opened again. -/
inductive Event where
  | callback (cb : Callback)
  | canvases (surfaces : List Canvas)
  | reopen

/-- The handler after an event, if there still is one. -/
def advance (r : Comp (WasmGfxHandler D)) : Event → Comp (WasmGfxHandler D)
  | .callback cb => do
      let h ← r
      step h cb
  | .canvases surfaces => do
      let h ← r
      return { h with surfaces }
  | .reopen => do
      let h ← r
      return WasmGfxHandler.new h.surfaces h.gfx h.egfxActive h.videoCodec h.js

/-- The handler of a new session. -/
def start (canvases : List Canvas) : Comp (WasmGfxHandler D) :=
  return WasmGfxHandler.new canvases ∅ false .rfx []

/-- No sum and no product has wrapped, and every framebuffer has the length
that its dimensions say. -/
def SizesHold (r : Comp (WasmGfxHandler D)) : Prop :=
  r.wraps = false ∧ ∀ h, r.value = .ok h → ∀ id s, h.gfx.lookup id = some s →
    s.fb.length = s.width.toNat * s.height.toNat * 4

/-- A callback finds a handler whose products it keeps within the address
space. -/
def EventFits (r : Comp (WasmGfxHandler D)) : Event → Prop
  | .callback cb => ∀ h, r.value = .ok h → Fits h cb
  | .canvases _ => True
  | .reopen => True

/-- Within the states of the handler on unbounded sizes. -/
structure Within (r : Comp (WasmGfxHandler D)) : Prop where
  wraps : r.wraps = false
  reachable : ∀ h, r.value = .ok h → h.Reachable
  small : ∀ h, r.value = .ok h → Small h

theorem within_start (canvases : List Canvas) : Within (start (D := D) canvases) := by
  refine ⟨rfl, fun h hh => ?_, fun h hh => ?_⟩
  · obtain rfl := Except.ok.inj hh
    exact .start canvases
  · obtain rfl := Except.ok.inj hh
    exact ⟨fun _ _ hlookup => (nomatch hlookup), fun _ _ hlookup => (nomatch hlookup)⟩

/-- What a handler does next stays within if it does so from every state. -/
theorem Within.bind {r : Comp (WasmGfxHandler D)} (hr : Within r)
    {f : WasmGfxHandler D → Comp (WasmGfxHandler D)}
    (hf : ∀ h, r.value = .ok h → h.Reachable → Small h → Within (f h)) : Within (r >>= f) := by
  cases hvalue : r.value with
  | error e =>
      rw [Comp.bind_of_error f hvalue]
      exact ⟨hr.wraps, fun _ hh => (nomatch hh), fun _ hh => (nomatch hh)⟩
  | ok h =>
      rw [Comp.bind_of_ok f hvalue, hr.wraps]
      have hnext := hf h hvalue (hr.reachable h hvalue) (hr.small h hvalue)
      exact ⟨hnext.wraps, hnext.reachable, hnext.small⟩

theorem within_pure (hr : h.Reachable) (hs : Small h) : Within (pure h) := by
  refine ⟨rfl, fun h' hh => ?_, fun h' hh => ?_⟩
  · rwa [← Except.ok.inj hh]
  · rwa [← Except.ok.inj hh]

theorem within_advance {r : Comp (WasmGfxHandler D)} (hr : Within r) {e : Event}
    (hfit : EventFits r e) : Within (advance r e) := by
  cases e with
  | callback cb =>
      refine hr.bind fun h hh hreach hs => ?_
      have hrefines := refines_step hs (hfit h hh)
      exact ⟨hrefines.1, fun h' hrun => hreach.step cb (hrefines.2 h' hrun),
        fun h' hrun => hs.step (hfit h hh) hrun⟩
  | canvases surfaces =>
      exact hr.bind fun h _ hreach hs =>
        within_pure (hreach.canvases surfaces) ⟨hs.fb, hs.slot⟩
  | reopen =>
      exact hr.bind fun h _ hreach hs =>
        within_pure hreach.reopen ⟨hs.fb, fun _ _ hlookup => (nomatch hlookup)⟩

theorem Within.sizesHold (hD : D.KeepsLength) {r : Comp (WasmGfxHandler D)} (hr : Within r) :
    SizesHold r :=
  ⟨hr.wraps, fun h hh => ((hr.reachable h hh).buffersExact hD).fb⟩

/-- In a run whose callbacks all fit no size wraps, and every framebuffer has
the length that its dimensions say. -/
theorem sizesHold_of_fits (hD : D.KeepsLength) (canvases : List Canvas) {events : List Event}
    (hfit : Runs.Each advance EventFits (start (D := D) canvases) events) :
    Runs.Always advance SizesHold (start (D := D) canvases) events := by
  have hwithin := Runs.always_of_each (p := Within) (fun r e _ hr => within_advance hr)
    (within_start canvases) hfit
  exact fun pre hpre => (hwithin pre hpre).sizesHold hD

/-- A surface, a fill that overlaps it and a tile that does. -/
theorem sizesHold_of_fits_tile :
    Runs.Always advance SizesHold (start (D := .rejecting) [])
      [.callback (.surfaceCreated ⟨7, 2, 1⟩),
        .callback (.solidFill ⟨7, ⟨1, 2, 3⟩, [⟨1, 0, 9, 9⟩]⟩),
        .callback (.bitmapUpdated ⟨7, ⟨0, 0, 1, 1⟩, .planar, 2, 2, [9, 9, 9, 9]⟩)] := by
  refine sizesHold_of_fits ProgressiveDecoder.lawful_rejecting.keepsLength [] ?_
  have hcreated : 2 * 1 * 4 < 2 ^ 32 := by decide
  refine Runs.each_cons.mpr ⟨fun h _ => hcreated, Runs.each_cons.mpr ⟨fun h _ => trivial, ?_⟩⟩
  refine Runs.each_cons.mpr ⟨fun h _ s _ => ⟨probesFit_of_lt (by decide), ?_⟩, Runs.each_nil⟩
  intro row hrow _
  have hrow' : row < 2 := hrow
  have hcut : min 2 (s.width.toNat - 0) ≤ 2 := Nat.min_le_left ..
  have htwo : (2 : UInt16).toNat = 2 := rfl
  have hzero : (0 : UInt16).toNat = 0 := rfl
  dsimp only
  rw [htwo, hzero]
  omega

/-- The length of a surface of 32768 by 32768 pixels wraps to zero. -/
theorem not_sizesHold :
    ¬ Runs.Always advance SizesHold (start (D := .rejecting) [])
        [.callback (.surfaceCreated ⟨1, 32768, 32768⟩)] ∧
      ∃ h s, (onSurfaceCreated (.new [] ∅ false .rfx []) ⟨1, 32768, 32768⟩ :
          Comp (WasmGfxHandler .rejecting)).value = .ok h ∧
        h.gfx.lookup 1 = some s ∧ s.fb.length = 0 ∧
        s.width.toNat * s.height.toNat * 4 = 4294967296 := by
  refine ⟨fun h => ?_, _, _, rfl, Finmap.lookup_insert _, rfl, rfl⟩
  have hsizes := h _ (List.prefix_refl _)
  have hwraps : (advance (start (D := .rejecting) [])
      (.callback (.surfaceCreated ⟨1, 32768, 32768⟩))).wraps = true := rfl
  exact Bool.false_ne_true (hsizes.1.symm.trans hwraps)

end WasmRdp.Gfx32
