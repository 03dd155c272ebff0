import WasmRdp.GfxPresent

/-!
# Compositing refines a pointwise pixel model

What the graphics pipeline is for, without buffers: surfaces and cache
slots are pictures, and a drawing order replaces one picture by a painted
one. `view` reads a handler as such a `Compositor`; in a state with exact
buffers every synchronous drawing order of the handler is the order of the
same name here, and exactness is kept (`compositing_refines`).

The orders are stated pointwise: a fill is one layer over the union of its
rectangles, a tile pixel goes to its corner plus its own coordinates, and a
copy stamps the block as it was before the first point was written. The
handler works rectangle by rectangle and point by point, so two facts join the
sides: `fillPicture_eq`, that filling one after the other fills the union, and
`stampPicture_of_empty`, that a block without pixels does nothing, which is
where the source returns early.

The step from buffers to pictures is `Drawn.view`: a painting that shows `f`
of the old picture draws `f`. For each order it is then enough to name `f` and
to cite the loop's lemma of `GfxPaint`. Orders to a missing surface, and those
that are cut to nothing, are no-ops on both sides (`draw_of_missing`,
`draw_of_id`). A tile has to carry all its data; with less the handler leaves
rows unpainted, which `GfxEffect` covers.
-/

namespace WasmRdp

open Slices Raster

variable {D : ProgressiveDecoder}

/-- The points of a rectangle of a drawing order: its right and bottom
edges are exclusive. -/
abbrev InclusiveRectangle.Contains (r : InclusiveRectangle) (x y : Nat) : Prop :=
  (r.left.toNat ≤ x ∧ x < r.right.toNat) ∧ (r.top.toNat ≤ y ∧ y < r.bottom.toNat)

/-- Surfaces and bitmap cache as pictures. -/
@[ext] structure Compositor where
  surfaces : UInt16 → Option (Picture Rgba)
  slots : UInt16 → Option (Picture Rgba)

namespace Compositor

/-- Replace surface `id`, if there is one; touch nothing else. -/
def draw (c : Compositor) (id : UInt16) (f : Picture Rgba → Picture Rgba) :
    Compositor :=
  { c with surfaces := fun i =>
      if i = id then (c.surfaces i).map f else c.surfaces i }

/-- The points of some rectangles, in one colour. -/
def fillLayer (rects : List InclusiveRectangle) (c : Rgba) : Layer Rgba :=
  fun x y => if ∃ r ∈ rects, r.Contains x y then some c else none

def solidFill (c : Compositor) (pdu : SolidFillPdu) : Compositor :=
  c.draw pdu.surfaceId fun pic => pic.paint (fillLayer pdu.rectangles
    ⟨pdu.fillPixel.r, pdu.fillPixel.g, pdu.fillPixel.b, 255⟩)

/-- Tile pixel `(i, j)` goes to `(left + i, top + j)`. -/
def bitmapUpdated (c : Compositor) (update : BitmapUpdate) : Compositor :=
  c.draw update.surfaceId fun pic => pic.paint (Layer.shift
    (ofBuffer update.data update.width.toNat update.height.toNat).px
    update.destinationRectangle.left.toNat update.destinationRectangle.top.toNat)

/-- The part of a picture under a rectangle. -/
def cropTo (pic : Picture Rgba) (r : InclusiveRectangle) : Picture Rgba :=
  pic.crop r.left.toNat r.top.toNat r.right.toNat r.bottom.toNat

/-- The block that is stamped is the source as it was before. -/
def surfaceToSurface (c : Compositor) (pdu : SurfaceToSurfacePdu) : Compositor :=
  match c.surfaces pdu.sourceSurfaceId with
  | none => c
  | some src => c.draw pdu.destinationSurfaceId
      (stampPicture (cropTo src pdu.sourceRectangle) pdu.destinationPoints)

/-- An empty part is not stored. -/
def surfaceToCache (c : Compositor) (pdu : SurfaceToCachePdu) : Compositor :=
  match c.surfaces pdu.surfaceId with
  | none => c
  | some src =>
      let block := cropTo src pdu.sourceRectangle
      if block.width = 0 ∨ block.height = 0 then c
      else { c with slots := fun k =>
              if k = pdu.cacheSlot then some block else c.slots k }

def cacheToSurface (c : Compositor) (pdu : CacheToSurfacePdu) : Compositor :=
  match c.slots pdu.cacheSlot with
  | none => c
  | some block => c.draw pdu.surfaceId (stampPicture block pdu.destinationPoints)

def evictCacheEntry (c : Compositor) (slot : UInt16) : Compositor :=
  { c with slots := fun k => if k = slot then none else c.slots k }

theorem draw_surfaces_same {c : Compositor} {id : UInt16}
    {f : Picture Rgba → Picture Rgba} {pic : Picture Rgba}
    (h : c.surfaces id = some pic) :
    (c.draw id f).surfaces id = some (f pic) := by
  simp only [draw, if_pos, h, Option.map_some]

theorem draw_surfaces_of_ne {c : Compositor} {id i : UInt16}
    {f : Picture Rgba → Picture Rgba} (h : i ≠ id) :
    (c.draw id f).surfaces i = c.surfaces i := if_neg h

/-- An order to a missing surface does nothing. -/
theorem draw_of_missing {c : Compositor} {id : UInt16}
    {f : Picture Rgba → Picture Rgba} (h : c.surfaces id = none) :
    c.draw id f = c := by
  refine Compositor.ext (funext fun i => ?_) rfl
  simp only [draw]
  split
  · subst i
    rw [h]
    rfl
  · rfl

/-- An order that changes no picture does nothing. -/
theorem draw_of_id {c : Compositor} {id : UInt16}
    {f : Picture Rgba → Picture Rgba} (h : ∀ pic, f pic = pic) :
    c.draw id f = c := by
  refine Compositor.ext (funext fun i => ?_) rfl
  simp only [draw, funext h, Option.map_id', ite_self]

/-- Filling rectangle after rectangle fills their union. -/
theorem fillPicture_eq (rects : List InclusiveRectangle) (c : Rgba)
    (pic : Picture Rgba) :
    fillPicture rects c pic = pic.paint (fillLayer rects c) := by
  induction rects using List.reverseRecOn with
  | nil =>
      refine Picture.ext rfl rfl (funext fun x => funext fun y => ?_)
      rw [Picture.paint_px_of_none (by simp [fillLayer])]
      rfl
  | append_singleton rects r ih =>
      rw [fillPicture, List.foldl_append, List.foldl_cons, List.foldl_nil,
        ← fillPicture, ih]
      refine Picture.ext rfl rfl (funext fun x => funext fun y => ?_)
      simp only [Picture.paint_px, Option.map_map]
      refine congrArg (fun f => (pic.px x y).map f) (funext fun old => ?_)
      simp only [Function.comp_apply, fillLayer, rectLayer, Layer.rect,
        List.mem_append, List.mem_singleton, or_and_right, exists_or,
        exists_eq_left]
      by_cases hr : r.Contains x y
      · rw [if_pos hr, Option.getD_some, if_pos (Or.inr hr), Option.getD_some]
      · rw [if_neg hr, Option.getD_none]
        exact congrArg (fun o => Option.getD o old)
          (if_congr ⟨.inl, fun h => h.resolve_right hr⟩ rfl rfl)

/-- A block with no pixel leaves the picture alone. -/
theorem stampPicture_of_empty {block : Picture Rgba}
    (h : block.width = 0 ∨ block.height = 0) (points : List Point)
    (pic : Picture Rgba) : stampPicture block points pic = pic := by
  have hblank : ∀ x y, block.px x y = none := fun x y =>
    Picture.px_eq_none (by omega)
  induction points generalizing pic with
  | nil => rfl
  | cons p points ih =>
      rw [stampPicture, List.foldl_cons, ← stampPicture, ih]
      refine Picture.ext rfl rfl (funext fun x => funext fun y => ?_)
      refine Picture.paint_px_of_none ?_
      simp only [Layer.shift, hblank, ite_self]

end Compositor

/-! ## The view of a handler -/

def GfxSurface.picture (s : GfxSurface D) : Picture Rgba :=
  ofBuffer s.fb s.width.toNat s.height.toNat

def CacheSlot.picture (e : CacheSlot) : Picture Rgba :=
  ofBuffer e.data e.width.toNat e.height.toNat

namespace WasmGfxHandler

def view (h : WasmGfxHandler D) : Compositor where
  surfaces id := (h.gfx.lookup id).map GfxSurface.picture
  slots k := (h.cache.lookup k).map CacheSlot.picture

/-- The framebuffer keeps its length and shows the picture `f` makes of
the old one. -/
def Shows (f : Picture Rgba → Picture Rgba) (s : GfxSurface D)
    (out : List UInt8 × List InclusiveRectangle) : Prop :=
  out.1.length = s.fb.length ∧
    ofBuffer out.1 s.width.toNat s.height.toNat = f s.picture

/-- A painting that shows `f` draws `f`. -/
theorem Drawn.view {h h' : WasmGfxHandler D} {id : UInt16}
    {f : Picture Rgba → Picture Rgba} (hx : h.BuffersExact)
    (hd : Drawn h id (Shows f) h') :
    h'.BuffersExact ∧ h'.view = h.view.draw id f := by
  cases hd with
  | missing hs =>
      refine ⟨hx, (Compositor.draw_of_missing ?_).symm⟩
      exact congrArg (Option.map GfxSurface.picture) hs
  | painted hs hq hp =>
      rename_i s fb dirty
      have hexact : GfxSurface.Exact { s with fb } := hq.1.trans (hx.fb _ _ hs)
      refine ⟨hx.insert _ hexact hp.gfx hp.cache,
        Compositor.ext (funext fun i => ?_) (funext fun k => ?_)⟩
      · simp only [WasmGfxHandler.view, Compositor.draw, hp.gfx]
        by_cases hi : i = id
        · subst hi
          rw [Finmap.lookup_insert, hs, if_pos rfl]
          exact congrArg some hq.2
        · rw [Finmap.lookup_insert_of_ne _ hi, if_neg hi]
      · simp only [WasmGfxHandler.view, Compositor.draw, hp.cache]

/-! ## The drawing orders refine the compositor -/

section

variable {h : WasmGfxHandler D}

theorem returns_onSolidFill (hx : h.BuffersExact) (pdu : SolidFillPdu) :
    Returns (h.onSolidFill pdu) (fun h' =>
      h'.BuffersExact ∧ h'.view = h.view.solidFill pdu) := by
  rw [onSolidFill_eq]
  refine (returns_drawOn fun s hs => (returns_fillRects s.width.toNat_lt
    s.height.toNat_lt (hx.fb _ s hs) pdu.rectangles).imp ?_).imp
    fun h' hd => hd.view hx
  rintro out hp
  refine ⟨hp.length, hp.shows.trans ?_⟩
  exact Compositor.fillPicture_eq ..

theorem returns_paintTile {s : GfxSurface D} (hs : s.Exact)
    (update : BitmapUpdate) :
    Returns (paintTile update s) (fun out => Paints s.width.toNat s.height.toNat
      s.fb (ofBuffer out.1 s.width.toNat s.height.toNat) out) := by
  unfold paintTile
  refine (returns_isBlackTile ..).bind fun _ _ => ?_
  exact (returns_tile s.width.toNat_lt s.height.toNat_lt hs).bind
    fun fb hp => Returns.pure hp

/-- A tile with all its data. -/
theorem returns_onBitmapUpdated (hx : h.BuffersExact) {update : BitmapUpdate}
    (hdata : update.data.length = update.width.toNat * update.height.toNat * 4) :
    Returns (h.onBitmapUpdated update) (fun h' =>
      h'.BuffersExact ∧ h'.view = h.view.bitmapUpdated update) := by
  rw [onBitmapUpdated_eq]
  refine (returns_drawOn fun s hs => ?_).imp fun h' hd => hd.view hx
  refine (returns_isBlackTile ..).bind fun _ _ => ?_
  obtain ⟨fb, hfb, hshows⟩ := returns_fullTile update.destinationRectangle.left
    update.destinationRectangle.top (hx.fb _ s hs) hdata
  have hlen := (returns_tile s.width.toNat_lt s.height.toNat_lt
    (hx.fb _ s hs)).of_eq hfb
  rw [hfb]
  exact Returns.ok ⟨hlen.length, hshows⟩

theorem returns_onCacheToSurface (hx : h.BuffersExact)
    (pdu : CacheToSurfacePdu) :
    Returns (h.onCacheToSurface pdu) (fun h' =>
      h'.BuffersExact ∧ h'.view = h.view.cacheToSurface pdu) := by
  cases hslot : h.cache.lookup pdu.cacheSlot with
  | none =>
      rw [onCacheToSurface, hslot]
      refine Returns.pure ⟨hx, ?_⟩
      simp only [Compositor.cacheToSurface, view, hslot, Option.map_none]
  | some entry =>
      rw [onCacheToSurface_eq hslot]
      have hview : h.view.cacheToSurface pdu = h.view.draw pdu.surfaceId
          (stampPicture entry.picture pdu.destinationPoints) := by
        simp only [Compositor.cacheToSurface, view, hslot, Option.map_some]
      rw [hview]
      refine (returns_drawOn fun s hs => ?_).imp fun h' hd => hd.view hx
      exact (returns_copyToPoints s.width.toNat_lt s.height.toNat_lt
        (hx.fb _ s hs) (hx.slot _ entry hslot) _).imp
        fun out hp => ⟨hp.length, hp.shows⟩

theorem returns_onSurfaceToSurface (hx : h.BuffersExact)
    (pdu : SurfaceToSurfacePdu) :
    Returns (h.onSurfaceToSurface pdu) (fun h' =>
      h'.BuffersExact ∧ h'.view = h.view.surfaceToSurface pdu) := by
  cases hsrc : h.gfx.lookup pdu.sourceSurfaceId with
  | none =>
      rw [onSurfaceToSurface, hsrc]
      refine Returns.pure ⟨hx, ?_⟩
      simp only [Compositor.surfaceToSurface, view, hsrc, Option.map_none]
  | some src =>
      have hview : h.view.surfaceToSurface pdu =
          h.view.draw pdu.destinationSurfaceId (stampPicture
            (Compositor.cropTo src.picture pdu.sourceRectangle)
            pdu.destinationPoints) := by
        simp only [Compositor.surfaceToSurface, view, hsrc, Option.map_some]
      obtain ⟨⟨cw, ch⟩, hsize⟩ : ∃ size, copySize pdu src = size := ⟨_, rfl⟩
      rw [onSurfaceToSurface_eq hsrc hsize, hview]
      -- the handler's relative clip and the absolute one give one size
      obtain ⟨hcw, hch⟩ := Prod.mk.inj hsize
      have hw : cw = min pdu.sourceRectangle.right.toNat src.width.toNat -
          pdu.sourceRectangle.left.toNat := by omega
      have hh : ch = min pdu.sourceRectangle.bottom.toNat src.height.toNat -
          pdu.sourceRectangle.top.toNat := by omega
      split
      · rename_i hempty
        rw [hw, hh] at hempty
        exact Returns.pure ⟨hx, (Compositor.draw_of_id
          (Compositor.stampPicture_of_empty hempty _)).symm⟩
      · rename_i hne
        refine (returns_snapshot (hx.fb _ src hsrc) hw hh (by omega)).bind
          ?_
        rintro tmp ⟨hlen, hshows⟩
        refine (returns_drawOn fun s hs => ?_).imp fun h' hd => hd.view hx
        refine (returns_copyToPoints s.width.toNat_lt s.height.toNat_lt
          (hx.fb _ s hs) hlen _).imp fun out hp => ⟨hp.length, ?_⟩
        rw [hp.shows, hshows]
        rfl

/-- A slot stored with exact data keeps the buffers exact. -/
theorem BuffersExact.store (hx : h.BuffersExact) {e : CacheSlot}
    (he : e.Exact) (slot : UInt16) :
    BuffersExact { h with cache := h.cache.insert slot e } := by
  refine ⟨hx.fb, fun k e' hk => ?_⟩
  rcases Lookups.of_insert hk with ⟨-, rfl⟩ | ⟨-, hk⟩
  · exact he
  · exact hx.slot k e' hk

theorem view_store (e : CacheSlot) (slot : UInt16) :
    view { h with cache := h.cache.insert slot e } = { h.view with
      slots := fun k => if k = slot then some e.picture else h.view.slots k } := by
  refine Compositor.ext rfl (funext fun k => ?_)
  simp only [view]
  split
  · subst k
    rw [Finmap.lookup_insert, Option.map_some]
  · rw [Finmap.lookup_insert_of_ne _ ‹_›]

theorem returns_onSurfaceToCache (hx : h.BuffersExact)
    (pdu : SurfaceToCachePdu) :
    Returns (h.onSurfaceToCache pdu) (fun h' =>
      h'.BuffersExact ∧ h'.view = h.view.surfaceToCache pdu) := by
  unfold onSurfaceToCache
  split
  · rename_i hs
    refine Returns.pure ⟨hx, ?_⟩
    simp only [Compositor.surfaceToCache, view, hs, Option.map_none]
  · rename_i s hs
    have hview : h.view.surfaceToCache pdu =
        let block := Compositor.cropTo s.picture pdu.sourceRectangle
        if block.width = 0 ∨ block.height = 0 then h.view
        else { h.view with slots := fun k =>
                if k = pdu.cacheSlot then some block else h.view.slots k } := by
      simp only [Compositor.surfaceToCache, view, hs, Option.map_some]
    rw [hview]
    have hbw : s.width.toNat < 65536 := s.width.toNat_lt
    have hbh : s.height.toNat < 65536 := s.height.toNat_lt
    have hcw : (Compositor.cropTo s.picture pdu.sourceRectangle).width =
        min pdu.sourceRectangle.right.toNat s.width.toNat -
          pdu.sourceRectangle.left.toNat := rfl
    have hch : (Compositor.cropTo s.picture pdu.sourceRectangle).height =
        min pdu.sourceRectangle.bottom.toNat s.height.toNat -
          pdu.sourceRectangle.top.toNat := rfl
    dsimp only
    rw [hcw, hch]
    split
    · rename_i hempty
      refine Returns.pure ⟨hx, ?_⟩
      rw [if_pos (by omega)]
    · rename_i hne
      rw [if_neg (by omega), sub_eq_ok (by omega), sub_eq_ok (by omega)]
      have hx0 : min pdu.sourceRectangle.left.toNat s.width.toNat =
          pdu.sourceRectangle.left.toNat := by omega
      have hy0 : min pdu.sourceRectangle.top.toNat s.height.toNat =
          pdu.sourceRectangle.top.toNat := by omega
      rw [hx0, hy0]
      refine (returns_snapshot (hx.fb _ s hs) rfl rfl (by omega)).bind
        ?_
      rintro data ⟨hlen, hshows⟩
      generalize hw : min pdu.sourceRectangle.right.toNat s.width.toNat -
        pdu.sourceRectangle.left.toNat = w at hlen hshows ⊢
      generalize hh : min pdu.sourceRectangle.bottom.toNat s.height.toNat -
        pdu.sourceRectangle.top.toNat = ht at hlen hshows ⊢
      have hwb : (UInt16.ofNat w).toNat = w := by
        rw [UInt16.toNat_ofNat']; omega
      have hhb : (UInt16.ofNat ht).toNat = ht := by
        rw [UInt16.toNat_ofNat']; omega
      refine Returns.pure ⟨hx.store (by rw [CacheSlot.Exact, hwb, hhb, hlen]) _, ?_⟩
      rw [view_store, CacheSlot.picture, hwb, hhb, hshows]
      rfl

/-- An emptied slot keeps the others exact. -/
theorem BuffersExact.evict (hx : h.BuffersExact) (slot : UInt16) :
    (h.onEvictCacheEntry slot).BuffersExact :=
  ⟨hx.fb, fun k e hk => hx.slot k e (Lookups.of_erase hk).2⟩

theorem view_onEvictCacheEntry (h : WasmGfxHandler D) (slot : UInt16) :
    (h.onEvictCacheEntry slot).view = h.view.evictCacheEntry slot := by
  refine Compositor.ext rfl (funext fun k => ?_)
  simp only [view, onEvictCacheEntry, Compositor.evictCacheEntry]
  split
  · subst k
    rw [Finmap.lookup_erase, Option.map_none]
  · rw [Finmap.lookup_erase_ne ‹_›]

/-- Every synchronous drawing order, every store and every eviction is the
compositor's; a tile has to carry all its data. -/
theorem compositing_refines (hx : h.BuffersExact) :
    (∀ pdu, Returns (h.onSolidFill pdu) (fun h' =>
      h'.BuffersExact ∧ h'.view = h.view.solidFill pdu)) ∧
    (∀ update : BitmapUpdate,
      update.data.length = update.width.toNat * update.height.toNat * 4 →
      Returns (h.onBitmapUpdated update) (fun h' =>
        h'.BuffersExact ∧ h'.view = h.view.bitmapUpdated update)) ∧
    (∀ pdu, Returns (h.onSurfaceToSurface pdu) (fun h' =>
      h'.BuffersExact ∧ h'.view = h.view.surfaceToSurface pdu)) ∧
    (∀ pdu, Returns (h.onSurfaceToCache pdu) (fun h' =>
      h'.BuffersExact ∧ h'.view = h.view.surfaceToCache pdu)) ∧
    (∀ pdu, Returns (h.onCacheToSurface pdu) (fun h' =>
      h'.BuffersExact ∧ h'.view = h.view.cacheToSurface pdu)) ∧
    ∀ slot, (h.onEvictCacheEntry slot).BuffersExact ∧
      (h.onEvictCacheEntry slot).view = h.view.evictCacheEntry slot :=
  ⟨returns_onSolidFill hx, fun _ => returns_onBitmapUpdated hx,
    returns_onSurfaceToSurface hx, returns_onSurfaceToCache hx,
    returns_onCacheToSurface hx,
    fun slot => ⟨hx.evict slot, view_onEvictCacheEntry h slot⟩⟩

end

/-- On a fresh surface of `2 × 1` pixels, a tile that leaves it on the
right. -/
theorem compositing_refines_tile :
    let h : WasmGfxHandler .rejecting :=
      (new [] ∅ false .rfx []).onSurfaceCreated ⟨7, 2, 1⟩
    let update : BitmapUpdate :=
      ⟨7, ⟨1, 0, 2, 0⟩, .planar, 2, 1, [1, 2, 3, 255, 4, 5, 6, 255]⟩
    Returns (h.onBitmapUpdated update) (fun h' =>
      h'.BuffersExact ∧ h'.view = h.view.bitmapUpdated update) :=
  (compositing_refines ((buffersExact_new ..).created _)).2.1 _ (by decide)

end WasmGfxHandler

end WasmRdp
