import WasmRdp.GfxPaint

/-!
# Presenting a painted surface

The five synchronous drawing callbacks have one shape, `drawOn`: look the
surface up, paint its framebuffer, present it. The equations `…_eq` bring
each into that shape, and `returns_drawOn` and `drawn_of_drawOn` say, for
any painting, what comes out: `Drawn`.

Two notions meet here. `BuffersExact` says that every framebuffer and every
cache slot has the length that its dimensions say, which is what makes the
loops of `GfxPaint` return. `Presented` says what the tail of a drawing
callback leaves: the surface is back in the map, and if it is mapped its dirty
rectangles went to the canvases. Presenting never aborts and needs no
hypothesis (`returns_present`).

`Drawn h id Q h'` puts them together with a parameter `Q` for the painting, so
that a callback is looked into once: what is shown on the way to the
compositor (`Compositor`) and what is shown on the way to the invariants
(`GfxEffect`) are two choices of `Q`.
-/

namespace WasmRdp

open Slices Raster

variable {D : ProgressiveDecoder}

/-- The framebuffer has the length the dimensions say. -/
def GfxSurface.Exact (s : GfxSurface D) : Prop :=
  s.fb.length = s.width.toNat * s.height.toNat * 4

/-- The saved pixels have the length the dimensions say. -/
def CacheSlot.Exact (e : CacheSlot) : Prop :=
  e.data.length = e.width.toNat * e.height.toNat * 4

namespace WasmGfxHandler

/-- Every framebuffer and every cache slot is exact. -/
structure BuffersExact (h : WasmGfxHandler D) : Prop where
  fb : ∀ id s, h.gfx.lookup id = some s → s.Exact
  slot : ∀ k e, h.cache.lookup k = some e → e.Exact

theorem buffersExact_new (surfaces : List Canvas) (egfxActive : Bool)
    (videoCodec : VideoCodec) (js : List JsCall) :
    BuffersExact (D := D) (new surfaces ∅ egfxActive videoCodec js) :=
  ⟨fun _ _ h => (nomatch h), fun _ _ h => (nomatch h)⟩

/-- A surface put back exact keeps the buffers exact. -/
theorem BuffersExact.insert {h h' : WasmGfxHandler D} (id : UInt16)
    {s : GfxSurface D} (hx : h.BuffersExact) (hs : s.Exact)
    (hgfx : h'.gfx = h.gfx.insert id s) (hcache : h'.cache = h.cache) :
    h'.BuffersExact := by
  refine ⟨fun i t ht => ?_, fun k e he => hx.slot k e (by rwa [← hcache])⟩
  rw [hgfx] at ht
  rcases Lookups.of_insert ht with ⟨-, rfl⟩ | ⟨-, ht⟩
  · exact hs
  · exact hx.fb i t ht

theorem BuffersExact.created {h : WasmGfxHandler D} (hx : h.BuffersExact)
    (surface : Surface) : (h.onSurfaceCreated surface).BuffersExact := by
  refine hx.insert surface.id ?_ rfl rfl
  exact List.length_replicate

/-! ## Presenting a surface -/

/-- Surface `s` went back into the map under `id` and, if it is mapped,
its rectangles `dirty` to the canvases. -/
structure Presented (h : WasmGfxHandler D) (id : UInt16) (s : GfxSurface D)
    (dirty : List InclusiveRectangle) (h' : WasmGfxHandler D) : Prop where
  gfx : h'.gfx = h.gfx.insert id s
  cache : h'.cache = h.cache
  egfxActive : h'.egfxActive = h.egfxActive
  unmapped : s.mapped = false → h'.surfaces = h.surfaces
  mapped : s.mapped = true → ∃ painted, blitRects h.surfaces s.fb s.width
    s.height s.originX s.originY dirty = .ok (h'.surfaces, painted)

/-- Presenting never aborts. -/
theorem returns_present (h : WasmGfxHandler D) (id : UInt16)
    (s : GfxSurface D) (dirty : List InclusiveRectangle) :
    Returns (h.present id s dirty) (Presented h id s dirty) := by
  unfold present
  split
  · rename_i hm
    obtain ⟨⟨cs, painted⟩, hblit, -⟩ := returns_blitRects h.surfaces s.fb s.width
      s.height s.originX s.originY dirty
    rw [hblit]
    refine Returns.ok ⟨rfl, rfl, rfl, fun hm' => ?_, fun _ => ⟨painted, hblit⟩⟩
    rw [hm] at hm'
    cases hm'
  · rename_i hm
    exact Returns.pure ⟨rfl, rfl, rfl, fun _ => rfl, fun hm' => absurd hm' hm⟩

/-- With nothing dirty the canvases stay as they are. -/
theorem Presented.of_blank {h : WasmGfxHandler D} {id : UInt16}
    {s : GfxSurface D} {codec : VideoCodec} {js : List JsCall} :
    Presented h id s [] { h with
      gfx := h.gfx.insert id s, videoCodec := codec, js := js } :=
  ⟨rfl, rfl, rfl, fun _ => rfl, fun _ => ⟨false, rfl⟩⟩

/-- Codec and page calls play no part. -/
theorem Presented.of_codec {h h' : WasmGfxHandler D} {id : UInt16}
    {s : GfxSurface D} {dirty : List InclusiveRectangle} {codec : VideoCodec}
    (hp : Presented { h with videoCodec := codec } id s dirty h') :
    Presented h id s dirty h' :=
  ⟨hp.gfx, hp.cache, hp.egfxActive, hp.unmapped, hp.mapped⟩

/-! ## The shape of the drawing callbacks -/

/-- Look up surface `id`, paint its framebuffer and present it. -/
def drawOn (h : WasmGfxHandler D) (codec : VideoCodec) (id : UInt16)
    (paint : GfxSurface D → Checked (List UInt8 × List InclusiveRectangle)) :
    Checked (WasmGfxHandler D) := do
  match h.gfx.lookup id with
  | none => return h
  | some s =>
      let (fb, dirty) ← paint s
      { h with videoCodec := codec }.present id { s with fb } dirty

/-- What `drawOn` did, for a painting that has `Q`. -/
inductive Drawn (h : WasmGfxHandler D) (id : UInt16)
    (Q : GfxSurface D → List UInt8 × List InclusiveRectangle → Prop) :
    WasmGfxHandler D → Prop
  | missing (hs : h.gfx.lookup id = none) : Drawn h id Q h
  | painted {s fb dirty h'} (hs : h.gfx.lookup id = some s)
      (hq : Q s (fb, dirty)) (hp : Presented h id { s with fb } dirty h') :
      Drawn h id Q h'

theorem returns_drawOn {h : WasmGfxHandler D} {codec : VideoCodec}
    {id : UInt16}
    {paint : GfxSurface D → Checked (List UInt8 × List InclusiveRectangle)}
    {Q : GfxSurface D → List UInt8 × List InclusiveRectangle → Prop}
    (hpaint : ∀ s, h.gfx.lookup id = some s → Returns (paint s) (Q s)) :
    Returns (h.drawOn codec id paint) (Drawn h id Q) := by
  unfold drawOn
  split
  · exact Returns.pure (.missing ‹_›)
  · rename_i s hs
    refine (hpaint s hs).bind ?_
    rintro ⟨fb, dirty⟩ hq
    exact (returns_present ..).imp fun h' hp => .painted hs hq hp.of_codec

theorem drawn_of_drawOn {h h' : WasmGfxHandler D} {codec : VideoCodec}
    {id : UInt16}
    {paint : GfxSurface D → Checked (List UInt8 × List InclusiveRectangle)}
    (hrun : h.drawOn codec id paint = .ok h') :
    Drawn h id (fun s out => paint s = .ok out) h' := by
  unfold drawOn at hrun
  split at hrun
  · obtain rfl := Except.ok.inj hrun
    exact .missing ‹_›
  · rename_i s hs
    obtain ⟨⟨fb, dirty⟩, hpaint, hpresent⟩ := bind_eq_ok hrun
    exact .painted hs hpaint ((returns_present ..).of_eq hpresent).of_codec

theorem onSolidFill_eq (h : WasmGfxHandler D) (pdu : SolidFillPdu) :
    h.onSolidFill pdu = h.drawOn h.videoCodec pdu.surfaceId (fun s =>
      pdu.rectangles.foldlM (fillRect s.width.toNat s.height.toNat
        [pdu.fillPixel.r, pdu.fillPixel.g, pdu.fillPixel.b, 0xFF]) (s.fb, [])) := by
  unfold onSolidFill drawOn
  cases h.gfx.lookup pdu.surfaceId <;> rfl

/-- The painting of `on_bitmap_updated`. -/
def paintTile (update : BitmapUpdate) (s : GfxSurface D) :
    Checked (List UInt8 × List InclusiveRectangle) := do
  let dx := update.destinationRectangle.left.toNat
  let dy := update.destinationRectangle.top.toNat
  let w := update.width.toNat
  let ht := update.height.toNat
  let sw := s.width.toNat
  let sh := s.height.toNat
  let _isBlack ← isBlackTile update.data w ht
  let fb ← copyTileRows update.data w (min w (sw - dx)) dx dy sw sh ht 0 s.fb
  return (fb, [⟨.ofNat dx, .ofNat dy, .ofNat (min (dx + w) sw - 1),
    .ofNat (min (dy + ht) sh - 1)⟩])

theorem onBitmapUpdated_eq (h : WasmGfxHandler D) (update : BitmapUpdate) :
    h.onBitmapUpdated update = h.drawOn (match update.codecId with
        | .planar => .planar
        | .clearCodec => .clear
        | .other => .uncompressed) update.surfaceId (paintTile update) := by
  unfold onBitmapUpdated drawOn
  cases h.gfx.lookup update.surfaceId with
  | none => rfl
  | some s =>
      unfold paintTile
      refine Eq.symm ((bind_assoc ..).trans (bind_congr fun _ => ?_))
      exact bind_assoc ..

theorem onCacheToSurface_eq {h : WasmGfxHandler D} {pdu : CacheToSurfacePdu}
    {entry : CacheSlot} (hslot : h.cache.lookup pdu.cacheSlot = some entry) :
    h.onCacheToSurface pdu = h.drawOn h.videoCodec pdu.surfaceId (fun s =>
      copyToPoints s.width.toNat s.height.toNat entry.data entry.width.toNat
        entry.height.toNat pdu.destinationPoints s.fb) := by
  unfold onCacheToSurface drawOn
  split
  · rename_i hnone
    cases hnone.symm.trans hslot
  · rename_i e he
    obtain rfl := Option.some.inj (he.symm.trans hslot)
    cases h.gfx.lookup pdu.surfaceId <;> rfl

/-- The size of the part of a source rectangle that is copied. -/
def copySize (pdu : SurfaceToSurfacePdu) (s : GfxSurface D) : Nat × Nat :=
  let src := pdu.sourceRectangle
  (min (src.right.toNat - src.left.toNat) (s.width.toNat - src.left.toNat),
    min (src.bottom.toNat - src.top.toNat) (s.height.toNat - src.top.toNat))

theorem onSurfaceToSurface_eq {h : WasmGfxHandler D}
    {pdu : SurfaceToSurfacePdu} {src : GfxSurface D} {cw ch : Nat}
    (hsrc : h.gfx.lookup pdu.sourceSurfaceId = some src)
    (hsize : copySize pdu src = (cw, ch)) :
    h.onSurfaceToSurface pdu = if cw = 0 ∨ ch = 0 then return h else
      copyRows ch (cw * 4) (fun row => row * cw * 4)
        (fun row => ((pdu.sourceRectangle.top.toNat + row) * src.width.toNat +
          pdu.sourceRectangle.left.toNat) * 4) src.fb
        (List.replicate (cw * ch * 4) 0) >>= fun tmp =>
      h.drawOn h.videoCodec pdu.destinationSurfaceId (fun s =>
        copyToPoints s.width.toNat s.height.toNat tmp cw ch
          pdu.destinationPoints s.fb) := by
  obtain ⟨rfl, rfl⟩ := Prod.mk.inj hsize
  rw [onSurfaceToSurface, hsrc]
  dsimp only
  split
  · rfl
  · congr 1

end WasmGfxHandler

end WasmRdp
