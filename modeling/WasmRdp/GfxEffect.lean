import WasmRdp.Compositor

/-!
# What one callback does

`Effect h cb h'` lists once what a callback can do to the surfaces, the
cache slots and the canvases; every invariant of the handler is derived
from it. `effect_of_step` inverts a callback that returned, with no
hypothesis: what is known of a painted framebuffer only in a state with
exact buffers is a conditional field of `Effect.drawn`. `returns_step` is
the other half: in such a state every callback does return.

The drawing callbacks all arrive at `Effect.drawn` through `Drawn.effect`: a
painting with known pictures, whatever they are, has that effect. So a
progressive update, of which only the decoder's report is known, and a decoded
video frame, which replaces the whole surface, are in the same case as a fill.
`CoversChanges` is what the canvases rely on: the dirty rectangles of a
painting cover every pixel that it changed.

`Callback.isControl` marks the callbacks that create or remove a surface or
empty a slot. They have cases of their own in `Effect`, and so an invariant
about surfaces that are there has four of these to look at, and of all the
others only whether they do nothing, map a surface or draw on one.
-/

namespace WasmRdp

open Slices Raster

variable {D : ProgressiveDecoder}

/-- The callbacks that create or remove a surface or empty a slot. -/
def Callback.isControl : Callback → Bool
  | .resetGraphics .. | .surfaceCreated .. | .surfaceDeleted ..
  | .evictCacheEntry .. => true
  | _ => false

namespace WasmGfxHandler

/-- The dirty rectangles cover every pixel of `s` that `fb` changes. -/
def CoversChanges (s : GfxSurface D) (fb : List UInt8)
    (dirty : List InclusiveRectangle) : Prop :=
  ∀ x y, x < s.width.toNat → y < s.height.toNat →
    pixel fb (y * s.width.toNat + x) ≠ pixel s.fb (y * s.width.toNat + x) →
      ∃ r ∈ dirty, r.Covers x y

inductive Effect (h : WasmGfxHandler D) : Callback → WasmGfxHandler D → Prop
  | reset (width height : UInt32) :
      Effect h (.resetGraphics width height) (h.onResetGraphics width height)
  | created (surface : Surface) :
      Effect h (.surfaceCreated surface) (h.onSurfaceCreated surface)
  | deleted (id : UInt16) :
      Effect h (.surfaceDeleted id) (h.onSurfaceDeleted id)
  | evicted (slot : UInt16) :
      Effect h (.evictCacheEntry slot) (h.onEvictCacheEntry slot)
  | stored (pdu : SurfaceToCachePdu) (e : CacheSlot)
      (he : h.BuffersExact → e.Exact) :
      Effect h (.surfaceToCache pdu)
        { h with cache := h.cache.insert pdu.cacheSlot e }
  | idle {cb : Callback} {js : List JsCall} (hcb : cb.isControl = false) :
      Effect h cb { h with js }
  | mapped {cb : Callback} {id originX originY : UInt16} {s : GfxSurface D}
      {h' : WasmGfxHandler D} (hcb : cb.isControl = false)
      (hs : h.gfx.lookup id = some s)
      (hp : Presented h id { s with originX, originY, mapped := true }
        [fullRect s] h') : Effect h cb h'
  | drawn {cb : Callback} {id : UInt16} {s : GfxSurface D}
      {decoder : D.State} {fb : List UInt8} {dirty : List InclusiveRectangle}
      {h' : WasmGfxHandler D} (hcb : cb.isControl = false)
      (hs : h.gfx.lookup id = some s)
      (hlen : h.BuffersExact → D.KeepsLength → fb.length = s.fb.length)
      (hcov : h.BuffersExact → D.Lawful → CoversChanges s fb dirty)
      (hp : Presented h id { s with decoder, fb } dirty h') : Effect h cb h'

/-- A painting with known pictures has the effect of a drawing callback. -/
theorem Drawn.effect {h h' : WasmGfxHandler D} {cb : Callback} {id : UInt16}
    {Q : GfxSurface D → List UInt8 × List InclusiveRectangle → Prop}
    (hcb : cb.isControl = false)
    (hq : ∀ s out, h.gfx.lookup id = some s → Q s out → h.BuffersExact →
      ∃ pic, Paints s.width.toNat s.height.toNat s.fb pic out)
    (hd : Drawn h id Q h') : Effect h cb h' := by
  cases hd with
  | missing _ => exact .idle hcb
  | painted hs hout hp =>
      refine .drawn hcb hs (fun hx _ => ?_) (fun hx _ => ?_) hp
      · obtain ⟨_, hpaints⟩ := hq _ _ hs hout hx
        exact hpaints.length
      · obtain ⟨_, hpaints⟩ := hq _ _ hs hout hx
        exact hpaints.covered

/-- The rectangle of a whole surface covers its points. -/
theorem covers_fullRect (s : GfxSurface D) {x y : Nat}
    (hx : x < s.width.toNat) (hy : y < s.height.toNat) :
    (fullRect s).Covers x y := by
  have hw := s.width.toNat_lt
  have hh := s.height.toNat_lt
  simp only [InclusiveRectangle.Covers, fullRect, UInt16.toNat_ofNat']
  exact ⟨⟨Nat.zero_le _, by omega⟩, Nat.zero_le _, by omega⟩

section

variable {h h' : WasmGfxHandler D}

theorem effect_onSurfaceMapped {cb : Callback} (hcb : cb.isControl = false)
    {id : UInt16} {originX originY : UInt32}
    (hrun : h.onSurfaceMapped id originX originY = .ok h') : Effect h cb h' := by
  unfold onSurfaceMapped at hrun
  split at hrun
  · obtain rfl := Except.ok.inj hrun
    exact .idle hcb
  · rename_i s hs
    obtain ⟨⟨cs, painted⟩, hblit, hret⟩ := bind_eq_ok hrun
    obtain rfl := Except.ok.inj hret
    refine .mapped hcb hs ⟨rfl, rfl, rfl, fun hm => ?_, fun _ => ⟨painted, hblit⟩⟩
    cases hm

theorem effect_onProgressiveData {id : UInt16} {data : List UInt8}
    (hrun : h.onProgressiveData id data = .ok h') :
    Effect h (.progressiveData id data) h' := by
  unfold onProgressiveData at hrun
  split at hrun
  · obtain rfl := Except.ok.inj hrun
    exact .idle rfl
  · rename_i s hs
    obtain ⟨⟨decoder, fb, update⟩, hdec⟩ : ∃ out,
        D.decode s.decoder data s.fb (s.width.toNat * 4) = out := ⟨_, rfl⟩
    simp only [hdec] at hrun
    have hlen : D.KeepsLength → fb.length = s.fb.length := fun hK => by
      have := hK s.decoder data s.fb (s.width.toNat * 4)
      rwa [hdec] at this
    cases update with
    | none =>
        obtain rfl := Except.ok.inj hrun
        refine .drawn rfl hs (fun _ => hlen) (fun _ hD x y _ _ hne => ?_)
          Presented.of_blank
        -- a failed decode left the framebuffer alone
        have hfb := hD.failed s.decoder data s.fb (s.width.toNat * 4) (by rw [hdec])
        simp only [hdec] at hfb
        exact absurd (by rw [hfb]) hne
    | some dirty =>
        have hcov : h.BuffersExact → D.Lawful → CoversChanges s fb dirty := by
          intro _ hD x y hx _ hne
          exact hD.covered s.decoder data s.fb s.width.toNat dirty x y
            (by rw [hdec]) hx (by rwa [hdec])
        dsimp only at hrun
        split at hrun
        · rename_i hquiet
          obtain rfl := Except.ok.inj hrun
          refine .drawn rfl hs (fun _ => hlen) hcov
            ⟨rfl, rfl, rfl, fun _ => rfl, fun hm => ?_⟩
          rw [Bool.or_eq_true, List.isEmpty_iff, Bool.not_eq_true'] at hquiet
          obtain rfl := hquiet.resolve_right (by rw [hm]; decide)
          exact ⟨false, rfl⟩
        · exact .drawn rfl hs (fun _ => hlen) hcov
            ((returns_present ..).of_eq hrun).of_codec

theorem effect_onAvc420Decoded {id : UInt16} {rgba : List UInt8}
    (hrun : h.onAvc420Decoded id rgba = .ok h') :
    Effect h (.avc420Decoded id rgba) h' := by
  unfold onAvc420Decoded at hrun
  split at hrun
  · obtain rfl := Except.ok.inj hrun
    exact .idle rfl
  · rename_i s hs
    split at hrun
    · obtain rfl := Except.ok.inj hrun
      exact .idle rfl
    · obtain ⟨fb, hcopy, hpresent⟩ := bind_eq_ok hrun
      have hlen := length_of_copyFromSlice hcopy
      refine .drawn rfl hs (fun _ _ => hlen) (fun _ _ x y hx hy _ => ?_)
        ((returns_present ..).of_eq hpresent).of_codec
      exact ⟨_, List.mem_singleton.mpr rfl, covers_fullRect s hx hy⟩

theorem effect_onSurfaceToSurface {pdu : SurfaceToSurfacePdu}
    (hrun : h.onSurfaceToSurface pdu = .ok h') :
    Effect h (.surfaceToSurface pdu) h' := by
  cases hsrc : h.gfx.lookup pdu.sourceSurfaceId with
  | none =>
      rw [onSurfaceToSurface, hsrc] at hrun
      obtain rfl := Except.ok.inj hrun
      exact .idle rfl
  | some src =>
      obtain ⟨⟨cw, ch⟩, hsize⟩ : ∃ size, copySize pdu src = size := ⟨_, rfl⟩
      rw [onSurfaceToSurface_eq hsrc hsize] at hrun
      split at hrun
      · obtain rfl := Except.ok.inj hrun
        exact .idle rfl
      · rename_i hne
        obtain ⟨tmp, htmp, hdraw⟩ := bind_eq_ok hrun
        refine (drawn_of_drawOn hdraw).effect rfl fun s out hs hout hx => ?_
        obtain ⟨hcw, hch⟩ := Prod.mk.inj hsize
        have hlen := ((returns_snapshot (r := pdu.sourceRectangle.right.toNat)
          (b := pdu.sourceRectangle.bottom.toNat) (hx.fb _ src hsrc) (by omega)
          (by omega) (by omega)).of_eq htmp).1
        exact ⟨_, (returns_copyToPoints s.width.toNat_lt s.height.toNat_lt
          (hx.fb _ s hs) hlen _).of_eq hout⟩

theorem effect_onCacheToSurface {pdu : CacheToSurfacePdu}
    (hrun : h.onCacheToSurface pdu = .ok h') :
    Effect h (.cacheToSurface pdu) h' := by
  cases hslot : h.cache.lookup pdu.cacheSlot with
  | none =>
      rw [onCacheToSurface, hslot] at hrun
      obtain rfl := Except.ok.inj hrun
      exact .idle rfl
  | some entry =>
      rw [onCacheToSurface_eq hslot] at hrun
      exact (drawn_of_drawOn hrun).effect rfl fun s out hs hout hx =>
        ⟨_, (returns_copyToPoints s.width.toNat_lt s.height.toNat_lt (hx.fb _ s hs)
          (hx.slot _ entry hslot) _).of_eq hout⟩

theorem effect_onSurfaceToCache {pdu : SurfaceToCachePdu}
    (hrun : h.onSurfaceToCache pdu = .ok h') :
    Effect h (.surfaceToCache pdu) h' := by
  have hspec := fun hx : h.BuffersExact =>
    ((returns_onSurfaceToCache hx pdu).of_eq hrun).1.slot pdu.cacheSlot
  unfold onSurfaceToCache at hrun
  split at hrun
  · obtain rfl := Except.ok.inj hrun
    exact .idle rfl
  · dsimp only at hrun
    split at hrun
    · obtain rfl := Except.ok.inj hrun
      exact .idle rfl
    · obtain ⟨w, -, hrun⟩ := bind_eq_ok hrun
      obtain ⟨ht, -, hrun⟩ := bind_eq_ok hrun
      obtain ⟨data, -, hrun⟩ := bind_eq_ok hrun
      obtain rfl := Except.ok.inj hrun
      exact .stored _ _ fun hx => hspec hx _ (Finmap.lookup_insert _)

/-- Inversion of a callback that returned. -/
theorem effect_of_step {cb : Callback} (hrun : h.step cb = .ok h') :
    Effect h cb h' := by
  cases cb with
  | resetGraphics width height =>
      obtain rfl := Except.ok.inj hrun
      exact .reset width height
  | surfaceCreated surface =>
      obtain rfl := Except.ok.inj hrun
      exact .created surface
  | surfaceDeleted id =>
      obtain rfl := Except.ok.inj hrun
      exact .deleted id
  | evictCacheEntry slot =>
      obtain rfl := Except.ok.inj hrun
      exact .evicted slot
  | surfaceMapped id originX originY => exact effect_onSurfaceMapped rfl hrun
  | mapSurfaceToScaledOutput pdu => exact effect_onSurfaceMapped rfl hrun
  | progressiveData id data => exact effect_onProgressiveData hrun
  | readSurfaceRect id x y width height =>
      obtain ⟨rect, -, hret⟩ := bind_eq_ok hrun
      obtain rfl := Except.ok.inj hret
      exact .idle rfl
  | bitmapUpdated update =>
      rw [step, onBitmapUpdated_eq] at hrun
      exact (drawn_of_drawOn hrun).effect rfl fun s out hs hout hx =>
        ⟨_, (returns_paintTile (hx.fb _ s hs) update).of_eq hout⟩
  | avc420Raw id originX originY width height data =>
      obtain ⟨⟨annexB, isKeyframe⟩, -, hret⟩ := bind_eq_ok hrun
      obtain rfl := Except.ok.inj hret
      exact .idle rfl
  | solidFill pdu =>
      rw [step, onSolidFill_eq] at hrun
      exact (drawn_of_drawOn hrun).effect rfl fun s out hs hout hx =>
        ⟨_, (returns_fillRects s.width.toNat_lt s.height.toNat_lt (hx.fb _ s hs)
          _).of_eq hout⟩
  | surfaceToSurface pdu => exact effect_onSurfaceToSurface hrun
  | surfaceToCache pdu => exact effect_onSurfaceToCache hrun
  | cacheToSurface pdu => exact effect_onCacheToSurface hrun
  | avc420Decoded id rgba => exact effect_onAvc420Decoded hrun

end

/-! ## Every callback returns -/

theorem returns_onProgressiveData (h : WasmGfxHandler D) (id : UInt16)
    (data : List UInt8) : Returns (h.onProgressiveData id data) (fun _ => True) := by
  unfold onProgressiveData
  split
  · exact Returns.pure trivial
  · dsimp only
    split
    · exact Returns.pure trivial
    · split
      · exact Returns.pure trivial
      · exact (returns_present ..).imp fun _ _ => trivial

theorem returns_onAvc420Decoded (h : WasmGfxHandler D) (id : UInt16)
    (rgba : List UInt8) : Returns (h.onAvc420Decoded id rgba) (fun _ => True) := by
  unfold onAvc420Decoded
  split
  · exact Returns.pure trivial
  · rename_i s hs
    split
    · exact Returns.pure trivial
    · rename_i hlen
      rw [copyFromSlice_eq_ok (Nat.zero_le _) (Nat.le_refl _) (by omega)]
      exact (returns_present ..).imp fun _ _ => trivial

theorem returns_onSurfaceMapped (h : WasmGfxHandler D) (id : UInt16)
    (originX originY : UInt32) :
    Returns (h.onSurfaceMapped id originX originY) (fun _ => True) := by
  unfold onSurfaceMapped
  split
  · exact Returns.pure trivial
  · exact (returns_blitRects ..).bind fun _ _ => Returns.pure trivial

/-- With exact buffers no callback aborts. -/
theorem returns_step {h : WasmGfxHandler D} (hx : h.BuffersExact)
    (cb : Callback) : Returns (h.step cb) (fun _ => True) := by
  cases cb with
  | resetGraphics | surfaceCreated | surfaceDeleted | evictCacheEntry =>
      exact Returns.pure trivial
  | surfaceMapped id originX originY => exact returns_onSurfaceMapped ..
  | mapSurfaceToScaledOutput pdu => exact returns_onSurfaceMapped ..
  | progressiveData id data => exact returns_onProgressiveData ..
  | readSurfaceRect id x y width height =>
      exact (returns_readSurfaceRect fun s hs => hx.fb _ s hs).bind
        fun _ _ => Returns.pure trivial
  | bitmapUpdated update =>
      rw [step, onBitmapUpdated_eq]
      exact (returns_drawOn fun s hs =>
        returns_paintTile (hx.fb _ s hs) update).imp fun _ _ => trivial
  | avc420Raw id originX originY width height data =>
      exact (returns_avcToAnnexbFrom ..).bind fun _ _ => Returns.pure trivial
  | solidFill pdu => exact (returns_onSolidFill hx pdu).imp fun _ _ => trivial
  | surfaceToSurface pdu =>
      exact (returns_onSurfaceToSurface hx pdu).imp fun _ _ => trivial
  | surfaceToCache pdu =>
      exact (returns_onSurfaceToCache hx pdu).imp fun _ _ => trivial
  | cacheToSurface pdu =>
      exact (returns_onCacheToSurface hx pdu).imp fun _ _ => trivial
  | avc420Decoded id rgba => exact returns_onAvc420Decoded ..

end WasmGfxHandler

end WasmRdp
