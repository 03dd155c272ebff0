import WasmRdp.GfxEffect

/-!
# Mixed codecs and the server's order

An AVC420 access unit is decoded by the page: `on_avc420_raw` only hands it
over, and its full-surface frame arrives later through
`on_avc420_decoded`, first in, first out on each surface. Every other order
paints at once. The page's pending frames are the ghost of an
`Avc420State`; `serverOrder` is the run in which each frame arrives before
the next order.

A frame that arrives late paints over whatever the server drew after its
unit (`not_always_server_order`). The simulation that does hold is `Sim`:
the framebuffer in the server's order is the actual one with the pending
frames still to be written to it. Orders that act only on surfaces with
nothing pending keep it, and with nothing pending at all it is equality
(`server_order_of_settled`).

The three kinds of step are three lemmas. `Sim.order` compares one order on
two handlers that need not be equal, only alike on the surfaces it touches and
in the cache: `SameChange` says that both were changed in the same way, and
`sameChange_step` proves it for each order. `Sim.accessUnit` writes the frame
at once on one side and queues it on the other. `Sim.delivered` takes the
first pending frame away and leaves the other side alone, where the frame was
written long ago. `AsyncRun.sim` is the induction over a run.
-/

namespace WasmRdp

open Slices

variable {D : ProgressiveDecoder}

/-- The orders that paint at once, read a surface or use the cache. -/
def Callback.composites : Callback → Bool
  | .solidFill .. | .bitmapUpdated .. | .surfaceToSurface ..
  | .surfaceToCache .. | .cacheToSurface .. | .evictCacheEntry .. => true
  | _ => false

/-- The surfaces such an order reads or writes. -/
def Callback.Touches (id : UInt16) : Callback → Prop
  | .solidFill pdu => id = pdu.surfaceId
  | .bitmapUpdated update => id = update.surfaceId
  | .surfaceToSurface pdu =>
      id = pdu.sourceSurfaceId ∨ id = pdu.destinationSurfaceId
  | .surfaceToCache pdu => id = pdu.surfaceId
  | .cacheToSurface pdu => id = pdu.surfaceId
  | _ => False

/-- What the server sends: an order, or an access unit, with the frame the
page's decoder makes of it. -/
inductive ServerOp where
  | order (cb : Callback)
  | accessUnit (surfaceId : UInt16) (originX originY : UInt32)
      (width height : UInt16) (data : List UInt8) (rgba : List UInt8)

open WasmGfxHandler

/-- One operation with no delay. -/
def applyOp (h : WasmGfxHandler D) : ServerOp → Checked (WasmGfxHandler D)
  | .order cb => h.step cb
  | .accessUnit id originX originY width height data rgba => do
      let h ← h.step (.avc420Raw id originX originY width height data)
      h.step (.avc420Decoded id rgba)

/-- All operations in the order the server sent them. -/
def serverOrder (h : WasmGfxHandler D) (ops : List ServerOp) :
    Checked (WasmGfxHandler D) :=
  ops.foldlM applyOp h

theorem serverOrder_snoc {h hs : WasmGfxHandler D} {ops : List ServerOp}
    (hops : serverOrder h ops = .ok hs) (op : ServerOp) :
    serverOrder h (ops ++ [op]) = applyOp hs op := by
  rw [serverOrder, List.foldlM_append, ← serverOrder, hops]
  exact bind_pure (applyOp hs op)

/-- The handler, and the frames of each surface the page has still to
deliver. -/
structure Avc420State (D : ProgressiveDecoder) where
  handler : WasmGfxHandler D
  pending : UInt16 → List (List UInt8)

/-- A run in which frames are delivered at any later moment. `ops` is what
the server has sent; an order has to pass `guard`. -/
inductive AsyncRun (guard : Avc420State D → Callback → Prop)
    (h₀ : WasmGfxHandler D) : List ServerOp → Avc420State D → Prop
  | start : AsyncRun guard h₀ [] ⟨h₀, fun _ => []⟩
  | order {ops : List ServerOp} {a : Avc420State D} (cb : Callback)
      {h' : WasmGfxHandler D} (hr : AsyncRun guard h₀ ops a)
      (hcb : cb.composites = true) (hg : guard a cb)
      (hs : a.handler.step cb = .ok h') :
      AsyncRun guard h₀ (ops ++ [.order cb]) ⟨h', a.pending⟩
  | accessUnit {ops : List ServerOp} {a : Avc420State D} {id : UInt16}
      {originX originY : UInt32} {width height : UInt16}
      {data : List UInt8} (rgba : List UInt8) {h' : WasmGfxHandler D}
      (hr : AsyncRun guard h₀ ops a)
      (hs : a.handler.step (.avc420Raw id originX originY width height data) =
        .ok h') :
      AsyncRun guard h₀
        (ops ++ [.accessUnit id originX originY width height data rgba])
        ⟨h', Function.update a.pending id (a.pending id ++ [rgba])⟩
  | delivered {ops : List ServerOp} {a : Avc420State D} (id : UInt16)
      {rgba : List UInt8} {rest : List (List UInt8)} {h' : WasmGfxHandler D}
      (hr : AsyncRun guard h₀ ops a) (hp : a.pending id = rgba :: rest)
      (hs : a.handler.step (.avc420Decoded id rgba) = .ok h') :
      AsyncRun guard h₀ ops ⟨h', Function.update a.pending id rest⟩

/-- The order acts only on surfaces with no frame pending. -/
def Settled (a : Avc420State D) (cb : Callback) : Prop :=
  ∀ id, cb.Touches id → a.pending id = []

/-! ## Late frames -/

/-- What a delivered frame leaves of a framebuffer. -/
def deliver (fb rgba : List UInt8) : List UInt8 :=
  if rgba.length = fb.length then rgba else fb

/-- A surface after all its pending frames. -/
def GfxSurface.settle (frames : List (List UInt8)) (s : GfxSurface D) :
    GfxSurface D :=
  { s with fb := frames.foldl deliver s.fb }

theorem GfxSurface.settle_append (s : GfxSurface D)
    (frames frames' : List (List UInt8)) :
    s.settle (frames ++ frames') = (s.settle frames).settle frames' := by
  simp only [GfxSurface.settle, List.foldl_append]

theorem GfxSurface.settle_cons (s : GfxSurface D) (rgba : List UInt8)
    (frames : List (List UInt8)) :
    s.settle (rgba :: frames) = (s.settle [rgba]).settle frames :=
  s.settle_append [rgba] frames

/-- The effect of a delivery on the surfaces. -/
theorem lookup_onAvc420Decoded {h h' : WasmGfxHandler D} {id : UInt16}
    {rgba : List UInt8} (hs : h.step (.avc420Decoded id rgba) = .ok h') :
    h'.cache = h.cache ∧ ∀ i, h'.gfx.lookup i = if i = id then
      (h.gfx.lookup i).map (GfxSurface.settle [rgba]) else h.gfx.lookup i := by
  rw [WasmGfxHandler.step, onAvc420Decoded] at hs
  have hsame : ∀ o : Option (GfxSurface D), h.gfx.lookup id = o →
      o.map (GfxSurface.settle [rgba]) = o → ∀ i, h.gfx.lookup i =
        if i = id then (h.gfx.lookup i).map (GfxSurface.settle [rgba])
        else h.gfx.lookup i := by
    intro o ho hmap i
    split
    · subst i
      rw [ho, hmap]
    · rfl
  split at hs
  · rename_i hnone
    obtain rfl := Except.ok.inj hs
    exact ⟨rfl, hsame none hnone rfl⟩
  · rename_i s hsome
    split at hs
    · rename_i hlen
      obtain rfl := Except.ok.inj hs
      refine ⟨rfl, hsame (some s) hsome (congrArg some ?_)⟩
      simp only [GfxSurface.settle, List.foldl_cons, List.foldl_nil, deliver,
        if_neg hlen]
    · rename_i hlen
      rw [not_not] at hlen
      rw [copyFromSlice_eq_ok (Nat.zero_le _) (Nat.le_refl _) (by omega)] at hs
      have hfb : splice s.fb 0 rgba = rgba := by
        simp [splice, ← hlen]
      rw [hfb] at hs
      have hp := (returns_present ..).of_eq hs
      refine ⟨hp.cache, fun i => ?_⟩
      rw [hp.gfx]
      split
      · subst i
        rw [Finmap.lookup_insert, hsome]
        simp only [Option.map_some, GfxSurface.settle, List.foldl_cons,
          List.foldl_nil, deliver, if_pos hlen]
      · exact Finmap.lookup_insert_of_ne _ ‹_›

/-! ## Orders on settled surfaces -/

/-- Two handlers the same order changed the same way: both kept their
surfaces, or both put back the same surface under an id it touches. -/
def SameChange (cb : Callback) (h h' hs hs' : WasmGfxHandler D) : Prop :=
  hs'.cache = h'.cache ∧ ((h'.gfx = h.gfx ∧ hs'.gfx = hs.gfx) ∨
    ∃ id s, cb.Touches id ∧ h'.gfx = h.gfx.insert id s ∧
      hs'.gfx = hs.gfx.insert id s)

section

variable {h hs h' : WasmGfxHandler D} {cb : Callback}

/-- An order that changes neither handler. -/
theorem SameChange.idle (hcache : hs.cache = h.cache) : SameChange cb h h hs hs :=
  ⟨hcache, .inl ⟨rfl, rfl⟩⟩

/-- Painting depends on the one surface painted. -/
theorem sameChange_drawOn {codec codec' : VideoCodec} {id : UInt16}
    {paint : GfxSurface D → Checked (List UInt8 × List InclusiveRectangle)}
    (htouch : cb.Touches id) (hgfx : hs.gfx.lookup id = h.gfx.lookup id)
    (hcache : hs.cache = h.cache) (hrun : h.drawOn codec id paint = .ok h') :
    ∃ hs', hs.drawOn codec' id paint = .ok hs' ∧ SameChange cb h h' hs hs' := by
  cases drawn_of_drawOn hrun with
  | missing hnone =>
      refine ⟨hs, ?_, .idle hcache⟩
      rw [drawOn, hgfx, hnone]
      rfl
  | @painted s fb dirty _ hsome hpaint hp =>
      obtain ⟨hs', hpresent, hp'⟩ := returns_present
        { hs with videoCodec := codec' } id { s with fb } dirty
      refine ⟨hs', ?_, ?_, .inr ⟨id, _, htouch, hp.gfx, hp'.gfx⟩⟩
      · rw [drawOn, hgfx, hsome]
        dsimp only
        rw [hpaint]
        exact hpresent
      · rw [hp.cache, hp'.cache]
        exact hcache

theorem sameChange_cacheToSurface {pdu : CacheToSurfacePdu}
    (hgfx : hs.gfx.lookup pdu.surfaceId = h.gfx.lookup pdu.surfaceId)
    (hcache : hs.cache = h.cache) (hrun : h.onCacheToSurface pdu = .ok h') :
    ∃ hs', hs.onCacheToSurface pdu = .ok hs' ∧
      SameChange (.cacheToSurface pdu) h h' hs hs' := by
  cases hslot : h.cache.lookup pdu.cacheSlot with
  | none =>
      rw [onCacheToSurface, hslot] at hrun
      obtain rfl := Except.ok.inj hrun
      refine ⟨hs, ?_, .idle hcache⟩
      rw [onCacheToSurface, hcache, hslot]
      rfl
  | some entry =>
      rw [onCacheToSurface_eq hslot] at hrun
      rw [onCacheToSurface_eq (by rw [hcache, hslot])]
      exact sameChange_drawOn rfl hgfx hcache hrun

/-- Both handlers snapshot the same source. -/
theorem sameChange_surfaceToSurface {pdu : SurfaceToSurfacePdu}
    (hsrc : hs.gfx.lookup pdu.sourceSurfaceId = h.gfx.lookup pdu.sourceSurfaceId)
    (hdst : hs.gfx.lookup pdu.destinationSurfaceId =
      h.gfx.lookup pdu.destinationSurfaceId)
    (hcache : hs.cache = h.cache) (hrun : h.onSurfaceToSurface pdu = .ok h') :
    ∃ hs', hs.onSurfaceToSurface pdu = .ok hs' ∧
      SameChange (.surfaceToSurface pdu) h h' hs hs' := by
  cases hs₀ : h.gfx.lookup pdu.sourceSurfaceId with
  | none =>
      rw [onSurfaceToSurface, hs₀] at hrun
      obtain rfl := Except.ok.inj hrun
      refine ⟨hs, ?_, .idle hcache⟩
      rw [onSurfaceToSurface, hsrc, hs₀]
      rfl
  | some src =>
      rw [onSurfaceToSurface_eq hs₀ rfl] at hrun
      rw [onSurfaceToSurface_eq (hsrc.trans hs₀) rfl]
      split at hrun
      · rename_i hempty
        obtain rfl := Except.ok.inj hrun
        rw [if_pos hempty]
        exact ⟨hs, rfl, .idle hcache⟩
      · rename_i hne
        rw [if_neg hne]
        obtain ⟨tmp, htmp, hdraw⟩ := bind_eq_ok hrun
        rw [htmp]
        exact sameChange_drawOn (.inr rfl) hdst hcache hdraw

/-- Both handlers store the same part. -/
theorem sameChange_surfaceToCache {pdu : SurfaceToCachePdu}
    (hgfx : hs.gfx.lookup pdu.surfaceId = h.gfx.lookup pdu.surfaceId)
    (hcache : hs.cache = h.cache) (hrun : h.onSurfaceToCache pdu = .ok h') :
    ∃ hs', hs.onSurfaceToCache pdu = .ok hs' ∧
      SameChange (.surfaceToCache pdu) h h' hs hs' := by
  unfold onSurfaceToCache at hrun ⊢
  rw [hgfx]
  split at hrun
  · obtain rfl := Except.ok.inj hrun
    exact ⟨hs, rfl, .idle hcache⟩
  · dsimp only at hrun ⊢
    split at hrun
    · rename_i hempty
      obtain rfl := Except.ok.inj hrun
      rw [if_pos hempty]
      exact ⟨hs, rfl, .idle hcache⟩
    · rename_i hne
      rw [if_neg hne]
      obtain ⟨w, hw, hrun⟩ := bind_eq_ok hrun
      obtain ⟨ht, hht, hrun⟩ := bind_eq_ok hrun
      obtain ⟨data, hdata, hrun⟩ := bind_eq_ok hrun
      obtain rfl := Except.ok.inj hrun
      simp only [hw, hht, bind, Except.bind] at hdata ⊢
      rw [hdata]
      exact ⟨_, rfl, by rw [← hcache], .inl ⟨rfl, rfl⟩⟩

/-- An order changes two handlers the same way when they agree on the
surfaces it touches and on the cache. -/
theorem sameChange_step (hcb : cb.composites = true)
    (hgfx : ∀ id, cb.Touches id → hs.gfx.lookup id = h.gfx.lookup id)
    (hcache : hs.cache = h.cache) (hrun : h.step cb = .ok h') :
    ∃ hs', hs.step cb = .ok hs' ∧ SameChange cb h h' hs hs' := by
  cases cb with
  | solidFill pdu =>
      simp only [WasmGfxHandler.step, onSolidFill_eq] at hrun ⊢
      exact sameChange_drawOn rfl (hgfx _ rfl) hcache hrun
  | bitmapUpdated update =>
      simp only [WasmGfxHandler.step, onBitmapUpdated_eq] at hrun ⊢
      exact sameChange_drawOn rfl (hgfx _ rfl) hcache hrun
  | cacheToSurface pdu =>
      exact sameChange_cacheToSurface (hgfx _ rfl) hcache hrun
  | surfaceToSurface pdu =>
      exact sameChange_surfaceToSurface (hgfx _ (.inl rfl)) (hgfx _ (.inr rfl))
        hcache hrun
  | surfaceToCache pdu =>
      exact sameChange_surfaceToCache (hgfx _ rfl) hcache hrun
  | evictCacheEntry slot =>
      obtain rfl := Except.ok.inj hrun
      refine ⟨_, rfl, ?_, .inl ⟨rfl, rfl⟩⟩
      simp only [onEvictCacheEntry, hcache]
  | _ => cases hcb

end

/-! ## The simulation -/

/-- `hs` is what the actual handler becomes once every pending frame is
delivered. -/
structure Sim (a : Avc420State D) (hs : WasmGfxHandler D) : Prop where
  cache : hs.cache = a.handler.cache
  gfx : ∀ id, hs.gfx.lookup id =
    (a.handler.gfx.lookup id).map (GfxSurface.settle (a.pending id))

/-- A surface with nothing pending is the same in both. -/
theorem Sim.lookup_of_settled {a : Avc420State D} {hs : WasmGfxHandler D}
    (hsim : Sim a hs) {id : UInt16} (hp : a.pending id = []) :
    hs.gfx.lookup id = a.handler.gfx.lookup id := by
  rw [hsim.gfx, hp]
  exact Option.map_id'

/-- An order on settled surfaces. -/
theorem Sim.order {a : Avc420State D} {hs h' : WasmGfxHandler D}
    {cb : Callback} (hsim : Sim a hs) (hcb : cb.composites = true)
    (hsettled : Settled a cb) (hstep : a.handler.step cb = .ok h') :
    ∃ hs', applyOp hs (.order cb) = .ok hs' ∧ Sim ⟨h', a.pending⟩ hs' := by
  obtain ⟨hs', hrun, hcache, hchange⟩ := sameChange_step hcb
    (fun id ht => hsim.lookup_of_settled (hsettled id ht)) hsim.cache hstep
  refine ⟨hs', hrun, hcache, fun i => ?_⟩
  rcases hchange with ⟨hg, hg'⟩ | ⟨id, s, ht, hg, hg'⟩
  · rw [hg, hg']
    exact hsim.gfx i
  · rw [hg, hg']
    by_cases hi : i = id
    · subst hi
      rw [Finmap.lookup_insert, Finmap.lookup_insert, hsettled i ht]
      rfl
    · rw [Finmap.lookup_insert_of_ne _ hi, Finmap.lookup_insert_of_ne _ hi]
      exact hsim.gfx i

/-- Handing over an access unit changes no surface. -/
theorem gfx_onAvc420Raw {h h' : WasmGfxHandler D} (id : UInt16)
    {originX originY : UInt32} {width height : UInt16} {data : List UInt8}
    (hs : h.step (.avc420Raw id originX originY width height data) = .ok h') :
    h'.gfx = h.gfx ∧ h'.cache = h.cache := by
  obtain ⟨⟨annexB, isKeyframe⟩, -, hret⟩ := bind_eq_ok hs
  obtain rfl := Except.ok.inj hret
  exact ⟨rfl, rfl⟩

/-- An access unit: its frame is written at once on one side, and joins the
pending ones on the other. -/
theorem Sim.accessUnit {a : Avc420State D} {hs h' : WasmGfxHandler D}
    {id : UInt16} {originX originY : UInt32} {width height : UInt16}
    {data : List UInt8} (rgba : List UInt8) (hsim : Sim a hs)
    (hstep : a.handler.step (.avc420Raw id originX originY width height data) =
      .ok h') :
    ∃ hs', applyOp hs (.accessUnit id originX originY width height data rgba) =
        .ok hs' ∧
      Sim ⟨h', Function.update a.pending id (a.pending id ++ [rgba])⟩ hs' := by
  obtain ⟨hgfx, hcache⟩ := gfx_onAvc420Raw id hstep
  obtain ⟨hr, hraw, -⟩ := (returns_avcToAnnexbFrom data false 0).bind
    (f := fun x : List UInt8 × Bool => (pure { hs with js := hs.js ++
      [.avc420Frame id originX originY width height x.2 x.1] } :
        Checked (WasmGfxHandler D))) (Q := fun _ => True)
    fun _ _ => Returns.pure trivial
  obtain ⟨hgfxr, hcacher⟩ := gfx_onAvc420Raw id hraw
  obtain ⟨hs', hdec, -⟩ := returns_onAvc420Decoded hr id rgba
  obtain ⟨hcache', hlookup⟩ := lookup_onAvc420Decoded hdec
  refine ⟨hs', ?_, ?_, fun i => ?_⟩
  · have hraw' : hs.step (.avc420Raw id originX originY width height data) =
        .ok hr := hraw
    rw [applyOp, hraw']
    exact hdec
  · rw [hcache', hcacher, hsim.cache, hcache]
  · dsimp only
    rw [hlookup i, hgfxr, hgfx, hsim.gfx i]
    by_cases hi : i = id
    · subst hi
      rw [if_pos rfl, Function.update_self, Option.map_map]
      refine congrArg (fun f => Option.map f _) (funext fun s => ?_)
      exact (s.settle_append _ _).symm
    · rw [if_neg hi, Function.update_of_ne hi]

/-- A delivery: the first pending frame is no longer pending. -/
theorem Sim.delivered {a : Avc420State D} {hs h' : WasmGfxHandler D}
    {id : UInt16} {rgba : List UInt8} {rest : List (List UInt8)}
    (hsim : Sim a hs) (hp : a.pending id = rgba :: rest)
    (hstep : a.handler.step (.avc420Decoded id rgba) = .ok h') :
    Sim ⟨h', Function.update a.pending id rest⟩ hs := by
  obtain ⟨hcache, hlookup⟩ := lookup_onAvc420Decoded hstep
  refine ⟨hsim.cache.trans hcache.symm, fun i => ?_⟩
  dsimp only
  rw [hlookup i, hsim.gfx i]
  by_cases hi : i = id
  · subst hi
    rw [if_pos rfl, Function.update_self, Option.map_map, hp]
    exact congrArg (fun f => Option.map f _)
      (funext fun s => s.settle_cons rgba rest)
  · rw [if_neg hi, Function.update_of_ne hi]

/-- Every settled run is simulated by the server's order. -/
theorem AsyncRun.sim {h₀ : WasmGfxHandler D} {ops : List ServerOp}
    {a : Avc420State D} (hrun : AsyncRun Settled h₀ ops a) :
    ∃ hs, serverOrder h₀ ops = .ok hs ∧ Sim a hs := by
  induction hrun with
  | start => exact ⟨h₀, rfl, rfl, fun id => (congrFun Option.map_id _).symm⟩
  | order cb _ hcb hg hs ih =>
      obtain ⟨hs, hops, hsim⟩ := ih
      obtain ⟨hs', hstep, hsim'⟩ := hsim.order hcb hg ‹_›
      exact ⟨hs', (serverOrder_snoc hops _).trans hstep, hsim'⟩
  | accessUnit rgba _ hs ih =>
      obtain ⟨hs, hops, hsim⟩ := ih
      obtain ⟨hs', hstep, hsim'⟩ := hsim.accessUnit _ ‹_›
      exact ⟨hs', (serverOrder_snoc hops _).trans hstep, hsim'⟩
  | delivered id _ hp hs ih =>
      obtain ⟨hs, hops, hsim⟩ := ih
      exact ⟨hs, hops, hsim.delivered hp ‹_›⟩

/-- Mixed-codec compositing respects the server's order in every run whose
orders act only on surfaces with no frame pending: once all frames are
delivered, every framebuffer is the one of the server's order. -/
theorem server_order_of_settled {h₀ : WasmGfxHandler D} {ops : List ServerOp}
    {a : Avc420State D} (hrun : AsyncRun Settled h₀ ops a)
    (hdone : ∀ id, a.pending id = []) :
    ∃ hs, serverOrder h₀ ops = .ok hs ∧ ∀ id,
      (a.handler.gfx.lookup id).map GfxSurface.fb =
        (hs.gfx.lookup id).map GfxSurface.fb := by
  obtain ⟨hs, hops, hsim⟩ := hrun.sim
  exact ⟨hs, hops, fun id => by rw [hsim.lookup_of_settled (hdone id)]⟩

/-! ## A late frame -/

/-- One surface of one pixel. -/
def onePixel : WasmGfxHandler .rejecting :=
  (new [] ∅ false .rfx []).onSurfaceCreated ⟨7, 1, 1⟩

/-- An access unit of one IDR slice, and the frame it decodes to, then a
fill. -/
def unitThenFill : List ServerOp :=
  [.accessUnit 7 0 0 1 1 [0, 0, 0, 1, 0x65] [9, 9, 9, 255],
    .order (.solidFill ⟨7, ⟨1, 2, 3⟩, [⟨0, 0, 1, 1⟩]⟩)]

/-- Nothing is pending once the one frame is delivered. -/
theorem pending_of_delivered (rgba : List UInt8) (id : UInt16) :
    Function.update (Function.update (fun _ => []) 7 [rgba]) 7 [] id = [] := by
  by_cases hi : id = 7
  · rw [hi, Function.update_self]
  · rw [Function.update_of_ne hi, Function.update_of_ne hi]

theorem avcToAnnexb_idr :
    avcToAnnexb [0, 0, 0, 1, 0x65] = .ok ([0, 0, 0, 1, 0x65], true) := by
  rw [avcToAnnexb, avcToAnnexbFrom, if_pos (by decide)]
  change avcToAnnexbFrom [0, 0, 0, 1, 0x65] true 5 = _
  rw [avcToAnnexbFrom, if_neg (by decide)]
  rfl

theorem step_avc420Raw_idr (h : WasmGfxHandler D) (id : UInt16)
    (originX originY : UInt32) (width height : UInt16) :
    h.step (.avc420Raw id originX originY width height [0, 0, 0, 1, 0x65]) =
      .ok { h with js := h.js ++ [.avc420Frame id originX originY width height
        true [0, 0, 0, 1, 0x65]] } := by
  rw [WasmGfxHandler.step, onAvc420Raw, avcToAnnexb_idr]
  rfl

/-- The frame arrives before the fill. -/
theorem settled_unitThenFill :
    ∃ a, AsyncRun Settled onePixel unitThenFill a ∧ (∀ id, a.pending id = []) ∧
      (a.handler.gfx.lookup 7).map GfxSurface.fb = some [1, 2, 3, 255] := by
  have hstart : AsyncRun Settled onePixel [] ⟨onePixel, fun _ => []⟩ := .start
  have hunit := hstart.accessUnit [9, 9, 9, 255]
    (step_avc420Raw_idr onePixel 7 0 0 1 1)
  have hframe := hunit.delivered 7 rfl rfl
  have hfill := AsyncRun.order (.solidFill ⟨7, ⟨1, 2, 3⟩, [⟨0, 0, 1, 1⟩]⟩)
    hframe rfl (fun id _ => pending_of_delivered _ id) rfl
  exact ⟨_, hfill, pending_of_delivered _, by decide⟩

theorem server_order_of_settled_example :
    ∃ (a : Avc420State .rejecting) (hs : WasmGfxHandler .rejecting),
      AsyncRun Settled onePixel unitThenFill a ∧ serverOrder onePixel unitThenFill = .ok hs ∧
        (a.handler.gfx.lookup 7).map GfxSurface.fb = some [1, 2, 3, 255] ∧ ∀ id,
        (a.handler.gfx.lookup id).map GfxSurface.fb =
          (hs.gfx.lookup id).map GfxSurface.fb := by
  obtain ⟨a, hrun, hdone, hpixel⟩ := settled_unitThenFill
  obtain ⟨hs, hops, hfb⟩ := server_order_of_settled hrun hdone
  exact ⟨a, hs, hrun, hops, hpixel, hfb⟩

/-- The frame arrives after the fill and paints over it: in the server's
order the pixel is the fill's. -/
theorem not_always_server_order :
    ¬ ∀ (D : ProgressiveDecoder) (h₀ : WasmGfxHandler D) (ops : List ServerOp)
      (a : Avc420State D), AsyncRun (fun _ _ => True) h₀ ops a →
      (∀ id, a.pending id = []) → ∃ hs, serverOrder h₀ ops = .ok hs ∧ ∀ id,
        (a.handler.gfx.lookup id).map GfxSurface.fb =
          (hs.gfx.lookup id).map GfxSurface.fb := by
  intro hall
  have hstart : AsyncRun (fun _ _ => True) onePixel []
      ⟨onePixel, fun _ => []⟩ := .start
  have hunit := hstart.accessUnit [9, 9, 9, 255]
    (step_avc420Raw_idr onePixel 7 0 0 1 1)
  have hfill := AsyncRun.order (.solidFill ⟨7, ⟨1, 2, 3⟩, [⟨0, 0, 1, 1⟩]⟩)
    hunit rfl trivial rfl
  have hlate := hfill.delivered 7 rfl rfl
  obtain ⟨hs, hops, hfb⟩ := hall _ _ _ _ hlate (pending_of_delivered _)
  obtain ⟨a, hrun, hdone, hpixel⟩ := settled_unitThenFill
  obtain ⟨hs', hops', hsim⟩ := hrun.sim
  obtain rfl := Except.ok.inj (hops.symm.trans hops')
  have hlast := hfb 7
  rw [hsim.lookup_of_settled (hdone 7), hpixel] at hlast
  revert hlast
  decide

end WasmRdp
