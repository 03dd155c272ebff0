import WasmRdp.GfxEffect

/-!
# Runs of the handler

The buffers stay exact over every run, whatever the server sends, so no
callback ever aborts (`run_never_aborts`). On top of it the frame argument
of the bitmap cache: a slot keeps its pixels until it is stored to or
evicted, and restoring it where it was taken undoes everything painted
under it in between (`save_under`).

Exactness needs no more of the server than that the progressive decoder keeps
the length of the framebuffer it is given. One step is `Effect.buffersExact`,
by cases on the effect; a run is `returns_run`, where exactness both makes the
next callback return and is what it leaves. The witness of the case that looks
dangerous, rectangles beyond the surface and a tile with too little data, is
clipped rather than refused.

`Reachable` is the closure that the session really has: between two callbacks
the canvases may be drawn on or replaced, and when the channel is opened again
a new handler takes over the shared surfaces with an empty cache. Save-under
is stated over those states. `Disturbs` reads off the callback and the state
whether the slot is touched: a store whose rectangle misses the surface stores
nothing. The restored block lands clipped exactly as it was taken, since the
surface still has its size.
-/

namespace WasmRdp

open Slices Raster

variable {D : ProgressiveDecoder}

namespace WasmGfxHandler

/-! ## Exact buffers -/

/-- One callback keeps the buffers exact. -/
theorem Effect.buffersExact {h h' : WasmGfxHandler D} {cb : Callback}
    (hD : D.KeepsLength) (he : Effect h cb h') (hx : h.BuffersExact) :
    h'.BuffersExact := by
  cases he with
  | reset width height => exact ⟨fun _ _ hs => (nomatch hs), hx.slot⟩
  | created surface => exact hx.created surface
  | deleted id =>
      exact ⟨fun i s hs => hx.fb i s (Lookups.of_erase hs).2, hx.slot⟩
  | evicted slot => exact hx.evict slot
  | stored pdu e hexact => exact hx.store (hexact hx) _
  | idle _ => exact ⟨hx.fb, hx.slot⟩
  | mapped _ hs hp =>
      have hexact := hx.fb _ _ hs
      exact hx.insert _ (by exact hexact) hp.gfx hp.cache
  | drawn _ hs hlen _ hp =>
      refine hx.insert _ ?_ hp.gfx hp.cache
      exact (hlen hx hD).trans (hx.fb _ _ hs)

/-- Every finite run returns and leaves the buffers exact. -/
theorem returns_run (hD : D.KeepsLength) {h : WasmGfxHandler D}
    (hx : h.BuffersExact) (cbs : List Callback) :
    Returns (h.run cbs) BuffersExact := by
  refine returns_foldlM (fun _ h => BuffersExact h) hx ?_ cbs
  intro _ cb h hx
  obtain ⟨h', hstep, -⟩ := returns_step hx cb
  exact ⟨h', hstep, (effect_of_step hstep).buffersExact hD hx⟩

/-- No server input makes the handler abort: from no surfaces and an empty
cache every run of callbacks returns, and in the state it leaves every
framebuffer and every slot has the length its dimensions say. -/
theorem run_never_aborts (hD : D.KeepsLength) (canvases : List Canvas)
    (videoCodec : VideoCodec) (js : List JsCall) (cbs : List Callback) :
    Returns ((new (D := D) canvases ∅ false videoCodec js).run cbs)
      BuffersExact :=
  returns_run hD (buffersExact_new ..) cbs

/-- A fill that overlaps the surface and a tile with too little data. -/
theorem run_never_aborts_clipped :
    Returns ((new (D := .rejecting) [] ∅ false .rfx []).run
      [.surfaceCreated ⟨7, 2, 1⟩, .solidFill ⟨7, ⟨1, 2, 3⟩, [⟨1, 0, 9, 9⟩]⟩,
        .bitmapUpdated ⟨7, ⟨0, 0, 1, 1⟩, .planar, 2, 2, [9, 9, 9, 9]⟩])
      BuffersExact :=
  run_never_aborts ProgressiveDecoder.lawful_rejecting.keepsLength ..

/-! ## Reachable states -/

/-- The states of the handlers of one session. The session may draw on its
canvases or replace them at any time, and re-opening the channel starts a
handler with an empty cache over the shared cells. -/
inductive Reachable : WasmGfxHandler D → Prop
  | start (canvases : List Canvas) :
      Reachable (new canvases ∅ false .rfx [])
  | step {h h' : WasmGfxHandler D} (cb : Callback) (hr : Reachable h)
      (hs : h.step cb = .ok h') : Reachable h'
  | canvases {h : WasmGfxHandler D} (hr : Reachable h)
      (surfaces : List Canvas) : Reachable { h with surfaces }
  | reopen {h : WasmGfxHandler D} (hr : Reachable h) :
      Reachable (new h.surfaces h.gfx h.egfxActive h.videoCodec h.js)

theorem Reachable.buffersExact (hD : D.KeepsLength) {h : WasmGfxHandler D}
    (hr : Reachable h) : h.BuffersExact := by
  induction hr with
  | start canvases => exact buffersExact_new ..
  | step cb _ hs ih => exact (effect_of_step hs).buffersExact hD ih
  | canvases _ _ ih => exact ⟨ih.fb, ih.slot⟩
  | reopen _ ih => exact ⟨ih.fb, fun _ _ hk => (nomatch hk)⟩

end WasmGfxHandler

/-! ## Save-under -/

/-- Part of the rectangle lies on the surface. -/
def GfxSurface.Meets (s : GfxSurface D) (r : InclusiveRectangle) : Prop :=
  ∃ x y, (x < s.width.toNat ∧ y < s.height.toNat) ∧ r.Contains x y

theorem GfxSurface.meets_iff (s : GfxSurface D) (r : InclusiveRectangle) :
    s.Meets r ↔ ¬ ((Compositor.cropTo s.picture r).width = 0 ∨
      (Compositor.cropTo s.picture r).height = 0) := by
  simp only [GfxSurface.Meets, InclusiveRectangle.Contains, Compositor.cropTo,
    Picture.crop, GfxSurface.picture, ofBuffer]
  constructor
  · rintro ⟨x, y, hs, hr⟩
    omega
  · intro h
    exact ⟨r.left.toNat, r.top.toNat, by omega, by omega⟩

namespace WasmGfxHandler

/-- The callback stores to the slot or evicts it. A store whose rectangle
misses the surface stores nothing. -/
def Disturbs (h : WasmGfxHandler D) (slot : UInt16) : Callback → Prop
  | .surfaceToCache pdu => pdu.cacheSlot = slot ∧
      ∃ s, h.gfx.lookup pdu.surfaceId = some s ∧ s.Meets pdu.sourceRectangle
  | .evictCacheEntry k => k = slot
  | _ => False

/-- A run of callbacks none of which disturbs the slot. -/
inductive Undisturbed (slot : UInt16) (h : WasmGfxHandler D) :
    WasmGfxHandler D → Prop
  | refl : Undisturbed slot h h
  | step {h' h'' : WasmGfxHandler D} {cb : Callback}
      (hu : Undisturbed slot h h') (hcb : ¬ h'.Disturbs slot cb)
      (hs : h'.step cb = .ok h'') : Undisturbed slot h h''

/-- A callback that does not disturb a slot leaves it alone. -/
theorem slots_of_step {h h' : WasmGfxHandler D} {slot : UInt16}
    {cb : Callback} (hx : h.BuffersExact) (hcb : ¬ h.Disturbs slot cb)
    (hs : h.step cb = .ok h') : h'.view.slots slot = h.view.slots slot := by
  cases effect_of_step hs with
  | evicted k =>
      have hk : slot ≠ k := fun hk => hcb hk.symm
      rw [view_onEvictCacheEntry, Compositor.evictCacheEntry]
      exact if_neg hk
  | stored pdu e _ =>
      have hview := ((returns_onSurfaceToCache hx pdu).of_eq hs).2
      rw [hview, Compositor.surfaceToCache]
      split
      · rfl
      · rename_i src hsrc
        obtain ⟨s, hs', rfl⟩ := Option.map_eq_some_iff.mp hsrc
        dsimp only
        split
        · rfl
        · rename_i hmeets
          refine if_neg fun hk => hcb ⟨hk.symm, s, hs', ?_⟩
          exact (s.meets_iff _).mpr hmeets
  | reset | created | deleted | idle => rfl
  | mapped _ _ hp => simp only [view, hp.cache]
  | drawn _ _ _ _ hp => simp only [view, hp.cache]

theorem Undisturbed.slots (hD : D.KeepsLength) {slot : UInt16}
    {h h' : WasmGfxHandler D} (hu : Undisturbed slot h h')
    (hx : h.BuffersExact) :
    h'.BuffersExact ∧ h'.view.slots slot = h.view.slots slot := by
  induction hu with
  | refl => exact ⟨hx, rfl⟩
  | step _ hcb hs ih =>
      exact ⟨(effect_of_step hs).buffersExact hD ih.1,
        (slots_of_step ih.1 hcb hs).trans ih.2⟩

/-- Save-under. A part of a surface is saved; after any run that leaves the
slot alone, and the surface there with its size, restoring the slot at the
rectangle's corner gives back the saved pixels under the rectangle and
changes no other pixel of any surface. -/
theorem save_under (hD : D.KeepsLength) {h : WasmGfxHandler D}
    (hr : Reachable h) (pdu : SurfaceToCachePdu) {s : GfxSurface D}
    (hs : h.gfx.lookup pdu.surfaceId = some s)
    (hmeets : s.Meets pdu.sourceRectangle) :
    Returns (h.onSurfaceToCache pdu) (fun h₁ => ∀ h₂ s₂,
      Undisturbed pdu.cacheSlot h₁ h₂ →
      h₂.gfx.lookup pdu.surfaceId = some s₂ →
      s₂.width = s.width → s₂.height = s.height →
      Returns (h₂.onCacheToSurface ⟨pdu.cacheSlot, pdu.surfaceId,
          [⟨pdu.sourceRectangle.left, pdu.sourceRectangle.top⟩]⟩) (fun h₃ =>
        (∃ pic, h₃.view.surfaces pdu.surfaceId = some pic ∧ ∀ x y,
          pic.px x y = if pdu.sourceRectangle.Contains x y then s.picture.px x y
            else s₂.picture.px x y) ∧
        (∀ i, i ≠ pdu.surfaceId → h₃.view.surfaces i = h₂.view.surfaces i) ∧
        h₃.view.slots = h₂.view.slots)) := by
  have hx := hr.buffersExact hD
  refine (returns_onSurfaceToCache hx pdu).imp ?_
  rintro h₁ ⟨hx₁, hview₁⟩ h₂ s₂ hu hs₂ hw hh
  -- the slot holds the saved part
  have hsaved : h₁.view.slots pdu.cacheSlot =
      some (Compositor.cropTo s.picture pdu.sourceRectangle) := by
    have hsurf : h.view.surfaces pdu.surfaceId = some s.picture := by
      simp only [view, hs, Option.map_some]
    rw [hview₁, Compositor.surfaceToCache, hsurf]
    dsimp only
    rw [if_neg ((s.meets_iff _).mp hmeets)]
    exact if_pos rfl
  obtain ⟨hx₂, hslot⟩ := hu.slots hD hx₁
  rw [hsaved] at hslot
  refine (returns_onCacheToSurface hx₂ _).imp ?_
  rintro h₃ ⟨-, hview₃⟩
  simp only [Compositor.cacheToSurface, hslot] at hview₃
  have hsurf₂ : h₂.view.surfaces pdu.surfaceId = some s₂.picture := by
    simp only [view, hs₂, Option.map_some]
  rw [hview₃]
  refine ⟨⟨_, Compositor.draw_surfaces_same hsurf₂, fun x y => ?_⟩,
    fun i => Compositor.draw_surfaces_of_ne, rfl⟩
  exact Picture.paint_crop_px (congrArg UInt16.toNat hw)
    (congrArg UInt16.toNat hh) x y

/-- The second of two pixels is saved, both are overdrawn, and the second is
restored. -/
theorem save_under_fill :
    let h : WasmGfxHandler .rejecting :=
      (new [] ∅ false .rfx []).onSurfaceCreated ⟨7, 2, 1⟩
    let s : GfxSurface .rejecting := ⟨(), [0, 0, 0, 0, 0, 0, 0, 0], 2, 1, 0, 0, false⟩
    ∃ h₁ h₂ s₂ h₃, h.onSurfaceToCache ⟨7, 3, ⟨1, 0, 5, 5⟩⟩ = .ok h₁ ∧
      h₁.onSolidFill ⟨7, ⟨1, 2, 3⟩, [⟨0, 0, 2, 1⟩]⟩ = .ok h₂ ∧
      h₂.gfx.lookup 7 = some s₂ ∧ s₂.fb = [1, 2, 3, 255, 1, 2, 3, 255] ∧
      h₂.onCacheToSurface ⟨3, 7, [⟨1, 0⟩]⟩ = .ok h₃ ∧
      (∃ pic, h₃.view.surfaces 7 = some pic ∧ ∀ x y,
        pic.px x y = if InclusiveRectangle.Contains ⟨1, 0, 5, 5⟩ x y then
          s.picture.px x y else s₂.picture.px x y) ∧
      (∀ i, i ≠ 7 → h₃.view.surfaces i = h₂.view.surfaces i) ∧
      h₃.view.slots = h₂.view.slots := by
  intro h s
  have hr : Reachable h := .step (.surfaceCreated ⟨7, 2, 1⟩) (.start []) rfl
  obtain ⟨h₁, hstored, hrestores⟩ := save_under ProgressiveDecoder.lawful_rejecting.keepsLength hr
    ⟨7, 3, ⟨1, 0, 5, 5⟩⟩ (s := s) (Finmap.lookup_insert _)
    ⟨1, 0, ⟨by decide, by decide⟩, by decide⟩
  cases (rfl : h.onSurfaceToCache ⟨7, 3, ⟨1, 0, 5, 5⟩⟩ = .ok _).symm.trans hstored
  obtain ⟨h₃, hrestored, hafter⟩ := hrestores _ _ (.step .refl
    (id : ¬ Disturbs _ 3 (.solidFill ⟨7, ⟨1, 2, 3⟩, [⟨0, 0, 2, 1⟩]⟩)) rfl) rfl rfl rfl
  exact ⟨_, _, _, h₃, rfl, rfl, rfl, by decide, hrestored, hafter⟩

end WasmGfxHandler

end WasmRdp
