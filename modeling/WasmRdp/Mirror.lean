import WasmRdp.GfxInvariant

/-!
# The screen mirrors the framebuffer

Over a run in which at most one surface is mapped at a time, every canvas
pixel under the mapped surface shows that surface's current pixel
(`screen_mirrors_framebuffer`). The step lemma `Displayed.step` has two
cases: a surface that is mapped is presented whole, and a mapped surface
that is painted is presented where its dirty rectangles cover the change;
elsewhere the canvas already shows it.

The invariant `Displayed` holds three things that need each other: exact
buffers, so that a framebuffer pixel means a point of the surface; nothing of
zero size, since the clipping of a blit computes last coordinates by
subtracting one; and `Mirrors`, the statement itself. `Canvas.ShowsSurface`
gives it for one canvas and one surface in desktop coordinates, which is where
the `u16` origins of both are added (`OnOutput`, `InRange`).

`Displayed.presented` is the case both branches come to: after a surface was
presented the canvases show it, if its rectangles cover each point that they
did not show before. For a newly mapped surface the one rectangle is the whole
surface; for a painted one the cover is `CoversChanges` of `GfxEffect`, which
for the progressive decoder is assumed as `ProgressiveDecoder.Lawful`. Two
mapped surfaces that overlap are outside: they are drawn in the order of their
updates, and no canvas can show both.
-/

namespace WasmRdp

open Slices Raster

variable {D : ProgressiveDecoder}

/-- Index in the framebuffer of the pixel at a desktop point. -/
def GfxSurface.indexAt (s : GfxSurface D) (x y : Nat) : Nat :=
  (y - s.originY.toNat) * s.width.toNat + (x - s.originX.toNat)

/-- The desktop rectangle of a surface. -/
def GfxSurface.OnOutput (s : GfxSurface D) (x y : Nat) : Prop :=
  InSource s.width s.height s.originX s.originY x y

/-- The surface's own coordinates of a desktop point. -/
theorem GfxSurface.OnOutput.local_lt {s : GfxSurface D} {x y : Nat}
    (h : s.OnOutput x y) :
    x - s.originX.toNat < s.width.toNat ∧ y - s.originY.toNat < s.height.toNat := by
  obtain ⟨⟨hx, hx'⟩, hy, hy'⟩ := h
  omega

/-- The surface's rectangle ends within the `u16` coordinates. -/
def GfxSurface.InRange (s : GfxSurface D) : Prop :=
  s.originX.toNat + s.width.toNat ≤ 65536 ∧
    s.originY.toNat + s.height.toNat ≤ 65536

/-- Canvas pixel `(i, j)`, at desktop point `(originX + i, originY + j)`,
shows the surface wherever the surface lies. -/
def Canvas.ShowsSurface (c : Canvas) (s : GfxSurface D) : Prop :=
  ∀ i j, i < c.width.toNat → j < c.height.toNat →
    s.OnOutput (c.originX.toNat + i) (c.originY.toNat + j) →
    c.pixels i j =
      pixel s.fb (s.indexAt (c.originX.toNat + i) (c.originY.toNat + j))

/-- A canvas shows the surface blitted to it when the rectangles cover each
point that it did not show yet. -/
theorem Canvas.Blitted.showsSurface {c c' : Canvas} {s : GfxSurface D}
    {dirty : List InclusiveRectangle}
    (hb : Canvas.Blitted s.fb s.width s.height s.originX s.originY dirty c c')
    (hr : s.InRange)
    (hcover : ∀ i j, i < c.width.toNat → j < c.height.toNat →
      s.OnOutput (c.originX.toNat + i) (c.originY.toNat + j) →
      (∃ r ∈ dirty, r.Covers (c.originX.toNat + i - s.originX.toNat)
        (c.originY.toNat + j - s.originY.toNat)) ∨
      c.pixels i j =
        pixel s.fb (s.indexAt (c.originX.toNat + i) (c.originY.toNat + j))) :
    c'.ShowsSurface s := by
  obtain ⟨⟨hox, hoy, hw, hh⟩, hpix⟩ := hb
  intro i j hi hj hon
  rw [hox, hoy] at hon ⊢
  rw [hw] at hi
  rw [hh] at hj
  rw [hpix i j]
  dsimp only
  split
  · rfl
  · rename_i hout
    refine (hcover i j hi hj hon).resolve_left ?_
    rintro ⟨r, hr', hcov⟩
    refine hout ?_
    obtain ⟨⟨hx1, hx2⟩, hy1, hy2⟩ := hon
    refine ⟨⟨hi, hj⟩, ⟨r, hr', ?_⟩, ⟨hx1, hx2⟩, hy1, hy2⟩
    obtain ⟨hrx, hry⟩ := hr
    have := hcov.translate s.originX s.originY (by omega) (by omega)
    rwa [Nat.add_sub_cancel' hx1, Nat.add_sub_cancel' hy1] at this

namespace WasmGfxHandler

/-- Every canvas shows every mapped surface. -/
def Mirrors (h : WasmGfxHandler D) : Prop :=
  ∀ id s, h.gfx.lookup id = some s → s.mapped = true →
    ∀ c ∈ h.surfaces, c.ShowsSurface s

/-- At most one surface is mapped, and its rectangle is in range. -/
structure OneMapped (h : WasmGfxHandler D) : Prop where
  unique : ∀ id id' s s', h.gfx.lookup id = some s → s.mapped = true →
    h.gfx.lookup id' = some s' → s'.mapped = true → id = id'
  inRange : ∀ id s, h.gfx.lookup id = some s → s.mapped = true → s.InRange

end WasmGfxHandler

/-- A surface or a reset of the desktop has at least one pixel. -/
def Callback.NonZero : Callback → Prop
  | .resetGraphics width height => 0 < width.toNat ∧ 0 < height.toNat
  | .surfaceCreated surface => 0 < surface.width.toNat ∧ 0 < surface.height.toNat
  | _ => True

namespace WasmGfxHandler

/-- The invariant: exact buffers, nothing empty, and the screen shows the
mapped surface. -/
structure Displayed (h : WasmGfxHandler D) : Prop where
  exact : h.BuffersExact
  canvases : ∀ c ∈ h.surfaces, c.NonEmpty
  sizes : ∀ id s, h.gfx.lookup id = some s → 0 < s.width.toNat ∧ 0 < s.height.toNat
  mirrors : h.Mirrors

section

variable {h h' : WasmGfxHandler D} {id : UInt16} {s : GfxSurface D}
  {dirty : List InclusiveRectangle}

/-- What the canvases show after a mapped surface was presented. -/
theorem Presented.blitted (hp : Presented h id s dirty h')
    (hm : s.mapped = true) (hc : ∀ c ∈ h.surfaces, c.NonEmpty)
    (hs : s.Exact) (hsize : 0 < s.width.toNat ∧ 0 < s.height.toNat) :
    ∀ c' ∈ h'.surfaces, ∃ c ∈ h.surfaces, Canvas.Blitted s.fb s.width s.height
      s.originX s.originY dirty c c' := by
  obtain ⟨painted, hblit⟩ := hp.mapped hm
  exact exists_of_forall₂
    ((blitRects_px dirty hc hsize.1 hsize.2 hs).of_eq hblit)

/-- The surface of an entry after surface `id` was put back. -/
theorem Presented.lookup (hp : Presented h id s dirty h') {i : UInt16}
    {t : GfxSurface D} (ht : h'.gfx.lookup i = some t) :
    (i = id ∧ t = s) ∨ (i ≠ id ∧ h.gfx.lookup i = some t) := by
  rw [hp.gfx] at ht
  exact Lookups.of_insert ht

/-- Presenting a surface keeps the invariant when, if it is mapped, its
rectangles cover every point the canvases do not show yet. -/
theorem Displayed.presented (hd : h.Displayed) (hp : Presented h id s dirty h')
    (hone : h'.OneMapped) (hs : s.Exact)
    (hsize : 0 < s.width.toNat ∧ 0 < s.height.toNat)
    (hcover : s.mapped = true → ∀ c ∈ h.surfaces, ∀ i j,
      i < c.width.toNat → j < c.height.toNat →
      s.OnOutput (c.originX.toNat + i) (c.originY.toNat + j) →
      (∃ r ∈ dirty, r.Covers (c.originX.toNat + i - s.originX.toNat)
        (c.originY.toNat + j - s.originY.toNat)) ∨
      c.pixels i j =
        pixel s.fb (s.indexAt (c.originX.toNat + i) (c.originY.toNat + j))) :
    h'.Displayed := by
  have hself : h'.gfx.lookup id = some s := by
    rw [hp.gfx, Finmap.lookup_insert]
  refine ⟨hd.exact.insert _ hs hp.gfx hp.cache, ?_, ?_, ?_⟩
  · intro c' hc'
    cases hm : s.mapped with
    | false => exact hd.canvases c' (by rwa [← hp.unmapped hm])
    | true =>
        obtain ⟨c, hc, hb⟩ := hp.blitted hm hd.canvases hs hsize c' hc'
        have hne := hd.canvases c hc
        rwa [Canvas.NonEmpty, ← hb.1.2.2.1, ← hb.1.2.2.2] at hne
  · intro i t ht
    rcases hp.lookup ht with ⟨rfl, rfl⟩ | ⟨-, ht⟩
    · exact hsize
    · exact hd.sizes i t ht
  · intro i t ht htm c' hc'
    cases hm : s.mapped with
    | false =>
        rcases hp.lookup ht with ⟨rfl, rfl⟩ | ⟨-, ht⟩
        · rw [hm] at htm
          cases htm
        · exact hd.mirrors i t ht htm c' (by rwa [← hp.unmapped hm])
    | true =>
        obtain rfl := hone.unique i id t s ht htm hself hm
        obtain rfl := Option.some.inj (ht.symm.trans hself)
        obtain ⟨c, hc, hb⟩ := hp.blitted hm hd.canvases hs hsize c' hc'
        exact hb.showsSurface (hone.inRange i t ht hm) (hcover hm c hc)

end

/-- A reset of non-zero size leaves no canvas empty. -/
theorem nonEmpty_of_reset {h : WasmGfxHandler D} {width height : UInt32}
    (hw : 0 < width.toNat) (hh : 0 < height.toNat)
    (hc : ∀ c ∈ h.surfaces, c.NonEmpty) :
    ∀ c ∈ (h.onResetGraphics width height).surfaces, c.NonEmpty := by
  unfold onResetGraphics
  dsimp only
  split
  · rename_i canvas hsurf
    intro c hmem
    obtain rfl := List.mem_singleton.mp hmem
    unfold Canvas.resize
    split
    · exact hc canvas (by rw [hsurf]; exact List.mem_singleton.mpr rfl)
    · simp only [Canvas.NonEmpty, UInt16.toNat_ofNat']
      omega
  · exact hc

/-- One callback keeps the invariant. -/
theorem Displayed.step (hD : D.Lawful) {h h' : WasmGfxHandler D}
    {cb : Callback} (hd : h.Displayed) (hcb : cb.NonZero)
    (he : Effect h cb h') (hone : h'.OneMapped) : h'.Displayed := by
  have hexact := he.buffersExact hD.keepsLength hd.exact
  cases he with
  | reset width height =>
      exact ⟨hexact, nonEmpty_of_reset hcb.1 hcb.2 hd.canvases,
        fun _ _ hs => (nomatch hs), fun _ _ hs => (nomatch hs)⟩
  | created surface =>
      -- the new surface is not mapped
      refine ⟨hexact, hd.canvases, fun i s hs => ?_, fun i s hs hm => ?_⟩
      · rcases Lookups.of_insert hs with ⟨-, rfl⟩ | ⟨-, hs⟩
        · exact hcb
        · exact hd.sizes i s hs
      · rcases Lookups.of_insert hs with ⟨-, rfl⟩ | ⟨-, hs⟩
        · cases hm
        · exact hd.mirrors i s hs hm
  | deleted id =>
      have hsub : ∀ i s, (h.onSurfaceDeleted id).gfx.lookup i = some s →
          h.gfx.lookup i = some s := fun i s hs => (Lookups.of_erase hs).2
      exact ⟨hexact, hd.canvases, fun i s hs => hd.sizes i s (hsub i s hs),
        fun i s hs => hd.mirrors i s (hsub i s hs)⟩
  | evicted | stored | idle => exact ⟨hexact, hd.canvases, hd.sizes, hd.mirrors⟩
  | @mapped _ id originX originY s _ _ hs hp =>
      have hsexact := hd.exact.fb id s hs
      have hsize := hd.sizes id s hs
      refine hd.presented hp hone (by exact hsexact) (by exact hsize) ?_
      intro _ c _ i j _ _ hon
      obtain ⟨hx, hy⟩ := hon.local_lt
      exact .inl ⟨_, List.mem_singleton.mpr rfl, covers_fullRect s hx hy⟩
  | @drawn _ id s decoder fb dirty _ _ hs hlen hcov hp =>
      have hsexact := hd.exact.fb id s hs
      have hsize := hd.sizes id s hs
      refine hd.presented hp hone ?_ (by exact hsize) ?_
      · exact (hlen hd.exact hD.keepsLength).trans hsexact
      · intro hm c hc i j hi hj hon
        have hshown := hd.mirrors id s hs hm c hc i j hi hj hon
        obtain ⟨hx, hy⟩ := hon.local_lt
        by_cases hsame : pixel fb (s.indexAt (c.originX.toNat + i)
            (c.originY.toNat + j)) = pixel s.fb (s.indexAt (c.originX.toNat + i)
            (c.originY.toNat + j))
        · exact .inr (hshown.trans hsame.symm)
        · exact .inl (hcov hd.exact hD _ _ hx hy hsame)

/-- A run over fixed canvases: nothing of zero size is created, and after
every callback at most one surface is mapped, with its rectangle in
range. -/
inductive DisplayRun (canvases : List Canvas) : WasmGfxHandler D → Prop
  | start (egfxActive : Bool) (videoCodec : VideoCodec) (js : List JsCall) :
      DisplayRun canvases (new canvases ∅ egfxActive videoCodec js)
  | step {h h' : WasmGfxHandler D} (cb : Callback)
      (hr : DisplayRun canvases h) (hcb : cb.NonZero)
      (hs : h.step cb = .ok h') (hone : h'.OneMapped) : DisplayRun canvases h'

theorem DisplayRun.displayed (hD : D.Lawful) {canvases : List Canvas}
    (hc : ∀ c ∈ canvases, c.NonEmpty) {h : WasmGfxHandler D}
    (hr : DisplayRun canvases h) : h.Displayed := by
  induction hr with
  | start =>
      exact ⟨buffersExact_new .., hc, fun _ _ hs => (nomatch hs),
        fun _ _ hs => (nomatch hs)⟩
  | step cb _ hcb hs hone ih => exact ih.step hD hcb (effect_of_step hs) hone

/-- The screen mirrors the framebuffer: after every callback of such a run
each canvas shows the mapped surface wherever it lies on the canvas, and
every further callback returns. -/
theorem screen_mirrors_framebuffer (hD : D.Lawful) {canvases : List Canvas}
    (hc : ∀ c ∈ canvases, c.NonEmpty) {h : WasmGfxHandler D}
    (hr : DisplayRun canvases h) :
    h.Mirrors ∧ ∀ cb, Returns (h.step cb) (fun _ => True) :=
  ⟨(hr.displayed hD hc).mirrors, returns_step (hr.displayed hD hc).exact⟩

/-- With a single surface there is nothing else to map. -/
theorem OneMapped.of_single {h : WasmGfxHandler D} (id : UInt16)
    {s : GfxSurface D} (hgfx : h.gfx = Finmap.insert id s ∅) (hs : s.InRange) :
    h.OneMapped := by
  have honly : ∀ i t, h.gfx.lookup i = some t → i = id ∧ t = s := by
    intro i t ht
    rw [hgfx] at ht
    rcases Lookups.of_insert ht with honly | ⟨-, ht⟩
    · exact honly
    · cases ht
  refine ⟨fun i i' t t' ht _ ht' _ => ?_, fun i t ht _ => ?_⟩
  · rw [(honly i t ht).1, (honly i' t' ht').1]
  · rw [(honly i t ht).2]
    exact hs

/-- A surface created and mapped on a canvas of its size. -/
theorem screen_mirrors_single_surface :
    let h : WasmGfxHandler .rejecting :=
      (new [⟨0, 0, 2, 1, [], fun _ _ => ⟨0, 0, 0, 0⟩⟩] ∅ false .rfx
        []).onSurfaceCreated ⟨7, 2, 1⟩
    Returns (h.step (.surfaceMapped 7 0 0)) (fun h' =>
      h'.Mirrors ∧ ∀ cb, Returns (h'.step cb) (fun _ => True)) := by
  intro h
  have hcreated : DisplayRun [⟨0, 0, 2, 1, [], fun _ _ => ⟨0, 0, 0, 0⟩⟩] h :=
    .step (.surfaceCreated ⟨7, 2, 1⟩) (.start ..) ⟨by decide, by decide⟩
      rfl (.of_single 7 rfl ⟨by decide, by decide⟩)
  refine ⟨_, rfl, screen_mirrors_framebuffer ProgressiveDecoder.lawful_rejecting
    ?_ (.step (.surfaceMapped 7 0 0) hcreated trivial rfl ?_)⟩
  · intro c hc
    obtain rfl := List.mem_singleton.mp hc
    exact ⟨by decide, by decide⟩
  · refine .of_single 7
      (s := ⟨(), List.replicate 8 0, 2, 1, 0, 0, true⟩) ?_ ⟨by decide, by decide⟩
    exact Finmap.insert_insert (∅ : Finmap fun _ : UInt16 => GfxSurface .rejecting)

end WasmGfxHandler

end WasmRdp
