import WasmRdp.GfxHandler

/-!
# What the pixel loops paint

Each loop of the handler, read as an operation on pictures. `Paints` is
the common shape of the results: the buffer keeps its length, it shows a
given picture, and the dirty rectangles cover every pixel that changed.
A loop over rectangles or points is followed by its list of layers, one
`Picture.paint` for each element.

The induction over such a list is always the same: `Paints.start` begins it,
and `Paints.snoc` adds one layer, which has to be blank outside the block that
the new dirty rectangle covers. What is left for each loop is the pixel-level
fact about one element (`returns_fillBlock` for the two nested loops of
`on_solid_fill`, `returns_copyToPoint` for a saved block); `fillPicture` and
`stampPicture` name the pictures that come out at the end.

Tiles are apart, because their data may be too short: a row is painted when
it lies on the surface and the data reaches its end (`returns_copyTileRows`).
So there are two results, `returns_tile` for any data, which says only where
something can have changed, and `returns_fullTile` for a tile with all its
data, which says what is shown.

The loops that only read are here as well (`returns_snapshot`,
`returns_isBlackTile`, `returns_readSurfaceRect`): the snapshot is the clipped
part of the picture, and the others must not abort.
-/

namespace WasmRdp

open Slices Raster

/-- A buffer and its dirty rectangles after painting `fb₀` up to `pic`. -/
structure Paints (sw sh : Nat) (fb₀ : List UInt8) (pic : Picture Rgba)
    (out : List UInt8 × List InclusiveRectangle) : Prop where
  length : out.1.length = fb₀.length
  shows : ofBuffer out.1 sw sh = pic
  covered : ∀ x y, x < sw → y < sh →
    pixel out.1 (y * sw + x) ≠ pixel fb₀ (y * sw + x) →
      ∃ r ∈ out.2, r.Covers x y

theorem Paints.start (sw sh : Nat) (fb : List UInt8) :
    Paints sw sh fb (ofBuffer fb sw sh) (fb, []) :=
  ⟨rfl, rfl, fun _ _ _ _ h => absurd rfl h⟩

/-- One more layer, blank outside the half-open block
`[dx, dx + w) × [dy, dy + h)` that the new dirty rectangle covers. -/
theorem Paints.snoc {sw sh : Nat} (dx dy w h : Nat) {fb₀ fb fb' : List UInt8}
    {dirty : List InclusiveRectangle} {pic : Picture Rgba} {L : Layer Rgba}
    {r : InclusiveRectangle} (hp : Paints sw sh fb₀ pic (fb, dirty))
    (hlen : fb'.length = fb.length)
    (hpix : ∀ x y, x < sw → y < sh → pixel fb' (y * sw + x) =
      (L x y).getD (pixel fb (y * sw + x)))
    (hblank : ∀ x y, x < sw → y < sh →
      ¬ ((dx ≤ x ∧ x < dx + w) ∧ (dy ≤ y ∧ y < dy + h)) → L x y = none)
    (hr : ∀ x y, (dx ≤ x ∧ x < dx + w) ∧ (dy ≤ y ∧ y < dy + h) →
      r.Covers x y) :
    Paints sw sh fb₀ (pic.paint L) (fb', dirty ++ [r]) := by
  refine ⟨hlen.trans hp.length, ?_, ?_⟩
  · rw [← hp.shows]
    exact ofBuffer_eq_paint hpix
  · intro x y hx hy hne
    by_cases hblock : (dx ≤ x ∧ x < dx + w) ∧ (dy ≤ y ∧ y < dy + h)
    · exact ⟨r, List.mem_append_right _ (List.mem_singleton.mpr rfl),
        hr x y hblock⟩
    · have heq := hpix x y hx hy
      rw [hblank x y hx hy hblock, Option.getD_none] at heq
      obtain ⟨q, hq, hcov⟩ := hp.covered x y hx hy fun h => hne (heq.trans h)
      exact ⟨q, List.mem_append_left _ hq, hcov⟩

/-- The inclusive rectangle of a non-empty block in `u16` coordinates. -/
theorem covers_block (dx dy w h : Nat) {x y : Nat} (hx : dx + w ≤ 65536)
    (hy : dy + h ≤ 65536) (hin : (dx ≤ x ∧ x < dx + w) ∧ (dy ≤ y ∧ y < dy + h)) :
    InclusiveRectangle.Covers ⟨.ofNat dx, .ofNat dy, .ofNat (dx + w - 1),
      .ofNat (dy + h - 1)⟩ x y := by
  simp only [InclusiveRectangle.Covers, UInt16.toNat_ofNat']
  omega

/-! ## Solid fill -/

theorem pixel_splice_one {dst : List UInt8} {d : Nat} {r g b a : UInt8}
    (hd : d * 4 + 4 ≤ dst.length) (i : Nat) :
    pixel (splice dst (d * 4) [r, g, b, a]) i =
      if i = d then ⟨r, g, b, a⟩ else pixel dst i := by
  have hget := @getElem?_splice _ dst [r, g, b, a] (d * 4) hd
  simp only [List.length_cons, List.length_nil] at hget
  split
  · rename_i h
    subst h
    simp only [pixel, List.getD_eq_getElem?_getD, hget]
    simp
  · rename_i h
    refine pixel_congr fun c hc => ?_
    rw [hget, if_neg (by omega)]

/-- The two loops of `on_solid_fill` paint a rectangle. -/
theorem returns_fillBlock {sw sh x0 x1 y0 y1 : Nat} {fb : List UInt8}
    {r g b a : UInt8} (hx : x0 ≤ x1) (hy : y0 ≤ y1) (hx1 : x1 ≤ sw)
    (hy1 : y1 ≤ sh) (hfb : fb.length = sw * sh * 4) :
    Returns (forRange y0 y1 (fun y => forRange x0 x1 (fun x fb =>
      let row := y * sw * 4
      let off := row + x * 4
      copyFromSlice fb off (off + 4) [r, g, b, a])) fb)
      (fun out => out.length = fb.length ∧ ∀ x y, x < sw →
        pixel out (y * sw + x) =
          (Layer.rect x0 y0 x1 y1 (⟨r, g, b, a⟩ : Rgba) x y).getD
            (pixel fb (y * sw + x))) := by
  have hblock := returns_paintBlock (W := sw) (l := x0) (r := x1) (s := fb)
    (f := fun _ _ => ⟨r, g, b, a⟩) hy fun y out _ hyk hlen =>
      returns_paintRun (y := y) (f := fun _ => ⟨r, g, b, a⟩) hx hx1
        (k := fun x fb =>
          let row := y * sw * 4
          let off := row + x * 4
          copyFromSlice fb off (off + 4) [r, g, b, a])
        fun x out' _ hxk hlen' => by
          have hfit := rowMajor_run_le (W := sw) (H := sh) (w := 1) (d := x)
            (r := y) (by omega) (by omega)
          have hd : (y * sw + x) * 4 + 4 ≤ out'.length := by
            rw [hlen', hlen, hfb]
            omega
          have hoff : y * sw * 4 + x * 4 = (y * sw + x) * 4 := (Nat.add_mul ..).symm
          dsimp only
          rw [hoff, copyFromSlice_eq_ok (Nat.le_add_right ..) hd (by simp)]
          exact Returns.ok ⟨length_splice hd, pixel_splice_one hd⟩
  refine hblock.imp ?_
  rintro out ⟨hlen, hpix⟩
  refine ⟨hlen, fun x y hxs => ?_⟩
  rw [hpix x y hxs, Layer.rect]
  split <;> rfl

/-- The half-open reading of a source rectangle. -/
def rectLayer (rect : InclusiveRectangle) (c : Rgba) : Layer Rgba :=
  Layer.rect rect.left.toNat rect.top.toNat rect.right.toNat rect.bottom.toNat c

/-- One rectangle of `on_solid_fill`. -/
theorem returns_fillRect {sw sh : Nat} {fb₀ fb : List UInt8}
    {dirty : List InclusiveRectangle} {pic : Picture Rgba} {r g b a : UInt8}
    (hsw : sw < 65536) (hsh : sh < 65536) (hfb₀ : fb₀.length = sw * sh * 4)
    (hp : Paints sw sh fb₀ pic (fb, dirty)) (rect : InclusiveRectangle) :
    Returns (fillRect sw sh [r, g, b, a] (fb, dirty) rect)
      (Paints sw sh fb₀ (pic.paint (rectLayer rect ⟨r, g, b, a⟩))) := by
  rw [fillRect]
  generalize hx0 : min rect.left.toNat sw = x0
  generalize hy0 : min rect.top.toNat sh = y0
  generalize hx1 : min rect.right.toNat sw = x1
  generalize hy1 : min rect.bottom.toNat sh = y1
  -- clipping the rectangle does not change what it paints on the surface
  have hclip : ∀ x y, x < sw → y < sh →
      rectLayer rect (⟨r, g, b, a⟩ : Rgba) x y =
        Layer.rect x0 y0 x1 y1 ⟨r, g, b, a⟩ x y := by
    intro x y hx hy
    simp only [rectLayer, Layer.rect]
    exact if_congr (by omega) rfl rfl
  split
  · rename_i hempty
    refine Returns.pure ⟨hp.length, ?_, hp.covered⟩
    rw [← hp.shows]
    refine ofBuffer_eq_paint fun x y hx hy => ?_
    rw [hclip x y hx hy, Layer.rect, if_neg (by omega), Option.getD_none]
  · rename_i hne
    have hlen : fb.length = sw * sh * 4 := hp.length.trans hfb₀
    refine (returns_fillBlock (by omega) (by omega) (by omega) (by omega)
      hlen).bind ?_
    rintro fb' ⟨hlen', hpix⟩
    rw [sub_eq_ok (by omega), sub_eq_ok (by omega)]
    refine Returns.ok (hp.snoc x0 y0 (x1 - x0) (y1 - y0) hlen'
      (fun x y hx hy => ?_) (fun x y hx hy hout => ?_) ?_)
    · rw [hpix x y hx, hclip x y hx hy]
    · rw [hclip x y hx hy, Layer.rect, if_neg (by omega)]
    · intro x y hin
      have hcov := covers_block x0 y0 (x1 - x0) (y1 - y0) (by omega) (by omega)
        hin
      rwa [show x0 + (x1 - x0) - 1 = x1 - 1 by omega,
        show y0 + (y1 - y0) - 1 = y1 - 1 by omega] at hcov

/-- The picture `on_solid_fill` leaves. -/
def fillPicture (rects : List InclusiveRectangle) (c : Rgba)
    (pic : Picture Rgba) : Picture Rgba :=
  rects.foldl (fun pic rect => pic.paint (rectLayer rect c)) pic

theorem returns_fillRects {sw sh : Nat} {fb : List UInt8} {r g b a : UInt8}
    (hsw : sw < 65536) (hsh : sh < 65536) (hfb : fb.length = sw * sh * 4)
    (rects : List InclusiveRectangle) :
    Returns (rects.foldlM (fillRect sw sh [r, g, b, a]) (fb, []))
      (Paints sw sh fb (fillPicture rects ⟨r, g, b, a⟩ (ofBuffer fb sw sh))) := by
  refine returns_foldlM (fun visited out => Paints sw sh fb
    (fillPicture visited ⟨r, g, b, a⟩ (ofBuffer fb sw sh)) out)
    (Paints.start ..) ?_ rects
  rintro visited rect ⟨fb', dirty⟩ hp
  rw [fillPicture, List.foldl_append, List.foldl_cons, List.foldl_nil]
  exact returns_fillRect hsw hsh hfb hp rect

/-! ## Blocks to destination points -/

/-- The picture a block leaves after going to each point in turn. -/
def stampPicture (block : Picture Rgba) (points : List Point)
    (pic : Picture Rgba) : Picture Rgba :=
  points.foldl (fun pic p =>
    pic.paint (Layer.shift block.px p.x.toNat p.y.toNat)) pic

/-- One destination point. -/
theorem returns_copyToPoint {sw sh cw ch : Nat} {block fb₀ fb : List UInt8}
    {dirty : List InclusiveRectangle} {pic : Picture Rgba}
    (hsw : sw < 65536) (hsh : sh < 65536) (hfb₀ : fb₀.length = sw * sh * 4)
    (hblock : block.length = cw * ch * 4)
    (hp : Paints sw sh fb₀ pic (fb, dirty)) (p : Point) :
    Returns (copyToPoint sw sh block cw ch (fb, dirty) p)
      (Paints sw sh fb₀ (pic.paint
        (Layer.shift (ofBuffer block cw ch).px p.x.toNat p.y.toNat))) := by
  rw [copyToPoint]
  generalize p.x.toNat = dx
  generalize p.y.toNat = dy
  generalize hw : min cw (sw - dx) = w
  generalize hh : min ch (sh - dy) = h
  have hlen : fb.length = sw * sh * 4 := hp.length.trans hfb₀
  -- on the surface, the shifted block is the clipped one
  have hlayer : ∀ x y, x < sw → y < sh →
      Layer.shift (ofBuffer block cw ch).px dx dy x y =
        if (dx ≤ x ∧ x < dx + w) ∧ (dy ≤ y ∧ y < dy + h) then
          some (pixel block ((y - dy) * cw + (x - dx))) else none := by
    intro x y hx hy
    simp only [Layer.shift, ofBuffer]
    by_cases hq : dx ≤ x ∧ dy ≤ y
    · rw [if_pos hq]
      exact if_congr (by omega) rfl rfl
    · rw [if_neg hq, if_neg (by omega)]
  split
  · rename_i hempty
    refine Returns.pure ⟨hp.length, ?_, hp.covered⟩
    rw [← hp.shows]
    refine ofBuffer_eq_paint fun x y hx hy => ?_
    rw [hlayer x y hx hy, if_neg (by omega), Option.getD_none]
  · rename_i hne
    refine (returns_copyRows (W := sw) (S := cw) dx dy 0 0 (fun row => rfl)
      (fun row => by ring) (by omega) (fun row hrow => ?_)
      (fun row hrow => ?_)).bind ?_
    · rw [hlen]
      exact Nat.mul_le_mul_right 4 (rowMajor_run_le (by omega) (by omega))
    · rw [hblock]
      exact Nat.mul_le_mul_right 4 (rowMajor_run_le (by omega) (by omega))
    · rintro fb' ⟨hlen', hpix⟩
      rw [sub_eq_ok (by omega), sub_eq_ok (by omega)]
      refine Returns.ok (hp.snoc dx dy w h hlen'
        (fun x y hx hy => ?_) (fun x y hx hy hout => ?_)
        fun x y => covers_block dx dy w h (by omega) (by omega))
      · rw [hpix x y hx, hlayer x y hx hy]
        split
        · rw [Option.getD_some, Nat.zero_add, Nat.add_zero]
        · rw [Option.getD_none]
      · rw [hlayer x y hx hy, if_neg hout]

theorem returns_copyToPoints {sw sh cw ch : Nat} {block fb : List UInt8}
    (hsw : sw < 65536) (hsh : sh < 65536) (hfb : fb.length = sw * sh * 4)
    (hblock : block.length = cw * ch * 4) (points : List Point) :
    Returns (copyToPoints sw sh block cw ch points fb)
      (Paints sw sh fb
        (stampPicture (ofBuffer block cw ch) points (ofBuffer fb sw sh))) := by
  refine returns_foldlM (fun visited out => Paints sw sh fb
    (stampPicture (ofBuffer block cw ch) visited (ofBuffer fb sw sh)) out)
    (Paints.start ..) ?_ points
  rintro visited p ⟨fb', dirty⟩ hp
  rw [stampPicture, List.foldl_append, List.foldl_cons, List.foldl_nil]
  exact returns_copyToPoint hsw hsh hfb hblock hp p

/-! ## Bitmap tiles -/

/-- One row of a tile, whatever the length of its data. -/
theorem returns_copyTileRow {sw sh w cw dx row sy : Nat} {data fb : List UInt8}
    (hcw : cw = min w (sw - dx)) (hsy : sy < sh)
    (hfb : fb.length = sw * sh * 4) :
    Returns (copyTileRow data w cw dx sw row sy fb) (fun out =>
      out.length = fb.length ∧ ∀ x y, x < sw → pixel out (y * sw + x) =
        if (dx ≤ x ∧ x < dx + cw) ∧ y = sy ∧
            row * w * 4 + cw * 4 ≤ data.length then
          pixel data (row * w + (x - dx))
        else pixel fb (y * sw + x)) := by
  rw [copyTileRow]
  split
  · rename_i hfit
    obtain ⟨hs, hd⟩ := hfit
    rw [copy_slice hd hs]
    refine Returns.ok ⟨length_splice_slice hd, fun x y hx => ?_⟩
    rw [pixel_splice_slice hd hs]
    by_cases hzero : cw = 0
    · rw [if_neg (by omega), if_neg (by omega)]
    · have hwin := rowMajor_window (w := cw) (d := dx) (r := sy) (y := y) hx
        (by omega)
      by_cases hhit : y = sy ∧ dx ≤ x ∧ x < dx + cw
      · rw [if_pos (hwin.mpr hhit), if_pos ⟨hhit.2, hhit.1, hs⟩, hhit.1]
        congr 2
        omega
      · rw [if_neg (fun h => hhit (hwin.mp h)),
          if_neg (fun h => hhit ⟨h.2.1, h.1⟩)]
  · rename_i hfit
    refine Returns.pure ⟨rfl, fun x y hx => ?_⟩
    rw [if_neg]
    rintro ⟨hxc, rfl, hs⟩
    -- the framebuffer is long enough, so only the data can be too short
    refine hfit ⟨hs, ?_⟩
    have := rowMajor_run_le (W := sw) (H := sh) (w := cw) (d := dx)
      (r := y) (by omega) (by omega)
    omega

/-- The rows of a tile: a row is painted when it lies on the surface and
the data reaches its end. -/
theorem returns_copyTileRows {sw sh w cw dx dy : Nat} {data : List UInt8}
    (hcw : cw = min w (sw - dx)) : ∀ (n row : Nat) {fb : List UInt8},
    fb.length = sw * sh * 4 →
    Returns (copyTileRows data w cw dx dy sw sh n row fb) (fun out =>
      out.length = fb.length ∧ ∀ x y, x < sw → pixel out (y * sw + x) =
        if (dx ≤ x ∧ x < dx + cw) ∧
            (dy + row ≤ y ∧ y < dy + row + n ∧ y < sh) ∧
            (y - dy) * w * 4 + cw * 4 ≤ data.length then
          pixel data ((y - dy) * w + (x - dx))
        else pixel fb (y * sw + x))
  | 0, row, fb, _ => Returns.pure ⟨rfl, fun x y _ => by rw [if_neg (by omega)]⟩
  | n + 1, row, fb, hfb => by
      rw [copyTileRows]
      split
      · rename_i hbreak
        exact Returns.pure ⟨rfl, fun x y _ => by rw [if_neg (by omega)]⟩
      · rename_i hsy
        refine (returns_copyTileRow hcw (by omega) hfb).bind ?_
        rintro fb' ⟨hlen, hpix⟩
        refine (returns_copyTileRows hcw n (row + 1) (hlen.trans hfb)).imp ?_
        rintro out ⟨hlen', hpix'⟩
        refine ⟨hlen'.trans hlen, fun x y hx => ?_⟩
        rw [hpix' x y hx, hpix x y hx]
        by_cases hy : y = dy + row
        · subst hy
          rw [if_neg (by omega), Nat.add_sub_cancel_left]
          exact if_congr (by omega) rfl rfl
        · rw [if_neg (c := (dx ≤ x ∧ x < dx + cw) ∧ y = dy + row ∧ _)
            (fun h => hy h.2.1)]
          exact if_congr (by omega) rfl rfl

/-- `on_bitmap_updated` with any data changes nothing outside its dirty
rectangle. -/
theorem returns_tile {sw sh w h : Nat} {data fb : List UInt8} {dx dy : UInt16}
    (hsw : sw < 65536) (hsh : sh < 65536) (hfb : fb.length = sw * sh * 4) :
    Returns (copyTileRows data w (min w (sw - dx.toNat)) dx.toNat dy.toNat sw sh
      h 0 fb) (fun out => Paints sw sh fb (ofBuffer out sw sh)
        (out, [⟨.ofNat dx.toNat, .ofNat dy.toNat,
          .ofNat (min (dx.toNat + w) sw - 1),
          .ofNat (min (dy.toNat + h) sh - 1)⟩])) := by
  refine (returns_copyTileRows rfl h 0 hfb).imp ?_
  rintro out ⟨hlen, hpix⟩
  refine ⟨hlen, rfl, fun x y hx hy hne => ⟨_, List.mem_singleton.mpr rfl, ?_⟩⟩
  have hbx := dx.toNat_lt
  have hby := dy.toNat_lt
  rw [hpix x y hx] at hne
  split at hne
  · simp only [InclusiveRectangle.Covers, UInt16.toNat_ofNat']
    omega
  · exact absurd rfl hne

/-- A tile with all its data is painted at its place. -/
theorem returns_fullTile {sw sh w h : Nat} {data fb : List UInt8}
    (dx dy : UInt16) (hfb : fb.length = sw * sh * 4)
    (hdata : data.length = w * h * 4) :
    Returns (copyTileRows data w (min w (sw - dx.toNat)) dx.toNat dy.toNat sw sh
      h 0 fb) (fun out => ofBuffer out sw sh = (ofBuffer fb sw sh).paint
        (Layer.shift (ofBuffer data w h).px dx.toNat dy.toNat)) := by
  refine (returns_copyTileRows rfl h 0 hfb).imp ?_
  rintro out ⟨-, hpix⟩
  refine ofBuffer_eq_paint fun x y hx hy => ?_
  rw [hpix x y hx]
  simp only [Layer.shift, ofBuffer, Nat.add_zero]
  by_cases hq : dx.toNat ≤ x ∧ dy.toNat ≤ y
  · rw [if_pos hq]
    by_cases hin : x - dx.toNat < w ∧ y - dy.toNat < h
    · have hrun := rowMajor_run_le (W := w) (H := h) (w := min w (sw - dx.toNat))
        (d := 0) hin.2 (by omega)
      rw [if_pos hin, if_pos (by omega), Option.getD_some]
    · rw [if_neg hin, if_neg (by omega), Option.getD_none]
  · rw [if_neg hq, if_neg (by omega), Option.getD_none]

/-! ## Snapshots -/

/-- The snapshot loops of `on_surface_to_surface` and `on_surface_to_cache`
save the clipped rectangle. -/
theorem returns_snapshot {sw sh l t r b w h : Nat} {fb : List UInt8}
    (hfb : fb.length = sw * sh * 4) (hw : w = min r sw - l)
    (hh : h = min b sh - t) (hpos : 0 < w ∧ 0 < h) :
    Returns (copyRows h (w * 4) (fun row => row * w * 4)
      (fun row => ((t + row) * sw + l) * 4) fb (List.replicate (w * h * 4) 0))
      (fun out => out.length = w * h * 4 ∧
        ofBuffer out w h = (ofBuffer fb sw sh).crop l t r b) := by
  refine (returns_copyRows (W := w) (S := sw) 0 0 l t (fun row => by ring) (fun row => rfl)
    (by omega)
    (fun row hrow => ?_) (fun row hrow => ?_)).imp ?_
  · rw [List.length_replicate]
    exact Nat.mul_le_mul_right 4 (rowMajor_run_le (by omega) (by omega))
  · rw [hfb]
    exact Nat.mul_le_mul_right 4 (rowMajor_run_le (by omega) (by omega))
  · rintro out ⟨hlen, hpix⟩
    refine ⟨hlen.trans List.length_replicate, Picture.ext hw hh ?_⟩
    funext x y
    simp only [ofBuffer, Picture.crop, ← hw, ← hh]
    split
    · rw [hpix x y (by omega), if_pos (by omega), if_pos (by omega), Nat.sub_zero,
        Nat.sub_zero, Nat.add_assoc]
    · rfl

/-! ## Reads that only must not abort -/

theorem returns_sampleLit (data : List UInt8) (o : Nat) :
    Returns (sampleLit data o) (fun _ => True) := by
  unfold sampleLit
  split
  · rw [index_eq_ok (List.getElem?_eq_getElem (by omega)),
      index_eq_ok (List.getElem?_eq_getElem (by omega)),
      index_eq_ok (List.getElem?_eq_getElem (by omega))]
    simp only [Returns, bind, Except.bind]
    split <;> [skip; split] <;> exact ⟨_, rfl, trivial⟩
  · exact Returns.pure trivial

theorem returns_isBlackTile (data : List UInt8) (w h : Nat) :
    Returns (isBlackTile data w h) (fun _ => True) :=
  (returns_anyM (returns_sampleLit data) _).bind fun _ _ => Returns.pure trivial

/-- `read_surface_rect` reads only rectangles that lie on the surface. -/
theorem WasmGfxHandler.returns_readSurfaceRect {D : ProgressiveDecoder}
    {h : WasmGfxHandler D} {id x y width height : UInt16}
    (hfb : ∀ s, h.gfx.lookup id = some s →
      s.fb.length = s.width.toNat * s.height.toNat * 4) :
    Returns (h.readSurfaceRect id x y width height) (fun _ => True) := by
  unfold readSurfaceRect
  split
  · exact Returns.pure trivial
  · rename_i s hs
    dsimp only
    split
    · exact Returns.pure trivial
    · rename_i hin
      refine Returns.bind (P := fun _ => True) ?_ fun _ _ => Returns.pure trivial
      refine returns_forRange (fun _ _ => True) (Nat.zero_le _) trivial ?_
      intro row out _ hrow _
      have hrun := rowMajor_run_le (W := s.width.toNat) (H := s.height.toNat)
        (w := width.toNat) (d := x.toNat) (r := y.toNat + row)
        (by omega) (by omega)
      have hlen := hfb s hs
      rw [slice_eq_ok (Nat.le_add_right ..) (by omega)]
      exact Returns.ok trivial

/-- `avc_to_annexb` terminates without leaving the buffer. -/
theorem returns_avcToAnnexbFrom (out : List UInt8) (isKeyframe : Bool)
    (pos : Nat) : Returns (avcToAnnexbFrom out isKeyframe pos)
      (fun res => res.1.length = out.length) := by
  induction out, isKeyframe, pos using avcToAnnexbFrom.induct with
  | case1 out isKeyframe pos hpos ih =>
      rw [avcToAnnexbFrom, if_pos hpos]
      refine (returns_index (by omega)).bind fun b0 _ => ?_
      refine (returns_index (by omega)).bind fun b1 _ => ?_
      refine (returns_index (by omega)).bind fun b2 _ => ?_
      refine (returns_index (by omega)).bind fun b3 _ => ?_
      split
      · rename_i e he
        rw [copyFromSlice_eq_ok (Nat.le_add_right ..) hpos (by simp)] at he
        cases he
      · rename_i out' hout
        have hlen := length_of_copyFromSlice hout
        dsimp only
        split
        · rename_i hstart
          refine (returns_index hstart).bind fun b _ => ?_
          exact (ih b0 b1 b2 b3 out' hout _).imp fun res h => h.trans hlen
        · exact (ih b0 b1 b2 b3 out' hout _).imp fun res h => h.trans hlen
  | case2 out isKeyframe pos hpos =>
      rw [avcToAnnexbFrom, if_neg hpos]
      exact Returns.pure rfl

end WasmRdp
