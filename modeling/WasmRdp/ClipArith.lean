import WasmRdp.Canvas
import WasmRdp.RailSurface

/-!
# The arithmetic of clipping

The `u32` additions and subtractions of `Canvas::draw` and
`Canvas::draw_rgba`, over an arithmetic that is either that of a release
build, which wraps, or that of a debug build, which stops where it would. With
the first they are the clipping of `Canvas.draw` and `Canvas.drawRgba`
(`draw_eq_clip`, `drawRgba_eq_clip`). The last coordinate of an axis is
`origin + size - 1`, so that an empty axis at the origin is the one that wraps
(`clipping_safe_iff`).

The definitions are written once, over an `Arith`, in the order in which the
source computes; the debug build is the one that returns `none`. So nothing
wraps exactly when the debug build comes to an end, and the statement needs no
list of the places where something could.

What remains is one axis at a time. The last coordinate is computed unless it
lies before the origin (`lastCoord_checked`); for a part that is not empty the
extent and the distances are differences of coordinates in the right order
(`extent_checked`, `toNat_ends`), and the rows of a copy loop are bounded by
the extent (`mapM_checked`). An axis that is empty at zero has a last
coordinate of 2^32 - 1 in the release build, so that the clipping finds a part
to draw where there is none (`drawClip_wraps`, `drawRgbaClip_wraps`).
-/

namespace WasmRdp

open Slices Raster

/-- Addition and subtraction of a build. -/
structure Arith (m : Type → Type) where
  add : UInt32 → UInt32 → m UInt32
  sub : UInt32 → UInt32 → m UInt32

/-- A release build. -/
def Arith.wrapping : Arith Id where
  add a b := a + b
  sub a b := a - b

/-- A debug build; `none` is the abort. -/
def Arith.checked : Arith Option where
  add a b := if a.toNat + b.toNat < 2 ^ 32 then some (a + b) else none
  sub a b := if b.toNat ≤ a.toNat then some (a - b) else none

/-- The part of a region that is drawn: where it starts on the desktop, its
extent, and where it goes on the canvas. -/
structure ClipRect where
  sx0 : UInt32
  sy0 : UInt32
  w : UInt32
  h : UInt32
  dx : UInt32
  dy : UInt32

/-- The part with its first row and column in the source, and the rows that
are copied. -/
structure SourceClip extends ClipRect where
  top : UInt32
  left : UInt32
  rows : List UInt32

namespace Canvas

section

variable {m : Type → Type} [Monad m]

/-- `origin + size - 1`. -/
def lastCoord (A : Arith m) (origin size : UInt16) : m UInt32 := do
  A.sub (← A.add origin.toUInt32 size.toUInt32) 1

/-- The extent and the place of a part that is not empty. -/
def extent (A : Arith m) (surfLeft surfTop sx0 sy0 sx1 sy1 : UInt32) : m ClipRect := do
  let w ← A.add (← A.sub sx1 sx0) 1
  let h ← A.add (← A.sub sy1 sy0) 1
  let dx ← A.sub sx0 surfLeft
  let dy ← A.sub sy0 surfTop
  return { sx0, sy0, w, h, dx, dy }

/-- The clipping of `draw`; `none` when the region does not touch the canvas. -/
def drawClip (A : Arith m) (c : Canvas) (region : InclusiveRectangle) : m (Option ClipRect) := do
  let surfLeft := c.originX.toUInt32
  let surfTop := c.originY.toUInt32
  let surfRight ← lastCoord A c.originX c.width
  let surfBottom ← lastCoord A c.originY c.height
  let sx0 := max region.left.toUInt32 surfLeft
  let sy0 := max region.top.toUInt32 surfTop
  let sx1 := min region.right.toUInt32 surfRight
  let sy1 := min region.bottom.toUInt32 surfBottom
  if sx0 > sx1 ∨ sy0 > sy1 then return none
  else some <$> extent A surfLeft surfTop sx0 sy0 sx1 sy1

/-- The clipping of `draw_rgba`, and the row numbers of its copy loop. -/
def drawRgbaClip (A : Arith m) (c : Canvas) (srcWidth srcHeight srcOriginX
    srcOriginY : UInt16) (region : InclusiveRectangle) : m (Option SourceClip) := do
  let surfLeft := c.originX.toUInt32
  let surfTop := c.originY.toUInt32
  let surfRight ← lastCoord A c.originX c.width
  let surfBottom ← lastCoord A c.originY c.height
  let srcLeft := srcOriginX.toUInt32
  let srcTop := srcOriginY.toUInt32
  let srcRight ← lastCoord A srcOriginX srcWidth
  let srcBottom ← lastCoord A srcOriginY srcHeight
  let sx0 := max (max region.left.toUInt32 surfLeft) srcLeft
  let sy0 := max (max region.top.toUInt32 surfTop) srcTop
  let sx1 := min (min region.right.toUInt32 surfRight) srcRight
  let sy1 := min (min region.bottom.toUInt32 surfBottom) srcBottom
  if sx0 > sx1 ∨ sy0 > sy1 then return none
  else
    let clip ← extent A surfLeft surfTop sx0 sy0 sx1 sy1
    let top ← A.sub sy0 srcTop
    let left ← A.sub sx0 srcLeft
    let rows ← (List.range clip.h.toNat).mapM fun row => A.add top (UInt32.ofNat row)
    return some { clip with top, left, rows }

end

/-! ## The release build -/

theorem draw_eq_clip (c : Canvas) (image : DecodedImage) (region : InclusiveRectangle) :
    c.draw image region = match Id.run (drawClip .wrapping c region) with
      | none => .ok c
      | some k => c.putRegion image.data k.w.toNat k.h.toNat k.dx.toNat k.dy.toNat
          (k.w.toNat == image.width.toNat && k.sx0 == 0)
          (k.sy0.toNat * (image.width.toNat * 4))
          (fun row => (k.sy0.toNat + row) * (image.width.toNat * 4) + k.sx0.toNat * 4) := by
  unfold draw drawClip
  dsimp only [Id.run, bind, pure, lastCoord, Arith.wrapping]
  split
  · rfl
  · rfl

/-- The row numbers of a release build. -/
theorem mapM_wrapping (top : UInt32) (ns : List Nat) :
    (ns.mapM fun row => Arith.wrapping.add top (UInt32.ofNat row)) =
      (pure (ns.map fun row => top + UInt32.ofNat row) : Id _) := by
  induction ns with
  | nil => rfl
  | cons n ns ih => rw [List.mapM_cons, ih]; rfl

theorem drawRgba_eq_clip (c : Canvas) (src : List UInt8) (sw sh ox oy : UInt16)
    (region : InclusiveRectangle) :
    c.drawRgba src sw sh ox oy region =
      match Id.run (drawRgbaClip .wrapping c sw sh ox oy region) with
      | none => .ok c
      | some k => c.putRegion src k.w.toNat k.h.toNat k.dx.toNat k.dy.toNat
          (k.w.toNat == sw.toNat && k.sx0 == ox.toUInt32)
          (k.top.toNat * (sw.toNat * 4))
          (fun row => (k.rows.getD row 0).toNat * (sw.toNat * 4) + k.left.toNat * 4) := by
  unfold drawRgba drawRgbaClip
  simp only [mapM_wrapping]
  dsimp only [Id.run, bind, pure, lastCoord, extent, Arith.wrapping]
  split
  · rfl
  · dsimp only
    refine putRegion_congr c fun row hrow => ?_
    have hget (f : Nat → UInt32) {n : Nat} (h : row < n) :
        ((List.range n).map f).getD row 0 = f row := by
      rw [List.getD_eq_getElem?_getD, List.getElem?_map, List.getElem?_range h]
      rfl
    rw [hget _ hrow]

/-! ## One axis -/

theorem add_checked {a b : UInt32} (h : a.toNat + b.toNat < 2 ^ 32) :
    Arith.checked.add a b = some (a + b) := if_pos h

theorem sub_checked {a b : UInt32} (h : b.toNat ≤ a.toNat) :
    Arith.checked.sub a b = some (a - b) := if_pos h

/-- An empty axis at the origin. -/
def EmptyAtZero (origin size : UInt16) : Prop := origin = 0 ∧ size = 0

theorem emptyAtZero_iff {origin size : UInt16} :
    EmptyAtZero origin size ↔ origin.toNat + size.toNat = 0 := by
  rw [EmptyAtZero, ← UInt16.toNat_inj, ← UInt16.toNat_inj, UInt16.toNat_zero]
  omega

/-- The last coordinate is computed unless it is before the origin. -/
theorem lastCoord_checked (origin size : UInt16) :
    (EmptyAtZero origin size → lastCoord .checked origin size = none) ∧
    (¬ EmptyAtZero origin size → ∃ last, lastCoord .checked origin size = some last ∧
      Id.run (lastCoord .wrapping origin size) = last ∧
      last.toNat + 1 = origin.toNat + size.toNat) := by
  have ho := origin.toNat_lt
  have hs := size.toNat_lt
  have hsum : (origin.toUInt32 + size.toUInt32).toNat = origin.toNat + size.toNat := by
    rw [UInt32.toNat_add, UInt16.toNat_toUInt32, UInt16.toNat_toUInt32]
    omega
  have hadd : Arith.checked.add origin.toUInt32 size.toUInt32 =
      some (origin.toUInt32 + size.toUInt32) :=
    add_checked (by simp only [UInt16.toNat_toUInt32]; omega)
  have hlast : lastCoord .checked origin size =
      Arith.checked.sub (origin.toUInt32 + size.toUInt32) 1 := by
    rw [lastCoord, hadd]
    rfl
  rw [emptyAtZero_iff, hlast]
  constructor
  · intro hzero
    exact if_neg (by rw [hsum, hzero]; decide)
  · intro hpos
    have hle : (1 : UInt32).toNat ≤ (origin.toUInt32 + size.toUInt32).toNat := by
      rw [hsum, UInt32.toNat_one]
      omega
    refine ⟨_, sub_checked hle, rfl, ?_⟩
    rw [UInt32.toNat_sub_of_le _ _ (UInt32.le_iff_toNat_le.mpr hle), hsum, UInt32.toNat_one]
    omega

/-! ## A part that is not empty -/

/-- Its extent is computed, and is at most that of the coordinates. -/
theorem extent_checked {left top sx0 sy0 sx1 sy1 : UInt32}
    (hx : left.toNat ≤ sx0.toNat ∧ sx0.toNat ≤ sx1.toNat ∧ sx1.toNat < 65536)
    (hy : top.toNat ≤ sy0.toNat ∧ sy0.toNat ≤ sy1.toNat ∧ sy1.toNat < 65536) :
    ∃ k, extent .checked left top sx0 sy0 sx1 sy1 = some k ∧ k.h.toNat ≤ 65536 := by
  have hone (a b : UInt32) (h : a.toNat ≤ b.toNat) (hb : b.toNat < 65536) :
      Arith.checked.add (b - a) 1 = some (b - a + 1) ∧ (b - a + 1).toNat ≤ 65536 := by
    have hsub : (b - a).toNat = b.toNat - a.toNat :=
      UInt32.toNat_sub_of_le _ _ (UInt32.le_iff_toNat_le.mpr h)
    refine ⟨add_checked (by rw [hsub, UInt32.toNat_one]; omega), ?_⟩
    rw [UInt32.toNat_add, hsub, UInt32.toNat_one]
    omega
  obtain ⟨hw, -⟩ := hone sx0 sx1 hx.2.1 hx.2.2
  obtain ⟨hh, hle⟩ := hone sy0 sy1 hy.2.1 hy.2.2
  refine ⟨⟨sx0, sy0, sx1 - sx0 + 1, sy1 - sy0 + 1, sx0 - left, sy0 - top⟩, ?_, hle⟩
  simp only [extent, sub_checked hx.2.1, sub_checked hy.2.1, sub_checked hx.1,
    sub_checked hy.1, hw, hh, Option.bind_eq_bind, Option.bind_some, Option.pure_def]

/-- The row numbers of a copy loop are computed. -/
theorem mapM_checked {top : UInt32} {n : Nat} (h : top.toNat + n < 2 ^ 32) (ns : List Nat)
    (hns : ∀ row ∈ ns, row < n) :
    ∃ rows, (ns.mapM fun row => Arith.checked.add top (UInt32.ofNat row)) = some rows := by
  induction ns with
  | nil => exact ⟨[], rfl⟩
  | cons row ns ih =>
    obtain ⟨rows, hrows⟩ := ih fun row' h' => hns row' (List.mem_cons_of_mem _ h')
    have hrow := hns row List.mem_cons_self
    have hadd : Arith.checked.add top (UInt32.ofNat row) = some (top + UInt32.ofNat row) :=
      add_checked (by rw [UInt32.toNat_ofNat']; omega)
    refine ⟨(top + UInt32.ofNat row) :: rows, ?_⟩
    simp only [List.mapM_cons, hadd, hrows, Option.bind_eq_bind, Option.bind_some,
      Option.pure_def]

/-- The two ends of an axis after clipping: the part starts on the canvas or
in the source, and ends on it. -/
theorem toNat_ends {l r o : UInt16} {last : UInt32} :
    o.toNat ≤ (max l.toUInt32 o.toUInt32).toNat ∧
      (min r.toUInt32 last).toNat ≤ last.toNat ∧ (min r.toUInt32 last).toNat < 65536 := by
  have hr := r.toNat_lt
  simp only [toNat_max, toNat_min, UInt16.toNat_toUInt32]
  omega

/-! ## Both functions -/

/-- No sum and no difference of `draw` wraps, and a canvas without area is not
drawn to. -/
def DrawSafe (c : Canvas) (region : InclusiveRectangle) : Prop :=
  (drawClip .checked c region).isSome = true ∧
    (c.width = 0 ∨ c.height = 0 → Id.run (drawClip .wrapping c region) = none ∧
      ∀ image, c.draw image region = .ok c)

/-- The same of `draw_rgba`, also for a source without area. -/
def DrawRgbaSafe (c : Canvas) (sw sh ox oy : UInt16) (region : InclusiveRectangle) : Prop :=
  (drawRgbaClip .checked c sw sh ox oy region).isSome = true ∧
    (c.width = 0 ∨ c.height = 0 ∨ sw = 0 ∨ sh = 0 →
      Id.run (drawRgbaClip .wrapping c sw sh ox oy region) = none ∧
        ∀ src, c.drawRgba src sw sh ox oy region = .ok c)

theorem draw_safe {c : Canvas} (hx : ¬ EmptyAtZero c.originX c.width)
    (hy : ¬ EmptyAtZero c.originY c.height) (region : InclusiveRectangle) :
    c.DrawSafe region := by
  obtain ⟨right, hright, hrightw, hr⟩ := (lastCoord_checked c.originX c.width).2 hx
  obtain ⟨bottom, hbottom, hbottomw, hb⟩ := (lastCoord_checked c.originY c.height).2 hy
  have hxs := @toNat_ends region.left region.right c.originX right
  have hys := @toNat_ends region.top region.bottom c.originY bottom
  constructor
  · simp only [drawClip, hright, hbottom, Option.bind_eq_bind, Option.bind_some]
    split
    · rfl
    · rename_i hin
      simp only [gt_iff_lt, UInt32.lt_iff_toNat_lt, not_or, Nat.not_lt] at hin
      obtain ⟨k, hk, -⟩ := extent_checked
        ⟨(UInt16.toNat_toUInt32 _).trans_le hxs.1, hin.1, hxs.2.2⟩
        ⟨(UInt16.toNat_toUInt32 _).trans_le hys.1, hin.2, hys.2.2⟩
      rw [hk]
      rfl
  · intro hzero
    have hnone : Id.run (drawClip .wrapping c region) = none := by
      dsimp only [drawClip, Id.run, bind, pure] at hrightw hbottomw ⊢
      rw [hrightw, hbottomw]
      refine if_pos ?_
      simp only [gt_iff_lt, UInt32.lt_iff_toNat_lt]
      rw [← UInt16.toNat_inj, ← UInt16.toNat_inj, UInt16.toNat_zero] at hzero
      omega
    exact ⟨hnone, fun image => by rw [draw_eq_clip, hnone]⟩

/-- A coordinate clipped twice. -/
theorem toNat_ends_twice {l r a o : UInt16} {last last' : UInt32} :
    (a.toNat ≤ (max (max l.toUInt32 a.toUInt32) o.toUInt32).toNat ∧
      o.toNat ≤ (max (max l.toUInt32 a.toUInt32) o.toUInt32).toNat) ∧
    ((min (min r.toUInt32 last) last').toNat ≤ last.toNat ∧
      (min (min r.toUInt32 last) last').toNat ≤ last'.toNat) ∧
    (min (min r.toUInt32 last) last').toNat < 65536 := by
  have hr := r.toNat_lt
  simp only [toNat_max, toNat_min, UInt16.toNat_toUInt32]
  omega

theorem drawRgba_safe {c : Canvas} {sw sh ox oy : UInt16}
    (hx : ¬ EmptyAtZero c.originX c.width) (hy : ¬ EmptyAtZero c.originY c.height)
    (hsx : ¬ EmptyAtZero ox sw) (hsy : ¬ EmptyAtZero oy sh) (region : InclusiveRectangle) :
    c.DrawRgbaSafe sw sh ox oy region := by
  obtain ⟨right, hright, hrightw, hr⟩ := (lastCoord_checked c.originX c.width).2 hx
  obtain ⟨bottom, hbottom, hbottomw, hb⟩ := (lastCoord_checked c.originY c.height).2 hy
  obtain ⟨srcRight, hsrcRight, hsrcRightw, hsr⟩ := (lastCoord_checked ox sw).2 hsx
  obtain ⟨srcBottom, hsrcBottom, hsrcBottomw, hsb⟩ := (lastCoord_checked oy sh).2 hsy
  have hxs := @toNat_ends_twice region.left region.right c.originX ox right srcRight
  have hys := @toNat_ends_twice region.top region.bottom c.originY oy bottom srcBottom
  constructor
  · simp only [drawRgbaClip, hright, hbottom, hsrcRight, hsrcBottom, Option.bind_eq_bind,
      Option.bind_some]
    split
    · rfl
    · rename_i hin
      simp only [gt_iff_lt, UInt32.lt_iff_toNat_lt, not_or, Nat.not_lt] at hin
      obtain ⟨k, hk, hkh⟩ := extent_checked
        ⟨(UInt16.toNat_toUInt32 _).trans_le hxs.1.1, hin.1, hxs.2.2⟩
        ⟨(UInt16.toNat_toUInt32 _).trans_le hys.1.1, hin.2, hys.2.2⟩
      have htop := sub_checked ((UInt16.toNat_toUInt32 oy).trans_le hys.1.2)
      have hleft := sub_checked ((UInt16.toNat_toUInt32 ox).trans_le hxs.1.2)
      have hsum : (max (max region.top.toUInt32 c.originY.toUInt32) oy.toUInt32 -
          oy.toUInt32).toNat + k.h.toNat < 2 ^ 32 := by
        rw [toNat_sub_origin hys.1.2]
        omega
      obtain ⟨rows, hrows⟩ := mapM_checked hsum (List.range k.h.toNat) fun _ => List.mem_range.mp
      simp only [hk, htop, hleft, hrows, Option.bind_some, Option.pure_def,
        Option.isSome_some]
  · intro hzero
    have hnone : Id.run (drawRgbaClip .wrapping c sw sh ox oy region) = none := by
      dsimp only [drawRgbaClip, Id.run, bind, pure] at hrightw hbottomw hsrcRightw hsrcBottomw ⊢
      rw [hrightw, hbottomw, hsrcRightw, hsrcBottomw]
      refine if_pos ?_
      simp only [gt_iff_lt, UInt32.lt_iff_toNat_lt]
      simp only [← UInt16.toNat_inj, UInt16.toNat_zero] at hzero
      omega
    exact ⟨hnone, fun src => by rw [drawRgba_eq_clip, hnone]⟩

/-- An axis that wraps. -/
theorem drawClip_wraps {c : Canvas} {region : InclusiveRectangle}
    (h : EmptyAtZero c.originX c.width ∨ EmptyAtZero c.originY c.height) :
    drawClip .checked c region = none := by
  rcases h with hx | hy
  · simp [drawClip, (lastCoord_checked _ _).1 hx]
  · simp [drawClip, (lastCoord_checked _ _).1 hy]

theorem drawRgbaClip_wraps {c : Canvas} {sw sh ox oy : UInt16} {region : InclusiveRectangle}
    (h : EmptyAtZero c.originX c.width ∨ EmptyAtZero c.originY c.height ∨
      EmptyAtZero ox sw ∨ EmptyAtZero oy sh) :
    drawRgbaClip .checked c sw sh ox oy region = none := by
  rcases h with hx | hy | hsx | hsy
  · simp [drawRgbaClip, (lastCoord_checked _ _).1 hx]
  · simp [drawRgbaClip, (lastCoord_checked _ _).1 hy]
  · simp [drawRgbaClip, (lastCoord_checked _ _).1 hsx]
  · simp [drawRgbaClip, (lastCoord_checked _ _).1 hsy]

/-- For every canvas, source and region: nothing wraps, and nothing without
area is read or drawn to, exactly when no axis is empty and starts at zero. -/
theorem clipping_safe_iff (c : Canvas) (sw sh ox oy : UInt16) (region : InclusiveRectangle) :
    (c.DrawSafe region ↔
      ¬ EmptyAtZero c.originX c.width ∧ ¬ EmptyAtZero c.originY c.height) ∧
    (c.DrawRgbaSafe sw sh ox oy region ↔
      (¬ EmptyAtZero c.originX c.width ∧ ¬ EmptyAtZero c.originY c.height) ∧
        ¬ EmptyAtZero ox sw ∧ ¬ EmptyAtZero oy sh) := by
  refine ⟨⟨fun h => ?_, fun h => draw_safe h.1 h.2 region⟩,
    ⟨fun h => ?_, fun h => drawRgba_safe h.1.1 h.1.2 h.2.1 h.2.2 region⟩⟩
  · rw [← not_or]
    intro hwraps
    have hsome := h.1
    rw [drawClip_wraps hwraps] at hsome
    cases hsome
  · rw [← not_or, ← not_or, ← not_or, or_assoc]
    intro hwraps
    have hsome := h.1
    rw [drawRgbaClip_wraps hwraps] at hsome
    cases hsome

/-- A canvas that a reset made zero pixels wide wraps; and a source without
columns puts the scratch buffer of an earlier draw on the canvas. -/
theorem clipping_wraps :
    ¬ (Canvas.fromElement 0 0 0 1).DrawSafe ⟨0, 0, 0, 0⟩ ∧
    (∃ c', { Canvas.fromElement 0 0 1 1 with rgbaBuf := [7, 7, 7, 7] }.drawRgba [] 0 1 0 0
        ⟨0, 0, 0, 0⟩ = .ok c' ∧ c'.pixels 0 0 = ⟨7, 7, 7, 7⟩) ∧
    ¬ (Canvas.fromElement 0 0 1 1).DrawRgbaSafe 0 1 0 0 ⟨0, 0, 0, 0⟩ := by
  refine ⟨fun h => ?_, ⟨_, rfl, rfl⟩, fun h => ?_⟩
  · have hsome := h.1
    rw [drawClip_wraps (.inl ⟨rfl, rfl⟩)] at hsome
    cases hsome
  · have hsome := h.1
    rw [drawRgbaClip_wraps (.inr (.inr (.inl ⟨rfl, rfl⟩)))] at hsome
    cases hsome

end Canvas

end WasmRdp
