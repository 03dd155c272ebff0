import WasmRdp.RailSurface
import WasmRdp.Relayout

/-!
# The surfaces of the monitors

One layout is read three times: `setupMonitorSurfaces` of `web/app.js`
declares a canvas for each monitor and tags it with the offset of its input,
`parse_monitor_layout` makes the inclusive rectangles that the server is
sent, and `primary_surface_rect` takes the main canvas's part out of these
again. The numbers of a screen are `long`s of the browser; inside a bounding
box that a `u16` can measure, none of the readings cuts anything off.

That is stated in points of the desktop. A monitor has some points, a canvas
shows some, and input on a canvas goes to some; `SameGeometry` says that for
every screen these are the screen's own, as seen from the corner of the
bounding box, that the readings have the same size for the whole desktop, and
that different screens have none in common.

For one screen in the box the work is on one axis: the inclusive edge
(`toInt_farEdge`), the size that belongs to two edges (`toNat_sizeTo_sub`) and
the pixels of a canvas (`exists_pixel_iff`). `Screen.Within.covers` puts the
axes together, and `sameGeometry` goes through the screens.

The popups are declared for the screens other than the browser's, which has
the main canvas (`mem_setupMonitorSurfaces`); a popup that does not open has no
canvas. The session's rectangle for the main canvas comes from the monitor
that is flagged as primary, of which there is one
(`primarySurfaceRect_layoutOf`).
-/

namespace WasmRdp

/-! ## The page -/

/-- A canvas that is declared to the session, with its `__rdpOffset`. The
screen is the one that its window is on, by its place in the list. -/
structure MonitorSurface where
  screen : Nat
  canvas : Canvas
  offsetX : Int
  offsetY : Int

/-- The popups that are opened, as their `monitor`s; each element of `layout`
comes with its `screen`, and `opens` is what `window.open` answers. -/
def openSecondaryPopups (opens : Nat → Bool) (layout : List (PlacedScreen × Nat)) :
    List (PlacedScreen × Nat) :=
  layout.filter fun m => !m.1.primary && opens m.2

/-- `session.add_surface` of a canvas, with its offset set. -/
def MonitorSurface.of (m : PlacedScreen × Nat) : MonitorSurface where
  screen := m.2
  canvas := .fromElement (toU16 m.1.left) (toU16 m.1.top) (toU16 m.1.width) (toU16 m.1.height)
  offsetX := m.1.left
  offsetY := m.1.top

/-- The surfaces of the session afterwards. Without a monitor the call throws
after `clear_surfaces`. -/
def setupMonitorSurfaces (layout monitorPopups : List (PlacedScreen × Nat)) :
    List MonitorSurface :=
  match (layout.find? (·.1.primary)).or layout.head? with
  | none => []
  | some primary => .of primary :: monitorPopups.map .of

/-! ## The session -/

/-- `edge.max(0).min(i32::from(u16::MAX)) as u16` -/
def originTo (edge : Int32) : UInt16 := (min (max edge 0) 65535).toUInt32.toUInt16

def primarySurfaceRect (monitors : List Monitor) (combinedW combinedH : UInt16) :
    UInt16 × UInt16 × UInt16 × UInt16 :=
  match (monitors.find? (·.primary)).or monitors.head? with
  | none => (0, 0, combinedW, combinedH)
  | some m =>
      (originTo m.left, originTo m.top, sizeTo (m.right - m.left), sizeTo (m.bottom - m.top))

/-! ## Points of the desktop -/

def Monitor.Has (m : Monitor) (x y : Int) : Prop :=
  (m.left.toInt ≤ x ∧ x ≤ m.right.toInt) ∧ m.top.toInt ≤ y ∧ y ≤ m.bottom.toInt

namespace MonitorSurface

/-- A pixel of the canvas shows the point. -/
def Shows (s : MonitorSurface) (x y : Int) : Prop :=
  ∃ i < s.canvas.width.toNat, ∃ j < s.canvas.height.toNat,
    (s.canvas.originX.toNat + i : Int) = x ∧ (s.canvas.originY.toNat + j : Int) = y

/-- Input on a pixel of the canvas goes to the point. -/
def Sends (s : MonitorSurface) (x y : Int) : Prop :=
  ∃ i < s.canvas.width.toNat, ∃ j < s.canvas.height.toNat,
    s.offsetX + (i : Nat) = x ∧ s.offsetY + (j : Nat) = y

end MonitorSurface

/-- The bounding box of the screens has its corner at (x,y), and size w × h. -/
structure IsBoundingBox (screens : List Screen) (x y w h : Int) : Prop where
  corner : IsCorner screens x y
  right : IsGreatest {r | ∃ s ∈ screens, s.left.toInt + s.width.toInt = r} (x + w)
  bottom : IsGreatest {b | ∃ s ∈ screens, s.top.toInt + s.height.toInt = b} (y + h)

/-- The monitors are where the screens are, seen from (x,y). -/
def KeepsOffsets (screens : List Screen) (layout : List PlacedScreen) : Prop :=
  layout.length = screens.length ∧
    ∀ (j k : Nat) (s t : Screen) (m n : PlacedScreen), screens[j]? = some s →
      screens[k]? = some t → layout[j]? = some m → layout[k]? = some n →
        m.left - n.left = s.left.toInt - t.left.toInt ∧
          m.top - n.top = s.top.toInt - t.top.toInt

/-! ## One screen -/

/-- The screen lies in the box, and has pixels. -/
structure Screen.Within (s : Screen) (x y w h : Int) : Prop where
  left : x ≤ s.left.toInt
  right : s.left.toInt + s.width.toInt ≤ x + w
  width : 1 ≤ s.width.toInt
  top : y ≤ s.top.toInt
  bottom : s.top.toInt + s.height.toInt ≤ y + h
  height : 1 ≤ s.height.toInt

/-- On one axis: the far edge, inclusive. -/
theorem toInt_farEdge {left w : Int32} (hleft : 0 ≤ left.toInt) (hw : 1 ≤ w.toInt)
    (hle : left.toInt + w.toInt ≤ 65535) :
    (left + w - 1).toInt = left.toInt + w.toInt - 1 := by
  have hone : (1 : Int32).toInt = 1 := rfl
  rw [Int32.toInt_sub, Int32.toInt_add, hone, Int.bmod_sub_bmod]
  exact Int.bmod_eq_of_le (by omega) (by omega)

/-- On one axis: the size, from the two edges. -/
theorem toNat_sizeTo_sub {left w : Int32} (hleft : 0 ≤ left.toInt) (hw : 1 ≤ w.toInt)
    (hle : left.toInt + w.toInt ≤ 65535) :
    ((sizeTo (left + w - 1 - left)).toNat : Int) = w.toInt := by
  have hsub : (left + w - 1 - left).toInt = w.toInt - 1 := by
    rw [Int32.toInt_sub, toInt_farEdge hleft hw hle]
    have harith : left.toInt + w.toInt - 1 - left.toInt = w.toInt - 1 := by omega
    rw [harith]
    exact Int.bmod_eq_of_le (by omega) (by omega)
  rw [toNat_sizeTo (by omega) (by omega), hsub]
  omega

theorem toNat_originTo {edge : Int32} (h : 0 ≤ edge.toInt) (h' : edge.toInt ≤ 65535) :
    ((originTo edge).toNat : Int) = edge.toInt := by
  have hzero : (0 : Int32).toInt = 0 := rfl
  have hlimit : (65535 : Int32).toInt = 65535 := rfl
  have hclamp : (min (max edge 0) 65535 : Int32).toInt = edge.toInt := by
    rw [toInt_min, toInt_max, hzero, hlimit]
    omega
  have hnonneg : 0 ≤ (min (max edge 0) 65535 : Int32) := by
    rw [Int32.le_iff_toInt_le, hclamp]
    exact h
  rw [originTo, UInt32.toNat_toUInt16, Int32.toNat_toUInt32_of_le hnonneg, ← Int32.toNat_toInt,
    hclamp]
  omega

/-- The points over the pixels of an n × m canvas at (ox,oy). -/
theorem exists_pixel_iff {ox oy px py : Int} {n m : Nat} :
    (∃ i < n, ∃ j < m, ox + (i : Nat) = px ∧ oy + (j : Nat) = py) ↔
      (ox ≤ px ∧ px < ox + n) ∧ oy ≤ py ∧ py < oy + m := by
  constructor
  · rintro ⟨i, hi, j, hj, rfl, rfl⟩
    omega
  · rintro ⟨hx, hy⟩
    exact ⟨(px - ox).toNat, by omega, (py - oy).toNat, by omega, by omega, by omega⟩

/-- The monitor has the points of the screen, as seen from (x,y). -/
structure Monitor.Frames (m : Monitor) (s : Screen) (x y : Int) : Prop where
  left : m.left.toInt = s.left.toInt - x
  right : m.right.toInt = s.left.toInt - x + s.width.toInt - 1
  top : m.top.toInt = s.top.toInt - y
  bottom : m.bottom.toInt = s.top.toInt - y + s.height.toInt - 1

section

variable {s : Screen} {x y w h : Int} (hs : s.Within x y w h) (hw : w ≤ 65535) (hh : h ≤ 65535)
  (primary j : Nat)

include hs hw hh

theorem Screen.Within.chunk :
    let c := (PlacedScreen.of x y primary (s, j)).chunk
    (c.left.toInt = s.left.toInt - x ∧ c.w = s.width) ∧
      c.top.toInt = s.top.toInt - y ∧ c.h = s.height := by
  obtain ⟨hl, hr, hw₁, ht, hb, hh₁⟩ := hs
  dsimp only [PlacedScreen.chunk, PlacedScreen.of]
  exact ⟨⟨toInt_ofInt (by omega) (by omega), Int32.ofInt_toInt _⟩,
    toInt_ofInt (by omega) (by omega), Int32.ofInt_toInt _⟩

theorem Screen.Within.frames :
    (PlacedScreen.of x y primary (s, j)).chunk.monitor.Frames s x y := by
  obtain ⟨⟨hleft, hwidth⟩, htop, hheight⟩ := hs.chunk hw hh primary j
  obtain ⟨hl, hr, hw₁, ht, hb, hh₁⟩ := hs
  generalize (PlacedScreen.of x y primary (s, j)).chunk = c at hleft hwidth htop hheight
  rw [← hwidth] at hr hw₁
  rw [← hheight] at hb hh₁
  refine ⟨hleft, ?_, htop, ?_⟩
  · rw [← hwidth, ← hleft]
    exact toInt_farEdge (by omega) hw₁ (by omega)
  · rw [← hheight, ← htop]
    exact toInt_farEdge (by omega) hh₁ (by omega)

/-- The surface is declared with the screen's place and size. -/
theorem Screen.Within.surface :
    let c := (MonitorSurface.of (.of x y primary (s, j), j)).canvas
    ((c.originX.toNat : Int) = s.left.toInt - x ∧ (c.width.toNat : Int) = s.width.toInt) ∧
      (c.originY.toNat : Int) = s.top.toInt - y ∧ (c.height.toNat : Int) = s.height.toInt := by
  obtain ⟨hl, hr, hw₁, ht, hb, hh₁⟩ := hs
  simp only [MonitorSurface.of, Canvas.fromElement, PlacedScreen.of, toNat_toU16]
  omega

/-- The monitor, the surface and the input of a screen have the same points. -/
theorem Screen.Within.covers (px py : Int) :
    let m := (PlacedScreen.of x y primary (s, j)).chunk.monitor
    let c := MonitorSurface.of (.of x y primary (s, j), j)
    (m.Has px py ↔ c.Shows px py) ∧ (m.Has px py ↔ c.Sends px py) := by
  obtain ⟨hleft, hright, htop, hbottom⟩ := hs.frames hw hh primary j
  obtain ⟨⟨hx, hwidth⟩, hy, hheight⟩ := hs.surface hw hh primary j
  dsimp only
  unfold Monitor.Has MonitorSurface.Shows MonitorSurface.Sends
  rw [exists_pixel_iff, exists_pixel_iff, hleft, hright, htop, hbottom, hx, hwidth, hy, hheight]
  simp only [MonitorSurface.of, PlacedScreen.of]
  omega

end

/-! ## All the screens -/

/-- Every reading of the layout has the screens where they are, seen from the
corner (x,y) of their bounding box, which is w × h. -/
structure SameGeometry (screens : List Screen) (currentScreen : Nat) (opens : Nat → Bool)
    (x y w h : Int) (layout : List PlacedScreen) (monitors : List Monitor)
    (surfaces : List MonitorSurface) : Prop where
  left : IsLeast {l | ∃ m ∈ layout, m.left = l} 0
  top : IsLeast {t | ∃ m ∈ layout, m.top = t} 0
  offsets : KeepsOffsets screens layout
  combined : ((combinedDesktopSize monitors).1.toNat : Int) = w ∧
    ((combinedDesktopSize monitors).2.toNat : Int) = h
  rects : monitors.length = screens.length
  /-- A canvas is declared for the browser's screen, and for each popup. -/
  declared : ∀ j < screens.length, j = currentScreen ∨ opens j = true →
    ∃ c ∈ surfaces, c.screen = j
  covers : ∀ c ∈ surfaces, ∃ m, monitors[c.screen]? = some m ∧
    ∀ px py, (m.Has px py ↔ c.Shows px py) ∧ (m.Has px py ↔ c.Sends px py)
  disjoint : monitors.Pairwise fun m n => ∀ px py, ¬ (m.Has px py ∧ n.Has px py)
  inside : ∀ m ∈ monitors, ∀ px py, m.Has px py → (0 ≤ px ∧ px < w) ∧ 0 ≤ py ∧ py < h
  primary : ∃ s, screens[currentScreen]? = some s ∧
    let (ox, oy, pw, ph) := primarySurfaceRect monitors
      (combinedDesktopSize monitors).1 (combinedDesktopSize monitors).2
    ((ox.toNat : Int) = s.left.toInt - x ∧ (pw.toNat : Int) = s.width.toInt) ∧
      (oy.toNat : Int) = s.top.toInt - y ∧ (ph.toNat : Int) = s.height.toInt

section

variable {screens : List Screen} {x y w h : Int} {primary : Nat}

theorem IsBoundingBox.within (hbox : IsBoundingBox screens x y w h) {s : Screen}
    (hs : s ∈ screens) (hsize : 1 ≤ s.width.toInt ∧ 1 ≤ s.height.toInt) : s.Within x y w h where
  left := hbox.corner.left.2 ⟨s, hs, rfl⟩
  right := hbox.right.2 ⟨s, hs, rfl⟩
  width := hsize.1
  top := hbox.corner.top.2 ⟨s, hs, rfl⟩
  bottom := hbox.bottom.2 ⟨s, hs, rfl⟩
  height := hsize.2

/-- The layout, seen from the corner. -/
def layoutOf (x y : Int) (primary : Nat) (screens : List Screen) : List PlacedScreen :=
  screens.zipIdx.map (.of x y primary)

theorem buildMonitorLayout_current {i : Fin screens.length} (hcorner : IsCorner screens x y) :
    buildMonitorLayout screens (some i) = layoutOf x y i screens := by
  have hi : screens[primaryIndex screens (some i)]? = some screens[i] :=
    List.getElem?_eq_getElem i.isLt
  obtain ⟨x', y', hcorner', hbuild⟩ := buildMonitorLayout_eq hi
  obtain rfl := hcorner.left.unique hcorner'.left
  obtain rfl := hcorner.top.unique hcorner'.top
  exact hbuild

theorem getElem?_layoutOf (j : Nat) :
    (layoutOf x y primary screens)[j]? =
      screens[j]?.map fun s => .of x y primary (s, j) := by
  rw [layoutOf, List.getElem?_map, List.getElem?_zipIdx, Option.map_map, Nat.zero_add]
  rfl

theorem mem_layoutOf {m : PlacedScreen} : m ∈ layoutOf x y primary screens ↔
    ∃ s j, screens[j]? = some s ∧ .of x y primary (s, j) = m := by
  simp [layoutOf, List.mem_zipIdx_iff_getElem?]

theorem parseMonitorLayout_flatten :
    parseMonitorLayout (flatten (layoutOf x y primary screens)) =
      (chunksOf x y primary screens).map LayoutChunk.monitor := by
  rw [parseMonitorLayout, chunksExact_flatten, layoutOf, chunksOf, List.map_map, List.map_map,
    List.map_map]
  rfl

theorem keepsOffsets_layoutOf : KeepsOffsets screens (layoutOf x y primary screens) := by
  refine ⟨by rw [layoutOf, List.length_map, List.length_zipIdx], ?_⟩
  intro j k s t m n hs ht hm hn
  rw [getElem?_layoutOf, hs] at hm
  rw [getElem?_layoutOf, ht] at hn
  obtain rfl := Option.some.inj hm
  obtain rfl := Option.some.inj hn
  exact ⟨sub_sub_sub_cancel_right .., sub_sub_sub_cancel_right ..⟩

/-- On one axis: the greatest far edge of the monitors, as a size. -/
theorem toNat_sizeTo_far (hne : screens ≠ []) {edge : LayoutChunk → Int32} {far : Screen → Int}
    (hedge : ∀ j s, screens[j]? = some s →
      (edge (PlacedScreen.of x y primary (s, j)).chunk).toInt + 1 = far s - w)
    (hpos : ∀ s ∈ screens, w < far s)
    (hfar : IsGreatest {r | ∃ s ∈ screens, far s = r} (w + h)) (hh : h ≤ 65535) :
    ((sizeTo (((chunksOf x y primary screens).map edge).max?.getD 0)).toNat : Int) = h := by
  have hnil : chunksOf x y primary screens ≠ [] := by simpa [chunksOf] using hne
  have hsize : ∀ c ∈ chunksOf x y primary screens,
      ∃ s ∈ screens, (edge c).toInt + 1 = far s - w := by
    intro c hc
    obtain ⟨s, j, hs, rfl⟩ := mem_chunksOf.mp hc
    exact ⟨s, List.mem_of_getElem? hs, hedge j s hs⟩
  refine (@isGreatest_sizeTo _ hnil edge (fun c => (edge c).toInt + 1) (fun _ _ => rfl)
    (fun c hc => ?_) (fun c hc => ?_)).unique ⟨?_, ?_⟩
  · obtain ⟨s, hs, heq⟩ := hsize c hc
    have := hpos s hs
    omega
  · obtain ⟨s, hs, heq⟩ := hsize c hc
    have := hfar.2 ⟨s, hs, rfl⟩
    omega
  · obtain ⟨s, hs, heq⟩ := hfar.1
    obtain ⟨j, hj⟩ := List.mem_iff_getElem?.mp hs
    refine ⟨_, mem_chunksOf.mpr ⟨s, j, hj, rfl⟩, ?_⟩
    rw [hedge j s hj]
    omega
  · rintro r ⟨c, hc, rfl⟩
    obtain ⟨s, hs, heq⟩ := hsize c hc
    have := hfar.2 ⟨s, hs, rfl⟩
    omega

/-- The combined desktop is the bounding box. -/
theorem combined_layoutOf (hne : screens ≠ []) (hbox : IsBoundingBox screens x y w h)
    (hw : w ≤ 65535) (hh : h ≤ 65535) (hwithin : ∀ s ∈ screens, s.Within x y w h) :
    let size := combinedDesktopSize (parseMonitorLayout (flatten (layoutOf x y primary screens)))
    (size.1.toNat : Int) = w ∧ (size.2.toNat : Int) = h := by
  have hframes : ∀ j s, screens[j]? = some s →
      (PlacedScreen.of x y primary (s, j)).chunk.monitor.Frames s x y := fun j s hs =>
    (hwithin s (List.mem_of_getElem? hs)).frames hw hh primary j
  rw [parseMonitorLayout_flatten, combinedDesktopSize, List.map_map, List.map_map]
  constructor
  · refine toNat_sizeTo_far hne (fun j s hs => ?_) (fun s hs => ?_) hbox.right hw
    · rw [Function.comp_apply, (hframes j s hs).right]
      omega
    · obtain ⟨hleft, -, hwidth, -, -, -⟩ := hwithin s hs
      omega
  · refine toNat_sizeTo_far hne (fun j s hs => ?_) (fun s hs => ?_) hbox.bottom hh
    · rw [Function.comp_apply, (hframes j s hs).bottom]
      omega
    · obtain ⟨-, -, -, htop, -, hheight⟩ := hwithin s hs
      omega

/-! ## The primary monitor -/

theorem find?_eq_of_unique {α : Type} {l : List α} {p : α → Bool} {a : α} (ha : a ∈ l)
    (hp : p a = true) (hunique : ∀ b ∈ l, p b = true → b = a) : l.find? p = some a := by
  have hsome : (l.find? p).isSome := List.find?_isSome.mpr ⟨a, ha, hp⟩
  obtain ⟨b, hb⟩ := Option.isSome_iff_exists.mp hsome
  rw [hb, hunique b (List.mem_of_find?_eq_some hb) (List.find?_some hb)]

theorem mem_zipIdx_layoutOf {m : PlacedScreen} {j : Nat} :
    (m, j) ∈ (layoutOf x y primary screens).zipIdx ↔
      ∃ s, screens[j]? = some s ∧ .of x y primary (s, j) = m := by
  rw [List.mem_zipIdx_iff_getElem?, getElem?_layoutOf, Option.map_eq_some_iff]

/-- The main canvas is declared for the browser's screen, and the popups for
others. -/
theorem mem_setupMonitorSurfaces {p : Screen} (hp : screens[primary]? = some p)
    (opens : Nat → Bool) {c : MonitorSurface} :
    let layout := (layoutOf x y primary screens).zipIdx
    c ∈ setupMonitorSurfaces layout (openSecondaryPopups opens layout) ↔
      ∃ s j, screens[j]? = some s ∧ (j = primary ∨ opens j = true) ∧
        .of (.of x y primary (s, j), j) = c := by
  dsimp only
  have hfind : ((layoutOf x y primary screens).zipIdx.find? (·.1.primary)) =
      some (.of x y primary (p, primary), primary) := by
    refine find?_eq_of_unique (mem_zipIdx_layoutOf.mpr ⟨p, hp, rfl⟩) (decide_eq_true rfl) ?_
    rintro ⟨m, j⟩ hm hprimary
    obtain ⟨s, hs, rfl⟩ := mem_zipIdx_layoutOf.mp hm
    obtain rfl : j = primary := of_decide_eq_true hprimary
    obtain rfl := Option.some.inj (hs.symm.trans hp)
    rfl
  rw [setupMonitorSurfaces, hfind, Option.some_or]
  dsimp only
  rw [List.mem_cons, List.mem_map]
  constructor
  · rintro (rfl | ⟨⟨m, j⟩, hm, rfl⟩)
    · exact ⟨p, primary, hp, .inl rfl, rfl⟩
    · rw [openSecondaryPopups, List.mem_filter, Bool.and_eq_true] at hm
      obtain ⟨hm, -, hopens⟩ := hm
      obtain ⟨s, hs, rfl⟩ := mem_zipIdx_layoutOf.mp hm
      exact ⟨s, j, hs, .inr hopens, rfl⟩
  · rintro ⟨s, j, hs, hj, rfl⟩
    by_cases hprimary : j = primary
    · subst hprimary
      obtain rfl := Option.some.inj (hs.symm.trans hp)
      exact .inl rfl
    · refine .inr ⟨_, ?_, rfl⟩
      rw [openSecondaryPopups, List.mem_filter, Bool.and_eq_true, Bool.not_eq_true']
      exact ⟨mem_zipIdx_layoutOf.mpr ⟨s, hs, rfl⟩, decide_eq_false hprimary,
        hj.resolve_left hprimary⟩

/-- The session's own rectangle for the main canvas. -/
theorem primarySurfaceRect_layoutOf {p : Screen} (hp : screens[primary]? = some p)
    (hw : w ≤ 65535) (hh : h ≤ 65535) (hwithin : p.Within x y w h) (cw ch : UInt16) :
    let (ox, oy, pw, ph) :=
      primarySurfaceRect (parseMonitorLayout (flatten (layoutOf x y primary screens))) cw ch
    ((ox.toNat : Int) = p.left.toInt - x ∧ (pw.toNat : Int) = p.width.toInt) ∧
      (oy.toNat : Int) = p.top.toInt - y ∧ (ph.toNat : Int) = p.height.toInt := by
  rw [parseMonitorLayout_flatten]
  have hfind : ((chunksOf x y primary screens).map LayoutChunk.monitor).find? (·.primary) =
      some (PlacedScreen.of x y primary (p, primary)).chunk.monitor := by
    refine find?_eq_of_unique
      (List.mem_map_of_mem (mem_chunksOf.mpr ⟨p, primary, hp, rfl⟩))
      (decide_eq_true (chunk_primary_of.mpr rfl)) ?_
    intro m hm hprimary
    obtain ⟨c, hc, rfl⟩ := List.mem_map.mp hm
    obtain ⟨s, j, hs, rfl⟩ := mem_chunksOf.mp hc
    obtain rfl := chunk_primary_of.mp (of_decide_eq_true hprimary)
    obtain rfl := Option.some.inj (hs.symm.trans hp)
    rfl
  rw [primarySurfaceRect, hfind, Option.some_or]
  obtain ⟨⟨hleft, hwidth⟩, htop, hheight⟩ := hwithin.chunk hw hh primary primary
  obtain ⟨hl, hr, hw₁, ht, hb, hh₁⟩ := hwithin
  dsimp only
  generalize (PlacedScreen.of x y primary (p, primary)).chunk = c at *
  rw [← hwidth] at hr hw₁ ⊢
  rw [← hheight] at hb hh₁ ⊢
  rw [← hleft, ← htop]
  dsimp only [LayoutChunk.monitor]
  exact ⟨⟨toNat_originTo (by omega) (by omega), toNat_sizeTo_sub (by omega) hw₁ (by omega)⟩,
    toNat_originTo (by omega) (by omega), toNat_sizeTo_sub (by omega) hh₁ (by omega)⟩

/-! ## All the readings -/

theorem isLeast_layoutOf {f : PlacedScreen → Int} {g : Screen → Int}
    (hf : ∀ s j, f (.of x y primary (s, j)) = g s - w)
    (hg : IsLeast {l | ∃ s ∈ screens, g s = l} w) :
    IsLeast {l | ∃ m ∈ layoutOf x y primary screens, f m = l} 0 := by
  obtain ⟨⟨s, hs, heq⟩, hle⟩ := hg
  constructor
  · obtain ⟨j, hj⟩ := List.mem_iff_getElem?.mp hs
    refine ⟨_, mem_layoutOf.mpr ⟨s, j, hj, rfl⟩, ?_⟩
    rw [hf, heq, Int.sub_self]
  · rintro l ⟨m, hm, rfl⟩
    obtain ⟨t, j, ht, rfl⟩ := mem_layoutOf.mp hm
    have := hle ⟨t, List.mem_of_getElem? ht, rfl⟩
    rw [hf]
    omega

theorem getElem?_parseMonitorLayout (j : Nat) :
    (parseMonitorLayout (flatten (layoutOf x y primary screens)))[j]? =
      screens[j]?.map fun s => (PlacedScreen.of x y primary (s, j)).chunk.monitor := by
  rw [parseMonitorLayout_flatten, chunksOf, List.getElem?_map, List.getElem?_map,
    List.getElem?_zipIdx, Option.map_map, Option.map_map, Nat.zero_add]
  rfl

/-- Screens that do not overlap make monitors that do not. -/
theorem pairwise_disjoint (hw : w ≤ 65535) (hh : h ≤ 65535)
    (hwithin : ∀ s ∈ screens, s.Within x y w h) (hapart : screens.Pairwise Screen.Apart) :
    (parseMonitorLayout (flatten (layoutOf x y primary screens))).Pairwise fun m n =>
      ∀ px py, ¬ (m.Has px py ∧ n.Has px py) := by
  have hindexed : (screens.zipIdx.map Prod.fst).Pairwise Screen.Apart := by
    rw [List.zipIdx_map_fst]
    exact hapart
  rw [parseMonitorLayout_flatten, chunksOf, List.map_map, List.pairwise_map]
  refine (List.pairwise_map.mp hindexed).imp_of_mem ?_
  rintro ⟨s, j⟩ ⟨t, k⟩ hs ht hapart px py
  have hs := hwithin s (List.mem_of_getElem? (List.mem_zipIdx_iff_getElem?.mp hs))
  have ht := hwithin t (List.mem_of_getElem? (List.mem_zipIdx_iff_getElem?.mp ht))
  obtain ⟨hsl, hsr, hst, hsb⟩ := hs.frames hw hh primary j
  obtain ⟨htl, htr, htt, htb⟩ := ht.frames hw hh primary k
  unfold Screen.Apart at hapart
  dsimp only [Function.comp_apply] at hapart ⊢
  unfold Monitor.Has
  omega

end

/-- For screens that do not overlap, in a bounding box that a `u16` can
measure, the geometry is the same from end to end. -/
theorem sameGeometry {screens : List Screen} (i : Fin screens.length) (opens : Nat → Bool)
    {x y w h : Int} (hbox : IsBoundingBox screens x y w h) (hw : w ≤ 65535) (hh : h ≤ 65535)
    (hsizes : ∀ s ∈ screens, 1 ≤ s.width.toInt ∧ 1 ≤ s.height.toInt)
    (hapart : screens.Pairwise Screen.Apart) :
    let layout := buildMonitorLayout screens (some i)
    SameGeometry screens i opens x y w h layout (parseMonitorLayout (flatten layout))
      (setupMonitorSurfaces layout.zipIdx (openSecondaryPopups opens layout.zipIdx)) := by
  dsimp only
  rw [buildMonitorLayout_current hbox.corner]
  have hp : screens[i.val]? = some screens[i] := List.getElem?_eq_getElem i.isLt
  have hne : screens ≠ [] := List.ne_nil_of_mem (List.mem_of_getElem? hp)
  have hwithin : ∀ s ∈ screens, s.Within x y w h := fun s hs => hbox.within hs (hsizes s hs)
  have hsurface := fun c => mem_setupMonitorSurfaces (x := x) (y := y) hp opens (c := c)
  refine
    { left := isLeast_layoutOf (fun _ _ => rfl) hbox.corner.left
      top := isLeast_layoutOf (fun _ _ => rfl) hbox.corner.top
      offsets := keepsOffsets_layoutOf
      combined := combined_layoutOf hne hbox hw hh hwithin
      rects := ?_
      declared := ?_
      covers := ?_
      disjoint := pairwise_disjoint hw hh hwithin hapart
      inside := ?_
      primary := ⟨_, hp, primarySurfaceRect_layoutOf hp hw hh
        (hwithin _ (List.mem_of_getElem? hp)) _ _⟩ }
  · rw [parseMonitorLayout_flatten, chunksOf, List.length_map, List.length_map, List.length_zipIdx]
  · intro j hj hopens
    exact ⟨_, (hsurface _).mpr ⟨_, j, List.getElem?_eq_getElem hj, hopens, rfl⟩, rfl⟩
  · intro c hc
    obtain ⟨s, j, hs, -, rfl⟩ := (hsurface c).mp hc
    refine ⟨(PlacedScreen.of x y i (s, j)).chunk.monitor, ?_, ?_⟩
    · change (parseMonitorLayout _)[j]? = _
      rw [getElem?_parseMonitorLayout, hs, Option.map_some]
    · exact (hwithin s (List.mem_of_getElem? hs)).covers hw hh i j
  · intro m hm px py hpoint
    obtain ⟨j, hj⟩ := List.mem_iff_getElem?.mp hm
    rw [getElem?_parseMonitorLayout, Option.map_eq_some_iff] at hj
    obtain ⟨s, hs, rfl⟩ := hj
    have hs := hwithin s (List.mem_of_getElem? hs)
    obtain ⟨hl, hr, ht, hb⟩ := hs.frames hw hh i j
    obtain ⟨hsl, hsr, -, hst, hsb, -⟩ := hs
    unfold Monitor.Has at hpoint
    omega

theorem isBoundingBox_rightOf : IsBoundingBox rightOf 0 0 3200 1080 := by
  refine ⟨⟨?_, ?_⟩, ?_, ?_⟩
  all_goals simp [rightOf, IsLeast, IsGreatest, lowerBounds, upperBounds]
  all_goals rintro a (rfl | rfl) <;> decide

/-- The browser is on the right one of two screens. -/
theorem sameGeometry_rightOf :
    SameGeometry rightOf 1 (fun _ => true) 0 0 3200 1080
      (buildMonitorLayout rightOf (some ⟨1, by decide⟩))
      (parseMonitorLayout (flatten (buildMonitorLayout rightOf (some ⟨1, by decide⟩))))
      (setupMonitorSurfaces (buildMonitorLayout rightOf (some ⟨1, by decide⟩)).zipIdx
        (openSecondaryPopups (fun _ => true)
          (buildMonitorLayout rightOf (some ⟨1, by decide⟩)).zipIdx)) :=
  sameGeometry ⟨1, by decide⟩ (fun _ => true) isBoundingBox_rightOf (by decide) (by decide)
    (by simp [rightOf]) isArrangement_rightOf.apart

end WasmRdp
