import WasmRdp.Lib.Runs
import WasmRdp.RailManager
import WasmRdp.RailTrace

/-!
# The clip of a window

An order with the VISIBILITY field says which rectangles of the desktop a
window is visible in. On the way to the page `parse` drops a region of at
most one rectangle, so that it arrives like an order without the field, and
`__rdp_rail_window` then makes the first rectangle of what it gets the clip
of the canvas, relative to the place of the window, and never takes a clip
off again.

`carried` keeps with each event the region as the order has it, and a
`ClipRun` remembers the last one of each window. One event leaves all
windows following their regions exactly when it `Fits`; by induction on the
events, that decides whole runs (`follows_iff_fits`).

Two facts carry the step. What `parse` drops is known (`RegionKept`), by a
reader that follows it in step and keeps the region (`tracks_region`). And the
clip that an event finds is known from the regions before it, in `Clipped`: a
window whose last region has two rectangles or more has the clip of its first
one, and a window that never had such a region has none. Under a smaller
region the clip can be a leftover, which is why the condition asks for it.

`UpdateFits` speaks of the region that is in force after the update, new or
left over, because a window that moves takes its clip along. A clip is one
box, so a region of several rectangles is followed only when its first
rectangle contains all that lies on the window (`Region.follows_iff`).
-/

namespace WasmRdp

open ByteReader Slices

/-! ## The regions of a payload -/

/-- What `parse_window_state` reads for VISIBILITY, before it drops a region
that is not worth a clip. -/
def readRegion (ff : UInt32) : Read (Option (List Rect)) := do
  let _ ← field ff WINDOW_ORDER_FIELD_OWNER (Reader.skip 4)
  let _ ← field ff WINDOW_ORDER_FIELD_STYLE (Reader.skip 8)
  let _ ← field ff WINDOW_ORDER_FIELD_SHOW Reader.u8
  let _ ← field ff WINDOW_ORDER_FIELD_TITLE Reader.unicodeString
  let _ ← field ff WINDOW_ORDER_FIELD_CLIENT_AREA_OFFSET (Reader.skip 8)
  let _ ← field ff WINDOW_ORDER_FIELD_CLIENT_AREA_SIZE (Reader.skip 8)
  let _ ← field ff WINDOW_ORDER_FIELD_RESIZE_MARGIN_X (Reader.skip 8)
  let _ ← field ff WINDOW_ORDER_FIELD_RESIZE_MARGIN_Y (Reader.skip 8)
  let _ ← field ff WINDOW_ORDER_FIELD_RP_CONTENT (Reader.skip 1)
  let _ ← field ff WINDOW_ORDER_FIELD_ROOT_PARENT (Reader.skip 4)
  let _ ← field ff WINDOW_ORDER_FIELD_WND_OFFSET do
    let x ← Reader.i32
    let y ← Reader.i32
    pure (x, y)
  let _ ← field ff WINDOW_ORDER_FIELD_WND_CLIENT_DELTA (Reader.skip 8)
  let _ ← field ff WINDOW_ORDER_FIELD_WND_SIZE do
    let width ← Reader.u32
    let height ← Reader.u32
    pure (width, height)
  let _ ← field ff WINDOW_ORDER_FIELD_WND_RECTS do
    let num ← Reader.u16
    Reader.skip (num.toNat * 8)
  let _ ← field ff WINDOW_ORDER_FIELD_VIS_OFFSET (Reader.skip 8)
  field ff WINDOW_ORDER_FIELD_VISIBILITY do
    let num ← Reader.u16
    times num.toNat readRect

theorem tracks_region (ff windowId : UInt32) :
    Tracks (parseWindowState ff windowId) (readRegion ff) fun info region =>
      info.visibilityRects = region.filter (1 < ·.length) := by
  unfold parseWindowState readRegion
  iterate 15 refine Tracks.bind fun _ => ?_
  exact Tracks.last fun region => rfl

/-- The region in front of the cursor, behind the window id. -/
def bodyRegion (ff : UInt32) (r : Cursor) : Option (List Rect) :=
  let body : Read (Option (List Rect)) := do
    let _ ← Reader.u32
    readRegion ff
  (body r).1.join

/-- The region that an order carries, if it is a create or update order. -/
def orderRegion (payload : List UInt8) (order : TakenOrder) : Option (List Rect) :=
  match order.head with
  | .frameMarker => none
  | .window _ ff => bodyRegion ff ⟨payload, order.start + order.head.length⟩

/-- The events of a payload, each with the region of its order. -/
def carried (payload : List UInt8) : List (WindowEvent × Option (List Rect)) :=
  match taken payload with
  | .ok orders => orders.flatMap fun order =>
      order.events.map fun event => (event, orderRegion payload order)
  | .error _ => []

/-! ## What is dropped -/

/-- An event tells of the region of its order unless that has at most one
rectangle. -/
def RegionKept (region : Option (List Rect)) : WindowEvent → Prop
  | .newOrUpdate info => info.visibilityRects = region.filter (1 < ·.length)
  | _ => True

theorem regionKept_desktop (ff : UInt32) (r : Cursor) (region : Option (List Rect)) :
    ∀ e ∈ parseDesktopOrder ff r, RegionKept region e := by
  have hactive : ∀ active : Option UInt32,
      ∀ e ∈ (active.map WindowEvent.activeWindow).toList, RegionKept region e := by
    rintro (_ | active) e he
    · cases he
    · rw [List.mem_singleton.mp he]
      trivial
  have hids : ∀ ids : Option (List UInt32),
      ∀ e ∈ (ids.map WindowEvent.zOrder).toList, RegionKept region e := by
    rintro (_ | ids) e he
    · cases he
    · rw [List.mem_singleton.mp he]
      trivial
  rw [parseDesktopOrder]
  rcases field ff WINDOW_ORDER_FIELD_DESKTOP_ACTIVE_WND Reader.u32 r with
    ⟨_ | active, r₁⟩
  · intro e he
    cases he
  · dsimp only
    split
    · exact hactive active
    · intro e he
      rcases List.mem_append.mp he with h | h
      · exact hactive active e h
      · exact hids _ e h

theorem regionKept_icon (windowId : UInt32) (r : Cursor) (region : Option (List Rect)) :
    Returns (parseIconOrder windowId r) fun events => ∀ e ∈ events, RegionKept region e := by
  rw [parseIconOrder]
  rcases readIconBits r with ⟨_ | icon, r'⟩
  · exact Returns.pure fun e he => by cases he
  · dsimp only
    rw [decodeIcon_eq]
    split
    · refine Returns.pure fun e he => ?_
      rw [List.mem_singleton.mp he]
      trivial
    · exact Returns.pure fun e he => by cases he

theorem regionKept_window (ff : UInt32) (r : Cursor) :
    Returns (parseWindowOrder ff r) fun events =>
      ∀ e ∈ events, RegionKept (bodyRegion ff r) e := by
  have hnil : Returns (pure []) fun events : List WindowEvent =>
      ∀ e ∈ events, RegionKept (bodyRegion ff r) e :=
    Returns.pure fun e he => by cases he
  have hone : ∀ e : WindowEvent, RegionKept (bodyRegion ff r) e →
      Returns (pure [e]) fun events : List WindowEvent =>
        ∀ e ∈ events, RegionKept (bodyRegion ff r) e := by
    intro e he
    refine Returns.pure fun e' he' => ?_
    rwa [List.mem_singleton.mp he']
  rw [parseWindowOrder]
  split
  · exact Returns.pure (regionKept_desktop ff r _)
  split
  · exact hnil
  rcases hid : Reader.u32 r with ⟨_ | windowId, r₁⟩
  · exact hnil
  dsimp only
  split
  · exact regionKept_icon windowId r₁ _
  split
  · exact hnil
  split
  · exact hnil
  split
  · exact hone _ trivial
  rcases hstate : parseWindowState ff windowId r₁ with ⟨_ | info, r₂⟩
  · exact hnil
  · obtain ⟨region, hregion, hkept⟩ := tracks_region ff windowId r₁ info r₂ hstate
    refine hone _ ?_
    have hbody : bodyRegion ff r = region := by
      rw [bodyRegion, bind_eq, hid]
      dsimp only
      rw [hregion]
      rfl
    rw [hbody]
    exact hkept

theorem regionKept_takeOrder {c : Cursor} (hpos : c.pos ≤ c.buf.length) :
    Returns (takeOrder c) fun taken => ∀ order ∈ taken, order.stop ≤ c.buf.length ∧
      ∀ e ∈ order.events, RegionKept (orderRegion c.buf order) e := by
  have hturn := takeOrder_cases hpos
  generalize takeOrder c = turn at hturn ⊢
  cases hturn with
  | stop => exact Returns.ok fun order h => by cases h
  | marker b action rest hstd htype haction hc =>
      refine Returns.ok fun order h => ?_
      cases h
      have hlen := hc.length
      rw [List.length_append, List.length_append, haction] at hlen
      have hone : [b].length = 1 := rfl
      exact ⟨by dsimp only; omega, fun e he => by cases he⟩
  | window b size flags rest hstd htype hc hsize hend =>
      refine (regionKept_window flags (c.advance 7)).bind
        fun events hev => Returns.pure fun order h => ?_
      cases h
      exact ⟨hend, hev⟩

theorem regionKept_takeOrders (n : Nat) {r : Cursor} (hpos : r.pos ≤ r.buf.length) :
    Returns (takeOrders n r) fun orders => ∀ order ∈ orders,
      ∀ e ∈ order.events, RegionKept (orderRegion r.buf order) e := by
  induction n generalizing r with
  | zero => exact Returns.pure fun order h => by cases h
  | succ n ih =>
      rw [takeOrders]
      refine (regionKept_takeOrder hpos).bind fun taken htaken => ?_
      cases taken with
      | none => exact Returns.pure fun order h => by cases h
      | some order =>
          obtain ⟨hstop, hkept⟩ := htaken order rfl
          refine (ih (r := { r with pos := order.stop }) hstop).bind
            fun orders hor => Returns.pure fun o ho => ?_
          rcases List.mem_cons.mp ho with rfl | ho
          · exact hkept
          · exact hor o ho

theorem regionKept_carried {payload : List UInt8} {e : WindowEvent × Option (List Rect)}
    (he : e ∈ carried payload) : RegionKept e.2 e.1 := by
  obtain ⟨orders, htaken, -⟩ := (parse_total payload).1
  rw [carried, htaken] at he
  obtain ⟨order, horder, he⟩ := List.mem_flatMap.mp he
  obtain ⟨event, hevent, rfl⟩ := List.mem_map.mp he
  rw [taken] at htaken
  have hc : (⟨payload, 0⟩ : Cursor).Sees payload := ⟨Nat.zero_le _, rfl⟩
  rcases hcount : Reader.u16 ⟨payload, 0⟩ with ⟨_ | numberOrders, r⟩
  · rw [hcount] at htaken
    cases htaken
    cases horder
  · rw [hcount] at htaken
    obtain ⟨_, rest, rfl, rfl, rfl⟩ := consumes_u16 _ _ _ _ hc hcount
    exact (regionKept_takeOrders numberOrders.toNat hc.advance.1).of_eq htaken
      order horder event hevent

/-- `dispatch_window_events` goes through the events of `carried`. -/
theorem dispatchWindowEvents_eq (m : RailManager) (data : List UInt8) :
    m.dispatchWindowEvents data =
      .ok ((carried data).foldl (fun m e => m.dispatchEvent e.1) m) := by
  obtain ⟨orders, htaken, hparse, -⟩ := (parse_total data).1
  have hevents : (carried data).map (·.1) = orders.flatMap (·.events) := by
    rw [carried, htaken]
    simp only [List.map_flatMap, List.map_map, Function.comp_def, List.map_id']
  rw [RailManager.dispatchWindowEvents, hparse, ← List.foldl_map, hevents]
  rfl

/-! ## Following a region -/

/-- A rectangle of the desktop, right and bottom edge excluded. -/
def Rect.Contains (r : Rect) (x y : Int) : Prop :=
  (r.left.toNat ≤ x ∧ x < r.right.toNat) ∧ (r.top.toNat ≤ y ∧ y < r.bottom.toNat)

/-- The box between the four edges, whichever of two edges comes first. -/
def Rect.Spans (r : Rect) (x y : Int) : Prop :=
  (min r.left.toNat r.right.toNat ≤ x ∧ x < max r.left.toNat r.right.toNat) ∧
    (min r.top.toNat r.bottom.toNat ≤ y ∧ y < max r.top.toNat r.bottom.toNat)

namespace Frame

/-- Pixel `(i, j)` is on the canvas. -/
def Has (f : Frame) (i j : Int) : Prop := (0 ≤ i ∧ i < f.w) ∧ (0 ≤ j ∧ j < f.h)

/-- The clip does not hide pixel `(i, j)` of the canvas. -/
def Shows (f : Frame) (i j : Int) : Prop := ∀ c ∈ f.clipPath, c.Shows i j

/-- The clip hides no pixel that lies in one of these rectangles, and there
is no clip when there is at most one of them. -/
structure Follows (f : Frame) (rects : List Rect) : Prop where
  shows : ∀ r ∈ rects, ∀ i j, f.Has i j → r.Contains (f.x + i) (f.y + j) → f.Shows i j
  unclipped : rects.length ≤ 1 → f.clipPath = none

end Frame

/-- The region of the last order that carried one, and where the window was
then. -/
structure Region where
  rects : List Rect
  x : Int
  y : Int

/-- Whatever lies on the window and in the region lies in the region's first
rectangle, taken along if the window has moved. -/
def Region.FirstCovers (region : Region) (f : Frame) : Prop :=
  ∀ first ∈ region.rects.head?, ∀ r ∈ region.rects, ∀ i j, f.Has i j →
    r.Contains (f.x + i) (f.y + j) → first.Spans (region.x + i) (region.y + j)

/-- The page together with the last region of each window. -/
structure ClipRun where
  manager : RailManager
  regions : UInt32 → Option Region

namespace ClipRun

/-- The frame that an update leaves behind. -/
def frameAfter (s : ClipRun) (info : WindowInfo) : Frame :=
  ((s.manager.frameOf info.windowId).getD .create).update (RailManager.callOf info)

def regionsAfter (s : ClipRun) : WindowEvent → Option (List Rect) → UInt32 → Option Region
  | .newOrUpdate info, some rects =>
      let f := s.frameAfter info
      Function.update s.regions info.windowId (some ⟨rects, f.x, f.y⟩)
  | .deleted id, _ => Function.update s.regions id none
  | _, _ => s.regions

def step (s : ClipRun) (e : WindowEvent × Option (List Rect)) : ClipRun where
  manager := s.manager.dispatchEvent e.1
  regions := s.regionsAfter e.1 e.2

/-- A page without windows. -/
def start (windowedMode : Bool) (session : Option Session) : ClipRun where
  manager :=
    { windowedMode
      windows := .empty
      maximizedFirst := false
      hadAppWindow := false
      activeId := none
      exitTimer := false
      inUse := true
      session }
  regions := fun _ => none

/-- Every clip follows its window's region. -/
def Follows (s : ClipRun) : Prop :=
  ∀ id f, s.manager.frameOf id = some f → ∀ region ∈ s.regions id, f.Follows region.rects

/-- A region of at most one rectangle comes while there is no clip, and of a
larger one, be it new or left in force, the first rectangle contains all that
is on the window. -/
def UpdateFits (s : ClipRun) (info : WindowInfo) : Option (List Rect) → Prop
  | some rects =>
      if rects.length ≤ 1 then
        ∀ f, s.manager.frameOf info.windowId = some f → f.clipPath = none
      else
        let f := s.frameAfter info
        Region.FirstCovers ⟨rects, f.x, f.y⟩ f
  | none => ∀ region ∈ s.regions info.windowId, 2 ≤ region.rects.length →
      region.FirstCovers (s.frameAfter info)

def Fits (s : ClipRun) (e : WindowEvent × Option (List Rect)) : Prop :=
  ∀ info, e.1 = .newOrUpdate info → s.UpdateFits info e.2

/-- The clip of a window without a region, and of one whose region has two
rectangles or more. Under a smaller region it can be a leftover. -/
def ClippedBy : Option Frame → Option Region → Prop
  | none, region => region = none
  | some f, none => f.clipPath = none
  | some f, some region => 2 ≤ region.rects.length →
      ∃ first ∈ region.rects.head?, f.clipPath = some
        ⟨first.left.toNat - region.x, first.top.toNat - region.y,
          first.right.toNat - region.x, first.bottom.toNat - region.y⟩

def Clipped (s : ClipRun) : Prop :=
  ∀ id, ClippedBy (s.manager.frameOf id) (s.regions id)

end ClipRun

/-! ## One event -/

/-- Under the clip of its first rectangle, a frame follows a region of at
least two when the first contains the others. -/
theorem Region.follows_iff {region : Region} {f : Frame} {first : Rect}
    (hlen : 2 ≤ region.rects.length) (hfirst : first ∈ region.rects.head?)
    (hclip : f.clipPath = some
      ⟨first.left.toNat - region.x, first.top.toNat - region.y,
        first.right.toNat - region.x, first.bottom.toNat - region.y⟩) :
    f.Follows region.rects ↔ region.FirstCovers f := by
  have hshows : ∀ i j, f.Shows i j ↔ first.Spans (region.x + i) (region.y + j) := by
    intro i j
    simp only [Frame.Shows, hclip, Option.mem_some_iff, forall_eq', ClipPath.Shows, Rect.Spans]
    omega
  constructor
  · intro h first' hfirst' r hr i j hhas hin
    obtain rfl := Option.mem_unique hfirst hfirst'
    exact (hshows i j).mp (h.shows r hr i j hhas hin)
  · intro h
    refine ⟨fun r hr i j hhas hin => ?_, fun hle => by omega⟩
    exact (hshows i j).mpr (h first hfirst r hr i j hhas hin)

/-- A frame without a clip follows every region. -/
theorem Frame.follows_of_unclipped {f : Frame} (h : f.clipPath = none) (rects : List Rect) :
    f.Follows rects := by
  refine ⟨fun r _ i j _ _ c hc => ?_, fun _ => h⟩
  rw [h] at hc
  cases hc

namespace ClipRun

variable {s : ClipRun} {info : WindowInfo}

/-- A region that was dropped leaves the clip as it was. -/
theorem clipPath_of_dropped (h : info.visibilityRects = none) :
    (s.frameAfter info).clipPath =
      ((s.manager.frameOf info.windowId).getD .create).clipPath := by
  have hrects : (RailManager.callOf info).visRects = [] := by
    simp [RailManager.callOf, h]
  rw [frameAfter, Frame.update]
  dsimp only
  rw [hrects, clipOf]
  exact fun _ _ _ _ _ h => by cases h

/-- Of a region that arrives, the first rectangle makes the clip. -/
theorem clipPath_of_rects {first second : Rect} {rest : List Rect}
    (h : info.visibilityRects = some (first :: second :: rest)) :
    (s.frameAfter info).clipPath = some
      ⟨first.left.toNat - (s.frameAfter info).x, first.top.toNat - (s.frameAfter info).y,
        first.right.toNat - (s.frameAfter info).x,
        first.bottom.toNat - (s.frameAfter info).y⟩ := by
  have hrects : (RailManager.callOf info).visRects =
      RailManager.edges first ++ (RailManager.edges second ++
        rest.flatMap RailManager.edges) := by
    simp [RailManager.callOf, h]
  have hlen : 4 ≤ (RailManager.edges second ++ rest.flatMap RailManager.edges).length := by
    rw [List.length_append]
    exact Nat.le_add_right 4 _
  rw [frameAfter, Frame.update]
  dsimp only
  rw [hrects]
  exact clipOf_edges first hlen _ _ _

/-- What an update leaves of the frames and the regions. -/
theorem frameOf_step (e : WindowEvent × Option (List Rect)) (he : e.1 = .newOrUpdate info)
    (k : UInt32) : (s.step e).manager.frameOf k =
      if k = info.windowId then some (s.frameAfter info) else s.manager.frameOf k := by
  rw [step]
  dsimp only
  rw [RailManager.frameOf_dispatchEvent, he]
  rfl

/-- The region in force after an update. -/
def regionAfter (s : ClipRun) (info : WindowInfo) (region : Option (List Rect)) :
    Option Region :=
  match region with
  | some rects => some ⟨rects, (s.frameAfter info).x, (s.frameAfter info).y⟩
  | none => s.regions info.windowId

theorem regions_step (e : WindowEvent × Option (List Rect)) (he : e.1 = .newOrUpdate info)
    (k : UInt32) : (s.step e).regions k =
      if k = info.windowId then s.regionAfter info e.2 else s.regions k := by
  rcases e with ⟨ev, _ | rects⟩
  · obtain rfl := he
    change s.regions k = _
    split
    · rename_i hk
      rw [hk]
      rfl
    · rfl
  · obtain rfl := he
    change Function.update s.regions info.windowId _ k = _
    rw [Function.update_apply]
    rfl

/-- Whether all clips follow after an update is a matter of its window. -/
theorem follows_step_iff {e : WindowEvent × Option (List Rect)}
    (he : e.1 = .newOrUpdate info) (hs : s.Follows) :
    (s.step e).Follows ↔
      ∀ region ∈ s.regionAfter info e.2, (s.frameAfter info).Follows region.rects := by
  have hframe := frameOf_step (s := s) e he
  have hregion := regions_step (s := s) e he
  constructor
  · intro h region hmem
    refine h info.windowId _ (by rw [hframe, if_pos rfl]) region ?_
    rwa [hregion, if_pos rfl]
  · intro h k f hf region hmem
    rw [hframe] at hf
    rw [hregion] at hmem
    split at hf
    · rename_i hk
      rw [if_pos hk] at hmem
      cases hf
      exact h region hmem
    · rename_i hk
      rw [if_neg hk] at hmem
      exact hs k f hf region hmem

/-- The clip that an update finds. -/
theorem getD_clipPath_eq_none (s : ClipRun) (id : UInt32) :
    ((s.manager.frameOf id).getD .create).clipPath = none ↔
      ∀ f, s.manager.frameOf id = some f → f.clipPath = none := by
  cases s.manager.frameOf id with
  | none => simp [Frame.create, RailWin.create, RailWin.frame]
  | some f => simp

theorem update_follows_iff {region : Option (List Rect)} (hs : s.Follows) (hc : s.Clipped)
    (hkept : info.visibilityRects = region.filter (1 < ·.length)) :
    (∀ r ∈ s.regionAfter info region, (s.frameAfter info).Follows r.rects) ↔
      s.UpdateFits info region := by
  cases region with
  | some rects =>
      simp only [regionAfter, Option.mem_some_iff, forall_eq']
      rw [Option.filter_some] at hkept
      rw [UpdateFits]
      split
      · rename_i hlen
        -- the region was dropped: whatever clip there was stays
        rw [if_neg (by simpa using hlen)] at hkept
        rw [← getD_clipPath_eq_none, ← clipPath_of_dropped hkept]
        exact ⟨fun h => h.unclipped hlen, fun h => Frame.follows_of_unclipped h rects⟩
      · rename_i hlen
        rw [if_pos (by simpa using hlen)] at hkept
        rcases rects with _ | ⟨first, _ | ⟨second, rest⟩⟩
        · exact absurd (Nat.zero_le 1) hlen
        · exact absurd (Nat.le_refl 1) hlen
        · let region : Region :=
            ⟨first :: second :: rest, (s.frameAfter info).x, (s.frameAfter info).y⟩
          have hlen : 2 ≤ region.rects.length := Nat.le_add_left 2 _
          exact Region.follows_iff hlen rfl (clipPath_of_rects hkept)
  | none =>
      change (∀ r ∈ s.regions info.windowId, _) ↔ _
      have hclip := clipPath_of_dropped (s := s) hkept
      rw [UpdateFits]
      refine forall₂_congr fun region hregion => ?_
      have hby := hc info.windowId
      rw [hregion] at hby
      rcases hf : s.manager.frameOf info.windowId with _ | f
      · rw [hf] at hby
        cases hby
      rw [hf, Option.getD_some] at hclip
      rw [hf] at hby
      by_cases hlen : 2 ≤ region.rects.length
      · obtain ⟨first, hfirst, hpath⟩ := hby hlen
        rw [Region.follows_iff hlen hfirst (hclip.trans hpath)]
        exact ⟨fun h _ => h, fun h => h hlen⟩
      · -- no clip was in force, and none is now
        have hnone := (hs _ f hf region hregion).unclipped (by omega)
        exact ⟨fun _ h => absurd h hlen,
          fun _ => Frame.follows_of_unclipped (hclip.trans hnone) _⟩

/-- The clip that an update leaves behind. -/
theorem clippedBy_update {region : Option (List Rect)} (hc : s.Clipped)
    (hkept : info.visibilityRects = region.filter (1 < ·.length)) :
    ClippedBy (some (s.frameAfter info)) (s.regionAfter info region) := by
  cases region with
  | some rects =>
      intro hlen
      rcases rects with _ | ⟨first, _ | ⟨second, rest⟩⟩
      · exact absurd hlen (by simp)
      · exact absurd hlen (by simp)
      · exact ⟨first, rfl, clipPath_of_rects hkept⟩
  | none =>
      have hclip := clipPath_of_dropped (s := s) hkept
      have hby := hc info.windowId
      change ClippedBy _ (s.regions info.windowId)
      rcases hf : s.manager.frameOf info.windowId with _ | f
      · rw [hf] at hby hclip
        rw [show s.regions info.windowId = none from hby]
        exact hclip
      · rw [hf] at hby hclip
        cases hregion : s.regions info.windowId with
        | none =>
            rw [hregion] at hby
            exact hclip.trans hby
        | some region =>
            rw [hregion] at hby
            exact fun hlen => (hby hlen).imp fun first h => ⟨h.1, hclip.trans h.2⟩

theorem step_clipped {e : WindowEvent × Option (List Rect)} (hc : s.Clipped)
    (hkept : RegionKept e.2 e.1) : (s.step e).Clipped := by
  intro k
  obtain ⟨ev, region⟩ := e
  cases ev with
  | newOrUpdate info =>
      rw [frameOf_step _ rfl, regions_step _ rfl]
      split
      · exact clippedBy_update hc hkept
      · exact hc k
  | deleted id =>
      have hframe := s.manager.frameOf_dispatchEvent (.deleted id) k
      change ClippedBy ((s.manager.dispatchEvent (.deleted id)).frameOf k)
        (Function.update s.regions id none k)
      rw [hframe, Function.update_apply]
      dsimp only
      split
      · rfl
      · exact hc k
  | zOrder ids =>
      exact (s.manager.frameOf_dispatchEvent (.zOrder ids) k).symm ▸ hc k
  | activeWindow id =>
      exact (s.manager.frameOf_dispatchEvent (.activeWindow id) k).symm ▸ hc k
  | icon id width height rgba =>
      exact (s.manager.frameOf_dispatchEvent (.icon id width height rgba) k).symm ▸ hc k

/-- One event leaves all clips following exactly when it fits. -/
theorem step_follows_iff {e : WindowEvent × Option (List Rect)} (hc : s.Clipped)
    (hkept : RegionKept e.2 e.1) (hs : s.Follows) : (s.step e).Follows ↔ s.Fits e := by
  obtain ⟨ev, region⟩ := e
  -- an event that is no update changes no clip and no region in force
  have hother : (∀ info, ev ≠ .newOrUpdate info) →
      (∀ k f, (s.step (ev, region)).manager.frameOf k = some f → s.manager.frameOf k = some f) →
      (∀ k r, r ∈ (s.step (ev, region)).regions k → r ∈ s.regions k) →
      ((s.step (ev, region)).Follows ↔ s.Fits (ev, region)) := by
    intro hne hframe hregion
    have hfits : s.Fits (ev, region) := fun info h => absurd h (hne info)
    refine iff_of_true (fun k f hf r hr => ?_) hfits
    exact hs k f (hframe k f hf) r (hregion k r hr)
  have hsame : (∀ k, (s.manager.dispatchEvent ev).frameOf k = s.manager.frameOf k) →
      ∀ k f, (s.step (ev, region)).manager.frameOf k = some f →
        s.manager.frameOf k = some f := fun h k f hf => (h k).symm.trans hf
  cases ev with
  | newOrUpdate info =>
      rw [follows_step_iff rfl hs, update_follows_iff hs hc hkept]
      constructor
      · rintro h _ ⟨⟩
        exact h
      · intro h
        exact h info rfl
  | deleted id =>
      have hframe := s.manager.frameOf_dispatchEvent (.deleted id)
      refine hother (fun info h => by cases h) (fun k f hf => ?_) fun k r hr => ?_
      · change (s.manager.dispatchEvent (.deleted id)).frameOf k = some f at hf
        rw [hframe] at hf
        dsimp only at hf
        split at hf
        · cases hf
        · exact hf
      · change r ∈ Function.update s.regions id none k at hr
        rw [Function.update_apply] at hr
        split at hr
        · cases hr
        · exact hr
  | zOrder ids =>
      exact hother (fun info h => by cases h)
        (hsame (s.manager.frameOf_dispatchEvent (.zOrder ids))) fun _ _ hr => hr
  | activeWindow id =>
      exact hother (fun info h => by cases h)
        (hsame (s.manager.frameOf_dispatchEvent (.activeWindow id))) fun _ _ hr => hr
  | icon id width height rgba =>
      exact hother (fun info h => by cases h)
        (hsame (s.manager.frameOf_dispatchEvent (.icon id width height rgba)))
        fun _ _ hr => hr

/-! ## Runs -/

theorem manager_foldl (s : ClipRun) (es : List (WindowEvent × Option (List Rect))) :
    (es.foldl step s).manager = es.foldl (fun m e => m.dispatchEvent e.1) s.manager := by
  induction es generalizing s with
  | nil => rfl
  | cons e es ih => exact ih (s.step e)

theorem manager_payloads (s : ClipRun) (payloads : List (List UInt8)) :
    payloads.foldlM RailManager.dispatchWindowEvents s.manager =
      .ok ((payloads.flatMap carried).foldl step s).manager := by
  induction payloads generalizing s with
  | nil => rfl
  | cons payload payloads ih =>
      rw [List.foldlM_cons, dispatchWindowEvents_eq, List.flatMap_cons, List.foldl_append]
      change payloads.foldlM _ _ = _
      rw [← manager_foldl, ih]

/-- The events of the payloads of a session, from a page without windows,
leave the page as `dispatch_window_events` does; and the clips follow their
regions all along exactly when every update fits. -/
theorem follows_iff_fits (windowedMode : Bool) (session : Option Session)
    (payloads : List (List UInt8)) :
    payloads.foldlM RailManager.dispatchWindowEvents (start windowedMode session).manager =
        .ok ((payloads.flatMap carried).foldl step (start windowedMode session)).manager ∧
      (Runs.Always step Follows (start windowedMode session) (payloads.flatMap carried) ↔
        Runs.Each step Fits (start windowedMode session) (payloads.flatMap carried)) := by
  refine ⟨manager_payloads _ payloads, ?_⟩
  have hkept : ∀ e ∈ payloads.flatMap carried, RegionKept e.2 e.1 := by
    intro e he
    obtain ⟨payload, -, he⟩ := List.mem_flatMap.mp he
    exact regionKept_carried he
  have hclipped : ∀ s, ∀ e ∈ payloads.flatMap carried, Clipped s → Clipped (step s e) :=
    fun s e he hc => step_clipped hc (hkept e he)
  refine Runs.always_iff_each hclipped
    (fun s e he hc hs => step_follows_iff hc (hkept e he) hs) ?_ ?_
  · exact fun id => rfl
  · exact fun id f hf => by cases hf

/-- A window of two pixels side by side, both visible, each in a rectangle of
its own: the clip hides the second. -/
theorem not_always_follows : ¬ ∀ (windowedMode : Bool) (session : Option Session)
    (payloads : List (List UInt8)),
    Runs.Always step Follows (start windowedMode session) (payloads.flatMap carried) := by
  intro h
  let left : Rect := ⟨0, 0, 1, 1⟩
  let right : Rect := ⟨1, 0, 2, 1⟩
  let info : WindowInfo :=
    ⟨5, true, none, none, none, none, some 2, some 1, some [left, right]⟩
  have hcarried : [[1, 0, 0x2E, 37, 0, 0, 6, 0, 0x11, 5, 0, 0, 0, 2, 0, 0, 0, 1, 0, 0, 0,
      2, 0, 0, 0, 0, 0, 1, 0, 1, 0, 1, 0, 0, 0, 2, 0, 1, 0]].flatMap carried =
        [(.newOrUpdate info, some [left, right])] := by decide +kernel
  have hrun := h false none [[1, 0, 0x2E, 37, 0, 0, 6, 0, 0x11, 5, 0, 0, 0, 2, 0, 0, 0,
    1, 0, 0, 0, 2, 0, 0, 0, 0, 0, 1, 0, 1, 0, 1, 0, 0, 0, 2, 0, 1, 0]]
  rw [hcarried] at hrun
  have hfollows := hrun _ (List.prefix_refl _) 5
    ⟨0, 0, 2, 1, false, some ⟨0, 0, 1, 1⟩⟩ (by decide +kernel) ⟨[left, right], 0, 0⟩ rfl
  have hshows := hfollows.shows right (by simp) 1 0
    ⟨⟨by decide, by decide⟩, by decide, by decide⟩ ⟨⟨by decide, by decide⟩, by decide, by decide⟩
  exact absurd (hshows _ rfl) (by decide)

end ClipRun

end WasmRdp
