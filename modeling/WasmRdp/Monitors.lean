import Mathlib.Algebra.Ring.Int.Defs
import Mathlib.Data.List.Forall2
import Mathlib.Order.Bounds.Defs
import WasmRdp.Resize

/-!
# Several monitors

The monitor layout of `wasm/src/session.rs`: a flat array of five numbers a
monitor, and the two readings of it. `parse_monitor_layout` takes the edges as
they are, for the size of the framebuffer; `parse_dc_monitor_layout` makes the
entries that are sent, with the sizes that the protocol allows, and skips the
monitors that the protocol type rejects. That type is part of IronRDP, so its
functions are parameters (`DisplayControl`).

The readings agree on monitors whose sizes the protocol allows, and which lie
below 65536 (`LayoutChunk.Plain`): `sameDesktop_iff`.

An edge is computed with wrapping numbers of 32 bits and inclusive, a size by
adding one and cutting to 16 bits (`sizeTo`). For one axis the two meet in
`edge_eq_iff`, which is where the width that has to be even and the bounds of
the protocol come in. A monitor's entry covers its rectangle exactly when both
axes agree (`covers_iff`).

For the layout as a whole, the combined desktop is the greatest of the sizes
that belong to the edges (`isGreatest_sizeTo`), and the bounding box of plain
monitors is just that (`isGreatest_combined`). The primary monitor is at (0,0)
in any layout that is not cut by the loop
(`length_parseDcMonitorLayout_iff`). `not_sameDesktop` has a second screen of
odd width: the server's desktop is one column narrower.
-/

namespace WasmRdp

/-! ## The protocol type -/

/-- `displaycontrol::pdu::MonitorLayoutEntry`, as far as it is set here. -/
structure MonitorLayoutEntry where
  isPrimary : Bool
  left : Int32
  top : Int32
  width : UInt32
  height : UInt32
  deriving DecidableEq

structure DisplayControl where
  adjustDisplaySize : UInt32 → UInt32 → UInt32 × UInt32
  newPrimary : UInt32 → UInt32 → Option MonitorLayoutEntry
  newSecondary : UInt32 → UInt32 → Option MonitorLayoutEntry
  withPosition : MonitorLayoutEntry → Int32 → Int32 → Option MonitorLayoutEntry

/-- What the protocol says of them: both sides are within 200 and 8192, the
width is even, and the primary monitor is at (0,0). -/
structure DisplayControl.Documented (d : DisplayControl) : Prop where
  adjustDisplaySize : ∀ w h,
    ⟨(d.adjustDisplaySize w h).1.toNat, (d.adjustDisplaySize w h).2.toNat⟩ =
      Size.adjusted w.toNat h.toNat
  newPrimary : ∀ w h, ⟨w.toNat, h.toNat⟩ = Size.adjusted w.toNat h.toNat →
    d.newPrimary w h = some ⟨true, 0, 0, w, h⟩
  newSecondary : ∀ w h, ⟨w.toNat, h.toNat⟩ = Size.adjusted w.toNat h.toNat →
    d.newSecondary w h = some ⟨false, 0, 0, w, h⟩
  withPosition : ∀ e left top, d.withPosition e left top =
    if e.isPrimary = true ∧ ¬ (left = 0 ∧ top = 0) then none else some { e with left, top }

/-! ## Layouts -/

/-- A `gcc::Monitor`; the edges are inclusive. -/
structure Monitor where
  left : Int32
  top : Int32
  right : Int32
  bottom : Int32
  primary : Bool
  deriving DecidableEq

/-- Five numbers of a flat layout. -/
structure LayoutChunk where
  left : Int32
  top : Int32
  w : Int32
  h : Int32
  primary : Int32

def chunksExact : List Int32 → List LayoutChunk
  | left :: top :: w :: h :: primary :: flat => ⟨left, top, w, h, primary⟩ :: chunksExact flat
  | _ => []

def LayoutChunk.monitor (c : LayoutChunk) : Monitor where
  left := c.left
  top := c.top
  right := c.left + c.w - 1
  bottom := c.top + c.h - 1
  primary := c.primary ≠ 0

def parseMonitorLayout (flat : List Int32) : List Monitor :=
  (chunksExact flat).map LayoutChunk.monitor

/-- `(edge + 1).clamp(1, u16::MAX as i32) as u16` -/
def sizeTo (edge : Int32) : UInt16 := (max 1 (min 65535 (edge + 1))).toUInt32.toUInt16

def combinedDesktopSize (monitors : List Monitor) : UInt16 × UInt16 :=
  let right := (monitors.map (·.right)).max?.getD 0
  let bottom := (monitors.map (·.bottom)).max?.getD 0
  (sizeTo right, sizeTo bottom)

namespace DisplayControl

variable (d : DisplayControl)

def entry (c : LayoutChunk) : Option MonitorLayoutEntry :=
  let (w, h) := d.adjustDisplaySize (max c.w 0).toUInt32 (max c.h 0).toUInt32
  (if c.primary ≠ 0 then d.newPrimary w h else d.newSecondary w h).bind fun entry =>
    d.withPosition entry c.left c.top

def parseDcMonitorLayout (flat : List Int32) : List MonitorLayoutEntry :=
  (chunksExact flat).filterMap d.entry

end DisplayControl

/-- What `Session::apply_monitor_layout` sets, and sends to the loop. -/
structure LayoutRequest where
  desktopWidth : UInt16
  desktopHeight : UInt16
  monitors : List Int32
  deriving DecidableEq

def applyMonitorLayout (monitors : List Int32) : Option LayoutRequest :=
  if monitors = [] then none
  else
    let (cw, ch) := combinedDesktopSize (parseMonitorLayout monitors)
    some ⟨cw, ch, monitors⟩

/-- The framebuffer that the loop allocates, and the entries that it sends. -/
structure LayoutUpdate where
  image : UInt16 × UInt16
  entries : List MonitorLayoutEntry
  deriving DecidableEq

/-- The loop's `MonitorLayout` event. -/
def DisplayControl.monitorLayout (d : DisplayControl) (monitors : List Int32) :
    Option LayoutUpdate :=
  let entries := d.parseDcMonitorLayout monitors
  if entries = [] then none
  else some ⟨combinedDesktopSize (parseMonitorLayout monitors), entries⟩

/-! ## Sizes and edges -/

theorem Size.adjusted_bounds (w h : Nat) :
    200 ≤ (adjusted w h).w ∧ (adjusted w h).w ≤ 8192 ∧ (adjusted w h).w % 2 = 0 ∧
      200 ≤ (adjusted w h).h ∧ (adjusted w h).h ≤ 8192 := by
  unfold adjusted
  dsimp only
  split <;> omega

theorem Size.adjusted_eq_iff (w h : Nat) :
    adjusted w h = ⟨w, h⟩ ↔ 200 ≤ w ∧ w ≤ 8192 ∧ w % 2 = 0 ∧ 200 ≤ h ∧ h ≤ 8192 := by
  constructor
  · intro heq
    have hbounds := adjusted_bounds w h
    rw [heq] at hbounds
    exact hbounds
  · rintro ⟨hw, hw', heven, hh, hh'⟩
    unfold adjusted
    rw [Nat.min_eq_right hw', Nat.max_eq_right hw, Nat.min_eq_right hh', Nat.max_eq_right hh]
    dsimp only
    rw [if_neg (not_not.mpr heven)]

theorem Size.adjusted_adjusted (w h : Nat) :
    adjusted (adjusted w h).w (adjusted w h).h = adjusted w h := by
  rw [adjusted_eq_iff]
  exact adjusted_bounds w h

theorem toInt_max (a b : Int32) : (max a b).toInt = max a.toInt b.toInt := by
  have hmax : max a b = if a ≤ b then b else a := rfl
  rw [hmax]
  split <;> rename_i hle <;> rw [Int32.le_iff_toInt_le] at hle <;> omega

theorem toInt_min (a b : Int32) : (min a b).toInt = min a.toInt b.toInt := by
  have hmin : min a b = if a ≤ b then a else b := rfl
  rw [hmin]
  split <;> rename_i hle <;> rw [Int32.le_iff_toInt_le] at hle <;> omega

/-- `x.max(0) as u32` -/
theorem toNat_max_zero (x : Int32) : (max x 0).toUInt32.toNat = x.toInt.toNat := by
  have hzero : (0 : Int32).toInt = 0 := rfl
  have hnonneg : 0 ≤ max x 0 := by
    rw [Int32.le_iff_toInt_le, toInt_max, hzero]
    exact Int.le_max_right ..
  rw [Int32.toNat_toUInt32_of_le hnonneg]
  change (max x 0).toInt.toNat = _
  rw [toInt_max, hzero]
  omega

/-- The size that belongs to an edge within a `u16`. -/
theorem toNat_sizeTo {edge : Int32} (h : 0 ≤ edge.toInt) (h' : edge.toInt < 65535) :
    ((sizeTo edge).toNat : Int) = edge.toInt + 1 := by
  have hone : (1 : Int32).toInt = 1 := rfl
  have hmax : (65535 : Int32).toInt = 65535 := rfl
  have hnext : (edge + 1).toInt = edge.toInt + 1 := by
    rw [Int32.toInt_add, hone]
    exact Int.bmod_eq_of_le (by omega) (by omega)
  have hclamp : (max 1 (min 65535 (edge + 1)) : Int32).toInt = edge.toInt + 1 := by
    rw [toInt_max, toInt_min, hnext, hone, hmax]
    omega
  have hnonneg : 0 ≤ (max 1 (min 65535 (edge + 1)) : Int32) := by
    rw [Int32.le_iff_toInt_le, hclamp]
    exact Int.le_add_one h
  rw [sizeTo, UInt32.toNat_toUInt16, Int32.toNat_toUInt32_of_le hnonneg, ← Int32.toNat_toInt,
    hclamp]
  omega

instance instLawfulOrderMaxInt32 : Std.LawfulOrderMax Int32 where
  max_eq_or a b := by
    have hmax : max a b = if a ≤ b then b else a := rfl
    rw [hmax]
    split
    · exact .inr rfl
    · exact .inl rfl
  max_le_iff a b c := by
    rw [Int32.le_iff_toInt_le, Int32.le_iff_toInt_le, Int32.le_iff_toInt_le, toInt_max]
    exact Int.max_le

/-- The greatest of some edges. -/
theorem max?_getD {edges : List Int32} (h : edges ≠ []) :
    edges.max?.getD 0 ∈ edges ∧ ∀ edge ∈ edges, edge.toInt ≤ (edges.max?.getD 0).toInt := by
  have hsome : edges.max?.isSome := List.isSome_max?_of_ne_nil h
  obtain ⟨edge, hedge⟩ := Option.isSome_iff_exists.mp hsome
  obtain ⟨hmem, hle⟩ := List.max?_eq_some_iff.mp hedge
  rw [hedge]
  exact ⟨hmem, fun other hother => Int32.le_iff_toInt_le.mp (hle other hother)⟩

/-! ## Entries -/

namespace DisplayControl

variable {d : DisplayControl}

/-- The entry of a monitor that is not rejected. -/
def placed (d : DisplayControl) (c : LayoutChunk) : MonitorLayoutEntry where
  isPrimary := c.primary ≠ 0
  left := c.left
  top := c.top
  width := (d.adjustDisplaySize (max c.w 0).toUInt32 (max c.h 0).toUInt32).1
  height := (d.adjustDisplaySize (max c.w 0).toUInt32 (max c.h 0).toUInt32).2

/-- Only a primary monitor that is not at (0,0) is rejected. -/
theorem entry_eq (hd : d.Documented) (c : LayoutChunk) :
    d.entry c =
      if c.primary ≠ 0 ∧ ¬ (c.left = 0 ∧ c.top = 0) then none else some (d.placed c) := by
  have hadjust := hd.adjustDisplaySize (max c.w 0).toUInt32 (max c.h 0).toUInt32
  unfold entry placed
  generalize d.adjustDisplaySize (max c.w 0).toUInt32 (max c.h 0).toUInt32 = size at hadjust
  obtain ⟨w, h⟩ := size
  have hallowed : (⟨w.toNat, h.toNat⟩ : Size) = Size.adjusted w.toNat h.toNat := by
    have hagain := Size.adjusted_adjusted (max c.w 0).toUInt32.toNat (max c.h 0).toUInt32.toNat
    rw [← hadjust] at hagain
    exact hagain.symm
  dsimp only
  by_cases hprimary : c.primary = 0
  · rw [if_neg (not_not.mpr hprimary), hd.newSecondary w h hallowed, Option.bind_some,
      hd.withPosition]
    simp [hprimary]
  · rw [if_pos hprimary, hd.newPrimary w h hallowed, Option.bind_some, hd.withPosition]
    simp [hprimary]

theorem placed_size (hd : d.Documented) (c : LayoutChunk) :
    ⟨(d.placed c).width.toNat, (d.placed c).height.toNat⟩ =
      Size.adjusted c.w.toInt.toNat c.h.toInt.toNat := by
  have hadjust := hd.adjustDisplaySize (max c.w 0).toUInt32 (max c.h 0).toUInt32
  rw [toNat_max_zero, toNat_max_zero] at hadjust
  exact hadjust

/-- No monitor is skipped exactly when the primary one is at (0,0). -/
theorem length_parseDcMonitorLayout_iff (hd : d.Documented) (flat : List Int32) :
    (d.parseDcMonitorLayout flat).length = (chunksExact flat).length ↔
      ∀ c ∈ chunksExact flat, c.primary ≠ 0 → c.left = 0 ∧ c.top = 0 := by
  rw [parseDcMonitorLayout, List.filterMap_length_eq_length]
  refine forall₂_congr fun c _ => ?_
  rw [entry_eq hd]
  split
  · rename_i hrejected
    exact ⟨nofun, fun h => absurd (h hrejected.1) hrejected.2⟩
  · rename_i haccepted
    exact ⟨fun _ hprimary => not_not.mp fun hnot => haccepted ⟨hprimary, hnot⟩, fun _ => rfl⟩

/-- Where no monitor is skipped, there is an entry for each. -/
theorem parseDcMonitorLayout_eq (hd : d.Documented) {flat : List Int32}
    (h : ∀ c ∈ chunksExact flat, c.primary ≠ 0 → c.left = 0 ∧ c.top = 0) :
    d.parseDcMonitorLayout flat = (chunksExact flat).map d.placed := by
  rw [parseDcMonitorLayout, ← List.filterMap_eq_map']
  refine List.filterMap_congr fun c hc => ?_
  rw [entry_eq hd]
  exact if_neg fun hrejected => hrejected.2 (h c hc hrejected.1)

end DisplayControl

/-! ## The two readings -/

namespace MonitorLayoutEntry

def right (e : MonitorLayoutEntry) : Int := e.left.toInt + e.width.toNat

def bottom (e : MonitorLayoutEntry) : Int := e.top.toInt + e.height.toNat

/-- The entry covers the rectangle of the monitor. -/
structure Covers (e : MonitorLayoutEntry) (m : Monitor) : Prop where
  left : e.left.toInt = m.left.toInt
  top : e.top.toInt = m.top.toInt
  right : e.right = m.right.toInt + 1
  bottom : e.bottom = m.bottom.toInt + 1

end MonitorLayoutEntry

/-- The session, the framebuffer and the server have the same desktop. -/
structure SameDesktop (request : LayoutRequest) (update : LayoutUpdate) : Prop where
  width : IsGreatest {x | ∃ e ∈ update.entries, e.right = x} (update.image.1.toNat : Int)
  height : IsGreatest {x | ∃ e ∈ update.entries, e.bottom = x} (update.image.2.toNat : Int)
  desktopWidth : request.desktopWidth = update.image.1
  desktopHeight : request.desktopHeight = update.image.2
  covers : List.Forall₂ MonitorLayoutEntry.Covers update.entries
    (parseMonitorLayout request.monitors)

/-- The protocol allows the monitor's size, and a `u16` holds its far edges. -/
structure LayoutChunk.Plain (c : LayoutChunk) : Prop where
  w : 200 ≤ c.w.toInt ∧ c.w.toInt ≤ 8192 ∧ c.w.toInt % 2 = 0
  h : 200 ≤ c.h.toInt ∧ c.h.toInt ≤ 8192
  right : c.left.toInt + c.w.toInt ≤ 65535
  bottom : c.top.toInt + c.h.toInt ≤ 65535

/-- On one axis: the far edge, and the size that is sent. -/
theorem edge_eq_iff {left w : Int32} {n : Nat} (hleft : 0 ≤ left.toInt) (hn : 200 ≤ n)
    (hn' : n ≤ 8192) :
    left.toInt + n = (left + w - 1).toInt + 1 ↔
      w.toInt = n ∧ left.toInt + w.toInt ≤ 2 ^ 31 := by
  have hone : (1 : Int32).toInt = 1 := rfl
  have hwrap : (left + w - 1).toInt = (left.toInt + w.toInt - 1).bmod (2 ^ 32) := by
    rw [Int32.toInt_sub, Int32.toInt_add, hone, Int.bmod_sub_bmod]
  have hl := left.toInt_lt
  have hw := w.toInt_lt
  have hw' := w.le_toInt
  rw [hwrap, Int.bmod_def]
  split <;> omega

theorem covers_iff {d : DisplayControl} (hd : d.Documented) {c : LayoutChunk}
    (hleft : 0 ≤ c.left.toInt) (htop : 0 ≤ c.top.toInt) :
    (d.placed c).Covers c.monitor ↔
      (200 ≤ c.w.toInt ∧ c.w.toInt ≤ 8192 ∧ c.w.toInt % 2 = 0) ∧
        (200 ≤ c.h.toInt ∧ c.h.toInt ≤ 8192) ∧
        c.left.toInt + c.w.toInt ≤ 2 ^ 31 ∧ c.top.toInt + c.h.toInt ≤ 2 ^ 31 := by
  have hsize := DisplayControl.placed_size hd c
  have hbounds := Size.adjusted_bounds c.w.toInt.toNat c.h.toInt.toNat
  have hfixed := Size.adjusted_eq_iff c.w.toInt.toNat c.h.toInt.toNat
  rw [← hsize] at hbounds hfixed
  dsimp only at hbounds
  obtain ⟨hw, hw', -, hh, hh'⟩ := hbounds
  have hx := edge_eq_iff (w := c.w) hleft hw hw'
  have hy := edge_eq_iff (w := c.h) htop hh hh'
  constructor
  · rintro ⟨-, -, hright, hbottom⟩
    obtain ⟨hwidth, hright⟩ := hx.mp hright
    obtain ⟨hheight, hbottom⟩ := hy.mp hbottom
    have hsame : (⟨(d.placed c).width.toNat, (d.placed c).height.toNat⟩ : Size) =
        ⟨c.w.toInt.toNat, c.h.toInt.toNat⟩ := by
      rw [hwidth, hheight, Int.toNat_natCast, Int.toNat_natCast]
    have hallowed := hfixed.mp hsame
    omega
  · rintro ⟨hwidth, hheight, hright, hbottom⟩
    have hsame := hfixed.mpr (by omega)
    rw [Size.mk.injEq] at hsame
    exact ⟨rfl, rfl, hx.mpr ⟨by omega, hright⟩, hy.mpr ⟨by omega, hbottom⟩⟩

/-- A size that the protocol allows is sent as it is. -/
theorem placed_edges {d : DisplayControl} (hd : d.Documented) {c : LayoutChunk}
    (hw : 200 ≤ c.w.toInt ∧ c.w.toInt ≤ 8192 ∧ c.w.toInt % 2 = 0)
    (hh : 200 ≤ c.h.toInt ∧ c.h.toInt ≤ 8192) :
    (d.placed c).right = c.left.toInt + c.w.toInt ∧
      (d.placed c).bottom = c.top.toInt + c.h.toInt := by
  have hsize := DisplayControl.placed_size hd c
  rw [(Size.adjusted_eq_iff ..).mpr (by omega), Size.mk.injEq] at hsize
  rw [MonitorLayoutEntry.right, MonitorLayoutEntry.bottom, hsize.1, hsize.2,
    Int.toNat_of_nonneg (by omega), Int.toNat_of_nonneg (by omega)]
  exact ⟨rfl, rfl⟩

/-- The greatest of some sizes, from the greatest of their edges. -/
theorem isGreatest_sizeTo {chunks : List LayoutChunk} (hne : chunks ≠ [])
    {edge : LayoutChunk → Int32} {size : LayoutChunk → Int}
    (hsize : ∀ c ∈ chunks, size c = (edge c).toInt + 1)
    (hpos : ∀ c ∈ chunks, 0 < size c) (hle : ∀ c ∈ chunks, size c ≤ 65535) :
    IsGreatest {x | ∃ c ∈ chunks, size c = x}
      ((sizeTo ((chunks.map edge).max?.getD 0)).toNat : Int) := by
  have hedges : chunks.map edge ≠ [] := fun hnil => hne (List.map_eq_nil_iff.mp hnil)
  obtain ⟨hmem, hgreatest⟩ := max?_getD hedges
  obtain ⟨c, hc, hedge⟩ := List.mem_map.mp hmem
  have hsize_c := hsize c hc
  have hpos_c := hpos c hc
  have hle_c := hle c hc
  rw [← hedge] at hgreatest ⊢
  rw [toNat_sizeTo (by omega) (by omega), ← hsize_c]
  refine ⟨⟨c, hc, rfl⟩, ?_⟩
  rintro x ⟨other, hother, rfl⟩
  have hother_le := hgreatest _ (List.mem_map_of_mem hother)
  rw [hsize other hother, hsize_c]
  exact Int.add_le_add_right hother_le 1

/-- The monitors of a layout with non-negative origins. -/
def FromOrigin (chunks : List LayoutChunk) : Prop :=
  ∀ c ∈ chunks, 0 ≤ c.left.toInt ∧ 0 ≤ c.top.toInt

section

variable {d : DisplayControl} {chunks : List LayoutChunk}

theorem covers_of_plain (hd : d.Documented) (horigin : FromOrigin chunks)
    (h : ∀ c ∈ chunks, c.Plain) : ∀ c ∈ chunks, (d.placed c).Covers c.monitor := by
  intro c hc
  obtain ⟨hw, hh, hright, hbottom⟩ := h c hc
  obtain ⟨hleft, htop⟩ := horigin c hc
  exact (covers_iff hd hleft htop).mpr ⟨hw, hh, by omega, by omega⟩

/-- The bounding box of plain monitors is the combined desktop. -/
theorem isGreatest_combined (hd : d.Documented) (hne : chunks ≠ []) (horigin : FromOrigin chunks)
    (h : ∀ c ∈ chunks, c.Plain) :
    IsGreatest {x | ∃ e ∈ chunks.map d.placed, e.right = x}
        ((combinedDesktopSize (chunks.map LayoutChunk.monitor)).1.toNat : Int) ∧
      IsGreatest {x | ∃ e ∈ chunks.map d.placed, e.bottom = x}
        ((combinedDesktopSize (chunks.map LayoutChunk.monitor)).2.toNat : Int) := by
  have hcovers := covers_of_plain hd horigin h
  have hedges : ∀ c ∈ chunks,
      (0 < (d.placed c).right ∧ (d.placed c).right ≤ 65535) ∧
        0 < (d.placed c).bottom ∧ (d.placed c).bottom ≤ 65535 := by
    intro c hc
    obtain ⟨hw, hh, hright, hbottom⟩ := h c hc
    obtain ⟨hleft, htop⟩ := horigin c hc
    obtain ⟨hright', hbottom'⟩ := placed_edges hd hw hh
    omega
  have hwidth := isGreatest_sizeTo hne (fun c hc => (hcovers c hc).right)
    (fun c hc => (hedges c hc).1.1) (fun c hc => (hedges c hc).1.2)
  have hheight := isGreatest_sizeTo hne (fun c hc => (hcovers c hc).bottom)
    (fun c hc => (hedges c hc).2.1) (fun c hc => (hedges c hc).2.2)
  have hmap : ∀ f : MonitorLayoutEntry → Int, {x | ∃ e ∈ chunks.map d.placed, f e = x} =
      {x | ∃ c ∈ chunks, f (d.placed c) = x} := by
    intro f
    ext x
    simp
  rw [hmap, hmap, combinedDesktopSize, List.map_map, List.map_map]
  exact ⟨hwidth, hheight⟩

end

/-- Session, framebuffer and server have the same desktop exactly where every
monitor is plain. -/
theorem sameDesktop_iff {d : DisplayControl} (hd : d.Documented) {monitors : List Int32}
    {request : LayoutRequest} {update : LayoutUpdate}
    (hrequest : applyMonitorLayout monitors = some request)
    (hupdate : d.monitorLayout request.monitors = some update)
    (horigin : FromOrigin (chunksExact monitors))
    (haccepted : update.entries.length = (parseMonitorLayout monitors).length) :
    SameDesktop request update ↔ ∀ c ∈ chunksExact monitors, c.Plain := by
  unfold applyMonitorLayout at hrequest
  split at hrequest
  · cases hrequest
  obtain rfl := Option.some.inj hrequest
  unfold DisplayControl.monitorLayout at hupdate
  dsimp only at hupdate
  split at hupdate
  · cases hupdate
  rename_i hentries
  obtain rfl := Option.some.inj hupdate
  have hplaced : d.parseDcMonitorLayout monitors = (chunksExact monitors).map d.placed := by
    rw [parseMonitorLayout, List.length_map] at haccepted
    exact DisplayControl.parseDcMonitorLayout_eq hd
      ((DisplayControl.length_parseDcMonitorLayout_iff hd monitors).mp haccepted)
  have hne : chunksExact monitors ≠ [] := by
    intro hnil
    rw [hplaced, hnil] at hentries
    exact hentries rfl
  have hcovers : List.Forall₂ MonitorLayoutEntry.Covers (d.parseDcMonitorLayout monitors)
      (parseMonitorLayout monitors) ↔
        ∀ c ∈ chunksExact monitors, (d.placed c).Covers c.monitor := by
    rw [hplaced, parseMonitorLayout, List.forall₂_map_left_iff, List.forall₂_map_right_iff,
      List.forall₂_same]
  constructor
  · intro h c hc
    obtain ⟨hleft, htop⟩ := horigin c hc
    obtain ⟨hw, hh, -, -⟩ := (covers_iff hd hleft htop).mp (hcovers.mp h.covers c hc)
    obtain ⟨hright, hbottom⟩ := placed_edges hd hw hh
    have hentry : d.placed c ∈ d.parseDcMonitorLayout monitors := by
      rw [hplaced]
      exact List.mem_map_of_mem hc
    -- the far edges are below a `u16`
    have hwidth := h.width.2 ⟨_, hentry, hright⟩
    have hheight := h.height.2 ⟨_, hentry, hbottom⟩
    dsimp only at hwidth hheight
    have hwidth' := (combinedDesktopSize (parseMonitorLayout monitors)).1.toNat_lt
    have hheight' := (combinedDesktopSize (parseMonitorLayout monitors)).2.toNat_lt
    exact ⟨hw, hh, by omega, by omega⟩
  · intro h
    obtain ⟨hwidth, hheight⟩ := isGreatest_combined hd hne horigin h
    rw [← hplaced] at hwidth hheight
    exact ⟨hwidth, hheight, rfl, rfl, hcovers.mpr (covers_of_plain hd horigin h)⟩

/-- The protocol type as it is documented. -/
def DisplayControl.protocol : DisplayControl where
  adjustDisplaySize w h :=
    let size := Size.adjusted w.toNat h.toNat
    (.ofNat size.w, .ofNat size.h)
  newPrimary w h :=
    if ⟨w.toNat, h.toNat⟩ = Size.adjusted w.toNat h.toNat then some ⟨true, 0, 0, w, h⟩ else none
  newSecondary w h :=
    if ⟨w.toNat, h.toNat⟩ = Size.adjusted w.toNat h.toNat then some ⟨false, 0, 0, w, h⟩ else none
  withPosition e left top :=
    if e.isPrimary = true ∧ ¬ (left = 0 ∧ top = 0) then none else some { e with left, top }

theorem DisplayControl.documented_protocol : protocol.Documented where
  adjustDisplaySize w h := by
    obtain ⟨-, hw, -, -, hh⟩ := Size.adjusted_bounds w.toNat h.toNat
    change (⟨(UInt32.ofNat _).toNat, (UInt32.ofNat _).toNat⟩ : Size) = _
    rw [UInt32.toNat_ofNat_of_lt' (hw.trans_lt (by decide)),
      UInt32.toNat_ofNat_of_lt' (hh.trans_lt (by decide))]
  newPrimary w h hallowed := if_pos hallowed
  newSecondary w h hallowed := if_pos hallowed
  withPosition e left top := rfl

/-- Two screens side by side. -/
theorem sameDesktop_iff_sideBySide :
    SameDesktop ⟨3200, 1080, [0, 0, 1920, 1080, 1, 1920, 0, 1280, 1024, 0]⟩
        ⟨(3200, 1080), [⟨true, 0, 0, 1920, 1080⟩, ⟨false, 1920, 0, 1280, 1024⟩]⟩ ↔
      ∀ c ∈ chunksExact [0, 0, 1920, 1080, 1, 1920, 0, 1280, 1024, 0], c.Plain :=
  sameDesktop_iff DisplayControl.documented_protocol (by decide +kernel) (by decide +kernel)
    (by simp [FromOrigin, chunksExact]) rfl

/-- The second screen's width is odd. -/
def oddWidth : List Int32 := [0, 0, 1920, 1080, 1, 1920, 0, 1367, 768, 0]

/-- The server's desktop is one column narrower than the framebuffer. -/
theorem not_sameDesktop : ¬ ∀ (d : DisplayControl), d.Documented →
    ∀ (monitors : List Int32) (request : LayoutRequest) (update : LayoutUpdate),
      applyMonitorLayout monitors = some request →
      d.monitorLayout request.monitors = some update →
      FromOrigin (chunksExact monitors) →
      update.entries.length = (parseMonitorLayout monitors).length →
        SameDesktop request update := by
  intro h
  have hsame := h .protocol DisplayControl.documented_protocol oddWidth
    ⟨3287, 1080, oddWidth⟩
    ⟨(3287, 1080), [⟨true, 0, 0, 1920, 1080⟩, ⟨false, 1920, 0, 1366, 768⟩]⟩
    (by decide +kernel) (by decide +kernel) (by simp [FromOrigin, oddWidth, chunksExact]) rfl
  obtain ⟨e, he, hright⟩ := hsame.width.1
  rw [List.mem_pair] at he
  obtain rfl | rfl := he <;> cases hright

end WasmRdp
