import WasmRdp.Canvas
import WasmRdp.Keyboard
import WasmRdp.Lib.InsertionMap
import WasmRdp.RailWindow

/-!
# The window manager of remote applications

`wasm/src/rail.rs` and the RemoteApp part of `web/app.js`: every top-level
window of a remote application is a canvas of its own on the page, placed
where the server has the window and painted through a surface of the session.

`parse` gives the events, `dispatchWindowEvents` hands each to its callback,
and the callbacks keep the map `windows` and redeclare the surfaces. A number
of the script is an `Int`: every value here comes from 32 bits of the wire,
and the differences of two stay exact in a double.

The map keeps the order of insertion, which the script iterates in when it
rebuilds the surfaces and when it stacks the windows. A window has two
elements, its canvas and its button in the taskbar, with what the callbacks
write to them. `RailWindowCall` has the arguments of `__rdp_rail_window`: a
flag beside each pair of numbers that may be missing, and the visible
rectangles as one flat array.

The lemmas at the end are what other modules need to know of an event. What is
shown of a window depends on six of its fields (`Frame`), which
`frameOf_dispatchEvent` follows through every callback, and which windows there
are is said by `mem_keys_dispatchEvent`.

What is left out of the page: the taskbar's own showing and hiding, the
event listeners, and the re-blit of mapped EGFX surfaces in `repaint`, which
is the `blit_rects` of the graphics channel.
-/

namespace WasmRdp

/-! ## The session -/

def SW_HIDE : Int := 0
def SW_SHOWMINIMIZED : Int := 2
def SC_MAXIMIZE : UInt16 := 0xF030

/-- What the page sends to the session loop; a key is the call that sends it. -/
inductive InputEvent where
  | key (stroke : KeyStroke)
  | railActivate (windowId : UInt32) (enabled : Bool)
  | railSysCommand (windowId : UInt32) (command : UInt16)
  | repaint
  | terminate
  deriving DecidableEq

/-- The canvas elements of the page. -/
inductive Element where
  | desktop
  | window (id : UInt32)
  deriving DecidableEq

structure RenderSurface where
  element : Element
  canvas : Canvas

/-- `Session`: which of the page's sessions it is, its render surfaces, and
the events in its input queue. -/
structure Session where
  number : Nat
  surfaces : List RenderSurface
  inputs : List InputEvent

/-- A number of the script where a `u16` is expected. -/
def toU16 (n : Int) : UInt16 := UInt16.ofNat (n % 65536).toNat

/-- `Canvas::from_element`. Setting the element's size clears it. -/
def Canvas.fromElement (originX originY width height : UInt16) : Canvas :=
  { originX, originY, width, height, rgbaBuf := [], pixels := fun _ _ => ⟨0, 0, 0, 0⟩ }

namespace Session

def send (s : Session) (e : InputEvent) : Session := { s with inputs := s.inputs ++ [e] }

def clearSurfaces (s : Session) : Session := { s with surfaces := [] }

def addSurface (s : Session) (element : Element)
    (originX originY width height : UInt16) : Session :=
  { s with surfaces :=
      s.surfaces ++ [⟨element, Canvas.fromElement originX originY width height⟩] }

def repaint (s : Session) : Session := s.send .repaint

def railActivate (s : Session) (windowId : UInt32) : Session :=
  s.send (.railActivate windowId true)

def railSysCommand (s : Session) (windowId : UInt32) (command : UInt16) : Session :=
  s.send (.railSysCommand windowId command)

def sendKeyboard (s : Session) (strokes : List KeyStroke) : Session :=
  { s with inputs := s.inputs ++ strokes.map .key }

end Session

/-! ## Windows -/

/-- `polygon(l t, r t, r b, l b)`, in pixels of the canvas. -/
structure ClipPath where
  left : Int
  top : Int
  right : Int
  bottom : Int
  deriving DecidableEq

/-- The inside of the polygon. It is the same box when a right edge lies left
of its left edge. -/
def ClipPath.Shows (c : ClipPath) (i j : Int) : Prop :=
  (min c.left c.right ≤ i ∧ i < max c.left c.right) ∧
    (min c.top c.bottom ≤ j ∧ j < max c.top c.bottom)

instance (c : ClipPath) (i j : Int) : Decidable (c.Shows i j) :=
  inferInstanceAs (Decidable (_ ∧ _))

structure RailIconImage where
  width : UInt16
  height : UInt16
  rgba : List UInt8
  deriving DecidableEq

/-- The button of a window in the taskbar. -/
structure TaskButton where
  icon : Option RailIconImage
  label : String
  active : Bool
  minimized : Bool
  deriving DecidableEq

/-- An entry of `railWindows`, with the state of its two elements. -/
structure RailWin where
  x : Int
  y : Int
  w : Int
  h : Int
  hidden : Bool
  withdrawn : Bool
  translate : Int × Int
  rdpOffset : Int × Int
  clipPath : Option ClipPath
  title : String
  taskBtn : Option TaskButton
  iconUrl : Option RailIconImage
  zIndex : Option Nat

/-- The arguments of `__rdp_rail_window`. -/
structure RailWindowCall where
  id : UInt32
  isNew : Bool
  hasPos : Bool
  x : Int
  y : Int
  hasSize : Bool
  w : Int
  h : Int
  showState : Int
  title : Option String
  visRects : List Int

namespace RailWin

def create : RailWin where
  x := 0
  y := 0
  w := 0
  h := 0
  hidden := false
  withdrawn := false
  translate := (0, 0)
  rdpOffset := (0, 0)
  clipPath := none
  title := ""
  taskBtn := none
  iconUrl := none
  zIndex := none

/-- `railOnScreen`. -/
def onScreen (w : RailWin) : Bool := !w.withdrawn && 0 < w.w && 0 < w.h

def setPos (win : RailWin) (c : RailWindowCall) : RailWin × Bool :=
  if c.hasPos ∧ (win.x ≠ c.x ∨ win.y ≠ c.y) then
    ({ win with x := c.x, y := c.y, translate := (c.x, c.y), rdpOffset := (c.x, c.y) }, true)
  else (win, false)

def setSize (win : RailWin) (c : RailWindowCall) : RailWin × Bool :=
  if c.hasSize ∧ (win.w ≠ c.w ∨ win.h ≠ c.h) then
    ({ win with w := c.w, h := c.h, rdpOffset := (win.x, win.y) }, true)
  else (win, false)

def setShow (win : RailWin) (c : RailWindowCall) : RailWin × Bool :=
  if c.showState = -1 then (win, false)
  else
    let win := { win with withdrawn := c.showState = SW_HIDE }
    let nowHidden : Bool := c.showState = SW_HIDE ∨ c.showState = SW_SHOWMINIMIZED
    if nowHidden = win.hidden then (win, false)
    else
      ({ win with
          hidden := nowHidden
          taskBtn := win.taskBtn.map fun b => { b with minimized := nowHidden } }, true)

/-- The first four numbers make the polygon; fewer than eight leave the clip
that is there. -/
def setClip (win : RailWin) (c : RailWindowCall) : RailWin :=
  match c.visRects with
  | l :: t :: r :: b :: rest =>
      if 4 ≤ rest.length then
        { win with clipPath := some ⟨l - win.x, t - win.y, r - win.x, b - win.y⟩ }
      else win
  | _ => win

/-- `railTaskbarUpsert`. -/
def taskbarUpsert (win : RailWin) (title : Option String) : RailWin :=
  let label := title.getD ""
  match win.taskBtn with
  | none =>
      if label = "" then win
      else { win with taskBtn := some ⟨win.iconUrl, label, false, false⟩ }
  | some btn => if label = "" then win else { win with taskBtn := some { btn with label } }

/-- What `__rdp_rail_window` does to its window, and whether that changed the
set of surfaces or their place. -/
def update (win : RailWin) (c : RailWindowCall) : RailWin × Bool :=
  let (win, moved) := win.setPos c
  let (win, sized) := win.setSize c
  let win := if c.isNew then { win with translate := (win.x, win.y) } else win
  let (win, shown) := win.setShow c
  let win := win.setClip c
  let win := { win with title := c.title.getD win.title }
  (win.taskbarUpsert c.title, moved || sized || shown)

end RailWin

/-! ## The manager -/

structure RailManager where
  /-- More than one application is published: nothing is maximized. -/
  windowedMode : Bool
  windows : InsertionMap UInt32 RailWin
  maximizedFirst : Bool
  hadAppWindow : Bool
  activeId : Option UInt32
  /-- `railExitTimer` runs. -/
  exitTimer : Bool
  inUse : Bool
  session : Option Session

namespace RailManager

/-- One turn of the loop of `rebuildRailSurfaces`. -/
def declareSurface (s : Session) (entry : UInt32 × RailWin) : Session :=
  let w := entry.2
  if w.hidden then s
  else s.addSurface (.window entry.1) (toU16 w.x) (toU16 w.y) (toU16 w.w) (toU16 w.h)

def rebuildSurfaces (m : RailManager) : RailManager :=
  { m with session := m.session.map fun s =>
      (m.windows.entries.foldl declareSurface s.clearSurfaces).repaint }

def scheduleExitCheck (m : RailManager) : RailManager := { m with exitTimer := true }

/-- `maximizeFirstRailWindow`. -/
def maximizeFirst (m : RailManager) (id : UInt32) : RailManager :=
  if m.windowedMode then m
  else match m.windows.get id, m.session with
    | some win, some s =>
        if m.maximizedFirst || !win.onScreen then m
        else
          { m with
            maximizedFirst := true
            session := some ((s.railActivate id).railSysCommand id SC_MAXIMIZE) }
    | _, _ => m

/-- `__rdp_rail_window`. -/
def railWindow (m : RailManager) (c : RailWindowCall) : RailManager :=
  let isAbsent := (m.windows.get c.id).isNone
  let (win, changed) := ((m.windows.get c.id).getD .create).update c
  let m := { m with windows := m.windows.set c.id win }
  let m :=
    if win.onScreen then
      let m := { m with hadAppWindow := true, exitTimer := false }
      if m.activeId = some c.id then m.maximizeFirst c.id else m
    else m.scheduleExitCheck
  if isAbsent || changed then m.rebuildSurfaces else m

/-- `__rdp_rail_window_deleted`. -/
def railWindowDeleted (m : RailManager) (id : UInt32) : RailManager :=
  match m.windows.get id with
  | none => m
  | some _ => { m with windows := m.windows.delete id }.rebuildSurfaces.scheduleExitCheck

/-- `railTaskbarSetActive`. -/
def taskbarSetActive (m : RailManager) (id : UInt32) : RailManager :=
  { m with windows := m.windows.mapWithKey fun wid w =>
      { w with taskBtn := w.taskBtn.map fun b => { b with active := wid = id } } }

/-- `__rdp_rail_active`. -/
def railActive (m : RailManager) (id : UInt32) : RailManager :=
  ({ m with activeId := some id }.maximizeFirst id).taskbarSetActive id

/-- `__rdp_rail_icon`. `ImageData` refuses other than `width * height`
pixels, and no pixels. -/
def railIcon (m : RailManager) (id : UInt32) (width height : UInt16)
    (rgba : List UInt8) : RailManager :=
  if rgba ≠ [] ∧ rgba.length = width.toNat * height.toNat * 4 then
    let image : RailIconImage := ⟨width, height, rgba⟩
    { m with windows := m.windows.mapWithKey fun wid w =>
        if wid = id then
          { w with
            iconUrl := some image
            taskBtn := w.taskBtn.map fun b => { b with icon := some image } }
        else w }
  else m

/-- `__rdp_rail_zorder`. -/
def railZOrder (m : RailManager) (ids : List UInt32) : RailManager :=
  let raise (windows : InsertionMap UInt32 RailWin) (p : UInt32 × Nat) :=
    windows.mapWithKey fun wid w =>
      if wid = p.1 then { w with zIndex := some (1000 + (ids.length - p.2)) } else w
  { m with windows := ids.zipIdx.foldl raise m.windows }

/-- `teardownRailWindows`. -/
def teardown (m : RailManager) : RailManager :=
  { m with
    windows := .empty
    maximizedFirst := false
    hadAppWindow := false
    activeId := none
    exitTimer := false
    inUse := false }

/-! ## From the wire -/

/-- A rectangle as four numbers of the flat array. -/
def edges (r : Rect) : List Int :=
  [r.left.toNat, r.top.toNat, r.right.toNat, r.bottom.toNat]

/-- The call that a create or update order makes. -/
def callOf (w : WindowInfo) : RailWindowCall where
  id := w.windowId
  isNew := w.isNew
  hasPos := w.x.isSome
  x := (w.x.getD 0).toInt
  y := (w.y.getD 0).toInt
  hasSize := w.width.isSome
  w := (w.width.getD 0).toInt32.toInt
  h := (w.height.getD 0).toInt32.toInt
  showState := w.showState.elim (-1) fun v => v.toNat
  title := w.title
  visRects := (w.visibilityRects.getD []).flatMap edges

/-- One turn of the loop of `dispatch_window_events`. -/
def dispatchEvent (m : RailManager) : WindowEvent → RailManager
  | .newOrUpdate w => m.railWindow (callOf w)
  | .deleted id => m.railWindowDeleted id
  | .icon id width height rgba => m.railIcon id width height rgba
  | .zOrder ids => m.railZOrder ids
  | .activeWindow id => m.railActive id

def dispatchWindowEvents (m : RailManager) (data : List UInt8) :
    Slices.Checked RailManager := do
  let events ← parse data
  return events.foldl dispatchEvent m

end RailManager

/-! ## Frames

What is shown of a window depends on six of its fields, and only two of the
callbacks touch them. -/

/-- Where a window is and what of it is shown. -/
structure Frame where
  x : Int
  y : Int
  w : Int
  h : Int
  hidden : Bool
  clipPath : Option ClipPath
  deriving DecidableEq

def RailWin.frame (win : RailWin) : Frame where
  x := win.x
  y := win.y
  w := win.w
  h := win.h
  hidden := win.hidden
  clipPath := win.clipPath

/-- The clip after a call for a window at `(x, y)`. -/
def clipOf (visRects : List Int) (x y : Int) (old : Option ClipPath) : Option ClipPath :=
  match visRects with
  | l :: t :: r :: b :: rest =>
      if 4 ≤ rest.length then some ⟨l - x, t - y, r - x, b - y⟩ else old
  | _ => old

theorem clipOf_edges (first : Rect) {rest : List Int} (hrest : 4 ≤ rest.length)
    (x y : Int) (old : Option ClipPath) :
    clipOf (RailManager.edges first ++ rest) x y old = some
      ⟨first.left.toNat - x, first.top.toNat - y,
        first.right.toNat - x, first.bottom.toNat - y⟩ := by
  rw [RailManager.edges]
  simp only [clipOf, List.cons_append, List.nil_append, hrest, if_true]

namespace Frame

/-- The frame of a new window. -/
def create : Frame := RailWin.create.frame

def update (f : Frame) (c : RailWindowCall) : Frame :=
  let x := if c.hasPos then c.x else f.x
  let y := if c.hasPos then c.y else f.y
  { x
    y
    w := if c.hasSize then c.w else f.w
    h := if c.hasSize then c.h else f.h
    hidden :=
      if c.showState = -1 then f.hidden
      else c.showState = SW_HIDE ∨ c.showState = SW_SHOWMINIMIZED
    clipPath := clipOf c.visRects x y f.clipPath }

end Frame

namespace RailWin

theorem frame_setPos (win : RailWin) (c : RailWindowCall) :
    (win.setPos c).1.frame = { win.frame with
      x := if c.hasPos then c.x else win.frame.x
      y := if c.hasPos then c.y else win.frame.y } := by
  unfold setPos
  split
  · rename_i h
    simp [frame, h.1]
  · rename_i h
    by_cases hpos : c.hasPos
    · simp_all [frame]
    · simp [frame, hpos]

theorem frame_setSize (win : RailWin) (c : RailWindowCall) :
    (win.setSize c).1.frame = { win.frame with
      w := if c.hasSize then c.w else win.frame.w
      h := if c.hasSize then c.h else win.frame.h } := by
  unfold setSize
  split
  · rename_i h
    simp [frame, h.1]
  · rename_i h
    by_cases hsize : c.hasSize
    · simp_all [frame]
    · simp [frame, hsize]

theorem frame_setShow (win : RailWin) (c : RailWindowCall) :
    (win.setShow c).1.frame = { win.frame with
      hidden :=
        if c.showState = -1 then win.frame.hidden
        else c.showState = SW_HIDE ∨ c.showState = SW_SHOWMINIMIZED } := by
  unfold setShow
  split
  · rfl
  · dsimp only
    split
    · rename_i hsame
      simp [frame, ← hsame]
    · rfl

theorem frame_setClip (win : RailWin) (c : RailWindowCall) :
    (win.setClip c).frame = { win.frame with
      clipPath := clipOf c.visRects win.frame.x win.frame.y win.frame.clipPath } := by
  unfold setClip clipOf
  split
  · split <;> rfl
  · rfl

theorem frame_taskbarUpsert (win : RailWin) (title : Option String) :
    (win.taskbarUpsert title).frame = win.frame := by
  unfold taskbarUpsert
  dsimp only
  split <;> split <;> rfl

/-- A call changes the frame of its window by the frame's own fields. -/
theorem frame_update (win : RailWin) (c : RailWindowCall) :
    (win.update c).1.frame = win.frame.update c := by
  let sized := ((win.setPos c).1.setSize c).1
  let renewed := if c.isNew then { sized with translate := (sized.x, sized.y) } else sized
  have hrenewed : renewed.frame = sized.frame := by
    unfold renewed
    split <;> rfl
  let clipped := (renewed.setShow c).1.setClip c
  change ({ clipped with title := c.title.getD clipped.title }.taskbarUpsert c.title).frame = _
  rw [frame_taskbarUpsert]
  change clipped.frame = _
  rw [frame_setClip, frame_setShow, hrenewed, frame_setSize, frame_setPos]
  rfl

end RailWin

namespace RailManager

def frameOf (m : RailManager) (id : UInt32) : Option Frame :=
  (m.windows.get id).map RailWin.frame

@[simp] theorem windows_rebuildSurfaces (m : RailManager) :
    m.rebuildSurfaces.windows = m.windows := rfl

@[simp] theorem windows_scheduleExitCheck (m : RailManager) :
    m.scheduleExitCheck.windows = m.windows := rfl

@[simp] theorem windows_maximizeFirst (m : RailManager) (id : UInt32) :
    (m.maximizeFirst id).windows = m.windows := by
  unfold maximizeFirst
  split
  · rfl
  · split
    · split <;> rfl
    · rfl

theorem windows_railWindow (m : RailManager) (c : RailWindowCall) :
    (m.railWindow c).windows =
      m.windows.set c.id (((m.windows.get c.id).getD .create).update c).1 := by
  unfold railWindow
  dsimp only
  split <;> split
  · split <;> simp
  · simp
  · split <;> simp
  · simp

theorem frameOf_railWindow (m : RailManager) (c : RailWindowCall) (k : UInt32) :
    (m.railWindow c).frameOf k =
      if k = c.id then some (((m.frameOf c.id).getD .create).update c)
      else m.frameOf k := by
  rw [frameOf, windows_railWindow, InsertionMap.get_set]
  split
  · rw [Option.map_some, RailWin.frame_update, frameOf, Frame.create, Option.getD_map]
  · rfl

theorem windows_railWindowDeleted (m : RailManager) (id : UInt32) :
    (m.railWindowDeleted id).windows = m.windows.delete id ∨
      m.windows.get id = none ∧ m.railWindowDeleted id = m := by
  unfold railWindowDeleted
  split
  · exact .inr ⟨‹_›, rfl⟩
  · exact .inl rfl

theorem frameOf_railWindowDeleted (m : RailManager) (id k : UInt32) :
    (m.railWindowDeleted id).frameOf k = if k = id then none else m.frameOf k := by
  rcases m.windows_railWindowDeleted id with h | ⟨hnone, h⟩
  · rw [frameOf, h, InsertionMap.get_delete]
    split <;> rfl
  · rw [h]
    split
    · rename_i hk
      rw [hk, frameOf, hnone]
      rfl
    · rfl

/-- A change of every window that leaves the frames alone. -/
theorem frameOf_mapWithKey (windows : InsertionMap UInt32 RailWin)
    {f : UInt32 → RailWin → RailWin} (hf : ∀ k w, (f k w).frame = w.frame) (k : UInt32) :
    ((windows.mapWithKey f).get k).map RailWin.frame = (windows.get k).map RailWin.frame := by
  rw [InsertionMap.get_mapWithKey, Option.map_map]
  congr 1
  exact funext fun w => hf k w

theorem frameOf_railIcon (m : RailManager) (id : UInt32) (width height : UInt16)
    (rgba : List UInt8) (k : UInt32) :
    (m.railIcon id width height rgba).frameOf k = m.frameOf k := by
  unfold railIcon
  split
  · refine frameOf_mapWithKey m.windows (fun wid w => ?_) k
    split <;> rfl
  · rfl

theorem frameOf_railZOrder (m : RailManager) (ids : List UInt32) (k : UInt32) :
    (m.railZOrder ids).frameOf k = m.frameOf k := by
  unfold railZOrder
  dsimp only [frameOf]
  generalize ids.zipIdx = ps
  generalize m.windows = windows
  induction ps generalizing windows with
  | nil => rfl
  | cons p ps ih =>
      rw [List.foldl_cons, ih]
      refine frameOf_mapWithKey windows (fun wid w => ?_) k
      split <;> rfl

theorem frameOf_railActive (m : RailManager) (id k : UInt32) :
    (m.railActive id).frameOf k = m.frameOf k := by
  have hwindows : ({ m with activeId := some id }.maximizeFirst id).windows = m.windows :=
    windows_maximizeFirst _ id
  change ((InsertionMap.mapWithKey _ (maximizeFirst _ id).windows).get k).map _ = _
  rw [hwindows]
  refine frameOf_mapWithKey m.windows ?_ k
  exact fun _ _ => rfl

/-- What one event does to the frames. -/
theorem frameOf_dispatchEvent (m : RailManager) (e : WindowEvent) (k : UInt32) :
    (m.dispatchEvent e).frameOf k =
      match e with
      | .newOrUpdate info =>
          if k = info.windowId then
            some (((m.frameOf info.windowId).getD .create).update (callOf info))
          else m.frameOf k
      | .deleted id => if k = id then none else m.frameOf k
      | _ => m.frameOf k := by
  cases e with
  | newOrUpdate info => exact m.frameOf_railWindow (callOf info) k
  | deleted id => exact m.frameOf_railWindowDeleted id k
  | zOrder ids => exact m.frameOf_railZOrder ids k
  | activeWindow id => exact m.frameOf_railActive id k
  | icon id width height rgba => exact m.frameOf_railIcon id width height rgba k

theorem mem_keys_windows (m : RailManager) (k : UInt32) :
    k ∈ m.windows.keys ↔ ∃ f, m.frameOf k = some f := by
  rw [InsertionMap.mem_keys, frameOf]
  simp only [Option.map_eq_some_iff, exists_comm (α := Frame), exists_and_left, exists_eq',
    and_true]

/-- What one event does to the set of windows. -/
theorem mem_keys_dispatchEvent (m : RailManager) (e : WindowEvent) (k : UInt32) :
    k ∈ (m.dispatchEvent e).windows.keys ↔
      match e with
      | .newOrUpdate info => k = info.windowId ∨ k ∈ m.windows.keys
      | .deleted id => k ≠ id ∧ k ∈ m.windows.keys
      | _ => k ∈ m.windows.keys := by
  rw [mem_keys_windows, frameOf_dispatchEvent]
  cases e with
  | newOrUpdate info =>
      dsimp only
      rw [mem_keys_windows]
      split <;> simp_all
  | deleted id =>
      dsimp only
      rw [mem_keys_windows]
      split <;> simp_all
  | zOrder ids => exact (m.mem_keys_windows k).symm
  | activeWindow id => exact (m.mem_keys_windows k).symm
  | icon id width height rgba => exact (m.mem_keys_windows k).symm

theorem session_maximizeFirst {m : RailManager} (hs : m.session = none) (id : UInt32) :
    (m.maximizeFirst id).session = none := by
  unfold maximizeFirst
  rw [hs]
  split
  · exact hs
  · split
    · rename_i h
      cases h
    · exact hs

/-- No event makes a session. -/
theorem session_dispatchEvent {m : RailManager} (hs : m.session = none) (e : WindowEvent) :
    (m.dispatchEvent e).session = none := by
  have hrebuilt : ∀ {m : RailManager}, m.session = none → m.rebuildSurfaces.session = none := by
    intro m hs
    rw [rebuildSurfaces, hs]
    rfl
  cases e with
  | newOrUpdate info =>
      rw [dispatchEvent, railWindow]
      dsimp only
      generalize hq : (if RailWin.onScreen _ = true then _ else _ : RailManager) = q
      have hqs : q.session = none := by
        rw [← hq]
        split
        · split
          · apply session_maximizeFirst
            exact hs
          · exact hs
        · exact hs
      split
      · exact hrebuilt hqs
      · exact hqs
  | deleted id =>
      rw [dispatchEvent, railWindowDeleted]
      split
      · exact hs
      · rw [scheduleExitCheck]
        exact hrebuilt hs
  | zOrder ids => exact hs
  | activeWindow id =>
      have hmax : ({ m with activeId := some id }.maximizeFirst id).session = none := by
        apply session_maximizeFirst
        exact hs
      exact hmax
  | icon id width height rgba =>
      rw [dispatchEvent, railIcon]
      split <;> exact hs

end RailManager

end WasmRdp
