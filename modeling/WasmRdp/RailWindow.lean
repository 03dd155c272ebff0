import WasmRdp.Lib.ByteReader
import WasmRdp.Lib.Flags
import WasmRdp.Lib.Slices
import WasmRdp.Lib.Utf16

/-!
# Window orders

`crates/ironrdp-rail/src/window.rs`: the parser of the window information
orders of a remote application session, and the decoder of their icons.

The reader of the source is a `Cursor` over the whole payload: an order is
not cut out of it, and `parse` only sets the position to the end that
`orderSize` announces when it is done with one. What a parser of the body
leaves in the cursor is therefore never looked at, and it returns its
events alone.

Reads that can fail are in the monad `Read`, which keeps the cursor where the
failure was, as the source does: an icon that breaks off in its middle has
moved the cursor, a number that is not there has not. Where the source could
panic, in the loops of `decode_icon` and in its slices, the computation is
`Checked`.

The optional fields of a window are one definition, `field`, applied to each
flag in the order of the source. Where the source reads a field and drops it
(the two cache numbers of an icon, the fields that are skipped) it is read
here as well, since the fields behind it depend on that.
-/

namespace WasmRdp

open ByteReader Flags Slices

/-! ## Constants -/

def ORDER_STANDARD : UInt8 := 0x01
def ORDER_TYPE_WINDOW : UInt8 := 0x0B
def ORDER_TYPE_FRAME_MARKER : UInt8 := 0x0D

def WINDOW_ORDER_TYPE_WINDOW : UInt32 := 0x01000000
def WINDOW_ORDER_TYPE_NOTIFY : UInt32 := 0x02000000
def WINDOW_ORDER_TYPE_DESKTOP : UInt32 := 0x04000000
def WINDOW_ORDER_STATE_NEW : UInt32 := 0x10000000
def WINDOW_ORDER_STATE_DELETED : UInt32 := 0x20000000
def WINDOW_ORDER_ICON : UInt32 := 0x40000000
def WINDOW_ORDER_CACHED_ICON : UInt32 := 0x80000000

def WINDOW_ORDER_FIELD_OWNER : UInt32 := 0x00000002
def WINDOW_ORDER_FIELD_STYLE : UInt32 := 0x00000008
def WINDOW_ORDER_FIELD_SHOW : UInt32 := 0x00000010
def WINDOW_ORDER_FIELD_TITLE : UInt32 := 0x00000004
def WINDOW_ORDER_FIELD_CLIENT_AREA_OFFSET : UInt32 := 0x00004000
def WINDOW_ORDER_FIELD_CLIENT_AREA_SIZE : UInt32 := 0x00010000
def WINDOW_ORDER_FIELD_RESIZE_MARGIN_X : UInt32 := 0x00000080
def WINDOW_ORDER_FIELD_RESIZE_MARGIN_Y : UInt32 := 0x08000000
def WINDOW_ORDER_FIELD_RP_CONTENT : UInt32 := 0x00020000
def WINDOW_ORDER_FIELD_ROOT_PARENT : UInt32 := 0x00040000
def WINDOW_ORDER_FIELD_WND_OFFSET : UInt32 := 0x00000800
def WINDOW_ORDER_FIELD_WND_CLIENT_DELTA : UInt32 := 0x00008000
def WINDOW_ORDER_FIELD_WND_SIZE : UInt32 := 0x00000400
def WINDOW_ORDER_FIELD_WND_RECTS : UInt32 := 0x00000100
def WINDOW_ORDER_FIELD_VIS_OFFSET : UInt32 := 0x00001000
def WINDOW_ORDER_FIELD_VISIBILITY : UInt32 := 0x00000200

def WINDOW_ORDER_FIELD_DESKTOP_ZORDER : UInt32 := 0x00000010
def WINDOW_ORDER_FIELD_DESKTOP_ACTIVE_WND : UInt32 := 0x00000020

/-! ## Events -/

structure Rect where
  left : UInt16
  top : UInt16
  right : UInt16
  bottom : UInt16
  deriving DecidableEq, Repr

/-- The fields of a create or update order; `none` where it carries none. -/
structure WindowInfo where
  windowId : UInt32
  isNew : Bool
  showState : Option UInt8
  title : Option String
  x : Option Int32
  y : Option Int32
  width : Option UInt32
  height : Option UInt32
  visibilityRects : Option (List Rect)
  deriving DecidableEq

inductive WindowEvent where
  | newOrUpdate (info : WindowInfo)
  | deleted (windowId : UInt32)
  | zOrder (ids : List UInt32)
  | activeWindow (windowId : UInt32)
  | icon (windowId : UInt32) (width height : UInt16) (rgba : List UInt8)
  deriving DecidableEq

/-! ## Reader -/

namespace Reader

def remaining (r : Cursor) : Nat := r.buf.length - r.pos

def u8 : Read UInt8 := fun r =>
  match r.buf[r.pos]? with
  | some b => (some b, r.advance 1)
  | none => (none, r)

def u16 : Read UInt16 := do
  let s ← take 2
  pure (UInt16.ofNat (fromLe s))

def u32 : Read UInt32 := do
  let s ← take 4
  pure (UInt32.ofNat (fromLe s))

def i32 : Read Int32 := do
  let v ← u32
  pure v.toInt32

def skip (n : Nat) : Read Unit := fun r =>
  if remaining r < n then (none, r) else (some (), r.advance n)

def bytes (n : Nat) : Read (List UInt8) := take n

/-- The units of `chunks_exact(2)`; an odd last byte is dropped. -/
def units : List UInt8 → List UInt16
  | b₀ :: b₁ :: bs => UInt16.ofNat (fromLe [b₀, b₁]) :: units bs
  | _ => []

def unicodeString : Read String := do
  let cb ← u16
  let bytes ← take cb.toNat
  pure (String.ofList (Utf16.decodeLossy (units bytes)))

end Reader

open Reader

/-! ## decode_icon -/

/-- `mask_bit`. -/
def maskBit (mask : List UInt8) (stride x row : Nat) : Bool :=
  match mask[row * stride + x / 8]? with
  | some b => (b.toNat >>> (7 - x % 8)) &&& 1 == 1
  | none => false

/-- The alpha byte of every four-byte pixel of `chunks_exact(4)`. -/
def alphas : List UInt8 → List UInt8
  | _ :: _ :: _ :: a :: px => a :: alphas px
  | _ => []

/-- One pixel: red, green and blue from the stored `BGR` at `s`. -/
def storePixel (color out : List UInt8) (s d : Nat) (a : UInt8) :
    Checked (List UInt8) := do
  let out ← store out d (← index color (s + 2))
  let out ← store out (d + 1) (← index color (s + 1))
  let out ← store out (d + 2) (← index color s)
  store out (d + 3) a

/-- The loops of `decode_icon`: rows are stored bottom-up, `stride` bytes
each, and `alpha` says how an alpha byte is found. -/
def decodePixels (w h bytesPerPixel stride : Nat)
    (alpha : (s x src : Nat) → Checked UInt8) (color : List UInt8) :
    Checked (List UInt8) :=
  forRange 0 h (fun y out => do
    let src ← sub (← sub h 1) y
    forRange 0 w (fun x out => do
      let s := src * stride + x * bytesPerPixel
      let d := (y * w + x) * 4
      let a ← alpha s x src
      storePixel color out s d a) out) (List.replicate (w * h * 4) 0)

/-- `decode_icon`. -/
def decodeIcon (bpp : UInt8) (width height : UInt16) (color mask : List UInt8) :
    Checked (Option (List UInt8)) :=
  let w := width.toNat
  let h := height.toNat
  if w = 0 ∨ h = 0 ∨ w > 256 ∨ h > 256 then return none
  else
    let maskStride := (w + 31) / 32 * 4
    let haveMask := decide (maskStride * h ≤ mask.length)
    if bpp = 32 then
      if color.length < w * h * 4 then return none
      else
        let anyAlpha := (alphas color).any (· != 0)
        some <$> decodePixels w h 4 (w * 4) (fun s x src =>
          if anyAlpha then index color (s + 3)
          else if haveMask && maskBit mask maskStride x src then return 0
          else return 255) color
    else if bpp = 24 then
      let stride := (w * 3 + 3) / 4 * 4
      if color.length < stride * h then return none
      else
        some <$> decodePixels w h 3 stride (fun _ x src =>
          if haveMask && maskBit mask maskStride x src then return 0
          else return 255) color
    else return none

/-! ## Order bodies -/

/-- What `parse_icon_order` reads. -/
structure IconBits where
  bpp : UInt8
  width : UInt16
  height : UInt16
  bitsMask : List UInt8
  bitsColor : List UInt8

/-- Depths with a colour table. -/
def isPalettized (bpp : UInt8) : Bool := bpp == 1 || bpp == 4 || bpp == 8

/-- The length of the colour table, for the depths that have one. -/
def readCbColorTable (bpp : UInt8) : Read UInt16 :=
  if isPalettized bpp then u16 else pure 0

/-- From the depth on. -/
def readIconInfo : Read IconBits := do
  let bpp ← u8
  let width ← u16
  let height ← u16
  let cbColorTable ← readCbColorTable bpp
  let cbBitsMask ← u16
  let cbBitsColor ← u16
  let bitsMask ← bytes cbBitsMask.toNat
  let _colorTable ← bytes cbColorTable.toNat
  let bitsColor ← bytes cbBitsColor.toNat
  pure { bpp, width, height, bitsMask, bitsColor }

/-- The two cache numbers are read, and not missed when they are not there. -/
def readIconBits : Read IconBits := do
  let _cacheEntry ← attempt u16
  let _cacheId ← attempt u8
  readIconInfo

/-- `parse_icon_order`. -/
def parseIconOrder (windowId : UInt32) (r : Cursor) :
    Checked (List WindowEvent) :=
  match readIconBits r with
  | (none, _) => return []
  | (some icon, _) => do
      match ← decodeIcon icon.bpp icon.width icon.height icon.bitsColor
          icon.bitsMask with
      | some rgba => return [.icon windowId icon.width icon.height rgba]
      | none => return []

/-- A field that is read when its flag is set. -/
def field {α : Type} (ff flag : UInt32) (m : Read α) : Read (Option α) :=
  optional (has ff flag) m

def readRect : Read Rect := do
  let left ← u16
  let top ← u16
  let right ← u16
  let bottom ← u16
  pure { left, top, right, bottom }

/-- `parse_window_state`. -/
def parseWindowState (ff windowId : UInt32) : Read WindowInfo := do
  let _ ← field ff WINDOW_ORDER_FIELD_OWNER (skip 4)
  let _ ← field ff WINDOW_ORDER_FIELD_STYLE (skip 8)
  let showState ← field ff WINDOW_ORDER_FIELD_SHOW u8
  let title ← field ff WINDOW_ORDER_FIELD_TITLE unicodeString
  let _ ← field ff WINDOW_ORDER_FIELD_CLIENT_AREA_OFFSET (skip 8)
  let _ ← field ff WINDOW_ORDER_FIELD_CLIENT_AREA_SIZE (skip 8)
  let _ ← field ff WINDOW_ORDER_FIELD_RESIZE_MARGIN_X (skip 8)
  let _ ← field ff WINDOW_ORDER_FIELD_RESIZE_MARGIN_Y (skip 8)
  let _ ← field ff WINDOW_ORDER_FIELD_RP_CONTENT (skip 1)
  let _ ← field ff WINDOW_ORDER_FIELD_ROOT_PARENT (skip 4)
  let offset ← field ff WINDOW_ORDER_FIELD_WND_OFFSET do
    let x ← i32
    let y ← i32
    pure (x, y)
  let _ ← field ff WINDOW_ORDER_FIELD_WND_CLIENT_DELTA (skip 8)
  let size ← field ff WINDOW_ORDER_FIELD_WND_SIZE do
    let width ← u32
    let height ← u32
    pure (width, height)
  let _ ← field ff WINDOW_ORDER_FIELD_WND_RECTS do
    let num ← u16
    skip (num.toNat * 8)
  let _ ← field ff WINDOW_ORDER_FIELD_VIS_OFFSET (skip 8)
  let rects ← field ff WINDOW_ORDER_FIELD_VISIBILITY do
    let num ← u16
    times num.toNat readRect
  pure
    { windowId
      isNew := has ff WINDOW_ORDER_STATE_NEW
      showState
      title
      x := offset.map (·.1)
      y := offset.map (·.2)
      width := size.map (·.1)
      height := size.map (·.2)
      visibilityRects := rects.filter (1 < ·.length) }

/-- `parse_desktop_order`. -/
def parseDesktopOrder (ff : UInt32) (r : Cursor) : List WindowEvent :=
  match field ff WINDOW_ORDER_FIELD_DESKTOP_ACTIVE_WND u32 r with
  | (none, _) => []
  | (some active, r) =>
      let events := (active.map .activeWindow).toList
      match field ff WINDOW_ORDER_FIELD_DESKTOP_ZORDER (do
          let num ← u8
          times num.toNat u32) r with
      | (none, _) => events
      | (some ids, _) => events ++ (ids.map .zOrder).toList

/-- `parse_window_order`. -/
def parseWindowOrder (fieldFlags : UInt32) (r : Cursor) :
    Checked (List WindowEvent) :=
  if has fieldFlags WINDOW_ORDER_TYPE_DESKTOP then
    return parseDesktopOrder fieldFlags r
  else if !has fieldFlags (WINDOW_ORDER_TYPE_WINDOW ||| WINDOW_ORDER_TYPE_NOTIFY) then
    return []
  else match u32 r with
    | (none, _) => return []
    | (some windowId, r) =>
        if has fieldFlags WINDOW_ORDER_ICON then parseIconOrder windowId r
        else if has fieldFlags WINDOW_ORDER_CACHED_ICON then return []
        else if has fieldFlags WINDOW_ORDER_TYPE_NOTIFY then return []
        else if has fieldFlags WINDOW_ORDER_STATE_DELETED then
          return [.deleted windowId]
        else match parseWindowState fieldFlags windowId r with
          | (some info, _) => return [.newOrUpdate info]
          | (none, _) => return []

/-! ## parse -/

/-- The loop of `parse`, with `n` orders to go. -/
def parseOrders : Nat → Cursor → Checked (List WindowEvent)
  | 0, _ => return []
  | n + 1, r =>
      if remaining r = 0 then return []
      else match u8 r with
        | (none, _) => return []
        | (some controlFlags, r₁) =>
            if controlFlags &&& ORDER_STANDARD ≠ 0 then return []
            else if controlFlags >>> 2 = ORDER_TYPE_FRAME_MARKER then
              match skip 4 r₁ with
              | (none, _) => return []
              | (some _, r₂) => parseOrders n r₂
            else if controlFlags >>> 2 = ORDER_TYPE_WINDOW then
              match u16 r₁ with
              | (none, _) => return []
              | (some orderSize, r₂) =>
                  match u32 r₂ with
                  | (none, _) => return []
                  | (some fieldFlags, r₃) =>
                      let orderEnd := r.pos + orderSize.toNat
                      if orderSize < 3 ∨ orderEnd > r.buf.length then return []
                      else do
                        let events ← parseWindowOrder fieldFlags r₃
                        let rest ← parseOrders n { r₃ with pos := orderEnd }
                        return events ++ rest
            else return []

/-- `parse`. -/
def parse (payload : List UInt8) : Checked (List WindowEvent) :=
  match u16 ⟨payload, 0⟩ with
  | (none, _) => return []
  | (some numberOrders, r) => parseOrders numberOrders.toNat r

end WasmRdp
