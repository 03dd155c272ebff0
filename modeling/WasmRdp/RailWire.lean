import WasmRdp.RailIcon

/-!
# The wire format of window orders

The orders of a payload as values, their encoding, and the events that an
application should get for them. An `Order` is a frame marker or a window
order of one of six kinds, with whatever follows the fields the parser
knows as `trailing` bytes; its lengths fit their fields by construction.

Flag words are put together from the parts that are there. Where an order
may carry flags that mean nothing to the parser, `extra` stands for them.

The encoder is the specification's side of the parser and shares nothing with
it but the numbers of the flags. A field of a window is an `Option`, and its
flag is set exactly when it is there (`WindowFields.flags`); the order on the
wire is that of the specification, which is not the order of the flags
(`WindowFields.encode`). An icon has a colour table only at a depth that has
one, and what the application gets for it is its picture when it is drawable
and nothing otherwise.

Two kinds of freedom are kept, because a server has them: flags outside those
the parser looks at, with a proof that they are outside (`FlagsOutside`), and
bytes at the end of an order that `orderSize` counts and no field claims.
-/

namespace WasmRdp

open ByteReader Flags

/-! ## Numbers, rectangles and icons -/

def le16 (v : UInt16) : List UInt8 := toLe 2 v.toNat

def le32 (v : UInt32) : List UInt8 := toLe 4 v.toNat

def leI32 (v : Int32) : List UInt8 := le32 v.toUInt32

/-- A list with its length before it, in 16 bits. -/
def counted16 {α : Type} (count : Nat) (enc : α → List UInt8) (xs : List α) :
    List UInt8 := le16 (UInt16.ofNat count) ++ xs.flatMap enc

def Rect.encode (r : Rect) : List UInt8 :=
  [le16 r.left, le16 r.top, le16 r.right, le16 r.bottom].flatten

/-- An icon; only palettized depths have a colour table. -/
structure IconInfo where
  cacheEntry : UInt16
  cacheId : UInt8
  bpp : UInt8
  width : UInt16
  height : UInt16
  bitsMask : List UInt8
  colorTable : List UInt8
  bitsColor : List UInt8
  mask_le : bitsMask.length ≤ 65535
  table_le : colorTable.length ≤ 65535
  color_le : bitsColor.length ≤ 65535
  table_eq_nil : isPalettized bpp = false → colorTable = []

namespace IconInfo

/-- From the depth on. -/
def encodeInfo (i : IconInfo) : List UInt8 :=
  [[i.bpp], le16 i.width, le16 i.height,
    if isPalettized i.bpp then le16 (UInt16.ofNat i.colorTable.length) else [],
    le16 (UInt16.ofNat i.bitsMask.length), le16 (UInt16.ofNat i.bitsColor.length),
    i.bitsMask, i.colorTable, i.bitsColor].flatten

def encode (i : IconInfo) : List UInt8 :=
  le16 i.cacheEntry ++ ([i.cacheId] ++ i.encodeInfo)

/-- 24 or 32 bits a pixel, 1 to 256 pixels a side, and enough colour. -/
def Drawable (i : IconInfo) : Prop :=
  WasmRdp.Drawable i.bpp i.width i.height i.bitsColor

instance (i : IconInfo) : Decidable i.Drawable := by
  unfold Drawable
  infer_instance

def event (i : IconInfo) (windowId : UInt32) : WindowEvent :=
  .icon windowId i.width i.height
    (iconRgba i.bpp i.width i.height i.bitsColor i.bitsMask)

end IconInfo

/-! ## The fields of a window -/

/-- The sixteen fields, each there or not. -/
structure WindowFields where
  owner : Option UInt32
  style : Option (UInt32 × UInt32)
  showState : Option UInt8
  title : Option (List UInt16)
  clientOffset : Option (Int32 × Int32)
  clientSize : Option (UInt32 × UInt32)
  resizeMarginX : Option (UInt32 × UInt32)
  resizeMarginY : Option (UInt32 × UInt32)
  rpContent : Option UInt8
  rootParent : Option UInt32
  wndOffset : Option (Int32 × Int32)
  wndClientDelta : Option (Int32 × Int32)
  wndSize : Option (UInt32 × UInt32)
  wndRects : Option (List Rect)
  visOffset : Option (Int32 × Int32)
  visibility : Option (List Rect)
  title_le : ∀ units ∈ title, units.length * 2 ≤ 65535
  wndRects_le : ∀ rects ∈ wndRects, rects.length ≤ 65535
  visibility_le : ∀ rects ∈ visibility, rects.length ≤ 65535

/-- Two numbers, one after the other. -/
def pair {α β : Type} (enc : α → List UInt8) (enc' : β → List UInt8)
    (p : α × β) : List UInt8 := [enc p.1, enc' p.2].flatten

namespace WindowFields

def flags (f : WindowFields) : UInt32 :=
  flagIf f.owner.isSome WINDOW_ORDER_FIELD_OWNER |||
  flagIf f.style.isSome WINDOW_ORDER_FIELD_STYLE |||
  flagIf f.showState.isSome WINDOW_ORDER_FIELD_SHOW |||
  flagIf f.title.isSome WINDOW_ORDER_FIELD_TITLE |||
  flagIf f.clientOffset.isSome WINDOW_ORDER_FIELD_CLIENT_AREA_OFFSET |||
  flagIf f.clientSize.isSome WINDOW_ORDER_FIELD_CLIENT_AREA_SIZE |||
  flagIf f.resizeMarginX.isSome WINDOW_ORDER_FIELD_RESIZE_MARGIN_X |||
  flagIf f.resizeMarginY.isSome WINDOW_ORDER_FIELD_RESIZE_MARGIN_Y |||
  flagIf f.rpContent.isSome WINDOW_ORDER_FIELD_RP_CONTENT |||
  flagIf f.rootParent.isSome WINDOW_ORDER_FIELD_ROOT_PARENT |||
  flagIf f.wndOffset.isSome WINDOW_ORDER_FIELD_WND_OFFSET |||
  flagIf f.wndClientDelta.isSome WINDOW_ORDER_FIELD_WND_CLIENT_DELTA |||
  flagIf f.wndSize.isSome WINDOW_ORDER_FIELD_WND_SIZE |||
  flagIf f.wndRects.isSome WINDOW_ORDER_FIELD_WND_RECTS |||
  flagIf f.visOffset.isSome WINDOW_ORDER_FIELD_VIS_OFFSET |||
  flagIf f.visibility.isSome WINDOW_ORDER_FIELD_VISIBILITY

/-- The wire order, which is not the order of the flags. -/
def encode (f : WindowFields) : List UInt8 :=
  [f.owner.elim [] le32, f.style.elim [] (pair le32 le32),
    f.showState.elim [] ([·]),
    f.title.elim [] (fun units => counted16 (units.length * 2) le16 units),
    f.clientOffset.elim [] (pair leI32 leI32),
    f.clientSize.elim [] (pair le32 le32),
    f.resizeMarginX.elim [] (pair le32 le32),
    f.resizeMarginY.elim [] (pair le32 le32),
    f.rpContent.elim [] ([·]), f.rootParent.elim [] le32,
    f.wndOffset.elim [] (pair leI32 leI32),
    f.wndClientDelta.elim [] (pair leI32 leI32),
    f.wndSize.elim [] (pair le32 le32),
    f.wndRects.elim [] (fun rects => counted16 rects.length Rect.encode rects),
    f.visOffset.elim [] (pair leI32 leI32),
    f.visibility.elim [] (fun rects =>
      counted16 rects.length Rect.encode rects)].flatten

/-- What the application gets to know of a window. -/
def info (f : WindowFields) (windowId : UInt32) (isNew : Bool) : WindowInfo :=
  { windowId
    isNew
    showState := f.showState
    title := f.title.map fun units => String.ofList (Utf16.decodeLossy units)
    x := f.wndOffset.map (·.1)
    y := f.wndOffset.map (·.2)
    width := f.wndSize.map (·.1)
    height := f.wndSize.map (·.2)
    visibilityRects := f.visibility.filter (1 < ·.length) }

end WindowFields

/-! ## Orders -/

/-- Every flag the parser looks at in an order for a window. -/
def parsedFlags : UInt32 :=
  WINDOW_ORDER_TYPE_WINDOW ||| WINDOW_ORDER_TYPE_NOTIFY |||
  WINDOW_ORDER_TYPE_DESKTOP ||| WINDOW_ORDER_STATE_NEW |||
  WINDOW_ORDER_STATE_DELETED ||| WINDOW_ORDER_ICON |||
  WINDOW_ORDER_CACHED_ICON ||| WINDOW_ORDER_FIELD_OWNER |||
  WINDOW_ORDER_FIELD_STYLE ||| WINDOW_ORDER_FIELD_SHOW |||
  WINDOW_ORDER_FIELD_TITLE ||| WINDOW_ORDER_FIELD_CLIENT_AREA_OFFSET |||
  WINDOW_ORDER_FIELD_CLIENT_AREA_SIZE ||| WINDOW_ORDER_FIELD_RESIZE_MARGIN_X |||
  WINDOW_ORDER_FIELD_RESIZE_MARGIN_Y ||| WINDOW_ORDER_FIELD_RP_CONTENT |||
  WINDOW_ORDER_FIELD_ROOT_PARENT ||| WINDOW_ORDER_FIELD_WND_OFFSET |||
  WINDOW_ORDER_FIELD_WND_CLIENT_DELTA ||| WINDOW_ORDER_FIELD_WND_SIZE |||
  WINDOW_ORDER_FIELD_WND_RECTS ||| WINDOW_ORDER_FIELD_VIS_OFFSET |||
  WINDOW_ORDER_FIELD_VISIBILITY

/-- Flags apart from those of a mask. -/
abbrev FlagsOutside (mask : UInt32) : Type := { w : UInt32 // has w mask = false }

inductive WindowOrder where
  | delete (windowId : UInt32)
  | icon (windowId : UInt32) (isNew : Bool) (info : IconInfo)
  | cachedIcon (windowId : UInt32) (isNew : Bool) (cacheEntry : UInt16)
      (cacheId : UInt8)
  /-- A notification icon: its flags but the type, and what follows the
  window id, the icon of the notification included. -/
  | notify (windowId : UInt32)
      (extra : FlagsOutside (WINDOW_ORDER_TYPE_WINDOW ||| WINDOW_ORDER_TYPE_DESKTOP))
      (notification : List UInt8)
  | desktop (active : Option UInt32) (zOrder : Option (List UInt32))
      (zOrder_le : ∀ ids ∈ zOrder, ids.length ≤ 255)
      (extra : FlagsOutside
        (WINDOW_ORDER_FIELD_DESKTOP_ACTIVE_WND ||| WINDOW_ORDER_FIELD_DESKTOP_ZORDER))
  /-- Create or update. -/
  | state (windowId : UInt32) (isNew : Bool) (fields : WindowFields)
      (extra : FlagsOutside parsedFlags)

namespace WindowOrder

def flags : WindowOrder → UInt32
  | .delete _ => WINDOW_ORDER_TYPE_WINDOW ||| WINDOW_ORDER_STATE_DELETED
  | .icon _ isNew _ => WINDOW_ORDER_TYPE_WINDOW ||| WINDOW_ORDER_ICON |||
      flagIf isNew WINDOW_ORDER_STATE_NEW
  | .cachedIcon _ isNew _ _ => WINDOW_ORDER_TYPE_WINDOW |||
      WINDOW_ORDER_CACHED_ICON ||| flagIf isNew WINDOW_ORDER_STATE_NEW
  | .notify _ extra _ => WINDOW_ORDER_TYPE_NOTIFY ||| extra.1
  | .desktop active zOrder _ extra => WINDOW_ORDER_TYPE_DESKTOP |||
      flagIf active.isSome WINDOW_ORDER_FIELD_DESKTOP_ACTIVE_WND |||
      flagIf zOrder.isSome WINDOW_ORDER_FIELD_DESKTOP_ZORDER ||| extra.1
  | .state _ isNew fields extra => WINDOW_ORDER_TYPE_WINDOW |||
      flagIf isNew WINDOW_ORDER_STATE_NEW ||| fields.flags ||| extra.1

/-- What the orders of one window have after the window id. -/
def tail : WindowOrder → List UInt8
  | .delete _ | .desktop .. => []
  | .icon _ _ info => info.encode
  | .cachedIcon _ _ cacheEntry cacheId => le16 cacheEntry ++ [cacheId]
  | .notify _ _ notification => notification
  | .state _ _ fields _ => fields.encode

def body : WindowOrder → List UInt8
  | .desktop active zOrder _ _ => active.elim [] le32 ++
      zOrder.elim [] fun ids => UInt8.ofNat ids.length :: ids.flatMap le32
  | order@(.delete windowId) | order@(.icon windowId ..)
  | order@(.cachedIcon windowId ..) | order@(.notify windowId ..)
  | order@(.state windowId ..) => le32 windowId ++ order.tail

/-- What the application should be told. -/
def events : WindowOrder → List WindowEvent
  | .delete windowId => [.deleted windowId]
  | .icon windowId _ info => if info.Drawable then [info.event windowId] else []
  | .cachedIcon .. | .notify .. => []
  | .desktop active zOrder _ _ =>
      (active.map .activeWindow).toList ++ (zOrder.map .zOrder).toList
  | .state windowId isNew fields _ => [.newOrUpdate (fields.info windowId isNew)]

end WindowOrder

inductive Order where
  | frameMarker (secondary : Bool) (action : UInt32)
  | window (secondary : Bool) (order : WindowOrder) (trailing : List UInt8)
      (fits : 7 + (order.body.length + trailing.length) ≤ 65535)

/-- The control byte of an alternate secondary order: the type, above two
bits that tell the class of the order. -/
def controlFlags (orderType : UInt8) (secondary : Bool) : UInt8 :=
  orderType <<< 2 ||| (if secondary then 2 else 0)

namespace Order

def encode : Order → List UInt8
  | .frameMarker secondary action =>
      [controlFlags ORDER_TYPE_FRAME_MARKER secondary] ++ le32 action
  | .window secondary order trailing _ =>
      [controlFlags ORDER_TYPE_WINDOW secondary] ++
      (le16 (UInt16.ofNat (7 + (order.body.length + trailing.length))) ++
      (le32 order.flags ++ (order.body ++ trailing)))

def events : Order → List WindowEvent
  | .frameMarker .. => []
  | .window _ order _ _ => order.events

end Order

/-- The payload: the number of orders, and the orders. -/
def encodeOrders (orders : List Order) : List UInt8 :=
  le16 (UInt16.ofNat orders.length) ++ orders.flatMap Order.encode

end WasmRdp
