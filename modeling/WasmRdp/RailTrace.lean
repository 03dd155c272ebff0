import WasmRdp.RailParse

/-!
# The orders that `parse` takes

`parse` walks over the payload: each turn of its loop takes one order, whose
header tells where the next one starts. `taken` is the list of the orders it
takes, each with the range of bytes that is its own and the events that come
of it; the result of `parse` is the events of that list (`parse_eq_taken`).

What one turn can do is said once (`takeOrder_cases`). From it, by induction
on the turns: nothing is read outside the payload and nothing aborts
(`parse_total`), and the ranges follow one another, each with room for the
header it was read from, exactly when every window order claims at least its
own header (`rangesApart_iff`).

Totality is about the body of an order, which may hold any bytes and any
flags (`returns_parseWindowOrder`). The reads of the cursor fail without
harm, so the work is in the icon: its size is checked against the colour data
before the loops of the decoder run over it, and the bit of a mask is computed
by a subtraction and a shift that stay in range (`checkedMaskBit_eq`).

An `orderSize` of three is accepted, though the header of a window order has
seven bytes. The next order then starts within the header of this one, at the
first byte of its flags (`not_always_rangesApart`). A smaller size than three
would end the loop.
-/

namespace WasmRdp

open ByteReader Flags Slices Raster

/-- What the header of an order says. -/
inductive OrderHead where
  | frameMarker
  | window (orderSize : UInt16) (fieldFlags : UInt32)
  deriving DecidableEq

/-- The bytes that are read as the header: the control flags, and the action
of a marker or the size and the flags of a window order. -/
def OrderHead.length : OrderHead → Nat
  | .frameMarker => 5
  | .window .. => 7

theorem OrderHead.length_bounds (head : OrderHead) : 5 ≤ head.length ∧ head.length ≤ 7 := by
  cases head with
  | frameMarker => exact ⟨Nat.le_refl 5, show 5 ≤ 7 by decide⟩
  | window orderSize fieldFlags => exact ⟨show 5 ≤ 7 by decide, Nat.le_refl 7⟩

/-- An order that `parse` took. Its range ends where the next order starts. -/
structure TakenOrder where
  start : Nat
  head : OrderHead
  stop : Nat
  events : List WindowEvent
  deriving DecidableEq

/-- One turn of the loop of `parse`, `none` where it breaks off. -/
def takeOrder (r : Cursor) : Checked (Option TakenOrder) :=
  if Reader.remaining r = 0 then return none
  else match Reader.u8 r with
    | (none, _) => return none
    | (some controlFlags, r₁) =>
        if controlFlags &&& ORDER_STANDARD ≠ 0 then return none
        else if controlFlags >>> 2 = ORDER_TYPE_FRAME_MARKER then
          match Reader.skip 4 r₁ with
          | (none, _) => return none
          | (some _, r₂) => return some ⟨r.pos, .frameMarker, r₂.pos, []⟩
        else if controlFlags >>> 2 = ORDER_TYPE_WINDOW then
          match Reader.u16 r₁ with
          | (none, _) => return none
          | (some orderSize, r₂) =>
              match Reader.u32 r₂ with
              | (none, _) => return none
              | (some fieldFlags, r₃) =>
                  let orderEnd := r.pos + orderSize.toNat
                  if orderSize < 3 ∨ orderEnd > r.buf.length then return none
                  else do
                    let events ← parseWindowOrder fieldFlags r₃
                    return some ⟨r.pos, .window orderSize fieldFlags, orderEnd, events⟩
        else return none

def takeOrders : Nat → Cursor → Checked (List TakenOrder)
  | 0, _ => return []
  | n + 1, r => do
      match ← takeOrder r with
      | none => return []
      | some order => do
          let rest ← takeOrders n { r with pos := order.stop }
          return order :: rest

/-- The orders of a payload. -/
def taken (payload : List UInt8) : Checked (List TakenOrder) :=
  match Reader.u16 ⟨payload, 0⟩ with
  | (none, _) => return []
  | (some numberOrders, r) => takeOrders numberOrders.toNat r

/-! ## What one turn does -/

section

variable {c : Cursor} {b : UInt8} {rest : List UInt8}

/-- In front of a frame marker. -/
theorem takeOrder_marker {action : List UInt8} (hstd : b &&& ORDER_STANDARD = 0)
    (htype : b >>> 2 = ORDER_TYPE_FRAME_MARKER) (haction : action.length = 4)
    (hc : c.Sees ([b] ++ (action ++ rest))) :
    takeOrder c = .ok (some ⟨c.pos, .frameMarker, c.pos + 5, []⟩) := by
  rw [takeOrder, if_neg (remaining_ne_zero hc), reads_u8 _ c _ hc]
  dsimp only
  rw [if_neg (not_not.mpr hstd), if_pos htype, reads_skip haction _ _ hc.advance,
    Cursor.advance_advance, haction]
  rfl

/-- In front of the header of a window order. -/
theorem takeOrder_window {size : UInt16} {flags : UInt32}
    (hstd : b &&& ORDER_STANDARD = 0) (htype : b >>> 2 = ORDER_TYPE_WINDOW)
    (hc : c.Sees ([b] ++ (le16 size ++ (le32 flags ++ rest)))) :
    takeOrder c =
      if size < 3 ∨ c.pos + size.toNat > c.buf.length then .ok none
      else do
        let events ← parseWindowOrder flags (c.advance 7)
        return some ⟨c.pos, .window size flags, c.pos + size.toNat, events⟩ := by
  rw [takeOrder, if_neg (remaining_ne_zero hc), reads_u8 _ c _ hc]
  dsimp only
  rw [if_neg (not_not.mpr hstd), if_neg (by rw [htype]; decide), if_pos htype,
    reads_u16 _ _ _ hc.advance]
  dsimp only
  rw [reads_u32 _ _ _ hc.advance.advance]
  rfl

/-- What one turn of the loop can do. -/
inductive Turn (c : Cursor) : Checked (Option TakenOrder) → Prop where
  | stop : Turn c (.ok none)
  | marker (b : UInt8) (action rest : List UInt8)
      (hstd : b &&& ORDER_STANDARD = 0)
      (htype : b >>> 2 = ORDER_TYPE_FRAME_MARKER) (haction : action.length = 4)
      (hc : c.Sees ([b] ++ (action ++ rest))) :
      Turn c (.ok (some ⟨c.pos, .frameMarker, c.pos + 5, []⟩))
  | window (b : UInt8) (size : UInt16) (flags : UInt32) (rest : List UInt8)
      (hstd : b &&& ORDER_STANDARD = 0) (htype : b >>> 2 = ORDER_TYPE_WINDOW)
      (hc : c.Sees ([b] ++ (le16 size ++ (le32 flags ++ rest))))
      (hsize : 3 ≤ size.toNat) (hend : c.pos + size.toNat ≤ c.buf.length) :
      Turn c (do
        let events ← parseWindowOrder flags (c.advance 7)
        return some ⟨c.pos, .window size flags, c.pos + size.toNat, events⟩)

theorem takeOrder_cases (hpos : c.pos ≤ c.buf.length) : Turn c (takeOrder c) := by
  by_cases hrem : Reader.remaining c = 0
  · rw [takeOrder, if_pos hrem]
    exact .stop
  rcases hb : Reader.u8 c with ⟨_ | b, c₁⟩
  · rw [takeOrder, if_neg hrem, hb]
    exact .stop
  have hc : c.Sees (c.buf.drop c.pos) := ⟨hpos, rfl⟩
  obtain ⟨_, rest, hdrop, rfl, rfl⟩ := consumes_u8 c _ b c₁ hc hb
  rw [hdrop] at hc
  have hc₁ := hc.advance
  by_cases hstd : b &&& ORDER_STANDARD = 0
  swap
  · rw [takeOrder, if_neg hrem, hb]
    dsimp only
    rw [if_pos hstd]
    exact .stop
  by_cases hmarker : b >>> 2 = ORDER_TYPE_FRAME_MARKER
  · rcases hskip : Reader.skip 4 (c.advance [b].length) with ⟨_ | u, c₂⟩
    · rw [takeOrder, if_neg hrem, hb]
      dsimp only
      rw [if_neg (not_not.mpr hstd), if_pos hmarker, hskip]
      exact .stop
    · obtain ⟨action, rest', rfl, -, haction⟩ := consumes_skip 4 _ _ u c₂ hc₁ hskip
      rw [takeOrder_marker hstd hmarker haction hc]
      exact .marker b action rest' hstd hmarker haction hc
  by_cases hwindow : b >>> 2 = ORDER_TYPE_WINDOW
  swap
  · rw [takeOrder, if_neg hrem, hb]
    dsimp only
    rw [if_neg (not_not.mpr hstd), if_neg hmarker, if_neg hwindow]
    exact .stop
  have hunfold : takeOrder c = match Reader.u16 (c.advance [b].length) with
      | (none, _) => .ok none
      | (some orderSize, r₂) => match Reader.u32 r₂ with
        | (none, _) => .ok none
        | (some fieldFlags, r₃) =>
            if orderSize < 3 ∨ c.pos + orderSize.toNat > c.buf.length then .ok none
            else do
              let events ← parseWindowOrder fieldFlags r₃
              return some ⟨c.pos, .window orderSize fieldFlags,
                c.pos + orderSize.toNat, events⟩ := by
    rw [takeOrder, if_neg hrem, hb]
    dsimp only
    rw [if_neg (not_not.mpr hstd), if_neg hmarker, if_pos hwindow]
    rfl
  rcases hsize : Reader.u16 (c.advance [b].length) with ⟨_ | size, c₂⟩
  · rw [hunfold, hsize]
    exact .stop
  obtain ⟨_, rest', rfl, rfl, rfl⟩ := consumes_u16 _ _ size c₂ hc₁ hsize
  rcases hflags : Reader.u32 ((c.advance [b].length).advance (le16 size).length) with
    ⟨_ | flags, c₃⟩
  · rw [hunfold, hsize]
    dsimp only
    rw [hflags]
    exact .stop
  obtain ⟨_, rest'', rfl, rfl, rfl⟩ := consumes_u32 _ _ flags c₃ hc₁.advance hflags
  rw [takeOrder_window hstd hwindow hc]
  split
  · exact .stop
  · rename_i hok
    rw [not_or, UInt16.lt_iff_toNat_lt, Nat.not_lt, gt_iff_lt, Nat.not_lt] at hok
    exact .window b size flags rest'' hstd hwindow hc hok.1 hok.2

end

/-! ## The result of `parse` -/

theorem buf_u8 (c : Cursor) : (Reader.u8 c).2.buf = c.buf := by
  unfold Reader.u8
  split <;> rfl

theorem buf_skip (n : Nat) (c : Cursor) : (Reader.skip n c).2.buf = c.buf := by
  unfold Reader.skip
  split <;> rfl

theorem buf_take_bind_pure {α : Type} (n : Nat) (f : List UInt8 → α) (c : Cursor) :
    ((take n >>= fun s => pure (f s)) c).2.buf = c.buf := by
  rw [bind_eq]
  unfold take
  split
  · rename_i heq
    split at heq <;> cases heq
    rfl
  · rename_i heq
    split at heq <;> cases heq
    rfl

/-- A turn of the loop is one order, and the rest of the loop from its end. -/
theorem parseOrders_succ (n : Nat) (r : Cursor) :
    parseOrders (n + 1) r = do
      match ← takeOrder r with
      | none => return []
      | some order => do
          let rest ← parseOrders n { r with pos := order.stop }
          return order.events ++ rest := by
  rw [parseOrders, takeOrder]
  split
  · rfl
  have hu8 := buf_u8 r
  rcases h₁ : Reader.u8 r with ⟨_ | controlFlags, r₁⟩
  · rfl
  rw [h₁] at hu8
  dsimp only at hu8 ⊢
  split
  · rfl
  split
  · have hskip := buf_skip 4 r₁
    rcases h₂ : Reader.skip 4 r₁ with ⟨_ | u, r₂⟩
    · rfl
    · rw [h₂] at hskip
      have hr₂ : r₂ = { r with pos := r₂.pos } := by rw [← hu8, ← hskip]
      change parseOrders n r₂ = (parseOrders n { r with pos := r₂.pos }).bind fun rest =>
        .ok ([] ++ rest)
      rw [← hr₂]
      exact (bind_pure _).symm
  split
  · have hu16 : (Reader.u16 r₁).2.buf = r₁.buf := buf_take_bind_pure ..
    rcases h₂ : Reader.u16 r₁ with ⟨_ | orderSize, r₂⟩
    · rfl
    rw [h₂] at hu16
    have hu32 : (Reader.u32 r₂).2.buf = r₂.buf := buf_take_bind_pure ..
    dsimp only at hu16 ⊢
    rcases h₃ : Reader.u32 r₂ with ⟨_ | fieldFlags, r₃⟩
    · rfl
    rw [h₃] at hu32
    dsimp only at hu32 ⊢
    rw [show r₃.buf = r.buf from hu32.trans (hu16.trans hu8)]
    split
    · rfl
    · cases parseWindowOrder fieldFlags r₃ <;> rfl
  · rfl

theorem parseOrders_eq_taken (n : Nat) (r : Cursor) :
    parseOrders n r = (·.flatMap (·.events)) <$> takeOrders n r := by
  induction n generalizing r with
  | zero => rfl
  | succ n ih =>
      rw [parseOrders_succ, takeOrders, map_bind]
      refine bind_congr fun taken => ?_
      cases taken with
      | none => rfl
      | some order =>
          simp only [ih, bind_map_left, map_bind, map_pure, List.flatMap_cons]

/-- The result of `parse` is the events of the orders that it takes. -/
theorem parse_eq_taken (payload : List UInt8) :
    parse payload = (·.flatMap (·.events)) <$> taken payload := by
  rw [parse, taken]
  rcases Reader.u16 ⟨payload, 0⟩ with ⟨_ | numberOrders, r⟩
  · rfl
  · exact parseOrders_eq_taken _ r

/-! ## Totality -/

/-- `mask_bit` with its subtraction and its shift checked. -/
def checkedMaskBit (mask : List UInt8) (stride x row : Nat) : Checked Bool :=
  match mask[row * stride + x / 8]? with
  | some b => do
      let v ← shr b (← sub 7 (x % 8))
      return v &&& 1 == 1
  | none => return false

theorem checkedMaskBit_eq (mask : List UInt8) (stride x row : Nat) :
    checkedMaskBit mask stride x row = .ok (maskBit mask stride x row) := by
  have hx : x % 8 < 8 := Nat.mod_lt x (by decide)
  unfold checkedMaskBit maskBit
  cases mask[row * stride + x / 8]? with
  | none => rfl
  | some b =>
      dsimp only
      rw [sub_eq_ok (by omega)]
      change (shr b (7 - x % 8) >>= _) = _
      rw [shr_eq_ok (by omega)]
      rfl

/-- The picture of an icon fits its size, which is 1 to 256 a side. -/
def WindowEvent.IconSized : WindowEvent → Prop
  | .icon _ width height rgba => rgba.length = width.toNat * height.toNat * 4 ∧
      (1 ≤ width.toNat ∧ width.toNat ≤ 256) ∧ (1 ≤ height.toNat ∧ height.toNat ≤ 256)
  | _ => True

theorem returns_parseIconOrder (windowId : UInt32) (r : Cursor) :
    Returns (parseIconOrder windowId r) fun events =>
      events.length ≤ 1 ∧ ∀ e ∈ events, e.IconSized := by
  rw [parseIconOrder]
  rcases readIconBits r with ⟨_ | icon, r'⟩
  · exact Returns.pure ⟨Nat.zero_le _, fun e he => by cases he⟩
  · dsimp only
    rw [decodeIcon_eq]
    by_cases hdraw : Drawable icon.bpp icon.width icon.height icon.bitsColor
    · rw [if_pos hdraw]
      refine Returns.pure ⟨Nat.le_refl _, fun e he => ?_⟩
      rw [List.mem_singleton] at he
      subst he
      exact ⟨length_render .., hdraw.2.1, hdraw.2.2.1⟩
    · rw [if_neg hdraw]
      exact Returns.pure ⟨Nat.zero_le _, fun e he => by cases he⟩

theorem parseDesktopOrder_spec (ff : UInt32) (r : Cursor) :
    (parseDesktopOrder ff r).length ≤ 2 ∧
      ∀ e ∈ parseDesktopOrder ff r, e.IconSized := by
  have hactive : ∀ active : Option UInt32,
      ((active.map WindowEvent.activeWindow).toList).length ≤ 1 ∧
        ∀ e ∈ (active.map WindowEvent.activeWindow).toList, e.IconSized := by
    rintro (_ | active)
    · exact ⟨Nat.zero_le _, fun e he => by cases he⟩
    · refine ⟨Nat.le_refl _, fun e he => ?_⟩
      obtain rfl := List.mem_singleton.mp he
      trivial
  have hids : ∀ ids : Option (List UInt32),
      ((ids.map WindowEvent.zOrder).toList).length ≤ 1 ∧
        ∀ e ∈ (ids.map WindowEvent.zOrder).toList, e.IconSized := by
    rintro (_ | ids)
    · exact ⟨Nat.zero_le _, fun e he => by cases he⟩
    · refine ⟨Nat.le_refl _, fun e he => ?_⟩
      obtain rfl := List.mem_singleton.mp he
      trivial
  rw [parseDesktopOrder]
  rcases field ff WINDOW_ORDER_FIELD_DESKTOP_ACTIVE_WND Reader.u32 r with
    ⟨_ | active, r₁⟩
  · exact ⟨Nat.zero_le _, fun e he => by cases he⟩
  · obtain ⟨hlen, hev⟩ := hactive active
    dsimp only
    split
    · exact ⟨by omega, hev⟩
    · rename_i ids r₂ heq
      obtain ⟨hlen', hev'⟩ := hids ids
      refine ⟨by rw [List.length_append]; omega, fun e he => ?_⟩
      rcases List.mem_append.mp he with h | h
      · exact hev e h
      · exact hev' e h

/-- The body of a window order, whatever its flags and its bytes. -/
theorem returns_parseWindowOrder (ff : UInt32) (r : Cursor) :
    Returns (parseWindowOrder ff r) fun events =>
      events.length ≤ 2 ∧ ∀ e ∈ events, e.IconSized := by
  have hnil : Returns (pure []) fun events : List WindowEvent =>
      events.length ≤ 2 ∧ ∀ e ∈ events, e.IconSized :=
    Returns.pure ⟨Nat.zero_le _, fun e he => by cases he⟩
  have hone : ∀ e : WindowEvent, e.IconSized →
      Returns (pure [e]) fun events : List WindowEvent =>
        events.length ≤ 2 ∧ ∀ e ∈ events, e.IconSized := by
    intro e he
    refine Returns.pure ⟨Nat.le_succ 1, fun e' he' => ?_⟩
    rwa [List.mem_singleton.mp he']
  rw [parseWindowOrder]
  split
  · exact Returns.pure (parseDesktopOrder_spec ff r)
  split
  · exact hnil
  rcases Reader.u32 r with ⟨_ | windowId, r₁⟩
  · exact hnil
  dsimp only
  split
  · exact (returns_parseIconOrder windowId r₁).imp fun events h =>
      ⟨by omega, h.2⟩
  split
  · exact hnil
  split
  · exact hnil
  split
  · exact hone _ trivial
  rcases parseWindowState ff windowId r₁ with ⟨_ | info, r₂⟩
  · exact hnil
  · exact hone _ trivial

/-- An order that was taken lies within a payload of this length. -/
structure TakenOrder.Within (order : TakenOrder) (length : Nat) : Prop where
  start_le : order.start ≤ length
  stop_le : order.stop ≤ length
  events_le : order.events.length ≤ 2
  icons : ∀ e ∈ order.events, e.IconSized

theorem returns_takeOrder {c : Cursor} (hpos : c.pos ≤ c.buf.length) :
    Returns (takeOrder c) fun taken => ∀ order ∈ taken, order.Within c.buf.length := by
  have hturn := takeOrder_cases hpos
  generalize takeOrder c = turn at hturn ⊢
  cases hturn with
  | stop => exact Returns.ok fun order h => by cases h
  | marker b action rest hstd htype haction hc =>
      refine Returns.ok fun order h => ?_
      cases h
      have hlen := hc.length
      rw [List.length_append, List.length_append, haction] at hlen
      have hone : [b].length = 1 := rfl
      exact ⟨hpos, by dsimp only; omega, Nat.zero_le _, fun e he => by cases he⟩
  | window b size flags rest hstd htype hc hsize hend =>
      refine (returns_parseWindowOrder flags (c.advance 7)).bind
        fun events hev => Returns.pure fun order h => ?_
      cases h
      exact ⟨hpos, hend, hev.1, hev.2⟩

theorem returns_takeOrders (n : Nat) {r : Cursor} (hpos : r.pos ≤ r.buf.length) :
    Returns (takeOrders n r) fun orders => orders.length ≤ n ∧
      ∀ order ∈ orders, order.Within r.buf.length := by
  induction n generalizing r with
  | zero => exact Returns.pure ⟨Nat.le_refl _, fun order h => by cases h⟩
  | succ n ih =>
      rw [takeOrders]
      refine (returns_takeOrder hpos).bind fun taken htaken => ?_
      cases taken with
      | none => exact Returns.pure ⟨Nat.zero_le _, fun order h => by cases h⟩
      | some order =>
          have horder := htaken order rfl
          refine (ih (r := { r with pos := order.stop }) horder.stop_le).bind
            fun orders hor => Returns.pure ⟨?_, fun o ho => ?_⟩
          · exact Nat.succ_le_succ hor.1
          · rcases List.mem_cons.mp ho with rfl | ho
            · exact horder
            · exact hor.2 o ho

/-- The parser comes to an end on every payload without reading or
computing out of range; it takes no more orders than are counted, all of
them within the payload, and makes at most two events of each, with icons of
the right size. -/
theorem parse_total (payload : List UInt8) :
    (∃ orders, taken payload = .ok orders ∧
      parse payload = .ok (orders.flatMap (·.events)) ∧
      orders.length ≤ fromLe (payload.take 2) ∧
      ∀ order ∈ orders, order.Within payload.length) ∧
    (∀ bpp width height color mask, ∃ out,
      decodeIcon bpp width height color mask = .ok out) ∧
    ∀ mask stride x row, ∃ out, checkedMaskBit mask stride x row = .ok out := by
  refine ⟨?_, fun bpp width height color mask => ⟨_, decodeIcon_eq ..⟩,
    fun mask stride x row => ⟨_, checkedMaskBit_eq ..⟩⟩
  have hreturns : Returns (taken payload) fun orders =>
      orders.length ≤ fromLe (payload.take 2) ∧
        ∀ order ∈ orders, order.Within payload.length := by
    rw [taken]
    have hc : (⟨payload, 0⟩ : Cursor).Sees payload := ⟨Nat.zero_le _, rfl⟩
    rcases h : Reader.u16 ⟨payload, 0⟩ with ⟨_ | numberOrders, r⟩
    · exact Returns.pure ⟨Nat.zero_le _, fun order ho => by cases ho⟩
    · obtain ⟨_, rest, rfl, rfl, rfl⟩ := consumes_u16 _ _ _ _ hc h
      have hcount : fromLe ((le16 numberOrders ++ rest).take 2) = numberOrders.toNat := by
        rw [List.take_left' (length_le16 _), le16, fromLe_toLe numberOrders.toNat_lt]
      rw [hcount]
      exact returns_takeOrders _ hc.advance.1
  obtain ⟨orders, htaken, hlen, hwithin⟩ := hreturns
  refine ⟨orders, htaken, ?_, hlen, hwithin⟩
  rw [parse_eq_taken, htaken]
  rfl

/-! ## Ranges -/

/-- The bytes an order claims. -/
def OrderHead.size : OrderHead → Nat
  | .frameMarker => 5
  | .window orderSize _ => orderSize.toNat

/-- Each order starts where the one before it ends. -/
def Consecutive : Nat → List TakenOrder → Prop
  | _, [] => True
  | pos, order :: orders => order.start = pos ∧ Consecutive order.stop orders

/-- The orders of a payload, whose first starts behind the count, have
ranges that follow one another, each with room for its header, and none
starts within the header of an earlier one. -/
structure RangesApart (orders : List TakenOrder) : Prop where
  consecutive : Consecutive 2 orders
  header_le : ∀ order ∈ orders, order.head.length ≤ order.stop - order.start
  apart : orders.Pairwise fun order later =>
    ¬ (order.start ≤ later.start ∧ later.start < order.start + order.head.length)

/-- An order ends where its size says, three bytes on at least. -/
def TakenOrder.Spans (order : TakenOrder) : Prop :=
  order.stop = order.start + order.head.size ∧ 3 ≤ order.head.size

theorem takeOrder_range {c : Cursor} {order : TakenOrder} (hpos : c.pos ≤ c.buf.length)
    (h : takeOrder c = .ok (some order)) :
    order.start = c.pos ∧ order.Spans ∧ order.stop ≤ c.buf.length := by
  have hwithin := (returns_takeOrder hpos).of_eq h order rfl
  have hturn := takeOrder_cases hpos
  generalize takeOrder c = turn at hturn h
  cases hturn with
  | stop => cases h
  | marker =>
      cases h
      exact ⟨rfl, ⟨rfl, show 3 ≤ 5 by decide⟩, hwithin.stop_le⟩
  | window b size flags rest hstd htype hc hsize hend =>
      obtain ⟨events, -, hev⟩ := bind_eq_ok h
      cases hev
      exact ⟨rfl, ⟨rfl, hsize⟩, hwithin.stop_le⟩

theorem takeOrders_ranges (n : Nat) {r : Cursor} {orders : List TakenOrder}
    (hpos : r.pos ≤ r.buf.length) (h : takeOrders n r = .ok orders) :
    Consecutive r.pos orders ∧ ∀ order ∈ orders, order.Spans := by
  induction n generalizing r orders with
  | zero =>
      cases h
      exact ⟨trivial, fun order ho => by cases ho⟩
  | succ n ih =>
      rw [takeOrders] at h
      obtain ⟨taken, htake, h⟩ := bind_eq_ok h
      cases taken with
      | none =>
          cases h
          exact ⟨trivial, fun order ho => by cases ho⟩
      | some order =>
          obtain ⟨rest, hrest, h⟩ := bind_eq_ok h
          cases h
          obtain ⟨hstart, hstop, hle⟩ := takeOrder_range hpos htake
          obtain ⟨hcons, hsize⟩ := ih (r := { r with pos := order.stop }) hle hrest
          refine ⟨⟨hstart, hcons⟩, fun o ho => ?_⟩
          rcases List.mem_cons.mp ho with rfl | ho
          · exact hstop
          · exact hsize o ho

theorem taken_ranges {payload : List UInt8} {orders : List TakenOrder}
    (h : taken payload = .ok orders) :
    Consecutive 2 orders ∧ ∀ order ∈ orders, order.Spans := by
  have hc : (⟨payload, 0⟩ : Cursor).Sees payload := ⟨Nat.zero_le _, rfl⟩
  rw [taken] at h
  rcases hu16 : Reader.u16 ⟨payload, 0⟩ with ⟨_ | numberOrders, r⟩
  · rw [hu16] at h
    cases h
    exact ⟨trivial, fun order ho => by cases ho⟩
  · obtain ⟨_, rest, rfl, rfl, rfl⟩ := consumes_u16 _ _ _ _ hc hu16
    rw [hu16] at h
    exact takeOrders_ranges _ hc.advance.1 h

/-- What follows starts no earlier than it should. -/
theorem Consecutive.le_start {pos : Nat} {orders : List TakenOrder}
    (hcons : Consecutive pos orders)
    (hsize : ∀ order ∈ orders, order.Spans) :
    ∀ order ∈ orders, pos ≤ order.start := by
  induction orders generalizing pos with
  | nil => exact fun order ho => by cases ho
  | cons order orders ih =>
      intro o ho
      rcases List.mem_cons.mp ho with rfl | ho
      · exact hcons.1.ge
      · have hstop := hsize order (List.mem_cons_self ..)
        have hrest := ih hcons.2 (fun o' ho' => hsize o' (List.mem_cons_of_mem _ ho')) o ho
        rw [hstop.1, hcons.1] at hrest
        omega

theorem Consecutive.apart {pos : Nat} {orders : List TakenOrder}
    (hcons : Consecutive pos orders)
    (hsize : ∀ order ∈ orders, order.Spans)
    (hheader : ∀ order ∈ orders, order.head.length ≤ order.head.size) :
    orders.Pairwise fun order later =>
      ¬ (order.start ≤ later.start ∧
        later.start < order.start + order.head.length) := by
  induction orders generalizing pos with
  | nil => exact List.Pairwise.nil
  | cons order orders ih =>
      have hsize' := fun o ho => hsize o (List.mem_cons_of_mem order ho)
      refine List.pairwise_cons.mpr ⟨fun later hlater => ?_,
        ih hcons.2 hsize' fun o ho => hheader o (List.mem_cons_of_mem _ ho)⟩
      have hlow := hcons.2.le_start hsize' later hlater
      have hstop := (hsize order (List.mem_cons_self ..)).1
      have hroom := hheader order (List.mem_cons_self ..)
      omega

/-- The ranges of the orders are apart exactly when every window order
claims at least the seven bytes of its own header. -/
theorem rangesApart_iff (payload : List UInt8) : ∃ orders,
    taken payload = .ok orders ∧
    (RangesApart orders ↔ ∀ order ∈ orders, ∀ orderSize fieldFlags,
      order.head = .window orderSize fieldFlags → 7 ≤ orderSize.toNat) := by
  obtain ⟨⟨orders, htaken, -⟩, -⟩ := parse_total payload
  obtain ⟨hcons, hsize⟩ := taken_ranges htaken
  refine ⟨orders, htaken, fun h order ho orderSize fieldFlags hhead => ?_, fun h => ?_⟩
  · have hle := h.header_le order ho
    rw [(hsize order ho).1, Nat.add_sub_cancel_left, hhead] at hle
    exact hle
  · have hheader : ∀ order ∈ orders, order.head.length ≤ order.head.size := by
      intro order ho
      cases hhead : order.head with
      | frameMarker => exact Nat.le_refl 5
      | window orderSize fieldFlags => exact h order ho orderSize fieldFlags hhead
    refine ⟨hcons, fun order ho => ?_, hcons.apart hsize hheader⟩
    rw [(hsize order ho).1, Nat.add_sub_cancel_left]
    exact hheader order ho

/-- A window order that claims three bytes: the next order starts at the
flags of its header, which read as a frame marker. -/
theorem not_always_rangesApart : ¬ ∀ payload orders,
    taken payload = .ok orders → RangesApart orders := by
  intro h
  have htaken : taken [2, 0, 0x2C, 3, 0, 0x34, 0, 0, 0, 0] =
      .ok [⟨2, .window 3 0x34, 5, []⟩, ⟨5, .frameMarker, 10, []⟩] := rfl
  have hapart := (h _ _ htaken).apart
  exact absurd hapart (by decide)

end WasmRdp
