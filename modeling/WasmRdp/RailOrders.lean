import WasmRdp.RailParse

/-!
# Parsing inverts the encoding

The events of a payload are those of its orders, by induction on the
orders: the parser leaves each at the end that `orderSize` announces,
whatever it made of the fields.

There is one exception. The parser asks for an icon before it asks whether
the order is a notification, so the icon flag of a notification makes it
read the notification as the icon of a window, over the end of the order if
need be. If the bytes happen to begin with one, an event comes out that no
order called for (`Stray`): `parse` inverts the encoding exactly of the
payloads without such a notification (`parse_encode_iff`).

`WindowOrder.ParsesTo` states for one order what its body comes to, the
exception included, and `parseWindowOrder_body` proves it by one lemma for
each kind. What follows the order in the payload is an argument, since a stray
icon may reach into it. `parseOrders_cons` is one turn of the loop with the
turns after it.

For the other direction of the equivalence a stray order has to be seen in the
result: it adds an event where none is due, so that the list of events is
longer than it should be. `trayIcon` is a notification of a tray icon, with a
tooltip, that the parser takes for the icon of a window
(`not_always_inverts`).
-/

namespace WasmRdp

open ByteReader Flags Slices

/-! ## Bodies -/

/-- A notification with the icon flag that reads as an icon, with
`following` after it. -/
def WindowOrder.Stray (following : List UInt8) : WindowOrder → Prop
  | .notify _ extra notification =>
      has extra.1 WINDOW_ORDER_ICON = true ∧ HasIcon (notification ++ following)
  | _ => False

/-- What the body of an order comes to. -/
def WindowOrder.ParsesTo (order : WindowOrder) (following : List UInt8)
    (out : Checked (List WindowEvent)) : Prop :=
  ∃ events, out = .ok events ∧
    (¬ order.Stray following ∧ events = order.events ∨
      order.Stray following ∧ order.events.length < events.length)

theorem WindowOrder.ParsesTo.ok {order : WindowOrder} {following : List UInt8}
    {out : Checked (List WindowEvent)} (hno : ¬ order.Stray following)
    (h : out = .ok order.events) : order.ParsesTo following out :=
  ⟨_, h, .inl ⟨hno, rfl⟩⟩

section

variable {ff windowId : UInt32} {c : Cursor} {rest : List UInt8}

/-- The orders that begin with a window id. -/
theorem parseWindowOrder_id (hdesktop : has ff WINDOW_ORDER_TYPE_DESKTOP = false)
    (htype : has ff (WINDOW_ORDER_TYPE_WINDOW ||| WINDOW_ORDER_TYPE_NOTIFY) = true)
    (hc : c.Sees (le32 windowId ++ rest)) :
    parseWindowOrder ff c =
      if has ff WINDOW_ORDER_ICON then parseIconOrder windowId (c.advance 4)
      else if has ff WINDOW_ORDER_CACHED_ICON then .ok []
      else if has ff WINDOW_ORDER_TYPE_NOTIFY then .ok []
      else if has ff WINDOW_ORDER_STATE_DELETED then .ok [.deleted windowId]
      else match parseWindowState ff windowId (c.advance 4) with
        | (some info, _) => .ok [.newOrUpdate info]
        | (none, _) => .ok [] := by
  rw [parseWindowOrder, if_neg (by rw [hdesktop]; decide),
    if_neg (by rw [htype]; decide), reads_u32 windowId c rest hc, length_le32]
  rfl

theorem parse_delete (hc : c.Sees (le32 windowId ++ rest)) :
    parseWindowOrder (WINDOW_ORDER_TYPE_WINDOW ||| WINDOW_ORDER_STATE_DELETED) c =
      .ok [.deleted windowId] := by
  rw [parseWindowOrder_id (by decide) (by decide) hc, if_neg (by decide),
    if_neg (by decide), if_neg (by decide), if_pos (by decide)]

theorem parse_icon {isNew : Bool} {info : IconInfo}
    (hc : c.Sees (le32 windowId ++ (info.encode ++ rest))) :
    parseWindowOrder (WINDOW_ORDER_TYPE_WINDOW ||| WINDOW_ORDER_ICON |||
        flagIf isNew WINDOW_ORDER_STATE_NEW) c =
      .ok (if info.Drawable then [info.event windowId] else []) := by
  have hicon := parseIconOrder_icon info windowId hc.advance
  cases isNew <;>
    rw [parseWindowOrder_id (by decide) (by decide) hc, if_pos (by decide)] <;>
    exact hicon

theorem parse_cachedIcon {isNew : Bool} (hc : c.Sees (le32 windowId ++ rest)) :
    parseWindowOrder (WINDOW_ORDER_TYPE_WINDOW ||| WINDOW_ORDER_CACHED_ICON |||
      flagIf isNew WINDOW_ORDER_STATE_NEW) c = .ok [] := by
  cases isNew <;>
    rw [parseWindowOrder_id (by decide) (by decide) hc, if_neg (by decide),
      if_pos (by decide)]

theorem parse_state {isNew : Bool} {fields : WindowFields}
    {extra : FlagsOutside parsedFlags}
    (hc : c.Sees (le32 windowId ++ (fields.encode ++ rest))) :
    parseWindowOrder (WindowOrder.state windowId isNew fields extra).flags c =
      .ok [.newOrUpdate (fields.info windowId isNew)] := by
  have hextra : ∀ flag, parsedFlags &&& flag = flag → has extra.1 flag = false :=
    fun flag => has_of_disjoint extra.2
  -- none of the other kinds is flagged
  have hnone : ∀ flag ∈ [WINDOW_ORDER_TYPE_DESKTOP, WINDOW_ORDER_ICON,
      WINDOW_ORDER_CACHED_ICON, WINDOW_ORDER_TYPE_NOTIFY,
      WINDOW_ORDER_STATE_DELETED],
      has (WindowOrder.state windowId isNew fields extra).flags flag = false := by
    simp only [List.forall_mem_cons, List.not_mem_nil, false_implies, implies_true,
      and_true]
    refine ⟨?_, ?_, ?_, ?_, ?_⟩ <;>
      simp only [WindowOrder.flags, WindowFields.flags, has_or, has_flagIf] <;>
      rw [hextra _ (by decide), Bool.eq_false_iff] <;>
      simp +decide only [ne_eq, Bool.or_eq_true, Bool.and_eq_true, and_false, or_false,
        not_false_eq_true]
  simp only [List.forall_mem_cons, List.not_mem_nil, false_implies, implies_true,
    and_true] at hnone
  obtain ⟨hdesktop, hicon, hcached, hnotify, hdeleted⟩ := hnone
  have htype : has (WindowOrder.state windowId isNew fields extra).flags
      (WINDOW_ORDER_TYPE_WINDOW ||| WINDOW_ORDER_TYPE_NOTIFY) = true := by
    simp only [WindowOrder.flags, has_or]
    rw [show has WINDOW_ORDER_TYPE_WINDOW
      (WINDOW_ORDER_TYPE_WINDOW ||| WINDOW_ORDER_TYPE_NOTIFY) = true by decide]
    rfl
  have hread : parseWindowState _ windowId (c.advance 4) = _ :=
    reads_windowState (stateFlags windowId isNew fields extra) _ _ hc.advance
  rw [parseWindowOrder_id hdesktop htype hc, hicon, hcached, hnotify, hdeleted, hread]
  rfl

theorem parse_notify
    {extra : FlagsOutside (WINDOW_ORDER_TYPE_WINDOW ||| WINDOW_ORDER_TYPE_DESKTOP)}
    {notification : List UInt8}
    (hc : c.Sees (le32 windowId ++ (notification ++ rest))) :
    (WindowOrder.notify windowId extra notification).ParsesTo rest
      (parseWindowOrder (WindowOrder.notify windowId extra notification).flags c) := by
  have hflags : ∀ flag, has (WindowOrder.notify windowId extra notification).flags flag =
      (has WINDOW_ORDER_TYPE_NOTIFY flag || has extra.1 flag) := fun flag => has_or ..
  have hdesktop : has (WindowOrder.notify windowId extra notification).flags
      WINDOW_ORDER_TYPE_DESKTOP = false := by
    rw [hflags, has_of_disjoint extra.2 (by decide)]
    decide
  have htype : has (WindowOrder.notify windowId extra notification).flags
      (WINDOW_ORDER_TYPE_WINDOW ||| WINDOW_ORDER_TYPE_NOTIFY) = true := by
    rw [hflags, Bool.or_eq_true]
    exact .inl (by decide)
  rw [parseWindowOrder_id hdesktop htype hc, hflags, hflags, hflags]
  have hno : has WINDOW_ORDER_TYPE_NOTIFY WINDOW_ORDER_ICON = false := by decide
  rw [hno, Bool.false_or]
  split
  · rename_i hicon
    obtain ⟨events, hparse, hevents⟩ := parseIconOrder_any windowId hc.advance
    rw [length_le32] at hparse
    refine ⟨events, hparse, ?_⟩
    by_cases hhas : HasIcon (notification ++ rest)
    · refine .inr ⟨⟨hicon, hhas⟩, List.length_pos_iff.mpr fun hnil => ?_⟩
      exact hevents.mp hnil hhas
    · exact .inl ⟨fun h => hhas h.2, hevents.mpr hhas⟩
  · rename_i hicon
    refine WindowOrder.ParsesTo.ok (fun h => hicon h.1) ?_
    split
    · rfl
    · rw [show has WINDOW_ORDER_TYPE_NOTIFY WINDOW_ORDER_TYPE_NOTIFY = true by decide]
      rfl

theorem reads_ids {ids : List UInt32} (h : ids.length ≤ 255) :
    Reads (do let num ← Reader.u8; times num.toNat Reader.u32)
      (UInt8.ofNat ids.length :: ids.flatMap le32) ids := by
  refine (reads_u8 _).bind ?_
  rw [UInt8.toNat_ofNat', Nat.mod_eq_of_lt (by omega)]
  exact Reads.times fun id _ => reads_u32 id

theorem parse_desktop {active : Option UInt32} {zOrder : Option (List UInt32)}
    {zOrder_le : ∀ ids ∈ zOrder, ids.length ≤ 255}
    {extra : FlagsOutside (WINDOW_ORDER_FIELD_DESKTOP_ACTIVE_WND |||
      WINDOW_ORDER_FIELD_DESKTOP_ZORDER)}
    (hc : c.Sees ((WindowOrder.desktop active zOrder zOrder_le extra).body ++ rest)) :
    parseWindowOrder (WindowOrder.desktop active zOrder zOrder_le extra).flags c =
      .ok (WindowOrder.desktop active zOrder zOrder_le extra).events := by
  have hflags : ∀ flag,
      has (WindowOrder.desktop active zOrder zOrder_le extra).flags flag =
        (has WINDOW_ORDER_TYPE_DESKTOP flag ||
          active.isSome && has WINDOW_ORDER_FIELD_DESKTOP_ACTIVE_WND flag ||
          zOrder.isSome && has WINDOW_ORDER_FIELD_DESKTOP_ZORDER flag ||
          has extra.1 flag) := fun flag => by
    simp only [WindowOrder.flags, has_or, has_flagIf]
  have hdesktop : has (WindowOrder.desktop active zOrder zOrder_le extra).flags
      WINDOW_ORDER_TYPE_DESKTOP = true := by
    rw [hflags, show has WINDOW_ORDER_TYPE_DESKTOP WINDOW_ORDER_TYPE_DESKTOP = true
      by decide]
    rfl
  have hactive : has (WindowOrder.desktop active zOrder zOrder_le extra).flags
      WINDOW_ORDER_FIELD_DESKTOP_ACTIVE_WND = active.isSome := by
    rw [hflags, has_of_disjoint extra.2 (by decide), Bool.eq_iff_iff]
    simp +decide only [Bool.or_eq_true, Bool.and_eq_true, and_true, and_false,
      or_false, false_or]
  have hz : has (WindowOrder.desktop active zOrder zOrder_le extra).flags
      WINDOW_ORDER_FIELD_DESKTOP_ZORDER = zOrder.isSome := by
    rw [hflags, has_of_disjoint extra.2 (by decide), Bool.eq_iff_iff]
    simp +decide only [Bool.or_eq_true, Bool.and_eq_true, and_true, and_false,
      or_false, false_or]
  rw [WindowOrder.body, List.append_assoc] at hc
  have hreadActive := reads_part hactive (fun id _ => reads_u32 id) c _ hc
  have hreadZ := reads_part hz
    (fun ids hids => reads_ids (zOrder_le ids hids)) _ _ hc.advance
  rw [parseWindowOrder, if_pos hdesktop, parseDesktopOrder, hreadActive]
  dsimp only
  rw [hreadZ]
  rfl

end

/-- The body of an order, followed by `rest`. -/
theorem parseWindowOrder_body (order : WindowOrder) {c : Cursor} {rest : List UInt8}
    (hc : c.Sees (order.body ++ rest)) :
    order.ParsesTo rest (parseWindowOrder order.flags c) := by
  cases order with
  | delete windowId =>
      rw [WindowOrder.body, List.append_assoc] at hc
      exact .ok id (parse_delete hc)
  | icon windowId isNew info =>
      rw [WindowOrder.body, List.append_assoc] at hc
      exact .ok id (parse_icon hc)
  | cachedIcon windowId isNew cacheEntry cacheId =>
      rw [WindowOrder.body, List.append_assoc] at hc
      exact .ok id (parse_cachedIcon hc)
  | notify windowId extra notification =>
      rw [WindowOrder.body, List.append_assoc] at hc
      exact parse_notify hc
  | desktop active zOrder zOrder_le extra => exact .ok id (parse_desktop hc)
  | state windowId isNew fields extra =>
      rw [WindowOrder.body, List.append_assoc] at hc
      exact .ok id (parse_state hc)

/-! ## Payloads -/

def Order.Stray (following : List UInt8) : Order → Prop
  | .frameMarker .. => False
  | .window _ order trailing _ => order.Stray (trailing ++ following)

/-- No notification with the icon flag is followed by what reads as an
icon. -/
def NoStrayIcon : List Order → Prop
  | [] => True
  | order :: orders =>
      ¬ order.Stray (orders.flatMap Order.encode) ∧ NoStrayIcon orders

theorem controlFlags_spec (secondary : Bool) :
    controlFlags ORDER_TYPE_FRAME_MARKER secondary &&& ORDER_STANDARD = 0 ∧
    controlFlags ORDER_TYPE_FRAME_MARKER secondary >>> 2 = ORDER_TYPE_FRAME_MARKER ∧
    controlFlags ORDER_TYPE_WINDOW secondary &&& ORDER_STANDARD = 0 ∧
    controlFlags ORDER_TYPE_WINDOW secondary >>> 2 = ORDER_TYPE_WINDOW := by
  cases secondary <;> decide

/-- One turn of the loop: the order, and the orders after it. -/
theorem parseOrders_cons (order : Order) (n : Nat) {c : Cursor} {rest : List UInt8}
    (hc : c.Sees (order.encode ++ rest)) : ∃ events,
      parseOrders (n + 1) c =
        (do let more ← parseOrders n (c.advance order.encode.length)
            return events ++ more) ∧
      (¬ order.Stray rest ∧ events = order.events ∨
        order.Stray rest ∧ order.events.length < events.length) := by
  cases order with
  | frameMarker secondary action =>
      obtain ⟨hstd, htype, -, -⟩ := controlFlags_spec secondary
      rw [Order.encode, List.append_assoc] at hc
      refine ⟨[], ?_, .inl ⟨id, rfl⟩⟩
      rw [parseOrders, if_neg (remaining_ne_zero hc), reads_u8 _ c _ hc]
      dsimp only
      rw [if_neg (not_not.mpr hstd), if_pos htype,
        reads_skip (length_le32 action) _ _ hc.advance]
      dsimp only
      simp only [List.nil_append, bind_pure, Order.encode, List.length_append,
        Cursor.advance_advance, length_le32]
  | window secondary order trailing fits =>
      obtain ⟨-, -, hstd, htype⟩ := controlFlags_spec secondary
      have hsize := toNat_ofNat16 fits
      have hlen : (Order.window secondary order trailing fits).encode.length =
          7 + (order.body.length + trailing.length) := by
        simp only [Order.encode, List.length_append, List.length_singleton,
          length_le16, length_le32]
        omega
      have hend := hc.length
      have hnext := hc.advance
      rw [List.length_append, hlen] at hend
      rw [Order.encode, List.append_assoc, List.append_assoc, List.append_assoc,
        List.append_assoc] at hc
      have hc₁ := hc.advance
      have hc₂ := hc₁.advance
      have hc₃ := hc₂.advance
      obtain ⟨events, hbody, hevents⟩ := parseWindowOrder_body order hc₃
      refine ⟨events, ?_, hevents⟩
      rw [parseOrders, if_neg (remaining_ne_zero hc), reads_u8 _ c _ hc]
      dsimp only
      rw [if_neg (not_not.mpr hstd), if_neg (by rw [htype]; decide), if_pos htype,
        reads_u16 _ _ _ hc₁]
      dsimp only
      rw [reads_u32 _ _ _ hc₂]
      dsimp only
      rw [hsize, hbody, if_neg, hlen]
      · rfl
      · rintro (hlt | hgt)
        · have hthree : (3 : UInt16).toNat = 3 := rfl
          rw [UInt16.lt_iff_toNat_lt, hsize] at hlt
          omega
        · omega

theorem parseOrders_encode (orders : List Order) {c : Cursor}
    (hc : c.Sees (orders.flatMap Order.encode)) : ∃ events,
      parseOrders orders.length c = .ok events ∧
      (orders.flatMap Order.events).length ≤ events.length ∧
      (events = orders.flatMap Order.events ↔ NoStrayIcon orders) := by
  induction orders generalizing c with
  | nil => exact ⟨[], rfl, Nat.le_refl _, fun _ => trivial, fun _ => rfl⟩
  | cons order orders ih =>
      rw [List.flatMap_cons] at hc
      obtain ⟨events, hparse, hevents⟩ := parseOrders_cons order orders.length hc
      obtain ⟨more, hmore, hle, hiff⟩ := ih hc.advance
      refine ⟨events ++ more, ?_, ?_, ?_⟩
      · rw [List.length_cons, hparse, hmore]
        rfl
      · rw [List.flatMap_cons, List.length_append, List.length_append]
        rcases hevents with ⟨-, rfl⟩ | ⟨-, hlt⟩ <;> omega
      · rw [List.flatMap_cons, NoStrayIcon, ← hiff]
        rcases hevents with ⟨hno, rfl⟩ | ⟨hstray, hlt⟩
        · rw [List.append_cancel_left_eq]
          exact ⟨fun h => ⟨hno, h⟩, fun h => h.2⟩
        · -- the event too many shows in the length
          constructor
          · intro heq
            have hlen := congrArg List.length heq
            rw [List.length_append, List.length_append] at hlen
            omega
          · exact fun h => absurd hstray h.1

/-- The parser inverts the encoding of a payload exactly when no
notification in it reads as an icon. -/
theorem parse_encode_iff (orders : List Order) (h : orders.length ≤ 65535) :
    parse (encodeOrders orders) = .ok (orders.flatMap Order.events) ↔
      NoStrayIcon orders := by
  have hstart : (⟨encodeOrders orders, 0⟩ : Cursor).Sees
      (le16 (UInt16.ofNat orders.length) ++ orders.flatMap Order.encode) :=
    ⟨Nat.zero_le _, rfl⟩
  obtain ⟨events, hparse, -, hiff⟩ := parseOrders_encode orders hstart.advance
  rw [parse, reads_u16 _ _ _ hstart]
  dsimp only
  rw [toNat_ofNat16 h, hparse, ← hiff, Except.ok.injEq]

/-- A frame marker, a delete order with bytes after it, and a cached icon. -/
theorem parse_encode_iff_example :
    let orders : List Order :=
      [.frameMarker true 0, .window true (.delete 9) [1, 2, 3] (by decide),
        .window false (.cachedIcon 9 true 1 2) [] (by decide)]
    parse (encodeOrders orders) = .ok [.deleted 9] ↔ NoStrayIcon orders :=
  parse_encode_iff _ (by decide)

/-- A notification with the id `0x20000000`, a tab for a tooltip and a
32 × 32 icon of one bit a pixel. Read as an icon, the id gives a depth of
32 bits and the tooltip a size of 2 × 9, and the real icon is long enough
for that. -/
def trayIcon : Order :=
  .window true
    (.notify 1 ⟨WINDOW_ORDER_STATE_NEW ||| WINDOW_ORDER_ICON ||| 1, by decide⟩
      (le32 0x20000000 ++ le16 2 ++ [9, 0] ++ IconInfo.encode
        { cacheEntry := 0, cacheId := 8, bpp := 1, width := 32, height := 32
          bitsMask := List.replicate 128 0
          colorTable := List.replicate 8 0
          bitsColor := List.replicate 128 0
          mask_le := by decide +kernel, table_le := by decide +kernel
          color_le := by decide +kernel, table_eq_nil := by decide }))
    [] (by decide +kernel)

/-- The icon of a tray icon becomes the icon of a window. -/
theorem not_always_inverts : ¬ ∀ orders : List Order, orders.length ≤ 65535 →
    parse (encodeOrders orders) = .ok (orders.flatMap Order.events) := by
  intro h
  have hlen := congrArg (fun out => out.toOption.map List.length)
    (h [trayIcon] (by decide))
  exact absurd hlen (by decide +kernel)

end WasmRdp
