import WasmRdp.Lib.Extent
import WasmRdp.RailTrace

/-!
# Orders within their size

The parser reads an order from the payload as a whole, so nothing stops it
at the end that `orderSize` claims: `order_end` is passed to the parser of a
window's fields and not used. What an order contributes is a function of its
own bytes exactly when these bytes hold what its flags and counts promise
(`SelfContained`), or no event can come of it whatever follows.

For the readers that is a question about extents. A reader whose parts are
all there returns the same value whatever follows; one whose parts break off
fails at the end of the payload, and returns when enough follows. So a body is
either `BodySettled` or `BodyOpen`, and `settled_of_takes` says which, for a
reader of which the parts are known. The bodies that are not of this form are
treated by themselves: an icon, which can also fail to be one
(`settled_icon`), and the desktop order, which reads two things and makes two
events of them (`settled_desktop`).

To compare payloads one has to find the order again in another one. An order
is taken, at its place and with its header, from any payload that agrees up to
its end (`takeOrders_agree`), since the orders before it are within the common
part too. `Confined` says that its events are then the same, and
`confined_iff_selfContained` when they are. The order in
`not_always_confined` has no window id of its own and takes the next bytes for
one.
-/

namespace WasmRdp

open ByteReader Flags Slices

/-! ## What an order promises -/

def partIf (ff flag : UInt32) (p : Part) : List Part :=
  if has ff flag then [p] else []

/-- The fields of a create or update order, after the window id. -/
def stateParts (ff : UInt32) : List Part :=
  [partIf ff WINDOW_ORDER_FIELD_OWNER (.fixed 4),
    partIf ff WINDOW_ORDER_FIELD_STYLE (.fixed 8),
    partIf ff WINDOW_ORDER_FIELD_SHOW (.fixed 1),
    partIf ff WINDOW_ORDER_FIELD_TITLE (.counted 2 1),
    partIf ff WINDOW_ORDER_FIELD_CLIENT_AREA_OFFSET (.fixed 8),
    partIf ff WINDOW_ORDER_FIELD_CLIENT_AREA_SIZE (.fixed 8),
    partIf ff WINDOW_ORDER_FIELD_RESIZE_MARGIN_X (.fixed 8),
    partIf ff WINDOW_ORDER_FIELD_RESIZE_MARGIN_Y (.fixed 8),
    partIf ff WINDOW_ORDER_FIELD_RP_CONTENT (.fixed 1),
    partIf ff WINDOW_ORDER_FIELD_ROOT_PARENT (.fixed 4),
    partIf ff WINDOW_ORDER_FIELD_WND_OFFSET (.fixed 8),
    partIf ff WINDOW_ORDER_FIELD_WND_CLIENT_DELTA (.fixed 8),
    partIf ff WINDOW_ORDER_FIELD_WND_SIZE (.fixed 8),
    partIf ff WINDOW_ORDER_FIELD_WND_RECTS (.counted 2 8),
    partIf ff WINDOW_ORDER_FIELD_VIS_OFFSET (.fixed 8),
    partIf ff WINDOW_ORDER_FIELD_VISIBILITY (.counted 2 8)].flatten

def activeParts (ff : UInt32) : List Part :=
  partIf ff WINDOW_ORDER_FIELD_DESKTOP_ACTIVE_WND (.fixed 4)

def zOrderParts (ff : UInt32) : List Part :=
  partIf ff WINDOW_ORDER_FIELD_DESKTOP_ZORDER (.counted 1 4)

/-- The bytes hold a whole icon, or do not begin one that the decoder
takes. -/
def IconSettled (s : List UInt8) : Prop :=
  (∃ i : IconInfo, i.encode <+: s) ∨
    ¬ ∃ i : IconInfo, i.Drawable ∧ s <+: i.encode

/-- The body of a window order, from behind its header to the end of its
range, holds all that its flags and counts promise, or gives no event
whatever follows. -/
def SelfContained (ff : UInt32) (body : List UInt8) : Prop :=
  if has ff WINDOW_ORDER_TYPE_DESKTOP then
    extent (activeParts ff ++ zOrderParts ff) body ≤ body.length
  else if !has ff (WINDOW_ORDER_TYPE_WINDOW ||| WINDOW_ORDER_TYPE_NOTIFY) then True
  else if has ff WINDOW_ORDER_ICON then 4 ≤ body.length ∧ IconSettled (body.drop 4)
  else if has ff WINDOW_ORDER_CACHED_ICON then True
  else if has ff WINDOW_ORDER_TYPE_NOTIFY then True
  else if has ff WINDOW_ORDER_STATE_DELETED then 4 ≤ body.length
  else extent (.fixed 4 :: stateParts ff) body ≤ body.length

/-! ## The readers -/

/-- What a reader returns in front of the same bytes is one value. -/
theorem reads_unique {α : Type} {m : Read α} {bs : List UInt8} {a b : α}
    (ha : Reads m bs a) (hb : Reads m bs b) : a = b := by
  have hc : (⟨bs, 0⟩ : Cursor).Sees (bs ++ []) := ⟨Nat.zero_le _, (List.append_nil bs).symm⟩
  have h := (ha _ _ hc).symm.trans (hb _ _ hc)
  exact Option.some.inj (congrArg Prod.fst h)

theorem takes_u8 : Takes Reader.u8 [.fixed 1] where
  reads bs h := by
    obtain ⟨b, rfl⟩ := List.length_eq_one_iff.mp h.symm
    exact ⟨b, reads_u8 b⟩
  short c s hc h := by
    obtain rfl : s = [] := List.length_eq_zero_iff.mp (Nat.lt_one_iff.mp h)
    have hlen := hc.length
    rw [List.length_nil, Nat.add_zero] at hlen
    rw [Reader.u8, List.getElem?_eq_none hlen.ge]

theorem takes_u16 : Takes Reader.u16 [.fixed 2] := (takes_take 2).bind_pure

theorem takes_u32 : Takes Reader.u32 [.fixed 4] := (takes_take 4).bind_pure

theorem takes_i32 : Takes Reader.i32 [.fixed 4] := takes_u32.bind_pure

theorem takes_skip (n : Nat) : Takes (Reader.skip n) [.fixed n] where
  reads bs h := ⟨(), reads_skip h.symm⟩
  short c s hc h := by
    have hlen := hc.length
    have hn : s.length < n := h
    rw [Reader.skip, Reader.remaining, if_pos (by omega)]

theorem toNat_u8 (bs : List UInt8) (b : UInt8) (hlen : bs.length = 1)
    (h : Reads Reader.u8 bs b) : b.toNat = fromLe bs := by
  obtain ⟨b', rfl⟩ := List.length_eq_one_iff.mp hlen
  rw [reads_unique h (reads_u8 b')]
  rfl

theorem toNat_u16 (bs : List UInt8) (v : UInt16) (hlen : bs.length = 2)
    (h : Reads Reader.u16 bs v) : v.toNat = fromLe bs := by
  have hlt := fromLe_lt bs
  rw [hlen] at hlt
  rw [reads_unique h ((reads_take hlen).bind_pure), UInt16.toNat_ofNat_of_lt' hlt]

theorem takes_unicodeString : Takes Reader.unicodeString [.counted 2 1] :=
  takes_u16.counted toNat_u16 fun cb => by
    rw [Nat.mul_one]
    exact (takes_take cb.toNat).bind_pure

theorem takes_rect : Takes readRect [.fixed 8] :=
  (takes_u16.bind fun _ => takes_u16.bind fun _ => takes_u16.bind fun _ =>
    takes_u16.bind_pure).congr fun _ => rfl

theorem takes_rects : Takes (do let num ← Reader.u16; times num.toNat readRect)
    [.counted 2 8] :=
  takes_u16.counted toNat_u16 fun num => takes_rect.times num.toNat

theorem takes_skipRects :
    Takes (do let num ← Reader.u16; Reader.skip (num.toNat * 8)) [.counted 2 8] :=
  takes_u16.counted toNat_u16 fun _ => takes_skip _

theorem takes_ids : Takes (do let num ← Reader.u8; times num.toNat Reader.u32)
    [.counted 1 4] :=
  takes_u8.counted toNat_u8 fun num => takes_u32.times num.toNat

/-- Two numbers of four bytes. -/
theorem takes_pair {α β : Type} {m : Read α} {m' : Read β}
    (hm : Takes m [.fixed 4]) (hm' : Takes m' [.fixed 4]) :
    Takes (do let a ← m; let b ← m'; pure (a, b)) [.fixed 8] :=
  (hm.bind fun _ => hm'.bind_pure).congr fun _ => rfl

theorem takes_field {α : Type} {m : Read α} {p : Part} (ff flag : UInt32)
    (hm : Takes m [p]) : Takes (field ff flag m) (partIf ff flag p) :=
  hm.optional (has ff flag)

theorem takes_windowState (ff windowId : UInt32) :
    Takes (parseWindowState ff windowId) (stateParts ff) := by
  refine (takes_field ff _ (takes_skip 4)).bind fun _ => ?_
  refine (takes_field ff _ (takes_skip 8)).bind fun _ => ?_
  refine (takes_field ff _ takes_u8).bind fun _ => ?_
  refine (takes_field ff _ takes_unicodeString).bind fun _ => ?_
  refine (takes_field ff _ (takes_skip 8)).bind fun _ => ?_
  refine (takes_field ff _ (takes_skip 8)).bind fun _ => ?_
  refine (takes_field ff _ (takes_skip 8)).bind fun _ => ?_
  refine (takes_field ff _ (takes_skip 8)).bind fun _ => ?_
  refine (takes_field ff _ (takes_skip 1)).bind fun _ => ?_
  refine (takes_field ff _ (takes_skip 4)).bind fun _ => ?_
  refine (takes_field ff _ (takes_pair takes_i32 takes_i32)).bind fun _ => ?_
  refine (takes_field ff _ (takes_skip 8)).bind fun _ => ?_
  refine (takes_field ff _ (takes_pair takes_u32 takes_u32)).bind fun _ => ?_
  refine (takes_field ff _ takes_skipRects).bind fun _ => ?_
  refine (takes_field ff _ (takes_skip 8)).bind fun _ => ?_
  refine (takes_field ff _ takes_rects).bind fun _ => ?_
  exact Takes.pure _

/-! ## Bodies -/

section

variable {α : Type} {g : Cursor → Checked (List WindowEvent)} {body : List UInt8}

/-- In front of `body`, a parser gives the same events whatever follows. -/
def BodySettled (g : Cursor → Checked (List WindowEvent)) (body : List UInt8) : Prop :=
  ∃ events, ∀ (c : Cursor) (t : List UInt8), c.Sees (body ++ t) → g c = .ok events

/-- It gives more events when some bytes follow than when none do. -/
def BodyOpen (g : Cursor → Checked (List WindowEvent)) (body : List UInt8) : Prop :=
  ∃ t, ∀ c c' : Cursor, c.Sees body → c'.Sees (body ++ t) →
    ∃ events events', g c = .ok events ∧ g c' = .ok events' ∧
      events.length < events'.length

/-- One event of what a reader returns. -/
theorem settled_of_takes {m : Read α} {ps : List Part} (hm : Takes m ps)
    (event : α → WindowEvent)
    (hg : ∀ c, g c = .ok (((m c).1.map event).toList)) :
    (extent ps body ≤ body.length → BodySettled g body) ∧
      (¬ extent ps body ≤ body.length → BodyOpen g body) := by
  refine ⟨fun hfit => ?_, fun hshort => ?_⟩
  · obtain ⟨bs, rest, a, rfl, -, ha⟩ := hm.split hfit
    refine ⟨[event a], fun c t hc => ?_⟩
    rw [List.append_assoc] at hc
    rw [hg, ha c _ hc]
    rfl
  · obtain ⟨t, ht⟩ := exists_extent_le ps body
    obtain ⟨bs, rest, a, hbs, -, ha⟩ := hm.split ht
    refine ⟨t, fun c c' hc hc' => ⟨[], [event a], ?_, ?_, Nat.one_pos⟩⟩
    · rw [hg, hm.short c body hc (Nat.not_le.mp hshort)]
      rfl
    · rw [hbs] at hc'
      rw [hg, ha c' _ hc']
      rfl

/-- An icon of one pixel. -/
def dotIcon : IconInfo :=
  { cacheEntry := 0, cacheId := 0, bpp := 24, width := 1, height := 1
    bitsMask := [], colorTable := [], bitsColor := [0, 0, 0, 0]
    mask_le := by decide, table_le := by decide, color_le := by decide
    table_eq_nil := fun _ => rfl }

/-- A window id, and an icon. -/
theorem settled_icon (hg : ∀ c, g c = match Reader.u32 c with
      | (none, _) => .ok []
      | (some windowId, r) => parseIconOrder windowId r) :
    (4 ≤ body.length ∧ IconSettled (body.drop 4) → BodySettled g body) ∧
      (¬ (4 ≤ body.length ∧ IconSettled (body.drop 4)) → BodyOpen g body) := by
  by_cases hid : 4 ≤ body.length
  · obtain ⟨bs, s, windowId, rfl, hlen, ha⟩ := takes_u32.split (s := body) hid
    have hfour : bs.length = 4 := hlen
    have hu32 : ∀ {c : Cursor} {rest : List UInt8}, c.Sees (bs ++ rest) →
        g c = parseIconOrder windowId (c.advance bs.length) := by
      intro c rest hc
      rw [hg, ha c rest hc]
    rw [← hfour, List.drop_left]
    refine ⟨fun h => ?_, fun h => ?_⟩
    · by_cases hwhole : ∃ i : IconInfo, i.encode <+: s
      · obtain ⟨i, rest, rfl⟩ := hwhole
        refine ⟨if i.Drawable then [i.event windowId] else [], fun c t hc => ?_⟩
        rw [List.append_assoc, List.append_assoc] at hc
        rw [hu32 hc]
        exact parseIconOrder_icon i windowId hc.advance
      · refine ⟨[], fun c t hc => ?_⟩
        rw [List.append_assoc] at hc
        obtain ⟨events, hevents, hnil⟩ := parseIconOrder_any windowId hc.advance
        rw [hu32 hc, hevents, hnil.mpr]
        rintro ⟨i, hdraw, hi⟩
        rcases List.prefix_or_prefix_of_prefix hi (List.prefix_append s t) with hin | hout
        · exact hwhole ⟨i, hin⟩
        · exact (h.2.resolve_left hwhole) ⟨i, hdraw, hout⟩
    · have hopen := fun hs => h ⟨by rw [List.length_append]; omega, hs⟩
      have hwhole : ¬ ∃ i : IconInfo, i.encode <+: s := fun hw => hopen (.inl hw)
      obtain ⟨i, hdraw, t, ht⟩ := not_not.mp fun hno => hopen (.inr hno)
      refine ⟨t, fun c c' hc hc' => ?_⟩
      obtain ⟨events, hevents, hnil⟩ := parseIconOrder_any windowId hc.advance
      rw [List.append_assoc, ht, ← List.append_nil i.encode] at hc'
      have hicon := parseIconOrder_icon i windowId hc'.advance
      rw [if_pos hdraw] at hicon
      refine ⟨events, _, (hu32 hc).trans hevents, (hu32 hc').trans hicon, ?_⟩
      rw [hnil.mpr fun ⟨j, _, hj⟩ => hwhole ⟨j, hj⟩]
      exact Nat.one_pos
  · refine ⟨fun h => absurd h.1 hid, fun _ => ?_⟩
    have hlen : (body ++ List.replicate (4 - body.length) 0).length = 4 := by
      rw [List.length_append, List.length_replicate]
      omega
    obtain ⟨windowId, hread⟩ := takes_u32.reads _ hlen.symm
    refine ⟨List.replicate (4 - body.length) 0 ++ (dotIcon.encode ++ []),
      fun c c' hc hc' => ⟨[], [dotIcon.event windowId], ?_, ?_, Nat.one_pos⟩⟩
    · have hnone := takes_u32.short c body hc (Nat.not_le.mp hid)
      rcases hu : Reader.u32 c with ⟨_ | id, c₁⟩
      · rw [hg, hu]
      · rw [hu] at hnone
        cases hnone
    · rw [← List.append_assoc] at hc'
      rw [hg, hread c' _ hc']
      have hicon := parseIconOrder_icon dotIcon windowId hc'.advance
      rwa [if_pos (by decide)] at hicon

/-- A field whose flag is set is there when it is read. -/
theorem reads_field_some {m : Read α} {ff flag : UInt32} {bs : List UInt8}
    {a : Option α} (hflag : has ff flag = true) (h : Reads (field ff flag m) bs a) :
    ∃ b, a = some b := by
  have hc : (⟨bs, 0⟩ : Cursor).Sees (bs ++ []) := ⟨Nat.zero_le _, (List.append_nil bs).symm⟩
  have hsome : field ff flag m = (m >>= fun b => pure (some b)) := by
    unfold field ByteReader.optional
    rw [hflag]
    rfl
  have hread := h _ _ hc
  rw [hsome, bind_eq] at hread
  rcases hm : m ⟨bs, 0⟩ with ⟨_ | b, c⟩ <;> rw [hm] at hread <;> cases hread
  exact ⟨b, rfl⟩

/-- A field that is not all there has its flag set. -/
theorem has_of_extent {ff flag : UInt32} {p : Part} {s : List UInt8}
    (h : ¬ extent (partIf ff flag p) s ≤ s.length) : has ff flag = true := by
  rw [partIf] at h
  split at h
  · assumption
  · exact absurd (Nat.zero_le _) h

/-- The order of the windows, as `parse_desktop_order` reads it. -/
def readIds (ff : UInt32) : Read (Option (List UInt32)) :=
  field ff WINDOW_ORDER_FIELD_DESKTOP_ZORDER (do
    let num ← Reader.u8
    times num.toNat Reader.u32)

theorem parseDesktopOrder_none {ff : UInt32} {c : Cursor}
    (h : (field ff WINDOW_ORDER_FIELD_DESKTOP_ACTIVE_WND Reader.u32 c).1 = none) :
    parseDesktopOrder ff c = [] := by
  rw [parseDesktopOrder]
  split
  · rfl
  · rename_i heq
    rw [heq] at h
    cases h

theorem parseDesktopOrder_some {ff : UInt32} {c c' : Cursor} {active : Option UInt32}
    (h : field ff WINDOW_ORDER_FIELD_DESKTOP_ACTIVE_WND Reader.u32 c = (some active, c')) :
    parseDesktopOrder ff c = (active.map .activeWindow).toList ++
      ((readIds ff c').1.bind fun ids => ids.map WindowEvent.zOrder).toList := by
  rw [parseDesktopOrder, h]
  dsimp only
  rw [← readIds]
  rcases readIds ff c' with ⟨_ | ids, c''⟩
  · exact (List.append_nil _).symm
  · rfl

/-- The active window, and the order of the windows. -/
theorem settled_desktop (ff : UInt32) :
    (extent (activeParts ff ++ zOrderParts ff) body ≤ body.length →
      BodySettled (fun c => .ok (parseDesktopOrder ff c)) body) ∧
    (¬ extent (activeParts ff ++ zOrderParts ff) body ≤ body.length →
      BodyOpen (fun c => .ok (parseDesktopOrder ff c)) body) := by
  have hactive : Takes _ (activeParts ff) := takes_field ff _ takes_u32
  have hids : Takes (readIds ff) (zOrderParts ff) := takes_field ff _ takes_ids
  by_cases hfirst : extent (activeParts ff) body ≤ body.length
  · obtain ⟨bs, s, active, rfl, hlen, hread⟩ := hactive.split hfirst
    rw [extent_append, ← hlen, List.drop_left, List.length_append,
      Nat.add_le_add_iff_left]
    refine ⟨fun hfit => ?_, fun hshort => ?_⟩
    · obtain ⟨bs', rest, ids, rfl, -, hread'⟩ := hids.split hfit
      refine ⟨(active.map .activeWindow).toList ++ (ids.map .zOrder).toList,
        fun c t hc => ?_⟩
      rw [List.append_assoc, List.append_assoc] at hc
      dsimp only
      rw [parseDesktopOrder_some (hread c _ hc), hread' _ _ hc.advance]
      rfl
    · obtain ⟨t, ht⟩ := exists_extent_le (zOrderParts ff) s
      obtain ⟨bs', rest, ids, hs, -, hread'⟩ := hids.split ht
      obtain ⟨ids', rfl⟩ := reads_field_some (has_of_extent hshort) hread'
      refine ⟨t, fun c c' hc hc' => ⟨(active.map .activeWindow).toList, _, ?_, rfl, ?_⟩⟩
      · have hnone := hids.short _ s hc.advance (Nat.not_le.mp hshort)
        dsimp only
        rw [parseDesktopOrder_some (hread c _ hc), hnone]
        exact congrArg _ (List.append_nil _)
      · rw [List.append_assoc, hs] at hc'
        rw [parseDesktopOrder_some (hread c' _ hc'), hread' _ _ hc'.advance, List.length_append]
        exact Nat.lt_succ_self _
  · refine ⟨fun hfit => ?_, fun _ => ?_⟩
    · rw [extent_append] at hfit
      exact absurd ((Nat.le_add_right ..).trans hfit) hfirst
    · obtain ⟨t, ht⟩ := exists_extent_le (activeParts ff) body
      obtain ⟨bs, rest, active, hbs, -, hread⟩ := hactive.split ht
      obtain ⟨id, rfl⟩ := reads_field_some (has_of_extent hfirst) hread
      refine ⟨t, fun c c' hc hc' => ⟨[], _, ?_, rfl, ?_⟩⟩
      · exact congrArg _ (parseDesktopOrder_none
          (hactive.short c body hc (Nat.not_le.mp hfirst)))
      · rw [hbs] at hc'
        rw [parseDesktopOrder_some (hread c' _ hc'), List.length_append]
        exact Nat.lt_add_right _ Nat.one_pos

theorem parseWindowOrder_of_id {ff : UInt32}
    (hdesktop : ¬ has ff WINDOW_ORDER_TYPE_DESKTOP = true)
    (htype : ¬ (!has ff (WINDOW_ORDER_TYPE_WINDOW ||| WINDOW_ORDER_TYPE_NOTIFY)) = true)
    (c : Cursor) : parseWindowOrder ff c = match Reader.u32 c with
      | (none, _) => .ok []
      | (some windowId, r) =>
          if has ff WINDOW_ORDER_ICON then parseIconOrder windowId r
          else if has ff WINDOW_ORDER_CACHED_ICON then .ok []
          else if has ff WINDOW_ORDER_TYPE_NOTIFY then .ok []
          else if has ff WINDOW_ORDER_STATE_DELETED then .ok [.deleted windowId]
          else .ok (((parseWindowState ff windowId r).1.map .newOrUpdate).toList) := by
  rw [parseWindowOrder, if_neg hdesktop, if_neg htype]
  rcases Reader.u32 c with ⟨_ | windowId, r⟩
  · rfl
  · dsimp only
    rcases parseWindowState ff windowId r with ⟨_ | info, r'⟩ <;> rfl

/-- What a window order gives depends on what follows it exactly when it is
not self-contained. -/
theorem settled_parseWindowOrder (ff : UInt32) :
    (SelfContained ff body → BodySettled (parseWindowOrder ff) body) ∧
      (¬ SelfContained ff body → BodyOpen (parseWindowOrder ff) body) := by
  have hnil : ∀ {g : Cursor → Checked (List WindowEvent)}, (∀ c, g c = .ok []) →
      (True → BodySettled g body) ∧ (¬ True → BodyOpen g body) := fun hg =>
    ⟨fun _ => ⟨[], fun c _ _ => hg c⟩, fun h => absurd trivial h⟩
  unfold SelfContained
  split
  · rename_i hdesktop
    have hg : parseWindowOrder ff = fun c => .ok (parseDesktopOrder ff c) := by
      funext c
      rw [parseWindowOrder, if_pos hdesktop]
      rfl
    rw [hg]
    exact settled_desktop ff
  rename_i hdesktop
  split
  · rename_i htype
    exact hnil fun c => by
      rw [parseWindowOrder, if_neg hdesktop, if_pos htype]
      rfl
  rename_i htype
  have hid := parseWindowOrder_of_id hdesktop htype
  split
  · rename_i hicon
    simp only [if_pos hicon] at hid
    exact settled_icon hid
  rename_i hicon
  simp only [if_neg hicon] at hid
  split
  · rename_i hcached
    simp only [if_pos hcached] at hid
    refine hnil fun c => (hid c).trans ?_
    split <;> rfl
  rename_i hcached
  simp only [if_neg hcached] at hid
  split
  · rename_i hnotify
    simp only [if_pos hnotify] at hid
    refine hnil fun c => (hid c).trans ?_
    split <;> rfl
  rename_i hnotify
  simp only [if_neg hnotify] at hid
  split
  · rename_i hdeleted
    simp only [if_pos hdeleted] at hid
    refine settled_of_takes takes_u32 .deleted fun c => (hid c).trans ?_
    rcases Reader.u32 c with ⟨_ | windowId, r⟩ <;> rfl
  · rename_i hdeleted
    simp only [if_neg hdeleted] at hid
    refine settled_of_takes (m := do
        let windowId ← Reader.u32
        parseWindowState ff windowId)
      (takes_u32.bind fun windowId => takes_windowState ff windowId) .newOrUpdate
      fun c => (hid c).trans ?_
    rw [bind_eq]
    rcases Reader.u32 c with ⟨_ | windowId, r⟩ <;> rfl

end

/-! ## Payloads -/

/-- Payloads that agree up to `m` have the same bytes before. -/
theorem sees_agree {buf buf' hd rest : List UInt8} {pos m : Nat}
    (hc : (⟨buf, pos⟩ : Cursor).Sees (hd ++ rest)) (hag : buf'.take m = buf.take m)
    (hm : pos + hd.length ≤ m) :
    ∃ rest', (⟨buf', pos⟩ : Cursor).Sees (hd ++ rest') := by
  have hlen := hc.length
  have hlen' := congrArg List.length hag
  simp only [List.length_take, List.length_append] at hlen hlen'
  have hhd : hd = (buf'.drop pos).take hd.length := by
    have htake : ∀ l : List UInt8, (l.take m).take (pos + hd.length) =
        l.take (pos + hd.length) := fun l => by
      rw [List.take_take, Nat.min_eq_left hm]
    rw [List.take_drop, ← htake, hag, htake, ← List.take_drop, hc.2, List.take_left]
  refine ⟨(buf'.drop pos).drop hd.length, by dsimp only; omega, ?_⟩
  have hsplit := List.take_append_drop hd.length (buf'.drop pos)
  rw [← hhd] at hsplit
  exact hsplit.symm

/-- An order is taken again, at the same place and with the same header, from
any payload that agrees with this one up to its end. -/
theorem takeOrder_agree {buf buf' : List UInt8} {pos m : Nat} {order : TakenOrder}
    (hpos : pos ≤ buf.length) (h : takeOrder ⟨buf, pos⟩ = .ok (some order))
    (hag : buf'.take m = buf.take m) (hhead : order.start + order.head.length ≤ m)
    (hstop : order.stop ≤ m) :
    ∃ order', takeOrder ⟨buf', pos⟩ = .ok (some order') ∧
      order'.start = order.start ∧ order'.head = order.head ∧
      order'.stop = order.stop ∧ order'.stop ≤ buf'.length ∧ ∀ orderSize fieldFlags,
        order.head = .window orderSize fieldFlags →
          parseWindowOrder fieldFlags ⟨buf', pos + 7⟩ = .ok order'.events := by
  have hend : order.stop ≤ buf'.length := by
    have hle := (takeOrder_range (c := ⟨buf, pos⟩) hpos h).2.2
    have hlen := congrArg List.length hag
    simp only [List.length_take] at hlen
    dsimp only at hle
    omega
  have hturn := takeOrder_cases (c := ⟨buf, pos⟩) hpos
  generalize takeOrder ⟨buf, pos⟩ = turn at hturn h
  cases hturn with
  | stop => cases h
  | marker b action rest hstd htype haction hc =>
      cases h
      rw [← List.append_assoc] at hc
      obtain ⟨rest', hc'⟩ := sees_agree hc hag (by
        rw [List.length_append, haction]
        exact hhead)
      rw [List.append_assoc] at hc'
      exact ⟨_, takeOrder_marker hstd htype haction hc', rfl, rfl, rfl, hend,
        fun _ _ hno => by cases hno⟩
  | window b size flags rest hstd htype hc hsize hle =>
      obtain ⟨events, -, hev⟩ := bind_eq_ok h
      cases hev
      rw [← List.append_assoc, ← List.append_assoc] at hc
      obtain ⟨rest', hc'⟩ := sees_agree hc hag hhead
      rw [List.append_assoc, List.append_assoc] at hc'
      obtain ⟨events', hev', -⟩ := returns_parseWindowOrder flags ⟨buf', pos + 7⟩
      refine ⟨⟨pos, .window size flags, pos + size.toNat, events'⟩, ?_, rfl, rfl, rfl,
        hend, ?_⟩
      · have hthree : (3 : UInt16).toNat = 3 := rfl
        rw [takeOrder_window hstd htype hc', if_neg]
        · change (parseWindowOrder flags ⟨buf', pos + 7⟩ >>= _) = _
          rw [hev']
          rfl
        · rw [not_or, UInt16.lt_iff_toNat_lt, hthree, Nat.not_lt, gt_iff_lt, Nat.not_lt]
          exact ⟨hsize, hend⟩
      · rintro _ _ ⟨⟩
        exact hev'

/-- An order of a payload comes again, with its place and its header, from
any payload that agrees with this one up to its end. -/
theorem takeOrders_agree (n : Nat) {buf buf' : List UInt8} {pos : Nat}
    {orders : List TakenOrder} {order : TakenOrder} (hpos : pos ≤ buf.length)
    (h : takeOrders n ⟨buf, pos⟩ = .ok orders) (ho : order ∈ orders)
    (hag : buf'.take order.stop = buf.take order.stop)
    (hsize : order.head.length ≤ order.head.size) :
    ∃ orders', takeOrders n ⟨buf', pos⟩ = .ok orders' ∧ ∃ order' ∈ orders',
      order'.start = order.start ∧ order'.head = order.head ∧
      ∀ orderSize fieldFlags, order.head = .window orderSize fieldFlags →
        parseWindowOrder fieldFlags ⟨buf', order.start + 7⟩ = .ok order'.events := by
  induction n generalizing pos orders with
  | zero =>
      cases h
      cases ho
  | succ n ih =>
      rw [takeOrders] at h
      obtain ⟨taken, htake, h⟩ := bind_eq_ok h
      cases taken with
      | none =>
          cases h
          cases ho
      | some first =>
          obtain ⟨rest, hrest, h⟩ := bind_eq_ok h
          cases h
          obtain ⟨hstart, hspans, hle⟩ := takeOrder_range (c := ⟨buf, pos⟩) hpos htake
          rcases List.mem_cons.mp ho with rfl | ho
          · obtain ⟨order', htake', hstart', hhead', -, hle', hbody⟩ :=
              takeOrder_agree hpos htake hag (by rw [hspans.1]; omega) (Nat.le_refl _)
            obtain ⟨rest', hrest', -⟩ :=
              returns_takeOrders n (r := ⟨buf', order'.stop⟩) hle'
            refine ⟨order' :: rest', ?_, order', List.mem_cons_self .., hstart', hhead', ?_⟩
            · rw [takeOrders, htake']
              change (takeOrders n ⟨buf', order'.stop⟩ >>= _) = _
              rw [hrest']
              rfl
            · rw [hstart]
              exact hbody
          · obtain ⟨hcons, hall⟩ := takeOrders_ranges n (r := ⟨buf, first.stop⟩) hle hrest
            have hlow : first.stop ≤ order.start := hcons.le_start hall order ho
            obtain ⟨hstop, -⟩ := hall order ho
            have hfirst := first.head.length_bounds
            have hlast := order.head.length_bounds
            -- the header of an order ends before the next order does
            have hheader : first.start + first.head.length ≤ order.stop := by
              have := hspans.1
              have := hspans.2
              omega
            obtain ⟨first', htake', -, -, hstop', -⟩ :=
              takeOrder_agree hpos htake hag hheader (by omega)
            obtain ⟨orders', horders', order', ho', hsame⟩ := ih hle hrest ho
            refine ⟨first' :: orders', ?_, order', List.mem_cons_of_mem _ ho', hsame⟩
            rw [takeOrders, htake']
            change (takeOrders n ⟨buf', first'.stop⟩ >>= _) = _
            rw [hstop', horders']
            rfl

theorem taken_agree {payload payload' : List UInt8} {orders : List TakenOrder}
    {order : TakenOrder} (h : taken payload = .ok orders) (ho : order ∈ orders)
    (hag : payload'.take order.stop = payload.take order.stop)
    (hsize : order.head.length ≤ order.head.size) :
    ∃ orders', taken payload' = .ok orders' ∧ ∃ order' ∈ orders',
      order'.start = order.start ∧ order'.head = order.head ∧
      ∀ orderSize fieldFlags, order.head = .window orderSize fieldFlags →
        parseWindowOrder fieldFlags ⟨payload', order.start + 7⟩ =
          .ok order'.events := by
  obtain ⟨hcons, hall⟩ := taken_ranges h
  have hlow := hcons.le_start hall order ho
  have hstop := (hall order ho).1
  have hc : (⟨payload, 0⟩ : Cursor).Sees payload := ⟨Nat.zero_le _, rfl⟩
  rw [taken] at h
  rcases hu16 : Reader.u16 ⟨payload, 0⟩ with ⟨_ | numberOrders, r⟩
  · rw [hu16] at h
    cases h
    cases ho
  · obtain ⟨_, rest, rfl, rfl, rfl⟩ := consumes_u16 _ _ _ _ hc hu16
    rw [hu16] at h
    obtain ⟨rest', hc'⟩ := sees_agree hc hag (by rw [length_le16]; omega)
    rw [taken, reads_u16 _ _ _ hc']
    exact takeOrders_agree _ hc.advance.1 h ho hag hsize

/-- The orders of a payload start at different places. -/
theorem taken_unique {payload : List UInt8} {orders : List TakenOrder}
    (h : taken payload = .ok orders) {order order' : TakenOrder} (ho : order ∈ orders)
    (ho' : order' ∈ orders) (hstart : order.start = order'.start) : order = order' := by
  obtain ⟨hcons, hall⟩ := taken_ranges h
  clear h
  revert hcons
  generalize 2 = pos
  induction orders generalizing pos with
  | nil => cases ho
  | cons first orders ih =>
      intro hcons
      have hall' := fun o ho => hall o (List.mem_cons_of_mem first ho)
      have hlater : ∀ o ∈ orders, first.start < o.start := fun o ho => by
        have hlow := hcons.2.le_start hall' o ho
        obtain ⟨hstop, hthree⟩ := hall first (List.mem_cons_self ..)
        omega
      rcases List.mem_cons.mp ho with rfl | hmem <;>
        rcases List.mem_cons.mp ho' with rfl | hmem'
      · rfl
      · exact absurd hstart (hlater order' hmem').ne
      · exact absurd hstart (hlater order hmem).ne'
      · exact ih hmem hmem' hall' _ hcons.2

/-! ## Confinement -/

/-- The body of an order, in the payload it was taken from. -/
def TakenOrder.body (order : TakenOrder) (payload : List UInt8) : List UInt8 :=
  (payload.take order.stop).drop (order.start + 7)

/-- What the order contributes does not depend on what follows it: every
payload that agrees with this one up to its end has an order at the same
place with the same events. -/
def Confined (payload : List UInt8) (order : TakenOrder) : Prop :=
  ∀ payload' : List UInt8, payload'.take order.stop = payload.take order.stop →
    ∃ orders', taken payload' = .ok orders' ∧
      ∃ order' ∈ orders', order'.start = order.start ∧ order'.events = order.events

/-- An order as it comes from a payload with the same own bytes. -/
theorem TakenOrder.sees_body (order : TakenOrder) {payload payload' : List UInt8}
    (hroom : order.start + 7 ≤ order.stop) (hstop : order.stop ≤ payload.length)
    (hag : payload'.take order.stop = payload.take order.stop) :
    (⟨payload', order.start + 7⟩ : Cursor).Sees
      (order.body payload ++ payload'.drop order.stop) := by
  have hlen := congrArg List.length hag
  simp only [List.length_take] at hlen
  refine ⟨by dsimp only; omega, ?_⟩
  dsimp only
  rw [TakenOrder.body, ← hag]
  conv_lhs => rw [← List.take_append_drop order.stop payload']
  rw [List.drop_append_of_le_length (by rw [List.length_take]; omega)]

/-- An order is confined to its own bytes exactly when it is self-contained. -/
theorem confined_iff_selfContained {payload : List UInt8} {orders : List TakenOrder}
    {order : TakenOrder} {orderSize : UInt16} {fieldFlags : UInt32}
    (h : taken payload = .ok orders) (ho : order ∈ orders)
    (hhead : order.head = .window orderSize fieldFlags) (hsize : 7 ≤ orderSize.toNat) :
    Confined payload order ↔ SelfContained fieldFlags (order.body payload) := by
  have hroom : order.head.length ≤ order.head.size := by
    rw [hhead]
    exact hsize
  have hspans := ((taken_ranges h).2 order ho).1
  rw [hhead] at hspans
  obtain ⟨⟨orders₀, htaken₀, -, -, hwithin⟩, -⟩ := parse_total payload
  obtain rfl : orders₀ = orders := Except.ok.inj (htaken₀.symm.trans h)
  have hstop := (hwithin order ho).stop_le
  have hsees : ∀ payload' : List UInt8,
      payload'.take order.stop = payload.take order.stop →
      (⟨payload', order.start + 7⟩ : Cursor).Sees
        (order.body payload ++ payload'.drop order.stop) := fun payload' hag =>
    order.sees_body (by rw [hspans]; exact Nat.add_le_add_left hsize _) hstop hag
  have hbody : ∀ payload' : List UInt8,
      payload'.take order.stop = payload.take order.stop →
      ∃ orders', taken payload' = .ok orders' ∧ ∃ order' ∈ orders',
        order'.start = order.start ∧
        parseWindowOrder fieldFlags ⟨payload', order.start + 7⟩ = .ok order'.events := by
    intro payload' hag
    obtain ⟨orders', htaken', order', ho', hstart', -, hev⟩ :=
      taken_agree h ho hag hroom
    exact ⟨orders', htaken', order', ho', hstart', hev _ _ hhead⟩
  -- on its own payload, it is the order itself
  obtain ⟨orders', htaken', order', ho', hstart', hev⟩ := hbody payload rfl
  obtain rfl : orders' = orders₀ := Except.ok.inj (htaken'.symm.trans h)
  obtain rfl := taken_unique h ho' ho hstart'
  constructor
  · intro hconf
    by_contra hopen
    obtain ⟨t, ht⟩ := (settled_parseWindowOrder fieldFlags).2 hopen
    -- cut off behind the order, and with `t` behind it
    have hown : ∀ t, (payload.take order'.stop ++ t).take order'.stop =
        payload.take order'.stop := fun t =>
      List.take_left' (List.length_take_of_le hstop)
    have hevents : ∀ t, parseWindowOrder fieldFlags
        ⟨payload.take order'.stop ++ t, order'.start + 7⟩ = .ok order'.events := by
      intro t
      obtain ⟨os, hos, o, hmem, hst, hpar⟩ := hbody _ (hown t)
      obtain ⟨os', hos', o', hmem', hst', hev'⟩ := hconf _ (hown t)
      obtain rfl : os' = os := Except.ok.inj (hos'.symm.trans hos)
      obtain rfl := taken_unique hos hmem' hmem (hst'.trans hst.symm)
      rw [hpar, hev']
    have hdrop : ∀ t, (payload.take order'.stop ++ t).drop order'.stop = t := fun t =>
      List.drop_left' (List.length_take_of_le hstop)
    have hshort := hsees _ (hown [])
    have hlong := hsees _ (hown t)
    rw [hdrop] at hshort hlong
    rw [List.append_nil (order'.body payload)] at hshort
    obtain ⟨events, events', hev₁, hev₂, hlt⟩ := ht _ _ hshort hlong
    rw [hevents] at hev₁ hev₂
    cases hev₁
    cases hev₂
    exact absurd hlt (Nat.lt_irrefl _)
  · intro hself payload' hag
    obtain ⟨events, hsettled⟩ := (settled_parseWindowOrder fieldFlags).1 hself
    obtain ⟨os, hos, o, hmem, hst, hpar⟩ := hbody payload' hag
    refine ⟨os, hos, o, hmem, hst, ?_⟩
    have h₁ := hpar.symm.trans (hsettled _ _ (hsees payload' hag))
    have h₂ := hev.symm.trans (hsettled _ _ (hsees payload rfl))
    exact Except.ok.inj (h₁.trans h₂.symm)

/-- A delete order that holds its window id. -/
theorem confined_iff_selfContained_example :
    let payload : List UInt8 := [1, 0, 0x2C, 11, 0, 0, 0, 0, 0x21, 9, 0, 0, 0]
    let order : TakenOrder := ⟨2, .window 11 0x21000000, 13, [.deleted 9]⟩
    Confined payload order ↔ SelfContained 0x21000000 (order.body payload) := by
  have htaken : taken [1, 0, 0x2C, 11, 0, 0, 0, 0, 0x21, 9, 0, 0, 0] =
      .ok [⟨2, .window 11 0x21000000, 13, [.deleted 9]⟩] := rfl
  exact confined_iff_selfContained htaken (List.mem_singleton.mpr rfl) rfl (by decide)

/-- A delete order without a window id: it deletes the window whose id is the
first bytes of the frame marker that follows. -/
theorem not_always_confined : ¬ ∀ (payload payload' : List UInt8)
    (orders orders' : List TakenOrder) (order order' : TakenOrder),
    taken payload = .ok orders → taken payload' = .ok orders' →
    order ∈ orders → order' ∈ orders' → 7 ≤ order.head.size →
    payload'.length = payload.length →
    payload'.take order.stop = payload.take order.stop →
    order'.start = order.start → order'.events = order.events := by
  intro h
  have hev := h [2, 0, 0x2C, 7, 0, 0, 0, 0, 0x21, 0x34, 1, 0, 0, 0]
    [2, 0, 0x2C, 7, 0, 0, 0, 0, 0x21, 0x34, 2, 0, 0, 0]
    [⟨2, .window 7 0x21000000, 9, [.deleted 0x134]⟩, ⟨9, .frameMarker, 14, []⟩]
    [⟨2, .window 7 0x21000000, 9, [.deleted 0x234]⟩, ⟨9, .frameMarker, 14, []⟩]
    _ _ rfl rfl (List.mem_cons_self ..) (List.mem_cons_self ..) (by decide) rfl rfl rfl
  exact absurd hev (by decide)

end WasmRdp
