import WasmRdp.RailWire

/-!
# Reading the fields of window orders

Each reader of the parser is described by what it reads, following its
definition: the numbers, the optional fields of a window, the icon. For the
icon the converse matters as well, because the parser may come to look for
one where none is: what it reads as an icon was one (`iconBits_prefix`).

An optional field is there exactly when its flag is, so that one lemma for a
field (`reads_field`) turns the flags of an order into the parts of its
encoding. `reads_part` and `reads_skipped` are that lemma for a field that is
its decoded part and for one that is passed over. The sixteen fields of a
window are then one application after the other (`reads_windowState`), under
`StateFlags`, which says that the flag word belongs to the fields; the flag
words of `RailWire` do (`stateFlags`).

For icons both triples are used. `reads_iconInfo` says what is read in front
of an icon, `consumes_iconInfo` that whatever was read as one has the bytes of
one. `parseIconOrder_any` follows: in front of any bytes at all an event comes
out exactly when they begin with an icon that the decoder takes.
-/

namespace WasmRdp

open ByteReader Flags Slices

/-! ## Numbers -/

theorem length_le16 (v : UInt16) : (le16 v).length = 2 := length_toLe 2 _

theorem length_le8 (v : UInt8) : [v].length = 1 := rfl

theorem length_le32 (v : UInt32) : (le32 v).length = 4 := length_toLe 4 _

theorem ofNat_fromLe_le16 (v : UInt16) : UInt16.ofNat (fromLe (le16 v)) = v := by
  rw [le16, fromLe_toLe (k := 2) v.toNat_lt, UInt16.ofNat_toNat]

theorem ofNat_fromLe_le32 (v : UInt32) : UInt32.ofNat (fromLe (le32 v)) = v := by
  rw [le32, fromLe_toLe (k := 4) v.toNat_lt, UInt32.ofNat_toNat]

theorem toNat_ofNat16 {n : Nat} (h : n ≤ 65535) : (UInt16.ofNat n).toNat = n := by
  rw [UInt16.toNat_ofNat']
  omega

theorem reads_u8 (b : UInt8) : Reads Reader.u8 [b] b := by
  intro c rest hc
  have hget : c.buf[c.pos]? = some b := by
    have h := congrArg (·[0]?) hc.2
    rwa [List.getElem?_drop] at h
  rw [Reader.u8, hget]
  rfl

theorem remaining_ne_zero {c : Cursor} {b : UInt8} {s : List UInt8}
    (hc : c.Sees ([b] ++ s)) : ¬ Reader.remaining c = 0 := by
  have hlen := hc.length
  rw [List.length_append, List.length_singleton] at hlen
  rw [Reader.remaining]
  omega

theorem reads_u16 (v : UInt16) : Reads Reader.u16 (le16 v) v := by
  have h := (reads_take (length_le16 v)).bind_pure
    (f := fun s => UInt16.ofNat (fromLe s))
  rwa [ofNat_fromLe_le16] at h

theorem reads_u32 (v : UInt32) : Reads Reader.u32 (le32 v) v := by
  have h := (reads_take (length_le32 v)).bind_pure
    (f := fun s => UInt32.ofNat (fromLe s))
  rwa [ofNat_fromLe_le32] at h

theorem reads_i32 (v : Int32) : Reads Reader.i32 (leI32 v) v :=
  (reads_u32 v.toUInt32).bind_pure (f := UInt32.toInt32)

theorem reads_skip {bs : List UInt8} {n : Nat} (h : bs.length = n) :
    Reads (Reader.skip n) bs () := by
  intro c rest hc
  have hlen := hc.length
  rw [List.length_append] at hlen
  rw [Reader.skip, Reader.remaining, if_neg (by omega), h]

theorem reads_rect (r : Rect) : Reads readRect r.encode r :=
  (reads_u16 _).bind ((reads_u16 _).bind ((reads_u16 _).bind
    ((reads_u16 _).bind (Reads.pure _))))

theorem length_rect (r : Rect) : r.encode.length = 8 := rfl

theorem units_flatMap (units : List UInt16) :
    Reader.units (units.flatMap le16) = units := by
  induction units with
  | nil => rfl
  | cons u units ih =>
      have hcons : ∀ rest, Reader.units (le16 u ++ rest) =
          UInt16.ofNat (fromLe (le16 u)) :: Reader.units rest := fun _ => rfl
      rw [List.flatMap_cons, hcons, ofNat_fromLe_le16, ih]

theorem length_flatMap_const {α : Type} {enc : α → List UInt8} {k : Nat}
    (h : ∀ a, (enc a).length = k) (as : List α) :
    (as.flatMap enc).length = as.length * k := by
  induction as with
  | nil => exact (Nat.zero_mul k).symm
  | cons a as ih =>
      rw [List.flatMap_cons, List.length_append, h, ih, List.length_cons,
        Nat.add_mul, Nat.one_mul, Nat.add_comm]

theorem reads_unicodeString {units : List UInt16} (h : units.length * 2 ≤ 65535) :
    Reads Reader.unicodeString (counted16 (units.length * 2) le16 units)
      (String.ofList (Utf16.decodeLossy units)) := by
  have hbytes : (units.flatMap le16).length =
      (UInt16.ofNat (units.length * 2)).toNat := by
    rw [toNat_ofNat16 h, length_flatMap_const length_le16]
  have hread := (reads_take hbytes).bind_pure (f := fun bytes =>
    String.ofList (Utf16.decodeLossy (Reader.units bytes)))
  rw [units_flatMap] at hread
  exact (reads_u16 _).bind hread

/-! ## The fields of a window -/

/-- A pair of numbers. -/
theorem reads_pair {α β : Type} {m : Read α} {m' : Read β}
    {enc : α → List UInt8} {enc' : β → List UInt8} (hm : ∀ a, Reads m (enc a) a)
    (hm' : ∀ b, Reads m' (enc' b) b) (p : α × β) :
    Reads (do let a ← m; let b ← m'; pure (a, b)) (pair enc enc' p) p :=
  (hm p.1).bind ((hm' p.2).bind (Reads.pure _))

/-- A field that is there when its flag says so. -/
theorem reads_field {α β : Type} {ff flag : UInt32} {m : Read α}
    {enc : β → List UInt8} {val : β → α} {part : Option β}
    (hflag : has ff flag = part.isSome)
    (hm : ∀ b ∈ part, Reads m (enc b) (val b)) :
    Reads (field ff flag m) (part.elim [] enc) (part.map val) :=
  Reads.optional hflag hm

/-- A field whose value is its decoded part. -/
theorem reads_part {α : Type} {ff flag : UInt32} {m : Read α}
    {enc : α → List UInt8} {part : Option α} (hflag : has ff flag = part.isSome)
    (hm : ∀ a ∈ part, Reads m (enc a) a) :
    Reads (field ff flag m) (part.elim [] enc) part := by
  have h := reads_field hflag hm
  rwa [Option.map_id'] at h

/-- A field that is skipped. -/
theorem reads_skipped {β : Type} {ff flag : UInt32} {enc : β → List UInt8}
    {part : Option β} {n : Nat} (hflag : has ff flag = part.isSome)
    (hlen : ∀ b, (enc b).length = n) :
    Reads (field ff flag (Reader.skip n)) (part.elim [] enc)
      (part.map fun _ => ()) :=
  reads_field hflag fun b _ => reads_skip (hlen b)

theorem reads_rects {rects : List Rect} (h : rects.length ≤ 65535) :
    Reads (do let num ← Reader.u16; times num.toNat readRect)
      (counted16 rects.length Rect.encode rects) rects := by
  refine (reads_u16 _).bind ?_
  rw [toNat_ofNat16 h]
  exact Reads.times fun r _ => reads_rect r

theorem reads_skipRects {rects : List Rect} (h : rects.length ≤ 65535) :
    Reads (do let num ← Reader.u16; Reader.skip (num.toNat * 8))
      (counted16 rects.length Rect.encode rects) () := by
  refine (reads_u16 _).bind (reads_skip ?_)
  rw [toNat_ofNat16 h, length_flatMap_const length_rect]

/-- The flags of a create or update order are those of its fields. -/
structure StateFlags (ff : UInt32) (isNew : Bool) (f : WindowFields) : Prop where
  isNew : has ff WINDOW_ORDER_STATE_NEW = isNew
  owner : has ff WINDOW_ORDER_FIELD_OWNER = f.owner.isSome
  style : has ff WINDOW_ORDER_FIELD_STYLE = f.style.isSome
  showState : has ff WINDOW_ORDER_FIELD_SHOW = f.showState.isSome
  title : has ff WINDOW_ORDER_FIELD_TITLE = f.title.isSome
  clientOffset : has ff WINDOW_ORDER_FIELD_CLIENT_AREA_OFFSET = f.clientOffset.isSome
  clientSize : has ff WINDOW_ORDER_FIELD_CLIENT_AREA_SIZE = f.clientSize.isSome
  resizeMarginX : has ff WINDOW_ORDER_FIELD_RESIZE_MARGIN_X = f.resizeMarginX.isSome
  resizeMarginY : has ff WINDOW_ORDER_FIELD_RESIZE_MARGIN_Y = f.resizeMarginY.isSome
  rpContent : has ff WINDOW_ORDER_FIELD_RP_CONTENT = f.rpContent.isSome
  rootParent : has ff WINDOW_ORDER_FIELD_ROOT_PARENT = f.rootParent.isSome
  wndOffset : has ff WINDOW_ORDER_FIELD_WND_OFFSET = f.wndOffset.isSome
  wndClientDelta : has ff WINDOW_ORDER_FIELD_WND_CLIENT_DELTA = f.wndClientDelta.isSome
  wndSize : has ff WINDOW_ORDER_FIELD_WND_SIZE = f.wndSize.isSome
  wndRects : has ff WINDOW_ORDER_FIELD_WND_RECTS = f.wndRects.isSome
  visOffset : has ff WINDOW_ORDER_FIELD_VIS_OFFSET = f.visOffset.isSome
  visibility : has ff WINDOW_ORDER_FIELD_VISIBILITY = f.visibility.isSome

theorem reads_windowState {ff windowId : UInt32} {isNew : Bool} {f : WindowFields}
    (h : StateFlags ff isNew f) :
    Reads (parseWindowState ff windowId) f.encode (f.info windowId isNew) := by
  have hpair : ∀ p : UInt32 × UInt32, (pair le32 le32 p).length = 8 := fun _ => rfl
  have hpairI : ∀ p : Int32 × Int32, (pair leI32 leI32 p).length = 8 := fun _ => rfl
  refine (reads_skipped h.owner length_le32).bind ?_
  refine (reads_skipped h.style hpair).bind ?_
  refine (reads_part h.showState fun b _ => reads_u8 b).bind ?_
  refine (reads_field h.title fun units hu =>
    reads_unicodeString (f.title_le units hu)).bind ?_
  refine (reads_skipped h.clientOffset hpairI).bind ?_
  refine (reads_skipped h.clientSize hpair).bind ?_
  refine (reads_skipped h.resizeMarginX hpair).bind ?_
  refine (reads_skipped h.resizeMarginY hpair).bind ?_
  refine (reads_skipped h.rpContent length_le8).bind ?_
  refine (reads_skipped h.rootParent length_le32).bind ?_
  refine (reads_part h.wndOffset fun p _ =>
    reads_pair reads_i32 reads_i32 p).bind ?_
  refine (reads_skipped h.wndClientDelta hpairI).bind ?_
  refine (reads_part h.wndSize fun p _ =>
    reads_pair reads_u32 reads_u32 p).bind ?_
  refine (reads_field h.wndRects fun rects hr =>
    reads_skipRects (f.wndRects_le rects hr)).bind ?_
  refine (reads_skipped h.visOffset hpairI).bind ?_
  refine (reads_part h.visibility fun rects hr =>
    reads_rects (f.visibility_le rects hr)).bind ?_
  rw [h.isNew]
  exact Reads.pure _

theorem stateFlags (windowId : UInt32) (isNew : Bool) (f : WindowFields)
    (extra : FlagsOutside parsedFlags) :
    StateFlags (WindowOrder.state windowId isNew f extra).flags isNew f := by
  have hextra : ∀ flag, parsedFlags &&& flag = flag → has extra.1 flag = false :=
    fun flag => has_of_disjoint extra.2
  constructor <;>
    simp only [WindowOrder.flags, WindowFields.flags, has_or, has_flagIf] <;>
    rw [hextra _ (by decide), Bool.eq_iff_iff] <;>
    simp +decide only [Bool.or_eq_true, Bool.and_eq_true, and_true, and_false,
      or_false, false_or]

/-! ## Icons -/

/-- What the parser keeps of an icon. -/
def IconInfo.bits (i : IconInfo) : IconBits :=
  ⟨i.bpp, i.width, i.height, i.bitsMask, i.bitsColor⟩

theorem reads_iconInfo (i : IconInfo) : Reads readIconInfo i.encodeInfo i.bits := by
  have hmask : i.bitsMask.length = (UInt16.ofNat i.bitsMask.length).toNat :=
    (toNat_ofNat16 i.mask_le).symm
  have hcolor : i.bitsColor.length = (UInt16.ofNat i.bitsColor.length).toNat :=
    (toNat_ofNat16 i.color_le).symm
  have htable : i.colorTable.length = (UInt16.ofNat i.colorTable.length).toNat :=
    (toNat_ofNat16 i.table_le).symm
  -- the length of the colour table is there when it can be other than zero
  have hcount : Reads (readCbColorTable i.bpp)
      (if isPalettized i.bpp then le16 (UInt16.ofNat i.colorTable.length) else [])
      (UInt16.ofNat i.colorTable.length) := by
    rw [readCbColorTable]
    split
    · exact reads_u16 _
    · rename_i hbpp
      rw [i.table_eq_nil (Bool.eq_false_iff.mpr hbpp)]
      exact Reads.pure 0
  exact (reads_u8 _).bind ((reads_u16 _).bind ((reads_u16 _).bind (hcount.bind
    ((reads_u16 _).bind ((reads_u16 _).bind ((reads_take hmask).bind
      ((reads_take htable).bind ((reads_take hcolor).bind (Reads.pure _)))))))))

theorem reads_iconBits (i : IconInfo) : Reads readIconBits i.encode i.bits :=
  (reads_u16 _).attempt.bind ((reads_u8 _).attempt.bind (reads_iconInfo i))

theorem consumes_u8 : Consumes Reader.u8 fun bs b => bs = [b] := by
  intro c s b c' hc h
  rw [Reader.u8] at h
  split at h
  · rename_i b' hget
    cases h
    rw [← Nat.add_zero c.pos, ← List.getElem?_drop, hc.2] at hget
    cases s with
    | nil => cases hget
    | cons b' s =>
        cases hget
        exact ⟨[b], s, rfl, rfl, rfl⟩
  · cases h

theorem consumes_u16 : Consumes Reader.u16 fun bs v => bs = le16 v := by
  refine ((consumes_take 2).bind fun s => Consumes.pure _).imp fun bs v h => ?_
  obtain ⟨bs₁, bs₂, s, rfl, ⟨hlen, rfl⟩, rfl, rfl⟩ := h
  have hlt := fromLe_lt s
  rw [hlen] at hlt
  rw [le16, UInt16.toNat_ofNat_of_lt' hlt, List.append_nil, ← hlen, toLe_fromLe]

theorem consumes_u32 : Consumes Reader.u32 fun bs v => bs = le32 v := by
  refine ((consumes_take 4).bind fun s => Consumes.pure _).imp fun bs v h => ?_
  obtain ⟨bs₁, bs₂, s, rfl, ⟨hlen, rfl⟩, rfl, rfl⟩ := h
  have hlt := fromLe_lt s
  rw [hlen] at hlt
  rw [le32, UInt32.toNat_ofNat_of_lt' hlt, List.append_nil, ← hlen, toLe_fromLe]

theorem consumes_skip (n : Nat) :
    Consumes (Reader.skip n) fun bs _ => bs.length = n := by
  intro c s u c' hc h
  have hlen := hc.length
  unfold Reader.skip at h
  split at h
  · cases h
  · rename_i hfit
    rw [Reader.remaining] at hfit
    cases h
    have htake : (s.take n).length = n := by
      rw [List.length_take]
      omega
    refine ⟨s.take n, s.drop n, (List.take_append_drop n s).symm, ?_, htake⟩
    rw [htake]

/-- An icon that was read was there. -/
theorem consumes_iconInfo (cacheEntry : UInt16) (cacheId : UInt8) :
    Consumes readIconInfo fun bs bits => ∃ i : IconInfo,
      i.cacheEntry = cacheEntry ∧ i.cacheId = cacheId ∧ i.bits = bits ∧
      bs = i.encodeInfo := by
  have hcount : ∀ bpp, Consumes (readCbColorTable bpp) fun bs v =>
      bs = (if isPalettized bpp then le16 v else []) ∧
        (isPalettized bpp = false → v = 0) := by
    intro bpp
    rw [readCbColorTable]
    split
    · rename_i hbpp
      refine consumes_u16.imp fun bs v h => ⟨h, fun hno => ?_⟩
      exact absurd (hbpp.symm.trans hno) (by decide)
    · refine (Consumes.pure 0).imp fun bs v h => ⟨h.1, fun _ => h.2⟩
  refine (consumes_u8.bind fun bpp => consumes_u16.bind fun width =>
    consumes_u16.bind fun height => (hcount bpp).bind fun cbColorTable =>
    consumes_u16.bind fun cbBitsMask => consumes_u16.bind fun cbBitsColor =>
    (consumes_take cbBitsMask.toNat).bind fun bitsMask =>
    (consumes_take cbColorTable.toNat).bind fun colorTable =>
    (consumes_take cbBitsColor.toNat).bind fun bitsColor =>
    Consumes.pure _).imp fun bs bits h => ?_
  obtain ⟨_, _, bpp, rfl, rfl, _, _, width, rfl, rfl, _, _, height, rfl, rfl,
    _, _, cbColorTable, rfl, ⟨rfl, hzero⟩, _, _, cbBitsMask, rfl, rfl,
    _, _, cbBitsColor, rfl, rfl, _, _, bitsMask, rfl, ⟨hmask, rfl⟩,
    _, _, colorTable, rfl, ⟨htable, rfl⟩, _, _, bitsColor, rfl, ⟨hcolor, rfl⟩,
    rfl, rfl⟩ := h
  have hlt := cbBitsMask.toNat_lt
  have hlt' := cbColorTable.toNat_lt
  have hlt'' := cbBitsColor.toNat_lt
  refine ⟨⟨cacheEntry, cacheId, bpp, width, height, bitsMask, colorTable, bitsColor,
    by omega, by omega, by omega, fun hbpp => ?_⟩, rfl, rfl, rfl, ?_⟩
  · rw [hzero hbpp] at htable
    exact List.length_eq_zero_iff.mp htable
  · simp only [IconInfo.encodeInfo, List.flatten_cons, List.flatten_nil, hmask,
      htable, hcolor, UInt16.ofNat_toNat]

/-- The bytes begin with an icon that the decoder takes. -/
def HasIcon (s : List UInt8) : Prop :=
  ∃ i : IconInfo, i.Drawable ∧ i.encode <+: s

theorem u8_eq_none {c c' : Cursor} {s : List UInt8} (hc : c.Sees s)
    (h : Reader.u8 c = (none, c')) : c' = c ∧ s = [] := by
  rw [Reader.u8] at h
  split at h
  · cases h
  · rename_i hget
    cases h
    have hlen := hc.length
    have hpos := List.getElem?_eq_none_iff.mp hget
    exact ⟨rfl, List.length_eq_zero_iff.mp (by omega)⟩

theorem u16_eq_none {c c' : Cursor} {s : List UInt8} (hc : c.Sees s)
    (h : Reader.u16 c = (none, c')) : c' = c ∧ s.length < 2 := by
  rw [Reader.u16, bind_eq] at h
  rcases htake : take 2 c with ⟨_ | bs, c₁⟩ <;> rw [htake] at h <;> cases h
  exact take_eq_none hc htake

/-- What was read as an icon begins with one. -/
theorem iconBits_prefix {c c' : Cursor} {s : List UInt8} {bits : IconBits}
    (hc : c.Sees s) (h : readIconBits c = (some bits, c')) :
    ∃ i : IconInfo, i.bits = bits ∧ i.encode <+: s := by
  -- with nothing left, the depth is not there
  have hnil : ∀ {c₀ : Cursor}, c₀.Sees [] → readIconInfo c₀ ≠ (some bits, c') := by
    intro c₀ hc₀ h₀
    obtain ⟨bs, rest, hbs, -, i, -, -, -, rfl⟩ := consumes_iconInfo 0 0 c₀ [] _ _ hc₀ h₀
    cases hbs
  rw [readIconBits, bind_eq, attempt] at h
  rcases hentry : Reader.u16 c with ⟨_ | cacheEntry, c₁⟩ <;> rw [hentry] at h <;>
    dsimp only at h <;> rw [bind_eq, attempt] at h <;>
    rcases hid : Reader.u8 c₁ with ⟨_ | cacheId, c₂⟩ <;> rw [hid] at h <;>
    dsimp only at h
  · obtain ⟨rfl, hshort⟩ := u16_eq_none hc hentry
    obtain ⟨rfl, rfl⟩ := u8_eq_none hc hid
    exact absurd h (hnil hc)
  · obtain ⟨rfl, hshort⟩ := u16_eq_none hc hentry
    obtain ⟨_, rest, rfl, rfl, rfl⟩ := consumes_u8 _ _ _ _ hc hid
    obtain rfl : rest = [] := List.length_eq_zero_iff.mp (by
      rw [List.length_append] at hshort
      simp only [List.length_singleton] at hshort
      omega)
    exact absurd h (hnil hc.advance)
  · obtain ⟨_, rest, rfl, rfl, rfl⟩ := consumes_u16 _ _ _ _ hc hentry
    obtain ⟨rfl, rfl⟩ := u8_eq_none hc.advance hid
    exact absurd h (hnil hc.advance)
  · obtain ⟨_, rest, rfl, rfl, rfl⟩ := consumes_u16 _ _ _ _ hc hentry
    obtain ⟨_, rest', rfl, rfl, rfl⟩ := consumes_u8 _ _ _ _ hc.advance hid
    obtain ⟨_, rest'', rfl, -, i, rfl, rfl, hbits, rfl⟩ :=
      consumes_iconInfo cacheEntry cacheId _ _ _ _ hc.advance.advance h
    refine ⟨i, hbits, rest'', ?_⟩
    rw [IconInfo.encode, List.append_assoc, List.append_assoc]

/-- `parse_icon_order` in front of an icon. -/
theorem parseIconOrder_icon (i : IconInfo) (windowId : UInt32) {c : Cursor}
    {rest : List UInt8} (hc : c.Sees (i.encode ++ rest)) :
    parseIconOrder windowId c =
      .ok (if i.Drawable then [i.event windowId] else []) := by
  rw [parseIconOrder, reads_iconBits i c rest hc]
  dsimp only [IconInfo.bits]
  rw [decodeIcon_eq]
  by_cases hdraw : Drawable i.bpp i.width i.height i.bitsColor
  · rw [if_pos hdraw, if_pos (show i.Drawable from hdraw)]
    rfl
  · rw [if_neg hdraw, if_neg (show ¬ i.Drawable from hdraw)]
    rfl

/-- `parse_icon_order` in front of anything: an event comes out when the
bytes begin with a drawable icon, and only then. -/
theorem parseIconOrder_any (windowId : UInt32) {c : Cursor} {s : List UInt8}
    (hc : c.Sees s) : ∃ events, parseIconOrder windowId c = .ok events ∧
      (events = [] ↔ ¬ HasIcon s) := by
  rcases hbits : readIconBits c with ⟨_ | bits, c'⟩
  · refine ⟨[], by rw [parseIconOrder, hbits]; rfl, fun _ => ?_, fun _ => rfl⟩
    rintro ⟨i, -, rest, rfl⟩
    rw [reads_iconBits i c rest hc] at hbits
    cases hbits
  · obtain ⟨i, -, rest, rfl⟩ := iconBits_prefix hc hbits
    refine ⟨_, parseIconOrder_icon i windowId hc, ?_, fun hno => ?_⟩
    · rintro hnil ⟨j, hdraw, rest', heq⟩
      -- the two icons are the one that is read
      have hc' : c.Sees (j.encode ++ rest') := heq ▸ hc
      have hj := parseIconOrder_icon j windowId hc'
      rw [parseIconOrder_icon i windowId hc, if_pos hdraw, hnil] at hj
      cases hj
    · exact if_neg fun hdraw => hno ⟨i, hdraw, rest, rfl⟩

end WasmRdp
